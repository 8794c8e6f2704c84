/-
  OraOS.Lib.Scripts — a call as the tree of its statements.

  A statement that reads decides how the call goes on, a write either commits or
  fails, and a failed write may be recovered from in a new transaction.  A lookup is
  a read that can answer the call by itself: a replay.

    * `Script.run`     — the call on its own;
    * `Script.session` — any number of calls, interleaved at their statements;
    * `Script.Sound`   — a call's writes leave what the call is for, and its lookups
                         hit only where it is known;
    * `answered_owned` — if what is known is the call's own at every lookup, every
                         call answered with success has what it is for.
-/
import OraOS.Lib.Sessions

namespace OraOS.Lib

/-- What is left of a call, as a tree of its statements. -/
inductive Script (σ κ ε : Type) where
  | answer (r : Except ε Unit)
  /-- reads, and goes on by what it read -/
  | read (next : σ → Script σ κ ε)
  /-- a replay: answers the call if it finds something -/
  | lookup (find : σ → Option (Except ε Unit)) (next : Script σ κ ε)
  /-- waits for the lock -/
  | lock (k : κ) (next : Script σ κ ε)
  /-- the transaction's writes and its commit; if they fail, a new transaction -/
  | write (f : σ → Except ε σ) (recover : ε → Script σ κ ε)

namespace Script

variable {σ κ ε ρ : Type}

/-- Goes on with what a check returned, or answers with its error. -/
def orRefuse {α : Type} (x : Except ε α) (next : α → Script σ κ ε) : Script σ κ ε :=
  match x with
  | .ok a => next a
  | .error e => .answer (.error e)

/-- Takes the lock, if there is one to take. -/
def lockAny (k : Option κ) (next : Script σ κ ε) : Script σ κ ε :=
  match k with
  | some k => .lock k next
  | none => next

/-! ## §1. A call on its own. -/

/-- What is committed at the end, and the answer. -/
def run (s : σ) : Script σ κ ε → σ × Except ε Unit
  | .answer r => (s, r)
  | .read next => run s (next s)
  | .lookup find next =>
      match find s with
      | some r => (s, r)
      | none => run s next
  | .lock _ next => run s next
  | .write f recover =>
      match f s with
      | .ok s' => (s', .ok ())
      | .error e => run s (recover e)

/-- The outcome of a service method as a run's. -/
def outcome (s : σ) (x : Except ε σ) : σ × Except ε Unit :=
  match x with
  | .ok s' => (s', .ok ())
  | .error e => (s, .error e)

/-- On its own a call gets every lock it asks for. -/
@[simp] theorem run_lockAny (s : σ) (k : Option κ) (next : Script σ κ ε) :
    run s (lockAny k next) = run s next := by
  cases k <;> rfl

/-- A check, and the rest if it passes, are the two in one program. -/
theorem run_orRefuse {α : Type} {s : σ} {x : Except ε α} {next : α → Script σ κ ε}
    {f : α → Except ε σ} (h : ∀ a, x = .ok a → run s (next a) = outcome s (f a)) :
    run s (orRefuse x next) = outcome s (x >>= f) := by
  cases x with
  | ok a => exact h a rfl
  | error e => rfl

/-! ## §2. Any number of calls. -/

/-- The next statement.  An answer that needs no write ends the transaction. -/
def turn (s : σ) : Script σ κ ε → Turn σ (Script σ κ ε) κ
  | .answer _ => .idle
  | .read next =>
      -- a script that answers after a read has nothing to commit
      match next s with
      | .answer r => .rollback (.answer r)
      | rest => .go rest
  | .lookup find next =>
      match find s with
      | some r => .rollback (.answer r)
      | none => .go next
  | .lock k next => .lock k next
  | .write f recover =>
      match f s with
      | .ok s' => .commit s' (.answer (.ok ()))
      | .error e => .rollback (recover e)

/-- The same, for a call that keeps its request. -/
def callTurn (s : σ) (t : ρ × Script σ κ ε) : Turn σ (ρ × Script σ κ ε) κ :=
  match turn s t.2 with
  | .go b => .go (t.1, b)
  | .lock k b => .lock k (t.1, b)
  | .commit s' b => .commit s' (t.1, b)
  | .rollback b => .rollback (t.1, b)
  | .idle => .idle

/-- Calls `ρ` by their scripts; `le` says how what is committed may change elsewhere. -/
def session (script : ρ → Script σ κ ε) (le : σ → σ → Prop) :
    Session σ (ρ × Script σ κ ε) ρ κ Unit {w : σ → σ // ∀ s, le s (w s)} where
  start r := (r, script r)
  turn _ := callTurn
  env s w := w.1 s

/-! ## §3. Sound scripts. -/

/-- From `s` on: a write leaves what the call is for and only adds to what is
committed, a lookup hits only where the call's key is known, and nothing else
answers with success. -/
def Sound (le : σ → σ → Prop) (known own : σ → Prop) : σ → Script σ κ ε → Prop
  | _, .answer r => r ≠ .ok ()
  | s, .read next => ∀ s', le s s' → Sound le known own s' (next s')
  | s, .lookup find next => (∀ s', le s s' → find s' = some (.ok ()) → known s')
      ∧ Sound le known own s next
  | s, .lock _ next => Sound le known own s next
  | s, .write f recover => ∀ s', le s s' → (∀ s'', f s' = .ok s'' → own s'' ∧ le s' s'')
      ∧ ∀ e, f s' = .error e → Sound le known own s' (recover e)

variable {le : σ → σ → Prop} {known own : σ → Prop}

/-- What is sound in a state is sound in every later one. -/
theorem Sound.mono (htrans : ∀ a b c, le a b → le b c → le a c) {s s' : σ} (hle : le s s')
    {b : Script σ κ ε} (h : Sound le known own s b) : Sound le known own s' b := by
  induction b with
  | answer r => exact h
  | read next ih => exact fun s'' hle' => h s'' (htrans _ _ _ hle hle')
  | lookup find next ih => exact ⟨fun s'' hle' => h.1 s'' (htrans _ _ _ hle hle'), ih h.2⟩
  | lock k next ih => exact ih h
  | write f recover ih => exact fun s'' hle' => h s'' (htrans _ _ _ hle hle')

/-- A refusal is always sound. -/
theorem Sound.orRefuse {α : Type} {s : σ} {x : Except ε α} {next : α → Script σ κ ε}
    (h : ∀ a, x = .ok a → Sound le known own s (next a)) :
    Sound le known own s (orRefuse x next) := by
  cases x with
  | ok a => exact h a rfl
  | error e => exact nofun

theorem Sound.lockAny {s : σ} {k : Option κ} {next : Script σ κ ε}
    (h : Sound le known own s next) : Sound le known own s (lockAny k next) := by
  cases k with
  | none => exact h
  | some k => exact h

/-- What a call in flight has: its success means what it is for is there. -/
def Owns (le : σ → σ → Prop) (known own : ρ → σ → Prop) (s : σ) (t : ρ × Script σ κ ε) :
    Prop :=
  Sound le (known t.1) (own t.1) s t.2 ∨ ∃ r, t.2 = .answer r ∧ (r = .ok () → own t.1 s)

/-- At every lookup what is known is the call's own. -/
def OwnLookups (known own : ρ → σ → Prop) (c : Sessions σ (ρ × Script σ κ ε) κ) :
    SessionEvent ρ Unit {w : σ → σ // ∀ s, le s (w s)} → Prop
  | .run i _ => ∀ r find next, c.running i = some (r, .lookup find next) →
      known r c.shared → own r c.shared
  | _ => True

/-- What a call in flight owns it owns in every later state. -/
theorem Owns.mono {known own : ρ → σ → Prop} (htrans : ∀ a b c, le a b → le b c → le a c)
    (hown : ∀ r a b, le a b → own r a → own r b) {s s' : σ} (hle : le s s')
    {t : ρ × Script σ κ ε} (h : Owns le known own s t) : Owns le known own s' t := by
  rcases h with h | ⟨r, hr, h⟩
  · exact .inl (h.mono htrans hle)
  · exact .inr ⟨r, hr, fun hok => hown _ _ _ hle (h hok)⟩

/-- What a statement leaves: the state it commits, if it does, and the rest of the
call. -/
inductive Stepped (s : σ) (t : ρ × Script σ κ ε) :
    Turn σ (ρ × Script σ κ ε) κ → σ → ρ × Script σ κ ε → Prop where
  | go {t' : ρ × Script σ κ ε} : Stepped s t (.go t') s t'
  | lock {k : κ} {t' : ρ × Script σ κ ε} : Stepped s t (.lock k t') s t'
  | commit {s' : σ} {t' : ρ × Script σ κ ε} : Stepped s t (.commit s' t') s' t'
  | rollback {t' : ρ × Script σ κ ε} : Stepped s t (.rollback t') s t'

/-- **One statement**: what is committed only grows, and the call keeps what it has,
if what it looks up is its own. -/
theorem callTurn_owns {known own : ρ → σ → Prop} (hrefl : ∀ s, le s s)
    {s s' : σ} {t t' : ρ × Script σ κ ε} (h : Owns le known own s t)
    (hlookup : ∀ find next, t.2 = .lookup find next → known t.1 s → own t.1 s)
    (hstep : Stepped s t (callTurn s t) s' t') :
    le s s' ∧ Owns le known own s' t' := by
  obtain ⟨r, b⟩ := t
  rcases h with h | ⟨x, hx, h⟩
  · cases b with
    | answer x => cases hstep
    | read next =>
        have hnext : Sound le (known r) (own r) s (next s) := h s (hrefl s)
        have hturn : callTurn s (r, .read next) = .rollback (r, next s)
            ∨ callTurn s (r, .read next) = .go (r, next s) := by
          simp only [callTurn, turn]
          cases next s with
          | answer x => exact .inl rfl
          | _ => exact .inr rfl
        rcases hturn with hturn | hturn
        · rw [hturn] at hstep
          cases hstep
          exact ⟨hrefl s, .inl hnext⟩
        · rw [hturn] at hstep
          cases hstep
          exact ⟨hrefl s, .inl hnext⟩
    | lookup find next =>
        simp only [callTurn, turn] at hstep
        cases hfind : find s with
        | none =>
            rw [hfind] at hstep
            cases hstep
            exact ⟨hrefl s, .inl h.2⟩
        | some x =>
            rw [hfind] at hstep
            cases hstep
            refine ⟨hrefl s, .inr ⟨x, rfl, ?_⟩⟩
            intro hok
            rw [hok] at hfind
            exact hlookup find next rfl (h.1 s (hrefl s) hfind)
    | lock k next =>
        cases hstep
        exact ⟨hrefl s, .inl h⟩
    | write f recover =>
        have hwrite := h s (hrefl s)
        simp only [callTurn, turn] at hstep
        cases hf : f s with
        | ok s₁ =>
            rw [hf] at hstep
            cases hstep
            obtain ⟨hown, hle⟩ := hwrite.1 _ hf
            exact ⟨hle, .inr ⟨_, rfl, fun _ => hown⟩⟩
        | error e =>
            rw [hf] at hstep
            cases hstep
            exact ⟨hrefl s, .inl (hwrite.2 e hf)⟩
  · subst hx
    cases hstep

/-- **Every call answered with success has what it is for**, in every run whose
lookups find only what is the call's own. -/
theorem answered_owned [DecidableEq κ] {script : ρ → Script σ κ ε} {known own : ρ → σ → Prop}
    (hrefl : ∀ s, le s s) (htrans : ∀ a b c, le a b → le b c → le a c)
    (hown : ∀ r a b, le a b → own r a → own r b)
    (hscript : ∀ r s, Sound le (known r) (own r) s (script r)) {init : σ → Prop}
    {c : Sessions σ (ρ × Script σ κ ε) κ}
    (h : (((session script le).interleaved init).restrict (OwnLookups known own)).Reachable c)
    {i : ℕ} {r : ρ} (hi : c.running i = some (r, .answer (.ok ()))) : own r c.shared := by
  have hall : ∀ i t, c.running i = some t → Owns le known own c.shared t := by
    refine h.invariant (fun c => ∀ i t, c.running i = some t → Owns le known own c.shared t) ?_ ?_
    · intro c hc i t ht
      rw [hc.2.1 i] at ht
      cases ht
    · intro c a c' hinv hstep
      obtain ⟨hlookup, hact⟩ := hstep
      -- the session that moved, and the others, which see what is committed grow
      have hmoved : ∀ (i : ℕ) (t t' : ρ × Script σ κ ε) (s' : σ), c.running i = some t →
          (∀ find next, t.2 = .lookup find next → known t.1 c.shared → own t.1 c.shared) →
          Stepped c.shared t (callTurn c.shared t) s' t' →
          ∀ j u, Function.update c.running i (some t') j = some u → Owns le known own s' u := by
        intro i t t' s' hi hfound hst
        obtain ⟨hle, howns⟩ := callTurn_owns hrefl (hinv i t hi) hfound hst
        refine Program.running_forall ?_ ?_
        · intro j u hu
          exact (hinv j u hu).mono htrans hown hle
        · intro u hu
          cases hu
          exact howns
      cases (session script le).act_moved hact with
      | began _ =>
          refine Program.running_forall hinv ?_
          intro u hu
          cases hu
          exact .inl (hscript _ _)
      | went hi hturn =>
          refine hmoved _ _ _ _ hi (fun find next heq => hlookup _ find next (heq ▸ hi)) ?_
          rw [show callTurn c.shared _ = _ from hturn]
          exact .go
      | locked hi hturn hfree =>
          refine hmoved _ _ _ _ hi (fun find next heq => hlookup _ find next (heq ▸ hi)) ?_
          rw [show callTurn c.shared _ = _ from hturn]
          exact .lock
      | committed hi hturn =>
          refine hmoved _ _ _ _ hi (fun find next heq => hlookup _ find next (heq ▸ hi)) ?_
          rw [show callTurn c.shared _ = _ from hturn]
          exact .commit
      | rolledBack hi hturn =>
          refine hmoved _ _ _ _ hi (fun find next heq => hlookup _ find next (heq ▸ hi)) ?_
          rw [show callTurn c.shared _ = _ from hturn]
          exact .rollback
      | dropped => exact Program.running_forall hinv nofun
      | elsewhere =>
          rename_i w
          intro j u hu
          exact (hinv j u hu).mono htrans hown (w.2 c.shared)
  rcases hall i _ hi with hsound | ⟨x, hx, howns⟩
  · exact absurd rfl hsound
  · cases hx
    exact howns rfl

end Script

end OraOS.Lib
