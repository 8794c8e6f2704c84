/-
  OraOS.Lib.Sessions — calls interleaved at their statements, each running one
  transaction after another, with locks by key.

  READ COMMITTED: a statement sees what is committed when it runs, and a
  transaction's own writes wait in the local state until it commits.  A lock is a
  row taken FOR UPDATE or an entry of a unique index: whoever needs it waits for the
  one that has it, looks at what is committed then, and keeps it to the end of its
  transaction.

    * `Session.Settles.check` — what a call comes to on its own, check by check;
    * `Session.act_moved`  — what one event can do;
    * `Session.Knows`      — what has to be checked of each statement on its own;
    * `Session.Knows.learn` — and how it is added to;
    * `Session.invariant`  — what then holds in every reachable state;
    * `Session.recalled`   — and of every run, with the past in view.
-/
import OraOS.Lib.Transactions

namespace OraOS.Lib

universe v

variable {σ τ ρ κ ω ε : Type*}

/-- What the next statement of a session does. -/
inductive Turn (σ τ κ : Type*) where
  /-- reads, or stages a write -/
  | go (t : τ)
  /-- waits for the lock, takes it, and goes on -/
  | lock (k : κ) (t : τ)
  /-- publishes the transaction's writes -/
  | commit (s : σ) (t : τ)
  /-- ends the transaction without effect -/
  | rollback (t : τ)
  /-- the call has been answered -/
  | idle

/-- Goes on with what a check returned, or ends the transaction. -/
def Turn.orRollback {α ε : Type*} (x : Except ε α) (fail : ε → τ) (next : α → Turn σ τ κ) :
    Turn σ τ κ :=
  match x with
  | .ok a => next a
  | .error e => .rollback (fail e)

/-- What holds of the end and of going on holds of the turn. -/
theorem Turn.orRollback_rec {α ε : Type*} {p : Turn σ τ κ → Prop} {x : Except ε α} {fail : ε → τ}
    {next : α → Turn σ τ κ} (hfail : ∀ e, p (.rollback (fail e)))
    (hnext : ∀ a, x = .ok a → p (next a)) : p (.orRollback x fail next) := by
  cases x with
  | ok a => exact hnext a rfl
  | error e => exact hfail e

/-- The turn, among local states and locks of more kinds. -/
def Turn.map {τ' κ' : Type*} (f : τ → τ') (g : κ → κ') : Turn σ τ κ → Turn σ τ' κ'
  | .go t => .go (f t)
  | .lock k t => .lock (g k) (f t)
  | .commit s t => .commit s (f t)
  | .rollback t => .rollback (f t)
  | .idle => .idle

section

variable {τ' κ' : Type*} {f : τ → τ'} {g : κ → κ'} {x : Turn σ τ κ} {u : τ'}

/-- What a mapped turn does, the turn did before the map; so for each kind of move. -/
theorem Turn.map_go (h : x.map f g = .go u) : ∃ t, x = .go t ∧ f t = u := by
  cases x <;> cases h
  exact ⟨_, rfl, rfl⟩

theorem Turn.map_lock {k' : κ'} (h : x.map f g = .lock k' u) :
    ∃ k t, x = .lock k t ∧ g k = k' ∧ f t = u := by
  cases x <;> cases h
  exact ⟨_, _, rfl, rfl, rfl⟩

theorem Turn.map_commit {s : σ} (h : x.map f g = .commit s u) :
    ∃ t, x = .commit s t ∧ f t = u := by
  cases x <;> cases h
  exact ⟨_, rfl, rfl⟩

theorem Turn.map_rollback (h : x.map f g = .rollback u) : ∃ t, x = .rollback t ∧ f t = u := by
  cases x <;> cases h
  exact ⟨_, rfl, rfl⟩

end

/-- Calls `ρ` over the committed state `σ`, with local states `τ` and locks `κ`; what
the code leaves open of a statement is `ω`, and `ε` is what happens elsewhere. -/
structure Session (σ τ ρ κ ω ε : Type*) where
  start : ρ → τ
  turn : ω → σ → τ → Turn σ τ κ
  env : σ → ε → σ

/-- What is committed, the sessions, and who has which lock. -/
structure Sessions (σ τ κ : Type*) where
  shared : σ
  running : ℕ → Option τ
  owner : κ → Option ℕ

/-- What can happen next: `o` is what the database chooses for the statement. -/
inductive SessionEvent (ρ ω ε : Type*) where
  | begin (i : ℕ) (r : ρ)
  | run (i : ℕ) (o : ω)
  /-- The session is lost between two statements. -/
  | drop (i : ℕ)
  | env (e : ε)

namespace Session

variable [DecidableEq κ] (P : Session σ τ ρ κ ω ε)

/-- The locks of session `i` are free again. -/
def release (owner : κ → Option ℕ) (i : ℕ) : κ → Option ℕ :=
  fun k => if owner k = some i then none else owner k

/-- One statement, the start or the loss of a session, or a change from elsewhere. -/
def act (c : Sessions σ τ κ) : SessionEvent ρ ω ε → Option (Sessions σ τ κ)
  | .begin i r =>
      match c.running i with
      | none => some { c with running := Function.update c.running i (some (P.start r)) }
      | some _ => none
  | .run i o =>
      match c.running i with
      | none => none
      | some t =>
          match P.turn o c.shared t with
          | .go t' => some { c with running := Function.update c.running i (some t') }
          | .lock k t' =>
              if c.owner k = none ∨ c.owner k = some i then
                some { c with running := Function.update c.running i (some t'),
                              owner := Function.update c.owner k (some i) }
              else none
          | .commit s t' =>
              some { shared := s, running := Function.update c.running i (some t'),
                     owner := release c.owner i }
          | .rollback t' =>
              some { c with running := Function.update c.running i (some t'),
                            owner := release c.owner i }
          | .idle => none
  | .drop i =>
      some { c with running := Function.update c.running i none, owner := release c.owner i }
  | .env e => some { c with shared := P.env c.shared e }

/-- Every interleaving, from the committed states in `init` and no session. -/
def interleaved (init : σ → Prop) : System (Sessions σ τ κ) (SessionEvent ρ ω ε) where
  init c := init c.shared ∧ (∀ i, c.running i = none) ∧ ∀ k, c.owner k = none
  step c a c' := P.act c a = some c'

/-- Nobody in a session. -/
def quiet (s : σ) : Sessions σ τ κ := ⟨s, fun _ => none, fun _ => none⟩

/-- What a session with nobody else around does in as many statements as there are
choices: what is committed then, and where the session stands. -/
def alone : List ω → σ → τ → σ × τ
  | [], s, t => (s, t)
  | o :: os, s, t =>
      match P.turn o s t with
      | .go t' => alone os s t'
      | .lock _ t' => alone os s t'
      | .commit s' t' => alone os s' t'
      | .rollback t' => alone os s t'
      | .idle => (s, t)

section Alone

variable {P : Session σ τ ρ κ ω ε} {o : ω} {os : List ω} {s s' : σ} {t t' : τ} {k : κ}

omit [DecidableEq κ]

/-- A call on its own, a statement at a time. -/
theorem alone_go (h : P.turn o s t = .go t') : P.alone (o :: os) s t = P.alone os s t' := by
  simp only [alone, h]

theorem alone_lock (h : P.turn o s t = .lock k t') :
    P.alone (o :: os) s t = P.alone os s t' := by
  simp only [alone, h]

theorem alone_commit (h : P.turn o s t = .commit s' t') :
    P.alone (o :: os) s t = P.alone os s' t' := by
  simp only [alone, h]

theorem alone_rollback (h : P.turn o s t = .rollback t') :
    P.alone (o :: os) s t = P.alone os s t' := by
  simp only [alone, h]

/-- A call that has been answered stays where it is. -/
theorem alone_idle (h : ∀ o, P.turn o s t = .idle) (os : List ω) : P.alone os s t = (s, t) := by
  cases os with
  | nil => rfl
  | cons o os => simp only [alone, h]

/-- Alone, with some choices, the session gets from `t` to `t'`. -/
def Leads (P : Session σ τ ρ κ ω ε) (s : σ) (t : τ) (s' : σ) (t' : τ) : Prop :=
  ∃ os, P.alone os s t = (s', t')

theorem Leads.refl (s : σ) (t : τ) : P.Leads s t s t := ⟨[], rfl⟩

variable {s'' : σ} {t'' : τ}

theorem Leads.trans (h : P.Leads s t s' t') (hl : P.Leads s' t' s'' t'') :
    P.Leads s t s'' t'' := by
  obtain ⟨os, hos⟩ := h
  obtain ⟨os', hos'⟩ := hl
  induction os generalizing s t with
  | nil =>
      cases hos
      exact ⟨os', hos'⟩
  | cons o os ih =>
      cases hturn : P.turn o s t with
      | go u =>
          obtain ⟨rest, hrest⟩ := ih ((alone_go hturn).symm.trans hos)
          exact ⟨o :: rest, (alone_go hturn).trans hrest⟩
      | lock k u =>
          obtain ⟨rest, hrest⟩ := ih ((alone_lock hturn).symm.trans hos)
          exact ⟨o :: rest, (alone_lock hturn).trans hrest⟩
      | commit v u =>
          obtain ⟨rest, hrest⟩ := ih ((alone_commit hturn).symm.trans hos)
          exact ⟨o :: rest, (alone_commit hturn).trans hrest⟩
      | rollback u =>
          obtain ⟨rest, hrest⟩ := ih ((alone_rollback hturn).symm.trans hos)
          exact ⟨o :: rest, (alone_rollback hturn).trans hrest⟩
      -- an idle turn leaves the state, and the path, as they are
      | idle =>
          have hstay : P.alone (o :: os) s t = (s, t) := by simp only [alone, hturn]
          rw [hstay] at hos
          cases hos
          exact ⟨os', hos'⟩

/-- One more statement before the rest; the four kinds of move in turn. -/
theorem Leads.go (h : P.turn o s t = .go t') (hl : P.Leads s t' s'' t'') :
    P.Leads s t s'' t'' := by
  obtain ⟨os, hos⟩ := hl
  exact ⟨o :: os, by rw [alone_go h, hos]⟩

theorem Leads.lock (h : P.turn o s t = .lock k t') (hl : P.Leads s t' s'' t'') :
    P.Leads s t s'' t'' := by
  obtain ⟨os, hos⟩ := hl
  exact ⟨o :: os, by rw [alone_lock h, hos]⟩

theorem Leads.commit (h : P.turn o s t = .commit s' t') (hl : P.Leads s' t' s'' t'') :
    P.Leads s t s'' t'' := by
  obtain ⟨os, hos⟩ := hl
  exact ⟨o :: os, by rw [alone_commit h, hos]⟩

theorem Leads.rollback (h : P.turn o s t = .rollback t') (hl : P.Leads s t' s'' t'') :
    P.Leads s t s'' t'' := by
  obtain ⟨os, hos⟩ := hl
  exact ⟨o :: os, by rw [alone_rollback h, hos]⟩

/-- Alone, the session comes to an end that fits what the call returns on its own. -/
def Settles {α η : Type*} (P : Session σ τ ρ κ ω ε) (ends : Except η α → σ → τ → Prop) (s : σ)
    (t : τ) (out : Except η α) : Prop :=
  ∃ s' t', P.Leads s t s' t' ∧ ends out s' t'

variable {α β : Type v} {η : Type*} {ends : Except η α → σ → τ → Prop} {out : Except η α}

/-- A call that has reached its end settles there. -/
theorem Settles.ended (h : ends out s t) : P.Settles ends s t out := ⟨s, t, .refl s t, h⟩

/-- One more statement before it settles; the four kinds of move in turn. -/
theorem Settles.go (h : P.turn o s t = .go t') (hs : P.Settles ends s t' out) :
    P.Settles ends s t out := by
  obtain ⟨s'', t'', hleads, hends⟩ := hs
  exact ⟨s'', t'', .go h hleads, hends⟩

theorem Settles.lock (h : P.turn o s t = .lock k t') (hs : P.Settles ends s t' out) :
    P.Settles ends s t out := by
  obtain ⟨s'', t'', hleads, hends⟩ := hs
  exact ⟨s'', t'', .lock h hleads, hends⟩

theorem Settles.commit (h : P.turn o s t = .commit s' t') (hs : P.Settles ends s' t' out) :
    P.Settles ends s t out := by
  obtain ⟨s'', t'', hleads, hends⟩ := hs
  exact ⟨s'', t'', .commit h hleads, hends⟩

theorem Settles.rollback (h : P.turn o s t = .rollback t') (hs : P.Settles ends s t' out) :
    P.Settles ends s t out := by
  obtain ⟨s'', t'', hleads, hends⟩ := hs
  exact ⟨s'', t'', .rollback h hleads, hends⟩

/-- **One check of the call**, and the rest of it. -/
theorem Settles.check {x : Except η β} {fail : η → τ} {next : β → Turn σ τ κ}
    {f : β → Except η α} (hturn : P.turn o s t = .orRollback x fail next)
    (hfail : ∀ e, P.Settles ends s (fail e) (.error e))
    (hnext : ∀ b, x = .ok b → P.turn o s t = next b → P.Settles ends s t (f b)) :
    P.Settles ends s t (x >>= f) := by
  cases x with
  | error e => exact .rollback hturn (hfail e)
  | ok b => exact hnext b rfl hturn

end Alone

/-! ## §1. What an event does. -/

/-- The inversion of the statements: `moves s t` holds of whatever a session at `t` can do
next. -/
def Inverts (moves : σ → τ → Turn σ τ κ → Prop) : Prop := ∀ o s t, moves s t (P.turn o s t)

omit [DecidableEq κ] in
variable {P} in
/-- The inversion, at a turn that is known. -/
theorem Inverts.moves {moves : σ → τ → Turn σ τ κ → Prop} (h : P.Inverts moves) {o : ω} {s : σ}
    {t : τ} {x : Turn σ τ κ} (hturn : P.turn o s t = x) : moves s t x := by
  rw [← hturn]
  exact h o s t

/-- The step inversion: who moved, and what became of it. -/
inductive Moved (c : Sessions σ τ κ) : SessionEvent ρ ω ε → Sessions σ τ κ → Prop where
  | began {i : ℕ} {r : ρ} : c.running i = none →
      Moved c (.begin i r)
        { c with running := Function.update c.running i (some (P.start r)) }
  | went {i : ℕ} {o : ω} {t t' : τ} : c.running i = some t → P.turn o c.shared t = .go t' →
      Moved c (.run i o) { c with running := Function.update c.running i (some t') }
  | locked {i : ℕ} {o : ω} {k : κ} {t t' : τ} : c.running i = some t →
      P.turn o c.shared t = .lock k t' → c.owner k = none ∨ c.owner k = some i →
      Moved c (.run i o)
        { c with running := Function.update c.running i (some t'),
                 owner := Function.update c.owner k (some i) }
  | committed {i : ℕ} {o : ω} {s : σ} {t t' : τ} : c.running i = some t →
      P.turn o c.shared t = .commit s t' → Moved c (.run i o)
        { shared := s, running := Function.update c.running i (some t'),
          owner := release c.owner i }
  | rolledBack {i : ℕ} {o : ω} {t t' : τ} : c.running i = some t →
      P.turn o c.shared t = .rollback t' → Moved c (.run i o)
        { c with running := Function.update c.running i (some t'), owner := release c.owner i }
  | dropped {i : ℕ} : Moved c (.drop i)
        { c with running := Function.update c.running i none, owner := release c.owner i }
  | elsewhere {e : ε} : Moved c (.env e) { c with shared := P.env c.shared e }

/-- **The step inversion** of a session: what an event that went through has done. -/
theorem act_moved {c c' : Sessions σ τ κ} {a : SessionEvent ρ ω ε} (h : P.act c a = some c') :
    P.Moved c a c' := by
  cases a with
  | begin i r =>
      simp only [act] at h
      split at h
      next hnone =>
        cases h
        exact .began hnone
      next => cases h
  | run i o =>
      simp only [act] at h
      split at h
      next => cases h
      next t ht =>
        split at h
        next hturn =>
          cases h
          exact .went ht hturn
        next hturn =>
          split at h
          next hfree =>
            cases h
            exact .locked ht hturn hfree
          next => cases h
        next hturn =>
          cases h
          exact .committed ht hturn
        next hturn =>
          cases h
          exact .rolledBack ht hturn
        next => cases h
  | drop i =>
      cases h
      exact .dropped
  | env e =>
      cases h
      exact .elsewhere

/-! ## §2. The invariant rule. -/

/-- The obligations: `inv` of what is committed, `know` of a session and what is
committed, and `holds`, the locks a session's local state says it has.  A commit
keeps what is known to the sessions that hold none of its locks. -/
structure Knows (inv : σ → Prop) (know : σ → τ → Prop) (holds : τ → κ → Prop) : Prop where
  start : ∀ s r, inv s → know s (P.start r) ∧ ∀ k, ¬ holds (P.start r) k
  go : ∀ o s t t', inv s → know s t → P.turn o s t = .go t' →
    know s t' ∧ ∀ k, holds t' k → holds t k
  lock : ∀ o s t t' k, inv s → know s t → P.turn o s t = .lock k t' →
    know s t' ∧ ∀ k', holds t' k' → k' = k ∨ holds t k'
  commit : ∀ o s t s' t', inv s → know s t → P.turn o s t = .commit s' t' →
    inv s' ∧ know s' t' ∧ (∀ k, ¬ holds t' k)
      ∧ ∀ u, know s u → (∀ k, holds t k → ¬ holds u k) → know s' u
  rollback : ∀ o s t t', inv s → know s t → P.turn o s t = .rollback t' →
    know s t' ∧ ∀ k, ¬ holds t' k
  env : ∀ s e, inv s → inv (P.env s e) ∧ ∀ u, know s u → know (P.env s e) u

/-- What every reachable state satisfies. -/
def Invariant (inv : σ → Prop) (know : σ → τ → Prop) (holds : τ → κ → Prop)
    (c : Sessions σ τ κ) : Prop :=
  inv c.shared ∧ ∀ i t, c.running i = some t →
    know c.shared t ∧ ∀ k, holds t k → c.owner k = some i

variable {P}

omit [DecidableEq κ] in
/-- A lock that is another's is not released. -/
theorem release_other {owner : κ → Option ℕ} {i j : ℕ} {k : κ} (h : owner k = some j)
    (hne : j ≠ i) : release owner i k = some j := by
  unfold release
  rw [if_neg, h]
  intro heq
  rw [h] at heq
  exact hne (Option.some.inj heq)

/-- The lock taken was nobody else's, so whoever has a lock keeps it. -/
theorem taken_other {owner : κ → Option ℕ} {i j : ℕ} {k k' : κ}
    (hfree : owner k = none ∨ owner k = some i) (h : owner k' = some j) (hne : j ≠ i) :
    Function.update owner k (some i) k' = some j := by
  by_cases hk : k' = k
  · subst hk
    rw [h] at hfree
    rcases hfree with hfree | hfree
    · cases hfree
    · exact absurd (Option.some.inj hfree) hne
  · rw [Function.update_of_ne hk]
    exact h

omit [DecidableEq κ] in
/-- Where one session has moved: it has the locks it says it has, and the others keep
theirs. -/
theorem Invariant.slot {inv : σ → Prop} {know : σ → τ → Prop} {holds : τ → κ → Prop}
    {c : Sessions σ τ κ} {i : ℕ} {s : σ} {own : Option τ} {owner : κ → Option ℕ} (hinv : inv s)
    (hown : ∀ t, own = some t → know s t ∧ ∀ k, holds t k → owner k = some i)
    (hothers : ∀ j u, j ≠ i → c.running j = some u →
      know s u ∧ ∀ k, holds u k → owner k = some j) :
    Invariant inv know holds ⟨s, Function.update c.running i own, owner⟩ := by
  refine ⟨hinv, ?_⟩
  intro j u hu
  rcases Program.running_update hu with ⟨rfl, heq⟩ | ⟨hne, hold⟩
  · exact hown u heq
  · exact hothers j u hne hold

theorem invariant_step {inv : σ → Prop} {know : σ → τ → Prop} {holds : τ → κ → Prop}
    (K : P.Knows inv know holds) {c c' : Sessions σ τ κ} {a : SessionEvent ρ ω ε}
    (hinv : Invariant inv know holds c) (h : P.act c a = some c') :
    Invariant inv know holds c' := by
  obtain ⟨hshared, hknow⟩ := hinv
  cases P.act_moved h with
  | began _ =>
      refine .slot hshared ?_ fun j u _ hold => hknow j u hold
      intro t ht
      cases ht
      obtain ⟨hk, hnone⟩ := K.start _ _ hshared
      exact ⟨hk, fun k hh => absurd hh (hnone k)⟩
  | went hi hturn =>
      refine .slot hshared ?_ fun j u _ hold => hknow j u hold
      intro t ht
      cases ht
      obtain ⟨hkn, hown⟩ := hknow _ _ hi
      obtain ⟨hkn', hsub⟩ := K.go _ _ _ _ hshared hkn hturn
      exact ⟨hkn', fun k hh => hown k (hsub k hh)⟩
  | locked hi hturn hfree =>
      rename_i i o k₀ t t'
      refine .slot hshared ?_ ?_
      · intro u hu
        cases hu
        obtain ⟨hkn, hown⟩ := hknow _ _ hi
        obtain ⟨hkn', hsub⟩ := K.lock _ _ _ _ _ hshared hkn hturn
        refine ⟨hkn', ?_⟩
        intro k hh
        show Function.update c.owner k₀ (some i) k = some i
        by_cases hk : k = k₀
        · rw [hk, Function.update_self]
        · rw [Function.update_of_ne hk]
          exact hown k ((hsub k hh).resolve_left hk)
      · intro j u hne hold
        obtain ⟨hkn, hown⟩ := hknow j u hold
        exact ⟨hkn, fun k hh => taken_other hfree (hown k hh) hne⟩
  | committed hi hturn =>
      obtain ⟨hkn, hown⟩ := hknow _ _ hi
      obtain ⟨hinv', hkn', hnone, hothers⟩ := K.commit _ _ _ _ _ hshared hkn hturn
      refine .slot hinv' ?_ ?_
      · intro t ht
        cases ht
        exact ⟨hkn', fun k hh => absurd hh (hnone k)⟩
      · intro j u hne hold
        obtain ⟨hku, howu⟩ := hknow j u hold
        refine ⟨hothers u hku ?_, fun k hh => release_other (howu k hh) hne⟩
        -- a lock of both would have two owners
        intro k hmine htheirs
        have hsame := (hown k hmine).symm.trans (howu k htheirs)
        exact hne (Option.some.inj hsame).symm
  | rolledBack hi hturn =>
      refine .slot hshared ?_ ?_
      · intro t ht
        cases ht
        obtain ⟨hkn', hnone⟩ := K.rollback _ _ _ _ hshared (hknow _ _ hi).1 hturn
        exact ⟨hkn', fun k hh => absurd hh (hnone k)⟩
      · intro j u hne hold
        obtain ⟨hku, howu⟩ := hknow j u hold
        exact ⟨hku, fun k hh => release_other (howu k hh) hne⟩
  | dropped =>
      refine .slot hshared nofun ?_
      intro j u hne hold
      obtain ⟨hku, howu⟩ := hknow j u hold
      exact ⟨hku, fun k hh => release_other (howu k hh) hne⟩
  | elsewhere =>
      obtain ⟨hinv', hall⟩ := K.env _ _ hshared
      refine ⟨hinv', ?_⟩
      intro j u hu
      obtain ⟨hku, howu⟩ := hknow j u hu
      exact ⟨hall u hku, howu⟩

/-- What is known already may be used to learn more: the obligations of `inv'` and
`know'` for statements of which `know` is known. -/
structure Keeps (P : Session σ τ ρ κ ω ε) (know : σ → τ → Prop) (inv' : σ → Prop)
    (know' : σ → τ → Prop) : Prop where
  go : ∀ o s t t', inv' s → know s t → know' s t → P.turn o s t = .go t' → know' s t'
  lock : ∀ o s t t' k, inv' s → know s t → know' s t → P.turn o s t = .lock k t' → know' s t'
  commit : ∀ o s t s' t', inv' s → know s t → know' s t → P.turn o s t = .commit s' t' →
    inv' s' ∧ know' s' t' ∧ ∀ u, know' s u → know' s' u
  rollback : ∀ o s t t', inv' s → know s t → know' s t → P.turn o s t = .rollback t' →
    know' s t'
  env : ∀ s e, inv' s → inv' (P.env s e) ∧ ∀ u, know' s u → know' (P.env s e) u

/-- … and every session starts with it. -/
structure Learns (P : Session σ τ ρ κ ω ε) (know : σ → τ → Prop) (inv' : σ → Prop)
    (know' : σ → τ → Prop) : Prop extends Keeps P know inv' know' where
  start : ∀ s r, inv' s → know' s (P.start r)

omit [DecidableEq κ] in
/-- What is known by two accounts is known together. -/
theorem Knows.learn {inv inv' : σ → Prop} {know know' : σ → τ → Prop} {holds : τ → κ → Prop}
    (K : P.Knows inv know holds) (L : P.Learns know inv' know') :
    P.Knows (fun s => inv s ∧ inv' s) (fun s t => know s t ∧ know' s t) holds where
  start s r h := ⟨⟨(K.start s r h.1).1, L.start s r h.2⟩, (K.start s r h.1).2⟩
  go o s t t' h hk ht :=
    have hbase := K.go o s t t' h.1 hk.1 ht
    ⟨⟨hbase.1, L.go o s t t' h.2 hk.1 hk.2 ht⟩, hbase.2⟩
  lock o s t t' k h hk ht :=
    have hbase := K.lock o s t t' k h.1 hk.1 ht
    ⟨⟨hbase.1, L.lock o s t t' k h.2 hk.1 hk.2 ht⟩, hbase.2⟩
  commit o s t s' t' h hk ht := by
    -- a commit is where the two have to be kept for the others too
    obtain ⟨hinv, hkn, hnone, hothers⟩ := K.commit o s t s' t' h.1 hk.1 ht
    obtain ⟨hinv', hkn', hothers'⟩ := L.commit o s t s' t' h.2 hk.1 hk.2 ht
    exact ⟨⟨hinv, hinv'⟩, ⟨hkn, hkn'⟩, hnone,
      fun u hu hfree => ⟨hothers u hu.1 hfree, hothers' u hu.2⟩⟩
  rollback o s t t' h hk ht :=
    have hbase := K.rollback o s t t' h.1 hk.1 ht
    ⟨⟨hbase.1, L.rollback o s t t' h.2 hk.1 hk.2 ht⟩, hbase.2⟩
  env s e h := by
    obtain ⟨hinv, hall⟩ := K.env s e h.1
    obtain ⟨hinv', hall'⟩ := L.env s e h.2
    exact ⟨⟨hinv, hinv'⟩, fun u hu => ⟨hall u hu.1, hall' u hu.2⟩⟩

/-- **The invariant rule.** -/
theorem invariant {inv : σ → Prop} {know : σ → τ → Prop} {holds : τ → κ → Prop}
    (K : P.Knows inv know holds) {init : σ → Prop} (hinit : ∀ s, init s → inv s)
    {c : Sessions σ τ κ} (h : (P.interleaved init).Reachable c) :
    Invariant inv know holds c := by
  refine h.invariant (Invariant inv know holds) ?_ ?_
  · intro c hc
    refine ⟨hinit _ hc.1, ?_⟩
    intro i t ht
    rw [hc.2.1 i] at ht
    cases ht
  · intro c a c' hinv hstep
    exact invariant_step K hinv hstep

/-! ## §3. What is known of the past. -/

/-- After the events `past`, from `s₀` and nobody in a session, `s` can be committed. -/
def Past (P : Session σ τ ρ κ ω ε) (s₀ : σ) (past : List (SessionEvent ρ ω ε)) (s : σ) : Prop :=
  ∃ c, (P.interleaved fun s => s = s₀).Run (quiet s₀) past c ∧ c.shared = s

/-- The obligations where `inv'` and `know'` speak of the events so far: they outlast
more events, a session starts with its `begin` in the past, and a statement sees what
is committed after `past`. -/
structure Recalls (P : Session σ τ ρ κ ω ε) (s₀ : σ) (know : σ → τ → Prop)
    (inv' : List (SessionEvent ρ ω ε) → σ → Prop)
    (know' : List (SessionEvent ρ ω ε) → σ → τ → Prop) : Prop where
  init : inv' [] s₀
  later : ∀ past e s, inv' past s → inv' (past ++ [e]) s
  knowLater : ∀ past e s t, know' past s t → know' (past ++ [e]) s t
  start : ∀ past s i r, inv' past s → know' (past ++ [.begin i r]) s (P.start r)
  keeps : ∀ past, P.Keeps (fun s t => know s t ∧ P.Past s₀ past s) (inv' past) (know' past)

/-- What holds after every run, of the events it is made of. -/
def Recalled (inv' : List (SessionEvent ρ ω ε) → σ → Prop)
    (know' : List (SessionEvent ρ ω ε) → σ → τ → Prop) (past : List (SessionEvent ρ ω ε))
    (c : Sessions σ τ κ) : Prop :=
  inv' past c.shared ∧ ∀ i t, c.running i = some t → know' past c.shared t

section Recall

variable {s₀ : σ} {know : σ → τ → Prop} {inv' : List (SessionEvent ρ ω ε) → σ → Prop}
  {know' : List (SessionEvent ρ ω ε) → σ → τ → Prop} {past : List (SessionEvent ρ ω ε)}

omit [DecidableEq κ] in
/-- Where one session has moved. -/
theorem Recalled.slot {c : Sessions σ τ κ} {i : ℕ} {s : σ} {own : Option τ}
    {owner : κ → Option ℕ} (hinv : inv' past s) (hown : ∀ t, own = some t → know' past s t)
    (hothers : ∀ j u, c.running j = some u → know' past s u) :
    Recalled inv' know' past ⟨s, Function.update c.running i own, owner⟩ := by
  refine ⟨hinv, ?_⟩
  intro j u hu
  rcases Program.running_update hu with ⟨rfl, heq⟩ | ⟨-, hold⟩
  · exact hown u heq
  · exact hothers j u hold

/-- One event more, if it leaves what is known as it is. -/
theorem Recalls.wait (R : P.Recalls s₀ know inv' know') {c : Sessions σ τ κ}
    (h : Recalled inv' know' past c) (e : SessionEvent ρ ω ε) :
    Recalled inv' know' (past ++ [e]) c :=
  ⟨R.later past e _ h.1, fun i t hi => R.knowLater past e _ t (h.2 i t hi)⟩

theorem recalled_step (R : P.Recalls s₀ know inv' know') {c c' : Sessions σ τ κ}
    {e : SessionEvent ρ ω ε} (hrun : (P.interleaved fun s => s = s₀).Run (quiet s₀) past c)
    (hknow : ∀ i t, c.running i = some t → know c.shared t)
    (hinv : Recalled inv' know' past c) (h : P.act c e = some c') :
    Recalled inv' know' (past ++ [e]) c' := by
  -- a session reads the state of now, which is the last of the history
  have hseen : ∀ i t, c.running i = some t → know c.shared t ∧ P.Past s₀ past c.shared :=
    fun i t hi => ⟨hknow i t hi, c, hrun, rfl⟩
  have keeps := R.keeps past
  cases P.act_moved h with
  | began _ =>
      -- what was recalled stays so in the longer history
      have hwait := R.wait hinv
      refine .slot (hwait _).1 ?_ (hwait _).2
      intro t ht
      cases ht
      exact R.start past _ _ _ hinv.1
  | went hi hturn =>
      refine R.wait (.slot hinv.1 ?_ hinv.2) _
      intro t ht
      cases ht
      exact keeps.go _ _ _ _ hinv.1 (hseen _ _ hi) (hinv.2 _ _ hi) hturn
  | locked hi hturn _ =>
      refine R.wait (.slot hinv.1 ?_ hinv.2) _
      intro t ht
      cases ht
      exact keeps.lock _ _ _ _ _ hinv.1 (hseen _ _ hi) (hinv.2 _ _ hi) hturn
  | committed hi hturn =>
      obtain ⟨hinv', hmine, hothers⟩ :=
        keeps.commit _ _ _ _ _ hinv.1 (hseen _ _ hi) (hinv.2 _ _ hi) hturn
      refine R.wait (.slot hinv' ?_ fun j u hu => hothers u (hinv.2 j u hu)) _
      intro t ht
      cases ht
      exact hmine
  | rolledBack hi hturn =>
      refine R.wait (.slot hinv.1 ?_ hinv.2) _
      intro t ht
      cases ht
      exact keeps.rollback _ _ _ _ hinv.1 (hseen _ _ hi) (hinv.2 _ _ hi) hturn
  | dropped =>
      refine R.wait (.slot hinv.1 ?_ hinv.2) _
      intro t ht
      cases ht
  | @elsewhere e =>
      obtain ⟨hinv', hall⟩ := keeps.env c.shared e hinv.1
      have hc : Recalled inv' know' past { c with shared := P.env c.shared e } :=
        ⟨hinv', fun j u hu => hall u (hinv.2 j u hu)⟩
      exact R.wait hc _

/-- **The invariant rule, with the past in view.** -/
theorem recalled {inv : σ → Prop} {holds : τ → κ → Prop} (K : P.Knows inv know holds)
    (R : P.Recalls s₀ know inv' know') (h₀ : inv s₀) {c : Sessions σ τ κ}
    (h : (P.interleaved fun s => s = s₀).Run (quiet s₀) past c) :
    Recalled inv' know' past c := by
  have hquiet : (P.interleaved fun s => s = s₀).Reachable (quiet s₀) :=
    .init ⟨rfl, fun _ => rfl, fun _ => rfl⟩
  refine h.history (Recalled inv' know') ?_ ?_
  · refine ⟨R.init, ?_⟩
    intro i t hi
    cases hi
  · intro past c e c' hrun hinv hstep
    -- the run is from one state, in which the invariant holds
    have hstart : ∀ s, s = s₀ → inv s := by
      intro s hs
      rw [hs]
      exact h₀
    have hknown := (invariant K hstart (hquiet.run hrun)).2
    exact recalled_step R hrun (fun i t hi => (hknown i t hi).1) hinv hstep

end Recall

/-! ## §4. Traces. -/

/-- A trace the sessions accept from a quiet start is a run. -/
theorem replay_reached {init : σ → Prop} {s : σ} (hs : init s) {c : Sessions σ τ κ}
    (trace : List (SessionEvent ρ ω ε)) (h : System.replay P.act trace (quiet s) = some c) :
    (P.interleaved init).Reachable c :=
  System.replay_reachable (fun _ _ _ hstep => hstep) trace (quiet s)
    ⟨hs, fun _ => rfl, fun _ => rfl⟩ h

/-- And one all of whose steps meet a condition is a run of those that do. -/
theorem replay_guarded {init : σ → Prop} {s : σ} (hs : init s)
    {C : Sessions σ τ κ → SessionEvent ρ ω ε → Prop} [∀ s a, Decidable (C s a)]
    {c : Sessions σ τ κ} (trace : List (SessionEvent ρ ω ε))
    (h : System.replay (System.guarded C P.act) trace (quiet s) = some c) :
    ((P.interleaved init).restrict C).Reachable c :=
  System.replay_restricted (fun _ _ _ hstep => hstep) trace (quiet s)
    ⟨hs, fun _ => rfl, fun _ => rfl⟩ h

end Session

end OraOS.Lib
