/-
  OraOS.Lib.Transactions — transactions interleaved at their statements.

  READ COMMITTED with one lock: a statement sees what is committed when it runs,
  a transaction's own writes wait in its local state until it commits, and the
  lock, once taken, is held to the end.  A `Program` says what the next statement
  does from what is committed and the local state:

    * `local_invariant` — what every transaction knows by itself;
    * `lock_invariant`  — what the owner of the lock knows of the committed state
                          stays true until it commits, if only owners commit.
-/
import OraOS.Lib.Transition

namespace OraOS.Lib

variable {σ τ ρ : Type*}

/-- What the next statement of a transaction does. -/
inductive Move (σ τ : Type*) where
  /-- reads, or stages a write -/
  | go (t : τ)
  /-- waits for the lock, takes it, and goes on -/
  | lock (t : τ)
  /-- publishes the transaction's writes -/
  | commit (s : σ)
  /-- ends without effect: refused, or failed -/
  | stop

/-- Transactions over the committed state `σ`, with local states `τ`, each started
by a request `ρ`. -/
structure Program (σ τ ρ : Type*) where
  start : ρ → τ
  next : σ → τ → Move σ τ

/-- What is committed, the transactions in flight, and who owns the lock. -/
structure Config (σ τ : Type*) where
  shared : σ
  running : ℕ → Option τ
  owner : Option ℕ

/-- What can happen next: a request begins, one runs a statement, or one is aborted. -/
inductive TxAction (ρ : Type*) where
  | begin (i : ℕ) (r : ρ)
  | run (i : ℕ)
  | abort (i : ℕ)

namespace Program

variable (P : Program σ τ ρ)

/-- The transaction `i` ends; its lock, if it has it, is free again. -/
def finish (c : Config σ τ) (i : ℕ) (shared : σ) : Config σ τ :=
  { shared, running := Function.update c.running i none,
    owner := if c.owner = some i then none else c.owner }

/-- One statement, or the start or the failure of a transaction. -/
def act (c : Config σ τ) : TxAction ρ → Option (Config σ τ)
  | .begin i r =>
      match c.running i with
      | none => some { c with running := Function.update c.running i (some (P.start r)) }
      | some _ => none
  | .run i =>
      match c.running i with
      | none => none
      | some t =>
          match P.next c.shared t with
          | .go t' => some { c with running := Function.update c.running i (some t') }
          | .lock t' =>
              if c.owner = none then
                some { c with running := Function.update c.running i (some t'), owner := some i }
              else none
          -- the lock goes with the transaction
          | .commit s => some (finish c i s)
          | .stop => some (finish c i c.shared)
  | .abort i =>
      match c.running i with
      | none => none
      | some _ => some (finish c i c.shared)

/-- Every interleaving, from the committed states in `init` and no transaction in
flight. -/
def interleaved (init : σ → Prop) : System (Config σ τ) (TxAction ρ) where
  init c := init c.shared ∧ (∀ i, c.running i = none) ∧ c.owner = none
  step c a c' := P.act c a = some c'

/-- What a transaction with nobody else in flight commits, within `n` statements. -/
def alone : ℕ → σ → τ → Option σ
  | 0, _, _ => none
  | n + 1, s, t =>
      match P.next s t with
      | .go t' => alone n s t'
      | .lock t' => alone n s t'
      | .commit s' => some s'
      | .stop => some s

/-! ## What a step does. -/

/-- The step inversion: who moved, and what became of it. -/
inductive Stepped (c : Config σ τ) : TxAction ρ → Config σ τ → Prop where
  | began {i : ℕ} {r : ρ} : c.running i = none →
      Stepped c (.begin i r)
        { c with running := Function.update c.running i (some (P.start r)) }
  | went {i : ℕ} {t t' : τ} : c.running i = some t → P.next c.shared t = .go t' →
      Stepped c (.run i) { c with running := Function.update c.running i (some t') }
  | locked {i : ℕ} {t t' : τ} : c.running i = some t → P.next c.shared t = .lock t' →
      c.owner = none → Stepped c (.run i)
        { c with running := Function.update c.running i (some t'), owner := some i }
  | committed {i : ℕ} {t : τ} {s : σ} : c.running i = some t → P.next c.shared t = .commit s →
      Stepped c (.run i) (finish c i s)
  | ended {i : ℕ} {a : TxAction ρ} : Stepped c a (finish c i c.shared)

/-- **The step inversion** of a program: what an action that went through has done. -/
theorem act_stepped {c c' : Config σ τ} {a : TxAction ρ} (h : P.act c a = some c') :
    P.Stepped c a c' := by
  cases a with
  | begin i r =>
      simp only [act] at h
      split at h
      next hnone =>
        cases h
        exact .began hnone
      next => cases h
  | run i =>
      simp only [act] at h
      split at h
      next => cases h
      next t ht =>
        split at h
        next t' hnext =>
          cases h
          exact .went ht hnext
        next t' hnext =>
          split at h
          next hfree =>
            cases h
            exact .locked ht hnext hfree
          next => cases h
        next s hnext =>
          cases h
          exact .committed ht hnext
        next =>
          cases h
          exact .ended
  | abort i =>
      simp only [act] at h
      split at h
      next => cases h
      next =>
        cases h
        exact .ended

/-- Transactions other than `i` are as they were, and `i` is what it became. -/
theorem running_update {f : ℕ → Option τ} {i j : ℕ} {v : Option τ} {t : τ}
    (h : Function.update f i v j = some t) : (j = i ∧ v = some t) ∨ (j ≠ i ∧ f j = some t) := by
  by_cases hj : j = i
  · subst hj
    rw [Function.update_self] at h
    exact .inl ⟨rfl, h⟩
  · rw [Function.update_of_ne hj] at h
    exact .inr ⟨hj, h⟩

/-- What is known of every transaction in flight stays known when the one that
moved knows it of its new state. -/
theorem running_forall {f : ℕ → Option τ} {i : ℕ} {v : Option τ} {know : τ → Prop}
    (hothers : ∀ j t, f j = some t → know t) (hself : ∀ t, v = some t → know t) :
    ∀ j t, Function.update f i v j = some t → know t := by
  intro j t ht
  rcases running_update ht with ⟨-, heq⟩ | ⟨-, hold⟩
  · exact hself t heq
  · exact hothers j t hold

/-! ## The two invariant rules. -/

/-- **The local rule**: an invariant of what is committed, and one of every local
state by itself. -/
theorem local_invariant {init : σ → Prop} (inv : σ → Prop) (know : τ → Prop)
    (hinit : ∀ s, init s → inv s) (hstart : ∀ r, know (P.start r))
    (hgo : ∀ s t t', inv s → know t → P.next s t = .go t' → know t')
    (hlock : ∀ s t t', inv s → know t → P.next s t = .lock t' → know t')
    (hcommit : ∀ s t s', inv s → know t → P.next s t = .commit s' → inv s')
    {c : Config σ τ} (h : (P.interleaved init).Reachable c) :
    inv c.shared ∧ ∀ i t, c.running i = some t → know t := by
  refine h.invariant (fun c => inv c.shared ∧ ∀ i t, c.running i = some t → know t) ?_ ?_
  · rintro c ⟨hs, hnone, -⟩
    refine ⟨hinit _ hs, ?_⟩
    intro i t ht
    rw [hnone i] at ht
    cases ht
  · rintro c a c' ⟨hinv, hknow⟩ hstep
    cases P.act_stepped hstep with
    | began _ =>
        refine ⟨hinv, running_forall hknow ?_⟩
        rintro t ⟨⟩
        exact hstart _
    | went hi hnext =>
        refine ⟨hinv, running_forall hknow ?_⟩
        rintro t ⟨⟩
        exact hgo _ _ _ hinv (hknow _ _ hi) hnext
    | locked hi hnext hfree =>
        refine ⟨hinv, running_forall hknow ?_⟩
        rintro t ⟨⟩
        exact hlock _ _ _ hinv (hknow _ _ hi) hnext
    | committed hi hnext =>
        -- the one that committed is gone: only the committed state has changed
        exact ⟨hcommit _ _ _ hinv (hknow _ _ hi) hnext, running_forall hknow nofun⟩
    | ended => exact ⟨hinv, running_forall hknow nofun⟩

/-- A discipline for the lock: local states say whether they own it, only owners
commit, and what an owner knows of the committed state survives its statements. -/
structure Discipline (owns : τ → Bool) (held : σ → τ → Prop) : Prop where
  start : ∀ r, owns (P.start r) = false
  go : ∀ s t t', P.next s t = .go t' → owns t' = owns t
  kept : ∀ s t t', owns t = true → held s t → P.next s t = .go t' → held s t'
  taken : ∀ s t t', P.next s t = .lock t' → owns t = false ∧ owns t' = true ∧ held s t'
  commit : ∀ s t s', P.next s t = .commit s' → owns t = true

/-- **The lock rule**: whoever is past the lock owns it, alone, and what it knew of
the committed state when it took the lock is still true. -/
theorem lock_invariant {init : σ → Prop} {owns : τ → Bool} {held : σ → τ → Prop}
    (D : P.Discipline owns held) {c : Config σ τ} (h : (P.interleaved init).Reachable c) :
    ∀ i t, c.running i = some t → owns t = true → c.owner = some i ∧ held c.shared t := by
  refine h.invariant (fun c => ∀ i t, c.running i = some t → owns t = true →
    c.owner = some i ∧ held c.shared t) ?_ ?_
  · rintro c ⟨-, hnone, -⟩ i t ht
    rw [hnone i] at ht
    cases ht
  · intro c a c' hinv hstep
    cases P.act_stepped hstep with
    | began _ =>
        intro j t ht howns
        rcases running_update ht with ⟨-, heq⟩ | ⟨-, hold⟩
        · cases heq
          rw [D.start] at howns
          cases howns
        · exact hinv j t hold howns
    | went hi hnext =>
        intro j t ht howns
        rcases running_update ht with ⟨rfl, heq⟩ | ⟨-, hold⟩
        · cases heq
          rw [D.go _ _ _ hnext] at howns
          obtain ⟨howner, hheld⟩ := hinv _ _ hi howns
          exact ⟨howner, D.kept _ _ _ howns hheld hnext⟩
        · exact hinv j t hold howns
    | locked hi hnext hfree =>
        intro j t ht howns
        rcases running_update ht with ⟨rfl, heq⟩ | ⟨-, hold⟩
        · cases heq
          exact ⟨rfl, (D.taken _ _ _ hnext).2.2⟩
        · -- the lock was free, so nobody else is past it
          rw [hfree] at hinv
          cases (hinv j t hold howns).1
    | committed hi hnext =>
        intro j t ht howns
        rcases running_update ht with ⟨-, heq⟩ | ⟨hne, hold⟩
        · cases heq
        · -- the owner is the one who committed, and is gone
          have hmine := (hinv _ _ hi (D.commit _ _ _ hnext)).1
          have hother := (hinv j t hold howns).1
          rw [hmine] at hother
          exact absurd (Option.some.inj hother).symm hne
    | ended =>
        intro j t ht howns
        rcases running_update ht with ⟨-, heq⟩ | ⟨hne, hold⟩
        · cases heq
        · obtain ⟨howner, hheld⟩ := hinv j t hold howns
          refine ⟨?_, hheld⟩
          show (if c.owner = some _ then none else c.owner) = some j
          rw [howner, if_neg fun heq => hne (Option.some.inj heq)]

end Program

end OraOS.Lib
