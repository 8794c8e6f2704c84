/-
  OraOS.Lib.Requests — requests in flight over shared state, statement by statement.

  No transaction spans a request here: each statement takes effect by itself, and
  the statements of other requests, or the environment, may come between any two.
  A `Service` says what the next statement of a request does and what is left of
  it afterwards:

    * `InterferenceFree`  — what has to be checked of each statement, and of each pair;
    * `interference_free` — what then holds in every reachable state, for any number
                            of requests in any order of their statements;
    * `rely_guarantee`    — the same where each statement is checked on its own;
    * `replayed_beside`   — how a concrete run is shown to be one of those;
    * `onePermit_step`, `one_permit`
                          — what at most one of the shared state and the requests has,
                            as long as no statement makes a second.
-/
import OraOS.Lib.Transactions

namespace OraOS.Lib

variable {σ τ ρ ε κ : Type*}

/-- Requests `ρ` over the shared state `σ`; `τ` is what is left of one in flight. -/
structure Service (σ τ ρ ε : Type*) where
  /-- Lets a request in, or refuses it. -/
  receive : σ → ρ → Option τ
  /-- One statement: the state after it and the rest of the request, if any. -/
  next : σ → τ → σ × Option τ
  /-- What happens outside the requests. -/
  env : σ → ε → σ

/-- The shared state and the requests in flight. -/
structure InFlight (σ τ : Type*) where
  shared : σ
  running : ℕ → Option τ

/-- What can happen next, to one request or around all of them. -/
inductive ServiceEvent (ρ ε : Type*) where
  | begin (i : ℕ) (r : ρ)
  | run (i : ℕ)
  /-- The request is lost between two statements. -/
  | drop (i : ℕ)
  | env (e : ε)

namespace Service

variable (P : Service σ τ ρ ε)

/-- One event; `none` where it cannot happen. -/
def act (c : InFlight σ τ) : ServiceEvent ρ ε → Option (InFlight σ τ)
  | .begin i r =>
      match c.running i, P.receive c.shared r with
      | none, some t => some { c with running := Function.update c.running i (some t) }
      | _, _ => none
  | .run i =>
      match c.running i with
      | none => none
      | some t => some { shared := (P.next c.shared t).1,
                         running := Function.update c.running i (P.next c.shared t).2 }
  | .drop i => some { c with running := Function.update c.running i none }
  | .env e => some { c with shared := P.env c.shared e }

/-- Every order of the statements, from the shared states in `init` and no request
in flight. -/
def interleaved (init : σ → Prop) : System (InFlight σ τ) (ServiceEvent ρ ε) where
  init c := init c.shared ∧ ∀ i, c.running i = none
  step c a c' := P.act c a = some c'

/-- A condition on statements, as a condition on the steps of the system. -/
def Allowed (C : σ → τ → Prop) (c : InFlight σ τ) : ServiceEvent ρ ε → Prop
  | .run i => ∀ t, c.running i = some t → C c.shared t
  | _ => True

/-- Every event is allowed where nothing is asked. -/
theorem allowed_true (c : InFlight σ τ) (e : ServiceEvent ρ ε) :
    Allowed (fun _ _ => True) c e := by
  cases e with
  | run i => exact fun _ _ => trivial
  | _ => trivial

/-- A condition on a statement, and one on each request it runs beside. -/
def Beside (C : σ → τ → Prop) (B : σ → τ → τ → Prop) (c : InFlight σ τ) : ServiceEvent ρ ε → Prop
  | .run i => ∀ t, c.running i = some t →
      C c.shared t ∧ ∀ j u, c.running j = some u → B c.shared t u
  | _ => True

/-- A condition on the statement alone asks nothing of the requests beside it. -/
theorem beside_of_allowed {C : σ → τ → Prop} {c : InFlight σ τ} {e : ServiceEvent ρ ε}
    (h : Allowed C c e) : Beside C (fun _ _ _ => True) c e := by
  cases e with
  | run i => exact fun t hi => ⟨h t hi, fun _ _ _ => trivial⟩
  | _ => trivial

/-- The obligations of an argument by interference freedom, for statements that meet
`C` and run beside requests that meet `B`: `inv` is an invariant of the shared state,
and `know` what a request in flight relies on. -/
structure InterferenceFree (C : σ → τ → Prop) (B : σ → τ → τ → Prop) (inv : σ → Prop)
    (know : σ → τ → Prop) : Prop where
  receive : ∀ s r t, inv s → P.receive s r = some t → know s t
  next : ∀ s t, inv s → know s t → C s t → inv (P.next s t).1
    ∧ ∀ t', (P.next s t).2 = some t' → know (P.next s t).1 t'
  others : ∀ s t u, inv s → know s t → C s t → B s t u → know s u → know (P.next s t).1 u
  env : ∀ s e, inv s → inv (P.env s e) ∧ ∀ u, know s u → know (P.env s e) u

/-- The obligations of a rely-guarantee argument, for statements that meet `C`:
`rely` is what every statement guarantees to the other requests. -/
structure RelyGuarantee (C : σ → τ → Prop) (inv : σ → Prop) (know : σ → τ → Prop)
    (rely : σ → σ → Prop) : Prop where
  receive : ∀ s r t, inv s → P.receive s r = some t → know s t
  next : ∀ s t, inv s → know s t → C s t → inv (P.next s t).1 ∧ rely s (P.next s t).1
    ∧ ∀ t', (P.next s t).2 = some t' → know (P.next s t).1 t'
  env : ∀ s e, inv s → inv (P.env s e) ∧ rely s (P.env s e)
  stable : ∀ s s' t, inv s → rely s s' → know s t → know s' t

/-- `act`, for statements that meet `C` only. -/
def actIf (C : σ → τ → Prop) [∀ s t, Decidable (C s t)] (c : InFlight σ τ) (a : ServiceEvent ρ ε) :
    Option (InFlight σ τ) :=
  match a with
  | .run i =>
      match c.running i with
      | none => none
      | some t => if C c.shared t then P.act c a else none
  | _ => P.act c a

variable {P}

theorem actIf_step {C : σ → τ → Prop} [∀ s t, Decidable (C s t)] {init : σ → Prop}
    (c : InFlight σ τ) (a : ServiceEvent ρ ε) (c' : InFlight σ τ) (h : P.actIf C c a = some c') :
    ((P.interleaved init).restrict (Allowed C)).step c a c' := by
  cases a with
  | begin i r => exact ⟨trivial, h⟩
  | drop i => exact ⟨trivial, h⟩
  | env e => exact ⟨trivial, h⟩
  | run i =>
      simp only [actIf] at h
      split at h
      next => cases h
      next t ht =>
        split at h
        next hC =>
          refine ⟨?_, h⟩
          intro t' ht'
          rw [ht] at ht'
          cases ht'
          exact hC
        next => cases h

/-- **The rule of interference freedom.** -/
theorem interference_free {C : σ → τ → Prop} {B : σ → τ → τ → Prop} {inv : σ → Prop}
    {know : σ → τ → Prop} (hfree : P.InterferenceFree C B inv know) {init : σ → Prop}
    (hinit : ∀ s, init s → inv s) {c : InFlight σ τ}
    (h : ((P.interleaved init).restrict (Beside C B)).Reachable c) :
    inv c.shared ∧ ∀ i t, c.running i = some t → know c.shared t := by
  refine h.invariant (fun c => inv c.shared ∧ ∀ i t, c.running i = some t → know c.shared t) ?_ ?_
  · rintro c ⟨hs, hnone⟩
    refine ⟨hinit _ hs, ?_⟩
    intro i t ht
    rw [hnone i] at ht
    cases ht
  · rintro c a c' ⟨hinv, hknow⟩ ⟨hbeside, hstep⟩
    have hact : P.act c a = some c' := hstep
    cases a with
    | begin i r =>
        simp only [act] at hact
        split at hact
        next t hidle hreceive =>
          cases hact
          refine ⟨hinv, Program.running_forall hknow ?_⟩
          rintro t' ⟨⟩
          exact hfree.receive _ _ _ hinv hreceive
        next => cases hact
    | run i =>
        simp only [act] at hact
        split at hact
        next => cases hact
        next t ht =>
          cases hact
          obtain ⟨hC, hB⟩ := hbeside t ht
          obtain ⟨hinv', hrest⟩ := hfree.next _ _ hinv (hknow i t ht) hC
          refine ⟨hinv', Program.running_forall ?_ hrest⟩
          -- another request: its knowledge survives the statement
          intro j u hj
          exact hfree.others _ _ _ hinv (hknow i t ht) hC (hB j u hj) (hknow j u hj)
    | drop i =>
        cases hact
        exact ⟨hinv, Program.running_forall hknow nofun⟩
    | env e =>
        cases hact
        obtain ⟨hinv', hothers⟩ := hfree.env _ e hinv
        exact ⟨hinv', fun j u hj => hothers u (hknow j u hj)⟩

/-- What a statement guarantees, it guarantees beside any request. -/
theorem RelyGuarantee.interferenceFree {C : σ → τ → Prop} {inv : σ → Prop} {know : σ → τ → Prop}
    {rely : σ → σ → Prop} (rg : P.RelyGuarantee C inv know rely) :
    P.InterferenceFree C (fun _ _ _ => True) inv know where
  receive := rg.receive
  next s t hinv hknow hC :=
    ⟨(rg.next s t hinv hknow hC).1, (rg.next s t hinv hknow hC).2.2⟩
  others s t _ hinv hknow hC _ hother :=
    rg.stable _ _ _ hinv (rg.next s t hinv hknow hC).2.1 hother
  env s e hinv := ⟨(rg.env s e hinv).1, fun _ h => rg.stable _ _ _ hinv (rg.env s e hinv).2 h⟩

/-- **The rely-guarantee rule.** -/
theorem rely_guarantee {C : σ → τ → Prop} {inv : σ → Prop} {know : σ → τ → Prop}
    {rely : σ → σ → Prop} (rg : P.RelyGuarantee C inv know rely) {init : σ → Prop}
    (hinit : ∀ s, init s → inv s) {c : InFlight σ τ}
    (h : ((P.interleaved init).restrict (Allowed C)).Reachable c) :
    inv c.shared ∧ ∀ i t, c.running i = some t → know c.shared t :=
  interference_free rg.interferenceFree hinit
    (System.restrict_mono (fun _ _ _ => beside_of_allowed) h)

/-! ## Runs of finitely many requests. -/

/-- `act`, for the first `n` requests, and for statements that meet `C` and run beside
requests that meet `B`. -/
def actBeside (P : Service σ τ ρ ε) (n : ℕ) (C : σ → τ → Prop) (B : σ → τ → τ → Prop)
    [∀ s t, Decidable (C s t)] [∀ s t u, Decidable (B s t u)] (c : InFlight σ τ)
    (a : ServiceEvent ρ ε) : Option (InFlight σ τ) :=
  match a with
  | .begin i _ => if i < n then P.act c a else none
  | .run i =>
      match c.running i with
      | none => none
      | some t => if C c.shared t ∧ ∀ j < n, ∀ u ∈ c.running j, B c.shared t u
          then P.act c a else none
  | _ => P.act c a

/-- The first `n` requests are all there are. -/
def AmongFirst (n : ℕ) (c : InFlight σ τ) : Prop := ∀ i t, c.running i = some t → i < n

theorem actBeside_step {n : ℕ} {C : σ → τ → Prop} {B : σ → τ → τ → Prop}
    [∀ s t, Decidable (C s t)] [∀ s t u, Decidable (B s t u)] (init : σ → Prop)
    {c c' : InFlight σ τ} {a : ServiceEvent ρ ε} (hfirst : AmongFirst n c)
    (h : P.actBeside n C B c a = some c') :
    ((P.interleaved init).restrict (Beside C B)).step c a c' ∧ AmongFirst n c' := by
  cases a with
  | begin i r =>
      simp only [actBeside] at h
      split at h
      next hi =>
        refine ⟨⟨trivial, h⟩, ?_⟩
        simp only [act] at h
        split at h
        next t hidle hreceive =>
          cases h
          intro j u hj
          rcases Program.running_update hj with ⟨rfl, -⟩ | ⟨-, hold⟩
          · exact hi
          · exact hfirst j u hold
        next => cases h
      next => cases h
  | run i =>
      simp only [actBeside] at h
      split at h
      next => cases h
      next t ht =>
        split at h
        next hmet =>
          refine ⟨⟨?_, h⟩, ?_⟩
          · intro t' ht'
            rw [ht] at ht'
            cases ht'
            exact ⟨hmet.1, fun j u hj => hmet.2 j (hfirst j u hj) u hj⟩
          · simp only [act, ht] at h
            cases h
            intro j u hj
            rcases Program.running_update hj with ⟨rfl, -⟩ | ⟨-, hold⟩
            · exact hfirst j t ht
            · exact hfirst j u hold
        next => cases h
  | drop i =>
      refine ⟨⟨trivial, h⟩, ?_⟩
      cases h
      intro j u hj
      rcases Program.running_update hj with ⟨-, hnone⟩ | ⟨-, hold⟩
      · cases hnone
      · exact hfirst j u hold
  | env e =>
      refine ⟨⟨trivial, h⟩, ?_⟩
      cases h
      exact hfirst

/-- A trace of the first `n` requests that `actBeside` accepts. -/
theorem replayed_beside {n : ℕ} {C : σ → τ → Prop} {B : σ → τ → τ → Prop}
    [∀ s t, Decidable (C s t)] [∀ s t u, Decidable (B s t u)] {init : σ → Prop}
    (as : List (ServiceEvent ρ ε)) (c : InFlight σ τ) {c' : InFlight σ τ}
    (h0 : (P.interleaved init).init c) (h : System.replay (P.actBeside n C B) as c = some c') :
    ((P.interleaved init).restrict (Beside C B)).Reachable c' := by
  -- along the trace: reachable, and of the first `n` requests
  have hrest : ∀ (as : List (ServiceEvent ρ ε)) (c : InFlight σ τ),
      ((P.interleaved init).restrict (Beside C B)).Reachable c → AmongFirst n c →
      System.replay (P.actBeside n C B) as c = some c' →
      ((P.interleaved init).restrict (Beside C B)).Reachable c' := by
    intro as
    induction as with
    | nil =>
        intro c hreach _ h
        cases h
        exact hreach
    | cons a as ih =>
        intro c hreach hfirst h
        obtain ⟨d, hd, hlater⟩ := Option.bind_eq_some_iff.mp h
        obtain ⟨hstep, hfirst'⟩ := actBeside_step init hfirst hd
        exact ih d (hreach.step hstep) hfirst' hlater
  refine hrest as c (.init h0) ?_ h
  intro i t hi
  rw [h0.2 i] at hi
  cases hi

/-! ## Permits. -/

/-- Whether what is left of a request holds the permit of `k`. -/
def heldBy [DecidableEq κ] (holds : τ → Option κ) (o : Option τ) (k : κ) : ℕ :=
  if o.bind holds = some k then 1 else 0

/-- There is a permit for each key, at large in the shared state or with a request.
A statement hands it on or destroys it; it makes one only of a key that is not in use
yet, or in spite of what there is, where `makes` says so. -/
structure Permits [DecidableEq κ] (P : Service σ τ ρ ε) (inv : σ → Prop) (know : σ → τ → Prop)
    (used : σ → κ → Prop) (makes : σ → τ → κ → Prop) (loose : σ → κ → ℕ) (holds : τ → Option κ) :
    Prop where
  receive : ∀ s r t, P.receive s r = some t → holds t = none
  next : ∀ s t, inv s → know s t → ∀ k,
    loose (P.next s t).1 k + heldBy holds (P.next s t).2 k ≤ loose s k + heldBy holds (some t) k
      ∨ (¬ used s k ∨ makes s t k)
        ∧ loose (P.next s t).1 k + heldBy holds (P.next s t).2 k ≤ loose s k + 1
  made : ∀ s t k, makes s t k → holds t = none ∧ loose s k ≤ loose (P.next s t).1 k
    ∧ ∃ t', (P.next s t).2 = some t' ∧ holds t' = some k
  env : ∀ s e k, loose (P.env s e) k ≤ loose s k
  loose_used : ∀ s k, inv s → loose s k ≠ 0 → used s k
  held_used : ∀ s t k, inv s → know s t → holds t = some k → used s k

/-- What a statement makes is made when there is none. -/
def Alone (makes : σ → τ → κ → Prop) (loose : σ → κ → ℕ) (holds : τ → Option κ)
    (c : InFlight σ τ) : ServiceEvent ρ ε → Prop
  | .run i => ∀ t, c.running i = some t → ∀ k, makes c.shared t k →
      loose c.shared k = 0 ∧ ∀ j u, c.running j = some u → holds u ≠ some k
  | _ => True

/-- One permit of a key at most, and it is at large or with one request. -/
def OnePermit (loose : σ → κ → ℕ) (holds : τ → Option κ) (c : InFlight σ τ) : Prop :=
  ∀ k, loose c.shared k ≤ 1 ∧ ∀ i t, c.running i = some t → holds t = some k →
    loose c.shared k = 0 ∧ ∀ j u, c.running j = some u → holds u = some k → j = i

/-- Who holds the permit counts for one. -/
theorem heldBy_some [DecidableEq κ] {holds : τ → Option κ} {t : τ} {k : κ}
    (h : holds t = some k) : heldBy holds (some t) k = 1 := if_pos h

/-- Who does not counts for none. -/
theorem heldBy_not [DecidableEq κ] {holds : τ → Option κ} {o : Option τ} {k : κ}
    (h : ∀ t, o = some t → holds t ≠ some k) : heldBy holds o k = 0 := by
  refine if_neg ?_
  intro hk
  obtain ⟨t, ho, ht⟩ := Option.bind_eq_some_iff.mp hk
  exact h t ho ht

/-- What a request that loses its permit, or moves without one, leaves to the others. -/
theorem OnePermit.others {loose : σ → κ → ℕ} {holds : τ → Option κ} {c : InFlight σ τ}
    (h : OnePermit loose holds c) {s' : σ} {i : ℕ} {o : Option τ}
    (hloose : ∀ k, loose s' k ≤ loose c.shared k) (ho : ∀ t, o = some t → holds t = none) :
    OnePermit loose holds ⟨s', Function.update c.running i o⟩ := by
  intro k
  obtain ⟨hone, hheld⟩ := h k
  -- whoever holds the permit now held it before
  have hbefore : ∀ j u, Function.update c.running i o j = some u → holds u = some k →
      c.running j = some u := by
    intro j u hj hu
    rcases Program.running_update hj with ⟨-, heq⟩ | ⟨-, hold⟩
    · rw [ho u heq] at hu
      cases hu
    · exact hold
  refine ⟨(hloose k).trans hone, ?_⟩
  intro j t hj ht
  obtain ⟨hzero, honly⟩ := hheld j t (hbefore j t hj ht) ht
  refine ⟨Nat.le_zero.mp (hzero ▸ hloose k), ?_⟩
  exact fun j' u hj' hu => honly j' u (hbefore j' u hj' hu) hu

/-- A statement of request `i` that makes no second permit of a key in use. -/
theorem OnePermit.statement [DecidableEq κ] {loose : σ → κ → ℕ} {holds : τ → Option κ}
    {c : InFlight σ τ} (h : OnePermit loose holds c) {i : ℕ} {t : τ}
    (hi : c.running i = some t) {s' : σ} {o : Option τ}
    (hstep : ∀ k, loose s' k + heldBy holds o k ≤ loose c.shared k + heldBy holds (some t) k
      ∨ (∀ j u, c.running j = some u → holds u ≠ some k)
        ∧ loose s' k + heldBy holds o k ≤ 1) :
    OnePermit loose holds ⟨s', Function.update c.running i o⟩ := by
  intro k
  obtain ⟨hone, hheld⟩ := h k
  -- the permit of `k`, wherever it was, is one
  have hbefore : loose c.shared k + heldBy holds (some t) k ≤ 1 := by
    by_cases ht : holds t = some k
    · rw [heldBy_some ht, (hheld i t hi ht).1]
    · rw [heldBy_not (by rintro _ ⟨⟩; exact ht)]
      exact hone
  have hafter : loose s' k + heldBy holds o k ≤ 1 := by
    rcases hstep k with hle | ⟨-, hle⟩
    · exact hle.trans hbefore
    · exact hle
  -- if another request has it, the one that moved has none
  have hother : ∀ j u, j ≠ i → c.running j = some u → holds u = some k →
      loose s' k + heldBy holds o k = 0 := by
    intro j u hj hju hu
    obtain ⟨hzero, honly⟩ := hheld j u hju hu
    rcases hstep k with hle | ⟨hunused, -⟩
    · have hnot : heldBy holds (some t) k = 0 := by
        refine heldBy_not ?_
        rintro _ ⟨⟩ ht
        exact hj (honly i t hi ht).symm
      omega
    · exact absurd hu (hunused j u hju)
  refine ⟨(Nat.le_add_right _ _).trans hafter, ?_⟩
  intro j u hju hu
  rcases Program.running_update hju with ⟨rfl, heq⟩ | ⟨hj, hold⟩
  · have hown : heldBy holds o k = 1 := by
      rw [heq]
      exact heldBy_some hu
    refine ⟨show loose s' k = 0 by omega, ?_⟩
    intro j' u' hj' hu'
    rcases Program.running_update hj' with ⟨rfl, -⟩ | ⟨hne, hold'⟩
    · rfl
    · have hzero := hother j' u' hne hold' hu'
      omega
  · have hzero := hother j u hj hold hu
    refine ⟨show loose s' k = 0 by omega, ?_⟩
    intro j' u' hj' hu'
    rcases Program.running_update hj' with ⟨rfl, heq⟩ | ⟨-, hold'⟩
    · have hown : heldBy holds o k = 1 := by
        rw [heq]
        exact heldBy_some hu'
      omega
    · exact (hheld j u hold hu).2 j' u' hold' hu'

/-- **The permit step**: one permit at most is left if and only if none is made in
spite of another. -/
theorem onePermit_step [DecidableEq κ] {inv : σ → Prop} {know : σ → τ → Prop}
    {used : σ → κ → Prop} {makes : σ → τ → κ → Prop} {loose : σ → κ → ℕ} {holds : τ → Option κ}
    (hp : P.Permits inv know used makes loose holds) {c c' : InFlight σ τ} {e : ServiceEvent ρ ε}
    (hinv : inv c.shared) (hknow : ∀ i t, c.running i = some t → know c.shared t)
    (hone : OnePermit loose holds c) (hact : P.act c e = some c') :
    OnePermit loose holds c' ↔ Alone makes loose holds c e := by
  cases e with
  | begin i r =>
      simp only [act] at hact
      split at hact
      next t _ hreceive =>
        cases hact
        refine iff_of_true (hone.others (fun _ => le_refl _) ?_) trivial
        rintro t' ⟨⟩
        exact hp.receive _ _ _ hreceive
      next => cases hact
  | drop i =>
      cases hact
      exact iff_of_true (hone.others (fun _ => le_refl _) nofun) trivial
  | env e =>
      cases hact
      refine iff_of_true ?_ trivial
      intro k
      obtain ⟨hle, hheld⟩ := hone k
      refine ⟨(hp.env _ e k).trans hle, ?_⟩
      intro i t hi ht
      obtain ⟨hzero, honly⟩ := hheld i t hi ht
      exact ⟨Nat.le_zero.mp (hzero ▸ hp.env _ e k), honly⟩
  | run i =>
      simp only [act] at hact
      split at hact
      next => cases hact
      next t hi =>
        cases hact
        constructor
        · -- the permit that was made is now the only one
          intro hafter t' ht' k hmakes
          rw [hi] at ht'
          cases ht'
          obtain ⟨hnone, hle, t', hnext, hholds⟩ := hp.made _ t k hmakes
          have hmine : Function.update c.running i (P.next c.shared t).2 i = some t' := by
            rw [Function.update_self, hnext]
          obtain ⟨hzero, honly⟩ := (hafter k).2 i t' hmine hholds
          refine ⟨Nat.le_zero.mp (hle.trans (Nat.le_of_eq hzero)), ?_⟩
          intro j u hj hu
          by_cases hji : j = i
          · subst hji
            rw [hi] at hj
            cases hj
            rw [hnone] at hu
            cases hu
          · exact hji (honly j u ((Function.update_of_ne hji _ _).trans hj) hu)
        · intro halone
          refine hone.statement hi fun k => ?_
          rcases hp.next _ _ hinv (hknow i t hi) k with hle | ⟨hfirst, hle⟩
          · exact .inl hle
          · -- neither at large nor with a request
            have hnobody : loose c.shared k = 0
                ∧ ∀ j u, c.running j = some u → holds u ≠ some k := by
              rcases hfirst with hunused | hmakes
              · refine ⟨?_, ?_⟩
                · by_contra hloose
                  exact hunused (hp.loose_used _ _ hinv hloose)
                · intro j u hj hu
                  exact hunused (hp.held_used _ _ _ hinv (hknow j u hj) hu)
              · exact halone t hi k hmakes
            rw [hnobody.1] at hle
            exact .inr ⟨hnobody.2, hle⟩

/-- **The permit rule.** -/
theorem one_permit [DecidableEq κ] {C : σ → τ → Prop} {inv : σ → Prop} {know : σ → τ → Prop}
    {rely : σ → σ → Prop} {used : σ → κ → Prop} {makes : σ → τ → κ → Prop} {loose : σ → κ → ℕ}
    {holds : τ → Option κ} (rg : P.RelyGuarantee C inv know rely)
    (hp : P.Permits inv know used makes loose holds)
    {D : InFlight σ τ → ServiceEvent ρ ε → Prop}
    (hD : ∀ c e, D c e → Allowed C c e ∧ Alone makes loose holds c e)
    {init : σ → Prop} (hinit : ∀ s, init s → inv s ∧ ∀ k, loose s k ≤ 1) {c : InFlight σ τ}
    (h : ((P.interleaved init).restrict D).Reachable c) : OnePermit loose holds c := by
  induction h with
  | init h0 =>
      intro k
      refine ⟨(hinit _ h0.1).2 k, ?_⟩
      intro i t hi
      rw [h0.2 i] at hi
      cases hi
  | @step c c' e hreach hs ih =>
      obtain ⟨hinv, hknow⟩ := rely_guarantee rg (fun s h0 => (hinit s h0).1)
        (System.restrict_mono (fun c e _ h => (hD c e h).1) hreach)
      exact (onePermit_step hp hinv hknow ih hs.2).mpr (hD c e hs.1).2

end Service

end OraOS.Lib
