/-
  OraOS.Auth.Reuse — what reuse detection ends, with requests in flight.

  `rotate` answers a token that was rotated away with a sweep of its family.  The sweep
  revokes the rows that are there; a request that has claimed its token, and not yet
  inserted the replacement, inserts it afterwards.

  Beside the requests there is a record, which no statement looks at, of who has detected
  reuse and whose sweep has committed.

    * `next_tokenStep`      — what a statement does to the table of tokens;
    * `families_dead_step`  — a swept family stays dead with a step exactly if the step
                              inserts nothing into it;
    * `reuse_kills_family`  — and then no token of it is accepted again.
-/
import OraOS.Auth.SignOut

namespace OraOS.Auth

open OraOS.Api
open OraOS.Lib

/-! ## §1. Reuse, detected and swept. -/

/-- The family whose reuse a statement detects. -/
def detects (w : World) : Task → Option Uuid
  | .findToken presented =>
      (w.findToken presented).bind fun t => if t.revokedAt.isSome then some t.familyId else none
  | _ => none

/-- The family a request in flight holds on to. -/
def holds : Task → Option Uuid
  | .readEpoch existing => some existing.familyId
  | .readFamily existing _ => some existing.familyId
  | .claim existing => some existing.familyId
  | .readActive existing _ => some existing.familyId
  | .refreshClaims _ existing _ => some existing.familyId
  | .revokeFamily familyId => some familyId
  | .findCookie ticket _ => ticket.familyId
  | .consumeCookie _ existing => some existing.familyId
  | .sign ticket => ticket.familyId
  | .insert ticket _ => ticket.familyId
  | _ => none

/-- The requests, who of them has detected reuse of a family, and the families whose
sweep has committed since. -/
structure Watch where
  flight : InFlight World Task
  detected : ℕ → Option Uuid
  killed : List Uuid

/-- The families killed by a statement of request `i`: of its sweep, if it detected reuse. -/
def Watch.sweptBy (c : Watch) (i : ℕ) : Task → List Uuid
  | .revokeFamily f => if (c.detected i).isSome then [f] else []
  | _ => []

/-- The record after an event. -/
def Watch.record (c : Watch) (flight : InFlight World Task) : ServiceEvent Request ℕ → Watch
  | .run i =>
      match c.flight.running i with
      | some t => ⟨flight, Function.update c.detected i (detects c.flight.shared t),
          c.killed ++ c.sweptBy i t⟩
      | none => { c with flight }
  | .begin i _ => { c with flight, detected := Function.update c.detected i none }
  | .drop i => { c with flight, detected := Function.update c.detected i none }
  | .env _ => { c with flight }

section

variable (cfg : AuthConfig)

/-- One event, and what the record makes of it. -/
def Watch.act (c : Watch) (e : ServiceEvent Request ℕ) : Option Watch :=
  ((authService cfg).act c.flight e).map fun flight => c.record flight e

/-- Any number of requests at once, from any world; a family id is used once. -/
def watched : System Watch (ServiceEvent Request ℕ) where
  init c := (sessions cfg).init c.flight
    ∧ (∀ t ∈ c.flight.shared.refreshTokens, t.familyId < c.flight.shared.fresh)
    ∧ (∀ i, c.detected i = none) ∧ c.killed = []
  step c e c' := c.act cfg e = some c'

variable {cfg}

/-- The record changes nothing that it records. -/
theorem record_flight (c : Watch) (flight : InFlight World Task) (e : ServiceEvent Request ℕ) :
    (c.record flight e).flight = flight := by
  cases e with
  | run i =>
      simp only [Watch.record]
      split <;> rfl
  | begin i r => rfl
  | drop i => rfl
  | env n => rfl

/-- The record watches: the requests are those of `sessions`. -/
theorem watched_sessions {c : Watch} (h : (watched cfg).Reachable c) :
    (sessions cfg).Reachable c.flight := by
  induction h with
  | init h0 => exact .init h0.1
  | @step c c' e _ hstep ih =>
      obtain ⟨flight, hact, rfl⟩ := Option.map_eq_some_iff.mp hstep
      rw [record_flight]
      exact ih.step hact

/-! ## §2. What a statement does to the tokens. -/

/-- The tokens after a statement: some of them revoked, or one more. -/
inductive TokenStep (cfg : AuthConfig) (w : World) : Task → World → Prop where
  | revoked {t : Task} {w' : World} (hnot : ∀ ticket iat, t ≠ .insert ticket iat)
      (f : RefreshToken → RefreshToken) (hf : ∀ x : RefreshToken, x.Becomes (f x))
      (htokens : w'.refreshTokens = w.refreshTokens.map f) (hfresh : w'.fresh = w.fresh) :
      TokenStep cfg w t w'
  | issued {ticket : Ticket} {iat : ℤ} (late : Bool) :
      TokenStep cfg w (.insert ticket iat)
        (w.issue cfg ticket.claims ticket.familyId iat ticket.checkedAfter late)

/-- A quiet statement only revokes. -/
theorem TokenStep.of_quiet {w w' : World} {t : Task} (hnot : ∀ ticket iat, t ≠ .insert ticket iat)
    (h : Quiet w w') : TokenStep cfg w t w' := by
  obtain ⟨f, hf, htokens⟩ := h.tokens
  exact .revoked hnot f hf htokens h.fresh

/-- **The step inversion**, seen from the table of tokens. -/
theorem next_tokenStep (cfg : AuthConfig) (w : World) (t : Task) :
    TokenStep cfg w t (next cfg w t).1 := by
  cases t with
  | insert ticket iat => exact .issued _
  | revokeAll userId at_ swept =>
      -- the sweep stamps tokens; the epoch beside it is not of this table
      obtain ⟨f, hf, htokens⟩ := (quiet_stamp w (fun t => decide (t.token ∈ swept)) at_).tokens
      exact .revoked (by simp) f hf htokens rfl
  | _ => exact .of_quiet (by simp) (next_quiet cfg w (by simp) (by simp))

/-- Reuse of a family that exists, and the sweep comes next. -/
theorem detects_next (cfg : AuthConfig) {w : World} {t : Task} {f : Uuid} (h : detects w t = some f) :
    (next cfg w t).2 = some (.revokeFamily f) ∧ ∃ x ∈ w.refreshTokens, x.familyId = f := by
  cases t with
  | findToken presented =>
      obtain ⟨x, hx, hf⟩ := Option.bind_eq_some_iff.mp h
      split at hf
      next hrevoked =>
        cases hf
        refine ⟨?_, x, List.mem_of_find?_eq_some hx, rfl⟩
        simp only [next, hx, if_pos hrevoked]
      next => cases hf
  | _ => cases h

/-- A request holds on to no family but one it has read in the table. -/
theorem holds_next {w : World} {t t' : Task} {f : Uuid} (h : (next cfg w t).2 = some t')
    (hf : holds t' = some f) : holds t = some f ∨ ∃ x ∈ w.refreshTokens, x.familyId = f := by
  cases next_task h with
  | replayed hfind => exact .inr ⟨_, List.mem_of_find?_eq_some hfind, Option.some_inj.mp hf⟩
  | presented hfind => exact .inr ⟨_, List.mem_of_find?_eq_some hfind, Option.some_inj.mp hf⟩
  | cookie hfind => exact .inr ⟨_, List.mem_of_find?_eq_some hfind, Option.some_inj.mp hf⟩
  -- the rest of `rotate`, and of the issue, passes its family on
  | neverRevoked | revokedOnce | olderFamily | youngerFamily | claimed | active | inactive =>
      exact .inl hf
  | refreshed | spentCookie | consumed | signed => exact .inl hf
  -- the others know of none
  | _ => cases hf

/-- A request that begins holds on to no family. -/
theorem holds_receive {w : World} {r : Request} {t : Task} (h : receive cfg w r = some t) :
    holds t = none := by
  cases receive_task h with
  | _ => rfl

/-! ## §3. What the record says. -/

/-- Families and their ids, and what the record says of requests in flight. -/
structure WatchInv (c : Watch) : Prop where
  families : ∀ t ∈ c.flight.shared.refreshTokens, t.familyId < c.flight.shared.fresh
  detected : ∀ i f, c.detected i = some f →
    c.flight.running i = some (.revokeFamily f) ∧ f < c.flight.shared.fresh
  killed : ∀ f ∈ c.killed, f < c.flight.shared.fresh
  held : ∀ i t f, c.flight.running i = some t → holds t = some f → f < c.flight.shared.fresh

/-- **The families that were killed are dead**: every token of theirs is revoked. -/
def FamiliesDead (c : Watch) : Prop :=
  ∀ t ∈ c.flight.shared.refreshTokens, t.familyId ∈ c.killed → t.revokedAt ≠ none

/-- `rotate` is about to accept a token of the family: the row it claims is live. -/
def Accepts (c : Watch) (i : ℕ) (familyId : Uuid) : Prop :=
  ∃ existing, c.flight.running i = some (.claim existing)
    ∧ ∃ t ∈ c.flight.shared.refreshTokens, t.token = existing.token ∧ t.revokedAt = none
      ∧ t.familyId = familyId

/-- An insert that happens with this event goes into no family that has been killed. -/
def InsertsInTime (c : Watch) : ServiceEvent Request ℕ → Prop
  | .run i =>
      match c.flight.running i with
      | some (.insert ticket _) => ∀ f ∈ ticket.familyId, f ∉ c.killed
      | _ => True
  | _ => True

instance (c : Watch) (e : ServiceEvent Request ℕ) : Decidable (InsertsInTime c e) := by
  unfold InsertsInTime
  split
  · split <;> infer_instance
  · infer_instance

/-- The condition is about inserts only. -/
theorem InsertsInTime.other {c : Watch} {i : ℕ} {t : Task} (hi : c.flight.running i = some t)
    (hnot : ∀ ticket iat, t ≠ .insert ticket iat) : InsertsInTime c (.run i) := by
  simp only [InsertsInTime, hi]
  cases t with
  | insert ticket iat => exact absurd rfl (hnot ticket iat)
  | _ => exact trivial

theorem InsertsInTime.insert {c : Watch} {i : ℕ} {ticket : Ticket} {iat : ℤ}
    (hi : c.flight.running i = some (.insert ticket iat)) :
    InsertsInTime c (.run i) ↔ ∀ f ∈ ticket.familyId, f ∉ c.killed := by
  simp only [InsertsInTime, hi]

/-- A client's slot goes to another request, or to none; whoever begins holds nothing. -/
theorem WatchInv.slot {c : Watch} (hc : WatchInv c) (i : ℕ) (o : Option Task)
    (hnothing : ∀ t ∈ o, holds t = none) :
    WatchInv { c with
      flight := { c.flight with running := Function.update c.flight.running i o }
      detected := Function.update c.detected i none } where
  families := hc.families
  detected j f hj := by
    -- the call whose slot it is has detected nothing; the others keep what they have
    by_cases hji : j = i
    · subst hji
      simp at hj
    · have hj' : c.detected j = some f := by simpa [Function.update_of_ne hji] using hj
      refine ⟨?_, (hc.detected j f hj').2⟩
      show Function.update c.flight.running i o j = _
      rw [Function.update_of_ne hji]
      exact (hc.detected j f hj').1
  killed := hc.killed
  held j t f hj hf := by
    by_cases hji : j = i
    · subst hji
      rw [hnothing t (by simpa using hj)] at hf
      cases hf
    · exact hc.held j t f (by simpa [Function.update_of_ne hji] using hj) hf

/-- What an event other than a statement changes: the clock, or who is in flight. -/
theorem watch_other {c c' : Watch} {e : ServiceEvent Request ℕ} (hc : WatchInv c)
    (h : c.act cfg e = some c') (hnot : ∀ i, e ≠ .run i) :
    WatchInv c' ∧ (FamiliesDead c' ↔ FamiliesDead c) := by
  obtain ⟨flight, hact, rfl⟩ := Option.map_eq_some_iff.mp h
  cases e with
  | run i => exact absurd rfl (hnot i)
  | begin i r =>
      simp only [Service.act] at hact
      split at hact
      next t hfree hreceive =>
        cases hact
        refine ⟨hc.slot i (some t) ?_, Iff.rfl⟩
        rintro _ ⟨⟩
        exact holds_receive hreceive
      next => cases hact
  | drop i =>
      cases hact
      exact ⟨hc.slot i none forall_mem_none, Iff.rfl⟩
  | env n =>
      cases hact
      exact ⟨⟨hc.families, hc.detected, hc.killed, hc.held⟩, Iff.rfl⟩

theorem mem_killed {c : Watch} {i : ℕ} {t : Task} {f : Uuid} (hc : WatchInv c)
    (hi : c.flight.running i = some t) (hf : f ∈ c.killed ++ c.sweptBy i t) :
    f ∈ c.killed ∨ t = .revokeFamily f ∧ f < c.flight.shared.fresh := by
  rcases List.mem_append.mp hf with hold | hnew
  · exact .inl hold
  · right
    cases t with
    -- only the sweep of a family it has detected adds to the killed ones
    | revokeFamily g =>
        simp only [Watch.sweptBy] at hnew
        split at hnew
        next hsome =>
          obtain rfl := List.mem_singleton.mp hnew
          obtain ⟨g', hg'⟩ := Option.isSome_iff_exists.mp hsome
          obtain ⟨hrun, hlt⟩ := hc.detected i g' hg'
          rw [hi] at hrun
          cases hrun
          exact ⟨rfl, hlt⟩
        next => cases hnew
    | _ => cases hnew

/-- Nothing of a family is left by its sweep. -/
theorem revokeFamily_dead {w : World} {f : Uuid} {t : RefreshToken}
    (ht : t ∈ (w.revokeFamily f).refreshTokens) (hf : t.familyId = f) : t.revokedAt ≠ none := by
  obtain ⟨x, hx, rfl⟩ := List.mem_map.mp ht
  split at hf
  next hp => exact fun hnone => by simp [hp] at hnone
  next hp =>
    intro hnone
    rw [if_neg hp] at hnone
    refine hp ?_
    simp [hf, hnone]

/-- What a statement leaves of the requests and of the record. -/
theorem watch_statement {c c' : Watch} {i : ℕ} (h : c.act cfg (.run i) = some c') :
    ∃ t, c.flight.running i = some t
      ∧ c' = ⟨⟨(next cfg c.flight.shared t).1,
          Function.update c.flight.running i (next cfg c.flight.shared t).2⟩,
        Function.update c.detected i (detects c.flight.shared t), c.killed ++ c.sweptBy i t⟩ := by
  obtain ⟨flight, hact, rfl⟩ := Option.map_eq_some_iff.mp h
  simp only [Service.act] at hact
  split at hact
  next => cases hact
  next t hi =>
    cases hact
    refine ⟨t, hi, ?_⟩
    simp only [Watch.record, hi]
    rfl

/-- The record of a reuse, of the request that runs and of the others. -/
theorem WatchInv.detected_run {c : Watch} {i : ℕ} {t : Task} (hc : WatchInv c) {w' : World}
    (hfresh : c.flight.shared.fresh ≤ w'.fresh) (j : ℕ) (f : Uuid)
    (hj : Function.update c.detected i (detects c.flight.shared t) j = some f) :
    Function.update c.flight.running i (next cfg c.flight.shared t).2 j = some (.revokeFamily f)
      ∧ f < w'.fresh := by
  by_cases hji : j = i
  · subst hji
    rw [Function.update_self] at hj ⊢
    obtain ⟨hnext, x, hx, rfl⟩ := detects_next cfg hj
    exact ⟨hnext, lt_of_lt_of_le (hc.families x hx) hfresh⟩
  · rw [Function.update_of_ne hji] at hj ⊢
    obtain ⟨hrun, hlt⟩ := hc.detected j f hj
    exact ⟨hrun, lt_of_lt_of_le hlt hfresh⟩

/-- The families that they hold on to. -/
theorem WatchInv.held_run {c : Watch} {i : ℕ} {t : Task} (hc : WatchInv c)
    (hi : c.flight.running i = some t) {w' : World} (hfresh : c.flight.shared.fresh ≤ w'.fresh)
    (j : ℕ) (t' : Task) (f : Uuid)
    (hj : Function.update c.flight.running i (next cfg c.flight.shared t).2 j = some t')
    (hf : holds t' = some f) : f < w'.fresh := by
  refine lt_of_lt_of_le ?_ hfresh
  by_cases hji : j = i
  · subst hji
    rw [Function.update_self] at hj
    -- the family is handed on, or read off a token of the table
    rcases holds_next hj hf with hown | ⟨x, hx, rfl⟩
    · exact hc.held j t f hi hown
    · exact hc.families x hx
  · rw [Function.update_of_ne hji] at hj
    exact hc.held j t' f hj hf

section Issue

variable {c : Watch} {i : ℕ} {ticket : Ticket} {iat : ℤ}

/-- A token that is issued is of a family that is there, or of one that starts here. -/
theorem WatchInv.issued_families (hc : WatchInv c)
    (hi : c.flight.running i = some (.insert ticket iat)) (late : Bool) :
    ∀ x ∈ (c.flight.shared.issue cfg ticket.claims ticket.familyId iat ticket.checkedAfter
      late).refreshTokens, x.familyId < c.flight.shared.fresh + 2 := by
  intro x hx
  rcases List.mem_append.mp hx with hold | hnew
  · exact lt_of_lt_of_le (hc.families x hold) (Nat.le_add_right _ 2)
  · obtain rfl := List.mem_singleton.mp hnew
    show ticket.familyId.getD (c.flight.shared.fresh + 1) < c.flight.shared.fresh + 2
    cases hf : ticket.familyId with
    | none => exact Nat.lt_succ_self _
    | some f => exact lt_of_lt_of_le (hc.held i _ f hi hf) (Nat.le_add_right _ 2)

/-- It leaves the killed families dead just if it is of none of them. -/
theorem WatchInv.issued_dead (hc : WatchInv c) (hdead : FamiliesDead c) (late : Bool) :
    (∀ x ∈ (c.flight.shared.issue cfg ticket.claims ticket.familyId iat ticket.checkedAfter
        late).refreshTokens, x.familyId ∈ c.killed → x.revokedAt ≠ none)
      ↔ ∀ f ∈ ticket.familyId, f ∉ c.killed := by
  constructor
  · intro h f hf hkill
    refine h _ (List.mem_append_right _ (List.mem_singleton_self _)) ?_ rfl
    show ticket.familyId.getD _ ∈ c.killed
    rw [Option.mem_def.mp hf]
    exact hkill
  · intro h x hx hkill
    rcases List.mem_append.mp hx with hold | hnew
    · exact hdead x hold hkill
    · obtain rfl := List.mem_singleton.mp hnew
      cases hf : ticket.familyId with
      | none =>
          -- a family that starts here was nobody's before
          rw [hf] at hkill
          exact absurd (hc.killed _ hkill) (not_lt.mpr (Nat.le_succ _))
      | some f =>
          rw [hf] at hkill
          exact absurd hkill (h f hf)

end Issue

/-- **A statement kills, and keeps dead, the families it should if and only if** it
inserts nothing into one of them. -/
theorem watch_run {c c' : Watch} {i : ℕ} (hc : WatchInv c) (hdead : FamiliesDead c)
    (h : c.act cfg (.run i) = some c') :
    WatchInv c' ∧ (FamiliesDead c' ↔ InsertsInTime c (.run i)) := by
  obtain ⟨t, hi, rfl⟩ := watch_statement h
  have hkilled := fun f => mem_killed (f := f) hc hi
  have hstep := next_tokenStep cfg c.flight.shared t
  have hsweep : ∀ f, t = .revokeFamily f →
      (next cfg c.flight.shared t).1 = c.flight.shared.revokeFamily f := by
    rintro f rfl
    rfl
  generalize (next cfg c.flight.shared t).1 = w' at hstep hsweep ⊢
  cases hstep with
  -- no token comes: each is one of before, and a killed family's is dead already or swept
  | revoked hnot f hf htokens hfresh =>
      have hbefore : ∀ x' ∈ w'.refreshTokens, ∃ x ∈ c.flight.shared.refreshTokens, x.Becomes x' := by
        intro x' hx'
        rw [htokens] at hx'
        obtain ⟨x, hx, rfl⟩ := List.mem_map.mp hx'
        exact ⟨x, hx, hf x⟩
      refine ⟨⟨?_, hc.detected_run hfresh.ge, ?_, hc.held_run hi hfresh.ge⟩,
        iff_of_true ?_ (.other hi hnot)⟩
      · intro x' hx'
        obtain ⟨x, hx, hb⟩ := hbefore x' hx'
        show x'.familyId < w'.fresh
        rw [hb.familyId, hfresh]
        exact hc.families x hx
      · intro g hg
        show g < w'.fresh
        rw [hfresh]
        rcases hkilled g hg with hold | ⟨-, hlt⟩
        · exact hc.killed g hold
        · exact hlt
      · intro x' hx' hg
        rcases hkilled x'.familyId hg with hold | ⟨hrevoke, -⟩
        · obtain ⟨x, hx, hb⟩ := hbefore x' hx'
          intro hnone
          exact hdead x hx (hb.familyId ▸ hold) (hb.revoked hnone)
        · have hx'' : x' ∈ w'.refreshTokens := hx'
          rw [hsweep x'.familyId hrevoke] at hx''
          exact revokeFamily_dead hx'' rfl
  -- a token comes: alive if the family is not killed, and that is the condition
  | @issued ticket iat late =>
      have hswept : c.killed ++ c.sweptBy i (.insert ticket iat) = c.killed := List.append_nil _
      rw [hswept, InsertsInTime.insert hi]
      have hgrows : c.flight.shared.fresh ≤ (c.flight.shared.issue cfg ticket.claims ticket.familyId
          iat ticket.checkedAfter late).fresh := Nat.le_add_right _ 2
      refine ⟨⟨hc.issued_families hi late, hc.detected_run hgrows, ?_, hc.held_run hi hgrows⟩,
        hc.issued_dead hdead late⟩
      intro f hf
      exact lt_of_lt_of_le (hc.killed f hf) hgrows

/-- **A step keeps the killed families dead if and only if** it inserts nothing into one. -/
theorem families_dead_step {c c' : Watch} {e : ServiceEvent Request ℕ} (hc : WatchInv c)
    (hdead : FamiliesDead c) (h : c.act cfg e = some c') :
    WatchInv c' ∧ (FamiliesDead c' ↔ InsertsInTime c e) := by
  cases e with
  | run i => exact watch_run hc hdead h
  | begin i r =>
      obtain ⟨hc', hsame⟩ := watch_other hc h nofun
      exact ⟨hc', iff_of_true (hsame.mpr hdead) trivial⟩
  | drop i =>
      obtain ⟨hc', hsame⟩ := watch_other hc h nofun
      exact ⟨hc', iff_of_true (hsame.mpr hdead) trivial⟩
  | env n =>
      obtain ⟨hc', hsame⟩ := watch_other hc h nofun
      exact ⟨hc', iff_of_true (hsame.mpr hdead) trivial⟩

theorem watched_opening {c : Watch} (h : (watched cfg).init c) : WatchInv c ∧ FamiliesDead c := by
  obtain ⟨hinit, hfamilies, hdetected, hkilled⟩ := h
  refine ⟨⟨hfamilies, ?_, ?_, ?_⟩, ?_⟩
  · intro i f hf
    rw [hdetected i] at hf
    cases hf
  · intro f hf
    rw [hkilled] at hf
    cases hf
  · intro i t f hi _
    rw [hinit.2 i] at hi
    cases hi
  · intro t _ hf
    rw [hkilled] at hf
    cases hf

/-- In the runs whose inserts are in time, the killed families are dead. -/
theorem families_dead {c : Watch} (h : ((watched cfg).restrict InsertsInTime).Reachable c) :
    WatchInv c ∧ FamiliesDead c := by
  induction h with
  | init h0 => exact watched_opening h0
  | step _ hstep ih =>
      obtain ⟨htime, hact⟩ := hstep
      obtain ⟨hc, hiff⟩ := families_dead_step ih.1 ih.2 hact
      exact ⟨hc, hiff.mpr htime⟩

/-! ## §4. Reuse kills the family. -/

/-- **Once its reuse has been detected and swept**, no token of a family is accepted
again, in the runs in which nothing is inserted into a swept family; and such an insert
is what leaves a token of it live. -/
theorem reuse_kills_family (cfg : AuthConfig) {c : Watch}
    (h : ((watched cfg).restrict InsertsInTime).Reachable c) :
    (∀ i familyId, Accepts c i familyId → familyId ∉ c.killed)
      ∧ ∀ e c', (watched cfg).step c e c' → (FamiliesDead c' ↔ InsertsInTime c e) := by
  obtain ⟨hc, hdead⟩ := families_dead h
  refine ⟨?_, fun e c' hstep => (families_dead_step hc hdead hstep).2⟩
  rintro i familyId ⟨existing, -, t, ht, -, hlive, rfl⟩ hkilled
  exact hdead t ht hkilled hlive

end

/-- Signed in nowhere, and nothing detected. -/
def nobodyWatched : Watch := ⟨nobody, fun _ => none, []⟩

theorem nobodyWatched_init : (watched demoConfig).init nobodyWatched :=
  ⟨nobody_init, nofun, fun _ => rfl, rfl⟩

/-- Signed in, renewed, and the old token replayed; then signed in again, and renewed up
to the claim. -/
def replayed : List (ServiceEvent Request ℕ) :=
  [.begin 0 signIn, .run 0, .run 0, .run 0, .run 0, .run 0,
    .begin 1 (.refresh 100), .run 1, .run 1, .run 1, .run 1, .run 1, .run 1, .run 1,
    .begin 2 (.refresh 100), .run 2, .run 2,
    .begin 3 signIn, .run 3, .run 3, .run 3, .run 3, .run 3,
    .begin 4 (.refresh 104), .run 4, .run 4]

theorem replayed_runs :
    (System.replay (System.guarded InsertsInTime (Watch.act demoConfig)) replayed
      nobodyWatched).isSome = true := by
  decide +kernel

/-- The second sign-in is a family of its own. -/
theorem reuse_kills_family_replayed :
    ∃ c : Watch, c.killed = [101] ∧ Accepts c 4 105 ∧ 105 ∉ c.killed := by
  have h := System.replay_restricted (M := watched demoConfig) (C := InsertsInTime)
    (f := Watch.act demoConfig) (fun _ _ _ h => h) replayed nobodyWatched nobodyWatched_init
    (Option.some_get replayed_runs).symm
  have haccepts : Accepts (Option.get _ replayed_runs) 4 105 := by
    refine ⟨_, rfl, ?_⟩
    decide +kernel
  exact ⟨_, by decide +kernel, haccepts, (reuse_kills_family demoConfig h).1 4 105 haccepts⟩

/-- The first renewal pauses before its insert; the old token is replayed, the family
swept, and then the replacement is inserted and renewed up to the claim. -/
def insertedLate : List (ServiceEvent Request ℕ) :=
  [.begin 0 signIn, .run 0, .run 0, .run 0, .run 0, .run 0,
    .begin 1 (.refresh 100), .run 1, .run 1, .run 1, .run 1, .run 1, .run 1,
    .begin 2 (.refresh 100), .run 2, .run 2, .run 1,
    .begin 3 (.refresh 102), .run 3, .run 3]

theorem insertedLate_runs :
    (System.replay (Watch.act demoConfig) insertedLate nobodyWatched).isSome = true := by
  decide +kernel

/-- A token of the swept family is about to be accepted. -/
theorem reuse_leaves_a_token :
    ∃ c, (watched demoConfig).Reachable c ∧ ∃ i familyId, Accepts c i familyId
      ∧ familyId ∈ c.killed := by
  refine ⟨_, System.replay_reachable (M := watched demoConfig) (f := Watch.act demoConfig)
    (fun _ _ _ h => h) insertedLate nobodyWatched nobodyWatched_init
    (Option.some_get insertedLate_runs).symm, 3, 101, ⟨_, rfl, ?_⟩, ?_⟩
  · decide +kernel
  · decide +kernel

end OraOS.Auth
