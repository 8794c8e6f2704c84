/-
  OraOS.Lib.Quota — a limit that is checked before it is used up.

  Sessions check a count against a limit, go on, and add to the count when they commit;
  nothing holds the count still in between.  How far the limit can be exceeded depends on
  how many sessions are under way at once:

    * `Quota`       — what has to be checked of each statement;
    * `quota_bound` — on `n + 1` connections the count is at most `n` over the limit.
-/
import OraOS.Lib.Sessions

namespace OraOS.Lib

open Session

variable {σ τ ρ κ ω ε : Type*} [DecidableEq κ]

/-- `used` is limited: a session that `holds` a claim passed the check, and commits at
most that claim. -/
structure Quota (P : Session σ τ ρ κ ω ε) (inv : σ → Prop) (know : τ → Prop) (holds : τ → Bool)
    (used : σ → ℕ) (limit : ℕ) : Prop where
  start : ∀ r, know (P.start r) ∧ holds (P.start r) = false
  go : ∀ o s t t', inv s → know t → P.turn o s t = .go t' →
    know t' ∧ (holds t' = true → holds t = true ∨ used s < limit)
  lock : ∀ o s t k t', inv s → know t → P.turn o s t = .lock k t' →
    know t' ∧ (holds t' = true → holds t = true ∨ used s < limit)
  commit : ∀ o s t s' t', inv s → know t → P.turn o s t = .commit s' t' →
    inv s' ∧ know t' ∧ holds t' = false ∧ used s' ≤ used s + (holds t).toNat
  rollback : ∀ o s t t', inv s → know t → P.turn o s t = .rollback t' →
    know t' ∧ holds t' = false
  env : ∀ s e, inv s → inv (P.env s e) ∧ used (P.env s e) ≤ used s

/-- Sessions run on the first `k` connections. -/
def OnConnections (k : ℕ) (_ : Sessions σ τ κ) : SessionEvent ρ ω ε → Prop
  | .begin i _ => i < k
  | _ => True

instance (k : ℕ) (c : Sessions σ τ κ) (e : SessionEvent ρ ω ε) : Decidable (OnConnections k c e) := by
  cases e with
  | begin i r => exact inferInstanceAs (Decidable (i < k))
  | _ => exact isTrue trivial

/-- The claim of a connection. -/
def claimOf (holds : τ → Bool) (o : Option τ) : ℕ := (o.any holds).toNat

/-- The claims under way. -/
def claims (holds : τ → Bool) (k : ℕ) (running : ℕ → Option τ) : ℕ :=
  ∑ i ∈ Finset.range k, claimOf holds (running i)

section

variable {holds : τ → Bool} {k i : ℕ} {running : ℕ → Option τ} {o : Option τ}

/-- A request claims one place at most. -/
theorem claimOf_le_one : claimOf holds o ≤ 1 := Bool.toNat_le _

theorem claims_le (running : ℕ → Option τ) : claims holds k running ≤ k := by
  refine (Finset.sum_le_card_nsmul _ _ 1 fun _ _ => claimOf_le_one).trans ?_
  rw [Finset.card_range, smul_eq_mul, mul_one]

/-- One connection moves; the others claim what they did. -/
theorem claims_update (holds : τ → Bool) (running : ℕ → Option τ) (o : Option τ) (hi : i < k) :
    claims holds k (Function.update running i o) + claimOf holds (running i)
      = claims holds k running + claimOf holds o := by
  unfold claims
  have hcomp : (fun j => claimOf holds (Function.update running i o j))
      = Function.update (fun j => claimOf holds (running j)) i (claimOf holds o) := by
    funext j
    by_cases hj : j = i
    · subst hj
      rw [Function.update_self, Function.update_self]
    · rw [Function.update_of_ne hj, Function.update_of_ne hj]
  have hmem : i ∈ Finset.range k := Finset.mem_range.mpr hi
  rw [hcomp, Finset.sum_update_of_mem hmem, ← Finset.erase_eq,
    ← Finset.sum_erase_add _ _ hmem]
  omega

end

variable {P : Session σ τ ρ κ ω ε} {inv : σ → Prop} {know : τ → Prop} {holds : τ → Bool}
variable {used : σ → ℕ} {limit n : ℕ} {init : σ → Prop}

/-- Claims and uses together. -/
structure Within (inv : σ → Prop) (know : τ → Prop) (holds : τ → Bool) (used : σ → ℕ)
    (limit n : ℕ) (c : Sessions σ τ κ) : Prop where
  inv : inv c.shared
  slots : ∀ i t, c.running i = some t → i < n + 1
  know : ∀ i t, c.running i = some t → know t
  bound : used c.shared + claims holds (n + 1) c.running ≤ limit + n

omit [DecidableEq κ] in
/-- A session that moves without committing: its claim is old, or within the limit. -/
theorem Within.moves {c : Sessions σ τ κ} (h : Within inv know holds used limit n c) {i : ℕ}
    {t' : τ} (hi : i < n + 1) (hknow : know t')
    (hclaim : holds t' = true → claimOf holds (c.running i) = 1 ∨ used c.shared < limit)
    {owner : κ → Option ℕ} :
    Within inv know holds used limit n
      ⟨c.shared, Function.update c.running i (some t'), owner⟩ where
  inv := h.inv
  slots j t hj := by
    rcases Program.running_update hj with ⟨rfl, -⟩ | ⟨-, hold⟩
    · exact hi
    · exact h.slots j t hold
  know j t hj := by
    rcases Program.running_update hj with ⟨-, heq⟩ | ⟨-, hold⟩
    · cases heq
      exact hknow
    · exact h.know j t hold
  bound := by
    have hupdate := claims_update holds c.running (some t') hi
    have hbound := h.bound
    show used c.shared + claims holds (n + 1) (Function.update c.running i (some t')) ≤ limit + n
    by_cases hholds : holds t' = true
    · have hone : claimOf holds (some t') = 1 := by
        show (holds t').toNat = 1
        rw [hholds]
        rfl
      rcases hclaim hholds with hold | hless
      · omega
      · -- at most every connection has a claim
        have hall : claims holds (n + 1) (Function.update c.running i (some t')) ≤ n + 1 :=
          claims_le _
        omega
    · have hzero : claimOf holds (some t') = 0 := by
        show (holds t').toNat = 0
        rw [Bool.not_eq_true] at hholds
        rw [hholds]
        rfl
      omega

theorem within_step (Q : Quota P inv know holds used limit) (c : Sessions σ τ κ)
    (e : SessionEvent ρ ω ε) (c' : Sessions σ τ κ) (h : Within inv know holds used limit n c)
    (hstep : ((P.interleaved init).restrict (OnConnections (n + 1))).step c e c') :
    Within inv know holds used limit n c' := by
  obtain ⟨hon, hact⟩ := hstep
  cases act_moved P hact with
  | began hfree =>
      have hstart := Q.start (by assumption)
      refine h.moves hon hstart.1 fun hholds => ?_
      rw [hstart.2] at hholds
      cases hholds
  | went hi hturn =>
      rename_i i o t t'
      obtain ⟨hknow, hclaim⟩ := Q.go _ _ _ _ h.inv (h.know _ _ hi) hturn
      refine h.moves (h.slots _ _ hi) hknow fun hholds => (hclaim hholds).imp_left fun hold => ?_
      rw [hi]
      show (holds t).toNat = 1
      rw [hold]
      rfl
  | locked hi hturn hfree =>
      rename_i i o k t t'
      obtain ⟨hknow, hclaim⟩ := Q.lock _ _ _ _ _ h.inv (h.know _ _ hi) hturn
      refine h.moves (h.slots _ _ hi) hknow fun hholds => (hclaim hholds).imp_left fun hold => ?_
      rw [hi]
      show (holds t).toNat = 1
      rw [hold]
      rfl
  | committed hi hturn =>
      rename_i i o s t t'
      obtain ⟨hinv, hknow, hnone, hused⟩ := Q.commit _ _ _ _ _ h.inv (h.know _ _ hi) hturn
      have hmoved : Within inv know holds used limit n ⟨_, _, c.owner⟩ :=
        h.moves (h.slots _ _ hi) hknow fun hholds => by
          rw [hnone] at hholds
          cases hholds
      refine ⟨hinv, hmoved.slots, hmoved.know, ?_⟩
      have hupdate := claims_update holds c.running (some t') (h.slots _ _ hi)
      rw [hi] at hupdate
      have hzero : claimOf holds (some t') = 0 := by
        show (holds t').toNat = 0
        rw [hnone]
        rfl
      have hclaim : claimOf holds (some t) = (holds t).toNat := rfl
      have hbound := h.bound
      show used s + claims holds (n + 1) (Function.update c.running i (some t')) ≤ limit + n
      omega
  | rolledBack hi hturn =>
      obtain ⟨hknow, hnone⟩ := Q.rollback _ _ _ _ h.inv (h.know _ _ hi) hturn
      refine h.moves (h.slots _ _ hi) hknow fun hholds => ?_
      rw [hnone] at hholds
      cases hholds
  | dropped =>
      rename_i i
      refine ⟨h.inv, ?_, ?_, ?_⟩
      · intro j t hj
        rcases Program.running_update hj with ⟨-, heq⟩ | ⟨-, hold⟩
        · cases heq
        · exact h.slots j t hold
      · intro j t hj
        rcases Program.running_update hj with ⟨-, heq⟩ | ⟨-, hold⟩
        · cases heq
        · exact h.know j t hold
      · have hbound := h.bound
        have hfewer : claims holds (n + 1) (Function.update c.running i none)
            ≤ claims holds (n + 1) c.running := by
          refine Finset.sum_le_sum fun j _ => ?_
          by_cases hj : j = i
          · subst hj
            rw [Function.update_self]
            exact Nat.zero_le _
          · rw [Function.update_of_ne hj]
        show used c.shared + claims holds (n + 1) (Function.update c.running i none) ≤ limit + n
        omega
  | elsewhere =>
      rename_i e
      obtain ⟨hinv, hused⟩ := Q.env c.shared e h.inv
      exact ⟨hinv, h.slots, h.know, (Nat.add_le_add_right hused _).trans h.bound⟩

/-- **On `n + 1` connections the limit is exceeded by `n` at most.** -/
theorem quota_bound (Q : Quota P inv know holds used limit)
    (hinit : ∀ s, init s → inv s ∧ used s ≤ limit) {c : Sessions σ τ κ}
    (h : ((P.interleaved init).restrict (OnConnections (n + 1))).Reachable c) :
    inv c.shared ∧ used c.shared ≤ limit + n := by
  have hwithin : Within inv know holds used limit n c := by
    refine h.invariant (Within inv know holds used limit n) ?_ (within_step Q)
    rintro c ⟨hs, hnone, -⟩
    obtain ⟨hinv, hused⟩ := hinit _ hs
    refine ⟨hinv, ?_, ?_, ?_⟩
    · intro i t hi
      rw [hnone i] at hi
      cases hi
    · intro i t hi
      rw [hnone i] at hi
      cases hi
    · have hzero : claims holds (n + 1) c.running = 0 := by
        refine Finset.sum_eq_zero fun i _ => ?_
        rw [hnone i]
        rfl
      omega
  exact ⟨hwithin.inv, le_trans (Nat.le_add_right _ _) hwithin.bound⟩

end OraOS.Lib
