/-
  OraOS.Loyalty.Rules — the rules an owner sets: what a reward costs, and what a sale earns.

  `validateConfig` is what a configuration has to pass.  The reward that the counter offers
  and the redemption that the server prices are two functions, which look at it in different
  ways: one rounds up to a block, the other asks for a remainder of zero.

    * `availableReward_smallest` — they agree: the reward offered is the smallest one that
                                   can be claimed;
    * `points_within_value`      — points never outrun the value of the sale, and splitting
                                   it earns no more.
-/
import OraOS.Loyalty.Ledger

namespace OraOS.Loyalty

open OraOS.Api
open OraOS.Lib

/-! ## §1. The check of a configuration, and the offer. -/

/-- `validateConfig`: the first problem, if there is one. -/
def validateConfig (c : LoyaltyConfig) : Option String :=
  if c.earnAmountMinor ≤ 0 then
    some "Spend amount must be a whole number greater than zero"
  else if c.earnPoints ≤ 0 then
    some "Earned points must be a whole number greater than zero"
  else if c.redeemPoints ≤ 0 then
    some "Redeem points must be a whole number greater than zero"
  else if c.redeemAmountMinor < 0 then
    some "Redeem value cannot be negative"
  else if c.minimumRedeemPoints < 0 then
    some "Minimum redemption cannot be negative"
  else if ∃ m ∈ c.maximumRedeemPointsPerOrder, m < 0 then
    some "Maximum redemption cannot be negative"
  -- at most one point per paise
  else if c.earnAmountMinor < c.earnPoints then
    some "That earn rate is unusually high — check the amounts"
  -- a point is worth ₹100 at most
  else if c.redeemPoints * 10000 < c.redeemAmountMinor then
    some "That redeem value is unusually high — check the amounts"
  else if c.minimumRedeemPoints % c.redeemPoints ≠ 0 then
    some "Minimum redemption must be a multiple of the redeem points"
  else if ∃ m ∈ c.maximumRedeemPointsPerOrder, m % c.redeemPoints ≠ 0 then
    some "Maximum redemption must be a multiple of the redeem points"
  else if ∃ m ∈ c.maximumRedeemPointsPerOrder, m < c.minimumRedeemPoints then
    some "Maximum redemption must be at least the minimum"
  else none

/-- `Math.ceil(x / d)` for `d > 0`. -/
def ceilDiv (x d : ℤ) : ℤ := -(-x / d)

/-- `availableReward`. -/
def availableReward (balancePoints : ℤ) (config : LoyaltyConfig) : Option Redemption :=
  if config.isEnabled = false ∨ config.redeemPoints ≤ 0 then none
  else
    let floor := max config.redeemPoints config.minimumRedeemPoints
    let points := ceilDiv floor config.redeemPoints * config.redeemPoints
    if points ≤ 0 ∨ balancePoints < points then none
    else if ∃ m ∈ config.maximumRedeemPointsPerOrder, m < points then none
    else
      let discountMinor := points / config.redeemPoints * config.redeemAmountMinor
      if discountMinor ≤ 0 then none else some ⟨points, discountMinor⟩

/-- What a configuration without a problem gives. -/
structure Sane (c : LoyaltyConfig) : Prop where
  earnAmount : 0 < c.earnAmountMinor
  earnPoints : 0 < c.earnPoints
  redeemPoints : 0 < c.redeemPoints
  redeemAmount : 0 ≤ c.redeemAmountMinor
  minimum : 0 ≤ c.minimumRedeemPoints
  maximum : ∀ m ∈ c.maximumRedeemPointsPerOrder, 0 ≤ m
  earnRate : c.earnPoints ≤ c.earnAmountMinor
  redeemRate : c.redeemAmountMinor ≤ c.redeemPoints * 10000
  minimumBlocks : c.redeemPoints ∣ c.minimumRedeemPoints
  maximumBlocks : ∀ m ∈ c.maximumRedeemPointsPerOrder, c.redeemPoints ∣ m
  bounds : ∀ m ∈ c.maximumRedeemPointsPerOrder, c.minimumRedeemPoints ≤ m

/-- One check after another. -/
theorem check_none {p : Prop} [Decidable p] {m : String} {next : Option String} :
    (if p then some m else next) = none ↔ ¬ p ∧ next = none := by
  by_cases hp : p
  · rw [if_pos hp]
    exact iff_of_false (Option.some_ne_none m) fun h => h.1 hp
  · rw [if_neg hp]
    exact (and_iff_right hp).symm

/-- No maximum has the fault. -/
theorem not_exists_maximum {o : Option ℤ} {p : ℤ → Prop} :
    (¬ ∃ m ∈ o, p m) ↔ ∀ m ∈ o, ¬ p m := by
  constructor
  · exact fun h m hm hp => h ⟨m, hm, hp⟩
  · rintro h ⟨m, hm, hp⟩
    exact h m hm hp

/-- The check of the settings page passes the sane rates and no others. -/
theorem validateConfig_none {c : LoyaltyConfig} : validateConfig c = none ↔ Sane c := by
  unfold validateConfig
  simp only [check_none, not_exists_maximum, not_le, not_lt, not_not,
    ← Int.dvd_iff_emod_eq_zero, and_true]
  constructor
  · rintro ⟨h1, h2, h3, h4, h5, h6, h7, h8, h9, h10, h11⟩
    exact ⟨h1, h2, h3, h4, h5, h6, h7, h8, h9, h10, h11⟩
  · intro h
    exact ⟨h.earnAmount, h.earnPoints, h.redeemPoints, h.redeemAmount, h.minimum, h.maximum,
      h.earnRate, h.redeemRate, h.minimumBlocks, h.maximumBlocks, h.bounds⟩

/-! ## §2. The reward that is offered. -/

/-- So many points can be claimed on some order. -/
def Redeemable (config : LoyaltyConfig) (points : ℤ) : Prop :=
  ∃ subtotalMinor r, redemptionFor points subtotalMinor config = .ok r

/-- What so many points are worth. -/
def worth (config : LoyaltyConfig) (points : ℤ) : ℤ :=
  points / config.redeemPoints * config.redeemAmountMinor

/-- What a redemption asks of the points, whatever the order. -/
structure Claimable (config : LoyaltyConfig) (points : ℤ) : Prop where
  enabled : config.isEnabled = true
  positive : 0 < points
  blocks : config.redeemPoints ∣ points
  minimum : config.minimumRedeemPoints ≤ points
  maximum : ∀ m ∈ config.maximumRedeemPointsPerOrder, points ≤ m
  worth : 0 < worth config points

/-- **A redemption is granted when its points are whole blocks worth no more than the
bill.** -/
theorem redemptionFor_iff {config : LoyaltyConfig} {points subtotalMinor : ℤ} {r : Redemption} :
    redemptionFor points subtotalMinor config = .ok r ↔
      Claimable config points ∧ worth config points ≤ subtotalMinor
        ∧ r = ⟨points, worth config points⟩ := by
  simp only [redemptionFor, bind_ok, require_ok]
  constructor
  · rintro ⟨_, h1, _, h2, _, h3, _, h4, _, h5, _, h6, _, h7, h⟩
    exact ⟨⟨h1, h2, Int.dvd_of_emod_eq_zero h3, h4, h5, h6⟩, h7, (pure_ok.mp h).symm⟩
  · rintro ⟨h, hfits, rfl⟩
    exact ⟨(), h.enabled, (), h.positive, (), Int.emod_eq_zero_of_dvd h.blocks, (), h.minimum, (),
      h.maximum, (), h.worth, (), hfits, rfl⟩

/-- What the customer page calls redeemable is what the request accepts. -/
theorem redeemable_iff {config : LoyaltyConfig} {points : ℤ} :
    Redeemable config points ↔ Claimable config points := by
  constructor
  · rintro ⟨subtotalMinor, r, h⟩
    exact (redemptionFor_iff.mp h).1
  · intro h
    exact ⟨worth config points, _, redemptionFor_iff.mpr ⟨h, le_refl _, rfl⟩⟩

/-- The fewest points that are a block and meet the minimum. -/
def smallest (config : LoyaltyConfig) : ℤ := max config.redeemPoints config.minimumRedeemPoints

/-- Whatever can be claimed is that much at least. -/
theorem smallest_le {config : LoyaltyConfig} {points : ℤ} (h : Claimable config points) :
    smallest config ≤ points :=
  max_le (Int.le_of_dvd h.positive h.blocks) h.minimum

section Sane

variable {config : LoyaltyConfig} (h : Sane config)

include h

/-- The smallest reward is a number of whole blocks. -/
theorem smallest_blocks : config.redeemPoints ∣ smallest config := by
  unfold smallest
  rcases max_choice config.redeemPoints config.minimumRedeemPoints with hmax | hmax
  · rw [hmax]
  · rw [hmax]
    exact h.minimumBlocks

/-- There is no reward for nothing. -/
theorem smallest_pos : 0 < smallest config := lt_max_of_lt_left h.redeemPoints

/-- Rounding up to a block changes nothing, as the minimum is one. -/
theorem ceilDiv_smallest :
    ceilDiv (smallest config) config.redeemPoints * config.redeemPoints = smallest config := by
  unfold ceilDiv
  rw [Int.neg_ediv_of_dvd (smallest_blocks h), neg_neg]
  exact Int.ediv_mul_cancel (smallest_blocks h)

/-- Points are worth something when a block is. -/
theorem worth_pos_iff {points : ℤ} (hpos : 0 < points) (hblocks : config.redeemPoints ∣ points) :
    0 < worth config points ↔ 0 < config.redeemAmountMinor := by
  obtain ⟨n, rfl⟩ := hblocks
  have hn : 0 < n := (mul_pos_iff_of_pos_left h.redeemPoints).mp hpos
  unfold worth
  rw [Int.mul_ediv_cancel_left n h.redeemPoints.ne']
  exact mul_pos_iff_of_pos_left hn

/-- **The offer**: the smallest claim, when it is one and the balance is enough. -/
theorem availableReward_iff {balancePoints : ℤ} {r : Redemption} :
    availableReward balancePoints config = some r ↔
      Claimable config (smallest config) ∧ smallest config ≤ balancePoints
        ∧ r = ⟨smallest config, worth config (smallest config)⟩ := by
  have hpos := smallest_pos h
  unfold availableReward
  show (if config.isEnabled = false ∨ config.redeemPoints ≤ 0 then none
    else if ceilDiv (smallest config) config.redeemPoints * config.redeemPoints ≤ 0
        ∨ balancePoints < ceilDiv (smallest config) config.redeemPoints * config.redeemPoints then none
    else if ∃ m ∈ config.maximumRedeemPointsPerOrder,
        m < ceilDiv (smallest config) config.redeemPoints * config.redeemPoints then none
    else if worth config (ceilDiv (smallest config) config.redeemPoints * config.redeemPoints) ≤ 0
        then none
    else some ⟨ceilDiv (smallest config) config.redeemPoints * config.redeemPoints,
      worth config (ceilDiv (smallest config) config.redeemPoints * config.redeemPoints)⟩)
    = some r ↔ _
  rw [ceilDiv_smallest h]
  constructor
  · intro hsome
    -- every branch but the last offers nothing
    split_ifs at hsome with henabled hbalance hmax hworth
    push Not at henabled hbalance hmax hworth
    cases hsome
    refine ⟨⟨by simpa using henabled.1, hpos, smallest_blocks h, le_max_right _ _, hmax, hworth⟩,
      hbalance.2, rfl⟩
  · rintro ⟨hclaim, hbalance, rfl⟩
    have henabled : ¬ (config.isEnabled = false ∨ config.redeemPoints ≤ 0) := by
      rw [hclaim.enabled]
      simpa using h.redeemPoints
    have henough : ¬ (smallest config ≤ 0 ∨ balancePoints < smallest config) := by omega
    rw [if_neg henabled, if_neg henough,
      if_neg (not_exists_maximum.mpr fun m hm => not_lt.mpr (hclaim.maximum m hm)),
      if_neg (not_le.mpr hclaim.worth)]

/-- If anything can be claimed, the smallest claim can. -/
theorem smallest_claimable {points : ℤ} (hpoints : Claimable config points) :
    Claimable config (smallest config) where
  enabled := hpoints.enabled
  positive := smallest_pos h
  blocks := smallest_blocks h
  minimum := le_max_right _ _
  maximum m hm := (smallest_le hpoints).trans (hpoints.maximum m hm)
  worth := (worth_pos_iff h (smallest_pos h) (smallest_blocks h)).mpr
    ((worth_pos_iff h hpoints.positive hpoints.blocks).mp hpoints.worth)

end Sane

/-- **The reward offered is the smallest claimable one.** -/
theorem availableReward_smallest {config : LoyaltyConfig} (h : validateConfig config = none)
    (balancePoints : ℤ) :
    (∀ r, availableReward balancePoints config = some r →
        r.points ≤ balancePoints
          ∧ (∀ subtotalMinor, r.discountMinor ≤ subtotalMinor →
              redemptionFor r.points subtotalMinor config = .ok r)
          ∧ ∀ points, 0 < points → points < r.points → ¬ Redeemable config points)
      ∧ (availableReward balancePoints config = none →
          ∀ points, points ≤ balancePoints → ¬ Redeemable config points) := by
  have hsane := validateConfig_none.mp h
  constructor
  · intro r hr
    obtain ⟨hclaim, hbalance, rfl⟩ := (availableReward_iff hsane).mp hr
    refine ⟨hbalance, fun subtotalMinor hfits => redemptionFor_iff.mpr ⟨hclaim, hfits, rfl⟩, ?_⟩
    -- what is redeemable is at least the smallest claim
    intro points _ hless hredeem
    exact not_le.mpr hless (smallest_le (redeemable_iff.mp hredeem))
  · intro hnone points hle hredeem
    have hpoints := redeemable_iff.mp hredeem
    have hsome := (availableReward_iff hsane).mpr ⟨smallest_claimable hsane hpoints,
      (smallest_le hpoints).trans hle, rfl⟩
    rw [hnone] at hsome
    cases hsome

/-- 100 points for ₹50, at least 200 at a time. -/
def twoBlocks : LoyaltyConfig :=
  { isEnabled := true, earnAmountMinor := 10000, earnPoints := 10, redeemPoints := 100,
    redeemAmountMinor := 5000, minimumRedeemPoints := 200,
    maximumRedeemPointsPerOrder := some 500 }

theorem availableReward_smallest_twoBlocks :
    redemptionFor 200 24000 twoBlocks = .ok ⟨200, 10000⟩ ∧ ¬ Redeemable twoBlocks 100 := by
  have hvalid : validateConfig twoBlocks = none := by decide
  have hreward := (availableReward_smallest hvalid 340).1 ⟨200, 10000⟩ (by decide)
  exact ⟨hreward.2.1 24000 (by decide), hreward.2.2 100 (by decide) (by decide)⟩

/-! ## §3. The points of a sale. -/

/-- `floor` of parts adds up to no more than `floor` of the whole. -/
theorem sum_ediv_le {d : ℤ} (hd : 0 < d) (l : List ℤ) : (l.map (· / d)).sum ≤ l.sum / d := by
  induction l with
  | nil => simp
  | cons x l ih =>
      rw [List.map_cons, List.sum_cons, List.sum_cons, Int.le_ediv_iff_mul_le hd]
      have hx := Int.ediv_mul_le x hd.ne'
      have hl := (Int.le_ediv_iff_mul_le hd).mp ih
      rw [add_mul]
      omega

/-- A sale that is worth nothing earns nothing, so its value may be cut off at zero. -/
theorem pointsForOrder_eq (subtotalMinor discountMinor : ℤ) (config : LoyaltyConfig) :
    pointsForOrder subtotalMinor discountMinor config
      = if config.isEnabled then
          max (subtotalMinor - discountMinor) 0 * config.earnPoints / config.earnAmountMinor
        else 0 := by
  unfold pointsForOrder
  refine if_congr Iff.rfl ?_ rfl
  show (if subtotalMinor - discountMinor ≤ 0 then 0 else _) = _
  by_cases hnet : subtotalMinor - discountMinor ≤ 0
  · rw [if_pos hnet, max_eq_right hnet, zero_mul, Int.zero_ediv]
  · rw [if_neg hnet, max_eq_left (not_le.mp hnet).le]

section Points

variable {config : LoyaltyConfig} (h : Sane config)

include h

/-- **No order earns more points than what was paid for it is worth.** -/
theorem points_le_value (subtotalMinor discountMinor : ℤ) :
    pointsForOrder subtotalMinor discountMinor config ≤ max (subtotalMinor - discountMinor) 0 := by
  rw [pointsForOrder_eq]
  set net := max (subtotalMinor - discountMinor) 0 with hnet
  have hnonneg : 0 ≤ net := le_max_right _ _
  split
  · -- at most a point per paise
    calc net * config.earnPoints / config.earnAmountMinor
        ≤ net * config.earnAmountMinor / config.earnAmountMinor :=
          Int.ediv_le_ediv h.earnAmount (mul_le_mul_of_nonneg_left h.earnRate hnonneg)
      _ = net := Int.mul_ediv_cancel net h.earnAmount.ne'
  · exact hnonneg

/-- Paying more never earns less. -/
theorem points_mono {subtotalMinor discountMinor subtotalMinor' discountMinor' : ℤ}
    (hle : subtotalMinor - discountMinor ≤ subtotalMinor' - discountMinor') :
    pointsForOrder subtotalMinor discountMinor config
      ≤ pointsForOrder subtotalMinor' discountMinor' config := by
  rw [pointsForOrder_eq, pointsForOrder_eq]
  split
  · refine Int.ediv_le_ediv h.earnAmount (mul_le_mul_of_nonneg_right ?_ h.earnPoints.le)
    exact max_le_max_right 0 hle
  · exact le_refl 0

/-- The parts of a sale, as subtotals and discounts. -/
theorem points_of_parts {parts : List (ℤ × ℤ)} (hparts : ∀ p ∈ parts, 0 ≤ p.1 - p.2)
    {subtotalMinor discountMinor : ℤ}
    (hsum : (parts.map fun p => p.1 - p.2).sum = subtotalMinor - discountMinor) :
    (parts.map fun p => pointsForOrder p.1 p.2 config).sum
      ≤ pointsForOrder subtotalMinor discountMinor config := by
  have hwhole : 0 ≤ subtotalMinor - discountMinor := by
    rw [← hsum]
    exact List.sum_nonneg (List.forall_mem_map.mpr hparts)
  have hpart : ∀ p ∈ parts, pointsForOrder p.1 p.2 config
      = if config.isEnabled then (p.1 - p.2) * config.earnPoints / config.earnAmountMinor
        else 0 := by
    intro p hp
    rw [pointsForOrder_eq, max_eq_left (hparts p hp)]
  rw [List.map_congr_left hpart, pointsForOrder_eq, max_eq_left hwhole, ← hsum]
  split
  · have hscaled : (parts.map fun p => (p.1 - p.2) * config.earnPoints).sum
        = (parts.map fun p => p.1 - p.2).sum * config.earnPoints :=
      List.sum_map_mul_right parts (fun p => p.1 - p.2) config.earnPoints
    -- each part is rounded down, and so is the whole
    have hle := sum_ediv_le h.earnAmount (parts.map fun p => (p.1 - p.2) * config.earnPoints)
    rw [List.map_map, hscaled] at hle
    exact hle
  · simp

end Points

/-- **Points never outrun value**: a sale earns at most a point per paise, more when it is
worth more, and no more when it is split. -/
theorem points_within_value {config : LoyaltyConfig} (h : validateConfig config = none) :
    (∀ o : Order, pointsForOrder o.subtotalMinor o.discountMinor config
        ≤ o.subtotalMinor - o.discountMinor)
      ∧ (∀ subtotalMinor discountMinor subtotalMinor' discountMinor' : ℤ,
          subtotalMinor - discountMinor ≤ subtotalMinor' - discountMinor' →
            pointsForOrder subtotalMinor discountMinor config
              ≤ pointsForOrder subtotalMinor' discountMinor' config)
      ∧ ∀ (subtotalMinor discountMinor : ℤ) (parts : List (ℤ × ℤ)),
          (∀ p ∈ parts, 0 ≤ p.1 - p.2) →
            (parts.map fun p => p.1 - p.2).sum = subtotalMinor - discountMinor →
              (parts.map fun p => pointsForOrder p.1 p.2 config).sum
                ≤ pointsForOrder subtotalMinor discountMinor config := by
  have hsane := validateConfig_none.mp h
  refine ⟨?_, fun _ _ _ _ => points_mono hsane, 
    fun _ _ _ hparts hsum => points_of_parts hsane hparts hsum⟩
  intro o
  have hnet : 0 ≤ o.subtotalMinor - o.discountMinor := sub_nonneg.mpr o.discount_within
  have hle := points_le_value hsane o.subtotalMinor o.discountMinor
  rw [max_eq_left hnet] at hle
  exact hle

/-- ₹480 in three bills. -/
theorem points_within_value_split :
    pointsForOrder 16000 0 defaultLoyaltyConfig + (pointsForOrder 15500 0 defaultLoyaltyConfig
        + (pointsForOrder 17000 500 defaultLoyaltyConfig + 0))
      ≤ pointsForOrder 48000 0 defaultLoyaltyConfig := by
  have hvalid : validateConfig defaultLoyaltyConfig = none := by decide
  exact (points_within_value hvalid).2.2 48000 0 [(16000, 0), (15500, 0), (17000, 500)]
    (by decide) (by decide)

end OraOS.Loyalty
