/-
  OraOS.Orders.RowsFit — which accepted order requests the database takes.

  Once the guards and the service's own checks have passed, what is left to refuse
  a creation are the constraints, the column ranges and the unique indexes.
  `RowsFit` says of the request and the menu when none of them does:

    * `insert_byDatabase` — after the checks, whatever fails is the database's;
    * `insert_stored`     — with `RowsFit` the request is stored;
    * `insert_fits`       — what is stored had rows that fit;
    * `create_fits_iff`   — so a refusal by the database is exactly a misfit.
-/
import OraOS.Orders.Regrouping

namespace OraOS.Orders

open OraOS.Api
open OraOS.Lib
open OraOS.Inventory
open OraOS.Marketing
open OraOS.Loyalty

/-! ## §1. What a request bills. -/

/-- The largest amount an INTEGER column holds. -/
def maxInt4 : ℤ := 2147483647

/-- The menu's price of one unit, modifiers included. -/
def unitPriceOf (db : Db) (item : OrderItemDto) : ℤ :=
  match item.comboId with
  | some comboId => ((findCombo db comboId).map (·.priceMinor)).getD 0
  | none =>
      match item.productId.bind (findProduct db) with
      | some p => p.priceMinor + ((modifierSnapshot (groupsOf db p.id)
          (item.modifierOptionIds.getD [])).map (·.priceAdjustMinor)).sum
      | none => 0

/-- The tax rate an item is billed at. -/
def taxRateOf (db : Db) (item : OrderItemDto) : ℤ :=
  match item.comboId with
  | some comboId => ((findCombo db comboId).map (·.taxRateBp)).getD 0
  | none => ((item.productId.bind (findProduct db)).map (·.taxRateBp)).getD 0

/-- Unit price times quantity, over the lines. -/
def billedOf (db : Db) (items : List OrderItemDto) : ℤ :=
  (items.map fun i => unitPriceOf db i * i.quantity).sum

/-- The tax of the lines, each rounded on its own. -/
def taxedOf (db : Db) (items : List OrderItemDto) : ℤ :=
  (items.map fun i => lineTax (unitPriceOf db i * i.quantity) (taxRateOf db i)).sum

/-- Modifiers only add to a price. -/
theorem modifierSnapshot_nonneg (groups : List ModifierGroup) (selected : List Uuid) :
    0 ≤ ((modifierSnapshot groups selected).map (·.priceAdjustMinor)).sum := by
  apply List.sum_nonneg
  intro x hx
  obtain ⟨e, he, rfl⟩ := List.mem_map.mp hx
  obtain ⟨g, -, he⟩ := List.mem_flatMap.mp he
  obtain ⟨o, -, rfl⟩ := List.mem_map.mp he
  exact o.price_valid

theorem unitPriceOf_nonneg (db : Db) (item : OrderItemDto) : 0 ≤ unitPriceOf db item := by
  unfold unitPriceOf
  split
  next comboId _ =>
    cases findCombo db comboId with
    | none => exact le_refl 0
    | some c => exact c.price_valid.1
  next =>
    split
    next p _ => exact add_nonneg p.price_valid.1 (modifierSnapshot_nonneg _ _)
    next => exact le_refl 0

/-- A tax rate is between nothing and the whole. -/
theorem taxRateOf_valid {db : Db} (hcombos : ∀ c ∈ db.combos, c.taxRateBp ≤ 10000)
    (item : OrderItemDto) : 0 ≤ taxRateOf db item ∧ taxRateOf db item ≤ 10000 := by
  unfold taxRateOf
  split
  next comboId _ =>
    cases hfind : findCombo db comboId with
    | none => exact ⟨le_refl 0, by decide⟩
    | some c => exact ⟨c.price_valid.2, hcombos c (List.mem_of_find?_eq_some hfind)⟩
  next =>
    cases item.productId.bind (findProduct db) with
    | none => exact ⟨le_refl 0, by decide⟩
    | some p => exact p.price_valid.2

/-- A line priced as the menu has it. -/
structure AmountsOf (db : Db) (item : OrderItemDto) (l : NewOrderItem) : Prop where
  unitPrice : l.unitPriceMinor = unitPriceOf db item
  quantity : l.quantity = item.quantity
  lineTotal : l.lineTotalMinor = unitPriceOf db item * item.quantity
  taxRate : l.taxRateBp = taxRateOf db item
  tax : l.taxMinor = lineTax (unitPriceOf db item * item.quantity) (taxRateOf db item)

/-- The amounts of a priced line, from the menu and the item. -/
theorem priceLine_amountsOf {db : Db} {item : OrderItemDto} {l : NewOrderItem}
    (h : priceLine db item = .ok l) : AmountsOf db item l := by
  cases priceLine_priced h with
  | @combo comboId c hid hc =>
      have hprice : unitPriceOf db item = c.priceMinor := by simp [unitPriceOf, hid, hc]
      have hrate : taxRateOf db item = c.taxRateBp := by simp [taxRateOf, hid, hc]
      refine ⟨hprice.symm, rfl, ?_, hrate.symm, ?_⟩
      · rw [hprice]
      · rw [hprice, hrate]
  | @product id p selection hcombo hid hp hselection =>
      obtain ⟨-, -, -, rfl⟩ := resolveModifierSelection_ok.mp hselection
      have hprice : unitPriceOf db item = p.priceMinor + ((modifierSnapshot (groupsOf db p.id)
          (item.modifierOptionIds.getD [])).map (·.priceAdjustMinor)).sum := by
        simp [unitPriceOf, hcombo, hid, hp]
      have hrate : taxRateOf db item = p.taxRateBp := by simp [taxRateOf, hcombo, hid, hp]
      refine ⟨hprice.symm, rfl, ?_, hrate.symm, ?_⟩
      · rw [hprice]
      · rw [hprice, hrate]

/-- The sums of the priced lines are the menu's. -/
theorem amountsOf_sums {db : Db} {items : List OrderItemDto} {lines : List NewOrderItem}
    (h : List.Forall₂ (AmountsOf db) items lines) :
    subtotalOf lines = billedOf db items ∧ taxOf lines = taxedOf db items := by
  unfold subtotalOf taxOf billedOf taxedOf
  induction h with
  | nil => exact ⟨rfl, rfl⟩
  | cons hl _ ih =>
      simp only [List.map_cons, List.sum_cons, ih.1, ih.2, hl.lineTotal, hl.tax, and_self]

/-- A line that `order_items` can take, priced as the menu has it. -/
structure LineOf (db : Db) (item : OrderItemDto) (l : NewOrderItem) : Prop where
  unitPrice : l.unitPriceMinor = unitPriceOf db item
  quantity : l.quantity = item.quantity
  lineTotal : l.lineTotalMinor = unitPriceOf db item * item.quantity
  taxRate : l.taxRateBp = taxRateOf db item
  tax : l.taxMinor = lineTax (unitPriceOf db item * item.quantity) (taxRateOf db item)
  price_nonneg : 0 ≤ unitPriceOf db item
  rate_valid : 0 ≤ taxRateOf db item ∧ taxRateOf db item ≤ 10000

theorem LineOf.amountsOf {db : Db} {item : OrderItemDto} {l : NewOrderItem}
    (h : LineOf db item l) : AmountsOf db item l :=
  ⟨h.unitPrice, h.quantity, h.lineTotal, h.taxRate, h.tax⟩

/-- **A priced line is the line of its item.** -/
theorem priceLine_lineOf {db : Db} (hcombos : ∀ c ∈ db.combos, c.taxRateBp ≤ 10000)
    {item : OrderItemDto} {l : NewOrderItem} (h : priceLine db item = .ok l) :
    LineOf db item l :=
  have hamounts := priceLine_amountsOf h
  ⟨hamounts.unitPrice, hamounts.quantity, hamounts.lineTotal, hamounts.taxRate, hamounts.tax,
    unitPriceOf_nonneg db item, taxRateOf_valid hcombos item⟩

/-- A tax of at most 100% is at most its amount. -/
theorem lineTax_bounds {amount rate : ℤ} (ha : 0 ≤ amount) (hr : 0 ≤ rate ∧ rate ≤ 10000) :
    0 ≤ lineTax amount rate ∧ lineTax amount rate ≤ amount := by
  have hlow : 0 ≤ amount * rate := mul_nonneg ha hr.1
  have hhigh : amount * rate ≤ amount * 10000 := mul_le_mul_of_nonneg_left hr.2 ha
  unfold lineTax roundDiv
  omega

/-- Its total is not negative. -/
theorem LineOf.lineTotal_nonneg {db : Db} {item : OrderItemDto} {l : NewOrderItem}
    (h : LineOf db item l) : 0 ≤ l.lineTotalMinor := by
  rw [h.lineTotal]
  have := item.quantity_ok.1
  exact mul_nonneg h.price_nonneg (by omega)

/-- A line's unit price and tax are at most its total. -/
theorem LineOf.within {db : Db} {item : OrderItemDto} {l : NewOrderItem} (h : LineOf db item l) :
    0 ≤ l.unitPriceMinor ∧ l.unitPriceMinor ≤ l.lineTotalMinor
      ∧ 0 ≤ l.taxMinor ∧ l.taxMinor ≤ l.lineTotalMinor := by
  have htotal := h.lineTotal_nonneg
  rw [h.lineTotal] at htotal
  have htax := lineTax_bounds htotal h.rate_valid
  have hq := item.quantity_ok.1
  have hle : unitPriceOf db item * 1 ≤ unitPriceOf db item * item.quantity :=
    mul_le_mul_of_nonneg_left hq h.price_nonneg
  rw [h.unitPrice, h.lineTotal, h.tax]
  exact ⟨h.price_nonneg, by omega, htax.1, htax.2⟩

/-- **Subtotal and tax are those of the items, line by line.** -/
theorem subtotalOf_eq {db : Db} {items : List OrderItemDto} {lines : List NewOrderItem}
    (h : List.Forall₂ (LineOf db) items lines) :
    subtotalOf lines = billedOf db items ∧ taxOf lines = taxedOf db items :=
  amountsOf_sums (h.imp fun _ _ hl => hl.amountsOf)

/-- Every line's total is within the subtotal, and the tax is too. -/
theorem lines_within {db : Db} {items : List OrderItemDto} {lines : List NewOrderItem}
    (h : List.Forall₂ (LineOf db) items lines) :
    0 ≤ subtotalOf lines ∧ 0 ≤ taxOf lines ∧ taxOf lines ≤ subtotalOf lines
      ∧ ∀ l ∈ lines, l.lineTotalMinor ≤ subtotalOf lines := by
  unfold subtotalOf taxOf
  induction h with
  | nil => exact ⟨le_refl 0, le_refl 0, le_refl 0, List.forall_mem_nil _⟩
  | cons hl _ ih =>
      rename_i item l items lines _
      obtain ⟨hsub, htax, hle, hall⟩ := ih
      obtain ⟨-, -, htl, htle⟩ := hl.within
      have hl0 := hl.lineTotal_nonneg
      simp only [List.map_cons, List.sum_cons]
      refine ⟨by omega, by omega, by omega, ?_⟩
      intro x hx
      rcases List.mem_cons.mp hx with rfl | hx
      · omega
      · have := hall x hx
        omega

/-- The discount the request asks for, at this subtotal. -/
def discountOn (db : Db) (dto : CreateOrderDto) (subtotalMinor : ℤ) : ℤ :=
  match truthy dto.couponCode, dto.manualDiscountMinor, dto.redeemPoints with
  | some code, _, _ => ((db.coupons.find? fun c => c.code = normaliseCode code).map
      (discountOf · subtotalMinor)).getD 0
  | none, some manual, _ => manual
  | none, none, some points =>
      points / (getConfig db).redeemPoints * (getConfig db).redeemAmountMinor
  | none, none, none => 0

/-- What the customer is to pay. -/
def totalOf (db : Db) (dto : CreateOrderDto) : ℤ :=
  billedOf db dto.items - discountOn db dto (billedOf db dto.items) + taxedOf db dto.items

/-- A discount that passed its checks: what it is worth, and that it can be
written. -/
structure DiscountOf (db : Db) (dto : CreateOrderDto) (subtotalMinor : ℤ) (d : Discount) :
    Prop where
  value : d.discountMinor = discountOn db dto subtotalMinor
  nonneg : 0 ≤ d.discountMinor
  within : d.discountMinor ≤ subtotalMinor
  coupon : ∀ c ∈ d.coupon, 0 < c.discountMinor
  points : 0 < d.redeemPoints → dto.redeemPoints = some d.redeemPoints

/-- The discount granted is one of those the request may have. -/
theorem discountFor_discountOf {db : Db} {now : Instant} {dto : CreateOrderDto}
    {subtotalMinor : ℤ} (hsub : 0 ≤ subtotalMinor) {d : Discount}
    (h : discountFor db now dto subtotalMinor = .ok d) : DiscountOf db dto subtotalMinor d := by
  unfold discountFor at h
  split at h
  -- a coupon: its value is what was computed from its row
  next code _ _ hcode =>
    obtain ⟨r, hr, h⟩ := bind_ok.mp h
    cases pure_ok.mp h
    obtain ⟨hpos, hle⟩ := validateAndComputeDiscount_bounds hr
    refine ⟨?_, hpos.le, hle, ?_, fun h => absurd h (lt_irrefl 0)⟩
    · simp only [validateAndComputeDiscount, bind_ok, found_ok] at hr
      obtain ⟨coupon, hfind, -, -, -, -, -, -, -, -, -, -, -, -, hr⟩ := hr
      cases pure_ok.mp hr
      unfold discountOn
      rw [hcode]
      simp only [hfind, Option.map_some, Option.getD_some]
    · intro c hc
      cases hc
      exact hpos
  -- a discount by hand: the amount of the request
  next manual hcode hmanual =>
    obtain ⟨_, hle, h⟩ := bind_ok.mp h
    cases pure_ok.mp h
    have hbounds := dto.manualDiscount_ok manual hmanual
    refine ⟨?_, by show 0 ≤ manual; omega, require_ok.mp hle, forall_mem_none,
      fun h => absurd h (lt_irrefl 0)⟩
    unfold discountOn
    rw [hcode, hmanual]
  -- points: what they are worth at the rate of now
  next points hcode hmanual hpoints =>
    dsimp only at h
    split at h
    next r hr =>
      cases h
      obtain ⟨hpts, -, hpos, hle⟩ := redemptionFor_ok hr
      refine ⟨?_, hpos.le, hle, forall_mem_none, fun _ => by rw [hpoints, hpts]⟩
      simp only [redemptionFor, bind_ok] at hr
      obtain ⟨-, -, -, -, -, -, -, -, -, -, -, -, -, -, hr⟩ := hr
      cases pure_ok.mp hr
      unfold discountOn
      rw [hcode, hmanual, hpoints]
    next => cases h
  next hcode hmanual hpoints =>
    cases h
    refine ⟨?_, le_refl 0, hsub, forall_mem_none, fun h => absurd h (lt_irrefl 0)⟩
    unfold discountOn
    rw [hcode, hmanual, hpoints]

/-! ## §2. When the rows fit. -/

/-- What the sale takes of one ingredient fits its movements: one row for a raw
ingredient, one for each piece of a prepared one's allocation. -/
def StockFits (db : Db) (now : Instant) (lines : List SoldLine) (ingredientId : Uuid) : Prop :=
  if isPrepared db ingredientId then
    ∀ a ∈ allocateFefo (liveBatches db ingredientId)
      (recipeUse db.recipeItems lines ingredientId) now, a.quantity ≤ maxInt4 + 1
  else recipeUse db.recipeItems lines ingredientId ≤ maxInt4 + 1

/-- The request's amounts and quantities fit their columns, what is paid is not
nothing, and its key is on no row it would collide with. -/
structure RowsFit (db : Db) (now : Instant) (dto : CreateOrderDto) : Prop where
  billed : billedOf db dto.items ≤ maxInt4
  total : totalOf db dto ≤ maxInt4
  number : fitsInt4 (nextOrderNumber db) = true
  key : ¬ keyTaken dto.idempotencyKey (db.orders.map (·.idempotencyKey)) = true
  paid : dto.paymentMethod.isSome = true → 0 < totalOf db dto
    ∧ ¬ keyTaken dto.idempotencyKey (db.payments.map (·.idempotencyKey)) = true
  stock : dto.held = false →
    ∀ ingredientId, StockFits db now (placementLines db dto.items) ingredientId

/-- The request passed every check of the service. -/
structure Accepted (db : Db) (ctx : TenantContext) (env : Env) (dto : CreateOrderDto) : Prop where
  request : checkRequest ctx dto = .ok ()
  new : findByIdempotencyKey db dto.idempotencyKey = none
  priced : ∃ p, priceOrder db env.now dto = .ok p
  /-- the balance check under the customer's lock -/
  points : ∀ points ∈ dto.redeemPoints, ∀ c ∈ dto.customerId, points ≤ balance db.loyaltyLedger c

/-- An id that no row names yet. -/
structure NewId (db : Db) (id : Uuid) : Prop where
  orders : ∀ o ∈ db.orders, o.id ≠ id
  redemptions : ∀ r ∈ db.couponRedemptions, r.orderId ≠ id
  entries : ∀ e ∈ db.loyaltyLedger, e.orderId ≠ some id

/-! ## §3. The rows of the sale. -/

theorem mem_totals_iff {recipeItems : List RecipeItem} {lines : List SoldLine} {e : Uuid × ℤ} :
    e ∈ Tally.tally (consumedEntries recipeItems lines)
      ↔ e.1 ∈ (consumedEntries recipeItems lines).map Prod.fst
        ∧ e.2 = recipeUse recipeItems lines e.1 := by
  have hnodup := Tally.keys_tally_nodup (consumedEntries recipeItems lines)
  have hget : ∀ i, (Tally.tally (consumedEntries recipeItems lines)).get i
      = recipeUse recipeItems lines i := by
    intro i
    rw [Tally.get_tally, ← demand_eq_recipeUse]
    rfl
  constructor
  · intro he
    refine ⟨Tally.mem_keys_tally.mp (List.mem_map_of_mem he), ?_⟩
    rw [← hget, Tally.get_of_mem hnodup e he]
  · intro h
    obtain ⟨hkey, hvalue⟩ := h
    obtain ⟨e', he', hfst⟩ := List.mem_map.mp (Tally.mem_keys_tally.mpr hkey)
    have hsnd : e'.2 = e.2 := by rw [hvalue, ← hfst, ← hget, Tally.get_of_mem hnodup e' he']
    have heq : e' = e := Prod.ext hfst hsnd
    exact heq ▸ he'

/-- An ingredient no recipe of the sale names is not used. -/
theorem recipeUse_eq_zero {recipeItems : List RecipeItem} {lines : List SoldLine}
    {ingredientId : Uuid} (h : ingredientId ∉ (consumedEntries recipeItems lines).map Prod.fst) :
    recipeUse recipeItems lines ingredientId = 0 := by
  rw [← demand_eq_recipeUse]
  apply sumWhere_eq_zero
  intro e he hp
  simp only [decide_eq_true_eq] at hp
  exact absurd (hp ▸ List.mem_map_of_mem he) h

/-- What is consumed is consumed in a positive amount. -/
theorem recipeUse_pos {recipeItems : List RecipeItem} {lines : List SoldLine}
    (hpos : LinesPos lines) {ingredientId : Uuid}
    (h : ingredientId ∈ (consumedEntries recipeItems lines).map Prod.fst) :
    0 < recipeUse recipeItems lines ingredientId := by
  have hentry : ∀ e ∈ consumedEntries recipeItems lines, 0 < e.2 := by
    intro e he
    obtain ⟨line, hline, he⟩ := List.mem_flatMap.mp he
    obtain ⟨r, -, rfl⟩ := List.mem_map.mp he
    exact mul_pos r.quantity_pos (hpos line hline)
  obtain ⟨e, he, rfl⟩ := List.mem_map.mp h
  rw [← demand_eq_recipeUse]
  exact sumWhere_pos (fun b hb _ => (hentry b hb).le) he (by simp) (hentry e he)

/-- A consumption fits its column up to the largest integer. -/
theorem consumptionRow_storable (orderId actorUserId ingredientId : Uuid)
    (prepBatchId : Option Uuid) {q : ℤ} (hq : 0 < q) :
    (consumptionRow orderId actorUserId ingredientId prepBatchId q).Storable
      ↔ q ≤ maxInt4 + 1 := by
  unfold maxInt4
  constructor
  · intro h
    have hfits : fitsInt4 (-q) = true := h.quantity_fits
    simp only [fitsInt4, decide_eq_true_eq] at hfits
    omega
  · intro hle
    have hfits : fitsInt4 (-q) = true := by
      simp only [fitsInt4, decide_eq_true_eq]
      omega
    have hneg : decide (-q < 0) = true := by
      rw [decide_eq_true_eq]
      omega
    refine ⟨hfits, forall_mem_none, forall_mem_none, hneg, ?_⟩
    show -q ≠ 0
    omega

/-- **The rows of a sale are storable exactly when every ingredient's share fits.** -/
theorem depletionRows_storable_iff (db : Db) (now : Instant) (orderId actorUserId : Uuid)
    {lines : List SoldLine} (hpos : LinesPos lines) :
    (∀ m ∈ depletionRows db now orderId actorUserId lines, m.Storable)
      ↔ ∀ ingredientId, StockFits db now lines ingredientId := by
  unfold depletionRows rowsOfEntries StockFits
  rw [consumedEntries_recipesOf]
  dsimp only
  set entries := consumedEntries db.recipeItems lines with hentries
  have hget : ∀ i, (Tally.tally entries).get i = recipeUse db.recipeItems lines i := by
    intro i
    rw [Tally.get_tally, ← demand_eq_recipeUse]
    rfl
  have hprepared : ∀ i, i ∈ distinct ((entries.map Prod.fst).filter (isPrepared db))
      ↔ i ∈ entries.map Prod.fst ∧ isPrepared db i = true := by
    intro i
    rw [mem_distinct, List.mem_filter]
  constructor
  · intro hall i
    by_cases hkey : i ∈ entries.map Prod.fst
    · by_cases hprep : isPrepared db i = true
      · rw [if_pos hprep]
        intro a ha
        refine (consumptionRow_storable orderId actorUserId i a.prepBatchId
          (allocateFefo_pos a ha)).mp ?_
        apply hall
        refine List.mem_append_right _
          (List.mem_flatMap.mpr ⟨i, (hprepared i).mpr ⟨hkey, hprep⟩, ?_⟩)
        rw [hget]
        exact List.mem_map_of_mem (f := fun a : Allocation =>
          consumptionRow orderId actorUserId i a.prepBatchId a.quantity) ha
      · rw [if_neg hprep]
        refine (consumptionRow_storable orderId actorUserId i none
          (recipeUse_pos hpos hkey)).mp ?_
        apply hall
        refine List.mem_append_left _
          (List.mem_map.mpr ⟨(i, recipeUse db.recipeItems lines i), ?_, rfl⟩)
        refine List.mem_filter.mpr ⟨mem_totals_iff.mpr ⟨hkey, rfl⟩, ?_⟩
        have hout : i ∉ distinct ((entries.map Prod.fst).filter (isPrepared db)) :=
          fun hin => hprep ((hprepared i).mp hin).2
        simpa using hout
    · -- nothing of it is used, so nothing is allocated
      rw [recipeUse_eq_zero hkey]
      split
      · intro a ha
        unfold allocateFefo at ha
        rw [drain_of_nonpos _ (le_refl 0)] at ha
        cases ha
      · unfold maxInt4
        omega
  · intro hall m hm
    rcases List.mem_append.mp hm with hm | hm
    · obtain ⟨e, he, rfl⟩ := List.mem_map.mp hm
      obtain ⟨he, hout⟩ := List.mem_filter.mp he
      obtain ⟨hkey, hvalue⟩ := mem_totals_iff.mp he
      have hprep : ¬ isPrepared db e.1 = true := by
        intro hp
        have hin := (hprepared e.1).mpr ⟨hkey, hp⟩
        simp [hin] at hout
      have hfit := hall e.1
      rw [if_neg hprep, ← hvalue] at hfit
      refine (consumptionRow_storable orderId actorUserId e.1 none ?_).mpr hfit
      rw [hvalue]
      exact recipeUse_pos hpos hkey
    · obtain ⟨i, hi, hm⟩ := List.mem_flatMap.mp hm
      obtain ⟨a, ha, rfl⟩ := List.mem_map.mp hm
      rw [hget] at ha
      have hfit := hall i
      rw [if_pos ((hprepared i).mp hi).2] at hfit
      exact (consumptionRow_storable orderId actorUserId i a.prepBatchId
        (allocateFefo_pos a ha)).mpr (hfit a ha)

/-! ## §4. Each statement: what it refuses, and when it does not. -/

/-- Whatever `x` fails with is a refusal of the database, and not for the order's
number, so it is not tried again. -/
abbrev ByDatabase {α : Type} (x : Except ApiError α) : Prop :=
  FailsWith (fun e => e.fromDatabase = true ∧ e ≠ .uniqueViolation .orderNumber) x

/-- A check is refused by the database, and not tried again. -/
theorem check_byDatabase (constraint : String) :
    (ApiError.checkViolation constraint).fromDatabase = true
      ∧ ApiError.checkViolation constraint ≠ .uniqueViolation .orderNumber :=
  ⟨rfl, by simp⟩

theorem range_byDatabase : ApiError.outOfRange.fromDatabase = true
    ∧ ApiError.outOfRange ≠ .uniqueViolation .orderNumber :=
  ⟨rfl, by simp⟩

theorem index_byDatabase {ix : UniqueIndex} (h : ix ≠ .orderNumber) :
    (ApiError.uniqueViolation ix).fromDatabase = true
      ∧ ApiError.uniqueViolation ix ≠ .uniqueViolation .orderNumber :=
  ⟨rfl, fun heq => h (ApiError.uniqueViolation.inj heq)⟩

/-- One above the highest number is on no order. -/
theorem nextOrderNumber_free (db : Db) : ∀ o ∈ db.orders, o.orderNumber < nextOrderNumber db := by
  intro o ho
  have hmem : o.orderNumber ∈ db.orders.map (·.orderNumber) := List.mem_map_of_mem ho
  unfold nextOrderNumber
  cases hmax : (db.orders.map (·.orderNumber)).max? with
  | none =>
      rw [List.max?_eq_none_iff.mp hmax] at hmem
      cases hmem
  | some m =>
      have := (List.max?_eq_some_iff.mp hmax).2 _ hmem
      show o.orderNumber < m + 1
      omega

/-- Storing a line fails in the database only. -/
theorem storeItem_byDatabase (l : NewOrderItem) : ByDatabase (storeItem l) := by
  unfold storeItem
  split
  · split
    · split
      · exact .ok _
      · exact .error (check_byDatabase _)
    · exact .error (check_byDatabase _)
  · exact .error range_byDatabase

theorem insertOrder_byDatabase (db : Db) (env : Env) (dto : CreateOrderDto) (p : PricedOrder) :
    ByDatabase (insertOrder db env dto p) := by
  unfold insertOrder
  dsimp only
  split
  · split
    · split
      · have hfree : ∀ o ∈ db.orders, o.orderNumber ≠ nextOrderNumber db :=
          fun o ho => (nextOrderNumber_free db o ho).ne
        refine .bind (.require (index_byDatabase (by decide))) fun _ _ => ?_
        rw [require_of _ hfree, ok_bind]
        refine .bind (.require (index_byDatabase (by decide))) fun _ _ => ?_
        exact .bind (.mapM storeItem_byDatabase _) fun _ _ => .ok _
      · exact .error (check_byDatabase _)
    · exact .error (check_byDatabase _)
  · exact .error range_byDatabase

theorem redeemCoupon_byDatabase (db : Db) (orderId : Uuid) (coupon : Option CouponDiscount) :
    ByDatabase (redeemCoupon db orderId coupon) := by
  unfold redeemCoupon
  split
  · unfold recordRedemption
    split
    · exact .bind (.require (index_byDatabase (by decide))) fun _ _ => .ok _
    · exact .error (check_byDatabase _)
  · exact .ok _

theorem insertPayment_byDatabase (db : Db) (env : Env) (orderId : Uuid) (method : PaymentMethod)
    (amountMinor : ℤ) (reference key : Option String) :
    ByDatabase (insertPayment db env orderId method amountMinor reference key) := by
  unfold insertPayment
  refine .bind (.require range_byDatabase) fun _ _ => ?_
  split
  · exact .bind (.require (index_byDatabase (by decide))) fun _ _ => .ok _
  · exact .error (check_byDatabase _)

theorem insertMovement_byDatabase (l : List StockMovement) (m : NewMovement) :
    ByDatabase (insertMovement l m) := by
  unfold insertMovement
  split
  · split
    · split
      · split
        · split
          · exact .error (index_byDatabase (by decide))
          · exact .ok _
        · exact .error (check_byDatabase _)
      · exact .error (check_byDatabase _)
    · exact .error (check_byDatabase _)
  · exact .error range_byDatabase

theorem depleteAtPlacement_byDatabase (db : Db) (ctx : TenantContext) (now : Instant) (o : Order)
    (dto : CreateOrderDto) : ByDatabase (depleteAtPlacement db ctx now o dto) := by
  unfold depleteAtPlacement
  split
  · exact .ok _
  · exact .bind (.runAll insertMovement_byDatabase _ _) fun _ _ => .ok _

/-- A line within the columns is stored. -/
theorem storeItem_stored {db : Db} {item : OrderItemDto} {l : NewOrderItem} (h : LineOf db item l)
    (hle : l.lineTotalMinor ≤ maxInt4) : ∃ i, storeItem l = .ok i := by
  obtain ⟨hunit, hunitle, htax, htaxle⟩ := h.within
  unfold maxInt4 at hle
  have hfits : fitsInt4 l.unitPriceMinor ∧ fitsInt4 l.lineTotalMinor ∧ fitsInt4 l.taxMinor := by
    simp only [fitsInt4, decide_eq_true_eq]
    omega
  have hvalid : 0 ≤ l.unitPriceMinor ∧ 0 ≤ l.taxMinor ∧ 0 ≤ l.taxRateBp ∧ l.taxRateBp ≤ 10000
      ∧ l.lineTotalMinor = l.unitPriceMinor * l.quantity := by
    rw [h.taxRate, h.unitPrice, h.quantity]
    rw [h.unitPrice] at hunit
    exact ⟨hunit, htax, h.rate_valid.1, h.rate_valid.2, h.lineTotal⟩
  have hq : 0 < l.quantity := by
    have := item.quantity_ok.1
    rw [h.quantity]
    omega
  unfold storeItem
  rw [if_pos hfits, dif_pos hvalid, dif_pos hq]
  exact ⟨_, rfl⟩

/-- Lines whose totals fit are stored. -/
theorem storeItems_stored {db : Db} {items : List OrderItemDto} {lines : List NewOrderItem}
    (h : List.Forall₂ (LineOf db) items lines) (hle : ∀ l ∈ lines, l.lineTotalMinor ≤ maxInt4) :
    ∃ stored, lines.mapM storeItem = .ok stored := by
  induction h with
  | nil => exact ⟨[], rfl⟩
  | cons hl _ ih =>
      rename_i item l items lines _
      obtain ⟨i, hi⟩ := storeItem_stored hl (hle l List.mem_cons_self)
      obtain ⟨stored, hstored⟩ := ih fun x hx => hle x (List.mem_cons_of_mem _ hx)
      refine ⟨i :: stored, ?_⟩
      rw [List.mapM_cons, hi, ok_bind, hstored]
      rfl

/-- What pricing leaves of an accepted request, in the menu's terms. -/
structure PricedAs (db : Db) (dto : CreateOrderDto) (p : PricedOrder) : Prop where
  lines : List.Forall₂ (LineOf db) dto.items p.lines
  discount : DiscountOf db dto (billedOf db dto.items) p.discount
  customer : ∀ c ∈ dto.customerId, ∃ k ∈ db.customers, k.id = c

/-- **A priced order is priced as its request and the menu say.** -/
theorem priceOrder_pricedAs {db : Db} (hcombos : ∀ c ∈ db.combos, c.taxRateBp ≤ 10000)
    {now : Instant} {dto : CreateOrderDto} {p : PricedOrder}
    (h : priceOrder db now dto = .ok p) : PricedAs db dto p := by
  have hp := priceOrder_ok h
  have hof : List.Forall₂ (LineOf db) dto.items p.lines :=
    hp.lines.imp fun _ _ hl => priceLine_lineOf hcombos hl
  refine ⟨hof, ?_, hp.customer⟩
  rw [← (subtotalOf_eq hof).1]
  exact discountFor_discountOf (lines_within hof).1 hp.discount

/-- **The order row** is stored when its amounts and number fit and its id and key
are new. -/
theorem insertOrder_stored {db : Db} {env : Env} {dto : CreateOrderDto} {p : PricedOrder}
    (hp : PricedAs db dto p) (hfit : RowsFit db env.now dto) (hid : NewId db env.newId) :
    ∃ o, insertOrder db env dto p = .ok o := by
  obtain ⟨hsub, htax⟩ := subtotalOf_eq hp.lines
  obtain ⟨hsub0, htax0, htaxle, hlines⟩ := lines_within hp.lines
  have hbilled := hfit.billed
  have htotal := hfit.total
  unfold totalOf at htotal
  rw [← hsub] at hbilled htotal
  rw [← htax] at htotal
  have hvalue := hp.discount.value
  have hnonneg := hp.discount.nonneg
  have hwithin := hp.discount.within
  rw [← hsub] at hvalue hwithin
  rw [← hvalue] at htotal
  obtain ⟨stored, hstored⟩ := storeItems_stored hp.lines fun l hl =>
    le_trans (hlines l hl) hbilled
  have hnumber := hfit.number
  unfold maxInt4 at hbilled htotal
  -- the columns are bounded by the subtotal and the total
  have hfits : fitsInt4 (subtotalOf p.lines) ∧ fitsInt4 p.discount.discountMinor
      ∧ fitsInt4 (taxOf p.lines)
      ∧ fitsInt4 (subtotalOf p.lines - p.discount.discountMinor + taxOf p.lines)
      ∧ fitsInt4 (nextOrderNumber db) := by
    refine ⟨?_, ?_, ?_, ?_, hnumber⟩
    all_goals
      simp only [fitsInt4, decide_eq_true_eq]
      omega
  have hnonnegs : 0 ≤ subtotalOf p.lines ∧ 0 ≤ p.discount.discountMinor ∧ 0 ≤ taxOf p.lines
      ∧ 0 ≤ subtotalOf p.lines - p.discount.discountMinor + taxOf p.lines := by omega
  have hfree : ∀ o ∈ db.orders, o.orderNumber ≠ nextOrderNumber db :=
    fun o ho => (nextOrderNumber_free db o ho).ne
  unfold insertOrder
  dsimp only
  rw [if_pos hfits, dif_pos hnonnegs, dif_pos hwithin, require_of _ hid.orders, ok_bind,
    require_of _ hfree, ok_bind, require_of _ hfit.key, ok_bind, hstored, ok_bind]
  exact ⟨_, rfl⟩

/-- What a stored order row says of the request. -/
theorem insertOrder_fits {db : Db} {env : Env} {dto : CreateOrderDto} {p : PricedOrder}
    (hp : PricedAs db dto p) {o : Order} (h : insertOrder db env dto p = .ok o) :
    o.totalMinor = totalOf db dto ∧ billedOf db dto.items ≤ maxInt4 ∧ totalOf db dto ≤ maxInt4
      ∧ fitsInt4 (nextOrderNumber db) = true
      ∧ ¬ keyTaken dto.idempotencyKey (db.orders.map (·.idempotencyKey)) = true := by
  obtain ⟨hsub, htax⟩ := subtotalOf_eq hp.lines
  have htotal : totalOf db dto
      = subtotalOf p.lines - p.discount.discountMinor + taxOf p.lines := by
    unfold totalOf
    rw [hsub, htax, hp.discount.value]
  rw [htotal, ← hsub]
  unfold maxInt4
  unfold insertOrder at h
  dsimp only at h
  split at h
  -- three checks stand before the indexes; where one fails there is no order
  next hfits =>
    split at h
    next =>
      split at h
      next =>
        simp only [bind_ok, require_ok] at h
        obtain ⟨-, -, -, -, -, hkey, items, -, h⟩ := h
        cases pure_ok.mp h
        have hnumber := hfits.2.2.2.2
        simp only [fitsInt4, decide_eq_true_eq] at hfits
        exact ⟨rfl, hfits.1.2, hfits.2.2.2.1.2, hnumber, hkey⟩
      next => cases h
    next => cases h
  next => cases h

/-- A payment that fits, under a new key, is stored. -/
theorem insertPayment_stored {db : Db} {env : Env} {orderId : Uuid} {method : PaymentMethod}
    {amountMinor : ℤ} {reference key : Option String} (hpos : 0 < amountMinor)
    (hle : amountMinor ≤ maxInt4)
    (hkey : ¬ keyTaken key (db.payments.map (·.idempotencyKey)) = true) :
    ∃ db', insertPayment db env orderId method amountMinor reference key = .ok db' := by
  unfold maxInt4 at hle
  have hfits : fitsInt4 amountMinor = true := by
    simp only [fitsInt4, decide_eq_true_eq]
    omega
  unfold insertPayment
  rw [require_of _ hfits, ok_bind, dif_pos hpos, require_of _ hkey, ok_bind]
  exact ⟨_, rfl⟩

theorem insertPayment_fits {db db' : Db} {env : Env} {orderId : Uuid} {method : PaymentMethod}
    {amountMinor : ℤ} {reference key : Option String}
    (h : insertPayment db env orderId method amountMinor reference key = .ok db') :
    0 < amountMinor ∧ ¬ keyTaken key (db.payments.map (·.idempotencyKey)) = true := by
  obtain ⟨-, -, h⟩ := bind_ok.mp h
  split at h
  next hpos =>
    obtain ⟨_, hkey, -⟩ := bind_ok.mp h
    exact ⟨hpos, require_ok.mp hkey⟩
  next => cases h

/-- **The points debit** passes once the balance covers it. -/
theorem redeemPointsFor_stored (db : Db) (ctx : TenantContext) (orderId : Uuid) {db₀ : Db}
    {dto : CreateOrderDto} {p : PricedOrder} (hp : PricedAs db₀ dto p)
    (hpoints : ∀ points ∈ dto.redeemPoints, ∀ c ∈ dto.customerId,
      points ≤ balance db₀.loyaltyLedger c)
    (hcustomer : dto.redeemPoints.isSome = true → dto.customerId.isSome = true)
    (hid : NewId db₀ orderId) (hledger : db.loyaltyLedger = db₀.loyaltyLedger)
    (hcustomers : db.customers = db₀.customers) :
    ∃ db', redeemPointsFor db ctx orderId dto p.discount = .ok db' := by
  unfold redeemPointsFor
  -- without points nothing is written
  by_cases hpos : 0 < p.discount.redeemPoints
  · rw [if_pos hpos]
    have hasked := hp.discount.points hpos
    have hbounds := dto.redeemPoints_ok _ hasked
    obtain ⟨c, hc⟩ := Option.isSome_iff_exists.mp (hcustomer (by rw [hasked]; rfl))
    have hexists : ∃ k ∈ db.customers, k.id = c := by
      rw [hcustomers]
      exact hp.customer c hc
    have hcovered : p.discount.redeemPoints ≤ balance db.loyaltyLedger c := by
      rw [hledger]
      exact hpoints _ hasked c hc
    have hfits : fitsInt4 (-p.discount.redeemPoints) = true := by
      simp only [fitsInt4, decide_eq_true_eq]
      omega
    have hsign : LoyaltyEntryType.redeem.signOk (-p.discount.redeemPoints) = true := by
      simp only [LoyaltyEntryType.signOk, decide_eq_true_eq]
      omega
    -- a new order has no entry yet
    have hfree : ∀ o ∈ (some orderId : Option Uuid),
        entryOf db.loyaltyLedger o .redeem = none := by
      intro o ho
      cases ho
      rw [hledger]
      apply List.find?_eq_none.mpr
      intro e he
      have := hid.entries e he
      simp [this]
    rw [hc]
    simp only [found, ok_bind, redeemForOrder, require_of _ hexists, require_of _ hcovered]
    exact append_stored db ctx { orderEntry c .redeem (-p.discount.redeemPoints) orderId
      p.discount.redeemConfigSnapshot with actorUserId := some ctx.userId } hfits hsign hfree rfl
  · rw [if_neg hpos]
    exact ⟨db, rfl⟩

/-- What the statements before the payment leave alone of what the payment and the
depletion read. -/
structure KeepsStock (db db' : Db) : Prop where
  combos : db'.combos = db.combos
  recipeItems : db'.recipeItems = db.recipeItems
  ingredients : db'.ingredients = db.ingredients
  prepBatches : db'.prepBatches = db.prepBatches
  movements : db'.movements = db.movements

theorem KeepsStock.trans {db db' db'' : Db} (h : KeepsStock db db') (h' : KeepsStock db' db'') :
    KeepsStock db db'' :=
  ⟨h'.combos.trans h.combos, h'.recipeItems.trans h.recipeItems,
    h'.ingredients.trans h.ingredients, h'.prepBatches.trans h.prepBatches,
    h'.movements.trans h.movements⟩

/-- With the stock, the lines to draw stay. -/
theorem KeepsStock.placementLines {db db' : Db} (h : KeepsStock db db')
    (items : List OrderItemDto) : placementLines db' items = placementLines db items := by
  unfold Orders.placementLines placementOf comboLines findCombo
  rw [h.combos]

/-- **Movements that fit are stored.** -/
theorem depleteAtPlacement_stored {db db' : Db} (ctx : TenantContext) {now : Instant} (o : Order)
    {dto : CreateOrderDto} (hk : KeepsStock db db') (hfit : dto.held = false →
      ∀ ingredientId, StockFits db now (placementLines db dto.items) ingredientId) :
    ∃ db'', depleteAtPlacement db' ctx now o dto = .ok db'' := by
  unfold depleteAtPlacement
  by_cases hheld : dto.held = true
  · rw [if_pos hheld]
    exact ⟨db', rfl⟩
  · rw [if_neg hheld, hk.placementLines]
    have hstorable := (depletionRows_storable_iff db now o.id ctx.userId
      (placementLines_pos db dto.items)).mpr (hfit (by simpa using hheld))
    rw [← depletionRows_congr hk.recipeItems hk.ingredients hk.prepBatches hk.movements] at hstorable
    -- the rows carry no key, so the unique index refuses none of them
    obtain ⟨new, -, hmany⟩ := createMany_stored (l := db'.movements)
      fun m hmem => ⟨hstorable m hmem, by
        obtain ⟨i, b, q, rfl⟩ := rowsOfEntries_tagged m hmem
        rfl⟩
    unfold depleteForOrder
    rw [hmany, ok_bind]
    exact ⟨_, rfl⟩

/-- **Movements that were stored fit.** -/
theorem depleteAtPlacement_fits {db db' db'' : Db} {ctx : TenantContext} {now : Instant} {o : Order}
    {dto : CreateOrderDto} (hk : KeepsStock db db')
    (h : depleteAtPlacement db' ctx now o dto = .ok db'') (hheld : dto.held = false) :
    ∀ ingredientId, StockFits db now (placementLines db dto.items) ingredientId := by
  unfold depleteAtPlacement at h
  rw [if_neg (by rw [hheld]; exact Bool.false_ne_true)] at h
  obtain ⟨new, hnew, -⟩ := depleteForOrder_ok h
  rw [hk.placementLines,
    depletionRows_congr hk.recipeItems hk.ingredients hk.prepBatches hk.movements] at hnew
  refine (depletionRows_storable_iff db now o.id ctx.userId (placementLines_pos db dto.items)).mp ?_
  intro m hmem
  rw [← hnew] at hmem
  obtain ⟨r, -, rfl⟩ := List.mem_map.mp hmem
  exact r.storable

/-- Redeeming a coupon keeps stock and payments. -/
theorem redeemCoupon_keeps {db db' : Db} {orderId : Uuid} {coupon : Option CouponDiscount}
    (h : redeemCoupon db orderId coupon = .ok db') :
    KeepsStock db db' ∧ db'.payments = db.payments := by
  obtain ⟨redemptions, rfl⟩ := redeemCoupon_ok h
  exact ⟨⟨rfl, rfl, rfl, rfl, rfl⟩, rfl⟩

theorem redeemPointsFor_keeps {db db' : Db} {ctx : TenantContext} {orderId : Uuid}
    {dto : CreateOrderDto} {d : Discount} (h : redeemPointsFor db ctx orderId dto d = .ok db') :
    KeepsStock db db' ∧ db'.payments = db.payments := by
  obtain ⟨spent, -, logs, rfl⟩ := redeemPointsFor_ok (le_refl d.redeemPoints) h
  exact ⟨⟨rfl, rfl, rfl, rfl, rfl⟩, rfl⟩

theorem recordDiscount_keeps (db : Db) (ctx : TenantContext) (o : Order) (dto : CreateOrderDto) :
    KeepsStock db (recordDiscount db ctx o dto)
      ∧ (recordDiscount db ctx o dto).payments = db.payments := by
  obtain ⟨logs, hlogs⟩ := recordDiscount_logs db ctx o dto
  rw [hlogs]
  exact ⟨⟨rfl, rfl, rfl, rfl, rfl⟩, rfl⟩

/-- The statements between the order row and the payment. -/
theorem discounted_keeps {db db₁ db₂ : Db} {ctx : TenantContext} {o : Order} {dto : CreateOrderDto}
    {d : Discount} (h1 : redeemCoupon (db.withOrders (db.orders ++ [o])) o.id d.coupon = .ok db₁)
    (h2 : redeemPointsFor db₁ ctx o.id dto d = .ok db₂) :
    KeepsStock db (recordDiscount db₂ ctx o dto)
      ∧ (recordDiscount db₂ ctx o dto).payments = db.payments := by
  have hstored : KeepsStock db (db.withOrders (db.orders ++ [o])) := ⟨rfl, rfl, rfl, rfl, rfl⟩
  obtain ⟨hk₁, hpay₁⟩ := redeemCoupon_keeps h1
  obtain ⟨hk₂, hpay₂⟩ := redeemPointsFor_keeps h2
  obtain ⟨hk₃, hpay₃⟩ := recordDiscount_keeps db₂ ctx o dto
  exact ⟨((hstored.trans hk₁).trans hk₂).trans hk₃, hpay₃.trans (hpay₂.trans hpay₁)⟩

/-! ## §5. The whole request. -/

/-- Points are redeemed for a customer. -/
theorem checkRequest_redeem {ctx : TenantContext} {dto : CreateOrderDto}
    (h : checkRequest ctx dto = .ok ()) :
    dto.redeemPoints.isSome = true → dto.customerId.isSome = true := by
  simp only [checkRequest, bind_ok, require_ok] at h
  obtain ⟨-, -, -, -, -, -, -, hcustomer, -⟩ := h
  exact hcustomer

section Accepted

variable {db : Db} {ctx : TenantContext} {env : Env} {dto : CreateOrderDto}
  (hcombos : ∀ c ∈ db.combos, c.taxRateBp ≤ 10000) (ha : Accepted db ctx env dto)
  (hid : NewId db env.newId)

include hcombos ha hid

/-- **After the checks whatever fails is the database's refusal.** -/
theorem insert_byDatabase : ByDatabase (insert db ctx env dto) := by
  obtain ⟨p, hprice⟩ := ha.priced
  have hp := priceOrder_pricedAs hcombos hprice
  unfold insert
  rw [hprice, ok_bind]
  refine .bind (insertOrder_byDatabase db env dto p) fun o ho => ?_
  have hoid := (insertOrder_ok ho).id
  refine .bind (redeemCoupon_byDatabase _ _ _) fun db₁ h1 => ?_
  obtain ⟨redemptions, rfl⟩ := redeemCoupon_ok h1
  obtain ⟨db₂, h2⟩ := redeemPointsFor_stored
    ((db.withOrders (db.orders ++ [o])).withCouponRedemptions redemptions) ctx o.id hp ha.points
    (checkRequest_redeem ha.request) (by rw [hoid]; exact hid) rfl rfl
  rw [h2, ok_bind]
  refine .bind ?_ fun db₃ h3 => ?_
  · unfold payAtPlacement
    split
    · exact insertPayment_byDatabase _ _ _ _ _ _ _
    · exact .ok _
  · exact .bind (depleteAtPlacement_byDatabase _ _ _ _ _) fun _ _ => .ok _

/-- **With rows that fit the transaction goes through.** -/
theorem insert_stored (hfit : RowsFit db env.now dto) : ∃ r, insert db ctx env dto = .ok r := by
  obtain ⟨p, hprice⟩ := ha.priced
  have hp := priceOrder_pricedAs hcombos hprice
  obtain ⟨o, ho⟩ := insertOrder_stored hp hfit hid
  have hoid := (insertOrder_ok ho).id
  have htotal := (insertOrder_fits hp ho).1
  -- the coupon's redemption: its discount is positive, the order is new
  obtain ⟨db₁, h1⟩ : ∃ db₁,
      redeemCoupon (db.withOrders (db.orders ++ [o])) o.id p.discount.coupon = .ok db₁ := by
    unfold redeemCoupon
    cases hc : p.discount.coupon with
    | none => exact ⟨_, rfl⟩
    | some c =>
        have hpos := hp.discount.coupon c hc
        have hfree : ∀ r ∈ (db.withOrders (db.orders ++ [o])).couponRedemptions,
            r.orderId ≠ o.id := by
          rw [hoid]
          exact hid.redemptions
        unfold recordRedemption
        simp only [dif_pos hpos, require_of _ hfree, ok_bind]
        exact ⟨_, rfl⟩
  obtain ⟨redemptions, hdb₁⟩ := redeemCoupon_ok h1
  obtain ⟨db₂, h2⟩ := redeemPointsFor_stored db₁ ctx o.id hp ha.points
    (checkRequest_redeem ha.request) (by rw [hoid]; exact hid) (by rw [hdb₁]; rfl)
    (by rw [hdb₁]; rfl)
  obtain ⟨hk, hpayments⟩ := discounted_keeps h1 h2
  obtain ⟨db₃, h3⟩ : ∃ db₃, payAtPlacement (recordDiscount db₂ ctx o dto) env o dto = .ok db₃ := by
    unfold payAtPlacement
    cases hm : dto.paymentMethod with
    | none => exact ⟨_, rfl⟩
    | some method =>
        obtain ⟨hpos, hkey⟩ := hfit.paid (by rw [hm]; rfl)
        have hle := hfit.total
        rw [← htotal] at hpos hle
        rw [← hpayments] at hkey
        exact insertPayment_stored hpos hle hkey
  obtain ⟨paid, -, hdb₃⟩ := payAtPlacement_ok h3
  have hk₃ : KeepsStock db db₃ := by
    rw [hdb₃]
    exact hk.trans ⟨rfl, rfl, rfl, rfl, rfl⟩
  obtain ⟨db₄, h4⟩ := depleteAtPlacement_stored ctx o hk₃ hfit.stock
  unfold insert
  rw [hprice, ok_bind, ho, ok_bind]
  dsimp only
  rw [h1, ok_bind, h2, ok_bind, h3, ok_bind, h4, ok_bind]
  exact ⟨_, rfl⟩

omit ha hid in
/-- **What went through fitted.** -/
theorem insert_fits {r : Order × Db} (h : insert db ctx env dto = .ok r) :
    RowsFit db env.now dto := by
  obtain ⟨p, hprice, h⟩ := bind_ok.mp h
  have hp := priceOrder_pricedAs hcombos hprice
  obtain ⟨o, ho, h⟩ := bind_ok.mp h
  obtain ⟨db₁, h1, h⟩ := bind_ok.mp h
  obtain ⟨db₂, h2, h⟩ := bind_ok.mp h
  obtain ⟨db₃, h3, h⟩ := bind_ok.mp h
  obtain ⟨db₄, h4, -⟩ := bind_ok.mp h
  obtain ⟨htotal, hbilled, hle, hnumber, hkey⟩ := insertOrder_fits hp ho
  obtain ⟨hk, hpayments⟩ := discounted_keeps h1 h2
  obtain ⟨paid, -, hdb₃⟩ := payAtPlacement_ok h3
  have hk₃ : KeepsStock db db₃ := by
    rw [hdb₃]
    exact hk.trans ⟨rfl, rfl, rfl, rfl, rfl⟩
  refine ⟨hbilled, hle, hnumber, hkey, ?_, depleteAtPlacement_fits hk₃ h4⟩
  -- a payment is checked at the total of the order
  intro hpaid
  obtain ⟨method, hm⟩ := Option.isSome_iff_exists.mp hpaid
  unfold payAtPlacement at h3
  rw [hm] at h3
  obtain ⟨hpos, hfree⟩ := insertPayment_fits h3
  rw [htotal] at hpos
  rw [hpayments] at hfree
  exact ⟨hpos, hfree⟩

/-- **An accepted request is refused by the database exactly when its rows do not
fit.** -/
theorem create_fits_iff :
    (∀ e, create db ctx env dto = .error e → e.fromDatabase = false) ↔ RowsFit db env.now dto := by
  have hcreate : create db ctx env dto = insertAttempts db ctx env dto 5 := by
    unfold create
    rw [ha.request, ok_bind, ha.new]
  rw [hcreate]
  cases hins : insert db ctx env dto with
  | ok r =>
      have hok : ∃ r', insertAttempts db ctx env dto 5 = .ok r' := by
        unfold insertAttempts
        rw [hins]
        exact ⟨_, rfl⟩
      obtain ⟨r', hr'⟩ := hok
      rw [hr']
      refine ⟨fun _ => insert_fits hcombos hins, ?_⟩
      intro _ e he
      cases he
  | error e =>
      -- the refusal is passed on: nothing is found under a new key
      obtain ⟨hdatabase, hnumber⟩ := insert_byDatabase hcombos ha hid e hins
      have herror : insertAttempts db ctx env dto 5 = .error e := by
        unfold insertAttempts
        rw [hins]
        split
        next heq => cases heq
        next heq =>
          cases heq
          exact absurd rfl hnumber
        next ix heq =>
          cases heq
          rw [ha.new]
          simp
        next heq =>
          cases heq
          rfl
      constructor
      · intro h
        rw [h e herror] at hdatabase
        cases hdatabase
      · intro hfit
        obtain ⟨r, hr⟩ := insert_stored hcombos ha hid hfit
        rw [hins] at hr
        cases hr

end Accepted

/-- A lassi sold for cash: the order, its payment and its curd all fit. -/
theorem create_fits_iff_lassi :
    (∀ e, create lassiBar cashier ⟨20, 0⟩ (lassiOrder none (some .cash) none) = .error e →
        e.fromDatabase = false)
      ↔ RowsFit lassiBar 0 (lassiOrder none (some .cash) none) :=
  have ha : Accepted lassiBar cashier ⟨20, 0⟩ (lassiOrder none (some .cash) none) :=
    ⟨rfl, rfl, ⟨_, rfl⟩, nofun⟩
  create_fits_iff (by decide) ha
    ⟨List.forall_mem_nil _, List.forall_mem_nil _, List.forall_mem_nil _⟩

/-- The same bar with an untaxed lassi. -/
def untaxedBar : Db :=
  { lassiBar with products := [⟨1, "Lassi", 1000, 0, true, by decide⟩] }

/-- Who may give a discount. -/
def manager : TenantContext := ⟨10, 11, 12, [.orderDiscount]⟩

/-- A lassi on the house, paid in cash. -/
def lassiOnTheHouse : CreateOrderDto :=
  { lassiOrder none (some .cash) none with
    manualDiscountMinor := some 1000
    manualDiscount_ok := by decide }

/-- **A sale discounted to nothing and paid at once** passes every check and fails
on the payment's amount. -/
theorem onTheHouse_refused :
    Accepted untaxedBar manager ⟨20, 0⟩ lassiOnTheHouse
      ∧ create untaxedBar manager ⟨20, 0⟩ lassiOnTheHouse
        = .error (.checkViolation "payments_amount_positive") :=
  ⟨⟨rfl, rfl, ⟨_, rfl⟩, nofun⟩, rfl⟩

end OraOS.Orders
