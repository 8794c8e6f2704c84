/-
  OraOS.Procurement.Reorder — is a low ingredient reordered enough?

  An ingredient is low at or below its reorder level.  The suggestion tops its stock up to
  twice that level, or to two weeks of the usage of the last, and is never less than one; a
  level of zero with no usage leaves nothing to top up to.

    * `suggest_enough_iff` — the arithmetic: when the quantity lifts the stock above the level;
    * `reorder_enough_iff` — **when every low ingredient is reordered enough**: unless one at
                             level zero has less than nothing, and hardly any of it was used.
-/
import OraOS.Orders.IngredientUnits

namespace OraOS.Procurement

open OraOS.Api
open OraOS.Lib
open OraOS.Orders (StockUnit)

/-! ## §1. `InventoryService.list`. -/

/-- A row of `ingredients`. -/
structure IngredientRow where
  id : Uuid
  name : String
  unit : StockUnit
  reorderLevel : Option ℤ
  isActive : Bool
  /-- `ingredients_reorder_non_negative` -/
  reorderLevel_nonneg : ∀ l ∈ reorderLevel, 0 ≤ l

/-- A row of `stock_movements`, with the time it was written at. -/
structure LedgerRow extends NewMovement where
  createdAt : Instant

/-- A supplier of an ingredient. -/
structure SupplierRow where
  id : Uuid
  name : String
  preferred : Bool
  deriving DecidableEq, Repr

/-- The tables behind the reorder suggestions. -/
structure StockRoom where
  ingredients : List IngredientRow
  movements : List LedgerRow
  suppliers : List SupplierRow
  /-- `ingredients_pkey` -/
  ingredients_pkey : (ingredients.map (·.id)).Nodup

/-- The filters of the inventory list. -/
structure ListIngredientsQuery where
  lowStock : Bool
  includeAll : Bool

/-- One row of the inventory list. -/
structure ListedIngredient where
  id : Uuid
  name : String
  unit : StockUnit
  reorderLevel : Option ℤ
  isActive : Bool
  currentStock : ℤ
  isLow : Bool
  lastMovementAt : Option Instant
  avgDailyUsage : ℤ
  avgUnitCostMinor : Option ℚ
  deriving DecidableEq, Repr

/-- `stockByIngredient`, at one ingredient. -/
def StockRoom.stockOf (room : StockRoom) (id : Uuid) : ℤ :=
  sumWhere (fun m => decide (m.ingredientId = id)) (·.quantity) room.movements

/-- `costByIngredient`, at one ingredient. -/
def StockRoom.costOf (room : StockRoom) (id : Uuid) : Option ℚ :=
  let costed := room.movements.filter fun m =>
    decide (m.ingredientId = id ∧ m.type = .purchase) && m.totalCostMinor.isSome
  let cost := (costed.map fun m => m.totalCostMinor.getD 0).sum
  let qty := (costed.map (·.quantity)).sum
  if 0 < qty then some (cost / qty) else none

/-- What the sales of the last seven days consumed. -/
def StockRoom.usedLastWeek (room : StockRoom) (now : Instant) (id : Uuid) : ℤ :=
  let weekAgo := now - 7 * 86400000
  |sumWhere (fun m => decide (m.ingredientId = id)
    && decide (m.type = .consumption ∧ weekAgo ≤ m.createdAt)) (·.quantity) room.movements|

/-- One row of the list. -/
def StockRoom.listed (room : StockRoom) (now : Instant) (i : IngredientRow) : ListedIngredient :=
  let current := room.stockOf i.id
  { id := i.id
    name := i.name
    unit := i.unit
    reorderLevel := i.reorderLevel
    isActive := i.isActive
    currentStock := current
    -- no level means that it is not tracked, which is not a level of zero
    isLow := i.reorderLevel.any fun l => decide (current ≤ l)
    lastMovementAt :=
      ((room.movements.filter fun m => decide (m.ingredientId = i.id)).map (·.createdAt)).max?
    avgDailyUsage := roundDiv (room.usedLastWeek now i.id) 7
    avgUnitCostMinor := room.costOf i.id }

/-- `InventoryService.list`. -/
def StockRoom.list (room : StockRoom) (now : Instant) (query : ListIngredientsQuery) :
    List ListedIngredient :=
  let ingredients := (room.ingredients.filter fun i => query.includeAll || i.isActive).insertionSort
    fun a b => a.name ≤ b.name
  let rows := ingredients.map (room.listed now)
  if query.lowStock then rows.filter (·.isLow) else rows

/-! ## §2. `ProcurementService.reorderSuggestions`. -/

/-- One row of the reorder page. -/
structure ReorderSuggestion where
  ingredientId : Uuid
  name : String
  unit : StockUnit
  currentStock : ℤ
  reorderLevel : Option ℤ
  avgDailyUsage : ℤ
  suggestedQuantity : ℤ
  lastSupplier : Option SupplierRow
  deriving DecidableEq, Repr

/-- The supplier of the newest purchase that has one. -/
def StockRoom.lastSupplierId (room : StockRoom) (id : Uuid) : Option Uuid :=
  let purchases := (room.movements.filter fun m =>
    decide (m.type = .purchase) && m.supplierId.isSome).insertionSort
      fun a b => b.createdAt ≤ a.createdAt
  (purchases.find? fun m => decide (m.ingredientId = id)).bind (·.supplierId)

/-- Top up to twice the level or to two weeks of usage. -/
def suggestedQuantity (reorder currentStock avgDailyUsage : ℤ) : ℤ :=
  let target := max (reorder * 2) (avgDailyUsage * 14)
  max (max (target - currentStock) reorder) 1

/-- `reorderSuggestions`. -/
def StockRoom.reorderSuggestions (room : StockRoom) (now : Instant) : List ReorderSuggestion :=
  (room.list now ⟨true, false⟩).map fun r =>
    { ingredientId := r.id
      name := r.name
      unit := r.unit
      currentStock := r.currentStock
      reorderLevel := r.reorderLevel
      avgDailyUsage := r.avgDailyUsage
      suggestedQuantity := suggestedQuantity (r.reorderLevel.getD 0) r.currentStock r.avgDailyUsage
      lastSupplier := (room.lastSupplierId r.id).bind fun supplierId =>
        room.suppliers.find? fun s => decide (s.id = supplierId) }

/-! ## §3. The arithmetic. -/

/-- Something is always suggested. -/
theorem suggestedQuantity_pos (reorder currentStock avgDailyUsage : ℤ) :
    1 ≤ suggestedQuantity reorder currentStock avgDailyUsage :=
  le_max_right _ _

/-- **When the quantity lifts the stock above the level**: unless the level is zero, nothing
is used and there is less than nothing of it. -/
theorem suggest_enough_iff {reorder currentStock avgDailyUsage : ℤ} (hreorder : 0 ≤ reorder)
    (husage : 0 ≤ avgDailyUsage) :
    reorder < currentStock + suggestedQuantity reorder currentStock avgDailyUsage
      ↔ 0 < reorder ∨ 0 ≤ currentStock ∨ 0 < avgDailyUsage := by
  unfold suggestedQuantity
  dsimp only
  omega

/-- What is used up in a week rounds to nothing a day if it is less than four. -/
theorem averageUsage_pos {used : ℤ} (h : 0 ≤ used) :
    0 ≤ roundDiv used 7 ∧ (0 < roundDiv used 7 ↔ 4 ≤ used) := by
  unfold roundDiv
  omega

/-! ## §4. What the suggestions do. -/

/-- A delivery is written to the ledger. -/
def StockRoom.received (room : StockRoom) (m : LedgerRow) : StockRoom :=
  { room with movements := room.movements ++ [m] }

/-- A delivery is added to the stock. -/
theorem StockRoom.stockOf_received (room : StockRoom) {m : LedgerRow} {id : Uuid}
    (h : m.ingredientId = id) : (room.received m).stockOf id = room.stockOf id + m.quantity := by
  unfold StockRoom.stockOf StockRoom.received
  rw [sumWhere_append, sumWhere_cons, if_pos (decide_eq_true h), sumWhere_nil, add_zero]

variable {room : StockRoom} {now : Instant}

/-- A row is listed for an ingredient that passes the filters. -/
theorem StockRoom.mem_list {query : ListIngredientsQuery} {row : ListedIngredient} :
    row ∈ room.list now query ↔ (query.lowStock = true → row.isLow = true)
      ∧ ∃ i ∈ room.ingredients, (query.includeAll || i.isActive) = true
        ∧ room.listed now i = row := by
  unfold StockRoom.list
  dsimp only
  cases query.lowStock <;> simp [and_assoc, and_comm, and_left_comm]

/-- The row of an ingredient is low at or below its level. -/
theorem StockRoom.listed_isLow {i : IngredientRow} :
    (room.listed now i).isLow = true ↔ ∃ l ∈ i.reorderLevel, room.stockOf i.id ≤ l := by
  simp [StockRoom.listed, Option.any_eq_true]

/-- An ingredient is known by its id. -/
theorem StockRoom.ingredient_eq {i i' : IngredientRow} (hi : i ∈ room.ingredients)
    (hi' : i' ∈ room.ingredients) (hid : i.id = i'.id) : i = i' :=
  List.inj_on_of_nodup_map room.ingredients_pkey hi hi' hid

/-- Every suggestion is for at least one, and a delivery of as much leaves its ingredient
low in no list. -/
def ReorderedEnough (room : StockRoom) (now : Instant) : Prop :=
  ∀ s ∈ room.reorderSuggestions now, 1 ≤ s.suggestedQuantity
    ∧ ∀ m : LedgerRow, m.type = .purchase → m.ingredientId = s.ingredientId →
        m.quantity = s.suggestedQuantity →
        ∀ (later : Instant) (query : ListIngredientsQuery),
          ∀ row ∈ (room.received m).list later query, row.id = s.ingredientId → row.isLow = false

/-- Of an ingredient that is low at level zero there is none, or four units of it were sold in
the last week. -/
def ToppedUp (room : StockRoom) (now : Instant) : Prop :=
  ∀ i ∈ room.ingredients, i.isActive = true → ∀ l ∈ i.reorderLevel, room.stockOf i.id ≤ l →
    0 < l ∨ 0 ≤ room.stockOf i.id ∨ 4 ≤ room.usedLastWeek now i.id

/-- The suggestion for an ingredient lifts it above its level. -/
theorem listed_enough_iff {i : IngredientRow} {l : ℤ} (hl : l ∈ i.reorderLevel) :
    l < room.stockOf i.id
          + suggestedQuantity l (room.stockOf i.id) (roundDiv (room.usedLastWeek now i.id) 7)
      ↔ 0 < l ∨ 0 ≤ room.stockOf i.id ∨ 4 ≤ room.usedLastWeek now i.id := by
  have hused : 0 ≤ room.usedLastWeek now i.id := abs_nonneg _
  obtain ⟨husage, hpos⟩ := averageUsage_pos hused
  rw [suggest_enough_iff (i.reorderLevel_nonneg l hl) husage, hpos]

/-- With a level, it is the one counted with. -/
theorem suggestedQuantity_level {i : IngredientRow} {l : ℤ} (hl : l ∈ i.reorderLevel)
    (currentStock avgDailyUsage : ℤ) :
    suggestedQuantity (i.reorderLevel.getD 0) currentStock avgDailyUsage
      = suggestedQuantity l currentStock avgDailyUsage := by
  rw [Option.mem_def.mp hl]
  rfl

/-- The suggestions are for the active ingredients at or below their level. -/
theorem mem_suggestions {s : ReorderSuggestion} (hs : s ∈ room.reorderSuggestions now) :
    ∃ i ∈ room.ingredients, i.isActive = true ∧ ∃ l ∈ i.reorderLevel, room.stockOf i.id ≤ l
      ∧ s.ingredientId = i.id
      ∧ s.suggestedQuantity = suggestedQuantity l (room.stockOf i.id)
        (roundDiv (room.usedLastWeek now i.id) 7) := by
  obtain ⟨row, hrow, rfl⟩ := List.mem_map.mp hs
  obtain ⟨hlow, i, hi, hactive, rfl⟩ := StockRoom.mem_list.mp hrow
  obtain ⟨l, hl, hle⟩ := StockRoom.listed_isLow.mp (hlow rfl)
  exact ⟨i, hi, hactive, l, hl, hle, rfl, suggestedQuantity_level hl _ _⟩

/-- And each of these has one. -/
theorem exists_suggestion (now : Instant) {i : IngredientRow} (hi : i ∈ room.ingredients)
    (hactive : i.isActive = true) {l : ℤ} (hl : l ∈ i.reorderLevel)
    (hle : room.stockOf i.id ≤ l) :
    ∃ s ∈ room.reorderSuggestions now, s.ingredientId = i.id
      ∧ s.suggestedQuantity = suggestedQuantity l (room.stockOf i.id)
        (roundDiv (room.usedLastWeek now i.id) 7) := by
  have hrow : room.listed now i ∈ room.list now ⟨true, false⟩ :=
    StockRoom.mem_list.mpr ⟨fun _ => StockRoom.listed_isLow.mpr ⟨l, hl, hle⟩, i, hi, hactive, rfl⟩
  exact ⟨_, List.mem_map_of_mem hrow, rfl, suggestedQuantity_level hl _ _⟩

/-- A delivery of so much. -/
def delivery (ingredientId : Uuid) (quantity : ℤ) (now : Instant) : LedgerRow where
  ingredientId := ingredientId
  type := .purchase
  quantity := quantity
  orderId := none
  prepBatchId := none
  supplierId := none
  totalCostMinor := none
  note := none
  actorUserId := none
  idempotencyKey := none
  createdAt := now

/-- **When every low ingredient is reordered enough**: just if none of them has less than
nothing at level zero with hardly any of it used. -/
theorem reorder_enough_iff (room : StockRoom) (now : Instant) :
    ReorderedEnough room now ↔ ToppedUp room now := by
  constructor
  · intro h i hi hactive l hl hle
    obtain ⟨s, hs, hid, hquantity⟩ := exists_suggestion now hi hactive hl hle
    set m := delivery i.id s.suggestedQuantity now
    have hrow : (room.received m).listed now i ∈ (room.received m).list now ⟨false, false⟩ :=
      StockRoom.mem_list.mpr ⟨nofun, i, hi, hactive, rfl⟩
    have hfine := (h s hs).2 m rfl hid.symm rfl now ⟨false, false⟩ _ hrow hid.symm
    rw [← listed_enough_iff hl, ← hquantity]
    by_contra hnot
    -- or it would still be low
    have hlow : ((room.received m).listed now i).isLow = true := by
      have hstock : (room.received m).stockOf i.id = room.stockOf i.id + s.suggestedQuantity :=
        room.stockOf_received rfl
      exact StockRoom.listed_isLow.mpr ⟨l, hl, hstock ▸ not_lt.mp hnot⟩
    rw [hlow] at hfine
    cases hfine
  · intro h s hs
    obtain ⟨i, hi, hactive, l, hl, hle, hid, hquantity⟩ := mem_suggestions hs
    refine ⟨hquantity ▸ suggestedQuantity_pos _ _ _, ?_⟩
    intro m _ hmid hmq later query row hrow hrid
    obtain ⟨-, i', hi', -, rfl⟩ := StockRoom.mem_list.mp hrow
    obtain rfl : i' = i := room.ingredient_eq hi' hi (hrid.trans hid)
    have henough := (listed_enough_iff hl).mpr (h i' hi hactive l hl hle)
    rw [← hquantity, ← hmq] at henough
    rw [Bool.eq_false_iff]
    intro hlow
    obtain ⟨l', hl', hle'⟩ := StockRoom.listed_isLow.mp hlow
    obtain rfl : l' = l := Option.mem_unique hl' hl
    rw [StockRoom.stockOf_received room (hmid.trans hid)] at hle'
    exact absurd henough (not_lt.mpr hle')

theorem zero_level : ∀ l ∈ some (0 : ℤ), 0 ≤ l := by decide

theorem only_saffron : [(1 : Uuid)].Nodup := List.nodup_singleton 1

/-- Saffron is flagged when there is none; a count has found five grams less than that. -/
def saffronRoom : StockRoom where
  ingredients := [⟨1, "Saffron", .gram, some 0, true, zero_level⟩]
  movements :=
    [{ ingredientId := 1, type := .adjustment, quantity := -5, orderId := none,
       prepBatchId := none, supplierId := none, totalCostMinor := none, note := none,
       actorUserId := none, idempotencyKey := none, createdAt := 0 }]
  suppliers := []
  ingredients_pkey := only_saffron

/-- Five grams are suggested, and when they have come the saffron is low. -/
theorem saffron_still_low :
    (saffronRoom.reorderSuggestions 0).map (·.suggestedQuantity) = [5]
      ∧ ((saffronRoom.received (delivery 1 5 0)).list 0 ⟨true, false⟩).map (·.currentStock) = [0]
      ∧ ¬ ReorderedEnough saffronRoom 0 := by
  have hsuggested : (saffronRoom.reorderSuggestions 0).map (·.suggestedQuantity) = [5] := by decide
  have hlow : ((saffronRoom.received (delivery 1 5 0)).list 0 ⟨true, false⟩).map (·.currentStock)
      = [0] := by decide
  refine ⟨hsuggested, hlow, fun h => ?_⟩
  have hone : ∃ s ∈ saffronRoom.reorderSuggestions 0, s.ingredientId = 1
      ∧ s.suggestedQuantity = 5 := by decide
  obtain ⟨s, hs, hid, hquantity⟩ := hone
  have hrow : ∃ row ∈ (saffronRoom.received (delivery 1 5 0)).list 0 ⟨true, false⟩,
      row.id = 1 ∧ row.isLow = true := by decide
  obtain ⟨row, hrow, hrid, hstill⟩ := hrow
  have hfine := (h s hs).2 (delivery 1 5 0) rfl hid.symm hquantity.symm 0 ⟨true, false⟩ row hrow
    (hrid.trans hid.symm)
  rw [hstill] at hfine
  cases hfine

end OraOS.Procurement
