/-
  OraOS.Inventory.Depletion — stock leaving with a sale and coming back with its
  reversal (`depleteForOrder`, `restockForReversedOrder`).

    * `depletionRows_sum`  — per ingredient, the rows of a sale come to minus
                             the recipe demand of its lines;
    * `depletionRows_tagged` — every row is a CONSUMPTION of that order;
    * `restockRows_cancel` — the rows of a reversal bring every (ingredient,
                             batch) of the order's consumption back to 0.
-/
import OraOS.Inventory.Prep

namespace OraOS.Inventory

open OraOS.Api
open OraOS.Lib

/-! ## §1. What a list of sold lines consumes. -/

/-- An entry of the list handed to `depleteForOrder`. -/
structure SoldLine where
  productId : Uuid
  quantity : ℤ
  deriving DecidableEq, Repr

/-- `db.recipeItem.findMany({ where: { productId: { in: productIds } } })`. -/
def recipesOf (recipeItems : List RecipeItem) (lines : List SoldLine) :
    List RecipeItem :=
  let productIds := distinct (lines.map (·.productId))
  recipeItems.filter fun r => productIds.contains r.productId

/-- What the loop over the lines adds up: for each line and each item of its
product's recipe, the ingredient and the amount. -/
def consumedEntries (recipes : List RecipeItem) (lines : List SoldLine) :
    List (Uuid × ℤ) :=
  lines.flatMap fun line =>
    (recipes.filter fun r => r.productId = line.productId).map fun r =>
      (r.ingredientId, r.quantity * line.quantity)

/-- Reading only the recipes of the sold products loses none of them. -/
theorem consumedEntries_recipesOf (recipeItems : List RecipeItem)
    (lines : List SoldLine) :
    consumedEntries (recipesOf recipeItems lines) lines
      = consumedEntries recipeItems lines := by
  unfold consumedEntries recipesOf
  refine List.flatMap_congr fun line hline => ?_
  congr 1
  rw [List.filter_filter]
  refine List.filter_congr fun r _ => ?_
  -- a recipe row of the line's product is among those that were read
  by_cases hr : r.productId = line.productId
  · have hmem : r.productId ∈ distinct (lines.map (·.productId)) :=
      mem_distinct.mpr (hr ▸ List.mem_map_of_mem hline)
    simp [hr] at hmem ⊢
    exact hmem
  · simp [hr]

/-- The recipe demand of the lines at one ingredient. -/
def demand (recipes : List RecipeItem) (lines : List SoldLine) (ingredientId : Uuid) :
    ℤ :=
  sumWhere (fun e => decide (e.1 = ingredientId)) Prod.snd
    (consumedEntries recipes lines)

theorem consumedEntries_append (recipes : List RecipeItem) (lines lines' : List SoldLine) :
    consumedEntries recipes (lines ++ lines')
      = consumedEntries recipes lines ++ consumedEntries recipes lines' := by
  unfold consumedEntries
  rw [List.flatMap_append]

theorem demand_append (recipes : List RecipeItem) (lines lines' : List SoldLine)
    (ingredientId : Uuid) :
    demand recipes (lines ++ lines') ingredientId
      = demand recipes lines ingredientId + demand recipes lines' ingredientId := by
  unfold demand
  rw [consumedEntries_append, sumWhere_append]

/-- Sold quantities are not negative. -/
def LinesNonneg (lines : List SoldLine) : Prop := ∀ l ∈ lines, 0 ≤ l.quantity

/-- Lines that sell no less than nothing consume no less. -/
theorem consumedEntries_nonneg {recipes : List RecipeItem} {lines : List SoldLine}
    (h : LinesNonneg lines) : ∀ e ∈ consumedEntries recipes lines, 0 ≤ e.2 := by
  intro e he
  obtain ⟨line, hline, he⟩ := List.mem_flatMap.mp he
  obtain ⟨r, -, rfl⟩ := List.mem_map.mp he
  exact mul_nonneg r.quantity_pos.le (h line hline)

/-! ## §2. The rows of a sale. -/

/-- `ingredient.isPrepared`, joined to a recipe row. -/
def isPrepared (db : Db) (ingredientId : Uuid) : Bool :=
  (db.ingredients.find? fun i => i.id = ingredientId).any (·.isPrepared)

/-- The batches of a prepared ingredient with what remains of each. -/
def liveBatches (db : Db) (ingredientId : Uuid) : List LiveBatch :=
  (db.prepBatches.filter fun b => b.prepIngredientId = ingredientId).map fun b =>
    ⟨b.id, remainingOf db.movements b.id, b.expiresAt, b.createdAt⟩

/-- A CONSUMPTION row; the sign is the server's. -/
def consumptionRow (orderId actorUserId ingredientId : Uuid)
    (prepBatchId : Option Uuid) (quantity : ℤ) : NewMovement :=
  { ingredientId, type := .consumption, quantity := -quantity,
    orderId := some orderId, prepBatchId, supplierId := none,
    totalCostMinor := none, note := none, actorUserId := some actorUserId,
    idempotencyKey := none }

/-- One row per raw ingredient, and one per batch an allocation touches. -/
def rowsOfEntries (db : Db) (now : Instant) (orderId actorUserId : Uuid)
    (entries : List (Uuid × ℤ)) : List NewMovement :=
  -- raw ingredients leave without a batch, prepared ones by FEFO
  let totals := Tally.tally entries
  let prepared := distinct ((entries.map Prod.fst).filter (isPrepared db))
  ((totals.filter fun e => !prepared.contains e.1).map fun e =>
      consumptionRow orderId actorUserId e.1 none e.2)
    ++ prepared.flatMap fun ingredientId =>
      (allocateFefo (liveBatches db ingredientId) (totals.get ingredientId) now).map
        fun a => consumptionRow orderId actorUserId ingredientId a.prepBatchId a.quantity

/-- The rows a sale writes, in the order it writes them. -/
def depletionRows (db : Db) (now : Instant) (orderId actorUserId : Uuid)
    (lines : List SoldLine) : List NewMovement :=
  rowsOfEntries db now orderId actorUserId
    (consumedEntries (recipesOf db.recipeItems lines) lines)

/-- The prepared ingredients the recipes of the lines take. -/
def preparedOf (db : Db) (lines : List SoldLine) : List Uuid :=
  distinct (((consumedEntries (recipesOf db.recipeItems lines) lines).map Prod.fst).filter
    (isPrepared db))

/-- What remains of the batches that the lines may take from is what it was in `seen`. -/
def BatchesAsRead (seen db : Db) (lines : List SoldLine) : Prop :=
  ∀ b ∈ db.prepBatches, b.prepIngredientId ∈ preparedOf db lines →
    remainingOf db.movements b.id = remainingOf seen.movements b.id

instance (seen db : Db) (lines : List SoldLine) : Decidable (BatchesAsRead seen db lines) :=
  inferInstanceAs (Decidable (∀ b ∈ db.prepBatches, b.prepIngredientId ∈ preparedOf db lines →
    remainingOf db.movements b.id = remainingOf seen.movements b.id))

/-- The tables, but for the ledger, that a sale's rows are computed from. -/
structure SameBook (seen db : Db) : Prop where
  recipes : db.recipeItems = seen.recipeItems
  ingredients : db.ingredients = seen.ingredients
  batches : db.prepBatches = seen.prepBatches

theorem SameBook.refl (db : Db) : SameBook db db := ⟨rfl, rfl, rfl⟩

theorem SameBook.trans {seen db db' : Db} (h : SameBook seen db) (h' : SameBook db db') :
    SameBook seen db' :=
  ⟨h'.recipes.trans h.recipes, h'.ingredients.trans h.ingredients,
    h'.batches.trans h.batches⟩

/-- **Of the ledger the rows of a sale depend on what remains of those batches only.** -/
theorem depletionRows_asRead {seen db : Db} {lines : List SoldLine} (hsame : SameBook seen db)
    (hread : BatchesAsRead seen db lines) (now : Instant) (orderId actorUserId : Uuid) :
    depletionRows db now orderId actorUserId lines
      = depletionRows seen now orderId actorUserId lines := by
  obtain ⟨hr, hi, hb⟩ := hsame
  have hprep : isPrepared db = isPrepared seen := by
    funext i
    unfold isPrepared
    rw [hi]
  -- the batches of every prepared ingredient needed are as they were read
  have hlive : ∀ i ∈ preparedOf db lines, liveBatches db i = liveBatches seen i := by
    intro i hmem
    unfold liveBatches
    rw [← hb]
    refine List.map_congr_left fun b hbatch => ?_
    obtain ⟨hin, hown⟩ := List.mem_filter.mp hbatch
    rw [hread b hin (of_decide_eq_true hown ▸ hmem)]
  unfold preparedOf at hlive
  unfold depletionRows rowsOfEntries
  rw [hr, hprep] at hlive ⊢
  refine congrArg _ (List.flatMap_congr fun i hmem => ?_)
  rw [hlive i hmem]

/-- The rows of a sale depend on the recipes, the ingredients, the batches and the
ledger only. -/
theorem depletionRows_congr {db db' : Db} (hr : db'.recipeItems = db.recipeItems)
    (hi : db'.ingredients = db.ingredients) (hb : db'.prepBatches = db.prepBatches)
    (hm : db'.movements = db.movements) (now : Instant) (orderId actorUserId : Uuid)
    (lines : List SoldLine) :
    depletionRows db' now orderId actorUserId lines
      = depletionRows db now orderId actorUserId lines :=
  depletionRows_asRead ⟨hr, hi, hb⟩ (fun b _ _ => by rw [hm]) now orderId actorUserId

/-- `depleteForOrder`.  Lines without a recipe leave no rows, and inserting no
rows changes nothing, so the early returns of the source need no case here. -/
def depleteForOrder (db : Db) (ctx : TenantContext) (now : Instant) (orderId : Uuid)
    (lines : List SoldLine) : Except ApiError Db := do
  let movements ← createMany db.movements (depletionRows db now orderId ctx.userId lines)
  pure (db.withMovements movements)

/-- A depletion that goes through appends its rows. -/
theorem depleteForOrder_ok {db db' : Db} {ctx : TenantContext} {now : Instant}
    {orderId : Uuid} {lines : List SoldLine}
    (h : depleteForOrder db ctx now orderId lines = .ok db') :
    ∃ new : List StockMovement,
      new.map (·.toNewMovement) = depletionRows db now orderId ctx.userId lines
        ∧ db' = db.withMovements (db.movements ++ new) := by
  obtain ⟨movements, h1, h2⟩ := bind_ok.mp h
  obtain ⟨new, hnew, rfl⟩ := createMany_ok h1
  exact ⟨new, hnew, (pure_ok.mp h2).symm⟩

/-- Every row of a sale is an unkeyed CONSUMPTION tagged with its order. -/
theorem rowsOfEntries_tagged {db : Db} {now : Instant} {orderId actorUserId : Uuid}
    {entries : List (Uuid × ℤ)} :
    ∀ m ∈ rowsOfEntries db now orderId actorUserId entries,
      ∃ i b q, m = consumptionRow orderId actorUserId i b q := by
  intro m hm
  rcases List.mem_append.mp hm with hm | hm
  · obtain ⟨e, -, rfl⟩ := List.mem_map.mp hm
    exact ⟨_, _, _, rfl⟩
  · obtain ⟨i, -, hm⟩ := List.mem_flatMap.mp hm
    obtain ⟨a, -, rfl⟩ := List.mem_map.mp hm
    exact ⟨_, _, _, rfl⟩

/-- Whose rows they are only labels the rows of a sale. -/
theorem rowsOfEntries_relabel (db : Db) (now : Instant) (orderId actorUserId : Uuid)
    (orderId' actorUserId' : Uuid) (entries : List (Uuid × ℤ)) :
    rowsOfEntries db now orderId actorUserId entries
      = (rowsOfEntries db now orderId' actorUserId' entries).map fun m =>
          { m with orderId := some orderId, actorUserId := some actorUserId } := by
  unfold rowsOfEntries
  simp only [List.map_append, List.map_map, List.map_flatMap]
  rfl

/-- Each of them has the order and is consumption. -/
theorem depletionRows_tagged {db : Db} {now : Instant} {orderId actorUserId : Uuid}
    {lines : List SoldLine} :
    ∀ m ∈ depletionRows db now orderId actorUserId lines,
      m.orderId = some orderId ∧ m.type = .consumption := by
  intro m hm
  obtain ⟨i, b, q, rfl⟩ := rowsOfEntries_tagged m hm
  exact ⟨rfl, rfl⟩

/-- What an allocation writes comes to minus its need, all at its ingredient. -/
theorem allocationRows_sum {db : Db} {now : Instant} (orderId actorUserId : Uuid)
    {i : Uuid} {need : ℤ} (h : 0 ≤ need) (ingredientId : Uuid) :
    sumWhere (fun m => decide (m.ingredientId = ingredientId)) (·.quantity)
        ((allocateFefo (liveBatches db i) need now).map fun a =>
          consumptionRow orderId actorUserId i a.prepBatchId a.quantity)
      = if i = ingredientId then -need else 0 := by
  rw [sumWhere_map]
  show sumWhere (fun _ => decide (i = ingredientId)) (fun a : Allocation => -a.quantity) _ = _
  rw [sumWhere_neg]
  by_cases hi : i = ingredientId
  · rw [if_pos hi]
    have hall := allocateFefo_sum (liveBatches db i) now h
    simpa [sumWhere, hi] using hall
  · rw [if_neg hi]
    simp [sumWhere, hi]

/-- **The rows of a sale at one ingredient** come to minus what was added up for
it, raw or prepared. -/
theorem rowsOfEntries_sum (db : Db) (now : Instant) (orderId actorUserId : Uuid)
    {entries : List (Uuid × ℤ)} (h : ∀ e ∈ entries, 0 ≤ e.2) (ingredientId : Uuid) :
    sumWhere (fun m => decide (m.ingredientId = ingredientId)) (·.quantity)
        (rowsOfEntries db now orderId actorUserId entries)
      = -sumWhere (fun e => decide (e.1 = ingredientId)) Prod.snd entries := by
  have hneed : ∀ i, 0 ≤ (Tally.tally entries).get i := fun i => by
    rw [Tally.get_tally]
    exact sumWhere_nonneg fun e he _ => h e he
  rw [← Tally.get_tally]
  set totals := Tally.tally entries with htotals
  set prepared := distinct ((entries.map Prod.fst).filter (isPrepared db)) with hprepared
  have hraw : sumWhere (fun m => decide (m.ingredientId = ingredientId)) (·.quantity)
      ((totals.filter fun e => !prepared.contains e.1).map fun e =>
        consumptionRow orderId actorUserId e.1 none e.2)
      = if ingredientId ∈ prepared then 0 else -totals.get ingredientId := by
    rw [sumWhere_map]
    show sumWhere (fun e : Uuid × ℤ => decide (e.1 = ingredientId)) (fun e => -e.2) _ = _
    rw [sumWhere_neg, sumWhere_filter]
    split
    next hin =>
      rw [sumWhere_eq_zero, neg_zero]
      intro e _ hp
      simp only [Bool.and_eq_true, decide_eq_true_eq] at hp
      exact absurd (hp.2 ▸ hin) (by simpa using hp.1)
    next hout =>
      rw [← Tally.sumWhere_eq_get (Tally.keys_tally_nodup entries)]
      congr 1
      refine sumWhere_congr (fun e _ => ?_) fun _ _ _ => rfl
      by_cases he : e.1 = ingredientId
      · simp [he, hout]
      · simp [he]
  have hfefo : sumWhere (fun m => decide (m.ingredientId = ingredientId)) (·.quantity)
      (prepared.flatMap fun i =>
        (allocateFefo (liveBatches db i) (totals.get i) now).map fun a =>
          consumptionRow orderId actorUserId i a.prepBatchId a.quantity)
      = if ingredientId ∈ prepared then -totals.get ingredientId else 0 := by
    rw [sumWhere_flatMap]
    simp only [allocationRows_sum orderId actorUserId (hneed _)]
    rw [sum_single (hprepared ▸ distinct_nodup _) fun i _ hi => if_neg hi, if_pos rfl]
  -- each ingredient is either raw or prepared
  show sumWhere _ _ (_ ++ _) = _
  rw [sumWhere_append, hraw, hfefo]
  split
  · exact zero_add _
  · exact add_zero _

/-- **The rows of a sale at one ingredient** come to minus the recipe demand. -/
theorem depletionRows_sum (db : Db) (now : Instant) (orderId actorUserId : Uuid)
    {lines : List SoldLine} (h : LinesNonneg lines) (ingredientId : Uuid) :
    sumWhere (fun m => decide (m.ingredientId = ingredientId)) (·.quantity)
        (depletionRows db now orderId actorUserId lines)
      = -demand db.recipeItems lines ingredientId := by
  unfold depletionRows demand
  rw [consumedEntries_recipesOf]
  exact rowsOfEntries_sum db now orderId actorUserId (consumedEntries_nonneg h) ingredientId

/-! ## §3. The rows of a reversal. -/

/-- `toStatus.toLowerCase()`. -/
def statusText : OrderStatus → String
  | .draft => "draft"
  | .placed => "placed"
  | .preparing => "preparing"
  | .ready => "ready"
  | .completed => "completed"
  | .cancelled => "cancelled"
  | .voided => "voided"

/-- The order's own consumption, as the reversal reads it back. -/
def consumedOf (movements : List StockMovement) (orderId : Uuid) :
    List StockMovement :=
  movements.filter fun m => m.orderId = some orderId && m.type = .consumption

/-- One ADJUSTMENT per (ingredient, batch) with anything to return. -/
def restockRows (movements : List StockMovement) (orderId actorUserId : Uuid)
    (toStatus : OrderStatus) : List NewMovement :=
  let totals := Tally.tally ((consumedOf movements orderId).map fun m =>
    ((m.ingredientId, m.prepBatchId), -m.quantity))
  (totals.filter fun t => decide (t.2 ≠ 0)).map fun t =>
    { ingredientId := t.1.1, type := .adjustment, quantity := t.2,
      orderId := some orderId, prepBatchId := t.1.2, supplierId := none,
      totalCostMinor := none,
      note := some ("Stock returned: order " ++ statusText toStatus),
      actorUserId := some actorUserId, idempotencyKey := none }

/-- `restockForReversedOrder`. -/
def restockForReversedOrder (db : Db) (ctx : TenantContext) (orderId : Uuid)
    (toStatus : OrderStatus) : Except ApiError Db := do
  let movements ← createMany db.movements
    (restockRows db.movements orderId ctx.userId toStatus)
  pure (db.withMovements movements)

theorem restockForReversedOrder_ok {db db' : Db} {ctx : TenantContext} {orderId : Uuid}
    {toStatus : OrderStatus}
    (h : restockForReversedOrder db ctx orderId toStatus = .ok db') :
    ∃ new : List StockMovement,
      new.map (·.toNewMovement) = restockRows db.movements orderId ctx.userId toStatus
        ∧ db' = db.withMovements (db.movements ++ new) := by
  obtain ⟨movements, h1, h2⟩ := bind_ok.mp h
  obtain ⟨new, hnew, rfl⟩ := createMany_ok h1
  exact ⟨new, hnew, (pure_ok.mp h2).symm⟩

/-- Each of them has the order and is an adjustment. -/
theorem restockRows_tagged {movements : List StockMovement} {orderId actorUserId : Uuid}
    {toStatus : OrderStatus} :
    ∀ m ∈ restockRows movements orderId actorUserId toStatus,
      m.orderId = some orderId ∧ m.type = .adjustment := by
  intro m hm
  obtain ⟨t, -, rfl⟩ := List.mem_map.mp hm
  exact ⟨rfl, rfl⟩

/-- **A reversal cancels the order's consumption**, whatever set of ingredients
and batches it is summed over. -/
theorem restockRows_cancel (movements : List StockMovement) (orderId actorUserId : Uuid)
    (toStatus : OrderStatus) (p : Uuid × Option Uuid → Bool) :
    sumWhere (fun m => decide (m.orderId = some orderId) && p (m.ingredientId, m.prepBatchId))
        (·.quantity) (restockRows movements orderId actorUserId toStatus)
      = -taggedSum (consumedOf movements orderId) orderId p := by
  unfold restockRows taggedSum ledgerSum
  rw [sumWhere_map]
  show sumWhere (fun t : (Uuid × Option Uuid) × ℤ => decide (some orderId = some orderId) && p t.1)
    (fun t => t.2) _ = _
  -- totals of zero are not returned, and count for nothing
  rw [sumWhere_filter_ne_zero]
  simp only [decide_true, Bool.true_and]
  show sumWhere (fun t : (Uuid × Option Uuid) × ℤ => p t.1) Prod.snd _ = _
  rw [Tally.sumWhere_tally p, sumWhere_map]
  show sumWhere (fun m : StockMovement => p (m.ingredientId, m.prepBatchId))
    (fun m => -m.quantity) _ = _
  rw [sumWhere_neg]
  congr 1
  refine sumWhere_congr (fun m hm => ?_) fun _ _ _ => rfl
  have horder : m.orderId = some orderId := by
    have := (List.mem_filter.mp hm).2
    simp only [Bool.and_eq_true, decide_eq_true_eq] at this
    exact this.1
  show p (m.ingredientId, m.prepBatchId) = _
  simp [horder]

end OraOS.Inventory
