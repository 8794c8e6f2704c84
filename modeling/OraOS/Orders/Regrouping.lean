/-
  OraOS.Orders.Regrouping — the stock a sale takes depends on what was sold, not on
  how the order lists it.

  `soldOf lines productId` is how much of a product a depletion list sells.  Two
  lists that sell the same of every product reach the same ingredients with the
  same demand (`demand_eq`), so the totals the loop leaves agree up to their order,
  each prepared ingredient is allocated alike, and the rows are the same multiset.

    * `depletionRows_perm`       — the rows of two such lists;
    * `directConsumption_perm`   — the consumption of two placements.
-/
import OraOS.Orders.HoldThenPlace

namespace OraOS.Orders

open OraOS.Api
open OraOS.Lib
open OraOS.Inventory

/-! ## §1. What was sold, and the demand it makes. -/

/-- How much of a product the lines sell. -/
def soldOf (lines : List SoldLine) (productId : Uuid) : ℤ :=
  sumWhere (fun l => decide (l.productId = productId)) (·.quantity) lines

/-- Recipe quantity times line quantity, summed over the lines. -/
def recipeUse (recipeItems : List RecipeItem) (lines : List SoldLine) (ingredientId : Uuid) : ℤ :=
  (lines.map fun line =>
    sumWhere (fun r => decide (r.productId = line.productId) && decide (r.ingredientId = ingredientId))
      (·.quantity) recipeItems * line.quantity).sum

/-- The demand of the depletion loop is the recipes' use. -/
theorem demand_eq_recipeUse (recipeItems : List RecipeItem) (lines : List SoldLine)
    (ingredientId : Uuid) :
    demand recipeItems lines ingredientId = recipeUse recipeItems lines ingredientId := by
  unfold demand consumedEntries recipeUse
  rw [sumWhere_flatMap]
  congr 1
  apply List.map_congr_left
  intro line _
  rw [sumWhere_map, sumWhere_filter]
  exact sumWhere_mul _ (fun r : RecipeItem => r.quantity) line.quantity recipeItems

/-- The demand of one line, recipe item by recipe item. -/
theorem demand_line (recipeItems : List RecipeItem) (line : SoldLine) (ingredientId : Uuid) :
    demand recipeItems [line] ingredientId
      = sumWhere (fun r => decide (r.ingredientId = ingredientId))
          (fun r => if line.productId = r.productId then r.quantity * line.quantity else 0)
          recipeItems := by
  unfold demand consumedEntries
  rw [sumWhere_flatMap, List.map_singleton, List.sum_singleton, sumWhere_map, sumWhere_filter]
  induction recipeItems with
  | nil => rfl
  | cons r rs ih =>
      rw [sumWhere_cons, sumWhere_cons, ih]
      by_cases hp : line.productId = r.productId
      · simp [hp]
      · have hp' : ¬ r.productId = line.productId := fun h => hp h.symm
        simp [hp, hp']

/-- **The demand sees the lines through what they sell**: each recipe item, times
how much of its product was sold. -/
theorem demand_eq (recipeItems : List RecipeItem) (lines : List SoldLine) (ingredientId : Uuid) :
    demand recipeItems lines ingredientId
      = sumWhere (fun r => decide (r.ingredientId = ingredientId))
          (fun r => r.quantity * soldOf lines r.productId) recipeItems := by
  induction lines with
  | nil =>
      symm
      apply sumWhere_eq_zero
      intro r _ _
      show r.quantity * 0 = 0
      ring
  | cons line lines ih =>
      have hcons : ∀ r : RecipeItem, r.quantity * soldOf (line :: lines) r.productId
          = (if line.productId = r.productId then r.quantity * line.quantity else 0)
            + r.quantity * soldOf lines r.productId := by
        intro r
        unfold soldOf
        rw [sumWhere_cons]
        by_cases h : line.productId = r.productId
        · simp [h]
          ring
        · simp [h]
      have happ := demand_append recipeItems [line] lines ingredientId
      rw [List.singleton_append] at happ
      rw [happ, demand_line, ih, ← sumWhere_add]
      simp only [hcons]

/-! ## §2. Lists that sell the same reach the same ingredients. -/

/-- Every line sells something. -/
def LinesPos (lines : List SoldLine) : Prop := ∀ l ∈ lines, 0 < l.quantity

/-- A product is on a list of positive lines when it sells any of it. -/
theorem mem_lines_iff {lines : List SoldLine} (h : LinesPos lines) (productId : Uuid) :
    (∃ l ∈ lines, l.productId = productId) ↔ 0 < soldOf lines productId := by
  constructor
  · intro hl
    obtain ⟨l, hl, hp⟩ := hl
    exact sumWhere_pos (fun b hb _ => (h b hb).le) hl (by simpa using hp) (h l hl)
  · intro hpos
    by_contra hnone
    have hzero : soldOf lines productId = 0 := by
      apply sumWhere_eq_zero
      intro l hl hp
      exact absurd ⟨l, hl, by simpa using hp⟩ hnone
    omega

theorem mem_consumedEntries_keys {recipeItems : List RecipeItem} {lines : List SoldLine}
    (h : LinesPos lines) (ingredientId : Uuid) :
    ingredientId ∈ (consumedEntries recipeItems lines).map Prod.fst
      ↔ ∃ r ∈ recipeItems, r.ingredientId = ingredientId ∧ 0 < soldOf lines r.productId := by
  unfold consumedEntries
  rw [List.map_flatMap, List.mem_flatMap]
  constructor
  · intro hin
    obtain ⟨line, hline, hin⟩ := hin
    rw [List.map_map, List.mem_map] at hin
    obtain ⟨r, hr, hi⟩ := hin
    obtain ⟨hr, hp⟩ := List.mem_filter.mp hr
    refine ⟨r, hr, hi, (mem_lines_iff h r.productId).mp ⟨line, hline, ?_⟩⟩
    simpa using (by simpa using hp : r.productId = line.productId).symm
  · intro hr
    obtain ⟨r, hr, hi, hsold⟩ := hr
    obtain ⟨line, hline, hp⟩ := (mem_lines_iff h r.productId).mpr hsold
    refine ⟨line, hline, ?_⟩
    rw [List.map_map]
    refine List.mem_map.mpr ⟨r, List.mem_filter.mpr ⟨hr, by simpa using hp.symm⟩, hi⟩

/-- Every line sells something. -/
theorem placementLines_pos (db : Db) (items : List OrderItemDto) :
    LinesPos (placementLines db items) := by
  intro l hl
  obtain ⟨item, -, hl⟩ := List.mem_flatMap.mp hl
  have hq := item.quantity_ok.1
  unfold placementOf comboLines at hl
  split at hl
  next =>
    split at hl
    next c _ =>
      obtain ⟨ci, -, rfl⟩ := List.mem_map.mp hl
      exact mul_pos ci.quantity_pos (by omega)
    next => cases hl
  next =>
    obtain ⟨id, -, rfl⟩ := List.mem_map.mp hl
    show 0 < item.quantity
    omega

/-! ## §3. The same rows. -/

/-- The rows of two lists of entries with the same keys and totals. -/
theorem rowsOfEntries_perm (db : Db) (now : Instant) (orderId actorUserId : Uuid)
    {es es' : List (Uuid × ℤ)} (hkeys : ∀ k, k ∈ es.map Prod.fst ↔ k ∈ es'.map Prod.fst)
    (hsum : ∀ k, sumWhere (fun e => decide (e.1 = k)) Prod.snd es
      = sumWhere (fun e => decide (e.1 = k)) Prod.snd es') :
    (rowsOfEntries db now orderId actorUserId es).Perm
      (rowsOfEntries db now orderId actorUserId es') := by
  have hprepared : ∀ k, k ∈ (es.map Prod.fst).filter (isPrepared db)
      ↔ k ∈ (es'.map Prod.fst).filter (isPrepared db) := by
    intro k
    rw [List.mem_filter, List.mem_filter, hkeys k]
  have hget : (Tally.tally es).get = (Tally.tally es').get := by
    funext k
    rw [Tally.get_tally, Tally.get_tally, hsum k]
  unfold rowsOfEntries
  dsimp only
  apply List.Perm.append
  · -- raw ingredients: one row each
    apply List.Perm.map
    have hcontains : ∀ e : Uuid × ℤ,
        (!(distinct ((es.map Prod.fst).filter (isPrepared db))).contains e.1)
          = !(distinct ((es'.map Prod.fst).filter (isPrepared db))).contains e.1 := by
      intro e
      rw [(distinct_perm hprepared).contains_eq]
    simp only [hcontains]
    exact (Tally.tally_perm hkeys hsum).filter _
  · -- prepared ones: the same need from the same batches
    rw [hget]
    exact (distinct_perm hprepared).flatMap_right _

/-- **The rows of a sale depend on what it sells only.** -/
theorem depletionRows_perm (db : Db) (now : Instant) (orderId actorUserId : Uuid)
    {lines lines' : List SoldLine} (hpos : LinesPos lines) (hpos' : LinesPos lines')
    (hsold : ∀ p, soldOf lines p = soldOf lines' p) :
    (depletionRows db now orderId actorUserId lines).Perm
      (depletionRows db now orderId actorUserId lines') := by
  unfold depletionRows
  rw [consumedEntries_recipesOf, consumedEntries_recipesOf]
  apply rowsOfEntries_perm
  · intro k
    rw [mem_consumedEntries_keys hpos, mem_consumedEntries_keys hpos']
    simp only [hsold]
  · intro k
    show demand db.recipeItems lines k = demand db.recipeItems lines' k
    rw [demand_eq, demand_eq]
    simp only [hsold]

/-- Two placements from one state, at one instant, that sell the same. -/
theorem directConsumption_perm {db : Db} {ctx ctx' : TenantContext} {env env' : Env}
    {dto dto' : CreateOrderDto} {ds ds' : List Consumption}
    (hplaced : dto.held = false) (hplaced' : dto'.held = false)
    (hnew : findByIdempotencyKey db dto.idempotencyKey = none)
    (hnew' : findByIdempotencyKey db dto'.idempotencyKey = none) (hnow : env'.now = env.now)
    (hsold : ∀ productId, soldOf (placementLines db dto.items) productId
      = soldOf (placementLines db dto'.items) productId)
    (h : directConsumption db ctx env dto = .ok ds)
    (h' : directConsumption db ctx' env' dto' = .ok ds') :
    ds.Perm ds' ∧ ∀ ingredientId,
      sumWhere (fun c : Consumption => decide (c.1 = ingredientId)) (fun c => c.2.2) ds
        = -recipeUse db.recipeItems (placementLines db dto.items) ingredientId := by
  obtain ⟨moved, hmoved, rfl⟩ := directConsumption_ok hplaced hnew h
  obtain ⟨moved', hmoved', rfl⟩ := directConsumption_ok hplaced' hnew' h'
  have hrows : ∀ {rows : List NewMovement} {moved : List StockMovement},
      moved.map (·.toNewMovement) = rows →
        (moved.map fun m => consumptionOf m.toNewMovement) = rows.map consumptionOf := by
    intro rows moved hm
    rw [← hm, List.map_map]
    rfl
  rw [hrows hmoved, hrows hmoved', hnow]
  constructor
  · -- whose rows they are is no part of a consumption
    have hlabel : (depletionRows db env.now env'.newId ctx'.userId
          (placementLines db dto'.items)).map consumptionOf
        = (depletionRows db env.now env.newId ctx.userId
          (placementLines db dto'.items)).map consumptionOf := by
      unfold depletionRows
      rw [rowsOfEntries_relabel db env.now env'.newId ctx'.userId env.newId ctx.userId,
        List.map_map]
      rfl
    rw [hlabel]
    exact (depletionRows_perm db env.now env.newId ctx.userId (placementLines_pos db _)
      (placementLines_pos db _) hsold).map consumptionOf
  · intro ingredientId
    rw [consumption_sum _ _ _ _ (placementLines_nonneg _ _), demand_eq_recipeUse]

/-! ## §4. A combo against its parts. -/

theorem pair_ok : (1 : ℤ) ≤ 2 := by decide

/-- Two lassis and a samosa, sold alone or together. -/
def snackBar : Db :=
  { lassiBar with
    products := lassiBar.products ++ [⟨6, "Samosa", 500, 500, true, by decide⟩]
    combos := [⟨2, "Snack for two", 2200, 500, true, [⟨1, 2, 0, pair_ok⟩, ⟨6, 1, 1, by decide⟩],
      by decide⟩]
    ingredients := lassiBar.ingredients ++ [⟨7, "Potato", none, true, false, none, none⟩]
    recipeItems := lassiBar.recipeItems ++ [⟨6, 7, 80, by decide⟩] }

/-- The same snack, line by line. -/
def snackByParts : CreateOrderDto :=
  { lassiOrder none none none with
    items := [oneOf (some 6) none, oneOf (some 1) none, oneOf (some 1) none]
    items_ok := by decide }

/-- The snack takes what its parts take, as one line or as three. -/
theorem directConsumption_perm_snack :
    ([(4, none, -300), (7, none, -80)] : List Consumption).Perm [(7, none, -80), (4, none, -300)]
      ∧ ∀ ingredientId,
        sumWhere (fun c : Consumption => decide (c.1 = ingredientId)) (fun c => c.2.2)
            [(4, none, -300), (7, none, -80)]
          = -recipeUse snackBar.recipeItems (placementLines snackBar (comboOrder none).items)
              ingredientId :=
  @directConsumption_perm snackBar cashier cashier ⟨20, 0⟩ ⟨21, 0⟩ (comboOrder none) snackByParts
    [(4, none, -300), (7, none, -80)] [(7, none, -80), (4, none, -300)] rfl rfl rfl rfl rfl
    (by
      intro productId
      show sumWhere _ _ [(⟨1, 2 * 1⟩ : SoldLine), ⟨6, 1 * 1⟩]
        = sumWhere _ _ [(⟨6, 1⟩ : SoldLine), ⟨1, 1⟩, ⟨1, 1⟩]
      simp only [sumWhere_cons, sumWhere_nil]
      split <;> split <;> omega)
    rfl rfl

end OraOS.Orders
