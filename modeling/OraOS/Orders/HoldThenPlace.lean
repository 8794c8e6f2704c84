/-
  OraOS.Orders.HoldThenPlace — parking an order and resuming it, against placing
  it directly: do both take the same stock?

  Placing expands the combos of the request; resuming rebuilds the list from the
  stored items, whose combo lines carry no product.

    * `demand_placement`        — placing consumes what resuming does and the
                                  combo components on top;
    * `resumedConsumption_iff`  — so the rows agree exactly when no component of
                                  an ordered combo has a recipe.
-/
import OraOS.Orders.Lifecycle

namespace OraOS.Orders

open OraOS.Api
open OraOS.Lib
open OraOS.Inventory

/-! ## §1. The two paths. -/

/-- A CONSUMPTION row as stock sees it: ingredient, batch, quantity. -/
abbrev Consumption := Uuid × Option Uuid × ℤ

/-- What a row says was consumed, without its ids. -/
def consumptionOf (m : NewMovement) : Consumption := (m.ingredientId, m.prepBatchId, m.quantity)

/-- The CONSUMPTION rows a ledger gained since it was `before`. -/
def consumptionSince (before after : List StockMovement) : List Consumption :=
  ((after.drop before.length).filter fun m => decide (m.type = .consumption)).map fun m =>
    consumptionOf m.toNewMovement

/-- What placing an order consumes. -/
def directConsumption (db : Db) (ctx : TenantContext) (env : Env) (dto : CreateOrderDto) :
    Except ApiError (List Consumption) := do
  let (_, db', _) ← create db ctx env dto
  pure (consumptionSince db.movements db'.movements)

/-- What parking an order and resuming it consumes. -/
def resumedConsumption (db : Db) (ctx ctx' : TenantContext) (env : Env) (dto : CreateOrderDto)
    (now : Instant) (reason : Option String) : Except ApiError (List Consumption) := do
  let (o, db', _) ← create db ctx env dto
  let db'' ← updateStatus db' ctx' now o.id .placed reason
  pure (consumptionSince db.movements db''.movements)

/-- No component of the line's combo has a recipe. -/
def ComboConsumesNothing (db : Db) (item : OrderItemDto) : Prop :=
  ∀ comboId ∈ item.comboId, ∀ c ∈ findCombo db comboId, ∀ ci ∈ componentsOf c,
    ∀ r ∈ db.recipeItems, r.productId ≠ ci.productId

/-! ## §2. The lists handed to the depletion. -/

/-- The combo part of a request's placement. -/
def componentLines (db : Db) (items : List OrderItemDto) : List SoldLine :=
  items.flatMap fun item =>
    match item.comboId with
    | some comboId => comboLines db comboId item.quantity
    | none => []

/-- A combo's components are counted up. -/
theorem componentLines_nonneg (db : Db) (items : List OrderItemDto) :
    LinesNonneg (componentLines db items) := by
  intro l hl
  obtain ⟨item, hitem, hl⟩ := List.mem_flatMap.mp hl
  refine placementLines_nonneg db items l (List.mem_flatMap.mpr ⟨item, hitem, ?_⟩)
  unfold placementOf
  cases hc : item.comboId with
  | some comboId =>
      rw [hc] at hl
      exact hl
  | none =>
      rw [hc] at hl
      cases hl

/-- **Placing consumes more than resuming** by the demand of the combos'
components. -/
theorem demand_placement (db : Db) (items : List OrderItemDto) (ingredientId : Uuid) :
    demand db.recipeItems (placementLines db items) ingredientId
      = demand db.recipeItems (productLines items) ingredientId
        + demand db.recipeItems (componentLines db items) ingredientId := by
  induction items with
  | nil => rfl
  | cons item items ih =>
      simp only [placementLines, productLines, componentLines, List.flatMap_cons] at ih ⊢
      rw [demand_append, demand_append, demand_append, ih]
      unfold placementOf
      -- a line is of a combo or of a product, and adds to one of the two sums only
      cases item.comboId with
      | some comboId =>
          have hnil : demand db.recipeItems [] ingredientId = 0 := rfl
          simp only [Option.isSome_some, if_true, hnil]
          ring
      | none =>
          have hnil : demand db.recipeItems [] ingredientId = 0 := rfl
          simp only [Option.isSome_none, Bool.false_eq_true, if_false, hnil]
          ring

/-- Components without recipes leave nothing to consume. -/
theorem consumedEntries_placement {db : Db} {items : List OrderItemDto}
    (h : ∀ item ∈ items, ComboConsumesNothing db item) :
    consumedEntries db.recipeItems (placementLines db items)
      = consumedEntries db.recipeItems (productLines items) := by
  induction items with
  | nil => rfl
  | cons item items ih =>
      have htail := ih fun i hi => h i (List.mem_cons_of_mem _ hi)
      have hitem := h item List.mem_cons_self
      simp only [placementLines, productLines, List.flatMap_cons] at htail ⊢
      rw [consumedEntries_append, consumedEntries_append, htail]
      congr 1
      unfold placementOf comboLines
      cases hc : item.comboId with
      | none => rfl
      | some comboId =>
          simp only
          cases hf : findCombo db comboId with
          | none => rfl
          | some c =>
              refine List.flatMap_eq_nil_iff.mpr fun line hline => ?_
              obtain ⟨ci, hci, rfl⟩ := List.mem_map.mp hline
              rw [List.map_eq_nil_iff, List.filter_eq_nil_iff]
              -- no recipe row is of a component, so the line draws nothing
              intro r hr
              have hne := hitem comboId hc c hf ci hci r hr
              simpa using hne

/-- A component with a recipe is a demand that resuming does not see. -/
theorem demand_component_pos {db : Db} {items : List OrderItemDto}
    (h : ¬ ∀ item ∈ items, ComboConsumesNothing db item) :
    ∃ ingredientId, 0 < demand db.recipeItems (componentLines db items) ingredientId := by
  unfold ComboConsumesNothing at h
  push Not at h
  obtain ⟨item, hitem, comboId, hc, c, hf, ci, hci, r, hr, hid⟩ := h
  refine ⟨r.ingredientId, ?_⟩
  have hline : (⟨ci.productId, ci.quantity * item.quantity⟩ : SoldLine)
      ∈ componentLines db items := by
    refine List.mem_flatMap.mpr ⟨item, hitem, ?_⟩
    rw [Option.mem_def.mp hc]
    show _ ∈ comboLines db comboId item.quantity
    unfold comboLines
    rw [Option.mem_def.mp hf]
    exact List.mem_map_of_mem (f := fun ci : ComboItem =>
      (⟨ci.productId, ci.quantity * item.quantity⟩ : SoldLine)) hci
  -- the recipe row of the component is an entry, and no entry is negative
  have hentry : (r.ingredientId, r.quantity * (ci.quantity * item.quantity))
      ∈ consumedEntries db.recipeItems (componentLines db items) := by
    refine List.mem_flatMap.mpr ⟨_, hline, List.mem_map.mpr ⟨r, ?_, rfl⟩⟩
    rw [List.mem_filter]
    exact ⟨hr, by simpa using hid⟩
  have hq := ci.quantity_pos
  have hn := item.quantity_ok.1
  refine sumWhere_pos (fun e he _ => consumedEntries_nonneg (componentLines_nonneg db items) e he)
    hentry (by simp) ?_
  exact mul_pos r.quantity_pos (mul_pos (by omega) (by omega))

/-! ## §3. What each path consumes. -/

/-- Placing consumes the rows of its placement lines, and they are all stored. -/
theorem directConsumption_ok {db : Db} {ctx : TenantContext} {env : Env} {dto : CreateOrderDto}
    {ds : List Consumption} (hplaced : dto.held = false)
    (hnew : findByIdempotencyKey db dto.idempotencyKey = none)
    (h : directConsumption db ctx env dto = .ok ds) :
    ∃ moved : List StockMovement,
      moved.map (·.toNewMovement)
          = depletionRows db env.now env.newId ctx.userId (placementLines db dto.items)
        ∧ ds = moved.map fun m => consumptionOf m.toNewMovement := by
  obtain ⟨⟨o, db', hooks⟩, hcreate, h⟩ := bind_ok.mp h
  cases pure_ok.mp h
  rcases (create_ok hcreate).2 with ⟨hold, -, -⟩ | ⟨hins, -⟩
  · rw [hnew] at hold
    cases hold
  -- the key is new, so the order is created and not handed back
  · obtain ⟨paid, moved, spent, redemptions, logs, hi, rfl⟩ := insert_ok hins
    have hmoved := hi.moved
    unfold DepletedAtPlacement at hmoved
    rw [hplaced, if_neg Bool.false_ne_true, hi.id] at hmoved
    refine ⟨moved, hmoved, ?_⟩
    show consumptionSince db.movements (db.movements ++ moved) = _
    unfold consumptionSince
    rw [List.drop_left, List.filter_eq_self.mpr]
    intro m hm
    have hrow : m.toNewMovement ∈ depletionRows db env.now env.newId ctx.userId
        (placementLines db dto.items) := hmoved ▸ List.mem_map_of_mem hm
    simpa using (depletionRows_tagged _ hrow).2

/-- A parked order is a DRAFT with the lines of its request and no movements. -/
theorem create_held {db db' : Db} {ctx : TenantContext} {env : Env} {dto : CreateOrderDto}
    {o : Order} {hooks : List Hook} (hheld : dto.held = true)
    (hnew : findByIdempotencyKey db dto.idempotencyKey = none)
    (h : create db ctx env dto = .ok (o, db', hooks)) :
    db'.findOrder o.id = some o ∧ o.status = .draft ∧ resumeLines o.items = productLines dto.items
      ∧ db'.movements = db.movements
      ∧ ∀ now actorUserId lines, depletionRows db' now o.id actorUserId lines
          = depletionRows db now o.id actorUserId lines := by
  rcases (create_ok h).2 with ⟨hold, -, -⟩ | ⟨hins, -⟩
  · rw [hnew] at hold
    cases hold
  · obtain ⟨paid, moved, spent, redemptions, logs, hi, rfl⟩ := insert_ok hins
    -- depletion at placement is skipped for a held order
    have hmoved : moved = [] := by
      have := hi.moved
      unfold DepletedAtPlacement at this
      rw [if_pos hheld] at this
      exact List.map_eq_nil_iff.mp this
    subst hmoved
    have hmovements : (inserted db ctx o paid [] spent redemptions logs).movements
        = db.movements := by
      rw [inserted_movements, List.append_nil]
    refine ⟨?_, ?_, resumeLines_priced hi.priced rfl, hmovements, ?_⟩
    · show (db.orders ++ [o]).find? (fun x => x.id = o.id) = some o
      rw [List.find?_append, List.find?_eq_none.mpr]
      · simp
      · intro x hx
        have := hi.fresh x hx
        rw [hi.id]
        simpa using this
    · rw [hi.status, if_pos hheld]
    · intro now actorUserId lines
      exact depletionRows_congr (inserted_recipeItems ..) (inserted_ingredients ..)
        (inserted_prepBatches ..) hmovements _ _ _ _

/-- Resuming, when it succeeds, consumes the rows of the product lines. -/
theorem resumedConsumption_ok {db : Db} {ctx ctx' : TenantContext} {env : Env}
    {dto : CreateOrderDto} {now : Instant} {reason : Option String} {rs : List Consumption}
    (hheld : dto.held = true) (hnew : findByIdempotencyKey db dto.idempotencyKey = none)
    (h : resumedConsumption db ctx ctx' env dto now reason = .ok rs) :
    ∃ orderId, rs = (depletionRows db now orderId ctx'.userId (productLines dto.items)).map
      consumptionOf := by
  obtain ⟨⟨o, db₁, hooks⟩, hcreate, h⟩ := bind_ok.mp h
  obtain ⟨db₂, hupdate, h⟩ := bind_ok.mp h
  cases pure_ok.mp h
  obtain ⟨hfind, hdraft, hlines, hmovements, hrows⟩ := create_held hheld hnew hcreate
  obtain ⟨o', ho', hcase⟩ := updateStatus_ok hupdate
  -- the order that is resumed is the one that was parked
  cases hfind.symm.trans ho'
  refine ⟨o.id, ?_⟩
  rcases hcase with ⟨hplaced, -⟩ | ⟨-, moved, logs, hmoved, rfl⟩
  · rw [hdraft] at hplaced
    cases hplaced
  · have hres : resuming o.status .placed = true := by
      rw [hdraft]
      rfl
    unfold MovedOnChange at hmoved
    rw [if_pos hres, hrows, hlines] at hmoved
    have hafter : (statusChanged db₁ ctx' now o .placed reason moved
        (db₁.auditLogs ++ logs)).movements = db.movements ++ moved := by
      rw [← hmovements]
      rfl
    unfold consumptionSince
    rw [hafter, List.drop_left, List.filter_eq_self.mpr, ← hmoved, List.map_map]
    · rfl
    · intro m hm
      have hrow : m.toNewMovement ∈ depletionRows db now o.id ctx'.userId
          (productLines dto.items) := hmoved ▸ List.mem_map_of_mem hm
      simpa using (depletionRows_tagged _ hrow).2

/-- Resuming is refused only when the ledger refuses a row. -/
theorem resumedConsumption_stored {db : Db} {ctx ctx' : TenantContext} {env : Env}
    {dto : CreateOrderDto} {now : Instant} (reason : Option String) (hheld : dto.held = true)
    (hnew : findByIdempotencyKey db dto.idempotencyKey = none)
    (hparked : ∃ r, create db ctx env dto = .ok r)
    (hs : ∀ orderId, ∀ m ∈ depletionRows db now orderId ctx'.userId (productLines dto.items),
      m.Storable) :
    ∃ rs, resumedConsumption db ctx ctx' env dto now reason = .ok rs := by
  obtain ⟨⟨o, db₁, hooks⟩, hcreate⟩ := hparked
  obtain ⟨hfind, hdraft, hlines, -, hrows⟩ := create_held hheld hnew hcreate
  obtain ⟨db₂, hupdate⟩ := updateStatus_resume ctx' now reason hfind hdraft (by
    rw [hlines, hrows]
    exact hs o.id)
  exact ⟨_, bind_ok.mpr ⟨_, hcreate, bind_ok.mpr ⟨_, hupdate, rfl⟩⟩⟩

/-! ## §4. The two paths agree exactly when the combos consume nothing. -/

/-- The consumption of a sale at one ingredient, off its rows. -/
theorem consumption_sum (db : Db) (now : Instant) (orderId actorUserId : Uuid)
    {lines : List SoldLine} (h : LinesNonneg lines) (ingredientId : Uuid) :
    sumWhere (fun c : Consumption => decide (c.1 = ingredientId)) (fun c => c.2.2)
        ((depletionRows db now orderId actorUserId lines).map consumptionOf)
      = -demand db.recipeItems lines ingredientId := by
  rw [sumWhere_map]
  exact depletionRows_sum db now orderId actorUserId h ingredientId

theorem productLines_nonneg (items : List OrderItemDto) : LinesNonneg (productLines items) := by
  intro l hl
  obtain ⟨item, -, hl⟩ := List.mem_flatMap.mp hl
  have hq := item.quantity_ok.1
  split at hl
  · cases hl
  · obtain ⟨id, -, rfl⟩ := List.mem_map.mp hl
    show 0 ≤ item.quantity
    omega

/-- **Parking and resuming takes the stock that placing directly takes if and only
if no component of an ordered combo has a recipe.** -/
theorem resumedConsumption_iff {db : Db} {ctx ctx' : TenantContext} {envH envD : Env}
    {held placed : CreateOrderDto} {reason : Option String} {ds : List Consumption}
    (hheld : held.held = true) (hplaced : placed.held = false)
    (hitems : held.items = placed.items)
    (hnewH : findByIdempotencyKey db held.idempotencyKey = none)
    (hnewD : findByIdempotencyKey db placed.idempotencyKey = none)
    (hparked : ∃ r, create db ctx envH held = .ok r)
    (hdirect : directConsumption db ctx envD placed = .ok ds) :
    (∃ rs, resumedConsumption db ctx ctx' envH held envD.now reason = .ok rs ∧ rs.Perm ds)
      ↔ ∀ item ∈ placed.items, ComboConsumesNothing db item := by
  obtain ⟨moved, hmoved, rfl⟩ := directConsumption_ok hplaced hnewD hdirect
  have hds : (moved.map fun m => consumptionOf m.toNewMovement)
      = (depletionRows db envD.now envD.newId ctx.userId (placementLines db placed.items)).map
          consumptionOf := by
    rw [← hmoved, List.map_map]
    rfl
  constructor
  · -- equal rows have equal sums, and a component with a recipe is missing from one
    rintro ⟨rs, hresumed, hperm⟩
    by_contra hcombo
    obtain ⟨ingredientId, hpos⟩ := demand_component_pos hcombo
    obtain ⟨orderId, rfl⟩ := resumedConsumption_ok hheld hnewH hresumed
    have hsum := sumWhere_perm (p := fun c : Consumption => decide (c.1 = ingredientId))
      (f := fun c => c.2.2) hperm
    rw [hds, consumption_sum _ _ _ _ (productLines_nonneg _),
      consumption_sum _ _ _ _ (placementLines_nonneg _ _), demand_placement, hitems] at hsum
    omega
  · -- the combos add nothing to the entries, so the rows differ in their labels only
    intro hcombo
    have hrows : ∀ orderId, depletionRows db envD.now orderId ctx'.userId
        (productLines held.items)
        = (depletionRows db envD.now envD.newId ctx.userId
            (placementLines db placed.items)).map fun m =>
          { m with orderId := some orderId, actorUserId := some ctx'.userId } := by
      intro orderId
      unfold depletionRows
      rw [consumedEntries_recipesOf, consumedEntries_recipesOf, hitems,
        consumedEntries_placement hcombo]
      exact rowsOfEntries_relabel _ _ _ _ _ _ _
    have hstored : ∀ orderId, ∀ m ∈ depletionRows db envD.now orderId ctx'.userId
        (productLines held.items), m.Storable := by
      intro orderId m hm
      rw [hrows, ← hmoved] at hm
      obtain ⟨m', hm', rfl⟩ := List.mem_map.mp hm
      obtain ⟨r, -, rfl⟩ := List.mem_map.mp hm'
      exact ⟨r.storable.1, r.storable.2, r.storable.3, r.storable.4, r.storable.5⟩
    obtain ⟨rs, hresumed⟩ := resumedConsumption_stored reason hheld hnewH hparked hstored
    refine ⟨rs, hresumed, ?_⟩
    obtain ⟨orderId, rfl⟩ := resumedConsumption_ok hheld hnewH hresumed
    rw [hds, hrows, List.map_map]
    exact List.Perm.refl _

/-! ## §5. A combo with a recipe. -/

/-- One combo, held or placed. -/
def comboOrder (hold : Option Bool) : CreateOrderDto :=
  orderOf (oneOf none (some 2)) hold none none

/-- Placed directly the combo takes its curd; parked and resumed it takes none. -/
theorem resumed_combo_takes_no_stock :
    (comboOrder (some true)).items = (comboOrder none).items
      ∧ directConsumption lassiBar cashier ⟨20, 0⟩ (comboOrder none) = .ok [(4, none, -300)]
      ∧ resumedConsumption lassiBar cashier cashier ⟨20, 0⟩ (comboOrder (some true)) 0 none
          = .ok []
      ∧ ¬ ([] : List Consumption).Perm [(4, none, -300)] := by
  refine ⟨rfl, ?_, ?_, ?_⟩
  · rfl
  · rfl
  · intro h
    exact absurd h.length_eq (by decide)

/-- A held combo with a recipe behind it fails on both sides. -/
theorem resumedConsumption_iff_combo :
    (∃ rs, resumedConsumption lassiBar cashier cashier ⟨20, 0⟩ (comboOrder (some true)) 0 none
        = .ok rs ∧ rs.Perm [(4, none, -300)])
      ↔ ∀ item ∈ (comboOrder none).items, ComboConsumesNothing lassiBar item :=
  @resumedConsumption_iff lassiBar cashier cashier ⟨20, 0⟩ ⟨20, 0⟩ _ _ none _
    rfl rfl rfl rfl rfl ⟨_, rfl⟩ rfl

end OraOS.Orders
