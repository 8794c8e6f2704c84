/-
  OraOS.Orders.IngredientUnits — the unit an ingredient's quantities are counted in.

  Six tables hold quantities in it: movements, product recipes, prep recipes, the yield of
  the ingredient's own prep recipe, purchase orders and stock counts.  The guard of an
  edit looks at the first two.

    * `updateIngredient_ok`  — **the spec lemma** of the edit;
    * `units_step`           — a step keeps the units of what is recorded exactly if it does
                               not relabel a quantity of the other four tables;
    * `recorded_units_kept`  — and with it every run.
-/
import OraOS.Orders.Serial

namespace OraOS.Orders

open OraOS.Api
open OraOS.Lib
open OraOS.Inventory

/-! ## §1. The ingredients' own requests. -/

/-- The units stock is kept in. -/
inductive StockUnit where
  | gram
  | millilitre
  | piece
  deriving DecidableEq, Repr

/-- The server, and the `unit` column of its ingredients. -/
structure Pantry where
  server : Server
  unitOf : Uuid → StockUnit

/-- `CreateIngredientDto`, and `CreatePrepItemDto` with a shelf life. -/
structure CreateIngredientDto where
  name : String
  unit : StockUnit
  reorderLevel : Option ℤ
  reorderLevel_ok : ∀ q ∈ reorderLevel, 0 ≤ q ∧ q ≤ maxQty

/-- What is absent is left alone; a reorder level may be cleared. -/
structure UpdateIngredientDto where
  name : Option String
  unit : Option StockUnit
  reorderLevel : Option (Option ℤ)
  isActive : Option Bool
  reorderLevel_ok : ∀ l ∈ reorderLevel, ∀ q ∈ l, 0 ≤ q ∧ q ≤ maxQty

/-- An edit of a prepared ingredient. -/
structure UpdatePrepItemDto where
  name : Option String
  shelfLifeHours : Option (Option ℤ)
  reorderLevel : Option (Option ℤ)
  isActive : Option Bool
  reorderLevel_ok : ∀ l ∈ reorderLevel, ∀ q ∈ l, 0 ≤ q ∧ q ≤ maxQty

/-- The pantry after its ingredients were written. -/
def Pantry.withIngredients (s : Pantry) (ingredients : List Ingredient) : Pantry :=
  { s with server := { s.server with db := { s.server.db with ingredients } } }

/-- A new row of `ingredients`; its name must be new. -/
def addIngredient (s : Pantry) (row : Ingredient) (unit : StockUnit) : Except ApiError Pantry := do
  require (∀ i ∈ s.server.db.ingredients, i.id ≠ row.id ∧ i.name ≠ row.name)
    (.conflict "An ingredient with that name exists")
  pure { s.withIngredients (s.server.db.ingredients ++ [row]) with
    unitOf := Function.update s.unitOf row.id unit }

/-- `InventoryService.create`. -/
def createIngredient (s : Pantry) (env : Env) (dto : CreateIngredientDto) :
    Except ApiError Pantry :=
  addIngredient s ⟨env.newId, dto.name, dto.reorderLevel, true, false, none, none⟩ dto.unit

/-- `PrepService.createItem`. -/
def createPrepItem (s : Pantry) (env : Env) (dto : CreateIngredientDto)
    (shelfLifeHours : Option ℤ) : Except ApiError Pantry :=
  addIngredient s ⟨env.newId, dto.name, dto.reorderLevel, true, true, none, shelfLifeHours⟩ dto.unit

/-- One ingredient is edited. -/
def editRow (ingredients : List Ingredient) (id : Uuid) (edit : Ingredient → Ingredient) :
    List Ingredient :=
  ingredients.map fun i => if i.id = id then edit i else i

/-- Nobody else has the name. -/
def nameFree (ingredients : List Ingredient) (id : Uuid) (name : Option String) : Prop :=
  ∀ n ∈ name, ∀ i ∈ ingredients, i.id ≠ id → i.name ≠ n

instance (ingredients : List Ingredient) (id : Uuid) (name : Option String) :
    Decidable (nameFree ingredients id name) := by
  unfold nameFree
  infer_instance

/-- The two tables the guard counts. -/
def Counted (db : Db) (id : Uuid) : Prop :=
  (∃ m ∈ db.movements, m.ingredientId = id) ∨ ∃ r ∈ db.recipeItems, r.ingredientId = id

instance (db : Db) (id : Uuid) : Decidable (Counted db id) := by
  unfold Counted
  infer_instance

/-- The edit has a unit, and it is another one. -/
def Relabels (s : Pantry) (id : Uuid) (dto : UpdateIngredientDto) : Prop :=
  ∃ u ∈ dto.unit, u ≠ s.unitOf id

instance (s : Pantry) (id : Uuid) (dto : UpdateIngredientDto) : Decidable (Relabels s id dto) := by
  unfold Relabels
  infer_instance

/-- `InventoryService.update`. -/
def updateIngredient (s : Pantry) (id : Uuid) (dto : UpdateIngredientDto) :
    Except ApiError Pantry := do
  let _ ← found (s.server.db.ingredients.find? fun i => i.id = id) (.notFound "Ingredient not found")
  -- a unit that is sent again is no change
  require (Relabels s id dto → ¬ Counted s.server.db id)
    (.conflict ("Unit cannot change once stock or recipes are recorded in it"
      ++ " — add a new ingredient instead"))
  require (nameFree s.server.db.ingredients id dto.name)
    (.conflict "An ingredient with that name exists")
  let edit (i : Ingredient) : Ingredient := { i with
    name := dto.name.getD i.name
    reorderLevel := dto.reorderLevel.getD i.reorderLevel
    isActive := dto.isActive.getD i.isActive }
  pure { s.withIngredients (editRow s.server.db.ingredients id edit) with
    unitOf := Function.update s.unitOf id (dto.unit.getD (s.unitOf id)) }

/-- `PrepService.updateItem`, which leaves the unit alone. -/
def updatePrepItem (s : Pantry) (id : Uuid) (dto : UpdatePrepItemDto) : Except ApiError Pantry := do
  let _ ← found (findPrepItem s.server.db id) (.notFound "Prep item not found")
  require (nameFree s.server.db.ingredients id dto.name) (.uniqueViolation .primaryKey)
  let edit (i : Ingredient) : Ingredient := { i with
    name := dto.name.getD i.name
    prepShelfLifeHours := dto.shelfLifeHours.getD i.prepShelfLifeHours
    reorderLevel := dto.reorderLevel.getD i.reorderLevel
    isActive := dto.isActive.getD i.isActive }
  pure (s.withIngredients (editRow s.server.db.ingredients id edit))

/-- **The edit of an ingredient**, when it succeeds: an ingredient that exists, and no
movement and no recipe in the unit it loses. -/
theorem updateIngredient_ok {s s' : Pantry} {id : Uuid} {dto : UpdateIngredientDto}
    (h : updateIngredient s id dto = .ok s') :
    (∃ i ∈ s.server.db.ingredients, i.id = id)
      ∧ (Relabels s id dto → ¬ Counted s.server.db id)
      ∧ s'.unitOf = Function.update s.unitOf id (dto.unit.getD (s.unitOf id)) := by
  obtain ⟨i, hi, h⟩ := bind_ok.mp h
  obtain ⟨_, hguard, h⟩ := bind_ok.mp h
  obtain ⟨_, -, h⟩ := bind_ok.mp h
  cases pure_ok.mp h
  have hfind := found_ok.mp hi
  exact ⟨⟨i, List.mem_of_find?_eq_some hfind, by simpa using List.find?_some hfind⟩,
    require_ok.mp hguard, rfl⟩

/-! ## §2. The machine. -/

/-- What the inventory pages do to ingredients, and every other request. -/
inductive PantryRequest where
  | createIngredient (env : Env) (dto : CreateIngredientDto)
  | updateIngredient (id : Uuid) (dto : UpdateIngredientDto)
  | createPrepItem (env : Env) (dto : CreateIngredientDto) (shelfLifeHours : Option ℤ)
  | updatePrepItem (id : Uuid) (dto : UpdatePrepItemDto)
  /-- recipes, prep recipes, batches, purchase orders, counts, movements, orders -/
  | other (r : Request)

/-- The other screens edit the catalogue around the ingredients. -/
def aroundIngredients (ingredients : List Ingredient) : Request → Request
  | .stock ctx (.catalogue c) => .stock ctx (.catalogue { c with ingredients })
  | r => r

/-- The handler behind each request. -/
def performPantry (s : Pantry) : PantryRequest → Except ApiError Pantry
  | .createIngredient env dto => createIngredient s env dto
  | .updateIngredient id dto => updateIngredient s id dto
  | .createPrepItem env dto shelfLifeHours => createPrepItem s env dto shelfLifeHours
  | .updatePrepItem id dto => updatePrepItem s id dto
  | .other r => do
      let server ← perform s.server (aroundIngredients s.server.db.ingredients r)
      pure { s with server }

/-- One request after the other. -/
def pantry : System Pantry PantryRequest where
  init s := Opening s.server
  step s r s' := performPantry s r = .ok s'

/-! ## §3. What is recorded in a unit. -/

/-- The four tables the guard does not look at: components of prep recipes, the yield of
the ingredient's own, purchase orders, and stock counts. -/
def RecordedElsewhere (db : Db) (id : Uuid) : Prop :=
  (∃ r ∈ db.prepRecipeItems, r.componentIngredientId = id)
    ∨ (∃ i ∈ db.ingredients, i.id = id ∧ i.prepBatchYield ≠ none)
    ∨ (∃ po ∈ db.purchaseOrders, ∃ it ∈ po.items, it.ingredientId = id)
    ∨ ∃ c ∈ db.stockCounts, ∃ l ∈ c.lines, l.ingredientId = id

instance (db : Db) (id : Uuid) : Decidable (RecordedElsewhere db id) := by
  unfold RecordedElsewhere
  infer_instance

/-- A quantity of the ingredient is recorded. -/
def Recorded (db : Db) (id : Uuid) : Prop :=
  (∃ i ∈ db.ingredients, i.id = id) ∧ (Counted db id ∨ RecordedElsewhere db id)

instance (db : Db) (id : Uuid) : Decidable (Recorded db id) := by
  unfold Recorded
  infer_instance

/-- **The units of what is recorded are kept.** -/
def UnitsKept (s s' : Pantry) : Prop :=
  ∀ id, Recorded s.server.db id → s'.unitOf id = s.unitOf id

/-- The edit relabels no quantity of the four tables. -/
def RelabelsNothing (s : Pantry) : PantryRequest → Prop
  | .updateIngredient id dto => Relabels s id dto → ¬ RecordedElsewhere s.server.db id
  | _ => True

instance (s : Pantry) (r : PantryRequest) : Decidable (RelabelsNothing s r) := by
  unfold RelabelsNothing
  split <;> infer_instance

/-- A new ingredient has a new id. -/
theorem addIngredient_units {s s' : Pantry} {row : Ingredient} {unit : StockUnit}
    (h : addIngredient s row unit = .ok s') : UnitsKept s s' := by
  obtain ⟨_, hfresh, h⟩ := bind_ok.mp h
  cases pure_ok.mp h
  rintro id ⟨⟨i, hi, rfl⟩, -⟩
  exact Function.update_of_ne (require_ok.mp hfresh i hi).1 _ _

/-- **An edit keeps the units of what was recorded unless it relabels an ingredient
recorded elsewhere.** -/
theorem updateIngredient_units {s s' : Pantry} {id : Uuid} {dto : UpdateIngredientDto}
    (h : updateIngredient s id dto = .ok s') :
    UnitsKept s s' ↔ (Relabels s id dto → ¬ RecordedElsewhere s.server.db id) := by
  obtain ⟨hexists, hguard, hunit⟩ := updateIngredient_ok h
  unfold UnitsKept
  rw [hunit]
  constructor
  · rintro hkept ⟨u, hu, hne⟩ helsewhere
    have hsame := hkept id ⟨hexists, .inr helsewhere⟩
    rw [Function.update_self, hu] at hsame
    exact hne hsame
  · intro hfree i hi
    by_cases hid : i = id
    · subst hid
      rw [Function.update_self]
      by_cases hrelabel : Relabels s i dto
      · rcases hi.2 with hcounted | helsewhere
        -- two of the six tables are the guard's, the four others the condition's
        · exact absurd hcounted (hguard hrelabel)
        · exact absurd helsewhere (hfree hrelabel)
      · cases hdto : dto.unit with
        | none => rfl
        | some u =>
            by_contra hne
            exact hrelabel ⟨u, hdto, hne⟩
    · exact Function.update_of_ne hid _ _

/-- **One request keeps the units of what is recorded if and only if** it relabels nothing
the guard does not see. -/
theorem units_step {s s' : Pantry} {r : PantryRequest} (h : performPantry s r = .ok s') :
    UnitsKept s s' ↔ RelabelsNothing s r := by
  cases r with
  | createIngredient env dto => exact iff_of_true (addIngredient_units h) trivial
  | updateIngredient id dto => exact updateIngredient_units h
  | createPrepItem env dto shelfLifeHours => exact iff_of_true (addIngredient_units h) trivial
  | updatePrepItem id dto =>
      obtain ⟨_, -, h⟩ := bind_ok.mp h
      obtain ⟨_, -, h⟩ := bind_ok.mp h
      cases pure_ok.mp h
      exact iff_of_true (fun _ _ => rfl) trivial
  | other r =>
      obtain ⟨server, -, h⟩ := bind_ok.mp h
      cases pure_ok.mp h
      exact iff_of_true (fun _ _ => rfl) trivial

/-- **Recorded quantities keep their unit**: over any run whose edits relabel nothing the
guard does not see, an ingredient keeps its unit while anything is recorded of it; and an
edit that relabels such a quantity is one that does not. -/
theorem recorded_units_kept (s : Pantry) :
    (∀ id rs s', ((pantry.restrict RelabelsNothing).restrict
        fun t _ => Recorded t.server.db id).Run s rs s' → s'.unitOf id = s.unitOf id)
      ∧ ∀ r s', pantry.step s r s' → (UnitsKept s s' ↔ RelabelsNothing s r) := by
  constructor
  · intro id rs s' hrun
    -- over the run the unit is the one it began with
    refine hrun.preserves (fun t => t.unitOf id = s.unitOf id) ?_ rfl
    rintro t r t' hsame ⟨hrecorded, hnothing, hstep⟩
    rw [← hsame]
    exact (units_step hstep).mpr hnothing id hrecorded
  · intro r s' hstep
    exact units_step hstep

/-- A request that succeeded, and what it left. -/
def servePantry (s : Pantry) (r : PantryRequest) : Option Pantry := (performPantry s r).toOption

theorem servePantry_step (s : Pantry) (r : PantryRequest) (s' : Pantry)
    (h : servePantry s r = some s') : pantry.step s r s' := by
  show performPantry s r = .ok s'
  unfold servePantry at h
  cases hp : performPantry s r with
  | error e =>
      rw [hp] at h
      cases h
  | ok t =>
      rw [hp] at h
      cases h
      rfl

/-- The small menu with a supplier, its curd in grams. -/
def barPantry : Pantry := ⟨⟨{ lassiBar with suppliers := [50] }, []⟩, fun _ => .gram⟩

theorem barPantry_opening : pantry.init barPantry :=
  ⟨rfl, rfl, rfl, rfl, List.forall_mem_nil _, List.forall_mem_nil _, rfl⟩

/-- An edit of nothing but the name and the unit. -/
def relabel (name : Option String) (unit : Option StockUnit) : UpdateIngredientDto :=
  ⟨name, unit, none, none, nofun⟩

/-- The curd gets another name, and salt is added. -/
def tidyUp : List PantryRequest :=
  [.updateIngredient 4 (relabel (some "Dahi") none),
    .createIngredient ⟨40, 0⟩ ⟨"Salt", .gram, none, absent_within⟩]

theorem tidyUp_runs : (System.replay (System.guarded (fun t _ => Recorded t.server.db 4)
    (System.guarded RelabelsNothing servePantry)) tidyUp barPantry).isSome = true := by
  decide +kernel

/-- The curd is renamed and salt is added; what was recorded of the curd stays in gram. -/
theorem recorded_units_kept_tidy : ∃ s, ((pantry.restrict RelabelsNothing).restrict
    fun t _ => Recorded t.server.db 4).Run barPantry tidyUp s ∧ s.unitOf 4 = .gram := by
  have hrun := System.replay_run (M := (pantry.restrict RelabelsNothing).restrict
    fun t _ => Recorded t.server.db 4) (System.guarded_step (System.guarded_step servePantry_step))
    tidyUp barPantry _ (Option.some_get tidyUp_runs).symm
  exact ⟨_, hrun, (recorded_units_kept barPantry).1 4 tidyUp _ hrun⟩

/-- Flour and a dough made of it; the flour is ordered and counted, and never moved. -/
def newDough : List PantryRequest :=
  [.createIngredient ⟨40, 0⟩ ⟨"Flour", .gram, none, absent_within⟩,
    .createPrepItem ⟨41, 0⟩ ⟨"Dough", .piece, none, absent_within⟩ none,
    .other (.stock cashier (.setPrepRecipe 41
      ⟨10, [⟨40, 500, fiveHundred_within⟩], by decide, by decide⟩)),
    .other (.stock cashier (.createPurchaseOrder ⟨60, 0⟩
      ⟨50, [⟨40, 25000, none, by decide, nofun⟩], none, by decide⟩)),
    .other (.stock cashier (.startStockCount ⟨70, 0⟩ ["SC-1"] ⟨some [40], false, none⟩))]

theorem newDough_runs : (System.replay servePantry newDough barPantry).isSome = true := by
  decide +kernel

/-- A kitchen whose flour is in a recipe, on a purchase order and on a count sheet. -/
def doughKitchen : Pantry := (System.replay servePantry newDough barPantry).get newDough_runs

/-- The flour becomes a liquid. -/
def pourFlour : PantryRequest := .updateIngredient 40 (relabel none (some .millilitre))

/-- Ten pieces of dough become ten grams. -/
def weighDough : PantryRequest := .updateIngredient 41 (relabel none (some .gram))

/-- Its flour may be relabelled. -/
theorem pourFlour_succeeds : (servePantry doughKitchen pourFlour).isSome = true := by decide +kernel

theorem weighDough_succeeds : (servePantry doughKitchen weighDough).isSome = true := by
  decide +kernel

/-- The component, the purchase order and the count line in the one, the yield in the
other, are relabelled. -/
theorem recorded_units_relabelled : pantry.Reachable doughKitchen
    ∧ (∃ s', pantry.step doughKitchen pourFlour s' ∧ ¬ UnitsKept doughKitchen s')
    ∧ ∃ s', pantry.step doughKitchen weighDough s' ∧ ¬ UnitsKept doughKitchen s' := by
  refine ⟨System.replay_reachable servePantry_step newDough barPantry barPantry_opening
    (Option.some_get newDough_runs).symm, ?_, ?_⟩
  · refine ⟨_, servePantry_step _ _ _ (Option.some_get pourFlour_succeeds).symm, fun hkept => ?_⟩
    have hsame := hkept 40 (by decide +kernel)
    revert hsame
    decide +kernel
  · refine ⟨_, servePantry_step _ _ _ (Option.some_get weighDough_succeeds).symm, fun hkept => ?_⟩
    have hsame := hkept 41 (by decide +kernel)
    revert hsame
    decide +kernel

end OraOS.Orders
