/-
  OraOS.Inventory.RecipeGraph — what prepared items are made from, and its loops.

  `setRecipe` replaces what one item is made from.  It refuses an item that contains
  itself and a component whose own recipe uses the item, and looks no further.

    * `setPrepRecipe_ok` — a call rewires the graph at one item;
    * `recipe_loops`     — what is excluded in every reachable state, and when a call leaves
                           no loop at all.
-/
import OraOS.Inventory.Batches
import OraOS.Lib.Acyclic
import OraOS.Lib.Transition

namespace OraOS.Inventory

open OraOS.Api
open OraOS.Lib
open Relation

/-! ## §1. The graph. -/

/-- The recipe of `item` has `component`. -/
def MadeFrom (db : Db) (item component : Uuid) : Prop :=
  ∃ r ∈ db.prepRecipeItems, r.prepIngredientId = item ∧ r.componentIngredientId = component

/-- The components that a request lists. -/
def SetPrepRecipeDto.Lists (dto : SetPrepRecipeDto) (component : Uuid) : Prop :=
  ∃ c ∈ dto.items, c.ingredientId = component

theorem mem_prepRecipeRows {id : Uuid} {items : List PrepComponentDto}
    (h : id ∉ distinct (items.map (·.ingredientId))) {r : PrepRecipeItem}
    (hr : r ∈ prepRecipeRows id items h) :
    r.prepIngredientId = id ∧ ∃ c ∈ items, c.ingredientId = r.componentIngredientId := by
  obtain ⟨c, -, rfl⟩ := List.mem_map.mp hr
  exact ⟨rfl, c.1, c.2, rfl⟩

/-- Every item of the request has its row. -/
theorem prepRecipeRows_lists {id : Uuid} {items : List PrepComponentDto}
    (h : id ∉ distinct (items.map (·.ingredientId))) {c : PrepComponentDto} (hc : c ∈ items) :
    ∃ r ∈ prepRecipeRows id items h,
      r.prepIngredientId = id ∧ r.componentIngredientId = c.ingredientId :=
  ⟨_, List.mem_map_of_mem (List.mem_attach items ⟨c, hc⟩), rfl, rfl⟩

/-- What a call that succeeds has checked, and what it leaves. -/
theorem setPrepRecipe_ok {db db' : Db} {id : Uuid} {dto : SetPrepRecipeDto}
    (h : setPrepRecipe db id dto = .ok db') :
    ¬ dto.Lists id ∧ (∀ c, dto.Lists c → ¬ MadeFrom db c id)
      ∧ ∀ x y, MadeFrom db' x y ↔ rewire (MadeFrom db) id dto.Lists x y := by
  obtain ⟨-, -, h⟩ := bind_ok.mp h
  obtain ⟨-, -, h⟩ := bind_ok.mp h
  split at h
  next => cases h
  next hself =>
    obtain ⟨-, -, h⟩ := bind_ok.mp h
    obtain ⟨_, hreciprocal, h⟩ := bind_ok.mp h
    cases pure_ok.mp h
    have hlisted : ∀ {c}, dto.Lists c → c ∈ distinct (dto.items.map (·.ingredientId)) := by
      rintro _ ⟨c, hc, rfl⟩
      exact mem_distinct.mpr (List.mem_map_of_mem hc)
    refine ⟨fun hlists => hself (hlisted hlists), ?_, ?_⟩
    · rintro c hc ⟨r, hr, rfl, huses⟩
      exact require_ok.mp hreciprocal r hr ⟨hlisted hc, huses⟩
    · intro x y
      constructor
      · rintro ⟨r, hr, rfl, rfl⟩
        rcases List.mem_append.mp hr with hold | hnew
        · obtain ⟨hr, hother⟩ := List.mem_filter.mp hold
          exact .inr ⟨of_decide_eq_true hother, r, hr, rfl, rfl⟩
        · obtain ⟨hitem, hlists⟩ := mem_prepRecipeRows hself hnew
          exact .inl ⟨hitem, hlists⟩
      · rintro (⟨rfl, c, hc, rfl⟩ | ⟨hother, r, hr, rfl, rfl⟩)
        · obtain ⟨r, hr, hitem, hcomponent⟩ := prepRecipeRows_lists hself hc
          exact ⟨r, List.mem_append_right _ hr, hitem, hcomponent⟩
        · exact ⟨r, List.mem_append_left _ (List.mem_filter.mpr ⟨hr, decide_eq_true hother⟩),
            rfl, rfl⟩

/-! ## §2. Any sequence of calls. -/

/-- What the requests do to the recipes of prepared ingredients. -/
inductive RecipeEdit where
  | setRecipe (id : Uuid) (dto : SetPrepRecipeDto)
  /-- Ingredients, batches, sales and everything else that leaves the recipes alone. -/
  | others

/-- The calls that succeed, in any order, over any ingredients. -/
def kitchen : System Db RecipeEdit where
  init db := db.prepRecipeItems = []
  step db e db' := match e with
    | .setRecipe id dto => setPrepRecipe db id dto = .ok db'
    | .others => db'.prepRecipeItems = db.prepRecipeItems

/-- No component of the new recipe is made from the item, in however many steps. -/
def NoneMadeFrom (db : Db) : RecipeEdit → Prop
  | .setRecipe id dto => ∀ c, dto.Lists c → ¬ ReflTransGen (MadeFrom db) c id
  | .others => True

/-- No item is a component of itself or of a component of its own. -/
structure NoShortLoop (db : Db) : Prop where
  one : ∀ i, ¬ MadeFrom db i i
  two : ∀ i j, MadeFrom db i j → ¬ MadeFrom db j i

/-- Who is made from whom is read off the recipes alone. -/
theorem madeFrom_congr {db db' : Db} (h : db'.prepRecipeItems = db.prepRecipeItems) :
    MadeFrom db' = MadeFrom db := by
  unfold MadeFrom
  rw [h]

/-- **A recipe is refused if its own component is made from it.** -/
theorem setPrepRecipe_noShortLoop {db db' : Db} {id : Uuid} {dto : SetPrepRecipeDto}
    (hdb : NoShortLoop db) (h : setPrepRecipe db id dto = .ok db') : NoShortLoop db' := by
  obtain ⟨hself, hreciprocal, hafter⟩ := setPrepRecipe_ok h
  constructor
  · intro i hloop
    rcases (hafter i i).mp hloop with ⟨rfl, hlists⟩ | ⟨-, hold⟩
    · exact hself hlists
    · exact hdb.one i hold
  · intro i j hij hji
    rcases (hafter i j).mp hij with ⟨rfl, hlists⟩ | ⟨hi, hold⟩
    · -- `j` is one of the new components, so it was asked about
      rcases (hafter j i).mp hji with ⟨rfl, hlists'⟩ | ⟨-, huses⟩
      · exact hself hlists'
      · exact hreciprocal j hlists huses
    · rcases (hafter j i).mp hji with ⟨rfl, hlists⟩ | ⟨-, hold'⟩
      · exact hreciprocal i hlists hold
      · exact hdb.two i j hold hold'

/-- **No two ingredients are made from each other**, whatever was edited. -/
theorem noShortLoop {db : Db} (h : kitchen.Reachable db) : NoShortLoop db := by
  induction h with
  | @init db h0 =>
      have hnone : ∀ i j, ¬ MadeFrom db i j := by
        rintro i j ⟨r, hr, -⟩
        rw [show db.prepRecipeItems = [] from h0] at hr
        cases hr
      exact ⟨fun i => hnone i i, fun i j hij => absurd hij (hnone i j)⟩
  | @step db db' e _ hstep ih =>
      cases e with
      | setRecipe id dto => exact setPrepRecipe_noShortLoop ih hstep
      | others =>
          have hsame := madeFrom_congr (show db'.prepRecipeItems = db.prepRecipeItems from hstep)
          exact ⟨hsame ▸ ih.one, hsame ▸ ih.two⟩

/-- A successful call closes a loop exactly when a component is made from the item. -/
theorem setPrepRecipe_acyclic {db db' : Db} {id : Uuid} {dto : SetPrepRecipeDto}
    (hdb : Acyclic (MadeFrom db)) (h : setPrepRecipe db id dto = .ok db') :
    Acyclic (MadeFrom db') ↔ NoneMadeFrom db (.setRecipe id dto) := by
  obtain ⟨-, -, hafter⟩ := setPrepRecipe_ok h
  have hrewired : MadeFrom db' = rewire (MadeFrom db) id dto.Lists :=
    funext fun x => funext fun y => propext (hafter x y)
  rw [hrewired]
  exact acyclic_rewire hdb

/-- Where components are raw, nothing is made from itself, however long the way. -/
theorem acyclic_of_restricted {db : Db} (h : (kitchen.restrict NoneMadeFrom).Reachable db) :
    Acyclic (MadeFrom db) := by
  induction h with
  | @init db h0 =>
      refine acyclic_empty ?_
      rintro i j ⟨r, hr, -⟩
      rw [show db.prepRecipeItems = [] from h0] at hr
      cases hr
  | @step db db' e _ hstep ih =>
      cases e with
      | setRecipe id dto => exact (setPrepRecipe_acyclic ih hstep.2).mpr hstep.1
      | others =>
          rw [madeFrom_congr (show db'.prepRecipeItems = db.prepRecipeItems from hstep.2)]
          exact ih

/-- **Which loops a kitchen can have**: never one of one or two steps; and none at all as long
as no call gives an item a component that is made from it, which no call looks for. -/
theorem recipe_loops {db : Db} (h : kitchen.Reachable db) :
    NoShortLoop db
      ∧ (Acyclic (MadeFrom db) → ∀ id dto db', setPrepRecipe db id dto = .ok db' →
          (Acyclic (MadeFrom db') ↔ NoneMadeFrom db (.setRecipe id dto)))
      ∧ ((kitchen.restrict NoneMadeFrom).Reachable db → Acyclic (MadeFrom db)) :=
  ⟨noShortLoop h, fun hdb _ _ _ hok => setPrepRecipe_acyclic hdb hok, acyclic_of_restricted⟩

/-! ## §3. Recipes of what has no recipe. -/

/-- The components listed have no recipe yet. -/
def RawOnly (db : Db) : RecipeEdit → Prop
  | .setRecipe id dto => ∀ c ∈ dto.items,
      c.ingredientId ≠ id ∧ ∀ r ∈ db.prepRecipeItems, r.prepIngredientId ≠ c.ingredientId
  | .others => True

instance (db : Db) (e : RecipeEdit) : Decidable (RawOnly db e) := by
  unfold RawOnly
  split <;> infer_instance

/-- Such a recipe closes no loop. -/
theorem noneMadeFrom_of_rawOnly (db : Db) (e : RecipeEdit) (h : RawOnly db e) :
    NoneMadeFrom db e := by
  cases e with
  | others => trivial
  | setRecipe id dto =>
      rintro _ ⟨c, hc, rfl⟩ hreaches
      obtain ⟨hne, hraw⟩ := h c hc
      rcases hreaches.cases_head with hself | ⟨y, ⟨r, hr, hitem, -⟩, -⟩
      · exact hne hself
      · exact hraw r hr hitem

/-- An edit as a step that can fail. -/
def recipeEdit (db : Db) : RecipeEdit → Option Db
  | .setRecipe id dto => (setPrepRecipe db id dto).toOption
  | .others => some db

theorem recipeEdit_step (db : Db) (e : RecipeEdit) (db' : Db) (h : recipeEdit db e = some db') :
    kitchen.step db e db' := by
  cases e with
  | setRecipe id dto => exact toOption_some.mp h
  | others =>
      cases h
      rfl

theorem one_gram : (1 : ℤ) ≤ 1 ∧ (1 : ℤ) ≤ maxQty := by decide

/-- A recipe of one component. -/
def ofOne (component : Uuid) : SetPrepRecipeDto where
  batchYield := 1
  items := [⟨component, 1, one_gram⟩]
  yield_ok := one_gram
  items_ok := ⟨le_refl 1, by simp⟩

/-- Three sauces, all prepared here, none with a recipe. -/
def threeSauces : Db :=
  { Db.empty with
    ingredients := [⟨1, "Gravy", none, true, true, none, none⟩,
      ⟨2, "Makhani", none, true, true, none, none⟩, ⟨3, "Stock", none, true, true, none, none⟩] }

/-- The gravy from the makhani, the makhani from the stock. -/
def twoRecipes : List RecipeEdit := [.setRecipe 1 (ofOne 2), .setRecipe 2 (ofOne 3)]

theorem twoRecipes_run :
    (System.replay (System.guarded RawOnly recipeEdit) twoRecipes threeSauces).isSome = true := by
  decide +kernel

theorem recipe_loops_twoRecipes :
    ∃ db : Db, db.prepRecipeItems.map (fun r => (r.prepIngredientId, r.componentIngredientId))
        = [(1, 2), (2, 3)]
      ∧ NoShortLoop db ∧ Acyclic (MadeFrom db) := by
  have h := System.replay_restricted (M := kitchen) (C := RawOnly) (f := recipeEdit)
    recipeEdit_step twoRecipes threeSauces rfl (Option.some_get twoRecipes_run).symm
  have hloops := recipe_loops (System.restrict_reachable h)
  exact ⟨_, by decide +kernel, hloops.1,
    hloops.2.2 (System.restrict_mono (fun s a _ => noneMadeFrom_of_rawOnly s a) h)⟩

/-- And then the stock from the gravy. -/
def stockFromGravy : List RecipeEdit := twoRecipes ++ [.setRecipe 3 (ofOne 1)]

theorem stockFromGravy_runs :
    (System.replay recipeEdit stockFromGravy threeSauces).isSome = true := by
  decide +kernel

/-- Each sauce is made from itself, in three steps. -/
theorem recipes_loop : ∃ db, kitchen.Reachable db ∧ ¬ Acyclic (MadeFrom db) := by
  let db := (System.replay recipeEdit stockFromGravy threeSauces).get stockFromGravy_runs
  have hreachable : kitchen.Reachable db := System.replay_reachable (M := kitchen)
    recipeEdit_step stockFromGravy threeSauces rfl (Option.some_get stockFromGravy_runs).symm
  have hgravy : MadeFrom db 1 2 := by
    unfold MadeFrom
    decide +kernel
  have hmakhani : MadeFrom db 2 3 := by
    unfold MadeFrom
    decide +kernel
  have hstock : MadeFrom db 3 1 := by
    unfold MadeFrom
    decide +kernel
  exact ⟨db, hreachable, fun h => h 1 (((TransGen.single hgravy).tail hmakhani).tail hstock)⟩

end OraOS.Inventory
