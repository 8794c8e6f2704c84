/-
  OraOS.Menus.Tables — the menus of all restaurants in one database.

  Seven tables, each with a `restaurant_id` and the standard tenant policy.  Foreign keys
  and their actions are not subject to policies: a key is looked for among the rows of
  every restaurant, and ON DELETE reaches them all.

    * `Own`      — every reference is to a row of the same restaurant;
    * `menuOf`   — what one restaurant has of it.
-/
import OraOS.Api.Base
import OraOS.Lib.Tenants
import OraOS.Lib.RowSecurity

namespace OraOS.Menus

open OraOS.Api
open OraOS.Lib

/-! ## §1. Rows. -/

/-- A row of `categories`. -/
structure Category where
  id : Uuid
  restaurantId : Uuid
  name : String
  sortOrder : ℤ
  deriving DecidableEq, Repr

/-- A row of `products`. -/
structure Product where
  id : Uuid
  restaurantId : Uuid
  categoryId : Option Uuid
  name : String
  priceMinor : ℤ
  taxRateBp : ℤ
  isActive : Bool
  isPopular : Bool
  sortOrder : ℤ
  deriving DecidableEq, Repr

/-- A row of `modifier_groups`. -/
structure ModifierGroup where
  id : Uuid
  restaurantId : Uuid
  productId : Uuid
  name : String
  minSelect : ℤ
  maxSelect : ℤ
  sortOrder : ℤ
  isActive : Bool
  deriving DecidableEq, Repr

/-- A row of `modifier_options`. -/
structure ModifierOption where
  id : Uuid
  restaurantId : Uuid
  groupId : Uuid
  name : String
  priceAdjustMinor : ℤ
  sortOrder : ℤ
  isActive : Bool
  deriving DecidableEq, Repr

/-- A row of `combos`. -/
structure Combo where
  id : Uuid
  restaurantId : Uuid
  categoryId : Option Uuid
  name : String
  description : Option String
  priceMinor : ℤ
  taxRateBp : ℤ
  isActive : Bool
  isPopular : Bool
  sortOrder : ℤ
  deriving DecidableEq, Repr

/-- A row of `combo_items`. -/
structure ComboItem where
  restaurantId : Uuid
  comboId : Uuid
  productId : Uuid
  quantity : ℤ
  sortOrder : ℤ
  deriving DecidableEq, Repr

/-- A row of `upsell_rules`. -/
structure UpsellRule where
  id : Uuid
  restaurantId : Uuid
  triggerProductId : Uuid
  suggestedProductId : Uuid
  sortOrder : ℤ
  isActive : Bool
  deriving DecidableEq, Repr

instance : TenantRow Category Uuid Uuid := ⟨(·.restaurantId), (·.id)⟩
instance : TenantRow Product Uuid Uuid := ⟨(·.restaurantId), (·.id)⟩
instance : TenantRow ModifierGroup Uuid Uuid := ⟨(·.restaurantId), (·.id)⟩
instance : TenantRow ModifierOption Uuid Uuid := ⟨(·.restaurantId), (·.id)⟩
instance : TenantRow Combo Uuid Uuid := ⟨(·.restaurantId), (·.id)⟩
/-- A component is looked for by its combo. -/
instance : TenantRow ComboItem Uuid Uuid := ⟨(·.restaurantId), (·.comboId)⟩
instance : TenantRow UpsellRule Uuid Uuid := ⟨(·.restaurantId), (·.id)⟩

/-! ## §2. Tables. -/

/-- The tables behind the menus of all restaurants. -/
structure Tables where
  categories : List Category
  products : List Product
  modifierGroups : List ModifierGroup
  modifierOptions : List ModifierOption
  combos : List Combo
  comboItems : List ComboItem
  upsellRules : List UpsellRule
  deriving DecidableEq, Repr

/-- `categories`, as one table of the database. -/
def categories : Table Tables Category :=
  ⟨(·.categories), fun db rows => { db with categories := rows }⟩
/-- `products`, as one table of the database. -/
def products : Table Tables Product := ⟨(·.products), fun db rows => { db with products := rows }⟩
/-- `modifier_groups`, as one table of the database. -/
def modifierGroups : Table Tables ModifierGroup :=
  ⟨(·.modifierGroups), fun db rows => { db with modifierGroups := rows }⟩
/-- `modifier_options`, as one table of the database. -/
def modifierOptions : Table Tables ModifierOption :=
  ⟨(·.modifierOptions), fun db rows => { db with modifierOptions := rows }⟩
/-- `combos`, as one table of the database. -/
def combos : Table Tables Combo := ⟨(·.combos), fun db rows => { db with combos := rows }⟩
/-- `combo_items`, as one table of the database. -/
def comboItems : Table Tables ComboItem :=
  ⟨(·.comboItems), fun db rows => { db with comboItems := rows }⟩
/-- `upsell_rules`, as one table of the database. -/
def upsellRules : Table Tables UpsellRule :=
  ⟨(·.upsellRules), fun db rows => { db with upsellRules := rows }⟩

/-- What a statement of a request fails with. -/
inductive Failure where
  | answered (e : ApiError)
  /-- a unique index -/
  | p2002
  /-- a foreign key -/
  | p2003
  /-- a required relation that the policy hides -/
  | inconsistent
  deriving DecidableEq, Repr

/-- A request under the tenant's connection. -/
abbrev Transaction (α : Type) := Tx Tables Failure α

/-- `isUniqueViolation(e)`, and the conflict it is answered with. -/
def conflictOn (message : String) : Failure → Failure
  | .p2002 => .answered (.conflict message)
  | e => e

/-! ## §3. Whose rows refer to whose. -/

/-- No reference crosses from one restaurant to another, and ids are the keys of the
tables that are referred to. -/
structure Own (db : Tables) : Prop where
  category_keys : (db.categories.map keyOf).Nodup
  product_keys : (db.products.map keyOf).Nodup
  group_keys : (db.modifierGroups.map keyOf).Nodup
  combo_keys : (db.combos.map keyOf).Nodup
  products_category : Refers db.products (·.categoryId) db.categories
  combos_category : Refers db.combos (·.categoryId) db.categories
  groups_product : Refers db.modifierGroups (fun g => some g.productId) db.products
  options_group : Refers db.modifierOptions (fun o => some o.groupId) db.modifierGroups
  items_combo : Refers db.comboItems (fun i => some i.comboId) db.combos
  items_product : Refers db.comboItems (fun i => some i.productId) db.products
  rules_trigger : Refers db.upsellRules (fun r => some r.triggerProductId) db.products
  rules_suggested : Refers db.upsellRules (fun r => some r.suggestedProductId) db.products

/-- The menu of one restaurant. -/
def menuOf (restaurantId : Uuid) (db : Tables) : Tables where
  categories := ownRows restaurantId db.categories
  products := ownRows restaurantId db.products
  modifierGroups := ownRows restaurantId db.modifierGroups
  modifierOptions := ownRows restaurantId db.modifierOptions
  combos := ownRows restaurantId db.combos
  comboItems := ownRows restaurantId db.comboItems
  upsellRules := ownRows restaurantId db.upsellRules

/-- The database, divided into the menus of its restaurants. -/
def menus : Division Uuid Tables := ⟨menuOf, Own⟩

/-- Each menu has its own part of the categories, and of the other tables below. -/
theorem categories_splits : categories.Splits menus :=
  ⟨fun _ _ => rfl, fun _ _ _ => rfl, fun _ => rfl⟩

theorem products_splits : products.Splits menus :=
  ⟨fun _ _ => rfl, fun _ _ _ => rfl, fun _ => rfl⟩

theorem modifierGroups_splits : modifierGroups.Splits menus :=
  ⟨fun _ _ => rfl, fun _ _ _ => rfl, fun _ => rfl⟩

theorem modifierOptions_splits : modifierOptions.Splits menus :=
  ⟨fun _ _ => rfl, fun _ _ _ => rfl, fun _ => rfl⟩

theorem combos_splits : combos.Splits menus := ⟨fun _ _ => rfl, fun _ _ _ => rfl, fun _ => rfl⟩

theorem comboItems_splits : comboItems.Splits menus :=
  ⟨fun _ _ => rfl, fun _ _ _ => rfl, fun _ => rfl⟩

theorem upsellRules_splits : upsellRules.Splits menus :=
  ⟨fun _ _ => rfl, fun _ _ _ => rfl, fun _ => rfl⟩

end OraOS.Menus
