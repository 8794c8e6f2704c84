/-
  OraOS.Menus.Requests — what restaurants ask of their menus (`catalogue.service.ts`,
  `combos.service.ts`).

  A request is a transaction under the policy of one restaurant.  The ids of new rows are
  generated before it starts and come with it.

    * `handle` — the transaction of each request.
-/
import OraOS.Menus.Tables
import OraOS.Lib.Tally

namespace OraOS.Menus

open OraOS.Api
open OraOS.Lib

/-! ## §1. What requests carry. -/

/-- A product as it is sent. -/
structure CreateProductDto where
  name : String
  priceMinor : ℤ
  taxRateBp : Option ℤ
  categoryId : Option Uuid
  isPopular : Option Bool

/-- `categoryId`: left alone, cleared, or set. -/
structure UpdateProductDto where
  name : Option String
  priceMinor : Option ℤ
  taxRateBp : Option ℤ
  categoryId : Option (Option Uuid)
  isActive : Option Bool
  isPopular : Option Bool

/-- A modifier group as it is sent. -/
structure CreateModifierGroupDto where
  name : String
  minSelect : Option ℤ
  maxSelect : Option ℤ
  sortOrder : Option ℤ

/-- An edit of a group; what is left out stays. -/
structure UpdateModifierGroupDto where
  name : Option String
  minSelect : Option ℤ
  maxSelect : Option ℤ
  sortOrder : Option ℤ
  isActive : Option Bool

/-- An option as it is sent. -/
structure CreateModifierOptionDto where
  name : String
  priceAdjustMinor : Option ℤ
  sortOrder : Option ℤ

/-- An edit of an option. -/
structure UpdateModifierOptionDto where
  name : Option String
  priceAdjustMinor : Option ℤ
  sortOrder : Option ℤ
  isActive : Option Bool

/-- One product of a combo, and how many of it. -/
structure ComboItemInput where
  productId : Uuid
  quantity : ℤ
  sortOrder : Option ℤ

/-- A combo as it is sent. -/
structure CreateComboDto where
  name : String
  description : Option String
  priceMinor : ℤ
  taxRateBp : Option ℤ
  categoryId : Option Uuid
  isPopular : Option Bool
  sortOrder : Option ℤ
  items : List ComboItemInput

/-- An edit of a combo; a list of items replaces them all. -/
structure UpdateComboDto where
  name : Option String
  description : Option (Option String)
  priceMinor : Option ℤ
  taxRateBp : Option ℤ
  categoryId : Option (Option Uuid)
  isPopular : Option Bool
  sortOrder : Option ℤ
  isActive : Option Bool
  items : Option (List ComboItemInput)

/-- A suggestion as it is sent. -/
structure CreateUpsellRuleDto where
  triggerProductId : Uuid
  suggestedProductId : Uuid
  sortOrder : Option ℤ

/-- An edit of a suggestion. -/
structure UpdateUpsellRuleDto where
  sortOrder : Option ℤ
  isActive : Option Bool

/-- A request; `id` is the key its new row gets. -/
inductive Request where
  | listProducts (includeInactive : Bool)
  | listCategories
  | createProduct (id : Uuid) (dto : CreateProductDto)
  | updateProduct (id : Uuid) (dto : UpdateProductDto)
  | listProductModifierGroups (productId : Uuid)
  | createModifierGroup (id productId : Uuid) (dto : CreateModifierGroupDto)
  | updateModifierGroup (id : Uuid) (dto : UpdateModifierGroupDto)
  | deleteModifierGroup (id : Uuid)
  | createModifierOption (id groupId : Uuid) (dto : CreateModifierOptionDto)
  | updateModifierOption (id : Uuid) (dto : UpdateModifierOptionDto)
  | deleteModifierOption (id : Uuid)
  | createCategory (id : Uuid) (name : String)
  | updateCategory (id : Uuid) (name : Option String)
  | deleteCategory (id : Uuid)
  | reorderCategories (ids : List Uuid)
  | listCombos (includeInactive : Bool)
  | createCombo (id : Uuid) (dto : CreateComboDto)
  | updateCombo (id : Uuid) (dto : UpdateComboDto)
  | deleteCombo (id : Uuid)
  | listUpsellRules
  | createUpsellRule (id : Uuid) (dto : CreateUpsellRuleDto)
  | updateUpsellRule (id : Uuid) (dto : UpdateUpsellRuleDto)
  | deleteUpsellRule (id : Uuid)

/-- A combo with its components and the product of each, and whether all are sold. -/
structure ComboView where
  combo : Combo
  items : List (ComboItem × Product)
  available : Bool

/-- What the menu pages are answered. -/
inductive Reply where
  | product (p : Product)
  | products (ps : List (Product × List (ModifierGroup × List ModifierOption)))
  | category (c : Category)
  | categories (cs : List Category)
  | group (g : ModifierGroup) (options : List ModifierOption)
  | groups (gs : List (ModifierGroup × List ModifierOption))
  | option (o : ModifierOption)
  | combo (c : ComboView)
  | combos (cs : List ComboView)
  | rule (r : UpsellRule)
  | rules (rs : List (UpsellRule × Product × Product))
  | deleted

/-! ## §2. Statements. -/

/-- `findFirst({ where: { id } })`. -/
def findFirst {ρ : Type} [TenantRow ρ Uuid Uuid] (T : Table Tables ρ) (t id : Uuid) :
    Transaction (Option ρ) :=
  T.read t fun rows => rows.find? fun r => decide (keyOf r = id)

/-- `findFirst`, or an answer of its own. -/
def findOr {ρ : Type} [TenantRow ρ Uuid Uuid] (T : Table Tables ρ) (t id : Uuid)
    (e : ApiError) : Transaction ρ := do
  let existing ← findFirst T t id
  expect existing (.answered e)

/-- `assertCategory`, where a category is named. -/
def assertCategory (t : Uuid) (categoryId : Option Uuid) : Transaction Unit :=
  match categoryId with
  | none => pure ()
  | some id => do
      let _ ← findOr categories t id (.badRequest "Unknown category")
      pure ()

/-- `assertProduct`. -/
def assertProduct (t productId : Uuid) : Transaction Unit := do
  let _ ← findOr products t productId (.notFound "Product not found")
  pure ()

/-- `assertProductsActive`. -/
def assertProductsActive (t : Uuid) (productIds : List Uuid) : Transaction Unit := do
  let unique := distinct productIds
  let found ← products.read t fun rows =>
    rows.filter fun p => decide (p.id ∈ unique) && p.isActive
  ensure (found.length = unique.length)
    (.answered (.badRequest "One or more products are unavailable"))

/-- `ORDER BY sort_order, name`; `collate` is the order of names. -/
def menuOrder {ρ : Type} (collate : String → String → Bool) (sortOrder : ρ → ℤ)
    (name : ρ → String) (rows : List ρ) : List ρ :=
  orderBy sortOrder (rows.insertionSort fun a b => collate (name a) (name b) = true)

/-- The options of a group, in display order. -/
def optionsOf (options : List ModifierOption) (groupId : Uuid) : List ModifierOption :=
  orderBy (·.sortOrder) (options.filter fun o => decide (o.groupId = groupId))

/-- `MODIFIER_GROUP_SELECT`: the groups of a product with their options. -/
def groupsOf (groups : List ModifierGroup) (options : List ModifierOption) (productId : Uuid) :
    List (ModifierGroup × List ModifierOption) :=
  (orderBy (·.sortOrder) (groups.filter fun g => decide (g.productId = productId))).map fun g =>
    (g, optionsOf options g.id)

/-- `COMBO_SELECT`: the components of a combo, each with its product. -/
def itemsOf (t : Uuid) (combo : Combo) : Transaction ComboView := do
  let items ← comboItems.read t fun rows =>
    orderBy (·.sortOrder) (rows.filter fun i => decide (i.comboId = combo.id))
  let items ← items.mapM fun i => do
    let product ← findFirst products t i.productId
    let product ← expect product .inconsistent
    pure (i, product)
  -- `withAvailability`
  pure ⟨combo, items, items.all fun i => i.2.isActive⟩

/-- The rows of the components. -/
def itemRows (t comboId : Uuid) (items : List ComboItemInput) : List ComboItem :=
  items.mapIdx fun idx i =>
    { restaurantId := t, comboId, productId := i.productId, quantity := i.quantity
      sortOrder := i.sortOrder.getD idx }

/-- Inserts components; each has its foreign keys. -/
def insertItems (rows : List ComboItem) : Transaction Unit := do
  let _ ← rows.mapM fun i => combos.references (some i.comboId) .p2003
  let _ ← rows.mapM fun i => products.references (some i.productId) .p2003
  comboItems.insert rows

/-- ON DELETE SET NULL. -/
def Product.uncategorised (id : Uuid) (p : Product) : Product :=
  if p.categoryId = some id then { p with categoryId := none } else p

/-- A combo after a category is gone. -/
def Combo.uncategorised (id : Uuid) (c : Combo) : Combo :=
  if c.categoryId = some id then { c with categoryId := none } else c

/-- The delete of a category, and what it does wherever that is referred to. -/
def withoutCategory (t id : Uuid) (db : Tables) : Tables :=
  { db with
    categories := deleteWhere t (fun c => decide (keyOf c = id)) db.categories
    products := db.products.map (Product.uncategorised id)
    combos := db.combos.map (Combo.uncategorised id) }

/-- ON DELETE CASCADE of a modifier group. -/
def withoutGroup (t id : Uuid) (db : Tables) : Tables :=
  { db with
    modifierGroups := deleteWhere t (fun g => decide (keyOf g = id)) db.modifierGroups
    modifierOptions := db.modifierOptions.filter fun o => decide (o.groupId ≠ id) }

/-- ON DELETE CASCADE of a combo. -/
def withoutCombo (t id : Uuid) (db : Tables) : Tables :=
  { db with
    combos := deleteWhere t (fun c => decide (keyOf c = id)) db.combos
    comboItems := db.comboItems.filter fun i => decide (i.comboId ≠ id) }

/-! ## §3. Products and categories. -/

/-- A product after an edit. -/
def UpdateProductDto.updated (dto : UpdateProductDto) (p : Product) : Product :=
  { p with
    name := dto.name.getD p.name
    priceMinor := dto.priceMinor.getD p.priceMinor
    taxRateBp := dto.taxRateBp.getD p.taxRateBp
    categoryId := dto.categoryId.getD p.categoryId
    isActive := dto.isActive.getD p.isActive
    isPopular := dto.isPopular.getD p.isPopular }

/-- The row of a new product, with the defaults of the schema. -/
def CreateProductDto.row (dto : CreateProductDto) (t id : Uuid) : Product where
  id := id
  restaurantId := t
  categoryId := dto.categoryId
  name := dto.name
  priceMinor := dto.priceMinor
  taxRateBp := dto.taxRateBp.getD 500
  isActive := true
  isPopular := dto.isPopular.getD false
  sortOrder := 0

section

variable (collate : String → String → Bool) (t : Uuid)

/-- The products of the menu, each with its active groups and options. -/
def listProducts (includeInactive : Bool) : Transaction Reply := do
  let ps ← products.read t fun rows =>
    menuOrder collate (·.sortOrder) (·.name) (rows.filter fun p => includeInactive || p.isActive)
  -- `POS_MODIFIER_SELECT`
  let groups ← modifierGroups.read t fun rows => rows.filter (·.isActive)
  let options ← modifierOptions.read t fun rows => rows.filter (·.isActive)
  pure (.products (ps.map fun p => (p, groupsOf groups options p.id)))

/-- The categories in menu order. -/
def listCategoriesIn : Transaction Reply := do
  let cs ← categories.read t fun rows => menuOrder collate (·.sortOrder) (·.name) rows
  pure (.categories cs)

/-- A new product, whose name the menu must not have yet. -/
def createProduct (id : Uuid) (dto : CreateProductDto) : Transaction Reply :=
  rescue (conflictOn "A product with that name already exists") do
    assertCategory t dto.categoryId
    products.unique (fun p => decide (p.id = id)) .p2002
    products.unique (fun p => decide (p.restaurantId = t ∧ p.name = dto.name)) .p2002
    categories.references dto.categoryId .p2003
    products.insert [dto.row t id]
    pure (.product (dto.row t id))

/-- An edit of a product of the menu. -/
def updateProduct (id : Uuid) (dto : UpdateProductDto) : Transaction Reply := do
  let existing ← findOr products t id (.notFound "Product not found")
  assertCategory t (dto.categoryId.getD none)
  rescue (conflictOn "A product with that name already exists") do
    products.unique (fun p => decide (p.restaurantId = t ∧ dto.name = some p.name ∧ p.id ≠ id))
      .p2002
    categories.references (dto.categoryId.getD none) .p2003
    products.update t (fun p => decide (p.id = id)) dto.updated
    pure (.product (dto.updated existing))

/-- A new category, behind the others. -/
def createCategory (id : Uuid) (name : String) : Transaction Reply :=
  rescue (conflictOn "A category with that name already exists") do
    categories.unique (fun c => decide (c.id = id)) .p2002
    categories.unique (fun c => decide (c.restaurantId = t ∧ c.name = name)) .p2002
    categories.insert [⟨id, t, name, 0⟩]
    pure (.category ⟨id, t, name, 0⟩)

/-- A category is renamed. -/
def updateCategory (id : Uuid) (name : Option String) : Transaction Reply := do
  let existing ← findOr categories t id (.notFound "Category not found")
  rescue (conflictOn "A category with that name already exists") do
    categories.unique (fun c => decide (c.restaurantId = t ∧ name = some c.name ∧ c.id ≠ id))
      .p2002
    categories.update t (fun c => decide (c.id = id)) fun c =>
      { c with name := name.getD c.name }
    pure (.category { existing with name := name.getD existing.name })

/-- A category is deleted; its dishes stay, without one. -/
def deleteCategory (id : Uuid) : Transaction Reply := do
  let _ ← findOr categories t id (.notFound "Category not found")
  writeOf (withoutCategory t id)
  pure .deleted

/-- `updateMany({ where: { id }, data: { sortOrder } })`, and how many rows it found. -/
def setSortOrder (id : Uuid) (sortOrder : ℕ) : Transaction ℕ := do
  let count ← categories.read t fun rows => rows.countP fun c => decide (c.id = id)
  categories.update t (fun c => decide (c.id = id)) fun c => { c with sortOrder := sortOrder }
  pure count

/-- The categories are put in the order asked for, all of them at once. -/
def reorderCategories (ids : List Uuid) : Transaction Reply := do
  ensure ((distinct ids).length = ids.length) (.answered (.badRequest "Duplicate category ids"))
  let count ← categories.read t List.length
  ensure (count = ids.length)
    (.answered (.badRequest "The order must include every category exactly once"))
  let results ← ids.zipIdx.mapM fun (id, index) => setSortOrder t id index
  ensure (∀ r ∈ results, r ≠ 0) (.answered (.badRequest "Unknown category in order"))
  listCategoriesIn collate t

/-! ## §4. Modifiers. -/

/-- The groups of a product of the menu, each with its options. -/
def listProductModifierGroups (productId : Uuid) : Transaction Reply := do
  assertProduct t productId
  let groups ← modifierGroups.read t id
  let options ← modifierOptions.read t id
  pure (.groups (groupsOf groups options productId))

/-- A new group of a product; its bounds must not cross. -/
def createModifierGroup (id productId : Uuid) (dto : CreateModifierGroupDto) :
    Transaction Reply := do
  let minSelect := dto.minSelect.getD 0
  let maxSelect := dto.maxSelect.getD 1
  ensure (minSelect ≤ maxSelect)
    (.answered (.badRequest "Minimum selections cannot exceed the maximum"))
  assertProduct t productId
  -- the insert: its key, and the product it refers to
  modifierGroups.unique (fun g => decide (g.id = id)) .p2002
  products.references (some productId) .p2003
  let group : ModifierGroup :=
    ⟨id, t, productId, dto.name, minSelect, maxSelect, dto.sortOrder.getD 0, true⟩
  modifierGroups.insert [group]
  pure (.group group [])

/-- A group after an edit. -/
def UpdateModifierGroupDto.updated (dto : UpdateModifierGroupDto) (g : ModifierGroup) :
    ModifierGroup :=
  { g with
    name := dto.name.getD g.name
    minSelect := dto.minSelect.getD g.minSelect
    maxSelect := dto.maxSelect.getD g.maxSelect
    sortOrder := dto.sortOrder.getD g.sortOrder
    isActive := dto.isActive.getD g.isActive }

/-- An edit of a group; the bounds it would have must not cross. -/
def updateModifierGroup (id : Uuid) (dto : UpdateModifierGroupDto) : Transaction Reply := do
  let existing ← findOr modifierGroups t id (.notFound "Modifier group not found")
  ensure (dto.minSelect.getD existing.minSelect ≤ dto.maxSelect.getD existing.maxSelect)
    (.answered (.badRequest "Minimum selections cannot exceed the maximum"))
  modifierGroups.update t (fun g => decide (g.id = id)) dto.updated
  let options ← modifierOptions.read t fun rows => optionsOf rows id
  pure (.group (dto.updated existing) options)

/-- A group is deleted, with its options. -/
def deleteModifierGroup (id : Uuid) : Transaction Reply := do
  let _ ← findOr modifierGroups t id (.notFound "Modifier group not found")
  writeOf (withoutGroup t id)
  pure .deleted

/-- A new option of a group of the menu. -/
def createModifierOption (id groupId : Uuid) (dto : CreateModifierOptionDto) :
    Transaction Reply := do
  let _ ← findOr modifierGroups t groupId (.notFound "Modifier group not found")
  modifierOptions.unique (fun o => decide (o.id = id)) .p2002
  modifierGroups.references (some groupId) .p2003
  let option : ModifierOption :=
    ⟨id, t, groupId, dto.name, dto.priceAdjustMinor.getD 0, dto.sortOrder.getD 0, true⟩
  modifierOptions.insert [option]
  pure (.option option)

/-- An option after an edit. -/
def UpdateModifierOptionDto.updated (dto : UpdateModifierOptionDto) (o : ModifierOption) :
    ModifierOption :=
  { o with
    name := dto.name.getD o.name
    priceAdjustMinor := dto.priceAdjustMinor.getD o.priceAdjustMinor
    sortOrder := dto.sortOrder.getD o.sortOrder
    isActive := dto.isActive.getD o.isActive }

/-- An edit of an option of the menu. -/
def updateModifierOption (id : Uuid) (dto : UpdateModifierOptionDto) : Transaction Reply := do
  let existing ← findOr modifierOptions t id (.notFound "Modifier option not found")
  modifierOptions.update t (fun o => decide (o.id = id)) dto.updated
  pure (.option (dto.updated existing))

/-- An option is deleted. -/
def deleteModifierOption (id : Uuid) : Transaction Reply := do
  let _ ← findOr modifierOptions t id (.notFound "Modifier option not found")
  modifierOptions.delete t fun o => decide (o.id = id)
  pure .deleted

/-! ## §5. Combos and suggestions. -/

/-- The combos of the menu, with their items. -/
def listCombos (includeInactive : Bool) : Transaction Reply := do
  let cs ← combos.read t fun rows =>
    menuOrder collate (·.sortOrder) (·.name) (rows.filter fun c => includeInactive || c.isActive)
  let cs ← cs.mapM fun c => itemsOf t c
  pure (.combos cs)

/-- The row of a new combo, with the defaults of the schema. -/
def CreateComboDto.row (dto : CreateComboDto) (t id : Uuid) : Combo where
  id := id
  restaurantId := t
  categoryId := dto.categoryId
  name := dto.name
  description := dto.description
  priceMinor := dto.priceMinor
  taxRateBp := dto.taxRateBp.getD 500
  isActive := true
  isPopular := dto.isPopular.getD false
  sortOrder := dto.sortOrder.getD 0

/-- A new combo of active products. -/
def createCombo (id : Uuid) (dto : CreateComboDto) : Transaction Reply :=
  rescue (conflictOn "A combo with that name already exists") do
    assertProductsActive t (dto.items.map (·.productId))
    assertCategory t dto.categoryId
    combos.unique (fun c => decide (c.id = id)) .p2002
    combos.unique (fun c => decide (c.restaurantId = t ∧ c.name = dto.name)) .p2002
    categories.references dto.categoryId .p2003
    combos.insert [dto.row t id]
    insertItems (itemRows t id dto.items)
    let combo ← itemsOf t (dto.row t id)
    pure (.combo combo)

/-- A combo after an edit. -/
def UpdateComboDto.updated (dto : UpdateComboDto) (c : Combo) : Combo :=
  { c with
    name := dto.name.getD c.name
    description := dto.description.getD c.description
    priceMinor := dto.priceMinor.getD c.priceMinor
    taxRateBp := dto.taxRateBp.getD c.taxRateBp
    categoryId := dto.categoryId.getD c.categoryId
    isPopular := dto.isPopular.getD c.isPopular
    sortOrder := dto.sortOrder.getD c.sortOrder
    isActive := dto.isActive.getD c.isActive }

/-- The component set is replaced, where one is given. -/
def replaceItems (id : Uuid) (items : Option (List ComboItemInput)) : Transaction Unit :=
  match items with
  | none => pure ()
  | some items => do
      assertProductsActive t (items.map (·.productId))
      comboItems.delete t fun i => decide (i.comboId = id)
      insertItems (itemRows t id items)

/-- An edit of a combo of the menu. -/
def updateCombo (id : Uuid) (dto : UpdateComboDto) : Transaction Reply :=
  rescue (conflictOn "A combo with that name already exists") do
    let existing ← findOr combos t id (.notFound "Combo not found")
    assertCategory t (dto.categoryId.getD none)
    replaceItems t id dto.items
    combos.unique (fun c => decide (c.restaurantId = t ∧ dto.name = some c.name ∧ c.id ≠ id))
      .p2002
    categories.references (dto.categoryId.getD none) .p2003
    combos.update t (fun c => decide (c.id = id)) dto.updated
    let combo ← itemsOf t (dto.updated existing)
    pure (.combo combo)

/-- A combo is deleted, with its items. -/
def deleteCombo (id : Uuid) : Transaction Reply := do
  let _ ← findOr combos t id (.notFound "Combo not found")
  writeOf (withoutCombo t id)
  pure .deleted

/-- The suggestions, with the names of both products. -/
def listUpsellRules : Transaction Reply := do
  let rules ← upsellRules.read t fun rows => orderBy (·.sortOrder) rows
  let rules ← rules.mapM fun r => do
    let trigger ← findFirst products t r.triggerProductId
    let trigger ← expect trigger .inconsistent
    let suggested ← findFirst products t r.suggestedProductId
    let suggested ← expect suggested .inconsistent
    pure (r, trigger, suggested)
  pure (.rules rules)

/-- A new suggestion between two active products. -/
def createUpsellRule (id : Uuid) (dto : CreateUpsellRuleDto) : Transaction Reply := do
  ensure (dto.triggerProductId ≠ dto.suggestedProductId)
    (.answered (.badRequest "A product cannot upsell itself"))
  rescue (conflictOn "That suggestion already exists") do
    assertProductsActive t [dto.triggerProductId, dto.suggestedProductId]
    -- the direct reverse only; longer loops are not looked for
    let reciprocal ← upsellRules.read t fun rows => rows.any fun r =>
      decide (r.triggerProductId = dto.suggestedProductId
        ∧ r.suggestedProductId = dto.triggerProductId) && r.isActive
    ensure (reciprocal = false)
      (.answered (.badRequest "The reverse suggestion already exists — that would loop"))
    upsellRules.unique (fun r => decide (r.id = id)) .p2002
    -- one rule for each pair, active or not
    upsellRules.unique (fun r => decide (r.restaurantId = t
      ∧ r.triggerProductId = dto.triggerProductId
      ∧ r.suggestedProductId = dto.suggestedProductId)) .p2002
    products.references (some dto.triggerProductId) .p2003
    products.references (some dto.suggestedProductId) .p2003
    let rule : UpsellRule :=
      ⟨id, t, dto.triggerProductId, dto.suggestedProductId, dto.sortOrder.getD 0, true⟩
    upsellRules.insert [rule]
    pure (.rule rule)

/-- A suggestion after an edit. -/
def UpdateUpsellRuleDto.updated (dto : UpdateUpsellRuleDto) (r : UpsellRule) : UpsellRule :=
  { r with
    sortOrder := dto.sortOrder.getD r.sortOrder
    isActive := dto.isActive.getD r.isActive }

/-- An edit of a suggestion of the menu. -/
def updateUpsellRule (id : Uuid) (dto : UpdateUpsellRuleDto) : Transaction Reply := do
  let existing ← findOr upsellRules t id (.notFound "Upsell rule not found")
  upsellRules.update t (fun r => decide (r.id = id)) dto.updated
  pure (.rule (dto.updated existing))

/-- A suggestion is deleted. -/
def deleteUpsellRule (id : Uuid) : Transaction Reply := do
  let _ ← findOr upsellRules t id (.notFound "Upsell rule not found")
  upsellRules.delete t fun r => decide (r.id = id)
  pure .deleted

end

/-! ## §6. Any request. -/

/-- The transaction of a request of restaurant `t`. -/
def handle (collate : String → String → Bool) (t : Uuid) : Request → Transaction Reply
  | .listProducts includeInactive => listProducts collate t includeInactive
  | .listCategories => listCategoriesIn collate t
  | .createProduct id dto => createProduct t id dto
  | .updateProduct id dto => updateProduct t id dto
  | .listProductModifierGroups productId => listProductModifierGroups t productId
  | .createModifierGroup id productId dto => createModifierGroup t id productId dto
  | .updateModifierGroup id dto => updateModifierGroup t id dto
  | .deleteModifierGroup id => deleteModifierGroup t id
  | .createModifierOption id groupId dto => createModifierOption t id groupId dto
  | .updateModifierOption id dto => updateModifierOption t id dto
  | .deleteModifierOption id => deleteModifierOption t id
  | .createCategory id name => createCategory t id name
  | .updateCategory id name => updateCategory t id name
  | .deleteCategory id => deleteCategory t id
  | .reorderCategories ids => reorderCategories collate t ids
  | .listCombos includeInactive => listCombos collate t includeInactive
  | .createCombo id dto => createCombo t id dto
  | .updateCombo id dto => updateCombo t id dto
  | .deleteCombo id => deleteCombo t id
  | .listUpsellRules => listUpsellRules t
  | .createUpsellRule id dto => createUpsellRule t id dto
  | .updateUpsellRule id dto => updateUpsellRule t id dto
  | .deleteUpsellRule id => deleteUpsellRule t id

/-- The id a request brings is nobody's yet. -/
def Fresh (_ : Uuid) (r : Request) (db : Tables) : Prop :=
  match r with
  | .createProduct id _ => ∀ p ∈ db.products, p.id ≠ id
  | .createModifierGroup id _ _ => ∀ g ∈ db.modifierGroups, g.id ≠ id
  | .createModifierOption id _ _ => ∀ o ∈ db.modifierOptions, o.id ≠ id
  | .createCategory id _ => ∀ c ∈ db.categories, c.id ≠ id
  | .createCombo id _ => ∀ c ∈ db.combos, c.id ≠ id
  | .createUpsellRule id _ => ∀ r ∈ db.upsellRules, r.id ≠ id
  | _ => True

end OraOS.Menus
