/-
  OraOS.Catalogue.Modifiers — the modifier groups of a product, and how they are edited.

  Six operations edit groups and options.  They keep a group's minimum below its maximum;
  none compares it with the number of options the group offers, although an order is
  refused when the minimum cannot be met (only a group that offers nothing is excused).

    * `orderable_iff`           — what it takes for a product to be ordered;
    * `edit_choosable`          — when an edit leaves every group one that can be satisfied;
    * `every_product_orderable` — in runs of such edits every product can be ordered.
-/
import OraOS.Orders.Cart
import OraOS.Lib.Transition
import OraOS.Lib.Tally

namespace OraOS.Catalogue

open OraOS.Api
open OraOS.Lib
open OraOS.Orders

/-! ## §1. Requests. -/

/-- `CreateModifierGroupDto`, with its bounds. -/
structure CreateModifierGroupDto where
  name : String
  minSelect : Option ℤ
  maxSelect : Option ℤ
  sortOrder : Option ℤ
  minSelect_ok : ∀ n ∈ minSelect, 0 ≤ n ∧ n ≤ 30
  maxSelect_ok : ∀ n ∈ maxSelect, 1 ≤ n ∧ n ≤ 30
  sortOrder_ok : ∀ n ∈ sortOrder, 0 ≤ n

/-- `UpdateModifierGroupDto`, with its bounds. -/
structure UpdateModifierGroupDto where
  name : Option String
  minSelect : Option ℤ
  maxSelect : Option ℤ
  sortOrder : Option ℤ
  isActive : Option Bool
  minSelect_ok : ∀ n ∈ minSelect, 0 ≤ n ∧ n ≤ 30
  maxSelect_ok : ∀ n ∈ maxSelect, 1 ≤ n ∧ n ≤ 30
  sortOrder_ok : ∀ n ∈ sortOrder, 0 ≤ n

/-- `CreateModifierOptionDto`, with its bounds. -/
structure CreateModifierOptionDto where
  name : String
  priceAdjustMinor : Option ℤ
  sortOrder : Option ℤ
  priceAdjustMinor_ok : ∀ n ∈ priceAdjustMinor, 0 ≤ n ∧ n ≤ 10000000
  sortOrder_ok : ∀ n ∈ sortOrder, 0 ≤ n

/-- `UpdateModifierOptionDto`, with its bounds. -/
structure UpdateModifierOptionDto where
  name : Option String
  priceAdjustMinor : Option ℤ
  sortOrder : Option ℤ
  isActive : Option Bool
  priceAdjustMinor_ok : ∀ n ∈ priceAdjustMinor, 0 ≤ n ∧ n ≤ 10000000
  sortOrder_ok : ∀ n ∈ sortOrder, 0 ≤ n

/-! ## §2. Groups and options. -/

/-- The database with other groups. -/
@[simps] def Db.withModifierGroups (db : Db) (modifierGroups : List ModifierGroup) : Db :=
  { db with modifierGroups }

/-- `assertProduct`. -/
def assertProduct (db : Db) (productId : Uuid) : Except ApiError Unit :=
  require (∃ p ∈ db.products, p.id = productId) (.notFound "Product not found")

/-- The group with the id. -/
def findGroup (db : Db) (id : Uuid) : Except ApiError ModifierGroup :=
  found (db.modifierGroups.find? fun g => decide (g.id = id)) (.notFound "Modifier group not found")

/-- The option with the id, whatever its group. -/
def findOption (db : Db) (id : Uuid) : Except ApiError ModifierOption :=
  found ((db.modifierGroups.flatMap (·.options)).find? fun o => decide (o.id = id))
    (.notFound "Modifier option not found")

/-- The group that a request describes, before it has options. -/
def CreateModifierGroupDto.group (dto : CreateModifierGroupDto) (id productId : Uuid)
    (h : dto.minSelect.getD 0 ≤ dto.maxSelect.getD 1) : ModifierGroup where
  id := id
  productId := productId
  name := dto.name
  minSelect := dto.minSelect.getD 0
  maxSelect := dto.maxSelect.getD 1
  isActive := true
  sortOrder := dto.sortOrder.getD 0
  options := []
  select_valid := ⟨getD_of (fun n hn => (dto.minSelect_ok n hn).1) (le_refl 0),
    getD_of (fun n hn => (dto.maxSelect_ok n hn).1) (le_refl 1), h⟩

/-- `createModifierGroup`; `id` is the key the new row gets. -/
def createModifierGroup (db : Db) (id productId : Uuid) (dto : CreateModifierGroupDto) :
    Except ApiError Db :=
  if h : dto.minSelect.getD 0 ≤ dto.maxSelect.getD 1 then do
    assertProduct db productId
    require (∀ g ∈ db.modifierGroups, g.id ≠ id) (.uniqueViolation .primaryKey)
    pure (Db.withModifierGroups db (db.modifierGroups ++ [dto.group id productId h]))
  else .error (.badRequest "Minimum selections cannot exceed the maximum")

/-- The row an update writes; what the request leaves out stays. -/
def UpdateModifierGroupDto.updated (dto : UpdateModifierGroupDto) (g : ModifierGroup)
    (h : dto.minSelect.getD g.minSelect ≤ dto.maxSelect.getD g.maxSelect) : ModifierGroup :=
  { g with
    name := dto.name.getD g.name
    minSelect := dto.minSelect.getD g.minSelect
    maxSelect := dto.maxSelect.getD g.maxSelect
    isActive := dto.isActive.getD g.isActive
    sortOrder := dto.sortOrder.getD g.sortOrder
    select_valid := ⟨getD_of (fun n hn => (dto.minSelect_ok n hn).1) g.select_valid.1,
      getD_of (fun n hn => (dto.maxSelect_ok n hn).1) g.select_valid.2.1, h⟩ }

/-- `updateModifierGroup`. -/
def updateModifierGroup (db : Db) (id : Uuid) (dto : UpdateModifierGroupDto) :
    Except ApiError Db := do
  let existing ← findGroup db id
  if h : dto.minSelect.getD existing.minSelect ≤ dto.maxSelect.getD existing.maxSelect then
    pure (Db.withModifierGroups db (db.modifierGroups.map fun g =>
      if g.id = id then dto.updated existing h else g))
  else .error (.badRequest "Minimum selections cannot exceed the maximum")

/-- `deleteModifierGroup`; the options go with their group. -/
def deleteModifierGroup (db : Db) (id : Uuid) : Except ApiError Db := do
  let _ ← findGroup db id
  pure (Db.withModifierGroups db (db.modifierGroups.filter fun g => decide (g.id ≠ id)))

/-- The option that a request describes. -/
def CreateModifierOptionDto.option (dto : CreateModifierOptionDto) (id : Uuid) :
    ModifierOption where
  id := id
  name := dto.name
  priceAdjustMinor := dto.priceAdjustMinor.getD 0
  isActive := true
  sortOrder := dto.sortOrder.getD 0
  price_valid := getD_of (fun n hn => (dto.priceAdjustMinor_ok n hn).1) (le_refl 0)

/-- A group with other options. -/
def withOptions (g : ModifierGroup) (options : List ModifierOption) : ModifierGroup :=
  { g with options }

/-- A group with one option more. -/
def extended (groupId : Uuid) (o : ModifierOption) (g : ModifierGroup) : ModifierGroup :=
  if g.id = groupId then withOptions g (g.options ++ [o]) else g

@[simp] theorem extended_id (groupId : Uuid) (o : ModifierOption) (g : ModifierGroup) :
    (extended groupId o g).id = g.id := by
  unfold extended
  split <;> rfl

@[simp] theorem extended_productId (groupId : Uuid) (o : ModifierOption) (g : ModifierGroup) :
    (extended groupId o g).productId = g.productId := by
  unfold extended
  split <;> rfl

/-- `createModifierOption`. -/
def createModifierOption (db : Db) (id groupId : Uuid) (dto : CreateModifierOptionDto) :
    Except ApiError Db := do
  let _ ← findGroup db groupId
  require (∀ g ∈ db.modifierGroups, ∀ o ∈ g.options, o.id ≠ id) (.uniqueViolation .primaryKey)
  pure (Db.withModifierGroups db (db.modifierGroups.map (extended groupId (dto.option id))))

/-- The row after the edit: what is not given stays. -/
def UpdateModifierOptionDto.updated (dto : UpdateModifierOptionDto) (o : ModifierOption) :
    ModifierOption :=
  { o with
    name := dto.name.getD o.name
    priceAdjustMinor := dto.priceAdjustMinor.getD o.priceAdjustMinor
    isActive := dto.isActive.getD o.isActive
    sortOrder := dto.sortOrder.getD o.sortOrder
    price_valid := getD_of (fun n hn => (dto.priceAdjustMinor_ok n hn).1) o.price_valid }

/-- `updateModifierOption`. -/
def updateModifierOption (db : Db) (id : Uuid) (dto : UpdateModifierOptionDto) :
    Except ApiError Db := do
  let _ ← findOption db id
  pure (Db.withModifierGroups db (db.modifierGroups.map fun g =>
    withOptions g (g.options.map fun o => if o.id = id then dto.updated o else o)))

/-- `deleteModifierOption`. -/
def deleteModifierOption (db : Db) (id : Uuid) : Except ApiError Db := do
  let _ ← findOption db id
  pure (Db.withModifierGroups db (db.modifierGroups.map fun g =>
    withOptions g (g.options.filter fun o => decide (o.id ≠ id))))

/-! ## §3. What it takes to order a product. -/

/-- The first options of a group, as many as it requires. -/
def required (g : ModifierGroup) : List Uuid := (optionIds g).take g.minSelect.toNat

/-- The first options of each group. -/
def firstOptions (groups : List ModifierGroup) : List Uuid := groups.flatMap required

/-- No option comes twice among the first ones. -/
theorem firstOptions_nodup {groups : List ModifierGroup} (hkeys : (groups.flatMap optionIds).Nodup) :
    (firstOptions groups).Nodup :=
  (List.Sublist.flatMap_right groups fun _ _ => List.take_sublist _ _).nodup hkeys

/-- Of a group, the first options are chosen and no others. -/
theorem chosenIn_firstOptions {groups : List ModifierGroup}
    (hkeys : (groups.flatMap optionIds).Nodup) {g : ModifierGroup} (hg : g ∈ groups) :
    chosenIn g (firstOptions groups) = min g.minSelect g.options.length := by
  set n := g.minSelect.toNat with hn
  have hids : (optionIds g).Nodup := (List.nodup_flatMap.mp hkeys).1 g hg
  -- the options split into the first ones and the rest
  have htaken : ∀ o ∈ g.options.take n, (firstOptions groups).contains o.id = true := by
    intro o ho
    rw [List.contains_iff_mem]
    refine List.mem_flatMap.mpr ⟨g, hg, ?_⟩
    rw [required, optionIds, ← List.map_take]
    exact List.mem_map_of_mem ho
  have hrest : ∀ o ∈ g.options.drop n, ¬ (firstOptions groups).contains o.id = true := by
    intro o ho hcontains
    have hdrop : o.id ∈ (optionIds g).drop n := by
      rw [optionIds, ← List.map_drop]
      exact List.mem_map_of_mem ho
    obtain ⟨g', hg', htake⟩ := List.mem_flatMap.mp (List.contains_iff_mem.mp hcontains)
    have hsame : g = g' :=
      group_of_option hkeys hg hg' (List.mem_of_mem_drop hdrop) (List.mem_of_mem_take htake)
    subst hsame
    exact List.disjoint_take_drop hids (le_refl n) htake hdrop
  have hfilter : g.options.filter (fun o => (firstOptions groups).contains o.id)
      = g.options.take n := by
    conv_lhs => rw [← List.take_append_drop n g.options]
    rw [List.filter_append, List.filter_eq_self.mpr htaken, List.filter_eq_nil_iff.mpr hrest,
      List.append_nil]
  have hmin := g.select_valid.1
  show (((g.options.filter fun o => (firstOptions groups).contains o.id).length : ℕ) : ℤ) = _
  rw [hfilter, List.length_take]
  omega

/-- **When some selection is accepted**: when each group offers nothing, or as many options
as it requires. -/
theorem selectable_iff {groups : List ModifierGroup} (hkeys : (groups.flatMap optionIds).Nodup) :
    (∃ selected selection, resolveModifierSelection groups selected = .ok selection)
      ↔ ∀ g ∈ groups, g.options = [] ∨ g.minSelect ≤ g.options.length := by
  constructor
  · rintro ⟨selected, selection, h⟩ g hg
    by_cases hoptions : g.options = []
    · exact .inl hoptions
    · right
      have hmin := ((resolveModifierSelection_ok.mp h).2.2.1 g hg hoptions).1
      have hle : chosenIn g selected ≤ g.options.length :=
        Int.ofNat_le.mpr (List.length_filter_le _ _)
      exact hmin.trans hle
  · intro h
    -- the first options of each group, as many as it asks for
    refine ⟨firstOptions groups, _, resolveModifierSelection_ok.mpr
      ⟨firstOptions_nodup hkeys, ?_, ?_, rfl⟩⟩
    · intro id hid
      obtain ⟨g, hg, htake⟩ := List.mem_flatMap.mp hid
      obtain ⟨o, ho, hoid⟩ := List.mem_map.mp (List.mem_of_mem_take htake)
      exact ⟨g, hg, o, ho, hoid⟩
    · intro g hg hoptions
      have henough : g.minSelect ≤ g.options.length := (h g hg).resolve_left hoptions
      rw [chosenIn_firstOptions hkeys hg, min_eq_left henough]
      exact ⟨le_refl _, g.select_valid.2.2⟩

/-- How many of the options are on the menu. -/
def activeCount (options : List ModifierOption) : ℤ := (options.countP (·.isActive) : ℕ)

/-- How many options the group offers. -/
def offered (g : ModifierGroup) : ℤ := activeCount g.options

/-- A group with these bounds and so many options can be satisfied, or is off the menu. -/
def Choosable (isActive : Bool) (minSelect offered : ℤ) : Prop :=
  isActive = true → offered = 0 ∨ minSelect ≤ offered

instance (isActive : Bool) (minSelect offered : ℤ) : Decidable (Choosable isActive minSelect offered) :=
  inferInstanceAs (Decidable (_ → _))

/-- The product can be ordered: some set of option ids is accepted for it. -/
def Orderable (db : Db) (productId : Uuid) : Prop :=
  ∃ selected selection, resolveModifierSelection (groupsOf db productId) selected = .ok selection

/-- The primary keys, and that a group belongs to a product. -/
structure ModifierKeys (db : Db) : Prop where
  groups : (db.modifierGroups.map (·.id)).Nodup
  options : OptionKeys db
  product : ∀ g ∈ db.modifierGroups, ∃ p ∈ db.products, p.id = g.productId

theorem mem_groupsOf {db : Db} {productId : Uuid} {g : ModifierGroup} :
    g ∈ groupsOf db productId ↔ ∃ g₀ ∈ db.modifierGroups, g₀.productId = productId
      ∧ g₀.isActive = true ∧ activeOptions g₀ = g := by
  unfold groupsOf
  rw [List.mem_map]
  constructor
  · rintro ⟨g₀, hg₀, rfl⟩
    rw [List.mem_insertionSort, List.mem_filter] at hg₀
    obtain ⟨hmem, hcond⟩ := hg₀
    simp only [Bool.and_eq_true, decide_eq_true_eq] at hcond
    exact ⟨g₀, hmem, hcond.1, hcond.2, rfl⟩
  · rintro ⟨g₀, hmem, hproduct, hactive, rfl⟩
    refine ⟨g₀, ?_, rfl⟩
    rw [List.mem_insertionSort, List.mem_filter]
    exact ⟨hmem, by simp [hproduct, hactive]⟩

/-- What the till shows of a group is the number `offered` counts. -/
theorem activeOptions_length (g : ModifierGroup) :
    (((activeOptions g).options.length : ℕ) : ℤ) = offered g := by
  unfold activeOptions offered activeCount
  rw [List.length_insertionSort, List.countP_eq_length_filter]

/-- **When every product can be ordered.** -/
theorem orderable_iff {db : Db} (h : ModifierKeys db) :
    (∀ p ∈ db.products, Orderable db p.id)
      ↔ ∀ g ∈ db.modifierGroups, Choosable g.isActive g.minSelect (offered g) := by
  constructor
  · intro horderable g hg hactive
    obtain ⟨p, hp, hid⟩ := h.product g hg
    have hgroups := (selectable_iff (groupsOf_keys h.options p.id)).mp (horderable p hp)
    -- what the order sees of the group are its active options
    rcases hgroups _ (mem_groupsOf.mpr ⟨g, hg, hid.symm, hactive, rfl⟩) with hnone | henough
    · left
      rw [← activeOptions_length, hnone]
      rfl
    · right
      rw [← activeOptions_length]
      exact henough
  · intro hchoosable p hp
    refine (selectable_iff (groupsOf_keys h.options p.id)).mpr ?_
    intro g hg
    obtain ⟨g₀, hmem, -, hactive, rfl⟩ := mem_groupsOf.mp hg
    rcases hchoosable g₀ hmem hactive with hnone | henough
    · left
      rw [← activeOptions_length] at hnone
      exact List.length_eq_zero_iff.mp (Int.ofNat_eq_zero.mp hnone)
    · right
      rw [← activeOptions_length] at henough
      exact henough

/-! ## §4. Any sequence of edits. -/

/-- One change the modifiers page makes to a group or to one of its options. -/
inductive ModifierEdit where
  | createGroup (id productId : Uuid) (dto : CreateModifierGroupDto)
  | updateGroup (id : Uuid) (dto : UpdateModifierGroupDto)
  | deleteGroup (id : Uuid)
  | createOption (id groupId : Uuid) (dto : CreateModifierOptionDto)
  | updateOption (id : Uuid) (dto : UpdateModifierOptionDto)
  | deleteOption (id : Uuid)
  /-- Products, orders and everything else that leaves the groups alone. -/
  | others

/-- The handler behind each change. -/
def edit (db : Db) : ModifierEdit → Except ApiError Db
  | .createGroup id productId dto => createModifierGroup db id productId dto
  | .updateGroup id dto => updateModifierGroup db id dto
  | .deleteGroup id => deleteModifierGroup db id
  | .createOption id groupId dto => createModifierOption db id groupId dto
  | .updateOption id dto => updateModifierOption db id dto
  | .deleteOption id => deleteModifierOption db id
  | .others => .ok db

/-- Products may change and be added; none is deleted. -/
structure LeavesGroups (db db' : Db) : Prop where
  modifierGroups : db'.modifierGroups = db.modifierGroups
  products : ∀ p ∈ db.products, ∃ p' ∈ db'.products, p'.id = p.id

/-- The edits that succeed, in any order, from a menu whose products can be ordered. -/
def catalogue : System Db ModifierEdit where
  init db := ModifierKeys db ∧ ∀ p ∈ db.products, Orderable db p.id
  step db e db' := match e with
    | .others => LeavesGroups db db'
    | e => edit db e = .ok db'

/-- An option as one of those a guest can pick: one if it is active, zero if not. -/
def asCount (isActive : Bool) : ℤ := if isActive then 1 else 0

/-- The edit leaves the group it is about one that can be satisfied. -/
def EditOk (db : Db) : ModifierEdit → Prop
  | .updateGroup id dto => ∀ g ∈ db.modifierGroups, g.id = id →
      Choosable (dto.isActive.getD g.isActive) (dto.minSelect.getD g.minSelect) (offered g)
  | .createOption _ groupId _ => ∀ g ∈ db.modifierGroups, g.id = groupId →
      Choosable g.isActive g.minSelect (offered g + 1)
  | .updateOption id dto => ∀ g ∈ db.modifierGroups, ∀ o ∈ g.options, o.id = id →
      Choosable g.isActive g.minSelect
        (offered g - asCount o.isActive + asCount (dto.isActive.getD o.isActive))
  | .deleteOption id => ∀ g ∈ db.modifierGroups, ∀ o ∈ g.options, o.id = id →
      Choosable g.isActive g.minSelect (offered g - asCount o.isActive)
  | .createGroup .. | .deleteGroup _ | .others => True

section Rows

variable {db db' : Db}

/-- A group that was found is in the catalogue under the id asked for. -/
theorem findGroup_ok {id : Uuid} {g : ModifierGroup} (h : findGroup db id = .ok g) :
    g ∈ db.modifierGroups ∧ g.id = id := by
  have hfind := found_ok.mp h
  exact ⟨List.mem_of_find?_eq_some hfind, by simpa using List.find?_some hfind⟩

/-- A statement that changes groups one by one, and leaves the keys of options distinct. -/
theorem ModifierKeys.map {f : ModifierGroup → ModifierGroup} (h : ModifierKeys db)
    (hf : ∀ g ∈ db.modifierGroups, (f g).id = g.id ∧ (f g).productId = g.productId)
    (hoptions : (db.modifierGroups.flatMap fun g => optionIds (f g)).Nodup) :
    ModifierKeys (Db.withModifierGroups db (db.modifierGroups.map f)) where
  groups := by
    have hids : ∀ g ∈ db.modifierGroups, ((·.id) ∘ f) g = g.id := fun g hg => (hf g hg).1
    show ((db.modifierGroups.map f).map (·.id)).Nodup
    rw [List.map_map, List.map_congr_left hids]
    exact h.groups
  options := by
    show ((db.modifierGroups.map f).flatMap optionIds).Nodup
    rw [List.flatMap_map]
    exact hoptions
  product g' hg' := by
    obtain ⟨g, hg, rfl⟩ := List.mem_map.mp hg'
    rw [(hf g hg).2]
    exact h.product g hg

/-- And one that gives no group a new option does. -/
theorem options_shrink {f : ModifierGroup → ModifierGroup} (h : ModifierKeys db)
    (hf : ∀ g ∈ db.modifierGroups, (optionIds (f g)).Sublist (optionIds g)) :
    (db.modifierGroups.flatMap fun g => optionIds (f g)).Nodup :=
  (List.Sublist.flatMap_right db.modifierGroups hf).nodup h.options

/-- Deleting groups leaves the keys unique. -/
theorem ModifierKeys.filter (h : ModifierKeys db) (p : ModifierGroup → Bool) :
    ModifierKeys (Db.withModifierGroups db (db.modifierGroups.filter p)) where
  groups := (List.filter_sublist.map _).nodup h.groups
  options := (List.filter_sublist.flatMap optionIds).nodup h.options
  product g hg := h.product g (List.mem_of_mem_filter hg)

/-- A new group has no options yet, and its keys are new. -/
theorem ModifierKeys.createGroup (h : ModifierKeys db) {id productId : Uuid}
    {dto : CreateModifierGroupDto} (hok : createModifierGroup db id productId dto = .ok db') :
    ModifierKeys db' ∧ ∃ g, g.options = []
      ∧ db' = Db.withModifierGroups db (db.modifierGroups ++ [g]) := by
  unfold createModifierGroup at hok
  split at hok
  next hbounds =>
    simp only [assertProduct, bind_ok, require_ok] at hok
    obtain ⟨-, hproduct, -, hnew, hok⟩ := hok
    cases pure_ok.mp hok
    refine ⟨⟨nodup_keys_append h.groups hnew, ?_, ?_⟩, _, rfl, rfl⟩
    -- the new group brings no option
    · show ((db.modifierGroups ++ [dto.group id productId hbounds]).flatMap optionIds).Nodup
      rw [List.flatMap_append]
      show (db.modifierGroups.flatMap optionIds ++ []).Nodup
      rw [List.append_nil]
      exact h.options
    · intro g hg
      rcases List.mem_append.mp hg with hold | hg
      · exact h.product g hold
      · rw [List.mem_singleton.mp hg]
        exact hproduct
  next => cases hok

/-- A new option goes at the end of its group, under a new key. -/
theorem ModifierKeys.createOption (h : ModifierKeys db) {id groupId : Uuid}
    {dto : CreateModifierOptionDto} (hok : createModifierOption db id groupId dto = .ok db') :
    ModifierKeys db' ∧ db' = Db.withModifierGroups db
      (db.modifierGroups.map (extended groupId (dto.option id))) := by
  simp only [createModifierOption, bind_ok, require_ok] at hok
  obtain ⟨g, hgroup, -, hnew, hok⟩ := hok
  cases pure_ok.mp hok
  obtain ⟨hg, rfl⟩ := findGroup_ok hgroup
  refine ⟨h.map (fun x _ => ⟨extended_id _ _ x, extended_productId _ _ x⟩) ?_, rfl⟩
  -- one key more, in the block of the group
  obtain ⟨l₁, l₂, hsplit, hmap, -⟩ := exists_at_key h.groups hg
  have hold : (l₁.flatMap optionIds ++ (optionIds g ++ l₂.flatMap optionIds)).Nodup := by
    have hdb := h.options
    rw [OptionKeys, hsplit, List.flatMap_append, List.flatMap_cons] at hdb
    exact hdb
  have hfresh : id ∉ l₁.flatMap optionIds ++ (optionIds g ++ l₂.flatMap optionIds) := by
    rw [← List.flatMap_cons, ← List.flatMap_append, ← hsplit]
    intro hmem
    obtain ⟨g', hg', hid⟩ := List.mem_flatMap.mp hmem
    obtain ⟨o, ho, hoid⟩ := List.mem_map.mp hid
    exact hnew g' hg' o ho hoid
  have hblock : optionIds (withOptions g (g.options ++ [dto.option id])) = optionIds g ++ [id] :=
    List.map_append
  have hafter : (db.modifierGroups.flatMap fun x => optionIds (extended g.id (dto.option id) x))
      = l₁.flatMap optionIds ++ optionIds g ++ id :: l₂.flatMap optionIds := by
    have hrows : db.modifierGroups.map (extended g.id (dto.option id))
        = l₁ ++ withOptions g (g.options ++ [dto.option id]) :: l₂ :=
      hmap fun x => withOptions x (x.options ++ [dto.option id])
    rw [← List.flatMap_map, hrows, List.flatMap_append, List.flatMap_cons, hblock]
    simp
  rw [hafter, List.perm_middle.nodup_iff, List.append_assoc]
  exact List.nodup_cons.mpr ⟨hfresh, hold⟩

/-! ## §5. What an edit does to the number of options. -/

/-- The active options are counted one by one, wherever they stand. -/
theorem activeCount_middle (l₁ l₂ : List ModifierOption) (o : ModifierOption) :
    activeCount (l₁ ++ o :: l₂) = activeCount (l₁ ++ l₂) + asCount o.isActive := by
  unfold activeCount asCount
  rw [List.countP_append, List.countP_cons, List.countP_append]
  split <;> push_cast <;> ring

theorem offered_append (g : ModifierGroup) (o : ModifierOption) :
    offered (withOptions g (g.options ++ [o])) = offered g + asCount o.isActive := by
  show activeCount (g.options ++ [o]) = activeCount g.options + asCount o.isActive
  rw [activeCount_middle, List.append_nil]

/-- Editing an option exchanges what it counted for before the edit for what it counts
for after. -/
theorem offered_update {g : ModifierGroup} (hids : (optionIds g).Nodup) {o : ModifierOption}
    (ho : o ∈ g.options) (dto : UpdateModifierOptionDto) :
    offered (withOptions g (g.options.map fun x => if x.id = o.id then dto.updated x else x))
      = offered g - asCount o.isActive + asCount (dto.isActive.getD o.isActive) := by
  obtain ⟨l₁, l₂, hsplit, hmap, -⟩ := exists_at_key hids ho
  have hbefore : offered g = activeCount (l₁ ++ l₂) + asCount o.isActive := by
    rw [offered, hsplit, activeCount_middle]
  show activeCount (g.options.map _) = _
  rw [hmap, activeCount_middle, hbefore]
  show _ + asCount (dto.isActive.getD o.isActive) = _
  ring

/-- A deleted option is no longer counted. -/
theorem offered_delete {g : ModifierGroup} (hids : (optionIds g).Nodup) {o : ModifierOption}
    (ho : o ∈ g.options) :
    offered (withOptions g (g.options.filter fun x => decide (x.id ≠ o.id)))
      = offered g - asCount o.isActive := by
  obtain ⟨l₁, l₂, hsplit, -, hfilter⟩ := exists_at_key hids ho
  have hbefore : offered g = activeCount (l₁ ++ l₂) + asCount o.isActive := by
    rw [offered, hsplit, activeCount_middle]
  show activeCount (g.options.filter _) = _
  rw [hfilter, hbefore]
  ring

end Rows

/-! ## §6. One edit. -/

/-- Every group can be satisfied, or is off the menu. -/
def AllChoosable (db : Db) : Prop :=
  ∀ g ∈ db.modifierGroups, Choosable g.isActive g.minSelect (offered g)

/-- What is to be shown of an edit: it keeps the keys, and its condition says when it keeps
every group one that can be satisfied. -/
def Judged (db : Db) (e : ModifierEdit) (db' : Db) : Prop :=
  ModifierKeys db' ∧ (AllChoosable db' ↔ EditOk db e)

section Edits

variable {db db' : Db} (hdb : AllChoosable db)

include hdb in
/-- The two statements on an option: only the group it belongs to counts differently. -/
theorem optionEdit_choosable {id : Uuid} {f : List ModifierOption → List ModifierOption}
    {after : ModifierGroup → ModifierOption → ℤ}
    (hf : ∀ g ∈ db.modifierGroups, ∀ o ∈ g.options, o.id = id →
      offered (withOptions g (f g.options)) = after g o)
    (hothers : ∀ g ∈ db.modifierGroups, (∀ o ∈ g.options, o.id ≠ id) → f g.options = g.options) :
    AllChoosable (Db.withModifierGroups db
        (db.modifierGroups.map fun g => withOptions g (f g.options)))
      ↔ ∀ g ∈ db.modifierGroups, ∀ o ∈ g.options, o.id = id →
          Choosable g.isActive g.minSelect (after g o) := by
  refine List.forall_mem_map.trans ⟨?_, ?_⟩
  · intro hall g hg o ho hid
    have hafter := hall g hg
    rw [hf g hg o ho hid] at hafter
    exact hafter
  · intro hok g hg
    -- a group without the option is as it was
    by_cases hown : ∃ o ∈ g.options, o.id = id
    · obtain ⟨o, ho, hid⟩ := hown
      rw [hf g hg o ho hid]
      exact hok g hg o ho hid
    · push Not at hown
      rw [hothers g hg hown]
      exact hdb g hg

variable (hkeys : ModifierKeys db)

include hkeys hdb

/-- **A group is created within the bounds it was asked with.** -/
theorem createGroup_judged {id productId : Uuid} {dto : CreateModifierGroupDto}
    (h : createModifierGroup db id productId dto = .ok db') :
    Judged db (.createGroup id productId dto) db' := by
  obtain ⟨hkeys', g, hnone, rfl⟩ := hkeys.createGroup h
  refine ⟨hkeys', iff_of_true ?_ trivial⟩
  intro g' hg'
  rcases List.mem_append.mp hg' with hold | hnew
  · exact hdb g' hold
  · -- the new group offers nothing yet
    rw [List.mem_singleton.mp hnew]
    intro _
    left
    rw [offered, hnone]
    rfl

/-- **An edit of the bounds is checked against the options the group has.** -/
theorem updateGroup_judged {id : Uuid} {dto : UpdateModifierGroupDto}
    (h : updateModifierGroup db id dto = .ok db') : Judged db (.updateGroup id dto) db' := by
  simp only [updateModifierGroup, bind_ok] at h
  obtain ⟨existing, hfind, h⟩ := h
  obtain ⟨hmem, rfl⟩ := findGroup_ok hfind
  -- the bounds that were checked are those of the one group with this id
  have hsame : ∀ g ∈ db.modifierGroups, g.id = existing.id → g = existing := fun g hg hid =>
    List.inj_on_of_nodup_map hkeys.groups hg hmem hid
  split at h
  next hbounds =>
    cases pure_ok.mp h
    refine ⟨hkeys.map ?_ (options_shrink hkeys ?_), ?_⟩
    · intro g hg
      by_cases hid : g.id = existing.id
      · rw [if_pos hid, hsame g hg hid]
        exact ⟨rfl, rfl⟩
      · rw [if_neg hid]
        exact ⟨rfl, rfl⟩
    · intro g hg
      by_cases hid : g.id = existing.id
      · rw [if_pos hid, hsame g hg hid]
        exact List.Sublist.refl _
      · rw [if_neg hid]
    · refine List.forall_mem_map.trans ⟨?_, ?_⟩
      · intro hall g hg hid
        have hafter := hall g hg
        rw [if_pos hid] at hafter
        rw [hsame g hg hid]
        exact hafter
      · intro hok g hg
        by_cases hid : g.id = existing.id
        · have hafter := hok g hg hid
          rw [hsame g hg hid] at hafter
          rw [if_pos hid]
          exact hafter
        · rw [if_neg hid]
          exact hdb g hg
  next => cases h

/-- Deleting a group leaves the others as they were. -/
theorem deleteGroup_judged {id : Uuid} (h : deleteModifierGroup db id = .ok db') :
    Judged db (.deleteGroup id) db' := by
  simp only [deleteModifierGroup, bind_ok] at h
  obtain ⟨_, -, h⟩ := h
  cases pure_ok.mp h
  exact ⟨hkeys.filter _, iff_of_true (fun g hg => hdb g (List.mem_of_mem_filter hg)) trivial⟩

/-- A new option can only make its group easier to satisfy. -/
theorem createOption_judged {id groupId : Uuid} {dto : CreateModifierOptionDto}
    (h : createModifierOption db id groupId dto = .ok db') :
    Judged db (.createOption id groupId dto) db' := by
  obtain ⟨hkeys', rfl⟩ := hkeys.createOption h
  have hcount : ∀ g, offered (withOptions g (g.options ++ [dto.option id])) = offered g + 1 :=
    fun g => offered_append g (dto.option id)
  refine ⟨hkeys', List.forall_mem_map.trans ⟨?_, ?_⟩⟩
  · intro hall g hg hid
    have hafter := hall g hg
    rw [extended, if_pos hid, hcount] at hafter
    exact hafter
  · intro hok g hg
    by_cases hid : g.id = groupId
    · rw [extended, if_pos hid, hcount]
      exact hok g hg hid
    · rw [extended, if_neg hid]
      exact hdb g hg

/-- **Switching an option off is judged by what remains.** -/
theorem updateOption_judged {id : Uuid} {dto : UpdateModifierOptionDto}
    (h : updateModifierOption db id dto = .ok db') : Judged db (.updateOption id dto) db' := by
  simp only [updateModifierOption, bind_ok] at h
  obtain ⟨_, -, h⟩ := h
  cases pure_ok.mp h
  refine ⟨hkeys.map (fun _ _ => ⟨rfl, rfl⟩) (options_shrink hkeys ?_),
    optionEdit_choosable hdb ?_ ?_⟩
  · intro g _
    have hids : (g.options.map fun o => if o.id = id then dto.updated o else o).map (·.id)
        = optionIds g := by
      rw [List.map_map]
      refine List.map_congr_left fun o _ => ?_
      show (if o.id = id then dto.updated o else o).id = o.id
      split <;> rfl
    exact (congrArg (List.Sublist · (optionIds g)) hids).mpr (List.Sublist.refl _)
  · rintro g hg o ho rfl
    exact offered_update ((List.nodup_flatMap.mp hkeys.options).1 g hg) ho dto
  · intro g _ hnone
    conv_rhs => rw [← List.map_id g.options]
    exact List.map_congr_left fun o ho => if_neg (hnone o ho)

/-- **Deleting an option is judged by what remains.** -/
theorem deleteOption_judged {id : Uuid} (h : deleteModifierOption db id = .ok db') :
    Judged db (.deleteOption id) db' := by
  simp only [deleteModifierOption, bind_ok] at h
  obtain ⟨_, -, h⟩ := h
  cases pure_ok.mp h
  refine ⟨hkeys.map (fun _ _ => ⟨rfl, rfl⟩) (options_shrink hkeys fun g _ =>
    List.filter_sublist.map _), optionEdit_choosable hdb ?_ ?_⟩
  · rintro g hg o ho rfl
    exact offered_delete ((List.nodup_flatMap.mp hkeys.options).1 g hg) ho
  · intro g _ hnone
    exact List.filter_eq_self.mpr fun o ho => decide_eq_true (hnone o ho)

/-- **Every edit keeps the keys**, and leaves every group one that can be satisfied exactly
when it meets its condition. -/
theorem edit_judged {e : ModifierEdit} (h : catalogue.step db e db') : Judged db e db' := by
  cases e with
  | createGroup id productId dto => exact createGroup_judged hdb hkeys h
  | updateGroup id dto => exact updateGroup_judged hdb hkeys h
  | deleteGroup id => exact deleteGroup_judged hdb hkeys h
  | createOption id groupId dto => exact createOption_judged hdb hkeys h
  | updateOption id dto => exact updateOption_judged hdb hkeys h
  | deleteOption id => exact deleteOption_judged hdb hkeys h
  -- products may be added, and the groups stay
  | others =>
      refine ⟨⟨?_, ?_, ?_⟩, iff_of_true ?_ trivial⟩
      · rw [LeavesGroups.modifierGroups h]
        exact hkeys.groups
      · rw [OptionKeys, LeavesGroups.modifierGroups h]
        exact hkeys.options
      · intro g hg
        rw [LeavesGroups.modifierGroups h] at hg
        obtain ⟨p, hp, hid⟩ := hkeys.product g hg
        obtain ⟨p', hp', hid'⟩ := LeavesGroups.products h p hp
        exact ⟨p', hp', hid'.trans hid⟩
      · intro g hg
        rw [LeavesGroups.modifierGroups h] at hg
        exact hdb g hg

end Edits

/-! ## §7. Every sequence. -/

/-- **Every product can be ordered**, in the runs whose edits meet their condition; and an
edit that succeeds without it leaves a product that cannot be. -/
theorem every_product_orderable {db : Db} (h : (catalogue.restrict EditOk).Reachable db) :
    (∀ p ∈ db.products, Orderable db p.id)
      ∧ ∀ e db', catalogue.step db e db' →
          ((∀ p ∈ db'.products, Orderable db' p.id) ↔ EditOk db e) := by
  have hdb : ModifierKeys db ∧ AllChoosable db := by
    induction h with
    | init h0 => exact ⟨h0.1, (orderable_iff h0.1).mp h0.2⟩
    | step _ hstep ih =>
        have hjudged := edit_judged ih.2 ih.1 hstep.2
        exact ⟨hjudged.1, hjudged.2.mpr hstep.1⟩
  refine ⟨(orderable_iff hdb.1).mpr hdb.2, ?_⟩
  intro e db' hstep
  obtain ⟨hkeys', hiff⟩ := edit_judged hdb.2 hdb.1 hstep
  exact (orderable_iff hkeys').trans hiff

instance (db : Db) (e : ModifierEdit) : Decidable (EditOk db e) := by
  unfold EditOk
  split <;> infer_instance

/-- One product, without modifiers. -/
def onlyMomo : Db :=
  { Db.empty with products := [⟨1, "Momo", 20000, 1300, true, by decide⟩] }

theorem onlyMomo_init : catalogue.init onlyMomo := by
  have hkeys : ModifierKeys onlyMomo := ⟨List.nodup_nil, List.nodup_nil, List.forall_mem_nil _⟩
  exact ⟨hkeys, (orderable_iff hkeys).mpr (List.forall_mem_nil _)⟩

theorem edit_step (db : Db) (e : ModifierEdit) (db' : Db) (h : (edit db e).toOption = some db') :
    catalogue.step db e db' := by
  have hok := toOption_some.mp h
  cases e with
  | others =>
      cases hok
      exact ⟨rfl, fun p hp => ⟨p, hp, rfl⟩⟩
  | createGroup | updateGroup | deleteGroup | createOption | updateOption | deleteOption =>
      exact hok

/-- Sauces, two at least; the bounds come last. -/
def optionsFirst : List ModifierEdit :=
  [.createGroup 10 1 ⟨"Sauces", none, some 3, none, nofun, by decide, nofun⟩,
    .createOption 11 10 ⟨"Achar", none, none, nofun, nofun⟩,
    .createOption 12 10 ⟨"Chilli", some 1000, none, by decide, nofun⟩,
    .updateGroup 10 ⟨none, some 2, none, none, none, by decide, nofun, nofun⟩,
    .updateOption 12 ⟨some "Hot chilli", none, none, none, nofun, nofun⟩]

theorem optionsFirst_runs :
    (System.replay (System.guarded EditOk fun db e => (edit db e).toOption) optionsFirst
      onlyMomo).isSome = true := by
  decide +kernel

/-- Two options, and then a minimum of two: the product can be ordered. -/
theorem every_product_orderable_optionsFirst :
    ∃ db : Db, db.modifierGroups.map (fun g => (g.minSelect, offered g)) = [(2, 2)]
      ∧ ∀ p ∈ db.products, Orderable db p.id := by
  have h := System.replay_restricted (M := catalogue) (C := EditOk)
    (f := fun db e => (edit db e).toOption) edit_step optionsFirst onlyMomo onlyMomo_init
    (Option.some_get optionsFirst_runs).symm
  exact ⟨_, by decide +kernel, (every_product_orderable h).1⟩

/-- And then one of the two sauces runs out. -/
def sauceRunsOut : List ModifierEdit :=
  optionsFirst ++ [.updateOption 12 ⟨none, none, none, some false, nofun, nofun⟩]

theorem sauceRunsOut_runs :
    (System.replay (fun db e => (edit db e).toOption) sauceRunsOut onlyMomo).isSome = true := by
  decide +kernel

/-- Two of one. -/
theorem product_not_orderable :
    ∃ db, catalogue.Reachable db ∧ ∃ p ∈ db.products, ¬ Orderable db p.id := by
  let db := (System.replay (fun db e => (edit db e).toOption) sauceRunsOut onlyMomo).get
    sauceRunsOut_runs
  have hreachable : catalogue.Reachable db := System.replay_reachable (M := catalogue) edit_step
    sauceRunsOut onlyMomo onlyMomo_init (Option.some_get sauceRunsOut_runs).symm
  have hmomo : ∃ p ∈ db.products, p.id = 1 := by decide +kernel
  have hkeys : OptionKeys db := by decide +kernel
  obtain ⟨p, hp, hid⟩ := hmomo
  refine ⟨db, hreachable, p, hp, ?_⟩
  rw [hid, Orderable, selectable_iff (groupsOf_keys hkeys 1)]
  decide +kernel

end OraOS.Catalogue
