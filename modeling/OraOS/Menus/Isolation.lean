/-
  OraOS.Menus.Isolation — no restaurant's requests show or touch another's menu.

  Policies confine what a request reads and writes by itself.  Foreign keys and their
  actions are not confined, so what keeps the menus apart is that no reference crosses,
  and the services see to that by looking every id up under the policy first.

    * `own_…`         — each write keeps the references within the restaurant;
    * `handle_confined` — each request is confined;
    * `menus_isolated`  — in any order of requests of all restaurants, each menu and each
                          answer is what its own restaurant's requests make of it.
-/
import OraOS.Menus.Requests

namespace OraOS.Menus

open OraOS.Api
open OraOS.Lib

variable {t : Uuid} {db : Tables}

/-! ## §1. What keeps the references. -/

/-- A product in a category of its own menu keeps the menus apart. -/
theorem own_insertProduct (h : Own db) {p : Product} (hfresh : ∀ q ∈ db.products, q.id ≠ p.id)
    (hcategory : ∀ k ∈ p.categoryId, categories.Has p.restaurantId k db) :
    Own (products.put db (db.products ++ [p])) :=
  { h with
    product_keys := nodup_keys_append h.product_keys hfresh
    products_category := by
      refine h.products_category.append fun r hr k hk => ?_
      rw [List.mem_singleton.mp hr] at hk ⊢
      exact hcategory k hk
    groups_product := h.groups_product.onto_append _
    items_product := h.items_product.onto_append _
    rules_trigger := h.rules_trigger.onto_append _
    rules_suggested := h.rules_suggested.onto_append _ }

/-- Editing the products of one menu keeps them apart. -/
theorem own_updateProducts (h : Own db) {p : Product → Bool} {g : Product → Product}
    (hkey : ∀ r, keyOf (g r) = keyOf r) (htenant : ∀ r, tenantOf (g r) = tenantOf r)
    (hcategory : ∀ r k, (g r).categoryId = some k →
      r.categoryId = some k ∨ categories.Has t k db) :
    Own (products.put db (updateWhere t p g db.products)) :=
  { h with
    product_keys := (keys_updateWhere hkey).symm ▸ h.product_keys
    products_category := h.products_category.update htenant fun r _ _ => hcategory r
    groups_product := h.groups_product.onto_update hkey htenant
    items_product := h.items_product.onto_update hkey htenant
    rules_trigger := h.rules_trigger.onto_update hkey htenant
    rules_suggested := h.rules_suggested.onto_update hkey htenant }

/-- A new category keeps them apart. -/
theorem own_insertCategory (h : Own db) {c : Category} (hfresh : ∀ d ∈ db.categories, d.id ≠ c.id) :
    Own (categories.put db (db.categories ++ [c])) :=
  { h with
    category_keys := nodup_keys_append h.category_keys hfresh
    products_category := h.products_category.onto_append _
    combos_category := h.combos_category.onto_append _ }

/-- Renaming categories keeps them apart. -/
theorem own_updateCategories (h : Own db) {p : Category → Bool} {g : Category → Category}
    (hkey : ∀ r, keyOf (g r) = keyOf r) (htenant : ∀ r, tenantOf (g r) = tenantOf r) :
    Own (categories.put db (updateWhere t p g db.categories)) :=
  { h with
    category_keys := (keys_updateWhere hkey).symm ▸ h.category_keys
    products_category := h.products_category.onto_update hkey htenant
    combos_category := h.combos_category.onto_update hkey htenant }

/-- The keys of what is left. -/
theorem keys_filter {ρ : Type} [TenantRow ρ Uuid Uuid] {rows : List ρ} (q : ρ → Bool)
    (h : (rows.map keyOf).Nodup) : ((rows.filter q).map keyOf).Nodup :=
  (List.filter_sublist.map keyOf).nodup h

theorem keys_map {ρ : Type} [TenantRow ρ Uuid Uuid] {rows : List ρ} {g : ρ → ρ}
    (hg : ∀ r, keyOf (g r) = keyOf r) (h : (rows.map keyOf).Nodup) :
    ((rows.map g).map keyOf).Nodup := by
  rw [List.map_map]
  exact (List.map_congr_left fun r _ => hg r : rows.map (keyOf ∘ g) = _) ▸ h

section uncategorised

variable (id : Uuid) (p : Product) (c : Combo)

theorem keyOf_uncategorised : keyOf (p.uncategorised id) = keyOf p := by
  unfold Product.uncategorised
  split <;> rfl

theorem tenantOf_uncategorised : tenantOf (p.uncategorised id) = tenantOf p := by
  unfold Product.uncategorised
  split <;> rfl

theorem keyOf_combo_uncategorised : keyOf (c.uncategorised id) = keyOf c := by
  unfold Combo.uncategorised
  split <;> rfl

theorem tenantOf_combo_uncategorised : tenantOf (c.uncategorised id) = tenantOf c := by
  unfold Combo.uncategorised
  split <;> rfl

end uncategorised

/-- **A deleted category leaves the dishes of its own menu without one.** -/
theorem own_withoutCategory (h : Own db) (id : Uuid) : Own (withoutCategory t id db) :=
  { h with
    category_keys := keys_filter _ h.category_keys
    product_keys := keys_map (keyOf_uncategorised id) h.product_keys
    combo_keys := keys_map (keyOf_combo_uncategorised id) h.combo_keys
    products_category := by
      -- `ON DELETE SET NULL`: what was in the category is in none
      refine h.products_category.without fun p' hp' => ?_
      obtain ⟨p, hp, rfl⟩ := List.mem_map.mp hp'
      unfold Product.uncategorised
      split
      · exact ⟨nofun, .inl rfl⟩
      next hne => exact ⟨hne, .inr ⟨p, hp, rfl, rfl⟩⟩
    combos_category := by
      refine h.combos_category.without fun c' hc' => ?_
      obtain ⟨c, hc, rfl⟩ := List.mem_map.mp hc'
      unfold Combo.uncategorised
      split
      · exact ⟨nofun, .inl rfl⟩
      next hne => exact ⟨hne, .inr ⟨c, hc, rfl, rfl⟩⟩
    groups_product :=
      h.groups_product.onto_map (keyOf_uncategorised id) (tenantOf_uncategorised id)
    items_combo :=
      h.items_combo.onto_map (keyOf_combo_uncategorised id) (tenantOf_combo_uncategorised id)
    items_product :=
      h.items_product.onto_map (keyOf_uncategorised id) (tenantOf_uncategorised id)
    rules_trigger :=
      h.rules_trigger.onto_map (keyOf_uncategorised id) (tenantOf_uncategorised id)
    rules_suggested :=
      h.rules_suggested.onto_map (keyOf_uncategorised id) (tenantOf_uncategorised id) }

/-- A modifier group of a product of the same menu keeps them apart. -/
theorem own_insertGroup (h : Own db) {g : ModifierGroup}
    (hfresh : ∀ g' ∈ db.modifierGroups, g'.id ≠ g.id)
    (hproduct : products.Has g.restaurantId g.productId db) :
    Own (modifierGroups.put db (db.modifierGroups ++ [g])) :=
  { h with
    group_keys := nodup_keys_append h.group_keys hfresh
    groups_product := by
      refine h.groups_product.append fun r hr k hk => ?_
      rw [List.mem_singleton.mp hr] at hk ⊢
      cases hk
      exact hproduct
    options_group := h.options_group.onto_append _ }

theorem own_updateGroups (h : Own db) {p : ModifierGroup → Bool}
    {g : ModifierGroup → ModifierGroup} (hkey : ∀ r, keyOf (g r) = keyOf r)
    (htenant : ∀ r, tenantOf (g r) = tenantOf r) (hproduct : ∀ r, (g r).productId = r.productId) :
    Own (modifierGroups.put db (updateWhere t p g db.modifierGroups)) :=
  { h with
    group_keys := (keys_updateWhere hkey).symm ▸ h.group_keys
    groups_product := h.groups_product.update htenant fun r _ _ _ hk =>
      .inl (hproduct r ▸ hk)
    options_group := h.options_group.onto_update hkey htenant }

/-- Deleting a group deletes its options, all of the same menu. -/
theorem own_withoutGroup (h : Own db) (id : Uuid) : Own (withoutGroup t id db) :=
  { h with
    group_keys := keys_filter _ h.group_keys
    groups_product := h.groups_product.filter _
    options_group := by
      refine h.options_group.without fun o' ho' => ?_
      obtain ⟨ho, hne⟩ := List.mem_filter.mp ho'
      exact ⟨fun heq => of_decide_eq_true hne (Option.some.inj heq), .inr ⟨o', ho, rfl, rfl⟩⟩ }

/-- An option of a group of the same menu keeps them apart. -/
theorem own_insertOption (h : Own db) {o : ModifierOption}
    (hgroup : modifierGroups.Has o.restaurantId o.groupId db) :
    Own (modifierOptions.put db (db.modifierOptions ++ [o])) :=
  { h with
    options_group := by
      refine h.options_group.append fun r hr k hk => ?_
      rw [List.mem_singleton.mp hr] at hk ⊢
      cases hk
      exact hgroup }

theorem own_updateOptions (h : Own db) {p : ModifierOption → Bool}
    {g : ModifierOption → ModifierOption} (htenant : ∀ r, tenantOf (g r) = tenantOf r)
    (hgroup : ∀ r, (g r).groupId = r.groupId) :
    Own (modifierOptions.put db (updateWhere t p g db.modifierOptions)) :=
  { h with
    options_group := h.options_group.update htenant fun r _ _ _ hk => .inl (hgroup r ▸ hk) }

theorem own_deleteOptions (h : Own db) (p : ModifierOption → Bool) :
    Own (modifierOptions.put db (deleteWhere t p db.modifierOptions)) :=
  { h with options_group := h.options_group.filter _ }

/-- A combo in a category of its own menu keeps them apart. -/
theorem own_insertCombo (h : Own db) {c : Combo} (hfresh : ∀ d ∈ db.combos, d.id ≠ c.id)
    (hcategory : ∀ k ∈ c.categoryId, categories.Has c.restaurantId k db) :
    Own (combos.put db (db.combos ++ [c])) :=
  { h with
    combo_keys := nodup_keys_append h.combo_keys hfresh
    combos_category := by
      refine h.combos_category.append fun r hr k hk => ?_
      rw [List.mem_singleton.mp hr] at hk ⊢
      exact hcategory k hk
    items_combo := h.items_combo.onto_append _ }

theorem own_updateCombos (h : Own db) {p : Combo → Bool} {g : Combo → Combo}
    (hkey : ∀ r, keyOf (g r) = keyOf r) (htenant : ∀ r, tenantOf (g r) = tenantOf r)
    (hcategory : ∀ r k, (g r).categoryId = some k →
      r.categoryId = some k ∨ categories.Has t k db) :
    Own (combos.put db (updateWhere t p g db.combos)) :=
  { h with
    combo_keys := (keys_updateWhere hkey).symm ▸ h.combo_keys
    combos_category := h.combos_category.update htenant fun r _ _ => hcategory r
    items_combo := h.items_combo.onto_update hkey htenant }

/-- Deleting a combo deletes its items, all of the same menu. -/
theorem own_withoutCombo (h : Own db) (id : Uuid) : Own (withoutCombo t id db) :=
  { h with
    combo_keys := keys_filter _ h.combo_keys
    combos_category := h.combos_category.filter _
    items_combo := by
      refine h.items_combo.without fun i' hi' => ?_
      obtain ⟨hi, hne⟩ := List.mem_filter.mp hi'
      exact ⟨fun heq => of_decide_eq_true hne (Option.some.inj heq), .inr ⟨i', hi, rfl, rfl⟩⟩
    items_product := h.items_product.filter _ }

/-- Items of a combo and of products of the same menu keep them apart. -/
theorem own_insertItems (h : Own db) {items : List ComboItem}
    (hcombo : ∀ i ∈ items, combos.Has i.restaurantId i.comboId db)
    (hproduct : ∀ i ∈ items, products.Has i.restaurantId i.productId db) :
    Own (comboItems.put db (db.comboItems ++ items)) :=
  { h with
    items_combo := by
      refine h.items_combo.append fun i hi k hk => ?_
      cases hk
      exact hcombo i hi
    items_product := by
      refine h.items_product.append fun i hi k hk => ?_
      cases hk
      exact hproduct i hi }

theorem own_deleteItems (h : Own db) (p : ComboItem → Bool) :
    Own (comboItems.put db (deleteWhere t p db.comboItems)) :=
  { h with
    items_combo := h.items_combo.filter _
    items_product := h.items_product.filter _ }

/-- A rule between products of the same menu keeps them apart. -/
theorem own_insertRule (h : Own db) {r : UpsellRule}
    (htrigger : products.Has r.restaurantId r.triggerProductId db)
    (hsuggested : products.Has r.restaurantId r.suggestedProductId db) :
    Own (upsellRules.put db (db.upsellRules ++ [r])) :=
  { h with
    rules_trigger := by
      refine h.rules_trigger.append fun r' hr' k hk => ?_
      rw [List.mem_singleton.mp hr'] at hk ⊢
      cases hk
      exact htrigger
    rules_suggested := by
      refine h.rules_suggested.append fun r' hr' k hk => ?_
      rw [List.mem_singleton.mp hr'] at hk ⊢
      cases hk
      exact hsuggested }

theorem own_updateRules (h : Own db) {p : UpsellRule → Bool} {g : UpsellRule → UpsellRule}
    (htenant : ∀ r, tenantOf (g r) = tenantOf r)
    (htrigger : ∀ r, (g r).triggerProductId = r.triggerProductId)
    (hsuggested : ∀ r, (g r).suggestedProductId = r.suggestedProductId) :
    Own (upsellRules.put db (updateWhere t p g db.upsellRules)) :=
  { h with
    rules_trigger := h.rules_trigger.update htenant fun r _ _ _ hk => .inl (htrigger r ▸ hk)
    rules_suggested :=
      h.rules_suggested.update htenant fun r _ _ _ hk => .inl (hsuggested r ▸ hk) }

theorem own_deleteRules (h : Own db) (p : UpsellRule → Bool) :
    Own (upsellRules.put db (deleteWhere t p db.upsellRules)) :=
  { h with
    rules_trigger := h.rules_trigger.filter _
    rules_suggested := h.rules_suggested.filter _ }

/-! ## §2. The statements. -/

/-- The service's own answer. -/
def Answered (e : Failure) : Prop := ∃ a, e = .answered a

/-- Or a unique index that the service will answer for. -/
def Refused (e : Failure) : Prop := Answered e ∨ e = .p2002

theorem conflictOn_answered (message : String) (e : Failure) (h : Refused e) :
    Answered (conflictOn message e) := by
  rcases h with ⟨a, rfl⟩ | rfl
  · exact ⟨a, rfl⟩
  · exact ⟨_, rfl⟩

theorem answered (e : ApiError) : Answered (.answered e) := ⟨e, rfl⟩

theorem refused (e : ApiError) : Refused (.answered e) := .inl (answered e)

section

variable {ok : Failure → Prop} {P : Tables → Prop}

/-- **What a tenant looks up, it finds among its own.** -/
theorem findFirst_confined {ρ : Type} [TenantRow ρ Uuid Uuid] {T : Table Tables ρ}
    (hT : T.Splits menus) (id : Uuid) :
    Confined menus ok t P (findFirst T t id) fun o s =>
      o = (ownRows t (T.rows s)).find? (fun r => decide (keyOf r = id)) ∧ P s :=
  T.confined_table hT

/-- A row that is found is the restaurant's. -/
theorem findOr_confined {ρ : Type} [TenantRow ρ Uuid Uuid] {T : Table Tables ρ}
    (hT : T.Splits menus) (id : Uuid) (e : ApiError) (he : ok (.answered e)) :
    Confined menus ok t P (findOr T t id e) fun r s =>
      (r ∈ T.rows s ∧ keyOf r = id ∧ tenantOf r = t) ∧ P s := by
  refine confined_bind (findFirst_confined hT id) fun o => ?_
  refine (confined_expect he).weaken (fun _ _ hs => hs) ?_
  rintro r s - ⟨rfl, hfind, hP⟩
  obtain ⟨hmem, htenant⟩ := mem_ownRows.mp (List.mem_of_find?_eq_some hfind.symm)
  have hkey : keyOf r = id := by simpa using List.find?_some hfind.symm
  exact ⟨⟨hmem, hkey, htenant⟩, hP⟩

theorem has_found {ρ : Type} [TenantRow ρ Uuid Uuid] {T : Table Tables ρ} {r : ρ} {id : Uuid}
    (h : r ∈ T.rows db ∧ keyOf r = id ∧ tenantOf r = t) : T.Has t id db := ⟨r, h⟩

theorem assertCategory_confined (categoryId : Option Uuid)
    (he : ok (.answered (.badRequest "Unknown category"))) :
    Confined menus ok t P (assertCategory t categoryId) fun _ s =>
      (∀ k ∈ categoryId, categories.Has t k s) ∧ P s := by
  cases categoryId with
  | none => exact confined_pure fun _ _ hP => ⟨nofun, hP⟩
  | some id =>
      refine confined_bind (findOr_confined categories_splits id _ he) fun c => ?_
      refine confined_pure ?_
      rintro s - ⟨hc, hP⟩
      refine ⟨?_, hP⟩
      rintro k ⟨⟩
      exact has_found (T := categories) hc

theorem assertProduct_confined (productId : Uuid)
    (he : ok (.answered (.notFound "Product not found"))) :
    Confined menus ok t P (assertProduct t productId) fun _ s =>
      products.Has t productId s ∧ P s := by
  refine confined_bind (findOr_confined products_splits productId _ he) fun p => ?_
  refine confined_pure ?_
  rintro s - ⟨hp, hP⟩
  exact ⟨has_found (T := products) hp, hP⟩

/-- As many active products as ids: each id is one. -/
theorem all_active {rows : List Product} (hkeys : (rows.map keyOf).Nodup) {unique : List Uuid}
    (hlength : (rows.filter fun p => decide (p.id ∈ unique) && p.isActive).length
      = unique.length) {id : Uuid} (hid : id ∈ unique) :
    ∃ p ∈ rows, p.id = id ∧ p.isActive = true := by
  set found := rows.filter fun p => decide (p.id ∈ unique) && p.isActive with hfound
  have hids : (found.map keyOf).Nodup := keys_filter _ hkeys
  have hsub : found.map keyOf ⊆ unique := by
    intro k hk
    obtain ⟨p, hp, rfl⟩ := List.mem_map.mp hk
    exact of_decide_eq_true (Bool.and_eq_true_iff.mp (List.mem_filter.mp hp).2).1
  have hperm : (found.map keyOf).Perm unique := by
    refine (hids.subperm hsub).perm_of_length_le ?_
    rw [List.length_map, hlength]
  obtain ⟨p, hp, heq⟩ := List.mem_map.mp (hperm.mem_iff.mpr hid)
  obtain ⟨hmem, hcond⟩ := List.mem_filter.mp hp
  exact ⟨p, hmem, heq, (Bool.and_eq_true_iff.mp hcond).2⟩

theorem assertProductsActive_confined (ids : List Uuid)
    (he : ok (.answered (.badRequest "One or more products are unavailable"))) :
    Confined menus ok t P (assertProductsActive t ids) fun _ s =>
      (∀ id ∈ ids, products.Has t id s) ∧ P s := by
  refine confined_bind (products.confined_table products_splits) fun found => ?_
  refine (confined_ensure he).weaken (fun _ _ hs => hs) ?_
  rintro - s hs ⟨hlength, rfl, hP⟩
  refine ⟨fun id hid => ?_, hP⟩
  obtain ⟨p, hp, heq, -⟩ := all_active (keys_filter _ hs.product_keys) hlength
    (mem_distinct.mpr hid)
  obtain ⟨hmem, htenant⟩ := mem_ownRows.mp hp
  exact ⟨p, hmem, heq, htenant⟩

/-- The product of a component is found. -/
theorem find_own {id : Uuid} (h : products.Has t id db) :
    (ownRows t db.products).find? (fun p => decide (keyOf p = id)) ≠ none := by
  obtain ⟨p, hp, hkey, htenant⟩ := h
  intro hnone
  exact List.find?_eq_none.mp hnone p (mem_ownRows.mpr ⟨hp, htenant⟩) (decide_eq_true hkey)

theorem itemsOf_confined (combo : Combo) :
    Confined menus ok t P (itemsOf t combo) fun _ => P := by
  refine confined_bind (comboItems.confined_table comboItems_splits) fun items => ?_
  refine confined_bind (confined_mapM items fun i hi => ?_) fun views => ?_
  · refine confined_bind (findFirst_confined products_splits i.productId) fun o => ?_
    refine confined_bind (confined_found ?_) fun p => ?_
    · rintro s hs ⟨rfl, rfl, -⟩
      refine find_own ?_
      have hmem := (List.mem_filter.mp (mem_orderBy.mp hi)).1
      obtain ⟨hin, htenant⟩ := mem_ownRows.mp hmem
      obtain ⟨p, hp, hkey, htenant'⟩ := hs.items_product i hin _ rfl
      exact ⟨p, hp, hkey, htenant'.trans htenant⟩
    · exact confined_pure fun _ _ hs => hs.2.2
  · exact confined_pure fun _ _ hs => hs.2

end

/-! ## §3. The requests. -/

/-- The category stays, or is the one that was given. -/
theorem category_set {set : Option (Option Uuid)} {old : Option Uuid} {k : Uuid}
    (h : set.getD old = some k) : old = some k ∨ k ∈ set.getD none := by
  cases set with
  | none => exact .inl h
  | some c => exact .inr h

section

variable {Q : Tables → Prop}

theorem products_confined (collate : String → String → Bool) (includeInactive : Bool) :
    Confined menus Answered t Q (listProducts collate t includeInactive) fun _ _ => True := by
  refine confined_bind (products.confined_table products_splits) fun ps => ?_
  refine confined_bind (modifierGroups.confined_table modifierGroups_splits) fun groups => ?_
  refine confined_bind (modifierOptions.confined_table modifierOptions_splits) fun options => ?_
  exact confined_pure fun _ _ _ => trivial

theorem categories_confined (collate : String → String → Bool) :
    Confined menus Answered t Q (listCategoriesIn collate t) fun _ _ => True := by
  refine confined_bind (categories.confined_table categories_splits) fun cs => ?_
  exact confined_pure fun _ _ _ => trivial

theorem createProduct_confined (id : Uuid) (dto : CreateProductDto) :
    Confined menus Answered t (fun s => ∀ p ∈ s.products, p.id ≠ id) (createProduct t id dto)
      fun _ _ => True := by
  refine confined_rescue (r := Refused) ?_ (conflictOn_answered _)
  refine confined_bind (assertCategory_confined _ (refused _)) fun _ => ?_
  refine confined_bind (products.confined_unused products_splits ?_) fun _ => ?_
  · exact fun s _ hs p hp => decide_eq_false (hs.2 p hp)
  refine confined_bind (products.confined_unique products_splits (.inr rfl) ?_) fun _ => ?_
  · exact fun p hp => (of_decide_eq_true hp).1
  refine confined_bind (categories.confined_references categories_splits ?_) fun _ => ?_
  · exact fun s _ hs => hs.1
  refine confined_bind (products.confined_insert products_splits (Q := fun _ => True) ?_ ?_ ?_)
    fun _ => confined_pure fun _ _ _ => trivial
  · exact fun p hp => by rw [List.mem_singleton.mp hp]; rfl
  · exact fun s hs hP => own_insertProduct hs hP.2 hP.1
  · exact fun _ _ _ => trivial

theorem updateProduct_confined (id : Uuid) (dto : UpdateProductDto) :
    Confined menus Answered t Q (updateProduct t id dto) fun _ _ => True := by
  refine confined_bind (findOr_confined products_splits id _ (answered _)) fun existing => ?_
  refine confined_bind (assertCategory_confined _ (answered _)) fun _ => ?_
  refine confined_rescue (r := Refused) ?_ (conflictOn_answered _)
  refine confined_bind (products.confined_unique products_splits (.inr rfl) ?_) fun _ => ?_
  · exact fun p hp => (of_decide_eq_true hp).1
  refine confined_bind (categories.confined_references categories_splits ?_) fun _ => ?_
  · exact fun s _ hs => hs.1
  refine confined_bind (products.confined_update products_splits (Q := fun _ => True) ?_ ?_ ?_)
    fun _ => confined_pure fun _ _ _ => trivial
  · exact fun _ => rfl
  · intro s hs hP
    refine own_updateProducts hs (fun _ => rfl) (fun _ => rfl) fun r k hk => ?_
    exact (category_set hk).imp_right (hP.1 k)
  · exact fun _ _ _ => trivial

theorem createCategory_confined (id : Uuid) (name : String) :
    Confined menus Answered t (fun s => ∀ c ∈ s.categories, c.id ≠ id) (createCategory t id name)
      fun _ _ => True := by
  refine confined_rescue (r := Refused) ?_ (conflictOn_answered _)
  refine confined_bind (categories.confined_unused categories_splits ?_) fun _ => ?_
  · exact fun s _ hs c hc => decide_eq_false (hs c hc)
  refine confined_bind (categories.confined_unique categories_splits (.inr rfl) ?_) fun _ => ?_
  · exact fun c hc => (of_decide_eq_true hc).1
  refine confined_bind (categories.confined_insert categories_splits (Q := fun _ => True) ?_ ?_ ?_)
    fun _ => confined_pure fun _ _ _ => trivial
  · exact fun c hc => by rw [List.mem_singleton.mp hc]; rfl
  · exact fun s hs hP => own_insertCategory hs hP
  · exact fun _ _ _ => trivial

theorem updateCategory_confined (id : Uuid) (name : Option String) :
    Confined menus Answered t Q (updateCategory t id name) fun _ _ => True := by
  refine confined_bind (findOr_confined categories_splits id _ (answered _)) fun existing => ?_
  refine confined_rescue (r := Refused) ?_ (conflictOn_answered _)
  refine confined_bind (categories.confined_unique categories_splits (.inr rfl) ?_) fun _ => ?_
  · exact fun c hc => (of_decide_eq_true hc).1
  refine confined_bind (categories.confined_update categories_splits (Q := fun _ => True) ?_ ?_ ?_)
    fun _ => confined_pure fun _ _ _ => trivial
  · exact fun _ => rfl
  · exact fun s hs _ => own_updateCategories hs (fun _ => rfl) fun _ => rfl
  · exact fun _ _ _ => trivial

/-- The products and combos of a category are its restaurant's. -/
theorem deleteCategory_confined (id : Uuid) :
    Confined menus Answered t Q (deleteCategory t id) fun _ _ => True := by
  refine confined_bind (findOr_confined categories_splits id _ (answered _)) fun c => ?_
  refine confined_bind (confined_write (Q := fun _ _ => True) ?_ ?_ ?_ fun _ _ _ => trivial)
    fun _ => confined_pure fun _ _ _ => trivial
  · exact fun s hs _ => own_withoutCategory hs id
  · intro s hs hP
    simp only [menus, menuOf, withoutCategory, ownRows_deleteWhere,
      ownRows_map (tenantOf_uncategorised id), ownRows_map (tenantOf_combo_uncategorised id)]
  · rintro s hs ⟨⟨hc, hid, htenant⟩, -⟩ u hu
    -- no product of another menu is in the category, so none of them loses it
    have hproducts : ∀ p ∈ s.products, tenantOf p ≠ t → p.uncategorised id = p := by
      intro p hp hne
      refine if_neg fun hlink => hne ?_
      rw [← hid] at hlink
      exact (hs.products_category.tenant_of hs.category_keys hc hp hlink).trans htenant
    have hcombos : ∀ b ∈ s.combos, tenantOf b ≠ t → b.uncategorised id = b := by
      intro b hb hne
      refine if_neg fun hlink => hne ?_
      rw [← hid] at hlink
      exact (hs.combos_category.tenant_of hs.category_keys hc hb hlink).trans htenant
    simp only [menus, menuOf, withoutCategory, ownRows_deleteWhere_foreign hu,
      ownRows_map_foreign (tenantOf_uncategorised id) hproducts hu,
      ownRows_map_foreign (tenantOf_combo_uncategorised id) hcombos hu]

theorem setSortOrder_confined (id : Uuid) (sortOrder : ℕ) :
    Confined menus Answered t (fun _ => True) (setSortOrder t id sortOrder) fun _ _ => True := by
  refine confined_bind (categories.confined_table categories_splits) fun count => ?_
  refine confined_bind (categories.confined_update categories_splits (Q := fun _ => True) ?_ ?_ ?_)
    fun _ => confined_pure fun _ _ _ => trivial
  · exact fun _ => rfl
  · exact fun s hs _ => own_updateCategories hs (fun _ => rfl) fun _ => rfl
  · exact fun _ _ _ => trivial

/-- **The order of the categories is rewritten in one menu.** -/
theorem reorderCategories_confined (collate : String → String → Bool) (ids : List Uuid) :
    Confined menus Answered t Q (reorderCategories collate t ids) fun _ _ => True := by
  refine confined_bind (confined_ensure (answered _)) fun _ => ?_
  refine confined_bind (categories.confined_table categories_splits) fun count => ?_
  refine confined_bind (confined_ensure (answered _)) fun _ => ?_
  refine confined_bind ((confined_mapM (P := fun _ => True) _ fun i _ =>
    setSortOrder_confined i.1 i.2).weaken (fun _ _ _ => trivial) fun _ _ _ h => h) fun results => ?_
  refine confined_bind (confined_ensure (answered _)) fun _ => ?_
  exact categories_confined collate

theorem listGroups_confined (productId : Uuid) :
    Confined menus Answered t Q (listProductModifierGroups t productId) fun _ _ => True := by
  refine confined_bind (assertProduct_confined _ (answered _)) fun _ => ?_
  refine confined_bind (modifierGroups.confined_table modifierGroups_splits) fun groups => ?_
  refine confined_bind (modifierOptions.confined_table modifierOptions_splits) fun options => ?_
  exact confined_pure fun _ _ _ => trivial

theorem createModifierGroup_confined (id productId : Uuid) (dto : CreateModifierGroupDto) :
    Confined menus Answered t (fun s => ∀ g ∈ s.modifierGroups, g.id ≠ id)
      (createModifierGroup t id productId dto) fun _ _ => True := by
  refine confined_bind (confined_ensure (answered _)) fun _ => ?_
  refine confined_bind (assertProduct_confined _ (answered _)) fun _ => ?_
  refine confined_bind (modifierGroups.confined_unused modifierGroups_splits ?_) fun _ => ?_
  · exact fun s _ hs g hg => decide_eq_false (hs.2.2 g hg)
  refine confined_bind (products.confined_references products_splits ?_) fun _ => ?_
  · rintro s - hs k ⟨⟩
    exact hs.1
  refine confined_bind (modifierGroups.confined_insert modifierGroups_splits
    (Q := fun _ => True) ?_ ?_ ?_) fun _ => confined_pure fun _ _ _ => trivial
  · exact fun g hg => by rw [List.mem_singleton.mp hg]; rfl
  · exact fun s hs hP => own_insertGroup hs hP.2.2 hP.1
  · exact fun _ _ _ => trivial

theorem updateModifierGroup_confined (id : Uuid) (dto : UpdateModifierGroupDto) :
    Confined menus Answered t Q (updateModifierGroup t id dto) fun _ _ => True := by
  refine confined_bind (findOr_confined modifierGroups_splits id _ (answered _)) fun existing => ?_
  refine confined_bind (confined_ensure (answered _)) fun _ => ?_
  refine confined_bind (modifierGroups.confined_update modifierGroups_splits
    (Q := fun _ => True) ?_ ?_ ?_) fun _ => ?_
  · exact fun _ => rfl
  · exact fun s hs _ => own_updateGroups hs (fun _ => rfl) (fun _ => rfl) fun _ => rfl
  · exact fun _ _ _ => trivial
  refine confined_bind (modifierOptions.confined_table modifierOptions_splits) fun options => ?_
  exact confined_pure fun _ _ _ => trivial

/-- The options of a group are its restaurant's. -/
theorem deleteModifierGroup_confined (id : Uuid) :
    Confined menus Answered t Q (deleteModifierGroup t id) fun _ _ => True := by
  refine confined_bind (findOr_confined modifierGroups_splits id _ (answered _)) fun g => ?_
  refine confined_bind (confined_write (Q := fun _ _ => True) ?_ ?_ ?_ fun _ _ _ => trivial)
    fun _ => confined_pure fun _ _ _ => trivial
  · exact fun s hs _ => own_withoutGroup hs id
  · intro s hs hP
    simp only [menus, menuOf, withoutGroup, ownRows_deleteWhere, ownRows_filter]
  · rintro s hs ⟨⟨hg, hid, htenant⟩, -⟩ u hu
    have hoptions : ∀ o ∈ s.modifierOptions, tenantOf o ≠ t → decide (o.groupId ≠ id) = true := by
      intro o ho hne
      refine decide_eq_true fun hlink => hne ?_
      rw [← hid] at hlink
      have hsame := hs.options_group.tenant_of hs.group_keys hg ho (congrArg some hlink)
      exact hsame.trans htenant
    simp only [menus, menuOf, withoutGroup, ownRows_deleteWhere_foreign hu,
      ownRows_filter_foreign hoptions hu]

theorem createModifierOption_confined (id groupId : Uuid) (dto : CreateModifierOptionDto) :
    Confined menus Answered t (fun s => ∀ o ∈ s.modifierOptions, o.id ≠ id)
      (createModifierOption t id groupId dto) fun _ _ => True := by
  refine confined_bind (findOr_confined modifierGroups_splits groupId _ (answered _)) fun g => ?_
  refine confined_bind (modifierOptions.confined_unused modifierOptions_splits ?_) fun _ => ?_
  · exact fun s _ hs o ho => decide_eq_false (hs.2 o ho)
  refine confined_bind (modifierGroups.confined_references modifierGroups_splits ?_) fun _ => ?_
  · rintro s - hs k ⟨⟩
    exact has_found hs.1
  refine confined_bind (modifierOptions.confined_insert modifierOptions_splits
    (Q := fun _ => True) ?_ ?_ ?_) fun _ => confined_pure fun _ _ _ => trivial
  · exact fun o ho => by rw [List.mem_singleton.mp ho]; rfl
  · exact fun s hs hP => own_insertOption hs (has_found (T := modifierGroups) hP.1)
  · exact fun _ _ _ => trivial

theorem updateModifierOption_confined (id : Uuid) (dto : UpdateModifierOptionDto) :
    Confined menus Answered t Q (updateModifierOption t id dto) fun _ _ => True := by
  refine confined_bind (findOr_confined modifierOptions_splits id _ (answered _)) fun existing => ?_
  refine confined_bind (modifierOptions.confined_update modifierOptions_splits
    (Q := fun _ => True) ?_ ?_ ?_) fun _ => confined_pure fun _ _ _ => trivial
  · exact fun _ => rfl
  · exact fun s hs _ => own_updateOptions hs (fun _ => rfl) fun _ => rfl
  · exact fun _ _ _ => trivial

theorem deleteModifierOption_confined (id : Uuid) :
    Confined menus Answered t Q (deleteModifierOption t id) fun _ _ => True := by
  refine confined_bind (findOr_confined modifierOptions_splits id _ (answered _)) fun o => ?_
  refine confined_bind (modifierOptions.confined_delete modifierOptions_splits
    (Q := fun _ => True) ?_ ?_) fun _ => confined_pure fun _ _ _ => trivial
  · exact fun s hs _ => own_deleteOptions hs _
  · exact fun _ _ _ => trivial

theorem combos_confined (collate : String → String → Bool) (includeInactive : Bool) :
    Confined menus Answered t Q (listCombos collate t includeInactive) fun _ _ => True := by
  refine confined_bind (combos.confined_table combos_splits) fun cs => ?_
  refine confined_bind (confined_mapM _ fun c _ => itemsOf_confined c) fun views => ?_
  exact confined_pure fun _ _ _ => trivial

/-- The rows of a combo's items are the tenant's, and name what was asked for. -/
theorem itemRows_of {comboId : Uuid} {items : List ComboItemInput} {i : ComboItem}
    (h : i ∈ itemRows t comboId items) :
    i.restaurantId = t ∧ i.comboId = comboId ∧ i.productId ∈ items.map (·.productId) := by
  obtain ⟨idx, hidx, rfl⟩ := List.mem_mapIdx.mp h
  exact ⟨rfl, rfl, List.mem_map_of_mem (List.getElem_mem hidx)⟩

/-- The components of a combo that is the restaurant's, of products that are. -/
theorem insertItems_confined {ok : Failure → Prop} (comboId : Uuid) (items : List ComboItemInput)
    (hQ : ∀ s, Q s → combos.Has t comboId s
      ∧ ∀ id ∈ items.map (·.productId), products.Has t id s)
    (hafter : ∀ s more, Q s → Q (comboItems.put s more)) :
    Confined menus ok t Q (insertItems (itemRows t comboId items)) fun _ => Q := by
  -- the foreign keys of every row, first to the combo
  refine confined_bind (confined_mapM _ fun i hi =>
    combos.confined_references combos_splits ?_) fun _ => ?_
  · rintro s - hs k ⟨⟩
    rw [(itemRows_of hi).2.1]
    exact (hQ s hs).1
  refine confined_bind (confined_mapM _ fun i hi =>
    products.confined_references products_splits ?_) fun _ => ?_
  · rintro s - hs k ⟨⟩
    exact (hQ s hs).2 _ (itemRows_of hi).2.2
  -- and then the rows
  refine comboItems.confined_insert comboItems_splits ?_ ?_ fun s _ hs => hafter s _ hs
  · exact fun i hi => (itemRows_of hi).1
  · intro s hs hP
    refine own_insertItems hs (fun i hi => ?_) fun i hi => ?_
    · rw [(itemRows_of hi).1, (itemRows_of hi).2.1]
      exact (hQ s hP).1
    · rw [(itemRows_of hi).1]
      exact (hQ s hP).2 _ (itemRows_of hi).2.2

theorem createCombo_confined (id : Uuid) (dto : CreateComboDto) :
    Confined menus Answered t (fun s => ∀ c ∈ s.combos, c.id ≠ id) (createCombo t id dto)
      fun _ _ => True := by
  refine confined_rescue (r := Refused) ?_ (conflictOn_answered _)
  refine confined_bind (assertProductsActive_confined _ (refused _)) fun _ => ?_
  refine confined_bind (assertCategory_confined _ (refused _)) fun _ => ?_
  refine confined_bind (combos.confined_unused combos_splits ?_) fun _ => ?_
  · exact fun s _ hs c hc => decide_eq_false (hs.2.2 c hc)
  refine confined_bind (combos.confined_unique combos_splits (.inr rfl) ?_) fun _ => ?_
  · exact fun c hc => (of_decide_eq_true hc).1
  refine confined_bind (categories.confined_references categories_splits ?_) fun _ => ?_
  · exact fun s _ hs => hs.1
  -- from here on the combo is there for its items to refer to
  refine confined_bind (combos.confined_insert combos_splits (Q := fun s => combos.Has t id s
    ∧ ∀ k ∈ dto.items.map (·.productId), products.Has t k s) ?_ ?_ ?_) fun _ => ?_
  · exact fun c hc => by rw [List.mem_singleton.mp hc]; rfl
  · exact fun s hs hP => own_insertCombo hs hP.2.2 hP.1
  · intro s _ hP
    exact ⟨⟨dto.row t id, List.mem_append_right _ (List.mem_singleton_self _), rfl, rfl⟩, hP.2.1⟩
  refine confined_bind (insertItems_confined id dto.items (fun _ hs => hs) fun _ _ hs => hs)
    fun _ => ?_
  refine confined_bind (itemsOf_confined _) fun view => ?_
  exact confined_pure fun _ _ _ => trivial

theorem replaceItems_confined (id : Uuid) (items : Option (List ComboItemInput))
    (hcombo : ∀ s, Q s → combos.Has t id s)
    (hafter : ∀ s more, Q s → Q (comboItems.put s more)) :
    Confined menus Refused t Q (replaceItems t id items) fun _ => Q := by
  cases items with
  | none => exact confined_pure fun _ _ hs => hs
  | some items =>
      refine confined_bind (assertProductsActive_confined _ (refused _)) fun _ => ?_
      refine confined_bind (comboItems.confined_delete comboItems_splits
        (Q := fun s => (∀ k ∈ items.map (·.productId), products.Has t k s) ∧ Q s) ?_ ?_)
        fun _ => ?_
      · exact fun s hs _ => own_deleteItems hs _
      · exact fun s _ hs => ⟨hs.1, hafter s _ hs.2⟩
      refine (insertItems_confined id items (fun s hs => ⟨hcombo s hs.2, hs.1⟩) ?_).weaken
        (fun _ _ hs => hs) fun _ _ _ hs => hs.2
      exact fun s more hs => ⟨hs.1, hafter s more hs.2⟩

theorem updateCombo_confined (id : Uuid) (dto : UpdateComboDto) :
    Confined menus Answered t Q (updateCombo t id dto) fun _ _ => True := by
  refine confined_rescue (r := Refused) ?_ (conflictOn_answered _)
  -- the combo that was found is one of the tenant's
  refine confined_bind (Q := fun _ s => combos.Has t id s) ?_ fun existing => ?_
  · exact (findOr_confined combos_splits id _ (refused _)).weaken (fun _ _ hs => hs)
      fun c s _ hs => has_found hs.1
  refine confined_bind (assertCategory_confined _ (refused _)) fun _ => ?_
  refine confined_bind (replaceItems_confined id dto.items (fun _ hs => hs.2)
    fun _ _ hs => hs) fun _ => ?_
  refine confined_bind (combos.confined_unique combos_splits (.inr rfl) ?_) fun _ => ?_
  · exact fun c hc => (of_decide_eq_true hc).1
  refine confined_bind (categories.confined_references categories_splits ?_) fun _ => ?_
  · exact fun s _ hs => hs.1
  refine confined_bind (combos.confined_update combos_splits (Q := fun _ => True) ?_ ?_ ?_)
    fun _ => ?_
  · exact fun _ => rfl
  · intro s hs hP
    refine own_updateCombos hs (fun _ => rfl) (fun _ => rfl) fun r k hk => ?_
    exact (category_set hk).imp_right (hP.1 k)
  · exact fun _ _ _ => trivial
  refine confined_bind (itemsOf_confined _) fun view => ?_
  exact confined_pure fun _ _ _ => trivial

/-- The components of a combo are its restaurant's. -/
theorem deleteCombo_confined (id : Uuid) :
    Confined menus Answered t Q (deleteCombo t id) fun _ _ => True := by
  refine confined_bind (findOr_confined combos_splits id _ (answered _)) fun c => ?_
  refine confined_bind (confined_write (Q := fun _ _ => True) ?_ ?_ ?_ fun _ _ _ => trivial)
    fun _ => confined_pure fun _ _ _ => trivial
  · exact fun s hs _ => own_withoutCombo hs id
  · intro s hs hP
    simp only [menus, menuOf, withoutCombo, ownRows_deleteWhere, ownRows_filter]
  · rintro s hs ⟨⟨hc, hid, htenant⟩, -⟩ u hu
    have hitems : ∀ i ∈ s.comboItems, tenantOf i ≠ t → decide (i.comboId ≠ id) = true := by
      intro i hi hne
      refine decide_eq_true fun hlink => hne ?_
      rw [← hid] at hlink
      exact (hs.items_combo.tenant_of hs.combo_keys hc hi (congrArg some hlink)).trans htenant
    simp only [menus, menuOf, withoutCombo, ownRows_deleteWhere_foreign hu,
      ownRows_filter_foreign hitems hu]

theorem rules_confined : Confined menus Answered t Q (listUpsellRules t) fun _ _ => True := by
  refine confined_bind (upsellRules.confined_table upsellRules_splits) fun rules => ?_
  refine confined_bind (confined_mapM _ fun r hr => ?_) fun views => ?_
  · -- both products of a rule are the restaurant's
    have hrule : ∀ s, Own s → (rules = orderBy (·.sortOrder) (ownRows t s.upsellRules) ∧ Q s) →
        products.Has t r.triggerProductId s ∧ products.Has t r.suggestedProductId s := by
      rintro s hs ⟨rfl, -⟩
      obtain ⟨hin, htenant⟩ := mem_ownRows.mp (mem_orderBy.mp hr)
      obtain ⟨p, hp, hkey, hp'⟩ := hs.rules_trigger r hin _ rfl
      obtain ⟨q, hq, hkey', hq'⟩ := hs.rules_suggested r hin _ rfl
      exact ⟨⟨p, hp, hkey, hp'.trans htenant⟩, ⟨q, hq, hkey', hq'.trans htenant⟩⟩
    refine confined_bind (findFirst_confined products_splits r.triggerProductId) fun o => ?_
    refine confined_bind (confined_found ?_) fun p => ?_
    · rintro s hs ⟨rfl, hP⟩
      exact find_own (hrule s hs hP).1
    refine confined_bind (findFirst_confined products_splits r.suggestedProductId) fun o' => ?_
    refine confined_bind (confined_found ?_) fun q => ?_
    · rintro s hs ⟨rfl, -, -, hP⟩
      exact find_own (hrule s hs hP).2
    exact confined_pure fun _ _ hs => hs.2.2.2.2
  · exact confined_pure fun _ _ _ => trivial

theorem createUpsellRule_confined (id : Uuid) (dto : CreateUpsellRuleDto) :
    Confined menus Answered t (fun s => ∀ r ∈ s.upsellRules, r.id ≠ id)
      (createUpsellRule t id dto) fun _ _ => True := by
  refine confined_bind (confined_ensure (answered _)) fun _ => ?_
  refine confined_rescue (r := Refused) ?_ (conflictOn_answered _)
  refine confined_bind (assertProductsActive_confined _ (refused _)) fun _ => ?_
  refine confined_bind (upsellRules.confined_table upsellRules_splits) fun reciprocal => ?_
  refine confined_bind (confined_ensure (refused _)) fun _ => ?_
  refine confined_bind (upsellRules.confined_unused upsellRules_splits ?_) fun _ => ?_
  · exact fun s _ hs r hr => decide_eq_false (hs.2.2.2.2 r hr)
  refine confined_bind (upsellRules.confined_unique upsellRules_splits (.inr rfl) ?_) fun _ => ?_
  · exact fun r hr => (of_decide_eq_true hr).1
  -- both products were asserted, so their foreign keys stand
  refine confined_bind (products.confined_references products_splits ?_) fun _ => ?_
  · rintro s - hs k ⟨⟩
    exact hs.2.2.1 _ (List.mem_cons_self ..)
  refine confined_bind (products.confined_references products_splits ?_) fun _ => ?_
  · rintro s - hs k ⟨⟩
    exact hs.2.2.1 _ (List.mem_cons_of_mem _ (List.mem_singleton_self _))
  refine confined_bind (upsellRules.confined_insert upsellRules_splits (Q := fun _ => True)
    ?_ ?_ ?_) fun _ => confined_pure fun _ _ _ => trivial
  · exact fun r hr => by rw [List.mem_singleton.mp hr]; rfl
  · intro s hs hP
    exact own_insertRule hs (hP.2.2.1 _ (List.mem_cons_self ..))
      (hP.2.2.1 _ (List.mem_cons_of_mem _ (List.mem_singleton_self _)))
  · exact fun _ _ _ => trivial

theorem updateUpsellRule_confined (id : Uuid) (dto : UpdateUpsellRuleDto) :
    Confined menus Answered t Q (updateUpsellRule t id dto) fun _ _ => True := by
  refine confined_bind (findOr_confined upsellRules_splits id _ (answered _)) fun existing => ?_
  refine confined_bind (upsellRules.confined_update upsellRules_splits
    (Q := fun _ => True) ?_ ?_ ?_) fun _ => confined_pure fun _ _ _ => trivial
  · exact fun _ => rfl
  · exact fun s hs _ => own_updateRules hs (fun _ => rfl) (fun _ => rfl) fun _ => rfl
  · exact fun _ _ _ => trivial

theorem deleteUpsellRule_confined (id : Uuid) :
    Confined menus Answered t Q (deleteUpsellRule t id) fun _ _ => True := by
  refine confined_bind (findOr_confined upsellRules_splits id _ (answered _)) fun r => ?_
  refine confined_bind (upsellRules.confined_delete upsellRules_splits
    (Q := fun _ => True) ?_ ?_) fun _ => confined_pure fun _ _ _ => trivial
  · exact fun s hs _ => own_deleteRules hs _
  · exact fun _ _ _ => trivial

end

/-! ## §4. Any requests, in any order. -/

/-- **Every handler reads and writes the menu of its tenant alone.** -/
theorem handle_confined (collate : String → String → Bool) (t : Uuid) (r : Request) :
    Confined menus Answered t (Fresh t r) (handle collate t r) fun _ _ => True := by
  cases r with
  | listProducts includeInactive => exact products_confined collate includeInactive
  | listCategories => exact categories_confined collate
  | createProduct id dto => exact createProduct_confined id dto
  | updateProduct id dto => exact updateProduct_confined id dto
  | listProductModifierGroups productId => exact listGroups_confined productId
  | createModifierGroup id productId dto => exact createModifierGroup_confined id productId dto
  | updateModifierGroup id dto => exact updateModifierGroup_confined id dto
  | deleteModifierGroup id => exact deleteModifierGroup_confined id
  | createModifierOption id groupId dto => exact createModifierOption_confined id groupId dto
  | updateModifierOption id dto => exact updateModifierOption_confined id dto
  | deleteModifierOption id => exact deleteModifierOption_confined id
  | createCategory id name => exact createCategory_confined id name
  | updateCategory id name => exact updateCategory_confined id name
  | deleteCategory id => exact deleteCategory_confined id
  | reorderCategories ids => exact reorderCategories_confined collate ids
  | listCombos includeInactive => exact combos_confined collate includeInactive
  | createCombo id dto => exact createCombo_confined id dto
  | updateCombo id dto => exact updateCombo_confined id dto
  | deleteCombo id => exact deleteCombo_confined id
  | listUpsellRules => exact rules_confined
  | createUpsellRule id dto => exact createUpsellRule_confined id dto
  | updateUpsellRule id dto => exact updateUpsellRule_confined id dto
  | deleteUpsellRule id => exact deleteUpsellRule_confined id

/-- **Menus are isolated.**  Whatever requests of all restaurants come in whatever order,
with whatever ids in them: no reference ever crosses, a restaurant's menu and the answers
it gets are those of its own requests on its own menu, and nobody is answered with a
foreign key, a foreign row or the absence of one. -/
theorem menus_isolated (collate : String → String → Bool) {calls : List (Uuid × Request)}
    {db : Tables} (h : Own db) (hfresh : Meets (handle collate) Fresh calls db) (t : Uuid) :
    Own (afterCalls (handle collate) calls db)
      ∧ menuOf t (afterCalls (handle collate) calls db)
          = afterCalls (handle collate) (callsOf t calls) (menuOf t db)
      ∧ answers (handle collate) t calls db
          = answers (handle collate) t (callsOf t calls) (menuOf t db)
      ∧ ∀ e, .error e ∈ answers (handle collate) t calls db → Answered e :=
  answers_alone (D := menus) (fun u r => handle_confined collate u r) t calls db h hfresh

/-- A category of one restaurant, a product that another would put into it, and its
delete. -/
def crossing : List (Uuid × Request) :=
  [(1, .createCategory 10 "Momos"), (1, .createProduct 11 ⟨"Veg momo", 12000, none, some 10, none⟩),
    (2, .createProduct 20 ⟨"Chai", 3000, none, some 10, none⟩),
    (2, .createProduct 21 ⟨"Veg momo", 9000, none, none, none⟩),
    (2, .updateProduct 11 ⟨none, some 1, none, none, none, none⟩), (1, .deleteCategory 10)]

/-- Tables with no menu in them. -/
def noMenus : Tables := ⟨[], [], [], [], [], [], []⟩

theorem noMenus_own : Own noMenus :=
  ⟨List.nodup_nil, List.nodup_nil, List.nodup_nil, List.nodup_nil, nofun, nofun, nofun, nofun,
    nofun, nofun, nofun, nofun⟩

/-- The other restaurant gets neither the category nor the product by their ids. -/
theorem menus_isolated_crossing :
    ((menuOf 2 (afterCalls (handle fun _ _ => true) crossing noMenus)).products.map (·.id) = [21])
      ∧ menuOf 2 (afterCalls (handle fun _ _ => true) crossing noMenus)
        = afterCalls (handle fun _ _ => true) (callsOf 2 crossing) (menuOf 2 noMenus) := by
  refine ⟨by decide +kernel, (menus_isolated (fun _ _ => true) noMenus_own ?_ 2).2.1⟩
  refine ⟨?_, ?_, ?_, ?_, trivial, trivial, trivial⟩
  all_goals
    unfold Fresh
    decide +kernel

end OraOS.Menus
