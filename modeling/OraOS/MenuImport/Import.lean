/-
  OraOS.MenuImport.Import — writing a reviewed menu to the catalogue.

  The import keeps two maps, from what is left of a name to the row that has it, and adds to
  them what it writes.  What an item or a category is written to is recorded beside.

    * `productInv_step`      — what the map of products knows of the items so far;
    * `categoryInv_step`     — and that of categories;
    * `importMenu_separate`  — when different dishes stay apart.
-/
import OraOS.Lib.KeyIndex
import OraOS.MenuImport.Match

namespace OraOS.MenuImport

open OraOS.Api
open OraOS.Lib

/-! ## §1. The reviewed menu and the catalogue. -/

/-- What the reviewer decided for a dish. -/
inductive ImportAction where
  | create
  | update
  | skip
  deriving DecidableEq, Repr

/-- A dish of the reviewed menu. -/
structure ReviewItem where
  name : String
  priceMinor : Option ℤ
  action : ImportAction
  match_ : Match
  deriving DecidableEq, Repr

/-- A category of the reviewed menu. -/
structure ReviewCategory where
  name : String
  items : List ReviewItem
  deriving DecidableEq, Repr

/-- The menu as the reviewer left it. -/
structure ReviewMenu where
  categories : List ReviewCategory
  deriving DecidableEq, Repr

/-- What the import reads of a product. -/
structure ProductRow where
  id : Uuid
  name : String
  priceMinor : ℤ
  isActive : Bool
  categoryId : Option Uuid
  deriving DecidableEq, Repr

/-- What the import reads of a category. -/
structure CategoryRow where
  id : Uuid
  name : String
  deriving DecidableEq, Repr

/-- The stages of an import. -/
inductive MenuImportStatus where
  | uploaded
  | processing
  | reviewRequired
  | approved
  | imported
  | cancelled
  | failed
  deriving DecidableEq, Repr

/-- One upload and the stage it is at. -/
structure MenuImportSession where
  id : Uuid
  status : MenuImportStatus
  deriving DecidableEq, Repr

/-- The tenant's tables; `fresh` is the next id. -/
structure Catalogue where
  categories : List CategoryRow
  products : List ProductRow
  sessions : List MenuImportSession
  fresh : Uuid
  deriving DecidableEq, Repr

/-! ## §2. The import. -/

/-- A `Map` from normalised names to ids. -/
abbrev NameMap := List Char → Option Uuid

/-- The tables, the maps and the counts; `placed` and `written` say which row a category or
an item went to, if there was one. -/
structure ImportState where
  catalogue : Catalogue
  catIdByNorm : NameMap
  productIdByNorm : NameMap
  created : ℕ
  updated : ℕ
  skipped : ℕ
  placed : List (ReviewCategory × Option CategoryRow)
  written : List (ReviewItem × Option ProductRow)

section Loop

variable (U : Unicode)

/-- The import before its first category: the catalogue, and the ids by normalised name. -/
def opening (cat : Catalogue) : ImportState where
  catalogue := cat
  catIdByNorm := mapOf (cat.categories.map fun c => (normalizeName U c.name, c.id))
  productIdByNorm := mapOf (cat.products.map fun p => (normalizeName U p.name, p.id))
  created := 0
  updated := 0
  skipped := 0
  placed := []
  written := []

/-- `ensureCategory`. -/
def ensureCategory (s : ImportState) (c : ReviewCategory) : Except ApiError (Uuid × ImportState) :=
  match s.catIdByNorm (normalizeName U c.name) with
  | some found =>
      .ok (found, { s with placed := s.placed ++
        [(c, s.catalogue.categories.find? fun k => decide (k.id = found))] })
  | none => do
      -- new by its normalised name; the index compares the names as they are
      let cat : CategoryRow := ⟨s.catalogue.fresh, c.name⟩
      require (∀ k ∈ s.catalogue.categories, k.name ≠ c.name) (.uniqueViolation .categoryName)
      pure (cat.id, { s with
        catalogue := { s.catalogue with
          categories := s.catalogue.categories ++ [cat]
          fresh := s.catalogue.fresh + 1 }
        catIdByNorm := Function.update s.catIdByNorm (normalizeName U c.name) (some cat.id)
        placed := s.placed ++ [(c, none)] })

/-- `targetId`. -/
def targetId (s : ImportState) (it : ReviewItem) : Option Uuid :=
  (if it.action = .update then it.match_.productId else none).or
    (s.productIdByNorm (normalizeName U it.name))

/-- One item of a category; the price is there, or nothing would have been written. -/
def writeItem (categoryId : Uuid) (s : ImportState) (it : ReviewItem) :
    Except ApiError ImportState :=
  let norm := normalizeName U it.name
  let priceMinor := it.priceMinor.getD 0
  match targetId U s it with
  | some id => do
      -- never rename or delete
      let p ← found (s.catalogue.products.find? fun p => decide (p.id = id)) .recordNotFound
      pure { s with
        catalogue := { s.catalogue with
          products := s.catalogue.products.map fun x =>
            if x.id = id then { x with priceMinor, isActive := true, categoryId := some categoryId }
            else x }
        productIdByNorm := Function.update s.productIdByNorm norm (some id)
        updated := s.updated + 1
        written := s.written ++ [(it, some p)] }
  | none => do
      let p : ProductRow := ⟨s.catalogue.fresh, it.name, priceMinor, true, some categoryId⟩
      require (∀ x ∈ s.catalogue.products, x.name ≠ it.name) (.uniqueViolation .productName)
      pure { s with
        catalogue := { s.catalogue with
          products := s.catalogue.products ++ [p]
          fresh := s.catalogue.fresh + 1 }
        productIdByNorm := Function.update s.productIdByNorm norm (some p.id)
        created := s.created + 1
        written := s.written ++ [(it, none)] }

/-- The dishes that are not skipped. -/
def ReviewCategory.toWrite (c : ReviewCategory) : List ReviewItem :=
  c.items.filter fun it => decide (it.action ≠ .skip)

/-- One category of the menu; without a dish to write it is not created. -/
def writeCategory (s : ImportState) (c : ReviewCategory) : Except ApiError ImportState :=
  let s := { s with skipped := s.skipped + (c.items.length - c.toWrite.length) }
  if c.toWrite = [] then .ok s
  else do
    let (categoryId, s) ← ensureCategory U s c
    runAll (writeItem U categoryId) c.toWrite s

/-- `MenuImportService.import`: one transaction, in which nothing is written twice. -/
def importMenu (cat : Catalogue) (id : Uuid) (menu : ReviewMenu) : Except ApiError ImportState := do
  match (menu.categories.flatMap (·.toWrite)).find? fun it => it.priceMinor.isNone with
  | some it =>
      .error (.badRequest ("\"" ++ it.name ++ "\" needs a price before it can be imported."))
  | none => do
      -- prices are asked for before the session is looked at
      let session ← found (cat.sessions.find? fun x => decide (x.id = id))
        (.notFound "Import session not found")
      require (session.status ≠ .imported) (.conflict "This menu has already been imported.")
      require (session.status ≠ .cancelled) (.conflict "This import was cancelled.")
      let s ← runAll (writeCategory U) menu.categories (opening U cat)
      pure { s with catalogue := { s.catalogue with
        sessions := s.catalogue.sessions.map fun x =>
          if x.id = id then { x with status := .imported } else x } }

end Loop

/-! ## §3. When different dishes stay apart. -/

/-- The primary keys, and that the ids to come are new. -/
structure Catalogue.Keys (cat : Catalogue) : Prop where
  products : (cat.products.map (·.id)).Nodup
  categories : (cat.categories.map (·.id)).Nodup
  products_fresh : ∀ p ∈ cat.products, p.id < cat.fresh
  categories_fresh : ∀ c ∈ cat.categories, c.id < cat.fresh

/-- The request names no id that is yet to be generated. -/
def ReviewMenu.Known (menu : ReviewMenu) (fresh : Uuid) : Prop :=
  ∀ c ∈ menu.categories, ∀ it ∈ c.items, ∀ id ∈ it.match_.productId, id < fresh

section Apart

variable (U : Unicode)

/-- What is to be created goes to a product or a category of a similar name, if to one that
is there. -/
def Separate (s : ImportState) : Prop :=
  (∀ w ∈ s.written, w.1.action = .create → ∀ p ∈ w.2, similarName U p.name w.1.name = true)
    ∧ ∀ w ∈ s.placed, (∃ it ∈ w.1.items, it.action = .create) →
        ∀ k ∈ w.2, similarName U k.name w.1.name = true

/-- The product that an update names, if it goes by this name. -/
def named (norm : List Char) (it : ReviewItem) : Option Uuid :=
  if it.action = .update ∧ normalizeName U it.name = norm then it.match_.productId else none

/-- The last one named. -/
def lastNamed (before : List ReviewItem) (norm : List Char) : Option Uuid :=
  (before.filterMap (named U norm)).getLast?

/-- An item to be created finds its like only: if an update before it named a product for its
name, one of a similar name; otherwise, if nothing is left of its name, nothing so named. -/
def ItemOk (cat : Catalogue) (before : List ReviewItem) (it : ReviewItem) : Prop :=
  it.action = .create →
    match lastNamed U before (normalizeName U it.name) with
    | some id => ∃ p ∈ cat.products, p.id = id ∧ similarName U p.name it.name = true
    | none => normalizeName U it.name = [] →
        (∀ p ∈ cat.products, normalizeName U p.name ≠ [])
          ∧ ∀ it' ∈ before, normalizeName U it'.name ≠ []

/-- A category with an item to be created: if nothing is left of its name, none is so named. -/
def CategoryOk (cat : Catalogue) (before : List ReviewCategory) (c : ReviewCategory) : Prop :=
  (∃ it ∈ c.items, it.action = .create) → normalizeName U c.name = [] →
    (∀ k ∈ cat.categories, normalizeName U k.name ≠ [])
      ∧ ∀ c' ∈ before, normalizeName U c'.name ≠ []

/-- The items that are written, in order. -/
def ReviewMenu.items (menu : ReviewMenu) : List ReviewItem := menu.categories.flatMap (·.toWrite)

/-- The categories they need. -/
def ReviewMenu.needed (menu : ReviewMenu) : List ReviewCategory :=
  menu.categories.filter fun c => decide (c.toWrite ≠ [])

/-- Every item and every category, given those before it. -/
def MenuOk (cat : Catalogue) (menu : ReviewMenu) : Prop :=
  EachAfter (ItemOk U cat) [] menu.items ∧ EachAfter (CategoryOk U cat) [] menu.needed

instance (cat : Catalogue) (before : List ReviewItem) (it : ReviewItem) :
    Decidable (ItemOk U cat before it) :=
  have : Decidable (match lastNamed U before (normalizeName U it.name) with
      | some id => ∃ p ∈ cat.products, p.id = id ∧ similarName U p.name it.name = true
      | none => normalizeName U it.name = [] →
          (∀ p ∈ cat.products, normalizeName U p.name ≠ [])
            ∧ ∀ it' ∈ before, normalizeName U it'.name ≠ []) :=
    match lastNamed U before (normalizeName U it.name) with
    | some _ => inferInstanceAs (Decidable (∃ _ ∈ _, _ ∧ _))
    | none => inferInstanceAs (Decidable (_ → _ ∧ _))
  inferInstanceAs (Decidable (_ → _))

instance (cat : Catalogue) (before : List ReviewCategory) (c : ReviewCategory) :
    Decidable (CategoryOk U cat before c) :=
  inferInstanceAs (Decidable ((∃ _ ∈ _, _) → _ → _ ∧ _))

instance (cat : Catalogue) (menu : ReviewMenu) : Decidable (MenuOk U cat menu) :=
  inferInstanceAs (Decidable (_ ∧ _))

instance (s : ImportState) : Decidable (Separate U s) :=
  inferInstanceAs (Decidable ((∀ _ ∈ _, _) ∧ ∀ _ ∈ _, _))

end Apart

/-! ## §4. What an item is written to. -/

section Targets

variable {U : Unicode}

/-- Whoever names a product goes by the name. -/
theorem named_some {norm : List Char} {it : ReviewItem} {id : Uuid} (h : named U norm it = some id) :
    it.action = .update ∧ normalizeName U it.name = norm ∧ it.match_.productId = some id := by
  unfold named at h
  split at h
  next hcond => exact ⟨hcond.1, hcond.2, h⟩
  next => cases h

/-- One more item may name a product for its own name only. -/
theorem lastNamed_snoc (before : List ReviewItem) (it : ReviewItem) :
    lastNamed U (before ++ [it])
      = Function.update (lastNamed U before) (normalizeName U it.name)
          ((named U (normalizeName U it.name) it).or
            (lastNamed U before (normalizeName U it.name))) := by
  have happend : ∀ norm, lastNamed U (before ++ [it]) norm
      = (named U norm it).or (lastNamed U before norm) := by
    intro norm
    unfold lastNamed
    rw [List.filterMap_append]
    cases hnamed : named U norm it with
    | none => simp [hnamed]
    | some id => simp [hnamed]
  funext norm
  by_cases hnorm : norm = normalizeName U it.name
  · subst hnorm
    rw [Function.update_self, happend]
  · have hnot : named U norm it = none := if_neg fun hcond => hnorm hcond.2.symm
    rw [Function.update_of_ne hnorm, happend, hnot, Option.none_or]

/-- The id a name stands for was chosen for a dish before. -/
theorem lastNamed_mem {before : List ReviewItem} {norm : List Char} {id : Uuid}
    (h : lastNamed U before norm = some id) :
    ∃ it ∈ before, it.match_.productId = some id := by
  obtain ⟨it, hit, hnamed⟩ := List.mem_filterMap.mp (List.mem_of_getLast? h)
  exact ⟨it, hit, (named_some hnamed).2.2⟩

/-- What an item is written to: what it names, or what the map has for its name. -/
theorem targetId_eq (s : ImportState) (it : ReviewItem) :
    targetId U s it
      = (named U (normalizeName U it.name) it).or (s.productIdByNorm (normalizeName U it.name)) := by
  unfold targetId named
  simp

end Targets

/-! ## §5. One write. -/

/-- The products, as their ids and names. -/
def Catalogue.productNames (cat : Catalogue) : List (Uuid × String) :=
  cat.products.map fun p => (p.id, p.name)

/-- The categories, as their ids and names. -/
def Catalogue.categoryNames (cat : Catalogue) : List (Uuid × String) :=
  cat.categories.map fun c => (c.id, c.name)

theorem Catalogue.productNames_snd (cat : Catalogue) :
    cat.productNames.map Prod.snd = cat.products.map (·.name) := List.map_map

theorem Catalogue.categoryNames_snd (cat : Catalogue) :
    cat.categoryNames.map Prod.snd = cat.categories.map (·.name) := List.map_map

/-- The import reads both maps off the rows. -/
theorem opening_maps (U : Unicode) (cat : Catalogue) :
    (opening U cat).productIdByNorm
        = mapOf (cat.productNames.map fun r => (normalizeName U r.2, r.1))
      ∧ (opening U cat).catIdByNorm
        = mapOf (cat.categoryNames.map fun r => (normalizeName U r.2, r.1)) := by
  unfold Catalogue.productNames Catalogue.categoryNames
  rw [List.map_map, List.map_map]
  exact ⟨rfl, rfl⟩

section Writes

variable {U : Unicode} {cat : Catalogue}

/-- What an item does to the products: it goes to one that is there, or makes one. -/
theorem writeItem_products {categoryId : Uuid} {s s' : ImportState} {it : ReviewItem}
    (h : writeItem U categoryId s it = .ok s') :
    (∃ id, ∃ p ∈ s.catalogue.products, targetId U s it = some id ∧ p.id = id
        ∧ s'.catalogue.productNames = s.catalogue.productNames
        ∧ s'.catalogue.fresh = s.catalogue.fresh
        ∧ s'.productIdByNorm
          = Function.update s.productIdByNorm (normalizeName U it.name) (some id)
        ∧ s'.written = s.written ++ [(it, some p)])
      ∨ targetId U s it = none
        ∧ s'.catalogue.productNames
          = s.catalogue.productNames ++ [(s.catalogue.fresh, it.name)]
        ∧ s'.catalogue.fresh = s.catalogue.fresh + 1
        ∧ s'.productIdByNorm
          = Function.update s.productIdByNorm (normalizeName U it.name) (some s.catalogue.fresh)
        ∧ s'.written = s.written ++ [(it, none)] := by
  unfold writeItem at h
  dsimp only at h
  cases htarget : targetId U s it with
  | some id =>
      rw [htarget] at h
      obtain ⟨p, hp, hs'⟩ := bind_ok.mp h
      rw [found_ok] at hp
      cases hs'
      refine .inl ⟨id, p, List.mem_of_find?_eq_some hp, rfl, by simpa using List.find?_some hp,
        ?_, rfl, rfl, rfl⟩
      -- neither the id nor the name of a product changes
      show (s.catalogue.products.map _).map _ = s.catalogue.products.map _
      rw [List.map_map]
      refine List.map_congr_left fun x _ => ?_
      rw [Function.comp_apply]
      split <;> rfl
  | none =>
      rw [htarget] at h
      obtain ⟨_, _, hs'⟩ := bind_ok.mp h
      cases hs'
      refine .inr ⟨rfl, ?_, rfl, rfl, rfl⟩
      show (s.catalogue.products ++ _).map _ = _
      rw [List.map_append]
      rfl

/-- It leaves the categories alone. -/
theorem writeItem_categories {categoryId : Uuid} {s s' : ImportState} {it : ReviewItem}
    (h : writeItem U categoryId s it = .ok s') :
    s'.catalogue.categories = s.catalogue.categories ∧ s.catalogue.fresh ≤ s'.catalogue.fresh
      ∧ s'.catIdByNorm = s.catIdByNorm ∧ s'.placed = s.placed := by
  unfold writeItem at h
  dsimp only at h
  cases htarget : targetId U s it with
  | some id =>
      rw [htarget] at h
      obtain ⟨p, _, hs'⟩ := bind_ok.mp h
      cases hs'
      exact ⟨rfl, le_rfl, rfl, rfl⟩
  | none =>
      rw [htarget] at h
      obtain ⟨_, _, hs'⟩ := bind_ok.mp h
      cases hs'
      exact ⟨rfl, Nat.le_succ _, rfl, rfl⟩

/-- What a category does: it goes to one that is there, or makes one. -/
theorem ensureCategory_categories {s s' : ImportState} {c : ReviewCategory} {categoryId : Uuid}
    (h : ensureCategory U s c = .ok (categoryId, s')) :
    (∃ id, s.catIdByNorm (normalizeName U c.name) = some id
        ∧ s' = { s with placed := s.placed ++
          [(c, s.catalogue.categories.find? fun k => decide (k.id = id))] })
      ∨ s.catIdByNorm (normalizeName U c.name) = none
        ∧ s'.catalogue.categoryNames
          = s.catalogue.categoryNames ++ [(s.catalogue.fresh, c.name)]
        ∧ s'.catalogue.fresh = s.catalogue.fresh + 1
        ∧ s'.catIdByNorm
          = Function.update s.catIdByNorm (normalizeName U c.name) (some s.catalogue.fresh)
        ∧ s'.placed = s.placed ++ [(c, none)] := by
  unfold ensureCategory at h
  cases hfound : s.catIdByNorm (normalizeName U c.name) with
  | some id =>
      rw [hfound] at h
      cases h
      exact .inl ⟨_, rfl, rfl⟩
  | none =>
      rw [hfound] at h
      obtain ⟨_, _, hs'⟩ := bind_ok.mp h
      cases hs'
      refine .inr ⟨rfl, ?_, rfl, rfl, rfl⟩
      show (s.catalogue.categories ++ _).map _ = _
      rw [List.map_append]
      rfl

/-- It leaves the products alone. -/
theorem ensureCategory_products {s s' : ImportState} {c : ReviewCategory} {categoryId : Uuid}
    (h : ensureCategory U s c = .ok (categoryId, s')) :
    s'.catalogue.products = s.catalogue.products ∧ s.catalogue.fresh ≤ s'.catalogue.fresh
      ∧ s'.productIdByNorm = s.productIdByNorm ∧ s'.written = s.written := by
  unfold ensureCategory at h
  cases hfound : s.catIdByNorm (normalizeName U c.name) with
  | some id =>
      rw [hfound] at h
      cases h
      exact ⟨rfl, le_rfl, rfl, rfl⟩
  | none =>
      rw [hfound] at h
      obtain ⟨_, _, hs'⟩ := bind_ok.mp h
      cases hs'
      exact ⟨rfl, Nat.le_succ _, rfl, rfl⟩

end Writes

/-! ## §6. The invariants. -/

section Invariants

variable {U : Unicode} {cat : Catalogue}

variable (U cat) in
/-- After the items `before`: what the map of products knows, and when dishes stayed apart. -/
structure ProductInv (before : List ReviewItem) (s : ImportState) : Prop where
  indexed : Indexed (normalizeName U) cat.fresh s.catalogue.fresh cat.productNames
    s.catalogue.productNames (before.map (·.name)) (lastNamed U before) s.productIdByNorm
  known : ∀ it ∈ before, ∀ id ∈ it.match_.productId, id < cat.fresh
  judged : (∀ w ∈ s.written, w.1.action = .create →
      ∀ p ∈ w.2, similarName U p.name w.1.name = true) ↔ EachAfter (ItemOk U cat) [] before

variable (U cat) in
/-- After the categories `before`: what the map of categories knows. -/
structure CategoryInv (before : List ReviewCategory) (s : ImportState) : Prop where
  indexed : Indexed (normalizeName U) cat.fresh s.catalogue.fresh cat.categoryNames
    s.catalogue.categoryNames (before.map (·.name)) (fun _ => none) s.catIdByNorm
  judged : (∀ w ∈ s.placed, (∃ it ∈ w.1.items, it.action = .create) →
      ∀ k ∈ w.2, similarName U k.name w.1.name = true) ↔ EachAfter (CategoryOk U cat) [] before

section Names

variable {first next : Uuid} {initial rows : List (Uuid × String)} {seen : List String}
  {pins m : NameMap} {name : String}

/-- A row that the map has by its own name is similar, unless nothing is left of the name; then
something so named was there before. -/
theorem similar_iff (h : Indexed (normalizeName U) first next initial rows seen pins m) {id : Uuid}
    (hpin : pins (normalizeName U name) = none) (hm : m (normalizeName U name) = some id)
    {r : Uuid × String} (hr : r ∈ rows) (hid : r.1 = id) :
    similarName U r.2 name = true
      ↔ (normalizeName U name = [] → (∀ r ∈ initial, normalizeName U r.2 ≠ [])
          ∧ ∀ n ∈ seen, normalizeName U n ≠ []) := by
  rw [similarName_of_norm (h.row hpin hm hr hid)]
  refine imp_congr_right fun hnil => (iff_false_left not_false).mpr ?_
  rw [hnil] at hm
  intro habsent
  exact absurd (((h.absent []).mpr habsent).symm.trans hm) nofun

/-- Nothing goes by a name that the map does not have. -/
theorem absent_of_none (h : Indexed (normalizeName U) first next initial rows seen pins m)
    (hm : m (normalizeName U name) = none) (hnil : normalizeName U name = []) :
    (∀ r ∈ initial, normalizeName U r.2 ≠ []) ∧ ∀ n ∈ seen, normalizeName U n ≠ [] := by
  rw [hnil] at hm
  exact (h.absent []).mp hm

end Names

/-- The rows and the names of the index are the products and the items. -/
theorem itemOk_absent {before : List ReviewItem} {norm : List Char} :
    ((∀ r ∈ cat.productNames, normalizeName U r.2 ≠ norm)
        ∧ ∀ n ∈ before.map (·.name), normalizeName U n ≠ norm)
      ↔ (∀ p ∈ cat.products, normalizeName U p.name ≠ norm)
        ∧ ∀ it ∈ before, normalizeName U it.name ≠ norm := by
  unfold Catalogue.productNames
  rw [List.forall_mem_map, List.forall_mem_map]

/-- And those of the other the categories. -/
theorem categoryOk_absent {before : List ReviewCategory} {norm : List Char} :
    ((∀ r ∈ cat.categoryNames, normalizeName U r.2 ≠ norm)
        ∧ ∀ n ∈ before.map (·.name), normalizeName U n ≠ norm)
      ↔ (∀ k ∈ cat.categories, normalizeName U k.name ≠ norm)
        ∧ ∀ c ∈ before, normalizeName U c.name ≠ norm := by
  unfold Catalogue.categoryNames
  rw [List.forall_mem_map, List.forall_mem_map]

/-- **An item that goes to a product** is fine just if they are similar. -/
theorem itemOk_hit (hkeys : cat.Keys) {before : List ReviewItem} {s : ImportState}
    (hI : ProductInv U cat before s) {it : ReviewItem} {id : Uuid}
    (htarget : targetId U s it = some id) {p : ProductRow} (hp : p ∈ s.catalogue.products)
    (hid : p.id = id) :
    (it.action = .create → similarName U p.name it.name = true) ↔ ItemOk U cat before it := by
  refine imp_congr_right fun hcreate => ?_
  -- it names no product, so it is the map that has this one
  have hnamed : named U (normalizeName U it.name) it = none := by
    refine if_neg fun hcond => ?_
    rw [hcreate] at hcond
    exact nomatch hcond.1
  rw [targetId_eq, hnamed, Option.none_or] at htarget
  have hmem : (p.id, p.name) ∈ s.catalogue.productNames := List.mem_map_of_mem hp
  cases hlast : lastNamed U before (normalizeName U it.name) with
  | some j =>
      -- an update before it did
      have hj : j = id := Option.some.inj ((hI.indexed.pinned _ j hlast).symm.trans htarget)
      obtain ⟨it', hit', hnames⟩ := lastNamed_mem hlast
      have hold : (p.id, p.name) ∈ cat.productNames :=
        hI.indexed.kept _ hmem (by simpa [hid, ← hj] using hI.known it' hit' j hnames)
      obtain ⟨p₀, hp₀, heq⟩ := List.mem_map.mp hold
      obtain ⟨hid₀, hname₀⟩ := Prod.ext_iff.mp heq
      dsimp only at hid₀ hname₀ ⊢
      constructor
      · intro hsimilar
        exact ⟨p₀, hp₀, (hid₀.trans hid).trans hj.symm, hname₀ ▸ hsimilar⟩
      · rintro ⟨p₁, hp₁, hid₁, hsimilar⟩
        have hsame : p₁ = p₀ := List.inj_on_of_nodup_map hkeys.products hp₁ hp₀
          ((hid₁.trans hj).trans (hid₀.trans hid).symm)
        rw [← hname₀, ← hsame]
        exact hsimilar
  | none =>
      rw [similar_iff hI.indexed hlast htarget hmem hid]
      exact imp_congr_right fun _ => itemOk_absent

/-- **An item that makes a product** is fine. -/
theorem itemOk_new {before : List ReviewItem} {s : ImportState} (hI : ProductInv U cat before s)
    {it : ReviewItem} (htarget : targetId U s it = none) : ItemOk U cat before it := by
  intro _
  rw [targetId_eq] at htarget
  have hnone := (Option.or_eq_none_iff.mp htarget).2
  rw [hI.indexed.not_pinned hnone]
  exact fun hnil => itemOk_absent.mp (absent_of_none hI.indexed hnone hnil)

/-- A category that goes to one that is there is fine just if they are similar. -/
theorem categoryOk_hit {before : List ReviewCategory} {s : ImportState}
    (hI : CategoryInv U cat before s) {c : ReviewCategory} {id : Uuid}
    (hm : s.catIdByNorm (normalizeName U c.name) = some id) :
    ((∃ it ∈ c.items, it.action = .create) →
        ∀ k ∈ s.catalogue.categories.find? (fun k => decide (k.id = id)),
          similarName U k.name c.name = true)
      ↔ CategoryOk U cat before c := by
  refine imp_congr_right fun _ => ?_
  rw [← categoryOk_absent]
  obtain ⟨r, hr, hrid, -⟩ := hI.indexed.unpinned _ id rfl hm
  obtain ⟨k, hk, rfl⟩ := List.mem_map.mp hr
  -- the search finds the row the map has
  obtain ⟨k', hfind⟩ : ∃ k', s.catalogue.categories.find? (fun k => decide (k.id = id)) = some k' :=
    Option.isSome_iff_exists.mp (List.find?_isSome.mpr ⟨k, hk, decide_eq_true hrid⟩)
  rw [hfind]
  have hmem : (k'.id, k'.name) ∈ s.catalogue.categoryNames :=
    List.mem_map_of_mem (List.mem_of_find?_eq_some hfind)
  have hid : k'.id = id := by simpa using List.find?_some hfind
  rw [← similar_iff hI.indexed rfl hm hmem hid]
  simp

/-- A category of a new name cannot clash. -/
theorem categoryOk_new {before : List ReviewCategory} {s : ImportState}
    (hI : CategoryInv U cat before s) {c : ReviewCategory}
    (hm : s.catIdByNorm (normalizeName U c.name) = none) : CategoryOk U cat before c :=
  fun _ hnil => categoryOk_absent.mp (absent_of_none hI.indexed hm hnil)

/-- **One item**, among the products. -/
theorem productInv_step (hkeys : cat.Keys) {categoryId : Uuid} {before : List ReviewItem}
    {s s' : ImportState} {it : ReviewItem} (hit : ∀ id ∈ it.match_.productId, id < cat.fresh)
    (hI : ProductInv U cat before s) (h : writeItem U categoryId s it = .ok s') :
    ProductInv U cat (before ++ [it]) s' := by
  have hknown : ∀ it' ∈ before ++ [it], ∀ id ∈ it'.match_.productId, id < cat.fresh := by
    rw [List.forall_mem_append, List.forall_mem_singleton]
    exact ⟨hI.known, hit⟩
  rcases writeItem_products h with
    ⟨id, p, hp, htarget, hid, hnames, hfresh, hmap, hwritten⟩ | ⟨htarget, hnames, hfresh, hmap, hwritten⟩
  · refine ⟨?_, hknown, ?_⟩
    · rw [hnames, hfresh, hmap, List.map_append, lastNamed_snoc]
      exact hI.indexed.hit (targetId_eq s it ▸ htarget)
    · rw [hwritten, List.forall_mem_append, List.forall_mem_singleton, eachAfter_snoc,
        List.nil_append, hI.judged, ← itemOk_hit hkeys hI htarget hp hid]
      simp
  · obtain ⟨hnamed, hnone⟩ := Option.or_eq_none_iff.mp ((targetId_eq s it).symm.trans htarget)
    refine ⟨?_, hknown, ?_⟩
    · -- nor was the name pinned
      have hpins : lastNamed U (before ++ [it]) = lastNamed U before := by
        rw [lastNamed_snoc, hnamed, Option.none_or, Function.update_eq_self]
      rw [hnames, hfresh, hmap, List.map_append, hpins]
      exact hI.indexed.insert hnone
    · rw [hwritten, List.forall_mem_append, List.forall_mem_singleton, eachAfter_snoc,
        List.nil_append, hI.judged]
      exact and_congr_right fun _ => iff_of_true (fun _ => forall_mem_none) (itemOk_new hI htarget)

/-- **One category**, among the categories. -/
theorem categoryInv_step {categoryId : Uuid} {before : List ReviewCategory} {s s' : ImportState}
    {c : ReviewCategory} (hI : CategoryInv U cat before s)
    (h : ensureCategory U s c = .ok (categoryId, s')) :
    CategoryInv U cat (before ++ [c]) s' := by
  rcases ensureCategory_categories h with ⟨id, hm, rfl⟩ | ⟨hm, hnames, hfresh, hmap, hplaced⟩
  · refine ⟨?_, ?_⟩
    · -- the map is as if the name had been put into it again
      have hwrite := hI.indexed.hit (Option.none_or.trans hm)
      have hpins : Function.update (fun _ => none : NameMap) (normalizeName U c.name) none
          = fun _ => none := Function.update_eq_self_iff.mpr rfl
      rw [Option.none_or, hpins, Function.update_eq_self_iff.mpr hm.symm] at hwrite
      rw [List.map_append]
      exact hwrite
    · show (∀ w ∈ s.placed ++ [_], _) ↔ _
      rw [List.forall_mem_append, List.forall_mem_singleton, eachAfter_snoc, List.nil_append,
        hI.judged, ← categoryOk_hit hI hm]
  · refine ⟨?_, ?_⟩
    · rw [hnames, hfresh, hmap, List.map_append]
      exact hI.indexed.insert hm
    · rw [hplaced, List.forall_mem_append, List.forall_mem_singleton, eachAfter_snoc,
        List.nil_append, hI.judged]
      exact and_congr_right fun _ => iff_of_true (fun _ => forall_mem_none) (categoryOk_new hI hm)

/-- A category is none of the products' business, -/
theorem productInv_ensureCategory {categoryId : Uuid} {before : List ReviewItem}
    {s s' : ImportState} {c : ReviewCategory} (hI : ProductInv U cat before s)
    (h : ensureCategory U s c = .ok (categoryId, s')) : ProductInv U cat before s' := by
  obtain ⟨hproducts, hfresh, hmap, hwritten⟩ := ensureCategory_products h
  refine ⟨?_, hI.known, ?_⟩
  · have hgrown := hI.indexed.grow hfresh
    unfold Catalogue.productNames at hgrown ⊢
    rw [hproducts, hmap]
    exact hgrown
  · rw [hwritten]
    exact hI.judged

/-- nor an item that of the categories. -/
theorem categoryInv_writeItem {categoryId : Uuid} {before : List ReviewCategory}
    {s s' : ImportState} {it : ReviewItem} (hI : CategoryInv U cat before s)
    (h : writeItem U categoryId s it = .ok s') : CategoryInv U cat before s' := by
  obtain ⟨hcategories, hfresh, hmap, hplaced⟩ := writeItem_categories h
  refine ⟨?_, ?_⟩
  · have hgrown := hI.indexed.grow hfresh
    unfold Catalogue.categoryNames at hgrown ⊢
    rw [hcategories, hmap]
    exact hgrown
  · rw [hplaced]
    exact hI.judged

/-! ## §7. The whole import. -/

variable (U cat) in
/-- After the categories `before` of the menu, with all their items. -/
def ImportInv (before : List ReviewCategory) (s : ImportState) : Prop :=
  ProductInv U cat (before.flatMap (·.toWrite)) s
    ∧ CategoryInv U cat (before.filter fun c => decide (c.toWrite ≠ [])) s

/-- **The import starts with every name standing for its own row.** -/
theorem importInv_opening (hkeys : cat.Keys) : ImportInv U cat [] (opening U cat) := by
  obtain ⟨hproductMap, hcatMap⟩ := opening_maps U cat
  -- nothing is written yet
  refine ⟨⟨?_, List.forall_mem_nil _, iff_of_true (List.forall_mem_nil _) trivial⟩,
    ⟨?_, iff_of_true (List.forall_mem_nil _) trivial⟩⟩
  · rw [hproductMap]
    refine .opening ?_ (List.forall_mem_map.mpr hkeys.products_fresh)
    unfold Catalogue.productNames
    rw [List.map_map]
    exact hkeys.products
  · rw [hcatMap]
    refine .opening ?_ (List.forall_mem_map.mpr hkeys.categories_fresh)
    unfold Catalogue.categoryNames
    rw [List.map_map]
    exact hkeys.categories

/-- **One category of the menu**, with its items. -/
theorem importInv_step (hkeys : cat.Keys) {before : List ReviewCategory} {s s' : ImportState}
    {c : ReviewCategory} (hc : ∀ it ∈ c.items, ∀ id ∈ it.match_.productId, id < cat.fresh)
    (hI : ImportInv U cat before s) (h : writeCategory U s c = .ok s') :
    ImportInv U cat (before ++ [c]) s' := by
  obtain ⟨hproducts, hcategories⟩ := hI
  -- what is skipped is counted, which is of no interest to either
  have hproducts : ProductInv U cat (before.flatMap (·.toWrite))
      { s with skipped := s.skipped + (c.items.length - c.toWrite.length) } :=
    ⟨hproducts.indexed, hproducts.known, hproducts.judged⟩
  have hcategories : CategoryInv U cat (before.filter fun c => decide (c.toWrite ≠ []))
      { s with skipped := s.skipped + (c.items.length - c.toWrite.length) } :=
    ⟨hcategories.indexed, hcategories.judged⟩
  unfold ImportInv
  rw [List.flatMap_append, List.flatMap_singleton, List.filter_append]
  unfold writeCategory at h
  dsimp only at h
  split at h
  next hnone =>
    -- nothing of it is written
    cases h
    have hitems : before.flatMap (·.toWrite) ++ c.toWrite = before.flatMap (·.toWrite) := by
      rw [hnone, List.append_nil]
    rw [List.filter_cons_of_neg (by simp [hnone]), List.filter_nil, List.append_nil, hitems]
    exact ⟨hproducts, hcategories⟩
  next hsome =>
    obtain ⟨⟨categoryId, s₁⟩, hensure, hitems⟩ := bind_ok.mp h
    rw [List.filter_cons_of_pos (by simp [hsome]), List.filter_nil]
    -- the loop over its items keeps the one invariant, and adds them to the other
    refine runAll_after (I := fun items s => ProductInv U cat items s
        ∧ CategoryInv U cat (before.filter (fun c => decide (c.toWrite ≠ [])) ++ [c]) s)
      ?_ ⟨productInv_ensureCategory hproducts hensure, categoryInv_step hcategories hensure⟩ hitems
    rintro it hit items s₂ s₃ ⟨hp, hk⟩ hwrite
    exact ⟨productInv_step hkeys (hc it (List.mem_of_mem_filter hit)) hp hwrite,
      categoryInv_writeItem hk hwrite⟩

/-- **The step inversion**: the loop has run, and the session is done with. -/
theorem importMenu_ok {menu : ReviewMenu} {id : Uuid} {s : ImportState}
    (h : importMenu U cat id menu = .ok s) :
    ∃ s₁, runAll (writeCategory U) menu.categories (opening U cat) = .ok s₁
      ∧ s = { s₁ with catalogue := { s₁.catalogue with
          sessions := s₁.catalogue.sessions.map fun x =>
            if x.id = id then { x with status := .imported } else x } } := by
  unfold importMenu at h
  split at h
  next => cases h
  next =>
    obtain ⟨session, -, h⟩ := bind_ok.mp h
    obtain ⟨-, -, h⟩ := bind_ok.mp h
    obtain ⟨-, -, h⟩ := bind_ok.mp h
    obtain ⟨s₁, hrun, hs⟩ := bind_ok.mp h
    exact ⟨s₁, hrun, (pure_ok.mp hs).symm⟩

/-- **When different dishes stay apart**: just if every item and every category finds its like
only, given those before it. -/
theorem importMenu_separate (hkeys : cat.Keys) {menu : ReviewMenu} (hmenu : menu.Known cat.fresh)
    {id : Uuid} {s : ImportState} (h : importMenu U cat id menu = .ok s) :
    Separate U s ↔ MenuOk U cat menu := by
  obtain ⟨s₁, hrun, rfl⟩ := importMenu_ok h
  have hinv : ImportInv U cat ([] ++ menu.categories) s₁ :=
    runAll_after (fun c hc before s s' hI hwrite => importInv_step hkeys (hmenu c hc) hI hwrite)
      (importInv_opening hkeys) hrun
  exact and_congr hinv.1.judged hinv.2.judged

end Invariants

/-- **Different dishes stay apart** in an import just if nothing to be created comes to a name of
which nothing is left and that is taken, or to one pinned to another dish; and `matchItem` tells
them apart unless nothing is left of either name. -/
theorem dishes_apart (U : Unicode) :
    (∀ (cat : Catalogue) (id : Uuid) (menu : ReviewMenu) (s : ImportState), cat.Keys →
        menu.Known cat.fresh → importMenu U cat id menu = .ok s →
        (Separate U s ↔ MenuOk U cat menu))
      ∧ ∀ (name : String) (priceMinor : Option ℤ) (existing : List ExistingProduct),
        (existing.map (·.id)).Nodup →
        ((∀ p ∈ existing, (matchItem U name priceMinor existing).Reports p →
            similarName U p.name name = true)
          ↔ ¬ (normalizeName U name = [] ∧ ∃ p ∈ existing, normalizeName U p.name = [])) :=
  ⟨fun _ _ _ _ hkeys hmenu h => importMenu_separate hkeys hmenu h,
    fun _ _ _ hids => matchItem_similar_iff hids⟩

/-- A catalogue of one dish in one category. -/
def momos : Catalogue :=
  ⟨[⟨1, "Hot"⟩], [⟨2, "Momo", 12000, true, some 1⟩], [⟨3, .reviewRequired⟩], 4⟩

/-- The price of one dish, the same again under its own name, and another dish. -/
def momoMenu : ReviewMenu :=
  ⟨[⟨"HOT", [⟨"Momos", some 14000, .update, ⟨.priceChange, some 2, some 12000⟩⟩,
    ⟨"momos", some 15000, .create, ⟨.new, none, none⟩⟩,
    ⟨"Chai", some 2000, .create, ⟨.new, none, none⟩⟩]⟩]⟩

/-- ‘Momos’ is found to be ‘Momo’, whose name it resembles. -/
theorem dishes_apart_momos :
    (∃ s, importMenu .ascii momos 3 momoMenu = .ok s ∧ Separate .ascii s)
      ∧ ∀ p ∈ [(⟨2, "Momo", 12000⟩ : ExistingProduct)],
        (matchItem .ascii "Momos" (some 14000) [⟨2, "Momo", 12000⟩]).Reports p →
          similarName .ascii p.name "Momos" = true := by
  have hrun : ((importMenu .ascii momos 3 momoMenu).toOption).isSome = true := by decide
  obtain ⟨s, hs⟩ := Option.isSome_iff_exists.mp hrun
  have hkeys : momos.Keys := ⟨by decide, by decide, by decide, by decide⟩
  have hknown : momoMenu.Known momos.fresh := by unfold ReviewMenu.Known; decide
  obtain ⟨himport, hmatch⟩ := dishes_apart .ascii
  exact ⟨⟨s, toOption_some.mp hs,
      (himport momos 3 momoMenu s hkeys hknown (toOption_some.mp hs)).mpr (by decide)⟩,
    (hmatch "Momos" (some 14000) [⟨2, "Momo", 12000⟩] (by decide)).mpr (by decide)⟩

/-- The tea and the samosa, of whose names nothing is left. -/
def tea : Catalogue :=
  ⟨[⟨1, "पेय"⟩], [⟨2, "चाय", 3000, true, some 1⟩], [⟨3, .reviewRequired⟩], 4⟩

/-- A menu in Devanagari, of which the normalised names keep nothing. -/
def samosaMenu : ReviewMenu :=
  ⟨[⟨"नाश्ता", [⟨"समोसा", some 2000, .create, ⟨.priceChange, some 2, some 3000⟩⟩]⟩]⟩

/-- **The samosa is written over the tea**, whose name it does not resemble. -/
theorem samosa_written_to_tea :
    (∃ s, importMenu .ascii tea 3 samosaMenu = .ok s ∧ ¬ Separate .ascii s)
      ∧ (matchItem .ascii "समोसा" (some 2000) [⟨2, "चाय", 3000⟩]).Reports ⟨2, "चाय", 3000⟩
      ∧ similarName .ascii "चाय" "समोसा" = false := by
  have hrun : ∃ s ∈ (importMenu .ascii tea 3 samosaMenu).toOption, ¬ Separate .ascii s := by decide
  obtain ⟨s, hs, hnot⟩ := hrun
  exact ⟨⟨s, toOption_some.mp hs, hnot⟩, by decide, by decide⟩

end OraOS.MenuImport
