/-
  OraOS.MenuImport.Unpoisoned — no statement of an import is refused.

  A statement that fails inside a transaction poisons all of it, so the import must not try
  a name that a unique index would refuse.  Both maps cover their tables at every step, and
  a map that has nothing for a name leaves no row with it.

    * `writeItem_kept`, `ensureCategory_kept`
                           — one write, which is never refused;
    * `writeCategory_kept` — one category of the menu, with its items;
    * `import_unpoisoned`  — the import fails in its checks only, and counts every item.
-/
import OraOS.MenuImport.Import

namespace OraOS.MenuImport

open OraOS.Api
open OraOS.Lib

/-! ## §1. What every write keeps. -/

/-- What an update names is a product. -/
def ReviewItem.Targets (it : ReviewItem) (cat : Catalogue) : Prop :=
  it.action = .update → ∀ id ∈ it.match_.productId, ∃ p ∈ cat.products, p.id = id

/-- Every update of the menu names a product, if it names one. -/
def ReviewMenu.Targets (menu : ReviewMenu) (cat : Catalogue) : Prop :=
  ∀ c ∈ menu.categories, ∀ it ∈ c.items, it.Targets cat

variable {U : Unicode} {cat : Catalogue}

variable (U cat) in
/-- After `n` items: the maps cover the tables, which have all that was there under the name
it had, and each item is counted. -/
structure ImportKept (n : ℕ) (s : ImportState) : Prop where
  products : InStep (normalizeName U) s.catalogue.productNames s.productIdByNorm
  categories : InStep (normalizeName U) s.catalogue.categoryNames s.catIdByNorm
  productsKept : cat.productNames <+: s.catalogue.productNames
  categoriesKept : cat.categoryNames <+: s.catalogue.categoryNames
  counted : s.created + s.updated + s.skipped = n

/-- What an item is written to is there. -/
theorem targetId_mem {n : ℕ} {s : ImportState} (h : ImportKept U cat n s) {it : ReviewItem}
    (hit : it.Targets cat) {id : Uuid} (htarget : targetId U s it = some id) :
    ∃ r ∈ s.catalogue.productNames, r.1 = id := by
  rcases Option.or_eq_some_iff.mp htarget with hnamed | ⟨-, hmap⟩
  · -- it names a product that was there, and still is
    split at hnamed
    next hupdate =>
      obtain ⟨p, hp, hid⟩ := hit hupdate id hnamed
      have hmem : (p.id, p.name) ∈ cat.productNames := List.mem_map_of_mem hp
      exact ⟨_, h.productsKept.subset hmem, hid⟩
    next => cases hnamed
  · exact h.products.points _ id hmap

/-- A new product has a new name. -/
theorem targetId_none {n : ℕ} {s : ImportState} (h : ImportKept U cat n s) {it : ReviewItem}
    (htarget : targetId U s it = none) :
    s.productIdByNorm (normalizeName U it.name) = none
      ∧ ∀ p ∈ s.catalogue.products, p.name ≠ it.name := by
  have hnone := (Option.or_eq_none_iff.mp htarget).2
  refine ⟨hnone, fun p hp => ?_⟩
  have hmem : (p.id, p.name) ∈ s.catalogue.productNames := List.mem_map_of_mem hp
  exact h.products.free hnone _ hmem

/-- No item is refused. -/
theorem writeItem_ok {n : ℕ} {s : ImportState} (h : ImportKept U cat n s) {it : ReviewItem}
    (hit : it.Targets cat) (categoryId : Uuid) : ∃ s', writeItem U categoryId s it = .ok s' := by
  unfold writeItem
  dsimp only
  cases htarget : targetId U s it with
  | some id =>
      obtain ⟨r, hr, hid⟩ := targetId_mem h hit htarget
      obtain ⟨p, hp, rfl⟩ := List.mem_map.mp hr
      have hsome : (s.catalogue.products.find? fun p => decide (p.id = id)).isSome := by
        rw [List.find?_isSome]
        exact ⟨p, hp, decide_eq_true hid⟩
      obtain ⟨p', hp'⟩ := Option.isSome_iff_exists.mp hsome
      exact ⟨_, bind_ok.mpr ⟨p', found_ok.mpr hp', rfl⟩⟩
  | none =>
      exact ⟨_, bind_ok.mpr ⟨(), require_of _ (targetId_none h htarget).2, rfl⟩⟩

/-- Every item is created or updated. -/
theorem writeItem_counted {categoryId : Uuid} {s s' : ImportState} {it : ReviewItem}
    (h : writeItem U categoryId s it = .ok s') :
    s'.created + s'.updated + s'.skipped = s.created + s.updated + s.skipped + 1 := by
  unfold writeItem at h
  dsimp only at h
  cases htarget : targetId U s it with
  | some id =>
      rw [htarget] at h
      obtain ⟨p, -, hs'⟩ := bind_ok.mp h
      cases hs'
      dsimp only
      omega
  | none =>
      rw [htarget] at h
      obtain ⟨-, -, hs'⟩ := bind_ok.mp h
      cases hs'
      dsimp only
      omega

/-- **One item** is written, and the maps keep up. -/
theorem writeItem_kept {n : ℕ} {s : ImportState} (h : ImportKept U cat n s) {it : ReviewItem}
    (hit : it.Targets cat) (categoryId : Uuid) :
    ∃ s', writeItem U categoryId s it = .ok s' ∧ ImportKept U cat (n + 1) s' := by
  obtain ⟨s', hs'⟩ := writeItem_ok h hit categoryId
  refine ⟨s', hs', ?_⟩
  obtain ⟨hcategories, -, hcatMap, -⟩ := writeItem_categories hs'
  have hcategoryNames : s'.catalogue.categoryNames = s.catalogue.categoryNames := by
    unfold Catalogue.categoryNames
    rw [hcategories]
  have hcounted : s'.created + s'.updated + s'.skipped = n + 1 := by
    rw [writeItem_counted hs', h.counted]
  have hkept : InStep (normalizeName U) s'.catalogue.categoryNames s'.catIdByNorm
      ∧ cat.categoryNames <+: s'.catalogue.categoryNames := by
    rw [hcategoryNames, hcatMap]
    exact ⟨h.categories, h.categoriesKept⟩
  rcases writeItem_products hs' with
    ⟨id, p, -, htarget, -, hnames, -, hmap, -⟩ | ⟨htarget, hnames, -, hmap, -⟩
  · refine ⟨?_, hkept.1, ?_, hkept.2, hcounted⟩
    · rw [hnames, hmap]
      exact h.products.hit (targetId_mem h hit htarget)
    · rw [hnames]
      exact h.productsKept
  · refine ⟨?_, hkept.1, ?_, hkept.2, hcounted⟩
    · rw [hnames, hmap]
      exact h.products.insert (targetId_none h htarget).1
    · rw [hnames]
      exact h.productsKept.trans (List.prefix_append _ _)

/-- **A category** is there, or is made. -/
theorem ensureCategory_kept {n : ℕ} {s : ImportState} (h : ImportKept U cat n s)
    (c : ReviewCategory) : ∃ categoryId s', ensureCategory U s c = .ok (categoryId, s')
      ∧ ImportKept U cat n s' := by
  unfold ensureCategory
  cases hmap : s.catIdByNorm (normalizeName U c.name) with
  | some id =>
      exact ⟨id, _, rfl,
        ⟨h.products, h.categories, h.productsKept, h.categoriesKept, h.counted⟩⟩
  | none =>
      have hfree : ∀ k ∈ s.catalogue.categories, k.name ≠ c.name := by
        intro k hk
        have hmem : (k.id, k.name) ∈ s.catalogue.categoryNames := List.mem_map_of_mem hk
        exact h.categories.free hmap _ hmem
      have hnames : (s.catalogue.categories ++ [(⟨s.catalogue.fresh, c.name⟩ : CategoryRow)]).map
            (fun k => (k.id, k.name))
          = s.catalogue.categoryNames ++ [(s.catalogue.fresh, c.name)] := by
        rw [List.map_append]
        rfl
      refine ⟨_, _, bind_ok.mpr ⟨(), require_of _ hfree, rfl⟩,
        ⟨h.products, ?_, h.productsKept, ?_, h.counted⟩⟩
      · show InStep _ (List.map _ (_ ++ _)) _
        rw [hnames]
        exact h.categories.insert hmap
      · show _ <+: List.map _ (_ ++ _)
        rw [hnames]
        exact h.categoriesKept.trans (List.prefix_append _ _)

/-! ## §2. The loops. -/

/-- **One category of the menu**, with its items. -/
theorem writeCategory_kept {n : ℕ} {s : ImportState} (h : ImportKept U cat n s)
    {c : ReviewCategory} (hc : ∀ it ∈ c.items, it.Targets cat) :
    ∃ s', writeCategory U s c = .ok s' ∧ ImportKept U cat (n + c.items.length) s' := by
  have hle : c.toWrite.length ≤ c.items.length := List.length_filter_le _ _
  have hcounted := h.counted
  -- what is skipped is counted first
  have hskipped : ImportKept U cat (n + (c.items.length - c.toWrite.length))
      { s with skipped := s.skipped + (c.items.length - c.toWrite.length) } :=
    ⟨h.products, h.categories, h.productsKept, h.categoriesKept, by dsimp only; omega⟩
  unfold writeCategory
  dsimp only
  split_ifs with hnone
  · refine ⟨_, rfl, ?_⟩
    rw [hnone, List.length_nil, Nat.sub_zero] at hskipped
    rw [hnone, List.length_nil, Nat.sub_zero]
    exact hskipped
  · obtain ⟨categoryId, s₁, hensure, h₁⟩ := ensureCategory_kept hskipped c
    have hitems := runAll_total (f := writeItem U categoryId) (l := c.toWrite)
      (I := fun before s =>
        ImportKept U cat (n + (c.items.length - c.toWrite.length) + before.length) s)
      [] (fun it hit before s hI => by
        rw [List.length_append]
        exact writeItem_kept hI (hc it (List.mem_of_mem_filter hit)) categoryId) h₁
    obtain ⟨s', hrun, hI⟩ := hitems
    refine ⟨s', bind_ok.mpr ⟨_, hensure, hrun⟩, ?_⟩
    rw [List.nil_append] at hI
    have hall : n + c.items.length
        = n + (c.items.length - c.toWrite.length) + c.toWrite.length := by omega
    rw [hall]
    exact hI

/-- The tables as they are found, and their maps. -/
theorem importKept_opening (hproducts : (cat.products.map (·.name)).Nodup)
    (hcategories : (cat.categories.map (·.name)).Nodup) :
    ImportKept U cat 0 (opening U cat) := by
  obtain ⟨hproductMap, hcatMap⟩ := opening_maps U cat
  rw [← Catalogue.productNames_snd] at hproducts
  rw [← Catalogue.categoryNames_snd] at hcategories
  refine ⟨?_, ?_, List.prefix_rfl, List.prefix_rfl, rfl⟩
  · rw [hproductMap]
    exact .opening hproducts
  · rw [hcatMap]
    exact .opening hcategories

/-- **The whole menu** is written, whatever names it repeats. -/
theorem writeMenu_kept (hproducts : (cat.products.map (·.name)).Nodup)
    (hcategories : (cat.categories.map (·.name)).Nodup) {menu : ReviewMenu}
    (htargets : menu.Targets cat) :
    ∃ s, runAll (writeCategory U) menu.categories (opening U cat) = .ok s
      ∧ ImportKept U cat (menu.categories.flatMap (·.items)).length s := by
  refine runAll_total
    (I := fun (before : List ReviewCategory) s =>
      ImportKept U cat (before.flatMap (·.items)).length s)
    [] (fun c hc before s hI => ?_) (importKept_opening hproducts hcategories)
  rw [List.flatMap_append, List.flatMap_singleton, List.length_append]
  exact writeCategory_kept hI (htargets c hc)

/-- What the import throws of itself; any other error is a statement that failed. -/
def Thrown : ApiError → Prop
  | .badRequest _ | .notFound _ | .conflict _ => True
  | _ => False

/-- No statement fails. -/
theorem importMenu_thrown (hproducts : (cat.products.map (·.name)).Nodup)
    (hcategories : (cat.categories.map (·.name)).Nodup) {menu : ReviewMenu}
    (htargets : menu.Targets cat) (id : Uuid) : FailsWith Thrown (importMenu U cat id menu) := by
  obtain ⟨s₁, hrun, -⟩ := writeMenu_kept (U := U) hproducts hcategories htargets
  unfold importMenu
  split
  next => exact .error trivial
  next =>
    refine .bind ?_ fun session _ => .bind (.require trivial) fun _ _ =>
      .bind (.require trivial) fun _ _ => ?_
    · intro e he
      unfold found at he
      split at he
      next => cases he
      next =>
        cases he
        trivial
    · rw [hrun]
      exact .ok _

/-- And what was there is kept. -/
theorem importMenu_kept (hproducts : (cat.products.map (·.name)).Nodup)
    (hcategories : (cat.categories.map (·.name)).Nodup) {menu : ReviewMenu}
    (htargets : menu.Targets cat) {id : Uuid} {s : ImportState}
    (h : importMenu U cat id menu = .ok s) :
    ImportKept U cat (menu.categories.flatMap (·.items)).length s := by
  obtain ⟨s₁, hrun, rfl⟩ := importMenu_ok h
  obtain ⟨s₂, hrun', hI⟩ := writeMenu_kept (U := U) hproducts hcategories htargets
  obtain rfl : s₂ = s₁ := Except.ok.inj (hrun'.symm.trans hrun)
  exact ⟨hI.products, hI.categories, hI.productsKept, hI.categoriesKept, hI.counted⟩

/-- **An import never poisons its transaction**: it can fail in its checks only, and when it
succeeds the catalogue has what it had, each name once, and every item is counted. -/
theorem import_unpoisoned (U : Unicode) {cat : Catalogue}
    (hproducts : (cat.products.map (·.name)).Nodup)
    (hcategories : (cat.categories.map (·.name)).Nodup) {menu : ReviewMenu}
    (htargets : menu.Targets cat) (id : Uuid) :
    (∀ e, importMenu U cat id menu = .error e → Thrown e)
      ∧ ∀ s, importMenu U cat id menu = .ok s →
        cat.productNames <+: s.catalogue.productNames
          ∧ cat.categoryNames <+: s.catalogue.categoryNames
          ∧ (s.catalogue.products.map (·.name)).Nodup
          ∧ (s.catalogue.categories.map (·.name)).Nodup
          ∧ s.created + s.updated + s.skipped = (menu.categories.flatMap (·.items)).length := by
  refine ⟨importMenu_thrown hproducts hcategories htargets id, fun s h => ?_⟩
  have hI := importMenu_kept hproducts hcategories htargets h
  refine ⟨hI.productsKept, hI.categoriesKept, ?_, ?_, hI.counted⟩
  · rw [← Catalogue.productNames_snd]
    exact hI.products.unique
  · rw [← Catalogue.categoryNames_snd]
    exact hI.categories.unique

/-- Both names for the dish, and one of them twice. -/
theorem import_unpoisoned_momos :
    ((momos.products.map (·.name)).Nodup ∧ (momos.categories.map (·.name)).Nodup
        ∧ ReviewMenu.Targets momoMenu momos)
      ∧ ∃ s, importMenu .ascii momos 3 momoMenu = .ok s ∧ s.created = 1 ∧ s.updated = 2
        ∧ (s.catalogue.products.map (·.name)).Nodup := by
  have hrun : ∃ s ∈ (importMenu .ascii momos 3 momoMenu).toOption,
      s.created = 1 ∧ s.updated = 2 := by decide
  obtain ⟨s, hs, hcreated, hupdated⟩ := hrun
  have htargets : ReviewMenu.Targets momoMenu momos := by
    unfold ReviewMenu.Targets ReviewItem.Targets
    decide
  have himport := import_unpoisoned .ascii (by decide) (by decide) htargets 3
  obtain ⟨-, -, hnames, -, -⟩ := himport.2 s (toOption_some.mp hs)
  exact ⟨⟨by decide, by decide, htargets⟩, s, toOption_some.mp hs, hcreated, hupdated, hnames⟩

end OraOS.MenuImport
