/-
  OraOS.Menus.Reorder — the display order of the categories.

  `reorderCategories` checks for duplicates, compares a count, and writes one sort order
  after the other, each a statement that may find nothing.

    * `placed_eq`     — what the loop of updates leaves;
    * `reorder_order` — a list is accepted exactly when it names every category once, and
                        then the categories are listed in its order.
-/
import OraOS.Menus.Isolation

namespace OraOS.Menus

open OraOS.Api
open OraOS.Lib

variable {t : Uuid} {db : Tables}

/-! ## §1. The loop. -/

/-- The category with its place. -/
def Category.at (sortOrder : ℕ) (c : Category) : Category := { c with sortOrder := sortOrder }

/-- The updates of the loop, one after the other. -/
def placed (t : Uuid) (places : List (Uuid × ℕ)) (rows : List Category) : List Category :=
  places.foldl (fun rows p => updateWhere t (fun c => decide (c.id = p.1)) (Category.at p.2) rows)
    rows

/-- Placing a category changes the number of none. -/
theorem count_updateWhere {p : Category → Bool} {n : ℕ} {id : Uuid} (rows : List Category) :
    (ownRows t (updateWhere t p (Category.at n) rows)).countP (fun c => decide (c.id = id))
      = (ownRows t rows).countP fun c => decide (c.id = id) := by
  rw [ownRows_updateWhere (g := Category.at n) fun _ => rfl]
  unfold updateWhere
  rw [List.countP_map]
  refine List.countP_congr fun c _ => ?_
  show decide ((if _ then c.at n else c : Category).id = id) = true ↔ _
  split
  · exact Iff.rfl
  · exact Iff.rfl

/-- Every update counts the rows there were at the start: ids do not change. -/
theorem setSortOrders (places : List (Uuid × ℕ)) (db : Tables) :
    (places.mapM fun p => setSortOrder t p.1 p.2 : Transaction (List ℕ)) db
      = .ok (places.map fun p => (ownRows t db.categories).countP fun c => decide (c.id = p.1),
        categories.put db (placed t places db.categories)) := by
  induction places generalizing db with
  | nil => rfl
  | cons p places ih =>
      have hfirst : setSortOrder t p.1 p.2 db
          = .ok ((ownRows t db.categories).countP fun c => decide (c.id = p.1),
            categories.put db (updateWhere t (fun c => decide (c.id = p.1)) (Category.at p.2)
              db.categories)) := rfl
      -- an update moves no id, so the counts of the rest are those of before
      have hcounts : (places.map fun q => (ownRows t (updateWhere t (fun c => decide (c.id = p.1))
            (Category.at p.2) db.categories)).countP fun c => decide (c.id = q.1))
          = places.map fun q => (ownRows t db.categories).countP fun c => decide (c.id = q.1) :=
        List.map_congr_left fun q _ => count_updateWhere db.categories
      rw [List.mapM_cons, tx_bind hfirst, tx_bind (ih _)]
      exact congrArg (fun counts => Except.ok (_ :: counts, _)) hcounts

/-- What the loop makes of one row. -/
def settle (t : Uuid) (places : List (Uuid × ℕ)) (c : Category) : Category :=
  places.foldl (fun c p => if tenantOf c = t ∧ decide (c.id = p.1) = true then c.at p.2 else c) c

/-- **Writing the places one after the other gives each category its own.** -/
theorem placed_eq (places : List (Uuid × ℕ)) (rows : List Category) :
    placed t places rows = rows.map (settle t places) := by
  induction places generalizing rows with
  | nil => exact (List.map_id rows).symm
  | cons p places ih =>
      show placed t places (updateWhere t _ _ rows) = _
      rw [ih, updateWhere, List.map_map]
      rfl

/-- A category that is placed keeps its name and its menu. -/
theorem settle_same (places : List (Uuid × ℕ)) (c : Category) :
    (settle t places c).id = c.id ∧ (settle t places c).restaurantId = c.restaurantId
      ∧ (settle t places c).name = c.name := by
  induction places generalizing c with
  | nil => exact ⟨rfl, rfl, rfl⟩
  | cons p places ih =>
      have hstep := ih (if tenantOf c = t ∧ decide (c.id = p.1) = true then c.at p.2 else c)
      show (settle t places _).id = _ ∧ (settle t places _).restaurantId = _
        ∧ (settle t places _).name = _
      rw [hstep.1, hstep.2.1, hstep.2.2]
      split
      · exact ⟨rfl, rfl, rfl⟩
      · exact ⟨rfl, rfl, rfl⟩

/-- A row that no pair names, or another restaurant's, stays. -/
theorem settle_unnamed (places : List (Uuid × ℕ)) (c : Category)
    (h : ∀ p ∈ places, ¬ (c.restaurantId = t ∧ c.id = p.1)) : settle t places c = c := by
  induction places with
  | nil => rfl
  | cons p places ih =>
      have hne : ¬ (tenantOf c = t ∧ decide (c.id = p.1) = true) := by
        rintro ⟨htenant, hid⟩
        exact h p List.mem_cons_self ⟨htenant, of_decide_eq_true hid⟩
      show settle t places (if _ then c.at p.2 else c) = c
      rw [if_neg hne]
      exact ih fun q hq => h q (List.mem_cons_of_mem p hq)

/-- A row that is named once gets its place. -/
theorem settle_named {places : List (Uuid × ℕ)} (hnodup : (places.map Prod.fst).Nodup)
    {c : Category} (hc : c.restaurantId = t) {n : ℕ} (hn : (c.id, n) ∈ places) :
    settle t places c = c.at n := by
  induction places with
  | nil => cases hn
  | cons p places ih =>
      obtain ⟨hnew, hrest⟩ := List.nodup_cons.mp hnodup
      show settle t places (if _ then c.at p.2 else c) = c.at n
      rcases List.mem_cons.mp hn with rfl | hin
      · -- it is named here, and not again
        rw [if_pos ⟨hc, decide_eq_true rfl⟩]
        refine settle_unnamed places _ fun q hq heq => hnew ?_
        exact List.mem_map.mpr ⟨q, hq, heq.2.symm⟩
      · have hne : ¬ (tenantOf c = t ∧ decide (c.id = p.1) = true) := by
          rintro ⟨-, hid⟩
          rw [← of_decide_eq_true hid] at hnew
          exact hnew (List.mem_map_of_mem (f := Prod.fst) hin)
        rw [if_neg hne]
        exact ih hrest hin

/-! ## §2. The order. -/

/-- The categories of the restaurant, each with its place in the list. -/
theorem ownRows_placed {ids : List Uuid} (hnodup : ids.Nodup)
    (hall : ∀ c ∈ ownRows t db.categories, c.id ∈ ids) :
    ownRows t (placed t ids.zipIdx db.categories)
      = (ownRows t db.categories).map fun c => c.at (ids.idxOf c.id) := by
  rw [placed_eq, ownRows_map fun c => (settle_same ids.zipIdx c).2.1]
  refine List.map_congr_left fun c hc => ?_
  refine settle_named ?_ (mem_ownRows.mp hc).2 ?_
  · rw [List.zipIdx_map_fst]
    exact hnodup
  · rw [List.mem_zipIdx_iff_getElem?]
    exact List.getElem?_idxOf (hall c hc)

/-- Rows in the order of their places are in the order of the list. -/
theorem ids_in_order {ids : List Uuid} {rows : List Category} (hperm : (rows.map (·.id)).Perm ids)
    (hplace : ∀ c ∈ rows, c.sortOrder = (ids.idxOf c.id : ℕ))
    (hsorted : rows.Pairwise fun a b => a.sortOrder ≤ b.sortOrder) (hnodup : ids.Nodup) :
    rows.map (·.id) = ids := by
  have hanti : ∀ a b, a ∈ rows.map (·.id) → b ∈ ids → ids.idxOf a ≤ ids.idxOf b →
      ids.idxOf b ≤ ids.idxOf a → a = b := by
    intro a b ha hb hab hba
    have hain : a ∈ ids := hperm.mem_iff.mp ha
    exact (List.idxOf_inj hain).mp (le_antisymm hab hba)
  refine List.Perm.eq_of_pairwise hanti ?_ ?_ hperm
  -- both lists stand by the place of their ids in the request
  · rw [List.pairwise_map]
    refine hsorted.imp_of_mem fun ha hb hle => ?_
    rw [hplace _ ha, hplace _ hb] at hle
    exact Int.ofNat_le.mp hle
  · rw [List.pairwise_iff_getElem]
    intro i j hi hj hij
    rw [hnodup.idxOf_getElem, hnodup.idxOf_getElem]
    exact hij.le

/-- Putting a list in menu order loses nothing. -/
theorem menuOrder_perm {ρ : Type} (collate : String → String → Bool) (sortOrder : ρ → ℤ)
    (name : ρ → String) (rows : List ρ) : (menuOrder collate sortOrder name rows).Perm rows :=
  (orderBy_perm _ _).trans (List.perm_insertionSort _ rows)

/-- The ids name every category once: so many, none twice, and none that is not found. -/
theorem named_once {ids keys : List Uuid} (hnodup : ids.Nodup)
    (hlength : keys.length = ids.length) (hfound : ∀ id ∈ ids, id ∈ keys) : ids.Perm keys :=
  (hnodup.subperm hfound).perm_of_length_le hlength.le

/-- A category is counted when it is there. -/
theorem count_ne_zero {id : Uuid} {rows : List Category} :
    (rows.countP fun c => decide (c.id = id)) ≠ 0 ↔ id ∈ rows.map (·.id) := by
  rw [Nat.ne_zero_iff_zero_lt, List.countP_pos_iff, List.mem_map]
  simp only [decide_eq_true_eq]

/-- What the listing shows after the loop. -/
theorem listed_in_order (collate : String → String → Bool) {ids : List Uuid}
    (hperm : ids.Perm ((ownRows t db.categories).map (·.id))) (hnodup : ids.Nodup) :
    ∃ cs, menuOrder collate (·.sortOrder) (·.name)
        (ownRows t (placed t ids.zipIdx db.categories)) = cs
      ∧ cs.map (·.id) = ids
      ∧ (cs.map fun c => (c.id, c.name)).Perm
          ((ownRows t db.categories).map fun c => (c.id, c.name)) := by
  have hall : ∀ c ∈ ownRows t db.categories, c.id ∈ ids :=
    fun c hc => hperm.mem_iff.mpr (List.mem_map_of_mem hc)
  have hplaced := ownRows_placed hnodup hall
  set cs := menuOrder collate (·.sortOrder) (·.name)
    (ownRows t (placed t ids.zipIdx db.categories)) with hcs
  -- the list shown: each own category, at the place its id has in the request
  have hcsPerm : cs.Perm ((ownRows t db.categories).map fun c => c.at (ids.idxOf c.id)) := by
    rw [hcs, hplaced]
    exact menuOrder_perm collate _ _ _
  refine ⟨cs, rfl, ids_in_order ?_ ?_ (pairwise_orderBy _ _) hnodup, ?_⟩
  · refine ((hcsPerm.map (·.id)).trans ?_).trans hperm.symm
    rw [List.map_map]
    exact List.Perm.of_eq (List.map_congr_left fun c _ => rfl)
  · intro c hc
    obtain ⟨c', -, rfl⟩ := List.mem_map.mp (hcsPerm.mem_iff.mp hc)
    rfl
  · refine (hcsPerm.map _).trans ?_
    rw [List.map_map]
    exact List.Perm.of_eq (List.map_congr_left fun c _ => rfl)

/-- What a reordering answers and leaves. -/
def reordered (collate : String → String → Bool) (t : Uuid) (ids : List Uuid) (db : Tables) :
    Reply × Tables :=
  let rows := placed t ids.zipIdx db.categories
  (.categories (menuOrder collate (·.sortOrder) (·.name) (ownRows t rows)), categories.put db rows)

/-- **The order is accepted when it names every category of the menu once.** -/
theorem reorder_ok (collate : String → String → Bool) {ids : List Uuid} {r : Reply × Tables} :
    reorderCategories collate t ids db = .ok r
      ↔ ids.Perm ((ownRows t db.categories).map (·.id)) ∧ ids.Nodup
        ∧ r = reordered collate t ids db := by
  have hcounts : ∀ results, results = (ids.zipIdx.map fun p =>
        (ownRows t db.categories).countP fun c => decide (c.id = p.1)) →
      ((∀ n ∈ results, n ≠ 0) ↔ ∀ id ∈ ids, id ∈ (ownRows t db.categories).map (·.id)) := by
    rintro _ rfl
    constructor
    · intro hall id hid
      -- no count is zero exactly when every id of the request is an own one
      obtain ⟨n, hn⟩ := List.mem_iff_getElem?.mp hid
      have hmem : (id, n) ∈ ids.zipIdx := List.mem_zipIdx_iff_getElem?.mpr hn
      exact count_ne_zero.mp (hall _ (List.mem_map_of_mem hmem))
    · intro hall n hn
      obtain ⟨p, hp, rfl⟩ := List.mem_map.mp hn
      exact count_ne_zero.mpr (hall p.1 (List.fst_mem_of_mem_zipIdx hp))
  constructor
  · intro h
    obtain ⟨_, _, hdistinct, h⟩ := tx_bind_ok.mp h
    obtain ⟨hunique, heq⟩ := ensure_ok.mp hdistinct
    cases heq
    obtain ⟨_, _, hcount, h⟩ := tx_bind_ok.mp h
    cases hcount
    obtain ⟨_, _, hlength, h⟩ := tx_bind_ok.mp h
    obtain ⟨hsame, heq⟩ := ensure_ok.mp hlength
    cases heq
    obtain ⟨results, _, hloop, h⟩ := tx_bind_ok.mp h
    have hleft := hloop.symm.trans (setSortOrders ids.zipIdx db)
    cases hleft
    obtain ⟨_, _, hfound, h⟩ := tx_bind_ok.mp h
    obtain ⟨hnonzero, heq⟩ := ensure_ok.mp hfound
    cases heq
    cases h
    -- distinct ids, as many as own categories, each of which one row answers
    have hnodup := distinct_length_iff.mp hunique
    refine ⟨named_once hnodup ?_ ((hcounts _ rfl).mp hnonzero), hnodup, rfl⟩
    exact (List.length_map _).trans hsame
  · rintro ⟨hperm, hnodup, rfl⟩
    have hsame : (ownRows t db.categories).length = ids.length := by
      rw [← hperm.length_eq.symm, List.length_map]
    refine tx_bind_ok.mpr ⟨(), db, ensure_ok.mpr ⟨distinct_length_iff.mpr hnodup, rfl⟩, ?_⟩
    refine tx_bind_ok.mpr ⟨_, db, rfl, ?_⟩
    refine tx_bind_ok.mpr ⟨(), db, ensure_ok.mpr ⟨hsame, rfl⟩, ?_⟩
    refine tx_bind_ok.mpr ⟨_, _, setSortOrders ids.zipIdx db, ?_⟩
    refine tx_bind_ok.mpr ⟨(), _, ensure_ok.mpr ⟨?_, rfl⟩, rfl⟩
    exact (hcounts _ rfl).mpr fun id hid => hperm.mem_iff.mp hid

/-- **Reordering** is accepted exactly when the list names every category of the
restaurant once; the categories are then listed in its order, with the names they had, and
nothing else has changed. -/
theorem reorder_order (collate : String → String → Bool) (h : Own db) (t : Uuid)
    (ids : List Uuid) :
    ((∃ r, reorderCategories collate t ids db = .ok r)
        ↔ ids.Perm ((ownRows t db.categories).map (·.id)))
      ∧ ∀ reply db', reorderCategories collate t ids db = .ok (reply, db') →
          (∃ cs, reply = .categories cs ∧ cs.map (·.id) = ids
            ∧ (cs.map fun c => (c.id, c.name)).Perm
                ((ownRows t db.categories).map fun c => (c.id, c.name)))
          ∧ listCategoriesIn collate t db' = .ok (reply, db')
          ∧ db' = { db with categories := db'.categories }
          ∧ ∀ u, u ≠ t → ownRows u db'.categories = ownRows u db.categories := by
  constructor
  · constructor
    · rintro ⟨r, hr⟩
      exact ((reorder_ok collate).mp hr).1
    · intro hperm
      have hkeys : ((ownRows t db.categories).map (·.id)).Nodup :=
        keys_filter _ h.category_keys
      exact ⟨_, (reorder_ok collate).mpr ⟨hperm, hperm.nodup_iff.mpr hkeys, rfl⟩⟩
  · intro reply db' hok
    obtain ⟨hperm, hnodup, heq⟩ := (reorder_ok collate).mp hok
    cases heq
    obtain ⟨cs, hcs, hids, hnames⟩ := listed_in_order collate hperm hnodup
    refine ⟨⟨cs, congrArg Reply.categories hcs, hids, hnames⟩, rfl, rfl, ?_⟩
    -- a category of another menu is named by none of the ids that moved a row
    intro u hu
    show ownRows u (placed t ids.zipIdx db.categories) = _
    rw [placed_eq]
    refine ownRows_map_foreign (fun c => (settle_same _ c).2.1) ?_ hu
    exact fun c _ hne => settle_unnamed _ c fun _ _ hnamed => hne hnamed.1

/-- Two restaurants with two categories each. -/
def fourCategories : Tables :=
  { noMenus with categories := [⟨1, 7, "Momos", 0⟩, ⟨2, 8, "Chai", 0⟩, ⟨3, 7, "Soups", 1⟩,
      ⟨4, 8, "Snacks", 0⟩] }

theorem fourCategories_own : Own fourCategories :=
  { noMenus_own with
    category_keys := by decide
    products_category := nofun
    combos_category := nofun }

/-- Soups first; a category of the other restaurant is refused. -/
theorem reorder_order_soups :
    (∃ r, reorderCategories (fun _ _ => true) 7 [3, 1] fourCategories = .ok r)
      ∧ ¬ ∃ r, reorderCategories (fun _ _ => true) 7 [3, 2] fourCategories = .ok r := by
  constructor
  · exact (reorder_order _ fourCategories_own 7 [3, 1]).1.mpr (by decide)
  · exact fun h => absurd ((reorder_order _ fourCategories_own 7 [3, 2]).1.mp h) (by decide)

end OraOS.Menus
