/-
  OraOS.Orders.ModifierSheet — choosing modifiers at the till.

  The sheet keeps a list of option ids for each group and lets it grow up to the group's
  maximum; its button is enabled once every group has its minimum.  The server checks the
  same bounds, but passes over groups that offer nothing.

    * `sheetInv_toggle`       — what the sheet keeps, whatever is tapped;
    * `server_snapshot`       — the server reads the selection as the sheet shows it;
    * `accepted_iff`          — when the server accepts it;
    * `sheet_agrees`          — for which products the two always agree.
-/
import OraOS.Catalogue.Modifiers

namespace OraOS.Orders

open OraOS.Api
open OraOS.Lib
open OraOS.Catalogue

/-! ## §1. The sheet. -/

/-- `sel`: the option ids chosen of each group, in the order they were tapped; a group that
is not there yet has none. -/
abbrev Selections := Uuid → List Uuid

/-- `toggle`. -/
def toggle (prev : Selections) (group : ModifierGroup) (optionId : Uuid) : Selections :=
  let cur := prev group.id
  if group.maxSelect = 1 then
    -- tapping the selected one clears it only when optional
    if cur.head? = some optionId then
      if 1 ≤ group.minSelect then prev else Function.update prev group.id []
    else Function.update prev group.id [optionId]
  else if optionId ∈ cur then
    Function.update prev group.id (cur.filter fun x => decide (x ≠ optionId))
  else if group.maxSelect ≤ cur.length then prev
  else Function.update prev group.id (cur ++ [optionId])

/-- `snapshot`. -/
def sheetSnapshot (groups : List ModifierGroup) (sel : Selections) : List ModifierSnapshotEntry :=
  groups.flatMap fun g =>
    (g.options.filter fun o => (sel g.id).contains o.id).map fun o =>
      ⟨o.id, g.name, o.name, o.priceAdjustMinor⟩

/-- `adjust`. -/
def sheetAdjust (groups : List ModifierGroup) (sel : Selections) : ℤ :=
  ((sheetSnapshot groups sel).map (·.priceAdjustMinor)).sum

/-- `requiredOk`. -/
def requiredOk (groups : List ModifierGroup) (sel : Selections) : Bool :=
  groups.all fun g => decide (g.minSelect ≤ (sel g.id).length)

/-- The ids that the cart sends for what the sheet adds. -/
def selectedIds (groups : List ModifierGroup) (sel : Selections) : List Uuid :=
  (sheetSnapshot groups sel).map (·.optionId)

/-- Taps on the options shown, from an empty selection. -/
def sheet (groups : List ModifierGroup) : System Selections (ModifierGroup × Uuid) where
  init sel := ∀ groupId, sel groupId = []
  step sel tap sel' := tap.1 ∈ groups ∧ tap.2 ∈ optionIds tap.1 ∧ sel' = toggle sel tap.1 tap.2

/-- **The sheet and the server agree** on the selection: the button is enabled if and only
if the server accepts it, and then the snapshot and the price are the server's. -/
def SheetAgrees (groups : List ModifierGroup) (sel : Selections) : Prop :=
  (requiredOk groups sel = true
      ↔ ∃ selection, resolveModifierSelection groups (selectedIds groups sel) = .ok selection)
    ∧ ∀ selection, resolveModifierSelection groups (selectedIds groups sel) = .ok selection →
        sheetSnapshot groups sel = selection.snapshot
          ∧ sheetAdjust groups sel = selection.perUnitAdjustMinor

/-! ## §2. What the sheet keeps. -/

/-- Options of the group, none twice, and no more than it allows. -/
structure GroupInv (g : ModifierGroup) (ids : List Uuid) : Prop where
  nodup : ids.Nodup
  known : ∀ id ∈ ids, id ∈ optionIds g
  capped : (ids.length : ℤ) ≤ g.maxSelect

/-- Every group has a selection the sheet can have made. -/
def SheetInv (groups : List ModifierGroup) (sel : Selections) : Prop :=
  ∀ g ∈ groups, GroupInv g (sel g.id)

/-- Nothing selected is one. -/
theorem GroupInv.nil (g : ModifierGroup) : GroupInv g [] where
  nodup := List.nodup_nil
  known := List.forall_mem_nil _
  capped := le_trans (by decide) g.select_valid.2.1

/-- A tap on one group leaves the others. -/
theorem toggle_other (prev : Selections) (group : ModifierGroup) (optionId : Uuid) {id : Uuid}
    (h : id ≠ group.id) : toggle prev group optionId id = prev id := by
  unfold toggle
  split_ifs <;> simp [Function.update_of_ne h]

/-- **A tap keeps its group within what the sheet allows.** -/
theorem toggle_groupInv {prev : Selections} {group : ModifierGroup} {optionId : Uuid}
    (h : GroupInv group (prev group.id)) (ho : optionId ∈ optionIds group) :
    GroupInv group (toggle prev group optionId group.id) := by
  have hone : GroupInv group [optionId] :=
    ⟨List.nodup_singleton _, fun id hid => List.mem_singleton.mp hid ▸ ho, group.select_valid.2.1⟩
  unfold toggle
  split_ifs with hsingle hhead hrequired hmem hfull
  · exact h
  · rw [Function.update_self]
    exact .nil group
  · rw [Function.update_self]
    exact hone
  · rw [Function.update_self]
    refine ⟨h.nodup.filter _, fun id hid => h.known id (List.mem_of_mem_filter hid), ?_⟩
    exact le_trans (Int.ofNat_le.mpr (List.length_filter_le _ _)) h.capped
  · exact h
  · -- below the cap there is room for one more
    rw [Function.update_self]
    refine ⟨List.nodup_append'.mpr ⟨h.nodup, List.nodup_singleton _, ?_⟩, ?_, ?_⟩
    · exact List.disjoint_singleton.mpr hmem
    · intro id hid
      rcases List.mem_append.mp hid with hid | hid
      · exact h.known id hid
      · exact List.mem_singleton.mp hid ▸ ho
    · rw [List.length_append, List.length_singleton]
      push Not at hfull
      push_cast
      omega

/-- The keys of what a product offers. -/
structure GroupKeys (groups : List ModifierGroup) : Prop where
  ids : (groups.map (·.id)).Nodup
  options : (groups.flatMap optionIds).Nodup

section Sheet

variable {groups : List ModifierGroup} {sel : Selections}

/-- **Every tap keeps it.** -/
theorem sheetInv_toggle (hkeys : GroupKeys groups) (h : SheetInv groups sel) {g : ModifierGroup}
    {optionId : Uuid} (hg : g ∈ groups) (ho : optionId ∈ optionIds g) :
    SheetInv groups (toggle sel g optionId) := by
  intro g' hg'
  by_cases hid : g'.id = g.id
  · rw [List.inj_on_of_nodup_map hkeys.ids hg' hg hid]
    exact toggle_groupInv (h g hg) ho
  · rw [toggle_other sel g optionId hid]
    exact h g' hg'

theorem sheetInv_reachable (hkeys : GroupKeys groups) (h : (sheet groups).Reachable sel) :
    SheetInv groups sel := by
  refine h.invariant (SheetInv groups) ?_ ?_
  · intro sel hinit g _
    rw [hinit g.id]
    exact .nil g
  · rintro sel ⟨g, optionId⟩ sel' hsel ⟨hg, ho, rfl⟩
    exact sheetInv_toggle hkeys hsel hg ho

/-! ## §3. What the server makes of it. -/

/-- Of a group, the ids sent are the ids chosen. -/
theorem mem_selectedIds (hkeys : GroupKeys groups) {g : ModifierGroup} (hg : g ∈ groups)
    {o : ModifierOption} (ho : o ∈ g.options) :
    o.id ∈ selectedIds groups sel ↔ o.id ∈ sel g.id := by
  constructor
  · intro hmem
    obtain ⟨e, he, hid⟩ := List.mem_map.mp hmem
    obtain ⟨g', hg', he⟩ := List.mem_flatMap.mp he
    obtain ⟨o', ho', rfl⟩ := List.mem_map.mp he
    obtain ⟨hmem', hchosen⟩ := List.mem_filter.mp ho'
    have hoid : o'.id = o.id := hid
    have hown : o'.id ∈ optionIds g := by
      rw [hoid]
      exact List.mem_map_of_mem ho
    rw [← hoid, ← group_of_option hkeys.options hg' hg (List.mem_map_of_mem hmem') hown]
    exact List.contains_iff_mem.mp hchosen
  · intro hchosen
    refine List.mem_map.mpr ⟨⟨o.id, g.name, o.name, o.priceAdjustMinor⟩, ?_, rfl⟩
    refine List.mem_flatMap.mpr ⟨g, hg, List.mem_map.mpr ⟨o, ?_, rfl⟩⟩
    exact List.mem_filter.mpr ⟨ho, List.contains_iff_mem.mpr hchosen⟩

/-- The options the server finds chosen in a group are those tapped in it. -/
theorem chosen_filter (hkeys : GroupKeys groups) {g : ModifierGroup} (hg : g ∈ groups) :
    (g.options.filter fun o => (selectedIds groups sel).contains o.id)
      = g.options.filter fun o => (sel g.id).contains o.id := by
  refine List.filter_congr fun o ho => ?_
  rw [Bool.eq_iff_iff, List.contains_iff_mem, List.contains_iff_mem]
  exact mem_selectedIds hkeys hg ho

/-- **The server reads the selection as the sheet shows it.** -/
theorem server_snapshot (hkeys : GroupKeys groups) :
    modifierSnapshot groups (selectedIds groups sel) = sheetSnapshot groups sel := by
  refine List.flatMap_congr fun g hg => ?_
  rw [chosen_filter hkeys hg]

/-- **The server counts in a group what was tapped in it.** -/
theorem chosenIn_selectedIds (hkeys : GroupKeys groups) (h : SheetInv groups sel)
    {g : ModifierGroup} (hg : g ∈ groups) :
    chosenIn g (selectedIds groups sel) = (sel g.id).length := by
  have hids : ((g.options.filter fun o => (sel g.id).contains o.id).map (·.id)).Perm (sel g.id) := by
    have hoptions : (optionIds g).Nodup := (List.nodup_flatMap.mp hkeys.options).1 g hg
    refine (List.perm_ext_iff_of_nodup ?_ (h g hg).nodup).mpr ?_
    · exact (List.filter_sublist.map _).nodup hoptions
    · intro id
      constructor
      · intro hid
        obtain ⟨o, ho, rfl⟩ := List.mem_map.mp hid
        exact List.contains_iff_mem.mp (List.mem_filter.mp ho).2
      · intro hid
        obtain ⟨o, ho, rfl⟩ := List.mem_map.mp ((h g hg).known id hid)
        exact List.mem_map_of_mem (List.mem_filter.mpr ⟨ho, List.contains_iff_mem.mpr hid⟩)
  have hlength := hids.length_eq
  rw [List.length_map] at hlength
  unfold chosenIn
  rw [chosen_filter hkeys hg, hlength]

/-- No option is sent twice. -/
theorem selectedIds_nodup (hkeys : GroupKeys groups) : (selectedIds groups sel).Nodup := by
  rw [selectedIds, ← server_snapshot hkeys, modifierSnapshot_ids]
  exact hkeys.options.filter _

/-- Only options of the groups are sent. -/
theorem selectedIds_known {id : Uuid} (h : id ∈ selectedIds groups sel) :
    ∃ g ∈ groups, ∃ o ∈ g.options, o.id = id := by
  obtain ⟨e, he, rfl⟩ := List.mem_map.mp h
  obtain ⟨g, hg, he⟩ := List.mem_flatMap.mp he
  obtain ⟨o, ho, rfl⟩ := List.mem_map.mp he
  exact ⟨g, hg, o, List.mem_of_mem_filter ho, rfl⟩

/-- **When the server accepts what the sheet has**: when every group that offers anything
has its minimum; the maximum, the sheet has seen to. -/
theorem accepted_iff (hkeys : GroupKeys groups) (h : SheetInv groups sel) :
    (∃ selection, resolveModifierSelection groups (selectedIds groups sel) = .ok selection)
      ↔ ∀ g ∈ groups, g.options ≠ [] → g.minSelect ≤ (sel g.id).length := by
  constructor
  · rintro ⟨selection, hok⟩ g hg hoptions
    rw [← chosenIn_selectedIds hkeys h hg]
    exact ((resolveModifierSelection_ok.mp hok).2.2.1 g hg hoptions).1
  · intro hmin
    refine ⟨_, resolveModifierSelection_ok.mpr ⟨selectedIds_nodup hkeys,
      fun id hid => selectedIds_known hid, ?_, rfl⟩⟩
    intro g hg hoptions
    rw [chosenIn_selectedIds hkeys h hg]
    exact ⟨hmin g hg hoptions, (h g hg).capped⟩

/-- The sheet is complete when each group has its minimum. -/
theorem requiredOk_iff :
    requiredOk groups sel = true ↔ ∀ g ∈ groups, g.minSelect ≤ (sel g.id).length := by
  unfold requiredOk
  rw [List.all_eq_true]
  exact forall₂_congr fun _ _ => decide_eq_true_iff

/-- **Where they differ**: on selections that the server accepts, of a product with a group
that requires something and offers nothing. -/
theorem agrees_iff (hkeys : GroupKeys groups) (h : SheetInv groups sel) :
    SheetAgrees groups sel ↔ ((∀ g ∈ groups, g.options ≠ [] → g.minSelect ≤ (sel g.id).length) →
      ∀ g ∈ groups, g.options = [] → g.minSelect ≤ 0) := by
  have hempty : ∀ g ∈ groups, g.options = [] → sel g.id = [] := by
    intro g hg hoptions
    refine List.eq_nil_iff_forall_not_mem.mpr fun id hid => ?_
    have hknown := (h g hg).known id hid
    rw [optionIds, hoptions] at hknown
    exact List.not_mem_nil hknown
  have hread : ∀ selection,
      resolveModifierSelection groups (selectedIds groups sel) = .ok selection →
      sheetSnapshot groups sel = selection.snapshot
        ∧ sheetAdjust groups sel = selection.perUnitAdjustMinor := by
    intro selection hok
    obtain ⟨-, -, -, rfl⟩ := resolveModifierSelection_ok.mp hok
    rw [sheetAdjust, ← server_snapshot hkeys]
    exact ⟨rfl, rfl⟩
  rw [SheetAgrees, and_iff_left hread, requiredOk_iff, accepted_iff hkeys h]
  constructor
  · intro hiff hmin g hg hoptions
    have hlength := hiff.mpr hmin g hg
    rw [hempty g hg hoptions] at hlength
    exact hlength
  · intro himp
    refine ⟨fun hall g hg _ => hall g hg, fun hmin g hg => ?_⟩
    by_cases hoptions : g.options = []
    · rw [hempty g hg hoptions]
      exact himp hmin g hg hoptions
    · exact hmin g hg hoptions

end Sheet

/-! ## §4. A selection that meets every minimum. -/

/-- Of each group as many options as it requires. -/
def filled : List ModifierGroup → Selections
  | [] => fun _ => []
  | g :: gs => Function.update (filled gs) g.id (required g)

/-- A group that was not filled has nothing. -/
theorem filled_of_not_mem {id : Uuid} :
    ∀ {gs : List ModifierGroup}, id ∉ gs.map (·.id) → filled gs id = []
  | [], _ => rfl
  | g :: gs, h => by
      rw [List.map_cons, List.mem_cons, not_or] at h
      rw [filled, Function.update_of_ne h.1]
      exact filled_of_not_mem h.2

/-- A group that was filled has what it requires. -/
theorem filled_of_mem {g : ModifierGroup} :
    ∀ {gs : List ModifierGroup}, (gs.map (·.id)).Nodup → g ∈ gs → filled gs g.id = required g
  | g' :: gs, hids, hg => by
      rw [List.map_cons, List.nodup_cons] at hids
      rcases List.mem_cons.mp hg with rfl | hg
      · exact Function.update_self ..
      · have hne : g.id ≠ g'.id := fun heq => hids.1 (heq ▸ List.mem_map_of_mem hg)
        rw [filled, Function.update_of_ne hne]
        exact filled_of_mem hids.2 hg

/-- A tap on an option that is not chosen yet, below the cap. -/
theorem toggle_new {prev : Selections} {group : ModifierGroup} {optionId : Uuid}
    (hnew : optionId ∉ prev group.id) (hroom : ((prev group.id).length : ℤ) < group.maxSelect) :
    toggle prev group optionId = Function.update prev group.id (prev group.id ++ [optionId]) := by
  unfold toggle
  by_cases hsingle : group.maxSelect = 1
  · -- a single choice that has room has nothing yet
    have hnone : prev group.id = [] := by
      rw [hsingle] at hroom
      exact List.length_eq_zero_iff.mp (by omega)
    rw [if_pos hsingle, hnone, if_neg (by simp)]
    rfl
  · rw [if_neg hsingle, if_neg hnew, if_neg (not_le.mpr hroom)]

section Reach

variable {groups : List ModifierGroup}

/-- Tapping the options of a group one after the other, up to its minimum. -/
theorem reachable_required (hkeys : GroupKeys groups) {sel : Selections}
    (h : (sheet groups).Reachable sel) {g : ModifierGroup} (hg : g ∈ groups) (hnone : sel g.id = []) :
    ∀ k, k ≤ g.minSelect.toNat → k ≤ g.options.length →
      (sheet groups).Reachable (Function.update sel g.id ((optionIds g).take k))
  | 0, _, _ => by
      rw [List.take_zero, ← hnone, Function.update_eq_self]
      exact h
  | k + 1, hmin, hlength => by
      have ih := reachable_required hkeys h hg hnone k (Nat.le_of_succ_le hmin)
        (Nat.le_of_succ_le hlength)
      have hk : k < (optionIds g).length := by
        rw [optionIds, List.length_map]
        exact hlength
      have hids : (optionIds g).Nodup := (List.nodup_flatMap.mp hkeys.options).1 g hg
      have hnew : (optionIds g)[k] ∉ (optionIds g).take k := by
        intro hmem
        have hdrop : (optionIds g)[k] ∈ (optionIds g).drop k := by
          rw [List.drop_eq_getElem_cons hk]
          exact List.mem_cons_self
        exact List.disjoint_take_drop hids (le_refl k) hmem hdrop
      have hroom : (((optionIds g).take k).length : ℤ) < g.maxSelect := by
        have hmax := g.select_valid.2.2
        rw [List.length_take]
        omega
      refine ih.step (a := (g, (optionIds g)[k])) ⟨hg, List.getElem_mem hk, ?_⟩
      rw [toggle_new (by rwa [Function.update_self]) (by rwa [Function.update_self]),
        Function.update_self, Function.update_idem, List.take_succ_eq_append_getElem hk]

/-- **Every group can be given its minimum by taps.** -/
theorem reachable_filled (hkeys : GroupKeys groups)
    (henough : ∀ g ∈ groups, g.options ≠ [] → g.minSelect ≤ g.options.length) :
    ∀ gs : List ModifierGroup, (∀ g ∈ gs, g ∈ groups) → (gs.map (·.id)).Nodup →
      (sheet groups).Reachable (filled gs)
  | [], _, _ => .init fun _ => rfl
  | g :: gs, hsub, hids => by
      rw [List.map_cons, List.nodup_cons] at hids
      have ih := reachable_filled hkeys henough gs
        (fun x hx => hsub x (List.mem_cons_of_mem g hx)) hids.2
      have hg := hsub g List.mem_cons_self
      have hnone := filled_of_not_mem hids.1
      by_cases hoptions : g.options = []
      · -- a group without options has nothing to tap
        have hrequired : required g = [] := by
          rw [required, optionIds, hoptions, List.map_nil, List.take_nil]
        rw [filled, hrequired, ← hnone, Function.update_eq_self]
        exact ih
      · have hmin := henough g hg hoptions
        exact reachable_required hkeys ih hg hnone _ (le_refl _) (Int.toNat_le.mpr hmin)

/-- **The sheet and the server agree on every selection of a product** exactly if each group
that requires something offers something, or nobody can order the product. -/
theorem agrees_always_iff (hkeys : GroupKeys groups) :
    (∀ sel, (sheet groups).Reachable sel → SheetAgrees groups sel)
      ↔ (∀ g ∈ groups, g.options = [] → g.minSelect ≤ 0)
        ∨ ∃ g ∈ groups, g.options ≠ [] ∧ (g.options.length : ℤ) < g.minSelect := by
  constructor
  · intro hagrees
    by_cases hshort : ∃ g ∈ groups, g.options ≠ [] ∧ (g.options.length : ℤ) < g.minSelect
    · exact .inr hshort
    · left
      push Not at hshort
      have hreachable := reachable_filled hkeys hshort groups (fun _ h => h) hkeys.ids
      refine (agrees_iff hkeys (sheetInv_reachable hkeys hreachable)).mp (hagrees _ hreachable) ?_
      intro g hg hoptions
      have hmin := hshort g hg hoptions
      rw [filled_of_mem hkeys.ids hg, required, List.length_take, optionIds, List.length_map]
      omega
  · intro hcond sel hreachable
    have hinv := sheetInv_reachable hkeys hreachable
    refine (agrees_iff hkeys hinv).mpr fun hmin => ?_
    rcases hcond with hnone | ⟨g, hg, hoptions, hshort⟩
    · exact hnone
    · -- no selection of that group is long enough
      have hle : (sel g.id).length ≤ (optionIds g).length :=
        ((hinv g hg).nodup.subperm (hinv g hg).known).length_le
      have hlong := hmin g hg hoptions
      rw [optionIds, List.length_map] at hle
      omega

end Reach

/-- The groups shown for a product have distinct keys, as their table has. -/
theorem groupsOf_groupKeys {db : Db} (h : ModifierKeys db) (productId : Uuid) :
    GroupKeys (groupsOf db productId) where
  ids := by
    have hsorted : (((db.modifierGroups.filter fun g => g.productId = productId && g.isActive
        ).insertionSort fun a b => a.sortOrder ≤ b.sortOrder).map (·.id)).Nodup :=
      ((List.perm_insertionSort _ _).map _).nodup_iff.mpr
        ((List.filter_sublist.map _).nodup h.groups)
    unfold groupsOf
    rw [List.map_map]
    exact hsorted
  options := groupsOf_keys h.options productId

/-- **The sheet and the server agree**, whatever is tapped, exactly for the products of which
each group that requires something offers something, and those nobody can order. -/
theorem sheet_agrees {db : Db} (h : ModifierKeys db) (productId : Uuid) :
    (∀ sel, (sheet (groupsOf db productId)).Reachable sel → SheetAgrees (groupsOf db productId) sel)
      ↔ (∀ g ∈ groupsOf db productId, g.options = [] → g.minSelect ≤ 0)
        ∨ ∃ g ∈ groupsOf db productId, g.options ≠ []
            ∧ (g.options.length : ℤ) < g.minSelect :=
  agrees_always_iff (groupsOf_groupKeys h productId)

theorem chilli_price : (0 : ℤ) ≤ 1000 := by decide

theorem oneOrTwo : (0 : ℤ) ≤ 1 ∧ (1 : ℤ) ≤ 2 ∧ (1 : ℤ) ≤ 2 := by decide

/-- Two sauces, of which one at least. -/
def sauces : ModifierGroup :=
  ⟨10, 1, "Sauces", 1, 2, true, 0, [⟨11, "Achar", 0, true, 0, le_refl 0⟩,
    ⟨12, "Chilli", 1000, true, 1, chilli_price⟩], oneOrTwo⟩

/-- The momo with a group of sauces. -/
def momoWithSauces : Db := Db.withModifierGroups onlyMomo [sauces]

theorem momoWithSauces_keys : ModifierKeys momoWithSauces := ⟨by decide, by decide, by decide⟩

/-- Both, and then not the first after all. -/
def onlyChilli : Selections := toggle (toggle (toggle (fun _ => []) sauces 11) sauces 12) sauces 11

/-- Chilli sauce at ₹10, on the sheet and on the bill. -/
theorem sheet_agrees_sauces :
    requiredOk (groupsOf momoWithSauces 1) onlyChilli = true
      ∧ sheetAdjust (groupsOf momoWithSauces 1) onlyChilli = 1000
      ∧ SheetAgrees (groupsOf momoWithSauces 1) onlyChilli := by
  have hsauces : sauces ∈ groupsOf momoWithSauces 1 := List.mem_singleton_self sauces
  have hreachable : (sheet (groupsOf momoWithSauces 1)).Reachable onlyChilli := by
    refine .step (a := (sauces, 11)) (.step (a := (sauces, 12)) (.step (a := (sauces, 11))
      (.init fun _ => rfl) ⟨hsauces, by decide, rfl⟩) ⟨hsauces, by decide, rfl⟩)
      ⟨hsauces, by decide, rfl⟩
  exact ⟨by decide, by decide,
    (sheet_agrees momoWithSauces_keys 1).mpr (.inl (by decide)) onlyChilli hreachable⟩

/-- The same group before its sauces are entered. -/
def saucesToCome : ModifierGroup := withOptions sauces []

/-- The momo with a group that has no option yet. -/
def momoWithoutSauces : Db := Db.withModifierGroups onlyMomo [saucesToCome]

/-- The server would take the momo as it is; the button stays disabled. -/
theorem sheet_refuses_accepted :
    ∃ sel, (sheet (groupsOf momoWithoutSauces 1)).Reachable sel
      ∧ requiredOk (groupsOf momoWithoutSauces 1) sel = false
      ∧ ∃ selection, resolveModifierSelection (groupsOf momoWithoutSauces 1)
          (selectedIds (groupsOf momoWithoutSauces 1) sel) = .ok selection :=
  ⟨fun _ => [], .init fun _ => rfl, by decide, ⟨0, []⟩, rfl⟩

end OraOS.Orders
