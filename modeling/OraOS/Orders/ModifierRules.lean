/-
  OraOS.Orders.ModifierRules — `modifiers.ts` loop by loop.

  The pricing of a line uses `resolveModifierSelection` as a check and a filter.  Here it is
  as written, with its set, its map and its accumulators, over any groups and not only those
  that a table can hold.

    * `resolve_eq`       — the loops come to a check and a filter;
    * `resolve_rows`     — so on the rows of a table they are what prices a line;
    * `resolve_exact`    — what is accepted, and what the answer is.
-/
import OraOS.Orders.Lines
import OraOS.Lib.KeyIndex

namespace OraOS.Orders

open OraOS.Api
open OraOS.Lib

/-! ## §1. The loops. -/

/-- `ModifierOptionDef`. -/
structure ModifierOptionDef where
  id : Uuid
  name : String
  priceAdjustMinor : ℤ

/-- `ModifierGroupDef`. -/
structure ModifierGroupDef where
  id : Uuid
  name : String
  minSelect : ℤ
  maxSelect : ℤ
  options : List ModifierOptionDef

/-- `byOption`: from an option's id to the option and its group. -/
def byOption (groups : List ModifierGroupDef) :
    Uuid → Option (ModifierGroupDef × ModifierOptionDef) :=
  mapOf (groups.flatMap fun group => group.options.map fun option => (option.id, (group, option)))

/-- The second loop. -/
def checkKnown (groups : List ModifierGroupDef) (id : Uuid) : Except ApiError Unit :=
  require ((byOption groups id).isSome = true)
    (.badRequest "Unknown or unavailable modifier selected")

/-- The third loop; `has` asks the set of what is selected. -/
def checkBounds (has : Uuid → Bool) (group : ModifierGroupDef) : Except ApiError Unit :=
  if group.options.length = 0 then .ok ()
  else
    let chosen : ℤ := (group.options.filter fun o => has o.id).length
    if chosen < group.minSelect then
      .error (.badRequest (if group.minSelect = 1 ∧ group.maxSelect = 1 then
        group.name ++ ": choose 1"
        else group.name ++ ": choose at least " ++ toString group.minSelect))
    else if group.maxSelect < chosen then
      .error (.badRequest (group.name ++ ": choose at most " ++ toString group.maxSelect))
    else .ok ()

/-- What an option is remembered as. -/
def ModifierOptionDef.entry (option : ModifierOptionDef) (group : ModifierGroupDef) :
    ModifierSnapshotEntry :=
  ⟨option.id, group.name, option.name, option.priceAdjustMinor⟩

/-- The inner body of the fourth loop. -/
def pushOption (has : Uuid → Bool) (group : ModifierGroupDef)
    (snapshot : List ModifierSnapshotEntry) (option : ModifierOptionDef) :
    List ModifierSnapshotEntry :=
  if has option.id then snapshot ++ [option.entry group] else snapshot

/-- The inner loop of `resolveModifiers`: the chosen options of one group. -/
def pushGroup (has : Uuid → Bool) (snapshot : List ModifierSnapshotEntry)
    (group : ModifierGroupDef) : List ModifierSnapshotEntry :=
  group.options.foldl (pushOption has group) snapshot

/-- `resolveModifierSelection`, as it is written. -/
def ModifierGroupDef.resolveModifierSelection (groups : List ModifierGroupDef)
    (selectedOptionIds : List Uuid) : Except ApiError ModifierSelection := do
  let selectedSet := distinct selectedOptionIds
  require (selectedSet.length = selectedOptionIds.length)
    (.badRequest "A modifier was selected more than once")
  selectedSet.forM (checkKnown groups)
  groups.forM (checkBounds selectedSet.contains)
  let snapshot := groups.foldl (pushGroup selectedSet.contains) []
  pure ⟨snapshot.foldl (fun s e => s + e.priceAdjustMinor) 0, snapshot⟩

/-! ## §2. What the loops come to. -/

/-- The selected options in group order, then option order. -/
def chosenEntries (has : Uuid → Bool) (groups : List ModifierGroupDef) :
    List ModifierSnapshotEntry :=
  groups.flatMap fun g => (g.options.filter fun o => has o.id).map fun o => o.entry g

/-- The inner loop appends the chosen options. -/
theorem pushGroup_eq (has : Uuid → Bool) (snapshot : List ModifierSnapshotEntry)
    (group : ModifierGroupDef) :
    pushGroup has snapshot group
      = snapshot ++ (group.options.filter fun o => has o.id).map fun o => o.entry group := by
  unfold pushGroup
  -- over the options, with what has been pushed so far general
  generalize group.options = options
  induction options generalizing snapshot with
  | nil => exact (List.append_nil snapshot).symm
  | cons o options ih =>
      rw [List.foldl_cons, ih, pushOption, List.filter_cons]
      split
      · rw [List.map_cons, List.append_assoc]
        rfl
      · rfl

/-- **The loops write the chosen options, group by group.** -/
theorem foldl_pushGroup (has : Uuid → Bool) (groups : List ModifierGroupDef) :
    ∀ snapshot, groups.foldl (pushGroup has) snapshot = snapshot ++ chosenEntries has groups := by
  induction groups with
  | nil => exact fun snapshot => (List.append_nil snapshot).symm
  | cons g groups ih =>
      intro snapshot
      rw [List.foldl_cons, ih, pushGroup_eq, List.append_assoc]
      rfl

/-- The price is a sum over what was written. -/
theorem foldl_price (snapshot : List ModifierSnapshotEntry) :
    ∀ s : ℤ, snapshot.foldl (fun s e => s + e.priceAdjustMinor) s
      = s + (snapshot.map (·.priceAdjustMinor)).sum := by
  induction snapshot with
  | nil => exact fun s => (add_zero s).symm
  | cons e snapshot ih =>
      intro s
      rw [List.foldl_cons, ih, List.map_cons, List.sum_cons, add_assoc]

/-- An id is in the map when some group has an option with it. -/
theorem byOption_isSome {groups : List ModifierGroupDef} {id : Uuid} :
    (byOption groups id).isSome = true ↔ ∃ g ∈ groups, ∃ o ∈ g.options, o.id = id := by
  rw [← Option.ne_none_iff_isSome, Ne, byOption, mapOf_none]
  push Not
  constructor
  · rintro ⟨e, he, rfl⟩
    obtain ⟨g, hg, he⟩ := List.mem_flatMap.mp he
    obtain ⟨o, ho, rfl⟩ := List.mem_map.mp he
    exact ⟨g, hg, o, ho, rfl⟩
  · rintro ⟨g, hg, o, ho, rfl⟩
    exact ⟨_, List.mem_flatMap.mpr ⟨g, hg, List.mem_map_of_mem ho⟩, rfl⟩

/-- **What the loops come to**: two checks of the selection, one of each group, and a filter. -/
theorem resolve_eq (groups : List ModifierGroupDef) (selected : List Uuid) :
    ModifierGroupDef.resolveModifierSelection groups selected = (do
      require selected.Nodup (.badRequest "A modifier was selected more than once")
      require (∀ id ∈ selected, ∃ g ∈ groups, ∃ o ∈ g.options, o.id = id)
        (.badRequest "Unknown or unavailable modifier selected")
      groups.forM (checkBounds selected.contains)
      pure ⟨((chosenEntries selected.contains groups).map (·.priceAdjustMinor)).sum,
        chosenEntries selected.contains groups⟩) := by
  have hknown : (distinct selected).forM (checkKnown groups)
      = require (∀ id ∈ selected, ∃ g ∈ groups, ∃ o ∈ g.options, o.id = id)
        (.badRequest "Unknown or unavailable modifier selected") := by
    unfold checkKnown
    rw [forM_require]
    refine require_congr (forall_congr' fun id => ?_)
    rw [mem_distinct, byOption_isSome]
  unfold ModifierGroupDef.resolveModifierSelection
  simp only [hknown, contains_distinct, foldl_pushGroup, foldl_price, List.nil_append, zero_add]
  rw [require_congr distinct_length_iff]

/-! ## §3. The rows of a table. -/

/-- An option of the catalogue, as the rules see it. -/
def ModifierOption.toDef (o : ModifierOption) : ModifierOptionDef :=
  ⟨o.id, o.name, o.priceAdjustMinor⟩

/-- What the query selects of a row. -/
def ModifierGroup.toDef (g : ModifierGroup) : ModifierGroupDef where
  id := g.id
  name := g.name
  minSelect := g.minSelect
  maxSelect := g.maxSelect
  options := g.options.map ModifierOption.toDef

/-- Choosing before or after comes to the same. -/
theorem chosen_toDef (has : Uuid → Bool) (g : ModifierGroup) :
    ((ModifierGroup.toDef g).options.filter fun o => has o.id)
      = (g.options.filter fun o => has o.id).map ModifierOption.toDef := List.filter_map

/-- The check of the order is the one of the rules. -/
theorem checkGroup_eq (selected : List Uuid) (g : ModifierGroup) :
    checkGroup selected g = checkBounds selected.contains (ModifierGroup.toDef g) := by
  have hlength : (ModifierGroup.toDef g).options.length = g.options.length :=
    List.length_map ModifierOption.toDef
  unfold checkGroup checkBounds
  rw [hlength, chosen_toDef, List.length_map]
  by_cases hnone : g.options = []
  · have hlow : g.options ≠ [] → g.minSelect ≤ chosenIn g selected := fun h => absurd hnone h
    have hhigh : g.options ≠ [] → chosenIn g selected ≤ g.maxSelect := fun h => absurd hnone h
    rw [require_of _ hlow, require_of _ hhigh, if_pos (by rw [hnone]; rfl)]
    rfl
  · rw [if_neg (mt List.length_eq_zero_iff.mp hnone)]
    show _ = if chosenIn g selected < g.minSelect then _ else _
    unfold require
    by_cases hlow : chosenIn g selected < g.minSelect
    · rw [if_neg fun h => absurd (h hnone) (not_le.mpr hlow), if_pos hlow]
      rfl
    · rw [if_pos fun _ => not_lt.mp hlow, if_neg hlow]
      show (if g.options ≠ [] → chosenIn g selected ≤ g.maxSelect then _ else _)
        = if g.maxSelect < chosenIn g selected then _ else _
      by_cases hhigh : g.maxSelect < chosenIn g selected
      · rw [if_neg fun h => absurd (h hnone) (not_le.mpr hhigh), if_pos hhigh]
        rfl
      · rw [if_pos fun _ => not_lt.mp hhigh, if_neg hhigh]

/-- **What prices a line are the loops**, on the rows of the table. -/
theorem resolve_rows (groups : List ModifierGroup) (selected : List Uuid) :
    resolveModifierSelection groups selected
      = ModifierGroupDef.resolveModifierSelection (groups.map ModifierGroup.toDef) selected := by
  -- the loops leave the same snapshot, and check the same bounds
  have hentries : chosenEntries selected.contains (groups.map ModifierGroup.toDef)
      = modifierSnapshot groups selected := by
    unfold chosenEntries modifierSnapshot
    rw [List.flatMap_map]
    refine List.flatMap_congr fun g _ => ?_
    rw [chosen_toDef, List.map_map]
    rfl
  have hgroups : (groups.map ModifierGroup.toDef).forM (checkBounds selected.contains)
      = groups.forM (checkGroup selected) := by
    rw [funext (checkGroup_eq selected)]
    exact List.forM_map
  rw [resolve_eq, hentries, hgroups]
  unfold resolveModifierSelection
  refine congrArg _ (funext fun _ => ?_)
  refine congrArg (· >>= _) (require_congr ?_)
  simp [ModifierGroup.toDef, ModifierOption.toDef]

/-! ## §4. What is accepted. -/

/-- How many options of a group are selected. -/
def selectedCount (selected : List Uuid) (g : ModifierGroupDef) : ℤ :=
  (g.options.filter fun o => selected.contains o.id).length

/-- A selection as the groups want it. -/
structure Acceptable (groups : List ModifierGroupDef) (selected : List Uuid) : Prop where
  distinct : selected.Nodup
  known : ∀ id ∈ selected, ∃ g ∈ groups, ∃ o ∈ g.options, o.id = id
  within : ∀ g ∈ groups, g.options ≠ [] →
    g.minSelect ≤ selectedCount selected g ∧ selectedCount selected g ≤ g.maxSelect

/-- A group passes with a choice within its bounds, or without options. -/
theorem checkBounds_ok {selected : List Uuid} {g : ModifierGroupDef} :
    checkBounds selected.contains g = .ok () ↔ (g.options ≠ [] →
      g.minSelect ≤ selectedCount selected g ∧ selectedCount selected g ≤ g.maxSelect) := by
  unfold checkBounds
  by_cases hnone : g.options = []
  -- a group without options asks for nothing
  · rw [if_pos (by rw [hnone]; rfl)]
    exact iff_of_true rfl fun h => absurd hnone h
  · rw [if_neg (mt List.length_eq_zero_iff.mp hnone)]
    show (if selectedCount selected g < g.minSelect then _
      else if g.maxSelect < selectedCount selected g then _ else _) = _ ↔ _
    by_cases hlow : selectedCount selected g < g.minSelect
    · rw [if_pos hlow]
      refine iff_of_false (fun h => by cases h) ?_
      intro h
      exact absurd (h hnone).1 (not_le.mpr hlow)
    · rw [if_neg hlow]
      by_cases hhigh : g.maxSelect < selectedCount selected g
      · rw [if_pos hhigh]
        refine iff_of_false (fun h => by cases h) ?_
        intro h
        exact absurd (h hnone).2 (not_le.mpr hhigh)
      · rw [if_neg hhigh]
        exact iff_of_true rfl fun _ => ⟨not_lt.mp hlow, not_lt.mp hhigh⟩

/-- A success: the selection is acceptable, and the answer is its entries and their price. -/
theorem resolve_ok {groups : List ModifierGroupDef} {selected : List Uuid}
    {selection : ModifierSelection} :
    ModifierGroupDef.resolveModifierSelection groups selected = .ok selection
      ↔ Acceptable groups selected ∧ selection =
          ⟨((chosenEntries selected.contains groups).map (·.priceAdjustMinor)).sum,
            chosenEntries selected.contains groups⟩ := by
  rw [resolve_eq]
  simp only [bind_ok, require_ok]
  constructor
  · rintro ⟨_, hdistinct, _, hknown, ⟨⟩, hgroups, h⟩
    exact ⟨⟨hdistinct, hknown, fun g hg => checkBounds_ok.mp (forM_ok.mp hgroups g hg)⟩,
      (pure_ok.mp h).symm⟩
  · rintro ⟨h, rfl⟩
    exact ⟨(), h.distinct, (), h.known, (),
      forM_ok.mpr fun g hg => checkBounds_ok.mpr (h.within g hg), rfl⟩

/-- The entries name what was selected, each once. -/
theorem chosenEntries_ids {groups : List ModifierGroupDef}
    (hids : (groups.flatMap fun g => g.options.map (·.id)).Nodup) {selected : List Uuid}
    (h : Acceptable groups selected) :
    ((chosenEntries selected.contains groups).map (·.optionId)).Perm selected := by
  have hfilter : (chosenEntries selected.contains groups).map (·.optionId)
      = (groups.flatMap fun g => g.options.map (·.id)).filter fun id => selected.contains id := by
    unfold chosenEntries
    rw [List.map_flatMap, List.filter_flatMap]
    refine List.flatMap_congr fun g _ => ?_
    rw [List.map_map, List.filter_map]
    rfl
  rw [hfilter]
  -- both lists are free of repeats, so it is enough that they have the same ids
  refine (List.perm_ext_iff_of_nodup (hids.filter _) h.distinct).mpr ?_
  intro id
  rw [List.mem_filter, List.contains_iff_mem]
  refine ⟨fun hid => hid.2, fun hid => ⟨?_, hid⟩⟩
  obtain ⟨g, hg, o, ho, rfl⟩ := h.known id hid
  exact List.mem_flatMap.mpr ⟨g, hg, List.mem_map_of_mem ho⟩

/-- The loops ask of a list of ids which it has, and how often: its order does not count. -/
theorem resolve_perm (groups : List ModifierGroupDef) {selected selected' : List Uuid}
    (h : selected'.Perm selected) :
    ModifierGroupDef.resolveModifierSelection groups selected'
      = ModifierGroupDef.resolveModifierSelection groups selected := by
  -- the request is only ever asked whether it contains an id
  have hhas : selected'.contains = selected.contains := by
    funext id
    rw [Bool.eq_iff_iff, List.contains_iff_mem, List.contains_iff_mem, h.mem_iff]
  have hknown : (∀ id ∈ selected', ∃ g ∈ groups, ∃ o ∈ g.options, o.id = id)
      ↔ ∀ id ∈ selected, ∃ g ∈ groups, ∃ o ∈ g.options, o.id = id :=
    forall_congr' fun id => by rw [h.mem_iff]
  rw [resolve_eq, resolve_eq, hhas, require_congr h.nodup_iff, require_congr hknown]

/-- **Modifier resolution is exact**: it accepts what the groups want, answers with what was
selected in the order of the groups and at its price, and asks no order of the ids. -/
theorem resolve_exact {groups : List ModifierGroupDef}
    (hids : (groups.flatMap fun g => g.options.map (·.id)).Nodup) (selected : List Uuid) :
    ((∃ selection, ModifierGroupDef.resolveModifierSelection groups selected = .ok selection)
        ↔ Acceptable groups selected)
      ∧ (∀ selection, ModifierGroupDef.resolveModifierSelection groups selected = .ok selection →
          selection.snapshot = chosenEntries selected.contains groups
            ∧ (selection.snapshot.map (·.optionId)).Perm selected
            ∧ selection.perUnitAdjustMinor = (selection.snapshot.map (·.priceAdjustMinor)).sum)
      ∧ ∀ selected', selected'.Perm selected →
          ModifierGroupDef.resolveModifierSelection groups selected'
            = ModifierGroupDef.resolveModifierSelection groups selected := by
  refine ⟨⟨?_, fun h => ⟨_, resolve_ok.mpr ⟨h, rfl⟩⟩⟩, ?_, fun _ => resolve_perm groups⟩
  · rintro ⟨selection, hok⟩
    exact (resolve_ok.mp hok).1
  · intro selection hok
    obtain ⟨h, rfl⟩ := resolve_ok.mp hok
    exact ⟨rfl, chosenEntries_ids hids h, rfl⟩

/-- Two sauces at most, and a size. -/
def momoGroups : List ModifierGroupDef :=
  [⟨1, "Sauces", 0, 2, [⟨11, "Achar", 0⟩, ⟨12, "Chilli", 1000⟩]⟩,
    ⟨2, "Size", 1, 1, [⟨21, "Half", 0⟩, ⟨22, "Full", 4000⟩]⟩]

/-- Chosen from the bottom up. -/
theorem resolve_exact_momo :
    ModifierGroupDef.resolveModifierSelection momoGroups [22, 12]
      = ModifierGroupDef.resolveModifierSelection momoGroups [12, 22] := by
  have hids : (momoGroups.flatMap fun g => g.options.map (·.id)).Nodup := by decide
  exact (resolve_exact hids [12, 22]).2.2 [22, 12] (by decide)

end OraOS.Orders
