/-
  OraOS.Lib.Spread — a sparse table filled up.

  A grouped query has no row for a key that nothing falls under.  Spread over a list of keys,
  the table has one row a key, a blank one where it had none.

    * `spread_keys` — one row for each of the keys, in their order;
    * `spread_rows` — every row of the table is there once, as it was;
    * `sum_spread`  — a column that is zero in blank rows keeps its sum.
-/
import OraOS.Lib.Grouping
import OraOS.Lib.KeyIndex

namespace OraOS.Lib

variable {κ ρ : Type*} [DecidableEq κ] {key : ρ → κ} {blank : κ → ρ} {rows : List ρ} {ks : List κ}

/-- The row of the key, or a blank one. -/
def rowAt (key : ρ → κ) (blank : κ → ρ) (rows : List ρ) (k : κ) : ρ :=
  (mapOf (rows.map fun r => (key r, r)) k).getD (blank k)

/-- One row a key. -/
def spread (key : ρ → κ) (blank : κ → ρ) (rows : List ρ) (ks : List κ) : List ρ :=
  ks.map (rowAt key blank rows)

/-- It is a row of the table with the key, or there is none. -/
theorem rowAt_cases (key : ρ → κ) (blank : κ → ρ) (rows : List ρ) (k : κ) :
    (rowAt key blank rows k ∈ rows ∧ key (rowAt key blank rows k) = k)
      ∨ rowAt key blank rows k = blank k ∧ ∀ r ∈ rows, key r ≠ k := by
  unfold rowAt
  cases hmap : mapOf (rows.map fun r => (key r, r)) k with
  | some r =>
      obtain ⟨r', hr', heq⟩ := List.mem_map.mp (mapOf_some hmap)
      cases heq
      exact .inl ⟨hr', rfl⟩
  | none =>
      have hnone := mapOf_none.mp hmap
      rw [List.forall_mem_map] at hnone
      exact .inr ⟨rfl, hnone⟩

/-- A row of the table is found under its key, if no other has it. -/
theorem rowAt_self (hkeys : (rows.map key).Nodup) {r : ρ} (hr : r ∈ rows) :
    rowAt key blank rows (key r) = r := by
  rcases rowAt_cases key blank rows (key r) with ⟨hmem, hkey⟩ | ⟨-, hnone⟩
  · exact List.inj_on_of_nodup_map hkeys hmem hr hkey
  · exact absurd rfl (hnone r hr)

/-- **One row for each of the keys.** -/
theorem spread_keys (hblank : ∀ k, key (blank k) = k) :
    (spread key blank rows ks).map key = ks := by
  unfold spread
  rw [List.map_map]
  refine (List.map_congr_left fun k _ => ?_).trans (List.map_id ks)
  rcases rowAt_cases key blank rows k with ⟨-, hkey⟩ | ⟨hrow, -⟩
  · exact hkey
  · show key (rowAt key blank rows k) = k
    rw [hrow, hblank]

/-- **Every row of the table** is there once, as it was. -/
theorem spread_rows (hblank : ∀ k, key (blank k) = k) (hkeys : (rows.map key).Nodup)
    (hks : ks.Nodup) (hcover : ∀ r ∈ rows, key r ∈ ks) {r : ρ} (hr : r ∈ rows) :
    (spread key blank rows ks).filter (fun r' => decide (key r' = key r)) = [r] := by
  have hfilter : ks.filter (fun k => decide (k = key r)) = [key r] := by
    rw [List.filter_eq, List.count_eq_one_of_mem hks (hcover r hr)]
    rfl
  have hsame : ∀ k ∈ ks, ((fun r' => decide (key r' = key r)) ∘ rowAt key blank rows) k
      = decide (k = key r) := by
    intro k _
    rcases rowAt_cases key blank rows k with ⟨-, hkey⟩ | ⟨hrow, -⟩
    · rw [Function.comp_apply, hkey]
    · rw [Function.comp_apply, hrow, hblank]
  unfold spread
  rw [List.filter_map, List.filter_congr hsame, hfilter, List.map_singleton, rowAt_self hkeys hr]

/-- **A column that is zero in blank rows** keeps its sum. -/
theorem sum_spread {f : ρ → ℤ} (hzero : ∀ k, f (blank k) = 0) (hkeys : (rows.map key).Nodup)
    (hks : ks.Nodup) (hcover : ∀ r ∈ rows, key r ∈ ks) :
    ((spread key blank rows ks).map f).sum = (rows.map f).sum := by
  set column : Tally κ := rows.map fun r => (key r, f r) with hcolumn
  have hcolumnKeys : column.keys = rows.map key := by
    rw [hcolumn]
    exact List.map_map
  have hnodup : column.keys.Nodup := hcolumnKeys ▸ hkeys
  have hget : ∀ k ∈ ks, f (rowAt key blank rows k) = column.get k := by
    intro k _
    rcases rowAt_cases key blank rows k with ⟨hmem, hkey⟩ | ⟨hrow, hnone⟩
    · have hentry : (k, f (rowAt key blank rows k)) ∈ column :=
        List.mem_map.mpr ⟨_, hmem, by rw [hkey]⟩
      exact (Tally.get_of_mem hnodup _ hentry).symm
    · rw [hrow, hzero, ← Tally.sumWhere_eq_get hnodup]
      refine (sumWhere_eq_zero ?_).symm
      rw [hcolumn, List.forall_mem_map]
      intro r hr heq
      exact absurd (of_decide_eq_true heq) (hnone r hr)
  have hcovers : ∀ k ∈ column.keys, k ∈ ks := by
    rw [hcolumnKeys, List.forall_mem_map]
    exact hcover
  calc ((spread key blank rows ks).map f).sum
      = (ks.map column.get).sum := by
        unfold spread
        rw [List.map_map]
        exact congrArg List.sum (List.map_congr_left hget)
    _ = (column.map Prod.snd).sum := Tally.sum_get hnodup hks hcovers
    _ = (rows.map f).sum := by
        rw [hcolumn, List.map_map]
        rfl

end OraOS.Lib
