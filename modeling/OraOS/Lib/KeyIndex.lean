/-
  OraOS.Lib.KeyIndex — a map from keys to the rows of a table, kept in memory.

  A loop that inserts rows by name reads the table once, into a map from what counts of a
  name to the id of a row, and puts into the map whatever it writes.  It may also be told
  the row for a name: then that key is pinned, and says nothing of the row's own name.

    * `mapOf_some`, `mapOf_none`       — what the map of a list of pairs holds;
    * `Indexed.hit`, `Indexed.insert`  — what a write leaves the map knowing;
    * `Indexed.row`                    — the row of a key that is not pinned;
    * `InStep.free`                    — a key that the map does not have is no row's name.
-/
import Mathlib.Logic.Function.Basic
import OraOS.Lib.Tally

namespace OraOS.Lib

variable {K N V : Type*}

/-! ## §1. A map from pairs. -/

section Map

variable [DecidableEq K]

/-- Of several pairs with a key the last counts. -/
def mapOf (pairs : List (K × V)) : K → Option V :=
  pairs.foldl (fun (m : K → Option V) (e : K × V) => Function.update m e.1 (some e.2)) fun _ => none

/-- What a map that was filled row by row has at a key comes from a row, or was there
before. -/
theorem foldl_update_some {pairs : List (K × V)} {m : K → Option V} {k : K} {v : V}
    (h : (pairs.foldl (fun (m : K → Option V) (e : K × V) =>
      Function.update m e.1 (some e.2)) m) k = some v) :
    (k, v) ∈ pairs ∨ m k = some v := by
  induction pairs generalizing m with
  | nil => exact .inr h
  | cons e pairs ih =>
      rw [List.foldl_cons] at h
      rcases ih h with hmem | hupdate
      · exact .inl (List.mem_cons_of_mem e hmem)
      · by_cases hk : k = e.1
        · subst hk
          rw [Function.update_self] at hupdate
          rw [← Option.some.inj hupdate]
          exact .inl List.mem_cons_self
        · rw [Function.update_of_ne hk] at hupdate
          exact .inr hupdate

theorem foldl_update_none {pairs : List (K × V)} {m : K → Option V} {k : K} :
    (pairs.foldl (fun (m : K → Option V) (e : K × V) =>
        Function.update m e.1 (some e.2)) m) k = none
      ↔ (∀ e ∈ pairs, e.1 ≠ k) ∧ m k = none := by
  induction pairs generalizing m with
  | nil => simp
  | cons e pairs ih =>
      rw [List.foldl_cons, ih, List.forall_mem_cons]
      by_cases hk : k = e.1
      · subst hk
        simp
      · rw [Function.update_of_ne hk]
        simp [Ne.symm hk]

/-- What the map has is one of the pairs. -/
theorem mapOf_some {pairs : List (K × V)} {k : K} {v : V} (h : mapOf pairs k = some v) :
    (k, v) ∈ pairs :=
  (foldl_update_some h).resolve_right nofun

/-- It has nothing for a key that no pair has. -/
theorem mapOf_none {pairs : List (K × V)} {k : K} :
    mapOf pairs k = none ↔ ∀ e ∈ pairs, e.1 ≠ k :=
  foldl_update_none.trans (and_iff_left rfl)

end Map

/-! ## §2. The map and the table. -/

/-- What the map `m` knows of the table `rows`, of which `initial` was there, with ids below
`first`, and the rest came with the names `seen`; `pins` are the keys it was told. -/
structure Indexed (key : N → K) (first next : ℕ) (initial rows : List (ℕ × N)) (seen : List N)
    (pins m : K → Option ℕ) : Prop where
  ids : (rows.map Prod.fst).Nodup
  fresh : ∀ r ∈ rows, r.1 < next
  grown : first ≤ next
  kept : ∀ r ∈ rows, r.1 < first → r ∈ initial
  pinned : ∀ k id, pins k = some id → m k = some id
  unpinned : ∀ k id, pins k = none → m k = some id → ∃ r ∈ rows, r.1 = id ∧ key r.2 = k
  absent : ∀ k, m k = none ↔ (∀ r ∈ initial, key r.2 ≠ k) ∧ ∀ n ∈ seen, key n ≠ k

namespace Indexed

variable {key : N → K} {first next : ℕ} {initial rows : List (ℕ × N)} {seen : List N}
  {pins m : K → Option ℕ} {name : N} {id : ℕ}

/-- Ids may be given elsewhere. -/
theorem grow {next' : ℕ} (h : Indexed key first next initial rows seen pins m)
    (hle : next ≤ next') : Indexed key first next' initial rows seen pins m :=
  { h with
    fresh := fun r hr => (h.fresh r hr).trans_le hle
    grown := h.grown.trans hle }

/-- Two rows with an id are one. -/
theorem row_inj (h : Indexed key first next initial rows seen pins m) {r r' : ℕ × N}
    (hr : r ∈ rows) (hr' : r' ∈ rows) (hid : r.1 = r'.1) : r = r' :=
  List.inj_on_of_nodup_map h.ids hr hr' hid

/-- **The row of a key** that is not pinned has it. -/
theorem row (h : Indexed key first next initial rows seen pins m) {k : K} (hpin : pins k = none)
    (hm : m k = some id) {r : ℕ × N} (hr : r ∈ rows) (hid : r.1 = id) : key r.2 = k := by
  obtain ⟨r', hr', hid', hkey⟩ := h.unpinned k id hpin hm
  rw [h.row_inj hr hr' (hid.trans hid'.symm)]
  exact hkey

/-- A key that the map does not have is not pinned. -/
theorem not_pinned (h : Indexed key first next initial rows seen pins m) {k : K}
    (hm : m k = none) : pins k = none := by
  cases hpin : pins k with
  | none => rfl
  | some id => exact absurd (hm.symm.trans (h.pinned k id hpin)) nofun

section Writes

variable [DecidableEq K]

/-- The map of the table as it is found. -/
theorem opening (hids : (initial.map Prod.fst).Nodup) (hfresh : ∀ r ∈ initial, r.1 < next) :
    Indexed key next next initial initial [] (fun _ => none)
      (mapOf (initial.map fun r => (key r.2, r.1))) where
  ids := hids
  fresh := hfresh
  grown := le_rfl
  kept := fun r hr _ => hr
  pinned := nofun
  unpinned := by
    intro k id _ hm
    obtain ⟨r, hr, heq⟩ := List.mem_map.mp (mapOf_some hm)
    cases heq
    exact ⟨r, hr, rfl, rfl⟩
  absent := by
    intro k
    rw [mapOf_none, List.forall_mem_map]
    simp

/-- A name that is written is no longer absent, and the others are as they were. -/
theorem absent_write (h : Indexed key first next initial rows seen pins m) (k : K) :
    Function.update m (key name) (some id) k = none
      ↔ (∀ r ∈ initial, key r.2 ≠ k) ∧ ∀ n ∈ seen ++ [name], key n ≠ k := by
  rw [List.forall_mem_append, List.forall_mem_singleton, ← and_assoc, ← h.absent k]
  by_cases hk : k = key name
  · subst hk
    simp
  · rw [Function.update_of_ne hk]
    simp [Ne.symm hk]

/-- **A write to a row that is there**, the one told or the one of the map. -/
theorem hit (h : Indexed key first next initial rows seen pins m) {told : Option ℕ}
    (hid : told.or (m (key name)) = some id) :
    Indexed key first next initial rows (seen ++ [name])
      (Function.update pins (key name) (told.or (pins (key name))))
      (Function.update m (key name) (some id)) :=
  { h with
    pinned := by
      intro k id' hpin
      by_cases hk : k = key name
      · subst hk
        rw [Function.update_self] at hpin ⊢
        cases told with
        | some j => exact hid.symm.trans hpin
        | none => exact hid.symm.trans (h.pinned _ id' hpin)
      · rw [Function.update_of_ne hk] at hpin ⊢
        exact h.pinned k id' hpin
    unpinned := by
      intro k id' hpin hm
      by_cases hk : k = key name
      · subst hk
        rw [Function.update_self] at hpin hm
        -- nothing was told, so the map had the row
        obtain ⟨htold, hfree⟩ := Option.or_eq_none_iff.mp hpin
        rw [htold, Option.none_or] at hid
        exact h.unpinned _ id' hfree (hid.trans hm)
      · rw [Function.update_of_ne hk] at hpin hm
        exact h.unpinned k id' hpin hm
    absent := h.absent_write }

/-- **A new row**, under the next id. -/
theorem insert (h : Indexed key first next initial rows seen pins m)
    (hnone : m (key name) = none) :
    Indexed key first (next + 1) initial (rows ++ [(next, name)]) (seen ++ [name]) pins
      (Function.update m (key name) (some next)) where
  ids := nodup_keys_append h.ids fun r hr => (h.fresh r hr).ne
  fresh := by
    intro r hr
    rcases List.mem_append.mp hr with hold | hnew
    · exact (h.fresh r hold).trans (Nat.lt_succ_self next)
    · rw [List.mem_singleton.mp hnew]
      exact Nat.lt_succ_self next
  grown := h.grown.trans (Nat.le_succ next)
  kept := by
    intro r hr hlt
    rcases List.mem_append.mp hr with hold | hnew
    · exact h.kept r hold hlt
    · rw [List.mem_singleton.mp hnew] at hlt
      have hle := h.grown
      exact absurd hlt (not_lt.mpr hle)
  pinned := by
    intro k id' hpin
    have hk : k ≠ key name := by
      rintro rfl
      exact absurd (hpin.symm.trans (h.not_pinned hnone)) nofun
    rw [Function.update_of_ne hk]
    exact h.pinned k id' hpin
  unpinned := by
    intro k id' hpin hm
    by_cases hk : k = key name
    · subst hk
      rw [Function.update_self] at hm
      cases hm
      exact ⟨(next, name), List.mem_append_right _ List.mem_cons_self, rfl, rfl⟩
    · rw [Function.update_of_ne hk] at hm
      obtain ⟨r, hr, hid, hkey⟩ := h.unpinned k id' hpin hm
      exact ⟨r, List.mem_append_left _ hr, hid, hkey⟩
  absent := h.absent_write

end Writes

end Indexed

/-! ## §3. A map that covers the table. -/

/-- No row is missing from the map `m`, which gives ids of rows only, and no name is there
twice; whose row a key gives is another matter. -/
structure InStep (key : N → K) (rows : List (ℕ × N)) (m : K → Option ℕ) : Prop where
  covers : ∀ r ∈ rows, m (key r.2) ≠ none
  points : ∀ k id, m k = some id → ∃ r ∈ rows, r.1 = id
  unique : (rows.map Prod.snd).Nodup

namespace InStep

variable {key : N → K} {rows : List (ℕ × N)} {m : K → Option ℕ} {name : N} {id : ℕ}

/-- **A new name** is no row's. -/
theorem free (h : InStep key rows m) (hnone : m (key name) = none) : ∀ r ∈ rows, r.2 ≠ name := by
  rintro r hr rfl
  exact h.covers r hr hnone

variable [DecidableEq K]

/-- The map of the table as it is found. -/
theorem opening (hunique : (rows.map Prod.snd).Nodup) :
    InStep key rows (mapOf (rows.map fun r => (key r.2, r.1))) where
  covers := by
    intro r hr hnone
    exact mapOf_none.mp hnone _ (List.mem_map_of_mem hr) rfl
  points := by
    intro k id hm
    obtain ⟨r, hr, heq⟩ := List.mem_map.mp (mapOf_some hm)
    exact ⟨r, hr, (Prod.ext_iff.mp heq).2⟩
  unique := hunique

/-- What is put into the map stays there under another key. -/
theorem update_ne_none {k : K} (h : m k ≠ none) :
    Function.update m (key name) (some id) k ≠ none := by
  by_cases hk : k = key name
  · rw [hk, Function.update_self]
    exact Option.some_ne_none id
  · rwa [Function.update_of_ne hk]

/-- **A write to a row that is there.** -/
theorem hit (h : InStep key rows m) (hid : ∃ r ∈ rows, r.1 = id) :
    InStep key rows (Function.update m (key name) (some id)) where
  covers := fun r hr => update_ne_none (h.covers r hr)
  points := by
    intro k id' hm
    by_cases hk : k = key name
    · rw [hk, Function.update_self] at hm
      rwa [← Option.some.inj hm]
    · rw [Function.update_of_ne hk] at hm
      exact h.points k id' hm
  unique := h.unique

/-- **A new row.** -/
theorem insert (h : InStep key rows m) (hnone : m (key name) = none) :
    InStep key (rows ++ [(id, name)]) (Function.update m (key name) (some id)) where
  covers := by
    intro r hr
    rcases List.mem_append.mp hr with hold | hnew
    · exact update_ne_none (h.covers r hold)
    · rw [List.mem_singleton.mp hnew, Function.update_self]
      exact Option.some_ne_none id
  points := by
    intro k id' hm
    by_cases hk : k = key name
    · rw [hk, Function.update_self] at hm
      exact ⟨(id, name), List.mem_append_right _ List.mem_cons_self, Option.some.inj hm⟩
    · rw [Function.update_of_ne hk] at hm
      obtain ⟨r, hr, hid⟩ := h.points k id' hm
      exact ⟨r, List.mem_append_left _ hr, hid⟩
  unique := nodup_keys_append h.unique (h.free hnone)

end InStep

end OraOS.Lib
