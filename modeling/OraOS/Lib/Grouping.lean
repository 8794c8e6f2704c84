/-
  OraOS.Lib.Grouping — GROUP BY and LEFT JOIN over lists of rows.

    * `sum_grouped`   — **grouping conserves sums**, whatever the key and the order of
                        the rows;
    * `sum_get`       — a map spread over a list of keys still has all of its values;
    * `leftJoin_fst`  — a join on a primary key repeats no row and loses none.
-/
import OraOS.Lib.Tally

namespace OraOS.Lib

variable {α β κ ρ : Type*} [DecidableEq κ]

/-! ## §1. Groups. -/

/-- `GROUP BY key`: each key once, with its rows. -/
def groupBy (key : α → κ) (rows : List α) : List (κ × List α) :=
  (distinct (rows.map key)).map fun k => (k, rows.filter fun a => decide (key a = k))

/-- `SELECT row … GROUP BY key ORDER BY le`. -/
def grouped (key : α → κ) (row : κ → List α → ρ) (le : ρ → ρ → Prop) [DecidableRel le]
    (rows : List α) : List ρ :=
  ((groupBy key rows).map fun g => row g.1 g.2).insertionSort le

/-- There is a group for each key that some row has. -/
theorem groupBy_keys (key : α → κ) (rows : List α) :
    (groupBy key rows).map Prod.fst = distinct (rows.map key) := by
  unfold groupBy
  rw [List.map_map]
  exact List.map_id' _

/-- The sums of the groups come to the sum of the rows. -/
theorem sum_groupBy (key : α → κ) (f : α → ℤ) (rows : List α) :
    ((groupBy key rows).map fun g => (g.2.map f).sum).sum = (rows.map f).sum := by
  have hfibers := sumWhere_fibers key (fun _ => true) f (distinct_nodup (rows.map key)) rows
  have hall : (rows.filter fun a => decide (key a ∈ distinct (rows.map key)) && true) = rows := by
    rw [List.filter_eq_self]
    intro a ha
    simp only [Bool.and_true, decide_eq_true_eq]
    exact mem_distinct.mpr (List.mem_map_of_mem ha)
  unfold sumWhere at hfibers
  rw [hall] at hfibers
  simp only [Bool.and_true] at hfibers
  unfold groupBy
  rw [List.map_map]
  exact hfibers

section Columns

variable {key : α → κ} {row : κ → List α → ρ} {le : ρ → ρ → Prop} [DecidableRel le]

/-- **Grouping conserves sums**: a column that is the sum of its group adds up to the sum
over all rows. -/
theorem sum_grouped {col : ρ → ℤ} {f : α → ℤ}
    (hcol : ∀ k g, col (row k g) = (g.map f).sum) (rows : List α) :
    ((grouped key row le rows).map col).sum = (rows.map f).sum := by
  have hperm := (List.perm_insertionSort le ((groupBy key rows).map fun g => row g.1 g.2)).map col
  calc ((grouped key row le rows).map col).sum
      = (((groupBy key rows).map fun g => row g.1 g.2).map col).sum := hperm.sum_eq
    _ = ((groupBy key rows).map fun g => (g.2.map f).sum).sum := by
        rw [List.map_map]
        exact congrArg List.sum (List.map_congr_left fun g _ => hcol g.1 g.2)
    _ = (rows.map f).sum := sum_groupBy key f rows

end Columns

/-- `COUNT(*)`. -/
theorem count_sum (rows : List α) : (rows.length : ℤ) = (rows.map fun _ => (1 : ℤ)).sum := by
  simp

/-- What is summed over the parts of each row is summed row by row. -/
theorem sum_parts (parts : α → List β) (f : β → ℤ) (rows : List α) :
    ((rows.flatMap parts).map f).sum = (rows.map fun a => ((parts a).map f).sum).sum := by
  induction rows with
  | nil => rfl
  | cons a rows ih =>
      rw [List.flatMap_cons, List.map_append, List.sum_append, ih]
      rfl

/-- Rows without an amount add nothing. -/
theorem sum_positive {f : α → ℤ} {rows : List α} (h : ∀ a ∈ rows, 0 ≤ f a) :
    ((rows.filter fun a => decide (0 < f a)).map f).sum = (rows.map f).sum := by
  induction rows with
  | nil => rfl
  | cons a rows ih =>
      have hrest := ih fun b hb => h b (List.mem_cons_of_mem a hb)
      have ha := h a List.mem_cons_self
      by_cases hpos : 0 < f a
      · rw [List.filter_cons_of_pos (by simpa using hpos), List.map_cons, List.map_cons,
          List.sum_cons, List.sum_cons, hrest]
      · rw [List.filter_cons_of_neg (by simpa using hpos), List.map_cons, List.sum_cons, hrest]
        omega

/-! ## §2. A map spread over its keys. -/

namespace Tally

/-- The map a grouped query is read into. -/
theorem grouped_keys {key : α → κ} {value : List α → ℤ} {le : κ × ℤ → κ × ℤ → Prop} [DecidableRel le]
    (rows : List α) :
    (keys (grouped key (fun k g => (k, value g)) le rows)).Perm (distinct (rows.map key)) := by
  have hperm := (List.perm_insertionSort le
    ((groupBy key rows).map fun g => (g.1, value g.2))).map Prod.fst
  rw [List.map_map] at hperm
  rw [← groupBy_keys]
  exact hperm

/-- **Spread over keys that cover it**, a map has all of its values. -/
theorem sum_get {m : Tally κ} (hm : m.keys.Nodup) {ks : List κ} (hks : ks.Nodup)
    (hcover : ∀ k ∈ m.keys, k ∈ ks) : (ks.map m.get).sum = (m.map Prod.snd).sum := by
  have hfibers := sumWhere_fibers Prod.fst (fun _ => true) Prod.snd hks m
  have hall : (m.filter fun e => decide (e.1 ∈ ks) && true) = m := by
    rw [List.filter_eq_self]
    intro e he
    simp only [Bool.and_true, decide_eq_true_eq]
    exact hcover e.1 (List.mem_map_of_mem he)
  simp only [Bool.and_true, sumWhere_eq_get hm] at hfibers
  unfold sumWhere at hfibers
  simp only [Bool.and_true] at hall
  rw [hall] at hfibers
  exact hfibers

end Tally

/-! ## §3. Joins. -/

/-- `LEFT JOIN table ON on`. -/
def leftJoin (on : α → β → Bool) (rows : List α) (table : List β) : List (α × Option β) :=
  rows.flatMap fun a =>
    match table.filter (on a) with
    | [] => [(a, none)]
    | b :: bs => (b :: bs).map fun b => (a, some b)

/-- **A row that joins at most one** other is there once. -/
theorem leftJoin_fst {on : α → β → Bool} {table : List β}
    (hone : ∀ a, (table.filter (on a)).length ≤ 1) (rows : List α) :
    (leftJoin on rows table).map Prod.fst = rows := by
  unfold leftJoin
  induction rows with
  | nil => rfl
  | cons a rows ih =>
      rw [List.flatMap_cons, List.map_append, ih]
      have hlen := hone a
      cases hmatch : table.filter (on a) with
      | nil => rfl
      | cons b bs =>
          rw [hmatch, List.length_cons] at hlen
          -- the one row it joins
          have hbs : bs = [] := List.eq_nil_of_length_eq_zero (by omega)
          rw [hbs]
          rfl

/-- A primary key has at most one row. -/
theorem filter_key_length {id : β → κ} {table : List β} (hid : (table.map id).Nodup)
    (k : Option κ) : (table.filter fun b => decide (some (id b) = k)).length ≤ 1 := by
  induction table with
  | nil => exact Nat.zero_le _
  | cons b table ih =>
      have hid' : id b ∉ table.map id ∧ (table.map id).Nodup := List.nodup_cons.mp hid
      rw [List.filter_cons]
      split
      next hb =>
        have hrest : (table.filter fun b => decide (some (id b) = k)) = [] := by
          rw [List.filter_eq_nil_iff]
          intro b' hb' hk
          have hsame := (of_decide_eq_true hb).trans (of_decide_eq_true hk).symm
          exact hid'.1 (Option.some.inj hsame ▸ List.mem_map_of_mem hb')
        rw [hrest]
        exact le_refl 1
      next => exact ih hid'.2

end OraOS.Lib
