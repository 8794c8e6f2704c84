/-
  OraOS.MenuImport.EditDistance — the two rows of `editDistance`.

  The loops fill one of two arrays from the other and let them change places, so a row is
  written over the one before the last: right of the cell being filled are numbers of that
  row, or the holes of `new Array`.  Every cell that is read has been filled.

    * `fillRow_rowTo`          — the inner loop leaves a row of distances;
    * `editDistanceRows_eq`    — the loops return the distance;
    * `editDistance_eq`        — and so does the function that hands on rows;
    * `similarName_comm`       — so names are similar in both directions.
-/
import OraOS.Lib.EditDistance
import OraOS.MenuImport.Match

namespace OraOS.MenuImport

open OraOS.Api
open OraOS.Lib

variable {α : Type*} [DecidableEq α]

/-! ## §1. The loops. -/

/-- An array of numbers.  `none` is `undefined`, and the `NaN` that comes of it. -/
abbrev Cells := Array (Option ℕ)

/-- `cells[j]`. -/
def Cells.read (cells : Cells) (j : ℕ) : Option ℕ := cells[j]?.join

/-- The body of the inner loop. -/
def fillCell (a b : List α) (i : ℕ) (prev curr : Cells) (j : ℕ) : Cells :=
  curr.setIfInBounds j (do
    let cost := if a[i - 1]? = b[j - 1]? then 0 else 1
    let above ← prev.read j
    let left ← curr.read (j - 1)
    let diagonal ← prev.read (j - 1)
    pure (min (min (above + 1) (left + 1)) (diagonal + cost)))

/-- The inner loop. -/
def fillRow (a b : List α) (i : ℕ) (prev curr : Cells) : Cells :=
  (List.range' 1 b.length).foldl (fillCell a b i prev) (curr.setIfInBounds 0 (some i))

/-- The body of the outer loop, on `prev` and `curr`; they change places. -/
def swapRows (a b : List α) (rows : Cells × Cells) (i : ℕ) : Cells × Cells :=
  (fillRow a b i rows.1 rows.2, rows.1)

/-- `editDistance`, array by array; a string is the list of its code units. -/
def editDistanceRows (a b : List α) : Option ℕ :=
  if a.length = 0 then some b.length
  else if b.length = 0 then some a.length
  else
    let prev : Cells := ((List.range (b.length + 1)).map some).toArray
    let curr : Cells := Array.replicate (b.length + 1) none
    ((List.range' 1 a.length).foldl (swapRows a b) (prev, curr)).1.read b.length

example : editDistanceRows "momo".toList "momos".toList = some 1 := by decide

/-! ## §2. Cells. -/

namespace Cells

variable {cells : Cells} {j k : ℕ} {v : Option ℕ}

/-- A cell that was written reads what was written. -/
theorem read_set (h : j < cells.size) : read (cells.setIfInBounds j v) j = v := by
  unfold read
  rw [Array.getElem?_setIfInBounds_self_of_lt h]
  rfl

/-- The other cells read what they did. -/
theorem read_set_of_ne (h : j ≠ k) : read (cells.setIfInBounds j v) k = cells.read k := by
  unfold read
  rw [Array.getElem?_setIfInBounds_ne h]

end Cells

/-- A loop that counts to `n`, and what its body leaves true. -/
theorem foldl_range' {σ : Type*} {f : σ → ℕ → σ} {P : ℕ → σ → Prop} {s : σ} (h : P 0 s) :
    ∀ n : ℕ, (∀ i < n, ∀ s, P i s → P (i + 1) (f s (i + 1))) →
      P n ((List.range' 1 n).foldl f s)
  | 0, _ => h
  | n + 1, hstep => by
      rw [List.range'_1_concat, List.foldl_append, Nat.add_comm 1 n]
      exact hstep n n.lt_succ_self _ (foldl_range' h n fun i hi => hstep i (by omega))

/-! ## §3. Rows of distances. -/

/-- Filled to `j` with the distances from `p` to what `b` begins with. -/
structure RowTo (p b : List α) (j : ℕ) (cells : Cells) : Prop where
  size : cells.size = b.length + 1
  filled : ∀ k ≤ j, cells.read k = some (lev p (b.take k))

variable {a b p : List α} {i j : ℕ} {prev curr : Cells}

/-- The first row, of the distances from the empty string. -/
theorem rowTo_range (b : List α) :
    RowTo [] b b.length ((List.range (b.length + 1)).map some).toArray where
  size := by simp
  filled := by
    intro k hk
    have hlt : k < b.length + 1 := by omega
    simp [Cells.read, hlt, hk]

/-- **One cell.** -/
theorem rowTo_fillCell (hi : i < a.length) (hprev : RowTo (a.take i) b b.length prev)
    (hj : j < b.length) (hcurr : RowTo (a.take (i + 1)) b j curr) :
    RowTo (a.take (i + 1)) b (j + 1) (fillCell a b (i + 1) prev curr (j + 1)) where
  size := by
    unfold fillCell
    rw [Array.size_setIfInBounds, hcurr.size]
  filled := by
    intro k hk
    unfold fillCell
    by_cases hlast : k = j + 1
    · subst hlast
      rw [Cells.read_set (by rw [hcurr.size]; omega)]
      -- what is read above, on the left and between is filled
      rw [hprev.filled (j + 1) (by omega), hprev.filled _ (by omega), hcurr.filled _ (by omega)]
      simp only [Nat.add_sub_cancel, List.getElem?_eq_getElem hi, List.getElem?_eq_getElem hj,
        Option.some.injEq]
      rw [← List.take_concat_get' a i hi, ← List.take_concat_get' b j hj, lev_snoc]
      rfl
    · rw [Cells.read_set_of_ne (Ne.symm hlast)]
      exact hcurr.filled k (by omega)

/-- **The inner loop** leaves the next row, whatever was in the cells. -/
theorem fillRow_rowTo (hi : i < a.length) (hprev : RowTo (a.take i) b b.length prev)
    (hsize : curr.size = b.length + 1) :
    RowTo (a.take (i + 1)) b b.length (fillRow a b (i + 1) prev curr) := by
  refine foldl_range' (P := fun j cells => RowTo (a.take (i + 1)) b j cells) ?_ b.length
    fun j hj cells hcells => rowTo_fillCell hi hprev hj hcells
  constructor
  · rw [Array.size_setIfInBounds, hsize]
  · intro k hk
    obtain rfl : k = 0 := by omega
    rw [Cells.read_set (by omega), List.take_zero, lev_nil_right, List.length_take]
    congr 1
    omega

/-- **The loops return the distance.** -/
theorem editDistanceRows_eq (a b : List α) : editDistanceRows a b = some (lev a b) := by
  unfold editDistanceRows
  split_ifs with ha hb
  · rw [List.eq_nil_of_length_eq_zero ha, lev_nil_left]
  · rw [List.eq_nil_of_length_eq_zero hb, lev_nil_right]
  · have hrows := foldl_range' (f := swapRows a b)
      (P := fun i rows => RowTo (a.take i) b b.length rows.1 ∧ rows.2.size = b.length + 1)
      (s := (((List.range (b.length + 1)).map some).toArray, Array.replicate (b.length + 1) none))
      ⟨rowTo_range b, Array.size_replicate⟩ a.length
      fun i hi rows hrows => ⟨fillRow_rowTo hi hrows.1 hrows.2, hrows.1.size⟩
    have hlast := hrows.1.filled b.length le_rfl
    rwa [List.take_length, List.take_length] at hlast

/-! ## §4. The rows handed on. -/

/-- The distances from `p` to `q` and what it grows to, up to all of `b`. -/
def levsTo (p q : List Char) : List Char → List ℕ
  | [] => [lev p q]
  | x :: b => lev p q :: levsTo p (q ++ [x]) b

/-- A row of distances starts with that of the two prefixes. -/
theorem levsTo_eq_cons (p q b : List Char) : levsTo p q b = lev p q :: (levsTo p q b).tail := by
  cases b <;> rfl

/-- The first row counts insertions only. -/
theorem levsTo_nil (q b : List Char) : levsTo [] q b = List.range' q.length (b.length + 1) := by
  induction b generalizing q with
  | nil => simp [levsTo]
  | cons x b ih =>
      rw [levsTo, ih, lev_nil_left, List.length_append]
      rfl

/-- The last cell of a row is the distance to the whole string. -/
theorem levsTo_getLast? (p q b : List Char) : (levsTo p q b).getLast? = some (lev p (q ++ b)) := by
  induction b generalizing q with
  | nil => simp [levsTo]
  | cons x b ih =>
      rw [levsTo, List.getLast?_cons, ih, Option.getD_some, List.append_assoc]
      rfl

/-- The inner loop, from the cell of `q` on. -/
theorem editRow_levsTo (c : Char) (p q b : List Char) :
    editRow c b (levsTo p q b) (lev (p ++ [c]) q) = (levsTo (p ++ [c]) q b).tail := by
  induction b generalizing q with
  | nil => simp [editRow, levsTo]
  | cons x b ih =>
      have hcell : min (min (lev p (q ++ [x]) + 1) (lev (p ++ [c]) q + 1))
          (lev p q + if c = x then 0 else 1) = lev (p ++ [c]) (q ++ [x]) :=
        (lev_snoc c x p q).symm
      rw [levsTo, levsTo_eq_cons p]
      simp only [editRow]
      rw [hcell, ← levsTo_eq_cons p, ih]
      exact (levsTo_eq_cons _ _ _).symm

/-- The outer loop. -/
theorem editRows_levsTo (p a b : List Char) :
    editRows b (p.length + 1) a (levsTo p [] b) = levsTo (p ++ a) [] b := by
  induction a generalizing p with
  | nil => simp [editRows]
  | cons c a ih =>
      have hleft : lev (p ++ [c]) [] = p.length + 1 := by simp
      have hrow : (p.length + 1) :: editRow c b (levsTo p [] b) (p.length + 1)
          = levsTo (p ++ [c]) [] b := by
        rw [levsTo_eq_cons (p ++ [c]), ← editRow_levsTo, hleft]
      have hlength : p.length + 1 = (p ++ [c]).length := by simp
      rw [editRows, hrow, hlength, ih, List.append_assoc]
      rfl

/-- **The program with two rows computes the recursive distance.** -/
theorem editDistance_eq (a b : List Char) : editDistance a b = lev a b := by
  unfold editDistance
  split_ifs with ha hb
  · rw [ha, lev_nil_left]
  · rw [hb, lev_nil_right]
  · have hfirst : List.range (b.length + 1) = levsTo [] [] b := by
      rw [levsTo_nil, List.range_eq_range']
      rfl
    have hrows := editRows_levsTo [] a b
    rw [List.length_nil, Nat.zero_add, List.nil_append] at hrows
    rw [hfirst, hrows, levsTo_getLast?, List.nil_append, Option.getD_some]

/-! ## §5. Similar names. -/

/-- **Names are similar in both directions.** -/
theorem similarName_comm (U : Unicode) (a b : String) : similarName U a b = similarName U b a := by
  simp only [similarName, editDistance_eq,
    or_comm (a := normalizeName U b = []) (b := normalizeName U a = []),
    eq_comm (a := normalizeName U b) (b := normalizeName U a),
    lev_comm (normalizeName U b) (normalizeName U a),
    max_comm (normalizeName U b).length (normalizeName U a).length]

/-- **`editDistance` is the Levenshtein distance**, so it is symmetric and zero only on equal
strings, and `similarName` is symmetric. -/
theorem editDistance_levenshtein :
    (∀ {α : Type} [DecidableEq α] (a b : List α),
        editDistanceRows a b = some (lev a b)
          ∧ editDistanceRows a b = editDistanceRows b a
          ∧ (editDistanceRows a b = some 0 ↔ a = b))
      ∧ (∀ a b : List Char, editDistanceRows a b = some (editDistance a b))
      ∧ ∀ (U : Unicode) (a b : String), similarName U a b = similarName U b a := by
  refine ⟨fun a b => ⟨editDistanceRows_eq a b, ?_, ?_⟩, fun a b => ?_, similarName_comm⟩
  · rw [editDistanceRows_eq, editDistanceRows_eq, lev_comm]
  · rw [editDistanceRows_eq, Option.some.injEq]
    exact lev_eq_zero
  · rw [editDistanceRows_eq, editDistance_eq]

end OraOS.MenuImport
