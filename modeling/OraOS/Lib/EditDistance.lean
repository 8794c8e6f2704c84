/-
  OraOS.Lib.EditDistance — the Levenshtein distance of two lists.

  A script says how one list becomes another: an element is deleted, inserted or put in the
  place of another, at a cost of one, or is kept.  The distance is the cost of a cheapest
  script, so what can be done to scripts says what the distance does:

    * `EditScript.lev_le`, `script_lev`
                                — the distance is the least cost of a script;
    * `lev_comm`, `lev_eq_zero` — it is symmetric, and zero only between equal lists;
    * `lev_snoc`                — it satisfies the recursion at the ends of the lists too.
-/
import Mathlib.Data.List.Basic
import Mathlib.Order.MinMax

namespace OraOS.Lib

variable {α : Type*} [DecidableEq α] {a b : List α} {x y : α} {k : ℕ}

/-! ## §1. The recursive definition. -/

/-- What it costs to put `y` in the place of `x`. -/
def substCost (x y : α) : ℕ := if x = y then 0 else 1

/-- The Levenshtein distance. -/
def lev : List α → List α → ℕ
  | [], b => b.length
  | a, [] => a.length
  | x :: a, y :: b =>
      min (min (lev a (y :: b) + 1) (lev (x :: a) b + 1)) (lev a b + substCost x y)
termination_by a b => a.length + b.length

@[simp] theorem lev_nil_left (b : List α) : lev [] b = b.length := by
  rw [lev]

@[simp] theorem lev_nil_right (a : List α) : lev a [] = a.length := by
  cases a <;> simp [lev]

/-- The recursion: drop a letter of either, or set one against the other. -/
theorem lev_cons (x y : α) (a b : List α) :
    lev (x :: a) (y :: b)
      = min (min (lev a (y :: b) + 1) (lev (x :: a) b + 1)) (lev a b + substCost x y) := by
  rw [lev]

@[simp] theorem substCost_self (x : α) : substCost x x = 0 := if_pos rfl

/-- A substitution costs the same both ways. -/
theorem substCost_comm (x y : α) : substCost x y = substCost y x := by
  simp only [substCost, eq_comm]

/-! ## §2. Scripts. -/

/-- `EditScript a b k`: there is a script from `a` to `b` that costs `k`. -/
inductive EditScript : List α → List α → ℕ → Prop
  | nil : EditScript [] [] 0
  | delete (x : α) {a b : List α} {k : ℕ} : EditScript a b k → EditScript (x :: a) b (k + 1)
  | insert (y : α) {a b : List α} {k : ℕ} : EditScript a b k → EditScript a (y :: b) (k + 1)
  | subst (x y : α) {a b : List α} {k : ℕ} :
      EditScript a b k → EditScript (x :: a) (y :: b) (k + substCost x y)

namespace EditScript

/-- Insert everything. -/
theorem insertAll : ∀ b : List α, EditScript [] b b.length
  | [] => .nil
  | y :: b => .insert y (insertAll b)

/-- Delete everything. -/
theorem deleteAll : ∀ a : List α, EditScript a [] a.length
  | [] => .nil
  | x :: a => .delete x (deleteAll a)

/-- Read backwards, an insertion is a deletion. -/
theorem symm (h : EditScript a b k) : EditScript b a k := by
  induction h with
  | nil => exact .nil
  | delete x _ ih => exact .insert x ih
  | insert y _ ih => exact .delete y ih
  | subst x y _ ih =>
      rw [substCost_comm x y]
      exact .subst y x ih

/-- One script after another. -/
theorem append {a' b' : List α} {k' : ℕ} (h : EditScript a b k) (h' : EditScript a' b' k') :
    EditScript (a ++ a') (b ++ b') (k + k') := by
  induction h with
  | nil =>
      rw [Nat.zero_add]
      exact h'
  | delete x _ ih =>
      rw [Nat.add_right_comm]
      exact .delete x ih
  | insert y _ ih =>
      rw [Nat.add_right_comm]
      exact .insert y ih
  | subst x y _ ih =>
      rw [Nat.add_right_comm]
      exact .subst x y ih

/-- From the other end. -/
theorem reverse (h : EditScript a b k) : EditScript a.reverse b.reverse k := by
  induction h with
  | nil => exact .nil
  | @delete x a b k _ ih =>
      rw [List.reverse_cons, ← List.append_nil b.reverse]
      exact ih.append (.delete x .nil)
  | @insert y a b k _ ih =>
      rw [List.reverse_cons, ← List.append_nil a.reverse]
      exact ih.append (.insert y .nil)
  | subst x y _ ih =>
      rw [List.reverse_cons, List.reverse_cons]
      have hlast : EditScript [x] [y] (substCost x y) := by
        rw [← Nat.zero_add (substCost x y)]
        exact .subst x y .nil
      exact ih.append hlast

/-- A script without a cost changes nothing. -/
theorem eq_of_free (h : EditScript a b k) (hk : k = 0) : a = b := by
  induction h with
  | nil => rfl
  | delete x _ _ => omega
  | insert y _ _ => omega
  | subst x y _ ih =>
      have hxy : x = y := by
        by_contra hne
        rw [substCost, if_neg hne] at hk
        omega
      rw [ih (by omega), hxy]

end EditScript

/-! ## §3. The cheapest script. -/

/-- No script is cheaper. -/
theorem EditScript.lev_le (h : EditScript a b k) : lev a b ≤ k := by
  induction h with
  | nil => simp
  | @delete x a b k _ ih =>
      cases b with
      | nil => simpa using ih
      | cons y b =>
          rw [lev_cons]
          omega
  | @insert y a b k _ ih =>
      cases a with
      | nil => simpa using ih
      | cons x a =>
          rw [lev_cons]
          omega
  | subst x y _ ih =>
      rw [lev_cons]
      omega

/-- And one costs as much. -/
theorem script_lev : ∀ a b : List α, EditScript a b (lev a b)
  | [], b => by
      rw [lev_nil_left]
      exact .insertAll b
  | x :: a, [] => by
      rw [lev_nil_right]
      exact .deleteAll (x :: a)
  | x :: a, y :: b => by
      have hdelete := (script_lev a (y :: b)).delete x
      have hinsert := (script_lev (x :: a) b).insert y
      have hsubst := (script_lev a b).subst x y
      rw [lev_cons]
      -- the minimum is one of the three
      rcases min_choice (min (lev a (y :: b) + 1) (lev (x :: a) b + 1))
        (lev a b + substCost x y) with h | h
      · rw [h]
        rcases min_choice (lev a (y :: b) + 1) (lev (x :: a) b + 1) with h' | h'
        · rw [h']
          exact hdelete
        · rw [h']
          exact hinsert
      · rw [h]
        exact hsubst
termination_by a b => a.length + b.length

/-- What is done to scripts at no cost does not raise the distance. -/
theorem lev_le_of_script {c d : List α} (h : ∀ k, EditScript a b k → EditScript c d k) :
    lev c d ≤ lev a b :=
  (h _ (script_lev a b)).lev_le

/-- **Symmetry.** -/
theorem lev_comm (a b : List α) : lev a b = lev b a :=
  le_antisymm (lev_le_of_script fun _ h => h.symm) (lev_le_of_script fun _ h => h.symm)

/-- **Zero only between equal lists.** -/
theorem lev_eq_zero : lev a b = 0 ↔ a = b := by
  constructor
  · intro h
    exact (script_lev a b).eq_of_free h
  · rintro rfl
    induction a with
    | nil => simp
    | cons x a ih =>
        rw [lev_cons, ih, substCost_self]
        omega

/-- Two words read backwards are as far apart. -/
theorem lev_reverse (a b : List α) : lev a.reverse b.reverse = lev a b := by
  refine le_antisymm (lev_le_of_script fun _ h => h.reverse) (lev_le_of_script fun k h => ?_)
  have h' := h.reverse
  rwa [List.reverse_reverse, List.reverse_reverse] at h'

/-- **The recursion at the ends of the lists.** -/
theorem lev_snoc (x y : α) (a b : List α) :
    lev (a ++ [x]) (b ++ [y])
      = min (min (lev a (b ++ [y]) + 1) (lev (a ++ [x]) b + 1)) (lev a b + substCost x y) := by
  have h := lev_cons x y a.reverse b.reverse
  have hback : ∀ (z : α) (c : List α), z :: c.reverse = (c ++ [z]).reverse := by
    intro z c
    rw [List.reverse_append, List.reverse_singleton, List.singleton_append]
  rwa [hback, hback, lev_reverse, lev_reverse, lev_reverse, lev_reverse] at h

end OraOS.Lib
