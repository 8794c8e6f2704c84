/-
  OraOS.Lib.RowSecurity — row-level security over tables kept as lists of rows.

  A policy has the two halves of `CREATE POLICY`: `sees` is USING, `admits` is
  WITH CHECK.  A query without a filter of its own returns what the policy lets
  through, so what it may return is a question about the policy alone:

    * `confined_iff`    — a session's reads stay within a set of rows exactly when
                          no row outside the set is visible to it;
    * `forall_pick_iff` — a `LIMIT 1` without an order is good for every choice of
                          the row exactly when every row is good.
-/
import Mathlib.Data.List.Sort

namespace OraOS.Lib

variable {σ ρ : Type*}

/-! ## §1. Policies. -/

/-- A policy on rows `ρ` for sessions `σ`. -/
structure Policy (σ ρ : Type*) where
  sees : σ → ρ → Bool
  admits : σ → ρ → Bool

namespace Policy

variable (P : Policy σ ρ)

/-- The rows of a table a session can read. -/
def visible (s : σ) (rows : List ρ) : List ρ := rows.filter (P.sees s)

/-- The table after an INSERT, or nothing when WITH CHECK refuses the row. -/
def insert (s : σ) (rows : List ρ) (r : ρ) : Option (List ρ) :=
  if P.admits s r then some (rows ++ [r]) else none

variable {P}

@[simp] theorem mem_visible {s : σ} {rows : List ρ} {r : ρ} :
    r ∈ P.visible s rows ↔ r ∈ rows ∧ P.sees s r = true := List.mem_filter

/-- An insert that goes through was admitted. -/
theorem insert_eq_some {s : σ} {rows rows' : List ρ} {r : ρ} (h : P.insert s rows r = some rows') :
    P.admits s r = true ∧ rows' = rows ++ [r] := by
  unfold insert at h
  split at h
  next hadmits => exact ⟨hadmits, (Option.some.inj h).symm⟩
  next => cases h

/-- **Confinement**: reads stay within `K` exactly when no row outside is visible. -/
theorem confined_iff {s : σ} {rows : List ρ} {K : ρ → Prop} :
    (∀ r ∈ P.visible s rows, K r) ↔ ∀ r ∈ rows, ¬ K r → P.sees s r = false := by
  constructor
  · intro h r hr hK
    by_contra hsees
    exact hK (h r (mem_visible.mpr ⟨hr, by simpa using hsees⟩))
  · intro h r hr
    obtain ⟨hmem, hsees⟩ := mem_visible.mp hr
    by_contra hK
    rw [h r hmem hK] at hsees
    cases hsees

end Policy

/-! ## §2. Order and limit. -/

/-- `ORDER BY key`, rows with the same key in table order. -/
def orderBy (key : ρ → ℤ) (rows : List ρ) : List ρ :=
  rows.insertionSort fun a b => key a ≤ key b

@[simp] theorem mem_orderBy {key : ρ → ℤ} {rows : List ρ} {r : ρ} :
    r ∈ orderBy key rows ↔ r ∈ rows := List.mem_insertionSort _

/-- An order by a key loses no row. -/
theorem orderBy_perm (key : ρ → ℤ) (rows : List ρ) : (orderBy key rows).Perm rows :=
  List.perm_insertionSort _ rows

theorem pairwise_orderBy (key : ρ → ℤ) (rows : List ρ) :
    (orderBy key rows).Pairwise fun a b => key a ≤ key b := by
  have : Std.Total fun a b : ρ => key a ≤ key b := ⟨fun a b => le_total (key a) (key b)⟩
  have : IsTrans ρ fun a b => key a ≤ key b := ⟨fun _ _ _ => le_trans⟩
  exact List.pairwise_insertionSort _ rows

/-- `LIMIT 1` without an order: some row, whenever there is one. -/
structure AnyRow (ρ : Type*) where
  pick : List ρ → Option ρ
  pick_mem : ∀ rows r, pick rows = some r → r ∈ rows
  pick_none : ∀ rows, pick rows = none → rows = []

namespace AnyRow

/-- The choice of the first row. -/
def first : AnyRow ρ where
  pick := List.head?
  pick_mem _ _ h := List.mem_of_mem_head? h
  pick_none _ h := List.head?_eq_none_iff.mp h

/-- The choice that prefers one row and otherwise takes the first. -/
def preferring [DecidableEq ρ] (r : ρ) : AnyRow ρ where
  pick rows := if r ∈ rows then some r else rows.head?
  pick_mem rows r' h := by
    split at h
    next hmem =>
      cases h
      exact hmem
    next => exact List.mem_of_mem_head? h
  pick_none rows h := by
    split at h
    next => cases h
    next => exact List.head?_eq_none_iff.mp h

/-- A row that is there may be the one that comes back, where no order is asked for. -/
theorem preferring_pick [DecidableEq ρ] {r : ρ} {rows : List ρ} (h : r ∈ rows) :
    (preferring r).pick rows = some r := if_pos h

/-- **Every choice is good exactly when every row is**, and there is one. -/
theorem forall_pick_iff [DecidableEq ρ] {Q : ρ → Prop} {rows : List ρ} :
    (∀ any : AnyRow ρ, ∃ r, any.pick rows = some r ∧ Q r) ↔ rows ≠ [] ∧ ∀ r ∈ rows, Q r := by
  constructor
  · intro h
    have hall : ∀ r ∈ rows, Q r := by
      intro r hr
      obtain ⟨r', hpick, hQ⟩ := h (preferring r)
      rw [preferring_pick hr] at hpick
      cases hpick
      exact hQ
    refine ⟨?_, hall⟩
    rintro rfl
    obtain ⟨r, hpick, -⟩ := h first
    cases hpick
  · rintro ⟨hne, hall⟩ any
    cases hpick : any.pick rows with
    | none => exact absurd (any.pick_none rows hpick) hne
    | some r => exact ⟨r, rfl, hall r (any.pick_mem rows r hpick)⟩

end AnyRow

end OraOS.Lib
