/-
  OraOS.Lib.Acyclic — directed graphs whose nodes get new successors, one node at a time.

    * `acyclic_rewire` — a node's new successors close a loop exactly when one of them
                         reaches the node.
-/
import Mathlib.Logic.Relation
import Mathlib.Tactic

namespace OraOS.Lib

open Relation

variable {α : Type*}

/-- No node reaches itself. -/
def Acyclic (r : α → α → Prop) : Prop := ∀ x, ¬ TransGen r x x

/-- A graph without an edge has no cycle. -/
theorem acyclic_empty {r : α → α → Prop} (h : ∀ x y, ¬ r x y) : Acyclic r := by
  intro x hx
  obtain ⟨y, hxy, -⟩ := TransGen.head'_iff.mp hx
  exact h x y hxy

/-- The graph in which the successors of `a` are those of `s`, and every other node has the
successors it had. -/
def rewire (r : α → α → Prop) (a : α) (s : α → Prop) (x y : α) : Prop :=
  x = a ∧ s y ∨ x ≠ a ∧ r x y

variable {r : α → α → Prop} {a : α} {s : α → Prop}

/-- The way to `a` does not go through `a`, so it is the same in both graphs. -/
theorem rewire_reaches {x : α} : ReflTransGen (rewire r a s) x a ↔ ReflTransGen r x a := by
  constructor
  · intro h
    induction h using ReflTransGen.head_induction_on with
    | refl => exact .refl
    | head hxy _ ih =>
        rcases hxy with ⟨rfl, -⟩ | ⟨-, hxy⟩
        · exact .refl
        · exact .head hxy ih
  · intro h
    induction h using ReflTransGen.head_induction_on with
    | refl => exact .refl
    | @head x y hxy _ ih =>
        by_cases hx : x = a
        · rw [hx]
        · exact .head (.inr ⟨hx, hxy⟩) ih

/-- A way through the new graph is a way through the old one, or goes through `a` and one of
its new successors. -/
theorem rewire_path {x y : α} (h : TransGen (rewire r a s) x y) :
    TransGen r x y
      ∨ ReflTransGen (rewire r a s) x a ∧ ∃ z, s z ∧ ReflTransGen (rewire r a s) z y := by
  induction h using TransGen.head_induction_on with
  | single hxy =>
      rcases hxy with ⟨rfl, hs⟩ | ⟨-, hxy⟩
      · exact .inr ⟨.refl, _, hs, .refl⟩
      · exact .inl (.single hxy)
  | head hxz hzy ih =>
      rcases hxz with ⟨rfl, hs⟩ | ⟨hx, hxz⟩
      · exact .inr ⟨.refl, _, hs, hzy.to_reflTransGen⟩
      · rcases ih with hold | ⟨hza, hthrough⟩
        · exact .inl (.head hxz hold)
        · exact .inr ⟨.head (.inr ⟨hx, hxz⟩) hza, hthrough⟩

/-- **When new successors close a loop**: when one of them reaches the node. -/
theorem acyclic_rewire (h : Acyclic r) :
    Acyclic (rewire r a s) ↔ ∀ z, s z → ¬ ReflTransGen r z a := by
  constructor
  · intro hnew z hz hza
    exact hnew a (TransGen.head'_iff.mpr ⟨z, .inl ⟨rfl, hz⟩, rewire_reaches.mpr hza⟩)
  · intro hnone x hx
    rcases rewire_path hx with hold | ⟨hxa, z, hz, hzx⟩
    · exact h x hold
    · -- from the new successor back to `x`, and from there to `a`
      exact hnone z hz (rewire_reaches.mp (hzx.trans hxa))

end OraOS.Lib
