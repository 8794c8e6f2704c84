/-
  OraOS.Lib.Alternation — entries of two kinds that take turns, in the order of a key.

  A table has no order of its own, and keys may be equal, so what is asked is asked of
  every arrangement by key:

    * `not_alternates_insert` — an entry put in before another breaks the turns;
    * `alternatesBy_concat`   — so a new entry keeps them exactly when it is later than
                                all the others and of the other kind than the last.
-/
import Mathlib.Tactic
import OraOS.Lib.RowSecurity

namespace OraOS.Lib

variable {α : Type*} (key : α → ℤ) (kind : α → Bool)

/-- The kinds take turns, beginning with `b`. -/
def Alternates : Bool → List α → Prop
  | _, [] => True
  | b, a :: l => kind a = b ∧ Alternates (!b) l

instance decidableAlternates : ∀ (b : Bool) (l : List α), Decidable (Alternates kind b l)
  | _, [] => isTrue trivial
  | b, a :: l =>
      have := decidableAlternates (!b) l
      inferInstanceAs (Decidable (kind a = b ∧ Alternates kind (!b) l))

/-- Whichever way the entries are arranged by key. -/
def AlternatesBy (b : Bool) (l : List α) : Prop :=
  ∀ l' : List α, l'.Perm l → l'.Pairwise (fun x y => key x ≤ key y) → Alternates kind b l'

/-- The kind that is next after the entries of `l`. -/
def Follows (b : Bool) (l : List α) (k : Bool) : Prop :=
  (l = [] → k = b) ∧ ∀ z ∈ l, (∀ y ∈ l, key y ≤ key z) → k = !kind z

instance (b : Bool) (l : List α) (k : Bool) : Decidable (Follows key kind b l k) :=
  inferInstanceAs (Decidable (_ ∧ _))

variable {key kind}

theorem alternatesBy_nil (b : Bool) : AlternatesBy key kind b [] := by
  intro l' hperm _
  rw [hperm.eq_nil]
  trivial

/-- The last of two more entries is judged by the one before it. -/
theorem alternates_concat_two {z a : α} : ∀ {l : List α} {b : Bool},
    Alternates kind b (l ++ [z, a]) ↔ Alternates kind b (l ++ [z]) ∧ kind a = !kind z
  | [], b => by
      show (kind z = b ∧ kind a = !b ∧ True) ↔ (kind z = b ∧ True) ∧ kind a = !kind z
      constructor
      · rintro ⟨rfl, ha, -⟩
        exact ⟨⟨rfl, trivial⟩, ha⟩
      · rintro ⟨⟨rfl, -⟩, ha⟩
        exact ⟨rfl, ha, trivial⟩
  | x :: l, b => by
      show (kind x = b ∧ Alternates kind (!b) (l ++ [z, a]))
        ↔ (kind x = b ∧ Alternates kind (!b) (l ++ [z])) ∧ kind a = !kind z
      rw [alternates_concat_two, and_assoc]

/-- **An entry put in before another breaks the turns.** -/
theorem not_alternates_insert {a c : α} {l₂ : List α} : ∀ {l₁ : List α} {b : Bool},
    Alternates kind b (l₁ ++ c :: l₂) → ¬ Alternates kind b (l₁ ++ a :: c :: l₂)
  | [], b => by
      rintro ⟨hc, -⟩ ⟨-, hc', -⟩
      rw [hc] at hc'
      cases b <;> cases hc'
  | _ :: _, _ => fun h h' => not_alternates_insert h.2 h'.2

section

variable {b : Bool} {l : List α} {a : α}

/-- The entries in one of their orders. -/
theorem exists_sorted (key : α → ℤ) (l : List α) :
    ∃ s : List α, s.Perm l ∧ s.Pairwise fun x y => key x ≤ key y :=
  ⟨orderBy key l, orderBy_perm key l, pairwise_orderBy key l⟩

/-- An entry later than all stands at the end of the order. -/
theorem sorted_concat {s : List α} (hs : s.Pairwise fun x y => key x ≤ key y)
    (hlast : ∀ x ∈ s, key x ≤ key a) : (s ++ [a]).Pairwise fun x y => key x ≤ key y := by
  rw [List.pairwise_append]
  refine ⟨hs, List.pairwise_singleton _ _, ?_⟩
  intro x hx y hy
  rw [List.mem_singleton.mp hy]
  exact hlast x hx

/-- Between sorted entries, before the first that is not earlier. -/
theorem exists_insertion {s : List α} (hs : s.Pairwise fun x y => key x ≤ key y) {x : α}
    (hx : x ∈ s) (hle : key a ≤ key x) : ∃ s₁ c s₂, s = s₁ ++ c :: s₂
      ∧ (s₁ ++ a :: c :: s₂).Pairwise fun x y => key x ≤ key y := by
  induction s with
  | nil => cases hx
  | cons d s ih =>
      obtain ⟨hd, hs'⟩ := List.pairwise_cons.mp hs
      by_cases hda : key a ≤ key d
      · refine ⟨[], d, s, rfl, List.pairwise_cons.mpr ⟨?_, hs⟩⟩
        intro y hy
        rcases List.mem_cons.mp hy with rfl | hy
        · exact hda
        · exact hda.trans (hd y hy)
      · have hxs : x ∈ s := (List.mem_cons.mp hx).resolve_left fun h => hda (h ▸ hle)
        obtain ⟨s₁, c, s₂, rfl, hsorted⟩ := ih hs' hxs
        refine ⟨d :: s₁, c, s₂, rfl, List.pairwise_cons.mpr ⟨?_, hsorted⟩⟩
        intro y hy
        rcases List.mem_append.mp hy with hy | hy
        · exact hd y (List.mem_append_left _ hy)
        · rcases List.mem_cons.mp hy with rfl | hy
          · exact (not_le.mp hda).le
          · exact hd y (List.mem_append_right _ hy)

/-- A new entry that is not the latest breaks the turns. -/
theorem later_of_alternatesBy (h : AlternatesBy key kind b l)
    (hnew : AlternatesBy key kind b (l ++ [a])) : ∀ x ∈ l, key x < key a := by
  intro x hx
  by_contra hnot
  obtain ⟨s, hperm, hs⟩ := exists_sorted key l
  obtain ⟨s₁, c, s₂, rfl, hsorted⟩ := exists_insertion hs (hperm.mem_iff.mpr hx) (not_lt.mp hnot)
  refine not_alternates_insert (h _ hperm hs) (hnew _ ?_ hsorted)
  calc (s₁ ++ a :: c :: s₂).Perm (a :: (s₁ ++ c :: s₂)) := List.perm_middle
    _ |>.Perm (a :: l) := hperm.cons a
    _ |>.Perm (l ++ [a]) := (List.perm_append_singleton a l).symm

/-- One that is the latest is of the next kind. -/
theorem follows_of_alternatesBy (hnew : AlternatesBy key kind b (l ++ [a]))
    (hlater : ∀ x ∈ l, key x < key a) : Follows key kind b l (kind a) := by
  refine ⟨?_, ?_⟩
  · rintro rfl
    exact (hnew [a] (.refl _) (List.pairwise_singleton _ _)).1
  · intro z hz hmax
    -- the others in order, then `z`, then the new entry
    obtain ⟨l₁, l₂, rfl⟩ := List.append_of_mem hz
    obtain ⟨s, hperm, hs⟩ := exists_sorted key (l₁ ++ l₂)
    have hin : ∀ x ∈ s, x ∈ l₁ ++ z :: l₂ := fun x hx =>
      List.mem_append.mpr ((List.mem_append.mp (hperm.mem_iff.mp hx)).imp_right
        (List.mem_cons_of_mem z))
    have hz' : (s ++ [z]).Perm (l₁ ++ z :: l₂) :=
      ((List.perm_append_singleton z s).trans (hperm.cons z)).trans List.perm_middle.symm
    have hsorted := sorted_concat (sorted_concat hs fun x hx => hmax x (hin x hx)) (a := a)
      fun x hx => (hlater x (hz'.mem_iff.mp hx)).le
    have halternates := hnew _ (hz'.append_right [a]) hsorted
    rw [List.append_assoc] at halternates
    exact (alternates_concat_two.mp halternates).2

/-- The entries still take turns after a later one that follows. -/
theorem alternatesBy_of_follows (h : AlternatesBy key kind b l) (hlater : ∀ x ∈ l, key x < key a)
    (hnext : Follows key kind b l (kind a)) : AlternatesBy key kind b (l ++ [a]) := by
  intro l' hperm hsorted
  rcases List.eq_nil_or_concat' l' with rfl | ⟨s, w, rfl⟩
  · trivial
  · obtain ⟨hs, -, hle⟩ := List.pairwise_append.mp hsorted
    -- the last entry of the arrangement is the new one
    have hw : w = a := by
      have hw : w ∈ l ∨ w = a := by
        simpa using hperm.mem_iff.mp (List.mem_append_right s (List.mem_singleton_self w))
      have ha : a ∈ s ∨ a = w := by
        simpa using hperm.mem_iff.mpr (List.mem_append_right l (List.mem_singleton_self a))
      rcases hw with hold | rfl
      · rcases ha with hbefore | rfl
        · have hbound := hle a hbefore w (List.mem_singleton_self w)
          exact absurd (hlater w hold) (not_lt.mpr hbound)
        · rfl
      · rfl
    subst hw
    have hrest : s.Perm l := (List.perm_append_right_iff [w]).mp hperm
    have halternates := h s hrest hs
    rcases List.eq_nil_or_concat' s with rfl | ⟨s', z, rfl⟩
    · exact ⟨hnext.1 (List.nil_perm.mp hrest), trivial⟩
    · rw [List.append_assoc]
      refine alternates_concat_two.mpr ⟨halternates, hnext.2 z ?_ ?_⟩
      · exact hrest.mem_iff.mp (List.mem_append_right s' (List.mem_singleton_self z))
      · intro y hy
        rcases List.mem_append.mp (hrest.mem_iff.mpr hy) with hbefore | hlast
        · exact (List.pairwise_append.mp hs).2.2 y hbefore z (List.mem_singleton_self z)
        · rw [List.mem_singleton.mp hlast]

/-- **The turns are kept if and only if** the new entry is later than all others and of
the next kind. -/
theorem alternatesBy_concat (h : AlternatesBy key kind b l) :
    AlternatesBy key kind b (l ++ [a])
      ↔ (∀ x ∈ l, key x < key a) ∧ Follows key kind b l (kind a) := by
  constructor
  · intro hnew
    have hlater := later_of_alternatesBy h hnew
    exact ⟨hlater, follows_of_alternatesBy hnew hlater⟩
  · rintro ⟨hlater, hnext⟩
    exact alternatesBy_of_follows h hlater hnext

end

end OraOS.Lib
