/-
  OraOS.Lib.Pairing — entries that take turns are pairs, and a window cuts some of them.

  A loop that remembers the last entry of the first kind, and pairs it with the next of
  the second, finds all pairs of a history that takes turns.  Over the entries of a
  window alone it finds other things:

    * `alternatesBy_iff`  — a history takes turns when it does in the order of distinct keys;
    * `foldl_pairEntry_window`
                          — the loop finds the pairs inside of the window, and one it cuts;
    * `filter_inside_eq_iff`
                          — these are the pairs that overlap it exactly when none is cut.
-/
import OraOS.Lib.Alternation

namespace OraOS.Lib

variable {α : Type*} {key : α → ℤ} {kind : α → Bool}

/-! ## §1. In the order of the keys. -/

/-- Two neighbours that take turns do not in the other order. -/
theorem not_alternates_swap {a c : α} {l₂ : List α} : ∀ {l₁ : List α} {b : Bool},
    Alternates kind b (l₁ ++ a :: c :: l₂) → ¬ Alternates kind b (l₁ ++ c :: a :: l₂)
  | [], b => by
      rintro ⟨ha, -⟩ ⟨-, ha', -⟩
      rw [ha] at ha'
      cases b <;> cases ha'
  | _ :: _, _ => fun h h' => not_alternates_swap h.2 h'.2

/-- Two entries with one key could be read in either order. -/
theorem pairwise_lt_of_alternatesBy {b : Bool} {s : List α} (h : AlternatesBy key kind b s)
    (hs : s.Pairwise fun x y => key x ≤ key y) : s.Pairwise fun x y => key x < key y := by
  have : Trans (fun x y : α => key x < key y) (fun x y => key x < key y)
      (fun x y => key x < key y) := ⟨lt_trans⟩
  rw [← List.isChain_iff_pairwise, List.isChain_iff_forall_rel_of_append_cons_cons]
  rintro x y l₁ l₂ rfl
  have hle : key x ≤ key y :=
    (List.pairwise_cons.mp (List.pairwise_append.mp hs).2.1).1 y List.mem_cons_self
  refine lt_of_le_of_ne hle fun heq => ?_
  have hswapped : (l₁ ++ y :: x :: l₂).Pairwise fun x y => key x ≤ key y := by
    have hkeys : (l₁ ++ y :: x :: l₂).map key = (l₁ ++ x :: y :: l₂).map key := by
      simp only [List.map_append, List.map_cons, heq]
    rw [← List.pairwise_map (f := key) (R := (· ≤ ·)), hkeys]
    exact List.pairwise_map.mpr hs
  have hperm : (l₁ ++ y :: x :: l₂).Perm (l₁ ++ x :: y :: l₂) :=
    (List.Perm.swap x y l₂).append_left l₁
  exact not_alternates_swap (h _ (.refl _) hs) (h _ hperm hswapped)

variable (key) in
/-- Entries with distinct keys have one order. -/
theorem eq_of_perm_sorted {s s' : List α} (hs : s.Pairwise fun x y => key x < key y)
    (hs' : s'.Pairwise fun x y => key x ≤ key y) (hperm : s'.Perm s) : s' = s := by
  have hle : s.Pairwise fun x y => key x ≤ key y := hs.imp fun h => h.le
  have hinj : (s.map key).Nodup := (List.pairwise_map.mpr hs).imp fun h => ne_of_lt h
  have hanti : ∀ x y, x ∈ s' → y ∈ s → key x ≤ key y → key y ≤ key x → x = y :=
    fun x y hx hy hxy hyx =>
      List.inj_on_of_nodup_map hinj (hperm.mem_iff.mp hx) hy (le_antisymm hxy hyx)
  exact hperm.eq_of_pairwise hanti hs' hle

/-- **A history takes turns if and only if** it does in one order of distinct keys. -/
theorem alternatesBy_iff {b : Bool} {l : List α} : AlternatesBy key kind b l
    ↔ ∃ s : List α, s.Perm l ∧ (s.Pairwise fun x y => key x < key y) ∧ Alternates kind b s := by
  constructor
  · intro h
    obtain ⟨s, hperm, hs⟩ := exists_sorted key l
    have hturns : AlternatesBy key kind b s := fun s' hperm' => h s' (hperm'.trans hperm)
    exact ⟨s, hperm, pairwise_lt_of_alternatesBy hturns hs, h s hperm hs⟩
  · rintro ⟨s, hperm, hs, halternates⟩ s' hperm' hs'
    rw [eq_of_perm_sorted key hs hs' (hperm'.trans hperm.symm)]
    exact halternates

/-! ## §2. Pairs. -/

/-- Each two entries, one after the other. -/
def pairUp : List α → List (α × α)
  | a :: b :: l => (a, b) :: pairUp l
  | _ => []

/-- The pairing loop: the pairs so far, and the entry of the first kind that is open. -/
def pairEntry (kind : α → Bool) : List (α × α) × Option α → α → List (α × α) × Option α
  | (pairs, opened), e =>
      if kind e then (pairs, some e)
      else match opened with
        | some a => (pairs ++ [(a, e)], none)
        | none => (pairs, none)

/-- A pair is two entries of the list, in its order. -/
theorem pairUp_sublist {p : α × α} : ∀ {l : List α}, p ∈ pairUp l → [p.1, p.2].Sublist l
  | a :: b :: l, h => by
      rcases List.mem_cons.mp h with rfl | h
      · exact ((List.nil_sublist l).cons_cons b).cons_cons a
      · exact ((pairUp_sublist h).cons b).cons a

theorem pairUp_lt {l : List α} (hs : l.Pairwise fun x y => key x < key y) {p : α × α}
    (hp : p ∈ pairUp l) : key p.1 < key p.2 := by
  have h := hs.sublist (pairUp_sublist hp)
  exact (List.pairwise_cons.mp h).1 p.2 (List.mem_singleton_self _)

/-! ## §3. A window. -/

/-- From the one key to the other, both included. -/
structure KeyWindow where
  lo : ℤ
  hi : ℤ
  deriving DecidableEq, Repr

namespace KeyWindow

variable (w : KeyWindow)

/-- The instant `x` is in the window. -/
def contains (x : ℤ) : Bool := decide (w.lo ≤ x ∧ x ≤ w.hi)

/-- Some key of the window lies between the two. -/
def overlaps (x y : ℤ) : Bool := decide (max w.lo x ≤ min w.hi y)

/-- The stretch from `x` to `y` is inside the window. -/
def inside (x y : ℤ) : Bool := decide (w.lo ≤ x ∧ y ≤ w.hi)

variable {w}

theorem contains_iff {x : ℤ} : w.contains x = true ↔ w.lo ≤ x ∧ x ≤ w.hi := decide_eq_true_iff

theorem inside_iff {x y : ℤ} : w.inside x y = true ↔ w.lo ≤ x ∧ y ≤ w.hi := decide_eq_true_iff

/-- A stretch overlaps the window if they have an instant in common. -/
theorem overlaps_iff {x y : ℤ} :
    w.overlaps x y = true ↔ ∃ t, w.contains t = true ∧ x ≤ t ∧ t ≤ y := by
  simp only [overlaps, decide_eq_true_eq, contains_iff]
  constructor
  · intro h
    exact ⟨max w.lo x, by omega⟩
  · rintro ⟨t, ht, hx, hy⟩
    omega

/-- What is inside overlaps. -/
theorem overlaps_of_inside {x y : ℤ} (hxy : x ≤ y) (h : w.inside x y = true) :
    w.overlaps x y = true := by
  obtain ⟨hlo, hhi⟩ := inside_iff.mp h
  exact overlaps_iff.mpr ⟨x, contains_iff.mpr ⟨hlo, hxy.trans hhi⟩, le_refl x, hxy⟩

/-- Of two keys in order both are in the window, or only the first, or not the first: in
the last two cases it does not have the whole stretch. -/
theorem cut_cases {x y : ℤ} (hxy : x < y) :
    (w.contains x = true ∧ w.contains y = true ∧ w.inside x y = true)
      ∨ (w.contains x = true ∧ w.contains y = false ∧ w.hi < y ∧ w.inside x y = false)
      ∨ (w.contains x = false ∧ w.inside x y = false) := by
  simp only [contains, inside, decide_eq_true_eq, decide_eq_false_iff_not]
  omega

end KeyWindow

/-- The entry that begins in the window and ends after it, or not at all. -/
def openIn (key : α → ℤ) (w : KeyWindow) : List α → Option α
  | a :: b :: l =>
      if w.contains (key a) && !w.contains (key b) then some a else openIn key w l
  | [a] => if w.contains (key a) then some a else none
  | [] => none

section

variable {w : KeyWindow}

/-- What is later than the window is not in it. -/
theorem filter_after_window {l : List α} (h : ∀ x ∈ l, w.hi < key x) :
    l.filter (fun x => w.contains (key x)) = [] := by
  refine List.filter_eq_nil_iff.mpr ?_
  intro x hx hin
  have hbound := (KeyWindow.contains_iff.mp hin).2
  exact absurd (h x hx) (not_lt.mpr hbound)

/-- **The loop over a window** finds the pairs inside of it, and the entry whose other
half it does not reach.

Two entries at a time: both are in the window, or the second is past its end, and then so
is the rest; or the first is before its start, and the loop has nothing to pair the second
with. -/
theorem foldl_pairEntry_window (l : List α) (halternates : Alternates kind true l)
    (hs : l.Pairwise fun x y => key x < key y) (pairs : List (α × α)) :
    (l.filter fun x => w.contains (key x)).foldl (pairEntry kind) (pairs, none)
      = (pairs ++ (pairUp l).filter (fun p => w.inside (key p.1) (key p.2)), openIn key w l) := by
  induction l using pairUp.induct generalizing pairs with
  | case1 a b l ih =>
      obtain ⟨ha, hb, hl⟩ := halternates
      obtain ⟨hahead, hs'⟩ := List.pairwise_cons.mp hs
      obtain ⟨hbhead, hs''⟩ := List.pairwise_cons.mp hs'
      replace ih := ih (by simpa using hl) hs''
      rcases w.cut_cases (hahead b List.mem_cons_self) with ⟨hain, hbin, hinside⟩
        | ⟨hain, hbout, hbhi, hinside⟩ | ⟨haout, hinside⟩
      · simp only [List.filter_cons, hain, hbin, pairUp, hinside, openIn, if_true,
          List.foldl_cons, pairEntry, ha, hb, Bool.not_true, Bool.false_eq_true, if_false,
          Bool.and_false]
        rw [ih, List.append_assoc]
        rfl
      · -- everything later is past the window too, so the loop finds nothing more in it
        have hrest := filter_after_window (w := w) (l := l) fun x hx => hbhi.trans (hbhead x hx)
        have hpairs := congrArg Prod.fst (ih [])
        rw [hrest] at hpairs
        simp only [List.filter_cons, hain, hbout, pairUp, hinside, openIn, if_true, hrest,
          List.foldl_cons, List.foldl_nil, pairEntry, ha, Bool.not_false, Bool.and_true,
          Bool.false_eq_true, if_false]
        rw [← show [] = (pairUp l).filter _ from hpairs, List.append_nil]
      · simp only [List.filter_cons, haout, pairUp, hinside, openIn, Bool.false_and,
          Bool.false_eq_true, if_false]
        split
        next =>
          -- an end without its beginning
          simp only [List.foldl_cons, pairEntry, hb]
          exact ih pairs
        next => exact ih pairs
  | case2 l hshort =>
      match l, hshort, halternates with
      | [], _, _ => simp [pairUp, openIn]
      | [a], _, ⟨ha, _⟩ =>
          by_cases hain : w.contains (key a) = true
          · simp [pairUp, openIn, hain, pairEntry, ha]
          · simp [pairUp, openIn, Bool.eq_false_iff.mpr hain]
      | a :: b :: l, hshort, _ => exact absurd rfl (hshort a b l)

/-- What is open at the end of a window is the last entry, or is cut from its other half. -/
theorem openIn_eq_some {a : α} : ∀ {l : List α}, openIn key w l = some a →
    w.contains (key a) = true ∧ ((∃ b, (a, b) ∈ pairUp l ∧ w.contains (key b) = false)
      ∨ ∃ l', l = l' ++ [a])
  | [x], h => by
      simp only [openIn, Option.ite_none_right_eq_some, Option.some.injEq] at h
      obtain ⟨hin, rfl⟩ := h
      exact ⟨hin, .inr ⟨[], rfl⟩⟩
  | x :: y :: l, h => by
      simp only [openIn] at h
      split at h
      next hcut =>
        cases h
        simp only [Bool.and_eq_true, Bool.not_eq_true'] at hcut
        exact ⟨hcut.1, .inl ⟨y, List.mem_cons_self, hcut.2⟩⟩
      next =>
        obtain ⟨hin, ⟨b, hb, hout⟩ | ⟨l', rfl⟩⟩ := openIn_eq_some h
        · exact ⟨hin, .inl ⟨b, List.mem_cons_of_mem _ hb, hout⟩⟩
        · exact ⟨hin, .inr ⟨x :: y :: l', rfl⟩⟩

variable (key) in
/-- **The pairs inside of a window are those that overlap it if and only if** it cuts none. -/
theorem filter_inside_eq_iff {β : Type*} {f : α × α → β} {pairs : List (α × α)}
    (hle : ∀ p ∈ pairs, key p.1 ≤ key p.2) :
    (pairs.filter fun p => w.inside (key p.1) (key p.2)).map f
        = (pairs.filter fun p => w.overlaps (key p.1) (key p.2)).map f
      ↔ ∀ p ∈ pairs, w.overlaps (key p.1) (key p.2) = true → w.inside (key p.1) (key p.2) = true := by
  have hinside : pairs.filter (fun p => w.inside (key p.1) (key p.2))
      = (pairs.filter fun p => w.overlaps (key p.1) (key p.2)).filter
          fun p => w.inside (key p.1) (key p.2) := by
    rw [List.filter_filter]
    refine List.filter_congr ?_
    intro p hp
    by_cases h : w.inside (key p.1) (key p.2) = true
    · rw [h, KeyWindow.overlaps_of_inside (hle p hp) h]
      rfl
    · rw [Bool.eq_false_iff.mpr h]
      rfl
  constructor
  · intro h p hp hover
    -- a cut pair would make the two lists differ in length
    have hlength := congrArg List.length h
    rw [List.length_map, List.length_map, hinside] at hlength
    exact List.length_filter_eq_length_iff.mp hlength p (List.mem_filter.mpr ⟨hp, hover⟩)
  · intro h
    rw [hinside, List.filter_eq_self.mpr]
    intro p hp
    obtain ⟨hp, hover⟩ := List.mem_filter.mp hp
    exact h p hp hover

end

end OraOS.Lib
