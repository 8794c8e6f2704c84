/-
  OraOS.Lib.Drain — meeting a need from a queue of sources, front first.

  `drain sources need` empties the sources in order until the need is met; what
  no source can meet comes last, from no source.

    * `drain_sum`   — the pieces add up to the need;
    * `drain_pos`   — every piece is positive;
    * `drain_le`    — no source gives more than it has;
    * `drain_shape` — the sources that are emptied, and the one that meets the need.
-/
import OraOS.Lib.Tally

namespace OraOS.Lib

variable {κ : Type*}

/-- Takes `need` from the sources `(key, available)` in order. -/
def drain : List (κ × ℤ) → ℤ → List (Option κ × ℤ)
  | [], need => if need ≤ 0 then [] else [(none, need)]
  | (k, available) :: sources, need =>
      if need ≤ 0 then []
      else (some k, min need available) :: drain sources (need - min need available)

/-- Who needs nothing takes nothing. -/
theorem drain_of_nonpos (sources : List (κ × ℤ)) {need : ℤ} (h : need ≤ 0) :
    drain sources need = [] := by
  cases sources with
  | nil => rw [drain, if_pos h]
  | cons s sources => rw [drain, if_pos h]

/-- **Nothing is lost**: the pieces add up to the need. -/
theorem drain_sum (sources : List (κ × ℤ)) :
    ∀ {need : ℤ}, 0 ≤ need → ((drain sources need).map Prod.snd).sum = need := by
  induction sources with
  | nil =>
      intro need hn
      by_cases h : need ≤ 0
      · rw [drain_of_nonpos [] h]
        show (0 : ℤ) = need
        omega
      · rw [drain, if_neg h]
        simp
  | cons s sources ih =>
      intro need hn
      by_cases h : need ≤ 0
      · rw [drain_of_nonpos _ h]
        show (0 : ℤ) = need
        omega
      -- what is left after the first source is asked of the others
      · have hrest : 0 ≤ need - min need s.2 := by omega
        rw [drain, if_neg h, List.map_cons, List.sum_cons, ih hrest]
        omega

/-- Of sources that have something, something is taken or nothing is. -/
theorem drain_pos {sources : List (κ × ℤ)} :
    ∀ {need : ℤ}, (∀ s ∈ sources, 0 < s.2) →
      ∀ p ∈ drain sources need, 0 < p.2 := by
  induction sources with
  | nil =>
      intro need _ p hp
      by_cases h : need ≤ 0
      · rw [drain_of_nonpos _ h] at hp
        cases hp
      -- no source is left: the rest is one piece of its own
      · rw [drain, if_neg h, List.mem_singleton] at hp
        rw [hp]
        show 0 < need
        omega
  | cons s sources ih =>
      intro need hs p hp
      by_cases h : need ≤ 0
      · rw [drain_of_nonpos _ h] at hp
        cases hp
      · rw [drain, if_neg h] at hp
        rcases List.mem_cons.mp hp with rfl | hp
        · have := hs s List.mem_cons_self
          show 0 < min need s.2
          omega
        · exact ih (fun t ht => hs t (List.mem_cons_of_mem _ ht)) p hp

/-- A piece that names a source comes from one of the queue. -/
theorem drain_known {sources : List (κ × ℤ)} {k : κ} :
    ∀ {need : ℤ} {p : Option κ × ℤ}, p ∈ drain sources need → p.1 = some k →
      ∃ s ∈ sources, s.1 = k := by
  induction sources with
  | nil =>
      intro need p hp hk
      by_cases h : need ≤ 0
      · rw [drain_of_nonpos _ h] at hp
        cases hp
      -- the piece without a source has no name
      · rw [drain, if_neg h, List.mem_singleton] at hp
        rw [hp] at hk
        cases hk
  | cons s sources ih =>
      intro need p hp hk
      by_cases h : need ≤ 0
      · rw [drain_of_nonpos _ h] at hp
        cases hp
      · rw [drain, if_neg h] at hp
        rcases List.mem_cons.mp hp with rfl | hp
        · injection hk with hk
          exact ⟨s, List.mem_cons_self, hk⟩
        · obtain ⟨t, ht, htk⟩ := ih hp hk
          exact ⟨t, List.mem_cons_of_mem _ ht, htk⟩

/-- **No source is overdrawn**: what leaves a source is at most what it had. -/
theorem drain_le [DecidableEq κ] (k : κ) {sources : List (κ × ℤ)} :
    ∀ need : ℤ, (∀ s ∈ sources, 0 ≤ s.2) →
      sumWhere (fun p => decide (p.1 = some k)) Prod.snd (drain sources need)
        ≤ sumWhere (fun s => decide (s.1 = k)) Prod.snd sources := by
  induction sources with
  | nil =>
      intro need _
      by_cases h : need ≤ 0
      · rw [drain_of_nonpos _ h]
        simp
      · rw [drain, if_neg h]
        simp
  | cons s sources ih =>
      intro need hs
      have hrest : ∀ t ∈ sources, 0 ≤ t.2 := fun t ht => hs t (List.mem_cons_of_mem _ ht)
      have hs0 := hs s List.mem_cons_self
      by_cases h : need ≤ 0
      · rw [drain_of_nonpos _ h]
        exact sumWhere_nonneg fun t ht _ => hs t ht
      · have hle := ih (need - min need s.2) hrest
        rw [drain, if_neg h, sumWhere_cons, sumWhere_cons]
        -- a source gives what it has at most
        by_cases hk : s.1 = k
        · have hk' : decide (some s.1 = some k) = true := by simpa using hk
          rw [if_pos hk', if_pos (by simpa using hk)]
          show min need s.2 + _ ≤ _
          omega
        · have hk' : ¬ decide (some s.1 = some k) = true := by simpa using hk
          rw [if_neg hk', if_neg (by simpa using hk)]
          omega

/-! ## What the pieces look like. -/

/-- The pieces of sources that are emptied. -/
def emptied (sources : List (κ × ℤ)) : List (Option κ × ℤ) := sources.map fun s => (some s.1, s.2)

/-- What the sources have. -/
def inStock (sources : List (κ × ℤ)) : ℤ := (sources.map Prod.snd).sum

@[simp] theorem inStock_cons (s : κ × ℤ) (sources : List (κ × ℤ)) :
    inStock (s :: sources) = s.2 + inStock sources := by
  unfold inStock
  rw [List.map_cons, List.sum_cons]

/-- **The shape of the pieces**: either a source meets what those before it, all emptied,
leave of the need, or all are emptied and the rest comes from none. -/
theorem drain_shape (sources : List (κ × ℤ)) :
    ∀ {need : ℤ}, 0 < need →
      (∃ front s back, sources = front ++ s :: back
          ∧ 0 < need - inStock front ∧ need - inStock front ≤ s.2
          ∧ drain sources need = emptied front ++ [(some s.1, need - inStock front)])
        ∨ inStock sources < need
          ∧ drain sources need = emptied sources ++ [(none, need - inStock sources)] := by
  induction sources with
  | nil =>
      intro need hneed
      right
      have hnot : ¬ need ≤ 0 := not_le.mpr hneed
      refine ⟨hneed, ?_⟩
      rw [drain, if_neg hnot]
      show [(none, need)] = [(none, need - 0)]
      rw [sub_zero]
  | cons s sources ih =>
      intro need hneed
      rw [drain, if_neg (not_le.mpr hneed)]
      by_cases hmeets : need ≤ s.2
      · -- the first source is enough
        left
        refine ⟨[], s, sources, rfl, ?_, ?_, ?_⟩
        · show 0 < need - 0
          omega
        · show need - 0 ≤ s.2
          omega
        · rw [min_eq_left hmeets, sub_self, drain_of_nonpos sources (le_refl 0)]
          show [(some s.1, need)] = [(some s.1, need - 0)]
          rw [sub_zero]
      · rw [min_eq_right (by omega)]
        have hrest : 0 < need - s.2 := by omega
        rcases ih hrest with ⟨front, t, back, rfl, hpos, hle, hpieces⟩ | ⟨hshort, hpieces⟩
        · left
          have hsub : need - inStock (s :: front) = need - s.2 - inStock front := by
            rw [inStock_cons]
            omega
          refine ⟨s :: front, t, back, rfl, ?_, ?_, ?_⟩
          · rw [hsub]
            exact hpos
          · rw [hsub]
            exact hle
          · rw [hsub, hpieces]
            rfl
        · right
          have hsub : need - inStock (s :: sources) = need - s.2 - inStock sources := by
            rw [inStock_cons]
            omega
          refine ⟨?_, ?_⟩
          · rw [inStock_cons]
            omega
          · rw [hsub, hpieces]
            rfl

end OraOS.Lib
