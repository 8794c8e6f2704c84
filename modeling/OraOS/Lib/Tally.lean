/-
  OraOS.Lib.Tally — sums over the rows of a table, and running totals by key.

  `sumWhere p f rows` is `SELECT SUM(f) … WHERE p` (an empty sum is 0).  A
  `Tally` is an insertion-ordered map that a loop adds amounts into: the first
  amount of a key appends the key, later ones add to it in place.

    * `sumWhere_tally` — grouping conserves every sum taken by key;
    * `get_tally`      — what a key holds is the sum of its amounts;
    * `keys_tally_nodup`, `mem_keys_tally` — each key once, exactly the keys
                         that occur;
    * `tally_perm`     — so the totals do not depend on how the amounts of a key
                         were split or ordered.
-/
import Mathlib.Tactic
import Mathlib.Data.List.Perm.Basic
import Mathlib.Algebra.BigOperators.Group.List.Basic
import Mathlib.Algebra.Order.BigOperators.Group.List

namespace OraOS.Lib

variable {α β κ : Type*}

/-- A row with a new key leaves the keys of a table apart. -/
theorem nodup_keys_append {f : α → κ} {l : List α} {a : α} (h : (l.map f).Nodup)
    (hnew : ∀ x ∈ l, f x ≠ f a) : ((l ++ [a]).map f).Nodup := by
  rw [List.map_append]
  refine List.Nodup.append h (List.nodup_singleton _) ?_
  intro k hold hk
  obtain ⟨x, hx, rfl⟩ := List.mem_map.mp hold
  exact hnew x hx (List.mem_singleton.mp hk)

/-- An update that puts no row into a count, and takes one out. -/
theorem countP_map_lt {p : α → Bool} {g : α → α} (hg : ∀ a, p (g a) = true → p a = true)
    {l : List α} {a : α} (ha : a ∈ l) (hin : p a = true) (hout : p (g a) = false) :
    (l.map g).countP p < l.countP p := by
  obtain ⟨l₁, l₂, rfl⟩ := List.append_of_mem ha
  have hle : ∀ l : List α, (l.map g).countP p ≤ l.countP p := by
    intro l
    rw [List.countP_map]
    exact List.countP_mono_left fun a _ => hg a
  have h₁ := hle l₁
  have h₂ := hle l₂
  simp only [List.map_append, List.map_cons, List.countP_append, List.countP_cons, hin, hout]
  simp only [if_true, Bool.false_eq_true, if_false]
  omega

/-- An update that leaves the rows of a filter alone, and puts none into it. -/
theorem filter_map_fixed {p : α → Bool} {g : α → α} :
    ∀ {l : List α}, (∀ a ∈ l, g a = a ∨ p a = false ∧ p (g a) = false) →
      (l.map g).filter p = l.filter p
  | [], _ => rfl
  | a :: l, h => by
      have ih := filter_map_fixed fun x hx => h x (List.mem_cons_of_mem a hx)
      rw [List.map_cons]
      rcases h a List.mem_cons_self with hsame | ⟨hout, hout'⟩
      · rw [hsame, List.filter_cons, List.filter_cons, ih]
      · rw [List.filter_cons_of_neg (by simp [hout']), List.filter_cons_of_neg (by simp [hout]), ih]

/-- A row at a key, and the rest of the table as a statement on that key leaves it. -/
theorem exists_at_key [DecidableEq κ] {f : α → κ} {l : List α}
    (h : (l.map f).Nodup) {a : α} (ha : a ∈ l) :
    ∃ l₁ l₂, l = l₁ ++ a :: l₂
      ∧ (∀ g : α → α, (l.map fun x => if f x = f a then g x else x) = l₁ ++ g a :: l₂)
      ∧ (l.filter fun x => decide (f x ≠ f a)) = l₁ ++ l₂ := by
  obtain ⟨l₁, l₂, rfl⟩ := List.append_of_mem ha
  rw [List.map_append, List.map_cons] at h
  have hnot : ∀ x ∈ l₁ ++ l₂, f x ≠ f a := by
    intro x hx heq
    have hsplit := (List.nodup_middle.mp h)
    rw [← List.map_append, List.nodup_cons] at hsplit
    exact hsplit.1 (heq ▸ List.mem_map_of_mem hx)
  have hleft : ∀ x ∈ l₁, f x ≠ f a := fun x hx => hnot x (List.mem_append_left _ hx)
  have hright : ∀ x ∈ l₂, f x ≠ f a := fun x hx => hnot x (List.mem_append_right _ hx)
  refine ⟨l₁, l₂, rfl, ?_, ?_⟩
  · intro g
    have hid : ∀ l : List α, (∀ x ∈ l, f x ≠ f a) →
        (l.map fun x => if f x = f a then g x else x) = l := by
      intro l hl
      conv_rhs => rw [← List.map_id l]
      exact List.map_congr_left fun x hx => if_neg (hl x hx)
    rw [List.map_append, List.map_cons, if_pos rfl, hid l₁ hleft, hid l₂ hright]
  · rw [List.filter_append, List.filter_cons_of_neg (by simp),
      List.filter_eq_self.mpr fun x hx => decide_eq_true (hleft x hx),
      List.filter_eq_self.mpr fun x hx => decide_eq_true (hright x hx)]

/-! ## §1. Sums over the rows that meet a condition. -/

/-- The sum of `f` over the rows of `l` that satisfy `p`. -/
def sumWhere (p : α → Bool) (f : α → ℤ) (l : List α) : ℤ :=
  ((l.filter p).map f).sum

@[simp] theorem sumWhere_nil (p : α → Bool) (f : α → ℤ) :
    sumWhere p f [] = 0 := rfl

@[simp] theorem sumWhere_cons (p : α → Bool) (f : α → ℤ) (a : α) (l : List α) :
    sumWhere p f (a :: l) = (if p a then f a else 0) + sumWhere p f l := by
  unfold sumWhere
  by_cases h : p a <;> simp [h]

@[simp] theorem sumWhere_append (p : α → Bool) (f : α → ℤ) (l l' : List α) :
    sumWhere p f (l ++ l') = sumWhere p f l + sumWhere p f l' := by
  simp [sumWhere]

/-- A sum over mapped rows is one over the rows. -/
theorem sumWhere_map (p : β → Bool) (f : β → ℤ) (g : α → β) (l : List α) :
    sumWhere p f (l.map g) = sumWhere (p ∘ g) (f ∘ g) l := by
  induction l with
  | nil => rfl
  | cons a l ih => simp [ih]

/-- Two sums that select the same rows, and take the same of each. -/
theorem sumWhere_congr {p q : α → Bool} {f g : α → ℤ} {l : List α}
    (hp : ∀ a ∈ l, p a = q a) (hf : ∀ a ∈ l, q a = true → f a = g a) :
    sumWhere p f l = sumWhere q g l := by
  induction l with
  | nil => rfl
  | cons a l ih =>
      have htail := ih (fun b hb => hp b (List.mem_cons_of_mem a hb))
        (fun b hb => hf b (List.mem_cons_of_mem a hb))
      rw [sumWhere_cons, sumWhere_cons, htail, hp a List.mem_cons_self]
      by_cases hq : q a = true
      · rw [if_pos hq, if_pos hq, hf a List.mem_cons_self hq]
      · rw [if_neg hq, if_neg hq]

/-- Rows that count for nothing sum to nothing. -/
theorem sumWhere_eq_zero {p : α → Bool} {f : α → ℤ} {l : List α}
    (h : ∀ a ∈ l, p a = true → f a = 0) : sumWhere p f l = 0 := by
  induction l with
  | nil => rfl
  | cons a l ih =>
      rw [sumWhere_cons, ih fun b hb => h b (List.mem_cons_of_mem a hb), add_zero]
      by_cases hp : p a = true
      · rw [if_pos hp, h a List.mem_cons_self hp]
      · rw [if_neg hp]

theorem sumWhere_neg (p : α → Bool) (f : α → ℤ) (l : List α) :
    sumWhere p (fun a => -f a) l = -sumWhere p f l := by
  induction l with
  | nil => rfl
  | cons a l ih =>
      rw [sumWhere_cons, sumWhere_cons, ih]
      split <;> ring

theorem sumWhere_add (p : α → Bool) (f g : α → ℤ) (l : List α) :
    sumWhere p (fun a => f a + g a) l = sumWhere p f l + sumWhere p g l := by
  induction l with
  | nil => rfl
  | cons a l ih =>
      rw [sumWhere_cons, sumWhere_cons, sumWhere_cons, ih]
      split <;> ring

theorem sumWhere_mul (p : α → Bool) (f : α → ℤ) (c : ℤ) (l : List α) :
    sumWhere p (fun a => f a * c) l = sumWhere p f l * c := by
  unfold sumWhere
  rw [List.sum_map_mul_right]

/-- Rows that take nothing away sum to no less than nothing. -/
theorem sumWhere_nonneg {p : α → Bool} {f : α → ℤ} {l : List α}
    (h : ∀ a ∈ l, p a = true → 0 ≤ f a) : 0 ≤ sumWhere p f l := by
  refine List.sum_nonneg fun x hx => ?_
  obtain ⟨a, ha, rfl⟩ := List.mem_map.mp hx
  obtain ⟨hal, hp⟩ := List.mem_filter.mp ha
  exact h a hal hp

/-- One positive row makes a sum of non-negative ones positive. -/
theorem sumWhere_pos {p : α → Bool} {f : α → ℤ} {l : List α} {a : α}
    (h : ∀ b ∈ l, p b = true → 0 ≤ f b) (ha : a ∈ l) (hp : p a = true)
    (hf : 0 < f a) : 0 < sumWhere p f l := by
  obtain ⟨s, t, rfl⟩ := List.append_of_mem ha
  have hs : 0 ≤ sumWhere p f s :=
    sumWhere_nonneg fun b hb => h b (List.mem_append_left _ hb)
  have ht : 0 ≤ sumWhere p f t :=
    sumWhere_nonneg fun b hb =>
      h b (List.mem_append_right _ (List.mem_cons_of_mem a hb))
  rw [sumWhere_append, sumWhere_cons, if_pos hp]
  omega

/-- Rows outside `p` may be dropped beforehand. -/
theorem sumWhere_filter (p q : α → Bool) (f : α → ℤ) (l : List α) :
    sumWhere p f (l.filter q) = sumWhere (fun a => q a && p a) f l := by
  unfold sumWhere
  rw [List.filter_filter]
  simp only [Bool.and_comm]

/-- Dropping the rows whose amount is 0 changes no sum. -/
theorem sumWhere_filter_ne_zero (p : α → Bool) (f : α → ℤ) (l : List α) :
    sumWhere p f (l.filter fun a => decide (f a ≠ 0)) = sumWhere p f l := by
  induction l with
  | nil => rfl
  | cons a l ih =>
      by_cases h : f a = 0
      · rw [List.filter_cons_of_neg (by simpa using h), ih, sumWhere_cons, h]
        simp
      · rw [List.filter_cons_of_pos (by simpa using h), sumWhere_cons,
          sumWhere_cons, ih]

/-- The order of the rows does not matter. -/
theorem sumWhere_perm {p : α → Bool} {f : α → ℤ} {l l' : List α}
    (h : l.Perm l') : sumWhere p f l = sumWhere p f l' :=
  ((h.filter p).map f).sum_eq

/-- A sum over the rows that other rows expand to. -/
theorem sumWhere_flatMap (p : β → Bool) (f : β → ℤ) (g : α → List β)
    (l : List α) :
    sumWhere p f (l.flatMap g) = (l.map fun a => sumWhere p f (g a)).sum := by
  induction l with
  | nil => rfl
  | cons a l ih => simp [ih]

/-! ## §2. Running totals by key. -/

/-- An insertion-ordered map from keys to running totals. -/
abbrev Tally (κ : Type*) := List (κ × ℤ)

namespace Tally

/-- The keys, in insertion order. -/
def keys (m : Tally κ) : List κ := m.map Prod.fst

@[simp] theorem keys_cons (e : κ × ℤ) (m : Tally κ) :
    keys (e :: m) = e.1 :: keys m := rfl

variable [DecidableEq κ]

/-- `m.set(k, (m.get(k) ?? 0) + q)`. -/
def bump : Tally κ → κ → ℤ → Tally κ
  | [], k, q => [(k, q)]
  | (k', v) :: m, k, q =>
      if k' = k then (k', v + q) :: m else (k', v) :: bump m k q

/-- `m.get(k) ?? 0`. -/
def get : Tally κ → κ → ℤ
  | [], _ => 0
  | (k', v) :: m, k => if k' = k then v else get m k

/-- The first entry of a key is the one that is found. -/
theorem get_cons (e : κ × ℤ) (m : Tally κ) (k : κ) :
    get (e :: m) k = if e.1 = k then e.2 else get m k := rfl

/-- The totals a loop over `entries` leaves, starting from the empty map. -/
def tally (entries : List (κ × ℤ)) : Tally κ :=
  entries.foldl (fun m e => bump m e.1 e.2) []

/-- Bumping a key adds to every sum that selects it. -/
theorem sumWhere_bump (p : κ → Bool) (m : Tally κ) (k : κ) (q : ℤ) :
    sumWhere (fun e => p e.1) Prod.snd (m.bump k q)
      = sumWhere (fun e => p e.1) Prod.snd m + if p k then q else 0 := by
  induction m with
  | nil => simp [bump]
  | cons e m ih =>
      obtain ⟨k', v⟩ := e
      unfold bump
      split
      next hk =>
        subst hk
        simp only [sumWhere_cons]
        split <;> ring
      next =>
        simp only [sumWhere_cons, ih]
        ring

/-- **Grouping conserves sums**: whatever is summed over the keys of a tally
is the sum over the amounts that went in. -/
theorem sumWhere_tally (p : κ → Bool) (entries : List (κ × ℤ)) :
    sumWhere (fun e => p e.1) Prod.snd (tally entries)
      = sumWhere (fun e => p e.1) Prod.snd entries := by
  have key : ∀ (es : List (κ × ℤ)) (m : Tally κ),
      sumWhere (fun e => p e.1) Prod.snd
          (es.foldl (fun m e => bump m e.1 e.2) m)
        = sumWhere (fun e => p e.1) Prod.snd m
          + sumWhere (fun e => p e.1) Prod.snd es := by
    intro es
    induction es with
    | nil => intro m; simp
    | cons e es ih =>
        intro m
        rw [List.foldl_cons, ih, sumWhere_bump, sumWhere_cons]
        ring
  simpa [tally] using key entries []

/-- A key that is bumped for the first time joins at the end. -/
theorem keys_bump (m : Tally κ) (k : κ) (q : ℤ) :
    keys (bump m k q) = if k ∈ keys m then keys m else keys m ++ [k] := by
  induction m with
  | nil => rfl
  | cons e m ih =>
      obtain ⟨k', v⟩ := e
      unfold bump
      by_cases hk : k' = k
      · simp [hk]
      · rw [if_neg hk, keys_cons, keys_cons, ih]
        by_cases hm : k ∈ keys m
        · rw [if_pos hm, if_pos (List.mem_cons_of_mem k' hm)]
        · have hne : k ∉ k' :: keys m := by
            simpa [Ne.symm hk] using hm
          rw [if_neg hm, if_neg hne]
          rfl

/-- What the loop keeps about its keys: each once, and exactly those seen. -/
theorem keys_foldl (entries : List (κ × ℤ)) :
    ∀ m : Tally κ, (keys m).Nodup →
      (entries.foldl (fun m e => bump m e.1 e.2) m).keys.Nodup
        ∧ ∀ k, k ∈ (entries.foldl (fun m e => bump m e.1 e.2) m).keys
            ↔ k ∈ m.keys ∨ k ∈ entries.map Prod.fst := by
  -- the tally is generalised: the loop starts from what it has counted so far
  induction entries with
  | nil => intro m hm; exact ⟨hm, fun k => by simp⟩
  | cons e es ih =>
      intro m hm
      have hnd : (bump m e.1 e.2).keys.Nodup := by
        rw [keys_bump]
        split
        next => exact hm
        next hk =>
          refine List.Nodup.append hm (List.nodup_singleton _) ?_
          intro x hx hx'
          rw [List.mem_singleton] at hx'
          exact hk (hx' ▸ hx)
      obtain ⟨h1, h2⟩ := ih (bump m e.1 e.2) hnd
      refine ⟨h1, fun k => ?_⟩
      rw [List.foldl_cons, h2, keys_bump, List.map_cons, List.mem_cons]
      by_cases hk : e.1 ∈ m.keys
      · rw [if_pos hk]
        constructor
        · rintro (h | h)
          · exact .inl h
          · exact .inr (.inr h)
        · rintro (h | rfl | h)
          · exact .inl h
          · exact .inl hk
          · exact .inr h
      · rw [if_neg hk, List.mem_append, List.mem_singleton, or_assoc]

/-- A tally has every key once. -/
theorem keys_tally_nodup (entries : List (κ × ℤ)) : (tally entries).keys.Nodup :=
  (keys_foldl entries [] List.nodup_nil).1

theorem mem_keys_tally {entries : List (κ × ℤ)} {k : κ} :
    k ∈ (tally entries).keys ↔ k ∈ entries.map Prod.fst := by
  unfold tally
  rw [(keys_foldl entries [] List.nodup_nil).2 k]
  exact or_iff_right List.not_mem_nil

/-- With distinct keys, the sum at one key is what the map holds there. -/
theorem sumWhere_eq_get {m : Tally κ} (hm : m.keys.Nodup) (k : κ) :
    sumWhere (fun e => decide (e.1 = k)) Prod.snd m = m.get k := by
  induction m with
  | nil => rfl
  | cons e m ih =>
      obtain ⟨k', v⟩ := e
      have hm' : k' ∉ keys m ∧ (keys m).Nodup := List.nodup_cons.mp hm
      obtain ⟨hnk, hnd⟩ := hm'
      rw [sumWhere_cons, ih hnd, get_cons]
      by_cases hk : k' = k
      · have hz : get m k = 0 := by
          rw [← ih hnd]
          refine sumWhere_eq_zero fun e he hek => ?_
          have hek' : e.1 = k := by simpa using hek
          exact absurd (hk ▸ hek' ▸ List.mem_map_of_mem he) hnk
        simp [hk, hz]
      · simp [hk]

/-- **What a key holds** after the loop is the sum of its amounts. -/
theorem get_tally (entries : List (κ × ℤ)) (k : κ) :
    (tally entries).get k
      = sumWhere (fun e => decide (e.1 = k)) Prod.snd entries := by
  rw [← sumWhere_eq_get (keys_tally_nodup entries) k]
  exact sumWhere_tally (fun k' => decide (k' = k)) entries

/-- With every key once, each entry is the one that is found. -/
theorem get_of_mem {m : Tally κ} (hm : m.keys.Nodup) :
    ∀ e ∈ m, m.get e.1 = e.2 := by
  induction m with
  | nil => exact nofun
  | cons e' m ih =>
      have hm' : e'.1 ∉ keys m ∧ (keys m).Nodup := List.nodup_cons.mp hm
      intro e he
      rw [get_cons]
      rcases List.mem_cons.mp he with rfl | he
      · rw [if_pos rfl]
      · have hne : e'.1 ≠ e.1 := fun h => hm'.1 (h ▸ List.mem_map_of_mem he)
        rw [if_neg hne, ih hm'.2 e he]

/-- **Totals determine a tally** up to the order of its keys. -/
theorem perm_of_get {m m' : Tally κ} (hm : m.keys.Nodup) (hm' : m'.keys.Nodup)
    (hkeys : ∀ k, k ∈ m.keys ↔ k ∈ m'.keys) (hget : ∀ k, m.get k = m'.get k) :
    m.Perm m' := by
  have hlist : ∀ {m : Tally κ}, m.keys.Nodup → m = m.keys.map fun k => (k, m.get k) := by
    intro m hm
    unfold keys
    rw [List.map_map]
    refine (List.map_id' m).symm.trans (List.map_congr_left fun e he => ?_)
    show e = (e.1, m.get e.1)
    rw [get_of_mem hm e he]
  rw [hlist hm, hlist hm', List.map_congr_left fun k _ => by rw [hget k]]
  exact ((List.perm_ext_iff_of_nodup hm hm').mpr hkeys).map _

/-- **Regrouping changes nothing**: amounts with the same keys and the same sum
at each key leave the same totals. -/
theorem tally_perm {es es' : List (κ × ℤ)}
    (hkeys : ∀ k, k ∈ es.map Prod.fst ↔ k ∈ es'.map Prod.fst)
    (hsum : ∀ k, sumWhere (fun e => decide (e.1 = k)) Prod.snd es
      = sumWhere (fun e => decide (e.1 = k)) Prod.snd es') :
    (tally es).Perm (tally es') := by
  apply perm_of_get (keys_tally_nodup es) (keys_tally_nodup es')
  · intro k
    rw [mem_keys_tally, mem_keys_tally, hkeys k]
  · intro k
    rw [get_tally, get_tally, hsum k]

/-- A sum none of whose groups is positive is not positive. -/
theorem sumWhere_nonpos_of_groups (p : α → Bool) (f : α → ℤ) (key : α → κ) {l : List α}
    (h : ∀ k, sumWhere (fun a => decide (key a = k) && p a) f l ≤ 0) :
    sumWhere p f l ≤ 0 := by
  set entries := (l.filter p).map fun a => (key a, f a) with hentries
  have hall : sumWhere p f l = sumWhere (fun _ => true) Prod.snd entries := by
    rw [hentries, sumWhere_map, sumWhere_filter]
    refine sumWhere_congr (fun a _ => ?_) fun _ _ _ => rfl
    simp
  have hgroup : ∀ k, sumWhere (fun e => decide (e.1 = k)) Prod.snd entries ≤ 0 := by
    intro k
    rw [hentries, sumWhere_map, sumWhere_filter]
    refine le_of_eq_of_le (sumWhere_congr (fun a _ => ?_) fun _ _ _ => rfl) (h k)
    exact Bool.and_comm _ _
  have hneg : 0 ≤ sumWhere (fun _ => true) (fun e => -e.2) (tally entries) := by
    refine sumWhere_nonneg fun e he _ => ?_
    have := hgroup e.1
    rw [← get_tally, get_of_mem (keys_tally_nodup entries) e he] at this
    omega
  rw [sumWhere_neg, sumWhere_tally (fun _ => true)] at hneg
  omega

end Tally

/-! ## §3. Insertion-ordered sets. -/

/-- The elements of `l` in the order of their first occurrence
(`[...new Set(l)]`). -/
def distinct [DecidableEq κ] (l : List κ) : List κ :=
  Tally.keys (Tally.tally (l.map fun k => (k, 0)))

section distinct

variable [DecidableEq κ]

theorem distinct_nodup (l : List κ) : (distinct l).Nodup :=
  Tally.keys_tally_nodup _

theorem mem_distinct {l : List κ} {k : κ} : k ∈ distinct l ↔ k ∈ l := by
  unfold distinct
  rw [Tally.mem_keys_tally, List.map_map]
  show k ∈ l.map (fun k => k) ↔ k ∈ l
  rw [List.map_id']

theorem contains_distinct (l : List κ) : (distinct l).contains = l.contains := by
  funext k
  rw [Bool.eq_iff_iff, List.contains_iff_mem, List.contains_iff_mem, mem_distinct]

/-- Nothing is dropped from a list that repeats nothing, and only then. -/
theorem distinct_length_iff {l : List κ} : (distinct l).length = l.length ↔ l.Nodup := by
  have hsub : (distinct l).Subperm l :=
    (distinct_nodup l).subperm fun k hk => mem_distinct.mp hk
  constructor
  · intro hlength
    exact (hsub.perm_of_length_le hlength.ge).nodup_iff.mp (distinct_nodup l)
  · intro hnodup
    refine List.Perm.length_eq ?_
    exact (List.perm_ext_iff_of_nodup (distinct_nodup l) hnodup).mpr fun _ => mem_distinct

/-- Two lists with the same members have the same ones left, in some order. -/
theorem distinct_perm {l l' : List κ} (h : ∀ k, k ∈ l ↔ k ∈ l') :
    (distinct l).Perm (distinct l') := by
  apply (List.perm_ext_iff_of_nodup (distinct_nodup l) (distinct_nodup l')).mpr
  intro k
  rw [mem_distinct, mem_distinct, h k]

end distinct

/-! ## §4. Sums split by key. -/

/-- A sum over keys without repetition of an amount that is 0 off one key. -/
theorem sum_single [DecidableEq κ] {ks : List κ} (hnd : ks.Nodup) {f : κ → ℤ} {k : κ}
    (hf : ∀ k' ∈ ks, k' ≠ k → f k' = 0) :
    (ks.map f).sum = if k ∈ ks then f k else 0 := by
  induction ks with
  | nil => rfl
  | cons k' ks ih =>
      have hnd' : k' ∉ ks ∧ ks.Nodup := List.nodup_cons.mp hnd
      have htail := ih hnd'.2 fun x hx => hf x (List.mem_cons_of_mem _ hx)
      rw [List.map_cons, List.sum_cons, htail]
      by_cases hk : k' = k
      · subst hk
        rw [if_neg hnd'.1, if_pos List.mem_cons_self, add_zero]
      · rw [hf k' List.mem_cons_self hk, zero_add]
        have hiff : k ∈ k' :: ks ↔ k ∈ ks := by
          rw [List.mem_cons]
          exact or_iff_right (Ne.symm hk)
        simp only [hiff]

/-- **A sum over the rows with one of several keys**, key by key. -/
theorem sumWhere_fibers [DecidableEq κ] (key : α → κ) (p : α → Bool) (f : α → ℤ) {ks : List κ}
    (hnd : ks.Nodup) (l : List α) :
    (ks.map fun k => sumWhere (fun a => decide (key a = k) && p a) f l).sum
      = sumWhere (fun a => decide (key a ∈ ks) && p a) f l := by
  induction l with
  | nil =>
      simp only [sumWhere_nil]
      exact List.sum_eq_zero fun x hx => (List.mem_map.mp hx).elim fun _ h => h.2.symm
  | cons a l ih =>
      simp only [sumWhere_cons]
      rw [List.sum_map_add, ih]
      congr 1
      -- the new row has one key
      rw [sum_single hnd (k := key a)]
      · by_cases hmem : key a ∈ ks
        · simp [hmem]
        · simp [hmem]
      · intro k _ hne
        simp [Ne.symm hne]

/-- Rows of one kind and rows of another. -/
theorem sumWhere_or (p q : α → Bool) (f : α → ℤ) {l : List α}
    (h : ∀ a ∈ l, p a = true → q a = false) :
    sumWhere (fun a => p a || q a) f l = sumWhere p f l + sumWhere q f l := by
  induction l with
  | nil => rfl
  | cons a l ih =>
      have hhead := h a List.mem_cons_self
      rw [sumWhere_cons, sumWhere_cons, sumWhere_cons,
        ih fun b hb => h b (List.mem_cons_of_mem a hb)]
      by_cases hp : p a = true
      · simp [hp, hhead hp]
        omega
      · simp [hp]
        omega

/-- **A sum over conditions no two of which a row meets** counts each row once. -/
theorem sumWhere_exclusive {ι : Type*} (p : ι → α → Bool) (f : α → ℤ) {l : List α} {is : List ι}
    (h : is.Pairwise fun i j => ∀ a ∈ l, p i a = true → p j a = false) :
    (is.map fun i => sumWhere (p i) f l).sum = sumWhere (fun a => is.any fun i => p i a) f l := by
  induction is with
  | nil =>
      symm
      exact sumWhere_eq_zero fun a _ ha => by simp at ha
  | cons i is ih =>
      obtain ⟨hi, his⟩ := List.pairwise_cons.mp h
      rw [List.map_cons, List.sum_cons, ih his, ← sumWhere_or]
      · simp only [List.any_cons]
      · intro a ha hp
        rw [List.any_eq_false]
        intro j hj
        simp [hi j hj a ha hp]

/-- One row of a table with distinct keys is the whole sum at its key. -/
theorem sumWhere_at_key [DecidableEq κ] (key : α → κ) (q : α → Bool) (f : α → ℤ) {l : List α}
    (hnd : (l.map key).Nodup) {a : α} (ha : a ∈ l) :
    sumWhere (fun x => decide (key x = key a) && q x) f l = if q a then f a else 0 := by
  induction l with
  | nil => cases ha
  | cons b l ih =>
      have hnd' : key b ∉ l.map key ∧ (l.map key).Nodup := List.nodup_cons.mp hnd
      rw [sumWhere_cons]
      rcases List.mem_cons.mp ha with rfl | ha
      · have hrest : sumWhere (fun x => decide (key x = key a) && q x) f l = 0 := by
          apply sumWhere_eq_zero
          intro x hx hp
          simp only [Bool.and_eq_true, decide_eq_true_eq] at hp
          exact absurd (hp.1 ▸ List.mem_map_of_mem hx) hnd'.1
        rw [hrest]
        simp
      · have hne : key b ≠ key a := fun h => hnd'.1 (h ▸ List.mem_map_of_mem ha)
        rw [ih hnd'.2 ha]
        simp [hne]

/-- **A sum does not change** while as many rows count: of a list that has only grown, and
of a condition that has only become wider. -/
theorem sumWhere_grown {p q : α → Bool} (f : α → ℤ) {l l' : List α} (hl : l.Sublist l')
    (hpq : ∀ a, p a = true → q a = true) (hcount : l'.countP q = l.countP p) :
    sumWhere q f l' = sumWhere p f l := by
  have hsub : (l.filter p).Sublist (l'.filter q) :=
    (List.monotone_filter_right l hpq).trans (hl.filter q)
  rw [List.countP_eq_length_filter, List.countP_eq_length_filter] at hcount
  unfold sumWhere
  rw [hsub.eq_of_length hcount.symm]

end OraOS.Lib
