/-
  OraOS.Lib.Paging — reading a table page by page, from a cursor.

  A page has the rows with the largest keys below the cursor, which is the last key of the
  page before.  The table may grow between the requests, if every new key is above all of
  the old ones:

    * `GrowsAbove.keyset` — what grows leaves the rows below a cursor as they were;
    * `follow_keys`  — what is left of the rows, page after page;
    * `follow_all`   — all that was there at the first request is read once, in order.
-/
import Mathlib.Data.List.Sort

namespace OraOS.Lib

variable {κ ρ : Type*} [LinearOrder κ]

/-! ## §1. Pages. -/

/-- The keys below the cursor, if there is one, in descending order. -/
def keyset (cursor : Option κ) (keys : List κ) : List κ :=
  (keys.filter fun k => decide (∀ c ∈ cursor, k < c)).insertionSort (· ≥ ·)

/-- Pages are asked for until one is empty, each from the last key of the one before; `k`
requests have been made. -/
def follow (page : ℕ → Option κ → List ρ) (key : ρ → κ) : ℕ → ℕ → Option κ → Option (List ρ)
  | 0, _, _ => none
  | fuel + 1, k, cursor =>
      let rows := page k cursor
      match rows.getLast? with
      | none => some []
      | some last => (follow page key fuel (k + 1) (some (key last))).map (rows ++ ·)

/-- Between two requests rows may come in, with keys above all others. -/
def GrowsAbove (keys keys' : List κ) : Prop :=
  ∃ new : List κ, keys'.Perm (keys ++ new) ∧ ∀ n ∈ new, ∀ k ∈ keys, k < n

/-! ## §2. The rows below a cursor. -/

/-- A page comes in descending order. -/
theorem pairwise_keyset (cursor : Option κ) (keys : List κ) :
    (keyset cursor keys).Pairwise (· ≥ ·) :=
  List.pairwise_insertionSort (· ≥ ·) _

/-- They are the same in whatever order the rows are found. -/
theorem keyset_eq {cursor : Option κ} {keys l : List κ} (hl : l.Pairwise (· ≥ ·))
    (hperm : (keys.filter fun k => decide (∀ c ∈ cursor, k < c)).Perm l) :
    keyset cursor keys = l := by
  have hsorted : (keyset cursor keys).Perm l := (List.perm_insertionSort _ _).trans hperm
  exact hsorted.eq_of_pairwise (fun a b _ _ hab hba => le_antisymm hba hab)
    (pairwise_keyset cursor keys) hl

/-- Without a cursor all keys are ahead. -/
theorem keyset_none_perm (keys : List κ) : (keyset none keys).Perm keys := by
  refine (List.perm_insertionSort _ _).trans (List.Perm.of_eq ?_)
  rw [List.filter_eq_self]
  intro k _
  simp

/-- Distinct keys descend strictly. -/
theorem keyset_strict {keys : List κ} (hkeys : keys.Nodup) :
    (keyset none keys).Pairwise (· > ·) := by
  have hnodup : (keyset none keys).Nodup := (keyset_none_perm keys).nodup_iff.mpr hkeys
  exact ((pairwise_keyset none keys).and hnodup).imp fun h => lt_of_le_of_ne h.1 (Ne.symm h.2)

/-- **What grows leaves the rows below a cursor as they were.** -/
theorem GrowsAbove.keyset {keys keys' : List κ} (h : GrowsAbove keys keys') {c : κ}
    (hc : c ∈ keys) :
    Lib.keyset (some c) keys' = (Lib.keyset none keys).filter fun k => decide (k < c) := by
  obtain ⟨new, hperm, hnew⟩ := h
  refine keyset_eq ((pairwise_keyset none keys).filter _) ?_
  have hbelow : ∀ k : κ, decide (∀ b ∈ some c, k < b) = decide (k < c) := by
    intro k
    simp
  have hnone : new.filter (fun k => decide (k < c)) = [] := by
    rw [List.filter_eq_nil_iff]
    intro n hn
    simpa using (hnew n hn c hc).le
  simp only [hbelow]
  calc (keys'.filter fun k => decide (k < c)).Perm ((keys ++ new).filter fun k => decide (k < c)) :=
        hperm.filter _
    _ = keys.filter fun k => decide (k < c) := by
        rw [List.filter_append, hnone, List.append_nil]
    List.Perm _ ((Lib.keyset none keys).filter fun k => decide (k < c)) :=
        ((keyset_none_perm keys).filter _).symm

theorem GrowsAbove.refl (keys : List κ) : GrowsAbove keys keys :=
  ⟨[], by rw [List.append_nil], List.forall_mem_nil _⟩

theorem GrowsAbove.trans {keys keys' keys'' : List κ} (h : GrowsAbove keys keys')
    (h' : GrowsAbove keys' keys'') :
    GrowsAbove keys keys'' := by
  obtain ⟨new, hperm, hnew⟩ := h
  obtain ⟨new', hperm', hnew'⟩ := h'
  refine ⟨new ++ new', ?_, ?_⟩
  · rw [← List.append_assoc]
    exact hperm'.trans (hperm.append_right new')
  · intro n hn k hk
    rcases List.mem_append.mp hn with hin | hin
    · exact hnew n hin k hk
    · exact hnew' n hin k (hperm.mem_iff.mpr (List.mem_append_left _ hk))

/-- And so do requests, one after another. -/
theorem grows_of_steps {keys : ℕ → List κ} (h : ∀ k, GrowsAbove (keys k) (keys (k + 1))) :
    ∀ k, GrowsAbove (keys 0) (keys k)
  | 0 => .refl _
  | k + 1 => (grows_of_steps h k).trans (h k)

/-! ## §3. Page after page. -/

/-- Of strictly descending keys the first ones are above one that comes later. -/
theorem filter_below_mem {l l' : List κ} {c : κ} (h : (l ++ l').Pairwise (· > ·)) (hc : c ∈ l') :
    (l ++ l').filter (fun k => decide (k < c)) = l'.filter fun k => decide (k < c) := by
  have hfront : l.filter (fun k => decide (k < c)) = [] := by
    rw [List.filter_eq_nil_iff]
    intro k hk
    have hgt : k > c := (List.pairwise_append.mp h).2.2 k hk c hc
    simpa using hgt.le
  rw [List.filter_append, hfront, List.nil_append]

/-- Cut after a key, they leave those below it. -/
theorem filter_below_last {l l' : List κ} {c : κ} (h : (l ++ l').Pairwise (· > ·))
    (hc : l.getLast? = some c) : (l ++ l').filter (fun k => decide (k < c)) = l' := by
  obtain ⟨l₀, rfl⟩ := List.getLast?_eq_some_iff.mp hc
  obtain ⟨hl, -, hcut⟩ := List.pairwise_append.mp h
  have hfront : (l₀ ++ [c]).filter (fun k => decide (k < c)) = [] := by
    rw [filter_below_mem hl List.mem_cons_self]
    simp
  have hback : l'.filter (fun k => decide (k < c)) = l' := by
    rw [List.filter_eq_self]
    intro k hk
    exact decide_eq_true (hcut c (List.mem_append_right _ List.mem_cons_self) k hk)
  rw [List.filter_append, hfront, hback, List.nil_append]

variable {page : ℕ → Option κ → List ρ} {key : ρ → κ} {keys : ℕ → List κ} {size : ℕ}

/-- **Page after page**: with the keys `left` below the cursor, now and at every request to
come, just they are read. -/
theorem follow_keys (hsize : 0 < size)
    (hpage : ∀ k cursor, (page k cursor).map key = (keyset cursor (keys k)).take size) :
    ∀ (fuel k : ℕ) (cursor : Option κ) (left : List κ), left.Pairwise (· > ·) →
      keyset cursor (keys k) = left →
      (∀ j > k, ∀ c ∈ left, keyset (some c) (keys j) = left.filter fun k => decide (k < c)) →
      left.length < fuel →
      ∃ rows, follow page key fuel k cursor = some rows ∧ rows.map key = left
  | 0, _, _, _, _, _, _, hfuel => absurd hfuel (Nat.not_lt_zero _)
  | fuel + 1, k, cursor, left, hstrict, hnow, hlater, hfuel => by
      have hkeys := hpage k cursor
      rw [hnow] at hkeys
      unfold follow
      dsimp only
      cases hlast : (page k cursor).getLast? with
      | none =>
          -- nothing is left, or the page would have a row
          rw [List.getLast?_eq_none_iff.mp hlast, List.map_nil] at hkeys
          have hnil : left = [] := by
            rcases List.take_eq_nil_iff.mp hkeys.symm with hzero | hnil
            · omega
            · exact hnil
          exact ⟨[], rfl, hnil.symm⟩
      | some last =>
          have hcut : (left.take size).getLast? = some (key last) := by
            rw [← hkeys, List.getLast?_map, hlast]
            rfl
          have hsplit := hstrict
          rw [← List.take_append_drop size left] at hsplit
          have hbelow := filter_below_last hsplit hcut
          rw [List.take_append_drop] at hbelow
          have hmem : key last ∈ left := List.mem_of_mem_take (List.mem_of_getLast? hcut)
          have hrest := hlater (k + 1) (Nat.lt_succ_self k) (key last) hmem
          rw [hbelow] at hrest
          have hlength : (left.drop size).length < fuel := by
            have hpos : 0 < left.length := List.length_pos_of_mem hmem
            rw [List.length_drop]
            omega
          have hstill : ∀ j > k + 1, ∀ c ∈ left.drop size,
              keyset (some c) (keys j) = (left.drop size).filter fun k => decide (k < c) := by
            intro j hj c hc
            have hsome := filter_below_mem hsplit hc
            rw [List.take_append_drop] at hsome
            rw [hlater j (by omega) c (List.mem_of_mem_drop hc), hsome]
          obtain ⟨rows, hrows, hall⟩ := follow_keys hsize hpage fuel (k + 1) (some (key last))
            (left.drop size) (hstrict.sublist (List.drop_sublist _ _)) hrest hstill hlength
          refine ⟨page k cursor ++ rows, ?_, ?_⟩
          · dsimp only
            rw [hrows]
            rfl
          · rw [List.map_append, hkeys, hall, List.take_append_drop]

/-- **All that was there** at the first request is read once, in descending order, whatever
comes in. -/
theorem follow_all (hsize : 0 < size)
    (hpage : ∀ k cursor, (page k cursor).map key = (keyset cursor (keys k)).take size)
    (hkeys : (keys 0).Nodup) (hgrows : ∀ k, GrowsAbove (keys k) (keys (k + 1))) {fuel : ℕ}
    (hfuel : (keys 0).length < fuel) :
    ∃ rows, follow page key fuel 0 none = some rows ∧ (rows.map key).Pairwise (· > ·)
      ∧ (rows.map key).Perm (keys 0) := by
  have hperm := keyset_none_perm (keys 0)
  obtain ⟨rows, hrows, hall⟩ := follow_keys hsize hpage fuel 0 none (keyset none (keys 0))
    (keyset_strict hkeys) rfl
    (fun j _ c hc => (grows_of_steps hgrows j).keyset (hperm.mem_iff.mp hc))
    (by rwa [hperm.length_eq])
  refine ⟨rows, hrows, ?_, ?_⟩
  · rw [hall]
    exact keyset_strict hkeys
  · rw [hall]
    exact hperm

end OraOS.Lib
