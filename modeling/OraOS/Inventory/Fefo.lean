/-
  OraOS.Inventory.Fefo — what the allocation of prepared stock promises.

  `allocateFefo` filters the batches, sorts them by two keys and drains them.  What a
  kitchen asks of it names none of the three:

    * `Fefo`              — the specification;
    * `allocateFefo_spec` — the function meets it, and which of the equal lists of batches
                            it is given makes no difference.
-/
import OraOS.Inventory.Prep
import Mathlib.Data.Prod.Lex
import Mathlib.Order.WithBot

namespace OraOS.Inventory

open OraOS.Api
open OraOS.Lib

/-! ## §1. The specification. -/

/-- Not used up, and not expired. -/
def LiveBatch.Live (b : LiveBatch) (now : Instant) : Prop :=
  0 < b.remaining ∧ ∀ t ∈ b.expiresAt, now < t

/-- No expiry is later than any. -/
def LiveBatch.expiry (b : LiveBatch) : WithTop Instant :=
  match b.expiresAt with
  | some t => t
  | none => ⊤

/-- Batches come by expiry, and then by when they were made. -/
def fefoKey (b : LiveBatch) : Lex (WithTop Instant × Instant) := toLex (b.expiry, b.createdAt)

/-- The allocation of all that a batch has. -/
def LiveBatch.usedUp (b : LiveBatch) : Allocation := ⟨some b.id, b.remaining⟩

/-- What is asked of an allocation of `need`. -/
structure Fefo (batches : List LiveBatch) (need : ℤ) (now : Instant) (out : List Allocation) :
    Prop where
  positive : ∀ a ∈ out, 0 < a.quantity
  total : (out.map (·.quantity)).sum = max need 0
  once : (out.filterMap (·.prepBatchId)).Nodup
  within : ∀ a ∈ out, ∀ id ∈ a.prepBatchId,
    ∃ b ∈ batches, b.id = id ∧ b.Live now ∧ a.quantity ≤ b.remaining
  /-- An uncovered rest comes last, when every live batch is used up. -/
  remainder : ∀ front a back, out = front ++ a :: back → a.prepBatchId = none →
    back = [] ∧ ∀ b ∈ batches, b.Live now → b.usedUp ∈ out
  /-- A batch is touched when every live one before it is used up. -/
  priority : ∀ a ∈ out, ∀ b ∈ batches, a.prepBatchId = some b.id →
    ∀ b' ∈ batches, b'.Live now → fefoKey b' < fefoKey b → b'.usedUp ∈ out

/-- No two live batches are equal in both keys. -/
def NoTies (batches : List LiveBatch) (now : Instant) : Prop :=
  ∀ b ∈ batches, ∀ b' ∈ batches, b.Live now → b'.Live now → fefoKey b = fefoKey b' → b = b'

/-! ## §2. The queue. -/

/-- The filter of the loop picks the live batches. -/
theorem usable_iff {now : Instant} {b : LiveBatch} : b.usable now = true ↔ b.Live now := by
  unfold LiveBatch.usable LiveBatch.Live
  cases h : b.expiresAt with
  | none => simp
  | some t => simp

/-- The order of the queue is the order of the keys. -/
theorem fefoLe_iff {a b : LiveBatch} : fefoLe a b ↔ fefoKey a ≤ fefoKey b := by
  unfold fefoLe fefoKey LiveBatch.expiry
  rw [Prod.Lex.toLex_le_toLex]
  cases ha : a.expiresAt with
  | none =>
      cases hb : b.expiresAt with
      | none => simp
      | some y => simp
  | some x =>
      cases hb : b.expiresAt with
      | none => simp
      | some y => simp

instance : Std.Total fefoLe := ⟨fun a b => by
  rw [fefoLe_iff, fefoLe_iff]
  exact le_total _ _⟩

instance : IsTrans LiveBatch fefoLe := ⟨fun a b c hab hbc => by
  rw [fefoLe_iff] at hab hbc ⊢
  exact hab.trans hbc⟩

theorem mem_fefoQueue {batches : List LiveBatch} {now : Instant} {b : LiveBatch} :
    b ∈ fefoQueue batches now ↔ b ∈ batches ∧ b.Live now := by
  unfold fefoQueue
  rw [List.mem_insertionSort, List.mem_filter, usable_iff]

/-- In the order of their expiry. -/
theorem fefoQueue_sorted (batches : List LiveBatch) (now : Instant) :
    (fefoQueue batches now).Pairwise fun a b => fefoKey a ≤ fefoKey b :=
  (List.pairwise_insertionSort fefoLe _).imp fefoLe_iff.mp

theorem fefoQueue_ids {batches : List LiveBatch} (hids : (batches.map (·.id)).Nodup)
    (now : Instant) : ((fefoQueue batches now).map (·.id)).Nodup := by
  have hperm := (List.perm_insertionSort fefoLe (batches.filter (LiveBatch.usable now))).map (·.id)
  exact hperm.nodup_iff.mpr ((List.filter_sublist.map _).nodup hids)

/-- Without ties, the queue does not depend on the order the batches were read in. -/
theorem fefoQueue_perm {batches batches' : List LiveBatch} {now : Instant}
    (h : batches'.Perm batches) (hties : NoTies batches now) :
    fefoQueue batches' now = fefoQueue batches now := by
  refine List.Perm.eq_of_pairwise ?_ (fefoQueue_sorted batches' now) (fefoQueue_sorted batches now) ?_
  · intro a b ha hb hab hba
    obtain ⟨ha, halive⟩ := mem_fefoQueue.mp ha
    obtain ⟨hb, hblive⟩ := mem_fefoQueue.mp hb
    exact hties a (h.mem_iff.mp ha) b hb halive hblive (le_antisymm hab hba)
  · exact (List.perm_insertionSort fefoLe _).trans
      ((h.filter _).trans (List.perm_insertionSort fefoLe _).symm)

/-- In a sorted queue, what comes before a batch by key comes before it in the queue. -/
theorem mem_front {front back : List LiveBatch} {s b b' : LiveBatch}
    (hsorted : (front ++ s :: back).Pairwise fun a b => fefoKey a ≤ fefoKey b)
    (hb : b ∈ front ∨ b = s) (hb' : b' ∈ front ++ s :: back) (hlt : fefoKey b' < fefoKey b) :
    b' ∈ front := by
  obtain ⟨-, hback, hacross⟩ := List.pairwise_append.mp hsorted
  rcases List.mem_append.mp hb' with hfront | hlater
  · exact hfront
  · exfalso
    refine not_le.mpr hlt ?_
    rcases hb with hfront | rfl
    -- what stands behind the last one taken expires no sooner
    · exact hacross b hfront b' hlater
    · rcases List.mem_cons.mp hlater with rfl | hlater
      · exact le_refl _
      · exact List.rel_of_pairwise_cons hback hlater

/-! ## §3. The allocation. -/

/-- A need that is no need draws nothing. -/
theorem allocateFefo_of_nonpos {batches : List LiveBatch} {need : ℤ} (now : Instant)
    (h : need ≤ 0) : allocateFefo batches need now = [] := by
  unfold allocateFefo
  rw [drain_of_nonpos _ h]
  rfl

/-- **The shape of an allocation**: batches used up from the front of the queue, and then
either one that meets the rest or, after all of them, a rest that none meets. -/
theorem allocateFefo_shape (batches : List LiveBatch) {need : ℤ} (now : Instant)
    (h : 0 < need) :
    (∃ front s back q, fefoQueue batches now = front ++ s :: back ∧ q ≤ s.remaining
        ∧ allocateFefo batches need now = front.map (·.usedUp) ++ [⟨some s.id, q⟩])
      ∨ ∃ q, allocateFefo batches need now
          = (fefoQueue batches now).map (·.usedUp) ++ [⟨none, q⟩] := by
  -- batches that are used up whole, as allocations
  have hemptied : ∀ l : List LiveBatch,
      (emptied (l.map fun b => (b.id, b.remaining))).map (fun p => (⟨p.1, p.2⟩ : Allocation))
        = l.map (·.usedUp) := by
    intro l
    unfold emptied
    rw [List.map_map, List.map_map]
    rfl
  unfold allocateFefo
  rcases drain_shape ((fefoQueue batches now).map fun b => (b.id, b.remaining)) h with
    ⟨front, s, back, hqueue, -, hle, hpieces⟩ | ⟨-, hpieces⟩
  · obtain ⟨front', rest, hsplit, rfl, hrest⟩ := List.map_eq_append_iff.mp hqueue
    obtain ⟨b, back', rfl, rfl, -⟩ := List.map_eq_cons_iff.mp hrest
    left
    refine ⟨front', b, back', _, hsplit, hle, ?_⟩
    rw [hpieces, List.map_append, hemptied]
    rfl
  · right
    refine ⟨need - inStock ((fefoQueue batches now).map fun b => (b.id, b.remaining)), ?_⟩
    rw [hpieces, List.map_append, hemptied]
    rfl

/-- An element that is not in the front of a list is its last one, or after it. -/
theorem last_of_not_mem {α : Type*} {l front back : List α} {x a : α}
    (h : l ++ [x] = front ++ a :: back) (ha : a ∉ l) : back = [] := by
  rcases List.eq_nil_or_concat back with hnil | ⟨back', y, hback⟩
  · exact hnil
  · exfalso
    rw [hback, List.concat_eq_append, ← List.cons_append, ← List.append_assoc] at h
    have hl : l = front ++ a :: back' := List.append_inj_left' h rfl
    refine ha ?_
    rw [hl]
    exact List.mem_append_right _ List.mem_cons_self

/-- The batches that are used up, by their ids. -/
theorem filterMap_usedUp (l : List LiveBatch) :
    (l.map (·.usedUp)).filterMap (·.prepBatchId) = l.map (·.id) := by
  rw [List.filterMap_map]
  exact congrFun (List.filterMap_eq_map (f := fun b : LiveBatch => b.id)) l

section Spec

variable {batches : List LiveBatch} (hids : (batches.map (·.id)).Nodup) {need : ℤ}
  {now : Instant}

include hids

/-- A batch of the queue is known by its id. -/
theorem live_of_id {b b₀ : LiveBatch} (hb : b ∈ batches) (hb₀ : b₀ ∈ fefoQueue batches now)
    (h : b₀.id = b.id) : b₀ = b :=
  List.inj_on_of_nodup_map hids (mem_fefoQueue.mp hb₀).1 hb h

/-- The need is met by the last batch that is touched. -/
theorem fefo_met {front back : List LiveBatch} {s : LiveBatch} {q : ℤ} {out : List Allocation}
    (hqueue : fefoQueue batches now = front ++ s :: back) (hle : q ≤ s.remaining)
    (hout : out = front.map (·.usedUp) ++ [⟨some s.id, q⟩]) (hpos : ∀ a ∈ out, 0 < a.quantity)
    (hsum : (out.map (·.quantity)).sum = max need 0) : Fefo batches need now out := by
  have hmem : ∀ b ∈ front, b ∈ fefoQueue batches now := by
    intro b hb
    rw [hqueue]
    exact List.mem_append_left _ hb
  have hs : s ∈ fefoQueue batches now := by
    rw [hqueue]
    exact List.mem_append_right _ List.mem_cons_self
  have hcases : ∀ a ∈ out, (∃ b ∈ front, a = b.usedUp) ∨ a = ⟨some s.id, q⟩ := by
    intro a ha
    rw [hout] at ha
    rcases List.mem_append.mp ha with hfront | hlast
    · obtain ⟨b, hb, rfl⟩ := List.mem_map.mp hfront
      exact .inl ⟨b, hb, rfl⟩
    · exact .inr (List.mem_singleton.mp hlast)
  refine ⟨hpos, hsum, ?_, ?_, ?_, ?_⟩
  · rw [hout, List.filterMap_append, filterMap_usedUp]
    have hnodup := fefoQueue_ids hids now
    rw [hqueue, List.map_append, List.map_cons] at hnodup
    have hprefix : (front.map (·.id) ++ [s.id]).Sublist
        (front.map (·.id) ++ s.id :: back.map (·.id)) :=
      (List.Sublist.refl _).append (List.singleton_sublist.mpr List.mem_cons_self)
    exact hprefix.nodup hnodup
  · intro a ha id hid
    rcases hcases a ha with ⟨b, hb, rfl⟩ | rfl
    · cases hid
      obtain ⟨hb, hlive⟩ := mem_fefoQueue.mp (hmem b hb)
      exact ⟨b, hb, rfl, hlive, le_refl _⟩
    · cases hid
      obtain ⟨hs, hlive⟩ := mem_fefoQueue.mp hs
      exact ⟨s, hs, rfl, hlive, hle⟩
  -- nothing is left untagged: every piece is of a batch
  · intro f a r hsplit hnone
    have ha : a ∈ out := by
      rw [hsplit]
      exact List.mem_append_right _ List.mem_cons_self
    rcases hcases a ha with ⟨b, -, rfl⟩ | rfl <;> cases hnone
  · intro a ha b hb hid b' hb' hlive hlt
    have hsorted := fefoQueue_sorted batches now
    have hqueue' := mem_fefoQueue.mpr ⟨hb', hlive⟩
    rw [hqueue] at hsorted hqueue'
    have hpos : b ∈ front ∨ b = s := by
      rcases hcases a ha with ⟨b₀, hb₀, rfl⟩ | rfl
      · left
        rw [← live_of_id hids hb (hmem b₀ hb₀) (Option.some.inj hid)]
        exact hb₀
      · exact .inr (live_of_id hids hb hs (Option.some.inj hid)).symm
    rw [hout]
    exact List.mem_append_left _ (List.mem_map_of_mem (mem_front hsorted hpos hqueue' hlt))

/-- The need is more than all the batches have. -/
theorem fefo_short {q : ℤ} {out : List Allocation}
    (hout : out = (fefoQueue batches now).map (·.usedUp) ++ [⟨none, q⟩])
    (hpos : ∀ a ∈ out, 0 < a.quantity)
    (hsum : (out.map (·.quantity)).sum = max need 0) : Fefo batches need now out := by
  have hall : ∀ b ∈ batches, b.Live now → b.usedUp ∈ out := by
    intro b hb hlive
    rw [hout]
    exact List.mem_append_left _ (List.mem_map_of_mem (mem_fefoQueue.mpr ⟨hb, hlive⟩))
  refine ⟨hpos, hsum, ?_, ?_, ?_, fun _ _ _ _ _ b' hb' hlive _ => hall b' hb' hlive⟩
  · rw [hout, List.filterMap_append, filterMap_usedUp]
    show ((fefoQueue batches now).map (fun b : LiveBatch => b.id) ++ []).Nodup
    rw [List.append_nil]
    exact fefoQueue_ids hids now
  · intro a ha id hid
    rw [hout] at ha
    rcases List.mem_append.mp ha with hused | hlast
    · obtain ⟨b, hb, rfl⟩ := List.mem_map.mp hused
      cases hid
      obtain ⟨hb, hlive⟩ := mem_fefoQueue.mp hb
      exact ⟨b, hb, rfl, hlive, le_refl _⟩
    · rw [List.mem_singleton.mp hlast] at hid
      cases hid
  -- the piece without a batch is the last, and every live batch is used up before it
  · intro front a back hsplit hnone
    refine ⟨last_of_not_mem (hout.symm.trans hsplit) ?_, hall⟩
    intro hused
    obtain ⟨b, -, rfl⟩ := List.mem_map.mp hused
    cases hnone

/-- **FEFO allocation meets its specification**, and without ties it is the same for every
order of the batches. -/
theorem allocateFefo_spec (need : ℤ) (now : Instant) :
    Fefo batches need now (allocateFefo batches need now)
      ∧ (NoTies batches now → ∀ batches', batches'.Perm batches →
          allocateFefo batches' need now = allocateFefo batches need now) := by
  constructor
  · by_cases hneed : 0 < need
    · have hsum : ((allocateFefo batches need now).map (·.quantity)).sum = max need 0 := by
        rw [max_eq_left hneed.le]
        exact allocateFefo_sum batches now hneed.le
      rcases allocateFefo_shape batches now hneed with ⟨_, _, _, _, hqueue, hle, hout⟩ | ⟨_, hout⟩
      · exact fefo_met hids hqueue hle hout allocateFefo_pos hsum
      · exact fefo_short hids hout allocateFefo_pos hsum
    · have hnot : need ≤ 0 := not_lt.mp hneed
      rw [allocateFefo_of_nonpos now hnot]
      refine ⟨List.forall_mem_nil _, (max_eq_right hnot).symm, List.nodup_nil,
        List.forall_mem_nil _, ?_, List.forall_mem_nil _⟩
      intro front a back hsplit
      exact absurd hsplit (by simp)
  · intro hties batches' hperm
    unfold allocateFefo
    -- without ties the queue is the same in whatever order the batches are listed
    rw [fefoQueue_perm hperm hties]

end Spec

/-- Two live batches, and one that is expired. -/
def threeBatches : List LiveBatch := [⟨1, 4, none, 0⟩, ⟨2, 3, some 90, 5⟩, ⟨3, 9, some 10, 1⟩]

/-- Five of three batches, the first to expire first. -/
theorem allocateFefo_spec_threeBatches :
    Fefo threeBatches 5 50 [⟨some 2, 3⟩, ⟨some 1, 2⟩] := by
  have hids : (threeBatches.map (·.id)).Nodup := by decide
  exact (allocateFefo_spec hids 5 50).1

end OraOS.Inventory
