/-
  OraOS.Inventory.Prep — the prep-inventory maths: scaling a recipe to a batch,
  shortfalls, and the FEFO allocation of prepared stock.

    * `allocateFefo_sum`  — the allocation covers the need exactly;
    * `allocateFefo_pos`  — every piece is positive;
    * `allocateFefo_le`   — no batch gives more than it has.
-/
import OraOS.Inventory.Ledger
import OraOS.Lib.Drain
import Mathlib.Data.List.Sort

namespace OraOS.Inventory

open OraOS.Api
open OraOS.Lib

/-- How much a batch needs of one ingredient. -/
structure Component where
  ingredientId : Uuid
  quantity : ℤ
  deriving DecidableEq, Repr

/-! ## §1. Scaling a recipe and its shortfalls. -/

/-- `scaleComponents`: the recipe at the planned yield. -/
def scaleComponents (components : List Component) (standardYield plannedYield : ℤ) :
    Except ApiError (List Component) :=
  if standardYield ≤ 0 then
    .error (.badRequest "Prep recipe has no yield to scale from")
  else if plannedYield ≤ 0 then
    .error (.badRequest "Batch quantity must be positive")
  else
    .ok (components.map fun c =>
      { c with quantity := roundDiv (c.quantity * plannedYield) standardYield })

/-- An ingredient there is too little of, and by how much. -/
structure Shortfall where
  ingredientId : Uuid
  need : ℤ
  available : ℤ
  short : ℤ
  deriving DecidableEq, Repr

/-- `findShortfalls`, the stock map given as a function. -/
def findShortfalls (components : List Component) (stock : Uuid → ℤ) : List Shortfall :=
  components.filterMap fun c =>
    if c.quantity ≤ 0 then none
    else if stock c.ingredientId < c.quantity then
      some ⟨c.ingredientId, c.quantity, stock c.ingredientId,
        c.quantity - stock c.ingredientId⟩
    else none

/-! ## §2. First expired, first out. -/

/-- A batch as the allocation sees it. -/
structure LiveBatch where
  id : Uuid
  remaining : ℤ
  expiresAt : Option Instant
  createdAt : Instant
  deriving DecidableEq, Repr

/-- Not used up and not expired at `now`. -/
def LiveBatch.usable (now : Instant) (b : LiveBatch) : Bool :=
  decide (0 < b.remaining) &&
    match b.expiresAt with
    | none => true
    | some t => decide (now < t)

/-- The sort order: earlier expiry first, no expiry last, then earlier made. -/
def fefoLe (a b : LiveBatch) : Prop :=
  match a.expiresAt, b.expiresAt with
  | some x, some y => x < y ∨ x = y ∧ a.createdAt ≤ b.createdAt
  | some _, none => True
  | none, some _ => False
  | none, none => a.createdAt ≤ b.createdAt

instance : DecidableRel fefoLe := fun a b => by
  unfold fefoLe
  split <;> infer_instance

/-- A part of a draw: from one batch, or from stock that has none. -/
structure Allocation where
  prepBatchId : Option Uuid
  quantity : ℤ
  deriving DecidableEq, Repr

/-- The usable batches in the order they are drawn from. -/
def fefoQueue (batches : List LiveBatch) (now : Instant) : List LiveBatch :=
  (batches.filter (LiveBatch.usable now)).insertionSort fefoLe

/-- `allocateFefo`: drains the queue, the uncovered rest last under no batch. -/
def allocateFefo (batches : List LiveBatch) (need : ℤ) (now : Instant) :
    List Allocation :=
  (drain ((fefoQueue batches now).map fun b => (b.id, b.remaining)) need).map
    fun p => ⟨p.1, p.2⟩

/-- The queue holds batches with something left. -/
theorem fefoQueue_remaining_pos {batches : List LiveBatch} {now : Instant} :
    ∀ s ∈ (fefoQueue batches now).map (fun b => (b.id, b.remaining)), 0 < s.2 := by
  intro s hs
  obtain ⟨b, hb, rfl⟩ := List.mem_map.mp hs
  have hmem : b ∈ batches.filter (LiveBatch.usable now) :=
    (List.perm_insertionSort fefoLe _).mem_iff.mp hb
  have husable := (List.mem_filter.mp hmem).2
  unfold LiveBatch.usable at husable
  simp only [Bool.and_eq_true, decide_eq_true_eq] at husable
  exact husable.1

/-- **The allocation covers the need exactly.** -/
theorem allocateFefo_sum (batches : List LiveBatch) {need : ℤ} (now : Instant)
    (h : 0 ≤ need) :
    ((allocateFefo batches need now).map (·.quantity)).sum = need := by
  unfold allocateFefo
  rw [List.map_map]
  exact drain_sum _ h

/-- No part of a draw is empty. -/
theorem allocateFefo_pos {batches : List LiveBatch} {need : ℤ} {now : Instant} :
    ∀ a ∈ allocateFefo batches need now, 0 < a.quantity := by
  intro a ha
  obtain ⟨p, hp, rfl⟩ := List.mem_map.mp ha
  exact drain_pos fefoQueue_remaining_pos p hp

/-- A part is drawn from a batch there is. -/
theorem allocateFefo_known {batches : List LiveBatch} {need : ℤ} {now : Instant}
    {a : Allocation} {id : Uuid} (ha : a ∈ allocateFefo batches need now)
    (hid : a.prepBatchId = some id) : ∃ b ∈ batches, b.id = id := by
  obtain ⟨p, hp, rfl⟩ := List.mem_map.mp ha
  obtain ⟨s, hs, hkey⟩ := drain_known hp hid
  obtain ⟨b, hb, rfl⟩ := List.mem_map.mp hs
  have hmem : b ∈ batches.filter (LiveBatch.usable now) :=
    (List.perm_insertionSort fefoLe _).mem_iff.mp hb
  exact ⟨b, (List.mem_filter.mp hmem).1, hkey⟩

/-- **No batch is overdrawn**: an allocation takes at most what is usable of it. -/
theorem allocateFefo_le (batches : List LiveBatch) (need : ℤ) (now : Instant) (id : Uuid) :
    sumWhere (fun a => decide (a.prepBatchId = some id)) (·.quantity)
        (allocateFefo batches need now)
      ≤ sumWhere (fun b => decide (b.id = id) && b.usable now) (·.remaining) batches := by
  have hpos : ∀ s ∈ (fefoQueue batches now).map (fun b => (b.id, b.remaining)), 0 ≤ s.2 :=
    fun s hs => (fefoQueue_remaining_pos s hs).le
  have hdrain := drain_le id need hpos
  unfold allocateFefo
  rw [sumWhere_map]
  refine le_trans hdrain (le_of_eq ?_)
  -- the queue is the usable batches in another order
  rw [sumWhere_map]
  unfold fefoQueue
  rw [sumWhere_perm (List.perm_insertionSort fefoLe _), sumWhere_filter]
  refine sumWhere_congr (fun b _ => ?_) fun _ _ _ => rfl
  exact Bool.and_comm _ _

/-- Earliest expiry first; the expired batch 3 is passed over. -/
example :
    allocateFefo [⟨1, 4, none, 0⟩, ⟨2, 3, some 90, 5⟩, ⟨3, 9, some 10, 1⟩] 10 50
      = [⟨some 2, 3⟩, ⟨some 1, 4⟩, ⟨none, 3⟩] := by decide

end OraOS.Inventory
