/-
  OraOS.Orders.BatchBounds — what remains of a prep batch is between nothing and
  what was made.

  Four operations write to a batch: preparing it, wasting from it, the sales whose
  FEFO allocation touches it, and the reversals that return what a sale drew.

    • below: an allocation or a waste takes at most what remains;
    • above: the rows of one order never come to more than nothing, so only the
      batch's own rows count, and those come to at most its yield.

  `BatchEffect` is what a request can do to the batches, `BatchInv` what all of
  them keep; `prepBatch_bounds` is the bound in every reachable state.
-/
import OraOS.Orders.Reversal
import OraOS.Orders.BatchEffect

namespace OraOS.Orders

open OraOS.Api
open OraOS.Lib
open OraOS.Inventory

/-! ## §1. Sums at one batch. -/

/-- What the batch's own rows come to: its yield, and what was wasted of it. -/
def ownOf (l : List StockMovement) (prepBatchId : Uuid) : ℤ :=
  ledgerSum (fun m => decide (m.prepBatchId = some prepBatchId)
    && decide (m.type ≠ .prepBatch) && m.orderId.isNone) l

/-- What the orders' rows come to at the batch. -/
def drawnOf (l : List StockMovement) (prepBatchId : Uuid) : ℤ :=
  ledgerSum (fun m => decide (m.prepBatchId = some prepBatchId)
    && decide (m.type ≠ .prepBatch) && m.orderId.isSome) l

/-- What remains of a batch is its own rows and what was drawn. -/
theorem remainingOf_eq (l : List StockMovement) (prepBatchId : Uuid) :
    remainingOf l prepBatchId = ownOf l prepBatchId + drawnOf l prepBatchId := by
  unfold remainingOf ownOf drawnOf ledgerSum
  induction l with
  | nil => rfl
  | cons m l ih =>
      simp only [sumWhere_cons, ih]
      cases m.orderId with
      | none =>
          simp
          ring
      | some id =>
          simp
          ring

theorem remainingOf_append (l l' : List StockMovement) (prepBatchId : Uuid) :
    remainingOf (l ++ l') prepBatchId = remainingOf l prepBatchId + remainingOf l' prepBatchId :=
  ledgerSum_append _ l l'

theorem ownOf_append (l l' : List StockMovement) (prepBatchId : Uuid) :
    ownOf (l ++ l') prepBatchId = ownOf l prepBatchId + ownOf l' prepBatchId :=
  ledgerSum_append _ l l'

/-- Rows of other batches, or of none, are not the batch's. -/
theorem remainingOf_other {l : List StockMovement} {prepBatchId : Uuid}
    (h : ∀ m ∈ l, m.prepBatchId ≠ some prepBatchId) : remainingOf l prepBatchId = 0 := by
  apply sumWhere_eq_zero
  intro m hm hp
  simp only [Bool.and_eq_true, decide_eq_true_eq] at hp
  exact absurd hp.1 (h m hm)

/-- Rows of orders are none of the batch's own. -/
theorem ownOf_other {l : List StockMovement} {prepBatchId : Uuid}
    (h : ∀ m ∈ l, m.prepBatchId = some prepBatchId → m.orderId ≠ none) :
    ownOf l prepBatchId = 0 := by
  apply sumWhere_eq_zero
  intro m hm hp
  simp only [Bool.and_eq_true, decide_eq_true_eq, Option.isNone_iff_eq_none] at hp
  exact absurd hp.2 (h m hm hp.1.1)

/-! ## §2. A sale draws at most what remains. -/

/-- What one prepared ingredient draws from a batch is none of it, or at most what
remains when the batch is of that ingredient. -/
theorem allocation_draw {db : Db} (hids : (db.prepBatches.map (·.id)).Nodup) {b : PrepBatch}
    (hb : b ∈ db.prepBatches) (hrem : 0 ≤ remainingOf db.movements b.id) (now : Instant)
    (ingredientId : Uuid) (need : ℤ) :
    sumWhere (fun a => decide (a.prepBatchId = some b.id)) (·.quantity)
        (allocateFefo (liveBatches db ingredientId) need now)
      ≤ if b.prepIngredientId = ingredientId then remainingOf db.movements b.id else 0 := by
  refine le_trans (allocateFefo_le _ _ _ _) ?_
  unfold liveBatches
  rw [sumWhere_map, sumWhere_filter]
  -- the batches have distinct ids, so one of them is drawn from
  have hkey := sumWhere_at_key (·.id)
    (fun x : PrepBatch => decide (x.prepIngredientId = ingredientId)
      && LiveBatch.usable now ⟨x.id, remainingOf db.movements x.id, x.expiresAt, x.createdAt⟩)
    (fun x => remainingOf db.movements x.id) hids hb
  have hsame : sumWhere (fun x : PrepBatch => decide (x.prepIngredientId = ingredientId)
        && ((fun l : LiveBatch => decide (l.id = b.id) && l.usable now) ∘ fun x : PrepBatch =>
          ⟨x.id, remainingOf db.movements x.id, x.expiresAt, x.createdAt⟩) x)
      ((fun l : LiveBatch => l.remaining) ∘ fun x : PrepBatch =>
        ⟨x.id, remainingOf db.movements x.id, x.expiresAt, x.createdAt⟩) db.prepBatches
      = sumWhere (fun x : PrepBatch => decide (x.id = b.id)
          && (decide (x.prepIngredientId = ingredientId)
            && LiveBatch.usable now
              ⟨x.id, remainingOf db.movements x.id, x.expiresAt, x.createdAt⟩))
        (fun x => remainingOf db.movements x.id) db.prepBatches := by
    refine sumWhere_congr (fun x _ => ?_) fun _ _ _ => rfl
    exact Bool.and_left_comm _ _ _
  rw [hsame, hkey]
  by_cases hi : b.prepIngredientId = ingredientId
  · rw [if_pos hi]
    split <;> omega
  · simp [hi]

/-- **A sale never overdraws a batch.** -/
theorem rowsOfEntries_draw {db : Db} (hids : (db.prepBatches.map (·.id)).Nodup) {b : PrepBatch}
    (hb : b ∈ db.prepBatches) (hrem : 0 ≤ remainingOf db.movements b.id) (now : Instant)
    (orderId actorUserId : Uuid) (entries : List (Uuid × ℤ)) :
    -remainingOf db.movements b.id
      ≤ sumWhere (fun m => decide (m.prepBatchId = some b.id)) (·.quantity)
          (rowsOfEntries db now orderId actorUserId entries) := by
  unfold rowsOfEntries
  dsimp only
  set totals := Tally.tally entries with htotals
  set prepared := distinct ((entries.map Prod.fst).filter (isPrepared db)) with hprepared
  -- the draw of one prepared ingredient
  set draw : Uuid → ℤ := fun i =>
    sumWhere (fun a => decide (a.prepBatchId = some b.id)) (·.quantity)
      (allocateFefo (liveBatches db i) (totals.get i) now) with hdraw
  have hnonneg : ∀ i, 0 ≤ draw i := fun i =>
    sumWhere_nonneg fun a ha _ => (allocateFefo_pos a ha).le
  have hle : ∀ i, draw i ≤ if b.prepIngredientId = i then remainingOf db.movements b.id else 0 :=
    fun i => allocation_draw hids hb hrem now i _
  have hraw : sumWhere (fun m => decide (m.prepBatchId = some b.id)) (·.quantity)
      ((totals.filter fun e => !prepared.contains e.1).map fun e =>
        consumptionRow orderId actorUserId e.1 none e.2) = 0 := by
    apply sumWhere_eq_zero
    intro m hm hp
    obtain ⟨e, -, rfl⟩ := List.mem_map.mp hm
    cases of_decide_eq_true hp
  have hrows : ∀ i, sumWhere (fun m => decide (m.prepBatchId = some b.id)) (·.quantity)
      ((allocateFefo (liveBatches db i) (totals.get i) now).map fun a =>
        consumptionRow orderId actorUserId i a.prepBatchId a.quantity) = -draw i := by
    intro i
    rw [sumWhere_map, hdraw]
    exact sumWhere_neg _ (fun a : Allocation => a.quantity) _
  have hoff : ∀ i ∈ prepared, i ≠ b.prepIngredientId → -draw i = 0 := by
    intro i _ hi
    have h1 := hnonneg i
    have h2 := hle i
    rw [if_neg fun h => hi h.symm] at h2
    omega
  rw [sumWhere_append, hraw, sumWhere_flatMap]
  simp only [hrows]
  rw [sum_single (hprepared ▸ distinct_nodup _) hoff]
  have h2 := hle b.prepIngredientId
  rw [if_pos rfl] at h2
  split <;> omega

/-! ## §3. The invariant. -/

structure BatchInv (db : Db) : Prop where
  ids : (db.prepBatches.map (·.id)).Nodup
  known : ∀ m ∈ db.movements, ∀ id ∈ m.prepBatchId, ∃ b ∈ db.prepBatches, b.id = id
  /-- the rows of an order are no raw legs -/
  tagged : ∀ m ∈ db.movements, m.orderId ≠ none → m.type ≠ .prepBatch
  own : ∀ b ∈ db.prepBatches, ownOf db.movements b.id ≤ b.actualQuantity
  remaining : ∀ b ∈ db.prepBatches, 0 ≤ remainingOf db.movements b.id

/-- **An append that respects the batches**: rows on known batches that add
nothing to what is a batch's own and overdraw none. -/
theorem BatchInv.append {db db' : Db} (hs : BatchInv db)
    (hbatches : db'.prepBatches = db.prepBatches) {new : List StockMovement}
    (hmovements : db'.movements = db.movements ++ new)
    (hknown : ∀ m ∈ new, ∀ id ∈ m.prepBatchId, ∃ b ∈ db.prepBatches, b.id = id)
    (htagged : ∀ m ∈ new, m.orderId ≠ none → m.type ≠ .prepBatch)
    (hown : ∀ b ∈ db.prepBatches, ownOf new b.id ≤ 0)
    (hdraw : ∀ b ∈ db.prepBatches, -remainingOf db.movements b.id ≤ remainingOf new b.id) :
    BatchInv db' := by
  refine ⟨?_, ?_, ?_, ?_, ?_⟩
  · rw [hbatches]
    exact hs.ids
  · rw [hbatches, hmovements]
    intro m hm
    rcases List.mem_append.mp hm with hm | hm
    · exact hs.known m hm
    · exact hknown m hm
  · rw [hmovements]
    intro m hm
    rcases List.mem_append.mp hm with hm | hm
    · exact hs.tagged m hm
    · exact htagged m hm
  · rw [hbatches, hmovements]
    intro b hb
    have h1 := hs.own b hb
    have h2 := hown b hb
    -- own rows that are added do not exceed what is allowed
    rw [ownOf_append]
    omega
  · rw [hbatches, hmovements]
    intro b hb
    have h := hdraw b hb
    rw [remainingOf_append]
    omega

/-- A step that leaves the batches leaves their bounds. -/
theorem BatchInv.still {db db' : Db} (hs : BatchInv db) (h : LeavesBatches db db') :
    BatchInv db' := by
  obtain ⟨new, hmovements, hnew⟩ := h.movements
  have hnone : ∀ (id : Uuid), ∀ m ∈ new, m.prepBatchId ≠ some id := by
    intro id m hm
    rw [(hnew m hm).1]
    exact nofun
  apply hs.append h.prepBatches hmovements
  · intro m hm id hid
    exact absurd hid (hnone id m hm)
  · intro m hm ho
    exact absurd (hnew m hm).2 ho
  · intro b _
    exact (ownOf_other fun m hm hb => absurd hb (hnone b.id m hm)).le
  · intro b hb
    have := hs.remaining b hb
    rw [remainingOf_other (hnone b.id)]
    omega

/-- A prepared ingredient is drawn from its own batches. -/
theorem rowsOfEntries_drawn {db : Db} {now : Instant} {orderId actorUserId : Uuid}
    {entries : List (Uuid × ℤ)} :
    ∀ m ∈ rowsOfEntries db now orderId actorUserId entries, ∀ id, m.prepBatchId = some id →
      ∃ b ∈ db.prepBatches, b.id = id ∧ m.ingredientId = b.prepIngredientId := by
  intro m hm id hid
  rcases List.mem_append.mp hm with hm | hm
  · obtain ⟨e, -, rfl⟩ := List.mem_map.mp hm
    cases hid
  · obtain ⟨i, -, hm⟩ := List.mem_flatMap.mp hm
    obtain ⟨a, ha, rfl⟩ := List.mem_map.mp hm
    obtain ⟨l, hl, hlid⟩ := allocateFefo_known ha hid
    obtain ⟨b, hb, rfl⟩ := List.mem_map.mp hl
    obtain ⟨hb, hi⟩ := List.mem_filter.mp hb
    have hsame : b.prepIngredientId = i := by simpa using hi
    exact ⟨b, hb, hlid, hsame.symm⟩

/-- **A sale draws no more than remains.** -/
theorem BatchInv.sold {db db' : Db} (hs : BatchInv db) {now : Instant}
    {orderId actorUserId : Uuid} {lines : List SoldLine} {new : List StockMovement}
    (hbatches : db'.prepBatches = db.prepBatches) (hmovements : db'.movements = db.movements ++ new)
    (hnew : new.map (·.toNewMovement) = depletionRows db now orderId actorUserId lines) :
    BatchInv db' := by
  -- everything the bounds ask of the new rows is a fact about the rows computed
  have hrow : ∀ m ∈ new, m.toNewMovement ∈ depletionRows db now orderId actorUserId lines :=
    fun m hm => hnew ▸ List.mem_map_of_mem hm
  apply hs.append hbatches hmovements
  · intro m hm id hid
    obtain ⟨b, hb, hsame, -⟩ := rowsOfEntries_drawn m.toNewMovement (hrow m hm) id hid
    exact ⟨b, hb, hsame⟩
  · intro m hm _
    rw [(depletionRows_tagged _ (hrow m hm)).2]
    decide
  · intro b _
    refine (ownOf_other fun m hm _ => ?_).le
    rw [(depletionRows_tagged _ (hrow m hm)).1]
    exact nofun
  · intro b hb
    have hdraw := rowsOfEntries_draw hs.ids hb (hs.remaining b hb) now orderId actorUserId
      (consumedEntries (recipesOf db.recipeItems lines) lines)
    refine le_trans hdraw (le_of_eq ?_)
    unfold remainingOf
    rw [ledgerSum_rows hnew]
    refine sumWhere_congr (fun m hm => ?_) fun _ _ _ => rfl
    have htype := (depletionRows_tagged m hm).2
    simp [htype]

/-- What a reversal returns to a batch is not negative. -/
theorem restockRows_return {movements : List StockMovement} {orderId actorUserId : Uuid}
    {toStatus : OrderStatus} {new : List StockMovement}
    (hnew : new.map (·.toNewMovement) = restockRows movements orderId actorUserId toStatus)
    (prepBatchId : Uuid) : 0 ≤ remainingOf new prepBatchId := by
  have hcancel := restockRows_cancel movements orderId actorUserId toStatus
    fun k => decide (k.2 = some prepBatchId)
  -- what an order gives back is minus what it consumed, and consumptions are negative
  have hconsumed : 0 ≤ -taggedSum (consumedOf movements orderId) orderId
      fun k => decide (k.2 = some prepBatchId) := by
    unfold taggedSum ledgerSum
    rw [← sumWhere_neg]
    apply sumWhere_nonneg
    intro m hm _
    have htype : m.type = .consumption := by
      have := (List.mem_filter.mp hm).2
      simp only [Bool.and_eq_true, decide_eq_true_eq] at this
      exact this.2
    have hdir := m.storable.direction_ok
    rw [htype] at hdir
    have : m.quantity < 0 := by simpa [StockMovementType.directionOk] using hdir
    omega
  rw [← hcancel] at hconsumed
  refine le_of_le_of_eq hconsumed ?_
  unfold remainingOf
  rw [ledgerSum_rows hnew]
  refine sumWhere_congr (fun m hm => ?_) fun _ _ _ => rfl
  obtain ⟨horder, htype⟩ := restockRows_tagged m hm
  simp [horder, htype]

/-- **A cancelled order gives back what it drew and no more.** -/
theorem BatchInv.returned {db db' : Db} (hs : BatchInv db) {orderId actorUserId : Uuid}
    {toStatus : OrderStatus} {new : List StockMovement}
    (hbatches : db'.prepBatches = db.prepBatches) (hmovements : db'.movements = db.movements ++ new)
    (hnew : new.map (·.toNewMovement) = restockRows db.movements orderId actorUserId toStatus) :
    BatchInv db' := by
  have hrow : ∀ m ∈ new,
      m.toNewMovement ∈ restockRows db.movements orderId actorUserId toStatus :=
    fun m hm => hnew ▸ List.mem_map_of_mem hm
  apply hs.append hbatches hmovements
  · -- the batches of the returned rows are those the sale drew from
    intro m hm id hid
    obtain ⟨t, ht, heq⟩ := List.mem_map.mp (hrow m hm)
    have hkey : t.1 ∈ (Tally.tally ((consumedOf db.movements orderId).map fun m =>
        ((m.ingredientId, m.prepBatchId), -m.quantity))).keys :=
      List.mem_map_of_mem (List.mem_filter.mp ht).1
    rw [Tally.mem_keys_tally, List.map_map] at hkey
    obtain ⟨c, hc, hct⟩ := List.mem_map.mp hkey
    refine hs.known c (List.mem_filter.mp hc).1 id ?_
    rw [← heq, ← hct] at hid
    exact hid
  · intro m hm _
    rw [(restockRows_tagged _ (hrow m hm)).2]
    decide
  · intro b _
    refine (ownOf_other fun m hm _ => ?_).le
    rw [(restockRows_tagged _ (hrow m hm)).1]
    exact nofun
  · intro b hb
    have h1 := hs.remaining b hb
    have h2 := restockRows_return hnew b.id
    omega

/-- What is written off was there. -/
theorem BatchInv.wasted {db db' : Db} (hs : BatchInv db) {b : PrepBatch} {row : StockMovement}
    (hb : b ∈ db.prepBatches) (hbatches : db'.prepBatches = db.prepBatches)
    (hmovements : db'.movements = db.movements ++ [row]) (hbatch : row.prepBatchId = some b.id)
    (htype : row.type = .waste) (horder : row.orderId = none)
    (hle : -row.quantity ≤ remainingOf db.movements b.id) : BatchInv db' := by
  have hneg : row.quantity < 0 := by
    have hdir := row.storable.direction_ok
    rw [htype] at hdir
    simpa [StockMovementType.directionOk] using hdir
  apply hs.append hbatches hmovements
  · intro m hm id hid
    obtain rfl := List.mem_singleton.mp hm
    rw [hbatch] at hid
    injection hid with hid
    exact ⟨b, hb, hid⟩
  · intro m hm ho
    obtain rfl := List.mem_singleton.mp hm
    exact absurd horder ho
  · intro x _
    unfold ownOf ledgerSum
    rw [sumWhere_cons, sumWhere_nil]
    split <;> omega
  · intro x hx
    have hrem := hs.remaining x hx
    unfold remainingOf ledgerSum
    rw [sumWhere_cons, sumWhere_nil]
    -- the one batch it names had enough, and the others lose nothing
    by_cases hid : b.id = x.id
    · have hfull : -row.quantity ≤ remainingOf db.movements x.id := hid ▸ hle
      unfold remainingOf ledgerSum at hfull hrem
      split <;> omega
    · have hne : ¬ (decide (row.prepBatchId = some x.id)
          && decide (row.type ≠ .prepBatch)) = true := by
        rw [hbatch]
        simp [hid]
      rw [if_neg hne]
      unfold remainingOf ledgerSum at hrem
      omega

/-- The rows of a new batch put its yield into it: the raw legs do not count. -/
theorem batchRows_sum {ctx : TenantContext} (b : PrepBatch) (prepIngredientId : Uuid)
    (components : List Component) (q : NewMovement → Bool)
    (hq : ∀ m, q m = true ↔ m.prepBatchId = some b.id ∧ m.type ≠ .prepBatch ∧ m.orderId = none) :
    sumWhere q (·.quantity)
        (batchRows ctx b.id prepIngredientId components b.actualQuantity) = b.actualQuantity := by
  have hactual := b.quantities_valid.2
  unfold batchRows
  dsimp only
  rw [sumWhere_append]
  -- the draws of the components are not the batch's own rows
  have hraw : ∀ l : List NewMovement, (∀ m ∈ l, m.type = .prepBatch) →
      sumWhere q (·.quantity) l = 0 := by
    intro l hl
    apply sumWhere_eq_zero
    intro m hm hp
    exact absurd (hl m hm) ((hq m).mp hp).2.1
  rw [hraw _ fun m hm => by
    obtain ⟨c, -, rfl⟩ := List.mem_map.mp hm
    rfl]
  by_cases h : 0 < b.actualQuantity
  · rw [if_pos h, sumWhere_cons, sumWhere_nil,
      if_pos ((hq _).mpr ⟨rfl, by simp only [ne_eq, reduceCtorEq, not_false_eq_true], rfl⟩)]
    show 0 + (b.actualQuantity + 0) = b.actualQuantity
    omega
  · rw [if_neg h, sumWhere_nil]
    omega

/-- A new batch starts with what came out of the pot. -/
theorem BatchInv.prepared {db db' : Db} (hs : BatchInv db) {ctx : TenantContext} {b : PrepBatch}
    {prepIngredientId : Uuid} {components : List Component} {new : List StockMovement}
    (hfresh : ∀ x ∈ db.prepBatches, x.id ≠ b.id)
    (hbatches : db'.prepBatches = db.prepBatches ++ [b])
    (hmovements : db'.movements = db.movements ++ new)
    (hnew : new.map (·.toNewMovement)
      = batchRows ctx b.id prepIngredientId components b.actualQuantity) : BatchInv db' := by
  have hrow : ∀ m ∈ new, m.prepBatchId = some b.id ∧ m.orderId = none := by
    intro m hm
    have hmem : m.toNewMovement ∈ batchRows ctx b.id prepIngredientId components
        b.actualQuantity := hnew ▸ List.mem_map_of_mem hm
    refine ⟨?_, batchRows_untagged _ hmem⟩
    rcases List.mem_append.mp hmem with hmem | hmem
    · obtain ⟨c, -, hc⟩ := List.mem_map.mp hmem
      rw [← hc]
    · split at hmem
      · rw [List.mem_singleton.mp hmem]
      · cases hmem
  -- the other batches see none of the new rows, the new batch none of the old ones
  have hother : ∀ x ∈ db.prepBatches, ∀ m ∈ new, m.prepBatchId ≠ some x.id := by
    intro x hx m hm hid
    rw [(hrow m hm).1] at hid
    injection hid with hid
    exact hfresh x hx hid.symm
  have hold : ∀ m ∈ db.movements, m.prepBatchId ≠ some b.id := by
    intro m hm hid
    obtain ⟨x, hx, hxid⟩ := hs.known m hm b.id hid
    exact hfresh x hx hxid
  have hown : ownOf new b.id = b.actualQuantity := by
    unfold ownOf
    rw [ledgerSum_rows hnew]
    apply batchRows_sum
    intro m
    simp [and_assoc]
  have hremaining : remainingOf new b.id = b.actualQuantity := by
    rw [← hown]
    unfold remainingOf ownOf ledgerSum
    refine sumWhere_congr (fun m hm => ?_) fun _ _ _ => rfl
    simp [(hrow m hm).2]
  refine ⟨?_, ?_, ?_, ?_, ?_⟩
  · rw [hbatches]
    exact nodup_keys_append hs.ids hfresh
  · rw [hbatches, hmovements]
    intro m hm id hid
    rcases List.mem_append.mp hm with hm | hm
    · obtain ⟨x, hx, hxid⟩ := hs.known m hm id hid
      exact ⟨x, List.mem_append_left _ hx, hxid⟩
    · rw [(hrow m hm).1] at hid
      injection hid with hid
      exact ⟨b, List.mem_append_right _ (List.mem_singleton_self b), hid⟩
  · rw [hmovements]
    intro m hm ho
    rcases List.mem_append.mp hm with hm | hm
    · exact hs.tagged m hm ho
    · exact absurd (hrow m hm).2 ho
  · rw [hbatches, hmovements]
    intro x hx
    rw [ownOf_append]
    rcases List.mem_append.mp hx with hx | hx
    · have := hs.own x hx
      rw [ownOf_other fun m hm hid => absurd hid (hother x hx m hm)]
      omega
    · obtain rfl := List.mem_singleton.mp hx
      rw [hown, ownOf_other fun m hm hid => absurd hid (hold m hm)]
      omega
  · rw [hbatches, hmovements]
    intro x hx
    rw [remainingOf_append]
    rcases List.mem_append.mp hx with hx | hx
    · have := hs.remaining x hx
      rw [remainingOf_other (hother x hx)]
      omega
    · obtain rfl := List.mem_singleton.mp hx
      have := x.quantities_valid.2
      rw [hremaining, remainingOf_other hold]
      omega

/-- Whatever a request does to batches, the bounds hold. -/
theorem BatchEffect.batchInv {db db' : Db} (h : BatchEffect db db') (hs : BatchInv db) :
    BatchInv db' := by
  cases h with
  | still h => exact hs.still h
  | sold hbatches hmovements hnew => exact hs.sold hbatches hmovements hnew
  | returned hbatches hmovements hnew => exact hs.returned hbatches hmovements hnew
  | prepared hfresh hbatches hmovements hnew => exact hs.prepared hfresh hbatches hmovements hnew
  | wasted hb hbatches hmovements hbatch htype horder hle =>
      exact hs.wasted hb hbatches hmovements hbatch htype horder hle

/-! ## §4. Orders put nothing into a batch. -/

/-- **What the orders drew from a batch is never negative**: an order that stands
only consumed, and one that was called off cancels. -/
theorem drawnOf_nonpos {db : Db} (hs : BatchInv db) (hstock : StockInv db) (prepBatchId : Uuid) :
    drawnOf db.movements prepBatchId ≤ 0 := by
  unfold drawnOf ledgerSum
  apply Tally.sumWhere_nonpos_of_groups _ _ (fun m : StockMovement => m.orderId)
  intro k
  -- the rows of one order, or of none
  by_cases hexists : ∃ m ∈ db.movements, m.orderId = k ∧ m.orderId.isSome = true
  · obtain ⟨m₀, hm₀, rfl, hsome⟩ := hexists
    obtain ⟨id, hid⟩ := Option.isSome_iff_exists.mp hsome
    obtain ⟨o, ho, rfl⟩ := hstock.known m₀ hm₀ id hid
    rw [hid]
    cases hrev : isReversed o.status with
    | false =>
        have hneg : 0 ≤ sumWhere (fun m : StockMovement => decide (m.orderId = some o.id)
            && (decide (m.prepBatchId = some prepBatchId) && decide (m.type ≠ .prepBatch)
              && m.orderId.isSome)) (fun m => -m.quantity) db.movements := by
          apply sumWhere_nonneg
          intro m hm hp
          simp only [Bool.and_eq_true, decide_eq_true_eq] at hp
          have hdir := m.storable.direction_ok
          rw [hstock.consumed o ho hrev m hm hp.1] at hdir
          have : m.quantity < 0 := by simpa [StockMovementType.directionOk] using hdir
          omega
        rw [sumWhere_neg] at hneg
        exact neg_nonneg.mp hneg
    | true =>
        have hzero := hstock.returned o ho hrev fun k => decide (k.2 = some prepBatchId)
        refine le_of_eq (Eq.trans ?_ hzero)
        unfold taggedSum ledgerSum
        refine sumWhere_congr (fun m hm => ?_) fun _ _ _ => rfl
        by_cases htag : m.orderId = some o.id
        · have htype := hs.tagged m hm (by rw [htag]; exact nofun)
          simp [htag, htype]
        · simp [htag]
  · refine le_of_eq (sumWhere_eq_zero ?_)
    intro m hm hp
    simp only [Bool.and_eq_true, decide_eq_true_eq] at hp
    exact absurd ⟨m, hm, hp.1, hp.2.2⟩ hexists

/-! ## §5. Every run. -/

/-- One request after the other, from before the first batch. -/
def kitchen : System Server Request where
  init s := Opening s ∧ s.db.prepBatches = [] ∧ ∀ m ∈ s.db.movements, m.prepBatchId = none
  step := serial.step

/-- A run that starts with sound batches is a run of the API. -/
theorem kitchen_serial {s : Server} (h : kitchen.Reachable s) : serial.Reachable s := by
  induction h with
  | init h0 => exact .init h0.1
  | step _ hstep ih => exact ih.step hstep

/-- **The bounds hold in every state the kitchen can reach.** -/
theorem kitchen_batchInv {s : Server} (h : kitchen.Reachable s) : BatchInv s.db := by
  refine h.invariant (fun s => BatchInv s.db) ?_ ?_
  · intro s hinit
    obtain ⟨hopen, hnone, hmovements⟩ := hinit
    refine ⟨?_, ?_, ?_, ?_, ?_⟩
    · rw [hnone]
      exact List.nodup_nil
    · intro m hm id hid
      rw [hmovements m hm] at hid
      cases hid
    · intro m hm ho
      exact absurd (hopen.movements m hm) ho
    · rw [hnone]
      exact List.forall_mem_nil _
    · rw [hnone]
      exact List.forall_mem_nil _
  · intro s r s' hs hstep
    exact (perform_batchEffect hstep).batchInv hs

/-- **What remains of a batch is between nothing and its yield**, in every
reachable state. -/
theorem prepBatch_bounds {s : Server} (h : kitchen.Reachable s) {b : PrepBatch}
    (hb : b ∈ s.db.prepBatches) :
    0 ≤ remainingOf s.db.movements b.id ∧ remainingOf s.db.movements b.id ≤ b.actualQuantity := by
  have hinv := kitchen_batchInv h
  have hdrawn := drawnOf_nonpos hinv (serial_stockInv (kitchen_serial h)) b.id
  have hown := hinv.own b hb
  refine ⟨hinv.remaining b hb, ?_⟩
  rw [remainingOf_eq]
  omega

/-- Curd is made from milk here. -/
def curdKitchen : Server :=
  ⟨{ lassiBar with
      ingredients := [⟨4, "Curd", none, true, true, some 1000, some 48⟩,
        ⟨8, "Milk", none, true, false, none, none⟩]
      prepRecipeItems := [⟨4, 8, 1000, by decide, by decide⟩]
      movements := [⟨⟨8, .purchase, 5000, none, none, none, none, none, none, none⟩,
        ⟨rfl, nofun, nofun, rfl, by decide⟩⟩] }, []⟩

/-- A batch made, a lassi sold from it, some of it thrown away, the lassi voided. -/
def curdDay : List Request :=
  [.stock cashier (.createBatch ⟨30, 0⟩ ["B-1"] 4
      ⟨500, none, none, none, none, fiveHundred_within, absent_within⟩),
    .create cashier ⟨20, 1⟩ (lassiOrder none none none),
    .stock cashier (.wasteBatch 30 ⟨100, none, none, by decide⟩),
    .updateStatus cashier 2 20 .voided none]

theorem curdKitchen_init : kitchen.init curdKitchen := by
  have hmovements : ∀ m ∈ curdKitchen.db.movements, m.orderId = none ∧ m.prepBatchId = none := by
    intro m hm
    obtain rfl := List.mem_singleton.mp hm
    exact ⟨rfl, rfl⟩
  exact ⟨⟨rfl, rfl, rfl, rfl, fun m hm => (hmovements m hm).1, List.forall_mem_nil _, rfl⟩, rfl,
    fun m hm => (hmovements m hm).2⟩

/-- A sequence of requests that all succeed is a run. -/
theorem kitchen_after {rs : List Request} {s : Server} (h0 : kitchen.init s)
    (h : (System.replay serve rs s).isSome = true) : kitchen.Reachable (after rs s) :=
  System.replay_reachable (M := kitchen) (fun _ _ _ => serve_step) rs s h0 (replay_after h)

/-- Curd is prepared, sold from, and written off; some remains. -/
theorem prepBatch_bounds_curd :
    ∃ b ∈ (after curdDay curdKitchen).db.prepBatches,
      0 ≤ remainingOf (after curdDay curdKitchen).db.movements b.id
        ∧ remainingOf (after curdDay curdKitchen).db.movements b.id ≤ b.actualQuantity :=
  ⟨_, List.mem_singleton_self _, prepBatch_bounds (kitchen_after curdKitchen_init rfl)
    (List.mem_singleton_self _)⟩

end OraOS.Orders
