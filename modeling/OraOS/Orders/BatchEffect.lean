/-
  OraOS.Orders.BatchEffect — what each request does to the prep batches and to the
  movements tagged with one.

    * `BatchEffect`         — nothing, a sale, a return, a new batch, or waste;
    * `perform_batchEffect` — **the step inversion**, whichever the request.
-/
import OraOS.Orders.Serial

namespace OraOS.Orders

open OraOS.Api
open OraOS.Lib
open OraOS.Inventory

/-! ## §1. The effects. -/

/-- No batch changes, and the new movements name neither a batch nor an order. -/
structure LeavesBatches (db db' : Db) : Prop where
  prepBatches : db'.prepBatches = db.prepBatches
  movements : ∃ new : List StockMovement, db'.movements = db.movements ++ new
    ∧ ∀ m ∈ new, m.prepBatchId = none ∧ m.orderId = none

/-- What writes neither batches nor movements leaves them alone. -/
theorem LeavesBatches.of_eq {db db' : Db} (hb : db'.prepBatches = db.prepBatches)
    (hm : db'.movements = db.movements) : LeavesBatches db db' :=
  ⟨hb, [], hm.trans (List.append_nil _).symm, List.forall_mem_nil _⟩

/-- Movements without a batch leave the batches alone. -/
theorem LeavesBatches.of_createMany {db db' : Db} {rows : List NewMovement}
    {movements : List StockMovement} (h : createMany db.movements rows = .ok movements)
    (hrows : ∀ m ∈ rows, m.prepBatchId = none ∧ m.orderId = none)
    (hb : db'.prepBatches = db.prepBatches) (hm : db'.movements = movements) :
    LeavesBatches db db' := by
  obtain ⟨new, hnew, rfl⟩ := createMany_ok h
  refine ⟨hb, new, hm, ?_⟩
  intro m hmem
  exact hrows m.toNewMovement (hnew ▸ List.mem_map_of_mem hmem)

/-- What a request that succeeds does to batches and movements. -/
inductive BatchEffect (db db' : Db) : Prop where
  | still (h : LeavesBatches db db')
  /-- a placement or a resume -/
  | sold {now : Instant} {orderId actorUserId : Uuid} {lines : List SoldLine}
      {new : List StockMovement} (hbatches : db'.prepBatches = db.prepBatches)
      (hmovements : db'.movements = db.movements ++ new)
      (hnew : new.map (·.toNewMovement) = depletionRows db now orderId actorUserId lines)
  | returned {orderId actorUserId : Uuid} {toStatus : OrderStatus} {new : List StockMovement}
      (hbatches : db'.prepBatches = db.prepBatches)
      (hmovements : db'.movements = db.movements ++ new)
      (hnew : new.map (·.toNewMovement) = restockRows db.movements orderId actorUserId toStatus)
  | prepared {ctx : TenantContext} {b : PrepBatch} {prepIngredientId : Uuid}
      {components : List Component} {new : List StockMovement}
      (hfresh : ∀ x ∈ db.prepBatches, x.id ≠ b.id)
      (hbatches : db'.prepBatches = db.prepBatches ++ [b])
      (hmovements : db'.movements = db.movements ++ new)
      (hnew : new.map (·.toNewMovement)
        = batchRows ctx b.id prepIngredientId components b.actualQuantity)
  | wasted {b : PrepBatch} {row : StockMovement} (hb : b ∈ db.prepBatches)
      (hbatches : db'.prepBatches = db.prepBatches)
      (hmovements : db'.movements = db.movements ++ [row])
      (hbatch : row.prepBatchId = some b.id) (htype : row.type = .waste)
      (horder : row.orderId = none) (hle : -row.quantity ≤ remainingOf db.movements b.id)

/-! ## §2. The stock requests. -/

theorem writeMovement_ok {db db' : Db} {m : NewMovement} {row : StockMovement}
    (h : writeMovement db m = .ok (row, db')) :
    row.toNewMovement = m ∧ db' = db.withMovements (db.movements ++ [row]) := by
  simp only [writeMovement, bind_ok, pure_ok, found_ok] at h
  obtain ⟨movements, hins, row', hlast, hdb⟩ := h
  obtain ⟨r, hr, rfl⟩ := insertMovement_ok hins
  cases hdb
  rw [List.getLast?_concat] at hlast
  injection hlast with hlast
  subst hlast
  exact ⟨hr, rfl⟩

theorem writeMovement_leavesBatches {db db' : Db} {m : NewMovement} {row : StockMovement}
    (hb : m.prepBatchId = none) (ho : m.orderId = none)
    (h : writeMovement db m = .ok (row, db')) : LeavesBatches db db' := by
  obtain ⟨hrow, rfl⟩ := writeMovement_ok h
  refine ⟨rfl, [row], rfl, ?_⟩
  intro m' hm'
  obtain rfl := List.mem_singleton.mp hm'
  exact ⟨hrow ▸ hb, hrow ▸ ho⟩

/-- A write behind a key does what the write does, or nothing. -/
theorem writeOnce_batchEffect {db db' : Db} {key : Option String} {row : StockMovement}
    {write : Except ApiError (StockMovement × Db)}
    (hw : ∀ row' db'', write = .ok (row', db'') → BatchEffect db db'')
    (h : writeOnce db key write = .ok (row, db')) : BatchEffect db db' := by
  unfold writeOnce at h
  split at h
  next =>
    cases h
    exact .still (.of_eq rfl rfl)
  next => exact hw row db' h

/-- **A batch comes with the movement that fills it.** -/
theorem doCreateBatch_batchEffect {db db' : Db} {ctx : TenantContext} {env : Env}
    {code : String} {id : Uuid} {dto : CreateBatchDto} {batch : PrepBatch}
    (h : doCreateBatch db ctx env code id dto = .ok (batch, db')) : BatchEffect db db' := by
  simp only [doCreateBatch, bind_ok, require_ok] at h
  obtain ⟨_, -, _, -, _, -, _, -, _, -, _, hfresh, _, -, movements, hrows, h⟩ := h
  cases pure_ok.mp h
  obtain ⟨new, hnew, rfl⟩ := createMany_ok hrows
  exact .prepared (fun x hx => (hfresh x hx).1) rfl rfl hnew

theorem createBatchAttempts_batchEffect {db db' : Db} {ctx : TenantContext} {env : Env}
    {id : Uuid} {dto : CreateBatchDto} {batch : PrepBatch} {codes : List String}
    (h : createBatchAttempts db ctx env id dto codes = .ok (batch, db')) :
    BatchEffect db db' := by
  induction codes with
  | nil => cases h
  | cons code codes ih =>
      unfold createBatchAttempts at h
      split at h
      next result hdo =>
        cases h
        exact doCreateBatch_batchEffect hdo
      next =>
        split at h
        next =>
          cases h
          exact .still (.of_eq rfl rfl)
        -- the code was taken, the next one is tried
        next => exact ih h
      next => cases h

/-- The request does what its successful attempt does. -/
theorem createBatch_batchEffect {db db' : Db} {ctx : TenantContext} {env : Env}
    {codes : List String} {id : Uuid} {dto : CreateBatchDto} {batch : PrepBatch}
    (h : createBatch db ctx env codes id dto = .ok (batch, db')) : BatchEffect db db' := by
  unfold createBatch at h
  split at h
  next =>
    cases h
    exact .still (.of_eq rfl rfl)
  next => exact createBatchAttempts_batchEffect h

/-- Writing off takes from one batch. -/
theorem wasteBatch_batchEffect {db db' : Db} {ctx : TenantContext} {batchId : Uuid}
    {dto : WasteBatchDto} {row : StockMovement}
    (h : wasteBatch db ctx batchId dto = .ok (row, db')) : BatchEffect db db' := by
  refine writeOnce_batchEffect (fun row' db'' hw => ?_) h
  simp only [bind_ok, found_ok, require_ok] at hw
  obtain ⟨batch, hfind, _, hle, hw⟩ := hw
  obtain ⟨hrow, rfl⟩ := writeMovement_ok hw
  have hid : batch.id = batchId := by simpa using List.find?_some hfind
  subst hid
  -- the one row it writes takes from the batch, and no more than remains
  have hquantity : row'.quantity = -dto.quantity := by rw [hrow]
  refine .wasted (List.mem_of_find?_eq_some hfind) rfl rfl ?_ ?_ ?_ ?_
  · rw [hrow]
  · rw [hrow]
  · rw [hrow]
  · rw [hquantity]
    omega

/-- A movement by hand touches no batch. -/
theorem recordMovement_batchEffect {db db' : Db} {ctx : TenantContext}
    {ingredientId : Uuid} {dto : CreateMovementDto} {row : StockMovement}
    (h : recordMovement db ctx ingredientId dto = .ok (row, db')) : BatchEffect db db' := by
  obtain ⟨⟨type, sign⟩, -, h⟩ := bind_ok.mp h
  refine writeOnce_batchEffect (fun row' db'' hw => ?_) h
  obtain ⟨-, -, hw⟩ := bind_ok.mp hw
  obtain ⟨-, -, hw⟩ := bind_ok.mp hw
  exact .still (writeMovement_leavesBatches rfl rfl hw)

theorem recordAdjustment_batchEffect {db db' : Db} {ctx : TenantContext}
    {ingredientId : Uuid} {dto : CreateAdjustmentDto} {row : StockMovement}
    (h : recordAdjustment db ctx ingredientId dto = .ok (row, db')) : BatchEffect db db' := by
  obtain ⟨-, -, h⟩ := bind_ok.mp h
  refine writeOnce_batchEffect (fun row' db'' hw => ?_) h
  obtain ⟨-, -, hw⟩ := bind_ok.mp hw
  exact .still (writeMovement_leavesBatches rfl rfl hw)

theorem startAttempts_leavesBatches {db db' : Db} {ctx : TenantContext} {env : Env}
    {dto : StartStockCountDto} {count : StockCount} {codes : List String}
    (h : startAttempts db ctx env dto codes = .ok (count, db')) : LeavesBatches db db' := by
  induction codes with
  | nil => cases h
  | cons code codes ih =>
      unfold startAttempts at h
      split at h
      next => exact ih h
      next =>
        simp only [startWithCode, bind_ok] at h
        obtain ⟨_, -, _, -, _, -, _, -, h⟩ := h
        cases pure_ok.mp h
        exact .of_eq rfl rfl

theorem submitStockCount_leavesBatches {db db' : Db} {ctx : TenantContext} {now : Instant}
    {id : Uuid} {dto : SubmitStockCountDto}
    (h : submitStockCount db ctx now id dto = .ok db') : LeavesBatches db db' := by
  obtain ⟨count, -, h⟩ := bind_ok.mp h
  split at h
  next =>
    cases pure_ok.mp h
    exact .of_eq rfl rfl
  next =>
    simp only [bind_ok] at h
    obtain ⟨_, -, _, -, _, -, movements, hrows, _, -, h⟩ := h
    cases pure_ok.mp h
    refine .of_createMany hrows ?_ rfl rfl
    intro m hm
    -- an adjustment is tagged with no batch
    obtain ⟨a, -, rfl⟩ := List.mem_map.mp hm
    exact ⟨rfl, rfl⟩

theorem transition_leavesBatches {db db' : Db} {ctx : TenantContext} {now : Instant}
    {id : Uuid} {toStatus : PurchaseOrderStatus}
    (h : Procurement.transition db ctx now id toStatus = .ok db') : LeavesBatches db db' := by
  simp only [Procurement.transition, bind_ok] at h
  obtain ⟨po, -, _, -, _, -, movements, hrows, h⟩ := h
  cases pure_ok.mp h
  refine .of_createMany hrows ?_ rfl rfl
  intro m hm
  split at hm
  -- a receipt is tagged with no batch
  · obtain ⟨it, -, rfl⟩ := List.mem_map.mp hm
    exact ⟨rfl, rfl⟩
  · cases hm

/-- **Every inventory request does one of these to the batches.** -/
theorem performStock_batchEffect {db db' : Db} {ctx : TenantContext} {r : StockRequest}
    (h : performStock db ctx r = .ok db') : BatchEffect db db' := by
  cases r with
  | catalogue c =>
      cases h
      exact .still (.of_eq rfl rfl)
  | setRecipe productId dto =>
      simp only [performStock, setRecipe, bind_ok, pure_ok] at h
      obtain ⟨_, -, _, -, _, -, rfl⟩ := h
      exact .still (.of_eq rfl rfl)
  | setPrepRecipe id dto =>
      obtain ⟨_, -, h⟩ := bind_ok.mp h
      obtain ⟨_, -, h⟩ := bind_ok.mp h
      split at h
      next => cases h
      next =>
        obtain ⟨_, -, h⟩ := bind_ok.mp h
        obtain ⟨_, -, h⟩ := bind_ok.mp h
        cases pure_ok.mp h
        exact .still (.of_eq rfl rfl)
  -- the two that touch a batch
  | createBatch env codes id dto =>
      obtain ⟨_, hok, h⟩ := bind_ok.mp h
      cases pure_ok.mp h
      exact createBatch_batchEffect hok
  | wasteBatch batchId dto =>
      obtain ⟨_, hok, h⟩ := bind_ok.mp h
      cases pure_ok.mp h
      exact wasteBatch_batchEffect hok
  | recordMovement ingredientId dto =>
      obtain ⟨_, hok, h⟩ := bind_ok.mp h
      cases pure_ok.mp h
      exact recordMovement_batchEffect hok
  | recordAdjustment ingredientId dto =>
      obtain ⟨_, hok, h⟩ := bind_ok.mp h
      cases pure_ok.mp h
      exact recordAdjustment_batchEffect hok
  | startStockCount env codes dto =>
      obtain ⟨_, hok, h⟩ := bind_ok.mp h
      cases pure_ok.mp h
      exact .still (startAttempts_leavesBatches hok)
  | submitStockCount now id dto => exact .still (submitStockCount_leavesBatches h)
  | cancelStockCount id =>
      simp only [performStock, cancelStockCount, bind_ok] at h
      obtain ⟨_, -, _, -, h⟩ := h
      cases pure_ok.mp h
      exact .still (.of_eq rfl rfl)
  | createPurchaseOrder env dto =>
      simp only [performStock, Procurement.createPurchaseOrder, bind_ok] at h
      obtain ⟨_, -, _, -, _, -, _, -, h⟩ := h
      cases pure_ok.mp h
      exact .still (.of_eq rfl rfl)
  | movePurchaseOrder now id toStatus => exact .still (transition_leavesBatches h)

/-! ## §3. Every request. -/

/-- **The step inversion**, seen from the batches. -/
theorem perform_batchEffect {s s' : Server} {r : Request} (h : perform s r = .ok s') :
    BatchEffect s.db s'.db := by
  cases r with
  | create ctx env dto =>
      obtain ⟨⟨o, db', hooks⟩, hok, h⟩ := bind_ok.mp h
      cases pure_ok.mp h
      -- a replay writes nothing; a new order that is placed draws
      rcases (create_ok hok).2 with ⟨-, rfl, -⟩ | ⟨hins, -⟩
      · exact .still (.of_eq rfl rfl)
      · obtain ⟨paid, moved, spent, redemptions, logs, hi, rfl⟩ := insert_ok hins
        have hmoved := hi.moved
        unfold DepletedAtPlacement at hmoved
        split at hmoved
        · refine .still ⟨rfl, moved, rfl, ?_⟩
          rw [List.map_eq_nil_iff.mp hmoved]
          exact List.forall_mem_nil _
        · exact .sold rfl rfl hmoved
  | updateStatus ctx now orderId toStatus reason =>
      obtain ⟨db', hok, h⟩ := bind_ok.mp h
      cases pure_ok.mp h
      obtain ⟨o, -, hcase⟩ := updateStatus_ok hok
      rcases hcase with ⟨-, rfl⟩ | ⟨-, moved, logs, hmoved, rfl⟩
      · exact .still (.of_eq rfl rfl)
      -- a change that resumes draws, one that reverses returns, any other leaves the stock
      · unfold MovedOnChange at hmoved
        split at hmoved
        next => exact .sold rfl rfl hmoved
        next =>
          split at hmoved
          next => exact .returned rfl rfl hmoved
          next =>
            refine .still ⟨rfl, moved, rfl, ?_⟩
            rw [List.map_eq_nil_iff.mp hmoved]
            exact List.forall_mem_nil _
  | recordPayment ctx env orderId dto =>
      obtain ⟨⟨o, db', hooks⟩, hok, h⟩ := bind_ok.mp h
      cases pure_ok.mp h
      rcases recordPayment_ok hok with ⟨rfl, -⟩ | ⟨p, -, -, -, -, -, -, -, rfl⟩
      · exact .still (.of_eq rfl rfl)
      · exact .still (.of_eq rfl rfl)
  | recordRefund ctx env orderId dto =>
      obtain ⟨⟨o, db', hooks⟩, hok, h⟩ := bind_ok.mp h
      cases pure_ok.mp h
      rcases recordRefund_ok hok with ⟨rfl, -⟩ | ⟨r, logs, -, -, -, -, -, -, rfl⟩
      · exact .still (.of_eq rfl rfl)
      · exact .still (.of_eq rfl rfl)
  | hook ctx k =>
      simp only [perform] at h
      split at h
      next =>
        cases h
        exact .still (.of_eq (runHook_prepBatches ..) (runHook_movements ..))
      next => cases h
  | stock ctx r =>
      obtain ⟨db', hok, h⟩ := bind_ok.mp h
      cases pure_ok.mp h
      exact performStock_batchEffect hok

end OraOS.Orders
