/-
  OraOS.Orders.DrawRace — placing orders, moving them and wasting batches, any number of
  each at once.

  Whoever draws from a batch has read what remains of it, and locks nothing: what the
  others have committed since is not looked at again.

    * `drawSession`       — the statements of the three, beside each other;
    * `place_of_insert`, `move_commit`, `waste_commit`
                          — on its own each is `insert`, `updateStatus`, `wasteBatch`;
    * `drawSession_knows` — what a transaction knows, whatever the others commit;
    * `drawSession_seen`  — its rows are those of what it has read of the batches;
    * `draws_serialise`   — as long as what was read is what is there at the commit, the
                            batches are as one transaction after the other leaves them.
-/
import OraOS.Inventory.Wasting
import OraOS.Lib.Journal
import OraOS.Orders.BatchBounds
import OraOS.Orders.CreateRace
import OraOS.Orders.StatusRace

namespace OraOS.Orders

open OraOS.Api
open OraOS.Lib
open OraOS.Inventory

/-! ## §1. The transactions. -/

/-- What draws from a batch or gives back to it: an order, a change of status, a
write-off. -/
inductive DrawCall where
  | place (r : CreateCall)
  | move (orderId : Uuid) (tx : StatusTx)
  | waste (r : WasteCall)

/-- How far a transaction is, in the words of its own statements. -/
inductive DrawTask where
  | placing (t : CreateCall × CreatePhase)
  | moving (orderId : Uuid) (t : StatusTx × Phase)
  | wasting (t : WasteCall × WastePhase)
  | ended

/-- Entries of the indexes of `orders`, the row of an order, and the entry of a
movement's key. -/
inductive DrawLock where
  | entry (k : OrderLock)
  | order (orderId : Uuid)
  | movementKey (key : String)
  deriving DecidableEq

/-- What the controller of a status change asks for. -/
def StatusTx.Permitted (tx : StatusTx) : Prop :=
  tx.toStatus ∈ voidStatuses → .orderVoid ∈ tx.ctx.permissions

instance (tx : StatusTx) : Decidable tx.Permitted :=
  inferInstanceAs (Decidable (tx.toStatus ∈ voidStatuses → .orderVoid ∈ tx.ctx.permissions))

/-- Where a call starts; a change that is not permitted ends at once. -/
def DrawCall.start : DrawCall → DrawTask
  | .place r => .placing (r, r.start)
  | .move orderId tx => if tx.Permitted then .moving orderId (tx, .started) else .ended
  | .waste r => .wasting (r, .asked)

/-- The next statement of a status change; a refused one is over. -/
def moveTurn (db : Db) (orderId : Uuid) (t : StatusTx × Phase) : Turn Db DrawTask DrawLock :=
  match nextStatement orderId ⟨db, []⟩ t with
  | .go t' => .go (.moving orderId t')
  | .lock t' => .lock (.order orderId) (.moving orderId t')
  | .commit s => .commit s.db .ended
  | .stop => .rollback .ended

/-- The next statement of a call, with its locks among those of the others. -/
def drawTurn (ix : OrderIndex) (db : Db) : DrawTask → Turn Db DrawTask DrawLock
  | .placing t => (createTurn ix db t).map .placing .entry
  | .moving orderId t => moveTurn db orderId t
  | .wasting t => (wasteTurn db t).map .wasting .movementKey
  | .ended => .idle

/-- Draws side by side. -/
def drawSession : Session Db DrawTask DrawCall DrawLock OrderIndex Empty where
  start := DrawCall.start
  turn := drawTurn
  env _ e := e.elim

/-! ## §2. Each on its own. -/

/-- The rows of a sale: none while it is held. -/
def soldRows (db : Db) (r : CreateCall) (menu : Db) (orderId : Uuid) : List NewMovement :=
  if r.dto.held then []
  else depletionRows db r.env.now orderId r.ctx.userId (placementLines menu r.dto.items)

/-- The rows of a status change that is a sale. -/
def resumedRows (db : Db) (tx : StatusTx) (o : Order) : List NewMovement :=
  if resuming o.status tx.toStatus then
    depletionRows db tx.now o.id tx.ctx.userId (resumeLines o.items)
  else []

/-- The rows of a status change that calls a sale off. -/
def returnedRows (movements : List StockMovement) (orderId : Uuid) (tx : StatusTx) :
    List NewMovement :=
  if tx.toStatus ∈ reversingStatuses then restockRows movements orderId tx.ctx.userId tx.toStatus
  else []

/-- Rows of one order, without a key. -/
def OwnRows (orderId : Uuid) (rows : List NewMovement) : Prop :=
  ∀ m ∈ rows, m.orderId = some orderId ∧ m.idempotencyKey = none

/-- The rows of a sale name its order. -/
theorem depletionRows_own (db : Db) (now : Instant) (orderId userId : Uuid)
    (lines : List SoldLine) : OwnRows orderId (depletionRows db now orderId userId lines) := by
  intro m hm
  obtain ⟨i, b, q, rfl⟩ := rowsOfEntries_tagged m hm
  exact ⟨rfl, rfl⟩

theorem soldRows_own (db : Db) (r : CreateCall) (menu : Db) (orderId : Uuid) :
    OwnRows orderId (soldRows db r menu orderId) := by
  unfold soldRows
  split
  · exact List.forall_mem_nil _
  · exact depletionRows_own _ _ _ _ _

theorem resumedRows_own (db : Db) (tx : StatusTx) (o : Order) :
    OwnRows o.id (resumedRows db tx o) := by
  unfold resumedRows
  split
  · exact depletionRows_own _ _ _ _ _
  · exact List.forall_mem_nil _

theorem returnedRows_own (movements : List StockMovement) (orderId : Uuid) (tx : StatusTx) :
    OwnRows orderId (returnedRows movements orderId tx) := by
  unfold returnedRows
  split
  · intro m hm
    obtain ⟨t, -, rfl⟩ := List.mem_map.mp hm
    exact ⟨rfl, rfl⟩
  · exact List.forall_mem_nil _

/-- Rows of an order have no idempotency key. -/
theorem OwnRows.unkeyed {orderId : Uuid} {rows : List NewMovement} (h : OwnRows orderId rows) :
    ∀ m ∈ rows, m.idempotencyKey = none := fun m hm => (h m hm).2

/-- What is in the ledger of one order's rows. -/
theorem OwnRows.stored {orderId : Uuid} {rows : List NewMovement} {new : List StockMovement}
    (h : OwnRows orderId rows) (hnew : storeRows rows = .ok new) :
    OwnRows orderId (new.map (·.toNewMovement)) := by
  rw [storeRows_ok hnew]
  exact h

/-- A stored row is the one it was made of. -/
theorem stockMovement_ext {m m' : StockMovement} (h : m.toNewMovement = m'.toNewMovement) :
    m = m' := by
  obtain ⟨row, hs⟩ := m
  obtain ⟨row', hs'⟩ := m'
  cases h
  rfl

/-- Rows that have been stored are stored again as they are. -/
theorem storeRows_stored {orderId : Uuid} {new : List StockMovement}
    (h : OwnRows orderId (new.map (·.toNewMovement))) :
    storeRows (new.map (·.toNewMovement)) = .ok new := by
  have hfit : ∀ m ∈ new.map (·.toNewMovement), m.Storable ∧ m.idempotencyKey = none := by
    intro m hm
    refine ⟨?_, h.unkeyed m hm⟩
    obtain ⟨row, -, rfl⟩ := List.mem_map.mp hm
    exact row.storable
  obtain ⟨new', hsame, hrows⟩ := createMany_stored (l := []) hfit
  rw [show storeRows _ = _ from hrows, List.nil_append]
  refine congrArg _ (List.map_injective_iff.mpr ?_ hsame)
  exact fun _ _ => stockMovement_ext

/-- The rows of a placement are stored as they were computed. -/
theorem movementRows_eq (db : Db) (r : CreateCall) (menu : Db) (orderId : Uuid) :
    movementRows db r menu orderId = storeRows (soldRows db r menu orderId) := by
  unfold movementRows soldRows
  split
  · rfl
  · rw [createMany_unkeyed (depletionRows_own _ _ _ _ _).unkeyed]
    cases storeRows (depletionRows db r.env.now orderId r.ctx.userId
      (placementLines menu r.dto.items)) with
    | error e => rfl
    | ok new =>
        show Except.ok (List.drop db.movements.length (db.movements ++ new)) = .ok new
        rw [List.drop_left]

/-- A placement whose order row is `tx`'s, with nobody else around: the entries, and the
stock as it is now. -/
def CreateTx.place (tx : CreateTx) (r : CreateCall) (db : Db) : Except ApiError Db := do
  enter db tx.order .id
  enter db tx.order .number
  enter db tx.order .key
  let moved ← movementRows db r tx.menu tx.order.id
  pure ({ tx with moved }.publish db r.ctx)

/-- **What committing an order does, and when it can.** -/
theorem place_ok {tx : CreateTx} {r : CreateCall} {db db' : Db} : tx.place r db = .ok db'
    ↔ (∀ ix, OrderIndex.Free db tx.order ix)
      ∧ ∃ moved, movementRows db r tx.menu tx.order.id = .ok moved
        ∧ ({ tx with moved }.publish db r.ctx) = db' := by
  unfold CreateTx.place enter
  simp only [bind_ok, require_ok, pure_ok]
  constructor
  · rintro ⟨-, hid, -, hnumber, -, hkey, moved, hmoved, h⟩
    refine ⟨?_, moved, hmoved, h⟩
    intro ix
    cases ix <;> assumption
  · rintro ⟨hfree, moved, hmoved, h⟩
    exact ⟨(), hfree .id, (), hfree .number, (), hfree .key, moved, hmoved, h⟩

/-- The statements keep the order row and the menu; the last one writes the movements. -/
theorem writes_ok {db : Db} {r : CreateCall} {tx tx' : CreateTx} (todo : List Write)
    (h : runAll (write db r) (todo ++ [.stock]) tx = .ok tx') :
    tx'.order = tx.order ∧ movementRows db r tx'.menu tx'.order.id = .ok tx'.moved := by
  induction todo generalizing tx with
  | nil =>
      obtain ⟨tx₁, hstock, h⟩ := bind_ok.mp h
      cases h
      obtain ⟨moved, hmoved, hstock⟩ := bind_ok.mp hstock
      cases pure_ok.mp hstock
      exact ⟨rfl, hmoved⟩
  | cons w todo ih =>
      obtain ⟨tx₁, hw, h⟩ := bind_ok.mp h
      obtain ⟨horder, hmoved⟩ := ih h
      exact ⟨horder.trans (write_order hw), hmoved⟩

/-- **`insert` is the placement of its order row.** -/
theorem place_of_insert {db db' : Db} {r : CreateCall} {o : Order}
    (h : insert db r.ctx r.env r.dto = .ok (o, db')) :
    ∃ tx : CreateTx, tx.order = o ∧ tx.place r db = .ok db' := by
  rw [insert_eq] at h
  simp only [bind_ok] at h
  obtain ⟨_, -, _, -, branchId, -, p, -, o₁, -, _, hid, _, hnumber, _, hkey, o₂, hitems, tx, hwrites,
    h⟩ := h
  cases pure_ok.mp h
  obtain ⟨horder, hmoved⟩ := writes_ok [.coupon, .customer, .balance, .points, .discount, .payment]
    hwrites
  obtain ⟨items, -, rfl⟩ := withItems_ok hitems
  refine ⟨tx, rfl, place_ok.mpr ⟨?_, tx.moved, hmoved, rfl⟩⟩
  intro ix
  rw [horder]
  refine free_of_items items ?_
  cases ix
  · exact require_ok.mp hid
  · exact require_ok.mp hnumber
  · exact require_ok.mp hkey

/-- The row of the order is what it was, but for its status. -/
structure Still (db : Db) (orderId : Uuid) (o : Order) : Prop where
  id : o.id = orderId
  row : ∃ now, db.findOrder orderId = some now ∧ now.items = o.items
    ∧ now.orderNumber = o.orderNumber

/-- A move leads to another status. -/
theorem canTransition_ne {s t : OrderStatus} (h : canTransition s t = true) : s ≠ t := by
  rintro rfl
  revert h
  cases s <;> decide

/-- Placing a held order adds its rows. -/
theorem depleteOnResume_stored (db : Db) (tx : StatusTx) (o : Order) :
    depleteOnResume db tx.ctx tx.now o tx.toStatus
      = (storeRows (resumedRows db tx o)).map fun rows =>
        db.withMovements (db.movements ++ rows) := by
  rw [depleteOnResume_eq]
  show createMany db.movements (resumedRows db tx o) >>= _ = _
  rw [createMany_unkeyed (resumedRows_own db tx o).unkeyed, mapped_bind]
  cases storeRows (resumedRows db tx o) <;> rfl

/-- Cancelling an order adds what it gives back. -/
theorem restockOnReversal_stored (db : Db) (orderId : Uuid) (tx : StatusTx) :
    restockOnReversal db tx.ctx orderId tx.toStatus
      = (storeRows (returnedRows db.movements orderId tx)).map fun back =>
        db.withMovements (db.movements ++ back) := by
  rw [restockOnReversal_eq]
  show createMany db.movements (returnedRows db.movements orderId tx) >>= _ = _
  rw [createMany_unkeyed (returnedRows_own db.movements orderId tx).unkeyed, mapped_bind]
  cases storeRows (returnedRows db.movements orderId tx) <;> rfl

/-- **A commit of a status change is `updateStatus`** on what is committed then, if the
status is the one it read and the rows of a sale are those of now. -/
theorem move_commit {db : Db} {tx : StatusTx} {orderId : Uuid} {o : Order}
    {rows back : List StockMovement} (hpermitted : tx.Permitted)
    (hcan : canTransition o.status tx.toStatus = true) (hstill : Still db orderId o)
    (hstatus : statusOf db orderId = some o.status)
    (hrows : storeRows (resumedRows db tx o) = .ok rows)
    (hback : storeRows (returnedRows (db.movements ++ rows) orderId tx) = .ok back) :
    updateStatus db tx.ctx tx.now orderId tx.toStatus tx.reason
      = .ok (commitStatus db tx o (rows ++ back)) := by
  obtain ⟨hid, now, hnow, hitems, hnumber⟩ := hstill
  have hsame : now.status = o.status := by
    unfold statusOf at hstatus
    rw [hnow] at hstatus
    exact Option.some.inj hstatus
  have hnowid : now.id = orderId := (Db.mem_of_findOrder hnow).2
  subst hid
  have hguard : require (tx.toStatus ∈ voidStatuses → .orderVoid ∈ tx.ctx.permissions)
      (ApiError.forbidden "Missing permission: order.void") = .ok () := require_of _ hpermitted
  unfold updateStatus
  rw [hguard, ok_bind, hnow]
  show (if now.status = tx.toStatus then _ else _) = _
  rw [hsame, if_neg (canTransition_ne hcan), require_of _ hcan, ok_bind]
  -- the rows of a sale do not depend on the order's new status
  have hresumed : ∀ orders, resumedRows (db.withOrders orders) tx now = resumedRows db tx o := by
    intro orders
    unfold resumedRows
    rw [hsame, hitems, hnowid]
    rfl
  dsimp only
  rw [depleteOnResume_stored, hresumed, hrows]
  show restockOnReversal _ tx.ctx o.id tx.toStatus = _
  rw [restockOnReversal_stored, recordVoid_eq]
  simp only [Db.withAuditLogs_movements, Db.withOrderEvents_movements, Db.withMovements_movements,
    Db.withOrders_movements]
  rw [hback]
  simp only [Except.map, commitStatus, statusChanged, recordVoid_eq, Db.withMovements,
    Db.withOrders, Db.withOrderEvents, Db.withAuditLogs, hnowid, hnumber, List.append_assoc]

/-- The transaction as it stood at its commit, run again by itself. -/
def drawExec (db : Db) : DrawTask → Option Db
  | .placing (r, .writing _ tx _) => (tx.place r db).toOption
  | .moving orderId (tx, _) =>
      (updateStatus db tx.ctx tx.now orderId tx.toStatus tx.reason).toOption
  | .wasting (r, _) => ((r.perform db).map (·.2)).toOption
  | _ => none

/-! ## §3. What a transaction knows. -/

/-- What a creation in flight knows of its rows. -/
def PlaceKnows : CreatePhase → Prop
  | .entering _ tx _ => OwnRows tx.order.id (tx.moved.map (·.toNewMovement))
  | .writing _ tx _ => OwnRows tx.order.id (tx.moved.map (·.toNewMovement))
  | _ => True

/-- It is let in, it may leave the status it read, and its row is still the order's. -/
structure Decided (db : Db) (orderId : Uuid) (tx : StatusTx) (o : Order) : Prop where
  permitted : tx.Permitted
  can : canTransition o.status tx.toStatus = true
  still : Still db orderId o

/-- What a change of status in flight knows of its order. -/
def MoveKnows (db : Db) (orderId : Uuid) : StatusTx × Phase → Prop
  | (tx, .started) => tx.Permitted
  | (tx, .decided o) => Decided db orderId tx o
  | (tx, .updated o _) => Decided db orderId tx o
  | (tx, .depleted o _ rows) => Decided db orderId tx o
      ∧ OwnRows orderId (rows.map (·.toNewMovement))
  | (tx, .restocked o _ rows back) => Decided db orderId tx o
      ∧ OwnRows orderId (rows.map (·.toNewMovement))
      ∧ storeRows (returnedRows (db.movements ++ rows) orderId tx) = .ok back

/-- What a call in flight knows. -/
def DrawKnows (db : Db) : DrawTask → Prop
  | .placing t => Entered db t ∧ PlaceKnows t.2
  | .moving orderId t => MoveKnows db orderId t
  | .wasting t => WasteKnows db t
  | .ended => True

/-- The locks a call holds. -/
def DrawHeld : DrawTask → DrawLock → Prop
  | .placing t, .entry k => entryHeld t k
  | .moving orderId t, .order id => t.2.owns = true ∧ orderId = id
  | .wasting t, .movementKey key => wasteHeld t key
  | _, _ => False

/-- What a commit adds, for those who do not wait for its locks. -/
structure Drawn (db : Db) (t : DrawTask) (db' : Db) : Prop where
  prepBatches : db'.prepBatches = db.prepBatches
  free : ∀ o ix, OrderIndex.Free db o ix →
    (∀ k, ix.lock o = some k → ¬ DrawHeld t (.entry k)) → OrderIndex.Free db' o ix
  still : ∀ orderId o, Still db orderId o → Still db' orderId o
  movements : ∃ rows, db'.movements = db.movements ++ rows ∧ ∀ m ∈ rows,
    (∀ orderId o, m.orderId = some orderId → Still db orderId o → DrawHeld t (.order orderId))
      ∧ ∀ key, m.idempotencyKey = some key → DrawHeld t (.movementKey key)

/-- What an order gives back depends on what it consumed. -/
theorem restockRows_congr {l l' : List StockMovement} {orderId : Uuid}
    (h : consumedOf l' orderId = consumedOf l orderId) (userId : Uuid) (toStatus : OrderStatus) :
    restockRows l' orderId userId toStatus = restockRows l orderId userId toStatus := by
  unfold restockRows
  rw [h]

/-- What comes back for an order does not depend on the rows of others. -/
theorem returnedRows_append {l new rows : List StockMovement} {orderId : Uuid} (tx : StatusTx)
    (h : ∀ m ∈ new, m.orderId ≠ some orderId) :
    returnedRows (l ++ new ++ rows) orderId tx = returnedRows (l ++ rows) orderId tx := by
  unfold returnedRows
  refine if_congr Iff.rfl (restockRows_congr ?_ _ _) rfl
  unfold consumedOf
  have hnone : new.filter (fun m => m.orderId = some orderId && m.type = .consumption) = [] := by
    rw [List.filter_eq_nil_iff]
    intro m hm
    simp [h m hm]
  rw [List.filter_append, List.filter_append, List.filter_append, hnone, List.append_nil]

/-- What a change has decided stays so while its order stays. -/
theorem Decided.kept {db db' : Db} {orderId : Uuid} {tx : StatusTx} {o : Order}
    (h : Decided db orderId tx o) (hstill : Still db orderId o → Still db' orderId o) :
    Decided db' orderId tx o :=
  ⟨h.permitted, h.can, hstill h.still⟩

/-- **What is known stays known** when somebody else commits. -/
theorem DrawKnows.kept {db db' : Db} {t u : DrawTask} (h : Drawn db t db') (hu : DrawKnows db u)
    (hfree : ∀ k, DrawHeld t k → ¬ DrawHeld u k) : DrawKnows db' u := by
  obtain ⟨rows, hmovements, hrows⟩ := h.movements
  cases u with
  | ended => trivial
  | placing u =>
      refine ⟨hu.1.of_free fun o ix hf hheld => ?_, hu.2⟩
      exact h.free o ix hf fun k hk hmine => hfree (.entry k) hmine (hheld k hk)
  | wasting u =>
      refine WasteKnows.kept hu h.prepBatches hmovements ?_
      intro m hm key hkey hheld
      exact hfree (.movementKey key) ((hrows m hm).2 key hkey) hheld
  | moving orderId u =>
      obtain ⟨tx, phase⟩ := u
      cases phase with
      | started => exact hu
      | decided o => exact Decided.kept hu (h.still orderId o)
      | updated o found => exact Decided.kept hu (h.still orderId o)
      | depleted o found own => exact ⟨hu.1.kept (h.still orderId o), hu.2⟩
      | restocked o found own back =>
          refine ⟨hu.1.kept (h.still orderId o), hu.2.1, ?_⟩
          -- only whoever has the row of the order adds to its rows
          have hothers : ∀ m ∈ rows, m.orderId ≠ some orderId := by
            intro m hm heq
            exact hfree (.order orderId) ((hrows m hm).1 orderId o heq hu.1.still) ⟨rfl, rfl⟩
          rw [hmovements, returnedRows_append tx hothers]
          exact hu.2.2

/-! ## §4. The statements keep what is known. -/

/-- A statement of a creation keeps to its own rows. -/
theorem advance_place {db : Db} {r : CreateCall} {p p' : CreatePhase} {k : Option OrderLock}
    (hk : PlaceKnows p) (h : Advance db r p k p') : PlaceKnows p' := by
  cases h with
  | row h => exact List.forall_mem_nil _
  | entered hfree => exact hk
  | items h =>
      obtain ⟨items, -, rfl⟩ := withItems_ok h
      exact hk
  | wrote h =>
      cases write_ok h with
      | moved hmoved =>
          rw [movementRows_eq] at hmoved
          exact (soldRows_own _ _ _ _).stored hmoved
      | _ => exact hk
  | _ => trivial

/-- A creation starts without rows. -/
theorem start_place (r : CreateCall) : PlaceKnows r.start := by
  unfold CreateCall.start
  split
  · trivial
  · split <;> trivial

/-- **A creation that commits adds the rows it computed.** -/
theorem place_drawn {db : Db} {r : CreateCall} {left : ℕ} {tx : CreateTx}
    (hk : DrawKnows db (.placing (r, .writing left tx []))) :
    Drawn db (.placing (r, .writing left tx [])) (tx.publish db r.ctx) where
  prepBatches := rfl
  free o ix hf hother := free_publish hf fun k hmine htheirs => hother k htheirs ⟨ix, hmine⟩
  still orderId o h := by
    obtain ⟨hid, now, hnow, hsame⟩ := h
    refine ⟨hid, now, ?_, hsame⟩
    show (db.orders ++ [tx.order]).find? _ = some now
    rw [List.find?_append]
    unfold Db.findOrder at hnow
    rw [hnow]
    rfl
  movements := by
    refine ⟨tx.moved, rfl, ?_⟩
    intro m hm
    obtain ⟨horder, hkey⟩ := hk.2 _ (List.mem_map_of_mem hm)
    constructor
    · -- the order is new
      intro orderId o heq hstill
      obtain ⟨-, now, hnow, -⟩ := hstill
      obtain ⟨hmem, hid⟩ := Db.mem_of_findOrder hnow
      rw [heq] at horder
      refine absurd ?_ (hk.1 .id now hmem)
      rw [hid]
      exact Option.some.inj horder
    · intro key heq
      rw [heq] at hkey
      cases hkey

/-- A statement of a change of status. -/
theorem moveTurn_went {db : Db} {orderId : Uuid} {t : StatusTx × Phase} {u : DrawTask}
    (h : moveTurn db orderId t = .go u) : ∃ t', u = .moving orderId t'
      ∧ Statement orderId ⟨db, []⟩ t (.go t') := by
  unfold moveTurn at h
  split at h <;> cases h
  next t' hnext => exact ⟨t', rfl, nextStatement_statement hnext⟩

/-- A change of status locks its order. -/
theorem moveTurn_locked {db : Db} {orderId : Uuid} {t : StatusTx × Phase} {u : DrawTask}
    {k : DrawLock} (h : moveTurn db orderId t = .lock k u) : ∃ t', u = .moving orderId t'
      ∧ k = .order orderId ∧ Statement orderId ⟨db, []⟩ t (.lock t') := by
  unfold moveTurn at h
  split at h <;> cases h
  next t' hnext => exact ⟨t', rfl, rfl, nextStatement_statement hnext⟩

theorem moveTurn_committed {db db' : Db} {orderId : Uuid} {t : StatusTx × Phase} {u : DrawTask}
    (h : moveTurn db orderId t = .commit db' u) : u = .ended
      ∧ ∃ s, s.db = db' ∧ Statement orderId ⟨db, []⟩ t (.commit s) := by
  unfold moveTurn at h
  split at h <;> cases h
  next s hnext => exact ⟨rfl, s, rfl, nextStatement_statement hnext⟩

theorem moveTurn_rolledBack {db : Db} {orderId : Uuid} {t : StatusTx × Phase} {u : DrawTask}
    (h : moveTurn db orderId t = .rollback u) : u = .ended := by
  unfold moveTurn at h
  split at h <;> cases h
  rfl

/-- The rows a statement has staged are those it asked for. -/
theorem staged_rows {db db' : Db} {rows : List NewMovement}
    (h : (storeRows rows).map (fun new => db.withMovements (db.movements ++ new)) = .ok db') :
    storeRows rows = .ok (addedRows db db') := by
  cases hrows : storeRows rows with
  | error e =>
      rw [hrows] at h
      cases h
  | ok new =>
      rw [hrows] at h
      cases h
      show _ = Except.ok (List.drop db.movements.length (db.movements ++ new))
      rw [List.drop_left]

/-- A statement of a change keeps what it knows. -/
theorem moves_know {db : Db} {orderId : Uuid} {t t' : StatusTx × Phase}
    {m : Move Committed (StatusTx × Phase)} (hk : MoveKnows db orderId t)
    (h : Statement orderId ⟨db, []⟩ t m) (hm : m = .go t' ∨ m = .lock t') :
    MoveKnows db orderId t' := by
  cases h with
  | refused => rcases hm with hm | hm <;> cases hm
  | commit hbefore => rcases hm with hm | hm <;> cases hm
  | read ho hcan =>
      rcases hm with hm | hm <;> cases hm
      exact ⟨hk, hcan, (Db.mem_of_findOrder ho).2, _, ho, rfl, rfl⟩
  | update hfound =>
      rcases hm with hm | hm <;> cases hm
      exact hk
  -- the rows of a resumed order are computed here
  | deplete hok =>
      rcases hm with hm | hm <;> cases hm
      rename_i tx o found db'
      rw [depleteOnResume_stored] at hok
      have hown := (resumedRows_own db tx o).stored (staged_rows hok)
      rw [hk.still.id] at hown
      exact ⟨hk, hown⟩
  | restock hok =>
      rcases hm with hm | hm <;> cases hm
      rw [restockOnReversal_stored] at hok
      exact ⟨hk.1, hk.2, staged_rows hok⟩

/-- Writing a status finds every order as before, but for the status. -/
theorem setStatus_find (orders : List Order) (orderId id : Uuid) (toStatus : OrderStatus)
    (placedAt : Option Instant) :
    ((setStatus orders orderId toStatus placedAt).find? fun o => decide (o.id = id))
      = (orders.find? fun o => decide (o.id = id)).map fun o =>
        if o.id = orderId then
          { o with status := toStatus, placedAt := placedAt.orElse fun _ => o.placedAt }
        else o := by
  unfold setStatus
  rw [List.find?_map]
  refine congrArg _ (List.find?_congr fun o _ => ?_)
  show decide ((if o.id = orderId then _ else o).id = id) = _
  split <;> rfl

/-- **A change of status that commits adds what it drew or gives back.** -/
theorem move_drawn {db : Db} {orderId : Uuid} {tx : StatusTx} {o : Order} {found : OrderStatus}
    {rows back : List StockMovement}
    (hk : MoveKnows db orderId (tx, .restocked o found rows back)) :
    Drawn db (.moving orderId (tx, .restocked o found rows back))
      (commitStatus db tx o (rows ++ back)) where
  prepBatches := rfl
  free x ix hf _ := by
    have hentries : entriesOf (commitStatus db tx o (rows ++ back)) = entriesOf db :=
      setStatus_entries _ _ _ _
    exact free_of_entries hentries hf
  still id x h := by
    obtain ⟨hid, now, hnow, hitems, hnumber⟩ := h
    have hfind := setStatus_find db.orders o.id id tx.toStatus
      (if resuming o.status tx.toStatus then some tx.now else none)
    unfold Db.findOrder at hnow
    rw [hnow] at hfind
    refine ⟨hid, _, hfind, ?_⟩
    dsimp only
    split
    · exact ⟨hitems, hnumber⟩
    · exact ⟨hitems, hnumber⟩
  -- the rows of the order, drawn or given back, none of which takes a lock of another call
  movements := by
    refine ⟨rows ++ back, rfl, ?_⟩
    have hown : OwnRows orderId ((rows ++ back).map (·.toNewMovement)) := by
      rw [List.map_append]
      intro m hm
      rcases List.mem_append.mp hm with hm | hm
      · exact hk.2.1 m hm
      · exact (returnedRows_own _ _ _).stored hk.2.2 m hm
    intro m hm
    obtain ⟨horder, hkey⟩ := hown _ (List.mem_map_of_mem hm)
    constructor
    · intro id x heq _
      rw [heq] at horder
      exact ⟨rfl, (Option.some.inj horder).symm⟩
    · intro key heq
      rw [heq] at hkey
      cases hkey

/-- **A write-off that commits adds its row.** -/
theorem waste_drawn {db : Db} {r : WasteCall} {row : StockMovement}
    (hk : WasteKnows db (r, .staged row)) :
    Drawn db (.wasting (r, .staged row)) (db.withMovements (db.movements ++ [row])) where
  prepBatches := rfl
  free x ix hf _ := hf
  still id x h := ⟨h.id, h.row⟩
  movements := by
    obtain ⟨⟨b, -, hrow⟩, -⟩ := hk
    have hsame := storeMovement_ok hrow
    refine ⟨[row], rfl, ?_⟩
    intro m hm
    obtain rfl := List.mem_singleton.mp hm
    rw [hsame]
    constructor
    · intro id x heq
      cases heq
    · exact fun key heq => heq

/-- The creations by themselves. -/
def alonePlacing : Session Db (CreateCall × CreatePhase) CreateCall OrderLock OrderIndex Empty :=
  createSession fun _ e => e.elim

/-- What one statement keeps: what is known, and no lock but the one it waits for. -/
def Keeps (db : Db) (t : DrawTask) (taken : Option DrawLock) (u : DrawTask) : Prop :=
  DrawKnows db u ∧ ∀ k, DrawHeld u k → taken = some k ∨ DrawHeld t k

/-- What a creation knows, after a statement. -/
theorem place_keeps {db : Db} {t : CreateCall × CreatePhase} {p' : CreatePhase}
    {k : Option OrderLock} (hk : DrawKnows db (.placing t)) (h : Advance db t.1 t.2 k p') :
    Keeps db (.placing t) (k.map .entry) (.placing (t.1, p')) := by
  obtain ⟨hentered, hheld⟩ := advance_entered hk.1 h
  refine ⟨⟨hentered, advance_place hk.2 h⟩, fun l hl => ?_⟩
  cases l with
  | entry l =>
      rcases hheld l hl with rfl | hold
      · exact .inl rfl
      · exact .inr hold
  | _ => exact hl.elim

/-- What a change of status knows, after a statement. -/
theorem move_keeps {db : Db} {orderId : Uuid} {t t' : StatusTx × Phase}
    {m : Move Committed (StatusTx × Phase)} (hk : DrawKnows db (.moving orderId t))
    (h : Statement orderId ⟨db, []⟩ t m) (hm : m = .go t' ∨ m = .lock t') :
    DrawKnows db (.moving orderId t')
      ∧ (m = .go t' → ∀ k, DrawHeld (.moving orderId t') k → DrawHeld (.moving orderId t) k) := by
  refine ⟨moves_know hk h hm, ?_⟩
  rintro rfl k hheld
  cases k with
  | order id =>
      obtain ⟨howns, hid⟩ := hheld
      refine ⟨?_, hid⟩
      cases h with
      | read ho hcan => cases howns
      | deplete hok => rfl
      | restock hok => rfl
  | _ => exact hheld

/-- What a write-off knows, after a statement. -/
theorem waste_keeps {db : Db} {r : WasteCall} {p : WastePhase}
    {x : Turn Db (WasteCall × WastePhase) String} {u : WasteCall × WastePhase}
    (taken : Option String) (hk : WasteKnows db (r, p)) (h : WasteMoves db r p x)
    (hx : match taken with
      | none => x = .go u
      | some key => x = .lock key u) :
    Keeps db (.wasting (r, p)) (taken.map .movementKey) (.wasting u) := by
  cases h with
  | ends hknow hheld => cases taken <;> cases hx
  | commits => cases taken <;> cases hx
  | idles => cases taken <;> cases hx
  -- reads and checks take no lock; the batch is only remembered
  | reads hb =>
      cases taken <;> cases hx
      exact ⟨hb, fun k hheld => by cases k <;> exact hheld.elim⟩
  | checks hleft =>
      cases taken <;> cases hx
      exact ⟨hk, fun k hheld => by cases k <;> exact hheld.elim⟩
  | stores hrow =>
      cases taken <;> cases hx
      exact ⟨⟨_, hk, hrow⟩, fun k hheld => by cases k <;> exact hheld.elim⟩
  | enters hkey hfree =>
      cases taken <;> cases hx
      refine ⟨⟨hk, hfree⟩, fun k hheld => ?_⟩
      cases k with
      | movementKey key =>
          have hsame : r.dto.idempotencyKey = some key := hheld
          rw [hkey] at hsame
          cases hsame
          exact .inl rfl
      | _ => exact hheld.elim
  | unkeyed hkey =>
      cases taken <;> cases hx
      refine ⟨⟨hk, ?_⟩, fun k hheld => ?_⟩
      · rw [hkey]
        exact Bool.false_ne_true
      · cases k with
        | movementKey key =>
            have hsame : r.dto.idempotencyKey = some key := hheld
            rw [hkey] at hsame
            cases hsame
        | _ => exact hheld.elim

/-- The last statement of each of the three, and what it leaves of its transaction. -/
inductive DrawCommits (db : Db) : DrawTask → Db → DrawTask → Prop where
  | placing {r : CreateCall} {left : ℕ} {tx : CreateTx} :
      DrawCommits db (.placing (r, .writing left tx [])) (tx.publish db r.ctx)
        (.placing (r, .answered (.ok (tx.order, creditHooks r.dto tx.order))))
  | moving {orderId : Uuid} {tx : StatusTx} {o : Order} {found : OrderStatus}
      {rows back : List StockMovement} :
      DrawCommits db (.moving orderId (tx, .restocked o found rows back))
        (commitStatus db tx o (rows ++ back)) .ended
  | wasting {r : WasteCall} {row : StockMovement} :
      DrawCommits db (.wasting (r, .staged row)) (db.withMovements (db.movements ++ [row]))
        (.wasting (r, .answered (.ok row)))

/-- **The step inversion**, for commits. -/
theorem drawTurn_commits {ix : OrderIndex} {db db' : Db} {t u : DrawTask}
    (h : drawTurn ix db t = .commit db' u) : DrawCommits db t db' u := by
  cases t with
  -- each kind of call commits at one place
  | placing t =>
      obtain ⟨t', hturn, rfl⟩ := Turn.map_commit h
      obtain ⟨left, tx, hphase, rfl, rfl⟩ :=
        turn_committed (show alonePlacing.turn ix db t = _ from hturn)
      obtain ⟨r, p⟩ := t
      change p = _ at hphase
      subst hphase
      exact .placing
  | moving orderId t =>
      obtain ⟨rfl, s, rfl, hs⟩ := moveTurn_committed h
      cases hs with
      | commit => exact .moving
  | wasting t =>
      obtain ⟨t', hturn, rfl⟩ := Turn.map_commit h
      obtain ⟨r, p⟩ := t
      have hmoves := wasteTurn_moves db r p
      rw [hturn] at hmoves
      cases hmoves with
      | commits => exact .wasting
  | ended => cases h

/-- **What a transaction knows**, whatever the others commit. -/
theorem drawSession_knows : drawSession.Knows (fun _ => True) DrawKnows DrawHeld where
  start db r _ := by
    cases r with
    | place r =>
        refine ⟨⟨(start_entered db r).1, start_place r⟩, fun k hk => ?_⟩
        cases k with
        | entry k => exact (start_entered db r).2 k hk
        | _ => exact hk
    | move orderId tx =>
        -- a change the order of statuses does not permit ends before it reads
        show DrawKnows db (if tx.Permitted then _ else _)
          ∧ ∀ k, ¬ DrawHeld (if tx.Permitted then _ else _) k
        split
        next hpermitted =>
          refine ⟨hpermitted, fun k hk => ?_⟩
          cases k with
          | order id => exact Bool.false_ne_true hk.1
          | _ => exact hk
        next => exact ⟨trivial, fun k => id⟩
    | waste r => exact ⟨trivial, fun k hk => by cases k <;> exact hk⟩
  -- no lock is taken, so what it holds now it held before
  go ix db t u _ hk h := by
    cases t with
    | placing t =>
        obtain ⟨t', hturn, rfl⟩ := Turn.map_go h
        obtain ⟨p', rfl, hadv⟩ := turn_went (show alonePlacing.turn ix db t = _ from hturn)
        obtain ⟨hknow, hheld⟩ := place_keeps hk hadv
        exact ⟨hknow, fun k hmine => (hheld k hmine).resolve_left nofun⟩
    | moving orderId t =>
        obtain ⟨t', rfl, hs⟩ := moveTurn_went h
        obtain ⟨hknow, hheld⟩ := move_keeps hk hs (.inl rfl)
        exact ⟨hknow, hheld rfl⟩
    | wasting t =>
        obtain ⟨t', hturn, rfl⟩ := Turn.map_go h
        obtain ⟨hknow, hheld⟩ := waste_keeps none hk (wasteTurn_moves db t.1 t.2) hturn
        exact ⟨hknow, fun k hmine => (hheld k hmine).resolve_left nofun⟩
    | ended => cases h
  lock ix db t u k _ hk h := by
    cases t with
    | placing t =>
        obtain ⟨l, t', hturn, rfl, rfl⟩ := Turn.map_lock h
        obtain ⟨p', rfl, hadv⟩ := turn_locked (show alonePlacing.turn ix db t = _ from hturn)
        obtain ⟨hknow, hheld⟩ := place_keeps hk hadv
        exact ⟨hknow, fun k hmine => (hheld k hmine).imp_left fun heq => (Option.some.inj heq).symm⟩
    | moving orderId t =>
        obtain ⟨t', rfl, rfl, hs⟩ := moveTurn_locked h
        refine ⟨(move_keeps hk hs (.inr rfl)).1, fun k hmine => ?_⟩
        -- the one lock a status change takes is that of its order
        cases k with
        | order id => exact .inl (congrArg _ hmine.2.symm)
        | _ => exact hmine.elim
    | wasting t =>
        obtain ⟨l, t', hturn, rfl, rfl⟩ := Turn.map_lock h
        obtain ⟨hknow, hheld⟩ := waste_keeps (some l) hk (wasteTurn_moves db t.1 t.2) hturn
        exact ⟨hknow, fun k hmine => (hheld k hmine).imp_left fun heq => (Option.some.inj heq).symm⟩
    | ended => cases h
  -- who holds none of its locks still knows what it has read: see `kept`
  commit ix db t db' u _ hk h := by
    cases drawTurn_commits h with
    | placing =>
        refine ⟨trivial, ⟨trivial, trivial⟩, fun k hheld => by cases k <;> exact hheld, ?_⟩
        exact fun u hu hfree => hu.kept (place_drawn hk) hfree
    | moving =>
        exact ⟨trivial, trivial, fun k => id, fun u hu hfree => hu.kept (move_drawn hk) hfree⟩
    | wasting =>
        refine ⟨trivial, trivial, fun k hheld => by cases k <;> exact hheld, ?_⟩
        exact fun u hu hfree => hu.kept (waste_drawn hk) hfree
  rollback ix db t u _ hk h := by
    cases t with
    | placing t =>
        obtain ⟨t', hturn, rfl⟩ := Turn.map_rollback h
        obtain ⟨p', rfl, -, hend⟩ := turn_rolledBack (show alonePlacing.turn ix db t = _ from hturn)
        refine ⟨⟨(ended_entered hend).1 db, by cases hend <;> trivial⟩, fun k hheld => ?_⟩
        cases k with
        | entry k => exact (ended_entered hend).2 k hheld
        | _ => exact hheld
    | moving orderId t =>
        obtain rfl := moveTurn_rolledBack h
        exact ⟨trivial, fun k => id⟩
    | wasting t =>
        obtain ⟨t', hturn, rfl⟩ := Turn.map_rollback h
        obtain ⟨r, p⟩ := t
        have hmoves := wasteTurn_moves db r p
        rw [hturn] at hmoves
        cases hmoves with
        | ends hknow hheld =>
            refine ⟨hknow db, fun k hmine => ?_⟩
            cases k with
            | movementKey key => exact hheld key hmine
            | _ => exact hmine
    | ended => cases h
  env _ e := e.elim

/-! ## §5. What a transaction has read. -/

/-- What is committed when a transaction reads the batches: a placement in the last of
its statements, a status change in the one after its UPDATE. -/
def batchesRead (db : Db) : DrawTask → Option Db → Option Db
  | .placing (_, .writing _ _ (.stock :: _)), _ => some db
  | .moving _ (_, .updated _ _), _ => some db
  | _, seen => seen

/-- The sessions, each with what was committed when it read the batches. -/
def drawSeen : Session Db (DrawTask × Option Db) DrawCall DrawLock OrderIndex Empty :=
  drawSession.watched none batchesRead

/-- The rows are those of the batches it has read; the other tables are as they were. -/
def RowsOfSeen (seen : Option Db) (db : Db) (rows : Db → List NewMovement)
    (own : List StockMovement) : Prop :=
  ∃ was ∈ seen, SameBook was db ∧ rows was = own.map (·.toNewMovement)

/-- Rows computed from a state that was seen stay so. -/
theorem RowsOfSeen.kept {seen : Option Db} {db db' : Db} {rows : Db → List NewMovement}
    {own : List StockMovement} (h : RowsOfSeen seen db rows own) (hsame : SameBook db db') :
    RowsOfSeen seen db' rows own := by
  obtain ⟨was, hmem, hbook, hrows⟩ := h
  exact ⟨was, hmem, hbook.trans hsame, hrows⟩

/-- What a transaction knows of what it has read. -/
def DrawSees (db : Db) : DrawTask × Option Db → Prop
  | (.placing (r, .writing _ tx todo), seen) => .stock ∈ todo
      ∨ RowsOfSeen seen db (fun was => soldRows was r tx.menu tx.order.id) tx.moved
  | (.moving _ (tx, .depleted o _ rows), seen) =>
      RowsOfSeen seen db (fun was => resumedRows was tx o) rows
  | (.moving _ (tx, .restocked o _ rows _), seen) =>
      RowsOfSeen seen db (fun was => resumedRows was tx o) rows
  | _ => True

/-- No commit changes a recipe, an ingredient or a batch. -/
theorem DrawCommits.sameBook {db db' : Db} {t u : DrawTask} (h : DrawCommits db t db' u) :
    SameBook db db' := by
  cases h with
  | placing => exact ⟨rfl, rfl, rfl⟩
  | moving => exact ⟨rfl, rfl, rfl⟩
  | wasting => exact ⟨rfl, rfl, rfl⟩

/-- What a call has seen, it has seen. -/
theorem DrawSees.kept {db db' : Db} {t : DrawTask × Option Db} (h : DrawSees db t)
    (hsame : SameBook db db') : DrawSees db' t := by
  obtain ⟨task, seen⟩ := t
  cases task with
  | placing t =>
      obtain ⟨r, p⟩ := t
      cases p with
      | writing left tx todo => exact h.imp_right fun hrows => hrows.kept hsame
      | _ => trivial
  | moving orderId t =>
      obtain ⟨tx, phase⟩ := t
      cases phase with
      | depleted o found rows => exact RowsOfSeen.kept h hsame
      | restocked o found rows back => exact RowsOfSeen.kept h hsame
      | _ => trivial
  | wasting t => trivial
  | ended => trivial

/-- A placement reads the batches and computes its rows in one statement. -/
theorem place_sees {db : Db} {r : CreateCall} {p p' : CreatePhase} {k : Option OrderLock}
    {seen : Option Db} (h : DrawSees db (.placing (r, p), seen)) (hadv : Advance db r p k p') :
    DrawSees db (.placing (r, p'), batchesRead db (.placing (r, p)) seen) := by
  cases hadv with
  | items h => exact .inl (by decide)
  | @wrote left tx tx' w todo hw =>
      -- before its stock write a creation has read no batch
      have hlater (hne : .stock ≠ w) : .stock ∈ todo
          ∨ RowsOfSeen seen db (fun was => soldRows was r tx.menu tx.order.id) tx.moved :=
        h.imp_left (List.mem_of_ne_of_mem hne)
      have hcase := write_ok hw
      clear hw
      cases hcase with
      | coupon redemptions => exact hlater nofun
      | looked hw =>
          rcases hw with rfl | rfl
          · exact hlater nofun
          · exact hlater nofun
      | free hfree => exact hlater nofun
      | debited logs hpos he => exact hlater nofun
      | logged logs => exact hlater nofun
      | paid hrows => exact hlater nofun
      | moved hrows =>
          rw [movementRows_eq] at hrows
          exact .inr ⟨db, rfl, .refl db, (storeRows_ok hrows).symm⟩
  | _ => trivial

/-- A status change reads them when it depletes. -/
theorem move_sees {db : Db} {orderId : Uuid} {t t' : StatusTx × Phase}
    {m : Move Committed (StatusTx × Phase)} {seen : Option Db}
    (h : DrawSees db (.moving orderId t, seen)) (hs : Statement orderId ⟨db, []⟩ t m)
    (hm : m = .go t' ∨ m = .lock t') :
    DrawSees db (.moving orderId t', batchesRead db (.moving orderId t) seen) := by
  cases hs with
  | refused => rcases hm with hm | hm <;> cases hm
  | commit hbefore => rcases hm with hm | hm <;> cases hm
  | read ho hcan =>
      rcases hm with hm | hm <;> cases hm
      trivial
  | update hfound =>
      rcases hm with hm | hm <;> cases hm
      trivial
  | deplete hok =>
      rcases hm with hm | hm <;> cases hm
      rw [depleteOnResume_stored] at hok
      exact ⟨db, rfl, .refl db, (storeRows_ok (staged_rows hok)).symm⟩
  | restock hok =>
      rcases hm with hm | hm <;> cases hm
      exact h

/-- **The rows a transaction has in hand are those of what it has read.** -/
theorem drawSession_seen : drawSeen.Learns (fun db t => DrawKnows db t.1) (fun _ => True)
    DrawSees where
  start db r _ := by
    cases r with
    | place r =>
        show DrawSees db (.placing (r, r.start), none)
        unfold CreateCall.start
        split
        · trivial
        · split <;> trivial
    | move orderId tx =>
        show DrawSees db (if tx.Permitted then _ else _, none)
        split <;> trivial
    | waste r => trivial
  go ix db t u _ _ h hturn := by
    obtain ⟨task, seen⟩ := t
    obtain ⟨task', seen'⟩ := u
    obtain ⟨hgo, rfl⟩ := Session.watched_go hturn
    cases task with
    | placing t =>
        obtain ⟨t', hcreate, rfl⟩ := Turn.map_go hgo
        obtain ⟨p', rfl, hadv⟩ := turn_went (show alonePlacing.turn ix db t = _ from hcreate)
        exact place_sees h hadv
    | moving orderId t =>
        obtain ⟨t', rfl, hs⟩ := moveTurn_went hgo
        exact move_sees h hs (.inl rfl)
    | wasting t =>
        obtain ⟨t', -, rfl⟩ := Turn.map_go hgo
        trivial
    | ended => cases hgo
  lock ix db t u k _ _ h hturn := by
    obtain ⟨task, seen⟩ := t
    obtain ⟨task', seen'⟩ := u
    obtain ⟨hlock, rfl⟩ := Session.watched_lock hturn
    cases task with
    | placing t =>
        obtain ⟨l, t', hcreate, -, rfl⟩ := Turn.map_lock hlock
        obtain ⟨p', rfl, hadv⟩ := turn_locked (show alonePlacing.turn ix db t = _ from hcreate)
        exact place_sees h hadv
    | moving orderId t =>
        obtain ⟨t', rfl, -, hs⟩ := moveTurn_locked hlock
        exact move_sees h hs (.inr rfl)
    | wasting t =>
        obtain ⟨l, t', -, -, rfl⟩ := Turn.map_lock hlock
        trivial
    | ended => cases hlock
  -- who has committed has nothing left that it could have seen
  commit ix db t db' u _ _ _ hturn := by
    obtain ⟨task, seen⟩ := t
    obtain ⟨task', seen'⟩ := u
    have hcommits : DrawCommits db task db' task' :=
      drawTurn_commits (Session.watched_commit hturn)
    refine ⟨trivial, ?_, fun u hu => hu.kept hcommits.sameBook⟩
    cases hcommits <;> trivial
  rollback ix db t u _ _ _ hturn := by
    obtain ⟨task, seen⟩ := t
    obtain ⟨task', seen'⟩ := u
    have hback : drawTurn ix db task = .rollback task' := Session.watched_rollback hturn
    cases task with
    | placing t =>
        obtain ⟨t', hcreate, rfl⟩ := Turn.map_rollback hback
        obtain ⟨p', rfl, -, hend⟩ :=
          turn_rolledBack (show alonePlacing.turn ix db t = _ from hcreate)
        cases hend <;> trivial
    | moving orderId t =>
        obtain rfl := moveTurn_rolledBack hback
        trivial
    | wasting t =>
        obtain ⟨t', -, rfl⟩ := Turn.map_rollback hback
        trivial
    | ended => cases hback
  env _ e := e.elim

/-! ## §6. The draws of a run. -/

/-- What a transaction that commits relies on is as it has read it: what remains of the
batches a sale takes from, the status a change is decided by; and what is wasted is
left. -/
def DrawsStand (db : Db) : DrawTask × Option Db → Prop
  | (.placing (r, .writing _ tx []), seen) => ¬ r.dto.held →
      ∀ was ∈ seen, BatchesAsRead was db (placementLines tx.menu r.dto.items)
  | (.moving orderId (tx, .restocked o _ _ _), seen) => statusOf db orderId = some o.status
      ∧ (resuming o.status tx.toStatus →
        ∀ was ∈ seen, BatchesAsRead was db (resumeLines o.items))
  | (.wasting (r, .staged _), _) => r.dto.quantity ≤ remainingOf db.movements r.batchId
  | _ => True

instance (db : Db) (t : DrawTask × Option Db) : Decidable (DrawsStand db t) := by
  unfold DrawsStand
  split <;> infer_instance

/-- Draws side by side, with the order of their commits beside them. -/
abbrev DrawConfig := Sessions (Journal Db DrawTask) (DrawTask × Option Db) DrawLock

/-- The sessions, each commit noted as the transaction stood then. -/
def drawJournal :
    Session (Journal Db DrawTask) (DrawTask × Option Db) DrawCall DrawLock OrderIndex Empty :=
  drawSeen.noted Prod.fst

/-- Any number of placements, status changes and wastes at once, from `db`. -/
def drawRace (db : Db) : System DrawConfig (SessionEvent DrawCall OrderIndex Empty) :=
  drawJournal.interleaved fun s => s = .blank db

/-- Whoever moves with this step finds what it has read. -/
def DrawsCurrent (c : DrawConfig) : SessionEvent DrawCall OrderIndex Empty → Prop
  | .run i _ => ∀ t ∈ c.running i, DrawsStand c.shared.db t
  | _ => True

instance (c : DrawConfig) (e : SessionEvent DrawCall OrderIndex Empty) :
    Decidable (DrawsCurrent c e) := by
  unfold DrawsCurrent
  split <;> infer_instance

/-- With the batches as it has read them, a sale computes its rows again. -/
theorem soldRows_asRead {db : Db} {seen : Option Db} {r : CreateCall} {tx : CreateTx}
    (hseen : RowsOfSeen seen db (fun was => soldRows was r tx.menu tx.order.id) tx.moved)
    (hread : ¬ r.dto.held →
      ∀ was ∈ seen, BatchesAsRead was db (placementLines tx.menu r.dto.items)) :
    soldRows db r tx.menu tx.order.id = tx.moved.map (·.toNewMovement) := by
  obtain ⟨was, hmem, hsame, hrows⟩ := hseen
  rw [← hrows]
  unfold soldRows
  split
  next => rfl
  next hheld => exact depletionRows_asRead hsame (hread hheld was hmem) _ _ _

theorem resumedRows_asRead {db : Db} {seen : Option Db} {tx : StatusTx} {o : Order}
    {rows : List StockMovement}
    (hseen : RowsOfSeen seen db (fun was => resumedRows was tx o) rows)
    (hread : resuming o.status tx.toStatus →
      ∀ was ∈ seen, BatchesAsRead was db (resumeLines o.items)) :
    resumedRows db tx o = rows.map (·.toNewMovement) := by
  obtain ⟨was, hmem, hsame, hrows⟩ := hseen
  rw [← hrows]
  unfold resumedRows
  split
  next hresuming => exact depletionRows_asRead hsame (hread hresuming was hmem) _ _ _
  next => rfl

/-- **A commit that finds what it has read is the transaction on its own**, on what is
committed then. -/
theorem draw_commit {ix : OrderIndex} {db db' : Db} {t : DrawTask} {u : DrawTask}
    {seen : Option Db} (hk : DrawKnows db t) (hsees : DrawSees db (t, seen))
    (hstand : DrawsStand db (t, seen)) (h : drawTurn ix db t = .commit db' u) :
    drawExec db t = some db' := by
  cases drawTurn_commits h with
  | @placing r left tx =>
      have hseen : RowsOfSeen seen db
          (fun was => soldRows was r tx.menu tx.order.id) tx.moved :=
        hsees.resolve_left List.not_mem_nil
      have hmoved : movementRows db r tx.menu tx.order.id = .ok tx.moved := by
        rw [movementRows_eq, soldRows_asRead hseen hstand]
        exact storeRows_stored hk.2
      show (tx.place r db).toOption = _
      rw [place_ok.mpr ⟨hk.1, tx.moved, hmoved, rfl⟩]
      rfl
  | @moving orderId tx o found rows back =>
      obtain ⟨hdecided, hown, hback⟩ := hk
      obtain ⟨hstatus, hread⟩ := hstand
      -- what is returned is known; what resuming draws is what it would draw now
      have hstored : storeRows (resumedRows db tx o) = .ok rows := by
        rw [resumedRows_asRead hsees hread]
        exact storeRows_stored hown
      show (updateStatus _ _ _ _ _ _).toOption = _
      rw [move_commit hdecided.permitted hdecided.can hdecided.still hstatus hstored hback]
      rfl
  | @wasting r row =>
      show ((r.perform db).map (·.2)).toOption = _
      rw [waste_commit hk hstand]
      rfl

/-- What one transaction does on its own to the batches. -/
theorem drawExec_effect {db db' : Db} {t : DrawTask} (h : drawExec db t = some db') :
    BatchEffect db db' := by
  cases t with
  | placing t =>
      obtain ⟨r, p⟩ := t
      cases p with
      | writing left tx todo =>
          obtain ⟨-, moved, hmoved, rfl⟩ := place_ok.mp (toOption_some.mp h)
          rw [movementRows_eq] at hmoved
          have hrows := storeRows_ok hmoved
          -- a held order draws nothing
          unfold soldRows at hrows
          split at hrows
          · refine .still ⟨rfl, moved, rfl, ?_⟩
            rw [List.map_eq_nil_iff.mp hrows]
            exact List.forall_mem_nil _
          · exact .sold rfl rfl hrows
      | _ => cases h
  | moving orderId t =>
      have hserved : perform ⟨db, []⟩ (.updateStatus t.1.ctx t.1.now orderId t.1.toStatus
          t.1.reason) = .ok ⟨db', []⟩ := by
        have hok : updateStatus db t.1.ctx t.1.now orderId t.1.toStatus t.1.reason = .ok db' :=
          toOption_some.mp h
        show updateStatus _ _ _ _ _ _ >>= _ = _
        rw [hok]
        rfl
      exact perform_batchEffect hserved
  | wasting t =>
      obtain ⟨r, p⟩ := t
      have hok : (r.perform db).map (·.2) = .ok db' := toOption_some.mp h
      cases hrun : r.perform db with
      | error e =>
          rw [hrun] at hok
          cases hok
      | ok result =>
          rw [hrun] at hok
          cases hok
          exact wasteBatch_batchEffect hrun
  | ended => cases h

/-- One transaction after the other overdraws no batch. -/
theorem drawReplay_batchInv {log : List DrawTask} {db db' : Db} (hdb : BatchInv db)
    (h : System.replay drawExec log db = some db') : BatchInv db' := by
  induction log generalizing db with
  | nil =>
      cases h
      exact hdb
  | cons t log ih =>
      obtain ⟨db₁, hfirst, hrest⟩ := Option.bind_eq_some_iff.mp h
      exact ih ((drawExec_effect hfirst).batchInv hdb) hrest

/-- **Draws serialise** as long as every transaction that commits finds the batches and the
status as it has read them, and what it wastes: the batches are as the committed
transactions leave them one after the other, and none is overdrawn. -/
theorem draws_serialise {db : Db} {c : DrawConfig}
    (h : ((drawRace db).restrict DrawsCurrent).Reachable c) :
    c.shared.Serializable drawExec (fun db => remainingOf db.movements) db
      ∧ (BatchInv db →
        ∀ b ∈ c.shared.db.prepBatches, 0 ≤ remainingOf c.shared.db.movements b.id) := by
  have hreplay : System.replay drawExec c.shared.log db = some c.shared.db := by
    refine Session.replays (fun _ hs => hs) (fun _ e => e.elim) ?_ h
    intro c i ix t s' u hreach hcurrent hi hturn
    obtain ⟨hcommit, hnote⟩ := Session.noted_commit hturn
    obtain ⟨⟨hknow, hsees⟩, -⟩ := (Session.invariant
      (drawSession_knows.watched.learn drawSession_seen).noted
      (fun _ _ => ⟨trivial, trivial⟩) hreach).2 i t hi
    exact .inr ⟨t.1, hnote,
      draw_commit hknow hsees (hcurrent t hi) (Session.watched_commit hcommit)⟩
  exact ⟨Journal.serializable_of_replay hreplay _,
    fun hdb => (drawReplay_batchInv hdb hreplay).remaining⟩

/-- The curd of one batch, and a lassi on the menu. -/
def curdLeft : Db := (after (curdDay.take 1) curdKitchen).db

/-- A lassi is ordered. -/
def placeLassi : DrawCall := .place ⟨cashier, ⟨20, 1⟩, lassiOrder none none none⟩

/-- Some of the curd is written off. -/
def wasteCurd (quantity : ℤ) (h : quantity ∈ [(100 : ℤ), 500]) : DrawCall :=
  .waste ⟨cashier, 30, quantity, none, none, by
    rcases List.mem_cons.mp h with rfl | h
    · decide
    · rw [List.mem_singleton.mp h]
      decide⟩

/-- What remains is checked for the waste first, and the waste commits last. -/
def wasteAround (quantity : ℤ) (h : quantity ∈ [(100 : ℤ), 500]) :
    List (SessionEvent DrawCall OrderIndex Empty) :=
  let sale : List OrderIndex := List.replicate 7 .id ++ [.number, .key] ++ List.replicate 9 .id
  [.begin 0 placeLassi, .begin 1 (wasteCurd quantity h)] ++ List.replicate 3 (.run 1 .id)
    ++ sale.map (.run 0) ++ List.replicate 3 (.run 1 .id)

/-- The curd of the runs below is in order. -/
theorem curdLeft_batchInv : BatchInv curdLeft := by
  have hrun : (System.replay serve (curdDay.take 1) curdKitchen).isSome = true := by decide +kernel
  exact kitchen_batchInv (kitchen_after curdKitchen_init hrun)

theorem someLeft_runs : (System.replay (System.guarded DrawsCurrent drawJournal.act)
    (wasteAround 100 (by decide)) (Session.quiet (.blank curdLeft))).isSome = true := by
  decide +kernel

/-- The curd is enough for both, in the order of their commits. -/
theorem draws_serialise_someLeft : ∃ c : DrawConfig, c.shared.log.length = 2
    ∧ remainingOf c.shared.db.movements 30 = 250
    ∧ c.shared.Serializable drawExec (fun db => remainingOf db.movements) curdLeft
    ∧ ∀ b ∈ c.shared.db.prepBatches, 0 ≤ remainingOf c.shared.db.movements b.id := by
  have hreach : ((drawRace curdLeft).restrict DrawsCurrent).Reachable _ :=
    Session.replay_guarded (by rfl) (wasteAround 100 (by decide)) (Option.some_get someLeft_runs).symm
  obtain ⟨hserial, hleft⟩ := draws_serialise hreach
  exact ⟨_, by decide +kernel, by decide +kernel, hserial, hleft curdLeft_batchInv⟩

theorem noneLeft_runs : (System.replay drawJournal.act (wasteAround 500 (by decide))
    (Session.quiet (.blank curdLeft))).isSome = true := by
  decide +kernel

/-- The lassi has taken some of the curd that is wasted: there is no order in which both
get it. -/
theorem draws_overlap : ∃ c, (drawRace curdLeft).Reachable c
    ∧ remainingOf c.shared.db.movements 30 < 0
    ∧ ¬ c.shared.Serializable drawExec (fun db => remainingOf db.movements) curdLeft := by
  have hreach : (drawRace curdLeft).Reachable _ :=
    Session.replay_reached (by rfl) (wasteAround 500 (by decide)) (Option.some_get noneLeft_runs).symm
  refine ⟨_, hreach, by decide +kernel, ?_⟩
  intro hserial
  have hpair := hserial.pair (by decide +kernel)
  have hseen := hpair.imp (congrArg (Option.map (· 30))) (congrArg (Option.map (· 30)))
  simp only [Option.map_map, Option.map_some] at hseen
  revert hseen
  decide +kernel

end OraOS.Orders
