/-
  OraOS.Procurement.ReceiveRace — `ProcurementService.transition` under READ COMMITTED,
  any number of calls on any purchase orders at once.

  A call locks its order's row before it reads the status, and what it writes appears
  with its commit: the status, the movements of a receipt and the event together.

    * `poTurn`               — the statements of a call;
    * `transition_alone`     — on its own a call is `transition`;
    * `poSession_knows`      — the status a call has read stands while it has the lock;
    * `order_received_once`  — the statuses are a path of the whitelist, and the order's
                               movements are those of one receipt or of none.
-/
import OraOS.Procurement.PurchaseOrders
import OraOS.Lib.Journal

namespace OraOS.Procurement

open OraOS.Api
open OraOS.Lib
open OraOS.Inventory

/-! ## §1. What a transition writes. -/

/-- The purchase order a request names. -/
def findPurchaseOrder (db : Db) (id : Uuid) : Option PurchaseOrder :=
  db.purchaseOrders.find? fun po => po.id = id

/-- It has the id asked for. -/
theorem findPurchaseOrder_id {db : Db} {id : Uuid} {po : PurchaseOrder}
    (h : findPurchaseOrder db id = some po) : po.id = id := by
  simpa using List.find?_some h

/-- A call of `transition` on the order `id`. -/
structure PoCall where
  ctx : TenantContext
  now : Instant
  id : Uuid
  toStatus : PurchaseOrderStatus

/-- The request of a call, made alone. -/
def PoCall.perform (r : PoCall) (db : Db) : Except ApiError Db :=
  transition db r.ctx r.now r.id r.toStatus

/-- The whitelist, and something to receive. -/
def checkTransition (r : PoCall) (po : PurchaseOrder) : Except ApiError Unit := do
  require (r.toStatus ∈ transitions po.status)
    (.conflict ("A " ++ statusText po.status ++ " order cannot move to "
      ++ statusText r.toStatus))
  require (r.toStatus = .received → po.items ≠ [])
    (.badRequest "Cannot receive an order with no items")

/-- What arrives with the new status. -/
def arriving (r : PoCall) (po : PurchaseOrder) : List NewMovement :=
  if r.toStatus = .received then receiptRows r.ctx po else []

/-- The purchase order after the move. -/
def movedTo (r : PoCall) (po : PurchaseOrder) : PurchaseOrder :=
  { po with
    status := r.toStatus
    orderedAt := if r.toStatus = .ordered then some r.now else po.orderedAt
    receivedAt := if r.toStatus = .received then some r.now else po.receivedAt }

/-- The commit of a transition. -/
def publishTransition (db : Db) (r : PoCall) (po : PurchaseOrder) (rows : List StockMovement) :
    Db :=
  Db.record { db with
    movements := db.movements ++ rows
    purchaseOrders := db.purchaseOrders.map fun p => if p.id = r.id then movedTo r po else p }
    r.ctx r.id (.purchaseOrderMoved r.toStatus po.supplierId po.items.length)

/-- What arrives has no idempotency key. -/
theorem arriving_unkeyed {r : PoCall} {po : PurchaseOrder} :
    ∀ m ∈ arriving r po, m.idempotencyKey = none := by
  intro m hm
  unfold arriving at hm
  split at hm
  · obtain ⟨it, -, rfl⟩ := List.mem_map.mp hm
    rfl
  · cases hm

/-- **`transition`, statement by statement**, when nothing happens in between. -/
theorem transition_eq (db : Db) (r : PoCall) :
    r.perform db = (do
      let po ← found (findPurchaseOrder db r.id) (.notFound "Purchase order not found")
      checkTransition r po
      let rows ← storeRows (arriving r po)
      pure (publishTransition db r po rows)) := by
  show transition db r.ctx r.now r.id r.toStatus = _
  unfold transition checkTransition
  simp only [bind_assoc]
  refine bind_congr fun po => bind_congr fun _ => bind_congr fun _ => ?_
  show createMany db.movements (arriving r po) >>= _ = _
  -- receipts have no key, so the batch insert only stores
  rw [createMany_unkeyed arriving_unkeyed, mapped_bind]
  rfl

/-! ## §2. The calls, statement by statement. -/

/-- What has been committed: a transition, with the status it left and its rows, or
something elsewhere. -/
inductive PoEntry where
  | moved (r : PoCall) (rows : List StockMovement)
  | elsewhere (rows : List StockMovement)

/-- The movements a step of the log brought. -/
def PoEntry.rows : PoEntry → List StockMovement
  | .moved _ rows => rows
  | .elsewhere rows => rows

/-- The tables, and the steps that wrote them. -/
abbrev PoJournal := Journal Db PoEntry

/-- Where a call stands between its statements. -/
inductive PoPhase where
  | asked
  | locked
  | checked (po : PurchaseOrder)
  | staged (po : PurchaseOrder) (rows : List StockMovement)
  | answered (result : Except ApiError Unit)

/-- One turn of a call: statements, a lock, a commit or an answer. -/
abbrev PoTurn := Turn PoJournal (PoCall × PoPhase) Uuid

/-- A call that fails answers with its error. -/
def PoCall.fail (r : PoCall) (e : ApiError) : PoCall × PoPhase := (r, .answered (.error e))

/-- The next statement of a call. -/
def poTurn (s : PoJournal) : PoCall × PoPhase → PoTurn
  | (r, .asked) =>
      -- SELECT … FOR UPDATE, before anything is read
      match findPurchaseOrder s.db r.id with
      | some _ => .lock r.id (r, .locked)
      | none => .rollback (r.fail (.notFound "Purchase order not found"))
  | (r, .locked) =>
      .orRollback (found (findPurchaseOrder s.db r.id) (.notFound "Purchase order not found"))
        r.fail fun po => .orRollback (checkTransition r po) r.fail fun _ => .go (r, .checked po)
  | (r, .checked po) =>
      .orRollback (storeRows (arriving r po)) r.fail fun rows => .go (r, .staged po rows)
  | (r, .staged po rows) =>
      .commit (s.note (publishTransition s.db r po rows) (.moved r rows)) (r, .answered (.ok ()))
  | (_, .answered _) => .idle

/-- A commit of any other request: purchase orders are only drafted there, and the ledger
only grows. -/
structure PoBystander where
  write : Db → Db
  orders : ∀ db, ∃ new, (write db).purchaseOrders = db.purchaseOrders ++ new
  ledger : ∀ db, ∃ new, (write db).movements = db.movements ++ new

/-- The movements that came from elsewhere. -/
def PoBystander.rows (e : PoBystander) (db : Db) : List StockMovement :=
  (e.write db).movements.drop db.movements.length

/-- They are behind those that were there. -/
theorem PoBystander.movements (e : PoBystander) (db : Db) :
    (e.write db).movements = db.movements ++ e.rows db := by
  obtain ⟨new, hnew⟩ := e.ledger db
  unfold PoBystander.rows
  rw [hnew, List.drop_left]

/-- Nobody else touches a purchase order. -/
theorem findPurchaseOrder_bystander (e : PoBystander) {db : Db} {id : Uuid} {po : PurchaseOrder}
    (h : findPurchaseOrder db id = some po) : findPurchaseOrder (e.write db) id = some po := by
  obtain ⟨new, hnew⟩ := e.orders db
  unfold findPurchaseOrder at h ⊢
  rw [hnew, List.find?_append, h]
  rfl

/-- Moves of purchase orders side by side, and the rest of the shop beside them. -/
def poSession : Session PoJournal (PoCall × PoPhase) PoCall Uuid Unit PoBystander where
  start r := (r, .asked)
  turn _ := poTurn
  env s e := s.note (e.write s.db) (.elsewhere (e.rows s.db))

/-- Transitions of purchase orders among everything else, from a database `db`. -/
def poRace (db : Db) : System (Sessions PoJournal (PoCall × PoPhase) Uuid)
    (SessionEvent PoCall Unit PoBystander) :=
  poSession.interleaved fun s => s = .blank db

/-- The statements, with what each of them has seen. -/
inductive PoMoves (s : PoJournal) : PoCall × PoPhase → PoTurn → Prop where
  | asks {r : PoCall} : PoMoves s (r, .asked) (.lock r.id (r, .locked))
  | checks {r : PoCall} {po : PurchaseOrder} (hfind : findPurchaseOrder s.db r.id = some po)
      (hcheck : checkTransition r po = .ok ()) : PoMoves s (r, .locked) (.go (r, .checked po))
  | stages {r : PoCall} {po : PurchaseOrder} {rows : List StockMovement}
      (hrows : storeRows (arriving r po) = .ok rows) :
      PoMoves s (r, .checked po) (.go (r, .staged po rows))
  | moves {r : PoCall} {po : PurchaseOrder} {rows : List StockMovement} :
      PoMoves s (r, .staged po rows)
        (.commit (s.note (publishTransition s.db r po rows) (.moved r rows))
          (r, .answered (.ok ())))
  | ends {r : PoCall} {phase : PoPhase} {result : Except ApiError Unit} :
      PoMoves s (r, phase) (.rollback (r, .answered result))
  | idles {t : PoCall × PoPhase} : PoMoves s t .idle

/-- **The step inversion.** -/
theorem poTurn_moves (s : PoJournal) (t : PoCall × PoPhase) : PoMoves s t (poTurn s t) := by
  obtain ⟨r, phase⟩ := t
  cases phase with
  | asked =>
      simp only [poTurn]
      split
      · exact .asks
      · exact .ends
  | locked =>
      simp only [poTurn]
      cases hfind : findPurchaseOrder s.db r.id with
      | none => exact .ends
      | some po =>
          show PoMoves s _ (.orRollback (checkTransition r po) _ _)
          cases hcheck : checkTransition r po with
          | error e => exact .ends
          | ok u => exact .checks hfind hcheck
  | checked po =>
      simp only [poTurn]
      cases hrows : storeRows (arriving r po) with
      | error e => exact .ends
      | ok rows => exact .stages hrows
  | staged po rows => exact .moves
  | answered result => exact .idles

theorem poSession_inverts : poSession.Inverts PoMoves := fun _ => poTurn_moves

/-! ## §3. On its own a call is `transition`. -/

/-- How a call ends: with its answer, and what it returns on its own is committed. -/
def PoEnds (s : PoJournal) (r : PoCall) (out : Except ApiError Db) (s' : PoJournal)
    (t : PoCall × PoPhase) : Prop :=
  t = (r, .answered (out.map fun _ => ())) ∧ s'.db = out.toOption.getD s.db

/-- **A call that has its lock, alone, is the request.** -/
theorem transition_settles (s : PoJournal) (r : PoCall) :
    poSession.Settles (PoEnds s r) s (r, .locked) (r.perform s.db) := by
  have hfail : ∀ e, poSession.Settles (PoEnds s r) s (r.fail e) (.error e) :=
    fun _ => .ended ⟨rfl, rfl⟩
  rw [transition_eq]
  refine .check (o := ()) rfl hfail fun po _ hturn => ?_
  refine .check hturn hfail fun _ _ hturn => .go hturn ?_
  refine .check (o := ()) rfl hfail fun rows _ hturn => .go hturn ?_
  exact .commit (o := ()) rfl (.ended ⟨rfl, rfl⟩)

/-- **On its own a call is `transition`**: what is committed then, and its answer. -/
theorem transition_alone (s : PoJournal) (r : PoCall) :
    ∃ s', poSession.Leads s (r, .asked) s' (r, .answered ((r.perform s.db).map fun _ => ()))
      ∧ s'.db = (r.perform s.db).toOption.getD s.db := by
  cases hfind : findPurchaseOrder s.db r.id with
  | none =>
      have hperform : r.perform s.db = .error (.notFound "Purchase order not found") := by
        rw [transition_eq, hfind]
        rfl
      have hturn : poTurn s (r, .asked)
          = .rollback (r.fail (.notFound "Purchase order not found")) := by
        simp only [poTurn, hfind]
      rw [hperform]
      exact ⟨s, .rollback (o := ()) hturn (.refl _ _), rfl⟩
  | some po =>
      have hturn : poTurn s (r, .asked) = .lock r.id (r, .locked) := by
        simp only [poTurn, hfind]
      obtain ⟨s', _, hleads, rfl, hdb⟩ := transition_settles s r
      exact ⟨s', .lock (o := ()) hturn hleads, hdb⟩

/-! ## §4. What a call knows. -/

/-- The order as the call has read it is the order, and the call may move it. -/
def PoKnows (s : PoJournal) : PoCall × PoPhase → Prop
  | (_, .asked) => True
  | (_, .locked) => True
  | (r, .checked po) => findPurchaseOrder s.db r.id = some po ∧ checkTransition r po = .ok ()
  | (r, .staged po rows) => findPurchaseOrder s.db r.id = some po ∧ checkTransition r po = .ok ()
      ∧ storeRows (arriving r po) = .ok rows
  | (_, .answered _) => True

/-- Whether a call has locked its row. -/
def PoPhase.locks : PoPhase → Bool
  | .asked | .answered _ => false
  | _ => true

/-- It holds the row it was asked to move. -/
def PoHolds (t : PoCall × PoPhase) (id : Uuid) : Prop := id = t.1.id ∧ t.2.locks = true

/-- **A move changes one purchase order.** -/
theorem findPurchaseOrder_publish {db : Db} {r : PoCall} {po : PurchaseOrder}
    {rows : List StockMovement} (hid : po.id = r.id) (id : Uuid) :
    findPurchaseOrder (publishTransition db r po rows) id
      = (findPurchaseOrder db id).map fun p => if p.id = r.id then movedTo r po else p := by
  show (db.purchaseOrders.map _).find? _ = _
  rw [List.find?_map]
  unfold findPurchaseOrder
  congr 1
  refine congrArg (db.purchaseOrders.find? ·) (funext fun p => ?_)
  show decide ((if p.id = r.id then movedTo r po else p).id = id) = decide (p.id = id)
  -- only the moved row changes, and it keeps its id
  by_cases hp : p.id = r.id
  · rw [if_pos hp, hp]
    show decide (po.id = id) = _
    rw [hid]
  · rw [if_neg hp]

/-- The others are found as before. -/
theorem findPurchaseOrder_publish_other {db : Db} {r : PoCall} {po : PurchaseOrder}
    {rows : List StockMovement} (hid : po.id = r.id) {id : Uuid} (hne : id ≠ r.id) :
    findPurchaseOrder (publishTransition db r po rows) id = findPurchaseOrder db id := by
  rw [findPurchaseOrder_publish hid]
  cases hfind : findPurchaseOrder db id with
  | none => rfl
  | some p =>
      show some (if p.id = r.id then movedTo r po else p) = some p
      rw [if_neg (findPurchaseOrder_id hfind ▸ hne)]

/-- The moved one is found moved. -/
theorem findPurchaseOrder_publish_self {db : Db} {r : PoCall} {po : PurchaseOrder}
    {rows : List StockMovement} (hfind : findPurchaseOrder db r.id = some po) :
    findPurchaseOrder (publishTransition db r po rows) r.id = some (movedTo r po) := by
  have hid := findPurchaseOrder_id hfind
  rw [findPurchaseOrder_publish hid, hfind]
  show some (if po.id = r.id then movedTo r po else po) = _
  rw [if_pos hid]

/-- What a call has read stays so while it holds the row. -/
theorem PoKnows.kept {s s' : PoJournal} {u : PoCall × PoPhase}
    (hkeep : u.2.locks = true → ∀ po, findPurchaseOrder s.db u.1.id = some po →
      findPurchaseOrder s'.db u.1.id = some po)
    (hu : PoKnows s u) : PoKnows s' u := by
  obtain ⟨r, phase⟩ := u
  cases phase with
  | asked => exact trivial
  | locked => exact trivial
  | checked po => exact ⟨hkeep rfl _ hu.1, hu.2⟩
  | staged po rows => exact ⟨hkeep rfl _ hu.1, hu.2⟩
  | answered result => exact trivial

/-- **What is read under the lock stands until the call ends.** -/
theorem poSession_knows : poSession.Knows (fun _ => True) PoKnows PoHolds where
  start s r _ := ⟨trivial, fun k h => Bool.false_ne_true h.2⟩
  go o s t t' _ hk hturn := by
    cases poSession_inverts.moves hturn with
    | checks hfind hcheck => exact ⟨⟨hfind, hcheck⟩, fun k h => h⟩
    | stages hrows => exact ⟨⟨hk.1, hk.2, hrows⟩, fun k h => h⟩
  lock o s t t' k _ hk hturn := by
    cases poSession_inverts.moves hturn with
    | asks => exact ⟨trivial, fun k' h => .inl h.1⟩
  commit o s t s' t' _ hk hturn := by
    cases poSession_inverts.moves hturn with
    | @moves r po rows =>
        have hid := findPurchaseOrder_id hk.1
        refine ⟨trivial, trivial, fun k h => Bool.false_ne_true h.2, ?_⟩
        intro u hu hfree
        -- whoever holds another row still finds it as it was
        refine hu.kept fun hlocks p hp => ?_
        show findPurchaseOrder (publishTransition s.db r po rows) u.1.id = some p
        rw [findPurchaseOrder_publish_other hid]
        · exact hp
        · intro heq
          exact hfree r.id ⟨rfl, rfl⟩ ⟨heq.symm, hlocks⟩
  rollback o s t t' _ hk hturn := by
    cases poSession_inverts.moves hturn with
    | ends => exact ⟨trivial, fun k h => Bool.false_ne_true h.2⟩
  env s e _ := ⟨trivial, fun u hu => hu.kept fun _ _ hp => findPurchaseOrder_bystander e hp⟩

/-! ## §5. Received once. -/

/-- What the calls on one order have committed. -/
def movesOf (id : Uuid) (log : List PoEntry) : List (PoCall × List StockMovement) :=
  log.filterMap fun
    | .moved r rows => if r.id = id then some (r, rows) else none
    | .elsewhere _ => none

/-- A move of a purchase order is the latest of its moves. -/
theorem movesOf_snoc_self {id : Uuid} {log : List PoEntry} {r : PoCall}
    {rows : List StockMovement} (hid : r.id = id) :
    movesOf id (log ++ [.moved r rows]) = movesOf id log ++ [(r, rows)] := by
  unfold movesOf
  rw [List.filterMap_append]
  simp [hid]

/-- Moves of others are none of its own. -/
theorem movesOf_snoc_other {id : Uuid} {log : List PoEntry} {r : PoCall}
    {rows : List StockMovement} (hid : r.id ≠ id) :
    movesOf id (log ++ [.moved r rows]) = movesOf id log := by
  unfold movesOf
  rw [List.filterMap_append]
  simp [hid]

theorem movesOf_snoc_elsewhere {id : Uuid} {log : List PoEntry} {rows : List StockMovement} :
    movesOf id (log ++ [.elsewhere rows]) = movesOf id log := by
  unfold movesOf
  rw [List.filterMap_append]
  simp

/-- The statuses an order has gone through. -/
def statusesOf (first : PurchaseOrder) (moves : List (PoCall × List StockMovement)) :
    List PurchaseOrderStatus :=
  first.status :: moves.map (·.1.toStatus)

/-- **The life of an order** that was `first` and is `po`: its statuses are a path of the
whitelist, only a receipt writes movements, one for each item, and there is one receipt
if and only if the order is received. -/
structure Lifecycle (first po : PurchaseOrder) (moves : List (PoCall × List StockMovement)) :
    Prop where
  supplier : po.supplierId = first.supplierId
  items : po.items = first.items
  path : (statusesOf first moves).IsChain fun a b => b ∈ transitions a
  last : (statusesOf first moves).getLast? = some po.status
  rows : ∀ m ∈ moves, m.2.map (·.toNewMovement)
    = if m.1.toStatus = .received then receiptRows m.1.ctx first else []
  once : (moves.filter fun m => decide (m.1.toStatus = .received)).length
    = if first.status ≠ .received ∧ po.status = .received then 1 else 0

/-- Before its first move a purchase order is as it was. -/
theorem Lifecycle.fresh (po : PurchaseOrder) : Lifecycle po po [] where
  supplier := rfl
  items := rfl
  path := .singleton _
  last := rfl
  rows := List.forall_mem_nil _
  once := by
    rw [if_neg]
    · rfl
    · intro h
      exact h.1 h.2

/-- Nothing leads out of RECEIVED. -/
theorem not_received_of_transition {s t : PurchaseOrderStatus} (h : t ∈ transitions s) :
    s ≠ .received := by
  rintro rfl
  cases h

/-- An order received at the start has not moved. -/
theorem Lifecycle.no_move {first po : PurchaseOrder} {moves : List (PoCall × List StockMovement)}
    (h : Lifecycle first po moves) (hreceived : first.status = .received) :
    po.status = .received := by
  cases moves with
  | nil =>
      have hlast : some first.status = some po.status := h.last
      rw [← Option.some.inj hlast]
      exact hreceived
  | cons m moves =>
      have hfirst : m.1.toStatus ∈ transitions first.status := (List.isChain_cons_cons.mp h.path).1
      exact absurd hreceived (not_received_of_transition hfirst)

/-- **A move that passed the check extends the path.** -/
theorem Lifecycle.moved {first po : PurchaseOrder} {moves : List (PoCall × List StockMovement)}
    (h : Lifecycle first po moves) {r : PoCall} {rows : List StockMovement}
    (hcheck : checkTransition r po = .ok ()) (hrows : storeRows (arriving r po) = .ok rows) :
    Lifecycle first (movedTo r po) (moves ++ [(r, rows)]) := by
  obtain ⟨_, hstep, -⟩ := bind_ok.mp hcheck
  have hallowed := require_ok.mp hstep
  have hlive := not_received_of_transition hallowed
  have hstatuses : statusesOf first (moves ++ [(r, rows)])
      = statusesOf first moves ++ [r.toStatus] := by
    unfold statusesOf
    rw [List.map_append]
    rfl
  refine ⟨h.supplier, h.items, ?_, ?_, ?_, ?_⟩
  · rw [hstatuses]
    refine h.path.append (.singleton _) ?_
    intro a ha b hb
    rw [h.last] at ha
    cases ha
    cases hb
    exact hallowed
  · rw [hstatuses, List.getLast?_concat]
    rfl
  · intro m hm
    rcases List.mem_append.mp hm with hm | hm
    · exact h.rows m hm
    · rw [List.mem_singleton.mp hm, storeRows_ok hrows]
      unfold arriving receiptRows
      rw [h.items, h.supplier]
  -- it was not received yet, so this is the first receipt or none
  · have hnone : (moves.filter fun m => decide (m.1.toStatus = .received)).length = 0 := by
      rw [h.once, if_neg fun hboth => hlive hboth.2]
    have hfirst : first.status ≠ .received := fun heq => hlive (h.no_move heq)
    rw [List.filter_append, List.length_append, hnone]
    show 0 + ([(r, rows)].filter _).length = if first.status ≠ .received ∧ r.toStatus = .received
      then 1 else 0
    by_cases hr : r.toStatus = .received
    · rw [if_pos ⟨hfirst, hr⟩]
      simp [hr]
    · rw [if_neg fun hboth => hr hboth.2]
      simp [hr]

/-- The order with its life so far. -/
def PoStory (id : Uuid) (first : PurchaseOrder) (s : PoJournal) : Prop :=
  ∃ po, findPurchaseOrder s.db id = some po ∧ Lifecycle first po (movesOf id s.log)

/-- The ledger is what it was, and what has been committed since. -/
def PoLedger (ledger : List StockMovement) (s : PoJournal) : Prop :=
  s.db.movements = ledger ++ s.log.flatMap PoEntry.rows

/-- The movements are those the steps of the log brought. -/
theorem PoLedger.note {ledger rows : List StockMovement} {s : PoJournal} {db : Db}
    {entry : PoEntry} (h : PoLedger ledger s) (hdb : db.movements = s.db.movements ++ rows)
    (hrows : entry.rows = rows) : PoLedger ledger (s.note db entry) := by
  rw [← hrows] at hdb
  exact Journal.grown h hdb

/-- **The story of a purchase order, commit by commit.** -/
theorem poSession_learns (ledger : List StockMovement) (id : Uuid) (first : PurchaseOrder) :
    poSession.Learns PoKnows (fun s => PoStory id first s ∧ PoLedger ledger s)
      (fun _ _ => True) where
  start _ _ _ := trivial
  go _ _ _ _ _ _ _ _ := trivial
  lock _ _ _ _ _ _ _ _ _ := trivial
  commit o s t s' t' hinv hk _ hturn := by
    obtain ⟨⟨po, hpo, hlife⟩, hledger⟩ := hinv
    cases poSession_inverts.moves hturn with
    | @moves r read rows =>
        obtain ⟨hfind, hcheck, hrows⟩ := hk
        refine ⟨⟨?_, hledger.note rfl rfl⟩, trivial, fun _ _ => trivial⟩
        -- a move of this order goes one step on; one of another order leaves it
        by_cases hr : r.id = id
        · subst hr
          cases hpo.symm.trans hfind
          refine ⟨movedTo r po, findPurchaseOrder_publish_self hfind, ?_⟩
          rw [Journal.note_log, movesOf_snoc_self rfl]
          exact hlife.moved hcheck hrows
        · refine ⟨po, ?_, ?_⟩
          · rw [Journal.note_db, findPurchaseOrder_publish_other (findPurchaseOrder_id hfind)
              (Ne.symm hr)]
            exact hpo
          · rw [Journal.note_log, movesOf_snoc_other hr]
            exact hlife
  rollback _ _ _ _ _ _ _ _ := trivial
  env s e hinv := by
    obtain ⟨⟨po, hpo, hlife⟩, hledger⟩ := hinv
    refine ⟨⟨⟨po, findPurchaseOrder_bystander e hpo, ?_⟩, hledger.note (e.movements s.db) rfl⟩,
      fun _ _ => trivial⟩
    rw [show movesOf id (poSession.env s e).log = _ from movesOf_snoc_elsewhere]
    exact hlife

/-- A call that changes anything has succeeded with that, and an answered call does
nothing more. -/
structure PoStep (c : Sessions PoJournal (PoCall × PoPhase) Uuid)
    (e : SessionEvent PoCall Unit PoBystander)
    (c' : Sessions PoJournal (PoCall × PoPhase) Uuid) : Prop where
  changed : (∀ x, e ≠ .env x) → c'.shared = c.shared ∨
    ∃ i r, e = .run i () ∧ c'.running i = some (r, .answered (.ok ()))
  answered : ∀ i r result, c.running i = some (r, .answered result) → e ≠ .run i ()

theorem po_step {c c' : Sessions PoJournal (PoCall × PoPhase) Uuid}
    {e : SessionEvent PoCall Unit PoBystander} (h : poSession.act c e = some c') :
    PoStep c e c' := by
  have hidle : ∀ i r result, c.running i = some (r, .answered result) → e ≠ .run i () := by
    rintro i r result hi rfl
    simp only [Session.act, hi] at h
    cases h
  cases poSession.act_moved h with
  | began _ => exact ⟨fun _ => .inl rfl, hidle⟩
  | went _ _ => exact ⟨fun _ => .inl rfl, hidle⟩
  | locked _ _ _ => exact ⟨fun _ => .inl rfl, hidle⟩
  | @committed i o s' t t' hi hturn =>
      cases poSession_inverts.moves hturn with
      | @moves r _ _ => exact ⟨fun _ => .inr ⟨i, r, rfl, Function.update_self ..⟩, hidle⟩
  | rolledBack _ _ => exact ⟨fun _ => .inl rfl, hidle⟩
  | dropped => exact ⟨fun _ => .inl rfl, hidle⟩
  | @elsewhere x => exact ⟨fun hx => absurd rfl (hx x), hidle⟩

/-- **A purchase order is received exactly once**, whatever transitions and other requests
interleave: its life is a path of the whitelist with one receipt at most, the ledger holds
what was committed, and a refused transition changes nothing. -/
theorem order_received_once {db : Db} {id : Uuid} {first : PurchaseOrder}
    (hfirst : findPurchaseOrder db id = some first)
    {c : Sessions PoJournal (PoCall × PoPhase) Uuid} (h : (poRace db).Reachable c) :
    PoStory id first c.shared ∧ PoLedger db.movements c.shared
      ∧ ∀ e c', (poRace db).step c e c' → PoStep c e c' := by
  have hinv := Session.invariant (poSession_knows.learn
    (poSession_learns db.movements id first)) ?_ h
  · exact ⟨hinv.1.2.1, hinv.1.2.2, fun e c' hstep => po_step hstep⟩
  · rintro s rfl
    exact ⟨trivial, ⟨first, hfirst, .fresh first⟩, (List.append_nil _).symm⟩

/-! ## §6. A delivery of paneer. -/

/-- Who receives the goods. -/
def buyer : TenantContext := ⟨1, 3, 30, []⟩

/-- Ten of paneer, ordered. -/
def paneerOrder : PurchaseOrder :=
  ⟨40, 9, .ordered, none, some 3, some 0, none, [⟨7, 10, some 4000⟩]⟩

/-- One order is on its way. -/
def loadingDock : Db := { Db.empty with purchaseOrders := [paneerOrder] }

/-- The goods are received. -/
def receive : PoCall := ⟨buyer, 100, 40, .received⟩

/-- The button is pressed twice, and someone else cancels. -/
def doubleClick : List (SessionEvent PoCall Unit PoBystander) :=
  [.begin 0 receive, .begin 1 receive, .begin 2 ⟨buyer, 100, 40, .cancelled⟩, .run 0 (), .run 0 (),
    .run 0 (), .run 0 (), .run 1 (), .run 1 (), .run 2 (), .run 2 ()]

theorem doubleClick_runs : (System.replay poSession.act doubleClick
    (Session.quiet (.blank loadingDock))).isSome = true := by decide +kernel

/-- Received twice at once, the paneer comes in once. -/
theorem order_received_once_doubleClick : ∃ c, (poRace loadingDock).Reachable c
    ∧ stockOf c.shared.db.movements 7 = 10 ∧ PoStory 40 paneerOrder c.shared := by
  have hreach : (poRace loadingDock).Reachable _ :=
    Session.replay_reached (by rfl) doubleClick (Option.some_get doubleClick_runs).symm
  exact ⟨_, hreach, by decide +kernel, (order_received_once rfl hreach).1⟩

end OraOS.Procurement
