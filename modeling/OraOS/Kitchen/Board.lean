/-
  OraOS.Kitchen.Board — the kitchen display and the server it follows over a socket.

  The server announces what it has committed to the sockets in the tenant's room.  The board
  loads the active orders, fetches a new order when it hears of it, rewrites the status of a
  ticket when it hears of that, and moves a ticket before the server has when it is tapped.
  Requests and announcements travel apart: neither waits for the other.

    * `announced`           — what a committed request tells the room;
    * `World.act`           — what the board, the server and the network between them do;
    * `perform_announces`   — every change of an order's status is announced, none before
                              it is committed.
-/
import OraOS.Orders.Serial
import OraOS.Orders.Paging
import OraOS.Lib.Replica

namespace OraOS.Kitchen

open OraOS.Api
open OraOS.Lib
open OraOS.Orders

/-! ## §1. Announcements. -/

/-- The two announcements the board listens to. -/
inductive EventName where
  /-- `order.created` -/
  | created
  /-- `order.status_changed` -/
  | statusChanged
  deriving DecidableEq, Repr

/-- An event of the tenant's room. -/
structure Event where
  name : EventName
  id : Uuid
  orderNumber : ℤ
  status : OrderStatus
  deriving DecidableEq, Repr

/-- What `create` and `updateStatus` emit once they have committed.  A draft is silent, a
replay was announced by its first request, and a button tapped twice changes nothing. -/
def announced (db : Db) : Request → List Event
  | .create ctx env dto =>
      match findByIdempotencyKey db dto.idempotencyKey, create db ctx env dto with
      | none, .ok (o, _, _) =>
          if o.status = .draft then [] else [⟨.created, o.id, o.orderNumber, o.status⟩]
      | _, _ => []
  | .updateStatus _ _ orderId toStatus _ =>
      match db.findOrder orderId with
      | some o =>
          if o.status = toStatus then [] else [⟨.statusChanged, o.id, o.orderNumber, toStatus⟩]
      | none => []
  | _ => []

/-! ## §2. The board. -/

/-- `BOARD_STATUSES`: the columns. -/
def boardStatuses : List OrderStatus := [.placed, .completed]

/-- `MAX_ORDERS` -/
def maxOrders : ℕ := 150

/-- `HANDED_SHOWN` -/
def handedShown : ℕ := 20

/-- `upsert`: insert or replace one ticket, newest first, capped. -/
def upsert (row : OrderRow) (prev : List OrderRow) : List OrderRow :=
  (row :: prev.filter fun x => decide (x.id ≠ row.id)).take maxOrders

/-- One ticket's status, rewritten in place. -/
def patchStatus (id : Uuid) (status : OrderStatus) (prev : List OrderRow) : List OrderRow :=
  prev.map fun x => if x.id = id then { x with status } else x

/-- A column: new orders oldest first, handed-over ones newest first and capped. -/
def column (status : OrderStatus) (orders : List OrderRow) : List OrderRow :=
  let tickets := orders.filter fun o => decide (o.status = status)
  if status = .completed then
    (tickets.insertionSort fun a b => b.orderNumber ≤ a.orderNumber).take handedShown
  else tickets.insertionSort fun a b => a.orderNumber ≤ b.orderNumber

/-- The requests of the board. -/
inductive Call where
  /-- `refetchAll` -/
  | listActive
  /-- `fetchAndUpsert` -/
  | fetch (id : Uuid)
  /-- `advance`; `prev` is the ticket's status when it was tapped -/
  | advance (id : Uuid) (toStatus : OrderStatus) (reason : Option String)
      (prev : Option OrderStatus)
  deriving DecidableEq, Repr

/-- What comes back of a request. -/
inductive Answer where
  | rows (rows : List OrderRow)
  | row (row : OrderRow)
  | moved
  | failed
  deriving DecidableEq, Repr

/-- A request of the board under way.  `passed` are the orders whose announcements came in, or
were lost, since what the answer will write was read. -/
structure InFlight where
  call : Call
  answer : Option Answer
  passed : List Uuid
  deriving DecidableEq, Repr

/-! ## §3. The board, the server and the network. -/

/-- The server, the board, and what is on its way between them. -/
structure World where
  server : Server
  /-- committed, and not emitted yet -/
  posting : List Event
  /-- whether the socket is in the tenant's room -/
  joined : Bool
  /-- emitted, and not delivered yet -/
  wire : List Event
  /-- the board's requests under way, by a number -/
  calls : ℕ → Option InFlight
  /-- the tickets; `none` until they are loaded -/
  orders : Option (List OrderRow)
  /-- the ticket that was tapped -/
  busy : Option Uuid

/-- One thing that happens: at the server, on the network or at the board. -/
inductive Act where
  /-- a request of any client -/
  | request (r : Request)
  /-- the handler of a committed request gets to its `emit` -/
  | emit (i : ℕ)
  /-- `handleConnection` gets to its `join` -/
  | join
  | disconnect
  /-- the page is mounted, or its socket connects -/
  | refetch (k : ℕ)
  /-- the next event comes in; a fetch it causes is the call `k` -/
  | deliver (k : ℕ)
  /-- a button of a ticket is tapped -/
  | tap (k : ℕ) (id : Uuid) (toStatus : OrderStatus) (reason : Option String)
  /-- the server gets to a request of the board -/
  | serve (k : ℕ) (ctx : TenantContext) (now : Instant)
  | receive (k : ℕ)
  /-- a request, or its answer, is lost -/
  | lose (k : ℕ)

/-- The orders are noted in every call under way. -/
def noted (ids : List Uuid) (calls : ℕ → Option InFlight) : ℕ → Option InFlight :=
  fun k => (calls k).map fun c => { c with passed := c.passed ++ ids }

/-- The orders whose status the events are about. -/
def movedIds (events : List Event) : List Uuid :=
  (events.filter fun e => decide (e.name = .statusChanged)).map (·.id)

/-- The calls, with a new one under way. -/
def World.started (w : World) (k : ℕ) (call : Call) : ℕ → Option InFlight :=
  Function.update w.calls k (some ⟨call, none, []⟩)

/-- What the server answers to a call, and does. -/
def World.serveCall (w : World) (k : ℕ) (ctx : TenantContext) (now : Instant) (c : InFlight) :
    World :=
  match c.call with
  -- read now: what is announced from here on the answer does not know
  | .listActive =>
      { w with
        calls := Function.update w.calls k
          (some ⟨c.call, some (.rows (listOrders w.server.db ⟨some 100, none, none⟩)), []⟩) }
  | .fetch id =>
      let answer := match w.server.db.findOrder id with
        | some o => Answer.row (selectOrder w.server.db o)
        | none => .failed
      { w with calls := Function.update w.calls k (some ⟨c.call, some answer, []⟩) }
  | .advance id toStatus reason _ =>
      let r := Request.updateStatus ctx now id toStatus reason
      match perform w.server r with
      | .ok server =>
          { w with
            server
            posting := w.posting ++ announced w.server.db r
            calls := Function.update w.calls k (some { c with answer := some .moved }) }
      | .error _ =>
          { w with calls := Function.update w.calls k (some { c with answer := some .failed }) }

/-- What the board does with an answer. -/
def World.answered (w : World) (k : ℕ) (c : InFlight) (a : Answer) : World :=
  let calls := Function.update w.calls k none
  match a, c.call with
  | .rows rows, _ => { w with calls, orders := some rows }
  | .row row, _ => { w with calls, orders := w.orders.map (upsert row) }
  | .moved, _ => { w with calls, busy := none }
  -- only this ticket's status is rolled back
  | .failed, .advance id _ _ (some prev) =>
      { w with calls, orders := w.orders.map (patchStatus id prev), busy := none }
  | .failed, .advance _ _ _ none => { w with calls, busy := none }
  | .failed, _ => { w with calls }

/-- The handlers of the two events. -/
def World.handle (w : World) (k : ℕ) (e : Event) : World :=
  match e.name, w.orders with
  | .created, _ => { w with calls := w.started k (.fetch e.id) }
  | .statusChanged, none => w
  | .statusChanged, some prev =>
      if e.id ∈ prev.map (·.id) then { w with orders := some (patchStatus e.id e.status prev) }
      -- not on the board: pulled in only if it belongs there now
      else if e.status ∈ boardStatuses then { w with calls := w.started k (.fetch e.id) }
      else w

/-- What happens then; `none` where it cannot. -/
def World.act (w : World) : Act → Option World
  | .request r =>
      match perform w.server r with
      | .ok server => some { w with server, posting := w.posting ++ announced w.server.db r }
      | .error _ => none
  | .emit i =>
      match w.posting[i]? with
      | some e =>
          let w := { w with posting := w.posting.eraseIdx i }
          if w.joined then some { w with wire := w.wire ++ [e] }
          -- nobody is in the room: the event is gone
          else some { w with calls := noted (movedIds [e]) w.calls }
      | none => none
  | .join => some { w with joined := true }
  -- what was on the wire is gone with the socket
  | .disconnect =>
      some { w with joined := false, wire := [], calls := noted (movedIds w.wire) w.calls }
  | .refetch k => if w.calls k = none then some { w with calls := w.started k .listActive } else none
  | .deliver k =>
      match w.wire, w.calls k with
      | e :: wire, none =>
          some (World.handle { w with wire, calls := noted (movedIds [e]) w.calls } k e)
      | _, _ => none
  | .tap k id toStatus reason =>
      -- a ticket that is being moved cannot be tapped again
      if w.calls k = none ∧ w.busy ≠ some id then
        -- what a failure will put back
        let prev := (w.orders.bind fun orders => orders.find? fun x => decide (x.id = id)).map
          (·.status)
        some { w with
          calls := w.started k (.advance id toStatus reason prev)
          -- the ticket moves before the server has moved the order
          orders := w.orders.map (patchStatus id toStatus)
          busy := some id }
      else none
  | .serve k ctx now =>
      match w.calls k with
      | some c => if c.answer = none then some (w.serveCall k ctx now c) else none
      | none => none
  | .receive k =>
      match w.calls k with
      | some c => c.answer.map (w.answered k c)
      | none => none
  | .lose k => (w.calls k).map fun c => w.answered k c .failed

/-- The page is opened, over any tenant. -/
structure World.Opened (w : World) : Prop where
  server : serial.Reachable w.server
  posting : w.posting = []
  joined : w.joined = false
  wire : w.wire = []
  calls : ∀ k, w.calls k = none
  orders : w.orders = none
  busy : w.busy = none

/-- The runs of the board, from the moment the page is opened. -/
def board : System World Act where
  init := World.Opened
  step w a w' := w.act a = some w'

/-! ## §4. What can happen. -/

/-- **The step inversion**: every step, with what has to hold for it. -/
inductive Happens (w : World) : Act → World → Prop where
  | request {r : Request} {server : Server} (hr : perform w.server r = .ok server) :
      Happens w (.request r)
        { w with server, posting := w.posting ++ announced w.server.db r }
  | emit {i : ℕ} {e : Event} (he : w.posting[i]? = some e) (hjoined : w.joined = true) :
      Happens w (.emit i) { w with posting := w.posting.eraseIdx i, wire := w.wire ++ [e] }
  | lost {i : ℕ} {e : Event} (he : w.posting[i]? = some e) (hjoined : w.joined = false) :
      Happens w (.emit i)
        { w with posting := w.posting.eraseIdx i, calls := noted (movedIds [e]) w.calls }
  | join : Happens w .join { w with joined := true }
  | disconnect : Happens w .disconnect
      { w with joined := false, wire := [], calls := noted (movedIds w.wire) w.calls }
  | refetch {k : ℕ} (hfree : w.calls k = none) :
      Happens w (.refetch k) { w with calls := w.started k .listActive }
  | deliver {k : ℕ} {e : Event} {wire : List Event} (hwire : w.wire = e :: wire)
      (hfree : w.calls k = none) :
      Happens w (.deliver k)
        (World.handle { w with wire, calls := noted (movedIds [e]) w.calls } k e)
  | tap {k : ℕ} {id : Uuid} {toStatus : OrderStatus} {reason : Option String}
      (hfree : w.calls k = none) :
      Happens w (.tap k id toStatus reason)
        { w with
          calls := w.started k (.advance id toStatus reason ((w.orders.bind fun orders =>
            orders.find? fun x => decide (x.id = id)).map (·.status)))
          orders := w.orders.map (patchStatus id toStatus)
          busy := some id }
  | serve {k : ℕ} {ctx : TenantContext} {now : Instant} {c : InFlight}
      (hc : w.calls k = some c) : Happens w (.serve k ctx now) (w.serveCall k ctx now c)
  | receive {k : ℕ} {c : InFlight} {b : Answer} (hc : w.calls k = some c)
      (hb : c.answer = some b) : Happens w (.receive k) (w.answered k c b)
  | lose {k : ℕ} {c : InFlight} (hc : w.calls k = some c) :
      Happens w (.lose k) (w.answered k c .failed)

/-- What happened is one of the steps, with its guards. -/
theorem act_happens {w w' : World} {a : Act} (h : w.act a = some w') : Happens w a w' := by
  -- one case for each kind of step, split where the step has guards
  cases a with
  | request r =>
      simp only [World.act] at h
      split at h <;> cases h
      exact .request ‹_›
  | emit i =>
      simp only [World.act] at h
      split at h
      next e he =>
        split at h <;> cases h
        next hjoined => exact .emit he hjoined
        next hjoined => exact .lost he (Bool.eq_false_iff.mpr hjoined)
      next => cases h
  | join =>
      cases h
      exact .join
  | disconnect =>
      cases h
      exact .disconnect
  | refetch k =>
      simp only [World.act] at h
      split at h <;> cases h
      exact .refetch ‹_›
  | deliver k =>
      simp only [World.act] at h
      split at h <;> cases h
      exact .deliver ‹_› ‹_›
  | tap k id toStatus reason =>
      simp only [World.act] at h
      split at h
      next hfree =>
        cases h
        exact .tap hfree.1
      next => cases h
  | serve k ctx now =>
      simp only [World.act] at h
      split at h
      next c hc =>
        split at h <;> cases h
        exact .serve hc
      next => cases h
  | receive k =>
      simp only [World.act] at h
      split at h
      next c hc =>
        obtain ⟨b, hb, rfl⟩ := Option.map_eq_some_iff.mp h
        exact .receive hc hb
      next => cases h
  | lose k =>
      obtain ⟨c, hc, rfl⟩ := Option.map_eq_some_iff.mp h
      exact .lose hc

/-! ## §5. The statuses of the orders, and their announcements. -/

/-- The status the server has for an order. -/
def statusOf (db : Db) (id : Uuid) : Option OrderStatus := (db.findOrder id).map (·.status)

/-- A status change, as an update of the board. -/
def Event.update (e : Event) : Option (Uuid × OrderStatus) :=
  if e.name = .statusChanged then some (e.id, e.status) else none

/-- What the announcements say of the statuses, in their order. -/
def updates (events : List Event) : List (Uuid × OrderStatus) := events.filterMap Event.update

theorem updates_append (a b : List Event) : updates (a ++ b) = updates a ++ updates b :=
  List.filterMap_append

/-- An order of the tables is found with its status. -/
theorem statusOf_mem {db : Db} (hids : UniqueIds db) {o : Order} (ho : o ∈ db.orders) :
    statusOf db o.id = some o.status := by
  cases hfind : db.findOrder o.id with
  | none =>
      have hno := List.find?_eq_none.mp hfind o ho
      exact absurd (decide_eq_true rfl) hno
  | some x =>
      obtain ⟨hx, hid⟩ := Db.mem_of_findOrder hfind
      rw [statusOf, hfind, hids.eq hx ho hid]
      rfl

/-- Rows at the end of the table hide none that was there. -/
theorem statusOf_append {db db' : Db} {o : Order} (horders : db'.orders = db.orders ++ [o])
    {id : Uuid} {status : OrderStatus} (h : statusOf db id = some status) :
    statusOf db' id = some status := by
  obtain ⟨x, hx, hstatus⟩ := Option.map_eq_some_iff.mp h
  unfold statusOf Db.findOrder
  rw [horders, List.find?_append]
  unfold Db.findOrder at hx
  rw [hx, Option.some_or]
  exact congrArg some hstatus

/-- Writing one order's status changes that one. -/
theorem statusOf_setStatus {db db' : Db} {orderId : Uuid} {toStatus : OrderStatus}
    {placedAt : Option Instant}
    (horders : db'.orders = setStatus db.orders orderId toStatus placedAt) (id : Uuid) :
    statusOf db' id = (statusOf db id).map fun s => if id = orderId then toStatus else s := by
  unfold statusOf Db.findOrder
  rw [horders]
  unfold setStatus
  generalize db.orders = orders
  induction orders with
  | nil => rfl
  | cons o orders ih =>
      rw [List.map_cons, List.find?_cons, List.find?_cons]
      by_cases ho : o.id = id
      · by_cases hid : o.id = orderId
        · have heq : id = orderId := ho ▸ hid
          simp only [if_pos hid, decide_eq_true ho, if_pos heq, Option.map_some]
        · have hne : id ≠ orderId := ho ▸ hid
          simp only [if_neg hid, decide_eq_true ho, if_neg hne, Option.map_some]
      · have hkept : (if o.id = orderId then
            { o with status := toStatus, placedAt := placedAt.orElse fun _ => o.placedAt }
          else o).id = o.id := by split <;> rfl
        rw [hkept, decide_eq_false ho]
        exact ih

/-- No status is reached from itself, so an announced move is a change. -/
theorem canTransition_same (s : OrderStatus) : canTransition s s = false := by
  cases s <;> rfl

/-- **Every change of a status is announced**, and nothing else is. -/
theorem perform_announces {s s' : Server} {r : Request} (h : perform s r = .ok s') :
    Announces (statusOf s.db) (statusOf s'.db) (updates (announced s.db r)) := by
  have hsame : s'.db.orders = s.db.orders → Announces (statusOf s.db) (statusOf s'.db) [] := by
    intro horders
    refine .grow fun id status hid => ?_
    unfold statusOf Db.findOrder at hid ⊢
    rw [horders]
    exact hid
  cases r with
  | create ctx env dto =>
      -- a creation announces no move
      have hsilent : updates (announced s.db (.create ctx env dto)) = [] := by
        simp only [announced]
        split
        · split <;> rfl
        · rfl
      rw [hsilent]
      obtain ⟨⟨o, db', hooks⟩, hok, h⟩ := bind_ok.mp h
      cases pure_ok.mp h
      obtain ⟨-, ⟨-, rfl, -⟩ | ⟨hins, -⟩⟩ := create_ok hok
      · exact .grow fun _ _ hid => hid
      · obtain ⟨paid, moved, spent, redemptions, logs, -, rfl⟩ := insert_ok hins
        exact .grow fun id status => statusOf_append rfl
  | updateStatus ctx now orderId toStatus reason =>
      obtain ⟨db', hok, h⟩ := bind_ok.mp h
      cases pure_ok.mp h
      obtain ⟨o, ho, ⟨hstatus, rfl⟩ | ⟨hcan, moved, logs, -, rfl⟩⟩ := updateStatus_ok hok
      · -- a button tapped twice
        have hsilent : announced s.db (.updateStatus ctx now orderId toStatus reason) = [] := by
          simp only [announced, ho, if_pos hstatus]
        rw [hsilent]
        exact .grow fun _ _ hid => hid
      · have hid : o.id = orderId := (Db.mem_of_findOrder ho).2
        subst hid
        have hne : o.status ≠ toStatus := fun heq => by
          rw [heq, canTransition_same] at hcan
          cases hcan
        have hsaid : announced s.db (.updateStatus ctx now o.id toStatus reason)
            = [⟨.statusChanged, o.id, o.orderNumber, toStatus⟩] := by
          simp only [announced, ho, if_neg hne]
        rw [hsaid]
        refine .move ?_ fun id hid => ?_
        · rw [statusOf_setStatus rfl, statusOf, ho]
          exact congrArg some (if_pos rfl)
        · rw [statusOf_setStatus rfl]
          simp only [if_neg hid, Option.map_id']
  | _ =>
      have horders := perform_orders h
      generalize hos : s'.db.orders = os at horders
      cases horders
      exact hsame hos

end OraOS.Kitchen
