/-
  OraOS.Orders.Trail — the append-only trail of an order (`order_events`), read back.

  `timeline` hands out the events of an order; `readEvent` reads them one after the
  other as the evidence they are meant to be, and refuses what the services never do.

    * `perform_traced`    — what one request adds to orders, events and money;
    * `trail_tells_order` — in every reachable state the trail of an order is lawful
                            and leads to its status, its refunds and its recorded legs;
    * `history_kept`      — what has been written is there for good, in its order.
-/
import OraOS.Lib.Journal
import OraOS.Orders.LoyaltyEffect
import OraOS.Orders.SalesFigures

namespace OraOS.Orders

open OraOS.Api
open OraOS.Lib
open OraOS.Inventory

/-! ## §1. Reading a trail. -/

/-- `OrdersService.timeline`, for an order that exists. -/
def timelineOf (db : Db) (orderId : Uuid) : List OrderEvent :=
  db.orderEvents.filter fun e => decide (e.orderId = orderId)

/-- `OrdersService.timeline`. -/
def timeline (db : Db) (orderId : Uuid) : Except ApiError (List OrderEvent) := do
  let _ ← found (db.findOrder orderId) (.notFound "Order not found")
  pure (timelineOf db orderId)

/-- What the events so far say of an order; no status is no CREATED yet. -/
structure TrailView where
  status : Option OrderStatus
  itemCount : ℕ
  totalMinor : ℤ
  recordedMinor : ℤ
  refundedMinor : ℤ
  deriving DecidableEq, Repr

def TrailView.blank : TrailView := ⟨none, 0, 0, 0, 0⟩

/-- One more event; `none` is an event that cannot follow. -/
def readEvent (v : TrailView) (e : OrderEvent) : Option TrailView :=
  match v.status, e.kind with
  | none, .created toStatus itemCount totalMinor =>
      -- the first event of an order, and no other, creates it
      if toStatus = .draft ∨ toStatus = .placed then
        some ⟨some toStatus, itemCount, totalMinor, 0, 0⟩
      else none
  | some st, .statusChanged fromStatus toStatus _ =>
      if fromStatus = st ∧ canTransition st toStatus = true then
        some { v with status := some toStatus }
      else none
  | some st, .paymentRecorded _ amountMinor =>
      if isReversed st = false ∧ 0 < amountMinor
          ∧ v.recordedMinor + amountMinor ≤ v.totalMinor then
        some { v with recordedMinor := v.recordedMinor + amountMinor }
      else none
  | some st, .refundRecorded _ amountMinor _ =>
      if st ∈ refundStatuses ∧ 0 < amountMinor
          ∧ v.refundedMinor + amountMinor ≤ v.totalMinor then
        some { v with refundedMinor := v.refundedMinor + amountMinor }
      else none
  | _, _ => none

/-- The whole trail of an order. -/
def readTrail (db : Db) (orderId : Uuid) : Option TrailView :=
  System.replay readEvent (timelineOf db orderId) .blank

/-- **The trail tells the order**: its status, its size, its total and its refunds, and
what was captured but for the payment taken with the order, which is of all of it. -/
structure Tells (db : Db) (o : Order) (v : TrailView) : Prop where
  status : v.status = some o.status
  itemCount : v.itemCount = o.items.length
  total : v.totalMinor = o.totalMinor
  refunded : v.refundedMinor = refundedOf db.refunds o.id
  captured : capturedOf db.payments o.id = v.recordedMinor
    ∨ (v.recordedMinor = 0 ∧ capturedOf db.payments o.id = o.totalMinor)

/-! ## §2. What a request adds to it. -/

/-- Orders, events and money after a request. -/
inductive Traced (db db' : Db) : Prop where
  | kept (orders : db'.orders = db.orders) (events : db'.orderEvents = db.orderEvents)
      (payments : db'.payments = db.payments) (refunds : db'.refunds = db.refunds)
  | created {o : Order} {dto : CreateOrderDto} {paid : List Payment} (actorUserId : Uuid)
      (fresh : ∀ x ∈ db.orders, x.id ≠ o.id)
      (status : o.status = .draft ∨ o.status = .placed) (taken : PaidAtPlacement o dto paid)
      (orders : db'.orders = db.orders ++ [o])
      (events : db'.orderEvents = db.orderEvents ++
        [⟨o.id, .created o.status o.items.length o.totalMinor, actorUserId⟩])
      (payments : db'.payments = db.payments ++ paid) (refunds : db'.refunds = db.refunds)
  | moved {o : Order} {toStatus : OrderStatus} (placedAt : Option Instant)
      (reason : Option String) (actorUserId : Uuid) (ho : o ∈ db.orders)
      (hcan : canTransition o.status toStatus = true)
      (orders : db'.orders = setStatus db.orders o.id toStatus placedAt)
      (events : db'.orderEvents = db.orderEvents ++
        [⟨o.id, .statusChanged o.status toStatus reason, actorUserId⟩])
      (payments : db'.payments = db.payments) (refunds : db'.refunds = db.refunds)
  | paid {o : Order} {p : Payment} (method : PaymentMethod) (actorUserId : Uuid)
      (ho : o ∈ db.orders) (hlive : isReversed o.status = false) (hid : p.orderId = o.id)
      (hcaptured : p.status = .captured)
      (hle : p.amountMinor ≤ o.totalMinor - capturedOf db.payments o.id)
      (orders : db'.orders = db.orders)
      (events : db'.orderEvents = db.orderEvents ++
        [⟨o.id, .paymentRecorded method p.amountMinor, actorUserId⟩])
      (payments : db'.payments = db.payments ++ [p]) (refunds : db'.refunds = db.refunds)
  | refunded {o : Order} {r : Refund} (method : PaymentMethod) (reason : String)
      (actorUserId : Uuid) (ho : o ∈ db.orders) (hstatus : o.status ∈ refundStatuses)
      (hid : r.orderId = o.id)
      (hle : r.amountMinor ≤ capturedOf db.payments o.id - refundedOf db.refunds o.id)
      (orders : db'.orders = db.orders)
      (events : db'.orderEvents = db.orderEvents ++
        [⟨o.id, .refundRecorded method r.amountMinor reason, actorUserId⟩])
      (payments : db'.payments = db.payments) (refunds : db'.refunds = db.refunds ++ [r])

/-- **The step inversion of the trail.** -/
theorem perform_traced {s s' : Server} {r : Request} (h : perform s r = .ok s') :
    Traced s.db s'.db := by
  -- each request leaves its event, with what it wrote
  cases r with
  | create ctx env dto =>
      obtain ⟨⟨o, db', hooks⟩, hok, h⟩ := bind_ok.mp h
      cases pure_ok.mp h
      obtain ⟨-, ⟨-, rfl, -⟩ | ⟨hins, -⟩⟩ := create_ok hok
      · exact .kept rfl rfl rfl rfl
      · obtain ⟨paid, moved, spent, redemptions, logs, hi, rfl⟩ := insert_ok hins
        refine .created ctx.userId ?_ ?_ hi.paid rfl rfl rfl rfl
        · rw [hi.id]
          exact hi.fresh
        · rw [hi.status]
          by_cases hheld : dto.held = true
          · exact .inl (if_pos hheld)
          · exact .inr (if_neg hheld)
  | updateStatus ctx now orderId toStatus reason =>
      obtain ⟨db', hok, h⟩ := bind_ok.mp h
      cases pure_ok.mp h
      obtain ⟨o, ho, ⟨-, rfl⟩ | ⟨hcan, moved, logs, -, rfl⟩⟩ := updateStatus_ok hok
      · exact .kept rfl rfl rfl rfl
      · exact .moved _ _ ctx.userId (Db.mem_of_findOrder ho).1 hcan rfl rfl rfl rfl
  | recordPayment ctx env orderId dto =>
      obtain ⟨⟨o, db', hooks⟩, hok, h⟩ := bind_ok.mp h
      cases pure_ok.mp h
      rcases recordPayment_ok hok with ⟨rfl, -⟩ |
        ⟨p, ho, hlive, hid, hcaptured, hamount, hle, -, rfl⟩
      · exact .kept rfl rfl rfl rfl
      · obtain ⟨hmem, rfl⟩ := Db.mem_of_findOrder ho
        refine .paid dto.method ctx.userId hmem hlive hid hcaptured hle rfl ?_ rfl rfl
        rw [hamount]
        rfl
  | recordRefund ctx env orderId dto =>
      obtain ⟨⟨o, db', hooks⟩, hok, h⟩ := bind_ok.mp h
      cases pure_ok.mp h
      rcases recordRefund_ok hok with ⟨rfl, -⟩ | ⟨r, logs, ho, hstatus, hid, hamount, hle, -, rfl⟩
      · exact .kept rfl rfl rfl rfl
      · obtain ⟨hmem, rfl⟩ := Db.mem_of_findOrder ho
        refine .refunded dto.method dto.reason ctx.userId hmem hstatus hid hle rfl ?_ rfl rfl
        rw [hamount]
        rfl
  | hook ctx k =>
      simp only [perform] at h
      split at h
      next =>
        cases h
        exact .kept (runHook_orders ..) (runHook_orderEvents ..) (runHook_payments ..)
          (runHook_refunds ..)
      next => cases h
  | stock ctx r =>
      obtain ⟨db', hok, h⟩ := bind_ok.mp h
      cases pure_ok.mp h
      have hframe := performStock_leavesOrders hok
      exact .kept hframe.orders hframe.orderEvents hframe.payments hframe.refunds

/-! ## §3. Reading on. -/

section timeline

variable {db db' : Db} {e : OrderEvent} {orderId : Uuid}

theorem timelineOf_own (hevents : db'.orderEvents = db.orderEvents ++ [e])
    (hid : e.orderId = orderId) : timelineOf db' orderId = timelineOf db orderId ++ [e] := by
  unfold timelineOf
  rw [hevents, List.filter_append]
  simp [hid]

theorem timelineOf_other (hevents : db'.orderEvents = db.orderEvents ++ [e])
    (hid : e.orderId ≠ orderId) : timelineOf db' orderId = timelineOf db orderId := by
  unfold timelineOf
  rw [hevents]
  refine filter_append_other ?_
  intro x hx
  rw [List.mem_singleton.mp hx]
  simp [hid]

theorem readTrail_own {v v' : TrailView} (hevents : db'.orderEvents = db.orderEvents ++ [e])
    (hid : e.orderId = orderId) (hv : readTrail db orderId = some v)
    (he : readEvent v e = some v') : readTrail db' orderId = some v' := by
  unfold readTrail
  rw [timelineOf_own hevents hid]
  exact replay_snoc hv he

theorem readTrail_other (hevents : db'.orderEvents = db.orderEvents ++ [e])
    (hid : e.orderId ≠ orderId) : readTrail db' orderId = readTrail db orderId := by
  unfold readTrail
  rw [timelineOf_other hevents hid]

/-- An order nobody has heard of has no trail. -/
theorem readTrail_unknown (h : ∀ e ∈ db.orderEvents, e.orderId ≠ orderId) :
    readTrail db orderId = some .blank := by
  unfold readTrail timelineOf
  rw [List.filter_eq_nil_iff.mpr fun e he => by simp [h e he]]
  rfl

end timeline

structure TrailInv (db : Db) : Prop where
  money : MoneyInv db
  known : EventsKnown db
  told : ∀ o ∈ db.orders, ∃ v, readTrail db o.id = some v ∧ Tells db o v

theorem TrailInv.opening {s : Server} (h : Opening s) : TrailInv s.db := by
  refine ⟨.opening h, ?_, ?_⟩
  · unfold EventsKnown
    rw [h.orderEvents]
    exact List.forall_mem_nil _
  · rw [h.orders]
    exact List.forall_mem_nil _

/-- What is told of an order whose trail and money are as they were. -/
theorem Tells.same {db db' : Db} {o o' : Order} {v : TrailView} (h : Tells db o v)
    (hstatus : o'.status = o.status) (hitems : o'.items = o.items)
    (htotal : o'.totalMinor = o.totalMinor)
    (hcaptured : capturedOf db'.payments o'.id = capturedOf db.payments o.id)
    (hrefunded : refundedOf db'.refunds o'.id = refundedOf db.refunds o.id) :
    Tells db' o' v := by
  refine ⟨?_, ?_, ?_, ?_, ?_⟩
  · rw [hstatus]
    exact h.status
  · rw [hitems]
    exact h.itemCount
  · rw [htotal]
    exact h.total
  · rw [hrefunded]
    exact h.refunded
  · rw [hcaptured, htotal]
    exact h.captured

theorem EventsKnown.append {db db' : Db} {e : OrderEvent} (h : EventsKnown db)
    (hevents : db'.orderEvents = db.orderEvents ++ [e])
    (hkept : ∀ x ∈ db.orders, ∃ x' ∈ db'.orders, x'.id = x.id)
    (hnew : ∃ x ∈ db'.orders, x.id = e.orderId) : EventsKnown db' := by
  intro e' he'
  rw [hevents] at he'
  rcases List.mem_append.mp he' with he' | he'
  · obtain ⟨x, hx, hid⟩ := h e' he'
    obtain ⟨x', hx', hid'⟩ := hkept x hx
    exact ⟨x', hx', hid'.trans hid⟩
  · rw [List.mem_singleton.mp he']
    exact hnew

/-! ## §4. Every request keeps the trail telling. -/

section readEvent

variable {v : TrailView} {st : OrderStatus} {orderId actorUserId : Uuid}

theorem readEvent_created {itemCount : ℕ} {totalMinor : ℤ} (h : st = .draft ∨ st = .placed) :
    readEvent .blank ⟨orderId, .created st itemCount totalMinor, actorUserId⟩
      = some ⟨some st, itemCount, totalMinor, 0, 0⟩ :=
  if_pos h

theorem readEvent_moved {toStatus : OrderStatus} {reason : Option String}
    (hv : v.status = some st) (hcan : canTransition st toStatus = true) :
    readEvent v ⟨orderId, .statusChanged st toStatus reason, actorUserId⟩
      = some { v with status := some toStatus } := by
  unfold readEvent
  rw [hv]
  exact if_pos ⟨rfl, hcan⟩

theorem readEvent_paid {method : PaymentMethod} {amountMinor : ℤ} (hv : v.status = some st)
    (hlive : isReversed st = false) (hpos : 0 < amountMinor)
    (hle : v.recordedMinor + amountMinor ≤ v.totalMinor) :
    readEvent v ⟨orderId, .paymentRecorded method amountMinor, actorUserId⟩
      = some { v with recordedMinor := v.recordedMinor + amountMinor } := by
  unfold readEvent
  rw [hv]
  exact if_pos ⟨hlive, hpos, hle⟩

theorem readEvent_refunded {method : PaymentMethod} {amountMinor : ℤ} {reason : String}
    (hv : v.status = some st) (hstatus : st ∈ refundStatuses) (hpos : 0 < amountMinor)
    (hle : v.refundedMinor + amountMinor ≤ v.totalMinor) :
    readEvent v ⟨orderId, .refundRecorded method amountMinor reason, actorUserId⟩
      = some { v with refundedMinor := v.refundedMinor + amountMinor } := by
  unfold readEvent
  rw [hv]
  exact if_pos ⟨hstatus, hpos, hle⟩

end readEvent

section step

variable {db db' : Db} (hs : TrailInv db) (hmoney : MoneyInv db')
include hs hmoney

theorem TrailInv.created {o : Order} {dto : CreateOrderDto} {paid : List Payment}
    {actorUserId : Uuid} (fresh : ∀ x ∈ db.orders, x.id ≠ o.id)
    (status : o.status = .draft ∨ o.status = .placed) (taken : PaidAtPlacement o dto paid)
    (orders : db'.orders = db.orders ++ [o])
    (events : db'.orderEvents = db.orderEvents ++
      [⟨o.id, .created o.status o.items.length o.totalMinor, actorUserId⟩])
    (payments : db'.payments = db.payments ++ paid) (refunds : db'.refunds = db.refunds) :
    TrailInv db' := by
  have hpaid : ∀ p ∈ paid, p.orderId = o.id := by
    rcases taken with ⟨rfl, -⟩ | ⟨q, rfl, hid, -⟩
    · exact List.forall_mem_nil _
    · intro p hp
      rw [List.mem_singleton.mp hp]
      exact hid
  -- nothing names the new order yet
  have hblank : readTrail db o.id = some .blank := by
    refine readTrail_unknown ?_
    intro e he hid
    obtain ⟨x, hx, hxid⟩ := hs.known e he
    exact fresh x hx (hxid.trans hid)
  have hpayments : capturedOf db.payments o.id = 0 := by
    refine capturedOf_other ?_
    intro p hp hid
    obtain ⟨x, hx, hxid⟩ := hs.money.paymentKnown p hp
    exact fresh x hx (hxid.trans hid)
  have hrefunds : refundedOf db.refunds o.id = 0 := by
    refine refundedOf_other ?_
    intro r hr hid
    obtain ⟨x, hx, hxid⟩ := hs.money.refundKnown r hr
    exact fresh x hx (hxid.trans hid)
  refine ⟨hmoney, hs.known.append events ?_ ?_, ?_⟩
  · rw [orders]
    exact fun x hx => ⟨x, List.mem_append_left _ hx, rfl⟩
  · rw [orders]
    exact ⟨o, List.mem_append_right _ (List.mem_singleton_self o), rfl⟩
  · rw [orders]
    intro x hx
    rcases List.mem_append.mp hx with hx | hx
    · obtain ⟨v, hv, htells⟩ := hs.told x hx
      refine ⟨v, ?_, htells.same rfl rfl rfl ?_ ?_⟩
      · rw [readTrail_other events (fresh x hx).symm]
        exact hv
      · rw [payments, capturedOf_append, capturedOf_other (l := paid), add_zero]
        exact fun p hp hid => fresh x hx (hid.symm.trans (hpaid p hp))
      · rw [refunds]
    · obtain rfl := List.mem_singleton.mp hx
      refine ⟨_, readTrail_own events rfl hblank (readEvent_created status), rfl, rfl, rfl, ?_, ?_⟩
      · rw [refunds, hrefunds]
      · rw [payments, capturedOf_append, hpayments, zero_add]
        rcases taken with ⟨rfl, -⟩ | ⟨q, rfl, hid, hcaptured, hamount, -⟩
        · exact .inl rfl
        · rw [capturedOf_single hcaptured, if_pos hid]
          exact .inr ⟨rfl, hamount⟩

theorem TrailInv.moved {o : Order} {toStatus : OrderStatus} {placedAt : Option Instant}
    {reason : Option String} {actorUserId : Uuid} (ho : o ∈ db.orders)
    (hcan : canTransition o.status toStatus = true)
    (orders : db'.orders = setStatus db.orders o.id toStatus placedAt)
    (events : db'.orderEvents = db.orderEvents ++
      [⟨o.id, .statusChanged o.status toStatus reason, actorUserId⟩])
    (payments : db'.payments = db.payments) (refunds : db'.refunds = db.refunds) :
    TrailInv db' := by
  have hids : db'.orders.map (·.id) = db.orders.map (·.id) := by
    rw [orders]
    exact setStatus_ids ..
  have hkept : ∀ x ∈ db.orders, ∃ x' ∈ db'.orders, x'.id = x.id := by
    intro x hx
    have hmem : x.id ∈ db'.orders.map (·.id) := by
      rw [hids]
      exact List.mem_map_of_mem hx
    obtain ⟨x', hx', hid⟩ := List.mem_map.mp hmem
    exact ⟨x', hx', hid⟩
  refine ⟨hmoney, hs.known.append events hkept (hkept o ho), ?_⟩
  rw [orders]
  intro x hx
  rcases mem_setStatus hx with ⟨hx, hne⟩ |
    ⟨y, hy, hyid, hxid, hxstatus, -, hitems, -, -, -, htotal⟩
  · obtain ⟨v, hv, htells⟩ := hs.told x hx
    refine ⟨v, ?_, htells.same rfl rfl rfl ?_ ?_⟩
    · rw [readTrail_other events (Ne.symm hne)]
      exact hv
    · rw [payments]
    · rw [refunds]
  -- the order that moved reads its event; the others read as before
  · have hyo : y = o := hs.money.ids.eq hy ho hyid
    subst hyo
    obtain ⟨v, hv, htells⟩ := hs.told y hy
    have hread := readTrail_own events rfl hv (readEvent_moved htells.status hcan)
    rw [hxid]
    refine ⟨_, hread, ?_, ?_, ?_, ?_, ?_⟩
    · rw [hxstatus]
    · rw [hitems]
      exact htells.itemCount
    · rw [htotal]
      exact htells.total
    · rw [refunds, hxid]
      exact htells.refunded
    · rw [payments, hxid, htotal]
      exact htells.captured

theorem TrailInv.paid {o : Order} {p : Payment} {method : PaymentMethod} {actorUserId : Uuid}
    (ho : o ∈ db.orders) (hlive : isReversed o.status = false) (hid : p.orderId = o.id)
    (hcaptured : p.status = .captured)
    (hle : p.amountMinor ≤ o.totalMinor - capturedOf db.payments o.id)
    (orders : db'.orders = db.orders)
    (events : db'.orderEvents = db.orderEvents ++
      [⟨o.id, .paymentRecorded method p.amountMinor, actorUserId⟩])
    (payments : db'.payments = db.payments ++ [p]) (refunds : db'.refunds = db.refunds) :
    TrailInv db' := by
  have hpos := p.amount_pos
  refine ⟨hmoney, hs.known.append events ?_ ?_, ?_⟩
  · rw [orders]
    exact fun x hx => ⟨x, hx, rfl⟩
  · rw [orders]
    exact ⟨o, ho, rfl⟩
  · rw [orders]
    intro x hx
    obtain ⟨v, hv, htells⟩ := hs.told x hx
    by_cases hxo : o.id = x.id
    · have hsame : o = x := hs.money.ids.eq ho hx hxo
      subst hsame
      -- a payment taken with the order leaves nothing outstanding
      have hsum : capturedOf db.payments o.id = v.recordedMinor := by
        rcases htells.captured with h | ⟨-, h⟩
        · exact h
        · omega
      have htotal := htells.total
      refine ⟨_, readTrail_own events rfl hv (readEvent_paid htells.status hlive hpos ?_),
        htells.status, htells.itemCount, htotal, ?_, .inl ?_⟩
      · omega
      · rw [refunds]
        exact htells.refunded
      · rw [payments, capturedOf_append, capturedOf_single hcaptured, if_pos hid, hsum]
    · refine ⟨v, ?_, htells.same rfl rfl rfl ?_ ?_⟩
      · rw [readTrail_other events hxo]
        exact hv
      · rw [payments, capturedOf_append, capturedOf_single hcaptured, hid, if_neg hxo, add_zero]
      · rw [refunds]

theorem TrailInv.refunded {o : Order} {r : Refund} {method : PaymentMethod} {reason : String}
    {actorUserId : Uuid} (ho : o ∈ db.orders) (hstatus : o.status ∈ refundStatuses)
    (hid : r.orderId = o.id)
    (hle : r.amountMinor ≤ capturedOf db.payments o.id - refundedOf db.refunds o.id)
    (orders : db'.orders = db.orders)
    (events : db'.orderEvents = db.orderEvents ++
      [⟨o.id, .refundRecorded method r.amountMinor reason, actorUserId⟩])
    (payments : db'.payments = db.payments) (refunds : db'.refunds = db.refunds ++ [r]) :
    TrailInv db' := by
  have hpos := r.amount_pos
  refine ⟨hmoney, hs.known.append events ?_ ?_, ?_⟩
  · rw [orders]
    exact fun x hx => ⟨x, hx, rfl⟩
  · rw [orders]
    exact ⟨o, ho, rfl⟩
  · rw [orders]
    intro x hx
    obtain ⟨v, hv, htells⟩ := hs.told x hx
    -- the refund is of this order, and below its ceiling, or of another one
    by_cases hxo : o.id = x.id
    · have hsame : o = x := hs.money.ids.eq ho hx hxo
      subst hsame
      have hceiling := hs.money.captured o ho
      have hrefunded := htells.refunded
      have htotal := htells.total
      refine ⟨_, readTrail_own events rfl hv (readEvent_refunded htells.status hstatus hpos ?_),
        htells.status, htells.itemCount, htotal, ?_, ?_⟩
      · omega
      · rw [refunds, refundedOf_append, refundedOf_single, if_pos hid, ← hrefunded]
      · rw [payments]
        exact htells.captured
    · refine ⟨v, ?_, htells.same rfl rfl rfl ?_ ?_⟩
      · rw [readTrail_other events hxo]
        exact hv
      · rw [payments]
      · rw [refunds, refundedOf_append, refundedOf_single, hid, if_neg hxo, add_zero]

/-- **Whatever the request, the trail goes on telling.** -/
theorem TrailInv.step (h : Traced db db') : TrailInv db' := by
  cases h with
  -- nothing about orders was written, so every trail reads as before
  | kept orders events payments refunds =>
      refine ⟨hmoney, ?_, ?_⟩
      · unfold EventsKnown
        rw [events, orders]
        exact hs.known
      · rw [orders]
        intro x hx
        obtain ⟨v, hv, htells⟩ := hs.told x hx
        refine ⟨v, ?_, htells.same rfl rfl rfl ?_ ?_⟩
        · unfold readTrail timelineOf
          rw [events]
          exact hv
        · rw [payments]
        · rw [refunds]
  | created actorUserId fresh status taken orders events payments refunds =>
      exact hs.created hmoney fresh status taken orders events payments refunds
  | moved placedAt reason actorUserId ho hcan orders events payments refunds =>
      exact hs.moved hmoney ho hcan orders events payments refunds
  | paid method actorUserId ho hlive hid hcaptured hle orders events payments refunds =>
      exact hs.paid hmoney ho hlive hid hcaptured hle orders events payments refunds
  | refunded method reason actorUserId ho hstatus hid hle orders events payments refunds =>
      exact hs.refunded hmoney ho hstatus hid hle orders events payments refunds

end step

theorem serial_trailInv {s : Server} (h : serial.Reachable s) : TrailInv s.db := by
  refine h.invariant (fun s => TrailInv s.db) (fun s hopen => .opening hopen) ?_
  intro s r s' hs hstep
  exact hs.step ((perform_effect hstep).moneyInv hs.money) (perform_traced hstep)

/-- An order that is there is the one found under its id. -/
theorem findOrder_of_mem {db : Db} (hids : UniqueIds db) {o : Order} (ho : o ∈ db.orders) :
    db.findOrder o.id = some o := by
  cases hfind : db.findOrder o.id with
  | none =>
      have hno := List.find?_eq_none.mp hfind o ho
      simp at hno
  | some x =>
      obtain ⟨hx, hid⟩ := Db.mem_of_findOrder hfind
      rw [hids.eq hx ho hid]

/-- **The trail tells the order**: in every reachable state the timeline of an order reads
back, event by event, to its status, its lines and its total as they stand, to what was
refunded and to the legs recorded since it was placed, and no event is of an order that
is not there. -/
theorem trail_tells_order {s : Server} (h : serial.Reachable s) :
    (∀ o ∈ s.db.orders, ∃ events v, timeline s.db o.id = .ok events
        ∧ System.replay readEvent events .blank = some v ∧ Tells s.db o v)
      ∧ ∀ e ∈ s.db.orderEvents, ∃ o ∈ s.db.orders, o.id = e.orderId := by
  have hinv := serial_trailInv h
  refine ⟨?_, hinv.known⟩
  intro o ho
  obtain ⟨v, hv, htells⟩ := hinv.told o ho
  refine ⟨timelineOf s.db o.id, v, ?_, hv, htells⟩
  unfold timeline
  rw [found_ok.mpr (findOrder_of_mem hinv.money.ids ho)]
  rfl

/-- A lassi sold for cash and refunded in part, as its trail tells it. -/
example : readTrail (after refundedLassi openBar).db 20
    = some ⟨some .voided, 1, 1050, 0, 500⟩ := by decide

theorem trail_tells_order_lassi :
    ∃ events v, timeline (after refundedLassi openBar).db 20 = .ok events
      ∧ System.replay readEvent events .blank = some v ∧ v.refundedMinor = 500 := by
  obtain ⟨events, v, htimeline, hread, htells⟩ :=
    (trail_tells_order (s := after refundedLassi openBar)
      (after_reachable openBar_opening rfl)).1 _ (List.mem_singleton_self _)
  exact ⟨events, v, htimeline, hread, htells.refunded⟩

/-! ## §5. Nothing that was written is ever rewritten. -/

/-- What is known of `db` can be read in `db'` as it was: the orders but for their status,
and the rows of the ledgers and of the audit log in their order. -/
structure HistoryKept (db db' : Db) : Prop where
  orders : ∀ o ∈ db.orders, ∃ o' ∈ db'.orders, SameOrder o o'
  events : db.orderEvents <+: db'.orderEvents
  payments : db.payments <+: db'.payments
  refunds : db.refunds <+: db'.refunds
  movements : db.movements <+: db'.movements
  loyaltyLedger : db.loyaltyLedger <+: db'.loyaltyLedger
  auditLogs : db.auditLogs <+: db'.auditLogs

theorem HistoryKept.refl (db : Db) : HistoryKept db db :=
  ⟨fun o ho => ⟨o, ho, .refl o⟩, List.prefix_rfl, List.prefix_rfl, List.prefix_rfl,
    List.prefix_rfl, List.prefix_rfl, List.prefix_rfl⟩

theorem HistoryKept.trans {db db' db'' : Db} (h : HistoryKept db db')
    (h' : HistoryKept db' db'') : HistoryKept db db'' := by
  refine ⟨?_, h.events.trans h'.events, h.payments.trans h'.payments,
    h.refunds.trans h'.refunds, h.movements.trans h'.movements,
    h.loyaltyLedger.trans h'.loyaltyLedger, h.auditLogs.trans h'.auditLogs⟩
  intro o ho
  obtain ⟨o', ho', hsame⟩ := h.orders o ho
  obtain ⟨o'', ho'', hsame'⟩ := h'.orders o' ho'
  exact ⟨o'', ho'', hsame.trans hsame'⟩

theorem Undone.ledger_prefix {db db' : Db} {orderId : Uuid} {type undo : LoyaltyEntryType}
    (h : Loyalty.Undone db orderId type undo db') : db.loyaltyLedger <+: db'.loyaltyLedger := by
  cases h with
  | nothing _ hdb => rw [hdb]
  | already _ hdb => rw [hdb]
  | now _ _ _ _ _ hdb =>
      obtain ⟨logs, rfl⟩ := hdb
      exact List.prefix_append _ _

theorem runHook_prefix {db : Db} (hl : Loyalty.LedgerInv db.loyaltyLedger)
    (ctx : TenantContext) (k : Hook) :
    db.loyaltyLedger <+: (runHook db ctx k).loyaltyLedger := by
  cases k with
  | credit orderId =>
      show _ <+: (creditLoyalty db ctx orderId).loyaltyLedger
      rcases creditLoyalty_spec db ctx orderId with h | ⟨_, _, -, -, -, -, h⟩
      · rw [h]
      · rw [h]
        exact List.prefix_append _ _
  | reverse orderId =>
      obtain ⟨db₁, hfirst, hsecond⟩ := reverseLoyalty_spec hl ctx orderId
      exact (Undone.ledger_prefix hfirst).trans (Undone.ledger_prefix hsecond)

theorem Effect.historyKept {s s' : Server} (h : Effect s s') (hs : LoyaltyInv s) :
    HistoryKept s.db s'.db := by
  have horders : ∀ o ∈ s.db.orders, ∃ o' ∈ s'.db.orders, SameOrder o o' :=
    fun o ho => h.keeps hs.ids ho
  cases h with
  | idle => exact .refl s.db
  | created redemptions logs hooks hcheck hins hhooks =>
      exact ⟨horders, List.prefix_append _ _, List.prefix_append _ _, List.prefix_rfl,
        List.prefix_append _ _, List.prefix_append _ _, List.prefix_append _ _⟩
  | moved reason logs ho hcan hmoved =>
      exact ⟨horders, List.prefix_append _ _, List.prefix_rfl, List.prefix_rfl,
        List.prefix_append _ _, List.prefix_rfl, List.prefix_append _ _⟩
  | paid events hooks ho hlive hid hcaptured hle hhooks hevents =>
      exact ⟨horders, List.prefix_append _ _, List.prefix_append _ _, List.prefix_rfl,
        List.prefix_rfl, List.prefix_rfl, List.prefix_rfl⟩
  | refunded events logs ho hstatus hid hle hevents =>
      exact ⟨horders, List.prefix_append _ _, List.prefix_rfl, List.prefix_append _ _,
        List.prefix_rfl, List.prefix_rfl, List.prefix_append _ _⟩
  -- a hook appends to the ledger and to the audit rows
  | @hooked ctx k hmem =>
      refine ⟨horders, ?_, ?_, ?_, ?_, runHook_prefix hs.ledger ctx k, ?_⟩
      · rw [runHook_orderEvents]
      · rw [runHook_payments]
      · rw [runHook_refunds]
      · rw [runHook_movements]
      · obtain ⟨ledger, logs, hdb⟩ := runHook_loyaltyOnly s.db ctx k
        rw [hdb]
        exact List.prefix_append _ _
  | stocked hframe =>
      obtain ⟨new, hmovements, -⟩ := hframe.movements
      refine ⟨horders, ?_, ?_, ?_, ?_, ?_, hframe.auditLogs⟩
      · rw [hframe.orderEvents]
      · rw [hframe.payments]
      · rw [hframe.refunds]
      · rw [hmovements]
        exact List.prefix_append _ _
      · rw [hframe.loyaltyLedger]

/-- **Evidence is only added to**: along every run from a reachable state, whatever is
done to orders, menu, stock and points, what had been written is there as it was. -/
theorem history_kept {s s' : Server} {rs : List Request} (h : serial.Reachable s)
    (hrun : serial.Run s rs s') :
    HistoryKept s.db s'.db
      ∧ ∀ orderId, timelineOf s.db orderId <+: timelineOf s'.db orderId := by
  have hkept : HistoryKept s.db s'.db := by
    refine (hrun.preserves (fun t => serial.Reachable t ∧ HistoryKept s.db t.db) ?_
      ⟨h, .refl s.db⟩).2
    rintro t r t' ⟨hreach, hkept⟩ hstep
    exact ⟨hreach.step hstep,
      hkept.trans ((perform_effect hstep).historyKept (serial_loyaltyInv hreach))⟩
  exact ⟨hkept, fun orderId => hkept.events.filter _⟩

theorem history_kept_lassi :
    HistoryKept (after placedLassi openBar).db
        (after (placedLassi ++ [.updateStatus cashier 1 20 .voided none]) openBar).db
      ∧ (after (placedLassi ++ [.updateStatus cashier 1 20 .voided none])
        openBar).db.auditLogs.length = 1 := by
  have hreach : serial.Reachable (after placedLassi openBar) :=
    after_reachable openBar_opening rfl
  have hvoid : serial.Run (after placedLassi openBar)
      [.updateStatus cashier 1 20 .voided none] _ := .cons (serve_step rfl) (.nil _)
  exact ⟨(history_kept hreach hvoid).1, by decide⟩

end OraOS.Orders
