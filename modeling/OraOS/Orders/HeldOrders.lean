/-
  OraOS.Orders.HeldOrders — does a held order carry money?

  Creation refuses a held order that comes with a payment.  A payment recorded later is
  refused on a reversed order only, and a held order is cancelled without a look at what
  was paid on it.

    * `perform_payments`   — which request adds a payment to an order that is there;
    * `held_orders_unpaid` — in the runs that pay no held order, none carries money.
-/
import OraOS.Orders.MoneyLedger

namespace OraOS.Orders

open OraOS.Api
open OraOS.Lib
open OraOS.Inventory

/-! ## §1. Who pays. -/

/-- `recordPayment` answers a known key with its order, and otherwise adds one row to an
order that is not cancelled. -/
theorem recordPayment_rows {db db' : Db} {ctx : TenantContext} {env : Env} {orderId : Uuid}
    {dto : RecordPaymentDto} {o : Order} {hooks : List Hook}
    (h : recordPayment db ctx env orderId dto = .ok (o, db', hooks)) :
    (replayPayment db dto.idempotencyKey).isSome = true ∧ db'.payments = db.payments
      ∨ (replayPayment db dto.idempotencyKey).isSome = false ∧ db.findOrder orderId = some o
        ∧ o.status ≠ .cancelled ∧ db'.orders = db.orders
        ∧ ∃ p : Payment, p.orderId = orderId ∧ db'.payments = db.payments ++ [p] := by
  unfold recordPayment at h
  -- a replay adds nothing; a new payment has passed the check on the status
  cases hreplay : replayPayment db dto.idempotencyKey with
  | some existing =>
      rw [hreplay] at h
      cases existing with
      | error e => cases h
      | ok o' =>
          cases h
          exact .inl ⟨rfl, rfl⟩
  | none =>
      rw [hreplay] at h
      obtain ⟨⟨o', db₁, settled⟩, htx, h⟩ := bind_ok.mp h
      cases pure_ok.mp h
      simp only [paymentTx, bind_ok, found_ok, require_ok] at htx
      obtain ⟨_, ho, -, hstatus, -, -, db₂, hins, htx⟩ := htx
      cases pure_ok.mp htx
      obtain ⟨p, hid, -, -, rfl⟩ := insertPayment_ok hins
      exact .inr ⟨rfl, ho, hstatus.2, rfl, p, hid, rfl⟩

/-- A creation pays the new order, and no other. -/
theorem create_paymentsOf {db db' : Db} {ctx : TenantContext} {env : Env} {dto : CreateOrderDto}
    {o : Order} {hooks : List Hook} (h : create db ctx env dto = .ok (o, db', hooks)) {x : Order}
    (hx : x ∈ db.orders) : paymentsOf db' x.id = paymentsOf db x.id := by
  obtain ⟨-, ⟨-, rfl, -⟩ | ⟨hins, -⟩⟩ := create_ok h
  · rfl
  · obtain ⟨paid, moved, spent, redemptions, logs, hi, rfl⟩ := insert_ok hins
    refine filter_append_other ?_
    intro p hp
    rcases hi.paid with ⟨rfl, -⟩ | ⟨q, rfl, hid, -⟩
    · cases hp
    · have hne : o.id ≠ x.id := by
        rw [hi.id]
        exact (hi.fresh x hx).symm
      rw [List.mem_singleton.mp hp, hid]
      simpa using hne

/-- A payment is added to its order and to no other. -/
theorem recordPayment_paymentsOf {db db' : Db} {ctx : TenantContext} {env : Env} {orderId : Uuid}
    {dto : RecordPaymentDto} {o : Order} {hooks : List Hook}
    (h : recordPayment db ctx env orderId dto = .ok (o, db', hooks)) (hids : UniqueIds db)
    {x : Order} (hx : x ∈ db.orders) :
    paymentsOf db' x.id = paymentsOf db x.id
      ∨ orderId = x.id ∧ x.status ≠ .cancelled ∧ db.findOrder x.id = some x
        ∧ (replayPayment db dto.idempotencyKey).isSome = false := by
  unfold paymentsOf
  rcases recordPayment_rows h with ⟨-, hsame⟩ | ⟨hnew, ho, hlive, -, p, hid, hpayments⟩
  · left
    rw [hsame]
  -- the payment is of this order, or of another one
  · by_cases heq : orderId = x.id
    · subst heq
      have hox : o = x := hids.eq (Db.mem_of_findOrder ho).1 hx (Db.mem_of_findOrder ho).2
      subst hox
      exact .inr ⟨rfl, hlive, ho, hnew⟩
    · left
      rw [hpayments]
      refine filter_append_other ?_
      intro q hq
      rw [List.mem_singleton.mp hq, hid]
      simpa using heq

/-- The payments of an order that is there: only `recordPayment` adds one, and not when the
order is cancelled. -/
theorem perform_payments {s s' : Server} {r : Request} (h : perform s r = .ok s')
    (hids : UniqueIds s.db) {x : Order} (hx : x ∈ s.db.orders) :
    paymentsOf s'.db x.id = paymentsOf s.db x.id
      ∨ x.status ≠ .cancelled ∧ s.db.findOrder x.id = some x
        ∧ ∃ ctx env dto, r = .recordPayment ctx env x.id dto
          ∧ (replayPayment s.db dto.idempotencyKey).isSome = false := by
  -- no other request takes money for an order that is there
  cases r with
  | create ctx env dto =>
      obtain ⟨⟨o, db', hooks⟩, hok, h⟩ := bind_ok.mp h
      cases pure_ok.mp h
      exact .inl (create_paymentsOf hok hx)
  | updateStatus ctx now orderId toStatus reason =>
      left
      obtain ⟨db', hok, h⟩ := bind_ok.mp h
      cases pure_ok.mp h
      obtain ⟨o, -, ⟨-, rfl⟩ | ⟨-, moved, logs, -, rfl⟩⟩ := updateStatus_ok hok
      · rfl
      · rfl
  | recordPayment ctx env orderId dto =>
      obtain ⟨⟨o, db', hooks⟩, hok, h⟩ := bind_ok.mp h
      cases pure_ok.mp h
      rcases recordPayment_paymentsOf hok hids hx with hsame | ⟨rfl, hlive, hfound, hnew⟩
      · exact .inl hsame
      · exact .inr ⟨hlive, hfound, ctx, env, dto, rfl, hnew⟩
  | recordRefund ctx env orderId dto =>
      left
      obtain ⟨⟨o, db', hooks⟩, hok, h⟩ := bind_ok.mp h
      cases pure_ok.mp h
      rcases recordRefund_ok hok with ⟨rfl, -⟩ | ⟨r, logs, -, -, -, -, -, -, rfl⟩
      · rfl
      · rfl
  | hook ctx k =>
      left
      unfold paymentsOf
      simp only [perform] at h
      split at h
      next =>
        cases h
        rw [runHook_payments]
      next => cases h
  | stock ctx r =>
      left
      unfold paymentsOf
      obtain ⟨db', hok, h⟩ := bind_ok.mp h
      cases pure_ok.mp h
      rw [(performStock_leavesOrders hok).payments]

/-! ## §2. Orders that were cancelled while they were held. -/

/-- The event of a held order that is cancelled. -/
def OrderEvent.cancelsDraft (e : OrderEvent) : Bool :=
  match e.kind with
  | .statusChanged .draft .cancelled _ => true
  | _ => false

/-- The order was cancelled straight from DRAFT, as its trail tells. -/
def CancelledFromDraft (db : Db) (orderId : Uuid) : Prop :=
  ∃ e ∈ db.orderEvents, e.orderId = orderId ∧ OrderEvent.cancelsDraft e = true

/-- An order of which the trail tells so is there, and is cancelled. -/
def DraftTrail (db : Db) : Prop :=
  ∀ e ∈ db.orderEvents, OrderEvent.cancelsDraft e = true →
    ∃ o ∈ db.orders, o.id = e.orderId ∧ o.status = .cancelled

/-- What an event that cancels a held order says. -/
theorem cancelsDraft_statusChanged {id : Uuid} {fromStatus toStatus : OrderStatus}
    {reason : Option String} {actor : Uuid}
    (h : OrderEvent.cancelsDraft ⟨id, .statusChanged fromStatus toStatus reason, actor⟩ = true) :
    fromStatus = .draft ∧ toStatus = .cancelled := by
  cases fromStatus <;> cases toStatus <;> first | exact ⟨rfl, rfl⟩ | cases h

/-- Only a status change can be such an event. -/
theorem Effect.trail {s s' : Server} (h : Effect s s') {e : OrderEvent}
    (he : e ∈ s'.db.orderEvents) (hcancels : OrderEvent.cancelsDraft e = true) :
    e ∈ s.db.orderEvents ∨ ∃ o, s.db.findOrder o.id = some o ∧ o.status = .draft
      ∧ e.orderId = o.id ∧ ∃ placedAt,
        s'.db.orders = setStatus s.db.orders o.id .cancelled placedAt := by
  cases h with
  | idle => exact .inl he
  | created redemptions logs hooks hcheck hins hhooks =>
      rw [inserted_orderEvents] at he
      rcases List.mem_append.mp he with hold | hnew
      · exact .inl hold
      · rw [List.mem_singleton.mp hnew] at hcancels
        cases hcancels
  -- the only new event that can cancel a held order
  | @moved ctx now o toStatus reason moved logs ho hcan hmoved =>
      rw [statusChanged_orderEvents] at he
      rcases List.mem_append.mp he with hold | hnew
      · exact .inl hold
      · have hevent := List.mem_singleton.mp hnew
        rw [hevent] at hcancels
        obtain ⟨hdraft, rfl⟩ := cancelsDraft_statusChanged hcancels
        exact .inr ⟨o, ho, hdraft, by rw [hevent], _, rfl⟩
  | paid events hooks ho hlive hid hcaptured hle hhooks hevents =>
      rcases List.mem_append.mp he with hold | hnew
      · exact .inl hold
      · obtain ⟨method, amount, hkind⟩ := hevents e hnew
        rw [OrderEvent.cancelsDraft, hkind] at hcancels
        cases hcancels
  | refunded events logs ho hstatus hid hle hevents =>
      rcases List.mem_append.mp he with hold | hnew
      · exact .inl hold
      · obtain ⟨method, amount, reason, hkind⟩ := hevents e hnew
        rw [OrderEvent.cancelsDraft, hkind] at hcancels
        cases hcancels
  | hooked hmem =>
      rw [runHook_orderEvents] at he
      exact .inl he
  | stocked hframe =>
      rw [hframe.orderEvents] at he
      exact .inl he

/-- Every request leaves in the trail whether an order was cancelled while held. -/
theorem Effect.draftTrail {s s' : Server} (h : Effect s s') (hids : UniqueIds s.db)
    (hs : DraftTrail s.db) : DraftTrail s'.db := by
  intro e he hcancels
  rcases h.trail he hcancels with hold | ⟨o, ho, -, hid, placedAt, horders⟩
  · obtain ⟨o, ho, hid, hstatus⟩ := hs e hold hcancels
    obtain ⟨o', ho', hsame⟩ := h.keeps hids ho
    have hreversed : isReversed o.status = true := by
      rw [hstatus]
      rfl
    exact ⟨o', ho', hsame.id.trans hid, (hsame.reversed hreversed).trans hstatus⟩
  · rw [horders, hid]
    refine ⟨_, List.mem_map_of_mem (Db.mem_of_findOrder ho).1, ?_, ?_⟩
    · rw [if_pos rfl]
    · rw [if_pos rfl]

/-! ## §3. One request. -/

/-- The order is held, or was cancelled while it was. -/
def NeverPlaced (db : Db) (o : Order) : Prop := o.status = .draft ∨ CancelledFromDraft db o.id

/-- No such order has a payment. -/
def HeldUnpaid (db : Db) : Prop :=
  ∀ o ∈ db.orders, NeverPlaced db o → paymentsOf db o.id = []

/-- A payment that is recorded finds an order that is not held, unless its key is known. -/
def PaysNoDraft (s : Server) : Request → Prop
  | .recordPayment _ _ orderId dto =>
      (replayPayment s.db dto.idempotencyKey).isSome = true
        ∨ ∀ o ∈ s.db.findOrder orderId, o.status ≠ .draft
  | _ => True

/-- A new order is not paid while it is held. -/
theorem created_unpaid {db : Db} {ctx : TenantContext} {env : Env} {dto : CreateOrderDto}
    {o : Order} {paid : List Payment} {moved : List StockMovement} {spent : List LoyaltyEntry}
    (hs : MoneyInv db) (hcheck : checkRequest ctx dto = .ok ())
    (hins : Inserted db ctx env dto o paid moved spent) (hdraft : o.status = .draft) :
    (db.payments ++ paid).filter (fun p => decide (p.orderId = o.id)) = [] := by
  have hheld : dto.held = true := by
    have hstatus := hins.status
    rw [hdraft] at hstatus
    split at hstatus
    · assumption
    · cases hstatus
  have hnone : paid = [] := by
    rcases hins.paid with ⟨hnone, -⟩ | ⟨p, -, -, -, -, hmethod⟩
    · exact hnone
    · exfalso
      simp only [checkRequest, bind_ok, require_ok] at hcheck
      obtain ⟨_, hhold, -⟩ := hcheck
      exact hhold ⟨hheld, hmethod⟩
  rw [hnone, List.append_nil]
  -- the id is new, so no earlier payment names it
  refine List.filter_eq_nil_iff.mpr ?_
  intro p hp hid
  obtain ⟨x, hx, hxid⟩ := hs.paymentKnown p hp
  refine hins.fresh x hx ?_
  rw [hxid, ← hins.id]
  exact of_decide_eq_true hid

/-- An order that was never placed has been so before, or is new and unpaid. -/
theorem Effect.neverPlaced_before {s s' : Server} (h : Effect s s') (hs : MoneyInv s.db)
    (htrail : DraftTrail s.db) {o' : Order} (ho' : o' ∈ s'.db.orders)
    (hnever : NeverPlaced s'.db o') :
    (∃ o ∈ s.db.orders, o.id = o'.id ∧ NeverPlaced s.db o) ∨ paymentsOf s'.db o'.id = [] := by
  rcases hnever with hdraft | ⟨e, he, hid, hcancels⟩
  · cases h with
    | idle => exact .inl ⟨o', ho', rfl, .inl hdraft⟩
    | created redemptions logs hooks hcheck hins hhooks =>
        rw [inserted_orders] at ho'
        rcases List.mem_append.mp ho' with hold | hnew
        · exact .inl ⟨o', hold, rfl, .inl hdraft⟩
        · rw [List.mem_singleton.mp hnew] at hdraft ⊢
          exact .inr (created_unpaid hs hcheck hins hdraft)
    | moved reason logs ho hcan hmoved =>
        rw [statusChanged_orders] at ho'
        rcases mem_setStatus ho' with ⟨hold, -⟩ | ⟨x, -, -, -, hstatus, -⟩
        · exact .inl ⟨o', hold, rfl, .inl hdraft⟩
        · -- nothing becomes a draft
          rw [← hstatus, hdraft, canTransition_to_draft] at hcan
          cases hcan
    | paid events hooks ho hlive hpaid hcaptured hle hhooks hevents =>
        exact .inl ⟨o', ho', rfl, .inl hdraft⟩
    | refunded events logs ho hstatus hrefund hle hevents =>
        exact .inl ⟨o', ho', rfl, .inl hdraft⟩
    | hooked hmem =>
        rw [runHook_orders] at ho'
        exact .inl ⟨o', ho', rfl, .inl hdraft⟩
    | stocked hframe =>
        rw [hframe.orders] at ho'
        exact .inl ⟨o', ho', rfl, .inl hdraft⟩
  · left
    rcases h.trail he hcancels with hold | ⟨o, ho, hdraft, heid, -⟩
    · obtain ⟨o, ho, hoid, -⟩ := htrail e hold hcancels
      exact ⟨o, ho, hoid.trans hid, .inr ⟨e, hold, hoid.symm, hcancels⟩⟩
    · exact ⟨o, (Db.mem_of_findOrder ho).1, heid.symm.trans hid, .inl hdraft⟩

/-- **When a request leaves a held order with money**: when it pays one. -/
theorem perform_heldUnpaid {s s' : Server} {r : Request} (hs : MoneyInv s.db)
    (htrail : DraftTrail s.db) (hunpaid : HeldUnpaid s.db) (h : perform s r = .ok s') :
    HeldUnpaid s'.db ↔ PaysNoDraft s r := by
  constructor
  · intro hafter
    cases r with
    | recordPayment ctx env orderId dto =>
        obtain ⟨⟨o, db', hooks⟩, hok, h⟩ := bind_ok.mp h
        cases pure_ok.mp h
        rcases recordPayment_rows hok with ⟨hreplay, -⟩ | ⟨-, ho, -, horders, p, hid, hpayments⟩
        · exact .inl hreplay
        · right
          intro x hx hdraft
          cases ho.symm.trans hx
          obtain ⟨hmem, hoid⟩ := Db.mem_of_findOrder ho
          have hmem' : o ∈ db'.orders := horders ▸ hmem
          have hnone : db'.payments.filter (fun q => decide (q.orderId = o.id)) = [] :=
            hafter o hmem' (.inl hdraft)
          rw [hpayments] at hnone
          have hpaid := List.filter_eq_nil_iff.mp hnone p (List.mem_append_right _ List.mem_cons_self)
          exact hpaid (decide_eq_true (hid.trans hoid.symm))
    | create | updateStatus | recordRefund | hook | stock => trivial
  · intro hcond o' ho' hnever
    rcases (perform_effect h).neverPlaced_before hs htrail ho' hnever with
      ⟨o, ho, hid, hbefore⟩ | hnew
    · rw [← hid]
      rcases perform_payments h hs.ids ho with hsame | ⟨hlive, hfind, ctx, env, dto, rfl, hnew⟩
      · rw [hsame]
        exact hunpaid o ho hbefore
      · -- the payment is on a live order, which is no draft by the condition
        exfalso
        rcases hcond with hreplay | hnodraft
        · rw [hnew] at hreplay
          cases hreplay
        · rcases hbefore with hdraft | ⟨e, he, heid, hcancels⟩
          · exact hnodraft o hfind hdraft
          · obtain ⟨x, hx, hxid, hstatus⟩ := htrail e he hcancels
            rw [hs.ids.eq hx ho (hxid.trans heid)] at hstatus
            exact hlive hstatus
    · exact hnew

/-! ## §4. Every run. -/

/-- **A held order carries no money** in the runs that pay none, and neither does one that was
cancelled while it was held; a request that pays a held order ends this. -/
theorem held_orders_unpaid {s : Server} (h : (serial.restrict PaysNoDraft).Reachable s) :
    HeldUnpaid s.db
      ∧ ∀ r s', serial.step s r s' → (HeldUnpaid s'.db ↔ PaysNoDraft s r) := by
  -- along the run, with the trail of what was cancelled while held
  have hinv : ∀ {t : Server}, (serial.restrict PaysNoDraft).Reachable t →
      DraftTrail t.db ∧ HeldUnpaid t.db := by
    intro t ht
    induction ht with
    | @init t h0 =>
        have hopen : Opening t := h0
        constructor
        · intro e he
          rw [hopen.orderEvents] at he
          cases he
        · intro o ho
          rw [hopen.orders] at ho
          cases ho
    | @step t t' r hreach hstep ih =>
        have hmoney := serial_moneyInv (System.restrict_reachable hreach)
        exact ⟨(perform_effect hstep.2).draftTrail hmoney.ids ih.1,
          (perform_heldUnpaid hmoney ih.1 ih.2 hstep.2).mpr hstep.1⟩
  obtain ⟨htrail, hunpaid⟩ := hinv h
  refine ⟨hunpaid, ?_⟩
  intro r s' hstep
  exact perform_heldUnpaid (serial_moneyInv (System.restrict_reachable h)) htrail hunpaid hstep

instance (s : Server) (r : Request) : Decidable (PaysNoDraft s r) := by
  unfold PaysNoDraft
  split <;> infer_instance

instance (db : Db) (orderId : Uuid) : Decidable (CancelledFromDraft db orderId) :=
  inferInstanceAs (Decidable (∃ e ∈ db.orderEvents, _))

theorem lassi_amount : (1 : ℤ) ≤ 1050 ∧ (1050 : ℤ) ≤ 100000000 := by decide

/-- A lassi and its tax, in cash. -/
def cashLeg : RecordPaymentDto := ⟨.cash, 1050, none, none, lassi_amount⟩

/-- Two lassis are parked; one is placed and paid, the other called off. -/
def parkedTwo : List Request :=
  [.create cashier ⟨20, 0⟩ (lassiOrder (some true) none none),
    .create cashier ⟨21, 1⟩ (lassiOrder (some true) none none),
    .updateStatus cashier 2 20 .placed none,
    .recordPayment cashier ⟨22, 3⟩ 20 cashLeg,
    .updateStatus cashier 4 21 .cancelled none]

theorem parkedTwo_runs :
    (System.replay (System.guarded PaysNoDraft serve) parkedTwo openBar).isSome = true := by
  decide +kernel

/-- Two orders are parked: one is placed and paid, the other called off. -/
theorem held_orders_unpaid_parkedTwo :
    ∃ s : Server, s.db.payments.map (·.orderId) = [20] ∧ CancelledFromDraft s.db 21
      ∧ HeldUnpaid s.db := by
  have h := System.replay_restricted (M := serial) (C := PaysNoDraft) (f := serve)
    (fun _ _ _ => serve_step) parkedTwo openBar openBar_opening
    (Option.some_get parkedTwo_runs).symm
  exact ⟨_, by decide +kernel, by decide +kernel, (held_orders_unpaid h).1⟩

/-- A lassi is parked, paid and called off. -/
def paidWhileParked : List Request :=
  [.create cashier ⟨20, 0⟩ (lassiOrder (some true) none none),
    .recordPayment cashier ⟨22, 3⟩ 20 cashLeg,
    .updateStatus cashier 4 20 .cancelled none]

theorem paidWhileParked_runs :
    (System.replay serve paidWhileParked openBar).isSome = true := by
  decide +kernel

/-- Both a held order and one that was cancelled from there carry money. -/
theorem held_order_paid :
    (∃ s, serial.Reachable s ∧ ∃ o ∈ s.db.orders, o.status = .draft
        ∧ paymentsOf s.db o.id ≠ [])
      ∧ ∃ s, serial.Reachable s ∧ ∃ o ∈ s.db.orders, CancelledFromDraft s.db o.id
        ∧ paymentsOf s.db o.id ≠ [] := by
  have hpaid : (System.replay serve (paidWhileParked.take 2) openBar).isSome = true := by
    decide +kernel
  refine ⟨⟨_, after_reachable openBar_opening hpaid, ?_⟩,
    ⟨_, after_reachable openBar_opening paidWhileParked_runs, ?_⟩⟩
  · have horders : ∃ o ∈ (after (paidWhileParked.take 2) openBar).db.orders, o.status = .draft
        ∧ (paymentsOf (after (paidWhileParked.take 2) openBar).db o.id).length = 1 := by
      decide +kernel
    obtain ⟨o, ho, hdraft, hone⟩ := horders
    exact ⟨o, ho, hdraft, List.ne_nil_of_length_eq_add_one hone⟩
  · have horders : ∃ o ∈ (after paidWhileParked openBar).db.orders,
        CancelledFromDraft (after paidWhileParked openBar).db o.id
        ∧ (paymentsOf (after paidWhileParked openBar).db o.id).length = 1 := by
      decide +kernel
    obtain ⟨o, ho, hcancelled, hone⟩ := horders
    exact ⟨o, ho, hcancelled, List.ne_nil_of_length_eq_add_one hone⟩

end OraOS.Orders
