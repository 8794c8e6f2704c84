/-
  OraOS.Orders.SalesFigures — do the sales figures and the stock ledger agree on
  which sales happened?

  The figures count what is neither VOIDED nor CANCELLED, by its status alone; an
  order happened when its trail says it was placed and not called off, and then
  its recipe consumption stands in the ledger.

    * `SalesInv.agrees`  — what a run without parking keeps makes them agree;
    * `parked_disagrees` — and parking an order always makes them disagree: the
                           DRAFT is counted, and took nothing.
-/
import OraOS.Orders.Reversal

namespace OraOS.Orders

open OraOS.Api
open OraOS.Lib
open OraOS.Inventory

/-! ## §1. What the figures count. -/

/-- The `where` of `overviewBetween`: countable, and created in the window. -/
def countedBetween (db : Db) (start finish : Instant) : List Order :=
  db.orders.filter fun o =>
    countable o.status && decide (start ≤ o.createdAt ∧ o.createdAt ≤ finish)

/-- `summary.revenueMinor`. -/
def revenueBetween (db : Db) (start finish : Instant) : ℤ :=
  ((countedBetween db start finish).map (·.totalMinor)).sum

/-- In a window with its creation, an order is counted by its status alone. -/
theorem mem_countedBetween {db : Db} {o : Order} (ho : o ∈ db.orders) :
    o ∈ countedBetween db o.createdAt o.createdAt ↔ isReversed o.status = false := by
  unfold countedBetween
  rw [List.mem_filter]
  have hcount : countable o.status = true ↔ isReversed o.status = false := by
    cases o.status <;> decide
  simp [ho, hcount]

/-! ## §2. What happened. -/

/-- The status an event of the trail brings its order to. -/
def OrderEventKind.arrives : OrderEventKind → Option OrderStatus
  | .created toStatus _ _ => some toStatus
  | .statusChanged _ toStatus _ => some toStatus
  | .paymentRecorded _ _ => none
  | .refundRecorded _ _ _ => none

/-- The trail of the order shows it in a status that satisfies `p`. -/
def Reached (db : Db) (orderId : Uuid) (p : OrderStatus → Bool) : Prop :=
  ∃ e ∈ db.orderEvents, e.orderId = orderId ∧ ∃ t ∈ OrderEventKind.arrives e.kind, p t = true

/-- The sale took place: placed at some time, and never called off. -/
def Happened (db : Db) (orderId : Uuid) : Prop :=
  Reached db orderId (fun t => decide (t = .placed)) ∧ ¬ Reached db orderId isReversed

/-- **Money and stock agree on an order**: it is counted exactly when it happened,
and its recipe consumption stands in the ledger exactly then. -/
structure Agrees (db : Db) (o : Order) : Prop where
  counted : o ∈ countedBetween db o.createdAt o.createdAt ↔ Happened db o.id
  standing : Happened db o.id → ∀ i,
    taggedOf db.movements o.id i = -demand db.recipeItems (soldLines o.items) i
  returned : ¬ Happened db o.id → ∀ i, taggedOf db.movements o.id i = 0

/-! ## §3. Runs of trade. -/

/-- The requests of trade: creating, holding, and moving orders. -/
def isTrade : Request → Bool
  | .create _ _ _ => true
  | .updateStatus _ _ _ _ _ => true
  | _ => false

/-- The runs of the API in which nothing but trade is done with orders. -/
def trade : System Server Request := serial.restrict fun _ r => isTrade r = true

/-- The request inserts no held order. -/
def ParksNothing (s : Server) : Request → Prop
  | .create _ _ dto => dto.held = false ∨ (findByIdempotencyKey s.db dto.idempotencyKey).isSome
  | _ => True

/-- The trail appended by one request of trade. -/
theorem reached_append {db db' : Db} {e : OrderEvent} {t : OrderStatus}
    (hevents : db'.orderEvents = db.orderEvents ++ [e])
    (ht : OrderEventKind.arrives e.kind = some t) (orderId : Uuid) (p : OrderStatus → Bool) :
    Reached db' orderId p ↔ Reached db orderId p ∨ (e.orderId = orderId ∧ p t = true) := by
  unfold Reached
  rw [hevents]
  constructor
  · rintro ⟨e', he', hid, t', ht', hp⟩
    rcases List.mem_append.mp he' with he' | he'
    · exact .inl ⟨e', he', hid, t', ht', hp⟩
    · obtain rfl := List.mem_singleton.mp he'
      rw [ht] at ht'
      cases ht'
      exact .inr ⟨hid, hp⟩
  · rintro (⟨e', he', hid, t', ht', hp⟩ | ⟨hid, hp⟩)
    · exact ⟨e', List.mem_append_left _ he', hid, t', ht', hp⟩
    · exact ⟨e, List.mem_append_right _ (List.mem_singleton_self e), hid, t, ht, hp⟩

/-- What a request of trade does: nothing, one creation, or one move. -/
theorem trade_step {s s' : Server} {r : Request} (h : trade.step s r s') :
    s' = s
    ∨ (∃ ctx env dto o paid moved spent redemptions logs hooks, r = .create ctx env dto
        ∧ findByIdempotencyKey s.db dto.idempotencyKey = none
        ∧ Inserted s.db ctx env dto o paid moved spent
        ∧ s' = ⟨inserted s.db ctx o paid moved spent redemptions logs, s.pending ++ hooks⟩)
    ∨ ∃ ctx now o toStatus reason moved logs, s.db.findOrder o.id = some o
        ∧ canTransition o.status toStatus = true ∧ MovedOnChange s.db ctx now o toStatus moved
        ∧ s' = ⟨statusChanged s.db ctx now o toStatus reason moved logs, s.pending⟩ := by
  obtain ⟨htrade, hstep⟩ := h
  cases r with
  | create ctx env dto =>
      obtain ⟨⟨o, db', hooks⟩, hok, h⟩ := bind_ok.mp hstep
      cases pure_ok.mp h
      obtain ⟨-, hreplay | ⟨hins, -⟩⟩ := create_ok hok
      · obtain ⟨-, rfl, rfl⟩ := hreplay
        refine .inl ?_
        show (⟨s.db, s.pending ++ []⟩ : Server) = s
        rw [List.append_nil]
      · cases hkey : findByIdempotencyKey s.db dto.idempotencyKey with
        | none =>
            obtain ⟨paid, moved, spent, redemptions, logs, hi, rfl⟩ := insert_ok hins
            exact .inr (.inl ⟨ctx, env, dto, o, paid, moved, spent, redemptions, _, hooks,
              rfl, hkey, hi, rfl⟩)
        | some existing =>
            -- the key is known, so `create` replays: this insert never ran
            have hfirst : create s.db ctx env dto = .ok (existing, s.db, []) := by
              obtain ⟨_, hcheck, -⟩ := bind_ok.mp hok
              refine bind_ok.mpr ⟨_, hcheck, ?_⟩
              rw [hkey]
            rw [hfirst] at hok
            cases hok
            refine .inl ?_
            show (⟨s.db, s.pending ++ []⟩ : Server) = s
            rw [List.append_nil]
  | updateStatus ctx now orderId toStatus reason =>
      obtain ⟨db', hok, h⟩ := bind_ok.mp hstep
      cases pure_ok.mp h
      obtain ⟨o, ho, ⟨-, rfl⟩ | ⟨hcan, moved, logs, hmoved, rfl⟩⟩ := updateStatus_ok hok
      · exact .inl rfl
      · have hid : o.id = orderId := (Db.mem_of_findOrder ho).2
        subst hid
        exact .inr (.inr ⟨ctx, now, o, toStatus, reason, moved, _, ho, hcan, hmoved, rfl⟩)
  | recordPayment ctx env orderId dto => cases htrade
  | recordRefund ctx env orderId dto => cases htrade
  | hook ctx h => cases htrade
  | stock ctx r => cases htrade

/-- The trail names orders that exist. -/
def EventsKnown (db : Db) : Prop := ∀ e ∈ db.orderEvents, ∃ o ∈ db.orders, o.id = e.orderId

/-- Every event is about an order there is. -/
theorem trade_eventsKnown {s : Server} (h : trade.Reachable s) : EventsKnown s.db := by
  refine (h.invariant (fun s => UniqueIds s.db ∧ EventsKnown s.db) ?_ ?_).2
  · intro s hopen
    refine ⟨serial_uniqueIds (.init hopen), ?_⟩
    unfold EventsKnown
    rw [hopen.orderEvents]
    exact List.forall_mem_nil _
  · rintro s r s' ⟨hids, hs⟩ hstep
    refine ⟨(perform_effect hstep.2).uniqueIds hids, ?_⟩
    rcases trade_step hstep with rfl |
      ⟨ctx, env, dto, o, paid, moved, spent, redemptions, logs, hooks, -, -, hi, rfl⟩ |
      ⟨ctx, now, o, toStatus, reason, moved, logs, ho, hcan, -, rfl⟩
    · exact hs
    · intro e he
      rw [inserted_orderEvents] at he
      rw [inserted_orders]
      rcases List.mem_append.mp he with he | he
      · obtain ⟨x, hx, hid⟩ := hs e he
        exact ⟨x, List.mem_append_left _ hx, hid⟩
      · rw [List.mem_singleton.mp he]
        exact ⟨o, List.mem_append_right _ (List.mem_singleton_self o), rfl⟩
    · intro e he
      rw [statusChanged_orderEvents] at he
      rw [statusChanged_orders]
      have hold : ∃ x ∈ s.db.orders, x.id = e.orderId := by
        rcases List.mem_append.mp he with he | he
        · exact hs e he
        · rw [List.mem_singleton.mp he]
          exact ⟨o, (Db.mem_of_findOrder ho).1, rfl⟩
      obtain ⟨x, hx, hid⟩ := hold
      -- a status change rewrites the order but keeps its id
      obtain ⟨x', hx', hsame⟩ := setStatus_keeps hids _ ho hcan hx
      exact ⟨x', hx', hsame.id.trans hid⟩

/-! ## §4. Without parking, the two agree. -/

/-- What holds of every order while none is parked. -/
structure SalesInv (db : Db) : Prop where
  notDraft : ∀ o ∈ db.orders, o.status ≠ .draft
  placed : ∀ o ∈ db.orders, Reached db o.id fun t => decide (t = .placed)
  reversed : ∀ o ∈ db.orders, Reached db o.id isReversed ↔ isReversed o.status = true
  standing : ∀ o ∈ db.orders, isReversed o.status = false → ∀ i,
    taggedOf db.movements o.id i = -demand db.recipeItems (soldLines o.items) i

/-- The rows of a placement come to minus the demand of what its items say was
sold. -/
theorem Inserted.taggedOf_moved {db : Db} {ctx : TenantContext} {env : Env}
    {dto : CreateOrderDto} {o : Order} {paid : List Payment} {moved : List StockMovement}
    {spent : List LoyaltyEntry} (h : Inserted db ctx env dto o paid moved spent)
    (hplaced : dto.held = false) (i : Uuid) :
    taggedOf moved o.id i = -demand db.recipeItems (soldLines o.items) i := by
  have hrows := h.moved
  unfold DepletedAtPlacement at hrows
  rw [hplaced, if_neg Bool.false_ne_true] at hrows
  have hsum : taggedOf moved o.id i
      = sumWhere (fun m => decide (m.ingredientId = i)) (·.quantity)
          (depletionRows db env.now o.id ctx.userId (placementLines db dto.items)) := by
    unfold taggedOf taggedSum
    rw [ledgerSum_rows hrows]
    refine sumWhere_congr ?_ fun _ _ _ => rfl
    intro m hm
    simp [(depletionRows_tagged m hm).1]
  rw [hsum, depletionRows_sum _ _ _ _ (placementLines_nonneg db dto.items),
    soldLines_priced h.priced]

/-- A new order's figures agree, if it is not parked. -/
theorem SalesInv.created {db : Db} (hs : SalesInv db) (hstock : StockInv db)
    (hevents : EventsKnown db) {ctx : TenantContext} {env : Env} {dto : CreateOrderDto}
    {o : Order} {paid : List Payment} {moved : List StockMovement} {spent : List LoyaltyEntry}
    (redemptions : List CouponRedemption) (logs : List AuditLog)
    (h : Inserted db ctx env dto o paid moved spent) (hplaced : dto.held = false) :
    SalesInv (inserted db ctx o paid moved spent redemptions logs) := by
  have hstatus : o.status = .placed := by
    rw [h.status, hplaced]
    rfl
  have hnew : ∀ x ∈ db.orders, x.id ≠ o.id := by
    rw [h.id]
    exact h.fresh
  obtain ⟨hrows, -⟩ := h.moved_rows
  have hreached : ∀ x p, Reached (inserted db ctx o paid moved spent redemptions logs) x p
      ↔ Reached db x p ∨ (o.id = x ∧ p o.status = true) := fun x p =>
    reached_append (inserted_orderEvents ..) rfl x p
  -- the new order has no trail and no rows yet
  have hfirst : ∀ p, ¬ Reached db o.id p := by
    rintro p ⟨e, he, hid, -⟩
    obtain ⟨x, hx, hxid⟩ := hevents e he
    exact hnew x hx (hxid.trans hid)
  have hold : ∀ m ∈ db.movements, m.orderId ≠ some o.id := by
    intro m hm htag
    obtain ⟨x, hx, hid⟩ := hstock.known m hm o.id htag
    exact hnew x hx hid
  refine ⟨?_, ?_, ?_, ?_⟩
  · rw [inserted_orders]
    intro x hx
    rcases List.mem_append.mp hx with hx | hx
    · exact hs.notDraft x hx
    · rw [List.mem_singleton.mp hx, hstatus]
      decide
  · rw [inserted_orders]
    intro x hx
    rw [hreached]
    rcases List.mem_append.mp hx with hx | hx
    · exact .inl (hs.placed x hx)
    · refine .inr ?_
      rw [List.mem_singleton.mp hx, hstatus]
      exact ⟨rfl, rfl⟩
  · rw [inserted_orders]
    intro x hx
    rw [hreached]
    rcases List.mem_append.mp hx with hx | hx
    · rw [← hs.reversed x hx]
      exact or_iff_left fun hand => hnew x hx hand.1.symm
    · obtain rfl := List.mem_singleton.mp hx
      constructor
      · rintro (hr | hand)
        · exact absurd hr (hfirst _)
        · exact hand.2
      · intro hr
        exact .inr ⟨rfl, hr⟩
  · rw [inserted_orders, inserted_movements, inserted_recipeItems]
    intro x hx hlive i
    unfold taggedOf
    rw [taggedSum_append]
    rcases List.mem_append.mp hx with hx | hx
    · have hother : ∀ m ∈ moved, m.orderId ≠ some x.id := by
        intro m hm htag
        rw [(hrows m hm).1] at htag
        injection htag with hid
        exact hnew x hx hid.symm
      rw [taggedSum_untagged hother, add_zero]
      exact hs.standing x hx hlive i
    · obtain rfl := List.mem_singleton.mp hx
      rw [taggedSum_untagged hold, zero_add]
      exact h.taggedOf_moved hplaced i

/-- **A change of status keeps them agreeing, if the order was not parked.** -/
theorem SalesInv.moved {db : Db} (hs : SalesInv db) (hstock : StockInv db) {ctx : TenantContext}
    {now : Instant} {o : Order} {toStatus : OrderStatus} (reason : Option String)
    {moved : List StockMovement} (logs : List AuditLog) (ho : db.findOrder o.id = some o)
    (hcan : canTransition o.status toStatus = true)
    (hmoved : MovedOnChange db ctx now o toStatus moved) :
    SalesInv (statusChanged db ctx now o toStatus reason moved logs) := by
  have hmem : o ∈ db.orders := (Db.mem_of_findOrder ho).1
  have hres : ¬ resuming o.status toStatus = true := by
    intro hres
    simp only [resuming, Bool.and_eq_true, decide_eq_true_eq] at hres
    exact hs.notDraft o hmem hres.1
  have hlive : ¬ isReversed o.status = true := by
    intro hrev
    rw [canTransition_of_reversed hrev] at hcan
    cases hcan
  have hreached : ∀ x p, Reached (statusChanged db ctx now o toStatus reason moved logs) x p
      ↔ Reached db x p ∨ (o.id = x ∧ p toStatus = true) := fun x p =>
    reached_append (statusChanged_orderEvents ..) rfl x p
  refine ⟨?_, ?_, ?_, ?_⟩
  · rw [statusChanged_orders]
    intro x hx hdraft
    rcases mem_setStatus hx with ⟨hx, -⟩ | ⟨-, -, -, -, hstatus, -⟩
    · exact hs.notDraft x hx hdraft
    · rw [← hstatus, hdraft, canTransition_to_draft] at hcan
      cases hcan
  · rw [statusChanged_orders]
    intro x hx
    rw [hreached]
    rcases mem_setStatus hx with ⟨hx, -⟩ | ⟨y, hy, hyid, hid, -⟩
    · exact .inl (hs.placed x hx)
    · rw [hid, ← hyid]
      exact .inl (hs.placed y hy)
  · rw [statusChanged_orders]
    intro x hx
    rw [hreached]
    rcases mem_setStatus hx with ⟨hx, hne⟩ | ⟨-, -, -, hid, hstatus, -⟩
    · rw [← hs.reversed x hx]
      exact or_iff_left fun hand => hne hand.1.symm
    · rw [hid, hstatus]
      constructor
      · rintro (hr | hand)
        · exact absurd ((hs.reversed o hmem).mp hr) hlive
        · exact hand.2
      · intro hr
        exact .inr ⟨rfl, hr⟩
  · rw [statusChanged_orders, statusChanged_movements]
    intro x hx hxlive i
    show taggedSum _ _ _ = -demand db.recipeItems (soldLines x.items) i
    rw [taggedSum_append]
    rcases mem_setStatus hx with ⟨hx, hne⟩ | ⟨y, hy, hyid, hid, hstatus, -, hitems, -⟩
    · have hother : ∀ m ∈ moved, m.orderId ≠ some x.id := by
        intro m hm htag
        rw [(hmoved.rows m hm).1] at htag
        injection htag with hid
        exact hne hid.symm
      rw [taggedSum_untagged hother, add_zero]
      exact hs.standing x hx hxlive i
    · -- neither a resume nor a reversal: no stock moves
      have hto : toStatus ∉ reversingStatuses := by
        intro hto
        rw [hstatus] at hxlive
        simp [isReversed, hto] at hxlive
      unfold MovedOnChange at hmoved
      rw [if_neg hres, if_neg hto] at hmoved
      have hnil : moved = [] := List.map_eq_nil_iff.mp hmoved
      have hyo : y = o := hstock.ids.eq hy hmem hyid
      rw [hnil, taggedSum_untagged (List.forall_mem_nil _), add_zero, hid, hitems, hyo]
      exact hs.standing o hmem (by simpa using hlive) i

/-- What no parking keeps makes the figures and the ledger agree. -/
theorem SalesInv.agrees {db : Db} (hs : SalesInv db) (hstock : StockInv db) {o : Order}
    (ho : o ∈ db.orders) : Agrees db o := by
  have hhappened : Happened db o.id ↔ isReversed o.status = false := by
    unfold Happened
    rw [hs.reversed o ho, Bool.not_eq_true]
    exact and_iff_right (hs.placed o ho)
  refine ⟨(mem_countedBetween ho).trans hhappened.symm, ?_, ?_⟩
  · intro hh
    exact hs.standing o ho (hhappened.mp hh)
  · intro hh i
    rw [hhappened, Bool.not_eq_false] at hh
    exact hstock.returned o ho hh _

/-- **They agree in every run that parks nothing.** -/
theorem trade_salesInv {s : Server} (h : (trade.restrict ParksNothing).Reachable s) :
    SalesInv s.db := by
  refine (h.invariant (fun s => trade.Reachable s ∧ SalesInv s.db) ?_ ?_).2
  · intro s hopen
    have hno : ∀ o, o ∉ s.db.orders := by
      rw [hopen.orders]
      exact fun _ => List.not_mem_nil
    exact ⟨.init hopen, ⟨fun o ho => absurd ho (hno o), fun o ho => absurd ho (hno o),
      fun o ho => absurd ho (hno o), fun o ho => absurd ho (hno o)⟩⟩
  · rintro s r s' ⟨hreach, hs⟩ ⟨hparks, hstep⟩
    refine ⟨hreach.step hstep, ?_⟩
    have hstock : StockInv s.db := serial_stockInv (System.restrict_reachable hreach)
    rcases trade_step hstep with rfl |
      ⟨ctx, env, dto, o, paid, moved, spent, redemptions, logs, hooks, rfl, hkey, hi, rfl⟩ |
      ⟨ctx, now, o, toStatus, reason, moved, logs, ho, hcan, hmoved, rfl⟩
    · exact hs
    · refine hs.created hstock (trade_eventsKnown hreach) redemptions logs hi ?_
      rcases hparks with hplaced | hreplay
      · exact hplaced
      · rw [hkey] at hreplay
        cases hreplay
    · exact hs.moved hstock reason logs ho hcan hmoved

/-! ## §5. A parked order is counted. -/

/-- **Parking an order makes the two disagree**: it counts as a sale, and never
happened. -/
theorem parked_disagrees {s s' : Server} {r : Request} (h : trade.Reachable s)
    (hstep : trade.step s r s') (hparks : ¬ ParksNothing s r) :
    ∃ o ∈ s'.db.orders, ¬ Agrees s'.db o := by
  cases r with
  | create ctx env dto =>
      have hboth : ¬ (dto.held = false ∨ (findByIdempotencyKey s.db dto.idempotencyKey).isSome
        = true) := hparks
      rw [not_or] at hboth
      have hheld : dto.held = true := by simpa using hboth.1
      obtain ⟨⟨o, db', hooks⟩, hok, hserver⟩ := bind_ok.mp hstep.2
      cases pure_ok.mp hserver
      obtain ⟨-, ⟨hkey, -⟩ | ⟨hins, -⟩⟩ := create_ok hok
      · rw [hkey] at hboth
        exact absurd rfl hboth.2
      · obtain ⟨paid, moved, spent, redemptions, logs, hi, rfl⟩ := insert_ok hins
        have hstatus : o.status = .draft := by
          rw [hi.status, if_pos hheld]
        have hmem : o ∈ (inserted s.db ctx o paid moved spent redemptions logs).orders :=
          List.mem_append_right _ (List.mem_singleton_self o)
        refine ⟨o, hmem, ?_⟩
        intro hagrees
        have hcounted := (mem_countedBetween hmem).mpr (by rw [hstatus]; rfl)
        obtain ⟨hplaced, -⟩ := hagrees.counted.mp hcounted
        -- its whole trail is its creation as a DRAFT
        rcases (reached_append (inserted_orderEvents ..) rfl o.id _).mp hplaced with hold | hnew
        · obtain ⟨e, he, hid, -⟩ := hold
          obtain ⟨x, hx, hxid⟩ := trade_eventsKnown h e he
          exact hi.fresh x hx ((hxid.trans hid).trans hi.id)
        · rw [hstatus] at hnew
          exact absurd hnew.2 (by decide)
  | updateStatus ctx now orderId toStatus reason => exact absurd trivial hparks
  | recordPayment ctx env orderId dto => exact absurd trivial hparks
  | recordRefund ctx env orderId dto => exact absurd trivial hparks
  | hook ctx h => exact absurd trivial hparks
  | stock ctx r => exact absurd trivial hparks

/-- **Money and stock agree on which sales happened exactly as long as no order is
parked**: on every order of every run without parking, and never right after one. -/
theorem trade_agrees_iff (s : Server) :
    ((trade.restrict ParksNothing).Reachable s → ∀ o ∈ s.db.orders, Agrees s.db o)
      ∧ (trade.Reachable s → ∀ r s', trade.step s r s' → ¬ ParksNothing s r →
          ∃ o ∈ s'.db.orders, ¬ Agrees s'.db o) := by
  constructor
  · intro h o ho
    have hreach : serial.Reachable s :=
      System.restrict_reachable (System.restrict_reachable h)
    exact (trade_salesInv h).agrees (serial_stockInv hreach) ho
  · intro h r s' hstep hparks
    exact parked_disagrees h hstep hparks

/-- A lassi parked. -/
def parkedLassi : List Request := [.create cashier ⟨20, 0⟩ (lassiOrder (some true) none none)]

/-- It is revenue, and no curd has left. -/
theorem parked_lassi_counted :
    trade.Reachable (after parkedLassi openBar)
      ∧ revenueBetween (after parkedLassi openBar).db 0 0 = 1050
      ∧ (after parkedLassi openBar).db.movements.length = 0
      ∧ ∃ o ∈ (after parkedLassi openBar).db.orders, ¬ Agrees (after parkedLassi openBar).db o := by
  have hopen : trade.Reachable openBar := .init openBar_opening
  have hstep : trade.step openBar (.create cashier ⟨20, 0⟩ (lassiOrder (some true) none none))
      (after parkedLassi openBar) := by
    refine ⟨rfl, ?_⟩
    rfl
  refine ⟨hopen.step hstep, rfl, rfl, ?_⟩
  refine parked_disagrees hopen hstep ?_
  rintro (hplaced | hreplay)
  · cases hplaced
  · cases hreplay

/-- Placed, a lassi agrees; parked, it does not. -/
theorem trade_agrees_iff_lassi :
    (∀ o ∈ (after placedLassi openBar).db.orders, Agrees (after placedLassi openBar).db o)
      ∧ ∃ o ∈ (after parkedLassi openBar).db.orders, ¬ Agrees (after parkedLassi openBar).db o := by
  have hsold : trade.step openBar (.create cashier ⟨20, 0⟩ (lassiOrder none none none))
      (after placedLassi openBar) := ⟨rfl, rfl⟩
  have hparks : ParksNothing openBar (.create cashier ⟨20, 0⟩ (lassiOrder none none none)) :=
    Or.inl rfl
  have hplaced : (trade.restrict ParksNothing).Reachable (after placedLassi openBar) :=
    .step (.init openBar_opening) ⟨hparks, hsold⟩
  have hparked : trade.step openBar (.create cashier ⟨20, 0⟩ (lassiOrder (some true) none none))
      (after parkedLassi openBar) := ⟨rfl, rfl⟩
  refine ⟨(trade_agrees_iff _).1 hplaced,
    (trade_agrees_iff _).2 (.init openBar_opening) _ _ hparked ?_⟩
  rintro (hplaced | hreplay)
  · cases hplaced
  · cases hreplay

end OraOS.Orders
