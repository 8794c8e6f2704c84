/-
  OraOS.Reports.Voids — `ReportsService.voids`: who called which sale off, and why.

  The report takes the latest reversing event of each order from its trail.

    * `callOffs_of_replay` — a lawful trail calls its order off once at most;
    * `voids_report`       — so a row names the one who did it, and together with the
                             sales report of the window the rows are all its orders.
-/
import OraOS.Orders.Trail
import OraOS.Reports.Sales

namespace OraOS.Reports

open OraOS.Api
open OraOS.Lib
open OraOS.Orders

/-! ## §1. The report. -/

/-- One reversed order of the voids report. -/
structure VoidRow where
  id : Uuid
  orderNumber : ℤ
  status : OrderStatus
  totalMinor : ℤ
  reason : Option String
  actorUserId : Option Uuid
  deriving DecidableEq, Repr

/-- The voids report. -/
structure VoidsReport where
  window : Window
  rows : List VoidRow
  count : ℕ
  totalMinor : ℤ

/-- `type: 'STATUS_CHANGED', toStatus: { in: [VOIDED, CANCELLED] }`. -/
def callsOff (e : OrderEvent) : Bool :=
  match e.kind with
  | .statusChanged _ toStatus _ => isReversed toStatus
  | _ => false

/-- `metadata.reason`, where it is a string. -/
def reasonOf (e : OrderEvent) : Option String :=
  match e.kind with
  | .statusChanged _ _ reason => reason
  | _ => none

/-- The order's events that the report asks for. -/
def callOffs (events : List OrderEvent) : List OrderEvent := events.filter callsOff

/-- The row of a reversed order, with who called it off and why. -/
def voidRow (db : Db) (o : Order) : VoidRow :=
  -- the latest of them: `orderBy: { createdAt: 'desc' }, take: 1`
  let ev := (callOffs (timelineOf db o.id)).getLast?
  { id := o.id
    orderNumber := o.orderNumber
    status := o.status
    totalMinor := o.totalMinor
    reason := ev.bind reasonOf
    actorUserId := ev.map (·.actorUserId) }

/-- The orders of the window that were called off. -/
def reversedBetween (db : Db) (w : Window) : List Order :=
  db.orders.filter fun o =>
    isReversed o.status && decide (w.start ≤ o.createdAt ∧ o.createdAt ≤ w.finish)

/-- The reversed orders of a window, newest first. -/
def voidRows (db : Db) (w : Window) : List VoidRow :=
  ((reversedBetween db w).insertionSort fun a b => b.createdAt ≤ a.createdAt).map (voidRow db)

/-- `ReportsService.voids`. -/
def voids (db : Db) (fromDay toDay : Option ℤ) : Except ApiError VoidsReport := do
  let w ← window fromDay toDay
  let rows := voidRows db w
  pure ⟨w, rows, rows.length, (rows.map (·.totalMinor)).sum⟩

/-! ## §2. A lawful trail calls off once. -/

/-- The order is called off, as far as the trail has been read. -/
def calledOff (v : TrailView) : Bool := v.status.any isReversed

/-- What an event that was read did to the order. -/
inductive Read (v v' : TrailView) (e : OrderEvent) : Prop where
  | began {st : OrderStatus} (hv : v.status = none) (hst : v'.status = some st)
      (hlive : isReversed st = false) (hoff : callsOff e = false)
  | moved {st st' : OrderStatus} {reason : Option String} (hv : v.status = some st)
      (hv' : v'.status = some st') (hcan : canTransition st st' = true)
      (hkind : e.kind = .statusChanged st st' reason)
  | money (hstatus : v'.status = v.status) (hoff : callsOff e = false)

/-- Reading an event is one of the steps. -/
theorem readEvent_read {v v' : TrailView} {e : OrderEvent} (h : readEvent v e = some v') :
    Read v v' e := by
  obtain ⟨id, kind, actor⟩ := e
  unfold readEvent at h
  cases hv : v.status with
  | none =>
      rw [hv] at h
      cases kind with
      | created toStatus itemCount totalMinor =>
          dsimp only at h
          split at h
          next hst =>
            cases h
            refine .began hv rfl ?_ rfl
            rcases hst with rfl | rfl
            · rfl
            · rfl
          next => cases h
      -- before its creation an order has no other event
      | statusChanged fromStatus toStatus reason => cases h
      | paymentRecorded method amountMinor => cases h
      | refundRecorded method amountMinor reason => cases h
  | some st =>
      rw [hv] at h
      cases kind with
      | created toStatus itemCount totalMinor => cases h
      | statusChanged fromStatus toStatus reason =>
          dsimp only at h
          split at h
          next hcan =>
            cases h
            obtain ⟨rfl, hcan⟩ := hcan
            exact .moved hv rfl hcan rfl
          next => cases h
      | paymentRecorded method amountMinor =>
          dsimp only at h
          split at h
          next =>
            cases h
            exact .money hv.symm rfl
          next => cases h
      | refundRecorded method amountMinor reason =>
          dsimp only at h
          split at h
          next =>
            cases h
            exact .money hv.symm rfl
          next => cases h

/-- An event calls its order off when it moves it to a reversed status. -/
theorem callsOff_moved {e : OrderEvent} {st st' : OrderStatus} {reason : Option String}
    (h : e.kind = .statusChanged st st' reason) : callsOff e = isReversed st' := by
  unfold callsOff
  rw [h]

/-- After a call-off nothing moves the order. -/
theorem callOffs_of_off : ∀ (events : List OrderEvent) (v v' : TrailView),
    System.replay readEvent events v = some v' → calledOff v = true →
    callOffs events = [] ∧ v'.status = v.status
  | [], v, v', h, _ => by
      cases h
      exact ⟨rfl, rfl⟩
  | e :: events, v, v', h, hoff => by
      obtain ⟨u, hu, hrest⟩ := Option.bind_eq_some_iff.mp h
      have hread : callsOff e = false ∧ u.status = v.status := by
        cases readEvent_read hu with
        | began hv hst hlive hcall =>
            rw [calledOff, hv] at hoff
            cases hoff
        -- a called off order moves no further
        | moved hv hv' hcan hkind =>
            rw [calledOff, hv] at hoff
            rw [canTransition_of_reversed hoff] at hcan
            cases hcan
        | money hstatus hcall => exact ⟨hcall, hstatus⟩
      have huoff : calledOff u = true := by
        unfold calledOff
        rw [hread.2]
        exact hoff
      obtain ⟨hnone, hstatus⟩ := callOffs_of_off events u v' hrest huoff
      refine ⟨?_, hstatus.trans hread.2⟩
      show List.filter callsOff (e :: events) = []
      rw [List.filter_cons_of_neg (by simp [hread.1])]
      exact hnone

/-- **A lawful trail calls its order off once at most**, and exactly when the order
ends that way. -/
theorem callOffs_of_replay : ∀ (events : List OrderEvent) (v v' : TrailView),
    System.replay readEvent events v = some v' → calledOff v = false →
    (calledOff v' = false ∧ callOffs events = [])
      ∨ ∃ e fromStatus st reason, callOffs events = [e]
        ∧ e.kind = .statusChanged fromStatus st reason ∧ v'.status = some st
        ∧ isReversed st = true
  | [], v, v', h, hoff => by
      cases h
      exact .inl ⟨hoff, rfl⟩
  | e :: events, v, v', h, hoff => by
      obtain ⟨u, hu, hrest⟩ := Option.bind_eq_some_iff.mp h
      have hskip : callsOff e = false → callOffs (e :: events) = callOffs events :=
        fun hcall => List.filter_cons_of_neg (by simp [hcall])
      cases readEvent_read hu with
      | began hv hst hlive hcall =>
          rw [hskip hcall]
          refine callOffs_of_replay events u v' hrest ?_
          unfold calledOff
          rw [hst]
          exact hlive
      | @moved st st' reason hv hv' hcan hkind =>
          have hcall := callsOff_moved hkind
          cases hrev : isReversed st' with
          | false =>
              rw [hskip (hcall.trans hrev)]
              refine callOffs_of_replay events u v' hrest ?_
              unfold calledOff
              rw [hv']
              exact hrev
          | true =>
              -- this is the call-off; what follows moves nothing
              have huoff : calledOff u = true := by
                unfold calledOff
                rw [hv']
                exact hrev
              obtain ⟨hnone, hstatus⟩ := callOffs_of_off events u v' hrest huoff
              refine .inr ⟨e, st, st', reason, ?_, hkind, hstatus.trans hv', hrev⟩
              show List.filter callsOff (e :: events) = [e]
              rw [List.filter_cons_of_pos (hcall.trans hrev)]
              exact congrArg _ hnone
      | money hstatus hcall =>
          rw [hskip hcall]
          refine callOffs_of_replay events u v' hrest ?_
          unfold calledOff
          rw [hstatus]
          exact hoff

/-! ## §3. The report in a reachable state. -/

/-- What the trail of an order says of its end. -/
theorem callOffs_of_order {db : Db} (hs : TrailInv db) {o : Order} (ho : o ∈ db.orders) :
    (isReversed o.status = false ∧ callOffs (timelineOf db o.id) = [])
      ∨ isReversed o.status = true ∧ ∃ e fromStatus reason,
        callOffs (timelineOf db o.id) = [e]
          ∧ e.kind = .statusChanged fromStatus o.status reason := by
  obtain ⟨v, hv, htells⟩ := hs.told o ho
  have hstatus := htells.status
  rcases callOffs_of_replay _ _ _ hv rfl with ⟨hlive, hnone⟩ |
    ⟨e, fromStatus, st, reason, hone, hkind, hst, hrev⟩
  · refine .inl ⟨?_, hnone⟩
    unfold calledOff at hlive
    rw [hstatus] at hlive
    exact hlive
  -- the trail reads the status the row has
  · rw [hstatus] at hst
    cases hst
    exact .inr ⟨hrev, e, fromStatus, reason, hone, hkind⟩

/-- All orders of the window. -/
def createdBetween (db : Db) (w : Window) : List Order :=
  db.orders.filter fun o => decide (w.start ≤ o.createdAt ∧ o.createdAt ≤ w.finish)

/-- The orders of a window: those that count, and those that were called off. -/
theorem countedBetween_reversedBetween (db : Db) (w : Window) :
    (countedBetween db w.start w.finish ++ reversedBetween db w).Perm (createdBetween db w) := by
  have hsplit := List.filter_append_perm (fun o : Order => countable o.status)
    (createdBetween db w)
  unfold createdBetween at hsplit ⊢
  rw [List.filter_filter, List.filter_filter] at hsplit
  have hreversed : reversedBetween db w = db.orders.filter fun o => !countable o.status
      && decide (w.start ≤ o.createdAt ∧ o.createdAt ≤ w.finish) := by
    refine List.filter_congr fun o _ => ?_
    unfold countable isReversed reversingStatuses
    rw [Bool.not_not]
  rw [hreversed]
  exact hsplit

/-- **The voids report accounts for every sale that was called off.**  In every reachable
state each row's order has exactly one reversing event, from which the row has its actor
and its reason, and it brought the order to the status shown; and the window's orders
are those of the sales report and those of the rows, in number and in money. -/
theorem voids_report {s : Server} (h : serial.Reachable s) {fromDay toDay : Option ℤ}
    {rep : VoidsReport} (hrep : voids s.db fromDay toDay = .ok rep) :
    (∀ row ∈ rep.rows, ∃ o ∈ s.db.orders, o.id = row.id ∧ isReversed row.status = true
        ∧ ∃ e fromStatus, callOffs (timelineOf s.db o.id) = [e]
          ∧ e.kind = .statusChanged fromStatus row.status row.reason
          ∧ row.actorUserId = some e.actorUserId)
      ∧ rep.count + (overviewBetween s.db rep.window).summary.orders
          = (createdBetween s.db rep.window).length
      ∧ rep.totalMinor + (overviewBetween s.db rep.window).summary.revenueMinor
          = ((createdBetween s.db rep.window).map (·.totalMinor)).sum := by
  obtain ⟨w, -, hrep⟩ := bind_ok.mp hrep
  cases pure_ok.mp hrep
  have hinv := serial_trailInv h
  have hperm := countedBetween_reversedBetween s.db w
  have hsorted := List.perm_insertionSort
    (fun a b : Order => b.createdAt ≤ a.createdAt) (reversedBetween s.db w)
  refine ⟨?_, ?_, ?_⟩
  · intro row hrow
    obtain ⟨o, ho, rfl⟩ := List.mem_map.mp hrow
    obtain ⟨hmem, hcond⟩ := List.mem_filter.mp (hsorted.mem_iff.mp ho)
    have hrev : isReversed o.status = true := (Bool.and_eq_true_iff.mp hcond).1
    refine ⟨o, hmem, rfl, hrev, ?_⟩
    rcases callOffs_of_order hinv hmem with ⟨hlive, -⟩ | ⟨-, e, fromStatus, reason, hone, hkind⟩
    · rw [hrev] at hlive
      cases hlive
    · refine ⟨e, fromStatus, hone, ?_, ?_⟩
      · rw [hkind]
        unfold voidRow
        rw [hone]
        show _ = OrderEventKind.statusChanged fromStatus o.status (reasonOf e)
        unfold reasonOf
        rw [hkind]
      · unfold voidRow
        rw [hone]
        rfl
  -- the orders of the window are the counted ones and the called off ones
  · have hlen := hperm.length_eq
    have hrows : (voidRows s.db w).length = (reversedBetween s.db w).length := by
      unfold voidRows
      rw [List.length_map, hsorted.length_eq]
    rw [List.length_append] at hlen
    show ((voidRows s.db w).length : ℤ) + ((countedBetween s.db w.start w.finish).length : ℤ)
      = ((createdBetween s.db w).length : ℤ)
    omega
  · have hsum := (hperm.map (·.totalMinor)).sum_eq
    rw [List.map_append, List.sum_append] at hsum
    have hrows : ((voidRows s.db w).map (·.totalMinor)).sum
        = ((reversedBetween s.db w).map (·.totalMinor)).sum := by
      unfold voidRows
      rw [List.map_map]
      exact (hsorted.map _).sum_eq
    show ((voidRows s.db w).map (·.totalMinor)).sum
      + ((countedBetween s.db w.start w.finish).map (·.totalMinor)).sum = _
    rw [hrows, ← hsum, add_comm]

/-- The lassi that was voided, in the report of the first day. -/
theorem voids_report_lassi :
    ∃ rep, voids (after refundedLassi openBar).db (some 0) (some 0) = .ok rep
      ∧ rep.count = 1 ∧ ∀ row ∈ rep.rows, isReversed row.status = true := by
  refine ⟨_, rfl, rfl, ?_⟩
  intro row hrow
  have hreach : serial.Reachable (after refundedLassi openBar) :=
    after_reachable openBar_opening rfl
  have hrep : voids (after refundedLassi openBar).db (some 0) (some 0) = .ok _ := rfl
  obtain ⟨o, -, -, hrev, -⟩ := (voids_report hreach hrep).1 row hrow
  exact hrev

end OraOS.Reports
