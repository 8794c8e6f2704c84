/-
  OraOS.Reports.Settlement — `ReportsService.settlement`: money in by method, less refunds.

  Payments and refunds are grouped by method, and the rows are those of the payments, each
  with the refunds of its method.

    * `settlement_complete_iff` — the report loses no money exactly when every method that
                                  was refunded was also paid with.
-/
import OraOS.Reports.Sales

namespace OraOS.Reports

open OraOS.Api
open OraOS.Lib
open OraOS.Orders

/-! ## §1. The report. -/

/-- One method of the settlement. -/
structure SettlementRow where
  method : PaymentMethod
  capturedMinor : ℤ
  refundedMinor : ℤ
  netMinor : ℤ
  count : ℤ
  deriving DecidableEq, Repr

/-- The settlement of a window. -/
structure SettlementReport where
  window : Window
  rows : List SettlementRow
  totalCapturedMinor : ℤ
  totalRefundedMinor : ℤ
  totalNetMinor : ℤ

/-- Whether an instant is in the window, both ends included. -/
def Window.has (w : Window) (t : Instant) : Bool := decide (w.start ≤ t ∧ t ≤ w.finish)

/-- The captured payments of the window. -/
def capturedIn (db : Db) (w : Window) : List Payment :=
  db.payments.filter fun p => decide (p.status = .captured) && w.has p.createdAt

/-- The refunds of a window. -/
def refundsIn (db : Db) (w : Window) : List Refund := db.refunds.filter fun r => w.has r.createdAt

/-- What was taken in. -/
def capturedSum (payments : List Payment) : ℤ := (payments.map (·.amountMinor)).sum

/-- What was given back. -/
def refundedSum (refunds : List Refund) : ℤ := (refunds.map (·.amountMinor)).sum

/-- What was given back, by method. -/
def refundByMethod (refunds : List Refund) : Tally PaymentMethod :=
  (groupBy (fun r => r.method) refunds).map fun g => (g.1, refundedSum g.2)

/-- A row, from the payments of a method. -/
def settlementRow (refunds : Tally PaymentMethod) (method : PaymentMethod)
    (payments : List Payment) : SettlementRow where
  method := method
  capturedMinor := capturedSum payments
  refundedMinor := refunds.get method
  netMinor := capturedSum payments - refunds.get method
  count := payments.length

/-- A row for each method of the payments. -/
def settlementRows (payments : List Payment) (refunds : List Refund) : List SettlementRow :=
  grouped (fun p => p.method) (settlementRow (refundByMethod refunds))
    (fun a b => b.netMinor ≤ a.netMinor) payments

/-- The settlement report. -/
def settlement (db : Db) (fromDay toDay : Option ℤ) : Except ApiError SettlementReport := do
  let w ← window fromDay toDay
  let rows := settlementRows (capturedIn db w) (refundsIn db w)
  pure ⟨w, rows, (rows.map (·.capturedMinor)).sum, (rows.map (·.refundedMinor)).sum,
    (rows.map (·.netMinor)).sum⟩

/-! ## §2. What it has to add up to. -/

/-- No money is lost: the totals are those of all payments and all refunds of the window, and
each method that was paid or refunded with has its row. -/
structure Settles (db : Db) (report : SettlementReport) : Prop where
  captured : report.totalCapturedMinor = capturedSum (capturedIn db report.window)
  refunded : report.totalRefundedMinor = refundedSum (refundsIn db report.window)
  net : report.totalNetMinor = capturedSum (capturedIn db report.window)
    - refundedSum (refundsIn db report.window)
  rows : ∀ method, (∃ p ∈ capturedIn db report.window, p.method = method)
      ∨ (∃ r ∈ refundsIn db report.window, r.method = method) →
    (report.rows.map (·.method)).count method = 1

section Rows

variable (payments : List Payment) (refunds : List Refund)

/-- The rows add up to what was taken in. -/
theorem settlementRows_captured :
    ((settlementRows payments refunds).map (·.capturedMinor)).sum = capturedSum payments := by
  unfold settlementRows
  refine sum_grouped (f := fun p : Payment => p.amountMinor) ?_ payments
  exact fun _ _ => rfl

theorem settlementRows_net :
    ((settlementRows payments refunds).map (·.netMinor)).sum
      = ((settlementRows payments refunds).map (·.capturedMinor)).sum
        - ((settlementRows payments refunds).map (·.refundedMinor)).sum := by
  have hnet : ∀ row ∈ settlementRows payments refunds,
      row.netMinor = row.capturedMinor - row.refundedMinor := by
    intro row hrow
    obtain ⟨g, -, rfl⟩ := List.mem_map.mp ((List.mem_insertionSort _).mp hrow)
    rfl
  rw [List.map_congr_left hnet]
  -- row by row, the net is the difference
  generalize settlementRows payments refunds = rows
  induction rows with
  | nil => rfl
  | cons row rows ih =>
      simp only [List.map_cons, List.sum_cons, ih]
      ring

/-- The rows before they are sorted. -/
theorem settlementRows_perm : (settlementRows payments refunds).Perm
    ((groupBy (fun p : Payment => p.method) payments).map fun g =>
      settlementRow (refundByMethod refunds) g.1 g.2) :=
  List.perm_insertionSort _ _

/-- The rows are those of the payments, each method once. -/
theorem settlementRows_methods :
    ((settlementRows payments refunds).map (·.method)).Perm
      (distinct (payments.map fun p => p.method)) := by
  have hperm := (settlementRows_perm payments refunds).map (·.method)
  rw [List.map_map] at hperm
  rw [← groupBy_keys]
  exact hperm

/-- And each has the refunds of its method. -/
theorem settlementRows_refunded :
    ((settlementRows payments refunds).map (·.refundedMinor)).sum
      = ((distinct (payments.map fun p => p.method)).map (refundByMethod refunds).get).sum := by
  have hperm := (settlementRows_perm payments refunds).map (·.refundedMinor)
  refine hperm.sum_eq.trans ?_
  rw [← groupBy_keys, List.map_map, List.map_map]
  rfl

/-- What was given back was given back by some method. -/
theorem refundByMethod_keys :
    (refundByMethod refunds).keys = distinct (refunds.map fun r => r.method) := by
  rw [← groupBy_keys]
  exact List.map_map

/-- With every refunded method among those paid with, the rows have all refunds. -/
theorem settlementRows_refunded_all
    (hcover : ∀ r ∈ refunds, ∃ p ∈ payments, p.method = r.method) :
    ((settlementRows payments refunds).map (·.refundedMinor)).sum = refundedSum refunds := by
  have hkeys := refundByMethod_keys refunds
  have hnodup : (refundByMethod refunds).keys.Nodup := hkeys ▸ distinct_nodup _
  rw [settlementRows_refunded, Tally.sum_get hnodup (distinct_nodup _) ?_]
  · unfold refundByMethod
    rw [List.map_map]
    exact sum_groupBy (fun r => r.method) (fun r => r.amountMinor) refunds
  -- a method with a refund has a row, since it took a payment
  · intro method hmethod
    rw [hkeys, mem_distinct] at hmethod
    obtain ⟨r, hr, rfl⟩ := List.mem_map.mp hmethod
    obtain ⟨p, hp, hsame⟩ := hcover r hr
    exact mem_distinct.mpr (List.mem_map.mpr ⟨p, hp, hsame⟩)

end Rows

/-- **When the settlement report loses no money**: when every method of a refund of the window
has a payment in it. -/
theorem settlement_complete_iff {db : Db} {fromDay toDay : Option ℤ} {report : SettlementReport}
    (h : settlement db fromDay toDay = .ok report) :
    Settles db report ↔ ∀ r ∈ refundsIn db report.window,
      ∃ p ∈ capturedIn db report.window, p.method = r.method := by
  obtain ⟨w, -, h⟩ := bind_ok.mp h
  cases pure_ok.mp h
  set payments := capturedIn db w
  set refunds := refundsIn db w
  have hmethods := settlementRows_methods payments refunds
  -- a method has a row exactly if it took a payment, and then one
  have hcount : ∀ method, (∃ p ∈ payments, p.method = method) ↔
      ((settlementRows payments refunds).map (·.method)).count method = 1 := by
    intro method
    have hmem := mem_distinct.trans (List.mem_map (f := fun p : Payment => p.method) (l := payments)
      (b := method))
    rw [hmethods.count_eq, (distinct_nodup _).count, ← hmem]
    constructor
    · intro hin
      rw [if_pos hin]
    · intro hone
      by_contra hout
      rw [if_neg hout] at hone
      cases hone
  constructor
  · intro hsettles r hr
    exact (hcount r.method).mpr (hsettles.rows r.method (.inr ⟨r, hr, rfl⟩))
  · intro hcover
    have hrefunded := settlementRows_refunded_all payments refunds hcover
    refine ⟨settlementRows_captured payments refunds, hrefunded, ?_, ?_⟩
    · show ((settlementRows payments refunds).map (·.netMinor)).sum = _
      rw [settlementRows_net, settlementRows_captured, hrefunded]
    · rintro method (hpaid | ⟨r, hr, rfl⟩)
      · exact (hcount method).mp hpaid
      · exact (hcount r.method).mp (hcover r hr)

theorem ten_rupees : (0 : ℤ) < 1000 := by decide

/-- ₹10 by UPI and ₹10 in cash, of which all the cash was given back. -/
def paidBack : Db :=
  { Db.empty with
    payments := [⟨1, .upi, .captured, 1000, none, none, 0, ten_rupees⟩,
      ⟨2, .cash, .captured, 1000, none, none, 0, ten_rupees⟩]
    refunds := [⟨2, .cash, 1000, "Cold", none, none, 1, ten_rupees⟩] }

/-- Paid and given back by one method, and all of it is in the report. -/
theorem settlement_complete_iff_paidBack :
    ∃ report, settlement paidBack (some 0) (some 0) = .ok report
      ∧ report.totalRefundedMinor = 1000 ∧ Settles paidBack report := by
  have hok : settlement paidBack (some 0) (some 0) = .ok _ := rfl
  exact ⟨_, hok, by decide, (settlement_complete_iff hok).mpr (by decide)⟩

/-- ₹10 by UPI, given back in cash. -/
def givenBackInCash : Db :=
  { Db.empty with
    payments := [⟨1, .upi, .captured, 1000, none, none, 0, ten_rupees⟩]
    refunds := [⟨1, .cash, 1000, "Cold", none, none, 1, ten_rupees⟩] }

/-- The report has no refund at all. -/
theorem settlement_loses_refund :
    ∃ report, settlement givenBackInCash (some 0) (some 0) = .ok report
      ∧ report.totalRefundedMinor = 0
      ∧ refundedSum (refundsIn givenBackInCash report.window) = 1000
      ∧ ¬ Settles givenBackInCash report :=
  ⟨_, rfl, by decide, by decide, fun h => by
    have hrefunded := h.refunded
    revert hrefunded
    decide⟩

end OraOS.Reports
