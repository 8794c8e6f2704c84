/-
  OraOS.Cash.Drawer — `CashService`: the cash drawer and its settlement.

  A session opens with a float and closes with a count.  What is expected in between is
  derived from the rows of its window, and a snapshot of it is kept at the close.

    * `settlement`        — the money picture of a window;
    * `withReport`        — live while the session is open, over the snapshot's window after;
    * `closeSession`      — the close, `recordCashMovement` the pay-ins and pay-outs.
-/
import OraOS.Api.Tables
import OraOS.Lib.Outcome
import OraOS.Lib.Tally

namespace OraOS.Cash

open OraOS.Api
open OraOS.Lib

/-! ## §1. The tables. -/

/-- `CashSessionStatus` of the schema. -/
inductive CashSessionStatus where
  | open
  | closed
  deriving DecidableEq, Repr

/-- `CashMovementType` of the schema. -/
inductive CashMovementType where
  | payIn
  | payOut
  deriving DecidableEq, Repr

/-- Pay-ins and pay-outs: magnitudes, the sign comes from the type. -/
structure CashMovement where
  sessionId : Uuid
  type : CashMovementType
  amountMinor : ℤ
  reason : String
  actorUserId : Option Uuid
  createdAt : Instant
  /-- `cash_movements_amount_positive` -/
  amount_pos : 0 < amountMinor

/-- A row of `cash_sessions`. -/
structure CashSession where
  id : Uuid
  status : CashSessionStatus
  branchId : Uuid
  openingFloatMinor : ℤ
  openedByUserId : Uuid
  openedAt : Instant
  closedByUserId : Option Uuid
  closedAt : Option Instant
  closingCountedMinor : Option ℤ
  expectedCashMinor : Option ℤ
  varianceMinor : Option ℤ
  notes : Option String
  /-- `cash_sessions_float_non_negative` -/
  float_nonneg : 0 ≤ openingFloatMinor

/-- The tables the drawer is settled from, and the clock. -/
structure CashBook where
  payments : List Payment
  refunds : List Refund
  movements : List CashMovement
  sessions : List CashSession
  now : Instant

/-- `db.cashSession.findFirst({ where: { id } })`. -/
def CashBook.findSession (book : CashBook) (id : Uuid) : Option CashSession :=
  book.sessions.find? fun s => decide (s.id = id)

/-! ## §2. The settlement. -/

/-- `createdAt: { gte: openedAt, lte: until }`. -/
def inWindow (openedAt until_ createdAt : Instant) : Bool :=
  decide (openedAt ≤ createdAt) && decide (createdAt ≤ until_)

/-- The captured payments of a method in the window. -/
def takenBy (openedAt until_ : Instant) (method : PaymentMethod) (p : Payment) : Bool :=
  decide (p.method = method) && (decide (p.status = .captured) && inWindow openedAt until_ p.createdAt)

/-- A refund by the method, in the window. -/
def returnedBy (openedAt until_ : Instant) (method : PaymentMethod) (r : Refund) : Bool :=
  decide (r.method = method) && inWindow openedAt until_ r.createdAt

/-- A cash movement of the kind, in the session. -/
def movedBy (sessionId : Uuid) (type : CashMovementType) (m : CashMovement) : Bool :=
  decide (m.type = type) && decide (m.sessionId = sessionId)

/-- `Object.values(PaymentMethod)`. -/
def paymentMethods : List PaymentMethod := [.cash, .upi, .card, .wallet, .other]

/-- What a report says of a session. -/
structure Settlement where
  openingFloatMinor : ℤ
  payInMinor : ℤ
  payOutMinor : ℤ
  cashSalesMinor : ℤ
  cashRefundsMinor : ℤ
  expectedCashMinor : ℤ
  grossSalesMinor : ℤ
  netSalesMinor : ℤ
  refundsMinor : ℤ
  payByMethod : List (PaymentMethod × ℤ × ℕ)
  refundByMethod : List (PaymentMethod × ℤ)
  countedCashMinor : Option ℤ
  varianceMinor : Option ℤ

/-- The money picture, from what its three queries have returned. -/
def settle (s : CashSession) (until_ : Instant) (payments : List Payment) (refunds : List Refund)
    (movements : List CashMovement) : Settlement :=
  let paid (method : PaymentMethod) :=
    sumWhere (takenBy s.openedAt until_ method) (·.amountMinor) payments
  let refunded (method : PaymentMethod) :=
    sumWhere (returnedBy s.openedAt until_ method) (·.amountMinor) refunds
  let moved (type : CashMovementType) :=
    sumWhere (movedBy s.id type) (·.amountMinor) movements
  -- every method has a line of sales; of refunds, only those with an amount
  let payByMethod := paymentMethods.map fun method =>
    (method, paid method, payments.countP (takenBy s.openedAt until_ method))
  let refundByMethod := (paymentMethods.map fun method => (method, refunded method)).filter
    fun r => decide (0 < r.2)
  let expectedCash :=
    s.openingFloatMinor + moved .payIn - moved .payOut + paid .cash - refunded .cash
  let grossSales := (payByMethod.map (·.2.1)).sum
  let refunds := (refundByMethod.map (·.2)).sum
  { openingFloatMinor := s.openingFloatMinor
    payInMinor := moved .payIn
    payOutMinor := moved .payOut
    cashSalesMinor := paid .cash
    cashRefundsMinor := refunded .cash
    expectedCashMinor := expectedCash
    grossSalesMinor := grossSales
    netSalesMinor := grossSales - refunds
    refundsMinor := refunds
    payByMethod
    refundByMethod
    countedCashMinor := s.closingCountedMinor
    -- an open session has no variance yet
    varianceMinor :=
      if s.status = .closed then some (s.closingCountedMinor.getD 0 - expectedCash) else none }

/-- `CashService.settlement`, on the tables as they are. -/
def settlement (book : CashBook) (s : CashSession) (until_ : Instant) : Settlement :=
  settle s until_ book.payments book.refunds book.movements

/-- The report beside a session: until now, or over the window it was closed with. -/
def withReport (book : CashBook) (s : CashSession) : Settlement :=
  settlement book s (s.closedAt.getD book.now)

/-! ## §3. Pay-ins, pay-outs and the close. -/

/-- `MAX_CASH`: a ceiling that catches a fat-fingered float. -/
def maxCash : ℤ := 100000000

/-- `CashMovementDto`, with its bounds. -/
structure CashMovementDto where
  type : CashMovementType
  amountMinor : ℤ
  reason : String
  amount_ok : 1 ≤ amountMinor ∧ amountMinor ≤ maxCash

/-- `CloseSessionDto`, with its bounds. -/
structure CloseSessionDto where
  closingCountedMinor : ℤ
  notes : Option String
  counted_ok : 0 ≤ closingCountedMinor ∧ closingCountedMinor ≤ maxCash

/-- The session, if it is open. -/
def findOpen (book : CashBook) (sessionId : Uuid) (message : String) :
    Except ApiError CashSession := do
  let s ← found (book.findSession sessionId) (.notFound "Session not found")
  require (s.status = .open) (.conflict message)
  pure s

/-- A call of `recordMovement`. -/
structure MovementCall where
  ctx : TenantContext
  sessionId : Uuid
  dto : CashMovementDto

/-- A call of `close`. -/
structure CloseCall where
  ctx : TenantContext
  sessionId : Uuid
  dto : CloseSessionDto

/-- The session a movement is for. -/
def MovementCall.findOpen (r : MovementCall) (book : CashBook) : Except ApiError CashSession :=
  Cash.findOpen book r.sessionId "The till session is closed"

/-- The session that is to be closed. -/
def CloseCall.findOpen (r : CloseCall) (book : CashBook) : Except ApiError CashSession :=
  Cash.findOpen book r.sessionId "The till session is already closed"

/-- The row of a pay-in or a pay-out. -/
def MovementCall.row (r : MovementCall) (createdAt : Instant) : CashMovement :=
  { sessionId := r.sessionId, type := r.dto.type, amountMinor := r.dto.amountMinor,
    reason := r.dto.reason, actorUserId := some r.ctx.userId, createdAt,
    amount_pos := by have := r.dto.amount_ok.1; omega }

/-- The book with one more movement. -/
def CashBook.withMovement (book : CashBook) (m : CashMovement) : CashBook :=
  { book with movements := book.movements ++ [m] }

/-- `CashService.recordMovement`. -/
def recordCashMovement (book : CashBook) (r : MovementCall) : Except ApiError CashBook := do
  let _ ← r.findOpen book
  pure (book.withMovement (r.row book.now))

/-- The columns a close writes. -/
def CashSession.close (s : CashSession) (r : CloseCall) (notes : Option String)
    (closedAt : Instant) (expected : ℤ) : CashSession :=
  { s with
    status := .closed
    closedByUserId := some r.ctx.userId
    closedAt := some closedAt
    closingCountedMinor := some r.dto.closingCountedMinor
    expectedCashMinor := some expected
    varianceMinor := some (r.dto.closingCountedMinor - expected)
    notes := r.dto.notes.orElse fun _ => notes }

/-- `db.cashSession.update({ where: { id }, data })`. -/
def CashBook.closed (book : CashBook) (r : CloseCall) (notes : Option String)
    (closedAt : Instant) (expected : ℤ) : CashBook :=
  { book with
    sessions := book.sessions.map fun s =>
      if s.id = r.sessionId then s.close r notes closedAt expected else s }

/-- The INTEGER columns of the snapshot. -/
def fitsSnapshot (r : CloseCall) (expected : ℤ) : Except ApiError Unit :=
  require (fitsInt4 expected = true ∧ fitsInt4 (r.dto.closingCountedMinor - expected) = true)
    .outOfRange

/-- `CashService.close`, when the clock stands still meanwhile. -/
def closeSession (book : CashBook) (r : CloseCall) : Except ApiError CashBook := do
  let s ← r.findOpen book
  let expected := (settlement book s book.now).expectedCashMinor
  fitsSnapshot r expected
  pure (book.closed r s.notes book.now expected)

end OraOS.Cash
