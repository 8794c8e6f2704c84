/-
  OraOS.Orders.Status — the order lifecycle as a whitelist (`order-status.ts`)
  and what the sales figures count.
-/
import OraOS.Api.Tables

namespace OraOS.Orders

open OraOS.Api

/-- `TRANSITIONS`: anything not listed is refused. -/
def transitions : OrderStatus → List OrderStatus
  | .draft => [.placed, .cancelled]
  | .placed => [.preparing, .completed, .cancelled, .voided]
  | .preparing => [.ready, .cancelled, .voided]
  | .ready => [.completed, .cancelled, .voided]
  | .completed => []
  | .cancelled => []
  | .voided => []

/-- `canTransition`. -/
def canTransition (fromStatus toStatus : OrderStatus) : Bool :=
  (transitions fromStatus).contains toStatus

/-- `VOID_STATUSES`: the permission gate. -/
def voidStatuses : List OrderStatus := [.voided]

/-- `REVERSING_STATUSES`: entering one returns the order's stock. -/
def reversingStatuses : List OrderStatus := [.voided, .cancelled]

/-- The dead ends of the lifecycle. -/
def isTerminal (s : OrderStatus) : Bool := (transitions s).isEmpty

/-- A sale that was called off: voided or cancelled. -/
def isReversed (s : OrderStatus) : Bool := reversingStatuses.contains s

/-- Three statuses are final. -/
theorem isTerminal_iff (s : OrderStatus) :
    isTerminal s = true ↔ s = .completed ∨ s = .cancelled ∨ s = .voided := by
  cases s <;> decide

/-- Nothing leaves a terminal status. -/
theorem canTransition_of_terminal {s t : OrderStatus} (h : isTerminal s = true) :
    canTransition s t = false := by
  unfold isTerminal at h
  unfold canTransition
  rw [List.isEmpty_iff.mp h]
  rfl

/-- DRAFT is where an order starts, never where it goes. -/
theorem canTransition_to_draft (s : OrderStatus) : canTransition s .draft = false := by
  cases s <;> rfl

/-- Two of them take a sale back. -/
theorem isReversed_iff {s : OrderStatus} :
    isReversed s = true ↔ s = .voided ∨ s = .cancelled := by
  cases s <;> decide

/-- A reversed sale stays where it is. -/
theorem canTransition_of_reversed {s t : OrderStatus}
    (h : isReversed s = true) : canTransition s t = false := by
  refine canTransition_of_terminal ((isTerminal_iff s).mpr ?_)
  rcases isReversed_iff.mp h with rfl | rfl
  · exact .inr (.inr rfl)
  · exact .inr (.inl rfl)

/-- `SCREAMING_CASE`, as the source's messages print a status. -/
def statusName : OrderStatus → String
  | .draft => "DRAFT"
  | .placed => "PLACED"
  | .preparing => "PREPARING"
  | .ready => "READY"
  | .completed => "COMPLETED"
  | .cancelled => "CANCELLED"
  | .voided => "VOIDED"

/-- `COUNTABLE` of `AnalyticsService` and `ReportsService`: the status filter
every sales figure goes through. -/
def countable (s : OrderStatus) : Bool :=
  !([.voided, .cancelled] : List OrderStatus).contains s

end OraOS.Orders
