/-
  OraOS.Orders.Paging — `OrdersService.list`, page after page.

  The newest orders come first, from a cursor on: the id of the last order already shown.
  Ids are time-ordered, so what is placed between two requests is above every cursor.

    * `listOrders_ids`  — a page is a run of the ids below the cursor;
    * `paging_lossless` — following the cursors yields every order once, in order.
-/
import OraOS.Api.Tables
import OraOS.Lib.Paging

namespace OraOS.Orders

open OraOS.Api
open OraOS.Lib

/-! ## §1. `OrdersService.list`. -/

/-- The query of the order list. -/
structure ListOrdersQuery where
  limit : Option ℕ
  status : Option OrderStatus
  cursor : Option Uuid
  deriving DecidableEq, Repr

/-- What the kitchen board shows of an item. -/
structure OrderRowItem where
  nameSnapshot : String
  quantity : ℤ
  notes : Option String
  modifiers : Option (List ModifierSnapshotEntry)
  comboItems : Option (List ComboItemSnapshot)
  deriving DecidableEq, Repr

/-- What is selected of an order. -/
structure OrderRow where
  id : Uuid
  orderNumber : ℤ
  status : OrderStatus
  orderType : Api.OrderType
  totalMinor : ℤ
  createdAt : Instant
  placedAt : Option Instant
  itemCount : ℕ
  notes : Option String
  customer : Option Customer
  payments : List (PaymentMethod × PaymentStatus)
  items : List OrderRowItem
  deriving DecidableEq, Repr

/-- The `select` of `list`. -/
def selectOrder (db : Db) (o : Order) : OrderRow where
  id := o.id
  orderNumber := o.orderNumber
  status := o.status
  orderType := o.orderType
  totalMinor := o.totalMinor
  createdAt := o.createdAt
  placedAt := o.placedAt
  itemCount := o.items.length
  notes := o.notes
  customer := db.customers.find? fun c => decide (some c.id = o.customerId)
  payments := (db.payments.filter fun p => decide (p.orderId = o.id)).map fun p =>
    (p.method, p.status)
  items := o.items.map fun i => ⟨i.nameSnapshot, i.quantity, i.notes, i.modifiers, i.comboItems⟩

/-- `list`. -/
def listOrders (db : Db) (opts : ListOrdersQuery) : List OrderRow :=
  let take := min (opts.limit.getD 50) 100
  let rows := db.orders.filter fun o =>
    decide (∀ s ∈ opts.status, o.status = s) && decide (∀ c ∈ opts.cursor, o.id < c)
  ((rows.insertionSort fun a b => a.id ≥ b.id).take take).map (selectOrder db)

/-! ## §2. Following the cursors. -/

/-- The orders that the filter on the status leaves. -/
def idsOf (status : Option OrderStatus) (db : Db) : List Uuid :=
  (db.orders.filter fun o => decide (∀ s ∈ status, o.status = s)).map (·.id)

/-- **A page** is a run of the ids below the cursor. -/
theorem listOrders_ids (db : Db) (limit : Option ℕ) (status : Option OrderStatus)
    (cursor : Option Uuid) :
    (listOrders db ⟨limit, status, cursor⟩).map (·.id)
      = (keyset cursor (idsOf status db)).take (min (limit.getD 50) 100) := by
  have hbelow : ((db.orders.filter fun o => decide (∀ s ∈ status, o.status = s)).map (·.id)).filter
        (fun k => decide (∀ c ∈ cursor, k < c))
      = (db.orders.filter fun o => decide (∀ s ∈ status, o.status = s)
          && decide (∀ c ∈ cursor, o.id < c)).map (·.id) := by
    rw [List.filter_map, List.filter_filter]
    congr 1
    exact List.filter_congr fun o _ => Bool.and_comm _ _
  unfold listOrders keyset idsOf
  dsimp only
  rw [hbelow, List.map_map, List.map_take]
  congr 1
  -- sorted by id, the ids are sorted
  exact List.map_insertionSort _ _ (fun o : Order => o.id) _ fun a _ b _ => Iff.rfl

/-- Orders come in between two requests, with ids above all others; any table but theirs may
change. -/
def OrdersAdded (db db' : Db) : Prop :=
  ∃ new : List Order, db'.orders.Perm (db.orders ++ new)
    ∧ ∀ n ∈ new, ∀ o ∈ db.orders, o.id < n.id

/-- Orders are added above those that were listed. -/
theorem OrdersAdded.grows {db db' : Db} (h : OrdersAdded db db') (status : Option OrderStatus) :
    GrowsAbove (idsOf status db) (idsOf status db') := by
  obtain ⟨new, hperm, hnew⟩ := h
  refine ⟨(new.filter fun o => decide (∀ s ∈ status, o.status = s)).map (·.id), ?_, ?_⟩
  · unfold idsOf
    rw [← List.map_append, ← List.filter_append]
    exact (hperm.filter _).map _
  · intro n hn k hk
    obtain ⟨o', ho', rfl⟩ := List.mem_map.mp hn
    obtain ⟨o, ho, rfl⟩ := List.mem_map.mp hk
    exact hnew o' (List.mem_of_mem_filter ho') o (List.mem_of_mem_filter ho)

/-- The pages asked for one after another, the `k`th of the tables `dbs k`. -/
def followOrders (dbs : ℕ → Db) (limit : Option ℕ) (status : Option OrderStatus) (fuel : ℕ) :
    Option (List OrderRow) :=
  follow (fun k cursor => listOrders (dbs k) ⟨limit, status, cursor⟩) (·.id) fuel 0 none

/-- **Paging is lossless**: for every page size and whatever orders come in, following the
cursors until a page is empty yields every order that was there once, in descending order of
the ids; with a filter on the status, every order that has it. -/
theorem paging_lossless {dbs : ℕ → Db} (hids : ((dbs 0).orders.map (·.id)).Nodup)
    (hadded : ∀ k, OrdersAdded (dbs k) (dbs (k + 1))) {limit : Option ℕ} (hlimit : limit ≠ some 0)
    (status : Option OrderStatus) {fuel : ℕ} (hfuel : (dbs 0).orders.length < fuel) :
    ∃ rows, followOrders dbs limit status fuel = some rows
      ∧ (rows.map (·.id)).Pairwise (· > ·)
      ∧ ∀ id, id ∈ rows.map (·.id)
        ↔ ∃ o ∈ (dbs 0).orders, (∀ s ∈ status, o.status = s) ∧ o.id = id := by
  have hsize : 0 < min (limit.getD 50) 100 := by
    cases limit with
    | none => decide
    | some n =>
        have hn : n ≠ 0 := fun h => hlimit (congrArg some h)
        show 0 < min n 100
        omega
  have hnodup : (idsOf status (dbs 0)).Nodup :=
    hids.sublist (List.filter_sublist.map _)
  have hlength : (idsOf status (dbs 0)).length < fuel := by
    unfold idsOf
    rw [List.length_map]
    exact (List.length_filter_le _ _).trans_lt hfuel
  obtain ⟨rows, hrows, hstrict, hperm⟩ := follow_all hsize
    (fun k cursor => listOrders_ids (dbs k) limit status cursor) hnodup
    (fun k => (hadded k).grows status) hlength
  refine ⟨rows, hrows, hstrict, fun id => ?_⟩
  rw [hperm.mem_iff]
  unfold idsOf
  simp [and_assoc]

theorem nothing_owed : (0 : ℤ) ≤ 0 ∧ (0 : ℤ) ≤ 0 ∧ (0 : ℤ) ≤ 0 ∧ (0 : ℤ) ≤ 0 := by decide

theorem nothing_added : (0 : ℤ) = 0 - 0 + 0 := rfl

theorem nothing_off : (0 : ℤ) ≤ 0 := le_rfl

/-- An order that comes to nothing. -/
def emptyBill (id : Uuid) : Order where
  id := id
  branchId := 1
  customerId := none
  orderNumber := id
  status := .placed
  orderType := .takeaway
  subtotalMinor := 0
  discountMinor := 0
  taxMinor := 0
  totalMinor := 0
  notes := none
  idempotencyKey := none
  placedAt := some id
  createdAt := id
  items := []
  amounts_nonneg := nothing_owed
  total_adds_up := nothing_added
  discount_within := nothing_off

/-- Three bills, and a fourth after the first request. -/
def fourBills : ℕ → Db
  | 0 => { Db.empty with orders := [emptyBill 13, emptyBill 11, emptyBill 12] }
  | _ + 1 => { Db.empty with orders := [emptyBill 13, emptyBill 11, emptyBill 12, emptyBill 14] }

example : (followOrders fourBills (some 2) none 4).map (·.map (·.id)) = some [13, 12, 11] := by
  decide

/-- One order is added with each page, and no page loses or repeats one. -/
theorem paging_lossless_bills :
    ((fourBills 0).orders.map (·.id)).Nodup ∧ (∀ k, OrdersAdded (fourBills k) (fourBills (k + 1)))
      ∧ ∃ rows, followOrders fourBills (some 2) none 4 = some rows
        ∧ (rows.map (·.id)).Pairwise (· > ·) := by
  have hids : ((fourBills 0).orders.map (·.id)).Nodup := by decide
  have hadded : ∀ k, OrdersAdded (fourBills k) (fourBills (k + 1)) := by
    intro k
    cases k with
    | zero =>
        refine ⟨[emptyBill 14], .refl _, ?_⟩
        rw [List.forall_mem_singleton]
        decide
    | succ k =>
        refine ⟨[], ?_, List.forall_mem_nil _⟩
        rw [List.append_nil]
        rfl
  have hpages : ∃ rows, followOrders fourBills (some 2) none 4 = some rows
      ∧ (rows.map (·.id)).Pairwise (· > ·)
      ∧ ∀ id, id ∈ rows.map (·.id)
        ↔ ∃ o ∈ (fourBills 0).orders, (∀ s ∈ (none : Option OrderStatus), o.status = s)
          ∧ o.id = id :=
    paging_lossless hids hadded (by decide) none (by decide)
  obtain ⟨rows, hrows, hdescending, -⟩ := hpages
  exact ⟨hids, hadded, rows, hrows, hdescending⟩

end OraOS.Orders
