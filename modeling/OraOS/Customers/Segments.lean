/-
  OraOS.Customers.Segments — what the screens say of a customer.

  The customer list, a customer's profile and the marketing screens each query the orders
  for themselves: over a page of customers, over one of them, over all of them.

    * `customer_list_profile` — a row of the list says what the profile says;
    * `segments_agree`        — **the marketing screens and the profiles agree**: who is
                                in a segment, how many, and that everybody is in one;
    * `spending_adds_up`      — customers and walk-ins are the figures of the dashboard.
-/
import OraOS.Customers.Directory
import OraOS.Reports.Sales

namespace OraOS.Customers

open OraOS.Api
open OraOS.Lib
open OraOS.Inventory
open OraOS.Orders
open OraOS.Reports

/-! ## §1. Segments. -/

/-- `SegmentKey`: how the restaurant sees a guest. -/
inductive SegmentKey where
  | vip
  | regular
  | new
  | lapsed
  deriving DecidableEq, Repr

/-- `SEGMENT_KEYS` -/
def segmentKeys : List SegmentKey := [.vip, .regular, .new, .lapsed]

/-- The key as it is written in a request. -/
def SegmentKey.text : SegmentKey → String
  | .vip => "VIP"
  | .regular => "REGULAR"
  | .new => "NEW"
  | .lapsed => "LAPSED"

/-- What a segment is called, and its rule. -/
structure SegmentMeta where
  label : String
  rule : String
  deriving DecidableEq, Repr

/-- `SEGMENT_THRESHOLDS` -/
def vipMinVisits : ℤ := 5

/-- `VIP_MIN_SPENT_MINOR`. -/
def vipMinSpentMinor : ℤ := 500000

/-- `REGULAR_MIN_VISITS`. -/
def regularMinVisits : ℤ := 3

/-- `LAPSED_AFTER_DAYS`. -/
def lapsedAfterDays : ℤ := 30

/-- `SEGMENT_META` -/
def segmentMeta : SegmentKey → SegmentMeta
  | .vip => ⟨"VIP", toString vipMinVisits ++ "+ visits and " ++ toString (vipMinSpentMinor / 100)
      ++ "+ spent"⟩
  | .regular => ⟨"Regular", toString regularMinVisits ++ "+ visits"⟩
  | .new => ⟨"New", "Fewer visits, seen recently"⟩
  | .lapsed => ⟨"Lapsed", "No visit in " ++ toString lapsedAfterDays ++ " days"⟩

/-- Recency wins first: a lapsed VIP is to be won back. -/
def classifySegment (visits spentMinor : ℤ) (lastVisit : Option Instant) (now : Instant) :
    SegmentKey :=
  if lastVisit.any fun t => decide (t < now - lapsedAfterDays * dayLength) then .lapsed
  else if vipMinVisits ≤ visits ∧ vipMinSpentMinor ≤ spentMinor then .vip
  else if regularMinVisits ≤ visits then .regular
  else .new

/-! ## §2. The queries. -/

/-- The tables the screens read. -/
structure Crm where
  customers : List CustomerRow
  orders : List Order
  refunds : List Refund
  customers_pkey : (customers.map (·.id)).Nodup
  orders_customer_id_fkey : ∀ o ∈ orders, ∀ id ∈ o.customerId, id ∈ customers.map (·.id)

/-- A row of `order.groupBy(['customerId'])`. -/
structure CustomerGroup where
  customerId : Uuid
  count : ℤ
  totalMinor : ℤ
  lastVisit : Option Instant
  deriving DecidableEq, Repr

/-- What orders came to, discounts taken and tax added. -/
def spentIn (orders : List Order) : ℤ := (orders.map (·.totalMinor)).sum

/-- When the latest of the orders was placed; `none` for no orders. -/
def lastIn (orders : List Order) : Option Instant := (orders.map (·.createdAt)).max?

/-- The orders that count, with the customer they are for. -/
def purchases (orders : List Order) : List (Uuid × Order) :=
  (orders.filter fun o => countable o.status).filterMap fun o => o.customerId.map fun id => (id, o)

/-- One row of the `groupBy` over the orders of customers. -/
def groupRow (g : Uuid × List (Uuid × Order)) : CustomerGroup :=
  let orders := g.2.map Prod.snd
  ⟨g.1, orders.length, spentIn orders, lastIn orders⟩

/-- `groupBy` over the orders that count and have a customer. -/
def purchaseGroups (orders : List Order) : List CustomerGroup :=
  (groupBy Prod.fst (purchases orders)).map groupRow

/-- The segment of a group, by its count, its sum and its last visit. -/
def CustomerGroup.classify (g : CustomerGroup) (now : Instant) : SegmentKey :=
  classifySegment g.count g.totalMinor g.lastVisit now

/-- `segmentFor`: nobody without an order that counts is in a segment. -/
def segmentFor (visits spentMinor : ℤ) (lastVisit : Option Instant) (now : Instant) :
    Option SegmentKey :=
  if visits ≤ 0 then none else some (classifySegment visits spentMinor lastVisit now)

/-- What the customer list shows beside a name. -/
structure CustomerStats where
  visits : ℤ
  totalSpentMinor : ℤ
  averageBillMinor : ℤ
  lastVisit : Option Instant
  deriving DecidableEq, Repr

/-! ## §3. The customer list. -/

/-- The search box of the customer list. -/
structure FindCustomersQuery where
  /-- trimmed -/
  q : Option String
  limit : Option ℕ

/-- One row of the customer list. -/
structure CustomerListRow where
  customer : CustomerRow
  stats : CustomerStats
  segment : Option SegmentKey

/-- By name, or by digits of the phone. -/
def matchesQuery (ilike : String → String → Bool) (q : String) (c : CustomerRow) : Bool :=
  let digits := normalizePhone q
  -- a search without digits is looked up in the phone as it is
  ilike q c.name || decide ((if digits = "" then q else digits).toList <:+: c.phone.toList)

/-- The page of the list, before its figures. -/
def customerPage (t : Crm) (ilike collate : String → String → Bool) (query : FindCustomersQuery) :
    List CustomerRow :=
  let matching := match truthy query.q with
    | some q => t.customers.filter (matchesQuery ilike q)
    | none => t.customers
  -- fifty rows, a hundred at most
  (matching.insertionSort fun a b => collate a.name b.name = true).take
    (min (query.limit.getD 50) 100)

/-- The stats of a customer from their group; one without countable orders has none. -/
def listStats (g : Option CustomerGroup) : CustomerStats :=
  let visits := (g.map (·.count)).getD 0
  let spent := (g.map (·.totalMinor)).getD 0
  -- a guest without orders has no group: no visits, and no average to round
  ⟨visits, spent, if visits = 0 then 0 else roundDiv spent visits, g.bind (·.lastVisit)⟩

/-- `CustomersService.list`: one query for the figures of the whole page. -/
def listCustomers (t : Crm) (ilike collate : String → String → Bool) (now : Instant)
    (query : FindCustomersQuery) : List CustomerListRow :=
  let customers := customerPage t ilike collate query
  let groups := purchaseGroups (t.orders.filter fun o =>
    o.customerId.any fun id => decide (id ∈ customers.map (·.id)))
  customers.map fun c =>
    let stats := listStats (groups.find? fun g => g.customerId = c.id)
    ⟨c, stats, segmentFor stats.visits stats.totalSpentMinor stats.lastVisit now⟩

/-! ## §4. A customer's profile. -/

/-- What the profile page shows of a guest's visits. -/
structure ProfileStats where
  visits : ℤ
  totalSpentMinor : ℤ
  averageBillMinor : ℤ
  firstVisit : Option Instant
  lastVisit : Option Instant
  avgDaysBetweenVisits : Option ℤ
  deriving DecidableEq, Repr

/-- A line of the favourites of a guest. -/
structure FavoriteItem where
  name : String
  quantity : ℤ
  deriving DecidableEq, Repr

/-- A refund as the profile lists it. -/
structure RecentRefund where
  amountMinor : ℤ
  method : PaymentMethod
  reason : String
  createdAt : Instant
  orderNumber : ℤ
  deriving DecidableEq, Repr

/-- An order as the profile lists it. -/
structure RecentOrder where
  id : Uuid
  orderNumber : ℤ
  status : OrderStatus
  totalMinor : ℤ
  createdAt : Instant
  deriving DecidableEq, Repr

/-- Everything the profile page is given. -/
structure Profile where
  customer : CustomerRow
  stats : ProfileStats
  segment : Option SegmentKey
  favoriteItems : List FavoriteItem
  refundsTotalMinor : ℤ
  refundsCount : ℤ
  recentRefunds : List RecentRefund
  recentOrders : List RecentOrder

/-- The orders of one customer. -/
def ordersOf (orders : List Order) (id : Uuid) : List Order :=
  orders.filter fun o => decide (o.customerId = some id)

/-- The orders of a customer that count. -/
def countableOf (orders : List Order) (id : Uuid) : List Order :=
  (ordersOf orders id).filter fun o => countable o.status

/-- The days between two visits on average, over `visits - 1` intervals. -/
def daysBetween (visits : ℤ) (firstVisit lastVisit : Option Instant) : Option ℤ :=
  if 2 ≤ visits then
    firstVisit.bind fun first => lastVisit.map fun last =>
      roundDiv (last - first) (dayLength * (visits - 1))
  else none

/-- The stats of the profile, folded over the orders themselves. -/
def profileStats (orders : List Order) : ProfileStats :=
  let visits : ℤ := orders.length
  let firstVisit := (orders.map (·.createdAt)).min?
  let lastVisit := lastIn orders
  { visits
    totalSpentMinor := spentIn orders
    -- no orders have no average, and a zero average needs no rounding
    averageBillMinor :=
      if orders = [] ∨ spentIn orders = 0 then 0 else roundDiv (spentIn orders) orders.length
    firstVisit, lastVisit
    avgDaysBetweenVisits := daysBetween visits firstVisit lastVisit }

/-- The five items sold most, by the name they were sold under. -/
def favoriteItems (orders : List Order) : List FavoriteItem :=
  (grouped (fun i : OrderItem => i.nameSnapshot) (fun name items => ⟨name, quantityOf items⟩)
    (fun a b : FavoriteItem => b.quantity ≤ a.quantity) (orders.flatMap (·.items))).take 5

/-- The refunds of a customer's orders, with the order: of a voided order too. -/
def refundsOf (t : Crm) (id : Uuid) : List (Order × Refund) :=
  t.refunds.filterMap fun r =>
    ((ordersOf t.orders id).find? fun o => o.id = r.orderId).map fun o => (o, r)

/-- The five latest refunds, newest first. -/
def recentRefunds (refunds : List (Order × Refund)) : List RecentRefund :=
  ((refunds.insertionSort fun a b => b.2.createdAt ≤ a.2.createdAt).take 5).map fun r =>
    ⟨r.2.amountMinor, r.2.method, r.2.reason, r.2.createdAt, r.1.orderNumber⟩

/-- The ten latest orders, newest first. -/
def recentOrders (orders : List Order) : List RecentOrder :=
  ((orders.insertionSort fun a b => b.createdAt ≤ a.createdAt).take 10).map fun o =>
    ⟨o.id, o.orderNumber, o.status, o.totalMinor, o.createdAt⟩

/-- `CustomersService.getById` -/
def getById (t : Crm) (now : Instant) (id : Uuid) : Except ApiError Profile := do
  let customer ← found (t.customers.find? fun c => c.id = id) (.notFound "Customer not found")
  let stats := profileStats (countableOf t.orders id)
  let refunds := refundsOf t id
  -- figures are of the orders that count, the recent orders are of any status
  pure
    { customer, stats
      segment := segmentFor stats.visits stats.totalSpentMinor stats.lastVisit now
      favoriteItems := favoriteItems (countableOf t.orders id)
      refundsTotalMinor := (refunds.map fun r => r.2.amountMinor).sum
      refundsCount := refunds.length
      recentRefunds := recentRefunds refunds
      recentOrders := recentOrders (ordersOf t.orders id) }

/-! ## §5. The marketing screens. -/

/-- One segment as the marketing page shows it. -/
structure SegmentRow where
  key : SegmentKey
  label : String
  rule : String
  count : ℤ
  deriving DecidableEq, Repr

/-- A suggestion the marketing page derives from the counts. -/
structure Recommendation where
  title : String
  detail : String
  basis : String
  deriving DecidableEq, Repr

/-- Everything the marketing page is given. -/
structure SegmentsView where
  segments : List SegmentRow
  recommendations : List Recommendation

/-- `counts[key]++` for each group. -/
def segmentCounts (groups : List CustomerGroup) (now : Instant) : SegmentKey → ℤ :=
  groups.foldl (fun counts g =>
    Function.update counts (g.classify now) (counts (g.classify now) + 1)) fun _ => 0

/-- `MarketingService.segments` -/
def segments (orders : List Order) (now : Instant) : SegmentsView :=
  let counts := segmentCounts (purchaseGroups orders) now
  { segments := segmentKeys.map fun key =>
      ⟨key, (segmentMeta key).label, (segmentMeta key).rule, counts key⟩
    recommendations :=
      -- the one recommendation: with nobody lapsed there is none
      if 0 < counts .lapsed then
        [⟨toString (counts .lapsed) ++ " lapsed customer(s) could be won back",
          "These customers used to visit but have not in a while. A win-back coupon may bring "
            ++ "them back.",
          toString (counts .lapsed) ++ " customers with no non-void order in the last "
            ++ toString lapsedAfterDays ++ " days"⟩]
      else [] }

/-- `MarketingService.segmentCustomers` -/
def segmentCustomers (t : Crm) (collate : String → String → Bool) (now : Instant) (key : String) :
    Except ApiError (List CustomerRow) := do
  let key ← found (segmentKeys.find? fun k => k.text = key) (.badRequest "Unknown segment")
  let ids := ((purchaseGroups t.orders).filter fun g => g.classify now = key).map (·.customerId)
  if ids = [] then pure []
  else pure ((t.customers.filter fun c => decide (c.id ∈ ids)).insertionSort
    fun a b => collate a.name b.name = true)

/-! ## §6. One customer's group. -/

/-- The group of a customer has their orders. -/
theorem purchases_of (orders : List Order) (id : Uuid) :
    ((purchases orders).filter fun p => decide (p.1 = id)).map Prod.snd
      = countableOf orders id := by
  unfold purchases countableOf ordersOf
  induction orders with
  | nil => rfl
  | cons o orders ih =>
      by_cases hcount : countable o.status = true
      · cases hcustomer : o.customerId with
        | none => simpa [hcount, hcustomer] using ih
        | some k =>
            by_cases hk : k = id
            · simpa [hcount, hcustomer, hk] using ih
            · simpa [hcount, hcustomer, hk] using ih
      · by_cases hk : o.customerId = some id
        · simpa [hcount, hk] using ih
        · simpa [hcount, hk] using ih

/-- Who has a group is who has a countable order. -/
theorem purchaser_iff (orders : List Order) (id : Uuid) :
    id ∈ (purchases orders).map Prod.fst ↔ countableOf orders id ≠ [] := by
  rw [← purchases_of, ne_eq, List.map_eq_nil_iff, List.filter_eq_nil_iff, List.mem_map]
  constructor
  · rintro ⟨p, hp, rfl⟩ hall
    exact hall p hp (decide_eq_true rfl)
  · intro h
    by_contra hno
    refine h fun p hp hid => hno ⟨p, hp, of_decide_eq_true hid⟩

/-- What is grouped for a customer with orders that count. -/
def groupOf (orders : List Order) (id : Uuid) : CustomerGroup :=
  ⟨id, (countableOf orders id).length, spentIn (countableOf orders id),
    lastIn (countableOf orders id)⟩

/-- **The grouping is one group for each purchaser, made of their countable orders.** -/
theorem purchaseGroups_eq (orders : List Order) :
    purchaseGroups orders
      = (distinct ((purchases orders).map Prod.fst)).map (groupOf orders) := by
  unfold purchaseGroups groupBy
  rw [List.map_map]
  apply List.map_congr_left
  intro id _
  show groupRow (id, (purchases orders).filter fun p => decide (p.1 = id)) = _
  unfold groupRow groupOf
  simp only [purchases_of]

theorem purchaseGroups_ids (orders : List Order) :
    (purchaseGroups orders).map (·.customerId) = distinct ((purchases orders).map Prod.fst) := by
  rw [purchaseGroups_eq, List.map_map]
  exact List.map_id' _

theorem mem_purchaseGroups {orders : List Order} {g : CustomerGroup} :
    g ∈ purchaseGroups orders
      ↔ countableOf orders g.customerId ≠ [] ∧ g = groupOf orders g.customerId := by
  rw [purchaseGroups_eq, List.mem_map, ← purchaser_iff]
  constructor
  · rintro ⟨id, hid, rfl⟩
    exact ⟨mem_distinct.mp hid, rfl⟩
  · rintro ⟨hid, heq⟩
    exact ⟨g.customerId, mem_distinct.mpr hid, heq.symm⟩

/-- Looking a customer up in the grouping finds the group of their orders, if they have
any. -/
theorem find_group (orders : List Order) (id : Uuid) :
    (purchaseGroups orders).find? (fun g => g.customerId = id)
      = if countableOf orders id = [] then none else some (groupOf orders id) := by
  split
  next hnone =>
    refine List.find?_eq_none.mpr fun g hg hid => ?_
    have hid : g.customerId = id := of_decide_eq_true hid
    exact (mem_purchaseGroups.mp hg).1 (hid ▸ hnone)
  next hsome =>
    cases hfind : (purchaseGroups orders).find? fun g => g.customerId = id with
    | none =>
        have hmem : groupOf orders id ∈ purchaseGroups orders := mem_purchaseGroups.mpr ⟨hsome, rfl⟩
        exact absurd (decide_eq_true rfl) (List.find?_eq_none.mp hfind _ hmem)
    | some g =>
        have hid : g.customerId = id := by simpa using List.find?_some hfind
        have heq := (mem_purchaseGroups.mp (List.mem_of_find?_eq_some hfind)).2
        rw [heq, hid]

/-- The orders of other customers do not matter. -/
theorem countableOf_filter {orders : List Order} {p : Order → Bool} {id : Uuid}
    (hp : ∀ o ∈ orders, o.customerId = some id → p o = true) :
    countableOf (orders.filter p) id = countableOf orders id := by
  have hown : ordersOf (orders.filter p) id = ordersOf orders id := by
    unfold ordersOf
    rw [List.filter_filter]
    refine List.filter_congr fun o ho => ?_
    by_cases hid : o.customerId = some id
    · simp [hid, hp o ho hid]
    · simp [hid]
  unfold countableOf
  rw [hown]

/-- The figures of a row of the list, from the orders themselves. -/
theorem listStats_group (orders : List Order) (id : Uuid) :
    listStats (if countableOf orders id = [] then none else some (groupOf orders id))
      = ⟨(countableOf orders id).length, spentIn (countableOf orders id),
          (profileStats (countableOf orders id)).averageBillMinor,
          lastIn (countableOf orders id)⟩ := by
  generalize hown : countableOf orders id = own
  unfold groupOf
  rw [hown]
  cases own with
  | nil => rfl
  | cons o own =>
      have hne : ((o :: own).length : ℤ) ≠ 0 := by
        rw [List.length_cons]
        omega
      unfold listStats profileStats
      simp only [reduceCtorEq, if_false, Option.map_some, Option.getD_some, if_neg hne,
        Option.bind_some, false_or]
      -- a zero sum has a zero average in either program
      split
      next hzero =>
        rw [hzero]
        unfold roundDiv
        simp only [mul_zero, zero_add, CustomerStats.mk.injEq, true_and, and_true]
        exact Int.ediv_eq_zero_of_lt (by omega) (by omega)
      next => rfl

/-! ## §7. The screens agree. -/

variable (t : Crm) (ilike collate : String → String → Bool) (now : Instant)

/-- **The profile of a customer, in the terms of the list.** -/
theorem getById_ok {c : CustomerRow} (hc : c ∈ t.customers) :
    ∃ p, getById t now c.id = .ok p ∧ p.customer = c
      ∧ p.stats = profileStats (countableOf t.orders c.id)
      ∧ p.segment = segmentFor p.stats.visits p.stats.totalSpentMinor p.stats.lastVisit now := by
  have hfind : t.customers.find? (fun c' => c'.id = c.id) = some c := by
    cases hfind : t.customers.find? fun c' => c'.id = c.id with
    | none => exact absurd (decide_eq_true rfl) (List.find?_eq_none.mp hfind c hc)
    | some c' =>
        have hid : c'.id = c.id := by simpa using List.find?_some hfind
        have hmem := List.mem_of_find?_eq_some hfind
        have heq := List.inj_on_of_nodup_map t.customers_pkey hmem hc hid
        rw [heq]
  unfold getById
  rw [hfind]
  exact ⟨_, rfl, rfl, rfl, rfl⟩

/-- **A row of the list says what the profile says**: the figures of a whole page come
from one query, those of a profile from queries of its own. -/
theorem customer_list_profile (query : FindCustomersQuery) {row : CustomerListRow}
    (h : row ∈ listCustomers t ilike collate now query) :
    ∃ p, getById t now row.customer.id = .ok p ∧ p.customer = row.customer
      ∧ row.segment = p.segment
      ∧ row.stats = ⟨p.stats.visits, p.stats.totalSpentMinor, p.stats.averageBillMinor,
          p.stats.lastVisit⟩ := by
  obtain ⟨c, hc, rfl⟩ := List.mem_map.mp h
  have hmem : c ∈ t.customers := by
    have hpage := List.mem_of_mem_take hc
    rw [List.mem_insertionSort] at hpage
    split at hpage
    · exact List.mem_of_mem_filter hpage
    · exact hpage
  obtain ⟨p, hp, hcustomer, hstats, hsegment⟩ := getById_ok t now hmem
  -- the query of the page has all the orders of its customers
  have hown : countableOf (t.orders.filter fun o => o.customerId.any fun id =>
      decide (id ∈ (customerPage t ilike collate query).map (·.id))) c.id
      = countableOf t.orders c.id := by
    refine countableOf_filter fun o _ hid => ?_
    rw [hid]
    exact decide_eq_true (List.mem_map_of_mem hc)
  have hrow : listStats ((purchaseGroups (t.orders.filter fun o => o.customerId.any fun id =>
      decide (id ∈ (customerPage t ilike collate query).map (·.id)))).find?
        fun g => g.customerId = c.id) = ⟨p.stats.visits, p.stats.totalSpentMinor,
          p.stats.averageBillMinor, p.stats.lastVisit⟩ := by
    rw [find_group, hstats]
    unfold groupOf
    rw [hown]
    exact listStats_group t.orders c.id
  refine ⟨p, hp, hcustomer, ?_, hrow⟩
  rw [hsegment]
  show segmentFor (listStats _).visits (listStats _).totalSpentMinor (listStats _).lastVisit now = _
  rw [hrow]

/-- The customers of a segment, as the profiles have it. -/
def inSegment (key : SegmentKey) (c : CustomerRow) : Prop :=
  ∃ p, getById t now c.id = .ok p ∧ p.segment = some key

/-- A customer is in a segment when their group is classified so. -/
theorem inSegment_iff {c : CustomerRow} (hc : c ∈ t.customers) (key : SegmentKey) :
    inSegment t now key c ↔ countableOf t.orders c.id ≠ []
      ∧ (groupOf t.orders c.id).classify now = key := by
  obtain ⟨p, hp, -, hstats, hsegment⟩ := getById_ok t now hc
  have hvisits : p.stats.visits ≤ 0 ↔ countableOf t.orders c.id = [] := by
    rw [hstats, ← List.length_eq_zero_iff]
    show ((countableOf t.orders c.id).length : ℤ) ≤ 0 ↔ _
    omega
  -- the profile counts visits where the grouping has or lacks a group
  have hclass : p.segment = if countableOf t.orders c.id = [] then none
      else some ((groupOf t.orders c.id).classify now) := by
    rw [hsegment]
    unfold segmentFor
    simp only [hvisits]
    split
    · rfl
    · rw [hstats]
      rfl
  unfold inSegment
  constructor
  · rintro ⟨p', hp', hkey⟩
    cases hp.symm.trans hp'
    rw [hclass] at hkey
    split at hkey
    next => cases hkey
    next hne => exact ⟨hne, Option.some.inj hkey⟩
  · rintro ⟨hne, hkey⟩
    refine ⟨p, hp, ?_⟩
    rw [hclass, if_neg hne, hkey]

/-- The count of a segment is the number of groups classified so. -/
theorem segmentCounts_eq (groups : List CustomerGroup) (key : SegmentKey) :
    segmentCounts groups now key = (groups.filter fun g => g.classify now = key).length := by
  -- the loop, from whatever it had counted before
  have hfold : ∀ (groups : List CustomerGroup) (counts : SegmentKey → ℤ),
      groups.foldl (fun counts g =>
        Function.update counts (g.classify now) (counts (g.classify now) + 1)) counts key
        = counts key + (groups.filter fun g => g.classify now = key).length := by
    intro groups
    induction groups with
    | nil =>
        intro counts
        show counts key = counts key + ((0 : ℕ) : ℤ)
        omega
    | cons g groups ih =>
        intro counts
        rw [List.foldl_cons, ih]
        by_cases hkey : g.classify now = key
        · rw [List.filter_cons, if_pos (decide_eq_true hkey), List.length_cons, hkey,
            Function.update_self]
          push_cast
          omega
        · rw [List.filter_cons, if_neg (by simpa using hkey),
            Function.update_of_ne (Ne.symm hkey)]
  rw [segmentCounts, hfold, zero_add]

/-- The ids a segment is listed by. -/
def segmentIds (key : SegmentKey) : List Uuid :=
  ((purchaseGroups t.orders).filter fun g => g.classify now = key).map (·.customerId)

/-- A segment's page lists its customers by name, and never fails. -/
theorem segmentCustomers_ok (key : SegmentKey) :
    segmentCustomers t collate now key.text
      = .ok ((t.customers.filter fun c => decide (c.id ∈ segmentIds t now key)).insertionSort
          fun a b => collate a.name b.name = true) := by
  have hkey : segmentKeys.find? (fun k => k.text = key.text) = some key := by
    cases key <;> rfl
  unfold segmentCustomers
  rw [hkey]
  show (if segmentIds t now key = [] then _ else _) = _
  split
  next hnone =>
    rw [hnone, List.filter_eq_nil_iff.mpr (by simp)]
    rfl
  next => rfl

theorem mem_segmentIds {key : SegmentKey} {id : Uuid} :
    id ∈ segmentIds t now key ↔ countableOf t.orders id ≠ []
      ∧ (groupOf t.orders id).classify now = key := by
  unfold segmentIds
  rw [List.mem_map]
  constructor
  · rintro ⟨g, hg, rfl⟩
    obtain ⟨hg, hkey⟩ := List.mem_filter.mp hg
    obtain ⟨hne, heq⟩ := mem_purchaseGroups.mp hg
    rw [heq] at hkey
    exact ⟨hne, of_decide_eq_true hkey⟩
  · rintro ⟨hne, hkey⟩
    refine ⟨groupOf t.orders id, List.mem_filter.mpr ⟨?_, decide_eq_true hkey⟩, rfl⟩
    exact mem_purchaseGroups.mpr ⟨hne, rfl⟩

/-- As many customers as ids, when each is the id of somebody with an order. -/
theorem customers_length {ids : List Uuid} (hnodup : ids.Nodup)
    (hids : ∀ id ∈ ids, countableOf t.orders id ≠ []) :
    (t.customers.filter fun c => decide (c.id ∈ ids)).length = ids.length := by
  have hperm : ((t.customers.filter fun c => decide (c.id ∈ ids)).map (·.id)).Perm ids := by
    refine (List.perm_ext_iff_of_nodup ?_ hnodup).mpr fun id => ?_
    · exact List.Nodup.sublist (List.filter_sublist.map _) t.customers_pkey
    · rw [List.mem_map]
      constructor
      · rintro ⟨c, hc, rfl⟩
        exact of_decide_eq_true (List.mem_filter.mp hc).2
      · intro hid
        -- who has an order is among the customers
        obtain ⟨o, ho⟩ := List.exists_mem_of_ne_nil _ (hids id hid)
        have hown := List.mem_filter.mp (List.mem_filter.mp ho).1
        have hcustomer := t.orders_customer_id_fkey o hown.1 id (of_decide_eq_true hown.2)
        obtain ⟨c, hc, rfl⟩ := List.mem_map.mp hcustomer
        exact ⟨c, List.mem_filter.mpr ⟨hc, decide_eq_true hid⟩, rfl⟩
  rw [← hperm.length_eq, List.length_map]

/-- A segment lists as many customers as it counts. -/
theorem segment_length (key : SegmentKey) :
    ((t.customers.filter fun c => decide (c.id ∈ segmentIds t now key)).length : ℤ)
      = segmentCounts (purchaseGroups t.orders) now key := by
  have hnodup : (segmentIds t now key).Nodup := by
    unfold segmentIds
    refine List.Nodup.sublist (List.filter_sublist.map _) ?_
    rw [purchaseGroups_ids]
    exact distinct_nodup _
  rw [segmentCounts_eq, customers_length t hnodup fun id hid => ((mem_segmentIds t now).mp hid).1]
  unfold segmentIds
  rw [List.length_map]

/-- Everybody with an order that counts is in one of the segments. -/
theorem counts_sum (groups : List CustomerGroup) :
    (segmentKeys.map (segmentCounts groups now)).sum = groups.length := by
  have hcounts : segmentKeys.map (segmentCounts groups now)
      = segmentKeys.map fun key => sumWhere (fun g => decide (g.classify now = key) && true)
          (fun _ => 1) groups := by
    refine List.map_congr_left fun key _ => ?_
    rw [segmentCounts_eq, count_sum]
    simp only [sumWhere, Bool.and_true]
  have hall : groups.filter (fun g => decide (g.classify now ∈ segmentKeys) && true) = groups := by
    refine List.filter_eq_self.mpr fun g _ => ?_
    cases g.classify now <;> rfl
  rw [hcounts, sumWhere_fibers _ _ _ (by decide), sumWhere, hall, count_sum]

/-- **The marketing screens and the profiles agree.**  A segment lists the customers whose
profile names it, and counts as many; all together the segments count every customer with
an order that counts, once. -/
theorem segments_agree :
    (∀ row ∈ (segments t.orders now).segments, ∃ rows,
      segmentCustomers t collate now row.key.text = .ok rows ∧ row.count = rows.length
        ∧ rows.Nodup ∧ ∀ c, c ∈ rows ↔ c ∈ t.customers ∧ inSegment t now row.key c)
      ∧ ((segments t.orders now).segments.map (·.count)).sum
        = (t.customers.filter fun c => decide (countableOf t.orders c.id ≠ [])).length := by
  have hcustomers : t.customers.Nodup := List.Nodup.of_map _ t.customers_pkey
  constructor
  · intro row hrow
    obtain ⟨key, -, rfl⟩ := List.mem_map.mp hrow
    refine ⟨_, segmentCustomers_ok t collate now key, ?_, ?_, fun c => ?_⟩
    · rw [List.length_insertionSort]
      exact (segment_length t now key).symm
    · exact (List.perm_insertionSort _ _).nodup_iff.mpr (hcustomers.filter _)
    · rw [List.mem_insertionSort, List.mem_filter, decide_eq_true_eq, mem_segmentIds]
      exact and_congr_right fun hc => (inSegment_iff t now hc key).symm
  -- the four counts are a partition of the purchasers
  · have hcounts : (segments t.orders now).segments.map (·.count)
        = segmentKeys.map (segmentCounts (purchaseGroups t.orders) now) := by
      unfold segments
      rw [List.map_map]
      rfl
    have hnodup : ((purchaseGroups t.orders).map (·.customerId)).Nodup := by
      rw [purchaseGroups_ids]
      exact distinct_nodup _
    have hids : ∀ id, id ∈ (purchaseGroups t.orders).map (·.customerId)
        ↔ countableOf t.orders id ≠ [] := by
      intro id
      rw [purchaseGroups_ids, mem_distinct, purchaser_iff]
    have hlength := customers_length t hnodup fun id hid => (hids id).mp hid
    simp only [hids] at hlength
    rw [hcounts, counts_sum, hlength, List.length_map]

/-! Asha, who has had a lassi. -/

theorem lassi_amounts :
    (0 : ℤ) ≤ 1000 ∧ (0 : ℤ) ≤ 0 ∧ (0 : ℤ) ≤ 50 ∧ (0 : ℤ) ≤ 1050 := by omega

theorem lassi_adds_up : (1050 : ℤ) = 1000 - 0 + 50 := rfl

theorem lassi_undiscounted : (0 : ℤ) ≤ 1000 := by omega

/-- One completed takeaway of ₹10.50. -/
def ashaLassi : Order :=
  { id := 20, branchId := 3, customerId := some 1, orderNumber := 1, status := .completed,
    orderType := .takeaway, subtotalMinor := 1000, discountMinor := 0, taxMinor := 50,
    totalMinor := 1050, notes := none, idempotencyKey := none, placedAt := some 5, createdAt := 5,
    items := [], amounts_nonneg := lassi_amounts, total_adds_up := lassi_adds_up,
    discount_within := lassi_undiscounted }

/-- Asha's order, and the same one by a guest nobody knows. -/
def ashaCrm : Crm :=
  { customers := [⟨1, "Asha", "9876543210", none, none, none, 0, by decide⟩]
    orders := [ashaLassi, { ashaLassi with id := 21, customerId := none, orderNumber := 2 }]
    refunds := []
    customers_pkey := by decide
    orders_customer_id_fkey := by decide }

/-- The list, searched by some digits of a phone. -/
def ashaListed : List CustomerListRow :=
  listCustomers ashaCrm (fun _ _ => false) (fun _ _ => true) 9 ⟨some "98765", none⟩

/-- Asha's row and Asha's profile, both new. -/
theorem customer_list_profile_asha : ∃ row ∈ ashaListed, row.segment = some .new
    ∧ ∃ p, getById ashaCrm 9 row.customer.id = .ok p ∧ row.segment = p.segment := by
  have hsegments : ∀ row ∈ ashaListed, row.segment = some .new := by decide
  obtain ⟨row, hrow⟩ := List.exists_mem_of_length_pos (show 0 < ashaListed.length by decide)
  obtain ⟨p, hp, -, hsegment, -⟩ := customer_list_profile ashaCrm _ _ 9 _ hrow
  exact ⟨row, hrow, hsegments row hrow, p, hp, hsegment⟩

/-! ## §8. The screens and the dashboard. -/

/-- An order is one of a known customer, or of a walk-in. -/
theorem walkIns_apart (f : Order → ℤ) {ids : List Uuid} {orders : List Order}
    (hids : ∀ o ∈ orders, ∀ id ∈ o.customerId, id ∈ ids) :
    sumWhere (fun o => decide (o.customerId ∈ ids.map some) && countable o.status) f orders
      + sumWhere (fun o => countable o.status && o.customerId.isNone) f orders
      = sumWhere (fun o => countable o.status) f orders := by
  induction orders with
  | nil => rfl
  | cons o orders ih =>
      have hrest := ih fun o' ho' => hids o' (List.mem_cons_of_mem _ ho')
      rw [sumWhere_cons, sumWhere_cons, sumWhere_cons]
      -- the foreign key puts an order of a customer among those of the list
      cases hcustomer : o.customerId with
      | none =>
          have hnot : (none : Option Uuid) ∉ ids.map some := by simp
          simp only [hnot, decide_false, Bool.false_and, Bool.false_eq_true, if_false,
            Option.isNone_none, Bool.and_true]
          omega
      | some id =>
          have hmem : some id ∈ ids.map some :=
            List.mem_map_of_mem (hids o List.mem_cons_self id hcustomer)
          simp only [hmem, decide_true, Bool.true_and, Option.isNone_some, Bool.and_false,
            Bool.false_eq_true, if_false]
          omega

/-- A sum over the customers, of the orders of each, leaves the walk-ins. -/
theorem customers_sum (f : Order → ℤ) :
    (t.customers.map fun c => ((countableOf t.orders c.id).map f).sum).sum
      + ((t.orders.filter fun o => countable o.status && o.customerId.isNone).map f).sum
      = ((t.orders.filter fun o => countable o.status).map f).sum := by
  have hmine : ∀ c : CustomerRow, ((countableOf t.orders c.id).map f).sum
      = sumWhere (fun o => decide (o.customerId = some c.id) && countable o.status) f t.orders := by
    intro c
    unfold sumWhere countableOf ordersOf
    rw [List.filter_filter]
    simp only [Bool.and_comm]
  have hkeys : ((t.customers.map (·.id)).map some).Nodup :=
    t.customers_pkey.map (Option.some_injective _)
  -- the orders, split by their customer
  have hfibers := sumWhere_fibers (fun o : Order => o.customerId) (fun o => countable o.status) f
    hkeys t.orders
  rw [List.map_map, List.map_map] at hfibers
  have hsum : (t.customers.map fun c => ((countableOf t.orders c.id).map f).sum).sum
      = sumWhere (fun o => decide (o.customerId ∈ (t.customers.map (·.id)).map some)
          && countable o.status) f t.orders := by
    simp only [hmine]
    refine hfibers.trans ?_
    congr 1
    funext o
    rw [decide_eq_decide.mpr Iff.rfl]
  rw [hsum]
  exact walkIns_apart f t.orders_customer_id_fkey

/-- Every profile, opened one after the other. -/
theorem profiles_ok : ∃ profiles, t.customers.mapM (fun c => getById t now c.id) = .ok profiles
    ∧ profiles.map (·.stats)
      = t.customers.map fun c => profileStats (countableOf t.orders c.id) := by
  have hall : ∀ customers : List CustomerRow, (∀ c ∈ customers, c ∈ t.customers) →
      ∃ profiles, customers.mapM (fun c => getById t now c.id) = .ok profiles
        ∧ profiles.map (·.stats)
          = customers.map fun c => profileStats (countableOf t.orders c.id) := by
    intro customers
    induction customers with
    | nil => exact fun _ => ⟨[], rfl, rfl⟩
    | cons c customers ih =>
        intro hmem
        obtain ⟨p, hp, -, hstats, -⟩ := getById_ok t now (hmem c List.mem_cons_self)
        obtain ⟨profiles, hprofiles, hrest⟩ := ih fun c' hc' => hmem c' (List.mem_cons_of_mem _ hc')
        refine ⟨p :: profiles, ?_, ?_⟩
        · rw [List.mapM_cons, hp, hprofiles]
          rfl
        · rw [List.map_cons, List.map_cons, hstats, hrest]
  exact hall t.customers fun _ hc => hc

/-- **Customers and walk-ins are the dashboard's figures**: over a window that has every
order, the visits and the spending of all profiles, with the orders nobody is named on,
are the orders and the revenue of the overview. -/
theorem spending_adds_up {db : Db} (hdb : db.orders = t.orders) {w : Window}
    (hw : ∀ o ∈ t.orders, w.start ≤ o.createdAt ∧ o.createdAt ≤ w.finish) :
    ∃ profiles, t.customers.mapM (fun c => getById t now c.id) = .ok profiles
      ∧ (profiles.map (·.stats.totalSpentMinor)).sum
          + spentIn (t.orders.filter fun o => countable o.status && o.customerId.isNone)
        = (overviewBetween db w).summary.revenueMinor
      ∧ (profiles.map (·.stats.visits)).sum
          + (t.orders.filter fun o => countable o.status && o.customerId.isNone).length
        = (overviewBetween db w).summary.orders := by
  obtain ⟨profiles, hprofiles, hstats⟩ := profiles_ok t now
  have hcounted : countedBetween db w.start w.finish
      = t.orders.filter fun o => countable o.status := by
    unfold countedBetween
    rw [hdb]
    refine List.filter_congr fun o ho => ?_
    rw [decide_eq_true (hw o ho), Bool.and_true]
  have hspent : profiles.map (·.stats.totalSpentMinor)
      = t.customers.map fun c => spentIn (countableOf t.orders c.id) := by
    have hcol := congrArg (List.map (·.totalSpentMinor)) hstats
    rw [List.map_map, List.map_map] at hcol
    exact hcol
  have hvisits : profiles.map (·.stats.visits)
      = t.customers.map fun c => ((countableOf t.orders c.id).length : ℤ) := by
    have hcol := congrArg (List.map (·.visits)) hstats
    rw [List.map_map, List.map_map] at hcol
    exact hcol
  refine ⟨profiles, hprofiles, ?_, ?_⟩
  · show _ = ((countedBetween db w.start w.finish).map (·.totalMinor)).sum
    rw [hcounted, hspent]
    exact customers_sum t (·.totalMinor)
  · show _ = ((countedBetween db w.start w.finish).length : ℤ)
    rw [hcounted, hvisits]
    simp only [count_sum]
    exact customers_sum t fun _ => 1

/-- Asha's ₹10.50 and the guest's ₹10.50 are the ₹21.00 of the day. -/
theorem spending_adds_up_asha : ∃ profiles,
    ashaCrm.customers.mapM (fun c => getById ashaCrm 9 c.id) = .ok profiles
      ∧ (profiles.map (·.stats.totalSpentMinor)).sum + 1050 = 2100 := by
  have hw : ∀ o ∈ ashaCrm.orders, (0 : Instant) ≤ o.createdAt ∧ o.createdAt ≤ 9 := by decide
  obtain ⟨profiles, hprofiles, hspent, -⟩ := spending_adds_up ashaCrm 9
    (show ({ Db.empty with orders := ashaCrm.orders } : Db).orders = ashaCrm.orders from rfl)
    (w := ⟨0, 9⟩) hw
  exact ⟨profiles, hprofiles, hspent⟩

end OraOS.Customers
