/-
  OraOS.Reports.Sales — `AnalyticsService.overviewBetween` and the sales reports of
  `ReportsService`.

  Each figure is a query of its own over the orders of an IST day window: summed, or
  grouped by tax rate, sold name, category, day and hour.

    * `overviewBetween` — the figures of the dashboard and of the sales report;
    * `gst`, `itemSales`, `categorySales`, `discounts` — the other reports;
    * `…_total`         — what each adds up to.
-/
import OraOS.Lib.Grouping
import OraOS.Orders.SalesFigures

namespace OraOS.Reports

open OraOS.Api
open OraOS.Lib
open OraOS.Orders

/-! ## §1. The window. -/

/-- `+05:30`. -/
def istOffset : ℤ := 19800000

/-- A day, in milliseconds. -/
def dayLength : ℤ := 86400000

/-- An hour, in milliseconds. -/
def hourLength : ℤ := 3600000

/-- The days a report is about, as instants. -/
structure Window where
  start : Instant
  finish : Instant

/-- `window`: from the first instant of a day to the last of another, on the wall clock of
IST.  A day is counted from the epoch; `none` is a date that `Date` does not take. -/
def window (fromDay toDay : Option ℤ) : Except ApiError Window := do
  let first ← found fromDay (.badRequest "from and to must be real calendar dates")
  let last ← found toDay (.badRequest "from and to must be real calendar dates")
  let start := first * dayLength - istOffset
  let finish := last * dayLength + (dayLength - 1) - istOffset
  require (start ≤ finish) (.badRequest "from must not be after to")
  pure ⟨start, finish⟩

/-- `date_trunc('day', created_at AT TIME ZONE …)`. -/
def istDay (t : Instant) : ℤ := (t + istOffset) / dayLength

/-- `EXTRACT(HOUR FROM created_at AT TIME ZONE …)`. -/
def istHour (t : Instant) : ℤ := (t + istOffset) % dayLength / hourLength

/-- What the lines came to, before tax. -/
def revenueOf (items : List OrderItem) : ℤ := (items.map (·.lineTotalMinor)).sum

/-- How many were sold. -/
def quantityOf (items : List OrderItem) : ℤ := (items.map (·.quantity)).sum

/-- The tax of the lines. -/
def taxTotal (items : List OrderItem) : ℤ := (items.map (·.taxMinor)).sum

/-- The items of the orders that count. -/
def itemsBetween (db : Db) (w : Window) : List OrderItem :=
  (countedBetween db w.start w.finish).flatMap (·.items)

/-! ## §2. `AnalyticsService`. -/

/-- The figures at the top of the overview. -/
structure Summary where
  revenueMinor : ℤ
  orders : ℤ
  averageBillMinor : ℤ
  itemsSold : ℤ
  deriving DecidableEq, Repr

/-- One day of the revenue series. -/
structure SeriesRow where
  date : ℤ
  revenueMinor : ℤ
  orders : ℤ
  deriving DecidableEq, Repr

/-- One product of the item report. -/
structure SoldRow where
  name : String
  quantity : ℤ
  revenueMinor : ℤ
  deriving DecidableEq, Repr

/-- One payment method of the overview. -/
structure MethodRow where
  method : PaymentMethod
  amountMinor : ℤ
  count : ℤ
  deriving DecidableEq, Repr

/-- One hour of the day. -/
structure HourRow where
  hour : ℤ
  orders : ℤ
  deriving DecidableEq, Repr

/-- Everything the overview is given. -/
structure Overview where
  window : Window
  summary : Summary
  revenueSeries : List SeriesRow
  topProducts : List SoldRow
  paymentBreakdown : List MethodRow
  peakHours : List HourRow

/-- The summary of some orders. -/
def summaryOf (orders : List Order) : Summary :=
  let revenue := (orders.map (·.totalMinor)).sum
  { revenueMinor := revenue
    orders := orders.length
    -- rounded to whole paise; no orders have no average
    averageBillMinor := if orders = [] then 0 else roundDiv revenue orders.length
    itemsSold := quantityOf (orders.flatMap (·.items)) }

/-- The revenue day by day. -/
def revenueSeries (orders : List Order) : List SeriesRow :=
  grouped (fun o => istDay o.createdAt)
    (fun day group => ⟨day, (group.map (·.totalMinor)).sum, group.length⟩)
    (fun a b => a.date ≤ b.date) orders

/-- The items by the name they were sold under. -/
def soldByName (items : List OrderItem) : List SoldRow :=
  grouped (fun i => i.nameSnapshot) (fun name group => ⟨name, quantityOf group, revenueOf group⟩)
    (fun a b => b.revenueMinor ≤ a.revenueMinor) items

/-- The ten products that made the most. -/
def topProducts (items : List OrderItem) : List SoldRow := (soldByName items).take 10

/-- The captured payments of the window, of the orders that count. -/
def paymentBreakdown (db : Db) (w : Window) : List MethodRow :=
  grouped (fun p => p.method)
    (fun method group => ⟨method, (group.map (·.amountMinor)).sum, group.length⟩)
    (fun a b => b.amountMinor ≤ a.amountMinor)
    (db.payments.filter fun p => decide (p.status = .captured)
      && (db.orders.any fun o => decide (o.id = p.orderId) && countable o.status)
      && decide (w.start ≤ p.createdAt ∧ p.createdAt ≤ w.finish))

/-- Orders by hour, every hour filled. -/
def peakHours (orders : List Order) : List HourRow :=
  let byHour : Tally ℤ := grouped (fun o => istHour o.createdAt)
    (fun hour group => (hour, (group.length : ℤ))) (fun a b => a.1 ≤ b.1) orders
  (List.range 24).map fun hour => ⟨hour, byHour.get hour⟩

/-- `AnalyticsService.overviewBetween`. -/
def overviewBetween (db : Db) (w : Window) : Overview :=
  let orders := countedBetween db w.start w.finish
  { window := w
    summary := summaryOf orders
    revenueSeries := revenueSeries orders
    topProducts := topProducts (itemsBetween db w)
    paymentBreakdown := paymentBreakdown db w
    peakHours := peakHours orders }

/-! ## §3. `ReportsService`. -/

/-- One tax rate of the GST report. -/
structure GstRow where
  taxRateBp : ℤ
  taxableMinor : ℤ
  taxMinor : ℤ
  deriving DecidableEq, Repr

/-- The GST report. -/
structure GstReport where
  window : Window
  rows : List GstRow
  totalTaxableMinor : ℤ
  totalTaxMinor : ℤ

/-- The item report. -/
structure ItemReport where
  window : Window
  rows : List SoldRow

/-- One category of the category report. -/
structure CategoryRow where
  category : String
  quantity : ℤ
  revenueMinor : ℤ
  deriving DecidableEq, Repr

/-- The category report. -/
structure CategoryReport where
  window : Window
  rows : List CategoryRow

/-- One discounted order. -/
structure DiscountRow where
  id : Uuid
  orderNumber : ℤ
  subtotalMinor : ℤ
  discountMinor : ℤ
  totalMinor : ℤ
  couponCode : Option String
  at_ : Instant
  deriving DecidableEq, Repr

/-- The discounts report. -/
structure DiscountsReport where
  window : Window
  rows : List DiscountRow
  count : ℕ
  totalDiscountMinor : ℤ

/-- A category, as the report reads it. -/
structure Category where
  id : Uuid
  name : String
  deriving DecidableEq, Repr

/-- `products.category_id`, which no order reads. -/
structure ProductCategory where
  productId : Uuid
  categoryId : Option Uuid
  deriving DecidableEq, Repr

/-- The menu as it is when a report is asked for. -/
structure Menu where
  products : List ProductCategory
  categories : List Category
  /-- `products_pkey` -/
  products_pkey : (products.map (·.productId)).Nodup
  /-- `categories_pkey` -/
  categories_pkey : (categories.map (·.id)).Nodup

/-- The overview of a window. -/
def sales (db : Db) (fromDay toDay : Option ℤ) : Except ApiError Overview := do
  let w ← window fromDay toDay
  pure (overviewBetween db w)

/-- The lines grouped by their tax rate. -/
def gstRows (items : List OrderItem) : List GstRow :=
  grouped (fun i => i.taxRateBp)
    (fun rate group => ⟨rate, revenueOf group, taxTotal group⟩)
    (fun a b => a.taxRateBp ≤ b.taxRateBp) items

/-- The GST report of a window. -/
def gst (db : Db) (fromDay toDay : Option ℤ) : Except ApiError GstReport := do
  let w ← window fromDay toDay
  let rows := gstRows (itemsBetween db w)
  pure ⟨w, rows, (rows.map (·.taxableMinor)).sum, (rows.map (·.taxMinor)).sum⟩

/-- The item report of a window. -/
def itemSales (db : Db) (fromDay toDay : Option ℤ) : Except ApiError ItemReport := do
  let w ← window fromDay toDay
  pure ⟨w, soldByName (itemsBetween db w)⟩

/-- The lines with their product and its category, as far as there is one. -/
def withCategory (menu : Menu) (items : List OrderItem) :
    List ((OrderItem × Option ProductCategory) × Option Category) :=
  leftJoin (fun l c => decide (some c.id = l.2.bind (·.categoryId)))
    (leftJoin (fun i p => decide (some p.productId = i.productId)) items menu.products)
    menu.categories

/-- The lines grouped by their category, as the menu has it now. -/
def categoryRows (menu : Menu) (items : List OrderItem) : List CategoryRow :=
  grouped (fun l => (l.2.map (·.name)).getD "Uncategorised")
    (fun category group => ⟨category, quantityOf (group.map (·.1.1)), revenueOf (group.map (·.1.1))⟩)
    (fun a b => b.revenueMinor ≤ a.revenueMinor) (withCategory menu items)

/-- The category report of a window. -/
def categorySales (db : Db) (menu : Menu) (fromDay toDay : Option ℤ) :
    Except ApiError CategoryReport := do
  let w ← window fromDay toDay
  pure ⟨w, categoryRows menu (itemsBetween db w)⟩

/-- `couponCodes`: the code an order redeemed. -/
def couponCode (db : Db) (orderId : Uuid) : Option String := do
  let r ← db.couponRedemptions.find? fun r => decide (r.orderId = orderId)
  let coupon ← db.coupons.find? fun c => decide (c.id = r.couponId)
  pure coupon.code

/-- The orders with a discount, newest first. -/
def discountRows (db : Db) (orders : List Order) : List DiscountRow :=
  ((orders.filter fun o => decide (0 < o.discountMinor)).insertionSort
    fun a b => b.createdAt ≤ a.createdAt).map fun o =>
      ⟨o.id, o.orderNumber, o.subtotalMinor, o.discountMinor, o.totalMinor, couponCode db o.id,
        o.createdAt⟩

/-- The discounts report of a window. -/
def discounts (db : Db) (fromDay toDay : Option ℤ) : Except ApiError DiscountsReport := do
  let w ← window fromDay toDay
  let rows := discountRows db (countedBetween db w.start w.finish)
  pure ⟨w, rows, rows.length, (rows.map (·.discountMinor)).sum⟩

/-! ## §4. What a report adds up to. -/

/-- **The days add up to the orders.** -/
theorem revenueSeries_total (orders : List Order) :
    ((revenueSeries orders).map (·.revenueMinor)).sum = (orders.map (·.totalMinor)).sum
      ∧ ((revenueSeries orders).map (·.orders)).sum = orders.length := by
  unfold revenueSeries
  rw [count_sum orders]
  constructor
  · refine sum_grouped (f := fun o : Order => o.totalMinor) ?_ _
    exact fun _ _ => rfl
  · refine sum_grouped (f := fun _ => 1) ?_ _
    exact fun _ => count_sum

theorem istHour_range (t : Instant) : 0 ≤ istHour t ∧ istHour t < 24 := by
  unfold istHour dayLength hourLength
  generalize t + istOffset = x
  omega

/-- The hours add up to the number of orders. -/
theorem peakHours_total (orders : List Order) :
    ((peakHours orders).map (·.orders)).sum = orders.length := by
  set byHour : Tally ℤ := grouped (fun o => istHour o.createdAt)
    (fun hour group => (hour, (group.length : ℤ))) (fun a b => a.1 ≤ b.1) orders with hbyHour
  have hkeys : byHour.keys.Perm (distinct (orders.map fun o => istHour o.createdAt)) :=
    Tally.grouped_keys orders
  -- no hour falls off the axis
  have hcover : ∀ k ∈ byHour.keys, k ∈ (List.range 24).map fun hour : ℕ => (hour : ℤ) := by
    intro k hk
    obtain ⟨o, -, rfl⟩ := List.mem_map.mp (mem_distinct.mp (hkeys.mem_iff.mp hk))
    obtain ⟨hle, hlt⟩ := istHour_range o.createdAt
    exact List.mem_map.mpr ⟨(istHour o.createdAt).toNat, List.mem_range.mpr (by omega), by omega⟩
  have hnodup : ((List.range 24).map fun hour : ℕ => (hour : ℤ)).Nodup := by decide
  have hspread := Tally.sum_get (hkeys.nodup_iff.mpr (distinct_nodup _)) hnodup hcover
  rw [List.map_map] at hspread
  have hrows : (byHour.map Prod.snd).sum = orders.length := by
    rw [count_sum orders]
    refine sum_grouped (f := fun _ => 1) ?_ _
    exact fun _ => count_sum
  have hbuckets : (peakHours orders).map (·.orders)
      = (List.range 24).map (byHour.get ∘ fun hour : ℕ => (hour : ℤ)) := by
    unfold peakHours
    rw [List.map_map]
    rfl
  rw [hbuckets, hspread, hrows]

/-- **The products add up to the lines.** -/
theorem soldByName_total (items : List OrderItem) :
    ((soldByName items).map (·.revenueMinor)).sum = revenueOf items
      ∧ ((soldByName items).map (·.quantity)).sum = quantityOf items := by
  unfold soldByName
  constructor
  · refine sum_grouped (f := fun i : OrderItem => i.lineTotalMinor) ?_ _
    exact fun _ _ => rfl
  · refine sum_grouped (f := fun i : OrderItem => i.quantity) ?_ _
    exact fun _ _ => rfl

/-- **The tax rates add up to the lines.** -/
theorem gstRows_total (items : List OrderItem) :
    ((gstRows items).map (·.taxableMinor)).sum = revenueOf items
      ∧ ((gstRows items).map (·.taxMinor)).sum = taxTotal items := by
  unfold gstRows
  constructor
  · refine sum_grouped (f := fun i : OrderItem => i.lineTotalMinor) ?_ _
    exact fun _ _ => rfl
  · refine sum_grouped (f := fun i : OrderItem => i.taxMinor) ?_ _
    exact fun _ _ => rfl

/-- The two joins are on primary keys: every line is there once. -/
theorem withCategory_fst (menu : Menu) (items : List OrderItem) :
    (withCategory menu items).map (·.1.1) = items := by
  have hcategories : (withCategory menu items).map Prod.fst
      = leftJoin (fun i p => decide (some p.productId = i.productId)) items menu.products := by
    apply leftJoin_fst
    intro l
    exact filter_key_length menu.categories_pkey _
  have hproducts : (leftJoin (fun i p => decide (some p.productId = i.productId)) items
      menu.products).map Prod.fst = items := by
    apply leftJoin_fst
    intro i
    exact filter_key_length menu.products_pkey i.productId
  rw [← hcategories, List.map_map] at hproducts
  exact hproducts

/-- **The categories add up to the lines.** -/
theorem categoryRows_total (menu : Menu) (items : List OrderItem) :
    ((categoryRows menu items).map (·.revenueMinor)).sum = revenueOf items
      ∧ ((categoryRows menu items).map (·.quantity)).sum = quantityOf items := by
  have hlines := withCategory_fst menu items
  have hrevenue := congrArg revenueOf hlines
  have hquantity := congrArg quantityOf hlines
  unfold revenueOf at hrevenue
  unfold quantityOf at hquantity
  rw [List.map_map] at hrevenue hquantity
  unfold categoryRows
  constructor
  · refine (sum_grouped (f := fun l => l.1.1.lineTotalMinor) ?_ _).trans hrevenue
    intro _ group
    unfold revenueOf
    rw [List.map_map]
    rfl
  · refine (sum_grouped (f := fun l => l.1.1.quantity) ?_ _).trans hquantity
    intro _ group
    unfold quantityOf
    rw [List.map_map]
    rfl

/-- No discount is negative, so the discounted orders have all of them. -/
theorem discountRows_total (db : Db) (orders : List Order) :
    ((discountRows db orders).map (·.discountMinor)).sum
      = (orders.map (·.discountMinor)).sum := by
  unfold discountRows
  rw [List.map_map]
  refine ((List.perm_insertionSort _ _).map _).sum_eq.trans ?_
  exact sum_positive fun o _ => o.amounts_nonneg.2.1

end OraOS.Reports
