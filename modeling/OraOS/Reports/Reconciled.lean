/-
  OraOS.Reports.Reconciled — do the sales reports agree with each other?

  Each sums a snapshot of its own: the order's total, the lines by rate, by name, by
  category, the discounts.  They agree because an order's columns are the sums of its
  lines, from its creation on.

    * `serial_tallied`    — the columns of every order are the sums of its lines;
    * `reports_reconcile` — in every reachable state, over every window, the reports
                            agree.
-/
import OraOS.Reports.Sales

namespace OraOS.Reports

open OraOS.Api
open OraOS.Lib
open OraOS.Orders

/-! ## §1. An order and its lines. -/

/-- The columns of an order are the sums of its lines. -/
structure Tallied (o : Order) : Prop where
  subtotal : o.subtotalMinor = revenueOf o.items
  tax : o.taxMinor = taxTotal o.items

/-- A new order's total is made of its lines. -/
theorem insertOrder_tallied {db : Db} {env : Env} {dto : CreateOrderDto} {p : PricedOrder}
    {o : Order} (h : insertOrder db env dto p = .ok o) : Tallied o := by
  have hlines : o.items.map (·.toNewOrderItem) = p.lines := (insertOrder_ok h).items
  unfold insertOrder at h
  dsimp only at h
  split at h
  next =>
    split at h
    next =>
      split at h
      next =>
        simp only [bind_ok, require_ok] at h
        obtain ⟨-, -, -, -, -, -, items, -, h⟩ := h
        -- both totals of the row are summed over the lines it is given
        cases pure_ok.mp h
        constructor
        · show subtotalOf p.lines = revenueOf items
          rw [← hlines]
          unfold subtotalOf revenueOf
          rw [List.map_map]
          rfl
        · show taxOf p.lines = taxTotal items
          rw [← hlines]
          unfold taxOf taxTotal
          rw [List.map_map]
          rfl
      next => cases h
    next => cases h
  next => cases h

theorem insert_tallied {db db' : Db} {ctx : TenantContext} {env : Env} {dto : CreateOrderDto}
    {o : Order} (h : insert db ctx env dto = .ok (o, db')) : Tallied o := by
  obtain ⟨p, -, ho⟩ := insert_priced h
  exact insertOrder_tallied ho

/-- **The columns of every order** are the sums of its lines. -/
theorem serial_tallied {s : Server} (h : serial.Reachable s) : ∀ o ∈ s.db.orders, Tallied o := by
  refine serial_forall_orders insert_tallied ?_ h
  intro x o hitems hsubtotal htax hx
  constructor
  · rw [hsubtotal, hitems]
    exact hx.subtotal
  · rw [htax, hitems]
    exact hx.tax

/-! ## §2. The reports. -/

/-- What the orders that count come to is what their lines come to, less the discounts. -/
theorem revenue_identity {orders : List Order} (h : ∀ o ∈ orders, Tallied o) :
    (orders.map (·.totalMinor)).sum = revenueOf (orders.flatMap (·.items))
      + taxTotal (orders.flatMap (·.items)) - (orders.map (·.discountMinor)).sum := by
  have hrevenue := sum_parts (fun o : Order => o.items) (fun i => i.lineTotalMinor) orders
  have htax := sum_parts (fun o : Order => o.items) (fun i => i.taxMinor) orders
  unfold revenueOf taxTotal
  rw [hrevenue, htax]
  clear hrevenue htax
  -- order by order, by the identity of each
  induction orders with
  | nil => rfl
  | cons o orders ih =>
      have ho := h o List.mem_cons_self
      have hsubtotal : o.subtotalMinor = (o.items.map (·.lineTotalMinor)).sum := ho.subtotal
      have htax : o.taxMinor = (o.items.map (·.taxMinor)).sum := ho.tax
      have hrest := ih fun x hx => h x (List.mem_cons_of_mem o hx)
      have htotal := o.total_adds_up
      simp only [List.map_cons, List.sum_cons]
      omega

/-- The reports over one window agree: on the money, on the quantities, and on how many
orders there were. -/
structure Reconcile (counted : List Order) (overview : Overview) (gst : GstReport)
    (items : ItemReport) (categories : CategoryReport) (discounts : DiscountsReport) :
    Prop where
  revenue : overview.summary.revenueMinor
    = gst.totalTaxableMinor + gst.totalTaxMinor - discounts.totalDiscountMinor
  itemRevenue : (items.rows.map (·.revenueMinor)).sum = gst.totalTaxableMinor
  categoryRevenue : (categories.rows.map (·.revenueMinor)).sum = gst.totalTaxableMinor
  itemsSold : overview.summary.itemsSold = (counted.map fun o => quantityOf o.items).sum
  itemsSold_rows : overview.summary.itemsSold = (items.rows.map (·.quantity)).sum
    ∧ overview.summary.itemsSold = (categories.rows.map (·.quantity)).sum
  orders : overview.summary.orders = counted.length
  seriesRevenue : (overview.revenueSeries.map (·.revenueMinor)).sum
    = overview.summary.revenueMinor
  seriesOrders : (overview.revenueSeries.map (·.orders)).sum = overview.summary.orders
  hours : overview.peakHours.map (·.hour) = (List.range 24).map fun hour => (hour : ℤ)
  hourOrders : (overview.peakHours.map (·.orders)).sum = overview.summary.orders

/-- **The reports reconcile**, in every reachable state, over every window of IST days, and
whatever the menu has become since. -/
theorem reports_reconcile {s : Server} (h : serial.Reachable s) (menu : Menu)
    {fromDay toDay : Option ℤ} {w : Window} (hw : window fromDay toDay = .ok w) :
    ∃ overview gstReport items categories discountsReport,
      sales s.db fromDay toDay = .ok overview ∧ gst s.db fromDay toDay = .ok gstReport
        ∧ itemSales s.db fromDay toDay = .ok items
        ∧ categorySales s.db menu fromDay toDay = .ok categories
        ∧ discounts s.db fromDay toDay = .ok discountsReport
        ∧ Reconcile (countedBetween s.db w.start w.finish) overview gstReport items categories
          discountsReport := by
  -- the five reports read the same orders
  set counted := countedBetween s.db w.start w.finish with hcounted
  have htallied : ∀ o ∈ counted, Tallied o := by
    intro o ho
    exact serial_tallied h o (List.mem_of_mem_filter ho)
  have hgst := gstRows_total (itemsBetween s.db w)
  have hitems := soldByName_total (itemsBetween s.db w)
  have hcategories := categoryRows_total menu (itemsBetween s.db w)
  have hseries := revenueSeries_total counted
  unfold sales gst itemSales categorySales discounts
  rw [hw]
  refine ⟨_, _, _, _, _, rfl, rfl, rfl, rfl, rfl, ?_⟩
  constructor
  · show (counted.map (·.totalMinor)).sum = _
    rw [revenue_identity htallied, hgst.1, hgst.2, discountRows_total]
    rfl
  · exact hitems.1.trans hgst.1.symm
  · exact hcategories.1.trans hgst.1.symm
  · exact sum_parts (fun o : Order => o.items) (fun i => i.quantity) counted
  · exact ⟨hitems.2.symm, hcategories.2.symm⟩
  · rfl
  · exact hseries.1
  · exact hseries.2
  · show (peakHours counted).map (·.hour) = _
    unfold peakHours
    rw [List.map_map]
    rfl
  · exact peakHours_total counted

/-- Who may give discounts and void. -/
def dayManager : TenantContext := ⟨10, 11, 12, [.orderDiscount, .orderVoid]⟩

/-- A combo with ₹3 off. -/
def comboForLess : CreateOrderDto :=
  { orderOf (oneOf none (some 2)) none none none with
    manualDiscountMinor := some 300
    manualDiscount_ok := by decide }

/-- A lassi sold at nine, a combo for less at ten, and another lassi that is called off. -/
def lassiDay : List Request :=
  [.create cashier ⟨20, 12600000⟩ (lassiOrder none none none),
    .create dayManager ⟨21, 16200000⟩ comboForLess,
    .create cashier ⟨22, 16200000⟩ (lassiOrder none none none),
    .updateStatus dayManager 16300000 22 .voided none]

/-- A day with a sale, a discount and a void, in every report. -/
theorem reports_reconcile_lassiDay :
    ∃ overview gstReport discountsReport,
      sales (after lassiDay openBar).db (some 0) (some 0) = .ok overview
      ∧ gst (after lassiDay openBar).db (some 0) (some 0) = .ok gstReport
      ∧ discounts (after lassiDay openBar).db (some 0) (some 0) = .ok discountsReport
      ∧ overview.summary.orders = 2
      ∧ gstReport.totalTaxableMinor + gstReport.totalTaxMinor
        - discountsReport.totalDiscountMinor = 2640 := by
  have hw : window (some 0) (some 0) = .ok ⟨-19800000, 66599999⟩ := rfl
  have hrevenue : (sales (after lassiDay openBar).db (some 0) (some 0)).map
      (·.summary.revenueMinor) = .ok 2640 := by rfl
  have hday : serial.Reachable (after lassiDay openBar) := after_reachable openBar_opening rfl
  obtain ⟨overview, gstReport, _, _, discountsReport, hsales, hgst, _, _, hdiscounts,
    hreconcile⟩ := reports_reconcile hday ⟨[], [], List.nodup_nil, List.nodup_nil⟩ hw
  refine ⟨overview, gstReport, discountsReport, hsales, hgst, hdiscounts, ?_, ?_⟩
  · rw [hreconcile.orders]
    rfl
  · rw [hsales] at hrevenue
    rw [← hreconcile.revenue]
    exact Except.ok.inj hrevenue

end OraOS.Reports
