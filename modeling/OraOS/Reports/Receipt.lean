/-
  OraOS.Reports.Receipt — does the printed bill add up?

  The server rounds the tax line by line and stores the sum.  The receipt groups the lines by
  rate, drops the groups that have no tax and splits each of the others in two, so what it
  prints comes to the stored tax if no line without a rate has any.

    * `serial_taxed`      — the tax of every line is its share of the line, rounded;
    * `taxGroups_total`   — the halves printed come to the stored tax;
    * `printed_bill_adds` — so every bill the server can be asked for adds up.
-/
import OraOS.Orders.RowsFit
import OraOS.Reports.Reconciled

namespace OraOS.Reports

open OraOS.Api
open OraOS.Lib
open OraOS.Orders

/-! ## §1. `taxGroups`. -/

/-- What a rate has come to. -/
structure RateSum where
  taxable : ℤ
  tax : ℤ
  deriving DecidableEq, Repr

/-- A group as it is printed; `halfRate` is in percent. -/
structure TaxGroup where
  rate : ℤ
  taxable : ℤ
  cgst : ℤ
  sgst : ℤ
  halfRate : ℚ
  deriving DecidableEq, Repr

/-- The body of the loop.  A `Map` has its keys in the order they came in. -/
def addItem : List (ℤ × RateSum) → OrderItem → List (ℤ × RateSum)
  | [], i => [(i.taxRateBp, ⟨i.lineTotalMinor, i.taxMinor⟩)]
  | (rate, g) :: byRate, i =>
      if rate = i.taxRateBp then
        (rate, ⟨g.taxable + i.lineTotalMinor, g.tax + i.taxMinor⟩) :: byRate
      else (rate, g) :: addItem byRate i

/-- Half each, the odd paisa on SGST. -/
def splitTax (e : ℤ × RateSum) : TaxGroup :=
  let cgst := e.2.tax / 2
  { rate := e.1, taxable := e.2.taxable, cgst, sgst := e.2.tax - cgst, halfRate := e.1 / 200 }

/-- `taxGroups`. -/
def taxGroups (o : Order) : List TaxGroup :=
  let byRate := o.items.foldl addItem []
  ((byRate.filter fun e => decide (0 < e.1) && decide (0 < e.2.tax)).insertionSort
    fun a b => a.1 ≤ b.1).map splitTax

/-! ## §2. What the groups come to. -/

/-- An item's tax is added to its group. -/
theorem sum_addItem (byRate : List (ℤ × RateSum)) (i : OrderItem) :
    ((addItem byRate i).map (·.2.tax)).sum = (byRate.map (·.2.tax)).sum + i.taxMinor := by
  induction byRate with
  | nil => simp [addItem]
  | cons e byRate ih =>
      obtain ⟨rate, g⟩ := e
      unfold addItem
      split_ifs
      · simp only [List.map_cons, List.sum_cons]
        omega
      · simp only [List.map_cons, List.sum_cons, ih]
        omega

/-- The loop conserves the tax. -/
theorem sum_byRate (items : List OrderItem) (byRate : List (ℤ × RateSum)) :
    ((items.foldl addItem byRate).map (·.2.tax)).sum
      = (byRate.map (·.2.tax)).sum + taxTotal items := by
  induction items generalizing byRate with
  | nil => exact (add_zero _).symm
  | cons i items ih =>
      rw [List.foldl_cons, ih, sum_addItem, add_assoc]
      rfl

/-- A group whose filter drops nothing. -/
def GroupOk (e : ℤ × RateSum) : Prop := 0 ≤ e.1 ∧ 0 ≤ e.2.tax ∧ (e.1 = 0 → e.2.tax = 0)

/-- And an item of such a group. -/
def ItemTaxed (i : OrderItem) : Prop := i.taxMinor = lineTax i.lineTotalMinor i.taxRateBp

/-- No rate is no tax. -/
theorem lineTax_zero (lineTotalMinor : ℤ) : lineTax lineTotalMinor 0 = 0 := by
  unfold lineTax
  rw [mul_zero]
  decide

/-- The tax of an item is not negative, and none at rate zero. -/
theorem groupOk_item {i : OrderItem} (hi : ItemTaxed i) :
    0 ≤ i.taxRateBp ∧ 0 ≤ i.taxMinor ∧ (i.taxRateBp = 0 → i.taxMinor = 0) := by
  refine ⟨i.amounts_valid.2.2.1, i.amounts_valid.2.1, fun hzero => ?_⟩
  rw [hi, hzero, lineTax_zero]

/-- An item keeps every group in order. -/
theorem groupOk_addItem {byRate : List (ℤ × RateSum)} (h : ∀ e ∈ byRate, GroupOk e)
    {i : OrderItem} (hi : ItemTaxed i) : ∀ e ∈ addItem byRate i, GroupOk e := by
  obtain ⟨hrate, htax, hzero⟩ := groupOk_item hi
  induction byRate with
  | nil =>
      show ∀ e ∈ [_], GroupOk e
      rw [List.forall_mem_singleton]
      exact ⟨hrate, htax, hzero⟩
  | cons e byRate ih =>
      obtain ⟨rate, g⟩ := e
      obtain ⟨he, hrest⟩ := List.forall_mem_cons.mp h
      unfold addItem
      split_ifs with hsame
      -- an item of the rate adds to its group, and keeps a zero rate untaxed
      · subst hsame
        refine List.forall_mem_cons.mpr ⟨⟨he.1, add_nonneg he.2.1 htax, fun h0 => ?_⟩, hrest⟩
        show g.tax + i.taxMinor = 0
        rw [he.2.2 h0, hzero h0, add_zero]
      · exact List.forall_mem_cons.mpr ⟨he, ih hrest⟩

theorem groupOk_byRate {items : List OrderItem} (h : ∀ i ∈ items, ItemTaxed i)
    {byRate : List (ℤ × RateSum)} (hbyRate : ∀ e ∈ byRate, GroupOk e) :
    ∀ e ∈ items.foldl addItem byRate, GroupOk e := by
  induction items generalizing byRate with
  | nil => exact hbyRate
  | cons i items ih =>
      obtain ⟨hi, hitems⟩ := List.forall_mem_cons.mp h
      exact ih hitems (groupOk_addItem hbyRate hi)

/-- **What is dropped has no tax.** -/
theorem sum_printed {byRate : List (ℤ × RateSum)} (h : ∀ e ∈ byRate, GroupOk e) :
    ((byRate.filter fun e => decide (0 < e.1) && decide (0 < e.2.tax)).map (·.2.tax)).sum
      = (byRate.map (·.2.tax)).sum := by
  induction byRate with
  | nil => rfl
  | cons e byRate ih =>
      obtain ⟨⟨hrate, htax, hzero⟩, hrest⟩ := List.forall_mem_cons.mp h
      rw [List.map_cons, List.sum_cons]
      by_cases hprinted : 0 < e.1 ∧ 0 < e.2.tax
      · rw [List.filter_cons_of_pos (by simp [hprinted]), List.map_cons, List.sum_cons, ih hrest]
      · rw [List.filter_cons_of_neg (by simpa using hprinted), ih hrest]
        -- what is not printed has no tax: its rate or its tax is zero
        have hnone : e.2.tax = 0 := by
          rcases eq_or_lt_of_le hrate with h0 | hpos
          · exact hzero h0.symm
          · omega
        rw [hnone, zero_add]

/-- **The halves printed** come to the stored tax. -/
theorem taxGroups_total {o : Order} (htallied : Tallied o) (htaxed : ∀ i ∈ o.items, ItemTaxed i) :
    ((taxGroups o).map fun g => g.cgst + g.sgst).sum = o.taxMinor := by
  -- the two halves of an odd tax differ by a paisa and still add up to it
  have hhalves : (fun g : TaxGroup => g.cgst + g.sgst) ∘ splitTax = fun e => e.2.tax := by
    funext e
    show e.2.tax / 2 + (e.2.tax - e.2.tax / 2) = e.2.tax
    omega
  unfold taxGroups
  dsimp only
  rw [List.map_map, hhalves, ((List.perm_insertionSort _ _).map _).sum_eq,
    sum_printed (groupOk_byRate htaxed (List.forall_mem_nil _)), sum_byRate, htallied.tax]
  exact zero_add _

/-- The halves of a rate differ by a paisa at most. -/
theorem splitTax_close (e : ℤ × RateSum) : |(splitTax e).cgst - (splitTax e).sgst| ≤ 1 := by
  show |e.2.tax / 2 - (e.2.tax - e.2.tax / 2)| ≤ 1
  rw [abs_le]
  omega

/-! ## §3. The bills of the server. -/

/-- A priced line is taxed at its rate. -/
theorem lines_taxed {db : Db} {items : List OrderItemDto} {lines : List NewOrderItem}
    (h : List.Forall₂ (fun item l => priceLine db item = .ok l) items lines) :
    ∀ l ∈ lines, l.taxMinor = lineTax l.lineTotalMinor l.taxRateBp := by
  induction h with
  | nil => exact List.forall_mem_nil _
  | cons hl _ ih =>
      have hamounts := priceLine_amountsOf hl
      refine List.forall_mem_cons.mpr ⟨?_, ih⟩
      rw [hamounts.tax, hamounts.lineTotal, hamounts.taxRate]

/-- **The tax of every line** is its share of the line, rounded. -/
theorem insert_taxed {db db' : Db} {ctx : TenantContext} {env : Env} {dto : CreateOrderDto}
    {o : Order} (h : insert db ctx env dto = .ok (o, db')) : ∀ i ∈ o.items, ItemTaxed i := by
  obtain ⟨p, hp, ho⟩ := insert_priced h
  intro i hi
  -- a stored item is a line as it was priced
  have hmem : i.toNewOrderItem ∈ p.lines := by
    rw [← (insertOrder_ok ho).items]
    exact List.mem_map_of_mem hi
  exact lines_taxed hp.lines _ hmem

/-- **So is every line of every order there is.** -/
theorem serial_taxed {s : Server} (h : serial.Reachable s) :
    ∀ o ∈ s.db.orders, ∀ i ∈ o.items, ItemTaxed i :=
  serial_forall_orders insert_taxed (fun hitems _ _ hx => hitems ▸ hx) h

/-- The amounts of the bill: the halves come to the tax, and with them the bill to its total. -/
structure BillAdds (o : Order) : Prop where
  tax : ((taxGroups o).map fun g => g.cgst + g.sgst).sum = o.taxMinor
  total : o.subtotalMinor - o.discountMinor
    + ((taxGroups o).map fun g => g.cgst + g.sgst).sum = o.totalMinor
  halves : ∀ g ∈ taxGroups o, |g.cgst - g.sgst| ≤ 1

/-- **A bill of such lines adds up.** -/
theorem billAdds_of {o : Order} (htallied : Tallied o) (htaxed : ∀ i ∈ o.items, ItemTaxed i) :
    BillAdds o where
  tax := taxGroups_total htallied htaxed
  total := by
    rw [taxGroups_total htallied htaxed, o.total_adds_up]
  halves := by
    intro g hg
    obtain ⟨e, -, rfl⟩ := List.mem_map.mp hg
    exact splitTax_close e

/-- **Every printed bill adds up**: of an order as it is created, whatever the menu and the
request, and of every order that is stored after any run of requests. -/
theorem printed_bill_adds :
    (∀ {db db' : Db} {ctx : TenantContext} {env : Env} {dto : CreateOrderDto} {o : Order},
        insert db ctx env dto = .ok (o, db') → BillAdds o)
      ∧ ∀ {s : Server}, serial.Reachable s → ∀ o ∈ s.db.orders, BillAdds o :=
  ⟨fun h => billAdds_of (insert_tallied h) (insert_taxed h),
    fun h o ho => billAdds_of (serial_tallied h o ho) (serial_taxed h o ho)⟩

theorem kulfi_price : (0 : ℤ) ≤ 1050 ∧ (0 : ℤ) ≤ 1800 ∧ (1800 : ℤ) ≤ 10000 := by decide

/-- Lassis at 5%, and kulfis at 18%. -/
def dessertBar : Server :=
  ⟨{ lassiBar with products := lassiBar.products ++ [⟨6, "Kulfi", 1050, 1800, true, kulfi_price⟩] },
    []⟩

theorem dessertBar_opening : Opening dessertBar :=
  ⟨rfl, rfl, rfl, rfl, List.forall_mem_nil _, List.forall_mem_nil _, rfl⟩

theorem twoLines : 1 ≤ [oneOf (some 6) none, oneOf (some 1) none].length
    ∧ [oneOf (some 6) none, oneOf (some 1) none].length ≤ 100 := by decide

/-- One of each. -/
def dessertOrder : CreateOrderDto :=
  { lassiOrder none none none with
    items := [oneOf (some 6) none, oneOf (some 1) none]
    items_ok := twoLines }

/-- The bill of one of each, with the odd paisa of the kulfi on SGST, and a lassi by itself. -/
theorem printed_bill_desserts :
    (∃ o db', insert dessertBar.db cashier ⟨20, 0⟩ dessertOrder = .ok (o, db') ∧ BillAdds o)
      ∧ ∃ s : Server, serial.Reachable s ∧ (∀ o ∈ s.db.orders, BillAdds o)
        ∧ s.db.orders.map (fun o => (taxGroups o).map fun g => (g.rate, g.cgst, g.sgst))
          = [[(500, 25, 25), (1800, 94, 95)], [(500, 25, 25)]] := by
  have hday : serial.Reachable (after [.create cashier ⟨20, 0⟩ dessertOrder,
      .create cashier ⟨21, 1⟩ (lassiOrder none none none)] dessertBar) :=
    after_reachable dessertBar_opening rfl
  obtain ⟨⟨o, db'⟩, hinserted⟩ : ∃ x, insert dessertBar.db cashier ⟨20, 0⟩ dessertOrder = .ok x :=
    ⟨_, rfl⟩
  exact ⟨⟨o, db', hinserted, printed_bill_adds.1 hinserted⟩, _, hday, printed_bill_adds.2 hday,
    by decide⟩

end OraOS.Reports
