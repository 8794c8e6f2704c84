/-
  OraOS.Orders.Charge — what the till shows, and what the server charges.

  The till adds up its own copies of the menu: the button shows the total less a preview of
  the discount, the change is worked out from the total without it.

    * `shown_line`          — a line costs at the till what the server makes of it;
    * `chargeTotal_eq`      — the button, when the preview is worth what the server gives;
    * `till_shows_charged`  — when both figures are the total of the order.
-/
import OraOS.Orders.RowsFit
import OraOS.Orders.Cart

namespace OraOS.Orders

open OraOS.Api
open OraOS.Lib
open OraOS.Loyalty

/-! ## §1. What the till shows. -/

/-- What a line sells, with the copies of the menu the line was made from. -/
inductive ShownSpec where
  | product (product : Product) (modifiers : List ModifierSnapshotEntry)
  | combo (combo : Combo)

/-- A line as the screen shows it. -/
structure ShownLine where
  lineId : Uuid
  quantity : ℤ
  notes : String
  spec : ShownSpec

/-- Per-unit price: a combo's own price, or a product plus its modifiers. -/
def lineUnitMinor : ShownSpec → ℤ
  | .combo combo => combo.priceMinor
  | .product product modifiers =>
      product.priceMinor + (modifiers.map (·.priceAdjustMinor)).sum

/-- The tax rate of a line, of the product or of the combo. -/
def lineTaxRateBp : ShownSpec → ℤ
  | .combo combo => combo.taxRateBp
  | .product product _ => product.taxRateBp

/-- What a line is sent as. -/
def ShownSpec.lineSpec : ShownSpec → LineSpec
  | .combo c => .combo c.id
  | .product p modifiers => .product p.id (modifiers.map (·.optionId))

/-- The line as a request sends it. -/
def ShownLine.cartLine (l : ShownLine) : CartLine := ⟨l.lineId, l.quantity, l.notes, l.spec.lineSpec⟩

/-- `subtotal` -/
def shownSubtotal (cart : List ShownLine) : ℤ :=
  (cart.map fun l => lineUnitMinor l.spec * l.quantity).sum

/-- `tax` -/
def shownTax (cart : List ShownLine) : ℤ :=
  (cart.map fun l =>
    roundDiv (lineUnitMinor l.spec * l.quantity * lineTaxRateBp l.spec) 10000).sum

/-- What the till knows of the programme, for the customer attached. -/
structure RedeemInfo where
  redeemPoints : ℤ
  redeemAmountMinor : ℤ

/-- `redeemDiscount` -/
def redeemDiscount (redeemInfo : Option RedeemInfo) (redeemPts : ℤ) : ℤ :=
  match redeemInfo with
  | some info => if 0 < redeemPts then redeemPts / info.redeemPoints * info.redeemAmountMinor else 0
  | none => 0

/-- `previewDiscount` -/
def previewDiscount (form : Form) (redeemInfo : Option RedeemInfo) (subtotal : ℤ) : ℤ :=
  let manualMinor := form.discount.getD 0
  let clampedDiscount := min manualMinor subtotal
  let redeemPts := max 0 form.redeem
  if 0 < redeemPts then redeemDiscount redeemInfo redeemPts else clampedDiscount

/-- The total on the button. -/
def chargeTotal (cart : List ShownLine) (form : Form) (redeemInfo : Option RedeemInfo) : ℤ :=
  max 0 (shownSubtotal cart + shownTax cart - previewDiscount form redeemInfo (shownSubtotal cart))

/-- The total that the change is worked out from, where the till takes cash. -/
def cashTotal (cart : List ShownLine) (form : Form) : Option ℤ :=
  if form.method = some .cash then some (shownSubtotal cart + shownTax cart) else none

/-- The copies are what the catalogue has. -/
def OnMenu (db : Db) : ShownSpec → Prop
  | .combo combo => findCombo db combo.id = some combo
  | .product product modifiers => findProduct db product.id = some product
      ∧ ∀ m ∈ modifiers, ∃ g ∈ groupsOf db product.id, ∃ o ∈ g.options,
          m = ⟨o.id, g.name, o.name, o.priceAdjustMinor⟩

/-! ## §2. A line. -/

theorem mem_modifierSnapshot {groups : List ModifierGroup} {selected : List Uuid}
    {e : ModifierSnapshotEntry} :
    e ∈ modifierSnapshot groups selected ↔ ∃ g ∈ groups, ∃ o ∈ g.options,
      o.id ∈ selected ∧ e = ⟨o.id, g.name, o.name, o.priceAdjustMinor⟩ := by
  unfold modifierSnapshot
  constructor
  · intro he
    obtain ⟨g, hg, he⟩ := List.mem_flatMap.mp he
    obtain ⟨o, ho, rfl⟩ := List.mem_map.mp he
    obtain ⟨hmem, hselected⟩ := List.mem_filter.mp ho
    exact ⟨g, hg, o, hmem, List.contains_iff_mem.mp hselected, rfl⟩
  · rintro ⟨g, hg, o, ho, hselected, rfl⟩
    exact List.mem_flatMap.mpr ⟨g, hg, List.mem_map.mpr ⟨o,
      List.mem_filter.mpr ⟨ho, List.contains_iff_mem.mpr hselected⟩, rfl⟩⟩

/-- **The server's snapshot of a selection is the till's**, in another order. -/
theorem shown_modifiers {groups : List ModifierGroup} (hkeys : (groups.flatMap optionIds).Nodup)
    {modifiers : List ModifierSnapshotEntry}
    (hmenu : ∀ m ∈ modifiers, ∃ g ∈ groups, ∃ o ∈ g.options,
      m = ⟨o.id, g.name, o.name, o.priceAdjustMinor⟩)
    (hnodup : (modifiers.map (·.optionId)).Nodup) :
    (modifierSnapshot groups (modifiers.map (·.optionId))).Perm modifiers := by
  have hsnapshot : (modifierSnapshot groups (modifiers.map (·.optionId))).Nodup := by
    refine List.Nodup.of_map (·.optionId) ?_
    rw [modifierSnapshot_ids]
    exact hkeys.filter _
  refine (List.perm_ext_iff_of_nodup hsnapshot (List.Nodup.of_map _ hnodup)).mpr ?_
  intro e
  rw [mem_modifierSnapshot]
  constructor
  · -- an id belongs to one option of one group
    rintro ⟨g, hg, o, ho, hselected, rfl⟩
    obtain ⟨m, hm, hid⟩ := List.mem_map.mp hselected
    obtain ⟨g', hg', o', ho', rfl⟩ := hmenu m hm
    have hoid : o'.id = o.id := hid
    have hgroup : g' = g := group_of_option hkeys hg' hg (List.mem_map_of_mem ho')
      (hoid ▸ List.mem_map_of_mem ho)
    subst hgroup
    have hids : (optionIds g').Nodup := (List.nodup_flatMap.mp hkeys).1 g' hg'
    rw [← List.inj_on_of_nodup_map hids ho' ho hoid]
    exact hm
  · intro he
    obtain ⟨g, hg, o, ho, rfl⟩ := hmenu e he
    exact ⟨g, hg, o, ho, List.mem_map_of_mem (f := (·.optionId)) he, rfl⟩

/-- **A line costs at the till what the server makes of it.** -/
theorem shown_line {db : Db} (hkeys : OptionKeys db) {l : ShownLine} {i : OrderItemDto}
    {n : NewOrderItem} (hmenu : OnMenu db l.spec) (hi : l.cartLine.item = .ok i)
    (hn : priceLine db i = .ok n) :
    unitPriceOf db i = lineUnitMinor l.spec ∧ taxRateOf db i = lineTaxRateBp l.spec
      ∧ i.quantity = l.quantity := by
  obtain ⟨hquantity, hspec⟩ := item_ok hi
  cases hs : l.spec with
  | combo combo =>
      rw [hs] at hmenu
      have hcombo : i.comboId = some combo.id := by
        simpa [ShownLine.cartLine, hs, ShownSpec.lineSpec] using hspec
      have hfind : findCombo db combo.id = some combo := hmenu
      refine ⟨?_, ?_, hquantity⟩
      · simp [unitPriceOf, hcombo, hfind, lineUnitMinor]
      · simp [taxRateOf, hcombo, hfind, lineTaxRateBp]
  | product product modifiers =>
      rw [hs] at hmenu
      obtain ⟨hfind, hmodifiers⟩ := hmenu
      obtain ⟨hproduct, hcombo, hids⟩ : i.productId = some product.id ∧ i.comboId = none
          ∧ i.modifierOptionIds.getD [] = modifiers.map (·.optionId) := by
        simpa [ShownLine.cartLine, hs, ShownSpec.lineSpec] using hspec
      -- the server has refused a selection with an id twice
      have hnodup : (modifiers.map (·.optionId)).Nodup := by
        cases priceLine_priced hn with
        | combo hid =>
            rw [hcombo] at hid
            cases hid
        | product _ _ _ hselection =>
            rw [hids] at hselection
            exact (resolveModifierSelection_ok.mp hselection).1
      have hsum := ((shown_modifiers (groupsOf_keys hkeys product.id) hmodifiers hnodup).map
        (·.priceAdjustMinor)).sum_eq
      refine ⟨?_, ?_, hquantity⟩
      · simp [unitPriceOf, hcombo, hproduct, hfind, hids, hsum, lineUnitMinor]
      · simp [taxRateOf, hcombo, hproduct, hfind, lineTaxRateBp]

/-! ## §3. The order. -/

/-- The amounts of an inserted order passed the checks of its columns. -/
theorem insertOrder_amounts {db : Db} {env : Env} {dto : CreateOrderDto} {p : PricedOrder}
    {o : Order} (h : insertOrder db env dto p = .ok o) :
    0 ≤ subtotalOf p.lines ∧ p.discount.discountMinor ≤ subtotalOf p.lines ∧ 0 ≤ o.totalMinor
      ∧ o.totalMinor = subtotalOf p.lines - p.discount.discountMinor + taxOf p.lines := by
  unfold insertOrder at h
  dsimp only at h
  split at h
  next =>
    split at h
    next hnonneg =>
      split at h
      next hwithin =>
        simp only [bind_ok] at h
        obtain ⟨-, -, -, -, -, -, items, -, h⟩ := h
        -- the row is written once every check has passed
        cases pure_ok.mp h
        exact ⟨hnonneg.1, hwithin, hnonneg.2.2.2, rfl⟩
      next => cases h
    next => cases h
  next => cases h

/-- The sums of the till are the server's. -/
theorem shown_sums {db : Db} (hkeys : OptionKeys db) {cart : List ShownLine}
    {items : List OrderItemDto} {lines : List NewOrderItem} (hmenu : ∀ l ∈ cart, OnMenu db l.spec)
    (hitems : List.Forall₂ (fun l i => l.cartLine.item = .ok i) cart items)
    (hpriced : List.Forall₂ (fun i n => priceLine db i = .ok n) items lines) :
    shownSubtotal cart = billedOf db items ∧ shownTax cart = taxedOf db items := by
  unfold shownSubtotal shownTax billedOf taxedOf
  induction hitems generalizing lines with
  | nil => exact ⟨rfl, rfl⟩
  | @cons l i cart items hi _ ih =>
      obtain _ | ⟨hn, hrest⟩ := hpriced
      obtain ⟨hsub, htax⟩ := ih (fun x hx => hmenu x (List.mem_cons_of_mem l hx)) hrest
      -- line by line the till shows what the server prices
      obtain ⟨hunit, hrate, hquantity⟩ := shown_line hkeys (hmenu l List.mem_cons_self) hi hn
      simp only [List.map_cons, List.sum_cons]
      rw [hsub, htax, hunit, hrate, hquantity]
      exact ⟨rfl, rfl⟩

/-- What a redemption is worth to the server. -/
def redemptionValue (config : LoyaltyConfig) (points : ℤ) : ℤ :=
  points / config.redeemPoints * config.redeemAmountMinor

/-- The discount that the server takes off a till's request, without a coupon. -/
def formDiscount (db : Db) (form : Form) : ℤ :=
  if 0 < form.redeem then redemptionValue (getConfig db) form.redeem else form.discount.getD 0

/-- The request carries the discount of the form, and no other. -/
theorem request_fields {a : Attempt} {dto : CreateOrderDto} (h : a.request = .ok dto) :
    dto.couponCode = a.form.discountFields.couponCode
      ∧ dto.manualDiscountMinor = a.form.discountFields.manualDiscountMinor
      ∧ dto.redeemPoints = a.form.discountFields.redeemPoints := by
  obtain ⟨items, -, h⟩ := bind_ok.mp h
  dsimp only at h
  split at h
  next =>
    split at h
    next =>
      split at h
      next =>
        cases pure_ok.mp h
        exact ⟨rfl, rfl, rfl⟩
      next => cases h
    next => cases h
  next => cases h

/-- One source of a discount at most reaches the server. -/
theorem request_discount {db : Db} {a : Attempt} {dto : CreateOrderDto}
    (hcoupon : a.form.coupon = "") (h : a.request = .ok dto) (subtotalMinor : ℤ) :
    discountOn db dto subtotalMinor = formDiscount db a.form := by
  obtain ⟨hcode, hmanual, hpoints⟩ := request_fields h
  unfold discountOn formDiscount
  rw [hcode, hmanual, hpoints, Form.discountFields]
  by_cases hredeem : 0 < a.form.redeem
  · rw [if_pos hredeem, if_pos hredeem]
    rfl
  · rw [if_neg hredeem, if_neg hredeem, hcoupon]
    cases hdiscount : a.form.discount with
    | none => rfl
    | some d =>
        -- a discount of zero is not sent, and takes nothing off
        by_cases hd : d = 0
        · rw [hd]
          rfl
        · have hkept : ((some d).filter fun d => decide (d ≠ 0)) = some d :=
            Option.filter_some_pos (by simpa using hd)
          rw [hkept]
          rfl

/-- A redemption that the server takes is worth something. -/
theorem discountFor_redeemed {db : Db} {now : Instant} {dto : CreateOrderDto} {subtotalMinor : ℤ}
    {d : Discount} (hcode : dto.couponCode = none) (hmanual : dto.manualDiscountMinor = none)
    (hpoints : dto.redeemPoints.isSome = true)
    (h : discountFor db now dto subtotalMinor = .ok d) : 0 < d.discountMinor := by
  unfold discountFor at h
  split at h
  -- of the three sources of a discount only the points are left
  next code _ _ hcode' =>
    rw [hcode] at hcode'
    cases hcode'
  next manual _ hmanual' =>
    rw [hmanual] at hmanual'
    cases hmanual'
  next points _ _ _ =>
    dsimp only at h
    split at h
    next r hr =>
      cases h
      exact (redemptionFor_ok hr).2.2.1
    next => cases h
  next _ _ hnone =>
    rw [hnone] at hpoints
    cases hpoints

/-- What an order that was just created comes to. -/
structure Billed (db : Db) (dto : CreateOrderDto) (o : Order) : Prop where
  lines : ∃ lines, List.Forall₂ (fun item n => priceLine db item = .ok n) dto.items lines
  within : discountOn db dto (billedOf db dto.items) ≤ billedOf db dto.items
  nonneg : 0 ≤ o.totalMinor
  total : o.totalMinor = totalOf db dto
  redeemed : dto.couponCode = none → dto.manualDiscountMinor = none →
    dto.redeemPoints.isSome = true → 0 < discountOn db dto (billedOf db dto.items)

/-- **A created order bills what was asked for.** -/
theorem insert_billed {db db' : Db} {ctx : TenantContext} {env : Env} {dto : CreateOrderDto}
    {o : Order} (h : insert db ctx env dto = .ok (o, db')) : Billed db dto o := by
  obtain ⟨p, hp, ho⟩ := insert_priced h
  obtain ⟨hsub0, hwithin, hnonneg, htotal⟩ := insertOrder_amounts ho
  obtain ⟨hsub, htax⟩ := amountsOf_sums (hp.lines.imp fun _ _ hl => priceLine_amountsOf hl)
  have hvalue := (discountFor_discountOf hsub0 hp.discount).value
  rw [hvalue, hsub] at hwithin
  rw [hvalue, hsub, htax] at htotal
  refine ⟨⟨p.lines, hp.lines⟩, hwithin, hnonneg, htotal, ?_⟩
  intro hcode hmanual hpoints
  have hpos := discountFor_redeemed hcode hmanual hpoints hp.discount
  rw [hvalue, hsub] at hpos
  exact hpos

/-! ## §4. The two figures. -/

/-- **The button shows what the server charges**, for any manual discount; of points, if they
are valued alike. -/
theorem chargeTotal_iff {cart : List ShownLine} {form : Form} {info : Option RedeemInfo}
    {discount total : ℤ} (hredeem : form.redeem ≤ 0 → discount = form.discount.getD 0)
    (hwithin : discount ≤ shownSubtotal cart)
    (htotal : total = shownSubtotal cart - discount + shownTax cart) (hnonneg : 0 ≤ total) :
    chargeTotal cart form info = total ↔ (0 < form.redeem →
      min (redeemDiscount info form.redeem) (shownSubtotal cart + shownTax cart) = discount) := by
  unfold chargeTotal previewDiscount
  by_cases hpos : 0 < form.redeem
  · have hpts : max 0 form.redeem = form.redeem := max_eq_right hpos.le
    rw [hpts, if_pos hpos]
    omega
  · have hpts : max 0 form.redeem = 0 := max_eq_left (not_lt.mp hpos)
    have hvalue := hredeem (not_lt.mp hpos)
    rw [hpts, if_neg (lt_irrefl 0), ← hvalue]
    refine iff_of_true ?_ fun h => absurd h hpos
    omega

/-- **The change is worked out from what the server charges** only without a discount, which
a redemption always is. -/
theorem cashTotal_iff {cart : List ShownLine} {form : Form} {discount total : ℤ}
    (hredeem : form.redeem ≤ 0 → discount = form.discount.getD 0)
    (hworth : 0 < form.redeem → 0 < discount)
    (htotal : total = shownSubtotal cart - discount + shownTax cart) :
    (∀ t ∈ cashTotal cart form, t = total)
      ↔ (form.method = some .cash → form.redeem ≤ 0 ∧ form.discount.getD 0 = 0) := by
  unfold cashTotal
  by_cases hcash : form.method = some .cash
  · rw [if_pos hcash]
    constructor
    · -- the change is right only if nothing was taken off
      intro hall _
      have heq := hall _ rfl
      have hle : form.redeem ≤ 0 := by
        by_contra hpos
        have hsome := hworth (not_le.mp hpos)
        omega
      refine ⟨hle, ?_⟩
      rw [← hredeem hle]
      omega
    · intro hnone t ht
      obtain ⟨hle, hzero⟩ := hnone hcash
      rw [← hredeem hle] at hzero
      rw [← Option.some.inj ht]
      omega
  · rw [if_neg hcash]
    exact iff_of_true forall_mem_none fun h => absurd h hcash

/-- **What the till shows is what the server charges** exactly if it values the points
redeemed as the server does, up to the whole bill, and, where it takes cash, there is no
discount at all. -/
theorem till_shows_charged {db db' : Db} (hkeys : OptionKeys db) {ctx : TenantContext} {env : Env}
    {cart : List ShownLine} {info : Option RedeemInfo} {a : Attempt} {dto : CreateOrderDto}
    {o : Order} {hooks : List Hook} (hmenu : ∀ l ∈ cart, OnMenu db l.spec)
    (hcart : a.cart = cart.map (·.cartLine)) (hcoupon : a.form.coupon = "")
    (hrequest : a.request = .ok dto) (hnew : findByIdempotencyKey db dto.idempotencyKey = none)
    (h : create db ctx env dto = .ok (o, db', hooks)) :
    (chargeTotal cart a.form info = o.totalMinor
        ∧ ∀ t ∈ cashTotal cart a.form, t = o.totalMinor)
      ↔ (0 < a.form.redeem →
          min (redeemDiscount info a.form.redeem) (shownSubtotal cart + shownTax cart)
            = redemptionValue (getConfig db) a.form.redeem)
        ∧ (a.form.method = some .cash → a.form.redeem ≤ 0 ∧ a.form.discount.getD 0 = 0) := by
  have hbilled : Billed db dto o := by
    rcases (create_ok h).2 with ⟨hex, -⟩ | ⟨hinsert, -⟩
    · rw [hnew] at hex
      cases hex
    · exact insert_billed hinsert
  have hitems : List.Forall₂ (fun l i => l.cartLine.item = .ok i) cart dto.items := by
    have hcartItems := (Attempt.request_ok hrequest).2.2
    rw [hcart] at hcartItems
    exact List.forall₂_map_left_iff.mp hcartItems
  obtain ⟨lines, hpriced⟩ := hbilled.lines
  obtain ⟨hsub, htax⟩ := shown_sums hkeys hmenu hitems hpriced
  have hdiscount : discountOn db dto (billedOf db dto.items) = formDiscount db a.form :=
    request_discount hcoupon hrequest _
  have hwithin : formDiscount db a.form ≤ shownSubtotal cart := by
    rw [← hdiscount, hsub]
    exact hbilled.within
  have htotal : o.totalMinor = shownSubtotal cart - formDiscount db a.form + shownTax cart := by
    rw [← hdiscount, hsub, htax]
    exact hbilled.total
  have hmanual : a.form.redeem ≤ 0 → formDiscount db a.form = a.form.discount.getD 0 := fun hle =>
    if_neg (not_lt.mpr hle)
  have hpoints : 0 < a.form.redeem →
      formDiscount db a.form = redemptionValue (getConfig db) a.form.redeem := fun hpos =>
    if_pos hpos
  have hworth : 0 < a.form.redeem → 0 < formDiscount db a.form := by
    intro hpos
    obtain ⟨hcode, hmanual, hpoints⟩ := request_fields hrequest
    rw [← hdiscount]
    refine hbilled.redeemed ?_ ?_ ?_
    · rw [hcode, Form.discountFields, if_pos hpos]
    · rw [hmanual, Form.discountFields, if_pos hpos]
    · rw [hpoints, Form.discountFields, if_pos hpos]
      rfl
  refine and_congr ((chargeTotal_iff hmanual hwithin htotal hbilled.nonneg).trans ?_)
    (cashTotal_iff hmanual hworth htotal)
  exact forall_congr' fun hpos => by rw [hpoints hpos]

theorem lassi_price : (0 : ℤ) ≤ 1000 ∧ (0 : ℤ) ≤ 500 ∧ (500 : ℤ) ≤ 10000 := by decide

theorem lassiForTwo_price : (0 : ℤ) ≤ 1800 ∧ (0 : ℤ) ≤ 500 := by decide

/-- Two lassis and a lassi for two. -/
def lassiCart : List ShownLine :=
  [⟨1, 2, "", .product ⟨1, "Lassi", 1000, 500, true, lassi_price⟩ []⟩,
    ⟨2, 1, "", .combo ⟨2, "Lassi for two", 1800, 500, true, [⟨1, 2, 0, pair_ok⟩],
      lassiForTwo_price⟩⟩]

theorem lassiCart_onMenu : ∀ l ∈ lassiCart, OnMenu lassiBar l.spec := by
  simp only [lassiCart, List.forall_mem_cons]
  exact ⟨⟨rfl, List.forall_mem_nil _⟩, rfl, List.forall_mem_nil _⟩

/-- Charged with ₹3 off. -/
def threeOff (method : PaymentMethod) : Attempt :=
  ⟨0, "key", false, lassiCart.map (·.cartLine), ⟨some method, .takeaway, none, 0, "", some 300, ""⟩⟩

/-- The form makes a request. -/
theorem threeOff_request (method : PaymentMethod) : ((threeOff method).request.toOption).isSome = true := by
  cases method <;> decide

/-- The body of the request. -/
def threeOffDto (method : PaymentMethod) : CreateOrderDto :=
  (threeOff method).request.toOption.get (threeOff_request method)

theorem threeOff_created (method : PaymentMethod) :
    ((create lassiBar manager ⟨20, 1000⟩ (threeOffDto method)).toOption).isSome = true := by
  cases method <;> decide +kernel

/-- The order that comes back. -/
def threeOffOrder (method : PaymentMethod) : Order :=
  ((create lassiBar manager ⟨20, 1000⟩ (threeOffDto method)).toOption.get (threeOff_created method)).1

/-- By card the total shown is the total charged. -/
theorem till_shows_charged_card :
    chargeTotal lassiCart (threeOff .card).form none = (threeOffOrder .card).totalMinor
      ∧ ∀ t ∈ cashTotal lassiCart (threeOff .card).form, t = (threeOffOrder .card).totalMinor :=
  (till_shows_charged (by decide) lassiCart_onMenu rfl rfl
    (toOption_some.mp (Option.some_get (threeOff_request .card)).symm) (by decide)
    (toOption_some.mp (Option.some_get (threeOff_created .card)).symm)).mpr
    ⟨by decide, by decide⟩

/-- In cash the change is worked out from ₹3 more. -/
theorem change_short :
    (threeOff .cash).request = .ok (threeOffDto .cash) ∧ (∀ l ∈ lassiCart, OnMenu lassiBar l.spec)
      ∧ (threeOffOrder .cash).totalMinor = 3690
      ∧ chargeTotal lassiCart (threeOff .cash).form none = 3690
      ∧ cashTotal lassiCart (threeOff .cash).form = some 3990 :=
  ⟨toOption_some.mp (Option.some_get (threeOff_request .cash)).symm, lassiCart_onMenu,
    by decide +kernel, by decide, by decide⟩

end OraOS.Orders
