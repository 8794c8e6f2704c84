/-
  OraOS.Orders.Cart — the cart of the till (`pos-client.tsx`), the request a charge or
  a hold makes of it, and what an order keeps of its lines.

    * `Till.edit`         — everything a cashier does to the cart between two attempts;
    * `Attempt.request`   — the body of `createOrder`, as the API's pipe lets it in;
    * `records_of_priced` — a priced line is on record as what the cart line sells;
    * `linesOf_of_priced` — … and an order as the whole cart.
-/
import OraOS.Orders.Create

namespace OraOS.Orders

open OraOS.Api
open OraOS.Lib
open OraOS.Inventory

/-! ## §1. The cart. -/

/-- What a line sells: a product with the chosen options, or a combo. -/
inductive LineSpec where
  | product (productId : Uuid) (modifiers : List Uuid)
  | combo (comboId : Uuid)
  deriving DecidableEq, Repr

/-- A line's identity among the lines of a cart. -/
inductive LineSig where
  | product (productId : Uuid) (modifiers : List Uuid)
  | combo (comboId : Uuid)
  deriving DecidableEq, Repr

/-- `lineSig`: the options count in any order. -/
def lineSig : LineSpec → LineSig
  | .product productId modifiers => .product productId (modifiers.insertionSort (· ≤ ·))
  | .combo comboId => .combo comboId

/-- A line of the cart. -/
structure CartLine where
  lineId : Uuid
  quantity : ℤ
  notes : String
  spec : LineSpec
  deriving DecidableEq, Repr

/-- The fields around the cart: trimmed, a coupon in upper case, the numbers read. -/
structure Form where
  /-- `none` for SPLIT, which is charged unpaid. -/
  method : Option PaymentMethod
  orderType : Api.OrderType
  customer : Option Uuid
  redeem : ℤ
  coupon : String
  discount : Option ℤ
  note : String
  deriving DecidableEq, Repr

/-- One press of Charge or Hold: the active lines and the fields at that moment.
`no` tells two presses apart. -/
structure Attempt where
  no : ℕ
  key : String
  held : Bool
  cart : List CartLine
  form : Form
  deriving DecidableEq, Repr

/-- What the sale screen keeps between two clicks. -/
structure Till where
  cart : List CartLine
  /-- The lines that are collapsing. -/
  leaving : List Uuid
  form : Form
  idemKey : Option String
  /-- The charge whose response is awaited. -/
  placing : Option Attempt
  /-- The hold whose response is awaited. -/
  holding : Option Attempt
  deriving DecidableEq, Repr

namespace Till

/-- The till as it is opened. -/
def opened : Till :=
  ⟨[], [], ⟨some .cash, .takeaway, none, 0, "", none, ""⟩, none, none, none⟩

/-- A line that is collapsing no longer counts. -/
def activeCart (t : Till) : List CartLine :=
  t.cart.filter fun l => l.lineId ∉ t.leaving

/-- `c.map((l) => (l.lineId === lineId ? … : l))` -/
def mapLine (t : Till) (lineId : Uuid) (f : CartLine → CartLine) : Till :=
  { t with cart := t.cart.map fun l => if l.lineId = lineId then f l else l }

/-- A product is added: to a line that is the same dish, or as a new one. -/
def mergeLine (t : Till) (lineId : Uuid) (spec : LineSpec) : Till :=
  match t.cart.find? fun l => l.lineId ∉ t.leaving ∧ lineSig l.spec = lineSig spec with
  | some l => t.mapLine l.lineId fun l => { l with quantity := l.quantity + 1 }
  | none => { t with cart := t.cart ++ [⟨lineId, 1, "", spec⟩] }

/-- A line starts to collapse. -/
def removeLine (t : Till) (lineId : Uuid) : Till :=
  if (∃ l ∈ t.cart, l.lineId = lineId) ∧ lineId ∉ t.leaving then
    { t with leaving := t.leaving ++ [lineId] }
  else t

/-- The timer of `removeLine`. -/
def collapse (t : Till) (lineId : Uuid) : Till :=
  if lineId ∈ t.leaving then
    { t with
      leaving := t.leaving.filter fun x => x ≠ lineId
      cart := t.cart.filter fun l => l.lineId ≠ lineId }
  else t

/-- One more or one less; a line that comes to nothing starts to collapse. -/
def changeQty (t : Till) (lineId : Uuid) (delta : ℤ) : Till :=
  match t.cart.find? fun l => l.lineId = lineId with
  | none => t
  | some l =>
      if lineId ∈ t.leaving then t
      else if l.quantity + delta ≤ 0 then t.removeLine lineId
      else t.mapLine lineId fun l => { l with quantity := l.quantity + delta }

/-- The note of a line. -/
def setLineNote (t : Till) (lineId : Uuid) (notes : String) : Till :=
  t.mapLine lineId fun l => { l with notes }

/-- The key goes with the cart; the method stays as it was. -/
def clearCart (t : Till) : Till :=
  { t with
    cart := []
    leaving := []
    form := ⟨t.form.method, .takeaway, none, 0, "", none, ""⟩
    idemKey := none }

/-- What a cashier does to the cart and the fields. -/
inductive Edit where
  | mergeLine (lineId : Uuid) (spec : LineSpec)
  | removeLine (lineId : Uuid)
  | collapse (lineId : Uuid)
  | changeQty (lineId : Uuid) (delta : ℤ)
  | setLineNote (lineId : Uuid) (notes : String)
  | setForm (form : Form)

/-- What each click does. -/
def edit (t : Till) : Edit → Till
  | .mergeLine lineId spec => t.mergeLine lineId spec
  | .removeLine lineId => t.removeLine lineId
  | .collapse lineId => t.collapse lineId
  | .changeQty lineId delta => t.changeQty lineId delta
  | .setLineNote lineId notes => t.setLineNote lineId notes
  | .setForm form => { t with form }

/-- `placing` and `holding`. -/
def busy (t : Till) (held : Bool) : Option Attempt := if held then t.holding else t.placing

/-- The charge, or the hold, that waits for its answer. -/
def setBusy (t : Till) (held : Bool) (a : Option Attempt) : Till :=
  if held then { t with holding := a } else { t with placing := a }

/-- **An edit leaves the key and the requests on their way.** -/
theorem edit_kept (t : Till) (e : Edit) :
    (t.edit e).idemKey = t.idemKey ∧ ∀ held, (t.edit e).busy held = t.busy held := by
  cases e with
  | mergeLine lineId spec =>
      simp only [edit, mergeLine]
      split <;> exact ⟨rfl, fun _ => rfl⟩
  | removeLine lineId =>
      simp only [edit, removeLine]
      split <;> exact ⟨rfl, fun _ => rfl⟩
  | collapse lineId =>
      simp only [edit, collapse]
      split <;> exact ⟨rfl, fun _ => rfl⟩
  | changeQty lineId delta =>
      simp only [edit, changeQty, removeLine]
      repeat' split
      all_goals exact ⟨rfl, fun _ => rfl⟩
  | setLineNote lineId notes => exact ⟨rfl, fun _ => rfl⟩
  | setForm form => exact ⟨rfl, fun _ => rfl⟩

end Till

/-! ## §2. The request. -/

theorem no_modifiers : ∀ ids ∈ (none : Option (List Uuid)), ids.length ≤ 30 := forall_mem_none

/-- One of `cartItems`, within the bounds of its DTO. -/
def CartLine.item (l : CartLine) : Except Unit OrderItemDto :=
  if hq : 1 ≤ l.quantity ∧ l.quantity ≤ 999 then
    match l.spec with
    | .combo comboId =>
        .ok ⟨none, some comboId, l.quantity, truthy (some l.notes), none, hq, no_modifiers⟩
    | .product productId [] =>
        .ok ⟨some productId, none, l.quantity, truthy (some l.notes), none, hq, no_modifiers⟩
    -- options are sent only where some are picked
    | .product productId (m :: ms) =>
        if hm : (m :: ms).length ≤ 30 then
          .ok ⟨some productId, none, l.quantity, truthy (some l.notes), some (m :: ms), hq,
            fun _ h => Option.mem_some.mp h ▸ hm⟩
        else .error ()
  else .error ()

/-- `discountFields`: the points, else the coupon, else the amount. -/
structure DiscountFields where
  redeemPoints : Option ℤ
  couponCode : Option String
  manualDiscountMinor : Option ℤ

/-- The one discount a charge is sent with: points before a coupon before a typed amount. -/
def Form.discountFields (f : Form) : DiscountFields :=
  if 0 < f.redeem then ⟨some f.redeem, none, none⟩
  else match truthy (some f.coupon) with
    | some code => ⟨none, some code, none⟩
    | none => ⟨none, none, f.discount.filter fun d => d ≠ 0⟩

namespace Attempt

/-- The body of `createOrder`; what is out of the DTO's bounds is refused. -/
def request (a : Attempt) : Except Unit CreateOrderDto := do
  let items ← a.cart.mapM CartLine.item
  let d := a.form.discountFields
  if hi : 1 ≤ items.length ∧ items.length ≤ 100 then
    if hd : ∀ x ∈ d.manualDiscountMinor, 1 ≤ x ∧ x ≤ 10000000 then
      if hp : ∀ x ∈ d.redeemPoints, 1 ≤ x ∧ x ≤ 10000000 then
        pure
          -- a held order takes no payment
          { items, paymentMethod := if a.held then none else a.form.method,
            orderType := some a.form.orderType, hold := if a.held then some true else none,
            customerId := a.form.customer, couponCode := d.couponCode,
            manualDiscountMinor := d.manualDiscountMinor, discountReason := none,
            redeemPoints := d.redeemPoints, notes := truthy (some a.form.note),
            idempotencyKey := some a.key, items_ok := hi, manualDiscount_ok := hd,
            redeemPoints_ok := hp }
      else .error ()
    else .error ()
  else .error ()

/-- What the attempt is to sell. -/
def lines (a : Attempt) : List (LineSig × ℤ) :=
  a.cart.map fun l => (lineSig l.spec, l.quantity)

/-- **What the request carries of the press.** -/
theorem request_ok {a : Attempt} {dto : CreateOrderDto} (h : a.request = .ok dto) :
    dto.idempotencyKey = some a.key ∧ dto.held = a.held
      ∧ List.Forall₂ (fun l i => CartLine.item l = .ok i) a.cart dto.items := by
  obtain ⟨items, hitems, h⟩ := bind_ok.mp h
  dsimp only at h
  split at h
  next =>
    split at h
    next =>
      split at h
      next =>
        cases pure_ok.mp h
        refine ⟨rfl, ?_, mapM_ok.mp hitems⟩
        unfold CreateOrderDto.held
        cases a.held <;> rfl
      next => cases h
    next => cases h
  next => cases h

end Attempt

/-! ## §3. What an order keeps of the cart. -/

/-- The primary key of `modifier_options`. -/
def OptionKeys (db : Db) : Prop :=
  (db.modifierGroups.flatMap fun g => g.options.map (·.id)).Nodup

instance (db : Db) : Decidable (OptionKeys db) := inferInstanceAs (Decidable (List.Nodup _))

/-- The combo as `comboItems` keeps it. -/
def comboSnapshot (menu : Db) (c : Combo) : List ComboItemSnapshot :=
  (componentsOf c).map fun ci =>
    ⟨ci.productId, ((componentProduct menu ci).map (·.name)).getD "", ci.quantity⟩

/-- The item is on record for what the line sells, in its quantity: the product with
exactly the chosen options, or the combo with its components. -/
def Records (menu : Db) (l : LineSig × ℤ) (i : NewOrderItem) : Prop :=
  i.quantity = l.2 ∧ match l.1 with
    | .product productId modifiers =>
        i.productId = some productId ∧ i.comboItems = none
          ∧ ((i.modifiers.getD []).map (·.optionId)).Perm modifiers
    | .combo comboId =>
        i.productId = none ∧ i.modifiers = none ∧ ∃ c, findCombo menu comboId = some c
          ∧ i.nameSnapshot = c.name ∧ i.comboItems = some (comboSnapshot menu c)

/-- **Exactly these lines**: an item for each, and none besides. -/
def LinesOf (menu : Db) (lines : List (LineSig × ℤ)) (items : List OrderItem) : Prop :=
  ∃ ls, ls.Perm lines ∧ List.Forall₂ (Records menu) ls (items.map (·.toNewOrderItem))

/-- The rows written for a cart do not depend on the order of its lines. -/
theorem LinesOf.perm {menu : Db} {lines lines' : List (LineSig × ℤ)} {items : List OrderItem}
    (h : LinesOf menu lines items) (hp : lines.Perm lines') : LinesOf menu lines' items := by
  obtain ⟨ls, hls, hrec⟩ := h
  exact ⟨ls, hls.trans hp, hrec⟩

/-- The same lines make the same number of portions. -/
theorem LinesOf.portions {menu : Db} {lines : List (LineSig × ℤ)} {items : List OrderItem}
    (h : LinesOf menu lines items) :
    (items.map (·.quantity)).sum = (lines.map Prod.snd).sum := by
  obtain ⟨ls, hls, hrec⟩ := h
  rw [← (hls.map Prod.snd).sum_eq]
  clear hls
  induction items generalizing ls with
  | nil =>
      cases hrec
      rfl
  | cons i items ih =>
      obtain _ | ⟨hi, hrest⟩ := hrec
      rw [List.map_cons, List.map_cons, List.sum_cons, List.sum_cons, ih _ hrest]
      rw [show i.quantity = _ from hi.1]

/-- The options a group offers. -/
def optionIds (g : ModifierGroup) : List Uuid := g.options.map (·.id)

/-- A group with its active options only, in their order. -/
def activeOptions (g : ModifierGroup) : ModifierGroup :=
  { g with options :=
      (g.options.filter (·.isActive)).insertionSort fun a b => a.sortOrder ≤ b.sortOrder }

/-- What a product offers is free of repetition, as the whole table is. -/
theorem groupsOf_keys {db : Db} (h : OptionKeys db) (productId : Uuid) :
    ((groupsOf db productId).flatMap optionIds).Nodup := by
  -- sorting permutes, and a filter leaves a sublist: twice, for groups and for options
  set groups := db.modifierGroups.filter fun g => g.productId = productId && g.isActive
  set sorted := groups.insertionSort fun a b => a.sortOrder ≤ b.sortOrder
  have hgroups : (groups.flatMap optionIds).Nodup :=
    (List.filter_sublist.flatMap optionIds).nodup h
  have hsorted : (sorted.flatMap optionIds).Nodup :=
    ((List.perm_insertionSort _ groups).flatMap_right optionIds).nodup_iff.mpr hgroups
  have hactive : (sorted.flatMap fun g => (g.options.filter (·.isActive)).map (·.id)).Nodup :=
    (List.Sublist.flatMap_right sorted fun g _ => List.filter_sublist.map _).nodup hsorted
  have hshown : (sorted.flatMap fun g => optionIds (activeOptions g)).Nodup :=
    (List.Perm.flatMap_left sorted fun g _ =>
      (List.perm_insertionSort _ _).map _).nodup_iff.mpr hactive
  show ((sorted.map activeOptions).flatMap optionIds).Nodup
  rw [List.flatMap_map]
  exact hshown

/-- Two groups that share an option are one. -/
theorem group_of_option {groups : List ModifierGroup} (hkeys : (groups.flatMap optionIds).Nodup)
    {g g' : ModifierGroup} (hg : g ∈ groups) (hg' : g' ∈ groups) {id : Uuid}
    (h : id ∈ optionIds g) (h' : id ∈ optionIds g') : g = g' := by
  by_contra hne
  have hsymm : Std.Symm (Function.onFun List.Disjoint optionIds) := ⟨fun _ _ hxy => hxy.symm⟩
  exact (List.nodup_flatMap.mp hkeys).2.forall hg hg' hne h h'

/-- The snapshot of a selection names the options that were selected. -/
theorem modifierSnapshot_ids (groups : List ModifierGroup) (selected : List Uuid) :
    (modifierSnapshot groups selected).map (·.optionId)
      = (groups.flatMap optionIds).filter fun id => selected.contains id := by
  unfold modifierSnapshot optionIds
  rw [List.map_flatMap, List.filter_flatMap]
  refine List.flatMap_congr fun g _ => ?_
  rw [List.map_map, List.filter_map]
  rfl

/-- **The snapshot is the selection**, in another order. -/
theorem snapshot_perm {groups : List ModifierGroup} {selected : List Uuid}
    {selection : ModifierSelection} (hkeys : (groups.flatMap optionIds).Nodup)
    (h : resolveModifierSelection groups selected = .ok selection) :
    (selection.snapshot.map (·.optionId)).Perm selected := by
  obtain ⟨hnodup, hknown, -, rfl⟩ := resolveModifierSelection_ok.mp h
  show ((modifierSnapshot groups selected).map (·.optionId)).Perm selected
  rw [modifierSnapshot_ids]
  refine (List.perm_ext_iff_of_nodup (hkeys.filter _) hnodup).mpr ?_
  intro id
  rw [List.mem_filter, List.contains_iff_mem]
  constructor
  · exact fun hid => hid.2
  · intro hid
    obtain ⟨g, hg, o, ho, rfl⟩ := hknown id hid
    exact ⟨List.mem_flatMap.mpr ⟨g, hg, List.mem_map_of_mem ho⟩, hid⟩

/-- What `cartItems` writes of a line's spec. -/
theorem item_ok {l : CartLine} {i : OrderItemDto} (h : l.item = .ok i) :
    i.quantity = l.quantity ∧ match l.spec with
      | .product productId modifiers => i.productId = some productId ∧ i.comboId = none
          ∧ i.modifierOptionIds.getD [] = modifiers
      | .combo comboId => i.comboId = some comboId := by
  unfold CartLine.item at h
  split at h
  next =>
    split at h
    next hspec =>
      cases h
      rw [hspec]
      exact ⟨rfl, rfl⟩
    next hspec =>
      cases h
      rw [hspec]
      exact ⟨rfl, rfl, rfl, rfl⟩
    next hspec =>
      split at h
      next =>
        cases h
        rw [hspec]
        exact ⟨rfl, rfl, rfl, rfl⟩
      next => cases h
  next => cases h

/-- **A priced line is on record for the cart line it came from.** -/
theorem records_of_priced {menu : Db} (hkeys : OptionKeys menu) {l : CartLine} {i : OrderItemDto}
    {n : NewOrderItem} (hi : l.item = .ok i) (hn : priceLine menu i = .ok n) :
    Records menu (lineSig l.spec, l.quantity) n := by
  obtain ⟨hquantity, hspec⟩ := item_ok hi
  cases hs : l.spec with
  | combo comboId =>
      rw [hs] at hspec
      cases priceLine_priced hn with
      | @combo id c hid hc =>
          obtain rfl : id = comboId := Option.some.inj (hid.symm.trans hspec)
          exact ⟨hquantity, rfl, rfl, c, hc, rfl, rfl⟩
      | product hcombo =>
          rw [hspec] at hcombo
          cases hcombo
  | product productId modifiers =>
      rw [hs] at hspec
      obtain ⟨hproduct, hcombo, hmodifiers⟩ := hspec
      cases priceLine_priced hn with
      | combo hid =>
          rw [hcombo] at hid
          cases hid
      | @product id p selection _ hid hp hselection =>
          obtain rfl : id = productId := Option.some.inj (hid.symm.trans hproduct)
          refine ⟨hquantity, congrArg some (findProduct_id hp), rfl, ?_⟩
          have hperm := snapshot_perm (groupsOf_keys hkeys p.id) hselection
          rw [hmodifiers] at hperm
          have hsame : ((if selection.snapshot = [] then none
              else some selection.snapshot).getD []) = selection.snapshot := by
            split
            next hnil => exact hnil.symm
            next => rfl
          show (List.map _ (Option.getD (if selection.snapshot = [] then none
            else some selection.snapshot) [])).Perm _
          rw [hsame]
          exact hperm.trans (List.perm_insertionSort _ _).symm

/-- **An order is on record for the cart it was made of.** -/
theorem linesOf_of_priced {menu : Db} (hkeys : OptionKeys menu) {a : Attempt}
    {dto : CreateOrderDto} {items : List OrderItem} (ha : a.request = .ok dto)
    (hp : List.Forall₂ (fun i l => priceLine menu i = .ok l) dto.items
      (items.map (·.toNewOrderItem))) : LinesOf menu a.lines items := by
  refine ⟨a.lines, .refl _, ?_⟩
  have hitems := (a.request_ok ha).2.2
  unfold Attempt.lines
  generalize a.cart = cart at hitems
  generalize dto.items = requested at hitems hp
  generalize items.map (·.toNewOrderItem) = stored at hp
  -- along the cart: an item for each line, a stored one for each item
  induction hitems generalizing stored with
  | nil =>
      cases hp
      exact .nil
  | cons hi _ ih =>
      obtain _ | ⟨hn, hrest⟩ := hp
      exact .cons (records_of_priced hkeys hi hn) (ih _ hrest)

end OraOS.Orders
