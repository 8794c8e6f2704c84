/-
  OraOS.Orders.Lines — what a line of an order costs and what it consumes:
  modifiers, combos, and the two depletion lists built from a line.

    * `placementLines` — what `insert` depletes: combos expanded;
    * `resumeLines`    — what `updateStatus` depletes on a resume: the stored
                         items that carry a product;
    * `resumeLines_priced` — the stored items of an order deplete its product
                         lines and none of its combos;
    * `soldLines_priced` — although, combo snapshots included, they do say what
                         placement depletes.
-/
import OraOS.Orders.Status
import OraOS.Inventory.Depletion

namespace OraOS.Orders

open OraOS.Api
open OraOS.Lib
open OraOS.Inventory

/-! ## §1. The request. -/

/-- One item of an order as it is sent. -/
structure OrderItemDto where
  productId : Option Uuid
  comboId : Option Uuid
  quantity : ℤ
  notes : Option String
  modifierOptionIds : Option (List Uuid)
  quantity_ok : 1 ≤ quantity ∧ quantity ≤ 999
  modifiers_ok : ∀ ids ∈ modifierOptionIds, ids.length ≤ 30

/-- An order as it is sent. -/
structure CreateOrderDto where
  items : List OrderItemDto
  paymentMethod : Option PaymentMethod
  orderType : Option Api.OrderType
  hold : Option Bool
  customerId : Option Uuid
  couponCode : Option String
  manualDiscountMinor : Option ℤ
  discountReason : Option String
  redeemPoints : Option ℤ
  notes : Option String
  idempotencyKey : Option String
  items_ok : 1 ≤ items.length ∧ items.length ≤ 100
  manualDiscount_ok : ∀ d ∈ manualDiscountMinor, 1 ≤ d ∧ d ≤ 10000000
  redeemPoints_ok : ∀ p ∈ redeemPoints, 1 ≤ p ∧ p ≤ 10000000

/-! ## §2. Modifiers. -/

/-- What the chosen options add to the price, and what is written of them. -/
structure ModifierSelection where
  perUnitAdjustMinor : ℤ
  snapshot : List ModifierSnapshotEntry

/-- How many of a group's options were chosen. -/
def chosenIn (g : ModifierGroup) (selected : List Uuid) : ℤ :=
  (g.options.filter fun o => selected.contains o.id).length

/-- A group's bounds; a group that offers nothing requires nothing. -/
def checkGroup (selected : List Uuid) (g : ModifierGroup) : Except ApiError Unit := do
  require (g.options ≠ [] → g.minSelect ≤ chosenIn g selected)
    (.badRequest (if g.minSelect = 1 ∧ g.maxSelect = 1 then g.name ++ ": choose 1"
      else g.name ++ ": choose at least " ++ toString g.minSelect))
  require (g.options ≠ [] → chosenIn g selected ≤ g.maxSelect)
    (.badRequest (g.name ++ ": choose at most " ++ toString g.maxSelect))

/-- The chosen options in group order, then option order. -/
def modifierSnapshot (groups : List ModifierGroup) (selected : List Uuid) :
    List ModifierSnapshotEntry :=
  groups.flatMap fun g =>
    (g.options.filter fun o => selected.contains o.id).map fun o =>
      ⟨o.id, g.name, o.name, o.priceAdjustMinor⟩

/-- `resolveModifierSelection`. -/
def resolveModifierSelection (groups : List ModifierGroup) (selected : List Uuid) :
    Except ApiError ModifierSelection := do
  require selected.Nodup (.badRequest "A modifier was selected more than once")
  require (∀ id ∈ selected, ∃ g ∈ groups, ∃ o ∈ g.options, o.id = id)
    (.badRequest "Unknown or unavailable modifier selected")
  groups.forM (checkGroup selected)
  let snapshot := modifierSnapshot groups selected
  pure ⟨(snapshot.map (·.priceAdjustMinor)).sum, snapshot⟩

/-- A group passes with a choice within its bounds, or without options to choose. -/
theorem checkGroup_ok {selected : List Uuid} {g : ModifierGroup} :
    checkGroup selected g = .ok () ↔ g.options ≠ [] →
      g.minSelect ≤ chosenIn g selected ∧ chosenIn g selected ≤ g.maxSelect := by
  simp only [checkGroup, bind_ok, require_ok]
  constructor
  · rintro ⟨-, hmin, hmax⟩ hoptions
    exact ⟨hmin hoptions, hmax hoptions⟩
  · intro h
    exact ⟨(), fun hoptions => (h hoptions).1, fun hoptions => (h hoptions).2⟩

/-- What a selection has to meet. -/
theorem resolveModifierSelection_ok {groups : List ModifierGroup} {selected : List Uuid}
    {selection : ModifierSelection} :
    resolveModifierSelection groups selected = .ok selection ↔
      selected.Nodup ∧ (∀ id ∈ selected, ∃ g ∈ groups, ∃ o ∈ g.options, o.id = id)
        ∧ (∀ g ∈ groups, g.options ≠ [] →
            g.minSelect ≤ chosenIn g selected ∧ chosenIn g selected ≤ g.maxSelect)
        ∧ selection = ⟨((modifierSnapshot groups selected).map (·.priceAdjustMinor)).sum,
            modifierSnapshot groups selected⟩ := by
  simp only [resolveModifierSelection, bind_ok, require_ok]
  constructor
  · rintro ⟨-, hnodup, -, hknown, ⟨⟩, hgroups, h⟩
    exact ⟨hnodup, hknown, fun g hg => checkGroup_ok.mp (forM_ok.mp hgroups g hg), (pure_ok.mp h).symm⟩
  · rintro ⟨hnodup, hknown, hgroups, rfl⟩
    exact ⟨(), hnodup, (), hknown, (), forM_ok.mpr fun g hg => checkGroup_ok.mpr (hgroups g hg), rfl⟩

/-- The active groups of a product with their active options, in order. -/
def groupsOf (db : Db) (productId : Uuid) : List ModifierGroup :=
  ((db.modifierGroups.filter fun g => g.productId = productId && g.isActive).insertionSort
      fun a b => a.sortOrder ≤ b.sortOrder).map fun g =>
    { g with options :=
        (g.options.filter (·.isActive)).insertionSort fun a b => a.sortOrder ≤ b.sortOrder }

/-! ## §3. The menu an order sees. -/

/-- An active product by id. -/
def findProduct (db : Db) (id : Uuid) : Option Product :=
  db.products.find? fun p => p.id = id && p.isActive

/-- An active combo by id. -/
def findCombo (db : Db) (id : Uuid) : Option Combo :=
  db.combos.find? fun c => c.id = id && c.isActive

/-- A combo's components in their order. -/
def componentsOf (c : Combo) : List ComboItem :=
  c.items.insertionSort fun a b => a.sortOrder ≤ b.sortOrder

/-- A component's product, active or not (the relation `product`). -/
def componentProduct (db : Db) (ci : ComboItem) : Option Product :=
  db.products.find? fun p => p.id = ci.productId

/-- `Math.round(lineTotal * taxRateBp / 10000)`. -/
def lineTax (lineTotalMinor taxRateBp : ℤ) : ℤ := roundDiv (lineTotalMinor * taxRateBp) 10000

/-- `buildComboLine` and the line around it: the combo's own price, its
components snapshotted, no product. -/
def comboLine (db : Db) (c : Combo) (item : OrderItemDto) : Except ApiError NewOrderItem := do
  let components := componentsOf c
  require (components ≠ []) (.badRequest (c.name ++ " has no items"))
  require (∀ ci ∈ components, ∃ p ∈ componentProduct db ci, p.isActive = true)
    (.badRequest (c.name ++ " contains an unavailable item"))
  -- the components are a snapshot only; the combo's own price counts
  let lineTotal := c.priceMinor * item.quantity
  pure
    { productId := none, nameSnapshot := c.name, unitPriceMinor := c.priceMinor,
      quantity := item.quantity, lineTotalMinor := lineTotal, taxRateBp := c.taxRateBp,
      taxMinor := lineTax lineTotal c.taxRateBp, notes := item.notes, modifiers := none,
      comboItems := some (components.map fun ci =>
        ⟨ci.productId, ((componentProduct db ci).map (·.name)).getD "", ci.quantity⟩) }

/-- A product line: the product's price and its modifiers. -/
def productLine (db : Db) (p : Product) (item : OrderItemDto) :
    Except ApiError NewOrderItem := do
  let selection ← resolveModifierSelection (groupsOf db p.id) (item.modifierOptionIds.getD [])
  let unitPrice := p.priceMinor + selection.perUnitAdjustMinor
  -- modifiers are priced per unit
  let lineTotal := unitPrice * item.quantity
  pure
    { productId := some p.id, nameSnapshot := p.name, unitPriceMinor := unitPrice,
      quantity := item.quantity, lineTotalMinor := lineTotal, taxRateBp := p.taxRateBp,
      taxMinor := lineTax lineTotal p.taxRateBp, notes := item.notes,
      modifiers := if selection.snapshot = [] then none else some selection.snapshot,
      comboItems := none }

/-- The first loop of `insert`: each line is a product or a combo, not both, and
a combo takes no modifiers. -/
def checkItem (item : OrderItemDto) : Except ApiError Unit := do
  require (item.productId.isNone ≠ item.comboId.isNone)
    (.badRequest "Each line must be either a product or a combo")
  require (item.comboId.isSome → item.modifierOptionIds.getD [] = [])
    (.badRequest "A combo does not take modifiers")

/-- The lookups behind `byId` and `comboById`: nothing ordered may be missing. -/
def checkMenu (db : Db) (items : List OrderItemDto) : Except ApiError Unit := do
  require (∀ item ∈ items, ∀ id ∈ item.productId, (findProduct db id).isSome)
    (.badRequest "One or more products are unavailable")
  require (∀ item ∈ items, ∀ id ∈ item.comboId, (findCombo db id).isSome)
    (.badRequest "One or more combos are unavailable")

/-- One priced line; `checkItem` and `checkMenu` have made its lookups succeed. -/
def priceLine (db : Db) (item : OrderItemDto) : Except ApiError NewOrderItem :=
  match item.comboId with
  | some comboId => do
      let c ← found (findCombo db comboId) (.badRequest "One or more combos are unavailable")
      comboLine db c item
  | none => do
      let p ← found (item.productId.bind (findProduct db))
        (.badRequest "One or more products are unavailable")
      productLine db p item

/-! ## §4. What a line consumes. -/

/-- The components of a combo line, times the combos ordered. -/
def comboLines (db : Db) (comboId : Uuid) (quantity : ℤ) : List SoldLine :=
  match findCombo db comboId with
  | some c => (componentsOf c).map fun ci => ⟨ci.productId, ci.quantity * quantity⟩
  | none => []

/-- The depletion of one line at placement. -/
def placementOf (db : Db) (item : OrderItemDto) : List SoldLine :=
  match item.comboId with
  | some comboId => comboLines db comboId item.quantity
  | none => item.productId.toList.map fun id => ⟨id, item.quantity⟩

/-- The depletion list `insert` builds: combos expanded into their products. -/
def placementLines (db : Db) (items : List OrderItemDto) : List SoldLine :=
  items.flatMap (placementOf db)

/-- The depletion list `updateStatus` builds on a resume: the stored items with a
product. -/
def resumeLines (items : List OrderItem) : List SoldLine :=
  items.flatMap fun i => i.productId.toList.map fun id => ⟨id, i.quantity⟩

/-- The product lines of a request. -/
def productLines (items : List OrderItemDto) : List SoldLine :=
  items.flatMap fun item =>
    if item.comboId.isSome then [] else item.productId.toList.map fun id => ⟨id, item.quantity⟩

theorem placementLines_nonneg (db : Db) (items : List OrderItemDto) :
    LinesNonneg (placementLines db items) := by
  intro l hl
  obtain ⟨item, -, hl⟩ := List.mem_flatMap.mp hl
  have hq := item.quantity_ok.1
  unfold placementOf comboLines at hl
  split at hl
  next =>
    split at hl
    next c _ =>
      obtain ⟨ci, -, rfl⟩ := List.mem_map.mp hl
      have hci := ci.quantity_pos
      exact mul_nonneg (by omega) (by omega)
    next => cases hl
  next =>
    obtain ⟨id, -, rfl⟩ := List.mem_map.mp hl
    show 0 ≤ item.quantity
    omega

/-- The product found has the id asked for. -/
theorem findProduct_id {db : Db} {id : Uuid} {p : Product} (h : findProduct db id = some p) :
    p.id = id := by
  have hp := List.find?_some h
  simp only [Bool.and_eq_true, decide_eq_true_eq] at hp
  exact hp.1

/-- What a line is priced as: a combo at its own price, or a product with its modifiers. -/
inductive Priced (db : Db) (item : OrderItemDto) : NewOrderItem → Prop where
  | combo {comboId : Uuid} {c : Combo} (hid : item.comboId = some comboId)
      (hc : findCombo db comboId = some c) (hsome : componentsOf c ≠ [])
      (hactive : ∀ ci ∈ componentsOf c, ∃ p ∈ componentProduct db ci, p.isActive = true) :
      Priced db item
        -- one price for the whole combo, whatever its components cost
        { productId := none, nameSnapshot := c.name, unitPriceMinor := c.priceMinor,
          quantity := item.quantity, lineTotalMinor := c.priceMinor * item.quantity,
          taxRateBp := c.taxRateBp, taxMinor := lineTax (c.priceMinor * item.quantity) c.taxRateBp,
          notes := item.notes, modifiers := none,
          comboItems := some ((componentsOf c).map fun ci =>
            ⟨ci.productId, ((componentProduct db ci).map (·.name)).getD "", ci.quantity⟩) }
  | product {id : Uuid} {p : Product} {selection : ModifierSelection}
      (hcombo : item.comboId = none) (hid : item.productId = some id)
      (hp : findProduct db id = some p)
      (hselection : resolveModifierSelection (groupsOf db p.id)
        (item.modifierOptionIds.getD []) = .ok selection) :
      Priced db item
        { productId := some p.id, nameSnapshot := p.name,
          unitPriceMinor := p.priceMinor + selection.perUnitAdjustMinor,
          quantity := item.quantity,
          lineTotalMinor := (p.priceMinor + selection.perUnitAdjustMinor) * item.quantity,
          taxRateBp := p.taxRateBp,
          taxMinor := lineTax ((p.priceMinor + selection.perUnitAdjustMinor) * item.quantity)
            p.taxRateBp,
          notes := item.notes,
          -- no options picked leaves the column null
          modifiers := if selection.snapshot = [] then none else some selection.snapshot,
          comboItems := none }

/-- **The inversion** of `priceLine`. -/
theorem priceLine_priced {db : Db} {item : OrderItemDto} {l : NewOrderItem}
    (h : priceLine db item = .ok l) : Priced db item l := by
  unfold priceLine at h
  cases hc : item.comboId with
  | some comboId =>
      rw [hc] at h
      obtain ⟨c, hfound, h⟩ := bind_ok.mp h
      simp only [comboLine, bind_ok, require_ok] at h
      obtain ⟨-, hsome, -, hactive, h⟩ := h
      cases pure_ok.mp h
      exact .combo hc (found_ok.mp hfound) hsome hactive
  | none =>
      rw [hc] at h
      obtain ⟨p, hp, h⟩ := bind_ok.mp h
      obtain ⟨selection, hselection, h⟩ := bind_ok.mp h
      cases pure_ok.mp h
      obtain ⟨id, hid, hfind⟩ := Option.bind_eq_some_iff.mp (found_ok.mp hp)
      exact .product hc hid hfind hselection

/-- What pricing a line keeps of it: its quantity, and its product when it is no
combo. -/
theorem priceLine_ok {db : Db} {item : OrderItemDto} {l : NewOrderItem}
    (h : priceLine db item = .ok l) :
    l.quantity = item.quantity
      ∧ l.productId = if item.comboId.isSome then none else item.productId := by
  cases priceLine_priced h with
  | combo hid =>
      rw [hid]
      exact ⟨rfl, rfl⟩
  | product hcombo hid hp =>
      rw [hcombo, hid]
      exact ⟨rfl, congrArg some (findProduct_id hp)⟩

/-- **The stored items deplete the product lines only**: a stored combo line has
no product to deplete. -/
theorem resumeLines_priced {db : Db} {items : List OrderItemDto} {lines : List NewOrderItem}
    {stored : List OrderItem} (hp : List.Forall₂ (fun i l => priceLine db i = .ok l) items lines)
    (hs : stored.map (·.toNewOrderItem) = lines) :
    resumeLines stored = productLines items := by
  subst hs
  induction stored generalizing items with
  | nil =>
      cases hp
      rfl
  | cons s stored ih =>
      cases hp with
      | cons h hrest =>
          rename_i item items
          obtain ⟨hq, hid⟩ := priceLine_ok h
          show s.productId.toList.map _ ++ resumeLines stored = _ ++ productLines items
          rw [ih hrest]
          congr 1
          rw [hq, hid]
          cases hc : item.comboId <;> simp [hc]

/-- What a priced line was sold as: its combo's components, or its product. -/
def soldAs (l : NewOrderItem) : List SoldLine :=
  match l.comboItems with
  | some cs => cs.map fun c => ⟨c.productId, c.quantity * l.quantity⟩
  | none => l.productId.toList.map fun id => ⟨id, l.quantity⟩

/-- What the stored items of an order say was sold, combos expanded. -/
def soldLines (items : List OrderItem) : List SoldLine :=
  items.flatMap fun i => soldAs i.toNewOrderItem

/-- **A priced line sells what its item asked for.** -/
theorem priceLine_soldAs {db : Db} {item : OrderItemDto} {l : NewOrderItem}
    (h : priceLine db item = .ok l) : soldAs l = placementOf db item := by
  unfold placementOf
  cases priceLine_priced h with
  | @combo comboId c hid hc =>
      rw [hid]
      show _ = comboLines db comboId item.quantity
      unfold comboLines
      rw [hc]
      exact List.map_map
  | product hcombo hid hp =>
      rw [hcombo, hid, ← findProduct_id hp]
      rfl

/-- **The snapshot keeps what was sold**: the stored items expand to the lines that
placement depletes. -/
theorem soldLines_priced {db : Db} {items : List OrderItemDto} {stored : List OrderItem}
    (hp : List.Forall₂ (fun i l => priceLine db i = .ok l) items
      (stored.map (·.toNewOrderItem))) :
    soldLines stored = placementLines db items := by
  induction stored generalizing items with
  | nil =>
      cases hp
      rfl
  | cons s stored ih =>
      cases hp with
      | cons h hrest =>
          rename_i item items
          show soldAs s.toNewOrderItem ++ soldLines stored
            = placementOf db item ++ placementLines db items
          rw [ih hrest, priceLine_soldAs h]

end OraOS.Orders
