/-
  OraOS.Orders.CreateOnce — order creation is exactly-once per key.

  The calls are those of `CreateRace`, while stock and menu requests commit in
  between.

    * `WrittenBy`    — the rows of an order are those of one call;
    * `StockRead`    — and it got them in the run: it began, read a menu that was
                       committed after that, and later still the stock;
    * `rowsOf_publish_own`, `rowsOf_publish_other` — a commit writes to its own order
                       only;
    * `created_once` — one order for each key, its rows written once, and whoever
                       brings the key is answered with it.
-/
import OraOS.Orders.CreateRace

namespace OraOS.Orders

open OraOS.Api
open OraOS.Lib
open OraOS.Inventory
open OraOS.Marketing
open OraOS.Loyalty

/-! ## §1. The rows of an order. -/

/-- Everything that names an order, but for its own row. -/
structure OrderRows where
  paid : List Payment
  spent : List LoyaltyEntry
  moved : List StockMovement
  trail : List OrderEvent

/-- The rows of an order in four tables. -/
def rowsOf (db : Db) (orderId : Uuid) : OrderRows where
  paid := db.payments.filter fun p => p.orderId = orderId
  spent := db.loyaltyLedger.filter fun e => e.orderId = some orderId
  moved := db.movements.filter fun m => m.orderId = some orderId
  trail := db.orderEvents.filter fun e => e.orderId = orderId

/-- No rows. -/
def OrderRows.none : OrderRows := ⟨[], [], [], []⟩

/-- The rows of a transaction, as its commit leaves them. -/
def CreateTx.rows (tx : CreateTx) (ctx : TenantContext) : OrderRows :=
  ⟨tx.paid, tx.spent, tx.moved, [⟨tx.order.id, .created tx.order.status tx.order.items.length
    tx.order.totalMinor, ctx.userId⟩]⟩

/-- Every row names the order. -/
structure OrderRows.Name (rows : OrderRows) (orderId : Uuid) : Prop where
  paid : ∀ p ∈ rows.paid, p.orderId = orderId
  spent : ∀ e ∈ rows.spent, e.orderId = some orderId
  moved : ∀ m ∈ rows.moved, m.orderId = some orderId
  trail : ∀ e ∈ rows.trail, e.orderId = orderId

/-- Where an order had no rows, it has the new ones. -/
theorem filter_own {α : Type} {p : α → Bool} {l new : List α} (hl : l.filter p = [])
    (hnew : ∀ a ∈ new, p a = true) : (l ++ new).filter p = new := by
  rw [List.filter_append, hl, List.nil_append, List.filter_eq_self.mpr hnew]

/-- Rows of another order are none of its own. -/
theorem filter_other {α : Type} {p : α → Bool} {l new : List α} (hnew : ∀ a ∈ new, p a = false) :
    (l ++ new).filter p = l.filter p := by
  have hnone : new.filter p = [] := by
    rw [List.filter_eq_nil_iff]
    intro a ha
    rw [hnew a ha]
    exact nofun
  rw [List.filter_append, hnone, List.append_nil]

variable {db : Db} {ctx : TenantContext} {tx : CreateTx}

/-- **A commit writes its order's rows**, where the order had none. -/
theorem rowsOf_publish_own (hnone : rowsOf db tx.order.id = .none)
    (hname : (tx.rows ctx).Name tx.order.id) :
    rowsOf (tx.publish db ctx) tx.order.id = tx.rows ctx := by
  obtain ⟨hpaid, hspent, hmoved, htrail⟩ := hname
  injection hnone with h1 h2 h3 h4
  show OrderRows.mk ((db.payments ++ (tx.rows ctx).paid).filter _)
    ((db.loyaltyLedger ++ (tx.rows ctx).spent).filter _)
    ((db.movements ++ (tx.rows ctx).moved).filter _)
    ((db.orderEvents ++ (tx.rows ctx).trail).filter _) = _
  rw [filter_own h1 fun p hp => decide_eq_true (hpaid p hp),
    filter_own h2 fun e he => decide_eq_true (hspent e he),
    filter_own h3 fun m hm => decide_eq_true (hmoved m hm),
    filter_own h4 fun e he => decide_eq_true (htrail e he)]

/-- **… and no other order's.** -/
theorem rowsOf_publish_other (hname : (tx.rows ctx).Name tx.order.id) {orderId : Uuid}
    (hne : tx.order.id ≠ orderId) : rowsOf (tx.publish db ctx) orderId = rowsOf db orderId := by
  obtain ⟨hpaid, hspent, hmoved, htrail⟩ := hname
  show OrderRows.mk ((db.payments ++ (tx.rows ctx).paid).filter _)
    ((db.loyaltyLedger ++ (tx.rows ctx).spent).filter _)
    ((db.movements ++ (tx.rows ctx).moved).filter _)
    ((db.orderEvents ++ (tx.rows ctx).trail).filter _) = _
  rw [filter_other fun p hp => decide_eq_false (hpaid p hp ▸ hne),
    filter_other fun e he => decide_eq_false fun h => hne (Option.some.inj (hspent e he ▸ h)),
    filter_other fun m hm => decide_eq_false fun h => hne (Option.some.inj (hmoved m hm ▸ h)),
    filter_other fun e he => decide_eq_false (htrail e he ▸ hne)]
  rfl

/-! ## §2. The rows of one call. -/

/-- The debit of a redemption: exactly one where points pay, of that many. -/
def SpentAtPlacement (dto : CreateOrderDto) (orderId : Uuid) (spent : List LoyaltyEntry) : Prop :=
  match dto.redeemPoints with
  | none => spent = []
  | some n => ∃ e, spent = [e] ∧ e.type = .redeem ∧ e.points = -n ∧ e.orderId = some orderId

/-- What a sale consumes of the stock that is committed when its turn comes. -/
def MovedAtPlacement (r : CreateCall) (menu stock : Db) (orderId : Uuid)
    (moved : List StockMovement) : Prop :=
  moved.map (·.toNewMovement) = if r.dto.held then []
    else depletionRows stock r.env.now orderId r.ctx.userId (placementLines menu r.dto.items)

/-- **The order and its rows are those of one call**: a line for each item of the
request, the payment, the debit and the consumption once. -/
structure WrittenBy (r : CreateCall) (menu stock : Db) (o : Order) (rows : OrderRows) :
    Prop where
  key : o.idempotencyKey = r.dto.idempotencyKey
  lines : List.Forall₂ (fun i l => priceLine menu i = .ok l) r.dto.items
    (o.items.map (·.toNewOrderItem))
  paid : PaidAtPlacement o r.dto rows.paid
  spent : SpentAtPlacement r.dto o.id rows.spent
  moved : MovedAtPlacement r menu stock o.id rows.moved
  trail : rows.trail = [⟨o.id, .created o.status o.items.length o.totalMinor, r.ctx.userId⟩]

/-- What a call writes names its order. -/
theorem WrittenBy.name {r : CreateCall} {menu stock : Db} {o : Order} {rows : OrderRows}
    (h : WrittenBy r menu stock o rows) : rows.Name o.id := by
  refine ⟨?_, ?_, ?_, ?_⟩
  · intro p hp
    rcases h.paid with ⟨hnone, -⟩ | ⟨p', hone, hid, -⟩
    · rw [hnone] at hp
      cases hp
    · rw [hone, List.mem_singleton] at hp
      rw [hp, hid]
  · intro e he
    have hspent := h.spent
    unfold SpentAtPlacement at hspent
    split at hspent
    next =>
      rw [hspent] at he
      cases he
    next n _ =>
      obtain ⟨e', hone, -, -, hid⟩ := hspent
      rw [hone, List.mem_singleton] at he
      rw [he, hid]
  · intro m hm
    -- the movements are those of the sale, which carry its order
    have hmoved : rows.moved.map (·.toNewMovement) = _ := h.moved
    have hmem : m.toNewMovement ∈ rows.moved.map (·.toNewMovement) := List.mem_map_of_mem hm
    rw [hmoved] at hmem
    split at hmem
    next => cases hmem
    next => exact (depletionRows_tagged _ hmem).1
  · intro e he
    rw [h.trail, List.mem_singleton] at he
    rw [he]

/-- What is known of a price. -/
structure PricedFrom (r : CreateCall) (menu : Db) (p : PricedOrder) : Prop where
  sources : discountSources r.dto ≤ 1
  lines : List.Forall₂ (fun i l => priceLine menu i = .ok l) r.dto.items p.lines
  points : p.discount.redeemPoints = r.dto.redeemPoints.getD 0

/-- The one discount source is the points, or no points pay. -/
theorem discountFor_redeem {db : Db} {now : Instant} {dto : CreateOrderDto} {subtotalMinor : ℤ}
    {d : Discount} (hs : discountSources dto ≤ 1)
    (h : discountFor db now dto subtotalMinor = .ok d) :
    d.redeemPoints = dto.redeemPoints.getD 0 := by
  -- one source of discount at most, so another one leaves no points
  have honly : (truthy dto.couponCode).isSome ∨ dto.manualDiscountMinor.isSome →
      dto.redeemPoints = none := by
    intro hother
    by_contra hset
    have hpoints : dto.redeemPoints.isSome = true := Option.isSome_iff_ne_none.mpr hset
    have hfirst : dto.couponCode.isSome = true ∨ dto.manualDiscountMinor.isSome = true := by
      refine hother.imp_left fun h => ?_
      obtain ⟨code, hcode⟩ := Option.isSome_iff_exists.mp h
      rw [truthy_some hcode]
      rfl
    have hcount : ∀ a b : Bool, [a, b, true].count true ≤ 1 → a = false ∧ b = false := by decide
    unfold discountSources at hs
    rw [hpoints] at hs
    obtain ⟨hcoupon, hmanual⟩ := hcount _ _ hs
    rcases hfirst with h | h
    · rw [hcoupon] at h
      cases h
    · rw [hmanual] at h
      cases h
  unfold discountFor at h
  split at h
  next code _ _ hcode =>
    obtain ⟨r, -, h⟩ := bind_ok.mp h
    cases pure_ok.mp h
    rw [honly (.inl (by rw [hcode]; rfl))]
    rfl
  next manual _ _ hmanual =>
    obtain ⟨-, -, h⟩ := bind_ok.mp h
    cases pure_ok.mp h
    rw [honly (.inr (by rw [hmanual]; rfl))]
    rfl
  next points _ _ hpoints =>
    dsimp only at h
    split at h
    next r hr =>
      cases h
      rw [hpoints]
      exact (redemptionFor_ok hr).1
    next => cases h
  next hnone =>
    cases h
    rw [hnone]
    rfl

/-- A request with one source of discount is priced from the menu it read. -/
theorem price_ok {db menu : Db} {r : CreateCall} {branchId : Uuid} {p : PricedOrder}
    (hs : discountSources r.dto ≤ 1) (h : price db menu r.env.now r.dto branchId = .ok p) :
    PricedFrom r menu p := by
  obtain ⟨lines, hlines, h⟩ := bind_ok.mp h
  obtain ⟨discount, hdiscount, h⟩ := bind_ok.mp h
  cases pure_ok.mp h
  exact ⟨hs, mapM_ok.mp hlines, discountFor_redeem hs hdiscount⟩

/-! ## §3. When a call got its rows. -/

/-- What any number of creations at once do, and menu, stock and procurement requests. -/
abbrev CreateOnceEvent := SessionEvent CreateCall OrderIndex (TenantContext × StockRequest)

/-- Menu, stock and procurement requests, as what they leave. -/
def stockRequests (db : Db) (e : TenantContext × StockRequest) : Db :=
  match performStock db e.1 e.2 with
  | .ok db' => db'
  | .error _ => db

/-- `db` is what the events `past` have left committed, in a run from `db₀`. -/
def CommittedAfter (db₀ : Db) (past : List CreateOnceEvent) (db : Db) : Prop :=
  (createSession stockRequests).Past db₀ past db

/-- The call is one of the run's. -/
def Begun (r : CreateCall) : List CreateOnceEvent → Prop :=
  System.Earlier fun upto => ∃ i before, upto = before ++ [.begin i r]

/-- Its menu is what was committed at some time after that. -/
def MenuRead (db₀ : Db) (r : CreateCall) (menu : Db) : List CreateOnceEvent → Prop :=
  System.Earlier fun upto => Begun r upto ∧ CommittedAfter db₀ upto menu

/-- And the stock it drew on what was committed later still. -/
def StockRead (db₀ : Db) (r : CreateCall) (menu stock : Db) : List CreateOnceEvent → Prop :=
  System.Earlier fun upto => MenuRead db₀ r menu upto ∧ CommittedAfter db₀ upto stock

/-- The rows of a transaction, but for the statements still to come. -/
structure Writing (db₀ : Db) (past : List CreateOnceEvent) (r : CreateCall) (tx : CreateTx)
    (todo : List Write) : Prop where
  priced : PricedFrom r tx.menu tx.priced
  begun : Begun r past
  key : tx.order.idempotencyKey = r.dto.idempotencyKey
  items : tx.order.items.map (·.toNewOrderItem) = tx.priced.lines
  paid : .payment ∈ todo ∨ PaidAtPlacement tx.order r.dto tx.paid
  spent : (.points ∈ todo ∧ tx.spent = []) ∨ SpentAtPlacement r.dto tx.order.id tx.spent
  moved : (.stock ∈ todo ∧ MenuRead db₀ r tx.menu past)
    ∨ ∃ stock, StockRead db₀ r tx.menu stock past
      ∧ MovedAtPlacement r tx.menu stock tx.order.id tx.moved

/-- **With nothing left to write, the order is written by its call.** -/
theorem Writing.done {db₀ : Db} {past : List CreateOnceEvent} {r : CreateCall} {tx : CreateTx}
    (h : Writing db₀ past r tx []) : ∃ stock, StockRead db₀ r tx.menu stock past
      ∧ WrittenBy r tx.menu stock tx.order (tx.rows r.ctx) := by
  obtain ⟨stock, hstock, hmoved⟩ := h.moved.resolve_left fun hleft => List.not_mem_nil hleft.1
  refine ⟨stock, hstock, ?_⟩
  exact
    { key := h.key
      lines := by
        rw [h.items]
        exact h.priced.lines
      paid := h.paid.resolve_left List.not_mem_nil
      spent := h.spent.resolve_left fun hleft => List.not_mem_nil hleft.1
      moved := hmoved
      trail := rfl }

/-- The rows stay what they are while other events pass. -/
theorem Writing.wait {db₀ : Db} {past : List CreateOnceEvent} {r : CreateCall} {tx : CreateTx}
    {todo : List Write} (h : Writing db₀ past r tx todo) (e : CreateOnceEvent) :
    Writing db₀ (past ++ [e]) r tx todo where
  priced := h.priced
  begun := h.begun.later e
  key := h.key
  items := h.items
  paid := h.paid
  spent := h.spent
  moved := by
    refine h.moved.imp (fun hleft => ⟨hleft.1, hleft.2.later e⟩) ?_
    intro hmoved
    obtain ⟨stock, hstock, hrows⟩ := hmoved
    exact ⟨stock, hstock.later e, hrows⟩

/-- The payment of a placed order. -/
theorem paymentRows_ok {db : Db} {env : Env} {o : Order} {dto : CreateOrderDto}
    {paid : List Payment} (h : paymentRows db env o dto = .ok paid) :
    PaidAtPlacement o dto paid := by
  unfold paymentRows at h
  split at h
  next method hmethod =>
    obtain ⟨-, -, h⟩ := bind_ok.mp h
    split at h
    next =>
      obtain ⟨-, -, h⟩ := bind_ok.mp h
      cases pure_ok.mp h
      exact .inr ⟨_, rfl, rfl, rfl, rfl, by rw [hmethod]; rfl⟩
    next => cases h
  next hmethod =>
    cases h
    exact .inl ⟨rfl, hmethod⟩

/-- The movements of a placed order, from the stock they were drawn from. -/
theorem movementRows_ok {db menu : Db} {r : CreateCall} {orderId : Uuid}
    {moved : List StockMovement} (h : movementRows db r menu orderId = .ok moved) :
    MovedAtPlacement r menu db orderId moved := by
  unfold movementRows at h
  unfold MovedAtPlacement
  split at h
  next hheld =>
    cases h
    rw [if_pos hheld]
    rfl
  next hheld =>
    cases hrows : createMany db.movements (depletionRows db r.env.now orderId r.ctx.userId
        (placementLines menu r.dto.items)) with
    | error e =>
        rw [hrows] at h
        cases h
    | ok movements =>
        -- what is left behind the old rows are the new ones
        obtain ⟨new, hnew, rfl⟩ := createMany_ok hrows
        rw [hrows] at h
        injection h with h
        change (db.movements ++ new).drop db.movements.length = moved at h
        rw [List.drop_left] at h
        subst h
        rw [if_neg hheld]
        exact hnew

/-- The debit is of the points the request names. -/
theorem debit_spent {r : CreateCall} {menu : Db} {p : PricedOrder} {customerId orderId : Uuid}
    {db : Db} {e : LoyaltyEntry} (hp : PricedFrom r menu p) (hpos : 0 < p.discount.redeemPoints)
    (he : insertEntry db (debitEntry r.ctx customerId orderId p.discount) = .ok e) :
    SpentAtPlacement r.dto orderId [e] := by
  have hrow := insertEntry_ok he
  have hpoints := hp.points
  unfold SpentAtPlacement
  split
  next hnone =>
    rw [hnone] at hpoints
    rw [hpoints] at hpos
    exact absurd hpos (lt_irrefl _)
  next n hn =>
    rw [hn] at hpoints
    refine ⟨e, rfl, by rw [hrow]; rfl, ?_, by rw [hrow]; rfl⟩
    rw [hrow]
    show -p.discount.redeemPoints = -n
    rw [hpoints]
    rfl

/-- No points, no debit. -/
theorem free_spent {r : CreateCall} {menu : Db} {p : PricedOrder} {orderId : Uuid}
    (hp : PricedFrom r menu p) (hfree : ¬ 0 < p.discount.redeemPoints) :
    SpentAtPlacement r.dto orderId [] := by
  unfold SpentAtPlacement
  split
  next => rfl
  next n hn =>
    have hpoints := hp.points
    rw [hn] at hpoints
    have hmin := (r.dto.redeemPoints_ok n hn).1
    change p.discount.redeemPoints = n at hpoints
    omega

/-- **One statement of the writes**, on what is committed after the events `past`. -/
theorem Writing.write {db₀ db : Db} {past : List CreateOnceEvent} {r : CreateCall}
    {tx tx' : CreateTx} {w : Write} {todo : List Write} (hnow : CommittedAfter db₀ past db)
    (h : Writing db₀ past r tx (w :: todo)) (hw : write db r tx w = .ok tx') :
    Writing db₀ past r tx' todo := by
  obtain ⟨hpriced, hbegun, hkey, hitems, hpaid, hspent, hmoved⟩ := h
  -- a statement leaves the rows of the others to come, or as they were written
  have hpaid' (hne : .payment ≠ w) : .payment ∈ todo ∨ PaidAtPlacement tx.order r.dto tx.paid :=
    hpaid.imp_left (List.mem_of_ne_of_mem hne)
  have hspent' (hne : .points ≠ w) :
      (.points ∈ todo ∧ tx.spent = []) ∨ SpentAtPlacement r.dto tx.order.id tx.spent :=
    hspent.imp_left fun h => ⟨List.mem_of_ne_of_mem hne h.1, h.2⟩
  have hmoved' (hne : .stock ≠ w) : (.stock ∈ todo ∧ MenuRead db₀ r tx.menu past)
      ∨ ∃ stock, StockRead db₀ r tx.menu stock past
        ∧ MovedAtPlacement r tx.menu stock tx.order.id tx.moved :=
    hmoved.imp_left fun h => ⟨List.mem_of_ne_of_mem hne h.1, h.2⟩
  have hcase := write_ok hw
  clear hw
  cases hcase with
  | coupon redemptions =>
      exact ⟨hpriced, hbegun, hkey, hitems, hpaid' nofun, hspent' nofun, hmoved' nofun⟩
  | looked hw =>
      rcases hw with rfl | rfl
      · exact ⟨hpriced, hbegun, hkey, hitems, hpaid' nofun, hspent' nofun, hmoved' nofun⟩
      · exact ⟨hpriced, hbegun, hkey, hitems, hpaid' nofun, hspent' nofun, hmoved' nofun⟩
  | free hfree =>
      refine ⟨hpriced, hbegun, hkey, hitems, hpaid' nofun, .inr ?_, hmoved' nofun⟩
      rcases hspent with ⟨-, hnone⟩ | hspent
      · rw [hnone]
        exact free_spent hpriced hfree
      · exact hspent
  | debited logs hpos he =>
      exact ⟨hpriced, hbegun, hkey, hitems, hpaid' nofun, .inr (debit_spent hpriced hpos he),
        hmoved' nofun⟩
  | logged logs =>
      exact ⟨hpriced, hbegun, hkey, hitems, hpaid' nofun, hspent' nofun, hmoved' nofun⟩
  | paid hrows =>
      exact ⟨hpriced, hbegun, hkey, hitems, .inr (paymentRows_ok hrows), hspent' nofun,
        hmoved' nofun⟩
  | moved hrows =>
      refine ⟨hpriced, hbegun, hkey, hitems, hpaid' nofun, hspent' nofun, .inr ?_⟩
      rcases hmoved with ⟨-, hmenu⟩ | ⟨stock, ⟨drawn, hdrawn, hmenu, -⟩, -⟩
      · exact ⟨db, .now ⟨hmenu, hnow⟩, movementRows_ok hrows⟩
      -- a second reading of the stock would be one of now as well
      · obtain ⟨looked, hlooked, hread⟩ := hmenu
        exact ⟨db, .now ⟨⟨looked, hlooked.trans hdrawn, hread⟩, hnow⟩, movementRows_ok hrows⟩

/-! ## §4. What every step keeps. -/

/-- What a call has in hand after the events `past`. -/
def InHand (db₀ : Db) (past : List CreateOnceEvent) (db : Db) (r : CreateCall) :
    CreatePhase → Prop
  | .menuRead _ menu => discountSources r.dto ≤ 1 ∧ Begun r past ∧ MenuRead db₀ r menu past
  | .customerRead _ menu => discountSources r.dto ≤ 1 ∧ Begun r past ∧ MenuRead db₀ r menu past
  | .branchRead _ menu _ => discountSources r.dto ≤ 1 ∧ Begun r past ∧ MenuRead db₀ r menu past
  | .priced _ menu p => PricedFrom r menu p ∧ Begun r past ∧ MenuRead db₀ r menu past
  | .numbered _ menu p _ => PricedFrom r menu p ∧ Begun r past ∧ MenuRead db₀ r menu past
  | .entering _ tx _ =>
      (PricedFrom r tx.menu tx.priced ∧ Begun r past ∧ MenuRead db₀ r tx.menu past)
        ∧ tx.order.idempotencyKey = r.dto.idempotencyKey ∧ tx.spent = []
  | .writing _ tx todo => Writing db₀ past r tx todo
  | .answered (.ok (o, _)) => o ∈ db.orders ∧ o.idempotencyKey = r.dto.idempotencyKey
  | .answered (.error _) => True
  | _ => discountSources r.dto ≤ 1 ∧ Begun r past

/-- A call that is not answered was begun, and its request passed the checks. -/
theorem InHand.asked {db₀ : Db} {past : List CreateOnceEvent} {r : CreateCall} {p : CreatePhase}
    (h : InHand db₀ past db r p) (hp : p.isAnswered = false) :
    discountSources r.dto ≤ 1 ∧ Begun r past := by
  cases p with
  | menuRead left menu => exact ⟨h.1, h.2.1⟩
  | customerRead left menu => exact ⟨h.1, h.2.1⟩
  | branchRead left menu branchId => exact ⟨h.1, h.2.1⟩
  | priced left menu p => exact ⟨h.1.sources, h.2.1⟩
  | numbered left menu p orderNumber => exact ⟨h.1.sources, h.2.1⟩
  | entering left tx todo => exact ⟨h.1.1.sources, h.1.2.1⟩
  | writing left tx todo =>
      have hw : Writing db₀ past r tx todo := h
      exact ⟨hw.priced.sources, hw.begun⟩
  | answered result => cases hp
  | _ => exact h

/-- What a call has in hand, it has while other events pass. -/
theorem InHand.wait {db₀ : Db} {past : List CreateOnceEvent} {r : CreateCall} {p : CreatePhase}
    (h : InHand db₀ past db r p) (e : CreateOnceEvent) : InHand db₀ (past ++ [e]) db r p := by
  cases p with
  | menuRead left menu => exact ⟨h.1, h.2.1.later e, h.2.2.later e⟩
  | customerRead left menu => exact ⟨h.1, h.2.1.later e, h.2.2.later e⟩
  | branchRead left menu branchId => exact ⟨h.1, h.2.1.later e, h.2.2.later e⟩
  | priced left menu p => exact ⟨h.1, h.2.1.later e, h.2.2.later e⟩
  | numbered left menu p orderNumber => exact ⟨h.1, h.2.1.later e, h.2.2.later e⟩
  | entering left tx todo => exact ⟨⟨h.1.1, h.1.2.1.later e, h.1.2.2.later e⟩, h.2⟩
  | writing left tx todo => exact Writing.wait h e
  | answered result =>
      cases result with
      | error e => trivial
      | ok x => exact h
  | _ => exact ⟨h.1, h.2.later e⟩

/-- A request with two discounts is refused. -/
theorem checkRequest_sources {dto : CreateOrderDto} {u : Unit} (h : checkRequest ctx dto = .ok u) :
    discountSources dto ≤ 1 := by
  simp only [checkRequest, bind_ok, require_ok] at h
  obtain ⟨-, -, -, hsources, -⟩ := h
  exact hsources

/-- **One statement of a call, and what the call knows after it.** -/
theorem advance_inHand {db₀ : Db} {past : List CreateOnceEvent} {r : CreateCall}
    {p p' : CreatePhase} {k : Option OrderLock} (hnow : CommittedAfter db₀ past db)
    (h : InHand db₀ past db r p) (hadv : Advance db r p k p') : InHand db₀ past db r p' := by
  cases hadv with
  | failed hp k left e => exact h.asked hp
  | menu left => exact ⟨h.1, h.2, .now ⟨h.2, hnow⟩⟩
  | customer left menu => exact h
  | branch left menu branchId => exact h
  | priced hprice => exact ⟨price_ok h.1 hprice, h.2⟩
  | numbered left menu p => exact h
  | row hrow => exact ⟨h, (orderRow_ok hrow).2, rfl⟩
  | entered hfree => exact h
  | items hitems =>
      obtain ⟨⟨hpriced, hbegun, hmenu⟩, hkey, hspent⟩ := h
      obtain ⟨items, hstored, rfl⟩ := withItems_ok hitems
      exact ⟨hpriced, hbegun, hkey, storeItems_ok hstored, .inl (by decide),
        .inl ⟨by decide, hspent⟩, .inl ⟨by decide, hmenu⟩⟩
  | wrote hw => exact Writing.write hnow h hw

/-- The keys are unique, and rows name orders that are there. -/
structure WellKept (db : Db) : Prop where
  keys : db.orders.Pairwise fun x y =>
    x.idempotencyKey = none ∨ x.idempotencyKey ≠ y.idempotencyKey
  known : ∀ orderId, (∀ o ∈ db.orders, o.id ≠ orderId) → rowsOf db orderId = .none

/-- An order of before, with nothing added to it, or one that a call of the run has
written: begun with the order's key, its lines those of a menu committed since, its
consumption that of the stock committed later still. -/
def WrittenOnce (db₀ : Db) (past : List CreateOnceEvent) (db : Db) (o : Order) : Prop :=
  (o ∈ db₀.orders ∧ rowsOf db o.id = rowsOf db₀ o.id)
    ∨ ∃ r menu stock, StockRead db₀ r menu stock past
      ∧ WrittenBy r menu stock o (rowsOf db o.id)

/-- What was written once stays so while time passes. -/
theorem WrittenOnce.wait {db₀ : Db} {past : List CreateOnceEvent} {o : Order}
    (h : WrittenOnce db₀ past db o) (e : CreateOnceEvent) :
    WrittenOnce db₀ (past ++ [e]) db o := by
  refine h.imp_right ?_
  intro hwritten
  obtain ⟨r, menu, stock, hread, hby⟩ := hwritten
  exact ⟨r, menu, stock, hread.later e, hby⟩

/-- Every order so far was written once, by a call that was begun. -/
def OnceKept (db₀ : Db) (past : List CreateOnceEvent) (db : Db) : Prop :=
  WellKept db ∧ ∀ o ∈ db.orders, WrittenOnce db₀ past db o

/-- Orders that were there at the start are accounted for. -/
theorem WellKept.onceKept (h : WellKept db) : OnceKept db [] db :=
  ⟨h, fun _ ho => .inl ⟨ho, rfl⟩⟩

/-- **A commit keeps it**: the row's id and key were free. -/
theorem OnceKept.publish {db₀ stock : Db} {past : List CreateOnceEvent} {r : CreateCall}
    (h : OnceKept db₀ past db) (hfree : ∀ ix, OrderIndex.Free db tx.order ix)
    (hread : StockRead db₀ r tx.menu stock past)
    (hw : WrittenBy r tx.menu stock tx.order (tx.rows r.ctx)) :
    OnceKept db₀ past (tx.publish db r.ctx) := by
  obtain ⟨⟨hkeys, hknown⟩, honce⟩ := h
  have hid : ∀ x ∈ db.orders, x.id ≠ tx.order.id := hfree .id
  have hname := hw.name
  refine ⟨⟨?_, ?_⟩, ?_⟩
  · show (db.orders ++ [tx.order]).Pairwise _
    rw [List.pairwise_append]
    refine ⟨hkeys, List.pairwise_singleton _ _, ?_⟩
    intro x hx y hy
    rw [List.mem_singleton] at hy
    subst hy
    rcases (free_iff db tx.order .key).mp (hfree .key) with hnone | hnew
    · by_cases hset : x.idempotencyKey = none
      · exact .inl hset
      · exact .inr fun heq => hset (heq.trans hnone)
    · exact .inr fun heq => hnew (heq ▸ List.mem_map_of_mem hx)
  · intro orderId hno
    have hne : tx.order.id ≠ orderId :=
      hno tx.order (List.mem_append_right _ (List.mem_singleton_self _))
    rw [rowsOf_publish_other hname hne]
    exact hknown orderId fun o ho => hno o (List.mem_append_left _ ho)
  · intro o ho
    rcases List.mem_append.mp ho with ho | ho
    · -- an older order has another id
      unfold WrittenOnce
      rw [rowsOf_publish_other hname (hid o ho).symm]
      exact honce o ho
    · rw [List.mem_singleton] at ho
      subst ho
      refine .inr ⟨r, tx.menu, stock, hread, ?_⟩
      rw [rowsOf_publish_own (hknown _ hid) hname]
      exact hw

theorem stockRequests_leavesOrders (db : Db) (e : TenantContext × StockRequest) :
    LeavesOrders db (stockRequests db e) := by
  unfold stockRequests
  split
  next db' h => exact performStock_leavesOrders h
  next => exact .refl db

theorem rowsOf_leavesOrders {db' : Db} (h : LeavesOrders db db') (orderId : Uuid) :
    rowsOf db' orderId = rowsOf db orderId := by
  obtain ⟨-, hevents, hpayments, -, hledger, -, new, hmovements, hnew⟩ := h
  unfold rowsOf
  rw [hevents, hpayments, hledger, hmovements]
  rw [filter_other fun m hm => by rw [hnew m hm]; exact decide_eq_false nofun]

theorem OnceKept.leavesOrders {db₀ db' : Db} {past : List CreateOnceEvent}
    (h : OnceKept db₀ past db) (hl : LeavesOrders db db') : OnceKept db₀ past db' := by
  obtain ⟨⟨hkeys, hknown⟩, honce⟩ := h
  refine ⟨⟨?_, ?_⟩, ?_⟩
  · rw [hl.orders]
    exact hkeys
  · intro orderId
    rw [hl.orders, rowsOf_leavesOrders hl]
    exact hknown orderId
  · intro o
    unfold WrittenOnce
    rw [hl.orders, rowsOf_leavesOrders hl]
    exact honce o

/-- What a call knows stays true as orders are added. -/
theorem InHand.mono {db₀ db' : Db} {past : List CreateOnceEvent} {r : CreateCall}
    {p : CreatePhase} (h : InHand db₀ past db r p) (ho : ∀ o ∈ db.orders, o ∈ db'.orders) :
    InHand db₀ past db' r p := by
  cases p with
  | answered result =>
      cases result with
      | error e => trivial
      | ok x => exact ⟨ho _ h.1, h.2⟩
  | _ => exact h

/-- A call that was begun has its request in hand. -/
theorem start_inHand {db₀ : Db} {past : List CreateOnceEvent} {r : CreateCall}
    (hbegun : Begun r past) : InHand db₀ past db r r.start := by
  unfold CreateCall.start
  cases hcheck : checkRequest r.ctx r.dto with
  | error e => trivial
  | ok u =>
      dsimp only
      split
      · exact ⟨checkRequest_sources hcheck, hbegun⟩
      · exact ⟨checkRequest_sources hcheck, hbegun⟩

/-- **What is kept of the past**: the rows of every order are those of one call, and
every call has in hand what it has found so far. -/
theorem once_recalls {db₀ : Db} (h₀ : WellKept db₀) :
    (createSession stockRequests).Recalls db₀ Entered (OnceKept db₀)
      (fun past db t => InHand db₀ past db t.1 t.2) where
  init := h₀.onceKept
  later past e db h := ⟨h.1, fun o ho => (h.2 o ho).wait e⟩
  knowLater past e db t h := InHand.wait h e
  start past db i r _ := start_inHand (.now ⟨i, past, rfl⟩)
  keeps past := by
    refine createSession_keeps ?_ ?_ ?_ ?_
    · intro db r p k p' _ hnow h hadv
      exact advance_inHand hnow.2 h hadv
    · intro db r p p' _ h hp hend
      cases hend with
      | found hfind => exact findByIdempotencyKey_some hfind
      | refused e => trivial
      | again left => exact h.asked hp
      | lost e => exact h.asked hp
    -- the commit: everything of the order is written, from what was read on the way
    · intro db r left tx hinv hentered h
      obtain ⟨stock, hread, hw⟩ := Writing.done h
      refine ⟨hinv.publish hentered.1 hread hw, ⟨?_, hw.key⟩, fun r' p' h' => h'.mono ?_⟩
      · exact List.mem_append_right _ (List.mem_singleton_self _)
      · exact fun o ho => List.mem_append_left _ ho
    · intro db e hinv
      have hl := stockRequests_leavesOrders db e
      refine ⟨hinv.leavesOrders hl, fun r p h => h.mono ?_⟩
      intro o ho
      rw [hl.orders]
      exact ho

/-! ## §5. Exactly once. -/

/-- Creation is exactly-once for the key `k`, after the events `past` from `db₀`. -/
structure CreatedOnce (db₀ : Db) (past : List CreateOnceEvent)
    (c : Sessions Db (CreateCall × CreatePhase) OrderLock) (k : String) : Prop where
  one : (c.shared.orders.filter fun o => o.idempotencyKey = some k).length ≤ 1
  written : ∀ o ∈ c.shared.orders, o.idempotencyKey = some k → WrittenOnce db₀ past c.shared o
  /-- a call that lost its order has left nothing -/
  known : ∀ orderId, (∀ o ∈ c.shared.orders, o.id ≠ orderId) → rowsOf c.shared orderId = .none
  /-- and the order with the key is what every call with the key is answered with -/
  answered : ∀ i r o hooks, c.running i = some (r, .answered (.ok (o, hooks))) →
    r.dto.idempotencyKey = some k → o ∈ c.shared.orders ∧ o.idempotencyKey = some k

/-- **There is one order to a key.** -/
theorem WellKept.one (h : WellKept db) (k : String) :
    (db.orders.filter fun o => o.idempotencyKey = some k).length ≤ 1 := by
  have hfilter := (h.keys.filter fun o => decide (o.idempotencyKey = some k))
  cases hrows : db.orders.filter fun o => o.idempotencyKey = some k with
  | nil => exact Nat.zero_le 1
  | cons x rows =>
      cases rows with
      | nil => exact le_refl 1
      | cons y rows =>
          -- two rows with the key would be a pair with one key
          have hx : x ∈ db.orders.filter fun o => o.idempotencyKey = some k := by
            rw [hrows]
            exact List.mem_cons_self
          have hy : y ∈ db.orders.filter fun o => o.idempotencyKey = some k := by
            rw [hrows]
            exact List.mem_cons_of_mem _ List.mem_cons_self
          have hkx : x.idempotencyKey = some k := of_decide_eq_true (List.mem_filter.mp hx).2
          have hky : y.idempotencyKey = some k := of_decide_eq_true (List.mem_filter.mp hy).2
          rw [hrows] at hfilter
          rcases (List.pairwise_cons.mp hfilter).1 y List.mem_cons_self with hnone | hne
          · rw [hkx] at hnone
            cases hnone
          · exact absurd (hkx.trans hky.symm) hne

/-- **Order creation is exactly-once per key**: however the calls interleave, retry
and get lost. -/
theorem created_once {db₀ : Db} (h₀ : WellKept db₀) {past : List CreateOnceEvent}
    {c : Sessions Db (CreateCall × CreatePhase) OrderLock}
    (h : ((createSession stockRequests).interleaved fun db => db = db₀).Run
      (Session.quiet db₀) past c) (k : String) : CreatedOnce db₀ past c k := by
  have henv : KeepsEntries stockRequests := fun db e =>
    entriesOf_eq (stockRequests_leavesOrders db e).orders
  obtain ⟨hkept, hinHand⟩ :=
    Session.recalled (createSession_knows henv) (once_recalls h₀) trivial h
  refine ⟨hkept.1.one k, fun o ho _ => hkept.2 o ho, hkept.1.known, ?_⟩
  intro i r o hooks hi hkey
  have hanswer : o ∈ c.shared.orders ∧ o.idempotencyKey = r.dto.idempotencyKey :=
    hinHand i _ hi
  exact ⟨hanswer.1, hanswer.2.trans hkey⟩

theorem lassiBar_wellKept : WellKept lassiBar :=
  ⟨.nil, fun _ _ => rfl⟩

/-- A lassi rung up for cash under a key. -/
def keyedLassi (id : Uuid) : CreateCall :=
  ⟨cashier, ⟨id, 0⟩, { lassiOrder none (some .cash) none with idempotencyKey := some "till-1" }⟩

/-- Statements of session `i` that leave the database no choice. -/
def statements (i n : ℕ) : List CreateOnceEvent := List.replicate n (.run i .id)

/-- The same sale is sent twice; the second has found no order yet, waits for the key
of the first, and is answered with the order it lost to. -/
def sentTwice : List CreateOnceEvent :=
  .begin 0 (keyedLassi 20) :: .begin 1 (keyedLassi 21)
    :: [statements 0 7, statements 1 7, [.run 0 .id, .run 0 .number, .run 0 .key], statements 0 9,
      [.run 1 .id, .run 1 .key], statements 1 2].flatten

theorem sentTwice_runs : (System.replay (createSession stockRequests).act sentTwice
    (Session.quiet lassiBar)).isSome = true := by decide +kernel

/-- The id of the order that session `i` was answered with. -/
def answeredId (c : Sessions Db (CreateCall × CreatePhase) OrderLock) (i : ℕ) : Option Uuid :=
  match c.running i with
  | some (_, .answered (.ok (o, _))) => some o.id
  | _ => none

/-- One order and one payment, and both calls are answered with it. -/
theorem created_once_till :
    ∃ c, ((createSession stockRequests).interleaved fun db => db = lassiBar).Run
        (Session.quiet lassiBar) sentTwice c
      ∧ c.shared.orders.map (·.id) = [20] ∧ c.shared.payments.length = 1
      ∧ answeredId c 0 = some 20 ∧ answeredId c 1 = some 20
      ∧ CreatedOnce lassiBar sentTwice c "till-1" := by
  have hrun : ((createSession stockRequests).interleaved fun db => db = lassiBar).Run
      (Session.quiet lassiBar) sentTwice
      ((System.replay (createSession stockRequests).act sentTwice
        (Session.quiet lassiBar)).get sentTwice_runs) :=
    System.replay_run (f := (createSession stockRequests).act) (fun _ _ _ hstep => hstep)
      sentTwice _ _ (Option.some_get sentTwice_runs).symm
  exact ⟨_, hrun, by decide +kernel, by decide +kernel, by decide +kernel, by decide +kernel,
    created_once lassiBar_wellKept hrun "till-1"⟩

end OraOS.Orders
