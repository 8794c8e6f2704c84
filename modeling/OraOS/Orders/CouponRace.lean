/-
  OraOS.Orders.CouponRace — coupons redeemed by any number of creations at once.

  A creation counts the redemptions of its coupon when it prices the order, and adds its
  own when it commits; no lock is taken in between.

    * `redemptions_of_orders` — a redemption is one order's, for that order's discount;
    * `coupon_limit`          — `n + 1` creations at once exceed a limit by `n` at most.
-/
import OraOS.Lib.Quota
import OraOS.Orders.CreateRace

namespace OraOS.Orders

open OraOS.Api
open OraOS.Lib
open OraOS.Inventory
open OraOS.Marketing
open OraOS.Loyalty

/-! ## §1. What else happens to a coupon. -/

section

variable {db db' : Db} {ctx : TenantContext} {env : Env}

theorem writeMovement_redemptions {m : NewMovement} {row : StockMovement}
    (h : writeMovement db m = .ok (row, db')) : db'.couponRedemptions = db.couponRedemptions := by
  simp only [writeMovement, bind_ok, pure_ok] at h
  obtain ⟨movements, -, _, -, hdb⟩ := h
  cases hdb
  rfl

theorem writeOnce_redemptions {key : Option String} {row : StockMovement}
    {write : Except ApiError (StockMovement × Db)}
    (hw : ∀ row' db'', write = .ok (row', db'') → db''.couponRedemptions = db.couponRedemptions)
    (h : writeOnce db key write = .ok (row, db')) :
    db'.couponRedemptions = db.couponRedemptions := by
  unfold writeOnce at h
  split at h
  next =>
    cases h
    rfl
  next => exact hw row db' h

theorem createBatchAttempts_redemptions {id : Uuid} {dto : CreateBatchDto} {batch : PrepBatch}
    {codes : List String} (h : createBatchAttempts db ctx env id dto codes = .ok (batch, db')) :
    db'.couponRedemptions = db.couponRedemptions := by
  -- over the codes, as the attempts go
  induction codes with
  | nil => cases h
  | cons code codes ih =>
      unfold createBatchAttempts at h
      split at h
      next result hdo =>
        cases h
        simp only [doCreateBatch, bind_ok] at hdo
        obtain ⟨_, -, _, -, _, -, _, -, _, -, _, -, _, -, movements, -, h⟩ := hdo
        cases pure_ok.mp h
        rfl
      next =>
        split at h
        next =>
          cases h
          rfl
        next => exact ih h
      next => cases h

theorem startAttempts_redemptions {dto : StartStockCountDto} {count : StockCount}
    {codes : List String} (h : startAttempts db ctx env dto codes = .ok (count, db')) :
    db'.couponRedemptions = db.couponRedemptions := by
  induction codes with
  | nil => cases h
  | cons code codes ih =>
      unfold startAttempts at h
      split at h
      next => exact ih h
      next =>
        simp only [startWithCode, bind_ok] at h
        obtain ⟨_, -, _, -, _, -, _, -, h⟩ := h
        cases pure_ok.mp h
        rfl

/-- No stock request writes to the redemptions. -/
theorem performStock_redemptions {r : StockRequest} (h : performStock db ctx r = .ok db') :
    db'.couponRedemptions = db.couponRedemptions := by
  -- request by request: none of them names the redemptions in what it writes
  cases r with
  | catalogue c =>
      cases h
      rfl
  | setRecipe productId dto =>
      simp only [performStock, setRecipe, bind_ok, pure_ok] at h
      obtain ⟨-, -, -, -, -, -, rfl⟩ := h
      rfl
  | setPrepRecipe id dto =>
      obtain ⟨-, -, h⟩ := bind_ok.mp h
      obtain ⟨-, -, h⟩ := bind_ok.mp h
      split at h
      next => cases h
      next =>
        obtain ⟨-, -, h⟩ := bind_ok.mp h
        obtain ⟨-, -, h⟩ := bind_ok.mp h
        cases pure_ok.mp h
        rfl
  | createBatch env codes id dto =>
      obtain ⟨_, hok, h⟩ := bind_ok.mp h
      cases pure_ok.mp h
      unfold createBatch at hok
      split at hok
      next =>
        cases hok
        rfl
      next => exact createBatchAttempts_redemptions hok
  | wasteBatch batchId dto =>
      obtain ⟨_, hok, h⟩ := bind_ok.mp h
      cases pure_ok.mp h
      refine writeOnce_redemptions (fun row' db'' hw => ?_) hok
      obtain ⟨batch, -, hw⟩ := bind_ok.mp hw
      obtain ⟨-, -, hw⟩ := bind_ok.mp hw
      exact writeMovement_redemptions hw
  | recordMovement ingredientId dto =>
      obtain ⟨_, hok, h⟩ := bind_ok.mp h
      cases pure_ok.mp h
      obtain ⟨⟨type, sign⟩, -, hok⟩ := bind_ok.mp hok
      refine writeOnce_redemptions (fun row' db'' hw => ?_) hok
      obtain ⟨-, -, hw⟩ := bind_ok.mp hw
      obtain ⟨-, -, hw⟩ := bind_ok.mp hw
      exact writeMovement_redemptions hw
  | recordAdjustment ingredientId dto =>
      obtain ⟨_, hok, h⟩ := bind_ok.mp h
      cases pure_ok.mp h
      obtain ⟨-, -, hok⟩ := bind_ok.mp hok
      refine writeOnce_redemptions (fun row' db'' hw => ?_) hok
      obtain ⟨-, -, hw⟩ := bind_ok.mp hw
      exact writeMovement_redemptions hw
  | startStockCount env codes dto =>
      obtain ⟨_, hok, h⟩ := bind_ok.mp h
      cases pure_ok.mp h
      exact startAttempts_redemptions hok
  | submitStockCount now id dto =>
      obtain ⟨count, -, h⟩ := bind_ok.mp h
      split at h
      next =>
        cases pure_ok.mp h
        rfl
      next =>
        simp only [bind_ok] at h
        obtain ⟨_, -, _, -, _, -, movements, hrows, _, -, h⟩ := h
        cases pure_ok.mp h
        rfl
  | cancelStockCount id =>
      simp only [performStock, cancelStockCount, bind_ok] at h
      obtain ⟨_, -, _, -, h⟩ := h
      cases pure_ok.mp h
      rfl
  | createPurchaseOrder env dto =>
      simp only [performStock, Procurement.createPurchaseOrder, bind_ok] at h
      obtain ⟨_, -, _, -, _, -, _, -, h⟩ := h
      cases pure_ok.mp h
      rfl
  | movePurchaseOrder now id toStatus =>
      simp only [performStock, Procurement.transition, bind_ok] at h
      obtain ⟨po, -, _, -, _, -, movements, hrows, h⟩ := h
      cases pure_ok.mp h
      rfl

/-- Only a creation writes to the redemptions. -/
theorem otherRequests_redemptions (db : Db) (r : Request) :
    (otherRequests db r).couponRedemptions = db.couponRedemptions := by
  -- hooks write the ledger and the audit rows
  have hhook : ∀ ctx k, (runHook db ctx k).couponRedemptions = db.couponRedemptions := by
    intro ctx k
    obtain ⟨ledger, logs, heq⟩ := runHook_loyaltyOnly db ctx k
    rw [heq]
    rfl
  unfold otherRequests
  split
  next => rfl
  next ctx k => exact hhook ctx k
  next hcreate hhook =>
    split
    next s hserved =>
      cases r with
      | create ctx env dto => exact absurd rfl (hcreate _ _ _)
      | hook ctx k => exact absurd rfl (hhook _ _)
      | updateStatus ctx now orderId toStatus reason =>
          obtain ⟨db', hok, h⟩ := bind_ok.mp hserved
          cases pure_ok.mp h
          obtain ⟨o, -, ⟨-, rfl⟩ | ⟨-, moved, logs, -, rfl⟩⟩ := updateStatus_ok hok
          · rfl
          · rfl
      | recordPayment ctx env orderId dto =>
          obtain ⟨⟨o, db', hooks⟩, hok, h⟩ := bind_ok.mp hserved
          cases pure_ok.mp h
          rcases recordPayment_ok hok with ⟨rfl, -⟩ | ⟨p, -, -, -, -, -, -, -, rfl⟩
          · rfl
          · rfl
      | recordRefund ctx env orderId dto =>
          obtain ⟨⟨o, db', hooks⟩, hok, h⟩ := bind_ok.mp hserved
          cases pure_ok.mp h
          rcases recordRefund_ok hok with ⟨rfl, -⟩ | ⟨r, logs, -, -, -, -, -, -, rfl⟩
          · rfl
          · rfl
      | stock ctx r =>
          obtain ⟨db', hok, h⟩ := bind_ok.mp hserved
          cases pure_ok.mp h
          exact performStock_redemptions hok
    next => rfl

end

/-- What goes on beside the creations: requests, which leave the coupons alone, and the
owner's coupons. -/
inductive CouponEvent where
  | request (r : Request)
  | createCoupon (id : Uuid) (dto : CreateCouponDto)
  | setCouponActive (id : Uuid) (isActive : Option Bool)

/-- A refused coupon changes nothing. -/
def orKept (db : Db) : Except ApiError Db → Db
  | .ok db' => db'
  | .error _ => db

/-- What goes on beside the creations: the other requests, and the coupons page. -/
def besides (db : Db) : CouponEvent → Db
  | .request r => (otherRequests db r).withCoupons db.coupons
  | .createCoupon id dto => orKept db (createCoupon db id dto)
  | .setCouponActive id isActive => orKept db (setCouponActive db id isActive)

/-- What goes on beside a creation, of the orders, the redemptions and the coupons. -/
inductive Besides (db : Db) : Db → Prop where
  | request {db' : Db} {r : Request} (h : db' = (otherRequests db r).withCoupons db.coupons) :
      Besides db db'
  | kept : Besides db db
  | created (coupon : Coupon)
      (hnew : ∀ c ∈ db.coupons, c.id ≠ coupon.id ∧ c.code ≠ coupon.code) :
      Besides db (db.withCoupons (db.coupons ++ [coupon]))
  | switched {f : Coupon → Coupon} (h : ∀ c, (f c).id = c.id ∧ (f c).code = c.code
      ∧ (f c).maxRedemptions = c.maxRedemptions) :
      Besides db (db.withCoupons (db.coupons.map f))

/-- Each of those is a request, a new coupon or a switch. -/
theorem besides_cases (db : Db) (e : CouponEvent) : Besides db (besides db e) := by
  cases e with
  | request r => exact .request rfl
  | createCoupon id dto =>
      show Besides db (orKept db (createCoupon db id dto))
      cases h : createCoupon db id dto with
      | error e => exact .kept
      | ok db' =>
          obtain ⟨coupon, hnew, rfl⟩ := createCoupon_ok h
          exact .created coupon hnew
  | setCouponActive id isActive =>
      show Besides db (orKept db (setCouponActive db id isActive))
      cases h : setCouponActive db id isActive with
      | error e => exact .kept
      | ok db' =>
          obtain ⟨f, rfl, hsame⟩ := setCouponActive_ok h
          exact .switched hsame

/-- **Only creating an order redeems a coupon.** -/
theorem Besides.redemptions {db db' : Db} (h : Besides db db') :
    db'.couponRedemptions = db.couponRedemptions := by
  cases h with
  | request h =>
      rw [h]
      exact otherRequests_redemptions db _
  | _ => rfl

/-- They leave the index entries of orders. -/
theorem besides_keeps : KeepsEntries besides := by
  intro db e
  have hcases := besides_cases db e
  generalize besides db e = db' at hcases
  cases hcases with
  | request h =>
      rw [h]
      exact otherRequests_keeps db _
  | _ => rfl

/-! ## §2. A redemption is one order's. -/

/-- How often a coupon has been redeemed. -/
def usesOf (couponId : Uuid) (redemptions : List CouponRedemption) : ℕ :=
  (redemptions.filter fun r => r.couponId = couponId).length

/-- A coupon that is accepted gives the discount, and is not used up. -/
theorem discountFor_coupon {db : Db} {now : Instant} {dto : CreateOrderDto} {subtotalMinor : ℤ}
    {d : Discount} (h : discountFor db now dto subtotalMinor = .ok d) {c : CouponDiscount}
    (hc : d.coupon = some c) :
    c.discountMinor = d.discountMinor ∧ ∃ coupon ∈ db.coupons, coupon.id = c.couponId
      ∧ ∀ n ∈ coupon.maxRedemptions, (usesOf c.couponId db.couponRedemptions : ℤ) < n := by
  unfold discountFor at h
  split at h
  -- the only branch with a coupon; its last check counts the uses
  next code _ _ _ =>
    obtain ⟨x, hx, h⟩ := bind_ok.mp h
    cases pure_ok.mp h
    cases hc
    simp only [validateAndComputeDiscount, bind_ok, require_ok] at hx
    obtain ⟨coupon, hfound, -, -, -, -, -, -, -, -, -, hused, -, -, hx⟩ := hx
    cases pure_ok.mp hx
    exact ⟨rfl, coupon, List.mem_of_find?_eq_some (found_ok.mp hfound), rfl, hused⟩
  next =>
    obtain ⟨-, -, h⟩ := bind_ok.mp h
    cases pure_ok.mp h
    cases hc
  next =>
    dsimp only at h
    split at h
    next =>
      cases h
      cases hc
    next => cases h
  next =>
    cases h
    cases hc

/-- The coupon of an order is what its discount comes from. -/
def couponPays (p : PricedOrder) : Prop :=
  ∀ c ∈ p.discount.coupon, c.discountMinor = p.discount.discountMinor

/-- The redemption is the order's, or not written yet. -/
inductive Redeeming (tx : CreateTx) : Prop where
  | none (h : tx.redemptions = [])
  | one (c : CouponDiscount) (pos : 0 < c.discountMinor) (hc : tx.priced.discount.coupon = some c)
      (h : tx.redemptions = [⟨c.couponId, tx.order.id, c.discountMinor, pos⟩])

/-- What a call knows of its coupon. -/
def CouponKnown : CreatePhase → Prop
  | .priced _ _ p => couponPays p
  | .numbered _ _ p _ => couponPays p
  | .entering _ tx _ => couponPays tx.priced ∧ tx.redemptions = []
      ∧ tx.order.discountMinor = tx.priced.discount.discountMinor
  | .writing _ tx _ => couponPays tx.priced ∧ Redeeming tx
      ∧ tx.order.discountMinor = tx.priced.discount.discountMinor
  | _ => True

/-- The order carries the discount it was priced with. -/
theorem orderRow_discount {env : Env} {dto : CreateOrderDto} {p : PricedOrder} {orderNumber : ℤ}
    {o : Order} (h : orderRow env dto p orderNumber = .ok o) :
    o.discountMinor = p.discount.discountMinor := by
  unfold orderRow at h
  dsimp only at h
  split at h
  next =>
    split at h
    next =>
      split at h
      next =>
        cases h
        rfl
      next => cases h
    next => cases h
  next => cases h

/-- A call that starts has read no coupon. -/
theorem start_couponKnown (r : CreateCall) : CouponKnown r.start := by
  unfold CreateCall.start
  cases checkRequest r.ctx r.dto with
  | error e => trivial
  | ok u =>
      dsimp only
      split
      · trivial
      · trivial

/-- **The coupon of a priced order was there, active and worth what was taken off.** -/
theorem price_coupon {db menu : Db} {now : Instant} {dto : CreateOrderDto} {branchId : Uuid}
    {p : PricedOrder} (h : price db menu now dto branchId = .ok p) {c : CouponDiscount}
    (hc : p.discount.coupon = some c) :
    c.discountMinor = p.discount.discountMinor ∧ ∃ coupon ∈ db.coupons, coupon.id = c.couponId
      ∧ ∀ n ∈ coupon.maxRedemptions, (usesOf c.couponId db.couponRedemptions : ℤ) < n := by
  obtain ⟨lines, -, h⟩ := bind_ok.mp h
  obtain ⟨discount, hdiscount, h⟩ := bind_ok.mp h
  cases pure_ok.mp h
  exact discountFor_coupon hdiscount hc

/-- The coupon is redeemed for the order, once. -/
theorem write_redeeming {db : Db} {r : CreateCall} {tx tx' : CreateTx} {w : Write}
    (h : write db r tx w = .ok tx') (hr : Redeeming tx) :
    tx'.priced = tx.priced ∧ Redeeming tx' := by
  -- the coupon's write adds the one row; the other writes keep what there is
  by_cases hw : w = .coupon
  · subst hw
    obtain ⟨rows, hrows, h⟩ := bind_ok.mp h
    cases pure_ok.mp h
    refine ⟨rfl, ?_⟩
    unfold redemptionRows at hrows
    split at hrows
    next c hc =>
      split at hrows
      next hpos =>
        obtain ⟨-, -, hrows⟩ := bind_ok.mp hrows
        exact .one c hpos hc (pure_ok.mp hrows).symm
      next => cases hrows
    next =>
      cases hrows
      exact .none rfl
  · have hkept : tx'.priced = tx.priced ∧ tx'.redemptions = tx.redemptions
        ∧ tx'.order = tx.order := by
      cases write_ok h with
      | coupon redemptions => exact absurd rfl hw
      | _ => exact ⟨rfl, rfl, rfl⟩
    obtain ⟨hpriced, hredemptions, horder⟩ := hkept
    refine ⟨hpriced, ?_⟩
    cases hr with
    | none h0 => exact .none (hredemptions.trans h0)
    | one c pos hc h1 =>
        refine .one c pos (hpriced ▸ hc) ?_
        rw [hredemptions, h1, horder]

/-- What a call knows of its coupon stays known. -/
theorem advance_couponKnown {db : Db} {r : CreateCall} {p p' : CreatePhase}
    {k : Option OrderLock} (hk : CouponKnown p) (h : Advance db r p k p') : CouponKnown p' := by
  cases h with
  | priced h => exact fun c hc => (price_coupon h hc).1
  | numbered left menu p => exact hk
  | row h => exact ⟨hk, rfl, orderRow_discount h⟩
  | entered hfree => exact hk
  | items h =>
      obtain ⟨items, -, rfl⟩ := withItems_ok h
      obtain ⟨hpays, hnone, hdiscount⟩ := hk
      exact ⟨hpays, .none hnone, hdiscount⟩
  | wrote h =>
      obtain ⟨hpays, hredeeming, hdiscount⟩ := hk
      obtain ⟨hpriced, hredeeming'⟩ := write_redeeming h hredeeming
      refine ⟨hpriced ▸ hpays, hredeeming', ?_⟩
      rw [hpriced, write_order h]
      exact hdiscount
  | _ => trivial

/-- Every redemption is an order's, and is its discount; no order has two. -/
structure OrdersRedeemed (db : Db) : Prop where
  once : (db.couponRedemptions.map (·.orderId)).Nodup
  order : ∀ r ∈ db.couponRedemptions, ∃ o ∈ db.orders,
    o.id = r.orderId ∧ o.discountMinor = r.discountMinor

/-- A status change is all that happens to an order later. -/
theorem otherRequests_map {β : Type} (f : Order → β)
    (hf : ∀ o status placedAt, f { o with status, placedAt } = f o) (db : Db) (r : Request) :
    (otherRequests db r).orders.map f = db.orders.map f := by
  unfold otherRequests
  split
  next => rfl
  next ctx h => rw [runHook_orders]
  next hcreate hhook =>
    split
    next s hok =>
      have hstep := perform_orders hok
      generalize s.db.orders = orders at hstep ⊢
      cases hstep with
      | kept => rfl
      | added hins => exact absurd rfl (hcreate _ _ _)
      | moved placedAt ho hcan =>
          unfold setStatus
          rw [List.map_map]
          apply List.map_congr_left
          intro o _
          rw [Function.comp_apply]
          split
          · exact hf _ _ _
          · rfl
    next => rfl

/-- They leave the discount of every order. -/
theorem Besides.discounts {db db' : Db} (h : Besides db db') :
    db'.orders.map (fun o => (o.id, o.discountMinor))
      = db.orders.map fun o => (o.id, o.discountMinor) := by
  cases h with
  | request h =>
      rw [h]
      exact otherRequests_map _ (fun _ _ _ => rfl) db _
  | _ => rfl

theorem OrdersRedeemed.besides {db db' : Db} (h : OrdersRedeemed db) (hb : Besides db db') :
    OrdersRedeemed db' := by
  refine ⟨?_, ?_⟩
  · rw [hb.redemptions]
    exact h.once
  · intro r hr
    rw [hb.redemptions] at hr
    obtain ⟨o, ho, hid, hdiscount⟩ := h.order r hr
    have hmem : (o.id, o.discountMinor) ∈ db'.orders.map fun o => (o.id, o.discountMinor) := by
      rw [hb.discounts]
      exact List.mem_map_of_mem ho
    obtain ⟨o', ho', heq⟩ := List.mem_map.mp hmem
    rw [Prod.mk.injEq] at heq
    exact ⟨o', ho', heq.1.trans hid, heq.2.trans hdiscount⟩

/-- The commit of an order with its redemption. -/
theorem OrdersRedeemed.publish {db : Db} (h : OrdersRedeemed db) (ctx : TenantContext)
    {tx : CreateTx} (hfree : OrderIndex.Free db tx.order .id) (hpays : couponPays tx.priced)
    (hredeeming : Redeeming tx)
    (hdiscount : tx.order.discountMinor = tx.priced.discount.discountMinor) :
    OrdersRedeemed (tx.publish db ctx) := by
  have horders : (tx.publish db ctx).orders = db.orders ++ [tx.order] := rfl
  have hredemptions : (tx.publish db ctx).couponRedemptions
      = db.couponRedemptions ++ tx.redemptions := rfl
  have hold : ∀ r ∈ db.couponRedemptions, ∃ o ∈ (tx.publish db ctx).orders,
      o.id = r.orderId ∧ o.discountMinor = r.discountMinor := by
    intro r hr
    obtain ⟨o, ho, hsame⟩ := h.order r hr
    rw [horders]
    exact ⟨o, List.mem_append_left _ ho, hsame⟩
  cases hredeeming with
  | none h0 =>
      rw [h0, List.append_nil] at hredemptions
      refine ⟨?_, ?_⟩
      · rw [hredemptions]
        exact h.once
      · rw [hredemptions]
        exact hold
  | one c pos hc h1 =>
      rw [h1] at hredemptions
      refine ⟨?_, ?_⟩
      · rw [hredemptions, List.map_append, List.nodup_append]
        refine ⟨h.once, List.nodup_singleton _, ?_⟩
        -- a redemption so far is a committed order's, and this order is new
        intro id hid id' hid' heq
        obtain ⟨r, hr, rfl⟩ := List.mem_map.mp hid
        obtain ⟨o, ho, hroot, -⟩ := h.order r hr
        rw [List.mem_singleton.mp hid'] at heq
        exact hfree o ho (hroot.trans heq)
      · intro r hr
        rw [hredemptions] at hr
        rcases List.mem_append.mp hr with hr | hr
        · exact hold r hr
        · rw [List.mem_singleton.mp hr, horders]
          exact ⟨tx.order, List.mem_append_right _ (List.mem_singleton_self _), rfl,
            hdiscount.trans (hpays c hc).symm⟩

/-- What a call knows holds whatever the database has become. -/
def CouponRead (_ : Db) (_ : CreateCall) (p : CreatePhase) : Prop := CouponKnown p

/-- What a call has read of its coupon is still so when it writes. -/
theorem redemptions_learn : (createSession besides).Learns Entered OrdersRedeemed
    (fun db t => CouponRead db t.1 t.2) := by
  refine createSession_learns ?_ (createSession_keeps ?_ ?_ ?_ ?_)
  · exact fun _ r _ => start_couponKnown r
  · exact fun db r p k p' _ _ hkn hadv => advance_couponKnown hkn hadv
  · intro db r p p' _ _ _ hend
    cases hend <;> trivial
  · intro db r left tx hinv hentered hkn
    obtain ⟨hpays, hredeeming, hdiscount⟩ := hkn
    exact ⟨hinv.publish r.ctx (hentered .id) hpays hredeeming hdiscount, trivial,
      fun _ _ h => h⟩
  · exact fun db e hinv => ⟨hinv.besides (besides_cases db e), fun _ _ h => h⟩

/-- **A redemption is one order's**: whatever runs at once, each coupon redemption stands
with a committed order that got exactly its discount, and no order has two. -/
theorem redemptions_of_orders {c : Sessions Db (CreateCall × CreatePhase) OrderLock}
    (h : ((createSession besides).interleaved OrdersRedeemed).Reachable c) :
    OrdersRedeemed c.shared :=
  (Session.invariant ((createSession_knows besides_keeps).learn redemptions_learn)
    (fun _ hs => ⟨trivial, hs⟩) h).1.2

/-! ## §3. Two creations and a coupon good for one. -/

/-- Half off, once. -/
def halfOff : Coupon :=
  { id := 7, code := normaliseCode "HALF", value := .percent 5000 ⟨by decide, by decide⟩,
    maxDiscountMinor := none, minSubtotalMinor := 0, maxRedemptions := some 1, validFrom := none,
    validUntil := none, isActive := true, non_negative := by simp }

/-- A bar with one coupon, of 50 percent and one use. -/
def couponBar : Db := lassiBar.withCoupons [halfOff]

/-- A lassi at half its price. -/
def halfCall (id : Uuid) : CreateCall :=
  ⟨cashier, ⟨id, 0⟩, { lassiOrder none none none with couponCode := some "HALF" }⟩

/-- The lines of one lassi. -/
def lassiLines : List NewOrderItem :=
  (((halfCall 20).dto.items.mapM (priceLine couponBar)).toOption).getD []

/-- The lassi at half price. -/
def halfPriced : PricedOrder := ⟨3, lassiLines, ⟨500, some ⟨7, 500⟩, 0, none⟩⟩

/-- The code finds the coupon. -/
theorem halfOff_found :
    couponBar.coupons.find? (fun c => c.code = normaliseCode "HALF") = some halfOff :=
  List.find?_cons_of_pos (decide_eq_true rfl)

/-- Either guest's order is priced so, while the coupon is unused. -/
theorem halfPriced_of_price (id : Uuid) :
    price couponBar couponBar 0 (halfCall id).dto 3 = .ok halfPriced := by
  have hvalid : validateAndComputeDiscount couponBar 0 "HALF" 1000 = .ok ⟨7, 500⟩ := by
    unfold validateAndComputeDiscount
    rw [halfOff_found]
    rfl
  have hdiscount : discountFor couponBar 0 (halfCall id).dto 1000
      = .ok ⟨500, some ⟨7, 500⟩, 0, none⟩ := by
    show (validateAndComputeDiscount couponBar 0 "HALF" 1000 >>= _) = _
    rw [hvalid]
    rfl
  show (discountFor couponBar 0 (halfCall id).dto 1000 >>= _) = _
  rw [hdiscount]
  rfl

/-- The session has found the coupon good. -/
def foundGood (c : Sessions Db (CreateCall × CreatePhase) OrderLock) (i : ℕ) (id : Uuid) :
    Sessions Db (CreateCall × CreatePhase) OrderLock :=
  ⟨c.shared, Function.update c.running i
    (some (halfCall id, .priced 4 couponBar halfPriced)), c.owner⟩

/-- The step in which a call prices its order. -/
theorem act_priced {c : Sessions Db (CreateCall × CreatePhase) OrderLock} {i : ℕ} {id : Uuid}
    (hdb : c.shared = couponBar)
    (hrunning : c.running i = some (halfCall id, .branchRead 4 couponBar 3)) :
    (createSession besides).act c (.run i .id) = some (foundGood c i id) := by
  have hturn : (createSession besides).turn .id c.shared
      (halfCall id, .branchRead 4 couponBar 3)
      = .go (halfCall id, .priced 4 couponBar halfPriced) := by
    show Turn.go (halfCall id, orFail 4 (price c.shared couponBar 0 _ 3) _) = _
    rw [hdb, halfPriced_of_price]
    rfl
  unfold Session.act
  simp only [hrunning, hturn]
  rfl

/-- One event of a bar that takes coupons. -/
abbrev CouponCall := SessionEvent CreateCall OrderIndex CouponEvent

/-- Both calls read the menu. -/
def bothBrowse : List CouponCall :=
  .begin 0 (halfCall 20) :: .begin 1 (halfCall 21)
    :: [List.replicate 3 (.run 0 .id), List.replicate 3 (.run 1 .id)].flatten

/-- One after the other, each numbers its order and commits it. -/
def bothCommit : List CouponCall :=
  [0, 1].flatMap fun i =>
    .run i .id :: .run i .id :: .run i .id :: .run i .number :: .run i .key
      :: List.replicate 9 (.run i .id)

theorem bothBrowse_runs : (System.replay (System.guarded (OnConnections 2)
    (createSession besides).act) bothBrowse (Session.quiet couponBar)).isSome = true := by
  decide +kernel

/-- Two guests at the till, neither priced. -/
def bothBrowsed : Sessions Db (CreateCall × CreatePhase) OrderLock :=
  (System.replay (System.guarded (OnConnections 2) (createSession besides).act) bothBrowse
    (Session.quiet couponBar)).get bothBrowse_runs

/-- Both have been shown the coupon as good. -/
def bothPriced : Sessions Db (CreateCall × CreatePhase) OrderLock :=
  foundGood (foundGood bothBrowsed 0 20) 1 21

theorem bothCommit_runs : (System.replay (System.guarded (OnConnections 2)
    (createSession besides).act) bothCommit bothPriced).isSome = true := by
  decide +kernel

variable {init : Db → Prop}

theorem bothPriced_reachable (h0 : init couponBar) : (((createSession besides).interleaved
    init).restrict (OnConnections 2)).Reachable bothPriced := by
  have hbrowsed : (((createSession besides).interleaved init).restrict
      (OnConnections 2)).Reachable bothBrowsed :=
    Session.replay_guarded h0 bothBrowse (Option.some_get bothBrowse_runs).symm
  have hfirst : (createSession besides).act bothBrowsed (.run 0 .id)
      = some (foundGood bothBrowsed 0 20) := act_priced rfl rfl
  have hsecond : (createSession besides).act (foundGood bothBrowsed 0 20) (.run 1 .id)
      = some bothPriced := act_priced rfl rfl
  have hreach : (((createSession besides).interleaved init).restrict
      (OnConnections 2)).Reachable (foundGood bothBrowsed 0 20) :=
    hbrowsed.step (a := .run 0 .id) ⟨trivial, hfirst⟩
  exact hreach.step (a := .run 1 .id) ⟨trivial, hsecond⟩

/-- Both orders are committed. -/
def bothCommitted : Sessions Db (CreateCall × CreatePhase) OrderLock :=
  (System.replay (System.guarded (OnConnections 2) (createSession besides).act) bothCommit
    bothPriced).get bothCommit_runs

theorem bothCommitted_reachable (h0 : init couponBar) : (((createSession besides).interleaved
    init).restrict (OnConnections 2)).Reachable bothCommitted := by
  have hsteps : ∀ c e c', (createSession besides).act c e = some c' →
      ((createSession besides).interleaved init).step c e c' := fun _ _ _ h => h
  exact (bothPriced_reachable h0).run (System.replay_run (System.guarded_step hsteps)
    bothCommit bothPriced _ (Option.some_get bothCommit_runs).symm)

/-- Two orders, and a redemption of each. -/
theorem redemptions_of_orders_half : ∃ c,
    ((createSession besides).interleaved OrdersRedeemed).Reachable c
      ∧ c.shared.couponRedemptions.map (·.orderId) = [20, 21] ∧ OrdersRedeemed c.shared := by
  have h0 : OrdersRedeemed couponBar := ⟨List.nodup_nil, List.forall_mem_nil _⟩
  have hreached := System.restrict_reachable (bothCommitted_reachable h0)
  exact ⟨_, hreached, by decide +kernel, redemptions_of_orders hreached⟩

/-! ## §4. The limit of a coupon. -/

/-- The coupon is there, with its limit. -/
structure Limited (couponId : Uuid) (limit : ℕ) (db : Db) : Prop where
  coupon : ∃ c ∈ db.coupons, c.id = couponId
  limit : ∀ c ∈ db.coupons, c.id = couponId → c.maxRedemptions = some (limit : ℤ)

/-- The order is priced with the coupon. -/
def PricedOrder.redeems (couponId : Uuid) (p : PricedOrder) : Bool :=
  p.discount.coupon.any fun c => decide (c.couponId = couponId)

/-- The call has found the coupon good, and has not committed yet. -/
def holdsCoupon (couponId : Uuid) : CreateCall × CreatePhase → Bool
  | (_, .priced _ _ p) => p.redeems couponId
  | (_, .numbered _ _ p _) => p.redeems couponId
  | (_, .entering _ tx _) => tx.priced.redeems couponId
  | (_, .writing _ tx _) => tx.priced.redeems couponId
  | _ => false

variable {couponId : Uuid} {limit n : ℕ}

/-- No limit is ever changed. -/
theorem Limited.besides {db db' : Db} (h : Limited couponId limit db) (hb : Besides db db') :
    Limited couponId limit db' := by
  obtain ⟨c, hc, hid⟩ := h.coupon
  cases hb with
  | request heq =>
      rw [heq]
      exact ⟨⟨c, hc, hid⟩, h.limit⟩
  | kept => exact h
  | created coupon hnew =>
      refine ⟨⟨c, List.mem_append_left _ hc, hid⟩, fun c' hc' hid' => ?_⟩
      rcases List.mem_append.mp hc' with hc' | hc'
      · exact h.limit c' hc' hid'
      · -- the new coupon has an id of its own
        rw [List.mem_singleton.mp hc'] at hid'
        exact absurd (hid.trans hid'.symm) (hnew c hc).1
  | switched hsame =>
      refine ⟨⟨_, List.mem_map_of_mem hc, (hsame c).1.trans hid⟩, fun c' hc' hid' => ?_⟩
      obtain ⟨c'', hc'', rfl⟩ := List.mem_map.mp hc'
      rw [(hsame c'').2.2]
      exact h.limit c'' hc'' ((hsame c'').1.symm.trans hid')

/-- A claim is kept from the statement before, or the coupon was not used up. -/
theorem advance_claim {db : Db} (h : Limited couponId limit db) {r : CreateCall}
    {p p' : CreatePhase} {k : Option OrderLock} (hk : CouponKnown p) (hadv : Advance db r p k p')
    (hholds : holdsCoupon couponId (r, p') = true) :
    holdsCoupon couponId (r, p) = true ∨ usesOf couponId db.couponRedemptions < limit := by
  cases hadv with
  -- the place is claimed here, where the uses were counted
  | priced hprice =>
      right
      obtain ⟨c, hc, hid⟩ := (Option.any_eq_true _ _).mp hholds
      have hid : c.couponId = couponId := of_decide_eq_true hid
      obtain ⟨-, coupon, hcoupon, hroot, hused⟩ := price_coupon hprice hc
      have hlimit := hused limit (h.limit coupon hcoupon (hroot.trans hid))
      rw [hid] at hlimit
      omega
  | numbered left menu p => exact .inl hholds
  | row h => exact .inl hholds
  | entered hfree => exact .inl hholds
  | items h => exact .inl hholds
  -- the prices do not change any more
  | wrote hw =>
      left
      obtain ⟨hpriced, -⟩ := write_redeeming hw hk.2.1
      show PricedOrder.redeems couponId _ = true
      rw [← hpriced]
      exact hholds
  | _ => cases hholds

/-- A commit redeems the coupon once, if it has a claim. -/
theorem usesOf_publish {db : Db} {ctx : TenantContext} {tx : CreateTx} (h : Redeeming tx) :
    usesOf couponId (tx.publish db ctx).couponRedemptions
      ≤ usesOf couponId db.couponRedemptions + (tx.priced.redeems couponId).toNat := by
  have hsplit : usesOf couponId (tx.publish db ctx).couponRedemptions
      = usesOf couponId db.couponRedemptions + usesOf couponId tx.redemptions := by
    show usesOf couponId (db.couponRedemptions ++ tx.redemptions) = _
    unfold usesOf
    rw [List.filter_append, List.length_append]
  -- what the transaction adds is one use if its order has the coupon
  rw [hsplit]
  refine Nat.add_le_add_left ?_ _
  cases h with
  | none h0 =>
      rw [h0]
      exact Nat.zero_le _
  | one c pos hc h1 =>
      rw [h1]
      unfold usesOf PricedOrder.redeems
      rw [hc]
      by_cases hid : c.couponId = couponId
      · simp [hid]
      · simp [hid]

/-- **The redemptions of a coupon, as places that are read before they are taken.** -/
theorem coupon_quota (couponId : Uuid) (limit : ℕ) :
    Quota (createSession besides) (Limited couponId limit) (fun t => CouponKnown t.2)
      (holdsCoupon couponId) (fun db => usesOf couponId db.couponRedemptions) limit where
  start r := by
    refine ⟨start_couponKnown r, ?_⟩
    show holdsCoupon couponId (r, r.start) = false
    unfold CreateCall.start
    cases checkRequest r.ctx r.dto with
    | error e => rfl
    | ok u =>
        dsimp only
        split
        · rfl
        · rfl
  go ix db t t' hinv hk hturn := by
    obtain ⟨p', rfl, hadv⟩ := turn_went hturn
    exact ⟨advance_couponKnown hk hadv, advance_claim hinv hk hadv⟩
  lock ix db t k t' hinv hk hturn := by
    obtain ⟨p', rfl, hadv⟩ := turn_locked hturn
    exact ⟨advance_couponKnown hk hadv, advance_claim hinv hk hadv⟩
  commit ix db t db' t' hinv hk hturn := by
    obtain ⟨left, tx, hphase, rfl, rfl⟩ := turn_committed hturn
    obtain ⟨r, p⟩ := t
    change p = _ at hphase
    subst hphase
    exact ⟨⟨hinv.coupon, hinv.limit⟩, trivial, rfl, usesOf_publish hk.2.1⟩
  rollback ix db t t' _ _ hturn := by
    obtain ⟨p', rfl, -, hend⟩ := turn_rolledBack hturn
    cases hend with
    | found h => exact ⟨trivial, rfl⟩
    | refused e => exact ⟨trivial, rfl⟩
    | again left => exact ⟨trivial, rfl⟩
    | lost e => exact ⟨trivial, rfl⟩
  env db e hinv := by
    have hb := besides_cases db e
    exact ⟨hinv.besides hb, (congrArg (usesOf couponId) hb.redemptions).le⟩

/-- A coupon that is not used up beyond its limit. -/
def WithinLimit (couponId : Uuid) (limit : ℕ) (db : Db) : Prop :=
  Limited couponId limit db ∧ usesOf couponId db.couponRedemptions ≤ limit

/-- **The limit of a coupon holds but for the creations under way**: with `n + 1` of them at
once it is exceeded by `n` redemptions at most, and with one at a time never. -/
theorem coupon_limit {c : Sessions Db (CreateCall × CreatePhase) OrderLock}
    (h : (((createSession besides).interleaved (WithinLimit couponId limit)).restrict
      (OnConnections (n + 1))).Reachable c) :
    usesOf couponId c.shared.couponRedemptions ≤ limit + n :=
  (quota_bound (coupon_quota couponId limit) (fun _ hs => hs) h).2

theorem couponBar_within : WithinLimit 7 1 couponBar := by
  refine ⟨⟨⟨halfOff, List.mem_singleton_self _, rfl⟩, fun c hc _ => ?_⟩, Nat.zero_le _⟩
  rw [List.mem_singleton.mp hc]
  rfl

/-- Two creations at once redeem a coupon that is good for one. -/
theorem coupon_limit_reached : ∃ c, (((createSession besides).interleaved
      (WithinLimit 7 1)).restrict (OnConnections 2)).Reachable c
    ∧ usesOf 7 c.shared.couponRedemptions = 2 ∧ usesOf 7 c.shared.couponRedemptions ≤ 1 + 1 := by
  have hreached := bothCommitted_reachable couponBar_within
  exact ⟨_, hreached, by decide +kernel, coupon_limit hreached⟩

end OraOS.Orders
