/-
  OraOS.Orders.Till — the till against the API, over a network that loses responses.

  One idempotency key serves every attempt until the cart is cleared.  The cart can be
  edited between two attempts, and the API answers a key it knows with the order that
  has it, whatever the request asks for.

    * `World.next`     — the cashier, the network, the API and everyone else, a step each;
    * `next_moved`     — **the step inversion**: every step is one of six;
    * `shows_what_was_served` — a success shows the lines of the attempt that was served
                         first under the key;
    * `sells_the_cart` — while no retry differs from that attempt, these are the lines
                         that were in the cart;
    * `one_lassi_for_two` — a retry with one portion more is answered with one portion.
-/
import OraOS.Orders.Cart
import OraOS.Orders.Serial

namespace OraOS.Orders

open OraOS.Api
open OraOS.Lib

/-! ## §1. The till, the network and the API. -/

/-- An order that an attempt made, and the menu it was priced by. -/
structure Sale where
  attempt : Attempt
  orderId : Uuid
  menu : Db

/-- A success, with the order that came back and the orders there are at that moment. -/
structure Report where
  attempt : Attempt
  shown : Order
  orders : List Order

structure World where
  till : Till
  /-- Everything that was sent. -/
  attempts : List Attempt
  server : Server
  /-- The responses of the API, on their way or lost. -/
  answers : List (Attempt × Order)
  /-- Which attempt made which order. -/
  made : List Sale
  reports : List Report

/-- The key a request would leave on an order. -/
def Request.orderKey : Request → Option String
  | .create _ _ dto => dto.idempotencyKey
  | _ => none

namespace World

/-- `crypto.randomUUID()`: on nothing so far. -/
def Fresh (w : World) (uuid : String) : Prop :=
  uuid ≠ "" ∧ (∀ a ∈ w.attempts, a.key ≠ uuid)
    ∧ ∀ o ∈ w.server.db.orders, o.idempotencyKey ≠ some uuid

instance (w : World) (uuid : String) : Decidable (w.Fresh uuid) :=
  inferInstanceAs (Decidable (_ ∧ _ ∧ _))

/-- The request of a press: the active cart, under `orderKey()`. -/
def press (w : World) (held : Bool) (uuid : String) : Option World :=
  if w.till.activeCart ≠ [] ∧ w.till.busy held = none
      ∧ (w.till.idemKey = none → w.Fresh uuid) then
    -- `idemKey.current ??= crypto.randomUUID()`
    let key := w.till.idemKey.getD uuid
    let a : Attempt := ⟨w.attempts.length, key, held, w.till.activeCart, w.till.form⟩
    some { w with
      till := { w.till with idemKey := some key }.setBusy held (some a)
      attempts := w.attempts ++ [a] }
  else none

def charge (w : World) (uuid : String) : Option World := w.press false uuid

def hold (w : World) (uuid : String) : Option World := w.press true uuid

/-- A request reaches the API: as often and as late as the network has it. -/
def deliver (w : World) (n : ℕ) (ctx : TenantContext) (env : Env) : Option World := do
  let a ← w.attempts[n]?
  let dto ← a.request.toOption
  let (o, db, hooks) ← (create w.server.db ctx env dto).toOption
  let sale := if (findByIdempotencyKey w.server.db dto.idempotencyKey).isSome then []
    else [⟨a, o.id, w.server.db⟩]
  pure { w with
    server := ⟨db, w.server.pending ++ hooks⟩
    answers := w.answers ++ [(a, o)]
    made := w.made ++ sale }

/-- A response reaches the till: `setSuccess` or the toast, and `clearCart`. -/
def succeed (w : World) (n : ℕ) : Option World := do
  let (a, o) ← w.answers[n]?
  if w.till.busy a.held = some a then
    some { w with
      till := w.till.clearCart.setBusy a.held none
      reports := w.reports ++ [⟨a, o, w.server.db.orders⟩] }
  else none

/-- An error, or no response: the cart and its key stay. -/
def fail (w : World) (held : Bool) : Option World :=
  if (w.till.busy held).isSome then some { w with till := w.till.setBusy held none } else none

/-- A request of anyone else; nobody else has a key of this till, and the primary keys
of the menu hold. -/
def elsewhere (w : World) (r : Request) : Option World :=
  if ∀ a ∈ w.attempts, r.orderKey ≠ some a.key then do
    let s ← serve w.server r
    if OptionKeys s.db then some { w with server := s } else none
  else none

end World

inductive TillEvent where
  | edit (e : Till.Edit)
  | clearCart
  | charge (uuid : String)
  | hold (uuid : String)
  | deliver (n : ℕ) (ctx : TenantContext) (env : Env)
  | succeed (n : ℕ)
  | fail (held : Bool)
  | elsewhere (r : Request)

def World.next (w : World) : TillEvent → Option World
  | .edit e => some { w with till := w.till.edit e }
  | .clearCart => some { w with till := w.till.clearCart }
  | .charge uuid => w.charge uuid
  | .hold uuid => w.hold uuid
  | .deliver n ctx env => w.deliver n ctx env
  | .succeed n => w.succeed n
  | .fail held => w.fail held
  | .elsewhere r => w.elsewhere r

/-- A till that is opened on a shop without orders. -/
structure World.Opened (w : World) : Prop where
  server : Opening w.server
  menu : OptionKeys w.server.db
  till : w.till = .opened
  attempts : w.attempts = []
  answers : w.answers = []
  made : w.made = []
  reports : w.reports = []

def tillRuns : System World TillEvent where
  init := World.Opened
  step w e w' := w.next e = some w'

/-! ## §2. What a success promises, and when it is kept. -/

/-- **What was in the cart has been sold**: the order shown is a placed one of exactly
the attempt's lines, or such a draft is there. -/
def SoldAs (m : Sale) (r : Report) : Prop :=
  if r.attempt.held then
    ∃ o ∈ r.orders, o.id = m.orderId ∧ o.status = .draft ∧ LinesOf m.menu r.attempt.lines o.items
  else
    (∃ o ∈ r.orders, o.id = r.shown.id) ∧ r.shown.id = m.orderId ∧ r.shown.status ≠ .draft
      ∧ r.shown.placedAt.isSome ∧ LinesOf m.menu r.attempt.lines r.shown.items

def Sold (w : World) (r : Report) : Prop := ∃ m ∈ w.made, SoldAs m r

/-- The same kind of sale of the same lines. -/
def SameSale (a b : Attempt) : Prop := a.held = b.held ∧ a.lines.Perm b.lines

instance (a b : Attempt) : Decidable (SameSale a b) := inferInstanceAs (Decidable (_ ∧ _))

/-- The till may still send, or wait for, a request under the key. -/
def Till.Uses (t : Till) (k : String) : Prop :=
  t.idemKey = some k ∨ ∃ held, ∃ a ∈ t.busy held, a.key = k

instance (t : Till) (k : String) : Decidable (t.Uses k) :=
  inferInstanceAs (Decidable (_ ∨ _))

/-- No response is to a request that differs from the one that was served under its key,
and nobody moves a parked order before its hold has been answered. -/
def Undisturbed (w : World) : TillEvent → Prop
  | .succeed n => ∀ p ∈ w.answers[n]?, ∀ m ∈ w.made, m.attempt.key = p.1.key →
      SameSale m.attempt p.1
  | .elsewhere (.updateStatus _ _ orderId _ _) => ∀ m ∈ w.made, m.orderId = orderId →
      m.attempt.held = true → ¬ w.till.Uses m.attempt.key
  | _ => True

instance (w : World) : DecidablePred (Undisturbed w)
  | .succeed n => inferInstanceAs (Decidable (∀ p ∈ w.answers[n]?, ∀ m ∈ w.made,
      m.attempt.key = p.1.key → SameSale m.attempt p.1))
  | .elsewhere (.updateStatus _ _ orderId _ _) => inferInstanceAs (Decidable (∀ m ∈ w.made,
      m.orderId = orderId → m.attempt.held = true → ¬ w.till.Uses m.attempt.key))
  | .elsewhere (.create ..) | .elsewhere (.recordPayment ..) | .elsewhere (.recordRefund ..)
  | .elsewhere (.hook ..) | .elsewhere (.stock ..) | .edit _ | .clearCart | .charge _ | .hold _
  | .deliver .. | .fail _ => .isTrue trivial

/-! ## §3. What the API does with a request of the till. -/

theorem insertOrder_stamps {db : Db} {env : Env} {dto : CreateOrderDto} {p : PricedOrder}
    {o : Order} (h : insertOrder db env dto p = .ok o) :
    o.idempotencyKey = dto.idempotencyKey
      ∧ o.placedAt = if dto.held then none else some env.now := by
  unfold insertOrder at h
  dsimp only at h
  split at h
  next =>
    split at h
    next =>
      split at h
      next =>
        simp only [bind_ok, require_ok] at h
        obtain ⟨-, -, -, -, -, -, items, -, h⟩ := h
        cases pure_ok.mp h
        exact ⟨rfl, rfl⟩
      next => cases h
    next => cases h
  next => cases h

theorem insert_stamps {db db' : Db} {ctx : TenantContext} {env : Env} {dto : CreateOrderDto}
    {o : Order} (h : insert db ctx env dto = .ok (o, db')) :
    o.idempotencyKey = dto.idempotencyKey
      ∧ o.placedAt = if dto.held then none else some env.now := by
  obtain ⟨p, -, ho⟩ := insert_priced h
  exact insertOrder_stamps ho

/-- A key that is on an order is answered with it, and an order is written under one
that is not. -/
theorem create_keyed {db db' : Db} {ctx : TenantContext} {env : Env} {dto : CreateOrderDto}
    {o : Order} {hooks : List Hook} (h : create db ctx env dto = .ok (o, db', hooks)) :
    (findByIdempotencyKey db dto.idempotencyKey = some o ∧ db' = db ∧ hooks = [])
      ∨ (findByIdempotencyKey db dto.idempotencyKey = none
        ∧ insert db ctx env dto = .ok (o, db')) := by
  obtain ⟨-, -, h⟩ := bind_ok.mp h
  split at h
  -- the key has its order: nothing is written
  next existing hfind =>
    cases h
    exact .inl ⟨hfind, rfl, rfl⟩
  next hfind =>
    obtain ⟨hsome, -⟩ | ⟨hins, -⟩ := insertAttempts_ok h
    · rw [hfind] at hsome
      cases hsome
    · exact .inr ⟨hfind, hins⟩

/-- The order is the one that the attempt made: its key, its lines, and placed where it
was charged. -/
structure Sale.Made (m : Sale) (o : Order) : Prop where
  id : o.id = m.orderId
  key : o.idempotencyKey = some m.attempt.key
  lines : LinesOf m.menu m.attempt.lines o.items
  placed : m.attempt.held = false → o.status ≠ .draft ∧ o.placedAt.isSome = true

/-- **What an attempt makes**: a new order, parked where it was held. -/
theorem insert_made {db db' : Db} {ctx : TenantContext} {env : Env} {a : Attempt}
    {dto : CreateOrderDto} {o : Order} (hkeys : OptionKeys db) (ha : a.request = .ok dto)
    (h : insert db ctx env dto = .ok (o, db')) :
    Sale.Made ⟨a, o.id, db⟩ o ∧ (a.held = true → o.status = .draft)
      ∧ (∀ x ∈ db.orders, x.id ≠ o.id) ∧ db'.orders = db.orders ++ [o] ∧ OptionKeys db' := by
  obtain ⟨hkey, hheld, -⟩ := Attempt.request_ok ha
  obtain ⟨hstampKey, hstampPlaced⟩ := insert_stamps h
  obtain ⟨paid, moved, spent, redemptions, logs, hins, rfl⟩ := insert_ok h
  have hstatus := hins.status
  rw [hheld] at hstatus hstampPlaced
  -- the order is that of the attempt, and a charged one is placed
  refine ⟨⟨rfl, hstampKey.trans hkey, linesOf_of_priced hkeys ha hins.priced, ?_⟩, ?_, ?_, rfl,
    hkeys⟩
  · intro hcharge
    rw [hstatus, hstampPlaced, show a.held = false from hcharge]
    exact ⟨nofun, rfl⟩
  · intro hhold
    rw [hstatus, hhold]
    rfl
  · intro x hx
    rw [hins.id]
    exact hins.fresh x hx

/-- The order later on: a placed one stays placed. -/
structure Later (o o' : Order) : Prop where
  id : o'.id = o.id
  key : o'.idempotencyKey = o.idempotencyKey
  items : o'.items = o.items
  placed : o.status ≠ .draft → o.placedAt.isSome = true →
    o'.status ≠ .draft ∧ o'.placedAt.isSome = true

theorem Sale.Made.later {m : Sale} {o o' : Order} (h : m.Made o) (hl : Later o o') : m.Made o' := by
  refine ⟨hl.id.trans h.id, hl.key.trans h.key, ?_, ?_⟩
  · rw [hl.items]
    exact h.lines
  · intro hcharge
    exact hl.placed (h.placed hcharge).1 (h.placed hcharge).2

theorem later_of_setStatus {orders : List Order} {orderId : Uuid}
    {fromStatus toStatus : OrderStatus} {placedAt : Option Instant}
    (hcan : canTransition fromStatus toStatus = true) {o' : Order}
    (h : o' ∈ setStatus orders orderId toStatus placedAt) : ∃ o ∈ orders, Later o o' := by
  obtain ⟨o, ho, rfl⟩ := List.mem_map.mp h
  refine ⟨o, ho, ?_⟩
  split
  next =>
    refine ⟨rfl, rfl, rfl, ?_⟩
    intro _ hplaced
    constructor
    -- no change leads back to a draft
    · rintro rfl
      rw [canTransition_to_draft] at hcan
      cases hcan
    · cases placedAt with
      | none => exact hplaced
      | some now => rfl
  next => exact ⟨rfl, rfl, rfl, fun hs hp => ⟨hs, hp⟩⟩

/-- **Where an order comes from**: it was there, or the request left its key on it. -/
theorem orders_traced {s : Server} {r : Request} {orders : List Order} (h : OrdersStep s r orders)
    {o' : Order} (ho' : o' ∈ orders) :
    (∃ o ∈ s.db.orders, Later o o') ∨ o'.idempotencyKey = r.orderKey := by
  cases h with
  | kept => exact .inl ⟨o', ho', rfl, rfl, rfl, fun hs hp => ⟨hs, hp⟩⟩
  | added hins =>
      rcases List.mem_append.mp ho' with hold | hnew
      · exact .inl ⟨o', hold, rfl, rfl, rfl, fun hs hp => ⟨hs, hp⟩⟩
      · rw [List.mem_singleton.mp hnew]
        exact .inr (insert_stamps hins).1
  | moved placedAt ho hcan => exact .inl (later_of_setStatus hcan ho')

/-! ## §4. The till and its orders. -/

namespace Till

theorem busy_setBusy (t : Till) (held held' : Bool) (a : Option Attempt) :
    (t.setBusy held a).busy held' = if held' = held then a else t.busy held' := by
  cases held <;> cases held' <;> rfl

theorem idemKey_setBusy (t : Till) (held : Bool) (a : Option Attempt) :
    (t.setBusy held a).idemKey = t.idemKey := by
  cases held <;> rfl

theorem Uses.of_edit {t : Till} {e : Edit} {k : String} (h : (t.edit e).Uses k) : t.Uses k := by
  obtain ⟨hkey, hbusy⟩ := t.edit_kept e
  rcases h with h | ⟨held, a, h, hk⟩
  · exact .inl (hkey ▸ h)
  · exact .inr ⟨held, a, hbusy held ▸ h, hk⟩

theorem Uses.of_settled {t : Till} {held : Bool} {k : String} (h : (t.setBusy held none).Uses k) :
    t.Uses k := by
  rcases h with h | ⟨held', a, h, hk⟩
  · rw [idemKey_setBusy] at h
    exact .inl h
  · rw [busy_setBusy] at h
    split at h
    next => cases h
    next => exact .inr ⟨held', a, h, hk⟩

theorem Uses.of_clearCart {t : Till} {k : String} (h : t.clearCart.Uses k) : t.Uses k := by
  rcases h with h | ⟨held, a, h, hk⟩
  · cases h
  · exact .inr ⟨held, a, h, hk⟩

/-- A press takes up the key it sends. -/
theorem Uses.of_press {t : Till} {held : Bool} {a : Attempt} {k : String}
    (h : ({ t with idemKey := some a.key }.setBusy held (some a)).Uses k) :
    t.Uses k ∨ k = a.key := by
  rcases h with h | ⟨held', b, h, hk⟩
  · rw [idemKey_setBusy] at h
    exact .inr (Option.some.inj h).symm
  · rw [busy_setBusy] at h
    split at h
    next =>
      cases h
      exact .inr hk.symm
    next => exact .inl (.inr ⟨held', b, h, hk⟩)

end Till

/-- Whatever is under a key of the till was made by an attempt with that key. -/
structure TillInv (w : World) : Prop where
  served : serial.Reachable w.server
  menu : OptionKeys w.server.db
  minted : ∀ k, w.till.idemKey = some k → ∃ a ∈ w.attempts, a.key = k
  named : ∀ a ∈ w.attempts, a.key ≠ ""
  sales : ∀ m ∈ w.made, m.attempt ∈ w.attempts ∧ ∃ o ∈ w.server.db.orders, o.id = m.orderId
  traced : ∀ o ∈ w.server.db.orders, ∀ a ∈ w.attempts, o.idempotencyKey = some a.key →
    ∃ m ∈ w.made, m.Made o
  answered : ∀ p ∈ w.answers, p.2.idempotencyKey = some p.1.key ∧ (∃ m ∈ w.made, m.Made p.2)
    ∧ ∃ o ∈ w.server.db.orders, SameOrder p.2 o
  shown : ∀ r ∈ w.reports, ∃ m ∈ w.made, m.attempt.key = r.attempt.key ∧ m.Made r.shown

theorem perform_create {s : Server} {ctx : TenantContext} {env : Env} {dto : CreateOrderDto}
    {o : Order} {db' : Db} {hooks : List Hook}
    (h : create s.db ctx env dto = .ok (o, db', hooks)) :
    perform s (.create ctx env dto) = .ok ⟨db', s.pending ++ hooks⟩ := by
  simp only [perform, h]
  rfl

/-- What a step does, whichever it is. -/
inductive Moved (w : World) : TillEvent → World → Prop where
  /-- an edit, a cleared cart or a failure: no key is taken up -/
  | settled {e : TillEvent} {t : Till} (hkey : ∀ k, t.idemKey = some k → w.till.idemKey = some k)
      (huses : ∀ k, t.Uses k → w.till.Uses k) : Moved w e { w with till := t }
  /-- a press, under the key of the cart or one that is on nothing -/
  | pressed {e : TillEvent} {a : Attempt} {held : Bool}
      (hkey : w.till.idemKey = some a.key ∨ w.Fresh a.key) :
      Moved w e { w with
        till := { w.till with idemKey := some a.key }.setBusy held (some a)
        attempts := w.attempts ++ [a] }
  /-- a delivery under a key that is on an order -/
  | replayed {e : TillEvent} {a : Attempt} {o : Order} (ha : a ∈ w.attempts)
      (hfind : findByIdempotencyKey w.server.db (some a.key) = some o) :
      Moved w e { w with answers := w.answers ++ [(a, o)] }
  /-- a delivery that makes an order -/
  | made {e : TillEvent} {a : Attempt} {ctx : TenantContext} {env : Env} {dto : CreateOrderDto}
      {o : Order} {s' : Server} (ha : a ∈ w.attempts) (hdto : a.request = .ok dto)
      (hins : insert w.server.db ctx env dto = .ok (o, s'.db))
      (hstep : perform w.server (.create ctx env dto) = .ok s') :
      Moved w e { w with
        server := s'
        answers := w.answers ++ [(a, o)]
        made := w.made ++ [⟨a, o.id, w.server.db⟩] }
  /-- a response that the till is waiting for -/
  | reported {n : ℕ} {a : Attempt} {o : Order} (hanswer : w.answers[n]? = some (a, o))
      (hbusy : w.till.busy a.held = some a) :
      Moved w (.succeed n) { w with
        till := w.till.clearCart.setBusy a.held none
        reports := w.reports ++ [⟨a, o, w.server.db.orders⟩] }
  /-- anyone else's request -/
  | elsewhere {r : Request} {s' : Server} (hapart : ∀ a ∈ w.attempts, r.orderKey ≠ some a.key)
      (hstep : perform w.server r = .ok s') (hmenu : OptionKeys s'.db) :
      Moved w (.elsewhere r) { w with server := s' }

theorem press_moved {w w' : World} {e : TillEvent} {held : Bool} {uuid : String}
    (h : w.press held uuid = some w') : Moved w e w' := by
  unfold World.press at h
  split at h
  next hguard =>
    cases h
    refine .pressed (a := ⟨w.attempts.length, w.till.idemKey.getD uuid, held, w.till.activeCart,
      w.till.form⟩) ?_
    cases hkey : w.till.idemKey with
    | none => exact .inr (hguard.2.2 hkey)
    | some k => exact .inl rfl
  next => cases h

theorem deliver_moved {w w' : World} {e : TillEvent} {n : ℕ} {ctx : TenantContext} {env : Env}
    (h : w.deliver n ctx env = some w') : Moved w e w' := by
  simp only [World.deliver, Option.bind_eq_bind, Option.bind_eq_some_iff, toOption_some] at h
  obtain ⟨a, ha, dto, hdto, ⟨o, db', hooks⟩, hcreate, h⟩ := h
  injection h with h
  subst h
  have hmem : a ∈ w.attempts := List.mem_of_getElem? ha
  have hkey := (Attempt.request_ok hdto).1
  -- served before under the key, or now for the first time
  obtain ⟨hfind, rfl, rfl⟩ | ⟨hfind, hins⟩ := create_keyed hcreate
  · rw [hfind, List.append_nil]
    simp only [Option.isSome_some, if_true, List.append_nil]
    exact .replayed hmem (hkey ▸ hfind)
  · rw [hfind]
    exact .made hmem hdto hins (perform_create hcreate)

/-- **The step inversion** of the till. -/
theorem next_moved {w w' : World} {e : TillEvent} (h : w.next e = some w') : Moved w e w' := by
  cases e with
  | edit e =>
      cases h
      exact .settled (fun k hk => (w.till.edit_kept e).1 ▸ hk) fun k hk => hk.of_edit
  | clearCart =>
      cases h
      exact .settled nofun fun k hk => hk.of_clearCart
  | charge uuid => exact press_moved h
  | hold uuid => exact press_moved h
  | deliver n ctx env => exact deliver_moved h
  -- an answer counts only while its charge is the one that is waited for
  | succeed n =>
      obtain ⟨⟨a, o⟩, hanswer, h⟩ := Option.bind_eq_some_iff.mp h
      dsimp only at h
      split at h
      next hbusy =>
        cases h
        exact .reported hanswer hbusy
      next => cases h
  | fail held =>
      simp only [World.next, World.fail] at h
      split at h
      next =>
        cases h
        refine .settled (fun k hk => ?_) fun k hk => hk.of_settled
        rwa [Till.idemKey_setBusy] at hk
      next => cases h
  | elsewhere r =>
      simp only [World.next, World.elsewhere] at h
      split at h
      next hapart =>
        obtain ⟨s', hserve, h⟩ := Option.bind_eq_some_iff.mp h
        split at h
        next hmenu =>
          cases h
          exact .elsewhere hapart (serve_step hserve) hmenu
        next => cases h
      next => cases h

/-! ## §5. What holds in every run. -/

theorem opened_inv {w : World} (h : w.Opened) : TillInv w := by
  obtain ⟨hserver, hmenu, htill, hattempts, hanswers, hmade, hreports⟩ := h
  refine ⟨.init hserver, hmenu, ?_, ?_, ?_, ?_, ?_, ?_⟩
  · rw [htill]
    exact nofun
  · rw [hattempts]
    exact List.forall_mem_nil _
  · rw [hmade]
    exact List.forall_mem_nil _
  · rw [hserver.orders]
    exact List.forall_mem_nil _
  · rw [hanswers]
    exact List.forall_mem_nil _
  · rw [hreports]
    exact List.forall_mem_nil _

theorem TillInv.pressed {w : World} (hw : TillInv w) {a : Attempt} (t : Till)
    (ht : t.idemKey = some a.key) (hkey : w.till.idemKey = some a.key ∨ w.Fresh a.key) :
    TillInv { w with till := t, attempts := w.attempts ++ [a] } := by
  refine { hw with minted := ?_, named := ?_, sales := ?_, traced := ?_ }
  · intro k hk
    refine ⟨a, List.mem_append_right _ (List.mem_singleton_self a), ?_⟩
    exact Option.some.inj (ht.symm.trans hk)
  · refine List.forall_mem_append.mpr ⟨hw.named, List.forall_mem_singleton.mpr ?_⟩
    rcases hkey with hsame | hfresh
    · obtain ⟨c, hc, hck⟩ := hw.minted _ hsame
      exact hck ▸ hw.named c hc
    · exact hfresh.1
  · intro m hm
    exact ⟨List.mem_append_left _ (hw.sales m hm).1, (hw.sales m hm).2⟩
  · intro o ho b hb hbk
    rcases List.mem_append.mp hb with hold | hnew
    · exact hw.traced o ho b hold hbk
    · rw [List.mem_singleton.mp hnew] at hbk
      rcases hkey with hsame | hfresh
      · -- the key of the cart has been sent before
        obtain ⟨c, hc, hck⟩ := hw.minted _ hsame
        exact hw.traced o ho c hc (hck ▸ hbk)
      · exact absurd hbk (hfresh.2.2 o ho)

theorem TillInv.replayed {w : World} (hw : TillInv w) {a : Attempt} {o : Order}
    (ha : a ∈ w.attempts) (hfind : findByIdempotencyKey w.server.db (some a.key) = some o) :
    TillInv { w with answers := w.answers ++ [(a, o)] } := by
  obtain ⟨ho, hkey⟩ := findByIdempotencyKey_some hfind
  refine { hw with
    answered := List.forall_mem_append.mpr ⟨hw.answered, List.forall_mem_singleton.mpr ?_⟩ }
  exact ⟨hkey, hw.traced o ho a ha hkey, o, ho, .refl o⟩

theorem TillInv.made {w : World} (hw : TillInv w) {a : Attempt} {ctx : TenantContext} {env : Env}
    {dto : CreateOrderDto} {o : Order} {s' : Server} (ha : a ∈ w.attempts)
    (hdto : a.request = .ok dto) (hins : insert w.server.db ctx env dto = .ok (o, s'.db))
    (hstep : perform w.server (.create ctx env dto) = .ok s') :
    TillInv { w with
      server := s'
      answers := w.answers ++ [(a, o)]
      made := w.made ++ [⟨a, o.id, w.server.db⟩] } := by
  obtain ⟨hmade, -, -, horders, hmenu⟩ := insert_made hw.menu hdto hins
  have hkept : ∀ x ∈ w.server.db.orders, x ∈ s'.db.orders := by
    intro x hx
    rw [horders]
    exact List.mem_append_left _ hx
  have hthere : o ∈ s'.db.orders := by
    rw [horders]
    exact List.mem_append_right _ (List.mem_singleton_self o)
  have hsale : (⟨a, o.id, w.server.db⟩ : Sale) ∈ w.made ++ [⟨a, o.id, w.server.db⟩] :=
    List.mem_append_right _ (List.mem_singleton_self _)
  -- a new sale, a new order and a new answer, which belong together
  refine { hw with
    served := hw.served.step hstep
    menu := hmenu, sales := ?_, traced := ?_, answered := ?_, shown := ?_ }
  · intro m hm
    rcases List.mem_append.mp hm with hold | hnew
    · obtain ⟨hattempt, x, hx, hid⟩ := hw.sales m hold
      exact ⟨hattempt, x, hkept x hx, hid⟩
    · rw [List.mem_singleton.mp hnew]
      exact ⟨ha, o, hthere, rfl⟩
  · intro x hx b hb hkey
    rw [horders] at hx
    rcases List.mem_append.mp hx with hold | hnew
    · obtain ⟨m, hm, hmade⟩ := hw.traced x hold b hb hkey
      exact ⟨m, List.mem_append_left _ hm, hmade⟩
    · rw [List.mem_singleton.mp hnew]
      exact ⟨_, hsale, hmade⟩
  · intro p hmem
    rcases List.mem_append.mp hmem with hold | hnew
    · obtain ⟨hkey, ⟨m, hm, hmade⟩, x, hx, hsame⟩ := hw.answered p hold
      exact ⟨hkey, ⟨m, List.mem_append_left _ hm, hmade⟩, x, hkept x hx, hsame⟩
    · rw [List.mem_singleton.mp hnew]
      exact ⟨hmade.key, ⟨_, hsale, hmade⟩, o, hthere, .refl o⟩
  · intro r hr
    obtain ⟨m, hm, hmr⟩ := hw.shown r hr
    exact ⟨m, List.mem_append_left _ hm, hmr⟩

theorem TillInv.elsewhere {w : World} (hw : TillInv w) {r : Request} {s' : Server}
    (hapart : ∀ a ∈ w.attempts, r.orderKey ≠ some a.key) (hstep : perform w.server r = .ok s')
    (hmenu : OptionKeys s'.db) : TillInv { w with server := s' } := by
  have hkeeps : ∀ x ∈ w.server.db.orders, ∃ x' ∈ s'.db.orders, SameOrder x x' :=
    fun x hx => (perform_effect hstep).keeps (serial_uniqueIds hw.served) hx
  refine { hw with
    served := hw.served.step hstep
    menu := hmenu, sales := ?_, traced := ?_, answered := ?_ }
  · intro m hm
    obtain ⟨hattempt, x, hx, hid⟩ := hw.sales m hm
    obtain ⟨x', hx', hsame⟩ := hkeeps x hx
    exact ⟨hattempt, x', hx', hsame.id.trans hid⟩
  · intro x hx b hb hkey
    rcases orders_traced (perform_orders hstep) hx with ⟨x₀, hx₀, hlater⟩ | hnew
    · obtain ⟨m, hm, hmade⟩ := hw.traced x₀ hx₀ b hb (hlater.key ▸ hkey)
      exact ⟨m, hm, hmade.later hlater⟩
    -- the keys of the till are its own
    · exact absurd (hnew.symm.trans hkey) (hapart b hb)
  · intro p hmem
    obtain ⟨hkey, hmade, x, hx, hsame⟩ := hw.answered p hmem
    obtain ⟨x', hx', hsame'⟩ := hkeeps x hx
    exact ⟨hkey, hmade, x', hx', hsame.trans hsame'⟩

theorem TillInv.reported {w : World} (hw : TillInv w) {n : ℕ} {a : Attempt} {o : Order}
    (hanswer : w.answers[n]? = some (a, o)) :
    TillInv { w with
      till := w.till.clearCart.setBusy a.held none
      reports := w.reports ++ [⟨a, o, w.server.db.orders⟩] } := by
  refine { hw with minted := ?_, shown := ?_ }
  · intro k hk
    rw [Till.idemKey_setBusy] at hk
    cases hk
  · refine List.forall_mem_append.mpr ⟨hw.shown, List.forall_mem_singleton.mpr ?_⟩
    obtain ⟨hkey, ⟨m, hm, hmade⟩, -⟩ := hw.answered (a, o) (List.mem_of_getElem? hanswer)
    exact ⟨m, hm, Option.some.inj (hmade.key.symm.trans hkey), hmade⟩

theorem TillInv.moved {w w' : World} {e : TillEvent} (hw : TillInv w) (h : Moved w e w') :
    TillInv w' := by
  cases h with
  | settled hkey huses => exact { hw with minted := fun k hk => hw.minted k (hkey k hk) }
  | pressed hkey => exact hw.pressed _ (Till.idemKey_setBusy _ _ _) hkey
  | replayed ha hfind => exact hw.replayed ha hfind
  | made ha hdto hins hstep => exact hw.made ha hdto hins hstep
  | reported hanswer hbusy => exact hw.reported hanswer
  | elsewhere hapart hstep hmenu => exact hw.elsewhere hapart hstep hmenu

theorem tillInv {w : World} (h : tillRuns.Reachable w) : TillInv w := by
  refine h.invariant TillInv (fun _ h0 => opened_inv h0) ?_
  intro w e w' hw hstep
  exact hw.moved (next_moved hstep)

/-- **What a success shows**, in every run: the order of the attempt that was served first
under the key, with the lines of that attempt. -/
theorem shows_what_was_served {w : World} (h : tillRuns.Reachable w) :
    ∀ r ∈ w.reports, ∃ m ∈ w.made, m.attempt.key = r.attempt.key
      ∧ LinesOf m.menu m.attempt.lines r.shown.items := by
  intro r hr
  obtain ⟨m, hm, hkey, hmade⟩ := (tillInv h).shown r hr
  exact ⟨m, hm, hkey, hmade.lines⟩

/-! ## §6. What holds while nothing is disturbed. -/

/-- A parked order stays a draft until its hold has been answered. -/
def Parked (w : World) : Prop :=
  ∀ m ∈ w.made, m.attempt.held = true → w.till.Uses m.attempt.key →
    ∀ o ∈ w.server.db.orders, o.id = m.orderId → o.status = .draft

/-- A new order's id is on no sale so far. -/
theorem TillInv.unsold {w : World} (h : TillInv w) {o : Order}
    (hfresh : ∀ x ∈ w.server.db.orders, x.id ≠ o.id) : ∀ m ∈ w.made, o.id ≠ m.orderId := by
  intro m hm heq
  obtain ⟨x, hx, hid⟩ := (h.sales m hm).2
  exact hfresh x hx (hid.trans heq.symm)

/-- Nobody else's request moves a parked order, where it is not asked to. -/
theorem Parked.elsewhere {w : World} (hp : Parked w) (hw : TillInv w) {r : Request} {s' : Server}
    (hu : Undisturbed w (.elsewhere r)) (hstep : perform w.server r = .ok s') :
    Parked { w with server := s' } := by
  intro m hm hheld huses x hx hid
  have horders := perform_orders hstep
  change x ∈ s'.db.orders at hx
  generalize s'.db.orders = orders at hx horders
  cases horders with
  | kept => exact hp m hm hheld huses x hx hid
  | added hins =>
      rcases List.mem_append.mp hx with hold | hnew
      · exact hp m hm hheld huses x hold hid
      · obtain ⟨_, _, _, _, _, hnewOrder, -⟩ := insert_ok hins
        rw [List.mem_singleton.mp hnew] at hid
        refine absurd hid (hw.unsold ?_ m hm)
        rw [hnewOrder.id]
        exact hnewOrder.fresh
  | moved placedAt ho hcan =>
      rcases mem_setStatus hx with ⟨hold, -⟩ | ⟨_, -, -, hmoved, -⟩
      · exact hp m hm hheld huses x hold hid
      -- nobody else moves an order that is still being held
      · exact absurd huses (hu m hm (hid.symm.trans hmoved) hheld)

theorem Parked.moved {w w' : World} {e : TillEvent} (hp : Parked w) (hw : TillInv w)
    (hu : Undisturbed w e) (h : Moved w e w') : Parked w' := by
  cases h with
  | settled hkey huses => exact fun m hm hheld h => hp m hm hheld (huses _ h)
  | pressed hkey =>
      intro m hm hheld huses
      rcases huses.of_press with hold | hnew
      · exact hp m hm hheld hold
      · rcases hkey with hsame | hfresh
        · exact hp m hm hheld (.inl (hnew ▸ hsame))
        · exact absurd hnew (hfresh.2.1 m.attempt (hw.sales m hm).1)
  | replayed ha hfind => exact hp
  | made ha hdto hins hstep =>
      obtain ⟨-, hdraft, hfresh, horders, -⟩ := insert_made hw.menu hdto hins
      intro m hm hheld huses x hx hid
      rw [horders] at hx
      -- the new order belongs to the new sale, and no other does
      rcases List.mem_append.mp hm with hold | hnew
      · rcases List.mem_append.mp hx with hx | hx
        · exact hp m hold hheld huses x hx hid
        · rw [List.mem_singleton.mp hx] at hid
          exact absurd hid (hw.unsold hfresh m hold)
      · rw [List.mem_singleton.mp hnew] at hheld hid
        rcases List.mem_append.mp hx with hx | hx
        · exact absurd hid (hfresh x hx)
        · rw [List.mem_singleton.mp hx]
          exact hdraft hheld
  | reported hanswer hbusy =>
      exact fun m hm hheld h => hp m hm hheld h.of_settled.of_clearCart
  | elsewhere hapart hstep hmenu => exact hp.elsewhere hw hu hstep

/-- **A response that fits its request keeps the promise.** -/
theorem answer_sold {w : World} (hw : TillInv w) (hp : Parked w) {n : ℕ}
    (hu : Undisturbed w (.succeed n)) {a : Attempt} {o : Order}
    (hanswer : w.answers[n]? = some (a, o)) (hbusy : w.till.busy a.held = some a) :
    Sold w ⟨a, o, w.server.db.orders⟩ := by
  obtain ⟨hkey, ⟨m, hm, hmade⟩, x, hx, hsame⟩ := hw.answered (a, o) (List.mem_of_getElem? hanswer)
  have hsameKey : m.attempt.key = a.key := Option.some.inj (hmade.key.symm.trans hkey)
  -- the attempt that was served is one of the same kind, with the same lines
  obtain ⟨hkind, hlines⟩ := hu (a, o) hanswer m hm hsameKey
  refine ⟨m, hm, ?_⟩
  unfold SoldAs
  split
  next hheld =>
    have hdraft : x.status = .draft :=
      hp m hm (hkind.trans hheld) (.inr ⟨_, a, hbusy, hsameKey.symm⟩) x hx
        (hsame.id.trans hmade.id)
    refine ⟨x, hx, hsame.id.trans hmade.id, hdraft, ?_⟩
    rw [hsame.items]
    exact hmade.lines.perm hlines
  next hheld =>
    obtain ⟨hstatus, hplaced⟩ := hmade.placed (hkind.trans (Bool.eq_false_of_not_eq_true hheld))
    exact ⟨⟨x, hx, hsame.id⟩, hmade.id, hstatus, hplaced, hmade.lines.perm hlines⟩

/-- What has been sold stays sold. -/
theorem Sold.mono {w w' : World} {r : Report} (h : Sold w r) (hmade : w.made ⊆ w'.made) :
    Sold w' r := by
  obtain ⟨m, hm, hr⟩ := h
  exact ⟨m, hmade hm, hr⟩

theorem sold_moved {w w' : World} {e : TillEvent} (hsold : ∀ r ∈ w.reports, Sold w r)
    (hw : TillInv w) (hp : Parked w) (hu : Undisturbed w e) (h : Moved w e w') :
    ∀ r ∈ w'.reports, Sold w' r := by
  cases h with
  | made ha hdto hins hstep =>
      exact fun r hr => (hsold r hr).mono (List.subset_append_left _ _)
  | reported hanswer hbusy =>
      refine List.forall_mem_append.mpr ⟨hsold, List.forall_mem_singleton.mpr ?_⟩
      exact answer_sold hw hp hu hanswer hbusy
  | settled | pressed | replayed | elsewhere => exact hsold

/-- **The till sells what is in the cart**, in every run in which no retry differs from
the attempt that was served and nobody moves a parked order too early. -/
theorem sells_the_cart {w : World} (h : (tillRuns.restrict Undisturbed).Reachable w) :
    ∀ r ∈ w.reports, Sold w r := by
  -- along the run, together with the parked orders
  have hselling : Parked w ∧ ∀ r ∈ w.reports, Sold w r := by
    induction h with
    | init h0 =>
        constructor
        · unfold Parked
          rw [h0.made]
          exact List.forall_mem_nil _
        · rw [h0.reports]
          exact List.forall_mem_nil _
    | step hreach hstep ih =>
        obtain ⟨hparked, hsold⟩ := ih
        have hinv : TillInv _ := tillInv (System.restrict_reachable hreach)
        have hmoved := next_moved hstep.2
        exact ⟨hparked.moved hinv hstep.1 hmoved, sold_moved hsold hinv hparked hstep.1 hmoved⟩
  exact hselling.2

/-- The small bar with its till. -/
def openTill : World := ⟨.opened, [], openBar, [], [], []⟩

theorem openTill_opened : openTill.Opened :=
  ⟨openBar_opening, List.nodup_nil, rfl, rfl, rfl, rfl, rfl⟩

/-- A step that disturbs nothing. -/
def World.nextUndisturbed (w : World) (e : TillEvent) : Option World :=
  if Undisturbed w e then w.next e else none

theorem nextUndisturbed_step {w w' : World} {e : TillEvent}
    (h : w.nextUndisturbed e = some w') : (tillRuns.restrict Undisturbed).step w e w' := by
  unfold World.nextUndisturbed at h
  split at h
  next hu => exact ⟨hu, h⟩
  next => cases h

/-- One lassi is charged and served, and the response is lost. -/
def lostCharge : List TillEvent :=
  [.edit (.mergeLine 100 (.product 1 [])), .charge "7f3c", .deliver 0 cashier ⟨20, 0⟩, .fail false]

/-- The charge again, this time with its response. -/
def chargeAgain : List TillEvent := [.charge "unused", .deliver 1 cashier ⟨21, 1⟩, .succeed 1]

/-- And then a held one. -/
def lassiHeld : List TillEvent :=
  [.edit (.mergeLine 101 (.product 1 [])), .hold "a90e", .deliver 2 cashier ⟨22, 2⟩, .succeed 2]

theorem retry_runs : (System.replay World.nextUndisturbed
    [lostCharge, chargeAgain, lassiHeld].flatten openTill).isSome = true := by decide +kernel

theorem sells_the_cart_retry : ∃ w, (tillRuns.restrict Undisturbed).Reachable w
    ∧ w.reports.map (fun r => (r.attempt.held, r.attempt.lines, r.orders.map (·.status)))
      = [(false, [(.product 1 [], 1)], [.placed]), (true, [(.product 1 [], 1)], [.placed, .draft])]
    ∧ ∀ r ∈ w.reports, Sold w r := by
  have hreached := System.replay_reachable (fun _ _ _ => nextUndisturbed_step) _ openTill
    openTill_opened (Option.some_get retry_runs).symm
  exact ⟨_, hreached, by decide +kernel, sells_the_cart hreached⟩

/-- What a charge shows has the portions that were in the cart. -/
theorem Sold.portions {w : World} {r : Report} (h : Sold w r) (hcharge : r.attempt.held = false) :
    (r.shown.items.map (·.quantity)).sum = (r.attempt.lines.map Prod.snd).sum := by
  obtain ⟨m, -, hm⟩ := h
  unfold SoldAs at hm
  rw [hcharge] at hm
  exact hm.2.2.2.2.portions

/-- Between the two charges the cashier adds a second lassi. -/
def oneMore : List TillEvent := [.edit (.changeQty 100 1)]

theorem oneMore_runs : (System.replay World.next [lostCharge, oneMore, chargeAgain].flatten
    openTill).isSome = true := by decide +kernel

/-- **A retry after an edit sells the old cart**: two lassis are charged, and the order
of one is shown as the success. -/
theorem one_lassi_for_two : ¬ ∀ w, tillRuns.Reachable w → ∀ r ∈ w.reports, Sold w r := by
  intro h
  have hreached := System.replay_reachable (M := tillRuns) (fun _ _ _ hs => hs) _ openTill
    openTill_opened (Option.some_get oneMore_runs).symm
  have hwrong : ∃ r ∈ ((System.replay World.next [lostCharge, oneMore, chargeAgain].flatten
      openTill).get oneMore_runs).reports, r.attempt.held = false
        ∧ (r.shown.items.map (·.quantity)).sum ≠ (r.attempt.lines.map Prod.snd).sum := by
    decide +kernel
  obtain ⟨r, hr, hcharge, hne⟩ := hwrong
  exact hne ((h _ hreached r hr).portions hcharge)

end OraOS.Orders
