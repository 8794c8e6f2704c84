/-
  OraOS.Orders.CreateRace — any number of creations at once.

  A row in flight has the entries of the indexes it has entered: nobody commits one
  of them before its transaction ends.

    * `createTurn_turned`   — **the step inversion**: what a statement can do, over
                              which every invariant is argued;
    * `createSession_knows` — what has been entered stays free;
    * `createSession_keeps` — the rule for what is argued on top of it;
    * `orders_numbered`     — the orders are numbered 1, 2, … without a gap.
-/
import OraOS.Orders.CreateStatements
import OraOS.Orders.Serial

namespace OraOS.Orders

open OraOS.Api
open OraOS.Lib
open OraOS.Inventory
open OraOS.Marketing
open OraOS.Loyalty

/-! ## §1. What a statement does. -/

/-- Whether the call has its answer. -/
def CreatePhase.isAnswered : CreatePhase → Bool
  | .answered _ => true
  | _ => false

/-- From one phase to the next in the same transaction, with the lock it waits for. -/
inductive Advance (db : Db) (r : CreateCall) :
    CreatePhase → Option OrderLock → CreatePhase → Prop where
  | failed {p : CreatePhase} (hp : p.isAnswered = false) (k : Option OrderLock) (left : ℕ)
      (e : ApiError) : Advance db r p k (.failed left e)
  | menu (left : ℕ) : Advance db r (.attempting (left + 1)) none (.menuRead left db)
  | customer (left : ℕ) (menu : Db) :
      Advance db r (.menuRead left menu) none (.customerRead left menu)
  | branch (left : ℕ) (menu : Db) (branchId : Uuid) :
      Advance db r (.customerRead left menu) none (.branchRead left menu branchId)
  | priced {left : ℕ} {menu : Db} {branchId : Uuid} {p : PricedOrder}
      (h : price db menu r.env.now r.dto branchId = .ok p) :
      Advance db r (.branchRead left menu branchId) none (.priced left menu p)
  | numbered (left : ℕ) (menu : Db) (p : PricedOrder) :
      Advance db r (.priced left menu p) none (.numbered left menu p (nextOrderNumber db))
  | row {left : ℕ} {menu : Db} {p : PricedOrder} {orderNumber : ℤ} {o : Order}
      (h : orderRow r.env r.dto p orderNumber = .ok o) :
      Advance db r (.numbered left menu p orderNumber) none
        (.entering left (.fresh menu p o) [.id, .number, .key])
  | entered {left : ℕ} {tx : CreateTx} {todo : List OrderIndex} {ix : OrderIndex}
      (hfree : ix.Free db tx.order) :
      Advance db r (.entering left tx todo) (ix.lock tx.order)
        (.entering left tx (todo.erase ix))
  | items {left : ℕ} {tx : CreateTx} {o : Order}
      (h : withItems tx.order tx.priced.lines = .ok o) :
      Advance db r (.entering left tx []) none (.writing left { tx with order := o } Write.all)
  | wrote {left : ℕ} {tx tx' : CreateTx} {w : Write} {todo : List Write}
      (h : write db r tx w = .ok tx') :
      Advance db r (.writing left tx (w :: todo)) (w.lock r tx) (.writing left tx' todo)

/-- How a transaction ends without effect. -/
inductive Ended (db : Db) (r : CreateCall) : CreatePhase → Prop where
  | found {existing : Order} (h : findByIdempotencyKey db r.dto.idempotencyKey = some existing) :
      Ended db r (.answered (.ok (existing, [])))
  | refused (e : ApiError) : Ended db r (.answered (.error e))
  | again (left : ℕ) : Ended db r (.attempting left)
  | lost (e : ApiError) : Ended db r (.lost e)

/-- A statement that may fail advances if what follows it does. -/
theorem advance_orFail {db : Db} {r : CreateCall} {p : CreatePhase} {k : Option OrderLock}
    {left : ℕ} {α : Type} {x : Except ApiError α} {next : α → CreatePhase}
    (hp : p.isAnswered = false) (h : ∀ a, x = .ok a → Advance db r p k (next a)) :
    Advance db r p k (orFail left x next) := by
  cases hx : x with
  | error e => exact .failed hp k left e
  | ok a => exact h a hx

/-- A caught error ends the attempt. -/
theorem caught_ended (db : Db) (r : CreateCall) (left : ℕ) (e : ApiError) :
    Ended db r (caught r left e) := by
  cases e with
  | uniqueViolation ix =>
      by_cases hnumber : ix = .orderNumber
      · subst hnumber
        exact .again left
      · rw [caught_other hnumber]
        split
        · exact .lost _
        · exact .refused _
  | _ => exact .refused _

/-- What the next statement can do, in one of four ways. -/
inductive Turned (db : Db) (r : CreateCall) (p : CreatePhase) : CreateTurn → Prop where
  | went {k : Option OrderLock} {p' : CreatePhase} (h : Advance db r p k p') :
      Turned db r p (waiting k (r, p'))
  | ended {p' : CreatePhase} (hp : p.isAnswered = false) (h : Ended db r p') :
      Turned db r p (.rollback (r, p'))
  | committed {left : ℕ} {tx : CreateTx} (h : p = .writing left tx []) :
      Turned db r p (.commit (tx.publish db r.ctx)
        (r, .answered (.ok (tx.order, creditHooks r.dto tx.order))))
  | idle : Turned db r p .idle

/-- The lookup of the key after an attempt was lost. -/
theorem turned_read (db : Db) (r : CreateCall) {p p' : CreatePhase}
    (hp : p.isAnswered = false) (h : Ended db r p') :
    Turned db r p (match findByIdempotencyKey db r.dto.idempotencyKey with
      | some existing => .rollback (r, .answered (.ok (existing, [])))
      | none => .rollback (r, p')) := by
  split
  next existing hfind => exact .ended hp (.found hfind)
  next => exact .ended hp h

/-- **The step inversion.** -/
theorem createTurn_turned (ix : OrderIndex) (db : Db) (r : CreateCall) (p : CreatePhase) :
    Turned db r p (createTurn ix db (r, p)) := by
  cases p with
  | asked => exact turned_read db r rfl (.again 5)
  | attempting left =>
      cases left with
      | zero => exact .ended rfl (.refused _)
      | succ left => exact .went (k := none) (advance_orFail rfl fun _ _ => .menu left)
  | menuRead left menu =>
      exact .went (k := none) (advance_orFail rfl fun _ _ => .customer left menu)
  | customerRead left menu =>
      exact .went (k := none) (advance_orFail rfl fun branchId _ => .branch left menu branchId)
  | branchRead left menu branchId =>
      exact .went (k := none) (advance_orFail rfl fun _ h => .priced h)
  | priced left menu p => exact .went (k := none) (.numbered left menu p)
  | numbered left menu p orderNumber =>
      exact .went (k := none) (advance_orFail rfl fun _ h => .row h)
  | entering left tx todo =>
      cases todo with
      | nil => exact .went (k := none) (advance_orFail rfl fun _ h => .items h)
      | cons i todo =>
          show Turned db r _ (if ix ∈ i :: todo then _ else _)
          -- the session asks for one of the entries that are left
          split
          · exact .went (advance_orFail rfl fun _ h => .entered (require_ok.mp h))
          · exact .idle
  | writing left tx todo =>
      cases todo with
      | nil => exact .committed rfl
      | cons w todo => exact .went (advance_orFail rfl fun _ h => .wrote h)
  | failed left e => exact .ended rfl (caught_ended db r left e)
  | lost e => exact turned_read db r rfl (.refused e)
  | answered result => exact .idle

/-! ## §2. The entries of a row in flight. -/

/-- The entries a transaction has taken. -/
def entryHeld : CreateCall × CreatePhase → OrderLock → Prop
  | (_, .entering _ tx todo), k => ∃ ix, ix ∉ todo ∧ ix.lock tx.order = some k
  | (_, .writing _ tx _), k => ∃ ix, OrderIndex.lock tx.order ix = some k
  | _, _ => False

/-- What has been entered is on no committed row. -/
def Entered (db : Db) : CreateCall × CreatePhase → Prop
  | (_, .entering _ tx todo) => ∀ ix, ix ∉ todo → OrderIndex.Free db tx.order ix
  | (_, .writing _ tx _) => ∀ ix, OrderIndex.Free db tx.order ix
  | _ => True

/-- What the unique indexes are made of. -/
def entriesOf (db : Db) : List (Uuid × ℤ × Option String) :=
  db.orders.map fun o => (o.id, o.orderNumber, o.idempotencyKey)

/-- No other request adds, drops or renames an order. -/
def KeepsEntries {ε : Type} (elsewhere : Db → ε → Db) : Prop :=
  ∀ db e, entriesOf (elsewhere db e) = entriesOf db

theorem ids_of_entries {db db' : Db} (h : entriesOf db' = entriesOf db) :
    db'.orders.map (·.id) = db.orders.map (·.id) := by
  have := congrArg (List.map Prod.fst) h
  simp only [entriesOf, List.map_map] at this
  exact this

theorem numbers_of_entries {db db' : Db} (h : entriesOf db' = entriesOf db) :
    db'.orders.map (·.orderNumber) = db.orders.map (·.orderNumber) := by
  have := congrArg (List.map fun e : Uuid × ℤ × Option String => e.2.1) h
  simp only [entriesOf, List.map_map] at this
  exact this

theorem keys_of_entries {db db' : Db} (h : entriesOf db' = entriesOf db) :
    db'.orders.map (·.idempotencyKey) = db.orders.map (·.idempotencyKey) := by
  have := congrArg (List.map fun e : Uuid × ℤ × Option String => e.2.2) h
  simp only [entriesOf, List.map_map] at this
  exact this

/-- A free entry, as a value that a column does not have. -/
theorem free_iff (db : Db) (o : Order) (ix : OrderIndex) :
    ix.Free db o ↔ match ix with
      | .id => o.id ∉ db.orders.map (·.id)
      | .number => o.orderNumber ∉ db.orders.map (·.orderNumber)
      | .key => o.idempotencyKey = none ∨ o.idempotencyKey ∉ db.orders.map (·.idempotencyKey) := by
  cases ix with
  | id => simp [OrderIndex.Free]
  | number => simp [OrderIndex.Free]
  | key =>
      unfold OrderIndex.Free keyTaken
      cases o.idempotencyKey with
      | none => simp
      | some k => simp

theorem free_of_entries {db db' : Db} (h : entriesOf db' = entriesOf db) {o : Order}
    {ix : OrderIndex} (hf : ix.Free db o) : ix.Free db' o := by
  rw [free_iff] at hf ⊢
  cases ix with
  | id =>
      rw [ids_of_entries h]
      exact hf
  | number =>
      rw [numbers_of_entries h]
      exact hf
  | key =>
      rw [keys_of_entries h]
      exact hf

/-- A row with another entry leaves this one free. -/
theorem free_publish {db : Db} {ctx : TenantContext} {tx : CreateTx} {o : Order}
    {ix : OrderIndex} (hf : ix.Free db o)
    (hne : ∀ k, ix.lock tx.order = some k → ix.lock o ≠ some k) :
    ix.Free (tx.publish db ctx) o := by
  rw [free_iff] at hf ⊢
  have horders : (tx.publish db ctx).orders = db.orders ++ [tx.order] := rfl
  rw [horders]
  -- index by index: the new order's entry is another one, or there is none
  cases ix with
  | id =>
      have hother : o.id ≠ tx.order.id := fun heq => hne _ rfl (by rw [OrderIndex.lock, heq])
      simp only [List.map_append, List.mem_append, List.map_cons, List.map_nil,
        List.mem_singleton]
      exact fun h => h.elim hf hother
  | number =>
      have hother : o.orderNumber ≠ tx.order.orderNumber :=
        fun heq => hne _ rfl (by rw [OrderIndex.lock, heq])
      simp only [List.map_append, List.mem_append, List.map_cons, List.map_nil,
        List.mem_singleton]
      exact fun h => h.elim hf hother
  | key =>
      rcases hf with hnone | hf
      · exact .inl hnone
      · by_cases hset : o.idempotencyKey = none
        · exact .inl hset
        · right
          obtain ⟨k, hk⟩ := Option.ne_none_iff_exists'.mp hset
          have hother : o.idempotencyKey ≠ tx.order.idempotencyKey := by
            intro heq
            exact hne (.key k) (by rw [OrderIndex.lock, ← heq, hk]; rfl)
              (by rw [OrderIndex.lock, hk]; rfl)
          simp only [List.map_append, List.mem_append, List.map_cons, List.map_nil,
            List.mem_singleton]
          exact fun h => h.elim hf hother

/-- The lines are stored with the order, under its id. -/
theorem withItems_ok {o o' : Order} {lines : List NewOrderItem} (h : withItems o lines = .ok o') :
    ∃ items, lines.mapM storeItem = .ok items ∧ o' = { o with items } := by
  obtain ⟨items, hitems, h⟩ := bind_ok.mp h
  exact ⟨items, hitems, (pure_ok.mp h).symm⟩

/-- What a statement after the order row writes. -/
inductive Wrote (db : Db) (r : CreateCall) (tx : CreateTx) : Write → CreateTx → Prop where
  | coupon (redemptions : List CouponRedemption) : Wrote db r tx .coupon { tx with redemptions }
  | looked {w : Write} (hw : w = .customer ∨ w = .balance) : Wrote db r tx w tx
  | free (h : ¬ 0 < tx.priced.discount.redeemPoints) : Wrote db r tx .points tx
  | debited {customerId : Uuid} {e : LoyaltyEntry} (logs : List AuditLog)
      (h : 0 < tx.priced.discount.redeemPoints)
      (he : insertEntry db (debitEntry r.ctx customerId tx.order.id tx.priced.discount) = .ok e) :
      Wrote db r tx .points { tx with spent := [e], logs := logs }
  | logged (logs : List AuditLog) : Wrote db r tx .discount { tx with logs }
  | paid {paid : List Payment} (h : paymentRows db r.env tx.order r.dto = .ok paid) :
      Wrote db r tx .payment { tx with paid }
  | moved {moved : List StockMovement} (h : movementRows db r tx.menu tx.order.id = .ok moved) :
      Wrote db r tx .stock { tx with moved }

/-- A customer pays with points only if points are redeemed. -/
theorem payer_ok {dto : CreateOrderDto} {d : Discount} {customer : Option Uuid}
    (h : payer dto d = .ok customer) : customer.isSome = true ↔ 0 < d.redeemPoints := by
  unfold payer at h
  split at h
  next hpos =>
    obtain ⟨c, -, h⟩ := bind_ok.mp h
    cases pure_ok.mp h
    exact iff_of_true rfl hpos
  next hpos =>
    cases h
    exact iff_of_false nofun hpos

/-- **What each write of the transaction adds.** -/
theorem write_ok {db : Db} {r : CreateCall} {tx tx' : CreateTx} {w : Write}
    (h : write db r tx w = .ok tx') : Wrote db r tx w tx' := by
  -- one case for each of the seven writes
  cases w with
  | coupon =>
      obtain ⟨redemptions, -, h⟩ := bind_ok.mp h
      cases pure_ok.mp h
      exact .coupon redemptions
  | customer =>
      obtain ⟨customer, -, h⟩ := bind_ok.mp h
      cases customer with
      | none =>
          cases pure_ok.mp h
          exact .looked (.inl rfl)
      | some customerId =>
          obtain ⟨_, -, h⟩ := bind_ok.mp h
          cases pure_ok.mp h
          exact .looked (.inl rfl)
  | balance =>
      obtain ⟨customer, -, h⟩ := bind_ok.mp h
      cases customer with
      | none =>
          cases pure_ok.mp h
          exact .looked (.inr rfl)
      | some customerId =>
          obtain ⟨_, -, h⟩ := bind_ok.mp h
          cases pure_ok.mp h
          exact .looked (.inr rfl)
  | points =>
      obtain ⟨customer, hpayer, h⟩ := bind_ok.mp h
      cases customer with
      | none =>
          cases pure_ok.mp h
          exact .free fun hpos => nomatch (payer_ok hpayer).mpr hpos
      | some customerId =>
          obtain ⟨e, he, h⟩ := bind_ok.mp h
          cases pure_ok.mp h
          exact .debited _ ((payer_ok hpayer).mp rfl) he
  | discount =>
      cases h
      exact .logged _
  | payment =>
      obtain ⟨paid, hpaid, h⟩ := bind_ok.mp h
      cases pure_ok.mp h
      exact .paid hpaid
  | stock =>
      obtain ⟨moved, hmoved, h⟩ := bind_ok.mp h
      cases pure_ok.mp h
      exact .moved hmoved

/-- The order row stays what it is. -/
theorem write_order {db : Db} {r : CreateCall} {tx tx' : CreateTx} {w : Write}
    (h : write db r tx w = .ok tx') : tx'.order = tx.order := by
  cases write_ok h <;> rfl

/-- The lines take no entry of the index. -/
theorem lock_of_items (o : Order) (items : List OrderItem) (ix : OrderIndex) :
    ix.lock { o with items } = ix.lock o := by
  cases ix <;> rfl

theorem free_of_items {db : Db} {o : Order} (items : List OrderItem) {ix : OrderIndex}
    (h : ix.Free db o) : ix.Free db { o with items } := by
  cases ix <;> exact h

/-- What a statement keeps: entries it has are free, and it has taken what it had
or what it waited for. -/
theorem advance_entered {db : Db} {r : CreateCall} {p p' : CreatePhase} {k : Option OrderLock}
    (hk : Entered db (r, p)) (h : Advance db r p k p') :
    Entered db (r, p') ∧ ∀ l, entryHeld (r, p') l → k = some l ∨ entryHeld (r, p) l := by
  cases h with
  | row h =>
      refine ⟨fun ix hix => ?_, fun l hl => ?_⟩
      · exact absurd (by cases ix <;> simp) hix
      · obtain ⟨ix, hix, -⟩ := hl
        exact absurd (by cases ix <;> simp) hix
  | entered hfree =>
      rename_i left tx todo ix
      -- what is not left to enter was entered before, or just now
      have hsplit : ∀ ix', ix' ∉ todo.erase ix → ix' = ix ∨ ix' ∉ todo := by
        intro ix' hix'
        by_cases heq : ix' = ix
        · exact .inl heq
        · exact .inr fun hmem => hix' ((List.mem_erase_of_ne heq).mpr hmem)
      constructor
      · intro ix' hix'
        rcases hsplit ix' hix' with rfl | hout
        · exact hfree
        · exact hk ix' hout
      · intro l hl
        obtain ⟨ix', hix', hlock⟩ := hl
        rcases hsplit ix' hix' with rfl | hout
        · exact .inl hlock
        · exact .inr ⟨ix', hout, hlock⟩
  | items h =>
      obtain ⟨items, -, rfl⟩ := withItems_ok h
      constructor
      · intro ix
        exact free_of_items items (hk ix List.not_mem_nil)
      · intro l hl
        obtain ⟨ix, hix⟩ := hl
        rw [lock_of_items] at hix
        exact .inr ⟨ix, List.not_mem_nil, hix⟩
  | wrote h =>
      have ho := write_order h
      constructor
      · intro ix
        rw [ho]
        exact hk ix
      · intro l hl
        obtain ⟨ix, hix⟩ := hl
        rw [ho] at hix
        exact .inr ⟨ix, hix⟩
  | _ => exact ⟨trivial, fun l hl => hl.elim⟩

/-- A call whose attempt ended holds no entry. -/
theorem ended_entered {db : Db} {r : CreateCall} {p' : CreatePhase} (h : Ended db r p') :
    (∀ db', Entered db' (r, p')) ∧ ∀ l, ¬ entryHeld (r, p') l := by
  cases h <;> exact ⟨fun _ => trivial, fun _ => id⟩

theorem start_entered (db : Db) (r : CreateCall) :
    Entered db (r, r.start) ∧ ∀ l, ¬ entryHeld (r, r.start) l := by
  unfold CreateCall.start
  cases checkRequest r.ctx r.dto with
  | error e => exact ⟨trivial, fun _ => id⟩
  | ok u =>
      dsimp only
      split
      · exact ⟨trivial, fun _ => id⟩
      · exact ⟨trivial, fun _ => id⟩

/-- What a call has entered stays entered while its entries stay free. -/
theorem Entered.of_free {db db' : Db} {t : CreateCall × CreatePhase} (hk : Entered db t)
    (h : ∀ o ix, OrderIndex.Free db o ix → (∀ k, ix.lock o = some k → entryHeld t k) →
      OrderIndex.Free db' o ix) : Entered db' t := by
  obtain ⟨r, p⟩ := t
  cases p with
  | entering left tx todo =>
      intro ix hix
      exact h _ ix (hk ix hix) fun k hlock => ⟨ix, hix, hlock⟩
  | writing left tx todo =>
      intro ix
      exact h _ ix (hk ix) fun k hlock => ⟨ix, hlock⟩
  | _ => trivial

/-- A turn within the transaction is an advance. -/
theorem turn_went {ε : Type} {elsewhere : Db → ε → Db} {ix : OrderIndex} {db : Db}
    {t t' : CreateCall × CreatePhase}
    (h : (createSession elsewhere).turn ix db t = .go t') :
    ∃ p', t' = (t.1, p') ∧ Advance db t.1 t.2 none p' := by
  have hcase : Turned db t.1 t.2 (.go t') := h ▸ createTurn_turned ix db t.1 t.2
  generalize hturn : Turn.go t' = turn at hcase
  cases hcase with
  | went hadv =>
      rename_i k p'
      cases k with
      | none =>
          cases hturn
          exact ⟨p', rfl, hadv⟩
      | some k => cases hturn
  | _ => cases hturn

theorem turn_locked {ε : Type} {elsewhere : Db → ε → Db} {ix : OrderIndex} {db : Db}
    {t t' : CreateCall × CreatePhase} {k : OrderLock}
    (h : (createSession elsewhere).turn ix db t = .lock k t') :
    ∃ p', t' = (t.1, p') ∧ Advance db t.1 t.2 (some k) p' := by
  have hcase : Turned db t.1 t.2 (.lock k t') := h ▸ createTurn_turned ix db t.1 t.2
  generalize hturn : Turn.lock k t' = turn at hcase
  cases hcase with
  | went hadv =>
      rename_i k' p'
      cases k' with
      | none => cases hturn
      | some k' =>
          cases hturn
          exact ⟨p', rfl, hadv⟩
  | _ => cases hturn

/-- A rollback ends the attempt. -/
theorem turn_rolledBack {ε : Type} {elsewhere : Db → ε → Db} {ix : OrderIndex} {db : Db}
    {t t' : CreateCall × CreatePhase}
    (h : (createSession elsewhere).turn ix db t = .rollback t') :
    ∃ p', t' = (t.1, p') ∧ t.2.isAnswered = false ∧ Ended db t.1 p' := by
  have hcase : Turned db t.1 t.2 (.rollback t') := h ▸ createTurn_turned ix db t.1 t.2
  generalize hturn : Turn.rollback t' = turn at hcase
  cases hcase with
  | went hadv =>
      rename_i k p'
      cases k <;> cases hturn
  | ended hp hend =>
      cases hturn
      exact ⟨_, rfl, hp, hend⟩
  | _ => cases hturn

/-- **A commit publishes the order, and nothing is left to write.** -/
theorem turn_committed {ε : Type} {elsewhere : Db → ε → Db} {ix : OrderIndex} {db db' : Db}
    {t t' : CreateCall × CreatePhase}
    (h : (createSession elsewhere).turn ix db t = .commit db' t') :
    ∃ left tx, t.2 = .writing left tx [] ∧ db' = tx.publish db t.1.ctx
      ∧ t' = (t.1, .answered (.ok (tx.order, creditHooks t.1.dto tx.order))) := by
  have hcase : Turned db t.1 t.2 (.commit db' t') := h ▸ createTurn_turned ix db t.1 t.2
  generalize hturn : Turn.commit db' t' = turn at hcase
  cases hcase with
  | went hadv =>
      rename_i k p'
      cases k <;> cases hturn
  | committed hp =>
      cases hturn
      exact ⟨_, _, hp, rfl, rfl⟩
  | _ => cases hturn

/-- **What has been entered stays free** until its transaction ends. -/
theorem createSession_knows {ε : Type} {elsewhere : Db → ε → Db} (henv : KeepsEntries elsewhere) :
    (createSession elsewhere).Knows (fun _ => True) Entered entryHeld where
  start db r _ := start_entered db r
  go ix db t t' _ hk h := by
    obtain ⟨p', rfl, hadv⟩ := turn_went h
    obtain ⟨hentered, hheld⟩ := advance_entered hk hadv
    exact ⟨hentered, fun l hl => (hheld l hl).resolve_left nofun⟩
  lock ix db t t' k _ hk h := by
    obtain ⟨p', rfl, hadv⟩ := turn_locked h
    obtain ⟨hentered, hheld⟩ := advance_entered hk hadv
    exact ⟨hentered, fun l hl => (hheld l hl).imp_left fun heq => (Option.some.inj heq).symm⟩
  commit ix db t db' t' _ hk h := by
    obtain ⟨left, tx, hphase, rfl, rfl⟩ := turn_committed h
    refine ⟨trivial, trivial, fun _ => id, fun u hu hfree => ?_⟩
    -- a call that commits holds every entry of its order
    have hmine : ∀ ix k, OrderIndex.lock tx.order ix = some k → entryHeld t k := by
      intro ix k hlock
      obtain ⟨r, p⟩ := t
      change p = _ at hphase
      subst hphase
      exact ⟨ix, hlock⟩
    refine hu.of_free fun o ix hf hheld => ?_
    exact free_publish hf fun k hk hk' => hfree k (hmine ix k hk) (hheld k hk')
  rollback ix db t t' _ _ h := by
    obtain ⟨p', rfl, -, hend⟩ := turn_rolledBack h
    exact ⟨(ended_entered hend).1 db, (ended_entered hend).2⟩
  env db e _ :=
    ⟨trivial, fun u hu => hu.of_free fun o ix hf _ => free_of_entries (henv db e) hf⟩

/-- **The rule for everything else**: what a statement keeps, what a commit keeps, where
`base` is known already. -/
theorem createSession_keeps {ε : Type} {elsewhere : Db → ε → Db} {inv : Db → Prop}
    {base : Db → CreateCall × CreatePhase → Prop} {know : Db → CreateCall → CreatePhase → Prop}
    (hadvance : ∀ db r p k p', inv db → base db (r, p) → know db r p →
      Advance db r p k p' → know db r p')
    (hended : ∀ db r p p', inv db → know db r p → p.isAnswered = false → Ended db r p' →
      know db r p')
    (hcommit : ∀ db r left tx, inv db → base db (r, .writing left tx []) →
      know db r (.writing left tx []) →
      inv (tx.publish db r.ctx)
        ∧ know (tx.publish db r.ctx) r (.answered (.ok (tx.order, creditHooks r.dto tx.order)))
        ∧ ∀ r' p', know db r' p' → know (tx.publish db r.ctx) r' p')
    (henv : ∀ db e, inv db → inv (elsewhere db e)
      ∧ ∀ r p, know db r p → know (elsewhere db e) r p) :
    (createSession elsewhere).Keeps base inv (fun db t => know db t.1 t.2) where
  go ix db t t' h hk hkn hturn := by
    obtain ⟨p', rfl, hadv⟩ := turn_went hturn
    exact hadvance db t.1 t.2 none p' h hk hkn hadv
  lock ix db t t' k h hk hkn hturn := by
    obtain ⟨p', rfl, hadv⟩ := turn_locked hturn
    exact hadvance db t.1 t.2 (some k) p' h hk hkn hadv
  -- the one turn that writes; the others are advances or ends
  commit ix db t db' t' h hk hkn hturn := by
    obtain ⟨left, tx, hphase, rfl, rfl⟩ := turn_committed hturn
    obtain ⟨r, p⟩ := t
    change p = _ at hphase
    subst hphase
    obtain ⟨hinv, hmine, hothers⟩ := hcommit db r left tx h hk hkn
    exact ⟨hinv, hmine, fun u hu => hothers u.1 u.2 hu⟩
  rollback ix db t t' h _ hkn hturn := by
    obtain ⟨p', rfl, hp, hend⟩ := turn_rolledBack hturn
    exact hended db t.1 t.2 p' h hkn hp hend
  env db e h := by
    obtain ⟨hinv, hall⟩ := henv db e h
    exact ⟨hinv, fun u hu => hall u.1 u.2 hu⟩

/-- … from the start of a call. -/
theorem createSession_learns {ε : Type} {elsewhere : Db → ε → Db} {inv : Db → Prop}
    {know : Db → CreateCall → CreatePhase → Prop}
    (hstart : ∀ db r, inv db → know db r r.start)
    (hkeeps : (createSession elsewhere).Keeps Entered inv (fun db t => know db t.1 t.2)) :
    (createSession elsewhere).Learns Entered inv (fun db t => know db t.1 t.2) :=
  { hkeeps with start := hstart }

/-! ## §3. The numbers. -/

/-- The orders are numbered 1, 2, …, in the order of their commits. -/
def Numbered (db : Db) : Prop :=
  db.orders.map (·.orderNumber) = (List.range db.orders.length).map fun i : ℕ => (i : ℤ) + 1

/-- The number is one of those so far, or the next. -/
def InRange (db : Db) (orderNumber : ℤ) : Prop :=
  1 ≤ orderNumber ∧ orderNumber ≤ db.orders.length + 1

/-- The number a transaction has read is no later one than the next. -/
def NumberRead (db : Db) (_ : CreateCall) : CreatePhase → Prop
  | .numbered _ _ _ orderNumber => InRange db orderNumber
  | .entering _ tx _ => InRange db tx.order.orderNumber
  | .writing _ tx _ => InRange db tx.order.orderNumber
  | _ => True

/-- The numbers in use are those up to the number of orders. -/
theorem Numbered.mem_iff {db : Db} (h : Numbered db) {z : ℤ} :
    z ∈ db.orders.map (·.orderNumber) ↔ 1 ≤ z ∧ z ≤ db.orders.length := by
  rw [h, List.mem_map]
  constructor
  · intro hmem
    obtain ⟨i, hi, rfl⟩ := hmem
    rw [List.mem_range] at hi
    omega
  · intro hz
    refine ⟨(z - 1).toNat, ?_, ?_⟩
    · rw [List.mem_range]
      omega
    · omega

/-- The next number is the first that is not in use. -/
theorem Numbered.next {db : Db} (h : Numbered db) :
    nextOrderNumber db = db.orders.length + 1 := by
  unfold nextOrderNumber
  cases hmax : (db.orders.map (·.orderNumber)).max? with
  | none =>
      rw [List.max?_eq_none_iff, List.map_eq_nil_iff] at hmax
      rw [hmax]
      rfl
  | some m =>
      rw [List.max?_eq_some_iff] at hmax
      obtain ⟨hmem, hle⟩ := hmax
      have hm := h.mem_iff.mp hmem
      -- the last number is among them, so the highest is at least it
      have hlast := hle db.orders.length (h.mem_iff.mpr (by omega))
      show m + 1 = _
      omega

/-- An order with the next number keeps the numbering. -/
theorem Numbered.publish {db : Db} (h : Numbered db) (ctx : TenantContext) {tx : CreateTx}
    (hn : tx.order.orderNumber = db.orders.length + 1) : Numbered (tx.publish db ctx) := by
  unfold Numbered at h ⊢
  have horders : (tx.publish db ctx).orders = db.orders ++ [tx.order] := rfl
  rw [horders, List.map_append, h, List.length_append, List.length_singleton, List.range_succ,
    List.map_append, List.map_singleton, List.map_singleton, hn]

/-- A number that was in range stays so. -/
theorem InRange.mono {db db' : Db} {orderNumber : ℤ} (h : InRange db orderNumber)
    (hle : db.orders.length ≤ db'.orders.length) : InRange db' orderNumber := by
  unfold InRange at h ⊢
  omega

/-- What was read of the numbering stays in range. -/
theorem NumberRead.mono {db db' : Db} {r : CreateCall} {p : CreatePhase}
    (h : NumberRead db r p) (hle : db.orders.length ≤ db'.orders.length) :
    NumberRead db' r p := by
  cases p with
  | numbered left menu p orderNumber => exact InRange.mono h hle
  | entering left tx todo => exact InRange.mono h hle
  | writing left tx todo => exact InRange.mono h hle
  | _ => trivial

theorem length_of_entries {db db' : Db} (h : entriesOf db' = entriesOf db) :
    db'.orders.length = db.orders.length := by
  have := congrArg List.length h
  simp only [entriesOf, List.length_map] at this
  exact this

/-- **The number a call has read is the next one, or is taken.** -/
theorem numbers_learn {ε : Type} {elsewhere : Db → ε → Db} (henv : KeepsEntries elsewhere) :
    (createSession elsewhere).Learns Entered Numbered
      (fun db t => NumberRead db t.1 t.2) := by
  refine createSession_learns ?_ (createSession_keeps ?_ ?_ ?_ ?_)
  · intro db r _
    unfold CreateCall.start
    cases checkRequest r.ctx r.dto with
    | error e => trivial
    | ok u =>
        dsimp only
        split
        · trivial
        · trivial
  · intro db r p k p' hinv _ hkn hadv
    cases hadv with
    | numbered left menu p =>
        show InRange db (nextOrderNumber db)
        rw [hinv.next]
        unfold InRange
        omega
    | row h =>
        rw [← (orderRow_ok h).1] at hkn
        exact hkn
    | entered hfree => exact hkn
    | items h =>
        obtain ⟨items, -, rfl⟩ := withItems_ok h
        exact hkn
    | wrote h =>
        show InRange db _
        rw [write_order h]
        exact hkn
    | _ => trivial
  · intro db r p p' _ _ _ hend
    cases hend <;> trivial
  · intro db r left tx hinv hentered hkn
    have hle : db.orders.length ≤ (tx.publish db r.ctx).orders.length := by
      show _ ≤ (db.orders ++ [tx.order]).length
      rw [List.length_append]
      omega
    -- in range and free, the number can only be the next
    have hnumber : tx.order.orderNumber = db.orders.length + 1 := by
      have hfree := (free_iff db tx.order .number).mp (hentered .number)
      have hrange : InRange db tx.order.orderNumber := hkn
      unfold InRange at hrange
      by_contra hne
      exact hfree (hinv.mem_iff.mpr (by omega))
    exact ⟨hinv.publish r.ctx hnumber, trivial, fun r' p' h => h.mono hle⟩
  · intro db e hinv
    have hlength := length_of_entries (henv db e)
    refine ⟨?_, fun r p h => h.mono hlength.ge⟩
    unfold Numbered
    rw [numbers_of_entries (henv db e), hlength]
    exact hinv

/-- Every request but a creation, as what it leaves. -/
def otherRequests (db : Db) : Request → Db
  | .create _ _ _ => db
  | .hook ctx h => runHook db ctx h
  | r =>
      match perform ⟨db, []⟩ r with
      | .ok s => s.db
      | .error _ => db

/-- A change of status leaves the index. -/
theorem setStatus_entries (orders : List Order) (orderId : Uuid) (toStatus : OrderStatus)
    (placedAt : Option Instant) :
    ((setStatus orders orderId toStatus placedAt).map fun o =>
        (o.id, o.orderNumber, o.idempotencyKey))
      = orders.map fun o => (o.id, o.orderNumber, o.idempotencyKey) := by
  unfold setStatus
  rw [List.map_map]
  apply List.map_congr_left
  intro o _
  rw [Function.comp_apply]
  split <;> rfl

/-- The index is that of the orders. -/
theorem entriesOf_eq {db db' : Db} (h : db'.orders = db.orders) : entriesOf db' = entriesOf db := by
  unfold entriesOf
  rw [h]

/-- **No request but a creation writes the index.** -/
theorem entriesOf_step {s : Server} {r : Request} {db' : Db} (h : OrdersStep s r db'.orders)
    (hr : ∀ ctx env dto, r ≠ .create ctx env dto) : entriesOf db' = entriesOf s.db := by
  unfold entriesOf
  generalize db'.orders = orders at h
  cases h with
  | kept => rfl
  | added hins => exact absurd rfl (hr _ _ _)
  | moved placedAt ho hcan => exact setStatus_entries s.db.orders _ _ placedAt

theorem otherRequests_keeps : KeepsEntries otherRequests := by
  intro db r
  unfold otherRequests
  split
  next => rfl
  next ctx h => exact entriesOf_eq (runHook_orders db ctx h)
  next hcreate hhook =>
    split
    next s hok => exact entriesOf_step (perform_orders hok) hcreate
    next => rfl

/-- **Order numbers are unique and without a gap**: in every committed state of any
number of creations at once, with whatever else happens, they are 1, 2, …, n. -/
theorem orders_numbered {c : Sessions Db (CreateCall × CreatePhase) OrderLock}
    (h : ((createSession otherRequests).interleaved Numbered).Reachable c) : Numbered c.shared :=
  (Session.invariant ((createSession_knows otherRequests_keeps).learn
    (numbers_learn otherRequests_keeps)) (fun _ hs => ⟨trivial, hs⟩) h).1.2

/-- A lassi rung up without a key. -/
def lassiCall (id : Uuid) : CreateCall := ⟨cashier, ⟨id, 0⟩, lassiOrder none none none⟩

/-- One event of a day with creations side by side. -/
abbrev CreateEvent := SessionEvent CreateCall OrderIndex Request

/-- Statements of session `i` that leave the database no choice. -/
def runs (i n : ℕ) : List CreateEvent := List.replicate n (.run i .id)

/-- Session `i` enters the indexes in their order and runs to its commit. -/
def toCommit (i : ℕ) : List CreateEvent :=
  .run i .id :: .run i .number :: .run i .key :: runs i 9

/-- Two sales read the same highest number; the second waits, loses and retries. -/
def sameNumberTwice : List CreateEvent :=
  .begin 0 (lassiCall 20) :: .begin 1 (lassiCall 21)
    :: [runs 0 6, runs 1 6, toCommit 0, runs 1 1, [.run 1 .number], runs 1 7, toCommit 1].flatten

theorem lassiBar_numbered : Numbered lassiBar := rfl

theorem sameNumberTwice_runs : (System.replay (createSession otherRequests).act sameNumberTwice
    (Session.quiet lassiBar)).isSome = true := by decide +kernel

theorem orders_numbered_retry :
    ∃ c, ((createSession otherRequests).interleaved Numbered).Reachable c
      ∧ c.shared.orders.map (fun o => (o.id, o.orderNumber)) = [(20, 1), (21, 2)]
      ∧ Numbered c.shared := by
  have hreached := Session.replay_reached (P := createSession otherRequests) lassiBar_numbered
    sameNumberTwice (Option.some_get sameNumberTwice_runs).symm
  exact ⟨_, hreached, by decide +kernel, orders_numbered hreached⟩

end OraOS.Orders
