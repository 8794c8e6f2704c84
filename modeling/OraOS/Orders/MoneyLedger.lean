/-
  OraOS.Orders.MoneyLedger — the payment ledger over any run of requests.

  `MoneyInv` is the chain 0 ≤ refunded ≤ captured ≤ total for every order, with
  the fact that money rows name orders that exist.  Four requests with different
  guards keep it (`Effect.moneyInv`); `money_ledger` is the law they add up to.
-/
import OraOS.Orders.Reversal

namespace OraOS.Orders

open OraOS.Api
open OraOS.Lib
open OraOS.Inventory

/-! ## §1. The rows of one order. -/

/-- The payments of an order. -/
def paymentsOf (db : Db) (orderId : Uuid) : List Payment :=
  db.payments.filter fun p => decide (p.orderId = orderId)

/-- The refunds of an order. -/
def refundsOf (db : Db) (orderId : Uuid) : List Refund :=
  db.refunds.filter fun r => decide (r.orderId = orderId)

/-- Rows appended for others do not show among an order's own. -/
theorem filter_append_other {α : Type*} {p : α → Bool} {l new : List α}
    (h : ∀ a ∈ new, p a = false) : (l ++ new).filter p = l.filter p := by
  have hnil : new.filter p = [] := List.filter_eq_nil_iff.mpr fun a ha => by simp [h a ha]
  rw [List.filter_append, hnil, List.append_nil]

theorem capturedOf_append (l l' : List Payment) (orderId : Uuid) :
    capturedOf (l ++ l') orderId = capturedOf l orderId + capturedOf l' orderId :=
  sumWhere_append _ _ l l'

theorem refundedOf_append (l l' : List Refund) (orderId : Uuid) :
    refundedOf (l ++ l') orderId = refundedOf l orderId + refundedOf l' orderId :=
  sumWhere_append _ _ l l'

theorem capturedOf_other {l : List Payment} {orderId : Uuid} (h : ∀ p ∈ l, p.orderId ≠ orderId) :
    capturedOf l orderId = 0 := by
  refine sumWhere_eq_zero ?_
  intro p hp hmatch
  simp only [Bool.and_eq_true, decide_eq_true_eq] at hmatch
  exact absurd hmatch.1 (h p hp)

theorem refundedOf_other {l : List Refund} {orderId : Uuid} (h : ∀ r ∈ l, r.orderId ≠ orderId) :
    refundedOf l orderId = 0 := by
  refine sumWhere_eq_zero ?_
  intro r hr hmatch
  exact absurd (by simpa using hmatch) (h r hr)

theorem capturedOf_single {p : Payment} (h : p.status = .captured) (orderId : Uuid) :
    capturedOf [p] orderId = if p.orderId = orderId then p.amountMinor else 0 := by
  unfold capturedOf
  rw [sumWhere_cons, sumWhere_nil, add_zero]
  by_cases hid : p.orderId = orderId
  · simp [hid, h]
  · simp [hid]

theorem refundedOf_single (r : Refund) (orderId : Uuid) :
    refundedOf [r] orderId = if r.orderId = orderId then r.amountMinor else 0 := by
  unfold refundedOf
  rw [sumWhere_cons, sumWhere_nil, add_zero]
  by_cases hid : r.orderId = orderId
  · simp [hid]
  · simp [hid]

/-! ## §2. The invariant. -/

/-- What holds of payments and refunds in every state of the API. -/
structure MoneyInv (db : Db) : Prop where
  ids : UniqueIds db
  paymentKnown : ∀ p ∈ db.payments, ∃ o ∈ db.orders, o.id = p.orderId
  refundKnown : ∀ r ∈ db.refunds, ∃ o ∈ db.orders, o.id = r.orderId
  captured : ∀ o ∈ db.orders, capturedOf db.payments o.id ≤ o.totalMinor
  refunded : ∀ o ∈ db.orders, refundedOf db.refunds o.id ≤ capturedOf db.payments o.id

theorem MoneyInv.opening {s : Server} (h : Opening s) : MoneyInv s.db := by
  have hno : ∀ o, o ∉ s.db.orders := by
    rw [h.orders]
    exact fun _ => List.not_mem_nil
  refine ⟨?_, ?_, ?_, fun o ho => absurd ho (hno o), fun o ho => absurd ho (hno o)⟩
  · unfold UniqueIds
    rw [h.orders]
    exact List.nodup_nil
  · rw [h.payments]
    exact List.forall_mem_nil _
  · rw [h.refunds]
    exact List.forall_mem_nil _

/-- The money of the orders depends on the orders and the money rows only, and on
the orders by their ids and totals. -/
theorem MoneyInv.keep {db db' : Db} (hs : MoneyInv db) (hids : UniqueIds db')
    (hforth : ∀ o ∈ db.orders, ∃ o' ∈ db'.orders, o'.id = o.id)
    (hback : ∀ o' ∈ db'.orders, ∃ o ∈ db.orders, o'.id = o.id ∧ o'.totalMinor = o.totalMinor)
    (hpayments : db'.payments = db.payments) (hrefunds : db'.refunds = db.refunds) :
    MoneyInv db' := by
  refine ⟨hids, ?_, ?_, ?_, ?_⟩
  · rw [hpayments]
    intro p hp
    obtain ⟨o, ho, hid⟩ := hs.paymentKnown p hp
    obtain ⟨o', ho', hid'⟩ := hforth o ho
    exact ⟨o', ho', hid'.trans hid⟩
  · rw [hrefunds]
    intro r hr
    obtain ⟨o, ho, hid⟩ := hs.refundKnown r hr
    obtain ⟨o', ho', hid'⟩ := hforth o ho
    exact ⟨o', ho', hid'.trans hid⟩
  · rw [hpayments]
    intro o' ho'
    -- an order there was, with the same total
    obtain ⟨o, ho, hid, htotal⟩ := hback o' ho'
    rw [hid, htotal]
    exact hs.captured o ho
  · rw [hpayments, hrefunds]
    intro o' ho'
    obtain ⟨o, ho, hid, -⟩ := hback o' ho'
    rw [hid]
    exact hs.refunded o ho

theorem MoneyInv.congr {db db' : Db} (hs : MoneyInv db) (horders : db'.orders = db.orders)
    (hpayments : db'.payments = db.payments) (hrefunds : db'.refunds = db.refunds) :
    MoneyInv db' := by
  refine hs.keep ?_ ?_ ?_ hpayments hrefunds
  · unfold UniqueIds
    rw [horders]
    exact hs.ids
  · rw [horders]
    exact fun o ho => ⟨o, ho, rfl⟩
  · rw [horders]
    exact fun o ho => ⟨o, ho, rfl, rfl⟩

/-! ## §3. Creation, payment, refund. -/

/-- **An order is created with its whole total captured, or nothing.** -/
theorem MoneyInv.created {db : Db} (hs : MoneyInv db) {ctx : TenantContext} {env : Env}
    {dto : CreateOrderDto} {o : Order} {paid : List Payment} {moved : List StockMovement}
    {spent : List LoyaltyEntry} (redemptions : List CouponRedemption) (logs : List AuditLog)
    (h : Inserted db ctx env dto o paid moved spent) (hids : UniqueIds
      (inserted db ctx o paid moved spent redemptions logs)) :
    MoneyInv (inserted db ctx o paid moved spent redemptions logs) := by
  -- the new id is fresh: no payment or refund of the old database names it, and
  -- none of the new payments names an old order
  have hnew : ∀ x ∈ db.orders, x.id ≠ o.id := by
    rw [h.id]
    exact h.fresh
  have hpaid : ∀ p ∈ paid, p.orderId = o.id := by
    intro p hp
    rcases h.paid with ⟨rfl, -⟩ | ⟨q, rfl, hid, -⟩
    · cases hp
    · rw [List.mem_singleton.mp hp]
      exact hid
  have hcaptured : capturedOf paid o.id ≤ o.totalMinor := by
    rcases h.paid with ⟨rfl, -⟩ | ⟨q, rfl, hid, hstatus, hamount, -⟩
    · exact o.amounts_nonneg.2.2.2
    · rw [capturedOf_single hstatus, if_pos hid]
      exact hamount.le
  have hold : capturedOf db.payments o.id = 0 := by
    refine capturedOf_other ?_
    intro p hp hid
    obtain ⟨x, hx, hxid⟩ := hs.paymentKnown p hp
    exact hnew x hx (hxid.trans hid)
  have hrefunds : refundedOf db.refunds o.id = 0 := by
    refine refundedOf_other ?_
    intro r hr hid
    obtain ⟨x, hx, hxid⟩ := hs.refundKnown r hr
    exact hnew x hx (hxid.trans hid)
  have hother : ∀ x ∈ db.orders, capturedOf paid x.id = 0 := by
    intro x hx
    refine capturedOf_other ?_
    intro p hp hid
    exact hnew x hx (hid.symm.trans (hpaid p hp))
  -- an old order keeps its sums; the new one has at most its own payment
  refine ⟨hids, ?_, ?_, ?_, ?_⟩
  · rw [inserted_orders, inserted_payments]
    intro p hp
    rcases List.mem_append.mp hp with hp | hp
    · obtain ⟨x, hx, hid⟩ := hs.paymentKnown p hp
      exact ⟨x, List.mem_append_left _ hx, hid⟩
    · exact ⟨o, List.mem_append_right _ (List.mem_singleton_self o), (hpaid p hp).symm⟩
  · rw [inserted_orders, inserted_refunds]
    intro r hr
    obtain ⟨x, hx, hid⟩ := hs.refundKnown r hr
    exact ⟨x, List.mem_append_left _ hx, hid⟩
  · rw [inserted_orders, inserted_payments]
    intro x hx
    rw [capturedOf_append]
    rcases List.mem_append.mp hx with hx | hx
    · have := hs.captured x hx
      rw [hother x hx]
      omega
    · obtain rfl := List.mem_singleton.mp hx
      rw [hold]
      omega
  · rw [inserted_orders, inserted_payments, inserted_refunds]
    intro x hx
    rw [capturedOf_append]
    rcases List.mem_append.mp hx with hx | hx
    · have := hs.refunded x hx
      rw [hother x hx]
      omega
    · obtain rfl := List.mem_singleton.mp hx
      have := capturedOf_nonneg paid x.id
      rw [hold, hrefunds]
      omega

/-- **A payment stays within what is owed.** -/
theorem MoneyInv.paid {db : Db} (hs : MoneyInv db) {o : Order} {p : Payment}
    (events : List OrderEvent) (ho : o ∈ db.orders) (hid : p.orderId = o.id)
    (hcaptured : p.status = .captured)
    (hle : p.amountMinor ≤ o.totalMinor - capturedOf db.payments o.id) :
    MoneyInv ((db.withPayments (db.payments ++ [p])).withOrderEvents events) := by
  have hpos := p.amount_pos
  refine ⟨hs.ids, ?_, hs.refundKnown, ?_, ?_⟩
  · intro q hq
    rcases List.mem_append.mp hq with hq | hq
    · exact hs.paymentKnown q hq
    · rw [List.mem_singleton.mp hq]
      exact ⟨o, ho, hid.symm⟩
  · intro x hx
    show capturedOf (db.payments ++ [p]) x.id ≤ x.totalMinor
    rw [capturedOf_append, capturedOf_single hcaptured]
    have := hs.captured x hx
    split
    next heq =>
      -- ids are unique, so the order that is paid is the one the check was about
      have hxo : x = o := hs.ids.eq hx ho (heq.symm.trans hid)
      subst hxo
      omega
    next => omega
  · intro x hx
    show refundedOf db.refunds x.id ≤ capturedOf (db.payments ++ [p]) x.id
    rw [capturedOf_append, capturedOf_single hcaptured]
    have := hs.refunded x hx
    split
    · omega
    · omega

/-- **A refund stays within what was captured.** -/
theorem MoneyInv.refund {db : Db} (hs : MoneyInv db) {o : Order} {r : Refund}
    (events : List OrderEvent) (logs : List AuditLog) (ho : o ∈ db.orders)
    (hid : r.orderId = o.id)
    (hle : r.amountMinor ≤ capturedOf db.payments o.id - refundedOf db.refunds o.id) :
    MoneyInv (((db.withRefunds (db.refunds ++ [r])).withOrderEvents events).withAuditLogs logs) := by
  refine ⟨hs.ids, hs.paymentKnown, ?_, hs.captured, ?_⟩
  · intro q hq
    rcases List.mem_append.mp hq with hq | hq
    · exact hs.refundKnown q hq
    · rw [List.mem_singleton.mp hq]
      exact ⟨o, ho, hid.symm⟩
  · intro x hx
    show refundedOf (db.refunds ++ [r]) x.id ≤ capturedOf db.payments x.id
    rw [refundedOf_append, refundedOf_single]
    have := hs.refunded x hx
    split
    next heq =>
      have hxo : x.id = o.id := heq.symm.trans hid
      rw [hxo] at this ⊢
      omega
    next => omega

/-! ## §4. Every request, every run. -/

/-- **The step lemma.** -/
theorem Effect.moneyInv {s s' : Server} (h : Effect s s') (hs : MoneyInv s.db) :
    MoneyInv s'.db := by
  have hids := h.uniqueIds hs.ids
  cases h with
  | idle => exact hs
  | created redemptions logs hooks hcheck hins hhooks =>
      exact hs.created redemptions _ hins hids
  -- a status is no amount
  | moved reason logs ho hcan hmoved =>
      refine hs.keep hids ?_ ?_ rfl rfl
      · intro x hx
        obtain ⟨x', hx', hsame⟩ := setStatus_keeps hs.ids _ ho hcan hx
        exact ⟨x', hx', hsame.id⟩
      · rw [statusChanged_orders]
        intro x hx
        rcases mem_setStatus hx with ⟨hx, -⟩ | ⟨y, hy, hyid, hid, -, -, -, -, -, -, htotal⟩
        · exact ⟨x, hx, rfl, rfl⟩
        · exact ⟨y, hy, hid.trans hyid.symm, htotal⟩
  | paid events hooks ho hlive hid hcaptured hle hhooks hevents =>
      exact hs.paid _ (Db.mem_of_findOrder ho).1 hid hcaptured hle
  | refunded events logs ho hstatus hid hle hevents =>
      exact hs.refund _ _ (Db.mem_of_findOrder ho).1 hid hle
  | hooked hmem =>
      exact hs.congr (runHook_orders ..) (runHook_payments ..) (runHook_refunds ..)
  | stocked hframe => exact hs.congr hframe.orders hframe.payments hframe.refunds

/-- **It holds in every state the API can reach.** -/
theorem serial_moneyInv {s : Server} (h : serial.Reachable s) : MoneyInv s.db := by
  refine h.invariant (fun s => MoneyInv s.db) (fun s => MoneyInv.opening) ?_
  intro s r s' hs hstep
  exact (perform_effect hstep).moneyInv hs

/-- No request adds a payment to a called-off sale. -/
theorem Effect.paymentsOf_reversed {s s' : Server} (h : Effect s s') (hids : UniqueIds s.db)
    {o : Order} (ho : o ∈ s.db.orders) (hrev : isReversed o.status = true) :
    paymentsOf s'.db o.id = paymentsOf s.db o.id := by
  unfold paymentsOf
  cases h with
  | idle => rfl
  | @created ctx env dto x paid moved spent redemptions logs hooks hcheck hins hhooks =>
      rw [inserted_payments]
      refine filter_append_other ?_
      intro p hp
      have hid : p.orderId = x.id := by
        rcases hins.paid with ⟨rfl, -⟩ | ⟨q, rfl, hid, -⟩
        · cases hp
        · rw [List.mem_singleton.mp hp]
          exact hid
      have hne : x.id ≠ o.id := by
        rw [hins.id]
        exact (hins.fresh o ho).symm
      simpa [hid] using hne
  | moved reason logs hfind hcan hmoved => rfl
  | @paid x p events hooks hfind hlive hid hcaptured hle hhooks hevents =>
      refine filter_append_other ?_
      intro q hq
      rw [List.mem_singleton.mp hq, hid]
      -- the payment's order is not reversed, so it is another one
      have hne : x.id ≠ o.id := by
        intro heq
        have hxo := hids.eq (Db.mem_of_findOrder hfind).1 ho heq
        rw [hxo, hrev] at hlive
        cases hlive
      simpa using hne
  | refunded events logs hfind hstatus hid hle hevents => rfl
  | hooked hmem => rw [runHook_payments]
  | stocked hframe => rw [hframe.payments]

/-- A request that changes the refunds of an order finds it finished or reversed. -/
theorem Effect.refundsOf_status {s s' : Server} (h : Effect s s') (hids : UniqueIds s.db)
    {o : Order} (ho : o ∈ s.db.orders) (hne : refundsOf s'.db o.id ≠ refundsOf s.db o.id) :
    o.status ∈ refundStatuses := by
  unfold refundsOf at hne
  cases h with
  | idle => exact absurd rfl hne
  | created redemptions logs hooks hcheck hins hhooks => exact absurd rfl hne
  | moved reason logs hfind hcan hmoved => exact absurd rfl hne
  | paid events hooks hfind hlive hid hcaptured hle hhooks hevents => exact absurd rfl hne
  | @refunded x r events logs hfind hstatus hid hle hevents =>
      -- the refund is of this order, or of another one
      by_cases heq : x.id = o.id
      · have hxo := hids.eq (Db.mem_of_findOrder hfind).1 ho heq
        rw [← hxo]
        exact hstatus
      · refine absurd ?_ hne
        refine filter_append_other ?_
        intro q hq
        rw [List.mem_singleton.mp hq, hid]
        simpa using heq
  | hooked hmem =>
      rw [runHook_refunds] at hne
      exact absurd rfl hne
  | stocked hframe =>
      rw [hframe.refunds] at hne
      exact absurd rfl hne

/-- The payments of a called-off sale stay as they are along a run. -/
theorem paymentsOf_run {s s' : Server} {rs : List Request} (h : serial.Reachable s)
    (hrun : serial.Run s rs s') {o : Order} (ho : o ∈ s.db.orders)
    (hrev : isReversed o.status = true) : paymentsOf s'.db o.id = paymentsOf s.db o.id := by
  refine (hrun.preserves (fun t => UniqueIds t.db
    ∧ (∃ o' ∈ t.db.orders, o'.id = o.id ∧ isReversed o'.status = true)
    ∧ paymentsOf t.db o.id = paymentsOf s.db o.id) ?_
    ⟨serial_uniqueIds h, ⟨o, ho, rfl, hrev⟩, rfl⟩).2.2
  rintro t r t' ⟨hids, ⟨o', ho', hid, hrev'⟩, hpayments⟩ hstep
  have heffect := perform_effect hstep
  obtain ⟨o'', ho'', hsame⟩ := heffect.keeps hids ho'
  refine ⟨heffect.uniqueIds hids, ⟨o'', ho'', hsame.id.trans hid, ?_⟩, ?_⟩
  · rw [hsame.reversed hrev']
    exact hrev'
  · rw [← hpayments, ← hid]
    exact heffect.paymentsOf_reversed hids ho' hrev'

/-- **The payment ledger.**  In every reachable state, for every order: what was
refunded is at most what was captured, which is at most the total; the total adds
up and its columns are the same in every later state; a called-off sale never
gains a payment; and a refund is added only to an order that is finished or called
off. -/
theorem money_ledger {s : Server} (h : serial.Reachable s) {o : Order} (ho : o ∈ s.db.orders) :
    (0 ≤ refundedOf s.db.refunds o.id
      ∧ refundedOf s.db.refunds o.id ≤ capturedOf s.db.payments o.id
      ∧ capturedOf s.db.payments o.id ≤ o.totalMinor)
    ∧ o.totalMinor = o.subtotalMinor - o.discountMinor + o.taxMinor
    ∧ (∀ rs s', serial.Run s rs s' → (∃ o' ∈ s'.db.orders, o'.id = o.id)
        ∧ ∀ o' ∈ s'.db.orders, o'.id = o.id → o'.subtotalMinor = o.subtotalMinor
          ∧ o'.discountMinor = o.discountMinor ∧ o'.taxMinor = o.taxMinor
          ∧ o'.totalMinor = o.totalMinor)
    ∧ (o.status = .voided ∨ o.status = .cancelled →
        ∀ rs s', serial.Run s rs s' → paymentsOf s'.db o.id = paymentsOf s.db o.id)
    ∧ (∀ r s', serial.step s r s' → refundsOf s'.db o.id ≠ refundsOf s.db o.id →
        o.status = .completed ∨ o.status = .voided ∨ o.status = .cancelled) := by
  have hinv := serial_moneyInv h
  refine ⟨⟨refundedOf_nonneg _ _, hinv.refunded o ho, hinv.captured o ho⟩, o.total_adds_up,
    ?_, ?_, ?_⟩
  -- the columns after a run are those of the order before it
  · intro rs s' hrun
    obtain ⟨x, hx, hsame⟩ := serial_keeps h hrun ho
    refine ⟨⟨x, hx, hsame.id⟩, ?_⟩
    intro o' ho' hid
    have hxo : o' = x := (serial_uniqueIds (h.run hrun)).eq ho' hx (hid.trans hsame.id.symm)
    rw [hxo]
    exact ⟨hsame.subtotal, hsame.discount, hsame.tax, hsame.total⟩
  · intro hrev rs s' hrun
    exact paymentsOf_run h hrun ho (isReversed_iff.mpr hrev)
  · intro r s' hstep hne
    have hstatus := (perform_effect hstep).refundsOf_status hinv.ids ho hne
    simpa [refundStatuses] using hstatus

/-- A lassi sold for cash, voided, and refunded in part. -/
def refundedLassi : List Request :=
  [.create cashier ⟨20, 0⟩ (lassiOrder none (some .cash) none),
    .updateStatus cashier 1 20 .voided none,
    .recordRefund cashier ⟨21, 2⟩ 20 partRefund]

/-- Paid, finished and half refunded. -/
theorem money_ledger_lassi :
    ∃ o ∈ (after refundedLassi openBar).db.orders,
      refundedOf (after refundedLassi openBar).db.refunds o.id
        ≤ capturedOf (after refundedLassi openBar).db.payments o.id :=
  ⟨_, List.mem_singleton_self _, (money_ledger (after_reachable openBar_opening rfl)
    (List.mem_singleton_self _)).1.2.1⟩

end OraOS.Orders
