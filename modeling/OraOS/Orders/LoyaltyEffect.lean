/-
  OraOS.Orders.LoyaltyEffect — what a called-off sale leaves in the loyalty ledger.

  Points are earned after a payment and spent at creation; both are undone by the
  hook of a refund, and by nothing else.  `LoyaltyInv` follows the refund to its
  hook and the hook to its entries:

    * `serial_loyaltyInv` — the invariant over every run;
    * `reversed_loyalty`  — a called-off sale with a refund, its hooks run, leaves no
                            points; without a refund nothing is undone.
-/
import OraOS.Orders.MoneyLedger
import OraOS.Loyalty.OrderEntries

namespace OraOS.Orders

open OraOS.Api
open OraOS.Lib
open OraOS.Loyalty

/-! ## §1. What the hooks write. -/

/-- `creditLoyalty` adds at most an EARN, and none to a called-off sale. -/
theorem creditLoyalty_spec (db : Db) (ctx : TenantContext) (orderId : Uuid) :
    (creditLoyalty db ctx orderId).loyaltyLedger = db.loyaltyLedger
      ∨ ∃ o r, db.findOrder orderId = some o ∧ isReversed o.status = false ∧ r.type = .earn
        ∧ Fresh db.loyaltyLedger orderId r
        ∧ (creditLoyalty db ctx orderId).loyaltyLedger = db.loyaltyLedger ++ [r] := by
  unfold creditLoyalty
  split
  next db' hok =>
    rcases earnForOrder_ok hok with rfl | ⟨o, r, ho, hvoided, hcancelled, htype, hfresh, logs, rfl⟩
    · exact .inl rfl
    · refine .inr ⟨o, r, ho, ?_, htype, hfresh, rfl⟩
      by_contra hrev
      rcases isReversed_iff.mp (by simpa using hrev) with hv | hc
      · exact hvoided hv
      · exact hcancelled hc
  next => exact .inl rfl

/-- `reverseLoyalty` is two undo steps, and neither fails. -/
theorem reverseLoyalty_spec {db : Db} (hl : LedgerInv db.loyaltyLedger) (ctx : TenantContext)
    (orderId : Uuid) :
    ∃ db₁, Undone db orderId .earn .refundReversal db₁
      ∧ Undone db₁ orderId .redeem .redeemReversal (reverseLoyalty db ctx orderId) := by
  -- the first half fails where nothing was earned, and the second runs all the same
  obtain ⟨db₁, hfirst, hundone⟩ : ∃ db₁,
      ((∃ e, reverseForOrder db ctx orderId = .error e) ∧ db₁ = db
        ∨ reverseForOrder db ctx orderId = .ok db₁)
      ∧ Undone db orderId .earn .refundReversal db₁ := by
    cases he : entryOf db.loyaltyLedger orderId .earn with
    | none => exact ⟨db, .inl ⟨⟨_, reverseForOrder_nothing he⟩, rfl⟩, .nothing he rfl⟩
    | some e =>
        obtain ⟨db', hok, hundone⟩ := reverseForOrder_earned ctx he
        exact ⟨db', .inr hok, hundone⟩
  have hl₁ := (hl.undone (.inl ⟨rfl, rfl⟩) hundone).1
  obtain ⟨db₂, hok, hundone'⟩ := restoreRedeemedForOrder_spec db₁ ctx orderId (hl₁.fits orderId)
  refine ⟨db₁, hundone, ?_⟩
  have hreverse : reverseLoyalty db ctx orderId = db₂ := by
    rcases hfirst with ⟨⟨e, herr⟩, rfl⟩ | hfirst
    · simp only [reverseLoyalty, herr, hok]
    · simp only [reverseLoyalty, hfirst, hok]
  rw [hreverse]
  exact hundone'

/-! ## §2. The invariant. -/

/-- The order a hook is about. -/
def Hook.orderId : Hook → Uuid
  | .credit orderId => orderId
  | .reverse orderId => orderId

/-- A refund was recorded on the order. -/
def Refunded (db : Db) (orderId : Uuid) : Prop := ∃ r ∈ db.refunds, r.orderId = orderId

/-- Both undo steps of the order are done, as far as there was anything to undo. -/
def Settled (l : List LoyaltyEntry) (orderId : Uuid) : Prop :=
  IsUndone l orderId .earn .refundReversal ∧ IsUndone l orderId .redeem .redeemReversal

/-- What holds of the ledger in every state of the API. -/
structure LoyaltyInv (s : Server) : Prop where
  ids : UniqueIds s.db
  ledger : LedgerInv s.db.loyaltyLedger
  /-- refunds are on finished or called-off orders -/
  refundable : ∀ r ∈ s.db.refunds, ∃ o ∈ s.db.orders, o.id = r.orderId ∧ o.status ∈ refundStatuses
  settled : ∀ o ∈ s.db.orders, isReversed o.status = true → Refunded s.db o.id →
    .reverse o.id ∈ s.pending ∨ Settled s.db.loyaltyLedger o.id
  undoRefunded : ∀ id, (entryOf s.db.loyaltyLedger id .refundReversal).isSome = true
    ∨ (entryOf s.db.loyaltyLedger id .redeemReversal).isSome = true → Refunded s.db id
  pendingRefunded : ∀ id, .reverse id ∈ s.pending → Refunded s.db id

theorem LoyaltyInv.opening {s : Server} (h : Opening s) : LoyaltyInv s := by
  have hno : ∀ o, o ∉ s.db.orders := by
    rw [h.orders]
    exact fun _ => List.not_mem_nil
  have hnone : ∀ id type, entryOf s.db.loyaltyLedger id type = none := by
    intro id type
    refine List.find?_eq_none.mpr ?_
    intro e he
    simp [h.loyaltyLedger e he]
  refine ⟨?_, .untied h.loyaltyLedger, ?_, fun o ho => absurd ho (hno o), ?_, ?_⟩
  · unfold UniqueIds
    rw [h.orders]
    exact List.nodup_nil
  · rw [h.refunds]
    exact List.forall_mem_nil _
  · intro id hsome
    simp [hnone] at hsome
  · rw [h.pending]
    intro id hmem
    cases hmem

/-- The hooks of the order are where they were, and so are its entries. -/
theorem Settled.congr {l l' : List LoyaltyEntry} {orderId : Uuid}
    (h : ∀ type, entryOf l' orderId type = entryOf l orderId type) :
    Settled l' orderId ↔ Settled l orderId := by
  unfold Settled IsUndone
  simp only [h]

/-! ## §3. Requests. -/

/-- The orders, the refunds and the undo entries a request leaves as they were; the
ledger may gain entries of sales that are not called off. -/
structure Bystander (s s' : Server) : Prop where
  ids : UniqueIds s'.db
  refunds : s'.db.refunds = s.db.refunds
  ledger : LedgerInv s'.db.loyaltyLedger
  finished : ∀ o ∈ s.db.orders, o.status ∈ refundStatuses →
    ∃ o' ∈ s'.db.orders, o'.id = o.id ∧ o'.status ∈ refundStatuses
  reversed : ∀ o' ∈ s'.db.orders, isReversed o'.status = true → Refunded s.db o'.id →
    ∃ o ∈ s.db.orders, o.id = o'.id ∧ isReversed o.status = true
  entries : ∀ o' ∈ s'.db.orders, isReversed o'.status = true → Refunded s.db o'.id →
    ∀ type, entryOf s'.db.loyaltyLedger o'.id type = entryOf s.db.loyaltyLedger o'.id type
  undos : ∀ id, entryOf s'.db.loyaltyLedger id .refundReversal
      = entryOf s.db.loyaltyLedger id .refundReversal
    ∧ entryOf s'.db.loyaltyLedger id .redeemReversal
      = entryOf s.db.loyaltyLedger id .redeemReversal
  pending : ∀ id, .reverse id ∈ s'.pending ↔ .reverse id ∈ s.pending

/-- What stands by keeps it. -/
theorem LoyaltyInv.keep {s s' : Server} (hs : LoyaltyInv s) (h : Bystander s s') :
    LoyaltyInv s' := by
  have hrefunded : ∀ id, Refunded s'.db id ↔ Refunded s.db id := by
    intro id
    unfold Refunded
    rw [h.refunds]
  refine ⟨h.ids, h.ledger, ?_, ?_, ?_, ?_⟩
  · rw [h.refunds]
    intro r hr
    obtain ⟨o, ho, hid, hstatus⟩ := hs.refundable r hr
    obtain ⟨o', ho', hid', hstatus'⟩ := h.finished o ho hstatus
    exact ⟨o', ho', hid'.trans hid, hstatus'⟩
  · intro o' ho' hrev href
    rw [hrefunded] at href
    -- a reversed and refunded order was one before
    obtain ⟨o, ho, hid, hrev'⟩ := h.reversed o' ho' hrev href
    rw [h.pending, Settled.congr (h.entries o' ho' hrev href), ← hid]
    exact hs.settled o ho hrev' (hid ▸ href)
  · intro id hsome
    rw [(h.undos id).1, (h.undos id).2] at hsome
    exact (hrefunded id).mpr (hs.undoRefunded id hsome)
  · intro id hmem
    exact (hrefunded id).mpr (hs.pendingRefunded id ((h.pending id).mp hmem))

/-- A request that leaves orders, refunds and ledger alone. -/
theorem Bystander.of_eq {s s' : Server} (hs : LoyaltyInv s) (horders : s'.db.orders = s.db.orders)
    (hrefunds : s'.db.refunds = s.db.refunds) (hledger : s'.db.loyaltyLedger = s.db.loyaltyLedger)
    (hpending : ∀ id, .reverse id ∈ s'.pending ↔ .reverse id ∈ s.pending) : Bystander s s' := by
  refine ⟨?_, hrefunds, ?_, ?_, ?_, ?_, ?_, hpending⟩
  · unfold UniqueIds
    rw [horders]
    exact hs.ids
  · rw [hledger]
    exact hs.ledger
  · rw [horders]
    exact fun o ho hstatus => ⟨o, ho, rfl, hstatus⟩
  · rw [horders]
    exact fun o ho hrev _ => ⟨o, ho, rfl, hrev⟩
  · rw [hledger]
    exact fun _ _ _ _ _ => rfl
  · rw [hledger]
    exact fun _ => ⟨rfl, rfl⟩

/-- Hooks that credit are no hooks that reverse. -/
theorem reverse_mem_append {pending hooks : List Hook} {orderId : Uuid}
    (h : ∀ k ∈ hooks, k = .credit orderId) (id : Uuid) :
    .reverse id ∈ pending ++ hooks ↔ .reverse id ∈ pending := by
  rw [List.mem_append]
  refine or_iff_left ?_
  intro hmem
  cases h _ hmem

/-- The entry of a redemption keeps the ledger's invariant. -/
theorem ledgerInv_spent {l spent : List LoyaltyEntry} {orderId : Uuid} (hl : LedgerInv l)
    (h : SpentPoints l orderId maxRedeemPoints spent) : LedgerInv (l ++ spent)
      ∧ ∀ id type, id ≠ orderId ∨ type ≠ .redeem → entryOf (l ++ spent) id type = entryOf l id type := by
  rcases h with rfl | ⟨r, rfl, htype, hpoints, hfresh⟩
  · rw [List.append_nil]
    exact ⟨hl, fun _ _ _ => rfl⟩
  -- the sign check of the column
  · have hneg : r.points < 0 := by
      have := r.sign_ok
      rw [htype] at this
      simpa [LoyaltyEntryType.signOk] using this
    constructor
    · refine hl.append hfresh (by rw [htype]; rfl) ?_ ?_ ?_
      · rw [htype]
        intro h
        cases h
      · rw [htype]
        intro h
        cases h
      · intro _
        unfold maxRedeemPoints at hpoints
        simp only [fitsInt4, decide_eq_true_eq]
        omega
    · intro id type hne
      rw [entryOf_append hfresh, if_neg]
      rintro ⟨rfl, rfl⟩
      rcases hne with hne | hne
      · exact hne rfl
      · exact hne htype

/-- Creating an order stands by, but for the points it redeems. -/
theorem Bystander.created {s : Server} (hs : LoyaltyInv s) {ctx : TenantContext} {env : Env}
    {dto : CreateOrderDto} {o : Order} {paid : List Payment}
    {moved : List StockMovement} {spent : List LoyaltyEntry}
    (redemptions : List CouponRedemption) (logs : List AuditLog) (hooks : List Hook)
    (h : Inserted s.db ctx env dto o paid moved spent) (hhooks : ∀ k ∈ hooks, k = .credit o.id)
    (hids : UniqueIds (inserted s.db ctx o paid moved spent redemptions logs)) :
    Bystander s ⟨inserted s.db ctx o paid moved spent redemptions logs, s.pending ++ hooks⟩ := by
  obtain ⟨hl, hentries⟩ := ledgerInv_spent hs.ledger h.spent
  -- the new order is not a reversed one
  have hold : ∀ x ∈ s.db.orders ++ [o], isReversed x.status = true → x ∈ s.db.orders := by
    intro x hx hrev
    rcases List.mem_append.mp hx with hx | hx
    · exact hx
    · rw [List.mem_singleton.mp hx, h.not_reversed] at hrev
      cases hrev
  refine ⟨hids, rfl, hl, ?_, ?_, ?_, ?_, reverse_mem_append hhooks⟩
  · intro x hx hstatus
    exact ⟨x, List.mem_append_left _ hx, rfl, hstatus⟩
  · intro x hx hrev _
    exact ⟨x, hold x hx hrev, rfl, hrev⟩
  · intro x hx hrev _ type
    refine hentries x.id type (.inl ?_)
    rw [h.id]
    exact h.fresh x (hold x hx hrev)
  · intro id
    exact ⟨hentries id _ (.inr (by decide)), hentries id _ (.inr (by decide))⟩

theorem Bystander.moved {s : Server} (hs : LoyaltyInv s) {ctx : TenantContext} {now : Instant}
    {o : Order} {toStatus : OrderStatus} (reason : Option String) {moved : List StockMovement}
    (logs : List AuditLog) (ho : s.db.findOrder o.id = some o)
    (hcan : canTransition o.status toStatus = true)
    (hids : UniqueIds (statusChanged s.db ctx now o toStatus reason moved logs)) :
    Bystander s ⟨statusChanged s.db ctx now o toStatus reason moved logs, s.pending⟩ := by
  have hmem := (Db.mem_of_findOrder ho).1
  -- an order that still moves has no refund
  have hopen : o.status ∉ refundStatuses := by
    intro hstatus
    have hterminal : isTerminal o.status = true := by
      rw [isTerminal_iff]
      simp [refundStatuses] at hstatus
      tauto
    rw [canTransition_of_terminal hterminal] at hcan
    cases hcan
  have hunrefunded : ¬ Refunded s.db o.id := by
    rintro ⟨r, hr, hid⟩
    obtain ⟨x, hx, hxid, hstatus⟩ := hs.refundable r hr
    rw [hs.ids.eq hx hmem (hxid.trans hid)] at hstatus
    exact hopen hstatus
  refine ⟨hids, rfl, hs.ledger, ?_, ?_, fun _ _ _ _ _ => rfl, fun _ => ⟨rfl, rfl⟩,
    fun _ => Iff.rfl⟩
  · intro x hx hstatus
    obtain ⟨x', hx', hsame⟩ := setStatus_keeps hs.ids _ ho hcan hx
    rcases mem_setStatus hx' with ⟨hold, hne⟩ | ⟨y, hy, hyid, hid, -⟩
    · have hxx : x' = x := hs.ids.eq hold hx hsame.id
      exact ⟨x', hx', hsame.id, hxx ▸ hstatus⟩
    · have hxo : x = o := hs.ids.eq hx hmem (hsame.id.symm.trans hid)
      exact absurd (hxo ▸ hstatus) hopen
  · intro x hx hrev href
    rcases mem_setStatus hx with ⟨hold, hne⟩ | ⟨y, hy, hyid, hid, -⟩
    · exact ⟨x, hold, rfl, hrev⟩
    · exact absurd (hid ▸ href) hunrefunded

/-- Running a credit hook takes no reversal off the list. -/
theorem reverse_mem_erase_credit {pending : List Hook} {orderId : Uuid} (id : Uuid) :
    .reverse id ∈ pending.erase (.credit orderId) ↔ .reverse id ∈ pending :=
  List.mem_erase_of_ne (by exact nofun)

/-- A credit writes the entry of its own order. -/
theorem Bystander.credited {s : Server} (hs : LoyaltyInv s) (ctx : TenantContext) (orderId : Uuid) :
    Bystander s ⟨runHook s.db ctx (.credit orderId), s.pending.erase (.credit orderId)⟩ := by
  have horders := runHook_orders s.db ctx (.credit orderId)
  have hrefunds := runHook_refunds s.db ctx (.credit orderId)
  rcases creditLoyalty_spec s.db ctx orderId with hledger |
    ⟨o, r, ho, hlive, htype, hfresh, hledger⟩
  · exact .of_eq hs horders hrefunds hledger reverse_mem_erase_credit
  · have hmem := Db.mem_of_findOrder ho
    have hledger' : (runHook s.db ctx (.credit orderId)).loyaltyLedger
        = s.db.loyaltyLedger ++ [r] := hledger
    refine ⟨?_, hrefunds, ?_, ?_, ?_, ?_, ?_, reverse_mem_erase_credit⟩
    · unfold UniqueIds
      rw [horders]
      exact hs.ids
    · rw [hledger']
      refine hs.ledger.append hfresh (by rw [htype]; rfl) ?_ ?_ ?_
      · rw [htype]
        exact nofun
      · rw [htype]
        exact nofun
      · rw [htype]
        exact nofun
    · rw [horders]
      exact fun x hx hstatus => ⟨x, hx, rfl, hstatus⟩
    · rw [horders]
      exact fun x hx hrev _ => ⟨x, hx, rfl, hrev⟩
    · rw [horders, hledger']
      intro x hx hrev _ type
      refine entryOf_append_other hfresh ?_ type
      -- the entry is of a live order, so of no reversed one
      intro heq
      rw [hs.ids.eq hx hmem.1 (heq.symm.trans hmem.2.symm), hlive] at hrev
      cases hrev
    · rw [hledger']
      intro id
      exact ⟨entryOf_append_type hfresh (by rw [htype]; decide) id,
        entryOf_append_type hfresh (by rw [htype]; decide) id⟩

/-- Recording a refund leaves its reversal to be run. -/
theorem LoyaltyInv.refund {s : Server} (hs : LoyaltyInv s) {o : Order} {r : Refund} {db' : Db}
    (horders : db'.orders = s.db.orders) (hledger : db'.loyaltyLedger = s.db.loyaltyLedger)
    (hrefunds : db'.refunds = s.db.refunds ++ [r]) (ho : s.db.findOrder o.id = some o)
    (hstatus : o.status ∈ refundStatuses) (hid : r.orderId = o.id) :
    LoyaltyInv ⟨db', s.pending ++ [.reverse o.id]⟩ := by
  have hmono : ∀ id, Refunded s.db id → Refunded db' id := by
    rintro id ⟨r', hr', hid'⟩
    refine ⟨r', ?_, hid'⟩
    rw [hrefunds]
    exact List.mem_append_left _ hr'
  have hself : Refunded db' o.id := by
    refine ⟨r, ?_, hid⟩
    rw [hrefunds]
    exact List.mem_append_right _ (List.mem_singleton_self r)
  constructor
  · unfold UniqueIds
    rw [horders]
    exact hs.ids
  · rw [hledger]
    exact hs.ledger
  · rw [hrefunds, horders]
    intro r' hr'
    rcases List.mem_append.mp hr' with hr' | hr'
    · exact hs.refundable r' hr'
    · rw [List.mem_singleton.mp hr']
      exact ⟨o, (Db.mem_of_findOrder ho).1, hid.symm, hstatus⟩
  · rw [horders, hledger]
    rintro x hx hrev ⟨r', hr', hid'⟩
    rw [hrefunds] at hr'
    -- the refunded order has its reversal pending; of any other nothing changed
    by_cases hxo : x.id = o.id
    · refine .inl (List.mem_append_right _ ?_)
      rw [hxo]
      exact List.mem_singleton_self _
    · rcases List.mem_append.mp hr' with hr' | hr'
      · rcases hs.settled x hx hrev ⟨r', hr', hid'⟩ with hpending | hsettled
        · exact .inl (List.mem_append_left _ hpending)
        · exact .inr hsettled
      · rw [List.mem_singleton.mp hr'] at hid'
        exact absurd (hid'.symm.trans hid) hxo
  · rw [hledger]
    intro id hsome
    exact hmono id (hs.undoRefunded id hsome)
  · intro id hmem
    rcases List.mem_append.mp hmem with hmem | hmem
    · exact hmono id (hs.pendingRefunded id hmem)
    · cases List.mem_singleton.mp hmem
      exact hself

/-- **A reversal hook settles its order** and leaves the entries of every other. -/
theorem reverseHook_settles {db : Db} (hl : LedgerInv db.loyaltyLedger) (ctx : TenantContext)
    (orderId : Uuid) :
    LedgerInv (runHook db ctx (.reverse orderId)).loyaltyLedger
      ∧ Settled (runHook db ctx (.reverse orderId)).loyaltyLedger orderId
      ∧ ∀ id, id ≠ orderId → ∀ type,
          entryOf (runHook db ctx (.reverse orderId)).loyaltyLedger id type
            = entryOf db.loyaltyLedger id type := by
  obtain ⟨db₁, hfirst, hsecond⟩ := reverseLoyalty_spec hl ctx orderId
  obtain ⟨hl₁, hearn, hother₁⟩ := hl.undone (.inl ⟨rfl, rfl⟩) hfirst
  obtain ⟨hl₂, hredeem, hother₂⟩ := hl₁.undone (.inr ⟨rfl, rfl⟩) hsecond
  refine ⟨hl₂, ⟨?_, hredeem⟩, ?_⟩
  · -- the second step leaves the first pair alone
    unfold IsUndone
    show (entryOf (reverseLoyalty db ctx orderId).loyaltyLedger orderId .earn).isSome = true →
      (entryOf (reverseLoyalty db ctx orderId).loyaltyLedger orderId .refundReversal).isSome = true
    rw [hother₂ orderId _ (.inr (by decide)), hother₂ orderId _ (.inr (by decide))]
    exact hearn
  · intro id hne type
    exact (hother₂ id type (.inl hne)).trans (hother₁ id type (.inl hne))

/-- Running a reversal settles its order. -/
theorem LoyaltyInv.reversed {s : Server} (hs : LoyaltyInv s) (ctx : TenantContext) {orderId : Uuid}
    (hmem : .reverse orderId ∈ s.pending) :
    LoyaltyInv ⟨runHook s.db ctx (.reverse orderId), s.pending.erase (.reverse orderId)⟩ := by
  obtain ⟨hl₂, hsettled, hothers⟩ := reverseHook_settles hs.ledger ctx orderId
  set db₂ := runHook s.db ctx (.reverse orderId) with hdb₂
  have horders : db₂.orders = s.db.orders := runHook_orders ..
  have hrefunds : db₂.refunds = s.db.refunds := runHook_refunds ..
  have hrefunded : ∀ id, Refunded db₂ id ↔ Refunded s.db id := by
    intro id
    unfold Refunded
    rw [hrefunds]
  refine ⟨?_, hl₂, ?_, ?_, ?_, ?_⟩
  · unfold UniqueIds
    rw [horders]
    exact hs.ids
  · rw [hrefunds, horders]
    exact hs.refundable
  · rw [horders]
    intro o ho hrev href
    rw [hrefunded] at href
    -- the order of the hook is settled now; the others wait for their own
    by_cases hid : o.id = orderId
    · rw [hid]
      exact .inr hsettled
    · rw [Settled.congr (hothers o.id hid)]
      rcases hs.settled o ho hrev href with hpending | hsettled'
      · refine .inl ((List.mem_erase_of_ne ?_).mpr hpending)
        intro heq
        injection heq with heq
        exact hid heq
      · exact .inr hsettled'
  · intro id hsome
    rw [hrefunded]
    by_cases hid : id = orderId
    · rw [hid]
      exact hs.pendingRefunded orderId hmem
    · rw [hothers id hid, hothers id hid] at hsome
      exact hs.undoRefunded id hsome
  · intro id hpending
    rw [hrefunded]
    exact hs.pendingRefunded id (List.mem_of_mem_erase hpending)

/-- **The step lemma.** -/
theorem Effect.loyaltyInv {s s' : Server} (h : Effect s s') (hs : LoyaltyInv s) :
    LoyaltyInv s' := by
  have hids := h.uniqueIds hs.ids
  cases h with
  | idle => exact hs
  | created redemptions logs hooks hcheck hins hhooks =>
      exact hs.keep (.created hs redemptions _ hooks hins hhooks hids)
  | moved reason logs ho hcan hmoved => exact hs.keep (.moved hs reason _ ho hcan hids)
  | paid events hooks ho hlive hid hcaptured hle hhooks hevents =>
      exact hs.keep (.of_eq hs rfl rfl rfl (reverse_mem_append hhooks))
  | refunded events logs ho hstatus hid hle hevents => exact hs.refund rfl rfl rfl ho hstatus hid
  | @hooked ctx k hmem =>
      cases k with
      | credit orderId => exact hs.keep (.credited hs ctx orderId)
      | reverse orderId => exact hs.reversed ctx hmem
  | stocked hframe =>
      exact hs.keep (.of_eq hs hframe.orders hframe.refunds hframe.loyaltyLedger
        fun _ => Iff.rfl)

/-- **It holds in every state the API can reach.** -/
theorem serial_loyaltyInv {s : Server} (h : serial.Reachable s) : LoyaltyInv s := by
  refine h.invariant LoyaltyInv (fun s => LoyaltyInv.opening) ?_
  intro s r s' hs hstep
  exact (perform_effect hstep).loyaltyInv hs

/-! ## §4. Called-off sales. -/

/-- **A called-off sale and its points.**  Once its hooks have run: with a refund
recorded on it, its entries come to 0 for every customer; without one, what it
earned and what it spent stand as they were. -/
theorem reversed_loyalty {s : Server} (h : serial.Reachable s) {o : Order} (ho : o ∈ s.db.orders)
    (hrev : o.status = .voided ∨ o.status = .cancelled)
    (hrun : ∀ k ∈ s.pending, k.orderId ≠ o.id) (q : Uuid → Bool) :
    (Refunded s.db o.id → tiedPoints s.db.loyaltyLedger o.id q = 0)
      ∧ (¬ Refunded s.db o.id → tiedPoints s.db.loyaltyLedger o.id q
          = valueFor q (entryOf s.db.loyaltyLedger o.id .earn)
            + valueFor q (entryOf s.db.loyaltyLedger o.id .redeem)) := by
  have hinv := serial_loyaltyInv h
  constructor
  · intro href
    rcases hinv.settled o ho (isReversed_iff.mpr hrev) href with hpending | ⟨hearn, hredeem⟩
    · exact absurd rfl (hrun _ hpending)
    · exact hinv.ledger.tiedPoints_eq_zero hearn hredeem q
  · intro href
    -- without a refund no hook has undone anything
    have hnone : ∀ type, type = .refundReversal ∨ type = .redeemReversal →
        entryOf s.db.loyaltyLedger o.id type = none := by
      intro type htype
      by_contra hsome
      refine href (hinv.undoRefunded o.id ?_)
      rcases htype with rfl | rfl
      · exact .inl (Option.isSome_iff_ne_none.mpr hsome)
      · exact .inr (Option.isSome_iff_ne_none.mpr hsome)
    rw [hinv.ledger.sum, hnone _ (.inl rfl), hnone _ (.inr rfl)]
    show _ + 0 + _ + 0 = _
    omega

/-- A lassi sold to a customer for cash, its point credited, and voided. -/
def earnedThenVoided : List Request :=
  [.create cashier ⟨20, 0⟩ (lassiOrder none (some .cash) (some 5)),
    .hook cashier (.credit 20),
    .updateStatus cashier 1 20 .voided none]

/-- The point is still the customer's, and no hook is left to take it back. -/
theorem voided_sale_keeps_points :
    serial.Reachable (after earnedThenVoided openBar)
      ∧ (after earnedThenVoided openBar).pending = []
      ∧ (∃ o ∈ (after earnedThenVoided openBar).db.orders, o.id = 20 ∧ o.status = .voided)
      ∧ tiedPoints (after earnedThenVoided openBar).db.loyaltyLedger 20 (fun _ => true) = 1 :=
  ⟨after_reachable openBar_opening rfl, rfl, ⟨_, List.mem_singleton_self _, rfl, rfl⟩, rfl⟩

/-- The same sale, refunded as well. -/
def earnedThenRefunded : List Request :=
  earnedThenVoided ++
    [.recordRefund cashier ⟨21, 2⟩ 20 partRefund,
      .hook cashier (.reverse 20)]

/-- Earned, refunded, reversed: the order's points come to zero. -/
theorem reversed_loyalty_lassi :
    ∃ o ∈ (after earnedThenRefunded openBar).db.orders,
      tiedPoints (after earnedThenRefunded openBar).db.loyaltyLedger o.id (fun _ => true) = 0 :=
  ⟨_, List.mem_singleton_self _, (reversed_loyalty (after_reachable openBar_opening rfl)
    (List.mem_singleton_self _) (.inl rfl) (List.forall_mem_nil _) _).1
    ⟨_, List.mem_singleton_self _, rfl⟩⟩

end OraOS.Orders
