/-
  OraOS.Orders.RefundedPoints — does a refunded sale keep points it earned?

  The EARN is written by the hook of the leg that settles the order, the reversal
  by the hook of a refund, and a reversal that finds no EARN leaves nothing to be
  reversed later.  So the order of the two hooks matters:

    * `refunded_points_zero`  — as long as no credit comes after the reversal of
                                the order's refunds (`CreditInTime`), the EARN and
                                its reversal cancel in every run;
    * `late_credit_points`    — a credit that does come late leaves its points.
-/
import OraOS.Orders.LoyaltyEffect

namespace OraOS.Orders

open OraOS.Api
open OraOS.Lib
open OraOS.Inventory
open OraOS.Loyalty

/-! ## §1. The points of a sale, and when it is credited. -/

/-- What the EARN and REFUND_REVERSAL entries of an order come to. -/
def earnedPoints (l : List LoyaltyEntry) (orderId : Uuid) : ℤ :=
  sumWhere (fun e => decide (e.orderId = some orderId)
    && (decide (e.type = .earn) || decide (e.type = .refundReversal))) (·.points) l

/-- The points an order earned are its credit and its reversal. -/
theorem earnedPoints_eq (l : List LoyaltyEntry) (orderId : Uuid) :
    earnedPoints l orderId
      = typePoints l orderId .earn + typePoints l orderId .refundReversal := by
  unfold earnedPoints typePoints
  induction l with
  | nil => rfl
  | cons e l ih =>
      simp only [sumWhere_cons, ih]
      by_cases ho : e.orderId = some orderId
      · by_cases he : e.type = .earn
        · simp [ho, he]
          ring
        · simp [ho, he]
          ring
      · simp [ho]

/-- The credit hook would write the order's EARN: a customer's order that stands,
not credited yet, worth a point under the rules of the moment. -/
def Earns (db : Db) (orderId : Uuid) : Prop :=
  ∃ o, db.findOrder orderId = some o ∧ o.customerId.isSome = true ∧ isReversed o.status = false
    ∧ entryOf db.loyaltyLedger orderId .earn = none
    ∧ 0 < pointsForOrder o.subtotalMinor o.discountMinor (getConfig db)
    ∧ fitsInt4 (pointsForOrder o.subtotalMinor o.discountMinor (getConfig db)) = true

/-- No order is credited once the reversals of its refunds have run. -/
def CreditInTime (s : Server) (r : Request) : Prop :=
  ∀ ctx orderId, r = .hook ctx (.credit orderId) → Refunded s.db orderId →
    .reverse orderId ∉ s.pending → ¬ Earns s.db orderId

/-- Where the hook would write nothing it writes nothing. -/
theorem creditLoyalty_unearned {db : Db} (ctx : TenantContext) {orderId : Uuid}
    (h : ¬ Earns db orderId) : (creditLoyalty db ctx orderId).loyaltyLedger = db.loyaltyLedger := by
  unfold creditLoyalty
  split
  next db' hok =>
    simp only [earnForOrder, bind_ok, found_ok, require_ok] at hok
    obtain ⟨o, ho, customerId, hcustomer, -, hstatus, hok⟩ := hok
    split at hok
    next =>
      cases pure_ok.mp hok
      rfl
    next hgo =>
      rcases orSummary_ok hok with hok | rfl
      · -- an EARN was appended, so everything `Earns` asks for held
        simp only [not_or] at hgo
        obtain ⟨hnew, henabled, hpos⟩ := hgo
        obtain ⟨-, r, hr, -⟩ := append_ok hok
        have hfits := r.points_fits
        rw [hr] at hfits
        refine absurd ⟨o, ho, ?_, ?_, ?_, ?_, hfits⟩ h
        · rw [hcustomer]
          rfl
        · by_contra hrev
          rcases isReversed_iff.mp (by simpa using hrev) with hv | hc
          · exact hstatus.1 hv
          · exact hstatus.2 hc
        · exact Option.not_isSome_iff_eq_none.mp hnew
        · omega
      · rfl
  next => rfl

/-- Where it would write, it does. -/
theorem creditLoyalty_earns {db : Db} (ctx : TenantContext) {orderId : Uuid}
    (h : Earns db orderId) :
    ∃ r : LoyaltyEntry, r.type = .earn ∧ 0 < r.points ∧ Fresh db.loyaltyLedger orderId r
      ∧ (creditLoyalty db ctx orderId).loyaltyLedger = db.loyaltyLedger ++ [r] := by
  obtain ⟨o, ho, hcustomer, hlive, hnew, hpos, hfits⟩ := h
  obtain ⟨customerId, hcustomer⟩ := Option.isSome_iff_exists.mp hcustomer
  set points := pointsForOrder o.subtotalMinor o.discountMinor (getConfig db) with hpoints
  have hstatus : o.status ≠ .voided ∧ o.status ≠ .cancelled := by
    constructor
    · intro hv
      rw [isReversed_iff.mpr (.inl hv)] at hlive
      cases hlive
    · intro hc
      rw [isReversed_iff.mpr (.inr hc)] at hlive
      cases hlive
  have henabled : (getConfig db).isEnabled = true := by
    by_contra hoff
    unfold pointsForOrder at hpoints
    rw [if_neg hoff] at hpoints
    omega
  have hgo : ¬ ((entryOf db.loyaltyLedger orderId .earn).isSome = true
      ∨ (getConfig db).isEnabled = false ∨ points ≤ 0) := by
    rw [hnew, henabled]
    simp
    omega
  obtain ⟨db', hdb'⟩ := append_stored db ctx
    (orderEntry customerId .earn points orderId (some (earnSnapshot (getConfig db)))) hfits
    (decide_eq_true hpos)
    (by
      intro id hid
      cases hid
      exact hnew) rfl
  have hcredit : creditLoyalty db ctx orderId = db' := by
    unfold creditLoyalty earnForOrder
    simp only [ho, hcustomer, found, ok_bind, require_of _ hstatus, ← hpoints, if_neg hgo, hdb',
      orSummary]
  obtain ⟨-, r, hr, logs, rfl⟩ := append_ok hdb'
  have htype : r.type = .earn := by rw [hr]; rfl
  refine ⟨r, htype, ?_, ⟨by rw [hr]; rfl, ?_⟩, ?_⟩
  · rw [hr]
    exact hpos
  · rw [htype]
    exact hnew
  · rw [hcredit]
    rfl

/-! ## §2. One entry of each type, in every run. -/

/-- Points spent on a new order keep one entry of each kind. -/
theorem onePerType_spent {l spent : List LoyaltyEntry} {orderId : Uuid} {bound : ℤ}
    (hl : OnePerType l) (h : SpentPoints l orderId bound spent) : OnePerType (l ++ spent) := by
  rcases h with rfl | ⟨r, rfl, -, -, hfresh⟩
  · rw [List.append_nil]
    exact hl
  · exact hl.append hfresh

/-- Every request keeps one entry of each kind. -/
theorem Effect.onePerType {s s' : Server} (h : Effect s s') (hs : LoyaltyInv s)
    (hone : OnePerType s.db.loyaltyLedger) : OnePerType s'.db.loyaltyLedger := by
  cases h with
  | idle => exact hone
  | created redemptions logs hooks hcheck hins hhooks => exact onePerType_spent hone hins.spent
  | moved reason logs ho hcan hmoved => exact hone
  | paid events hooks ho hlive hid hcaptured hle hhooks hevents => exact hone
  | refunded events logs ho hstatus hid hle hevents => exact hone
  | @hooked ctx k hmem =>
      cases k with
      | credit orderId =>
          show OnePerType (creditLoyalty s.db ctx orderId).loyaltyLedger
          rcases creditLoyalty_spec s.db ctx orderId with hledger | ⟨o, r, -, -, -, hfresh, hledger⟩
          · rw [hledger]
            exact hone
          · rw [hledger]
            exact hone.append hfresh
      | reverse orderId =>
          obtain ⟨db₁, hfirst, hsecond⟩ := reverseLoyalty_spec hs.ledger ctx orderId
          exact (hone.undone hfirst).undone hsecond
  | stocked hframe =>
      rw [hframe.loyaltyLedger]
      exact hone

theorem serial_onePerType {s : Server} (h : serial.Reachable s) : OnePerType s.db.loyaltyLedger := by
  refine (h.invariant (fun s => LoyaltyInv s ∧ OnePerType s.db.loyaltyLedger) ?_ ?_).2
  · intro s hopen
    exact ⟨.opening hopen, .untied hopen.loyaltyLedger⟩
  · intro s r s' hs hstep
    have heffect := perform_effect hstep
    exact ⟨heffect.loyaltyInv hs.1, heffect.onePerType hs.1 hs.2⟩

/-! ## §3. The invariant. -/

/-- A refunded order still has a reversal to come, or its EARN is reversed. -/
def Covered (s : Server) : Prop :=
  ∀ id, Refunded s.db id →
    .reverse id ∈ s.pending ∨ IsUndone s.db.loyaltyLedger id .earn .refundReversal

/-- What a request other than a hook leaves: a new refund has its reversal pending,
and no entry of the two types is touched. -/
structure EarnFrame (s s' : Server) : Prop where
  refunds : ∀ id, Refunded s'.db id → Refunded s.db id ∨ .reverse id ∈ s'.pending
  pending : ∀ id, .reverse id ∈ s.pending → .reverse id ∈ s'.pending
  entries : ∀ id type, type ≠ .redeem →
    entryOf s'.db.loyaltyLedger id type = entryOf s.db.loyaltyLedger id type

/-- What leaves credits, refunds and hooks alone keeps every refund covered. -/
theorem EarnFrame.covered {s s' : Server} (h : EarnFrame s s') (hs : Covered s) : Covered s' := by
  intro id href
  rcases h.refunds id href with href | hpending
  · rcases hs id href with hpending | hundone
    · exact .inl (h.pending id hpending)
    · refine .inr ?_
      unfold IsUndone
      rw [h.entries id _ (by decide), h.entries id _ (by decide)]
      exact hundone
  · exact .inl hpending

/-- A request that writes no refund and none of the entries, with the hooks it adds. -/
theorem EarnFrame.of_eq {s : Server} {db' : Db} {hooks : List Hook}
    (hrefunds : db'.refunds = s.db.refunds) (hledger : ∀ id type, type ≠ .redeem →
      entryOf db'.loyaltyLedger id type = entryOf s.db.loyaltyLedger id type) :
    EarnFrame s ⟨db', s.pending ++ hooks⟩ := by
  refine ⟨?_, fun id hmem => List.mem_append_left _ hmem, hledger⟩
  intro id href
  unfold Refunded at href
  rw [hrefunds] at href
  exact .inl href

/-- The hooks of a request that leaves none. -/
theorem EarnFrame.of_eq_nil {s : Server} {db' : Db} (hrefunds : db'.refunds = s.db.refunds)
    (hledger : db'.loyaltyLedger = s.db.loyaltyLedger) : EarnFrame s ⟨db', s.pending⟩ := by
  have h : EarnFrame s ⟨db', s.pending ++ []⟩ :=
    EarnFrame.of_eq hrefunds fun id type _ => by rw [hledger]
  rw [List.append_nil] at h
  exact h

/-- **No request touches the credits; only hooks do.** -/
theorem perform_earnFrame {s s' : Server} {r : Request} (h : perform s r = .ok s')
    (hhook : ∀ ctx k, r ≠ .hook ctx k) (hs : LoyaltyInv s) : EarnFrame s s' := by
  cases r with
  | create ctx env dto =>
      obtain ⟨⟨o, db', hooks⟩, hok, h⟩ := bind_ok.mp h
      cases pure_ok.mp h
      rcases (create_ok hok).2 with ⟨-, rfl, rfl⟩ | ⟨hins, -⟩
      · exact .of_eq rfl fun _ _ _ => rfl
      · obtain ⟨paid, moved, spent, redemptions, logs, hi, rfl⟩ := insert_ok hins
        exact .of_eq rfl fun id type hne => (ledgerInv_spent hs.ledger hi.spent).2 id type (.inr hne)
  | updateStatus ctx now orderId toStatus reason =>
      obtain ⟨db', hok, h⟩ := bind_ok.mp h
      cases pure_ok.mp h
      obtain ⟨o, -, hcase⟩ := updateStatus_ok hok
      rcases hcase with ⟨-, rfl⟩ | ⟨-, moved, logs, -, rfl⟩
      · exact .of_eq_nil rfl rfl
      · exact .of_eq_nil rfl rfl
  | recordPayment ctx env orderId dto =>
      obtain ⟨⟨o, db', hooks⟩, hok, h⟩ := bind_ok.mp h
      cases pure_ok.mp h
      rcases recordPayment_ok hok with ⟨rfl, -⟩ | ⟨p, -, -, -, -, -, -, -, rfl⟩
      · exact .of_eq rfl fun _ _ _ => rfl
      · exact .of_eq rfl fun _ _ _ => rfl
  | recordRefund ctx env orderId dto =>
      obtain ⟨⟨o, db', hooks⟩, hok, h⟩ := bind_ok.mp h
      cases pure_ok.mp h
      rcases recordRefund_ok hok with ⟨rfl, rfl⟩ | ⟨r, logs, -, -, hid, -, -, rfl, rfl⟩
      · exact .of_eq rfl fun _ _ _ => rfl
      · refine ⟨?_, fun id hmem => List.mem_append_left _ hmem, fun _ _ _ => rfl⟩
        -- the new refund is the one whose reversal is pending
        intro id href
        obtain ⟨r', hr', hid'⟩ := href
        rcases List.mem_append.mp hr' with hr' | hr'
        · exact .inl ⟨r', hr', hid'⟩
        · rw [List.mem_singleton.mp hr', hid] at hid'
          rw [← hid']
          exact .inr (List.mem_append_right _ (List.mem_singleton_self _))
  | hook ctx k => exact absurd rfl (hhook ctx k)
  | stock ctx r =>
      obtain ⟨db', hok, h⟩ := bind_ok.mp h
      cases pure_ok.mp h
      have hframe := performStock_leavesOrders hok
      exact .of_eq_nil hframe.refunds hframe.loyaltyLedger

/-- Running a credit hook in time. -/
theorem Covered.credited {s : Server} (hs : Covered s) (ctx : TenantContext) {orderId : Uuid}
    (htime : Refunded s.db orderId → .reverse orderId ∉ s.pending → ¬ Earns s.db orderId) :
    Covered ⟨runHook s.db ctx (.credit orderId), s.pending.erase (.credit orderId)⟩ := by
  intro id href
  unfold Refunded at href
  rw [runHook_refunds] at href
  rcases hs id href with hpending | hundone
  · exact .inl ((reverse_mem_erase_credit id).mpr hpending)
  · by_cases hpending : .reverse id ∈ s.pending
    · exact .inl ((reverse_mem_erase_credit id).mpr hpending)
    · refine .inr ?_
      show IsUndone (creditLoyalty s.db ctx orderId).loyaltyLedger id .earn .refundReversal
      -- a credit in time is not of a refunded order; of another order it changes nothing here
      by_cases hid : orderId = id
      · subst hid
        rw [creditLoyalty_unearned ctx (htime href hpending)]
        exact hundone
      · rcases creditLoyalty_spec s.db ctx orderId with hledger | ⟨o, r, -, -, -, hfresh, hledger⟩
        · rw [hledger]
          exact hundone
        · unfold IsUndone
          rw [hledger, entryOf_append_other hfresh hid, entryOf_append_other hfresh hid]
          exact hundone

/-- A reversal that runs covers its refund. -/
theorem Covered.reversed {s : Server} (hs : Covered s) (hinv : LoyaltyInv s) (ctx : TenantContext)
    (orderId : Uuid) :
    Covered ⟨runHook s.db ctx (.reverse orderId), s.pending.erase (.reverse orderId)⟩ := by
  obtain ⟨-, hsettled, hothers⟩ := reverseHook_settles hinv.ledger ctx orderId
  intro id href
  unfold Refunded at href
  rw [runHook_refunds] at href
  by_cases hid : id = orderId
  · rw [hid]
    exact .inr hsettled.1
  · rcases hs id href with hpending | hundone
    · refine .inl ((List.mem_erase_of_ne ?_).mpr hpending)
      intro heq
      injection heq with heq
      exact hid heq
    · refine .inr ?_
      unfold IsUndone
      show (entryOf (runHook s.db ctx (.reverse orderId)).loyaltyLedger id .earn).isSome = true → _
      rw [hothers id hid, hothers id hid]
      exact hundone

/-- **The step lemma.** -/
theorem Covered.step {s s' : Server} {r : Request} (hs : Covered s) (hinv : LoyaltyInv s)
    (htime : CreditInTime s r) (h : perform s r = .ok s') : Covered s' := by
  by_cases hhook : ∃ ctx k, r = .hook ctx k
  · obtain ⟨ctx, k, rfl⟩ := hhook
    simp only [perform] at h
    split at h
    next =>
      cases h
      cases k with
      | credit orderId => exact hs.credited ctx (htime ctx orderId rfl)
      | reverse orderId => exact hs.reversed hinv ctx orderId
    next => cases h
  · refine (perform_earnFrame h ?_ hinv).covered hs
    intro ctx k heq
    exact hhook ⟨ctx, k, heq⟩

/-- **With credits in time, every refund is covered.** -/
theorem serial_covered {s : Server} (h : (serial.restrict CreditInTime).Reachable s) :
    Covered s := by
  refine (h.invariant (fun s => serial.Reachable s ∧ Covered s) ?_ ?_).2
  · intro s hopen
    refine ⟨.init hopen, ?_⟩
    intro id href
    obtain ⟨r, hr, -⟩ := href
    rw [hopen.refunds] at hr
    cases hr
  · intro s r s' hs hstep
    exact ⟨hs.1.step hstep.2, hs.2.step (serial_loyaltyInv hs.1) hstep.1 hstep.2⟩

/-! ## §4. Refunded sales. -/

/-- An EARN and its reversal come to nothing. -/
theorem earnedPoints_undone {s : Server} (h : serial.Reachable s) {orderId : Uuid}
    (hundone : IsUndone s.db.loyaltyLedger orderId .earn .refundReversal) :
    earnedPoints s.db.loyaltyLedger orderId = 0 := by
  have hone := serial_onePerType h
  rw [earnedPoints_eq, hone, hone]
  exact (serial_loyaltyInv h).ledger.reversal.cancel hundone _

/-- **A refunded sale keeps no earned points**, in every run in which no credit is
late: once the order's hooks have run, its EARN and REFUND_REVERSAL entries come
to 0. -/
theorem refunded_points_zero {s : Server} (h : (serial.restrict CreditInTime).Reachable s)
    {orderId : Uuid} (href : Refunded s.db orderId) (hrun : ∀ k ∈ s.pending, k.orderId ≠ orderId) :
    earnedPoints s.db.loyaltyLedger orderId = 0 := by
  rcases serial_covered h orderId href with hpending | hundone
  · exact absurd rfl (hrun _ hpending)
  · exact earnedPoints_undone (System.restrict_reachable h) hundone

/-- A lassi sold for cash, its point credited, refunded in part. -/
def soldThenRefunded : List Request :=
  [.create cashier ⟨20, 0⟩ (lassiOrder none (some .cash) (some 5)),
    .hook cashier (.credit 20),
    .updateStatus cashier 1 20 .completed none,
    .recordRefund cashier ⟨21, 2⟩ 20 partRefund,
    .hook cashier (.reverse 20)]

theorem soldThenRefunded_inTime :
    (serial.restrict CreditInTime).Reachable (after soldThenRefunded openBar) := by
  have hstep : ∀ {s s' : Server} (r : Request), (serial.restrict CreditInTime).Reachable s →
      CreditInTime s r → perform s r = .ok s' → (serial.restrict CreditInTime).Reachable s' :=
    fun r h htime hok => h.step (a := r) ⟨htime, hok⟩
  have hsold : (serial.restrict CreditInTime).Reachable (after (soldThenRefunded.take 1) openBar) :=
    hstep (.create cashier ⟨20, 0⟩ (lassiOrder none (some .cash) (some 5)))
      (.init openBar_opening) nofun rfl
  -- the one credit comes before the refund
  have hcredited : (serial.restrict CreditInTime).Reachable
      (after (soldThenRefunded.take 2) openBar) := by
    refine hstep (.hook cashier (.credit 20)) hsold ?_ rfl
    intro ctx id _ href
    obtain ⟨r, hr, -⟩ := href
    cases hr
  have hcompleted : (serial.restrict CreditInTime).Reachable
      (after (soldThenRefunded.take 3) openBar) :=
    hstep (.updateStatus cashier 1 20 .completed none) hcredited nofun rfl
  have hrefunded : (serial.restrict CreditInTime).Reachable
      (after (soldThenRefunded.take 4) openBar) :=
    hstep (.recordRefund cashier ⟨21, 2⟩ 20 partRefund) hcompleted nofun rfl
  exact hstep (.hook cashier (.reverse 20)) hrefunded nofun rfl

/-- Sold for points, refunded, and zero again. -/
theorem refunded_points_zero_lassi :
    earnedPoints (after soldThenRefunded openBar).db.loyaltyLedger 20 = 0 :=
  refunded_points_zero soldThenRefunded_inTime ⟨_, List.mem_singleton_self _, rfl⟩
    (List.forall_mem_nil _)

/-- **A late credit leaves its points**: nothing is pending to take them back. -/
theorem late_credit_points {s : Server} (h : serial.Reachable s) (ctx : TenantContext)
    {orderId : Uuid} (hearns : Earns s.db orderId) :
    0 < earnedPoints (runHook s.db ctx (.credit orderId)).loyaltyLedger orderId := by
  obtain ⟨r, htype, hpos, hfresh, hledger⟩ := creditLoyalty_earns ctx hearns
  show 0 < earnedPoints (creditLoyalty s.db ctx orderId).loyaltyLedger orderId
  have hone := (serial_onePerType h).append hfresh
  -- a reversal mirrors an EARN, and before the credit there was none
  have hnone : entryOf s.db.loyaltyLedger orderId .refundReversal = none := by
    cases hrev : entryOf s.db.loyaltyLedger orderId .refundReversal with
    | none => rfl
    | some e =>
        obtain ⟨e', he', -⟩ := (serial_loyaltyInv h).ledger.reversal orderId e hrev
        obtain ⟨_, -, -, -, hnew, -⟩ := hearns
        rw [hnew] at he'
        cases he'
  have hearn : entryOf (s.db.loyaltyLedger ++ [r]) orderId .earn = some r := by
    rw [← htype]
    exact entryOf_append_self hfresh
  have hnone' : entryOf (s.db.loyaltyLedger ++ [r]) orderId .refundReversal = none := by
    rw [entryOf_append_type hfresh (by rw [htype]; decide), hnone]
  rw [hledger, earnedPoints_eq, hone, hone, hearn, hnone']
  simpa [valueFor] using hpos

/-- A lassi finished on account, half paid, refunded in part, then settled. -/
def lateSettlement : List Request :=
  [.create cashier ⟨20, 0⟩ (lassiOrder none none (some 5)),
    .recordPayment cashier ⟨21, 1⟩ 20 ⟨.cash, 600, none, none, by decide⟩,
    .updateStatus cashier 2 20 .completed none,
    .recordRefund cashier ⟨22, 3⟩ 20 partRefund,
    .hook cashier (.reverse 20),
    .recordPayment cashier ⟨23, 4⟩ 20 ⟨.cash, 450, none, none, by decide⟩,
    .hook cashier (.credit 20)]

/-- The settling leg credits the point after the refund's reversal has run. -/
theorem refunded_sale_keeps_point :
    serial.Reachable (after lateSettlement openBar)
      ∧ (after lateSettlement openBar).pending = []
      ∧ Refunded (after lateSettlement openBar).db 20
      ∧ earnedPoints (after lateSettlement openBar).db.loyaltyLedger 20 = 1 :=
  ⟨after_reachable openBar_opening rfl, rfl, ⟨_, List.mem_singleton_self _, rfl⟩, rfl⟩

end OraOS.Orders
