/-
  OraOS.Orders.RefundRace — `recordRefund` under READ COMMITTED, any number of them
  at once on one order.

  The ceiling is checked against two aggregates and the insert takes no lock, so
  what others commit between a transaction's aggregates and its own commit is not
  in its check:

    * `refundTx_alone`      — on its own the transaction is `refundTx`;
    * `refundRace_ceiling`  — the ceiling holds as long as the check would still
                              pass at each commit, and not a commit longer.
-/
import OraOS.Orders.MoneyLedger
import OraOS.Lib.Transactions

namespace OraOS.Orders

open OraOS.Api
open OraOS.Lib

/-! ## §1. The transaction, statement by statement. -/

/-- A refund of the order, by someone, at some time. -/
structure RefundTx where
  ctx : TenantContext
  env : Env
  dto : RecordRefundDto

/-- How far a transaction is, with the sums its aggregates returned. -/
inductive RefundPhase where
  | started
  | found (o : Order)
  | captured (o : Order) (captured : ℤ)
  | checked (o : Order) (captured refunded : ℤ)
  | inserted (o : Order) (captured refunded : ℤ)

/-- The writes of the transaction, as its commit publishes them; the unique index
has the last word on the key. -/
def publishRefund (db : Db) (orderId : Uuid) (tx : RefundTx) (o : Order) : Except ApiError Db := do
  let db ← insertRefund db tx.ctx tx.env orderId tx.dto
  let db := db.withOrderEvents (db.orderEvents ++
    [⟨orderId, .refundRecorded tx.dto.method tx.dto.amountMinor tx.dto.reason, tx.ctx.userId⟩])
  pure (db.record tx.ctx orderId
    (.orderRefunded o.orderNumber tx.dto.method tx.dto.amountMinor tx.dto.reason))

/-- The next statement of a refund: find the order, sum twice, insert, commit. -/
def nextRefund (orderId : Uuid) (db : Db) : RefundTx × RefundPhase → Move Db (RefundTx × RefundPhase)
  | (tx, .started) =>
      match db.findOrder orderId with
      | some o => if o.status ∈ refundStatuses then .go (tx, .found o) else .stop
      | none => .stop
  -- the two aggregates are two statements
  | (tx, .found o) => .go (tx, .captured o (capturedOf db.payments orderId))
  | (tx, .captured o captured) =>
      if tx.dto.amountMinor ≤ captured - refundedOf db.refunds orderId then
        .go (tx, .checked o captured (refundedOf db.refunds orderId))
      else .stop
  | (tx, .checked o captured refunded) =>
      match insertRefund db tx.ctx tx.env orderId tx.dto with
      | .ok _ => .go (tx, .inserted o captured refunded)
      | .error _ => .stop
  | (tx, .inserted o _ _) =>
      match publishRefund db orderId tx o with
      -- the order row was never locked
      | .ok db' => .commit db'
      | .error _ => .stop

/-- Refunds of one order, statement by statement. -/
def refundProgram (orderId : Uuid) : Program Db (RefundTx × RefundPhase) RefundTx where
  start tx := (tx, .started)
  next := nextRefund orderId

/-- Any number of refunds of one order at once, from the database `base`. -/
def refundRace (orderId : Uuid) (base : Db) :
    System (Config Db (RefundTx × RefundPhase)) (TxAction RefundTx) :=
  (refundProgram orderId).interleaved fun db => db = base

/-- What a refund's commit does to the money rows. -/
theorem publishRefund_ok {db db' : Db} {orderId : Uuid} {tx : RefundTx} {o : Order}
    (h : publishRefund db orderId tx o = .ok db') :
    db'.payments = db.payments ∧ refundedOf db'.refunds orderId
      = refundedOf db.refunds orderId + tx.dto.amountMinor := by
  simp only [publishRefund, insertRefund, bind_ok, pure_ok] at h
  obtain ⟨_, ⟨_, -, rfl⟩, rfl⟩ := h
  refine ⟨rfl, ?_⟩
  show refundedOf (db.refunds ++ [_]) orderId = _
  rw [refundedOf_append, refundedOf_single, if_pos rfl]

/-- **On its own the transaction is `refundTx`.** -/
theorem refundTx_alone {db db' : Db} {orderId : Uuid} {tx : RefundTx} {o : Order}
    (h : refundTx db tx.ctx tx.env orderId tx.dto = .ok (o, db')) :
    (refundProgram orderId).alone 5 db (tx, .started) = some db' := by
  simp only [refundTx, bind_ok, found_ok, require_ok] at h
  obtain ⟨o', ho, -, hstatus, -, hle, db₁, hins, h⟩ := h
  obtain ⟨-, hdb⟩ := Prod.mk.inj (pure_ok.mp h)
  have hpublish : publishRefund db orderId tx o' = .ok db' :=
    bind_ok.mpr ⟨db₁, hins, pure_ok.mpr hdb⟩
  simp only [Program.alone, refundProgram, nextRefund, ho, if_pos hstatus, if_pos hle, hins,
    hpublish]

/-! ## §2. What a transaction knows. -/

/-- The ceiling: no more refunded than captured. -/
def Ceiling (orderId : Uuid) (db : Db) : Prop :=
  refundedOf db.refunds orderId ≤ capturedOf db.payments orderId

/-- The captured sum it read is the order's, and its own check was met. -/
def KnowsSums (orderId : Uuid) (base : Db) : RefundTx × RefundPhase → Prop
  | (_, .started) => True
  | (_, .found _) => True
  | (_, .captured _ captured) => captured = capturedOf base.payments orderId
  | (tx, .checked _ captured refunded) => captured = capturedOf base.payments orderId
      ∧ tx.dto.amountMinor ≤ captured - refunded
  | (tx, .inserted _ captured refunded) => captured = capturedOf base.payments orderId
      ∧ tx.dto.amountMinor ≤ captured - refunded

/-- What the next statement can be, whatever the phase. -/
inductive RefundStatement (orderId : Uuid) (db : Db) :
    RefundTx × RefundPhase → Move Db (RefundTx × RefundPhase) → Prop where
  | refused {t : RefundTx × RefundPhase} : RefundStatement orderId db t .stop
  | read {tx : RefundTx} {o : Order} (hstatus : o.status ∈ refundStatuses) :
      RefundStatement orderId db (tx, .started) (.go (tx, .found o))
  | sumPayments {tx : RefundTx} {o : Order} :
      RefundStatement orderId db (tx, .found o)
        (.go (tx, .captured o (capturedOf db.payments orderId)))
  | sumRefunds {tx : RefundTx} {o : Order} {captured : ℤ}
      (hle : tx.dto.amountMinor ≤ captured - refundedOf db.refunds orderId) :
      RefundStatement orderId db (tx, .captured o captured)
        (.go (tx, .checked o captured (refundedOf db.refunds orderId)))
  | insert {tx : RefundTx} {o : Order} {captured refunded : ℤ} :
      RefundStatement orderId db (tx, .checked o captured refunded)
        (.go (tx, .inserted o captured refunded))
  | commit {tx : RefundTx} {o : Order} {captured refunded : ℤ} {db' : Db}
      (hok : publishRefund db orderId tx o = .ok db') :
      RefundStatement orderId db (tx, .inserted o captured refunded) (.commit db')

/-- **The statement inversion.** -/
theorem nextRefund_statement {orderId : Uuid} {db : Db} {t : RefundTx × RefundPhase}
    {m : Move Db (RefundTx × RefundPhase)} (h : nextRefund orderId db t = m) :
    RefundStatement orderId db t m := by
  subst h
  obtain ⟨tx, phase⟩ := t
  cases phase with
  | started =>
      simp only [nextRefund]
      split
      next o _ =>
        split
        next hstatus => exact .read hstatus
        next => exact .refused
      next => exact .refused
  | found o => exact .sumPayments
  | captured o captured =>
      simp only [nextRefund]
      split
      next hle => exact .sumRefunds hle
      next => exact .refused
  | checked o captured refunded =>
      simp only [nextRefund]
      split
      next => exact .insert
      next => exact .refused
  | inserted o captured refunded =>
      simp only [nextRefund]
      split
      next db' hok => exact .commit hok
      next => exact .refused

/-- Refunds take no payment away, and a transaction remembers its check. -/
theorem refundRace_invariant {orderId : Uuid} {base : Db}
    {c : Config Db (RefundTx × RefundPhase)} (h : (refundRace orderId base).Reachable c) :
    capturedOf c.shared.payments orderId = capturedOf base.payments orderId
      ∧ ∀ i t, c.running i = some t → KnowsSums orderId base t := by
  refine (refundProgram orderId).local_invariant
    (fun db => capturedOf db.payments orderId = capturedOf base.payments orderId)
    (KnowsSums orderId base) ?_ ?_ ?_ ?_ ?_ h
  · rintro db rfl
    rfl
  · intro tx
    trivial
  · intro db t t' hcaptured hknow hnext
    cases nextRefund_statement hnext with
    | read hstatus => trivial
    | sumPayments => exact hcaptured
    | sumRefunds hle => exact ⟨hknow, hle⟩
    | insert => exact hknow
  · -- no statement of a refund takes a lock
    intro db t t' _ _ hnext
    cases nextRefund_statement hnext
  · intro db t db' hcaptured _ hnext
    cases nextRefund_statement hnext with
    | commit hok =>
        rw [(publishRefund_ok hok).1]
        exact hcaptured

/-! ## §3. What a commit may find. -/

/-- No refund of the order was committed since the transaction summed them. -/
def SumCurrent (orderId : Uuid) (db : Db) : RefundTx × RefundPhase → Prop
  | (_, .inserted _ _ refunded) => refundedOf db.refunds orderId = refunded
  | _ => True

/-- "Refund exceeds captured payments" asked once more, of what is committed now. -/
def CheckPasses (orderId : Uuid) (db : Db) : RefundTx × RefundPhase → Prop
  | (tx, .inserted _ _ _) =>
      tx.dto.amountMinor ≤ capturedOf db.payments orderId - refundedOf db.refunds orderId
  | _ => True

instance (orderId : Uuid) (db : Db) : DecidablePred (SumCurrent orderId db) := by
  intro t
  unfold SumCurrent
  split <;> infer_instance

instance (orderId : Uuid) (db : Db) : DecidablePred (CheckPasses orderId db) := by
  intro t
  unfold CheckPasses
  split <;> infer_instance

/-- A refund that takes a step, its commit among them, has summed what is still there. -/
def SumIsCurrent (orderId : Uuid) (c : Config Db (RefundTx × RefundPhase)) :
    TxAction RefundTx → Prop
  | .run i => ∀ t ∈ c.running i, SumCurrent orderId c.shared t
  | _ => True

/-- A refund that takes a step, its commit among them, would pass its check again. -/
def CheckStands (orderId : Uuid) (c : Config Db (RefundTx × RefundPhase)) :
    TxAction RefundTx → Prop
  | .run i => ∀ t ∈ c.running i, CheckPasses orderId c.shared t
  | _ => True

instance (orderId : Uuid) (c : Config Db (RefundTx × RefundPhase)) (a : TxAction RefundTx) :
    Decidable (SumIsCurrent orderId c a) := by
  unfold SumIsCurrent
  split <;> infer_instance

instance (orderId : Uuid) (c : Config Db (RefundTx × RefundPhase)) (a : TxAction RefundTx) :
    Decidable (CheckStands orderId c a) := by
  unfold CheckStands
  split <;> infer_instance

/-- With nothing in between, the check that was met is met still. -/
theorem SumCurrent.checkPasses {orderId : Uuid} {base db : Db} {t : RefundTx × RefundPhase}
    (hcaptured : capturedOf db.payments orderId = capturedOf base.payments orderId)
    (hknows : KnowsSums orderId base t) (hcurrent : SumCurrent orderId db t) :
    CheckPasses orderId db t := by
  obtain ⟨tx, phase⟩ := t
  cases phase with
  | inserted o captured refunded =>
      have hsum : refundedOf db.refunds orderId = refunded := hcurrent
      obtain ⟨hread, hcheck⟩ : captured = capturedOf base.payments orderId
        ∧ tx.dto.amountMinor ≤ captured - refunded := hknows
      show tx.dto.amountMinor ≤ capturedOf db.payments orderId - refundedOf db.refunds orderId
      rw [hcaptured, hsum, ← hread]
      exact hcheck
  | _ => trivial

/-- A sum that is current at the commit leaves the check standing. -/
theorem SumIsCurrent.checkStands {orderId : Uuid} {base : Db}
    {c : Config Db (RefundTx × RefundPhase)} {a : TxAction RefundTx}
    (h : (refundRace orderId base).Reachable c) (hcurrent : SumIsCurrent orderId c a) :
    CheckStands orderId c a := by
  cases a with
  | begin i r => trivial
  | abort i => trivial
  | run i =>
      obtain ⟨hcaptured, hknows⟩ := refundRace_invariant h
      intro t hi
      exact (hcurrent t hi).checkPasses hcaptured (hknows i t hi)

/-- **What a commit does to the ceiling**: it is kept exactly if the check passes before. -/
theorem publishRefund_ceiling {db db' : Db} {orderId : Uuid} {tx : RefundTx} {o : Order}
    {captured refunded : ℤ} (h : publishRefund db orderId tx o = .ok db') :
    Ceiling orderId db' ↔ CheckPasses orderId db (tx, .inserted o captured refunded) := by
  obtain ⟨hpayments, hrefunded⟩ := publishRefund_ok h
  show refundedOf db'.refunds orderId ≤ capturedOf db'.payments orderId
    ↔ tx.dto.amountMinor ≤ capturedOf db.payments orderId - refundedOf db.refunds orderId
  rw [hpayments, hrefunded]
  omega

/-- **The step lemma**: a commit whose check still passes keeps the ceiling. -/
theorem CheckStands.ceiling {orderId : Uuid} {base : Db}
    {c c' : Config Db (RefundTx × RefundPhase)} {a : TxAction RefundTx}
    (hceiling : Ceiling orderId c.shared) (hstep : (refundRace orderId base).step c a c')
    (hstands : CheckStands orderId c a) : Ceiling orderId c'.shared := by
  cases (refundProgram orderId).act_stepped hstep with
  | began _ => exact hceiling
  | went _ _ => exact hceiling
  | locked _ _ _ => exact hceiling
  | ended => exact hceiling
  | committed hi hnext =>
      cases nextRefund_statement hnext with
      | commit hok => exact (publishRefund_ceiling hok).mpr (hstands _ hi)

/-- **And one whose check no longer does breaks it**, unless the unique index refuses it. -/
theorem failed_check_no_ceiling {orderId : Uuid} {base : Db}
    {c c' : Config Db (RefundTx × RefundPhase)} {a : TxAction RefundTx}
    (hstep : (refundRace orderId base).step c a c') (hfails : ¬ CheckStands orderId c a) :
    c'.shared = c.shared ∨ ¬ Ceiling orderId c'.shared := by
  cases (refundProgram orderId).act_stepped hstep with
  | began _ => exact .inl rfl
  | went _ _ => exact .inl rfl
  | locked _ _ _ => exact .inl rfl
  | ended => exact .inl rfl
  | committed hi hnext =>
      right
      cases nextRefund_statement hnext with
      | commit hok =>
          intro hceiling
          refine hfails fun t ht => ?_
          cases hi.symm.trans ht
          exact (publishRefund_ceiling hok).mp hceiling

/-- The run lemma: the ceiling, as long as the check still passes at each commit. -/
theorem checkStands_ceiling {orderId : Uuid} {base : Db} (hbase : Ceiling orderId base)
    {c : Config Db (RefundTx × RefundPhase)}
    (h : ((refundRace orderId base).restrict (CheckStands orderId)).Reachable c) :
    Ceiling orderId c.shared := by
  refine h.invariant (fun c => Ceiling orderId c.shared) ?_ ?_
  · intro c hc
    rw [show c.shared = base from hc.1]
    exact hbase
  · intro c a c' hceiling hstep
    exact hstep.1.ceiling hceiling hstep.2

/-- **The refund ceiling under concurrency**: safe in every run in which no refund of the
order comes between another's sum and its commit, more generally in every run in which
the check still passes at each commit, and broken by the first commit at which it fails. -/
theorem refundRace_ceiling (orderId : Uuid) (base : Db) (hbase : Ceiling orderId base) :
    (∀ c, ((refundRace orderId base).restrict (SumIsCurrent orderId)).Reachable c →
        Ceiling orderId c.shared)
      ∧ (∀ c, ((refundRace orderId base).restrict (CheckStands orderId)).Reachable c →
        Ceiling orderId c.shared)
      ∧ (∀ c a, (refundRace orderId base).Reachable c → SumIsCurrent orderId c a →
        CheckStands orderId c a)
      ∧ ∀ c a c', (refundRace orderId base).Reachable c → (refundRace orderId base).step c a c' →
          ¬ CheckStands orderId c a → c'.shared = c.shared ∨ ¬ Ceiling orderId c'.shared :=
  ⟨fun _ h => checkStands_ceiling hbase
      (System.restrict_mono (fun _ _ => SumIsCurrent.checkStands) h),
    fun _ h => checkStands_ceiling hbase h, fun _ _ => SumIsCurrent.checkStands,
    fun _ _ _ _ => failed_check_no_ceiling⟩

/-! ## §4. Two refunds of one payment. -/

/-- One lassi, paid and then voided: 1050 paise captured. -/
def voidedBar : Db :=
  (after [.create cashier ⟨20, 0⟩ (lassiOrder none (some .cash) none),
    .updateStatus cashier 1 20 .voided (some "spilt")] openBar).db

/-- The price of the lassi, given back. -/
def fullRefund (key : String) : RefundTx :=
  ⟨cashier, ⟨21, 2⟩, ⟨.cash, 1050, "spilt", some key, by decide⟩⟩

/-- Both sum the refunds before either is committed. -/
def doubleRefund : List (TxAction RefundTx) :=
  [.begin 0 (fullRefund "a"), .begin 1 (fullRefund "b"), .run 0, .run 1, .run 0, .run 1,
    .run 0, .run 1, .run 0, .run 1, .run 0, .run 1]

/-- The voided lassi, before anybody refunds it. -/
def voidedIdle : Config Db (RefundTx × RefundPhase) := ⟨voidedBar, fun _ => none, none⟩

theorem voidedIdle_init : (refundRace 20 voidedBar).init voidedIdle := ⟨rfl, fun _ => rfl, rfl⟩

/-- 1050 paise came in and 2100 went out. -/
theorem double_refund_breaks_ceiling :
    ∃ c, (refundRace 20 voidedBar).Reachable c ∧ ¬ Ceiling 20 c.shared := by
  refine ⟨_, System.replay_reachable (f := (refundProgram 20).act) (fun _ _ _ h => h)
    doubleRefund voidedIdle voidedIdle_init rfl, ?_⟩
  unfold Ceiling
  decide

theorem half_inRange : (1 : ℤ) ≤ 500 ∧ (500 : ℤ) ≤ 100000000 := by decide

/-- Not quite half of it. -/
def halfRefund (key : String) : RefundTx :=
  ⟨cashier, ⟨21, 2⟩, ⟨.cash, 500, "spilt", some key, half_inRange⟩⟩

/-- The second has read the order and its payments when the first commits, and sums the
refunds after that. -/
def halfByHalf : List (TxAction RefundTx) :=
  [.begin 0 (halfRefund "a"), .begin 1 (halfRefund "b"), .run 0, .run 1, .run 0, .run 1,
    .run 0, .run 0, .run 0, .run 1, .run 1, .run 1]

/-- Both sum the refunds before either commits, and there is enough for both. -/
def halvesAtOnce : List (TxAction RefundTx) :=
  [.begin 0 (halfRefund "a"), .begin 1 (halfRefund "b"), .run 0, .run 1, .run 0, .run 1,
    .run 0, .run 1, .run 0, .run 1, .run 0, .run 1]

theorem refundRace_ceiling_voided :
    (∃ c, ((refundRace 20 voidedBar).restrict (SumIsCurrent 20)).Reachable c
        ∧ refundedOf c.shared.refunds 20 = 1000 ∧ Ceiling 20 c.shared)
      ∧ (∃ c, ((refundRace 20 voidedBar).restrict (CheckStands 20)).Reachable c
        ∧ refundedOf c.shared.refunds 20 = 1000 ∧ Ceiling 20 c.shared)
      ∧ ∃ c a c', (refundRace 20 voidedBar).Reachable c
        ∧ (refundRace 20 voidedBar).step c a c' ∧ ¬ Ceiling 20 c'.shared := by
  have hceiling := refundRace_ceiling 20 voidedBar (by unfold Ceiling; decide)
  have hturns : ((refundRace 20 voidedBar).restrict (SumIsCurrent 20)).Reachable _ :=
    System.replay_restricted (f := (refundProgram 20).act) (fun _ _ _ h => h)
      halfByHalf voidedIdle voidedIdle_init rfl
  have htogether : ((refundRace 20 voidedBar).restrict (CheckStands 20)).Reachable _ :=
    System.replay_restricted (f := (refundProgram 20).act) (fun _ _ _ h => h)
      halvesAtOnce voidedIdle voidedIdle_init rfl
  refine ⟨⟨_, hturns, by decide, hceiling.1 _ hturns⟩,
    ⟨_, htogether, by decide, hceiling.2.1 _ htogether⟩, ?_⟩
  -- of the two full refunds the second finds nothing left
  have hlast : (refundRace 20 voidedBar).Reachable _ :=
    System.replay_reachable (f := (refundProgram 20).act) (fun _ _ _ h => h)
      doubleRefund.dropLast voidedIdle voidedIdle_init rfl
  refine ⟨_, .run 1, _, hlast, rfl, ?_⟩
  refine (hceiling.2.2.2 _ (.run 1) _ hlast rfl (by decide)).resolve_left ?_
  intro hsame
  exact absurd (congrArg (fun db => db.refunds.length) hsame) (by decide)

end OraOS.Orders
