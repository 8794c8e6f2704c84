/-
  OraOS.Cash.CloseRace — a till session is closed while payments, refunds, pay-ins,
  pay-outs and other closes are under way.

  A close finds the session open, reads three tables up to one instant and writes another
  into the row.  Nothing keeps the tables, or the status, as it found them; and a payment
  is dated by the start of its transaction, not by its commit.

    * `cashTurn`          — the statements of the four transactions;
    * `close_alone`, `movement_alone`
                          — on its own each is the service's method;
    * `cashSession_knows` — what a transaction has read is still there;
    * `zReport_reprints`  — closed once, with everything of its window read and nothing
                            added to it since, a session reprints its snapshot forever.
-/
import OraOS.Cash.Drawer
import OraOS.Lib.Sessions

namespace OraOS.Cash

open OraOS.Api
open OraOS.Lib

/-! ## §1. The transactions, statement by statement. -/

/-- What a settlement has read, in the order of its queries. -/
structure Readings where
  session : CashSession
  until_ : Instant
  payments : List Payment
  refunds : List Refund
  movements : List CashMovement

/-- The cash that the readings say should be there. -/
def Readings.expected (m : Readings) : ℤ :=
  (settle m.session m.until_ m.payments m.refunds m.movements).expectedCashMinor

/-- What reaches the till's tables. -/
inductive CashCall where
  | close (r : CloseCall)
  | recordMovement (r : MovementCall)
  /-- any transaction that records a payment -/
  | payment (p : Payment)
  | refund (r : Refund)

/-- The statement a close is at, with what it has read. -/
inductive ClosePhase where
  | asked
  | found (s : CashSession)
  /-- `new Date()`, and then the queries -/
  | timed (s : CashSession) (until_ : Instant)
  | paymentsRead (s : CashSession) (until_ : Instant) (payments : List Payment)
  | refundsRead (s : CashSession) (until_ : Instant) (payments : List Payment)
      (refunds : List Refund)
  | settled (m : Readings)
  /-- the second `new Date()`, before the UPDATE waits for the row -/
  | dated (m : Readings) (closedAt : Instant)
  | updated (m : Readings) (closedAt : Instant)

/-- What is left of a call. -/
inductive CashTask where
  | closing (r : CloseCall) (phase : ClosePhase)
  | asked (r : MovementCall)
  | found (r : MovementCall) (startedAt : Instant)
  | moved (m : CashMovement)
  | paying (p : Payment)
  | paid (p : Payment)
  | refunding (r : Refund)
  | refunded (r : Refund)
  | answered (result : Except ApiError Unit)

/-- Where a call begins. -/
def CashCall.start : CashCall → CashTask
  | .close r => .closing r .asked
  | .recordMovement r => .asked r
  | .payment p => .paying p
  | .refund r => .refunding r

/-- What a statement does. -/
abbrev CashTurn := Turn CashBook CashTask Uuid

/-- A call that ends with an error. -/
def failed (e : ApiError) : CashTask := .answered (.error e)

/-- The statements of `close`. -/
def closeTurn (book : CashBook) (r : CloseCall) : ClosePhase → CashTurn
  | .asked => .orRollback (r.findOpen book) failed fun s => .go (.closing r (.found s))
  | .found s => .go (.closing r (.timed s book.now))
  | .timed s until_ => .go (.closing r (.paymentsRead s until_ book.payments))
  | .paymentsRead s until_ payments =>
      .go (.closing r (.refundsRead s until_ payments book.refunds))
  | .refundsRead s until_ payments refunds =>
      .go (.closing r (.settled ⟨s, until_, payments, refunds, book.movements⟩))
  | .settled m => .go (.closing r (.dated m book.now))
  | .dated m closedAt =>
      -- UPDATE … WHERE id: waits for the row, whatever its status by then
      .orRollback (fitsSnapshot r m.expected) failed fun _ =>
        .lock r.sessionId (.closing r (.updated m closedAt))
  | .updated m closedAt =>
      .commit (book.closed r m.session.notes closedAt m.expected) (.answered (.ok ()))

/-- The next statement; the lock is the row of a session. -/
def cashTurn (book : CashBook) : CashTask → CashTurn
  | .closing r phase => closeTurn book r phase
  | .asked r => .orRollback (r.findOpen book) failed fun _ => .go (.found r book.now)
  -- the foreign key does not wait for an UPDATE of the session
  | .found r startedAt => .go (.moved (r.row startedAt))
  | .moved m => .commit (book.withMovement m) (.answered (.ok ()))
  -- the row is dated by the start of its transaction
  | .paying p => .go (.paid { p with createdAt := book.now })
  | .paid p => .commit { book with payments := book.payments ++ [p] } (.answered (.ok ()))
  | .refunding r => .go (.refunded { r with createdAt := book.now })
  | .refunded r => .commit { book with refunds := book.refunds ++ [r] } (.answered (.ok ()))
  | .answered _ => .idle

/-- Time passes. -/
def CashBook.tick (book : CashBook) (elapsed : ℕ) : CashBook :=
  { book with now := book.now + elapsed }

/-- The calls as sessions of the database; the environment is the clock. -/
def cashSession : Session CashBook CashTask CashCall Uuid Unit ℕ where
  start := CashCall.start
  turn _ := cashTurn
  env := CashBook.tick

/-- Their state, all together. -/
abbrev Till := Sessions CashBook CashTask Uuid

/-- What a transaction leaves, and its answer. -/
def cashLeft (book : CashBook) : Except ApiError CashBook → CashBook × CashTask
  | .ok book' => (book', .answered (.ok ()))
  | .error e => (book, failed e)

/-- How a close ends: with what it leaves on its own. -/
def CashEnds (book : CashBook) (out : Except ApiError CashBook) (book' : CashBook)
    (t : CashTask) : Prop :=
  cashLeft book out = (book', t)

/-- On its own a close ends as `closeSession` does. -/
theorem close_settles (book : CashBook) (r : CloseCall) :
    cashSession.Settles (CashEnds book) book (.closing r .asked) (closeSession book r) := by
  have hfail : ∀ e, cashSession.Settles (CashEnds book) book (failed e) (.error e) :=
    fun _ => .ended rfl
  unfold closeSession
  refine .check (o := ()) rfl hfail fun s _ hturn => .go hturn ?_
  -- the clock, the three queries, and the clock again
  refine .go (o := ()) rfl (.go (o := ()) rfl (.go (o := ()) rfl (.go (o := ()) rfl ?_)))
  refine .go (o := ()) rfl ?_
  exact .check (o := ()) rfl hfail fun _ _ hturn =>
    .lock hturn (.commit (o := ()) rfl (.ended rfl))

/-- **On its own a close is `closeSession`.** -/
theorem close_alone (book : CashBook) (r : CloseCall) :
    cashSession.Leads book (.closing r .asked) (cashLeft book (closeSession book r)).1
      (cashLeft book (closeSession book r)).2 := by
  obtain ⟨book', t, hleads, hends⟩ := close_settles book r
  rw [show cashLeft book (closeSession book r) = (book', t) from hends]
  exact hleads

theorem movement_settles (book : CashBook) (r : MovementCall) :
    cashSession.Settles (CashEnds book) book (.asked r) (recordCashMovement book r) := by
  refine .check (o := ()) rfl (fun _ => .ended rfl) fun _ _ hturn => .go hturn ?_
  exact .go (o := ()) rfl (.commit (o := ()) rfl (.ended rfl))

/-- **On its own a pay-in or a pay-out is `recordMovement`.** -/
theorem movement_alone (book : CashBook) (r : MovementCall) :
    cashSession.Leads book (.asked r) (cashLeft book (recordCashMovement book r)).1
      (cashLeft book (recordCashMovement book r)).2 := by
  obtain ⟨book', t, hleads, hends⟩ := movement_settles book r
  rw [show cashLeft book (recordCashMovement book r) = (book', t) from hends]
  exact hleads

/-! ## §2. What a transaction knows. -/

/-- The rows of its session, as far as a close does not write them. -/
structure Opened (book : CashBook) (r : CloseCall) (s : CashSession) : Prop where
  id : s.id = r.sessionId
  row : ∀ x ∈ book.sessions, x.id = r.sessionId →
    x.openedAt = s.openedAt ∧ x.openingFloatMinor = s.openingFloatMinor

/-- What has been read is still there, and the clock has not gone back. -/
structure StillRead (book : CashBook) (r : CloseCall) (m : Readings) : Prop where
  opened : Opened book r m.session
  until_ : m.until_ ≤ book.now
  payments : m.payments <+: book.payments
  refunds : m.refunds <+: book.refunds
  movements : m.movements <+: book.movements

/-- What a call in flight relies on. -/
def CashKnows (book : CashBook) : CashTask → Prop
  | .closing r (.found s) => Opened book r s
  | .closing r (.timed s until_) => StillRead book r ⟨s, until_, [], [], []⟩
  | .closing r (.paymentsRead s until_ payments) =>
      StillRead book r ⟨s, until_, payments, [], []⟩
  | .closing r (.refundsRead s until_ payments refunds) =>
      StillRead book r ⟨s, until_, payments, refunds, []⟩
  | .closing r (.settled m) => StillRead book r m
  | .closing r (.dated m closedAt) => StillRead book r m ∧ m.until_ ≤ closedAt
  | .closing r (.updated m closedAt) => StillRead book r m ∧ m.until_ ≤ closedAt
  | _ => True

/-- The lock a call holds: a close that has updated the row of its session. -/
def cashHeld : CashTask → Uuid → Prop
  | .closing r (.updated _ _), id => r.sessionId = id
  | _, _ => False

/-- Tables are only appended to, and a close keeps the opening of a session. -/
structure Grows (book book' : CashBook) : Prop where
  now : book.now ≤ book'.now
  payments : book.payments <+: book'.payments
  refunds : book.refunds <+: book'.refunds
  movements : book.movements <+: book'.movements
  sessions : ∀ x' ∈ book'.sessions, ∃ x ∈ book.sessions, x.id = x'.id
    ∧ x.openedAt = x'.openedAt ∧ x.openingFloatMinor = x'.openingFloatMinor

/-- The session a close has found stays where it was. -/
theorem Opened.grown {book book' : CashBook} {r : CloseCall} {s : CashSession}
    (h : Opened book r s) (hg : Grows book book') : Opened book' r s := by
  refine ⟨h.id, ?_⟩
  intro x' hx' hid
  obtain ⟨x, hx, hsame, hopened, hfloat⟩ := hg.sessions x' hx'
  obtain ⟨h1, h2⟩ := h.row x hx (hsame.trans hid)
  exact ⟨hopened.symm.trans h1, hfloat.symm.trans h2⟩

/-- What a close has read stays in the book. -/
theorem StillRead.grown {book book' : CashBook} {r : CloseCall} {m : Readings}
    (h : StillRead book r m) (hg : Grows book book') : StillRead book' r m where
  opened := h.opened.grown hg
  until_ := h.until_.trans hg.now
  payments := h.payments.trans hg.payments
  refunds := h.refunds.trans hg.refunds
  movements := h.movements.trans hg.movements

/-- **Stability**: what a call relies on stands while the book grows. -/
theorem CashKnows.grown {book book' : CashBook} {t : CashTask} (h : CashKnows book t)
    (hg : Grows book book') : CashKnows book' t := by
  cases t with
  | closing r phase =>
      cases phase with
      | asked => trivial
      | found s => exact Opened.grown h hg
      | timed s until_ => exact StillRead.grown h hg
      | paymentsRead s until_ payments => exact StillRead.grown h hg
      | refundsRead s until_ payments refunds => exact StillRead.grown h hg
      | settled m => exact StillRead.grown h hg
      | dated m closedAt => exact ⟨h.1.grown hg, h.2⟩
      | updated m closedAt => exact ⟨h.1.grown hg, h.2⟩
  | _ => trivial

/-! ## §3. What a statement does. -/

/-- What the next statement can be. -/
inductive CashMoves (book : CashBook) : CashTask → CashTurn → Prop where
  | fails {t : CashTask} (e : ApiError) : CashMoves book t (.rollback (failed e))
  | opens {r : CloseCall} {s : CashSession} (hopen : r.findOpen book = .ok s) :
      CashMoves book (.closing r .asked) (.go (.closing r (.found s)))
  | reads {r : CloseCall} {p p' : ClosePhase}
      (hknow : CashKnows book (.closing r p) → CashKnows book (.closing r p'))
      (hheld : ∀ id, ¬ cashHeld (.closing r p') id) :
      CashMoves book (.closing r p) (.go (.closing r p'))
  | updates {r : CloseCall} {m : Readings} {closedAt : Instant} :
      CashMoves book (.closing r (.dated m closedAt))
        (.lock r.sessionId (.closing r (.updated m closedAt)))
  | closes {r : CloseCall} {m : Readings} {closedAt : Instant} :
      CashMoves book (.closing r (.updated m closedAt))
        (.commit (book.closed r m.session.notes closedAt m.expected) (.answered (.ok ())))
  | stages {t t' : CashTask} (hknow : ∀ book', CashKnows book' t')
      (hheld : ∀ id, ¬ cashHeld t' id) : CashMoves book t (.go t')
  | moves {m : CashMovement} :
      CashMoves book (.moved m) (.commit (book.withMovement m) (.answered (.ok ())))
  | pays {p : Payment} : CashMoves book (.paid p)
      (.commit { book with payments := book.payments ++ [p] } (.answered (.ok ())))
  | refunds {r : Refund} : CashMoves book (.refunded r)
      (.commit { book with refunds := book.refunds ++ [r] } (.answered (.ok ())))
  | idles {t : CashTask} : CashMoves book t .idle

/-- A check, or the end of the call. -/
theorem CashMoves.orRollback {α : Type} {book : CashBook} {t : CashTask} {x : Except ApiError α}
    {next : α → CashTurn} (h : ∀ a, x = .ok a → CashMoves book t (next a)) :
    CashMoves book t (.orRollback x failed next) :=
  Turn.orRollback_rec (p := CashMoves book t) .fails h

/-- **The step inversion.** -/
theorem cashTurn_moves (book : CashBook) (t : CashTask) : CashMoves book t (cashTurn book t) := by
  -- one case for each place a call can stand at
  cases t with
  | closing r phase =>
      cases phase with
      | asked => exact .orRollback fun _ h => .opens h
      | found s =>
          refine .reads (fun h => ?_) fun _ => id
          exact ⟨h, le_refl _, List.nil_prefix, List.nil_prefix, List.nil_prefix⟩
      | timed s until_ =>
          refine .reads (fun h => ?_) fun _ => id
          exact ⟨h.opened, h.until_, List.prefix_refl _, h.refunds, h.movements⟩
      | paymentsRead s until_ payments =>
          refine .reads (fun h => ?_) fun _ => id
          exact ⟨h.opened, h.until_, h.payments, List.prefix_refl _, h.movements⟩
      | refundsRead s until_ payments refunds =>
          refine .reads (fun h => ?_) fun _ => id
          exact ⟨h.opened, h.until_, h.payments, h.refunds, List.prefix_refl _⟩
      | settled m => exact .reads (fun h => ⟨h, h.until_⟩) fun _ => id
      | dated m closedAt => exact .orRollback fun _ _ => .updates
      | updated m closedAt => exact .closes
  | asked r => exact .orRollback fun _ _ => .stages (fun _ => trivial) fun _ => id
  | found r startedAt => exact .stages (fun _ => trivial) fun _ => id
  | moved m => exact .moves
  | paying p => exact .stages (fun _ => trivial) fun _ => id
  | paid p => exact .pays
  | refunding r => exact .stages (fun _ => trivial) fun _ => id
  | refunded r => exact .refunds
  | answered result => exact .idles

theorem cashSession_inverts : cashSession.Inverts CashMoves := fun _ => cashTurn_moves

/-- Ids are a primary key. -/
def IdsUnique (book : CashBook) : Prop := (book.sessions.map (·.id)).Nodup

theorem closed_ids (book : CashBook) (r : CloseCall) (notes : Option String) (closedAt : Instant)
    (expected : ℤ) :
    (book.closed r notes closedAt expected).sessions.map (·.id) = book.sessions.map (·.id) := by
  unfold CashBook.closed
  rw [List.map_map]
  refine List.map_congr_left fun s _ => ?_
  show (if s.id = r.sessionId then _ else s : CashSession).id = s.id
  split <;> rfl

/-- A book that only gets rows. -/
theorem grows_same {book book' : CashBook} (hnow : book.now ≤ book'.now)
    (hpayments : book.payments <+: book'.payments) (hrefunds : book.refunds <+: book'.refunds)
    (hmovements : book.movements <+: book'.movements) (hsessions : book'.sessions = book.sessions) :
    Grows book book' :=
  ⟨hnow, hpayments, hrefunds, hmovements,
    fun x hx => ⟨x, hsessions ▸ hx, rfl, rfl, rfl⟩⟩

/-- A close leaves the rows of the book. -/
theorem grows_closed (book : CashBook) (r : CloseCall) (notes : Option String)
    (closedAt : Instant) (expected : ℤ) :
    Grows book (book.closed r notes closedAt expected) where
  now := le_refl _
  payments := List.prefix_refl _
  refunds := List.prefix_refl _
  movements := List.prefix_refl _
  sessions x' hx' := by
    obtain ⟨x, hx, rfl⟩ := List.mem_map.mp hx'
    refine ⟨x, hx, ?_⟩
    split
    · exact ⟨rfl, rfl, rfl⟩
    · exact ⟨rfl, rfl, rfl⟩

/-- The session that is found is open. -/
theorem findOpen_ok {book : CashBook} {sessionId : Uuid} {message : String} {s : CashSession}
    (h : findOpen book sessionId message = .ok s) :
    s ∈ book.sessions ∧ s.id = sessionId ∧ s.status = .open := by
  unfold findOpen at h
  simp only [bind_ok, found_ok, require_ok, pure_ok] at h
  obtain ⟨x, hfind, -, hopen, rfl⟩ := h
  exact ⟨List.mem_of_find?_eq_some hfind, by simpa using List.find?_some hfind, hopen⟩

/-- The session that was found is the only one with its id. -/
theorem opened_found {book : CashBook} {r : CloseCall} {s : CashSession} (hids : IdsUnique book)
    (h : r.findOpen book = .ok s) : Opened book r s := by
  obtain ⟨hs, hid, -⟩ := findOpen_ok h
  refine ⟨hid, ?_⟩
  intro x hx hxid
  rw [List.inj_on_of_nodup_map hids hx hs (hxid.trans hid.symm)]
  exact ⟨rfl, rfl⟩

/-- What a commit leaves standing. -/
theorem moves_grow {book book' : CashBook} {t t' : CashTask}
    (h : CashMoves book t (.commit book' t')) :
    Grows book book' ∧ book'.sessions.map (·.id) = book.sessions.map (·.id)
      ∧ t' = .answered (.ok ()) := by
  cases h with
  | closes => exact ⟨grows_closed .., closed_ids .., rfl⟩
  | moves =>
      exact ⟨grows_same (le_refl _) (List.prefix_refl _) (List.prefix_refl _)
        (List.prefix_append _ _) rfl, rfl, rfl⟩
  | pays =>
      exact ⟨grows_same (le_refl _) (List.prefix_append _ _) (List.prefix_refl _)
        (List.prefix_refl _) rfl, rfl, rfl⟩
  | refunds =>
      exact ⟨grows_same (le_refl _) (List.prefix_refl _) (List.prefix_append _ _)
        (List.prefix_refl _) rfl, rfl, rfl⟩

/-- **What a transaction has read is still there.** -/
theorem cashSession_knows : cashSession.Knows IdsUnique CashKnows cashHeld where
  start book r _ := by
    cases r <;> exact ⟨trivial, fun _ => id⟩
  go _ book t t' hids hk h := by
    cases cashSession_inverts.moves h with
    | opens hopen => exact ⟨opened_found hids hopen, fun _ => False.elim⟩
    | reads hknow hheld => exact ⟨hknow hk, fun id hid => absurd hid (hheld id)⟩
    | stages hknow hheld => exact ⟨hknow book, fun id hid => absurd hid (hheld id)⟩
  lock _ book t t' k _ hk h := by
    cases cashSession_inverts.moves h with
    | updates => exact ⟨hk, fun id hid => .inl hid.symm⟩
  commit _ book t book' t' hids _ h := by
    have hmoves := cashSession_inverts.moves h
    -- a commit only adds to the book, and what the others have read is still a part of it
    obtain ⟨hg, hsame, rfl⟩ := moves_grow hmoves
    refine ⟨?_, trivial, fun _ => id, fun u hu _ => hu.grown hg⟩
    unfold IdsUnique
    rw [hsame]
    exact hids
  rollback _ book t t' _ _ h := by
    cases cashSession_inverts.moves h with
    | fails e => exact ⟨trivial, fun _ => id⟩
  env book elapsed hids := by
    refine ⟨hids, fun u hu => hu.grown (grows_same ?_ ?_ ?_ ?_ rfl)⟩
    · exact le_add_of_nonneg_right (Int.natCast_nonneg _)
    · exact List.prefix_refl _
    · exact List.prefix_refl _
    · exact List.prefix_refl _

/-! ## §4. The snapshot. -/

/-- Settled again, a session comes to its snapshot. -/
structure Reprints (book : CashBook) (s : CashSession) : Prop where
  closedAt : s.closedAt.isSome = true
  expected : s.expectedCashMinor = some (withReport book s).expectedCashMinor
  variance : s.varianceMinor = (withReport book s).varianceMinor

/-- The session is still open. -/
def StillOpen (book : CashBook) (sessionId : Uuid) : Prop :=
  ∀ s ∈ book.sessions, s.id = sessionId → s.status = .open

/-- All the cash of the window up to `closedAt` was read. -/
structure AllRead (book : CashBook) (m : Readings) (closedAt : Instant) : Prop where
  payments : book.payments.countP (takenBy m.session.openedAt closedAt .cash)
    = m.payments.countP (takenBy m.session.openedAt m.until_ .cash)
  refunds : book.refunds.countP (returnedBy m.session.openedAt closedAt .cash)
    = m.refunds.countP (returnedBy m.session.openedAt m.until_ .cash)
  movements : ∀ type ∈ ([.payIn, .payOut] : List CashMovementType),
    book.movements.countP (movedBy m.session.id type)
      = m.movements.countP (movedBy m.session.id type)

instance (book : CashBook) (m : Readings) (closedAt : Instant) :
    Decidable (AllRead book m closedAt) :=
  decidable_of_iff (_ ∧ _ ∧ _) ⟨fun h => ⟨h.1, h.2.1, h.2.2⟩, fun h => ⟨h.1, h.2, h.3⟩⟩

/-- A transaction commits in time: a close with all its cash read and its session open,
anything else before the session it counts in is closed. -/
def InTime (book : CashBook) : CashTask → Prop
  | .closing r (.updated m closedAt) => StillOpen book r.sessionId ∧ AllRead book m closedAt
  | .moved m => StillOpen book m.sessionId
  | .paid p => ∀ s ∈ book.sessions, s.status = .closed →
      ∀ t ∈ s.closedAt, takenBy s.openedAt t .cash p = false
  | .refunded r => ∀ s ∈ book.sessions, s.status = .closed →
      ∀ t ∈ s.closedAt, returnedBy s.openedAt t .cash r = false
  | _ => True

instance (book : CashBook) (sessionId : Uuid) : Decidable (StillOpen book sessionId) :=
  inferInstanceAs (Decidable (∀ s ∈ book.sessions, s.id = sessionId → s.status = .open))

instance (book : CashBook) (t : CashTask) : Decidable (InTime book t) := by
  unfold InTime
  split <;> infer_instance

/-- Whoever moves with this step moves in time. -/
def StepInTime (c : Till) : SessionEvent CashCall Unit ℕ → Prop
  | .run i _ => ∀ t ∈ c.running i, InTime c.shared t
  | _ => True

instance (c : Till) (e : SessionEvent CashCall Unit ℕ) : Decidable (StepInTime c e) := by
  unfold StepInTime
  split <;> infer_instance

/-- Any number of payments, refunds, cash movements and closes at once. -/
def cashRace (book : CashBook) : System Till (SessionEvent CashCall Unit ℕ) :=
  cashSession.interleaved fun s => s = book

/-- Expected cash, as sums over the book. -/
theorem expectedCash_eq (book : CashBook) (s : CashSession) (t : Instant) :
    (settlement book s t).expectedCashMinor = s.openingFloatMinor
      + sumWhere (movedBy s.id .payIn) (·.amountMinor) book.movements
      - sumWhere (movedBy s.id .payOut) (·.amountMinor) book.movements
      + sumWhere (takenBy s.openedAt t .cash) (·.amountMinor) book.payments
      - sumWhere (returnedBy s.openedAt t .cash) (·.amountMinor) book.refunds := rfl

/-- A snapshot stands while the same cash is expected. -/
theorem Reprints.kept {book book' : CashBook} {s : CashSession} (h : Reprints book s)
    (hsame : ∀ t ∈ s.closedAt, (settlement book' s t).expectedCashMinor
      = (settlement book s t).expectedCashMinor) : Reprints book' s := by
  obtain ⟨hclosed, hexpected, hvariance⟩ := h
  obtain ⟨t, ht⟩ := Option.isSome_iff_exists.mp hclosed
  have hsame' := hsame t ht
  have hreport : ∀ b, withReport b s = settlement b s t := by
    intro b
    unfold withReport
    rw [ht]
    rfl
  rw [hreport] at hexpected hvariance
  refine ⟨hclosed, ?_, ?_⟩
  · rw [hreport, hsame']
    exact hexpected
  · rw [hreport, hvariance]
    show (if s.status = .closed then some (s.closingCountedMinor.getD 0
        - (settlement book s t).expectedCashMinor) else none)
      = if s.status = .closed then some (s.closingCountedMinor.getD 0
        - (settlement book' s t).expectedCashMinor) else none
    rw [hsame']

/-- What the close has read is what is settled up to its second instant. -/
theorem expected_allRead {book : CashBook} {r : CloseCall} {m : Readings} {closedAt : Instant}
    (hread : StillRead book r m) (hle : m.until_ ≤ closedAt) (hall : AllRead book m closedAt)
    {s : CashSession} (hid : s.id = m.session.id) (hopened : s.openedAt = m.session.openedAt)
    (hfloat : s.openingFloatMinor = m.session.openingFloatMinor) :
    (settlement book s closedAt).expectedCashMinor = m.expected := by
  have hwindow : ∀ t, inWindow m.session.openedAt m.until_ t = true →
      inWindow m.session.openedAt closedAt t = true := by
    intro t ht
    unfold inWindow at ht ⊢
    simp only [Bool.and_eq_true, decide_eq_true_eq] at ht ⊢
    exact ⟨ht.1, ht.2.trans hle⟩
  -- rows that came since count for nothing, so the sums are those that were read
  have hpayments := sumWhere_grown (fun p : Payment => p.amountMinor) hread.payments.sublist
    (fun p hp => by
      unfold takenBy at hp ⊢
      simp only [Bool.and_eq_true] at hp ⊢
      exact ⟨hp.1, hp.2.1, hwindow _ hp.2.2⟩) hall.payments
  have hrefunds := sumWhere_grown (fun r : Refund => r.amountMinor) hread.refunds.sublist
    (fun r hr => by
      unfold returnedBy at hr ⊢
      simp only [Bool.and_eq_true] at hr ⊢
      exact ⟨hr.1, hwindow _ hr.2⟩) hall.refunds
  have hin := sumWhere_grown (fun x : CashMovement => x.amountMinor) hread.movements.sublist
    (fun _ h => h) (hall.movements .payIn (by decide))
  have hout := sumWhere_grown (fun x : CashMovement => x.amountMinor) hread.movements.sublist
    (fun _ h => h) (hall.movements .payOut (by decide))
  rw [expectedCash_eq, hid, hopened, hfloat, hpayments, hrefunds, hin, hout]
  rfl

/-- One more row, which does not count. -/
theorem sumWhere_snoc {α : Type} {p : α → Bool} (f : α → ℤ) {l : List α} {a : α}
    (h : p a = false) : sumWhere p f (l ++ [a]) = sumWhere p f l := by
  rw [sumWhere_append, sumWhere_cons, sumWhere_nil, h]
  simp

/-- **A commit in time** changes no closed row, and leaves every snapshot as it would be
printed again. -/
theorem inTime_commit {book book' : CashBook} {t t' : CashTask} (hk : CashKnows book t)
    (hbook : ∀ s ∈ book.sessions, s.status = .closed → Reprints book s) (htime : InTime book t)
    (h : CashMoves book t (.commit book' t')) :
    (∀ s ∈ book.sessions, s.status = .closed → s ∈ book'.sessions)
      ∧ ∀ s ∈ book'.sessions, s.status = .closed → Reprints book' s := by
  cases h with
  | @moves m =>
      refine ⟨fun s hs _ => hs, fun s hs hclosed => (hbook s hs hclosed).kept fun t _ => ?_⟩
      -- the session of the movement is open, so it is another
      have hother : ∀ type, movedBy s.id type m = false := by
        intro type
        unfold movedBy
        rw [Bool.and_eq_false_iff]
        right
        rw [decide_eq_false_iff_not]
        intro hid
        have hopen := htime s hs hid.symm
        rw [hclosed] at hopen
        cases hopen
      simp only [expectedCash_eq, CashBook.withMovement, sumWhere_snoc _ (hother _)]
  | @pays p =>
      refine ⟨fun s hs _ => hs, fun s hs hclosed => (hbook s hs hclosed).kept fun t ht => ?_⟩
      simp only [expectedCash_eq, sumWhere_snoc _ (htime s hs hclosed t ht)]
  | @refunds r =>
      refine ⟨fun s hs _ => hs, fun s hs hclosed => (hbook s hs hclosed).kept fun t ht => ?_⟩
      simp only [expectedCash_eq, sumWhere_snoc _ (htime s hs hclosed t ht)]
  | @closes r m closedAt =>
      obtain ⟨hread, hle⟩ := hk
      obtain ⟨hopen, hall⟩ := htime
      constructor
      · -- the UPDATE finds no closed row
        intro s hs hclosed
        refine List.mem_map.mpr ⟨s, hs, ?_⟩
        rw [if_neg]
        intro hid
        have hstill := hopen s hs hid
        rw [hclosed] at hstill
        cases hstill
      · intro s' hs' hclosed
        obtain ⟨s, hs, rfl⟩ := List.mem_map.mp hs'
        by_cases hid : s.id = r.sessionId
        · -- the session that is closed here
          rw [if_pos hid]
          obtain ⟨hopened, hfloat⟩ := hread.opened.row s hs hid
          have hexpected : (settlement (book.closed r m.session.notes closedAt m.expected)
              (s.close r m.session.notes closedAt m.expected) closedAt).expectedCashMinor
              = m.expected :=
            expected_allRead hread hle hall (s := s) (hid.trans hread.opened.id.symm) hopened hfloat
          refine ⟨rfl, ?_, ?_⟩
          · exact congrArg some hexpected.symm
          · show some (r.dto.closingCountedMinor - m.expected)
              = some (r.dto.closingCountedMinor - (settlement _ _ closedAt).expectedCashMinor)
            rw [hexpected]
        · rw [if_neg hid] at hclosed ⊢
          exact (hbook s hs hclosed).kept fun t _ => rfl

/-- The closed sessions reprint, ids are unique, and the sessions know what they have read. -/
structure Reprinted (c : Till) : Prop where
  known : Session.Invariant IdsUnique CashKnows cashHeld c
  reprints : ∀ s ∈ c.shared.sessions, s.status = .closed → Reprints c.shared s

/-- Time passing prints nothing else: a closed session has its own instant. -/
theorem Reprints.tick {book : CashBook} {s : CashSession} (h : Reprints book s) (elapsed : ℕ) :
    Reprints (book.tick elapsed) s :=
  h.kept fun _ _ => rfl

/-- **The step lemma.** -/
theorem reprinted_step {c c' : Till} {e : SessionEvent CashCall Unit ℕ} (hc : Reprinted c)
    (htime : StepInTime c e) (h : cashSession.act c e = some c') :
    Reprinted c' ∧ ∀ s ∈ c.shared.sessions, s.status = .closed → s ∈ c'.shared.sessions := by
  have hknown := Session.invariant_step cashSession_knows hc.known h
  -- only a commit and the clock change what is committed
  cases cashSession.act_moved h with
  | began _ => exact ⟨⟨hknown, hc.reprints⟩, fun s hs _ => hs⟩
  | went _ _ => exact ⟨⟨hknown, hc.reprints⟩, fun s hs _ => hs⟩
  | locked _ _ _ => exact ⟨⟨hknown, hc.reprints⟩, fun s hs _ => hs⟩
  | rolledBack _ _ => exact ⟨⟨hknown, hc.reprints⟩, fun s hs _ => hs⟩
  | dropped => exact ⟨⟨hknown, hc.reprints⟩, fun s hs _ => hs⟩
  | elsewhere =>
      exact ⟨⟨hknown, fun s hs hclosed => (hc.reprints s hs hclosed).tick _⟩, fun s hs _ => hs⟩
  | @committed i o book' t t' hi hturn =>
      have hmoves := cashSession_inverts.moves hturn
      obtain ⟨hkept, hreprints⟩ :=
        inTime_commit (hc.known.2 i t hi).1 hc.reprints (htime t hi) hmoves
      exact ⟨⟨hknown, hreprints⟩, hkept⟩

/-- **The Z-report reprints identically forever**, in the runs where whatever counts in a
session commits before it is closed, and once. -/
theorem zReport_reprints {book : CashBook} (hids : IdsUnique book)
    (hbook : ∀ s ∈ book.sessions, s.status = .closed → Reprints book s) {c : Till}
    (h : ((cashRace book).restrict StepInTime).Reachable c) {s : CashSession}
    (hs : s ∈ c.shared.sessions) (hclosed : s.status = .closed) :
    Reprints c.shared s ∧ ∀ trace c', ((cashRace book).restrict StepInTime).Run c trace c' →
      s ∈ c'.shared.sessions ∧ Reprints c'.shared s := by
  have hc : Reprinted c := by
    refine h.invariant Reprinted ?_ fun _ _ _ hc hstep =>
      (reprinted_step hc (And.left hstep) (And.right hstep)).1
    rintro c₀ ⟨rfl, hnone, -⟩
    refine ⟨⟨hids, ?_⟩, hbook⟩
    intro i t ht
    rw [hnone i] at ht
    cases ht
  refine ⟨hc.reprints s hs hclosed, ?_⟩
  intro trace c' hrun
  -- along the run: the row is still there, and closed rows reprint
  have hafter := hrun.preserves (fun c => Reprinted c ∧ s ∈ c.shared.sessions)
    (fun _ _ _ hI hstep => by
      obtain ⟨hnext, hkept⟩ := reprinted_step hI.1 hstep.1 hstep.2
      exact ⟨hnext, hkept s hI.2 hclosed⟩) ⟨hc, hs⟩
  exact ⟨hafter.2, hafter.1.reprints s hafter.2 hclosed⟩

/-! ## §5. Two drawers. -/

/-- A session open since noon, with a float of ₹10. -/
def morningTill : CashSession where
  id := 1
  status := .open
  branchId := 2
  openingFloatMinor := 1000
  openedByUserId := 3
  openedAt := 100
  closedByUserId := none
  closedAt := none
  closingCountedMinor := none
  expectedCashMinor := none
  varianceMinor := none
  notes := none
  float_nonneg := by decide

/-- A till opened in the morning, and nothing else. -/
def morningBook : CashBook := ⟨[], [], [], [morningTill], 100⟩

/-- Who is at the till. -/
def counter : TenantContext := ⟨10, 3, 12, []⟩

/-- The till is counted and closed. -/
def countedTill : CloseCall :=
  ⟨counter, 1, { closingCountedMinor := 1500, notes := none, counted_ok := by decide }⟩

/-- Change is brought from the bank. -/
def changeBrought : MovementCall :=
  ⟨counter, 1, { type := .payIn, amountMinor := 500, reason := "change", amount_ok := by decide }⟩

/-- A lassi is paid. -/
def cashPaid : Payment where
  orderId := 5
  method := .cash
  status := .captured
  amountMinor := 700
  reference := none
  idempotencyKey := none
  createdAt := 0
  amount_pos := by decide

/-- Change is brought, the till is closed, and a payment follows. -/
def closedInTime : List (SessionEvent CashCall Unit ℕ) :=
  [.env 10, .begin 0 (.recordMovement changeBrought), .run 0 (), .run 0 (), .run 0 (),
    .begin 1 (.close countedTill), .run 1 (), .run 1 (), .run 1 (), .run 1 (), .run 1 (),
    .env 5, .run 1 (), .run 1 (), .run 1 (),
    .env 5, .begin 2 (.payment cashPaid), .run 2 (), .run 2 ()]

theorem closedInTime_runs :
    (System.replay (System.guarded StepInTime cashSession.act) closedInTime
      (Session.quiet morningBook)).isSome = true := by
  decide +kernel

/-- The till is closed on what was counted in it, and prints the same after the payment. -/
theorem zReport_reprints_closedInTime :
    ∃ c : Till, ∃ s ∈ c.shared.sessions, s.expectedCashMinor = some 1500
      ∧ c.shared.payments.length = 1 ∧ Reprints c.shared s := by
  have h : ((cashRace morningBook).restrict StepInTime).Reachable _ :=
    Session.replay_guarded (by rfl) closedInTime (Option.some_get closedInTime_runs).symm
  have hids : IdsUnique morningBook := List.nodup_singleton _
  have hbook : ∀ s ∈ morningBook.sessions, s.status = .closed → Reprints morningBook s := by
    intro s hs hclosed
    rw [List.mem_singleton.mp hs] at hclosed
    cases hclosed
  have hs : morningTill.close countedTill none 115 1500
      ∈ (Option.get _ closedInTime_runs).shared.sessions := .head _
  exact ⟨_, _, hs, rfl, by decide +kernel,
    (zReport_reprints hids hbook h hs rfl).1⟩

/-- The till is closed between the check of a pay-in and its insert: the close has settled
without it. -/
def paidInLate : List (SessionEvent CashCall Unit ℕ) :=
  [.env 10, .begin 0 (.recordMovement changeBrought), .run 0 (), .run 0 (),
    .begin 1 (.close countedTill), .run 1 (), .run 1 (), .run 1 (), .run 1 (), .run 1 (),
    .run 1 (), .run 1 (), .run 1 (), .run 0 ()]

theorem paidInLate_runs :
    (System.replay cashSession.act paidInLate (Session.quiet morningBook)).isSome = true := by
  decide +kernel

/-- The till was closed expecting ₹10, and is printed expecting ₹15. -/
theorem late_payIn_prints_another :
    ∃ c, (cashRace morningBook).Reachable c ∧ ∃ s ∈ c.shared.sessions, s.status = .closed
      ∧ s.expectedCashMinor = some 1000 ∧ (withReport c.shared s).expectedCashMinor = 1500 := by
  have h : (cashRace morningBook).Reachable _ :=
    Session.replay_reached (by rfl) paidInLate (Option.some_get paidInLate_runs).symm
  refine ⟨_, h, morningTill.close countedTill none 110 1000, .head _, rfl, rfl, ?_⟩
  decide +kernel

end OraOS.Cash
