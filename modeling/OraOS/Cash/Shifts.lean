/-
  OraOS.Cash.Shifts — till sessions one after another: `open` beside everything that goes
  on in a drawer.

  A session is dated by the start of the transaction that opens it, and the partial unique
  index lets its row in when no other is open.  So there is one drawer at a time; that two
  windows do not overlap takes more: the till is shut once, and opened after that.

    * `openSession`       — `CashService.open`;
    * `openTurn`          — its statements, beside those of the other transactions;
    * `one_till_open`     — one session is open at a time, whatever happens at once;
    * `drawers_account`   — the reports of all sessions count each rupee once;
    * `counted_in_both`   — a till opened over its own close counts a payment twice.
-/
import OraOS.Cash.CloseRace

namespace OraOS.Cash

open OraOS.Api
open OraOS.Lib

/-! ## §1. Opening the till. -/

/-- `OpenSessionDto`, with its bounds. -/
structure OpenSessionDto where
  openingFloatMinor : ℤ
  notes : Option String
  float_ok : 0 ≤ openingFloatMinor ∧ openingFloatMinor ≤ maxCash

/-- A call of `open`; the id of the row is drawn by the client. -/
structure OpenCall where
  ctx : TenantContext
  newId : Uuid
  dto : OpenSessionDto

/-- The row of a session as it is opened. -/
def OpenCall.row (r : OpenCall) (branchId : Uuid) (openedAt : Instant) : CashSession where
  id := r.newId
  status := .open
  branchId := branchId
  openingFloatMinor := r.dto.openingFloatMinor
  openedByUserId := r.ctx.userId
  openedAt := openedAt
  closedByUserId := none
  closedAt := none
  closingCountedMinor := none
  expectedCashMinor := none
  varianceMinor := none
  notes := r.dto.notes
  float_nonneg := r.dto.float_ok.1

/-- The oldest active branch. -/
def firstBranch (branches : List Branch) : Option Branch :=
  ((branches.filter (·.isActive)).insertionSort fun a b => a.createdAt ≤ b.createdAt).head?

/-- The session that is open. -/
def CashBook.findCurrent (book : CashBook) : Option CashSession :=
  book.sessions.find? fun s => decide (s.status = .open)

/-- `CashService.current`. -/
def current (book : CashBook) : Option (CashSession × Settlement) :=
  book.findCurrent.map fun s => (s, withReport book s)

/-- The primary key and `cash_sessions_one_open_per_tenant` let the row in. -/
def Admits (book : CashBook) (s : CashSession) : Prop :=
  ∀ x ∈ book.sessions, x.id ≠ s.id ∧ x.status ≠ .open

instance (book : CashBook) (s : CashSession) : Decidable (Admits book s) :=
  inferInstanceAs (Decidable (∀ x ∈ book.sessions, x.id ≠ s.id ∧ x.status ≠ .open))

/-- `isUniqueViolation`: whichever index it was. -/
def alreadyOpen : ApiError :=
  .conflict "A till session is already open — close it before opening another"

/-- The book with one more session. -/
def CashBook.opened (book : CashBook) (s : CashSession) : CashBook :=
  { book with sessions := book.sessions ++ [s] }

/-- `CashService.open`. -/
def openSession (branches : List Branch) (book : CashBook) (r : OpenCall) :
    Except ApiError CashBook := do
  let branch ← found (firstBranch branches) .recordNotFound
  let s := r.row branch.id book.now
  require (Admits book s) alreadyOpen
  pure (book.opened s)

/-! ## §2. Its transaction, beside the others. -/

/-- The statement an open is at, with what it has read. -/
inductive OpenPhase where
  | asked
  | found (branchId : Uuid) (openedAt : Instant)
  /-- the only INSERT of an open row that is under way -/
  | entered (branchId : Uuid) (openedAt : Instant)
  | inserted (branchId : Uuid) (openedAt : Instant)

/-- What is left of a call. -/
inductive DrawerTask where
  | opening (r : OpenCall) (phase : OpenPhase)
  | cash (t : CashTask)

/-- What reaches the tables of the till, opens included. -/
inductive DrawerCall where
  | open (r : OpenCall)
  | cash (call : CashCall)

/-- What a call can wait for. -/
inductive DrawerLock where
  /-- the one entry of `cash_sessions_one_open_per_tenant` -/
  | openEntry
  | row (id : Uuid)
  deriving DecidableEq

/-- Where a call begins. -/
def DrawerCall.start : DrawerCall → DrawerTask
  | .open r => .opening r .asked
  | .cash call => .cash call.start

/-- What a statement does. -/
abbrev DrawerTurn := Turn CashBook DrawerTask DrawerLock

/-- An open that ends with an error. -/
def refused (e : ApiError) : DrawerTask := .cash (failed e)

/-- The statements of `open`. -/
def openTurn (branches : List Branch) (book : CashBook) (r : OpenCall) : OpenPhase → DrawerTurn
  -- the row will be dated by the start of the transaction
  | .asked => .orRollback (found (firstBranch branches) .recordNotFound) refused fun branch =>
      .go (.opening r (.found branch.id book.now))
  | .found branchId openedAt => .lock .openEntry (.opening r (.entered branchId openedAt))
  -- an UPDATE of the open row that is under way is waited for: then this comes later
  | .entered branchId openedAt =>
      .orRollback (require (Admits book (r.row branchId openedAt)) alreadyOpen) refused fun _ =>
        .go (.opening r (.inserted branchId openedAt))
  | .inserted branchId openedAt =>
      .commit (book.opened (r.row branchId openedAt)) (.cash (.answered (.ok ())))

/-- The next statement of a call. -/
def drawerTurn (branches : List Branch) (book : CashBook) : DrawerTask → DrawerTurn
  | .opening r phase => openTurn branches book r phase
  | .cash t => (cashTurn book t).map .cash .row

/-- The calls as sessions of the database. -/
def drawerSession (branches : List Branch) :
    Session CashBook DrawerTask DrawerCall DrawerLock Unit ℕ where
  start := DrawerCall.start
  turn _ := drawerTurn branches
  env := CashBook.tick

/-- Their state, all together. -/
abbrev Drawers := Sessions CashBook DrawerTask DrawerLock

/-- What can happen next. -/
abbrev DrawerEvent := SessionEvent DrawerCall Unit ℕ

/-- What an open leaves, and its answer. -/
def drawerLeft (book : CashBook) : Except ApiError CashBook → CashBook × DrawerTask
  | .ok book' => (book', .cash (.answered (.ok ())))
  | .error e => (book, refused e)

/-- How a call ends on its own. -/
def DrawerEnds (book : CashBook) (out : Except ApiError CashBook) (book' : CashBook)
    (t : DrawerTask) : Prop :=
  drawerLeft book out = (book', t)

/-- On its own an open ends as `openSession` does. -/
theorem open_settles (branches : List Branch) (book : CashBook) (r : OpenCall) :
    (drawerSession branches).Settles (DrawerEnds book) book (.opening r .asked)
      (openSession branches book r) := by
  have hfail : ∀ e, (drawerSession branches).Settles (DrawerEnds book) book (refused e)
      (.error e) := fun _ => .ended rfl
  unfold openSession
  refine .check (o := ()) rfl hfail fun branch _ hturn => .go hturn ?_
  refine .lock (o := ()) rfl ?_
  exact .check (o := ()) rfl hfail fun _ _ hturn =>
    .go hturn (.commit (o := ()) rfl (.ended rfl))

/-- **On its own an open is `openSession`.** -/
theorem open_alone (branches : List Branch) (book : CashBook) (r : OpenCall) :
    (drawerSession branches).Leads book (.opening r .asked)
      (drawerLeft book (openSession branches book r)).1
      (drawerLeft book (openSession branches book r)).2 := by
  obtain ⟨book', t, hleads, hends⟩ := open_settles branches book r
  rw [show drawerLeft book (openSession branches book r) = (book', t) from hends]
  exact hleads

/-! ## §3. What a statement does. -/

/-- A cash movement that is on its way belongs to a session. -/
def Seated (book : CashBook) : CashTask → Prop
  | .found r _ => r.sessionId ∈ book.sessions.map (·.id)
  | .moved m => m.sessionId ∈ book.sessions.map (·.id)
  | _ => True

/-- What a call in flight relies on. -/
def DrawerKnows (book : CashBook) : DrawerTask → Prop
  | .opening r (.inserted branchId openedAt) => Admits book (r.row branchId openedAt)
  | .opening _ _ => True
  | .cash t => Seated book t

/-- What a call holds on to. -/
def drawerHolds : DrawerTask → DrawerLock → Prop
  | .opening _ (.entered _ _), .openEntry => True
  | .opening _ (.inserted _ _), .openEntry => True
  | _, _ => False

/-- What the next statement can be. -/
inductive DrawerMoves (book : CashBook) : DrawerTask → DrawerTurn → Prop where
  | fails {t : DrawerTask} (e : ApiError) : DrawerMoves book t (.rollback (refused e))
  | goes {r : OpenCall} {p p' : OpenPhase} (hknow : DrawerKnows book (.opening r p'))
      (hheld : ∀ k, drawerHolds (.opening r p') k → drawerHolds (.opening r p) k) :
      DrawerMoves book (.opening r p) (.go (.opening r p'))
  | enters {r : OpenCall} {branchId : Uuid} {openedAt : Instant} :
      DrawerMoves book (.opening r (.found branchId openedAt))
        (.lock .openEntry (.opening r (.entered branchId openedAt)))
  | opens {r : OpenCall} {branchId : Uuid} {openedAt : Instant} :
      DrawerMoves book (.opening r (.inserted branchId openedAt))
        (.commit (book.opened (r.row branchId openedAt)) (.cash (.answered (.ok ()))))
  | cash {t : CashTask} : DrawerMoves book (.cash t) ((cashTurn book t).map .cash .row)

/-- A check, or the end of the call. -/
theorem DrawerMoves.orRollback {α : Type} {book : CashBook} {t : DrawerTask}
    {x : Except ApiError α} {next : α → DrawerTurn}
    (h : ∀ a, x = .ok a → DrawerMoves book t (next a)) :
    DrawerMoves book t (.orRollback x refused next) :=
  Turn.orRollback_rec (p := DrawerMoves book t) .fails h

/-- **The step inversion.** -/
theorem drawerTurn_moves (branches : List Branch) (book : CashBook) (t : DrawerTask) :
    DrawerMoves book t (drawerTurn branches book t) := by
  cases t with
  | cash t => exact .cash
  | opening r phase =>
      cases phase with
      | asked => exact .orRollback fun _ _ => .goes trivial fun _ => id
      | found branchId openedAt => exact .enters
      | entered branchId openedAt =>
          refine .orRollback fun _ hrequire => ?_
          have hadmits : Admits book (r.row branchId openedAt) := require_ok.mp hrequire
          refine .goes hadmits ?_
          intro k hk
          cases k with
          | openEntry => trivial
          | row id => exact hk
      | inserted branchId openedAt => exact .opens

theorem drawerSession_inverts (branches : List Branch) :
    (drawerSession branches).Inverts DrawerMoves := fun _ => drawerTurn_moves branches

/-- A close goes on as a close. -/
theorem closeTurn_go {book : CashBook} {r : CloseCall} {phase : ClosePhase} {t' : CashTask}
    (h : closeTurn book r phase = .go t') : ∃ p, t' = .closing r p := by
  revert h
  cases phase with
  | asked =>
      refine Turn.orRollback_rec (p := fun x => x = .go t' → _) (fun _ h => ?_) fun s _ h => ?_
      · cases h
      · cases h
        exact ⟨_, rfl⟩
  | dated m closedAt =>
      refine Turn.orRollback_rec (p := fun x => x = .go t' → _) (fun _ h => ?_) fun _ _ h => ?_
      · cases h
      · cases h
  | updated m closedAt =>
      intro h
      cases h
  | _ =>
      intro h
      cases h
      exact ⟨_, rfl⟩

/-- A movement that goes on is of a session that was found. -/
theorem seated_go {book : CashBook} {t t' : CashTask} (hk : Seated book t)
    (h : cashTurn book t = .go t') : Seated book t' := by
  -- only a movement names a session; it was found open
  cases t with
  | closing r phase =>
      obtain ⟨p, rfl⟩ := closeTurn_go h
      trivial
  | asked r =>
      revert h
      refine Turn.orRollback_rec (p := fun x => x = .go t' → _) (fun _ h => ?_) fun s hfind h => ?_
      · cases h
      · cases h
        obtain ⟨hs, hid, -⟩ := findOpen_ok hfind
        show r.sessionId ∈ book.sessions.map (·.id)
        exact hid ▸ List.mem_map_of_mem hs
  | found r startedAt =>
      cases h
      exact hk
  | paying p =>
      cases h
      trivial
  | refunding r =>
      cases h
      trivial
  | moved m => cases h
  | paid p => cases h
  | refunded r => cases h
  | answered result => cases h

/-! ## §4. One drawer at a time. -/

/-- Sessions have ids of their own, one at most is open, the others have the instant they
were closed at, and each cash movement has its session. -/
structure OneDrawer (book : CashBook) : Prop where
  ids : IdsUnique book
  status : ∀ s ∈ book.sessions, s.status = .open ↔ s.closedAt = none
  one : book.sessions.Pairwise fun a b => ¬ (a.status = .open ∧ b.status = .open)
  seated : ∀ m ∈ book.movements, m.sessionId ∈ book.sessions.map (·.id)

theorem opened_ids (book : CashBook) (s : CashSession) :
    (book.opened s).sessions.map (·.id) = book.sessions.map (·.id) ++ [s.id] := List.map_append

/-- What a close makes of a row. -/
theorem closed_row {book : CashBook} {r : CloseCall} {notes : Option String} {closedAt : Instant}
    {expected : ℤ} {s' : CashSession}
    (h : s' ∈ (book.closed r notes closedAt expected).sessions) :
    ∃ s ∈ book.sessions, s'.id = s.id ∧ (s' = s ∨ s'.status = .closed ∧ s'.closedAt.isSome) := by
  obtain ⟨s, hs, rfl⟩ := List.mem_map.mp h
  refine ⟨s, hs, ?_⟩
  split
  · exact ⟨rfl, .inr ⟨rfl, rfl⟩⟩
  · exact ⟨rfl, .inl rfl⟩

/-- Where a session may be opened it may after a close. -/
theorem Admits.closed {book : CashBook} {x : CashSession} (h : Admits book x) (r : CloseCall)
    (notes : Option String) (closedAt : Instant) (expected : ℤ) :
    Admits (book.closed r notes closedAt expected) x := by
  intro s' hs'
  obtain ⟨s, hs, hid, hrow⟩ := closed_row hs'
  obtain ⟨hne, hstatus⟩ := h s hs
  refine ⟨hid ▸ hne, ?_⟩
  rcases hrow with rfl | ⟨hclosed, -⟩
  · exact hstatus
  · rw [hclosed]
    exact CashSessionStatus.noConfusion

/-- An open keeps the drawer one, where no session is open. -/
theorem OneDrawer.opened {book : CashBook} {s : CashSession} (h : OneDrawer book)
    (hadmits : Admits book s) (hopen : s.status = .open) (hlive : s.closedAt = none) :
    OneDrawer (book.opened s) where
  ids := nodup_keys_append h.ids fun x hx => (hadmits x hx).1
  status x hx := by
    rcases List.mem_append.mp hx with hx | hx
    · exact h.status x hx
    · rw [List.mem_singleton.mp hx]
      exact iff_of_true hopen hlive
  one := by
    refine List.pairwise_append.mpr ⟨h.one, List.pairwise_singleton _ _, ?_⟩
    intro x hx y _ hboth
    exact (hadmits x hx).2 hboth.1
  seated m hm := by
    rw [opened_ids]
    exact List.mem_append_left _ (h.seated m hm)

theorem OneDrawer.closed {book : CashBook} (h : OneDrawer book) (r : CloseCall)
    (notes : Option String) (closedAt : Instant) (expected : ℤ) :
    OneDrawer (book.closed r notes closedAt expected) where
  ids := by
    unfold IdsUnique
    rw [closed_ids]
    exact h.ids
  status s' hs' := by
    -- a closed row has a closing time, as its status says
    obtain ⟨s, hs, -, hrow⟩ := closed_row hs'
    rcases hrow with rfl | ⟨hclosed, hdated⟩
    · exact h.status s' hs
    · rw [hclosed]
      refine iff_of_false CashSessionStatus.noConfusion ?_
      intro hnone
      rw [hnone] at hdated
      cases hdated
  one := by
    refine List.Pairwise.map _ ?_ h.one
    intro a b hab hboth
    refine hab ⟨?_, ?_⟩
    · have ha := hboth.1
      split at ha
      · cases ha
      · exact ha
    · have hb := hboth.2
      split at hb
      · cases hb
      · exact hb
  seated m hm := by
    rw [closed_ids]
    exact h.seated m hm

theorem OneDrawer.withMovement {book : CashBook} {m : CashMovement} (h : OneDrawer book)
    (hm : m.sessionId ∈ book.sessions.map (·.id)) : OneDrawer (book.withMovement m) where
  ids := h.ids
  status := h.status
  one := h.one
  seated x hx := by
    rcases List.mem_append.mp hx with hx | hx
    · exact h.seated x hx
    · rw [List.mem_singleton.mp hx]
      exact hm

/-- A call stays in its session while sessions stay. -/
theorem Seated.kept {book book' : CashBook} {t : CashTask} (h : Seated book t)
    (hids : book.sessions.map (·.id) ⊆ book'.sessions.map (·.id)) : Seated book' t := by
  cases t with
  | found r startedAt => exact hids h
  | moved m => exact hids h
  | _ => trivial

/-- What a commit leaves standing of what another transaction knows. -/
theorem DrawerKnows.kept {book book' : CashBook} {u : DrawerTask} (h : DrawerKnows book u)
    (hids : book.sessions.map (·.id) ⊆ book'.sessions.map (·.id))
    (hadmits : ∀ x, Admits book x → Admits book' x) : DrawerKnows book' u := by
  cases u with
  | opening r phase =>
      cases phase with
      | inserted branchId openedAt => exact hadmits _ h
      | _ => trivial
  | cash t => exact Seated.kept h hids

/-- A commit of a payment, a refund, a movement or a close. -/
theorem cash_commit {book book' : CashBook} {t t' : CashTask} (hdrawer : OneDrawer book)
    (hk : Seated book t) (h : CashMoves book t (.commit book' t')) :
    OneDrawer book' ∧ Seated book' t'
      ∧ ∀ u, DrawerKnows book u → DrawerKnows book' u := by
  have hids := (moves_grow h).2.1
  have hsame : book.sessions.map (·.id) ⊆ book'.sessions.map (·.id) := by
    rw [hids]
    exact List.Subset.refl _
  cases h with
  | closes =>
      exact ⟨hdrawer.closed .., trivial, fun u hu => hu.kept hsame fun _ hx => hx.closed _ _ _ _⟩
  | moves =>
      exact ⟨hdrawer.withMovement hk, trivial, fun u hu => hu.kept hsame fun _ => id⟩
  | pays =>
      exact ⟨⟨hdrawer.ids, hdrawer.status, hdrawer.one, hdrawer.seated⟩, trivial,
        fun u hu => hu.kept hsame fun _ => id⟩
  | refunds =>
      exact ⟨⟨hdrawer.ids, hdrawer.status, hdrawer.one, hdrawer.seated⟩, trivial,
        fun u hu => hu.kept hsame fun _ => id⟩

/-- **What a transaction knows of the drawer.** -/
theorem drawerSession_knows (branches : List Branch) :
    (drawerSession branches).Knows OneDrawer DrawerKnows drawerHolds where
  start book call _ := by
    cases call with
    | «open» r => exact ⟨trivial, fun _ => id⟩
    | cash call => cases call <;> exact ⟨trivial, fun _ => id⟩
  go _ book t t' _ hk h := by
    have hmoves := (drawerSession_inverts branches).moves h
    generalize hx : Turn.go t' = x at hmoves
    cases hmoves with
    | goes hknow hheld =>
        cases hx
        exact ⟨hknow, hheld⟩
    | cash =>
        obtain ⟨u, hu, rfl⟩ := Turn.map_go hx.symm
        exact ⟨seated_go hk hu, fun _ => False.elim⟩
    | _ => cases hx
  lock _ book t t' k _ hk h := by
    have hmoves := (drawerSession_inverts branches).moves h
    generalize hx : Turn.lock k t' = x at hmoves
    cases hmoves with
    | enters =>
        cases hx
        refine ⟨trivial, fun k' hk' => ?_⟩
        cases k' with
        | openEntry => exact .inl rfl
        | row id => exact hk'.elim
    | cash =>
        obtain ⟨id, u, hu, -, rfl⟩ := Turn.map_lock hx.symm
        cases cashSession_inverts.moves (o := ()) hu with
        | updates => exact ⟨trivial, fun _ => False.elim⟩
    | _ => cases hx
  commit _ book t book' t' hdrawer hk h := by
    have hmoves := (drawerSession_inverts branches).moves h
    generalize hx : Turn.commit book' t' = x at hmoves
    cases hmoves with
    | @opens r branchId openedAt =>
        cases hx
        refine ⟨hdrawer.opened hk rfl rfl, trivial, fun _ => id, fun u hu hfree => ?_⟩
        -- another open would have to hold the same entry
        cases u with
        | opening r' phase =>
            cases phase with
            | inserted branchId' openedAt' => exact absurd trivial (hfree .openEntry trivial)
            | _ => trivial
        | cash u =>
            refine Seated.kept hu ?_
            rw [opened_ids]
            exact List.subset_append_left _ _
    | cash =>
        obtain ⟨u, hu, rfl⟩ := Turn.map_commit hx.symm
        obtain ⟨hdrawer', hk', hothers⟩ :=
          cash_commit hdrawer hk (cashSession_inverts.moves (o := ()) hu)
        exact ⟨hdrawer', hk', fun _ => False.elim, fun v hv _ => hothers v hv⟩
    | _ => cases hx
  rollback _ book t t' _ hk h := by
    have hmoves := (drawerSession_inverts branches).moves h
    generalize hx : Turn.rollback t' = x at hmoves
    cases hmoves with
    | fails e =>
        cases hx
        exact ⟨trivial, fun _ => id⟩
    | cash =>
        obtain ⟨u, hu, rfl⟩ := Turn.map_rollback hx.symm
        cases cashSession_inverts.moves (o := ()) hu with
        | fails e => exact ⟨trivial, fun _ => id⟩
    | _ => cases hx
  env book elapsed hdrawer := by
    refine ⟨⟨hdrawer.ids, hdrawer.status, hdrawer.one, hdrawer.seated⟩, fun u hu => ?_⟩
    exact hu.kept (List.Subset.refl _) fun _ => id

/-- Any number of opens, closes, cash movements, payments and refunds at once, from before
the till was first opened. -/
def drawerRace (branches : List Branch) : System Drawers DrawerEvent :=
  (drawerSession branches).interleaved fun book => book.sessions = [] ∧ book.movements = []

/-- Before the till is first opened nothing is. -/
theorem oneDrawer_unopened {book : CashBook} (hsessions : book.sessions = [])
    (hmovements : book.movements = []) : OneDrawer book where
  ids := by
    unfold IdsUnique
    rw [hsessions]
    exact List.nodup_nil
  status s hs := by
    rw [hsessions] at hs
    cases hs
  one := by
    rw [hsessions]
    exact .nil
  seated m hm := by
    rw [hmovements] at hm
    cases hm

/-- The invariant rule at the drawers. -/
theorem drawerRace_known {branches : List Branch} {c : Drawers}
    (h : (drawerRace branches).Reachable c) :
    Session.Invariant OneDrawer DrawerKnows drawerHolds c :=
  Session.invariant (drawerSession_knows branches)
    (fun _ hbook => oneDrawer_unopened hbook.1 hbook.2) h

/-- **Two open sessions are one.** -/
theorem OneDrawer.only {book : CashBook} (h : OneDrawer book) {s s' : CashSession}
    (hs : s ∈ book.sessions) (hs' : s' ∈ book.sessions) (hopen : s.status = .open)
    (hopen' : s'.status = .open) : s' = s := by
  by_contra hne
  have hsymm : Std.Symm fun a b : CashSession => ¬ (a.status = .open ∧ b.status = .open) :=
    ⟨fun _ _ hab hba => hab hba.symm⟩
  exact h.one.forall hs' hs hne ⟨hopen', hopen⟩

/-- **One till is open at a time**, and it is the one `current` shows: every other session
has been closed, at an instant. -/
theorem one_till_open {branches : List Branch} {c : Drawers}
    (h : (drawerRace branches).Reachable c) {s : CashSession} (hs : s ∈ c.shared.sessions)
    (hopen : s.status = .open) :
    current c.shared = some (s, withReport c.shared s)
      ∧ ∀ s' ∈ c.shared.sessions, s' ≠ s → s'.status = .closed ∧ s'.closedAt.isSome = true := by
  have hdrawer := (drawerRace_known h).1
  constructor
  -- the first open session is the only one
  · have hfind : c.shared.findCurrent = some s := by
      unfold CashBook.findCurrent
      cases hx : c.shared.sessions.find? fun s => decide (s.status = .open) with
      | none =>
          have hnone := List.find?_eq_none.mp hx s hs
          simp [hopen] at hnone
      | some x =>
          have hxopen : x.status = .open := by simpa using List.find?_some hx
          rw [hdrawer.only hs (List.mem_of_find?_eq_some hx) hopen hxopen]
    unfold current
    rw [hfind]
    rfl
  · intro s' hs' hne
    have hshut : s'.status ≠ .open := fun hopen' => hne (hdrawer.only hs hs' hopen hopen')
    refine ⟨?_, ?_⟩
    · cases hstatus : s'.status with
      | «open» => exact absurd hstatus hshut
      | closed => rfl
    · rw [Option.isSome_iff_ne_none]
      exact fun hnone => hshut ((hdrawer.status s' hs').mpr hnone)

/-! ## §5. Every rupee in one report. -/

/-- The instants a session's report is about. -/
def CashBook.covers (book : CashBook) (s : CashSession) (t : Instant) : Bool :=
  inWindow s.openedAt (s.closedAt.getD book.now) t

/-- Some session's window has the instant. -/
def CashBook.covered (book : CashBook) (t : Instant) : Bool :=
  book.sessions.any fun s => book.covers s t

/-- Each session was closed before the next one was opened. -/
def Apart (book : CashBook) : Prop :=
  book.sessions.Pairwise fun a b => ∃ t, a.closedAt = some t ∧ t < b.openedAt

/-- A till that is opened has been shut before that, and one that is closed is open. -/
def ShutFirst (book : CashBook) : DrawerTask → Prop
  | .opening _ (.inserted _ openedAt) => ∀ s ∈ book.sessions, ∀ t ∈ s.closedAt, t < openedAt
  | .cash (.closing r (.updated _ _)) => StillOpen book r.sessionId
  | _ => True

instance (book : CashBook) (t : DrawerTask) : Decidable (ShutFirst book t) := by
  unfold ShutFirst
  split <;> infer_instance

/-- Whoever moves with this step finds the drawer shut. -/
def StepShutFirst (c : Drawers) : DrawerEvent → Prop
  | .run i _ => ∀ t ∈ c.running i, ShutFirst c.shared t
  | _ => True

instance (c : Drawers) (e : DrawerEvent) : Decidable (StepShutFirst c e) := by
  unfold StepShutFirst
  split <;> infer_instance

/-- An open that comes after every close keeps the windows apart. -/
theorem Apart.opened {book : CashBook} {s : CashSession} (h : Apart book)
    (hdrawer : OneDrawer book) (hadmits : Admits book s)
    (hshut : ∀ x ∈ book.sessions, ∀ t ∈ x.closedAt, t < s.openedAt) : Apart (book.opened s) := by
  refine List.pairwise_append.mpr ⟨h, List.pairwise_singleton _ _, ?_⟩
  intro x hx y hy
  rw [List.mem_singleton.mp hy]
  cases hclosed : x.closedAt with
  | none => exact absurd ((hdrawer.status x hx).mpr hclosed) (hadmits x hx).2
  | some t => exact ⟨t, rfl, hshut x hx t hclosed⟩

/-- A close of a session that is open dates no session anew. -/
theorem Apart.closed {book : CashBook} (h : Apart book) (hdrawer : OneDrawer book)
    {r : CloseCall} (hopen : StillOpen book r.sessionId) (notes : Option String)
    (closedAt : Instant) (expected : ℤ) : Apart (book.closed r notes closedAt expected) := by
  refine List.pairwise_map.mpr (h.imp_of_mem fun {a b} ha hb hab => ?_)
  obtain ⟨t, ht, hlt⟩ := hab
  have hother : a.id ≠ r.sessionId := by
    intro hid
    rw [(hdrawer.status a ha).mp (hopen a ha hid)] at ht
    cases ht
  rw [if_neg hother]
  refine ⟨t, ht, ?_⟩
  split
  · exact hlt
  · exact hlt

/-- **The step lemma.** -/
theorem apart_step {branches : List Branch} {c c' : Drawers} {e : DrawerEvent}
    (hc : Session.Invariant OneDrawer DrawerKnows drawerHolds c) (hapart : Apart c.shared)
    (hfirst : StepShutFirst c e) (h : (drawerSession branches).act c e = some c') :
    Apart c'.shared := by
  -- only a commit and the clock change what is committed
  cases (drawerSession branches).act_moved h with
  | @committed i o book' t t' hi hturn =>
      have hfirst := hfirst t hi
      have hk := (hc.2 i t hi).1
      have hmoves := (drawerSession_inverts branches).moves hturn
      generalize hx : Turn.commit book' t' = x at hmoves
      cases hmoves with
      | opens =>
          cases hx
          exact hapart.opened hc.1 hk hfirst
      | cash =>
          obtain ⟨u, hu, rfl⟩ := Turn.map_commit hx.symm
          cases cashSession_inverts.moves (o := ()) hu with
          | closes => exact hapart.closed hc.1 hfirst _ _ _
          | _ => exact hapart
      | _ => cases hx
  | elsewhere => exact hapart
  | _ => exact hapart

/-- No instant is in the windows of two sessions. -/
theorem Apart.windows {book : CashBook} (h : Apart book) :
    book.sessions.Pairwise fun a b => ∀ t, book.covers a t = true → book.covers b t = false := by
  refine h.imp fun {a b} hab t ha => ?_
  obtain ⟨closedAt, hclosed, hlt⟩ := hab
  unfold CashBook.covers inWindow at ha ⊢
  rw [hclosed] at ha
  simp only [Option.getD_some, Bool.and_eq_true, decide_eq_true_eq] at ha
  rw [Bool.and_eq_false_iff]
  left
  rw [decide_eq_false_iff_not]
  intro hopened
  exact absurd (hlt.trans_le hopened) (not_lt.mpr ha.2)

/-- The sums over the sessions' reports of what a window decides. -/
theorem sum_windows {α : Type} {book : CashBook} (h : Apart book) (p : α → Bool)
    (createdAt : α → Instant) (f : α → ℤ) (rows : List α) :
    (book.sessions.map fun s =>
        sumWhere (fun a => p a && book.covers s (createdAt a)) f rows).sum
      = sumWhere (fun a => p a && book.covered (createdAt a)) f rows := by
  rw [sumWhere_exclusive (fun s a => p a && book.covers s (createdAt a)) f]
  · refine sumWhere_congr (fun a _ => ?_) fun _ _ _ => rfl
    unfold CashBook.covered
    by_cases hp : p a = true
    · simp [hp]
    · simp [hp]
  · refine h.windows.imp fun {a b} hab x _ hx => ?_
    rw [Bool.and_eq_true] at hx
    rw [hab _ hx.2, Bool.and_false]

/-- A cash movement is in the report of its session. -/
theorem sum_movements {book : CashBook} (h : OneDrawer book) (type : CashMovementType) :
    (book.sessions.map fun s => sumWhere (movedBy s.id type) (·.amountMinor) book.movements).sum
      = sumWhere (fun m => decide (m.type = type)) (·.amountMinor) book.movements := by
  have hfibers := sumWhere_fibers (fun m : CashMovement => m.sessionId)
    (fun m => decide (m.type = type)) (fun m => m.amountMinor) h.ids book.movements
  rw [List.map_map] at hfibers
  refine Eq.trans ?_ (hfibers.trans ?_)
  · refine congrArg List.sum (List.map_congr_left fun s _ => ?_)
    exact sumWhere_congr (fun m _ => Bool.and_comm _ _) fun _ _ _ => rfl
  · refine sumWhere_congr (fun m hm => ?_) fun _ _ _ => rfl
    simp only [h.seated m hm, decide_true, Bool.true_and]

theorem mem_paymentMethods (method : PaymentMethod) : method ∈ paymentMethods := by
  cases method <;> decide

theorem paymentMethods_nodup : paymentMethods.Nodup := by decide

/-- The methods of a report make up its takings. -/
theorem grossSales_eq (book : CashBook) (s : CashSession) :
    (withReport book s).grossSalesMinor
      = sumWhere (fun p => decide (p.status = .captured) && book.covers s p.createdAt)
          (·.amountMinor) book.payments := by
  have hfibers := sumWhere_fibers (fun p : Payment => p.method)
    (fun p => decide (p.status = .captured) && book.covers s p.createdAt)
    (fun p => p.amountMinor) paymentMethods_nodup book.payments
  refine (congrArg List.sum List.map_map).trans (hfibers.trans ?_)
  refine sumWhere_congr (fun p _ => ?_) fun _ _ _ => rfl
  simp only [mem_paymentMethods, decide_true, Bool.true_and]

/-- Leaving out the methods nothing was returned by leaves out no refund. -/
theorem sum_returned {l : List (PaymentMethod × ℤ)} (h : ∀ r ∈ l, 0 ≤ r.2) :
    ((l.filter fun r => decide (0 < r.2)).map (·.2)).sum = (l.map (·.2)).sum := by
  induction l with
  | nil => rfl
  | cons r l ih =>
      have hr := h r List.mem_cons_self
      have ih := ih fun x hx => h x (List.mem_cons_of_mem r hx)
      rw [List.filter_cons]
      by_cases hpos : 0 < r.2
      · simp only [hpos, decide_true, if_true, List.map_cons, List.sum_cons, ih]
      · simp only [hpos, decide_false, Bool.false_eq_true, if_false, List.map_cons,
          List.sum_cons, ih]
        omega

/-- The refunds of a report, as a sum over the book. -/
theorem refunds_eq (book : CashBook) (s : CashSession) :
    (withReport book s).refundsMinor
      = sumWhere (fun r => book.covers s r.createdAt) (·.amountMinor) book.refunds := by
  have hfibers := sumWhere_fibers (fun r : Refund => r.method)
    (fun r => book.covers s r.createdAt) (fun r => r.amountMinor) paymentMethods_nodup
    book.refunds
  refine (sum_returned ?_).trans ((congrArg List.sum List.map_map).trans (hfibers.trans ?_))
  · intro r hr
    obtain ⟨method, -, rfl⟩ := List.mem_map.mp hr
    exact sumWhere_nonneg fun r _ _ => le_of_lt r.amount_pos
  · refine sumWhere_congr (fun r _ => ?_) fun _ _ _ => rfl
    simp only [mem_paymentMethods, decide_true, Bool.true_and]

/-- Balances that are added up line by line. -/
theorem sum_balance {ι : Type} (l : List ι) (a b c d e : ι → ℤ) :
    (l.map fun i => a i + b i - c i + d i - e i).sum
      = (l.map a).sum + (l.map b).sum - (l.map c).sum + (l.map d).sum - (l.map e).sum := by
  induction l with
  | nil => rfl
  | cons i l ih =>
      simp only [List.map_cons, List.sum_cons, ih]
      omega

/-- The cash that all sessions expect. -/
theorem expectedCash_sum {book : CashBook} (hdrawer : OneDrawer book) (hapart : Apart book) :
    (book.sessions.map fun s => (withReport book s).expectedCashMinor).sum
      = (book.sessions.map (·.openingFloatMinor)).sum
        + sumWhere (fun m => decide (m.type = .payIn)) (·.amountMinor) book.movements
        - sumWhere (fun m => decide (m.type = .payOut)) (·.amountMinor) book.movements
        + sumWhere (fun p => (decide (p.method = .cash) && decide (p.status = .captured))
            && book.covered p.createdAt) (·.amountMinor) book.payments
        - sumWhere (fun r => decide (r.method = .cash) && book.covered r.createdAt)
            (·.amountMinor) book.refunds := by
  -- every instant is in one window at most, so nothing is summed twice
  have hpaid := sum_windows hapart
    (fun p : Payment => decide (p.method = .cash) && decide (p.status = .captured))
    (fun p => p.createdAt) (fun p => p.amountMinor) book.payments
  have hreturned := sum_windows hapart (fun r : Refund => decide (r.method = .cash))
    (fun r => r.createdAt) (fun r => r.amountMinor) book.refunds
  rw [← hpaid, ← hreturned, ← sum_movements hdrawer .payIn, ← sum_movements hdrawer .payOut,
    ← sum_balance]
  refine congrArg List.sum (List.map_congr_left fun s _ => ?_)
  have hsame : sumWhere (takenBy s.openedAt (s.closedAt.getD book.now) .cash) (·.amountMinor)
      book.payments = sumWhere (fun p => (decide (p.method = .cash)
        && decide (p.status = .captured)) && book.covers s p.createdAt) (·.amountMinor)
      book.payments :=
    sumWhere_congr (fun p _ => (Bool.and_assoc _ _ _).symm) fun _ _ _ => rfl
  show (settlement book s (s.closedAt.getD book.now)).expectedCashMinor = _
  rw [expectedCash_eq, hsame]
  rfl

/-- **The reports of all sessions count each rupee once**, as long as a till is shut once and
opened after that: no instant is in two windows, and expected cash, takings and refunds add up
to those of the instants a till was open at. -/
theorem drawers_account {branches : List Branch} {c : Drawers}
    (h : ((drawerRace branches).restrict StepShutFirst).Reachable c) :
    (c.shared.sessions.Pairwise fun a b => ∀ t, c.shared.covers a t = true →
        c.shared.covers b t = false)
      ∧ (c.shared.sessions.map fun s => (withReport c.shared s).expectedCashMinor).sum
        = (c.shared.sessions.map (·.openingFloatMinor)).sum
          + sumWhere (fun m => decide (m.type = .payIn)) (·.amountMinor) c.shared.movements
          - sumWhere (fun m => decide (m.type = .payOut)) (·.amountMinor) c.shared.movements
          + sumWhere (fun p => (decide (p.method = .cash) && decide (p.status = .captured))
              && c.shared.covered p.createdAt) (·.amountMinor) c.shared.payments
          - sumWhere (fun r => decide (r.method = .cash) && c.shared.covered r.createdAt)
              (·.amountMinor) c.shared.refunds
      ∧ (c.shared.sessions.map fun s => (withReport c.shared s).grossSalesMinor).sum
        = sumWhere (fun p => decide (p.status = .captured) && c.shared.covered p.createdAt)
            (·.amountMinor) c.shared.payments
      ∧ (c.shared.sessions.map fun s => (withReport c.shared s).refundsMinor).sum
        = sumWhere (fun r => c.shared.covered r.createdAt) (·.amountMinor) c.shared.refunds := by
  -- along the run: the drawer is known, and the windows stay apart
  obtain ⟨hknown, hapart⟩ : Session.Invariant OneDrawer DrawerKnows drawerHolds c
      ∧ Apart c.shared := by
    refine h.invariant
      (fun c => Session.Invariant OneDrawer DrawerKnows drawerHolds c ∧ Apart c.shared) ?_ ?_
    · intro c₀ hc₀
      refine ⟨drawerRace_known (.init (M := drawerRace branches) hc₀), ?_⟩
      unfold Apart
      rw [hc₀.1.1]
      exact .nil
    · intro c e c' hc hstep
      exact ⟨Session.invariant_step (drawerSession_knows branches) hc.1 hstep.2,
        apart_step hc.1 hc.2 hstep.1 hstep.2⟩
  refine ⟨hapart.windows, expectedCash_sum hknown.1 hapart, ?_, ?_⟩
  · rw [← sum_windows hapart (fun p : Payment => decide (p.status = .captured))
      (fun p => p.createdAt)]
    exact congrArg List.sum (List.map_congr_left fun s _ => grossSales_eq _ s)
  · have hsum := sum_windows hapart (fun _ : Refund => true) (fun r => r.createdAt)
      (fun r => r.amountMinor) c.shared.refunds
    simp only [Bool.true_and] at hsum
    rw [← hsum]
    exact congrArg List.sum (List.map_congr_left fun s _ => refunds_eq _ s)

/-! ## §6. Two shifts. -/

/-- A restaurant of one branch. -/
def momoCorner : Branch := ⟨3, true, 0⟩

theorem tenRupees_ok : (0 : ℤ) ≤ 1000 ∧ (1000 : ℤ) ≤ maxCash := by decide

/-- The till is opened with ten rupees. -/
def openedTill (newId : Uuid) : OpenCall :=
  ⟨counter, newId, { openingFloatMinor := 1000, notes := none, float_ok := tenRupees_ok }⟩

/-- Before the till was first opened. -/
def unopened : CashBook := ⟨[], [], [], [], 100⟩

/-- Four statements of a session. -/
def four (i : ℕ) : List DrawerEvent := [.run i (), .run i (), .run i (), .run i ()]

/-- The till is opened, takes ₹7 and is closed; it is opened again and takes ₹7. -/
def twoShifts : List DrawerEvent :=
  .begin 0 (.open (openedTill 1)) :: four 0
    ++ [.env 10, .begin 1 (.cash (.payment cashPaid)), .run 1 (), .run 1 ()]
    ++ .begin 2 (.cash (.close countedTill)) :: (four 2 ++ four 2)
    ++ .env 5 :: .begin 3 (.open (openedTill 2)) :: four 3
    ++ [.env 5, .begin 4 (.cash (.payment cashPaid)), .run 4 (), .run 4 ()]

/-- The till is opened again while it is being closed, and takes ₹7 meanwhile. -/
def openedOver : List DrawerEvent :=
  .begin 0 (.open (openedTill 1)) :: four 0
    ++ .env 10 :: .begin 2 (.cash (.close countedTill)) :: [.run 2 ()]
    ++ .begin 3 (.open (openedTill 2)) :: [.run 3 ()]
    ++ [.env 5, .begin 1 (.cash (.payment cashPaid)), .run 1 (), .run 1 ()]
    ++ .env 5 :: .run 2 () :: .run 2 () :: .run 2 () :: four 2
    ++ [.run 3 (), .run 3 (), .run 3 ()]

theorem twoShifts_runs :
    (System.replay (System.guarded StepShutFirst (drawerSession [momoCorner]).act) twoShifts
      (Session.quiet unopened)).isSome = true := by
  decide +kernel

theorem openedOver_runs :
    (System.replay (drawerSession [momoCorner]).act openedOver
      (Session.quiet unopened)).isSome = true := by
  decide +kernel

/-- Two floats of ₹10 and two payments of ₹7: the reports come to ₹34. -/
theorem drawers_account_twoShifts :
    ∃ c : Drawers, c.shared.sessions.length = 2
      ∧ (c.shared.sessions.map fun s => (withReport c.shared s).expectedCashMinor).sum = 3400
      ∧ (c.shared.sessions.map fun s => (withReport c.shared s).grossSalesMinor).sum
        = sumWhere (fun p => decide (p.status = .captured) && c.shared.covered p.createdAt)
            (·.amountMinor) c.shared.payments := by
  have h : ((drawerRace [momoCorner]).restrict StepShutFirst).Reachable _ :=
    Session.replay_guarded ⟨rfl, rfl⟩ twoShifts (Option.some_get twoShifts_runs).symm
  exact ⟨_, by decide +kernel, by decide +kernel, (drawers_account h).2.2.1⟩

theorem one_till_open_twoShifts :
    ∃ c : Drawers, ∃ s ∈ c.shared.sessions, s.status = .open
      ∧ current c.shared = some (s, withReport c.shared s) := by
  have h : (drawerRace [momoCorner]).Reachable _ :=
    System.restrict_reachable
      (Session.replay_guarded ⟨rfl, rfl⟩ twoShifts (Option.some_get twoShifts_runs).symm)
  have hs : (openedTill 2).row 3 115 ∈ (Option.get _ twoShifts_runs).shared.sessions :=
    .tail _ (.head _)
  exact ⟨_, _, hs, rfl, (one_till_open h hs rfl).1⟩

/-- One payment of ₹7, and takings of ₹14. -/
theorem counted_in_both :
    ∃ c, (drawerRace [momoCorner]).Reachable c ∧ c.shared.payments.length = 1
      ∧ (c.shared.payments.map (·.amountMinor)).sum = 700
      ∧ (c.shared.sessions.map fun s => (withReport c.shared s).grossSalesMinor).sum = 1400 := by
  have h : (drawerRace [momoCorner]).Reachable _ :=
    Session.replay_reached ⟨rfl, rfl⟩ openedOver (Option.some_get openedOver_runs).symm
  exact ⟨_, h, by decide +kernel, by decide +kernel, by decide +kernel⟩

end OraOS.Cash
