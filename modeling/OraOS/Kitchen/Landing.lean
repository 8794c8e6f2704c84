/-
  OraOS.Kitchen.Landing — a new order reaches the kitchen board.

  The board hears of an order, or of its move to a column, and fetches it; until the fetch is
  answered the order is nowhere on the board.  A fetch that fails is not tried again, and a
  reload that was read before the order was placed takes its ticket away.

    * `Due`               — on the board, or announced, or being fetched;
    * `Lands`             — no fetch fails, nothing is reloaded, and the board is not full;
    * `new_orders_shown`  — then an order placed since the board was loaded stands among the
                            new ones as soon as nothing about it is under way;
    * `new_order_missing` — and a run in which a reload that is late takes it away.
-/
import OraOS.Kitchen.Sync

namespace OraOS.Kitchen

open OraOS.Api
open OraOS.Lib
open OraOS.Orders

/-! ## §1. What is due on the board. -/

/-- An event that brings its order to the board, if it is not there. -/
def Event.pulls (e : Event) : Bool :=
  decide (e.name = .created) || decide (e.status ∈ boardStatuses)

/-- A fetch of the order is under way. -/
def InFlight.fetches (c : InFlight) (id : Uuid) : Prop :=
  c.call = .fetch id ∧ (c.answer = none ∨ ∃ row, c.answer = some (.row row) ∧ row.id = id)

/-- The order is on the board, or on its way there. -/
inductive Due (w : World) (id : Uuid) : Prop where
  | shown {orders : List OrderRow} (horders : w.orders = some orders)
      (hid : id ∈ orders.map (·.id))
  | announced {e : Event} (he : e ∈ w.wire ++ w.posting) (hid : e.id = id)
      (hpulls : e.pulls = true)
  | fetching {k : ℕ} {c : InFlight} (hc : w.calls k = some c) (hfetches : c.fetches id)

/-- An answer takes no ticket off a board of `n`. -/
def Answer.Fits (n : ℕ) : Answer → Prop
  | .rows _ => False
  | .row _ => n < maxOrders
  | _ => True

instance (n : ℕ) (b : Answer) : Decidable (b.Fits n) := by
  cases b with
  | rows rows => exact isFalse id
  | row row => exact inferInstanceAs (Decidable (n < maxOrders))
  | _ => exact isTrue trivial

/-- The steps that take no ticket off the board and leave none behind. -/
def Lands (w : World) : Act → Prop
  | .receive k => ∀ c ∈ w.calls k, ∀ b ∈ c.answer, b.Fits (w.orders.getD []).length
  | .lose k => ∀ c ∈ w.calls k, ∀ id, c.call ≠ .fetch id
  | _ => True

/-- **An order that comes to a column is announced**: placed, resumed or handed over. -/
theorem perform_pulls {s s' : Server} {r : Request} (h : perform s r = .ok s') {o' : Order}
    (ho' : o' ∈ s'.db.orders) (hboard : o'.status ∈ boardStatuses) :
    (∃ o ∈ s.db.orders, o.id = o'.id ∧ o.status = o'.status)
      ∨ ∃ e ∈ announced s.db r, e.id = o'.id ∧ e.pulls = true := by
  cases r with
  | create ctx env dto =>
      obtain ⟨⟨o, db', hooks⟩, hok, h⟩ := bind_ok.mp h
      cases pure_ok.mp h
      cases hkey : findByIdempotencyKey s.db dto.idempotencyKey with
      | some existing =>
          -- a replay
          have hcreate := hok
          obtain ⟨_, -, hcreate⟩ := bind_ok.mp hcreate
          rw [hkey] at hcreate
          cases hcreate
          exact .inl ⟨o', ho', rfl, rfl⟩
      | none =>
          obtain ⟨-, ⟨hsome, -, -⟩ | ⟨hins, -⟩⟩ := create_ok hok
          · rw [hkey] at hsome
            cases hsome
          · obtain ⟨paid, moved, spent, redemptions, logs, -, rfl⟩ := insert_ok hins
            rcases List.mem_append.mp ho' with hold | hnew
            · exact .inl ⟨o', hold, rfl, rfl⟩
            · rw [List.mem_singleton.mp hnew] at hboard ⊢
              have hplaced : o.status ≠ .draft := fun hdraft => by
                rw [hdraft] at hboard
                exact absurd hboard (by decide)
              refine .inr ⟨⟨.created, o.id, o.orderNumber, o.status⟩, ?_, rfl, rfl⟩
              simp only [announced, hkey, hok, if_neg hplaced]
              exact List.mem_singleton_self _
  | updateStatus ctx now orderId toStatus reason =>
      obtain ⟨db', hok, h⟩ := bind_ok.mp h
      cases pure_ok.mp h
      obtain ⟨o, ho, ⟨-, rfl⟩ | ⟨hcan, moved, logs, -, rfl⟩⟩ := updateStatus_ok hok
      · exact .inl ⟨o', ho', rfl, rfl⟩
      · have hid : o.id = orderId := (Db.mem_of_findOrder ho).2
        subst hid
        rcases mem_setStatus ho' with ⟨hold, -⟩ | ⟨x, -, -, hid, hstatus, -⟩
        · exact .inl ⟨o', hold, rfl, rfl⟩
        · have hne : o.status ≠ toStatus := fun heq => by
            rw [heq, canTransition_same] at hcan
            cases hcan
          refine .inr ⟨⟨.statusChanged, o.id, o.orderNumber, toStatus⟩, ?_, hid.symm, ?_⟩
          · simp only [announced, ho, if_neg hne]
            exact List.mem_singleton_self _
          · rw [hstatus] at hboard
            simp only [Event.pulls, decide_eq_true hboard, Bool.or_true]
  | _ =>
      have horders := perform_orders h
      generalize hos : s'.db.orders = os at horders ho'
      cases horders
      exact .inl ⟨o', ho', rfl, rfl⟩

/-! ## §2. What is on the board stays. -/

theorem patchStatus_ids (id : Uuid) (status : OrderStatus) (prev : List OrderRow) :
    (patchStatus id status prev).map (·.id) = prev.map (·.id) := by
  unfold patchStatus
  rw [List.map_map]
  refine List.map_congr_left fun x _ => ?_
  show (if x.id = id then _ else x : OrderRow).id = x.id
  split <;> rfl

/-- A ticket that is put in is there. -/
theorem upsert_self (row : OrderRow) (prev : List OrderRow) :
    row.id ∈ (upsert row prev).map (·.id) :=
  List.mem_map_of_mem (List.mem_cons_self : row ∈ row :: (List.take 149 _))

/-- A board that is not full loses nothing. -/
theorem upsert_keeps {row : OrderRow} {prev : List OrderRow} (hroom : prev.length < maxOrders)
    {id : Uuid} (hid : id ∈ prev.map (·.id)) : id ∈ (upsert row prev).map (·.id) := by
  have hall : upsert row prev = row :: prev.filter fun x => decide (x.id ≠ row.id) := by
    refine List.take_of_length_le ?_
    have hle := List.length_filter_le (fun x : OrderRow => decide (x.id ≠ row.id)) prev
    rw [List.length_cons]
    omega
  obtain ⟨x, hx, rfl⟩ := List.mem_map.mp hid
  rw [hall]
  by_cases hrow : x.id = row.id
  · rw [List.map_cons, hrow]
    exact List.mem_cons_self
  · refine List.mem_map_of_mem (List.mem_cons_of_mem _ (List.mem_filter.mpr ⟨hx, ?_⟩))
    exact decide_eq_true hrow

/-- An announcement takes no ticket off the board. -/
theorem handle_shown {v : World} {k : ℕ} {e : Event} {orders : List OrderRow}
    (horders : v.orders = some orders) :
    ∃ orders', (v.handle k e).orders = some orders' ∧ orders'.map (·.id) = orders.map (·.id) := by
  unfold World.handle
  rw [horders]
  split
  · exact ⟨orders, rfl, rfl⟩
  next heq => cases heq
  next prev _ heq =>
    cases heq
    split
    · exact ⟨_, rfl, patchStatus_ids _ _ _⟩
    · split
      · exact ⟨orders, rfl, rfl⟩
      · exact ⟨orders, horders, rfl⟩

/-- An answer that is not a whole reload takes none off either, short of the cap. -/
theorem answered_shown {w : World} {k : ℕ} {c : InFlight} {b : Answer} {orders : List OrderRow}
    (horders : w.orders = some orders) (hrows : ∀ rows, b ≠ .rows rows)
    (hrow : ∀ row, b = .row row → orders.length < maxOrders) :
    ∃ orders', (w.answered k c b).orders = some orders'
      ∧ ∀ id ∈ orders.map (·.id), id ∈ orders'.map (·.id) := by
  unfold World.answered
  dsimp only
  split
  next rows => exact absurd rfl (hrows rows)
  next row =>
    exact ⟨upsert row orders, by rw [horders]; rfl,
      fun id hid => upsert_keeps (hrow row rfl) hid⟩
  · exact ⟨orders, horders, fun _ hid => hid⟩
  next id toStatus reason prev _ =>
    refine ⟨patchStatus id prev orders, by rw [horders]; rfl, fun id' hid => ?_⟩
    rw [patchStatus_ids]
    exact hid
  · exact ⟨orders, horders, fun _ hid => hid⟩
  · exact ⟨orders, horders, fun _ hid => hid⟩

/-- **No ticket is taken off the board.** -/
theorem act_shown {w w' : World} {a : Act} (hlands : Lands w a) (h : w.act a = some w')
    {orders : List OrderRow} (horders : w.orders = some orders) :
    ∃ orders', w'.orders = some orders' ∧ ∀ id ∈ orders.map (·.id), id ∈ orders'.map (·.id) := by
  cases act_happens h with
  | @deliver k e wire hwire hfree =>
      obtain ⟨orders', horders', hids⟩ := handle_shown (k := k) (e := e)
        (v := { w with wire, calls := noted (movedIds [e]) w.calls }) horders
      refine ⟨orders', horders', fun id hid => ?_⟩
      rw [hids]
      exact hid
  | @tap k id toStatus reason hfree =>
      refine ⟨patchStatus id toStatus orders, by rw [horders]; rfl, fun id' hid => ?_⟩
      rw [patchStatus_ids]
      exact hid
  | serve hc =>
      rw [serveCall_orders]
      exact ⟨orders, horders, fun _ hid => hid⟩
  -- a list replaces the tickets, and a full board drops one; `hlands` rules out both
  | @receive k c b hc hb =>
      have hb' := hlands c hc b hb
      refine answered_shown horders ?_ ?_
      · rintro rows rfl
        exact hb'
      · rintro row rfl
        rw [horders] at hb'
        exact hb'
  | lose hc =>
      refine answered_shown horders ?_ ?_
      · intro rows hfailed
        cases hfailed
      · intro row hfailed
        cases hfailed
  | _ => exact ⟨orders, horders, fun _ hid => hid⟩

/-! ## §3. What is due stays due. -/

/-- An event that arrives leaves its order on the board, or starts a fetch of it. -/
theorem handle_due {v : World} {k : ℕ} {e : Event} (hpulls : e.pulls = true)
    (hloaded : v.orders.isSome = true) : Due (v.handle k e) e.id := by
  have hstarted : ∀ w : World, w.calls = v.started k (.fetch e.id) → Due w e.id := by
    intro w hw
    refine .fetching (k := k) (c := ⟨.fetch e.id, none, []⟩) ?_ ⟨rfl, .inl rfl⟩
    rw [hw]
    exact Function.update_self k _ _
  unfold World.handle
  -- not on the board, or not loaded: the event starts a fetch
  split
  · exact hstarted _ rfl
  next hnone =>
    rw [hnone] at hloaded
    cases hloaded
  next prev hname hprev =>
    split
    next hon =>
      refine .shown rfl ?_
      rw [patchStatus_ids]
      exact hon
    next hoff =>
      have hboard : e.status ∈ boardStatuses := by
        simpa [Event.pulls, hname] using hpulls
      rw [if_pos hboard]
      exact hstarted _ rfl

/-- Handling an announcement sends none. -/
theorem handle_events {v : World} {k : ℕ} {e : Event} :
    (v.handle k e).wire = v.wire ∧ (v.handle k e).posting = v.posting :=
  ⟨(handle_sameFeed v k e).wire, (handle_sameFeed v k e).posting⟩

/-- A fetch that is answered brings its order. -/
theorem answered_due {w : World} {k : ℕ} {c : InFlight} {b : Answer} {id : Uuid}
    (hb : c.answer = some b) (hfetches : c.fetches id) (hloaded : w.orders.isSome = true) :
    Due (w.answered k c b) id := by
  obtain ⟨orders, horders⟩ := Option.isSome_iff_exists.mp hloaded
  obtain ⟨hcall, hnone | ⟨row, hrow, rfl⟩⟩ := hfetches
  · cases hnone.symm.trans hb
  · cases hrow.symm.trans hb
    have hlands : (w.answered k c (.row row)).orders = some (upsert row orders) := by
      unfold World.answered
      rw [hcall]
      dsimp only
      rw [horders]
      rfl
    exact .shown hlands (upsert_self row orders)

/-- A fetch that finds the order will bring it. -/
theorem serveCall_due {w : World} {k : ℕ} {ctx : TenantContext} {now : Instant} {c : InFlight}
    {id : Uuid} (hfetches : c.fetches id) (hexists : (w.server.db.findOrder id).isSome = true) :
    Due (w.serveCall k ctx now c) id := by
  obtain ⟨o, ho⟩ := Option.isSome_iff_exists.mp hexists
  unfold World.serveCall
  rw [hfetches.1]
  dsimp only
  rw [ho]
  refine .fetching (k := k) (Function.update_self k _ _) ⟨rfl, .inr ⟨_, rfl, ?_⟩⟩
  exact (Db.mem_of_findOrder ho).2

/-- Answering a call adds announcements behind those that wait. -/
theorem serveCall_posting (w : World) (k : ℕ) (ctx : TenantContext) (now : Instant)
    (c : InFlight) : ∃ more, (w.serveCall k ctx now c).posting = w.posting ++ more := by
  unfold World.serveCall
  split
  · exact ⟨[], (List.append_nil _).symm⟩
  · exact ⟨[], (List.append_nil _).symm⟩
  · dsimp only
    split
    · exact ⟨_, rfl⟩
    · exact ⟨[], (List.append_nil _).symm⟩

/-- An order that an announcement will pull in is due. -/
theorem Due.later {w : World} {e : Event} {id : Uuid} (hid : e.id = id) (hpulls : e.pulls = true)
    {wire posting more : List Event} (he : e ∈ wire ++ posting) (hwire : w.wire = wire)
    (hposting : w.posting = posting ++ more) : Due w id := by
  refine .announced ?_ hid hpulls
  rw [hwire, hposting, ← List.append_assoc]
  exact List.mem_append_left more he

/-- An announcement under way stays under way until it is delivered. -/
theorem announced_step {w w' : World} {a : Act} (ha : InTime w a) (h : w.act a = some w')
    (hloaded : w.orders.isSome = true) {e : Event} (he : e ∈ w.wire ++ w.posting)
    (hpulls : e.pulls = true) : Due w' e.id := by
  have hsame : w'.wire = w.wire → w'.posting = w.posting → Due w' e.id := by
    intro hwire hposting
    exact .later rfl hpulls he hwire (hposting.trans (List.append_nil _).symm)
  cases act_happens h with
  | request hr => exact .later rfl hpulls he rfl rfl
  -- it is this one that is emitted, or one of those that wait
  | @emit i x hx hjoined =>
      obtain ⟨hsplit, herase⟩ := split_at hx
      refine .announced ?_ rfl hpulls
      show e ∈ (w.wire ++ [x]) ++ w.posting.eraseIdx i
      rw [hsplit] at he
      rw [herase]
      simp only [List.mem_append, List.mem_cons, List.not_mem_nil, or_false] at he ⊢
      tauto
  | lost hx hjoined => cases hjoined.symm.trans ha.2.2
  | disconnect => exact absurd ha.2.2 id
  | @deliver k x wire hwire hfree =>
      rw [hwire] at he
      -- it is this one that arrives, or one behind it
      rcases List.mem_cons.mp he with rfl | hrest
      · exact handle_due hpulls hloaded
      · obtain ⟨hwire', hposting'⟩ := handle_events (k := k) (e := x)
          (v := { w with wire, calls := noted (movedIds [x]) w.calls })
        exact .later rfl hpulls hrest hwire' (hposting'.trans (List.append_nil _).symm)
  | @serve k ctx now c hc =>
      obtain ⟨more, hmore⟩ := serveCall_posting w k ctx now c
      exact .later rfl hpulls he (serveCall_keeps w k ctx now c).2.2 hmore
  | @receive k c b hc hb =>
      exact hsame (answered_sameFeed w k c b).wire (answered_sameFeed w k c b).posting
  | @lose k c hc =>
      exact hsame (answered_sameFeed w k c .failed).wire (answered_sameFeed w k c .failed).posting
  | _ => exact hsame rfl rfl

/-- **What is due stays due**: a ticket on the board, an announcement to come, or a fetch. -/
theorem Due.step {w w' : World} {a : Act} {id : Uuid} (hdue : Due w id) (ha : InTime w a)
    (hlands : Lands w a) (hloaded : w.orders.isSome = true)
    (hexists : (w.server.db.findOrder id).isSome = true) (h : w.act a = some w') :
    Due w' id := by
  cases hdue with
  | shown horders hid =>
      obtain ⟨orders', horders', hkept⟩ := act_shown hlands h horders
      exact .shown horders' (hkept id hid)
  | announced he hid hpulls =>
      subst hid
      exact announced_step ha h hloaded he hpulls
  | @fetching j c hc hfetches =>
      -- a fetch is served, received, or goes on; it is not lost
      by_cases hserve : ∃ ctx now, a = .serve j ctx now
      · obtain ⟨ctx, now, rfl⟩ := hserve
        cases act_happens h with
        | serve hc' =>
            cases hc.symm.trans hc'
            exact serveCall_due hfetches hexists
      · by_cases hreceive : a = .receive j
        · subst hreceive
          cases act_happens h with
          | receive hc' hb =>
              cases hc.symm.trans hc'
              exact answered_due hb hfetches hloaded
        · have hlose : a ≠ .lose j := by
            rintro rfl
            exact hlands c hc id hfetches.1
          obtain ⟨c', hc', hcall, hanswer⟩ := act_call h hc ⟨hreceive, hlose⟩
            fun ctx now heq => hserve ⟨ctx, now, heq⟩
          refine .fetching hc' ?_
          unfold InFlight.fetches
          rw [hcall, hanswer]
          exact hfetches

/-! ## §4. New orders land. -/

/-- Every order in a column that is not one of the `old` is due. -/
structure Landed (old : List Uuid) (w : World) : Prop where
  loaded : w.orders.isSome = true
  due : ∀ o ∈ w.server.db.orders, o.id ∉ old → o.status ∈ boardStatuses → Due w o.id

/-- An order is in a column as it was, or its coming there is under way. -/
theorem act_pulls {w w' : World} {a : Act} (h : w.act a = some w') {o' : Order}
    (ho' : o' ∈ w'.server.db.orders) (hboard : o'.status ∈ boardStatuses) :
    (∃ o ∈ w.server.db.orders, o.id = o'.id ∧ o.status = o'.status)
      ∨ ∃ e ∈ w'.posting, e.id = o'.id ∧ e.pulls = true := by
  cases act_happens h with
  | @request r server hr =>
      rcases perform_pulls hr ho' hboard with hold | ⟨e, he, hid, hpulls⟩
      · exact .inl hold
      · exact .inr ⟨e, List.mem_append_right _ he, hid, hpulls⟩
  | @deliver k e wire hwire hfree =>
      rw [(handle_sameFeed _ k e).server] at ho'
      exact .inl ⟨o', ho', rfl, rfl⟩
  | @serve k ctx now c hc =>
      unfold World.serveCall at ho' ⊢
      split at ho'
      · exact .inl ⟨o', ho', rfl, rfl⟩
      · exact .inl ⟨o', ho', rfl, rfl⟩
      -- a tap of the board is a request like any other
      next id toStatus reason prev hcall =>
        dsimp only at ho' ⊢
        split at ho'
        next server hr =>
          rcases perform_pulls hr ho' hboard with hold | ⟨e, he, hid, hpulls⟩
          · exact .inl hold
          · exact .inr ⟨e, List.mem_append_right _ he, hid, hpulls⟩
        next => exact .inl ⟨o', ho', rfl, rfl⟩
  | @receive k c b hc hb =>
      rw [(answered_sameFeed w k c b).server] at ho'
      exact .inl ⟨o', ho', rfl, rfl⟩
  | @lose k c hc =>
      rw [(answered_sameFeed w k c .failed).server] at ho'
      exact .inl ⟨o', ho', rfl, rfl⟩
  | _ => exact .inl ⟨o', ho', rfl, rfl⟩

/-- **One step keeps every order that was announced on its way or on the board.** -/
theorem Landed.step {old : List Uuid} {w w' : World} {a : Act} (hw : Landed old w)
    (ha : InTime w a) (hlands : Lands w a) (h : w.act a = some w') : Landed old w' := by
  constructor
  · obtain ⟨orders, horders⟩ := Option.isSome_iff_exists.mp hw.loaded
    obtain ⟨orders', horders', -⟩ := act_shown hlands h horders
    rw [horders']
    rfl
  · intro o' ho' hnew hboard
    rcases act_pulls h ho' hboard with ⟨o, ho, hid, hstatus⟩ | ⟨e, he, hid, hpulls⟩
    · rw [← hid] at hnew ⊢
      have hexists : (w.server.db.findOrder o.id).isSome = true :=
        List.find?_isSome.mpr ⟨o, ho, decide_eq_true rfl⟩
      exact (hw.due o ho hnew (hstatus ▸ hboard)).step ha hlands hw.loaded hexists h
    · exact .announced (List.mem_append_right _ he) hid hpulls

/-- Nothing about the order is under way. -/
structure Idle (w : World) (id : Uuid) : Prop where
  events : ∀ e ∈ w.wire ++ w.posting, e.id ≠ id
  calls : ∀ k c, w.calls k = some c → c.call ≠ .fetch id ∧ ∀ p ∈ c.back, p.1 ≠ id

/-- With nothing under way for an order, nothing about its status is. -/
theorem Idle.atRest {w : World} {id : Uuid} (h : Idle w id) : AtRest w id := by
  refine ⟨fun p hp => ?_, fun k c hc => (h.calls k c hc).2⟩
  obtain ⟨e, he, hupdate⟩ := List.mem_filterMap.mp hp
  unfold Event.update at hupdate
  split at hupdate
  · cases hupdate
    exact h.events e he
  · cases hupdate

/-- **What is due with nothing under way is on the board.** -/
theorem Due.shown_of_idle {w : World} {id : Uuid} (hdue : Due w id) (hidle : Idle w id) :
    ∃ orders, w.orders = some orders ∧ id ∈ orders.map (·.id) := by
  cases hdue with
  | shown horders hid => exact ⟨_, horders, hid⟩
  | announced he hid hpulls => exact absurd hid (hidle.events _ he)
  | fetching hc hfetches => exact absurd hfetches.1 (hidle.calls _ _ hc).1

/-- **A new order is among the new orders.**  From a reload that was not overtaken, as long as
the board stays in the room, no answer is overtaken, no fetch fails, nothing is reloaded and
the board is not full: an order placed since, or held before the board was loaded and resumed,
is in the column as soon as nothing about it is under way. -/
theorem new_orders_shown {w w₁ w₂ : World} {k : ℕ} {c : InFlight} {rows : List OrderRow}
    {trace : List Act} (h : (board.restrict Ordered).Reachable w)
    (hc : w.calls k = some c) (hrows : c.answer = some (.rows rows))
    (hreload : w.act (.receive k) = some w₁) (hfresh : ¬Overtaken w (.receive k))
    (hidle : ∀ j c, w.calls j = some c → c.back = [])
    (hrun : (board.restrict fun w a => InTime w a ∧ Lands w a).Run w₁ trace w₂) {o : Order}
    (ho : o ∈ w₂.server.db.orders) (hplaced : o.status = .placed)
    (hnew : ∀ x ∈ w₁.server.db.orders, x.id = o.id → x.status ∉ boardStatuses)
    (hquiet : Idle w₂ o.id) :
    ∃ orders, w₂.orders = some orders ∧ o.id ∈ (column .placed orders).map (·.id) := by
  have hstep : InStep w₁ := .reloaded (.reached h) hc hrows hreload hfresh hidle
  -- what was in a column when the board was loaded is left out
  have hlanded : Landed ((w₁.server.db.orders.filter fun x =>
      decide (x.status ∈ boardStatuses)).map (·.id)) w₁ := by
    refine ⟨?_, fun x hx hold hboard => ?_⟩
    · simp only [World.act, hc, hrows, Option.map_some] at hreload
      cases hreload
      rfl
    · refine absurd ?_ hold
      exact List.mem_map_of_mem (List.mem_filter.mpr ⟨hx, decide_eq_true hboard⟩)
  obtain ⟨hstep₂, hlanded₂⟩ := hrun.preserves
    (fun w => InStep w ∧ Landed ((w₁.server.db.orders.filter fun x =>
      decide (x.status ∈ boardStatuses)).map (·.id)) w)
    (fun _ _ _ hw hact => by
      obtain ⟨⟨hin, hlands⟩, hact⟩ := hact
      exact ⟨hw.1.step hin hact, hw.2.step hin hlands hact⟩) ⟨hstep, hlanded⟩
  have hdue : Due w₂ o.id := by
    refine hlanded₂.due o ho (fun hold => ?_) ?_
    · obtain ⟨x, hx, hid⟩ := List.mem_map.mp hold
      obtain ⟨hx, hboard⟩ := List.mem_filter.mp hx
      exact hnew x hx hid (of_decide_eq_true hboard)
    · rw [hplaced]
      decide
  obtain ⟨orders, horders, hid⟩ := hdue.shown_of_idle hquiet
  obtain ⟨t, ht, heq⟩ := List.mem_map.mp hid
  refine ⟨orders, horders, List.mem_map.mpr ⟨t, ?_, heq⟩⟩
  -- its ticket says what the server says
  have hstatus : some o.status = some t.status := by
    rw [← statusOf_mem (serial_uniqueIds hstep₂.server) ho, ← heq]
    exact hstep₂.tells horders ht (heq ▸ hquiet.atRest)
  have hplaced' : t.status = .placed := (Option.some.inj hstatus).symm.trans hplaced
  show t ∈ List.insertionSort _ _
  exact (List.mem_insertionSort _).mpr (List.mem_filter.mpr ⟨ht, decide_eq_true hplaced'⟩)

/-! ## §5. A second lassi. -/

/-- A second order, placed at the counter. -/
def secondLassi : Request := .create cashier ⟨21, 6⟩ (lassiOrder none none none)

/-- It was announced, the board asked for it, and the server answered. -/
def secondFetched : World :=
  (((reloadedBoard.after (.request secondLassi)).after (.emit 0)).after (.deliver 2)).after
    (.serve 2 cashier 7)

/-- The answer has come in. -/
def secondShown : World := secondFetched.after (.receive 2)

theorem secondFetched_fits : Lands secondFetched (.receive 2) := by
  have hfits : ∀ c ∈ secondFetched.calls 2, ∀ b ∈ c.answer,
      b.Fits (secondFetched.orders.getD []).length := by decide +kernel
  exact hfits

theorem secondShown_runs :
    (board.restrict fun w a => InTime w a ∧ Lands w a).Run reloadedBoard
      [.request secondLassi, .emit 0, .deliver 2, .serve 2 cashier 7, .receive 2] secondShown := by
  have hfirst : ∀ w : World, Ordered w (.emit 0) := fun _ _ _ _ he => absurd he List.not_mem_nil
  refine .cons ⟨⟨⟨trivial, id, trivial⟩, trivial⟩, act_after (by decide +kernel)⟩ ?_
  refine .cons ⟨⟨⟨hfirst _, id, by decide +kernel⟩, trivial⟩, act_after (by decide +kernel)⟩ ?_
  refine .cons ⟨⟨⟨trivial, id, trivial⟩, trivial⟩, act_after (by decide +kernel)⟩ ?_
  refine .cons ⟨⟨⟨trivial, id, trivial⟩, trivial⟩, act_after (by decide +kernel)⟩ ?_
  refine .cons ⟨⟨⟨trivial, ?_, trivial⟩, ?_⟩, act_after (by decide +kernel)⟩ (.nil _)
  · have hfresh : ¬Overtaken secondFetched (.receive 2) := by decide +kernel
    exact hfresh
  · exact secondFetched_fits

theorem secondShown_calls : ∀ k, secondShown.calls k = none := by
  intro k
  match k with
  | 0 => decide +kernel
  | 1 => decide +kernel
  | 2 => decide +kernel
  | k + 3 => rfl

/-- The second order stands among the new ones. -/
theorem new_orders_shown_second :
    ∃ orders, secondShown.orders = some orders ∧ 21 ∈ (column .placed orders).map (·.id) := by
  obtain ⟨c, rows, hc, hrows, hfresh⟩ := of_freshRows (w := droppedOut) (k := 1)
    (by decide +kernel)
  have hlast : (secondShown.server.db.findOrder 21).any (fun o => decide (o.status = .placed))
      = true := by decide +kernel
  have hbefore : ∀ x ∈ reloadedBoard.server.db.orders, x.id ≠ 21 := by decide +kernel
  -- what is evaluated is the run; the theorem is applied to its last state
  cases ho : secondShown.server.db.findOrder 21 with
  | none =>
      rw [ho] at hlast
      cases hlast
  | some o =>
      rw [ho, Option.any_some] at hlast
      obtain ⟨hmem, hid⟩ := Db.mem_of_findOrder ho
      have hshown := new_orders_shown (System.restrict_mono (fun _ _ _ h => h.1) droppedOut_reached)
        hc hrows (act_after (by decide +kernel)) hfresh (watching_idle droppedOut_reached)
        secondShown_runs hmem (of_decide_eq_true hlast)
        (fun x hx hxid => absurd (hxid.trans hid) (hbefore x hx)) ⟨?_, ?_⟩
      · rw [hid] at hshown
        exact hshown
      · have hquiet : secondShown.wire ++ secondShown.posting = [] := by decide +kernel
        rw [hquiet]
        exact nofun
      · intro k c hc
        rw [secondShown_calls k] at hc
        cases hc

/-- The board is loaded twice at once; the second lassi is placed, fetched and shown before the
older of the two answers comes in. -/
def loadedTwice : List Act :=
  [.join, .refetch 0, .serve 0 cashier 1, .refetch 1, .serve 1 cashier 1, .receive 0,
    .request secondLassi, .emit 0, .deliver 2, .serve 2 cashier 7, .receive 2, .receive 1]

theorem loadedTwice_runs :
    (System.replay World.act loadedTwice openedBoard).isSome = true := by decide +kernel

/-- **A new order is off the board**, and nothing on its way will bring it back. -/
theorem new_order_missing :
    ∃ w, board.Reachable w ∧ w.wire = [] ∧ w.posting = []
      ∧ statusOf w.server.db 21 = some .placed
      ∧ ∀ orders ∈ w.orders, 21 ∉ orders.map (·.id) := by
  have h : board.Reachable _ := System.replay_reachable (fun _ _ _ h => h) loadedTwice
    openedBoard openedBoard_opened (Option.some_get loadedTwice_runs).symm
  exact ⟨_, h, by decide +kernel, by decide +kernel, by decide +kernel, by decide +kernel⟩

end OraOS.Kitchen
