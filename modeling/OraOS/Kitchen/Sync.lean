/-
  OraOS.Kitchen.Sync — what the tickets on the kitchen board say.

  A ticket is overwritten by the announcements of its order, by what a fetch brings, and by
  the board itself when it is tapped or the tap fails.  An answer that was read before an
  announcement and comes in after it puts an old status back, and nothing corrects it.

    * `act_keeps`           — an announcement under way is never outrun by what it corrects;
    * `Overtaken`           — the answers that bring back the past;
    * `tickets_tell_status` — in the runs without them, from a reload on, every ticket shows
                              its order's status as soon as nothing is under way;
    * `voided_ticket_back`  — and a run with one, in which a voided order is back among the
                              new ones.
-/
import OraOS.Kitchen.Board

namespace OraOS.Kitchen

open OraOS.Api
open OraOS.Lib
open OraOS.Orders

/-! ## §1. What is on its way to the board. -/

/-- The status changes announced or about to be, oldest first. -/
def World.feed (w : World) : List (Uuid × OrderStatus) := updates (w.wire ++ w.posting)

/-- A status that the server has, or that an announcement under way will overwrite. -/
def World.Shows (w : World) (id : Uuid) (status : OrderStatus) : Prop :=
  Current (statusOf w.server.db) w.feed id status

/-- The orders whose announcements the step uses up. -/
def missed (w : World) : Act → List Uuid
  | .emit i => if w.joined then [] else movedIds w.posting[i]?.toList
  | .disconnect => movedIds w.wire
  | .deliver _ => movedIds (w.wire.take 1)
  | _ => []

/-- The announcements of one order's moves leave in the order of the moves. -/
def Ordered (w : World) : Act → Prop
  | .emit i => ∀ e ∈ w.posting[i]?, ∀ e' ∈ w.posting.take i,
      e.name = .statusChanged → e'.name = .statusChanged → e'.id ≠ e.id
  | _ => True

/-- The orders the announcements move are those of their updates. -/
theorem movedIds_eq (events : List Event) : movedIds events = (updates events).map (·.1) := by
  unfold movedIds updates
  induction events with
  | nil => rfl
  | cons e events ih =>
      by_cases h : e.name = .statusChanged
      · rw [List.filter_cons_of_pos (by simpa using h), List.filterMap_cons]
        simp only [Event.update, if_pos h, List.map_cons]
        exact congrArg _ ih
      · rw [List.filter_cons_of_neg (by simpa using h), List.filterMap_cons]
        simp only [Event.update, if_neg h]
        exact ih

/-- An order not moved has no update. -/
theorem not_of_movedIds {events : List Event} {id : Uuid} (h : id ∉ movedIds events) :
    ∀ p ∈ updates events, p.1 ≠ id := by
  intro p hp hid
  rw [movedIds_eq] at h
  exact h (List.mem_map.mpr ⟨p, hp, hid⟩)

/-- The first announcement speaks first. -/
theorem updates_cons (e : Event) (events : List Event) :
    updates (e :: events) = updates [e] ++ updates events :=
  updates_append [e] events

/-- What the feed's being as it was leaves. -/
structure Keeps (w w' : World) (ids : List Uuid) : Prop where
  carries : Carries (statusOf w.server.db) w.feed → Carries (statusOf w'.server.db) w'.feed
  shows : ∀ id status, id ∉ ids → w.Shows id status → w'.Shows id status

/-- Where server and feed stay, everything is kept. -/
theorem Keeps.same {w w' : World} {ids : List Uuid} (hserver : w'.server = w.server)
    (hfeed : w'.feed = w.feed) : Keeps w w' ids := by
  unfold World.feed at hfeed
  constructor
  · intro h
    rw [hserver, World.feed, hfeed]
    exact h
  · intro id status _ h
    rw [World.Shows, hserver, World.feed, hfeed]
    exact h

/-- A request is committed, and its announcements wait to be emitted. -/
theorem Keeps.request {w w' : World} {r : Request} (hr : perform w.server r = .ok w'.server)
    (hposting : w'.posting = w.posting ++ announced w.server.db r) (hwire : w'.wire = w.wire) :
    Keeps w w' [] := by
  have hfeed : w'.feed = w.feed ++ updates (announced w.server.db r) := by
    rw [World.feed, World.feed, hposting, hwire, ← List.append_assoc, updates_append]
  constructor
  · intro h
    rw [hfeed]
    exact h.write (perform_announces hr)
  · intro id status _ h
    rw [World.Shows, hfeed]
    exact Current.write h (perform_announces hr)

/-- A list around one of its elements. -/
theorem split_at {α : Type} {l : List α} {i : ℕ} {a : α} (h : l[i]? = some a) :
    l = l.take i ++ a :: l.drop (i + 1) ∧ l.eraseIdx i = l.take i ++ l.drop (i + 1) := by
  obtain ⟨hi, rfl⟩ := List.getElem?_eq_some_iff.mp h
  refine ⟨?_, List.eraseIdx_eq_take_drop_succ l i⟩
  rw [← List.drop_eq_getElem_cons hi, List.take_append_drop]

/-- An event of another kind is no update. -/
theorem updates_other {e : Event} (h : e.name ≠ .statusChanged) : updates [e] = [] := by
  simp [updates, Event.update, h]

/-- A status change is one update. -/
theorem updates_move {e : Event} (h : e.name = .statusChanged) :
    updates [e] = [(e.id, e.status)] := by
  simp [updates, Event.update, h]

/-- What leaves in order has no update of its order before it. -/
theorem ordered_updates {w : World} {i : ℕ} {e : Event} (hordered : Ordered w (.emit i))
    (he : w.posting[i]? = some e) (hmove : e.name = .statusChanged) :
    ∀ q ∈ updates (w.posting.take i), q.1 ≠ (e.id, e.status).1 := by
  intro q hq
  obtain ⟨e', he', hupdate⟩ := List.mem_filterMap.mp hq
  unfold Event.update at hupdate
  split at hupdate
  next hmove' =>
    cases hupdate
    exact hordered e he e' he' hmove hmove'
  next => cases hupdate

/-- **An announcement is emitted**: to the board, behind the others of its order. -/
theorem Keeps.emit {w w' : World} {i : ℕ} {e : Event} (hordered : Ordered w (.emit i))
    (he : w.posting[i]? = some e) (hserver : w'.server = w.server)
    (hposting : w'.posting = w.posting.eraseIdx i) (hwire : w'.wire = w.wire ++ [e]) :
    Keeps w w' [] := by
  obtain ⟨hsplit, herase⟩ := split_at he
  have hfeed : w.feed = updates w.wire
      ++ (updates (w.posting.take i) ++ (updates [e] ++ updates (w.posting.drop (i + 1)))) := by
    conv_lhs => rw [World.feed, hsplit]
    rw [updates_append, updates_append, updates_cons]
  have hfeed' : w'.feed = updates w.wire
      ++ (updates [e] ++ (updates (w.posting.take i) ++ updates (w.posting.drop (i + 1)))) := by
    rw [World.feed, hposting, hwire, herase]
    simp only [updates_append, List.append_assoc]
  -- it overtakes those that were committed before it, none of them of its order
  by_cases hmove : e.name = .statusChanged
  · rw [updates_move hmove] at hfeed hfeed'
    constructor
    · intro h
      rw [hfeed] at h
      rw [hserver, hfeed']
      exact h.sooner (ordered_updates hordered he hmove)
    · intro id status _ h
      rw [World.Shows, hfeed] at h
      rw [World.Shows, hserver, hfeed']
      exact h.sooner
  · rw [updates_other hmove] at hfeed hfeed'
    exact .same hserver (hfeed'.trans hfeed.symm)

/-- **An announcement is lost**: to a board that is not in the room. -/
theorem Keeps.lost {w w' : World} {i : ℕ} {e : Event} (hordered : Ordered w (.emit i))
    (he : w.posting[i]? = some e) (hdeaf : w.wire = []) (hserver : w'.server = w.server)
    (hposting : w'.posting = w.posting.eraseIdx i) (hwire : w'.wire = w.wire) :
    Keeps w w' (movedIds [e]) := by
  obtain ⟨hsplit, herase⟩ := split_at he
  have hfeed : w.feed = updates (w.posting.take i)
      ++ (updates [e] ++ updates (w.posting.drop (i + 1))) := by
    conv_lhs => rw [World.feed, hdeaf, hsplit]
    rw [List.nil_append, updates_append, updates_cons]
  have hfeed' : w'.feed = updates (w.posting.take i) ++ updates (w.posting.drop (i + 1)) := by
    rw [World.feed, hposting, hwire, hdeaf, herase, List.nil_append, updates_append]
  -- its order is the only one about which less is said now
  by_cases hmove : e.name = .statusChanged
  · rw [updates_move hmove] at hfeed
    constructor
    · intro h
      rw [hfeed] at h
      rw [hserver, hfeed']
      exact h.drop (ordered_updates hordered he hmove)
    · intro id status hid h
      rw [World.Shows, hfeed] at h
      rw [World.Shows, hserver, hfeed']
      refine h.drop fun heq => ?_
      rw [movedIds_eq, updates_move hmove, List.map_singleton] at hid
      exact hid (heq ▸ List.mem_singleton_self _)
  · rw [updates_other hmove] at hfeed
    exact .same hserver (hfeed'.trans hfeed.symm)

/-- **The first announcement arrives.** -/
theorem Keeps.deliver {w w' : World} {e : Event} {wire : List Event} (hwire : w.wire = e :: wire)
    (hserver : w'.server = w.server) (hposting : w'.posting = w.posting) (hwire' : w'.wire = wire) :
    Keeps w w' (movedIds [e]) := by
  have hfeed : w.feed = updates [e] ++ w'.feed := by
    rw [World.feed, World.feed, hwire, hwire', hposting, List.cons_append, updates_cons]
  constructor
  · intro h
    rw [hfeed] at h
    rw [hserver]
    exact h.dropFront
  · intro id status hid h
    rw [World.Shows, hfeed] at h
    rw [World.Shows, hserver]
    exact Current.dropFront h (not_of_movedIds hid)

/-- **The socket is gone**, and what was on the wire with it. -/
theorem Keeps.disconnect (w : World) (joined : Bool) (calls : ℕ → Option InFlight) :
    Keeps w { w with joined, wire := [], calls } (movedIds w.wire) := by
  have hfeed : w.feed = updates w.wire ++ updates ([] ++ w.posting) := updates_append _ _
  constructor
  · intro h
    rw [hfeed] at h
    exact h.dropFront
  · intro id status hid h
    rw [World.Shows, hfeed] at h
    exact Current.dropFront h (not_of_movedIds hid)

/-! ## §2. No step outruns an announcement. -/

/-- The tables and the events, which the board does not write. -/
structure SameFeed (w w' : World) : Prop where
  server : w'.server = w.server
  posting : w'.posting = w.posting
  joined : w'.joined = w.joined
  wire : w'.wire = w.wire

/-- Where nothing is sent or received, everything is kept. -/
theorem SameFeed.keeps {w w' : World} {ids : List Uuid} (h : SameFeed w w') :
    Keeps w w' ids := by
  refine .same h.server ?_
  rw [World.feed, World.feed, h.posting, h.wire]

/-- The handlers send nothing. -/
theorem handle_sameFeed (w : World) (k : ℕ) (e : Event) : SameFeed w (w.handle k e) := by
  unfold World.handle
  split
  · exact ⟨rfl, rfl, rfl, rfl⟩
  · exact ⟨rfl, rfl, rfl, rfl⟩
  · split
    · exact ⟨rfl, rfl, rfl, rfl⟩
    · split <;> exact ⟨rfl, rfl, rfl, rfl⟩

/-- Taking an answer sends nothing. -/
theorem answered_sameFeed (w : World) (k : ℕ) (c : InFlight) (a : Answer) :
    SameFeed w (w.answered k c a) := by
  unfold World.answered
  split <;> exact ⟨rfl, rfl, rfl, rfl⟩

/-- **The server answers a call**, and announces what it did for it. -/
theorem serveCall_keeps (w : World) (k : ℕ) (ctx : TenantContext) (now : Instant) (c : InFlight) :
    Keeps w (w.serveCall k ctx now c) [] ∧ (w.serveCall k ctx now c).joined = w.joined
      ∧ (w.serveCall k ctx now c).wire = w.wire := by
  unfold World.serveCall
  split
  · exact ⟨SameFeed.keeps ⟨rfl, rfl, rfl, rfl⟩, rfl, rfl⟩
  · exact ⟨SameFeed.keeps ⟨rfl, rfl, rfl, rfl⟩, rfl, rfl⟩
  · dsimp only
    split
    next server hr => exact ⟨.request hr rfl rfl, rfl, rfl⟩
    next => exact ⟨SameFeed.keeps ⟨rfl, rfl, rfl, rfl⟩, rfl, rfl⟩

/-- A delivery uses up the first announcement. -/
theorem missed_deliver {w : World} {k : ℕ} {e : Event} {wire : List Event}
    (hwire : w.wire = e :: wire) : missed w (.deliver k) = movedIds [e] := by
  simp only [missed, hwire]
  rfl

/-- **Whatever happens**, the announcements under way still end with what the server has, and
a status that will be overwritten will be, unless the step itself uses up the announcement. -/
theorem act_keeps {w w' : World} {a : Act} (hdeaf : w.joined = false → w.wire = [])
    (hordered : Ordered w a) (h : w.act a = some w') :
    Keeps w w' (missed w a) ∧ (w'.joined = false → w'.wire = []) := by
  cases act_happens h with
  | request hr => exact ⟨.request hr rfl rfl, hdeaf⟩
  | @emit i e he hjoined =>
      have hmissed : missed w (.emit i) = [] := if_pos hjoined
      rw [hmissed]
      refine ⟨.emit hordered he rfl rfl rfl, fun hno => ?_⟩
      cases hjoined.symm.trans hno
  | @lost i e he hjoined =>
      have hmissed : missed w (.emit i) = movedIds [e] := by
        simp only [missed, hjoined, Bool.false_eq_true, if_false, he]
        rfl
      rw [hmissed]
      exact ⟨.lost hordered he (hdeaf hjoined) rfl rfl rfl, fun _ => hdeaf hjoined⟩
  | join => exact ⟨.same rfl rfl, fun hno => by cases hno⟩
  | disconnect => exact ⟨.disconnect w false _, fun _ => rfl⟩
  | refetch hfree => exact ⟨SameFeed.keeps ⟨rfl, rfl, rfl, rfl⟩, hdeaf⟩
  -- handling comes after the delivery and sends nothing
  | @deliver k e wire hwire hfree =>
      have hkept := handle_sameFeed { w with wire, calls := noted (movedIds [e]) w.calls } k e
      rw [missed_deliver hwire]
      refine ⟨.deliver hwire hkept.server hkept.posting hkept.wire, fun hno => ?_⟩
      have hnone := hdeaf (hkept.joined.symm.trans hno)
      rw [hwire] at hnone
      cases hnone
  | tap hfree => exact ⟨SameFeed.keeps ⟨rfl, rfl, rfl, rfl⟩, hdeaf⟩
  | @serve k ctx now c hc =>
      obtain ⟨hkeeps, hjoined, hwire⟩ := serveCall_keeps w k ctx now c
      refine ⟨hkeeps, fun hno => ?_⟩
      rw [hwire]
      exact hdeaf (hjoined ▸ hno)
  | @receive k c b hc hb =>
      have hsame := answered_sameFeed w k c b
      refine ⟨hsame.keeps, fun hno => ?_⟩
      rw [hsame.wire]
      exact hdeaf (hsame.joined ▸ hno)
  | @lose k c hc =>
      have hsame := answered_sameFeed w k c .failed
      refine ⟨hsame.keeps, fun hno => ?_⟩
      rw [hsame.wire]
      exact hdeaf (hsame.joined ▸ hno)

/-! ## §3. The calls under way. -/

/-- The statuses that an answer writes on the board. -/
def InFlight.writes (c : InFlight) : List (Uuid × OrderStatus) :=
  match c.answer with
  | some (.rows rows) => rows.map fun row => (row.id, row.status)
  | some (.row row) => [(row.id, row.status)]
  | _ => []

/-- The status that a tap goes back to if it fails. -/
def InFlight.back (c : InFlight) : List (Uuid × OrderStatus) :=
  match c.call with
  | .advance id _ _ (some prev) => [(id, prev)]
  | _ => []

/-- The status that a tap has put on the board ahead of the server. -/
def InFlight.ahead (c : InFlight) : List (Uuid × OrderStatus) :=
  match c.call, c.answer with
  | .advance id toStatus _ (some _), none => [(id, toStatus)]
  | .advance id toStatus _ (some _), some .failed => [(id, toStatus)]
  | _, _ => []

theorem mem_ahead {c : InFlight} {p : Uuid × OrderStatus} (h : p ∈ c.ahead) :
    ∃ reason prev, c.call = .advance p.1 p.2 reason (some prev)
      ∧ (c.answer = none ∨ c.answer = some .failed) := by
  unfold InFlight.ahead at h
  split at h
  next id toStatus reason prev hcall hanswer =>
    rw [List.mem_singleton.mp h]
    exact ⟨reason, prev, hcall, .inl hanswer⟩
  next id toStatus reason prev hcall hanswer =>
    rw [List.mem_singleton.mp h]
    exact ⟨reason, prev, hcall, .inr hanswer⟩
  next => cases h

/-- What a call of the next state has to do with the calls of this one. -/
inductive CallFrom (w : World) (a : Act) (k : ℕ) (c' : InFlight) : Prop where
  /-- It was under way; a `PATCH` may have been answered. -/
  | kept {c : InFlight} (hc : w.calls k = some c) (hcall : c'.call = c.call)
      (hanswer : c'.answer = c.answer ∨ c'.writes = [])
      (hpassed : ∀ id, id ∈ c.passed ∨ id ∈ missed w a → id ∈ c'.passed)
  /-- It starts; a tap remembers a ticket of the board. -/
  | started (hanswer : c'.answer = none)
      (hback : ∀ p ∈ c'.back, ∃ toStatus reason, a = .tap k p.1 toStatus reason
        ∧ ∃ orders ∈ w.orders, ∃ t ∈ orders, t.id = p.1 ∧ t.status = p.2)
  /-- Its answer has just been read. -/
  | read (hmissed : missed w a = []) (hwrites : UniqueIds w.server.db →
        ∀ p ∈ c'.writes, statusOf w.server.db p.1 = some p.2)
      (hback : c'.back = [])

/-- Noting orders changes what a call has missed and nothing else. -/
theorem noted_some {ids : List Uuid} {calls : ℕ → Option InFlight} {k : ℕ} {c' : InFlight}
    (h : noted ids calls k = some c') :
    ∃ c, calls k = some c ∧ c' = { c with passed := c.passed ++ ids } := by
  obtain ⟨c, hc, heq⟩ := Option.map_eq_some_iff.mp h
  exact ⟨c, hc, heq.symm⟩

/-- A call that was there before is still the same. -/
theorem CallFrom.same {w : World} {a : Act} {k : ℕ} {c : InFlight} (hc : w.calls k = some c)
    (hmissed : missed w a = []) : CallFrom w a k c := by
  refine .kept hc rfl (.inl rfl) fun id hid => ?_
  rcases hid with hid | hid
  · exact hid
  · rw [hmissed] at hid
    cases hid

/-- A call that was there before has missed what the step used up. -/
theorem CallFrom.noted {w : World} {a : Act} {k : ℕ} {c' : InFlight}
    (h : noted (missed w a) w.calls k = some c') : CallFrom w a k c' := by
  obtain ⟨c, hc, rfl⟩ := noted_some h
  exact .kept hc rfl (.inl rfl) fun id hid => List.mem_append.mpr hid

/-- A row of the list is a row of the table. -/
theorem mem_listOrders {db : Db} {q : ListOrdersQuery} {row : OrderRow}
    (h : row ∈ listOrders db q) : ∃ o ∈ db.orders, row = selectOrder db o := by
  obtain ⟨o, ho, rfl⟩ := List.mem_map.mp h
  have hsorted := List.mem_of_mem_take ho
  rw [List.mem_insertionSort] at hsorted
  exact ⟨o, List.mem_of_mem_filter hsorted, rfl⟩

/-- Serving one call leaves the others. -/
theorem serveCall_others {w : World} {k j : ℕ} {ctx : TenantContext} {now : Instant}
    {c : InFlight} (hj : j ≠ k) : (w.serveCall k ctx now c).calls j = w.calls j := by
  unfold World.serveCall
  split
  · exact Function.update_of_ne hj _ _
  · exact Function.update_of_ne hj _ _
  · dsimp only
    split <;> exact Function.update_of_ne hj _ _

/-- The calls after a call is served. -/
theorem serveCall_calls {w : World} {k j : ℕ} {ctx : TenantContext} {now : Instant}
    {c c' : InFlight} (hc : w.calls k = some c)
    (h : (w.serveCall k ctx now c).calls j = some c') : CallFrom w (.serve k ctx now) j c' := by
  by_cases hj : j = k
  · subst hj
    unfold World.serveCall at h
    split at h
    -- a list: what it will write is what the tables have now
    next hcall =>
      cases (Function.update_self j _ _).symm.trans h
      refine .read rfl (fun hids p hp => ?_) ?_
      · obtain ⟨row, hrow, rfl⟩ := List.mem_map.mp hp
        obtain ⟨o, ho, rfl⟩ := mem_listOrders hrow
        exact statusOf_mem hids ho
      · simp only [InFlight.back, hcall]
    next id hcall =>
      cases (Function.update_self j _ _).symm.trans h
      refine .read rfl (fun hids p hp => ?_) ?_
      · simp only [InFlight.writes] at hp
        split at hp
        next heq => split at heq <;> cases heq
        next row heq =>
          split at heq
          next o ho =>
            cases heq
            rw [List.mem_singleton.mp hp]
            exact statusOf_mem hids (Db.mem_of_findOrder ho).1
          next => cases heq
        next => cases hp
      · simp only [InFlight.back, hcall]
    -- a tap that got through, or did not: the call goes on as it was
    next id toStatus reason prev hcall =>
      dsimp only at h
      split at h
      · cases (Function.update_self j _ _).symm.trans h
        exact .kept hc rfl (.inr rfl) fun id hid => hid.resolve_right nofun
      · cases (Function.update_self j _ _).symm.trans h
        exact .kept hc rfl (.inr rfl) fun id hid => hid.resolve_right nofun
  · exact .same ((serveCall_others hj).symm.trans h) rfl

/-- A call that starts and asks for rows. -/
theorem started_calls {w : World} {a : Act} {k j : ℕ} {call : Call} {c' : InFlight}
    {calls : ℕ → Option InFlight} (hback : InFlight.back ⟨call, none, []⟩ = [])
    (hrest : ∀ c', calls j = some c' → CallFrom w a j c')
    (h : Function.update calls k (some ⟨call, none, []⟩) j = some c') : CallFrom w a j c' := by
  by_cases hj : j = k
  · subst hj
    cases (Function.update_self j _ _).symm.trans h
    refine .started rfl fun p hp => ?_
    rw [hback] at hp
    cases hp
  · exact hrest c' ((Function.update_of_ne hj _ _).symm.trans h)

theorem handle_calls {w : World} {a : Act} {k j : ℕ} {e : Event} {c' : InFlight}
    {v : World} (hv : ∀ c', v.calls j = some c' → CallFrom w a j c')
    (h : (v.handle k e).calls j = some c') : CallFrom w a j c' := by
  unfold World.handle at h
  split at h
  · exact started_calls rfl hv h
  · exact hv c' h
  · split at h
    · exact hv c' h
    · split at h
      · exact started_calls rfl hv h
      · exact hv c' h

/-- An answer ends its call. -/
theorem answered_calls (w : World) (k : ℕ) (c : InFlight) (a : Answer) :
    (w.answered k c a).calls = Function.update w.calls k none := by
  unfold World.answered
  split <;> rfl

theorem finished_calls {w : World} {a : Act} {k j : ℕ} {c' : InFlight}
    (hmissed : missed w a = []) (h : Function.update w.calls k none j = some c') :
    CallFrom w a j c' := by
  by_cases hj : j = k
  · subst hj
    cases (Function.update_self j _ _).symm.trans h
  · exact .same ((Function.update_of_ne hj _ _).symm.trans h) hmissed

/-- **A call of the board is one it had, a new one, or one that was answered.** -/
theorem act_calls {w w' : World} {a : Act} (h : w.act a = some w') {j : ℕ} {c' : InFlight}
    (hc' : w'.calls j = some c') : CallFrom w a j c' := by
  cases act_happens h with
  | request hr => exact .same hc' rfl
  | emit he hjoined => exact .same hc' (if_pos hjoined)
  | @lost i e he hjoined =>
      have hmissed : missed w (.emit i) = movedIds [e] := by
        simp only [missed, hjoined, Bool.false_eq_true, if_false, he]
        rfl
      exact .noted (hmissed ▸ hc')
  | join => exact .same hc' rfl
  | disconnect => exact .noted hc'
  | refetch hfree => exact started_calls rfl (fun c' hc' => .same hc' rfl) hc'
  | @deliver k e wire hwire hfree =>
      refine handle_calls (v := { w with wire, calls := noted (movedIds [e]) w.calls })
        (fun c' hc' => ?_) hc'
      exact .noted (missed_deliver hwire ▸ hc')
  | @tap k id toStatus reason hfree =>
      by_cases hj : j = k
      · subst hj
        cases (Function.update_self j _ _).symm.trans hc'
        refine .started rfl fun p hp => ?_
        simp only [InFlight.back] at hp
        split at hp
        -- what a failure would put back was on the ticket when it was tapped
        next id' to' reason' prev heq =>
          injection heq with hid hto hreason hprev
          subst hid hto hreason
          obtain ⟨t, ht, hstatus⟩ := Option.map_eq_some_iff.mp hprev
          obtain ⟨orders, horders, hfind⟩ := Option.bind_eq_some_iff.mp ht
          rw [List.mem_singleton.mp hp]
          refine ⟨toStatus, reason, rfl, orders, horders, t, ?_, ?_, hstatus⟩
          · exact List.mem_of_find?_eq_some hfind
          · simpa using List.find?_some hfind
        next => cases hp
      · exact .same ((Function.update_of_ne hj _ _).symm.trans hc') rfl
  | serve hc => exact serveCall_calls hc hc'
  | receive hc hb =>
      rw [answered_calls] at hc'
      exact finished_calls rfl hc'
  | lose hc =>
      rw [answered_calls] at hc'
      exact finished_calls rfl hc'

/-! ## §4. Answers under way. -/

/-- In any run: what an answer under way brings has not been outrun by an announcement, or is
known to have been. -/
structure Tracks (w : World) : Prop where
  server : serial.Reachable w.server
  carries : Carries (statusOf w.server.db) w.feed
  deaf : w.joined = false → w.wire = []
  answers : ∀ k c, w.calls k = some c → ∀ p ∈ c.writes, p.1 ∉ c.passed → w.Shows p.1 p.2

/-- The server goes through requests only, whatever the board does. -/
theorem act_server {w w' : World} {a : Act} (hs : serial.Reachable w.server)
    (h : w.act a = some w') : serial.Reachable w'.server := by
  cases act_happens h with
  | request hr => exact hs.step hr
  | @deliver k e wire hwire hfree =>
      rw [(handle_sameFeed _ k e).server]
      exact hs
  | @serve k ctx now c hc =>
      unfold World.serveCall
      split
      · exact hs
      · exact hs
      · dsimp only
        split
        next server hr => exact hs.step hr
        next => exact hs
  | @receive k c b hc hb =>
      rw [(answered_sameFeed w k c b).server]
      exact hs
  | @lose k c hc =>
      rw [(answered_sameFeed w k c .failed).server]
      exact hs
  | _ => exact hs

/-- What has just been read is shown. -/
theorem Keeps.read {w w' : World} {a : Act} (hkeeps : Keeps w w' (missed w a))
    (hmissed : missed w a = []) {id : Uuid} {status : OrderStatus}
    (h : statusOf w.server.db id = some status) : w'.Shows id status := by
  refine hkeeps.shows id status ?_ (.inl h)
  rw [hmissed]
  exact List.not_mem_nil

theorem Tracks.step {w w' : World} {a : Act} (hw : Tracks w) (hordered : Ordered w a)
    (h : w.act a = some w') : Tracks w' := by
  obtain ⟨hkeeps, hdeaf⟩ := act_keeps hw.deaf hordered h
  refine ⟨act_server hw.server h, hkeeps.carries hw.carries, hdeaf, ?_⟩
  intro k c' hc' p hp hpassed
  -- an answer that was there before stays right but for what passed since; a new one was just read
  cases act_calls h hc' with
  | @kept c hc hcall hanswer hmore =>
      rcases hanswer with hanswer | hnone
      · have hwrites : c'.writes = c.writes := by rw [InFlight.writes, hanswer]; rfl
        rw [hwrites] at hp
        refine hkeeps.shows _ _ (fun hid => hpassed (hmore _ (.inr hid))) ?_
        exact hw.answers k c hc p hp fun hid => hpassed (hmore _ (.inl hid))
      · rw [hnone] at hp
        cases hp
  | started hanswer hback =>
      rw [InFlight.writes, hanswer] at hp
      cases hp
  | read hmissed hwrites hback =>
      exact hkeeps.read hmissed (hwrites (serial_uniqueIds hw.server) p hp)

/-- **In every run with ordered announcements the feed ends with what the server has.** -/
theorem Tracks.reached {w : World} (h : (board.restrict Ordered).Reachable w) : Tracks w := by
  refine h.invariant Tracks ?_ fun _ _ _ hw hstep => hw.step (And.left hstep) (And.right hstep)
  intro w hw
  have hfeed : w.feed = [] := by
    rw [World.feed, hw.wire, hw.posting]
    rfl
  refine ⟨hw.server, ?_, fun _ => hw.wire, ?_⟩
  · rw [hfeed]
    exact .nil
  · intro k c hc
    rw [hw.calls k] at hc
    cases hc

/-! ## §5. The tickets. -/

/-- The answers that bring back what an announcement has already corrected. -/
def Overtaken (w : World) : Act → Prop
  | .receive k => ∃ c ∈ w.calls k, ∃ p ∈ (if c.answer = some .failed then c.back else c.writes),
      p.1 ∈ c.passed
  | .lose k => ∃ c ∈ w.calls k, ∃ p ∈ c.back, p.1 ∈ c.passed
  | _ => False

/-- The steps that keep the board in step: it stays in the room, a ticket is not tapped again
while a tap of it is under way, and no answer is overtaken. -/
def InTime (w : World) (a : Act) : Prop :=
  Ordered w a ∧ ¬Overtaken w a ∧
    match a with
    | .emit _ => w.joined = true
    | .disconnect => False
    | .tap _ id _ _ => ∀ k c, w.calls k = some c → ∀ p ∈ c.back, p.1 ≠ id
    | _ => True

/-- A tap has put the status on the board ahead of the server. -/
def Ahead (w : World) (id : Uuid) (status : OrderStatus) : Prop :=
  ∃ k c, w.calls k = some c ∧ (id, status) ∈ c.ahead

/-- **Every ticket tells its order's status**, or will be told it. -/
structure InStep (w : World) : Prop extends Tracks w where
  backs : ∀ k c, w.calls k = some c → ∀ p ∈ c.back, p.1 ∉ c.passed → w.Shows p.1 p.2
  tickets : ∀ orders ∈ w.orders, ∀ t ∈ orders,
    w.Shows t.id t.status ∨ Ahead w t.id t.status

theorem mem_patchStatus {id : Uuid} {status : OrderStatus} {prev : List OrderRow} {t : OrderRow}
    (h : t ∈ patchStatus id status prev) :
    (t.id = id ∧ t.status = status ∧ ∃ x ∈ prev, x.id = id) ∨ (t ∈ prev ∧ t.id ≠ id) := by
  obtain ⟨x, hx, rfl⟩ := List.mem_map.mp h
  by_cases hid : x.id = id
  · rw [if_pos hid]
    exact .inl ⟨hid, rfl, x, hx, hid⟩
  · rw [if_neg hid]
    exact .inr ⟨hx, hid⟩

theorem mem_upsert {row t : OrderRow} {prev : List OrderRow} (h : t ∈ upsert row prev) :
    t = row ∨ t ∈ prev := by
  rcases List.mem_cons.mp (List.mem_of_mem_take h) with rfl | h
  · exact .inl rfl
  · exact .inr (List.mem_of_mem_filter h)

/-- Where a ticket of the next state has its status from. -/
inductive TicketFrom (w : World) (a : Act) (t : OrderRow) : Prop where
  | kept {orders : List OrderRow} (horders : w.orders = some orders) (ht : t ∈ orders)
      (hheard : ∀ k, a = .deliver k → t.id ∉ missed w a)
      (hback : ∀ k c, a = .receive k ∨ a = .lose k → w.calls k = some c →
        ∀ p ∈ c.ahead, p.1 ≠ t.id)
  | heard {k : ℕ} {e : Event} {wire : List Event} (ha : a = .deliver k)
      (hwire : w.wire = e :: wire) (hname : e.name = .statusChanged) (hid : t.id = e.id)
      (hstatus : t.status = e.status)
  | tapped {k : ℕ} {reason : Option String} (ha : a = .tap k t.id t.status reason)
      {orders : List OrderRow} (horders : w.orders = some orders)
      (ht : ∃ x ∈ orders, x.id = t.id)
  | brought {k : ℕ} {c : InFlight} (hc : w.calls k = some c)
      (h : (a = .receive k ∧ c.answer ≠ some .failed ∧ (t.id, t.status) ∈ c.writes)
        ∨ (a = .receive k ∧ c.answer = some .failed ∧ (t.id, t.status) ∈ c.back)
        ∨ (a = .lose k ∧ (t.id, t.status) ∈ c.back))

/-- A step that is no delivery and no answer leaves the tickets. -/
theorem TicketFrom.same {w : World} {a : Act} {t : OrderRow} {orders : List OrderRow}
    (horders : w.orders = some orders) (ht : t ∈ orders)
    (ha : ∀ k, a ≠ .deliver k ∧ a ≠ .receive k ∧ a ≠ .lose k) : TicketFrom w a t := by
  refine .kept horders ht (fun k h => absurd h (ha k).1) fun k c h => ?_
  rcases h with h | h
  · exact absurd h (ha k).2.1
  · exact absurd h (ha k).2.2

/-- Where a ticket comes from, if an announcement came in. -/
theorem handle_tickets {w v : World} {k : ℕ} {e : Event} {wire : List Event}
    (hwire : w.wire = e :: wire) (hv : v.orders = w.orders) {orders : List OrderRow}
    (horders : (v.handle k e).orders = some orders) {t : OrderRow} (ht : t ∈ orders) :
    TicketFrom w (.deliver k) t := by
  have hmissed : missed w (.deliver k) = movedIds [e] := by
    simp only [missed, hwire]
    rfl
  -- a ticket that the event is not about
  have hkept : ∀ {prev : List OrderRow}, w.orders = some prev → t ∈ prev →
      (e.name = .statusChanged → t.id ≠ e.id) → TicketFrom w (.deliver k) t := by
    intro prev hprev hmem hne
    refine .kept hprev hmem (fun k' hk' hid => ?_) fun k' c hk' => ?_
    · rw [hmissed] at hid
      obtain ⟨e', he', heq⟩ := List.mem_map.mp hid
      obtain ⟨hsingle, hname⟩ := List.mem_filter.mp he'
      rw [List.mem_singleton.mp hsingle] at heq hname
      exact hne (by simpa using hname) heq.symm
    · rcases hk' with hk' | hk' <;> cases hk'
  unfold World.handle at horders
  split at horders
  next hname =>
    exact hkept (hv.symm.trans horders) ht fun h => by rw [h] at hname; cases hname
  next hname hnone =>
    rw [hnone] at horders
    cases horders
  next prev hname hprev =>
    have hw : w.orders = some prev := hv.symm.trans hprev
    split at horders
    next hon =>
      cases horders
      rcases mem_patchStatus ht with ⟨hid, hstatus, -⟩ | ⟨hmem, hid⟩
      · exact .heard rfl hwire hname hid hstatus
      · exact hkept hw hmem fun _ => hid
    next hoff =>
      have hmem : t ∈ prev := by
        split at horders
        · cases hprev.symm.trans horders
          exact ht
        · cases hprev.symm.trans horders
          exact ht
      exact hkept hw hmem fun _ hid => hoff (hid ▸ List.mem_map_of_mem hmem)

/-- Where a ticket comes from, if an answer came in. -/
theorem answered_tickets {w : World} {k : ℕ} {c : InFlight} (hc : w.calls k = some c)
    {orders : List OrderRow} {t : OrderRow} (ht : t ∈ orders) {a : Act} {b : Answer}
    (horders : (w.answered k c b).orders = some orders)
    (ha : (a = .receive k ∧ c.answer = some b) ∨ (a = .lose k ∧ b = .failed)) :
    TicketFrom w a t := by
  -- a ticket that the answer is not about
  have hkept : ∀ {prev : List OrderRow}, w.orders = some prev → t ∈ prev →
      (∀ p ∈ c.ahead, p.1 ≠ t.id) → TicketFrom w a t := by
    intro prev hprev hmem hne
    refine .kept hprev hmem (fun k' hk' => ?_) fun k' c' hk' hc' => ?_
    · rcases ha with ⟨rfl, -⟩ | ⟨rfl, -⟩ <;> cases hk'
    · have hk : k' = k := by
        rcases ha with ⟨rfl, -⟩ | ⟨rfl, -⟩ <;> rcases hk' with hk' | hk' <;> cases hk' <;> rfl
      subst hk
      cases hc.symm.trans hc'
      exact hne
  -- an answer with rows is received
  have hreceived : b ≠ .failed → a = .receive k ∧ c.answer = some b := by
    intro hb
    rcases ha with h | ⟨-, h⟩
    · exact h
    · exact absurd h hb
  unfold World.answered at horders
  dsimp only at horders
  split at horders
  next rows _ =>
    cases horders
    obtain ⟨hreceive, hanswer⟩ := hreceived nofun
    refine .brought hc (.inl ⟨hreceive, ?_, ?_⟩)
    · rw [hanswer]
      exact nofun
    · rw [InFlight.writes, hanswer]
      exact List.mem_map_of_mem ht
  next row _ =>
    obtain ⟨hreceive, hanswer⟩ := hreceived nofun
    obtain ⟨prev, hprev, rfl⟩ := Option.map_eq_some_iff.mp horders
    rcases mem_upsert ht with rfl | hmem
    · refine .brought hc (.inl ⟨hreceive, ?_, ?_⟩)
      · rw [hanswer]
        exact nofun
      · rw [InFlight.writes, hanswer]
        exact List.mem_singleton_self _
    · refine hkept hprev hmem fun p hp => ?_
      obtain ⟨_, _, -, h | h⟩ := mem_ahead hp <;> cases hanswer.symm.trans h
  next =>
    obtain ⟨hreceive, hanswer⟩ := hreceived nofun
    refine hkept horders ht fun p hp => ?_
    obtain ⟨_, _, -, h | h⟩ := mem_ahead hp <;> cases hanswer.symm.trans h
  next id toStatus reason prev hcall =>
    have hback : c.back = [(id, prev)] := by rw [InFlight.back, hcall]
    obtain ⟨old, hold, rfl⟩ := Option.map_eq_some_iff.mp horders
    rcases mem_patchStatus ht with ⟨hid, hstatus, -⟩ | ⟨hmem, hid⟩
    · have hmem : (t.id, t.status) ∈ c.back := by
        rw [hback, hid, hstatus]
        exact List.mem_singleton_self _
      rcases ha with ⟨hreceive, hanswer⟩ | ⟨hlose, -⟩
      · exact .brought hc (.inr (.inl ⟨hreceive, hanswer, hmem⟩))
      · exact .brought hc (.inr (.inr ⟨hlose, hmem⟩))
    · refine hkept hold hmem fun p hp heq => ?_
      obtain ⟨_, _, hcall', -⟩ := mem_ahead hp
      cases hcall.symm.trans hcall'
      exact hid heq.symm
  next id toStatus reason hcall =>
    refine hkept horders ht fun p hp => ?_
    obtain ⟨_, _, hcall', -⟩ := mem_ahead hp
    cases hcall.symm.trans hcall'
  next hcall _ =>
    refine hkept horders ht fun p hp => ?_
    obtain ⟨reason, prev, hcall', -⟩ := mem_ahead hp
    exact absurd hcall' (hcall _ _ _ _)

/-- The server does not touch the board. -/
theorem serveCall_orders (w : World) (k : ℕ) (ctx : TenantContext) (now : Instant)
    (c : InFlight) : (w.serveCall k ctx now c).orders = w.orders := by
  unfold World.serveCall
  split
  · rfl
  · rfl
  · dsimp only
    split <;> rfl

/-- **Every ticket after a step, and where it comes from.** -/
theorem act_tickets {w w' : World} {a : Act} (h : w.act a = some w') {orders : List OrderRow}
    (horders : w'.orders = some orders) {t : OrderRow} (ht : t ∈ orders) : TicketFrom w a t := by
  cases act_happens h with
  | @deliver k e wire hwire hfree =>
      exact handle_tickets (v := { w with wire, calls := noted (movedIds [e]) w.calls })
        hwire rfl horders ht
  | tap hfree =>
      obtain ⟨prev, hprev, rfl⟩ := Option.map_eq_some_iff.mp horders
      rcases mem_patchStatus ht with ⟨rfl, rfl, hx⟩ | ⟨hmem, -⟩
      · exact .tapped rfl hprev hx
      · exact .same hprev hmem fun _ => ⟨nofun, nofun, nofun⟩
  | serve hc =>
      rw [serveCall_orders] at horders
      exact .same horders ht fun _ => ⟨nofun, nofun, nofun⟩
  | receive hc hb => exact answered_tickets hc ht horders (.inl ⟨rfl, hb⟩)
  | lose hc => exact answered_tickets hc ht horders (.inr ⟨rfl, rfl⟩)
  | _ => exact .same horders ht fun _ => ⟨nofun, nofun, nofun⟩

/-- A served `PATCH` is what the ticket says ahead of it, or is refused. -/
theorem serveCall_ahead {w : World} {k : ℕ} {ctx : TenantContext} {now : Instant} {c : InFlight}
    {p : Uuid × OrderStatus} (hp : p ∈ c.ahead) :
    (∃ c', (w.serveCall k ctx now c).calls k = some c' ∧ p ∈ c'.ahead)
      ∨ (w.serveCall k ctx now c).Shows p.1 p.2 := by
  obtain ⟨reason, prev, hcall, -⟩ := mem_ahead hp
  unfold World.serveCall
  rw [hcall]
  dsimp only
  split
  next server hr =>
    obtain ⟨db', hok, h⟩ := bind_ok.mp hr
    cases pure_ok.mp h
    refine .inr (.inl ?_)
    -- moved now, or there already
    obtain ⟨o, ho, ⟨hstatus, rfl⟩ | ⟨-, moved, logs, -, rfl⟩⟩ := updateStatus_ok hok
    · show statusOf w.server.db p.1 = some p.2
      rw [statusOf, ho]
      exact congrArg some hstatus
    · have hid : o.id = p.1 := (Db.mem_of_findOrder ho).2
      have horders : (statusChanged w.server.db ctx now o p.2 reason moved logs).orders
        = setStatus w.server.db.orders p.1 p.2 (if resuming o.status p.2 then some now else none) := by
          rw [← hid]
          rfl
      show statusOf (statusChanged w.server.db ctx now o p.2 reason moved logs) p.1 = some p.2
      rw [statusOf_setStatus horders, statusOf, ho]
      exact congrArg some (if_pos rfl)
  next =>
    refine .inl ⟨_, Function.update_self k _ _, ?_⟩
    exact List.mem_singleton_self _

/-- An announcement leaves the other calls alone. -/
theorem handle_call {v : World} {j k : ℕ} {e : Event} {c : InFlight} (hjk : j ≠ k)
    (hc : v.calls j = some c) : (v.handle k e).calls j = some c := by
  have hstarted : ∀ call, v.started k call j = some c := fun call =>
    (Function.update_of_ne hjk _ _).trans hc
  unfold World.handle
  split
  · exact hstarted _
  · exact hc
  · split
    · exact hc
    · split
      · exact hstarted _
      · exact hc

/-- A call stays under way until it is served, and answered or given up. -/
theorem act_call {w w' : World} {a : Act} (h : w.act a = some w') {j : ℕ} {c : InFlight}
    (hc : w.calls j = some c) (ha : a ≠ .receive j ∧ a ≠ .lose j)
    (hserve : ∀ ctx now, a ≠ .serve j ctx now) :
    ∃ c', w'.calls j = some c' ∧ c'.call = c.call ∧ c'.answer = c.answer := by
  -- a slot that is taken is not given to another call
  have htaken : ∀ {k call}, w.calls k = none → w.started k call j = some c := by
    intro k call hfree
    refine (Function.update_of_ne ?_ _ _).trans hc
    rintro rfl
    cases hc.symm.trans hfree
  have hnoted : ∀ ids, noted ids w.calls j = some { c with passed := c.passed ++ ids } := by
    intro ids
    rw [noted, hc]
    rfl
  cases act_happens h with
  | lost he hjoined => exact ⟨_, hnoted _, rfl, rfl⟩
  | disconnect => exact ⟨_, hnoted _, rfl, rfl⟩
  | refetch hfree => exact ⟨c, htaken hfree, rfl, rfl⟩
  | @deliver k e wire hwire hfree =>
      refine ⟨_, handle_call ?_ (hnoted _), rfl, rfl⟩
      rintro rfl
      cases hc.symm.trans hfree
  | tap hfree => exact ⟨c, htaken hfree, rfl, rfl⟩
  | @serve k ctx now c' hc' =>
      have hk : j ≠ k := fun hk => hserve ctx now (hk ▸ rfl)
      exact ⟨c, (serveCall_others hk).trans hc, rfl, rfl⟩
  | @receive k c' b hc' hb =>
      refine ⟨c, ?_, rfl, rfl⟩
      rw [answered_calls]
      exact (Function.update_of_ne (fun hk => ha.1 (congrArg Act.receive hk.symm)) _ _).trans hc
  | @lose k c' hc' =>
      refine ⟨c, ?_, rfl, rfl⟩
      rw [answered_calls]
      exact (Function.update_of_ne (fun hk => ha.2 (congrArg Act.lose hk.symm)) _ _).trans hc
  | _ => exact ⟨c, hc, rfl, rfl⟩

/-- **A tap stays ahead of the server** until it is served or given up. -/
theorem act_ahead {w w' : World} {a : Act} (h : w.act a = some w') {j : ℕ} {c : InFlight}
    (hc : w.calls j = some c) {p : Uuid × OrderStatus} (hp : p ∈ c.ahead)
    (ha : a ≠ .receive j ∧ a ≠ .lose j) :
    (∃ c', w'.calls j = some c' ∧ p ∈ c'.ahead) ∨ w'.Shows p.1 p.2 := by
  -- a tap stops being ahead only when it is served, and then its announcement is sent
  by_cases hserve : ∃ ctx now, a = .serve j ctx now
  · obtain ⟨ctx, now, rfl⟩ := hserve
    cases act_happens h with
    | serve hc' =>
        cases hc.symm.trans hc'
        exact serveCall_ahead hp
  · have hother : ∀ ctx now, a ≠ .serve j ctx now := fun ctx now heq => hserve ⟨ctx, now, heq⟩
    obtain ⟨c', hc', hcall, hanswer⟩ := act_call h hc ha hother
    refine .inl ⟨c', hc', ?_⟩
    have hahead : c'.ahead = c.ahead := by
      unfold InFlight.ahead
      rw [hcall, hanswer]
    rw [hahead]
    exact hp

/-! ## §6. The board stays in step. -/

/-- In time, only deliveries use announcements up. -/
theorem missed_inTime {w : World} {a : Act} (ha : InTime w a) (hdeliver : ∀ k, a ≠ .deliver k) :
    missed w a = [] := by
  cases a with
  | emit i => exact if_pos ha.2.2
  | disconnect => exact absurd ha.2.2 id
  | deliver k => exact absurd rfl (hdeliver k)
  | _ => rfl

theorem InStep.backs_step {w w' : World} {a : Act} (hw : InStep w) (ha : InTime w a)
    (h : w.act a = some w') (hkeeps : Keeps w w' (missed w a)) :
    ∀ k c, w'.calls k = some c → ∀ p ∈ c.back, p.1 ∉ c.passed → w'.Shows p.1 p.2 := by
  intro k c' hc' p hp hpassed
  cases act_calls h hc' with
  | @kept c hc hcall hanswer hmore =>
      have hback : c'.back = c.back := by rw [InFlight.back, hcall]; rfl
      rw [hback] at hp
      refine hkeeps.shows _ _ (fun hid => hpassed (hmore _ (.inr hid))) ?_
      exact hw.backs k c hc p hp fun hid => hpassed (hmore _ (.inl hid))
  | started hanswer hback =>
      -- no tap of the ticket is under way, so it is not ahead of the server
      obtain ⟨toStatus, reason, rfl, orders, horders, t, ht, hid, hstatus⟩ := hback p hp
      refine hkeeps.shows _ _ List.not_mem_nil ?_
      rcases hw.tickets orders horders t ht with hshows | ⟨j, c, hc, hahead⟩
      · rw [hid, hstatus] at hshows
        exact hshows
      · obtain ⟨_, prev, hcall, -⟩ := mem_ahead hahead
        have hmem : (t.id, prev) ∈ c.back := by
          rw [InFlight.back, hcall]
          exact List.mem_singleton_self _
        exact absurd hid (ha.2.2 j c hc _ hmem)
  | read hmissed hwrites hback =>
      rw [hback] at hp
      cases hp

/-- **A ticket says what the server has, or an announcement will overwrite it, or a tap
is ahead.** -/
theorem InStep.tickets_step {w w' : World} {a : Act} (hw : InStep w) (ha : InTime w a)
    (h : w.act a = some w') (hkeeps : Keeps w w' (missed w a)) :
    ∀ orders ∈ w'.orders, ∀ t ∈ orders, w'.Shows t.id t.status ∨ Ahead w' t.id t.status := by
  intro orders' horders' t ht
  cases act_tickets h horders' ht with
  | @kept orders horders hmem hheard hback =>
      rcases hw.tickets orders horders t hmem with hshows | ⟨j, c, hc, hahead⟩
      · refine .inl (hkeeps.shows _ _ ?_ hshows)
        by_cases hdeliver : ∃ k, a = .deliver k
        · obtain ⟨k, hk⟩ := hdeliver
          exact hheard k hk
        · rw [missed_inTime ha fun k hk => hdeliver ⟨k, hk⟩]
          exact List.not_mem_nil
      · -- the tap that has put it there
        have hother : a ≠ .receive j ∧ a ≠ .lose j :=
          ⟨fun h => hback j c (.inl h) hc _ hahead rfl,
            fun h => hback j c (.inr h) hc _ hahead rfl⟩
        rcases act_ahead h hc hahead hother with ⟨c', hc', hahead'⟩ | hshows
        · exact .inr ⟨j, c', hc', hahead'⟩
        · exact .inl hshows
  | @heard k e wire hk hwire hname hid hstatus =>
      subst hk
      -- the last announcement of the order, or another follows
      have hfeed : w.feed = (e.id, e.status) :: updates (wire ++ w.posting) := by
        rw [World.feed, hwire, List.cons_append, updates_cons, updates_move hname]
        rfl
      have hcarries := hw.carries
      rw [hfeed] at hcarries
      simp only [World.act, hwire] at h
      split at h
      next e' wire' heq _ =>
        cases heq
        cases h
        have hsame := handle_sameFeed
          { w with wire, calls := noted (movedIds [e]) w.calls } k e
        refine .inl ?_
        rw [World.Shows, World.feed, hsame.server, hsame.wire, hsame.posting, hid, hstatus]
        exact hcarries.deliver.2
      next => cases h
  | @tapped k reason hk orders horders hx =>
      subst hk
      simp only [World.act] at h
      split at h
      next hfree =>
        cases h
        -- the ticket that is tapped is on the board
        obtain ⟨x, hx, hid⟩ := hx
        have hfound : ∃ y, orders.find? (fun y => decide (y.id = t.id)) = some y := by
          refine Option.isSome_iff_exists.mp (List.find?_isSome.mpr ⟨x, hx, ?_⟩)
          exact decide_eq_true hid
        obtain ⟨y, hy⟩ := hfound
        refine .inr ⟨k, _, Function.update_self k _ _, ?_⟩
        rw [horders, Option.bind_some, hy]
        exact List.mem_singleton_self _
      next => cases h
  | @brought k c hc hp =>
      have hnot := ha.2.1
      have hshows : w.Shows t.id t.status := by
        rcases hp with ⟨rfl, hanswer, hp⟩ | ⟨rfl, hanswer, hp⟩ | ⟨rfl, hp⟩
        · refine hw.answers k c hc _ hp fun hid => hnot ⟨c, hc, _, ?_, hid⟩
          rw [if_neg hanswer]
          exact hp
        · refine hw.backs k c hc _ hp fun hid => hnot ⟨c, hc, _, ?_, hid⟩
          rw [if_pos hanswer]
          exact hp
        · exact hw.backs k c hc _ hp fun hid => hnot ⟨c, hc, _, hp, hid⟩
      refine .inl (hkeeps.shows _ _ ?_ hshows)
      rw [missed_inTime ha fun j hj => ?_]
      · exact List.not_mem_nil
      · rcases hp with ⟨rfl, -⟩ | ⟨rfl, -⟩ | ⟨rfl, -⟩ <;> cases hj

/-- One step keeps the board in step. -/
theorem InStep.step {w w' : World} {a : Act} (hw : InStep w) (ha : InTime w a)
    (h : w.act a = some w') : InStep w' := by
  have hkeeps := (act_keeps hw.deaf ha.1 h).1
  exact ⟨hw.toTracks.step ha.1 h, hw.backs_step ha h hkeeps, hw.tickets_step ha h hkeeps⟩

theorem rows_ne_failed (rows : List OrderRow) : some (Answer.rows rows) ≠ some .failed := by
  intro h
  cases h

/-- The board has been loaded, and nothing that was read too early is to come. -/
theorem InStep.reloaded {w w' : World} (hw : Tracks w) {k : ℕ} {c : InFlight}
    {rows : List OrderRow} (hc : w.calls k = some c) (hrows : c.answer = some (.rows rows))
    (h : w.act (.receive k) = some w') (hfresh : ¬Overtaken w (.receive k))
    (hidle : ∀ j c, w.calls j = some c → c.back = []) : InStep w' := by
  have hkeeps := (act_keeps (a := .receive k) hw.deaf trivial h).1
  refine ⟨hw.step (a := .receive k) trivial h, ?_, ?_⟩
  · intro j c' hc' p hp
    cases act_calls h hc' with
    | @kept c₀ hc₀ hcall hanswer hmore =>
        have hback : c'.back = c₀.back := by rw [InFlight.back, hcall]; rfl
        rw [hback, hidle j c₀ hc₀] at hp
        cases hp
    | started hanswer hback =>
        obtain ⟨_, _, ha, -⟩ := hback p hp
        cases ha
    | read hmissed hwrites hback =>
        rw [hback] at hp
        cases hp
  -- every ticket is a row of the answer, which nothing has overtaken
  · intro orders horders t ht
    simp only [World.act, hc, hrows, Option.map_some] at h
    cases h
    cases horders
    refine .inl (hkeeps.shows _ _ List.not_mem_nil ?_)
    have hwrites : (t.id, t.status) ∈ c.writes := by
      rw [InFlight.writes, hrows]
      exact List.mem_map_of_mem ht
    refine hw.answers k c hc _ hwrites fun hid => hfresh ⟨c, hc, _, ?_, hid⟩
    rw [if_neg (by rw [hrows]; exact rows_ne_failed _)]
    exact hwrites

/-- No status change of the order is on its way to the board, and no tap of it is under way. -/
structure AtRest (w : World) (id : Uuid) : Prop where
  feed : ∀ p ∈ w.feed, p.1 ≠ id
  taps : ∀ k c, w.calls k = some c → ∀ p ∈ c.back, p.1 ≠ id

/-- **In step and at rest, a ticket says what the server has.** -/
theorem InStep.tells {w : World} (hw : InStep w) {orders : List OrderRow}
    (horders : w.orders = some orders) {t : OrderRow} (ht : t ∈ orders) (hrest : AtRest w t.id) :
    statusOf w.server.db t.id = some t.status := by
  rcases hw.tickets orders horders t ht with (hserver | ⟨p, hp, hid⟩) | ⟨k, c, hc, hahead⟩
  · exact hserver
  · exact absurd hid (hrest.feed p hp)
  · obtain ⟨_, prev, hcall, -⟩ := mem_ahead hahead
    have hmem : (t.id, prev) ∈ c.back := by
      rw [InFlight.back, hcall]
      exact List.mem_singleton_self _
    exact absurd rfl (hrest.taps k c hc _ hmem)

theorem mem_column {status : OrderStatus} {orders : List OrderRow} {t : OrderRow}
    (h : t ∈ column status orders) : t ∈ orders ∧ t.status = status := by
  have hmem : t ∈ orders.filter fun o => decide (o.status = status) := by
    unfold column at h
    dsimp only at h
    split at h
    · exact List.mem_insertionSort _ |>.mp (List.mem_of_mem_take h)
    · exact List.mem_insertionSort _ |>.mp h
  obtain ⟨ht, hstatus⟩ := List.mem_filter.mp hmem
  exact ⟨ht, of_decide_eq_true hstatus⟩

/-- **The columns tell the truth.**  After any run, from a reload that was not overtaken and
with no tap under way, as long as the board stays in the room and no answer is overtaken by an
announcement: a ticket in a column is of an order with that status, unless a status change of
the order is on its way to the board or a tap of it is under way. -/
theorem tickets_tell_status {w w₁ w₂ : World} {k : ℕ} {c : InFlight} {rows : List OrderRow}
    {trace : List Act} (h : (board.restrict Ordered).Reachable w)
    (hc : w.calls k = some c) (hrows : c.answer = some (.rows rows))
    (hreload : w.act (.receive k) = some w₁) (hfresh : ¬Overtaken w (.receive k))
    (hidle : ∀ j c, w.calls j = some c → c.back = [])
    (hrun : (board.restrict InTime).Run w₁ trace w₂) {orders : List OrderRow}
    (horders : w₂.orders = some orders) (status : OrderStatus) :
    ∀ t ∈ column status orders, AtRest w₂ t.id → statusOf w₂.server.db t.id = some status := by
  intro t ht hrest
  have hstart : InStep w₁ := .reloaded (.reached h) hc hrows hreload hfresh hidle
  have hend : InStep w₂ := hrun.preserves InStep
    (fun _ _ _ hw hstep => hw.step (And.left hstep) (And.right hstep)) hstart
  obtain ⟨hmem, rfl⟩ := mem_column ht
  exact hend.tells horders hmem hrest

/-! ## §7. A busy evening. -/

/-- What a step left. -/
def World.after (w : World) (a : Act) : World := (w.act a).getD w

/-- What was possible left that. -/
theorem act_after {w : World} {a : Act} (h : (w.act a).isSome = true) :
    w.act a = some (w.after a) := by
  obtain ⟨w', hw'⟩ := Option.isSome_iff_exists.mp h
  rw [World.after, hw']
  rfl

/-- The page is opened, and one lassi has been ordered. -/
def openedBoard : World := ⟨after placedLassi openBar, [], false, [], fun _ => none, none, none⟩

theorem openedBoard_opened : openedBoard.Opened := by
  have hserver : serial.Reachable (after placedLassi openBar) :=
    after_reachable openBar_opening (by decide +kernel)
  exact ⟨hserver, rfl, rfl, rfl, fun _ => rfl, rfl, rfl⟩

/-- Nobody taps a ticket. -/
def Watching (w : World) (a : Act) : Prop :=
  Ordered w a ∧ match a with
    | .tap _ _ _ _ => False
    | _ => True

instance (w : World) (a : Act) : Decidable (Watching w a) := by
  cases a with
  | emit i => exact inferInstanceAs (Decidable ((∀ e ∈ w.posting[i]?, _) ∧ True))
  | tap k id toStatus reason => exact isFalse And.right
  | _ => exact isTrue ⟨trivial, trivial⟩

instance (w : World) (a : Act) : Decidable (Overtaken w a) := by
  cases a with
  | receive k =>
      show Decidable (∃ c ∈ w.calls k,
        ∃ p ∈ (if c.answer = some .failed then c.back else c.writes), p.1 ∈ c.passed)
      infer_instance
  | lose k =>
      show Decidable (∃ c ∈ w.calls k, ∃ p ∈ c.back, p.1 ∈ c.passed)
      infer_instance
  | _ => exact isFalse id

/-- A board that is only watched has no tap to take back. -/
theorem watching_idle {w : World} (h : (board.restrict Watching).Reachable w) :
    ∀ k c, w.calls k = some c → c.back = [] := by
  refine h.invariant (fun w => ∀ k c, w.calls k = some c → c.back = []) ?_ ?_
  · intro w hw k c hc
    rw [hw.calls k] at hc
    cases hc
  · intro w a w' hw hstep k c' hc'
    cases act_calls (And.right hstep) hc' with
    | @kept c hc hcall hanswer hmore =>
        have hback : c'.back = c.back := by rw [InFlight.back, hcall]; rfl
        rw [hback]
        exact hw k c hc
    | started hanswer hback =>
        refine List.eq_nil_iff_forall_not_mem.mpr fun p hp => ?_
        obtain ⟨_, _, rfl, -⟩ := hback p hp
        exact (And.left hstep).2
    | read hmissed hwrites hback => exact hback

/-- The board is loaded and drops out of the room; it misses that the lassi is being made, and
asks again. -/
def dropOut : List Act :=
  [.join, .refetch 0, .serve 0 cashier 1, .receive 0, .disconnect,
    .request (.updateStatus cashier 2 20 .preparing none), .emit 0, .join, .refetch 1,
    .serve 1 cashier 3]

theorem dropOut_runs :
    (System.replay (System.guarded Watching World.act) dropOut openedBoard).isSome = true := by
  decide +kernel

/-- The board after its socket was gone for a while. -/
def droppedOut : World := Option.get _ dropOut_runs

theorem droppedOut_reached : (board.restrict Watching).Reachable droppedOut :=
  System.replay_restricted (fun _ _ _ h => h) dropOut openedBoard openedBoard_opened
    (Option.some_get dropOut_runs).symm

/-- The board after the reload that follows. -/
def reloadedBoard : World := droppedOut.after (.receive 1)

/-- The order was made ready, and the board has heard of it. -/
def lassiReady : World :=
  ((reloadedBoard.after (.request (.updateStatus cashier 4 20 .ready none))).after (.emit 0)).after
    (.deliver 2)

/-- Then the lassi is ready, and handed over at the till. -/
def handedOver : World :=
  ((lassiReady.after (.request (.updateStatus cashier 5 20 .completed none))).after (.emit 0)).after
    (.deliver 2)

theorem handedOver_runs :
    (board.restrict fun w a => InTime w a ∧ Watching w a).Run reloadedBoard
    [.request (.updateStatus cashier 4 20 .ready none), .emit 0, .deliver 2,
      .request (.updateStatus cashier 5 20 .completed none), .emit 0, .deliver 2] handedOver := by
  have hfirst : ∀ w : World, Ordered w (.emit 0) := fun _ _ _ _ he => absurd he List.not_mem_nil
  refine .cons ⟨⟨⟨trivial, id, trivial⟩, trivial, trivial⟩, act_after (by decide +kernel)⟩ ?_
  refine .cons ⟨⟨⟨hfirst _, id, by decide +kernel⟩, hfirst _, trivial⟩, act_after (by decide +kernel)⟩ ?_
  refine .cons ⟨⟨⟨trivial, id, trivial⟩, trivial, trivial⟩, act_after (by decide +kernel)⟩ ?_
  refine .cons ⟨⟨⟨trivial, id, trivial⟩, trivial, trivial⟩, act_after (by decide +kernel)⟩ ?_
  refine .cons ⟨⟨⟨hfirst _, id, by decide +kernel⟩, hfirst _, trivial⟩, act_after (by decide +kernel)⟩ ?_
  exact .cons ⟨⟨⟨trivial, id, trivial⟩, trivial, trivial⟩, act_after (by decide +kernel)⟩ (.nil _)

/-- The answer of a call under way has rows, none of an order that has moved since. -/
def freshRows (o : Option InFlight) : Bool :=
  o.any fun c => match c.answer with
    | some (.rows rows) => rows.all fun row => decide (row.id ∉ c.passed)
    | _ => false

theorem of_freshRows {w : World} {k : ℕ} (h : freshRows (w.calls k) = true) :
    ∃ c rows, w.calls k = some c ∧ c.answer = some (.rows rows) ∧ ¬Overtaken w (.receive k) := by
  cases hc : w.calls k with
  | none =>
      rw [hc] at h
      cases h
  | some c =>
      rw [hc, freshRows, Option.any_some] at h
      split at h
      next rows hrows =>
        refine ⟨c, rows, rfl, hrows, ?_⟩
        rintro ⟨c', hc', p, hp, hpassed⟩
        cases hc.symm.trans hc'
        rw [if_neg (by rw [hrows]; exact rows_ne_failed _), InFlight.writes, hrows] at hp
        obtain ⟨row, hrow, rfl⟩ := List.mem_map.mp hp
        exact of_decide_eq_true (List.all_eq_true.mp h row hrow) hpassed
      next => cases h

/-- **Back in the room, the board tells the truth again**: the lassi is handed over. -/
theorem tickets_tell_status_handedOver :
    ∃ orders, handedOver.orders = some orders ∧ ∃ t ∈ column .completed orders,
      statusOf handedOver.server.db t.id = some .completed := by
  obtain ⟨c, rows, hc, hrows, hfresh⟩ := of_freshRows (w := droppedOut) (k := 1)
    (by decide +kernel)
  have hhanded : (handedOver.orders.any fun orders =>
      decide ((column .completed orders).map (·.id) = [20])) = true := by decide +kernel
  have hfeed : handedOver.feed = [] := by decide +kernel
  have hreload : droppedOut.act (.receive 1) = some reloadedBoard := act_after (by decide +kernel)
  cases horders : handedOver.orders with
  | none =>
      rw [horders] at hhanded
      cases hhanded
  | some orders =>
      rw [horders, Option.any_some] at hhanded
      have hids := of_decide_eq_true hhanded
      have hmem : 20 ∈ (column .completed orders).map (·.id) := by
        rw [hids]
        exact List.mem_singleton_self _
      obtain ⟨t, ht, hid⟩ := List.mem_map.mp hmem
      refine ⟨orders, rfl, t, ht, ?_⟩
      refine tickets_tell_status (System.restrict_mono (fun _ _ _ h => h.1) droppedOut_reached)
        hc hrows hreload hfresh (watching_idle droppedOut_reached)
        (System.restrict_run_mono (fun _ _ h => h.1) handedOver_runs) horders .completed t ht
        ⟨?_, ?_⟩
      · rw [hfeed]
        exact nofun
      · have hstep : (board.restrict Watching).step droppedOut (.receive 1) reloadedBoard :=
          ⟨⟨trivial, trivial⟩, hreload⟩
        have hwatched : (board.restrict Watching).Reachable handedOver :=
          (droppedOut_reached.step hstep).run
            (System.restrict_run_mono (fun _ _ h => h.2) handedOver_runs)
        intro k c hc p hp
        rw [watching_idle hwatched k c hc] at hp
        cases hp

/-- The lassi is tapped as it is voided at the till; the refusal of the tap comes in after the
announcement of the void. -/
def tappedTooLate : List Act :=
  [.join, .refetch 0, .serve 0 cashier 1, .receive 0, .tap 1 20 .completed none,
    .request (.updateStatus cashier 2 20 .voided (some "Spilt")), .serve 1 cashier 3, .emit 0,
    .deliver 2, .receive 1]

theorem tappedTooLate_runs :
    (System.replay World.act tappedTooLate openedBoard).isSome = true := by decide +kernel

/-- **A voided order is back among the new ones**, and nothing on its way will take it off. -/
theorem voided_ticket_back :
    ∃ w, board.Reachable w ∧ w.feed = [] ∧ w.busy = none ∧ ∃ orders ∈ w.orders,
      20 ∈ (column .placed orders).map (·.id) ∧ statusOf w.server.db 20 = some .voided := by
  have h : board.Reachable _ := System.replay_reachable (fun _ _ _ h => h) tappedTooLate
    openedBoard openedBoard_opened (Option.some_get tappedTooLate_runs).symm
  refine ⟨_, h, ?_, ?_, ?_⟩
  · decide +kernel
  · decide +kernel
  · have hback : ((Option.get _ tappedTooLate_runs).orders.any fun orders =>
        decide (20 ∈ (column .placed orders).map (·.id))) = true := by decide +kernel
    cases horders : (Option.get _ tappedTooLate_runs).orders with
    | none =>
        rw [horders] at hback
        cases hback
    | some orders =>
        rw [horders, Option.any_some] at hback
        exact ⟨orders, rfl, of_decide_eq_true hback, by decide +kernel⟩

end OraOS.Kitchen
