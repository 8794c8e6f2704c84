/-
  OraOS.Auth.Page — a page of the web app that renews its session (`api.ts`:
  `refreshOnce`, `authedFetch`).

  Any number of calls are under way at once.  A 401 makes a call wait for a refresh, and
  the refresh is shared: two of them would present one cookie twice, which the server
  reads as theft.  The server is the one of `sessions`, other clients' requests included,
  each with its statements anywhere between those of the page's refresh.

    * `Desk.act`           — one step of the page, of its refresh at the server, or of
                             anybody else;
    * `deskInv_step`       — a session nobody else knows of is where the page thinks it is;
    * `page_keeps_session` — while its answers arrive, no cookie is presented twice, no
                             call waits for nothing, and the family is not revoked;
    * `lost_answer_ends_session`
                           — one answer that does not arrive, and the next refresh ends it.
-/
import OraOS.Auth.Bystanders

namespace OraOS.Auth

open OraOS.Api
open OraOS.Lib

/-! ## §1. The page and the server. -/

/-- Where a call of `authedFetch` stands. -/
inductive Call where
  /-- `apiFetch` with the access token it was given -/
  | first
  /-- `await refreshOnce()` -/
  | awaiting
  /-- the one retry, with the fresh token -/
  | retry
  deriving DecidableEq, Repr

/-- The page, and the cookie jar of its browser. -/
structure Page where
  /-- `oraos_rt` -/
  cookie : Option Uuid
  /-- `inFlightRefresh`, as the number of its request -/
  inFlight : Option ℕ
  /-- the answer to it that is under way: the cookie it sets, or clears -/
  answer : Option (Option Uuid)
  calls : ℕ → Option Call

/-- The server, and one page in one browser. -/
structure Desk where
  server : InFlight World Task
  page : Page
  /-- the refresh tokens that the page has sent, in order -/
  presented : List Uuid

/-- What can happen next, at the page or elsewhere. -/
inductive PageEvent where
  /-- a statement or a new request of somebody else, or time -/
  | others (e : ServiceEvent Request ℕ)
  /-- `authedFetch` is called -/
  | call (i : ℕ)
  /-- the first fetch of call `i` is answered with 401; a refresh it starts is request `k` -/
  | unauthorized (i k : ℕ)
  /-- call `i` gets any other answer, or any answer to its retry -/
  | settled (i : ℕ)
  /-- the next statement of the page's refresh -/
  | serve
  /-- the answer to the refresh arrives -/
  | deliver
  /-- the connection of the refresh breaks -/
  | lose

/-- The page's refresh, while the server is at work on it. -/
def Page.atServer (p : Page) : Option ℕ := if p.answer.isNone then p.inFlight else none

/-- The request an event is about. -/
def eventRequest : ServiceEvent Request ℕ → Option ℕ
  | .begin i _ => some i
  | .run i => some i
  | .drop i => some i
  | .env _ => none

/-- The promise of `refreshOnce` settles: every call that awaits it goes on. -/
def release (granted : Bool) : Option Call → Option Call
  | some .awaiting => if granted then some .retry else none
  | c => c

/-- Who is released waits no longer. -/
theorem release_ne_awaiting (granted : Bool) (c : Option Call) :
    release granted c ≠ some .awaiting := by
  unfold release
  split
  · split
    · exact nofun
    · exact nofun
  next hne => exact hne

variable (cfg : AuthConfig)

/-- One event; `none` where it cannot happen. -/
def Desk.act (d : Desk) : PageEvent → Option Desk
  | .others e =>
      if eventRequest e ≠ none ∧ eventRequest e = d.page.atServer then none
      else ((authService cfg).act d.server e).map fun server => { d with server }
  | .call i =>
      match d.page.calls i with
      | none => some { d with page :=
          { d.page with calls := Function.update d.page.calls i (some .first) } }
      | some _ => none
  | .unauthorized i k =>
      match d.page.calls i with
      | some .first =>
          let calls := Function.update d.page.calls i (some .awaiting)
          match d.page.inFlight with
          -- somebody has started it: await the same promise
          | some _ => some { d with page := { d.page with calls } }
          | none =>
              match d.page.cookie with
              -- 'Missing refresh token'
              | none => some { d with page :=
                  { d.page with inFlight := some k, answer := some none, calls } }
              | some cookie =>
                  ((authService cfg).act d.server (.begin k (.refresh cookie))).map fun server =>
                    { server
                      page := { d.page with inFlight := some k, calls }
                      presented := d.presented ++ [cookie] }
      | _ => none
  | .settled i =>
      match d.page.calls i with
      | some .first | some .retry => some { d with page :=
          { d.page with calls := Function.update d.page.calls i none } }
      | _ => none
  | .serve => do
      let k ← d.page.atServer
      let t ← d.server.running k
      let (w, rest) := next cfg d.server.shared t
      pure { d with
        server := ⟨w, Function.update d.server.running k rest⟩
        page := { d.page with
          answer := if rest.isNone then some (answerOf d.server.shared t) else none } }
  | .deliver =>
      d.page.answer.map fun a => { d with page :=
        { cookie := a, inFlight := none, answer := none,
          calls := fun i => release a.isSome (d.page.calls i) } }
  | .lose =>
      d.page.inFlight.map fun _ => { d with page :=
        { d.page with inFlight := none, answer := none,
                      calls := fun i => release false (d.page.calls i) } }

/-! ## §2. Where the session is. -/

section

variable {familyId userId : Uuid}

/-- The session as page, server and network hold it between them. -/
inductive Stands (familyId userId : Uuid) (d : Desk) : Prop where
  /-- in the cookie jar, with a token that was never sent -/
  | idle {c : Uuid} (hflight : d.page.inFlight = none) (hanswer : d.page.answer = none)
      (hcookie : d.page.cookie = some c) (hlive : d.server.shared.LiveIn familyId c)
      (hunsent : c ∉ d.presented)
  /-- with the refresh at the server -/
  | asking {k : ℕ} {c : Uuid} {t : Task} (hflight : d.page.inFlight = some k)
      (hanswer : d.page.answer = none) (hlast : d.presented.getLast? = some c)
      (hrun : d.server.running k = some t) (hmine : Mine familyId userId d.server.shared c t)
  /-- with the next token, in the answer -/
  | renewed {k : ℕ} {c : Uuid} (hflight : d.page.inFlight = some k)
      (hanswer : d.page.answer = some (some c)) (hlive : d.server.shared.LiveIn familyId c)
      (hunsent : c ∉ d.presented)
  /-- it had run out with the cookie sent last, and the answer says so -/
  | refused {k : ℕ} {c : Uuid} (hflight : d.page.inFlight = some k)
      (hanswer : d.page.answer = some none) (hlast : d.presented.getLast? = some c)
      (hran : d.server.shared.RanOut familyId c)
  /-- and the page knows -/
  | ended {c : Uuid} (hflight : d.page.inFlight = none) (hanswer : d.page.answer = none)
      (hcookie : d.page.cookie = none) (hlast : d.presented.getLast? = some c)
      (hran : d.server.shared.RanOut familyId c)

/-- What is known of the page and of everybody else's requests. -/
structure DeskInv (familyId userId : Uuid) (d : Desk) : Prop where
  session : SessionOf familyId userId d.server.shared
  outside : ∀ i t, d.server.running i = some t → d.page.atServer ≠ some i →
    OffFamily familyId userId d.server.shared t
  stands : Stands familyId userId d
  sent : ∀ p ∈ d.presented, p < d.server.shared.fresh
  once : d.presented.Nodup
  awaited : ∀ i, d.page.calls i = some .awaiting → d.page.inFlight.isSome = true

/-- While the refresh is unanswered it is at the server. -/
theorem atServer_asking {p : Page} {k : ℕ} (hflight : p.inFlight = some k)
    (hanswer : p.answer = none) : p.atServer = some k := by
  unfold Page.atServer
  rw [hanswer, hflight]
  rfl

/-- Once it is answered it no longer is. -/
theorem atServer_answered {p : Page} {a : Option Uuid} (hanswer : p.answer = some a) :
    p.atServer = none := by
  unfold Page.atServer
  rw [hanswer]
  rfl

theorem atServer_idle {p : Page} (hflight : p.inFlight = none) : p.atServer = none := by
  unfold Page.atServer
  rw [hflight]
  split
  · rfl
  · rfl

/-- Whatever happens elsewhere, the session stands where it stood. -/
theorem Stands.spared {d : Desk} (h : Stands familyId userId d) {server : InFlight World Task}
    (hs : Spares familyId userId d.server.shared server.shared)
    (hnow : d.server.shared.now ≤ server.shared.now)
    (hrun : ∀ k, d.page.atServer = some k → server.running k = d.server.running k) :
    Stands familyId userId { d with server } := by
  cases h with
  | idle hflight hanswer hcookie hlive hunsent =>
      exact .idle hflight hanswer hcookie (hlive.spared hs) hunsent
  | asking hflight hanswer hlast hrunning hmine =>
      refine .asking hflight hanswer hlast ?_ (hmine.spared hs)
      exact (hrun _ (atServer_asking hflight hanswer)).trans hrunning
  | renewed hflight hanswer hlive hunsent =>
      exact .renewed hflight hanswer (hlive.spared hs) hunsent
  | refused hflight hanswer hlast hran =>
      exact .refused hflight hanswer hlast (hran.spared hs hnow)
  | ended hflight hanswer hcookie hlast hran =>
      exact .ended hflight hanswer hcookie hlast (hran.spared hs hnow)

/-- Somebody else's step. -/
theorem DeskInv.elsewhere {d : Desk} (h : DeskInv familyId userId d)
    {server : InFlight World Task} (hs : Spares familyId userId d.server.shared server.shared)
    (hon : Onward d.server.shared server.shared) (hkeys : TokenKeys server.shared)
    (hrun : ∀ k, d.page.atServer = some k → server.running k = d.server.running k)
    (hout : ∀ i t, server.running i = some t → d.page.atServer ≠ some i →
      OffFamily familyId userId server.shared t) :
    DeskInv familyId userId { d with server } where
  session := h.session.spared hs hon hkeys
  outside := hout
  stands := h.stands.spared hs hon.now hrun
  sent p hp := lt_of_lt_of_le (h.sent p hp) hon.fresh
  once := h.once
  awaited := h.awaited

end

/-! ## §3. Every step. -/

/-- A page that has just been given its cookie. -/
structure Desk.Opening (familyId userId : Uuid) (d : Desk) : Prop where
  session : SessionOf familyId userId d.server.shared
  running : ∀ i, d.server.running i = none
  cookie : ∃ c, d.page.cookie = some c ∧ d.server.shared.LiveIn familyId c
  inFlight : d.page.inFlight = none
  answer : d.page.answer = none
  calls : ∀ i, d.page.calls i = none
  presented : d.presented = []

/-- Every order of what the page, the server and the others do. -/
def pages (familyId userId : Uuid) : System Desk PageEvent where
  init := Desk.Opening familyId userId
  step d e d' := d.act cfg e = some d'

/-- Nobody else has the session's tokens or ends all of the user's sessions, and every
answer arrives. -/
def Undisturbed (familyId userId : Uuid) (d : Desk) : PageEvent → Prop
  | .others (.begin _ r) => Stranger familyId userId d.server.shared r
  | .lose => False
  | _ => True

section

variable {cfg} {familyId userId : Uuid}

theorem onward_refl (w : World) : Onward w w where
  toGrown := (Quiet.refl w).evolves.grown
  now := le_rfl
  links r hr := ⟨r, hr, rfl, rfl⟩

/-- The step of somebody else keeps what is known. -/
theorem deskInv_others {d : Desk} (h : DeskInv familyId userId d) {e : ServiceEvent Request ℕ}
    (hmine : ¬ (eventRequest e ≠ none ∧ eventRequest e = d.page.atServer))
    (hallowed : Undisturbed familyId userId d (.others e)) {server : InFlight World Task}
    (hact : (authService cfg).act d.server e = some server) :
    DeskInv familyId userId { d with server } := by
  -- the page's own request is not the one that moves
  have hother : ∀ i, eventRequest e = some i → ∀ k, d.page.atServer = some k → k ≠ i := by
    rintro i hi k hk rfl
    refine hmine ⟨?_, hi.trans hk.symm⟩
    rw [hi]
    exact nofun
  cases e with
  | begin i r =>
      simp only [Service.act] at hact
      split at hact
      next t hfree hreceive =>
        cases hact
        refine h.elsewhere (.refl familyId userId _) (onward_refl _) h.session.keys ?_ ?_
        · intro k hk
          exact Function.update_of_ne (hother i rfl k hk) _ _
        · intro j t' ht' hj
          rcases Program.running_update ht' with ⟨-, heq⟩ | ⟨-, hold⟩
          · cases heq
            exact offFamily_receive cfg hallowed hreceive
          · exact h.outside j t' hold hj
      next => cases hact
  | run i =>
      simp only [Service.act] at hact
      split at hact
      next => cases hact
      next t ht =>
        cases hact
        have hout : OffFamily familyId userId d.server.shared t :=
          h.outside i t ht fun hi => hother i rfl i hi rfl
        have hon := onward_next cfg d.server.shared t
        refine h.elsewhere (spares_next cfg h.session hout) hon
          (tokenKeys_next cfg h.session.keys t) ?_ ?_
        · intro k hk
          exact Function.update_of_ne (hother i rfl k hk) _ _
        · intro j t' ht' hj
          rcases Program.running_update ht' with ⟨-, heq⟩ | ⟨-, hold⟩
          · exact offFamily_next cfg h.session hout heq
          · exact offFamily_onward hon (h.outside j t' hold hj)
  | drop i =>
      cases hact
      refine h.elsewhere (.refl familyId userId _) (onward_refl _) h.session.keys ?_ ?_
      · intro k hk
        exact Function.update_of_ne (hother i rfl k hk) _ _
      · intro j t' ht' hj
        rcases Program.running_update ht' with ⟨-, heq⟩ | ⟨-, hold⟩
        · cases heq
        · exact h.outside j t' hold hj
  | env elapsed =>
      cases hact
      have hon := onward_tick d.server.shared elapsed
      refine h.elsewhere ⟨rfl, rfl, id⟩ hon ⟨h.session.keys.fresh, h.session.keys.nodup⟩ ?_ ?_
      · exact fun k _ => rfl
      · exact fun j t' ht' hj => offFamily_onward hon (h.outside j t' ht' hj)

/-- A change to the calls alone. -/
theorem DeskInv.calls {d : Desk} (h : DeskInv familyId userId d) {calls : ℕ → Option Call}
    (hawaited : ∀ i, calls i = some .awaiting → d.page.inFlight.isSome = true) :
    DeskInv familyId userId { d with page := { d.page with calls } } where
  session := h.session
  outside := h.outside
  stands := by
    cases h.stands with
    | idle hflight hanswer hcookie hlive hunsent =>
        exact .idle hflight hanswer hcookie hlive hunsent
    | asking hflight hanswer hlast hrun hmine =>
        exact .asking hflight hanswer hlast hrun hmine
    | renewed hflight hanswer hlive hunsent => exact .renewed hflight hanswer hlive hunsent
    | refused hflight hanswer hlast hran => exact .refused hflight hanswer hlast hran
    | ended hflight hanswer hcookie hlast hran => exact .ended hflight hanswer hcookie hlast hran
  sent := h.sent
  once := h.once
  awaited := hawaited

/-- The refresh starts: the cookie goes out, for the first time. -/
theorem deskInv_ask {d : Desk} (h : DeskInv familyId userId d) (hflight : d.page.inFlight = none)
    {cookie : Uuid} (hcookie : d.page.cookie = some cookie) {k : ℕ} {calls : ℕ → Option Call}
    {server : InFlight World Task}
    (hact : (authService cfg).act d.server (.begin k (.refresh cookie)) = some server) :
    DeskInv familyId userId
      { server
        page := { d.page with inFlight := some k, calls }
        presented := d.presented ++ [cookie] } := by
  -- the page is idle, with a live cookie
  have hstands := h.stands
  cases hstands with
  | asking hf | renewed hf | refused hf => rw [hflight] at hf; cases hf
  | ended hf ha hc => rw [hcookie] at hc; cases hc
  | @idle c hf hanswer hc hlive hunsent =>
      rw [hcookie] at hc
      cases hc
      simp only [Service.act] at hact
      split at hact
      next t hfree hreceive =>
        cases hact
        have htask : t = .findToken cookie := (Option.some.inj hreceive).symm
        subst htask
        have hserver : ({ d.page with inFlight := some k, calls } : Page).atServer = some k :=
          atServer_asking rfl hanswer
        refine ⟨h.session, ?_, ?_, ?_, ?_, ?_⟩
        · intro j t' ht' hj
          rcases Program.running_update ht' with ⟨rfl, -⟩ | ⟨-, hold⟩
          · exact absurd hserver hj
          · refine h.outside j t' hold ?_
            rw [atServer_idle hflight]
            intro hj'
            cases hj'
        · refine .asking rfl hanswer ?_ (Function.update_self k _ _) ⟨rfl, hlive⟩
          exact List.getLast?_append_of_ne_nil d.presented (List.cons_ne_nil cookie [])
        · intro p hp
          rcases List.mem_append.mp hp with hold | hnew
          · exact h.sent p hold
          · obtain ⟨row, hrow, htoken, -⟩ := hlive
            rw [List.mem_singleton.mp hnew, ← htoken]
            exact h.session.keys.fresh row hrow
        · refine List.Nodup.append h.once (List.nodup_singleton _) ?_
          exact List.disjoint_singleton.mpr hunsent
        · exact fun _ _ => rfl
      next => cases hact

/-- A statement of the page's own refresh. -/
theorem deskInv_serve {d : Desk} (h : DeskInv familyId userId d) {k : ℕ} {t : Task}
    (hk : d.page.atServer = some k) (ht : d.server.running k = some t) :
    DeskInv familyId userId { d with
      server := ⟨(next cfg d.server.shared t).1,
        Function.update d.server.running k (next cfg d.server.shared t).2⟩
      page := { d.page with
        answer := if (next cfg d.server.shared t).2.isNone then
          some (answerOf d.server.shared t) else none } } := by
  have hstands := h.stands
  cases hstands with
  | idle hf => rw [atServer_idle hf] at hk; cases hk
  | ended hf => rw [atServer_idle hf] at hk; cases hk
  | renewed hf ha => rw [atServer_answered ha] at hk; cases hk
  | refused hf ha => rw [atServer_answered ha] at hk; cases hk
  | @asking k' c t' hflight hanswer hlast hrun hmine =>
      have hsame : k' = k := by
        rw [atServer_asking hflight hanswer] at hk
        exact Option.some.inj hk
      subst hsame
      rw [ht] at hrun
      cases hrun
      have hserved := mine_next cfg h.session hmine
      have hon := onward_next cfg d.server.shared t
      have hsent : ∀ p ∈ d.presented, p < (next cfg d.server.shared t).1.fresh :=
        fun p hp => lt_of_lt_of_le (h.sent p hp) hon.fresh
      refine ⟨hserved.session, ?_, ?_, hsent, h.once, h.awaited⟩
      · intro j t' ht' hj
        rcases Program.running_update ht' with ⟨rfl, heq⟩ | ⟨hne, hold⟩
        · -- it would still be at the server
          refine (hj (atServer_asking hflight ?_)).elim
          show (if (next cfg d.server.shared t).2.isNone then _ else none) = none
          rw [heq]
          rfl
        · refine offFamily_onward hon (h.outside j t' hold ?_)
          rw [atServer_asking hflight hanswer]
          exact fun heq => hne (Option.some.inj heq).symm
      · cases hrest : (next cfg d.server.shared t).2 with
        | some t' =>
            refine .asking hflight ?_ hlast (Function.update_self k' _ _) (hserved.goes t' hrest)
            rfl
        | none =>
            rcases hserved.done hrest with ⟨hans, hlive⟩ | ⟨hans, hran⟩
            · refine .renewed hflight (congrArg some hans) hlive ?_
              exact fun hin => absurd (h.sent _ hin) (lt_irrefl _)
            · exact .refused hflight (congrArg some hans) hlast hran

/-- The answer arrives. -/
theorem deskInv_deliver {d : Desk} (h : DeskInv familyId userId d) {a : Option Uuid}
    (ha : d.page.answer = some a) :
    DeskInv familyId userId { d with page :=
      { cookie := a, inFlight := none, answer := none,
        calls := fun i => release a.isSome (d.page.calls i) } } := by
  have houtside : ∀ i t, d.server.running i = some t →
      OffFamily familyId userId d.server.shared t := by
    intro i t ht
    refine h.outside i t ht ?_
    rw [atServer_answered ha]
    exact nofun
  refine ⟨h.session, fun i t ht _ => houtside i t ht, ?_, h.sent, h.once, ?_⟩
  · have hstands := h.stands
    cases hstands with
    | idle _ hnone => rw [ha] at hnone; cases hnone
    | asking _ hnone => rw [ha] at hnone; cases hnone
    | ended _ hnone => rw [ha] at hnone; cases hnone
    | renewed _ hsome hlive hunsent =>
        rw [ha] at hsome
        cases hsome
        exact .idle rfl rfl rfl hlive hunsent
    | refused _ hsome hlast hran =>
        rw [ha] at hsome
        cases hsome
        exact .ended rfl rfl rfl hlast hran
  · -- nobody waits any more
    intro i hi
    exact absurd hi (release_ne_awaiting _ _)

/-- **Every step of the page and of everybody else** keeps the session where the page
thinks it is. -/
theorem deskInv_step (d : Desk) (e : PageEvent) (d' : Desk) (h : DeskInv familyId userId d)
    (hstep : ((pages cfg familyId userId).restrict (Undisturbed familyId userId)).step d e d') :
    DeskInv familyId userId d' := by
  obtain ⟨hallowed, hact⟩ := hstep
  replace hact : d.act cfg e = some d' := hact
  cases e with
  | others e =>
      simp only [Desk.act] at hact
      split at hact
      next => cases hact
      next hmine =>
        obtain ⟨server, hserver, rfl⟩ := Option.map_eq_some_iff.mp hact
        exact deskInv_others h hmine hallowed hserver
  | call i =>
      simp only [Desk.act] at hact
      split at hact
      next =>
        cases hact
        refine h.calls fun j hj => ?_
        rcases Program.running_update hj with ⟨-, heq⟩ | ⟨-, hold⟩
        · cases heq
        · exact h.awaited j hold
      next => cases hact
  | unauthorized i k =>
      simp only [Desk.act] at hact
      split at hact
      next =>
        split at hact
        next k' hflight =>
          cases hact
          refine h.calls fun j _ => ?_
          rw [hflight]
          rfl
        next hflight =>
          split at hact
          next hcookie =>
            -- no cookie: the session had run out
            cases hact
            have hstands := h.stands
            cases hstands with
            | idle _ _ hc => rw [hcookie] at hc; cases hc
            | asking hf | renewed hf | refused hf => rw [hflight] at hf; cases hf
            | ended hf ha hc hlast hran =>
                refine ⟨h.session, ?_, .refused rfl rfl hlast hran, h.sent, h.once,
                  fun _ _ => rfl⟩
                intro j t' ht' _
                refine h.outside j t' ht' ?_
                rw [atServer_idle hflight]
                exact nofun
          next cookie hcookie =>
            obtain ⟨server, hserver, rfl⟩ := Option.map_eq_some_iff.mp hact
            exact deskInv_ask h hflight hcookie hserver
      next => cases hact
  | settled i =>
      simp only [Desk.act] at hact
      split at hact
      all_goals
        cases hact
      all_goals
        refine h.calls fun j hj => ?_
        rcases Program.running_update hj with ⟨-, heq⟩ | ⟨-, hold⟩
        · cases heq
        · exact h.awaited j hold
  | serve =>
      obtain ⟨k, hk, hact⟩ := Option.bind_eq_some_iff.mp hact
      obtain ⟨t, ht, hact⟩ := Option.bind_eq_some_iff.mp hact
      cases hact
      exact deskInv_serve h hk ht
  | deliver =>
      obtain ⟨a, ha, rfl⟩ := Option.map_eq_some_iff.mp hact
      exact deskInv_deliver h ha
  | lose => exact hallowed.elim

theorem deskInv_init (d : Desk) (h : d.Opening familyId userId) : DeskInv familyId userId d where
  session := h.session
  outside i t ht := by
    rw [h.running i] at ht
    cases ht
  stands := by
    obtain ⟨c, hcookie, hlive⟩ := h.cookie
    refine .idle h.inFlight h.answer hcookie hlive ?_
    rw [h.presented]
    exact List.not_mem_nil
  sent p hp := by
    rw [h.presented] at hp
    cases hp
  once := by
    rw [h.presented]
    exact List.nodup_nil
  awaited i hi := by
    rw [h.calls i] at hi
    cases hi

/-- **The run lemma.** -/
theorem desk_inv {d : Desk}
    (h : ((pages cfg familyId userId).restrict (Undisturbed familyId userId)).Reachable d) :
    DeskInv familyId userId d :=
  h.invariant (DeskInv familyId userId) deskInv_init deskInv_step

/-- Nobody else is about to revoke the family. -/
theorem OffFamily.spares_family {w : World} {t : Task} (h : OffFamily familyId userId w t) :
    t ≠ .revokeFamily familyId := by
  rintro rfl
  exact h.1 rfl

/-- A refresh under way goes on by itself. -/
theorem Stands.goes {d : Desk} (h : Stands familyId userId d)
    (hflight : d.page.inFlight.isSome = true) :
    (d.act cfg .serve).isSome = true ∨ (d.act cfg .deliver).isSome = true := by
  cases h with
  | idle hf | ended hf => rw [hf] at hflight; cases hflight
  | asking hf ha hlast hrun hmine =>
      refine .inl ?_
      simp only [Desk.act, atServer_asking hf ha, hrun, Option.bind_eq_bind, Option.bind_some]
      rfl
  | renewed hf ha | refused hf ha =>
      refine .inr ?_
      simp only [Desk.act, ha]
      rfl

theorem Stands.safe {d : Desk} (h : Stands familyId userId d) :
    ∀ i, d.page.atServer = some i → d.server.running i ≠ some (.revokeFamily familyId) := by
  intro i hi hrun
  cases h with
  | idle hf | ended hf => rw [atServer_idle hf] at hi; cases hi
  | renewed hf ha | refused hf ha => rw [atServer_answered ha] at hi; cases hi
  | asking hf ha hlast hrunning hmine =>
      rw [atServer_asking hf ha] at hi
      cases hi
      rw [hrun] at hrunning
      cases hrunning
      exact hmine

end

/-- **A page keeps its session**, however many of its calls are refused at once and
whatever strangers do in between, as long as every answer to its refreshes arrives: no
cookie is sent twice, nothing at the server is about to revoke the family, a call that
waits waits for a refresh that can go on, and between two refreshes the cookie is live,
unless the last one it sent had expired, and not been revoked. -/
theorem page_keeps_session (cfg : AuthConfig) {familyId userId : Uuid} {d : Desk}
    (h : ((pages cfg familyId userId).restrict (Undisturbed familyId userId)).Reachable d) :
    d.presented.Nodup
      ∧ (∀ i, d.server.running i ≠ some (.revokeFamily familyId))
      ∧ (∀ i, d.page.calls i = some .awaiting →
          (d.act cfg .serve).isSome = true ∨ (d.act cfg .deliver).isSome = true)
      ∧ (d.page.inFlight = none →
          (∃ c, d.page.cookie = some c ∧ d.server.shared.LiveIn familyId c)
            ∨ d.page.cookie = none
              ∧ ∃ c, d.presented.getLast? = some c ∧ d.server.shared.RanOut familyId c) := by
  have hinv := desk_inv h
  refine ⟨hinv.once, ?_, ?_, ?_⟩
  · intro i hi
    by_cases hserver : d.page.atServer = some i
    · exact hinv.stands.safe i hserver hi
    · exact (hinv.outside i _ hi hserver).spares_family rfl
  · exact fun i hi => hinv.stands.goes (hinv.awaited i hi)
  · intro hflight
    have hstands := hinv.stands
    cases hstands with
    | idle _ _ hcookie hlive => exact .inl ⟨_, hcookie, hlive⟩
    | ended _ _ hnone hlast hran => exact .inr ⟨hnone, _, hlast, hran⟩
    | asking hf | renewed hf | refused hf => rw [hflight] at hf; cases hf

/-! ## §4. Two calls at once, and an answer that is lost. -/

/-- The manager, signed in. -/
def managerIn : World :=
  { oneManager with
    refreshTokens := [⟨100, 1, 101, 1000000, 605800000, none, 0⟩]
    fresh := 102 }

/-- A page with a cookie, and no call yet. -/
def counter : Desk where
  server := ⟨managerIn, fun _ => none⟩
  page := ⟨some 100, none, none, fun _ => none⟩
  presented := []

theorem counter_opening : counter.Opening 101 1 where
  session :=
    { keys := ⟨by decide, by decide⟩
      family_lt := by decide
      owner := by decide
      younger := by
        rintro ⟨t, ht, hfamily, epoch, hepoch, hlt⟩
        cases hepoch
      epoch_past := nofun
      active := ⟨_, rfl, rfl⟩ }
  running _ := rfl
  cookie := ⟨100, rfl, _, List.mem_singleton_self _, rfl, rfl, rfl⟩
  inFlight := rfl
  answer := rfl
  calls _ := rfl
  presented := rfl

/-- Two calls are refused, and somebody signs in while the one refresh is at work. -/
def refusedTogether : List PageEvent :=
  [.call 0, .call 1, .unauthorized 0 7, .unauthorized 1 8, .serve, .others (.begin 0 signIn),
    .serve, .others (.run 0), .serve, .serve, .others (.run 0), .serve, .serve, .serve, .deliver]

/-- Nothing but sign-ins, and no answer is lost. -/
def Unharmed (_ : Desk) : PageEvent → Bool
  | .others (.begin _ (.login _ _)) => true
  | .others (.begin _ _) => false
  | .lose => false
  | _ => true

/-- The check that the runs are replayed with is the condition. -/
theorem Unharmed.undisturbed {d : Desk} {e : PageEvent} (h : Unharmed d e = true) :
    Undisturbed 101 1 d e := by
  unfold Unharmed at h
  split at h
  · trivial
  · cases h
  · cases h
  next hbegin hlose =>
    cases e with
    | others e =>
        cases e with
        | begin i r => exact absurd rfl (hbegin i r)
        | _ => trivial
    | lose => exact absurd rfl hlose
    | _ => trivial

theorem refusedTogether_runs :
    (System.replay (System.guarded (fun d e => Unharmed d e = true) (Desk.act demoConfig))
      refusedTogether counter).isSome = true := by
  decide +kernel

/-- Both calls go on with the token of the one refresh. -/
theorem page_keeps_session_together :
    ∃ d : Desk, d.page.calls 0 = some .retry ∧ d.page.calls 1 = some .retry
      ∧ d.presented = [100] ∧ d.page.cookie = some 102 ∧ d.presented.Nodup := by
  have h := System.replay_restricted (M := pages demoConfig 101 1)
    (C := fun d e => Unharmed d e = true) (f := Desk.act demoConfig) (fun _ _ _ h => h)
    refusedTogether counter counter_opening (Option.some_get refusedTogether_runs).symm
  refine ⟨_, ?_, ?_, ?_, ?_, (page_keeps_session demoConfig
    (System.restrict_mono (fun _ _ _ => Unharmed.undisturbed) h)).1⟩
  all_goals
    decide +kernel

/-- The refresh is done, its answer is lost, and the next one sends the old cookie. -/
def answerLost : List PageEvent :=
  [.call 0, .unauthorized 0 7, .serve, .serve, .serve, .serve, .serve, .serve, .serve, .lose,
    .call 0, .unauthorized 0 8, .serve, .serve, .deliver]

theorem answerLost_runs :
    (System.replay (Desk.act demoConfig) answerLost counter).isSome = true := by
  decide +kernel

/-- A lost answer is enough: the session is over, long before its tokens run out. -/
theorem lost_answer_ends_session :
    ∃ d, (pages demoConfig 101 1).Reachable d ∧ d.page.cookie = none
      ∧ d.server.shared.liveOf 101 = []
      ∧ ∀ t ∈ d.server.shared.refreshTokens, d.server.shared.now < t.expiresAt := by
  refine ⟨_, System.replay_reachable (M := pages demoConfig 101 1) (f := Desk.act demoConfig)
    (fun _ _ _ h => h) answerLost counter counter_opening
    (Option.some_get answerLost_runs).symm, ?_, ?_, ?_⟩
  all_goals
    decide +kernel

end OraOS.Auth
