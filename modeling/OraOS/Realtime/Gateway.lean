/-
  OraOS.Realtime.Gateway — sockets, and revocations that fall between their awaits.

  `handleConnection` awaits the verification of the token, the epoch check and the
  join before it registers the socket; `revokeAllForUser` commits first and runs its
  listeners later.  A socket is in the registry when it is `tracked`.

    * `Deaf`                 — what a revocation is to mean for the sockets;
    * `deaf_step`            — a step keeps it if and only if nothing falls in one
                               of the gaps;
    * `revoked_hears_nothing`— so in the runs in which nothing does, no socket of a
                               revoked token is a live member of a room;
    * `revoked_hears_on`, `closed_socket_tracked` — and what happens in the others.
-/
import OraOS.Auth.Epochs
import OraOS.Auth.OneLive

namespace OraOS.Realtime

open OraOS.Api
open OraOS.Lib
open OraOS.Auth

/-! ## §1. Sockets. -/

/-- How far `handleConnection` has come: the statement it is at. -/
inductive Stage where
  | verify
  | check
  | join
  | register
  | done
  deriving DecidableEq, Repr

/-- A socket: `token` is of its handshake, `userId` of its `data`; `tracked` is the user
under whom `socketsByUser` has it. -/
structure Sock where
  token : Option AccessToken
  stage : Stage
  connected : Bool
  room : Option Uuid
  userId : Option Uuid
  tracked : Option Uuid
  deriving DecidableEq, Repr

/-- A socket that has just been opened. -/
def Sock.opened (token : Option AccessToken) : Sock := ⟨token, .verify, true, none, none, none⟩

/-- The connection ends, by whichever side: the socket leaves its room, and
`handleDisconnect` takes it off the registry if it knows whose it is. -/
def Sock.disconnect (x : Sock) : Sock :=
  { x with connected := false, room := none, tracked := if x.userId.isSome then none else x.tracked }

/-- `handleConnection` gives up. -/
def Sock.refuse (x : Sock) : Sock := { x.disconnect with stage := .done }

/-- `jwt.verifyAsync` and the checks on the payload: one of our access tokens, not
expired, and for a restaurant. -/
def verified (cfg : AuthConfig) (w : World) (a : AccessToken) : Bool :=
  decide (a ∈ w.issued) && decide (w.now / 1000 < a.iat + cfg.jwtAccessTtlSeconds)
    && a.claims.rid.isSome

/-- The next statement of `handleConnection`. -/
def Sock.advance (cfg : AuthConfig) (w : World) (x : Sock) : Sock :=
  match x.stage, x.token with
  | .verify, none => x.refuse
  | .verify, some a => if verified cfg w a then { x with stage := .check } else x.refuse
  | .check, some a => if w.stale a then x.refuse else { x with stage := .join }
  -- on a socket that is gone `join` does nothing
  | .join, some a =>
      { x with stage := .register, room := if x.connected then a.claims.rid else x.room }
  | .register, some a =>
      { x with stage := .done, userId := some a.claims.sub, tracked := some a.claims.sub }
  | _, _ => x

/-- `disconnectUser`, for one socket: the entry of the user is deleted as a whole. -/
def Sock.dropped (userId : Uuid) (x : Sock) : Sock :=
  if x.tracked = some userId then { x.disconnect with tracked := none } else x

/-- The socket has passed the epoch check. -/
def Sock.authorised (x : Sock) : Bool :=
  decide (x.stage = .join) || decide (x.stage = .register) || decide (x.stage = .done)

/-- The socket receives what is emitted to a tenant. -/
def Sock.liveMember (x : Sock) : Bool := x.connected && x.room.isSome

/-! ## §2. The gateway among the requests. -/

/-- A revocation that has committed, with the access tokens issued to the user before. -/
structure Revocation where
  userId : Uuid
  tokens : List AccessToken
  deriving DecidableEq, Repr

/-- The requests, the sockets, the revocations whose listeners are still to run, and the
tokens of those whose listeners have run. -/
structure Gateway where
  flight : InFlight World Task
  sockets : List Sock
  committed : List Revocation
  ended : List AccessToken

/-- What happens at the API, its sockets and its clock. -/
inductive GatewayEvent where
  | http (e : ServiceEvent Request ℕ)
  | connect (token : Option AccessToken)
  /-- `handleConnection` of a socket goes on by one statement. -/
  | proceed (i : ℕ)
  | close (i : ℕ)
  /-- The listeners of a revocation run. -/
  | notify (i : ℕ)

/-- The revocation a request is about to commit. -/
def commits (c : InFlight World Task) : ServiceEvent Request ℕ → List Revocation
  | .run i =>
      match c.running i with
      | some (.revokeAll userId _ _) =>
          [⟨userId, c.shared.issued.filter fun a => decide (a.claims.sub = userId)⟩]
      | _ => []
  | _ => []

variable (cfg : AuthConfig)

/-- What each of them does. -/
def Gateway.act (c : Gateway) : GatewayEvent → Option Gateway
  | .http e => ((authService cfg).act c.flight e).map fun flight =>
      { c with flight, committed := c.committed ++ commits c.flight e }
  | .connect token => some { c with sockets := c.sockets ++ [.opened token] }
  | .proceed i => some { c with sockets := c.sockets.modify i (·.advance cfg c.flight.shared) }
  | .close i => some { c with sockets := c.sockets.modify i (·.disconnect) }
  | .notify i => (c.committed[i]?).map fun r =>
      { c with
        sockets := c.sockets.map (·.dropped r.userId)
        committed := c.committed.eraseIdx i
        ended := c.ended ++ r.tokens }

/-- Any number of requests and sockets at once. -/
def gateway : System Gateway GatewayEvent where
  init c := (sessions cfg).init c.flight ∧ c.sockets = [] ∧ c.committed = [] ∧ c.ended = []
  step c e c' := c.act cfg e = some c'

/-! ## §3. What a revocation is to mean. -/

/-- Tokens that a revocation has ended, or is about to, buy no connection; no connected
socket past its check has one whose listeners have run; and the registry has connected
sockets only. -/
structure Deaf (c : Gateway) : Prop where
  ended : ∀ a ∈ c.ended, c.flight.shared.stale a = true
  committed : ∀ r ∈ c.committed, ∀ a ∈ r.tokens, c.flight.shared.stale a = true
  silent : ∀ x ∈ c.sockets, x.connected = true → x.authorised = true → ∀ a ∈ x.token, a ∉ c.ended
  registry : ∀ x ∈ c.sockets, x.tracked.isSome = true → x.connected = true

/-- Nothing falls into a gap: a revocation commits when all tokens of the user were
signed in an earlier second than the one it read the clock in; its listeners run when no
socket with one of its tokens is between its check and its registration; and a socket is
registered when it is still connected. -/
def Timely (c : Gateway) : GatewayEvent → Prop
  | .http (.run i) =>
      match c.flight.running i with
      | some (.revokeAll userId at_ _) =>
          ∀ a ∈ c.flight.shared.issued, a.claims.sub = userId → a.iat * 1000 < at_
      | _ => True
  | .notify i => ∀ r ∈ c.committed[i]?, ∀ x ∈ c.sockets, x.connected = true →
      x.stage = .join ∨ x.stage = .register → ∀ a ∈ x.token, a ∉ r.tokens
  | .proceed i => ∀ x ∈ c.sockets[i]?, x.stage = .register → ∀ a ∈ x.token, x.connected = true
  | _ => True

instance (c : Gateway) (e : GatewayEvent) : Decidable (Timely c e) := by
  unfold Timely
  split
  · split <;> infer_instance
  all_goals infer_instance

/-! ## §4. What every run keeps. -/

variable {cfg : AuthConfig}

/-- A socket is in a room and in the registry only as far as its handler has come, and in
the registry when that has come to its end and the socket is still there. -/
structure SockInv (x : Sock) : Prop where
  room : x.room.isSome = true → x.stage = .register ∨ x.stage = .done
  waiting : x.stage ≠ .done → x.tracked = none ∧ x.userId = none
  tracked : x.tracked.isSome = true → x.userId.isSome = true
  member : x.connected = true → x.stage = .done →
    ∃ a, x.token = some a ∧ x.tracked = some a.claims.sub

theorem sockInv_opened (token : Option AccessToken) : SockInv (.opened token) where
  room := nofun
  waiting _ := ⟨rfl, rfl⟩
  tracked := nofun
  member _ := nofun

/-- A closed socket is in no register. -/
theorem disconnect_tracked {x : Sock} (h : SockInv x) : x.disconnect.tracked = none := by
  show (if x.userId.isSome then none else x.tracked) = none
  cases huser : x.userId with
  | some u => rfl
  | none =>
      cases htracked : x.tracked with
      | none => rfl
      | some u =>
          -- whoever is tracked is known to `handleDisconnect`
          have hsome := h.tracked (by rw [htracked]; rfl)
          rw [huser] at hsome
          cases hsome

/-- Closing a socket takes it out. -/
theorem SockInv.disconnect {x : Sock} (h : SockInv x) : SockInv x.disconnect where
  room := nofun
  waiting hstage := ⟨disconnect_tracked h, (h.waiting hstage).2⟩
  tracked := by
    rw [disconnect_tracked h]
    exact nofun
  member := nofun

theorem SockInv.refuse {x : Sock} (h : SockInv x) : SockInv x.refuse where
  room := nofun
  waiting hstage := absurd rfl hstage
  tracked := by
    show x.disconnect.tracked.isSome = true → _
    rw [disconnect_tracked h]
    exact nofun
  member := nofun

theorem SockInv.dropped {x : Sock} (h : SockInv x) (userId : Uuid) : SockInv (x.dropped userId) := by
  unfold Sock.dropped
  split
  · exact ⟨nofun, fun hstage => ⟨rfl, (h.waiting hstage).2⟩, nofun, nofun⟩
  · exact h

/-- Before the join the handler goes on without touching anything. -/
theorem SockInv.goOn {x : Sock} (h : SockInv x) (hregister : x.stage ≠ .register)
    (hdone : x.stage ≠ .done) {stage : Stage} (hdone' : stage ≠ .done) :
    SockInv { x with stage } where
  room hroom := absurd (h.room hroom) (not_or.mpr ⟨hregister, hdone⟩)
  waiting _ := h.waiting hdone
  tracked := h.tracked
  member _ hstage := absurd hstage hdone'

/-- **A socket is registered when it is authorised.** -/
theorem SockInv.advance {x : Sock} (h : SockInv x) (w : World) : SockInv (x.advance cfg w) := by
  unfold Sock.advance
  split
  next => exact h.refuse
  next a hstage htoken =>
    split
    · exact h.goOn (by simp [hstage]) (by simp [hstage]) (by simp)
    · exact h.refuse
  next a hstage htoken =>
    split
    · exact h.refuse
    · exact h.goOn (by simp [hstage]) (by simp [hstage]) (by simp)
  next a hstage htoken =>
    have hwaiting := h.waiting (by simp [hstage])
    exact ⟨fun _ => .inl rfl, fun _ => hwaiting, h.tracked, fun _ => nofun⟩
  next a hstage htoken =>
    exact ⟨fun _ => .inr rfl, fun hne => absurd rfl hne, fun _ => rfl, fun _ _ => ⟨a, htoken, rfl⟩⟩
  next => exact h

/-- The sockets are as far as their handlers, and what a revocation has ended was issued. -/
structure GatewayInv (c : Gateway) : Prop where
  socks : ∀ x ∈ c.sockets, SockInv x
  ended : ∀ a ∈ c.ended, a ∈ c.flight.shared.issued
  committed : ∀ r ∈ c.committed, ∀ a ∈ r.tokens,
    a ∈ c.flight.shared.issued ∧ a.claims.sub = r.userId

/-- What holds of each and of the modified one holds after. -/
theorem forall_modify {α : Type*} {P : α → Prop} {l : List α} {i : ℕ} {f : α → α}
    (h : ∀ x ∈ l, P x) (hf : ∀ x ∈ l[i]?, P (f x)) : ∀ x ∈ l.modify i f, P x := by
  intro x hx
  obtain ⟨j, hj⟩ := List.mem_iff_getElem?.mp hx
  rw [List.getElem?_modify] at hj
  obtain ⟨y, hy, hxy⟩ := Option.map_eq_some_iff.mp hj
  by_cases hij : i = j
  · subst hij
    rw [if_pos rfl] at hxy
    exact hxy ▸ hf y hy
  · rw [if_neg hij] at hxy
    exact hxy ▸ h y (List.mem_of_getElem? hy)

theorem mem_modify {α : Type*} {l : List α} {i : ℕ} {f : α → α} {x : α} (h : x ∈ l[i]?) :
    f x ∈ l.modify i f := by
  refine List.mem_iff_getElem?.mpr ⟨i, ?_⟩
  rw [List.getElem?_modify, h]
  simp

theorem mem_commits {c : InFlight World Task} {e : ServiceEvent Request ℕ} {r : Revocation}
    (h : r ∈ commits c e) : ∀ a ∈ r.tokens, a ∈ c.shared.issued ∧ a.claims.sub = r.userId := by
  unfold commits at h
  split at h
  next =>
    split at h
    next =>
      rw [List.mem_singleton.mp h]
      intro a ha
      obtain ⟨hissued, hsub⟩ := List.mem_filter.mp ha
      exact ⟨hissued, by simpa using hsub⟩
    next => cases h
  next => cases h

/-- No event of the requests takes an access token back. -/
theorem act_issued {c c' : InFlight World Task} {e : ServiceEvent Request ℕ}
    (h : (authService cfg).act c e = some c') : ∀ a ∈ c.shared.issued, a ∈ c'.shared.issued := by
  intro a ha
  cases e with
  | run i =>
      simp only [Service.act] at h
      split at h
      next => cases h
      next t _ =>
        cases h
        show a ∈ (next cfg c.shared t).1.issued
        -- a statement issues a token or leaves those there are
        rcases (next_epochs cfg c.shared t).2.1 with hsame | ⟨_, _, _, _, _, hadded⟩
        · rwa [hsame]
        · rw [hadded]
          exact List.mem_append_left _ ha
  | begin i r =>
      simp only [Service.act] at h
      split at h
      next =>
        cases h
        exact ha
      next => cases h
  | drop i =>
      cases h
      exact ha
  | env n =>
      cases h
      exact ha

theorem gatewayInv_step {c c' : Gateway} {e : GatewayEvent} (hc : GatewayInv c)
    (h : c.act cfg e = some c') : GatewayInv c' := by
  cases e with
  -- a request: the sockets are not touched
  | http e =>
      obtain ⟨flight, hact, rfl⟩ := Option.map_eq_some_iff.mp h
      have hkept := act_issued hact
      refine ⟨hc.socks, fun a ha => hkept a (hc.ended a ha), ?_⟩
      intro r hr a ha
      rcases List.mem_append.mp hr with hold | hnew
      · exact ⟨hkept a (hc.committed r hold a ha).1, (hc.committed r hold a ha).2⟩
      · exact ⟨hkept a (mem_commits hnew a ha).1, (mem_commits hnew a ha).2⟩
  | connect token =>
      cases h
      refine ⟨?_, hc.ended, hc.committed⟩
      intro x hx
      rcases List.mem_append.mp hx with hold | hnew
      · exact hc.socks x hold
      · rw [List.mem_singleton.mp hnew]
        exact sockInv_opened token
  | proceed i =>
      cases h
      refine ⟨forall_modify hc.socks ?_, hc.ended, hc.committed⟩
      exact fun x hx => (hc.socks x (List.mem_of_getElem? hx)).advance _
  | close i =>
      cases h
      refine ⟨forall_modify hc.socks ?_, hc.ended, hc.committed⟩
      exact fun x hx => (hc.socks x (List.mem_of_getElem? hx)).disconnect
  -- the sockets of the user are dropped, and its tokens count as ended
  | notify i =>
      obtain ⟨r, hr, rfl⟩ := Option.map_eq_some_iff.mp h
      refine ⟨?_, ?_, ?_⟩
      · intro x' hx'
        obtain ⟨x, hx, rfl⟩ := List.mem_map.mp hx'
        exact (hc.socks x hx).dropped _
      · intro a ha
        rcases List.mem_append.mp ha with hold | hnew
        · exact hc.ended a hold
        · exact (hc.committed r (List.mem_of_getElem? hr) a hnew).1
      · exact fun r' hr' => hc.committed r' (List.mem_of_mem_eraseIdx hr')

/-- **Every gateway is in order, and its requests are a run of the auth service.** -/
theorem gateway_runs {c : Gateway} (h : (gateway cfg).Reachable c) :
    GatewayInv c ∧ (sessions cfg).Reachable c.flight := by
  induction h with
  | init h0 =>
      obtain ⟨hflight, hsockets, hcommitted, hended⟩ := h0
      refine ⟨⟨?_, ?_, ?_⟩, .init hflight⟩
      · rw [hsockets]
        exact List.forall_mem_nil _
      · rw [hended]
        exact List.forall_mem_nil _
      · rw [hcommitted]
        exact List.forall_mem_nil _
  | @step c c' e _ hstep ih =>
      refine ⟨gatewayInv_step ih.1 hstep, ?_⟩
      have hact : c.act cfg e = some c' := hstep
      cases e with
      | http e =>
          obtain ⟨flight, hflight, rfl⟩ := Option.map_eq_some_iff.mp hact
          exact ih.2.step hflight
      -- the sockets' own steps leave the requests in flight
      | connect | proceed | close =>
          cases hact
          exact ih.2
      | notify i =>
          obtain ⟨r, -, rfl⟩ := Option.map_eq_some_iff.mp hact
          exact ih.2

/-! ## §5. What a revocation leaves of the sockets. -/

/-- The epoch of a revocation refuses exactly the tokens of an earlier second. -/
theorem stale_revokeAll {w : World} {userId : Uuid} {at_ : Instant} {swept : List Uuid}
    (huser : (w.findUser userId).isSome = true) {a : AccessToken} (hiat : a.iat ≠ 0)
    (hsub : a.claims.sub = userId) :
    (w.revokeAll userId at_ swept).stale a = true ↔ a.iat * 1000 < at_ := by
  unfold World.stale
  rw [hsub, epochOf_revokeAll_self at_ swept huser]
  simp [hiat]

/-- A statement that moves no epoch leaves the gateway as deaf as it was. -/
theorem Deaf.same_epochs {c : Gateway} {flight : InFlight World Task}
    (h : ∀ u, flight.shared.epochOf u = c.flight.shared.epochOf u) (hdeaf : Deaf c) :
    Deaf { c with flight } where
  ended a ha := (stale_congr (h _)).trans (hdeaf.ended a ha)
  committed r hr a ha := (stale_congr (h _)).trans (hdeaf.committed r hr a ha)
  silent := hdeaf.silent
  registry := hdeaf.registry

section

variable {c c' : Gateway}

/-- **A revocation commits in time if and only if** its epoch is later than the second of
every token of the user. -/
theorem deaf_revokeAll (hc : GatewayInv c) (hclock : ClockInv c.flight.shared) (hdeaf : Deaf c)
    {userId : Uuid} {at_ : Instant} {swept : List Uuid}
    (huser : (c.flight.shared.findUser userId).isSome = true) {running : ℕ → Option Task} :
    Deaf { c with
        flight := ⟨c.flight.shared.revokeAll userId at_ swept, running⟩
        committed := c.committed ++
          [⟨userId, c.flight.shared.issued.filter fun a => decide (a.claims.sub = userId)⟩] }
      ↔ ∀ a ∈ c.flight.shared.issued, a.claims.sub = userId → a.iat * 1000 < at_ := by
  constructor
  · intro hafter a ha hsub
    have hstale := hafter.committed _ (List.mem_append_right _ (List.mem_singleton_self _)) a
      (List.mem_filter.mpr ⟨ha, decide_eq_true hsub⟩)
    exact (stale_revokeAll huser (hclock.iat_ne a ha) hsub).mp hstale
  · intro htimely
    -- whatever was issued and refused is refused still
    have hkept : ∀ a ∈ c.flight.shared.issued, c.flight.shared.stale a = true →
        (c.flight.shared.revokeAll userId at_ swept).stale a = true := by
      intro a ha hstale
      by_cases hsub : a.claims.sub = userId
      · exact (stale_revokeAll huser (hclock.iat_ne a ha) hsub).mpr (htimely a ha hsub)
      · rw [stale_congr (epochOf_revokeAll_other _ at_ swept hsub)]
        exact hstale
    refine ⟨fun a ha => hkept a (hc.ended a ha) (hdeaf.ended a ha), ?_, hdeaf.silent,
      hdeaf.registry⟩
    intro r hr a ha
    rcases List.mem_append.mp hr with hold | hnew
    · exact hkept a (hc.committed r hold a ha).1 (hdeaf.committed r hold a ha)
    · rw [List.mem_singleton.mp hnew] at ha
      obtain ⟨hissued, hsub⟩ := List.mem_filter.mp ha
      have hsub' : a.claims.sub = userId := by simpa using hsub
      exact (stale_revokeAll huser (hclock.iat_ne a hissued) hsub').mpr (htimely a hissued hsub')

/-- A step that is no revocation commits none. -/
theorem commits_other {i : ℕ} {t : Task} (hi : c.flight.running i = some t)
    (hnot : ¬ ∃ userId at_ swept, t = .revokeAll userId at_ swept) :
    commits c.flight (.run i) = [] ∧ Timely c (.http (.run i)) := by
  simp only [commits, Timely, hi]
  cases t with
  | revokeAll userId at_ swept => exact absurd ⟨userId, at_, swept, rfl⟩ hnot
  | _ => exact ⟨rfl, trivial⟩

/-- **A step of a request leaves the revoked deaf exactly when it is timely.** -/
theorem deaf_http {e : ServiceEvent Request ℕ} (hc : GatewayInv c)
    (hclock : ClockInv c.flight.shared)
    (hknows : ∀ i t, c.flight.running i = some t → KnowsClock c.flight.shared t) (hdeaf : Deaf c)
    (h : c.act cfg (.http e) = some c') : Deaf c' ↔ Timely c (.http e) := by
  obtain ⟨flight, hact, rfl⟩ := Option.map_eq_some_iff.mp h
  cases e with
  | run i =>
      simp only [Service.act] at hact
      split at hact
      next => cases hact
      next t hi =>
        cases hact
        -- only the commit of a revocation moves an epoch
        by_cases hrevokes : ∃ userId at_ swept, t = .revokeAll userId at_ swept
        · obtain ⟨userId, at_, swept, rfl⟩ := hrevokes
          simp only [commits, Timely, hi]
          exact deaf_revokeAll hc hclock hdeaf (hknows i _ hi)
        · obtain ⟨hnone, htimely⟩ := commits_other hi hrevokes
          rw [hnone, List.append_nil]
          refine iff_of_true (hdeaf.same_epochs ?_) htimely
          exact (next_epochs cfg c.flight.shared t).2.2.resolve_right hrevokes
  | begin i r =>
      simp only [Service.act] at hact
      split at hact
      next =>
        cases hact
        refine iff_of_true ?_ trivial
        simp only [commits, List.append_nil]
        exact hdeaf.same_epochs fun _ => rfl
      next => cases hact
  | drop i =>
      cases hact
      refine iff_of_true ?_ trivial
      simp only [commits, List.append_nil]
      exact hdeaf.same_epochs fun _ => rfl
  | env n =>
      cases hact
      refine iff_of_true ?_ trivial
      simp only [commits, List.append_nil]
      exact hdeaf.same_epochs fun _ => rfl

/-- A socket that is still open after a drop belongs to someone else. -/
theorem dropped_authorised {x : Sock} {userId : Uuid}
    (hconnected : (x.dropped userId).connected = true) :
    x.tracked ≠ some userId ∧ x.dropped userId = x := by
  unfold Sock.dropped at hconnected ⊢
  split at hconnected
  next => cases hconnected
  next hnot => exact ⟨hnot, if_neg hnot⟩

/-- **The listeners run in time if and only if** no socket with one of the tokens is
between its check and its registration. -/
theorem deaf_notify {i : ℕ} (hc : GatewayInv c) (hdeaf : Deaf c)
    (h : c.act cfg (.notify i) = some c') : Deaf c' ↔ Timely c (.notify i) := by
  obtain ⟨r, hr, rfl⟩ := Option.map_eq_some_iff.mp h
  have hmem := List.mem_of_getElem? hr
  constructor
  · intro hafter r' hr' x hx hconnected hstage a ha hin
    rw [hr] at hr'
    cases hr'
    -- a socket that waits is not in the registry yet, so the listeners pass it by
    have hdone : x.stage ≠ .done := by
      rcases hstage with hs | hs
      · simp [hs]
      · simp [hs]
    have hsame : x.dropped r.userId = x := by
      unfold Sock.dropped
      rw [((hc.socks x hx).waiting hdone).1]
      exact if_neg nofun
    have hauthorised : x.authorised = true := by
      rcases hstage with hs | hs
      · simp [Sock.authorised, hs]
      · simp [Sock.authorised, hs]
    refine hafter.silent x ?_ hconnected hauthorised a ha (List.mem_append_right _ hin)
    exact hsame ▸ List.mem_map_of_mem hx
  · intro htimely
    refine ⟨?_, fun r' hr' => hdeaf.committed r' (List.mem_of_mem_eraseIdx hr'), ?_, ?_⟩
    · intro a ha
      rcases List.mem_append.mp ha with hold | hnew
      · exact hdeaf.ended a hold
      · exact hdeaf.committed r hmem a hnew
    · intro x' hx' hconnected hauthorised a ha
      obtain ⟨x, hx, rfl⟩ := List.mem_map.mp hx'
      obtain ⟨hnot, hsame⟩ := dropped_authorised hconnected
      rw [hsame] at hconnected hauthorised ha
      refine fun hin => (List.mem_append.mp hin).elim
        (hdeaf.silent x hx hconnected hauthorised a ha) ?_
      intro hin
      by_cases hdone : x.stage = .done
      · -- whoever is connected at the end is in the registry, under the token's user
        obtain ⟨a', ha', htracked⟩ := (hc.socks x hx).member hconnected hdone
        rw [ha'] at ha
        cases ha
        rw [(hc.committed r hmem a hin).2] at htracked
        exact hnot htracked
      · refine htimely r hr x hx hconnected ?_ a ha hin
        simpa [Sock.authorised, hdone] using hauthorised
    · intro x' hx' htracked
      obtain ⟨x, hx, rfl⟩ := List.mem_map.mp hx'
      unfold Sock.dropped at htracked ⊢
      split at htracked
      next => cases htracked
      next hnot =>
        rw [if_neg hnot]
        exact hdeaf.registry x hx htracked

/-- One socket goes on, and the others stay deaf. -/
theorem deaf_modify {i : ℕ} {f : Sock → Sock} (hdeaf : Deaf c)
    (hsilent : ∀ x ∈ c.sockets[i]?, (f x).connected = true → (f x).authorised = true →
      ∀ a ∈ (f x).token, a ∉ c.ended)
    (hregistry : ∀ x ∈ c.sockets[i]?, (f x).tracked.isSome = true → (f x).connected = true) :
    Deaf { c with sockets := c.sockets.modify i f } where
  ended := hdeaf.ended
  committed := hdeaf.committed
  silent := forall_modify hdeaf.silent hsilent
  registry := forall_modify hdeaf.registry hregistry

/-- Closing a socket cannot make anybody hear. -/
theorem deaf_close {i : ℕ} (hc : GatewayInv c) (hdeaf : Deaf c)
    (h : c.act cfg (.close i) = some c') : Deaf c' := by
  cases h
  refine deaf_modify hdeaf (fun x _ hconnected => by cases hconnected) ?_
  intro x hx htracked
  rw [disconnect_tracked (hc.socks x (List.mem_of_getElem? hx))] at htracked
  cases htracked

/-- **A handler goes on in time if and only if** it does not register a socket that is
gone. -/
theorem deaf_proceed {i : ℕ} (hc : GatewayInv c) (hdeaf : Deaf c)
    (h : c.act cfg (.proceed i) = some c') : Deaf c' ↔ Timely c (.proceed i) := by
  cases h
  constructor
  · intro hafter x hx hstage a ha
    have hregistered : x.advance cfg c.flight.shared =
        { x with stage := .done, userId := some a.claims.sub, tracked := some a.claims.sub } := by
      simp only [Sock.advance, hstage, Option.mem_def.mp ha]
    have hin := hafter.registry _ (mem_modify hx)
    rw [hregistered] at hin
    exact hin rfl
  · intro htimely
    refine deaf_modify hdeaf ?_ ?_
    · intro x hx
      have hmem := List.mem_of_getElem? hx
      unfold Sock.advance
      split
      next => exact nofun
      next a hstage htoken =>
        split
        · intro _ hauthorised
          simp [Sock.authorised] at hauthorised
        · exact nofun
      next a hstage htoken =>
        split
        next => exact nofun
        next hfresh =>
          intro _ _ a' ha' hin
          -- what has been ended does not pass the check
          rw [Option.mem_def.mp ha'] at htoken
          cases htoken
          exact hfresh (hdeaf.ended _ hin)
      next a hstage htoken =>
        intro hconnected _
        exact hdeaf.silent x hmem hconnected (by simp [Sock.authorised, hstage])
      next a hstage htoken =>
        intro hconnected _
        exact hdeaf.silent x hmem hconnected (by simp [Sock.authorised, hstage])
      next => exact hdeaf.silent x hmem
    · intro x hx
      have hmem := List.mem_of_getElem? hx
      have hrefused : x.refuse.tracked.isSome = true → x.refuse.connected = true := by
        intro htracked
        rw [show x.refuse.tracked = none from disconnect_tracked (hc.socks x hmem)] at htracked
        cases htracked
      unfold Sock.advance
      split
      next => exact hrefused
      next =>
        split
        · exact hdeaf.registry x hmem
        · exact hrefused
      next =>
        split
        · exact hrefused
        · exact hdeaf.registry x hmem
      next => exact hdeaf.registry x hmem
      next a hstage htoken => exact fun _ => htimely x hx hstage a htoken
      next => exact hdeaf.registry x hmem

/-- **The step**: what a revocation is to mean is kept if and only if nothing falls into
a gap. -/
theorem deaf_step {e : GatewayEvent} (hc : GatewayInv c) (hclock : ClockInv c.flight.shared)
    (hknows : ∀ i t, c.flight.running i = some t → KnowsClock c.flight.shared t) (hdeaf : Deaf c)
    (h : c.act cfg e = some c') : Deaf c' ↔ Timely c e := by
  cases e with
  | http e => exact deaf_http hc hclock hknows hdeaf h
  | proceed i => exact deaf_proceed hc hdeaf h
  | notify i => exact deaf_notify hc hdeaf h
  | close i => exact iff_of_true (deaf_close hc hdeaf h) trivial
  -- a new socket is not authorised yet
  | connect token =>
      cases h
      refine iff_of_true ⟨hdeaf.ended, hdeaf.committed, ?_, ?_⟩ trivial
      · intro x hx
        rcases List.mem_append.mp hx with hold | hnew
        · exact hdeaf.silent x hold
        · rw [List.mem_singleton.mp hnew]
          intro _ hauthorised
          simp [Sock.opened, Sock.authorised] at hauthorised
      · intro x hx
        rcases List.mem_append.mp hx with hold | hnew
        · exact hdeaf.registry x hold
        · rw [List.mem_singleton.mp hnew]
          intro htracked
          cases htracked

end

/-! ## §6. A revoked session hears nothing more. -/

/-- **In every run of timely steps the revoked hear nothing.** -/
theorem deaf_of_reachable {c : Gateway} (h : ((gateway cfg).restrict Timely).Reachable c) :
    Deaf c := by
  induction h with
  | init h0 =>
      obtain ⟨-, hsockets, hcommitted, hended⟩ := h0
      refine ⟨?_, ?_, ?_, ?_⟩
      · rw [hended]
        exact List.forall_mem_nil _
      · rw [hcommitted]
        exact List.forall_mem_nil _
      · rw [hsockets]
        exact List.forall_mem_nil _
      · rw [hsockets]
        exact List.forall_mem_nil _
  | step hreach hstep ih =>
      obtain ⟨hc, hflight⟩ := gateway_runs (System.restrict_reachable hreach)
      obtain ⟨hclock, hknows⟩ := sessions_clock hflight
      exact (deaf_step hc hclock hknows ih hstep.2).mpr hstep.1

/-- **A revoked session hears nothing more**, and the registry has connected sockets only,
in the runs in which nothing falls into a gap of `handleConnection`; and whatever does
leaves a token that still buys a connection, a socket that still hears or is about to, or
one that is gone and still in the registry. -/
theorem revoked_hears_nothing (cfg : AuthConfig) {c : Gateway}
    (h : ((gateway cfg).restrict Timely).Reachable c) :
    (∀ x ∈ c.sockets, x.liveMember = true → ∀ a ∈ x.token, a ∉ c.ended)
      ∧ (∀ x ∈ c.sockets, x.tracked.isSome = true → x.connected = true)
      ∧ ∀ e c', (gateway cfg).step c e c' → (Deaf c' ↔ Timely c e) := by
  have hdeaf := deaf_of_reachable h
  obtain ⟨hc, hflight⟩ := gateway_runs (System.restrict_reachable h)
  obtain ⟨hclock, hknows⟩ := sessions_clock hflight
  refine ⟨?_, hdeaf.registry, fun e c' hstep => deaf_step hc hclock hknows hdeaf hstep⟩
  intro x hx hlive
  obtain ⟨hconnected, hroom⟩ := Bool.and_eq_true_iff.mp hlive
  refine hdeaf.silent x hx hconnected ?_
  -- whoever is in a room has passed the check
  rcases (hc.socks x hx).room hroom with hstage | hstage
  · simp [Sock.authorised, hstage]
  · simp [Sock.authorised, hstage]

/-- Signed in nowhere, and no socket. -/
def quietGateway : Gateway := ⟨nobodyYet, [], [], []⟩

theorem quietGateway_init : (gateway demoConfig).init quietGateway :=
  ⟨⟨oneManager_oneLive.toOpening, fun _ => rfl⟩, rfl, rfl, rfl⟩

/-- A sign-in from its first statement to its answer. -/
def signInRun (i : ℕ) : List GatewayEvent :=
  [.http (.begin i signIn), .http (.run i), .http (.run i), .http (.run i), .http (.run i),
    .http (.run i)]

/-- A sign-out everywhere, from its first statement to its answer. -/
def revokeRun (i : ℕ) : List GatewayEvent :=
  [.http (.env 5000), .http (.begin i (.logoutAll 1)), .http (.run i), .http (.run i),
    .http (.run i)]

/-- A socket opened and registered. -/
def connectRun (i : ℕ) (a : AccessToken) : List GatewayEvent :=
  [.connect (some a), .proceed i, .proceed i, .proceed i, .proceed i]

/-- The access token of a sign-in after the revocation. -/
def laterAccess : AccessToken := { managerAccess with iat := 1010, checkedAfter := 1 }

/-- A socket that is there when its session is revoked, one that has gone before, and one
of the next session. -/
def connectedAgain : List GatewayEvent :=
  List.flatten [signInRun 0, connectRun 0 managerAccess, connectRun 1 managerAccess, [.close 1],
    revokeRun 1, [.notify 0, .http (.env 5000)], signInRun 2, connectRun 2 laterAccess]

theorem connectedAgain_runs :
    (System.replay (System.guarded Timely (Gateway.act demoConfig)) connectedAgain
      quietGateway).isSome = true := by
  decide +kernel

/-- The socket of the next session is the live member. -/
theorem revoked_hears_nothing_again :
    ∃ c : Gateway, c.ended = [managerAccess]
      ∧ c.sockets.map (·.liveMember) = [false, false, true]
      ∧ ∀ x ∈ c.sockets, x.liveMember = true → ∀ a ∈ x.token, a ∉ c.ended := by
  have h := System.replay_restricted (M := gateway demoConfig) (C := Timely)
    (f := Gateway.act demoConfig) (fun _ _ _ h => h) connectedAgain quietGateway quietGateway_init
    (Option.some_get connectedAgain_runs).symm
  refine ⟨_, ?_, ?_, (revoked_hears_nothing demoConfig h).1⟩
  · decide +kernel
  · decide +kernel

/-- The check reads the epoch, the session is revoked and the listeners run; then the
socket joins. -/
def joinedLate : List GatewayEvent :=
  signInRun 0 ++ [.connect (some managerAccess), .proceed 0, .proceed 0] ++ revokeRun 1
    ++ [.notify 0, .proceed 0, .proceed 0]

/-- The client goes away while its token is checked. -/
def closedEarly : List GatewayEvent :=
  signInRun 0 ++ [.connect (some managerAccess), .proceed 0, .close 0, .proceed 0, .proceed 0,
    .proceed 0]

theorem joinedLate_runs :
    (System.replay (Gateway.act demoConfig) joinedLate quietGateway).isSome = true := by
  decide +kernel

theorem closedEarly_runs :
    (System.replay (Gateway.act demoConfig) closedEarly quietGateway).isSome = true := by
  decide +kernel

/-- A live member with a revoked token, and a socket that is gone in the registry. -/
theorem revoked_hears_on :
    (∃ c, (gateway demoConfig).Reachable c ∧ ∃ x ∈ c.sockets, x.liveMember = true
      ∧ ∃ a ∈ x.token, a ∈ c.ended)
    ∧ ∃ c, (gateway demoConfig).Reachable c ∧ ∃ x ∈ c.sockets, x.tracked = some 1
      ∧ x.connected = false := by
  constructor
  · refine ⟨_, System.replay_reachable (M := gateway demoConfig) (f := Gateway.act demoConfig)
      (fun _ _ _ h => h) joinedLate quietGateway quietGateway_init
      (Option.some_get joinedLate_runs).symm, ?_⟩
    decide +kernel
  · refine ⟨_, System.replay_reachable (M := gateway demoConfig) (f := Gateway.act demoConfig)
      (fun _ _ _ h => h) closedEarly quietGateway quietGateway_init
      (Option.some_get closedEarly_runs).symm, ?_⟩
    decide +kernel

end OraOS.Realtime
