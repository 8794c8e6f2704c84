/-
  OraOS.Auth.SignOut — "sign out everywhere" against requests in flight.

  What a request read before a revocation can still reach the tables after it:

    * `knows_stable`         — what a request relies on survives the statements of
                               the others;
    * `signed_out_for_good`  — in the runs in which no statement is overtaken, and no
                               revocation overlooks the token of a rotation under way,
                               whatever `rotate` accepts goes back to a password check
                               made after every revocation;
    * `login_outlives_revocation` — and in the others it need not.
-/
import OraOS.Auth.Statements

namespace OraOS.Auth

open OraOS.Api
open OraOS.Lib
open OraOS.Tenancy

/-! ## §1. What a request in flight relies on. -/

/-- `existing` is a copy of a row that may have been revoked since. -/
structure World.Row (w : World) (existing : RefreshToken) : Prop where
  fresh : existing.token < w.fresh
  present : ∃ t ∈ w.refreshTokens, existing.Becomes t
  same : ∀ t ∈ w.refreshTokens, t.token = existing.token → existing.Becomes t

/-- What a claimed session takes along: a token of its family, checked after every
revocation unless the family has died since. -/
structure World.Carried (w : World) (userId familyId : Uuid) (checkedAfter since : ℕ) : Prop where
  since_eq : checkedAfter = since
  present : ∃ t ∈ w.refreshTokens, t.userId = userId ∧ t.familyId = familyId
  checked : checkedAfter = w.revocations userId ∨ w.FamilyDead userId familyId

/-- What a ticket takes along. -/
def World.TicketOk (w : World) (ticket : Ticket) : Prop :=
  (ticket.source ≠ .refresh ∧ ticket.checkedAfter = ticket.since)
    ∨ ∃ familyId, ticket.familyId = some familyId
        ∧ w.Carried ticket.claims.sub familyId ticket.checkedAfter ticket.since

/-- What each task relies on, whatever other requests do. -/
def Knows (w : World) : Task → Prop
  | .readEpoch existing => w.Row existing
  -- the epoch read is current as long as the presented token is live
  | .readFamily existing epoch => w.Row existing
      ∧ (w.live existing.token = true → w.epochOf existing.userId = some epoch)
  | .claim existing => w.Row existing
      ∧ (w.live existing.token = true → ¬ w.FamilyDead existing.userId existing.familyId)
  | .readActive existing since =>
      w.Carried existing.userId existing.familyId existing.checkedAfter since
  | .refreshClaims user existing since => user.id = existing.userId
      ∧ w.Carried existing.userId existing.familyId existing.checkedAfter since
  | .checkAccess access _ _ => access ∈ w.issued
  | .readMembership access _ _ since => access.checkedAfter = since
  | .findCookie ticket _ => ticket.source ≠ .refresh ∧ ticket.checkedAfter = ticket.since
  | .consumeCookie ticket _ => ticket.source ≠ .refresh ∧ ticket.checkedAfter = ticket.since
  | .sign ticket => w.TicketOk ticket
  | .insert ticket iat => w.TicketOk ticket ∧ iat ≠ 0
  | .sweep _ at_ => at_ ≤ w.now
  | .revokeAll userId at_ _ => at_ ≤ w.now ∧ (w.findUser userId).isSome = true
  | _ => True

/-- The token of a rotation that has looked at the epoch and has yet to claim it. -/
def rotating : Task → Option RefreshToken
  | .readFamily existing _ => some existing
  | .claim existing => some existing
  | _ => none

section stable

variable {w w' : World}

/-- A copy stays a copy while rows are only revoked and added. -/
theorem World.Row.grown {existing : RefreshToken} (h : w.Row existing) (he : Grown w w') :
    w'.Row existing where
  fresh := lt_of_lt_of_le h.fresh he.fresh
  present := by
    obtain ⟨t, ht, hb⟩ := h.present
    obtain ⟨t', ht', hb'⟩ := he.kept t ht
    exact ⟨t', ht', hb.trans hb'⟩
  same t' ht' htoken := by
    rcases he.origin t' ht' with ⟨t, ht, hb⟩ | hnew
    · exact (h.same t ht (hb.token.symm.trans htoken)).trans hb
    · -- a new token is another token
      rw [htoken] at hnew
      exact absurd h.fresh (not_lt.mpr hnew)

/-- As they are by every statement. -/
theorem World.Row.stable {existing : RefreshToken} (h : w.Row existing) (he : Evolves w w') :
    w'.Row existing :=
  h.grown he.grown

/-- A copied row that is live was live before. -/
theorem World.Row.live_before {existing : RefreshToken} (h : w.Row existing) (he : Evolves w w')
    (hlive : w'.live existing.token = true) : w.live existing.token = true := by
  obtain ⟨t', ht', htoken, hnone⟩ := World.live_iff.mp hlive
  rcases he.origin t' ht' with ⟨t, ht, hb⟩ | ⟨hnew, -⟩
  · exact World.live_iff.mpr ⟨t, ht, hb.token.symm.trans htoken, hb.revoked hnone⟩
  · rw [htoken] at hnew
    exact absurd h.fresh (not_lt.mpr hnew)

/-- What a claimed session takes along stands; if the user's epoch moves, its family is
dead. -/
theorem World.Carried.stable {userId familyId : Uuid} {checkedAfter since : ℕ}
    (h : w.Carried userId familyId checkedAfter since) (he : Evolves w w') :
    w'.Carried userId familyId checkedAfter since where
  since_eq := h.since_eq
  present := by
    obtain ⟨t, ht, huser, hfamily⟩ := h.present
    obtain ⟨t', ht', hb⟩ := he.kept t ht
    exact ⟨t', ht', hb.userId.trans huser, hb.familyId.trans hfamily⟩
  checked := by
    rcases he.epoch userId with ⟨hrev, hepoch⟩ | hswept
    · rcases h.checked with heq | hdead
      · exact .inl (heq.trans hrev.symm)
      · exact .inr (hdead.kept he.kept hepoch)
    -- the account was swept: the family has a token of it, so the family is dead
    · obtain ⟨t, ht, huser, hfamily⟩ := h.present
      have hdead := hswept t ht huser
      rw [hfamily] at hdead
      exact .inr hdead

theorem World.TicketOk.stable {ticket : Ticket} (h : w.TicketOk ticket) (he : Evolves w w') :
    w'.TicketOk ticket := by
  rcases h with hchecked | ⟨familyId, hfamily, hcarried⟩
  · exact .inl hchecked
  · exact .inr ⟨familyId, hfamily, hcarried.stable he⟩

/-- Tokens that appear later are not from before the epoch. -/
theorem alive_stable {existing : RefreshToken} (hw : SessionInv w) (hrow : w.Row existing)
    (halive : w.live existing.token = true → ¬ w.FamilyDead existing.userId existing.familyId)
    (he : Evolves w w') (hepoch : w'.epochOf existing.userId = w.epochOf existing.userId)
    (hlive : w'.live existing.token = true) :
    ¬ w'.FamilyDead existing.userId existing.familyId := by
  have hbefore := hrow.live_before he hlive
  rintro ⟨t', ht', hfamily, epoch, hepoch', hlt⟩
  rw [hepoch] at hepoch'
  rcases he.origin t' ht' with ⟨t, ht, hb⟩ | ⟨-, hnew⟩
  · refine halive hbefore ⟨t, ht, hb.familyId.symm.trans hfamily, epoch, hepoch', ?_⟩
    rwa [← hb.createdAt]
  · have hpast := hw.epoch_past _ epoch hepoch'
    exact absurd (hlt.trans_le hpast) (not_lt.mpr hnew)

/-- **Stability**: no statement takes from another request what it relies on, if the
epoch a rotation has looked at stands for as long as its token is live. -/
theorem knows_stable {t : Task} (hw : SessionInv w) (he : Evolves w w')
    (hepoch : ∀ existing ∈ rotating t, w'.live existing.token = true →
      w'.epochOf existing.userId = w.epochOf existing.userId) (h : Knows w t) : Knows w' t := by
  cases t with
  | readEpoch existing => exact World.Row.stable h he
  | readFamily existing epoch =>
      refine ⟨h.1.stable he, ?_⟩
      intro hlive
      exact (hepoch existing rfl hlive).trans (h.2 (h.1.live_before he hlive))
  | claim existing =>
      refine ⟨h.1.stable he, fun hlive => ?_⟩
      exact alive_stable hw h.1 h.2 he (hepoch existing rfl hlive) hlive
  | readActive existing since => exact World.Carried.stable h he
  | refreshClaims user existing since => exact ⟨h.1, h.2.stable he⟩
  | checkAccess access restaurantId presented => exact he.issued access h
  | sign ticket => exact World.TicketOk.stable h he
  | insert ticket iat => exact ⟨h.1.stable he, h.2⟩
  | sweep userId at_ => exact le_trans h he.now
  | revokeAll userId at_ swept => exact ⟨h.1.trans he.now, he.users userId h.2⟩
  | readMembership access restaurantId presented since => exact h
  | findCookie ticket presented => exact h
  | consumeCookie ticket existing => exact h
  | readUser email password => trivial
  | comparePassword user password since => trivial
  | loginClaims user since => trivial
  -- the statements below read anew what they need
  | findToken presented => trivial
  | revokeFamily familyId => trivial
  | logout presented => trivial
  | readClock userId => trivial
  | findReset token passwordHash => trivial
  | claimReset record passwordHash => trivial

end stable

/-! ## §2. The statements, one by one. -/

/-- Whatever the epoch check lets through is not of a dead family. -/
theorem familyStart_le {w : World} {t : RefreshToken} (ht : t ∈ w.refreshTokens) :
    ∃ startedAt, w.familyStart t.familyId = some startedAt ∧ startedAt ≤ t.createdAt := by
  have hmem : t.createdAt ∈ (w.refreshTokens.filter fun x =>
      decide (x.familyId = t.familyId)).map (·.createdAt) :=
    List.mem_map_of_mem (List.mem_filter.mpr ⟨ht, by simp⟩)
  obtain ⟨startedAt, hstart⟩ := Option.isSome_iff_exists.mp (List.isSome_min?_of_mem hmem)
  exact ⟨startedAt, hstart, (List.min?_eq_some_iff.mp hstart).2 _ hmem⟩

/-- A family that the epoch check lets through has no token from before the epoch. -/
theorem alive_of_started {w : World} {userId familyId : Uuid} {epoch : Instant}
    (hepoch : w.epochOf userId = some epoch)
    (hstarted : ¬ ((w.familyStart familyId).any fun startedAt => decide (startedAt < epoch)) = true) :
    ¬ w.FamilyDead userId familyId := by
  rintro ⟨t, ht, rfl, epoch', hepoch', hlt⟩
  rw [hepoch] at hepoch'
  cases hepoch'
  obtain ⟨startedAt, hstart, hle⟩ := familyStart_le ht
  refine hstarted ?_
  rw [hstart]
  exact decide_eq_true (lt_of_le_of_lt hle hlt)

/-- A row that has just been read is a copy. -/
theorem row_of_findToken {w : World} (hw : TokenKeys w) {presented : Uuid} {t : RefreshToken}
    (h : w.findToken presented = some t) : w.Row t := by
  have ht := List.mem_of_find?_eq_some h
  refine ⟨hw.fresh t ht, ⟨t, ht, .refl t⟩, ?_⟩
  intro t' ht' htoken
  rw [List.inj_on_of_nodup_map hw.nodup ht' ht htoken]
  exact .refl t

/-- **What `rotate` accepts** was checked after every revocation. -/
theorem accepted_checked {w : World} {existing : RefreshToken} (hw : SessionInv w)
    (h : Knows w (.claim existing)) (hlive : w.live existing.token = true) :
    existing.checkedAfter = w.revocations existing.userId := by
  obtain ⟨hrow, halive⟩ := h
  obtain ⟨t, ht, htoken, hnone⟩ := World.live_iff.mp hlive
  have hb := hrow.same t ht htoken
  rw [← hb.checkedAfter, ← hb.userId]
  refine hw.live_checked t ht hnone ?_
  rw [hb.userId, hb.familyId]
  exact halive hlive

/-- What is claimed is taken along. -/
theorem carried_claim {w : World} {existing : RefreshToken} (hw : SessionInv w)
    (h : Knows w (.claim existing)) (hlive : w.live existing.token = true) :
    w.Carried existing.userId existing.familyId existing.checkedAfter
      (w.revocations existing.userId) := by
  have hchecked := accepted_checked hw h hlive
  obtain ⟨t, ht, hb⟩ := h.1.present
  exact ⟨hchecked, ⟨t, ht, hb.userId, hb.familyId⟩, .inl hchecked⟩

/-- The statements that must not be overtaken: a login's or a selection's issue by a
revocation since its check, a revocation's commit by an issue since it read the
clock; and an access token whose refresh was overtaken is not used to select. -/
def Calm (w : World) : Task → Prop
  | .insert ticket _ => ticket.source ≠ .refresh →
      ticket.since = w.revocations ticket.claims.sub
  | .checkAccess access _ _ => access.late = false
  | .revokeAll userId at_ _ => w.Undisturbed userId at_
  | _ => True

/-- A revocation commits beside a rotation of its user only if its sweep has seen the
token that is being rotated, or somebody else has claimed it. -/
def SeesRotations (w : World) : Task → Task → Prop
  | .revokeAll userId _ swept, u => ∀ existing ∈ rotating u, existing.userId = userId →
      w.live existing.token = true → existing.token ∈ swept
  | _, _ => True

/-- What has to be shown of a statement. -/
def Sound (w : World) (o : World × Option Task) : Prop :=
  SessionInv o.1 ∧ Evolves w o.1 ∧ ∀ t, o.2 = some t → Knows o.1 t

/-- A request that is over relies on nothing. -/
theorem knows_over (w : World) (t : Task) (h : none = some t) : Knows w t := by
  cases h

/-- A statement that only reads. -/
theorem sound_read {w : World} (hw : SessionInv w) {o : Option Task}
    (h : ∀ t, o = some t → Knows w t) : Sound w (w, o) :=
  ⟨hw, (Quiet.refl w).evolves, h⟩

/-- The last statement of a request, if it writes nothing. -/
theorem sound_last {w : World} (hw : SessionInv w) : Sound w (w, none) :=
  sound_read hw (knows_over w)

/-- A statement that reads, and what the request knows by it. -/
theorem sound_then {w : World} (hw : SessionInv w) {t : Task} (h : Knows w t) :
    Sound w (w, some t) := by
  refine sound_read hw ?_
  intro t' ht'
  cases ht'
  exact h

/-- A quiet write, and what the request knows after it. -/
theorem sound_quiet {w w' : World} (hw : SessionInv w) (h : Quiet w w') {o : Option Task}
    (hknow : ∀ t, o = some t → Knows w' t) : Sound w (w', o) :=
  ⟨h.sessionInv hw, h.evolves, hknow⟩

/-- The statements of `rotate`: the epoch, the family and the claim. -/
theorem sound_rotate {w : World} (hw : SessionInv w) (cfg : AuthConfig) {existing : RefreshToken} :
    (w.Row existing → Sound w (next cfg w (.readEpoch existing)))
      ∧ (∀ epoch, Knows w (.readFamily existing epoch) →
          Sound w (next cfg w (.readFamily existing epoch)))
      ∧ (Knows w (.claim existing) → Sound w (next cfg w (.claim existing))) := by
  refine ⟨?_, ?_, ?_⟩
  · intro hrow
    simp only [next]
    split
    next hnone =>
      refine sound_then hw ⟨hrow, fun _ => ?_⟩
      -- no epoch, no dead family
      rintro ⟨t, -, -, epoch, he, -⟩
      rw [hnone] at he
      cases he
    next epoch he => exact sound_then hw ⟨hrow, fun _ => he⟩
  · rintro epoch ⟨hrow, hepoch⟩
    simp only [next]
    split
    next => exact sound_then hw trivial
    next hstarted =>
      exact sound_then hw ⟨hrow, fun hlive => alive_of_started (hepoch hlive) hstarted⟩
  · intro h
    simp only [next]
    split
    next hlive =>
      have hquiet : Quiet w (w.revokeByToken existing.token) := quiet_stamp w _ _
      refine sound_quiet hw hquiet ?_
      rintro t ⟨⟩
      exact (carried_claim hw h hlive).stable hquiet.evolves
    next => exact sound_last hw

/-- The issue, where nothing came between the check and it. -/
theorem sound_insert {w : World} (hw : SessionInv w) (cfg : AuthConfig) {ticket : Ticket} {iat : ℤ}
    (h : Knows w (.insert ticket iat)) (hcalm : Calm w (.insert ticket iat)) :
    Sound w (next cfg w (.insert ticket iat)) := by
  obtain ⟨hticket, hiat⟩ := h
  refine ⟨sessionInv_issue cfg hw hiat ?_ ?_, evolves_issue cfg w _ _ _ _ _, knows_over _⟩
  · rcases hticket with ⟨hsource, hsince⟩ | ⟨f, hfamily, hcarried⟩
    · exact .inl (hsince.trans (hcalm hsource))
    · rcases hcarried.checked with heq | hdead
      · exact .inl heq
      -- the epoch is no longer the one that was read, but then the family is dead already
      · exact .inr ⟨f, hfamily, hdead⟩
  · intro hlate
    have hsame : ticket.since = w.revocations ticket.claims.sub := by simpa using hlate
    rcases hticket with ⟨-, hsince⟩ | ⟨f, -, hcarried⟩
    · exact hsince.trans hsame
    · exact hcarried.since_eq.trans hsame

/-- An access token that is not stale was checked after every revocation. -/
theorem sound_checkAccess {w : World} (hw : SessionInv w) (cfg : AuthConfig) {access : AccessToken}
    {restaurantId : Uuid} {presented : Option Uuid} (hissued : access ∈ w.issued)
    (hlate : access.late = false) :
    Sound w (next cfg w (.checkAccess access restaurantId presented)) := by
  simp only [next]
  split
  next => exact sound_last hw
  next hstale => exact sound_then hw (hw.access_checked access hissued hlate (by simpa using hstale))

/-- The statements of `selectRestaurant` after its check of the access token. -/
theorem sound_select {w : World} (hw : SessionInv w) (cfg : AuthConfig) :
    (∀ access restaurantId presented since, access.checkedAfter = since →
        Sound w (next cfg w (.readMembership access restaurantId presented since)))
      ∧ (∀ ticket presented, ticket.source ≠ .refresh ∧ ticket.checkedAfter = ticket.since →
          Sound w (next cfg w (.findCookie ticket presented)))
      ∧ ∀ ticket existing, ticket.source ≠ .refresh ∧ ticket.checkedAfter = ticket.since →
          Sound w (next cfg w (.consumeCookie ticket existing)) := by
  refine ⟨?_, ?_, ?_⟩
  · intro access restaurantId presented since hsince
    simp only [next]
    split
    next => exact sound_last hw
    next m _ =>
      cases presented with
      | some p => exact sound_then hw ⟨by simp, hsince⟩
      | none => exact sound_then hw (.inl ⟨by simp, hsince⟩)
  · intro ticket presented hticket
    simp only [next]
    split
    next existing _ =>
      split
      next => exact sound_then hw (.inl hticket)
      next => exact sound_then hw hticket
    next => exact sound_then hw (.inl hticket)
  · intro ticket existing hticket
    refine sound_quiet hw (quiet_stamp w _ _) ?_
    rintro t ⟨⟩
    exact .inl hticket

/-- **Every statement that is not overtaken is sound.** -/
theorem sound_next {w : World} {t : Task} (hw : SessionInv w) (cfg : AuthConfig) (h : Knows w t)
    (hcalm : Calm w t) : Sound w (next cfg w t) := by
  cases t with
  | readUser email password =>
      simp only [next]
      -- a revoked token turns into the sweep of its family, an expired one is refused
      split
      next => exact sound_then hw trivial
      next => exact sound_then hw trivial
  | comparePassword user password since =>
      cases user with
      | none => exact sound_last hw
      | some u =>
          simp only [next]
          split
          next => exact sound_then hw trivial
          next => exact sound_last hw
  | loginClaims u since => exact sound_then hw (.inl ⟨by simp, rfl⟩)
  | findToken presented =>
      simp only [next]
      split
      next => exact sound_last hw
      next existing hfind =>
        split
        next => exact sound_then hw trivial
        next =>
          split
          next => exact sound_last hw
          next => exact sound_then hw (row_of_findToken hw.tokenKeys hfind)
  | readEpoch existing => exact (sound_rotate hw cfg).1 h
  | readFamily existing epoch => exact (sound_rotate hw cfg).2.1 epoch h
  | claim existing => exact (sound_rotate hw cfg).2.2 h
  | readActive existing since =>
      simp only [next]
      split
      next u hu =>
        split
        next =>
          -- the account is that of the token, so the ticket carries the family on
          have hid : u.id = existing.userId := by simpa using List.find?_some hu
          exact sound_then hw ⟨hid, h⟩
        next => exact sound_then hw trivial
      next => exact sound_then hw trivial
  | refreshClaims u existing since =>
      refine sound_then hw (.inr ⟨existing.familyId, rfl, ?_⟩)
      show w.Carried (buildClaims w.directory u.id u.email).sub _ _ _
      rw [buildClaims_sub, h.1]
      exact h.2
  | revokeFamily familyId => exact sound_quiet hw (quiet_stamp w _ _) (knows_over _)
  | checkAccess access restaurantId presented => exact sound_checkAccess hw cfg h hcalm
  | readMembership access restaurantId presented since =>
      exact (sound_select hw cfg).1 access restaurantId presented since h
  | findCookie ticket presented => exact (sound_select hw cfg).2.1 ticket presented h
  | consumeCookie ticket existing => exact (sound_select hw cfg).2.2 ticket existing h
  | sign ticket =>
      exact sound_then hw ⟨h, second_ne_zero hw.clock⟩
  | insert ticket iat => exact sound_insert hw cfg h hcalm
  | logout presented => exact sound_quiet hw (quiet_stamp w _ _) (knows_over _)
  | readClock userId => exact sound_then hw (le_refl w.now)
  | sweep userId at_ =>
      simp only [next]
      split
      next huser => exact sound_then hw ⟨h, huser⟩
      next => exact sound_last hw
  | revokeAll userId at_ swept =>
      exact ⟨sessionInv_revokeAll hw hcalm h.2 h.1, evolves_revokeAll hcalm h.2, knows_over _⟩
  | findReset token passwordHash =>
      simp only [next]
      split
      next => exact sound_last hw
      next record _ =>
        split
        next => exact sound_last hw
        next => exact sound_then hw trivial
  | claimReset record passwordHash =>
      simp only [next]
      split
      next =>
        refine sound_quiet hw (quiet_resetPassword w record passwordHash) ?_
        rintro t ⟨⟩
        trivial
      next => exact sound_last hw

/-- The epoch that a rotation has looked at stands while its token is live: what moves it
has seen the token. -/
theorem epoch_stands (cfg : AuthConfig) {w : World} {t u : Task} (hseen : SeesRotations w t u)
    {existing : RefreshToken} (hu : existing ∈ rotating u)
    (hlive : (next cfg w t).1.live existing.token = true) :
    (next cfg w t).1.epochOf existing.userId = w.epochOf existing.userId := by
  cases t with
  | insert ticket iat => rfl
  | revokeAll userId at_ swept =>
      refine epochOf_revokeAll_other w at_ swept ?_
      intro huser
      obtain ⟨hbefore, hnot⟩ := revokeAll_live hlive
      exact hnot (hseen existing hu huser hbefore)
  | _ => exact (next_quiet cfg w (by simp) (by simp)).epoch _

/-- **Interference freedom**: every calm statement keeps the invariant and what the
other requests rely on. -/
theorem signOut_interferenceFree (cfg : AuthConfig) :
    (authService cfg).InterferenceFree Calm SeesRotations SessionInv Knows where
  receive w r t _ hreceive := by
    cases receive_task hreceive with
    | select hissued => exact hissued
    | _ => trivial
  next w t hw h hcalm := by
    obtain ⟨hw', -, hknows⟩ := sound_next hw cfg h hcalm
    exact ⟨hw', hknows⟩
  others w t u hw h hcalm hseen hother := by
    obtain ⟨-, hevolves, -⟩ := sound_next hw cfg h hcalm
    exact knows_stable hw hevolves (fun _ => epoch_stands cfg hseen) hother
  env w elapsed hw := by
    have hquiet := quiet_tick w elapsed
    refine ⟨hquiet.sessionInv hw, fun u hother => ?_⟩
    exact knows_stable hw hquiet.evolves (fun _ _ _ => hquiet.epoch _) hother

/-! ## §3. Sign-out everywhere. -/

/-- **Sign-out everywhere is final** while no statement is overtaken and every sweep has
seen the tokens that are being rotated: a refresh token that `rotate` is about to
accept goes back to a password check made after every revocation of its user. -/
theorem signed_out_for_good (cfg : AuthConfig) {c : InFlight World Task}
    (h : ((sessions cfg).restrict (Service.Beside Calm SeesRotations)).Reachable c) {i : ℕ}
    {existing : RefreshToken} (hi : c.running i = some (.claim existing))
    (hlive : c.shared.live existing.token = true) :
    existing.checkedAfter = c.shared.revocations existing.userId := by
  obtain ⟨hw, hknows⟩ := Service.interference_free (signOut_interferenceFree cfg)
    (fun _ => World.Opening.sessionInv) h
  exact accepted_checked hw (hknows i _ hi) hlive

/-! ## §4. A login that outlives a revocation. -/

/-- bcrypt, as far as one password and its hash go. -/
def demoConfig : AuthConfig where
  refreshTokenTtlDays := 7
  jwtAccessTtlSeconds := 900
  compare password hash := decide (hash = "bcrypt:" ++ password)

/-- One user, signed in nowhere. -/
def oneUser : World where
  directory := ⟨[], [], [], by decide, by decide⟩
  users := [⟨1, "asha@example.com", "bcrypt:momo", true, none⟩]
  refreshTokens := []
  resetTokens := []
  now := 1000000
  fresh := 100
  issued := []
  revocations _ := 0

theorem oneUser_opening : oneUser.Opening where
  tokens_fresh := nofun
  tokens_nodup := List.nodup_nil
  created := nofun
  epoch_past u epoch he := by
    obtain ⟨x, hx, hepoch⟩ := Option.bind_eq_some_iff.mp he
    have hmem : x ∈ oneUser.users := List.mem_of_find?_eq_some hx
    rw [List.mem_singleton.mp hmem] at hepoch
    cases hepoch
  iat_ne := nofun
  clock := by decide
  revocations _ := rfl
  tokens_counted := nofun
  issued_counted := nofun

/-- No request in flight. -/
def nobody : InFlight World Task := ⟨oneUser, fun _ => none⟩

theorem nobody_init : (sessions demoConfig).init nobody := ⟨oneUser_opening, fun _ => rfl⟩

/-- The user's login. -/
def signIn : Request := .login "asha@example.com" "momo"

/-- The password is checked, everything is revoked, the session is issued, and then
renewed up to the claim. -/
def overtakenLogin : List (ServiceEvent Request ℕ) :=
  [.begin 0 signIn, .run 0, .run 0, .run 0, .run 0,
    .begin 1 (.logoutAll 1), .env 5, .run 1, .run 1, .run 1,
    .env 5, .run 0, .begin 2 (.refresh 100), .run 2, .run 2, .run 2]

/-- The accepted token goes back to a password check before the revocation. -/
theorem login_outlives_revocation :
    ∃ c, (sessions demoConfig).Reachable c ∧ ∃ existing, c.running 2 = some (.claim existing)
      ∧ c.shared.live existing.token = true
      ∧ existing.checkedAfter < c.shared.revocations existing.userId := by
  refine ⟨_, System.replay_reachable (f := (authService demoConfig).act) (fun _ _ _ h => h)
    overtakenLogin nobody nobody_init rfl, _, rfl, rfl, ?_⟩
  decide

instance (w : World) (userId : Uuid) (at_ : Instant) : Decidable (w.Undisturbed userId at_) :=
  decidable_of_iff
    ((∀ t ∈ w.refreshTokens, t.userId = userId →
        ∃ t₀ ∈ w.refreshTokens, t₀.familyId = t.familyId ∧ t₀.createdAt < at_)
      ∧ ∀ a ∈ w.issued, a.claims.sub = userId → a.iat * 1000 < at_)
    ⟨fun h => ⟨h.1, h.2⟩, fun h => ⟨h.families, h.access⟩⟩

instance (w : World) (t : Task) : Decidable (Calm w t) := by
  unfold Calm
  split <;> infer_instance

instance (w : World) (t u : Task) : Decidable (SeesRotations w t u) := by
  unfold SeesRotations
  split <;> infer_instance

/-- Signed in, and signed out everywhere while the session is being renewed: the new
token comes between the sweep and its commit, and is refused.  Then signed in again,
and renewed up to the claim. -/
def signedInAgain : List (ServiceEvent Request ℕ) :=
  [.begin 0 signIn, .run 0, .run 0, .run 0, .run 0, .run 0, .env 1500,
    .begin 3 (.refresh 100), .run 3, .run 3, .run 3, .run 3, .run 3, .run 3,
    .env 700, .begin 1 (.logoutAll 1), .run 1, .run 1, .run 3, .run 1, .env 1500,
    .begin 4 (.refresh 102), .run 4, .run 4, .run 4, .run 4, .env 1500,
    .begin 0 signIn, .run 0, .run 0, .run 0, .run 0, .run 0,
    .begin 2 (.refresh 104), .run 2, .run 2, .run 2]

/-- The old family is dead to the last token, and the new one goes back to a check after
the revocation. -/
theorem signed_out_for_good_again :
    ∃ (c : InFlight World Task) (existing : RefreshToken), c.running 2 = some (.claim existing)
      ∧ (c.shared.refreshTokens.map fun t => (t.token, t.familyId, t.revokedAt.isSome))
        = [(100, 101, true), (102, 101, true), (104, 105, false)]
      ∧ existing.checkedAfter = 1 ∧ existing.checkedAfter = c.shared.revocations existing.userId :=
  ⟨_, _, rfl, rfl, rfl, signed_out_for_good demoConfig (Service.replayed_beside (n := 5)
    (C := Calm) (B := SeesRotations) signedInAgain nobody nobody_init rfl) (i := 2) rfl rfl⟩

end OraOS.Auth
