/-
  OraOS.Auth.Bystanders — a session that nobody else knows of.

  Requests of others that present none of a family's tokens, and sign its user out
  nowhere, with their statements in any order:

    * `spares_next`  — none of their statements touches the session;
    * `offFamily_next` — what they go on with does not either;
    * `mine_next`    — a refresh with the session's live cookie ends with the next
                       token, or with a session that had run out.
-/
import OraOS.Auth.OneLive

namespace OraOS.Auth

open OraOS.Api
open OraOS.Lib

variable (cfg : AuthConfig)

/-! ## §1. A session nobody else knows of. -/

/-- A token that is in the table, or was, and not of the family. -/
structure World.Elsewhere (w : World) (familyId token : Uuid) : Prop where
  lt : token < w.fresh
  other : ∀ t ∈ w.refreshTokens, t.token = token → t.familyId ≠ familyId

/-- A request of somebody who has none of the family's tokens, and does not sign its
user out everywhere. -/
def Stranger (familyId userId : Uuid) (w : World) : Request → Prop
  | .login _ _ => True
  | .refresh presented => w.Elsewhere familyId presented
  | .selectRestaurant _ _ presentedRefresh => ∀ p ∈ presentedRefresh, w.Elsewhere familyId p
  | .logout presented => w.Elsewhere familyId presented
  | .logoutAll u => u ≠ userId
  | .resetPassword token _ => ∀ r ∈ w.resetTokens, r.token = token → r.userId ≠ userId

/-- What such a request is about to touch. -/
def OffFamily (familyId userId : Uuid) (w : World) (t : Task) : Prop :=
  holds t ≠ some familyId ∧
    match t with
    | .findToken presented => w.Elsewhere familyId presented
    | .readEpoch existing => w.Elsewhere familyId existing.token
    | .readFamily existing _ => w.Elsewhere familyId existing.token
    | .claim existing => w.Elsewhere familyId existing.token
    | .checkAccess _ _ presentedRefresh => ∀ p ∈ presentedRefresh, w.Elsewhere familyId p
    | .readMembership _ _ presentedRefresh _ => ∀ p ∈ presentedRefresh, w.Elsewhere familyId p
    | .findCookie _ presented => w.Elsewhere familyId presented
    | .consumeCookie _ existing => w.Elsewhere familyId existing.token
    | .logout presented => w.Elsewhere familyId presented
    | .readClock u => u ≠ userId
    | .sweep u _ => u ≠ userId
    | .revokeAll u _ swept => u ≠ userId ∧ ∀ x ∈ swept, w.Elsewhere familyId x
    | .findReset token _ => ∀ r ∈ w.resetTokens, r.token = token → r.userId ≠ userId
    | .claimReset record _ => record.userId ≠ userId
    | _ => True

/-- What the session needs of the tables. -/
structure SessionOf (familyId userId : Uuid) (w : World) : Prop where
  keys : TokenKeys w
  family_lt : familyId < w.fresh
  owner : ∀ t ∈ w.refreshTokens, t.familyId = familyId → t.userId = userId
  /-- the user has not signed out everywhere since the session began -/
  younger : ¬ w.FamilyDead userId familyId
  epoch_past : ∀ epoch, w.epochOf userId = some epoch → epoch ≤ w.now
  active : ∃ u, w.findUser userId = some u ∧ u.isActive = true

/-- The session's tokens. -/
def World.rowsOf (w : World) (familyId : Uuid) : List RefreshToken :=
  w.refreshTokens.filter fun t => decide (t.familyId = familyId)

/-- A statement that leaves the session alone. -/
structure Spares (familyId userId : Uuid) (w w' : World) : Prop where
  rows : w'.rowsOf familyId = w.rowsOf familyId
  epoch : w'.epochOf userId = w.epochOf userId
  active : (∃ u, w.findUser userId = some u ∧ u.isActive = true) →
    ∃ u, w'.findUser userId = some u ∧ u.isActive = true

/-- What any statement leaves of what others rely on. -/
structure Onward (w w' : World) : Prop extends Grown w w' where
  now : w.now ≤ w'.now
  links : ∀ r' ∈ w'.resetTokens, ∃ r ∈ w.resetTokens, r.token = r'.token ∧ r.userId = r'.userId

section

variable {w w' : World} {familyId userId : Uuid}

theorem mem_rowsOf {t : RefreshToken} :
    t ∈ w.rowsOf familyId ↔ t ∈ w.refreshTokens ∧ t.familyId = familyId := by
  unfold World.rowsOf
  rw [List.mem_filter, decide_eq_true_eq]

/-- A statement that spares a family leaves its rows as they are. -/
theorem Spares.mem (h : Spares familyId userId w w') {t : RefreshToken}
    (hfamily : t.familyId = familyId) : t ∈ w'.refreshTokens ↔ t ∈ w.refreshTokens := by
  have hrows : t ∈ w'.rowsOf familyId ↔ t ∈ w.rowsOf familyId := by rw [h.rows]
  simpa only [mem_rowsOf, hfamily, and_true] using hrows

/-- A token of another family stays one. -/
theorem World.Elsewhere.onward {token : Uuid} (h : w.Elsewhere familyId token)
    (hon : Onward w w') : w'.Elsewhere familyId token where
  lt := lt_of_lt_of_le h.lt hon.fresh
  other t' ht' htoken := by
    rcases hon.origin t' ht' with ⟨t, ht, hb⟩ | hnew
    · rw [hb.familyId]
      exact h.other t ht (hb.token.symm.trans htoken)
    · -- a token to come is not one that was presented
      rw [htoken] at hnew
      exact absurd h.lt (not_lt.mpr hnew)

/-- What is outside stays outside. -/
theorem offFamily_onward {t : Task} (hon : Onward w w') (h : OffFamily familyId userId w t) :
    OffFamily familyId userId w' t := by
  obtain ⟨hholds, h⟩ := h
  refine ⟨hholds, ?_⟩
  cases t with
  | findToken | readEpoch | readFamily | claim | findCookie | consumeCookie | logout =>
      exact World.Elsewhere.onward h hon
  | checkAccess | readMembership => exact fun p hp => (h p hp).onward hon
  | revokeAll => exact ⟨h.1, fun x hx => (h.2 x hx).onward hon⟩
  -- every link of now is one of before, of the same user
  | findReset token =>
      intro r' hr' htoken
      obtain ⟨r, hr, heq, huser⟩ := hon.links r' hr'
      rw [← huser]
      exact h r hr (heq.trans htoken)
  | readClock | sweep | claimReset => exact h
  | _ => trivial

/-- A stranger's request begins off the family. -/
theorem offFamily_receive {r : Request} {t : Task} (h : Stranger familyId userId w r)
    (hr : receive cfg w r = some t) : OffFamily familyId userId w t := by
  refine ⟨?_, ?_⟩
  · rw [holds_receive hr]
    exact nofun
  · cases receive_task hr with
    | login => trivial
    | refresh | logout | logoutAll | reset => exact h
    | select => exact h

/-! ## §2. What a statement of somebody else leaves. -/

/-- Revoking leaves tokens told apart. -/
theorem TokenKeys.revoked (hw : TokenKeys w) {f : RefreshToken → RefreshToken}
    (hf : ∀ t : RefreshToken, t.Becomes (f t)) (htokens : w'.refreshTokens = w.refreshTokens.map f)
    (hfresh : w'.fresh = w.fresh) : TokenKeys w' where
  fresh x' hx' := by
    rw [htokens] at hx'
    obtain ⟨x, hx, rfl⟩ := List.mem_map.mp hx'
    rw [(hf x).token, hfresh]
    exact hw.fresh x hx
  nodup := by
    have hsame : w'.refreshTokens.map (·.token) = w.refreshTokens.map (·.token) := by
      rw [htokens, List.map_map]
      exact List.map_congr_left fun x _ => (hf x).token
    rw [hsame]
    exact hw.nodup

theorem TokenKeys.issued (hw : TokenKeys w) (claims : Claims) (f : Option Uuid) (iat : ℤ)
    (checkedAfter : ℕ) (late : Bool) :
    TokenKeys (w.issue cfg claims f iat checkedAfter late) where
  fresh x hx := by
    rcases List.mem_append.mp hx with hold | hnew
    · exact Nat.lt_add_right 2 (hw.fresh x hold)
    · rw [List.mem_singleton.mp hnew]
      exact Nat.lt_add_of_pos_right (Nat.succ_pos 1)
  nodup := nodup_keys_append hw.nodup fun x hx => (hw.fresh x hx).ne

theorem tokenKeys_next (hw : TokenKeys w) (t : Task) : TokenKeys (next cfg w t).1 := by
  have hstep := next_tokenStep cfg w t
  generalize (next cfg w t).1 = w' at hstep ⊢
  cases hstep with
  | revoked _ f hf htokens hfresh => exact hw.revoked hf htokens hfresh
  | issued late => exact hw.issued cfg _ _ _ _ late

theorem resetPassword_links (w : World) (record : PasswordResetToken) (passwordHash : String) :
    ∀ r' ∈ (w.resetPassword record passwordHash).resetTokens,
      ∃ r ∈ w.resetTokens, r.token = r'.token ∧ r.userId = r'.userId := by
  intro r' hr'
  obtain ⟨r, hr, rfl⟩ := List.mem_map.mp hr'
  refine ⟨r, hr, ?_⟩
  split
  · exact ⟨rfl, rfl⟩
  · exact ⟨rfl, rfl⟩

/-- Clock and links after a statement. -/
theorem next_clock_links (cfg : AuthConfig) (w : World) (t : Task) :
    (next cfg w t).1.now = w.now ∧ ∀ r' ∈ (next cfg w t).1.resetTokens,
      ∃ r ∈ w.resetTokens, r.token = r'.token ∧ r.userId = r'.userId := by
  have hsame : ∀ r ∈ w.resetTokens,
      ∃ r₀ ∈ w.resetTokens, r₀.token = r.token ∧ r₀.userId = r.userId :=
    fun r hr => ⟨r, hr, rfl, rfl⟩
  cases t with
  | insert | revokeAll | revokeFamily | consumeCookie | logout => exact ⟨rfl, hsame⟩
  | claim existing =>
      simp only [next]
      split
      · exact ⟨rfl, hsame⟩
      · exact ⟨rfl, hsame⟩
  -- a link that is spent keeps its token and its user
  | claimReset record passwordHash =>
      simp only [next]
      split
      · exact ⟨rfl, resetPassword_links w record passwordHash⟩
      · exact ⟨rfl, hsame⟩
  | _ =>
      rw [next_reads]
      · exact ⟨rfl, hsame⟩
      · trivial

/-- Every statement leaves what there was. -/
theorem onward_next (cfg : AuthConfig) (w : World) (t : Task) : Onward w (next cfg w t).1 where
  toGrown := (next_tokenStep cfg w t).grown
  now := (next_clock_links cfg w t).1.ge
  links := (next_clock_links cfg w t).2

theorem onward_tick (w : World) (elapsed : ℕ) : Onward w (tick w elapsed) where
  toGrown := (quiet_tick w elapsed).evolves.grown
  now := (quiet_tick w elapsed).now
  links r hr := ⟨r, hr, rfl, rfl⟩

theorem Spares.refl (familyId userId : Uuid) (w : World) : Spares familyId userId w w :=
  ⟨rfl, rfl, id⟩

/-- Rows that are all left alone are the rows there were. -/
theorem rowsOf_map {f : RefreshToken → RefreshToken} (hf : ∀ t : RefreshToken, t.Becomes (f t))
    (hsame : ∀ t ∈ w.refreshTokens, t.familyId = familyId → f t = t) :
    (w.refreshTokens.map f).filter (fun t => decide (t.familyId = familyId))
      = w.rowsOf familyId := by
  -- a token keeps its family
  have hpred : (fun t : RefreshToken => decide (t.familyId = familyId)) ∘ f
      = fun t => decide (t.familyId = familyId) := by
    funext t
    show decide ((f t).familyId = familyId) = _
    rw [(hf t).familyId]
  rw [List.filter_map, hpred]
  refine (List.map_congr_left fun t ht => ?_).trans (List.map_id _)
  obtain ⟨hmem, hfamily⟩ := mem_rowsOf.mp ht
  exact hsame t hmem hfamily

/-- Revoking spares the families it does not pick. -/
theorem spares_stamp {p : RefreshToken → Bool} {at_ : Instant}
    (hp : ∀ t ∈ w.refreshTokens, t.familyId = familyId → p t = false) :
    Spares familyId userId w (w.stamp p at_) where
  rows := by
    refine rowsOf_map ?_ ?_
    · intro t
      by_cases h : p t = true
      · rw [if_pos h]
        exact ⟨rfl, rfl, rfl, rfl, rfl, nofun⟩
      · rw [if_neg h]
        exact .refl t
    · intro t ht hfamily
      rw [hp t ht hfamily]
      exact if_neg Bool.false_ne_true
  epoch := rfl
  active := id

/-- An issue spares every family but its own. -/
theorem spares_issue (cfg : AuthConfig) (hlt : familyId < w.fresh) (claims : Claims)
    {f : Option Uuid} (hf : f ≠ some familyId) (iat : ℤ) (checkedAfter : ℕ) (late : Bool) :
    Spares familyId userId w (w.issue cfg claims f iat checkedAfter late) where
  rows := by
    unfold World.rowsOf World.issue
    rw [List.filter_append]
    -- the new token is of another family, or of one that is new itself
    have hnew : ¬ f.getD (w.fresh + 1) = familyId := by
      cases f with
      | none =>
          intro heq
          have hfresh : w.fresh + 1 = familyId := heq
          rw [← hfresh] at hlt
          exact absurd (Nat.lt_succ_self w.fresh) (not_lt.mpr hlt.le)
      | some g => exact fun heq => hf (congrArg some heq)
    simp [hnew]
  epoch := rfl
  active := id

/-- A revocation spares the families of other users. -/
theorem spares_revokeAll {u : Uuid} (hu : u ≠ userId) {swept : List Uuid} (at_ : Instant)
    (hswept : ∀ x ∈ swept, w.Elsewhere familyId x) :
    Spares familyId userId w (w.revokeAll u at_ swept) where
  rows := by
    have hspares : Spares familyId userId w
        (w.stamp (fun t => decide (t.token ∈ swept)) at_) := by
      refine spares_stamp fun t ht hfamily => decide_eq_false fun hin => ?_
      exact (hswept t.token hin).other t ht rfl hfamily
    exact hspares.rows
  epoch := epochOf_revokeAll_other w at_ swept hu.symm
  active := by
    rintro ⟨x, hx, hactive⟩
    rw [findUser_revokeAll, hx]
    refine ⟨_, rfl, ?_⟩
    show (if x.id = u then _ else x : UserRow).isActive = true
    split
    · exact hactive
    · exact hactive

theorem spares_resetPassword {record : PasswordResetToken} (passwordHash : String) :
    Spares familyId userId w (w.resetPassword record passwordHash) where
  rows := rfl
  epoch := (quiet_resetPassword w record passwordHash).epoch userId
  active := by
    rintro ⟨x, hx, hactive⟩
    rw [findUser_resetPassword, hx]
    refine ⟨_, rfl, ?_⟩
    show (if x.id = record.userId then _ else x : UserRow).isActive = true
    split
    · exact hactive
    · exact hactive

/-- **Whatever an outsider's statement does**, it does not do to the session. -/
theorem spares_next {t : Task} (hs : SessionOf familyId userId w)
    (h : OffFamily familyId userId w t) : Spares familyId userId w (next cfg w t).1 := by
  obtain ⟨hholds, h⟩ := h
  cases t with
  | insert ticket iat => exact spares_issue cfg hs.family_lt _ hholds _ _ _
  | revokeAll u at_ swept => exact spares_revokeAll h.1 at_ h.2
  -- every stamp is on the rows the call presented, and those are elsewhere
  | claim existing =>
      simp only [next]
      split
      · refine spares_stamp ?_
        intro t ht hfamily
        refine Bool.and_eq_false_iff.mpr (.inl (decide_eq_false fun htoken => ?_))
        exact h.other t ht htoken hfamily
      · exact .refl familyId userId w
  | revokeFamily f =>
      refine spares_stamp ?_
      intro t ht hfamily
      refine Bool.and_eq_false_iff.mpr (.inl (decide_eq_false fun heq => ?_))
      exact hholds (congrArg some (heq.symm.trans hfamily))
  | consumeCookie ticket existing =>
      refine spares_stamp ?_
      intro t ht hfamily
      exact decide_eq_false fun htoken => h.other t ht htoken hfamily
  | logout presented =>
      refine spares_stamp ?_
      intro t ht hfamily
      refine Bool.and_eq_false_iff.mpr (.inl (decide_eq_false fun htoken => ?_))
      exact h.other t ht htoken hfamily
  | claimReset record passwordHash =>
      simp only [next]
      split
      · exact spares_resetPassword passwordHash
      · exact .refl familyId userId w
  | _ =>
      rw [next_reads]
      · exact .refl familyId userId w
      · trivial

/-- An outsider stays one. -/
theorem offFamily_next {t t' : Task} (hs : SessionOf familyId userId w)
    (h : OffFamily familyId userId w t) (hnext : (next cfg w t).2 = some t') :
    OffFamily familyId userId (next cfg w t).1 t' := by
  refine offFamily_onward (onward_next cfg w t) ?_
  obtain ⟨hholds, h⟩ := h
  -- the token that was found is the one that was presented
  have hfound : ∀ {presented : Uuid} {existing : RefreshToken},
      w.findToken presented = some existing → w.Elsewhere familyId presented →
      w.Elsewhere familyId existing.token ∧ existing.familyId ≠ familyId := by
    intro presented existing hfind helse
    have htoken : existing.token = presented := by simpa using List.find?_some hfind
    rw [htoken]
    exact ⟨helse, helse.other existing (List.mem_of_find?_eq_some hfind) htoken⟩
  have hne : ∀ {f : Uuid}, f ≠ familyId → some f ≠ some familyId :=
    fun hf heq => hf (Option.some.inj heq)
  cases next_task hnext with
  | replayed hfind => exact ⟨hne (hfound hfind h).2, trivial⟩
  | presented hfind => exact ⟨hne (hfound hfind h).2, (hfound hfind h).1⟩
  | cookie hfind => exact ⟨hne (hfound hfind h).2, (hfound hfind h).1⟩
  | neverRevoked | revokedOnce | youngerFamily => exact ⟨hholds, h⟩
  | olderFamily | claimed | active | inactive | refreshed => exact ⟨hholds, trivial⟩
  | consumed | spentCookie | signed => exact ⟨hholds, trivial⟩
  | access => exact ⟨nofun, h⟩
  | memberWithCookie => exact ⟨nofun, h _ rfl⟩
  | clock => exact ⟨nofun, h⟩
  | @swept u =>
      refine ⟨nofun, h, ?_⟩
      intro x hx
      obtain ⟨t, ht, rfl⟩ := List.mem_map.mp hx
      obtain ⟨hmem, hcond⟩ := List.mem_filter.mp ht
      have huser : t.userId = u := of_decide_eq_true (Bool.and_eq_true_iff.mp hcond).1
      refine ⟨hs.keys.fresh t hmem, ?_⟩
      intro t' ht' htoken hfamily
      -- the session's tokens are its user's
      have hsame : t' = t := List.inj_on_of_nodup_map hs.keys.nodup ht' hmem htoken
      subst hsame
      exact h (huser.symm.trans (hs.owner t' hmem hfamily))
  | link hfind =>
      have hmem := List.mem_of_find?_eq_some hfind
      have htoken := List.find?_some hfind
      exact ⟨nofun, h _ hmem (by simpa using htoken)⟩
  | reset => exact ⟨nofun, h⟩
  | _ => exact ⟨nofun, trivial⟩

/-- A session that was spared is as it was. -/
theorem SessionOf.spared (h : SessionOf familyId userId w) (hs : Spares familyId userId w w')
    (hon : Onward w w') (hkeys : TokenKeys w') : SessionOf familyId userId w' where
  keys := hkeys
  family_lt := lt_of_lt_of_le h.family_lt hon.fresh
  owner t ht hfamily := h.owner t ((hs.mem hfamily).mp ht) hfamily
  younger := by
    rintro ⟨t, ht, hfamily, epoch, hepoch, hlt⟩
    rw [hs.epoch] at hepoch
    exact h.younger ⟨t, (hs.mem hfamily).mp ht, hfamily, epoch, hepoch, hlt⟩
  epoch_past epoch hepoch := by
    rw [hs.epoch] at hepoch
    exact (h.epoch_past epoch hepoch).trans hon.now
  active := hs.active h.active

/-! ## §3. What its own refresh does. -/

/-- The token is the session's, and not revoked. -/
def World.LiveIn (w : World) (familyId token : Uuid) : Prop :=
  ∃ t ∈ w.refreshTokens, t.token = token ∧ t.familyId = familyId ∧ t.revokedAt = none

/-- The row that was read for the cookie, as it still is. -/
structure World.CookieRow (w : World) (familyId cookie : Uuid) (existing : RefreshToken) :
    Prop where
  mem : existing ∈ w.refreshTokens
  token : existing.token = cookie
  family : existing.familyId = familyId
  live : existing.revokedAt = none

/-- The session has run out with this cookie: nobody revoked it, and its time is up. -/
def World.RanOut (w : World) (familyId cookie : Uuid) : Prop :=
  ∃ existing, w.CookieRow familyId cookie existing ∧ existing.expiresAt < w.now

/-- `respondWithTokens` after the last statement of `refresh`; any failure clears the
cookie. -/
def answerOf (w : World) : Task → Option Uuid
  | .insert _ _ => some w.fresh
  | _ => none

/-- What the refresh of the page knows, statement by statement. -/
def Mine (familyId userId : Uuid) (w : World) (cookie : Uuid) : Task → Prop
  | .findToken presented => presented = cookie ∧ w.LiveIn familyId cookie
  | .readEpoch existing => w.CookieRow familyId cookie existing
  | .readFamily existing epoch => w.CookieRow familyId cookie existing
      ∧ w.epochOf userId = some epoch
  | .claim existing => w.CookieRow familyId cookie existing
  | .readActive existing _ => existing.familyId = familyId ∧ existing.userId = userId
  | .refreshClaims u existing _ => existing.familyId = familyId ∧ u.id = userId
  | .sign ticket => ticket.familyId = some familyId ∧ ticket.claims.sub = userId
  | .insert ticket _ => ticket.familyId = some familyId ∧ ticket.claims.sub = userId
  | _ => False

/-- A live cookie stays live. -/
theorem World.LiveIn.spared {token : Uuid} (h : w.LiveIn familyId token)
    (hs : Spares familyId userId w w') : w'.LiveIn familyId token := by
  obtain ⟨t, ht, htoken, hfamily, hlive⟩ := h
  exact ⟨t, (hs.mem hfamily).mpr ht, htoken, hfamily, hlive⟩

/-- The row of the cookie stays as it is. -/
theorem World.CookieRow.spared {cookie : Uuid} {existing : RefreshToken}
    (h : w.CookieRow familyId cookie existing) (hs : Spares familyId userId w w') :
    w'.CookieRow familyId cookie existing :=
  ⟨(hs.mem h.family).mpr h.mem, h.token, h.family, h.live⟩

/-- What has run out has run out for good. -/
theorem World.RanOut.spared {cookie : Uuid} (h : w.RanOut familyId cookie)
    (hs : Spares familyId userId w w') (hnow : w.now ≤ w'.now) : w'.RanOut familyId cookie := by
  obtain ⟨existing, hrow, hlt⟩ := h
  exact ⟨existing, hrow.spared hs, lt_of_lt_of_le hlt hnow⟩

/-- **What the page's own request relies on** stands while others spare its family. -/
theorem Mine.spared {cookie : Uuid} {t : Task} (h : Mine familyId userId w cookie t)
    (hs : Spares familyId userId w w') : Mine familyId userId w' cookie t := by
  cases t with
  | findToken => exact ⟨h.1, h.2.spared hs⟩
  | readEpoch | claim => exact World.CookieRow.spared h hs
  | readFamily => exact ⟨h.1.spared hs, hs.epoch.trans h.2⟩
  | readActive | refreshClaims | sign | insert => exact h
  | _ => exact h.elim

/-- Revoking tokens ends no session of itself. -/
theorem SessionOf.stamp (h : SessionOf familyId userId w) (p : RefreshToken → Bool)
    (at_ : Instant) : SessionOf familyId userId (w.stamp p at_) where
  keys := by
    obtain ⟨f, hf, htokens⟩ := (quiet_stamp w p at_).tokens
    exact h.keys.revoked hf htokens rfl
  family_lt := h.family_lt
  owner t' ht' hfamily := by
    obtain ⟨t, ht, hb⟩ := (quiet_stamp w p at_).token_before ht'
    rw [hb.userId]
    exact h.owner t ht (hb.familyId.symm.trans hfamily)
  younger := by
    rintro ⟨t', ht', hfamily, epoch, hepoch, hlt⟩
    obtain ⟨t, ht, hb⟩ := (quiet_stamp w p at_).token_before ht'
    rw [hb.createdAt] at hlt
    exact h.younger ⟨t, ht, hb.familyId.symm.trans hfamily, epoch, hepoch, hlt⟩
  epoch_past := h.epoch_past
  active := h.active

/-- The session goes on with its next token. -/
theorem SessionOf.issue (cfg : AuthConfig) (h : SessionOf familyId userId w) {claims : Claims}
    (hsub : claims.sub = userId) (iat : ℤ) (checkedAfter : ℕ) (late : Bool) :
    SessionOf familyId userId (w.issue cfg claims (some familyId) iat checkedAfter late) where
  keys := h.keys.issued cfg claims (some familyId) iat checkedAfter late
  family_lt := Nat.lt_add_right 2 h.family_lt
  owner t ht hfamily := by
    rcases List.mem_append.mp ht with hold | hnew
    · exact h.owner t hold hfamily
    · rw [List.mem_singleton.mp hnew]
      exact hsub
  younger := by
    rintro ⟨t, ht, hfamily, epoch, hepoch, hlt⟩
    rcases List.mem_append.mp ht with hold | hnew
    · exact h.younger ⟨t, hold, hfamily, epoch, hepoch, hlt⟩
    · -- issued now, and the epoch is in the past
      rw [List.mem_singleton.mp hnew] at hlt
      exact absurd (h.epoch_past epoch hepoch) (not_le.mpr hlt)
  epoch_past := h.epoch_past
  active := h.active

/-- The row of a live cookie is the one that is found for it. -/
theorem World.LiveIn.find (hkeys : TokenKeys w) {cookie : Uuid} (h : w.LiveIn familyId cookie)
    {existing : RefreshToken} (hfind : w.findToken cookie = some existing) :
    w.CookieRow familyId cookie existing := by
  obtain ⟨t, ht, htoken, hfamily, hlive⟩ := h
  have hmem := List.mem_of_find?_eq_some hfind
  have hsame : existing.token = cookie := by simpa using List.find?_some hfind
  have heq : existing = t :=
    List.inj_on_of_nodup_map hkeys.nodup hmem ht (hsame.trans htoken.symm)
  subst heq
  exact ⟨hmem, htoken, hfamily, hlive⟩

/-- The refresh goes on as it should, or it is done. -/
structure Served (cfg : AuthConfig) (familyId userId cookie : Uuid) (w : World) (t : Task) :
    Prop where
  session : SessionOf familyId userId (next cfg w t).1
  goes : ∀ t', (next cfg w t).2 = some t' → Mine familyId userId (next cfg w t).1 cookie t'
  done : (next cfg w t).2 = none →
    (answerOf w t = some w.fresh ∧ (next cfg w t).1.LiveIn familyId w.fresh)
      ∨ (answerOf w t = none ∧ (next cfg w t).1.RanOut familyId cookie)

/-- The family is not older than the epoch: the check of `rotate` passes. -/
theorem SessionOf.started (h : SessionOf familyId userId w) {epoch : Instant}
    (hepoch : w.epochOf userId = some epoch) :
    ((w.familyStart familyId).any fun startedAt => decide (startedAt < epoch)) = false := by
  cases hstart : w.familyStart familyId with
  | none => rfl
  | some startedAt =>
      refine decide_eq_false fun hlt => ?_
      obtain ⟨t, ht, hcreated⟩ := List.mem_map.mp (List.min?_mem hstart)
      obtain ⟨hmem, hfamily⟩ := mem_rowsOf.mp ht
      refine h.younger ⟨t, hmem, hfamily, epoch, hepoch, ?_⟩
      rw [hcreated]
      exact hlt

/-- A statement that only reads, and goes on. -/
theorem served_reads {cookie : Uuid} {t u : Task} (hs : SessionOf familyId userId w)
    (hnext : next cfg w t = (w, some u)) (h : Mine familyId userId w cookie u) :
    Served cfg familyId userId cookie w t := by
  refine ⟨?_, ?_, ?_⟩
  · rw [hnext]
    exact hs
  · rw [hnext]
    rintro t'' ⟨⟩
    exact h
  · rw [hnext]
    exact nofun

/-- **Every statement of the page's refresh** keeps the session, and the refresh ends
with the next token, or with a cookie that had run out. -/
theorem mine_next {cookie : Uuid} {t : Task} (hs : SessionOf familyId userId w)
    (h : Mine familyId userId w cookie t) : Served cfg familyId userId cookie w t := by
  cases t with
  | findToken presented =>
      obtain ⟨rfl, hlive⟩ := h
      cases hfind : w.findToken presented with
      | none =>
          -- the cookie is in the table
          obtain ⟨t, ht, htoken, -⟩ := hlive
          have hno := List.find?_eq_none.mp hfind t ht
          exact absurd (decide_eq_true htoken) hno
      | some existing =>
          have hrow := hlive.find hs.keys hfind
          have hnone : existing.revokedAt.isSome = false := by
            rw [hrow.live]
            rfl
          by_cases hexpires : existing.expiresAt < w.now
          · have hnext : next cfg w (.findToken presented) = (w, none) := by
              simp only [next, hfind, hnone, if_neg Bool.false_ne_true, if_pos hexpires]
            refine ⟨?_, ?_, ?_⟩
            · rw [hnext]
              exact hs
            · rw [hnext]
              intro t' ht'
              cases ht'
            · rw [hnext]
              exact fun _ => .inr ⟨rfl, existing, hrow, hexpires⟩
          · refine served_reads cfg (u := .readEpoch existing) hs ?_ hrow
            simp only [next, hfind, hnone, if_neg Bool.false_ne_true, if_neg hexpires]
  | readEpoch existing =>
      have huser : existing.userId = userId := hs.owner existing h.mem h.family
      cases hepoch : w.epochOf existing.userId with
      | none =>
          refine served_reads cfg (u := .claim existing) hs ?_ h
          simp only [next, hepoch]
      | some epoch =>
          refine served_reads cfg (u := .readFamily existing epoch) hs ?_ ⟨h, huser ▸ hepoch⟩
          simp only [next, hepoch]
  | readFamily existing epoch =>
      obtain ⟨hrow, hepoch⟩ := h
      refine served_reads cfg (u := .claim existing) hs ?_ hrow
      have hstarted := hs.started hepoch
      rw [← hrow.family] at hstarted
      simp only [next, hstarted, if_neg Bool.false_ne_true]
  | claim existing =>
      have hlive : w.live existing.token = true :=
        World.live_iff.mpr ⟨existing, h.mem, rfl, h.live⟩
      have hnext : next cfg w (.claim existing) = (w.revokeByToken existing.token,
          some (.readActive existing (w.revocations existing.userId))) := by
        simp only [next, if_pos hlive]
      refine ⟨?_, ?_, ?_⟩
      · rw [hnext]
        exact hs.stamp _ _
      · rw [hnext]
        rintro t' ⟨⟩
        exact ⟨h.family, hs.owner existing h.mem h.family⟩
      · rw [hnext]
        intro hnone
        cases hnone
  | readActive existing since =>
      obtain ⟨u, hu, hactive⟩ := hs.active
      rw [← h.2] at hu
      have hid : u.id = existing.userId := by simpa using List.find?_some hu
      refine served_reads cfg (u := .refreshClaims u existing since) hs ?_ ⟨h.1, hid.trans h.2⟩
      simp only [next, hu, if_pos hactive]
  | refreshClaims u existing since =>
      refine served_reads cfg hs rfl ?_
      exact ⟨congrArg some h.1, (buildClaims_sub _ _ _).trans h.2⟩
  | sign ticket => exact served_reads cfg hs rfl h
  | insert ticket iat =>
      obtain ⟨hfamily, hsub⟩ := h
      have hends : (next cfg w (.insert ticket iat)).2 = none := rfl
      refine ⟨?_, ?_, ?_⟩
      · show SessionOf familyId userId (w.issue cfg ticket.claims ticket.familyId iat _ _)
        rw [hfamily]
        exact hs.issue cfg hsub _ _ _
      · rw [hends]
        intro t' ht'
        cases ht'
      · intro _
        refine .inl ⟨rfl, ?_⟩
        refine ⟨_, List.mem_append_right _ (List.mem_singleton_self _), rfl, ?_, rfl⟩
        rw [hfamily]
        rfl
  | _ => exact h.elim

end

end OraOS.Auth
