/-
  OraOS.Auth.Statements — what the statements of the auth requests do to the tables.

  Most only read, revoke or let time pass (`Quiet`); an issue adds a token, and the
  commit of a revocation moves an epoch.  A session is judged by its family: one
  that began before the epoch is dead.

    * `Evolves`              — what every statement leaves standing for the others;
    * `SessionInv`           — what holds of the tables and of the tokens clients hold;
    * `Quiet.sessionInv`, `sessionInv_issue`, `sessionInv_revokeAll`
                             — every write keeps it, an issue that was checked and a
                               revocation that was not disturbed included;
    * `next_quiet`           — and the other statements are quiet;
    * `receive_task`, `next_task` — what a request starts with, and does after each statement.
-/
import OraOS.Auth.Sessions
import OraOS.Lib.Tally

namespace OraOS.Auth

open OraOS.Api
open OraOS.Lib
open OraOS.Tenancy

/-! ## §1. What statements do to the tables. -/

/-- A row of `refresh_tokens` some statements later: only ever revoked. -/
structure RefreshToken.Becomes (t t' : RefreshToken) : Prop where
  token : t'.token = t.token
  userId : t'.userId = t.userId
  familyId : t'.familyId = t.familyId
  createdAt : t'.createdAt = t.createdAt
  checkedAfter : t'.checkedAfter = t.checkedAfter
  revoked : t'.revokedAt = none → t.revokedAt = none

theorem RefreshToken.Becomes.refl (t : RefreshToken) : t.Becomes t :=
  ⟨rfl, rfl, rfl, rfl, rfl, id⟩

theorem RefreshToken.Becomes.trans {t t' t'' : RefreshToken} (h : t.Becomes t')
    (h' : t'.Becomes t'') : t.Becomes t'' :=
  ⟨h'.token.trans h.token, h'.userId.trans h.userId, h'.familyId.trans h.familyId,
    h'.createdAt.trans h.createdAt, h'.checkedAfter.trans h.checkedAfter,
    fun hlive => h.revoked (h'.revoked hlive)⟩

/-- The family has a token from before the user's epoch. -/
def World.FamilyDead (w : World) (userId familyId : Uuid) : Prop :=
  ∃ t ∈ w.refreshTokens, t.familyId = familyId
    ∧ ∃ epoch, w.epochOf userId = some epoch ∧ t.createdAt < epoch

/-- A statement that adds no token and touches no epoch. -/
structure Quiet (w w' : World) : Prop where
  now : w.now ≤ w'.now
  fresh : w'.fresh = w.fresh
  tokens : ∃ f : RefreshToken → RefreshToken, (∀ t : RefreshToken, t.Becomes (f t))
    ∧ w'.refreshTokens = w.refreshTokens.map f
  epoch : ∀ u, w'.epochOf u = w.epochOf u
  users : ∀ u, (w.findUser u).isSome = true → (w'.findUser u).isSome = true
  revocations : w'.revocations = w.revocations
  issued : w'.issued = w.issued

/-- What every statement leaves standing, whoever runs it. -/
structure Evolves (w w' : World) : Prop where
  now : w.now ≤ w'.now
  kept : ∀ t ∈ w.refreshTokens, ∃ t' ∈ w'.refreshTokens, t.Becomes t'
  origin : ∀ t' ∈ w'.refreshTokens, (∃ t ∈ w.refreshTokens, t.Becomes t')
    ∨ (w.fresh ≤ t'.token ∧ w.now ≤ t'.createdAt)
  fresh : w.fresh ≤ w'.fresh
  issued : ∀ a ∈ w.issued, a ∈ w'.issued
  users : ∀ u, (w.findUser u).isSome = true → (w'.findUser u).isSome = true
  /-- The epoch of a user stands, or all they hold is of dead families. -/
  epoch : ∀ u, (w'.revocations u = w.revocations u ∧ w'.epochOf u = w.epochOf u)
    ∨ ∀ t ∈ w.refreshTokens, t.userId = u → w'.FamilyDead u t.familyId

theorem Quiet.refl (w : World) : Quiet w w :=
  ⟨le_refl _, rfl, ⟨id, .refl, (List.map_id _).symm⟩, fun _ => rfl, fun _ => id, rfl, rfl⟩

theorem quiet_stamp (w : World) (p : RefreshToken → Bool) (at_ : Instant) :
    Quiet w (w.stamp p at_) where
  now := le_refl _
  fresh := rfl
  tokens := by
    refine ⟨_, ?_, rfl⟩
    intro t
    by_cases hp : p t = true
    · rw [if_pos hp]
      exact ⟨rfl, rfl, rfl, rfl, rfl, nofun⟩
    · rw [if_neg hp]
      exact .refl t
  epoch _ := rfl
  users _ := id
  revocations := rfl
  issued := rfl

/-- An update of the users that leaves their ids alone. -/
theorem find_user_map (users : List UserRow) (f : UserRow → UserRow) (hf : ∀ x, (f x).id = x.id)
    (u : Uuid) : (users.map f).find? (fun x => decide (x.id = u))
      = (users.find? fun x => decide (x.id = u)).map f := by
  rw [List.find?_map]
  have hpred : (fun x => decide (x.id = u)) ∘ f = fun x => decide (x.id = u) := by
    funext x
    show decide ((f x).id = u) = _
    rw [hf x]
  rw [hpred]

/-- A new password hash changes nothing else about a user. -/
theorem findUser_resetPassword (w : World) (record : PasswordResetToken) (passwordHash : String)
    (u : Uuid) : (w.resetPassword record passwordHash).findUser u
      = (w.findUser u).map fun x => if x.id = record.userId then { x with passwordHash } else x := by
  refine find_user_map _ _ ?_ u
  intro x
  split
  · rfl
  · rfl

/-- The reset of a password is quiet: the revocation after it is another statement. -/
theorem quiet_resetPassword (w : World) (record : PasswordResetToken) (passwordHash : String) :
    Quiet w (w.resetPassword record passwordHash) where
  now := le_refl _
  fresh := rfl
  tokens := ⟨id, .refl, (List.map_id _).symm⟩
  epoch u := by
    unfold World.epochOf
    rw [findUser_resetPassword]
    cases w.findUser u with
    | none => rfl
    | some x =>
        show (if x.id = record.userId then _ else x : UserRow).sessionsValidFrom = _
        split
        · rfl
        · rfl
  users u hu := by
    rw [findUser_resetPassword, Option.isSome_map]
    exact hu
  revocations := rfl
  issued := rfl

theorem quiet_tick (w : World) (elapsed : ℕ) : Quiet w (tick w elapsed) where
  now := by
    show w.now ≤ w.now + (elapsed : ℤ)
    exact le_add_of_nonneg_right (Int.natCast_nonneg elapsed)
  fresh := rfl
  tokens := ⟨id, .refl, (List.map_id _).symm⟩
  epoch _ := rfl
  users _ := id
  revocations := rfl
  issued := rfl

/-- A row after a quiet statement was there before it. -/
theorem Quiet.token_before {w w' : World} (h : Quiet w w') {t' : RefreshToken}
    (ht' : t' ∈ w'.refreshTokens) : ∃ t ∈ w.refreshTokens, t.Becomes t' := by
  obtain ⟨f, hf, hmap⟩ := h.tokens
  rw [hmap] at ht'
  obtain ⟨t, ht, rfl⟩ := List.mem_map.mp ht'
  exact ⟨t, ht, hf t⟩

theorem Quiet.token_after {w w' : World} (h : Quiet w w') {t : RefreshToken}
    (ht : t ∈ w.refreshTokens) : ∃ t' ∈ w'.refreshTokens, t.Becomes t' := by
  obtain ⟨f, hf, hmap⟩ := h.tokens
  refine ⟨f t, ?_, hf t⟩
  rw [hmap]
  exact List.mem_map_of_mem ht

/-- A quiet statement leaves standing what every statement does. -/
theorem Quiet.evolves {w w' : World} (h : Quiet w w') : Evolves w w' where
  now := h.now
  kept _ ht := h.token_after ht
  origin _ ht' := .inl (h.token_before ht')
  fresh := h.fresh.ge
  issued a ha := by rwa [h.issued]
  users := h.users
  epoch u := .inl ⟨by rw [h.revocations], h.epoch u⟩

/-- What every statement leaves of the tables, whatever it does to the epochs. -/
structure Grown (w w' : World) : Prop where
  kept : ∀ t ∈ w.refreshTokens, ∃ t' ∈ w'.refreshTokens, t.Becomes t'
  origin : ∀ t' ∈ w'.refreshTokens,
    (∃ t ∈ w.refreshTokens, t.Becomes t') ∨ w.fresh ≤ t'.token
  fresh : w.fresh ≤ w'.fresh

theorem Evolves.grown {w w' : World} (h : Evolves w w') : Grown w w' where
  kept := h.kept
  origin t' ht' := (h.origin t' ht').imp_right And.left
  fresh := h.fresh

/-- A dead family stays dead while the epoch stands. -/
theorem World.FamilyDead.kept {w w' : World} {userId familyId : Uuid}
    (h : w.FamilyDead userId familyId)
    (hkept : ∀ t ∈ w.refreshTokens, ∃ t' ∈ w'.refreshTokens, t.Becomes t')
    (hepoch : w'.epochOf userId = w.epochOf userId) : w'.FamilyDead userId familyId := by
  obtain ⟨t, ht, hfamily, epoch, he, hlt⟩ := h
  obtain ⟨t', ht', hb⟩ := hkept t ht
  refine ⟨t', ht', hb.familyId.trans hfamily, epoch, hepoch.trans he, ?_⟩
  rw [hb.createdAt]
  exact hlt

/-! ## §2. The invariant. -/

/-- What is known of the tables, the clock and the tokens clients hold. -/
structure SessionInv (w : World) : Prop where
  tokens_fresh : ∀ t ∈ w.refreshTokens, t.token < w.fresh
  tokens_nodup : (w.refreshTokens.map (·.token)).Nodup
  created : ∀ t ∈ w.refreshTokens, t.createdAt ≤ w.now
  epoch_past : ∀ u epoch, w.epochOf u = some epoch → epoch ≤ w.now
  iat_ne : ∀ a ∈ w.issued, a.iat ≠ 0
  clock : 1000 ≤ w.now
  /-- A live token of a family that is not dead was checked after every revocation. -/
  live_checked : ∀ t ∈ w.refreshTokens, t.revokedAt = none →
    ¬ w.FamilyDead t.userId t.familyId → t.checkedAfter = w.revocations t.userId
  /-- So was an access token that `selectRestaurant` would let through. -/
  access_checked : ∀ a ∈ w.issued, a.late = false → w.stale a = false →
    a.checkedAfter = w.revocations a.claims.sub

/-- Tokens are told apart, and new ones from those there are. -/
structure TokenKeys (w : World) : Prop where
  fresh : ∀ t ∈ w.refreshTokens, t.token < w.fresh
  nodup : (w.refreshTokens.map (·.token)).Nodup

/-- The invariant tells tokens apart. -/
theorem SessionInv.tokenKeys {w : World} (h : SessionInv w) : TokenKeys w :=
  ⟨h.tokens_fresh, h.tokens_nodup⟩

/-- It holds at the start, where nothing has been revoked yet. -/
theorem World.Opening.sessionInv {w : World} (h : w.Opening) : SessionInv w where
  tokens_fresh := h.tokens_fresh
  tokens_nodup := h.tokens_nodup
  created := h.created
  epoch_past := h.epoch_past
  iat_ne := h.iat_ne
  clock := h.clock
  live_checked t ht _ _ := by rw [h.tokens_counted t ht, h.revocations]
  access_checked a ha _ _ := by rw [h.issued_counted a ha, h.revocations]

/-- An access token is stale by the epoch of its user. -/
theorem stale_congr {w w' : World} {a : AccessToken}
    (h : w'.epochOf a.claims.sub = w.epochOf a.claims.sub) : w'.stale a = w.stale a := by
  unfold World.stale
  rw [h]

/-- A quiet statement keeps the invariant. -/
theorem Quiet.sessionInv {w w' : World} (h : Quiet w w') (hw : SessionInv w) : SessionInv w' where
  tokens_fresh t' ht' := by
    obtain ⟨t, ht, hb⟩ := h.token_before ht'
    rw [hb.token, h.fresh]
    exact hw.tokens_fresh t ht
  tokens_nodup := by
    obtain ⟨f, hf, hmap⟩ := h.tokens
    have htokens : w'.refreshTokens.map (·.token) = w.refreshTokens.map (·.token) := by
      rw [hmap, List.map_map]
      exact List.map_congr_left fun t _ => (hf t).token
    rw [htokens]
    exact hw.tokens_nodup
  created t' ht' := by
    obtain ⟨t, ht, hb⟩ := h.token_before ht'
    rw [hb.createdAt]
    exact (hw.created t ht).trans h.now
  epoch_past u epoch he := by
    rw [h.epoch u] at he
    exact (hw.epoch_past u epoch he).trans h.now
  iat_ne a ha := by
    rw [h.issued] at ha
    exact hw.iat_ne a ha
  clock := hw.clock.trans h.now
  live_checked t' ht' hlive hdead := by
    obtain ⟨t, ht, hb⟩ := h.token_before ht'
    rw [hb.checkedAfter, hb.userId, h.revocations]
    refine hw.live_checked t ht (hb.revoked hlive) ?_
    intro hd
    rw [hb.userId, hb.familyId] at hdead
    -- a dead family stays dead, so a token outside one was outside one before
    exact hdead (hd.kept (fun _ => h.token_after) (h.epoch _))
  access_checked a ha hlate hstale := by
    rw [h.issued] at ha
    rw [stale_congr (h.epoch _)] at hstale
    rw [h.revocations]
    exact hw.access_checked a ha hlate hstale

/-- Past its first second the clock shows no `iat` that counts as absent. -/
theorem second_ne_zero {now : Instant} (hclock : 1000 ≤ now) : now / 1000 ≠ 0 := by
  have hpos : (1 : ℤ) ≤ now / 1000 := by
    rw [Int.le_ediv_iff_mul_le (by norm_num)]
    exact hclock
  intro hzero
  rw [hzero] at hpos
  exact absurd hpos (by norm_num)

/-! ## §3. The two writes that are not quiet. -/

/-- An issue adds a token and leaves the rest. -/
theorem evolves_issue (cfg : AuthConfig) (w : World) (claims : Claims) (familyId : Option Uuid)
    (iat : ℤ) (checkedAfter : ℕ) (late : Bool) :
    Evolves w (w.issue cfg claims familyId iat checkedAfter late) where
  now := le_refl _
  kept t ht := ⟨t, List.mem_append_left _ ht, .refl t⟩
  origin t' ht' := by
    rcases List.mem_append.mp ht' with hold | hnew
    · exact .inl ⟨t', hold, .refl t'⟩
    · rw [List.mem_singleton.mp hnew]
      exact .inr ⟨le_refl _, le_refl _⟩
  fresh := Nat.le_add_right _ _
  issued a ha := List.mem_append_left _ ha
  users _ := id
  epoch _ := .inl ⟨rfl, rfl⟩

/-- An issue keeps the invariant when the session was checked after every
revocation, or its family is dead and its access token marked late. -/
theorem sessionInv_issue (cfg : AuthConfig) {w : World} {claims : Claims} {familyId : Option Uuid}
    {iat : ℤ} {checkedAfter : ℕ} {late : Bool} (hw : SessionInv w) (hiat : iat ≠ 0)
    (hlive : checkedAfter = w.revocations claims.sub
      ∨ ∃ f, familyId = some f ∧ w.FamilyDead claims.sub f)
    (hlate : late = false → checkedAfter = w.revocations claims.sub) :
    SessionInv (w.issue cfg claims familyId iat checkedAfter late) where
  tokens_fresh t ht := by
    rcases List.mem_append.mp ht with hold | hnew
    · exact Nat.lt_add_right 2 (hw.tokens_fresh t hold)
    · rw [List.mem_singleton.mp hnew]
      exact Nat.lt_add_of_pos_right (Nat.succ_pos 1)
  tokens_nodup := by
    refine nodup_keys_append hw.tokens_nodup ?_
    intro t ht
    -- every token handed out so far lies below the counter
    exact (hw.tokens_fresh t ht).ne
  created t ht := by
    rcases List.mem_append.mp ht with hold | hnew
    · exact hw.created t hold
    · rw [List.mem_singleton.mp hnew]
      exact le_refl _
  epoch_past := hw.epoch_past
  iat_ne a ha := by
    rcases List.mem_append.mp ha with hold | hnew
    · exact hw.iat_ne a hold
    · rw [List.mem_singleton.mp hnew]
      exact hiat
  clock := hw.clock
  live_checked t ht hnone hdead := by
    have hkept := (evolves_issue cfg w claims familyId iat checkedAfter late).kept
    rcases List.mem_append.mp ht with hold | hnew
    · exact hw.live_checked t hold hnone fun hd => hdead (hd.kept hkept rfl)
    · rw [List.mem_singleton.mp hnew] at hdead ⊢
      -- the new token: checked after every revocation, or in a family already dead
      rcases hlive with heq | ⟨f, rfl, hd⟩
      · exact heq
      · exact absurd (hd.kept hkept rfl) hdead
  access_checked a ha hmark hstale := by
    rcases List.mem_append.mp ha with hold | hnew
    · exact hw.access_checked a hold hmark hstale
    · rw [List.mem_singleton.mp hnew] at hmark ⊢
      exact hlate hmark

/-- Nothing was issued to the user between the clock a revocation read and its
commit, apart from tokens of older families, and access tokens signed before. -/
structure World.Undisturbed (w : World) (userId : Uuid) (at_ : Instant) : Prop where
  families : ∀ t ∈ w.refreshTokens, t.userId = userId →
    ∃ t₀ ∈ w.refreshTokens, t₀.familyId = t.familyId ∧ t₀.createdAt < at_
  access : ∀ a ∈ w.issued, a.claims.sub = userId → a.iat * 1000 < at_

/-- The commit of a revocation moves the epoch of its user, and no other. -/
theorem findUser_revokeAll (w : World) (userId : Uuid) (at_ : Instant) (swept : List Uuid)
    (u : Uuid) : (w.revokeAll userId at_ swept).findUser u = (w.findUser u).map fun x =>
      if x.id = userId then { x with sessionsValidFrom := some at_ } else x := by
  refine find_user_map _ _ ?_ u
  intro x
  split
  · rfl
  · rfl

/-- The epoch of the user is now the instant the revocation read. -/
theorem epochOf_revokeAll_self {w : World} {userId : Uuid} (at_ : Instant) (swept : List Uuid)
    (h : (w.findUser userId).isSome = true) :
    (w.revokeAll userId at_ swept).epochOf userId = some at_ := by
  obtain ⟨x, hx⟩ := Option.isSome_iff_exists.mp h
  have hid : x.id = userId := by simpa using List.find?_some hx
  unfold World.epochOf
  rw [findUser_revokeAll, hx]
  show (if x.id = userId then _ else x : UserRow).sessionsValidFrom = some at_
  rw [if_pos hid]

/-- Everybody else's stands. -/
theorem epochOf_revokeAll_other (w : World) {userId u : Uuid} (at_ : Instant) (swept : List Uuid)
    (h : u ≠ userId) : (w.revokeAll userId at_ swept).epochOf u = w.epochOf u := by
  unfold World.epochOf
  rw [findUser_revokeAll]
  cases hx : w.findUser u with
  | none => rfl
  | some x =>
      have hid : x.id = u := by simpa using List.find?_some hx
      show (if x.id = userId then _ else x : UserRow).sessionsValidFrom = _
      rw [if_neg (by rwa [hid])]
      rfl

section revokeAll

variable {w : World} {userId : Uuid} {at_ : Instant} {swept : List Uuid}

/-- The sweep leaves every row in the table. -/
theorem revokeAll_after (userId : Uuid) (at_ : Instant) (swept : List Uuid) {t : RefreshToken}
    (ht : t ∈ w.refreshTokens) :
    ∃ t' ∈ (w.revokeAll userId at_ swept).refreshTokens, t.Becomes t' :=
  (quiet_stamp w (fun t => decide (t.token ∈ swept)) at_).token_after ht

theorem revokeAll_before {t' : RefreshToken}
    (ht' : t' ∈ (w.revokeAll userId at_ swept).refreshTokens) :
    ∃ t ∈ w.refreshTokens, t.Becomes t' :=
  (quiet_stamp w (fun t => decide (t.token ∈ swept)) at_).token_before ht'

/-- Everything the user holds at an undisturbed commit is of a dead family. -/
theorem revokeAll_dead (hundisturbed : w.Undisturbed userId at_)
    (huser : (w.findUser userId).isSome = true) {t : RefreshToken} (ht : t ∈ w.refreshTokens)
    (hu : t.userId = userId) : (w.revokeAll userId at_ swept).FamilyDead userId t.familyId := by
  obtain ⟨t₀, ht₀, hfamily, hlt⟩ := hundisturbed.families t ht hu
  obtain ⟨t₀', ht₀', hb⟩ := revokeAll_after userId at_ swept ht₀
  refine ⟨t₀', ht₀', hb.familyId.trans hfamily, at_, epochOf_revokeAll_self at_ swept huser, ?_⟩
  rw [hb.createdAt]
  exact hlt

/-- What is live after the sweep has not been seen by it. -/
theorem revokeAll_live {token : Uuid} (h : (w.revokeAll userId at_ swept).live token = true) :
    w.live token = true ∧ token ∉ swept := by
  obtain ⟨t', ht', htoken, hnone⟩ := World.live_iff.mp h
  obtain ⟨t, ht, rfl⟩ := List.mem_map.mp ht'
  split at hnone
  next => cases hnone
  next hnot =>
    rw [if_neg hnot] at htoken
    subst htoken
    exact ⟨World.live_iff.mpr ⟨t, ht, rfl, hnone⟩, by simpa using hnot⟩

/-- An undisturbed commit leaves the user nothing but dead families. -/
theorem evolves_revokeAll (hundisturbed : w.Undisturbed userId at_)
    (huser : (w.findUser userId).isSome = true) : Evolves w (w.revokeAll userId at_ swept) where
  now := le_refl _
  kept _ ht := revokeAll_after userId at_ swept ht
  origin _ ht' := .inl (revokeAll_before ht')
  fresh := le_refl _
  issued _ ha := ha
  users u hu := by
    rw [findUser_revokeAll, Option.isSome_map]
    exact hu
  epoch u := by
    by_cases hu : u = userId
    · subst hu
      -- the swept account has no live token left; the others keep their epoch
      exact .inr fun t ht htu => revokeAll_dead hundisturbed huser ht htu
    · exact .inl ⟨Function.update_of_ne hu _ _, epochOf_revokeAll_other w at_ swept hu⟩

/-- **An undisturbed revocation keeps the invariant**: what was live and not swept is of
a dead family, and what was signed before is stale. -/
theorem sessionInv_revokeAll (hw : SessionInv w) (hundisturbed : w.Undisturbed userId at_)
    (huser : (w.findUser userId).isSome = true) (hat : at_ ≤ w.now) :
    SessionInv (w.revokeAll userId at_ swept) where
  tokens_fresh := ((quiet_stamp w _ at_).sessionInv hw).tokens_fresh
  tokens_nodup := ((quiet_stamp w _ at_).sessionInv hw).tokens_nodup
  created := ((quiet_stamp w _ at_).sessionInv hw).created
  epoch_past u epoch he := by
    by_cases hu : u = userId
    · subst hu
      rw [epochOf_revokeAll_self at_ swept huser] at he
      cases he
      exact hat
    · rw [epochOf_revokeAll_other w at_ swept hu] at he
      exact hw.epoch_past u epoch he
  iat_ne := hw.iat_ne
  clock := hw.clock
  live_checked t' ht' hnone hdead := by
    obtain ⟨t, ht, hb⟩ := revokeAll_before ht'
    rw [hb.userId, hb.familyId] at hdead
    by_cases hu : t.userId = userId
    · rw [hu] at hdead
      exact absurd (revokeAll_dead hundisturbed huser ht hu) hdead
    · rw [hb.checkedAfter, hb.userId]
      show _ = Function.update w.revocations userId _ t.userId
      rw [Function.update_of_ne hu]
      refine hw.live_checked t ht (hb.revoked hnone) ?_
      intro hd
      exact hdead (hd.kept (fun _ => revokeAll_after userId at_ swept)
        (epochOf_revokeAll_other w at_ swept hu))
  access_checked a ha hmark hstale := by
    by_cases hu : a.claims.sub = userId
    · -- signed before the new epoch
      have hlt := hundisturbed.access a ha hu
      unfold World.stale at hstale
      rw [hu, epochOf_revokeAll_self at_ swept huser] at hstale
      simp [hw.iat_ne a ha, not_le.mpr hlt] at hstale
    · rw [stale_congr (epochOf_revokeAll_other w at_ swept hu)] at hstale
      show _ = Function.update w.revocations userId _ a.claims.sub
      rw [Function.update_of_ne hu]
      exact hw.access_checked a ha hmark hstale

end revokeAll

/-! ## §4. The statements that are quiet. -/

variable {cfg : AuthConfig}

/-- The statements that only read. -/
def Reads : Task → Prop
  | .insert _ _ | .revokeAll _ _ _ | .claim _ | .revokeFamily _ | .consumeCookie _ _ | .logout _
  | .claimReset _ _ => False
  | _ => True

/-- A statement that only reads leaves the tables alone. -/
theorem next_reads (w : World) {t : Task} (h : Reads t) : (next cfg w t).1 = w := by
  cases t with
  | insert | revokeAll | claim | revokeFamily | consumeCookie | logout | claimReset => exact h.elim
  | loginClaims | refreshClaims | sign | readClock => rfl
  | comparePassword user => cases user <;> rfl
  | readUser | readEpoch | readFamily | checkAccess | sweep =>
      simp only [next]
      split <;> rfl
  | findReset =>
      simp only [next]
      split
      · rfl
      · split <;> rfl
  | readActive | findCookie =>
      simp only [next]
      split
      · split <;> rfl
      · rfl
  | readMembership access restaurantId presented =>
      simp only [next]
      split
      · rfl
      · cases presented <;> rfl
  | findToken =>
      simp only [next]
      split
      · rfl
      -- a replayed, an expired or a good token: none is written here
      · split
        · rfl
        · split <;> rfl

/-- Only an issue and the commit of a revocation are not quiet. -/
theorem next_quiet (cfg : AuthConfig) (w : World) {t : Task}
    (hinsert : ∀ ticket iat, t ≠ .insert ticket iat)
    (hrevoke : ∀ userId at_ swept, t ≠ .revokeAll userId at_ swept) :
    Quiet w (next cfg w t).1 := by
  cases t with
  | insert ticket iat => exact absurd rfl (hinsert ticket iat)
  | revokeAll userId at_ swept => exact absurd rfl (hrevoke userId at_ swept)
  -- a row that is stamped or a link that is spent; every other statement only reads
  | claim existing =>
      simp only [next]
      split
      · exact quiet_stamp w _ _
      · exact .refl w
  | revokeFamily | consumeCookie | logout => exact quiet_stamp w _ _
  | claimReset record passwordHash =>
      simp only [next]
      split
      · exact quiet_resetPassword w record passwordHash
      · exact .refl w
  | _ =>
      rw [next_reads]
      · exact .refl w
      · trivial

/-! ## §5. What a request does next. -/

/-- A request that is let in, and its first task. -/
inductive FirstTask (cfg : AuthConfig) (w : World) : Request → Task → Prop where
  | login {email password : String} :
      FirstTask cfg w (.login email password) (.readUser email password)
  | refresh {presented : Uuid} : FirstTask cfg w (.refresh presented) (.findToken presented)
  | select {access : AccessToken} {restaurantId : Uuid} {presentedRefresh : Option Uuid}
      (hissued : access ∈ w.issued) (hvalid : w.now / 1000 < access.iat + cfg.jwtAccessTtlSeconds) :
      FirstTask cfg w (.selectRestaurant access restaurantId presentedRefresh)
        (.checkAccess access restaurantId presentedRefresh)
  | logout {presented : Uuid} : FirstTask cfg w (.logout presented) (.logout presented)
  | logoutAll {userId : Uuid} : FirstTask cfg w (.logoutAll userId) (.readClock userId)
  | reset {token : Uuid} {passwordHash : String} :
      FirstTask cfg w (.resetPassword token passwordHash) (.findReset token passwordHash)

/-- **The step inversion** of a request that begins. -/
theorem receive_task {cfg : AuthConfig} {w : World} {r : Request} {t : Task}
    (h : receive cfg w r = some t) : FirstTask cfg w r t := by
  cases r with
  | login email password =>
      cases h
      exact .login
  | refresh presented =>
      cases h
      exact .refresh
  | selectRestaurant access restaurantId presentedRefresh =>
      simp only [receive] at h
      split at h
      next hlet =>
        cases h
        exact .select hlet.1 hlet.2
      next => cases h
  | logout presented =>
      cases h
      exact .logout
  | logoutAll userId =>
      cases h
      exact .logoutAll
  | resetPassword token passwordHash =>
      cases h
      exact .reset

/-- A task, the task after it, and what the statement between them read. -/
inductive NextTask (cfg : AuthConfig) (w : World) : Task → Task → Prop where
  | user {email password : String} {u : UserRow}
      (hu : (w.users.find? fun u => decide (u.email = email)) = some u) :
      NextTask cfg w (.readUser email password)
        (.comparePassword (some u) password (w.revocations u.id))
  | nobody {email password : String}
      (hu : (w.users.find? fun u => decide (u.email = email)) = none) :
      NextTask cfg w (.readUser email password) (.comparePassword none password 0)
  | password {u : UserRow} {password : String} {since : ℕ}
      (hok : cfg.compare password u.passwordHash = true) (hactive : u.isActive = true) :
      NextTask cfg w (.comparePassword (some u) password since) (.loginClaims u since)
  | login {u : UserRow} {since : ℕ} :
      NextTask cfg w (.loginClaims u since)
        (.sign ⟨.login, buildClaims w.directory u.id u.email, none, since, since⟩)
  | replayed {presented : Uuid} {existing : RefreshToken}
      (hfind : w.findToken presented = some existing)
      (hrevoked : existing.revokedAt.isSome = true) :
      NextTask cfg w (.findToken presented) (.revokeFamily existing.familyId)
  | presented {presented : Uuid} {existing : RefreshToken}
      (hfind : w.findToken presented = some existing)
      (hlive : existing.revokedAt.isSome = false) (hexpires : w.now ≤ existing.expiresAt) :
      NextTask cfg w (.findToken presented) (.readEpoch existing)
  | neverRevoked {existing : RefreshToken} (hepoch : w.epochOf existing.userId = none) :
      NextTask cfg w (.readEpoch existing) (.claim existing)
  | revokedOnce {existing : RefreshToken} {epoch : Instant}
      (hepoch : w.epochOf existing.userId = some epoch) :
      NextTask cfg w (.readEpoch existing) (.readFamily existing epoch)
  | olderFamily {existing : RefreshToken} {epoch : Instant}
      (hstart : (w.familyStart existing.familyId).any (fun startedAt =>
        decide (startedAt < epoch)) = true) :
      NextTask cfg w (.readFamily existing epoch) (.revokeFamily existing.familyId)
  | youngerFamily {existing : RefreshToken} {epoch : Instant}
      (hstart : (w.familyStart existing.familyId).any (fun startedAt =>
        decide (startedAt < epoch)) = false) :
      NextTask cfg w (.readFamily existing epoch) (.claim existing)
  | claimed {existing : RefreshToken} (hlive : w.live existing.token = true) :
      NextTask cfg w (.claim existing) (.readActive existing (w.revocations existing.userId))
  | active {existing : RefreshToken} {since : ℕ} {u : UserRow}
      (hu : w.findUser existing.userId = some u) (hactive : u.isActive = true) :
      NextTask cfg w (.readActive existing since) (.refreshClaims u existing since)
  | inactive {existing : RefreshToken} {since : ℕ}
      (hu : ∀ u ∈ w.findUser existing.userId, u.isActive = false) :
      NextTask cfg w (.readActive existing since) (.revokeFamily existing.familyId)
  | refreshed {u : UserRow} {existing : RefreshToken} {since : ℕ} :
      NextTask cfg w (.refreshClaims u existing since)
        (.sign ⟨.refresh, buildClaims w.directory u.id u.email, some existing.familyId,
          existing.checkedAfter, since⟩)
  | access {access : AccessToken} {restaurantId : Uuid} {presentedRefresh : Option Uuid}
      (hstale : w.stale access = false) :
      NextTask cfg w (.checkAccess access restaurantId presentedRefresh)
        (.readMembership access restaurantId presentedRefresh (w.revocations access.claims.sub))
  | member {access : AccessToken} {restaurantId : Uuid} {since : ℕ} {m : Tenancy.Membership}
      (hm : findMembership w.directory access.claims.sub restaurantId = some m) :
      NextTask cfg w (.readMembership access restaurantId none since)
        (.sign ⟨.selectRestaurant, .ofMembership access.claims.sub access.claims.email m, none,
          access.checkedAfter, since⟩)
  | memberWithCookie {access : AccessToken} {restaurantId presented : Uuid} {since : ℕ}
      {m : Tenancy.Membership}
      (hm : findMembership w.directory access.claims.sub restaurantId = some m) :
      NextTask cfg w (.readMembership access restaurantId (some presented) since)
        (.findCookie ⟨.selectRestaurant, .ofMembership access.claims.sub access.claims.email m,
          none, access.checkedAfter, since⟩ presented)
  | spentCookie {ticket : Ticket} {presented : Uuid}
      (hfind : ∀ existing ∈ w.findToken presented, existing.revokedAt.isSome = true) :
      NextTask cfg w (.findCookie ticket presented) (.sign ticket)
  | cookie {ticket : Ticket} {presented : Uuid} {existing : RefreshToken}
      (hfind : w.findToken presented = some existing)
      (hlive : existing.revokedAt.isSome = false) :
      NextTask cfg w (.findCookie ticket presented) (.consumeCookie ticket existing)
  | consumed {ticket : Ticket} {existing : RefreshToken} :
      NextTask cfg w (.consumeCookie ticket existing)
        (.sign { ticket with familyId := some existing.familyId })
  | signed {ticket : Ticket} : NextTask cfg w (.sign ticket) (.insert ticket (w.now / 1000))
  | clock {userId : Uuid} : NextTask cfg w (.readClock userId) (.sweep userId w.now)
  | swept {userId : Uuid} {at_ : Instant} (huser : (w.findUser userId).isSome = true) :
      NextTask cfg w (.sweep userId at_) (.revokeAll userId at_ (w.sweep userId))
  | link {token : Uuid} {passwordHash : String} {record : PasswordResetToken}
      (hfind : (w.resetTokens.find? fun r => decide (r.token = token)) = some record)
      (hvalid : (record.usedAt.isSome || decide (record.expiresAt < w.now)) = false) :
      NextTask cfg w (.findReset token passwordHash) (.claimReset record passwordHash)
  | reset {record : PasswordResetToken} {passwordHash : String}
      (hclaimed : (w.resetTokens.any fun r =>
        decide (r.token = record.token) && r.usedAt.isNone) = true) :
      NextTask cfg w (.claimReset record passwordHash) (.readClock record.userId)

/-- **The step inversion**, for the request: what `next` does next. -/
theorem next_task {cfg : AuthConfig} {w : World} {t t' : Task} (h : (next cfg w t).2 = some t') :
    NextTask cfg w t t' := by
  cases t with
  | readUser email password =>
      simp only [next] at h
      split at h
      next u hu =>
        cases h
        exact .user hu
      next hu =>
        cases h
        exact .nobody hu
  | comparePassword user password since =>
      cases user with
      | none => cases h
      | some u =>
          simp only [next] at h
          split at h
          next hok =>
            cases h
            obtain ⟨hcompare, hactive⟩ := Bool.and_eq_true_iff.mp hok
            exact .password hcompare hactive
          next => cases h
  | loginClaims u since =>
      cases h
      exact .login
  | findToken presented =>
      simp only [next] at h
      split at h
      next => cases h
      next existing hfind =>
        split at h
        next hrevoked =>
          cases h
          exact .replayed hfind hrevoked
        next hlive =>
          split at h
          next => cases h
          next hexpires =>
            cases h
            exact .presented hfind (Bool.eq_false_of_not_eq_true hlive) (not_lt.mp hexpires)
  | readEpoch existing =>
      simp only [next] at h
      split at h
      next hepoch =>
        cases h
        exact .neverRevoked hepoch
      next epoch hepoch =>
        cases h
        exact .revokedOnce hepoch
  | readFamily existing epoch =>
      simp only [next] at h
      split at h
      next hstart =>
        cases h
        exact .olderFamily hstart
      next hstart =>
        cases h
        exact .youngerFamily (Bool.eq_false_of_not_eq_true hstart)
  | claim existing =>
      simp only [next] at h
      split at h
      next hlive =>
        cases h
        exact .claimed hlive
      next => cases h
  | readActive existing since =>
      simp only [next] at h
      split at h
      next u hu =>
        split at h
        next hactive =>
          cases h
          exact .active hu hactive
        next hactive =>
          cases h
          refine .inactive fun u' hu' => ?_
          rw [Option.some.inj (hu'.symm.trans hu)]
          exact Bool.eq_false_of_not_eq_true hactive
      next hnone =>
        cases h
        refine .inactive fun u hu => ?_
        rw [hnone] at hu
        cases hu
  | refreshClaims u existing since =>
      cases h
      exact .refreshed
  | checkAccess access restaurantId presentedRefresh =>
      simp only [next] at h
      split at h
      next => cases h
      next hstale =>
        cases h
        exact .access (Bool.eq_false_of_not_eq_true hstale)
  | readMembership access restaurantId presentedRefresh since =>
      simp only [next] at h
      split at h
      next => cases h
      next m hm =>
        cases presentedRefresh with
        | none =>
            cases h
            exact .member hm
        | some presented =>
            cases h
            exact .memberWithCookie hm
  | findCookie ticket presented =>
      simp only [next] at h
      split at h
      next existing hfind =>
        split at h
        next hrevoked =>
          cases h
          refine .spentCookie fun existing' hfind' => ?_
          rw [Option.some.inj (hfind'.symm.trans hfind)]
          exact hrevoked
        next hlive =>
          cases h
          exact .cookie hfind (Bool.eq_false_of_not_eq_true hlive)
      next hnone =>
        cases h
        refine .spentCookie fun existing hfind => ?_
        rw [hnone] at hfind
        cases hfind
  | consumeCookie ticket existing =>
      cases h
      exact .consumed
  | sign ticket =>
      cases h
      exact .signed
  | readClock userId =>
      cases h
      exact .clock
  | sweep userId at_ =>
      simp only [next] at h
      split at h
      next huser =>
        cases h
        exact .swept huser
      next => cases h
  | findReset token passwordHash =>
      simp only [next] at h
      split at h
      next => cases h
      next record hfind =>
        split at h
        next => cases h
        next hvalid =>
          cases h
          exact .link hfind (Bool.eq_false_of_not_eq_true hvalid)
  | claimReset record passwordHash =>
      simp only [next] at h
      split at h
      next hclaimed =>
        cases h
        exact .reset hclaimed
      next => cases h
  | revokeFamily | insert | logout | revokeAll => cases h

end OraOS.Auth
