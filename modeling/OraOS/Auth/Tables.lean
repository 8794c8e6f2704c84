/-
  OraOS.Auth.Tables — users and their tokens, and the statements on them.

  Besides the tables there is what clients hold: access tokens are signed, not
  stored.  Refresh tokens stand for themselves where the table has their hash, and
  new ones, like new family ids, are the next number nobody has used.

  To say where a session comes from, tokens also carry how many revocations of
  their user had committed when the password check behind them read the hash;
  `World.revocations` counts the commits.  No statement looks at either.
-/
import OraOS.Auth.Claims

namespace OraOS.Auth

open OraOS.Api
open OraOS.Tenancy

/-! ## §1. Rows. -/

/-- A row of `users`, as far as sessions read it. -/
structure UserRow where
  id : Uuid
  email : String
  passwordHash : String
  isActive : Bool
  /-- The session epoch; null before the first revocation. -/
  sessionsValidFrom : Option Instant
  deriving DecidableEq, Repr

/-- A row of `refresh_tokens`; `checkedAfter` counts the revocations of the user that
came before the password check the session goes back to. -/
structure RefreshToken where
  token : Uuid
  userId : Uuid
  familyId : Uuid
  createdAt : Instant
  expiresAt : Instant
  revokedAt : Option Instant
  checkedAfter : ℕ
  deriving DecidableEq, Repr

/-- A row of `password_reset_tokens`. -/
structure PasswordResetToken where
  token : Uuid
  userId : Uuid
  usedAt : Option Instant
  expiresAt : Instant
  deriving DecidableEq, Repr

/-- A signed access token; `iat` is in seconds.  `late` says that a revocation had
committed between the check of the request that issued it and the issue. -/
structure AccessToken where
  claims : Claims
  iat : ℤ
  checkedAfter : ℕ
  late : Bool
  deriving DecidableEq, Repr

/-- The tables, the clock, and the tokens clients hold. -/
structure World where
  directory : Directory
  users : List UserRow
  refreshTokens : List RefreshToken
  resetTokens : List PasswordResetToken
  now : Instant
  fresh : Uuid
  issued : List AccessToken
  revocations : Uuid → ℕ

/-- Configuration, and `compare` of bcrypt. -/
structure AuthConfig where
  refreshTokenTtlDays : ℕ
  jwtAccessTtlSeconds : ℕ
  compare : String → String → Bool

namespace World

variable (w : World)

/-! ## §2. Reads. -/

/-- `user.findUnique` by id. -/
def findUser (userId : Uuid) : Option UserRow := w.users.find? fun u => decide (u.id = userId)

/-- `refreshToken.findUnique` by the token. -/
def findToken (presented : Uuid) : Option RefreshToken :=
  w.refreshTokens.find? fun t => decide (t.token = presented)

/-- `user.sessionsValidFrom`, null also when there is no such user. -/
def epochOf (userId : Uuid) : Option Instant := (w.findUser userId).bind (·.sessionsValidFrom)

/-- `MIN(created_at)` over a family. -/
def familyStart (familyId : Uuid) : Option Instant :=
  ((w.refreshTokens.filter fun t => decide (t.familyId = familyId)).map (·.createdAt)).min?

/-- `assertAccessTokenNotStale` refuses the token; an `iat` of 0 counts as absent. -/
def stale (a : AccessToken) : Bool :=
  decide (a.iat ≠ 0) && (w.epochOf a.claims.sub).any fun epoch => decide (a.iat * 1000 < epoch)

/-- The token is in the table and not revoked. -/
def live (token : Uuid) : Bool :=
  w.refreshTokens.any fun t => decide (t.token = token) && t.revokedAt.isNone

/-! ## §3. Writes. -/

/-- `UPDATE refresh_tokens SET revoked_at = at WHERE p`. -/
def stamp (p : RefreshToken → Bool) (at_ : Instant) : World :=
  { w with refreshTokens :=
      w.refreshTokens.map fun t => if p t then { t with revokedAt := some at_ } else t }

/-- `TokenService.revokeFamily`. -/
def revokeFamily (familyId : Uuid) : World :=
  w.stamp (fun t => decide (t.familyId = familyId) && t.revokedAt.isNone) w.now

/-- `TokenService.revokeByToken`, and the conditional claim of `rotate`. -/
def revokeByToken (presented : Uuid) : World :=
  w.stamp (fun t => decide (t.token = presented) && t.revokedAt.isNone) w.now

/-- The live refresh tokens of a user. -/
def sweep (userId : Uuid) : List Uuid :=
  (w.refreshTokens.filter fun t => decide (t.userId = userId) && t.revokedAt.isNone).map (·.token)

/-- The commit of `revokeAllForUser`: the epoch, and the tokens its sweep had seen. -/
def revokeAll (userId : Uuid) (at_ : Instant) (swept : List Uuid) : World :=
  { w.stamp (fun t => decide (t.token ∈ swept)) at_ with
    users := w.users.map fun u =>
      if u.id = userId then { u with sessionsValidFrom := some at_ } else u
    revocations := Function.update w.revocations userId (w.revocations userId + 1) }

/-- The commit of a password reset: the link is spent, the hash replaced. -/
def resetPassword (record : PasswordResetToken) (passwordHash : String) : World :=
  { w with
    resetTokens := w.resetTokens.map fun r =>
      if r.token = record.token then { r with usedAt := some w.now } else r
    users := w.users.map fun u => if u.id = record.userId then { u with passwordHash } else u }

/-- `issue`, once signed: the refresh token enters the table, in its family or in a
new one, and both tokens are the client's. -/
def issue (cfg : AuthConfig) (claims : Claims) (familyId : Option Uuid) (iat : ℤ)
    (checkedAfter : ℕ) (late : Bool) : World :=
  { w with
    refreshTokens := w.refreshTokens ++
      [⟨w.fresh, claims.sub, familyId.getD (w.fresh + 1), w.now,
        w.now + cfg.refreshTokenTtlDays * 86400000, none, checkedAfter⟩]
    fresh := w.fresh + 2
    issued := w.issued ++ [⟨claims, iat, checkedAfter, late⟩] }

end World

/-- A token is live if its row is there and not revoked. -/
theorem World.live_iff {w : World} {token : Uuid} :
    w.live token = true ↔ ∃ t ∈ w.refreshTokens, t.token = token ∧ t.revokedAt = none := by
  simp [World.live]

end OraOS.Auth
