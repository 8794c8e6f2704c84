/-
  OraOS.Auth.ResetLinks — "only the latest link should work".

  `requestPasswordReset` spends the outstanding links of a user and then creates one;
  each is a statement of its own, and a second request fits in between.

    * `LinkStep`           — a statement spends links, or creates one;
    * `one_usable_link`    — at most one link of a user works, as long as no link is
                             created between the two statements of a request;
    * `two_usable_links`   — and two of them when one is.
-/
import OraOS.Auth.Accounts

namespace OraOS.Auth

open OraOS.Api
open OraOS.Lib
open OraOS.Tenancy

/-! ## §1. Links that work. -/

/-- The link of a user is neither used nor expired: `resetPassword` lets it in. -/
def World.usable (w : World) (userId : Uuid) (r : PasswordResetToken) : Bool :=
  decide (r.userId = userId) && r.usedAt.isNone && !decide (r.expiresAt < w.now)

/-- The links of a user that would still be accepted. -/
def World.usableLinks (w : World) (userId : Uuid) : List PasswordResetToken :=
  w.resetTokens.filter (w.usable userId)

/-- Each user has at most one link that works. -/
def World.OneLink (w : World) : Prop := ∀ userId, (w.usableLinks userId).length ≤ 1

/-- Whatever was created for the user since this request spent their links has been
used or has expired. -/
def NoneSince (a : Accounts) : AccountTask → Prop
  | .createLink userId since => ∀ r ∈ a.world.resetTokens, since ≤ r.token →
      a.world.usable userId r = false
  | _ => True

instance (a : Accounts) (t : AccountTask) : Decidable (NoneSince a t) := by
  unfold NoneSince
  split <;> infer_instance

/-- A row of `password_reset_tokens` some statements later: only ever used. -/
structure Spent (r r' : PasswordResetToken) : Prop where
  token : r'.token = r.token
  userId : r'.userId = r.userId
  expiresAt : r'.expiresAt = r.expiresAt
  used : r'.usedAt = none → r.usedAt = none

theorem Spent.refl (r : PasswordResetToken) : Spent r r := ⟨rfl, rfl, rfl, id⟩

/-- What a statement does to the links: it spends some, or it creates one. -/
inductive LinkStep (a : Accounts) : AccountTask → Accounts → Prop where
  | spent {t : AccountTask} {a' : Accounts} (hnot : ∀ userId since, t ≠ .createLink userId since)
      (f : PasswordResetToken → PasswordResetToken) (hf : ∀ r, Spent r (f r))
      (hlinks : a'.world.resetTokens = a.world.resetTokens.map f)
      (hfresh : a.world.fresh ≤ a'.world.fresh) (hnow : a.world.now ≤ a'.world.now) :
      LinkStep a t a'
  | created (userId since : Uuid) :
      LinkStep a (.createLink userId since) { a with world := a.world.createLink userId }

variable {cfg : AuthConfig}

/-- A statement that touches no link. -/
theorem LinkStep.still {a a' : Accounts} {t : AccountTask}
    (hnot : ∀ userId since, t ≠ .createLink userId since)
    (hlinks : a'.world.resetTokens = a.world.resetTokens) (hfresh : a.world.fresh ≤ a'.world.fresh)
    (hnow : a.world.now ≤ a'.world.now) : LinkStep a t a' :=
  .spent hnot id .refl (hlinks.trans (List.map_id _).symm) hfresh hnow

/-- A reset spends its own link. -/
theorem spent_resetPassword (w : World) (record : PasswordResetToken) (r : PasswordResetToken) :
    Spent r (if r.token = record.token then { r with usedAt := some w.now } else r) := by
  split
  · exact ⟨rfl, rfl, rfl, nofun⟩
  · exact .refl r

/-- A new request spends the links there are. -/
theorem spent_invalidateLinks (w : World) (userId : Uuid) (r : PasswordResetToken) :
    Spent r (if decide (r.userId = userId) && r.usedAt.isNone then { r with usedAt := some w.now }
      else r) := by
  split
  · exact ⟨rfl, rfl, rfl, nofun⟩
  · exact .refl r

/-- The statement that creates a link. -/
def AccountTask.createsLink : AccountTask → Bool
  | .createLink _ _ => true
  | _ => false

/-- A statement that creates no link. -/
theorem ne_createLink {t : AccountTask} (h : t.createsLink = false) (userId since : Uuid) :
    t ≠ .createLink userId since := by
  rintro rfl
  cases h

/-- The session requests spend the link of a reset, and create none. -/
theorem session_linkStep (cfg : AuthConfig) (a : Accounts) (t : Task) :
    LinkStep a (.session t) { a with world := (next cfg a.world t).1 } := by
  cases t with
  | claimReset record passwordHash =>
      simp only [next]
      split
      · exact .spent (ne_createLink rfl) _ (spent_resetPassword a.world record) rfl (le_refl _) (le_refl _)
      · exact .still (ne_createLink rfl) rfl (le_refl _) (le_refl _)
  | claim existing =>
      simp only [next]
      split
      · exact .still (ne_createLink rfl) rfl (le_refl _) (le_refl _)
      · exact .still (ne_createLink rfl) rfl (le_refl _) (le_refl _)
  | insert ticket iat => exact .still (ne_createLink rfl) rfl (Nat.le_add_right _ 2) (le_refl _)
  | revokeAll | revokeFamily | consumeCookie | logout =>
      exact .still (ne_createLink rfl) rfl (le_refl _) (le_refl _)
  | _ =>
      rw [next_reads]
      · exact .still (ne_createLink rfl) rfl (le_refl _) (le_refl _)
      · trivial

/-- **The step inversion**, seen from the table of links. -/
theorem nextAccount_linkStep (cfg : AuthConfig) (a : Accounts) (t : AccountTask) :
    LinkStep a t (nextAccount cfg a t).1 := by
  cases t with
  | session s => exact session_linkStep cfg a s
  | createUser dto =>
      simp only [nextAccount]
      split
      next user a' h =>
        obtain ⟨-, -, rfl⟩ := createUser_ok h
        exact .still (ne_createLink rfl) rfl (Nat.le_succ _) (le_refl _)
      next => exact .still (ne_createLink rfl) rfl (le_refl _) (le_refl _)
  | join invite dto =>
      simp only [nextAccount]
      split
      next m a' h =>
        obtain ⟨-, -, directory, -, hworld, -⟩ := join_ok h
        refine .still (ne_createLink rfl) ?_ ?_ ?_
        · rw [hworld]
        · rw [hworld]
          exact Nat.le_add_right _ 2
        · rw [hworld]
      next => exact .still (ne_createLink rfl) rfl (le_refl _) (le_refl _)
  -- the two statements of a reset request: the old links go, a new one comes
  | createLink userId since => exact .created userId since
  | invalidateLinks userId =>
      exact .spent (ne_createLink rfl) _ (spent_invalidateLinks a.world userId) rfl (le_refl _) (le_refl _)
  | findEmail | findInvite | findInvitee | findAccount =>
      simp only [nextAccount]
      split
      · exact .still (ne_createLink rfl) rfl (le_refl _) (le_refl _)
      · exact .still (ne_createLink rfl) rfl (le_refl _) (le_refl _)

/-! ## §2. The invariant and what requests know. -/

/-- Links are told apart from those to come, and one of a user works at most. -/
structure LinkInv (w : World) : Prop where
  fresh : ∀ r ∈ w.resetTokens, r.token < w.fresh
  one : w.OneLink

/-- Who is about to create a link has spent every earlier one. -/
def KnowsLinks (a : Accounts) : AccountTask → Prop
  | .createLink userId since => since ≤ a.world.fresh ∧ ∀ r ∈ a.world.resetTokens,
      r.token < since → r.userId = userId → r.usedAt ≠ none
  | _ => True

/-- What every statement leaves of the links. -/
structure LinksGrown (w w' : World) : Prop where
  origin : ∀ r' ∈ w'.resetTokens, (∃ r ∈ w.resetTokens, Spent r r') ∨ w.fresh ≤ r'.token
  fresh : w.fresh ≤ w'.fresh

/-- Links are only spent and added. -/
theorem LinkStep.grown {a a' : Accounts} {t : AccountTask} (h : LinkStep a t a') :
    LinksGrown a.world a'.world := by
  cases h with
  | spent _ f hf hlinks hfresh =>
      refine ⟨?_, hfresh⟩
      intro r' hr'
      rw [hlinks] at hr'
      obtain ⟨r, hr, rfl⟩ := List.mem_map.mp hr'
      exact .inl ⟨r, hr, hf r⟩
  | created userId since =>
      refine ⟨?_, Nat.le_succ _⟩
      intro r' hr'
      rcases List.mem_append.mp hr' with hold | hnew
      -- a link of before, or the new one
      · exact .inl ⟨r', hold, .refl r'⟩
      · rw [List.mem_singleton.mp hnew]
        exact .inr (le_refl _)

/-- What a request knows of them stands. -/
theorem knowsLinks_grown {a a' : Accounts} {t : AccountTask} (hg : LinksGrown a.world a'.world)
    (h : KnowsLinks a t) : KnowsLinks a' t := by
  cases t with
  | createLink userId since =>
      refine ⟨h.1.trans hg.fresh, ?_⟩
      intro r' hr' hlt huser hnone
      rcases hg.origin r' hr' with ⟨r, hr, hs⟩ | hnew
      · exact h.2 r hr (hs.token ▸ hlt) (hs.userId.symm.trans huser) (hs.used hnone)
      · -- a link created later is not among the earlier ones
        exact absurd (hlt.trans_le h.1) (not_lt.mpr hnew)
  | _ => trivial

/-- A link that is usable was usable before. -/
theorem usable_spent {w w' : World} (hnow : w.now ≤ w'.now) {userId : Uuid}
    {r r' : PasswordResetToken} (h : Spent r r') (husable : w'.usable userId r' = true) :
    w.usable userId r = true := by
  simp only [World.usable, Bool.and_eq_true, decide_eq_true_eq, Option.isNone_iff_eq_none,
    Bool.not_eq_true', decide_eq_false_iff_not, not_lt] at husable ⊢
  obtain ⟨⟨huser, hnone⟩, hexpires⟩ := husable
  refine ⟨⟨h.userId.symm.trans huser, h.used hnone⟩, ?_⟩
  rw [h.expiresAt] at hexpires
  exact hnow.trans hexpires

/-- Spending links, and time, make none usable. -/
theorem oneLink_spent {w w' : World} (hone : w.OneLink)
    {f : PasswordResetToken → PasswordResetToken} (hf : ∀ r, Spent r (f r))
    (hlinks : w'.resetTokens = w.resetTokens.map f) (hnow : w.now ≤ w'.now) : w'.OneLink := by
  intro userId
  refine le_trans ?_ (hone userId)
  unfold World.usableLinks
  rw [← List.countP_eq_length_filter, ← List.countP_eq_length_filter, hlinks, List.countP_map]
  exact List.countP_mono_left fun r _ => usable_spent hnow (hf r)

/-- The link that is created works. -/
theorem usableLinks_createLink (w : World) (userId u : Uuid) :
    ((w.createLink userId).usableLinks u).length
      = (w.usableLinks u).length + if userId = u then 1 else 0 := by
  have hlater : ¬ w.now + PASSWORD_RESET_TTL_MINUTES * 60000 < w.now :=
    not_lt.mpr (le_add_of_nonneg_right (by decide))
  unfold World.usableLinks
  rw [← List.countP_eq_length_filter, ← List.countP_eq_length_filter]
  show (w.resetTokens ++ _).countP (w.usable u) = _
  rw [List.countP_append, List.countP_singleton]
  simp [World.usable, hlater]

/-- **Creating a link leaves one that works if and only if** none was created since this
request spent the earlier ones, or none that works. -/
theorem oneLink_createLink {a : Accounts} {userId since : Uuid} (hone : a.world.OneLink)
    (hknow : KnowsLinks a (.createLink userId since)) :
    (a.world.createLink userId).OneLink ↔ NoneSince a (.createLink userId since) := by
  -- nothing of before `since` works, so the condition is on all the links of the user
  have hnil : NoneSince a (.createLink userId since) ↔ (a.world.usableLinks userId).length = 0 := by
    rw [List.length_eq_zero_iff]
    unfold World.usableLinks
    rw [List.filter_eq_nil_iff]
    constructor
    · intro h r hr husable
      by_cases hlt : r.token < since
      · simp only [World.usable, Bool.and_eq_true, decide_eq_true_eq,
          Option.isNone_iff_eq_none] at husable
        exact hknow.2 r hr hlt husable.1.1 husable.1.2
      · rw [h r hr (not_lt.mp hlt)] at husable
        cases husable
    · intro h r hr _
      simpa using h r hr
  rw [hnil]
  constructor
  · intro hafter
    have hlen := hafter userId
    rw [usableLinks_createLink, if_pos rfl] at hlen
    omega
  · intro hzero u
    rw [usableLinks_createLink]
    by_cases hu : userId = u
    · subst hu
      rw [if_pos rfl, hzero]
    · rw [if_neg hu]
      exact hone u

/-- **A statement leaves one link that works if and only if** it creates none in spite of
another. -/
theorem oneLink_step {a a' : Accounts} {t : AccountTask} (hone : a.world.OneLink)
    (hknow : KnowsLinks a t) (h : LinkStep a t a') : a'.world.OneLink ↔ NoneSince a t := by
  cases h with
  | spent hnot f hf hlinks _ hnow =>
      refine iff_of_true (oneLink_spent hone hf hlinks hnow) ?_
      cases t with
      | createLink userId since => exact absurd rfl (hnot userId since)
      | _ => trivial
  | created userId since => exact oneLink_createLink hone hknow

/-- A request that is about to create a link has just spent the others. -/
theorem nextAccount_creates {a : Accounts} {t : AccountTask} {userId since : Uuid}
    (hnext : (nextAccount cfg a t).2 = some (.createLink userId since)) :
    t = .invalidateLinks userId ∧ since = a.world.fresh := by
  cases nextAccount_task hnext with
  | invalidated => exact ⟨rfl, rfl⟩

/-- Once the links are spent, only later ones can be usable. -/
theorem knowsLinks_invalidated (a : Accounts) (userId : Uuid) :
    KnowsLinks { a with world := a.world.invalidateLinks userId }
      (.createLink userId a.world.fresh) := by
  refine ⟨le_refl _, ?_⟩
  intro r' hr' _ huser hnone
  obtain ⟨r, -, rfl⟩ := List.mem_map.mp hr'
  -- a link of the user that was still unused has just been used
  by_cases hhit : (decide (r.userId = userId) && r.usedAt.isNone) = true
  · rw [if_pos hhit] at hnone
    cases hnone
  · rw [if_neg hhit] at huser hnone
    exact hhit (by simp [huser, hnone])

/-! ## §3. One link that works. -/

/-- The obligations, for links that are created with none made since. -/
theorem links_relyGuarantee (cfg : AuthConfig) :
    (accountService cfg).RelyGuarantee NoneSince (fun a => LinkInv a.world) KnowsLinks
      (fun a a' => LinksGrown a.world a'.world) where
  receive a r t _ hreceive := by
    cases r with
    | session r =>
        obtain ⟨s, -, rfl⟩ := Option.map_eq_some_iff.mp hreceive
        trivial
    | register | acceptInvite | requestPasswordReset =>
        cases hreceive
        trivial
  next a t hw hknow hnone := by
    have hstep := nextAccount_linkStep cfg a t
    have hgrown := hstep.grown
    refine ⟨⟨?_, (oneLink_step hw.one hknow hstep).mpr hnone⟩, hgrown, ?_⟩
    · show ∀ r ∈ (nextAccount cfg a t).1.world.resetTokens, r.token < (nextAccount cfg a t).1.world.fresh
      generalize (nextAccount cfg a t).1 = a' at hstep hgrown
      intro r' hr'
      cases hstep with
      | spent _ f hf hlinks hfresh =>
          rw [hlinks] at hr'
          obtain ⟨r, hr, rfl⟩ := List.mem_map.mp hr'
          rw [(hf r).token]
          exact lt_of_lt_of_le (hw.fresh r hr) hfresh
      | created userId since =>
          rcases List.mem_append.mp hr' with hold | hnew
          · exact Nat.lt_succ_of_lt (hw.fresh r' hold)
          · rw [List.mem_singleton.mp hnew]
            exact Nat.lt_succ_self _
    -- a creation is next only behind the statement that spent the account's links
    · intro t' hnext
      cases t' with
      | createLink userId since =>
          obtain ⟨rfl, rfl⟩ := nextAccount_creates hnext
          exact knowsLinks_invalidated a userId
      | _ => trivial
  env a e hw := by
    cases e with
    -- with time links only expire
    | elapses elapsed =>
        refine ⟨⟨hw.fresh, oneLink_spent hw.one .refl (List.map_id _).symm ?_⟩,
          ⟨fun r hr => .inl ⟨r, hr, .refl r⟩, le_refl _⟩⟩
        exact (quiet_tick a.world elapsed).now
    | staff directory staffInvites branches auditLogs =>
        exact ⟨⟨hw.fresh, hw.one⟩, ⟨fun r hr => .inl ⟨r, hr, .refl r⟩, le_refl _⟩⟩
  stable a a' t _ hg h := knowsLinks_grown hg h

/-- The requests of all accounts, from tables in which each user has one link at most. -/
def resets (cfg : AuthConfig) :
    System (InFlight Accounts AccountTask) (ServiceEvent AccountRequest Outside) :=
  (accountService cfg).interleaved fun a => LinkInv a.world

/-- **Only the latest link works**: each user has at most one that is unused and
unexpired, in the runs in which none that works is created between the two statements of
a request; and a step leaves a user a second one if and only if it creates one in spite
of it. -/
theorem one_usable_link (cfg : AuthConfig) {c : InFlight Accounts AccountTask}
    (h : ((resets cfg).restrict (Service.Allowed NoneSince)).Reachable c) :
    c.shared.world.OneLink ∧ ∀ e c', (resets cfg).step c e c' →
      (c'.shared.world.OneLink ↔ Service.Allowed NoneSince c e) := by
  -- what each call knows of the links holds between its statements
  obtain ⟨hw, hknows⟩ := Service.rely_guarantee (links_relyGuarantee cfg) (fun _ hw => hw) h
  refine ⟨hw.one, ?_⟩
  intro e c' hstep
  have hact : (accountService cfg).act c e = some c' := hstep
  cases e with
  | run i =>
      simp only [Service.act] at hact
      split at hact
      next => cases hact
      next t hi =>
        cases hact
        -- only the statement of a call can leave two links
        have hiff := oneLink_step hw.one (hknows i t hi) (nextAccount_linkStep cfg c.shared t)
        constructor
        · intro hone t' ht'
          rw [hi] at ht'
          cases ht'
          exact hiff.mp hone
        · intro hnone
          exact hiff.mpr (hnone t hi)
  | begin i r =>
      simp only [Service.act] at hact
      split at hact
      next =>
        cases hact
        exact iff_of_true hw.one trivial
      next => cases hact
  | drop i =>
      cases hact
      exact iff_of_true hw.one trivial
  | env e =>
      cases hact
      exact iff_of_true ((links_relyGuarantee cfg).env c.shared e hw).1.one trivial

/-! ## §4. Two links that work. -/

/-- The state the runs below start from. -/
theorem nobodyIn_links : (resets demoConfig).init nobodyIn :=
  ⟨⟨nofun, fun _ => Nat.zero_le 1⟩, fun _ => rfl⟩

/-- The user's request for a link. -/
def forgot : AccountRequest := .requestPasswordReset "asha@example.com"

/-- Asked for twice at once: both requests spend the earlier links before either creates
its own. -/
def forgotTwice : List (ServiceEvent AccountRequest Outside) :=
  [.begin 0 forgot, .run 0, .run 0, .begin 1 forgot, .run 1, .run 1, .run 0, .run 1]

theorem forgotTwice_runs :
    (System.replay (accountService demoConfig).act forgotTwice nobodyIn).isSome = true := by
  decide +kernel

theorem two_usable_links :
    ∃ c, (resets demoConfig).Reachable c
      ∧ (c.shared.world.usableLinks 1).map (·.token) = [100, 101] := by
  refine ⟨_, System.replay_reachable (M := resets demoConfig) (f := (accountService demoConfig).act)
    (fun _ _ _ h => h) forgotTwice nobodyIn nobodyIn_links
    (Option.some_get forgotTwice_runs).symm, ?_⟩
  decide +kernel

/-- Asked for, asked for again, used, and asked for once more. -/
def forgotAgain : List (ServiceEvent AccountRequest Outside) :=
  [.begin 0 forgot, .run 0, .run 0, .run 0, .begin 1 forgot, .run 1, .run 1, .run 1,
    .begin 2 (.session (.resetPassword 101 "bcrypt:thukpa")), .run 2, .run 2, .env (.elapses 5),
    .run 2, .run 2, .run 2, .begin 3 forgot, .run 3, .run 3, .run 3]

theorem forgotAgain_runs :
    (System.replay ((accountService demoConfig).actIf NoneSince) forgotAgain nobodyIn).isSome
      = true := by
  decide +kernel

/-- Three links, of which the last one works. -/
theorem one_usable_link_again :
    ∃ c : InFlight Accounts AccountTask,
      c.shared.world.resetTokens.map (·.token) = [100, 101, 102]
        ∧ (c.shared.world.usableLinks 1).map (·.token) = [102] ∧ c.shared.world.OneLink := by
  have h := System.replay_reachable (M := (resets demoConfig).restrict (Service.Allowed NoneSince))
    (f := (accountService demoConfig).actIf NoneSince) Service.actIf_step forgotAgain nobodyIn
    nobodyIn_links (Option.some_get forgotAgain_runs).symm
  refine ⟨_, ?_, ?_, (one_usable_link demoConfig h).1⟩
  · decide +kernel
  · decide +kernel

end OraOS.Auth
