/-
  OraOS.Auth.OneLive — one session, one live token.

  A family has a live token, or one request that has consumed it and not yet inserted
  the next.  `rotate` consumes a token by an UPDATE that finds it unrevoked or fails;
  `rotateForReissue` reads it first and then updates whatever is there, so two requests
  may consume one token.

    * `carries`          — the family a request has consumed a token of;
    * `oneLive_permits`  — what a request makes live it has consumed before;
    * `one_live_token`   — at most one live token of a family, as long as no request
                           consumes what another has consumed;
    * `two_live_tokens`  — and two of them when it does.
-/
import OraOS.Auth.Reuse

namespace OraOS.Auth

open OraOS.Api
open OraOS.Lib

/-! ## §1. Live and consumed. -/

/-- The tokens of a family that are not revoked. -/
def World.liveOf (w : World) (familyId : Uuid) : List RefreshToken :=
  w.refreshTokens.filter fun t => decide (t.familyId = familyId) && t.revokedAt.isNone

/-- The family whose token a request has consumed and is to replace. -/
def carries : Task → Option Uuid
  | .readActive existing _ => some existing.familyId
  | .refreshClaims _ existing _ => some existing.familyId
  | .sign ticket => ticket.familyId
  | .insert ticket _ => ticket.familyId
  | _ => none

/-- The UPDATE of `rotateForReissue` hits a token of the family that has been revoked
since it was read: the request replaces what another has consumed or ended. -/
def revives (w : World) : Task → Uuid → Prop
  | .consumeCookie _ existing, f => existing.familyId = f ∧ w.live existing.token = false
  | _, _ => False

/-- The token that is consumed is still live. -/
def CookieLive (w : World) : Task → Prop
  | .consumeCookie _ existing => w.live existing.token = true
  | _ => True

instance (w : World) (t : Task) : Decidable (CookieLive w t) := by
  unfold CookieLive
  split <;> infer_instance

/-- A cookie that has been revoked since it was read is only consumed when its family
has no live token, and no request that is about to insert one. -/
def ReissuesAlone (c : InFlight World Task) : ServiceEvent Request ℕ → Prop
  | .run i => ∀ ticket existing, c.running i = some (.consumeCookie ticket existing) →
      c.shared.live existing.token = false → c.shared.liveOf existing.familyId = []
        ∧ ∀ j t, c.running j = some t → carries t ≠ some existing.familyId
  | _ => True

/-- Tokens and families are told apart from those to come. -/
structure TokenInv (w : World) : Prop extends TokenKeys w where
  families : ∀ t ∈ w.refreshTokens, t.familyId < w.fresh

/-- A ticket names no family, or one that is in the table. -/
def World.Continues (w : World) (ticket : Ticket) : Prop :=
  ∀ f ∈ ticket.familyId, ∃ t ∈ w.refreshTokens, t.familyId = f

/-- What a request knows of the token it has read or consumed. -/
def KnowsToken (w : World) : Task → Prop
  | .readEpoch existing => w.Row existing
  | .readFamily existing _ => w.Row existing
  | .claim existing => w.Row existing
  | .readActive existing _ => w.Row existing
  | .refreshClaims _ existing _ => w.Row existing
  | .findCookie ticket _ => ticket.familyId = none
  | .consumeCookie ticket existing => ticket.familyId = none ∧ w.Row existing
  | .sign ticket => w.Continues ticket
  | .insert ticket _ => w.Continues ticket
  | _ => True

/-! ## §2. The statements, one by one. -/

section

variable {w w' : World} {cfg : AuthConfig}

/-- Rows are only revoked and added. -/
theorem TokenStep.grown {t : Task} (h : TokenStep cfg w t w') : Grown w w' := by
  cases h with
  | revoked _ f hf htokens hfresh =>
      refine ⟨?_, ?_, hfresh.ge⟩
      · intro x hx
        refine ⟨f x, ?_, hf x⟩
        rw [htokens]
        exact List.mem_map_of_mem hx
      · intro x' hx'
        rw [htokens] at hx'
        obtain ⟨x, hx, rfl⟩ := List.mem_map.mp hx'
        exact .inl ⟨x, hx, hf x⟩
  | @issued ticket iat late =>
      exact (evolves_issue cfg w ticket.claims ticket.familyId iat ticket.checkedAfter late).grown

/-- The family of a row is one that has been handed out. -/
theorem World.Row.family_lt {existing : RefreshToken} (h : w.Row existing) (hw : TokenInv w) :
    existing.familyId < w.fresh := by
  obtain ⟨t, ht, hb⟩ := h.present
  rw [← hb.familyId]
  exact hw.families t ht

/-- Revoking keeps the invariant. -/
theorem TokenInv.revoked (hw : TokenInv w) {f : RefreshToken → RefreshToken}
    (hf : ∀ t : RefreshToken, t.Becomes (f t)) (htokens : w'.refreshTokens = w.refreshTokens.map f)
    (hfresh : w'.fresh = w.fresh) : TokenInv w' where
  fresh t' ht' := by
    rw [htokens] at ht'
    obtain ⟨t, ht, rfl⟩ := List.mem_map.mp ht'
    rw [(hf t).token, hfresh]
    exact hw.fresh t ht
  nodup := by
    have hsame : w'.refreshTokens.map (·.token) = w.refreshTokens.map (·.token) := by
      rw [htokens, List.map_map]
      exact List.map_congr_left fun t _ => (hf t).token
    rw [hsame]
    exact hw.nodup
  families t' ht' := by
    rw [htokens] at ht'
    obtain ⟨t, ht, rfl⟩ := List.mem_map.mp ht'
    rw [(hf t).familyId, hfresh]
    exact hw.families t ht

theorem TokenInv.issued (hw : TokenInv w) {claims : Claims} {familyId : Option Uuid} (iat : ℤ)
    (checkedAfter : ℕ) (late : Bool) (hfamily : ∀ f ∈ familyId, f < w.fresh) :
    TokenInv (w.issue cfg claims familyId iat checkedAfter late) where
  fresh t ht := by
    rcases List.mem_append.mp ht with hold | hnew
    · exact Nat.lt_add_right 2 (hw.fresh t hold)
    · rw [List.mem_singleton.mp hnew]
      exact Nat.lt_add_of_pos_right (Nat.succ_pos 1)
  nodup := nodup_keys_append hw.nodup fun t ht => (hw.fresh t ht).ne
  families t ht := by
    rcases List.mem_append.mp ht with hold | hnew
    · exact Nat.lt_add_right 2 (hw.families t hold)
    · rw [List.mem_singleton.mp hnew]
      show familyId.getD (w.fresh + 1) < w.fresh + 2
      cases hf : familyId with
      | none => exact Nat.lt_succ_self _
      | some f => exact Nat.lt_add_right 2 (hfamily f hf)

/-- A token that goes back to a row is of that row's family. -/
theorem World.Row.continues {existing : RefreshToken} (h : w.Row existing) {ticket : Ticket}
    (hfamily : ticket.familyId = some existing.familyId) : w.Continues ticket := by
  intro f hf
  rw [hfamily] at hf
  cases hf
  obtain ⟨t, ht, hb⟩ := h.present
  exact ⟨t, ht, hb.familyId⟩

/-- One that starts a family continues none. -/
theorem continues_none {ticket : Ticket} (h : ticket.familyId = none) : w.Continues ticket := by
  intro f hf
  rw [h] at hf
  cases hf

/-- What is continued stays in the table. -/
theorem World.Continues.grown {ticket : Ticket} (h : w.Continues ticket) (hg : Grown w w') :
    w'.Continues ticket := by
  intro f hf
  obtain ⟨t, ht, hfamily⟩ := h f hf
  obtain ⟨t', ht', hb⟩ := hg.kept t ht
  exact ⟨t', ht', hb.familyId.trans hfamily⟩

theorem World.Continues.lt {ticket : Ticket} (h : w.Continues ticket) (hw : TokenInv w) :
    ∀ f ∈ ticket.familyId, f < w.fresh := by
  intro f hf
  obtain ⟨t, ht, rfl⟩ := h f hf
  exact hw.families t ht

/-- What is known of a token stays known. -/
theorem knowsToken_grown {t : Task} (hg : Grown w w') (h : KnowsToken w t) : KnowsToken w' t := by
  cases t with
  | readEpoch | readFamily | claim | readActive | refreshClaims => exact World.Row.grown h hg
  | findCookie => exact h
  | consumeCookie => exact ⟨h.1, World.Row.grown h.2 hg⟩
  | sign | insert => exact World.Continues.grown h hg
  | _ => trivial

/-- What a request knows after a statement. -/
theorem knowsToken_next {t t' : Task} (hw : TokenKeys w) (h : KnowsToken w t)
    (hnext : (next cfg w t).2 = some t') : KnowsToken (next cfg w t).1 t' := by
  refine knowsToken_grown (next_tokenStep cfg w t).grown ?_
  cases next_task hnext with
  -- a row that has just been read
  | presented hfind => exact row_of_findToken hw hfind
  | cookie hfind => exact ⟨h, row_of_findToken hw hfind⟩
  -- the rest of `rotate` passes it on
  | neverRevoked | revokedOnce | youngerFamily | claimed | active => exact h
  | refreshed => exact World.Row.continues h rfl
  | consumed => exact h.2.continues rfl
  -- a ticket without a family
  | login | member => exact continues_none rfl
  | memberWithCookie => rfl
  | spentCookie => exact continues_none h
  | signed => exact h
  | _ => trivial

/-- Who replaces a token of a family has carried it on, or has just consumed one. -/
theorem carries_next {t t' : Task} {f : Uuid} (h : KnowsToken w t)
    (hnext : (next cfg w t).2 = some t') (hf : carries t' = some f) : carries t = some f
      ∨ (∃ existing, t = .claim existing ∧ existing.familyId = f ∧ w.live existing.token = true)
      ∨ ∃ ticket existing, t = .consumeCookie ticket existing ∧ existing.familyId = f := by
  cases next_task hnext with
  | claimed hlive => exact .inr (.inl ⟨_, rfl, by simpa [carries] using hf, hlive⟩)
  | consumed => exact .inr (.inr ⟨_, _, rfl, by simpa [carries] using hf⟩)
  | active | refreshed | signed => exact .inl hf
  | @spentCookie ticket =>
      -- the ticket of a selection has no family before its cookie is consumed
      have hnone : ticket.familyId = none := h
      have hsome : ticket.familyId = some f := hf
      rw [hnone] at hsome
      cases hsome
  | _ => cases hf

/-! ## §3. Counting the live tokens. -/

/-- The rows that count. -/
def isLiveOf (familyId : Uuid) (t : RefreshToken) : Bool :=
  decide (t.familyId = familyId) && t.revokedAt.isNone

/-- The live tokens of a family, counted. -/
theorem length_liveOf (w : World) (f : Uuid) :
    (w.liveOf f).length = w.refreshTokens.countP (isLiveOf f) :=
  List.countP_eq_length_filter.symm

/-- What is live now was live before. -/
theorem isLiveOf_becomes {f : Uuid} {t t' : RefreshToken} (h : t.Becomes t')
    (hlive : isLiveOf f t' = true) : isLiveOf f t = true := by
  simp only [isLiveOf, Bool.and_eq_true, decide_eq_true_eq, Option.isNone_iff_eq_none] at hlive ⊢
  exact ⟨h.familyId.symm.trans hlive.1, h.revoked hlive.2⟩

/-- A statement that revokes makes no token live. -/
theorem liveOf_revoked {g : RefreshToken → RefreshToken} (hg : ∀ t : RefreshToken, t.Becomes (g t))
    (htokens : w'.refreshTokens = w.refreshTokens.map g) (f : Uuid) :
    (w'.liveOf f).length ≤ (w.liveOf f).length := by
  rw [length_liveOf, length_liveOf, htokens, List.countP_map]
  exact List.countP_mono_left fun t _ => isLiveOf_becomes (hg t)

/-- Revoking makes no token live. -/
theorem liveOf_stamp (w : World) (p : RefreshToken → Bool) (at_ : Instant) (f : Uuid) :
    ((w.stamp p at_).liveOf f).length ≤ (w.liveOf f).length := by
  obtain ⟨g, hg, htokens⟩ := (quiet_stamp w p at_).tokens
  exact liveOf_revoked hg htokens f

/-- A token that was live and is stamped is one less. -/
theorem liveOf_consumed {existing : RefreshToken} (hrow : w.Row existing)
    (hlive : w.live existing.token = true) {p : RefreshToken → Bool}
    (hp : ∀ t : RefreshToken, t.token = existing.token → t.revokedAt = none → p t = true)
    (at_ : Instant) :
    ((w.stamp p at_).liveOf existing.familyId).length < (w.liveOf existing.familyId).length := by
  obtain ⟨t, ht, htoken, hnone⟩ := World.live_iff.mp hlive
  have hfamily : t.familyId = existing.familyId := (hrow.same t ht htoken).familyId
  rw [length_liveOf, length_liveOf]
  refine countP_map_lt ?_ ht ?_ ?_
  · intro x
    split
    · simp [isLiveOf]
    · exact id
  · simp [isLiveOf, hfamily, hnone]
  · rw [if_pos (hp t htoken hnone)]
    simp [isLiveOf]

/-- The token that is issued is live, and no other becomes so. -/
theorem liveOf_issue (cfg : AuthConfig) (w : World) (claims : Claims) (familyId : Option Uuid)
    (iat : ℤ) (checkedAfter : ℕ) (late : Bool) (f : Uuid) :
    ((w.issue cfg claims familyId iat checkedAfter late).liveOf f).length
      = (w.liveOf f).length + if familyId.getD (w.fresh + 1) = f then 1 else 0 := by
  rw [length_liveOf, length_liveOf]
  show (w.refreshTokens ++ _).countP _ = _
  rw [List.countP_append, List.countP_singleton]
  simp [isLiveOf]

/-! ## §4. One live token. -/

/-- What a request has read of the tokens stands, whatever others do. -/
theorem oneLive_relyGuarantee (cfg : AuthConfig) :
    (authService cfg).RelyGuarantee (fun _ _ => True) TokenInv KnowsToken Grown where
  receive w r t _ hreceive := by
    cases receive_task hreceive with
    | _ => trivial
  next w t hw h _ := by
    have hstep := next_tokenStep cfg w t
    refine ⟨?_, hstep.grown, fun t' hnext => knowsToken_next hw.toTokenKeys h hnext⟩
    show TokenInv (next cfg w t).1
    generalize (next cfg w t).1 = w' at hstep
    cases hstep with
    | revoked _ g hg htokens hfresh => exact hw.revoked hg htokens hfresh
    | issued late => exact hw.issued _ _ late (World.Continues.lt h hw)
  env w elapsed hw :=
    ⟨hw.revoked .refl (List.map_id _).symm rfl, (quiet_tick w elapsed).evolves.grown⟩
  stable _ _ _ _ hg h := knowsToken_grown hg h

/-- A request that goes on with a permit had it, or takes a live token for it, or revives
what was dead. -/
theorem permit_handed {t t' : Task} {f : Uuid} (h : KnowsToken w t)
    (hnext : (next cfg w t).2 = some t') (hf : carries t' = some f) :
    ((next cfg w t).1.liveOf f).length + 1
        ≤ (w.liveOf f).length + Service.heldBy carries (some t) f
      ∨ revives w t f ∧ ((next cfg w t).1.liveOf f).length + 1 ≤ (w.liveOf f).length + 1 := by
  rcases carries_next h hnext hf with hcarried | ⟨existing, rfl, rfl, hlive⟩
      | ⟨ticket, existing, rfl, rfl⟩
  · -- carried on, while tokens are at most revoked
    left
    rw [Service.heldBy_some hcarried]
    refine Nat.add_le_add_right ?_ 1
    have hstep := next_tokenStep cfg w t
    generalize (next cfg w t).1 = w' at hstep
    cases hstep with
    | revoked _ g hg htokens _ => exact liveOf_revoked hg htokens f
    | issued late => cases hnext
  · left
    have hless := liveOf_consumed h hlive (p := fun t =>
      decide (t.token = existing.token) && t.revokedAt.isNone) (by simp +contextual) w.now
    have hclaimed : (next cfg w (.claim existing)).1 = w.revokeByToken existing.token := by
      simp only [next, if_pos hlive]
    rw [hclaimed]
    show ((w.stamp _ w.now).liveOf existing.familyId).length + 1 ≤ _
    omega
  · cases hlive : w.live existing.token with
    | true =>
        left
        have hless := liveOf_consumed h.2 hlive (p := fun t =>
          decide (t.token = existing.token)) (by simp +contextual) w.now
        show ((w.stamp _ w.now).liveOf existing.familyId).length + 1 ≤ _
        omega
    | false =>
        right
        refine ⟨⟨rfl, hlive⟩, Nat.add_le_add_right ?_ 1⟩
        exact liveOf_stamp w _ w.now existing.familyId

/-- A request that goes on without one leaves what there is, inserts the token it stands
for, or starts a family. -/
theorem permit_left (cfg : AuthConfig) (w : World) (t : Task) (f : Uuid) :
    ((next cfg w t).1.liveOf f).length ≤ (w.liveOf f).length + Service.heldBy carries (some t) f
      ∨ ¬ f < w.fresh ∧ ((next cfg w t).1.liveOf f).length ≤ (w.liveOf f).length + 1 := by
  have hstep := next_tokenStep cfg w t
  generalize (next cfg w t).1 = w' at hstep
  cases hstep with
  | revoked _ g hg htokens _ =>
      exact .inl ((liveOf_revoked hg htokens f).trans (Nat.le_add_right _ _))
  | @issued ticket iat late =>
      rw [liveOf_issue]
      by_cases hfamily : ticket.familyId.getD (w.fresh + 1) = f
      · rw [if_pos hfamily]
        cases hticket : ticket.familyId with
        | none =>
            -- a family that starts here
            right
            rw [hticket] at hfamily
            refine ⟨?_, le_refl _⟩
            exact not_lt.mpr (hfamily ▸ Nat.le_succ w.fresh)
        | some g =>
            left
            rw [hticket] at hfamily
            have hholds : carries (.insert ticket iat) = some f :=
              hticket.trans (congrArg some hfamily)
            rw [Service.heldBy_some hholds]
      · rw [if_neg hfamily]
        exact .inl (Nat.le_add_right _ _)

/-- A stamp on a token that is not live leaves those that are. -/
theorem liveOf_revived {existing : RefreshToken} (hdead : w.live existing.token = false) (f : Uuid) :
    (w.liveOf f).length
      ≤ ((w.stamp (fun t => decide (t.token = existing.token)) w.now).liveOf f).length := by
  rw [length_liveOf, length_liveOf]
  show _ ≤ (w.refreshTokens.map _).countP _
  rw [List.countP_map]
  refine List.countP_mono_left ?_
  intro x hx hlive
  have hother : x.token ≠ existing.token := by
    intro htoken
    have hnone : x.revokedAt = none := by
      simpa using (Bool.and_eq_true_iff.mp hlive).2
    rw [World.live_iff.mpr ⟨x, hx, htoken, hnone⟩] at hdead
    cases hdead
  simpa [hother] using hlive

/-- **A live token is the permit of its family**: whatever inserts one has consumed one,
or starts a family; only `rotateForReissue` may consume what is no longer there. -/
theorem oneLive_permits (cfg : AuthConfig) :
    (authService cfg).Permits TokenInv KnowsToken (fun w f => f < w.fresh) revives
      (fun w f => (w.liveOf f).length) carries where
  receive w r t hreceive := by
    cases receive_task hreceive with
    | _ => rfl
  next w t hw h f := by
    show ((next cfg w t).1.liveOf f).length + Service.heldBy carries (next cfg w t).2 f ≤ _
      ∨ _ ∧ ((next cfg w t).1.liveOf f).length + Service.heldBy carries (next cfg w t).2 f ≤ _
    by_cases hmoves : ∃ t', (next cfg w t).2 = some t' ∧ carries t' = some f
    · obtain ⟨t', hnext, hf⟩ := hmoves
      rw [hnext, Service.heldBy_some hf]
      exact (permit_handed h hnext hf).imp_right fun hrevived => ⟨.inr hrevived.1, hrevived.2⟩
    · have hnone : Service.heldBy carries (next cfg w t).2 f = 0 :=
        Service.heldBy_not fun t' hnext hf => hmoves ⟨t', hnext, hf⟩
      rw [hnone, Nat.add_zero]
      exact (permit_left cfg w t f).imp_right fun hstarts => ⟨.inl hstarts.1, hstarts.2⟩
  made w t f hmakes := by
    cases t with
    | consumeCookie ticket existing =>
        obtain ⟨rfl, hdead⟩ := hmakes
        exact ⟨rfl, liveOf_revived hdead _, _, rfl, rfl⟩
    | _ => exact hmakes.elim
  env w elapsed f := le_refl _
  loose_used w f hw hloose := by
    rw [length_liveOf] at hloose
    obtain ⟨t, ht, hlive⟩ := List.countP_pos_iff.mp (Nat.pos_of_ne_zero hloose)
    have hfamily : t.familyId = f := by simpa using (Bool.and_eq_true_iff.mp hlive).1
    exact hfamily ▸ hw.families t ht
  held_used w t f hw h hf := by
    cases t with
    | readActive | refreshClaims =>
        cases hf
        exact World.Row.family_lt h hw
    | sign | insert => exact World.Continues.lt h hw f hf
    | _ => cases hf

/-- A world to start from in which every session has one live token at most. -/
structure World.OneLive (w : World) : Prop extends w.Opening where
  families : ∀ t ∈ w.refreshTokens, t.familyId < w.fresh
  oneLive : ∀ f, (w.liveOf f).length ≤ 1

/-- The sessions that start from such a world. -/
def oneLiveSessions (cfg : AuthConfig) : System (InFlight World Task) (ServiceEvent Request ℕ) :=
  (authService cfg).interleaved World.OneLive

/-- One token at most, live or about to be inserted, in each family. -/
def OneToken (c : InFlight World Task) : Prop :=
  Service.OnePermit (fun w f => (w.liveOf f).length) carries c

/-- The condition of the permit rule, in terms of the cookies that are consumed. -/
theorem alone_iff (c : InFlight World Task) (e : ServiceEvent Request ℕ) :
    Service.Alone revives (fun w f => (w.liveOf f).length) carries c e ↔ ReissuesAlone c e := by
  cases e with
  | run i =>
      constructor
      · intro h ticket existing hi hdead
        obtain ⟨hzero, hnobody⟩ := h _ hi existing.familyId ⟨rfl, hdead⟩
        exact ⟨List.length_eq_zero_iff.mp hzero, hnobody⟩
      · intro h t hi f hrevives
        cases t with
        | consumeCookie ticket existing =>
            obtain ⟨rfl, hdead⟩ := hrevives
            obtain ⟨hnil, hnobody⟩ := h ticket existing hi hdead
            exact ⟨List.length_eq_zero_iff.mpr hnil, hnobody⟩
        | _ => exact hrevives.elim
  | begin i r => exact Iff.rfl
  | drop i => exact Iff.rfl
  | env n => exact Iff.rfl

/-- The invariant holds at the start. -/
theorem World.OneLive.tokenInv (h : w.OneLive) : TokenInv w where
  fresh := h.tokens_fresh
  nodup := h.tokens_nodup
  families := h.families

theorem oneToken_of_reachable {c : InFlight World Task}
    (h : ((oneLiveSessions cfg).restrict ReissuesAlone).Reachable c) : OneToken c := by
  refine Service.one_permit (oneLive_relyGuarantee cfg) (oneLive_permits cfg) ?_ ?_ h
  · exact fun c e halone => ⟨Service.allowed_true c e, (alone_iff c e).mpr halone⟩
  · exact fun w hw => ⟨hw.tokenInv, hw.oneLive⟩

/-- What the tables and the requests know holds in every run. -/
theorem oneLive_knows {c : InFlight World Task}
    (h : ((oneLiveSessions cfg).restrict ReissuesAlone).Reachable c) :
    TokenInv c.shared ∧ ∀ i t, c.running i = some t → KnowsToken c.shared t := by
  exact Service.rely_guarantee (oneLive_relyGuarantee cfg) (fun _ hw => hw.tokenInv)
    (System.restrict_mono (fun c e _ _ => Service.allowed_true c e) h)

/-- **One session, one live token**, in the runs in which a cookie that has been revoked
since it was read is only consumed when its family has no other; and a step that consumes
one otherwise is what leaves a second token, live or about to be. -/
theorem one_live_token (cfg : AuthConfig) {c : InFlight World Task}
    (h : ((oneLiveSessions cfg).restrict ReissuesAlone).Reachable c) :
    (∀ familyId, (c.shared.liveOf familyId).length ≤ 1)
      ∧ ∀ e c', (oneLiveSessions cfg).step c e c' → (OneToken c' ↔ ReissuesAlone c e) := by
  have hone := oneToken_of_reachable h
  obtain ⟨hw, hknows⟩ := oneLive_knows h
  refine ⟨fun f => (hone f).1, ?_⟩
  intro e c' hstep
  exact (Service.onePermit_step (oneLive_permits cfg) hw hknows hone hstep).trans (alone_iff c e)

end

/-! ## §5. Two live tokens. -/

/-- One user, who manages one restaurant, signed in nowhere. -/
def oneManager : World :=
  { oneUser with
    directory := ⟨[⟨7, ⟨1, "Asha", "asha@example.com"⟩, 9, ⟨.manager, "Manager", []⟩, true, 0⟩],
      [⟨9, "Momo House", "momo-house", none, none, none, none, none, none, 0⟩], [],
      by decide, by decide⟩ }

theorem oneManager_oneLive : oneManager.OneLive where
  toOpening := ⟨nofun, List.nodup_nil, nofun, oneUser_opening.epoch_past, nofun, by decide,
    fun _ => rfl, nofun, nofun⟩
  families := nofun
  oneLive _ := Nat.zero_le 1

/-- No request in flight. -/
def nobodyYet : InFlight World Task := ⟨oneManager, fun _ => none⟩

theorem nobodyYet_init : (oneLiveSessions demoConfig).init nobodyYet :=
  ⟨oneManager_oneLive, fun _ => rfl⟩

/-- The access token of a sign-in. -/
def managerAccess : AccessToken :=
  ⟨⟨1, "asha@example.com", some 9, some 7, some .manager, []⟩, 1000, 0, false⟩

/-- Signed in, then the restaurant selected with the cookie, one statement after the
other. -/
def selectedOnce : List (ServiceEvent Request ℕ) :=
  [.begin 0 signIn, .run 0, .run 0, .run 0, .run 0, .run 0,
    .begin 1 (.selectRestaurant managerAccess 9 (some 100)), .run 1, .run 1, .run 1, .run 1,
    .run 1, .run 1]

theorem selectedOnce_runs :
    (System.replay ((authService demoConfig).actIf CookieLive) selectedOnce nobodyYet).isSome
      = true := by
  decide +kernel

/-- A cookie that is live when it is consumed is consumed alone. -/
theorem CookieLive.reissuesAlone {c : InFlight World Task} {e : ServiceEvent Request ℕ}
    (h : Service.Allowed CookieLive c e) : ReissuesAlone c e := by
  cases e with
  | run i =>
      intro ticket existing hi hdead
      have hlive : c.shared.live existing.token = true := h _ hi
      rw [hdead] at hlive
      cases hlive
  | _ => trivial

/-- The token that replaced the cookie is the one live token of the session. -/
theorem one_live_token_selected :
    ∃ c : InFlight World Task, (c.shared.liveOf 101).map (·.token) = [102]
      ∧ ∀ familyId, (c.shared.liveOf familyId).length ≤ 1 := by
  have h := System.replay_reachable
    (M := (oneLiveSessions demoConfig).restrict (Service.Allowed CookieLive))
    (f := (authService demoConfig).actIf CookieLive) Service.actIf_step selectedOnce nobodyYet
    nobodyYet_init (Option.some_get selectedOnce_runs).symm
  refine ⟨_, ?_, (one_live_token demoConfig
    (System.restrict_mono (fun _ _ _ => CookieLive.reissuesAlone) h)).1⟩
  decide +kernel

/-- Signed in, then the restaurant selected by two requests at once: both read the
cookie before either has revoked it. -/
def selectedTwice : List (ServiceEvent Request ℕ) :=
  [.begin 0 signIn, .run 0, .run 0, .run 0, .run 0, .run 0,
    .begin 1 (.selectRestaurant managerAccess 9 (some 100)), .run 1, .run 1, .run 1,
    .begin 2 (.selectRestaurant managerAccess 9 (some 100)), .run 2, .run 2, .run 2,
    .run 1, .run 1, .run 1, .run 2, .run 2, .run 2]

theorem selectedTwice_runs :
    (System.replay (authService demoConfig).act selectedTwice nobodyYet).isSome = true := by
  decide +kernel

/-- Both insert a token of the family. -/
theorem two_live_tokens :
    ∃ c, (oneLiveSessions demoConfig).Reachable c
      ∧ (c.shared.liveOf 101).map (·.token) = [102, 104] := by
  refine ⟨_, System.replay_reachable (M := oneLiveSessions demoConfig)
    (f := (authService demoConfig).act) (fun _ _ _ h => h) selectedTwice nobodyYet nobodyYet_init
    (Option.some_get selectedTwice_runs).symm, ?_⟩
  decide +kernel

end OraOS.Auth
