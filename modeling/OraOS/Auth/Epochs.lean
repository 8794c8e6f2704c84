/-
  OraOS.Auth.Epochs — what the requests do to the clock and to the epochs.

  Here nothing is asked of the order of the statements: whatever they are, tokens
  are signed after the first second of the epoch, and the users that are revoked
  exist.

    * `next_epochs`    — a statement adds a token, or moves an epoch, or neither;
    * `sessions_clock` — what holds of the tokens and of the requests in every run.
-/
import OraOS.Auth.Reuse

namespace OraOS.Auth

open OraOS.Api
open OraOS.Lib
open OraOS.Tenancy

/-- The tokens there are were signed after the first second. -/
structure ClockInv (w : World) : Prop where
  clock : 1000 ≤ w.now
  iat_ne : ∀ a ∈ w.issued, a.iat ≠ 0

/-- What a request about to issue or to revoke knows. -/
def KnowsClock (w : World) : Task → Prop
  | .insert _ iat => iat ≠ 0
  | .revokeAll userId _ _ => (w.findUser userId).isSome = true
  | _ => True

/-- Time does not go back, and users stay. -/
structure Lasting (w w' : World) : Prop where
  now : w.now ≤ w'.now
  users : ∀ u, (w.findUser u).isSome = true → (w'.findUser u).isSome = true

variable {cfg : AuthConfig} {w w' : World}

/-- A quiet statement turns no clock back and removes no user. -/
theorem Quiet.lasting (h : Quiet w w') : Lasting w w' := ⟨h.now, h.users⟩

/-- What a statement does to the clock, the tokens and the epochs: an issue adds a token,
a revocation moves one epoch, and the others do neither. -/
theorem next_epochs (cfg : AuthConfig) (w : World) (t : Task) : Lasting w (next cfg w t).1
    ∧ ((next cfg w t).1.issued = w.issued
      ∨ ∃ ticket iat a, t = .insert ticket iat ∧ a.iat = iat
        ∧ (next cfg w t).1.issued = w.issued ++ [a])
    ∧ ((∀ u, (next cfg w t).1.epochOf u = w.epochOf u)
      ∨ ∃ userId at_ swept, t = .revokeAll userId at_ swept) := by
  -- of the statements only an insert signs a token and only a sweep moves an epoch
  have hquiet : ∀ {w'}, Quiet w w' → Lasting w w' ∧ (w'.issued = w.issued
      ∨ ∃ ticket iat a, t = .insert ticket iat ∧ a.iat = iat ∧ w'.issued = w.issued ++ [a])
      ∧ ((∀ u, w'.epochOf u = w.epochOf u) ∨ ∃ userId at_ swept, t = .revokeAll userId at_ swept) :=
    fun h => ⟨h.lasting, .inl h.issued, .inl h.epoch⟩
  cases t with
  | insert ticket iat =>
      exact ⟨⟨le_refl _, fun _ => id⟩, .inr ⟨ticket, iat, _, rfl, rfl, rfl⟩, .inl fun _ => rfl⟩
  | revokeAll userId at_ swept =>
      refine ⟨⟨le_refl _, ?_⟩, .inl rfl, .inr ⟨userId, at_, swept, rfl⟩⟩
      intro u hu
      show ((w.revokeAll userId at_ swept).findUser u).isSome = true
      rw [findUser_revokeAll, Option.isSome_map]
      exact hu
  | _ => exact hquiet (next_quiet cfg w (by simp) (by simp))

/-- What a request is about to issue was signed just now; whom it is about to revoke is a
user. -/
theorem knowsClock_next {t t' : Task} (hclock : 1000 ≤ w.now) (h : KnowsClock w t)
    (hnext : (next cfg w t).2 = some t') : KnowsClock w t' := by
  cases next_task hnext with
  | signed => exact second_ne_zero hclock
  | swept huser => exact huser
  | _ => trivial

/-- What a request knows of either stays known. -/
theorem knowsClock_lasting {t : Task} (hl : Lasting w w') (h : KnowsClock w t) :
    KnowsClock w' t := by
  cases t with
  | insert => exact h
  | revokeAll => exact hl.users _ h
  | _ => trivial

/-- The obligations, with no condition on the statements. -/
theorem clock_relyGuarantee (cfg : AuthConfig) :
    (authService cfg).RelyGuarantee (fun _ _ => True) ClockInv KnowsClock Lasting where
  receive w r t _ hreceive := by
    cases receive_task hreceive with
    | _ => trivial
  next w t hw h _ := by
    obtain ⟨hlasting, hissued, -⟩ := next_epochs cfg w t
    refine ⟨⟨hw.clock.trans hlasting.now, ?_⟩, hlasting, ?_⟩
    · intro a ha
      rcases hissued with hsame | ⟨ticket, iat, a', rfl, hiat, hadded⟩
      · exact hw.iat_ne a (hsame ▸ ha)
      · have ha' : a ∈ w.issued ++ [a'] := hadded ▸ ha
        rcases List.mem_append.mp ha' with hold | hnew
        · exact hw.iat_ne a hold
        · rw [List.mem_singleton.mp hnew, hiat]
          exact h
    · intro t' hnext
      exact knowsClock_lasting hlasting (knowsClock_next hw.clock h hnext)
  env w elapsed hw :=
    have hquiet := quiet_tick w elapsed
    ⟨⟨hw.clock.trans hquiet.now, hw.iat_ne⟩, hquiet.lasting⟩
  stable _ _ _ _ hl h := knowsClock_lasting hl h

/-- In every run of the requests. -/
theorem sessions_clock {c : InFlight World Task} (h : (sessions cfg).Reachable c) :
    ClockInv c.shared ∧ ∀ i t, c.running i = some t → KnowsClock c.shared t := by
  have hreach : ((sessions cfg).restrict (Service.Allowed fun _ _ => True)).Reachable c :=
    System.reachable_restrict Service.allowed_true h
  exact Service.rely_guarantee (clock_relyGuarantee cfg) (fun w hw => ⟨hw.clock, hw.iat_ne⟩) hreach

end OraOS.Auth
