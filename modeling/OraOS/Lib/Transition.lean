/-
  OraOS.Lib.Transition — labelled transition systems and their runs.

  A `System` is an initial condition and a step relation.  Everything a
  request-by-request or statement-by-statement argument needs of it:

    * `Reachable.invariant`    — what holds at the start and is kept by every
                                 step holds in every reachable state;
    * `Run.history`            — the same for what may speak of the run so far;
    * `restrict`               — the runs whose steps all meet a condition on
                                 the state before the step;
    * `replay_reachable`       — an executable trace is a run;
    * `replay_restricted`      — and of a restricted system if its steps meet the
                                 condition.
-/
import Mathlib.Tactic

namespace OraOS.Lib

/-- A labelled transition system over states `σ` and labels `α`. -/
structure System (σ α : Type*) where
  /-- The states a run may start from. -/
  init : σ → Prop
  /-- `step s a s'`: the label `a` takes `s` to `s'`. -/
  step : σ → α → σ → Prop

namespace System

variable {σ α : Type*}

/-! ## §1. Reachable states and the invariant rule. -/

/-- The states some run of `M` ends in. -/
inductive Reachable (M : System σ α) : σ → Prop where
  | init {s : σ} : M.init s → Reachable M s
  | step {s s' : σ} {a : α} : Reachable M s → M.step s a s' → Reachable M s'

/-- `s'` is reached from `s` by the labels `as`, in that order. -/
inductive Run (M : System σ α) : σ → List α → σ → Prop where
  | nil (s : σ) : Run M s [] s
  | cons {s s' s'' : σ} {a : α} {as : List α} :
      M.step s a s' → Run M s' as s'' → Run M s (a :: as) s''

/-- **The invariant rule**: initially true and kept by every step, so true in
every reachable state. -/
theorem Reachable.invariant {M : System σ α} (I : σ → Prop)
    (hinit : ∀ s, M.init s → I s)
    (hstep : ∀ s a s', I s → M.step s a s' → I s')
    {s : σ} (h : M.Reachable s) : I s := by
  induction h with
  | init h0 => exact hinit _ h0
  | step _ hs ih => exact hstep _ _ _ ih hs

/-- A run keeps what each of its steps keeps. -/
theorem Run.preserves {M : System σ α} (I : σ → Prop)
    (hstep : ∀ s a s', I s → M.step s a s' → I s')
    {s s' : σ} {as : List α} (h : M.Run s as s') : I s → I s' := by
  induction h with
  | nil s => exact id
  | cons hs _ ih => exact fun h => ih (hstep _ _ _ h hs)

/-- Following a run from a reachable state stays among the reachable ones. -/
theorem Reachable.run {M : System σ α} {s s' : σ} {as : List α}
    (h : M.Reachable s) (hr : M.Run s as s') : M.Reachable s' :=
  hr.preserves (fun s => M.Reachable s) (fun _ _ _ hs hst => hs.step hst) h

/-- Two runs, the second from where the first ends, are one. -/
theorem Run.append {M : System σ α} {s s' s'' : σ} {as bs : List α} (h : M.Run s as s')
    (hr : M.Run s' bs s'') : M.Run s (as ++ bs) s'' := by
  induction h with
  | nil s => exact hr
  | cons hs _ ih => exact .cons hs (ih hr)

/-- A run goes on by one step. -/
theorem Run.snoc {M : System σ α} {s s' s'' : σ} {as : List α} {a : α} (h : M.Run s as s')
    (hs : M.step s' a s'') : M.Run s (as ++ [a]) s'' :=
  h.append (.cons hs (.nil s''))

/-- **The history rule**: what holds before the first step, of no labels, and is kept by
one step more, holds at the end of every run; it may speak of the labels so far. -/
theorem Run.history {M : System σ α} {s₀ : σ} (I : List α → σ → Prop) (hinit : I [] s₀)
    (hstep : ∀ as s a s', M.Run s₀ as s → I as s → M.step s a s' → I (as ++ [a]) s')
    {as : List α} {s : σ} (h : M.Run s₀ as s) : I as s := by
  -- what is left of the run, after the part `before` of it
  have hrest : ∀ {as : List α} {t s : σ}, M.Run t as s →
      ∀ before, M.Run s₀ before t → I before t → I (before ++ as) s := by
    intro as t s hr
    induction hr with
    | nil t =>
        intro before _ hI
        rw [List.append_nil]
        exact hI
    | @cons t u s a as hs _ ih =>
        intro before hbefore hI
        have hlater := ih (before ++ [a]) (hbefore.snoc hs) (hstep _ _ _ _ hbefore hI hs)
        rw [List.append_assoc] at hlater
        exact hlater
  exact hrest h [] (.nil s₀) hinit

/-- `p` held after some of the labels so far. -/
def Earlier (p : List α → Prop) (past : List α) : Prop := ∃ upto, upto <+: past ∧ p upto

/-- What holds of all the labels so far held after some of them. -/
theorem Earlier.now {p : List α → Prop} {past : List α} (h : p past) : Earlier p past :=
  ⟨past, List.prefix_rfl, h⟩

theorem Earlier.later {p : List α → Prop} {past : List α} (h : Earlier p past) (a : α) :
    Earlier p (past ++ [a]) := by
  obtain ⟨upto, hpre, hp⟩ := h
  exact ⟨upto, hpre.trans (List.prefix_append past [a]), hp⟩

/-! ## §2. Runs whose steps all meet a condition. -/

/-- The runs of `M` in which every step is taken in a state meeting `C`. -/
def restrict (M : System σ α) (C : σ → α → Prop) : System σ α where
  init := M.init
  step s a s' := C s a ∧ M.step s a s'

theorem restrict_reachable {M : System σ α} {C : σ → α → Prop} {s : σ}
    (h : (M.restrict C).Reachable s) : M.Reachable s := by
  induction h with
  | init h0 => exact .init h0
  | step _ hs ih => exact ih.step hs.2

/-- It is enough that the one condition gives the other in the states of some run. -/
theorem restrict_mono {M : System σ α} {C D : σ → α → Prop}
    (hCD : ∀ s a, M.Reachable s → C s a → D s a) {s : σ}
    (h : (M.restrict C).Reachable s) : (M.restrict D).Reachable s := by
  induction h with
  | init h0 => exact .init h0
  | step hprev hs ih => exact ih.step ⟨hCD _ _ (restrict_reachable hprev) hs.1, hs.2⟩

/-- The same for runs from any state. -/
theorem restrict_run_mono {M : System σ α} {C D : σ → α → Prop} (hCD : ∀ s a, C s a → D s a)
    {s s' : σ} {as : List α} (h : (M.restrict C).Run s as s') : (M.restrict D).Run s as s' := by
  induction h with
  | nil s => exact .nil s
  | cons hs _ ih => exact .cons ⟨hCD _ _ hs.1, hs.2⟩ ih

/-- A condition that every step meets restricts nothing. -/
theorem reachable_restrict {M : System σ α} {C : σ → α → Prop} (hC : ∀ s a, C s a) {s : σ}
    (h : M.Reachable s) : (M.restrict C).Reachable s := by
  induction h with
  | init h0 => exact .init h0
  | step _ hs ih => exact ih.step ⟨hC _ _, hs⟩

/-! ## §3. Executable systems. -/

/-- Runs a partial step function along a trace. -/
def replay (f : σ → α → Option σ) : List α → σ → Option σ
  | [], s => some s
  | a :: as, s => (f s a).bind (replay f as)

/-- A trace that the step function accepts is a run of every system whose
steps include the function's. -/
theorem replay_run {M : System σ α} {f : σ → α → Option σ}
    (hf : ∀ s a s', f s a = some s' → M.step s a s') :
    ∀ (as : List α) (s s' : σ), replay f as s = some s' → M.Run s as s'
  | [], s, s', h => by
      injection h with h
      subst h
      exact .nil s
  | a :: as, s, s', h => by
      simp only [replay, Option.bind_eq_some_iff] at h
      obtain ⟨t, ha, has⟩ := h
      exact .cons (hf _ _ _ ha) (replay_run hf as t s' has)

theorem replay_reachable {M : System σ α} {f : σ → α → Option σ}
    (hf : ∀ s a s', f s a = some s' → M.step s a s') (as : List α) (s : σ) {s' : σ}
    (h0 : M.init s) (h : replay f as s = some s') : M.Reachable s' :=
  (Reachable.init h0).run (replay_run hf as s s' h)

/-- A step function that refuses the steps that do not meet `C`. -/
def guarded (C : σ → α → Prop) [∀ s a, Decidable (C s a)] (f : σ → α → Option σ) :
    σ → α → Option σ :=
  fun s a => if C s a then f s a else none

theorem guarded_step {M : System σ α} {C : σ → α → Prop} [∀ s a, Decidable (C s a)]
    {f : σ → α → Option σ} (hf : ∀ s a s', f s a = some s' → M.step s a s') (s : σ) (a : α)
    (s' : σ) (h : guarded C f s a = some s') : (M.restrict C).step s a s' := by
  unfold guarded at h
  split at h
  next hC => exact ⟨hC, hf s a s' h⟩
  next => cases h

/-- A trace all of whose steps meet `C` is a run of the restricted system. -/
theorem replay_restricted {M : System σ α} {C : σ → α → Prop} [∀ s a, Decidable (C s a)]
    {f : σ → α → Option σ} (hf : ∀ s a s', f s a = some s' → M.step s a s') (as : List α) (s : σ)
    {s' : σ} (h0 : M.init s) (h : replay (guarded C f) as s = some s') :
    (M.restrict C).Reachable s' :=
  replay_reachable (guarded_step hf) as s h0 h

end System

end OraOS.Lib
