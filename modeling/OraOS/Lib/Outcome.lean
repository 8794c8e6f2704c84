/-
  OraOS.Lib.Outcome — reading a successful computation backwards.

  A request handler is an `Except` computation: lookups, guards, writes.  A
  theorem about its success starts by taking it apart, and these are the rules
  for that (`simp only [f, bind_ok, require_ok, …] at h`).
-/
import Mathlib.Tactic

namespace OraOS.Lib

universe u v

variable {ε : Type v} {α β : Type u}

/-- A program that succeeds has succeeded at each of its steps. -/
theorem bind_ok {x : Except ε α} {f : α → Except ε β} {b : β} :
    (x >>= f) = .ok b ↔ ∃ a, x = .ok a ∧ f a = .ok b := by
  cases x with
  | error e => exact ⟨nofun, nofun⟩
  | ok a =>
      constructor
      · intro h
        exact ⟨a, rfl, h⟩
      · rintro ⟨a', ha, h⟩
        cases ha
        exact h

/-- A step that has succeeded hands on its result. -/
theorem ok_bind (a : α) (f : α → Except ε β) : (Except.ok a >>= f) = f a := rfl

theorem pure_ok {a b : α} : (pure a : Except ε α) = .ok b ↔ a = b := by
  constructor
  · intro h
    cases h
    rfl
  · rintro rfl
    rfl

/-- A mapped result is a success exactly where the result is. -/
theorem mapped_ok {x : Except ε α} {f : α → β} {b : β} :
    x.map f = .ok b ↔ ∃ a, x = .ok a ∧ f a = b := by
  rw [show x.map f = x >>= fun a => pure (f a) by cases x <;> rfl, bind_ok]
  simp only [pure_ok]

/-- What is done to the result of a program is done to that of its last step. -/
theorem bind_map {γ : Type u} (x : Except ε α) (f : α → Except ε β) (g : β → γ) :
    (x >>= f).map g = x >>= fun a => (f a).map g := by
  cases x <;> rfl

theorem mapped_bind {γ : Type u} (x : Except ε α) (f : α → β) (g : β → Except ε γ) :
    (x.map f >>= g) = x >>= fun a => g (f a) := by
  cases x <;> rfl

/-- Goes on when `c` holds and stops with `e` otherwise. -/
def require (c : Prop) [Decidable c] (e : ε) : Except ε Unit :=
  if c then .ok () else .error e

/-- A check passes exactly if its condition holds. -/
theorem require_ok {c : Prop} [Decidable c] {e : ε} {u : Unit} :
    require c e = .ok u ↔ c := by
  unfold require
  split
  next h => exact ⟨fun _ => h, fun _ => rfl⟩
  next h => exact ⟨nofun, fun h' => absurd h' h⟩

theorem require_of {c : Prop} [Decidable c] (e : ε) (h : c) :
    require c e = .ok () := require_ok.mpr h

/-- A check of the same condition. -/
theorem require_congr {c c' : Prop} [Decidable c] [Decidable c'] {e : ε} (h : c ↔ c') :
    require c e = require c' e := if_congr h rfl rfl

/-- The value of a lookup, or the error of finding nothing. -/
def found (o : Option α) (e : ε) : Except ε α :=
  match o with
  | some a => .ok a
  | none => .error e

/-- What is looked up and found is there. -/
theorem found_ok {o : Option α} {e : ε} {a : α} :
    found o e = .ok a ↔ o = some a := by
  cases o with
  | none => exact ⟨nofun, nofun⟩
  | some b =>
      show Except.ok b = Except.ok a ↔ some b = some a
      rw [Except.ok.injEq, Option.some.injEq]

theorem toOption_some {ε α : Type} {x : Except ε α} {a : α} : x.toOption = some a ↔ x = .ok a := by
  cases x with
  | error e => exact ⟨nofun, nofun⟩
  | ok b =>
      show some b = some a ↔ Except.ok b = Except.ok a
      rw [Option.some.injEq, Except.ok.injEq]

/-- Nothing is in `none`. -/
theorem forall_mem_none {α : Type*} {p : α → Prop} : ∀ a ∈ (none : Option α), p a := by
  intro a h
  cases h

/-- A bound that holds of the value given holds of the value used. -/
theorem getD_of {α : Type*} {p : α → Prop} {o : Option α} {d : α} (h : ∀ a ∈ o, p a) (hd : p d) :
    p (o.getD d) := by
  cases o with
  | none => exact hd
  | some a => exact h a rfl

/-- Runs `f` along a list, feeding each state to the next step. -/
def runAll {σ : Type u} (f : σ → α → Except ε σ) : List α → σ → Except ε σ
  | [], s => .ok s
  | a :: as, s => f s a >>= runAll f as

/-- Each result comes from the element at its place. -/
theorem mapM_ok {f : α → Except ε β} :
    ∀ {l : List α} {l' : List β},
      l.mapM f = .ok l' ↔ List.Forall₂ (fun a b => f a = .ok b) l l'
  | [], l' => by
      rw [List.mapM_nil, pure_ok]
      exact ⟨fun h => h ▸ .nil, fun | .nil => rfl⟩
  | a :: l, l' => by
      rw [List.mapM_cons, bind_ok]
      constructor
      · rintro ⟨b, hb, h⟩
        obtain ⟨bs, hbs, h⟩ := bind_ok.mp h
        cases pure_ok.mp h
        exact .cons hb (mapM_ok.mp hbs)
      · rintro (_ | ⟨hb, hbs⟩)
        exact ⟨_, hb, bind_ok.mpr ⟨_, mapM_ok.mpr hbs, rfl⟩⟩

/-- A loop of checks passes when each of them does. -/
theorem forM_ok {α ε : Type} {f : α → Except ε Unit} :
    ∀ {l : List α}, l.forM f = .ok () ↔ ∀ a ∈ l, f a = .ok ()
  | [] => ⟨fun _ => List.forall_mem_nil _, fun _ => rfl⟩
  | a :: l => by
      rw [List.forall_mem_cons]
      show (f a >>= fun _ => l.forM f) = .ok () ↔ _
      rw [bind_ok]
      constructor
      · rintro ⟨⟨⟩, ha, hl⟩
        exact ⟨ha, forM_ok.mp hl⟩
      · rintro ⟨ha, hl⟩
        exact ⟨(), ha, forM_ok.mpr hl⟩

/-- A loop of checks that fail alike is one check. -/
theorem forM_require {α ε : Type} {p : α → Prop} [DecidablePred p] {e : ε} :
    ∀ {l : List α}, (l.forM fun a => require (p a) e) = require (∀ a ∈ l, p a) e
  | [] => (require_of e (List.forall_mem_nil p)).symm
  | a :: l => by
      show (require (p a) e >>= fun _ => l.forM fun a => require (p a) e) = _
      rw [forM_require]
      by_cases ha : p a
      · rw [require_of e ha, ok_bind]
        exact require_congr (by simp [ha])
      · have hnot : ¬ ∀ b ∈ a :: l, p b := fun h => ha (h a List.mem_cons_self)
        unfold require
        rw [if_neg ha, if_neg hnot]
        rfl

/-! ## Loops, and the elements a loop has been through. -/

/-- `P` holds of each element, given those before it. -/
def EachAfter {α : Type*} (P : List α → α → Prop) : List α → List α → Prop
  | _, [] => True
  | before, a :: l => P before a ∧ EachAfter P (before ++ [a]) l

theorem eachAfter_append {α : Type*} {P : List α → α → Prop} :
    ∀ {l l' before : List α}, EachAfter P before (l ++ l')
      ↔ EachAfter P before l ∧ EachAfter P (before ++ l) l'
  | [], l', before => by
      rw [List.nil_append, List.append_nil]
      exact (iff_of_eq (true_and _)).symm
  | a :: l, l', before => by
      show P before a ∧ EachAfter P (before ++ [a]) (l ++ l') ↔ _
      rw [eachAfter_append, List.append_assoc, ← and_assoc]
      rfl

theorem eachAfter_snoc {α : Type*} {P : List α → α → Prop} {l before : List α} {a : α} :
    EachAfter P before (l ++ [a]) ↔ EachAfter P before l ∧ P (before ++ l) a := by
  rw [eachAfter_append]
  exact and_congr_right fun _ => iff_of_eq (and_true _)

instance {α : Type*} (P : List α → α → Prop) [∀ before a, Decidable (P before a)] :
    ∀ before l : List α, Decidable (EachAfter P before l)
  | _, [] => isTrue trivial
  | before, a :: l =>
      have := instDecidableEachAfter P (before ++ [a]) l
      inferInstanceAs (Decidable (_ ∧ _))

/-- **The rule for loops**: what each step keeps, with its element among those before, the
loop keeps with all of them. -/
theorem runAll_after {σ : Type u} {f : σ → α → Except ε σ} {I : List α → σ → Prop} :
    ∀ {l before : List α} {s s' : σ},
      (∀ a ∈ l, ∀ before s s', I before s → f s a = .ok s' → I (before ++ [a]) s') →
      I before s → runAll f l s = .ok s' → I (before ++ l) s'
  | [], before, s, s', _, hI, h => by
      cases h
      rw [List.append_nil]
      exact hI
  | a :: l, before, s, s', hstep, hI, h => by
      obtain ⟨s₁, ha, hl⟩ := bind_ok.mp h
      have ih := runAll_after (fun x hx => hstep x (List.mem_cons_of_mem a hx))
        (hstep a List.mem_cons_self before s s₁ hI ha) hl
      rw [List.append_assoc] at ih
      exact ih

/-- And a loop whose steps all pass comes to its end. -/
theorem runAll_total {σ : Type u} {f : σ → α → Except ε σ} {I : List α → σ → Prop} :
    ∀ {l : List α} (before : List α) {s : σ},
      (∀ a ∈ l, ∀ before s, I before s → ∃ s', f s a = .ok s' ∧ I (before ++ [a]) s') →
      I before s → ∃ s', runAll f l s = .ok s' ∧ I (before ++ l) s'
  | [], before, s, _, hI => by
      rw [List.append_nil]
      exact ⟨s, rfl, hI⟩
  | a :: l, before, s, hstep, hI => by
      obtain ⟨s₁, ha, hI₁⟩ := hstep a List.mem_cons_self before s hI
      obtain ⟨s', hl, hI'⟩ :=
        runAll_total (before ++ [a]) (fun x hx => hstep x (List.mem_cons_of_mem a hx)) hI₁
      rw [List.append_assoc] at hI'
      exact ⟨s', bind_ok.mpr ⟨s₁, ha, hl⟩, hI'⟩

/-! ## The errors a computation can end in. -/

/-- Whatever `x` fails with satisfies `q`. -/
def FailsWith (q : ε → Prop) (x : Except ε α) : Prop := ∀ e, x = .error e → q e

section FailsWith

variable {q : ε → Prop}

/-- What succeeds fails with nothing. -/
theorem FailsWith.ok (a : α) : FailsWith q (.ok a : Except ε α) := fun _ h => nomatch h

theorem FailsWith.error {e : ε} (h : q e) : FailsWith q (.error e : Except ε α) := by
  intro e' he
  cases he
  exact h

/-- A program fails as one of its steps does. -/
theorem FailsWith.bind {x : Except ε α} {f : α → Except ε β} (hx : FailsWith q x)
    (hf : ∀ a, x = .ok a → FailsWith q (f a)) : FailsWith q (x >>= f) := by
  cases x with
  | error e => exact .error (hx e rfl)
  | ok a => exact hf a rfl

theorem FailsWith.require {c : Prop} [Decidable c] {e : ε} (h : q e) :
    FailsWith q (require c e) := by
  unfold Lib.require
  split
  · exact .ok _
  · exact .error h

/-- A run fails as one of its requests does. -/
theorem FailsWith.runAll {σ : Type u} {f : σ → α → Except ε σ} (h : ∀ s a, FailsWith q (f s a))
    (as : List α) : ∀ s, FailsWith q (runAll f as s) := by
  induction as with
  | nil => exact fun s => .ok s
  | cons a as ih => exact fun s => (h s a).bind fun s' _ => ih s'

theorem FailsWith.mapM {f : α → Except ε β} (h : ∀ a, FailsWith q (f a)) (l : List α) :
    FailsWith q (l.mapM f) := by
  induction l with
  | nil => exact .ok []
  | cons a l ih =>
      rw [List.mapM_cons]
      exact (h a).bind fun b _ => ih.bind fun bs _ => .ok (b :: bs)

end FailsWith

end OraOS.Lib
