/-
  OraOS.Lib.Replica — a copy of a table that follows it by a feed of updates.

  The table sends an update after every value it writes; the copy overwrites what it has
  with the updates in the order they arrive.  Nothing else is known of either: updates are
  late, and the copy is also filled from answers that were read some time ago.

    * `Carries`           — the last update under way of each key is what the table has;
    * `Current`           — a value of the table, or one that an update will overwrite;
    * `Announces`         — what a write of the table has to send for both to stay so;
    * `Carries.deliver`   — an update that arrives is current;
    * `Carries.sooner`, `Carries.drop`
                          — updates of other keys may be overtaken, and the first update
                            of a key may be lost.
-/
import Mathlib.Tactic

namespace OraOS.Lib

variable {κ ν : Type*} [DecidableEq κ]

/-! ## §1. The last update of a key. -/

/-- The last update of the key in the feed, oldest first. -/
def lastOf (k : κ) : List (κ × ν) → Option ν
  | [] => none
  | p :: feed => (lastOf k feed).or (if p.1 = k then some p.2 else none)

theorem lastOf_append (k : κ) (a b : List (κ × ν)) :
    lastOf k (a ++ b) = (lastOf k b).or (lastOf k a) := by
  induction a with
  | nil => rw [List.nil_append, lastOf, Option.or_none]
  | cons p a ih => rw [List.cons_append, lastOf, ih, lastOf, Option.or_assoc]

/-- No update of a key is under way if none has the key. -/
theorem lastOf_eq_none {k : κ} {feed : List (κ × ν)} :
    lastOf k feed = none ↔ ∀ p ∈ feed, p.1 ≠ k := by
  induction feed with
  | nil => simp [lastOf]
  | cons p feed ih =>
      rw [lastOf, Option.or_eq_none_iff, ih, List.forall_mem_cons, and_comm]
      by_cases h : p.1 = k <;> simp [h]

theorem mem_of_lastOf {k : κ} {v : ν} {feed : List (κ × ν)} (h : lastOf k feed = some v) :
    ∃ p ∈ feed, p.1 = k := by
  by_contra hno
  have hnone : lastOf k feed = none :=
    lastOf_eq_none.mpr fun p hp hk => hno ⟨p, hp, hk⟩
  rw [hnone] at h
  cases h

/-! ## §2. What the feed carries. -/

/-- The last update under way of each key is what the table has. -/
def Carries (src : κ → Option ν) (feed : List (κ × ν)) : Prop :=
  ∀ k v, lastOf k feed = some v → src k = some v

/-- A value that the table has, or that an update under way will overwrite. -/
def Current (src : κ → Option ν) (feed : List (κ × ν)) (k : κ) (v : ν) : Prop :=
  src k = some v ∨ ∃ p ∈ feed, p.1 = k

/-- A write of the table, and the updates it sends: of every value that it changes, and
the last of each key is what it leaves. -/
structure Announces (src src' : κ → Option ν) (updates : List (κ × ν)) : Prop where
  kept : ∀ k v, (∀ p ∈ updates, p.1 ≠ k) → src k = some v → src' k = some v
  last : Carries src' updates

section

variable {src src' : κ → Option ν} {feed updates l m r : List (κ × ν)} {k : κ} {v : ν}

/-- With nothing under way nothing wrong is. -/
theorem Carries.nil : Carries src ([] : List (κ × ν)) := nofun

/-- A write that announces what it changes keeps the feed right. -/
theorem Carries.write (h : Carries src feed) (hw : Announces src src' updates) :
    Carries src' (feed ++ updates) := by
  intro k v hlast
  rw [lastOf_append] at hlast
  -- the key is announced now, or the last word on it is an older one
  cases hnew : lastOf k updates with
  | some u =>
      rw [hnew] at hlast
      cases hlast
      exact hw.last k _ hnew
  | none =>
      rw [hnew, Option.none_or] at hlast
      exact hw.kept k v (lastOf_eq_none.mp hnew) (h k v hlast)

/-- A value that is current, or about to be replaced, stays so under a write. -/
theorem Current.write (h : Current src feed k v) (hw : Announces src src' updates) :
    Current src' (feed ++ updates) k v := by
  rcases h with hsrc | ⟨p, hp, hk⟩
  · by_cases hnew : ∃ p ∈ updates, p.1 = k
    · obtain ⟨p, hp, hk⟩ := hnew
      exact .inr ⟨p, List.mem_append_right feed hp, hk⟩
    · exact .inl (hw.kept k v (fun p hp hk => hnew ⟨p, hp, hk⟩) hsrc)
  · exact .inr ⟨p, List.mem_append_left updates hp, hk⟩

/-- The value of a key changes, and its update is sent. -/
theorem Announces.move (hk : src' k = some v) (hkept : ∀ j, j ≠ k → src' j = src j) :
    Announces src src' [(k, v)] := by
  constructor
  · intro j u hno hj
    rw [hkept j fun h => hno (k, v) (List.mem_singleton.mpr rfl) h.symm]
    exact hj
  · intro j u hlast
    rw [lastOf, lastOf, Option.none_or] at hlast
    split at hlast
    next hj =>
      cases hlast
      exact hj ▸ hk
    next => cases hlast

/-- Values that were there are; nothing is sent. -/
theorem Announces.grow (h : ∀ k v, src k = some v → src' k = some v) :
    Announces src src' ([] : List (κ × ν)) :=
  ⟨fun k v _ => h k v, .nil⟩

/-! ## §3. What becomes of an update. -/

/-- **An update that arrives is current**, and the others carry on. -/
theorem Carries.deliver (h : Carries src ((k, v) :: feed)) :
    Carries src feed ∧ Current src feed k v := by
  constructor
  · intro j u hlast
    refine h j u ?_
    rw [lastOf, hlast, Option.some_or]
  -- a newer update of the key follows, or the source has what was delivered
  · cases hlast : lastOf k feed with
    | some u => exact .inr (mem_of_lastOf hlast)
    | none =>
        refine .inl (h k v ?_)
        rw [lastOf, hlast, Option.none_or, if_pos rfl]

/-- An update may overtake the updates of other keys. -/
theorem Carries.sooner {p : κ × ν} (h : Carries src (l ++ (m ++ p :: r)))
    (hm : ∀ q ∈ m, q.1 ≠ p.1) : Carries src (l ++ p :: (m ++ r)) := by
  intro j u hlast
  refine h j u ?_
  rw [← hlast]
  simp only [lastOf_append, lastOf]
  -- of its own key nothing stands in between
  by_cases hj : p.1 = j
  · have hnone : lastOf j m = none := lastOf_eq_none.mpr fun q hq => hj ▸ hm q hq
    rw [hnone, Option.or_none, Option.or_none]
  · rw [if_neg hj, Option.or_none, Option.or_none]

omit [DecidableEq κ] in
/-- An update may overtake those before it. -/
theorem Current.sooner {p : κ × ν} (h : Current src (l ++ (m ++ p :: r)) k v) :
    Current src (l ++ p :: (m ++ r)) k v := by
  rcases h with hsrc | ⟨q, hq, hk⟩
  · exact .inl hsrc
  · refine .inr ⟨q, ?_, hk⟩
    simp only [List.mem_append, List.mem_cons] at hq ⊢
    tauto

/-- The first update of a key may be lost: what follows still ends with what the table has. -/
theorem Carries.drop {p : κ × ν} (h : Carries src (m ++ p :: r)) (hm : ∀ q ∈ m, q.1 ≠ p.1) :
    Carries src (m ++ r) := by
  have hsooner : Carries src ([] ++ p :: (m ++ r)) := Carries.sooner (l := []) h hm
  exact hsooner.deliver.1

omit [DecidableEq κ] in
/-- An update of another key may be lost. -/
theorem Current.drop {p : κ × ν} (h : Current src (m ++ p :: r) k v) (hk : k ≠ p.1) :
    Current src (m ++ r) k v := by
  rcases h with hsrc | ⟨q, hq, hqk⟩
  · exact .inl hsrc
  · refine .inr ⟨q, ?_, hqk⟩
    simp only [List.mem_append, List.mem_cons] at hq ⊢
    rcases hq with hq | rfl | hq
    · exact .inl hq
    · exact absurd hqk.symm hk
    · exact .inr hq

/-- Updates that are lost from the front are missed by the keys they were of. -/
theorem Carries.dropFront (h : Carries src (m ++ r)) : Carries src r := by
  intro j u hlast
  refine h j u ?_
  rw [lastOf_append, hlast, Option.some_or]

omit [DecidableEq κ] in
theorem Current.dropFront (h : Current src (m ++ r) k v) (hk : ∀ q ∈ m, q.1 ≠ k) :
    Current src r k v := by
  rcases h with hsrc | ⟨q, hq, hqk⟩
  · exact .inl hsrc
  · rcases List.mem_append.mp hq with hq | hq
    · exact absurd hqk (hk q hq)
    · exact .inr ⟨q, hq, hqk⟩

end

end OraOS.Lib
