/-
  OraOS.Tenancy.Attendance — the clock over time.

  `clock` compares a new event with the latest one, wherever in the past the new one
  is put; and it sees only what its own restaurant recorded.

    * `clock_wrote`           — what a clocking adds to the events of a membership;
    * `attendance_alternates` — the events of a membership take turns, as long as each
                                is entered after all the others;
    * `attendance_unbalanced` — and a backdated one breaks the turns.
-/
import OraOS.Tenancy.Staff
import OraOS.Lib.Transition
import OraOS.Lib.Alternation

namespace OraOS.Tenancy

open OraOS.Api
open OraOS.Lib

/-! ## §1. Histories. -/

/-- The events of a membership, whichever restaurant recorded them. -/
def Directory.eventsOf (db : Directory) (membershipId : Uuid) : List AttendanceEvent :=
  db.attendanceEvents.filter fun e => decide (e.membershipId = membershipId)

/-- Whether the event starts a shift. -/
def AttendanceEvent.isIn (e : AttendanceEvent) : Bool := decide (e.type = .clockIn)

/-- CLOCK_IN, CLOCK_OUT, CLOCK_IN, … for every membership, in whichever order events of
one instant are read. -/
def Directory.Alternating (db : Directory) : Prop :=
  ∀ membershipId, AlternatesBy (·.at_) (·.isIn) true (db.eventsOf membershipId)

/-- Somebody clocks, or something else happens. -/
inductive AttendanceAction where
  | clock (ctx : RequestContext) (targetMembershipId : Option Uuid) (dto : ClockDto) (env : Env)
  /-- Members and restaurants change; nothing else touches the events. -/
  | others (db : Directory)

/-- What it does to the directory. -/
def Directory.act (db : Directory) : AttendanceAction → Option Directory
  | .clock ctx targetMembershipId dto env =>
      (clock db ctx targetMembershipId dto env).toOption.map Prod.snd
  | .others db' => if db'.attendanceEvents = db.attendanceEvents then some db' else none

/-- Any sequence of clockings by anyone. -/
def attendance : System Directory AttendanceAction where
  init := Directory.Alternating
  step db a db' := db.act a = some db'

/-- The event is entered after all the others of the membership, and is of the other type
than the last of them, whichever restaurant recorded it. -/
def InTurn (db : Directory) : AttendanceAction → Prop
  | .clock ctx targetMembershipId dto env =>
      ∀ membershipId ∈ targetMembershipId.orElse fun _ => ctx.membershipId,
        (∀ e ∈ db.eventsOf membershipId, e.at_ < dto.at_.getD env.now)
          ∧ Follows (·.at_) (·.isIn) true (db.eventsOf membershipId) (decide (dto.type = .clockIn))
  | .others _ => True

instance (db : Directory) (a : AttendanceAction) : Decidable (InTurn db a) := by
  unfold InTurn
  split <;> infer_instance

/-! ## §2. One clocking. -/

/-- **What a clocking wrote**: one event of the membership asked for, with the type and
the time of the request. -/
theorem clock_wrote {db db' : Directory} {ctx : RequestContext} {targetMembershipId : Option Uuid}
    {dto : ClockDto} {env : Env} {e : AttendanceEvent}
    (h : clock db ctx targetMembershipId dto env = .ok (e, db')) :
    (targetMembershipId.orElse fun _ => ctx.membershipId) = some e.membershipId
      ∧ e.type = dto.type ∧ e.at_ = dto.at_.getD env.now
      ∧ db'.attendanceEvents = db.attendanceEvents ++ [e] := by
  obtain ⟨-, htype, -, rfl⟩ := clock_ok h
  simp only [clock, requireContext, bind_ok, found_ok, require_ok] at h
  obtain ⟨restaurantId, -, -, -, -, -, membershipId, hid, -, -, m, -, -, -, -, -, -, -,
    attendanceEvents, -, h⟩ := h
  cases pure_ok.mp h
  exact ⟨hid, htype, rfl, rfl⟩

theorem eventsOf_append {db db' : Directory} {e : AttendanceEvent}
    (h : db'.attendanceEvents = db.attendanceEvents ++ [e]) (membershipId : Uuid) :
    db'.eventsOf membershipId = db.eventsOf membershipId
      ++ if e.membershipId = membershipId then [e] else [] := by
  unfold Directory.eventsOf
  rw [h, List.filter_append]
  congr 1
  by_cases hid : e.membershipId = membershipId
  · simp [hid]
  · simp [hid]

/-- **A step keeps the turns if and only if** the event is entered in turn. -/
theorem alternating_step {db db' : Directory} {a : AttendanceAction} (hdb : db.Alternating)
    (h : db.act a = some db') : db'.Alternating ↔ InTurn db a := by
  cases a with
  | others db'' =>
      simp only [Directory.act] at h
      split at h
      next hsame =>
        cases h
        refine iff_of_true ?_ trivial
        intro membershipId
        unfold Directory.eventsOf
        rw [hsame]
        exact hdb membershipId
      next => cases h
  | clock ctx targetMembershipId dto env =>
      obtain ⟨⟨e, db''⟩, hok, rfl⟩ := Option.map_eq_some_iff.mp h
      obtain ⟨hid, htype, hat, hevents⟩ := clock_wrote (toOption_some.mp hok)
      have hkind : e.isIn = decide (dto.type = .clockIn) := by
        unfold AttendanceEvent.isIn
        rw [htype]
      have hself := eventsOf_append hevents e.membershipId
      rw [if_pos rfl] at hself
      have hiff := alternatesBy_concat (hdb e.membershipId) (a := e)
      rw [hkind, hat] at hiff
      constructor
      · intro hafter membershipId hmem
        rw [hid] at hmem
        cases hmem
        exact hiff.mp (hself ▸ hafter e.membershipId)
      · intro hturn membershipId
        by_cases hm : e.membershipId = membershipId
        · subst hm
          rw [hself]
          exact hiff.mpr (hturn e.membershipId hid)
        · -- nobody else's history changes
          rw [eventsOf_append hevents membershipId, if_neg hm, List.append_nil]
          exact hdb membershipId

/-! ## §3. Every history. -/

/-- **Attendance histories alternate**, in the runs in which every event is entered in
turn; and a clocking that succeeds out of turn is what unbalances one. -/
theorem attendance_alternates {db : Directory} (h : (attendance.restrict InTurn).Reachable db) :
    db.Alternating ∧ ∀ a db', attendance.step db a db' → (db'.Alternating ↔ InTurn db a) := by
  have hdb : db.Alternating := by
    induction h with
    | init h0 => exact h0
    | step _ hstep ih => exact (alternating_step ih hstep.2).mpr hstep.1
  exact ⟨hdb, fun a db' hstep => alternating_step hdb hstep⟩

theorem twoRestaurants_init : attendance.init twoRestaurants := fun _ => alternatesBy_nil true

/-- The owner's token of the other restaurant. -/
def atMomoHouse : RequestContext := ⟨11, some 1, some 31, [.attendanceManage]⟩

/-- In at nine and out at five; the days start at 0. -/
def workedNineToFive : List AttendanceAction :=
  [.clock atMomoHouse none ⟨.clockIn, none, none⟩ ⟨41, 32400000⟩,
    .clock atMomoHouse none ⟨.clockOut, none, none⟩ ⟨42, 61200000⟩]

theorem workedNineToFive_runs :
    (System.replay (System.guarded InTurn Directory.act) workedNineToFive twoRestaurants).isSome
      = true := by
  decide +kernel

/-- In at nine and out at five. -/
theorem attendance_alternates_worked :
    ∃ db : Directory, (db.eventsOf 31).map (·.isIn) = [true, false] ∧ db.Alternating := by
  have h := System.replay_restricted (M := attendance) (C := InTurn) (f := Directory.act)
    (fun _ _ _ h => h) workedNineToFive twoRestaurants twoRestaurants_init
    (Option.some_get workedNineToFive_runs).symm
  exact ⟨_, by decide +kernel, (attendance_alternates h).1⟩

/-- And in at eight, entered the same evening. -/
def backdatedClockIn : List AttendanceAction :=
  workedNineToFive ++ [.clock atMomoHouse (some 31) ⟨.clockIn, some 28800000, none⟩ ⟨43, 64800000⟩]

theorem backdatedClockIn_runs :
    (System.replay Directory.act backdatedClockIn twoRestaurants).isSome = true := by
  decide +kernel

/-- In, in, out. -/
theorem attendance_unbalanced : ∃ db, attendance.Reachable db ∧ ¬ db.Alternating := by
  have h := System.replay_reachable (M := attendance) (f := Directory.act) (fun _ _ _ h => h)
    backdatedClockIn twoRestaurants twoRestaurants_init (Option.some_get backdatedClockIn_runs).symm
  refine ⟨_, h, ?_⟩
  intro halternating
  have hsorted := halternating 31 (orderBy (·.at_) (Directory.eventsOf _ 31))
    (orderBy_perm _ _) (by decide +kernel)
  exact absurd hsorted (by decide +kernel)

end OraOS.Tenancy
