/-
  OraOS.Tenancy.Timesheets — the sessions of a window, and the sessions of the history.

  The docstring of `timesheet` calls an open session one whose member is still on shift or
  forgot to clock out: a guessed end time is a guessed wage.  But the events are paired
  after the window has cut them, and either half of a pair may lie outside.

    * `timesheet_row`  — a row pairs the window's part of its member's history;
    * `sessionsOf_eq`  — its pairing loop is the one over entries that take turns;
    * `timesheet_true` — the sessions are true exactly when the window cuts no pair.
-/
import OraOS.Tenancy.Attendance
import OraOS.Lib.Pairing

namespace OraOS.Tenancy

open OraOS.Api
open OraOS.Lib

/-! ## §1. What is true of a history. -/

/-- From the query's instants, the last seven days unless it says otherwise. -/
def TimesheetQuery.window (query : TimesheetQuery) (now : Instant) : KeyWindow :=
  ⟨query.from_.getD (now - 7 * 86400000), query.to_.getD now⟩

/-- What the token's restaurant recorded of a member. -/
def Directory.recorded (db : Directory) (ctx : RequestContext) (membershipId : Uuid) :
    List AttendanceEvent :=
  (attendancePolicy.visible (tx ctx) db.attendanceEvents).filter
    fun e => decide (e.membershipId = membershipId)

/-- And when it happened, first to last. -/
def Directory.history (db : Directory) (ctx : RequestContext) (membershipId : Uuid) :
    List AttendanceEvent :=
  orderBy (·.at_) (db.recorded ctx membershipId)

/-- From a CLOCK_IN to the CLOCK_OUT after it. -/
def Session.ofPair (p : AttendanceEvent × AttendanceEvent) : Session :=
  ⟨p.1.at_, some p.2.at_, some (roundDiv (p.2.at_ - p.1.at_) 60000)⟩

/-- Still on shift, or a forgotten clock-out. -/
def Session.openSince (e : AttendanceEvent) : Session := ⟨e.at_, none, none⟩

/-- The session and the window have an instant in common. -/
def TouchedBy (w : KeyWindow) (p : AttendanceEvent × AttendanceEvent) : Bool :=
  w.overlaps p.1.at_ p.2.at_

/-- The sessions with an end are the pairs of the history that overlap the window, and
one without has no CLOCK_OUT after it in all of the history. -/
structure TrueSessions (w : KeyWindow) (history : List AttendanceEvent)
    (sessions : List Session) : Prop where
  closed : sessions.filter (·.clockedOut.isSome)
    = ((pairUp history).filter (TouchedBy w)).map Session.ofPair
  opened : ∀ s ∈ sessions, s.clockedOut = none →
    ∀ e ∈ history, e.type = .clockOut → e.at_ ≤ s.clockedIn

/-- No pair of the history that overlaps the window reaches out of it. -/
def Uncut (w : KeyWindow) (history : List AttendanceEvent) : Prop :=
  ∀ p ∈ pairUp history, TouchedBy w p = true → w.lo ≤ p.1.at_ ∧ p.2.at_ ≤ w.hi

instance (w : KeyWindow) (history : List AttendanceEvent) : Decidable (Uncut w history) :=
  inferInstanceAs (Decidable (∀ p ∈ pairUp history, _))

/-! ## §2. The pairing loop. -/

/-- Pairs of events, as the loop has them. -/
def asSessions (s : List (AttendanceEvent × AttendanceEvent) × Option AttendanceEvent) :
    List Session × Option Instant :=
  (s.1.map Session.ofPair, s.2.map (·.at_))

/-- Pairing events is pairing entries, seen as sessions. -/
theorem pairEvent_asSessions
    (s : List (AttendanceEvent × AttendanceEvent) × Option AttendanceEvent) (e : AttendanceEvent) :
    pairEvent (asSessions s) e = asSessions (pairEntry AttendanceEvent.isIn s e) := by
  obtain ⟨pairs, opened⟩ := s
  cases htype : e.type with
  | clockIn => simp [pairEvent, pairEntry, asSessions, AttendanceEvent.isIn, htype]
  | clockOut =>
      cases opened with
      | none => simp [pairEvent, pairEntry, asSessions, AttendanceEvent.isIn, htype]
      | some a =>
          simp [pairEvent, pairEntry, asSessions, AttendanceEvent.isIn, htype, Session.ofPair]

/-- **The loop of `timesheet`** is the pairing of entries of two kinds. -/
theorem sessionsOf_eq {events : List AttendanceEvent}
    {pairs : List (AttendanceEvent × AttendanceEvent)} {opened : Option AttendanceEvent}
    (h : events.foldl (pairEntry AttendanceEvent.isIn) ([], none) = (pairs, opened)) :
    sessionsOf events = pairs.map Session.ofPair ++ opened.toList.map Session.openSince := by
  have hloop : events.foldl pairEvent (asSessions ([], none)) = asSessions (pairs, opened) := by
    rw [← h]
    exact List.foldl_hom asSessions pairEvent_asSessions
  unfold sessionsOf
  rw [show (([], none) : List Session × Option Instant) = asSessions ([], none) from rfl, hloop]
  cases opened with
  | none => simp [asSessions]
  | some a => rfl

/-- The closed sessions are the pairs. -/
theorem filter_closed (pairs : List (AttendanceEvent × AttendanceEvent))
    (opened : Option AttendanceEvent) :
    (pairs.map Session.ofPair ++ opened.toList.map Session.openSince).filter (·.clockedOut.isSome)
      = pairs.map Session.ofPair := by
  have hpairs : (pairs.map Session.ofPair).filter (·.clockedOut.isSome)
      = pairs.map Session.ofPair := by
    refine List.filter_eq_self.mpr ?_
    intro s hs
    obtain ⟨p, -, rfl⟩ := List.mem_map.mp hs
    rfl
  have hopen : (opened.toList.map Session.openSince).filter (·.clockedOut.isSome) = [] := by
    refine List.filter_eq_nil_iff.mpr ?_
    intro s hs
    obtain ⟨e, -, rfl⟩ := List.mem_map.mp hs
    simp [Session.openSince]
  rw [List.filter_append, hpairs, hopen, List.append_nil]

/-- A session without an end began with the event that the loop left open. -/
theorem mem_open {pairs : List (AttendanceEvent × AttendanceEvent)}
    {opened : Option AttendanceEvent} {s : Session}
    (h : s ∈ pairs.map Session.ofPair ++ opened.toList.map Session.openSince)
    (hopen : s.clockedOut = none) : ∃ e, opened = some e ∧ s.clockedIn = e.at_ := by
  rcases List.mem_append.mp h with h | h
  · obtain ⟨p, -, rfl⟩ := List.mem_map.mp h
    cases hopen
  · obtain ⟨e, he, rfl⟩ := List.mem_map.mp h
    exact ⟨e, Option.mem_toList.mp he, rfl⟩

/-! ## §3. One member's history, and a window. -/

section

variable {w : KeyWindow} {history : List AttendanceEvent}

/-- What is still open when no pair is cut is the last event of the history. -/
theorem opened_of_uncut (hs : history.Pairwise fun x y => x.at_ < y.at_) (huncut : Uncut w history)
    {a : AttendanceEvent} (hopen : openIn (·.at_) w history = some a) :
    ∀ e ∈ history, e.at_ ≤ a.at_ := by
  obtain ⟨hin, ⟨b, hb, hout⟩ | ⟨l', rfl⟩⟩ := openIn_eq_some hopen
  · -- the other half lies past the window, which cuts the pair
    have hlt : a.at_ < b.at_ := pairUp_lt hs hb
    have htouched : TouchedBy w (a, b) = true :=
      KeyWindow.overlaps_iff.mpr ⟨a.at_, hin, le_refl _, hlt.le⟩
    obtain ⟨hlo, hhi⟩ := huncut _ hb htouched
    have hbin : w.contains b.at_ = true := KeyWindow.contains_iff.mpr ⟨hlo.trans hlt.le, hhi⟩
    rw [hbin] at hout
    cases hout
  · intro e he
    rcases List.mem_append.mp he with hbefore | hlast
    · exact ((List.pairwise_append.mp hs).2.2 e hbefore a (List.mem_singleton_self a)).le
    · rw [List.mem_singleton.mp hlast]

/-- **The sessions of a window are true if and only if** it cuts no pair. -/
theorem trueSessions_iff (halternates : Alternates AttendanceEvent.isIn true history)
    (hs : history.Pairwise fun x y => x.at_ < y.at_) :
    TrueSessions w history (sessionsOf (history.filter fun e => w.contains e.at_))
      ↔ Uncut w history := by
  have hloop := foldl_pairEntry_window (w := w) history halternates hs []
  have hsessions := sessionsOf_eq hloop
  rw [List.nil_append] at hsessions
  have hle : ∀ p ∈ pairUp history, p.1.at_ ≤ p.2.at_ := fun p hp => (pairUp_lt hs hp).le
  have hcut : ((pairUp history).filter fun p => w.inside p.1.at_ p.2.at_).map Session.ofPair
        = ((pairUp history).filter (TouchedBy w)).map Session.ofPair ↔ Uncut w history := by
    refine (filter_inside_eq_iff AttendanceEvent.at_ (w := w) hle).trans ?_
    simp only [KeyWindow.inside_iff]
    exact Iff.rfl
  rw [hsessions]
  constructor
  · intro h
    have hclosed := h.closed
    rw [filter_closed] at hclosed
    exact hcut.mp hclosed
  · intro huncut
    refine ⟨(filter_closed _ _).trans (hcut.mpr huncut), ?_⟩
    intro s hmem hopen e he _
    obtain ⟨a, ha, hsince⟩ := mem_open hmem hopen
    rw [hsince]
    exact opened_of_uncut hs huncut ha e he

end

/-! ## §4. The rows. -/

section

variable {db : Directory} {ctx : RequestContext} {membershipId : Uuid}

/-- A history that takes turns is in the order of time. -/
theorem history_sorted
    (hturns : AlternatesBy (·.at_) (·.isIn) true (db.recorded ctx membershipId)) :
    (db.history ctx membershipId).Pairwise fun x y => x.at_ < y.at_ :=
  pairwise_lt_of_alternatesBy (fun s hs => hturns s (hs.trans (orderBy_perm _ _)))
    (pairwise_orderBy (·.at_) (db.recorded ctx membershipId))

/-- **A row pairs what the window shows** of the member's history, in its order. -/
theorem timesheet_row {query : TimesheetQuery} {now : Instant} {row : TimesheetRow}
    (h : row ∈ timesheet db ctx query now)
    (hturns : AlternatesBy (·.at_) (·.isIn) true (db.recorded ctx row.membershipId)) :
    row.sessions = sessionsOf ((db.history ctx row.membershipId).filter
      fun e => (query.window now).contains e.at_) := by
  simp only [timesheet, List.mem_map, List.mem_filter] at h
  obtain ⟨m, ⟨-, hasked⟩, rfl⟩ := h
  refine congrArg sessionsOf (eq_of_perm_sorted (·.at_) ?_ ?_ ?_)
  · exact (history_sorted hturns).sublist List.filter_sublist
  · exact (pairwise_orderBy _ _).sublist List.filter_sublist
  · -- the member's events of the window, selected in two ways
    refine ((orderBy_perm _ _).filter _).trans (List.Perm.trans (.of_eq ?_)
      ((orderBy_perm _ _).filter _).symm)
    unfold Directory.recorded
    rw [List.filter_filter, List.filter_filter]
    refine List.filter_congr ?_
    intro e _
    by_cases he : e.membershipId = m.id
    · simp only [he, hasked, Bool.and_true, decide_true, Bool.true_and]
      rfl
    · simp only [he, decide_false, Bool.false_and, Bool.and_false]

/-- **Timesheets report true sessions if and only if** the window cuts no pair of the
member's history. -/
theorem timesheet_true {query : TimesheetQuery} {now : Instant} {row : TimesheetRow}
    (h : row ∈ timesheet db ctx query now)
    (hturns : AlternatesBy (·.at_) (·.isIn) true (db.recorded ctx row.membershipId)) :
    TrueSessions (query.window now) (db.history ctx row.membershipId) row.sessions
      ↔ Uncut (query.window now) (db.history ctx row.membershipId) := by
  rw [timesheet_row h hturns]
  exact trueSessions_iff (hturns _ (orderBy_perm _ _) (pairwise_orderBy _ _)) (history_sorted hturns)

end

/-- In at ten in the evening and out at six; the days start at 0. -/
def nightShift : Directory :=
  { twoRestaurants with attendanceEvents := [⟨41, 1, 31, .clockIn, 79200000, none, none⟩,
      ⟨42, 1, 31, .clockOut, 108000000, none, none⟩] }

/-- In before midnight, and out the next morning. -/
theorem nightShift_turns :
    AlternatesBy (·.at_) (·.isIn) true (nightShift.recorded atMomoHouse 31) :=
  alternatesBy_iff.mpr ⟨_, .refl _, by decide, by decide⟩

/-- The two days of the shift. -/
def bothDays : TimesheetQuery := ⟨some 0, some 172799999, none⟩

/-- Over both days the night shift is one session of eight hours. -/
theorem timesheet_true_bothDays :
    ∃ row ∈ timesheet nightShift atMomoHouse bothDays 259200000,
      row.sessions = [⟨79200000, some 108000000, some 480⟩]
        ∧ TrueSessions (bothDays.window 259200000) (nightShift.history atMomoHouse 31)
            row.sessions := by
  obtain ⟨row, hrow, hid, hsessions⟩ : ∃ row ∈ timesheet nightShift atMomoHouse bothDays 259200000,
      row.membershipId = 31 ∧ row.sessions = [⟨79200000, some 108000000, some 480⟩] :=
    ⟨_, List.mem_cons_self, rfl, by decide⟩
  have huncut : Uncut (bothDays.window 259200000)
      (nightShift.history atMomoHouse row.membershipId) := by
    rw [hid]
    decide
  refine ⟨row, hrow, hsessions, ?_⟩
  have htrue := (timesheet_true hrow (by rw [hid]; exact nightShift_turns)).mpr huncut
  rw [hid] at htrue
  exact htrue

/-- The day it began. -/
def firstDay : TimesheetQuery := ⟨some 0, some 86399999, none⟩

/-- Two days after it ended the shift is reported open, and for the second day not at all. -/
theorem timesheet_cuts :
    AlternatesBy (·.at_) (·.isIn) true (nightShift.recorded atMomoHouse 31)
      ∧ (∃ row ∈ timesheet nightShift atMomoHouse firstDay 259200000,
          row.membershipId = 31 ∧ row.sessions = [⟨79200000, none, none⟩]
            ∧ ¬ TrueSessions (firstDay.window 259200000) (nightShift.history atMomoHouse 31)
                row.sessions)
      ∧ ∃ row ∈ timesheet nightShift atMomoHouse ⟨some 86400000, some 172799999, none⟩ 259200000,
          row.membershipId = 31 ∧ row.sessions = [] := by
  refine ⟨nightShift_turns, ⟨_, List.mem_cons_self, rfl, by decide, ?_⟩,
    ⟨_, List.mem_cons_self, rfl, by decide⟩⟩
  intro h
  exact absurd h.closed (by decide)

end OraOS.Tenancy
