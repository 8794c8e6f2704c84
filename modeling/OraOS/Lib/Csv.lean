/-
  OraOS.Lib.Csv — comma-separated values as RFC 4180 has them.

  A record ends with CRLF, the last one perhaps without; a field is bare, or quoted with its
  quotes doubled, and only a quoted one has commas, quotes or line breaks in it.  Any other
  character may stand in a field.

    * `run_field`, `run_row` — a field, and a record, are read as they were written;
    * `parse_write`          — **the round trip**: unless a record is one empty field, which
                               cannot be told from none.
-/
import Mathlib.Data.List.Basic

namespace OraOS.Lib.Csv

/-- A field, without its quotes. -/
abbrev Field := List Char

/-- The fields of a line. -/
abbrev Record := List Field

/-- The separator of fields. -/
def comma : Char := Char.ofNat 44

/-- The quote. -/
def dquote : Char := Char.ofNat 34

/-- The first half of a line break. -/
def cr : Char := Char.ofNat 13

/-- The second half. -/
def lf : Char := Char.ofNat 10

/-! ## §1. The parser. -/

/-- Before a field, inside one, after its closing quote, or after the CR of a line break. -/
inductive Mode where
  | start
  | bare
  | quoted
  | closed
  | lineBreak
  deriving DecidableEq, Repr

/-- What has been read: the records, the fields of the current one, and the field under
way. -/
structure Scan where
  mode : Mode
  field : Field
  record : Record
  records : List Record
  deriving DecidableEq, Repr

/-- What follows a field: a comma, or a line break. -/
def Scan.delimit (s : Scan) (c : Char) : Option Scan :=
  if c = comma then some ⟨.start, [], s.record ++ [s.field], s.records⟩
  else if c = cr then some ⟨.lineBreak, [], [], s.records ++ [s.record ++ [s.field]]⟩
  else none

/-- One character. -/
def scan (s : Scan) (c : Char) : Option Scan :=
  match s.mode with
  | .start | .bare =>
      if c = dquote then
        if s.mode = .start then some { s with mode := .quoted } else none
      else if c = comma ∨ c = cr then s.delimit c
      else if c = lf then none
      else some { s with mode := .bare, field := s.field ++ [c] }
  | .quoted =>
      -- the quote ends the field, or is the first of a doubled one
      if c = dquote then some { s with mode := .closed }
      else some { s with field := s.field ++ [c] }
  | .closed =>
      if c = dquote then some { s with mode := .quoted, field := s.field ++ [dquote] }
      else s.delimit c
  -- a carriage return stands before a line feed only
  | .lineBreak => if c = lf then some { s with mode := .start } else none

/-- The scan of a text, from wherever it stands. -/
def run (s : Scan) (text : List Char) : Option Scan := text.foldlM scan s

/-- The end of the text. -/
def finish (s : Scan) : Option (List Record) :=
  match s.mode with
  | .quoted | .lineBreak => none
  | .start =>
      -- after a line break there is no further record
      if s.record = [] then some s.records else some (s.records ++ [s.record ++ [s.field]])
  | .bare | .closed => some (s.records ++ [s.record ++ [s.field]])

/-- **The parser**: the records of a text, if it is well formed. -/
def parse (text : List Char) : Option (List Record) := (run ⟨.start, [], [], []⟩ text).bind finish

/-! ## §2. The writer. -/

/-- What a bare field cannot have in it. -/
def special (c : Char) : Bool := decide (c = comma ∨ c = dquote ∨ c = cr ∨ c = lf)

/-- A quote inside quotes is written twice. -/
def double (c : Char) : List Char := if c = dquote then [dquote, dquote] else [c]

/-- Quoted if it has to be. -/
def writeField (t : Field) : List Char :=
  if t.any special then dquote :: (t.flatMap double ++ [dquote]) else t

/-- A line of fields. -/
def writeRecord (r : Record) : List Char := [comma].intercalate (r.map writeField)

/-- **The writer**: the lines, with breaks in between. -/
def write (records : List Record) : List Char := [cr, lf].intercalate (records.map writeRecord)

theorem intercalate_cons_cons (sep x y : List Char) (l : List (List Char)) :
    sep.intercalate (x :: y :: l) = x ++ (sep ++ sep.intercalate (y :: l)) := by
  simp [List.intercalate]

/-! ## §3. Reading what was written. -/

theorem run_append (s : Scan) (u v : List Char) :
    run s (u ++ v) = (run s u).bind fun s' => run s' v :=
  List.foldlM_append

theorem run_cons (s : Scan) (c : Char) (u : List Char) :
    run s (c :: u) = (scan s c).bind fun s' => run s' u := rfl

variable {f t : Field} {r : Record} {rs : List Record}

/-- A character that means nothing special goes into the field. -/
theorem scan_other {c : Char} (h : special c = false) (m : Mode) (hm : m = .start ∨ m = .bare) :
    scan ⟨m, f, r, rs⟩ c = some ⟨.bare, f ++ [c], r, rs⟩ := by
  simp only [special, decide_eq_false_iff_not, not_or] at h
  obtain ⟨hcomma, hquote, hcr, hlf⟩ := h
  rcases hm with rfl | rfl <;> simp [scan, hcomma, hquote, hcr, hlf]

/-- The rest of a bare field. -/
theorem run_bare (h : ∀ c ∈ t, special c = false) :
    run ⟨.bare, f, r, rs⟩ t = some ⟨.bare, f ++ t, r, rs⟩ := by
  induction t generalizing f with
  | nil =>
      rw [List.append_nil]
      rfl
  | cons c t ih =>
      obtain ⟨hc, ht⟩ := List.forall_mem_cons.mp h
      rw [run_cons, scan_other hc .bare (.inr rfl), Option.bind_some, ih ht, List.append_assoc]
      rfl

/-- The inside of a quoted field. -/
theorem run_quoted :
    run ⟨.quoted, f, r, rs⟩ (t.flatMap double) = some ⟨.quoted, f ++ t, r, rs⟩ := by
  induction t generalizing f with
  | nil =>
      rw [List.append_nil]
      rfl
  | cons c t ih =>
      have hone : run ⟨.quoted, f, r, rs⟩ (double c) = some ⟨.quoted, f ++ [c], r, rs⟩ := by
        unfold double
        split_ifs with hc
        · rw [hc]
          rfl
        · simp [run, scan, hc]
      rw [List.flatMap_cons, run_append, hone, Option.bind_some, ih, List.append_assoc]
      rfl

/-- A field has been read, the last of this record so far. -/
structure AtEnd (s : Scan) (record : Record) (records : List Record) : Prop where
  mode : s.mode = .start ∨ s.mode = .bare ∨ s.mode = .closed
  empty : s.mode = .start → s.field = []
  record : s.record ++ [s.field] = record
  records : s.records = records

/-- **A field** is read as it was written. -/
theorem run_field (t : Field) (r : Record) (rs : List Record) :
    ∃ s, run ⟨.start, [], r, rs⟩ (writeField t) = some s ∧ AtEnd s (r ++ [t]) rs := by
  unfold writeField
  split_ifs with hspecial
  · refine ⟨⟨.closed, t, r, rs⟩, ?_, .inr (.inr rfl), nofun, rfl, rfl⟩
    have hopen : scan ⟨.start, [], r, rs⟩ dquote = some ⟨.quoted, [], r, rs⟩ := rfl
    rw [run_cons, hopen, Option.bind_some, run_append, run_quoted]
    rfl
  · have hbare : ∀ c ∈ t, special c = false := by simpa using hspecial
    cases t with
    | nil => exact ⟨_, rfl, .inl rfl, fun _ => rfl, rfl, rfl⟩
    | cons c t =>
        obtain ⟨hc, ht⟩ := List.forall_mem_cons.mp hbare
        refine ⟨⟨.bare, c :: t, r, rs⟩, ?_, .inr (.inl rfl), nofun, rfl, rfl⟩
        rw [run_cons, scan_other hc .start (.inl rfl), Option.bind_some, run_bare ht]
        rfl

variable {s : Scan}

/-- A comma where a field may end begins the next one. -/
theorem scan_comma (h : AtEnd s r rs) : scan s comma = some ⟨.start, [], r, rs⟩ := by
  obtain ⟨m, f, r', rs'⟩ := s
  obtain ⟨hm, -, rfl, rfl⟩ := h
  rcases hm with hm | hm | hm <;> (dsimp only at hm; subst hm; rfl)

/-- A line break. -/
theorem run_lineBreak (h : AtEnd s r rs) (u : List Char) :
    run s ([cr, lf] ++ u) = run ⟨.start, [], [], rs ++ [r]⟩ u := by
  obtain ⟨m, f, r', rs'⟩ := s
  obtain ⟨hm, -, rfl, rfl⟩ := h
  rcases hm with hm | hm | hm <;> (dsimp only at hm; subst hm; rfl)

/-- **A record** is read as it was written. -/
theorem run_row (row : Record) (hrow : row ≠ []) (r : Record) (rs : List Record) :
    ∃ s, run ⟨.start, [], r, rs⟩ (writeRecord row) = some s ∧ AtEnd s (r ++ row) rs := by
  induction row generalizing r with
  | nil => exact absurd rfl hrow
  | cons t row ih =>
      obtain ⟨s, hrun, hend⟩ := run_field t r rs
      cases row with
      | nil => exact ⟨s, by simpa [writeRecord, List.intercalate] using hrun, hend⟩
      | cons t' row =>
          obtain ⟨s', hrun', hend'⟩ := ih (List.cons_ne_nil _ _) (r ++ [t])
          refine ⟨s', ?_, ?_⟩
          · unfold writeRecord at hrun' ⊢
            rw [List.map_cons, List.map_cons, intercalate_cons_cons, run_append, hrun,
              Option.bind_some, List.singleton_append, run_cons, scan_comma hend, Option.bind_some]
            exact hrun'
          · rwa [List.append_assoc] at hend'

/-- All of the records. -/
theorem run_write (records : List Record) (hrecords : ∀ row ∈ records, row ≠ [])
    (hne : records ≠ []) (rs : List Record) :
    ∃ s, run ⟨.start, [], [], rs⟩ (write records) = some s
      ∧ ∃ row ∈ records, ∃ before, AtEnd s row before ∧ before ++ [row] = rs ++ records := by
  induction records generalizing rs with
  | nil => exact absurd rfl hne
  | cons row records ih =>
      obtain ⟨hrow, hrest⟩ := List.forall_mem_cons.mp hrecords
      obtain ⟨s, hrun, hend⟩ := run_row row hrow [] rs
      cases records with
      | nil =>
          exact ⟨s, by simpa [write, List.intercalate] using hrun, row, List.mem_cons_self, rs,
            hend, rfl⟩
      | cons row' records =>
          obtain ⟨s', hrun', last, hlast, before, hend', hall⟩ :=
            ih hrest (List.cons_ne_nil _ _) (rs ++ [row])
          refine ⟨s', ?_, last, List.mem_cons_of_mem _ hlast, before, hend', ?_⟩
          · unfold write at hrun' ⊢
            rw [List.map_cons, List.map_cons, intercalate_cons_cons, run_append, hrun,
              Option.bind_some, run_lineBreak hend]
            exact hrun'
          · rw [hall, List.append_assoc]
            rfl

/-- The end of the text after a field, unless it is an empty field of its own. -/
theorem finish_atEnd (h : AtEnd s r rs) (hr : r ≠ [[]]) : finish s = some (rs ++ [r]) := by
  obtain ⟨m, f, r', rs'⟩ := s
  obtain ⟨hm, hempty, rfl, rfl⟩ := h
  dsimp only at hm hempty hr ⊢
  rcases hm with rfl | rfl | rfl
  · have hsome : r' ≠ [] := by
      rintro rfl
      rw [hempty rfl] at hr
      exact hr rfl
    exact if_neg hsome
  · rfl
  · rfl

/-- **The round trip.** -/
theorem parse_write {records : List Record} (hne : records ≠ [])
    (hrecords : ∀ row ∈ records, row ≠ [] ∧ row ≠ [[]]) : parse (write records) = some records := by
  obtain ⟨s, hrun, row, hrow, before, hend, hall⟩ :=
    run_write records (fun row hrow => (hrecords row hrow).1) hne []
  unfold parse
  rw [hrun, Option.bind_some, finish_atEnd hend (hrecords row hrow).2, hall, List.nil_append]

end OraOS.Lib.Csv
