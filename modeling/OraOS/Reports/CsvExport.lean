/-
  OraOS.Reports.CsvExport — the CSV files of the dashboard.

  Every cell is neutralised, then quoted if it has to be.  A cell that begins like a formula is
  given an apostrophe, whatever it holds: an amount of less than nothing begins with a minus.

    * `minorToCsv_head`, `toText_head`
                       — which amounts and numbers begin like a formula: the negative ones;
    * `csv_round_trip` — what comes back of an export, cell by cell.
-/
import OraOS.Lib.Csv
import OraOS.Reports.Settlement

namespace OraOS.Reports

open OraOS.Api
open OraOS.Lib
open OraOS.Lib.Csv (comma dquote cr lf)

/-! ## §1. Numbers as text. -/

/-- A number of the browser; a finite one has the decimal digits that tell it apart, without
zeros around them, of which `point` are before the decimal point. -/
inductive JsNumber where
  | nan
  | infinity (negative : Bool)
  | zero
  | finite (negative : Bool) (first : Fin 10) (rest : List (Fin 10)) (point : ℤ)
  deriving DecidableEq, Repr

/-- A minus sign. -/
def minus : Char := Char.ofNat 45

/-- What a formula is neutralised with. -/
def apostrophe : Char := Char.ofNat 39

/-- A digit. -/
def digitChar (d : Fin 10) : Char := Char.ofNat (48 + d)

/-- An exponent, with its sign. -/
def exponentText (e : ℤ) : List Char :=
  ['e', if 0 ≤ e then '+' else minus] ++ Nat.toDigits 10 e.natAbs

/-- `Number::toString` of a positive number. -/
def digitsText (first : Fin 10) (rest : List (Fin 10)) (point : ℤ) : List Char :=
  let digits := (first :: rest).map digitChar
  if digits.length ≤ point ∧ point ≤ 21 then
    digits ++ List.replicate (point - digits.length).toNat '0'
  else if 0 < point ∧ point ≤ 21 then
    digits.take point.toNat ++ '.' :: digits.drop point.toNat
  else if -6 < point ∧ point ≤ 0 then
    ['0', '.'] ++ List.replicate (-point).toNat '0' ++ digits
  else if rest = [] then digits ++ exponentText (point - 1)
  else digitChar first :: '.' :: rest.map digitChar ++ exponentText (point - 1)

/-- `String(x)`. -/
def JsNumber.toText : JsNumber → List Char
  | .nan => "NaN".toList
  | .infinity negative => (if negative then [minus] else []) ++ "Infinity".toList
  | .zero => ['0']
  | .finite negative first rest point =>
      (if negative then [minus] else []) ++ digitsText first rest point

/-- Whether a number is written with a minus sign. -/
def JsNumber.isNegative : JsNumber → Bool
  | .infinity negative => negative
  | .finite negative _ _ _ => negative
  | _ => false

/-- An integer that the browser has exactly. -/
def JsNumber.ofInt (n : ℤ) : JsNumber :=
  let digits := (Nat.toDigits 10 n.natAbs).map fun c => Fin.ofNat 10 (c.toNat - 48)
  match (digits.reverse.dropWhile (· = 0)).reverse with
  | [] => .zero
  | first :: rest => .finite (decide (n < 0)) first rest digits.length

example : (JsNumber.ofInt (-1200)).toText = "-1200".toList := by decide

/-- `minorToCsv`: `(minor / 100).toFixed(2)`. -/
def minorToCsv (minor : ℤ) : List Char :=
  let n := minor.natAbs
  (if minor < 0 then [minus] else [])
    ++ (Nat.toDigits 10 (n / 100) ++ ['.', Nat.digitChar (n / 10 % 10), Nat.digitChar (n % 10)])

example : minorToCsv 12345 = "123.45".toList := by decide

/-! ## §2. `csvCell` and `toCsv`. -/

/-- What stands in a cell before it is written. -/
inductive CsvValue where
  | null
  | text (s : List Char)
  | number (x : JsNumber)
  deriving DecidableEq, Repr

/-- `String(value)`, and nothing for a missing value. -/
def CsvValue.toText : CsvValue → List Char
  | .null => []
  | .text s => s
  | .number x => x.toText

/-- `/^[=+\-@\t\r]/` -/
def isFormula (s : List Char) : Bool :=
  match s with
  | [] => false
  | c :: _ => decide (c = '=' ∨ c = '+' ∨ c = minus ∨ c = '@' ∨ c = Char.ofNat 9 ∨ c = cr)

/-- A text that a spreadsheet would run is prefixed. -/
def neutralise (s : List Char) : List Char := if isFormula s then apostrophe :: s else s

/-- `csvCell`. -/
def csvCell (value : CsvValue) : List Char :=
  match value with
  | .null => []
  | value =>
      let s := neutralise value.toText
      if s.any fun c => decide (c = dquote ∨ c = comma ∨ c = cr ∨ c = lf) then
        dquote :: (s.flatMap (fun c => if c = dquote then [dquote, dquote] else [c]) ++ [dquote])
      else s

/-- `toCsv`. -/
def toCsv (headers : List (List Char)) (rows : List (List CsvValue)) : List Char :=
  let lines := [comma].intercalate (headers.map fun h => csvCell (.text h))
    :: rows.map fun row => [comma].intercalate (row.map csvCell)
  [cr, lf].intercalate lines

/-- A payment method as it is exported. -/
def methodText : PaymentMethod → List Char
  | .cash => "CASH".toList
  | .upi => "UPI".toList
  | .card => "CARD".toList
  | .wallet => "WALLET".toList
  | .other => "OTHER".toList

/-- The CSV of the settlement report. -/
def settlementCsv (rows : List SettlementRow) : List Char :=
  toCsv
    ["Method".toList, "Orders".toList, "Captured (INR)".toList, "Refunded (INR)".toList,
      "Net (INR)".toList]
    (rows.map fun r =>
      [.text (methodText r.method), .number (JsNumber.ofInt r.count),
        .text (minorToCsv r.capturedMinor), .text (minorToCsv r.refundedMinor),
        .text (minorToCsv r.netMinor)])

/-! ## §3. What begins like a formula. -/

/-- A digit starts no formula. -/
theorem isFormula_digit {c : Char} (hc : c.isDigit = true) (s : List Char) :
    isFormula (c :: s) = false := by
  simp only [isFormula, decide_eq_false_iff_not]
  rintro (rfl | rfl | rfl | rfl | rfl | rfl) <;> revert hc <;> decide

theorem isFormula_minus (s : List Char) : isFormula (minus :: s) = true := by
  simp [isFormula]

/-- What a decimal begins with. -/
theorem isFormula_toDigits (n : ℕ) (s : List Char) :
    isFormula (Nat.toDigits 10 n ++ s) = false := by
  cases hdigits : Nat.toDigits 10 n with
  | nil => exact absurd hdigits Nat.toDigits_ne_nil
  | cons c l =>
      have hc : c ∈ Nat.toDigits 10 n := hdigits ▸ List.mem_cons_self
      exact isFormula_digit (Nat.isDigit_of_mem_toDigits (by decide) (by decide) hc) (l ++ s)

/-- **An amount** begins like a formula if it is negative. -/
theorem minorToCsv_head (minor : ℤ) : isFormula (minorToCsv minor) = decide (minor < 0) := by
  unfold minorToCsv
  dsimp only
  split_ifs with h
  · rw [List.singleton_append, isFormula_minus, decide_eq_true h]
  · rw [List.nil_append, isFormula_toDigits, decide_eq_false h]

/-- No digit of a number does. -/
theorem isFormula_digitChar (d : Fin 10) (s : List Char) :
    isFormula (digitChar d :: s) = false := by
  refine isFormula_digit ?_ s
  revert d
  decide

/-- **A number that is not negative is no formula.** -/
theorem isFormula_digitsText (first : Fin 10) (rest : List (Fin 10)) (point : ℤ) :
    isFormula (digitsText first rest point) = false := by
  unfold digitsText
  dsimp only
  split_ifs with h₁ h₂ h₃ h₄
  · exact isFormula_digitChar _ _
  -- the point stands behind the first digit
  · obtain ⟨n, hn⟩ : ∃ n, point.toNat = n + 1 := ⟨point.toNat - 1, by omega⟩
    rw [hn]
    exact isFormula_digitChar _ _
  · rfl
  · exact isFormula_digitChar _ _
  · exact isFormula_digitChar _ _

/-- **A number** begins like a formula if it is negative. -/
theorem toText_head (x : JsNumber) : isFormula x.toText = x.isNegative := by
  cases x with
  | nan => rfl
  | infinity negative => cases negative <;> rfl
  | zero => rfl
  | finite negative first rest point =>
      cases negative with
      | true => exact isFormula_minus _
      | false => exact isFormula_digitsText first rest point

/-! ## §4. The round trip. -/

/-- A cell is a field of RFC 4180. -/
theorem csvCell_eq (value : CsvValue) :
    csvCell value = Csv.writeField (neutralise value.toText) := by
  have hspecial : (fun c => decide (c = dquote ∨ c = comma ∨ c = cr ∨ c = lf)) = Csv.special :=
    funext fun c => decide_eq_decide.mpr or_left_comm
  cases value with
  | null => rfl
  | text s =>
      unfold csvCell Csv.writeField
      rw [← hspecial]
      rfl
  | number x =>
      unfold csvCell Csv.writeField
      rw [← hspecial]
      rfl

/-- A row, as fields. -/
def cells (row : List CsvValue) : Csv.Record := row.map fun value => neutralise value.toText

/-- A row is written cell by cell. -/
theorem writeRecord_cells (row : List CsvValue) :
    [comma].intercalate (row.map csvCell) = Csv.writeRecord (cells row) := by
  unfold Csv.writeRecord cells
  rw [List.map_map]
  exact congrArg _ (List.map_congr_left fun value _ => csvCell_eq value)

/-- The whole export is written as RFC 4180 has it. -/
theorem toCsv_eq (headers : List (List Char)) (rows : List (List CsvValue)) :
    toCsv headers rows = Csv.write (cells (headers.map .text) :: rows.map cells) := by
  have hheaders : (headers.map fun h => csvCell (.text h)) = (headers.map .text).map csvCell := by
    rw [List.map_map]
    rfl
  have hrows : (rows.map fun row => [comma].intercalate (row.map csvCell))
      = (rows.map cells).map Csv.writeRecord := by
    rw [List.map_map]
    exact List.map_congr_left fun row _ => writeRecord_cells row
  unfold toCsv Csv.write
  dsimp only
  rw [hheaders, hrows, writeRecord_cells, List.map_cons]

/-- What comes back of one cell. -/
structure CameBack (value : CsvValue) (cell : Csv.Field) : Prop where
  null : value = .null → cell = []
  number : ∀ x, value = .number x →
    cell = if x.isNegative then apostrophe :: x.toText else x.toText
  amount : ∀ minor, value = .text (minorToCsv minor) →
    cell = if minor < 0 then apostrophe :: minorToCsv minor else minorToCsv minor
  text : ∀ s, value = .text s → cell = if isFormula s then apostrophe :: s else s

/-- **What is read back is the text, or the text behind the prefix.** -/
theorem cameBack_neutralise (value : CsvValue) : CameBack value (neutralise value.toText) where
  null := by
    rintro rfl
    rfl
  number := by
    rintro x rfl
    simp only [neutralise, CsvValue.toText, toText_head]
  amount := by
    rintro minor rfl
    simp only [neutralise, CsvValue.toText, minorToCsv_head, decide_eq_true_eq]
  text := by
    rintro s rfl
    rfl

theorem forall₂_map {α β : Type} {R : α → β → Prop} {f : α → β} (h : ∀ a, R a (f a))
    (l : List α) : List.Forall₂ R l (l.map f) := by
  induction l with
  | nil => exact .nil
  | cons a l ih => exact .cons (h a) ih

/-- **The round trip**: with two columns or more, the export has the records and the cells of the
table, and each cell comes back. -/
theorem csv_round_trip (headers : List (List Char)) (rows : List (List CsvValue))
    (hheaders : 2 ≤ headers.length) (hrows : ∀ row ∈ rows, 2 ≤ row.length) :
    ∃ header records, Csv.parse (toCsv headers rows) = some (header :: records)
      ∧ List.Forall₂ CameBack (headers.map .text) header
      ∧ List.Forall₂ (List.Forall₂ CameBack) rows records := by
  have hwide : ∀ row ∈ headers.map .text :: rows, cells row ≠ [] ∧ cells row ≠ [[]] := by
    intro row hrow
    -- a single empty cell would read back as no record at all
    have htwo : 2 ≤ (cells row).length := by
      unfold cells
      rw [List.length_map]
      rcases List.mem_cons.mp hrow with rfl | hrow
      · rwa [List.length_map]
      · exact hrows row hrow
    constructor <;>
    · intro h
      rw [h] at htwo
      exact absurd htwo (by decide)
  refine ⟨cells (headers.map .text), rows.map cells, ?_, forall₂_map cameBack_neutralise _,
    forall₂_map (forall₂_map cameBack_neutralise) rows⟩
  rw [toCsv_eq]
  refine Csv.parse_write (List.cons_ne_nil _ _) fun record hrecord => ?_
  rw [← List.map_cons] at hrecord
  obtain ⟨row, hrow, rfl⟩ := List.mem_map.mp hrecord
  exact hwide row hrow

/-- A dish, and a customer whose name begins like a formula. -/
theorem csv_round_trip_menu :
    ∃ header records,
      Csv.parse (toCsv ["Name".toList, "Spend".toList]
        [[.text "Dal, \"Tadka\"".toList, .text (minorToCsv 24000)],
          [.text "=SUM(A1)".toList, .number (JsNumber.ofInt (-3))]]) = some (header :: records)
      ∧ List.Forall₂ CameBack (["Name".toList, "Spend".toList].map .text) header
      ∧ List.Forall₂ (List.Forall₂ CameBack)
          [[.text "Dal, \"Tadka\"".toList, .text (minorToCsv 24000)],
            [.text "=SUM(A1)".toList, .number (JsNumber.ofInt (-3))]] records :=
  csv_round_trip _ _ (by decide) (by decide)

/-- More is refunded in a window than is captured in it: the net comes back as a text. -/
theorem refunded_net_is_text :
    Csv.parse (settlementCsv [⟨.upi, 100, 600, -500, 1⟩])
        = some [["Method".toList, "Orders".toList, "Captured (INR)".toList,
              "Refunded (INR)".toList, "Net (INR)".toList],
            ["UPI".toList, "1".toList, minorToCsv 100, minorToCsv 600,
              apostrophe :: minorToCsv (-500)]]
      ∧ apostrophe :: minorToCsv (-500) ≠ minorToCsv (-500) := by
  decide

end OraOS.Reports
