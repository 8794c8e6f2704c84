/-
  OraOS.Api.Text — names reduced to letters and digits.

  `[^a-z0-9]+` keeps ASCII only, so whatever Unicode makes of a name before is of no
  further interest than the text it leaves; the tables themselves are a parameter.
-/
import Mathlib.Tactic
import Mathlib.Data.List.DropRight

namespace OraOS.Api

/-- What the runtime knows of Unicode. -/
structure Unicode where
  toLowerCase : List Char → List Char
  normalizeNFKD : List Char → List Char
  isDiacritic : Char → Bool

/-- `[a-z0-9]`. -/
def isAlnum (c : Char) : Bool :=
  (decide ('a' ≤ c) && decide (c ≤ 'z')) || (decide ('0' ≤ c) && decide (c ≤ '9'))

/-- `.replace(/[^a-z0-9]+/g, sep)`; `inRun` says that a run has been replaced and goes
on. -/
def replaceRuns (sep : Char) : Bool → List Char → List Char
  | _, [] => []
  | inRun, c :: cs =>
      if isAlnum c then c :: replaceRuns sep false cs
      else if inRun then replaceRuns sep true cs
      else sep :: replaceRuns sep true cs

/-- Takes a character off both ends. -/
def trimChar (sep : Char) (cs : List Char) : List Char :=
  (cs.dropWhile fun c => decide (c = sep)).rdropWhile fun c => decide (c = sep)

/-- Unicode as far as ASCII goes. -/
def Unicode.ascii : Unicode where
  toLowerCase cs := cs.map Char.toLower
  normalizeNFKD cs := cs
  isDiacritic _ := false

example : trimChar '-' (replaceRuns '-' false ("  momo & co.".toList)) = "momo-co".toList := by
  decide

end OraOS.Api
