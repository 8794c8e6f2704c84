/-
  OraOS.MenuImport.Match — telling a scanned item from the catalogue's.

  Names are compared as `normalizeName` leaves them: lower case, without accents, anything
  but `[a-z0-9]` a space.  A name in another script leaves nothing, and `similarName` takes
  nothing for similar to it; the search of `matchItem` for the exact name does.

    * `similarName_of_norm`   — names alike, if anything is left of them, are similar;
    * `matchItem_similar_iff` — when `matchItem` reports similar names only.
-/
import OraOS.Api.Base
import OraOS.Api.Text
import OraOS.Lib.Outcome

namespace OraOS.MenuImport

open OraOS.Api

/-! ## §1. Names. -/

variable (U : Unicode)

/-- `normalizeName`. -/
def normalizeName (s : String) : List Char :=
  trimChar ' ' (replaceRuns ' ' false
    ((U.normalizeNFKD (U.toLowerCase s.toList)).filter fun c => !U.isDiacritic c))

/-- The inner loop of `editDistance`: the row below `prev`, from the cell right of `left` on. -/
def editRow (c : Char) : List Char → List ℕ → ℕ → List ℕ
  | x :: b, diagonal :: above :: prev, left =>
      let cost := if c = x then 0 else 1
      let cell := min (min (above + 1) (left + 1)) (diagonal + cost)
      cell :: editRow c b (above :: prev) cell
  | _, _, _ => []

/-- The outer loop: `i` is the row to come. -/
def editRows (b : List Char) : ℕ → List Char → List ℕ → List ℕ
  | _, [], prev => prev
  | i, c :: a, prev => editRows b (i + 1) a (i :: editRow c b prev i)

/-- `editDistance`. -/
def editDistance (a b : List Char) : ℕ :=
  if a = [] then b.length
  else if b = [] then a.length
  else ((editRows b 1 a (List.range (b.length + 1))).getLast?).getD 0

example : editDistance "momo".toList "momos".toList = 1 := by decide

/-- `similarName`; a quotient of at most 0.2 is a distance of at most a fifth. -/
def similarName (a b : String) : Bool :=
  let na := normalizeName U a
  let nb := normalizeName U b
  if na = [] ∨ nb = [] then false
  else if na = nb then true
  else
    let d := editDistance na nb
    decide (d ≤ 2) && decide (5 * d ≤ max na.length nb.length)

/-! ## §2. One item against the catalogue. -/

/-- What the matching reads of a product. -/
structure ExistingProduct where
  id : Uuid
  name : String
  priceMinor : ℤ
  deriving DecidableEq, Repr

/-- What the review page says of a dish. -/
inductive MatchKind where
  | new
  | duplicate
  | priceChange
  deriving DecidableEq, Repr

/-- A dish of the menu beside what the catalogue has. -/
structure Match where
  kind : MatchKind
  productId : Option Uuid
  existingPriceMinor : Option ℤ
  deriving DecidableEq, Repr

/-- `hit`: the exact name first, then a similar one. -/
def findHit (name : String) (existing : List ExistingProduct) : Option ExistingProduct :=
  (existing.find? fun p => decide (normalizeName U p.name = normalizeName U name)).or
    (existing.find? fun p => similarName U p.name name)

/-- `matchItem`. -/
def matchItem (name : String) (priceMinor : Option ℤ) (existing : List ExistingProduct) : Match :=
  match findHit U name existing with
  | none => ⟨.new, none, none⟩
  | some hit =>
      if priceMinor.isSome ∧ priceMinor ≠ some hit.priceMinor then
        ⟨.priceChange, some hit.id, some hit.priceMinor⟩
      else ⟨.duplicate, some hit.id, some hit.priceMinor⟩

/-- A duplicate or a price change of this product. -/
def Match.Reports (m : Match) (p : ExistingProduct) : Prop :=
  m.kind ≠ .new ∧ m.productId = some p.id

instance (m : Match) (p : ExistingProduct) : Decidable (m.Reports p) :=
  inferInstanceAs (Decidable (_ ∧ _))

/-! ## §3. When it is the same dish. -/

variable {U}

/-- **Names alike are similar**, if anything is left of them. -/
theorem similarName_of_norm {a b : String} (h : normalizeName U a = normalizeName U b) :
    similarName U a b = true ↔ normalizeName U b ≠ [] := by
  unfold similarName
  dsimp only
  by_cases hnil : normalizeName U b = []
  · rw [h, if_pos (.inl hnil)]
    simp [hnil]
  · rw [h, if_neg (by simp [hnil]), if_pos rfl]
    simp [hnil]

/-- Nothing is similar to a name of which nothing is left. -/
theorem similarName_ne_nil {a b : String} (h : similarName U a b = true) :
    normalizeName U a ≠ [] ∧ normalizeName U b ≠ [] := by
  unfold similarName at h
  dsimp only at h
  split at h
  next => cases h
  next hnot => exact not_or.mp hnot

/-- A hit has the same normalised name or one that resembles it. -/
theorem findHit_some {name : String} {existing : List ExistingProduct} {p : ExistingProduct}
    (h : findHit U name existing = some p) :
    p ∈ existing ∧ (normalizeName U p.name = normalizeName U name ∨ similarName U p.name name) := by
  rcases Option.or_eq_some_iff.mp h with hexact | ⟨-, hsimilar⟩
  · exact ⟨List.mem_of_find?_eq_some hexact, .inl (by simpa using List.find?_some hexact)⟩
  · exact ⟨List.mem_of_find?_eq_some hsimilar, .inr (by simpa using List.find?_some hsimilar)⟩

/-- A match reports the product that was hit. -/
theorem matchItem_reports {name : String} {priceMinor : Option ℤ}
    {existing : List ExistingProduct} {p : ExistingProduct} :
    (matchItem U name priceMinor existing).Reports p
      ↔ ∃ hit, findHit U name existing = some hit ∧ hit.id = p.id := by
  unfold matchItem Match.Reports
  cases findHit U name existing with
  | none => simp
  | some hit =>
      dsimp only
      split <;> simp

/-- **When `matchItem` reports similar names only**: unless nothing is left of the name, nor
of one in the catalogue. -/
theorem matchItem_similar_iff {name : String} {priceMinor : Option ℤ}
    {existing : List ExistingProduct} (hids : (existing.map (·.id)).Nodup) :
    (∀ p ∈ existing, (matchItem U name priceMinor existing).Reports p →
        similarName U p.name name = true)
      ↔ ¬ (normalizeName U name = [] ∧ ∃ p ∈ existing, normalizeName U p.name = []) := by
  constructor
  · rintro hall ⟨hname, p, hp, hnil⟩
    -- the exact search finds some such product
    have hsome : (existing.find? fun p =>
        decide (normalizeName U p.name = normalizeName U name)).isSome := by
      rw [List.find?_isSome]
      exact ⟨p, hp, decide_eq_true (hnil.trans hname.symm)⟩
    obtain ⟨hit, hhit⟩ := Option.isSome_iff_exists.mp hsome
    have hfound : findHit U name existing = some hit := by
      rw [findHit, hhit, Option.some_or]
    have hsimilar := hall hit (findHit_some hfound).1
      (matchItem_reports.mpr ⟨hit, hfound, rfl⟩)
    exact (similarName_ne_nil hsimilar).2 hname
  · intro hnot p hp hreports
    obtain ⟨hit, hfound, hid⟩ := matchItem_reports.mp hreports
    obtain ⟨hmem, hnorm | hsimilar⟩ := findHit_some hfound
    · rw [← List.inj_on_of_nodup_map hids hmem hp hid]
      refine (similarName_of_norm hnorm).mpr fun hnil => hnot ⟨hnil, hit, hmem, hnorm.trans hnil⟩
    · rw [← List.inj_on_of_nodup_map hids hmem hp hid]
      exact hsimilar

end OraOS.MenuImport
