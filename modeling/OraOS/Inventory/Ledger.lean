/-
  OraOS.Inventory.Ledger — the append-only stock ledger.

  A movement enters only through the table's constraints; stock is the sum of
  the movements.

    * `createMany_ok`     — a successful insert appends exactly the rows given;
    * `createMany_stored` — rows that meet the constraints are always stored;
    * `createMany_unkeyed` — rows without a key do not look at the ledger;
    * `ledgerSum_append`  — sums over the ledger split along an append.
-/
import OraOS.Api.Tables
import OraOS.Lib.Tally

namespace OraOS.Inventory

open OraOS.Api
open OraOS.Lib

/-! ## §1. Inserting movements. -/

/-- A key that is set is already on one of the rows (a unique index over a
nullable column). -/
def keyTaken (key : Option String) (keys : List (Option String)) : Bool :=
  key.isSome && keys.contains key

/-- `db.stockMovement.create`.  Postgres checks the constraints of a row in the
order of their names. -/
def insertMovement (l : List StockMovement) (m : NewMovement) :
    Except ApiError (List StockMovement) :=
  if hf : fitsInt4 m.quantity = true ∧ ∀ c ∈ m.totalCostMinor, fitsInt4 c = true then
    if hc : ∀ c ∈ m.totalCostMinor, 0 ≤ c then
      if hd : m.type.directionOk m.quantity = true then
        if hq : m.quantity ≠ 0 then
          if keyTaken m.idempotencyKey (l.map (·.idempotencyKey)) then
            .error (.uniqueViolation .movementIdempotencyKey)
          else .ok (l ++ [⟨m, hf.1, hf.2, hc, hd, hq⟩])
        else .error (.checkViolation "stock_movements_quantity_nonzero")
      else .error (.checkViolation "stock_movements_direction")
    else .error (.checkViolation "stock_movements_cost_non_negative")
  else .error .outOfRange

/-- `db.stockMovement.createMany`: all the rows or none. -/
def createMany (l : List StockMovement) (rows : List NewMovement) :
    Except ApiError (List StockMovement) :=
  runAll insertMovement rows l

/-- An insert that goes through appends its row. -/
theorem insertMovement_ok {l l' : List StockMovement} {m : NewMovement}
    (h : insertMovement l m = .ok l') :
    ∃ r : StockMovement, r.toNewMovement = m ∧ l' = l ++ [r] := by
  unfold insertMovement at h
  split at h
  next =>
    split at h
    next hc =>
      split at h
      next hd =>
        split at h
        next hq =>
          split at h
          next => cases h
          next =>
            injection h with h
            exact ⟨⟨m, _⟩, rfl, h.symm⟩
        next => cases h
      next => cases h
    next => cases h
  next => cases h

/-- A row that fits and has no key goes in. -/
theorem insertMovement_stored {l : List StockMovement} {m : NewMovement}
    (hs : m.Storable) (hk : m.idempotencyKey = none) :
    ∃ r : StockMovement, r.toNewMovement = m ∧ insertMovement l m = .ok (l ++ [r]) := by
  obtain ⟨hfit, hcfit, hc, hd, hq⟩ := hs
  refine ⟨⟨m, hfit, hcfit, hc, hd, hq⟩, rfl, ?_⟩
  have hfree : ¬ keyTaken m.idempotencyKey (l.map (·.idempotencyKey)) = true := by
    rw [hk]
    exact nofun
  unfold insertMovement
  rw [dif_pos ⟨hfit, hcfit⟩, dif_pos hc, dif_pos hd, dif_pos hq, if_neg hfree]

/-- **A successful insert appends the rows it was given**, in their order. -/
theorem createMany_ok {rows : List NewMovement} :
    ∀ {l l' : List StockMovement}, createMany l rows = .ok l' →
      ∃ new : List StockMovement, new.map (·.toNewMovement) = rows ∧ l' = l ++ new := by
  induction rows with
  | nil =>
      intro l l' h
      injection h with h
      exact ⟨[], rfl, by simp [h]⟩
  | cons m rows ih =>
      intro l l' h
      obtain ⟨l₁, h1, h2⟩ := bind_ok.mp h
      obtain ⟨r, hr, rfl⟩ := insertMovement_ok h1
      obtain ⟨new, hnew, rfl⟩ := ih h2
      exact ⟨r :: new, by rw [List.map_cons, hr, hnew], by simp⟩

theorem createMany_stored {rows : List NewMovement} :
    ∀ {l : List StockMovement}, (∀ m ∈ rows, m.Storable ∧ m.idempotencyKey = none) →
      ∃ new : List StockMovement, new.map (·.toNewMovement) = rows
        ∧ createMany l rows = .ok (l ++ new) := by
  induction rows with
  | nil =>
      intro l _
      exact ⟨[], rfl, by rw [List.append_nil]; rfl⟩
  | cons m rows ih =>
      intro l h
      obtain ⟨hs, hk⟩ := h m List.mem_cons_self
      obtain ⟨r, hr, h1⟩ := insertMovement_stored (l := l) hs hk
      obtain ⟨new, hnew, h2⟩ := ih (l := l ++ [r]) fun m' hm' => h m' (List.mem_cons_of_mem _ hm')
      refine ⟨r :: new, by rw [List.map_cons, hr, hnew], ?_⟩
      refine bind_ok.mpr ⟨l ++ [r], h1, ?_⟩
      show createMany (l ++ [r]) rows = .ok (l ++ r :: new)
      rw [h2, List.append_assoc, List.singleton_append]

/-- What a `createMany` of these rows adds to the ledger. -/
def storeRows (rows : List NewMovement) : Except ApiError (List StockMovement) :=
  createMany [] rows

/-- What is stored is what was asked for. -/
theorem storeRows_ok {rows : List NewMovement} {new : List StockMovement}
    (h : storeRows rows = .ok new) : new.map (·.toNewMovement) = rows := by
  obtain ⟨new', hnew, rfl⟩ := createMany_ok h
  exact hnew

/-- A row without a key clashes with none, whatever is there. -/
theorem insertMovement_unkeyed {m : NewMovement} (hk : m.idempotencyKey = none)
    (l : List StockMovement) :
    insertMovement l m = (insertMovement [] m).map fun new => l ++ new := by
  have hfree : ∀ l : List StockMovement,
      ¬ keyTaken m.idempotencyKey (l.map (·.idempotencyKey)) = true := by
    intro l
    rw [hk]
    exact Bool.false_ne_true
  unfold insertMovement
  split
  · split
    · split
      · split
        · rw [if_neg (hfree l), if_neg (hfree [])]
          rfl
        · rfl
      · rfl
    · rfl
  · rfl

/-- **Rows without a key do not look at the ledger**: they are added to it, or they
fail, whatever is there. -/
theorem createMany_unkeyed {rows : List NewMovement} (hk : ∀ m ∈ rows, m.idempotencyKey = none) :
    ∀ l : List StockMovement,
      createMany l rows = (storeRows rows).map fun new => l ++ new := by
  induction rows with
  | nil =>
      intro l
      show Except.ok l = Except.ok (l ++ [])
      rw [List.append_nil]
  | cons m rows ih =>
      intro l
      have hrest := ih fun m' hm' => hk m' (List.mem_cons_of_mem _ hm')
      show insertMovement l m >>= (createMany · rows)
        = (insertMovement [] m >>= (createMany · rows)).map fun new => l ++ new
      rw [insertMovement_unkeyed (hk m List.mem_cons_self) l, mapped_bind, bind_map]
      refine bind_congr fun new => ?_
      rw [hrest (l ++ new), hrest new]
      cases storeRows rows with
      | error e => rfl
      | ok rest =>
          show Except.ok (l ++ new ++ rest) = Except.ok (l ++ (new ++ rest))
          rw [List.append_assoc]

/-! ## §2. Sums over the ledger. -/

/-- The sum of the quantities of the movements that satisfy `p`. -/
def ledgerSum (p : NewMovement → Bool) (l : List StockMovement) : ℤ :=
  sumWhere (fun m => p m.toNewMovement) (·.quantity) l

@[simp] theorem ledgerSum_nil (p : NewMovement → Bool) : ledgerSum p [] = 0 := rfl

@[simp] theorem ledgerSum_append (p : NewMovement → Bool) (l l' : List StockMovement) :
    ledgerSum p (l ++ l') = ledgerSum p l + ledgerSum p l' :=
  sumWhere_append _ _ _ _

/-- A sum over stored rows is one over the rows as they were asked for. -/
theorem ledgerSum_rows {p : NewMovement → Bool} {new : List StockMovement}
    {rows : List NewMovement} (h : new.map (·.toNewMovement) = rows) :
    ledgerSum p new = sumWhere p (·.quantity) rows := by
  rw [← h, sumWhere_map]
  rfl

/-- `stockByIngredient`, at one ingredient. -/
def stockOf (l : List StockMovement) (ingredientId : Uuid) : ℤ :=
  ledgerSum (fun m => decide (m.ingredientId = ingredientId)) l

/-- `remainingByBatch`, at one batch: its rows but for the raw leg. -/
def remainingOf (l : List StockMovement) (prepBatchId : Uuid) : ℤ :=
  ledgerSum (fun m =>
    decide (m.prepBatchId = some prepBatchId) && decide (m.type ≠ .prepBatch)) l

/-- What the rows tagged with an order come to over the (ingredient, batch) pairs
that satisfy `p`. -/
def taggedSum (l : List StockMovement) (orderId : Uuid) (p : Uuid × Option Uuid → Bool) : ℤ :=
  ledgerSum (fun m => decide (m.orderId = some orderId) && p (m.ingredientId, m.prepBatchId)) l

/-- `SUM(quantity)` over the order's rows of one ingredient and batch. -/
def taggedAt (l : List StockMovement) (orderId ingredientId : Uuid) (prepBatchId : Option Uuid) :
    ℤ :=
  taggedSum l orderId fun k => decide (k = (ingredientId, prepBatchId))

/-- `SUM(quantity)` over the order's rows of one ingredient, whatever the batch. -/
def taggedOf (l : List StockMovement) (orderId ingredientId : Uuid) : ℤ :=
  taggedSum l orderId fun k => decide (k.1 = ingredientId)

end OraOS.Inventory
