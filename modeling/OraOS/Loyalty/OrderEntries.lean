/-
  OraOS.Loyalty.OrderEntries — the ledger entries tied to one order.

  An order has at most one entry of each of four types, and an undo entry mirrors
  the entry it undoes.  `LedgerInv` says so of a whole ledger:

    * `LedgerInv.append`       — it survives the append of a fresh entry;
    * `LedgerInv.undone`       — and each undo step of the hooks;
    * `LedgerInv.tiedPoints_eq_zero` — where both pairs are complete, the entries
                                 of the order come to 0.
-/
import OraOS.Loyalty.Ledger

namespace OraOS.Loyalty

open OraOS.Api
open OraOS.Lib

/-! ## §1. Looking entries up after an append. -/

theorem entryOf_append {l : List LoyaltyEntry} {orderId : Uuid} {r : LoyaltyEntry}
    (h : Fresh l orderId r) (orderId' : Uuid) (type : LoyaltyEntryType) :
    entryOf (l ++ [r]) orderId' type
      = if orderId = orderId' ∧ r.type = type then some r else entryOf l orderId' type := by
  unfold entryOf
  rw [List.find?_append]
  split
  next heq =>
    obtain ⟨rfl, rfl⟩ := heq
    have hnone := h.first
    unfold entryOf at hnone
    rw [hnone]
    simp [h.order]
  next hne =>
    have hmiss : [r].find? (fun e => decide (e.orderId = some orderId') && decide (e.type = type))
        = none := by
      rw [List.find?_eq_none]
      intro e he
      rw [List.mem_singleton.mp he, h.order]
      simp only [Option.some.injEq, Bool.and_eq_true, decide_eq_true_eq]
      exact hne
    rw [hmiss, Option.or_none]

/-- An entry of another order is found as before. -/
theorem entryOf_append_other {l : List LoyaltyEntry} {orderId : Uuid} {r : LoyaltyEntry}
    (h : Fresh l orderId r) {orderId' : Uuid} (hne : orderId ≠ orderId')
    (type : LoyaltyEntryType) : entryOf (l ++ [r]) orderId' type = entryOf l orderId' type := by
  rw [entryOf_append h, if_neg fun hand => hne hand.1]

/-- Entries of another kind are found as before. -/
theorem entryOf_append_type {l : List LoyaltyEntry} {orderId : Uuid} {r : LoyaltyEntry}
    (h : Fresh l orderId r) {type : LoyaltyEntryType} (hne : r.type ≠ type) (orderId' : Uuid) :
    entryOf (l ++ [r]) orderId' type = entryOf l orderId' type := by
  rw [entryOf_append h, if_neg fun hand => hne hand.2]

theorem entryOf_append_self {l : List LoyaltyEntry} {orderId : Uuid} {r : LoyaltyEntry}
    (h : Fresh l orderId r) : entryOf (l ++ [r]) orderId r.type = some r := by
  rw [entryOf_append h, if_pos ⟨rfl, rfl⟩]

/-! ## §2. What the entries of an order come to. -/

/-- `SUM(points)` of the entries tied to an order, for the customers that satisfy
`q`. -/
def tiedPoints (l : List LoyaltyEntry) (orderId : Uuid) (q : Uuid → Bool) : ℤ :=
  sumWhere (fun e => decide (e.orderId = some orderId) && q e.customerId) (·.points) l

/-- What an entry gives the customers that satisfy `q`. -/
def valueFor (q : Uuid → Bool) : Option LoyaltyEntry → ℤ
  | some e => if q e.customerId then e.points else 0
  | none => 0

/-- `undo` entries mirror the `type` entry of their order. -/
def Mirrors (l : List LoyaltyEntry) (type undo : LoyaltyEntryType) : Prop :=
  ∀ orderId r, entryOf l orderId undo = some r → ∃ e, entryOf l orderId type = some e
    ∧ r.points = -e.points ∧ r.customerId = e.customerId

structure LedgerInv (l : List LoyaltyEntry) : Prop where
  sum : ∀ orderId q, tiedPoints l orderId q
    = valueFor q (entryOf l orderId .earn) + valueFor q (entryOf l orderId .refundReversal)
      + valueFor q (entryOf l orderId .redeem) + valueFor q (entryOf l orderId .redeemReversal)
  reversal : Mirrors l .earn .refundReversal
  restore : Mirrors l .redeem .redeemReversal
  /-- restoring a redemption stays within the column -/
  fits : ∀ orderId e, entryOf l orderId .redeem = some e → fitsInt4 (-e.points) = true

/-- A ledger with no entry tied to an order. -/
theorem LedgerInv.untied {l : List LoyaltyEntry} (h : ∀ e ∈ l, e.orderId = none) :
    LedgerInv l := by
  have hnone : ∀ orderId type, entryOf l orderId type = none := by
    intro orderId type
    refine List.find?_eq_none.mpr ?_
    intro e he
    simp [h e he]
  refine ⟨?_, ?_, ?_, ?_⟩
  · intro orderId q
    have hzero : tiedPoints l orderId q = 0 := by
      refine sumWhere_eq_zero ?_
      intro e he hp
      simp [h e he] at hp
    simp [hzero, hnone, valueFor]
  · intro orderId r hr
    rw [hnone] at hr
    cases hr
  · intro orderId r hr
    rw [hnone] at hr
    cases hr
  · intro orderId e he
    rw [hnone] at he
    cases he

theorem tiedPoints_append (l : List LoyaltyEntry) (r : LoyaltyEntry) (orderId : Uuid)
    (q : Uuid → Bool) :
    tiedPoints (l ++ [r]) orderId q
      = tiedPoints l orderId q + if r.orderId = some orderId then valueFor q (some r) else 0 := by
  unfold tiedPoints valueFor
  rw [sumWhere_append, sumWhere_cons, sumWhere_nil, add_zero]
  by_cases ho : r.orderId = some orderId
  · simp [ho]
  · simp [ho]

/-- The four types of entry a sale can have. -/
def ofSale : LoyaltyEntryType → Bool
  | .earn | .redeem | .refundReversal | .redeemReversal => true
  | .adjust | .expire => false

/-- A mirror pair survives the append of an entry that is no undo, or that mirrors
the entry there is. -/
theorem Mirrors.append {l : List LoyaltyEntry} {type undo : LoyaltyEntryType} (hne : undo ≠ type)
    (hl : Mirrors l type undo) {orderId : Uuid} {r : LoyaltyEntry} (h : Fresh l orderId r)
    (hr : r.type = undo → ∃ e, entryOf l orderId type = some e ∧ r.points = -e.points
      ∧ r.customerId = e.customerId) : Mirrors (l ++ [r]) type undo := by
  intro orderId' r' hr'
  rw [entryOf_append h] at hr'
  split at hr'
  next heq =>
    obtain ⟨rfl, htype⟩ := heq
    cases hr'
    obtain ⟨e, he, hpoints, hcustomer⟩ := hr htype
    refine ⟨e, ?_, hpoints, hcustomer⟩
    rw [entryOf_append_type h (htype ▸ hne)]
    exact he
  next =>
    obtain ⟨e, he, hpoints, hcustomer⟩ := hl orderId' r' hr'
    refine ⟨e, ?_, hpoints, hcustomer⟩
    rw [entryOf_append h, if_neg]
    · exact he
    · -- the new entry was the first of its type, and here there is one already
      rintro ⟨rfl, htype⟩
      have hfirst := h.first
      rw [htype, he] at hfirst
      cases hfirst

/-- **A fresh entry of a sale** keeps the invariant, if an undo entry mirrors its
counterpart and a redemption is small enough to be restored. -/
theorem LedgerInv.append {l : List LoyaltyEntry} (hl : LedgerInv l) {orderId : Uuid}
    {r : LoyaltyEntry} (h : Fresh l orderId r) (hsale : ofSale r.type = true)
    (hreversal : r.type = .refundReversal → ∃ e, entryOf l orderId .earn = some e
      ∧ r.points = -e.points ∧ r.customerId = e.customerId)
    (hrestore : r.type = .redeemReversal → ∃ e, entryOf l orderId .redeem = some e
      ∧ r.points = -e.points ∧ r.customerId = e.customerId)
    (hfits : r.type = .redeem → fitsInt4 (-r.points) = true) : LedgerInv (l ++ [r]) := by
  refine ⟨?_, hl.reversal.append (by decide) h hreversal, hl.restore.append (by decide) h hrestore,
    ?_⟩
  · intro orderId' q
    rw [tiedPoints_append, hl.sum, h.order]
    by_cases ho : orderId = orderId'
    · subst ho
      rw [if_pos rfl]
      -- exactly the summand of the new entry's type changes, from 0
      have hfirst := h.first
      simp only [entryOf_append h, true_and]
      cases htype : r.type with
      | earn =>
          rw [htype] at hfirst
          simp [hfirst, valueFor]
          omega
      | redeem =>
          rw [htype] at hfirst
          simp [hfirst, valueFor]
          omega
      | refundReversal =>
          rw [htype] at hfirst
          simp [hfirst, valueFor]
          omega
      | redeemReversal =>
          rw [htype] at hfirst
          simp [hfirst, valueFor]
      | adjust =>
          rw [htype] at hsale
          cases hsale
      | expire =>
          rw [htype] at hsale
          cases hsale
    · rw [if_neg fun heq => ho (Option.some.inj heq), add_zero, entryOf_append_other h ho,
        entryOf_append_other h ho, entryOf_append_other h ho, entryOf_append_other h ho]
  · intro orderId' e he
    rw [entryOf_append h] at he
    split at he
    next heq =>
      cases he
      exact hfits heq.2
    next => exact hl.fits orderId' e he

/-! ## §3. The undo steps. -/

/-- The order's entry of one type, if any, has been undone by one of the other. -/
def IsUndone (l : List LoyaltyEntry) (orderId : Uuid) (type undo : LoyaltyEntryType) : Prop :=
  (entryOf l orderId type).isSome = true → (entryOf l orderId undo).isSome = true

/-- What an undo step leaves: the invariant, the undo itself, and every other entry
as it was. -/
theorem LedgerInv.undone {db db' : Db} {orderId : Uuid} {type undo : LoyaltyEntryType}
    (hl : LedgerInv db.loyaltyLedger)
    (hpair : type = .earn ∧ undo = .refundReversal ∨ type = .redeem ∧ undo = .redeemReversal)
    (h : Undone db orderId type undo db') :
    LedgerInv db'.loyaltyLedger ∧ IsUndone db'.loyaltyLedger orderId type undo
      ∧ ∀ orderId' type', orderId' ≠ orderId ∨ type' ≠ undo →
          entryOf db'.loyaltyLedger orderId' type' = entryOf db.loyaltyLedger orderId' type' := by
  cases h with
  | nothing hnone hdb =>
      rw [hdb]
      refine ⟨hl, ?_, fun _ _ _ => rfl⟩
      intro hsome
      rw [hnone] at hsome
      cases hsome
  | already hsome hdb =>
      rw [hdb]
      exact ⟨hl, fun _ => hsome, fun _ _ _ => rfl⟩
  | @now e r he htype hpoints hcustomer hfresh hdb =>
      obtain ⟨logs, rfl⟩ := hdb
      show LedgerInv (db.loyaltyLedger ++ [r]) ∧ IsUndone (db.loyaltyLedger ++ [r]) orderId type undo
        ∧ ∀ orderId' type', _ → entryOf (db.loyaltyLedger ++ [r]) orderId' type' = _
      refine ⟨?_, ?_, ?_⟩
      -- the entry that is undone pays for the new one, with its points and customer
      · rcases hpair with ⟨rfl, rfl⟩ | ⟨rfl, rfl⟩
        · refine hl.append hfresh (by rw [htype]; rfl) (fun _ => ⟨e, he, hpoints, hcustomer⟩) ?_ ?_
          · rw [htype]
            exact nofun
          · rw [htype]
            exact nofun
        · refine hl.append hfresh (by rw [htype]; rfl) ?_ (fun _ => ⟨e, he, hpoints, hcustomer⟩) ?_
          · rw [htype]
            exact nofun
          · rw [htype]
            exact nofun
      · intro _
        rw [← htype, entryOf_append_self hfresh]
        rfl
      · intro orderId' type' hne
        rw [entryOf_append hfresh, if_neg]
        rintro ⟨rfl, rfl⟩
        rcases hne with hne | hne
        · exact hne rfl
        · exact hne htype

/-! ## §4. Complete pairs cancel. -/

/-- **What was undone comes to nothing.** -/
theorem Mirrors.cancel {l : List LoyaltyEntry} {type undo : LoyaltyEntryType}
    (hl : Mirrors l type undo) {orderId : Uuid} (h : IsUndone l orderId type undo)
    (q : Uuid → Bool) :
    valueFor q (entryOf l orderId type) + valueFor q (entryOf l orderId undo) = 0 := by
  cases hundo : entryOf l orderId undo with
  | none =>
      cases htype : entryOf l orderId type with
      | none => rfl
      | some e =>
          have hsome := h (by rw [htype]; rfl)
          rw [hundo] at hsome
          cases hsome
  | some r =>
      obtain ⟨e, he, hpoints, hcustomer⟩ := hl orderId r hundo
      rw [he]
      unfold valueFor
      simp only [hcustomer, hpoints]
      split <;> omega

/-- **Complete pairs cancel**: with the earned points reversed and the redeemed ones
restored, the order's entries come to 0 for every customer. -/
theorem LedgerInv.tiedPoints_eq_zero {l : List LoyaltyEntry} (hl : LedgerInv l) {orderId : Uuid}
    (hearn : IsUndone l orderId .earn .refundReversal)
    (hredeem : IsUndone l orderId .redeem .redeemReversal) (q : Uuid → Bool) :
    tiedPoints l orderId q = 0 := by
  have hpair := hl.reversal.cancel hearn q
  have hpair' := hl.restore.cancel hredeem q
  rw [hl.sum]
  omega

/-! ## §5. Entries of one type. -/

/-- `SUM(points)` of an order's entries of one type. -/
def typePoints (l : List LoyaltyEntry) (orderId : Uuid) (type : LoyaltyEntryType) : ℤ :=
  sumWhere (fun e => decide (e.orderId = some orderId) && decide (e.type = type)) (·.points) l

/-- The unique index on (order, type): the entry found is all there is. -/
def OnePerType (l : List LoyaltyEntry) : Prop :=
  ∀ orderId type, typePoints l orderId type = valueFor (fun _ => true) (entryOf l orderId type)

/-- Entries of no order never clash. -/
theorem OnePerType.untied {l : List LoyaltyEntry} (h : ∀ e ∈ l, e.orderId = none) :
    OnePerType l := by
  intro orderId type
  have hnone : entryOf l orderId type = none := by
    apply List.find?_eq_none.mpr
    intro e he
    simp [h e he]
  rw [hnone]
  apply sumWhere_eq_zero
  intro e he hp
  simp [h e he] at hp

/-- An entry whose kind its order lacked keeps one of each. -/
theorem OnePerType.append {l : List LoyaltyEntry} (hl : OnePerType l) {orderId : Uuid}
    {r : LoyaltyEntry} (h : Fresh l orderId r) : OnePerType (l ++ [r]) := by
  intro orderId' type
  have hold := hl orderId' type
  unfold typePoints at hold ⊢
  rw [sumWhere_append, sumWhere_cons, sumWhere_nil, hold, entryOf_append h]
  by_cases hsame : orderId = orderId' ∧ r.type = type
  · -- the first of its kind: nothing was counted before
    obtain ⟨rfl, rfl⟩ := hsame
    rw [h.first]
    simp [h.order, valueFor]
  · have hmiss : ¬ (decide (r.orderId = some orderId') && decide (r.type = type)) = true := by
      rw [h.order]
      simpa using hsame
    rw [if_neg hmiss, if_neg hsame]
    omega

/-- Undoing an entry keeps one of each. -/
theorem OnePerType.undone {db db' : Db} {orderId : Uuid} {type undo : LoyaltyEntryType}
    (hl : OnePerType db.loyaltyLedger) (h : Undone db orderId type undo db') :
    OnePerType db'.loyaltyLedger := by
  cases h with
  | nothing _ hdb => exact hdb ▸ hl
  | already _ hdb => exact hdb ▸ hl
  | now _ _ _ _ hfresh hdb =>
      obtain ⟨logs, rfl⟩ := hdb
      exact hl.append hfresh

end OraOS.Loyalty
