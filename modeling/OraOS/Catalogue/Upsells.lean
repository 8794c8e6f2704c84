/-
  OraOS.Catalogue.Upsells — which product the counter suggests after which.

  A rule is not created while the reverse of it is active, so that the counter does not
  bounce between two suggestions.  A rule that was switched off may be switched on again,
  and then nothing is looked for.

    * `update_bounce`        — when an update leaves two rules that bounce;
    * `upsells_never_bounce` — the runs without such an update never have them.
-/
import OraOS.Api.Tables
import OraOS.Lib.Tally
import OraOS.Lib.Transition

namespace OraOS.Catalogue

open OraOS.Api
open OraOS.Lib

/-! ## §1. Rules and requests. -/

/-- A row of `upsell_rules`: who buys the trigger is offered the suggestion. -/
structure UpsellRule where
  id : Uuid
  triggerProductId : Uuid
  suggestedProductId : Uuid
  sortOrder : ℤ
  isActive : Bool
  /-- `upsell_rules_not_self` -/
  not_self : triggerProductId ≠ suggestedProductId

/-- What the handlers read and write: products and rules. -/
structure UpsellTables where
  products : List Product
  upsellRules : List UpsellRule

/-- The tables after the rules were written. -/
def UpsellTables.withRules (db : UpsellTables) (upsellRules : List UpsellRule) : UpsellTables :=
  { db with upsellRules }

@[simp] theorem UpsellTables.withRules_rules (db : UpsellTables) (rules : List UpsellRule) :
    (db.withRules rules).upsellRules = rules := rfl

/-- The body of the request that creates a rule. -/
structure CreateUpsellRuleDto where
  triggerProductId : Uuid
  suggestedProductId : Uuid
  sortOrder : Option ℤ
  sortOrder_ok : ∀ n ∈ sortOrder, 0 ≤ n

/-- The body of an edit: both products stay what they are. -/
structure UpdateUpsellRuleDto where
  sortOrder : Option ℤ
  isActive : Option Bool
  sortOrder_ok : ∀ n ∈ sortOrder, 0 ≤ n

/-- `assertProductsActive`. -/
def assertProductsActive (db : UpsellTables) (productIds : List Uuid) : Except ApiError Unit :=
  let unique := distinct productIds
  let found := db.products.filter fun p => decide (p.id ∈ unique) && p.isActive
  require (found.length = unique.length) (.badRequest "One or more products are unavailable")

/-- The suggestion goes from one product to the other. -/
def UpsellRule.Suggests (r : UpsellRule) (trigger suggested : Uuid) : Prop :=
  r.triggerProductId = trigger ∧ r.suggestedProductId = suggested

instance (r : UpsellRule) (trigger suggested : Uuid) : Decidable (r.Suggests trigger suggested) :=
  inferInstanceAs (Decidable (_ ∧ _))

/-- The row a request creates. -/
def CreateUpsellRuleDto.rule (dto : CreateUpsellRuleDto) (id : Uuid)
    (h : dto.triggerProductId ≠ dto.suggestedProductId) : UpsellRule where
  id := id
  triggerProductId := dto.triggerProductId
  suggestedProductId := dto.suggestedProductId
  sortOrder := dto.sortOrder.getD 0
  isActive := true
  not_self := h

/-- `createUpsellRule`; `id` is the key the new row gets. -/
def createUpsellRule (db : UpsellTables) (id : Uuid) (dto : CreateUpsellRuleDto) :
    Except ApiError UpsellTables :=
  if h : dto.triggerProductId ≠ dto.suggestedProductId then do
    assertProductsActive db [dto.triggerProductId, dto.suggestedProductId]
    -- the direct reciprocal, if it is active
    require (∀ r ∈ db.upsellRules,
        ¬ (r.Suggests dto.suggestedProductId dto.triggerProductId ∧ r.isActive = true))
      (.badRequest "The reverse suggestion already exists — that would loop")
    -- the two unique indexes; either violation is answered alike
    require (∀ r ∈ db.upsellRules,
        r.id ≠ id ∧ ¬ r.Suggests dto.triggerProductId dto.suggestedProductId)
      (.conflict "That suggestion already exists")
    pure (db.withRules (db.upsellRules ++ [dto.rule id h]))
  else .error (.badRequest "A product cannot upsell itself")

/-- The rule an edit is about. -/
def findRule (db : UpsellTables) (id : Uuid) : Except ApiError UpsellRule :=
  found (db.upsellRules.find? fun r => decide (r.id = id)) (.notFound "Upsell rule not found")

/-- The row an update writes; what the request leaves out stays. -/
def UpdateUpsellRuleDto.updated (dto : UpdateUpsellRuleDto) (r : UpsellRule) : UpsellRule :=
  { r with
    sortOrder := dto.sortOrder.getD r.sortOrder
    isActive := dto.isActive.getD r.isActive }

/-- `updateUpsellRule`. -/
def updateUpsellRule (db : UpsellTables) (id : Uuid) (dto : UpdateUpsellRuleDto) :
    Except ApiError UpsellTables := do
  let _ ← findRule db id
  pure (db.withRules (db.upsellRules.map fun r => if r.id = id then dto.updated r else r))

/-- `deleteUpsellRule`. -/
def deleteUpsellRule (db : UpsellTables) (id : Uuid) : Except ApiError UpsellTables := do
  let _ ← findRule db id
  pure (db.withRules (db.upsellRules.filter fun r => decide (r.id ≠ id)))

/-! ## §2. Any sequence of operations. -/

/-- One request of the upsells page; `others` is any that leaves the rules alone. -/
inductive UpsellEdit where
  | createUpsellRule (id : Uuid) (dto : CreateUpsellRuleDto)
  | updateUpsellRule (id : Uuid) (dto : UpdateUpsellRuleDto)
  | deleteUpsellRule (id : Uuid)
  /-- The catalogue, orders and everything else that leaves the rules alone. -/
  | others

/-- The handler behind each request. -/
def editUpsells (db : UpsellTables) : UpsellEdit → Except ApiError UpsellTables
  | .createUpsellRule id dto => createUpsellRule db id dto
  | .updateUpsellRule id dto => updateUpsellRule db id dto
  | .deleteUpsellRule id => deleteUpsellRule db id
  | .others => .ok db

/-- The operations that succeed, in any order, from a menu without rules. -/
def suggestions : System UpsellTables UpsellEdit where
  init db := db.upsellRules = []
  step db e db' := match e with
    | .others => db'.upsellRules = db.upsellRules
    | e => editUpsells db e = .ok db'

/-- No two active rules suggest each other's trigger. -/
def NeverBounces (rules : List UpsellRule) : Prop :=
  ∀ r ∈ rules, ∀ r' ∈ rules, r.isActive = true → r'.isActive = true →
    ¬ r'.Suggests r.suggestedProductId r.triggerProductId

/-- An update that switches a rule on finds no active rule that is the reverse of it. -/
def NoReverse (db : UpsellTables) : UpsellEdit → Prop
  | .updateUpsellRule id dto => dto.isActive = some true →
      ∀ r ∈ db.upsellRules, r.id = id →
        ∀ r' ∈ db.upsellRules, r'.isActive = true →
          ¬ r'.Suggests r.suggestedProductId r.triggerProductId
  | .createUpsellRule .. | .deleteUpsellRule _ | .others => True

instance (db : UpsellTables) (e : UpsellEdit) : Decidable (NoReverse db e) := by
  unfold NoReverse
  split <;> infer_instance

/-! ## §3. One operation. -/

/-- Two rules are each other's reverse or neither is. -/
theorem UpsellRule.Suggests.reverse {r r' : UpsellRule}
    (h : r'.Suggests r.suggestedProductId r.triggerProductId) :
    r.Suggests r'.suggestedProductId r'.triggerProductId := ⟨h.2.symm, h.1.symm⟩

/-- No rule is the reverse of itself. -/
theorem UpsellRule.not_own_reverse (r : UpsellRule) :
    ¬ r.Suggests r.suggestedProductId r.triggerProductId := fun h => r.not_self h.1

/-- What is kept besides: the primary key. -/
def RuleKeys (db : UpsellTables) : Prop := (db.upsellRules.map (·.id)).Nodup

section Edits

variable {db db' : UpsellTables} (hkeys : RuleKeys db) (hdb : NeverBounces db.upsellRules)

include hkeys in
/-- A created rule comes after those there, and no active one of them was its reverse. -/
theorem createUpsellRule_keys {id : Uuid} {dto : CreateUpsellRuleDto}
    (h : createUpsellRule db id dto = .ok db') :
    RuleKeys db' ∧ ∃ hne, db'.upsellRules = db.upsellRules ++ [dto.rule id hne]
      ∧ ∀ r ∈ db.upsellRules, r.isActive = true →
          ¬ r.Suggests dto.suggestedProductId dto.triggerProductId := by
  unfold createUpsellRule at h
  split at h
  next hne =>
    simp only [bind_ok, require_ok] at h
    obtain ⟨_, -, _, hreverse, _, hnew, h⟩ := h
    cases pure_ok.mp h
    exact ⟨nodup_keys_append hkeys fun r hr => (hnew r hr).1, hne, rfl,
      fun r hr hactive hsuggests => hreverse r hr ⟨hsuggests, hactive⟩⟩
  next => cases h

include hkeys hdb

/-- **Creating a rule looks for its reverse first.** -/
theorem create_never_bounces {id : Uuid} {dto : CreateUpsellRuleDto}
    (h : createUpsellRule db id dto = .ok db') : NeverBounces db'.upsellRules := by
  obtain ⟨-, hne, hrules, hreverse⟩ := createUpsellRule_keys hkeys h
  rw [hrules]
  intro r hr r' hr' hactive hactive' hsuggests
  rcases List.mem_append.mp hr with hold | hnew
  · rcases List.mem_append.mp hr' with hold' | hnew'
    · exact hdb r hold r' hold' hactive hactive' hsuggests
    · rw [List.mem_singleton.mp hnew'] at hsuggests
      exact hreverse r hold hactive hsuggests.reverse
  · rw [List.mem_singleton.mp hnew] at hsuggests
    rcases List.mem_append.mp hr' with hold' | hnew'
    · exact hreverse r' hold' hactive' hsuggests
    · rw [List.mem_singleton.mp hnew'] at hsuggests
      exact UpsellRule.not_own_reverse _ hsuggests

omit hdb in
/-- An update changes neither keys nor products. -/
theorem updateUpsellRule_rules {id : Uuid} {dto : UpdateUpsellRuleDto}
    (h : updateUpsellRule db id dto = .ok db') :
    RuleKeys db'
      ∧ db'.upsellRules = db.upsellRules.map fun r => if r.id = id then dto.updated r else r := by
  simp only [updateUpsellRule, bind_ok] at h
  obtain ⟨_, -, h⟩ := h
  cases pure_ok.mp h
  refine ⟨?_, rfl⟩
  have hids : ∀ r ∈ db.upsellRules, ((·.id) ∘ fun r => if r.id = id then dto.updated r else r) r
      = r.id := by
    intro r _
    show (if r.id = id then dto.updated r else r).id = r.id
    split <;> rfl
  rw [RuleKeys, UpsellTables.withRules_rules, List.map_map, List.map_congr_left hids]
  exact hkeys

omit hdb hkeys in
/-- A rule that is active after an update was active, or has been switched on. -/
theorem active_of_updated {id : Uuid} {dto : UpdateUpsellRuleDto} {r : UpsellRule}
    (h : (if r.id = id then dto.updated r else r).isActive = true) :
    r.isActive = true ∨ r.id = id ∧ dto.isActive = some true := by
  split at h
  next hid =>
    cases hon : dto.isActive with
    | none =>
        left
        simpa [UpdateUpsellRuleDto.updated, hon] using h
    | some b =>
        right
        have hb : b = true := by simpa [UpdateUpsellRuleDto.updated, hon] using h
        exact ⟨hid, congrArg some hb⟩
  next => exact .inl h

/-- **When an update leaves two rules that bounce**: when it switches one on and the reverse
is active. -/
theorem update_bounce {id : Uuid} {dto : UpdateUpsellRuleDto}
    (h : updateUpsellRule db id dto = .ok db') :
    NeverBounces db'.upsellRules ↔ NoReverse db (.updateUpsellRule id dto) := by
  obtain ⟨-, hrules⟩ := updateUpsellRule_rules hkeys h
  have hsame : ∀ r ∈ db.upsellRules, ∀ r' ∈ db.upsellRules, r.id = r'.id → r = r' :=
    fun r hr r' hr' hid => List.inj_on_of_nodup_map hkeys hr hr' hid
  rw [hrules]
  refine (List.forall_mem_map.trans (forall₂_congr fun r hr => List.forall_mem_map)).trans ?_
  constructor
  · intro hafter hon r hr hid r' hr' hactive' hsuggests
    have hid' : r'.id ≠ id := by
      intro hid'
      rw [hsame r' hr' r hr (hid'.trans hid.symm)] at hsuggests
      exact r.not_own_reverse hsuggests
    have hlater := hafter r hr r' hr'
    rw [if_pos hid, if_neg hid'] at hlater
    refine hlater ?_ hactive' hsuggests
    show dto.isActive.getD r.isActive = true
    rw [hon]
    rfl
  · intro hnone r hr r' hr' hactive hactive' hsuggests
    -- the products of a rule stay what they were
    have hreverse : r'.Suggests r.suggestedProductId r.triggerProductId := by
      split at hsuggests <;> split at hsuggests <;> exact hsuggests
    rcases active_of_updated hactive with hold | ⟨hid, hon⟩
    · rcases active_of_updated hactive' with hold' | ⟨hid', hon⟩
      · exact hdb r hr r' hr' hold hold' hreverse
      · exact hnone hon r' hr' hid' r hr hold hreverse.reverse
    · rcases active_of_updated hactive' with hold' | ⟨hid', -⟩
      · exact hnone hon r hr hid r' hr' hold' hreverse
      · rw [hsame r' hr' r hr (hid'.trans hid.symm)] at hreverse
        exact r.not_own_reverse hreverse

/-- A deleted rule cannot bounce with another. -/
theorem delete_never_bounces {id : Uuid} (h : deleteUpsellRule db id = .ok db') :
    RuleKeys db' ∧ NeverBounces db'.upsellRules := by
  simp only [deleteUpsellRule, bind_ok] at h
  obtain ⟨_, -, h⟩ := h
  cases pure_ok.mp h
  refine ⟨(List.filter_sublist.map _).nodup hkeys, ?_⟩
  intro r hr r' hr'
  exact hdb r (List.mem_of_mem_filter hr) r' (List.mem_of_mem_filter hr')

/-- **One operation**: it keeps the key, and rules that never bounce exactly when it meets its
condition. -/
theorem editUpsells_judged {e : UpsellEdit} (h : suggestions.step db e db') :
    RuleKeys db' ∧ (NeverBounces db'.upsellRules ↔ NoReverse db e) := by
  cases e with
  | createUpsellRule id dto =>
      exact ⟨(createUpsellRule_keys hkeys h).1,
        iff_of_true (create_never_bounces hkeys hdb h) trivial⟩
  | updateUpsellRule id dto =>
      exact ⟨(updateUpsellRule_rules hkeys h).1, update_bounce hkeys hdb h⟩
  | deleteUpsellRule id =>
      obtain ⟨hkeys', hdb'⟩ := delete_never_bounces hkeys hdb h
      exact ⟨hkeys', iff_of_true hdb' trivial⟩
  | others =>
      have hrules : db'.upsellRules = db.upsellRules := h
      rw [RuleKeys, hrules]
      exact ⟨hkeys, iff_of_true hdb trivial⟩

end Edits

/-! ## §4. Every sequence. -/

/-- **Upsells never bounce** in the runs whose updates meet the condition; and an update that
succeeds without it leaves two active rules that do. -/
theorem upsells_never_bounce {db : UpsellTables}
    (h : (suggestions.restrict NoReverse).Reachable db) :
    NeverBounces db.upsellRules
      ∧ ∀ e db', suggestions.step db e db' →
          (NeverBounces db'.upsellRules ↔ NoReverse db e) := by
  have hdb : RuleKeys db ∧ NeverBounces db.upsellRules := by
    induction h with
    | @init db h0 =>
        have hnone : db.upsellRules = [] := h0
        rw [RuleKeys, hnone]
        exact ⟨List.nodup_nil, List.forall_mem_nil _⟩
    | step _ hstep ih =>
        have hjudged := editUpsells_judged ih.1 ih.2 hstep.2
        exact ⟨hjudged.1, hjudged.2.mpr hstep.1⟩
  exact ⟨hdb.2, fun e db' hstep => (editUpsells_judged hdb.1 hdb.2 hstep).2⟩

theorem editUpsells_step (db : UpsellTables) (e : UpsellEdit) (db' : UpsellTables)
    (h : (editUpsells db e).toOption = some db') : suggestions.step db e db' := by
  have hok := toOption_some.mp h
  cases e with
  | others =>
      cases hok
      rfl
  | createUpsellRule | updateUpsellRule | deleteUpsellRule => exact hok

theorem unsorted : ∀ n ∈ (none : Option ℤ), 0 ≤ n := forall_mem_none

theorem paise_valid : (0 : ℤ) ≤ 6000 ∧ (0 : ℤ) ≤ 500 ∧ (500 : ℤ) ≤ 10000 := by decide

/-- Momos and coke. -/
def momoAndCoke : UpsellTables where
  products := [⟨1, "Momo", 6000, 500, true, paise_valid⟩, ⟨2, "Coke", 6000, 500, true, paise_valid⟩]
  upsellRules := []

/-- The request to offer one product with another. -/
def suggest (trigger suggested : Uuid) : CreateUpsellRuleDto where
  triggerProductId := trigger
  suggestedProductId := suggested
  sortOrder := none
  sortOrder_ok := unsorted

/-- The edit that only switches a rule on or off. -/
def switch (isActive : Bool) : UpdateUpsellRuleDto where
  sortOrder := none
  isActive := some isActive
  sortOrder_ok := unsorted

/-- Coke after momos, switched off, then momos after coke. -/
def turnedAround : List UpsellEdit :=
  [.createUpsellRule 10 (suggest 1 2), .updateUpsellRule 10 (switch false),
    .createUpsellRule 11 (suggest 2 1)]

theorem turnedAround_runs :
    (System.replay (System.guarded NoReverse fun db e => (editUpsells db e).toOption) turnedAround
      momoAndCoke).isSome = true := by
  decide +kernel

/-- Switched off, its reverse may be created, and one of the two is active. -/
theorem upsells_never_bounce_turnedAround :
    ∃ db : UpsellTables, db.upsellRules.map (fun r => (r.id, r.isActive)) = [(10, false), (11, true)]
      ∧ NeverBounces db.upsellRules := by
  have h := System.replay_restricted (M := suggestions) (C := NoReverse)
    (f := fun db e => (editUpsells db e).toOption) editUpsells_step turnedAround momoAndCoke rfl
    (Option.some_get turnedAround_runs).symm
  exact ⟨_, by decide +kernel, (upsells_never_bounce h).1⟩

/-- And then the first rule is switched on again. -/
def switchedBack : List UpsellEdit := turnedAround ++ [.updateUpsellRule 10 (switch true)]

theorem switchedBack_runs :
    (System.replay (fun db e => (editUpsells db e).toOption) switchedBack momoAndCoke).isSome
      = true := by
  decide +kernel

/-- Momos after coke after momos. -/
theorem upsells_bounce : ∃ db, suggestions.Reachable db ∧ ¬ NeverBounces db.upsellRules := by
  let db := (System.replay (fun db e => (editUpsells db e).toOption) switchedBack momoAndCoke).get
    switchedBack_runs
  have hreachable : suggestions.Reachable db := System.replay_reachable (M := suggestions)
    editUpsells_step switchedBack momoAndCoke rfl (Option.some_get switchedBack_runs).symm
  have hbounces : ∃ r ∈ db.upsellRules, ∃ r' ∈ db.upsellRules, r.isActive = true
      ∧ r'.isActive = true ∧ r'.Suggests r.suggestedProductId r.triggerProductId := by
    decide +kernel
  obtain ⟨r, hr, r', hr', hactive, hactive', hsuggests⟩ := hbounces
  exact ⟨db, hreachable, fun h => h r hr r' hr' hactive hactive' hsuggests⟩

end OraOS.Catalogue
