/-
  OraOS.Inventory.BatchRace — `PrepService.createBatch` under READ COMMITTED, any number
  of batches prepared at once.

  The shortfall check reads the stock and locks nothing; what the batch takes is in the
  ledger with its commit.

    * `batchTurn`                  — the statements of a call;
    * `createBatch_alone`          — on its own a call is `createBatch`;
    * `batchSession_knows`         — the components are those of the recipe, each once;
    * `undisturbed_passes`         — with no commit since it looked at the stock, a batch
                                     would pass its shortfall check again;
    * `batches_cook_what_is_there` — no ingredient goes below zero exactly as long as every
                                     batch would pass it when it commits.
-/
import OraOS.Inventory.Batches
import OraOS.Lib.Sessions

namespace OraOS.Inventory

open OraOS.Api
open OraOS.Lib

/-! ## §1. What a batch reads and writes. -/

/-- A call of `createBatch` for the prep item `id`; the codes are those it draws. -/
structure BatchCall where
  ctx : TenantContext
  env : Env
  codes : List String
  id : Uuid
  dto : CreateBatchDto

/-- The request of a call, made alone. -/
def BatchCall.perform (r : BatchCall) (db : Db) : Except ApiError (PrepBatch × Db) :=
  createBatch db r.ctx r.env r.codes r.id r.dto

/-- The prep item and its standard yield. -/
def prepItemOf (db : Db) (id : Uuid) : Except ApiError (Ingredient × ℤ) := do
  let item ← found (findPrepItem db id) (.notFound "Prep item not found")
  let standardYield ← found item.prepBatchYield
    (.badRequest "Set a recipe before preparing a batch")
  pure (item, standardYield)

/-- The components a batch takes, without those that round to nothing. -/
def batchComponents (db : Db) (id : Uuid) (standardYield planned : ℤ) :
    Except ApiError (List Component) := do
  let recipe := db.prepRecipeItems.filter fun r => r.prepIngredientId = id
  require (recipe ≠ []) (.badRequest "Set a recipe before preparing a batch")
  let scaled ← scaleComponents
    (recipe.map fun r => ⟨r.componentIngredientId, r.quantity⟩) standardYield planned
  pure (scaled.filter fun c => decide (0 < c.quantity))

/-- The check of `doCreateBatch` on the stock it reads last. -/
def checkShortfalls (db : Db) (components : List Component) : Except ApiError Unit :=
  require (findShortfalls components (stockOf db.movements) = [])
    (.badRequest ("Not enough stock: " ++ ", ".intercalate
      ((findShortfalls components (stockOf db.movements)).map (shortfallText db))))

/-- An entry of one of the unique indexes of `prep_batches`. -/
inductive BatchEntry where
  | id (batchId : Uuid)
  | code (code : String)
  | key (key : String)
  deriving DecidableEq

/-- Whether a row of the database holds the entry already. -/
def BatchEntry.taken (db : Db) : BatchEntry → Bool
  | .id u => db.prepBatches.any fun b => b.id = u
  | .code s => db.prepBatches.any fun b => b.code = s
  | .key k => db.prepBatches.any fun b => b.idempotencyKey = some k

/-- The unique index an entry belongs to. -/
def BatchEntry.index : BatchEntry → UniqueIndex
  | .key _ => .prepBatchIdempotencyKey
  | _ => .primaryKey

/-- The entries of the batch's row, in the order of the indexes. -/
def BatchCall.entries (r : BatchCall) (code : String) : List BatchEntry :=
  [.id r.env.newId, .code code] ++ (r.dto.idempotencyKey.map .key).toList

/-- The insert of the batch fails on the first entry that is taken. -/
def checkEntries (db : Db) (entries : List BatchEntry) : Except ApiError Unit :=
  match entries.find? (·.taken db) with
  | some e => .error (.uniqueViolation e.index)
  | none => .ok ()

/-- What an attempt has settled before it writes; `rest` are the codes left after it. -/
structure BatchPlan where
  code : String
  rest : List String
  item : Ingredient
  components : List Component

/-- The batch a call inserts once its plan is made. -/
def BatchCall.batch (r : BatchCall) (p : BatchPlan) : PrepBatch :=
  { id := r.env.newId, prepIngredientId := r.id, code := p.code,
    expectedQuantity := r.dto.quantity, actualQuantity := r.dto.actual,
    expiresAt := r.dto.expiresAt.orElse fun _ =>
      p.item.prepShelfLifeHours.map fun hours => r.env.now + hours * 3600 * 1000,
    note := r.dto.note, actorUserId := some r.ctx.userId,
    idempotencyKey := r.dto.idempotencyKey, createdAt := r.env.now,
    quantities_valid := ⟨by have := r.dto.quantity_ok.1; omega, r.dto.actual_nonneg⟩ }

/-- The movements a call inserts with its batch. -/
def BatchCall.rows (r : BatchCall) (p : BatchPlan) : List NewMovement :=
  batchRows r.ctx r.env.newId r.id p.components r.dto.actual

/-- The commit of a batch: its row and its movements. -/
def publishBatch (db : Db) (r : BatchCall) (p : BatchPlan) (rows : List StockMovement) : Db :=
  { db with
    prepBatches := db.prepBatches ++ [r.batch p]
    movements := db.movements ++ rows }

/-- No movement of a batch has an idempotency key of its own. -/
theorem batchRows_unkeyed {ctx : TenantContext} {batchId prepIngredientId : Uuid}
    {components : List Component} {actual : ℤ} :
    ∀ m ∈ batchRows ctx batchId prepIngredientId components actual, m.idempotencyKey = none := by
  intro m hm
  rcases List.mem_append.mp hm with hm | hm
  · obtain ⟨c, -, rfl⟩ := List.mem_map.mp hm
    rfl
  · split at hm
    · cases List.mem_singleton.mp hm
      rfl
    · cases hm

/-- The two checks of the row are the check of its entries. -/
theorem checkEntries_eq (db : Db) (r : BatchCall) (code : String) :
    checkEntries db (r.entries code) = (do
      require (∀ b ∈ db.prepBatches, b.id ≠ r.env.newId ∧ b.code ≠ code)
        (.uniqueViolation .primaryKey)
      require (¬ keyTaken r.dto.idempotencyKey (db.prepBatches.map (·.idempotencyKey)))
        (.uniqueViolation .prepBatchIdempotencyKey)) := by
  -- the entries in the order of the indexes: id, code, key
  by_cases hid : (BatchEntry.id r.env.newId).taken db = true
  · have hclash : ¬ ∀ b ∈ db.prepBatches, b.id ≠ r.env.newId ∧ b.code ≠ code := by
      simp only [BatchEntry.taken, List.any_eq_true, decide_eq_true_eq] at hid
      obtain ⟨b, hb, heq⟩ := hid
      exact fun h => (h b hb).1 heq
    simp only [checkEntries, BatchCall.entries, List.cons_append, List.find?_cons, hid]
    rw [require, if_neg hclash]
    rfl
  by_cases hcode : (BatchEntry.code code).taken db = true
  · have hclash : ¬ ∀ b ∈ db.prepBatches, b.id ≠ r.env.newId ∧ b.code ≠ code := by
      simp only [BatchEntry.taken, List.any_eq_true, decide_eq_true_eq] at hcode
      obtain ⟨b, hb, heq⟩ := hcode
      exact fun h => (h b hb).2 heq
    simp only [checkEntries, BatchCall.entries, List.cons_append, List.find?_cons, hid, hcode]
    rw [require, if_neg hclash]
    rfl
  have hfree : ∀ b ∈ db.prepBatches, b.id ≠ r.env.newId ∧ b.code ≠ code := by
    simp only [BatchEntry.taken, List.any_eq_true, decide_eq_true_eq] at hid hcode
    intro b hb
    exact ⟨fun h => hid ⟨b, hb, h⟩, fun h => hcode ⟨b, hb, h⟩⟩
  simp only [checkEntries, BatchCall.entries, List.cons_append, List.nil_append, List.find?_cons,
    hid, hcode]
  rw [require_of _ hfree, ok_bind]
  -- a batch without a key has no third entry
  cases hkey : r.dto.idempotencyKey with
  | none => rfl
  | some key =>
      have hsame : keyTaken (some key) (db.prepBatches.map (·.idempotencyKey))
          = (BatchEntry.key key).taken db := by
        simp only [keyTaken, BatchEntry.taken, Option.isSome_some, Bool.true_and]
        induction db.prepBatches with
        | nil => rfl
        | cons b bs ih =>
            rw [List.map_cons, List.contains_cons, ih, List.any_cons]
            congr 1
            by_cases hb : b.idempotencyKey = some key
            · simp [hb]
            · simp [hb, Ne.symm hb]
      rw [hsame]
      show (match ([.key key] : List BatchEntry).find? (·.taken db) with
        | some e => _
        | none => _) = _
      by_cases htaken : (BatchEntry.key key).taken db = true
      · simp [htaken, require, BatchEntry.index]
      · simp [htaken, require]

/-- **`doCreateBatch`, statement by statement**, when nothing happens in between. -/
theorem doCreateBatch_eq (db : Db) (r : BatchCall) (code : String) (rest : List String) :
    doCreateBatch db r.ctx r.env code r.id r.dto = (do
      let item ← prepItemOf db r.id
      let components ← batchComponents db r.id item.2 r.dto.quantity
      checkShortfalls db components
      checkEntries db (r.entries code)
      let rows ← storeRows (r.rows ⟨code, rest, item.1, components⟩)
      pure (r.batch ⟨code, rest, item.1, components⟩,
        publishBatch db r ⟨code, rest, item.1, components⟩ rows)) := by
  unfold doCreateBatch prepItemOf batchComponents checkShortfalls
  simp only [checkEntries_eq, bind_assoc, pure_bind]
  refine bind_congr fun item => bind_congr fun y => bind_congr fun _ => bind_congr fun scaled =>
    bind_congr fun _ => bind_congr fun _ => bind_congr fun _ => ?_
  show createMany db.movements (batchRows _ _ _ _ _) >>= _ = _
  rw [createMany_unkeyed batchRows_unkeyed, mapped_bind]
  rfl

/-! ## §2. The calls, statement by statement. -/

/-- Where a call stands between its statements. -/
inductive BatchPhase where
  | asked
  | attempting (codes : List String)
  | reading (code : String) (rest : List String) (item : Ingredient) (standardYield : ℤ)
  | planned (p : BatchPlan)
  | entering (p : BatchPlan) (left : List BatchEntry)
  | staged (p : BatchPlan) (rows : List StockMovement)
  | clashed (rest : List String)
  | answered (result : Except ApiError PrepBatch)

/-- One turn of a call: statements, a lock, a commit or an answer. -/
abbrev BatchTurn := Turn Db (BatchCall × BatchPhase) BatchEntry

/-- An attempt has failed: a clash in an index may be tried again, nothing else. -/
def BatchCall.fail (r : BatchCall) (rest : List String) : ApiError → BatchCall × BatchPhase
  | .uniqueViolation _ => (r, .clashed rest)
  | e => (r, .answered (.error e))

/-- The next statement of a call. -/
def batchTurn (db : Db) : BatchCall × BatchPhase → BatchTurn
  | (r, .asked) =>
      match findBatchByKey db r.dto.idempotencyKey with
      | some existing => .go (r, .answered (.ok existing))
      | none => .go (r, .attempting (r.codes.take 5))
  | (r, .attempting []) =>
      .go (r, .answered (.error (.conflict "Could not allocate a batch code — try again")))
  | (r, .attempting (code :: rest)) =>
      .orRollback (prepItemOf db r.id) (r.fail rest) fun item =>
        .go (r, .reading code rest item.1 item.2)
  | (r, .reading code rest item standardYield) =>
      .orRollback (batchComponents db r.id standardYield r.dto.quantity) (r.fail rest)
        fun components => .go (r, .planned ⟨code, rest, item, components⟩)
  | (r, .planned p) =>
      -- the stock as it is now; no lock keeps it so
      .orRollback (checkShortfalls db p.components) (r.fail p.rest) fun _ =>
        .go (r, .entering p (r.entries p.code))
  | (r, .entering p (e :: left)) =>
      if e.taken db then .rollback (r.fail p.rest (.uniqueViolation e.index))
      else .lock e (r, .entering p left)
  | (r, .entering p []) =>
      .orRollback (storeRows (r.rows p)) (r.fail p.rest) fun rows => .go (r, .staged p rows)
  | (r, .staged p rows) => .commit (publishBatch db r p rows) (r, .answered (.ok (r.batch p)))
  | (r, .clashed rest) =>
      match findBatchByKey db r.dto.idempotencyKey with
      | some existing => .go (r, .answered (.ok existing))
      | none => .go (r, .attempting rest)
  | (_, .answered _) => .idle

/-- Batches called for side by side, one transaction each. -/
def batchSession : Session Db (BatchCall × BatchPhase) BatchCall BatchEntry Unit Empty where
  start r := (r, .asked)
  turn _ := batchTurn
  env db _ := db

/-- Batches among themselves, from a database `db`. -/
def batchRace (db : Db) : System (Sessions Db (BatchCall × BatchPhase) BatchEntry)
    (SessionEvent BatchCall Unit Empty) :=
  batchSession.interleaved fun s => s = db

/-! ## §3. On its own a call is `createBatch`. -/

/-- What is committed after a call. -/
def leftBy (db : Db) (x : Except ApiError (PrepBatch × Db)) : Db := (x.map (·.2)).toOption.getD db

/-- How one attempt ends: the batch is there, or the failure is looked at. -/
def AttemptEnds (db : Db) (r : BatchCall) (rest : List String) :
    Except ApiError (PrepBatch × Db) → Db → BatchCall × BatchPhase → Prop
  | .ok (batch, db'), s, t => s = db' ∧ t = (r, .answered (.ok batch))
  | .error e, s, t => s = db ∧ t = r.fail rest e

/-- A failed attempt goes to the next code, or answers with its error. -/
theorem attempt_failed (db : Db) (r : BatchCall) (rest : List String) (e : ApiError) :
    batchSession.Settles (AttemptEnds db r rest) db (r.fail rest e) (.error e) :=
  .ended ⟨rfl, rfl⟩

/-- The entries of the unique indexes, one after the other. -/
theorem entering_settles {db : Db} {r : BatchCall} {p : BatchPlan} {left : List BatchEntry}
    {f : Unit → Except ApiError (PrepBatch × Db)}
    (hrest : batchSession.Settles (AttemptEnds db r p.rest) db (r, .entering p []) (f ())) :
    batchSession.Settles (AttemptEnds db r p.rest) db (r, .entering p left)
      (checkEntries db left >>= f) := by
  -- over the entries that are still to be taken; a taken one ends the attempt
  induction left with
  | nil => exact hrest
  | cons e left ih =>
      by_cases htaken : e.taken db = true
      · have hcheck : checkEntries db (e :: left) = .error (.uniqueViolation e.index) := by
          simp only [checkEntries, List.find?_cons, htaken]
        have hturn : batchTurn db (r, .entering p (e :: left))
            = .rollback (r.fail p.rest (.uniqueViolation e.index)) := by
          simp only [batchTurn, if_pos htaken]
        rw [hcheck]
        exact .rollback (o := ()) hturn (attempt_failed ..)
      · have hcheck : checkEntries db (e :: left) = checkEntries db left := by
          simp only [checkEntries, List.find?_cons, htaken]
        have hturn : batchTurn db (r, .entering p (e :: left)) = .lock e (r, .entering p left) := by
          simp only [batchTurn, if_neg htaken]
        rw [hcheck]
        exact .lock (o := ()) hturn ih

/-- **One attempt, alone, is `doCreateBatch`.** -/
theorem attempt_settles (db : Db) (r : BatchCall) (code : String) (rest : List String) :
    batchSession.Settles (AttemptEnds db r rest) db (r, .attempting (code :: rest))
      (doCreateBatch db r.ctx r.env code r.id r.dto) := by
  have hfail := attempt_failed db r rest
  rw [doCreateBatch_eq db r code rest]
  refine .check (o := ()) rfl hfail fun item _ hturn => .go hturn ?_
  refine .check (o := ()) rfl hfail fun components _ hturn => .go hturn ?_
  refine .check (o := ()) rfl hfail fun _ _ hturn => .go hturn ?_
  refine entering_settles (p := ⟨code, rest, item.1, components⟩) ?_
  refine .check (o := ()) rfl hfail fun rows _ hturn => .go hturn ?_
  exact .commit (o := ()) rfl (.ended ⟨rfl, rfl⟩)

/-- One attempt. -/
theorem attempt_alone (db : Db) (r : BatchCall) (code : String) (rest : List String) :
    match doCreateBatch db r.ctx r.env code r.id r.dto with
    | .ok (batch, db') =>
        batchSession.Leads db (r, .attempting (code :: rest)) db' (r, .answered (.ok batch))
    | .error e => batchSession.Leads db (r, .attempting (code :: rest)) db (r.fail rest e) := by
  obtain ⟨s, t, hleads, hends⟩ := attempt_settles db r code rest
  cases hdo : doCreateBatch db r.ctx r.env code r.id r.dto with
  | ok result =>
      rw [hdo] at hends
      obtain ⟨rfl, rfl⟩ := hends
      exact hleads
  | error e =>
      rw [hdo] at hends
      obtain ⟨rfl, rfl⟩ := hends
      exact hleads

/-- The attempts, alone, are those of the request: a code that is taken costs one. -/
theorem attempts_alone (db : Db) (r : BatchCall) (codes : List String) :
    batchSession.Leads db (r, .attempting codes)
      (leftBy db (createBatchAttempts db r.ctx r.env r.id r.dto codes))
      (r, .answered ((createBatchAttempts db r.ctx r.env r.id r.dto codes).map (·.1))) := by
  -- over the codes that are left
  induction codes with
  | nil => exact .go (o := ()) rfl (.refl _ _)
  | cons code rest ih =>
      have hattempt := attempt_alone db r code rest
      unfold createBatchAttempts
      cases hdo : doCreateBatch db r.ctx r.env code r.id r.dto with
      | ok result =>
          rw [hdo] at hattempt
          exact hattempt
      | error e =>
          rw [hdo] at hattempt
          -- only an index leads on: to the batch that has the key, or to the next code
          cases e with
          | uniqueViolation ix =>
              have hclash : batchTurn db (r, .clashed rest)
                  = match findBatchByKey db r.dto.idempotencyKey with
                    | some existing => .go (r, .answered (.ok existing))
                    | none => .go (r, .attempting rest) := rfl
              cases hkey : findBatchByKey db r.dto.idempotencyKey with
              | some existing =>
                  rw [hkey] at hclash
                  exact hattempt.trans (.go (o := ()) hclash (.refl _ _))
              | none =>
                  rw [hkey] at hclash
                  exact hattempt.trans (.go (o := ()) hclash ih)
          | _ => exact hattempt

/-- **On its own a call is `createBatch`**: what is committed then, and its answer. -/
theorem createBatch_alone (db : Db) (r : BatchCall) :
    batchSession.Leads db (r, .asked) (leftBy db (r.perform db))
      (r, .answered ((r.perform db).map (·.1))) := by
  have hasked : batchTurn db (r, .asked) = match findBatchByKey db r.dto.idempotencyKey with
      | some existing => .go (r, .answered (.ok existing))
      | none => .go (r, .attempting (r.codes.take 5)) := rfl
  unfold BatchCall.perform createBatch
  cases hkey : findBatchByKey db r.dto.idempotencyKey with
  | some existing =>
      rw [hkey] at hasked
      exact .go (o := ()) hasked (.refl _ _)
  | none =>
      rw [hkey] at hasked
      exact .go (o := ()) hasked (attempts_alone db r _)

/-! ## §4. What a call knows. -/

/-- The components are those the recipe gives. -/
def Planned (db : Db) (r : BatchCall) (p : BatchPlan) : Prop :=
  ∃ y, batchComponents db r.id y r.dto.quantity = .ok p.components

/-- What a call in flight still knows of the recipes it read. -/
def BatchKnows (db : Db) : BatchCall × BatchPhase → Prop
  | (r, .planned p) => Planned db r p
  | (r, .entering p _) => Planned db r p
  | (r, .staged p rows) => Planned db r p ∧ storeRows (r.rows p) = .ok rows
  | _ => True

/-- Past its look at the stock a call has found no shortfall. -/
def Checked (db : Db) : BatchCall × BatchPhase → Prop
  | (_, .entering p _) => findShortfalls p.components (stockOf db.movements) = []
  | (_, .staged p _) => findShortfalls p.components (stockOf db.movements) = []
  | _ => True

/-- `prep_recipe_items_prep_component_key`: a recipe has a component once. -/
def RecipesUnique (db : Db) : Prop :=
  (db.prepRecipeItems.map fun r => (r.prepIngredientId, r.componentIngredientId)).Nodup

/-- The statements, with what each of them has seen. -/
inductive BatchMoves (db : Db) : BatchCall × BatchPhase → BatchTurn → Prop where
  | goes {r : BatchCall} {phase : BatchPhase} {t : BatchCall × BatchPhase} (h : BatchKnows db t)
      (hunchecked : Checked db t) : BatchMoves db (r, phase) (.go t)
  | checks {r : BatchCall} {p : BatchPlan} {left : List BatchEntry}
      (hchecked : findShortfalls p.components (stockOf db.movements) = []) :
      BatchMoves db (r, .planned p) (.go (r, .entering p left))
  | enters {r : BatchCall} {p : BatchPlan} {e : BatchEntry} {left : List BatchEntry} :
      BatchMoves db (r, .entering p (e :: left)) (.lock e (r, .entering p left))
  | stages {r : BatchCall} {p : BatchPlan} {rows : List StockMovement}
      (hrows : storeRows (r.rows p) = .ok rows) :
      BatchMoves db (r, .entering p []) (.go (r, .staged p rows))
  | commits {r : BatchCall} {p : BatchPlan} {rows : List StockMovement} :
      BatchMoves db (r, .staged p rows)
        (.commit (publishBatch db r p rows) (r, .answered (.ok (r.batch p))))
  | fails {r : BatchCall} {phase : BatchPhase} {rest : List String} {e : ApiError} :
      BatchMoves db (r, phase) (.rollback (r.fail rest e))
  | idles {t : BatchCall × BatchPhase} : BatchMoves db t .idle

/-- **The step inversion.** -/
theorem batchTurn_moves (db : Db) (t : BatchCall × BatchPhase) :
    BatchMoves db t (batchTurn db t) := by
  obtain ⟨r, phase⟩ := t
  cases phase with
  | asked =>
      simp only [batchTurn]
      split
      · exact .goes trivial trivial
      · exact .goes trivial trivial
  | attempting codes =>
      cases codes with
      | nil => exact .goes trivial trivial
      | cons code rest =>
          simp only [batchTurn]
          cases prepItemOf db r.id with
          | error e => exact .fails
          | ok item => exact .goes trivial trivial
  | reading code rest item standardYield =>
      simp only [batchTurn]
      cases hcomponents : batchComponents db r.id standardYield r.dto.quantity with
      | error e => exact .fails
      | ok components => exact .goes ⟨_, hcomponents⟩ trivial
  | planned p =>
      simp only [batchTurn]
      cases hchecked : checkShortfalls db p.components with
      | error e => exact .fails
      | ok u => exact .checks (require_ok.mp hchecked)
  | entering p left =>
      cases left with
      | nil =>
          simp only [batchTurn]
          cases hrows : storeRows (r.rows p) with
          | error e => exact .fails
          | ok rows => exact .stages hrows
      | cons e left =>
          simp only [batchTurn]
          split
          · exact .fails
          · exact .enters
  | staged p rows => exact .commits
  | clashed rest =>
      simp only [batchTurn]
      split
      · exact .goes trivial trivial
      · exact .goes trivial trivial
  | answered result => exact .idles

theorem batchSession_inverts : batchSession.Inverts BatchMoves := fun _ => batchTurn_moves

/-- A call that failed knows nothing of what it had planned. -/
theorem batchKnows_fail (db : Db) (r : BatchCall) (rest : List String) (e : ApiError) :
    BatchKnows db (r.fail rest e) := by
  cases e <;> exact trivial

/-- A call that failed has nothing left that was checked. -/
theorem checked_fail (db : Db) (r : BatchCall) (rest : List String) (e : ApiError) :
    Checked db (r.fail rest e) := by
  cases e <;> exact trivial

/-- What is known of the recipes stays known while they stay as they are. -/
theorem BatchKnows.kept {db db' : Db} (hsame : db'.prepRecipeItems = db.prepRecipeItems)
    {t : BatchCall × BatchPhase} (h : BatchKnows db t) : BatchKnows db' t := by
  have hplanned : ∀ r p, Planned db r p → Planned db' r p := by
    rintro r p ⟨y, hy⟩
    refine ⟨y, ?_⟩
    unfold batchComponents at hy ⊢
    rw [hsame]
    exact hy
  obtain ⟨r, phase⟩ := t
  cases phase with
  | planned p => exact hplanned r p h
  | entering p left => exact hplanned r p h
  | staged p rows => exact ⟨hplanned r p h.1, h.2⟩
  | _ => exact trivial

/-- The other calls leave alone what a call knows. -/
theorem batchSession_knows :
    batchSession.Knows RecipesUnique BatchKnows fun _ _ => False where
  start db r _ := ⟨trivial, fun _ => id⟩
  go o db t t' _ hk hturn := by
    have hmoves := batchSession_inverts.moves hturn
    refine ⟨?_, fun _ => False.elim⟩
    cases hmoves with
    | goes h => exact h
    | checks => exact hk
    | stages hrows => exact ⟨hk, hrows⟩
  lock o db t t' e _ hk hturn := by
    have hmoves := batchSession_inverts.moves hturn
    refine ⟨?_, fun _ => False.elim⟩
    cases hmoves with
    | enters => exact hk
  commit o db t db' t' hunique hk hturn := by
    cases batchSession_inverts.moves hturn with
    | commits => exact ⟨hunique, trivial, fun _ => id, fun u hu _ => hu.kept rfl⟩
  rollback o db t t' _ _ hturn := by
    cases batchSession_inverts.moves hturn with
    | fails => exact ⟨batchKnows_fail _ _ _ _, fun _ => id⟩
  env db e := e.elim

/-! ## §5. The stock after a batch. -/

/-- No ingredient is below zero. -/
def StockThere (db : Db) : Prop := ∀ ingredientId, 0 ≤ stockOf db.movements ingredientId

/-- The code's check passes when each component is on the shelf. -/
theorem findShortfalls_nil {components : List Component} {stock : Uuid → ℤ}
    (hpos : ∀ c ∈ components, 0 < c.quantity) :
    findShortfalls components stock = []
      ↔ ∀ c ∈ components, c.quantity ≤ stock c.ingredientId := by
  unfold findShortfalls
  rw [List.filterMap_eq_nil_iff]
  refine forall₂_congr fun c hc => ?_
  rw [if_neg (by have := hpos c hc; omega)]
  by_cases hlt : stock c.ingredientId < c.quantity
  · rw [if_pos hlt]
    exact iff_of_false (Option.some_ne_none _) (by omega)
  · rw [if_neg hlt]
    exact iff_of_true rfl (by omega)

/-- The components of a batch: each once, positive, and none of them the item itself. -/
theorem batchComponents_ok {db : Db} {id : Uuid} {y planned : ℤ} {components : List Component}
    (hunique : RecipesUnique db) (h : batchComponents db id y planned = .ok components) :
    (components.map (·.ingredientId)).Nodup
      ∧ ∀ c ∈ components, 0 < c.quantity ∧ c.ingredientId ≠ id := by
  obtain ⟨-, -, h⟩ := bind_ok.mp h
  obtain ⟨scaled, hscaled, h⟩ := bind_ok.mp h
  cases pure_ok.mp h
  unfold scaleComponents at hscaled
  split at hscaled
  next => cases hscaled
  next =>
    split at hscaled
    next => cases hscaled
    next =>
      injection hscaled with hscaled
      have hids : scaled.map (·.ingredientId)
          = (db.prepRecipeItems.filter fun r => r.prepIngredientId = id).map
            (·.componentIngredientId) := by
        rw [← hscaled, List.map_map, List.map_map]
        rfl
      -- the unique index: a component is once in the recipe, so once among the scaled
      constructor
      · refine ((List.filter_sublist.map _).nodup ?_)
        rw [hids]
        have hrows := (List.filter_sublist (p := fun r : PrepRecipeItem =>
          decide (r.prepIngredientId = id)) (l := db.prepRecipeItems)).map
            (fun r => (r.prepIngredientId, r.componentIngredientId))
        have hnodup := hrows.nodup hunique
        refine List.Nodup.of_map (fun c => (id, c)) ?_
        rw [List.map_map]
        rwa [List.map_congr_left (g := fun r : PrepRecipeItem =>
          (r.prepIngredientId, r.componentIngredientId))]
        intro r hr
        have hid := (List.mem_filter.mp hr).2
        simp only [decide_eq_true_eq] at hid
        rw [hid]
        rfl
      · intro c hc
        obtain ⟨hc, hpos⟩ := List.mem_filter.mp hc
        refine ⟨by simpa using hpos, ?_⟩
        have hmem := List.mem_map_of_mem (f := (·.ingredientId)) hc
        rw [hids] at hmem
        obtain ⟨r, hr, heq⟩ := List.mem_map.mp hmem
        have hid := (List.mem_filter.mp hr).2
        simp only [decide_eq_true_eq] at hid
        rw [← heq, ← hid]
        exact r.not_self.symm

/-- What the rows of a batch come to, at one ingredient. -/
theorem stockOf_batchRows {r : BatchCall} {p : BatchPlan} {rows : List StockMovement}
    (hrows : storeRows (r.rows p) = .ok rows) (i : Uuid) :
    stockOf rows i = (if i = r.id then r.dto.actual else 0)
      - sumWhere (fun c => decide (c.ingredientId = i)) (·.quantity) p.components := by
  have hyield := r.dto.actual_nonneg
  unfold stockOf
  rw [ledgerSum_rows (storeRows_ok hrows)]
  unfold BatchCall.rows batchRows
  rw [sumWhere_append, sumWhere_map]
  show sumWhere (fun c : Component => decide (c.ingredientId = i)) (fun c => -c.quantity)
    p.components + sumWhere (fun m : NewMovement => decide (m.ingredientId = i)) _ _ = _
  rw [sumWhere_neg (fun c : Component => decide (c.ingredientId = i)) (fun c => c.quantity)]
  -- a batch that came to nothing has no row of its own
  by_cases hsome : 0 < r.dto.actual
  · rw [if_pos hsome, sumWhere_cons, sumWhere_nil, add_zero]
    by_cases hi : i = r.id
    · simp [hi]
      ring
    · simp [hi, Ne.symm hi]
  · rw [if_neg hsome, sumWhere_nil]
    split <;> omega

/-- **A batch leaves no ingredient below zero if and only if** it would pass its shortfall
check as it commits. -/
theorem publishBatch_there {db : Db} {r : BatchCall} {p : BatchPlan} {rows : List StockMovement}
    (hunique : RecipesUnique db) (hp : Planned db r p) (hrows : storeRows (r.rows p) = .ok rows)
    (hdb : StockThere db) :
    StockThere (publishBatch db r p rows)
      ↔ findShortfalls p.components (stockOf db.movements) = [] := by
  obtain ⟨y, hy⟩ := hp
  obtain ⟨hnodup, hcomponents⟩ := batchComponents_ok hunique hy
  have hyield := r.dto.actual_nonneg
  have hafter : ∀ i, stockOf (publishBatch db r p rows).movements i
      = stockOf db.movements i + ((if i = r.id then r.dto.actual else 0)
        - sumWhere (fun c => decide (c.ingredientId = i)) (·.quantity) p.components) := by
    intro i
    show stockOf (db.movements ++ rows) i = _
    unfold stockOf
    rw [ledgerSum_append]
    exact congrArg _ (stockOf_batchRows hrows i)
  have htaken : ∀ c ∈ p.components,
      sumWhere (fun c' : Component => decide (c'.ingredientId = c.ingredientId)) (·.quantity)
        p.components = c.quantity := by
    intro c hc
    have hone := sumWhere_at_key (fun c : Component => c.ingredientId) (fun _ => true)
      (·.quantity) hnodup hc
    simpa using hone
  rw [findShortfalls_nil fun c hc => (hcomponents c hc).1]
  constructor
  · intro h c hc
    have hstock := h c.ingredientId
    rw [hafter, htaken c hc, if_neg (hcomponents c hc).2] at hstock
    omega
  · intro h i
    rw [hafter]
    have hthere := hdb i
    -- a component has enough; nothing else is taken
    by_cases hi : ∃ c ∈ p.components, c.ingredientId = i
    · obtain ⟨c, hc, rfl⟩ := hi
      have henough := h c hc
      rw [htaken c hc]
      split <;> omega
    · have hnone : sumWhere (fun c : Component => decide (c.ingredientId = i)) (·.quantity)
          p.components = 0 := by
        apply sumWhere_eq_zero
        intro c hc heq
        exact absurd ⟨c, hc, by simpa using heq⟩ hi
      rw [hnone]
      split <;> omega

/-! ## §6. Batches at once. -/

/-- A batch that commits with this step would pass its shortfall check now. -/
def StillThere (c : Sessions Db (BatchCall × BatchPhase) BatchEntry) :
    SessionEvent BatchCall Unit Empty → Prop
  | .run i _ =>
      match c.running i with
      | some (_, .staged p _) => findShortfalls p.components (stockOf c.shared.movements) = []
      | _ => True
  | _ => True

instance (c : Sessions Db (BatchCall × BatchPhase) BatchEntry)
    (e : SessionEvent BatchCall Unit Empty) : Decidable (StillThere c e) := by
  unfold StillThere
  split
  · split <;> infer_instance
  · infer_instance

/-- For a call about to commit, the condition is the code's own check on what is there
now. -/
theorem StillThere.staged {c : Sessions Db (BatchCall × BatchPhase) BatchEntry} {i : ℕ}
    {r : BatchCall} {p : BatchPlan} {rows : List StockMovement}
    (hi : c.running i = some (r, .staged p rows)) :
    StillThere c (.run i ()) ↔ findShortfalls p.components (stockOf c.shared.movements) = [] := by
  simp only [StillThere, hi]

/-- Any other step changes no stock, and the condition asks nothing of it. -/
theorem StillThere.other {c : Sessions Db (BatchCall × BatchPhase) BatchEntry} {i : ℕ}
    {t : BatchCall × BatchPhase} (hi : c.running i = some t)
    (hnot : ∀ db' t', batchTurn c.shared t ≠ .commit db' t') : StillThere c (.run i ()) := by
  obtain ⟨r, phase⟩ := t
  cases phase with
  | staged p rows => exact absurd rfl (hnot _ _)
  | _ => simp only [StillThere, hi]

/-- No batch commits with this step. -/
def CommitsNothing (c : Sessions Db (BatchCall × BatchPhase) BatchEntry) :
    SessionEvent BatchCall Unit Empty → Prop
  | .run i _ =>
      match c.running i with
      | some (_, .staged _ _) => False
      | _ => True
  | _ => True

instance (c : Sessions Db (BatchCall × BatchPhase) BatchEntry)
    (e : SessionEvent BatchCall Unit Empty) : Decidable (CommitsNothing c e) := by
  unfold CommitsNothing
  split
  · split <;> infer_instance
  · infer_instance

theorem checked_step {c c' : Sessions Db (BatchCall × BatchPhase) BatchEntry}
    {e : SessionEvent BatchCall Unit Empty} (hnone : CommitsNothing c e)
    (h : batchSession.act c e = some c') {i : ℕ}
    (hi : ∀ t, c.running i = some t → Checked c.shared t) :
    c'.shared = c.shared ∧ ∀ t, c'.running i = some t → Checked c.shared t := by
  -- the batch that moved, and the others
  have hmoved : ∀ {j : ℕ} {o : Option (BatchCall × BatchPhase)},
      (j = i → ∀ t, o = some t → Checked c.shared t) →
      ∀ t, Function.update c.running j o i = some t → Checked c.shared t := by
    intro j o hown t ht
    rcases Program.running_update ht with ⟨rfl, heq⟩ | ⟨-, hold⟩
    · exact hown rfl t heq
    · exact hi t hold
  cases batchSession.act_moved h with
  | began _ =>
      refine ⟨rfl, hmoved ?_⟩
      rintro - t ⟨⟩
      exact trivial
  | went hj hturn =>
      refine ⟨rfl, hmoved ?_⟩
      rintro rfl t ⟨⟩
      cases batchSession_inverts.moves hturn with
      | goes _ hunchecked => exact hunchecked
      | checks hchecked => exact hchecked
      | stages _ =>
          have hstood := hi _ hj
          exact hstood
  | locked hj hturn _ =>
      refine ⟨rfl, hmoved ?_⟩
      rintro rfl t ⟨⟩
      cases batchSession_inverts.moves hturn with
      | enters =>
          have hstood := hi _ hj
          exact hstood
  | committed hj hturn =>
      cases batchSession_inverts.moves hturn with
      | commits =>
          simp only [CommitsNothing, hj] at hnone
  | rolledBack hj hturn =>
      refine ⟨rfl, hmoved ?_⟩
      rintro rfl t ⟨⟩
      cases batchSession_inverts.moves hturn with
      | fails => exact checked_fail _ _ _ _
  | dropped =>
      refine ⟨rfl, hmoved ?_⟩
      rintro - t ⟨⟩
  | @elsewhere x => exact x.elim

/-- **The run lemma**: a batch with no commit between its look at the stock and its own
would pass its shortfall check again. -/
theorem undisturbed_passes {db : Db} {c c' : Sessions Db (BatchCall × BatchPhase) BatchEntry}
    {es : List (SessionEvent BatchCall Unit Empty)}
    (hrun : ((batchRace db).restrict CommitsNothing).Run c es c') {i : ℕ} {r : BatchCall}
    {p : BatchPlan} (hi : c.running i = some (r, .planned p)) : StillThere c' (.run i ()) := by
  -- the state stays the one that was looked at, and the check of the call stays passed
  have hkept := hrun.preserves
    (fun x => x.shared = c.shared ∧ ∀ t, x.running i = some t → Checked c.shared t) ?_ ?_
  · obtain ⟨hshared, hchecked⟩ := hkept
    simp only [StillThere]
    split
    next r' p' rows hstaged =>
      rw [hshared]
      exact hchecked _ hstaged
    next => trivial
  · rintro x e y ⟨hshared, hchecked⟩ ⟨hnone, hstep⟩
    rw [← hshared] at hchecked ⊢
    exact checked_step hnone hstep hchecked
  · refine ⟨rfl, ?_⟩
    intro t ht
    cases hi.symm.trans ht
    exact trivial

/-- **A commit leaves no ingredient below zero exactly when its components are still
there.** -/
theorem batches_step {c c' : Sessions Db (BatchCall × BatchPhase) BatchEntry}
    {e : SessionEvent BatchCall Unit Empty} (hunique : RecipesUnique c.shared)
    (hknow : ∀ i t, c.running i = some t → BatchKnows c.shared t) (hthere : StockThere c.shared)
    (h : batchSession.act c e = some c') : StockThere c'.shared ↔ StillThere c e := by
  -- only a commit writes; of the others both sides hold
  cases batchSession.act_moved h with
  | began _ => exact iff_of_true hthere trivial
  | went hi hturn =>
      refine iff_of_true hthere (StillThere.other hi ?_)
      intro db' t' hcommit
      cases hcommit.symm.trans hturn
  | locked hi hturn _ =>
      refine iff_of_true hthere (StillThere.other hi ?_)
      intro db' t' hcommit
      cases hcommit.symm.trans hturn
  | @committed i o s t t' hi hturn =>
      have hk := hknow i t hi
      cases batchSession_inverts.moves hturn with
      | commits =>
          exact (publishBatch_there hunique hk.1 hk.2 hthere).trans (StillThere.staged hi).symm
  | rolledBack hi hturn =>
      refine iff_of_true hthere (StillThere.other hi ?_)
      intro db' t' hcommit
      cases hcommit.symm.trans hturn
  | dropped => exact iff_of_true hthere trivial
  | @elsewhere x => exact x.elim

/-- **Batches cook what is there**: while every batch that commits would still pass its
shortfall check, no ingredient is below zero, and the first that would not leaves one so.
A batch that looks at the stock and commits with no other commit in between does pass. -/
theorem batches_cook_what_is_there {db : Db} (hunique : RecipesUnique db) (hdb : StockThere db)
    {c : Sessions Db (BatchCall × BatchPhase) BatchEntry}
    (h : ((batchRace db).restrict StillThere).Reachable c) :
    StockThere c.shared
      ∧ (∀ e c', (batchRace db).step c e c' → (StockThere c'.shared ↔ StillThere c e))
      ∧ ∀ es c' i r p, ((batchRace db).restrict CommitsNothing).Run c es c' →
          c.running i = some (r, .planned p) → StillThere c' (.run i ()) := by
  have hinv : ∀ {c}, ((batchRace db).restrict StillThere).Reachable c → RecipesUnique c.shared
      ∧ ∀ i t, c.running i = some t → BatchKnows c.shared t := by
    intro c hc
    have hall := Session.invariant batchSession_knows (fun s (hs : s = db) => hs ▸ hunique)
      (System.restrict_reachable hc)
    exact ⟨hall.1, fun i t hi => (hall.2 i t hi).1⟩
  -- along the run, each step by `batches_step`
  have hthere : StockThere c.shared := by
    induction h with
    | init h0 =>
        rw [show _ = db from h0.1]
        exact hdb
    | step hc hs ih =>
        obtain ⟨hu, hk⟩ := hinv hc
        exact (batches_step hu hk ih hs.2).mpr hs.1
  obtain ⟨hu, hk⟩ := hinv h
  exact ⟨hthere, fun e c' hstep => batches_step hu hk hthere hstep,
    fun es c' i r p hrun hi => undisturbed_passes hrun hi⟩

/-- The cook of the runs below. -/
def sousChef : TenantContext := ⟨1, 5, 50, []⟩

/-- A delivery of 5 of butter. -/
def butterRow : NewMovement :=
  { ingredientId := 21, type := .purchase, quantity := 5, orderId := none, prepBatchId := none,
    supplierId := none, totalCostMinor := none, note := none, actorUserId := some 5,
    idempotencyKey := none }

/-- A recipe with 5 of butter in each yield. -/
def butterIn (prepIngredientId : Uuid) (h : prepIngredientId ≠ 21) : PrepRecipeItem :=
  ⟨prepIngredientId, 21, 5, by decide, h⟩

/-- Five of butter, and two sauces that take five for ten. -/
def dairy : Db :=
  { Db.empty with
    ingredients := [⟨11, "Makhani sauce", none, true, true, some 10, none⟩,
      ⟨12, "Kurma sauce", none, true, true, some 10, none⟩,
      ⟨21, "Butter", none, true, false, none, none⟩]
    prepRecipeItems := [butterIn 11 (by decide), butterIn 12 (by decide)]
    movements := (storeRows [butterRow]).toOption.getD [] }

theorem dairy_unique : RecipesUnique dairy := by
  unfold RecipesUnique
  decide

/-- The butter delivered is on the shelf. -/
theorem dairy_there : StockThere dairy := by
  have hrows : ∀ m ∈ dairy.movements, 0 ≤ m.quantity := by decide
  intro i
  exact sumWhere_nonneg fun m hm _ => hrows m hm

theorem quantity_allowed : ∀ q ∈ [(4 : ℤ), 6, 10], 1 ≤ q ∧ q ≤ maxQty := by decide

/-- A batch of a sauce; its code and its id tell it from the other. -/
def sauce (batchId id : Uuid) (code : String) (q : ℤ) (h : q ∈ [(4 : ℤ), 6, 10]) : BatchCall :=
  ⟨sousChef, ⟨batchId, 0⟩, [code], id,
    ⟨q, none, none, none, none, quantity_allowed q h, absent_within⟩⟩

/-- Both look at the butter before either commits. -/
def twoSauces (r r' : BatchCall) : List (SessionEvent BatchCall Unit Empty) :=
  [.begin 0 r, .begin 1 r']
    ++ [0, 0, 0, 0, 1, 1, 1, 1, 0, 0, 0, 0, 1, 1, 1, 1].map fun i => .run i ()

/-- Batches of 4 and 6, which share the butter between them. -/
def enoughForBoth : List (SessionEvent BatchCall Unit Empty) :=
  twoSauces (sauce 31 11 "PB-1" 4 (by decide)) (sauce 32 12 "PB-2" 6 (by decide))

theorem enoughForBoth_runs : (System.replay (System.guarded StillThere batchSession.act)
    enoughForBoth (Session.quiet dairy)).isSome = true := by decide +kernel

/-- The first has read its recipe and is about to look at the butter. -/
def readyToLook : List (SessionEvent BatchCall Unit Empty) :=
  [.begin 0 (sauce 31 11 "PB-1" 4 (by decide)), .run 0 (), .run 0 (), .run 0 ()]

/-- It looks, and stages its batch, while the second begins. -/
def looksAlone : List (SessionEvent BatchCall Unit Empty) :=
  [.run 0 (), .begin 1 (sauce 32 12 "PB-2" 6 (by decide)), .run 1 (), .run 0 (), .run 0 (), .run 0 ()]

theorem looksAlone_runs : ∃ c, System.replay (System.guarded StillThere batchSession.act) readyToLook
      (Session.quiet dairy) = some c ∧ (∃ r p, c.running 0 = some (r, .planned p))
    ∧ ∃ c', System.replay (System.guarded CommitsNothing batchSession.act) looksAlone c = some c'
      ∧ ∃ r p rows, c'.running 0 = some (r, .staged p rows) :=
  ⟨_, rfl, ⟨_, _, rfl⟩, _, rfl, _, _, _, rfl⟩

/-- Two batches that overlap and cook all the butter there is; and the first of them, with
no commit between its look and its own, is staged and would pass again. -/
theorem batches_cook_what_is_there_twoSauces :
    (∃ c, ((batchRace dairy).restrict StillThere).Reachable c ∧ StockThere c.shared
      ∧ c.shared.prepBatches.map (·.actualQuantity) = [4, 6]
      ∧ stockOf c.shared.movements 21 = 0)
      ∧ ∃ c c', ((batchRace dairy).restrict StillThere).Reachable c
        ∧ ((batchRace dairy).restrict CommitsNothing).Run c looksAlone c'
        ∧ (∃ r p rows, c'.running 0 = some (r, .staged p rows)) ∧ StillThere c' (.run 0 ()) := by
  have hreach : ((batchRace dairy).restrict StillThere).Reachable _ :=
    Session.replay_guarded (by rfl) enoughForBoth (Option.some_get enoughForBoth_runs).symm
  refine ⟨⟨_, hreach, (batches_cook_what_is_there dairy_unique dairy_there hreach).1,
    by decide +kernel, by decide +kernel⟩, ?_⟩
  obtain ⟨c, hready, ⟨r, p, hplanned⟩, c', hlooks, hstaged⟩ := looksAlone_runs
  have hready' : ((batchRace dairy).restrict StillThere).Reachable c :=
    Session.replay_guarded (by rfl) readyToLook hready
  have hrun : ((batchRace dairy).restrict CommitsNothing).Run c looksAlone c' :=
    System.replay_run (System.guarded_step fun _ _ _ h => h) looksAlone c c' hlooks
  exact ⟨c, c', hready', hrun, hstaged, (batches_cook_what_is_there dairy_unique dairy_there
    hready').2.2 looksAlone c' 0 r p hrun hplanned⟩

/-- Two batches of 10, each of which needs all of the butter. -/
def sameButterTwice : List (SessionEvent BatchCall Unit Empty) :=
  twoSauces (sauce 31 11 "PB-1" 10 (by decide)) (sauce 32 12 "PB-2" 10 (by decide))

theorem sameButterTwice_runs : (System.replay batchSession.act sameButterTwice
    (Session.quiet dairy)).isSome = true := by decide +kernel

/-- Two batches of ten take five each of the same five. -/
theorem batches_cook_what_is_not_there : StockThere dairy
    ∧ ∃ c, (batchRace dairy).Reachable c ∧ ¬ StockThere c.shared := by
  have hreach : (batchRace dairy).Reachable _ :=
    Session.replay_reached (by rfl) sameButterTwice (Option.some_get sameButterTwice_runs).symm
  refine ⟨dairy_there, _, hreach, ?_⟩
  intro hthere
  have hbutter := hthere 21
  revert hbutter
  decide +kernel

end OraOS.Inventory
