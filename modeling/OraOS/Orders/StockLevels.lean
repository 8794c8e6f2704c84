/-
  OraOS.Orders.StockLevels — the stock of a prepared ingredient, and what remains of its
  batches.

  A movement names a batch in two senses: the batch it was drawn from, and the batch it
  was cooked into.  The second kind counts in the stock of what was cooked and in no
  batch of it.

    * `stock_split`        — stock is what remains of the own batches, what names none, and
                             what was cooked into other batches;
    * `perform_levels`     — **the step inversion**, seen from the two levels;
    * `stock_levels_agree` — they agree exactly as long as no batch takes a prepared
                             ingredient.
-/
import OraOS.Orders.BatchBounds
import OraOS.Inventory.BatchRace

namespace OraOS.Orders

open OraOS.Api
open OraOS.Lib
open OraOS.Inventory

/-! ## §1. The two levels. -/

/-- What remains of an ingredient's own batches, all together. -/
def ownRemaining (db : Db) (ingredientId : Uuid) : ℤ :=
  ((db.prepBatches.filter fun b => b.prepIngredientId = ingredientId).map fun b =>
    remainingOf db.movements b.id).sum

/-- What the movements of an ingredient come to that name no batch. -/
def untaggedOf (l : List StockMovement) (ingredientId : Uuid) : ℤ :=
  ledgerSum (fun m => decide (m.ingredientId = ingredientId) && m.prepBatchId.isNone) l

/-- What of an ingredient was cooked into batches. -/
def cookedOf (l : List StockMovement) (ingredientId : Uuid) : ℤ :=
  ledgerSum (fun m => decide (m.ingredientId = ingredientId)
    && (m.prepBatchId.isSome && decide (m.type = .prepBatch))) l

/-- The movement counts in one of the ingredient's batches, and in no other. -/
def InOwnBatch (db : Db) (ingredientId : Uuid) (m : StockMovement) : Prop :=
  m.type ≠ .prepBatch ∧ ∃! b, b ∈ db.prepBatches ∧ b.prepIngredientId = ingredientId
    ∧ m.prepBatchId = some b.id

/-- **The two levels agree** on every prepared ingredient: the sums do, and every movement
is in the untagged part or in exactly one of its batches. -/
structure LevelsAgree (db : Db) : Prop where
  sums : ∀ i, isPrepared db i = true →
    ownRemaining db i + untaggedOf db.movements i = stockOf db.movements i
  accounted : ∀ i, isPrepared db i = true → ∀ m ∈ db.movements, m.ingredientId = i →
    m.prepBatchId = none ∨ InOwnBatch db i m

/-- A row drawn from a batch is of the ingredient the batch is of. -/
def OwnTagged (db : Db) : Prop :=
  ∀ m ∈ db.movements, m.type ≠ .prepBatch → ∀ b ∈ db.prepBatches,
    m.prepBatchId = some b.id → m.ingredientId = b.prepIngredientId

/-- The row was cooked into a batch. -/
def CookedRow (m : StockMovement) : Prop := m.prepBatchId ≠ none ∧ m.type = .prepBatch

theorem ownRemaining_eq {db : Db} (hs : BatchInv db) (hown : OwnTagged db) (i : Uuid) :
    ownRemaining db i = ledgerSum (fun m => decide (m.ingredientId = i)
      && (m.prepBatchId.isSome && decide (m.type ≠ .prepBatch))) db.movements := by
  set own := db.prepBatches.filter fun b => b.prepIngredientId = i with hdef
  have hids : (own.map fun b => some b.id).Nodup := by
    have hnd : (own.map (·.id)).Nodup := (List.filter_sublist.map _).nodup hs.ids
    have hsome := hnd.map (Option.some_injective Uuid)
    rwa [List.map_map] at hsome
  have hfibers := sumWhere_fibers (fun m : StockMovement => m.prepBatchId)
    (fun m => decide (m.type ≠ .prepBatch)) (·.quantity) hids db.movements
  rw [List.map_map] at hfibers
  refine Eq.trans hfibers ?_
  unfold ledgerSum
  refine sumWhere_congr (fun m hm => ?_) fun _ _ _ => rfl
  -- a row in one of the own batches is of the ingredient, and the other way round
  refine Bool.eq_iff_iff.mpr ?_
  simp only [Bool.and_eq_true, decide_eq_true_eq]
  constructor
  · rintro ⟨hin, htype⟩
    obtain ⟨b, hb, htag⟩ := List.mem_map.mp hin
    obtain ⟨hb, hi⟩ := List.mem_filter.mp hb
    have hsame := hown m hm htype b hb htag.symm
    exact ⟨hsame.trans (by simpa using hi), htag ▸ rfl, htype⟩
  · rintro ⟨hmi, hsome, htype⟩
    obtain ⟨id, htag⟩ := Option.isSome_iff_exists.mp hsome
    obtain ⟨b, hb, rfl⟩ := hs.known m hm id htag
    have hsame := hown m hm htype b hb htag
    exact ⟨List.mem_map.mpr ⟨b, List.mem_filter.mpr
      ⟨hb, by simpa using hsame.symm.trans hmi⟩, htag.symm⟩, htype⟩

/-- **Stock, split**: what remains of the own batches, what names no batch, and what was
cooked into other batches. -/
theorem stock_split {db : Db} (hs : BatchInv db) (hown : OwnTagged db) (i : Uuid) :
    stockOf db.movements i
      = ownRemaining db i + untaggedOf db.movements i + cookedOf db.movements i := by
  rw [ownRemaining_eq hs hown]
  unfold stockOf untaggedOf cookedOf ledgerSum
  induction db.movements with
  | nil => rfl
  | cons m l ih =>
      simp only [sumWhere_cons] at ih ⊢
      rw [ih]
      cases m.prepBatchId with
      | none =>
          simp
          ring
      | some id =>
          by_cases htype : m.type = .prepBatch
          · simp [htype]
            ring
          · simp [htype]
            ring

/-- Nothing was cooked exactly if the rows say so: they all take something. -/
theorem cookedOf_zero {l : List StockMovement} {i : Uuid} :
    cookedOf l i = 0 ↔ ∀ m ∈ l, m.ingredientId = i → ¬ CookedRow m := by
  have hneg : ∀ m : StockMovement, m.type = .prepBatch → m.quantity < 0 := by
    intro m htype
    have hdir := m.storable.direction_ok
    rw [htype] at hdir
    simpa [StockMovementType.directionOk] using hdir
  constructor
  · intro hzero m hm hi hcooked
    have hpos : 0 < sumWhere (fun m : StockMovement => decide (m.ingredientId = i)
        && (m.prepBatchId.isSome && decide (m.type = .prepBatch))) (fun m => -m.quantity) l := by
      refine sumWhere_pos ?_ hm ?_ ?_
      · intro x _ hx
        simp only [Bool.and_eq_true, decide_eq_true_eq] at hx
        have := hneg x hx.2.2
        omega
      · simp [hi, hcooked.2, Option.isSome_iff_ne_none.mpr hcooked.1]
      · have := hneg m hcooked.2
        omega
    have hsum : sumWhere (fun m : StockMovement => decide (m.ingredientId = i)
        && (m.prepBatchId.isSome && decide (m.type = .prepBatch))) (fun m => m.quantity) l = 0 :=
      hzero
    rw [sumWhere_neg, hsum] at hpos
    omega
  · intro hnone
    apply sumWhere_eq_zero
    intro m hm hp
    simp only [Bool.and_eq_true, decide_eq_true_eq] at hp
    exact absurd ⟨Option.isSome_iff_ne_none.mp hp.2.1, hp.2.2⟩ (hnone m hm hp.1)

/-- **The levels agree if and only if nothing prepared was cooked** into a batch. -/
theorem levelsAgree_iff {db : Db} (hs : BatchInv db) (hown : OwnTagged db) :
    LevelsAgree db ↔ ∀ i, isPrepared db i = true → ∀ m ∈ db.movements,
      m.ingredientId = i → ¬ CookedRow m := by
  constructor
  · intro h i hi
    refine cookedOf_zero.mp ?_
    have hsums := h.sums i hi
    have hsplit := stock_split hs hown i
    omega
  · intro h
    refine ⟨?_, ?_⟩
    · intro i hi
      have hzero := cookedOf_zero.mpr (h i hi)
      have hsplit := stock_split hs hown i
      omega
    · intro i hi m hm hmi
      cases htag : m.prepBatchId with
      | none => exact .inl rfl
      | some id =>
          right
          have hnot := h i hi m hm hmi
          have htype : m.type ≠ .prepBatch := by
            intro htype
            exact hnot ⟨htag ▸ Option.some_ne_none id, htype⟩
          obtain ⟨b, hb, rfl⟩ := hs.known m hm id htag
          refine ⟨htype, b, ⟨hb, (hown m hm htype b hb htag).symm.trans hmi, htag⟩, ?_⟩
          rintro b' ⟨hb', -, htag'⟩
          have hid : b.id = b'.id := Option.some.inj (htag.symm.trans htag')
          exact List.inj_on_of_nodup_map hs.ids hb' hb hid.symm

/-! ## §2. What a request does to the two levels. -/

/-- The row is drawn from a batch of its own ingredient. -/
def DrawnFrom (db : Db) (m : StockMovement) : Prop :=
  m.type ≠ .prepBatch ∧ ∃ b ∈ db.prepBatches, m.prepBatchId = some b.id
    ∧ m.ingredientId = b.prepIngredientId

/-- No batch is made, nothing becomes prepared or raw, and every new row names no batch or
is drawn from one. -/
structure NoBatchMade (db db' : Db) : Prop where
  prepBatches : db'.prepBatches = db.prepBatches
  kinds : isPrepared db' = isPrepared db
  movements : ∃ new : List StockMovement, db'.movements = db.movements ++ new
    ∧ ∀ m ∈ new, m.prepBatchId = none ∨ DrawnFrom db m

/-- What a `createBatch` for `id` takes of prepared ingredients, if it gets that far. -/
def takesPrepared (db : Db) (id : Uuid) (dto : CreateBatchDto) : Bool :=
  match prepItemOf db id >>= fun item => batchComponents db id item.2 dto.quantity with
  | .ok components => components.any fun c => isPrepared db c.ingredientId
  | .error _ => false

/-- A batch is cooked from raw ingredients only; a replayed key cooks nothing. -/
def CooksRaw (s : Server) : Request → Prop
  | .stock _ (.createBatch _ _ id dto) =>
      (findBatchByKey s.db dto.idempotencyKey).isNone = true → takesPrepared s.db id dto = false
  | _ => True

instance (s : Server) (r : Request) : Decidable (CooksRaw s r) := by
  unfold CooksRaw
  split <;> infer_instance

/-- A batch that is made: what was read for it, and what it writes. -/
structure Publishes (db : Db) (r : BatchCall) (db' : Db) (p : BatchPlan) (y : ℤ)
    (rows : List StockMovement) : Prop where
  item : prepItemOf db r.id = .ok (p.item, y)
  components : batchComponents db r.id y r.dto.quantity = .ok p.components
  fresh : ∀ b ∈ db.prepBatches, b.id ≠ r.env.newId
  stored : storeRows (r.rows p) = .ok rows
  publish : db' = publishBatch db r p rows

/-- The effects of a request on the two levels. -/
inductive LevelStep (s : Server) : Request → Db → Prop where
  | ordinary {r : Request} {db' : Db} (hraw : CooksRaw s r) (h : NoBatchMade s.db db') :
      LevelStep s r db'
  | edited {ctx : TenantContext} (c : Catalogue) :
      LevelStep s (.stock ctx (.catalogue c)) (withCatalogue s.db c)
  | cooked {r : BatchCall} {p : BatchPlan} {y : ℤ} {rows : List StockMovement} {db' : Db}
      (hkey : findBatchByKey s.db r.dto.idempotencyKey = none)
      (hmade : Publishes s.db r db' p y rows) :
      LevelStep s (.stock r.ctx (.createBatch r.env r.codes r.id r.dto)) db'

theorem isPrepared_congr {db db' : Db} (h : db'.ingredients = db.ingredients) :
    isPrepared db' = isPrepared db := by
  funext i
  unfold isPrepared
  rw [h]

theorem NoBatchMade.of_leaves {db db' : Db} (h : LeavesBatches db db')
    (hi : isPrepared db' = isPrepared db) : NoBatchMade db db' := by
  obtain ⟨new, hmovements, hnew⟩ := h.movements
  exact ⟨h.prepBatches, hi, new, hmovements, fun m hm => .inl (hnew m hm).1⟩

theorem NoBatchMade.refl (db : Db) : NoBatchMade db db :=
  .of_leaves (.of_eq rfl rfl) rfl

theorem sold_noBatchMade {db db' : Db} {now : Instant} {orderId actorUserId : Uuid}
    {lines : List SoldLine} {new : List StockMovement}
    (hbatches : db'.prepBatches = db.prepBatches) (hi : db'.ingredients = db.ingredients)
    (hmovements : db'.movements = db.movements ++ new)
    (hnew : new.map (·.toNewMovement) = depletionRows db now orderId actorUserId lines) :
    NoBatchMade db db' := by
  refine ⟨hbatches, isPrepared_congr hi, new, hmovements, ?_⟩
  intro m hm
  have hrow : m.toNewMovement ∈ depletionRows db now orderId actorUserId lines :=
    hnew ▸ List.mem_map_of_mem hm
  cases htag : m.prepBatchId with
  | none => exact .inl rfl
  | some id =>
      right
      obtain ⟨b, hb, hid, hmi⟩ := rowsOfEntries_drawn m.toNewMovement hrow id htag
      refine ⟨?_, b, hb, htag.trans (congrArg some hid.symm), hmi⟩
      rw [(depletionRows_tagged _ hrow).2]
      decide

/-- What a reversal returns goes to the batches it was drawn from. -/
theorem returned_noBatchMade {db db' : Db} (hs : BatchInv db) (hown : OwnTagged db)
    {orderId actorUserId : Uuid} {toStatus : OrderStatus} {new : List StockMovement}
    (hbatches : db'.prepBatches = db.prepBatches) (hi : db'.ingredients = db.ingredients)
    (hmovements : db'.movements = db.movements ++ new)
    (hnew : new.map (·.toNewMovement) = restockRows db.movements orderId actorUserId toStatus) :
    NoBatchMade db db' := by
  refine ⟨hbatches, isPrepared_congr hi, new, hmovements, ?_⟩
  intro m hm
  have hrow : m.toNewMovement ∈ restockRows db.movements orderId actorUserId toStatus :=
    hnew ▸ List.mem_map_of_mem hm
  have htype : m.type = .adjustment := (restockRows_tagged _ hrow).2
  -- a row returned has the ingredient and the batch of a row consumed
  obtain ⟨t, ht, heq⟩ := List.mem_map.mp hrow
  have hkey : t.1 ∈ (Tally.tally ((consumedOf db.movements orderId).map fun m =>
      ((m.ingredientId, m.prepBatchId), -m.quantity))).keys :=
    List.mem_map_of_mem (List.mem_filter.mp ht).1
  rw [Tally.mem_keys_tally, List.map_map] at hkey
  obtain ⟨c, hc, hct⟩ := List.mem_map.mp hkey
  obtain ⟨hc, hconsumed⟩ := List.mem_filter.mp hc
  simp only [Bool.and_eq_true, decide_eq_true_eq] at hconsumed
  have hingredient : m.ingredientId = c.ingredientId := by
    rw [← heq, ← hct]
    rfl
  have hbatch : m.prepBatchId = c.prepBatchId := by
    rw [← heq, ← hct]
    rfl
  cases htag : m.prepBatchId with
  | none => exact .inl rfl
  | some id =>
      right
      have htag' : c.prepBatchId = some id := hbatch.symm.trans htag
      obtain ⟨b, hb, rfl⟩ := hs.known c hc id htag'
      refine ⟨?_, b, hb, htag, ?_⟩
      · rw [htype]
        decide
      · refine hingredient.trans (hown c hc ?_ b hb htag')
        rw [hconsumed.2]
        decide

theorem writeOnce_noBatchMade {db db' : Db} {key : Option String} {row : StockMovement}
    {write : Except ApiError (StockMovement × Db)}
    (hw : ∀ row' db'', write = .ok (row', db'') → NoBatchMade db db'')
    (h : writeOnce db key write = .ok (row, db')) : NoBatchMade db db' := by
  unfold writeOnce at h
  split at h
  next =>
    cases h
    exact .refl db
  next => exact hw row db' h

theorem writeMovement_noBatchMade {db db' : Db} {m : NewMovement} {row : StockMovement}
    (hb : m.prepBatchId = none) (ho : m.orderId = none)
    (h : writeMovement db m = .ok (row, db')) : NoBatchMade db db' := by
  have hleaves := writeMovement_leavesBatches hb ho h
  obtain ⟨-, rfl⟩ := writeMovement_ok h
  exact .of_leaves hleaves rfl

theorem wasteBatch_noBatchMade {db db' : Db} {ctx : TenantContext} {batchId : Uuid}
    {dto : WasteBatchDto} {row : StockMovement}
    (h : wasteBatch db ctx batchId dto = .ok (row, db')) : NoBatchMade db db' := by
  refine writeOnce_noBatchMade (fun row' db'' hw => ?_) h
  simp only [bind_ok, found_ok, require_ok] at hw
  obtain ⟨batch, hfind, _, -, hw⟩ := hw
  obtain ⟨hrow, rfl⟩ := writeMovement_ok hw
  have hid : batch.id = batchId := by simpa using List.find?_some hfind
  refine ⟨rfl, rfl, [row'], rfl, ?_⟩
  intro m hm
  obtain rfl := List.mem_singleton.mp hm
  right
  refine ⟨?_, batch, List.mem_of_find?_eq_some hfind, ?_, ?_⟩
  · rw [hrow]
    exact fun htype => StockMovementType.noConfusion htype
  · rw [hrow, hid]
  · rw [hrow]

theorem attempts_publish {db db' : Db} {r : BatchCall} {batch : PrepBatch}
    (hkey : findBatchByKey db r.dto.idempotencyKey = none) {codes : List String}
    (h : createBatchAttempts db r.ctx r.env r.id r.dto codes = .ok (batch, db')) :
    ∃ p y rows, Publishes db r db' p y rows := by
  induction codes with
  | nil => cases h
  | cons code rest ih =>
      unfold createBatchAttempts at h
      cases hdo : doCreateBatch db r.ctx r.env code r.id r.dto with
      | ok result =>
          rw [hdo] at h
          cases h
          rw [doCreateBatch_eq db r code rest] at hdo
          obtain ⟨item, hitem, hdo⟩ := bind_ok.mp hdo
          obtain ⟨components, hcomponents, hdo⟩ := bind_ok.mp hdo
          obtain ⟨_, -, hdo⟩ := bind_ok.mp hdo
          obtain ⟨_, hentries, hdo⟩ := bind_ok.mp hdo
          obtain ⟨rows, hrows, hdo⟩ := bind_ok.mp hdo
          rw [checkEntries_eq] at hentries
          obtain ⟨_, hfresh, -⟩ := bind_ok.mp hentries
          cases pure_ok.mp hdo
          exact ⟨_, _, rows, hitem, hcomponents,
            fun b hb => (require_ok.mp hfresh b hb).1, hrows, rfl⟩
      | error e =>
          rw [hdo] at h
          -- an attempt that clashes finds no batch under the key either
          cases e with
          | uniqueViolation ix =>
              simp only [hkey] at h
              exact ih h
          | _ => cases h

/-- A batch that is made, or a call that is answered with one made before. -/
theorem createBatch_publishes {db db' : Db} {r : BatchCall} {batch : PrepBatch}
    (h : r.perform db = .ok (batch, db')) :
    (db' = db ∧ (findBatchByKey db r.dto.idempotencyKey).isNone = false)
      ∨ findBatchByKey db r.dto.idempotencyKey = none
        ∧ ∃ p y rows, Publishes db r db' p y rows := by
  unfold BatchCall.perform createBatch at h
  cases hkey : findBatchByKey db r.dto.idempotencyKey with
  | some existing =>
      rw [hkey] at h
      cases h
      exact .inl ⟨rfl, rfl⟩
  | none =>
      rw [hkey] at h
      exact .inr ⟨rfl, attempts_publish hkey h⟩

theorem setPrepRecipe_noBatchMade {db db' : Db} {id : Uuid} {dto : SetPrepRecipeDto}
    (h : setPrepRecipe db id dto = .ok db') : NoBatchMade db db' := by
  obtain ⟨_, -, h⟩ := bind_ok.mp h
  obtain ⟨_, -, h⟩ := bind_ok.mp h
  split at h
  next => cases h
  next =>
    obtain ⟨_, -, h⟩ := bind_ok.mp h
    obtain ⟨_, -, h⟩ := bind_ok.mp h
    cases pure_ok.mp h
    refine .of_leaves (.of_eq rfl rfl) (funext fun i => ?_)
    -- the yield changes, whether it is prepared does not
    unfold isPrepared
    show ((db.ingredients.map _).find? _).any _ = _
    rw [List.find?_map, Option.any_map]
    have hsame : ((fun x : Ingredient => decide (x.id = i)) ∘ fun x : Ingredient =>
        if x.id = id then { x with prepBatchYield := some dto.batchYield } else x)
        = fun x : Ingredient => decide (x.id = i) := by
      funext x
      show decide ((if x.id = id then { x with prepBatchYield := some dto.batchYield } else x).id
        = i) = _
      split <;> rfl
    rw [hsame]
    congr 1
    funext x
    show (if x.id = id then { x with prepBatchYield := some dto.batchYield } else x).isPrepared = _
    split <;> rfl

theorem startAttempts_ingredients {db db' : Db} {ctx : TenantContext} {env : Env}
    {dto : StartStockCountDto} {count : StockCount} {codes : List String}
    (h : startAttempts db ctx env dto codes = .ok (count, db')) :
    db'.ingredients = db.ingredients := by
  induction codes with
  | nil => cases h
  | cons code codes ih =>
      unfold startAttempts at h
      split at h
      next => exact ih h
      next =>
        simp only [startWithCode, bind_ok] at h
        obtain ⟨_, -, _, -, _, -, _, -, h⟩ := h
        cases pure_ok.mp h
        rfl

theorem submitStockCount_ingredients {db db' : Db} {ctx : TenantContext} {now : Instant}
    {id : Uuid} {dto : SubmitStockCountDto} (h : submitStockCount db ctx now id dto = .ok db') :
    db'.ingredients = db.ingredients := by
  obtain ⟨count, -, h⟩ := bind_ok.mp h
  split at h
  next =>
    cases pure_ok.mp h
    rfl
  next =>
    simp only [bind_ok] at h
    obtain ⟨_, -, _, -, _, -, _, -, _, -, h⟩ := h
    cases pure_ok.mp h
    rfl

theorem performStock_levels {s : Server} {db' : Db} {ctx : TenantContext} {r : StockRequest}
    (h : performStock s.db ctx r = .ok db') : LevelStep s (.stock ctx r) db' := by
  cases r with
  | catalogue c =>
      cases h
      exact .edited c
  | setRecipe productId dto =>
      simp only [performStock, setRecipe, bind_ok, pure_ok] at h
      obtain ⟨_, -, _, -, _, -, rfl⟩ := h
      exact .ordinary trivial (.of_leaves (.of_eq rfl rfl) rfl)
  | setPrepRecipe id dto => exact .ordinary trivial (setPrepRecipe_noBatchMade h)
  | createBatch env codes id dto =>
      obtain ⟨⟨batch, db''⟩, hok, h⟩ := bind_ok.mp h
      cases pure_ok.mp h
      -- a replay answers the batch there is; else one is cooked
      rcases createBatch_publishes (r := ⟨ctx, env, codes, id, dto⟩) hok with
        ⟨rfl, hsome⟩ | ⟨hkey, p, y, rows, hmade⟩
      · refine .ordinary ?_ (.refl _)
        intro hnone
        rw [hsome] at hnone
        cases hnone
      · exact .cooked (r := ⟨ctx, env, codes, id, dto⟩) hkey hmade
  | wasteBatch batchId dto =>
      obtain ⟨_, hok, h⟩ := bind_ok.mp h
      cases pure_ok.mp h
      exact .ordinary trivial (wasteBatch_noBatchMade hok)
  | recordMovement ingredientId dto =>
      obtain ⟨_, hok, h⟩ := bind_ok.mp h
      cases pure_ok.mp h
      obtain ⟨⟨type, sign⟩, -, hok⟩ := bind_ok.mp hok
      refine .ordinary trivial (writeOnce_noBatchMade (fun row' db'' hw => ?_) hok)
      obtain ⟨-, -, hw⟩ := bind_ok.mp hw
      obtain ⟨-, -, hw⟩ := bind_ok.mp hw
      exact writeMovement_noBatchMade rfl rfl hw
  | recordAdjustment ingredientId dto =>
      obtain ⟨_, hok, h⟩ := bind_ok.mp h
      cases pure_ok.mp h
      obtain ⟨-, -, hok⟩ := bind_ok.mp hok
      refine .ordinary trivial (writeOnce_noBatchMade (fun row' db'' hw => ?_) hok)
      obtain ⟨-, -, hw⟩ := bind_ok.mp hw
      exact writeMovement_noBatchMade rfl rfl hw
  | startStockCount env codes dto =>
      obtain ⟨_, hok, h⟩ := bind_ok.mp h
      cases pure_ok.mp h
      exact .ordinary trivial (.of_leaves (startAttempts_leavesBatches hok)
        (isPrepared_congr (startAttempts_ingredients hok)))
  | submitStockCount now id dto =>
      exact .ordinary trivial (.of_leaves (submitStockCount_leavesBatches h)
        (isPrepared_congr (submitStockCount_ingredients h)))
  | cancelStockCount id =>
      simp only [performStock, cancelStockCount, bind_ok] at h
      obtain ⟨_, -, _, -, h⟩ := h
      cases pure_ok.mp h
      exact .ordinary trivial (.of_leaves (.of_eq rfl rfl) rfl)
  | createPurchaseOrder env dto =>
      simp only [performStock, Procurement.createPurchaseOrder, bind_ok] at h
      obtain ⟨_, -, _, -, _, -, _, -, h⟩ := h
      cases pure_ok.mp h
      exact .ordinary trivial (.of_leaves (.of_eq rfl rfl) rfl)
  | movePurchaseOrder now id toStatus =>
      refine .ordinary trivial (.of_leaves (transition_leavesBatches h) (isPrepared_congr ?_))
      simp only [performStock, Procurement.transition, bind_ok] at h
      obtain ⟨po, -, _, -, _, -, movements, -, h⟩ := h
      cases pure_ok.mp h
      rfl

theorem runHook_ingredients (db : Db) (ctx : TenantContext) (k : Hook) :
    (runHook db ctx k).ingredients = db.ingredients := by
  obtain ⟨l, logs, heq⟩ := runHook_loyaltyOnly db ctx k
  rw [heq]
  rfl

/-- **The step inversion**, seen from the two levels. -/
theorem perform_levels {s s' : Server} {r : Request} (hs : BatchInv s.db) (hown : OwnTagged s.db)
    (h : perform s r = .ok s') : LevelStep s r s'.db := by
  cases r with
  | create ctx env dto =>
      obtain ⟨⟨o, db', hooks⟩, hok, h⟩ := bind_ok.mp h
      cases pure_ok.mp h
      refine .ordinary trivial ?_
      rcases (create_ok hok).2 with ⟨-, rfl, -⟩ | ⟨hins, -⟩
      · exact .refl _
      -- an order that is held draws nothing yet
      · obtain ⟨paid, moved, spent, redemptions, logs, hi, rfl⟩ := insert_ok hins
        have hmoved := hi.moved
        unfold DepletedAtPlacement at hmoved
        split at hmoved
        · refine .of_leaves ⟨rfl, moved, rfl, ?_⟩ (isPrepared_congr rfl)
          rw [List.map_eq_nil_iff.mp hmoved]
          exact List.forall_mem_nil _
        · exact sold_noBatchMade rfl rfl rfl hmoved
  | updateStatus ctx now orderId toStatus reason =>
      obtain ⟨db', hok, h⟩ := bind_ok.mp h
      cases pure_ok.mp h
      refine .ordinary trivial ?_
      obtain ⟨o, -, hcase⟩ := updateStatus_ok hok
      rcases hcase with ⟨-, rfl⟩ | ⟨-, moved, logs, hmoved, rfl⟩
      · exact .refl _
      · unfold MovedOnChange at hmoved
        split at hmoved
        next => exact sold_noBatchMade rfl rfl rfl hmoved
        next =>
          split at hmoved
          next => exact returned_noBatchMade hs hown rfl rfl rfl hmoved
          next =>
            refine .of_leaves ⟨rfl, moved, rfl, ?_⟩ (isPrepared_congr rfl)
            rw [List.map_eq_nil_iff.mp hmoved]
            exact List.forall_mem_nil _
  | recordPayment ctx env orderId dto =>
      obtain ⟨⟨o, db', hooks⟩, hok, h⟩ := bind_ok.mp h
      cases pure_ok.mp h
      refine .ordinary trivial ?_
      rcases recordPayment_ok hok with ⟨rfl, -⟩ | ⟨p, -, -, -, -, -, -, -, rfl⟩
      · exact .refl _
      · exact .of_leaves (.of_eq rfl rfl) (isPrepared_congr rfl)
  | recordRefund ctx env orderId dto =>
      obtain ⟨⟨o, db', hooks⟩, hok, h⟩ := bind_ok.mp h
      cases pure_ok.mp h
      refine .ordinary trivial ?_
      rcases recordRefund_ok hok with ⟨rfl, -⟩ | ⟨r, logs, -, -, -, -, -, -, rfl⟩
      · exact .refl _
      · exact .of_leaves (.of_eq rfl rfl) (isPrepared_congr rfl)
  | hook ctx k =>
      simp only [perform] at h
      split at h
      next =>
        cases h
        exact .ordinary trivial (.of_leaves
          (.of_eq (runHook_prepBatches ..) (runHook_movements ..))
          (isPrepared_congr (runHook_ingredients _ _ _)))
      next => cases h
  | stock ctx r =>
      obtain ⟨db', hok, h⟩ := bind_ok.mp h
      cases pure_ok.mp h
      exact performStock_levels hok

/-! ## §3. What every request keeps. -/

/-- The rows of a batch: the components, cooked, and its yield. -/
theorem batchRows_cases {r : BatchCall} {p : BatchPlan} {rows : List StockMovement}
    (hrows : storeRows (r.rows p) = .ok rows) {m : StockMovement} (hm : m ∈ rows) :
    m.prepBatchId = some r.env.newId
      ∧ ((m.type = .prepBatch ∧ ∃ c ∈ p.components, m.ingredientId = c.ingredientId)
        ∨ m.type = .prepOutput ∧ m.ingredientId = r.id) := by
  have hrow : m.toNewMovement ∈ r.rows p := storeRows_ok hrows ▸ List.mem_map_of_mem hm
  rcases List.mem_append.mp hrow with hrow | hrow
  · obtain ⟨c, hc, heq⟩ := List.mem_map.mp hrow
    rw [← heq]
    exact ⟨rfl, .inl ⟨rfl, c, hc, rfl⟩⟩
  · split at hrow
    · rw [List.mem_singleton.mp hrow]
      exact ⟨rfl, .inr ⟨rfl, rfl⟩⟩
    · cases hrow

/-- Every component a batch takes leaves a row that says so. -/
theorem batchRows_cooked {r : BatchCall} {p : BatchPlan} {rows : List StockMovement}
    (hrows : storeRows (r.rows p) = .ok rows) {c : Component} (hc : c ∈ p.components) :
    ∃ m ∈ rows, m.ingredientId = c.ingredientId ∧ CookedRow m := by
  have hrow : ∃ n ∈ r.rows p, n.ingredientId = c.ingredientId ∧ n.type = .prepBatch
      ∧ n.prepBatchId = some r.env.newId :=
    ⟨_, List.mem_append_left _ (List.mem_map_of_mem hc), rfl, rfl, rfl⟩
  obtain ⟨n, hn, hci, htype, htag⟩ := hrow
  rw [← storeRows_ok hrows] at hn
  obtain ⟨m, hm, rfl⟩ := List.mem_map.mp hn
  refine ⟨m, hm, hci, ?_, htype⟩
  rw [htag]
  exact Option.some_ne_none _

theorem LevelStep.ownTagged {s : Server} {r : Request} {db' : Db} (h : LevelStep s r db')
    (hs : BatchInv s.db) (hown : OwnTagged s.db) : OwnTagged db' := by
  cases h with
  | ordinary _ h =>
      obtain ⟨new, hmovements, hnew⟩ := h.movements
      unfold OwnTagged
      rw [hmovements, h.prepBatches]
      intro m hm htype b hb htag
      rcases List.mem_append.mp hm with hm | hm
      · exact hown m hm htype b hb htag
      · rcases hnew m hm with hnone | ⟨-, b', hb', htag', hmi⟩
        · rw [hnone] at htag
          cases htag
        · have hid : b'.id = b.id := Option.some.inj (htag'.symm.trans htag)
          rw [List.inj_on_of_nodup_map hs.ids hb hb' hid.symm]
          exact hmi
  | edited c => exact hown
  | @cooked r p y rows _ hkey hmade =>
      rw [hmade.publish]
      intro m hm htype b hb htag
      rcases List.mem_append.mp hm with hm | hm
      · rcases List.mem_append.mp hb with hb | hb
        · exact hown m hm htype b hb htag
        · -- no row is of a batch before there is one
          obtain rfl := List.mem_singleton.mp hb
          obtain ⟨x, hx, hxid⟩ := hs.known m hm _ htag
          exact absurd hxid (hmade.fresh x hx)
      · obtain ⟨htag', hrow⟩ := batchRows_cases hmade.stored hm
        have hid : b.id = r.env.newId := Option.some.inj (htag.symm.trans htag')
        rcases List.mem_append.mp hb with hb | hb
        · exact absurd hid (hmade.fresh b hb)
        · obtain rfl := List.mem_singleton.mp hb
          rcases hrow with ⟨hcooked, -⟩ | ⟨-, hmi⟩
          · exact absurd hcooked htype
          · exact hmi

theorem kitchen_ownTagged {s : Server} (h : kitchen.Reachable s) : OwnTagged s.db := by
  induction h with
  | init h0 =>
      intro m hm _ b hb
      rw [h0.2.1] at hb
      cases hb
  | step hc hstep ih =>
      have hs := kitchen_batchInv hc
      exact (perform_levels hs ih hstep).ownTagged hs ih

/-! ## §4. Every run. -/

/-- An ingredient is prepared from the day it is added, or never. -/
def KindsFixed (s : Server) : Request → Prop
  | .stock _ (.catalogue c) => ∀ i, isPrepared (withCatalogue s.db c) i = true →
      isPrepared s.db i = true ∨ ∀ m ∈ s.db.movements, m.ingredientId ≠ i
  | _ => True

/-- One request after the other, with the catalogue as its screens leave it. -/
def prepKitchen : System Server Request := kitchen.restrict KindsFixed

/-- What a batch is cooked from, as the request says and as its plan does. -/
theorem takesPrepared_eq {s : Server} {r : BatchCall} {db' : Db} {p : BatchPlan} {y : ℤ}
    {rows : List StockMovement} (h : Publishes s.db r db' p y rows) :
    takesPrepared s.db r.id r.dto = p.components.any fun c => isPrepared s.db c.ingredientId := by
  unfold takesPrepared
  rw [h.item, ok_bind, h.components]

theorem levels_step {s s' : Server} {r : Request} (hs : BatchInv s.db) (hown : OwnTagged s.db)
    (hlevels : LevelsAgree s.db) (hkinds : KindsFixed s r) (h : perform s r = .ok s') :
    LevelsAgree s'.db ↔ CooksRaw s r := by
  have hstep := perform_levels hs hown h
  have hs' : BatchInv s'.db := (perform_batchEffect h).batchInv hs
  have hnothing := (levelsAgree_iff hs hown).mp hlevels
  -- the levels agree iff no row of a prepared ingredient was cooked into a batch
  rw [levelsAgree_iff hs' (hstep.ownTagged hs hown)]
  generalize s'.db = db' at hstep
  cases hstep with
  | ordinary hraw h =>
      refine iff_of_true ?_ hraw
      obtain ⟨new, hmovements, hnew⟩ := h.movements
      rw [h.kinds, hmovements]
      intro i hi m hm hmi
      rcases List.mem_append.mp hm with hm | hm
      · exact hnothing i hi m hm hmi
      · rintro ⟨htag, htype⟩
        rcases hnew m hm with hnone | ⟨hnot, -⟩
        · exact htag hnone
        · exact hnot htype
  | edited c =>
      refine iff_of_true ?_ trivial
      intro i hi m hm hmi
      -- an ingredient that only now is prepared has no rows
      rcases hkinds i hi with hbefore | hunused
      · exact hnothing i hbefore m hm hmi
      · exact absurd hmi (hunused m hm)
  | @cooked r p y rows _ hkey hmade =>
      have hraw : CooksRaw s (.stock r.ctx (.createBatch r.env r.codes r.id r.dto))
          ↔ takesPrepared s.db r.id r.dto = false := by
        show ((findBatchByKey s.db r.dto.idempotencyKey).isNone = true → _) ↔ _
        rw [hkey]
        exact ⟨fun h => h rfl, fun h _ => h⟩
      rw [hraw, takesPrepared_eq hmade, hmade.publish, List.any_eq_false]
      constructor
      · intro h c hc hprep
        obtain ⟨m, hm, hmi, hcooked⟩ := batchRows_cooked hmade.stored hc
        exact h c.ingredientId hprep m (List.mem_append_right _ hm) hmi hcooked
      · intro h i hi m hm hmi
        rcases List.mem_append.mp hm with hm | hm
        · exact hnothing i hi m hm hmi
        · rintro ⟨-, htype⟩
          obtain ⟨-, ⟨-, c, hc, hci⟩ | ⟨hyield, -⟩⟩ := batchRows_cases hmade.stored hm
          · refine h c hc ?_
            rw [← hci, hmi]
            exact hi
          · rw [hyield] at htype
            cases htype

/-- **The two stock levels agree** while batches are cooked from raw ingredients only, and
the first that takes a prepared one parts them. -/
theorem stock_levels_agree {s : Server} (h : (prepKitchen.restrict CooksRaw).Reachable s) :
    LevelsAgree s.db
      ∧ ∀ r s', prepKitchen.step s r s' → (LevelsAgree s'.db ↔ CooksRaw s r) := by
  have hkitchen : ∀ {s}, (prepKitchen.restrict CooksRaw).Reachable s → kitchen.Reachable s :=
    fun hr => System.restrict_reachable (System.restrict_reachable hr)
  have hlevels : LevelsAgree s.db := by
    induction h with
    | init h0 =>
        have hinit := System.Reachable.init (M := kitchen) h0
        refine (levelsAgree_iff (kitchen_batchInv hinit) (kitchen_ownTagged hinit)).mpr ?_
        intro i _ m hm _ hcooked
        exact hcooked.1 (h0.2.2 m hm)
    | step hc hs ih =>
        exact (levels_step (kitchen_batchInv (hkitchen hc)) (kitchen_ownTagged (hkitchen hc)) ih
          hs.2.1 hs.2.2).mpr hs.1
  refine ⟨hlevels, ?_⟩
  intro r s' hstep
  exact levels_step (kitchen_batchInv (hkitchen h)) (kitchen_ownTagged (hkitchen h)) hlevels
    hstep.1 hstep.2

/-- The requests that leave the catalogue alone. -/
def leavesCatalogue : Request → Bool
  | .stock _ (.catalogue _) => false
  | _ => true

/-- Serves what leaves the catalogue alone. -/
def serveKitchen (s : Server) (r : Request) : Option Server :=
  if leavesCatalogue r then serve s r else none

theorem serveKitchen_step {s s' : Server} {r : Request} (h : serveKitchen s r = some s') :
    prepKitchen.step s r s' := by
  unfold serveKitchen at h
  split at h
  next hr =>
    refine ⟨?_, serve_step h⟩
    cases r with
    | stock ctx q =>
        cases q with
        | catalogue c => cases hr
        | _ => exact trivial
    | _ => exact trivial
  next => cases h

theorem curdDay_cooksRaw : (System.replay (System.guarded CooksRaw serveKitchen) curdDay
    curdKitchen).isSome = true := by decide +kernel

theorem stock_levels_agree_curd : ∃ s, (prepKitchen.restrict CooksRaw).Reachable s
    ∧ s.db.prepBatches ≠ [] ∧ LevelsAgree s.db := by
  have hreach := System.replay_restricted (M := prepKitchen) (C := CooksRaw)
    (fun _ _ _ => serveKitchen_step) curdDay curdKitchen curdKitchen_init
    (Option.some_get curdDay_cooksRaw).symm
  exact ⟨_, hreach, by decide +kernel, (stock_levels_agree hreach).1⟩

/-- Raita is made from curd, and curd from milk. -/
def raitaKitchen : Server :=
  ⟨{ curdKitchen.db with
      ingredients := curdKitchen.db.ingredients
        ++ [⟨9, "Raita", none, true, true, some 500, none⟩]
      prepRecipeItems := curdKitchen.db.prepRecipeItems ++ [⟨9, 4, 500, by decide, by decide⟩] },
    []⟩

def raitaDay : List Request :=
  [.stock cashier (.createBatch ⟨30, 0⟩ ["B-1"] 4
      ⟨500, none, none, none, none, fiveHundred_within, absent_within⟩),
    .stock cashier (.createBatch ⟨31, 0⟩ ["B-2"] 9
      ⟨500, none, none, none, none, fiveHundred_within, absent_within⟩)]

theorem raitaKitchen_init : kitchen.init raitaKitchen :=
  ⟨⟨rfl, rfl, rfl, rfl, curdKitchen_init.1.movements, List.forall_mem_nil _, rfl⟩, rfl,
    curdKitchen_init.2.2⟩

theorem raitaDay_runs : (System.replay serveKitchen raitaDay raitaKitchen).isSome = true := by
  decide +kernel

/-- All the curd is in the raita, and its batch still shows all of it. -/
theorem stock_levels_part : ∃ s, prepKitchen.Reachable s ∧ isPrepared s.db 4 = true
    ∧ stockOf s.db.movements 4 = 0 ∧ ownRemaining s.db 4 = 500 ∧ ¬ LevelsAgree s.db := by
  have hreach := System.replay_reachable (M := prepKitchen) (fun _ _ _ => serveKitchen_step)
    raitaDay raitaKitchen raitaKitchen_init (Option.some_get raitaDay_runs).symm
  refine ⟨_, hreach, by decide +kernel, by decide +kernel, by decide +kernel, ?_⟩
  intro hlevels
  have hsums := hlevels.sums 4 (by decide +kernel)
  revert hsums
  decide +kernel

end OraOS.Orders
