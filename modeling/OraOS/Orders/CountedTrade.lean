/-
  OraOS.Orders.CountedTrade — a stock count taken while the kitchen is trading.

  A line is counted at one moment and the live stock is read at a later one.  A
  trade moves the shelf and the ledger together, a loss moves the shelf alone, and
  the submit sets what was counted against the stock it reads.

    * `submitStockCount_eq` — a submit is its read, then its write;
    * `CountInv`            — what every step keeps: the shelf as the count, the
                              ledger since, and the losses since give it;
    * `count_right_iff`     — the ADJUSTMENT is the gap found at the shelf exactly
                              when the trade between counting and reading comes to
                              nothing.
-/
import OraOS.Orders.BatchEffect

namespace OraOS.Orders

open OraOS.Api
open OraOS.Lib
open OraOS.Inventory

/-! ## §1. A submit in two statements. -/

/-- `submit` on an open count, up to what it makes of the live stock. -/
def readCount (db : Db) (count : StockCount) (dto : SubmitStockCountDto) :
    Except ApiError (List CountAdjustment) := do
  require (count.status = .open) (.conflict "This count can no longer be submitted")
  checkLines (count.lines.map (·.ingredientId)) dto.lines []
  let adjustments := reconcileCount dto.lines (stockOf db.movements)
  let missing := missingReasons adjustments
  require (missing = [])
    (.badRequest ("A reason is required where stock changed: " ++ ", ".intercalate
      ((db.ingredients.filter fun i => missing.contains i.id).map (·.name))))
  pure adjustments

/-- The rows that `submit` then writes. -/
def writeCount (db : Db) (ctx : TenantContext) (now : Instant) (id : Uuid) (count : StockCount)
    (adjustments : List CountAdjustment) (notes : Option String) : Except ApiError Db := do
  let movements ← createMany db.movements (adjustmentRows ctx count.code adjustments)
  require (∀ a ∈ adjustments, fitsInt4 a.difference = true) .outOfRange
  let db : Db := { db with
    movements
    stockCounts := replaceCount db.stockCounts (completeCount count ctx now adjustments notes) }
  pure (db.record ctx id (.stockCountCompleted count.code adjustments.length
    (adjustments.filter fun a => a.difference ≠ 0).length))

/-- **Uninterrupted, the two are the submit.** -/
theorem submitStockCount_eq (db : Db) (ctx : TenantContext) (now : Instant) (id : Uuid)
    (dto : SubmitStockCountDto) :
    submitStockCount db ctx now id dto = (do
      let count ← found (db.stockCounts.find? fun c => c.id = id)
        (.notFound "Stock count not found")
      if count.status = .completed then pure db
      else do
        let adjustments ← readCount db count dto
        writeCount db ctx now id count adjustments dto.notes) := by
  unfold submitStockCount readCount writeCount
  simp only [bind_assoc, pure_bind]

/-- No ingredient was counted on two lines. -/
theorem checkLines_ok {counted : List Uuid} {lines : List SubmitLine} :
    ∀ {seen : List Uuid}, checkLines counted lines seen = .ok () →
      (lines.map (·.ingredientId)).Nodup ∧ ∀ l ∈ lines, l.ingredientId ∉ seen := by
  -- the lines still to check, against whatever was seen before them
  induction lines with
  | nil => exact fun _ => ⟨List.nodup_nil, List.forall_mem_nil _⟩
  | cons l lines ih =>
      intro seen h
      simp only [checkLines, bind_ok, require_ok] at h
      obtain ⟨_, -, _, hl, h⟩ := h
      obtain ⟨hnd, hrest⟩ := ih h
      constructor
      · rw [List.map_cons, List.nodup_cons]
        refine ⟨?_, hnd⟩
        intro hmem
        obtain ⟨l', hl', heq⟩ := List.mem_map.mp hmem
        exact hrest l' hl' (heq ▸ List.mem_cons_self)
      · intro l' hl'
        rcases List.mem_cons.mp hl' with rfl | hl'
        · exact hl
        · exact fun hseen => hrest l' hl' (List.mem_cons_of_mem _ hseen)

/-- **The corrections are against the stock of the moment they are read.** -/
theorem readCount_ok {db : Db} {count : StockCount} {dto : SubmitStockCountDto}
    {adjustments : List CountAdjustment} (h : readCount db count dto = .ok adjustments) :
    (dto.lines.map (·.ingredientId)).Nodup
      ∧ adjustments = reconcileCount dto.lines (stockOf db.movements) := by
  simp only [readCount, bind_ok] at h
  obtain ⟨_, -, _, hlines, _, -, h⟩ := h
  exact ⟨(checkLines_ok hlines).1, (pure_ok.mp h).symm⟩

/-- Each correction is a movement. -/
theorem writeCount_ok {db db' : Db} {ctx : TenantContext} {now : Instant} {id : Uuid}
    {count : StockCount} {adjustments : List CountAdjustment} {notes : Option String}
    (h : writeCount db ctx now id count adjustments notes = .ok db') :
    ∃ rows : List StockMovement, db'.movements = db.movements ++ rows
      ∧ rows.map (·.toNewMovement) = adjustmentRows ctx count.code adjustments := by
  simp only [writeCount, bind_ok] at h
  obtain ⟨movements, hrows, _, -, h⟩ := h
  cases pure_ok.mp h
  obtain ⟨rows, hmap, rfl⟩ := createMany_ok hrows
  exact ⟨rows, rfl, hmap⟩

/-- **What a submit writes for a line** is what was counted less the stock it
read, spread over no row or one. -/
theorem adjustments_at {lines : List SubmitLine} {live : Uuid → ℤ} {ctx : TenantContext}
    {code : String} {rows : List StockMovement}
    (hnd : (lines.map (·.ingredientId)).Nodup)
    (hrows : rows.map (·.toNewMovement) = adjustmentRows ctx code (reconcileCount lines live))
    {l : SubmitLine} (hl : l ∈ lines) :
    stockOf rows l.ingredientId = l.countedQuantity - live l.ingredientId := by
  have hone := sumWhere_at_key (fun x : SubmitLine => x.ingredientId) (fun _ => true)
    (fun x => x.countedQuantity - live x.ingredientId) hnd hl
  rw [if_pos rfl] at hone
  unfold stockOf
  rw [ledgerSum_rows hrows, adjustmentRows, sumWhere_map]
  refine (sumWhere_filter_ne_zero (fun a : CountAdjustment =>
    decide (a.ingredientId = l.ingredientId)) (·.difference) _).trans ?_
  rw [reconcileCount, sumWhere_map, ← hone]
  exact sumWhere_congr (fun x _ => (Bool.and_true _).symm) fun _ _ _ => rfl

/-! ## §2. The shop during a count. -/

/-- One line as it was counted. -/
structure Counting where
  quantity : ℤ
  /-- The ledger at that moment. -/
  ledger : List StockMovement
  /-- What has left the shelf since without a movement. -/
  lost : ℤ

/-- The unexplained gap at the moment the line was counted. -/
def Counting.gap (c : Counting) (ingredientId : Uuid) : ℤ :=
  c.quantity - stockOf c.ledger ingredientId

/-- What a submit has in hand once it has read the live stock. -/
structure SubmitTx where
  ctx : TenantContext
  now : Instant
  dto : SubmitStockCountDto
  count : StockCount
  adjustments : List CountAdjustment
  /-- The ledger it read. -/
  live : List StockMovement

/-- What was traded between counting a line and the submit's read. -/
def SubmitTx.tradedSince (tx : SubmitTx) (c : Counting) (ingredientId : Uuid) : ℤ :=
  stockOf (tx.live.drop c.ledger.length) ingredientId

/-- Where a count stands. -/
inductive CountPhase where
  | counting
  /-- the live stock is read and the count row locked -/
  | read (tx : SubmitTx)
  /-- committed, with the movements it wrote -/
  | done (tx : SubmitTx) (written : List StockMovement)

/-- The tables, the shelf, and a count that walks along it. -/
structure Shop where
  server : Server
  /-- What is really on the shelf. -/
  physical : Uuid → ℤ
  counted : Uuid → Option Counting
  phase : CountPhase

/-- What happens in the shop while a count is going on. -/
inductive ShopEvent where
  | trade (r : Request)
  | lose (ingredientId : Uuid) (quantity : ℕ)
  | countLine (ingredientId : Uuid)
  | read (ctx : TenantContext) (now : Instant) (dto : SubmitStockCountDto)
  | write
  | abort

/-- Requests that correct the ledger without moving the shelf are no trade, and
`cancel` waits for the lock on the count's row. -/
def CountPhase.admits (phase : CountPhase) : Request → Bool
  | .stock _ (.recordAdjustment _ _) => false
  | .stock _ (.submitStockCount _ _ _) => false
  | .stock _ (.cancelStockCount id) =>
      match phase with
      | .read tx => decide (id ≠ tx.count.id)
      | _ => true
  | _ => true

/-- The ingredient is on the open count. -/
def onOpenCount (db : Db) (countId ingredientId : Uuid) : Bool :=
  db.stockCounts.any fun c => decide (c.id = countId) && decide (c.status = .open)
    && c.lines.any fun l => decide (l.ingredientId = ingredientId)

/-- What one event does, where it can happen. -/
def Shop.step (countId : Uuid) (s : Shop) : ShopEvent → Option Shop
  | .trade r =>
      if s.phase.admits r then
        match perform s.server r with
        | .ok server =>
            some { s with
              server
              physical := fun i => s.physical i
                + (stockOf server.db.movements i - stockOf s.server.db.movements i) }
        | .error _ => none
      else none
  | .lose i quantity =>
      some { s with
        physical := Function.update s.physical i (s.physical i - quantity)
        counted := Function.update s.counted i
          ((s.counted i).map fun c => { c with lost := c.lost + quantity }) }
  | .countLine i =>
      match s.phase with
      | .counting =>
          if onOpenCount s.server.db countId i then
            some { s with
              counted := Function.update s.counted i
                (some ⟨s.physical i, s.server.db.movements, 0⟩) }
          else none
      | _ => none
  | .read ctx now dto =>
      match s.phase, s.server.db.stockCounts.find? fun c => c.id = countId with
      | .counting, some count =>
          -- the screen sends the quantities that were counted
          if ∀ l ∈ dto.lines,
              (s.counted l.ingredientId).map (·.quantity) = some l.countedQuantity then
            match readCount s.server.db count dto with
            | .ok adjustments =>
                some { s with
                  phase := .read ⟨ctx, now, dto, count, adjustments, s.server.db.movements⟩ }
            | .error _ => none
          else none
      | _, _ => none
  | .write =>
      match s.phase with
      | .read tx =>
          match writeCount s.server.db tx.ctx tx.now countId tx.count tx.adjustments
              tx.dto.notes with
          | .ok db =>
              some { s with
                server := ⟨db, s.server.pending⟩
                phase := .done tx (db.movements.drop s.server.db.movements.length) }
          | .error _ => none
      | _ => none
  | .abort =>
      match s.phase with
      | .read _ => some { s with phase := .counting }
      | _ => none

/-- Any shop to begin with, nothing counted yet. -/
def countedTrade (countId : Uuid) : System Shop ShopEvent where
  init s := s.counted = (fun _ => none) ∧ s.phase = .counting
  step s e s' := Shop.step countId s e = some s'

/-! ## §3. What every step keeps. -/

/-- What the count itself has put into the ledger. -/
def CountPhase.written : CountPhase → List StockMovement
  | .done _ rows => rows
  | _ => []

/-- The submit holds what was counted, against the ledger it read. -/
structure Submitting (s : Shop) (tx : SubmitTx) : Prop where
  nodup : (tx.dto.lines.map (·.ingredientId)).Nodup
  adjustments : tx.adjustments = reconcileCount tx.dto.lines (stockOf tx.live)
  counted : ∀ l ∈ tx.dto.lines, ∃ c, s.counted l.ingredientId = some c
    ∧ c.quantity = l.countedQuantity ∧ c.ledger <+: tx.live

/-- **The invariant of a count under trade.** -/
structure CountInv (s : Shop) : Prop where
  ledger : ∀ {i c}, s.counted i = some c → c.ledger <+: s.server.db.movements
  /-- counted, plus what the ledger gained other than from the count, less the losses -/
  shelf : ∀ {i c}, s.counted i = some c →
    s.physical i = c.quantity + (stockOf s.server.db.movements i - stockOf c.ledger i
      - stockOf s.phase.written i) - c.lost
  read : ∀ {tx}, s.phase = .read tx → Submitting s tx
  done : ∀ {tx rows}, s.phase = .done tx rows → Submitting s tx
    ∧ ∀ l ∈ tx.dto.lines,
      stockOf rows l.ingredientId = l.countedQuantity - stockOf tx.live l.ingredientId

theorem stockOf_append (l l' : List StockMovement) (i : Uuid) :
    stockOf (l ++ l') i = stockOf l i + stockOf l' i :=
  ledgerSum_append _ l l'

/-- **The ledger only grows**, whatever the request. -/
theorem perform_appends {s s' : Server} {r : Request} (h : perform s r = .ok s') :
    s.db.movements <+: s'.db.movements := by
  cases perform_batchEffect h with
  | still h =>
      obtain ⟨-, new, hnew, -⟩ := h
      exact ⟨new, hnew.symm⟩
  | sold hbatches hmovements hnew => exact ⟨_, hmovements.symm⟩
  | returned hbatches hmovements hnew => exact ⟨_, hmovements.symm⟩
  | prepared hfresh hbatches hmovements hnew => exact ⟨_, hmovements.symm⟩
  | wasted hb hbatches hmovements hbatch htype horder hle => exact ⟨_, hmovements.symm⟩

/-- A step that keeps the phase and what was counted keeps what a submit holds. -/
theorem Submitting.of_counted {s s' : Shop} {tx : SubmitTx} (h : Submitting s tx)
    (hc : ∀ {i c}, s.counted i = some c → ∃ c', s'.counted i = some c'
      ∧ c'.quantity = c.quantity ∧ c'.ledger = c.ledger) : Submitting s' tx := by
  refine ⟨h.nodup, h.adjustments, ?_⟩
  intro l hl
  obtain ⟨c, hcount, hq, hpre⟩ := h.counted l hl
  obtain ⟨c', hcount', hq', hl'⟩ := hc hcount
  exact ⟨c', hcount', hq'.trans hq, hl' ▸ hpre⟩

/-- A request moves the shelf as it moves the stock. -/
theorem trade_inv {s s' : Shop} {countId : Uuid} {r : Request} (hs : CountInv s)
    (h : Shop.step countId s (.trade r) = some s') : CountInv s' := by
  simp only [Shop.step] at h
  split at h
  next =>
    split at h
    next server hok =>
      cases h
      have hgrow := perform_appends hok
      refine ⟨fun hc => (hs.ledger hc).trans hgrow, ?_, fun hp => ?_, fun hp => ?_⟩
      · intro i c hc
        have hshelf := hs.shelf hc
        simp only at hshelf ⊢
        omega
      · exact (hs.read hp).of_counted fun hc => ⟨_, hc, rfl, rfl⟩
      · exact ⟨(hs.done hp).1.of_counted fun hc => ⟨_, hc, rfl, rfl⟩, (hs.done hp).2⟩
    next => cases h
  next => cases h

/-- What is lost moves the shelf alone. -/
theorem lose_inv {s s' : Shop} {countId i : Uuid} {quantity : ℕ} (hs : CountInv s)
    (h : Shop.step countId s (.lose i quantity) = some s') : CountInv s' := by
  cases h
  -- a line counted before is still counted, with the loss noted
  have hback : ∀ {j c}, Function.update s.counted i
      ((s.counted i).map fun c => { c with lost := c.lost + quantity }) j = some c →
      ∃ c₀, s.counted j = some c₀ ∧ c.quantity = c₀.quantity ∧ c.ledger = c₀.ledger
        ∧ c.lost = c₀.lost + if j = i then (quantity : ℤ) else 0 := by
    intro j c hc
    by_cases hj : j = i
    · subst hj
      rw [Function.update_self, Option.map_eq_some_iff] at hc
      obtain ⟨c₀, hc₀, rfl⟩ := hc
      exact ⟨c₀, hc₀, rfl, rfl, by rw [if_pos rfl]⟩
    · rw [Function.update_of_ne hj] at hc
      exact ⟨c, hc, rfl, rfl, by rw [if_neg hj, add_zero]⟩
  have hforth : ∀ {j c}, s.counted j = some c → ∃ c', Function.update s.counted i
      ((s.counted i).map fun c => { c with lost := c.lost + quantity }) j = some c'
      ∧ c'.quantity = c.quantity ∧ c'.ledger = c.ledger := by
    intro j c hc
    by_cases hj : j = i
    · subst hj
      rw [Function.update_self, hc]
      exact ⟨_, rfl, rfl, rfl⟩
    · rw [Function.update_of_ne hj]
      exact ⟨c, hc, rfl, rfl⟩
  refine ⟨?_, ?_, fun hp => ?_, fun hp => ?_⟩
  · intro j c hc
    obtain ⟨c₀, hc₀, -, hl, -⟩ := hback hc
    exact hl ▸ hs.ledger hc₀
  · intro j c hc
    obtain ⟨c₀, hc₀, hq, hl, hlost⟩ := hback hc
    have hshelf := hs.shelf hc₀
    simp only [hq, hl, hlost]
    by_cases hj : j = i
    · subst hj
      rw [Function.update_self, if_pos rfl]
      omega
    · rw [Function.update_of_ne hj, if_neg hj]
      omega
  · exact (hs.read hp).of_counted hforth
  · exact ⟨(hs.done hp).1.of_counted hforth, (hs.done hp).2⟩

/-- Counting a line looks at the shelf. -/
theorem countLine_inv {s s' : Shop} {countId i : Uuid} (hs : CountInv s)
    (h : Shop.step countId s (.countLine i) = some s') : CountInv s' := by
  simp only [Shop.step] at h
  split at h
  next hphase =>
    split at h
    next =>
      cases h
      have hback : ∀ {j c}, Function.update s.counted i
          (some ⟨s.physical i, s.server.db.movements, 0⟩) j = some c →
          (j = i ∧ c = ⟨s.physical i, s.server.db.movements, 0⟩) ∨ s.counted j = some c := by
        intro j c hc
        by_cases hj : j = i
        · subst hj
          rw [Function.update_self] at hc
          exact .inl ⟨rfl, (Option.some.inj hc).symm⟩
        · rw [Function.update_of_ne hj] at hc
          exact .inr hc
      refine ⟨?_, ?_, fun hp => ?_, fun hp => ?_⟩
      · intro j c hc
        rcases hback hc with ⟨rfl, rfl⟩ | hc
        · exact List.prefix_rfl
        · exact hs.ledger hc
      · intro j c hc
        rcases hback hc with ⟨rfl, rfl⟩ | hc
        · -- just counted: nothing traded, nothing written, nothing lost since
          simp [hphase, CountPhase.written, stockOf]
        · exact hs.shelf hc
      · rw [hphase] at hp
        cases hp
      · rw [hphase] at hp
        cases hp
    next => cases h
  next => cases h

/-- The submit reads the stock. -/
theorem read_inv {s s' : Shop} {countId : Uuid} {ctx : TenantContext} {now : Instant}
    {dto : SubmitStockCountDto} (hs : CountInv s)
    (h : Shop.step countId s (.read ctx now dto) = some s') : CountInv s' := by
  simp only [Shop.step] at h
  split at h
  next count hphase _ =>
    split at h
    next hsent =>
      split at h
      -- the stock is the ledger of this moment, from which the corrections are made
      next adjustments hread =>
        cases h
        obtain ⟨hnd, hadj⟩ := readCount_ok hread
        refine ⟨hs.ledger, ?_, fun hp => ?_, nofun⟩
        · intro i c hc
          have hshelf := hs.shelf hc
          rw [hphase] at hshelf
          exact hshelf
        · cases hp
          refine ⟨hnd, hadj, ?_⟩
          intro l hl
          obtain ⟨c, hc, hq⟩ := Option.map_eq_some_iff.mp (hsent l hl)
          exact ⟨c, hc, hq, hs.ledger hc⟩
      next => cases h
    next => cases h
  next => cases h

/-- **The submit writes the corrections of what it read.** -/
theorem write_inv {s s' : Shop} {countId : Uuid} (hs : CountInv s)
    (h : Shop.step countId s .write = some s') : CountInv s' := by
  simp only [Shop.step] at h
  split at h
  next tx hphase =>
    split at h
    next db hwrite =>
      cases h
      obtain ⟨rows, hmovements, hrows⟩ := writeCount_ok hwrite
      have htx := hs.read hphase
      have hwritten : db.movements.drop s.server.db.movements.length = rows := by
        rw [hmovements, List.drop_left]
      rw [htx.adjustments] at hrows
      refine ⟨?_, ?_, nofun, fun hp => ?_⟩
      · intro i c hc
        exact (hs.ledger hc).trans ⟨rows, hmovements.symm⟩
      · intro i c hc
        have hshelf := hs.shelf hc
        rw [hphase] at hshelf
        -- the books move by the rows written, which are set off in the gap
        show s.physical i = c.quantity + (stockOf db.movements i - stockOf c.ledger i
          - stockOf (db.movements.drop s.server.db.movements.length) i) - c.lost
        rw [hwritten, hmovements, stockOf_append, hshelf]
        show _ + (_ - _ - 0) - _ = _
        omega
      · rw [hwritten] at hp
        cases hp
        exact ⟨htx.of_counted fun hc => ⟨_, hc, rfl, rfl⟩,
          fun l hl => adjustments_at htx.nodup hrows hl⟩
    next => cases h
  next => cases h

/-- A submit that fails writes nothing. -/
theorem abort_inv {s s' : Shop} {countId : Uuid} (hs : CountInv s)
    (h : Shop.step countId s .abort = some s') : CountInv s' := by
  simp only [Shop.step] at h
  split at h
  next tx hphase =>
    cases h
    refine ⟨hs.ledger, ?_, nofun, nofun⟩
    intro i c hc
    have hshelf := hs.shelf hc
    rw [hphase] at hshelf
    exact hshelf
  next => cases h

/-- **In every shop the books and the shelf differ by what was lost, less what was
corrected.** -/
theorem countedTrade_inv {countId : Uuid} {s : Shop} (h : (countedTrade countId).Reachable s) :
    CountInv s := by
  refine h.invariant CountInv ?_ ?_
  · intro s ⟨hnone, hphase⟩
    refine ⟨fun hc => ?_, fun hc => ?_, fun hp => ?_, fun hp => ?_⟩
    · rw [hnone] at hc
      cases hc
    · rw [hnone] at hc
      cases hc
    · rw [hphase] at hp
      cases hp
    · rw [hphase] at hp
      cases hp
  · intro s e s' hs hstep
    cases e with
    | trade r => exact trade_inv hs hstep
    | lose i quantity => exact lose_inv hs hstep
    | countLine i => exact countLine_inv hs hstep
    | read ctx now dto => exact read_inv hs hstep
    | write => exact write_inv hs hstep
    | abort => exact abort_inv hs hstep

/-! ## §4. When the adjustment is the gap. -/

/-- The adjustment of a line is the gap found when it was counted, so that without
a later loss the ledger is what is on the shelf. -/
def CountRight (s : Shop) (written : List StockMovement) (c : Counting) (i : Uuid) : Prop :=
  stockOf written i = c.gap i
    ∧ (c.lost = 0 → stockOf s.server.db.movements i = s.physical i)

instance (s : Shop) (written : List StockMovement) (c : Counting) (i : Uuid) :
    Decidable (CountRight s written c i) := by
  unfold CountRight
  infer_instance

/-- **A count under trade**: in every run, a submitted line is adjusted by its gap
exactly when what was traded in it between counting it and reading the live stock
comes to nothing. -/
theorem count_right_iff {countId : Uuid} {s : Shop} (h : (countedTrade countId).Reachable s)
    {tx : SubmitTx} {written : List StockMovement} (hdone : s.phase = .done tx written)
    {l : SubmitLine} (hl : l ∈ tx.dto.lines) :
    ∃ c, s.counted l.ingredientId = some c ∧
      (CountRight s written c l.ingredientId ↔ tx.tradedSince c l.ingredientId = 0) := by
  have hinv := countedTrade_inv h
  obtain ⟨htx, hrows⟩ := hinv.done hdone
  obtain ⟨c, hc, hq, between, hlive⟩ := htx.counted l hl
  refine ⟨c, hc, ?_⟩
  have hshelf := hinv.shelf hc
  have hrow := hrows l hl
  rw [hdone] at hshelf
  change s.physical l.ingredientId = c.quantity + (stockOf s.server.db.movements l.ingredientId
    - stockOf c.ledger l.ingredientId - stockOf written l.ingredientId) - c.lost at hshelf
  unfold CountRight Counting.gap SubmitTx.tradedSince
  rw [← hlive, List.drop_left]
  rw [← hlive, stockOf_append] at hrow
  -- both sides are linear in what was traded and lost between count and submit
  constructor
  · intro hright
    have hgap := hright.1
    omega
  · intro hnone
    constructor
    · omega
    · intro hlost
      omega

/-- 5000 of curd bought and on the shelf. -/
def stockedBar : Shop where
  server := ⟨{ lassiBar with
    movements := [⟨⟨4, .purchase, 5000, none, none, none, none, none, none, none⟩,
      ⟨rfl, nofun, nofun, rfl, by decide⟩⟩] }, []⟩
  physical := fun i => if i = 4 then 5000 else 0
  counted := fun _ => none
  phase := .counting

/-- The curd as it was counted. -/
def curdCounted (quantity : ℤ) (hq : 0 ≤ quantity ∧ quantity ≤ maxQty) : SubmitStockCountDto :=
  ⟨[⟨4, quantity, some .other, hq⟩], none⟩

/-- One lassi over the counter. -/
def sellLassi : ShopEvent := .trade (.create cashier ⟨20, 0⟩ (lassiOrder none none none))

/-- A sheet with every ingredient. -/
def openCount : ShopEvent :=
  .trade (.stock cashier (.startStockCount ⟨40, 0⟩ ["C-1"] ⟨none, false, none⟩))

/-- The curd is counted, a lassi is sold, the count is submitted. -/
def soldAfterCounting : List ShopEvent :=
  [openCount, .countLine 4, sellLassi, .read cashier 1 (curdCounted 5000 (by decide)), .write]

/-- Some curd is spilt and a lassi sold, then the curd is counted. -/
def soldBeforeCounting : List ShopEvent :=
  [openCount, .lose 4 50, sellLassi, .countLine 4,
    .read cashier 1 (curdCounted 4800 (by decide)), .write]

/-- What the events leave of the bar. -/
def shopAfter (es : List ShopEvent) : Shop :=
  (System.replay (Shop.step 40) es stockedBar).getD stockedBar

theorem shopAfter_reachable {es : List ShopEvent}
    (h : (System.replay (Shop.step 40) es stockedBar).isSome = true) :
    (countedTrade 40).Reachable (shopAfter es) := by
  refine System.replay_reachable (M := countedTrade 40) (fun _ _ _ hs => hs) es stockedBar
    ⟨rfl, rfl⟩ ?_
  obtain ⟨t, ht⟩ := Option.isSome_iff_exists.mp h
  unfold shopAfter
  rw [ht]
  rfl

/-- The spilt curd is what the count finds; the sale before it is in both. -/
theorem count_right_iff_curd :
    ∃ tx written, (shopAfter soldBeforeCounting).phase = .done tx written
      ∧ ∃ l ∈ tx.dto.lines, ∃ c, (shopAfter soldBeforeCounting).counted l.ingredientId = some c
        ∧ (CountRight (shopAfter soldBeforeCounting) written c l.ingredientId
          ↔ tx.tradedSince c l.ingredientId = 0) :=
  ⟨_, _, rfl, _, List.mem_singleton_self _,
    count_right_iff (shopAfter_reachable (by decide +kernel)) rfl (List.mem_singleton_self _)⟩

/-- The shelf held what the ledger said when it was counted, nothing was lost, and
the submit writes 150 of curd that is not there. -/
theorem sold_after_counting :
    ∃ s, (countedTrade 40).Reachable s ∧ ∃ tx written, s.phase = .done tx written
      ∧ ∃ l ∈ tx.dto.lines, ∃ c, s.counted l.ingredientId = some c ∧ c.lost = 0
        ∧ c.gap l.ingredientId = 0 ∧ stockOf written l.ingredientId = 150
        ∧ ¬ CountRight s written c l.ingredientId :=
  ⟨shopAfter soldAfterCounting, shopAfter_reachable (by decide +kernel), _, _, rfl, _,
    List.mem_singleton_self _, _, rfl, rfl, by decide +kernel, by decide +kernel,
    by decide +kernel⟩

end OraOS.Orders
