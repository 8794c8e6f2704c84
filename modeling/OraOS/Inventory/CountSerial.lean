/-
  OraOS.Inventory.CountSerial — submits of different counts against each other.

  The lock of a submit is its count's row.  Two counts that share an ingredient read its
  stock under two locks, and each writes the difference to the same stock.

    * `counts_serialise` — while the stock a submit has read is still the stock when it
                           commits, the commits are a serial run, and the last count of
                           an ingredient is its stock;
    * `stale_count`      — a commit for which it is not leaves another stock.
-/
import OraOS.Inventory.CountRace

namespace OraOS.Inventory

open OraOS.Api
open OraOS.Lib

/-! ## §1. The stock after a submit. -/

/-- The line of a submit that covers an ingredient. -/
def lineFor (lines : List SubmitLine) (ingredientId : Uuid) : Option SubmitLine :=
  lines.find? fun l => l.ingredientId = ingredientId

theorem mem_of_lineFor {lines : List SubmitLine} {ingredientId : Uuid} {l : SubmitLine}
    (h : lineFor lines ingredientId = some l) : l ∈ lines ∧ l.ingredientId = ingredientId :=
  ⟨List.mem_of_find?_eq_some h, by simpa using List.find?_some h⟩

/-- With every ingredient once, its line is the one that is found. -/
theorem lineFor_of_mem {lines : List SubmitLine} (hnd : (lines.map (·.ingredientId)).Nodup)
    {l : SubmitLine} (hl : l ∈ lines) : lineFor lines l.ingredientId = some l := by
  cases hfind : lineFor lines l.ingredientId with
  | none =>
      have hno := List.find?_eq_none.mp hfind l hl
      simp at hno
  | some l' =>
      obtain ⟨hl', hid⟩ := mem_of_lineFor hfind
      rw [List.inj_on_of_nodup_map hnd hl' hl hid]

theorem stockOf_append (l l' : List StockMovement) (ingredientId : Uuid) :
    stockOf (l ++ l') ingredientId = stockOf l ingredientId + stockOf l' ingredientId :=
  ledgerSum_append _ _ _

/-- The rows of a submit come to the difference of its line. -/
theorem Reconciles.stock {count : StockCount} {dto : SubmitStockCountDto} {live : Uuid → ℤ}
    {rows : List StockMovement} (h : Reconciles count dto live rows) (ingredientId : Uuid) :
    stockOf rows ingredientId = match lineFor dto.lines ingredientId with
      | some l => l.countedQuantity - live ingredientId
      | none => 0 := by
  have hsum : stockOf rows ingredientId
      = sumWhere (fun l : SubmitLine => decide (l.ingredientId = ingredientId))
          (fun l => l.countedQuantity - live l.ingredientId) dto.lines := by
    -- the rows are the differences that are not zero, and a zero adds nothing
    calc stockOf rows ingredientId
        = sumWhere (fun d : Uuid × ℤ => decide (d.1 = ingredientId)) (fun d => d.2)
            (rows.map fun m => (m.ingredientId, m.quantity)) := by
          rw [sumWhere_map]
          rfl
      _ = _ := by
          rw [h.differences, sumWhere_filter_ne_zero, sumWhere_map]
          rfl
  rw [hsum]
  cases hline : lineFor dto.lines ingredientId with
  | some l =>
      obtain ⟨hl, rfl⟩ := mem_of_lineFor hline
      have hone := sumWhere_at_key (fun l : SubmitLine => l.ingredientId) (fun _ => true)
        (fun l => l.countedQuantity - live l.ingredientId) h.once hl
      simpa using hone
  | none =>
      apply sumWhere_eq_zero
      intro l hl hid
      have hno := List.find?_eq_none.mp hline l hl
      exact absurd hid hno

/-- **A submit against the stock there is** sets it to what was counted. -/
theorem Reconciles.sets {count : StockCount} {dto : SubmitStockCountDto}
    {seen rows ledger : List StockMovement} (h : Reconciles count dto (stockOf seen) rows)
    (ingredientId : Uuid) :
    stockOf (ledger ++ rows) ingredientId = match lineFor dto.lines ingredientId with
      | some l => l.countedQuantity + (stockOf ledger ingredientId - stockOf seen ingredientId)
      | none => stockOf ledger ingredientId := by
  rw [stockOf_append, h.stock]
  cases lineFor dto.lines ingredientId with
  | some l =>
      show stockOf ledger ingredientId + (l.countedQuantity - stockOf seen ingredientId)
        = l.countedQuantity + (stockOf ledger ingredientId - stockOf seen ingredientId)
      omega
  | none => exact add_zero _

/-! ## §2. The last count of an ingredient. -/

/-- What a committed submit counted of an ingredient. -/
def countedBy (ingredientId : Uuid) : CountEntry → Option ℤ
  | .applied r _ =>
      match r.op with
      | .submit _ dto => (lineFor dto.lines ingredientId).map (·.countedQuantity)
      | .cancel => none
  | .elsewhere _ => none

/-- What the last committed submit that covers an ingredient counted of it. -/
def lastCounted (log : List CountEntry) (ingredientId : Uuid) : Option ℤ :=
  log.reverse.findSome? (countedBy ingredientId)

theorem lastCounted_snoc (log : List CountEntry) (e : CountEntry) (ingredientId : Uuid) :
    lastCounted (log ++ [e]) ingredientId
      = (countedBy ingredientId e).or (lastCounted log ingredientId) := by
  unfold lastCounted
  rw [List.reverse_append, List.reverse_singleton, List.singleton_append, List.findSome?_cons]
  cases countedBy ingredientId e <;> rfl

/-- Every ingredient that has been counted has the stock last counted. -/
def StockAsCounted (s : CountJournal) : Prop :=
  ∀ ingredientId q, lastCounted s.log ingredientId = some q →
    stockOf s.db.movements ingredientId = q

/-- A call, one after the other. -/
def serveCount (db : Db) : CountEntry → Option Db
  | .applied r _ => (r.perform db).toOption
  | .elsewhere _ => none

/-- **Counts serialise**: the stock is that of some serial run of the committed calls, and
of an ingredient what was last counted of it. -/
structure CountsSerial (start : Db) (s : CountJournal) : Prop where
  serial : s.Serializable serveCount (fun db => stockOf db.movements) start
  counted : StockAsCounted s

/-- A submit that commits with this step has read the stock of its ingredients as it
still is. -/
def StockStands (c : Sessions CountJournal (CountCall × CountPhase) Uuid) :
    SessionEvent CountCall Unit Empty → Prop
  | .run i _ =>
      match c.running i with
      | some (r, .completing _ seen _) =>
          match r.op with
          | .submit _ dto => ∀ l ∈ dto.lines,
              stockOf c.shared.db.movements l.ingredientId = stockOf seen l.ingredientId
          | .cancel => True
      | _ => True
  | _ => True

instance (c : Sessions CountJournal (CountCall × CountPhase) Uuid)
    (e : SessionEvent CountCall Unit Empty) : Decidable (StockStands c e) := by
  unfold StockStands
  split
  · split
    · split <;> infer_instance
    · infer_instance
  · infer_instance

/-- What the condition asks of a submit that commits. -/
theorem StockStands.completing {c : Sessions CountJournal (CountCall × CountPhase) Uuid} {i : ℕ}
    {r : CountCall} {count : StockCount} {seen : List StockMovement} {w : CountWrite}
    {now : Instant} {dto : SubmitStockCountDto}
    (hi : c.running i = some (r, .completing count seen w)) (hop : r.op = .submit now dto) :
    StockStands c (.run i ()) ↔ ∀ l ∈ dto.lines,
      stockOf c.shared.db.movements l.ingredientId = stockOf seen l.ingredientId := by
  simp only [StockStands, hi, hop]

/-- The steps that do not meet it are commits of submits. -/
theorem not_stands {c : Sessions CountJournal (CountCall × CountPhase) Uuid}
    {e : SessionEvent CountCall Unit Empty} (h : ¬ StockStands c e) :
    ∃ i r count seen w now dto, e = .run i () ∧ c.running i = some (r, .completing count seen w)
      ∧ r.op = .submit now dto ∧ ∃ l ∈ dto.lines,
        stockOf c.shared.db.movements l.ingredientId ≠ stockOf seen l.ingredientId := by
  unfold StockStands at h
  split at h
  next i o =>
    split at h
    next r count seen w hi =>
      split at h
      next now dto hop =>
        push Not at h
        exact ⟨i, r, count, seen, w, now, dto, rfl, hi, hop, h⟩
      next => exact absurd trivial h
    next => exact absurd trivial h
  next => exact absurd trivial h

/-- Without bystanders nobody touches a count. -/
theorem noOneElse_keeps : KeepsCounts fun (s : CountJournal) (_ : Empty) => s :=
  fun _ e => e.elim

/-- What the calls know in every reachable state. -/
theorem countsOnly_knows {db : Db} {c : Sessions CountJournal (CountCall × CountPhase) Uuid}
    (h : (countsOnly db).Reachable c) {i : ℕ} {t : CountCall × CountPhase}
    (hi : c.running i = some t) : CountKnows c.shared t := by
  have hinv := Session.invariant (countSession_knows noOneElse_keeps) (fun _ _ => trivial) h
  exact (hinv.2 i t hi).1

/-- A count is reconciled by the stock of its own ingredients. -/
theorem reconcileCount_congr {lines : List SubmitLine} {live live' : Uuid → ℤ}
    (h : ∀ l ∈ lines, live l.ingredientId = live' l.ingredientId) :
    reconcileCount lines live = reconcileCount lines live' := by
  unfold reconcileCount
  refine List.map_congr_left fun l hl => ?_
  rw [h l hl]

/-- A submit that commits against the stock there is does what `submit` does. -/
theorem submit_commit_serves {s : CountJournal} {r : CountCall} {count : StockCount}
    {seen : List StockMovement} {w : CountWrite} {now : Instant} {dto : SubmitStockCountDto}
    (hop : r.op = .submit now dto) (hstill : StillOpen s r count)
    (hcheck : checkSubmit count dto = .ok ())
    (hreasons : missingReasons (adjustmentsOf dto seen) = [])
    (hw : submitWrite r.ctx now count (adjustmentsOf dto seen) dto.notes = .ok w)
    (hstands : ∀ l ∈ dto.lines,
      stockOf s.db.movements l.ingredientId = stockOf seen l.ingredientId) :
    serveCount s.db (.applied r w.rows) = some (w.publish s.db r.ctx) := by
  -- at the commit the stock of every counted line is what was read, so are the differences
  have hadj : reconcileCount dto.lines (stockOf s.db.movements) = adjustmentsOf dto seen :=
    reconcileCount_congr hstands
  have hopen : ¬ count.status = .completed := by
    rw [hstill.2]
    decide
  have hperform : r.perform s.db = .ok (w.publish s.db r.ctx) := by
    unfold CountCall.perform
    rw [hop]
    show submitStockCount s.db r.ctx now r.id dto = _
    rw [submitStockCount_eq, hstill.1]
    simp only [found, ok_bind, if_neg hopen, hcheck, hadj, hw]
    rw [checkReasons, require_of _ hreasons]
    rfl
  show (r.perform s.db).toOption = _
  rw [hperform]
  rfl

/-- A cancel that commits is the call by itself. -/
theorem cancel_commit_serves {s : CountJournal} {r : CountCall} {count : StockCount}
    (hop : r.op = .cancel) (hstill : StillOpen s r count) :
    serveCount s.db (.applied r []) = some ((cancelWrite count).publish s.db r.ctx) := by
  have hperform : r.perform s.db = .ok ((cancelWrite count).publish s.db r.ctx) := by
    unfold CountCall.perform
    rw [hop]
    show cancelStockCount s.db r.ctx r.id = _
    rw [cancelStockCount_eq, hstill.1]
    simp only [found, ok_bind]
    rw [require_of _ hstill.2]
    rfl
  show (r.perform s.db).toOption = _
  rw [hperform]
  rfl

/-- **Commits in their own order** serve the calls one after the other. -/
theorem counts_replay {db : Db} {c : Sessions CountJournal (CountCall × CountPhase) Uuid}
    (h : ((countsOnly db).restrict StockStands).Reachable c) :
    System.replay serveCount c.shared.log db = some c.shared.db := by
  refine Session.replays (fun _ hs => hs) (fun _ e => e.elim)
    ?_ h
  intro c i o t s' t' hreach hstands hi hturn
  have hk := countsOnly_knows hreach hi
  have hmoves := countSession_inverts.moves hturn
  right
  cases hmoves with
  | completes =>
      -- the row lock kept the count open, the condition keeps the stock
      obtain ⟨hstill, now, dto, hop, hcheck, hreasons, hw⟩ := hk
      exact ⟨_, rfl, submit_commit_serves hop hstill hcheck hreasons hw
        ((StockStands.completing hi hop).mp hstands)⟩
  | cancels => exact ⟨_, rfl, cancel_commit_serves hk.2 hk.1⟩

/-! ## §3. The stock as counted. -/

/-- A commit of a submit, whatever it had read. -/
theorem counted_after {s : CountJournal} {r : CountCall} {count : StockCount}
    {seen : List StockMovement} {w : CountWrite} {now : Instant} {dto : SubmitStockCountDto}
    (hop : r.op = .submit now dto) (hrows : Reconciles count dto (stockOf seen) w.rows)
    (ingredientId : Uuid) :
    (stockOf (w.publish s.db r.ctx).movements ingredientId = match lineFor dto.lines ingredientId with
      | some l => l.countedQuantity
          + (stockOf s.db.movements ingredientId - stockOf seen ingredientId)
      | none => stockOf s.db.movements ingredientId)
    ∧ lastCounted (s.log ++ [.applied r w.rows]) ingredientId
      = ((lineFor dto.lines ingredientId).map (·.countedQuantity)).or
          (lastCounted s.log ingredientId) := by
  refine ⟨hrows.sets ingredientId, ?_⟩
  rw [lastCounted_snoc]
  simp only [countedBy, hop]

theorem counted_step {s : CountJournal} {r : CountCall} {count : StockCount}
    {seen : List StockMovement} {w : CountWrite} {now : Instant} {dto : SubmitStockCountDto}
    (hop : r.op = .submit now dto) (hrows : Reconciles count dto (stockOf seen) w.rows)
    (hs : StockAsCounted s)
    (hstands : ∀ l ∈ dto.lines,
      stockOf s.db.movements l.ingredientId = stockOf seen l.ingredientId) :
    StockAsCounted (s.note (w.publish s.db r.ctx) (.applied r w.rows)) := by
  intro i q hq
  obtain ⟨hstock, hlast⟩ := counted_after (s := s) hop hrows i
  rw [Journal.note_log, hlast] at hq
  rw [Journal.note_db, hstock]
  cases hline : lineFor dto.lines i with
  | none =>
      rw [hline] at hq
      exact hs i q hq
  -- what was counted, since nothing came between the read and the commit
  | some l =>
      rw [hline] at hq
      obtain ⟨hl, rfl⟩ := mem_of_lineFor hline
      have hq' : l.countedQuantity = q := Option.some.inj hq
      have hsame := hstands l hl
      show l.countedQuantity + (_ - _) = q
      omega

theorem counts_asCounted {db : Db} {c : Sessions CountJournal (CountCall × CountPhase) Uuid}
    (h : ((countsOnly db).restrict StockStands).Reachable c) : StockAsCounted c.shared := by
  induction h with
  | init h0 =>
      rw [h0.1]
      intro i q hq
      cases hq
  | @step c c' e hc hs ih =>
      have hreach := System.restrict_reachable hc
      cases (countSession _).act_moved hs.2 with
      | began _ => exact ih
      | went _ _ => exact ih
      | locked _ _ _ => exact ih
      | @committed i o s' t t' hi hturn =>
          have hk := countsOnly_knows hreach hi
          cases countSession_inverts.moves hturn with
          | completes =>
              obtain ⟨-, now, dto, hop, hcheck, -, hw⟩ := hk
              exact counted_step hop (reconciles_of_write hcheck hw) ih
                ((StockStands.completing hi hop).mp hs.1)
          | cancels =>
              -- nothing is counted by a cancel
              intro i q hq
              rw [Journal.note_log, lastCounted_snoc] at hq
              simp only [countedBy, hk.2, Option.none_or] at hq
              show stockOf (c.shared.db.movements ++ []) i = q
              rw [List.append_nil]
              exact ih i q hq
      | rolledBack _ _ => exact ih
      | dropped => exact ih
      | @elsewhere x => exact x.elim

/-- **A commit against a stock that has moved** leaves an ingredient it covers at another
stock than the one just counted. -/
theorem stale_count {db : Db} {c c' : Sessions CountJournal (CountCall × CountPhase) Uuid}
    {e : SessionEvent CountCall Unit Empty} (h : (countsOnly db).Reachable c)
    (hstep : (countsOnly db).step c e c') (hstale : ¬ StockStands c e) :
    ¬ StockAsCounted c'.shared := by
  intro hcounted
  obtain ⟨i, r, count, seen, w, now, dto, rfl, hi, hop, l, hl, hne⟩ := not_stands hstale
  obtain ⟨-, now', dto', hop', hcheck, -, hw⟩ := countsOnly_knows h hi
  cases hop.symm.trans hop'
  have hrows := reconciles_of_write hcheck hw
  obtain ⟨hstock, hlast⟩ := counted_after (s := c.shared) hop hrows l.ingredientId
  rw [lineFor_of_mem hrows.once hl] at hstock hlast
  -- the step is the commit of this submit
  have hc' : c'.shared = c.shared.note (w.publish c.shared.db r.ctx) (.applied r w.rows) := by
    have hact : (countSession fun s (_ : Empty) => s).act c (.run i ()) = some c' := hstep
    simp only [Session.act, hi, countSession, countTurn] at hact
    cases hact
    rfl
  have hq := hcounted l.ingredientId l.countedQuantity (by rw [hc', Journal.note_log, hlast]; rfl)
  rw [hc', Journal.note_db, hstock] at hq
  have hsum : l.countedQuantity
      + (stockOf c.shared.db.movements l.ingredientId - stockOf seen l.ingredientId)
        = l.countedQuantity := hq
  omega

/-- **Counts serialise while no submit commits against a stock that has moved**, and the
first commit that does leaves the stock other than counted. -/
theorem counts_serialise {db : Db} {c : Sessions CountJournal (CountCall × CountPhase) Uuid}
    (h : ((countsOnly db).restrict StockStands).Reachable c) :
    CountsSerial db c.shared ∧ ∀ e c', (countsOnly db).step c e c' → ¬ StockStands c e →
      ¬ CountsSerial db c'.shared := by
  refine ⟨⟨Journal.serializable_of_replay (counts_replay h) _, counts_asCounted h⟩, ?_⟩
  intro e c' hstep hstale hserial
  exact stale_count (System.restrict_reachable h) hstep hstale hserial.counted

/-! ## §4. Two counts of one shelf. -/

/-- One submit after the other. -/
def inTurn : List (SessionEvent CountCall Unit Empty) :=
  [.begin 0 (countedSeven 1), .run 0 (), .run 0 (), .run 0 (), .run 0 (), .run 0 (),
    .begin 1 (countedSeven 2), .run 1 (), .run 1 (), .run 1 (), .run 1 (), .run 1 ()]

/-- Both have read the ten before one of them commits. -/
def atOnce : List (SessionEvent CountCall Unit Empty) :=
  [.begin 0 (countedSeven 1), .begin 1 (countedSeven 2), .run 0 (), .run 0 (), .run 0 (),
    .run 1 (), .run 1 (), .run 1 (), .run 0 (), .run 0 (), .run 1 (), .run 1 ()]

theorem atOnce_runs : (System.replay (countSession fun s (_ : Empty) => s).act atOnce
    (Session.quiet (.blank shelf))).isSome = true := by decide +kernel

/-- What is committed after both. -/
def afterBoth : Sessions CountJournal (CountCall × CountPhase) Uuid :=
  (System.replay (countSession fun s (_ : Empty) => s).act atOnce
    (Session.quiet (.blank shelf))).get atOnce_runs

theorem afterBoth_reachable : (countsOnly shelf).Reachable afterBoth := by
  refine Session.replay_reached ?_ atOnce (Option.some_get atOnce_runs).symm
  rfl

/-- **Three are missing, six are written off**: no order of the two submits leaves four. -/
theorem counts_overshoot : ¬ ∀ db c, (countsOnly db).Reachable c → CountsSerial db c.shared := by
  intro h
  have hserial := (h shelf afterBoth afterBoth_reachable).serial
  have htwo : afterBoth.shared.log.length = 2 := by decide +kernel
  have hstock : stockOf afterBoth.shared.db.movements 7 = 4 := by decide +kernel
  -- neither order of the two submits leaves four
  rcases hserial.pair htwo with hrun | hrun
  · have hseven := congrArg (Option.map fun stock : Uuid → ℤ => stock 7) hrun
    rw [Option.map_map, Option.map_some, hstock] at hseven
    exact absurd hseven (by decide +kernel)
  · have hseven := congrArg (Option.map fun stock : Uuid → ℤ => stock 7) hrun
    rw [Option.map_map, Option.map_some, hstock] at hseven
    exact absurd hseven (by decide +kernel)

/-- One after the other they do. -/
theorem inTurn_runs : (System.replay
    (System.guarded StockStands (countSession fun s (_ : Empty) => s).act) inTurn
    (Session.quiet (.blank shelf))).isSome = true := by decide +kernel

/-- Seven are left, as the last count says. -/
theorem counts_serialise_inTurn :
    ∃ c, ((countsOnly shelf).restrict StockStands).Reachable c
      ∧ stockOf c.shared.db.movements 7 = 7 ∧ CountsSerial shelf c.shared := by
  have hreach : ((countsOnly shelf).restrict StockStands).Reachable _ :=
    Session.replay_guarded (by rfl) inTurn (Option.some_get inTurn_runs).symm
  exact ⟨_, hreach, by decide +kernel, (counts_serialise hreach).1⟩

end OraOS.Inventory
