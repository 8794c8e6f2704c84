/-
  OraOS.Orders.Reversal — a sale that was called off leaves no trace in stock.

  `StockInv` ties the status of an order to the movements tagged with it:

    • a DRAFT has none;
    • until the order is called off they are all CONSUMPTION;
    • from then on they come to 0 at every ingredient and batch.

  Every request keeps it (`Effect.stockInv`), whatever was done to recipes,
  batches and stock between the sale and its reversal, so
  `reversed_movements_cancel` holds in every reachable state and stays.
-/
import OraOS.Orders.Serial

namespace OraOS.Orders

open OraOS.Api
open OraOS.Lib
open OraOS.Inventory

/-! ## §1. Rows tagged with an order. -/

theorem taggedSum_append (l l' : List StockMovement) (orderId : Uuid)
    (p : Uuid × Option Uuid → Bool) :
    taggedSum (l ++ l') orderId p = taggedSum l orderId p + taggedSum l' orderId p :=
  ledgerSum_append _ l l'

/-- Rows of other orders add nothing. -/
theorem taggedSum_untagged {l : List StockMovement} {orderId : Uuid}
    (h : ∀ m ∈ l, m.orderId ≠ some orderId) (p : Uuid × Option Uuid → Bool) :
    taggedSum l orderId p = 0 := by
  refine sumWhere_eq_zero ?_
  intro m hm hp
  simp only [Bool.and_eq_true, decide_eq_true_eq] at hp
  exact absurd hp.1 (h m hm)

/-- Where the order's rows are all CONSUMPTION, reading back the CONSUMPTION rows
reads back all of them. -/
theorem taggedSum_consumedOf {l : List StockMovement} {orderId : Uuid}
    (h : ∀ m ∈ l, m.orderId = some orderId → m.type = .consumption)
    (p : Uuid × Option Uuid → Bool) :
    taggedSum (consumedOf l orderId) orderId p = taggedSum l orderId p := by
  unfold taggedSum ledgerSum consumedOf
  rw [sumWhere_filter]
  refine sumWhere_congr ?_ fun _ _ _ => rfl
  intro m hm
  by_cases ho : m.orderId = some orderId
  · have hc := h m hm ho
    simp [ho, hc]
  · simp [ho]

/-- **After the return of the stock** the order's rows cancel. -/
theorem taggedSum_restocked {l new : List StockMovement} {orderId actorUserId : Uuid}
    {toStatus : OrderStatus}
    (h : ∀ m ∈ l, m.orderId = some orderId → m.type = .consumption)
    (hnew : new.map (·.toNewMovement) = restockRows l orderId actorUserId toStatus)
    (p : Uuid × Option Uuid → Bool) : taggedSum (l ++ new) orderId p = 0 := by
  have hrows : taggedSum new orderId p = -taggedSum (consumedOf l orderId) orderId p := by
    rw [← restockRows_cancel l orderId actorUserId toStatus p]
    exact ledgerSum_rows hnew
  rw [taggedSum_append, hrows, taggedSum_consumedOf h]
  omega

/-! ## §2. The invariant. -/

/-- What holds of the movements of orders in every state of the API. -/
structure StockInv (db : Db) : Prop where
  ids : UniqueIds db
  known : ∀ m ∈ db.movements, ∀ id ∈ m.orderId, ∃ o ∈ db.orders, o.id = id
  draft : ∀ o ∈ db.orders, o.status = .draft → ∀ m ∈ db.movements, m.orderId ≠ some o.id
  consumed : ∀ o ∈ db.orders, isReversed o.status = false →
    ∀ m ∈ db.movements, m.orderId = some o.id → m.type = .consumption
  returned : ∀ o ∈ db.orders, isReversed o.status = true →
    ∀ p, taggedSum db.movements o.id p = 0

theorem StockInv.opening {s : Server} (h : Opening s) : StockInv s.db := by
  have hno : ∀ o, o ∉ s.db.orders := by
    rw [h.orders]
    exact fun _ => List.not_mem_nil
  refine ⟨?_, ?_, fun o ho => absurd ho (hno o), fun o ho => absurd ho (hno o),
    fun o ho => absurd ho (hno o)⟩
  · unfold UniqueIds
    rw [h.orders]
    exact List.nodup_nil
  · intro m hm id hid
    rw [h.movements m hm] at hid
    cases hid

/-- Rows that name no order of the old database disturb none of it. -/
theorem StockInv.append {db db' : Db} (hs : StockInv db) (horders : db'.orders = db.orders)
    {new : List StockMovement} (hmovements : db'.movements = db.movements ++ new)
    (hnew : ∀ m ∈ new, m.orderId = none) : StockInv db' := by
  -- what names no order counts for no order
  have hother : ∀ (id : Uuid), ∀ m ∈ new, m.orderId ≠ some id := by
    intro id m hm
    rw [hnew m hm]
    exact nofun
  refine ⟨?_, ?_, ?_, ?_, ?_⟩
  · unfold UniqueIds
    rw [horders]
    exact hs.ids
  · rw [horders, hmovements]
    intro m hm id hid
    rcases List.mem_append.mp hm with hm | hm
    · exact hs.known m hm id hid
    · exact absurd hid (hother id m hm)
  · rw [horders, hmovements]
    intro o ho hd m hm
    rcases List.mem_append.mp hm with hm | hm
    · exact hs.draft o ho hd m hm
    · exact hother o.id m hm
  · rw [horders, hmovements]
    intro o ho hrev m hm htag
    rcases List.mem_append.mp hm with hm | hm
    · exact hs.consumed o ho hrev m hm htag
    · exact absurd htag (hother o.id m hm)
  · rw [horders, hmovements]
    intro o ho hrev p
    rw [taggedSum_append, hs.returned o ho hrev, taggedSum_untagged (hother o.id), add_zero]

theorem StockInv.congr {db db' : Db} (hs : StockInv db) (horders : db'.orders = db.orders)
    (hmovements : db'.movements = db.movements) : StockInv db' :=
  hs.append horders (hmovements.trans (List.append_nil _).symm) (List.forall_mem_nil _)

/-! ## §3. Creation. -/

/-- Every movement of a new order is a CONSUMPTION tagged with it, and a held
order has none. -/
theorem Inserted.moved_rows {db : Db} {ctx : TenantContext} {env : Env} {dto : CreateOrderDto}
    {o : Order} {paid : List Payment} {moved : List StockMovement} {spent : List LoyaltyEntry}
    (h : Inserted db ctx env dto o paid moved spent) :
    (∀ m ∈ moved, m.orderId = some o.id ∧ m.type = .consumption)
      ∧ (o.status = .draft → moved = []) := by
  have hmoved := h.moved
  unfold DepletedAtPlacement at hmoved
  constructor
  · intro m hm
    have hrow : m.toNewMovement ∈ moved.map (·.toNewMovement) := List.mem_map_of_mem hm
    rw [hmoved] at hrow
    split at hrow
    · cases hrow
    · exact depletionRows_tagged _ hrow
  · intro hdraft
    rw [h.status] at hdraft
    split at hdraft
    next hheld =>
      rw [if_pos hheld] at hmoved
      exact List.map_eq_nil_iff.mp hmoved
    next => cases hdraft

/-- A new order is not called off. -/
theorem Inserted.not_reversed {db : Db} {ctx : TenantContext} {env : Env} {dto : CreateOrderDto}
    {o : Order} {paid : List Payment} {moved : List StockMovement} {spent : List LoyaltyEntry}
    (h : Inserted db ctx env dto o paid moved spent) : isReversed o.status = false := by
  rw [h.status]
  split <;> rfl

/-- **A new order is the only one its movements name.** -/
theorem StockInv.created {db : Db} (hs : StockInv db) {ctx : TenantContext} {env : Env}
    {dto : CreateOrderDto} {o : Order} {paid : List Payment} {moved : List StockMovement}
    {spent : List LoyaltyEntry} (redemptions : List CouponRedemption) (logs : List AuditLog)
    (h : Inserted db ctx env dto o paid moved spent) (hids : UniqueIds
      (inserted db ctx o paid moved spent redemptions logs)) :
    StockInv (inserted db ctx o paid moved spent redemptions logs) := by
  obtain ⟨hrows, hdraft⟩ := h.moved_rows
  have hnew : ∀ x ∈ db.orders, x.id ≠ o.id := by
    rw [h.id]
    exact h.fresh
  -- no old row names the new order, no new row names an old one
  have hold : ∀ m ∈ db.movements, m.orderId ≠ some o.id := by
    intro m hm htag
    obtain ⟨x, hx, hid⟩ := hs.known m hm o.id htag
    exact hnew x hx hid
  have hother : ∀ x ∈ db.orders, ∀ m ∈ moved, m.orderId ≠ some x.id := by
    intro x hx m hm htag
    rw [(hrows m hm).1] at htag
    injection htag with hid
    exact hnew x hx hid.symm
  refine ⟨hids, ?_, ?_, ?_, ?_⟩
  · rw [inserted_orders, inserted_movements]
    intro m hm id hid
    rcases List.mem_append.mp hm with hm | hm
    · obtain ⟨x, hx, hxid⟩ := hs.known m hm id hid
      exact ⟨x, List.mem_append_left _ hx, hxid⟩
    · rw [(hrows m hm).1] at hid
      injection hid with hid
      exact ⟨o, List.mem_append_right _ (List.mem_singleton_self o), hid⟩
  · rw [inserted_orders, inserted_movements]
    intro x hx hd m hm
    rcases List.mem_append.mp hx with hx | hx
    · rcases List.mem_append.mp hm with hm | hm
      · exact hs.draft x hx hd m hm
      · exact hother x hx m hm
    · obtain rfl := List.mem_singleton.mp hx
      rw [hdraft hd, List.append_nil] at hm
      exact hold m hm
  · rw [inserted_orders, inserted_movements]
    intro x hx hrev m hm htag
    rcases List.mem_append.mp hx with hx | hx
    · rcases List.mem_append.mp hm with hm | hm
      · exact hs.consumed x hx hrev m hm htag
      · exact absurd htag (hother x hx m hm)
    · obtain rfl := List.mem_singleton.mp hx
      rcases List.mem_append.mp hm with hm | hm
      · exact absurd htag (hold m hm)
      · exact (hrows m hm).2
  · rw [inserted_orders, inserted_movements]
    intro x hx hrev p
    rcases List.mem_append.mp hx with hx | hx
    · rw [taggedSum_append, hs.returned x hx hrev, taggedSum_untagged (hother x hx), add_zero]
    · obtain rfl := List.mem_singleton.mp hx
      rw [h.not_reversed] at hrev
      cases hrev

/-! ## §4. A status change. -/

/-- The rows of a status change are tagged with its order, and on a move that
calls nothing off they are CONSUMPTION. -/
theorem MovedOnChange.rows {db : Db} {ctx : TenantContext} {now : Instant} {o : Order}
    {toStatus : OrderStatus} {moved : List StockMovement}
    (h : MovedOnChange db ctx now o toStatus moved) :
    ∀ m ∈ moved, m.orderId = some o.id ∧ (isReversed toStatus = false → m.type = .consumption) := by
  intro m hm
  have hrow : m.toNewMovement ∈ moved.map (·.toNewMovement) := List.mem_map_of_mem hm
  unfold MovedOnChange at h
  rw [h] at hrow
  split at hrow
  next =>
    obtain ⟨htag, htype⟩ := depletionRows_tagged _ hrow
    exact ⟨htag, fun _ => htype⟩
  next =>
    split at hrow
    next hrev =>
      refine ⟨(restockRows_tagged _ hrow).1, ?_⟩
      intro hno
      have : isReversed toStatus = true := by
        unfold isReversed
        simpa using hrev
      rw [this] at hno
      cases hno
    next => cases hrow

/-- **An order gives back exactly what it took.** -/
theorem StockInv.moved {db : Db} (hs : StockInv db) {ctx : TenantContext} {now : Instant}
    {o : Order} {toStatus : OrderStatus} (reason : Option String) {moved : List StockMovement}
    (logs : List AuditLog) (ho : db.findOrder o.id = some o)
    (hcan : canTransition o.status toStatus = true)
    (hmoved : MovedOnChange db ctx now o toStatus moved)
    (hids : UniqueIds (statusChanged db ctx now o toStatus reason moved logs)) :
    StockInv (statusChanged db ctx now o toStatus reason moved logs) := by
  have hmem : o ∈ db.orders := (Db.mem_of_findOrder ho).1
  have hrows := hmoved.rows
  have hlive : isReversed o.status = false := by
    by_contra hrev
    rw [canTransition_of_reversed (by simpa using hrev)] at hcan
    cases hcan
  have hother : ∀ x : Order, x.id ≠ o.id → ∀ m ∈ moved, m.orderId ≠ some x.id := by
    intro x hx m hm htag
    rw [(hrows m hm).1] at htag
    injection htag with hid
    exact hx hid.symm
  refine ⟨hids, ?_, ?_, ?_, ?_⟩
  · rw [statusChanged_orders, statusChanged_movements]
    intro m hm id hid
    have hold : ∃ x ∈ db.orders, x.id = id := by
      rcases List.mem_append.mp hm with hm | hm
      · exact hs.known m hm id hid
      · rw [(hrows m hm).1] at hid
        injection hid with hid
        exact ⟨o, hmem, hid⟩
    obtain ⟨x, hx, hxid⟩ := hold
    obtain ⟨x', hx', hsame⟩ := setStatus_keeps hs.ids _ ho hcan hx
    exact ⟨x', hx', hsame.id.trans hxid⟩
  · rw [statusChanged_orders, statusChanged_movements]
    intro x hx hd m hm
    rcases mem_setStatus hx with ⟨hx, hne⟩ | ⟨-, -, -, -, hstatus, -⟩
    · rcases List.mem_append.mp hm with hm | hm
      · exact hs.draft x hx hd m hm
      · exact hother x hne m hm
    · -- no move goes back to DRAFT
      rw [← hstatus, hd, canTransition_to_draft] at hcan
      cases hcan
  · rw [statusChanged_orders, statusChanged_movements]
    intro x hx hrev m hm htag
    rcases mem_setStatus hx with ⟨hx, hne⟩ | ⟨-, -, -, hid, hstatus, -⟩
    · rcases List.mem_append.mp hm with hm | hm
      · exact hs.consumed x hx hrev m hm htag
      · exact absurd htag (hother x hne m hm)
    · rcases List.mem_append.mp hm with hm | hm
      · exact hs.consumed o hmem hlive m hm (hid ▸ htag)
      · exact (hrows m hm).2 (hstatus ▸ hrev)
  · rw [statusChanged_orders, statusChanged_movements]
    intro x hx hrev p
    rcases mem_setStatus hx with ⟨hx, hne⟩ | ⟨-, -, -, hid, hstatus, -⟩
    · rw [taggedSum_append, hs.returned x hx hrev, taggedSum_untagged (hother x hne), add_zero]
    · -- the reversal itself
      have hto : toStatus ∈ reversingStatuses := by
        rw [hstatus] at hrev
        simpa [isReversed] using hrev
      have hres : ¬ resuming o.status toStatus = true :=
        fun hres => not_reversing_of_resuming hres hto
      unfold MovedOnChange at hmoved
      rw [if_neg hres, if_pos hto] at hmoved
      rw [hid]
      exact taggedSum_restocked (hs.consumed o hmem hlive) hmoved p

/-! ## §5. Every request, every run. -/

/-- **The step lemma.** -/
theorem Effect.stockInv {s s' : Server} (h : Effect s s') (hs : StockInv s.db) :
    StockInv s'.db := by
  have hids := h.uniqueIds hs.ids
  cases h with
  | idle => exact hs
  | created redemptions logs hooks hcheck hins hhooks =>
      exact hs.created redemptions _ hins hids
  | moved reason logs ho hcan hmoved => exact hs.moved reason _ ho hcan hmoved hids
  | paid events hooks ho hlive hid hcaptured hle hhooks hevents => exact hs.congr rfl rfl
  | refunded events logs ho hstatus hid hle hevents => exact hs.congr rfl rfl
  | hooked hmem => exact hs.congr (runHook_orders ..) (runHook_movements ..)
  | stocked hframe =>
      obtain ⟨new, hmovements, hnew⟩ := hframe.movements
      exact hs.append hframe.orders hmovements hnew

/-- **It holds in every state the API can reach.** -/
theorem serial_stockInv {s : Server} (h : serial.Reachable s) : StockInv s.db := by
  refine h.invariant (fun s => StockInv s.db) (fun s => StockInv.opening) ?_
  intro s r s' hs hstep
  exact (perform_effect hstep).stockInv hs

/-- **A called-off sale leaves nothing in stock**: from any reachable state in
which the order is VOIDED or CANCELLED, in that state and in every later one, the
movements tagged with it come to 0 at every ingredient and batch. -/
theorem reversed_movements_cancel {s s' : Server} {rs : List Request}
    (h : serial.Reachable s) (hrun : serial.Run s rs s') {o : Order} (ho : o ∈ s.db.orders)
    (hrev : o.status = .voided ∨ o.status = .cancelled) (ingredientId : Uuid)
    (prepBatchId : Option Uuid) :
    taggedAt s.db.movements o.id ingredientId prepBatchId = 0
      ∧ taggedAt s'.db.movements o.id ingredientId prepBatchId = 0 := by
  have hrev' : isReversed o.status = true := isReversed_iff.mpr hrev
  constructor
  · exact (serial_stockInv h).returned o ho hrev' _
  · obtain ⟨o', ho', hsame⟩ := serial_keeps h hrun ho
    rw [← hsame.id]
    refine (serial_stockInv (h.run hrun)).returned o' ho' ?_ _
    rw [hsame.reversed hrev']
    exact hrev'

/-- A lassi sold and voided. -/
def voidedLassi : List Request :=
  [.create cashier ⟨20, 0⟩ (lassiOrder none none none),
    .updateStatus cashier 1 20 .voided none]

/-- Another lassi after it. -/
def anotherLassi : List Request := [.create cashier ⟨21, 1⟩ (lassiOrder none none none)]

/-- The curd of the second is gone; what the first took is back, before and after. -/
theorem reversed_movements_cancel_lassi :
    (∃ o ∈ (after voidedLassi openBar).db.orders, o.id = 20
      ∧ taggedAt (after voidedLassi openBar).db.movements o.id 4 none = 0
      ∧ taggedAt (after anotherLassi (after voidedLassi openBar)).db.movements o.id 4 none = 0)
      ∧ taggedAt (after anotherLassi (after voidedLassi openBar)).db.movements 21 4 none = -150 :=
  ⟨⟨_, List.mem_singleton_self _, rfl, reversed_movements_cancel
    (after_reachable openBar_opening rfl) (after_run rfl) (List.mem_singleton_self _) (.inl rfl)
    4 none⟩, rfl⟩

end OraOS.Orders
