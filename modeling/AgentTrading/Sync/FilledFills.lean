import AgentTrading.Fills.Conservation
import AgentTrading.Sync.Steps

/-! The fills of an order over a sequence of calls. Each call that asks for the fills brings the
cumulative state to what the broker reports; a call that settles the order by its linked rows
asks, and once the order is filled no call asks again. -/
namespace AgentTrading.Sync
open Domain Repositories Library Fills

/-! A reported quantity that the resolver takes over. -/

/-- `quantity × average` of the stored state. -/
def lastValue (state : Option KisFillCumulativeStateEntity) : ℚ :=
  match state with
  | some s => s.lastCumulativeFilledQuantity * s.lastAverageFillPrice.getD 0
  | none => 0

/-- The stored state is not ahead of a quantity and a value. -/
def Behind (q v : ℚ) (state : Option KisFillCumulativeStateEntity) : Prop :=
  lastQuantity state ≤ q ∧ lastValue state ≤ v

theorem Behind.mono {q q' v v' : ℚ} {state : Option KisFillCumulativeStateEntity}
    (h : Behind q v state) (hq : q ≤ q') (hv : v ≤ v') : Behind q' v' state :=
  ⟨h.1.trans hq, h.2.trans hv⟩

def Settled (q p : ℚ) (state : Option KisFillCumulativeStateEntity) : Prop :=
  ∃ s, state = some s ∧ s.lastCumulativeFilledQuantity = q ∧ s.lastAverageFillPrice = some p

theorem Settled.quantity {q p : ℚ} {state : Option KisFillCumulativeStateEntity}
    (h : Settled q p state) : lastQuantity state = q := by
  obtain ⟨s, rfl, hq, -⟩ := h
  exact hq

theorem Settled.behind {q p : ℚ} {state : Option KisFillCumulativeStateEntity}
    (h : Settled q p state) : Behind q (q * p) state := by
  obtain ⟨s, rfl, hq, hp⟩ := h
  simp [Behind, lastQuantity, lastValue, hq, hp]

theorem inferDeltaPrice_behind {q p : ℚ} {state : Option KisFillCumulativeStateEntity}
    (hbehind : Behind q (q * p) state) (hlt : lastQuantity state < q) :
    inferDeltaPrice q (some p) (lastQuantity state) (state.bind (·.lastAverageFillPrice)) ≠
      none := by
  have hdelta : ¬ q - lastQuantity state ≤ 0 := by linarith
  unfold inferDeltaPrice
  dsimp only
  rw [if_neg hdelta]
  cases state with
  | none => simp
  | some s =>
    have hvalue := hbehind.2
    simp only [lastValue] at hvalue
    cases hprice : s.lastAverageFillPrice with
    | none => simp [hprice]
    | some price =>
      have hnumerator : ¬ p * q - price * s.lastCumulativeFilledQuantity < 0 := by
        rw [hprice, Option.getD_some] at hvalue
        linarith
      simp only [Option.bind_some, hprice, lastQuantity, hnumerator, if_false]
      split <;> simp

theorem resolveIncrementalFill_reported {q p : ℚ} (hp : 0 < p)
    {state : Option KisFillCumulativeStateEntity} (hbehind : Behind q (q * p) state)
    {o : Observation} (hq : o.currentCumulativeQuantity = q) (ha : o.currentAveragePrice = some p)
    (now : Time) (freshId : UUID) :
    Settled q p (resolveIncrementalFill state o now freshId).2 := by
  unfold resolveIncrementalFill
  dsimp only
  rw [hq, ha]
  by_cases hzero : q - lastQuantity state = 0
  · rw [if_pos hzero]
    refine ⟨_, rfl, hq, ?_⟩
    simp [upserted, orPrice, hp.ne']
  · have hlt : lastQuantity state < q := lt_of_le_of_ne hbehind.1 fun h => hzero (by rw [h]; ring)
    rw [if_neg hzero, if_neg (by linarith)]
    split
    · next hnone => exact (inferDeltaPrice_behind hbehind hlt hnone).elim
    · exact ⟨_, rfl, hq, rfl⟩

theorem interpretOne_reported {ctx : OrderContext} {nativeId : String} {now : Time}
    {acc : Interpretation} {o : FillEvent} {q p : ℚ} (hp : 0 < p)
    (hbehind : Behind q (q * p) acc.cumulative) (hq : o.fillQuantity = q) (ho : o.fillPrice = p) :
    Settled q p (interpretOne ctx nativeId now acc o).cumulative := by
  have hsettled := resolveIncrementalFill_reported hp hbehind
    (o := { accountId := ctx.accountId
            brokerName := ctx.brokerName
            brokerNativeOrderId := nativeId
            currentCumulativeQuantity := o.fillQuantity
            currentAveragePrice := some o.fillPrice }) hq (congrArg some ho) now acc.nextId
  unfold interpretOne
  dsimp only
  generalize resolveIncrementalFill _ _ _ _ = resolved at hsettled ⊢
  obtain ⟨decision, state⟩ := resolved
  cases decision with
  | noNewFill => exact hsettled
  | newFill delta price => cases h : ctx.appendEnabled <;> simpa using hsettled
  | anomaly reason => cases reason <;> exact hsettled

/-- Every row of the answer shows the quantity and the average. -/
def Reports (q p : ℚ) (call : FillCall) : Prop :=
  ∃ o os, call.observations = .ok (o :: os) ∧
    ∀ row ∈ o :: os, row.fillQuantity = q ∧ row.fillPrice = p

theorem interpret_reported {ctx : OrderContext} (hnative : ctx.brokerNativeOrderId.isSome = true)
    {now : Time} {book : FillBook} {o : FillEvent} {os : List FillEvent} {q p : ℚ} (hp : 0 < p)
    (hbehind : Behind q (q * p) book.cumulative)
    (hrows : ∀ row ∈ o :: os, row.fillQuantity = q ∧ row.fillPrice = p) :
    Settled q p (interpret ctx now book (o :: os)).cumulative := by
  obtain ⟨nativeId, hid⟩ := Option.isSome_iff_exists.mp hnative
  have hloop : ∀ (rows : List FillEvent) (acc : Interpretation), Settled q p acc.cumulative →
      (∀ row ∈ rows, row.fillQuantity = q ∧ row.fillPrice = p) →
      Settled q p (rows.foldl (interpretOne ctx nativeId now) acc).cumulative := by
    intro rows
    induction rows with
    | nil => exact fun acc h _ => h
    | cons row rows ih =>
      intro acc hacc hrows
      obtain ⟨hq, ho⟩ := hrows row (by simp)
      refine ih _ (interpretOne_reported hp hacc.behind hq ho) fun r hr => hrows r ?_
      exact List.mem_cons_of_mem row hr
  obtain ⟨hq, ho⟩ := hrows o (by simp)
  simp only [interpret, hid, List.foldl_cons]
  refine hloop os _ (interpretOne_reported hp hbehind hq ho) fun row hrow => hrows row ?_
  exact List.mem_cons_of_mem o hrow

/-- The fills stored so far, those discarded for the key of a stored fill and those abandoned
make up the cumulative quantity; none is abandoned when the fee policy never raises. -/
structure Conserved (quiet : Prop) (book : FillBook) (discarded abandoned : List Increment) :
    Prop where
  total : quantity book.stored + quantity discarded + quantity abandoned =
    lastQuantity book.cumulative
  positive : ∀ i ∈ book.stored ++ (discarded ++ abandoned), 0 < i.fillQuantity
  keys : ∀ d ∈ discarded, ∃ e ∈ book.stored, SameKey d e
  abandons : quiet → abandoned = []
  ledger : book.ledger = book.fillEvents

/-- The fee policy, where there is one, does not raise. -/
def FeesReturn (call : FillCall) : Prop :=
  ∀ policy, call.feeTaxPolicy = some policy → ∀ fill, (policy fill).isOk = true

theorem feeTaxOf_returns {call : FillCall} (h : FeesReturn call) (fill : FillEvent) :
    ∃ feeTax, feeTaxOf call.feeTaxPolicy fill = .ok feeTax := by
  unfold feeTaxOf
  split
  · exact ⟨_, rfl⟩
  · split
    · next policy hpolicy =>
      have hok := h policy hpolicy fill
      cases hfill : policy fill with
      | ok feeTax => exact ⟨feeTax, rfl⟩
      | error e => rw [hfill] at hok; cases hok
    · exact ⟨_, rfl⟩

theorem appendFills_returns {ctx : OrderContext} {call : FillCall} (h : FeesReturn call)
    (fills : List FillEvent) (synced skipped : Nat) (book : FillBook) :
    (appendFills ctx call.feeTaxPolicy fills synced skipped book).1.isOk = true := by
  induction fills generalizing synced skipped book with
  | nil => rfl
  | cons fill fills ih =>
    obtain ⟨feeTax, hfee⟩ := feeTaxOf_returns h fill
    rw [appendFills, hfee]
    split
    · exact ih _ _ _
    · exact ih _ _ _

theorem syncStep_returns {call : FillCall} (h : FeesReturn call) (ctx : OrderContext)
    (book : FillBook) : Returns ctx book call := by
  unfold Returns
  cases hobs : call.observations with
  | error e => simp only [syncFills, hobs]; rfl
  | ok observations =>
    obtain ⟨-, -, hok⟩ := syncFills_observations ctx hobs book
    rw [hok]
    exact appendFills_returns h _ _ _ _

theorem appendFills_ledger (ctx : OrderContext)
    (policy : Option (FillEvent → Except PyError FeeTax)) (fills : List FillEvent)
    (synced skipped : Nat) (book : FillBook) (h : book.ledger = book.fillEvents) :
    (appendFills ctx policy fills synced skipped book).2.ledger =
      (appendFills ctx policy fills synced skipped book).2.fillEvents := by
  induction fills generalizing synced skipped book with
  | nil => exact h
  | cons fill fills ih =>
    rw [appendFills]
    split
    · exact ih _ _ _ h
    · split
      · exact h
      · exact ih _ _ _ (by simp only [addFill, h])

theorem syncStep_ledger (ctx : OrderContext) (book : FillBook) (call : FillCall)
    (h : book.ledger = book.fillEvents) :
    (syncStep ctx book call).ledger = (syncStep ctx book call).fillEvents := by
  unfold syncStep syncFills
  split
  · exact h
  · exact h
  · next observations _ _ =>
    dsimp only
    split
    · exact h
    · have hledger := appendFills_ledger ctx call.feeTaxPolicy
        (interpret ctx call.now book observations).candidates 0 0
        { book with
          cumulative := (interpret ctx call.now book observations).cumulative
          nextId := (interpret ctx call.now book observations).nextId } h
      split
      · next heq => rw [heq] at hledger; exact hledger
      · next heq => rw [heq] at hledger; exact hledger

theorem syncStep_conserved {ctx : OrderContext} (henabled : ctx.appendEnabled = true)
    {quiet : Prop} {book : FillBook} {call : FillCall} (hquiet : quiet → FeesReturn call)
    {discarded abandoned : List Increment} (h : Conserved quiet book discarded abandoned) :
    ∃ discarded' abandoned', Conserved quiet (syncStep ctx book call) discarded' abandoned' := by
  obtain ⟨hsub, newDiscarded, newAbandoned, hperm, hkeys, hreturned⟩ :=
    syncStep_accounted ctx book call
  obtain ⟨hpos, hadvance⟩ := syncStep_advances henabled book call
  refine ⟨discarded ++ newDiscarded, abandoned ++ newAbandoned, ?_, ?_, ?_, ?_, ?_⟩
  · have hsum := quantity_perm hperm
    simp only [quantity_append] at hsum ⊢
    linarith [h.total]
  · intro i hi
    have hnew : i ∈ (syncStep ctx book call).stored ++ (newDiscarded ++ newAbandoned) →
        0 < i.fillQuantity := by
      intro hmem
      rcases List.mem_append.mp (hperm.subset hmem) with hold | hfresh
      · exact h.positive i (List.mem_append_left _ hold)
      · exact hpos i hfresh
    have hold : i ∈ discarded ++ abandoned → 0 < i.fillQuantity := fun hmem =>
      h.positive i (List.mem_append_right _ hmem)
    simp only [List.mem_append] at hi hnew hold
    tauto
  · intro d hd
    rcases List.mem_append.mp hd with hd | hd
    · obtain ⟨e, he, hkey⟩ := h.keys d hd
      exact ⟨e, hsub he, hkey⟩
    · exact hkeys d hd
  · intro hq
    rw [h.abandons hq, hreturned (syncStep_returns (hquiet hq) ctx book), List.append_nil]
  · exact syncStep_ledger ctx book call h.ledger

theorem syncStep_settled {ctx : OrderContext} (hnative : ctx.brokerNativeOrderId.isSome = true)
    {book : FillBook} {call : FillCall} {q p : ℚ} (hp : 0 < p) (hreports : Reports q p call)
    (hbehind : Behind q (q * p) book.cumulative) :
    Settled q p (syncStep ctx book call).cumulative := by
  obtain ⟨o, os, hobs, hrows⟩ := hreports
  obtain ⟨-, hcumulative, -⟩ := syncFills_observations ctx hobs book
  rw [syncStep, hcumulative]
  exact interpret_reported hnative hp hbehind hrows

theorem syncStep_without_native {ctx : OrderContext} (hnative : ctx.brokerNativeOrderId = none)
    (book : FillBook) (call : FillCall) :
    (syncStep ctx book call).cumulative = book.cumulative := by
  unfold syncStep
  cases hobs : call.observations with
  | error e => simp only [syncFills, hobs]
  | ok observations =>
    obtain ⟨-, hcumulative, -⟩ := syncFills_observations ctx hobs book
    rw [hcumulative]
    simp only [interpret, hnative]

/-- A call with what the world decides during it, and the broker's cumulative quantity and
average price at that time. -/
structure Call where
  choices : Nat → Choice
  refresh : Bool := false
  afterHours : Option Bool := none
  cumulative : ℚ
  average : ℚ

/-- Whenever the call asks, it is told the quantity at a positive average. -/
def Call.Reported (call : Call) : Prop :=
  0 < call.average ∧ ∀ n, Reports call.cumulative call.average (call.choices n).fills

def Call.FeesReturn (call : Call) : Prop := ∀ n, Sync.FeesReturn (call.choices n).fills

theorem exec_book {op : Op} (hop : ∀ brokerOrder accountId, op ≠ .syncFills brokerOrder accountId)
    (c : Choice) (s : State) :
    (exec c op s).2.book = s.book ∧ (exec c op s).2.appendEnabled = s.appendEnabled := by
  cases op with
  | syncFills brokerOrder accountId => exact (hop brokerOrder accountId rfl).elim
  | _ => exact ⟨rfl, rfl⟩

/-- What the fills of a state satisfy while the broker reports `q` at `p`. -/
structure FillsInvariant (quiet : Prop) (q p : ℚ) (s : State) : Prop where
  enabled : s.appendEnabled = true
  behind : Behind q (q * p) s.book.cumulative
  conserved : ∃ discarded abandoned, Conserved quiet s.book discarded abandoned

theorem exec_invariant {quiet : Prop} {q p : ℚ} (hp : 0 < p) {c : Choice}
    (hreports : Reports q p c.fills) (hquiet : quiet → Sync.FeesReturn c.fills) (op : Op)
    {s : State} (h : FillsInvariant quiet q p s) :
    FillsInvariant quiet q p (exec c op s).2 ∧
      lastQuantity (exec c op s).2.book.cumulative =
        if op.asks then q else lastQuantity s.book.cumulative := by
  by_cases hop : ∃ brokerOrder accountId, op = .syncFills brokerOrder accountId
  · obtain ⟨brokerOrder, accountId, rfl⟩ := hop
    obtain ⟨discarded, abandoned, hconserved⟩ := h.conserved
    have hctx : (fillContext s.appendEnabled brokerOrder accountId).appendEnabled = true :=
      h.enabled
    have hnext := syncStep_conserved hctx hquiet hconserved
    cases hnative : brokerOrder.brokerNativeOrderId with
    | none =>
      have hsame := syncStep_without_native
        (show (fillContext s.appendEnabled brokerOrder accountId).brokerNativeOrderId = none from
          hnative) s.book c.fills
      refine ⟨⟨h.enabled, ?_, hnext⟩, ?_⟩
      · exact (congrArg (Behind q (q * p)) hsame).mpr h.behind
      · simp only [Op.asks, hnative]
        exact congrArg lastQuantity hsame
    | some nativeId =>
      have hsettled := syncStep_settled
        (show (fillContext s.appendEnabled brokerOrder accountId).brokerNativeOrderId.isSome = true
          by simp only [fillContext, hnative, Option.isSome_some]) hp hreports h.behind
      refine ⟨⟨h.enabled, hsettled.behind, hnext⟩, ?_⟩
      simp only [Op.asks, hnative]
      exact hsettled.quantity
  · have hop : ∀ brokerOrder accountId, op ≠ .syncFills brokerOrder accountId :=
      fun b a heq => hop ⟨b, a, heq⟩
    obtain ⟨hbook, henabled⟩ := exec_book hop c s
    have hasks : op.asks = false := by
      cases op with
      | syncFills b a => exact (hop b a rfl).elim
      | _ => rfl
    rw [hasks]
    refine ⟨⟨henabled.trans h.enabled, ?_, ?_⟩, ?_⟩
    · rw [hbook]
      exact h.behind
    · rw [hbook]
      exact h.conserved
    · rw [hbook]
      rfl

/-- A whole program: the cumulative quantity is the reported one once it has asked. -/
theorem run_invariant {quiet : Prop} {q p : ℚ} (hp : 0 < p) {cs : Nat → Choice}
    (hreports : ∀ n, Reports q p (cs n).fills) (hquiet : quiet → ∀ n, Sync.FeesReturn (cs n).fills)
    (code : Code α) {s : State} (h : FillsInvariant quiet q p s) :
    let last := (code.run (Program.drawing exec) (cs, s)).2.2
    FillsInvariant quiet q p last ∧
      lastQuantity last.book.cumulative =
        if (code.trace (Program.drawing exec) (cs, s)).any (·.1.asks) then q
        else lastQuantity s.book.cumulative := by
  induction code generalizing cs s with
  | ret a => exact ⟨h, rfl⟩
  | raise e => exact ⟨h, rfl⟩
  | call op k ih =>
    obtain ⟨hone, hquantity⟩ := exec_invariant hp (hreports 0) (fun hq => hquiet hq 0) op h
    obtain ⟨hrest, hlast⟩ := ih (exec (cs 0) op s).1 (fun n => hreports (n + 1))
      (fun hq n => hquiet hq (n + 1)) hone
    refine ⟨hrest, ?_⟩
    simp only [Program.run_call, Program.trace_call, Program.drawing, List.any_cons] at hlast ⊢
    rw [hlast, hquantity]
    by_cases hasks : op.asks = true
    · simp only [hasks, if_true, ite_self, Bool.true_or]
    · simp only [hasks, Bool.false_eq_true, if_false, Bool.false_or]

/-- The order is stored as filled by its linked rows. -/
def FilledBySnapshots (orderRequestId : UUID) (s : State) : Prop :=
  ∃ row, s.store.orders orderRequestId = some row ∧ row.status = .filled ∧
    row.statusReasonCode = some fillSnapshotReason

def Filled (orderRequestId : UUID) (s : State) : Prop :=
  ∃ row, s.store.orders orderRequestId = some row ∧ row.status = .filled

/-- The broker order is stored and belongs to the order. -/
def Linked (brokerOrderId orderRequestId : UUID) (s : State) : Prop :=
  ∃ brokerOrder, getBrokerOrder s.store brokerOrderId = some brokerOrder ∧
    brokerOrder.orderRequestId = orderRequestId

theorem updateBrokerOrder_orders (s : Store) (id : UUID) (status : Option String)
    (synced updated : Option Time) :
    (updateBrokerOrder s id status synced updated).2.orders = s.orders := by
  unfold updateBrokerOrder
  split <;> rfl

theorem exec_order (op : Op) (c : Choice) (s : State) (id : UUID) :
    (exec c op s).2.store.orders id = s.store.orders id ∨
      ∃ status rc rm expected submittedAt current,
        op = .orders (.ordersUpdateStatus id status rc rm expected submittedAt) ∧
        s.store.orders id = some current ∧
        (exec c op s).2.store.orders id = some (Store.statusRow
          (Orders.tick c.orders s.store).clock current status rc rm expected submittedAt) := by
  cases op with
  | orders op =>
    rcases Orders.exec_order c.orders op s.store id with
      hsame | ⟨status, rc, rm, expected, submittedAt, current, rfl, hcurrent, hwritten⟩
    · exact Or.inl hsame
    · exact Or.inr ⟨status, rc, rm, expected, submittedAt, current, rfl, hcurrent, hwritten⟩
  | brokerOrdersUpdate other status synced updated =>
    exact Or.inl (congrFun (updateBrokerOrder_orders ..) id)
  | _ => exact Or.inl rfl

theorem exec_not_filledBySnapshots {op : Op} (hop : ¬ op.Marks) (c : Choice)
    (orderRequestId : UUID) (s : State) (h : ¬ FilledBySnapshots orderRequestId s) :
    ¬ FilledBySnapshots orderRequestId (exec c op s).2 := by
  rintro ⟨row, hrow, hstatus, hreason⟩
  rcases exec_order op c s orderRequestId with hsame | ⟨_, _, _, _, _, _, rfl, -, hwritten⟩
  · rw [hsame] at hrow
    exact h ⟨row, hrow, hstatus, hreason⟩
  · rw [hwritten] at hrow
    rw [← Option.some.inj hrow] at hstatus hreason
    simp only [Store.statusRow] at hstatus hreason
    subst hstatus hreason
    exact hop ⟨_, _, _, _, rfl⟩

theorem getBrokerOrder_id {s : Store} {id : UUID} {brokerOrder : BrokerOrderEntity}
    (h : getBrokerOrder s id = some brokerOrder) : brokerOrder.brokerOrderId = id := by
  simpa using List.find?_some h

theorem updateBrokerOrder_linked {s : Store} {id : UUID} {brokerOrder : BrokerOrderEntity}
    (h : getBrokerOrder s id = some brokerOrder) (other : UUID) (status : Option String)
    (synced updated : Option Time) :
    ∃ next, getBrokerOrder (updateBrokerOrder s other status synced updated).2 id = some next ∧
      next.orderRequestId = brokerOrder.orderRequestId := by
  unfold updateBrokerOrder
  split
  · exact ⟨brokerOrder, h, rfl⟩
  · have hkeys : ∀ item : BrokerOrderEntity,
        (if item.brokerOrderId = other then
          { item with
            brokerStatus := status.getD item.brokerStatus
            lastSyncedAt := synced.or item.lastSyncedAt
            updatedAt := updated.or item.updatedAt }
        else item).brokerOrderId = item.brokerOrderId := by
      intro item
      split <;> rfl
    unfold getBrokerOrder at h ⊢
    dsimp only
    rw [List.find?_map]
    simp only [Function.comp_def, hkeys, h, Option.map_some]
    refine ⟨_, rfl, ?_⟩
    split <;> rfl

theorem exec_linked {brokerOrderId orderRequestId : UUID} (op : Op) (c : Choice) {s : State}
    (h : Linked brokerOrderId orderRequestId s) :
    Linked brokerOrderId orderRequestId (exec c op s).2 := by
  obtain ⟨brokerOrder, hget, hid⟩ := h
  cases op with
  | orders op =>
    by_cases hadd : ∃ item, op = .brokerOrdersAdd item
    · obtain ⟨item, rfl⟩ := hadd
      refine ⟨brokerOrder, ?_, hid⟩
      simp only [exec, Orders.exec, Orders.respond, getBrokerOrder, Orders.tick] at hget ⊢
      rw [List.find?_append, hget, Option.some_or]
    · have hsame := (Orders.exec_writes c.orders op s.store).brokerOrders
        fun item heq => hadd ⟨item, heq⟩
      refine ⟨brokerOrder, ?_, hid⟩
      simp only [exec, getBrokerOrder] at hget ⊢
      rw [hsame, hget]
  | brokerOrdersUpdate other status synced updated =>
    obtain ⟨next, hnext, hsame⟩ := updateBrokerOrder_linked hget other status synced updated
    exact ⟨next, hnext, hsame.trans hid⟩
  | _ => exact ⟨brokerOrder, hget, hid⟩

theorem trace_row_kept {brokerOrderId orderRequestId : UUID} (code : Code α) {cs : Nat → Choice}
    {s : State} (h : Linked brokerOrderId orderRequestId s) (status : Option String)
    (synced updated : Option Time) (e : PyError) :
    ⟨.brokerOrdersUpdate brokerOrderId status synced updated, .error e⟩ ∉
      code.trace (Program.drawing exec) (cs, s) := by
  induction code generalizing cs s with
  | ret a => simp
  | raise e => simp
  | call op k ih =>
    rw [Program.trace_call, List.mem_cons, not_or]
    refine ⟨fun heq => ?_, ih _ (exec_linked op (cs 0) h)⟩
    have hop : .brokerOrdersUpdate brokerOrderId status synced updated = op :=
      congrArg Sigma.fst heq
    subst hop
    obtain ⟨brokerOrder, hget, -⟩ := h
    have hreply := eq_of_heq (Sigma.mk.inj heq).2
    simp only [Program.drawing, exec, updateBrokerOrder, hget, reduceCtorEq] at hreply

/-- What reading the clock and the rows leaves alone. -/
structure SameRows (s t : State) : Prop where
  book : t.book = s.book
  appendEnabled : t.appendEnabled = s.appendEnabled
  orders : t.store.orders = s.store.orders
  brokerOrders : t.store.brokerOrders = s.store.brokerOrders

theorem run_syncOrderPostSubmit (svc : OrderSyncService) (brokerOrderId : UUID) (refresh : Bool)
    (afterHours : Option Bool) (cs : Nat → Choice) {s : State} {brokerOrder : BrokerOrderEntity}
    (hget : getBrokerOrder s.store brokerOrderId = some brokerOrder) {order : OrderRequestEntity}
    (horder : s.store.orders brokerOrder.orderRequestId = some order) :
    ∃ cs' t pre hours start, SameRows s t ∧
      (svc.syncOrderPostSubmit brokerOrderId refresh afterHours).run
        (Program.drawing exec) (cs, s) =
        (svc.syncOrder order brokerOrder refresh hours start).run (Program.drawing exec) (cs', t) ∧
      (svc.syncOrderPostSubmit brokerOrderId refresh afterHours).trace (Program.drawing exec)
          (cs, s) = pre ++
        (svc.syncOrder order brokerOrder refresh hours start).trace
          (Program.drawing exec) (cs', t) ∧
      ∀ step ∈ pre, ¬ step.1.Marks ∧ step.1.asks = false := by
  have hnow : ∀ (c : Orders.Choice) (t : Store),
      getBrokerOrder (Orders.exec c .now t).2 brokerOrderId = getBrokerOrder t brokerOrderId :=
    fun _ _ => rfl
  have hread : ∀ (c : Orders.Choice) (id : UUID) (t : Store),
      (Orders.exec c (.ordersGet id) t).1 = t.orders id := fun _ _ _ => rfl
  have horders : ∀ (c : Orders.Choice) (t : Store), (Orders.exec c .now t).2.orders = t.orders :=
    fun _ _ => rfl
  cases afterHours with
  | some hours =>
    simp only [OrderSyncService.syncOrderPostSubmit, OrderSyncService.resolveAfterHours, now,
      Program.bind_eq, Program.perform_bind, Program.ret_bind, Program.pure_eq, Program.run_call,
      Program.trace_call, Program.drawing, exec, hnow, hget, hread, horders, horder]
    refine ⟨_, _, [_, _, _], hours, _, ⟨?_, ?_, ?_, ?_⟩, rfl, rfl, ?_⟩
    all_goals first | rfl | simp [Op.Marks, Op.asks]
  | none =>
    simp only [OrderSyncService.syncOrderPostSubmit, OrderSyncService.resolveAfterHours, now,
      Program.bind_eq, Program.perform_bind, Program.call_bind, Program.ret_bind, Program.pure_eq,
      Program.run_call, Program.trace_call, Program.drawing, exec, hnow, hget, hread, horders,
      horder]
    refine ⟨_, _, [_, _, _, _], _, _, ⟨?_, ?_, ?_, ?_⟩, rfl, rfl, ?_⟩
    all_goals first | rfl | simp [Op.Marks, Op.asks]

theorem SameRows.linked {s t : State} (h : SameRows s t) {brokerOrderId orderRequestId : UUID}
    (hs : Linked brokerOrderId orderRequestId s) : Linked brokerOrderId orderRequestId t := by
  obtain ⟨brokerOrder, hget, hid⟩ := hs
  refine ⟨brokerOrder, ?_, hid⟩
  rw [getBrokerOrder, h.brokerOrders]
  exact hget

theorem exec_missing {orderRequestId : UUID} (op : Op) (c : Choice) {s : State}
    (h : s.store.orders orderRequestId = none) :
    (exec c op s).2.store.orders orderRequestId = none := by
  rcases exec_order op c s orderRequestId with hsame | ⟨_, _, _, _, _, _, -, hcurrent, -⟩
  · exact hsame.trans h
  · rw [h] at hcurrent
    cases hcurrent

section Calls

variable (svc : OrderSyncService) (brokerOrderId : UUID)

def Call.code (call : Call) : Code SyncOrderResult :=
  svc.syncOrderPostSubmit brokerOrderId call.refresh call.afterHours

def callStep (s : State) (call : Call) : State :=
  ((call.code svc brokerOrderId).run (Program.drawing exec) (call.choices, s)).2.2

/-- The call reads the fills. -/
def asked (s : State) (call : Call) : Bool :=
  ((call.code svc brokerOrderId).trace (Program.drawing exec) (call.choices, s)).any (·.1.asks)

/-- The quantity the broker reported to the last call that asked, `q` if none did. -/
def lastAsked : State → ℚ → List Call → ℚ
  | _, q, [] => q
  | s, q, call :: calls =>
    lastAsked (callStep svc brokerOrderId s call)
      (if asked svc brokerOrderId s call then call.cumulative else q) calls

/-- From call to call neither the quantity nor the value falls. -/
def Grows (q v : ℚ) : List Call → Prop
  | [] => True
  | call :: calls => q ≤ call.cumulative ∧ v ≤ call.cumulative * call.average ∧
      Grows call.cumulative (call.cumulative * call.average) calls

variable {brokerOrderId}

theorem run_accounts {quiet : Prop} {q v : ℚ} (calls : List Call) {s : State}
    (henabled : s.appendEnabled = true) (hbehind : Behind q v s.book.cumulative)
    (hconserved : ∃ discarded abandoned, Conserved quiet s.book discarded abandoned)
    (hreported : ∀ call ∈ calls, call.Reported) (hgrows : Grows q v calls)
    (hquiet : quiet → ∀ call ∈ calls, call.FeesReturn) :
    let last := Runs.run (callStep svc brokerOrderId) s calls
    (∃ discarded abandoned, Conserved quiet last.book discarded abandoned) ∧
      lastQuantity last.book.cumulative =
        lastAsked svc brokerOrderId s (lastQuantity s.book.cumulative) calls := by
  induction calls generalizing q v s with
  | nil => exact ⟨hconserved, rfl⟩
  | cons call calls ih =>
    obtain ⟨hq, hv, hgrows⟩ := hgrows
    obtain ⟨hpositive, hreports⟩ := hreported call (by simp)
    have hstart : FillsInvariant quiet call.cumulative call.average s :=
      ⟨henabled, hbehind.mono hq hv, hconserved⟩
    obtain ⟨hnext, hquantity⟩ := run_invariant hpositive hreports
      (fun h => hquiet h call (by simp)) (call.code svc brokerOrderId) hstart
    obtain ⟨hlast, hasked⟩ := ih hnext.enabled hnext.behind hnext.conserved
      (fun c hc => hreported c (List.mem_cons_of_mem call hc)) hgrows
      fun h c hc => hquiet h c (List.mem_cons_of_mem call hc)
    refine ⟨hlast, hasked.trans ?_⟩
    rw [lastAsked, hquantity]
    rfl

theorem callStep_linked {orderRequestId : UUID} (call : Call) {s : State}
    (h : Linked brokerOrderId orderRequestId s) :
    Linked brokerOrderId orderRequestId (callStep svc brokerOrderId s call) :=
  (Program.only_true (call.code svc brokerOrderId)).run_keeps (Program.drawing exec)
    (I := fun w : (Nat → Choice) × State => Linked brokerOrderId orderRequestId w.2)
    (fun op w _ hw => exec_linked op (w.1 0) hw) (call.choices, s) h

theorem asked_of_filledBySnapshots {orderRequestId : UUID} {call : Call} {s : State}
    (hlinked : Linked brokerOrderId orderRequestId s)
    (hbefore : ¬ FilledBySnapshots orderRequestId s)
    (hafter : FilledBySnapshots orderRequestId (callStep svc brokerOrderId s call)) :
    asked svc brokerOrderId s call = true := by
  obtain ⟨brokerOrder, hget, rfl⟩ := hlinked
  cases horder : s.store.orders brokerOrder.orderRequestId with
  | none =>
    have hmissing := (Program.only_true (call.code svc brokerOrderId)).run_keeps
      (Program.drawing exec)
      (I := fun w : (Nat → Choice) × State => w.2.store.orders brokerOrder.orderRequestId = none)
      (fun op w _ hw => exec_missing op (w.1 0) hw) (call.choices, s) horder
    obtain ⟨row, hrow, -⟩ := hafter
    exact nomatch hmissing.symm.trans hrow
  | some order =>
    obtain ⟨cs, t, pre, hours, start, hsame, hrun, htrace, -⟩ := run_syncOrderPostSubmit svc
      brokerOrderId call.refresh call.afterHours call.choices hget horder
    have hlinked : Linked brokerOrderId brokerOrder.orderRequestId t :=
      hsame.linked ⟨brokerOrder, hget, rfl⟩
    by_cases hmarked : ∃ step ∈ (svc.syncOrder order brokerOrder call.refresh hours start).trace
        (Program.drawing exec) (cs, t), step.1.Marks
    · obtain ⟨step, hstep, hasks⟩ | ⟨status, synced, updated, e, hlost⟩ :=
        (svc.syncOrder_asks order brokerOrder call.refresh hours start).run (Program.drawing exec)
          (cs, t) hmarked
      · unfold asked Call.code
        rw [htrace, List.any_eq_true]
        exact ⟨step, List.mem_append_right pre hstep, hasks⟩
      · rw [getBrokerOrder_id hget] at hlost
        exact (trace_row_kept _ hlinked status synced updated e hlost).elim
    · refine absurd hafter ?_
      unfold callStep Call.code
      rw [hrun]
      refine Program.run_keeps_of_trace (Program.drawing exec) (P := fun op => ¬ op.Marks)
        (I := fun w => ¬ FilledBySnapshots brokerOrder.orderRequestId w.2) _ (cs, t)
        (fun step hstep hmark => hmarked ⟨step, hstep, hmark⟩)
        (fun op w hop hw => exec_not_filledBySnapshots hop (w.1 0) _ w.2 hw) ?_
      rintro ⟨row, hrow, hfilled⟩
      rw [hsame.orders] at hrow
      exact hbefore ⟨row, hrow, hfilled⟩

theorem callStep_filled {orderRequestId : UUID} (call : Call) {s : State}
    (hlinked : Linked brokerOrderId orderRequestId s) (hfilled : Filled orderRequestId s) :
    Filled orderRequestId (callStep svc brokerOrderId s call) ∧
      asked svc brokerOrderId s call = false := by
  obtain ⟨brokerOrder, hget, rfl⟩ := hlinked
  obtain ⟨order, horder, hstatus⟩ := hfilled
  obtain ⟨cs, t, pre, hours, start, hsame, hrun, htrace, hpre⟩ := run_syncOrderPostSubmit svc
    brokerOrderId call.refresh call.afterHours call.choices hget horder
  have honly := svc.syncOrder_filled order hstatus brokerOrder call.refresh hours start
  constructor
  · unfold callStep Call.code
    rw [hrun]
    refine honly.run_keeps (Program.drawing exec)
      (I := fun w => Filled brokerOrder.orderRequestId w.2) ?_ (cs, t) ?_
    · rintro op w ⟨id, status, synced, updated, rfl⟩ ⟨row, hrow, hrowStatus⟩
      refine ⟨row, ?_, hrowStatus⟩
      simp only [Program.drawing, exec]
      rw [updateBrokerOrder_orders]
      exact hrow
    · refine ⟨order, ?_, hstatus⟩
      rw [hsame.orders]
      exact horder
  · unfold asked Call.code
    rw [htrace, List.any_eq_false]
    intro step hstep
    rcases List.mem_append.mp hstep with hstep | hstep
    · simp [(hpre step hstep).2]
    · obtain ⟨id, status, synced, updated, hop⟩ := honly.trace (Program.drawing exec) (cs, t) step
        hstep
      simp [hop, Op.asks]

theorem run_filled {orderRequestId : UUID} (calls : List Call) {s : State} (q : ℚ)
    (hlinked : Linked brokerOrderId orderRequestId s) (hfilled : Filled orderRequestId s) :
    Filled orderRequestId (Runs.run (callStep svc brokerOrderId) s calls) ∧
      lastAsked svc brokerOrderId s q calls = q := by
  induction calls generalizing s with
  | nil => exact ⟨hfilled, rfl⟩
  | cons call calls ih =>
    obtain ⟨hnext, hasked⟩ := callStep_filled svc call hlinked hfilled
    obtain ⟨hlast, hquantity⟩ := ih (callStep_linked svc call hlinked) hnext
    refine ⟨hlast, ?_⟩
    rw [lastAsked, hasked]
    exact hquantity

theorem lastAsked_append (before after : List Call) (s : State) (q : ℚ) :
    lastAsked svc brokerOrderId s q (before ++ after) =
      lastAsked svc brokerOrderId (Runs.run (callStep svc brokerOrderId) s before)
        (lastAsked svc brokerOrderId s q before) after := by
  induction before generalizing s q with
  | nil => rfl
  | cons call before ih => exact ih _ _

theorem run_linked {orderRequestId : UUID} (calls : List Call) {s : State}
    (h : Linked brokerOrderId orderRequestId s) :
    Linked brokerOrderId orderRequestId (Runs.run (callStep svc brokerOrderId) s calls) := by
  induction calls generalizing s with
  | nil => exact h
  | cons call calls ih => exact ih (callStep_linked svc call h)

theorem lastAsked_filledBySnapshots {orderRequestId : UUID} {start : State}
    (hlinked : Linked brokerOrderId orderRequestId start) (before : List Call) (call : Call)
    (after : List Call)
    (hbefore : ¬ Filled orderRequestId (Runs.run (callStep svc brokerOrderId) start before))
    (hafter : FilledBySnapshots orderRequestId
      (Runs.run (callStep svc brokerOrderId) start (before ++ [call]))) :
    lastAsked svc brokerOrderId start 0 (before ++ call :: after) = call.cumulative ∧
      Filled orderRequestId
        (Runs.run (callStep svc brokerOrderId) start (before ++ call :: after)) := by
  have hmiddle := run_linked svc before hlinked
  rw [Runs.run_append] at hafter
  have hasked : asked svc brokerOrderId _ call = true := asked_of_filledBySnapshots svc hmiddle
    (fun ⟨row, hrow, hstatus, _⟩ => hbefore ⟨row, hrow, hstatus⟩) hafter
  obtain ⟨row, hrow, hstatus, -⟩ := hafter
  obtain ⟨hlast, hquantity⟩ := run_filled svc after call.cumulative
    (callStep_linked svc call hmiddle) ⟨row, hrow, hstatus⟩
  rw [lastAsked_append, lastAsked, hasked, Runs.run_append]
  exact ⟨hquantity, hlast⟩

/-- The stored fills, with those discarded for a stored key and those abandoned to a fee policy
that raised, add up to what the broker reported to the last call that asked. When linked rows
filled the order, that is the call that filled it, and the order stays filled. -/
theorem syncOrderPostSubmit_accounts (brokerOrderId orderRequestId : UUID) (start : State)
    (calls : List Call) (henabled : start.appendEnabled = true)
    (hempty : start.book = { nextId := start.book.nextId })
    (hlinked : Linked brokerOrderId orderRequestId start)
    (hreported : ∀ call ∈ calls, call.Reported) (hgrows : Grows 0 0 calls) :
    let last := Runs.run (callStep svc brokerOrderId) start calls
    let total := lastAsked svc brokerOrderId start 0 calls
    (∃ discarded abandoned : List Increment,
      quantity last.book.stored + quantity discarded + quantity abandoned = total ∧
      (quantity last.book.stored = total ↔ discarded = [] ∧ abandoned = []) ∧
      (∀ d ∈ discarded, ∃ e ∈ last.book.stored, SameKey d e) ∧
      ((∀ call ∈ calls, call.FeesReturn) → abandoned = []) ∧
      last.book.ledger = last.book.fillEvents) ∧
    ∀ before call after, calls = before ++ call :: after →
      ¬ Filled orderRequestId (Runs.run (callStep svc brokerOrderId) start before) →
      FilledBySnapshots orderRequestId
        (Runs.run (callStep svc brokerOrderId) start (before ++ [call])) →
      total = call.cumulative ∧ Filled orderRequestId last := by
  intro last total
  constructor
  · have hquantity : lastQuantity start.book.cumulative = 0 := by rw [hempty]; rfl
    have hbehind : Behind 0 0 start.book.cumulative := by
      rw [hempty]
      exact ⟨le_refl _, le_refl _⟩
    have hconserved : ∃ discarded abandoned,
        Conserved (∀ call ∈ calls, call.FeesReturn) start.book discarded abandoned := by
      rw [hempty]
      exact ⟨[], [], by simp [FillBook.stored, lastQuantity], by simp [FillBook.stored], by simp,
        fun _ => rfl, rfl⟩
    obtain ⟨⟨discarded, abandoned, h⟩, htotal⟩ := run_accounts svc calls henabled hbehind
      hconserved hreported hgrows id
    rw [hquantity] at htotal
    have hsum := h.total.trans htotal
    have hlost := quantity_pos fun i hi => h.positive i (List.mem_append_right _ hi)
    rw [quantity_append, List.append_eq_nil_iff] at hlost
    refine ⟨discarded, abandoned, hsum, ?_, h.keys, h.abandons, h.ledger⟩
    rw [← hlost.2]
    constructor <;> intro heq <;> linarith
  · rintro before call after rfl hbefore hafter
    exact lastAsked_filledBySnapshots svc hlinked before call after hbefore hafter

end Calls

/-! A sell of ten shares that the broker has executed. -/

def tenSold (status : OrderStatus) : OrderRequestEntity where
  orderRequestId := 1
  accountId := 2
  instrumentId := 3
  clientOrderId := "C-1"
  idempotencyKey := "K-1"
  correlationId := "R-1"
  side := .sell
  orderType := .limit
  requestedQuantity := 10
  status := status

def tenSoldAtBroker : State where
  store := { Store.holding (tenSold .submitted) 0 with
    nextId := 10
    brokerOrders := [{
      brokerOrderId := 4
      orderRequestId := 1
      brokerName := "koreainvestment"
      brokerStatus := "submitted"
      brokerNativeOrderId := some "0000117057" }] }
  appendEnabled := true

def plainService : OrderSyncService where
  reconciliation := false
  text := fun _ => ""
  errorText := PyError.className

/-- The broker reports ten shares; `linked` are the rows linked to the order and `status` is what
`get_order_status` answers. -/
def tenReported (linked : List BrokerFillSnapshotEntity) (status : OrderStatus) : Call where
  cumulative := 10
  average := 70000
  afterHours := some false
  choices := fun _ => {
    orders := {
      elapsed := 0
      broker := .error (.other "Unreachable")
      rest := fun _ => .error (.other "Unreachable") }
    fillSnapshots := .ok linked
    instrument := .ok (some "005930")
    latestBefore := .ok none
    earliestAfter := .ok none
    latestPositions := .ok []
    ordersList := .ok []
    orderStatus := .ok { status := status }
    unknownState := .ok { status := .submitted }
    snapshotRefresh := .ok ()
    fills := {
      observations := .ok [{
        brokerName := .koreaInvestment
        brokerOrderId := "0000117057"
        symbol := "005930"
        side := .sell
        fillQuantity := 10
        fillPrice := 70000
        fillTimestamp := 100 }]
      now := 100
      feeTaxPolicy := none } }

theorem tenReported_reported (linked : List BrokerFillSnapshotEntity) (status : OrderStatus) :
    (tenReported linked status).Reported := by
  refine ⟨by norm_num [tenReported], fun _ => ⟨_, _, rfl, ?_⟩⟩
  simp [tenReported]

theorem tenReported_grows (linked : List BrokerFillSnapshotEntity) (status : OrderStatus) :
    Grows 0 0 [tenReported linked status] := by
  norm_num [Grows, tenReported]

theorem tenSoldAtBroker_linked : Linked 4 1 tenSoldAtBroker := ⟨_, rfl, rfl⟩

/-- Linked rows show all ten shares. -/
def linkedRows : Call := tenReported [{ filledQuantity := 10 }] .submitted

theorem linkedRows_fill :
    FilledBySnapshots 1 (Runs.run (callStep plainService 4) tenSoldAtBroker
      ([] ++ [linkedRows])) := by
  have hfilled : ((Runs.run (callStep plainService 4) tenSoldAtBroker
      ([] ++ [linkedRows])).store.orders 1).map (fun row => (row.status, row.statusReasonCode)) =
      some (.filled, some fillSnapshotReason) := by
    decide +kernel
  obtain ⟨row, hrow, hpair⟩ := Option.map_eq_some_iff.mp hfilled
  exact ⟨row, hrow, congrArg Prod.fst hpair, congrArg Prod.snd hpair⟩

theorem tenSoldAtBroker_open : ¬ Filled 1 tenSoldAtBroker := by
  rintro ⟨row, hrow, hstatus⟩
  have hrow' : some (tenSold .submitted) = some row := hrow
  rw [← Option.some.inj hrow'] at hstatus
  cases hstatus

theorem syncOrderPostSubmit_accounts_linkedRows :
    lastAsked plainService 4 tenSoldAtBroker 0 [linkedRows] = linkedRows.cumulative ∧
      Filled 1 (Runs.run (callStep plainService 4) tenSoldAtBroker [linkedRows]) := by
  have hreported : ∀ call ∈ [linkedRows], call.Reported := by
    simp only [List.mem_singleton, forall_eq]
    exact tenReported_reported _ _
  exact (syncOrderPostSubmit_accounts plainService 4 1 tenSoldAtBroker [linkedRows] rfl rfl
    tenSoldAtBroker_linked hreported (tenReported_grows _ _)).2 [] linkedRows [] rfl
    tenSoldAtBroker_open linkedRows_fill

theorem filled_by_status_without_fills :
    let call := tenReported [] .filled
    let last := Runs.run (callStep plainService 4) tenSoldAtBroker [call]
    (call.Reported ∧ Grows 0 0 [call]) ∧ (last.store.orders 1).map (·.status) = some .filled ∧
      quantity last.book.stored = 0 ∧ call.cumulative = 10 := by
  refine ⟨⟨tenReported_reported _ _, tenReported_grows _ _⟩, ?_, ?_, rfl⟩ <;> decide +kernel

end AgentTrading.Sync
