import AgentTrading.RealizedPnl.Flag

/-! A write of `apply_fill` that raises. The state is put back by hand; an event that stands
already when the day's row raises is not. -/
namespace AgentTrading.RealizedPnl
open Domain Library

/-- The writes of an accepted fill. -/
inductive LedgerWrite where
  | upsertState
  | addEvent
  | updateAggregate
  deriving DecidableEq, Repr

/-- This write raises, and no other call. -/
def LedgerWrite.fault (write : LedgerWrite) (e : PyError) : ApplyFaults :=
  match write with
  | upsertState => { upsertState := some e }
  | addEvent => { addEvent := some e }
  | updateAggregate => { updateAggregate := some e }

/-- Nothing is left of the fill but the mark on its state and an item in the queue, and it is
not taken for applied. -/
structure LeavesNothing (n : Numerics) (before after : Ledger) (fill : NormalizedFill) : Prop where
  events : after.events = before.events
  aggregates : after.aggregates = before.aggregates
  states : ∃ reason, after.states =
    Function.update before.states (fill.accountId, fill.instrumentId)
      (some ((markedState fill.accountId fill.instrumentId
        (before.states (fill.accountId, fill.instrumentId)) reason).stored n))
  queue : ∃ item, item.accountId = fill.accountId ∧ item.instrumentId = fill.instrumentId ∧
    item.resolvedByComputationRunId = none ∧ after.queue = before.queue ++ [item]
  redelivered : (checkDuplicate after
    (after.states (fill.accountId, fill.instrumentId)) fill).1 = false

/-- The fill is a sale that the engine accepts in its order. -/
def acceptedSale (n : Numerics) (deriveEventId : UUID → UUID) (ledger : Ledger)
    (fill : NormalizedFill) : Prop :=
  let state := ledger.states (fill.accountId, fill.instrumentId)
  fill.side = .sell ∧ outOfOrder state fill = false ∧
    ∃ accepted, applyFillToCostBasis n deriveEventId state fill 0 = .ok accepted

section
variable {n : Numerics} {deriveEventId : UUID → UUID} {ledger : Ledger}

theorem checkDuplicate_marked {after : Ledger} {fill : NormalizedFill}
    {state : Option PositionCostBasisStateEntity} {reason : String}
    (hevents : after.events fill.fillEventId = ledger.events fill.fillEventId) :
    (checkDuplicate after (some ((markedState fill.accountId fill.instrumentId state
      reason).stored n)) fill).1 = (checkDuplicate ledger state fill).1 := by
  unfold checkDuplicate
  cases fill.side with
  | sell => rw [hevents]
  | buy =>
    cases state with
    | none => rfl
    | some row => rfl

/-- What `requireRecompute` writes when nothing raises. -/
theorem requireRecompute_writes {faults : ApplyFaults} (hqueue : faults.addQueueItem = none)
    (hmark : faults.markState = none) (hrun : faults.updateRun = none) (ledger : Ledger)
    (run : RealizedPnlComputationRunEntity) (fill : NormalizedFill)
    {state : Option PositionCostBasisStateEntity} (reasonCode reason : String)
    (hkeyed : ∀ row, state = some row → (row.accountId, row.instrumentId) =
      (fill.accountId, fill.instrumentId)) :
    let after := (requireRecompute n faults ledger run fill state reasonCode reason).2
    after.events = ledger.events ∧ after.aggregates = ledger.aggregates ∧
      after.states = Function.update ledger.states (fill.accountId, fill.instrumentId)
        (some ((markedState fill.accountId fill.instrumentId state reason).stored n)) ∧
      ∃ item, item.accountId = fill.accountId ∧ item.instrumentId = fill.instrumentId ∧
        item.resolvedByComputationRunId = none ∧ after.queue = ledger.queue ++ [item] := by
  unfold requireRecompute
  rw [hqueue, hmark, hrun]
  dsimp only
  refine ⟨rfl, rfl, ?_, _, rfl, rfl, rfl, rfl⟩
  rw [finishApply_states, ← markedState_key reason hkeyed]
  rfl

theorem accepts_anyRun {state : Option PositionCostBasisStateEntity} {fill : NormalizedFill}
    (runId runId' : UUID)
    (h : ∃ accepted, applyFillToCostBasis n deriveEventId state fill runId = .ok accepted) :
    ∃ accepted, applyFillToCostBasis n deriveEventId state fill runId' = .ok accepted := by
  obtain ⟨accepted, haccepted⟩ := h
  rw [applyFillToCostBasis_withRun _ _ runId, haccepted]
  exact ⟨_, rfl⟩

section Fault

variable {write : LedgerWrite} {e : PyError} {run : RealizedPnlComputationRunEntity}
  {fill : NormalizedFill} {res : ApplyFillResult}

@[simp] theorem fault_addQueueItem : (write.fault e).addQueueItem = none := by
  cases write <;> rfl

@[simp] theorem fault_markState : (write.fault e).markState = none := by
  cases write <;> rfl

@[simp] theorem fault_updateRun : (write.fault e).updateRun = none := by
  cases write <;> rfl

@[simp] theorem fault_addRun : (write.fault e).addRun = none := by
  cases write <;> rfl

@[simp] theorem fault_lookup : (write.fault e).lookup = none := by
  cases write <;> rfl

/-- A ledger with at most another state of the fill's key, once it is marked over the old state. -/
theorem requireRecompute_leavesNothing (write : LedgerWrite) (e : PyError) {partial' : Ledger}
    (reasonCode reason : String)
    (hevents : partial'.events = ledger.events)
    (haggregates : partial'.aggregates = ledger.aggregates)
    (hqueue : partial'.queue = ledger.queue)
    (hstates : ∀ row, Function.update partial'.states (fill.accountId, fill.instrumentId) row =
      Function.update ledger.states (fill.accountId, fill.instrumentId) row)
    (hduplicate : (checkDuplicate ledger
      (ledger.states (fill.accountId, fill.instrumentId)) fill).1 = false) :
    LeavesNothing n ledger (requireRecompute n (write.fault e) partial' run fill
      (ledger.states (fill.accountId, fill.instrumentId)) reasonCode reason).2 fill := by
  have hkeyed : ∀ row, ledger.states (fill.accountId, fill.instrumentId) = some row →
      (row.accountId, row.instrumentId) = (fill.accountId, fill.instrumentId) :=
    fun row hrow => ledger.states_keyed _ row hrow
  have hqueueFault : (write.fault e).addQueueItem = none := fault_addQueueItem
  obtain ⟨hafterEvents, hafterAggregates, hafterStates, item, haccount, hinstrument, hopen,
    hafterQueue⟩ := requireRecompute_writes (n := n) hqueueFault fault_markState fault_updateRun
      partial' run fill reasonCode reason hkeyed
  rw [hstates] at hafterStates
  exact {
    events := hafterEvents.trans hevents
    aggregates := hafterAggregates.trans haggregates
    states := ⟨reason, hafterStates⟩
    queue := ⟨item, haccount, hinstrument, hopen, by rw [hafterQueue, hqueue]⟩
    redelivered := by
      have hsame := congrFun (hafterEvents.trans hevents) fill.fillEventId
      rw [hafterStates, Function.update_self, checkDuplicate_marked hsame]
      exact hduplicate }

/-- A day's row that raises leaves the event that was put before it. -/
theorem recordFill_leaves_event {row : PositionCostBasisStateEntity}
    {event : RealizedPnlEventEntity} {state : Option PositionCostBasisStateEntity}
    (hfresh : ledger.events event.fillEventId = none) :
    (recordFill n (LedgerWrite.updateAggregate.fault e) ledger run fill state row
      (some event)).2.events event.fillEventId = some (event.stored n) := by
  have hadd : addEventFault (LedgerWrite.updateAggregate.fault e) (ledger.upsertState n row)
      event = none := by
    unfold addEventFault
    rw [show (ledger.upsertState n row).events event.fillEventId = none from hfresh]
    rfl
  have hwrite : writeFill n (LedgerWrite.updateAggregate.fault e) ledger row (some event) =
      (some e, (ledger.upsertState n row).putEvent n event) := by
    unfold writeFill
    dsimp only [LedgerWrite.fault]
    rw [show addEventFault { updateAggregate := some e } (ledger.upsertState n row) event = none
      from hadd]
  unfold recordFill
  rw [hwrite]
  exact Function.update_self ..

theorem recordFill_leavesNothing_iff {row : PositionCostBasisStateEntity}
    {event : Option RealizedPnlEventEntity} (hfrom : FromFill fill run.computationRunId row event)
    (hduplicate : (checkDuplicate ledger
      (ledger.states (fill.accountId, fill.instrumentId)) fill).1 = false)
    (hres : (recordFill n (write.fault e) ledger run fill
      (ledger.states (fill.accountId, fill.instrumentId)) row event).1 = .ok res)
    (hstatus : res.status = .recomputeRequired) :
    LeavesNothing n ledger (recordFill n (write.fault e) ledger run fill
        (ledger.states (fill.accountId, fill.instrumentId)) row event).2 fill ↔
      ¬(write = .updateAggregate ∧ fill.side = .sell) := by
  have hupsert : (ledger.upsertState n row).states = Function.update ledger.states
      (fill.accountId, fill.instrumentId) (some (row.stored n)) := by
    rw [← hfrom.account, ← hfrom.instrument]
    rfl
  have hupserted : ∀ marked, Function.update (ledger.upsertState n row).states
      (fill.accountId, fill.instrumentId) marked =
        Function.update ledger.states (fill.accountId, fill.instrumentId) marked := by
    intro marked
    rw [hupsert, Function.update_idem]
  cases write with
  | upsertState =>
    refine iff_of_true ?_ fun h => nomatch h.1
    exact requireRecompute_leavesNothing .upsertState e _ _ rfl rfl rfl
      (fun _ => rfl) hduplicate
  | addEvent =>
    cases event with
    | none =>
      cases hres
      cases hstatus
    | some event =>
      refine iff_of_true ?_ fun h => nomatch h.1
      exact requireRecompute_leavesNothing .addEvent e _ _ rfl rfl rfl hupserted
        hduplicate
  | updateAggregate =>
    cases event with
    | none =>
      cases hres
      cases hstatus
    | some event =>
      have hside : fill.side = .sell := hfrom.isSale.mp rfl
      have hfill : event.fillEventId = fill.fillEventId := (hfrom.copies event rfl).2.2.1
      have hfresh : ledger.events event.fillEventId = none := by
        unfold checkDuplicate at hduplicate
        rw [hside] at hduplicate
        rw [hfill]
        exact Option.isSome_eq_false_iff.mp hduplicate |> Option.isNone_iff_eq_none.mp
      apply iff_of_false
      · intro hnothing
        have hleft := congrFun hnothing.events event.fillEventId
        rw [recordFill_leaves_event hfresh, hfresh] at hleft
        cases hleft
      · exact fun h => h ⟨rfl, hside⟩

theorem applyNormalized_leavesNothing_iff
    (hres : (applyNormalized n deriveEventId (write.fault e) ledger run fill).1 = .ok res)
    (hstatus : res.status = .recomputeRequired) :
    LeavesNothing n ledger
        (applyNormalized n deriveEventId (write.fault e) ledger run fill).2 fill ↔
      ¬(write = .updateAggregate ∧ acceptedSale n deriveEventId ledger fill) := by
  rcases applyNormalized_cases n deriveEventId (write.fault e) ledger run fill with
    ⟨-, run', result, hskipped, hafter⟩ | ⟨hduplicate, hstopped, code, text, hafter⟩ |
      ⟨hduplicate, hlate, row, event, happly, hafter⟩
  · rw [hafter] at hres
    cases hstatus.symm.trans ((finishApply_status hres).trans hskipped)
  · rw [hafter]
    apply iff_of_true
    · exact requireRecompute_leavesNothing write e _ _ rfl rfl rfl (fun _ => rfl) hduplicate
    · rintro ⟨-, -, horder, haccepts⟩
      rcases hstopped with hlate | ⟨engineError, herror⟩
      · exact Bool.false_ne_true (horder.symm.trans hlate)
      · obtain ⟨accepted, haccepted⟩ := accepts_anyRun 0 run.computationRunId haccepts
        cases herror.symm.trans haccepted
  · have hengine := accepts_anyRun run.computationRunId 0 ⟨_, happly⟩
    rw [hafter] at hres ⊢
    rw [recordFill_leavesNothing_iff (applyFillToCostBasis_fromFill happly) hduplicate hres
      hstatus]
    unfold acceptedSale
    rw [and_iff_left (show _ ∧ _ from ⟨hlate, hengine⟩)]

theorem leavesNothing_addRun (runType : ComputationRunType) (accountId : Option UUID)
    (after : Ledger) :
    LeavesNothing n (ledger.addRun runType accountId).2 after fill ↔
      LeavesNothing n ledger after fill := by
  constructor
  · intro h
    exact ⟨h.events, h.aggregates, h.states, h.queue, h.redelivered⟩
  · intro h
    exact ⟨h.events, h.aggregates, h.states, h.queue, h.redelivered⟩

end Fault

end

/-- After a write that raises, a call that asks for a recompute leaves nothing of the fill unless
it was the day's row of an accepted sale. -/
theorem applyFill_leavesNothing_iff (n : Numerics) (deriveEventId : UUID → UUID) (t : Trades)
    (ledger : Ledger) (fillEvent : FillEventEntity) (lineage : FillLineage)
    (hlineage : t.resolveLineage fillEvent = .ok lineage) (write : LedgerWrite) (e : PyError)
    (res : ApplyFillResult)
    (hres : (applyFill n deriveEventId t (write.fault e) ledger fillEvent).1 = .ok res)
    (hstatus : res.status = .recomputeRequired) :
    LeavesNothing n ledger (applyFill n deriveEventId t (write.fault e) ledger fillEvent).2
        (buildNormalizedFill fillEvent lineage) ↔
      ¬(write = .updateAggregate ∧
        acceptedSale n deriveEventId ledger (buildNormalizedFill fillEvent lineage)) := by
  unfold applyFill at hres ⊢
  rw [fault_addRun, fault_lookup, hlineage] at hres ⊢
  dsimp only at hres ⊢
  rw [← leavesNothing_addRun .realtimeIncremental none]
  exact applyNormalized_leavesNothing_iff hres hstatus

/-! A purchase of three and a sale of one, of account 1 in instrument 2. -/

def boughtAndSold : Trades where
  orders :=
    [{ orderRequestId := 0, accountId := 1, instrumentId := 2, clientOrderId := "",
       idempotencyKey := "", correlationId := "", side := .buy, orderType := .limit,
       requestedQuantity := 3, status := .filled },
     { orderRequestId := 1, accountId := 1, instrumentId := 2, clientOrderId := "",
       idempotencyKey := "", correlationId := "", side := .sell, orderType := .limit,
       requestedQuantity := 1, status := .filled }]
  brokerOrders :=
    [{ brokerOrderId := 0, orderRequestId := 0, brokerName := "koreainvestment",
       brokerStatus := "filled" },
     { brokerOrderId := 1, orderRequestId := 1, brokerName := "koreainvestment",
       brokerStatus := "filled" }]
  fillEvents := []
  orders_nodup := by decide
  brokerOrders_nodup := by decide
  fillEvents_nodup := List.nodup_nil

def boughtFill : FillEventEntity where
  fillEventId := 0
  brokerOrderId := 0
  fillTimestamp := 100
  fillPrice := 100
  fillQuantity := 3
  sourceChannel := "rest"

def soldFill : FillEventEntity where
  fillEventId := 1
  brokerOrderId := 1
  fillTimestamp := 200
  fillPrice := 120
  fillQuantity := 1
  sourceChannel := "rest"

/-- The account holds the purchase. -/
def holding : Ledger := (applyFill inMemory id boughtAndSold {} Ledger.empty boughtFill).2

theorem applyFill_leavesNothing_iff_failedEvent :
    LeavesNothing inMemory holding (applyFill inMemory id boughtAndSold
        (LedgerWrite.addEvent.fault (.other "ConnectionDoesNotExistError")) holding soldFill).2
      (buildNormalizedFill soldFill ⟨1, 2, 1, .sell⟩) := by
  have hfailed : ((applyFill inMemory id boughtAndSold
      (LedgerWrite.addEvent.fault (.other "ConnectionDoesNotExistError")) holding soldFill).1.map
        (·.status)) = .ok .recomputeRequired := by decide +kernel
  obtain ⟨res, hres, hstatus⟩ := map_eq_ok.mp hfailed
  apply (applyFill_leavesNothing_iff inMemory id boughtAndSold holding soldFill ⟨1, 2, 1, .sell⟩ rfl
    .addEvent (.other "ConnectionDoesNotExistError") res hres hstatus).mpr
  exact fun h => nomatch h.1

/-- The day's row of a sale raises: the event stays, the holding is put back, and the sale,
delivered again, is skipped. -/
theorem failedDayRow_skipped :
    let failed := applyFill inMemory id boughtAndSold
      (LedgerWrite.updateAggregate.fault (.other "ConnectionDoesNotExistError")) holding soldFill
    let again := applyFill inMemory id boughtAndSold {} failed.2 soldFill
    failed.1.map (·.status) = .ok .recomputeRequired ∧
      ¬LeavesNothing inMemory holding failed.2 (buildNormalizedFill soldFill ⟨1, 2, 1, .sell⟩) ∧
      again.1.map (·.status) = .ok .skippedDuplicate ∧
      (again.2.states (1, 2)).map (·.quantity) = some 3 ∧
      (again.2.events 1).map (·.sellQuantity) = some 1 ∧
      again.2.aggregates (1, 2, toKstTradeDate 200) = none := by
  refine ⟨by decide +kernel, ?_, by decide +kernel⟩
  intro hnothing
  have hevent := congrArg Option.isSome (congrFun hnothing.events 1)
  revert hevent
  decide +kernel

end AgentTrading.RealizedPnl
