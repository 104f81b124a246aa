import Mathlib.Logic.Function.Basic
import AgentTrading.RealizedPnl.Trades

/-! The realized-PnL ledger tables and `RealizedPnlLedgerService.apply_fill`. A decimal is
stored, and comes back, as its column keeps it. -/
namespace AgentTrading.RealizedPnl
open Domain

structure RealizedPnlDailyAggregateEntity where
  accountId : UUID
  instrumentId : UUID
  tradeDate : Int
  realizedPnlNetSum : ℚ
  sellEventCount : Nat
  computationRunId : UUID
  buyAmountSum : ℚ := 0
  sellAmountSum : ℚ := 0
  feeTaxSum : ℚ := 0
  deriving DecidableEq

inductive ComputationRunType where
  | realtimeIncremental
  | backfillReplay
  deriving DecidableEq, Repr

inductive ComputationRunStatus where
  | running
  | completed
  | failed
  deriving DecidableEq, Repr

structure RealizedPnlComputationRunEntity where
  computationRunId : UUID
  runType : ComputationRunType
  status : ComputationRunStatus
  fillsApplied : Nat := 0
  fillsSkippedDuplicate : Nat := 0
  fillsReplayed : Nat := 0
  anomaliesDetected : Nat := 0
  accountId : Option UUID := none
  deriving DecidableEq

/-- An item is pending until a run resolves it. -/
structure RealizedPnlRecomputeQueueEntity where
  recomputeQueueId : UUID
  accountId : UUID
  instrumentId : UUID
  reasonCode : String
  triggeringFillEventId : Option UUID := none
  resolvedByComputationRunId : Option UUID := none
  deriving DecidableEq

/-- The ledger tables. An event is found by its fill, from which its identifier derives. -/
structure Ledger where
  states : UUID × UUID → Option PositionCostBasisStateEntity
  events : UUID → Option RealizedPnlEventEntity
  aggregates : UUID × UUID × Int → Option RealizedPnlDailyAggregateEntity
  queue : List RealizedPnlRecomputeQueueEntity
  runs : List RealizedPnlComputationRunEntity
  nextId : UUID
  states_keyed : ∀ key state, states key = some state →
    (state.accountId, state.instrumentId) = key

section
variable (n : Numerics)

def PositionCostBasisStateEntity.stored (state : PositionCostBasisStateEntity) :
    PositionCostBasisStateEntity :=
  { state with
    quantity := n.column state.quantity
    averageCost := n.column state.averageCost
    remainingBuyFeePool := n.column state.remainingBuyFeePool }

def RealizedPnlEventEntity.stored (event : RealizedPnlEventEntity) : RealizedPnlEventEntity :=
  { event with
    sellQuantity := n.column event.sellQuantity
    sellPrice := n.column event.sellPrice
    avgCostBasisBefore := n.column event.avgCostBasisBefore
    fee := n.column event.fee
    tax := n.column event.tax
    realizedPnlGross := n.column event.realizedPnlGross
    realizedPnlNet := n.column event.realizedPnlNet
    positionQuantityAfter := n.column event.positionQuantityAfter
    allocatedBuyFee := n.column event.allocatedBuyFee }

def RealizedPnlDailyAggregateEntity.stored (row : RealizedPnlDailyAggregateEntity) :
    RealizedPnlDailyAggregateEntity :=
  { row with
    realizedPnlNetSum := n.column row.realizedPnlNetSum
    buyAmountSum := n.column row.buyAmountSum
    sellAmountSum := n.column row.sellAmountSum
    feeTaxSum := n.column row.feeTaxSum }

end

namespace Ledger

def empty : Ledger where
  states := fun _ => none
  events := fun _ => none
  aggregates := fun _ => none
  queue := []
  runs := []
  nextId := 0
  states_keyed := fun _ _ h => (Option.some_ne_none _ h.symm).elim

def upsertState (n : Numerics) (ledger : Ledger) (state : PositionCostBasisStateEntity) :
    Ledger :=
  { ledger with
    states := Function.update ledger.states (state.accountId, state.instrumentId)
      (some (state.stored n))
    states_keyed := by
      intro key row hrow
      by_cases hkey : key = (state.accountId, state.instrumentId)
      · rw [hkey, Function.update_self] at hrow
        cases hrow
        exact hkey.symm
      · rw [Function.update_of_ne hkey] at hrow
        exact ledger.states_keyed key row hrow }

def putEvent (n : Numerics) (ledger : Ledger) (event : RealizedPnlEventEntity) : Ledger :=
  { ledger with
    events := Function.update ledger.events event.fillEventId (some (event.stored n)) }

def upsertAggregate (n : Numerics) (ledger : Ledger) (row : RealizedPnlDailyAggregateEntity) :
    Ledger :=
  { ledger with
    aggregates := Function.update ledger.aggregates
      (row.accountId, row.instrumentId, row.tradeDate) (some (row.stored n)) }

/-- A new run under way. -/
def addRun (ledger : Ledger) (runType : ComputationRunType) (accountId : Option UUID) :
    RealizedPnlComputationRunEntity × Ledger :=
  let run : RealizedPnlComputationRunEntity :=
    { computationRunId := ledger.nextId, runType := runType, status := .running,
      accountId := accountId }
  (run, { ledger with runs := ledger.runs ++ [run], nextId := ledger.nextId + 1 })

def updateRun (ledger : Ledger) (run : RealizedPnlComputationRunEntity) : Ledger :=
  { ledger with
    runs := ledger.runs.map fun row =>
      if row.computationRunId = run.computationRunId then run else row }

def addQueueItem (ledger : Ledger) (accountId instrumentId : UUID) (reasonCode : String)
    (triggeringFillEventId : UUID) : RealizedPnlRecomputeQueueEntity × Ledger :=
  let item : RealizedPnlRecomputeQueueEntity :=
    { recomputeQueueId := ledger.nextId, accountId := accountId, instrumentId := instrumentId,
      reasonCode := reasonCode, triggeringFillEventId := some triggeringFillEventId }
  (item, { ledger with queue := ledger.queue ++ [item], nextId := ledger.nextId + 1 })

end Ledger

def microsPerDay : Int := 86400000000

/-- The date of a time nine hours east of UTC, in days since the epoch. -/
def toKstTradeDate (fillTimestamp : Time) : Int :=
  (fillTimestamp + 9 * 60 * microsPerMinute) / microsPerDay

/-- The first 64 characters. -/
def clip (text : String) : String := String.ofList (text.toList.take 64)

inductive ApplyStatus where
  | applied
  | skippedDuplicate
  | recomputeRequired
  deriving DecidableEq, Repr

structure ApplyFillResult where
  status : ApplyStatus
  computationRun : RealizedPnlComputationRunEntity
  state : Option PositionCostBasisStateEntity
  realizedPnlEvent : Option RealizedPnlEventEntity
  recomputeQueueItem : Option RealizedPnlRecomputeQueueEntity := none
  deriving DecidableEq

/-- The repository calls of one `apply_fill` that raise. `lookup` stands for the reads before
the engine is called, `updateAggregate` for the read and the write of the day's row. -/
structure ApplyFaults where
  addRun : Option PyError := none
  lookup : Option PyError := none
  upsertState : Option PyError := none
  addEvent : Option PyError := none
  updateAggregate : Option PyError := none
  addQueueItem : Option PyError := none
  markState : Option PyError := none
  updateRun : Option PyError := none

section
variable (n : Numerics)

/-- `_check_duplicate`: a sale by its event, a purchase only by the fill applied last. -/
def checkDuplicate (ledger : Ledger) (state : Option PositionCostBasisStateEntity)
    (fill : NormalizedFill) : Bool × Option RealizedPnlEventEntity :=
  match fill.side with
  | .sell => ((ledger.events fill.fillEventId).isSome, ledger.events fill.fillEventId)
  | .buy => (state.any (·.lastAppliedFillEventId = some fill.fillEventId), none)

/-- The fill is earlier than the one applied last. -/
def outOfOrder (state : Option PositionCostBasisStateEntity) (fill : NormalizedFill) : Bool :=
  (state.bind (·.lastAppliedFillTimestamp)).any (fill.fillTimestamp < ·)

/-- The day's row with one event more. -/
def incrementedAggregate (event : RealizedPnlEventEntity)
    (existing : Option RealizedPnlDailyAggregateEntity) : RealizedPnlDailyAggregateEntity where
  accountId := event.accountId
  instrumentId := event.instrumentId
  tradeDate := toKstTradeDate event.fillTimestamp
  realizedPnlNetSum := n.add ((existing.map (·.realizedPnlNetSum)).getD 0) event.realizedPnlNet
  sellEventCount := (existing.map (·.sellEventCount)).getD 0 + 1
  computationRunId := event.computationRunId
  buyAmountSum := n.add ((existing.map (·.buyAmountSum)).getD 0)
    (n.mul event.sellQuantity event.avgCostBasisBefore)
  sellAmountSum := n.add ((existing.map (·.sellAmountSum)).getD 0)
    (n.mul event.sellQuantity event.sellPrice)
  feeTaxSum := n.add (n.add ((existing.map (·.feeTaxSum)).getD 0) event.fee) event.tax

def updateDailyAggregate (ledger : Ledger) (event : RealizedPnlEventEntity) : Ledger :=
  ledger.upsertAggregate n (incrementedAggregate n event
    (ledger.aggregates
      (event.accountId, event.instrumentId, toKstTradeDate event.fillTimestamp)))

/-- The row `_mark_recompute_required` writes over the state read before. -/
def markedState (accountId instrumentId : UUID) (existing : Option PositionCostBasisStateEntity)
    (reason : String) : PositionCostBasisStateEntity :=
  let base := existing.getD { accountId, instrumentId, quantity := 0, averageCost := 0 }
  { base with recomputeRequired := true, recomputeReason := some reason }

/-- `_finalize_run` and what the call returns with the run. -/
def finishApply (fault : Option PyError) (ledger : Ledger) (run : RealizedPnlComputationRunEntity)
    (result : ApplyFillResult) : Except LedgerError ApplyFillResult × Ledger :=
  match fault with
  | some e => (.error (.repository e), ledger)
  | none => (.ok { result with computationRun := run }, ledger.updateRun run)

/-- Queue the account and instrument and mark the state, over the state read before. -/
def requireRecompute (faults : ApplyFaults) (ledger : Ledger)
    (run : RealizedPnlComputationRunEntity) (fill : NormalizedFill)
    (state : Option PositionCostBasisStateEntity) (reasonCode reason : String) :
    Except LedgerError ApplyFillResult × Ledger :=
  match faults.addQueueItem with
  | some e => (.error (.repository e), ledger)
  | none =>
    let (item, ledger) := ledger.addQueueItem fill.accountId fill.instrumentId reasonCode
      fill.fillEventId
    match faults.markState with
    | some e => (.error (.repository e), ledger)
    | none =>
      let ledger := ledger.upsertState n
        (markedState fill.accountId fill.instrumentId state reason)
      finishApply faults.updateRun ledger
        { run with status := .failed, anomaliesDetected := run.anomaliesDetected + 1 }
        { status := .recomputeRequired
          computationRun := run
          state := state
          realizedPnlEvent := none
          recomputeQueueItem := some item }

/-- `realized_pnl_events.add` refuses a second event for a fill. -/
def addEventFault (faults : ApplyFaults) (ledger : Ledger) (event : RealizedPnlEventEntity) :
    Option PyError :=
  faults.addEvent.or
    (if (ledger.events event.fillEventId).isSome then
      some (.valueError ("realized_pnl_event already exists for fill_event_id=" ++
        UUID.text event.fillEventId))
    else none)

/-- The ledger writes of an accepted fill, up to the first that raises. -/
def writeFill (faults : ApplyFaults) (ledger : Ledger) (state : PositionCostBasisStateEntity)
    (event : Option RealizedPnlEventEntity) : Option PyError × Ledger :=
  match faults.upsertState with
  | some e => (some e, ledger)
  | none =>
    let ledger := ledger.upsertState n state
    match event with
    | none => (none, ledger)
    | some event =>
      match addEventFault faults ledger event with
      | some e => (some e, ledger)
      | none =>
        let ledger := ledger.putEvent n event
        match faults.updateAggregate with
        | some e => (some e, ledger)
        | none => (none, updateDailyAggregate n ledger (event.stored n))

/-- The ledger writes of an accepted fill, and the end of the call. -/
def recordFill (faults : ApplyFaults) (ledger : Ledger) (run : RealizedPnlComputationRunEntity)
    (fill : NormalizedFill) (state : Option PositionCostBasisStateEntity)
    (newState : PositionCostBasisStateEntity) (event : Option RealizedPnlEventEntity) :
    Except LedgerError ApplyFillResult × Ledger :=
  match writeFill n faults ledger newState event with
  | (some e, ledger) =>
    requireRecompute n faults ledger run fill state "ledger_write_failed"
      (clip ("repository_write_failed:" ++ e.className))
  | (none, ledger) =>
    finishApply faults.updateRun ledger
      { run with status := .completed, fillsApplied := run.fillsApplied + 1 }
      { status := .applied
        computationRun := run
        state := some (newState.stored n)
        realizedPnlEvent := event.map (·.stored n) }

variable (deriveEventId : UUID → UUID)

/-- `apply_fill` from the state of the account and instrument on. -/
def applyNormalized (faults : ApplyFaults) (ledger : Ledger)
    (run : RealizedPnlComputationRunEntity) (fill : NormalizedFill) :
    Except LedgerError ApplyFillResult × Ledger :=
  let state := ledger.states (fill.accountId, fill.instrumentId)
  let (duplicate, duplicateEvent) := checkDuplicate ledger state fill
  if duplicate then
    finishApply faults.updateRun ledger
      { run with status := .completed, fillsSkippedDuplicate := run.fillsSkippedDuplicate + 1 }
      { status := .skippedDuplicate
        computationRun := run
        state := state
        realizedPnlEvent := duplicateEvent }
  else if outOfOrder state fill then
    requireRecompute n faults ledger run fill state
      "out_of_order_fill_detected" "out_of_order_fill_detected"
  else
    match applyFillToCostBasis n deriveEventId state fill run.computationRunId with
    | .error e =>
      requireRecompute n faults ledger run fill state "ledger_write_failed"
        (clip ("engine_error:" ++ e.className))
    | .ok (newState, event) => recordFill n faults ledger run fill state newState event

def applyFill (t : Trades) (faults : ApplyFaults) (ledger : Ledger) (fillEvent : FillEventEntity) :
    Except LedgerError ApplyFillResult × Ledger :=
  match faults.addRun with
  | some e => (.error (.repository e), ledger)
  | none =>
    let (run, ledger) := ledger.addRun .realtimeIncremental none
    match faults.lookup with
    | some e => (.error (.repository e), ledger)
    | none =>
      match t.resolveLineage fillEvent with
      | .error e =>
        match faults.updateRun with
        | some e => (.error (.repository e), ledger)
        | none => (.error e, ledger.updateRun
            { run with status := .failed, anomaliesDetected := run.anomaliesDetected + 1 })
      | .ok lineage =>
        applyNormalized n deriveEventId faults ledger run (buildNormalizedFill fillEvent lineage)

/-- Everything `apply_fill` can do with a fill: skip it as a duplicate, ask for a recompute when it
is late or the engine refuses it, or write what the engine made of it. -/
theorem applyNormalized_cases (faults : ApplyFaults) (ledger : Ledger)
    (run : RealizedPnlComputationRunEntity) (fill : NormalizedFill) :
    let state := ledger.states (fill.accountId, fill.instrumentId)
    let after := applyNormalized n deriveEventId faults ledger run fill
    ((checkDuplicate ledger state fill).1 = true ∧ ∃ run result,
        result.status = .skippedDuplicate ∧
          after = finishApply faults.updateRun ledger run result) ∨
      ((checkDuplicate ledger state fill).1 = false ∧
        (outOfOrder state fill = true ∨
          ∃ e, applyFillToCostBasis n deriveEventId state fill run.computationRunId = .error e) ∧
        ∃ reasonCode reason,
          after = requireRecompute n faults ledger run fill state reasonCode reason) ∨
      ((checkDuplicate ledger state fill).1 = false ∧ outOfOrder state fill = false ∧
        ∃ row event,
          applyFillToCostBasis n deriveEventId state fill run.computationRunId =
            .ok (row, event) ∧
          after = recordFill n faults ledger run fill state row event) := by
  intro state after
  cases hduplicate : (checkDuplicate ledger state fill).1 with
  | true =>
    apply Or.inl
    refine ⟨rfl, _, _, rfl, if_pos hduplicate⟩
  | false =>
    have hafter : after = _ := if_neg (Bool.eq_false_iff.mp hduplicate)
    cases hlate : outOfOrder state fill with
    | true => exact Or.inr (Or.inl ⟨rfl, Or.inl rfl, _, _, hafter.trans (if_pos hlate)⟩)
    | false =>
      rw [if_neg (Bool.eq_false_iff.mp hlate)] at hafter
      cases hengine : applyFillToCostBasis n deriveEventId state fill run.computationRunId with
      | error e =>
        rw [hengine] at hafter
        exact Or.inr (Or.inl ⟨rfl, Or.inr ⟨e, rfl⟩, _, _, hafter⟩)
      | ok accepted =>
        rw [hengine] at hafter
        exact Or.inr (Or.inr ⟨rfl, rfl, accepted.1, accepted.2, rfl, hafter⟩)

/-- Everything `apply_fill` can do: raise before it has the fill's lineage, with the tables of the
books as they were, or go on with the fill. -/
theorem applyFill_cases (t : Trades) (faults : ApplyFaults) (ledger : Ledger)
    (fillEvent : FillEventEntity) :
    let after := applyFill n deriveEventId t faults ledger fillEvent
    ((∃ e, after.1 = .error e) ∧ after.2.states = ledger.states ∧
        after.2.events = ledger.events ∧ after.2.aggregates = ledger.aggregates) ∨
      ∃ lineage, t.resolveLineage fillEvent = .ok lineage ∧ faults.addRun = none ∧
        faults.lookup = none ∧ after = applyNormalized n deriveEventId faults
          (ledger.addRun .realtimeIncremental none).2
          (ledger.addRun .realtimeIncremental none).1 (buildNormalizedFill fillEvent lineage) := by
  unfold applyFill
  cases hadd : faults.addRun with
  | some e => exact Or.inl ⟨⟨_, rfl⟩, rfl, rfl, rfl⟩
  | none =>
    cases hlookup : faults.lookup with
    | some e => exact Or.inl ⟨⟨_, rfl⟩, rfl, rfl, rfl⟩
    | none =>
      cases t.resolveLineage fillEvent with
      | ok lineage => exact Or.inr ⟨lineage, rfl, rfl, rfl, rfl⟩
      | error e =>
        cases faults.updateRun with
        | some e' => exact Or.inl ⟨⟨_, rfl⟩, rfl, rfl, rfl⟩
        | none => exact Or.inl ⟨⟨_, rfl⟩, rfl, rfl, rfl⟩

end

end AgentTrading.RealizedPnl
