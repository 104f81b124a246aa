import AgentTrading.RealizedPnl.Ledger

/-! `RealizedPnlRecomputeService.recompute_account_instrument`: the ledger of one account and
instrument rebuilt from its whole history. -/
namespace AgentTrading.RealizedPnl
open Domain

/-- The repository calls of one recompute that raise. `collect` stands for the reads of the
trading tables; events are told apart by their fill, rows by their date. -/
structure RecomputeFaults where
  addRun : Option PyError := none
  collect : Option PyError := none
  upsertEvent : UUID → Option PyError := fun _ => none
  upsertAggregate : Int → Option PyError := fun _ => none
  upsertState : Option PyError := none
  updateRun : Option PyError := none
  listPending : Option PyError := none
  markResolved : UUID → Option PyError := fun _ => none

structure RecomputeOutcome where
  accountId : UUID
  instrumentId : UUID
  computationRun : RealizedPnlComputationRunEntity
  resolvedQueueItemIds : List UUID := []
  deriving DecidableEq

section
variable (n : Numerics)

/-- `realized_pnl_events.upsert`: a row that exists keeps its identity. -/
def upsertedEvent (existing : Option RealizedPnlEventEntity) (event : RealizedPnlEventEntity) :
    RealizedPnlEventEntity :=
  match existing with
  | none => event
  | some row => { row with
      sellQuantity := event.sellQuantity
      sellPrice := event.sellPrice
      avgCostBasisBefore := event.avgCostBasisBefore
      fee := event.fee
      tax := event.tax
      feeTaxSource := event.feeTaxSource
      realizedPnlGross := event.realizedPnlGross
      realizedPnlNet := event.realizedPnlNet
      positionQuantityAfter := event.positionQuantityAfter
      computationRunId := event.computationRunId
      allocatedBuyFee := event.allocatedBuyFee
      buyFeeAllocationSource := event.buyFeeAllocationSource }

/-- Writes in order, up to the first that raises. -/
def writeEach {α : Type} (fault : α → Option PyError) (write : Ledger → α → Ledger) :
    Ledger → List α → Option PyError × Ledger
  | ledger, [] => (none, ledger)
  | ledger, a :: rest =>
    match fault a with
    | some e => (some e, ledger)
    | none => writeEach fault write (write ledger a) rest

/-- A sum of decimals, rounded at every step: `sum(values, Decimal("0"))`. -/
def decimalSum (values : List ℚ) : ℚ := values.foldl n.add 0

/-- The day's row from all of the day's events. -/
def rebuiltAggregate (accountId instrumentId : UUID) (tradeDate : Int) (computationRunId : UUID)
    (dayEvents : List RealizedPnlEventEntity) : RealizedPnlDailyAggregateEntity where
  accountId := accountId
  instrumentId := instrumentId
  tradeDate := tradeDate
  realizedPnlNetSum := decimalSum n (dayEvents.map (·.realizedPnlNet))
  sellEventCount := dayEvents.length
  computationRunId := computationRunId
  buyAmountSum := decimalSum n (dayEvents.map fun e => n.mul e.sellQuantity e.avgCostBasisBefore)
  sellAmountSum := decimalSum n (dayEvents.map fun e => n.mul e.sellQuantity e.sellPrice)
  feeTaxSum := decimalSum n (dayEvents.map fun e => n.add e.fee e.tax)

def onDate (tradeDate : Int) (events : List RealizedPnlEventEntity) :
    List RealizedPnlEventEntity :=
  events.filter (toKstTradeDate ·.fillTimestamp = tradeDate)

/-- The dates of the events, by first occurrence. -/
def tradeDates (events : List RealizedPnlEventEntity) : List Int :=
  (events.map (toKstTradeDate ·.fillTimestamp)).eraseDups

def rebuildDailyAggregates (faults : RecomputeFaults) (ledger : Ledger)
    (accountId instrumentId : UUID) (events : List RealizedPnlEventEntity)
    (computationRunId : UUID) : Option PyError × Ledger :=
  writeEach faults.upsertAggregate
    (fun ledger date => ledger.upsertAggregate n
      (rebuiltAggregate n accountId instrumentId date computationRunId (onDate date events)))
    ledger (tradeDates events)

def upsertEvents (faults : RecomputeFaults) (ledger : Ledger)
    (events : List RealizedPnlEventEntity) : Option PyError × Ledger :=
  writeEach (fun event => faults.upsertEvent event.fillEventId)
    (fun ledger event =>
      ledger.putEvent n (upsertedEvent (ledger.events event.fillEventId) event))
    ledger events

/-- The writes of a replay: events, daily rows, and the state with its flag cleared last. -/
def persistReplay (faults : RecomputeFaults) (ledger : Ledger) (accountId instrumentId : UUID)
    (result : ReplayResult) (computationRunId : UUID) : Option PyError × Ledger :=
  match upsertEvents n faults ledger result.realizedPnlEvents with
  | (some e, ledger) => (some e, ledger)
  | (none, ledger) =>
    match rebuildDailyAggregates n faults ledger accountId instrumentId
        result.realizedPnlEvents computationRunId with
    | (some e, ledger) => (some e, ledger)
    | (none, ledger) =>
      match result.finalState with
      | none => (none, ledger)
      | some state =>
        match faults.upsertState with
        | some e => (some e, ledger)
        | none => (none, ledger.upsertState n
            { state with recomputeRequired := false, recomputeReason := none })

/-- The pending items of the account and instrument among the first thousand pending. -/
def pendingItems (ledger : Ledger) (accountId instrumentId : UUID) :
    List RealizedPnlRecomputeQueueEntity :=
  ((ledger.queue.filter (·.resolvedByComputationRunId = none)).take 1000).filter fun item =>
    item.accountId = accountId ∧ item.instrumentId = instrumentId

def Ledger.markResolved (computationRunId : UUID) (ledger : Ledger)
    (item : RealizedPnlRecomputeQueueEntity) : Ledger :=
  { ledger with
    queue := ledger.queue.map fun row =>
      if row.recomputeQueueId = item.recomputeQueueId then
        { row with resolvedByComputationRunId := some computationRunId }
      else row }

def resolvePendingQueueItems (faults : RecomputeFaults) (ledger : Ledger)
    (accountId instrumentId : UUID) (computationRunId : UUID) :
    Except PyError (List UUID) × Ledger :=
  match faults.listPending with
  | some e => (.error e, ledger)
  | none =>
    let matching := pendingItems ledger accountId instrumentId
    match writeEach (fun item => faults.markResolved item.recomputeQueueId)
        (Ledger.markResolved computationRunId) ledger matching with
    | (some e, ledger) => (.error e, ledger)
    | (none, ledger) => (.ok (matching.map (·.recomputeQueueId)), ledger)

/-- A phase that raised ends the run as failed. -/
def failRecompute (faults : RecomputeFaults) (ledger : Ledger) (accountId instrumentId : UUID)
    (run : RealizedPnlComputationRunEntity) : Except PyError RecomputeOutcome × Ledger :=
  match faults.updateRun with
  | some e => (.error e, ledger)
  | none =>
    let run := { run with status := .failed, anomaliesDetected := run.anomaliesDetected + 1 }
    (.ok { accountId, instrumentId, computationRun := run }, ledger.updateRun run)

/-- The end of a recompute whose writes went through. -/
def completeRecompute (faults : RecomputeFaults) (ledger : Ledger) (accountId instrumentId : UUID)
    (run : RealizedPnlComputationRunEntity) (replayed : Nat) :
    Except PyError RecomputeOutcome × Ledger :=
  match faults.updateRun with
  | some e => (.error e, ledger)
  | none =>
    let run := { run with status := .completed, fillsReplayed := run.fillsReplayed + replayed }
    match resolvePendingQueueItems faults (ledger.updateRun run) accountId instrumentId
        run.computationRunId with
    | (.error e, ledger) => (.error e, ledger)
    | (.ok ids, ledger) =>
      (.ok { accountId, instrumentId, computationRun := run, resolvedQueueItemIds := ids }, ledger)

variable (deriveEventId : UUID → UUID)

def recomputeAccountInstrument (t : Trades) (faults : RecomputeFaults) (ledger : Ledger)
    (accountId instrumentId : UUID) : Except PyError RecomputeOutcome × Ledger :=
  match faults.addRun with
  | some e => (.error e, ledger)
  | none =>
    let (run, ledger) := ledger.addRun .backfillReplay (some accountId)
    match faults.collect, t.collectOrderedNormalizedFills accountId instrumentId with
    | some _, _ | none, .error _ => failRecompute faults ledger accountId instrumentId run
    | none, .ok orderedFills =>
      match replayFills n deriveEventId orderedFills run.computationRunId with
      | .error _ => failRecompute faults ledger accountId instrumentId run
      | .ok result =>
        match persistReplay n faults ledger accountId instrumentId result
            run.computationRunId with
        | (some _, ledger) => failRecompute faults ledger accountId instrumentId run
        | (none, ledger) =>
          completeRecompute faults ledger accountId instrumentId run orderedFills.length

end

end AgentTrading.RealizedPnl
