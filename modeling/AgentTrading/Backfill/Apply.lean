import AgentTrading.Backfill.Plan
import AgentTrading.Fills.Sync
import AgentTrading.RealizedPnl.Ledger

/-! `apply_backfill_plan`: the synthetic fills of a plan are stored one by one, each unless it
finds itself stored already. -/
namespace AgentTrading.Backfill
open Domain RealizedPnl Fills

/-- `get_by_broker_fill_id`: the fill stored last under the identifier. -/
def getByBrokerFillId (fills : List FillEventEntity) (brokerFillId : String) :
    Option FillEventEntity :=
  fills.reverse.find? (·.brokerFillId = some brokerFillId)

def listByBrokerOrder (fills : List FillEventEntity) (brokerOrderId : UUID) :
    List FillEventEntity :=
  fills.filter (·.brokerOrderId = brokerOrderId)

/-- The identifiers and the creation times of the fills stored by one call, in their order. -/
structure Stamps where
  fillEventId : Nat → UUID
  createdAt : Nat → Option Time

def fillEventOf (stamps : Stamps) (i : Nat) (candidate : SyntheticFillCandidate) :
    FillEventEntity where
  fillEventId := stamps.fillEventId i
  brokerOrderId := candidate.brokerOrderId
  fillTimestamp := candidate.fillTimestamp
  fillPrice := candidate.fillPrice
  fillQuantity := candidate.fillQuantity
  sourceChannel := "backfill"
  brokerFillId := candidate.brokerFillId
  fillFee := some candidate.fee
  fillTax := some candidate.tax
  feeTaxSource := some candidate.feeTaxSource.value
  createdAt := stamps.createdAt i

def compositeDedupMatches (existing : FillEventEntity) (candidate : SyntheticFillCandidate) :
    Bool :=
  existing.fillTimestamp = candidate.fillTimestamp ∧ existing.fillPrice = candidate.fillPrice ∧
    existing.fillQuantity = candidate.fillQuantity

/-- The loop's state: the fills, those of the broker orders met so far as they were read and
added to, the numbers of fills stored and passed over, and the fill stored last. -/
structure ApplyProgress where
  fills : List FillEventEntity
  existingByBrokerOrder : UUID → Option (List FillEventEntity) := fun _ => none
  appended : Nat := 0
  skippedDuplicate : Nat := 0
  lastAppended : Option UUID := none

namespace ApplyProgress

variable (stamps : Stamps) (p : ApplyProgress) (candidate : SyntheticFillCandidate)

def skip : ApplyProgress := { p with skippedDuplicate := p.skippedDuplicate + 1 }

/-- The broker order's fills are read once. -/
def withExisting : ApplyProgress :=
  { p with
    existingByBrokerOrder := Function.update p.existingByBrokerOrder candidate.brokerOrderId
      (some ((p.existingByBrokerOrder candidate.brokerOrderId).getD
        (listByBrokerOrder p.fills candidate.brokerOrderId))) }

def append : ApplyProgress :=
  let saved := fillEventOf stamps p.appended candidate
  { p with
    fills := p.fills ++ [saved]
    existingByBrokerOrder := Function.update p.existingByBrokerOrder candidate.brokerOrderId
      (some ((p.existingByBrokerOrder candidate.brokerOrderId).getD [] ++ [saved]))
    appended := p.appended + 1
    lastAppended := some saved.fillEventId }

/-- The identifier finds a fill of the same broker order. -/
def knownById (brokerFillId : String) : Bool :=
  (getByBrokerFillId p.fills brokerFillId).any (·.brokerOrderId = candidate.brokerOrderId)

def knownByKey : Bool :=
  ((p.existingByBrokerOrder candidate.brokerOrderId).getD []).any
    (compositeDedupMatches · candidate)

/-- One candidate. -/
def apply : ApplyProgress :=
  match fillIdOf candidate.brokerFillId with
  | some brokerFillId =>
    if p.knownById candidate brokerFillId then p.skip
    else (p.withExisting candidate).append stamps candidate
  | none =>
    if (p.withExisting candidate).knownByKey candidate then (p.withExisting candidate).skip
    else (p.withExisting candidate).append stamps candidate

end ApplyProgress

structure BackfillApplyResult where
  accountId : UUID
  instrumentId : UUID
  applied : Bool
  fillsAppended : Nat
  fillsSkippedDuplicate : Nat
  recomputeQueueItemId : Option UUID

/-- The fills a plan's candidates leave. -/
def applyCandidates (stamps : Stamps) (fills : List FillEventEntity)
    (candidates : List SyntheticFillCandidate) : ApplyProgress :=
  candidates.foldl (fun p candidate => p.apply stamps candidate) { fills := fills }

def applyBackfillPlan (n : Numerics) (stamps : Stamps) (plan : BackfillPlan)
    (fills : List FillEventEntity) (ledger : Ledger) :
    BackfillApplyResult × List FillEventEntity × Ledger :=
  if ¬ plan.eligible then (⟨plan.accountId, plan.instrumentId, false, 0, 0, none⟩, fills, ledger)
  else
    let progress := applyCandidates stamps fills plan.syntheticFills
    match progress.lastAppended with
    | none =>
      (⟨plan.accountId, plan.instrumentId, false, 0, progress.skippedDuplicate, none⟩,
        progress.fills, ledger)
    | some lastAppended =>
      let marked := ledger.upsertState n (markedState plan.accountId plan.instrumentId
        (ledger.states (plan.accountId, plan.instrumentId)) "manual_request")
      let (item, ledger) :=
        marked.addQueueItem plan.accountId plan.instrumentId "manual_request" lastAppended
      (⟨plan.accountId, plan.instrumentId, true, progress.appended, progress.skippedDuplicate,
        some item.recomputeQueueId⟩, progress.fills, ledger)

end AgentTrading.Backfill
