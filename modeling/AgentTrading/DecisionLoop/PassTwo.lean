import Mathlib.Data.Prod.Lex
import Mathlib.Data.List.Sort
import Mathlib.Data.Rat.Defs
import Mathlib.Order.WithBot
import AgentTrading.DecisionLoop.Operations
import AgentTrading.Library.Contest
import AgentTrading.Library.Turns
import AgentTrading.Reconciliation.Worker

/-! The second pass of a cycle: of the candidates for each symbol one is kept, and those kept are
submitted one after the other as long as the cycle's budget lasts. -/
namespace AgentTrading.DecisionLoop
open Domain Library Execution Keyed

def sourceTypeRank (sourceType : String) : Nat :=
  if sourceType = "core" then 0
  else if sourceType = "event_overlay" then 1
  else if sourceType = "market_overlay" then 2
  else 99

/-- The source, then the score from the highest to none at all, then the time. -/
abbrev PriorityKey := Nat ×ₗ WithTop ℚ ×ₗ Time

/-- `_general_lane_priority_key`. -/
def priorityKey (candidate : Candidate) : PriorityKey :=
  toLex (sourceTypeRank candidate.sourceType,
    toLex (candidate.finalTradeScore.elim ⊤ fun score => ((-score : ℚ) : WithTop ℚ),
      candidate.analysisCompletedAt))

def precedes (x a : Candidate) : Bool := priorityKey x < priorityKey a

def ranked (candidates : List Candidate) : List Candidate :=
  candidates.insertionSort fun a b => priorityKey a ≤ priorityKey b

variable (loop : Loop)

/-- A result of the second pass that submits nothing. -/
def skippedResult (candidate : Candidate) (stopReason : String) : CycleResult :=
  serializeCycleResult candidate.symbol candidate.market candidate.sourceType
    (some { orderIntent := candidate.intent
            tradeDecisionId := candidate.tradeDecisionId
            phaseTrace := []
            status := "SKIPPED"
            stopReason := some stopReason })

def kstMinute (t : Time) : Int := t / microsPerMinute % 60

/-- From half past three on. -/
def sessionClosed (now : Time) : Bool :=
  15 < Reconciliation.Worker.kstHour now ∨
    (Reconciliation.Worker.kstHour now = 15 ∧ 30 ≤ kstMinute now)

/-- `_submit_general_lane_candidate` up to its handler. -/
def resubmit (candidate : Candidate) : Code CycleResult := inTransaction do
  let revalidation ← await (.preAiValidation candidate.symbol candidate.market candidate.sourceType
    none)
  let stopReason ← returned revalidation
  match stopReason.filter (· ≠ "") with
  | some reason => return skippedResult candidate ("pass2_stale_" ++ reason)
  | none => do
    let now ← ofPipeline now
    if sessionClosed now then return skippedResult candidate "pass2_market_session_closed"
    else do
      let result ← waitFor
        (runExecutionPipeline loop.execution candidate.intent candidate.tradeDecisionId [])
      let committed ← await .commit
      returned committed
      return serializeCycleResult candidate.symbol candidate.market candidate.sourceType
        (some result)

def submitGeneralLaneCandidate (candidate : Candidate) : Code CycleResult :=
  (resubmit loop candidate).handle fun e =>
    return serializeCycleResult candidate.symbol candidate.market candidate.sourceType none
      (some (loop.execution.exceptionText e))

/-- A candidate that is dropped leaves a guardrail evaluation and a printed result. -/
def drop (candidate : Candidate) (reason : String) : Code CycleResult := do
  let dropped := skippedResult candidate reason
  await (.recordDrop candidate reason)
  await (.print dropped)
  return dropped

/-- The results of the cycle by index and how much of the budget they have consumed. -/
structure Cycle where
  results : List CycleResult
  consumed : Int
  deriving DecidableEq

def consumes (result : CycleResult) : Bool :=
  result.status = "SUBMITTED" || result.status = "RECONCILE_REQUIRED"

/-- Pass 1.5: the best candidates by symbol, where an equal one does not replace the first. -/
def dedupe : List Candidate → List Candidate → List CycleResult →
    Code (List Candidate × List CycleResult)
  | [], best, results => return (best, results)
  | candidate :: rest, best, results =>
    match best.find? (·.symbol = candidate.symbol) with
    | none => dedupe rest (upsert Candidate.symbol candidate best) results
    | some existing =>
      if precedes candidate existing then do
        let dropped ← drop existing "symbol_duplicate_in_cycle"
        dedupe rest (upsert Candidate.symbol candidate best)
          (results.set existing.cycleIndex dropped)
      else do
        let dropped ← drop candidate "symbol_duplicate_in_cycle"
        dedupe rest best (results.set candidate.cycleIndex dropped)

def submitInTurn : List Candidate → Cycle → Code Cycle
  | [], cycle => return cycle
  | candidate :: rest, cycle =>
    if loop.maxGeneralSubmitsThisCycle - cycle.consumed ≤ 0 then do
      let dropped ← drop candidate "submit_budget_consumed_core"
      submitInTurn rest { cycle with results := cycle.results.set candidate.cycleIndex dropped }
    else do
      let result ← submitGeneralLaneCandidate loop candidate
      await (.print result)
      submitInTurn rest
        { results := cycle.results.set candidate.cycleIndex result
          consumed := if consumes result then cycle.consumed + 1 else cycle.consumed }

def runGeneralLanePass2 (candidates : List Candidate) (cycle : Cycle) : Code Cycle := do
  let (best, results) ← dedupe candidates [] cycle.results
  submitInTurn loop (ranked best) { cycle with results := results }

end AgentTrading.DecisionLoop
