import AgentTrading.Orders.Operations

/-! The reconciliation service: starting a run, the blocking lock that goes with it, and
the ways a run ends. -/
namespace AgentTrading.Reconciliation
open Domain Repositories Library Orders

def lockTtlMinutes : Int := 30

def acquireBlockingLock (key : LockKey) (reason : String) (lockedByRunId : UUID) : Code Unit := do
  let now ← await .now
  let _ ← await (.reconciliationsAcquireLock key reason lockedByRunId
    (now + lockTtlMinutes * microsPerMinute))
  return ()

def releaseBlockingLock (accountId : UUID) (strategyId : Option UUID)
    (symbol side : Option String) (lockedByRunId : Option UUID) : Code Unit :=
  await (.reconciliationsReleaseLock accountId strategyId symbol side lockedByRunId)

def isBlocked (key : LockKey) : Code Bool := await (.reconciliationsIsLocked key)

/-- An active run of the account is reused; only a new run takes a lock. -/
def trigger (accountId : UUID) (triggerType : String) (strategyId : Option UUID)
    (symbol side : Option String) : Code ReconciliationRunEntity := do
  let active ← await (.reconciliationsGetActiveRun accountId)
  match active with
  | some run => return run
  | none =>
    let now ← await .now
    let runId ← await .uuid4
    let created ← await (.reconciliationsAddRun
      { reconciliationRunId := runId
        accountId := accountId
        triggerType := triggerType
        status := .started
        startedAt := now
        createdAt := some now })
    acquireBlockingLock ⟨accountId, strategyId, symbol, side⟩ ("reconciliation:" ++ triggerType)
      created.reconciliationRunId
    return created

/-- The link is best effort: its failure is logged and the run is returned. -/
def triggerAndLink (accountId : UUID) (triggerType : String) (strategyId : Option UUID)
    (symbol side : Option String) (orderRequestId : Option UUID) :
    Code ReconciliationRunEntity := do
  let run ← trigger accountId triggerType strategyId symbol side
  match orderRequestId with
  | none => return run
  | some id =>
    let link : Code Unit := do
      let now ← await .now
      await (.reconciliationsAttachOrderMismatch
        { reconciliationRunId := run.reconciliationRunId
          orderRequestId := id
          mismatchType := "pending_inquiry"
          triggerType := triggerType
          linkedAt := now })
    link.handle fun _ => return ()
    return run

def runNotFound (runId : UUID) : PyError :=
  .valueError ("Reconciliation run not found: " ++ UUID.text runId)

def markResolved (runId : UUID) : Code Unit := do
  let run ← await (.reconciliationsGetRun runId)
  match run with
  | none => .raise (runNotFound runId)
  | some run =>
    await (.reconciliationsUpdateRunStatus runId .resolved none)
    releaseBlockingLock run.accountId none none none (some runId)

/-- Halting keeps the run's lock. -/
def haltRun (runId : UUID) : Code Unit := do
  let run ← await (.reconciliationsGetRun runId)
  match run with
  | none => .raise (runNotFound runId)
  | some _ =>
    let now ← await .now
    await (.reconciliationsUpdateRunStatus runId .halted (some now))

end AgentTrading.Reconciliation
