import Mathlib.Algebra.Order.Group.Int
import Mathlib.Data.List.Sort
import AgentTrading.Domain.Entities
import AgentTrading.Library.Admission

/-! The shared request quota of the provider: queue jobs, attempts and the two repositories that
keep them. Every operation is one transaction under the lock of the scope's row; the operations
come in the order in which they take it. -/
namespace AgentTrading.Fdc
open Domain Library

inductive Mode where
  | shadow
  | real
  deriving DecidableEq, Repr

/-- `fdc_queue_jobs.status`, a text column. -/
inductive JobStatus where
  | queued
  | reservationGranted
  | fdcSucceeded
  | fdcFailedFinal
  | cancelled
  | shadowQueued
  | shadowWouldGrant
  | other (text : String)
  deriving DecidableEq, Repr

/-- `fdc_provider_attempts.outcome`, a text column. -/
inductive AttemptOutcome where
  | reservationGranted
  | httpStarted
  | httpSucceeded
  | httpFailedRetryable
  | httpFailedFinal
  | reservedButHttpNotStarted
  | shadowWouldGrant
  | shadowQueued
  | other (text : String)
  deriving DecidableEq, Repr

def quotaConsumingOutcomes : List AttemptOutcome :=
  [.reservationGranted, .httpStarted, .httpSucceeded, .httpFailedRetryable, .httpFailedFinal,
    .reservedButHttpNotStarted]

inductive AttemptHttpLifecycle where
  | notFound
  | notStarted
  | started
  deriving DecidableEq, Repr

inductive CoordinatorErrorClass where
  | coordinatorUnavailable
  | coordinatorLockTimeout
  | coordinatorTransactionError
  | manualCallPolicyRejected
  deriving DecidableEq, Repr

/-- What the database raises. -/
inductive DatabaseError where
  | lockNotAvailable
  | queryCanceled
  | connection
  | os
  | other
  deriving DecidableEq, Repr

def classifyError : DatabaseError → CoordinatorErrorClass
  | .lockNotAvailable | .queryCanceled => .coordinatorLockTimeout
  | .connection | .os => .coordinatorUnavailable
  | .other => .coordinatorTransactionError

structure FdcQueueJob where
  jobId : UUID
  decisionCycleId : Option String
  decisionContextId : Option UUID
  symbol : String
  sourceType : String
  quotaScope : String
  mode : Mode
  status : JobStatus
  fdcReadyAt : Time
  enqueueSequence : Nat
  preFdcResult : Option String := none
  correlationId : Option String := none
  queuePollCount : Nat := 0
  reservationDeniedCount : Nat := 0
  dispatchAttemptNo : Nat := 0
  providerRetryCount : Nat := 0
  preHttpExecutionFailureCount : Nat := 0
  queueReenqueueCount : Nat := 0
  permitConsumedCount : Nat := 0
  httpAttemptCount : Nat := 0
  http429Count : Nat := 0
  reservedButHttpNotStartedCount : Nat := 0
  failureOrCancelReason : Option String := none
  deriving DecidableEq

structure FdcProviderAttempt where
  attemptId : UUID
  jobId : Option UUID
  manualRunId : Option String
  quotaScope : String
  callerId : String
  mode : Mode
  attemptNo : Int
  outcome : AttemptOutcome
  reservedAt : Time
  httpStartedAt : Option Time := none
  deriving DecidableEq

/-- The three tables, attempts newest first, with the sequence of the queue and the supply of
identifiers. The in-memory repository keeps its shadow jobs apart. -/
structure FdcQuotaTables where
  fdcQuotaState : List String := []
  fdcQueueJobs : List FdcQueueJob := []
  fdcProviderAttempts : List FdcProviderAttempt := []
  shadowJobs : List FdcQueueJob := []
  nextSequence : Nat := 1
  nextId : UUID := 0

structure ReservationGrant where
  reservationId : UUID
  quotaScope : String
  jobId : Option UUID
  attemptNo : Int
  windowCountBeforeGrant : Nat
  deriving DecidableEq

inductive ReservationResult where
  | grant (grant : ReservationGrant)
  | denied (quotaScope : String) (windowCount : Nat)
  | coordinatorError (errorClass : CoordinatorErrorClass) (detail : String)
  deriving DecidableEq

namespace FdcQuotaTables

def job? (t : FdcQuotaTables) (jobId : UUID) : Option FdcQueueJob :=
  t.fdcQueueJobs.find? (·.jobId = jobId)

/-- `UPDATE trading.fdc_queue_jobs SET ... WHERE job_id = $1` -/
def updateJob (t : FdcQuotaTables) (jobId : UUID) (set : FdcQueueJob → FdcQueueJob) :
    FdcQuotaTables :=
  { t with
    fdcQueueJobs := t.fdcQueueJobs.map fun job =>
      if job.jobId = jobId then set job else job }

def updateJob? (t : FdcQuotaTables) (jobId : Option UUID) (set : FdcQueueJob → FdcQueueJob) :
    FdcQuotaTables :=
  match jobId with
  | some id => t.updateJob id set
  | none => t

/-- The attempts that use up the quota of a scope. -/
def consumes (quotaScope : String) (attempt : FdcProviderAttempt) : Bool :=
  attempt.quotaScope = quotaScope ∧ attempt.mode = .real ∧
    attempt.outcome ∈ quotaConsumingOutcomes

/-- `make_interval(secs => ...)` in microseconds. -/
def interval (windowSeconds : Nat) : Int := windowSeconds * 1000000

/-- The consuming attempts reserved after `now - window`; there is no upper bound. -/
def windowCount (t : FdcQuotaTables) (quotaScope : String) (windowSeconds : Nat) (now : Time) :
    Nat :=
  t.fdcProviderAttempts.countP fun attempt =>
    consumes quotaScope attempt && recent (interval windowSeconds) now attempt.reservedAt

end FdcQuotaTables

/-- The arguments of `try_reserve`. -/
structure ReserveCall where
  quotaScope : String
  targetRpm : Nat
  windowSeconds : Nat
  jobId : Option UUID
  callerId : String
  mode : Mode := .real
  manualRunId : Option String := none
  attemptNo : Int := 1

/-- The attempt row of a grant. -/
def ReserveCall.attempt (call : ReserveCall) (attemptId : UUID) (now : Time) :
    FdcProviderAttempt where
  attemptId := attemptId
  jobId := call.jobId
  manualRunId := call.manualRunId
  quotaScope := call.quotaScope
  callerId := call.callerId
  mode := call.mode
  attemptNo := call.attemptNo
  outcome := .reservationGranted
  reservedAt := now

def ReserveCall.grant (call : ReserveCall) (attemptId : UUID) (windowCount : Nat) :
    ReservationGrant where
  reservationId := attemptId
  quotaScope := call.quotaScope
  jobId := call.jobId
  attemptNo := call.attemptNo
  windowCountBeforeGrant := windowCount

/-- What a denial does to the job. -/
def FdcQueueJob.polledDenied (job : FdcQueueJob) : FdcQueueJob :=
  { job with
    queuePollCount := job.queuePollCount + 1
    reservationDeniedCount := job.reservationDeniedCount + 1 }

/-- What a grant does to the job. -/
def FdcQueueJob.polledGranted (job : FdcQueueJob) : FdcQueueJob :=
  { job with
    queuePollCount := job.queuePollCount + 1
    dispatchAttemptNo := job.dispatchAttemptNo + 1
    permitConsumedCount := job.permitConsumedCount + 1
    status := .reservationGranted }

/-- The tables with the attempt of a grant, and its job polled and granted. -/
def FdcQuotaTables.granted (t : FdcQuotaTables) (call : ReserveCall) (now : Time) :
    FdcQuotaTables :=
  { t with
    fdcProviderAttempts := call.attempt t.nextId now :: t.fdcProviderAttempts
    nextId := t.nextId + 1 }.updateJob? call.jobId FdcQueueJob.polledGranted

def anchorMissing (quotaScope tail : String) : String :=
  "anchor row missing for quota_scope='" ++ quotaScope ++ "' in trading.fdc_quota_state — " ++
    "seed the anchor row before use (fail-closed, " ++ tail ++ ")"

namespace PostgresFdcQuotaRepository
open FdcQuotaTables

/-- The jobs of the scope that are queued before this one. An unknown job has none before it. -/
def earlierQueued (t : FdcQuotaTables) (quotaScope : String) (jobId : UUID) : Bool :=
  match t.job? jobId with
  | none => false
  | some mine => t.fdcQueueJobs.any fun job =>
      job.quotaScope = quotaScope ∧ job.mode = .real ∧ job.status = .queued ∧
        job.enqueueSequence < mine.enqueueSequence

/-- The foreign key of the job and the unique index over `(job_id, attempt_no)`. -/
def violates (t : FdcQuotaTables) (call : ReserveCall) : Bool :=
  match call.jobId with
  | none => false
  | some id => (t.job? id).isNone ∨
      t.fdcProviderAttempts.any fun attempt =>
        attempt.jobId = some id ∧ attempt.attemptNo = call.attemptNo

/-- `try_reserve`; `now` is the start of the transaction. A failure rolls it back; `violation` is
the text of a constraint violation. -/
def tryReserve (t : FdcQuotaTables) (call : ReserveCall) (now : Time)
    (failure : Option (DatabaseError × String)) (violation : String) :
    ReservationResult × FdcQuotaTables :=
  match failure with
  | some (error, text) => (.coordinatorError (classifyError error) text, t)
  | none =>
    if call.quotaScope ∉ t.fdcQuotaState then
      (.coordinatorError .coordinatorTransactionError
        (anchorMissing call.quotaScope "quota not consumed"), t)
    else
      let count := t.windowCount call.quotaScope call.windowSeconds now
      let notMyTurn := call.jobId.any (earlierQueued t call.quotaScope)
      if count ≥ call.targetRpm ∨ notMyTurn then
        (.denied call.quotaScope count, t.updateJob? call.jobId FdcQueueJob.polledDenied)
      else if violates t call then
        (.coordinatorError (classifyError .other) violation, t)
      else
        (.grant (call.grant t.nextId count), t.granted call now)

end PostgresFdcQuotaRepository

namespace InMemoryFdcQuotaRepository
open FdcQuotaTables

def earlierQueued (t : FdcQuotaTables) (quotaScope : String) (jobId : UUID) : Bool :=
  match t.job? jobId with
  | none => false
  | some mine => t.fdcQueueJobs.any fun other =>
      other.quotaScope = quotaScope ∧ other.status = .queued ∧
        other.enqueueSequence < mine.enqueueSequence

/-- `try_reserve`. The clock is read for the count and again for the stamp; no constraint is
checked. -/
def tryReserve (t : FdcQuotaTables) (call : ReserveCall) (counted now : Time) :
    ReservationResult × FdcQuotaTables :=
  let count := t.windowCount call.quotaScope call.windowSeconds counted
  let notMyTurn := call.jobId.any (earlierQueued t call.quotaScope)
  if count ≥ call.targetRpm ∨ notMyTurn then
    (.denied call.quotaScope count, t.updateJob? call.jobId FdcQueueJob.polledDenied)
  else
    (.grant (call.grant t.nextId count), t.granted call now)

end InMemoryFdcQuotaRepository

/-- The arguments that describe a job when it is registered. -/
structure NewJob where
  decisionCycleId : Option String
  decisionContextId : Option UUID
  symbol : String
  sourceType : String
  quotaScope : String
  fdcReadyAt : Time
  preFdcResult : Option String := none
  correlationId : Option String := none

def NewJob.row (new : NewJob) (mode : Mode) (status : JobStatus) (t : FdcQuotaTables) :
    FdcQueueJob where
  jobId := t.nextId
  decisionCycleId := new.decisionCycleId
  decisionContextId := new.decisionContextId
  symbol := new.symbol
  sourceType := new.sourceType
  quotaScope := new.quotaScope
  mode := mode
  status := status
  fdcReadyAt := new.fdcReadyAt
  enqueueSequence := t.nextSequence
  preFdcResult := new.preFdcResult
  correlationId := new.correlationId

/-- `provider_retryable_failure` or `pre_http_execution_failure`. -/
inductive RetryReason where
  | providerRetryableFailure
  | preHttpExecutionFailure
  | other (text : String)
  deriving DecidableEq, Repr

/-- What `record_attempt_outcome` raises. -/
inductive OutcomeError where
  | httpStartedBefore (reservationId : UUID) (httpStartedAt : Time)
  | noAttempt (reservationId : UUID)
  deriving DecidableEq, Repr

structure ShadowJudgement where
  jobId : UUID
  wouldGrant : Bool
  windowCount : Nat
  attemptId : UUID
  enqueueSequence : Nat
  deriving DecidableEq

inductive ShadowJudgementResult where
  | judged (judgement : ShadowJudgement)
  | coordinatorError (errorClass : CoordinatorErrorClass) (detail : String)
  deriving DecidableEq

/-- The shadow grants of the scope among `jobs`, with a smaller sequence, that were ready within
the window that ends when the new job was. -/
def shadowWindowCount (jobs : List FdcQueueJob) (quotaScope : String) (sequence : Nat)
    (readyAt : Time) (windowSeconds : Nat) : Nat :=
  jobs.countP fun job =>
    job.quotaScope = quotaScope ∧ job.mode = .shadow ∧ job.status = .shadowWouldGrant ∧
      job.enqueueSequence < sequence ∧
      recent (FdcQuotaTables.interval windowSeconds) readyAt job.fdcReadyAt ∧
      job.fdcReadyAt ≤ readyAt

/-- The attempt row of a shadow judgement. -/
def NewJob.shadowAttempt (new : NewJob) (jobId : Option UUID) (attemptId : UUID)
    (callerId : String) (wouldGrant : Bool) : FdcProviderAttempt where
  attemptId := attemptId
  jobId := jobId
  manualRunId := none
  quotaScope := new.quotaScope
  callerId := callerId
  mode := .shadow
  attemptNo := 1
  outcome := if wouldGrant then .shadowWouldGrant else .shadowQueued
  reservedAt := new.fdcReadyAt

def shadowStatus (wouldGrant : Bool) : JobStatus :=
  if wouldGrant then .shadowWouldGrant else .shadowQueued

/-- The judgement over the shadow jobs that are there. -/
def shadowJudgement (t : FdcQuotaTables) (jobs : List FdcQueueJob) (new : NewJob)
    (targetRpm windowSeconds : Nat) : ShadowJudgement :=
  let count := shadowWindowCount jobs new.quotaScope t.nextSequence new.fdcReadyAt windowSeconds
  { jobId := t.nextId
    wouldGrant := count < targetRpm
    windowCount := count
    attemptId := t.nextId + 1
    enqueueSequence := t.nextSequence }

def PostgresFdcQuotaRepository.registerShadowJobAndJudge (t : FdcQuotaTables) (new : NewJob)
    (targetRpm windowSeconds : Nat) (callerId : String)
    (failure : Option (DatabaseError × String)) : ShadowJudgementResult × FdcQuotaTables :=
  match failure with
  | some (error, text) => (.coordinatorError (classifyError error) text, t)
  | none =>
    if new.quotaScope ∉ t.fdcQuotaState then
      (.coordinatorError .coordinatorTransactionError
        (anchorMissing new.quotaScope "shadow job not registered"), t)
    else
      let judgement := shadowJudgement t t.fdcQueueJobs new targetRpm windowSeconds
      (.judged judgement, { t with
        fdcQueueJobs := t.fdcQueueJobs ++
          [{ new.row .shadow (shadowStatus judgement.wouldGrant) t with queuePollCount := 1 }]
        fdcProviderAttempts :=
          new.shadowAttempt (some t.nextId) (t.nextId + 1) callerId judgement.wouldGrant ::
            t.fdcProviderAttempts
        nextSequence := t.nextSequence + 1
        nextId := t.nextId + 2 })

/-- `InMemoryFdcQuotaRepository.register_shadow_job_and_judge`; the attempt does not name its
job. -/
def InMemoryFdcQuotaRepository.registerShadowJobAndJudge (t : FdcQuotaTables) (new : NewJob)
    (targetRpm windowSeconds : Nat) (callerId : String) : ShadowJudgementResult × FdcQuotaTables :=
  let judgement := shadowJudgement t t.shadowJobs new targetRpm windowSeconds
  (.judged judgement, { t with
    shadowJobs := t.shadowJobs ++
      [{ new.row .shadow (shadowStatus judgement.wouldGrant) t with queuePollCount := 1 }]
    fdcProviderAttempts :=
      new.shadowAttempt none (t.nextId + 1) callerId judgement.wouldGrant ::
        t.fdcProviderAttempts
    nextSequence := t.nextSequence + 1
    nextId := t.nextId + 2 })

/-! The operations in which the two repositories agree. -/

namespace FdcQuotaTables

def registerRealJob (t : FdcQuotaTables) (new : NewJob) : UUID × FdcQuotaTables :=
  (t.nextId, { t with
    fdcQueueJobs := t.fdcQueueJobs ++ [new.row .real .queued t]
    nextSequence := t.nextSequence + 1
    nextId := t.nextId + 1 })

/-- The row of the reservation with its outcome. -/
def recorded (reservationId : UUID) (outcome : AttemptOutcome) (httpStartedAt : Option Time)
    (attempt : FdcProviderAttempt) : FdcProviderAttempt :=
  if attempt.attemptId = reservationId then
    { attempt with
      outcome := outcome
      httpStartedAt := httpStartedAt.or attempt.httpStartedAt }
  else attempt

/-- `record_attempt_outcome`. Only a start of the request is guarded: it is recorded on a row
that has no start yet. -/
def recordAttemptOutcome (t : FdcQuotaTables) (reservationId : UUID) (outcome : AttemptOutcome)
    (httpStartedAt : Option Time) : Except OutcomeError FdcQuotaTables :=
  match t.fdcProviderAttempts.find? (·.attemptId = reservationId) with
  | none => .error (.noAttempt reservationId)
  | some attempt =>
    match outcome, attempt.httpStartedAt with
    | .httpStarted, some before => .error (.httpStartedBefore reservationId before)
    | _, _ => .ok { t with
        fdcProviderAttempts :=
          t.fdcProviderAttempts.map (recorded reservationId outcome httpStartedAt) }

def markJobTerminal (t : FdcQuotaTables) (jobId : UUID) (status : JobStatus)
    (reason : Option String) : FdcQuotaTables :=
  t.updateJob jobId fun job => { job with status := status, failureOrCancelReason := reason }

def markJobStatus (t : FdcQuotaTables) (jobId : UUID) (status : JobStatus) : FdcQuotaTables :=
  t.updateJob jobId fun job => { job with status := status }

/-- `apply_retry_failure`; a retry of a job that is there draws the next number of the
sequence. -/
def applyRetryFailure (t : FdcQuotaTables) (jobId : UUID) (reason : RetryReason)
    (willRetry : Bool) : FdcQuotaTables :=
  let failed (job : FdcQueueJob) : FdcQueueJob :=
    { job with
      reservedButHttpNotStartedCount := job.reservedButHttpNotStartedCount +
        if reason = .preHttpExecutionFailure then 1 else 0 }
  let requeued (job : FdcQueueJob) : FdcQueueJob :=
    { failed job with
      providerRetryCount := job.providerRetryCount +
        if reason = .providerRetryableFailure then 1 else 0
      preHttpExecutionFailureCount := job.preHttpExecutionFailureCount +
        if reason = .preHttpExecutionFailure then 1 else 0
      queueReenqueueCount := job.queueReenqueueCount + 1
      status := .queued
      enqueueSequence := t.nextSequence }
  if willRetry then
    if (t.job? jobId).isSome then
      { t.updateJob jobId requeued with nextSequence := t.nextSequence + 1 }
    else t
  else t.updateJob jobId failed

def recordHttpAttemptCounters (t : FdcQuotaTables) (jobId : UUID) (http429Observed : Bool) :
    FdcQuotaTables :=
  t.updateJob jobId fun job =>
    { job with
      httpAttemptCount := job.httpAttemptCount + 1
      http429Count := job.http429Count + if http429Observed then 1 else 0 }

def lifecycleOf : Option FdcProviderAttempt → AttemptHttpLifecycle
  | none => .notFound
  | some attempt => if attempt.httpStartedAt.isNone then .notStarted else .started

def getAttemptHttpLifecycle (t : FdcQuotaTables) (reservationId : UUID) : AttemptHttpLifecycle :=
  lifecycleOf (t.fdcProviderAttempts.find? (·.attemptId = reservationId))

/-- `get_latest_real_job_attempt_lifecycle`; of attempts reserved at the same instant the database
may take any, here the first. -/
def getLatestRealJobAttemptLifecycle (t : FdcQuotaTables) (jobId : UUID) : AttemptHttpLifecycle :=
  lifecycleOf ((t.fdcProviderAttempts.reverse.filter (·.jobId = some jobId)).insertionSort
    fun a b => b.reservedAt ≤ a.reservedAt).head?

/-- A queued job that cannot be resumed, with the reason it is ended for. -/
def unresumable (job : FdcQueueJob) : Option String :=
  if job.preFdcResult.isNone then some "fdc_carryover_payload_missing_data_integrity_error"
  else if (job.correlationId.getD "") = "" then
    some "fdc_carryover_correlation_id_missing_data_integrity_error"
  else none

def resumeRow (acc : List FdcQueueJob × FdcQuotaTables) (row : FdcQueueJob) :
    List FdcQueueJob × FdcQuotaTables :=
  match unresumable row with
  | some reason => (acc.1, acc.2.markJobTerminal row.jobId .fdcFailedFinal (some reason))
  | none => (acc.1 ++ [row], acc.2)

/-- `list_resumable_real_jobs`: the queued jobs in order of their sequence, the broken ones
ended. -/
def listResumableRealJobs (t : FdcQuotaTables) (quotaScope : String) :
    List FdcQueueJob × FdcQuotaTables :=
  let rows := (t.fdcQueueJobs.filter fun job =>
    job.quotaScope = quotaScope ∧ job.mode = .real ∧ job.status = .queued).insertionSort
      fun a b => a.enqueueSequence ≤ b.enqueueSequence
  rows.foldl resumeRow ([], t)

def cancelRow (reason : String) (acc : Nat × FdcQuotaTables) (row : FdcQueueJob) :
    Nat × FdcQuotaTables :=
  (acc.1 + 1,
    match acc.2.getLatestRealJobAttemptLifecycle row.jobId with
    | .notFound | .notStarted => acc.2.markJobTerminal row.jobId .cancelled (some reason)
    | .started => acc.2.markJobTerminal row.jobId .fdcFailedFinal
        (some "fdc_only_subprocess_crashed_after_http_start_result_unknown"))

/-- `cancel_stale_real_jobs`: a job whose reservation came to nothing before the restart is
cancelled, or failed when its request may have been sent. -/
def cancelStaleRealJobs (t : FdcQuotaTables) (quotaScope reason : String) :
    Nat × FdcQuotaTables :=
  let stale := t.fdcQueueJobs.filter fun job =>
    job.quotaScope = quotaScope ∧ job.mode = .real ∧ job.status = .reservationGranted
  stale.foldl (cancelRow reason) (0, t)

theorem recordAttemptOutcome_eq {t next : FdcQuotaTables} {reservationId : UUID}
    {outcome : AttemptOutcome} {httpStartedAt : Option Time}
    (h : t.recordAttemptOutcome reservationId outcome httpStartedAt = .ok next) :
    next = { t with
      fdcProviderAttempts :=
        t.fdcProviderAttempts.map (recorded reservationId outcome httpStartedAt) } := by
  unfold recordAttemptOutcome at h
  split at h
  · exact nomatch h
  · split at h
    · exact nomatch h
    · exact (Except.ok.inj h).symm

/-! Both scans end jobs one by one, so they keep what ending one job keeps. -/

theorem listResumable_keeps {P : FdcQuotaTables → Prop}
    (hkeeps : ∀ t jobId reason, P t → P (t.markJobTerminal jobId .fdcFailedFinal reason))
    {t : FdcQuotaTables} (ht : P t) (quotaScope : String) :
    P (t.listResumableRealJobs quotaScope).2 := by
  refine List.foldlRecOn (motive := fun acc : List FdcQueueJob × FdcQuotaTables => P acc.2)
    _ _ ht ?_
  intro acc hacc row _
  unfold resumeRow
  split
  · exact hkeeps _ _ _ hacc
  · exact hacc

theorem cancelStale_keeps {P : FdcQuotaTables → Prop}
    (hcancels : ∀ t jobId reason, P t → P (t.markJobTerminal jobId .cancelled reason))
    (hfails : ∀ t jobId reason, P t → P (t.markJobTerminal jobId .fdcFailedFinal reason))
    {t : FdcQuotaTables} (ht : P t) (quotaScope reason : String) :
    P (t.cancelStaleRealJobs quotaScope reason).2 := by
  refine List.foldlRecOn (motive := fun acc : Nat × FdcQuotaTables => P acc.2) _ _ ht ?_
  intro acc hacc row _
  unfold cancelRow
  dsimp only
  split
  · exact hcancels _ _ _ hacc
  · exact hcancels _ _ _ hacc
  · exact hfails _ _ _ hacc

end FdcQuotaTables

/-- The settings of one scope, checked when the coordinator is built. -/
structure FdcQuotaCoordinator where
  targetRpm : Nat
  windowSeconds : Nat
  quotaScope : String
  declaredRpmLimit : Option Nat := none
  targetRpm_pos : 0 < targetRpm
  windowSeconds_pos : 0 < windowSeconds
  below_declared : ∀ limit, declaredRpmLimit = some limit → targetRpm < limit

/-- A coordinator of the scope that all processes share, with a window of a minute. -/
def FdcQuotaCoordinator.shared (targetRpm : Nat) (h : 0 < targetRpm) : FdcQuotaCoordinator where
  targetRpm := targetRpm
  windowSeconds := 60
  quotaScope := "gemini:shared-operational"
  targetRpm_pos := h
  windowSeconds_pos := by decide
  below_declared := by simp

/-- The call a coordinator passes on. -/
def FdcQuotaCoordinator.call (c : FdcQuotaCoordinator) (jobId : Option UUID) (callerId : String)
    (mode : Mode) (manualRunId : Option String) (attemptNo : Int) : ReserveCall where
  quotaScope := c.quotaScope
  targetRpm := c.targetRpm
  windowSeconds := c.windowSeconds
  jobId := jobId
  callerId := callerId
  mode := mode
  manualRunId := manualRunId
  attemptNo := attemptNo

def manualCallerIdPrefix : String := "manual:"

/-- The refusal of a manual caller, before the repository is asked. `policy` is the answer of
`manual_call_policy`, none when there is no policy. -/
def manualRefusal (callerId : String) (policy : Option Bool) : Option String :=
  if callerId.startsWith manualCallerIdPrefix then
    match policy with
    | none => some ("manual caller_id='" ++ callerId ++ "' rejected: no manual_call_policy was " ++
        "injected into FdcQuotaCoordinator (fail-closed default — §11 계약).")
    | some false => some ("manual caller_id='" ++ callerId ++ "' rejected by " ++
        "manual_call_policy (e.g. 운영 시간/거래일 fail-closed 차단).")
    | some true => none
  else none

/-- Which of the two repositories is in use. -/
inductive Backend where
  | postgres
  | memory
  deriving DecidableEq, Repr

/-- What a reservation finds outside the tables: the clock, and what the database raises. -/
structure ReserveEnv where
  counted : Time
  now : Time
  failure : Option (DatabaseError × String) := none
  violation : String := ""

/-- `FdcQuotaRepository.try_reserve` -/
def reserve (backend : Backend) (t : FdcQuotaTables) (call : ReserveCall) (env : ReserveEnv) :
    ReservationResult × FdcQuotaTables :=
  match backend with
  | .postgres => PostgresFdcQuotaRepository.tryReserve t call env.now env.failure env.violation
  | .memory => InMemoryFdcQuotaRepository.tryReserve t call env.counted env.now

def FdcQuotaCoordinator.tryReserve (c : FdcQuotaCoordinator) (backend : Backend)
    (t : FdcQuotaTables) (jobId : Option UUID) (callerId : String) (mode : Mode)
    (manualRunId : Option String) (attemptNo : Int) (policy : Option Bool) (env : ReserveEnv) :
    ReservationResult × FdcQuotaTables :=
  match manualRefusal callerId policy with
  | some detail => (.coordinatorError .manualCallPolicyRejected detail, t)
  | none => reserve backend t (c.call jobId callerId mode manualRunId attemptNo) env

/-- The instant from which the window is counted back. -/
def ReserveEnv.countedAt (env : ReserveEnv) : Backend → Time
  | .postgres => env.now
  | .memory => env.counted

/-- The jobs that a reservation for this one gives way to. -/
def earlierQueued (backend : Backend) (t : FdcQuotaTables) (quotaScope : String) (jobId : UUID) :
    Bool :=
  match backend with
  | .postgres => PostgresFdcQuotaRepository.earlierQueued t quotaScope jobId
  | .memory => InMemoryFdcQuotaRepository.earlierQueued t quotaScope jobId

/-- What has been checked when a reservation is granted. -/
structure Grantable (backend : Backend) (t : FdcQuotaTables) (call : ReserveCall)
    (env : ReserveEnv) : Prop where
  locked : backend = .postgres → env.failure = none ∧ call.quotaScope ∈ t.fdcQuotaState
  room : t.windowCount call.quotaScope call.windowSeconds (env.countedAt backend) < call.targetRpm
  turn : ∀ id, call.jobId = some id → earlierQueued backend t call.quotaScope id = false
  valid : backend = .postgres → PostgresFdcQuotaRepository.violates t call = false

/-- A reservation is granted after its checks, or grants nothing and at most counts a denial. -/
theorem reserve_cases (backend : Backend) (t : FdcQuotaTables) (call : ReserveCall)
    (env : ReserveEnv) :
    ((∃ grant, (reserve backend t call env).1 = .grant grant) ∧
        (reserve backend t call env).2 = t.granted call env.now ∧
        Grantable backend t call env) ∨
      ((∀ grant, (reserve backend t call env).1 ≠ .grant grant) ∧
        ((reserve backend t call env).2 = t ∨
          (reserve backend t call env).2 = t.updateJob? call.jobId FdcQueueJob.polledDenied)) := by
  cases backend with
  | postgres =>
    simp only [reserve, PostgresFdcQuotaRepository.tryReserve]
    split
    · exact .inr ⟨nofun, .inl rfl⟩
    next hfailure =>
      split
      · exact .inr ⟨nofun, .inl rfl⟩
      next hanchor =>
        split
        · exact .inr ⟨nofun, .inr rfl⟩
        next hturn =>
          split
          · exact .inr ⟨nofun, .inl rfl⟩
          next hvalid =>
            simp only [not_or, not_le, ge_iff_le, Bool.not_eq_true] at hturn
            apply Or.inl
            refine ⟨⟨_, rfl⟩, rfl, fun _ => ⟨hfailure, not_not.mp hanchor⟩, hturn.1, ?_,
              fun _ => Bool.eq_false_iff.mpr hvalid⟩
            intro id hid
            simpa [hid, earlierQueued] using hturn.2
  | memory =>
    simp only [reserve, InMemoryFdcQuotaRepository.tryReserve]
    split
    · exact .inr ⟨nofun, .inr rfl⟩
    next hturn =>
      simp only [not_or, not_le, ge_iff_le, Bool.not_eq_true] at hturn
      apply Or.inl
      refine ⟨⟨_, rfl⟩, rfl, nofun, hturn.1, ?_, nofun⟩
      intro id hid
      simpa [hid, earlierQueued] using hturn.2

/-- The operations on the tables. -/
inductive Operation where
  | tryReserve (coordinator : FdcQuotaCoordinator) (jobId : Option UUID) (callerId : String)
      (mode : Mode) (manualRunId : Option String) (attemptNo : Int) (policy : Option Bool)
      (env : ReserveEnv)
  | recordAttemptOutcome (reservationId : UUID) (outcome : AttemptOutcome)
      (httpStartedAt : Option Time)
  | registerShadowJobAndJudge (new : NewJob) (targetRpm windowSeconds : Nat) (callerId : String)
      (failure : Option (DatabaseError × String))
  | registerRealJob (new : NewJob)
  | listResumableRealJobs (quotaScope : String)
  | cancelStaleRealJobs (quotaScope reason : String)
  | markJobTerminal (jobId : UUID) (status : JobStatus) (reason : Option String)
  | markJobStatus (jobId : UUID) (status : JobStatus)
  | applyRetryFailure (jobId : UUID) (reason : RetryReason) (willRetry : Bool)
  | recordHttpAttemptCounters (jobId : UUID) (http429Observed : Bool)

/-- The tables after an operation; one that raises leaves them as they are. -/
def perform (backend : Backend) (t : FdcQuotaTables) : Operation → FdcQuotaTables
  | .tryReserve c jobId callerId mode manualRunId attemptNo policy env =>
    (c.tryReserve backend t jobId callerId mode manualRunId attemptNo policy env).2
  | .recordAttemptOutcome reservationId outcome httpStartedAt =>
    match t.recordAttemptOutcome reservationId outcome httpStartedAt with
    | .error _ => t
    | .ok next => next
  | .registerShadowJobAndJudge new targetRpm windowSeconds callerId failure =>
    match backend with
    | .postgres => (PostgresFdcQuotaRepository.registerShadowJobAndJudge t new targetRpm
        windowSeconds callerId failure).2
    | .memory => (InMemoryFdcQuotaRepository.registerShadowJobAndJudge t new targetRpm
        windowSeconds callerId).2
  | .registerRealJob new => (t.registerRealJob new).2
  | .listResumableRealJobs quotaScope => (t.listResumableRealJobs quotaScope).2
  | .cancelStaleRealJobs quotaScope reason => (t.cancelStaleRealJobs quotaScope reason).2
  | .markJobTerminal jobId status reason => t.markJobTerminal jobId status reason
  | .markJobStatus jobId status => t.markJobStatus jobId status
  | .applyRetryFailure jobId reason willRetry => t.applyRetryFailure jobId reason willRetry
  | .recordHttpAttemptCounters jobId observed => t.recordHttpAttemptCounters jobId observed

/-- Empty tables with the rows of the scopes. -/
def seeded (scopes : List String) : FdcQuotaTables := { fdcQuotaState := scopes }

end AgentTrading.Fdc
