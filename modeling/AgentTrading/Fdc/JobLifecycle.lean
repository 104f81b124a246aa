import AgentTrading.Fdc.Queue
import AgentTrading.Library.Pool

/-! The queue under several processes. A transaction is one step. The two scans list their rows in
one transaction and end jobs in later ones, so that other steps come in between; no operation asks
whether the job it is given has been ended. -/
namespace AgentTrading.Fdc
open Domain Library

def JobStatus.terminal : JobStatus → Bool
  | .fdcSucceeded | .fdcFailedFinal | .cancelled => true
  | _ => false

/-- The statuses `mark_job_terminal` is for. -/
abbrev TerminalStatus := { status : JobStatus // status.terminal = true }

/-- The transactions. -/
inductive QueueOp where
  | tryReserve (call : ReserveCall)
  | registerRealJob (new : NewJob)
  | applyRetryFailure (jobId : UUID) (reason : RetryReason) (willRetry : Bool)
  | recordAttemptOutcome (reservationId : UUID) (outcome : AttemptOutcome)
      (httpStartedAt : Option Time)
  | markJobTerminal (jobId : UUID) (status : TerminalStatus) (reason : Option String)
  | queuedRows (quotaScope : String)
  | grantedRows (quotaScope : String)
  | latestRealJobAttemptLifecycle (jobId : UUID)

abbrev QueueReply : QueueOp → Type
  | .tryReserve _ => ReservationResult
  | .registerRealJob _ => UUID
  | .applyRetryFailure .. => Unit
  | .recordAttemptOutcome .. => Except OutcomeError Unit
  | .markJobTerminal .. => Unit
  | .queuedRows _ => List FdcQueueJob
  | .grantedRows _ => List FdcQueueJob
  | .latestRealJobAttemptLifecycle _ => AttemptHttpLifecycle

namespace QueueOp
open FdcQuotaTables

def exec (backend : Backend) (env : ReserveEnv) (op : QueueOp) (t : FdcQuotaTables) :
    QueueReply op × FdcQuotaTables :=
  match op with
  | .tryReserve call => reserve backend t call env
  | .registerRealJob new => t.registerRealJob new
  | .applyRetryFailure jobId reason willRetry => ((), t.applyRetryFailure jobId reason willRetry)
  | .recordAttemptOutcome reservationId outcome httpStartedAt =>
    match t.recordAttemptOutcome reservationId outcome httpStartedAt with
    | .error e => (.error e, t)
    | .ok next => (.ok (), next)
  | .markJobTerminal jobId status reason => ((), t.markJobTerminal jobId status reason)
  | .queuedRows quotaScope =>
    ((t.fdcQueueJobs.filter fun job =>
      job.quotaScope = quotaScope ∧ job.mode = .real ∧ job.status = .queued).insertionSort
        fun a b => a.enqueueSequence ≤ b.enqueueSequence, t)
  | .grantedRows quotaScope =>
    (t.fdcQueueJobs.filter fun job =>
      job.quotaScope = quotaScope ∧ job.mode = .real ∧ job.status = .reservationGranted, t)
  | .latestRealJobAttemptLifecycle jobId => (t.getLatestRealJobAttemptLifecycle jobId, t)

end QueueOp

abbrev QueueCode (α : Type) := Program QueueOp QueueReply OutcomeError α

namespace QueueCode
open FdcQuotaTables

abbrev await (op : QueueOp) : QueueCode (QueueReply op) := Program.perform op

/-- The rows that can be resumed; the others are ended. -/
def resume : List FdcQueueJob → List FdcQueueJob → QueueCode (List FdcQueueJob)
  | [], resumable => return resumable
  | row :: rest, resumable =>
    match unresumable row with
    | some reason => do
      await (.markJobTerminal row.jobId ⟨.fdcFailedFinal, rfl⟩ (some reason))
      resume rest resumable
    | none => resume rest (resumable ++ [row])

def listResumableRealJobs (quotaScope : String) : QueueCode (List FdcQueueJob) := do
  let rows ← await (.queuedRows quotaScope)
  resume rows []

/-- What the scan ends a job as. -/
def staleEnd (reason : String) : AttemptHttpLifecycle → TerminalStatus × String
  | .notFound | .notStarted => (⟨.cancelled, rfl⟩, reason)
  | .started =>
    (⟨.fdcFailedFinal, rfl⟩, "fdc_only_subprocess_crashed_after_http_start_result_unknown")

def cancelRows (reason : String) : List FdcQueueJob → Nat → QueueCode Nat
  | [], transitioned => return transitioned
  | row :: rest, transitioned => do
    let lifecycle ← await (.latestRealJobAttemptLifecycle row.jobId)
    await (.markJobTerminal row.jobId (staleEnd reason lifecycle).1
      (some (staleEnd reason lifecycle).2))
    cancelRows reason rest (transitioned + 1)

def cancelStaleRealJobs (quotaScope reason : String) : QueueCode Nat := do
  let rows ← await (.grantedRows quotaScope)
  cancelRows reason rows 0

/-! Undisturbed, a scan is the operation that `FdcQuotaTables` has for it: the runs of calls here
and the single operations there are of one code. -/

theorem resume_run (backend : Backend) (env : ReserveEnv) (rows resumable : List FdcQueueJob)
    (t : FdcQuotaTables) :
    (resume rows resumable).run (QueueOp.exec backend env) t =
      (.ok (rows.foldl FdcQuotaTables.resumeRow (resumable, t)).1,
        (rows.foldl FdcQuotaTables.resumeRow (resumable, t)).2) := by
  induction rows generalizing resumable t with
  | nil => rfl
  | cons row rest ih =>
    rw [resume, List.foldl_cons, FdcQuotaTables.resumeRow]
    cases unresumable row with
    | some reason => exact ih resumable _
    | none => exact ih _ t

theorem listResumableRealJobs_run (backend : Backend) (env : ReserveEnv) (quotaScope : String)
    (t : FdcQuotaTables) :
    (listResumableRealJobs quotaScope).run (QueueOp.exec backend env) t =
      (.ok (t.listResumableRealJobs quotaScope).1, (t.listResumableRealJobs quotaScope).2) :=
  resume_run backend env _ [] t

theorem cancelRows_run (backend : Backend) (env : ReserveEnv) (reason : String)
    (rows : List FdcQueueJob) (transitioned : Nat) (t : FdcQuotaTables) :
    (cancelRows reason rows transitioned).run (QueueOp.exec backend env) t =
      (.ok (rows.foldl (FdcQuotaTables.cancelRow reason) (transitioned, t)).1,
        (rows.foldl (FdcQuotaTables.cancelRow reason) (transitioned, t)).2) := by
  induction rows generalizing transitioned t with
  | nil => rfl
  | cons row rest ih =>
    rw [cancelRows, List.foldl_cons, FdcQuotaTables.cancelRow]
    simp only [Program.bind_eq, Program.perform_bind, Program.run_call, QueueOp.exec]
    rw [ih]
    cases t.getLatestRealJobAttemptLifecycle row.jobId <;> rfl

theorem cancelStaleRealJobs_run (backend : Backend) (env : ReserveEnv)
    (quotaScope reason : String) (t : FdcQuotaTables) :
    (cancelStaleRealJobs quotaScope reason).run (QueueOp.exec backend env) t =
      (.ok (t.cancelStaleRealJobs quotaScope reason).1,
        (t.cancelStaleRealJobs quotaScope reason).2) :=
  cancelRows_run backend env reason _ 0 t

end QueueCode

/-- The operations that the processes call. -/
inductive QueueCall where
  | tryReserve (call : ReserveCall)
  | registerRealJob (new : NewJob)
  | applyRetryFailure (jobId : UUID) (reason : RetryReason) (willRetry : Bool)
  | recordAttemptOutcome (reservationId : UUID) (outcome : AttemptOutcome)
      (httpStartedAt : Option Time)
  | markJobTerminal (jobId : UUID) (status : TerminalStatus) (reason : Option String)
  | listResumableRealJobs (quotaScope : String)
  | cancelStaleRealJobs (quotaScope reason : String)

open QueueCode in
def QueueCall.code : QueueCall → QueueCode Unit
  | .tryReserve call => do
    let _ ← await (.tryReserve call)
    return ()
  | .registerRealJob new => do
    let _ ← await (.registerRealJob new)
    return ()
  | .applyRetryFailure jobId reason willRetry => await (.applyRetryFailure jobId reason willRetry)
  | .recordAttemptOutcome reservationId outcome httpStartedAt => do
    let recorded ← await (.recordAttemptOutcome reservationId outcome httpStartedAt)
    match recorded with
    | .ok () => return ()
    | .error e => .raise e
  | .markJobTerminal jobId status reason => await (.markJobTerminal jobId status reason)
  | .listResumableRealJobs quotaScope => do
    let _ ← QueueCode.listResumableRealJobs quotaScope
    return ()
  | .cancelStaleRealJobs quotaScope reason => do
    let _ ← QueueCode.cancelStaleRealJobs quotaScope reason
    return ()

namespace FdcQuotaTables

/-- The job is a real one in a terminal status. -/
def Ended (t : FdcQuotaTables) (jobId : UUID) : Prop :=
  ∃ job, t.job? jobId = some job ∧ job.mode = .real ∧ job.status.terminal

instance (t : FdcQuotaTables) (jobId : UUID) : Decidable (t.Ended jobId) :=
  decidable_of_iff ((t.job? jobId).any fun job => job.mode = .real ∧ job.status.terminal) (by
    simp only [Ended, Option.any_eq_true, decide_eq_true_eq])

/-- The job waits for a reservation or holds one. -/
def Alive (t : FdcQuotaTables) (jobId : UUID) : Prop :=
  ∃ job, t.job? jobId = some job ∧ (job.status = .queued ∨ job.status = .reservationGranted)

/-- The reservations granted to a job: each has its attempt row. -/
def reservations (t : FdcQuotaTables) (jobId : UUID) : Nat :=
  t.fdcProviderAttempts.countP fun attempt => attempt.jobId = some jobId

/-- From `t` to `next` the job has not come alive, and nothing was granted to it. -/
structure StaysEnded (t next : FdcQuotaTables) (jobId : UUID) : Prop where
  dead : ¬ next.Alive jobId
  reservations : next.reservations jobId = t.reservations jobId

variable {t : FdcQuotaTables} {jobId : UUID}

theorem job?_updateJob (t : FdcQuotaTables) (jobId other : UUID) (set : FdcQueueJob → FdcQueueJob)
    (hset : ∀ job, (set job).jobId = job.jobId) :
    (t.updateJob other set).job? jobId =
      (t.job? jobId).map fun job => if jobId = other then set job else job := by
  have hid : ∀ job, (if job.jobId = other then set job else job).jobId = job.jobId := by
    intro job
    split
    · exact hset job
    · rfl
  simp only [job?, updateJob, List.find?_map, Function.comp_def, hid]
  cases hfound : t.fdcQueueJobs.find? (·.jobId = jobId) with
  | none => rfl
  | some job =>
    have hjob : job.jobId = jobId := by simpa using List.find?_some hfound
    simp only [Option.map_some, hjob]

theorem Ended.not_alive (h : t.Ended jobId) : ¬ t.Alive jobId := by
  rintro ⟨job, hjob, halive⟩
  obtain ⟨ended, hended, -, hterminal⟩ := h
  obtain rfl := Option.some.inj (hjob.symm.trans hended)
  rcases halive with halive | halive <;> simp [halive, JobStatus.terminal] at hterminal

theorem Ended.congr {next : FdcQuotaTables} (h : t.Ended jobId)
    (hjobs : next.fdcQueueJobs = t.fdcQueueJobs) : next.Ended jobId := by
  unfold Ended job? at h ⊢
  rwa [hjobs]

theorem Ended.updateJob (h : t.Ended jobId) (other : UUID) (set : FdcQueueJob → FdcQueueJob)
    (hset : ∀ job, (set job).jobId = job.jobId)
    (hkeeps : jobId = other → ∀ job : FdcQueueJob, job.mode = .real → job.status.terminal →
      (set job).mode = .real ∧ (set job).status.terminal) :
    (t.updateJob other set).Ended jobId := by
  obtain ⟨job, hjob, hreal, hterminal⟩ := h
  refine ⟨_, by rw [job?_updateJob t jobId other set hset, hjob, Option.map_some], ?_⟩
  split
  · next heq => exact hkeeps heq job hreal hterminal
  · exact ⟨hreal, hterminal⟩

theorem reservations_granted (t : FdcQuotaTables) (jobId : UUID) (call : ReserveCall) (now : Time) :
    (t.granted call now).reservations jobId =
      t.reservations jobId + if call.jobId = some jobId then 1 else 0 := by
  unfold reservations
  rw [granted_attempts, List.countP_cons]
  by_cases hcall : call.jobId = some jobId
  · simp [ReserveCall.attempt, hcall]
  · simp [ReserveCall.attempt, hcall]

theorem Ended.granted (h : t.Ended jobId) (call : ReserveCall) (now : Time)
    (hother : call.jobId ≠ some jobId) : (t.granted call now).Ended jobId := by
  unfold FdcQuotaTables.granted updateJob?
  split
  · next other hcall =>
    apply Ended.updateJob (h.congr rfl) other FdcQueueJob.polledGranted (fun _ => rfl)
    rintro rfl
    exact absurd hcall hother
  · exact h.congr rfl

theorem Ended.denied (h : t.Ended jobId) (call : ReserveCall) :
    (t.updateJob? call.jobId FdcQueueJob.polledDenied).Ended jobId := by
  unfold updateJob?
  split
  · exact h.updateJob _ _ (fun _ => rfl) fun _ _ hreal hterminal => ⟨hreal, hterminal⟩
  · exact h

theorem Ended.registerRealJob (h : t.Ended jobId) (new : NewJob) :
    (t.registerRealJob new).2.Ended jobId := by
  obtain ⟨job, hjob, hended⟩ := h
  refine ⟨job, ?_, hended⟩
  unfold job? at hjob ⊢
  unfold FdcQuotaTables.registerRealJob
  simp only [List.find?_append, hjob, Option.some_or]

theorem job?_applyRetryFailure (t : FdcQuotaTables) (jobId other : UUID) (reason : RetryReason)
    (willRetry : Bool) : ∃ set : FdcQueueJob → FdcQueueJob,
      (∀ job, (set job).mode = job.mode ∧
        (set job).status = if willRetry then .queued else job.status) ∧
      (t.applyRetryFailure other reason willRetry).job? jobId =
        (t.job? jobId).map fun job => if jobId = other then set job else job := by
  cases willRetry with
  | false =>
    unfold FdcQuotaTables.applyRetryFailure
    simp only [Bool.false_eq_true, if_false]
    refine ⟨_, ?_, job?_updateJob t jobId other _ ?_⟩
    · exact fun _ => ⟨rfl, rfl⟩
    · exact fun _ => rfl
  | true =>
    unfold FdcQuotaTables.applyRetryFailure
    simp only [if_true]
    cases hfound : t.job? other with
    | some job =>
      simp only [Option.isSome_some, if_true]
      refine ⟨_, ?_, job?_updateJob t jobId other _ ?_⟩
      · exact fun _ => ⟨rfl, rfl⟩
      · exact fun _ => rfl
    | none =>
      refine ⟨fun job => { job with status := .queued }, fun _ => ⟨rfl, rfl⟩, ?_⟩
      simp only [Option.isSome_none, Bool.false_eq_true, if_false]
      by_cases hid : jobId = other
      · rw [hid, hfound, Option.map_none]
      · simp only [hid, if_false, Option.map_id']

theorem Ended.applyRetryFailure (h : t.Ended jobId) (other : UUID) (reason : RetryReason)
    (willRetry : Bool) (hspares : willRetry = true → ¬ t.Ended other) :
    (t.applyRetryFailure other reason willRetry).Ended jobId := by
  obtain ⟨set, hset, hjob?⟩ := job?_applyRetryFailure t jobId other reason willRetry
  obtain ⟨job, hjob, hreal, hterminal⟩ := id h
  refine ⟨_, by rw [hjob?, hjob, Option.map_some], ?_⟩
  split
  · next hid =>
    have hretry : willRetry = false := by
      rw [← Bool.not_eq_true]
      rintro hretry
      exact hspares hretry (hid ▸ h)
    rw [(hset job).1, (hset job).2, hretry]
    exact ⟨hreal, hterminal⟩
  · exact ⟨hreal, hterminal⟩

theorem Ended.alive_retry (h : t.Ended jobId) (reason : RetryReason) :
    (t.applyRetryFailure jobId reason true).Alive jobId := by
  obtain ⟨set, hset, hjob?⟩ := job?_applyRetryFailure t jobId jobId reason true
  obtain ⟨job, hjob, -⟩ := h
  refine ⟨set job, ?_, Or.inl (hset job).2⟩
  rw [hjob?, hjob, Option.map_some, if_pos rfl]

theorem reservations_recorded {next : FdcQuotaTables} (jobId : UUID) {reservationId : UUID}
    {outcome : AttemptOutcome} {httpStartedAt : Option Time}
    (h : t.recordAttemptOutcome reservationId outcome httpStartedAt = .ok next) :
    next.reservations jobId = t.reservations jobId := by
  rw [recordAttemptOutcome_eq h]
  unfold reservations
  rw [List.countP_map]
  congr 1
  funext attempt
  simp only [Function.comp_apply, recorded]
  split <;> rfl

end FdcQuotaTables

namespace QueueOp
open FdcQuotaTables

/-- The operation does not grant a reservation to an ended job, nor does it requeue one. -/
def Spares (backend : Backend) (env : ReserveEnv) : QueueOp → FdcQuotaTables → Prop
  | .tryReserve call, t =>
    ∀ jobId, call.jobId = some jobId → t.Ended jobId → ¬ Grantable backend t call env
  | .applyRetryFailure jobId _ willRetry, t => willRetry = true → ¬ t.Ended jobId
  | _, _ => True

variable {backend : Backend} {env : ReserveEnv} {t : FdcQuotaTables} {jobId : UUID}

theorem reserve_spares (h : t.Ended jobId) (call : ReserveCall)
    (hspares : Spares backend env (.tryReserve call) t) :
    (reserve backend t call env).2.Ended jobId ∧
      (reserve backend t call env).2.reservations jobId = t.reservations jobId := by
  rcases reserve_cases backend t call env with ⟨-, hnext, hgrantable⟩ | ⟨-, hnext | hnext⟩
  · have hother : call.jobId ≠ some jobId := fun hcall => hspares jobId hcall h hgrantable
    rw [hnext, reservations_granted, if_neg hother]
    exact ⟨h.granted call env.now hother, rfl⟩
  · rw [hnext]
    exact ⟨h, rfl⟩
  · rw [hnext]
    refine ⟨h.denied call, ?_⟩
    unfold reservations
    rw [updateJob?_attempts]

theorem exec_spares (op : QueueOp) (h : t.Ended jobId) (hspares : op.Spares backend env t) :
    (op.exec backend env t).2.Ended jobId ∧
      (op.exec backend env t).2.reservations jobId = t.reservations jobId := by
  cases op with
  | tryReserve call => exact reserve_spares h call hspares
  | registerRealJob new => exact ⟨h.registerRealJob new, rfl⟩
  | applyRetryFailure other reason willRetry =>
    refine ⟨h.applyRetryFailure other reason willRetry hspares, ?_⟩
    unfold reservations
    rw [exec, applyRetryFailure_attempts]
  | recordAttemptOutcome reservationId outcome httpStartedAt =>
    simp only [exec]
    split
    · exact ⟨h, rfl⟩
    · next hnext =>
      refine ⟨h.congr ?_, reservations_recorded jobId hnext⟩
      rw [recordAttemptOutcome_eq hnext]
  | markJobTerminal other status reason =>
    refine ⟨?_, rfl⟩
    exact h.updateJob other _ (fun _ => rfl) fun _ _ hreal _ => ⟨hreal, status.property⟩
  | queuedRows quotaScope => exact ⟨h, rfl⟩
  | grantedRows quotaScope => exact ⟨h, rfl⟩
  | latestRealJobAttemptLifecycle other => exact ⟨h, rfl⟩

theorem spares_of_staysEnded (op : QueueOp)
    (h : ∀ jobId, t.Ended jobId → t.StaysEnded (op.exec backend env t).2 jobId) :
    op.Spares backend env t := by
  cases op with
  | tryReserve call =>
    intro jobId hcall hended hgrantable
    have hsame := (h jobId hended).reservations
    rw [exec, reserve_of_grantable hgrantable, reservations_granted, if_pos hcall] at hsame
    omega
  | applyRetryFailure jobId reason willRetry =>
    rintro rfl hended
    exact (h jobId hended).dead (hended.alive_retry reason)
  | _ => trivial

end QueueOp

abbrev Processes := Pool QueueOp QueueReply OutcomeError Unit QueueCall FdcQuotaTables

namespace Processes

abbrev step (backend : Backend) : Processes → Pool.Event QueueCall ReserveEnv → Processes :=
  Pool.step (QueueOp.exec backend) QueueCall.code

abbrev run (backend : Backend) (w : Processes) (events : List (Pool.Event QueueCall ReserveEnv)) :
    Processes :=
  Pool.run (QueueOp.exec backend) QueueCall.code w events

/-- Once a real job has been ended, at no later moment of the run is it alive, and it is granted
no further reservation. -/
def EndedForGood (backend : Backend) (w : Processes)
    (events : List (Pool.Event QueueCall ReserveEnv)) : Prop :=
  ∀ before after rest, events = before ++ after ++ rest → ∀ jobId,
    (run backend w before).shared.Ended jobId →
      (run backend w before).shared.StaysEnded (run backend w (before ++ after)).shared jobId

/-- The transaction of an event spares the ended jobs. -/
abbrev Spares (backend : Backend) : Processes → Pool.Event QueueCall ReserveEnv → Prop :=
  Pool.Allows (fun _ _ => True) fun _ env op t => op.Spares backend env t

variable {backend : Backend} {w : Processes} {event : Pool.Event QueueCall ReserveEnv}

theorem step_spares (hspares : Spares backend w event) {jobId : UUID} (h : w.shared.Ended jobId) :
    (step backend w event).shared.Ended jobId ∧
      (step backend w event).shared.reservations jobId = w.shared.reservations jobId := by
  cases event with
  | start thread call =>
    simp only [Pool.step]
    split
    · exact ⟨h, rfl⟩
    · exact ⟨h, rfl⟩
  | step thread env =>
    simp only [Pool.step]
    split
    · next call op k hthread =>
      have hop : op.Spares backend env w.shared := by
        simpa only [Pool.Allows, hthread] using hspares
      exact op.exec_spares h hop
    · exact ⟨h, rfl⟩

theorem spares_of_step
    (h : ∀ jobId, w.shared.Ended jobId → w.shared.StaysEnded (step backend w event).shared jobId) :
    Spares backend w event := by
  cases event with
  | start thread call => exact fun _ => trivial
  | step thread env =>
    simp only [Pool.Allows]
    split
    · next call op k hthread =>
      simp only [Pool.step, hthread] at h
      exact op.spares_of_staysEnded h
    · trivial

theorem run_staysEnded {events : List (Pool.Event QueueCall ReserveEnv)}
    (hspares : Runs.Meets (step backend) (Spares backend) w events) {jobId : UUID}
    (h : w.shared.Ended jobId) : w.shared.StaysEnded (run backend w events).shared jobId := by
  have hkept := Runs.run_keeps (step backend)
    (I := fun u : Processes => u.shared.Ended jobId ∧
      u.shared.reservations jobId = w.shared.reservations jobId)
    (fun u event hu hevent => ?_) w events ⟨h, rfl⟩ hspares
  · exact ⟨hkept.1.not_alive, hkept.2⟩
  · obtain ⟨hended, hsame⟩ := step_spares hevent hu.1
    exact ⟨hended, hsame.trans hu.2⟩

/-- Ended jobs stay ended in a run exactly if every transaction spares them. -/
theorem endedForGood_iff (backend : Backend) (t : FdcQuotaTables)
    (events : List (Pool.Event QueueCall ReserveEnv)) :
    EndedForGood backend (Pool.idle t) events ↔
      Runs.Meets (step backend) (Spares backend) (Pool.idle t) events := by
  generalize (Pool.idle t : Processes) = w
  constructor
  · intro h
    induction events generalizing w with
    | nil => trivial
    | cons event events ih =>
      constructor
      · apply spares_of_step
        exact fun jobId hended => h [] [event] events rfl jobId hended
      · apply ih
        intro before after rest hevents
        exact h (event :: before) after rest (congrArg (event :: ·) hevents)
  · rintro hspares before after rest rfl jobId hended
    obtain ⟨hbefore, -⟩ := (Runs.meets_append ..).mp hspares
    obtain ⟨-, hafter⟩ := (Runs.meets_append ..).mp hbefore
    have hrun : run backend w (before ++ after) = run backend (run backend w before) after :=
      Runs.run_append ..
    rw [hrun]
    exact run_staysEnded hafter hended

/-! A job that one process cancels while another still holds it. -/

/-- The shared job with its first reservation. -/
def heldJob : FdcQuotaTables :=
  Runs.run (perform .postgres) (seeded ["gemini:shared-operational"])
    [.registerRealJob sharedJob, reserveFor 0 1 1000000]

def atSecond (second : Int) : ReserveEnv where
  counted := second * 1000000
  now := second * 1000000

/-- A restarted process looks for stale jobs and cancels the one it finds. -/
def recoveryScan : List (Pool.Event QueueCall ReserveEnv) :=
  .start 0 (.cancelStaleRealJobs "gemini:shared-operational" "process_terminated_carryover_lost") ::
    List.replicate 3 (.step 0 (atSecond 2))

/-- The dispatcher that holds the job queues it again and asks for its next reservation. -/
def dispatcherRetry : List (Pool.Event QueueCall ReserveEnv) :=
  [.start 1 (.applyRetryFailure 0 .preHttpExecutionFailure true), .step 1 (atSecond 3),
    .start 2 (.tryReserve (twoPerMinute.call (some 0) "ops-scheduler" .real none 2)),
    .step 2 (atSecond 4)]

theorem cancelled_job_reserved :
    let cancelled := run .postgres (Pool.idle heldJob) recoveryScan
    let after := run .postgres (Pool.idle heldJob) (recoveryScan ++ dispatcherRetry)
    (cancelled.shared.job? 0).map (·.status) = some .cancelled ∧
      (after.shared.job? 0).map (·.status) = some .reservationGranted ∧
      after.shared.reservations 0 = 2 ∧
      ¬ EndedForGood .postgres (Pool.idle heldJob) (recoveryScan ++ dispatcherRetry) := by
  refine ⟨by decide +kernel, by decide +kernel, by decide +kernel, fun h => ?_⟩
  have hended : (run .postgres (Pool.idle heldJob) recoveryScan).shared.Ended 0 := by
    decide +kernel
  have hsame := (h recoveryScan dispatcherRetry [] (List.append_nil _).symm 0 hended).reservations
  exact absurd hsame (by decide +kernel)

end Processes

end AgentTrading.Fdc
