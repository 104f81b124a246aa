import AgentTrading.Fdc.Quota
import AgentTrading.Library.Runs

/-! The window of a scope. The transactions reserve in the order in which they take the lock and
stamp with their start, so the stamps come in any order; no window of them holds more than the
target. -/
namespace AgentTrading.Fdc
open Domain Library Library.Runs

namespace FdcQuotaTables

/-- The stamps of the attempts that use up the quota of a scope, newest attempt first. -/
def consumedAt (t : FdcQuotaTables) (quotaScope : String) : List Time :=
  (t.fdcProviderAttempts.filter (consumes quotaScope)).map (·.reservedAt)

theorem windowCount_eq (t : FdcQuotaTables) (quotaScope : String) (windowSeconds : Nat)
    (now : Time) :
    t.windowCount quotaScope windowSeconds now =
      (t.consumedAt quotaScope).countP (recent (interval windowSeconds) now) := by
  simp [windowCount, consumedAt, List.countP_map, List.countP_filter, Function.comp_def,
    Bool.and_comm]

@[simp] theorem updateJob?_attempts (t : FdcQuotaTables) (jobId : Option UUID)
    (set : FdcQueueJob → FdcQueueJob) :
    (t.updateJob? jobId set).fdcProviderAttempts = t.fdcProviderAttempts := by
  cases jobId <;> rfl

theorem granted_attempts (t : FdcQuotaTables) (call : ReserveCall) (now : Time) :
    (t.granted call now).fdcProviderAttempts =
      call.attempt t.nextId now :: t.fdcProviderAttempts := by
  simp [granted]

theorem listResumable_attempts (t : FdcQuotaTables) (quotaScope : String) :
    (t.listResumableRealJobs quotaScope).2.fdcProviderAttempts = t.fdcProviderAttempts :=
  listResumable_keeps (P := fun next => next.fdcProviderAttempts = t.fdcProviderAttempts)
    (fun _ _ _ h => h) rfl quotaScope

theorem cancelStale_attempts (t : FdcQuotaTables) (quotaScope reason : String) :
    (t.cancelStaleRealJobs quotaScope reason).2.fdcProviderAttempts = t.fdcProviderAttempts :=
  cancelStale_keeps (P := fun next => next.fdcProviderAttempts = t.fdcProviderAttempts)
    (fun _ _ _ h => h) (fun _ _ _ h => h) rfl quotaScope reason

theorem applyRetryFailure_attempts (t : FdcQuotaTables) (jobId : UUID) (reason : RetryReason)
    (willRetry : Bool) :
    (t.applyRetryFailure jobId reason willRetry).fdcProviderAttempts =
      t.fdcProviderAttempts := by
  unfold applyRetryFailure
  dsimp only
  split
  · split <;> rfl
  · rfl

/-- The operations that leave the attempts alone. -/
def touchesAttempts : Operation → Bool
  | .tryReserve .. | .recordAttemptOutcome .. | .registerShadowJobAndJudge .. => true
  | _ => false

theorem perform_attempts (backend : Backend) (t : FdcQuotaTables) {operation : Operation}
    (h : touchesAttempts operation = false) :
    (perform backend t operation).fdcProviderAttempts = t.fdcProviderAttempts := by
  cases operation with
  | tryReserve => exact nomatch h
  | recordAttemptOutcome => exact nomatch h
  | registerShadowJobAndJudge => exact nomatch h
  | registerRealJob new => rfl
  | listResumableRealJobs quotaScope => exact listResumable_attempts t quotaScope
  | cancelStaleRealJobs quotaScope reason => exact cancelStale_attempts t quotaScope reason
  | markJobTerminal jobId status reason => rfl
  | markJobStatus jobId status => rfl
  | applyRetryFailure jobId reason willRetry =>
    exact applyRetryFailure_attempts t jobId reason willRetry
  | recordHttpAttemptCounters jobId observed => rfl

/-- A change of outcomes that lets no attempt back into the quota only takes stamps away. -/
theorem consumed_sublist {quotaScope : String} {change : FdcProviderAttempt → FdcProviderAttempt}
    {attempts : List FdcProviderAttempt}
    (hstamp : ∀ attempt, (change attempt).reservedAt = attempt.reservedAt)
    (hleaves : ∀ attempt ∈ attempts, consumes quotaScope (change attempt) →
      consumes quotaScope attempt) :
    (((attempts.map change).filter (consumes quotaScope)).map (·.reservedAt)).Sublist
      ((attempts.filter (consumes quotaScope)).map (·.reservedAt)) := by
  induction attempts with
  | nil => exact List.Sublist.refl _
  | cons attempt attempts ih =>
    have hrest := ih fun other hother => hleaves other (List.mem_cons_of_mem _ hother)
    simp only [List.map_cons]
    by_cases hafter : consumes quotaScope (change attempt)
    · have hbefore := hleaves attempt List.mem_cons_self hafter
      simp only [List.filter_cons, hafter, hbefore, if_true, List.map_cons, hstamp]
      exact hrest.cons_cons _
    · by_cases hbefore : consumes quotaScope attempt
      · simp only [List.filter_cons, hafter, hbefore, if_true, List.map_cons]
        exact hrest.cons _
      · simp only [List.filter_cons, hafter, hbefore]
        exact hrest

end FdcQuotaTables

open FdcQuotaTables

/-- One scope has one setting, an outcome never moves an attempt back into the quota, and the
in-memory repository finds its clock no earlier when it stamps than when it counted. The database
has one reading of its clock, and nothing is asked of it. -/
def Conforms (backend : Backend) (c : FdcQuotaCoordinator) (t : FdcQuotaTables) :
    Operation → Prop
  | .tryReserve other _ _ _ _ _ _ env =>
    (other.quotaScope = c.quotaScope →
      other.targetRpm = c.targetRpm ∧ other.windowSeconds = c.windowSeconds) ∧
    (backend = .memory → env.counted ≤ env.now)
  | .recordAttemptOutcome reservationId outcome _ =>
    outcome ∈ quotaConsumingOutcomes → ∀ attempt ∈ t.fdcProviderAttempts,
      attempt.attemptId = reservationId → attempt.outcome ∈ quotaConsumingOutcomes
  | _ => True

/-- Each consuming attempt of the scope was granted with room in its window. -/
def Roomy (c : FdcQuotaCoordinator) (t : FdcQuotaTables) : Prop :=
  Admitted (recent (interval c.windowSeconds)) c.targetRpm (t.consumedAt c.quotaScope)

theorem Roomy.of_attempts {c : FdcQuotaCoordinator} {t next : FdcQuotaTables} (h : Roomy c t)
    (hattempts : next.fdcProviderAttempts = t.fdcProviderAttempts) : Roomy c next := by
  unfold Roomy consumedAt at h ⊢
  rw [hattempts]
  exact h

theorem Roomy.granted {backend : Backend} {c : FdcQuotaCoordinator} {t : FdcQuotaTables}
    {call : ReserveCall} {env : ReserveEnv} (h : Roomy c t)
    (hroom : t.windowCount call.quotaScope call.windowSeconds (env.countedAt backend) <
      call.targetRpm)
    (hsetting : call.quotaScope = c.quotaScope →
      call.targetRpm = c.targetRpm ∧ call.windowSeconds = c.windowSeconds)
    (hclock : env.countedAt backend ≤ env.now) : Roomy c (t.granted call env.now) := by
  unfold Roomy consumedAt at h ⊢
  rw [granted_attempts, List.filter_cons]
  split
  next hconsumes =>
    have hscope : call.quotaScope = c.quotaScope := (of_decide_eq_true hconsumes).1
    obtain ⟨htarget, hwindow⟩ := hsetting hscope
    rw [windowCount_eq, hscope, htarget, hwindow] at hroom
    refine ⟨lt_of_le_of_lt ?_ hroom, h⟩
    apply List.countP_mono_left
    intro stamp _ hrecent
    rw [recent_iff] at hrecent ⊢
    exact lt_of_le_of_lt (Int.sub_le_sub_right hclock _) hrecent
  next => exact h

theorem Roomy.tryReserve {backend : Backend} {c other : FdcQuotaCoordinator} {t : FdcQuotaTables}
    {jobId : Option UUID} {callerId : String} {mode : Mode} {manualRunId : Option String}
    {attemptNo : Int} {policy : Option Bool} {env : ReserveEnv} (h : Roomy c t)
    (hconforms : Conforms backend c t
      (.tryReserve other jobId callerId mode manualRunId attemptNo policy env)) :
    Roomy c
      (other.tryReserve backend t jobId callerId mode manualRunId attemptNo policy env).2 := by
  unfold FdcQuotaCoordinator.tryReserve
  split
  · exact h
  next =>
    have hclock : env.countedAt backend ≤ env.now := by
      cases backend with
      | postgres => exact le_rfl
      | memory => exact hconforms.2 rfl
    rcases reserve_cases backend t (other.call jobId callerId mode manualRunId attemptNo) env with
      ⟨-, hnext, hgrantable⟩ | ⟨-, hnext | hnext⟩
    · rw [hnext]
      exact h.granted hgrantable.room hconforms.1 hclock
    · rw [hnext]
      exact h
    · rw [hnext]
      exact h.of_attempts (updateJob?_attempts ..)

theorem Roomy.recordAttemptOutcome {backend : Backend} {c : FdcQuotaCoordinator}
    {t next : FdcQuotaTables} {reservationId : UUID} {outcome : AttemptOutcome}
    {httpStartedAt : Option Time} (h : Roomy c t)
    (hconforms : Conforms backend c t (.recordAttemptOutcome reservationId outcome httpStartedAt))
    (hnext : t.recordAttemptOutcome reservationId outcome httpStartedAt = .ok next) :
    Roomy c next := by
  rw [recordAttemptOutcome_eq hnext]
  apply Admitted.sublist (consumed_sublist _ _) h
  · intro attempt
    unfold recorded
    split <;> rfl
  · intro attempt hattempt hafter
    unfold recorded at hafter
    split at hafter
    next hid =>
      simp only [consumes, decide_eq_true_eq] at hafter ⊢
      exact ⟨hafter.1, hafter.2.1, hconforms hafter.2.2 attempt hattempt hid⟩
    next => exact hafter

theorem Roomy.shadow {c : FdcQuotaCoordinator} {t next : FdcQuotaTables} (h : Roomy c t)
    {shadow : FdcProviderAttempt} (hmode : shadow.mode = .shadow)
    (hattempts : next.fdcProviderAttempts = shadow :: t.fdcProviderAttempts) : Roomy c next := by
  have hfree : ¬ consumes c.quotaScope shadow := by simp [consumes, hmode]
  unfold Roomy consumedAt at h ⊢
  rw [hattempts, List.filter_cons_of_neg hfree]
  exact h

theorem Roomy.registerShadow {backend : Backend} {c : FdcQuotaCoordinator} {t : FdcQuotaTables}
    (h : Roomy c t) (new : NewJob) (targetRpm windowSeconds : Nat) (callerId : String)
    (failure : Option (DatabaseError × String)) :
    Roomy c (perform backend t
      (.registerShadowJobAndJudge new targetRpm windowSeconds callerId failure)) := by
  cases backend with
  | postgres =>
    simp only [perform, PostgresFdcQuotaRepository.registerShadowJobAndJudge]
    split
    · exact h
    · split
      · exact h
      · apply h.shadow _ rfl
        rfl
  | memory =>
    apply h.shadow _ rfl
    rfl

theorem Roomy.perform {backend : Backend} {c : FdcQuotaCoordinator} {t : FdcQuotaTables}
    {operation : Operation} (h : Roomy c t) (hconforms : Conforms backend c t operation) :
    Roomy c (perform backend t operation) := by
  cases operation with
  | tryReserve other jobId callerId mode manualRunId attemptNo policy env =>
    exact h.tryReserve hconforms
  | recordAttemptOutcome reservationId outcome httpStartedAt =>
    simp only [Fdc.perform]
    split
    · exact h
    next hnext => exact h.recordAttemptOutcome hconforms hnext
  | registerShadowJobAndJudge new targetRpm windowSeconds callerId failure =>
    exact h.registerShadow new targetRpm windowSeconds callerId failure
  | _ => exact h.of_attempts (perform_attempts backend t rfl)

theorem Roomy.window_le {c : FdcQuotaCoordinator} {t : FdcQuotaTables} (h : Roomy c t)
    (start : Time) :
    (t.consumedAt c.quotaScope).countP (afterStart (interval c.windowSeconds) start) ≤
        c.targetRpm ∧
      (t.consumedAt c.quotaScope).countP (fromStart (interval c.windowSeconds) start) ≤
        c.targetRpm :=
  ⟨h.countP_le (List.pairwise_of_forall fun _ _ => recent_of_afterStart),
    h.countP_le (List.pairwise_of_forall fun _ _ => recent_of_fromStart)⟩

/-- In whatever order the transactions of a scope take its lock, every half-open window holds at
most the target of its consuming attempts. -/
theorem window_le_targetRpm (backend : Backend) (scopes : List String) (c : FdcQuotaCoordinator)
    (operations : List Operation)
    (hconforms : Meets (perform backend) (Conforms backend c) (seeded scopes) operations)
    (start : Time) :
    let t := run (perform backend) (seeded scopes) operations
    (t.consumedAt c.quotaScope).countP (afterStart (interval c.windowSeconds) start) ≤
        c.targetRpm ∧
      (t.consumedAt c.quotaScope).countP (fromStart (interval c.windowSeconds) start) ≤
        c.targetRpm := by
  have hroomy := run_keeps (perform backend) (I := Roomy c)
    (fun _ _ h hconforms => h.perform hconforms) (seeded scopes) operations trivial hconforms
  exact hroomy.window_le start

def twoPerMinute : FdcQuotaCoordinator := .shared 2 (by decide)

/-- Reservations that take the lock with stamps out of order, and one given back. -/
def outOfOrder : List Operation :=
  let reserveAt (now : Time) : Operation :=
    .tryReserve twoPerMinute none "ops-scheduler" .real none 1 none { counted := now, now := now }
  [reserveAt 5000000, reserveAt 1000000, reserveAt 3000000,
    .recordAttemptOutcome 0 (.other "released") none, reserveAt 2000000]

theorem window_le_targetRpm_outOfOrder :
    let t := run (perform .postgres) (seeded ["gemini:shared-operational"]) outOfOrder
    (t.consumedAt "gemini:shared-operational").countP (afterStart (interval 60) 0) ≤ 2 ∧
      (t.consumedAt "gemini:shared-operational").countP (fromStart (interval 60) 0) ≤ 2 := by
  apply window_le_targetRpm .postgres ["gemini:shared-operational"] twoPerMinute outOfOrder
  simp [outOfOrder, Meets, Conforms, quotaConsumingOutcomes]

end AgentTrading.Fdc
