import AgentTrading.Fdc.Window

/-! The queue of a scope. A reservation goes to the first job in line and a retry goes to the
end, in every run; that a job holds one reservation at a time rests on its callers. -/
namespace AgentTrading.Fdc
open Domain Library Library.Runs FdcQuotaTables

/-- A reservation that has no final outcome. -/
def AttemptOutcome.isOpen : AttemptOutcome → Bool
  | .reservationGranted | .httpStarted => true
  | _ => false

def opensFor (jobId : UUID) (attempt : FdcProviderAttempt) : Bool :=
  attempt.jobId = some jobId ∧ attempt.outcome.isOpen

/-- The open reservations of a job. -/
def FdcQuotaTables.openReservations (t : FdcQuotaTables) (jobId : UUID) : Nat :=
  t.fdcProviderAttempts.countP (opensFor jobId)

def OneOpen (t : FdcQuotaTables) : Prop := ∀ jobId, t.openReservations jobId ≤ 1

/-- A reservation for a job finds no job of the scope queued with a smaller number. -/
def FirstInLine (backend : Backend) (t : FdcQuotaTables) : Operation → Prop
  | .tryReserve c jobId callerId mode manualRunId attemptNo policy env =>
    ∀ grant id mine,
      (c.tryReserve backend t jobId callerId mode manualRunId attemptNo policy env).1 =
        .grant grant → jobId = some id → t.job? id = some mine →
      ∀ other ∈ t.fdcQueueJobs, other.quotaScope = c.quotaScope → other.status = .queued →
        ¬ other.enqueueSequence < mine.enqueueSequence
  | _ => True

/-- A job that is queued again comes after every other job. -/
def AtTail (next : FdcQuotaTables) : Operation → Prop
  | .applyRetryFailure jobId _ true =>
    ∀ job ∈ next.fdcQueueJobs, job.jobId = jobId →
      ∀ other ∈ next.fdcQueueJobs, other.jobId ≠ jobId →
        other.enqueueSequence < job.enqueueSequence
  | _ => True

/-- The operations on real jobs. -/
def Operation.isReal : Operation → Bool
  | .registerShadowJobAndJudge .. => false
  | _ => true

/-- A reservation that would be granted is asked for a job that holds none open, and an outcome
that is recorded does not open an attempt again. -/
def Careful (backend : Backend) (t : FdcQuotaTables) : Operation → Prop
  | .tryReserve c jobId callerId mode manualRunId attemptNo _ env =>
    ∀ id, jobId = some id →
      Grantable backend t (c.call jobId callerId mode manualRunId attemptNo) env →
      t.openReservations id = 0
  | .recordAttemptOutcome reservationId outcome _ =>
    outcome.isOpen → ∀ attempt ∈ t.fdcProviderAttempts, attempt.attemptId = reservationId →
      attempt.outcome.isOpen
  | _ => True

/-- Every job has its number from the sequence, and is a real one. -/
def Numbered (t : FdcQuotaTables) : Prop :=
  ∀ job ∈ t.fdcQueueJobs, job.enqueueSequence < t.nextSequence ∧ job.mode = .real

theorem Numbered.updateJob {t : FdcQuotaTables} (h : Numbered t) (jobId : UUID)
    {set : FdcQueueJob → FdcQueueJob}
    (hset : ∀ job, (set job).enqueueSequence = job.enqueueSequence ∧ (set job).mode = job.mode) :
    Numbered (t.updateJob jobId set) := by
  intro job hjob
  simp only [FdcQuotaTables.updateJob, List.mem_map] at hjob
  obtain ⟨before, hbefore, rfl⟩ := hjob
  split
  · rw [(hset before).1, (hset before).2]
    exact h before hbefore
  · exact h before hbefore

theorem Numbered.updateJob? {t : FdcQuotaTables} (h : Numbered t) (jobId : Option UUID)
    {set : FdcQueueJob → FdcQueueJob}
    (hset : ∀ job, (set job).enqueueSequence = job.enqueueSequence ∧ (set job).mode = job.mode) :
    Numbered (t.updateJob? jobId set) := by
  cases jobId with
  | none => exact h
  | some id => exact h.updateJob id hset

theorem Numbered.granted {t : FdcQuotaTables} (h : Numbered t) (call : ReserveCall)
    (now : Time) : Numbered (t.granted call now) := by
  unfold FdcQuotaTables.granted
  apply Numbered.updateJob?
  · exact h
  · exact fun _ => ⟨rfl, rfl⟩

theorem Numbered.registerRealJob {t : FdcQuotaTables} (h : Numbered t) (new : NewJob) :
    Numbered (t.registerRealJob new).2 := by
  intro job hjob
  simp only [FdcQuotaTables.registerRealJob, List.mem_append, List.mem_singleton] at hjob ⊢
  rcases hjob with hjob | rfl
  · exact ⟨Nat.lt_succ_of_lt (h job hjob).1, (h job hjob).2⟩
  · exact ⟨Nat.lt_succ_self _, rfl⟩

/-- The jobs after a retry: the one that failed has the newest number. -/
theorem mem_applyRetryFailure {t : FdcQuotaTables} {jobId : UUID} {reason : RetryReason}
    {job : FdcQueueJob} (hjob : job ∈ (t.applyRetryFailure jobId reason true).fdcQueueJobs) :
    (job.jobId ≠ jobId ∧ job ∈ t.fdcQueueJobs) ∨
      (job.jobId = jobId ∧ job.enqueueSequence = t.nextSequence ∧
        (∃ before ∈ t.fdcQueueJobs, before.mode = job.mode) ∧
        (t.applyRetryFailure jobId reason true).nextSequence = t.nextSequence + 1) := by
  unfold applyRetryFailure at hjob ⊢
  simp only [if_true] at hjob ⊢
  split at hjob
  next hfound =>
    simp only [FdcQuotaTables.updateJob, List.mem_map, hfound, if_true] at hjob ⊢
    obtain ⟨before, hbefore, rfl⟩ := hjob
    split
    next hid => exact .inr ⟨hid, rfl, ⟨before, hbefore, rfl⟩, trivial⟩
    next hid => exact .inl ⟨hid, hbefore⟩
  next hfound =>
    apply Or.inl
    refine ⟨?_, hjob⟩
    rintro rfl
    simp only [job?, Option.not_isSome_iff_eq_none, List.find?_eq_none, decide_eq_true_eq]
      at hfound
    exact hfound job hjob rfl

theorem nextSequence_le_retry (t : FdcQuotaTables) (jobId : UUID) (reason : RetryReason) :
    t.nextSequence ≤ (t.applyRetryFailure jobId reason true).nextSequence := by
  unfold applyRetryFailure
  simp only [if_true]
  split
  · exact Nat.le_succ _
  · exact le_rfl

theorem Numbered.applyRetryFailure {t : FdcQuotaTables} (h : Numbered t) (jobId : UUID)
    (reason : RetryReason) (willRetry : Bool) :
    Numbered (t.applyRetryFailure jobId reason willRetry) := by
  cases willRetry with
  | false => exact h.updateJob jobId fun _ => ⟨rfl, rfl⟩
  | true =>
    intro job hjob
    rcases mem_applyRetryFailure hjob with
      ⟨-, hjob⟩ | ⟨-, hsequence, ⟨before, hbefore, hmode⟩, hnext⟩
    · exact ⟨lt_of_lt_of_le (h job hjob).1 (nextSequence_le_retry t jobId reason),
        (h job hjob).2⟩
    · rw [hsequence, hnext, ← hmode]
      exact ⟨Nat.lt_succ_self _, (h before hbefore).2⟩

theorem Numbered.tryReserve {t : FdcQuotaTables} (h : Numbered t) (backend : Backend)
    (c : FdcQuotaCoordinator) (jobId : Option UUID) (callerId : String) (mode : Mode)
    (manualRunId : Option String) (attemptNo : Int) (policy : Option Bool) (env : ReserveEnv) :
    Numbered (c.tryReserve backend t jobId callerId mode manualRunId attemptNo policy env).2 := by
  unfold FdcQuotaCoordinator.tryReserve
  split
  · exact h
  next =>
    rcases reserve_cases backend t (c.call jobId callerId mode manualRunId attemptNo) env with
      ⟨-, hnext, -⟩ | ⟨-, hnext | hnext⟩
    · rw [hnext]
      exact h.granted _ _
    · rw [hnext]
      exact h
    · rw [hnext]
      exact h.updateJob? _ fun _ => ⟨rfl, rfl⟩

theorem Numbered.perform {backend : Backend} {t : FdcQuotaTables} {operation : Operation}
    (h : Numbered t) (hreal : operation.isReal) : Numbered (perform backend t operation) := by
  cases operation with
  | tryReserve c jobId callerId mode manualRunId attemptNo policy env =>
    exact h.tryReserve backend c jobId callerId mode manualRunId attemptNo policy env
  | recordAttemptOutcome reservationId outcome httpStartedAt =>
    simp only [Fdc.perform]
    split
    · exact h
    next hnext =>
      rw [recordAttemptOutcome_eq hnext]
      exact h
  | registerShadowJobAndJudge => cases hreal
  | registerRealJob new => exact h.registerRealJob new
  | listResumableRealJobs quotaScope =>
    exact listResumable_keeps (P := Numbered)
      (fun _ jobId _ h => h.updateJob jobId fun _ => ⟨rfl, rfl⟩) h quotaScope
  | cancelStaleRealJobs quotaScope reason =>
    exact cancelStale_keeps (P := Numbered)
      (fun _ jobId _ h => h.updateJob jobId fun _ => ⟨rfl, rfl⟩)
      (fun _ jobId _ h => h.updateJob jobId fun _ => ⟨rfl, rfl⟩) h quotaScope reason
  | markJobTerminal jobId status reason => exact h.updateJob jobId fun _ => ⟨rfl, rfl⟩
  | markJobStatus jobId status => exact h.updateJob jobId fun _ => ⟨rfl, rfl⟩
  | applyRetryFailure jobId reason willRetry => exact h.applyRetryFailure jobId reason willRetry
  | recordHttpAttemptCounters jobId observed => exact h.updateJob jobId fun _ => ⟨rfl, rfl⟩

theorem Numbered.atTail {t : FdcQuotaTables} (h : Numbered t) (backend : Backend)
    (operation : Operation) : AtTail (Fdc.perform backend t operation) operation := by
  cases operation with
  | applyRetryFailure jobId reason willRetry =>
    cases willRetry with
    | false => trivial
    | true =>
      intro job hjob hid other hother hne
      rcases mem_applyRetryFailure hjob with ⟨hnot, -⟩ | ⟨-, hsequence, -, -⟩
      · exact absurd hid hnot
      rcases mem_applyRetryFailure hother with ⟨-, hother⟩ | ⟨hsame, -, -, -⟩
      · rw [hsequence]
        exact (h other hother).1
      · exact absurd hsame hne
  | _ => trivial

theorem not_earlier {backend : Backend} {t : FdcQuotaTables} (h : Numbered t)
    {quotaScope : String} {id : UUID} {mine other : FdcQueueJob}
    (hearlier : earlierQueued backend t quotaScope id = false) (hmine : t.job? id = some mine)
    (hother : other ∈ t.fdcQueueJobs) (hscope : other.quotaScope = quotaScope)
    (hqueued : other.status = .queued) : ¬ other.enqueueSequence < mine.enqueueSequence := by
  intro hless
  cases backend with
  | postgres =>
    simp only [earlierQueued, PostgresFdcQuotaRepository.earlierQueued, hmine,
      List.any_eq_false, decide_eq_true_eq] at hearlier
    exact hearlier other hother ⟨hscope, (h other hother).2, hqueued, hless⟩
  | memory =>
    simp only [earlierQueued, InMemoryFdcQuotaRepository.earlierQueued, hmine,
      List.any_eq_false, decide_eq_true_eq] at hearlier
    exact hearlier other hother ⟨hscope, hqueued, hless⟩

theorem Numbered.firstInLine {t : FdcQuotaTables} (h : Numbered t) (backend : Backend)
    (operation : Operation) : FirstInLine backend t operation := by
  cases operation with
  | tryReserve c jobId callerId mode manualRunId attemptNo policy env =>
    intro grant id mine hgrant hid hmine other hother hscope hqueued
    unfold FdcQuotaCoordinator.tryReserve at hgrant
    split at hgrant
    · exact nomatch hgrant
    · rcases reserve_cases backend t (c.call jobId callerId mode manualRunId attemptNo) env with
        ⟨-, -, hgrantable⟩ | ⟨hnone, -⟩
      · exact not_earlier h (hgrantable.turn id hid) hmine hother hscope hqueued
      · exact absurd hgrant (hnone grant)
  | _ => trivial

theorem OneOpen.of_attempts {t next : FdcQuotaTables} (h : OneOpen t)
    (hattempts : next.fdcProviderAttempts = t.fdcProviderAttempts) : OneOpen next := by
  intro jobId
  unfold openReservations
  rw [hattempts]
  exact h jobId

theorem granted_openReservations (t : FdcQuotaTables) (call : ReserveCall) (now : Time)
    (jobId : UUID) :
    (t.granted call now).openReservations jobId =
      t.openReservations jobId + if call.jobId = some jobId then 1 else 0 := by
  unfold openReservations
  rw [granted_attempts, List.countP_cons]
  congr 1
  simp [opensFor, ReserveCall.attempt, AttemptOutcome.isOpen]

theorem OneOpen.tryReserve {backend : Backend} {t : FdcQuotaTables} (h : OneOpen t)
    {c : FdcQuotaCoordinator} {jobId : Option UUID} {callerId : String} {mode : Mode}
    {manualRunId : Option String} {attemptNo : Int} {policy : Option Bool} {env : ReserveEnv}
    (hcareful : Careful backend t
      (.tryReserve c jobId callerId mode manualRunId attemptNo policy env)) :
    OneOpen (c.tryReserve backend t jobId callerId mode manualRunId attemptNo policy env).2 := by
  unfold FdcQuotaCoordinator.tryReserve
  split
  · exact h
  next =>
    rcases reserve_cases backend t (c.call jobId callerId mode manualRunId attemptNo) env with
      ⟨-, hnext, hgrantable⟩ | ⟨-, hnext | hnext⟩
    · rw [hnext]
      intro id
      rw [granted_openReservations]
      split
      next hid =>
        rw [hcareful id hid hgrantable]
      next => exact h id
    · rw [hnext]
      exact h
    · rw [hnext]
      exact h.of_attempts (updateJob?_attempts ..)

theorem OneOpen.recordAttemptOutcome {backend : Backend} {t next : FdcQuotaTables} (h : OneOpen t)
    {reservationId : UUID} {outcome : AttemptOutcome} {httpStartedAt : Option Time}
    (hcareful : Careful backend t (.recordAttemptOutcome reservationId outcome httpStartedAt))
    (hnext : t.recordAttemptOutcome reservationId outcome httpStartedAt = .ok next) :
    OneOpen next := by
  intro jobId
  rw [recordAttemptOutcome_eq hnext]
  apply le_trans _ (h jobId)
  unfold openReservations
  rw [List.countP_map]
  apply List.countP_mono_left
  intro attempt hattempt hafter
  simp only [Function.comp_apply, recorded] at hafter
  split at hafter
  next hid =>
    simp only [opensFor, Bool.decide_and, Bool.and_eq_true, decide_eq_true_eq] at hafter ⊢
    exact ⟨hafter.1, hcareful hafter.2 attempt hattempt hid⟩
  next => exact hafter

theorem OneOpen.perform {backend : Backend} {t : FdcQuotaTables} {operation : Operation}
    (h : OneOpen t) (hreal : operation.isReal) (hcareful : Careful backend t operation) :
    OneOpen (perform backend t operation) := by
  cases operation with
  | tryReserve => exact h.tryReserve hcareful
  | recordAttemptOutcome reservationId outcome httpStartedAt =>
    simp only [Fdc.perform]
    split
    · exact h
    next hnext => exact h.recordAttemptOutcome hcareful hnext
  | registerShadowJobAndJudge => cases hreal
  | _ => exact h.of_attempts (perform_attempts backend t rfl)

theorem reserve_of_grantable {backend : Backend} {t : FdcQuotaTables} {call : ReserveCall}
    {env : ReserveEnv} (h : Grantable backend t call env) :
    (reserve backend t call env).2 = t.granted call env.now := by
  have hturn : ∀ earlier : UUID → Bool,
      (∀ id, call.jobId = some id → earlier id = false) → call.jobId.any earlier = false := by
    intro earlier hearlier
    cases hid : call.jobId with
    | none => rfl
    | some id => exact hearlier id hid
  cases backend with
  | postgres =>
    have hroom : t.windowCount call.quotaScope call.windowSeconds env.now < call.targetRpm := h.room
    have hmine : call.jobId.any (PostgresFdcQuotaRepository.earlierQueued t call.quotaScope) =
        false := hturn _ h.turn
    simp [reserve, PostgresFdcQuotaRepository.tryReserve, h.locked rfl, hmine, h.valid rfl,
      not_le.mpr hroom]
  | memory =>
    have hroom : t.windowCount call.quotaScope call.windowSeconds env.counted < call.targetRpm :=
      h.room
    have hmine : call.jobId.any (InMemoryFdcQuotaRepository.earlierQueued t call.quotaScope) =
        false := hturn _ h.turn
    simp [reserve, InMemoryFdcQuotaRepository.tryReserve, hmine, not_le.mpr hroom]

/-- The checks do not look at the job's own reservations: one that is open is joined by another. -/
theorem second_open {backend : Backend} {t : FdcQuotaTables} {call : ReserveCall}
    {env : ReserveEnv} {id : UUID} (h : Grantable backend t call env) (hid : call.jobId = some id)
    (hopen : t.openReservations id ≠ 0) :
    ¬ OneOpen (reserve backend t call env).2 := by
  intro hone
  have hle := hone id
  rw [reserve_of_grantable h, granted_openReservations, if_pos hid] at hle
  omega

/-- In every run whose reservations and outcomes are careful, a grant goes to the first in line, a
retry goes to the end, and a job holds one open reservation at a time. -/
theorem queue_fair (backend : Backend) (scopes : List String) (operations : List Operation)
    (operation : Operation)
    (hruns : Meets (perform backend) (fun t o => o.isReal ∧ Careful backend t o) (seeded scopes)
      (operations ++ [operation])) :
    let t := run (perform backend) (seeded scopes) operations
    let next := perform backend t operation
    FirstInLine backend t operation ∧ AtTail next operation ∧ OneOpen next := by
  intro t next
  obtain ⟨hbefore, hlast, -⟩ := (meets_append (perform backend) _ _ _ _).mp hruns
  have hkept := run_keeps (perform backend) (I := fun t => Numbered t ∧ OneOpen t)
    (fun _ _ h hstep => ⟨h.1.perform hstep.1, h.2.perform hstep.1 hstep.2⟩)
    (seeded scopes) operations ⟨by simp [Numbered, seeded], fun _ => Nat.zero_le _⟩ hbefore
  exact ⟨hkept.1.firstInLine backend operation, hkept.1.atTail backend operation,
    hkept.2.perform hlast.1 hlast.2⟩

/-- A job of the shared scope. -/
def sharedJob : NewJob where
  decisionCycleId := none
  decisionContextId := none
  symbol := "005930"
  sourceType := "held_position"
  quotaScope := "gemini:shared-operational"
  fdcReadyAt := 0
  preFdcResult := some "{}"
  correlationId := some "c"

def reserveFor (jobId : UUID) (attemptNo : Int) (now : Time) : Operation :=
  .tryReserve twoPerMinute (some jobId) "ops-scheduler" .real none attemptNo none
    { counted := now, now := now }

theorem queue_fair_retry :
    let operations : List Operation := [.registerRealJob sharedJob, .registerRealJob sharedJob,
      reserveFor 0 1 1000000, .recordAttemptOutcome 2 .httpFailedRetryable none]
    let operation : Operation := .applyRetryFailure 0 .providerRetryableFailure true
    let t := run (perform .postgres) (seeded ["gemini:shared-operational"]) operations
    let next := perform .postgres t operation
    FirstInLine .postgres t operation ∧ AtTail next operation ∧ OneOpen next := by
  apply queue_fair .postgres ["gemini:shared-operational"]
  refine ⟨⟨rfl, trivial⟩, ⟨rfl, trivial⟩, ⟨rfl, ?_⟩, ⟨rfl, nofun⟩, ⟨rfl, trivial⟩, trivial⟩
  intro id _ _
  rfl

theorem two_open_reservations :
    ¬ OneOpen (run (perform .postgres) (seeded ["gemini:shared-operational"])
      [.registerRealJob sharedJob, reserveFor 0 1 1000000, reserveFor 0 2 2000000]) := by
  intro h
  exact absurd (h 0) (by decide +kernel)

end AgentTrading.Fdc
