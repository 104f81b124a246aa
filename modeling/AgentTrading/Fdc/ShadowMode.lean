import Mathlib.Data.List.Find
import Mathlib.Order.Interval.Set.Defs
import Mathlib.Order.Monotone.Basic
import AgentTrading.Fdc.Quota
import AgentTrading.Library.Purge

/-! Shadow jobs beside real ones. A shadow job draws from the sequence of the queue and leaves an
attempt in the common table; the run of the same operations without the shadow registrations says
what of that the real jobs notice. -/
namespace AgentTrading.Fdc
open Domain Library

/-- What `list_resumable_real_jobs` returns of a job. -/
structure ResumableRealJob where
  jobId : UUID
  symbol : String
  sourceType : String
  quotaScope : String
  decisionCycleId : Option String
  decisionContextId : Option UUID
  correlationId : Option String
  preFdcResult : Option String
  fdcReadyAt : Time
  deriving DecidableEq

def FdcQueueJob.resumable (job : FdcQueueJob) : ResumableRealJob where
  jobId := job.jobId
  symbol := job.symbol
  sourceType := job.sourceType
  quotaScope := job.quotaScope
  decisionCycleId := job.decisionCycleId
  decisionContextId := job.decisionContextId
  correlationId := job.correlationId
  preFdcResult := job.preFdcResult
  fdcReadyAt := job.fdcReadyAt

/-- An operation that writes, or one of the two readings of a lifecycle. -/
inductive Request where
  | perform (operation : Operation)
  | getAttemptHttpLifecycle (reservationId : UUID)
  | getLatestRealJobAttemptLifecycle (jobId : UUID)

inductive Answer where
  | reservation (result : ReservationResult)
  | outcome (result : Except OutcomeError Unit)
  | judgement (result : ShadowJudgementResult)
  | registered (jobId : UUID)
  | resumable (jobs : List ResumableRealJob)
  | transitioned (count : Nat)
  | lifecycle (lifecycle : AttemptHttpLifecycle)
  | done
  deriving DecidableEq

open FdcQuotaTables

/-- What an operation returns. -/
def answer (backend : Backend) (t : FdcQuotaTables) : Operation → Answer
  | .tryReserve c jobId callerId mode manualRunId attemptNo policy env =>
    .reservation (c.tryReserve backend t jobId callerId mode manualRunId attemptNo policy env).1
  | .recordAttemptOutcome reservationId outcome httpStartedAt =>
    .outcome ((t.recordAttemptOutcome reservationId outcome httpStartedAt).map fun _ => ())
  | .registerShadowJobAndJudge new targetRpm windowSeconds callerId failure =>
    match backend with
    | .postgres => .judgement (PostgresFdcQuotaRepository.registerShadowJobAndJudge t new targetRpm
        windowSeconds callerId failure).1
    | .memory => .judgement (InMemoryFdcQuotaRepository.registerShadowJobAndJudge t new targetRpm
        windowSeconds callerId).1
  | .registerRealJob new => .registered (t.registerRealJob new).1
  | .listResumableRealJobs quotaScope =>
    .resumable ((t.listResumableRealJobs quotaScope).1.map FdcQueueJob.resumable)
  | .cancelStaleRealJobs quotaScope reason =>
    .transitioned (t.cancelStaleRealJobs quotaScope reason).1
  | _ => .done

/-- A request draws its identifiers by its place among the requests, so that they are the same
with other requests left out. -/
def serve (backend : Backend) (t : FdcQuotaTables) (e : Request × Nat) : Answer × FdcQuotaTables :=
  let t := { t with nextId := 2 * e.2 }
  match e.1 with
  | .perform operation => (answer backend t operation, Fdc.perform backend t operation)
  | .getAttemptHttpLifecycle reservationId =>
    (.lifecycle (t.getAttemptHttpLifecycle reservationId), t)
  | .getLatestRealJobAttemptLifecycle jobId =>
    (.lifecycle (t.getLatestRealJobAttemptLifecycle jobId), t)

/-- The identifiers a request names. -/
def Request.names : Request → List UUID
  | .perform operation =>
    match operation with
    | .tryReserve _ jobId .. => jobId.toList
    | .recordAttemptOutcome reservationId .. => [reservationId]
    | .markJobTerminal jobId .. | .markJobStatus jobId _ | .applyRetryFailure jobId ..
    | .recordHttpAttemptCounters jobId _ => [jobId]
    | _ => []
  | .getAttemptHttpLifecycle reservationId => [reservationId]
  | .getLatestRealJobAttemptLifecycle jobId => [jobId]

/-- The job a reservation is asked for. -/
def Request.reserves : Request → Option UUID
  | .perform (.tryReserve _ jobId ..) => jobId
  | _ => none

def isShadow (e : Request × Nat) : Bool :=
  match e.1 with
  | .perform (.registerShadowJobAndJudge ..) => true
  | _ => false

/-- A job or an attempt that a shadow registration has made. -/
def ShadowMade (requests : List (Request × Nat)) (id : UUID) : Prop :=
  ∃ e ∈ requests, isShadow e = true ∧ (id = 2 * e.2 ∨ id = 2 * e.2 + 1)

instance (requests : List (Request × Nat)) (id : UUID) : Decidable (ShadowMade requests id) :=
  inferInstanceAs (Decidable (∃ e ∈ requests, _))

/-- The request is not a shadow registration and names nothing that one has made. -/
def onReal (requests : List (Request × Nat)) (e : Request × Nat) : Bool :=
  !isShadow e && e.1.names.all fun id => !decide (ShadowMade requests id)

def FdcQueueJob.renumbered (g : Nat → Nat) (job : FdcQueueJob) : FdcQueueJob :=
  { job with enqueueSequence := g job.enqueueSequence }

namespace FdcQuotaTables

def realJobs (t : FdcQuotaTables) : List FdcQueueJob := t.fdcQueueJobs.filter (·.mode = .real)

def realAttempts (t : FdcQuotaTables) : List FdcProviderAttempt :=
  t.fdcProviderAttempts.filter (·.mode = .real)

/-- The real rows are the same but for the numbers of the sequence, whose order is the same. -/
def SameReal (t u : FdcQuotaTables) : Prop :=
  (∃ g : Nat → Nat, t.realJobs = u.realJobs.map (FdcQueueJob.renumbered g) ∧
    StrictMonoOn g {n | ∃ job ∈ u.realJobs, job.enqueueSequence = n}) ∧
  t.realAttempts = u.realAttempts

end FdcQuotaTables

theorem earlierQueued_eq (backend : Backend) (t : FdcQuotaTables) (quotaScope : String) (id : UUID)
    (hapart : backend = .memory → ∀ job ∈ t.fdcQueueJobs, job.mode = .real) :
    earlierQueued backend t quotaScope id = (t.job? id).any fun mine =>
      t.realJobs.any fun job => job.quotaScope = quotaScope ∧ job.status = .queued ∧
        job.enqueueSequence < mine.enqueueSequence := by
  cases backend with
  | postgres =>
    unfold earlierQueued PostgresFdcQuotaRepository.earlierQueued
    cases t.job? id with
    | none => rfl
    | some mine =>
      simp only [Option.any_some, realJobs, List.any_filter]
      congr 1
      funext job
      by_cases hreal : job.mode = .real
      · simp [hreal]
      · simp [hreal]
  | memory =>
    have hreal : t.realJobs = t.fdcQueueJobs := by
      apply List.filter_eq_self.mpr
      exact fun job hjob => decide_eq_true (hapart rfl job hjob)
    unfold earlierQueued InMemoryFdcQuotaRepository.earlierQueued
    rw [hreal]
    cases t.job? id with
    | none => rfl
    | some mine => rfl

/-- `made` are the identifiers of shadow rows. The tables with them and those without agree on
everything else, the numbers of the sequence renamed in order. -/
structure Sim (backend : Backend) (made : UUID → Prop) [DecidablePred made] (g : Nat → Nat)
    (t u : FdcQuotaTables) : Prop where
  quotaState : u.fdcQuotaState = t.fdcQuotaState
  jobs : t.realJobs = u.fdcQueueJobs.map (FdcQueueJob.renumbered g)
  made_iff : ∀ job ∈ t.fdcQueueJobs, made job.jobId ↔ job.mode ≠ .real
  attempts : t.fdcProviderAttempts.filter (fun a => ¬ made a.attemptId) = u.fdcProviderAttempts
  shadowAttempts : ∀ a ∈ t.fdcProviderAttempts, made a.attemptId →
    a.mode ≠ .real ∧ ∀ id, a.jobId = some id → made id
  mono : StrictMonoOn g (Set.Iio u.nextSequence)
  below : ∀ n < u.nextSequence, g n < t.nextSequence
  numbered : ∀ job ∈ u.fdcQueueJobs, job.enqueueSequence < u.nextSequence
  apart : backend = .memory → ∀ job ∈ t.fdcQueueJobs, job.mode = .real

namespace Sim

variable {backend : Backend} {made : UUID → Prop} [DecidablePred made] {g : Nat → Nat}
variable {t u : FdcQuotaTables}

theorem real_of_mem (h : Sim backend made g t u) {job : FdcQueueJob} (hjob : job ∈ u.fdcQueueJobs) :
    job.mode = .real := by
  have hmem : job.renumbered g ∈ t.realJobs := by
    rw [h.jobs]
    exact List.mem_map_of_mem hjob
  exact of_decide_eq_true (List.mem_filter.mp hmem).2

theorem unmade_of_mem (h : Sim backend made g t u) {job : FdcQueueJob}
    (hjob : job ∈ u.fdcQueueJobs) : ¬ made job.jobId := by
  have hmem : job.renumbered g ∈ t.realJobs := by
    rw [h.jobs]
    exact List.mem_map_of_mem hjob
  have hreal : job.mode = .real := h.real_of_mem hjob
  intro hmade
  exact (h.made_iff _ (List.mem_filter.mp hmem).1).mp hmade hreal

theorem realJobs_right (h : Sim backend made g t u) : u.realJobs = u.fdcQueueJobs := by
  apply List.filter_eq_self.mpr
  intro job hjob
  exact decide_eq_true (h.real_of_mem hjob)

theorem sameReal (h : Sim backend made g t u) : t.SameReal u := by
  constructor
  · rw [h.realJobs_right]
    refine ⟨g, h.jobs, ?_⟩
    rintro _ ⟨job, hjob, rfl⟩ _ ⟨other, hother, rfl⟩ hlt
    exact h.mono (h.numbered job hjob) (h.numbered other hother) hlt
  · unfold realAttempts
    rw [← h.attempts, List.filter_filter]
    apply List.filter_congr
    intro a ha
    by_cases hmade : made a.attemptId
    · simp [hmade, (h.shadowAttempts a ha hmade).1]
    · simp [hmade]

/-- A job that no shadow registration has made is looked up in the same way; with the shadow jobs
kept apart, every job is. -/
theorem job? (h : Sim backend made g t u) {id : UUID} (hid : backend = .memory ∨ ¬ made id) :
    t.job? id = (u.job? id).map (FdcQueueJob.renumbered g) := by
  have hfilter : t.job? id = t.realJobs.find? (·.jobId = id) := by
    unfold FdcQuotaTables.job? realJobs
    rw [List.find?_filter]
    apply List.find?_congr
    intro job hjob
    by_cases hjobId : job.jobId = id
    · have hreal : job.mode = .real := by
        rcases hid with hmemory | hunmade
        · exact h.apart hmemory job hjob
        · by_contra hshadow
          exact hunmade (hjobId ▸ (h.made_iff job hjob).mpr hshadow)
      simp [hjobId, hreal]
    · simp [hjobId]
  rw [hfilter, h.jobs, List.find?_map]
  rfl

theorem windowCount (h : Sim backend made g t u) (quotaScope : String) (windowSeconds : Nat)
    (now : Time) : t.windowCount quotaScope windowSeconds now =
      u.windowCount quotaScope windowSeconds now := by
  unfold FdcQuotaTables.windowCount
  rw [← h.attempts, List.countP_filter]
  apply List.countP_congr
  intro a ha
  by_cases hmade : made a.attemptId
  · simp [hmade, consumes, (h.shadowAttempts a ha hmade).1]
  · simp [hmade]

theorem renumbered_lt (h : Sim backend made g t u) {a b : FdcQueueJob}
    (ha : a ∈ u.fdcQueueJobs) (hb : b ∈ u.fdcQueueJobs) :
    (a.renumbered g).enqueueSequence < (b.renumbered g).enqueueSequence ↔
      a.enqueueSequence < b.enqueueSequence :=
  h.mono.lt_iff_lt (h.numbered a ha) (h.numbered b hb)

theorem any_earlier (h : Sim backend made g t u) (quotaScope : String) {mine : FdcQueueJob}
    (hmine : mine ∈ u.fdcQueueJobs) :
    (t.realJobs.any fun job => job.quotaScope = quotaScope ∧ job.status = .queued ∧
        job.enqueueSequence < (mine.renumbered g).enqueueSequence) =
      u.fdcQueueJobs.any fun job => job.quotaScope = quotaScope ∧ job.status = .queued ∧
        job.enqueueSequence < mine.enqueueSequence := by
  rw [h.jobs, List.any_map, Bool.eq_iff_iff, List.any_eq_true, List.any_eq_true]
  apply exists_congr
  intro job
  apply and_congr_right
  intro hjob
  simp only [Function.comp_apply, decide_eq_true_eq, h.renumbered_lt hjob hmine]
  rfl

theorem earlierQueued (h : Sim backend made g t u) (quotaScope : String) {id : UUID}
    (hid : backend = .memory ∨ ¬ made id) :
    Fdc.earlierQueued backend t quotaScope id = Fdc.earlierQueued backend u quotaScope id := by
  rw [earlierQueued_eq backend t quotaScope id h.apart,
    earlierQueued_eq backend u quotaScope id fun _ _ hjob => h.real_of_mem hjob, h.job? hid,
    h.realJobs_right]
  cases hfound : u.job? id with
  | none => rfl
  | some mine => exact h.any_earlier quotaScope (List.mem_of_find?_eq_some hfound)

theorem violates (h : Sim backend made g t u) (call : ReserveCall)
    (hcall : ∀ id, call.jobId = some id → ¬ made id) :
    PostgresFdcQuotaRepository.violates t call = PostgresFdcQuotaRepository.violates u call := by
  unfold PostgresFdcQuotaRepository.violates
  cases hjobId : call.jobId with
  | none => rfl
  | some id =>
    have hid := hcall id hjobId
    have hattempts : (t.fdcProviderAttempts.any fun attempt =>
        attempt.jobId = some id ∧ attempt.attemptNo = call.attemptNo) =
        u.fdcProviderAttempts.any fun attempt =>
          attempt.jobId = some id ∧ attempt.attemptNo = call.attemptNo := by
      rw [← h.attempts, List.any_filter, Bool.eq_iff_iff, List.any_eq_true, List.any_eq_true]
      apply exists_congr
      intro attempt
      apply and_congr_right
      intro hattempt
      by_cases hmade : made attempt.attemptId
      · have hother : attempt.jobId ≠ some id :=
          fun heq => hid ((h.shadowAttempts attempt hattempt hmade).2 id heq)
        simp [hother]
      · simp [hmade]
    simp only [hattempts, h.job? (Or.inr hid), Option.isNone_map]

theorem getLatestRealJobAttemptLifecycle (h : Sim backend made g t u) {id : UUID}
    (hid : ¬ made id) :
    t.getLatestRealJobAttemptLifecycle id = u.getLatestRealJobAttemptLifecycle id := by
  have hfilter : t.fdcProviderAttempts.reverse.filter (·.jobId = some id) =
      u.fdcProviderAttempts.reverse.filter (·.jobId = some id) := by
    rw [← h.attempts, ← List.filter_reverse, List.filter_filter]
    apply List.filter_congr
    intro attempt hattempt
    by_cases hmade : made attempt.attemptId
    · have hother : attempt.jobId ≠ some id := fun heq =>
        hid ((h.shadowAttempts attempt (List.mem_reverse.mp hattempt) hmade).2 id heq)
      simp [hother]
    · simp [hmade]
  unfold FdcQuotaTables.getLatestRealJobAttemptLifecycle
  rw [hfilter]

theorem attempt? (h : Sim backend made g t u) {id : UUID} (hid : ¬ made id) :
    t.fdcProviderAttempts.find? (·.attemptId = id) =
      u.fdcProviderAttempts.find? (·.attemptId = id) := by
  rw [← h.attempts, List.find?_filter]
  apply List.find?_congr
  intro attempt _
  by_cases hattempt : attempt.attemptId = id
  · simp [hattempt, hid]
  · simp [hattempt]

theorem getAttemptHttpLifecycle (h : Sim backend made g t u) {id : UUID} (hid : ¬ made id) :
    t.getAttemptHttpLifecycle id = u.getAttemptHttpLifecycle id := by
  unfold FdcQuotaTables.getAttemptHttpLifecycle
  rw [h.attempt? hid]

theorem withNextId (h : Sim backend made g t u) (n m : UUID) :
    Sim backend made g { t with nextId := n } { u with nextId := m } :=
  ⟨h.quotaState, h.jobs, h.made_iff, h.attempts, h.shadowAttempts, h.mono, h.below, h.numbered,
    h.apart⟩

/-- An update of a job; where it is a shadow job, the run without them has nothing to update. -/
theorem updateJobs (h : Sim backend made g t u) (id : UUID) (setT setU : FdcQueueJob → FdcQueueJob)
    (hsame : ∀ job, (setT job).jobId = job.jobId ∧ (setT job).mode = job.mode)
    (hnumbers : ∀ job, setT (job.renumbered g) = (setU job).renumbered g)
    (hbelow : ∀ job : FdcQueueJob, job.enqueueSequence < u.nextSequence →
      (setU job).enqueueSequence < u.nextSequence) :
    Sim backend made g (t.updateJob id setT) (u.updateJob id setU) := by
  have hmode : ∀ job, (if job.jobId = id then setT job else job).mode = job.mode := by
    intro job
    split
    · exact (hsame job).2
    · rfl
  refine ⟨h.quotaState, ?_, ?_, h.attempts, h.shadowAttempts, h.mono, h.below, ?_, ?_⟩
  · have hfilter : (t.updateJob id setT).realJobs =
        t.realJobs.map fun job => if job.jobId = id then setT job else job := by
      simp only [realJobs, FdcQuotaTables.updateJob, List.filter_map, Function.comp_def, hmode]
    rw [hfilter, h.jobs]
    simp only [FdcQuotaTables.updateJob, List.map_map]
    apply List.map_congr_left
    intro job _
    simp only [Function.comp_apply]
    by_cases hid : job.jobId = id
    · rw [if_pos hid, if_pos (by exact hid), hnumbers]
    · rw [if_neg hid, if_neg (by exact hid)]
  · intro job hjob
    obtain ⟨before, hbefore, rfl⟩ := List.mem_map.mp hjob
    rw [hmode, ← h.made_iff before hbefore]
    split
    · rw [(hsame before).1]
    · rfl
  · intro job hjob
    obtain ⟨before, hbefore, rfl⟩ := List.mem_map.mp hjob
    split
    · exact hbelow before (h.numbered before hbefore)
    · exact h.numbered before hbefore
  · intro hmemory job hjob
    obtain ⟨before, hbefore, rfl⟩ := List.mem_map.mp hjob
    rw [hmode]
    exact h.apart hmemory before hbefore

theorem updateMade (h : Sim backend made g t u) {id : UUID} (hid : made id)
    (set : FdcQueueJob → FdcQueueJob)
    (hset : ∀ job, (set job).jobId = job.jobId ∧ (set job).mode = job.mode) :
    Sim backend made g (t.updateJob id set) u := by
  have hmode : ∀ job, (if job.jobId = id then set job else job).mode = job.mode := by
    intro job
    split
    · exact (hset job).2
    · rfl
  refine ⟨h.quotaState, ?_, ?_, h.attempts, h.shadowAttempts, h.mono, h.below, h.numbered, ?_⟩
  · rw [← h.jobs]
    simp only [realJobs, FdcQuotaTables.updateJob, List.filter_map, Function.comp_def, hmode]
    apply (List.map_congr_left fun job hjob => ?_).trans (List.map_id _)
    obtain ⟨hmem, hreal⟩ := List.mem_filter.mp hjob
    have hother : job.jobId ≠ id := by
      rintro rfl
      exact (h.made_iff job hmem).mp hid (of_decide_eq_true hreal)
    simp only [hother, if_false, id_eq]
  · intro job hjob
    obtain ⟨before, hbefore, rfl⟩ := List.mem_map.mp hjob
    rw [hmode, ← h.made_iff before hbefore]
    split
    · rw [(hset before).1]
    · rfl
  · intro hmemory job hjob
    obtain ⟨before, hbefore, rfl⟩ := List.mem_map.mp hjob
    rw [hmode]
    exact h.apart hmemory before hbefore

theorem updateJob (h : Sim backend made g t u) (id : UUID) (set : FdcQueueJob → FdcQueueJob)
    (hset : ∀ job, (set job).jobId = job.jobId ∧ (set job).mode = job.mode ∧
      (set job).enqueueSequence = job.enqueueSequence)
    (hnumbers : ∀ job, set (job.renumbered g) = (set job).renumbered g) :
    Sim backend made g (t.updateJob id set) (u.updateJob id set) := by
  apply h.updateJobs id set set _ hnumbers
  · intro job hjob
    rwa [(hset job).2.2]
  · exact fun job => ⟨(hset job).1, (hset job).2.1⟩

theorem updateJob? (h : Sim backend made g t u) (jobId : Option UUID)
    (set : FdcQueueJob → FdcQueueJob)
    (hset : ∀ job, (set job).jobId = job.jobId ∧ (set job).mode = job.mode ∧
      (set job).enqueueSequence = job.enqueueSequence)
    (hnumbers : ∀ job, set (job.renumbered g) = (set job).renumbered g) :
    Sim backend made g (t.updateJob? jobId set) (u.updateJob? jobId set) := by
  cases jobId with
  | none => exact h
  | some id => exact h.updateJob id set hset hnumbers

theorem addAttempt (h : Sim backend made g t u) (attempt : FdcProviderAttempt)
    (hattempt : ¬ made attempt.attemptId) (n : UUID) :
    Sim backend made g
      { t with fdcProviderAttempts := attempt :: t.fdcProviderAttempts, nextId := n }
      { u with fdcProviderAttempts := attempt :: u.fdcProviderAttempts, nextId := n } := by
  refine ⟨h.quotaState, h.jobs, h.made_iff, ?_, ?_, h.mono, h.below, h.numbered, h.apart⟩
  · simp only [List.filter_cons, hattempt, not_false_eq_true, decide_true, if_true, h.attempts]
  · intro other hother hmade
    rcases List.mem_cons.mp hother with rfl | hother
    · exact absurd hmade hattempt
    · exact h.shadowAttempts other hother hmade

theorem granted (h : Sim backend made g t u) (call : ReserveCall) (now : Time)
    (hid : u.nextId = t.nextId) (hnew : ¬ made t.nextId) :
    Sim backend made g (t.granted call now) (u.granted call now) := by
  unfold FdcQuotaTables.granted
  rw [hid]
  apply updateJob? (h.addAttempt (call.attempt t.nextId now) hnew (t.nextId + 1))
  · exact fun _ => ⟨rfl, rfl, rfl⟩
  · exact fun _ => rfl

theorem denied (h : Sim backend made g t u) (call : ReserveCall) :
    Sim backend made g (t.updateJob? call.jobId FdcQueueJob.polledDenied)
      (u.updateJob? call.jobId FdcQueueJob.polledDenied) :=
  h.updateJob? _ _ (fun _ => ⟨rfl, rfl, rfl⟩) fun _ => rfl

theorem notMyTurn (h : Sim backend made g t u) (call : ReserveCall)
    (hcall : backend = .postgres → ∀ id, call.jobId = some id → ¬ made id) :
    call.jobId.any (Fdc.earlierQueued backend t call.quotaScope) =
      call.jobId.any (Fdc.earlierQueued backend u call.quotaScope) := by
  cases hjobId : call.jobId with
  | none => rfl
  | some id =>
    apply h.earlierQueued call.quotaScope
    cases backend with
    | memory => exact Or.inl rfl
    | postgres => exact Or.inr (hcall rfl id hjobId)

theorem reserve (h : Sim backend made g t u) (call : ReserveCall) (env : ReserveEnv)
    (hcall : backend = .postgres → ∀ id, call.jobId = some id → ¬ made id)
    (hid : u.nextId = t.nextId) (hnew : ¬ made t.nextId) :
    (Fdc.reserve backend t call env).1 = (Fdc.reserve backend u call env).1 ∧
      Sim backend made g (Fdc.reserve backend t call env).2
        (Fdc.reserve backend u call env).2 := by
  cases backend with
  | postgres =>
    have hturn : call.jobId.any (PostgresFdcQuotaRepository.earlierQueued t call.quotaScope) =
        call.jobId.any (PostgresFdcQuotaRepository.earlierQueued u call.quotaScope) :=
      h.notMyTurn call hcall
    simp only [Fdc.reserve, PostgresFdcQuotaRepository.tryReserve, h.quotaState, hturn,
      h.windowCount, h.violates call (hcall rfl)]
    split
    · exact ⟨rfl, h⟩
    · split
      · exact ⟨rfl, h⟩
      · split
        · exact ⟨rfl, h.denied call⟩
        · split
          · exact ⟨rfl, h⟩
          · exact ⟨by rw [hid], h.granted call env.now hid hnew⟩
  | memory =>
    have hturn : call.jobId.any (InMemoryFdcQuotaRepository.earlierQueued t call.quotaScope) =
        call.jobId.any (InMemoryFdcQuotaRepository.earlierQueued u call.quotaScope) :=
      h.notMyTurn call hcall
    simp only [Fdc.reserve, InMemoryFdcQuotaRepository.tryReserve, hturn, h.windowCount]
    split
    · exact ⟨rfl, h.denied call⟩
    · exact ⟨by rw [hid], h.granted call env.now hid hnew⟩

theorem mapAttempts (h : Sim backend made g t u) (set : FdcProviderAttempt → FdcProviderAttempt)
    (hset : ∀ a, (set a).attemptId = a.attemptId ∧ (set a).mode = a.mode ∧
      (set a).jobId = a.jobId) :
    Sim backend made g { t with fdcProviderAttempts := t.fdcProviderAttempts.map set }
      { u with fdcProviderAttempts := u.fdcProviderAttempts.map set } := by
  refine ⟨h.quotaState, h.jobs, h.made_iff, ?_, ?_, h.mono, h.below, h.numbered, h.apart⟩
  · simp only [List.filter_map, Function.comp_def, hset, ← h.attempts]
  · intro a ha hmade
    obtain ⟨before, hbefore, rfl⟩ := List.mem_map.mp ha
    rw [(hset before).1] at hmade
    rw [(hset before).2.1, (hset before).2.2]
    exact h.shadowAttempts before hbefore hmade

theorem recorded_same (id : UUID) (outcome : AttemptOutcome) (httpStartedAt : Option Time)
    (a : FdcProviderAttempt) :
    (recorded id outcome httpStartedAt a).attemptId = a.attemptId ∧
      (recorded id outcome httpStartedAt a).mode = a.mode ∧
      (recorded id outcome httpStartedAt a).jobId = a.jobId := by
  unfold recorded
  split
  · exact ⟨rfl, rfl, rfl⟩
  · exact ⟨rfl, rfl, rfl⟩

theorem unmade_attempt (h : Sim backend made g t u) {a : FdcProviderAttempt}
    (ha : a ∈ u.fdcProviderAttempts) : ¬ made a.attemptId := by
  rw [← h.attempts] at ha
  exact of_decide_eq_true (List.mem_filter.mp ha).2

theorem recordAttemptOutcome_made (h : Sim backend made g t u) {id : UUID} (hid : made id)
    (outcome : AttemptOutcome) (httpStartedAt : Option Time) {next : FdcQuotaTables}
    (hnext : t.recordAttemptOutcome id outcome httpStartedAt = .ok next) :
    Sim backend made g next u := by
  have hnone : u.fdcProviderAttempts.map (recorded id outcome httpStartedAt) =
      u.fdcProviderAttempts := by
    apply (List.map_congr_left fun a ha => ?_).trans (List.map_id _)
    have hother : a.attemptId ≠ id := fun heq => h.unmade_attempt ha (heq ▸ hid)
    simp only [recorded, hother, if_false, id_eq]
  have hboth := h.mapAttempts _ (recorded_same id outcome httpStartedAt)
  rw [hnone] at hboth
  rw [recordAttemptOutcome_eq hnext]
  exact hboth

theorem recordAttemptOutcome (h : Sim backend made g t u) (id : UUID) (outcome : AttemptOutcome)
    (httpStartedAt : Option Time) :
    Sim backend made g
        (Fdc.perform backend t (.recordAttemptOutcome id outcome httpStartedAt))
        (Fdc.perform backend u (.recordAttemptOutcome id outcome httpStartedAt)) ∧
      (¬ made id → answer backend t (.recordAttemptOutcome id outcome httpStartedAt) =
        answer backend u (.recordAttemptOutcome id outcome httpStartedAt)) := by
  by_cases hid : made id
  · refine ⟨?_, fun hunmade => absurd hid hunmade⟩
    have hnone : u.recordAttemptOutcome id outcome httpStartedAt = .error (.noAttempt id) := by
      have hfind : u.fdcProviderAttempts.find? (·.attemptId = id) = none := by
        rw [List.find?_eq_none]
        intro a ha heq
        exact h.unmade_attempt ha (of_decide_eq_true heq ▸ hid)
      simp only [FdcQuotaTables.recordAttemptOutcome, hfind]
    simp only [Fdc.perform, hnone]
    split
    · exact h
    · next hnext => exact h.recordAttemptOutcome_made hid outcome httpStartedAt hnext
  · have hboth := h.mapAttempts _ (recorded_same id outcome httpStartedAt)
    simp only [Fdc.perform, answer, FdcQuotaTables.recordAttemptOutcome, h.attempt? hid]
    cases hfind : u.fdcProviderAttempts.find? (·.attemptId = id) with
    | none => exact ⟨h, fun _ => rfl⟩
    | some attempt =>
      dsimp only
      generalize attempt.httpStartedAt = started
      cases outcome <;> cases started <;>
        first | exact ⟨hboth, fun _ => rfl⟩ | exact ⟨h, fun _ => rfl⟩

theorem draw (h : Sim backend made g t u) :
    Sim backend made (Function.update g u.nextSequence t.nextSequence)
      { t with nextSequence := t.nextSequence + 1 }
        { u with nextSequence := u.nextSequence + 1 } := by
  have hold : ∀ n < u.nextSequence, Function.update g u.nextSequence t.nextSequence n = g n :=
    fun n hn => Function.update_of_ne (Nat.ne_of_lt hn) ..
  refine ⟨h.quotaState, ?_, h.made_iff, h.attempts, h.shadowAttempts, ?_, ?_, ?_, h.apart⟩
  · apply h.jobs.trans
    apply List.map_congr_left
    intro job hjob
    simp only [FdcQueueJob.renumbered, hold _ (h.numbered job hjob)]
  · intro a ha b hb hab
    have hlast : a < u.nextSequence := Nat.lt_of_lt_of_le hab (Nat.le_of_lt_succ hb)
    rw [hold a hlast]
    by_cases hb' : b = u.nextSequence
    · rw [hb', Function.update_self]
      exact h.below a hlast
    · have hbefore : b < u.nextSequence := Nat.lt_of_le_of_ne (Nat.le_of_lt_succ hb) hb'
      rw [hold b hbefore]
      exact h.mono hlast hbefore hab
  · intro n hn
    by_cases hn' : n = u.nextSequence
    · rw [hn', Function.update_self]
      exact Nat.lt_succ_self _
    · have hbefore : n < u.nextSequence := Nat.lt_of_le_of_ne (Nat.le_of_lt_succ hn) hn'
      rw [hold n hbefore]
      exact Nat.lt_succ_of_lt (h.below n hbefore)
  · exact fun job hjob => Nat.lt_succ_of_lt (h.numbered job hjob)

theorem drawLeft (h : Sim backend made g t u) :
    Sim backend made g { t with nextSequence := t.nextSequence + 1 } u :=
  ⟨h.quotaState, h.jobs, h.made_iff, h.attempts, h.shadowAttempts, h.mono,
    fun n hn => Nat.lt_succ_of_lt (h.below n hn), h.numbered, h.apart⟩

theorem addJob (h : Sim backend made g t u) (job : FdcQueueJob) (hreal : job.mode = .real)
    (hunmade : ¬ made job.jobId) (hbelow : job.enqueueSequence < u.nextSequence) :
    Sim backend made g { t with fdcQueueJobs := t.fdcQueueJobs ++ [job.renumbered g] }
      { u with fdcQueueJobs := u.fdcQueueJobs ++ [job] } := by
  refine ⟨h.quotaState, ?_, ?_, h.attempts, h.shadowAttempts, h.mono, h.below, ?_, ?_⟩
  · have hjob : (job.renumbered g).mode = .real := hreal
    have hjobs := h.jobs
    unfold realJobs at hjobs ⊢
    simp only [List.filter_append, List.map_append, hjobs, List.filter_cons, hjob, decide_true,
      if_true, List.filter_nil, List.map_cons, List.map_nil]
  · intro other hother
    rcases List.mem_append.mp hother with hother | hother
    · exact h.made_iff other hother
    · obtain rfl := List.mem_singleton.mp hother
      exact iff_of_false hunmade (not_not.mpr hreal)
  · intro other hother
    rcases List.mem_append.mp hother with hother | hother
    · exact h.numbered other hother
    · obtain rfl := List.mem_singleton.mp hother
      exact hbelow
  · intro hmemory other hother
    rcases List.mem_append.mp hother with hother | hother
    · exact h.apart hmemory other hother
    · obtain rfl := List.mem_singleton.mp hother
      exact hreal

theorem registerRealJob (h : Sim backend made g t u) (new : NewJob) (hid : u.nextId = t.nextId)
    (hnew : ¬ made t.nextId) : ∃ g', Sim backend made g' (t.registerRealJob new).2
      (u.registerRealJob new).2 := by
  have hdrawn := h.draw.addJob (new.row .real .queued u) rfl (by rw [← hid] at hnew; exact hnew)
    (Nat.lt_succ_self _)
  have hrow : (new.row .real .queued u).renumbered
      (Function.update g u.nextSequence t.nextSequence) = new.row .real .queued t := by
    simp only [FdcQueueJob.renumbered, NewJob.row, Function.update_self, hid]
  rw [hrow] at hdrawn
  have hnumbered := hdrawn.withNextId (t.nextId + 1) (t.nextId + 1)
  refine ⟨Function.update g u.nextSequence t.nextSequence, ?_⟩
  unfold FdcQuotaTables.registerRealJob
  rw [hid]
  exact hnumbered

theorem applyRetryFailure (h : Sim backend made g t u) (id : UUID) (reason : RetryReason)
    (willRetry : Bool) : ∃ g', Sim backend made g' (t.applyRetryFailure id reason willRetry)
      (u.applyRetryFailure id reason willRetry) := by
  cases willRetry with
  | false =>
    refine ⟨g, ?_⟩
    unfold FdcQuotaTables.applyRetryFailure
    simp only [Bool.false_eq_true, if_false]
    apply h.updateJob
    · exact fun _ => ⟨rfl, rfl, rfl⟩
    · exact fun _ => rfl
  | true =>
    unfold FdcQuotaTables.applyRetryFailure
    simp only [if_true]
    cases hu : u.job? id with
    | some job =>
      have hunmade : ¬ made id := by
        have hjobId : job.jobId = id := by simpa using List.find?_some hu
        rw [← hjobId]
        exact h.unmade_of_mem (List.mem_of_find?_eq_some hu)
      refine ⟨Function.update g u.nextSequence t.nextSequence, ?_⟩
      simp only [h.job? (Or.inr hunmade), hu, Option.map_some, Option.isSome_some, if_true]
      apply h.draw.updateJobs id
      · exact fun _ => ⟨rfl, rfl⟩
      · intro job
        simp only [FdcQueueJob.renumbered, Function.update_self]
      · exact fun _ _ => Nat.lt_succ_self _
    | none =>
      refine ⟨g, ?_⟩
      simp only [Option.isSome_none, Bool.false_eq_true, if_false]
      split
      · next hsome =>
        have hid : made id := by
          by_contra hunmade
          rw [h.job? (Or.inr hunmade), hu] at hsome
          exact absurd hsome (by simp)
        apply h.drawLeft.updateMade hid
        exact fun _ => ⟨rfl, rfl⟩
      · exact h

theorem markJobTerminal (h : Sim backend made g t u) (id : UUID) (status : JobStatus)
    (reason : Option String) :
    Sim backend made g (t.markJobTerminal id status reason)
      (u.markJobTerminal id status reason) := by
  apply h.updateJob
  · exact fun _ => ⟨rfl, rfl, rfl⟩
  · exact fun _ => rfl

theorem filter_real (h : Sim backend made g t u) (quotaScope : String) (status : JobStatus) :
    (t.fdcQueueJobs.filter fun job =>
        job.quotaScope = quotaScope ∧ job.mode = .real ∧ job.status = status) =
      (u.fdcQueueJobs.filter fun job =>
        job.quotaScope = quotaScope ∧ job.mode = .real ∧ job.status = status).map
          (FdcQueueJob.renumbered g) := by
  have hleft : (t.fdcQueueJobs.filter fun job =>
        job.quotaScope = quotaScope ∧ job.mode = .real ∧ job.status = status) =
      t.realJobs.filter fun job => job.quotaScope = quotaScope ∧ job.status = status := by
    rw [realJobs, List.filter_filter]
    apply List.filter_congr
    intro job _
    simp only [Bool.decide_and]
    grind
  have hright : (u.fdcQueueJobs.filter fun job =>
        job.quotaScope = quotaScope ∧ job.mode = .real ∧ job.status = status) =
      u.fdcQueueJobs.filter fun job => job.quotaScope = quotaScope ∧ job.status = status := by
    apply List.filter_congr
    intro job hjob
    simp only [h.real_of_mem hjob, true_and]
  rw [hleft, hright, h.jobs, List.filter_map]
  rfl

theorem resume (rows : List FdcQueueJob) (resumableT resumableU : List FdcQueueJob)
    (h : Sim backend made g t u)
    (hrows : resumableT.map FdcQueueJob.resumable = resumableU.map FdcQueueJob.resumable) :
    let afterT := (rows.map (FdcQueueJob.renumbered g)).foldl resumeRow (resumableT, t)
    let afterU := rows.foldl resumeRow (resumableU, u)
    afterT.1.map FdcQueueJob.resumable = afterU.1.map FdcQueueJob.resumable ∧
      Sim backend made g afterT.2 afterU.2 := by
  induction rows generalizing resumableT resumableU t u with
  | nil => exact ⟨hrows, h⟩
  | cons row rows ih =>
    simp only [List.map_cons, List.foldl_cons]
    have hresumable : unresumable (row.renumbered g) = unresumable row := rfl
    simp only [resumeRow, hresumable]
    cases unresumable row with
    | some reason => exact ih _ _ (h.markJobTerminal row.jobId .fdcFailedFinal (some reason)) hrows
    | none =>
      apply ih _ _ h
      simp only [List.map_append, hrows]
      rfl

theorem listResumableRealJobs (h : Sim backend made g t u) (quotaScope : String) :
    (t.listResumableRealJobs quotaScope).1.map FdcQueueJob.resumable =
        (u.listResumableRealJobs quotaScope).1.map FdcQueueJob.resumable ∧
      Sim backend made g (t.listResumableRealJobs quotaScope).2
        (u.listResumableRealJobs quotaScope).2 := by
  unfold FdcQuotaTables.listResumableRealJobs
  simp only [h.filter_real quotaScope .queued]
  rw [← List.map_insertionSort
    (fun a b : FdcQueueJob => a.enqueueSequence ≤ b.enqueueSequence)]
  · apply h.resume _ [] [] rfl
  · intro a ha b hb
    symm
    apply h.mono.le_iff_le
    · exact h.numbered a (List.mem_of_mem_filter ha)
    · exact h.numbered b (List.mem_of_mem_filter hb)

theorem cancelStale (reason : String) (rows : List FdcQueueJob) (n : Nat)
    (h : Sim backend made g t u) (hrows : ∀ row ∈ rows, ¬ made row.jobId) :
    let afterT := (rows.map (FdcQueueJob.renumbered g)).foldl (cancelRow reason) (n, t)
    let afterU := rows.foldl (cancelRow reason) (n, u)
    afterT.1 = afterU.1 ∧ Sim backend made g afterT.2 afterU.2 := by
  induction rows generalizing n t u with
  | nil => exact ⟨rfl, h⟩
  | cons row rows ih =>
    obtain ⟨hrow, hrest⟩ := List.forall_mem_cons.mp hrows
    simp only [List.map_cons, List.foldl_cons]
    apply ih _ _ hrest
    have hlifecycle : t.getLatestRealJobAttemptLifecycle (row.renumbered g).jobId =
        u.getLatestRealJobAttemptLifecycle row.jobId := h.getLatestRealJobAttemptLifecycle hrow
    dsimp only [cancelRow]
    rw [hlifecycle]
    cases u.getLatestRealJobAttemptLifecycle row.jobId with
    | notFound => exact h.markJobTerminal row.jobId _ _
    | notStarted => exact h.markJobTerminal row.jobId _ _
    | started => exact h.markJobTerminal row.jobId _ _

theorem cancelStaleRealJobs (h : Sim backend made g t u) (quotaScope reason : String) :
    (t.cancelStaleRealJobs quotaScope reason).1 = (u.cancelStaleRealJobs quotaScope reason).1 ∧
      Sim backend made g (t.cancelStaleRealJobs quotaScope reason).2
        (u.cancelStaleRealJobs quotaScope reason).2 := by
  unfold FdcQuotaTables.cancelStaleRealJobs
  simp only [h.filter_real quotaScope .reservationGranted]
  apply h.cancelStale reason
  intro row hrow
  exact h.unmade_of_mem (List.mem_of_mem_filter hrow)

theorem addMade (h : Sim backend made g t u) (rows : List FdcQueueJob)
    (attempt : FdcProviderAttempt) (n : UUID)
    (hrows : ∀ job ∈ rows, backend = .postgres ∧ made job.jobId ∧ job.mode ≠ .real)
    (hattempt : made attempt.attemptId) (hmode : attempt.mode ≠ .real)
    (hjob : ∀ id, attempt.jobId = some id → made id) (shadowJobs : List FdcQueueJob) :
    Sim backend made g { t with
      fdcQueueJobs := t.fdcQueueJobs ++ rows
      fdcProviderAttempts := attempt :: t.fdcProviderAttempts
      shadowJobs := shadowJobs
      nextSequence := t.nextSequence + 1
      nextId := n } u := by
  refine ⟨h.quotaState, ?_, ?_, ?_, ?_, h.mono, ?_, h.numbered, ?_⟩
  · have hnone : rows.filter (fun job => decide (job.mode = .real)) = [] := by
      apply List.filter_eq_nil_iff.mpr
      intro job hmem
      simpa using (hrows job hmem).2.2
    have hjobs := h.jobs
    unfold realJobs at hjobs ⊢
    rw [List.filter_append, hnone, List.append_nil, hjobs]
  · intro job hmem
    rcases List.mem_append.mp hmem with hmem | hmem
    · exact h.made_iff job hmem
    · exact iff_of_true (hrows job hmem).2.1 (hrows job hmem).2.2
  · simp only [List.filter_cons, hattempt, not_true_eq_false, decide_false, Bool.false_eq_true,
      if_false, h.attempts]
  · intro other hother hmade
    rcases List.mem_cons.mp hother with rfl | hother
    · exact ⟨hmode, hjob⟩
    · exact h.shadowAttempts other hother hmade
  · exact fun n hn => Nat.lt_succ_of_lt (h.below n hn)
  · intro hmemory job hmem
    rcases List.mem_append.mp hmem with hmem | hmem
    · exact h.apart hmemory job hmem
    · have hpostgres := (hrows job hmem).1
      rw [hmemory] at hpostgres
      exact nomatch hpostgres

theorem registerShadowJobAndJudge (h : Sim backend made g t u) (new : NewJob)
    (targetRpm windowSeconds : Nat) (callerId : String)
    (failure : Option (DatabaseError × String)) (hjob : made t.nextId)
    (hattempt : made (t.nextId + 1)) :
    Sim backend made g (Fdc.perform backend t
      (.registerShadowJobAndJudge new targetRpm windowSeconds callerId failure)) u := by
  cases backend with
  | postgres =>
    simp only [Fdc.perform, PostgresFdcQuotaRepository.registerShadowJobAndJudge]
    split
    · exact h
    · split
      · exact h
      · apply h.addMade
        · intro job hmem
          obtain rfl := List.mem_singleton.mp hmem
          exact ⟨rfl, hjob, nofun⟩
        · exact hattempt
        · exact nofun
        · rintro id ⟨rfl⟩
          exact hjob
  | memory =>
    have hadded := h.addMade [] (new.shadowAttempt none (t.nextId + 1) callerId
      (shadowJudgement t t.shadowJobs new targetRpm windowSeconds).wouldGrant) (t.nextId + 2)
      (fun _ hmem => absurd hmem List.not_mem_nil) hattempt (fun hreal => Mode.noConfusion hreal)
      (fun _ hnone => absurd hnone (Option.some_ne_none _).symm)
      (t.shadowJobs ++ [{ new.row .shadow (shadowStatus
        (shadowJudgement t t.shadowJobs new targetRpm windowSeconds).wouldGrant) t with
          queuePollCount := 1 }])
    rw [List.append_nil] at hadded
    exact hadded

theorem tryReserve (h : Sim backend made g t u) (c : FdcQuotaCoordinator) (jobId : Option UUID)
    (callerId : String) (mode : Mode) (manualRunId : Option String) (attemptNo : Int)
    (policy : Option Bool) (env : ReserveEnv)
    (hcall : backend = .postgres → ∀ id, jobId = some id → ¬ made id) (hid : u.nextId = t.nextId)
    (hnew : ¬ made t.nextId) :
    (c.tryReserve backend t jobId callerId mode manualRunId attemptNo policy env).1 =
        (c.tryReserve backend u jobId callerId mode manualRunId attemptNo policy env).1 ∧
      Sim backend made g
        (c.tryReserve backend t jobId callerId mode manualRunId attemptNo policy env).2
        (c.tryReserve backend u jobId callerId mode manualRunId attemptNo policy env).2 := by
  unfold FdcQuotaCoordinator.tryReserve
  split
  · exact ⟨rfl, h⟩
  · exact h.reserve _ env hcall hid hnew

/-- An operation that is no shadow registration, with the same identifiers to draw on both
sides. -/
theorem perform (h : Sim backend made g t u) (operation : Operation)
    (hkept : isShadow (.perform operation, 0) = false)
    (hcall : backend = .postgres →
      ∀ id, (Request.perform operation).reserves = some id → ¬ made id)
    (hid : u.nextId = t.nextId) (hnew : ¬ made t.nextId) :
    (∃ g', Sim backend made g' (Fdc.perform backend t operation)
      (Fdc.perform backend u operation)) ∧
    ((∀ id ∈ (Request.perform operation).names, ¬ made id) →
      answer backend t operation = answer backend u operation) := by
  cases operation with
  | tryReserve c jobId callerId mode manualRunId attemptNo policy env =>
    obtain ⟨hanswer, hnext⟩ :=
      h.tryReserve c jobId callerId mode manualRunId attemptNo policy env hcall hid hnew
    exact ⟨⟨g, hnext⟩, fun _ => congrArg Answer.reservation hanswer⟩
  | recordAttemptOutcome id outcome httpStartedAt =>
    obtain ⟨hnext, hanswer⟩ := h.recordAttemptOutcome id outcome httpStartedAt
    exact ⟨⟨g, hnext⟩, fun hnames => hanswer (hnames id (List.mem_singleton_self id))⟩
  | registerShadowJobAndJudge => exact absurd hkept nofun
  | registerRealJob new =>
    exact ⟨h.registerRealJob new hid hnew, fun _ => congrArg Answer.registered hid.symm⟩
  | listResumableRealJobs quotaScope =>
    obtain ⟨hanswer, hnext⟩ := h.listResumableRealJobs quotaScope
    exact ⟨⟨g, hnext⟩, fun _ => congrArg Answer.resumable hanswer⟩
  | cancelStaleRealJobs quotaScope reason =>
    obtain ⟨hanswer, hnext⟩ := h.cancelStaleRealJobs quotaScope reason
    exact ⟨⟨g, hnext⟩, fun _ => congrArg Answer.transitioned hanswer⟩
  | markJobTerminal id status reason =>
    exact ⟨⟨g, h.markJobTerminal id status reason⟩, fun _ => rfl⟩
  | markJobStatus id status =>
    refine ⟨⟨g, ?_⟩, fun _ => rfl⟩
    apply h.updateJob
    · exact fun _ => ⟨rfl, rfl, rfl⟩
    · exact fun _ => rfl
  | applyRetryFailure id reason willRetry =>
    exact ⟨h.applyRetryFailure id reason willRetry, fun _ => rfl⟩
  | recordHttpAttemptCounters id observed =>
    refine ⟨⟨g, ?_⟩, fun _ => rfl⟩
    apply h.updateJob
    · exact fun _ => ⟨rfl, rfl, rfl⟩
    · exact fun _ => rfl

end Sim

section Runs

variable {backend : Backend} {requests : List Request}

theorem eq_of_place {requests : List Request} {e other : Request × Nat} (he : e ∈ requests.zipIdx)
    (hother : other ∈ requests.zipIdx) (hplace : e.2 = other.2) : e = other := by
  rw [List.mem_zipIdx_iff_getElem?] at he hother
  rw [hplace, hother] at he
  exact Prod.ext (Option.some.inj he).symm hplace

theorem not_shadowMade_of_mem {e : Request × Nat} (he : e ∈ requests.zipIdx)
    (hkept : isShadow e = false) : ¬ ShadowMade requests.zipIdx (2 * e.2) := by
  rintro ⟨other, hother, hshadow, hid⟩
  have hplace : e.2 = other.2 := by
    have hid : 2 * e.2 = 2 * other.2 ∨ 2 * e.2 = 2 * other.2 + 1 := hid
    omega
  rw [eq_of_place he hother hplace, hshadow] at hkept
  exact nomatch hkept

/-- A request of the list that reserves, with Postgres, for no job of a shadow registration. -/
def ReservesReal (backend : Backend) (requests : List (Request × Nat)) (e : Request × Nat) :
    Prop :=
  e ∈ requests ∧ (backend = .postgres → ∀ id, e.1.reserves = some id → ¬ ShadowMade requests id)

theorem serve_unwinds (backend : Backend) (requests : List Request) :
    Purge.Unwinds (serve backend) isShadow (onReal requests.zipIdx)
      (ReservesReal backend requests.zipIdx)
      fun t u => ∃ g, Sim backend (ShadowMade requests.zipIdx) g t u where
  hides := by
    rintro t u ⟨request, k⟩ ⟨g, hsim⟩ ⟨hmem, -⟩ hshadow
    have hjob : ShadowMade requests.zipIdx (2 * k) := ⟨_, hmem, hshadow, Or.inl rfl⟩
    have hattempt : ShadowMade requests.zipIdx (2 * k + 1) := ⟨_, hmem, hshadow, Or.inr rfl⟩
    cases request with
    | getAttemptHttpLifecycle => exact nomatch hshadow
    | getLatestRealJobAttemptLifecycle => exact nomatch hshadow
    | perform operation =>
      cases operation with
      | registerShadowJobAndJudge new targetRpm windowSeconds callerId failure =>
        refine ⟨g, ?_⟩
        exact (hsim.withNextId (2 * k) u.nextId).registerShadowJobAndJudge new targetRpm
          windowSeconds callerId failure hjob hattempt
      | _ => exact nomatch hshadow
  follows := by
    rintro t u ⟨request, k⟩ ⟨g, hsim⟩ ⟨hmem, hreserves⟩ hkept
    have hboth := hsim.withNextId (2 * k) (2 * k)
    cases request with
    | getAttemptHttpLifecycle => exact ⟨g, hboth⟩
    | getLatestRealJobAttemptLifecycle => exact ⟨g, hboth⟩
    | perform operation =>
      exact (hboth.perform operation hkept hreserves rfl (not_shadowMade_of_mem hmem hkept)).1
  agrees := by
    rintro t u ⟨request, k⟩ ⟨g, hsim⟩ ⟨hmem, hreserves⟩ hkept hwatched
    have hboth := hsim.withNextId (2 * k) (2 * k)
    have hnames : ∀ id ∈ request.names, ¬ ShadowMade requests.zipIdx id := by
      simpa [onReal, hkept] using hwatched
    cases request with
    | getAttemptHttpLifecycle id =>
      exact congrArg Answer.lifecycle
        (hboth.getAttemptHttpLifecycle (hnames id (List.mem_singleton_self id)))
    | getLatestRealJobAttemptLifecycle id =>
      exact congrArg Answer.lifecycle
        (hboth.getLatestRealJobAttemptLifecycle (hnames id (List.mem_singleton_self id)))
    | perform operation =>
      exact (hboth.perform operation hkept hreserves rfl
        (not_shadowMade_of_mem hmem hkept)).2 hnames
  unwatched := by
    intro e hshadow
    simp only [onReal, hshadow, Bool.not_true, Bool.false_and]

theorem sim_seeded (backend : Backend) (made : UUID → Prop) [DecidablePred made]
    (scopes : List String) : Sim backend made id (seeded scopes) (seeded scopes) where
  quotaState := rfl
  jobs := rfl
  made_iff := fun _ hjob => absurd hjob List.not_mem_nil
  attempts := rfl
  shadowAttempts := fun _ hattempt => absurd hattempt List.not_mem_nil
  mono := fun _ _ _ _ hlt => hlt
  below := fun _ hn => hn
  numbered := fun _ hjob => absurd hjob List.not_mem_nil
  apart := fun _ _ hjob => absurd hjob List.not_mem_nil

/-- Without the shadow registrations the answers about real jobs and attempts are the same, and
in the end the real rows; with Postgres, no reservation is asked for a job that a shadow
registration has made. -/
theorem shadow_unnoticed (backend : Backend) (scopes : List String) (requests : List Request)
    (hreserves : backend = .postgres → ∀ e ∈ requests.zipIdx, ∀ id, e.1.reserves = some id →
      ¬ ShadowMade requests.zipIdx id) :
    Purge.answers (serve backend) (onReal requests.zipIdx) (seeded scopes) requests.zipIdx =
        Purge.answers (serve backend) (onReal requests.zipIdx) (seeded scopes)
          (Purge.purge isShadow requests.zipIdx) ∧
      (Purge.final (serve backend) (seeded scopes) requests.zipIdx).SameReal
        (Purge.final (serve backend) (seeded scopes)
          (Purge.purge isShadow requests.zipIdx)) := by
  have hunwinds := serve_unwinds backend requests
  have hstart : ∃ g, Sim backend (ShadowMade requests.zipIdx) g (seeded scopes) (seeded scopes) :=
    ⟨id, sim_seeded backend _ scopes⟩
  have hmeets : ∀ e ∈ requests.zipIdx, ReservesReal backend requests.zipIdx e :=
    fun e he => ⟨he, fun hpostgres => hreserves hpostgres e he⟩
  constructor
  · exact hunwinds.answers hstart hmeets
  · obtain ⟨g, hfinal⟩ := hunwinds.final hstart hmeets
    exact hfinal.sameReal

end Runs

/-! One request a minute, with a shadow job registered in front of the real one. -/

def oneSharedPerMinute : FdcQuotaCoordinator := .shared 1 (by decide)

def NewJob.sampled : NewJob where
  decisionCycleId := none
  decisionContextId := none
  symbol := "005930"
  sourceType := "core"
  quotaScope := "gemini:shared-operational"
  fdcReadyAt := 1000000

def shadowThenReal : List Request :=
  [.perform (.registerShadowJobAndJudge .sampled 1 60 "fdc-shadow" none),
    .perform (.registerRealJob .sampled)]

def reserveAt (jobId : UUID) (attemptNo : Int) (now : Time) : Request :=
  .perform (.tryReserve oneSharedPerMinute (some jobId) "ops-scheduler" .real none attemptNo none
    { counted := now, now := now })

theorem shadow_unnoticed_shadowThenReal :
    let requests := (shadowThenReal ++ [reserveAt 2 1 2000000]).zipIdx
    Purge.answers (serve .postgres) (onReal requests) (seeded ["gemini:shared-operational"])
        requests =
      Purge.answers (serve .postgres) (onReal requests) (seeded ["gemini:shared-operational"])
        (Purge.purge isShadow requests) := by
  apply (shadow_unnoticed .postgres ["gemini:shared-operational"]
    (shadowThenReal ++ [reserveAt 2 1 2000000]) fun _ => ?_).1
  have hid : ¬ ShadowMade (shadowThenReal ++ [reserveAt 2 1 2000000]).zipIdx 2 := by decide
  intro e he id hreserves
  obtain rfl | rfl | rfl : e = _ ∨ e = _ ∨ e = _ := by simpa [shadowThenReal] using he
  · exact nomatch hreserves
  · exact nomatch hreserves
  · exact Option.some.inj hreserves ▸ hid

/-- With Postgres a reservation for the shadow job is granted and uses up the minute of the real
one; without the shadow job it is refused and the real job has the minute. -/
theorem shadow_job_reserved :
    let requests := (shadowThenReal ++ [reserveAt 0 2 2000000, reserveAt 2 1 3000000]).zipIdx
    ¬ Purge.answers (serve .postgres) (onReal requests) (seeded ["gemini:shared-operational"])
        requests =
      Purge.answers (serve .postgres) (onReal requests) (seeded ["gemini:shared-operational"])
        (Purge.purge isShadow requests) := by
  intro requests h
  exact absurd (congrArg (List.map Prod.snd) h) (by decide +kernel)

end AgentTrading.Fdc
