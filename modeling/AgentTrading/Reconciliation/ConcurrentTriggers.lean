import AgentTrading.Library.Stages
import AgentTrading.Reconciliation.BlockingLock

/-! Triggers that run at the same time. Looking for an active run, storing a new one and taking the
lock are operations of their own, so that two triggers may both find no run and both store one. -/
namespace AgentTrading.Reconciliation
open Domain Repositories Library Orders

/-- A call of `trigger`. -/
structure TriggerCall where
  accountId : UUID
  triggerType : String
  strategyId : Option UUID := none
  symbol : Option String := none
  side : Option String := none

namespace TriggerCall

/-- What the lock of the call blocks. -/
def scope (call : TriggerCall) : LockKey :=
  ⟨call.accountId, call.strategyId, call.symbol, call.side⟩

def code (call : TriggerCall) : Code ReconciliationRunEntity :=
  trigger call.accountId call.triggerType call.strategyId call.symbol call.side

end TriggerCall

/-- The store and the triggers that have been called. -/
abbrev Triggers := Pool Op Reply PyError ReconciliationRunEntity TriggerCall Store

abbrev TriggerEvent := Pool.Event TriggerCall Choice

abbrev Triggers.step (w : Triggers) (e : TriggerEvent) : Triggers :=
  Pool.step exec TriggerCall.code w e

def startedRuns (s : Store) (accountId : UUID) : List ReconciliationRunEntity :=
  s.runs.filter fun run => run.accountId = accountId ∧ run.status = .started

/-- The lock is in place and its time has not elapsed. -/
def ActiveLock (s : Store) (key : LockKey) (lock : BlockingLock) : Prop :=
  s.locks key = some lock ∧ s.clock < lock.expiresAt

/-- The account has at most one started run, and each active lock of it is that of a started run,
which is there to be resolved. -/
structure Consistent (accountId : UUID) (s : Store) : Prop where
  single : (startedRuns s accountId).length ≤ 1
  owned : ∀ key lock, key.accountId = accountId → ActiveLock s key lock →
    ∃ run ∈ startedRuns s accountId, run.reconciliationRunId = lock.lockedByRunId

/-- Besides, a trigger that has returned a run is no longer blocked once the locks of that run are
released. -/
structure Resolvable (accountId : UUID) (w : Triggers) : Prop where
  consistent : Consistent accountId w.shared
  released : ∀ t call run, w.threads t = some (call, .ret run) → call.accountId = accountId →
    ∀ lock, ¬ ActiveLock (w.shared.releaseLock accountId none none none
      (some run.reconciliationRunId)) call.scope lock

/-- A run is stored while the account has no active one. -/
def StoresFirst (accountId : UUID) (_ : TriggerCall) (_ : Choice) (op : Op) (s : Store) : Prop :=
  match op with
  | .reconciliationsAddRun run => run.accountId = accountId → s.getActiveRun accountId = none
  | _ => True

/-- Runs are added and none is taken away. -/
def Grows (s t : Store) : Prop := ∀ run ∈ s.runs, run ∈ t.runs

theorem grows_refl (s : Store) : Grows s s := fun _ => id

theorem grows_trans (a b c : Store) (h₁ : Grows a b) (h₂ : Grows b c) : Grows a c :=
  fun run hrun => h₂ run (h₁ run hrun)

/-- A trigger stores started runs of its account and takes the lock of its scope for one. -/
def WithinTrigger (call : TriggerCall) (op : Op) (s : Store) : Prop :=
  match op with
  | .reconciliationsAddRun run => run.accountId = call.accountId ∧ run.status = .started
  | .reconciliationsAcquireLock key _ runId _ => key = call.scope ∧
      ∃ run ∈ startedRuns s call.accountId, run.reconciliationRunId = runId
  | op => op.Quiet

/-- A trigger returns a started run of its account. -/
def Promised (call : TriggerCall) (result : Except PyError ReconciliationRunEntity) (s : Store) :
    Prop :=
  ∀ run, result = .ok run → run ∈ startedRuns s call.accountId

abbrev TriggerStage (call : TriggerCall) (p : Code ReconciliationRunEntity) (s : Store) : Prop :=
  Program.Safe exec Grows (fun _ _ _ => True) (fun _ => WithinTrigger call) (Promised call) p s

theorem mem_startedRuns {s : Store} {accountId : UUID} {run : ReconciliationRunEntity} :
    run ∈ startedRuns s accountId ↔
      run ∈ s.runs ∧ run.accountId = accountId ∧ run.status = .started := by
  simp only [startedRuns, List.mem_filter, decide_eq_true_eq]

theorem startedRuns_grows {s t : Store} (h : Grows s t) {accountId : UUID}
    {run : ReconciliationRunEntity} (hrun : run ∈ startedRuns s accountId) :
    run ∈ startedRuns t accountId := by
  rw [mem_startedRuns] at hrun ⊢
  exact ⟨h run hrun.1, hrun.2⟩

theorem getActiveRun_started {s : Store} {accountId : UUID} {run : ReconciliationRunEntity}
    (h : s.getActiveRun accountId = some run) : run ∈ startedRuns s accountId := by
  apply (Store.newest_mem (startedRuns s accountId) none run h).resolve_right
  simp

theorem getActiveRun_none {s : Store} {accountId : UUID} :
    s.getActiveRun accountId = none ↔ startedRuns s accountId = [] := by
  change (startedRuns s accountId).foldl Store.newer none = none ↔ _
  constructor
  · intro h
    by_contra hruns
    have hsome := Store.newest_isSome (startedRuns s accountId) none (Or.inr hruns)
    rw [h] at hsome
    cases hsome
  · intro h
    rw [h, List.foldl_nil]

theorem exec_grows (call : TriggerCall) (c : Choice) (op : Op) (s : Store)
    (h : WithinTrigger call op s) : Grows s (exec c op s).2 := by
  by_cases hquiet : op.Quiet
  · intro run hrun
    rw [(exec_sameRuns c op s hquiet).runs]
    exact hrun
  · cases op with
    | reconciliationsAddRun added => exact fun run hrun => List.mem_append_left _ hrun
    | reconciliationsAcquireLock key reason runId expiresAt =>
      obtain ⟨locks, hlocks⟩ := (tick c s).acquireLock_frame key reason runId expiresAt
      intro run hrun
      simp only [exec, respond, hlocks]
      exact hrun
    | _ => exact (hquiet h).elim

theorem locking_stage (call : TriggerCall) (reason : String) (created : ReconciliationRunEntity)
    (s : Store) (hcreated : created ∈ startedRuns s call.accountId) :
    TriggerStage call ((acquireBlockingLock call.scope reason created.reconciliationRunId).bind
      fun _ => .ret created) s := by
  intro s₁ c₁ hs₁ _
  refine ⟨trivial, ?_⟩
  intro s₂ c₂ hs₂ _
  have hlocked : WithinTrigger call (.reconciliationsAcquireLock call.scope reason
      created.reconciliationRunId ((exec c₁ .now s₁).1 + lockTtlMinutes * microsPerMinute)) s₂ :=
    ⟨rfl, created, startedRuns_grows hs₂ (startedRuns_grows hs₁ hcreated), rfl⟩
  refine ⟨hlocked, ?_⟩
  intro s₃ hs₃ run hrun
  obtain rfl := Except.ok.inj hrun
  have hgrows := exec_grows call c₂ _ s₂ hlocked
  exact startedRuns_grows hs₃ (startedRuns_grows hgrows
    (startedRuns_grows hs₂ (startedRuns_grows hs₁ hcreated)))

theorem trigger_stage (call : TriggerCall) (s : Store) : TriggerStage call call.code s := by
  intro s₁ c₁ _ _
  refine ⟨trivial, ?_⟩
  cases hactive : (exec c₁ (.reconciliationsGetActiveRun call.accountId) s₁).1 with
  | some run =>
    intro s₂ hs₂ result hresult
    obtain rfl := Except.ok.inj hresult
    exact startedRuns_grows hs₂ (getActiveRun_started hactive)
  | none =>
    intro s₂ c₂ _ _
    refine ⟨trivial, ?_⟩
    intro s₃ c₃ _ _
    refine ⟨trivial, ?_⟩
    intro s₄ c₄ _ _
    refine ⟨⟨rfl, rfl⟩, ?_⟩
    apply locking_stage
    rw [mem_startedRuns]
    exact ⟨List.mem_append_right _ List.mem_cons_self, rfl, rfl⟩

section

variable {accountId : UUID} {s t : Store}

theorem ActiveLock.before {key : LockKey} {lock : BlockingLock} {c : Choice} {op : Op}
    (hlocks : (exec c op s).2.locks key = s.locks key) (h : ActiveLock (exec c op s).2 key lock) :
    ActiveLock s key lock := by
  have hclock : (exec c op s).2.clock = s.clock + c.elapsed := exec_clock c op s
  constructor
  · rw [← hlocks]
    exact h.1
  · have hlater := h.2
    rw [hclock] at hlater
    exact Int.lt_of_le_of_lt (Int.le_add_of_nonneg_right (Int.natCast_nonneg _)) hlater

theorem Consistent.later (h : Consistent accountId s)
    (hruns : startedRuns t accountId = startedRuns s accountId)
    (hlocks : ∀ key lock, key.accountId = accountId → ActiveLock t key lock →
      ActiveLock s key lock ∨ ∃ run ∈ startedRuns s accountId,
        run.reconciliationRunId = lock.lockedByRunId) :
    Consistent accountId t := by
  constructor
  · rw [hruns]
    exact h.single
  · intro key lock hkey hactive
    rw [hruns]
    rcases hlocks key lock hkey hactive with hbefore | howned
    · exact h.owned key lock hkey hbefore
    · exact howned

theorem consistent_quiet (c : Choice) {op : Op} (hop : op.Quiet) (h : Consistent accountId s) :
    Consistent accountId (exec c op s).2 := by
  have hsame := exec_sameRuns c op s hop
  apply h.later
  · unfold startedRuns
    rw [hsame.runs]
  · intro key lock _ hactive
    left
    apply ActiveLock.before _ hactive
    rw [hsame.locks]

/-- A lock that is taken for a started run is that run's; the others stay whose they were. -/
theorem consistent_acquire (c : Choice) (key : LockKey) (reason : String) (runId : UUID)
    (expiresAt : Time) (h : Consistent accountId s)
    (howner : key.accountId = accountId →
      ∃ run ∈ startedRuns s accountId, run.reconciliationRunId = runId) :
    Consistent accountId (exec c (.reconciliationsAcquireLock key reason runId expiresAt) s).2 := by
  obtain ⟨locks, hframe⟩ := (tick c s).acquireLock_frame key reason runId expiresAt
  apply h.later
  · simp only [exec, respond, hframe]
    rfl
  · intro other lock hother hactive
    by_cases hkept : (exec c (.reconciliationsAcquireLock key reason runId expiresAt) s).2.locks
        other = s.locks other
    · exact Or.inl (hactive.before hkept)
    · right
      obtain ⟨rfl, rfl⟩ := (tick c s).acquireLock_taken key reason runId expiresAt other lock
        hactive.1 hkept
      exact howner hother

theorem startedRuns_addRun (s : Store) (run : ReconciliationRunEntity) (accountId : UUID)
    (hstarted : run.status = .started) :
    startedRuns (s.addRun run) accountId =
      startedRuns s accountId ++ if run.accountId = accountId then [run] else [] := by
  unfold startedRuns Store.addRun
  rw [List.filter_append]
  congr 1
  by_cases haccount : run.accountId = accountId
  · simp [haccount, hstarted]
  · simp [haccount]

theorem consistent_addRun_iff (c : Choice) (run : ReconciliationRunEntity)
    (hstarted : run.status = .started) (h : Consistent accountId s) :
    Consistent accountId (exec c (.reconciliationsAddRun run) s).2 ↔
      (run.accountId = accountId → s.getActiveRun accountId = none) := by
  have hruns : startedRuns (exec c (.reconciliationsAddRun run) s).2 accountId =
      startedRuns s accountId ++ if run.accountId = accountId then [run] else [] :=
    startedRuns_addRun (tick c s) run accountId hstarted
  rw [getActiveRun_none]
  constructor
  · intro hafter haccount
    have hsingle := hafter.single
    rw [hruns, if_pos haccount, List.length_append, List.length_singleton] at hsingle
    apply List.eq_nil_of_length_eq_zero
    omega
  · intro hfirst
    constructor
    · rw [hruns]
      split
      · next haccount => simp [hfirst haccount]
      · simpa using h.single
    · intro key lock hkey hactive
      obtain ⟨owner, howner, hid⟩ := h.owned key lock hkey (hactive.before rfl)
      refine ⟨owner, ?_, hid⟩
      rw [hruns]
      exact List.mem_append_left _ howner

/-- An operation of a trigger keeps the account consistent exactly if it stores no second run. -/
theorem consistent_exec_iff (call : TriggerCall) (c : Choice) (op : Op)
    (hop : WithinTrigger call op s) (h : Consistent accountId s) :
    Consistent accountId (exec c op s).2 ↔ StoresFirst accountId call c op s := by
  by_cases hquiet : op.Quiet
  · apply iff_of_true
    · exact consistent_quiet c hquiet h
    · cases op <;> trivial
  · cases op with
    | reconciliationsAddRun run => exact consistent_addRun_iff c run hop.2 h
    | reconciliationsAcquireLock key reason runId expiresAt =>
      apply iff_of_true _ trivial
      apply consistent_acquire c key reason runId expiresAt h
      rintro rfl
      obtain ⟨hkey, howner⟩ := hop
      rw [hkey]
      exact howner
    | _ => exact (hquiet hop).elim

end

section

variable {accountId : UUID} {w : Triggers}

theorem grows_safe {call : TriggerCall} {p : Code ReconciliationRunEntity} {s t : Store}
    (h : TriggerStage call p s) (hgrows : Grows s t) : TriggerStage call p t :=
  h.mono_rely grows_trans hgrows

theorem TriggerStage.next {call : TriggerCall} {op : Op}
    {k : Reply op → Code ReconciliationRunEntity} {s : Store}
    (h : TriggerStage call (.call op k) s) (c : Choice) :
    WithinTrigger call op s ∧ TriggerStage call (k (exec c op s).1) (exec c op s).2 :=
  h s c (grows_refl s) trivial

theorem triggers_staged (w : Triggers) (e : TriggerEvent) (hw : Pool.Staged TriggerStage w) :
    Pool.Staged TriggerStage (w.step e) := by
  apply Pool.staged_step e hw
  · exact fun call => trigger_stage call w.shared
  · intro t call c op k _ ht
    exact ((hw t call _ ht).next c).2
  · intro t call c op k u other p _ ht hu
    apply grows_safe (hw u other p hu)
    exact exec_grows call c op w.shared ((hw t call _ ht).next c).1

theorem Consistent.owner {s : Store} (h : Consistent accountId s) {run : ReconciliationRunEntity}
    (hrun : run ∈ startedRuns s accountId) {key : LockKey} {lock : BlockingLock}
    (hkey : key.accountId = accountId) (hactive : ActiveLock s key lock) :
    lock.lockedByRunId = run.reconciliationRunId := by
  obtain ⟨owner, howner, hid⟩ := h.owned key lock hkey hactive
  have hsame : owner = run := by
    have hsingle := h.single
    cases hruns : startedRuns s accountId with
    | nil =>
      rw [hruns] at hrun
      cases hrun
    | cons first rest =>
      rw [hruns] at howner hrun hsingle
      have hrest : rest = [] := by
        apply List.eq_nil_of_length_eq_zero
        rw [List.length_cons] at hsingle
        omega
      rw [hrest, List.mem_singleton] at howner hrun
      rw [howner, hrun]
  rw [← hid, hsame]

theorem resolvable_iff (hw : Pool.Staged TriggerStage w) :
    Resolvable accountId w ↔ Consistent accountId w.shared := by
  constructor
  · exact Resolvable.consistent
  · intro h
    refine ⟨h, fun t call run ht haccount lock hactive => ?_⟩
    have hrun : run ∈ startedRuns w.shared accountId := by
      rw [← haccount]
      exact hw t call _ ht w.shared (grows_refl _) run rfl
    obtain ⟨hlock, htime⟩ := hactive
    simp only [Store.releaseLock, Option.filter_eq_some_iff] at hlock
    have howner := h.owner hrun haccount ⟨hlock.1, htime⟩
    simp [howner, TriggerCall.scope, haccount] at hlock

/-- An event keeps the runs of an account resolvable exactly if it stores no second one. -/
theorem resolvable_step_iff (e : TriggerEvent) (hw : Pool.Staged TriggerStage w)
    (h : Resolvable accountId w) :
    Resolvable accountId (w.step e) ↔
      Pool.Allows (fun _ _ => True) (StoresFirst accountId) w e := by
  rw [resolvable_iff (triggers_staged w e hw)]
  cases e with
  | start t call =>
    apply iff_of_true _ fun _ => trivial
    simp only [Triggers.step, Pool.step]
    split
    · exact h.consistent
    · exact h.consistent
  | step t c =>
    simp only [Triggers.step, Pool.step, Pool.Allows]
    split
    · next call op k ht =>
      exact consistent_exec_iff call c op ((hw t call _ ht).next c).1 h.consistent
    · exact iff_of_true h.consistent trivial

end

/-- The runs of an account are resolvable at every moment exactly if they are at first and no
trigger stores a run while the account has an active one. -/
theorem triggers_resolvable_iff (s : Store) (accountId : UUID) (es : List TriggerEvent) :
    Runs.Throughout Triggers.step (Resolvable accountId) (Pool.idle s) es ↔
      Consistent accountId s ∧
        Pool.Meets exec TriggerCall.code (fun _ _ => True) (StoresFirst accountId) (Pool.idle s)
          es := by
  have hidle : Pool.Staged TriggerStage (Pool.idle s : Triggers) := Pool.staged_idle s
  have hiff (h : Consistent accountId s) :=
    Runs.throughout_iff_of_invariant Triggers.step triggers_staged
      (fun w e hw h => resolvable_step_iff e hw h) hidle ((resolvable_iff hidle).mpr h) es
  constructor
  · intro h
    have hconsistent : Consistent accountId s := (resolvable_iff hidle).mp h.start
    exact ⟨hconsistent, (hiff hconsistent).mp h⟩
  · rintro ⟨hconsistent, hmeets⟩
    exact (hiff hconsistent).mpr hmeets

/-- Two triggers of an account that has no run look for one before either has stored its own. -/
def bothLook : List TriggerEvent :=
  let tick := uncertainStream 0
  [.start 0 { accountId := 7, triggerType := "uncertain_result" },
   .start 1 { accountId := 7, triggerType := "requires_reconciliation" },
   .step 0 tick, .step 1 tick] ++ List.replicate 5 (.step 0 tick) ++ List.replicate 5 (.step 1 tick)

/-- Each returns a started run of its own. The lock is the first one's, and releasing the locks of
the second one's run leaves it in place. -/
theorem bothLook_two_runs :
    let w : Triggers :=
      Runs.run Triggers.step (Pool.idle (Store.holding (sampleOrder 1) 0)) bothLook
    Consistent 7 (Store.holding (sampleOrder 1) 0) ∧
      (startedRuns w.shared 7).length = 2 ∧
      (∃ call run lock, w.threads 1 = some (call, .ret run) ∧
        ActiveLock (w.shared.releaseLock 7 none none none (some run.reconciliationRunId))
          call.scope lock) ∧
      ¬ Runs.Throughout Triggers.step (Resolvable 7)
        (Pool.idle (Store.holding (sampleOrder 1) 0)) bothLook := by
  have hruns : (startedRuns (Runs.run Triggers.step
      (Pool.idle (Store.holding (sampleOrder 1) 0)) bothLook).shared 7).length = 2 := by decide
  refine ⟨⟨by decide, ?_⟩, hruns, ?_, ?_⟩
  · rintro key lock - ⟨hlock, -⟩
    cases hlock
  · exact ⟨_, _, _, rfl, rfl, by decide⟩
  · intro h
    have hsingle := h.finish.consistent.single
    rw [hruns] at hsingle
    omega

end AgentTrading.Reconciliation
