import Mathlib.Data.List.Sort
import Mathlib.Logic.Function.Basic
import AgentTrading.Domain.Entities

/-! The in-memory repositories behind the order services, as one store. Three fields
record what no table keeps: `statusWrites` pairs each persisted order row with the row it
replaced, `brokerCalls` lists the orders a broker submission was made for, and
`restOutcomes` what each submission through the REST client returned or raised. -/
namespace AgentTrading.Repositories
open Domain

/-- Scope of a blocking lock; an absent part is stored as absent, not as a wildcard. -/
structure LockKey where
  accountId : UUID
  strategyId : Option UUID
  symbol : Option String
  side : Option String
  deriving DecidableEq

structure BlockingLock where
  reason : String
  lockedByRunId : UUID
  expiresAt : Time
  deriving DecidableEq

structure Store where
  clock : Time
  nextId : UUID
  orders : UUID → Option OrderRequestEntity
  statusWrites : List (OrderRequestEntity × OrderRequestEntity)
  orderStateEvents : List OrderStateEventEntity
  auditLogs : List AuditLogEntity
  brokerOrders : List BrokerOrderEntity
  submissionAttempts : List OrderSubmissionAttemptEntity
  strategies : List StrategyEntity
  runs : List ReconciliationRunEntity
  locks : LockKey → Option BlockingLock
  orderLinks : List ReconciliationOrderLinkEntity
  brokerCalls : List UUID
  restOutcomes : List (Except PyError SubmitOrderResult)

namespace Store

/-- A store that holds one order and nothing else. -/
def holding (order : OrderRequestEntity) (clock : Time) : Store where
  clock := clock
  nextId := order.orderRequestId + 1
  orders := Function.update (fun _ => none) order.orderRequestId (some order)
  statusWrites := []
  orderStateEvents := []
  auditLogs := []
  brokerOrders := []
  submissionAttempts := []
  strategies := []
  runs := []
  locks := fun _ => none
  orderLinks := []
  brokerCalls := []
  restOutcomes := []

/-- The row `update_status` replaces `current` by. -/
def statusRow (now : Time) (current : OrderRequestEntity) (status : OrderStatus)
    (reasonCode reasonMessage : Option String) (expectedVersion : Option Nat)
    (submittedAt : Option Time) : OrderRequestEntity :=
  { current with
    status := status
    statusReasonCode := reasonCode
    statusReasonMessage := reasonMessage
    submittedAt := submittedAt.or
      (if status = .submitted ∧ current.submittedAt = none then some now
       else current.submittedAt)
    version := if expectedVersion.isSome then current.version + 1 else current.version }

def writeOrder (s : Store) (orderRequestId : UUID) (current row : OrderRequestEntity) : Store :=
  { s with
    orders := Function.update s.orders orderRequestId (some row)
    statusWrites := s.statusWrites ++ [(current, row)] }

/-- `InMemoryOrderRepository.update_status`: an atomic compare-and-set on the version. -/
def updateStatus (s : Store) (orderRequestId : UUID) (status : OrderStatus)
    (reasonCode reasonMessage : Option String) (expectedVersion : Option Nat)
    (submittedAt : Option Time) : Except PyError Unit × Store :=
  match s.orders orderRequestId with
  | none => (.error (.keyError orderRequestId), s)
  | some current =>
    match expectedVersion.filter (· ≠ current.version) with
    | some v => (.error (.versionConflict orderRequestId v current.version), s)
    | none => (.ok (), s.writeOrder orderRequestId current
        (statusRow s.clock current status reasonCode reasonMessage expectedVersion submittedAt))

theorem updateStatus_unversioned {s : Store} {id : UUID} {current : OrderRequestEntity}
    (hrow : s.orders id = some current) (status : OrderStatus) (rc rm : Option String)
    (sa : Option Time) : s.updateStatus id status rc rm none sa =
      (.ok (), s.writeOrder id current (statusRow s.clock current status rc rm none sa)) := by
  simp only [updateStatus, hrow, Option.filter_none]

theorem updateStatus_current {s : Store} {id : UUID} {current : OrderRequestEntity} {v : Nat}
    (hrow : s.orders id = some current) (hversion : v = current.version) (status : OrderStatus)
    (rc rm : Option String) (sa : Option Time) : s.updateStatus id status rc rm (some v) sa =
      (.ok (), s.writeOrder id current (statusRow s.clock current status rc rm (some v) sa)) := by
  simp only [updateStatus, hrow, hversion, Option.filter_some, ne_eq, not_true_eq_false,
    decide_false, Bool.false_eq_true, if_false]

theorem updateStatus_behind {s : Store} {id : UUID} {current : OrderRequestEntity} {v : Nat}
    (hrow : s.orders id = some current) (hversion : v ≠ current.version) (status : OrderStatus)
    (rc rm : Option String) (sa : Option Time) : s.updateStatus id status rc rm (some v) sa =
      (.error (.versionConflict id v current.version), s) := by
  simp only [updateStatus, hrow, Option.filter_some, ne_eq, hversion, not_false_eq_true,
    decide_true, if_true]

/-- Everything `update_status` can do: miss the row, find another version, or write. -/
theorem updateStatus_cases (s : Store) (id : UUID) (status : OrderStatus)
    (rc rm : Option String) (ev : Option Nat) (sa : Option Time) :
    (s.orders id = none ∧ s.updateStatus id status rc rm ev sa = (.error (.keyError id), s)) ∨
    (∃ current v, s.orders id = some current ∧ ev = some v ∧ v ≠ current.version ∧
      s.updateStatus id status rc rm ev sa =
        (.error (.versionConflict id v current.version), s)) ∨
    (∃ current, s.orders id = some current ∧ (∀ v, ev = some v → v = current.version) ∧
      s.updateStatus id status rc rm ev sa =
        (.ok (), s.writeOrder id current (statusRow s.clock current status rc rm ev sa))) := by
  cases hrow : s.orders id with
  | none =>
    apply Or.inl
    simp only [updateStatus, hrow, true_and]
  | some current =>
    apply Or.inr
    cases ev with
    | none => exact .inr ⟨current, rfl, nofun, updateStatus_unversioned hrow status rc rm sa⟩
    | some v =>
      by_cases hversion : v = current.version
      · refine .inr ⟨current, rfl, ?_, updateStatus_current hrow hversion status rc rm sa⟩
        intro w hw
        rwa [← Option.some.inj hw]
      · exact .inl ⟨current, v, rfl, rfl, hversion,
          updateStatus_behind hrow hversion status rc rm sa⟩

theorem updateStatus_frame (s : Store) (id : UUID) (status : OrderStatus)
    (rc rm : Option String) (ev : Option Nat) (sa : Option Time) :
    ∃ orders writes, (s.updateStatus id status rc rm ev sa).2 =
      { s with orders := orders, statusWrites := writes } := by
  rcases s.updateStatus_cases id status rc rm ev sa with
    ⟨-, h⟩ | ⟨_, _, -, -, -, h⟩ | ⟨_, -, -, h⟩
  · exact ⟨s.orders, s.statusWrites, by rw [h]⟩
  · exact ⟨s.orders, s.statusWrites, by rw [h]⟩
  · exact ⟨_, _, by rw [h]; rfl⟩

def strategyByCode (s : Store) (clientId : UUID) (strategyCode : String) :
    Option StrategyEntity :=
  s.strategies.find? fun item => item.clientId = clientId ∧ item.strategyCode = strategyCode

def getRun (s : Store) (runId : UUID) : Option ReconciliationRunEntity :=
  s.runs.find? fun run => run.reconciliationRunId = runId

/-- The later of two runs by their start. -/
def newer (best : Option ReconciliationRunEntity) (run : ReconciliationRunEntity) :
    Option ReconciliationRunEntity :=
  match best with
  | none => some run
  | some b => if b.startedAt < run.startedAt then some run else some b

/-- The first run, in a stable descending sort by start, among the account's started
runs. -/
def getActiveRun (s : Store) (accountId : UUID) : Option ReconciliationRunEntity :=
  (s.runs.filter fun run => run.accountId = accountId ∧ run.status = .started).foldl newer none

theorem newer_cases (best : Option ReconciliationRunEntity) (run : ReconciliationRunEntity) :
    newer best run = some run ∨ ∃ b, best = some b ∧ newer best run = some b := by
  unfold newer
  split
  · exact Or.inl rfl
  · next b =>
    split
    · exact Or.inl rfl
    · exact Or.inr ⟨b, rfl, rfl⟩

theorem newest_mem (runs : List ReconciliationRunEntity) (best : Option ReconciliationRunEntity)
    (run : ReconciliationRunEntity) (h : runs.foldl newer best = some run) :
    run ∈ runs ∨ best = some run := by
  induction runs generalizing best with
  | nil => exact Or.inr h
  | cons first rest ih =>
    rcases ih _ h with hrest | hbest
    · exact Or.inl (List.mem_cons_of_mem _ hrest)
    · rcases newer_cases best first with hfirst | ⟨b, hb, hnewer⟩
      · rw [hfirst] at hbest
        obtain rfl := Option.some.inj hbest
        exact Or.inl List.mem_cons_self
      · right
        rw [hb, ← hnewer, hbest]

theorem newest_isSome (runs : List ReconciliationRunEntity)
    (best : Option ReconciliationRunEntity) (h : best.isSome ∨ runs ≠ []) :
    (runs.foldl newer best).isSome := by
  induction runs generalizing best with
  | nil =>
    apply h.resolve_right
    simp
  | cons first rest ih =>
    apply ih
    rcases newer_cases best first with hfirst | ⟨b, -, hnewer⟩
    · exact Or.inl (by rw [hfirst, Option.isSome_some])
    · exact Or.inl (by rw [hnewer, Option.isSome_some])

def addRun (s : Store) (run : ReconciliationRunEntity) : Store :=
  { s with runs := s.runs ++ [run] }

theorem getActiveRun_addRun {s : Store} {run : ReconciliationRunEntity}
    (hnone : s.getActiveRun run.accountId = none) (hstarted : run.status = .started) :
    (s.addRun run).getActiveRun run.accountId = some run := by
  unfold getActiveRun at hnone ⊢
  simp only [addRun, List.filter_append, List.foldl_append, hnone, List.filter_cons, hstarted,
    and_self, decide_true, if_true, List.filter_nil, List.foldl_cons, List.foldl_nil, newer]

theorem getActiveRun_addRun_of_ne {s : Store} {run : ReconciliationRunEntity} {accountId : UUID}
    (hne : run.accountId ≠ accountId) :
    (s.addRun run).getActiveRun accountId = s.getActiveRun accountId := by
  unfold getActiveRun
  simp only [addRun, List.filter_append, List.filter_cons, hne, false_and, decide_false,
    Bool.false_eq_true, if_false, List.filter_nil, List.append_nil]

def updateRunStatus (s : Store) (runId : UUID) (status : RunStatus)
    (completedAt : Option Time) : Store :=
  { s with
    runs := s.runs.map fun run =>
      if run.reconciliationRunId = runId then
        { run with status := status, completedAt := completedAt.or run.completedAt }
      else run }

theorem updateRunStatus_status (s : Store) (runId : UUID) (status : RunStatus)
    (completedAt : Option Time) (run : ReconciliationRunEntity)
    (hmem : run ∈ (s.updateRunStatus runId status completedAt).runs)
    (hid : run.reconciliationRunId = runId) : run.status = status := by
  simp only [updateRunStatus, List.mem_map] at hmem
  obtain ⟨r, -, hr⟩ := hmem
  by_cases h : r.reconciliationRunId = runId
  · rw [if_pos h] at hr
    rw [← hr]
  · rw [if_neg h] at hr
    exact (h (by rw [hr]; exact hid)).elim

/-- The started runs, oldest first; an absent filter is no filter. -/
def listPendingRuns (s : Store) (limit : Nat) (accountId runId : Option UUID) :
    List ReconciliationRunEntity :=
  ((s.runs.filter fun run => run.status = .started ∧ accountId.all (run.accountId = ·) ∧
    runId.all (run.reconciliationRunId = ·)).insertionSort
      fun a b => a.startedAt ≤ b.startedAt).take limit

def getRunOrderLinks (s : Store) (runId : UUID) : List ReconciliationOrderLinkEntity :=
  s.orderLinks.filter fun link => link.reconciliationRunId = runId

/-- The status of the latest of the runs an order is linked to. -/
def getLatestReconciliationStatusByOrder (s : Store) (orderRequestId : UUID) : Option RunStatus :=
  (((s.orderLinks.filter fun link => link.orderRequestId = orderRequestId).filterMap fun link =>
    s.getRun link.reconciliationRunId).foldl newer none).map (·.status)

def setLock (s : Store) (key : LockKey) (lock : Option BlockingLock) : Store :=
  { s with locks := Function.update s.locks key lock }

def acquireLock (s : Store) (key : LockKey) (reason : String) (lockedByRunId : UUID)
    (expiresAt : Time) : Bool × Store :=
  match s.locks key with
  | some existing =>
    if existing.expiresAt ≤ s.clock then
      (true, s.setLock key (some ⟨reason, lockedByRunId, expiresAt⟩))
    else (false, s)
  | none =>
    (true, s.setLock key (some ⟨reason, lockedByRunId, expiresAt⟩))

def releaseLock (s : Store) (accountId : UUID) (strategyId : Option UUID)
    (symbol side : Option String) (lockedByRunId : Option UUID) : Store :=
  match lockedByRunId with
  | some runId =>
    { s with locks := fun key =>
        (s.locks key).filter fun lock =>
          ¬ (key.accountId = accountId ∧ lock.lockedByRunId = runId) }
  | none =>
    if strategyId = none ∧ symbol = none ∧ side = none then
      { s with locks := fun key => if key.accountId = accountId then none else s.locks key }
    else
      s.setLock ⟨accountId, strategyId, symbol, side⟩ none

/-- Reads the lock of exactly this scope and drops it when it has expired. -/
def isLocked (s : Store) (key : LockKey) : Bool × Store :=
  match s.locks key with
  | none => (false, s)
  | some lock =>
    if lock.expiresAt ≤ s.clock then
      (false, s.setLock key none)
    else (true, s)

theorem acquireLock_frame (s : Store) (key : LockKey) (reason : String) (runId : UUID)
    (expiresAt : Time) :
    ∃ locks, (s.acquireLock key reason runId expiresAt).2 = { s with locks := locks } := by
  unfold acquireLock
  split
  · split
    · exact ⟨_, rfl⟩
    · exact ⟨s.locks, rfl⟩
  · exact ⟨_, rfl⟩

theorem releaseLock_frame (s : Store) (accountId : UUID) (strategyId : Option UUID)
    (symbol side : Option String) (runId : Option UUID) :
    ∃ locks, s.releaseLock accountId strategyId symbol side runId = { s with locks := locks } := by
  unfold releaseLock
  split
  · exact ⟨_, rfl⟩
  · split
    · exact ⟨_, rfl⟩
    · exact ⟨_, rfl⟩

theorem isLocked_frame (s : Store) (key : LockKey) :
    ∃ locks, (s.isLocked key).2 = { s with locks := locks } := by
  unfold isLocked
  split
  · exact ⟨s.locks, rfl⟩
  · split
    · exact ⟨_, rfl⟩
    · exact ⟨s.locks, rfl⟩

theorem acquireLock_taken (s : Store) (key : LockKey) (reason : String) (runId : UUID)
    (expiresAt : Time) (other : LockKey) (lock : BlockingLock)
    (hlock : (s.acquireLock key reason runId expiresAt).2.locks other = some lock)
    (hnew : (s.acquireLock key reason runId expiresAt).2.locks other ≠ s.locks other) :
    other = key ∧ lock = ⟨reason, runId, expiresAt⟩ := by
  have hset : (s.acquireLock key reason runId expiresAt).2 = s ∨
      (s.acquireLock key reason runId expiresAt).2 =
        s.setLock key (some ⟨reason, runId, expiresAt⟩) := by
    unfold acquireLock
    split
    · split
      · exact Or.inr rfl
      · exact Or.inl rfl
    · exact Or.inr rfl
  rcases hset with hset | hset
  · rw [hset] at hnew
    exact (hnew rfl).elim
  · rw [hset] at hlock hnew
    by_cases hother : other = key
    · rw [hother] at hlock
      simp only [setLock, Function.update_self, Option.some.injEq] at hlock
      exact ⟨hother, hlock.symm⟩
    · simp only [setLock, Function.update_of_ne hother, ne_eq, not_true_eq_false] at hnew

/-! A lock outlasts the other lock operations until it expires. -/

theorem acquireLock_kept (s : Store) (key key' : LockKey) (reason : String) (runId : UUID)
    (expiresAt : Time) (lock : BlockingLock) (h : s.locks key = some lock) :
    (s.acquireLock key' reason runId expiresAt).2.locks key = some lock ∨
      lock.expiresAt ≤ s.clock := by
  by_cases hkey : key = key'
  · subst hkey
    unfold acquireLock
    rw [h]
    by_cases hexpired : lock.expiresAt ≤ s.clock
    · exact Or.inr hexpired
    · simp only [hexpired, if_false]
      exact Or.inl h
  · refine Or.inl ?_
    unfold acquireLock
    split
    · split
      · simpa only [setLock, Function.update_of_ne hkey] using h
      · exact h
    · simpa only [setLock, Function.update_of_ne hkey] using h

theorem isLocked_kept (s : Store) (key key' : LockKey) (lock : BlockingLock)
    (h : s.locks key = some lock) :
    (s.isLocked key').2.locks key = some lock ∨ lock.expiresAt ≤ s.clock := by
  by_cases hkey : key = key'
  · subst hkey
    unfold isLocked
    rw [h]
    by_cases hexpired : lock.expiresAt ≤ s.clock
    · exact Or.inr hexpired
    · simp only [hexpired, if_false]
      exact Or.inl h
  · refine Or.inl ?_
    unfold isLocked
    split
    · exact h
    · split
      · simpa only [setLock, Function.update_of_ne hkey] using h
      · exact h

theorem releaseLock_locks (s : Store) (accountId : UUID) (strategyId : Option UUID)
    (symbol side : Option String) (runId : Option UUID) (key : LockKey) :
    (s.releaseLock accountId strategyId symbol side runId).locks key = s.locks key ∨
      (s.releaseLock accountId strategyId symbol side runId).locks key = none := by
  unfold releaseLock
  split
  · dsimp only
    cases s.locks key with
    | none => exact Or.inr rfl
    | some lock =>
      simp only [Option.filter_some]
      split
      · exact Or.inl rfl
      · exact Or.inr rfl
  · split
    · simp only
      split
      · exact Or.inr rfl
      · exact Or.inl rfl
    · by_cases h : key = ⟨accountId, strategyId, symbol, side⟩
      · exact Or.inr (by simp only [setLock, h, Function.update_self])
      · exact Or.inl (by simp only [setLock, Function.update_of_ne h])

theorem isLocked_false (s : Store) (key : LockKey) (h : (s.isLocked key).1 = false) :
    (s.isLocked key).2.locks key = none := by
  unfold isLocked at h ⊢
  cases hlock : s.locks key with
  | none => exact hlock
  | some lock =>
    rw [hlock] at h
    by_cases hexpired : lock.expiresAt ≤ s.clock
    · simp only [hexpired, if_true, setLock, Function.update_self]
    · simp only [hexpired, if_false, reduceCtorEq] at h

end Store

end AgentTrading.Repositories
