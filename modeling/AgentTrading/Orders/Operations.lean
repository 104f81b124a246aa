import AgentTrading.Library.Sequential
import AgentTrading.Repositories.Memory

/-! The operations through which the order services reach anything outside their own
variables: clocks, identifiers, repositories and brokers. Between any two of them
another worker may run. -/
namespace AgentTrading.Orders
open Domain Repositories Library

inductive Op where
  | now
  | uuid4
  | sleep
  | ordersGet (orderRequestId : UUID)
  | ordersUpdateStatus (orderRequestId : UUID) (status : OrderStatus)
      (reasonCode reasonMessage : Option String) (expectedVersion : Option Nat)
      (submittedAt : Option Time)
  | orderStateEventsAdd (event : OrderStateEventEntity)
  | auditLogsAdd (entry : AuditLogEntity)
  | brokerOrdersAdd (brokerOrder : BrokerOrderEntity)
  | submissionAttemptsAdd (attempt : OrderSubmissionAttemptEntity)
  | strategiesGetByCode (clientId : UUID) (strategyCode : String)
  | reconciliationsGetRun (runId : UUID)
  | reconciliationsGetActiveRun (accountId : UUID)
  | reconciliationsListPendingRuns (limit : Nat) (accountId runId : Option UUID)
  | reconciliationsGetRunOrderLinks (runId : UUID)
  | reconciliationsAddRun (run : ReconciliationRunEntity)
  | reconciliationsUpdateRunStatus (runId : UUID) (status : RunStatus)
      (completedAt : Option Time)
  | reconciliationsAcquireLock (key : LockKey) (reason : String) (lockedByRunId : UUID)
      (expiresAt : Time)
  | reconciliationsReleaseLock (accountId : UUID) (strategyId : Option UUID)
      (symbol side : Option String) (lockedByRunId : Option UUID)
  | reconciliationsIsLocked (key : LockKey)
  | reconciliationsAttachOrderMismatch (link : ReconciliationOrderLinkEntity)
  | brokerSubmitOrder (orderRequestId : UUID) (request : SubmitOrderRequest)
  | restSubmitOrder (request : SubmitOrderRequest) (heldPositionSell : Bool)

abbrev Reply : Op → Type
  | .now => Time
  | .uuid4 => UUID
  | .sleep => Unit
  | .ordersGet _ => Option OrderRequestEntity
  | .ordersUpdateStatus .. => Except PyError Unit
  | .orderStateEventsAdd _ => Unit
  | .auditLogsAdd _ => Unit
  | .brokerOrdersAdd _ => Unit
  | .submissionAttemptsAdd _ => Unit
  | .strategiesGetByCode .. => Option StrategyEntity
  | .reconciliationsGetRun _ => Option ReconciliationRunEntity
  | .reconciliationsGetActiveRun _ => Option ReconciliationRunEntity
  | .reconciliationsListPendingRuns .. => List ReconciliationRunEntity
  | .reconciliationsGetRunOrderLinks _ => List ReconciliationOrderLinkEntity
  | .reconciliationsAddRun _ => ReconciliationRunEntity
  | .reconciliationsUpdateRunStatus .. => Unit
  | .reconciliationsAcquireLock .. => Bool
  | .reconciliationsReleaseLock .. => Unit
  | .reconciliationsIsLocked _ => Bool
  | .reconciliationsAttachOrderMismatch _ => Unit
  | .brokerSubmitOrder .. => Except PyError SubmitOrderResult
  | .restSubmitOrder .. => Except PyError SubmitOrderResult

abbrev Code (α : Type) := Program Op Reply PyError α

/-- What the world outside decides at one operation: the time that has passed and the
replies of the broker and, for either lane, of its REST client. -/
structure Choice where
  elapsed : Nat
  broker : Except PyError SubmitOrderResult
  rest : Bool → Except PyError SubmitOrderResult

def tick (c : Choice) (s : Store) : Store := { s with clock := s.clock + c.elapsed }

/-- One operation on a store whose clock has already advanced. -/
def respond (c : Choice) (op : Op) (s : Store) : Reply op × Store :=
  match op with
  | .now => (s.clock, s)
  | .uuid4 => (s.nextId, { s with nextId := s.nextId + 1 })
  | .sleep => ((), s)
  | .ordersGet id => (s.orders id, s)
  | .ordersUpdateStatus id status rc rm ev sa => s.updateStatus id status rc rm ev sa
  | .orderStateEventsAdd event =>
    ((), { s with orderStateEvents := s.orderStateEvents ++ [event] })
  | .auditLogsAdd entry => ((), { s with auditLogs := s.auditLogs ++ [entry] })
  | .brokerOrdersAdd item => ((), { s with brokerOrders := s.brokerOrders ++ [item] })
  | .submissionAttemptsAdd attempt =>
    ((), { s with submissionAttempts := s.submissionAttempts ++ [attempt] })
  | .strategiesGetByCode clientId code => (s.strategyByCode clientId code, s)
  | .reconciliationsGetRun runId => (s.getRun runId, s)
  | .reconciliationsGetActiveRun accountId => (s.getActiveRun accountId, s)
  | .reconciliationsListPendingRuns limit accountId runId =>
    (s.listPendingRuns limit accountId runId, s)
  | .reconciliationsGetRunOrderLinks runId => (s.getRunOrderLinks runId, s)
  | .reconciliationsAddRun run => (run, s.addRun run)
  | .reconciliationsUpdateRunStatus runId status completedAt =>
    ((), s.updateRunStatus runId status completedAt)
  | .reconciliationsAcquireLock key reason runId expiresAt =>
    s.acquireLock key reason runId expiresAt
  | .reconciliationsReleaseLock accountId strategyId symbol side runId =>
    ((), s.releaseLock accountId strategyId symbol side runId)
  | .reconciliationsIsLocked key => s.isLocked key
  | .reconciliationsAttachOrderMismatch link =>
    ((), { s with orderLinks := s.orderLinks ++ [link] })
  | .brokerSubmitOrder id _ => (c.broker, { s with brokerCalls := s.brokerCalls ++ [id] })
  | .restSubmitOrder _ lane =>
    (c.rest lane, { s with restOutcomes := s.restOutcomes ++ [c.rest lane] })

def exec (c : Choice) (op : Op) (s : Store) : Reply op × Store := respond c op (tick c s)

theorem exec_clock (c : Choice) (op : Op) (s : Store) :
    (exec c op s).2.clock = s.clock + c.elapsed := by
  cases op <;> first | rfl | skip
  case ordersUpdateStatus id status rc rm expected submittedAt =>
    obtain ⟨orders, writes, h⟩ :=
      (tick c s).updateStatus_frame id status rc rm expected submittedAt
    simp only [exec, respond, h]
    rfl
  case reconciliationsAcquireLock key reason runId expiresAt =>
    obtain ⟨locks, h⟩ := (tick c s).acquireLock_frame key reason runId expiresAt
    simp only [exec, respond, h]
    rfl
  case reconciliationsReleaseLock accountId strategyId symbol side runId =>
    obtain ⟨locks, h⟩ := (tick c s).releaseLock_frame accountId strategyId symbol side runId
    simp only [exec, respond, h]
    rfl
  case reconciliationsIsLocked key =>
    obtain ⟨locks, h⟩ := (tick c s).isLocked_frame key
    simp only [exec, respond, h]
    rfl

/-- Reading the clock, drawing identifiers and appending to the logs of orders. -/
def Op.Recording : Op → Prop
  | .now => True
  | .uuid4 => True
  | .sleep => True
  | .orderStateEventsAdd _ => True
  | .auditLogsAdd _ => True
  | .submissionAttemptsAdd _ => True
  | _ => False

/-- Recording apart from the log of order states. -/
def Op.Noting : Op → Prop
  | .orderStateEventsAdd _ => False
  | op => op.Recording

/-- Operations that leave the orders, the broker orders and the broker alone. -/
def Op.Bookkeeping : Op → Prop
  | .now => True
  | .uuid4 => True
  | .sleep => True
  | .orderStateEventsAdd _ => True
  | .auditLogsAdd _ => True
  | .submissionAttemptsAdd _ => True
  | .strategiesGetByCode .. => True
  | .reconciliationsGetRun _ => True
  | .reconciliationsGetActiveRun _ => True
  | .reconciliationsAddRun _ => True
  | .reconciliationsAcquireLock .. => True
  | .reconciliationsIsLocked _ => True
  | .reconciliationsAttachOrderMismatch _ => True
  | _ => False

/-- Bookkeeping apart from the log of order states. -/
def Op.Aside : Op → Prop
  | .orderStateEventsAdd _ => False
  | op => op.Bookkeeping

theorem Op.Recording.bookkeeping {op : Op} (h : op.Recording) : op.Bookkeeping := by
  cases op <;> trivial

theorem Op.Noting.recording {op : Op} (h : op.Noting) : op.Recording := by
  cases op <;> trivial

theorem Op.Noting.aside {op : Op} (h : op.Noting) : op.Aside := by
  cases op <;> trivial

theorem Op.Aside.bookkeeping {op : Op} (h : op.Aside) : op.Bookkeeping := by
  cases op <;> trivial

/-- The tables bookkeeping does not touch. -/
structure SameOrders (s t : Store) : Prop where
  orders : t.orders = s.orders
  statusWrites : t.statusWrites = s.statusWrites
  brokerOrders : t.brokerOrders = s.brokerOrders
  brokerCalls : t.brokerCalls = s.brokerCalls
  strategies : t.strategies = s.strategies
  restOutcomes : t.restOutcomes = s.restOutcomes

theorem SameOrders.refl (s : Store) : SameOrders s s := ⟨rfl, rfl, rfl, rfl, rfl, rfl⟩

theorem SameOrders.trans (a b c : Store) (h₁ : SameOrders a b) (h₂ : SameOrders b c) :
    SameOrders a c :=
  ⟨h₂.orders.trans h₁.orders, h₂.statusWrites.trans h₁.statusWrites,
    h₂.brokerOrders.trans h₁.brokerOrders, h₂.brokerCalls.trans h₁.brokerCalls,
    h₂.strategies.trans h₁.strategies, h₂.restOutcomes.trans h₁.restOutcomes⟩

/-- Each table is written by one operation only. -/
structure Writes (op : Op) (s t : Store) : Prop where
  orders : (∀ id status rc rm expected submittedAt,
    op ≠ .ordersUpdateStatus id status rc rm expected submittedAt) →
    t.orders = s.orders ∧ t.statusWrites = s.statusWrites
  brokerOrders : (∀ item, op ≠ .brokerOrdersAdd item) → t.brokerOrders = s.brokerOrders
  brokerCalls : (∀ id request, op ≠ .brokerSubmitOrder id request) → t.brokerCalls = s.brokerCalls
  strategies : t.strategies = s.strategies
  restOutcomes : (∀ request lane, op ≠ .restSubmitOrder request lane) →
    t.restOutcomes = s.restOutcomes

private theorem Writes.of_locks {op : Op} {s t : Store} {clock : Time}
    {locks : LockKey → Option BlockingLock} (h : t = { s with clock := clock, locks := locks }) :
    Writes op s t := by
  subst h
  exact ⟨fun _ => ⟨rfl, rfl⟩, fun _ => rfl, fun _ => rfl, rfl, fun _ => rfl⟩

theorem exec_writes (c : Choice) (op : Op) (s : Store) : Writes op s (exec c op s).2 := by
  cases op
  case ordersUpdateStatus id status rc rm expected submittedAt =>
    obtain ⟨orders, writes, h⟩ :=
      (tick c s).updateStatus_frame id status rc rm expected submittedAt
    simp only [exec, respond, h]
    exact ⟨fun hne => (hne _ _ _ _ _ _ rfl).elim, fun _ => rfl, fun _ => rfl, rfl, fun _ => rfl⟩
  case brokerOrdersAdd item =>
    exact ⟨fun _ => ⟨rfl, rfl⟩, fun hne => (hne _ rfl).elim, fun _ => rfl, rfl, fun _ => rfl⟩
  case brokerSubmitOrder id request =>
    exact ⟨fun _ => ⟨rfl, rfl⟩, fun _ => rfl, fun hne => (hne _ _ rfl).elim, rfl, fun _ => rfl⟩
  case restSubmitOrder request lane =>
    exact ⟨fun _ => ⟨rfl, rfl⟩, fun _ => rfl, fun _ => rfl, rfl, fun hne => (hne _ _ rfl).elim⟩
  case reconciliationsAcquireLock key reason runId expiresAt =>
    obtain ⟨locks, h⟩ := (tick c s).acquireLock_frame key reason runId expiresAt
    exact Writes.of_locks h
  case reconciliationsReleaseLock accountId strategyId symbol side runId =>
    obtain ⟨locks, h⟩ := (tick c s).releaseLock_frame accountId strategyId symbol side runId
    exact Writes.of_locks h
  case reconciliationsIsLocked key =>
    obtain ⟨locks, h⟩ := (tick c s).isLocked_frame key
    exact Writes.of_locks h
  all_goals exact ⟨fun _ => ⟨rfl, rfl⟩, fun _ => rfl, fun _ => rfl, rfl, fun _ => rfl⟩

/-- What an operation does to the row of one order: nothing, or it writes a status over it. -/
theorem exec_order (c : Choice) (op : Op) (s : Store) (id : UUID) :
    (exec c op s).2.orders id = s.orders id ∨
      ∃ status rc rm expected submittedAt current,
        op = .ordersUpdateStatus id status rc rm expected submittedAt ∧
        s.orders id = some current ∧
        (exec c op s).2.orders id =
          some (Store.statusRow (tick c s).clock current status rc rm expected submittedAt) := by
  by_cases hwrite : ∃ written status rc rm expected submittedAt,
      op = .ordersUpdateStatus written status rc rm expected submittedAt
  · obtain ⟨written, status, rc, rm, expected, submittedAt, rfl⟩ := hwrite
    simp only [exec, respond]
    rcases (tick c s).updateStatus_cases written status rc rm expected submittedAt with
      ⟨-, heq⟩ | ⟨current, v, -, -, -, heq⟩ | ⟨current, hcurrent, -, heq⟩
    · left
      rw [heq]
      rfl
    · left
      rw [heq]
      rfl
    · rw [heq]
      by_cases hid : id = written
      · subst hid
        right
        exact ⟨status, rc, rm, expected, submittedAt, current, rfl, hcurrent,
          Function.update_self ..⟩
      · left
        exact Function.update_of_ne hid ..
  · left
    have horders := (exec_writes c op s).orders fun written status rc rm expected submittedAt heq =>
      hwrite ⟨written, status, rc, rm, expected, submittedAt, heq⟩
    exact congrFun horders.1 id

theorem exec_sameOrders (c : Choice) (op : Op) (s : Store) (h : op.Bookkeeping) :
    SameOrders s (exec c op s).2 := by
  have hw := exec_writes c op s
  have horders := hw.orders (by rintro _ _ _ _ _ _ rfl; exact h)
  exact ⟨horders.1, horders.2, hw.brokerOrders (by rintro _ rfl; exact h),
    hw.brokerCalls (by rintro _ _ rfl; exact h), hw.strategies,
    hw.restOutcomes (by rintro _ _ rfl; exact h)⟩

/-- Operations that leave the reconciliation runs and the locks alone. -/
def Op.Quiet : Op → Prop
  | .reconciliationsAddRun _ => False
  | .reconciliationsUpdateRunStatus .. => False
  | .reconciliationsAcquireLock .. => False
  | .reconciliationsReleaseLock .. => False
  | .reconciliationsIsLocked _ => False
  | _ => True

structure SameRuns (s t : Store) : Prop where
  runs : t.runs = s.runs
  locks : t.locks = s.locks

theorem SameRuns.refl (s : Store) : SameRuns s s := ⟨rfl, rfl⟩

theorem SameRuns.trans (a b c : Store) (h₁ : SameRuns a b) (h₂ : SameRuns b c) : SameRuns a c :=
  ⟨h₂.runs.trans h₁.runs, h₂.locks.trans h₁.locks⟩

theorem exec_sameRuns (c : Choice) (op : Op) (s : Store) (h : op.Quiet) :
    SameRuns s (exec c op s).2 := by
  cases op <;> first | exact ⟨rfl, rfl⟩ | exact h.elim | skip
  case ordersUpdateStatus id status rc rm expected submittedAt =>
    obtain ⟨orders, writes, h⟩ :=
      (tick c s).updateStatus_frame id status rc rm expected submittedAt
    simp only [exec, respond, h]
    exact ⟨rfl, rfl⟩

abbrev await (op : Op) : Code (Reply op) := Program.perform op

/-- An outcome that is raised when it is an exception. -/
def orRaise : Except PyError α → Code α
  | .ok a => .ret a
  | .error e => .raise e

variable {may good : Choice → Op → Store → Prop}

theorem alone_bookkeeping {Q : Except PyError α → Prop} {p : Code α} {s : Store}
    (hp : p.Only Op.Bookkeeping Q) (hgood : ∀ c op t, op.Bookkeeping → good c op t) :
    Program.Alone exec may good (fun r t => Q r ∧ SameOrders s t) p s :=
  Program.alone_only SameOrders.refl SameOrders.trans (fun c op s h => exec_sameOrders c op s h)
    hp fun c op t hop _ => hgood c op t hop

theorem alone_bookkeeping_bind {Q : Except PyError α → Prop}
    {post : Except PyError β → Store → Prop} {p : Code α} {f : α → Code β} {s : Store}
    (hp : p.Only Op.Bookkeeping Q) (hgood : ∀ c op t, op.Bookkeeping → good c op t)
    (hf : ∀ a t, Q (.ok a) → SameOrders s t → Program.Alone exec may good post (f a) t)
    (he : ∀ e t, Q (.error e) → SameOrders s t → post (.error e) t) :
    Program.Alone exec may good post (p.bind f) s :=
  Program.Alone.bind (alone_bookkeeping hp hgood) (fun a t h => hf a t h.1 h.2)
    fun e t h => he e t h.1 h.2

theorem alone_quiet {Q : Except PyError α → Prop} {p : Code α} {s : Store}
    (hp : p.Only Op.Quiet Q) :
    Program.Alone exec may (fun _ _ _ => True) (fun r t => Q r ∧ SameRuns s t) p s :=
  Program.alone_only SameRuns.refl SameRuns.trans (fun c op s h => exec_sameRuns c op s h)
    hp fun _ _ _ _ _ => trivial

end AgentTrading.Orders
