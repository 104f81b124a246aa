import AgentTrading.Orders.StateMachine
import AgentTrading.Reconciliation.Service

/-! The order manager: status transitions under optimistic locking, and the submission
of an order to a broker. -/
namespace AgentTrading.Orders
open Domain Repositories Library

/-- Keyword arguments of a transition with the defaults of the source. -/
structure TransitionArgs where
  reasonCode : Option String := none
  reasonMessage : Option String := none
  actorType : String := "system"
  actorId : String := "order_manager"
  eventSource : EventSource := .internal
  maxRetries : Nat := 3
  markSubmittedAt : Bool := false

def replaceStatus (order : OrderRequestEntity) (newStatus : OrderStatus)
    (reasonCode reasonMessage : Option String) (submittedAt : Option Time) :
    Code OrderRequestEntity := do
  let resolved ← resolveSubmittedAt (submittedAt.or order.submittedAt)
  let now ← await .now
  return { order with
    status := newStatus
    statusReasonCode := reasonCode
    statusReasonMessage := reasonMessage
    submittedAt := resolved
    updatedAt := some now }
where
  resolveSubmittedAt : Option Time → Code (Option Time)
    | some t => return some t
    | none =>
      if newStatus = .submitted then do
        let now ← await .now
        return some now
      else return none

/-- The message of a retry that finds the order finished by another worker. -/
def terminalConflict (order : OrderRequestEntity) (target latest : OrderStatus) : PyError :=
  .invalidStateTransition order.orderRequestId target latest
    (some ("Cannot transition to " ++ target.value ++ ": order is already in terminal state " ++
      latest.value))

/-- After a version conflict: the entity to write is rebuilt from the stored row, whose
status is looked at only for being terminal. -/
def refetch (order : OrderRequestEntity) (target : OrderStatus) (args : TransitionArgs)
    (submittedAt : Option Time) (id : UUID) (lastAttempt : Bool) : Code OrderRequestEntity := do
  let latest ← await (.ordersGet id)
  match latest with
  | none => .raise (.valueError ("Order not found: " ++ UUID.text id))
  | some latest =>
    if latest.status ∈ terminalStates then
      .raise (terminalConflict order target latest.status)
    else
      let rebuilt ← replaceStatus latest target args.reasonCode args.reasonMessage
        (submittedAt.or latest.submittedAt)
      pause lastAttempt
      return rebuilt
where
  pause : Bool → Code Unit
    | true => return ()
    | false => await .sleep

/-- The retry loop of `_transition_to_core` with `remaining` attempts to go; `after` is the
entity to write and `lastExc` the conflict of the attempt before. -/
def retryUpdate (order : OrderRequestEntity) (target : OrderStatus) (args : TransitionArgs)
    (submittedAt : Option Time) :
    Nat → OrderRequestEntity → Option PyError → Code OrderRequestEntity
  | 0, after, lastExc =>
    match lastExc with
    | none => return after
    | some e => .raise e
  | remaining + 1, after, _ => do
    let outcome ← await (.ordersUpdateStatus after.orderRequestId after.status
      args.reasonCode args.reasonMessage (some after.version) submittedAt)
    match outcome with
    | .ok () => return after
    | .error (.versionConflict id expected actual) =>
      let rebuilt ← refetch order target args submittedAt after.orderRequestId (remaining == 0)
      retryUpdate order target args submittedAt remaining rebuilt
        (some (.versionConflict id expected actual))
    | .error e => .raise e

def recordOrderStateEvent (before after : OrderRequestEntity) (eventSource : EventSource) :
    Code Unit := do
  let id ← await .uuid4
  let eventTimestamp ← await .now
  let ingestedAt ← await .now
  await (.orderStateEventsAdd
    { orderStateEventId := id
      orderRequestId := after.orderRequestId
      previousStatus := some before.status
      newStatus := after.status
      eventSource := eventSource
      eventTimestamp := eventTimestamp
      ingestedAt := ingestedAt
      reasonCode := after.statusReasonCode
      correlationId := some after.correlationId })

def recordStatusChange (before after : OrderRequestEntity) (actorType actorId : String) :
    Code Unit := do
  let id ← await .uuid4
  let now ← await .now
  await (.auditLogsAdd
    { auditLogId := id
      actorType := actorType
      actorId := actorId
      action := "order.status_change"
      targetEntityType := "order_request"
      targetEntityId := UUID.text after.orderRequestId
      createdAt := now
      before := before
      after := after
      correlationId := some after.correlationId
      fromStatus := before.status.value
      toStatus := after.status.value })

/-- An order that needs reconciliation starts a run linked to it, unless a lock blocked it;
a failure is logged and does not undo the transition. -/
def autoTrigger (service : Bool) (after : OrderRequestEntity) (target : OrderStatus)
    (args : TransitionArgs) : Code Unit :=
  if target = .reconcileRequired ∧ args.reasonCode ≠ some "BLOCKED" ∧ service then
    let linked : Code Unit := do
      let _ ← Reconciliation.triggerAndLink after.accountId "requires_reconciliation" none none
        (some after.side.value) (some after.orderRequestId)
      return ()
    linked.handle fun _ => return ()
  else return ()

/-- What follows a status write. -/
def recordTransition (service : Bool) (before after : OrderRequestEntity)
    (target : OrderStatus) (args : TransitionArgs) : Code Unit := do
  recordOrderStateEvent before after args.eventSource
  recordStatusChange before after args.actorType args.actorId
  autoTrigger service after target args

/-- `OrderManager._transition_to_core`; `service` says whether a reconciliation service is
configured. -/
def transitionToCore (service : Bool) (order : OrderRequestEntity) (target : OrderStatus)
    (args : TransitionArgs) : Code OrderRequestEntity := do
  let submittedAt ← stamp (args.markSubmittedAt && order.submittedAt.isNone)
  let after ← replaceStatus order target args.reasonCode args.reasonMessage submittedAt
  let written ← retryUpdate order target args submittedAt args.maxRetries after none
  recordTransition service order written target args
  return written
where
  stamp : Bool → Code (Option Time)
    | true => do
      let now ← await .now
      return some now
    | false => return none

def transitionTo (service : Bool) (order : OrderRequestEntity) (target : OrderStatus)
    (args : TransitionArgs) : Code OrderRequestEntity := do
  orRaise (validateTransition order.orderRequestId order.status target)
  transitionToCore service order target { args with eventSource := .internal }

def transitionToAuthoritative (service : Bool) (order : OrderRequestEntity)
    (target : OrderStatus) (reconciliationRunId : UUID) (reasonMessage : Option String)
    (maxRetries : Nat) : Code OrderRequestEntity := do
  orRaise (validateAuthoritativeTarget target)
  if order.status ∈ terminalStates then
    .raise (.invalidStateTransition order.orderRequestId order.status target
      (some ("Cannot transition from terminal state " ++ order.status.value)))
  else
    transitionToCore service order target
      { reasonCode := some "RECONCILE_RESOLVED"
        reasonMessage := some (orText reasonMessage
          ("Reconciliation authoritative reflection: run_id=" ++ UUID.text reconciliationRunId ++
            ", broker returned " ++ target.value))
        actorType := "system"
        actorId := "reconciliation_service"
        maxRetries := maxRetries }

/-- The first of the pending runs that the order is linked to is marked resolved. -/
def resolveLinkedRun (orderRequestId : UUID) : List ReconciliationRunEntity → Code Unit
  | [] => return ()
  | run :: rest => do
    let links ← await (.reconciliationsGetRunOrderLinks run.reconciliationRunId)
    if links.any fun link => link.orderRequestId = orderRequestId then
      Reconciliation.markResolved run.reconciliationRunId
    else resolveLinkedRun orderRequestId rest

/-- What follows a manual resolution; a failure is logged and the status stays. -/
def reconcileResolved (service : Bool) (after : OrderRequestEntity) : Code Unit :=
  if service then
    let followUp : Code Unit := do
      let pending ← await (.reconciliationsListPendingRuns 10 (some after.accountId) none)
      resolveLinkedRun after.orderRequestId pending
    followUp.handle fun _ => return ()
  else return ()

/-- `OrderManager.manual_resolve`; of the evidence only its presence is looked at. -/
def manualResolve (service : Bool) (order : OrderRequestEntity) (target : OrderStatus)
    (evidence : List (String × String)) (reasonCode : String := "MANUAL_RESOLVE")
    (reasonMessage : Option String := none) (operator : String := "unknown") :
    Code OrderRequestEntity :=
  if order.status ≠ .reconcileRequired then
    .raise (.invalidStateTransition order.orderRequestId order.status target
      (some ("Manual resolve v1 supports RECONCILE_REQUIRED only, got " ++ order.status.value)))
  else if target ∉ manualResolveTargets then
    .raise (.valueError (target.value ++ " is not a valid manual resolve target. Allowed: " ++
      String.intercalate ", " (manualResolveTargets.map (·.value))))
  else if evidence = [] then .raise (.valueError "evidence is required for manual resolve")
  else do
    let after ← transitionToCore service order target
      { reasonCode := some reasonCode
        reasonMessage := reasonMessage
        actorType := "operator"
        actorId := operator
        eventSource := .operator }
    reconcileResolved service after
    return after

def recordSubmissionAttempt (attempt : UUID → Time → OrderSubmissionAttemptEntity) :
    Code Unit := do
  let id ← await .uuid4
  let now ← await .now
  await (.submissionAttemptsAdd (attempt id now))

/-- The error types that leave it open whether the broker has the order. -/
def needsReconciliation (e : BrokerError) : Bool :=
  e.requiresReconciliation ||
    e.errorType ∈ [.apiError, .network, .networkError, .timeout, .temporaryBroker]

/-- The strategy a request resolves to; a failing lookup counts as none. -/
def resolveStrategy (request : SubmitOrderRequest) : Code (Option UUID) :=
  let lookup : Code (Option UUID) := do
    let strategy ← await (.strategiesGetByCode 0 request.strategyId)
    return strategy.map (·.strategyId)
  lookup.handle fun _ => return none

/-- The run is started only where a reconciliation service is configured. -/
def triggerFor (service : Bool) (order : OrderRequestEntity) (request : SubmitOrderRequest)
    (triggerType : String) : Code Unit :=
  if service then do
    let _ ← Reconciliation.trigger order.accountId triggerType none (some request.symbol)
      (some request.side.value)
    return ()
  else return ()

/-- `except BrokerError`. -/
def onBrokerError (service : Bool) (order : OrderRequestEntity) (request : SubmitOrderRequest)
    (actorType actorId : String) (e : BrokerError) : Code OrderRequestEntity := do
  recordSubmissionAttempt fun id now =>
    { attemptId := id
      orderRequestId := order.orderRequestId
      attemptNumber := 1
      submittedAt := now
      accepted := false
      brokerName := some e.brokerName.value
      rawCode := e.rawCode
      rawMessage := e.rawMessage
      errorType := some e.className
      retryable := some e.retryable }
  let args : TransitionArgs :=
    { reasonCode := some (orText e.rawCode (upper e.errorType.value))
      reasonMessage := some (orText e.rawMessage e.text)
      actorType := actorType
      actorId := actorId
      markSubmittedAt := true }
  if needsReconciliation e then
    triggerFor service order request "broker_submit_exception"
    transitionTo service order .reconcileRequired args
  else
    transitionTo service order .rejected args

/-- `except Exception`: the attempt is recorded and the exception goes on. -/
def onException (order : OrderRequestEntity) (brokerClass : String) (e : PyError) :
    Code OrderRequestEntity := do
  recordSubmissionAttempt fun id now =>
    { attemptId := id
      orderRequestId := order.orderRequestId
      attemptNumber := 1
      submittedAt := now
      accepted := false
      brokerName := some brokerClass
      errorType := some e.className }
  .raise e

def uncertainMessage (result : SubmitOrderResult) : String :=
  "Broker returned uncertain=" ++ flag result.uncertain ++ ", requires_reconciliation=" ++
    flag result.requiresReconciliation
where
  flag : Bool → String
    | true => "True"
    | false => "False"

def onUncertain (service : Bool) (order : OrderRequestEntity) (request : SubmitOrderRequest)
    (actorType actorId : String) (result : SubmitOrderResult) : Code OrderRequestEntity := do
  triggerFor service order request
    (if result.uncertain then "uncertain_result" else "requires_reconciliation")
  recordSubmissionAttempt fun id now =>
    { attemptId := id
      orderRequestId := order.orderRequestId
      attemptNumber := 1
      submittedAt := now
      accepted := result.accepted
      brokerName := some result.brokerName.value
      brokerNativeOrderId := result.brokerOrderId
      rawCode := result.rawCode
      rawMessage := result.rawMessage }
  transitionTo service order .reconcileRequired
    { reasonCode := some (orText result.rawCode "UNCERTAIN")
      reasonMessage := some (orText result.rawMessage (uncertainMessage result))
      actorType := actorType
      actorId := actorId
      markSubmittedAt := true }

def onAccepted (service : Bool) (order : OrderRequestEntity) (actorType actorId : String)
    (result : SubmitOrderResult) : Code OrderRequestEntity := do
  let now ← await .now
  let id ← await .uuid4
  await (.brokerOrdersAdd
    { brokerOrderId := id
      orderRequestId := order.orderRequestId
      brokerName := result.brokerName.value
      brokerStatus := result.brokerStatus.value
      brokerNativeOrderId := result.brokerOrderId
      createdAt := some now
      updatedAt := some now
      lastSyncedAt := some now })
  recordSubmissionAttempt fun id now =>
    { attemptId := id
      orderRequestId := order.orderRequestId
      attemptNumber := 1
      submittedAt := now
      accepted := true
      brokerName := some result.brokerName.value
      brokerNativeOrderId := result.brokerOrderId
      brokerStatus := some result.brokerStatus.value
      rawCode := result.rawCode
      rawMessage := result.rawMessage }
  transitionTo service order .submitted
    { reasonCode := result.rawCode
      reasonMessage := result.rawMessage
      actorType := actorType
      actorId := actorId
      markSubmittedAt := true }

def onRejected (service : Bool) (order : OrderRequestEntity) (actorType actorId : String)
    (result : SubmitOrderResult) : Code OrderRequestEntity := do
  recordSubmissionAttempt fun id now =>
    { attemptId := id
      orderRequestId := order.orderRequestId
      attemptNumber := 1
      submittedAt := now
      accepted := false
      brokerName := some result.brokerName.value
      rawCode := result.rawCode
      rawMessage := result.rawMessage }
  transitionTo service order .rejected
    { reasonCode := some (orText result.rawCode "REJECTED")
      reasonMessage := some (orText result.rawMessage "Broker rejected the order")
      actorType := actorType
      actorId := actorId
      markSubmittedAt := true }

/-- The outcomes of a submission the broker answered. -/
def handleResult (service : Bool) (order : OrderRequestEntity) (request : SubmitOrderRequest)
    (actorType actorId : String) (result : SubmitOrderResult) : Code OrderRequestEntity :=
  if result.uncertain || result.requiresReconciliation then
    onUncertain service order request actorType actorId result
  else if result.accepted then onAccepted service order actorType actorId result
  else onRejected service order actorType actorId result

/-- A broker adapter: its class name and its `submit_order`. -/
structure Broker where
  className : String
  submitOrder : SubmitOrderRequest → Code SubmitOrderResult

/-- A broker of which nothing is known but that it was called for this order. -/
def remoteBroker (orderRequestId : UUID) : Broker where
  className := "BrokerAdapter"
  submitOrder request := do
    let outcome ← await (.brokerSubmitOrder orderRequestId request)
    orRaise outcome

/-- The end of a submission, by what the broker returned or raised. -/
def settleOutcome (service : Bool) (order : OrderRequestEntity) (brokerClass : String)
    (request : SubmitOrderRequest) (actorType actorId : String) :
    Except PyError SubmitOrderResult → Code OrderRequestEntity
  | .ok result => handleResult service order request actorType actorId result
  | .error (.broker e) => onBrokerError service order request actorType actorId e
  | .error e => onException order brokerClass e

/-- Steps 2 and 3 of `submit_order_to_broker`. -/
def submitUnblocked (service : Bool) (order : OrderRequestEntity) (broker : Broker)
    (request : SubmitOrderRequest) (actorType actorId : String) : Code OrderRequestEntity := do
  let outcome ← attempt (broker.submitOrder request)
  settleOutcome service order broker.className request actorType actorId outcome
where
  attempt (p : Code SubmitOrderResult) : Code (Except PyError SubmitOrderResult) :=
    (p.bind fun r => .ret (.ok r)).handle fun e => .ret (.error e)

theorem submitUnblocked_remoteBroker (service : Bool) (order : OrderRequestEntity) (id : UUID)
    (request : SubmitOrderRequest) (actorType actorId : String) :
    submitUnblocked service order (remoteBroker id) request actorType actorId =
      .call (.brokerSubmitOrder id request)
        (settleOutcome service order "BrokerAdapter" request actorType actorId) := by
  have hattempt : submitUnblocked.attempt ((remoteBroker id).submitOrder request) =
      .call (.brokerSubmitOrder id request) .ret := by
    refine congrArg (Program.call _) (funext fun outcome => ?_)
    cases outcome <;> rfl
  unfold submitUnblocked
  rw [hattempt]
  rfl

def blockedMessage (order : OrderRequestEntity) : String :=
  "Order blocked by active reconciliation lock for account=" ++ UUID.text order.accountId

def submitOrderToBroker (service : Bool) (order : OrderRequestEntity) (broker : Broker)
    (request : SubmitOrderRequest) (actorType : String := "system")
    (actorId : String := "order_manager") : Code OrderRequestEntity := do
  if service then
    let strategyId ← resolveStrategy request
    let blocked ← Reconciliation.isBlocked
      ⟨order.accountId, strategyId, some request.symbol, some request.side.value⟩
    if blocked then
      transitionTo service order .reconcileRequired
        { reasonCode := some "BLOCKED"
          reasonMessage := some (blockedMessage order)
          actorType := actorType
          actorId := actorId }
    else submitUnblocked service order broker request actorType actorId
  else submitUnblocked service order broker request actorType actorId

/-! Which operations the parts of a transition perform. -/

theorem replaceStatus_only (order : OrderRequestEntity) (newStatus : OrderStatus)
    (rc rm : Option String) (submittedAt : Option Time) :
    (replaceStatus order newStatus rc rm submittedAt).Only Op.Noting fun r =>
      ∃ sa ua, r = .ok { order with
        status := newStatus, statusReasonCode := rc, statusReasonMessage := rm,
        submittedAt := sa, updatedAt := ua } := by
  unfold replaceStatus
  cases submittedAt.or order.submittedAt with
  | some t => exact ⟨trivial, fun now => ⟨some t, some now, rfl⟩⟩
  | none =>
    by_cases h : newStatus = .submitted
    · simp only [replaceStatus.resolveSubmittedAt, h, if_true]
      exact ⟨trivial, fun t => ⟨trivial, fun now => ⟨some t, some now, rfl⟩⟩⟩
    · simp only [replaceStatus.resolveSubmittedAt, h, if_false]
      exact ⟨trivial, fun now => ⟨none, some now, rfl⟩⟩

theorem pause_only (lastAttempt : Bool) :
    (refetch.pause lastAttempt).Only Op.Noting (· = .ok ()) := by
  cases lastAttempt with
  | true => rfl
  | false => exact ⟨trivial, fun _ => rfl⟩

theorem trigger_only (accountId : UUID) (triggerType : String) (strategyId : Option UUID)
    (symbol side : Option String) :
    (Reconciliation.trigger accountId triggerType strategyId symbol side).Only Op.Aside
      fun r => ∃ run, r = .ok run := by
  refine ⟨trivial, fun active => ?_⟩
  cases active with
  | some run => exact ⟨run, rfl⟩
  | none =>
    exact ⟨trivial, fun _ => ⟨trivial, fun _ => ⟨trivial, fun created => ⟨trivial, fun _ =>
      ⟨trivial, fun _ => ⟨created, rfl⟩⟩⟩⟩⟩⟩

theorem triggerAndLink_only (accountId : UUID) (triggerType : String)
    (strategyId : Option UUID) (symbol side : Option String) (id : Option UUID) :
    (Reconciliation.triggerAndLink accountId triggerType strategyId symbol side id).Only
      Op.Aside fun r => ∃ run, r = .ok run := by
  refine (trigger_only ..).bind (fun run _ => ?_) (fun e h => by simp at h)
  cases id with
  | none => exact ⟨run, rfl⟩
  | some id => exact ⟨trivial, fun _ => ⟨trivial, fun _ => ⟨run, rfl⟩⟩⟩

theorem recordOrderStateEvent_only (before after : OrderRequestEntity)
    (eventSource : EventSource) :
    (recordOrderStateEvent before after eventSource).Only Op.Recording (· = .ok ()) :=
  ⟨trivial, fun _ => ⟨trivial, fun _ => ⟨trivial, fun _ => ⟨trivial, fun _ => rfl⟩⟩⟩⟩

theorem recordStatusChange_only (before after : OrderRequestEntity)
    (actorType actorId : String) :
    (recordStatusChange before after actorType actorId).Only Op.Noting (· = .ok ()) :=
  ⟨trivial, fun _ => ⟨trivial, fun _ => ⟨trivial, fun _ => rfl⟩⟩⟩

theorem autoTrigger_only (service : Bool) (after : OrderRequestEntity) (target : OrderStatus)
    (args : TransitionArgs) :
    (autoTrigger service after target args).Only Op.Aside (· = .ok ()) := by
  unfold autoTrigger
  split
  · refine Program.Only.handle (Q := (· = .ok ())) ?_ (fun _ _ => rfl) fun _ _ => rfl
    exact (triggerAndLink_only ..).bind (fun _ _ => rfl) (fun e h => by simp at h)
  · rfl

theorem only_bookkeeping {Q : Except PyError α → Prop} {p : Code α}
    (hp : p.Only Op.Noting Q) : p.Only Op.Bookkeeping Q :=
  hp.mono (fun _ h => h.recording.bookkeeping) fun _ => id

theorem only_of_aside {Q : Except PyError α → Prop} {p : Code α} (hp : p.Only Op.Aside Q) :
    p.Only Op.Bookkeeping Q :=
  hp.mono (fun _ h => h.bookkeeping) fun _ => id

/-- What follows the event of a status write leaves the log of order states alone. -/
theorem recordRest_only (service : Bool) (before after : OrderRequestEntity)
    (target : OrderStatus) (args : TransitionArgs) :
    ((recordStatusChange before after args.actorType args.actorId).bind fun _ =>
      autoTrigger service after target args).Only Op.Aside (· = .ok ()) :=
  ((recordStatusChange_only ..).mono (fun _ h => h.aside) fun _ => id).bind
    (fun _ _ => autoTrigger_only ..) fun e h => by cases h

theorem recordTransition_only (service : Bool) (before after : OrderRequestEntity)
    (target : OrderStatus) (args : TransitionArgs) :
    (recordTransition service before after target args).Only Op.Bookkeeping (· = .ok ()) := by
  refine ((recordOrderStateEvent_only ..).mono (fun _ h => h.bookkeeping) fun _ => id).bind
    (fun _ _ => ?_) (fun e h => by cases h)
  exact only_of_aside (recordRest_only ..)

theorem triggerFor_only (service : Bool) (order : OrderRequestEntity)
    (request : SubmitOrderRequest) (triggerType : String) :
    (triggerFor service order request triggerType).Only Op.Bookkeeping (· = .ok ()) := by
  unfold triggerFor
  split
  · exact (only_of_aside (trigger_only ..)).bind (fun _ _ => rfl) (fun e h => by simp at h)
  · rfl

theorem recordSubmissionAttempt_only (attempt : UUID → Time → OrderSubmissionAttemptEntity) :
    (recordSubmissionAttempt attempt).Only Op.Noting (· = .ok ()) :=
  ⟨trivial, fun _ => ⟨trivial, fun _ => ⟨trivial, fun _ => rfl⟩⟩⟩

theorem stamp_only (b : Bool) :
    (transitionToCore.stamp b).Only Op.Noting fun r => ∃ sa, r = .ok sa := by
  cases b with
  | true => exact ⟨trivial, fun now => ⟨some now, rfl⟩⟩
  | false => exact ⟨none, rfl⟩

theorem resolveStrategy_only (request : SubmitOrderRequest) :
    (resolveStrategy request).Only Op.Bookkeeping fun r => ∃ id, r = .ok id :=
  ⟨trivial, fun strategy => ⟨strategy.map (·.strategyId), rfl⟩⟩

theorem isBlocked_only (key : LockKey) :
    (Reconciliation.isBlocked key).Only Op.Bookkeeping fun r => ∃ b, r = .ok b :=
  ⟨trivial, fun b => ⟨b, rfl⟩⟩

/-- Operations of the retry loop: records, re-fetches and writes of the order. -/
def Op.Writing (op : Op) : Prop :=
  op.Recording ∨ (∃ id, op = .ordersGet id) ∨
    ∃ id status rc rm expected submittedAt,
      op = .ordersUpdateStatus id status rc rm expected submittedAt

theorem Op.Writing.quiet {op : Op} (h : op.Writing) : op.Quiet := by
  rcases h with h | ⟨_, rfl⟩ | ⟨_, _, _, _, _, _, rfl⟩
  · cases op <;> trivial
  · trivial
  · trivial

/-- Operations of a transition. -/
def Op.Transitional (op : Op) : Prop := op.Bookkeeping ∨ op.Writing

theorem only_transitional {Q : Except PyError α → Prop} {p : Code α}
    (hp : p.Only Op.Bookkeeping Q) : p.Only Op.Transitional fun _ => True :=
  hp.mono (fun _ => Or.inl) fun _ _ => trivial

theorem only_writing {Q : Except PyError α → Prop} {p : Code α}
    (hp : p.Only Op.Noting Q) : p.Only Op.Writing fun _ => True :=
  hp.mono (fun _ h => Or.inl h.recording) fun _ _ => trivial

theorem refetch_only (order : OrderRequestEntity) (target : OrderStatus) (args : TransitionArgs)
    (submittedAt : Option Time) (id : UUID) (lastAttempt : Bool) :
    (refetch order target args submittedAt id lastAttempt).Only Op.Writing
      fun _ => True := by
  refine ⟨Or.inr (Or.inl ⟨id, rfl⟩), fun latest => ?_⟩
  cases latest with
  | none => trivial
  | some latest =>
    by_cases h : latest.status ∈ terminalStates
    · simp only [Program.ret_bind, h, if_true]
      trivial
    · simp only [Program.ret_bind, h, if_false]
      refine (only_writing (replaceStatus_only ..)).bind (fun _ _ => ?_) fun _ _ => trivial
      exact (only_writing (pause_only _)).bind (fun _ _ => trivial) fun _ _ => trivial

theorem retryUpdate_only (order : OrderRequestEntity) (target : OrderStatus)
    (args : TransitionArgs) (submittedAt : Option Time) (n : Nat) (after : OrderRequestEntity)
    (lastExc : Option PyError) :
    (retryUpdate order target args submittedAt n after lastExc).Only Op.Writing
      fun _ => True := by
  induction n generalizing after lastExc with
  | zero => cases lastExc <;> trivial
  | succ n ih =>
    refine ⟨Or.inr (Or.inr ⟨_, _, _, _, _, _, rfl⟩), fun outcome => ?_⟩
    rcases outcome with e | ⟨⟩
    · cases e with
      | versionConflict id expected actual =>
        exact (refetch_only ..).bind (fun rebuilt _ => ih rebuilt _) fun _ _ => trivial
      | _ => trivial
    · trivial

theorem transitionTo_only (service : Bool) (order : OrderRequestEntity) (target : OrderStatus)
    (args : TransitionArgs) :
    (transitionTo service order target args).Only Op.Transitional fun _ => True := by
  unfold transitionTo
  cases validateTransition order.orderRequestId order.status target with
  | error e => trivial
  | ok u =>
    refine (only_transitional (only_bookkeeping (stamp_only _))).bind (fun _ _ => ?_)
      fun _ _ => trivial
    refine (only_transitional (only_bookkeeping (replaceStatus_only ..))).bind (fun _ _ => ?_)
      fun _ _ => trivial
    refine ((retryUpdate_only ..).mono (fun _ => Or.inr) fun _ => id).bind (fun _ _ => ?_)
      fun _ _ => trivial
    exact (only_transitional (recordTransition_only ..)).bind (fun _ _ => trivial)
      fun _ _ => trivial

/-- Operations of a submission after the broker call. -/
def Op.Settling (op : Op) : Prop := op.Transitional ∨ ∃ item, op = .brokerOrdersAdd item

theorem only_settling {Q : Except PyError α → Prop} {p : Code α} (hp : p.Only Op.Transitional Q) :
    p.Only Op.Settling fun _ => True :=
  hp.mono (fun _ => Or.inl) fun _ _ => trivial

theorem bookkeeping_transitionTo_only {Q : Except PyError α → Prop} {p : Code α}
    (hp : p.Only Op.Bookkeeping Q) (service : Bool) (order : OrderRequestEntity)
    (target : OrderStatus) (args : TransitionArgs) :
    (p.bind fun _ => transitionTo service order target args).Only Op.Settling fun _ => True :=
  (only_settling (only_transitional hp)).bind (fun _ _ => only_settling (transitionTo_only ..))
    fun _ _ => trivial

theorem handleResult_only (service : Bool) (order : OrderRequestEntity)
    (request : SubmitOrderRequest) (actorType actorId : String) (result : SubmitOrderResult) :
    (handleResult service order request actorType actorId result).Only Op.Settling
      fun _ => True := by
  unfold handleResult
  split
  · refine (only_settling (only_transitional (triggerFor_only ..))).bind (fun _ _ => ?_)
      fun _ _ => trivial
    exact bookkeeping_transitionTo_only (only_bookkeeping (recordSubmissionAttempt_only _)) ..
  · split
    · refine ⟨Or.inl (Or.inl trivial), fun _ => ⟨Or.inl (Or.inl trivial), fun _ =>
        ⟨Or.inr ⟨_, rfl⟩, fun _ => ?_⟩⟩⟩
      exact bookkeeping_transitionTo_only (only_bookkeeping (recordSubmissionAttempt_only _)) ..
    · exact bookkeeping_transitionTo_only (only_bookkeeping (recordSubmissionAttempt_only _)) ..

theorem onBrokerError_only (service : Bool) (order : OrderRequestEntity)
    (request : SubmitOrderRequest) (actorType actorId : String) (e : BrokerError) :
    (onBrokerError service order request actorType actorId e).Only Op.Settling
      fun _ => True := by
  refine (only_settling (only_transitional (only_bookkeeping
      (recordSubmissionAttempt_only _)))).bind
    (fun _ _ => ?_) fun _ _ => trivial
  split
  · exact bookkeeping_transitionTo_only (triggerFor_only ..) ..
  · exact only_settling (transitionTo_only ..)

theorem settleOutcome_only (service : Bool) (order : OrderRequestEntity) (brokerClass : String)
    (request : SubmitOrderRequest) (actorType actorId : String)
    (outcome : Except PyError SubmitOrderResult) :
    (settleOutcome service order brokerClass request actorType actorId outcome).Only Op.Settling
      fun _ => True := by
  unfold settleOutcome
  split
  · exact handleResult_only ..
  · exact onBrokerError_only ..
  · exact (only_settling (only_transitional (only_bookkeeping
      (recordSubmissionAttempt_only _)))).bind
      (fun _ _ => trivial) fun _ _ => trivial

end AgentTrading.Orders
