import AgentTrading.Orders.TargetWrites

/-! The reconciliation worker: one run is processed by asking the broker for each order
linked to it, and is then marked by what came of them. -/
namespace AgentTrading.Reconciliation.Worker
open Domain Repositories Library

/-- An authenticated adapter, by the account its client was built for. -/
structure Adapter where
  accountNumber : String
  deriving DecidableEq

/-- Of the broker's reply to an inquiry the worker reads the status only. -/
inductive Op where
  | orders (op : Orders.Op)
  | accountsGet (accountId : UUID)
  | brokerAccountsGet (brokerAccountId : UUID)
  | brokerOrdersListByOrderRequest (orderRequestId : UUID)
  | brokerCacheGet (accountId : UUID)
  | brokerCacheSet (accountId : UUID) (adapter : Adapter)
  | adapterAuthenticate (adapter : Adapter)
  | adapterResolveUnknownState (adapter : Adapter) (accountRef : String) (orderRequestId : UUID)
      (brokerNativeOrderId : Option String)

abbrev Reply : Op → Type
  | .orders op => Orders.Reply op
  | .accountsGet _ => Except PyError (Option AccountEntity)
  | .brokerAccountsGet _ => Except PyError (Option BrokerAccountEntity)
  | .brokerOrdersListByOrderRequest _ => List BrokerOrderEntity
  | .brokerCacheGet _ => Option Adapter
  | .brokerCacheSet .. => Unit
  | .adapterAuthenticate _ => Except PyError Unit
  | .adapterResolveUnknownState .. => Except PyError OrderStatus

abbrev Code (α : Type) := Program Op Reply PyError α

/-- An inquiry about an order with what the broker answered. -/
structure Inquiry where
  orderRequestId : UUID
  reply : Except PyError OrderStatus

/-- The stored rows and the adapters by account. `inquiries` records what no table keeps. -/
structure State where
  store : Store
  brokerCache : UUID → Option Adapter := fun _ => none
  inquiries : List Inquiry := []

/-- What the world outside decides at one operation. -/
structure Choice where
  orders : Orders.Choice
  account : Except PyError (Option AccountEntity)
  brokerAccount : Except PyError (Option BrokerAccountEntity)
  authenticate : Except PyError Unit
  unknownState : Except PyError OrderStatus

def exec (c : Choice) (op : Op) (s : State) : Reply op × State :=
  match op with
  | .orders op => ((Orders.exec c.orders op s.store).1,
      { s with store := (Orders.exec c.orders op s.store).2 })
  | .accountsGet _ => (c.account, s)
  | .brokerAccountsGet _ => (c.brokerAccount, s)
  | .brokerOrdersListByOrderRequest id =>
    (s.store.brokerOrders.filter fun item => item.orderRequestId = id, s)
  | .brokerCacheGet accountId => (s.brokerCache accountId, s)
  | .brokerCacheSet accountId adapter =>
    ((), { s with brokerCache := Function.update s.brokerCache accountId (some adapter) })
  | .adapterAuthenticate _ => (c.authenticate, s)
  | .adapterResolveUnknownState _ _ id _ =>
    (c.unknownState, { s with inquiries := s.inquiries ++ [⟨id, c.unknownState⟩] })

abbrev await (op : Op) : Code (Reply op) := Program.perform op

def orRaise : Except PyError α → Code α
  | .ok a => .ret a
  | .error e => .raise e

/-- A program of the order services. -/
def ofOrders (p : Orders.Code α) : Code α := p.lift Op.orders fun _ r => r

inductive ProcessingStatus where
  | resolved
  | retained
  | escalated
  | skippedNoLinks
  | failed
  deriving DecidableEq, Repr

structure ProcessingResult where
  status : ProcessingStatus
  ordersProcessed : Nat := 0
  ordersResolved : Nat := 0
  error : Option String := none
  runId : UUID
  deriving DecidableEq

/-- What `_process_order_link` says of a link. -/
inductive LinkOutcome where
  | resolved
  | failed
  deriving DecidableEq, Repr

/-- The counters of the loop over the links. -/
structure Tally where
  allSucceeded : Bool := true
  ordersResolved : Nat := 0
  lastError : Option String := none

def Tally.count (tally : Tally) (link : ReconciliationOrderLinkEntity) : LinkOutcome → Tally
  | .resolved => { tally with ordersResolved := tally.ordersResolved + 1 }
  | .failed => { tally with
      allSucceeded := false
      lastError := some ("order " ++ UUID.text link.orderRequestId ++ " failed") }

/-- An order manager is given by whether it has a reconciliation service; `errorText` renders
an exception. -/
structure ReconciliationRunProcessor where
  dryRun : Bool := false
  orderManager : Option Bool := none
  errorText : PyError → String

def microsPerHour : Int := 60 * microsPerMinute

/-- The hour of the Korean clock. -/
def kstHour (t : Time) : Int := (t + 9 * microsPerHour) / microsPerHour % 24

/-- Half past three is not looked at: the whole hour counts. -/
def isAfterHours (now : Time) : Bool := 15 ≤ kstHour now ∧ kstHour now < 18

def mayExpire (now createdAt : Time) : Bool :=
  30 * microsPerMinute ≤ now - createdAt ∨ isAfterHours now

/-- The broker's answers that end an inquiry. -/
def resolvedStatuses : List OrderStatus :=
  [.filled, .cancelled, .rejected, .expired, .acknowledged]

def expiredFallback : String := "reconciliation_expired_fallback"

namespace ReconciliationRunProcessor

variable (proc : ReconciliationRunProcessor)

def getBrokerAccount (accountId : UUID) : Code (Option BrokerAccountEntity) := do
  let found ← await (.accountsGet accountId)
  let account ← orRaise found
  match account with
  | none => return none
  | some account =>
    let found ← await (.brokerAccountsGet account.brokerAccountId)
    let brokerAccount ← orRaise found
    return brokerAccount.filter fun item => item.brokerName = "koreainvestment"

/-- `_build_adapter_for_broker_account`: a failing authentication gives no adapter. -/
def buildAdapterForBrokerAccount (brokerAccountId : UUID) (brokerName : String) :
    Code (Option Adapter) :=
  if brokerName ≠ "koreainvestment" then return none
  else do
    let found ← await (.brokerAccountsGet brokerAccountId)
    let brokerAccount ← orRaise found
    match brokerAccount with
    | none => return none
    | some brokerAccount =>
      let adapter : Adapter := ⟨brokerAccount.accountRef⟩
      let session ← await (.adapterAuthenticate adapter)
      match session with
      | .ok () => return some adapter
      | .error _ => return none

def getOrCreateBroker (accountId : UUID) (brokerAccount : BrokerAccountEntity) :
    Code (Option Adapter) := do
  let cached ← await (.brokerCacheGet accountId)
  match cached with
  | some adapter => return some adapter
  | none =>
    let adapter ← buildAdapterForBrokerAccount brokerAccount.brokerAccountId
      brokerAccount.brokerName
    match adapter with
    | none => return none
    | some adapter =>
      await (.brokerCacheSet accountId adapter)
      return some adapter

/-- The order manager's transition or, without one, the write of the status alone. -/
def expire (orderRequestId : UUID) (order : OrderRequestEntity) (runId : UUID) :
    Option Bool → Code Unit
  | some service => do
    let _ ← ofOrders (Orders.transitionToAuthoritative service order .expired runId
      (some expiredFallback) 3)
    return ()
  | none => do
    let outcome ← await (.orders (.ordersUpdateStatus orderRequestId .expired
      (some expiredFallback) none (some order.version) none))
    orRaise outcome

def tryExpiredFallback (orderRequestId runId : UUID) : Code Bool := do
  let now ← await (.orders .now)
  let found ← await (.orders (.ordersGet orderRequestId))
  match found with
  | none => return false
  | some order =>
    match order.createdAt with
    | none => return false
    | some createdAt =>
      if mayExpire now createdAt then do
        let done ← (expire orderRequestId order runId proc.orderManager).outcome
        return done.isOk
      else return false

/-- What becomes of an order the broker has answered for. An answer in `resolvedStatuses`
resolves the link and is not written to the order. -/
def reflect (orderRequestId runId : UUID) (status : OrderStatus) : Code LinkOutcome :=
  if status ∈ resolvedStatuses then return .resolved
  else if status = .reconcileRequired then do
    let expired ← proc.tryExpiredFallback orderRequestId runId
    return if expired then .resolved else .failed
  else return .failed

/-- The broker is asked about one broker order of the linked order. -/
def inquire (runId : UUID) (adapter : Adapter) (accountRef : String)
    (link : ReconciliationOrderLinkEntity) (brokerOrder : BrokerOrderEntity) :
    Code LinkOutcome := do
  let reply ← await (.adapterResolveUnknownState adapter accountRef link.orderRequestId
    brokerOrder.brokerNativeOrderId)
  let status ← orRaise reply
  proc.reflect link.orderRequestId runId status

/-- `_process_order_link`: each way through the first broker order returns. -/
def processOrderLink (runId : UUID) (adapter : Adapter) (accountRef : String)
    (link : ReconciliationOrderLinkEntity) : Code LinkOutcome := do
  let brokerOrders ← await (.brokerOrdersListByOrderRequest link.orderRequestId)
  match brokerOrders with
  | [] => return .failed
  | brokerOrder :: _ =>
    if proc.dryRun then return .resolved
    else (proc.inquire runId adapter accountRef link brokerOrder).handle fun _ => return .failed

def processLinks (runId : UUID) (adapter : Adapter) (accountRef : String) :
    List ReconciliationOrderLinkEntity → Tally → Code Tally
  | [], tally => return tally
  | link :: links, tally => do
    let outcome ← proc.processOrderLink runId adapter accountRef link
    processLinks runId adapter accountRef links (tally.count link outcome)

/-- `_mark_run_resolved`: a failure is logged. -/
def markRunResolved (run : ReconciliationRunEntity) : Code Unit := do
  let _ ← (ofOrders (markResolved run.reconciliationRunId)).outcome
  return ()

/-- `_mark_run_failed` and `_mark_run_reflection_failed`: the run's locks go with it. -/
def markRun (run : ReconciliationRunEntity) (status : RunStatus) : Code Unit := do
  let now ← await (.orders .now)
  await (.orders (.reconciliationsUpdateRunStatus run.reconciliationRunId status (some now)))
  ofOrders (releaseBlockingLock run.accountId none none none (some run.reconciliationRunId))

def markRunFailed (run : ReconciliationRunEntity) : Code Unit := markRun run .failed

def markRunReflectionFailed (run : ReconciliationRunEntity) : Code Unit :=
  markRun run .reflectionFailed

def unlessDryRun (p : Code Unit) : Code Unit := if proc.dryRun then return () else p

/-- The run is marked by the tally of its links. -/
def closeRun (run : ReconciliationRunEntity) (processed : Nat) (tally : Tally) :
    Code ProcessingResult :=
  if tally.allSucceeded ∧ tally.ordersResolved = processed then do
    proc.unlessDryRun (markRunResolved run)
    return {
      status := .resolved
      ordersProcessed := processed
      ordersResolved := tally.ordersResolved
      runId := run.reconciliationRunId }
  else if !tally.allSucceeded then do
    proc.unlessDryRun (markRunFailed run)
    return {
      status := .failed
      ordersProcessed := processed
      ordersResolved := tally.ordersResolved
      error := tally.lastError
      runId := run.reconciliationRunId }
  else do
    proc.unlessDryRun (markRunReflectionFailed run)
    return {
      status := .escalated
      ordersProcessed := processed
      ordersResolved := tally.ordersResolved
      error := some "partial resolution"
      runId := run.reconciliationRunId }

/-- The run stays as it is and is tried again. -/
def retain (run : ReconciliationRunEntity) (error : String) : ProcessingResult where
  status := .retained
  error := some error
  runId := run.reconciliationRunId

def processWithAdapter (run : ReconciliationRunEntity) (brokerAccount : BrokerAccountEntity)
    (links : List ReconciliationOrderLinkEntity) : Code ProcessingResult := do
  let adapter ← (getOrCreateBroker run.accountId brokerAccount).outcome
  match adapter with
  | .error e => return retain run ("broker_adapter_creation_failed: " ++ proc.errorText e)
  | .ok none => return retain run "broker_adapter_creation_failed"
  | .ok (some adapter) =>
    let tally ← proc.processLinks run.reconciliationRunId adapter brokerAccount.accountRef links {}
    proc.closeRun run links.length tally

def processRun (run : ReconciliationRunEntity) : Code ProcessingResult := do
  let links ← await (.orders (.reconciliationsGetRunOrderLinks run.reconciliationRunId))
  match links with
  | [] => return { status := .skippedNoLinks, runId := run.reconciliationRunId }
  | link :: rest =>
    let brokerAccount ← (getBrokerAccount run.accountId).outcome
    match brokerAccount with
    | .error e => return retain run ("broker_account_resolution_failed: " ++ proc.errorText e)
    | .ok none => return retain run "broker_account_not_found"
    | .ok (some brokerAccount) => proc.processWithAdapter run brokerAccount (link :: rest)

end ReconciliationRunProcessor

end AgentTrading.Reconciliation.Worker
