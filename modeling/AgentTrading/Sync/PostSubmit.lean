import AgentTrading.Sync.TruthProbe

/-! `OrderSyncService.sync_order_post_submit`: one call brings the stored status of an order and
its fills up to what the broker reports. -/
namespace AgentTrading.Sync
open Domain Repositories Library

/-- What a service is built with, and how it renders a decimal and an exception. -/
structure OrderSyncService where
  reconciliation : Bool
  text : ℚ → String
  errorText : PyError → String

structure SyncOrderResult where
  brokerOrderId : UUID
  previousStatus : OrderStatus
  currentStatus : OrderStatus
  statusChanged : Bool := false
  fillsSynced : Nat := 0
  fillsSkipped : Nat := 0
  terminal : Bool := false
  snapshotTriggered : Bool := false
  lastSyncedAt : Time
  error : Option String := none
  deriving DecidableEq

def syncableStatuses : List OrderStatus :=
  [.submitted, .acknowledged, .partiallyFilled, .reconcileRequired]

def terminalStatuses : List OrderStatus := [.filled, .cancelled, .rejected, .expired]

def seconds (n : Int) : Int := n * 1000000

def recentExpiryWindow : Int := seconds 86400

def gracePeriodAfterHoursExpired : Int := seconds 1800

def gracePeriodAfterHoursExpiredMarket : Int := seconds 3600

/-- Microseconds of the Korean clock since the epoch. -/
def kst (t : Time) : Int := t + seconds 32400

/-- The Korean date, as a number of days. -/
def kstDay (t : Time) : Int := kst t / seconds 86400

/-- `_is_after_hours_now`: from 15:30 on. -/
def isAfterHoursAt (t : Time) : Bool := seconds 55800 ≤ kst t % seconds 86400

def canRecoverExpired (order : OrderRequestEntity) : Code Bool :=
  match order.createdAt with
  | none => return true
  | some createdAt => do
    let now ← now
    return now - createdAt ≤ seconds 86400

def resolveAfterHoursGracePeriod (order : OrderRequestEntity) (brokerOrder : BrokerOrderEntity) :
    Int :=
  if truthy brokerOrder.brokerNativeOrderId ∧ order.orderType = .market then
    gracePeriodAfterHoursExpiredMarket
  else gracePeriodAfterHoursExpired

def isPriorDayDayPartialSellResidual (order : OrderRequestEntity) (brokerStatus : OrderStatus)
    (now : Time) : Bool :=
  order.side = .sell ∧ order.status = .partiallyFilled ∧ brokerStatus = .partiallyFilled ∧
    order.timeInForce = .day ∧ (orderTime order).any (kstDay · < kstDay now)

namespace OrderSyncService

variable (svc : OrderSyncService)

def buildTransitionChain : OrderStatus → OrderStatus → List OrderStatus
  | .submitted, .filled => [.acknowledged, .partiallyFilled, .filled]
  | .submitted, .partiallyFilled => [.acknowledged, .partiallyFilled]
  | .submitted, .acknowledged => [.acknowledged]
  | .acknowledged, .filled => [.partiallyFilled, .filled]
  | .reconcileRequired, .filled => [.acknowledged, .partiallyFilled, .filled]
  | _, target => [target]

def transition (order : OrderRequestEntity) (target : OrderStatus)
    (reasonCode reasonMessage : Option String) : Code OrderRequestEntity :=
  ofOrders (Orders.transitionTo svc.reconciliation order target
    { reasonCode := reasonCode, reasonMessage := reasonMessage })

/-- The chain ends at the first step that fails; only the last step carries the reason. -/
def followChain (target : OrderStatus) (reasonCode reasonMessage : Option String) :
    List OrderStatus → OrderRequestEntity → Code OrderRequestEntity
  | [], current => return current
  | step :: steps, current =>
    if current.status = step then followChain target reasonCode reasonMessage steps current
    else do
      let next ← (svc.transition current step (if step = target then reasonCode else none)
        (if step = target then reasonMessage else none)).attempt
      match next with
      | some next => followChain target reasonCode reasonMessage steps next
      | none => return current

/-- `_try_transition`: directly, and when that fails along the chain. -/
def tryTransition (order : OrderRequestEntity) (target : OrderStatus)
    (reasonCode reasonMessage : Option String) : Code OrderRequestEntity :=
  if order.status = target then return order
  else do
    let direct ← (svc.transition order target reasonCode reasonMessage).attempt
    match direct with
    | some moved => return moved
    | none =>
      svc.followChain target reasonCode reasonMessage (buildTransitionChain order.status target)
        order

def updateLastSyncedAt (brokerOrderId : UUID) (syncTime : Time) : Code Unit :=
  updateBrokerOrderRow brokerOrderId none (some syncTime) (some syncTime)

/-- The stored broker status is replaced where it differs. -/
def updateBrokerStatus (brokerOrder : BrokerOrderEntity) (status : OrderStatus) (now : Time) :
    Code Unit :=
  if brokerOrder.brokerStatus ≠ status.value then
    updateBrokerOrderRow brokerOrder.brokerOrderId (some status.value) none (some now)
  else return ()

/-- A recovery moves the order before it updates the broker order; when the update fails, the
order stays moved and the recovery counts as failed. -/
def recoverTo (order : OrderRequestEntity) (brokerOrder : BrokerOrderEntity)
    (target brokerStatus : OrderStatus) : Code (OrderRequestEntity × Bool) := do
  let moved ← svc.tryTransition order target none none
  let now ← now
  let updated ← (updateBrokerStatus brokerOrder brokerStatus now).attempt
  return (moved, updated.isSome)

/-- The broker or the positions show a fill, and the order is young enough. -/
def mayRecover (order : OrderRequestEntity) (found : OrderStatus) : Code Bool :=
  if found = .filled ∨ found = .partiallyFilled then canRecoverExpired order else return false

/-- The first attempt: what the broker says of the order now. -/
def recoverByBroker (order : OrderRequestEntity) (brokerOrder : BrokerOrderEntity) :
    Code (OrderRequestEntity × Bool) := do
  let reply ← await (.brokerGetOrderStatus order.clientOrderId brokerOrder.brokerNativeOrderId)
  match reply with
  | .error _ => return (order, false)
  | .ok result => do
    let recoverable ← mayRecover order result.status
    if recoverable then svc.recoverTo order brokerOrder result.status result.status
    else if order.side = .buy ∧ truthy brokerOrder.brokerNativeOrderId ∧
        (result.status = .submitted ∨ result.status = .acknowledged ∨
          result.status = .reconcileRequired) then
      svc.recoverTo order brokerOrder .reconcileRequired result.status
    else return (order, false)

/-- What follows the transition of the second attempt; every exception is passed over. -/
def finishPositionRecovery (moved : OrderRequestEntity) (brokerOrderId : UUID)
    (inferred : OrderStatus) (refresh : Bool) : Code Unit := do
  let now ← now
  let updated ← (updateBrokerOrderRow brokerOrderId (some inferred.value) none (some now)).attempt
  if updated.isSome ∧ inferred = .filled then do
    let _ ← refreshSnapshots refresh moved.accountId
    return ()
  else return ()

/-- The second attempt, for a sell: what the positions say. -/
def recoverByPosition (order : OrderRequestEntity) (brokerOrder : BrokerOrderEntity)
    (refresh : Bool) : Code Unit := do
  let inferred ← (inferSellOrderFillViaPosition order brokerOrder refresh).attempt
  match inferred.join with
  | none => return ()
  | some inferred => do
    let recoverable ← mayRecover order inferred
    if recoverable then do
      let moved ← svc.tryTransition order inferred none none
      finishPositionRecovery moved brokerOrder.brokerOrderId inferred refresh
    else return ()

/-- Both attempts for a recently expired order: the recovered order, if the broker's reply
recovered it. A recovery by position is not reported. -/
def recoverExpired (order : OrderRequestEntity) (brokerOrder : BrokerOrderEntity)
    (refresh : Bool) : Code (Option OrderRequestEntity) := do
  let (moved, recovered) ← svc.recoverByBroker order brokerOrder
  if recovered then return some moved
  else if moved.side = .sell then do
    svc.recoverByPosition moved brokerOrder refresh
    return none
  else return none

def recentlyExpired (order : OrderRequestEntity) : Code Bool :=
  if order.status = .expired then
    match order.updatedAt with
    | none => return false
    | some updatedAt => do
      let now ← now
      return now - updatedAt < recentExpiryWindow
  else return false

/-- An order that is already terminal. -/
def syncTerminal (order : OrderRequestEntity) (brokerOrder : BrokerOrderEntity) (refresh : Bool)
    (start : Time) : Code SyncOrderResult := do
  let recent ← recentlyExpired order
  let recovered ← attemptRecovery recent
  updateLastSyncedAt brokerOrder.brokerOrderId start
  match recovered with
  | some moved =>
    return {
      brokerOrderId := brokerOrder.brokerOrderId
      previousStatus := order.status
      currentStatus := moved.status
      statusChanged := moved.status ≠ order.status
      terminal := moved.status ∈ terminalStatuses
      lastSyncedAt := start }
  | none =>
    return {
      brokerOrderId := brokerOrder.brokerOrderId
      previousStatus := order.status
      currentStatus := order.status
      terminal := true
      lastSyncedAt := start }
where
  attemptRecovery : Bool → Code (Option OrderRequestEntity)
    | true => svc.recoverExpired order brokerOrder refresh
    | false => return none

/-- The reason columns are rewritten without a comparison of versions. -/
def refreshReason (order : OrderRequestEntity) (code message : String) :
    Code OrderRequestEntity := do
  let outcome ← await (.orders (.ordersUpdateStatus order.orderRequestId order.status (some code)
    (some message) none none))
  orRaise outcome
  return { order with statusReasonCode := some code, statusReasonMessage := some message }

def applyProbe (order : OrderRequestEntity) (status : OrderStatus) (code message : String) :
    Code OrderRequestEntity :=
  if status ≠ order.status then svc.tryTransition order status (some code) (some message)
  else if order.statusReasonCode ≠ some code ∨ order.statusReasonMessage ≠ some message then
    refreshReason order code message
  else return order

/-- The fills are read in the same cycle only when linked rows settled the order; a failure
does not undo the status. -/
def parallelSyncFills (order : OrderRequestEntity) (brokerOrder : BrokerOrderEntity)
    (reason : Option TruthProbeReason) : Code (Nat × Nat) :=
  if reason = some .fillSnapshot then do
    sleep
    let counts ← await (.syncFills brokerOrder order.accountId)
    match counts with
    | .ok counts => return counts
    | .error _ => return (0, 0)
  else return (0, 0)

def probeError : Option TruthProbeReason → Option String
  | none => none
  | some .fillSnapshot => none
  | some .positionConflict => none
  | some .buyPositionFill => none
  | some reason => some ("truth_probe_conflict:" ++ reason.value)

/-- Only progress that the probe found asks for new snapshots. -/
def probeProgress (order moved : OrderRequestEntity) (status : OrderStatus)
    (reason : Option TruthProbeReason) (code message : String) : Bool :=
  (status ≠ order.status ∧ (moved.status = .partiallyFilled ∨ moved.status = .filled)) ∨
    (reason = some .fillSnapshot ∧ moved.status = .partiallyFilled ∧
      (order.statusReasonCode ≠ some code ∨ order.statusReasonMessage ≠ some message))

def syncProbed (order : OrderRequestEntity) (brokerOrder : BrokerOrderEntity) (refresh : Bool)
    (start : Time) (status : OrderStatus) (reason : Option TruthProbeReason) :
    Code SyncOrderResult := do
  let (code, message) ← buildTruthProbeReasonMessage svc.text order brokerOrder status reason
  let moved ← svc.applyProbe order status code message
  updateBrokerStatus brokerOrder status start
  updateLastSyncedAt brokerOrder.brokerOrderId start
  let triggered ← refreshSnapshots (refresh && probeProgress order moved status reason code message)
    moved.accountId
  let (synced, skipped) ← parallelSyncFills moved brokerOrder reason
  return {
    brokerOrderId := brokerOrder.brokerOrderId
    previousStatus := order.status
    currentStatus := moved.status
    statusChanged := status ≠ order.status
    fillsSynced := synced
    fillsSkipped := skipped
    terminal := moved.status ∈ terminalStatuses
    snapshotTriggered := triggered
    lastSyncedAt := start
    error := probeError reason }

/-! An order whose status the broker is asked for. -/

def probeText (reason : TruthProbeReason) (message : String) : String :=
  "truth_probe:" ++ reason.value ++ ": " ++ message

/-- A terminal broker status ends the inquiry; otherwise the fills follow. -/
def syncOpenFills (order : OrderRequestEntity) (brokerOrder : BrokerOrderEntity)
    (brokerStatus : OrderStatus) : Code (Nat × Nat) :=
  if brokerStatus ∈ terminalStatuses then return (0, 0)
  else do
    sleep
    let counts ← await (.syncFills brokerOrder order.accountId)
    orRaise counts

def activeStatuses : List OrderStatus := [.submitted, .acknowledged, .reconcileRequired]

/-- An unfilled sell that is still open after hours. -/
def stuckAfterHours (order : OrderRequestEntity) (previous brokerStatus : OrderStatus)
    (afterHours : Bool) (synced : Nat) : Bool :=
  afterHours ∧ synced = 0 ∧ order.side = .sell ∧
    (previous = .submitted ∨ previous = .acknowledged) ∧ brokerStatus ∈ activeStatuses ∧
    order.status ∈ activeStatuses ∧ order.createdAt.isSome

/-- An order that is expired here leaves the call at once. -/
def expireRow (order : OrderRequestEntity) (brokerOrderId : UUID) (start : Time)
    (reasonCode reasonMessage : Option String) : Code (Option OrderRequestEntity) := do
  let moved ← svc.tryTransition order .expired reasonCode reasonMessage
  if moved.status ≠ order.status then do
    updateBrokerOrderRow brokerOrderId (some "expired") none (some start)
    updateLastSyncedAt brokerOrderId start
    return some moved
  else return none

def expireStuck (order : OrderRequestEntity) (brokerOrder : BrokerOrderEntity)
    (previous brokerStatus : OrderStatus) (afterHours : Bool) (start : Time) (synced : Nat) :
    Code (Option OrderRequestEntity) :=
  if stuckAfterHours order previous brokerStatus afterHours synced then do
    let now ← now
    if resolveAfterHoursGracePeriod order brokerOrder ≤ now - order.createdAt.getD now then
      svc.expireRow order brokerOrder.brokerOrderId start none none
    else return none
  else return none

def expireResidual (order : OrderRequestEntity) (brokerOrder : BrokerOrderEntity)
    (brokerStatus : OrderStatus) (afterHours : Bool) (start : Time) :
    Code (Option OrderRequestEntity) :=
  if afterHours then do
    let now ← now
    if isPriorDayDayPartialSellResidual order brokerStatus now then
      svc.expireRow order brokerOrder.brokerOrderId start
        (some "after_hours_day_partial_sell_residual_expired")
        (some ("After-hours cleanup: prior-day DAY partially filled SELL " ++
          "residual expired at market close"))
    else return none
  else return none

/-- Linked rows that resolved nothing are noted on an order whose status stays. -/
def notePending (order : OrderRequestEntity) (brokerOrder : BrokerOrderEntity)
    (probe : Option TruthProbeReason) (changed : Bool) : Code OrderRequestEntity :=
  if probe = some .fillSnapshotIncomplete ∧ changed = false then do
    let (code, message) ← buildPendingTruthProbeReasonMessage order brokerOrder
    refreshReason order code message
  else return order

def moveTo (order : OrderRequestEntity) (brokerStatus : OrderStatus) : Code OrderRequestEntity :=
  if brokerStatus ≠ order.status then svc.tryTransition order brokerStatus none none
  else return order

/-- The end of a call that neither raised nor expired the order. -/
def finishReported (order moved : OrderRequestEntity) (brokerOrder : BrokerOrderEntity)
    (refresh : Bool) (start : Time) (probe : Option TruthProbeReason) (synced skipped : Nat) :
    Code SyncOrderResult := do
  updateLastSyncedAt brokerOrder.brokerOrderId start
  let noted ← notePending moved brokerOrder probe (moved.status ≠ order.status)
  let triggered ← refreshSnapshots (refresh && (moved.status ≠ order.status) &&
    (noted.status = .partiallyFilled || noted.status = .filled)) noted.accountId
  return {
    brokerOrderId := brokerOrder.brokerOrderId
    previousStatus := order.status
    currentStatus := noted.status
    statusChanged := moved.status ≠ order.status
    fillsSynced := synced
    fillsSkipped := skipped
    terminal := noted.status ∈ terminalStatuses
    snapshotTriggered := triggered
    lastSyncedAt := start
    error := if probe = some .fillSnapshotIncomplete then
        some "truth_probe_pending:fill_snapshot_incomplete"
      else none }

def syncReported (order : OrderRequestEntity) (brokerOrder : BrokerOrderEntity)
    (refresh afterHours : Bool) (start : Time) (probe : Option TruthProbeReason)
    (brokerStatus : OrderStatus) : Code SyncOrderResult := do
  updateBrokerStatus brokerOrder brokerStatus start
  let moved ← svc.moveTo order brokerStatus
  let (synced, skipped) ← syncOpenFills moved brokerOrder brokerStatus
  let stuck ← svc.expireStuck moved brokerOrder order.status brokerStatus afterHours start synced
  match stuck with
  | some expired => return expiredResult expired 0 skipped
  | none => do
    let residual ← svc.expireResidual moved brokerOrder brokerStatus afterHours start
    match residual with
    | some expired => return expiredResult expired synced skipped
    | none => finishReported order moved brokerOrder refresh start probe synced skipped
where
  expiredResult (expired : OrderRequestEntity) (synced skipped : Nat) : SyncOrderResult :=
    { brokerOrderId := brokerOrder.brokerOrderId
      previousStatus := order.status
      currentStatus := expired.status
      statusChanged := true
      fillsSynced := synced
      fillsSkipped := skipped
      terminal := true
      lastSyncedAt := start }

/-- The inquiry of the broker; an exception ends the call with an error result. -/
def syncByStatus (order : OrderRequestEntity) (brokerOrder : BrokerOrderEntity)
    (refresh afterHours : Bool) (start : Time) (probe : Option TruthProbeReason) :
    Code SyncOrderResult := do
  let reply ← await (.brokerGetOrderStatus order.clientOrderId brokerOrder.brokerNativeOrderId)
  match reply with
  | .ok result => svc.syncReported order brokerOrder refresh afterHours start probe result.status
  | .error e =>
    let message := "get_order_status failed: " ++ svc.errorText e
    return {
      brokerOrderId := brokerOrder.brokerOrderId
      previousStatus := order.status
      currentStatus := order.status
      lastSyncedAt := start
      error := some ((probe.map (probeText · message)).getD message) }

/-- An order in a status that is looked after. -/
def syncActive (order : OrderRequestEntity) (brokerOrder : BrokerOrderEntity)
    (refresh afterHours : Bool) (start : Time) : Code SyncOrderResult :=
  if truthy brokerOrder.brokerNativeOrderId then do
    let probe ← (tryTruthProbe order brokerOrder).handle fun _ => return (none, some .apiFailure)
    match probe with
    | (some status, reason) => svc.syncProbed order brokerOrder refresh start status reason
    | (none, reason) => svc.syncByStatus order brokerOrder refresh afterHours start reason
  else svc.syncByStatus order brokerOrder refresh afterHours start none

def syncOrder (order : OrderRequestEntity) (brokerOrder : BrokerOrderEntity)
    (refresh afterHours : Bool) (start : Time) : Code SyncOrderResult :=
  if order.status ∈ terminalStatuses then svc.syncTerminal order brokerOrder refresh start
  else if order.status ∈ syncableStatuses then
    svc.syncActive order brokerOrder refresh afterHours start
  else return {
    brokerOrderId := brokerOrder.brokerOrderId
    previousStatus := order.status
    currentStatus := order.status
    lastSyncedAt := start
    error := some ("Order in non-syncable status: " ++ order.status.value) }

def notFound (brokerOrderId : UUID) (start : Time) (message : String) : SyncOrderResult where
  brokerOrderId := brokerOrderId
  previousStatus := .reconcileRequired
  currentStatus := .reconcileRequired
  lastSyncedAt := start
  error := some message

def resolveAfterHours : Option Bool → Code Bool
  | some afterHours => return afterHours
  | none => do
    let now ← now
    return isAfterHoursAt now

/-- `sync_order_post_submit`; `refresh` says whether a callback for snapshots is given. -/
def syncOrderPostSubmit (brokerOrderId : UUID) (refresh : Bool) (afterHours : Option Bool) :
    Code SyncOrderResult := do
  let start ← now
  let afterHours ← resolveAfterHours afterHours
  let found ← await (.brokerOrdersGet brokerOrderId)
  match found with
  | none =>
    return notFound brokerOrderId start ("BrokerOrder not found: " ++ UUID.text brokerOrderId)
  | some brokerOrder => do
    let stored ← await (.orders (.ordersGet brokerOrder.orderRequestId))
    match stored with
    | none =>
      return notFound brokerOrderId start
        ("OrderRequest not found: " ++ UUID.text brokerOrder.orderRequestId)
    | some order => svc.syncOrder order brokerOrder refresh afterHours start

end OrderSyncService

end AgentTrading.Sync
