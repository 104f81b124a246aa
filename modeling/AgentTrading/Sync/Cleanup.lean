import AgentTrading.Orders.RowWrites

/-! The cleanups of orders that never reached the broker: `expire_eod_orphan_orders` and
`_reject_stale_pending_submit_orders`, among submissions that run at the same time. Each lists its
orders once and then goes through them, reading the broker orders of one right before it writes. -/
namespace AgentTrading.Sync.Cleanup
open Domain Repositories Library

inductive Op where
  | orders (op : Orders.Op)
  | ordersList (statuses : List OrderStatus) (limit : Nat)
  | brokerOrdersListByOrderRequest (orderRequestId : UUID)
  | reconciliationsGetLatestStatusByOrder (orderRequestId : UUID)

abbrev Reply : Op → Type
  | .orders op => Orders.Reply op
  | .ordersList .. => Except PyError (List OrderRequestEntity)
  | .brokerOrdersListByOrderRequest _ => Except PyError (List BrokerOrderEntity)
  | .reconciliationsGetLatestStatusByOrder _ => Except PyError (Option RunStatus)

abbrev Code (α : Type) := Program Op Reply PyError α

/-- The store, and the orders the broker has taken, which no table keeps. -/
structure State where
  store : Store
  accepted : List UUID := []

/-- What the world outside decides at one operation: what the order services have of it, the rows a
listing comes upon in turn, the failure of a read, and whether the broker takes the order it is
sent, whatever its answer and whether or not the answer arrives. -/
structure Choice where
  orders : Orders.Choice
  rows : List UUID
  failure : Option PyError := none
  accepts : Bool := false

/-- The rows with one of the statuses, in the order the table gives them. -/
def ordersList (rows : List UUID) (statuses : List OrderStatus) (limit : Nat) (s : Store) :
    List OrderRequestEntity :=
  ((rows.filterMap s.orders).filter fun order => order.status ∈ statuses).take limit

def brokerOrdersOf (s : Store) (orderRequestId : UUID) : List BrokerOrderEntity :=
  s.brokerOrders.filter fun item => item.orderRequestId = orderRequestId

/-- A read, which may fail. -/
def Choice.read (c : Choice) (a : α) : Except PyError α :=
  match c.failure with
  | none => .ok a
  | some e => .error e

/-- The orders the broker takes in an operation. -/
def takes (c : Choice) : Orders.Op → List UUID
  | .brokerSubmitOrder orderRequestId _ => if c.accepts then [orderRequestId] else []
  | _ => []

def exec (c : Choice) (op : Op) (s : State) : Reply op × State :=
  match op with
  | .orders op =>
    ((Orders.exec c.orders op s.store).1,
      { store := (Orders.exec c.orders op s.store).2, accepted := s.accepted ++ takes c op })
  | .ordersList statuses limit =>
    (c.read (ordersList c.rows statuses limit s.store),
      { s with store := Orders.tick c.orders s.store })
  | .brokerOrdersListByOrderRequest id =>
    (c.read (brokerOrdersOf s.store id), { s with store := Orders.tick c.orders s.store })
  | .reconciliationsGetLatestStatusByOrder id =>
    (c.read (s.store.getLatestReconciliationStatusByOrder id),
      { s with store := Orders.tick c.orders s.store })

abbrev await (op : Op) : Code (Reply op) := Program.perform op

/-- A program of the order services. -/
def ofOrders (p : Orders.Code α) : Code α := p.lift Op.orders fun _ r => r

def now : Code Time := await (.orders .now)

/-- A read whose failure is raised. -/
def orRaise : Except PyError α → Code α
  | .ok a => .ret a
  | .error e => .raise e

/-- How the order manager is set up and how the messages print an age and a time. -/
structure Settings where
  service : Bool
  ageHours : Int → String
  isoformat : Time → String

/-- `try: await transition_to(..)`, with whether it went through. -/
def transitioned (settings : Settings) (order : OrderRequestEntity) (target : OrderStatus)
    (args : Orders.TransitionArgs) : Code Bool :=
  ((ofOrders (Orders.transitionTo settings.service order target args)).bind
    fun _ => .ret true).handle fun _ => .ret false

def isEodOrphan (order : OrderRequestEntity) (cutoff : Time) : Code Bool :=
  match order.createdAt with
  | none => return false
  | some createdAt =>
    if cutoff < createdAt then return false
    else if order.submittedAt.isSome then return false
    else do
      let listed ← await (.brokerOrdersListByOrderRequest order.orderRequestId)
      let brokerOrders ← orRaise listed
      return brokerOrders.isEmpty

/-- The message of an expiry; the creation time is there, for the order is an orphan. -/
def orphanMessage (settings : Settings) (now : Time) (order : OrderRequestEntity) : String :=
  "EOD orphan cleanup: broker_orders=0, native_order_id=null, submitted_at=null, age=" ++
    settings.ageHours (now - order.createdAt.getD now) ++ "h"

def orphanArgs (reasonCode reasonMessage : String) : Orders.TransitionArgs where
  reasonCode := some reasonCode
  reasonMessage := some reasonMessage
  actorType := "system"
  actorId := "eod_orphan_cleanup"

def expirePending (settings : Settings) (cutoff now : Time) :
    List OrderRequestEntity → Nat → Code Nat
  | [], expired => return expired
  | order :: rest, expired => do
    let orphan ← isEodOrphan order cutoff
    if orphan then
      let done ← transitioned settings order .expired
        (orphanArgs "eod_orphan_cleanup_no_broker_order" (orphanMessage settings now order))
      expirePending settings cutoff now rest (expired + done.toNat)
    else expirePending settings cutoff now rest expired

def runStatusText : Option RunStatus → String
  | none => "none"
  | some .started => "started"
  | some .resolved => "resolved"
  | some .halted => "halted"
  | some .reflectionFailed => "reflection_failed"
  | some .failed => "failed"

/-- A status that cannot be read counts as none. -/
def reconciliationStatus (orderRequestId : UUID) : Code (Option RunStatus) :=
  ((await (.reconciliationsGetLatestStatusByOrder orderRequestId)).bind orRaise).handle
    fun _ => .ret none

/-- The status of the run chooses the reason and nothing else. -/
def reconcileArgs (settings : Settings) (now : Time) (order : OrderRequestEntity)
    (recStatus : Option RunStatus) : Orders.TransitionArgs :=
  orphanArgs
    (if recStatus = some .failed then "eod_orphan_cleanup_failed_reconciliation"
     else "eod_orphan_cleanup_no_reconciliation")
    (orphanMessage settings now order ++ ", reconciliation_status=" ++ runStatusText recStatus)

def expireReconcile (settings : Settings) (cutoff now : Time) :
    List OrderRequestEntity → Nat → Code Nat
  | [], expired => return expired
  | order :: rest, expired => do
    let orphan ← isEodOrphan order cutoff
    if orphan then
      let recStatus ← reconciliationStatus order.orderRequestId
      let done ← transitioned settings order .expired (reconcileArgs settings now order recStatus)
      expireReconcile settings cutoff now rest (expired + done.toNat)
    else expireReconcile settings cutoff now rest expired

/-- The numbers of pending and of reconciliation orders expired. -/
def expireEodOrphanOrders (settings : Settings) (ageThreshold : Time) : Code (Nat × Nat) := do
  let now ← now
  let cutoff := now - ageThreshold
  let listed ← await (.ordersList [.pendingSubmit] 500)
  let pendingOrders ← orRaise listed
  let expiredPending ← expirePending settings cutoff now pendingOrders 0
  let listed ← await (.ordersList [.reconcileRequired] 500)
  let reconcileOrders ← orRaise listed
  let expiredReconcile ← expireReconcile settings cutoff now reconcileOrders 0
  return (expiredPending, expiredReconcile)

def pendingSubmitStaleSeconds : Int := 1800

def staleArgs (settings : Settings) (order : OrderRequestEntity) (createdAt : Time) :
    Orders.TransitionArgs where
  reasonCode := some "submission_failed_no_broker_id"
  reasonMessage := some ("Stale PENDING_SUBMIT rejected after 1800s: created_at=" ++
    settings.isoformat createdAt ++ ", side=" ++ order.side.value)
  actorType := "system"
  actorId := "post_submit_sync"

def rejectStale (settings : Settings) (cutoff : Time) :
    List OrderRequestEntity → List OrderRequestEntity → Code (List OrderRequestEntity)
  | [], rejected => return rejected
  | order :: rest, rejected =>
    match order.createdAt with
    | none => rejectStale settings cutoff rest rejected
    | some createdAt =>
      if order.side ≠ .sell ∨ cutoff < createdAt then rejectStale settings cutoff rest rejected
      else do
        let listed ← await (.brokerOrdersListByOrderRequest order.orderRequestId)
        let brokerOrders ← orRaise listed
        if brokerOrders.any (·.brokerNativeOrderId.isSome) then
          rejectStale settings cutoff rest rejected
        else
          let done ← transitioned settings order .rejected (staleArgs settings order createdAt)
          rejectStale settings cutoff rest (if done then rejected ++ [order] else rejected)

def rejectStalePendingSubmitOrders (settings : Settings) : Code (List OrderRequestEntity) := do
  let now ← now
  let cutoff := now - pendingSubmitStaleSeconds * 1000000
  let listed ← await (.ordersList [.pendingSubmit] 500)
  let pendingOrders ← orRaise listed
  rejectStale settings cutoff pendingOrders []

inductive Job where
  | expireEodOrphanOrders (ageThreshold : Time)
  | rejectStalePendingSubmitOrders
  | submitOrderToBroker (order : OrderRequestEntity) (request : SubmitOrderRequest)
      (actorType actorId : String)

def Job.code (settings : Settings) : Job → Code Unit
  | .expireEodOrphanOrders ageThreshold =>
    (Cleanup.expireEodOrphanOrders settings ageThreshold).bind fun _ => .ret ()
  | .rejectStalePendingSubmitOrders =>
    (Cleanup.rejectStalePendingSubmitOrders settings).bind fun _ => .ret ()
  | .submitOrderToBroker order request actorType actorId =>
    (ofOrders (Orders.submitOrderToBroker settings.service order
      (Orders.remoteBroker order.orderRequestId) request actorType actorId)).bind fun _ => .ret ()

/-- The state and the jobs on it. A job that is not stepped any more has stopped for good. -/
abbrev Jobs := Pool Op Reply PyError Unit Job State

abbrev JobEvent := Pool.Event Job Choice

abbrev Jobs.step (settings : Settings) (w : Jobs) (e : JobEvent) : Jobs :=
  Pool.step exec (Job.code settings) w e

end AgentTrading.Sync.Cleanup
