import AgentTrading.Kis.Json
import AgentTrading.Orders.StaleCopies

/-! The real-time event loop: fill notifications (H0STCNI0) of the WebSocket and the gap fills
that run beside them. Messages are handled one at a time. A handler reads the set of gap fills
once, and the events a gap fill stores have keys of another kind, so a notification stands at
the point where it reads that set. -/
namespace AgentTrading.EventLoop
open Domain Repositories Library Orders Kis

structure ExternalEventEntity where
  eventId : UUID
  eventType : String
  sourceName : String
  publishedAt : Time
  sourceEventId : Option String
  symbol : Option String
  ingestedAt : Time
  dedupKeyHash : Option String := none
  deriving DecidableEq

/-- The `data` of a fill notification, with the defaults of its keys. -/
structure FillNotification where
  brokerOrderId : String := ""
  stockCode : String := ""
  filledQty : String := "0"
  filledPrice : String := "0"
  filledTime : String := ""
  orderQty : String := "0"
  deriving DecidableEq

/-- A fill the broker reports to a gap fill, with the text of its time. -/
structure ReportedFill where
  brokerOrderId : String
  fillTimestamp : Time
  timestampText : String

structure State where
  store : Store
  externalEvents : List ExternalEventEntity := []
  fillEvents : List FillEventEntity := []
  gapFillInProgress : List String := []

def brokerName : String := "koreainvestment"

def microsPerDay : Int := 86400000000

/-- `_parse_time`: the time of day in UTC, on the day of `now`. -/
def parseTime (now : Time) (text : String) : Option Time :=
  let part (i : Nat) : Except PyError Int :=
    parseInt (String.ofList ((text.toList.drop i).take 2))
  if text.toList.length < 6 then none
  else
    match part 0, part 2, part 4 with
    | .ok hour, .ok minute, .ok second =>
      if (0 ≤ hour ∧ hour < 24) ∧ (0 ≤ minute ∧ minute < 60) ∧ (0 ≤ second ∧ second < 60) then
        some (now - now % microsPerDay + ((hour * 60 + minute) * 60 + second) * 1000000)
      else none
    | _, _, _ => none

/-- `_safe_decimal`. What a malformed text raises is not among the exceptions it catches; the
special values stand for no amount and are treated alike. -/
def safeDecimal (value : String) : Except PyError ℚ :=
  match parseDecimal value with
  | .ok (.finite v) => .ok v
  | .ok _ => .error (.other "InvalidOperation")
  | .error e => .error e

def resolveFillStatus (fillQty orderQty : ℚ) : OrderStatus :=
  if 0 < orderQty ∧ orderQty ≤ fillQty then .filled else .partiallyFilled

/-- The key under which a notification is remembered. -/
def dedupKey (brokerOrderId filledTime : String) : String :=
  "fill:" ++ brokerOrderId ++ ":" ++ filledTime

def FillNotification.dedupKey (data : FillNotification) : String :=
  EventLoop.dedupKey data.brokerOrderId data.filledTime

namespace State

variable (s : State)

def findByDedupKey (key : String) : Option ExternalEventEntity :=
  s.externalEvents.find? fun item => item.dedupKeyHash = some key

def drawId : State := { s with store := { s.store with nextId := s.store.nextId + 1 } }

def addExternalEvent (event : UUID → ExternalEventEntity) : State :=
  { s.drawId with externalEvents := s.externalEvents ++ [event s.store.nextId] }

def addFill (fill : UUID → FillEventEntity) : State :=
  { s.drawId with fillEvents := s.fillEvents ++ [fill s.store.nextId] }

def listByBrokerOrder (brokerOrderId : UUID) : List FillEventEntity :=
  s.fillEvents.filter fun item => item.brokerOrderId = brokerOrderId

def getByNativeOrderId (nativeOrderId : String) : Option BrokerOrderEntity :=
  s.store.brokerOrders.find? fun item =>
    item.brokerName = brokerName ∧ item.brokerNativeOrderId = some nativeOrderId

def resolveOrderFromNativeId (nativeOrderId : String) : Option OrderRequestEntity :=
  match s.getByNativeOrderId nativeOrderId with
  | none => none
  | some brokerOrder => s.store.orders brokerOrder.orderRequestId

end State

/-- The event stored for a notification before anything else is done with it. -/
def fillNotificationEvent (now : Time) (data : FillNotification) (id : UUID) :
    ExternalEventEntity where
  eventId := id
  eventType := "fill_notification"
  sourceName := "broker_ws"
  publishedAt := (parseTime now data.filledTime).getD now
  sourceEventId := some ("H0STCNI0:" ++ data.brokerOrderId ++ ":" ++ data.filledTime)
  symbol := some data.stockCode
  ingestedAt := now
  dedupKeyHash := some data.dedupKey

/-- The fill is stored under the identifier of the order, not of the broker order. -/
def fillEventOf (now : Time) (data : FillNotification) (order : OrderRequestEntity)
    (quantity price : ℚ) (id : UUID) : FillEventEntity where
  fillEventId := id
  brokerOrderId := order.orderRequestId
  fillTimestamp := (parseTime now data.filledTime).getD now
  fillPrice := price
  fillQuantity := quantity
  sourceChannel := "websocket"
  createdAt := some now

def fillTransition (data : FillNotification) : TransitionArgs where
  reasonCode := some "WS_FILL"
  reasonMessage := some ("WS fill notification: filled_qty=" ++ data.filledQty ++
    ", filled_price=" ++ data.filledPrice)
  actorId := "event_loop"

/-- The transition that follows a stored fill; its failure is logged. -/
def routeStateChange (service : Bool) (choices : Nat → Orders.Choice) (data : FillNotification)
    (order : OrderRequestEntity) (fillQty : ℚ) (s : State) : State :=
  if order.status = .reconcileRequired then s
  else
    match safeDecimal data.orderQty with
    | .error _ => s
    | .ok orderQty =>
      let transition :=
        transitionTo service order (resolveFillStatus fillQty orderQty) (fillTransition data)
      { s with store := (transition.run (Program.drawing exec) (choices, s.store)).2.2 }

/-- What follows the stored event of a notification outside a gap fill. An exception ends the
handling of the message. -/
def applyFill (service : Bool) (now : Time) (choices : Nat → Orders.Choice)
    (data : FillNotification) (s : State) : State :=
  match s.resolveOrderFromNativeId data.brokerOrderId with
  | none => s
  | some order =>
    match safeDecimal data.filledQty, safeDecimal data.filledPrice with
    | .ok fillQty, .ok fillPrice =>
      routeStateChange service choices data order fillQty
        (s.addFill (fillEventOf now data order fillQty fillPrice))
    | _, _ => s

def handleFillNotification (service : Bool) (now : Time) (choices : Nat → Orders.Choice)
    (data : FillNotification) (s : State) : State :=
  if data.brokerOrderId = "" then s
  else if (s.findByDedupKey data.dedupKey).isSome then s
  else
    let s := s.addExternalEvent (fillNotificationEvent now data)
    if data.stockCode ∈ s.gapFillInProgress then s
    else applyFill service now choices data s

/-- `trigger_gap_fill` up to the request to the broker. -/
def startGapFill (symbol : String) (s : State) : State :=
  { s with gapFillInProgress := s.gapFillInProgress.insert symbol }

def gapFillEvent (symbol : String) (now : Time) (fill : ReportedFill) (id : UUID) :
    ExternalEventEntity where
  eventId := id
  eventType := "gap_fill_fill"
  sourceName := "reconciliation"
  publishedAt := fill.fillTimestamp
  sourceEventId := some ("gap_fill:" ++ symbol ++ ":" ++ fill.brokerOrderId)
  symbol := some symbol
  ingestedAt := now
  dedupKeyHash := some ("gap_fill:" ++ fill.brokerOrderId ++ ":" ++ fill.timestampText)

/-- The rest of `trigger_gap_fill`, with the fills stored before an exception. It stores no fill
event. -/
def finishGapFill (symbol : String) (now : Time) (fills : List ReportedFill) (s : State) : State :=
  let s := fills.foldl (fun s fill => s.addExternalEvent (gapFillEvent symbol now fill)) s
  { s with gapFillInProgress := s.gapFillInProgress.filter (· ≠ symbol) }

end AgentTrading.EventLoop
