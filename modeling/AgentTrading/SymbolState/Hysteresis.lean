import AgentTrading.Kis.Json
import AgentTrading.Library.Fallback
import AgentTrading.RealizedPnl.Engine

/-! `evaluate_symbol_state_buy_hysteresis`: whether a BUY may be placed while the cooldown after
an exit lasts. -/
namespace AgentTrading.SymbolState
open Domain Kis Library.Fallback RealizedPnl

/-- A time with its zone, or one without. -/
inductive DateTime where
  | aware (t : Time)
  | naive (t : Time)
  deriving DecidableEq

/-- `t > now`, which raises for a time without a zone. -/
def DateTime.isAfter (now : Time) : DateTime → Except PyError Bool
  | aware t => .ok (now < t)
  | naive _ => .error (.other "TypeError")

/-- What a metadata mapping holds: the values of JSON, and the objects written next to them. -/
inductive Value where
  | json (j : Json)
  | decimal (d : Dec)
  | datetime (t : DateTime)
  | dict (items : List (String × Value))

abbrev Metadata := List (String × Value)

namespace Value

def truthy : Value → Bool
  | json j => j.truthy
  | decimal (.finite v) => v ≠ 0
  | decimal _ => true
  | datetime _ => true
  | dict items => !items.isEmpty

def asDict : Value → Option Metadata
  | json (.obj items) => some (items.map fun (key, j) => (key, json j))
  | dict items => some items
  | _ => none

def decimalOrNone : Value → Option Dec
  | json j => if j.isNull || j.isText "" then none else (parseDecimal j.text).toOption
  | decimal d => some d
  -- the text of a time or of a mapping is no numeral
  | datetime _ => none
  | dict _ => none

end Value

def Metadata.get (m : Metadata) (key : String) : Value := (m.lookup key).getD (.json .null)

structure SymbolTradeStateEntity where
  accountId : UUID
  instrumentId : UUID
  state : String
  positionQuantity : ℚ := 0
  lastReduceAt : Option Time := none
  lastExitAt : Option Time := none
  reentryCooldownUntil : Option Time := none
  lastSignalFeatureSnapshotId : Option UUID := none
  lastReasonCodes : List String := []
  metadataJson : Metadata := []
  updatedAt : Option Time := none

structure ExternalEventEntity where
  publishedAt : Time
  severity : String := "medium"
  direction : String := "neutral"
  metadata : Dict := []

/-- What the text of a detail is the text of. -/
inductive Detail where
  | null
  | text (s : String)
  | isoformat (t : DateTime)
  | decimal (d : Dec)
  deriving DecidableEq

abbrev Details := List (String × Detail)

def Details.set : Details → String → Detail → Details
  | [], key, value => [(key, value)]
  | (k, v) :: details, key, value =>
    if k = key then (k, value) :: details else (k, v) :: Details.set details key value

def Details.withFlag (details : Details) (key : String) (value : Bool) : Details :=
  details.set key (.text (if value then "true" else "false"))

structure ReverseTradeHysteresisDecision where
  blocked : Bool
  stopReason : Option String := none
  detailCode : Option String := none
  details : Details
  deriving DecidableEq

def pendingSymbolStates : List String := ["entry_pending", "reduce_pending", "exit_pending"]

/-- Times are microseconds. -/
def noveltyLookback : Int := 24 * 60 * microsPerMinute

def reentryEdgeImprovementBps : ℚ := 10

/-! The times of the policy payload. `fromisoformat` reads the time a text stands for. -/

section Policy

variable (fromisoformat : String → Option DateTime)

def parseDatetimeOrNone : Value → Option DateTime
  | .datetime t => some t
  | .json (.str s) => if strip s.toList = [] then none else fromisoformat s
  | _ => none

def resolvePolicyTimestamp (policyPayload : Metadata) (key fallbackKey : String) :
    Option DateTime :=
  (parseDatetimeOrNone fromisoformat (policyPayload.get key)).or
    (parseDatetimeOrNone fromisoformat (policyPayload.get fallbackKey))

namespace SymbolTradeStateEntity

variable (s : SymbolTradeStateEntity)

def policyPayload : Metadata := ((s.metadataJson.get "holding_profile_policy").asDict).getD []

def earliestReentryAt : Option DateTime :=
  (resolvePolicyTimestamp fromisoformat s.policyPayload "earliest_reentry_at"
    "reentry_cooldown_until").or (s.reentryCooldownUntil.map .aware)

def cooldownActive (nowUtc : Time) : Except PyError Bool :=
  match s.earliestReentryAt fromisoformat with
  | some earliest => earliest.isAfter nowUtc
  | none => .ok false

end SymbolTradeStateEntity

end Policy

/-- `a >= b`. -/
def atLeast (a b : Dec) : Except PyError Bool := return !(← a.less b)

/-- `last + _REENTRY_EDGE_IMPROVEMENT_BPS`. -/
def improvedEdge : Dec → Except PyError Dec
  | .finite v => .ok (.finite (decimalContext (v + reentryEdgeImprovementBps)))
  | .infinity negative => .ok (.infinity negative)
  | .nan => .ok .nan
  | .snan => .error (.other "InvalidOperation")

/-- The edge is at least 10 bps above the last one. -/
def improves (current last : Dec) : Except PyError Bool := do
  atLeast current (← improvedEdge last)

namespace SymbolTradeStateEntity

variable (s : SymbolTradeStateEntity)

/-- The places the edge of the last exit is looked up in. -/
def exitEdge : Value := s.policyPayload.get "last_exit_edge_after_cost_bps"

def otherEdges : List Value :=
  [s.policyPayload.get "last_reduce_edge_after_cost_bps",
    s.metadataJson.get "last_exit_edge_after_cost_bps",
    s.metadataJson.get "last_reduce_edge_after_cost_bps"]

def lastExitEdgeAfterCostBps : Option Dec :=
  (orElse Value.truthy s.exitEdge s.otherEdges).decimalOrNone

def snapshotText : Option String := s.lastSignalFeatureSnapshotId.map UUID.text

/-- `last_exit_at or last_reduce_at`. -/
def referenceTime : Option Time := s.lastExitAt.or s.lastReduceAt

end SymbolTradeStateEntity

/-- `str(value or fallback or "").strip().lower()`. -/
def normalized (value : Json) (fallback : String) : String :=
  lower (String.ofList (strip (if value.truthy then value.text else fallback).toList))

def eventSupportsReentry (event : ExternalEventEntity) : Bool :=
  let novelty := normalized (event.metadata.get "novelty" .null) event.severity
  let supportsEntry := normalized (event.metadata.get "supports_entry" .null) "" = "true"
  let positiveDirection :=
    normalized (event.metadata.get "impact_direction" .null) event.direction = "positive"
  novelty ∈ ["high", "medium", "surprising", "fresh"] && (supportsEntry || positiveDirection)

/-- `clock` is the time the service reads for itself. -/
def computeEventNoveltyPassed (clock : Time) (recentEvents : List ExternalEventEntity)
    (referenceTime : Option Time) : Bool × String :=
  let cutoff := referenceTime.getD (clock - noveltyLookback)
  match recentEvents.filter fun event =>
      cutoff ≤ event.publishedAt && eventSupportsReentry event with
  | event :: _ =>
    let severity := if event.severity = "" then "medium" else event.severity
    let novelty := normalized (event.metadata.get "novelty" .null) severity
    (true, if novelty = "" then "medium" else novelty)
  | [] => (false, "none")

structure BuyCall where
  nowUtc : Time
  clock : Time
  currentSignalFeatureSnapshotId : Option String
  currentEdgeAfterCostBps : Option Dec := none
  recentEvents : List ExternalEventEntity := []
  details : Details := []

def blockedBy (detailCode : String) (details : Details) : ReverseTradeHysteresisDecision where
  blocked := true
  stopReason := some "ai_override_gate"
  detailCode := some detailCode
  details := details

@[simp] theorem blockedBy_blocked (detailCode : String) (details : Details) :
    (blockedBy detailCode details).blocked = true := rfl

/-- The improvement against an edge that was found. -/
def edgeImproved : Option Dec → Option Dec → Except PyError Bool
  | some current, some last => improves current last
  | _, _ => .ok false

def evaluateSymbolStateBuyHysteresis (fromisoformat : String → Option DateTime)
    (s : SymbolTradeStateEntity) (call : BuyCall) :
    Except PyError ReverseTradeHysteresisDecision := do
  let current := call.currentSignalFeatureSnapshotId
  let edge := call.currentEdgeAfterCostBps
  let details := call.details.set "symbol_state" (.text s.state)
    |>.set "earliest_reentry_at"
      (((s.earliestReentryAt fromisoformat).map .isoformat).getD .null)
    |>.set "last_signal_feature_snapshot_id" ((s.snapshotText.map .text).getD .null)
    |>.set "current_signal_feature_snapshot_id" ((current.map .text).getD .null)
    |>.set "current_edge_after_cost_bps" ((edge.map .decimal).getD .null)
  if s.state ∈ pendingSymbolStates then
    return blockedBy "ai_override_state_pending_conflict" details
  let cooldownActive ← s.cooldownActive fromisoformat call.nowUtc
  let details := details.withFlag "reentry_cooldown_active" cooldownActive
  if !cooldownActive then return { blocked := false, details := details }
  let known := current.isSome && s.snapshotText.isSome
  let details := details.withFlag "reentry_signal_feature_snapshot_unchanged"
      (known && current = s.snapshotText)
    |>.withFlag "reentry_signal_feature_snapshot_changed" (known && current ≠ s.snapshotText)
  if known && current = s.snapshotText then
    return blockedBy "ai_override_reverse_same_signal_feature_blocked" details
  if !(known && current ≠ s.snapshotText) then
    return blockedBy "ai_override_reverse_feature_change_blocked" details
  let lastExitEdge := s.lastExitEdgeAfterCostBps
  let improved ← edgeImproved edge lastExitEdge
  let details := details.set "last_exit_edge_after_cost_bps"
      ((lastExitEdge.map .decimal).getD .null)
    |>.withFlag "reentry_edge_improvement_passed" improved
  -- an exit edge that was not found is taken to be improved on
  let unrecorded := edge.isSome && lastExitEdge.isNone
  let details :=
    if unrecorded then details.withFlag "reentry_edge_improvement_passed" true else details
  let (noveltyPassed, novelty) :=
    computeEventNoveltyPassed call.clock call.recentEvents s.referenceTime
  let details := details.withFlag "reentry_event_novelty_passed" noveltyPassed
    |>.set "reentry_event_novelty" (.text novelty)
  if !noveltyPassed then
    return blockedBy "ai_override_reverse_event_novelty_blocked" details
  if !(improved || unrecorded) then
    return blockedBy "ai_override_reverse_edge_regression_blocked" details
  return { blocked := false, details := details }

end AgentTrading.SymbolState
