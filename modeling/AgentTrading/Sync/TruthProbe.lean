import AgentTrading.Sync.Operations

/-! Where the synchronisation finds the truth about an order: linked settlement rows, the
broker's record, and positions before and after the order. -/
namespace AgentTrading.Sync
open Domain Repositories Library

inductive TruthProbeReason where
  | paperEmpty
  | qtyMismatch
  | positionConflict
  | buyPositionFill
  | fillSnapshot
  | fillSnapshotIncomplete
  | multiOdno
  | apiFailure
  | noOdno
  | notTerminal
  deriving DecidableEq, Repr

def TruthProbeReason.value : TruthProbeReason → String
  | paperEmpty => "paper_empty"
  | qtyMismatch => "qty_mismatch"
  | positionConflict => "position_conflict"
  | buyPositionFill => "buy_position_fill"
  | fillSnapshot => "fill_snapshot"
  | fillSnapshotIncomplete => "fill_snapshot_incomplete"
  | multiOdno => "multi_odno"
  | apiFailure => "api_failure"
  | noOdno => "no_odno"
  | notTerminal => "not_terminal"

structure LinkedFillSnapshotTruth where
  filledQuantity : ℚ
  source : String
  deriving DecidableEq

/-- The largest quantity seen under each execution number, in the order of first sight. -/
def noteFillId (seen : List (String × ℚ)) (fillId : String) (quantity : ℚ) : List (String × ℚ) :=
  match seen with
  | [] => [(fillId, quantity)]
  | (id, previous) :: rest =>
    if id = fillId then (id, if previous < quantity then quantity else previous) :: rest
    else (id, previous) :: noteFillId rest fillId quantity

def fillIdQuantities (positive : List BrokerFillSnapshotEntity) : List (String × ℚ) :=
  positive.foldl (fun seen snapshot =>
    match Fills.fillIdOf snapshot.brokerFillId with
    | some id => noteFillId seen id snapshot.filledQuantity
    | none => seen) []

/-- `_resolve_linked_fill_snapshot_quantity`: the rows are read as executions only when each
carries a number, there are several, and their sum is within the order. -/
def resolveLinkedFillSnapshotQuantity (order : OrderRequestEntity)
    (snapshots : List BrokerFillSnapshotEntity) : Option LinkedFillSnapshotTruth :=
  let positive := snapshots.filter fun snapshot => 0 < snapshot.filledQuantity
  match positive with
  | [] => none
  | first :: rest =>
    let maxFilled := rest.foldl (fun best s => max best s.filledQuantity) first.filledQuantity
    let quantities := fillIdQuantities positive
    let summed := (quantities.map (·.2)).sum
    if (∀ s ∈ positive, (Fills.fillIdOf s.brokerFillId).isSome) ∧ 1 < quantities.length ∧
        summed ≤ order.requestedQuantity then
      some ⟨summed, "fill_snapshot_fill_id_max_sum"⟩
    else some ⟨maxFilled, "fill_snapshot_cumulative_max"⟩

def inferLinkedFillSnapshotTruth (order : OrderRequestEntity)
    (snapshots : List BrokerFillSnapshotEntity) : Option OrderStatus :=
  match resolveLinkedFillSnapshotQuantity order snapshots with
  | none => none
  | some resolved =>
    if resolved.filledQuantity ≤ 0 then none
    else if order.requestedQuantity ≤ resolved.filledQuantity then some .filled
    else some .partiallyFilled

def listLinkedFillSnapshots (order : OrderRequestEntity) :
    Code (List BrokerFillSnapshotEntity) := do
  let rows ← await (.brokerFillSnapshotsListRecent 50 order.orderRequestId)
  orRaise rows

/-- `x or y` on times. -/
def orderTime (order : OrderRequestEntity) : Option Time := order.submittedAt.or order.createdAt

def statusOfDelta (order : OrderRequestEntity) (delta : ℚ) : OrderStatus :=
  if order.requestedQuantity ≤ delta then .filled else .partiallyFilled

def buyCohort (order : OrderRequestEntity) (placedAt : Time)
    (overlapping : List OrderRequestEntity) :
    List OrderRequestEntity :=
  overlapping.filter fun candidate =>
    candidate.instrumentId = order.instrumentId ∧ candidate.side = .buy ∧
      candidate.createdAt.any (placedAt ≤ ·)

/-- What a positive position delta says about a buy among the orders that may share it. -/
def inferFromCohort (order : OrderRequestEntity) (cohort : List OrderRequestEntity) (delta : ℚ) :
    Option OrderStatus :=
  if 1 < cohort.length then
    if delta = (cohort.map (·.requestedQuantity)).sum then some .filled else none
  else some (statusOfDelta order delta)

def inferBuyAt (order : OrderRequestEntity) (placedAt : Time) : Code (Option OrderStatus) := do
  let before ← await (.positionSnapshotsLatestBefore order.accountId order.instrumentId
      (some placedAt))
  let pre ← orRaise before
  let after ← await (.positionSnapshotsEarliestAfter order.accountId order.instrumentId placedAt)
  let post ← orRaise after
  match post with
  | none => return none
  | some post =>
    let listed ← await (.ordersList ⟨order.accountId, placedAt, post.snapshotAt, 100⟩)
    let overlapping ← orRaise listed
    let delta := post.quantity - (pre.map (·.quantity)).getD 0
    if delta ≤ 0 then return none
    else return inferFromCohort order (buyCohort order placedAt overlapping) delta

def inferBuyOrderFillViaPositionSafe (order : OrderRequestEntity) : Code (Option OrderStatus) :=
  if order.side ≠ .buy then return none
  else
    match orderTime order with
    | none => return none
    | some placedAt => inferBuyAt order placedAt

/-- `_get_latest_position_qty`: a failing read counts as no position. -/
def getLatestPositionQty (accountId instrumentId : UUID) : Code (Option ℚ) := do
  let listed ← await (.positionSnapshotsListLatest accountId)
  match listed with
  | .error _ => return none
  | .ok snapshots =>
    return (snapshots.find? fun snap => snap.instrumentId = instrumentId).map (·.quantity)

/-- The refresh is asked for only where a callback is given; its failures are logged. -/
def refreshSnapshots (given : Bool) (accountId : UUID) : Code Bool :=
  if given then do
    let outcome ← await (.snapshotRefresh accountId)
    return outcome.isOk
  else return false

/-- The retries after a delta of zero, `attempt` of `maxRetries` next. -/
def retrySellDelta (order : OrderRequestEntity) (refresh : Bool) (preQty : ℚ) :
    Nat → Code (Option OrderStatus)
  | 0 => return none
  | remaining + 1 => do
    let _ ← refreshSnapshots refresh order.accountId
    let current ← getLatestPositionQty order.accountId order.instrumentId
    let delta := preQty - current.getD 0
    if 0 < delta then return some (statusOfDelta order delta)
    else do
      backoff remaining
      retrySellDelta order refresh preQty remaining
where
  backoff : Nat → Code Unit
    | 0 => return ()
    | _ + 1 => sleep

def inferSellOrderFillViaPosition (order : OrderRequestEntity) (brokerOrder : BrokerOrderEntity)
    (refresh : Bool) : Code (Option OrderStatus) :=
  if order.side ≠ .sell then return none
  else do
    let before ← await (.positionSnapshotsLatestBefore order.accountId order.instrumentId
      brokerOrder.createdAt)
    match before with
    | .error _ => return none
    | .ok none => return none
    | .ok (some pre) =>
      let current ← getLatestPositionQty order.accountId order.instrumentId
      let delta := pre.quantity - current.getD 0
      if 0 < delta then return some (statusOfDelta order delta)
      else retrySellDelta order refresh pre.quantity 2

/-- `_infer_truth_probe_reason`: what the broker's texts hint at. -/
def inferTruthProbeReason (result : OrderStatusResult) : TruthProbeReason :=
  let text :=
    (lower (orText result.rawCode "") ++ " " ++ lower (orText result.rawMessage "")).toList
  let mentions (part : String) : Bool := containsText text part.toList
  if mentions "multi" || mentions "duplicate" then .multiOdno
  else if mentions "empty" || mentions "no data" then .paperEmpty
  else if mentions "ccld_qty=0" || mentions "ccld_qty 0" then .positionConflict
  else if mentions "qty" && (mentions "mismatch" || mentions "diff") then .qtyMismatch
  else .notTerminal

abbrev Probe := Option OrderStatus × Option TruthProbeReason

/-- What follows a reply of the broker that is not a clear end. -/
def probeOpen (order : OrderRequestEntity) (linked : List BrokerFillSnapshotEntity)
    (result : OrderStatusResult) : Code Probe :=
  if order.side = .buy ∧ linked = [] then do
    let inferred ← inferBuyOrderFillViaPositionSafe order
    match inferred with
    | some status => return (some status, some .buyPositionFill)
    | none => return (none, some (inferTruthProbeReason result))
  else if order.side = .buy then return (none, some .fillSnapshotIncomplete)
  else return (none, some (inferTruthProbeReason result))

/-- A quantity other than the requested one is reported with the status. -/
def probeClosed (order : OrderRequestEntity) (result : OrderStatusResult) : Probe :=
  match result.filledQuantity with
  | some filled =>
    if filled ≠ order.requestedQuantity then (some result.status, some .qtyMismatch)
    else (some result.status, none)
  | none => (some result.status, none)

/-- The broker's record of the order; any exception counts as a failed inquiry. -/
def probeBroker (order : OrderRequestEntity) (brokerOrder : BrokerOrderEntity)
    (linked : List BrokerFillSnapshotEntity) : Code Probe := do
  let instrument ← await (.instrumentsGet order.instrumentId)
  let symbol := match instrument with
    | .ok symbol => symbol
    | .error _ => none
  let inquiry : Code Probe := do
    let reply ← await (.brokerResolveUnknownState order.clientOrderId
      brokerOrder.brokerNativeOrderId symbol order.side (orderTime order))
    let result ← orRaise reply
    if result.status = .filled ∨ result.status = .expired then return probeClosed order result
    else probeOpen order linked result
  inquiry.handle fun _ => return (none, some .apiFailure)

def tryTruthProbe (order : OrderRequestEntity) (brokerOrder : BrokerOrderEntity) : Code Probe :=
  if truthy brokerOrder.brokerNativeOrderId then do
    let linked ← listLinkedFillSnapshots order
    match inferLinkedFillSnapshotTruth order linked with
    | some status => return (some status, some .fillSnapshot)
    | none => probeBroker order brokerOrder linked
  else return (none, some .noOdno)

def fillSnapshotReason : String := "truth_probe_fill_snapshot"

/-- `{broker_native_order_id}` in a text. -/
def nativeText (brokerOrder : BrokerOrderEntity) : String :=
  brokerOrder.brokerNativeOrderId.getD "None"

/-- `_build_truth_probe_reason_message`; `text` renders a decimal. -/
def buildTruthProbeReasonMessage (text : ℚ → String) (order : OrderRequestEntity)
    (brokerOrder : BrokerOrderEntity) (status : OrderStatus) :
    Option TruthProbeReason → Code (String × String)
  | none => return ("truth_probe_resolved",
      "Truth probe resolved via broker record: odno=" ++ nativeText brokerOrder ++ ", status=" ++
        status.value)
  | some .fillSnapshot => do
    let linked ← listLinkedFillSnapshots order
    match resolveLinkedFillSnapshotQuantity order linked with
    | some resolved =>
      return (fillSnapshotReason,
        "Truth probe resolved via linked fill snapshot: status=" ++ status.value ++ ", filled=" ++
          text resolved.filledQuantity ++ ", requested=" ++ text order.requestedQuantity ++
          ", remaining=" ++ text (max (order.requestedQuantity - resolved.filledQuantity) 0) ++
          ", source=" ++ resolved.source ++ ", odno=" ++ nativeText brokerOrder)
    | none =>
      return (fillSnapshotReason,
        "Truth probe resolved via linked fill snapshot: status=" ++ status.value ++ ", odno=" ++
          nativeText brokerOrder)
  | some .buyPositionFill => return ("truth_probe_buy_position_fill",
      "Truth probe exact ODNO matched but paper fields were incomplete; " ++
        "position evidence resolved status=" ++ status.value ++ ", odno=" ++ nativeText brokerOrder)
  | some reason => return ("truth_probe_resolved",
      "Truth probe resolved status=" ++ status.value ++ " (reason=" ++ reason.value ++ ", odno=" ++
        nativeText brokerOrder ++ ")")

/-- `_build_pending_truth_probe_reason_message` for rows that resolve nothing yet. -/
def buildPendingTruthProbeReasonMessage (order : OrderRequestEntity)
    (brokerOrder : BrokerOrderEntity) : Code (String × String) := do
  let snapshots ← listLinkedFillSnapshots order
  let positive := snapshots.filter fun snapshot => 0 < snapshot.filledQuantity
  return ("truth_probe_fill_snapshot_incomplete",
    "Linked fill snapshots exist but do not yet resolve a positive filled quantity; " ++
      "snapshot_rows=" ++ toString snapshots.length ++ ", positive_rows=" ++
      toString positive.length ++ ", odno=" ++ nativeText brokerOrder ++
      ". Awaiting next fill sync / broker status convergence.")

end AgentTrading.Sync
