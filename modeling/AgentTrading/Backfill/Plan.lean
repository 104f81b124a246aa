import Mathlib.Data.List.Sort
import Mathlib.Data.Prod.Lex
import AgentTrading.Backfill.FeeTaxPolicy
import AgentTrading.Fills.Incremental
import AgentTrading.Kis.Json

/-! `build_backfill_plan`: from the snapshots of cumulative fills to the synthetic fills of one
account and instrument. The reads of one call are its input. -/
namespace AgentTrading.Backfill
open Domain RealizedPnl Fills Kis

inductive BackfillExclusionReason where
  | noFilledOrdersInWindow
  | zeroCrossingNotFound
  | gapOrderBeforeWindow
  | snapshotMissing
  | cancelFlagPresent
  | negativeDelta
  | unpriceableDelta
  | finalQuantityMismatch
  | lineageInconsistent
  deriving DecidableEq

inductive BackfillAnchorType where
  | zeroCrossing
  | initialEntry
  deriving DecidableEq

structure BrokerFillSnapshotEntity where
  brokerFillSnapshotId : UUID
  brokerNativeOrderId : String
  symbol : String
  filledQuantity : ℚ
  fillPrice : ℚ
  brokerFillId : Option String := none
  cancelYn : Option String := none
  fillTimestamp : Option Time := none
  updatedAt : Option Time := none
  deriving DecidableEq

structure PositionSnapshotEntity where
  accountId : UUID
  instrumentId : UUID
  quantity : ℚ
  snapshotAt : Time
  deriving DecidableEq

structure SyntheticFillCandidate where
  orderRequestId : UUID
  brokerOrderId : UUID
  brokerNativeOrderId : String
  symbol : String
  side : OrderSide
  fillQuantity : ℚ
  fillPrice : ℚ
  fillTimestamp : Time
  brokerFillId : Option String
  sourceBrokerFillSnapshotId : UUID
  fee : ℚ := 0
  tax : ℚ := 0
  feeTaxSource : FeeTaxSource := .assumedZero
  deriving DecidableEq

structure OrderBackfillDetail where
  orderRequestId : UUID
  side : OrderSide
  requestedQuantity : ℚ
  snapshotCount : Nat
  finalCumulativeQuantity : ℚ
  candidates : List SyntheticFillCandidate
  deriving DecidableEq

structure BackfillPlan where
  accountId : UUID
  instrumentId : UUID
  startDate : Int
  eligible : Bool
  exclusionReason : Option BackfillExclusionReason
  zeroCrossingAt : Option Time
  orderDetails : List OrderBackfillDetail := []
  syntheticFills : List SyntheticFillCandidate := []
  expectedFinalQuantity : ℚ := 0
  brokerReportedQuantity : Option ℚ := none
  brokerReportedQuantityMatches : Option Bool := none
  anchorType : Option BackfillAnchorType := none
  deriving DecidableEq

/-- The reads: the account's orders as they are listed, the stored positions and broker orders,
the snapshots of each order, and the fee and tax terms, absent when the account or the
instrument is unknown. -/
structure BackfillReads where
  orders : List OrderRequestEntity
  positions : List PositionSnapshotEntity
  brokerFillSnapshots : UUID → List BrokerFillSnapshotEntity
  brokerOrders : List BrokerOrderEntity
  feeTaxTerms : Option FeeTaxTerms
  orders_nodup : (orders.map (·.orderRequestId)).Nodup
  brokerOrders_nodup : (brokerOrders.map (·.brokerOrderId)).Nodup

/-- The arguments of the call; a date is the number of days since the epoch. -/
structure BackfillCall where
  accountId : UUID
  instrumentId : UUID
  startDate : Int
  useHistoricalPolicyEstimateForBuyFee : Bool := false
  now : Time

/-- Korean midnight. -/
def kstMidnightUtc (day : Int) : Time := day * 86400000000 - 32400000000

/-- `datetime.min` in UTC. -/
def datetimeMin : Time := -62135596800000000

/-- A call that raises, or one whose instrument is excluded. -/
inductive Stop where
  | raised (error : PyError)
  | excluded (reason : BackfillExclusionReason)

def createdBefore (a b : OrderRequestEntity) : Prop :=
  a.createdAt.getD datetimeMin ≤ b.createdAt.getD datetimeMin

instance : DecidableRel createdBefore := fun a b =>
  inferInstanceAs (Decidable (a.createdAt.getD datetimeMin ≤ b.createdAt.getD datetimeMin))

namespace BackfillReads

variable (reads : BackfillReads) (call : BackfillCall)

def allFilledOrders : List OrderRequestEntity :=
  (reads.orders.filter fun order =>
    order.instrumentId = call.instrumentId ∧ order.status = .filled).insertionSort createdBefore

def windowStart : Time := kstMidnightUtc call.startDate

def windowOrders : List OrderRequestEntity :=
  (reads.allFilledOrders call).filter fun order =>
    windowStart call ≤ order.createdAt.getD (windowStart call)

/-- `get_latest_by_account_and_instrument_before`. -/
def latestPositionBefore (before : Time) : Option PositionSnapshotEntity :=
  ((reads.positions.filter fun position =>
      position.accountId = call.accountId ∧ position.instrumentId = call.instrumentId ∧
        position.snapshotAt < before).insertionSort
    fun a b => b.snapshotAt ≤ a.snapshotAt).head?

/-- The instrument's first among the account's latest positions. -/
def brokerReportedQuantity : Option ℚ :=
  (((reads.positions.filter (·.accountId = call.accountId)).insertionSort
    fun a b => b.snapshotAt ≤ a.snapshotAt).find? (·.instrumentId = call.instrumentId)).map
      (·.quantity)

/-- Where the cost basis starts: a position seen at zero with no filled order since, or no
filled order before the window, whose first is then a purchase. -/
def anchor (first : OrderRequestEntity) :
    Except (BackfillExclusionReason × Option Time) (BackfillAnchorType × Option Time) :=
  let firstOrderTime := first.createdAt.getD (windowStart call)
  match (reads.latestPositionBefore call firstOrderTime).filter (·.quantity = 0) with
  | some position =>
    let anchorAt := position.snapshotAt
    if (reads.allFilledOrders call).any fun order =>
        anchorAt < order.createdAt.getD anchorAt ∧ order.createdAt.getD anchorAt < firstOrderTime
      then .error (.gapOrderBeforeWindow, some anchorAt)
    else .ok (.zeroCrossing, some anchorAt)
  | none =>
    if ((reads.allFilledOrders call).any fun order =>
        order.createdAt.getD (windowStart call) < windowStart call) ∨ first.side ≠ .buy then
      .error (.zeroCrossingNotFound, none)
    else .ok (.initialEntry, none)

end BackfillReads

/-! One order: from its snapshots to increments. -/

/-- `(snap.cancel_yn or "").strip().upper() == "Y"`. -/
def cancelled (snap : BrokerFillSnapshotEntity) : Bool :=
  upper (String.ofList (strip (orText snap.cancelYn "").toList)) = "Y"

/-- What the increments of one order share. -/
structure OrderLineage where
  order : OrderRequestEntity
  brokerOrderId : UUID
  brokerNativeOrderId : String

section
variable (terms : Option FeeTaxTerms) (call : BackfillCall)

/-- The fee and the tax of an increment, zero where the account or the instrument is unknown. -/
def candidateCharges (side : OrderSide) (fillPrice fillQuantity : ℚ) (fillTimestamp : Time) :
    Except PyError FeeTaxResult :=
  match terms with
  | none => .ok ⟨0, 0, .assumedZero⟩
  | some terms => do
    let result ← computeFeeTax terms side fillPrice fillQuantity fillTimestamp
    if call.useHistoricalPolicyEstimateForBuyFee then
      historicalPolicyEstimate terms side fillPrice fillQuantity call.now result
    else return result

def fillTime (snap : BrokerFillSnapshotEntity) : Time :=
  (snap.fillTimestamp.or snap.updatedAt).getD call.now

def candidateOf (lineage : OrderLineage) (snap : BrokerFillSnapshotEntity)
    (deltaQty inferredPrice : ℚ) : Except PyError SyntheticFillCandidate := do
  let charges ← candidateCharges terms call lineage.order.side inferredPrice deltaQty
    (fillTime call snap)
  return {
    orderRequestId := lineage.order.orderRequestId
    brokerOrderId := lineage.brokerOrderId
    brokerNativeOrderId := lineage.brokerNativeOrderId
    symbol := snap.symbol
    side := lineage.order.side
    fillQuantity := deltaQty
    fillPrice := inferredPrice
    fillTimestamp := fillTime call snap
    brokerFillId := snap.brokerFillId
    sourceBrokerFillSnapshotId := snap.brokerFillSnapshotId
    fee := charges.fee
    tax := charges.tax
    feeTaxSource := charges.feeTaxSource }

/-- The loop over the snapshots of one order: its increments and the quantity it ends at. A
snapshot that repeats the quantity is passed over, its price with it. -/
def decode (lineage : OrderLineage) (priorQty : ℚ) (priorPrice : Option ℚ) :
    List BrokerFillSnapshotEntity → Except Stop (List SyntheticFillCandidate × ℚ)
  | [] => .ok ([], priorQty)
  | snap :: rest =>
    if cancelled snap then .error (.excluded .cancelFlagPresent)
    else if snap.filledQuantity - priorQty < 0 then .error (.excluded .negativeDelta)
    else if snap.filledQuantity - priorQty = 0 then decode lineage priorQty priorPrice rest
    else
      match inferDeltaPrice snap.filledQuantity (some snap.fillPrice) priorQty priorPrice with
      | none => .error (.excluded .unpriceableDelta)
      | some inferredPrice =>
        match candidateOf terms call lineage snap (snap.filledQuantity - priorQty)
            inferredPrice with
        | .error e => .error (.raised e)
        | .ok candidate =>
          (decode lineage snap.filledQuantity (some snap.fillPrice) rest).map fun found =>
            (candidate :: found.1, found.2)

end

def snapshotSortKey (snap : BrokerFillSnapshotEntity) : Time ×ₗ ℚ :=
  toLex (snap.updatedAt.getD datetimeMin, snap.filledQuantity)

def snapshotBefore (a b : BrokerFillSnapshotEntity) : Prop := snapshotSortKey a ≤ snapshotSortKey b

instance : DecidableRel snapshotBefore := fun a b =>
  inferInstanceAs (Decidable (snapshotSortKey a ≤ snapshotSortKey b))

namespace BackfillReads

variable (reads : BackfillReads) (call : BackfillCall)

def orderedSnapshots (order : OrderRequestEntity) : List BrokerFillSnapshotEntity :=
  (reads.brokerFillSnapshots order.orderRequestId).insertionSort snapshotBefore

/-- The one native identifier of the snapshots and the one broker order that bears it. -/
def lineageOf (order : OrderRequestEntity) : Except Stop OrderLineage :=
  match ((reads.orderedSnapshots order).map (·.brokerNativeOrderId)).eraseDups with
  | [nativeId] =>
    match reads.brokerOrders.filter fun brokerOrder =>
        brokerOrder.orderRequestId = order.orderRequestId ∧
          brokerOrder.brokerNativeOrderId = some nativeId with
    | [brokerOrder] => .ok ⟨order, brokerOrder.brokerOrderId, nativeId⟩
    | _ => .error (.excluded .lineageInconsistent)
  | _ => .error (.excluded .lineageInconsistent)

def orderDetail (order : OrderRequestEntity) : Except Stop OrderBackfillDetail :=
  if reads.brokerFillSnapshots order.orderRequestId = [] then .error (.excluded .snapshotMissing)
  else do
    let lineage ← reads.lineageOf order
    let (candidates, finalQty) ←
      decode reads.feeTaxTerms call lineage 0 none (reads.orderedSnapshots order)
    if finalQty ≠ order.requestedQuantity then .error (.excluded .finalQuantityMismatch)
    else
      return {
        orderRequestId := order.orderRequestId
        side := order.side
        requestedQuantity := order.requestedQuantity
        snapshotCount := (reads.orderedSnapshots order).length
        finalCumulativeQuantity := finalQty
        candidates := candidates }

end BackfillReads

def signed (side : OrderSide) (quantity : ℚ) : ℚ :=
  match side with
  | .buy => quantity
  | .sell => -quantity

def emptyPlan (call : BackfillCall) (reason : BackfillExclusionReason)
    (zeroCrossingAt : Option Time) : BackfillPlan where
  accountId := call.accountId
  instrumentId := call.instrumentId
  startDate := call.startDate
  eligible := false
  exclusionReason := some reason
  zeroCrossingAt := zeroCrossingAt

def eligiblePlan (call : BackfillCall) (anchor : BackfillAnchorType × Option Time)
    (details : List OrderBackfillDetail) (brokerReported : Option ℚ) : BackfillPlan :=
  let expected := (details.map fun detail =>
    signed detail.side detail.finalCumulativeQuantity).sum
  { accountId := call.accountId
    instrumentId := call.instrumentId
    startDate := call.startDate
    eligible := true
    exclusionReason := none
    zeroCrossingAt := anchor.2
    anchorType := some anchor.1
    orderDetails := details
    syntheticFills := details.flatMap (·.candidates)
    expectedFinalQuantity := expected
    brokerReportedQuantity := brokerReported
    brokerReportedQuantityMatches := brokerReported.map fun quantity => quantity = expected }

def buildBackfillPlan (reads : BackfillReads) (call : BackfillCall) :
    Except PyError BackfillPlan :=
  match reads.windowOrders call with
  | [] => .ok (emptyPlan call .noFilledOrdersInWindow none)
  | first :: others =>
    match reads.anchor call first with
    | .error (reason, anchorAt) => .ok (emptyPlan call reason anchorAt)
    | .ok anchor =>
      match (first :: others).mapM (reads.orderDetail call) with
      | .error (.raised e) => .error e
      | .error (.excluded reason) => .ok (emptyPlan call reason anchor.2)
      | .ok details =>
        .ok (eligiblePlan call anchor details (reads.brokerReportedQuantity call))

end AgentTrading.Backfill
