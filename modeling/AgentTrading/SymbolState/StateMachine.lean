import AgentTrading.Library.Keyed
import AgentTrading.Performance.AsOf
import AgentTrading.SymbolState.Hysteresis

/-! `reconcile_account_symbol_trade_states`: the states of an account's symbols, brought in line
with its positions and orders. -/
namespace AgentTrading.SymbolState
open Domain Kis Library RealizedPnl Performance Library.Latest Library.Keyed

def activeOrderStatuses : List OrderStatus :=
  [.draft, .validated, .pendingSubmit, .submitted, .acknowledged, .partiallyFilled,
    .cancelPending, .reconcileRequired]

structure SymbolTradeStateResolution where
  state : String
  positionQuantity : ℚ
  reasonCodes : List String
  deriving DecidableEq

def isActive (order : Option OrderRequestEntity) : Bool :=
  order.any fun order => order.status ∈ activeOrderStatuses

def resolveSymbolTradeState (currentState : SymbolTradeStateEntity) (positionQuantity : ℚ)
    (latestBuyOrder latestSellOrder : Option OrderRequestEntity) (nowUtc : Time) :
    SymbolTradeStateResolution :=
  let cooldownActive := currentState.reentryCooldownUntil.any (nowUtc < ·)
  if 0 < positionQuantity then
    if isActive latestSellOrder then
      if currentState.state = "exit_pending" then
        { state := "exit_pending"
          positionQuantity := positionQuantity
          reasonCodes := ["authoritative_position_positive", "active_sell_order"] }
      else
        { state := "reduce_pending"
          positionQuantity := positionQuantity
          reasonCodes := ["authoritative_position_positive", "active_sell_order"] }
    else
      { state := "held_active"
        positionQuantity := positionQuantity
        reasonCodes := ["authoritative_position_positive"] }
  else if isActive latestBuyOrder then
    { state := "entry_pending"
      positionQuantity := 0
      reasonCodes := ["authoritative_flat_position", "active_buy_order"] }
  else if cooldownActive then
    { state := "flat_cooldown"
      positionQuantity := 0
      reasonCodes := ["authoritative_flat_position", "reentry_cooldown_active"] }
  else
    { state := "flat"
      positionQuantity := 0
      reasonCodes := ["authoritative_flat_position"] }

def latestOrderKey (order : OrderRequestEntity) : Option Time :=
  order.updatedAt.or (order.submittedAt.or order.createdAt)

/-- `_latest_order_for_side`. `datetime.min`, in place of an absent time, has no zone, and
comparing it with another time raises. -/
def latestOrderForSide (orders : List OrderRequestEntity) (side : OrderSide) :
    Except PyError (Option OrderRequestEntity) :=
  let matched := orders.filter (·.side = side)
  if (∃ order ∈ matched, latestOrderKey order = none) ∧
      ∃ order ∈ matched, latestOrderKey order ≠ none then
    .error (.other "TypeError")
  else .ok (newestFirst (fun order => (latestOrderKey order).getD 0) matched).head?

def SymbolTradeStateEntity.key (s : SymbolTradeStateEntity) : UUID × UUID :=
  (s.accountId, s.instrumentId)

structure SymbolTradeStates where
  items : List SymbolTradeStateEntity
  nodup : (items.map SymbolTradeStateEntity.key).Nodup

namespace SymbolTradeStates

@[ext] theorem ext {t t' : SymbolTradeStates} (h : t.items = t'.items) : t = t' := by
  cases t
  cases t'
  congr 1

def upsert (t : SymbolTradeStates) (s : SymbolTradeStateEntity) : SymbolTradeStates where
  items := Keyed.upsert SymbolTradeStateEntity.key s t.items
  nodup := nodup_upsert t.nodup s

def listByAccount (t : SymbolTradeStates) (accountId : UUID) : List SymbolTradeStateEntity :=
  t.items.filter (·.accountId = accountId)

end SymbolTradeStates

/-! The reconciliation. `isoformat` is the text of a time in UTC. -/

section Reconcile

variable (isoformat : Time → String)

/-- The state with what was resolved. -/
def SymbolTradeStateEntity.resolved (s : SymbolTradeStateEntity)
    (resolution : SymbolTradeStateResolution) (nowUtc : Time) : SymbolTradeStateEntity :=
  { s with
    state := resolution.state
    positionQuantity := resolution.positionQuantity
    lastReasonCodes := resolution.reasonCodes
    metadataJson := setItem s.metadataJson "authoritative_state_machine" (.json (.obj
      [("state", .str resolution.state),
        ("reason_codes", .arr (resolution.reasonCodes.map .str)),
        ("reconciled_at", .str (isoformat nowUtc))]))
    updatedAt := some nowUtc }
where
  setItem (m : Metadata) (key : String) (value : Value) : Metadata :=
    Keyed.upsert Prod.fst (key, value) m

/-- The quantity of the instrument's snapshot, the last one listed. -/
def positionQuantity (latestPositions : List PositionSnapshotEntity) (instrumentId : UUID) : ℚ :=
  ((latestPositions.reverse.find? (·.instrumentId = instrumentId)).map (·.quantity)).getD 0

def resolveState (latestPositions : List PositionSnapshotEntity)
    (orders : List OrderRequestEntity) (nowUtc : Time) (s : SymbolTradeStateEntity) :
    Except PyError SymbolTradeStateResolution := do
  let instrumentOrders := orders.filter (·.instrumentId = s.instrumentId)
  let latestBuyOrder ← latestOrderForSide instrumentOrders .buy
  let latestSellOrder ← latestOrderForSide instrumentOrders .sell
  return resolveSymbolTradeState s (positionQuantity latestPositions s.instrumentId)
    latestBuyOrder latestSellOrder nowUtc

/-- The loop over the states: the number of those that changed, and the table. -/
def reconcileStates (latestPositions : List PositionSnapshotEntity)
    (orders : List OrderRequestEntity) (nowUtc : Time) :
    List SymbolTradeStateEntity → Nat → SymbolTradeStates → Except PyError Nat × SymbolTradeStates
  | [], updatedCount, t => (.ok updatedCount, t)
  | s :: states, updatedCount, t =>
    match resolveState latestPositions orders nowUtc s with
    | .error e => (.error e, t)
    | .ok resolution =>
      if s.state = resolution.state ∧ s.positionQuantity = resolution.positionQuantity then
        reconcileStates latestPositions orders nowUtc states updatedCount t
      else
        reconcileStates latestPositions orders nowUtc states (updatedCount + 1)
          (t.upsert (s.resolved isoformat resolution nowUtc))

def reconcileLimit : Nat := 1000

def reconcileAccountSymbolTradeStates (b : Books) (accountId : UUID) (nowUtc : Time)
    (t : SymbolTradeStates) : Except PyError Nat × SymbolTradeStates :=
  let states := t.listByAccount accountId
  if states.isEmpty then (.ok 0, t)
  else
    match b.trades.listOrders accountId reconcileLimit with
    | .error e => (.error e, t)
    | .ok orders =>
      reconcileStates isoformat (b.listLatestByAccount accountId) orders nowUtc states 0 t

end Reconcile

end AgentTrading.SymbolState
