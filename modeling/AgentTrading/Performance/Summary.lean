import Mathlib.Data.Fintype.Basic
import AgentTrading.Library.Latest
import AgentTrading.RealizedPnl.Trades

/-! The read-only performance summary of an account, from its orders, fills and snapshots. -/
namespace AgentTrading.Performance
open Domain RealizedPnl Library.Latest

/-- `.date()` of a time in UTC, as days since the epoch. -/
def dayOf (t : Time) : Int := t / (24 * 60 * microsPerMinute)

structure PositionSnapshotEntity where
  accountId : UUID
  instrumentId : UUID
  quantity : ℚ
  averagePrice : ℚ
  marketPrice : Option ℚ
  snapshotAt : Time
  deriving DecidableEq

structure CashBalanceSnapshotEntity where
  accountId : UUID
  availableCash : ℚ
  snapshotAt : Time
  deriving DecidableEq

inductive Backend where
  | inMemory
  | postgres
  deriving DecidableEq

/-- The tables the service reads. `strategyOf` is the strategy of a decision context. -/
structure Books where
  backend : Backend
  trades : Trades
  positionSnapshots : List PositionSnapshotEntity
  cashBalanceSnapshots : List CashBalanceSnapshotEntity
  strategyOf : UUID → Option UUID := fun _ => none

namespace Books

def positionsOf (b : Books) (accountId : UUID) : List PositionSnapshotEntity :=
  b.positionSnapshots.filter (·.accountId = accountId)

def cashOf (b : Books) (accountId : UUID) : List CashBalanceSnapshotEntity :=
  b.cashBalanceSnapshots.filter (·.accountId = accountId)

/-- `ORDER BY instrument_id, snapshot_at DESC`. -/
def byInstrument (a b : PositionSnapshotEntity) : Prop :=
  a.instrumentId < b.instrumentId ∨
    (a.instrumentId = b.instrumentId ∧ b.snapshotAt ≤ a.snapshotAt)

instance : DecidableRel byInstrument := fun a b => by unfold byInstrument; infer_instance

/-- `position_snapshots.list_latest_by_account`: in memory every snapshot, newest first; from
the database the latest of each instrument. -/
def listLatestByAccount (b : Books) (accountId : UUID) : List PositionSnapshotEntity :=
  match b.backend with
  | .inMemory => newestFirst (·.snapshotAt) (b.positionsOf accountId)
  | .postgres => firsts (·.instrumentId) ((b.positionsOf accountId).insertionSort byInstrument)

/-- `cash_balance_snapshots.list_by_account`. -/
def listCashByAccount (b : Books) (accountId : UUID) : List CashBalanceSnapshotEntity :=
  newestFirst (·.snapshotAt) (b.cashOf accountId)

/-- `cash_balance_snapshots.get_latest_by_account`. -/
def latestCash (b : Books) (accountId : UUID) : Option CashBalanceSnapshotEntity :=
  (b.listCashByAccount accountId).head?

end Books

variable (n : Numerics)

def sideMultiplier (side : OrderSide) : ℚ := if side = .buy then -1 else 1

def calcPerFillPnl (fill : FillEventEntity) (side : OrderSide) : ℚ :=
  let tradeValue := n.mul (n.mul fill.fillPrice fill.fillQuantity) (sideMultiplier side)
  n.sub (n.sub tradeValue (fill.fillFee.getD 0)) (fill.fillTax.getD 0)

def calcRealizedPnlForOrder (fills : List FillEventEntity) (side : OrderSide) : ℚ :=
  fills.foldl (fun total fill =>
    let tradeValue := n.mul (n.mul fill.fillPrice fill.fillQuantity) (sideMultiplier side)
    n.add total (n.sub (n.sub tradeValue (fill.fillFee.getD 0)) (fill.fillTax.getD 0))) 0

def calcUnrealizedPnlFromPositions (positions : List PositionSnapshotEntity) : ℚ :=
  positions.foldl (fun total pos =>
    match pos.marketPrice with
    | none => total
    | some marketPrice =>
      n.add total (n.mul pos.quantity (n.sub marketPrice pos.averagePrice))) 0

def calcPositionMarketValue (positions : List PositionSnapshotEntity) : ℚ :=
  positions.foldl (fun total pos =>
    match pos.marketPrice with
    | none => total
    | some marketPrice => n.add total (n.mul (n.round |pos.quantity|) marketPrice)) 0

def latestCashOnOrBefore (cashSnapshots : List CashBalanceSnapshotEntity) (targetDate : Int) :
    Option CashBalanceSnapshotEntity :=
  cashSnapshots.find? fun snap => dayOf snap.snapshotAt ≤ targetDate

/-- A snapshot of the day or before, unless its instrument was seen. -/
def latestPositionsOnOrBefore (positions : List PositionSnapshotEntity) (targetDate : Int) :
    List PositionSnapshotEntity :=
  positions.foldl (fun selected pos =>
    if dayOf pos.snapshotAt ≤ targetDate ∧ ∀ s ∈ selected, s.instrumentId ≠ pos.instrumentId
    then selected ++ [pos]
    else selected) []

structure AccountPerformanceSummary where
  accountId : UUID
  asOf : Time
  cashBalance : ℚ
  positionMarketValue : ℚ
  totalEquity : ℚ
  realizedPnl : ℚ
  unrealizedPnl : ℚ
  totalPnl : ℚ
  filledOrderCount : Nat
  openPositionCount : Nat
  winningTradeCount : Nat
  losingTradeCount : Nat
  deriving DecidableEq

structure DailyPerformancePoint where
  date : Int
  realizedPnl : ℚ
  cumulativeRealizedPnl : ℚ
  cashBalance : Option ℚ := none
  positionMarketValue : Option ℚ := none
  unrealizedPnl : Option ℚ := none
  totalEquity : Option ℚ := none
  deriving DecidableEq

/-- `OrderQuery().limit`. -/
def defaultLimit : Nat := 100

def isFilled (order : OrderRequestEntity) : Bool :=
  order.status = .filled ∨ order.status = .partiallyFilled

/-- The fills of an order, broker order by broker order. -/
def orderFills (b : Books) (order : OrderRequestEntity) : List FillEventEntity :=
  (b.trades.listByOrderRequest order.orderRequestId).flatMap fun bo =>
    b.trades.listByBrokerOrder bo.brokerOrderId

/-- The totals of the loop over the filled orders. -/
structure TradeTotals where
  realizedPnl : ℚ := 0
  winning : Nat := 0
  losing : Nat := 0
  deriving DecidableEq

def TradeTotals.addOrder (b : Books) (totals : TradeTotals) (order : OrderRequestEntity) :
    TradeTotals :=
  if orderFills b order = [] then totals
  else
    let pnl := calcRealizedPnlForOrder n (orderFills b order) order.side
    { realizedPnl := n.add totals.realizedPnl pnl
      winning := if 0 < pnl then totals.winning + 1 else totals.winning
      losing := if 0 < pnl then totals.losing
        else if pnl < 0 then totals.losing + 1 else totals.losing }

def tradeTotals (b : Books) (filledOrders : List OrderRequestEntity) : TradeTotals :=
  filledOrders.foldl (TradeTotals.addOrder n b) {}

def getAccountSummary (b : Books) (accountId : UUID) (now : Time) :
    Except PyError AccountPerformanceSummary := do
  let cashSnap := b.latestCash accountId
  let cash := (cashSnap.map (·.availableCash)).getD 0
  let asOf := (cashSnap.map (·.snapshotAt)).getD now
  let positions := b.listLatestByAccount accountId
  let unrealized := calcUnrealizedPnlFromPositions n positions
  let posMarketValue := calcPositionMarketValue n positions
  let allOrders ← b.trades.listOrders accountId defaultLimit
  let filledOrders := allOrders.filter isFilled
  let totals := tradeTotals n b filledOrders
  return {
    accountId := accountId
    asOf := asOf
    cashBalance := cash
    positionMarketValue := posMarketValue
    totalEquity := n.add cash posMarketValue
    realizedPnl := totals.realizedPnl
    unrealizedPnl := unrealized
    totalPnl := n.add totals.realizedPnl unrealized
    filledOrderCount := filledOrders.length
    openPositionCount := positions.length
    winningTradeCount := totals.winning
    losingTradeCount := totals.losing }

/-- The orders whose decision context is of the strategy; all of them without one. -/
def ofStrategy (b : Books) (strategyId : Option UUID) (orders : List OrderRequestEntity) :
    List OrderRequestEntity :=
  match strategyId with
  | none => orders
  | some id => orders.filter fun order => order.decisionContextId.bind b.strategyOf = some id

/-- The result of each fill, under the day it is dated. -/
def datedPnls (b : Books) (filledOrders : List OrderRequestEntity) : List (Int × ℚ) :=
  filledOrders.flatMap fun order => (orderFills b order).map fun fill =>
    (dayOf fill.fillTimestamp, calcPerFillPnl n fill order.side)

/-- `daily_realized`, a day without an entry at zero. -/
def dailyRealized (entries : List (Int × ℚ)) : Int → ℚ :=
  entries.foldl (fun daily entry day =>
    if day = entry.1 then n.add (daily day) entry.2 else daily day) fun _ => 0

/-- `start_date` to `end_date`, both included. -/
def dateRange (startDate endDate : Int) : List Int :=
  (List.range (endDate + 1 - startDate).toNat).map fun (k : Nat) => startDate + (k : Int)

theorem mem_dateRange {startDate endDate day : Int} :
    day ∈ dateRange startDate endDate ↔ startDate ≤ day ∧ day ≤ endDate := by
  simp only [dateRange, List.mem_map, List.mem_range]
  constructor
  · rintro ⟨k, hk, rfl⟩
    omega
  · rintro ⟨hstart, hend⟩
    exact ⟨(day - startDate).toNat, by omega, by omega⟩

def dailyPoint (allCash : List CashBalanceSnapshotEntity)
    (allPositions : List PositionSnapshotEntity) (day : Int) (realized cumulative : ℚ) :
    DailyPerformancePoint :=
  let cash := (latestCashOnOrBefore allCash day).map (·.availableCash)
  let dayPositions := latestPositionsOnOrBefore allPositions day
  let posMarketValue :=
    if dayPositions = [] then none else some (calcPositionMarketValue n dayPositions)
  let unrealized :=
    if dayPositions = [] then none else some (calcUnrealizedPnlFromPositions n dayPositions)
  { date := day
    realizedPnl := realized
    cumulativeRealizedPnl := cumulative
    cashBalance := cash
    positionMarketValue := posMarketValue
    unrealizedPnl := unrealized
    totalEquity :=
      match cash, posMarketValue with
      | some cash, some value => some (n.add cash value)
      | some cash, none => some cash
      | none, _ => none }

/-- The loop over the days, from what is realized before the first of them. -/
def dailyPoints (allCash : List CashBalanceSnapshotEntity)
    (allPositions : List PositionSnapshotEntity) (realizedOn : Int → ℚ) :
    ℚ → List Int → List DailyPerformancePoint
  | _, [] => []
  | cumulative, day :: days =>
    let cumulative := n.add cumulative (realizedOn day)
    dailyPoint n allCash allPositions day (realizedOn day) cumulative ::
      dailyPoints allCash allPositions realizedOn cumulative days

def getDailyHistory (b : Books) (accountId : UUID) (startDate endDate : Int)
    (strategyId : Option UUID) : Except PyError (List DailyPerformancePoint) := do
  let allOrders ← b.trades.listOrders accountId defaultLimit
  let filledOrders := (ofStrategy b strategyId allOrders).filter isFilled
  return dailyPoints n (b.listCashByAccount accountId) (b.listLatestByAccount accountId)
    (dailyRealized n (datedPnls n b filledOrders)) 0 (dateRange startDate endDate)

end AgentTrading.Performance
