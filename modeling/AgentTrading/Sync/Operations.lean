import AgentTrading.Fills.Sync
import AgentTrading.Orders.OrderManager

/-! The operations of the order synchronisation: those of the order services, the reads of
snapshots and positions, and the broker's inquiries. All fills are those of one broker order. -/
namespace AgentTrading.Sync
open Domain Repositories Library

structure OrderStatusResult where
  status : OrderStatus
  filledQuantity : Option ℚ := some 0
  rawCode : Option String := none
  rawMessage : Option String := none
  deriving DecidableEq

/-- What the truth probe reads of a settlement row linked to an order. -/
structure BrokerFillSnapshotEntity where
  filledQuantity : ℚ
  brokerFillId : Option String := none
  deriving DecidableEq

structure PositionSnapshotEntity where
  accountId : UUID
  instrumentId : UUID
  quantity : ℚ
  snapshotAt : Time
  deriving DecidableEq

/-- The part of an order query that is set. -/
structure OrderQuery where
  accountId : UUID
  createdFrom : Time
  createdTo : Time
  limit : Nat

inductive Op where
  | orders (op : Orders.Op)
  | brokerOrdersGet (brokerOrderId : UUID)
  | brokerOrdersUpdate (brokerOrderId : UUID) (brokerStatus : Option String)
      (lastSyncedAt updatedAt : Option Time)
  | brokerFillSnapshotsListRecent (limit : Nat) (orderRequestId : UUID)
  | instrumentsGet (instrumentId : UUID)
  | positionSnapshotsLatestBefore (accountId instrumentId : UUID) (before : Option Time)
  | positionSnapshotsEarliestAfter (accountId instrumentId : UUID) (after : Time)
  | positionSnapshotsListLatest (accountId : UUID)
  | ordersList (query : OrderQuery)
  | brokerGetOrderStatus (clientOrderId : String) (brokerOrderId : Option String)
  | brokerResolveUnknownState (clientOrderId : String) (brokerOrderId : Option String)
      (symbol : Option String) (side : OrderSide) (orderCreatedAt : Option Time)
  | snapshotRefresh (accountId : UUID)
  | syncFills (brokerOrder : BrokerOrderEntity) (accountId : UUID)

abbrev Reply : Op → Type
  | .orders op => Orders.Reply op
  | .brokerOrdersGet _ => Option BrokerOrderEntity
  | .brokerOrdersUpdate .. => Except PyError Unit
  | .brokerFillSnapshotsListRecent .. => Except PyError (List BrokerFillSnapshotEntity)
  | .instrumentsGet _ => Except PyError (Option String)
  | .positionSnapshotsLatestBefore .. => Except PyError (Option PositionSnapshotEntity)
  | .positionSnapshotsEarliestAfter .. => Except PyError (Option PositionSnapshotEntity)
  | .positionSnapshotsListLatest _ => Except PyError (List PositionSnapshotEntity)
  | .ordersList _ => Except PyError (List OrderRequestEntity)
  | .brokerGetOrderStatus .. => Except PyError OrderStatusResult
  | .brokerResolveUnknownState .. => Except PyError OrderStatusResult
  | .snapshotRefresh _ => Except PyError Unit
  | .syncFills .. => Except PyError (Nat × Nat)

abbrev Code (α : Type) := Program Op Reply PyError α

abbrev Steps := List ((op : Op) × Reply op)

/-- The stored rows, the fills of the broker order and the switch of the service. -/
structure State where
  store : Store
  book : Fills.FillBook := {}
  appendEnabled : Bool

/-- What the world outside decides at one operation. -/
structure Choice where
  orders : Orders.Choice
  fillSnapshots : Except PyError (List BrokerFillSnapshotEntity)
  instrument : Except PyError (Option String)
  latestBefore : Except PyError (Option PositionSnapshotEntity)
  earliestAfter : Except PyError (Option PositionSnapshotEntity)
  latestPositions : Except PyError (List PositionSnapshotEntity)
  ordersList : Except PyError (List OrderRequestEntity)
  orderStatus : Except PyError OrderStatusResult
  unknownState : Except PyError OrderStatusResult
  snapshotRefresh : Except PyError Unit
  fills : Fills.FillCall

def getBrokerOrder (s : Store) (brokerOrderId : UUID) : Option BrokerOrderEntity :=
  s.brokerOrders.find? fun item => item.brokerOrderId = brokerOrderId

/-- `InMemoryBrokerOrderRepository.update`. -/
def updateBrokerOrder (s : Store) (brokerOrderId : UUID) (brokerStatus : Option String)
    (lastSyncedAt updatedAt : Option Time) : Except PyError Unit × Store :=
  match getBrokerOrder s brokerOrderId with
  | none => (.error (.valueError ("BrokerOrder not found: " ++ UUID.text brokerOrderId)), s)
  | some _ =>
    (.ok (), { s with brokerOrders := s.brokerOrders.map fun item =>
      if item.brokerOrderId = brokerOrderId then
        { item with
          brokerStatus := brokerStatus.getD item.brokerStatus
          lastSyncedAt := lastSyncedAt.or item.lastSyncedAt
          updatedAt := updatedAt.or item.updatedAt }
      else item })

def fillContext (appendEnabled : Bool) (brokerOrder : BrokerOrderEntity) (accountId : UUID) :
    Fills.OrderContext where
  brokerOrderId := brokerOrder.brokerOrderId
  brokerName := brokerOrder.brokerName
  brokerNativeOrderId := brokerOrder.brokerNativeOrderId
  accountId := accountId
  appendEnabled := appendEnabled

def exec (c : Choice) (op : Op) (s : State) : Reply op × State :=
  match op with
  | .orders op => ((Orders.exec c.orders op s.store).1,
      { s with store := (Orders.exec c.orders op s.store).2 })
  | .brokerOrdersGet id => (getBrokerOrder s.store id, s)
  | .brokerOrdersUpdate id brokerStatus lastSyncedAt updatedAt =>
    ((updateBrokerOrder s.store id brokerStatus lastSyncedAt updatedAt).1,
      { s with store := (updateBrokerOrder s.store id brokerStatus lastSyncedAt updatedAt).2 })
  | .brokerFillSnapshotsListRecent .. => (c.fillSnapshots, s)
  | .instrumentsGet _ => (c.instrument, s)
  | .positionSnapshotsLatestBefore .. => (c.latestBefore, s)
  | .positionSnapshotsEarliestAfter .. => (c.earliestAfter, s)
  | .positionSnapshotsListLatest _ => (c.latestPositions, s)
  | .ordersList _ => (c.ordersList, s)
  | .brokerGetOrderStatus .. => (c.orderStatus, s)
  | .brokerResolveUnknownState .. => (c.unknownState, s)
  | .snapshotRefresh _ => (c.snapshotRefresh, s)
  | .syncFills brokerOrder accountId =>
    let ctx := fillContext s.appendEnabled brokerOrder accountId
    ((Fills.syncFills ctx c.fills s.book).1,
      { s with book := (Fills.syncFills ctx c.fills s.book).2 })

abbrev await (op : Op) : Code (Reply op) := Program.perform op

/-- A read or a call that may raise. -/
def orRaise : Except PyError α → Code α
  | .ok a => .ret a
  | .error e => .raise e

/-- A program of the order services. -/
def ofOrders (p : Orders.Code α) : Code α := p.lift Op.orders fun _ r => r

def now : Code Time := await (.orders .now)

def sleep : Code Unit := await (.orders .sleep)

def updateBrokerOrderRow (brokerOrderId : UUID) (brokerStatus : Option String)
    (lastSyncedAt updatedAt : Option Time) : Code Unit := do
  let outcome ← await (.brokerOrdersUpdate brokerOrderId brokerStatus lastSyncedAt updatedAt)
  orRaise outcome

end AgentTrading.Sync
