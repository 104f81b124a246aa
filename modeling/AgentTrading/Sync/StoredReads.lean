import AgentTrading.RealizedPnl.Trades
import AgentTrading.Sync.TruthProbe

/-! The reads of the synchronisation from stored orders and position snapshots, in place of
replies from outside. -/
namespace AgentTrading.Sync
open Domain RealizedPnl Library

structure Tables where
  trades : Trades
  positionSnapshots : List PositionSnapshotEntity

/-- The snapshots of one position, the latest first or the earliest first. -/
def snapshotAfter (a b : PositionSnapshotEntity) : Prop := b.snapshotAt ≤ a.snapshotAt

def snapshotBefore (a b : PositionSnapshotEntity) : Prop := a.snapshotAt ≤ b.snapshotAt

instance : DecidableRel snapshotAfter := fun a b =>
  inferInstanceAs (Decidable (b.snapshotAt ≤ a.snapshotAt))

instance : DecidableRel snapshotBefore := fun a b =>
  inferInstanceAs (Decidable (a.snapshotAt ≤ b.snapshotAt))

namespace Tables

def snapshotsOf (tables : Tables) (accountId instrumentId : UUID) : List PositionSnapshotEntity :=
  tables.positionSnapshots.filter fun item =>
    item.accountId = accountId ∧ item.instrumentId = instrumentId

def latestBefore (tables : Tables) (accountId instrumentId : UUID) (before : Time) :
    Option PositionSnapshotEntity :=
  (((tables.snapshotsOf accountId instrumentId).filter fun item =>
    item.snapshotAt < before).insertionSort snapshotAfter).head?

/-- `get_latest_by_account_and_instrument_before`; comparing with an absent time raises. -/
def getLatestBefore (tables : Tables) (accountId instrumentId : UUID) :
    Option Time → Except PyError (Option PositionSnapshotEntity)
  | some before => .ok (tables.latestBefore accountId instrumentId before)
  | none =>
    if tables.snapshotsOf accountId instrumentId = [] then .ok none
    else .error (.other "TypeError")

/-- `get_earliest_by_account_and_instrument_after`. -/
def earliestAfter (tables : Tables) (accountId instrumentId : UUID) (after : Time) :
    Option PositionSnapshotEntity :=
  (((tables.snapshotsOf accountId instrumentId).filter fun item =>
    after < item.snapshotAt).insertionSort snapshotBefore).head?

def listLatestByAccount (tables : Tables) (accountId : UUID) : List PositionSnapshotEntity :=
  (tables.positionSnapshots.filter fun item => item.accountId = accountId).insertionSort
    snapshotAfter

/-- `orders.list`, newest first. The window leaves out the orders that could not be sorted. -/
def listOrders (tables : Tables) (query : OrderQuery) : List OrderRequestEntity :=
  (((tables.trades.accountOrders query.accountId).filter fun order =>
    order.createdAt.any fun created =>
      query.createdFrom ≤ created ∧ created ≤ query.createdTo).insertionSort orderAfter).take
    query.limit

/-- The replies of the tables in place of those chosen. -/
def choice (tables : Tables) (c : Choice) : Op → Choice
  | .positionSnapshotsLatestBefore accountId instrumentId before =>
    { c with latestBefore := tables.getLatestBefore accountId instrumentId before }
  | .positionSnapshotsEarliestAfter accountId instrumentId after =>
    { c with earliestAfter := .ok (tables.earliestAfter accountId instrumentId after) }
  | .positionSnapshotsListLatest accountId =>
    { c with latestPositions := .ok (tables.listLatestByAccount accountId) }
  | .ordersList query => { c with ordersList := .ok (tables.listOrders query) }
  | _ => c

/-- An operation under replies from the tables. -/
def exec (tables : Tables) (c : Choice) (op : Op) (s : State) : Reply op × State :=
  Sync.exec (tables.choice c op) op s

theorem latestBefore_lt {tables : Tables} {accountId instrumentId : UUID} {before : Time}
    {snap : PositionSnapshotEntity}
    (h : tables.latestBefore accountId instrumentId before = some snap) :
    snap.snapshotAt < before := by
  have hmem := List.mem_of_mem_head? (Option.mem_def.mpr h)
  rw [List.mem_insertionSort, List.mem_filter] at hmem
  simpa only [decide_eq_true_eq] using hmem.2

theorem lt_earliestAfter {tables : Tables} {accountId instrumentId : UUID} {after : Time}
    {snap : PositionSnapshotEntity}
    (h : tables.earliestAfter accountId instrumentId after = some snap) :
    after < snap.snapshotAt := by
  have hmem := List.mem_of_mem_head? (Option.mem_def.mpr h)
  rw [List.mem_insertionSort, List.mem_filter] at hmem
  simpa only [decide_eq_true_eq] using hmem.2

theorem mem_listOrders {tables : Tables} {query : OrderQuery} {order : OrderRequestEntity}
    (h : order ∈ tables.listOrders query) :
    order ∈ tables.trades.orders ∧ order.accountId = query.accountId ∧
      ∃ created, order.createdAt = some created ∧ query.createdFrom ≤ created ∧
        created ≤ query.createdTo := by
  have hmem := List.mem_of_mem_take h
  simp only [List.mem_insertionSort, List.mem_filter, Trades.accountOrders, Option.any_eq_true,
    decide_eq_true_eq] at hmem
  exact ⟨hmem.1.1, hmem.1.2.2, hmem.2⟩

theorem listOrders_nodup (tables : Tables) (query : OrderQuery) :
    (tables.listOrders query).Nodup := by
  have horders : tables.trades.orders.Nodup := List.Nodup.of_map _ tables.trades.orders_nodup
  have hsorted := (List.perm_insertionSort orderAfter
    ((tables.trades.accountOrders query.accountId).filter fun order =>
      order.createdAt.any fun created =>
        query.createdFrom ≤ created ∧ created ≤ query.createdTo)).nodup_iff.mpr
    ((horders.filter _).filter _)
  exact hsorted.sublist (List.take_sublist _ _)

end Tables

/-- Nothing outside the tables answers. -/
def unanswered : Choice where
  orders :=
    { elapsed := 0
      broker := .error (.other "Unreachable")
      rest := fun _ => .error (.other "Unreachable") }
  fillSnapshots := .error (.other "Unreachable")
  instrument := .error (.other "Unreachable")
  latestBefore := .error (.other "Unreachable")
  earliestAfter := .error (.other "Unreachable")
  latestPositions := .error (.other "Unreachable")
  ordersList := .error (.other "Unreachable")
  orderStatus := .error (.other "Unreachable")
  unknownState := .error (.other "Unreachable")
  snapshotRefresh := .error (.other "Unreachable")
  fills :=
    { observations := .error (.other "Unreachable")
      now := 0
      feeTaxPolicy := none }

end AgentTrading.Sync
