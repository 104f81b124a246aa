import Mathlib.Algebra.BigOperators.Group.List.Basic
import Mathlib.Tactic.Linarith
import AgentTrading.Library.Outcome
import AgentTrading.RealizedPnl.Trades
import AgentTrading.Orders.TransitionSafety
import AgentTrading.Sync.Operations

/-! The guard against selling what is already being sold. It subtracts from the position the
open sell orders it finds through two limited listings, and what partially filled ones still
have to be filled. -/
namespace AgentTrading.SellGuard
open Domain RealizedPnl

structure SellAvailability where
  availableSellQty : ℚ
  currentPositionQty : ℚ
  openSellQty : ℚ
  partiallyFilledRemainingQty : ℚ
  isBlocked : Bool
  blockingReason : Option String := none
  deriving DecidableEq

/-- What the guard reads: the trading tables, the position snapshots or what reading them
raised, and the clock at either query. -/
structure Repos where
  trades : Trades
  positionSnapshots : Except PyError (List Sync.PositionSnapshotEntity)
  nowOpen : Time
  nowPartial : Time

def microsPerDay : Int := 86400000000

/-- The date in Korean time. -/
def kstDate (t : Time) : Int := (t + 9 * 60 * microsPerMinute) / microsPerDay

/-- The rest of a `DAY` order of an earlier day is left out. -/
def isStaleDayOrderResidual (order : OrderRequestEntity) (now : Time) : Bool :=
  order.timeInForce = .day ∧ (order.submittedAt.or order.createdAt).any (kstDate · < kstDate now)

def listLatestByAccount (snapshots : List Sync.PositionSnapshotEntity) (accountId : UUID) :
    List Sync.PositionSnapshotEntity :=
  (snapshots.filter fun item => item.accountId = accountId).insertionSort
    fun a b => b.snapshotAt ≤ a.snapshotAt

/-- A position that cannot be read counts as none. -/
def getCurrentPositionQty (repos : Repos) (accountId : UUID) : Option UUID → ℚ
  | none => 0
  | some instrumentId =>
    match repos.positionSnapshots with
    | .error _ => 0
    | .ok snapshots =>
      ((listLatestByAccount snapshots accountId).find? fun snap =>
        snap.instrumentId = instrumentId).elim 0 (·.quantity)

/-- The account's orders in these statuses, newest first, as far as the limit goes. -/
def listed (t : Trades) (accountId : UUID) (statuses : List OrderStatus) (limit : Nat) :
    List OrderRequestEntity :=
  (((t.accountOrders accountId).filter fun order => order.status ∈ statuses).insertionSort
    orderAfter).take limit

/-- Two orders or more, one of them without any time, cannot be sorted. -/
def unsortable (t : Trades) (accountId : UUID) (statuses : List OrderStatus) : Prop :=
  2 ≤ ((t.accountOrders accountId).filter fun order => order.status ∈ statuses).length ∧
    ∃ order ∈ (t.accountOrders accountId).filter fun order => order.status ∈ statuses,
      orderListKey order = none

instance (t : Trades) (accountId : UUID) (statuses : List OrderStatus) :
    Decidable (unsortable t accountId statuses) :=
  inferInstanceAs (Decidable (_ ∧ _))

/-- `orders.list(OrderQuery(account_id, statuses, limit))`. -/
def listOrdersIn (t : Trades) (accountId : UUID) (statuses : List OrderStatus) (limit : Nat) :
    Except PyError (List OrderRequestEntity) :=
  if unsortable t accountId statuses then .error (.other "TypeError")
  else .ok (listed t accountId statuses limit)

def openStatuses : List OrderStatus :=
  [.pendingSubmit, .submitted, .acknowledged, .reconcileRequired]

/-- The orders of the instrument a query goes on with. -/
def concerns (order : OrderRequestEntity) (instrumentId : UUID) (now : Time) : Bool :=
  order.instrumentId = instrumentId ∧ order.side = .sell ∧ ¬ isStaleDayOrderResidual order now

/-- A submission that has been pending for half an hour and has no number at the broker. -/
def isStalePendingSubmit (t : Trades) (order : OrderRequestEntity) (now : Time) : Bool :=
  order.status = .pendingSubmit ∧ order.createdAt.any (· < now - 30 * microsPerMinute) ∧
    ¬ (t.listByOrderRequest order.orderRequestId).any fun bo => bo.brokerNativeOrderId.isSome

def getOpenSellQty (repos : Repos) (accountId : UUID) : Option UUID → Except PyError ℚ
  | none => .ok 0
  | some instrumentId => do
    let orders ← listOrdersIn repos.trades accountId openStatuses 200
    return ((orders.filter fun order => concerns order instrumentId repos.nowOpen ∧
      ¬ isStalePendingSubmit repos.trades order repos.nowOpen).map (·.requestedQuantity)).sum

/-- What the fills of a broker order leave of the order; more than all is nothing. -/
def brokerOrderRemaining (t : Trades) (order : OrderRequestEntity) (bo : BrokerOrderEntity) : ℚ :=
  let filledQty := ((t.listByBrokerOrder bo.brokerOrderId).map (·.fillQuantity)).sum
  let remaining := order.requestedQuantity - filledQty
  if 0 < remaining then remaining else 0

/-- An order without a broker order contributes nothing. -/
def partialRemaining (t : Trades) (order : OrderRequestEntity) : ℚ :=
  ((t.listByOrderRequest order.orderRequestId).map (brokerOrderRemaining t order)).sum

def getPartiallyFilledRemainingQty (repos : Repos) (accountId : UUID) :
    Option UUID → Except PyError ℚ
  | none => .ok 0
  | some instrumentId => do
    let orders ← listOrdersIn repos.trades accountId [.partiallyFilled] 100
    return ((orders.filter fun order => concerns order instrumentId repos.nowPartial).map
      (partialRemaining repos.trades)).sum

/-- `text` renders a decimal. -/
def blockingReason (text : ℚ → String) (position openQty partialQty available requested : ℚ) :
    String :=
  "Sell guard blocked: " ++ String.intercalate "; "
    ((if position ≤ 0 then ["position_qty=" ++ text position ++ " (no position)"] else []) ++
      (if 0 < openQty then ["open_sell_qty=" ++ text openQty] else []) ++
      (if 0 < partialQty then ["partial_remaining=" ++ text partialQty] else []) ++
      ["available=" ++ text available ++ " < requested=" ++ text requested])

/-- `AvailableSellQtyResolver.resolve`, for the instrument the symbol was found to name. -/
def resolve (text : ℚ → String) (repos : Repos) (accountId : UUID) (instrumentId : Option UUID)
    (requestedQty : ℚ) : Except PyError SellAvailability := do
  let position := getCurrentPositionQty repos accountId instrumentId
  let openQty ← getOpenSellQty repos accountId instrumentId
  let partialQty ← getPartiallyFilledRemainingQty repos accountId instrumentId
  let available := position - openQty - partialQty
  let isBlocked : Bool := available < requestedQty
  return { availableSellQty := available
           currentPositionQty := position
           openSellQty := openQty
           partiallyFilledRemainingQty := partialQty
           isBlocked := isBlocked
           blockingReason := if isBlocked then
             some (blockingReason text position openQty partialQty available requestedQty)
             else none }

def atBrokerStatuses : List OrderStatus :=
  [.pendingSubmit, .submitted, .acknowledged, .partiallyFilled, .cancelPending, .reconcileRequired]

/-- The clock of the query that would look at the order. -/
def Repos.clockFor (repos : Repos) (order : OrderRequestEntity) : Time :=
  if order.status = .partiallyFilled then repos.nowPartial else repos.nowOpen

/-- A sell order of the account and instrument that may still be executed. -/
def executable (repos : Repos) (accountId instrumentId : UUID) (order : OrderRequestEntity) :
    Bool :=
  order.accountId = accountId ∧ order.status ∈ atBrokerStatuses ∧
    concerns order instrumentId (repos.clockFor order)

def filledQuantity (t : Trades) (order : OrderRequestEntity) : ℚ :=
  ((t.listByOrderRequest order.orderRequestId).map fun bo =>
    ((t.listByBrokerOrder bo.brokerOrderId).map (·.fillQuantity)).sum).sum

def unfilled (t : Trades) (order : OrderRequestEntity) : ℚ :=
  max (order.requestedQuantity - filledQuantity t order) 0

def executableOrders (repos : Repos) (accountId instrumentId : UUID) : List OrderRequestEntity :=
  repos.trades.orders.filter (executable repos accountId instrumentId)

/-- Every request the guard lets through fits into the position beside all sell orders that
may still be executed. -/
def neverOversells (text : ℚ → String) (repos : Repos) (accountId instrumentId : UUID) : Prop :=
  ∀ requested availability,
    resolve text repos accountId (some instrumentId) requested = .ok availability →
    availability.isBlocked = false →
    requested + ((executableOrders repos accountId instrumentId).map (unfilled repos.trades)).sum ≤
      availability.currentPositionQty

/-- The guard does not look at the order: a cancellation is pending, the listing of its status
does not reach it, it is taken for one that never reached the broker, or it is partially
filled without a broker order. -/
def overlooked (repos : Repos) (order : OrderRequestEntity) : Bool :=
  order.status = .cancelPending ∨
  (order.status ∈ openStatuses ∧
    (order ∉ listed repos.trades order.accountId openStatuses 200 ∨
      isStalePendingSubmit repos.trades order repos.nowOpen)) ∨
  (order.status = .partiallyFilled ∧
    (order ∉ listed repos.trades order.accountId [.partiallyFilled] 100 ∨
      repos.trades.listByOrderRequest order.orderRequestId = []))

/-- What the guard sets aside for an order it looks at. -/
def setAside (t : Trades) (order : OrderRequestEntity) : ℚ :=
  if order.status = .partiallyFilled then partialRemaining t order else order.requestedQuantity

def lookedAt (repos : Repos) (accountId instrumentId : UUID) : List OrderRequestEntity :=
  (executableOrders repos accountId instrumentId).filter fun order => ¬ overlooked repos order

/-- Either listing cannot be sorted, or what the overlooked orders may still sell is at most
what is set aside for the others in excess of what they may still sell. -/
def overlookedCovered (repos : Repos) (accountId instrumentId : UUID) : Prop :=
  unsortable repos.trades accountId openStatuses ∨
  unsortable repos.trades accountId [.partiallyFilled] ∨
  (((executableOrders repos accountId instrumentId).filter (overlooked repos)).map
      (unfilled repos.trades)).sum ≤
    ((lookedAt repos accountId instrumentId).map fun order =>
      setAside repos.trades order - unfilled repos.trades order).sum

theorem orders_nodup (t : Trades) : t.orders.Nodup := t.orders_nodup.of_map _

theorem listed_nodup (t : Trades) (accountId : UUID) (statuses : List OrderStatus) (limit : Nat) :
    (listed t accountId statuses limit).Nodup := by
  have hfilter : ((t.accountOrders accountId).filter fun order => order.status ∈ statuses).Nodup :=
    ((orders_nodup t).filter _).filter _
  exact ((List.perm_insertionSort orderAfter _).nodup_iff.mpr hfilter).sublist
    (List.take_sublist _ _)

theorem mem_listed {t : Trades} {accountId : UUID} {statuses : List OrderStatus} {limit : Nat}
    {order : OrderRequestEntity} (h : order ∈ listed t accountId statuses limit) :
    order ∈ t.orders ∧ order.accountId = accountId ∧ order.status ∈ statuses := by
  have hsorted := (List.perm_insertionSort orderAfter _).mem_iff.mp (List.mem_of_mem_take h)
  simp only [Trades.accountOrders, List.mem_filter, decide_eq_true_eq] at hsorted
  exact ⟨hsorted.1.1, hsorted.1.2.2, hsorted.2⟩

theorem overlooked_open {repos : Repos} {order : OrderRequestEntity}
    (h : order.status ∈ openStatuses) :
    overlooked repos order = false ↔
      order ∈ listed repos.trades order.accountId openStatuses 200 ∧
        isStalePendingSubmit repos.trades order repos.nowOpen = false := by
  have hcancel : order.status ≠ .cancelPending := by rintro heq; rw [heq] at h; revert h; decide
  have hpart : order.status ≠ .partiallyFilled := by rintro heq; rw [heq] at h; revert h; decide
  simp only [overlooked, h, hcancel, hpart, true_and, false_and, false_or, or_false,
    decide_eq_false_iff_not, not_or, not_not, Bool.not_eq_true]

theorem overlooked_partly {repos : Repos} {order : OrderRequestEntity}
    (h : order.status = .partiallyFilled) :
    overlooked repos order = false ↔
      order ∈ listed repos.trades order.accountId [.partiallyFilled] 100 ∧
        repos.trades.listByOrderRequest order.orderRequestId ≠ [] := by
  have hopen : OrderStatus.partiallyFilled ∉ openStatuses := by decide
  simp only [overlooked, h, hopen, reduceCtorEq, true_and, false_and, false_or,
    decide_eq_false_iff_not, not_or, not_not, ne_eq]

theorem overlooked_cancelPending {repos : Repos} {order : OrderRequestEntity}
    (h : order.status = .cancelPending) : overlooked repos order = true := by
  simp only [overlooked, h, true_or, decide_true]

theorem mem_lookedAt {repos : Repos} {accountId instrumentId : UUID} {order : OrderRequestEntity} :
    order ∈ lookedAt repos accountId instrumentId ↔ order ∈ repos.trades.orders ∧
      executable repos accountId instrumentId order = true ∧ overlooked repos order = false := by
  simp only [lookedAt, executableOrders, List.mem_filter, decide_eq_true_eq, Bool.not_eq_true,
    and_assoc]

theorem executable_iff {repos : Repos} {accountId instrumentId : UUID}
    {order : OrderRequestEntity} :
    executable repos accountId instrumentId order = true ↔ order.accountId = accountId ∧
      order.status ∈ atBrokerStatuses ∧
      concerns order instrumentId (repos.clockFor order) = true := by
  simp only [executable, decide_eq_true_eq]

theorem lookedAt_nodup (repos : Repos) (accountId instrumentId : UUID) :
    (lookedAt repos accountId instrumentId).Nodup :=
  ((orders_nodup _).filter _).filter _

/-- The open orders the guard adds up are those it looks at that are not partially filled. -/
theorem openListed_perm (repos : Repos) (accountId instrumentId : UUID) :
    ((listed repos.trades accountId openStatuses 200).filter fun order =>
      concerns order instrumentId repos.nowOpen ∧
        ¬ isStalePendingSubmit repos.trades order repos.nowOpen).Perm
      ((lookedAt repos accountId instrumentId).filter fun order =>
        ¬ order.status = .partiallyFilled) := by
  refine (List.perm_ext_iff_of_nodup ((listed_nodup ..).filter _)
    ((lookedAt_nodup ..).filter _)).mpr fun order => ?_
  simp only [List.mem_filter, mem_lookedAt, executable_iff, decide_eq_true_eq, Bool.not_eq_true]
  constructor
  · rintro ⟨hlisted, hconcerns, hfresh⟩
    obtain ⟨hmem, rfl, hstatus⟩ := mem_listed hlisted
    have hpart : order.status ≠ .partiallyFilled := by
      rintro heq; rw [heq] at hstatus; revert hstatus; decide
    have hclock : repos.clockFor order = repos.nowOpen := if_neg hpart
    have hbroker : order.status ∈ atBrokerStatuses := by
      revert hstatus
      cases order.status <;> decide
    rw [hclock]
    exact ⟨⟨hmem, ⟨rfl, hbroker, hconcerns⟩, (overlooked_open hstatus).mpr ⟨hlisted, hfresh⟩⟩,
      hpart⟩
  · rintro ⟨⟨hmem, ⟨rfl, hbroker, hconcerns⟩, hlooked⟩, hpart⟩
    have hcancel : order.status ≠ .cancelPending := by
      intro heq
      rw [overlooked_cancelPending heq] at hlooked
      cases hlooked
    have hstatus : order.status ∈ openStatuses := by
      revert hbroker hpart hcancel
      cases order.status <;> decide
    obtain ⟨hlisted, hfresh⟩ := (overlooked_open hstatus).mp hlooked
    rw [Repos.clockFor, if_neg hpart] at hconcerns
    exact ⟨hlisted, hconcerns, hfresh⟩

/-- The partially filled orders the guard adds up are those it looks at, apart from those
without a broker order. -/
theorem partialListed_perm (repos : Repos) (accountId instrumentId : UUID) :
    (((listed repos.trades accountId [.partiallyFilled] 100).filter fun order =>
      concerns order instrumentId repos.nowPartial).filter fun order =>
        ¬ repos.trades.listByOrderRequest order.orderRequestId = []).Perm
      ((lookedAt repos accountId instrumentId).filter fun order =>
        order.status = .partiallyFilled) := by
  refine (List.perm_ext_iff_of_nodup (((listed_nodup ..).filter _).filter _)
    ((lookedAt_nodup ..).filter _)).mpr fun order => ?_
  simp only [List.mem_filter, mem_lookedAt, executable_iff, decide_eq_true_eq]
  constructor
  · rintro ⟨⟨hlisted, hconcerns⟩, hbrokerOrders⟩
    obtain ⟨hmem, rfl, hstatus⟩ := mem_listed hlisted
    have hpart := List.mem_singleton.mp hstatus
    have hclock : repos.clockFor order = repos.nowPartial := if_pos hpart
    have hbroker : order.status ∈ atBrokerStatuses := by rw [hpart]; decide
    rw [hclock]
    exact ⟨⟨hmem, ⟨rfl, hbroker, hconcerns⟩,
      (overlooked_partly hpart).mpr ⟨hlisted, hbrokerOrders⟩⟩, hpart⟩
  · rintro ⟨⟨hmem, ⟨rfl, -, hconcerns⟩, hlooked⟩, hpart⟩
    obtain ⟨hlisted, hbrokerOrders⟩ := (overlooked_partly hpart).mp hlooked
    rw [Repos.clockFor, if_pos hpart] at hconcerns
    exact ⟨⟨hlisted, hconcerns⟩, hbrokerOrders⟩

theorem counted_eq (repos : Repos) (accountId instrumentId : UUID) :
    (((listed repos.trades accountId openStatuses 200).filter fun order =>
        concerns order instrumentId repos.nowOpen ∧
          ¬ isStalePendingSubmit repos.trades order repos.nowOpen).map (·.requestedQuantity)).sum +
      (((listed repos.trades accountId [.partiallyFilled] 100).filter fun order =>
        concerns order instrumentId repos.nowPartial).map (partialRemaining repos.trades)).sum =
    ((lookedAt repos accountId instrumentId).map (setAside repos.trades)).sum := by
  have hopen := ((openListed_perm repos accountId instrumentId).map (·.requestedQuantity)).sum_eq
  have hpart := ((partialListed_perm repos accountId instrumentId).map
    (partialRemaining repos.trades)).sum_eq
  -- orders without a broker order add nothing
  have hempty := List.sum_map_filter_add_sum_map_filter_not
    (fun order => repos.trades.listByOrderRequest order.orderRequestId = [])
    (partialRemaining repos.trades)
    ((listed repos.trades accountId [.partiallyFilled] 100).filter fun order =>
      concerns order instrumentId repos.nowPartial)
  have hsplit := List.sum_map_filter_add_sum_map_filter_not
    (fun order : OrderRequestEntity => order.status = .partiallyFilled) (setAside repos.trades)
    (lookedAt repos accountId instrumentId)
  have hzero : ((((listed repos.trades accountId [.partiallyFilled] 100).filter fun order =>
      concerns order instrumentId repos.nowPartial).filter fun order =>
        repos.trades.listByOrderRequest order.orderRequestId = []).map
          (partialRemaining repos.trades)).sum = 0 := by
    refine List.sum_eq_zero fun q hq => ?_
    obtain ⟨order, horder, rfl⟩ := List.mem_map.mp hq
    have hnone : repos.trades.listByOrderRequest order.orderRequestId = [] := by
      simpa only [decide_eq_true_eq] using (List.mem_filter.mp horder).2
    rw [partialRemaining, hnone, List.map_nil, List.sum_nil]
  have hsetPartial : ((lookedAt repos accountId instrumentId).filter fun order =>
      order.status = .partiallyFilled).map (setAside repos.trades) =
      ((lookedAt repos accountId instrumentId).filter fun order =>
        order.status = .partiallyFilled).map (partialRemaining repos.trades) := by
    refine List.map_congr_left fun order horder => if_pos ?_
    simpa only [decide_eq_true_eq] using (List.mem_filter.mp horder).2
  have hsetOpen : ((lookedAt repos accountId instrumentId).filter fun order =>
      ¬ order.status = .partiallyFilled).map (setAside repos.trades) =
      ((lookedAt repos accountId instrumentId).filter fun order =>
        ¬ order.status = .partiallyFilled).map (·.requestedQuantity) := by
    refine List.map_congr_left fun order horder => if_neg ?_
    simpa only [decide_eq_true_eq] using (List.mem_filter.mp horder).2
  rw [← hsplit, hsetPartial, hsetOpen, ← hopen, ← hpart, ← hempty, hzero, zero_add, add_comm]

theorem resolve_ok {text : ℚ → String} {repos : Repos} {accountId instrumentId : UUID}
    {requested : ℚ} {availability : SellAvailability}
    (h : resolve text repos accountId (some instrumentId) requested = .ok availability) :
    ¬ unsortable repos.trades accountId openStatuses ∧
    ¬ unsortable repos.trades accountId [.partiallyFilled] ∧
    availability.currentPositionQty = getCurrentPositionQty repos accountId (some instrumentId) ∧
    (availability.isBlocked = false ↔
      requested + ((lookedAt repos accountId instrumentId).map (setAside repos.trades)).sum ≤
        availability.currentPositionQty) := by
  have hcounted := counted_eq repos accountId instrumentId
  by_cases hopen : unsortable repos.trades accountId openStatuses
  · simp only [resolve, getOpenSellQty, listOrdersIn, hopen, if_true] at h
    cases h
  · by_cases hpart : unsortable repos.trades accountId [.partiallyFilled]
    · simp only [resolve, getOpenSellQty, getPartiallyFilledRemainingQty, listOrdersIn, hopen,
        hpart, if_false, if_true] at h
      cases h
    · simp only [resolve, getOpenSellQty, getPartiallyFilledRemainingQty, listOrdersIn, hopen,
        hpart, if_false] at h
      obtain rfl := Except.ok.inj h
      refine ⟨hopen, hpart, rfl, ?_⟩
      rw [← hcounted]
      simp only [decide_eq_false_iff_not, not_lt]
      constructor <;> intro hle <;> linarith

theorem resolve_total (text : ℚ → String) {repos : Repos} {accountId : UUID} (instrumentId : UUID)
    (hopen : ¬ unsortable repos.trades accountId openStatuses)
    (hpart : ¬ unsortable repos.trades accountId [.partiallyFilled]) (requested : ℚ) :
    ∃ availability,
      resolve text repos accountId (some instrumentId) requested = .ok availability := by
  simp only [resolve, getOpenSellQty, getPartiallyFilledRemainingQty, listOrdersIn, hopen, hpart,
    if_false]
  exact ⟨_, rfl⟩

theorem executable_split (repos : Repos) (accountId instrumentId : UUID) :
    ((executableOrders repos accountId instrumentId).map (unfilled repos.trades)).sum =
      (((executableOrders repos accountId instrumentId).filter (overlooked repos)).map
        (unfilled repos.trades)).sum +
      ((lookedAt repos accountId instrumentId).map (unfilled repos.trades)).sum := by
  have hsplit := List.sum_map_filter_add_sum_map_filter_not (overlooked repos ·)
    (unfilled repos.trades) (executableOrders repos accountId instrumentId)
  simp only [Bool.decide_eq_true] at hsplit
  exact hsplit.symm

theorem setAside_split (repos : Repos) (accountId instrumentId : UUID) :
    ((lookedAt repos accountId instrumentId).map (setAside repos.trades)).sum =
      ((lookedAt repos accountId instrumentId).map fun order =>
        setAside repos.trades order - unfilled repos.trades order).sum +
      ((lookedAt repos accountId instrumentId).map (unfilled repos.trades)).sum := by
  rw [← List.sum_map_add]
  simp only [sub_add_cancel]

/-- The guard never lets too much through exactly when what it sets aside in excess covers
what it overlooks. -/
theorem neverOversells_iff (text : ℚ → String) (repos : Repos) (accountId instrumentId : UUID) :
    neverOversells text repos accountId instrumentId ↔
      overlookedCovered repos accountId instrumentId := by
  unfold neverOversells overlookedCovered
  have haside := setAside_split repos accountId instrumentId
  rw [executable_split]
  by_cases hopen : unsortable repos.trades accountId openStatuses
  · refine ⟨fun _ => Or.inl hopen, fun _ requested availability h => ?_⟩
    exact ((resolve_ok h).1 hopen).elim
  · by_cases hpart : unsortable repos.trades accountId [.partiallyFilled]
    · refine ⟨fun _ => Or.inr (Or.inl hpart), fun _ requested availability h => ?_⟩
      exact ((resolve_ok h).2.1 hpart).elim
    · simp only [hopen, hpart, false_or]
      constructor
      · -- the largest request let through leaves exactly what was set aside
        intro hnever
        obtain ⟨availability, h⟩ := resolve_total text instrumentId hopen
          hpart (getCurrentPositionQty repos accountId (some instrumentId) -
            ((lookedAt repos accountId instrumentId).map (setAside repos.trades)).sum)
        obtain ⟨-, -, hposition, hblocked⟩ := resolve_ok h
        have hfits := hnever _ availability h (hblocked.mpr (by rw [hposition]; linarith))
        rw [hposition] at hfits
        linarith
      · intro hcovered requested availability h hunblocked
        obtain ⟨-, -, -, hblocked⟩ := resolve_ok h
        have hfits := hblocked.mp hunblocked
        linarith

/-- Ten shares are held, and a sell order for all of them is being cancelled. -/
def cancelling : Repos where
  trades :=
    { orders := [{ Orders.sampleOrder .cancelPending with
        side := .sell
        createdAt := some 1000 }]
      brokerOrders :=
        [⟨7, 1, "koreainvestment", "acknowledged", some "0000012345", none, none, none⟩]
      fillEvents := []
      orders_nodup := List.nodup_singleton _
      brokerOrders_nodup := List.nodup_singleton _
      fillEvents_nodup := List.nodup_nil }
  positionSnapshots := .ok [⟨2, 3, 10, 500⟩]
  nowOpen := 2000
  nowPartial := 2000

/-- The guard lets a second sale of the same ten shares through. -/
theorem cancelling_oversold :
    (∃ availability, resolve toString cancelling 2 (some 3) 10 = .ok availability ∧
      availability.isBlocked = false ∧ availability.currentPositionQty = 10) ∧
    ((executableOrders cancelling 2 3).map (unfilled cancelling.trades)).sum = 10 ∧
    ¬ neverOversells toString cancelling 2 3 := by
  have hresolve : ((resolve toString cancelling 2 (some 3) 10).map fun availability =>
      (availability.isBlocked, availability.currentPositionQty)) = .ok (false, 10) := by
    decide +kernel
  have hexecutable :
      ((executableOrders cancelling 2 3).map (unfilled cancelling.trades)).sum = 10 := by
    decide +kernel
  obtain ⟨availability, h, hfields⟩ := Library.map_eq_ok.mp hresolve
  have hblocked : availability.isBlocked = false := congrArg Prod.fst hfields
  have hposition : availability.currentPositionQty = 10 := congrArg Prod.snd hfields
  refine ⟨⟨availability, h, hblocked, hposition⟩, hexecutable, fun hnever => ?_⟩
  have hfits := hnever 10 availability h hblocked
  rw [hexecutable, hposition] at hfits
  norm_num at hfits

end AgentTrading.SellGuard
