import Mathlib.Algebra.BigOperators.Group.List.Basic
import Mathlib.Tactic.Ring
import AgentTrading.Performance.Summary
import AgentTrading.RealizedPnl.Conservation

/-! The totals of the summary and of the daily history against the totals over every filled
order. Both read the first page of the account's orders. -/
namespace AgentTrading.Performance
open Domain RealizedPnl

/-- Every filled order of the account, in the table's order. -/
def filledOrders (b : Books) (accountId : UUID) : List OrderRequestEntity :=
  b.trades.orders.filter fun order => order.accountId = accountId ∧ isFilled order

def fillPnls (b : Books) (order : OrderRequestEntity) : List ℚ :=
  (orderFills b order).map (calcPerFillPnl exact · order.side)

def orderPnl (b : Books) (order : OrderRequestEntity) : ℚ := (fillPnls b order).sum

/-- What the fills of an order dated from `startDate` to `endDate` add up to. -/
def orderPnlWithin (b : Books) (startDate endDate : Int) (order : OrderRequestEntity) : ℚ :=
  (((orderFills b order).filter fun fill =>
    startDate ≤ dayOf fill.fillTimestamp ∧ dayOf fill.fillTimestamp ≤ endDate).map
      (calcPerFillPnl exact · order.side)).sum

/-- The summary counts and adds up every filled order. -/
def SummaryComplete (b : Books) (accountId : UUID) : Prop :=
  ∀ now, ∃ summary, getAccountSummary exact b accountId now = .ok summary ∧
    summary.realizedPnl = ((filledOrders b accountId).map (orderPnl b)).sum ∧
    summary.filledOrderCount = (filledOrders b accountId).length ∧
    summary.winningTradeCount = (filledOrders b accountId).countP (0 < orderPnl b ·) ∧
    summary.losingTradeCount = (filledOrders b accountId).countP (orderPnl b · < 0)

/-- The last day of a range carries the results of every fill in the range. -/
def HistoryComplete (b : Books) (accountId : UUID) : Prop :=
  ∀ startDate endDate, startDate ≤ endDate →
    ∃ points last, getDailyHistory exact b accountId startDate endDate none = .ok points ∧
      points.getLast? = some last ∧ last.date = endDate ∧
      last.cumulativeRealizedPnl =
        ((filledOrders b accountId).map (orderPnlWithin b startDate endDate)).sum

/-- The account's orders can be sorted, and its filled ones are among the first hundred. -/
structure FilledOnFirstPage (b : Books) (accountId : UUID) : Prop where
  dated : 2 ≤ (b.trades.accountOrders accountId).length →
    ∀ order ∈ b.trades.accountOrders accountId, orderListKey order ≠ none
  listed : ∀ order ∈ filledOrders b accountId,
    order ∈ ((b.trades.accountOrders accountId).insertionSort orderAfter).take defaultLimit

variable {b : Books} {accountId : UUID}

theorem mem_filledOrders {order : OrderRequestEntity} : order ∈ filledOrders b accountId ↔
    order ∈ b.trades.orders ∧ order.accountId = accountId ∧ isFilled order := by
  simp [filledOrders]

theorem nodup_filledOrders : (filledOrders b accountId).Nodup :=
  (List.Nodup.of_map _ b.trades.orders_nodup).filter _

theorem filter_page_subperm :
    ((((b.trades.accountOrders accountId).insertionSort orderAfter).take defaultLimit).filter
      isFilled).Subperm (filledOrders b accountId) := by
  have hsorted := List.perm_insertionSort orderAfter (b.trades.accountOrders accountId)
  have hnodup : ((b.trades.accountOrders accountId).insertionSort orderAfter).Nodup :=
    hsorted.nodup_iff.mpr ((List.Nodup.of_map _ b.trades.orders_nodup).filter _)
  apply List.subperm_of_subset ((hnodup.sublist (List.take_sublist _ _)).filter _)
  intro order horder
  obtain ⟨hpage, hfilled⟩ := List.mem_filter.mp horder
  have haccount := hsorted.mem_iff.mp (List.mem_of_mem_take hpage)
  simp only [Trades.accountOrders, List.mem_filter, decide_eq_true_eq] at haccount
  exact mem_filledOrders.mpr ⟨haccount.1, haccount.2.2, hfilled⟩

theorem listOrders_of_firstPage (h : FilledOnFirstPage b accountId) :
    ∃ page, b.trades.listOrders accountId defaultLimit = .ok page ∧
      (page.filter isFilled).Perm (filledOrders b accountId) := by
  refine ⟨_, Trades.listOrders_of_dated _ h.dated, ?_⟩
  apply filter_page_subperm.antisymm
  apply List.subperm_of_subset nodup_filledOrders
  intro order horder
  exact List.mem_filter.mpr ⟨h.listed order horder, (mem_filledOrders.mp horder).2.2⟩

theorem firstPage_of_length {page : List OrderRequestEntity}
    (hpage : b.trades.listOrders accountId defaultLimit = .ok page)
    (hlen : (page.filter isFilled).length = (filledOrders b accountId).length) :
    FilledOnFirstPage b accountId := by
  obtain ⟨hdated, rfl⟩ := Trades.listOrders_eq_ok hpage
  have hperm := filter_page_subperm.perm_of_length_le hlen.ge
  exact ⟨hdated, fun order horder => (List.mem_filter.mp (hperm.mem_iff.mpr horder)).1⟩

theorem foldl_calcRealized (fills : List FillEventEntity) (side : OrderSide) (total : ℚ) :
    fills.foldl (fun total fill =>
      let tradeValue := exact.mul (exact.mul fill.fillPrice fill.fillQuantity)
        (sideMultiplier side)
      exact.add total (exact.sub (exact.sub tradeValue (fill.fillFee.getD 0))
        (fill.fillTax.getD 0))) total =
      total + (fills.map (calcPerFillPnl exact · side)).sum := by
  induction fills generalizing total with
  | nil => simp
  | cons fill fills ih =>
    rw [List.foldl_cons, ih, List.map_cons, List.sum_cons, ← add_assoc]
    rfl

theorem calcRealizedPnlForOrder_exact (order : OrderRequestEntity) :
    calcRealizedPnlForOrder exact (orderFills b order) order.side = orderPnl b order := by
  unfold calcRealizedPnlForOrder
  rw [foldl_calcRealized, zero_add]
  rfl

theorem addOrder_exact (totals : TradeTotals) (order : OrderRequestEntity) :
    totals.addOrder exact b order =
      { realizedPnl := totals.realizedPnl + orderPnl b order
        winning := totals.winning + if 0 < orderPnl b order then 1 else 0
        losing := totals.losing + if orderPnl b order < 0 then 1 else 0 } := by
  unfold TradeTotals.addOrder
  split
  next hnone =>
    have hzero : orderPnl b order = 0 := by simp [orderPnl, fillPnls, hnone]
    simp [hzero]
  next =>
    rw [calcRealizedPnlForOrder_exact]
    dsimp only
    rcases lt_trichotomy (orderPnl b order) 0 with hloss | hzero | hgain
    · simp [hloss, not_lt.mpr hloss.le, exact, Numerics.add]
    · simp [hzero, exact, Numerics.add]
    · simp [hgain, not_lt.mpr hgain.le, exact, Numerics.add]

theorem foldl_addOrder (orders : List OrderRequestEntity) (totals : TradeTotals) :
    orders.foldl (TradeTotals.addOrder exact b) totals =
      { realizedPnl := totals.realizedPnl + (orders.map (orderPnl b)).sum
        winning := totals.winning + orders.countP (0 < orderPnl b ·)
        losing := totals.losing + orders.countP (orderPnl b · < 0) } := by
  induction orders generalizing totals with
  | nil => simp
  | cons order orders ih =>
    rw [List.foldl_cons, ih, addOrder_exact]
    simp only [List.map_cons, List.sum_cons, List.countP_cons, decide_eq_true_eq]
    congr 1
    · ring
    · ring
    · ring

theorem tradeTotals_exact (orders : List OrderRequestEntity) : tradeTotals exact b orders =
    ⟨(orders.map (orderPnl b)).sum, orders.countP (0 < orderPnl b ·),
      orders.countP (orderPnl b · < 0)⟩ := by
  unfold tradeTotals
  rw [foldl_addOrder]
  simp

theorem dailyRealized_exact (entries : List (Int × ℚ)) (daily : Int → ℚ) (day : Int) :
    entries.foldl (fun daily entry day =>
      if day = entry.1 then exact.add (daily day) entry.2 else daily day) daily day =
      daily day + (entries.map fun entry => if day = entry.1 then entry.2 else 0).sum := by
  induction entries generalizing daily with
  | nil => simp
  | cons entry entries ih =>
    rw [List.foldl_cons, ih, List.map_cons, List.sum_cons, ← add_assoc]
    split
    next => rfl
    next => simp

theorem nodup_dateRange (startDate endDate : Int) : (dateRange startDate endDate).Nodup := by
  apply List.nodup_range.map
  intro k l hkl
  dsimp only at hkl
  omega

theorem getLast?_dateRange {startDate endDate : Int} (h : startDate ≤ endDate) :
    (dateRange startDate endDate).getLast? = some endDate := by
  have hcount : (endDate + 1 - startDate).toNat = (endDate - startDate).toNat + 1 := by omega
  unfold dateRange
  rw [hcount, List.range_succ, List.map_append, List.map_singleton, List.getLast?_concat]
  congr 1
  omega

theorem sum_ite_eq_of_nodup {days : List Int} (h : days.Nodup) (day : Int) (x : ℚ) :
    (days.map fun d => if d = day then x else 0).sum = if day ∈ days then x else 0 := by
  induction days with
  | nil => rfl
  | cons d days ih =>
    rw [List.map_cons, List.sum_cons, ih h.tail]
    rcases eq_or_ne d day with rfl | hne
    · simp [List.Nodup.notMem h]
    · simp [hne, hne.symm]

theorem sum_dailyRealized (entries : List (Int × ℚ)) {days : List Int} (h : days.Nodup) :
    (days.map (dailyRealized exact entries)).sum =
      (entries.map fun entry => if entry.1 ∈ days then entry.2 else 0).sum := by
  have hday : dailyRealized exact entries = fun day =>
      (entries.map fun entry => if day = entry.1 then entry.2 else 0).sum := by
    funext day
    unfold dailyRealized
    rw [dailyRealized_exact, zero_add]
  rw [hday]
  clear hday
  induction entries with
  | nil => simp
  | cons entry entries ih =>
    simp only [List.map_cons, List.sum_cons, List.sum_map_add]
    rw [sum_ite_eq_of_nodup h, ih]

theorem sum_ite_filter (p : FillEventEntity → Bool) (f : FillEventEntity → ℚ)
    (fills : List FillEventEntity) :
    (fills.map fun fill => if p fill then f fill else 0).sum = ((fills.filter p).map f).sum := by
  induction fills with
  | nil => rfl
  | cons fill fills ih =>
    rw [List.map_cons, List.sum_cons, ih]
    cases hp : p fill with
    | false => simp [hp]
    | true => simp [hp]

theorem sum_datedPnls (orders : List OrderRequestEntity) (startDate endDate : Int) :
    ((datedPnls exact b orders).map fun entry =>
      if entry.1 ∈ dateRange startDate endDate then entry.2 else 0).sum =
      (orders.map (orderPnlWithin b startDate endDate)).sum := by
  induction orders with
  | nil => rfl
  | cons order orders ih =>
    unfold datedPnls at ih ⊢
    rw [List.flatMap_cons, List.map_append, List.sum_append, ih, List.map_cons, List.sum_cons]
    congr 1
    rw [List.map_map]
    unfold orderPnlWithin
    rw [← sum_ite_filter]
    congr 1
    apply List.map_congr_left
    intro fill _
    simp only [Function.comp_apply, mem_dateRange, decide_eq_true_eq]

theorem dailyPoints_getLast? (allCash : List CashBalanceSnapshotEntity)
    (allPositions : List PositionSnapshotEntity) (realizedOn : Int → ℚ) {days : List Int}
    {day : Int} (cumulative : ℚ) (h : days.getLast? = some day) :
    ∃ last, (dailyPoints exact allCash allPositions realizedOn cumulative days).getLast? =
      some last ∧ last.date = day ∧
      last.cumulativeRealizedPnl = cumulative + (days.map realizedOn).sum := by
  induction days generalizing cumulative with
  | nil => cases h
  | cons d days ih =>
    cases days with
    | nil =>
      rw [List.getLast?_singleton, Option.some.injEq] at h
      subst h
      refine ⟨_, rfl, rfl, ?_⟩
      rw [List.map_singleton, List.sum_singleton]
      rfl
    | cons d' days =>
      rw [List.getLast?_cons_cons] at h
      obtain ⟨last, hlast, hdate, hsum⟩ := ih (exact.add cumulative (realizedOn d)) h
      refine ⟨last, ?_, hdate, ?_⟩
      · rw [dailyPoints, ← hlast]
        exact List.getLast?_cons_cons
      · rw [hsum]
        exact add_assoc cumulative (realizedOn d) _

theorem summaryComplete_of_firstPage (h : FilledOnFirstPage b accountId) :
    SummaryComplete b accountId := by
  obtain ⟨page, hpage, hperm⟩ := listOrders_of_firstPage h
  intro now
  unfold getAccountSummary
  rw [hpage]
  refine ⟨_, rfl, ?_, hperm.length_eq, ?_, ?_⟩
  · dsimp only
    rw [tradeTotals_exact]
    exact (hperm.map _).sum_eq
  · dsimp only
    rw [tradeTotals_exact]
    exact hperm.countP_eq _
  · dsimp only
    rw [tradeTotals_exact]
    exact hperm.countP_eq _

theorem historyComplete_of_firstPage (h : FilledOnFirstPage b accountId) :
    HistoryComplete b accountId := by
  obtain ⟨page, hpage, hperm⟩ := listOrders_of_firstPage h
  intro startDate endDate hrange
  unfold getDailyHistory
  rw [hpage]
  obtain ⟨last, hlast, hdate, hsum⟩ := dailyPoints_getLast? (b.listCashByAccount accountId)
    (b.listLatestByAccount accountId)
      (dailyRealized exact (datedPnls exact b (page.filter isFilled)))
    0 (getLast?_dateRange hrange)
  refine ⟨_, last, rfl, hlast, hdate, ?_⟩
  rw [hsum, zero_add, sum_dailyRealized _ (nodup_dateRange _ _), sum_datedPnls]
  exact (hperm.map _).sum_eq

theorem firstPage_of_summaryComplete (h : SummaryComplete b accountId) :
    FilledOnFirstPage b accountId := by
  obtain ⟨summary, hsummary, -, hcount, -⟩ := h 0
  unfold getAccountSummary at hsummary
  cases hpage : b.trades.listOrders accountId defaultLimit with
  | error e =>
    rw [hpage] at hsummary
    cases hsummary
  | ok page =>
    rw [hpage] at hsummary
    apply firstPage_of_length hpage
    rw [← hcount, ← Except.ok.inj hsummary]

/-- For every account and tables: the summary and every daily history hold the totals over all
FILLED and PARTIALLY_FILLED orders exactly when these are on the first page of the account's
orders. -/
theorem totalsComplete_iff (b : Books) (accountId : UUID) :
    SummaryComplete b accountId ∧ HistoryComplete b accountId ↔
      FilledOnFirstPage b accountId := by
  constructor
  · rintro ⟨hsummary, -⟩
    exact firstPage_of_summaryComplete hsummary
  · intro h
    exact ⟨summaryComplete_of_firstPage h, historyComplete_of_firstPage h⟩

/-- The account's `k`-th order, a buy filled on day `k`. -/
def dailyBuy (k : Nat) : OrderRequestEntity where
  orderRequestId := k
  accountId := 1
  instrumentId := 7
  clientOrderId := "client-" ++ toString k
  idempotencyKey := "key-" ++ toString k
  correlationId := "correlation-" ++ toString k
  side := .buy
  orderType := .limit
  requestedQuantity := 1
  status := .filled
  createdAt := some (24 * 60 * microsPerMinute * k)

/-- One filled order more than a page holds; only the first, the oldest, has a fill: one share
at 1000. -/
def outgrown : Books where
  backend := .postgres
  trades :=
    { orders := (List.range (defaultLimit + 1)).map dailyBuy
      brokerOrders := [{
        brokerOrderId := 50
        orderRequestId := 0
        brokerName := "KIS"
        brokerStatus := "filled" }]
      fillEvents := [{
        fillEventId := 90
        brokerOrderId := 50
        fillTimestamp := 0
        fillPrice := 1000
        fillQuantity := 1
        sourceChannel := "rest" }]
      orders_nodup := by
        rw [List.map_map]
        exact (List.map_id (List.range (defaultLimit + 1))).symm ▸ List.nodup_range
      brokerOrders_nodup := List.nodup_singleton _
      fillEvents_nodup := List.nodup_singleton _ }
  positionSnapshots := []
  cashBalanceSnapshots := []

theorem filledOrderCount_le {now : Time} {n : Numerics} {summary : AccountPerformanceSummary}
    (h : getAccountSummary n b accountId now = .ok summary) :
    summary.filledOrderCount ≤ defaultLimit := by
  unfold getAccountSummary at h
  cases hpage : b.trades.listOrders accountId defaultLimit with
  | error e =>
    rw [hpage] at h
    cases h
  | ok page =>
    rw [hpage] at h
    rw [← Except.ok.inj h]
    apply (List.length_filter_le _ _).trans
    rw [(Trades.listOrders_eq_ok hpage).2]
    exact List.length_take_le _ _

theorem length_filledOrders_outgrown : (filledOrders outgrown 1).length = defaultLimit + 1 := by
  have hall : filledOrders outgrown 1 = outgrown.trades.orders := by
    apply List.filter_eq_self.mpr
    intro order horder
    obtain ⟨k, -, rfl⟩ := List.mem_map.mp horder
    rfl
  rw [hall]
  change ((List.range (defaultLimit + 1)).map dailyBuy).length = _
  rw [List.length_map, List.length_range]

/-- The summary of an account with a hundred and one filled orders counts at most a hundred. -/
theorem outgrown_incomplete :
    ¬ (SummaryComplete outgrown 1 ∧ HistoryComplete outgrown 1) := by
  rintro ⟨h, -⟩
  obtain ⟨summary, hsummary, -, hcount, -⟩ := h 0
  have hle := filledOrderCount_le hsummary
  rw [hcount, length_filledOrders_outgrown] at hle
  omega

end AgentTrading.Performance
