import Mathlib.Data.List.Sort
import Mathlib.Data.Prod.Lex
import Mathlib.Data.String.Basic
import AgentTrading.Library.Keyed
import AgentTrading.RealizedPnl.Engine

/-! The order, broker order and fill tables the ledger joins, from a fill to its order and
from an order to its fills. -/
namespace AgentTrading.RealizedPnl
open Domain Library.Keyed

/-- The trading tables. The overlays are looked up by the fill they correct: an estimated fee,
or an estimated fee and tax. -/
structure Trades where
  orders : List OrderRequestEntity
  brokerOrders : List BrokerOrderEntity
  fillEvents : List FillEventEntity
  excludedAccountIds : List UUID := []
  historicalBuyFeeOverlays : UUID → Option ℚ := fun _ => none
  historicalSellFeeTaxOverlays : UUID → Option (ℚ × ℚ) := fun _ => none
  orders_nodup : (orders.map (·.orderRequestId)).Nodup
  brokerOrders_nodup : (brokerOrders.map (·.brokerOrderId)).Nodup
  fillEvents_nodup : (fillEvents.map (·.fillEventId)).Nodup

structure FillLineage where
  accountId : UUID
  instrumentId : UUID
  orderRequestId : UUID
  side : OrderSide
  deriving DecidableEq

/-- What `apply_fill` can raise: a broken lineage, or whatever a repository raised. -/
inductive LedgerError where
  | unresolvedBrokerOrder (brokerOrderId fillEventId : UUID)
  | unresolvedOrderRequest (orderRequestId fillEventId : UUID)
  | repository (error : PyError)
  deriving DecidableEq

/-- A missing fee or tax is zero; unless the source is explicit, it is reported as soon as one
of the two is. -/
def normalizeFeeTax (fee tax : Option ℚ) (explicitSource : Option FeeTaxSource) :
    ℚ × ℚ × FeeTaxSource :=
  match explicitSource with
  | some source => (fee.getD 0, tax.getD 0, source)
  | none =>
    if fee = none ∧ tax = none then (0, 0, .assumedZero)
    else (fee.getD 0, tax.getD 0, .reported)

/-- An unknown source text is passed over. -/
def buildNormalizedFill (fillEvent : FillEventEntity) (lineage : FillLineage) : NormalizedFill :=
  let (fee, tax, source) := normalizeFeeTax fillEvent.fillFee fillEvent.fillTax
    (fillEvent.feeTaxSource.bind FeeTaxSource.ofValue?)
  { fillEventId := fillEvent.fillEventId
    accountId := lineage.accountId
    instrumentId := lineage.instrumentId
    brokerOrderId := fillEvent.brokerOrderId
    orderRequestId := lineage.orderRequestId
    side := lineage.side
    quantity := fillEvent.fillQuantity
    price := fillEvent.fillPrice
    fee := fee
    tax := tax
    feeTaxSource := source
    fillTimestamp := fillEvent.fillTimestamp }

/-- `datetime.max` in UTC, to the microsecond. -/
def datetimeMax : Time := 253402300799999999

/-- `_fill_sort_key`. The text of an identifier orders as its integer. -/
def fillSortKey (fill : FillEventEntity) : Time ×ₗ (Nat ×ₗ String) ×ₗ Time ×ₗ UUID :=
  let brokerFillRank : Nat ×ₗ String :=
    match fill.brokerFillId with
    | some id => toLex (0, id)
    | none => toLex (1, "")
  toLex (fill.fillTimestamp, toLex (brokerFillRank,
    toLex (fill.createdAt.getD datetimeMax, fill.fillEventId)))

/-- The order of a sort by `_fill_sort_key`. -/
def fillBefore (a b : FillEventEntity) : Prop := fillSortKey a ≤ fillSortKey b

instance : DecidableRel fillBefore := fun a b =>
  inferInstanceAs (Decidable (fillSortKey a ≤ fillSortKey b))

/-- `created_at or submitted_at`. -/
def orderListKey (order : OrderRequestEntity) : Option Time := order.createdAt.or order.submittedAt

/-- Newest first. -/
def orderAfter (a b : OrderRequestEntity) : Prop :=
  (orderListKey b).getD 0 ≤ (orderListKey a).getD 0

instance : DecidableRel orderAfter := fun a b =>
  inferInstanceAs (Decidable ((orderListKey b).getD 0 ≤ (orderListKey a).getD 0))

def orderLookupLimit : Nat := 100000

namespace Trades

def getBrokerOrder (t : Trades) (brokerOrderId : UUID) : Option BrokerOrderEntity :=
  t.brokerOrders.find? (·.brokerOrderId = brokerOrderId)

def getOrder (t : Trades) (orderRequestId : UUID) : Option OrderRequestEntity :=
  t.orders.find? (·.orderRequestId = orderRequestId)

def resolveLineage (t : Trades) (fill : FillEventEntity) : Except LedgerError FillLineage :=
  match t.getBrokerOrder fill.brokerOrderId with
  | none => .error (.unresolvedBrokerOrder fill.brokerOrderId fill.fillEventId)
  | some brokerOrder =>
    match t.getOrder brokerOrder.orderRequestId with
    | none => .error (.unresolvedOrderRequest brokerOrder.orderRequestId fill.fillEventId)
    | some order => .ok ⟨order.accountId, order.instrumentId, order.orderRequestId, order.side⟩

/-- The account's orders that a listing may show. -/
def accountOrders (t : Trades) (accountId : UUID) : List OrderRequestEntity :=
  t.orders.filter fun order => order.accountId ∉ t.excludedAccountIds ∧ order.accountId = accountId

/-- `orders.list(OrderQuery(account_id, limit))`. Comparing an absent time raises, and with two
orders or more every order is compared. -/
def listOrders (t : Trades) (accountId : UUID) (limit : Nat) :
    Except PyError (List OrderRequestEntity) :=
  let results := t.accountOrders accountId
  if 2 ≤ results.length ∧ ∃ order ∈ results, orderListKey order = none then
    .error (.other "TypeError")
  else .ok ((results.insertionSort orderAfter).take limit)

def listByOrderRequest (t : Trades) (orderRequestId : UUID) : List BrokerOrderEntity :=
  t.brokerOrders.filter (·.orderRequestId = orderRequestId)

def listByBrokerOrder (t : Trades) (brokerOrderId : UUID) : List FillEventEntity :=
  (t.fillEvents.filter (·.brokerOrderId = brokerOrderId)).insertionSort
    fun a b => a.fillTimestamp ≤ b.fillTimestamp

/-- The fill with its overlays: the buy overlay first, the sell overlay over it. -/
def effectiveFillEvent (t : Trades) (fill : FillEventEntity) : FillEventEntity :=
  let fill' :=
    match t.historicalBuyFeeOverlays fill.fillEventId with
    | some fee => { fill with
        fillFee := some fee
        fillTax := some 0
        feeTaxSource := some FeeTaxSource.historicalPolicyEstimate.value }
    | none => fill
  match t.historicalSellFeeTaxOverlays fill.fillEventId with
  | some (fee, tax) => { fill' with
      fillFee := some fee
      fillTax := some tax
      feeTaxSource := some FeeTaxSource.historicalPolicyEstimate.value }
  | none => fill'

/-- The fills an order leads to. -/
def fillsUnder (t : Trades) (order : OrderRequestEntity) : List FillEventEntity :=
  (t.listByOrderRequest order.orderRequestId).flatMap fun brokerOrder =>
    t.listByBrokerOrder brokerOrder.brokerOrderId

def fillRows (t : Trades) (accountId instrumentId : UUID) (orders : List OrderRequestEntity) :
    List (FillEventEntity × NormalizedFill) :=
  orders.flatMap fun order => (t.fillsUnder order).map fun fill =>
    (fill, buildNormalizedFill (t.effectiveFillEvent fill)
      ⟨accountId, instrumentId, order.orderRequestId, order.side⟩)

def collectOrderedNormalizedFills (t : Trades) (accountId instrumentId : UUID) :
    Except PyError (List NormalizedFill) := do
  let orders ← t.listOrders accountId orderLookupLimit
  let rows := t.fillRows accountId instrumentId
    (orders.filter (·.instrumentId = instrumentId))
  return (rows.insertionSort fun a b => fillBefore a.1 b.1).map (·.2)

/-! The fills of an account and instrument, as `apply_fill` sees them one by one. -/

/-- The fill's own order is of the account and instrument. -/
def belongs (t : Trades) (accountId instrumentId : UUID) (fill : FillEventEntity) : Bool :=
  match t.resolveLineage fill with
  | .ok lineage => lineage.accountId = accountId ∧ lineage.instrumentId = instrumentId
  | .error _ => false

def orderedFills (t : Trades) (accountId instrumentId : UUID) : List FillEventEntity :=
  (t.fillEvents.filter (t.belongs accountId instrumentId)).insertionSort fillBefore

def normalize (t : Trades) (fill : FillEventEntity) : Option NormalizedFill :=
  (t.resolveLineage fill).toOption.map (buildNormalizedFill fill)

/-- The account's fills in the order they are replayed in. -/
def history (t : Trades) (accountId instrumentId : UUID) : List NormalizedFill :=
  (t.orderedFills accountId instrumentId).filterMap t.normalize

end Trades

namespace Trades

/-- The account's orders can all be listed: the listing does not pass the account over, does
not cut it off and does not compare an absent time. -/
structure Listed (t : Trades) (accountId : UUID) : Prop where
  notExcluded : accountId ∉ t.excludedAccountIds
  withinLimit : (t.accountOrders accountId).length ≤ orderLookupLimit
  dated : 2 ≤ (t.accountOrders accountId).length →
    ∀ order ∈ t.accountOrders accountId, orderListKey order ≠ none

/-- No overlay corrects a fill of the account and instrument. -/
def Uncorrected (t : Trades) (accountId instrumentId : UUID) : Prop :=
  ∀ fill ∈ t.orderedFills accountId instrumentId,
    t.historicalBuyFeeOverlays fill.fillEventId = none ∧
      t.historicalSellFeeTaxOverlays fill.fillEventId = none

variable {t : Trades} {accountId instrumentId : UUID}

theorem getBrokerOrder_eq_some (brokerOrderId : UUID) (brokerOrder : BrokerOrderEntity) :
    t.getBrokerOrder brokerOrderId = some brokerOrder ↔
      brokerOrder ∈ t.brokerOrders ∧ brokerOrder.brokerOrderId = brokerOrderId :=
  find?_key t.brokerOrders_nodup brokerOrderId brokerOrder

theorem getOrder_eq_some (orderRequestId : UUID) (order : OrderRequestEntity) :
    t.getOrder orderRequestId = some order ↔
      order ∈ t.orders ∧ order.orderRequestId = orderRequestId :=
  find?_key t.orders_nodup orderRequestId order

theorem resolveLineage_eq_ok (fill : FillEventEntity) (lineage : FillLineage) :
    t.resolveLineage fill = .ok lineage ↔
      ∃ brokerOrder ∈ t.brokerOrders, fill.brokerOrderId = brokerOrder.brokerOrderId ∧
        ∃ order ∈ t.orders, brokerOrder.orderRequestId = order.orderRequestId ∧
          lineage = ⟨order.accountId, order.instrumentId, order.orderRequestId, order.side⟩ := by
  constructor
  · intro h
    unfold resolveLineage at h
    split at h
    · contradiction
    next brokerOrder hbroker =>
      obtain ⟨hbmem, hbid⟩ := (getBrokerOrder_eq_some _ _).mp hbroker
      split at h
      · contradiction
      next order horder =>
        obtain ⟨homem, hoid⟩ := (getOrder_eq_some _ _).mp horder
        exact ⟨brokerOrder, hbmem, hbid.symm, order, homem, hoid.symm, (Except.ok.inj h).symm⟩
  · rintro ⟨brokerOrder, hbmem, hbid, order, homem, hoid, rfl⟩
    simp only [resolveLineage, (getBrokerOrder_eq_some _ _).mpr ⟨hbmem, hbid.symm⟩,
      (getOrder_eq_some _ _).mpr ⟨homem, hoid.symm⟩]

theorem mem_accountOrders (h : accountId ∉ t.excludedAccountIds) (order : OrderRequestEntity) :
    order ∈ t.accountOrders accountId ↔ order ∈ t.orders ∧ order.accountId = accountId := by
  simp only [accountOrders, List.mem_filter, decide_eq_true_eq]
  constructor
  · rintro ⟨hmem, -, hacc⟩
    exact ⟨hmem, hacc⟩
  · rintro ⟨hmem, hacc⟩
    exact ⟨hmem, by rwa [hacc], hacc⟩

theorem listOrders_of_dated (limit : Nat) (hdated : 2 ≤ (t.accountOrders accountId).length →
      ∀ order ∈ t.accountOrders accountId, orderListKey order ≠ none) :
    t.listOrders accountId limit =
      .ok (((t.accountOrders accountId).insertionSort orderAfter).take limit) := by
  unfold listOrders
  apply if_neg
  rintro ⟨hlen, order, hmem, hnone⟩
  exact hdated hlen order hmem hnone

theorem listOrders_eq_ok {page : List OrderRequestEntity} {limit : Nat}
    (h : t.listOrders accountId limit = .ok page) :
    (2 ≤ (t.accountOrders accountId).length →
      ∀ order ∈ t.accountOrders accountId, orderListKey order ≠ none) ∧
    page = ((t.accountOrders accountId).insertionSort orderAfter).take limit := by
  unfold listOrders at h
  dsimp only at h
  split at h
  next => cases h
  next hsortable =>
    refine ⟨fun hlen order horder hnone => ?_, (Except.ok.inj h).symm⟩
    exact hsortable ⟨hlen, order, horder, hnone⟩

theorem listOrders_perm (h : t.Listed accountId) :
    ∃ orders, t.listOrders accountId orderLookupLimit = .ok orders ∧
      orders.Perm (t.accountOrders accountId) := by
  refine ⟨(t.accountOrders accountId).insertionSort orderAfter, ?_, List.perm_insertionSort _ _⟩
  have hall : (t.accountOrders accountId).length ≤ orderLookupLimit := h.withinLimit
  rw [listOrders_of_dated _ h.dated, List.take_of_length_le (by rwa [List.length_insertionSort])]

/-! The fills collected from the orders down are the fills whose lineage leads up to them. -/

theorem belongs_iff (fill : FillEventEntity) :
    t.belongs accountId instrumentId fill = true ↔
      ∃ lineage, t.resolveLineage fill = .ok lineage ∧
        lineage.accountId = accountId ∧ lineage.instrumentId = instrumentId := by
  unfold belongs
  cases t.resolveLineage fill with
  | error e => simp only [Bool.false_eq_true, reduceCtorEq, false_and, exists_false]
  | ok lineage =>
    simp only [decide_eq_true_eq, Except.ok.injEq, exists_eq_left']

theorem fillsUnder_perm (orders : List OrderRequestEntity) :
    (orders.flatMap t.fillsUnder).Perm
      (join (·.brokerOrderId) (·.brokerOrderId)
        (join (·.orderRequestId) (·.orderRequestId) orders t.brokerOrders) t.fillEvents) := by
  unfold join
  rw [List.flatMap_assoc]
  apply List.Perm.flatMap_left
  intro order _
  apply List.Perm.flatMap_left
  intro brokerOrder _
  exact List.perm_insertionSort _ _

theorem fillsUnder_belongs (h : t.Listed accountId) {orders : List OrderRequestEntity}
    (hperm : orders.Perm (t.accountOrders accountId)) :
    ((orders.filter (·.instrumentId = instrumentId)).flatMap t.fillsUnder).Perm
      (t.fillEvents.filter (t.belongs accountId instrumentId)) := by
  have hnodup : ((orders.filter (·.instrumentId = instrumentId)).map (·.orderRequestId)).Nodup := by
    have hacc : ((t.accountOrders accountId).map (·.orderRequestId)).Nodup :=
      t.orders_nodup.sublist (List.Sublist.map _ List.filter_sublist)
    exact ((hperm.map _).nodup_iff.mpr hacc).sublist (List.Sublist.map _ List.filter_sublist)
  refine (fillsUnder_perm _).trans ?_
  have hjoin := nodup_join (·.orderRequestId) hnodup t.brokerOrders_nodup
  have hfills := nodup_join (·.brokerOrderId) hjoin t.fillEvents_nodup
  refine (List.perm_ext_iff_of_nodup (List.Nodup.of_map _ hfills)
    ((List.Nodup.of_map _ t.fillEvents_nodup).filter _)).mpr fun fill => ?_
  simp only [mem_join, List.mem_filter, decide_eq_true_eq, hperm.mem_iff, belongs_iff,
    mem_accountOrders h.notExcluded, resolveLineage_eq_ok]
  constructor
  · rintro ⟨hfill, brokerOrder, ⟨hbroker, order, ⟨⟨horder, hacc⟩, hins⟩, hoid⟩, hbid⟩
    exact ⟨hfill, _, ⟨brokerOrder, hbroker, hbid, order, horder, hoid, rfl⟩, hacc, hins⟩
  · rintro ⟨hfill, _, ⟨brokerOrder, hbroker, hbid, order, horder, hoid, rfl⟩, hacc, hins⟩
    exact ⟨hfill, brokerOrder, ⟨hbroker, order, ⟨⟨horder, hacc⟩, hins⟩, hoid⟩, hbid⟩

theorem mem_fillsUnder (order : OrderRequestEntity) (fill : FillEventEntity) :
    fill ∈ t.fillsUnder order ↔ fill ∈ t.fillEvents ∧
      ∃ brokerOrder ∈ t.brokerOrders, brokerOrder.orderRequestId = order.orderRequestId ∧
        fill.brokerOrderId = brokerOrder.brokerOrderId := by
  simp only [fillsUnder, listByOrderRequest, listByBrokerOrder, List.mem_flatMap,
    List.mem_insertionSort, List.mem_filter, decide_eq_true_eq]
  constructor
  · rintro ⟨brokerOrder, ⟨hbroker, hoid⟩, hfill, hbid⟩
    exact ⟨hfill, brokerOrder, hbroker, hoid, hbid⟩
  · rintro ⟨hfill, brokerOrder, hbroker, hoid, hbid⟩
    exact ⟨brokerOrder, ⟨hbroker, hoid⟩, hfill, hbid⟩

theorem normalize_of_mem_fillRows (huncorrected : t.Uncorrected accountId instrumentId)
    {orders : List OrderRequestEntity}
    (horders : ∀ order ∈ orders, order ∈ t.orders ∧ order.accountId = accountId ∧
      order.instrumentId = instrumentId)
    {row : FillEventEntity × NormalizedFill}
    (hrow : row ∈ t.fillRows accountId instrumentId orders) :
    t.normalize row.1 = some row.2 := by
  simp only [fillRows, List.mem_flatMap, List.mem_map] at hrow
  obtain ⟨order, horder, fill, hfill, rfl⟩ := hrow
  obtain ⟨hmem, hacc, hins⟩ := horders order horder
  obtain ⟨hfmem, brokerOrder, hbroker, hoid, hbid⟩ := (mem_fillsUnder order fill).mp hfill
  have hlineage := (resolveLineage_eq_ok fill _).mpr
    ⟨brokerOrder, hbroker, hbid, order, hmem, hoid, rfl⟩
  have hbelongs : t.belongs accountId instrumentId fill = true :=
    (belongs_iff fill).mpr ⟨_, hlineage, hacc, hins⟩
  obtain ⟨hbuy, hsell⟩ := huncorrected fill
    ((List.mem_insertionSort _).mpr (List.mem_filter.mpr ⟨hfmem, hbelongs⟩))
  simp only [normalize, hlineage, effectiveFillEvent, hbuy, hsell, hacc, hins,
    Except.toOption, Option.map_some]

theorem fillRows_map_fst (orders : List OrderRequestEntity) :
    (t.fillRows accountId instrumentId orders).map Prod.fst = orders.flatMap t.fillsUnder := by
  simp only [fillRows, List.map_flatMap, List.map_map, Function.comp_def, List.map_id']

theorem fillSortKey_injective {a b : FillEventEntity} (h : fillSortKey a = fillSortKey b) :
    a.fillEventId = b.fillEventId :=
  congrArg (fun k => (ofLex (ofLex (ofLex k).2).2).2) h

theorem fillTimestamp_le {a b : FillEventEntity} (h : fillBefore a b) :
    a.fillTimestamp ≤ b.fillTimestamp :=
  (Prod.Lex.le_iff'.mp h).1

instance : Std.Total fillBefore := ⟨fun a b => le_total (fillSortKey a) (fillSortKey b)⟩

instance : IsTrans FillEventEntity fillBefore := ⟨fun _ _ _ => le_trans⟩

theorem map_snd_eq_filterMap {rows : List (FillEventEntity × NormalizedFill)}
    (h : ∀ row ∈ rows, t.normalize row.1 = some row.2) :
    rows.map Prod.snd = (rows.map Prod.fst).filterMap t.normalize := by
  rw [List.filterMap_map, ← List.filterMap_eq_map]
  refine List.filterMap_congr fun row hrow => ?_
  exact (h row hrow).symm

theorem collectOrderedNormalizedFills_eq (h : t.Listed accountId)
    (huncorrected : t.Uncorrected accountId instrumentId) :
    t.collectOrderedNormalizedFills accountId instrumentId =
      .ok (t.history accountId instrumentId) := by
  obtain ⟨orders, hlist, hperm⟩ := listOrders_perm h
  let matching := orders.filter (·.instrumentId = instrumentId)
  let rows := t.fillRows accountId instrumentId matching
  have hmatching : ∀ order ∈ matching, order ∈ t.orders ∧ order.accountId = accountId ∧
      order.instrumentId = instrumentId := by
    intro order horder
    simp only [matching, List.mem_filter, decide_eq_true_eq, hperm.mem_iff,
      mem_accountOrders h.notExcluded] at horder
    exact ⟨horder.1.1, horder.1.2, horder.2⟩
  have hsorted : (rows.insertionSort fun a b => fillBefore a.1 b.1).map Prod.fst =
      t.orderedFills accountId instrumentId := by
    rw [List.map_insertionSort (r := fun a b => fillBefore a.1 b.1) (s := fillBefore) Prod.fst
      rows fun _ _ _ _ => Iff.rfl, fillRows_map_fst]
    refine List.Perm.eq_of_pairwise ?_ (List.pairwise_insertionSort fillBefore _)
      (List.pairwise_insertionSort fillBefore _) ?_
    · intro a b ha hb hab hba
      refine eq_of_key t.fillEvents_nodup ?_ ?_ (fillSortKey_injective (le_antisymm hab hba))
      · exact List.mem_of_mem_filter
          ((fillsUnder_belongs h hperm).mem_iff.mp ((List.mem_insertionSort _).mp ha))
      · exact List.mem_of_mem_filter ((List.mem_insertionSort _).mp hb)
    · exact (List.perm_insertionSort _ _).trans
        ((fillsUnder_belongs h hperm).trans (List.perm_insertionSort _ _).symm)
  have hrows : ∀ row ∈ rows.insertionSort fun a b => fillBefore a.1 b.1,
      t.normalize row.1 = some row.2 := fun row hrow =>
    normalize_of_mem_fillRows huncorrected hmatching ((List.mem_insertionSort _).mp hrow)
  unfold collectOrderedNormalizedFills history
  rw [hlist, ← hsorted, ← map_snd_eq_filterMap hrows]
  rfl

end Trades

end AgentTrading.RealizedPnl
