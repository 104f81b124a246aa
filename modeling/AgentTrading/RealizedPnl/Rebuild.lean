import AgentTrading.RealizedPnl.Equivalence
import AgentTrading.RealizedPnl.Flag

/-! What a completed recompute leaves, whatever the ledger held and in whatever order the
repositories answer. It writes the rows its replay stands for and deletes none. -/
namespace AgentTrading.RealizedPnl
open Domain Library Library.Keyed

/-- The answers of the repositories to one recompute. -/
structure Listing where
  orders : List OrderRequestEntity
  brokerOrders : UUID → List BrokerOrderEntity
  fillEvents : UUID → List FillEventEntity

namespace Listing

/-- The answers come from the tables: orders of theirs, with all that belongs to them. -/
structure Of (l : Listing) (t : Trades) : Prop where
  orders : l.orders.Subperm t.orders
  brokerOrders : ∀ id, (l.brokerOrders id).Perm (t.listByOrderRequest id)
  fillEvents : ∀ id, (l.fillEvents id).Perm (t.listByBrokerOrder id)

/-- The same answers in another order. -/
structure Reordered (l l' : Listing) : Prop where
  orders : l.orders.Perm l'.orders
  brokerOrders : ∀ id, (l.brokerOrders id).Perm (l'.brokerOrders id)
  fillEvents : ∀ id, (l.fillEvents id).Perm (l'.fillEvents id)

/-- The fills under an order. -/
def fillsUnder (l : Listing) (order : OrderRequestEntity) : List FillEventEntity :=
  (l.brokerOrders order.orderRequestId).flatMap fun brokerOrder =>
    l.fillEvents brokerOrder.brokerOrderId

/-- The loops of `_collect_ordered_normalized_fills` over the answers. -/
def fillRows (l : Listing) (t : Trades) (accountId instrumentId : UUID) :
    List (FillEventEntity × NormalizedFill) :=
  (l.orders.filter (·.instrumentId = instrumentId)).flatMap fun order =>
    (l.fillsUnder order).map fun fill =>
      (fill, buildNormalizedFill (t.effectiveFillEvent fill)
        ⟨accountId, instrumentId, order.orderRequestId, order.side⟩)

def orderedFills (l : Listing) (t : Trades) (accountId instrumentId : UUID) :
    List NormalizedFill :=
  ((l.fillRows t accountId instrumentId).insertionSort fun a b => fillBefore a.1 b.1).map (·.2)

variable {l l' : Listing} {t : Trades} {accountId instrumentId : UUID}

theorem Reordered.fillRows (h : l.Reordered l') :
    (l.fillRows t accountId instrumentId).Perm (l'.fillRows t accountId instrumentId) := by
  unfold Listing.fillRows
  apply (h.orders.filter _).flatMap
  intro order _
  apply List.Perm.map
  apply (h.brokerOrders _).flatMap
  intro brokerOrder _
  exact h.fillEvents _

theorem Of.nodup (h : l.Of t) :
    ((l.fillRows t accountId instrumentId).map fun row => row.1.fillEventId).Nodup := by
  let orders := l.orders.filter (·.instrumentId = instrumentId)
  have horders : (orders.map (·.orderRequestId)).Nodup := by
    obtain ⟨listed, hperm, hsub⟩ := h.orders
    have hlisted : (listed.map (·.orderRequestId)).Nodup := t.orders_nodup.sublist (hsub.map _)
    have hall : (l.orders.map (·.orderRequestId)).Nodup := (hperm.map _).nodup_iff.mp hlisted
    exact hall.sublist (List.Sublist.map _ List.filter_sublist)
  have hjoin := nodup_join (·.orderRequestId) horders t.brokerOrders_nodup
  have hfills := nodup_join (·.brokerOrderId) hjoin t.fillEvents_nodup
  have hrows : ((l.fillRows t accountId instrumentId).map Prod.fst).Perm
      (orders.flatMap t.fillsUnder) := by
    simp only [Listing.fillRows, List.map_flatMap, List.map_map, Function.comp_def, List.map_id']
    apply List.Perm.flatMap_left
    intro order _
    apply (h.brokerOrders _).flatMap
    intro brokerOrder _
    exact h.fillEvents _
  have hperm := (hrows.trans (Trades.fillsUnder_perm orders)).map (·.fillEventId)
  rw [List.map_map] at hperm
  exact hperm.nodup_iff.mpr hfills

theorem Reordered.orderedFills (h : l.Reordered l') (hof : l.Of t) :
    l.orderedFills t accountId instrumentId = l'.orderedFills t accountId instrumentId := by
  unfold Listing.orderedFills
  have hrows : (l.fillRows t accountId instrumentId).Perm (l'.fillRows t accountId instrumentId) :=
    h.fillRows
  have hsame := (List.perm_insertionSort (fun a b => fillBefore a.1 b.1) _).trans
    (hrows.trans (List.perm_insertionSort (fun a b => fillBefore a.1 b.1) _).symm)
  congr 1
  apply hsame.eq_of_pairwise
  · intro a b ha hb hab hba
    apply eq_of_key hof.nodup
    · exact (List.mem_insertionSort _).mp ha
    · exact hrows.mem_iff.mpr ((List.mem_insertionSort _).mp hb)
    · exact Trades.fillSortKey_injective (le_antisymm hab hba)
  · exact List.pairwise_insertionSort _ _
  · exact List.pairwise_insertionSort _ _

theorem orderedFills_key {fill : NormalizedFill}
    (h : fill ∈ l.orderedFills t accountId instrumentId) :
    fill.accountId = accountId ∧ fill.instrumentId = instrumentId := by
  obtain ⟨row, hrow, rfl⟩ := List.mem_map.mp h
  simp only [List.mem_insertionSort, Listing.fillRows, List.mem_flatMap, List.mem_map] at hrow
  obtain ⟨order, -, event, -, rfl⟩ := hrow
  exact ⟨rfl, rfl⟩

theorem effectiveFillEvent_id (fill : FillEventEntity) :
    (t.effectiveFillEvent fill).fillEventId = fill.fillEventId := by
  unfold Trades.effectiveFillEvent
  cases t.historicalBuyFeeOverlays fill.fillEventId <;>
    cases t.historicalSellFeeTaxOverlays fill.fillEventId <;> rfl

theorem Of.orderedFills_nodup (h : l.Of t) :
    ((l.orderedFills t accountId instrumentId).map (·.fillEventId)).Nodup := by
  have hsorted := (List.perm_insertionSort (fun a b => fillBefore a.1 b.1)
    (l.fillRows t accountId instrumentId)).map fun row => row.1.fillEventId
  have hids : (l.orderedFills t accountId instrumentId).map (·.fillEventId) =
      ((l.fillRows t accountId instrumentId).insertionSort
        fun a b => fillBefore a.1 b.1).map fun row => row.1.fillEventId := by
    rw [Listing.orderedFills, List.map_map]
    apply List.map_congr_left
    intro row hrow
    simp only [List.mem_insertionSort, Listing.fillRows, List.mem_flatMap, List.mem_map] at hrow
    obtain ⟨order, -, event, -, rfl⟩ := hrow
    exact effectiveFillEvent_id event
  rw [hids]
  exact hsorted.nodup_iff.mpr h.nodup

end Listing

section
variable (n : Numerics) (deriveEventId : UUID → UUID)

/-- `recompute_account_instrument` on the answers of the repositories. -/
def recomputeListed (t : Trades) (l : Listing) (faults : RecomputeFaults) (ledger : Ledger)
    (accountId instrumentId : UUID) : Except PyError RecomputeOutcome × Ledger :=
  match faults.addRun with
  | some e => (.error e, ledger)
  | none =>
    let (run, ledger) := ledger.addRun .backfillReplay (some accountId)
    match faults.collect with
    | some _ => failRecompute faults ledger accountId instrumentId run
    | none =>
      let orderedFills := l.orderedFills t accountId instrumentId
      match replayFills n deriveEventId orderedFills run.computationRunId with
      | .error _ => failRecompute faults ledger accountId instrumentId run
      | .ok result =>
        match persistReplay n faults ledger accountId instrumentId result
            run.computationRunId with
        | (some _, ledger) => failRecompute faults ledger accountId instrumentId run
        | (none, ledger) =>
          completeRecompute faults ledger accountId instrumentId run orderedFills.length

/-- The answers the tables give when the orders are listed as `orders`. -/
def Trades.listing (t : Trades) (orders : List OrderRequestEntity) : Listing :=
  ⟨orders, t.listByOrderRequest, t.listByBrokerOrder⟩

theorem recomputeAccountInstrument_listed {t : Trades} {accountId : UUID}
    {orders : List OrderRequestEntity} (h : t.listOrders accountId orderLookupLimit = .ok orders)
    (faults : RecomputeFaults) (ledger : Ledger) (instrumentId : UUID) :
    (t.listing orders).Of t ∧
      recomputeAccountInstrument n deriveEventId t faults ledger accountId instrumentId =
        recomputeListed n deriveEventId t (t.listing orders) faults ledger accountId
          instrumentId := by
  have hsub : orders.Subperm t.orders := by
    rw [(Trades.listOrders_eq_ok h).2]
    apply (List.take_sublist _ _).subperm.trans
    apply (List.perm_insertionSort _ _).subperm.trans
    exact List.filter_sublist.subperm
  refine ⟨⟨hsub, fun _ => List.Perm.refl _, fun _ => List.Perm.refl _⟩, ?_⟩
  have hcollect : t.collectOrderedNormalizedFills accountId instrumentId =
      .ok ((t.listing orders).orderedFills t accountId instrumentId) := by
    rw [Trades.collectOrderedNormalizedFills, h]
    rfl
  unfold recomputeAccountInstrument recomputeListed
  rw [hcollect]
  cases faults.addRun with
  | some e => rfl
  | none => cases faults.collect <;> rfl

end

/-! The rows of an event and of a day, up to what is generated. -/

/-- The identifiers a row keeps from the first time it was written. -/
def RealizedPnlEventEntity.identity (event : RealizedPnlEventEntity) :
    UUID × UUID × UUID × UUID × Time :=
  (event.accountId, event.instrumentId, event.brokerOrderId, event.orderRequestId,
    event.fillTimestamp)

def NormalizedFill.identity (fill : NormalizedFill) : UUID × UUID × UUID × UUID × Time :=
  (fill.accountId, fill.instrumentId, fill.brokerOrderId, fill.orderRequestId, fill.fillTimestamp)

/-- The event without its generated identifiers. -/
def RealizedPnlEventEntity.anonymous (event : RealizedPnlEventEntity) : RealizedPnlEventEntity :=
  { event with realizedPnlEventId := 0, computationRunId := 0 }

/-- The columns of the event that a recompute writes over. -/
def RealizedPnlEventEntity.computed (event : RealizedPnlEventEntity) : RealizedPnlEventEntity :=
  { event.anonymous with
    accountId := 0
    instrumentId := 0
    brokerOrderId := 0
    orderRequestId := 0
    fillTimestamp := 0 }

/-- Events are found by the fill they hold. -/
def Ledger.EventsKeyed (ledger : Ledger) : Prop :=
  ∀ id row, ledger.events id = some row → row.fillEventId = id

/-- An event of the fill, if there is one, holds the fill's own identifiers. -/
def Ledger.Identifies (ledger : Ledger) (fill : NormalizedFill) : Prop :=
  ∀ row, ledger.events fill.fillEventId = some row → row.identity = fill.identity

section
variable {n : Numerics} {deriveEventId : UUID → UUID} {accountId instrumentId : UUID}

theorem markResolved_queue (runId : UUID) (items : List RealizedPnlRecomputeQueueEntity)
    (ledger : Ledger) {row : RealizedPnlRecomputeQueueEntity}
    (hrow : row ∈ (items.foldl (Ledger.markResolved runId) ledger).queue)
    (hpending : row.resolvedByComputationRunId = none) : row ∈ ledger.queue ∧ row ∉ items := by
  induction items generalizing ledger with
  | nil => exact ⟨hrow, List.not_mem_nil⟩
  | cons item items ih =>
    obtain ⟨hmarked, hlater⟩ := ih _ hrow
    obtain ⟨original, horiginal, heq⟩ := List.mem_map.mp hmarked
    split at heq
    · rw [← heq] at hpending
      contradiction
    next hother =>
      subst heq
      refine ⟨horiginal, ?_⟩
      simp only [List.mem_cons, not_or]
      exact ⟨fun hsame => hother (congrArg _ hsame), hlater⟩

/-- A recompute on the answers `l` came back completed. -/
structure Completed (n : Numerics) (deriveEventId : UUID → UUID) (t : Trades) (l : Listing)
    (faults : RecomputeFaults) (ledger : Ledger) (accountId instrumentId : UUID)
    (outcome : RecomputeOutcome) (after : Ledger) : Prop where
  returned : recomputeListed n deriveEventId t l faults ledger accountId instrumentId =
    (.ok outcome, after)
  status : outcome.computationRun.status = .completed

theorem failRecompute_status {faults : RecomputeFaults} {ledger after : Ledger}
    {run : RealizedPnlComputationRunEntity} {outcome : RecomputeOutcome}
    (h : failRecompute faults ledger accountId instrumentId run = (.ok outcome, after)) :
    outcome.computationRun.status = .failed := by
  unfold failRecompute at h
  split at h
  · cases h
  · cases h
    rfl

theorem completeRecompute_returned {faults : RecomputeFaults} {ledger after : Ledger}
    {run : RealizedPnlComputationRunEntity} {replayed : Nat} {outcome : RecomputeOutcome}
    (h : completeRecompute faults ledger accountId instrumentId run replayed =
      (.ok outcome, after)) :
    after.states = ledger.states ∧ after.events = ledger.events ∧
      after.aggregates = ledger.aggregates ∧
      ∀ row ∈ after.queue, row.resolvedByComputationRunId = none →
        row ∈ ledger.queue ∧ row ∉ pendingItems ledger accountId instrumentId := by
  unfold completeRecompute at h
  split at h
  · cases h
  · dsimp only at h
    split at h
    · cases h
    next ids written hwritten =>
      cases h
      unfold resolvePendingQueueItems at hwritten
      split at hwritten
      · cases hwritten
      · dsimp only at hwritten
        split at hwritten
        · cases hwritten
        next marked hmarked =>
          cases hwritten
          have hfold := writeEach_foldl (congrArg Prod.fst hmarked)
          rw [hmarked] at hfold
          dsimp only at hfold
          subst hfold
          obtain ⟨hstates, hevents, haggregates⟩ := markResolved_tables run.computationRunId
            (pendingItems ledger accountId instrumentId) (ledger.updateRun
              { run with status := .completed, fillsReplayed := run.fillsReplayed + replayed })
          refine ⟨hstates, hevents, haggregates, fun row hrow hpending => ?_⟩
          have hleft := markResolved_queue _ _ _ hrow hpending
          exact hleft

theorem Completed.rewritten {t : Trades} {l : Listing} {faults : RecomputeFaults}
    {ledger after : Ledger} {outcome : RecomputeOutcome} (hof : l.Of t)
    (hkeyed : ledger.EventsKeyed)
    (h : Completed n deriveEventId t l faults ledger accountId instrumentId outcome after) :
    ∃ result, replayFills n deriveEventId (l.orderedFills t accountId instrumentId)
        ledger.nextId = .ok result ∧
      Rewritten n accountId instrumentId result ledger.nextId ledger after ∧
      ∀ row ∈ after.queue, row.resolvedByComputationRunId = none →
        row ∈ ledger.queue ∧ row ∉ pendingItems ledger accountId instrumentId := by
  obtain ⟨hreturned, hstatus⟩ := h
  have hfailed : ∀ ledger run,
      failRecompute faults ledger accountId instrumentId run ≠ (.ok outcome, after) := by
    intro ledger run hfail
    rw [failRecompute_status hfail] at hstatus
    contradiction
  unfold recomputeListed at hreturned
  split at hreturned
  · cases hreturned
  · dsimp only at hreturned
    split at hreturned
    · exact absurd hreturned (hfailed _ _)
    · split at hreturned
      · exact absurd hreturned (hfailed _ _)
      next result hreplay =>
        split at hreturned
        · exact absurd hreturned (hfailed _ _)
        next written hwritten =>
          have hfrom := replayFills_fromFills (fun _ hfill => Listing.orderedFills_key hfill)
            hreplay
          have hrunning : (ledger.addRun .backfillReplay (some accountId)).2.EventsKeyed := hkeyed
          have hstatekey : ∀ state, result.finalState = some state →
              state.accountId = accountId ∧ state.instrumentId = instrumentId :=
            fun state hstate => ⟨(hfrom.state state hstate).1, (hfrom.state state hstate).2.1⟩
          have hqueue := (persistReplay_states n faults
            (ledger.addRun .backfillReplay (some accountId)).2 ledger.nextId hstatekey).1
          rw [show persistReplay n faults _ accountId instrumentId result ledger.nextId =
            (none, written) from hwritten] at hqueue
          have hrows := persistReplay_rewritten (fun event _ => hrunning event.fillEventId)
            (events_nodup_of_fills hof.orderedFills_nodup hfrom) hstatekey hwritten
          obtain ⟨hstates, hevents, haggregates, hpending⟩ :=
            completeRecompute_returned hreturned
          refine ⟨result, hreplay, ⟨?_, ?_, ?_⟩, ?_⟩
          · rw [hstates]
            exact hrows.states
          · rw [hevents]
            exact hrows.events
          · rw [haggregates]
            exact hrows.aggregates
          · intro row hrow hnone
            obtain ⟨hmem, hnot⟩ := hpending row hrow hnone
            rw [hqueue] at hmem
            rw [pendingItems, hqueue] at hnot
            exact ⟨hmem, hnot⟩

/-! The sales of a replay and the rows they leave. -/

theorem applySell_identity {state : Option PositionCostBasisStateEntity} {fill : NormalizedFill}
    {runId : UUID} {state' : PositionCostBasisStateEntity} {event : RealizedPnlEventEntity}
    (h : applySell n deriveEventId state fill runId = .ok (state', event)) :
    event.fillEventId = fill.fillEventId ∧ event.identity = fill.identity := by
  unfold applySell at h
  split at h
  · contradiction
  · dsimp only at h
    split at h
    · contradiction
    · cases h
      exact ⟨rfl, rfl⟩

/-- Every sale has its event. -/
theorem replayFills_sale {fills : List NormalizedFill} {runId : UUID} {result : ReplayResult}
    (h : replayFills n deriveEventId fills runId = .ok result) {fill : NormalizedFill}
    (hfill : fill ∈ fills) (hside : fill.side = .sell) :
    ∃ event ∈ result.realizedPnlEvents,
      event.fillEventId = fill.fillEventId ∧ event.identity = fill.identity := by
  induction fills using List.reverseRecOn generalizing result with
  | nil => exact absurd hfill List.not_mem_nil
  | append_singleton fills last ih =>
    obtain ⟨before, state, event, hbefore, -, happly, rfl⟩ := replayFills_concat h
    rcases List.mem_append.mp hfill with hmem | hmem
    · obtain ⟨e, he, hids⟩ := ih hbefore hmem
      exact ⟨e, List.mem_append_left _ he, hids⟩
    · obtain rfl := List.mem_singleton.mp hmem
      unfold applyFillToCostBasis at happly
      obtain ⟨-, -, happly⟩ := bind_eq_ok.mp happly
      rw [hside] at happly
      obtain ⟨⟨row, e⟩, hsell, happly⟩ := bind_eq_ok.mp happly
      cases happly
      exact ⟨e, List.mem_append_right _ (List.mem_singleton_self e), applySell_identity hsell⟩

/-- Every event is the event of a sale. -/
theorem FromFills.sale {fills : List NormalizedFill} {result : ReplayResult}
    (h : FromFills accountId instrumentId fills result) {event : RealizedPnlEventEntity}
    (hevent : event ∈ result.realizedPnlEvents) :
    ∃ fill ∈ fills, fill.side = .sell ∧ fill.fillEventId = event.fillEventId ∧
      fill.fillTimestamp = event.fillTimestamp := by
  have hmem := List.mem_map_of_mem
    (f := fun e : RealizedPnlEventEntity => (e.fillEventId, e.fillTimestamp, e.fee, e.tax)) hevent
  rw [h.sales] at hmem
  obtain ⟨fill, hfill, heq⟩ := List.mem_map.mp hmem
  simp only [List.mem_filter, decide_eq_true_eq] at hfill
  simp only [Prod.mk.injEq] at heq
  exact ⟨fill, hfill.1, hfill.2, heq.1, heq.2.1⟩

theorem replayFills_final {fills : List NormalizedFill} {runId : UUID} {result : ReplayResult}
    (h : replayFills n deriveEventId fills runId = .ok result) :
    result.finalState = none ↔ fills = [] := by
  cases fills using List.reverseRecOn with
  | nil =>
    cases h
    simp
  | append_singleton fills fill =>
    obtain ⟨before, state, event, -, -, -, rfl⟩ := replayFills_concat h
    simp

/-- What is computed of an event does not depend on the row it is written over. -/
theorem upsertedEvent_computed {existing : Option RealizedPnlEventEntity}
    {event : RealizedPnlEventEntity}
    (h : ∀ row, existing = some row → row.fillEventId = event.fillEventId) (runId : UUID) :
    ((upsertedEvent existing (event.withRun runId)).stored n).computed =
      (event.stored n).computed := by
  cases existing with
  | none => rfl
  | some row =>
    simp [upsertedEvent, RealizedPnlEventEntity.stored, RealizedPnlEventEntity.computed,
      RealizedPnlEventEntity.anonymous, RealizedPnlEventEntity.withRun, h row rfl]

theorem upsertedEvent_anonymous {existing : Option RealizedPnlEventEntity}
    {event : RealizedPnlEventEntity}
    (h : ∀ row, existing = some row →
      row.fillEventId = event.fillEventId ∧ row.identity = event.identity) (runId : UUID) :
    ((upsertedEvent existing (event.withRun runId)).stored n).anonymous =
      (event.stored n).anonymous := by
  cases existing with
  | none => rfl
  | some row =>
    obtain ⟨hid, hidentity⟩ := h row rfl
    simp only [RealizedPnlEventEntity.identity, Prod.mk.injEq] at hidentity
    simp [upsertedEvent, RealizedPnlEventEntity.stored, RealizedPnlEventEntity.anonymous,
      RealizedPnlEventEntity.withRun, hid, hidentity]

/-- The rows that the fills stand for are alike after both. -/
structure Alike (accountId instrumentId : UUID) (fills : List NormalizedFill)
    (ledger ledger' after after' : Ledger) : Prop where
  state : fills ≠ [] → after.states (accountId, instrumentId) =
    after'.states (accountId, instrumentId)
  events : ∀ fill ∈ fills, fill.side = .sell → ∃ event event',
    after.events fill.fillEventId = some event ∧ after'.events fill.fillEventId = some event' ∧
      event.computed = event'.computed ∧
      (ledger.Identifies fill → ledger'.Identifies fill → event.anonymous = event'.anonymous)
  rows : ∀ fill ∈ fills, fill.side = .sell → ∃ row row',
    after.aggregates (accountId, instrumentId, toKstTradeDate fill.fillTimestamp) = some row ∧
      after'.aggregates (accountId, instrumentId, toKstTradeDate fill.fillTimestamp) = some row' ∧
      row.withRun 0 = row'.withRun 0

/-- The rows that no fill stands for are as they were. -/
structure Untouched (accountId instrumentId : UUID) (fills : List NormalizedFill)
    (ledger after : Ledger) : Prop where
  states : ∀ key, key ≠ (accountId, instrumentId) ∨ fills = [] →
    after.states key = ledger.states key
  events : ∀ id, (∀ fill ∈ fills, fill.side = .sell → fill.fillEventId ≠ id) →
    after.events id = ledger.events id
  rows : ∀ account instrument date, ((account, instrument) = (accountId, instrumentId) →
      ∀ fill ∈ fills, fill.side = .sell → toKstTradeDate fill.fillTimestamp ≠ date) →
    after.aggregates (account, instrument, date) = ledger.aggregates (account, instrument, date)

section
variable {fills : List NormalizedFill} {result : ReplayResult} {ledger after : Ledger}

/-- The event of a sale after the rewrite. -/
theorem Rewritten.event {runId : UUID}
    (h : Rewritten n accountId instrumentId (result.withRun runId) runId ledger after)
    (hnodup : (result.realizedPnlEvents.map (·.fillEventId)).Nodup)
    {event : RealizedPnlEventEntity} (hevent : event ∈ result.realizedPnlEvents) :
    after.events event.fillEventId = some
      ((upsertedEvent (ledger.events event.fillEventId) (event.withRun runId)).stored n) := by
  have hfind : (result.withRun runId).realizedPnlEvents.find?
      (·.fillEventId = event.fillEventId) = some (event.withRun runId) := by
    have : result.realizedPnlEvents.find? (·.fillEventId = event.fillEventId) = some event :=
      (find?_key hnodup _ _).mpr ⟨hevent, rfl⟩
    simp only [ReplayResult.withRun, List.find?_map, Function.comp_def,
      RealizedPnlEventEntity.withRun, this, Option.map_some]
  rw [h.events, hfind]
  rfl

theorem Rewritten.row {runId : UUID}
    (h : Rewritten n accountId instrumentId (result.withRun runId) runId ledger after)
    {event : RealizedPnlEventEntity} (hevent : event ∈ result.realizedPnlEvents) :
    (after.aggregates (accountId, instrumentId, toKstTradeDate event.fillTimestamp)).map
        (·.withRun 0) =
      some (((rebuiltAggregate n accountId instrumentId (toKstTradeDate event.fillTimestamp) 0
        (onDate (toKstTradeDate event.fillTimestamp) result.realizedPnlEvents)).stored n).withRun
          0) := by
  have hdate : toKstTradeDate event.fillTimestamp ∈
      tradeDates (result.withRun runId).realizedPnlEvents := by
    rw [mem_tradeDates, ReplayResult.withRun, onDate_withRun, ne_eq, List.map_eq_nil_iff]
    apply List.ne_nil_of_mem (a := event)
    exact List.mem_filter.mpr ⟨hevent, decide_eq_true rfl⟩
  rw [h.aggregates, if_pos ⟨rfl, hdate⟩, ReplayResult.withRun, onDate_withRun, Option.map_some]
  have hsum := rebuiltAggregate_withRun (n := n) accountId instrumentId runId
    (toKstTradeDate event.fillTimestamp)
    (onDate (toKstTradeDate event.fillTimestamp) result.realizedPnlEvents)
  exact congrArg (fun row => some (RealizedPnlDailyAggregateEntity.stored n row)) hsum

theorem Rewritten.untouched {runId : UUID}
    (h : Rewritten n accountId instrumentId (result.withRun runId) runId ledger after)
    (hfrom : FromFills accountId instrumentId fills result)
    (hfinal : result.finalState = none ↔ fills = []) :
    Untouched accountId instrumentId fills ledger after := by
  constructor
  · intro key hkey
    rw [h.states]
    rcases hkey with hne | hnil
    · rw [if_neg hne]
    · simp [ReplayResult.withRun, hfinal.mpr hnil]
  · intro id hid
    have hnone : (result.withRun runId).realizedPnlEvents.find? (·.fillEventId = id) = none := by
      rw [List.find?_eq_none]
      intro event hevent
      obtain ⟨original, horiginal, rfl⟩ := List.mem_map.mp hevent
      obtain ⟨fill, hfill, hside, hsame, -⟩ := hfrom.sale horiginal
      rw [decide_eq_true_eq]
      intro heq
      exact hid fill hfill hside (hsame.trans heq)
    rw [h.events, hnone]
    rfl
  · intro account instrument date hdate
    rw [h.aggregates, if_neg]
    intro hboth
    obtain ⟨hsame, hmem⟩ := hboth
    rw [mem_tradeDates, ReplayResult.withRun, onDate_withRun, ne_eq, List.map_eq_nil_iff] at hmem
    obtain ⟨event, hevent⟩ := List.exists_mem_of_ne_nil _ hmem
    obtain ⟨horiginal, heq⟩ := List.mem_filter.mp hevent
    obtain ⟨fill, hfill, hside, -, htime⟩ := hfrom.sale horiginal
    exact hdate hsame fill hfill hside (htime ▸ of_decide_eq_true heq)

end

section
variable {t : Trades} {l : Listing} {faults : RecomputeFaults} {ledger after : Ledger}
  {outcome : RecomputeOutcome}

theorem Completed.replayed (hof : l.Of t) (hkeyed : ledger.EventsKeyed)
    (h : Completed n deriveEventId t l faults ledger accountId instrumentId outcome after) :
    ∃ result, replayFills n deriveEventId (l.orderedFills t accountId instrumentId) 0 =
        .ok result ∧
      Rewritten n accountId instrumentId (result.withRun ledger.nextId) ledger.nextId ledger
        after := by
  obtain ⟨signed, hsigned, hrows, -⟩ := h.rewritten hof hkeyed
  have hunsigned := @replayFills_withRun n deriveEventId ledger.nextId 0
    (l.orderedFills t accountId instrumentId)
  have hagain := @replayFills_withRun n deriveEventId 0 ledger.nextId
    (l.orderedFills t accountId instrumentId)
  rw [hsigned] at hunsigned
  rw [hunsigned, hsigned] at hagain
  refine ⟨signed.withRun 0, hunsigned, ?_⟩
  have hsame : signed = (signed.withRun 0).withRun ledger.nextId := Except.ok.inj hagain
  rw [← hsame]
  exact hrows

theorem Completed.eventsKeyed (hof : l.Of t) (hkeyed : ledger.EventsKeyed)
    (h : Completed n deriveEventId t l faults ledger accountId instrumentId outcome after) :
    after.EventsKeyed := by
  obtain ⟨result, -, hrows⟩ := h.replayed hof hkeyed
  intro id row hrow
  rw [hrows.events] at hrow
  cases hfind : (result.withRun ledger.nextId).realizedPnlEvents.find? (·.fillEventId = id) with
  | none =>
    rw [hfind] at hrow
    exact hkeyed id row hrow
  | some event =>
    rw [hfind] at hrow
    have hid := List.find?_some hfind
    rw [decide_eq_true_eq] at hid
    obtain rfl := Option.some.inj hrow
    subst hid
    exact upsertedEvent_fill (hkeyed event.fillEventId)

theorem Completed.alike {l' : Listing} {faults' : RecomputeFaults} {ledger' after' : Ledger}
    {outcome' : RecomputeOutcome} (hof : l.Of t) (hof' : l'.Of t) (hre : l.Reordered l')
    (hkeyed : ledger.EventsKeyed) (hkeyed' : ledger'.EventsKeyed)
    (h : Completed n deriveEventId t l faults ledger accountId instrumentId outcome after)
    (h' : Completed n deriveEventId t l' faults' ledger' accountId instrumentId outcome' after') :
    Alike accountId instrumentId (l.orderedFills t accountId instrumentId) ledger ledger' after
      after' := by
  obtain ⟨result, hreplay, hrows⟩ := h.replayed hof hkeyed
  obtain ⟨result', hreplay', hrows'⟩ := h'.replayed hof' hkeyed'
  rw [← hre.orderedFills hof, hreplay] at hreplay'
  cases hreplay'
  have hfrom := replayFills_fromFills (fun _ hfill => Listing.orderedFills_key hfill) hreplay
  have hnodup := events_nodup_of_fills hof.orderedFills_nodup hfrom
  constructor
  · intro hne
    have hsome : result.finalState ≠ none := fun hnone => hne ((replayFills_final hreplay).mp hnone)
    obtain ⟨state, hstate⟩ := Option.ne_none_iff_exists'.mp hsome
    simp [hrows.states, hrows'.states, ReplayResult.withRun, hstate]
  · intro fill hfill hside
    obtain ⟨event, hevent, hid, hidentity⟩ := replayFills_sale hreplay hfill hside
    rw [← hid]
    refine ⟨_, _, hrows.event hnodup hevent, hrows'.event hnodup hevent, ?_, ?_⟩
    · rw [upsertedEvent_computed fun row hrow => hkeyed _ row hrow,
        upsertedEvent_computed fun row hrow => hkeyed' _ row hrow]
    · intro hidentifies hidentifies'
      rw [upsertedEvent_anonymous, upsertedEvent_anonymous]
      · intro row hrow
        refine ⟨hkeyed' _ row hrow, ?_⟩
        rw [hidentity]
        exact hidentifies' row (hid ▸ hrow)
      · intro row hrow
        refine ⟨hkeyed _ row hrow, ?_⟩
        rw [hidentity]
        exact hidentifies row (hid ▸ hrow)
  · intro fill hfill hside
    obtain ⟨event, hevent, -, hidentity⟩ := replayFills_sale hreplay hfill hside
    have htime : event.fillTimestamp = fill.fillTimestamp := congrArg (·.2.2.2.2) hidentity
    have hrow := hrows.row hevent
    have hrow' := hrows'.row hevent
    rw [htime] at hrow hrow'
    obtain ⟨row, hrow, hbuilt⟩ := Option.map_eq_some_iff.mp hrow
    obtain ⟨row', hrow', hbuilt'⟩ := Option.map_eq_some_iff.mp hrow'
    exact ⟨row, row', hrow, hrow', hbuilt.trans hbuilt'.symm⟩

theorem Completed.untouched (hof : l.Of t) (hkeyed : ledger.EventsKeyed)
    (h : Completed n deriveEventId t l faults ledger accountId instrumentId outcome after) :
    Untouched accountId instrumentId (l.orderedFills t accountId instrumentId) ledger after := by
  obtain ⟨result, hreplay, hrows⟩ := h.replayed hof hkeyed
  exact hrows.untouched
    (replayFills_fromFills (fun _ hfill => Listing.orderedFills_key hfill) hreplay)
    (replayFills_final hreplay)

/-- The tables agree up to the runs that signed their rows. -/
structure SameTables (ledger ledger' : Ledger) : Prop where
  states : ledger.states = ledger'.states
  events : ∀ id, (ledger.events id).map (·.withRun 0) = (ledger'.events id).map (·.withRun 0)
  rows : ∀ key, (ledger.aggregates key).map (·.withRun 0) =
    (ledger'.aggregates key).map (·.withRun 0)

theorem upsertedEvent_again (existing : Option RealizedPnlEventEntity)
    (event : RealizedPnlEventEntity) (runId runId' : UUID) :
    ((upsertedEvent (some ((upsertedEvent existing (event.withRun runId)).stored n))
      (event.withRun runId')).stored n).withRun 0 =
      ((upsertedEvent existing (event.withRun runId)).stored n).withRun 0 := by
  cases existing <;> rfl

theorem Completed.again {l' : Listing} {faults' : RecomputeFaults} {again : Ledger}
    {outcome' : RecomputeOutcome} (hof : l.Of t) (hof' : l'.Of t) (hre : l.Reordered l')
    (hkeyed : ledger.EventsKeyed)
    (h : Completed n deriveEventId t l faults ledger accountId instrumentId outcome after)
    (h' : Completed n deriveEventId t l' faults' after accountId instrumentId outcome' again) :
    SameTables again after := by
  have hafter := h.eventsKeyed hof hkeyed
  have halike := Completed.alike hof hof' hre hkeyed hafter h h'
  have hstill := h'.untouched hof' hafter
  rw [← hre.orderedFills hof] at hstill
  obtain ⟨result, hreplay, hrows⟩ := h.replayed hof hkeyed
  obtain ⟨result', hreplay', hrows'⟩ := h'.replayed hof' hafter
  rw [← hre.orderedFills hof, hreplay] at hreplay'
  cases hreplay'
  have hfrom := replayFills_fromFills (fun _ hfill => Listing.orderedFills_key hfill) hreplay
  have hnodup := events_nodup_of_fills hof.orderedFills_nodup hfrom
  constructor
  · funext key
    by_cases hkey : key = (accountId, instrumentId)
    · by_cases hnil : l.orderedFills t accountId instrumentId = []
      · exact hstill.states key (Or.inr hnil)
      · rw [hkey]
        exact (halike.state hnil).symm
    · exact hstill.states key (Or.inl hkey)
  · intro id
    by_cases hsale : ∃ event ∈ result.realizedPnlEvents, event.fillEventId = id
    · obtain ⟨event, hevent, rfl⟩ := hsale
      rw [hrows'.event hnodup hevent, hrows.event hnodup hevent]
      exact congrArg some (upsertedEvent_again _ _ _ _)
    · rw [hstill.events]
      intro fill hfill hside hid
      obtain ⟨event, hevent, hsame, -⟩ := replayFills_sale hreplay hfill hside
      exact hsale ⟨event, hevent, hsame.trans hid⟩
  · rintro ⟨account, instrument, date⟩
    by_cases hsale : (account, instrument) = (accountId, instrumentId) ∧
        ∃ fill ∈ l.orderedFills t accountId instrumentId, fill.side = .sell ∧
          toKstTradeDate fill.fillTimestamp = date
    · obtain ⟨hkey, fill, hfill, hside, rfl⟩ := hsale
      cases hkey
      obtain ⟨row, row', hrow, hrow', hsame⟩ := halike.rows fill hfill hside
      rw [hrow, hrow', Option.map_some, Option.map_some, hsame]
    · rw [hstill.rows]
      intro hkey fill hfill hside hdate
      exact hsale ⟨hkey, fill, hfill, hside, hdate⟩

theorem Completed.unflagged (hof : l.Of t) (hkeyed : ledger.EventsKeyed)
    (h : Completed n deriveEventId t l faults ledger accountId instrumentId outcome after)
    (hne : l.orderedFills t accountId instrumentId ≠ []) :
    ¬ flagged after (accountId, instrumentId) := by
  obtain ⟨result, hreplay, hrows⟩ := h.replayed hof hkeyed
  have hsome : result.finalState ≠ none := fun hnone => hne ((replayFills_final hreplay).mp hnone)
  obtain ⟨state, hstate⟩ := Option.ne_none_iff_exists'.mp hsome
  simp [flagged, hrows.states, ReplayResult.withRun, hstate, PositionCostBasisStateEntity.stored]

theorem Completed.resolved (hof : l.Of t) (hkeyed : ledger.EventsKeyed)
    (h : Completed n deriveEventId t l faults ledger accountId instrumentId outcome after)
    (hpage : (ledger.queue.filter (·.resolvedByComputationRunId = none)).length ≤ 1000) :
    ∀ item ∈ after.queue, item.accountId = accountId → item.instrumentId = instrumentId →
      item.resolvedByComputationRunId ≠ none := by
  intro item hitem hacc hins hpending
  obtain ⟨-, -, -, hleft⟩ := h.rewritten hof hkeyed
  obtain ⟨hqueue, hnot⟩ := hleft item hitem hpending
  apply hnot
  rw [pendingItems, List.take_of_length_le hpage]
  simp [hqueue, hpending, hacc, hins]

end

/-- Two completed recomputes of the same tables leave alike whatever the fills stand for, in
whatever order the repositories answered and whatever the ledgers held; they touch nothing else,
a second one changes nothing, and they take down the flag and the pending items. -/
theorem recompute_determined (n : Numerics) (deriveEventId : UUID → UUID) (t : Trades)
    (l l' : Listing) (faults faults' : RecomputeFaults) (ledger ledger' after after' : Ledger)
    (accountId instrumentId : UUID) (outcome outcome' : RecomputeOutcome)
    (hof : l.Of t) (hof' : l'.Of t) (hre : l.Reordered l')
    (hkeyed : ledger.EventsKeyed) (hkeyed' : ledger'.EventsKeyed)
    (h : Completed n deriveEventId t l faults ledger accountId instrumentId outcome after)
    (h' : Completed n deriveEventId t l' faults' ledger' accountId instrumentId outcome' after') :
    let fills := l.orderedFills t accountId instrumentId
    Alike accountId instrumentId fills ledger ledger' after after' ∧
      Untouched accountId instrumentId fills ledger after ∧
      (∀ faults'' outcome'' again, Completed n deriveEventId t l' faults'' after accountId
        instrumentId outcome'' again → SameTables again after) ∧
      (fills ≠ [] → ¬ flagged after (accountId, instrumentId)) ∧
      ((ledger.queue.filter (·.resolvedByComputationRunId = none)).length ≤ 1000 →
        ∀ item ∈ after.queue, item.accountId = accountId → item.instrumentId = instrumentId →
          item.resolvedByComputationRunId ≠ none) := by
  intro fills
  refine ⟨Completed.alike hof hof' hre hkeyed hkeyed' h h', h.untouched hof hkeyed, ?_,
    h.unflagged hof hkeyed, h.resolved hof hkeyed⟩
  intro faults'' outcome'' again hagain
  exact Completed.again hof hof' hre hkeyed h hagain

end

/-! A recompute over rows left by something else, one without a fill, and one behind a long
queue. -/

def statusOf (r : Except PyError RecomputeOutcome × Ledger) : Option ComputationRunStatus :=
  r.1.toOption.map (·.computationRun.status)

theorem completed_of_status {n : Numerics} {deriveEventId : UUID → UUID} {t : Trades}
    {l : Listing} {faults : RecomputeFaults} {ledger : Ledger} {accountId instrumentId : UUID}
    (h : statusOf (recomputeListed n deriveEventId t l faults ledger accountId instrumentId) =
      some .completed) :
    ∃ outcome, Completed n deriveEventId t l faults ledger accountId instrumentId outcome
      (recomputeListed n deriveEventId t l faults ledger accountId instrumentId).2 := by
  cases hrun : recomputeListed n deriveEventId t l faults ledger accountId instrumentId with
  | mk reply after =>
    rw [hrun] at h
    cases reply with
    | error e => contradiction
    | ok outcome => exact ⟨outcome, hrun, Option.some.inj h⟩

/-- A row of a day without a sale and the event of a fill that is no longer there. -/
def staleLedger : Ledger :=
  let event : RealizedPnlEventEntity :=
    { realizedPnlEventId := 77, accountId := 1, instrumentId := 2, fillEventId := 77,
      brokerOrderId := 77, orderRequestId := 77, sellQuantity := 1, sellPrice := 1,
      avgCostBasisBefore := 1, fee := 0, tax := 0, feeTaxSource := .reported,
      realizedPnlGross := 0, realizedPnlNet := 9, positionQuantityAfter := 0,
      computationRunId := 5, fillTimestamp := 5 * microsPerDay }
  (Ledger.empty.putEvent inMemory event).upsertAggregate inMemory
    { accountId := 1, instrumentId := 2, tradeDate := 5, realizedPnlNetSum := 9,
      sellEventCount := 1, computationRunId := 5 }

theorem staleLedger_keyed : staleLedger.EventsKeyed := by
  intro id row hrow
  simp only [staleLedger, Ledger.putEvent, Ledger.upsertAggregate, Function.update_apply] at hrow
  split at hrow
  next hid =>
    cases hrow
    exact hid.symm
  · cases hrow

def flaggedLedger : Ledger :=
  Ledger.empty.upsertState inMemory
    { accountId := 1, instrumentId := 2, quantity := 3, averageCost := 100,
      recomputeRequired := true, recomputeReason := some "out_of_order_fill_detected" }

/-- A thousand pending items of another account, and one of the account itself. -/
def crowdedLedger : Ledger :=
  let item (id account : UUID) : RealizedPnlRecomputeQueueEntity :=
    { recomputeQueueId := id, accountId := account, instrumentId := 2,
      reasonCode := "out_of_order_fill_detected" }
  { Ledger.empty with queue := (List.range 1000).map (item · 4) ++ [item 1000 1] }

def twoSalesTrades : Trades := sampleTrades twoSales []

def noTrades : Trades := sampleTrades [] []

def recomputed (t : Trades) (ledger : Ledger) : Except PyError RecomputeOutcome × Ledger :=
  recomputeListed inMemory id t (t.listing t.orders) {} ledger 1 2

/-- Stale rows outlive a completed recompute; without a fill the flag stays up; and behind a
thousand pending items of others the key's own item stays pending. -/
theorem recompute_leaves_stale :
    (statusOf (recomputed twoSalesTrades staleLedger) = some .completed ∧
      statusOf (recomputed twoSalesTrades Ledger.empty) = some .completed ∧
      ((recomputed twoSalesTrades staleLedger).2.events 77).isSome = true ∧
      (recomputed twoSalesTrades Ledger.empty).2.events 77 = none ∧
      ((recomputed twoSalesTrades staleLedger).2.aggregates (1, 2, 5)).isSome = true ∧
      (recomputed twoSalesTrades Ledger.empty).2.aggregates (1, 2, 5) = none) ∧
    (statusOf (recomputed noTrades flaggedLedger) = some .completed ∧
      flagged (recomputed noTrades flaggedLedger).2 (1, 2)) ∧
    (statusOf (recomputed noTrades crowdedLedger) = some .completed ∧
      (recomputed noTrades crowdedLedger).2.queue.any (fun item => item.accountId = 1 ∧
        item.instrumentId = 2 ∧ item.resolvedByComputationRunId = none) = true) := by
  decide +kernel

theorem recompute_determined_twoSales :
    Alike 1 2 ((twoSalesTrades.listing twoSalesTrades.orders).orderedFills twoSalesTrades 1 2)
      Ledger.empty staleLedger (recomputed twoSalesTrades Ledger.empty).2
      (recomputeListed inMemory id twoSalesTrades
        (twoSalesTrades.listing twoSalesTrades.orders.reverse) {} staleLedger 1 2).2 := by
  have hof : (twoSalesTrades.listing twoSalesTrades.orders).Of twoSalesTrades :=
    ⟨List.Subperm.refl _, fun _ => List.Perm.refl _, fun _ => List.Perm.refl _⟩
  have hof' : (twoSalesTrades.listing twoSalesTrades.orders.reverse).Of twoSalesTrades :=
    ⟨(List.reverse_perm _).subperm, fun _ => List.Perm.refl _, fun _ => List.Perm.refl _⟩
  have hre : (twoSalesTrades.listing twoSalesTrades.orders).Reordered
      (twoSalesTrades.listing twoSalesTrades.orders.reverse) :=
    ⟨(List.reverse_perm _).symm, fun _ => List.Perm.refl _, fun _ => List.Perm.refl _⟩
  have hempty : Ledger.empty.EventsKeyed := fun _ _ hrow => nomatch hrow
  obtain ⟨outcome, h⟩ := completed_of_status
    (show statusOf (recomputed twoSalesTrades Ledger.empty) = some .completed by decide +kernel)
  obtain ⟨outcome', h'⟩ := completed_of_status (show statusOf (recomputeListed inMemory id
    twoSalesTrades (twoSalesTrades.listing twoSalesTrades.orders.reverse) {} staleLedger 1 2) =
      some .completed by decide +kernel)
  exact (recompute_determined inMemory id twoSalesTrades _ _ {} {} Ledger.empty staleLedger _ _ 1 2
    outcome outcome' hof hof' hre hempty staleLedger_keyed h h').1

end AgentTrading.RealizedPnl
