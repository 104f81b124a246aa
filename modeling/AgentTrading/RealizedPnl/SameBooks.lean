import AgentTrading.RealizedPnl.Equivalence

/-! Ledgers with the same books. A fill reads neither the recompute mark of a state nor the run
that signed a row, so it leaves ledgers that agree but for these agreeing. -/
namespace AgentTrading.RealizedPnl
open Domain Library

/-- The state without its recompute mark. -/
def PositionCostBasisStateEntity.unmarked (state : PositionCostBasisStateEntity) :
    PositionCostBasisStateEntity :=
  { state with recomputeRequired := false, recomputeReason := none }

/-- The same holdings, events and daily rows, whatever is marked and whatever runs have signed
them. -/
structure SameBooks (a b : Ledger) : Prop where
  states : ∀ key, (a.states key).map (·.unmarked) = (b.states key).map (·.unmarked)
  events : ∀ id, (a.events id).map (·.withRun 0) = (b.events id).map (·.withRun 0)
  aggregates : ∀ key, (a.aggregates key).map (·.withRun 0) = (b.aggregates key).map (·.withRun 0)

section
variable {n : Numerics} {deriveEventId : UUID → UUID} {a b c : Ledger}

theorem held_unmarked (state : Option PositionCostBasisStateEntity) :
    held (state.map (·.unmarked)) = (held state).map (·.unmarked) := by
  cases state with
  | none => rfl
  | some row => exact Option.filter_map ..

theorem applyBuy_unmarked (state : Option PositionCostBasisStateEntity) (fill : NormalizedFill) :
    applyBuy n (state.map (·.unmarked)) fill = applyBuy n state fill := by
  unfold applyBuy
  rw [held_unmarked]
  cases held state with
  | none => rfl
  | some row => rfl

theorem applySell_unmarked (state : Option PositionCostBasisStateEntity) (fill : NormalizedFill)
    (runId : UUID) :
    applySell n deriveEventId (state.map (·.unmarked)) fill runId =
      applySell n deriveEventId state fill runId := by
  unfold applySell
  rw [held_unmarked]
  cases held state with
  | none => rfl
  | some row => rfl

theorem applyFillToCostBasis_unmarked (state : Option PositionCostBasisStateEntity)
    (fill : NormalizedFill) (runId : UUID) :
    applyFillToCostBasis n deriveEventId (state.map (·.unmarked)) fill runId =
      applyFillToCostBasis n deriveEventId state fill runId := by
  unfold applyFillToCostBasis
  rw [applyBuy_unmarked, applySell_unmarked]

theorem outOfOrder_unmarked (state : Option PositionCostBasisStateEntity)
    (fill : NormalizedFill) : outOfOrder (state.map (·.unmarked)) fill = outOfOrder state fill := by
  cases state with
  | none => rfl
  | some row => rfl

theorem checkDuplicate_unmarked (ledger : Ledger) (state : Option PositionCostBasisStateEntity)
    (fill : NormalizedFill) :
    (checkDuplicate ledger (state.map (·.unmarked)) fill).1 =
      (checkDuplicate ledger state fill).1 := by
  unfold checkDuplicate
  cases fill.side with
  | sell => rfl
  | buy =>
    cases state with
    | none => rfl
    | some row => rfl

theorem markedState_unmarked (accountId instrumentId : UUID)
    (state : Option PositionCostBasisStateEntity) (reason : String) :
    (markedState accountId instrumentId state reason).unmarked =
      (state.map (·.unmarked)).getD
        { accountId, instrumentId, quantity := 0, averageCost := 0 } := by
  cases state with
  | none => rfl
  | some row => rfl

namespace SameBooks

theorem of_tables (hstates : a.states = b.states) (hevents : a.events = b.events)
    (haggregates : a.aggregates = b.aggregates) : SameBooks a b where
  states := fun key => by rw [hstates]
  events := fun id => by rw [hevents]
  aggregates := fun key => by rw [haggregates]

theorem symm (h : SameBooks a b) : SameBooks b a where
  states := fun key => (h.states key).symm
  events := fun id => (h.events id).symm
  aggregates := fun key => (h.aggregates key).symm

theorem trans (h : SameBooks a b) (h' : SameBooks b c) : SameBooks a c where
  states := fun key => (h.states key).trans (h'.states key)
  events := fun id => (h.events id).trans (h'.events id)
  aggregates := fun key => (h.aggregates key).trans (h'.aggregates key)

theorem isSome_events (h : SameBooks a b) (id : UUID) :
    (a.events id).isSome = (b.events id).isSome := by
  have hevents := congrArg Option.isSome (h.events id)
  rw [Option.isSome_map, Option.isSome_map] at hevents
  exact hevents

theorem upsertState (h : SameBooks a b) {row row' : PositionCostBasisStateEntity}
    (hrow : row.unmarked = row'.unmarked) :
    SameBooks (a.upsertState n row) (b.upsertState n row') where
  states := by
    intro key
    have haccount : row.accountId = row'.accountId := congrArg (·.accountId) hrow
    have hinstrument : row.instrumentId = row'.instrumentId := congrArg (·.instrumentId) hrow
    simp only [Ledger.upsertState, Function.update_apply, haccount, hinstrument]
    split
    · exact congrArg (fun row : PositionCostBasisStateEntity => some (row.stored n)) hrow
    · exact h.states key
  events := h.events
  aggregates := h.aggregates

theorem putEvent (h : SameBooks a b) {event event' : RealizedPnlEventEntity}
    (hevent : event.withRun 0 = event'.withRun 0) :
    SameBooks (a.putEvent n event) (b.putEvent n event') where
  states := h.states
  events := by
    intro id
    have hfill : event.fillEventId = event'.fillEventId := congrArg (·.fillEventId) hevent
    simp only [Ledger.putEvent, Function.update_apply, hfill]
    split
    · exact congrArg (fun event : RealizedPnlEventEntity => some (event.stored n)) hevent
    · exact h.events id
  aggregates := h.aggregates

theorem updateDailyAggregate (h : SameBooks a b) {event event' : RealizedPnlEventEntity}
    (hevent : event.withRun 0 = event'.withRun 0) :
    SameBooks (updateDailyAggregate n a event) (updateDailyAggregate n b event') where
  states := h.states
  events := h.events
  aggregates := by
    intro key
    have hkey : (event.accountId, event.instrumentId, toKstTradeDate event.fillTimestamp) =
        (event'.accountId, event'.instrumentId, toKstTradeDate event'.fillTimestamp) := by
      have hkeys := congrArg (fun e : RealizedPnlEventEntity =>
        (e.accountId, e.instrumentId, toKstTradeDate e.fillTimestamp)) hevent
      exact hkeys
    have hrow := h.aggregates
      (event.accountId, event.instrumentId, toKstTradeDate event.fillTimestamp)
    have hincremented : ∀ row row' : Option RealizedPnlDailyAggregateEntity,
        row.map (·.withRun 0) = row'.map (·.withRun 0) →
          (incrementedAggregate n event row).withRun 0 =
            (incrementedAggregate n event' row').withRun 0 := by
      intro row row' hrows
      calc (incrementedAggregate n event row).withRun 0
          = (incrementedAggregate n (event.withRun 0) row').withRun 0 :=
            incrementedAggregate_withRun (event.withRun 0) event.computationRunId _ _ hrows
        _ = (incrementedAggregate n (event'.withRun 0) row').withRun 0 := by rw [hevent]
        _ = (incrementedAggregate n event' row').withRun 0 :=
            (incrementedAggregate_withRun (event'.withRun 0) event'.computationRunId _ _ rfl).symm
    show (Function.update a.aggregates
        (event.accountId, event.instrumentId, toKstTradeDate event.fillTimestamp) _ key).map _ =
      (Function.update b.aggregates
        (event'.accountId, event'.instrumentId, toKstTradeDate event'.fillTimestamp) _ key).map _
    rw [← hkey, Function.update_apply, Function.update_apply]
    split
    · exact congrArg (fun row : RealizedPnlDailyAggregateEntity => some (row.stored n))
        (hincremented _ _ hrow)
    · exact h.aggregates key

theorem addEventFault (h : SameBooks a b) (faults : ApplyFaults)
    {event event' : RealizedPnlEventEntity} (hevent : event.withRun 0 = event'.withRun 0) :
    addEventFault faults a event = addEventFault faults b event' := by
  have hfill : event.fillEventId = event'.fillEventId := congrArg (·.fillEventId) hevent
  unfold RealizedPnl.addEventFault
  rw [hfill, h.isSome_events]

theorem finishApply (fault : Option PyError) (ledger : Ledger)
    (run : RealizedPnlComputationRunEntity) (result : ApplyFillResult) :
    SameBooks (finishApply fault ledger run result).2 ledger := by
  unfold RealizedPnl.finishApply
  cases fault with
  | none => exact of_tables rfl rfl rfl
  | some e => exact of_tables rfl rfl rfl

theorem requireRecompute (h : SameBooks a b) (faults : ApplyFaults)
    (run run' : RealizedPnlComputationRunEntity) (fill : NormalizedFill)
    {state state' : Option PositionCostBasisStateEntity}
    (hstate : state.map (·.unmarked) = state'.map (·.unmarked)) (reasonCode reason : String) :
    SameBooks (requireRecompute n faults a run fill state reasonCode reason).2
      (requireRecompute n faults b run' fill state' reasonCode reason).2 := by
  unfold RealizedPnl.requireRecompute
  cases faults.addQueueItem with
  | some e => exact h
  | none =>
    dsimp only
    have hqueued : SameBooks
        (a.addQueueItem fill.accountId fill.instrumentId reasonCode fill.fillEventId).2
        (b.addQueueItem fill.accountId fill.instrumentId reasonCode fill.fillEventId).2 :=
      ⟨h.states, h.events, h.aggregates⟩
    cases faults.markState with
    | some e => exact hqueued
    | none =>
      have hmarked : (markedState fill.accountId fill.instrumentId state reason).unmarked =
          (markedState fill.accountId fill.instrumentId state' reason).unmarked := by
        rw [markedState_unmarked, markedState_unmarked, hstate]
      exact (finishApply ..).trans ((hqueued.upsertState hmarked).trans (finishApply ..).symm)

theorem writeFill (h : SameBooks a b) (faults : ApplyFaults) (row : PositionCostBasisStateEntity)
    {event event' : Option RealizedPnlEventEntity}
    (hevent : event.map (·.withRun 0) = event'.map (·.withRun 0)) :
    (writeFill n faults a row event).1 = (writeFill n faults b row event').1 ∧
      SameBooks (writeFill n faults a row event).2 (writeFill n faults b row event').2 := by
  unfold RealizedPnl.writeFill
  cases faults.upsertState with
  | some e => exact ⟨rfl, h⟩
  | none =>
    have hstate : SameBooks (a.upsertState n row) (b.upsertState n row) := h.upsertState rfl
    dsimp only
    cases event with
    | none =>
      cases event' with
      | none => exact ⟨rfl, hstate⟩
      | some event' => cases hevent
    | some event =>
      cases event' with
      | none => cases hevent
      | some event' =>
        have hsigned : event.withRun 0 = event'.withRun 0 := Option.some.inj hevent
        dsimp only
        rw [hstate.addEventFault faults hsigned]
        cases RealizedPnl.addEventFault faults (b.upsertState n row) event' with
        | some e => exact ⟨rfl, hstate⟩
        | none =>
          have hput := hstate.putEvent (n := n) hsigned
          cases faults.updateAggregate with
          | some e => exact ⟨rfl, hput⟩
          | none =>
            have hstored : (event.stored n).withRun 0 = (event'.stored n).withRun 0 :=
              congrArg (fun event : RealizedPnlEventEntity => event.stored n) hsigned
            exact ⟨rfl, hput.updateDailyAggregate hstored⟩

theorem recordFill (h : SameBooks a b) (faults : ApplyFaults)
    (run run' : RealizedPnlComputationRunEntity) (fill : NormalizedFill)
    {state state' : Option PositionCostBasisStateEntity}
    (hstate : state.map (·.unmarked) = state'.map (·.unmarked))
    (row : PositionCostBasisStateEntity) {event event' : Option RealizedPnlEventEntity}
    (hevent : event.map (·.withRun 0) = event'.map (·.withRun 0)) :
    SameBooks (recordFill n faults a run fill state row event).2
      (recordFill n faults b run' fill state' row event').2 := by
  unfold RealizedPnl.recordFill
  obtain ⟨hfault, hwritten⟩ := h.writeFill (n := n) faults row hevent
  cases hwrite : RealizedPnl.writeFill n faults a row event with
  | mk fault written =>
    cases hwrite' : RealizedPnl.writeFill n faults b row event' with
    | mk fault' written' =>
      rw [hwrite, hwrite'] at hfault hwritten
      cases hfault
      cases fault with
      | some e => exact hwritten.requireRecompute faults run run' fill hstate _ _
      | none => exact (finishApply ..).trans (hwritten.trans (finishApply ..).symm)

theorem applyNormalized (h : SameBooks a b) (faults : ApplyFaults)
    (run run' : RealizedPnlComputationRunEntity) (fill : NormalizedFill) :
    SameBooks (applyNormalized n deriveEventId faults a run fill).2
      (applyNormalized n deriveEventId faults b run' fill).2 := by
  have hstate := h.states (fill.accountId, fill.instrumentId)
  have hduplicate : (checkDuplicate a (a.states (fill.accountId, fill.instrumentId)) fill).1 =
      (checkDuplicate b (b.states (fill.accountId, fill.instrumentId)) fill).1 := by
    rw [← checkDuplicate_unmarked a, hstate, checkDuplicate_unmarked a]
    unfold checkDuplicate
    cases fill.side with
    | sell => exact h.isSome_events fill.fillEventId
    | buy => rfl
  have horder : outOfOrder (a.states (fill.accountId, fill.instrumentId)) fill =
      outOfOrder (b.states (fill.accountId, fill.instrumentId)) fill := by
    rw [← outOfOrder_unmarked, hstate, outOfOrder_unmarked]
  have hengine : applyFillToCostBasis n deriveEventId
        (a.states (fill.accountId, fill.instrumentId)) fill 0 =
      applyFillToCostBasis n deriveEventId
        (b.states (fill.accountId, fill.instrumentId)) fill 0 := by
    rw [← applyFillToCostBasis_unmarked, hstate, applyFillToCostBasis_unmarked]
  unfold RealizedPnl.applyNormalized
  dsimp only
  rw [hduplicate, horder, applyFillToCostBasis_withRun _ _ 0 run.computationRunId,
    applyFillToCostBasis_withRun _ _ 0 run'.computationRunId, hengine]
  split
  · exact (finishApply ..).trans (h.trans (finishApply ..).symm)
  split
  · exact h.requireRecompute faults run run' fill hstate _ _
  cases applyFillToCostBasis n deriveEventId
      (b.states (fill.accountId, fill.instrumentId)) fill 0 with
  | error e => exact h.requireRecompute faults run run' fill hstate _ _
  | ok accepted =>
    apply h.recordFill faults run run' fill hstate
    rw [Option.map_map, Option.map_map]
    rfl

theorem applyFill (h : SameBooks a b) (t : Trades) (faults : ApplyFaults)
    (fill : FillEventEntity) :
    SameBooks (applyFill n deriveEventId t faults a fill).2
      (applyFill n deriveEventId t faults b fill).2 := by
  unfold RealizedPnl.applyFill
  cases faults.addRun with
  | some e => exact h
  | none =>
    have hadded : SameBooks (a.addRun .realtimeIncremental none).2
        (b.addRun .realtimeIncremental none).2 := ⟨h.states, h.events, h.aggregates⟩
    dsimp only
    cases faults.lookup with
    | some e => exact hadded
    | none =>
      cases t.resolveLineage fill with
      | error e =>
        cases faults.updateRun with
        | some e => exact hadded
        | none => exact ⟨h.states, h.events, h.aggregates⟩
      | ok lineage => exact hadded.applyNormalized faults _ _ _

end SameBooks

end

end AgentTrading.RealizedPnl
