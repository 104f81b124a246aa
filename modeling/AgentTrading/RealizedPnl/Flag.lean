import AgentTrading.Library.Runs
import AgentTrading.RealizedPnl.Recompute
import AgentTrading.RealizedPnl.Replay

/-! The recompute flag of an account and instrument over runs of fills and recomputes. The
engine writes every state without the flag, so the next fill that goes through clears it. -/
namespace AgentTrading.RealizedPnl
open Domain Library Library.Runs

def flagged (ledger : Ledger) (key : UUID × UUID) : Prop :=
  ∃ state, ledger.states key = some state ∧ state.recomputeRequired = true

instance (ledger : Ledger) (key : UUID × UUID) : Decidable (flagged ledger key) :=
  decidable_of_iff ((ledger.states key).any (·.recomputeRequired) = true) (by
    simp only [flagged, Option.any_eq_true_iff_get, Option.eq_some_iff_get_eq]
    constructor
    · rintro ⟨hsome, hflag⟩
      exact ⟨_, ⟨hsome, rfl⟩, hflag⟩
    · rintro ⟨state, ⟨hsome, rfl⟩, hflag⟩
      exact ⟨hsome, hflag⟩)

/-- A call of one of the two services, with the trading tables it finds and the repository
calls of it that raise. -/
inductive Call where
  | applyFill (t : Trades) (faults : ApplyFaults) (fill : FillEventEntity)
  | recompute (t : Trades) (faults : RecomputeFaults) (accountId instrumentId : UUID)

section
variable (n : Numerics) (deriveEventId : UUID → UUID)

def callStep (ledger : Ledger) : Call → Ledger
  | .applyFill t faults fill => (applyFill n deriveEventId t faults ledger fill).2
  | .recompute t faults accountId instrumentId =>
    (recomputeAccountInstrument n deriveEventId t faults ledger accountId instrumentId).2

/-- The call is a recompute of the account and instrument that completes. -/
def completes (key : UUID × UUID) (ledger : Ledger) : Call → Prop
  | .applyFill .. => False
  | .recompute t faults accountId instrumentId => (accountId, instrumentId) = key ∧
    ∃ outcome, (recomputeAccountInstrument n deriveEventId t faults ledger accountId
      instrumentId).1 = .ok outcome ∧ outcome.computationRun.status = .completed

/-- The fill does not reach the state: it is a duplicate, comes out of order, is refused by the
engine, or the write of the state raises. -/
def stopsShort (faults : ApplyFaults) (ledger : Ledger) (fill : NormalizedFill) : Prop :=
  let state := ledger.states (fill.accountId, fill.instrumentId)
  (checkDuplicate ledger state fill).1 = true ∨ outOfOrder state fill = true ∨
    (∃ e, applyFillToCostBasis n deriveEventId state fill 0 = .error e) ∨
    faults.upsertState ≠ none

/-- A write after the state raises, and the queue and the mark take it. -/
def rolledBack (faults : ApplyFaults) (fill : NormalizedFill) : Prop :=
  fill.side = .sell ∧ (faults.addEvent ≠ none ∨ faults.updateAggregate ≠ none) ∧
    faults.addQueueItem = none ∧ faults.markState = none

/-- The recompute has written the state, and what is left of it raises. -/
def raisesAfterState (t : Trades) (faults : RecomputeFaults) (ledger : Ledger)
    (accountId instrumentId : UUID) : Prop :=
  faults.addRun = none ∧ faults.collect = none ∧ faults.upsertState = none ∧
    (∃ fills result state, t.collectOrderedNormalizedFills accountId instrumentId = .ok fills ∧
      replayFills n deriveEventId fills 0 = .ok result ∧ result.finalState = some state ∧
      (∀ event ∈ result.realizedPnlEvents, faults.upsertEvent event.fillEventId = none) ∧
      ∀ date ∈ tradeDates result.realizedPnlEvents, faults.upsertAggregate date = none) ∧
    (faults.updateRun ≠ none ∨ faults.listPending ≠ none ∨
      ∃ item ∈ pendingItems ledger accountId instrumentId,
        faults.markResolved item.recomputeQueueId ≠ none)

/-- While the account and instrument is flagged, no fill of it goes through, and no recompute
of it raises once it has cleared the flag. -/
def leavesFlag (key : UUID × UUID) (ledger : Ledger) : Call → Prop
  | .applyFill t faults fill => flagged ledger key →
    faults.addRun ≠ none ∨ faults.lookup ≠ none ∨
      ∀ lineage, t.resolveLineage fill = .ok lineage →
        (lineage.accountId, lineage.instrumentId) = key →
          stopsShort n deriveEventId faults ledger (buildNormalizedFill fill lineage) ∨
            rolledBack faults (buildNormalizedFill fill lineage)
  | .recompute t faults accountId instrumentId =>
    flagged ledger key → (accountId, instrumentId) = key →
      ¬ raisesAfterState n deriveEventId t faults ledger accountId instrumentId

end

section
variable {n : Numerics} {deriveEventId : UUID → UUID} {ledger : Ledger}

theorem flagged_of_states {ledger' : Ledger} {key : UUID × UUID}
    (hstates : ledger'.states key = ledger.states key) (h : flagged ledger key) :
    flagged ledger' key := by
  obtain ⟨state, hstate, hflag⟩ := h
  exact ⟨state, hstates.trans hstate, hflag⟩

theorem finishApply_states (fault : Option PyError) (ledger : Ledger)
    (run : RealizedPnlComputationRunEntity) (result : ApplyFillResult) :
    (finishApply fault ledger run result).2.states = ledger.states := by
  unfold finishApply
  cases fault with
  | none => rfl
  | some e => rfl

theorem finishApply_status {fault : Option PyError} {run : RealizedPnlComputationRunEntity}
    {result res : ApplyFillResult} (h : (finishApply fault ledger run result).1 = .ok res) :
    res.status = result.status := by
  unfold finishApply at h
  cases fault with
  | none => cases h; rfl
  | some e => cases h

theorem markedState_key {accountId instrumentId : UUID}
    {state : Option PositionCostBasisStateEntity} (reason : String)
    (hkeyed : ∀ row, state = some row → (row.accountId, row.instrumentId) =
      (accountId, instrumentId)) :
    ((markedState accountId instrumentId state reason).accountId,
      (markedState accountId instrumentId state reason).instrumentId) =
        (accountId, instrumentId) := by
  cases state with
  | none => rfl
  | some row => exact hkeyed row rfl

section
variable {faults : ApplyFaults} {run : RealizedPnlComputationRunEntity} {fill : NormalizedFill}
  {state : Option PositionCostBasisStateEntity} {reasonCode reason : String}

/-- Everything `requireRecompute` can do to the states: nothing, when it raises first, or mark
the fill's row. -/
theorem requireRecompute_states (hkeyed : ∀ row, state = some row →
    (row.accountId, row.instrumentId) = (fill.accountId, fill.instrumentId)) :
    let after := requireRecompute n faults ledger run fill state reasonCode reason
    (after.2.states = ledger.states ∧ (∃ e, after.1 = .error e) ∧
        ¬ (faults.addQueueItem = none ∧ faults.markState = none)) ∨
      (∃ row, row.recomputeRequired = true ∧
        after.2.states = Function.update ledger.states (fill.accountId, fill.instrumentId)
          (some row)) := by
  unfold requireRecompute
  cases hqueue : faults.addQueueItem with
  | some e => exact Or.inl ⟨rfl, ⟨_, rfl⟩, fun h => nomatch h.1⟩
  | none =>
    cases hmark : faults.markState with
    | some e => exact Or.inl ⟨rfl, ⟨_, rfl⟩, fun h => nomatch h.2⟩
    | none =>
      refine Or.inr ⟨(markedState fill.accountId fill.instrumentId state reason).stored n,
        ?_, ?_⟩
      · rfl
      · dsimp only
        rw [finishApply_states, ← markedState_key reason hkeyed]
        rfl

/-- Everything `writeFill` can do to the states: nothing, when their write raises, or put the
new row in place, after which only a sale's event or its daily row can raise. -/
theorem writeFill_states (n : Numerics) (faults : ApplyFaults) (ledger : Ledger)
    (row : PositionCostBasisStateEntity) (event : Option RealizedPnlEventEntity) :
    (∃ e, faults.upsertState = some e ∧ writeFill n faults ledger row event = (some e, ledger)) ∨
      (faults.upsertState = none ∧
        (writeFill n faults ledger row event).2.states = (ledger.upsertState n row).states ∧
        ((writeFill n faults ledger row event).1 = none → event ≠ none →
          faults.addEvent = none ∧ faults.updateAggregate = none)) := by
  unfold writeFill
  cases hstate : faults.upsertState with
  | some e => exact Or.inl ⟨e, rfl, rfl⟩
  | none =>
    refine Or.inr ⟨rfl, ?_⟩
    cases event with
    | none => exact ⟨rfl, fun _ h => (h rfl).elim⟩
    | some event =>
      dsimp only
      cases hadd : addEventFault faults (ledger.upsertState n row) event with
      | some e => exact ⟨rfl, fun h => nomatch h⟩
      | none =>
        have haddEvent : faults.addEvent = none := by
          unfold addEventFault at hadd
          exact (Option.or_eq_none_iff.mp hadd).1
        cases hday : faults.updateAggregate with
        | some e => exact ⟨rfl, fun h => nomatch h⟩
        | none => exact ⟨rfl, fun _ _ => ⟨haddEvent, rfl⟩⟩

theorem recordFill_states {row : PositionCostBasisStateEntity}
    {event : Option RealizedPnlEventEntity}
    (hkeyed : ∀ row, state = some row →
      (row.accountId, row.instrumentId) = (fill.accountId, fill.instrumentId))
    (hfrom : FromFill fill run.computationRunId row event) :
    let after := recordFill n faults ledger run fill state row event
    (after.2.states = ledger.states ∧ ∃ e, after.1 = .error e) ∨
      (∃ row, row.recomputeRequired = true ∧
        after.2.states = Function.update ledger.states (fill.accountId, fill.instrumentId)
          (some row)) ∨
      (∃ row, after.2.states = Function.update ledger.states (fill.accountId, fill.instrumentId)
          (some row) ∧
        faults.upsertState = none ∧ ¬ rolledBack faults fill ∧
        ∀ res, after.1 = .ok res → res.status ≠ .recomputeRequired) := by
  have hrow : (ledger.upsertState n row).states = Function.update ledger.states
      (fill.accountId, fill.instrumentId) (some (row.stored n)) := by
    rw [← hfrom.account, ← hfrom.instrument]
    rfl
  unfold recordFill
  rcases writeFill_states n faults ledger row event with
    ⟨e, -, hwrite⟩ | ⟨hupsert, hstates, hlater⟩
  · rw [hwrite]
    rcases requireRecompute_states hkeyed with ⟨hstates, herror, -⟩ | hmarked
    · exact Or.inl ⟨hstates, herror⟩
    · exact Or.inr (Or.inl hmarked)
  · cases hwrite : writeFill n faults ledger row event with
    | mk fault written =>
      rw [hwrite] at hstates hlater
      have hwritten : written.states = _ := hstates.trans hrow
      cases fault with
      | some e =>
        rcases requireRecompute_states hkeyed with
          ⟨hafter, ⟨e', he'⟩, hfaults⟩ | ⟨marked, hflag, hafter⟩
        · refine Or.inr (Or.inr ⟨row.stored n, hafter.trans hwritten, hupsert, ?_, ?_⟩)
          · exact fun h => hfaults h.2.2
          · intro res hres
            cases he'.symm.trans hres
        · refine Or.inr (Or.inl ⟨marked, hflag, ?_⟩)
          rw [hwritten, Function.update_idem] at hafter
          exact hafter
      | none =>
        refine Or.inr (Or.inr ⟨row.stored n, ?_, hupsert, ?_, ?_⟩)
        · exact (finishApply_states ..).trans hwritten
        · rintro ⟨hside, hfault, -⟩
          have hevent : event ≠ none := by
            intro hnone
            rw [hnone] at hfrom
            exact nomatch hfrom.isSale.mpr hside
          obtain ⟨hadd, hday⟩ := hlater rfl hevent
          rcases hfault with h | h
          · exact h hadd
          · exact h hday
        · intro res hres
          rw [finishApply_status hres]
          exact fun h => nomatch h

/-- Everything `apply_fill` can do to the states once it has the fill. -/
theorem applyNormalized_states :
    let after := applyNormalized n deriveEventId faults ledger run fill
    (after.2.states = ledger.states ∧
        ∀ res, after.1 = .ok res → res.status ≠ .recomputeRequired) ∨
      (∃ row, row.recomputeRequired = true ∧
        after.2.states = Function.update ledger.states (fill.accountId, fill.instrumentId)
          (some row)) ∨
      (∃ row, after.2.states = Function.update ledger.states (fill.accountId, fill.instrumentId)
          (some row) ∧
        ¬ stopsShort n deriveEventId faults ledger fill ∧ ¬ rolledBack faults fill ∧
        ∀ res, after.1 = .ok res → res.status ≠ .recomputeRequired) := by
  have hkeyed : ∀ row, ledger.states (fill.accountId, fill.instrumentId) = some row →
      (row.accountId, row.instrumentId) = (fill.accountId, fill.instrumentId) :=
    fun row hrow => ledger.states_keyed _ row hrow
  rcases applyNormalized_cases n deriveEventId faults ledger run fill with
    ⟨-, run', result, hresult, hafter⟩ | ⟨-, -, code, text, hafter⟩ |
      ⟨hdup, hlate, row, event, happly, hafter⟩
  · rw [hafter]
    refine Or.inl ⟨finishApply_states .., fun res hres => ?_⟩
    rw [finishApply_status hres, hresult]
    exact fun h => nomatch h
  · rw [hafter]
    rcases requireRecompute_states hkeyed with ⟨hstates, ⟨e, he⟩, -⟩ | hmarked
    · exact Or.inl ⟨hstates, fun res hres => (nomatch he.symm.trans hres)⟩
    · exact Or.inr (Or.inl hmarked)
  · rw [hafter]
    have hengine : ¬ ∃ e, applyFillToCostBasis n deriveEventId
        (ledger.states (fill.accountId, fill.instrumentId)) fill 0 = .error e := by
      rintro ⟨e, he⟩
      rw [applyFillToCostBasis_withRun _ _ 0, he] at happly
      cases happly
    rcases recordFill_states hkeyed (applyFillToCostBasis_fromFill happly) with
      ⟨hstates, e, he⟩ | hmarked | ⟨row', hstates, hupsert, hback, hstatus⟩
    · exact Or.inl ⟨hstates, fun res hres => (nomatch he.symm.trans hres)⟩
    · exact Or.inr (Or.inl hmarked)
    · refine Or.inr (Or.inr ⟨row', hstates, ?_, hback, hstatus⟩)
      simp only [stopsShort, hdup, hlate, hupsert, hengine, Bool.false_eq_true, ne_eq,
        not_true_eq_false, or_self, not_false_eq_true]

end

theorem writeEach_same {α β : Type} (fault : α → Option PyError) (write : Ledger → α → Ledger)
    (f : Ledger → β) (hwrite : ∀ ledger a, f (write ledger a) = f ledger) (ledger : Ledger)
    (items : List α) : f (writeEach fault write ledger items).2 = f ledger := by
  induction items generalizing ledger with
  | nil => rfl
  | cons item items ih =>
    unfold writeEach
    cases fault item with
    | some e => rfl
    | none => exact (ih (write ledger item)).trans (hwrite ledger item)

theorem writeEach_eq_none {α : Type} {fault : α → Option PyError} {write : Ledger → α → Ledger}
    {ledger : Ledger} {items : List α} (h : (writeEach fault write ledger items).1 = none) :
    ∀ item ∈ items, fault item = none := by
  induction items generalizing ledger with
  | nil => exact fun _ hmem => nomatch hmem
  | cons item items ih =>
    unfold writeEach at h
    cases hfault : fault item with
    | some e =>
      rw [hfault] at h
      cases h
    | none =>
      rw [hfault] at h
      intro other hmem
      rcases List.mem_cons.mp hmem with rfl | hmem
      · exact hfault
      · exact ih h other hmem

theorem writeEach_eq_some {α : Type} {fault : α → Option PyError} {write : Ledger → α → Ledger}
    {ledger : Ledger} {items : List α} {e : PyError}
    (h : (writeEach fault write ledger items).1 = some e) :
    ∃ item ∈ items, fault item ≠ none := by
  induction items generalizing ledger with
  | nil => cases h
  | cons item items ih =>
    unfold writeEach at h
    cases hfault : fault item with
    | some e' => exact ⟨item, List.mem_cons_self, by rw [hfault]; exact Option.some_ne_none _⟩
    | none =>
      rw [hfault] at h
      obtain ⟨other, hmem, hother⟩ := ih h
      exact ⟨other, List.mem_cons_of_mem _ hmem, hother⟩

section
variable {t : Trades} {faults : RecomputeFaults} {accountId instrumentId : UUID}
  {result : ReplayResult}

theorem upsertEvents_frame (n : Numerics) (faults : RecomputeFaults) (ledger : Ledger)
    (events : List RealizedPnlEventEntity) :
    (upsertEvents n faults ledger events).2.states = ledger.states ∧
      (upsertEvents n faults ledger events).2.queue = ledger.queue := by
  unfold upsertEvents
  constructor
  · apply writeEach_same _ _ (·.states)
    exact fun _ _ => rfl
  · apply writeEach_same _ _ (·.queue)
    exact fun _ _ => rfl

theorem rebuildDailyAggregates_frame (n : Numerics) (faults : RecomputeFaults) (ledger : Ledger)
    (accountId instrumentId : UUID) (events : List RealizedPnlEventEntity) (runId : UUID) :
    let after := rebuildDailyAggregates n faults ledger accountId instrumentId events runId
    after.2.states = ledger.states ∧ after.2.queue = ledger.queue := by
  unfold rebuildDailyAggregates
  constructor
  · apply writeEach_same _ _ (·.states)
    exact fun _ _ => rfl
  · apply writeEach_same _ _ (·.queue)
    exact fun _ _ => rfl

theorem persistReplay_states (n : Numerics) (faults : RecomputeFaults) (ledger : Ledger)
    (runId : UUID) (hkey : ∀ state, result.finalState = some state →
      state.accountId = accountId ∧ state.instrumentId = instrumentId) :
    let after := persistReplay n faults ledger accountId instrumentId result runId
    after.2.queue = ledger.queue ∧
      (after.2.states = ledger.states ∨
        ∃ row state, after.1 = none ∧
          after.2.states = Function.update ledger.states (accountId, instrumentId) (some row) ∧
          faults.upsertState = none ∧ result.finalState = some state ∧
          (∀ event ∈ result.realizedPnlEvents, faults.upsertEvent event.fillEventId = none) ∧
          ∀ date ∈ tradeDates result.realizedPnlEvents, faults.upsertAggregate date = none) := by
  have hevents := upsertEvents_frame n faults ledger result.realizedPnlEvents
  unfold persistReplay
  cases hwritten : upsertEvents n faults ledger result.realizedPnlEvents with
  | mk fault written =>
    rw [hwritten] at hevents
    cases fault with
    | some e => exact ⟨hevents.2, Or.inl hevents.1⟩
    | none =>
      have hrebuild := rebuildDailyAggregates_frame n faults written accountId instrumentId
        result.realizedPnlEvents runId
      dsimp only
      cases hrebuilt : rebuildDailyAggregates n faults written accountId instrumentId
          result.realizedPnlEvents runId with
      | mk fault rebuilt =>
        rw [hrebuilt] at hrebuild
        have hstates : rebuilt.states = ledger.states := hrebuild.1.trans hevents.1
        have hqueue : rebuilt.queue = ledger.queue := hrebuild.2.trans hevents.2
        cases fault with
        | some e => exact ⟨hqueue, Or.inl hstates⟩
        | none =>
          dsimp only
          cases hfinal : result.finalState with
          | none => exact ⟨hqueue, Or.inl hstates⟩
          | some state =>
            dsimp only
            cases hupsert : faults.upsertState with
            | some e => exact ⟨hqueue, Or.inl hstates⟩
            | none =>
              obtain ⟨hacc, hins⟩ := hkey state hfinal
              let cleared : PositionCostBasisStateEntity :=
                { state with recomputeRequired := false, recomputeReason := none }
              refine ⟨hqueue, Or.inr ⟨cleared.stored n, state, rfl, ?_, rfl, rfl,
                writeEach_eq_none (congrArg Prod.fst hwritten),
                writeEach_eq_none (congrArg Prod.fst hrebuilt)⟩⟩
              rw [← hstates, ← hacc, ← hins]
              rfl

theorem failRecompute_states (run : RealizedPnlComputationRunEntity) :
    (failRecompute faults ledger accountId instrumentId run).2.states = ledger.states := by
  unfold failRecompute
  cases faults.updateRun with
  | none => rfl
  | some e => rfl

/-- The end of a recompute leaves the states, and completes unless it raises. -/
theorem completeRecompute_states (faults : RecomputeFaults) (ledger : Ledger)
    (accountId instrumentId : UUID) (run : RealizedPnlComputationRunEntity) (replayed : Nat) :
    let after := completeRecompute faults ledger accountId instrumentId run replayed
    after.2.states = ledger.states ∧
      ((∃ outcome, after.1 = .ok outcome ∧ outcome.computationRun.status = .completed) ∨
        faults.updateRun ≠ none ∨ faults.listPending ≠ none ∨
          ∃ item ∈ pendingItems ledger accountId instrumentId,
            faults.markResolved item.recomputeQueueId ≠ none) := by
  unfold completeRecompute
  cases hupdate : faults.updateRun with
  | some e => exact ⟨rfl, Or.inr (Or.inl (Option.some_ne_none _))⟩
  | none =>
    dsimp only
    unfold resolvePendingQueueItems
    cases hlist : faults.listPending with
    | some e => exact ⟨rfl, Or.inr (Or.inr (Or.inl (Option.some_ne_none _)))⟩
    | none =>
      dsimp only
      have hsame := writeEach_same
        (fun item : RealizedPnlRecomputeQueueEntity => faults.markResolved item.recomputeQueueId)
        (Ledger.markResolved run.computationRunId) (·.states) (fun _ _ => rfl)
        (ledger.updateRun { run with
          status := .completed, fillsReplayed := run.fillsReplayed + replayed })
        (pendingItems ledger accountId instrumentId)
      cases hwrite : writeEach
          (fun item : RealizedPnlRecomputeQueueEntity => faults.markResolved item.recomputeQueueId)
          (Ledger.markResolved run.computationRunId)
          (ledger.updateRun { run with
            status := .completed, fillsReplayed := run.fillsReplayed + replayed })
          (pendingItems ledger accountId instrumentId) with
      | mk fault written =>
        rw [hwrite] at hsame
        have hpending : pendingItems (ledger.updateRun { run with
            status := .completed, fillsReplayed := run.fillsReplayed + replayed })
            accountId instrumentId = pendingItems ledger accountId instrumentId := rfl
        rw [hpending, hwrite]
        cases fault with
        | some e =>
          exact ⟨hsame, Or.inr (Or.inr (Or.inr (writeEach_eq_some (congrArg Prod.fst hwrite))))⟩
        | none => exact ⟨hsame, Or.inl ⟨_, rfl, rfl⟩⟩

theorem collected_key {fills : List NormalizedFill}
    (h : t.collectOrderedNormalizedFills accountId instrumentId = .ok fills) :
    ∀ fill ∈ fills, fill.accountId = accountId ∧ fill.instrumentId = instrumentId := by
  intro fill hfill
  obtain ⟨orders, -, hrows⟩ := bind_eq_ok.mp h
  rw [← Except.ok.inj hrows] at hfill
  obtain ⟨row, hrow, rfl⟩ := List.mem_map.mp hfill
  simp only [List.mem_insertionSort, Trades.fillRows, List.mem_flatMap, List.mem_map] at hrow
  obtain ⟨order, -, event, -, rfl⟩ := hrow
  exact ⟨rfl, rfl⟩

theorem replayed_unsigned {fills : List NormalizedFill} {signed : ReplayResult} {runId : UUID}
    {state : PositionCostBasisStateEntity}
    (hfills : t.collectOrderedNormalizedFills accountId instrumentId = .ok fills)
    (hreplay : replayFills n deriveEventId fills runId = .ok signed)
    (hfinal : signed.finalState = some state)
    (hevents : ∀ event ∈ signed.realizedPnlEvents, faults.upsertEvent event.fillEventId = none)
    (hdates : ∀ date ∈ tradeDates signed.realizedPnlEvents, faults.upsertAggregate date = none) :
    ∃ fills result state, t.collectOrderedNormalizedFills accountId instrumentId = .ok fills ∧
      replayFills n deriveEventId fills 0 = .ok result ∧ result.finalState = some state ∧
      (∀ event ∈ result.realizedPnlEvents, faults.upsertEvent event.fillEventId = none) ∧
      ∀ date ∈ tradeDates result.realizedPnlEvents, faults.upsertAggregate date = none := by
  have hunsigned := @replayFills_withRun n deriveEventId runId 0 fills
  rw [hreplay] at hunsigned
  refine ⟨fills, signed.withRun 0, state, hfills, hunsigned, hfinal, ?_, ?_⟩
  · intro event hevent
    obtain ⟨original, horiginal, rfl⟩ := List.mem_map.mp hevent
    exact hevents original horiginal
  · intro date hdate
    apply hdates date
    unfold tradeDates ReplayResult.withRun at hdate
    rw [List.map_map] at hdate
    exact hdate

/-- Everything a recompute can do to the states: nothing, or rewrite the row of its account and
instrument, after which it completes or raises. -/
theorem recompute_states :
    let after :=
      recomputeAccountInstrument n deriveEventId t faults ledger accountId instrumentId
    after.2.states = ledger.states ∨
      (∃ row, after.2.states =
        Function.update ledger.states (accountId, instrumentId) (some row)) ∧
      ((∃ outcome, after.1 = .ok outcome ∧ outcome.computationRun.status = .completed) ∨
        raisesAfterState n deriveEventId t faults ledger accountId instrumentId) := by
  unfold recomputeAccountInstrument
  cases hadd : faults.addRun with
  | some e => exact Or.inl rfl
  | none =>
    dsimp only
    cases hcollect : faults.collect with
    | some e => exact Or.inl (failRecompute_states _)
    | none =>
      cases hfills : t.collectOrderedNormalizedFills accountId instrumentId with
      | error e => exact Or.inl (failRecompute_states _)
      | ok fills =>
        dsimp only
        cases hreplay : replayFills n deriveEventId fills
            (ledger.addRun .backfillReplay (some accountId)).1.computationRunId with
        | error e => exact Or.inl (failRecompute_states _)
        | ok signed =>
          dsimp only
          have hfrom := replayFills_fromFills (collected_key hfills) hreplay
          obtain ⟨hqueue, hstates⟩ := persistReplay_states n faults
            (ledger.addRun .backfillReplay (some accountId)).2
            (ledger.addRun .backfillReplay (some accountId)).1.computationRunId
            fun state hstate => ⟨(hfrom.state state hstate).1, (hfrom.state state hstate).2.1⟩
          cases hpersist : persistReplay n faults
              (ledger.addRun .backfillReplay (some accountId)).2 accountId instrumentId signed
              (ledger.addRun .backfillReplay (some accountId)).1.computationRunId with
          | mk fault persisted =>
            rw [hpersist] at hqueue hstates
            cases fault with
            | some e =>
              refine Or.inl ((failRecompute_states _).trans ?_)
              rcases hstates with hstates | ⟨row, state, hnone, -⟩
              · exact hstates
              · cases hnone
            | none =>
              obtain ⟨hkept, hend⟩ := completeRecompute_states faults persisted accountId
                instrumentId (ledger.addRun .backfillReplay (some accountId)).1 fills.length
              have hpending : pendingItems persisted accountId instrumentId =
                  pendingItems ledger accountId instrumentId := by
                unfold pendingItems
                rw [show persisted.queue = ledger.queue from hqueue]
              rw [hpending] at hend
              rcases hstates with hstates |
                  ⟨row, state, -, hstates, hupsert, hfinal, hevents, hdates⟩
              · exact Or.inl (hkept.trans hstates)
              · refine Or.inr ⟨⟨row, hkept.trans hstates⟩, ?_⟩
                rcases hend with hdone | hraise
                · exact Or.inl hdone
                · exact Or.inr ⟨hadd, hcollect, hupsert,
                    replayed_unsigned hfills hreplay hfinal hevents hdates, hraise⟩

end

theorem flagged_update {ledger' : Ledger} {key key' : UUID × UUID}
    {row : PositionCostBasisStateEntity}
    (hstates : ledger'.states = Function.update ledger.states key' (some row))
    (hrow : key = key' → row.recomputeRequired = true) (h : key ≠ key' → flagged ledger key) :
    flagged ledger' key := by
  by_cases hkey : key = key'
  · refine ⟨row, ?_, hrow hkey⟩
    rw [hstates, hkey, Function.update_self]
  · obtain ⟨state, hstate, hflag⟩ := h hkey
    refine ⟨state, ?_, hflag⟩
    rw [hstates, Function.update_of_ne hkey]
    exact hstate

/-- A fill that ends in `recompute_required` leaves its account and instrument flagged. -/
theorem applyFill_flags {t : Trades} {faults : ApplyFaults} {fill : FillEventEntity}
    {lineage : FillLineage} (hlineage : t.resolveLineage fill = .ok lineage)
    {res : ApplyFillResult}
    (hres : (applyFill n deriveEventId t faults ledger fill).1 = .ok res)
    (hstatus : res.status = .recomputeRequired) :
    flagged (applyFill n deriveEventId t faults ledger fill).2
      (lineage.accountId, lineage.instrumentId) := by
  rcases applyFill_cases n deriveEventId t faults ledger fill with
    ⟨⟨e, herror⟩, -⟩ | ⟨lineage', hlineage', -, -, hafter⟩
  · cases herror.symm.trans hres
  · cases hlineage.symm.trans hlineage'
    rw [hafter] at hres ⊢
    rcases applyNormalized_states with ⟨-, hnot⟩ | ⟨row, hrow, hstates⟩ | ⟨-, -, -, -, hnot⟩
    · exact (hnot res hres hstatus).elim
    · exact flagged_update hstates (fun _ => hrow) fun hkey => (hkey rfl).elim
    · exact (hnot res hres hstatus).elim

theorem callStep_flagged {key : UUID × UUID} (call : Call) (hflag : flagged ledger key)
    (hleaves : leavesFlag n deriveEventId key ledger call)
    (hopen : ¬ completes n deriveEventId key ledger call) :
    flagged (callStep n deriveEventId ledger call) key := by
  cases call with
  | applyFill t faults fill =>
    show flagged (applyFill n deriveEventId t faults ledger fill).2 key
    rcases applyFill_cases n deriveEventId t faults ledger fill with
      ⟨-, hstates, -, -⟩ | ⟨lineage, hlineage, hadd, hlookup, hafter⟩
    · exact flagged_of_states (congrFun hstates key) hflag
    · have hstops : (lineage.accountId, lineage.instrumentId) = key →
          stopsShort n deriveEventId faults ledger (buildNormalizedFill fill lineage) ∨
            rolledBack faults (buildNormalizedFill fill lineage) := by
        rcases hleaves hflag with h | h | h
        · exact (h hadd).elim
        · exact (h hlookup).elim
        · exact h lineage hlineage
      rw [hafter]
      rcases applyNormalized_states with ⟨hstates, -⟩ | ⟨row, hrow, hstates⟩ |
        ⟨row, hstates, hshort, hback, -⟩
      · exact flagged_of_states (congrFun hstates key) (flagged_of_states rfl hflag)
      · exact flagged_update hstates (fun _ => hrow) fun _ => flagged_of_states rfl hflag
      · refine flagged_update hstates (fun hkey => ?_) fun _ => flagged_of_states rfl hflag
        rcases hstops hkey.symm with h | h
        · exact (hshort h).elim
        · exact (hback h).elim
  | recompute t faults accountId instrumentId =>
    show flagged (recomputeAccountInstrument n deriveEventId t faults ledger accountId
      instrumentId).2 key
    rcases recompute_states with hstates | ⟨⟨row, hstates⟩, hend⟩
    · exact flagged_of_states (congrFun hstates key) hflag
    · refine flagged_update hstates (fun hkey => ?_) fun _ => hflag
      rcases hend with hdone | hraise
      · exact (hopen ⟨hkey.symm, hdone⟩).elim
      · exact (hleaves hflag hkey.symm hraise).elim

/-- In a run whose calls meet the condition, an account and instrument that a fill has left for
recomputation is flagged for as long as no recompute of it completes. -/
theorem recomputeRequired_stays_until_recomputed (start : Ledger) (before after : List Call)
    (t : Trades) (faults : ApplyFaults) (fill : FillEventEntity) (lineage : FillLineage)
    (hlineage : t.resolveLineage fill = .ok lineage)
    (hmeets : Meets (callStep n deriveEventId)
      (leavesFlag n deriveEventId (lineage.accountId, lineage.instrumentId)) start
      (before ++ .applyFill t faults fill :: after))
    (res : ApplyFillResult)
    (hres : (applyFill n deriveEventId t faults
      (run (callStep n deriveEventId) start before) fill).1 = .ok res)
    (hstatus : res.status = .recomputeRequired)
    (hopen : Meets (callStep n deriveEventId)
      (fun ledger call =>
        ¬ completes n deriveEventId (lineage.accountId, lineage.instrumentId) ledger call)
      (run (callStep n deriveEventId) start (before ++ [.applyFill t faults fill])) after) :
    flagged (run (callStep n deriveEventId) start (before ++ .applyFill t faults fill :: after))
      (lineage.accountId, lineage.instrumentId) := by
  rw [List.append_cons] at hmeets ⊢
  rw [run_append]
  have hflag : flagged (run (callStep n deriveEventId) start
      (before ++ [.applyFill t faults fill])) (lineage.accountId, lineage.instrumentId) := by
    rw [run_append]
    exact applyFill_flags hlineage hres hstatus
  have hafter := ((meets_append _ _ _ _ _).mp hmeets).2
  exact run_keeps (I := fun ledger => flagged ledger (lineage.accountId, lineage.instrumentId))
    (callStep n deriveEventId)
    (fun ledger call h hcall => callStep_flagged call h hcall.1 hcall.2) _ after hflag
    ((meets_and _ _ _ _ _).mpr ⟨hafter, hopen⟩)

end

/-! One purchase of account 1 in instrument 2, filled in parts. -/

def partlyFilled : Trades where
  orders :=
    [{ orderRequestId := 0, accountId := 1, instrumentId := 2, clientOrderId := "",
       idempotencyKey := "", correlationId := "", side := .buy, orderType := .limit,
       requestedQuantity := 3, status := .partiallyFilled }]
  brokerOrders :=
    [{ brokerOrderId := 0, orderRequestId := 0, brokerName := "koreainvestment",
       brokerStatus := "partially_filled" }]
  fillEvents := []
  orders_nodup := by decide
  brokerOrders_nodup := by decide
  fillEvents_nodup := by decide

def partFill (id : UUID) (time : Time) : FillEventEntity :=
  { fillEventId := id, brokerOrderId := 0, fillTimestamp := time, fillPrice := 100,
    fillQuantity := 1, sourceChannel := "rest" }

theorem recomputeRequired_stays_until_recomputed_lateFills :
    flagged (run (callStep inMemory id) Ledger.empty
      [.applyFill partlyFilled {} (partFill 0 100), .applyFill partlyFilled {} (partFill 1 50),
        .applyFill partlyFilled {} (partFill 2 60)]) (1, 2) := by
  have hlate : ((applyFill inMemory id partlyFilled {} (run (callStep inMemory id) Ledger.empty
      [.applyFill partlyFilled {} (partFill 0 100)]) (partFill 1 50)).1.map (·.status)) =
        .ok .recomputeRequired := by decide +kernel
  obtain ⟨res, hres, hstatus⟩ := map_eq_ok.mp hlate
  refine recomputeRequired_stays_until_recomputed Ledger.empty
    [.applyFill partlyFilled {} (partFill 0 100)] [.applyFill partlyFilled {} (partFill 2 60)]
    partlyFilled {} (partFill 1 50) ⟨1, 2, 0, .buy⟩ rfl ?_ res hres hstatus ⟨fun h => h, trivial⟩
  have hempty : ¬ flagged Ledger.empty (1, 2) := by decide +kernel
  have hfirst : ¬ flagged (callStep inMemory id Ledger.empty
      (.applyFill partlyFilled {} (partFill 0 100))) (1, 2) := by decide +kernel
  refine ⟨fun h => (hempty h).elim, fun h => (hfirst h).elim, fun _ => ?_, trivial⟩
  refine Or.inr (Or.inr fun lineage hlineage _ => Or.inl (Or.inr (Or.inl ?_)))
  cases hlineage
  decide +kernel

/-- A late fill flags the account and instrument; the next fill in order goes through and
clears the flag, with no recompute. -/
theorem flag_cleared_by_next_fill :
    let first := applyFill inMemory id partlyFilled {} Ledger.empty (partFill 0 100)
    let late := applyFill inMemory id partlyFilled {} first.2 (partFill 1 50)
    let next := applyFill inMemory id partlyFilled {} late.2 (partFill 2 200)
    late.1.map (·.status) = .ok .recomputeRequired ∧ flagged late.2 (1, 2) ∧
      next.1.map (·.status) = .ok .applied ∧ ¬ flagged next.2 (1, 2) := by
  decide +kernel

end AgentTrading.RealizedPnl
