import AgentTrading.RealizedPnl.Persist

/-! Applying the fills of an account and instrument one by one against recomputing them: both
leave the books of one replay, signed by different runs. -/
namespace AgentTrading.RealizedPnl
open Domain Library Library.Keyed

def RealizedPnlDailyAggregateEntity.withRun (row : RealizedPnlDailyAggregateEntity)
    (runId : UUID) : RealizedPnlDailyAggregateEntity :=
  { row with computationRunId := runId }

def RealizedPnlDailyAggregateEntity.withFeeTax (row : RealizedPnlDailyAggregateEntity)
    (feeTaxSum : ℚ) : RealizedPnlDailyAggregateEntity :=
  { row with feeTaxSum := feeTaxSum }

section
variable (n : Numerics)

/-- The day's row after its events one by one. -/
def dayRow (dayEvents : List RealizedPnlEventEntity) : Option RealizedPnlDailyAggregateEntity :=
  dayEvents.foldl (fun row event => some (incrementedAggregate n event row)) none

/-- Every row the result stands for reads back from its columns as it was written. -/
structure Kept (result : ReplayResult) : Prop where
  state : ∀ state, result.finalState = some state → state.stored n = state
  events : ∀ event ∈ result.realizedPnlEvents, event.stored n = event
  rows : ∀ date row, dayRow n (onDate date result.realizedPnlEvents) = some row →
    row.stored n = row

/-- A sum of fees and taxes that no step of it rounds. -/
def FeeTaxExact (pairs : List (ℚ × ℚ)) : Prop :=
  ∀ before pair, before ++ [pair] <+: pairs →
    let sum := (before.map fun p => p.1 + p.2).sum
    n.round (sum + pair.1) = sum + pair.1 ∧
      n.round (sum + pair.1 + pair.2) = sum + pair.1 + pair.2 ∧
      n.round (pair.1 + pair.2) = pair.1 + pair.2

/-- The fees and taxes of the sales of one day. -/
def saleFeesTaxes (fills : List NormalizedFill) (tradeDate : Int) : List (ℚ × ℚ) :=
  ((fills.filter (·.side = .sell)).filter (toKstTradeDate ·.fillTimestamp = tradeDate)).map
    fun fill => (fill.fee, fill.tax)

variable (deriveEventId : UUID → UUID)

/-- One fill after another through `apply_fill`, with what each call came back with. -/
def applyFills (t : Trades) (ledger : Ledger) (fills : List FillEventEntity) :
    List (Except LedgerError ApplyFillResult) × Ledger :=
  fills.foldl (fun acc fill =>
    let (result, ledger) := applyFill n deriveEventId t {} acc.2 fill
    (acc.1 ++ [result], ledger)) ([], ledger)

end

/-- The ledger has no row of the account and instrument yet. -/
structure Fresh (ledger : Ledger) (accountId instrumentId : UUID)
    (fills : List FillEventEntity) : Prop where
  state : ledger.states (accountId, instrumentId) = none
  events : ∀ fill ∈ fills, ledger.events fill.fillEventId = none
  rows : ∀ date, ledger.aggregates (accountId, instrumentId, date) = none

/-- The ledger is `start` with the books of a replay in it, whatever runs have signed them. -/
structure Books (start : Ledger) (accountId instrumentId : UUID) (result : ReplayResult)
    (rows : Int → Option RealizedPnlDailyAggregateEntity) (ledger : Ledger) : Prop where
  states : ∀ key, ledger.states key =
    if key = (accountId, instrumentId) then result.finalState else start.states key
  events : ∀ id, (ledger.events id).map (·.withRun 0) =
    ((result.realizedPnlEvents.find? (·.fillEventId = id)).or (start.events id)).map (·.withRun 0)
  aggregates : ∀ account instrument date,
    (ledger.aggregates (account, instrument, date)).map (·.withRun 0) =
      if (account, instrument) = (accountId, instrumentId) then (rows date).map (·.withRun 0)
      else (start.aggregates (account, instrument, date)).map (·.withRun 0)

section
variable {n : Numerics} {deriveEventId : UUID → UUID}

theorem dayRow_concat (events : List RealizedPnlEventEntity) (event : RealizedPnlEventEntity) :
    dayRow n (events ++ [event]) = some (incrementedAggregate n event (dayRow n events)) := by
  simp only [dayRow, List.foldl_append, List.foldl_cons, List.foldl_nil]

theorem decimalSum_concat (values : List ℚ) (value : ℚ) :
    decimalSum n (values ++ [value]) = n.add (decimalSum n values) value := by
  simp only [decimalSum, List.foldl_append, List.foldl_cons, List.foldl_nil]

/-- A column that every event adds its own value to holds the sum of the values. -/
theorem dayRow_sum (column : RealizedPnlDailyAggregateEntity → ℚ)
    (value : RealizedPnlEventEntity → ℚ)
    (hcolumn : ∀ event row, column (incrementedAggregate n event row) =
      n.add ((row.map column).getD 0) (value event))
    (events : List RealizedPnlEventEntity) :
    ((dayRow n events).map column).getD 0 = decimalSum n (events.map value) := by
  induction events using List.reverseRecOn with
  | nil => rfl
  | append_singleton events event ih =>
    rw [dayRow_concat, Option.map_some, Option.getD_some, hcolumn, ih, List.map_append,
      List.map_cons, List.map_nil, decimalSum_concat]

theorem dayRow_count (events : List RealizedPnlEventEntity) :
    ((dayRow n events).map (·.sellEventCount)).getD 0 = events.length := by
  induction events using List.reverseRecOn with
  | nil => rfl
  | append_singleton events event ih =>
    rw [dayRow_concat, Option.map_some, Option.getD_some, List.length_append]
    exact congrArg (· + 1) ih

/-- Up to the sum of fees and taxes, the row built event by event is the row built at once. -/
theorem dayRow_eq_rebuilt {accountId instrumentId : UUID} {date : Int}
    {events : List RealizedPnlEventEntity}
    (haccount : ∀ event ∈ events, event.accountId = accountId ∧
      event.instrumentId = instrumentId)
    (hdate : ∀ event ∈ events, toKstTradeDate event.fillTimestamp = date)
    (hne : events ≠ []) :
    ∃ row, dayRow n events = some row ∧ row.withRun 0 =
      (rebuiltAggregate n accountId instrumentId date 0 events).withFeeTax row.feeTaxSum := by
  obtain ⟨before, event, rfl⟩ := (List.eq_nil_or_concat events).resolve_left hne
  simp only [List.concat_eq_append] at haccount hdate hne ⊢
  refine ⟨_, dayRow_concat before event, ?_⟩
  have hlast : event ∈ before ++ [event] := List.mem_append_right _ (List.mem_singleton_self _)
  obtain ⟨hacc, hins⟩ := haccount event hlast
  have hnet := dayRow_sum (n := n) (·.realizedPnlNetSum) (·.realizedPnlNet)
    (fun _ _ => rfl) (before ++ [event])
  have hbuy := dayRow_sum (n := n) (·.buyAmountSum)
    (fun e => n.mul e.sellQuantity e.avgCostBasisBefore) (fun _ _ => rfl) (before ++ [event])
  have hsell := dayRow_sum (n := n) (·.sellAmountSum)
    (fun e => n.mul e.sellQuantity e.sellPrice) (fun _ _ => rfl) (before ++ [event])
  have hcount := dayRow_count (n := n) (before ++ [event])
  rw [dayRow_concat, Option.map_some, Option.getD_some] at hnet hbuy hsell hcount
  simp only [RealizedPnlDailyAggregateEntity.withRun, RealizedPnlDailyAggregateEntity.withFeeTax,
    rebuiltAggregate, ← hnet, ← hbuy, ← hsell, ← hcount]
  simp only [incrementedAggregate, hacc, hins, hdate event hlast]

theorem feeTax_sums {pairs : List (ℚ × ℚ)} (h : FeeTaxExact n pairs) :
    pairs.foldl (fun sum p => n.add (n.add sum p.1) p.2) 0 =
        (pairs.map fun p => p.1 + p.2).sum ∧
      decimalSum n (pairs.map fun p => n.add p.1 p.2) =
        (pairs.map fun p => p.1 + p.2).sum := by
  induction pairs using List.reverseRecOn with
  | nil => exact ⟨rfl, rfl⟩
  | append_singleton pairs pair ih =>
    obtain ⟨hinc, hbatch⟩ := ih fun before p hp => h before p (hp.trans (List.prefix_append _ _))
    obtain ⟨hfee, htax, hpair⟩ := h pairs pair (List.prefix_refl _)
    simp only [List.map_append, List.map_cons, List.map_nil, List.sum_append, List.sum_cons,
      List.sum_nil, add_zero]
    constructor
    · rw [List.foldl_append, List.foldl_cons, List.foldl_nil, hinc]
      unfold Numerics.add
      rw [hfee, htax, add_assoc]
    · rw [decimalSum_concat, hbatch]
      unfold Numerics.add
      rw [hpair, ← add_assoc, htax, add_assoc]

theorem dayRow_feeTaxSum (events : List RealizedPnlEventEntity) :
    ((dayRow n events).map (·.feeTaxSum)).getD 0 =
      (events.map fun e => (e.fee, e.tax)).foldl (fun sum p => n.add (n.add sum p.1) p.2) 0 := by
  induction events using List.reverseRecOn with
  | nil => rfl
  | append_singleton events event ih =>
    rw [dayRow_concat, Option.map_some, Option.getD_some, List.map_append, List.foldl_append,
      ← ih]
    rfl

/-- The sales of a day pass their fees and taxes on to the day's events. -/
theorem feesTaxes_onDate {accountId instrumentId : UUID} {fills : List NormalizedFill}
    {result : ReplayResult} (h : FromFills accountId instrumentId fills result) (date : Int) :
    ((onDate date result.realizedPnlEvents).map fun e => (e.fee, e.tax)) =
      saleFeesTaxes fills date := by
  have hsales := congrArg (fun rows : List (UUID × Time × ℚ × ℚ) =>
    (rows.filter (toKstTradeDate ·.2.1 = date)).map fun row => (row.2.2.1, row.2.2.2)) h.sales
  simp only [List.filter_map, List.map_map, Function.comp_def] at hsales
  exact hsales

theorem Books.of_tables {start ledger ledger' : Ledger} {accountId instrumentId : UUID}
    {result : ReplayResult} {rows : Int → Option RealizedPnlDailyAggregateEntity}
    (h : Books start accountId instrumentId result rows ledger)
    (hstates : ledger'.states = ledger.states) (hevents : ledger'.events = ledger.events)
    (haggregates : ledger'.aggregates = ledger.aggregates) :
    Books start accountId instrumentId result rows ledger' where
  states := by rw [hstates]; exact h.states
  events := by rw [hevents]; exact h.events
  aggregates := by rw [haggregates]; exact h.aggregates

theorem incrementedAggregate_withRun (event : RealizedPnlEventEntity) (runId : UUID)
    (row row' : Option RealizedPnlDailyAggregateEntity)
    (hrow : row.map (·.withRun 0) = row'.map (·.withRun 0)) :
    (incrementedAggregate n (event.withRun runId) row).withRun 0 =
      (incrementedAggregate n event row').withRun 0 := by
  have hcolumn : ∀ column : RealizedPnlDailyAggregateEntity → ℚ,
      (∀ row, column (row.withRun 0) = column row) → row.map column = row'.map column := by
    intro column hrun
    have hmap := congrArg (Option.map column) hrow
    simp only [Option.map_map, Function.comp_def, hrun] at hmap
    exact hmap
  have hcount : row.map (·.sellEventCount) = row'.map (·.sellEventCount) := by
    have hmap := congrArg (Option.map (·.sellEventCount)) hrow
    simp only [Option.map_map] at hmap
    exact hmap
  simp only [incrementedAggregate, hcolumn (·.realizedPnlNetSum) fun _ => rfl,
    hcolumn (·.buyAmountSum) fun _ => rfl, hcolumn (·.sellAmountSum) fun _ => rfl,
    hcolumn (·.feeTaxSum) fun _ => rfl, hcount]
  rfl

theorem onDate_append (date : Int) (events events' : List RealizedPnlEventEntity) :
    onDate date (events ++ events') = onDate date events ++ onDate date events' :=
  List.filter_append ..

theorem onDate_singleton (event : RealizedPnlEventEntity) (date : Int) :
    onDate date [event] =
      if toKstTradeDate event.fillTimestamp = date then [event] else [] := by
  simp only [onDate, List.filter_cons, decide_eq_true_eq, List.filter_nil]

/-- The rows of the days, each built event by event. -/
abbrev incrementalRows (n : Numerics) (result : ReplayResult) (date : Int) :
    Option RealizedPnlDailyAggregateEntity :=
  dayRow n (onDate date result.realizedPnlEvents)

section
variable {start ledger : Ledger} {accountId instrumentId : UUID} {before : ReplayResult}
  {fill : NormalizedFill} {state : PositionCostBasisStateEntity}

theorem upsertState_books {rows : Int → Option RealizedPnlDailyAggregateEntity}
    (h : Books start accountId instrumentId before rows ledger)
    (hkey : (state.accountId, state.instrumentId) = (accountId, instrumentId))
    (hkept : state.stored n = state) :
    Books start accountId instrumentId ⟨some state, before.realizedPnlEvents⟩ rows
      (ledger.upsertState n state) where
  states := by
    intro key
    simp only [Ledger.upsertState, hkey, hkept, Function.update_apply, h.states]
    split
    · rfl
    · rfl
  events := h.events
  aggregates := h.aggregates

/-- The event of a sale that has none yet joins the events. -/
theorem putEvent_events (h : Books start accountId instrumentId before
      (incrementalRows n before) ledger)
    {event : RealizedPnlEventEntity} (runId : UUID)
    (hkept : event.stored n = event)
    (hnew : ∀ e ∈ before.realizedPnlEvents, e.fillEventId ≠ event.fillEventId) (id : UUID) :
    ((ledger.putEvent n (event.withRun runId)).events id).map (·.withRun 0) =
      (((before.realizedPnlEvents ++ [event]).find? (·.fillEventId = id)).or
        (start.events id)).map (·.withRun 0) := by
  have hrow : ((event.withRun runId).stored n).withRun 0 = event.withRun 0 :=
    congrArg (·.withRun 0) hkept
  simp only [Ledger.putEvent, List.find?_append]
  by_cases hid : id = event.fillEventId
  · have hnone : before.realizedPnlEvents.find? (·.fillEventId = id) = none := by
      rw [List.find?_eq_none]
      intro e he heq
      exact hnew e he ((of_decide_eq_true heq).trans hid)
    have hself : [event].find? (·.fillEventId = id) = some event := by
      simp only [List.find?_singleton, hid, decide_true, if_true]
    rw [hnone, hself, hid, show (event.withRun runId).fillEventId = event.fillEventId from rfl,
      Function.update_self]
    exact congrArg some hrow
  · have hother : [event].find? (·.fillEventId = id) = none := by
      simp only [List.find?_singleton, Ne.symm hid, decide_false, Bool.false_eq_true, if_false]
    rw [hother, Option.or_none,
      show (event.withRun runId).fillEventId = event.fillEventId from rfl,
      Function.update_of_ne hid]
    exact h.events id

theorem updateDailyAggregate_aggregates (ledger : Ledger) (event : RealizedPnlEventEntity)
    (runId : UUID) :
    (updateDailyAggregate n ledger (event.withRun runId)).aggregates =
      Function.update ledger.aggregates
        (event.accountId, event.instrumentId, toKstTradeDate event.fillTimestamp)
        (some ((incrementedAggregate n (event.withRun runId) (ledger.aggregates
          (event.accountId, event.instrumentId, toKstTradeDate event.fillTimestamp))).stored n)) :=
  rfl

/-- The day's row of the tables with the event added is the day's row of the books. -/
theorem updateDailyAggregate_rows (h : Books start accountId instrumentId before
      (incrementalRows n before) ledger)
    {event : RealizedPnlEventEntity} (runId : UUID)
    (hkey : event.accountId = accountId ∧ event.instrumentId = instrumentId)
    (hkept : ∀ date row,
      dayRow n (onDate date (before.realizedPnlEvents ++ [event])) = some row →
        row.stored n = row)
    (account instrument : UUID) (date : Int) :
    ((updateDailyAggregate n ledger (event.withRun runId)).aggregates
        (account, instrument, date)).map (·.withRun 0) =
      if (account, instrument) = (accountId, instrumentId) then
        (dayRow n (onDate date (before.realizedPnlEvents ++ [event]))).map (·.withRun 0)
      else (start.aggregates (account, instrument, date)).map (·.withRun 0) := by
  obtain ⟨rfl, rfl⟩ := hkey
  have hday := h.aggregates event.accountId event.instrumentId
    (toKstTradeDate event.fillTimestamp)
  rw [if_pos rfl] at hday
  by_cases hkey : (account, instrument) = (event.accountId, event.instrumentId)
  · cases hkey
    rw [if_pos rfl, onDate_append, onDate_singleton]
    by_cases hdate : toKstTradeDate event.fillTimestamp = date
    · subst hdate
      have hrow := hkept (toKstTradeDate event.fillTimestamp) _ (by
        rw [onDate_append, onDate_singleton, if_pos rfl, dayRow_concat])
      rw [if_pos rfl, dayRow_concat]
      rw [updateDailyAggregate_aggregates, Function.update_self]
      have hinc := incrementedAggregate_withRun (n := n) event runId _ _ hday
      have hstored : ((incrementedAggregate n (event.withRun runId)
          (ledger.aggregates (event.accountId, event.instrumentId,
            toKstTradeDate event.fillTimestamp))).stored n).withRun 0 =
          ((incrementedAggregate n event (incrementalRows n before
            (toKstTradeDate event.fillTimestamp))).stored n).withRun 0 :=
        congrArg (fun row : RealizedPnlDailyAggregateEntity => row.stored n) hinc
      rw [Option.map_some, Option.map_some]
      exact congrArg some (hstored.trans (congrArg (·.withRun 0) hrow))
    · rw [if_neg hdate, List.append_nil]
      have hother := h.aggregates event.accountId event.instrumentId date
      rw [if_pos rfl] at hother
      refine Eq.trans (congrArg _ (Function.update_of_ne ?_ _ _)) hother
      exact fun heq => hdate (congrArg (·.2.2) heq).symm
  · rw [if_neg hkey]
    have hother := h.aggregates account instrument date
    rw [if_neg hkey] at hother
    refine Eq.trans (congrArg _ (Function.update_of_ne ?_ _ _)) hother
    exact fun heq => hkey (congrArg (fun k => (k.1, k.2.1)) heq)

/-- The writes of an accepted fill take the books of the fills before it to the books with it. -/
theorem writeFill_books {event : Option RealizedPnlEventEntity}
    (h : Books start accountId instrumentId before (incrementalRows n before) ledger)
    (hfrom : FromFill fill 0 state event)
    (hkey : fill.accountId = accountId ∧ fill.instrumentId = instrumentId)
    (hfresh : ledger.events fill.fillEventId = none)
    (hnew : ∀ e ∈ before.realizedPnlEvents, e.fillEventId ≠ fill.fillEventId)
    (hkept : Kept n ⟨some state, before.realizedPnlEvents ++ event.toList⟩) (runId : UUID) :
    ∃ ledger', writeFill n {} ledger state (event.map (·.withRun runId)) = (none, ledger') ∧
      Books start accountId instrumentId ⟨some state, before.realizedPnlEvents ++ event.toList⟩
        (incrementalRows n ⟨some state, before.realizedPnlEvents ++ event.toList⟩) ledger' := by
  have hstate : (state.accountId, state.instrumentId) = (accountId, instrumentId) := by
    rw [hfrom.account, hfrom.instrument, hkey.1, hkey.2]
  have hbooks := upsertState_books h hstate (hkept.state state rfl)
  cases event with
  | none =>
    refine ⟨_, rfl, ?_⟩
    simp only [Option.toList_none, List.append_nil]
    exact hbooks
  | some event =>
    obtain ⟨hacc, hins, hid, -, -, -, -⟩ := hfrom.copies event rfl
    have hmem : event ∈ before.realizedPnlEvents ++ [event] :=
      List.mem_append_right _ (List.mem_singleton_self _)
    have hfault : addEventFault {} (ledger.upsertState n state) (event.withRun runId) = none := by
      have hnone :
          (ledger.upsertState n state).events (event.withRun runId).fillEventId = none := by
        rw [show (event.withRun runId).fillEventId = fill.fillEventId from hid]
        exact hfresh
      simp only [addEventFault, hnone, Option.isSome_none, Bool.false_eq_true, if_false,
        Option.none_or]
    have hstored : (event.withRun runId).stored n = event.withRun runId :=
      congrArg (·.withRun runId) (hkept.events event hmem)
    refine ⟨updateDailyAggregate n ((ledger.upsertState n state).putEvent n (event.withRun runId))
      (event.withRun runId), ?_, ?_⟩
    · unfold writeFill
      dsimp only [Option.map_some]
      rw [hfault, hstored]
    constructor
    · exact hbooks.states
    · exact putEvent_events h runId (hkept.events event hmem) (by rw [hid]; exact hnew)
    · exact updateDailyAggregate_rows h runId ⟨hacc.trans hkey.1, hins.trans hkey.2⟩ hkept.rows

theorem Books.event_eq_none {rows : Int → Option RealizedPnlDailyAggregateEntity}
    (h : Books start accountId instrumentId before rows ledger) {id : UUID}
    (hfresh : start.events id = none)
    (hnew : ∀ e ∈ before.realizedPnlEvents, e.fillEventId ≠ id) : ledger.events id = none := by
  have hnone : before.realizedPnlEvents.find? (·.fillEventId = id) = none := by
    rw [List.find?_eq_none]
    exact fun e he heq => hnew e he (of_decide_eq_true heq)
  have hevents := h.events id
  rw [hnone, hfresh, Option.none_or, Option.map_none] at hevents
  exact Option.map_eq_none_iff.mp hevents

theorem checkDuplicate_new (hevents : ledger.events fill.fillEventId = none)
    (hlast : ∀ row, before.finalState = some row →
      row.lastAppliedFillEventId ≠ some fill.fillEventId) :
    (checkDuplicate ledger before.finalState fill).1 = false := by
  unfold checkDuplicate
  cases fill.side with
  | sell => simp only [hevents, Option.isSome_none]
  | buy =>
    cases hstate : before.finalState with
    | none => rfl
    | some row => simp only [Option.any_some, hlast row hstate, decide_false]

/-- One accepted fill of `apply_fill` is one more step of the replay in the books. -/
theorem applyNormalized_books {event : Option RealizedPnlEventEntity} (fill : NormalizedFill)
    (run : RealizedPnlComputationRunEntity)
    (h : Books start accountId instrumentId before (incrementalRows n before) ledger)
    (hkey : fill.accountId = accountId ∧ fill.instrumentId = instrumentId)
    (hfresh : start.events fill.fillEventId = none)
    (hnew : ∀ e ∈ before.realizedPnlEvents, e.fillEventId ≠ fill.fillEventId)
    (hlast : ∀ row, before.finalState = some row →
      row.lastAppliedFillEventId ≠ some fill.fillEventId)
    (horder : outOfOrder before.finalState fill = false)
    (happly : applyFillToCostBasis n deriveEventId before.finalState fill 0 = .ok (state, event))
    (hkept : Kept n ⟨some state, before.realizedPnlEvents ++ event.toList⟩) :
    ∃ result ledger', applyNormalized n deriveEventId {} ledger run fill = (.ok result, ledger') ∧
      result.status = .applied ∧
      Books start accountId instrumentId ⟨some state, before.realizedPnlEvents ++ event.toList⟩
        (incrementalRows n ⟨some state, before.realizedPnlEvents ++ event.toList⟩) ledger' := by
  have hevents := h.event_eq_none hfresh hnew
  have hstate : ledger.states (fill.accountId, fill.instrumentId) = before.finalState := by
    rw [h.states, hkey.1, hkey.2, if_pos rfl]
  have hrun : applyFillToCostBasis n deriveEventId before.finalState fill run.computationRunId =
      .ok (state, event.map (·.withRun run.computationRunId)) := by
    rw [applyFillToCostBasis_withRun before.finalState fill 0, happly]
    rfl
  obtain ⟨ledger', hwrite, hbooks⟩ := writeFill_books h (applyFillToCostBasis_fromFill happly)
    hkey hevents hnew hkept run.computationRunId
  unfold applyNormalized
  dsimp only
  rw [hstate, checkDuplicate_new hevents hlast, horder, hrun]
  dsimp only [recordFill]
  rw [hwrite]
  exact ⟨_, _, rfl, rfl, hbooks.of_tables rfl rfl rfl⟩

end

/-! The fills of the account and instrument one after another. -/

section
variable {t : Trades} {accountId instrumentId : UUID} {start : Ledger}

theorem applyFills_concat (fills : List FillEventEntity) (fill : FillEventEntity) :
    applyFills n deriveEventId t start (fills ++ [fill]) =
      ((applyFills n deriveEventId t start fills).1 ++
          [(applyFill n deriveEventId t {} (applyFills n deriveEventId t start fills).2 fill).1],
        (applyFill n deriveEventId t {} (applyFills n deriveEventId t start fills).2 fill).2) := by
  simp only [applyFills, List.foldl_append, List.foldl_cons, List.foldl_nil]

theorem normalize_ofOrdered {fill : FillEventEntity}
    (h : fill ∈ t.orderedFills accountId instrumentId) :
    ∃ lineage, t.resolveLineage fill = .ok lineage ∧
      t.normalize fill = some (buildNormalizedFill fill lineage) ∧
      lineage.accountId = accountId ∧ lineage.instrumentId = instrumentId := by
  have hmem := (List.mem_filter.mp ((List.mem_insertionSort _).mp h)).2
  obtain ⟨lineage, hlineage, hkey⟩ := (Trades.belongs_iff fill).mp hmem
  refine ⟨lineage, hlineage, ?_, hkey⟩
  simp only [Trades.normalize, hlineage, Except.toOption, Option.map_some]

theorem history_key (fill : NormalizedFill) (h : fill ∈ t.history accountId instrumentId) :
    fill.accountId = accountId ∧ fill.instrumentId = instrumentId := by
  obtain ⟨row, hrow, hnorm⟩ := List.mem_filterMap.mp h
  obtain ⟨lineage, -, hrownorm, hkey⟩ := normalize_ofOrdered hrow
  rw [hrownorm] at hnorm
  cases hnorm
  exact hkey

theorem orderedFills_nodup (t : Trades) (accountId instrumentId : UUID) :
    ((t.orderedFills accountId instrumentId).map (·.fillEventId)).Nodup := by
  have hfilter : ((t.fillEvents.filter (t.belongs accountId instrumentId)).map
      (·.fillEventId)).Nodup :=
    t.fillEvents_nodup.sublist (List.Sublist.map _ List.filter_sublist)
  exact (((List.perm_insertionSort fillBefore _).map _).nodup_iff).mpr hfilter

theorem mem_normalized {fills : List FillEventEntity} {fill : NormalizedFill}
    (h : fill ∈ fills.filterMap t.normalize) :
    ∃ row ∈ fills, row.fillEventId = fill.fillEventId := by
  obtain ⟨row, hrow, hnorm⟩ := List.mem_filterMap.mp h
  obtain ⟨lineage, -, rfl⟩ := Option.map_eq_some_iff.mp hnorm
  exact ⟨row, hrow, rfl⟩

theorem fillEventId_ne_last {fills : List FillEventEntity} {fill : FillEventEntity}
    (hpre : fills ++ [fill] <+: t.orderedFills accountId instrumentId) {f : NormalizedFill}
    (hf : f ∈ fills.filterMap t.normalize) : f.fillEventId ≠ fill.fillEventId := by
  have hnodup := (orderedFills_nodup t accountId instrumentId).sublist
    (List.Sublist.map (·.fillEventId) hpre.sublist)
  rw [List.map_append, List.map_cons, List.map_nil] at hnodup
  obtain ⟨row, hrow, hid⟩ := mem_normalized hf
  intro heq
  apply List.disjoint_of_nodup_append hnodup (List.mem_map.mpr ⟨row, hrow, rfl⟩)
  rw [hid, heq]
  exact List.mem_singleton_self _

theorem Fresh.books {fills : List FillEventEntity}
    (hstart : Fresh start accountId instrumentId fills) :
    Books start accountId instrumentId ⟨none, []⟩ (incrementalRows n ⟨none, []⟩) start := by
  constructor
  · intro key
    split
    next hkey => rw [hkey]; exact hstart.state
    next => rfl
  · intro id
    rfl
  · intro account instrument date
    split
    next hkey =>
      cases hkey
      exact congrArg _ (hstart.rows date)
    next => rfl

theorem applyFills_books (hstart : Fresh start accountId instrumentId
      (t.orderedFills accountId instrumentId))
    (hkept : ∀ fills result, fills <+: t.history accountId instrumentId →
      replayFills n deriveEventId fills 0 = .ok result → Kept n result)
    {fills : List FillEventEntity} (hpre : fills <+: t.orderedFills accountId instrumentId)
    {result : ReplayResult}
    (hreplay : replayFills n deriveEventId (fills.filterMap t.normalize) 0 = .ok result) :
    (∀ reply ∈ (applyFills n deriveEventId t start fills).1,
        ∃ res, reply = .ok res ∧ res.status = .applied) ∧
      Books start accountId instrumentId result (incrementalRows n result)
        (applyFills n deriveEventId t start fills).2 := by
  induction fills using List.reverseRecOn generalizing result with
  | nil =>
    cases hreplay
    exact ⟨fun _ h => (nomatch h), hstart.books⟩
  | append_singleton fills fill ih =>
    have hfill : fill ∈ t.orderedFills accountId instrumentId :=
      hpre.subset (List.mem_append_right _ (List.mem_singleton_self _))
    obtain ⟨lineage, hlineage, hnorm, hkey⟩ := normalize_ofOrdered hfill
    have hsplit : (fills ++ [fill]).filterMap t.normalize =
        fills.filterMap t.normalize ++ [buildNormalizedFill fill lineage] := by
      rw [List.filterMap_append, List.filterMap_cons_some hnorm, List.filterMap_nil]
    have hhistory : (fills ++ [fill]).filterMap t.normalize <+: t.history accountId instrumentId :=
      hpre.filterMap t.normalize
    have hresult := hkept _ _ hhistory hreplay
    rw [hsplit] at hreplay
    obtain ⟨before, state, event, hbefore, horder, happly, rfl⟩ := replayFills_concat hreplay
    obtain ⟨hreplies, hbooks⟩ := ih ((List.prefix_append _ _).trans hpre) hbefore
    have hearlier : fills.filterMap t.normalize ⊆ t.history accountId instrumentId :=
      ((List.prefix_append fills [fill]).trans hpre).filterMap t.normalize |>.subset
    have hfrom := replayFills_fromFills (fun f hf => history_key f (hearlier hf)) hbefore
    have hrunning : Books start accountId instrumentId before (incrementalRows n before)
        ((applyFills n deriveEventId t start fills).2.addRun .realtimeIncremental none).2 :=
      hbooks.of_tables rfl rfl rfl
    obtain ⟨res, ledger', happlied, hstatus, hbooks'⟩ :=
      applyNormalized_books (buildNormalizedFill fill lineage)
        ((applyFills n deriveEventId t start fills).2.addRun .realtimeIncremental none).1
        hrunning hkey (hstart.events fill hfill)
        (fun e he => by
          obtain ⟨f, hf, hid⟩ := hfrom.fillIds e he
          rw [hid]
          exact fillEventId_ne_last hpre hf)
        (fun row hrow heq => by
          obtain ⟨-, -, ⟨f, hf, hid⟩, -⟩ := hfrom.state row hrow
          exact fillEventId_ne_last hpre hf (Option.some.inj (hid.symm.trans heq)))
        horder happly hresult
    have hstep : applyFill n deriveEventId t {} (applyFills n deriveEventId t start fills).2 fill =
        (.ok res, ledger') := by
      unfold applyFill
      dsimp only
      rw [hlineage]
      exact happlied
    rw [applyFills_concat, hstep]
    refine ⟨?_, hbooks'⟩
    intro reply hreply
    rcases List.mem_append.mp hreply with hreply | hreply
    · exact hreplies reply hreply
    · rw [List.mem_singleton.mp hreply]
      exact ⟨res, rfl, hstatus⟩

end

/-- The rows of the days, each built at once. -/
def rebuiltRows (n : Numerics) (accountId instrumentId : UUID) (result : ReplayResult)
    (date : Int) : Option RealizedPnlDailyAggregateEntity :=
  if onDate date result.realizedPnlEvents = [] then none
  else some ((rebuiltAggregate n accountId instrumentId date 0
    (onDate date result.realizedPnlEvents)).stored n)

theorem mem_tradeDates (events : List RealizedPnlEventEntity) (date : Int) :
    date ∈ tradeDates events ↔ onDate date events ≠ [] := by
  simp only [tradeDates, List.mem_eraseDups, List.mem_map, ne_eq, onDate, List.filter_eq_nil_iff,
    decide_eq_true_eq]
  constructor
  · rintro ⟨event, hevent, hdate⟩ hnone
    exact hnone event hevent hdate
  · intro hsome
    by_contra hnone
    exact hsome fun event hevent hdate => hnone ⟨event, hevent, hdate⟩

theorem onDate_withRun (events : List RealizedPnlEventEntity) (runId : UUID) (date : Int) :
    onDate date (events.map (·.withRun runId)) = (onDate date events).map (·.withRun runId) := by
  rw [onDate, List.filter_map]
  rfl

theorem rebuiltAggregate_withRun (accountId instrumentId runId : UUID) (date : Int)
    (events : List RealizedPnlEventEntity) :
    (rebuiltAggregate n accountId instrumentId date runId (events.map (·.withRun runId))).withRun 0
      = (rebuiltAggregate n accountId instrumentId date 0 events).withRun 0 := by
  simp only [rebuiltAggregate, List.map_map, Function.comp_def, List.length_map,
    RealizedPnlDailyAggregateEntity.withRun, RealizedPnlEventEntity.withRun]

section
variable {t : Trades} {accountId instrumentId : UUID} {start : Ledger} {result : ReplayResult}

theorem filterMap_normalize_ids (fills : List FillEventEntity) :
    ((fills.filterMap t.normalize).map (·.fillEventId)).Sublist (fills.map (·.fillEventId)) := by
  induction fills with
  | nil => exact List.Sublist.refl _
  | cons fill fills ih =>
    cases hnorm : t.normalize fill with
    | none =>
      rw [List.filterMap_cons_none hnorm]
      exact ih.cons _
    | some normalized =>
      obtain ⟨lineage, -, rfl⟩ := Option.map_eq_some_iff.mp hnorm
      rw [List.filterMap_cons_some hnorm]
      exact ih.cons_cons _

theorem events_nodup (h : FromFills accountId instrumentId (t.history accountId instrumentId)
    result) : (result.realizedPnlEvents.map (·.fillEventId)).Nodup := by
  apply events_nodup_of_fills _ h
  exact (orderedFills_nodup t accountId instrumentId).sublist (filterMap_normalize_ids _)

/-- No event of the replay is in a ledger without its fills. -/
theorem Fresh.event_none (hstart : Fresh start accountId instrumentId
      (t.orderedFills accountId instrumentId))
    (hfrom : FromFills accountId instrumentId (t.history accountId instrumentId) result)
    {event : RealizedPnlEventEntity} (hevent : event ∈ result.realizedPnlEvents) :
    start.events event.fillEventId = none := by
  obtain ⟨fill, hfill, hid⟩ := hfrom.fillIds event hevent
  obtain ⟨row, hrow, hrowid⟩ := mem_normalized hfill
  rw [hid, ← hrowid]
  exact hstart.events row hrow

theorem Rewritten.books {ledger after : Ledger} {runId : UUID}
    (h : Rewritten n accountId instrumentId (result.withRun runId) runId ledger after)
    (hstart : Fresh start accountId instrumentId (t.orderedFills accountId instrumentId))
    (hfrom : FromFills accountId instrumentId (t.history accountId instrumentId) result)
    (hkept : Kept n result) (hstates : ledger.states = start.states)
    (hevents : ledger.events = start.events) (haggregates : ledger.aggregates = start.aggregates) :
    Books start accountId instrumentId result (rebuiltRows n accountId instrumentId result)
      after where
  states key := by
    rw [h.states, hstates]
    split
    next hkey =>
      rw [hkey, hstart.state, Option.or_none, show (result.withRun runId).finalState =
        result.finalState from rfl]
      cases hfinal : result.finalState with
      | none => rfl
      | some state =>
        obtain ⟨-, -, -, hflag, hreason⟩ := hfrom.state state hfinal
        have hcleared : { state with recomputeRequired := false, recomputeReason := none } =
            state := by rw [← hflag, ← hreason]
        rw [Option.map_some, hcleared, hkept.state state hfinal]
    next => rfl
  events id := by
    have hfind : (result.withRun runId).realizedPnlEvents.find? (·.fillEventId = id) =
        (result.realizedPnlEvents.find? (·.fillEventId = id)).map (·.withRun runId) :=
      List.find?_map ..
    rw [h.events, hevents, hfind]
    cases hevent : result.realizedPnlEvents.find? (·.fillEventId = id) with
    | none => rfl
    | some event =>
      have hmem := List.mem_of_find?_eq_some hevent
      have hid : event.fillEventId = id := by simpa using List.find?_some hevent
      rw [← hid, hstart.event_none hfrom hmem]
      exact congrArg (fun e : RealizedPnlEventEntity => some ((e.withRun runId).withRun 0))
        (hkept.events event hmem)
  aggregates account instrument date := by
    have hdates : date ∈ tradeDates (result.withRun runId).realizedPnlEvents ↔
        onDate date result.realizedPnlEvents ≠ [] := by
      rw [mem_tradeDates, show (result.withRun runId).realizedPnlEvents =
        result.realizedPnlEvents.map (·.withRun runId) from rfl, onDate_withRun, ne_eq,
        List.map_eq_nil_iff]
    rw [h.aggregates, haggregates]
    by_cases hkey : (account, instrument) = (accountId, instrumentId)
    · rw [if_pos hkey]
      unfold rebuiltRows
      cases hkey
      by_cases hday : onDate date result.realizedPnlEvents = []
      · rw [if_pos hday, if_neg fun h => hdates.mp h.2 hday, hstart.rows]
      · rw [if_neg hday, if_pos ⟨rfl, hdates.mpr hday⟩, show
          (result.withRun runId).realizedPnlEvents =
            result.realizedPnlEvents.map (·.withRun runId) from rfl, onDate_withRun]
        exact congrArg (fun row : RealizedPnlDailyAggregateEntity => some (row.stored n))
          (rebuiltAggregate_withRun accountId instrumentId runId date _)
    · rw [if_neg hkey, if_neg fun h => hkey h.1]

theorem persistReplay_books (hstart : Fresh start accountId instrumentId
      (t.orderedFills accountId instrumentId))
    (hfrom : FromFills accountId instrumentId (t.history accountId instrumentId) result)
    (hkept : Kept n result) (ledger : Ledger) (hstates : ledger.states = start.states)
    (hevents : ledger.events = start.events) (haggregates : ledger.aggregates = start.aggregates)
    (runId : UUID) :
    ∃ ledger', persistReplay n {} ledger accountId instrumentId (result.withRun runId) runId =
        (none, ledger') ∧
      Books start accountId instrumentId result (rebuiltRows n accountId instrumentId result)
        ledger' := by
  obtain ⟨after, hafter⟩ := persistReplay_nofault n ledger accountId instrumentId
    (result.withRun runId) runId
  have hrewritten : Rewritten n accountId instrumentId (result.withRun runId) runId ledger
      after := by
    apply persistReplay_rewritten _ _ _ hafter
    · intro event hevent row hrow
      obtain ⟨original, horiginal, rfl⟩ := List.mem_map.mp hevent
      rw [hevents, show (original.withRun runId).fillEventId = original.fillEventId from rfl,
        hstart.event_none hfrom horiginal] at hrow
      cases hrow
    · rw [show (result.withRun runId).realizedPnlEvents =
        result.realizedPnlEvents.map (·.withRun runId) from rfl, List.map_map]
      exact events_nodup hfrom
    · intro state hstate
      exact ⟨(hfrom.state state hstate).1, (hfrom.state state hstate).2.1⟩
  exact ⟨after, hafter, hrewritten.books hstart hfrom hkept hstates hevents haggregates⟩

theorem markResolved_tables (runId : UUID) (items : List RealizedPnlRecomputeQueueEntity)
    (ledger : Ledger) :
    (items.foldl (Ledger.markResolved runId) ledger).states = ledger.states ∧
      (items.foldl (Ledger.markResolved runId) ledger).events = ledger.events ∧
      (items.foldl (Ledger.markResolved runId) ledger).aggregates = ledger.aggregates := by
  induction items generalizing ledger with
  | nil => exact ⟨rfl, rfl, rfl⟩
  | cons item items ih => exact ih (ledger.markResolved runId item)

theorem recompute_books (hlisted : t.Listed accountId)
    (huncorrected : t.Uncorrected accountId instrumentId)
    (hstart : Fresh start accountId instrumentId (t.orderedFills accountId instrumentId))
    (hreplay : replayFills n deriveEventId (t.history accountId instrumentId) 0 = .ok result)
    (hkept : Kept n result) :
    ∃ outcome ledger',
      recomputeAccountInstrument n deriveEventId t {} start accountId instrumentId =
        (.ok outcome, ledger') ∧
      outcome.computationRun.status = .completed ∧
      Books start accountId instrumentId result (rebuiltRows n accountId instrumentId result)
        ledger' := by
  let run := (start.addRun .backfillReplay (some accountId)).1
  have hsigned : replayFills n deriveEventId (t.history accountId instrumentId)
      run.computationRunId = .ok (result.withRun run.computationRunId) := by
    rw [replayFills_withRun 0, hreplay]
    rfl
  obtain ⟨persisted, hpersist, hbooks⟩ := persistReplay_books hstart
    (replayFills_fromFills history_key hreplay) hkept
    (start.addRun .backfillReplay (some accountId)).2 rfl rfl rfl run.computationRunId
  unfold recomputeAccountInstrument
  dsimp only
  rw [Trades.collectOrderedNormalizedFills_eq hlisted huncorrected]
  dsimp only
  rw [hsigned]
  dsimp only
  rw [hpersist]
  simp only [completeRecompute, resolvePendingQueueItems, writeEach_nofault]
  refine ⟨_, _, rfl, rfl, hbooks.of_tables ?_ ?_ ?_⟩
  · exact (markResolved_tables ..).1
  · exact (markResolved_tables ..).2.1
  · exact (markResolved_tables ..).2.2

theorem onDate_account (hfrom : FromFills accountId instrumentId
      (t.history accountId instrumentId) result) (date : Int) :
    ∀ event ∈ onDate date result.realizedPnlEvents,
      event.accountId = accountId ∧ event.instrumentId = instrumentId := fun event hevent =>
  hfrom.accounts event (List.mem_of_mem_filter hevent)

/-- The two rows of a day differ at most in the run and in the sum of fees and taxes, and not
in that where no step of it is rounded. -/
theorem rows_agree (hfrom : FromFills accountId instrumentId
      (t.history accountId instrumentId) result) (hkept : Kept n result) (date : Int) :
    (incrementalRows n result date).map (fun row => (row.withFeeTax 0).withRun 0) =
        (rebuiltRows n accountId instrumentId result date).map
          (fun row => (row.withFeeTax 0).withRun 0) ∧
      (FeeTaxExact n (saleFeesTaxes (t.history accountId instrumentId) date) →
        (incrementalRows n result date).map (·.withRun 0) =
          (rebuiltRows n accountId instrumentId result date).map (·.withRun 0)) := by
  unfold rebuiltRows
  by_cases hday : onDate date result.realizedPnlEvents = []
  · rw [if_pos hday]
    simp only [incrementalRows, hday]
    exact ⟨rfl, fun _ => rfl⟩
  · obtain ⟨row, hrow, heq⟩ := dayRow_eq_rebuilt (n := n) (onDate_account hfrom date)
      (fun event hevent => of_decide_eq_true (List.mem_filter.mp hevent).2) hday
    have hstored := hkept.rows date row hrow
    rw [if_neg hday]
    simp only [incrementalRows, hrow, Option.map_some]
    have hrebuilt : (row.withRun 0).stored n =
        ((rebuiltAggregate n accountId instrumentId date 0
          (onDate date result.realizedPnlEvents)).stored n).withFeeTax (n.column row.feeTaxSum) :=
      congrArg (fun row : RealizedPnlDailyAggregateEntity => row.stored n) heq
    have hrowrun : (row.withRun 0).stored n = row.withRun 0 := congrArg (·.withRun 0) hstored
    rw [hrowrun] at hrebuilt
    refine ⟨congrArg (fun row => some (row.withFeeTax 0)) hrebuilt, fun hexact => ?_⟩
    obtain ⟨hinc, hbatch⟩ := feeTax_sums hexact
    have hsum := dayRow_feeTaxSum (n := n) (onDate date result.realizedPnlEvents)
    rw [hrow, feesTaxes_onDate hfrom, hinc, ← hbatch, ← feesTaxes_onDate hfrom,
      List.map_map] at hsum
    rw [hrebuilt, show row.feeTaxSum = (rebuiltAggregate n accountId instrumentId date 0
      (onDate date result.realizedPnlEvents)).feeTaxSum from hsum]
    rfl

/-- Applied one by one in the order of the sort key or recomputed at once, the fills of an
account and instrument leave the same states, the same events up to the run, and the same
daily rows up to the run, the sum of fees and taxes where no step of it is rounded. -/
theorem applyFills_matches_recompute (hlisted : t.Listed accountId)
    (huncorrected : t.Uncorrected accountId instrumentId)
    (hstart : Fresh start accountId instrumentId (t.orderedFills accountId instrumentId))
    (hreplay : (replayFills n deriveEventId (t.history accountId instrumentId) 0).isOk = true)
    (hkept : ∀ fills result, fills <+: t.history accountId instrumentId →
      replayFills n deriveEventId fills 0 = .ok result → Kept n result) :
    let applied := applyFills n deriveEventId t start (t.orderedFills accountId instrumentId)
    let recomputed :=
      recomputeAccountInstrument n deriveEventId t {} start accountId instrumentId
    (∀ reply ∈ applied.1, ∃ res, reply = .ok res ∧ res.status = .applied) ∧
      (∃ outcome, recomputed.1 = .ok outcome ∧ outcome.computationRun.status = .completed) ∧
      applied.2.states = recomputed.2.states ∧
      (∀ id, (applied.2.events id).map (·.withRun 0) =
        (recomputed.2.events id).map (·.withRun 0)) ∧
      (∀ key, (applied.2.aggregates key).map (fun row => (row.withFeeTax 0).withRun 0) =
        (recomputed.2.aggregates key).map (fun row => (row.withFeeTax 0).withRun 0)) ∧
      ∀ date, FeeTaxExact n (saleFeesTaxes (t.history accountId instrumentId) date) →
        (applied.2.aggregates (accountId, instrumentId, date)).map (·.withRun 0) =
          (recomputed.2.aggregates (accountId, instrumentId, date)).map (·.withRun 0) := by
  obtain ⟨result, hresult⟩ : ∃ result,
      replayFills n deriveEventId (t.history accountId instrumentId) 0 = .ok result := by
    cases hrun : replayFills n deriveEventId (t.history accountId instrumentId) 0 with
    | error e => rw [hrun] at hreplay; cases hreplay
    | ok result => exact ⟨result, rfl⟩
  have hfinal := hkept _ _ (List.prefix_refl _) hresult
  have hfrom := replayFills_fromFills history_key hresult
  obtain ⟨hreplies, hbooks⟩ := applyFills_books hstart hkept (List.prefix_refl _) hresult
  obtain ⟨outcome, ledger', hrecompute, hstatus, hbooks'⟩ :=
    recompute_books hlisted huncorrected hstart hresult hfinal
  intro applied recomputed
  simp only [recomputed, hrecompute]
  refine ⟨hreplies, ⟨outcome, rfl, hstatus⟩, ?_, ?_, ?_, ?_⟩
  · funext key
    rw [hbooks.states, hbooks'.states]
  · intro id
    rw [hbooks.events, hbooks'.events]
  · rintro ⟨account, instrument, date⟩
    have hrow := hbooks.aggregates account instrument date
    have hrow' := hbooks'.aggregates account instrument date
    have herase : ∀ row : Option RealizedPnlDailyAggregateEntity,
        row.map (fun row => (row.withFeeTax 0).withRun 0) =
          (row.map (·.withRun 0)).map (·.withFeeTax 0) := by
      intro row
      rw [Option.map_map]
      rfl
    rw [herase, herase, hrow, hrow']
    split
    · rw [← herase, ← herase]
      exact (rows_agree hfrom hfinal date).1
    · rfl
  · intro date hexact
    rw [hbooks.aggregates, hbooks'.aggregates, if_pos rfl, if_pos rfl]
    exact (rows_agree hfrom hfinal date).2 hexact

end

end

/-! Two sales of one position, and the histories on which the two paths part. -/

/-- A trade of account 1 in instrument 2, one order with one fill. -/
structure SampleTrade where
  side : OrderSide
  time : Time
  price : ℚ
  quantity : ℚ
  fee : Option ℚ := none
  tax : Option ℚ := none
  orderedAt : Option Time := some 0

/-- The tables of a list of trades, numbered in turn. -/
def sampleTrades (trades : List SampleTrade) (excludedAccountIds : List UUID) : Trades where
  orders := trades.zipIdx.map fun (trade, k) =>
    { orderRequestId := k, accountId := 1, instrumentId := 2, clientOrderId := "",
      idempotencyKey := "", correlationId := "", side := trade.side, orderType := .limit,
      requestedQuantity := trade.quantity, status := .filled, createdAt := trade.orderedAt }
  brokerOrders := trades.zipIdx.map fun (_, k) =>
    { brokerOrderId := k, orderRequestId := k, brokerName := "koreainvestment",
      brokerStatus := "filled" }
  fillEvents := trades.zipIdx.map fun (trade, k) =>
    { fillEventId := k, brokerOrderId := k, fillTimestamp := trade.time,
      fillPrice := trade.price, fillQuantity := trade.quantity, sourceChannel := "rest",
      fillFee := trade.fee, fillTax := trade.tax }
  excludedAccountIds := excludedAccountIds
  orders_nodup := nodup_numbered _ _ fun _ => rfl
  brokerOrders_nodup := nodup_numbered _ _ fun _ => rfl
  fillEvents_nodup := nodup_numbered _ _ fun _ => rfl

def twoSales : List SampleTrade :=
  [{ side := .buy, time := 1, price := 100, quantity := 3, fee := some 1 },
   { side := .buy, time := 2, price := 110, quantity := 4, fee := some 2 },
   { side := .sell, time := 3, price := 120, quantity := 2, fee := some 1, tax := some 2 },
   { side := .sell, time := 3, price := 130, quantity := 5, fee := some 1, tax := some 3 }]

theorem applyFills_matches_recompute_twoSales :
    (applyFills inMemory id (sampleTrades twoSales []) Ledger.empty
        ((sampleTrades twoSales []).orderedFills 1 2)).2.states =
      (recomputeAccountInstrument inMemory id (sampleTrades twoSales [])
        {} Ledger.empty 1 2).2.states :=
  (applyFills_matches_recompute
    ⟨by decide, by decide +kernel, by decide +kernel⟩ (fun _ _ => ⟨rfl, rfl⟩)
    ⟨rfl, fun _ _ => rfl, fun _ => rfl⟩ (by decide +kernel)
    (fun _ _ _ _ => ⟨fun _ _ => rfl, fun _ _ => rfl, fun _ _ _ => rfl⟩)).2.2.1

/-- A position of three whose average cost is five thirds, sold again. -/
def thirds : List SampleTrade :=
  [{ side := .buy, time := 1, price := 1, quantity := 1 },
   { side := .buy, time := 2, price := 2, quantity := 2 },
   { side := .sell, time := 3, price := 10, quantity := 3 }]

/-- The fee and the tax each end in half a unit of the last digit. -/
def halfDigits : List SampleTrade :=
  [{ side := .buy, time := 1, price := 1, quantity := 1 },
   { side := .sell, time := 2, price := 2, quantity := 1,
     fee := some (1 + 5 / 10 ^ 28), tax := some (5 / 10 ^ 28) }]

def undated : List SampleTrade :=
  [{ side := .buy, time := 1, price := 1, quantity := 1, orderedAt := none },
   { side := .buy, time := 2, price := 2, quantity := 2, orderedAt := none }]

/-- The replay succeeds, and yet: the listing passes an excluded account over; it raises on two
orders without a time; a column rounds the average cost that the next fill reads; the fee and
the tax are rounded one after the other or together. -/
theorem recompute_differs :
    ((replayFills inMemory id ((sampleTrades twoSales [1]).history 1 2) 0).isOk = true ∧
      (applyFills inMemory id (sampleTrades twoSales [1]) Ledger.empty
          ((sampleTrades twoSales [1]).orderedFills 1 2)).2.states (1, 2) ≠
        (recomputeAccountInstrument inMemory id (sampleTrades twoSales [1]) {} Ledger.empty
          1 2).2.states (1, 2)) ∧
    ((replayFills inMemory id ((sampleTrades undated []).history 1 2) 0).isOk = true ∧
      (applyFills inMemory id (sampleTrades undated []) Ledger.empty
          ((sampleTrades undated []).orderedFills 1 2)).2.states (1, 2) ≠
        (recomputeAccountInstrument inMemory id (sampleTrades undated []) {} Ledger.empty
          1 2).2.states (1, 2)) ∧
    ((replayFills postgres id ((sampleTrades thirds []).history 1 2) 0).isOk = true ∧
      ((applyFills postgres id (sampleTrades thirds []) Ledger.empty
          ((sampleTrades thirds []).orderedFills 1 2)).2.events 2).map (·.realizedPnlGross) =
        some (2499999999 / 100000000) ∧
      ((recomputeAccountInstrument postgres id (sampleTrades thirds []) {} Ledger.empty
          1 2).2.events 2).map (·.realizedPnlGross) = some 25) ∧
    ((replayFills inMemory id ((sampleTrades halfDigits []).history 1 2) 0).isOk = true ∧
      ((applyFills inMemory id (sampleTrades halfDigits []) Ledger.empty
          ((sampleTrades halfDigits []).orderedFills 1 2)).2.aggregates (1, 2, 0)).map
            (·.feeTaxSum) = some 1 ∧
      ((recomputeAccountInstrument inMemory id (sampleTrades halfDigits []) {} Ledger.empty
          1 2).2.aggregates (1, 2, 0)).map (·.feeTaxSum) = some (1 + 1 / 10 ^ 27)) := by
  decide +kernel

end AgentTrading.RealizedPnl
