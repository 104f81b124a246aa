import AgentTrading.RealizedPnl.Ledger

/-! A replay as a chain of single steps: what one more fill adds, and what the events and the
state it ends in say about the fills. -/
namespace AgentTrading.RealizedPnl
open Domain Library

/-- The result as another run computes it. -/
def ReplayResult.withRun (result : ReplayResult) (runId : UUID) : ReplayResult :=
  { result with realizedPnlEvents := result.realizedPnlEvents.map (·.withRun runId) }

section
variable {n : Numerics} {deriveEventId : UUID → UUID}

theorem filter_eq_none_iff_outOfOrder (state : Option PositionCostBasisStateEntity)
    (fill : NormalizedFill) :
    ((state.bind (·.lastAppliedFillTimestamp)).filter (fill.fillTimestamp < ·)) = none ↔
      outOfOrder state fill = false := by
  unfold outOfOrder
  cases state.bind (·.lastAppliedFillTimestamp) with
  | none => simp only [Option.filter_none, Option.any_none]
  | some time =>
    simp only [Option.filter_some, Option.any_some, decide_eq_false_iff_not, decide_eq_true_eq]
    split
    next hlt => simp only [hlt, reduceCtorEq, not_true_eq_false]
    next hle => simp only [hle, not_false_eq_true]

theorem replayLoop_cons {runId : UUID} {acc result : ReplayResult} {fill : NormalizedFill}
    {fills : List NormalizedFill}
    (h : replayLoop n deriveEventId runId (acc.finalState.bind (·.lastAppliedFillTimestamp)) acc
      (fill :: fills) = .ok result) :
    ∃ state event, outOfOrder acc.finalState fill = false ∧
      applyFillToCostBasis n deriveEventId acc.finalState fill runId = .ok (state, event) ∧
      replayLoop n deriveEventId runId (state.lastAppliedFillTimestamp)
        ⟨some state, acc.realizedPnlEvents ++ event.toList⟩ fills = .ok result := by
  unfold replayLoop at h
  split at h
  · contradiction
  next hprev =>
    split at h
    · contradiction
    next state event happly =>
      refine ⟨state, event, (filter_eq_none_iff_outOfOrder _ _).mp hprev, happly, ?_⟩
      rw [(applyFillToCostBasis_fromFill happly).lastTime]
      exact h

theorem replayLoop_concat {runId : UUID} {fill : NormalizedFill} {fills : List NormalizedFill}
    {result : ReplayResult} (acc : ReplayResult)
    (h : replayLoop n deriveEventId runId (acc.finalState.bind (·.lastAppliedFillTimestamp)) acc
      (fills ++ [fill]) = .ok result) :
    ∃ before state event,
      replayLoop n deriveEventId runId (acc.finalState.bind (·.lastAppliedFillTimestamp)) acc
        fills = .ok before ∧
      outOfOrder before.finalState fill = false ∧
      applyFillToCostBasis n deriveEventId before.finalState fill runId = .ok (state, event) ∧
      result = ⟨some state, before.realizedPnlEvents ++ event.toList⟩ := by
  induction fills generalizing acc with
  | nil =>
    obtain ⟨state, event, horder, happly, hrest⟩ := replayLoop_cons h
    exact ⟨acc, state, event, rfl, horder, happly, (Except.ok.inj hrest).symm⟩
  | cons first fills ih =>
    obtain ⟨state, event, horder, happly, hrest⟩ := replayLoop_cons h
    obtain ⟨before, state', event', hbefore, hstep⟩ := ih ⟨some state, _⟩ hrest
    refine ⟨before, state', event', ?_, hstep⟩
    unfold replayLoop
    rw [(filter_eq_none_iff_outOfOrder _ _).mpr horder, happly]
    dsimp only
    rw [← (applyFillToCostBasis_fromFill happly).lastTime]
    exact hbefore

theorem replayFills_concat {runId : UUID} {fill : NormalizedFill} {fills : List NormalizedFill}
    {result : ReplayResult}
    (h : replayFills n deriveEventId (fills ++ [fill]) runId = .ok result) :
    ∃ before state event, replayFills n deriveEventId fills runId = .ok before ∧
      outOfOrder before.finalState fill = false ∧
      applyFillToCostBasis n deriveEventId before.finalState fill runId = .ok (state, event) ∧
      result = ⟨some state, before.realizedPnlEvents ++ event.toList⟩ :=
  replayLoop_concat ⟨none, []⟩ h

/-- A replay goes through every prefix of its fills, and keeps the events of the prefix. -/
theorem replayFills_prefix {fills taken rest : List NormalizedFill} {runId : UUID}
    {result : ReplayResult} (h : replayFills n deriveEventId fills runId = .ok result)
    (hfills : fills = taken ++ rest) :
    ∃ before more, replayFills n deriveEventId taken runId = .ok before ∧
      result.realizedPnlEvents = before.realizedPnlEvents ++ more := by
  subst hfills
  induction rest using List.reverseRecOn generalizing result with
  | nil => exact ⟨result, [], by simpa using h, (List.append_nil _).symm⟩
  | append_singleton rest fill ih =>
    rw [← List.append_assoc] at h
    obtain ⟨last, state, event, hlast, -, -, rfl⟩ := replayFills_concat h
    obtain ⟨before, more, hbefore, hevents⟩ := ih hlast
    refine ⟨before, more ++ event.toList, hbefore, ?_⟩
    rw [hevents, List.append_assoc]

theorem replayFills_before {fills taken rest : List NormalizedFill} {runId : UUID}
    {result : ReplayResult} (h : replayFills n deriveEventId fills runId = .ok result)
    (hfills : fills = taken ++ rest) :
    ∃ before, replayFills n deriveEventId taken runId = .ok before := by
  obtain ⟨before, -, hbefore, -⟩ := replayFills_prefix h hfills
  exact ⟨before, hbefore⟩

theorem replayFills_at {fills taken rest : List NormalizedFill} {fill : NormalizedFill}
    {runId : UUID} {result : ReplayResult}
    (h : replayFills n deriveEventId fills runId = .ok result)
    (hfills : fills = taken ++ fill :: rest) :
    ∃ before state event more, replayFills n deriveEventId taken runId = .ok before ∧
      applyFillToCostBasis n deriveEventId before.finalState fill runId = .ok (state, event) ∧
      result.realizedPnlEvents = before.realizedPnlEvents ++ (event.toList ++ more) := by
  have hsplit : fills = (taken ++ [fill]) ++ rest := by
    rw [hfills, List.append_assoc, List.singleton_append]
  obtain ⟨after, more, hafter, hevents⟩ := replayFills_prefix h hsplit
  obtain ⟨before, state, event, hbefore, -, happly, rfl⟩ := replayFills_concat hafter
  exact ⟨before, state, event, more, hbefore, happly, by rw [hevents, List.append_assoc]⟩

theorem replayLoop_withRun (runId runId' : UUID) (previous : Option Time) (acc : ReplayResult)
    (fills : List NormalizedFill) :
    replayLoop n deriveEventId runId' previous (acc.withRun runId') fills =
      (replayLoop n deriveEventId runId previous acc fills).map (·.withRun runId') := by
  induction fills generalizing previous acc with
  | nil => rfl
  | cons fill fills ih =>
    unfold replayLoop
    cases previous.filter (fill.fillTimestamp < ·) with
    | some previous => rfl
    | none =>
      dsimp only
      rw [show (acc.withRun runId').finalState = acc.finalState from rfl,
        applyFillToCostBasis_withRun acc.finalState fill runId runId']
      cases applyFillToCostBasis n deriveEventId acc.finalState fill runId with
      | error e => rfl
      | ok p =>
        obtain ⟨state, event⟩ := p
        rw [← ih]
        simp only [Except.map, ReplayResult.withRun, List.map_append]
        cases event with
        | none => rfl
        | some event => rfl

/-- The run only signs the events of a replay. -/
theorem replayFills_withRun (runId runId' : UUID) (fills : List NormalizedFill) :
    replayFills n deriveEventId fills runId' =
      (replayFills n deriveEventId fills runId).map (·.withRun runId') :=
  replayLoop_withRun runId runId' none ⟨none, []⟩ fills

/-- What a replay knows of its fills. -/
structure FromFills (accountId instrumentId : UUID) (fills : List NormalizedFill)
    (result : ReplayResult) : Prop where
  state : ∀ state, result.finalState = some state →
    state.accountId = accountId ∧ state.instrumentId = instrumentId ∧
    (∃ fill ∈ fills, state.lastAppliedFillEventId = some fill.fillEventId) ∧
    state.recomputeRequired = false ∧ state.recomputeReason = none
  fillIds : ∀ event ∈ result.realizedPnlEvents, ∃ fill ∈ fills,
    event.fillEventId = fill.fillEventId
  accounts : ∀ event ∈ result.realizedPnlEvents,
    event.accountId = accountId ∧ event.instrumentId = instrumentId
  sales : (result.realizedPnlEvents.map fun e => (e.fillEventId, e.fillTimestamp, e.fee, e.tax)) =
    (fills.filter (·.side = .sell)).map fun f => (f.fillEventId, f.fillTimestamp, f.fee, f.tax)

theorem events_nodup_of_fills {accountId instrumentId : UUID} {fills : List NormalizedFill}
    {result : ReplayResult} (hids : (fills.map (·.fillEventId)).Nodup)
    (h : FromFills accountId instrumentId fills result) :
    (result.realizedPnlEvents.map (·.fillEventId)).Nodup := by
  have hsales := congrArg (List.map Prod.fst) h.sales
  simp only [List.map_map, Function.comp_def] at hsales
  rw [hsales]
  exact hids.sublist (List.Sublist.map _ List.filter_sublist)

theorem replayFills_fromFills {accountId instrumentId runId : UUID} {fills : List NormalizedFill}
    (hkey : ∀ fill ∈ fills, fill.accountId = accountId ∧ fill.instrumentId = instrumentId)
    {result : ReplayResult} (h : replayFills n deriveEventId fills runId = .ok result) :
    FromFills accountId instrumentId fills result := by
  induction fills using List.reverseRecOn generalizing result with
  | nil =>
    cases h
    exact ⟨fun _ h => (nomatch h), fun _ h => (nomatch h), fun _ h => (nomatch h), rfl⟩
  | append_singleton fills fill ih =>
    obtain ⟨before, state, event, hbefore, -, happly, rfl⟩ := replayFills_concat h
    have hfrom := applyFillToCostBasis_fromFill happly
    have hprev := ih (fun f hf => hkey f (List.mem_append_left _ hf)) hbefore
    have hlast : fill ∈ fills ++ [fill] := List.mem_append_right _ (List.mem_singleton_self _)
    obtain ⟨hacc, hins⟩ := hkey fill hlast
    have hnew : ∀ e ∈ event.toList, e.accountId = fill.accountId ∧
        e.instrumentId = fill.instrumentId ∧ e.fillEventId = fill.fillEventId := by
      intro e he
      have hcopies := hfrom.copies e (Option.mem_toList.mp he)
      exact ⟨hcopies.1, hcopies.2.1, hcopies.2.2.1⟩
    refine ⟨?_, ?_, ?_, ?_⟩
    · rintro row ⟨⟩
      exact ⟨hfrom.account.trans hacc, hfrom.instrument.trans hins, ⟨fill, hlast, hfrom.lastFill⟩,
        hfrom.unflagged⟩
    · intro e he
      rcases List.mem_append.mp he with he | he
      · obtain ⟨f, hf, hid⟩ := hprev.fillIds e he
        exact ⟨f, List.mem_append_left _ hf, hid⟩
      · exact ⟨fill, hlast, (hnew e he).2.2⟩
    · intro e he
      rcases List.mem_append.mp he with he | he
      · exact hprev.accounts e he
      · exact ⟨(hnew e he).1.trans hacc, (hnew e he).2.1.trans hins⟩
    · rw [List.map_append, List.filter_append, List.map_append, hprev.sales]
      congr 1
      cases event with
      | none =>
        have hbuy : ¬ fill.side = .sell := fun hs => nomatch hfrom.isSale.mpr hs
        simp only [Option.toList_none, List.map_nil, List.filter_cons, hbuy, decide_false,
          Bool.false_eq_true, if_false, List.filter_nil]
      | some e =>
        have hsell : fill.side = .sell := hfrom.isSale.mp rfl
        obtain ⟨-, -, hid, htime, hfee, htax, -⟩ := hfrom.copies e rfl
        simp only [Option.toList_some, List.map_cons, List.map_nil, List.filter_cons, hsell,
          decide_true, if_true, List.filter_nil, hid, htime, hfee, htax]

end

end AgentTrading.RealizedPnl
