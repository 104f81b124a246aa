import AgentTrading.RealizedPnl.Recompute
import AgentTrading.RealizedPnl.Replay

/-! The writes of a replay: the events over the rows of their fills, one row for each of their
days, and the state last. -/
namespace AgentTrading.RealizedPnl
open Domain

/-- What the writes of a replay leave of the tables. -/
structure Rewritten (n : Numerics) (accountId instrumentId : UUID) (result : ReplayResult)
    (runId : UUID) (ledger after : Ledger) : Prop where
  states : ∀ key, after.states key =
    if key = (accountId, instrumentId) then
      (result.finalState.map fun state => PositionCostBasisStateEntity.stored n
        { state with recomputeRequired := false, recomputeReason := none }).or (ledger.states key)
    else ledger.states key
  events : ∀ id, after.events id =
    ((result.realizedPnlEvents.find? (·.fillEventId = id)).map fun event =>
      (upsertedEvent (ledger.events id) event).stored n).or (ledger.events id)
  aggregates : ∀ account instrument date, after.aggregates (account, instrument, date) =
    if (account, instrument) = (accountId, instrumentId) ∧
        date ∈ tradeDates result.realizedPnlEvents then
      some ((rebuiltAggregate n accountId instrumentId date runId
        (onDate date result.realizedPnlEvents)).stored n)
    else ledger.aggregates (account, instrument, date)

section
variable {n : Numerics} {accountId instrumentId : UUID}

theorem writeEach_foldl {α : Type} {fault : α → Option PyError} {write : Ledger → α → Ledger}
    {ledger : Ledger} {items : List α} (h : (writeEach fault write ledger items).1 = none) :
    (writeEach fault write ledger items).2 = items.foldl write ledger := by
  induction items generalizing ledger with
  | nil => rfl
  | cons item items ih =>
    unfold writeEach at h ⊢
    cases hfault : fault item with
    | some e =>
      rw [hfault] at h
      cases h
    | none =>
      rw [hfault] at h
      exact ih h

theorem writeEach_nofault {α : Type} (write : Ledger → α → Ledger) (ledger : Ledger)
    (items : List α) :
    writeEach (fun _ => none) write ledger items = (none, items.foldl write ledger) := by
  induction items generalizing ledger with
  | nil => rfl
  | cons item items ih => exact ih (write ledger item)

theorem upsertedEvent_fill {existing : Option RealizedPnlEventEntity}
    {event : RealizedPnlEventEntity}
    (h : ∀ row, existing = some row → row.fillEventId = event.fillEventId) :
    (upsertedEvent existing event).fillEventId = event.fillEventId := by
  cases existing with
  | none => rfl
  | some row => exact h row rfl

/-- Upserting the events of distinct fills writes each over the row of its own fill. -/
theorem upsertEvents_rows (events : List RealizedPnlEventEntity) (ledger : Ledger)
    (hnodup : (events.map (·.fillEventId)).Nodup)
    (hkeyed : ∀ event ∈ events, ∀ row, ledger.events event.fillEventId = some row →
      row.fillEventId = event.fillEventId) (id : UUID) :
    (events.foldl (fun ledger event =>
        ledger.putEvent n (upsertedEvent (ledger.events event.fillEventId) event)) ledger).events
          id =
      ((events.find? (·.fillEventId = id)).map fun event =>
        (upsertedEvent (ledger.events id) event).stored n).or (ledger.events id) := by
  induction events generalizing ledger with
  | nil => simp
  | cons event events ih =>
    rw [List.map_cons, List.nodup_cons] at hnodup
    have hother : ∀ e ∈ events, e.fillEventId ≠ event.fillEventId :=
      fun e he heq => hnodup.1 (heq ▸ List.mem_map_of_mem he)
    have hput : (ledger.putEvent n (upsertedEvent (ledger.events event.fillEventId) event)).events =
        Function.update ledger.events event.fillEventId
          (some ((upsertedEvent (ledger.events event.fillEventId) event).stored n)) := by
      simp only [Ledger.putEvent, upsertedEvent_fill (hkeyed event List.mem_cons_self)]
    have hlater : ∀ e ∈ events, ∀ row, (ledger.putEvent n
        (upsertedEvent (ledger.events event.fillEventId) event)).events e.fillEventId = some row →
        row.fillEventId = e.fillEventId := by
      intro e he row hrow
      rw [hput, Function.update_of_ne (hother e he)] at hrow
      exact hkeyed e (List.mem_cons_of_mem _ he) row hrow
    rw [List.foldl_cons, ih _ hnodup.2 hlater, hput, List.find?_cons]
    by_cases hid : event.fillEventId = id
    · have hnone : events.find? (·.fillEventId = id) = none := by
        rw [List.find?_eq_none]
        intro e he heq
        exact hother e he ((of_decide_eq_true heq).trans hid.symm)
      simp [hid, hnone]
    · simp [hid, Function.update_of_ne (Ne.symm hid)]

theorem upsertEvents_foldl {faults : RecomputeFaults} {ledger written : Ledger}
    {events : List RealizedPnlEventEntity}
    (h : upsertEvents n faults ledger events = (none, written)) :
    written = events.foldl (fun ledger event =>
      ledger.putEvent n (upsertedEvent (ledger.events event.fillEventId) event)) ledger := by
  have := writeEach_foldl (congrArg Prod.fst h)
  exact (congrArg Prod.snd h).symm.trans this

theorem rebuildDailyAggregates_foldl {faults : RecomputeFaults} {ledger written : Ledger}
    {events : List RealizedPnlEventEntity} {runId : UUID}
    (h : rebuildDailyAggregates n faults ledger accountId instrumentId events runId =
      (none, written)) :
    written = (tradeDates events).foldl (fun ledger date => ledger.upsertAggregate n
      (rebuiltAggregate n accountId instrumentId date runId (onDate date events))) ledger := by
  have := writeEach_foldl (congrArg Prod.fst h)
  exact (congrArg Prod.snd h).symm.trans this

theorem foldl_putEvent_frame (events : List RealizedPnlEventEntity) (ledger : Ledger) :
    let after := events.foldl (fun ledger event =>
      ledger.putEvent n (upsertedEvent (ledger.events event.fillEventId) event)) ledger
    after.states = ledger.states ∧ after.aggregates = ledger.aggregates := by
  induction events generalizing ledger with
  | nil => exact ⟨rfl, rfl⟩
  | cons event events ih => exact ih _

theorem upsertAggregates_tables (row : Int → RealizedPnlDailyAggregateEntity)
    (hrow : ∀ date, (row date).accountId = accountId ∧ (row date).instrumentId = instrumentId ∧
      (row date).tradeDate = date) (dates : List Int) (ledger : Ledger) :
    let ledger' := dates.foldl (fun ledger date => ledger.upsertAggregate n (row date)) ledger
    ledger'.states = ledger.states ∧ ledger'.events = ledger.events ∧
      ∀ account instrument date, ledger'.aggregates (account, instrument, date) =
        if (account, instrument) = (accountId, instrumentId) ∧ date ∈ dates then
          some ((row date).stored n)
        else ledger.aggregates (account, instrument, date) := by
  induction dates generalizing ledger with
  | nil =>
    refine ⟨rfl, rfl, fun account instrument date => ?_⟩
    rw [if_neg fun h => (nomatch h.2)]
    rfl
  | cons first dates ih =>
    obtain ⟨hstates, hevents, haggregates⟩ := ih (ledger.upsertAggregate n (row first))
    refine ⟨hstates, hevents, fun account instrument date => ?_⟩
    rw [List.foldl_cons, haggregates]
    obtain ⟨hacc, hins, hdate⟩ := hrow first
    simp only [Ledger.upsertAggregate, hacc, hins, hdate, List.mem_cons]
    by_cases hkey : (account, instrument) = (accountId, instrumentId)
    · cases hkey
      by_cases hmem : date ∈ dates
      · simp only [hmem, or_true, and_true, if_true]
      · by_cases hfirst : date = first
        · subst hfirst
          simp only [hmem, and_false, if_false, true_or, and_true, if_true, Function.update_self]
        · have hne : (accountId, instrumentId, date) ≠ (accountId, instrumentId, first) :=
            fun h => hfirst (congrArg (·.2.2) h)
          simp only [hmem, hfirst, or_self, and_false, if_false, Function.update_of_ne hne]
    · have hne : (account, instrument, date) ≠ (accountId, instrumentId, first) :=
        fun h => hkey (congrArg (fun k => (k.1, k.2.1)) h)
      simp only [hkey, false_and, if_false, Function.update_of_ne hne]

theorem persistReplay_rewritten {faults : RecomputeFaults} {ledger after : Ledger}
    {result : ReplayResult} {runId : UUID}
    (hkeyed : ∀ event ∈ result.realizedPnlEvents, ∀ row,
      ledger.events event.fillEventId = some row → row.fillEventId = event.fillEventId)
    (hnodup : (result.realizedPnlEvents.map (·.fillEventId)).Nodup)
    (hkey : ∀ state, result.finalState = some state →
      state.accountId = accountId ∧ state.instrumentId = instrumentId)
    (h : persistReplay n faults ledger accountId instrumentId result runId = (none, after)) :
    Rewritten n accountId instrumentId result runId ledger after := by
  unfold persistReplay at h
  split at h
  · cases h
  next written hwritten =>
    obtain rfl := upsertEvents_foldl hwritten
    obtain ⟨hstates₁, haggregates₁⟩ :=
      foldl_putEvent_frame (n := n) result.realizedPnlEvents ledger
    have hevents₁ := upsertEvents_rows (n := n) result.realizedPnlEvents ledger hnodup hkeyed
    split at h
    · cases h
    next rebuilt hrebuilt =>
      obtain rfl := rebuildDailyAggregates_foldl hrebuilt
      obtain ⟨hstates₂, hevents₂, haggregates₂⟩ := upsertAggregates_tables (n := n)
        (fun date => rebuiltAggregate n accountId instrumentId date runId
          (onDate date result.realizedPnlEvents))
        (fun date => ⟨rfl, rfl, rfl⟩) (tradeDates result.realizedPnlEvents)
        (result.realizedPnlEvents.foldl (fun ledger event =>
          ledger.putEvent n (upsertedEvent (ledger.events event.fillEventId) event)) ledger)
      split at h
      next hfinal =>
        cases h
        constructor
        · intro key
          simp [hstates₂, hstates₁, hfinal]
        · intro id
          rw [hevents₂, hevents₁]
        · intro account instrument date
          rw [haggregates₂, haggregates₁]
      next state hfinal =>
        obtain ⟨hacc, hins⟩ := hkey state hfinal
        split at h
        · cases h
        · cases h
          constructor
          · intro key
            by_cases hsame : key = (accountId, instrumentId)
            · simp [Ledger.upsertState, hacc, hins, hsame, hfinal]
            · simp [Ledger.upsertState, hacc, hins, hsame, hstates₂, hstates₁]
          · intro id
            simp only [Ledger.upsertState, hevents₂, hevents₁]
          · intro account instrument date
            simp only [Ledger.upsertState, haggregates₂, haggregates₁]

theorem persistReplay_nofault (n : Numerics) (ledger : Ledger) (accountId instrumentId : UUID)
    (result : ReplayResult) (runId : UUID) :
    ∃ after, persistReplay n {} ledger accountId instrumentId result runId = (none, after) := by
  unfold persistReplay upsertEvents rebuildDailyAggregates
  dsimp only
  rw [writeEach_nofault]
  dsimp only
  rw [writeEach_nofault]
  cases hfinal : result.finalState with
  | none => exact ⟨_, rfl⟩
  | some state => exact ⟨_, rfl⟩

end

end AgentTrading.RealizedPnl
