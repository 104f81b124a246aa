import AgentTrading.SymbolState.Hysteresis

/-! What a BUY inside the cooldown has to meet, against what the hysteresis checks of it. -/
namespace AgentTrading.SymbolState
open Domain Kis Library.Fallback RealizedPnl

theorem atLeast_iff {a b : Dec} : atLeast a b = .ok true ↔ a.less b = .ok false := by
  unfold atLeast
  cases a.less b <;> simp [bind, Except.bind, pure, Except.pure]

theorem atLeast_refl {a : Dec} (h : a ≠ .nan) (h' : a ≠ .snan) : atLeast a a = .ok true := by
  rw [atLeast_iff]
  cases a with
  | finite v => simp [Dec.less]
  | infinity negative => simp [Dec.less]
  | nan => exact absurd rfl h
  | snan => exact absurd rfl h'

theorem atLeast_trans {a b c : Dec} (hab : atLeast a b = .ok true) (hbc : atLeast b c = .ok true) :
    atLeast a c = .ok true := by
  rw [atLeast_iff] at hab hbc ⊢
  cases a <;> cases b <;> cases c <;> simp_all [Dec.less]
  case finite.finite.finite => exact le_trans hbc hab

theorem improves_iff {current last : Dec} : improves current last = .ok true ↔
    ∃ t, improvedEdge last = .ok t ∧ atLeast current t = .ok true := by
  unfold improves
  cases improvedEdge last <;> simp [bind, Except.bind]

theorem not_improves_nan (last : Dec) : improves .nan last ≠ .ok true := by
  rw [ne_eq, improves_iff]
  rintro ⟨t, -, hle⟩
  rw [atLeast_iff] at hle
  cases t <;> simp [Dec.less] at hle

/-- The edge that is just enough against `found` is enough against `recorded`; against a NaN none
is enough. -/
def AsDemanding (found recorded : Dec) : Prop :=
  found = .nan ∨ found = .snan ∨ (improvedEdge found).bind (improves · recorded) = .ok true

instance (found recorded : Dec) : Decidable (AsDemanding found recorded) := by
  unfold AsDemanding
  infer_instance

theorem asDemanding_iff {found recorded : Dec} : AsDemanding found recorded ↔
    ∀ edge, improves edge found = .ok true → improves edge recorded = .ok true := by
  constructor
  · rintro (rfl | rfl | henough) edge hedge
    · obtain ⟨t, ht, hle⟩ := improves_iff.mp hedge
      cases ht
      rw [atLeast_iff] at hle
      cases edge <;> simp [Dec.less] at hle
    · obtain ⟨t, ht, -⟩ := improves_iff.mp hedge
      cases ht
    · obtain ⟨t, ht, hle⟩ := improves_iff.mp hedge
      rw [ht] at henough
      obtain ⟨u, hu, hle'⟩ := improves_iff.mp henough
      exact improves_iff.mpr ⟨u, hu, atLeast_trans hle hle'⟩
  · intro h
    cases found with
    | nan => exact .inl rfl
    | snan => exact .inr (.inl rfl)
    | finite v =>
      apply Or.inr ∘ Or.inr
      apply h
      exact improves_iff.mpr ⟨_, rfl, atLeast_refl nofun nofun⟩
    | infinity negative =>
      apply Or.inr ∘ Or.inr
      apply h
      exact improves_iff.mpr ⟨_, rfl, atLeast_refl nofun nofun⟩

theorem asDemanding_refl (d : Dec) : AsDemanding d d := asDemanding_iff.mpr fun _ h => h

theorem computeEventNoveltyPassed_iff {clock : Time} {recentEvents : List ExternalEventEntity}
    {referenceTime : Option Time} :
    (computeEventNoveltyPassed clock recentEvents referenceTime).1 = true ↔
      ∃ event ∈ recentEvents, eventSupportsReentry event ∧
        referenceTime.getD (clock - noveltyLookback) ≤ event.publishedAt := by
  unfold computeEventNoveltyPassed
  dsimp only
  split
  next event rest hfilter =>
    have hmem : event ∈ event :: rest := List.mem_cons_self
    rw [← hfilter, List.mem_filter, Bool.and_eq_true, decide_eq_true_eq] at hmem
    exact iff_of_true rfl ⟨event, hmem.1, hmem.2.2, hmem.2.1⟩
  next hfilter =>
    apply iff_of_false Bool.false_ne_true
    rintro ⟨event, hmem, hsupports, hcutoff⟩
    have hnot := List.filter_eq_nil_iff.mp hfilter event hmem
    rw [Bool.and_eq_true, decide_eq_true_eq] at hnot
    exact hnot ⟨hcutoff, hsupports⟩

theorem evaluate_unblocked_iff {fromisoformat : String → Option DateTime}
    {s : SymbolTradeStateEntity} {call : BuyCall}
    (hcool : s.cooldownActive fromisoformat call.nowUtc = .ok true) :
    (∃ d, evaluateSymbolStateBuyHysteresis fromisoformat s call = .ok d ∧ d.blocked = false) ↔
      s.state ∉ pendingSymbolStates ∧
      (∃ new last, call.currentSignalFeatureSnapshotId = some new ∧ s.snapshotText = some last ∧
        new ≠ last) ∧
      (∃ edge, call.currentEdgeAfterCostBps = some edge ∧
        ∀ last, s.lastExitEdgeAfterCostBps = some last → improves edge last = .ok true) ∧
      (computeEventNoveltyPassed call.clock call.recentEvents s.referenceTime).1 = true := by
  unfold evaluateSymbolStateBuyHysteresis
  by_cases hpending : s.state ∈ pendingSymbolStates
  · simp [hpending, blockedBy, pure, Except.pure]
  simp only [hpending, hcool, if_false, bind, Except.bind, pure, Except.pure]
  cases hnew : call.currentSignalFeatureSnapshotId with
  | none => simp [blockedBy]
  | some new =>
    cases hlast : s.snapshotText with
    | none => simp [blockedBy]
    | some last =>
      by_cases hsame : new = last
      · simp [hsame]
      cases hnovel :
          (computeEventNoveltyPassed call.clock call.recentEvents s.referenceTime).1 <;>
        cases hedge : call.currentEdgeAfterCostBps with
      | none => simp [edgeImproved, hsame]
      | some edge =>
        cases hexit : s.lastExitEdgeAfterCostBps with
        | none => simp [edgeImproved, hsame]
        | some last =>
          cases himproves : improves edge last with
          | error e => simp [edgeImproved, himproves, hsame]
          | ok improved => cases improved <;> simp [edgeImproved, himproves, hsame]

/-- The edge the last exit recorded: the first of the four places that holds a number. -/
def SymbolTradeStateEntity.recordedEdge (s : SymbolTradeStateEntity) : Option Dec :=
  firstRecord Value.decimalOrNone s.exitEdge s.otherEdges

structure ReentrySupported (s : SymbolTradeStateEntity) (call : BuyCall) : Prop where
  notPending : s.state ∉ pendingSymbolStates
  snapshotChanged : ∃ new last, call.currentSignalFeatureSnapshotId = some new ∧
    s.snapshotText = some last ∧ new ≠ last
  eventSince : ∃ event ∈ call.recentEvents, eventSupportsReentry event ∧
    ∀ t, s.referenceTime = some t → t ≤ event.publishedAt
  edgeImproved : ∃ edge, call.currentEdgeAfterCostBps = some edge ∧
    ∀ recorded, s.recordedEdge = some recorded → improves edge recorded = .ok true

/-- No BUY is let through at a time of the cooldown without meeting all of it. -/
def GuardsReentry (fromisoformat : String → Option DateTime) (s : SymbolTradeStateEntity)
    (nowUtc : Time) : Prop :=
  ∀ call : BuyCall, call.nowUtc = nowUtc →
    ∀ d, evaluateSymbolStateBuyHysteresis fromisoformat s call = .ok d → d.blocked = false →
      ReentrySupported s call

/-- The lookup passes over no number in the four places that demands more than what it finds. -/
def EdgeHeeded (s : SymbolTradeStateEntity) : Prop :=
  Heeded Value.truthy Value.decimalOrNone AsDemanding s.exitEdge s.otherEdges

variable {fromisoformat : String → Option DateTime} {s : SymbolTradeStateEntity}

theorem edgeHeeded_iff : EdgeHeeded s ↔ ∀ recorded, s.recordedEdge = some recorded →
    ∃ found, s.lastExitEdgeAfterCostBps = some found ∧ AsDemanding found recorded :=
  heeded_iff asDemanding_refl s.exitEdge s.otherEdges

theorem exists_missed_edge (h : ¬ EdgeHeeded s) :
    ∃ edge, (∀ last, s.lastExitEdgeAfterCostBps = some last → improves edge last = .ok true) ∧
      ∃ recorded, s.recordedEdge = some recorded ∧ improves edge recorded ≠ .ok true := by
  rw [edgeHeeded_iff] at h
  push Not at h
  obtain ⟨recorded, hrecorded, hmissed⟩ := h
  cases hfound : s.lastExitEdgeAfterCostBps with
  | none => exact ⟨.nan, nofun, recorded, hrecorded, not_improves_nan recorded⟩
  | some found =>
    have hless := hmissed found hfound
    rw [asDemanding_iff] at hless
    push Not at hless
    obtain ⟨edge, hpasses, hfails⟩ := hless
    refine ⟨edge, ?_, recorded, hrecorded, hfails⟩
    intro last hlast
    cases hlast
    exact hpasses

/-- An event of the time from which events count. -/
def freshEvent (publishedAt : Time) : ExternalEventEntity where
  publishedAt := publishedAt
  severity := "high"
  direction := "positive"

theorem freshEvent_supports (publishedAt : Time) :
    eventSupportsReentry (freshEvent publishedAt) = true := by
  have hnovelty : normalized .null "high" = "high" := by decide
  have hdirection : normalized .null "positive" = "positive" := by decide
  simp [eventSupportsReentry, freshEvent, Dict.get, hnovelty, hdirection]

theorem guardsReentry_iff {nowUtc : Time}
    (hcool : s.cooldownActive fromisoformat nowUtc = .ok true) :
    GuardsReentry fromisoformat s nowUtc ↔
      s.state ∈ pendingSymbolStates ∨ s.lastSignalFeatureSnapshotId = none ∨ EdgeHeeded s := by
  constructor
  · intro hguards
    by_contra hnot
    push Not at hnot
    obtain ⟨hpending, hlast, hmissed⟩ := hnot
    obtain ⟨id, hid⟩ := Option.ne_none_iff_exists'.mp hlast
    obtain ⟨edge, hpasses, recorded, hrecorded, hfails⟩ := exists_missed_edge hmissed
    -- every other condition is met
    let call : BuyCall :=
      { nowUtc := nowUtc, clock := nowUtc
        currentSignalFeatureSnapshotId := some (UUID.text id ++ "0")
        currentEdgeAfterCostBps := some edge
        recentEvents := [freshEvent (s.referenceTime.getD (nowUtc - noveltyLookback))] }
    have hunblocked : ∃ d, evaluateSymbolStateBuyHysteresis fromisoformat s call = .ok d ∧
        d.blocked = false := by
      apply (evaluate_unblocked_iff hcool).mpr
      refine ⟨hpending, ⟨_, UUID.text id, rfl, ?_, ?_⟩, ⟨edge, rfl, hpasses⟩, ?_⟩
      · rw [SymbolTradeStateEntity.snapshotText, hid]
        rfl
      · simp
      · apply computeEventNoveltyPassed_iff.mpr
        exact ⟨_, List.mem_singleton_self _, freshEvent_supports _, le_rfl⟩
    obtain ⟨d, hd, hblocked⟩ := hunblocked
    obtain ⟨edge', hedge', himproves⟩ := (hguards call rfl d hd hblocked).edgeImproved
    cases hedge'
    exact hfails (himproves recorded hrecorded)
  · rintro h call rfl d hd hblocked
    obtain ⟨hpending, hchanged, ⟨edge, hedge, hpasses⟩, hnovel⟩ :=
      (evaluate_unblocked_iff hcool).mp ⟨d, hd, hblocked⟩
    obtain ⟨event, hevent, hsupports, hcutoff⟩ := computeEventNoveltyPassed_iff.mp hnovel
    refine ⟨hpending, hchanged, ⟨event, hevent, hsupports, ?_⟩, edge, hedge, ?_⟩
    · intro t ht
      simpa [ht] using hcutoff
    · intro recorded hrecorded
      obtain hstate | hnone | hheeded := h
      · exact absurd hstate hpending
      · obtain ⟨new, last, -, hlast, -⟩ := hchanged
        simp [SymbolTradeStateEntity.snapshotText, hnone] at hlast
      · obtain ⟨found, hfound, hdemanding⟩ := edgeHeeded_iff.mp hheeded recorded hrecorded
        exact asDemanding_iff.mp hdemanding edge (hpasses found hfound)

/-- What is recorded with a decision: nothing, or the text of its edge. -/
def WrittenEdge (v : Value) : Prop :=
  v = .json .null ∨ ∃ text edge, v = .json (.str text) ∧ parseDecimal text = .ok edge

theorem WrittenEdge.truthy_eq {v : Value} (h : WrittenEdge v) :
    v.truthy = v.decimalOrNone.isSome := by
  obtain rfl | ⟨text, edge, rfl, hedge⟩ := h
  · rfl
  · have hne : text ≠ "" := by
      rintro rfl
      cases hedge
    simp [Value.truthy, Value.decimalOrNone, Json.truthy, Json.isNull, Json.isText, Json.text,
      hedge, Except.toOption, hne]

/-- A text is never passed over, that of a zero included. -/
theorem edgeHeeded_of_written (h : ∀ v ∈ s.exitEdge :: s.otherEdges, WrittenEdge v) :
    EdgeHeeded s :=
  heeded_of_read _ _ fun v hv => (h v hv).truthy_eq

/-- A position sold with the given edge a minute into the day, under a cooldown of an hour. -/
def soldWith (edge : Value) : SymbolTradeStateEntity where
  accountId := 1
  instrumentId := 2
  state := "flat_cooldown"
  lastExitAt := some microsPerMinute
  reentryCooldownUntil := some (60 * microsPerMinute)
  lastSignalFeatureSnapshotId := some 7
  metadataJson := [("holding_profile_policy", .dict [("last_exit_edge_after_cost_bps", edge)])]

def tenMinutesLater : BuyCall where
  nowUtc := 10 * microsPerMinute
  clock := 10 * microsPerMinute
  currentSignalFeatureSnapshotId := some (UUID.text 8)
  currentEdgeAfterCostBps := some (.finite 5)
  recentEvents := [freshEvent (5 * microsPerMinute)]

theorem guardsReentry_zeroText : GuardsReentry (fun _ => none) (soldWith (.json (.str "0")))
    (10 * microsPerMinute) := by
  apply (guardsReentry_iff (by decide)).mpr (.inr (.inr (edgeHeeded_of_written ?_)))
  intro v hv
  simp only [SymbolTradeStateEntity.otherEdges, List.mem_cons, List.not_mem_nil, or_false] at hv
  rcases hv with rfl | rfl | rfl | rfl
  · exact .inr ⟨"0", .finite 0, rfl, by decide +kernel⟩
  · exact .inl rfl
  · exact .inl rfl
  · exact .inl rfl

theorem zeroNumber_unguarded :
    (soldWith (.json (.int 0))).recordedEdge = some (.finite 0) ∧
      (evaluateSymbolStateBuyHysteresis (fun _ => none) (soldWith (.json (.int 0)))
        tenMinutesLater).map (·.blocked) = .ok false ∧
      ¬ GuardsReentry (fun _ => none) (soldWith (.json (.int 0))) (10 * microsPerMinute) := by
  have hrecorded : (soldWith (.json (.int 0))).recordedEdge = some (.finite 0) := by
    decide +kernel
  have hunblocked : (evaluateSymbolStateBuyHysteresis (fun _ => none)
      (soldWith (.json (.int 0))) tenMinutesLater).map (·.blocked) = .ok false := by
    decide +kernel
  refine ⟨hrecorded, hunblocked, ?_⟩
  intro hguards
  cases hd : evaluateSymbolStateBuyHysteresis (fun _ => none) (soldWith (.json (.int 0)))
      tenMinutesLater with
  | error e => simp [hd, Except.map] at hunblocked
  | ok d =>
    have hblocked : d.blocked = false := by simpa [hd, Except.map] using hunblocked
    obtain ⟨edge, hedge, himproves⟩ := (hguards tenMinutesLater rfl d hd hblocked).edgeImproved
    cases hedge
    have hfails : improves (.finite 5) (.finite 0) ≠ .ok true := by decide +kernel
    exact hfails (himproves _ hrecorded)

end AgentTrading.SymbolState
