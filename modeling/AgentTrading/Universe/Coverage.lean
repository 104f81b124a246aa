import AgentTrading.Library.Outcome
import AgentTrading.Universe.Capacity

/-! A whole composition: which blocks the universe is made of, in which order the core symbols
stand in it, and which symbols no exclusion and no cap can keep out. -/
namespace AgentTrading.Universe
open Domain Kis Library Library.Keyed Library.Latest Library.Quota Library.Contest

variable {sources : Sources} {ctx : CompositionContext}

/-- Not above `b` in the ranking of the core symbols. -/
def coreLe (sources : Sources) (ctx : CompositionContext) (demoted : List String)
    (a b : SelectedSymbol) : Prop :=
  coreSignalKey sources ctx demoted a.symbol ≤ coreSignalKey sources ctx demoted b.symbol

instance (demoted : List String) : DecidableRel (coreLe sources ctx demoted) := fun a b =>
  inferInstanceAs (Decidable (coreSignalKey sources ctx demoted a.symbol ≤
    coreSignalKey sources ctx demoted b.symbol))

/-- The core symbols as the cap meets them. -/
def coreOrder (sources : Sources) (ctx : CompositionContext) (demoted : List String)
    (core : List SelectedSymbol) : List SelectedSymbol :=
  if ctx.signalScoreRanking then core.insertionSort (coreLe sources ctx demoted) else core

theorem coreSignalKey_injective {demoted : List String} {a b : String}
    (h : coreSignalKey sources ctx demoted a = coreSignalKey sources ctx demoted b) : a = b := by
  have hlast :
      ∀ symbol, (ofLex (ofLex (coreSignalKey sources ctx demoted symbol)).2).2 = symbol := by
    intro symbol
    unfold coreSignalKey
    cases coreSignalScore sources symbol <;> rfl
  rw [← hlast a, ← hlast b, h]

theorem coreSignalSortRank_le_iff {l : List SelectedSymbol} {demoted : List String}
    {a b : SelectedSymbol} (ha : a ∈ ofSource .core l) (hb : b ∈ ofSource .core l) :
    coreSignalSortRank sources ctx l demoted a.symbol ≤
        coreSignalSortRank sources ctx l demoted b.symbol ↔ coreLe sources ctx demoted a b := by
  unfold coreSignalSortRank coreLe
  generalize hkey : coreSignalKey sources ctx demoted = key
  have hinjective : ∀ {s t : String}, key s = key t → s = t := by
    intro s t hst
    rw [← hkey] at hst
    exact coreSignalKey_injective hst
  have hrefl : Std.Refl fun s t : String => key s ≤ key t := ⟨fun s => le_rfl⟩
  have htotal : Std.Total fun s t : String => key s ≤ key t := ⟨fun s t => le_total _ _⟩
  have htrans : IsTrans String fun s t => key s ≤ key t := ⟨fun _ _ _ => le_trans⟩
  have hsorted := List.pairwise_insertionSort (fun s t => key s ≤ key t)
    ((ofSource .core l).map (·.symbol))
  have hmem : ∀ {s : SelectedSymbol}, s ∈ ofSource .core l →
      s.symbol ∈ ((ofSource .core l).map (·.symbol)).insertionSort fun s t => key s ≤ key t := by
    intro s hs
    rw [List.mem_insertionSort]
    exact List.mem_map_of_mem hs
  constructor
  · exact rel_of_idxOf_le hsorted (hmem ha) (hmem hb)
  · intro hab
    by_contra hlt
    have hba := rel_of_idxOf_le hsorted (hmem hb) (hmem ha) (Nat.le_of_not_le hlt)
    rw [hinjective (le_antisymm hab hba)] at hlt
    exact hlt le_rfl

theorem sortKey_eq {s : SelectedSymbol} {l : List SelectedSymbol} {demoted : List String}
    (h : s.sourceType ≠ .core) :
    sortKey sources ctx l demoted s = toLex (s.sourceType.priority, 0) := by
  rw [sortKey, if_neg h]
  rfl

/-- The sort keeps the order within each source, the core symbols of the ranking mode apart. -/
theorem ofSource_prioritySort {t : SourceType} (l : List SelectedSymbol) (demoted : List String)
    (ht : t ≠ .core) : ofSource t (prioritySort sources ctx l demoted) = ofSource t l := by
  unfold prioritySort
  split
  · apply filter_insertionSort_of_rank_eq
    intro a ha b hb
    have hsa := sourceType_of_mem ha
    have hsb := sourceType_of_mem hb
    rw [sortKey_eq (by rwa [hsa]), sortKey_eq (by rwa [hsb]), hsa, hsb]
  · apply filter_insertionSort_of_rank_eq
    intro a ha b hb
    rw [SelectedSymbol.priority, SelectedSymbol.priority, sourceType_of_mem ha,
      sourceType_of_mem hb]

theorem ofSource_core_prioritySort (l : List SelectedSymbol) (demoted : List String) :
    ofSource .core (prioritySort sources ctx l demoted) =
      coreOrder sources ctx demoted (ofSource .core l) := by
  unfold prioritySort coreOrder
  split
  · unfold ofSource
    rw [filter_rank_insertionSort]
    apply insertionSort_congr
    intro a ha b hb
    have hsa := sourceType_of_mem ha
    have hsb := sourceType_of_mem hb
    rw [← coreSignalSortRank_le_iff ha hb, sortKey, sortKey, Prod.Lex.toLex_le_toLex]
    simp [SelectedSymbol.priority, hsa, hsb]
  · apply filter_insertionSort_of_rank_eq
    intro a ha b hb
    rw [SelectedSymbol.priority, SelectedSymbol.priority, sourceType_of_mem ha,
      sourceType_of_mem hb]

/-- A composition that leaves the held positions out of the cap is the cut of the candidates'
blocks, each in the order of its proposals and the core symbols in theirs. -/
theorem compose_eq_cut (hexclude : ctx.excludeHeldFromCap = true) {result : List SelectedSymbol}
    (h : compose sources ctx = .ok result) :
    ∃ ps, proposals sources ctx = .ok ps ∧
      result = cut ctx
        (ofSource .heldPosition (applyExclusions sources (tableOf ps)))
        (ofSource .reconciliationOverlay (applyExclusions sources (tableOf ps)))
        (ofSource .eventOverlay (applyExclusions sources (tableOf ps)))
        (ofSource .marketOverlay (applyExclusions sources (tableOf ps)))
        (ofSource .manual (applyExclusions sources (tableOf ps)))
        (coreOrder sources ctx (demotedSymbols sources ctx (tableOf ps))
          (ofSource .core (applyExclusions sources (tableOf ps)))) := by
  obtain ⟨ps, hps, rfl⟩ := compose_eq_ok h
  refine ⟨ps, hps, ?_⟩
  rw [applyCap_eq_cut hexclude (prioritySort_sorted _ _), ofSource_core_prioritySort,
    ofSource_prioritySort _ _ (by decide), ofSource_prioritySort _ _ (by decide),
    ofSource_prioritySort _ _ (by decide), ofSource_prioritySort _ _ (by decide),
    ofSource_prioritySort _ _ (by decide)]

theorem compose_eq_cut_sample :
    ∃ ps, proposals sampleSources sampleContext = .ok ps ∧
      sampleUniverse = cut sampleContext
        (ofSource .heldPosition (applyExclusions sampleSources (tableOf ps)))
        (ofSource .reconciliationOverlay (applyExclusions sampleSources (tableOf ps)))
        (ofSource .eventOverlay (applyExclusions sampleSources (tableOf ps)))
        (ofSource .marketOverlay (applyExclusions sampleSources (tableOf ps)))
        (ofSource .manual (applyExclusions sampleSources (tableOf ps)))
        (coreOrder sampleSources sampleContext
          (demotedSymbols sampleSources sampleContext (tableOf ps))
          (ofSource .core (applyExclusions sampleSources (tableOf ps)))) :=
  compose_eq_cut rfl compose_sample

/-- The account holds the symbol. -/
inductive Held (sources : Sources) (ctx : CompositionContext) : String → Prop where
  | position {pos : PositionSnapshotEntity} {inst : InstrumentEntity}
      (held : pos ∈ sources.latestPositions ctx.accountId) (positive : 0 < pos.quantity)
      (known : sources.instrument pos.instrumentId = some inst) : Held sources ctx inst.symbol

/-- Something about an order of the symbol is not settled. -/
inductive Unsettled (sources : Sources) (ctx : CompositionContext) : String → Prop where
  | openOrder {order : OrderRequestEntity} {inst : InstrumentEntity}
      (listed : order ∈ sources.listOrders ctx.accountId activeOrderStatuses 500)
      (live : shouldSkipReconciliationOverlayOrder sources order
        (currentPositionQty sources ctx order.instrumentId) = false)
      (known : sources.instrument order.instrumentId = some inst) :
        Unsettled sources ctx inst.symbol
  | pendingRun {run orderRequestId : UUID} {mismatchType : Option String}
      {order : OrderRequestEntity} {inst : InstrumentEntity}
      (pending : run ∈ sources.pendingRuns 50 ctx.accountId)
      (linked : (orderRequestId, mismatchType) ∈ sources.runOrderLinks run)
      (found : sources.order orderRequestId = some order)
      (known : sources.instrument order.instrumentId = some inst) :
        Unsettled sources ctx inst.symbol
  | lock {name : Option String} (locked : name ∈ sources.locks ctx.accountId)
      (named : stripped (name.getD "") ≠ "") : Unsettled sources ctx (stripped (name.getD ""))

theorem held_iff {symbol : String} :
    Held sources ctx symbol ↔ ∃ p ∈ heldProposals sources ctx, p.symbol = symbol := by
  constructor
  · rintro ⟨hheld, hpositive, hknown⟩
    refine ⟨heldProposal sources _, List.mem_filterMap.mpr ⟨_, hheld, ?_⟩, rfl⟩
    rw [if_pos hpositive, hknown]
    rfl
  · rintro ⟨p, hp, rfl⟩
    obtain ⟨pos, hpos, hsome⟩ := List.mem_filterMap.mp hp
    split at hsome
    next hpositive =>
      obtain ⟨inst, hinst, rfl⟩ := Option.map_eq_some_iff.mp hsome
      exact .position hpos hpositive hinst
    next => cases hsome

theorem unsettled_iff {symbol : String} :
    Unsettled sources ctx symbol ↔ ∃ p ∈ reconciliationProposals sources ctx,
      p.symbol = symbol := by
  unfold reconciliationProposals
  constructor
  · intro h
    cases h with
    | @openOrder order inst listed live known =>
      refine ⟨reconciliationProposal sources inst order.status.value, ?_, rfl⟩
      apply List.mem_append_left
      apply List.mem_append_left
      refine List.mem_filterMap.mpr ⟨order, listed, ?_⟩
      rw [live, known]
      rfl
    | @pendingRun run orderRequestId mismatchType order inst pending linked found known =>
      refine ⟨reconciliationProposal sources inst (orText mismatchType "pending_run"), ?_, rfl⟩
      apply List.mem_append_left
      apply List.mem_append_right
      refine List.mem_flatMap.mpr ⟨run, pending, List.mem_filterMap.mpr ⟨_, linked, ?_⟩⟩
      simp only [found, known, Option.bind_eq_bind, Option.bind_some]
    | lock locked named =>
      refine ⟨_, List.mem_append_right _ (List.mem_filterMap.mpr ⟨_, locked, if_neg named⟩), rfl⟩
  · rintro ⟨p, hp, rfl⟩
    rcases List.mem_append.mp hp with hp | hp
    · rcases List.mem_append.mp hp with hp | hp
      · obtain ⟨order, horder, hsome⟩ := List.mem_filterMap.mp hp
        split at hsome
        next => cases hsome
        next hlive =>
          obtain ⟨inst, hinst, rfl⟩ := Option.map_eq_some_iff.mp hsome
          exact .openOrder horder (by simpa using hlive) hinst
      · obtain ⟨run, hrun, hmem⟩ := List.mem_flatMap.mp hp
        obtain ⟨⟨orderRequestId, mismatchType⟩, hlink, hsome⟩ := List.mem_filterMap.mp hmem
        simp only [Option.bind_eq_bind, Option.bind_eq_some_iff] at hsome
        obtain ⟨order, horder, inst, hinst, hp⟩ := hsome
        obtain rfl := Option.some.inj hp
        exact .pendingRun hrun hlink horder hinst
    · obtain ⟨name, hname, hsome⟩ := List.mem_filterMap.mp hp
      split at hsome
      next => cases hsome
      next hnamed =>
        obtain rfl := Option.some.inj hsome
        exact .lock hname hnamed

theorem sourceType_core {p : SelectedSymbol} (h : p ∈ coreProposals sources) :
    p.sourceType = .core := by
  obtain ⟨inst, -, rfl⟩ := List.mem_map.mp h
  rfl

theorem sourceType_held {p : SelectedSymbol} (h : p ∈ heldProposals sources ctx) :
    p.sourceType = .heldPosition := by
  obtain ⟨pos, -, hsome⟩ := List.mem_filterMap.mp h
  split at hsome
  · obtain ⟨inst, -, rfl⟩ := Option.map_eq_some_iff.mp hsome
    rfl
  · cases hsome

theorem sourceType_reconciliation {p : SelectedSymbol}
    (h : p ∈ reconciliationProposals sources ctx) :
    p.sourceType = .reconciliationOverlay := by
  unfold reconciliationProposals at h
  simp only [List.mem_append] at h
  rcases h with (h | h) | h
  · obtain ⟨order, -, hsome⟩ := List.mem_filterMap.mp h
    split at hsome
    · cases hsome
    · obtain ⟨inst, -, rfl⟩ := Option.map_eq_some_iff.mp hsome
      rfl
  · obtain ⟨run, -, hmem⟩ := List.mem_flatMap.mp h
    obtain ⟨link, -, hsome⟩ := List.mem_filterMap.mp hmem
    simp only [Option.bind_eq_bind, Option.bind_eq_some_iff] at hsome
    obtain ⟨order, -, inst, -, hp⟩ := hsome
    obtain rfl := Option.some.inj hp
    rfl
  · obtain ⟨name, -, hsome⟩ := List.mem_filterMap.mp h
    split at hsome
    · cases hsome
    · obtain rfl := Option.some.inj hsome
      rfl

theorem sourceType_event {p : SelectedSymbol} (h : p ∈ eventProposals sources ctx) :
    p.sourceType = .eventOverlay := by
  obtain ⟨event, -, hsome⟩ := List.mem_filterMap.mp h
  simp only [Option.bind_eq_bind, Option.bind_eq_some_iff] at hsome
  obtain ⟨symbol, -, hsome⟩ := hsome
  split at hsome
  · obtain rfl := Option.some.inj hsome
    rfl
  · cases hsome

theorem sourceType_manual {p : SelectedSymbol} (h : p ∈ manualProposals sources ctx) :
    p.sourceType = .manual := by
  obtain ⟨entry, -, hsome⟩ := List.mem_filterMap.mp h
  dsimp only at hsome
  split at hsome
  · cases hsome
  · obtain rfl := Option.some.inj hsome
    rfl

theorem sourceType_market {seen : Seen} {market : List SelectedSymbol}
    (hmarket : marketProposals sources ctx seen = .ok market) {p : SelectedSymbol}
    (h : p ∈ market) : p.sourceType = .marketOverlay := by
  unfold marketProposals at hmarket
  split at hmarket
  · cases hmarket
    cases h
  · split at hmarket
    · cases hmarket
      cases h
    · obtain ⟨scored, -, hranked⟩ := bind_eq_ok.mp hmarket
      cases hranked
      obtain ⟨snapshot, -, rfl⟩ := List.mem_map.mp h
      rfl

theorem proposals_eq_ok {ps : List SelectedSymbol} (h : proposals sources ctx = .ok ps) :
    ∃ market, marketProposals sources ctx (tableOf (earlierProposals sources ctx)) = .ok market ∧
      ps = earlierProposals sources ctx ++ market := by
  obtain ⟨market, hmarket, hps⟩ := bind_eq_ok.mp h
  exact ⟨market, hmarket, (Except.ok.inj hps).symm⟩

theorem mem_heldProposals_iff {ps : List SelectedSymbol} (h : proposals sources ctx = .ok ps)
    {p : SelectedSymbol} :
    p ∈ heldProposals sources ctx ↔ p ∈ ps ∧ p.sourceType = .heldPosition := by
  obtain ⟨market, hmarket, rfl⟩ := proposals_eq_ok h
  simp only [earlierProposals, List.mem_append]
  constructor
  · intro hp
    exact ⟨by tauto, sourceType_held hp⟩
  · rintro ⟨((((hp | hp) | hp) | hp) | hp) | hp, hsource⟩
    · simp [sourceType_core hp] at hsource
    · exact hp
    · simp [sourceType_reconciliation hp] at hsource
    · simp [sourceType_event hp] at hsource
    · simp [sourceType_manual hp] at hsource
    · simp [sourceType_market hmarket hp] at hsource

theorem mem_reconciliationProposals_iff {ps : List SelectedSymbol}
    (h : proposals sources ctx = .ok ps) {p : SelectedSymbol} :
    p ∈ reconciliationProposals sources ctx ↔
      p ∈ ps ∧ p.sourceType = .reconciliationOverlay := by
  obtain ⟨market, hmarket, rfl⟩ := proposals_eq_ok h
  simp only [earlierProposals, List.mem_append]
  constructor
  · intro hp
    exact ⟨by tauto, sourceType_reconciliation hp⟩
  · rintro ⟨((((hp | hp) | hp) | hp) | hp) | hp, hsource⟩
    · simp [sourceType_core hp] at hsource
    · simp [sourceType_held hp] at hsource
    · exact hp
    · simp [sourceType_event hp] at hsource
    · simp [sourceType_manual hp] at hsource
    · simp [sourceType_market hmarket hp] at hsource

theorem priority_le_of_standing_le {s p : SelectedSymbol} (h : standing s ≤ standing p) :
    s.priority ≤ p.priority := by
  rw [standing, standing, Prod.Lex.toLex_le_toLex] at h
  rcases h with hlt | ⟨heq, -⟩
  · exact hlt.le
  · exact heq.le

theorem mandatory_iff {s : SelectedSymbol} : Mandatory s ↔ s.priority ≤ 1 := by
  unfold Mandatory SelectedSymbol.priority
  cases s.sourceType <;> simp [SourceType.priority]

theorem sourceType_held_iff {s : SelectedSymbol} :
    s.sourceType = .heldPosition ↔ s.priority = 0 := by
  unfold SelectedSymbol.priority
  cases s.sourceType <;> simp [SourceType.priority]

section Places

variable {ps : List SelectedSymbol} (hps : proposals sources ctx = .ok ps)
include hps

theorem held_of_best {s : SelectedSymbol} (h : Best ps s) :
    s.sourceType = .heldPosition ↔ Held sources ctx s.symbol := by
  rw [held_iff]
  constructor
  · intro hsource
    exact ⟨s, (mem_heldProposals_iff hps).mpr ⟨h.proposed, hsource⟩, rfl⟩
  · rintro ⟨p, hp, hsymbol⟩
    rw [mem_heldProposals_iff hps] at hp
    have hle := priority_le_of_standing_le (h.best p hp.1 hsymbol)
    rw [sourceType_held_iff.mp hp.2] at hle
    exact sourceType_held_iff.mpr (Nat.le_zero.mp hle)

theorem mandatory_of_best {s : SelectedSymbol} (h : Best ps s) :
    Mandatory s ↔ Held sources ctx s.symbol ∨ Unsettled sources ctx s.symbol := by
  rw [held_iff, unsettled_iff]
  constructor
  · rintro (hsource | hsource)
    · exact Or.inl ⟨s, (mem_heldProposals_iff hps).mpr ⟨h.proposed, hsource⟩, rfl⟩
    · exact Or.inr ⟨s, (mem_reconciliationProposals_iff hps).mpr ⟨h.proposed, hsource⟩, rfl⟩
  · intro hdemand
    have hproposal : ∃ p ∈ ps, p.symbol = s.symbol ∧ Mandatory p := by
      rcases hdemand with ⟨p, hp, hsymbol⟩ | ⟨p, hp, hsymbol⟩
      · rw [mem_heldProposals_iff hps] at hp
        exact ⟨p, hp.1, hsymbol, Or.inl hp.2⟩
      · rw [mem_reconciliationProposals_iff hps] at hp
        exact ⟨p, hp.1, hsymbol, Or.inr hp.2⟩
    obtain ⟨p, hp, hsymbol, hmandatory⟩ := hproposal
    rw [mandatory_iff] at hmandatory ⊢
    exact (priority_le_of_standing_le (h.best p hp hsymbol)).trans hmandatory

theorem exists_place {symbol : String}
    (h : Held sources ctx symbol ∨ Unsettled sources ctx symbol) :
    ∃ s ∈ applyExclusions sources (tableOf ps), s.symbol = symbol ∧ Best ps s := by
  have hproposal : ∃ p ∈ ps, p.symbol = symbol := by
    rcases h with h | h
    · obtain ⟨p, hp, hsymbol⟩ := held_iff.mp h
      exact ⟨p, ((mem_heldProposals_iff hps).mp hp).1, hsymbol⟩
    · obtain ⟨p, hp, hsymbol⟩ := unsettled_iff.mp h
      exact ⟨p, ((mem_reconciliationProposals_iff hps).mp hp).1, hsymbol⟩
  obtain ⟨p, hp, rfl⟩ := hproposal
  obtain ⟨s, hs, hsymbol, -⟩ := exists_of_proposed hp
  have hbest := best_of_mem_tableOf hs
  refine ⟨s, mem_applyExclusions.mpr ⟨hs, Or.inl ?_⟩, hsymbol, hbest⟩
  rw [mandatory_of_best hps hbest, hsymbol]
  exact h

end Places

/-- With the held positions out of the cap, every symbol the account holds is in the universe as
a held position, and without a limit on the reserve every symbol with an unsettled order is in
it; nothing else passes for either. -/
theorem compose_mandatory (hexclude : ctx.excludeHeldFromCap = true) {result : List SelectedSymbol}
    (h : compose sources ctx = .ok result) :
    (∀ symbol, Held sources ctx symbol →
      ∃ s ∈ result, s.symbol = symbol ∧ s.sourceType = .heldPosition) ∧
    (ctx.reconciliationOverlayReserve = none → ∀ symbol, Unsettled sources ctx symbol →
      ∃ s ∈ result, s.symbol = symbol ∧ Mandatory s) ∧
    ∀ s ∈ result, (s.sourceType = .heldPosition ↔ Held sources ctx s.symbol) ∧
      (Mandatory s ↔ Held sources ctx s.symbol ∨ Unsettled sources ctx s.symbol) := by
  obtain ⟨ps, hps, hcut⟩ := compose_eq_cut hexclude h
  refine ⟨?_, ?_, ?_⟩
  · intro symbol hheld
    obtain ⟨s, hs, rfl, hbest⟩ := exists_place hps (Or.inl hheld)
    have hsource := (held_of_best hps hbest).mpr hheld
    refine ⟨s, ?_, rfl, hsource⟩
    rw [hcut]
    apply List.mem_append_left
    exact List.mem_filter.mpr ⟨hs, by simpa using hsource⟩
  · intro hreserve symbol hunsettled
    obtain ⟨s, hs, rfl, hbest⟩ := exists_place hps (Or.inr hunsettled)
    have hmandatory := (mandatory_of_best hps hbest).mpr (Or.inr hunsettled)
    refine ⟨s, ?_, rfl, hmandatory⟩
    rw [hcut, cut, hreserve]
    rcases hmandatory with hsource | hsource
    · exact List.mem_append_left _ (List.mem_filter.mpr ⟨hs, by simpa using hsource⟩)
    · apply List.mem_append_right
      apply List.mem_append_left
      exact List.mem_filter.mpr ⟨hs, by simpa using hsource⟩
  · obtain ⟨ps', hps', rfl⟩ := compose_eq_ok h
    rw [hps] at hps'
    cases hps'
    intro s hs
    have hbest := best_of_mem_tableOf (mem_applyExclusions.mp (mem_of_mem_applyCap hs)).1
    exact ⟨held_of_best hps hbest, mandatory_of_best hps hbest⟩

theorem compose_mandatory_sample :
    (∀ symbol, Held sampleSources sampleContext symbol →
      ∃ s ∈ sampleUniverse, s.symbol = symbol ∧ s.sourceType = .heldPosition) ∧
    (sampleContext.reconciliationOverlayReserve = none → ∀ symbol,
      Unsettled sampleSources sampleContext symbol →
      ∃ s ∈ sampleUniverse, s.symbol = symbol ∧ Mandatory s) ∧
    ∀ s ∈ sampleUniverse,
      (s.sourceType = .heldPosition ↔ Held sampleSources sampleContext s.symbol) ∧
      (Mandatory s ↔ Held sampleSources sampleContext s.symbol ∨
        Unsettled sampleSources sampleContext s.symbol) :=
  compose_mandatory rfl compose_sample

end AgentTrading.Universe
