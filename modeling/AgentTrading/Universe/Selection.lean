import AgentTrading.Library.Contest
import AgentTrading.Universe.Composition

/-! What a composition makes of the proposals of its sources: each symbol once, under its best
proposal, in the order of priority, and none that the filter excludes unless a position or an
unsettled order demands it. -/
namespace AgentTrading.Universe
open Domain Kis Library.Keyed Library.Quota Library.Contest

/-- `incoming` takes the place of `existing`. -/
def beats (incoming existing : SelectedSymbol) : Bool :=
  incoming.priority < existing.priority ||
    (existing.sourceType = .reconciliationOverlay && incoming.sourceType = .reconciliationOverlay &&
      endsReconcileRequired existing.inclusionReason &&
      incoming.inclusionReason ≠
        reasonReconciliation ++ ":" ++ OrderStatus.reconcileRequired.value)

/-- A reconciliation that names no cause beyond the state of the order. -/
def vague (s : SelectedSymbol) : Bool :=
  s.sourceType = .reconciliationOverlay && endsReconcileRequired s.inclusionReason

/-- Where a proposal stands among those for its symbol: by its source, a vague one last. -/
def standing (s : SelectedSymbol) : ℕ ×ₗ ℕ := toLex (s.priority, if vague s then 1 else 0)

theorem upsertWithPriority_eq : upsertWithPriority = enter beats SelectedSymbol.symbol := by
  funext seen incoming
  unfold upsertWithPriority enter Seen.get? Seen.set beats
  split
  next hnone => simp [hnone]
  next existing hsome =>
    simp only [hsome]
    by_cases hlt : incoming.priority < existing.priority
    · simp [hlt]
    · simp [hlt]

theorem priority_eq_one {s : SelectedSymbol} :
    s.priority = 1 ↔ s.sourceType = .reconciliationOverlay := by
  unfold SelectedSymbol.priority
  constructor
  · intro h
    exact SourceType.priority_injective h
  · intro h
    rw [h]
    rfl

theorem exact_endsReconcileRequired :
    endsReconcileRequired (reasonReconciliation ++ ":" ++ OrderStatus.reconcileRequired.value)
      = true := by decide

theorem beats_ranked : Ranked beats standing where
  wins := by
    intro x a h
    rw [standing, standing, Prod.Lex.toLex_lt_toLex] at h
    unfold beats
    change x.priority < a.priority ∨ x.priority = a.priority ∧
      (if vague x then 1 else 0) < (if vague a then 1 else 0) at h
    rcases h with hlt | ⟨heq, hvague⟩
    · simp [hlt]
    · -- the one is a reconciliation with a cause, the other a vague one
      have ha : vague a = true := by
        by_contra hne
        simp [hne] at hvague
      have hx : vague x = false := by
        by_contra hne
        simp [hne, ha] at hvague
      simp only [vague, Bool.and_eq_true, decide_eq_true_eq] at ha
      have hxs : x.sourceType = .reconciliationOverlay := by
        rw [← priority_eq_one, heq, priority_eq_one]
        exact ha.1
      have hne : x.inclusionReason ≠
          reasonReconciliation ++ ":" ++ OrderStatus.reconcileRequired.value := by
        intro hexact
        simp [vague, hxs, hexact, exact_endsReconcileRequired] at hx
      simp [ha, hxs, hne]
  keeps := by
    intro x a h
    unfold beats at h
    rw [standing, standing, Prod.Lex.toLex_le_toLex]
    simp only [Bool.or_eq_true, Bool.and_eq_true, decide_eq_true_eq] at h
    rcases h with hlt | ⟨⟨⟨ha, hx⟩, hends⟩, -⟩
    · exact Or.inl hlt
    · right
      have hvague : vague a = true := by simp [vague, ha, hends]
      constructor
      · rw [priority_eq_one.mpr ha, priority_eq_one.mpr hx]
      · rw [hvague]
        split <;> simp

theorem beats_eq_false {x a : SelectedSymbol} (ha : vague a = false)
    (h : standing x = standing a) : beats x a = false := by
  have hpriority : x.priority = a.priority := congrArg (fun p => (ofLex p).1) h
  unfold vague at ha
  unfold beats
  simp only [hpriority, lt_irrefl, decide_false, Bool.false_or]
  grind

/-- The table that competing proposals leave. -/
def tableOf (proposals : List SelectedSymbol) : Seen := proposals.foldl upsertWithPriority []

theorem tableOf_append (ps qs : List SelectedSymbol) :
    tableOf (ps ++ qs) = qs.foldl upsertWithPriority (tableOf ps) := List.foldl_append

theorem nodup_tableOf (ps : List SelectedSymbol) : ((tableOf ps).map (·.symbol)).Nodup := by
  unfold tableOf
  rw [upsertWithPriority_eq]
  have hempty : (([] : Seen).map (·.symbol)).Nodup := List.nodup_nil
  exact nodup_foldl_enter beats SelectedSymbol.symbol hempty ps

theorem get?_tableOf (ps : List SelectedSymbol) (symbol : String) :
    (tableOf ps).get? symbol =
      (ps.filter (·.symbol = symbol)).foldl (duel beats) none := by
  unfold tableOf Seen.get?
  rw [upsertWithPriority_eq, find?_foldl_enter]
  rfl

theorem mem_tableOf {ps : List SelectedSymbol} {s : SelectedSymbol} :
    s ∈ tableOf ps ↔ (ps.filter (·.symbol = s.symbol)).foldl (duel beats) none = some s := by
  rw [← get?_tableOf, Seen.get?, find?_key (nodup_tableOf ps)]
  simp

/-- What a place in the table says about the proposals for its symbol. -/
structure Best (ps : List SelectedSymbol) (s : SelectedSymbol) : Prop where
  proposed : s ∈ ps
  best : ∀ p ∈ ps, p.symbol = s.symbol → standing s ≤ standing p
  first : vague s = false → (ps.filter (·.symbol = s.symbol)).find?
    (standing · = standing s) = some s

theorem best_of_mem_tableOf {ps : List SelectedSymbol} {s : SelectedSymbol} (h : s ∈ tableOf ps) :
    Best ps s := by
  rw [mem_tableOf] at h
  cases hps : ps.filter (·.symbol = s.symbol) with
  | nil =>
    rw [hps] at h
    cases h
  | cons a rest =>
    rw [hps] at h
    have hrun : rest.foldl (duel beats) (some a) = some s := h
    constructor
    · have hmem := foldl_duel_mem hrun
      rw [← hps] at hmem
      exact List.mem_of_mem_filter hmem
    · intro p hp hsymbol
      apply beats_ranked.foldl_duel_le hrun
      rw [← hps]
      exact List.mem_filter.mpr ⟨hp, by simpa using hsymbol⟩
    · intro hfirm
      rw [hps]
      apply beats_ranked.foldl_duel_first hrun
      intro x b hb hx
      apply beats_eq_false _ hx
      -- a vague entry has another standing
      cases hvague : vague b with
      | false => rfl
      | true =>
        have := congrArg (fun p => (ofLex p).2) hb
        simp [standing, hvague, hfirm] at this

theorem exists_of_proposed {ps : List SelectedSymbol} {p : SelectedSymbol} (h : p ∈ ps) :
    ∃ s ∈ tableOf ps, s.symbol = p.symbol ∧ standing s ≤ standing p := by
  have hmem : p ∈ ps.filter (·.symbol = p.symbol) := List.mem_filter.mpr ⟨h, by simp⟩
  cases hps : ps.filter (·.symbol = p.symbol) with
  | nil =>
    rw [hps] at hmem
    cases hmem
  | cons a rest =>
    have hrun : ∃ s, rest.foldl (duel beats) (some a) = some s := foldl_duel_some a rest
    obtain ⟨s, hs⟩ := hrun
    have hget : (tableOf ps).get? p.symbol = some s := by
      rw [get?_tableOf, hps]
      exact hs
    rw [Seen.get?, find?_key (nodup_tableOf ps)] at hget
    refine ⟨s, hget.1, hget.2, beats_ranked.foldl_duel_le hs p ?_⟩
    rw [← hps]
    exact hmem

section Collect

variable (sources : Sources) (ctx : CompositionContext)

/-- The proposals of the sources before the market overlay, which looks at their table. -/
def earlierProposals : List SelectedSymbol :=
  coreProposals sources ++ heldProposals sources ctx ++ reconciliationProposals sources ctx ++
    eventProposals sources ctx ++ manualProposals sources ctx

/-- Everything that is proposed, in the order of the steps. -/
def proposals : Except PyError (List SelectedSymbol) := do
  let market ← marketProposals sources ctx (tableOf (earlierProposals sources ctx))
  return earlierProposals sources ctx ++ market

/-- A core entry never replaces another one, so leaving taken symbols alone is the same rule. -/
theorem addCoreUniverse_eq (seen : Seen) :
    addCoreUniverse sources seen = (coreProposals sources).foldl upsertWithPriority seen := by
  unfold addCoreUniverse
  have hcore : ∀ p ∈ coreProposals sources, p.sourceType = .core := by
    intro p hp
    obtain ⟨inst, -, rfl⟩ := List.mem_map.mp hp
    rfl
  generalize coreProposals sources = ps at hcore
  induction ps generalizing seen with
  | nil => rfl
  | cons p ps ih =>
    rw [List.forall_mem_cons] at hcore
    rw [List.foldl_cons, List.foldl_cons, ih _ hcore.2]
    congr 1
    unfold upsertWithPriority
    cases hheld : seen.get? p.symbol with
    | none => rfl
    | some existing =>
      have hlast : ¬ p.priority < existing.priority := by
        unfold SelectedSymbol.priority
        rw [hcore.1]
        cases existing.sourceType <;> decide
      simp [hlast, hcore.1]

/-- The table that the market overlay finds. -/
def seenBeforeMarket : Seen :=
  addManualOverlay sources ctx (addEventOverlay sources ctx (addReconciliationOverlay sources ctx
    (addHeldPositions sources ctx (addCoreUniverse sources []))))

theorem seenBeforeMarket_eq :
    seenBeforeMarket sources ctx = tableOf (earlierProposals sources ctx) := by
  simp only [earlierProposals, tableOf_append, seenBeforeMarket, addCoreUniverse_eq]
  rfl

theorem collect_eq : collect sources ctx = (proposals sources ctx).map tableOf := by
  have hcollect :
      collect sources ctx = addMarketOverlay sources ctx (seenBeforeMarket sources ctx) :=
    rfl
  rw [hcollect, seenBeforeMarket_eq]
  unfold proposals addMarketOverlay
  cases marketProposals sources ctx (tableOf (earlierProposals sources ctx)) with
  | error e => rfl
  | ok market =>
    exact congrArg Except.ok (tableOf_append (earlierProposals sources ctx) market).symm

end Collect

section Order

variable {sources : Sources} {ctx : CompositionContext}

theorem prioritySort_perm (candidates : List SelectedSymbol) (demoted : List String) :
    (prioritySort sources ctx candidates demoted).Perm candidates := by
  unfold prioritySort
  split
  · exact List.perm_insertionSort _ _
  · exact List.perm_insertionSort _ _

theorem prioritySort_sorted (candidates : List SelectedSymbol) (demoted : List String) :
    (prioritySort sources ctx candidates demoted).Pairwise fun a b => a.priority ≤ b.priority := by
  unfold prioritySort
  split
  · apply List.Pairwise.imp _ (List.pairwise_insertionSort _ _)
    intro a b hab
    rw [sortKey, sortKey, Prod.Lex.toLex_le_toLex] at hab
    rcases hab with hlt | ⟨heq, -⟩
    · exact hlt.le
    · exact heq.le
  · have : Std.Total fun a b : SelectedSymbol => a.priority ≤ b.priority :=
      ⟨fun a b => le_total a.priority b.priority⟩
    have : IsTrans SelectedSymbol fun a b => a.priority ≤ b.priority := ⟨fun _ _ _ => le_trans⟩
    exact List.pairwise_insertionSort _ _

theorem applyCapLoop_sublist (n : CapCounters) (l : List SelectedSymbol) :
    (applyCapLoop ctx n l).Sublist l := by
  induction l generalizing n with
  | nil => exact List.Sublist.slnil
  | cons s l ih =>
    unfold applyCapLoop
    split
    · exact (ih _).cons_cons s
    split
    · exact (ih _).cons_cons s
    split
    · exact List.nil_sublist _
    split
    · exact (ih _).cons s
    split
    · exact (ih _).cons s
    · exact (ih _).cons_cons s

theorem applyCap_sublist (l : List SelectedSymbol) : (applyCap ctx l).Sublist l := by
  unfold applyCap
  split
  · exact applyCapLoop_sublist _ l
  · exact takeUpTo_sublist _ l

end Order

section Compose

variable {sources : Sources} {ctx : CompositionContext} {result : List SelectedSymbol}

theorem compose_eq_ok (h : compose sources ctx = .ok result) :
    ∃ ps, proposals sources ctx = .ok ps ∧
      result = applyCap ctx (prioritySort sources ctx (applyExclusions sources (tableOf ps))
        (demotedSymbols sources ctx (tableOf ps))) := by
  unfold compose at h
  rw [collect_eq] at h
  cases hps : proposals sources ctx with
  | error e =>
    rw [hps] at h
    cases h
  | ok ps =>
    rw [hps] at h
    exact ⟨ps, rfl, (Except.ok.inj h).symm⟩

/-- Exempt from the filter. -/
def Mandatory (s : SelectedSymbol) : Prop :=
  s.sourceType = .heldPosition ∨ s.sourceType = .reconciliationOverlay

theorem mem_applyExclusions {seen : Seen} {s : SelectedSymbol} :
    s ∈ applyExclusions sources seen ↔ s ∈ seen ∧
      (Mandatory s ∨ LiquidityFilter.check sources.toInstrumentSources s.symbol s.market =
        none) := by
  simp [applyExclusions, Mandatory, or_assoc]

theorem mem_of_mem_applyCap {ps : List SelectedSymbol} {s : SelectedSymbol}
    (hs : s ∈ applyCap ctx (prioritySort sources ctx (applyExclusions sources (tableOf ps))
      (demotedSymbols sources ctx (tableOf ps)))) : s ∈ applyExclusions sources (tableOf ps) :=
  (prioritySort_perm _ _).mem_iff.mp ((applyCap_sublist _).mem hs)

/-- A composition lists each symbol once and the higher priority first. Each entry is the best
proposal for its symbol, the first of its standing unless it is vague, and passes the filter
unless it is mandatory. -/
theorem compose_selects (h : compose sources ctx = .ok result) :
    ∃ ps, proposals sources ctx = .ok ps ∧ (result.map (·.symbol)).Nodup ∧
      result.Pairwise (fun a b => a.priority ≤ b.priority) ∧
      ∀ s ∈ result, Best ps s ∧
        (Mandatory s ∨ LiquidityFilter.check sources.toInstrumentSources s.symbol s.market =
          none) := by
  obtain ⟨ps, hps, rfl⟩ := compose_eq_ok h
  generalize hsort : prioritySort sources ctx (applyExclusions sources (tableOf ps))
    (demotedSymbols sources ctx (tableOf ps)) = l
  have hsublist : (applyCap ctx l).Sublist l := applyCap_sublist l
  have hsorted : l.Pairwise fun a b => a.priority ≤ b.priority := by
    rw [← hsort]
    exact prioritySort_sorted _ _
  have hperm : l.Perm (applyExclusions sources (tableOf ps)) := by
    rw [← hsort]
    exact prioritySort_perm _ _
  refine ⟨ps, hps, ?_, hsorted.sublist hsublist, ?_⟩
  · apply (hsublist.map _).nodup
    rw [(hperm.map _).nodup_iff]
    exact (List.filter_sublist.map _).nodup (nodup_tableOf ps)
  · intro s hs
    have hmem := mem_applyExclusions.mp (hperm.mem_iff.mp (hsublist.mem hs))
    exact ⟨best_of_mem_tableOf hmem.1, hmem.2⟩

end Compose

/-! An account that holds one instrument, has an order of another to reconcile, and finds two
more on the approved list, of which the filter excludes the preferred share. -/

def sampleInstrument (id : UUID) (symbol name : String) : InstrumentEntity :=
  { instrumentId := id, symbol, marketCode := "KOSPI", assetClass := "kr_stock", name }

def sampleInstruments : List InstrumentEntity :=
  [sampleInstrument 1 "005930" "삼성전자", sampleInstrument 2 "000660" "SK하이닉스",
    sampleInstrument 3 "035720" "카카오", sampleInstrument 4 "005935" "삼성전자우"]

def sampleOrder : OrderRequestEntity :=
  { orderRequestId := 7, accountId := 1, instrumentId := 3, clientOrderId := "c",
    idempotencyKey := "i", correlationId := "r", side := .buy, orderType := .limit,
    requestedQuantity := 1, status := .reconcileRequired }

def sampleSources : Sources where
  instrument id := sampleInstruments.find? (·.instrumentId = id)
  bySymbol symbol _ := sampleInstruments.find? (·.symbol = symbol)
  bySymbolAnyMarket symbol := sampleInstruments.find? (·.symbol = symbol)
  latestStatus _ := none
  activeByMarket market := if market = "KOSPI" then sampleInstruments else []
  bySymbolsAnyMarket _ symbol := sampleInstruments.find? (·.symbol = symbol)
  membershipsByInstruments _ _ := none
  membershipsByInstrument _ := []
  approvedCoreSymbols := ["005930", "000660", "005935"]
  approvedDiscoverySymbols := []
  latestPositions _ := [⟨2, 10⟩]
  listOrders _ _ _ := [sampleOrder]
  order _ := some sampleOrder
  pendingRuns _ _ := [9]
  runOrderLinks _ := [(7, some "quantity")]
  locks _ := []
  eventsByType _ _ := []
  latestSignals _ := []
  coreEligibilityReasons _ _ _ _ := .ok []
  kisClient := none
  calcMarketScore _ := 0
  categorizeMarketReason _ := "price_volume_breakout"
  now := 0

def sampleContext : CompositionContext := { accountId := 1, since := 0 }

def sampleUniverse : List SelectedSymbol :=
  [{ symbol := "000660", market := "KOSPI", sourceType := .heldPosition
     inclusionReason := reasonHeld },
   { symbol := "035720", market := "KOSPI", sourceType := .reconciliationOverlay
     inclusionReason := "reconciliation_required:quantity" },
   { symbol := "005930", market := "KOSPI", sourceType := .core, inclusionReason := reasonCore }]

theorem compose_sample : compose sampleSources sampleContext = .ok sampleUniverse := by
  decide +kernel

theorem compose_selects_sample :
    ∃ ps, proposals sampleSources sampleContext = .ok ps ∧
      (sampleUniverse.map (·.symbol)).Nodup ∧
      sampleUniverse.Pairwise (fun a b => a.priority ≤ b.priority) ∧
      ∀ s ∈ sampleUniverse, Best ps s ∧ (Mandatory s ∨
        LiquidityFilter.check sampleSources.toInstrumentSources s.symbol s.market = none) :=
  compose_selects compose_sample

end AgentTrading.Universe
