import Mathlib.Algebra.Order.Ring.Rat
import Mathlib.Data.Prod.Lex
import Mathlib.Data.String.Basic
import AgentTrading.Library.Quota
import AgentTrading.Library.Keyed
import AgentTrading.Universe.Symbols

/-! The composition of the trading universe: six sources propose symbols, the liquidity filter
and the priority order go over what they leave, and the daily cap cuts it. -/
namespace AgentTrading.Universe
open Domain Kis Library.Keyed Library.Quota

structure CompositionContext where
  accountId : UUID
  since : Time
  maxCap : Option Nat := some 30
  coreCap : Option Nat := none
  eventOverlayCap : Option Nat := none
  excludeHeldFromCap : Bool := true
  marketOverlayCap : Nat := 5
  reconciliationOverlayReserve : Option Nat := none
  prePoolSize : Nat := 50
  manualSymbols : List (String × String) := []
  signalScoreRanking : Bool := false
  coreSignalFreshnessMaxAgeDays : Option Int := none

structure PositionSnapshotEntity where
  instrumentId : UUID
  quantity : ℚ

structure ExternalEventEntity where
  eventType : String
  publishedAt : Time
  symbol : Option String
  market : Option String := none
  severity : String := "medium"
  headline : Option String := none
  metadata : Dict := []

structure SignalFeatureSnapshot where
  instrumentId : UUID
  overallScore : Option ℚ
  snapshotAt : Option Time

structure CoreEligibilitySample where
  symbol : String
  createdAt : Time
  lastEligibilityReason : Option String

/-- The market data client: which environment it is for, its ranking of symbols when it has
one, and the quotes of a batch that it could fetch. -/
structure KisRestClient where
  env : String
  marketOverlaySeedSymbols : Option (Nat → List String)
  quotesBatch : List String → String → Option Dict

/-- What a composition reads. The score and the reason of a quote are floating-point
functions of it. -/
structure Sources extends InstrumentSources where
  activeByMarket : String → List InstrumentEntity
  bySymbolsAnyMarket : List String → String → Option InstrumentEntity
  membershipsByInstruments : List UUID → UUID → Option (List String)
  membershipsByInstrument : UUID → List String
  approvedCoreSymbols : List String
  approvedDiscoverySymbols : List String
  latestPositions : UUID → List PositionSnapshotEntity
  listOrders : UUID → List OrderStatus → Nat → List OrderRequestEntity
  order : UUID → Option OrderRequestEntity
  pendingRuns : Nat → UUID → List UUID
  runOrderLinks : UUID → List (UUID × Option String)
  locks : UUID → List (Option String)
  eventsByType : String → Time → List ExternalEventEntity
  latestSignals : List UUID → List SignalFeatureSnapshot
  coreEligibilityReasons : UUID → List String → Int → Int →
    Except PyError (List CoreEligibilitySample)
  kisClient : Option KisRestClient
  calcMarketScore : MarketDataSnapshot → ℚ
  categorizeMarketReason : MarketDataSnapshot → String
  now : Time

/-- The table of the symbols in the order in which they came up. -/
abbrev Seen := List SelectedSymbol

namespace Seen

def get? (seen : Seen) (symbol : String) : Option SelectedSymbol := seen.find? (·.symbol = symbol)

/-- `seen[symbol] = entry`. -/
def set (seen : Seen) (entry : SelectedSymbol) : Seen := upsert SelectedSymbol.symbol entry seen

end Seen

def reasonCore : String := "approved_core_universe"
def reasonHeld : String := "held_position_mandatory"
def reasonEvent : String := "high_importance_event"
def reasonReconciliation : String := "reconciliation_required"
def reasonManual : String := "manual_watchlist"

/-- The reason ends with the status that says least about the order. -/
def endsReconcileRequired (reason : String) : Bool :=
  (":" ++ OrderStatus.reconcileRequired.value).toList.isSuffixOf reason.toList

def upsertWithPriority (seen : Seen) (incoming : SelectedSymbol) : Seen :=
  match seen.get? incoming.symbol with
  | none => seen.set incoming
  | some existing =>
    if incoming.priority < existing.priority then seen.set incoming
    else if existing.sourceType = .reconciliationOverlay &&
        incoming.sourceType = .reconciliationOverlay &&
        endsReconcileRequired existing.inclusionReason &&
        incoming.inclusionReason ≠
          reasonReconciliation ++ ":" ++ OrderStatus.reconcileRequired.value then
      seen.set incoming
    else seen

section Steps

variable (sources : Sources) (ctx : CompositionContext)

def listActiveKrEquityInstruments : List InstrumentEntity :=
  ["KRX", "KOSPI", "KOSDAQ"].foldl (fun items marketCode =>
    (sources.activeByMarket marketCode).foldl (fun items instrument =>
      if instrument.symbol = "" ∨ instrument.symbol ∈ items.map (·.symbol) then items
      else if marketCode = "KRX" ∧
        instrumentMarketSegment instrument ∉ [some "KOSPI", some "KOSDAQ"]
      then items
      else items ++ [instrument]) items) []

/-- `_index_membership_values`, after the cache was primed with the active instruments. -/
def indexMembershipValues (instrument : InstrumentEntity) : List String :=
  let primed := (listActiveKrEquityInstruments sources).map (·.instrumentId)
  match sources.membershipsByInstruments primed instrument.instrumentId with
  | some cached =>
    if membershipCodes cached ≠ [] then membershipCodes cached
    else metadataIndexMembershipValues instrument
  | none =>
    let memberships := sources.membershipsByInstrument instrument.instrumentId
    if memberships ≠ [] then membershipCodes memberships
    else metadataIndexMembershipValues instrument

def coreIndexMembershipCodes : List String :=
  ["KOSPI100", "KOSPI_100", "KOSPI200", "KOSPI_200", "KOSPI_LARGE"]

def discoveryIndexMembershipCodes : List String :=
  ["KOSDAQ50", "KOSDAQ_50", "KOSDAQ150", "KOSDAQ_150", "KOSDAQ_GROWTH"]

def discoverySegmentCodes : List String :=
  ["KOSPI100", "KOSPI_100", "KOSPI200", "KOSPI_200", "KOSDAQ50", "KOSDAQ_50", "KOSDAQ150",
    "KOSDAQ_150", "KOSPI_LARGE", "KOSDAQ_GROWTH"]

def isCoreSeedInstrument (instrument : InstrumentEntity) : Bool :=
  match metadataFlag instrument.metadata "core_universe" with
  | some flagged => flagged
  | none =>
    (instrumentMarketSegment instrument = some "KOSPI" &&
      (indexMembershipValues sources instrument).any (· ∈ coreIndexMembershipCodes)) ||
    stripped instrument.symbol ∈ sources.approvedCoreSymbols

def isMarketDiscoverySeedInstrument (instrument : InstrumentEntity) : Bool :=
  isCoreSeedInstrument sources instrument ||
  stripped instrument.symbol ∈ sources.approvedDiscoverySymbols ||
  metadataFlag instrument.metadata "market_discovery_pool" = some true ||
  (segmentValue instrument.metadata).any (· ∈ discoverySegmentCodes) ||
  ((indexMembershipValues sources instrument).any (· ∈ discoveryIndexMembershipCodes) &&
    instrumentMarketSegment instrument = some "KOSDAQ")

def buildSelectedSymbol (symbol market : String) (sourceType : SourceType)
    (inclusionReason : String) (instrument : Option InstrumentEntity)
    (eventDetail : Option EventInclusionDetail) : SelectedSymbol :=
  let resolved := instrument.or (sources.bySymbolAnyMarket symbol)
  let memberships := (resolved.map (indexMembershipValues sources)).getD []
  { symbol, market, sourceType, inclusionReason, eventDetail
    marketSegment := resolved.bind instrumentMarketSegment
    indexMemberships := normalizeIndexMemberships memberships
    primaryIndexMembership := derivePrimaryIndexMembership memberships }

def coreInstruments : List InstrumentEntity :=
  (listActiveKrEquityInstruments sources).filter (isCoreSeedInstrument sources)

def coreProposals : List SelectedSymbol :=
  (coreInstruments sources).map fun inst =>
    buildSelectedSymbol sources inst.symbol inst.marketCode .core reasonCore (some inst) none

def addCoreUniverse (seen : Seen) : Seen :=
  (coreProposals sources).foldl (fun seen entry =>
    if (seen.get? entry.symbol).isSome then seen else seen.set entry) seen

def heldProposal (instrument : InstrumentEntity) : SelectedSymbol :=
  buildSelectedSymbol sources instrument.symbol instrument.marketCode .heldPosition reasonHeld
    (some instrument) none

def heldProposals : List SelectedSymbol :=
  (sources.latestPositions ctx.accountId).filterMap fun pos =>
    if 0 < pos.quantity then (sources.instrument pos.instrumentId).map (heldProposal sources)
    else none

def addHeldPositions (seen : Seen) : Seen :=
  (heldProposals sources ctx).foldl upsertWithPriority seen

def activeOrderStatuses : List OrderStatus :=
  [.submitted, .acknowledged, .partiallyFilled, .cancelPending, .reconcileRequired]

/-- The day of an instant in Seoul, counted from the epoch. -/
def kstDate (t : Time) : Int := (t + 540 * microsPerMinute) / (1440 * microsPerMinute)

/-- `_build_latest_position_qty_map`, read at an instrument: the last snapshot counts. -/
def currentPositionQty (instrumentId : UUID) : ℚ :=
  (((sources.latestPositions ctx.accountId).reverse.find? (·.instrumentId = instrumentId)).map
    (·.quantity)).getD 0

def shouldSkipReconciliationOverlayOrder (order : OrderRequestEntity) (qty : ℚ) : Bool :=
  order.side = .sell && order.status = .partiallyFilled && order.timeInForce = .day &&
    match order.submittedAt.or order.createdAt with
    | none => false
    | some t => kstDate t < kstDate sources.now && qty ≤ 0

def reconciliationProposal (instrument : InstrumentEntity) (cause : String) : SelectedSymbol :=
  buildSelectedSymbol sources instrument.symbol instrument.marketCode .reconciliationOverlay
    (reasonReconciliation ++ ":" ++ cause) (some instrument) none

def openOrderProposals : List SelectedSymbol :=
  (sources.listOrders ctx.accountId activeOrderStatuses 500).filterMap fun order =>
    if shouldSkipReconciliationOverlayOrder sources order
        (currentPositionQty sources ctx order.instrumentId) then none
    else (sources.instrument order.instrumentId).map fun inst =>
      reconciliationProposal sources inst order.status.value

def pendingRunProposals : List SelectedSymbol :=
  (sources.pendingRuns 50 ctx.accountId).flatMap fun run =>
    (sources.runOrderLinks run).filterMap fun (orderRequestId, mismatchType) => do
      let order ← sources.order orderRequestId
      let inst ← sources.instrument order.instrumentId
      some (reconciliationProposal sources inst (orText mismatchType "pending_run"))

def lockProposals : List SelectedSymbol :=
  (sources.locks ctx.accountId).filterMap fun lock =>
    if stripped (lock.getD "") = "" then none
    else some (buildSelectedSymbol sources (stripped (lock.getD "")) "KRX" .reconciliationOverlay
      (reasonReconciliation ++ ":blocking_lock") none none)

def reconciliationProposals : List SelectedSymbol :=
  openOrderProposals sources ctx ++ pendingRunProposals sources ctx ++ lockProposals sources ctx

def addReconciliationOverlay (seen : Seen) : Seen :=
  (reconciliationProposals sources ctx).foldl upsertWithPriority seen

def eventSeverityOrder (level : String) : Int :=
  match lower (stripped level) with
  | "low" => 0
  | "medium" => 1
  | "high" => 2
  | "critical" => 3
  | _ => -1

def normalizeEventType (eventType : String) : String :=
  match lower (stripped eventType) with
  | "disclosure" | "y|disclosure" | "k|disclosure" | "n|disclosure" => "disclosure_material"
  | "seeded_news" | "y|seeded_news" | "n|seeded_news" => "news_breaking"
  | "" => "unknown"
  | lowered => lowered

/-- The level that an event type needs. -/
def eventOverlayPolicy (eventType : String) : Option Int :=
  if eventType ∈ ["trading_halt", "investment_warning", "management_issue"] then some 1
  else if eventType ∈ ["earnings", "disclosure_material", "disclosure_correction",
    "capital_change", "governance", "macro_release", "sector_policy", "broker_report_change",
    "news_breaking"] then some 2
  else none

def eventImportanceLevel (metadata : Dict) : String :=
  match metadata.lookup "importance" with
  | none | some .null => ""
  | some raw => lower (stripped raw.text)

def meetsEventOverlayThreshold (eventType severity importance : String) : Bool :=
  match eventOverlayPolicy eventType with
  | none => false
  | some required => required ≤ max (eventSeverityOrder severity) (eventSeverityOrder importance)

def eventFetchTypes : List String :=
  ["disclosure", "Y|disclosure", "K|disclosure", "N|disclosure", "seeded_news", "Y|seeded_news",
    "N|seeded_news", "earnings", "disclosure_material", "disclosure_correction", "trading_halt",
    "investment_warning", "management_issue", "capital_change", "governance", "macro_release",
    "sector_policy", "broker_report_change", "news_breaking"]

def fetchedEvents : List ExternalEventEntity :=
  (eventFetchTypes.flatMap fun eventType => sources.eventsByType eventType ctx.since).insertionSort
    fun a b => b.publishedAt ≤ a.publishedAt

def eventProposals : List SelectedSymbol :=
  (fetchedEvents sources ctx).filterMap fun event => do
    let symbol ← event.symbol
    let eventType := normalizeEventType event.eventType
    if meetsEventOverlayThreshold eventType event.severity
      (eventImportanceLevel event.metadata) then
      some (buildSelectedSymbol sources symbol (orText event.market "KRX") .eventOverlay
        (reasonEvent ++ ":" ++ eventType) none
        (some ⟨event.headline, event.severity, event.publishedAt, eventType⟩))
    else none

def addEventOverlay (seen : Seen) : Seen :=
  (eventProposals sources ctx).foldl upsertWithPriority seen

def manualProposals : List SelectedSymbol :=
  ctx.manualSymbols.filterMap fun (symbol, market) =>
    let normalizedMarket := normalizedCode (if market = "" then "KRX" else market)
    if stripped symbol = "" then none
    else some (buildSelectedSymbol sources (stripped symbol)
      (if normalizedMarket = "" then "KRX" else normalizedMarket) .manual reasonManual none none)

def addManualOverlay (seen : Seen) : Seen :=
  (manualProposals sources ctx).foldl upsertWithPriority seen

/-- The symbols of the pool with the market of each: those the client ranks, or the discovery
seeds when it ranks none. -/
def seedPool (client : KisRestClient) : List (String × String) :=
  let ranked := match client.marketOverlaySeedSymbols with
    | some seeds => seeds (max ctx.prePoolSize 30)
    | none => []
  let marketOf (instrument : Option InstrumentEntity) : String :=
    match instrument.filter fun i => isSupportedKrEquityMarket i.marketCode with
    | some i => normalizeMarketCode i.marketCode
    | none => "KRX"
  if ranked ≠ [] then
    ranked.map fun symbol => (symbol, marketOf (sources.bySymbolsAnyMarket ranked symbol))
  else
    ((listActiveKrEquityInstruments sources).filter (isMarketDiscoverySeedInstrument sources)).map
      fun inst => (inst.symbol, marketOf (some inst))

/-- The candidates whose quotes are fetched: not taken by another overlay already, past the
filter, and at least one of them before the size of the pool is looked at. -/
def prePoolCandidates (client : KisRestClient) (seen : Seen) : List (String × String) :=
  ((seedPool sources ctx client).filter fun (symbol, market) =>
    (seen.get? symbol).all (·.sourceType = .core) &&
      (LiquidityFilter.check sources.toInstrumentSources symbol market).isNone).take
    (max ctx.prePoolSize 1)

/-- The quoted candidates that pass the filters on quotes, in their order. -/
def quotedCandidates (quotes : String → Option Dict) :
    List (String × String) → Except PyError (List MarketDataSnapshot)
  | [] => .ok []
  | (symbol, market) :: rest =>
    match quotes symbol with
    | none => quotedCandidates quotes rest
    | some raw => do
      let snapshot ← parseQuoteToSnapshot symbol market raw
      let failed ← LiquidityFilter.checkMarketSnapshot sources.toInstrumentSources snapshot
      let kept ← quotedCandidates quotes rest
      return if failed.isNone then snapshot :: kept else kept

def marketProposals (seen : Seen) : Except PyError (List SelectedSymbol) :=
  match sources.kisClient with
  | none => .ok []
  | some client =>
    if client.env = "paper" then .ok []
    else do
      let pool := prePoolCandidates sources ctx client seen
      let scored ← quotedCandidates sources (client.quotesBatch (pool.map (·.1))) pool
      let ranked := scored.insertionSort fun a b =>
        sources.calcMarketScore b ≤ sources.calcMarketScore a
      return (ranked.take ctx.marketOverlayCap).map fun snapshot =>
        buildSelectedSymbol sources snapshot.symbol snapshot.market .marketOverlay
          (sources.categorizeMarketReason snapshot) none none

def addMarketOverlay (seen : Seen) : Except PyError Seen := do
  let proposals ← marketProposals sources ctx seen
  return proposals.foldl upsertWithPriority seen

/-- The latest score of each core symbol with its time; a later snapshot of the list counts. -/
def coreSignalScore (symbol : String) : Option (ℚ × Option Time) :=
  let core := coreInstruments sources
  let scores :=
    (sources.latestSignals (core.map (·.instrumentId)).eraseDups).filterMap fun snapshot => do
    let inst ← core.reverse.find? (·.instrumentId = snapshot.instrumentId)
    let overall ← snapshot.overallScore
    some (inst.symbol, overall, snapshot.snapshotAt)
  scores.reverse.lookup symbol

/-- The day on which the symbol came up, and whether it was blocked on it. -/
def blockedOn (samples : List CoreEligibilitySample) (symbol : String) (day : Int) : Option Bool :=
  let ofDay := samples.filter fun s => s.symbol = symbol && kstDate s.createdAt = day
  if ofDay = [] then none
  else some (ofDay.any (·.lastEligibilityReason = some "eligibility_low_relative_activity"))

/-- `_consecutive_blocked_streak_shadow`, over the days up to the evaluation, newest first. -/
def consecutiveBlockedStreak (samples : List CoreEligibilitySample) (symbol : String)
    (days : List Int) : Nat :=
  (days.takeWhile fun day => blockedOn samples symbol day = some true).length

/-- The symbols that `_evaluate_core_activity_demotion_shadow` demotes; without the history
there are none. -/
def demotedSymbols (seen : Seen) : List String :=
  let coreSymbols := (seen.filter (·.sourceType = .core)).map (·.symbol)
  let today := kstDate sources.now
  match sources.coreEligibilityReasons ctx.accountId coreSymbols (today - 15) today with
  | .error _ => []
  | .ok samples =>
    let calendar :=
      ((samples.map fun s => kstDate s.createdAt).dedup.filter (· ≤ today)).insertionSort
      (· ≥ ·)
    coreSymbols.filter fun symbol =>
      (blockedOn samples symbol today).isSome && 3 ≤
        consecutiveBlockedStreak samples symbol calendar

def coreSignalTier (snapshotAt : Option Time) : Nat :=
  match ctx.coreSignalFreshnessMaxAgeDays, snapshotAt with
  | some maxAgeDays, some t => if kstDate sources.now - kstDate t ≤ maxAgeDays then 0 else 1
  | _, _ => 0

/-- The sort key of a core symbol: its tier, its score from the top, the symbol. -/
def coreSignalKey (demoted : List String) (symbol : String) : ℕ ×ₗ ℚ ×ₗ String :=
  match coreSignalScore sources symbol with
  | none => toLex (if symbol ∈ demoted then 3 else 2, toLex (0, symbol))
  | some (score, snapshotAt) =>
    toLex (if symbol ∈ demoted then 3 else coreSignalTier sources ctx snapshotAt,
      toLex (-score, symbol))

def coreSignalSortRank (candidates : List SelectedSymbol) (demoted : List String)
    (symbol : String) : Nat :=
  let coreSymbols := (candidates.filter (·.sourceType = .core)).map (·.symbol)
  (coreSymbols.insertionSort fun a b =>
    coreSignalKey sources ctx demoted a ≤ coreSignalKey sources ctx demoted b).idxOf symbol

def applyExclusions (seen : Seen) : List SelectedSymbol :=
  seen.filter fun s =>
    s.sourceType = .heldPosition || s.sourceType = .reconciliationOverlay ||
      (LiquidityFilter.check sources.toInstrumentSources s.symbol s.market).isNone

/-- The sort key of step 8 in the ranking mode: the priority, and for core symbols the rank. -/
def sortKey (candidates : List SelectedSymbol) (demoted : List String) (s : SelectedSymbol) :
    ℕ ×ₗ ℕ :=
  toLex (s.priority,
    if s.sourceType = .core then coreSignalSortRank sources ctx candidates demoted s.symbol else 0)

/-- Step 8: by priority, and in the ranking mode the core symbols among themselves by rank. -/
def prioritySort (candidates : List SelectedSymbol) (demoted : List String) : List SelectedSymbol :=
  if ctx.signalScoreRanking then
    candidates.insertionSort fun a b =>
      sortKey sources ctx candidates demoted a ≤ sortKey sources ctx candidates demoted b
  else candidates.insertionSort fun a b => a.priority ≤ b.priority

end Steps

/-- The counters of `_apply_cap`. -/
structure CapCounters where
  nonHeld : Nat := 0
  core : Nat := 0
  event : Nat := 0
  reconciliationExempt : Nat := 0

/-- `limit` is reached by `count`. -/
def reached (limit : Option Nat) (count : Nat) : Bool := limit.any (· ≤ count)

/-- The loop of `_apply_cap`. -/
def applyCapLoop (ctx : CompositionContext) :
    CapCounters → List SelectedSymbol → List SelectedSymbol
  | _, [] => []
  | n, s :: rest =>
    if s.sourceType = .heldPosition then s :: applyCapLoop ctx n rest
    else if s.sourceType = .reconciliationOverlay &&
        !reached ctx.reconciliationOverlayReserve n.reconciliationExempt then
      s :: applyCapLoop ctx { n with reconciliationExempt := n.reconciliationExempt + 1 } rest
    else if reached ctx.maxCap n.nonHeld then []
    else if s.sourceType = .core && reached ctx.coreCap n.core then applyCapLoop ctx n rest
    else if s.sourceType = .eventOverlay && reached ctx.eventOverlayCap n.event then
      applyCapLoop ctx n rest
    else
      s :: applyCapLoop ctx
        { n with
          nonHeld := n.nonHeld + 1
          core := if s.sourceType = .core then n.core + 1 else n.core
          event := if s.sourceType = .eventOverlay then n.event + 1 else n.event } rest

def applyCap (ctx : CompositionContext) (candidates : List SelectedSymbol) : List SelectedSymbol :=
  if ctx.excludeHeldFromCap then applyCapLoop ctx {} candidates
  else takeUpTo ctx.maxCap candidates

/-- The table when the six sources are through. -/
def collect (sources : Sources) (ctx : CompositionContext) : Except PyError Seen := do
  let seen := addCoreUniverse sources []
  let seen := addHeldPositions sources ctx seen
  let seen := addReconciliationOverlay sources ctx seen
  let seen := addEventOverlay sources ctx seen
  let seen := addManualOverlay sources ctx seen
  addMarketOverlay sources ctx seen

def compose (sources : Sources) (ctx : CompositionContext) :
    Except PyError (List SelectedSymbol) := do
  let seen ← collect sources ctx
  let demoted := demotedSymbols sources ctx seen
  let candidates := applyExclusions sources seen
  return applyCap ctx (prioritySort sources ctx candidates demoted)

end AgentTrading.Universe
