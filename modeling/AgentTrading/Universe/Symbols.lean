import Mathlib.Data.List.Sort
import AgentTrading.Kis.Numerals

/-! What the trading universe selects, and what it knows of an instrument: its segment, its
index memberships, the lists it may seed, and the deterministic filter in front of trading. -/
namespace AgentTrading.Universe
open Domain Kis

inductive SourceType where
  | core
  | marketOverlay
  | eventOverlay
  | reconciliationOverlay
  | heldPosition
  | manual
  deriving DecidableEq, Repr

/-- Lower value is higher priority. -/
def SourceType.priority : SourceType → Nat
  | heldPosition => 0
  | reconciliationOverlay => 1
  | eventOverlay => 2
  | marketOverlay => 3
  | manual => 4
  | core => 5

theorem SourceType.priority_injective {s t : SourceType} (h : s.priority = t.priority) : s = t := by
  cases s <;> cases t <;> first | rfl | cases h

structure EventInclusionDetail where
  headline : Option String
  severity : String
  publishedAt : Time
  eventType : String
  deriving DecidableEq

structure SelectedSymbol where
  symbol : String
  market : String
  sourceType : SourceType
  inclusionReason : String
  marketSegment : Option String := none
  indexMemberships : List String := []
  primaryIndexMembership : Option String := none
  eventDetail : Option EventInclusionDetail := none
  deriving DecidableEq

def SelectedSymbol.priority (s : SelectedSymbol) : Nat := s.sourceType.priority

structure InstrumentEntity where
  instrumentId : UUID
  symbol : String
  marketCode : String
  assetClass : String
  name : String
  tickSize : Option ℚ := none
  isActive : Bool := true
  marketSegment : Option String := none
  metadata : Dict := []

structure InstrumentStatusSnapshotEntity where
  trStopYn : Option String := none
  admnItemYn : Option String := none
  nxtTrStopYn : Option String := none
  tempStopYn : Option String := none
  iscdStatClsCode : Option String := none

def metadataFlag (metadata : Dict) (key : String) : Option Bool :=
  match metadata.lookup key with
  | some (.bool b) => some b
  | _ => none

/-- `str(s).strip()`. -/
def stripped (s : String) : String := String.ofList (strip s.toList)

/-- `str(s).strip().upper()`. -/
def normalizedCode (s : String) : String := upper (stripped s)

/-- `_normalize_market_code`, over `market or ""`. -/
def normalizeMarketCode (market : String) : String := normalizedCode market

def isSupportedKrEquityMarket (market : String) : Bool :=
  normalizeMarketCode market ∈ ["KRX", "KOSPI", "KOSDAQ"]

/-- The code that a value of the metadata spells, when there is one. -/
def codeOf (raw : Option Json) : Option String :=
  match raw with
  | none | some .null => none
  | some value => some (normalizedCode value.text) |>.filter (· ≠ "")

def segmentValue (metadata : Dict) : Option String :=
  ["market_segment", "segment", "universe_segment"].findSome? fun key =>
    codeOf (metadata.lookup key)

def instrumentMarketSegment (instrument : InstrumentEntity) : Option String :=
  match instrument.marketSegment.map normalizedCode |>.filter (· ≠ "") with
  | some segment => some segment
  | none => codeOf (instrument.metadata.lookup "market_segment")

/-- The codes of a list of texts, the blank ones left out. -/
def membershipCodes (values : List String) : List String :=
  (values.map normalizedCode).filter (· ≠ "")

def metadataIndexMembershipValues (instrument : InstrumentEntity) : List String :=
  match instrument.metadata.lookup "index_memberships" with
  | some (.str s) => membershipCodes [s]
  | some (.arr items) => membershipCodes (items.map Json.text)
  | _ => []

def indexMembershipPriority : List String :=
  ["KOSPI100", "KOSPI_100", "KOSDAQ50", "KOSDAQ_50", "KOSPI200", "KOSPI_200", "KOSDAQ150",
    "KOSDAQ_150", "KOSPI_LARGE", "KOSDAQ_GROWTH"]

/-- The place of a code in that order, then the code. -/
def membershipLe (a b : String) : Bool :=
  let rank (code : String) := indexMembershipPriority.idxOf code
  rank a < rank b || (rank a = rank b && decide (a ≤ b))

def normalizeIndexMemberships (values : List String) : List String :=
  (membershipCodes values).dedup.insertionSort fun a b => membershipLe a b

def derivePrimaryIndexMembership (values : List String) : Option String :=
  (normalizeIndexMemberships values).head?

/-- The reason a check failed, or `none`. -/
abbrev LiquidityFilterResult := Option String

def suspendedStatusCodes : List String := ["01", "02", "03", "04", "05"]

def checkIscdStatClsCode (statusCode : Option String) : LiquidityFilterResult :=
  match statusCode with
  | some code => if code ∈ suspendedStatusCodes then some ("suspended_status:" ++ code) else none
  | none => none

/-- A flag of the status snapshot is set. -/
def isYes (flag : Option String) : Bool := normalizedCode (flag.getD "") = "Y"

def checkStatusSnapshot (snapshot : Option InstrumentStatusSnapshotEntity) :
    LiquidityFilterResult :=
  match snapshot with
  | none => none
  | some s =>
    if isYes s.trStopYn then some "status_snapshot_trading_halt"
    else if isYes s.admnItemYn then some "status_snapshot_administrative_issue"
    else if isYes s.nxtTrStopYn then some "status_snapshot_next_session_halt"
    else if isYes s.tempStopYn then some "status_snapshot_temporary_halt"
    else checkIscdStatClsCode s.iscdStatClsCode

def tickSizeMicroCapThreshold : ℚ := 1000

def accVolumeThreshold : ℚ := 1000000000

/-- `_is_standard_krx_symbol`; `$` also matches before a final line break, which `strip`
has removed. -/
def isStandardKrxSymbol (symbol : String) : Bool :=
  let code := (normalizedCode symbol).toList
  code.length = 6 && code.all fun c => ('0' ≤ c && c ≤ '9') || ('A' ≤ c && c ≤ 'Z')

/-- `_looks_like_preferred_or_special_share`: the alternatives with a digit end like the
two without one. -/
def looksLikePreferredOrSpecialShare (name : String) : Bool :=
  let normalized := (stripped name).toList
  "(전환)".toList.isSuffixOf normalized || "우".toList.isSuffixOf normalized ||
    "우B".toList.isSuffixOf normalized

/-- The repositories that the filter reads. -/
structure InstrumentSources where
  instrument : UUID → Option InstrumentEntity
  bySymbol : String → String → Option InstrumentEntity
  bySymbolAnyMarket : String → Option InstrumentEntity
  latestStatus : UUID → Option InstrumentStatusSnapshotEntity

namespace LiquidityFilter

variable (sources : InstrumentSources)

def resolveInstrument (symbol market : String) : Option InstrumentEntity :=
  let normalizedMarket := normalizeMarketCode market
  match sources.bySymbol symbol normalizedMarket with
  | some instrument => some instrument
  | none =>
    if isSupportedKrEquityMarket normalizedMarket then
      (sources.bySymbolAnyMarket symbol).filter fun i => isSupportedKrEquityMarket i.marketCode
    else none

/-- `check` of the instrument once it is resolved. -/
def checkInstrument (instrument : InstrumentEntity) : LiquidityFilterResult :=
  if !instrument.isActive then some "inactive_instrument"
  else if lower (stripped instrument.assetClass) ≠ "kr_stock" then some "unsupported_asset_class"
  else if metadataFlag instrument.metadata "exclude_from_trading_universe" = some true then
    some "metadata_excluded"
  else if metadataFlag instrument.metadata "broker_supported" = some false then
    some "broker_unsupported"
  else if metadataFlag instrument.metadata "instrument_complete" = some false then
    some "incomplete_instrument"
  else if !isStandardKrxSymbol instrument.symbol then some "non_standard_symbol"
  else if looksLikePreferredOrSpecialShare instrument.name then some "preferred_share_class"
  else if instrument.tickSize.any (tickSizeMicroCapThreshold ≤ ·) then some "tick_size_too_large"
  else checkStatusSnapshot (sources.latestStatus instrument.instrumentId)

def check (symbol market : String) : LiquidityFilterResult :=
  let normalizedMarket := normalizeMarketCode market
  if !isSupportedKrEquityMarket normalizedMarket then some "unsupported_market"
  else
    match resolveInstrument sources symbol normalizedMarket with
    | none => some "unknown_instrument"
    | some instrument => checkInstrument sources instrument

end LiquidityFilter

structure MarketDataSnapshot where
  symbol : String
  market : String
  currentPrice : Option Dec := none
  changeRate : Option Dec := none
  accTradeAmount : Option Dec := none
  highPrice : Option Dec := none
  iscdStatClsCode : Option String := none

/-- `_decimal`: a text that is no number is not among the exceptions it answers with `None`. -/
def quoteDecimal (raw : Dict) (key : String) : Except PyError (Option Dec) :=
  match raw.lookup key with
  | none | some .null => .ok none
  | some value =>
    match Decimal.parse (stripped (String.ofList (value.text.toList.filter (· ≠ ',')))) with
    | some d => .ok (some d.value)
    | none => .error (.other "InvalidOperation")

/-- `_str_val`. -/
def quoteText (raw : Dict) (key : String) : Option String :=
  match raw.lookup key with
  | none | some .null => none
  | some value => some (stripped value.text)

/-- `_parse_quote_to_snapshot`. The low and the opening price are parsed and not used. -/
def parseQuoteToSnapshot (symbol market : String) (raw : Dict) :
    Except PyError MarketDataSnapshot := do
  let currentPrice ← quoteDecimal raw "stck_prpr"
  let changeRate ← quoteDecimal raw "prdy_ctrt"
  let accTradeAmount ← quoteDecimal raw "acml_tr_pbmn"
  let highPrice ← quoteDecimal raw "stck_hgpr"
  let _ ← quoteDecimal raw "stck_lwpr"
  let _ ← quoteDecimal raw "stck_oprc"
  return ⟨symbol, market, currentPrice, changeRate, accTradeAmount, highPrice,
    quoteText raw "iscd_stat_cls_code"⟩

/-- `_check_acc_trade_amount`; the text of the amount is left out of the reason. -/
def checkAccTradeAmount (accTradeAmount : Option Dec) : Except PyError LiquidityFilterResult :=
  match accTradeAmount with
  | none => .ok none
  | some amount => do
    let low ← amount.less (.finite accVolumeThreshold)
    return if low then some "low_volume" else none

def LiquidityFilter.checkMarketSnapshot (sources : InstrumentSources)
    (snapshot : MarketDataSnapshot) : Except PyError LiquidityFilterResult :=
  let instrument := resolveInstrument sources snapshot.symbol snapshot.market
  let statusSnapshot := instrument.bind fun i => sources.latestStatus i.instrumentId
  let f4 := match statusSnapshot with
    | some s => checkStatusSnapshot (some s)
    | none => checkIscdStatClsCode snapshot.iscdStatClsCode
  match f4 with
  | some reason => .ok (some reason)
  | none => checkAccTradeAmount snapshot.accTradeAmount

end AgentTrading.Universe
