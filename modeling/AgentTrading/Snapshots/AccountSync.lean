import Mathlib.Data.List.Sort
import Mathlib.Data.Prod.Lex
import AgentTrading.Snapshots.Balance

/-! The two ways in which the positions of an account are synchronised with the broker's: through
the snapshot provider (`sync_account_snapshots`) and directly (`sync_kis_account_snapshots`). -/
namespace AgentTrading.Snapshots
open Domain Kis

structure InstrumentEntity where
  instrumentId : UUID
  symbol : String
  exchangeCode : String
  marketCode : String
  marketSegment : Option String := none
  isActive : Bool := true
  updatedAt : Option Time := none
  createdAt : Option Time := none

structure PositionSnapshotEntity where
  accountId : UUID
  instrumentId : UUID
  quantity : Dec
  averagePrice : Dec
  marketPrice : Option Dec
  unrealizedPnl : Option Dec
  sourceOfTruth : String
  snapshotAt : Time
  fetchStatus : String := "success"
  snapshotSyncRunId : Option UUID := none
  deriving DecidableEq

structure SyncFlags where
  afterHours : Bool := false
  fetchPositions : Bool := true
  allowAfterHoursPositions : Bool := false
  deriving DecidableEq

/-- What a call meets: the broker's answer, the instruments and the snapshots stored, which
lookups (by row) and which stores (in their order) raise, what `list_latest_by_account` answers on
the snapshots stored by then, and whether a risk limit comes of the cash balance. -/
structure SyncWorld where
  accountId : UUID
  now : Time
  source : BalanceSource
  instruments : List InstrumentEntity
  stored : List PositionSnapshotEntity
  lookupFails : Nat → Bool
  addFails : Nat → Option PyError
  listLatest : List PositionSnapshotEntity → Except PyError (List PositionSnapshotEntity)
  riskLimit : Except PyError Bool

def anyMarketRank (item : InstrumentEntity) : Nat ×ₗ Nat ×ₗ Int :=
  let exchange :=
    if item.exchangeCode = "KRX" ∧ item.marketCode = "KRX" then 0
    else if item.exchangeCode = "KRX" ∧ item.isActive then 1
    else if item.exchangeCode = "KRX" then 2
    else if item.isActive then 3 else 4
  let segment := if item.marketSegment = some "KOSPI" ∨ item.marketSegment = some "KOSDAQ" then 0
    else 1
  toLex (exchange, toLex (segment, -((item.updatedAt.or item.createdAt).getD 0)))

def getBySymbolAnyMarket (instruments : List InstrumentEntity) (symbol : String) :
    Option InstrumentEntity :=
  ((instruments.filter (·.symbol = symbol)).insertionSort
    fun a b => anyMarketRank a ≤ anyMarketRank b).head?

def safeDecimal (value : Option String) : Dec :=
  match parseDecimal (value.getD "0") with
  | .ok d => d
  | .error _ => .finite 0

def safeOptionalDecimal (value : Option String) : Option Dec :=
  match value with
  | none => none
  | some text =>
    if strip text.toList = [] then none
    else
      match parseDecimal text with
      | .ok d => some d
      | .error _ => none

inductive SyncError where
  | fetchFailed (error : PyError)
  | noResult
  | missingPdno
  | instrumentNotFound (pdno : String)
  deriving DecidableEq

def positionOf (w : SyncWorld) (row : PositionRow) (instrument : InstrumentEntity) :
    PositionSnapshotEntity where
  accountId := w.accountId
  instrumentId := instrument.instrumentId
  quantity := safeDecimal row.hldgQty
  averagePrice := safeDecimal row.pchsAvgPric
  marketPrice := safeOptionalDecimal row.prpr
  unrealizedPnl := safeOptionalDecimal row.evluPflsAmt
  sourceOfTruth := "broker"
  snapshotAt := w.now

/-- The loop over the rows, from the given index on. A lookup that raises finds nothing. -/
def readRows (w : SyncWorld) : Nat → List PositionRow →
    List PositionSnapshotEntity × List SyncError
  | _, [] => ([], [])
  | i, row :: rest =>
    let (positions, errors) := readRows w (i + 1) rest
    let pdno := row.pdno.getD ""
    if pdno = "" then (positions, .missingPdno :: errors)
    else
      match if w.lookupFails i then none else getBySymbolAnyMarket w.instruments pdno with
      | none => (positions, .instrumentNotFound pdno :: errors)
      | some instrument => (positionOf w row instrument :: positions, errors)

/-- The snapshots written by the call, and how many it tried to. -/
structure SyncProgress where
  written : List PositionSnapshotEntity := []
  adds : Nat := 0

def SyncProgress.add (w : SyncWorld) (snap : PositionSnapshotEntity) (p : SyncProgress) :
    Option PyError × SyncProgress :=
  match w.addFails p.adds with
  | some e => (some e, { p with adds := p.adds + 1 })
  | none => (none, ⟨p.written ++ [snap], p.adds + 1⟩)

/-- A snapshot that cannot be stored is passed over. -/
def persist (w : SyncWorld) (positions : List PositionSnapshotEntity) : SyncProgress :=
  positions.foldl (fun p position => (p.add w position).2) {}

/-- `quantity == Decimal("0")`, which raises on a signalling NaN. -/
def equalsZero : Dec → Except PyError Bool
  | .finite v => .ok (v = 0)
  | .snan => .error (.other "InvalidOperation")
  | _ => .ok false

/-- What a way of synchronising writes of its own into a snapshot of zero. -/
structure ZeroMark where
  fetchStatus : String
  sourceOfTruth : PositionSnapshotEntity → String

def zeroed (w : SyncWorld) (mark : ZeroMark) (runId : Option UUID)
    (snap : PositionSnapshotEntity) : PositionSnapshotEntity :=
  { snap with
    accountId := w.accountId
    quantity := .finite 0
    sourceOfTruth := mark.sourceOfTruth snap
    snapshotAt := w.now
    fetchStatus := mark.fetchStatus
    snapshotSyncRunId := runId }

/-- The loop over the latest snapshots; an exception ends it. -/
def zeroOut (w : SyncWorld) (mark : ZeroMark) (runId : Option UUID)
    (currentInstrumentIds : List UUID) : List PositionSnapshotEntity → SyncProgress → SyncProgress
  | [], p => p
  | snap :: rest, p =>
    match equalsZero snap.quantity with
    | .error _ => p
    | .ok true => zeroOut w mark runId currentInstrumentIds rest p
    | .ok false =>
      if snap.instrumentId ∈ currentInstrumentIds then
        zeroOut w mark runId currentInstrumentIds rest p
      else
        match p.add w (zeroed w mark runId snap) with
        | (some _, p) => p
        | (none, p) => zeroOut w mark runId currentInstrumentIds rest p

/-- What is held by the latest snapshots and not among the current ones is written down. -/
def zeroOutMissing (w : SyncWorld) (mark : ZeroMark) (runId : Option UUID)
    (currentInstrumentIds : List UUID) (p : SyncProgress) : SyncProgress :=
  match w.listLatest (w.stored ++ p.written) with
  | .error _ => p
  | .ok latest => zeroOut w mark runId currentInstrumentIds latest p

def providerMark : ZeroMark where
  fetchStatus := "success"
  sourceOfTruth := (·.sourceOfTruth)

structure FetchedSnapshot where
  positions : List PositionSnapshotEntity
  cashBalance : Bool
  riskLimitSnapshot : Bool
  errors : List SyncError
  fetchSuccess : Bool

/-- Whether the positions of the answer are looked at. -/
def SyncFlags.provided (flags : SyncFlags) : Bool :=
  if flags.afterHours ∧ ¬ flags.allowAfterHoursPositions then false
  else if flags.afterHours ∧ flags.allowAfterHoursPositions then true
  else flags.fetchPositions

def fetchSnapshot (w : SyncWorld) (flags : SyncFlags) : Except PyError FetchedSnapshot :=
  let result := w.source.getCashAndPositions
  let (rawCash, errors) : Bool × List SyncError := match result with
    | .ok found => (found.cashBalance, [])
    | .error e => (false, [.fetchFailed e])
  let (rawPositions, errors) : List PositionRow × List SyncError :=
    if flags.provided then
      match result with
      | .ok found => (found.positions, errors)
      | .error _ => ([], errors ++ [.noResult])
    else ([], errors)
  let (positions, rowErrors) := readRows w 0 rawPositions
  match if rawCash then w.riskLimit else .ok false with
  | .error e => .error e
  | .ok riskLimit =>
    .ok {
      positions := positions
      cashBalance := rawCash
      riskLimitSnapshot := riskLimit
      errors := errors ++ rowErrors
      fetchSuccess := rawCash ∨ positions ≠ [] }

def stamped (runId : Option UUID) (position : PositionSnapshotEntity) : PositionSnapshotEntity :=
  match runId with
  | some id => { position with snapshotSyncRunId := some id }
  | none => position

/-- `sync_account_snapshots`, as far as it writes positions. -/
def syncAccountSnapshots (w : SyncWorld) (flags : SyncFlags) (runId : Option UUID) :
    SyncProgress :=
  match fetchSnapshot w flags with
  | .error _ => {}
  | .ok fetched =>
    if ¬ fetched.fetchSuccess ∧ fetched.errors = [] ∧ ¬ fetched.riskLimitSnapshot then {}
    else
      let p := persist w (fetched.positions.map (stamped runId))
      if flags.afterHours then p
      else zeroOutMissing w providerMark runId (p.written.map (·.instrumentId)) p

def directMark : ZeroMark where
  fetchStatus := "zeroed_out"
  sourceOfTruth := fun _ => "broker"

def SyncFlags.direct (flags : SyncFlags) : Bool := !flags.afterHours && flags.fetchPositions

/-- `sync_kis_account_snapshots`, as far as it writes positions. A code resolves to one
instrument, so the instruments of the mapped codes are those of the snapshots built. -/
def syncKisAccountSnapshots (w : SyncWorld) (flags : SyncFlags) (runId : Option UUID) :
    SyncProgress :=
  let result := w.source.getCashAndPositions
  let hadCashResponse : Bool := match result with
    | .ok found => found.cashBalance
    | .error _ => false
  let rawPositions :=
    if flags.direct then
      match result with
      | .ok found => found.positions
      | .error _ => []
    else []
  let positions := (readRows w 0 rawPositions).1
  let p := persist w (positions.map (stamped runId))
  if positions ≠ [] ∨ hadCashResponse then
    zeroOutMissing w directMark runId (positions.map (·.instrumentId)) p
  else p

end AgentTrading.Snapshots
