import AgentTrading.Kis.Numerals
import AgentTrading.Library.Keyed
import AgentTrading.RealizedPnl.Engine
import AgentTrading.Snapshots.AccountSync

/-! `_build_var_inputs`: what the risk limit of a snapshot learns of each position, its price
history and its market value, both looked up under a symbol. -/
namespace AgentTrading.Snapshots.VarInputs
open Domain Kis Library

structure DeterministicVarPositionInput where
  symbol : String
  closePrices : List Dec
  heldMarketValue : Dec := .finite 0
  pendingBuyExposure : Dec := .finite 0
  pendingSellExposure : Dec := .finite 0
  referencePrice : Option Dec := none
  deriving DecidableEq

/-- Why a position has no input. -/
inductive VarSkip where
  | symbolMissing (instrumentId : UUID)
  | barsFailed (symbol : String) (error : PyError)
  | barsMissing (symbol : String)
  deriving DecidableEq

def VarSkip.text (errorText : PyError → String) : VarSkip → String
  | symbolMissing instrumentId =>
    "VaR enrichment skipped: symbol resolution missing for instrument_id=" ++ UUID.text instrumentId
  | barsFailed symbol error =>
    "VaR daily bars fetch failed for symbol=" ++ symbol ++ ": " ++ errorText error
  | barsMissing symbol => "VaR daily bars missing for symbol=" ++ symbol

/-- What a snapshot meets: the instruments by row and product code, and the daily bars by position,
symbol and attempt, over the dates that the day fixes. -/
structure VarWorld where
  accountId : UUID
  snapshotAt : Time
  getBySymbolAnyMarket : Nat → Json → Except PyError (Option UUID)
  inquireDailyItemchartprice : Nat → String → Nat → Except PyError (List Json)

/-- `a == b`, which raises on a signalling NaN. -/
def equals : Dec → Dec → Except PyError Bool
  | .snan, _ => .error (.other "InvalidOperation")
  | _, .snan => .error (.other "InvalidOperation")
  | .nan, _ => .ok false
  | _, .nan => .ok false
  | a, b => .ok (a = b)

/-- `0 < a`, as `a > 0` and the negation of `a <= 0` both find it; it raises on a NaN. -/
def positive (a : Dec) : Except PyError Bool := Dec.less (.finite 0) a

def truthy : Dec → Bool
  | .finite v => v ≠ 0
  | _ => true

/-- `a * b`. -/
def times : Dec → Dec → Except PyError Dec
  | .snan, _ => .error (.other "InvalidOperation")
  | _, .snan => .error (.other "InvalidOperation")
  | .nan, _ => .ok .nan
  | _, .nan => .ok .nan
  | .finite a, .finite b => .ok (.finite (RealizedPnl.decimalContext (a * b)))
  | .finite a, .infinity negative =>
    if a = 0 then .error (.other "InvalidOperation") else .ok (.infinity (negative ^^ a < 0))
  | .infinity negative, .finite b =>
    if b = 0 then .error (.other "InvalidOperation") else .ok (.infinity (negative ^^ b < 0))
  | .infinity a, .infinity b => .ok (.infinity (a ^^ b))

def safeDecimal (value : Json) : Dec :=
  ((Decimal.parse value.text).map Decimal.value).getD (.finite 0)

def safeOptionalDecimal (value : Json) : Option Dec :=
  if value.isNull then none
  else
    let s := strip value.text.toList
    if s.isEmpty then none else (Decimal.parse (String.ofList s)).map Decimal.value

theorem safeDecimal_eq {s : String} {d : Decimal} (h : Decimal.parse s = some d) :
    safeDecimal (.str s) = Snapshots.safeDecimal (some s) := by
  have hthis : safeDecimal (.str s) = d.value := by
    rw [safeDecimal, Json.text, h]
    rfl
  rw [hthis, Snapshots.safeDecimal, Option.getD_some, Decimal.parseDecimal_of_parse h]

def quantityOf (raw : Dict) : Dec := safeDecimal (raw.get "hldg_qty" (.str "0"))

def averagePriceOf (raw : Dict) : Dec := safeDecimal (raw.get "pchs_avg_pric" (.str "0"))

/-- `str(raw.get("pdno", "")).strip()`. -/
def symbolText (raw : Dict) : String :=
  String.ofList (strip (raw.get "pdno" (.str "")).text.toList)

def positionOf (w : VarWorld) (raw : Dict) (instrumentId : UUID) : PositionSnapshotEntity where
  accountId := w.accountId
  instrumentId := instrumentId
  quantity := quantityOf raw
  averagePrice := averagePriceOf raw
  marketPrice := safeOptionalDecimal (raw.get "prpr" .null)
  unrealizedPnl := safeOptionalDecimal (raw.get "evlu_pfls_amt" .null)
  sourceOfTruth := "broker"
  snapshotAt := w.snapshotAt

/-- The instrument of a row; a lookup that raises finds none. -/
def instrumentOf (w : VarWorld) (i : Nat) (pdno : Json) : Option UUID :=
  match w.getBySymbolAnyMarket i pdno with
  | .ok instrument => instrument
  | .error _ => none

/-- The loop of `fetch_snapshot` over the rows, from the given index on. -/
def readPositions (w : VarWorld) :
    Nat → List Json → Except PyError (List PositionSnapshotEntity × List SyncError)
  | _, [] => .ok ([], [])
  | i, .obj raw :: rest => do
    let (positions, errors) ← readPositions w (i + 1) rest
    let pdno := Dict.get raw "pdno" (.str "")
    if pdno.truthy = false then return (positions, .missingPdno :: errors)
    else
      match instrumentOf w i pdno with
      | none => return (positions, .instrumentNotFound pdno.text :: errors)
      | some instrumentId => return (positionOf w raw instrumentId :: positions, errors)
  | _, _ :: _ => .error (.other "AttributeError")

/-- A later row of a symbol stands in the place of an earlier one. -/
def addRow (table : List (String × Dict)) : Json → List (String × Dict)
  | .obj raw =>
    if symbolText raw = "" then table else Keyed.upsert Prod.fst (symbolText raw, raw) table
  | _ => table

def rawBySymbol (rows : List Json) : List (String × Dict) := rows.foldl addRow []

/-- Whether a row has the quantity and the average price of a position. -/
def sameHolding (raw : Dict) (position : PositionSnapshotEntity) : Except PyError Bool := do
  let sameQuantity ← equals (quantityOf raw) position.quantity
  if sameQuantity then equals (averagePriceOf raw) position.averagePrice else return false

def matchSymbol (position : PositionSnapshotEntity) :
    List (String × Dict) → Except PyError (Option String)
  | [] => .ok none
  | (symbol, raw) :: rest => do
    let same ← sameHolding raw position
    if same then return some symbol else matchSymbol position rest

def resolveSymbolForPosition (position : PositionSnapshotEntity)
    (bySymbol : List (String × Dict)) : Except PyError (Option String) := do
  match ← matchSymbol position bySymbol with
  | some symbol => return some symbol
  | none => return bySymbol.head?.map Prod.fst

def budgetRetryAttempts : Nat := 2

def transientRetryAttempts : Nat := 2

/-- The attempts left, from the given one on. -/
def fetchAttempts (answer : Nat → Except PyError (List Json)) :
    Nat → Nat → Except PyError (List Json)
  | 0, _ => .ok []
  | left + 1, attempt =>
    match answer attempt with
    | .ok bars => .ok bars
    | .error (.budgetExhausted bucket) =>
      if budgetRetryAttempts ≤ attempt then .error (.budgetExhausted bucket)
      else fetchAttempts answer left (attempt + 1)
    | .error e =>
      if transientRetryAttempts ≤ attempt then .error e
      else fetchAttempts answer left (attempt + 1)

def fetchVarDailyBars (answer : Nat → Except PyError (List Json)) : Except PyError (List Json) :=
  fetchAttempts answer (max budgetRetryAttempts transientRetryAttempts) 1

def barDate : Json → String
  | .obj bar => (Dict.get bar "stck_bsop_date" (.str "")).text
  | _ => ""

/-- The positive closing prices, in the order of the bars. -/
def positivePrices : List Json → Except PyError (List Dec)
  | [] => .ok []
  | .obj bar :: rest => do
    let price := safeDecimal (Dict.get bar "stck_clpr" .null)
    let kept ← positive price
    let prices ← positivePrices rest
    return if kept then price :: prices else prices
  | _ :: rest => positivePrices rest

/-- The closing prices, the oldest first. -/
def closePricesOf (rawBars : List Json) : Except PyError (List Dec) :=
  positivePrices (rawBars.insertionSort fun a b => barDate a ≤ barDate b)

/-- `position.market_price or position.average_price`. -/
def referencePriceOf (position : PositionSnapshotEntity) : Dec :=
  match position.marketPrice with
  | some price => if truthy price then price else position.averagePrice
  | none => position.averagePrice

/-- The amount that the row states, or else the price times the quantity. -/
def heldMarketValueOf (position : PositionSnapshotEntity) (raw : Dict) : Except PyError Dec := do
  let price := referencePriceOf position
  let computed := times (if truthy price then price else .finite 0) position.quantity
  match safeOptionalDecimal (raw.get "evlu_amt" .null) with
  | none => computed
  | some amount =>
    let stated ← positive amount
    if stated then return amount else computed

/-- One turn of the loop over the positions: an input, or why there is none. -/
def varInputOf (w : VarWorld) (bySymbol : List (String × Dict)) (k : Nat)
    (position : PositionSnapshotEntity) :
    Except PyError (Except VarSkip DeterministicVarPositionInput) := do
  match ← resolveSymbolForPosition position bySymbol with
  | none => return .error (.symbolMissing position.instrumentId)
  | some "" => return .error (.symbolMissing position.instrumentId)
  | some symbol =>
    match fetchVarDailyBars (w.inquireDailyItemchartprice k symbol) with
    | .error e => return .error (.barsFailed symbol e)
    | .ok rawBars =>
      let closePrices ← closePricesOf rawBars
      if closePrices.isEmpty then return .error (.barsMissing symbol)
      else
        let raw := ((bySymbol.find? (·.1 = symbol)).map Prod.snd).getD []
        let heldMarketValue ← heldMarketValueOf position raw
        return .ok {
          symbol := symbol
          closePrices := closePrices
          heldMarketValue := heldMarketValue
          referencePrice := some (referencePriceOf position) }

/-- The loop over the positions, from the given index on. -/
def varInputs (w : VarWorld) (bySymbol : List (String × Dict)) :
    Nat → List PositionSnapshotEntity →
      Except PyError (List DeterministicVarPositionInput × List VarSkip)
  | _, [] => .ok ([], [])
  | k, position :: rest => do
    let outcome ← varInputOf w bySymbol k position
    let (inputs, errors) ← varInputs w bySymbol (k + 1) rest
    match outcome with
    | .ok input => return (input :: inputs, errors)
    | .error skip => return (inputs, skip :: errors)

def buildVarInputs (w : VarWorld) (positions : List PositionSnapshotEntity) (rows : List Json) :
    Except PyError (List DeterministicVarPositionInput × List VarSkip) :=
  if positions.isEmpty ∨ rows.isEmpty then .ok ([], [])
  else varInputs w (rawBySymbol rows) 0 positions

end AgentTrading.Snapshots.VarInputs
