import AgentTrading.Kis.FillNormalization
import AgentTrading.Kis.Numerals

/-! `fill_history_sync`: the settlement rows of one day, stored as snapshots of fills. The
repositories do not fail, and a stored snapshot is found again by its key. -/
namespace AgentTrading.FillHistory
open Domain Kis

/-- A day of the calendar by its number since the epoch, from the first day of the year 1 to the
last of the year 9999. -/
structure Date where
  day : Int
  first_le : -719162 ≤ day
  le_last : day ≤ 2932896
  deriving DecidableEq

def microsPerSecond : Int := 1000000

/-- Midnight in Korean time. -/
def Date.midnight (d : Date) : Time := (d.day * 86400 - 9 * 3600) * microsPerSecond

def Date.isoformat (d : Date) : String :=
  let text := (kstDate d.midnight).toList
  String.ofList (text.take 4 ++ '-' :: ((text.drop 4).take 2 ++ '-' :: text.drop 6))

structure BrokerFillSnapshotEntity where
  brokerFillSnapshotId : UUID
  accountId : UUID
  brokerName : String
  brokerNativeOrderId : String
  symbol : String
  side : String
  orderDate : Date
  filledQuantity : Decimal
  fillPrice : Decimal
  dedupeKey : String
  orderRequestId : Option UUID := none
  fillSyncRunId : Option UUID := none
  brokerFillId : Option String := none
  orderStatusCode : Option String := none
  cancelYn : Option String := none
  orderedQuantity : Option Decimal := none
  orderTime : Option String := none
  fillTime : Option String := none
  fillTimestamp : Option Time := none
  rawPayloadJson : Dict
  updatedAt : Option Time := none

structure AccountFillSyncResult where
  accountId : UUID
  fillsSynced : Nat := 0
  fillsSkipped : Nat := 0
  retriedDays : Nat := 0
  retryCount : Nat := 0
  errors : List String := []

/-- `_parse_decimal`. -/
def parseDecimal? (raw : Json) : Option Decimal :=
  if raw.isNull || raw.isText "" then none else Decimal.parse raw.text

/-- `str(value).strip()`. -/
def stripText (value : Json) : String := String.ofList (strip value.text.toList)

def sideFromCode (code : String) : String := if code = "01" then "sell" else "buy"

/-- `time(hour=…, minute=…, second=…)`, from midnight on. -/
def timeOfDay (hour minute second : Nat) : Except PyError Int :=
  if hour ≤ 23 ∧ minute ≤ 59 ∧ second ≤ 59 then
    .ok ((hour * 3600 + minute * 60 + second) * microsPerSecond)
  else .error (.other "ValueError")

/-- `astimezone(timezone.utc)`: before the first day there is no time. -/
def toUtc (t : Time) : Except PyError Time :=
  if t < -719162 * 86400 * microsPerSecond then .error (.other "OverflowError") else .ok t

def buildFillTimestamp (orderDay : Date) (fillTime : Option String) :
    Except PyError (Option Time) :=
  match nonEmpty (fillTime.getD "") with
  | none => .ok none
  | some fillTime =>
    let value := strip fillTime.toList
    if value.length ≠ 6 ∨ ¬value.all isDigit then .ok none
    else do
      let hour ← intOfDigits (value.take 2)
      let minute ← intOfDigits ((value.drop 2).take 2)
      let second ← intOfDigits ((value.drop 4).take 2)
      let time ← timeOfDay hour minute second
      let dt ← toUtc (orderDay.midnight + time)
      return some dt

def buildDedupeKey (accountId : UUID) (brokerNativeOrderId : String) (brokerFillId : Option String)
    (symbol side : String) (orderDay : Date) (filledQuantity fillPrice : Decimal)
    (fillTime : Option String) : String :=
  String.intercalate "|" [UUID.text accountId, brokerNativeOrderId, orText brokerFillId "", symbol,
    side, orderDay.isoformat, filledQuantity.text, fillPrice.text, orText fillTime ""]

def filledQuantityOf (item : Dict) : Option Decimal :=
  parseDecimal? (item.kisValue cumulativeQtyFields (.str "0"))

/-- `_parse_decimal(…) or Decimal("0")`. -/
def fillPriceOf (item : Dict) : Decimal :=
  match parseDecimal? (item.kisValue averagePriceFields (.str "0")) with
  | some price => if price.truthy then price else .zero
  | none => .zero

def nativeOrderIdOf (item : Dict) : String := stripText (item.kisValue ["ODNO"] (.str ""))

def symbolOf (item : Dict) : String := stripText (item.kisValue ["PDNO"] (.str ""))

/-- `str(…).strip() or None` of the first filled field. -/
def textOf (item : Dict) (fields : List String) : Option String :=
  nonEmpty (stripText (item.kisValue fields (.str "")))

/-- What the client answers to each attempt, and its wait for the budget, which it may lack. -/
structure RestClient where
  inquireDailyCcld : Nat → Except PyError (List Dict)
  waitForInquiryBudget : Option (Nat → Except PyError Bool) := none

def maxAttempts : Nat := 2

/-- The attempts left, from the given one on, after the last exception. -/
def fetchAttempts (client : RestClient) :
    Nat → Nat → Option PyError → Except PyError (List Dict × Nat)
  | 0, _, some e => .error e
  | 0, _, none => .ok ([], 0)
  | left + 1, attempt, _ =>
    match client.inquireDailyCcld attempt with
    | .ok rows => .ok (rows, attempt - 1)
    | .error (.budgetExhausted bucket) =>
      let exc := PyError.budgetExhausted bucket
      if bucket ∉ ["inquiry", "global"] ∨ maxAttempts ≤ attempt then .error exc
      else
        match client.waitForInquiryBudget with
        | none => .error exc
        | some wait =>
          match wait attempt with
          | .error e => .error e
          | .ok false => .error exc
          | .ok true => fetchAttempts client left (attempt + 1) (some exc)
    | .error e => .error e

/-- `_fetch_daily_ccld_with_retry`: the rows and the number of retries. -/
def fetchDailyCcldWithRetry (client : RestClient) : Except PyError (List Dict × Nat) :=
  fetchAttempts client maxAttempts 1 none

/-- The arguments of a call and what it meets: the broker orders stored under a number, new
identifiers and the time, by row. -/
structure Call where
  client : RestClient
  accountId : UUID
  orderDay : Date
  fillSyncRunId : UUID
  getByNativeOrderId : String → Option BrokerOrderEntity
  newId : Nat → UUID
  now : Nat → Time
  errorText : PyError → String

/-- `upserts` lists what was handed to the repository. -/
structure Progress where
  fillsSynced : Nat := 0
  fillsSkipped : Nat := 0
  linkedOrderCache : List (String × Option UUID) := []
  upserts : List BrokerFillSnapshotEntity := []

def Progress.skip (p : Progress) : Progress := { p with fillsSkipped := p.fillsSkipped + 1 }

/-- The order of a number, looked up once, and the cache with it. -/
def linkedOrder (call : Call) (nativeOrderId : String) (cache : List (String × Option UUID)) :
    Option UUID × List (String × Option UUID) :=
  match cache.lookup nativeOrderId with
  | some orderRequestId => (orderRequestId, cache)
  | none =>
    let orderRequestId := (call.getByNativeOrderId nativeOrderId).map (·.orderRequestId)
    (orderRequestId, (nativeOrderId, orderRequestId) :: cache)

def snapshotOf (call : Call) (i : Nat) (item : Dict) (filledQuantity : Decimal)
    (orderRequestId : Option UUID) : Except PyError BrokerFillSnapshotEntity := do
  let side := sideFromCode (item.kisValue ["SLL_BUY_DVSN_CD"] (.str "")).text
  let brokerFillId := textOf item ["CCLD_NUM"]
  let fillTime := textOf item fillTimeFields
  let fillTimestamp ← buildFillTimestamp call.orderDay fillTime
  return {
    brokerFillSnapshotId := call.newId i
    fillSyncRunId := some call.fillSyncRunId
    accountId := call.accountId
    orderRequestId := orderRequestId
    brokerName := "koreainvestment"
    brokerNativeOrderId := nativeOrderIdOf item
    brokerFillId := brokerFillId
    symbol := symbolOf item
    side := side
    orderDate := call.orderDay
    orderStatusCode := textOf item orderStatusFields
    cancelYn := textOf item ["CNCL_YN"]
    orderedQuantity := parseDecimal? (item.kisValue ["ORD_QTY"] .null)
    filledQuantity := filledQuantity
    fillPrice := fillPriceOf item
    orderTime := textOf item ["ORD_TMD"]
    fillTime := fillTime
    fillTimestamp := fillTimestamp
    dedupeKey := buildDedupeKey call.accountId (nativeOrderIdOf item) brokerFillId (symbolOf item)
      side call.orderDay filledQuantity (fillPriceOf item) fillTime
    rawPayloadJson := item
    updatedAt := some (call.now i) }

/-- One turn of the loop, with the exception that ends it. -/
def syncRow (call : Call) (i : Nat) (item : Dict) (p : Progress) : Option PyError × Progress :=
  match filledQuantityOf item with
  | none => (none, p.skip)
  | some filledQuantity =>
    if nativeOrderIdOf item = "" ∨ symbolOf item = "" then (none, p.skip)
    else
      let (orderRequestId, cache) := linkedOrder call (nativeOrderIdOf item) p.linkedOrderCache
      let p := { p with linkedOrderCache := cache }
      match snapshotOf call i item filledQuantity orderRequestId with
      | .error e => (some e, p)
      | .ok snapshot =>
        (none, { p with fillsSynced := p.fillsSynced + 1, upserts := p.upserts ++ [snapshot] })

def syncRows (call : Call) : Nat → List Dict → Progress → Option PyError × Progress
  | _, [], p => (none, p)
  | i, item :: rest, p =>
    match syncRow call i item p with
    | (some e, p) => (some e, p)
    | (none, p) => syncRows call (i + 1) rest p

/-- `sync_fill_history_for_account`, with what it hands to the repository. -/
def syncFillHistoryForAccount (call : Call) :
    Except PyError AccountFillSyncResult × List BrokerFillSnapshotEntity :=
  match fetchDailyCcldWithRetry call.client with
  | .error e =>
    (.ok { accountId := call.accountId, errors := ["VTTC0081R failed: " ++ call.errorText e] }, [])
  | .ok (records, retryCount) =>
    match syncRows call 0 records {} with
    | (some e, p) => (.error e, p.upserts)
    | (none, p) =>
      (.ok {
        accountId := call.accountId
        fillsSynced := p.fillsSynced
        fillsSkipped := p.fillsSkipped
        retriedDays := if 0 < retryCount then 1 else 0
        retryCount := if 0 < retryCount then retryCount else 0 }, p.upserts)

/-- A snapshot whose key is stored replaces all but what the key and the first snapshot fix. -/
def merged (existing snapshot : BrokerFillSnapshotEntity) : BrokerFillSnapshotEntity :=
  { existing with
    orderRequestId := snapshot.orderRequestId
    fillSyncRunId := snapshot.fillSyncRunId
    brokerFillId := snapshot.brokerFillId
    orderStatusCode := snapshot.orderStatusCode
    cancelYn := snapshot.cancelYn
    orderedQuantity := snapshot.orderedQuantity
    filledQuantity := snapshot.filledQuantity
    fillPrice := snapshot.fillPrice
    orderTime := snapshot.orderTime
    fillTime := snapshot.fillTime
    fillTimestamp := snapshot.fillTimestamp
    rawPayloadJson := snapshot.rawPayloadJson
    updatedAt := snapshot.updatedAt }

def upsert (snapshot : BrokerFillSnapshotEntity) :
    List BrokerFillSnapshotEntity → List BrokerFillSnapshotEntity
  | [] => [snapshot]
  | existing :: rest =>
    if existing.dedupeKey = snapshot.dedupeKey then merged existing snapshot :: rest
    else existing :: upsert snapshot rest

end AgentTrading.FillHistory
