import AgentTrading.Kis.RestClient

/-! The settlement inquiry and the resolution of an order whose state is unknown. An order
that the settlement does not list is looked for among the holdings, by its symbol. -/
namespace AgentTrading.Kis
open Domain Brokers Library

/-- `get_kis_field`: a missing or empty upper-case key falls back to the lower-case one. -/
def getKisField (item : Json) (field : String) (default : Json) : Except PyError Json := do
  let value ← item.get field .null
  if value.isNull || value.isText "" then item.get (lower field) default
  else return value

/-- What a `for` loop over a value sees. -/
def Json.iterate : Json → Except PyError (List Json)
  | arr items => .ok items
  | str s => .ok (s.toList.map fun c => .str c.toString)
  | obj items => .ok (items.map fun item => .str item.1)
  | _ => .error (.other "TypeError")

/-- `data.get("output", [])` as rows; a single record counts as one row. -/
def outputRows (data : Dict) : Except PyError (List Json) :=
  match data.get "output" (.arr []) with
  | .obj record => .ok [.obj record]
  | output => output.iterate

def extractContinuationKeys (data : Dict) : String × String :=
  (key "CTX_AREA_FK100" "ctx_area_fk100", key "CTX_AREA_NK100" "ctx_area_nk100")
where
  key (upperKey lowerKey : String) : String :=
    let value := data.get upperKey .null
    let value := if value.isNull then data.get lowerKey (.str "") else value
    String.ofList (strip (if value.truthy then value.text else "").toList)

/-- The rows whose field has the expected text. -/
def keepRows (field expected : String) : List Json → Except PyError (List Json)
  | [] => .ok []
  | row :: rows => do
    let value ← getKisField row field (.str "")
    let kept ← keepRows field expected rows
    return if value.isText expected then row :: kept else kept

/-- The first row of the order. -/
def findOdno (brokerOrderId : String) : List Json → Except PyError (Option Json)
  | [] => .ok none
  | row :: rows => do
    let odno ← getKisField row "ODNO" (.str "")
    if odno.isText brokerOrderId then return some row else findOdno brokerOrderId rows

/-- The date in Korean time as `%Y%m%d`, by the rule that counts years from March. -/
def kstDate (t : Time) : String :=
  let days := (t + 9 * 3600000000) / 86400000000 + 719468
  let era := days / 146097
  let dayOfEra := days % 146097
  let yearOfEra := (dayOfEra - dayOfEra / 1460 + dayOfEra / 36524 - dayOfEra / 146096) / 365
  let dayOfYear := dayOfEra - (365 * yearOfEra + yearOfEra / 4 - yearOfEra / 100)
  let month := (5 * dayOfYear + 2) / 153
  let day := dayOfYear - (153 * month + 2) / 5 + 1
  let month := if month < 10 then month + 3 else month - 9
  let year := yearOfEra + era * 400 + if month ≤ 2 then 1 else 0
  pad 4 year ++ pad 2 month ++ pad 2 day
where
  pad (width : Nat) (n : Int) : String :=
    let digits := (toString n).toList
    String.ofList (List.replicate (width - digits.length) '0' ++ digits)

structure OrderStatusResult where
  clientOrderId : Option String
  brokerOrderId : Json
  status : OrderStatus
  filledQuantity : Dec
  remainingQuantity : Dec
  rawCode : Json
  rawMessage : Json

/-- `KIS_ORD_STAT_MAP.get(ord_stat)`. -/
def kisOrdStat (ordStat : Json) : Except PyError (Option OrderStatus) :=
  match ordStat with
  | .arr _ => .error (.other "TypeError")
  | .obj _ => .error (.other "TypeError")
  | .str "00" => .ok (some .submitted)
  | .str "01" => .ok (some .filled)
  | .str "02" => .ok (some .cancelled)
  | .str "03" => .ok (some .rejected)
  | .str "05" => .ok (some .acknowledged)
  | .str "07" => .ok (some .acknowledged)
  | _ => .ok none

def zero : Dec := .finite 0

/-- The status of an order without a state code that is not completely executed. -/
def unfilledStatus (item : Dict) (ccldQty : Dec) : Except PyError OrderStatus := do
  if ← zero.less ccldQty then return .partiallyFilled
  else if item.get "CNCL_YN" .null |>.isText "Y" then return .cancelled
  else if item.get "RVSE_YN" .null |>.isText "Y" then return .cancelled
  else return .submitted

/-- The status by the order state code and the ordered and executed quantities. -/
def rowStatus (item : Dict) (baseStatus : Option OrderStatus) (ordQty ccldQty : Dec) :
    Except PyError OrderStatus :=
  match baseStatus with
  | some .filled => do
    if ← ccldQty.less ordQty then return .partiallyFilled
    else if ← zero.less ordQty then return .filled
    else return .partiallyFilled
  | some .submitted => do
    if item.get "CNCL_YN" .null |>.isText "Y" then return .cancelled
    else if item.get "RVSE_YN" .null |>.isText "Y" then return .cancelled
    else if ← zero.less ccldQty then
      if ← ccldQty.less ordQty then return .partiallyFilled else return .filled
    else return .submitted
  | some status => .ok status
  | none => do
    if !(← ccldQty.less ordQty) && (← zero.less ordQty) then return .filled
    else unfilledStatus item ccldQty

/-- `_parse_order_status_item`, which reads upper-case keys only. -/
def parseOrderStatusItem (item : Json) (clientOrderId : Option String) :
    Except PyError OrderStatusResult := do
  match item with
  | .obj item =>
    let ordQty ← (Dict.get item "ORD_QTY" (.str "0")).toDecimal
    let ccldQty ← (Dict.get item "CCLD_QTY" (.str "0")).toDecimal
    let rmnQty ← ordQty.sub ccldQty
    let baseStatus ← kisOrdStat (Dict.get item "ORD_STAT" (.str ""))
    let status ← rowStatus item baseStatus ordQty ccldQty
    return {
      clientOrderId := clientOrderId
      brokerOrderId := Dict.get item "ODNO" (.str "")
      status := status
      filledQuantity := ccldQty
      remainingQuantity := rmnQty
      rawCode := Dict.get item "ORD_DVSN" (.str "")
      rawMessage := Dict.get item "ORD_TMD" (.str "") }
  | _ => .error (.other "AttributeError")

namespace KISRestClient

variable (client : KISRestClient)

/-- `_resolve_ccld_policy`: the limits on pages and records. -/
def resolveCcldPolicy (afterHours : Bool) : Nat × Nat :=
  if afterHours then if client.env = "live" then (3, 300) else (3, 45)
  else if client.env = "live" then (10, 1000) else (10, 150)

/-- What a settlement inquiry asks for. -/
structure CcldQuery where
  brokerOrderId : Option String := none
  symbol : Option String := none
  orderSide : Option OrderSide := none
  bucket : BucketType := .inquiry

def sideCode : OrderSide → String
  | .sell => "01"
  | .buy => "02"

def ccldCall (query : CcldQuery) (strtDt endDt ctxFk ctxNk : String) : Call where
  method := .get
  endpointKey := "inquire_daily_ccld"
  trIdKey := "inquire_daily_ccld"
  bucket := query.bucket
  params := [("CANO", client.accountNumber), ("ACNT_PRDT_CD", client.accountProductCode),
    ("INQR_STRT_DT", strtDt), ("INQR_END_DT", endDt),
    ("SLL_BUY_DVSN_CD", match query.orderSide with
      | some side => sideCode side
      | none => "00"),
    ("INQR_DVSN", "00"), ("PDNO", query.symbol.getD ""), ("ORD_GNO_BRNO", "00000"),
    ("CCLD_DVSN", "00"), ("INQR_DVSN_1", ""), ("INQR_DVSN_3", "00"), ("EXCG_ID_DVSN_CD", "KRX"),
    ("ORD_GUBUN", "00"), ("ORD_SRT_DVSN", "01"), ("CTX_AREA_FK100", ctxFk),
    ("CTX_AREA_NK100", ctxNk)] ++
    (match query.brokerOrderId with
      | some odno => if odno = "" then [] else [("ODNO", odno)]
      | none => [])

/-- The pages of the inquiry, `left` of them at most. -/
def ccldPages (query : CcldQuery) (skipGlobalRest : Bool) (strtDt endDt : String)
    (maxRecords : Nat) : Nat → String × String → List Json → RestCode (List Json)
  | 0, _, rows => .ret rows
  | left + 1, (ctxFk, ctxNk), rows => do
    let data ← client.request (client.ccldCall query strtDt endDt ctxFk ctxNk) skipGlobalRest
    let output ← orRaises (outputRows data)
    let rows := rows ++ output
    let keys := extractContinuationKeys data
    if keys.1 = "" ∨ keys.2 = "" then return rows
    else if rows.length ≥ maxRecords then return rows
    else
      perform (.sleep 1)
      ccldPages query skipGlobalRest strtDt endDt maxRecords left keys rows

/-- A filter on a field that applies when its value is given. -/
def filterBy (field : String) (expected : Option String) (rows : List Json) :
    Except PyError (List Json) :=
  match expected with
  | some text => keepRows field text rows
  | none => .ok rows

/-- The rows that match the query. -/
def filterRows (query : CcldQuery) (rows : List Json) : Except PyError (List Json) := do
  let rows ← filterBy "ODNO" query.brokerOrderId rows
  let rows ← filterBy "PDNO" query.symbol rows
  filterBy "SLL_BUY_DVSN_CD" (query.orderSide.map sideCode) rows

def inquireDailyCcld (query : CcldQuery) (strtDt endDt : Option String) (afterHours : Bool)
    (skipGlobalRest : Bool) : RestCode (List Json) := do
  let today := kstDate (← perform .now)
  let (maxPages, maxRecords) := client.resolveCcldPolicy afterHours
  let rows ← client.ccldPages query skipGlobalRest (orText strtDt today) (orText endDt today)
    maxRecords maxPages ("", "") []
  orRaises (filterRows query rows)

def reserveReconciliation : RestCode Unit :=
  if client.hasBudgetManager then do
    let reserved ← perform .reserveReconciliationOrRaise
    orRaises reserved
  else .ret ()

/-- The reconciliation reserve is charged before a request is repeated without the global
bucket. -/
def onBudgetExhausted {α : Type} (retry : RestCode α) : PyError → RestCode α
  | .budgetExhausted _ => do
    client.reserveReconciliation
    retry
  | e => .raise e

def requestWithFallback (call : Call) : RestCode Dict :=
  (client.request call false).handle (client.onBudgetExhausted (client.request call true))

def balanceCall : Call where
  method := .get
  endpointKey := "inquire_balance"
  trIdKey := "inquire_balance"
  bucket := .inquiry
  params := [("CANO", client.accountNumber), ("ACNT_PRDT_CD", client.accountProductCode),
    ("AFHR_FLPR_YN", "N"), ("OFL_YN", ""), ("INQR_DVSN", "01"), ("UNPR_DVSN", "01"),
    ("FUND_STTL_ICLD_YN", "N"), ("FNCG_AMT_AUTO_RDPT_YN", "N"), ("PRCS_DVSN", "01"),
    ("COST_ICLD_YN", "N")]

/-- `value == symbol`, where an absent symbol equals an absent value. -/
def equalsSymbol (value : Json) (symbol : Option String) : Bool :=
  match symbol with
  | some s => value.isText s
  | none => value.isNull

/-- The first holding with the symbol, or the answer that nothing was found. -/
def resolveFromPositions (brokerOrderId : String) (symbol : Option String) :
    List Json → Except PyError OrderStatusResult
  | [] => .ok {
      clientOrderId := none
      brokerOrderId := .str brokerOrderId
      status := .reconcileRequired
      filledQuantity := zero
      remainingQuantity := zero
      rawCode := .str ""
      rawMessage := .str "Order not found in daily settlement or positions" }
  | pos :: positions => do
    let pdno ← pos.get "PDNO" .null
    if equalsSymbol pdno symbol then
      let quantity ← pos.get "CCLD_QTY" (.str "0")
      let filled ← quantity.toDecimal
      let rawCode ← pos.get "PDNO" (.str "")
      return {
        clientOrderId := none
        brokerOrderId := .str brokerOrderId
        status := .filled
        filledQuantity := filled
        remainingQuantity := zero
        rawCode := rawCode
        rawMessage := .str "Resolved from position inquiry" }
    else resolveFromPositions brokerOrderId symbol positions

/-- The settlement rows of the order, under the reconciliation budget. -/
def settlementRecords (query : CcldQuery) (orderCreatedAt : Option Time) :
    RestCode (List Json) := do
  let (strtDt, endDt) ← period
  let inquire := client.inquireDailyCcld { query with bucket := .reconciliation }
      (some strtDt) endDt
    true
  (inquire false).handle (client.onBudgetExhausted (inquire true))
where
  period : RestCode (String × Option String) :=
    match orderCreatedAt with
    | some t => .ret (kstDate t, some (kstDate t))
    | none => do
      let now ← perform .now
      return (kstDate (now - 7 * 86400000000), none)

/-- The holdings; a broker error or an exhausted budget counts as no holdings. -/
def balancePositions : RestCode (List Json) := do
  let data ← (client.requestWithFallback client.balanceCall).handle fun
    | .broker _ => .ret [("output", .arr [])]
    | .budgetExhausted _ => .ret [("output", .arr [])]
    | e => .raise e
  orRaises (outputRows data)

/-- The answer by the settlement rows of the order, or else by the holdings. -/
def resolveFromRecords (brokerOrderId : String) (symbol : Option String) (records : List Json) :
    RestCode OrderStatusResult := do
  match ← orRaises (findOdno brokerOrderId records) with
  | some item => orRaises (parseOrderStatusItem item none)
  | none =>
    let positions ← client.balancePositions
    orRaises (resolveFromPositions brokerOrderId symbol positions)

/-- An empty symbol counts as none. -/
def unknownStateQuery (brokerOrderId : String) (symbol : Option String)
    (orderSide : Option OrderSide) : CcldQuery where
  brokerOrderId := some brokerOrderId
  symbol := symbol.filter (· ≠ "")
  orderSide := orderSide

def resolveUnknownState (brokerOrderId : String) (symbol : Option String)
    (orderSide : Option OrderSide) (orderCreatedAt : Option Time) : RestCode OrderStatusResult := do
  let query := unknownStateQuery brokerOrderId symbol orderSide
  let records ← client.settlementRecords query orderCreatedAt
  client.resolveFromRecords brokerOrderId query.symbol records

end KISRestClient

end AgentTrading.Kis
