import AgentTrading.Brokers.RateLimit
import AgentTrading.Kis.Json
import AgentTrading.Library.Program

/-! The REST client: its shared state, the operations between which other tasks may run, and
the request helper that every endpoint goes through. -/
namespace AgentTrading.Kis
open Domain Brokers Library

inductive Method where
  | get
  | post
  deriving DecidableEq, Repr

structure HttpRequest where
  method : Method
  url : String
  headers : List (String × String)
  params : List (String × String) := []
  body : Option Dict := none

/-- `body` is absent when it is not JSON. -/
structure Response where
  statusCode : Nat
  body : Option Json

/-- The exceptions of the HTTP client; a timeout is also a request error but is caught
first. -/
inductive HttpError where
  | timeout
  | request (message : String)
  | runtime
  | other (className : String)
  deriving DecidableEq

def HttpError.raised : HttpError → PyError
  | timeout => .other "TimeoutException"
  | request _ => .other "RequestError"
  | runtime => .other "RuntimeError"
  | other c => .other c

/-- What the tasks of one process share. The times of the token and of the pacing are
seconds. -/
structure Session where
  budget : RateLimitBudgetManager
  breaker : CircuitBreaker := {}
  accessToken : Json := .null
  tokenExpiresAt : ℚ := 0
  lastAuthCallTime : ℚ := 0
  paperLastGlobalRestTime : ℚ := 0

inductive RestOp where
  | now
  | monotonic
  | sleep (seconds : ℚ)
  | consumeOrRaise (bucket : BucketType) (skipGlobalRest heldPositionSell : Bool)
  | globalRestInterval
  | globalRestTryConsume
  | release (bucket : BucketType) (skipGlobalRest : Bool)
  | reserveReconciliationOrRaise
  | circuitState
  | recordSuccess
  | recordFailure
  | paperLastGlobalRestTime
  | setPaperLastGlobalRestTime (seconds : ℚ)
  | accessToken
  | tokenCacheLoad
  | setAccessToken (token : Json)
  | setTokenExpiresAt (seconds : ℚ)
  | lastAuthCallTime
  | setLastAuthCallTime (seconds : ℚ)
  | tokenCacheSave (token : Json) (expiresIn : Int)
  | tokenCacheInvalidate
  | send (request : HttpRequest)

abbrev RestReply : RestOp → Type
  | .now => Time
  | .monotonic => ℚ
  | .sleep _ => Unit
  | .consumeOrRaise .. => Except PyError Unit
  | .globalRestInterval => Option ℚ
  | .globalRestTryConsume => Bool
  | .release .. => Unit
  | .reserveReconciliationOrRaise => Except PyError Unit
  | .circuitState => CircuitState
  | .recordSuccess => Unit
  | .recordFailure => Unit
  | .paperLastGlobalRestTime => ℚ
  | .setPaperLastGlobalRestTime _ => Unit
  | .accessToken => Json × ℚ
  | .tokenCacheLoad => Option String
  | .setAccessToken _ => Unit
  | .setTokenExpiresAt _ => Unit
  | .lastAuthCallTime => ℚ
  | .setLastAuthCallTime _ => Unit
  | .tokenCacheSave .. => Unit
  | .tokenCacheInvalidate => Unit
  | .send _ => Except HttpError Response

abbrev RestCode (α : Type) := Program RestOp RestReply PyError α

/-- What happens around one operation: the readings of the clocks, the token on file, and
what the other tasks have done to the shared state since the last one. -/
structure Interlude where
  clock : Nat → Time
  monotonic : ℚ
  cachedToken : Option String := none
  others : Session → Session := id

/-- The surroundings of one call. `outcomes url n` is how the HTTP client ends the call's
`n`-th request to `url` from here on. -/
structure World where
  outcomes : String → Nat → Except HttpError Response
  interludes : Nat → Interlude
  session : Session

def World.enter (w : World) : World :=
  { w with
    interludes := fun n => w.interludes (n + 1)
    session := (w.interludes 0).others w.session }

def World.receive (w : World) (url : String) : World :=
  { w with outcomes := fun u n => if u = url then w.outcomes u (n + 1) else w.outcomes u n }

def releaseTokens (m : RateLimitBudgetManager) (type : BucketType) (skipGlobalRest : Bool)
    (clock : Nat → Time) : RateLimitBudgetManager :=
  let m := match m.bucket type with
    | .ok b => m.setBucket type (b.release 1 (clock 0))
    | .error _ => m
  if skipGlobalRest then m
  else { m with globalRest := m.globalRest.map (·.release 1 (clock 1)) }

/-- One operation after the others have had their turn. -/
def restRespond (i : Interlude) (op : RestOp) (w : World) : RestReply op × World :=
  let s := w.session
  match op with
  | .now => (i.clock 0, w)
  | .monotonic => (i.monotonic, w)
  | .sleep _ => ((), w)
  | .consumeOrRaise bucket skip held =>
    match s.budget.consumeOrRaise bucket 1 skip held i.clock with
    | (r, m) => (r, { w with session := { s with budget := m } })
  | .globalRestInterval => (s.budget.globalRest.map fun _ => s.budget.pollInterval, w)
  | .globalRestTryConsume =>
    match s.budget.pollGlobal 1 (i.clock 0) with
    | (r, m) => (r, { w with session := { s with budget := m } })
  | .release bucket skip =>
    ((), { w with session := { s with budget := releaseTokens s.budget bucket skip i.clock } })
  | .reserveReconciliationOrRaise =>
    match s.budget.reserveReconciliationOrRaise 1 (i.clock 0) with
    | (r, m) => (r, { w with session := { s with budget := m } })
  | .circuitState =>
    let b := s.breaker.checkTimeout i.monotonic
    (b.state, { w with session := { s with breaker := b } })
  | .recordSuccess => ((), { w with session := { s with breaker := s.breaker.recordSuccess } })
  | .recordFailure =>
    ((), { w with session := { s with breaker := s.breaker.recordFailure i.monotonic } })
  | .paperLastGlobalRestTime => (s.paperLastGlobalRestTime, w)
  | .setPaperLastGlobalRestTime t =>
    ((), { w with session := { s with paperLastGlobalRestTime := t } })
  | .accessToken => ((s.accessToken, s.tokenExpiresAt), w)
  | .tokenCacheLoad => (i.cachedToken, w)
  | .setAccessToken token => ((), { w with session := { s with accessToken := token } })
  | .setTokenExpiresAt t => ((), { w with session := { s with tokenExpiresAt := t } })
  | .lastAuthCallTime => (s.lastAuthCallTime, w)
  | .setLastAuthCallTime t => ((), { w with session := { s with lastAuthCallTime := t } })
  | .tokenCacheSave .. => ((), w)
  | .tokenCacheInvalidate =>
    ((), { w with session := { s with accessToken := .null, tokenExpiresAt := 0 } })
  | .send request => (w.outcomes request.url 0, w.receive request.url)

def restExec (op : RestOp) (w : World) : RestReply op × World :=
  restRespond (w.interludes 0) op w.enter

def tokenExpiredCodes : List String := ["EGW00101", "EGW00123"]

def rateLimitErrorCodes : List String := ["EGW00160", "EGW00201", "EGW00215"]

/-- The fifty `OPR` codes are numbered through. -/
def ambiguousErrorCodes : List String :=
  ["EGW00125", "EGW00150", "EGW00220", "EGW00300", "EGW00301", "EGW00302", "EGW00303",
    "EGW00304", "EGW00305", "EGW00310", "EGW00311", "EGW00312", "EGW00320", "EGW00330",
    "EGW00331", "EGW00332", "EGW00333", "EGW00340", "EGW00350", "EGW00400", "EGW00401",
    "EGW00402", "EGW00403", "EGW00404", "EGW00405", "EGW00410", "EGW00411", "EGW00420",
    "EGW00430", "EGW00431", "EGW00432", "EGW00500", "EGW00501", "EGW00502", "EGW00503",
    "EGW00510", "EGW00511", "EGW00512"] ++
  (List.range 50).map fun i => "OPR000" ++ (if i < 9 then "0" else "") ++ toString (i + 1)

def knownFailureCodes : List String :=
  ["EGW00100", "EGW00101", "EGW00102", "EGW00103", "EGW00110", "EGW00120", "EGW00121",
    "EGW00122", "EGW00130", "EGW00140", "EGW00160", "EGW00200", "EGW00201", "EGW00210",
    "EGW00211", "EGW00212", "EGW00213", "EGW00214", "EGW00321", "EGW00322", "EGW00323",
    "EGW00324", "EGW00421", "EGW00422", "EGW00504", "40270000"]

def isRateLimitError (msgCd rtCd msg : Json) : Except PyError Bool := do
  let normalized ← if msg.truthy then
      match msg with
      | .str s => .ok (strip s.toList)
      | _ => .error (.other "AttributeError")
    else .ok []
  if containsText normalized "초당 거래건수".toList || containsText normalized "호출수초과".toList ||
      containsText (normalized.map lowerChar) "too many requests".toList then
    return true
  else if ← msgCd.isIn rateLimitErrorCodes then return true
  else rtCd.isIn rateLimitErrorCodes

def kisError (type : BrokerErrorType) (retryable : Bool) (rawMessage : String)
    (rawCode : Option String := none) : PyError :=
  .broker {
    brokerName := .koreaInvestment
    errorType := type
    retryable := retryable
    rawCode := rawCode
    rawMessage := some rawMessage }

/-- `TokenExpiredError`. -/
def tokenExpired (endpoint : String) (msgCd msg : Json) : PyError :=
  .broker {
    className := "TokenExpiredError"
    brokerName := .koreaInvestment
    errorType := .apiError
    retryable := true
    rawMessage := some ("KIS " ++ endpoint ++ ": token expired (msg_cd=" ++ msgCd.text ++ "): " ++
      msg.text) }

def PyError.isTokenExpired : PyError → Bool
  | .broker e => e.className = "TokenExpiredError"
  | _ => false

def inEither (msgCd rtCd : Json) (codes : List String) : Except PyError Bool := do
  if ← msgCd.isIn codes then return true else rtCd.isIn codes

/-- The exception an error response is turned into, or the one raised on the way there. -/
def errorOf (endpoint : String) (msgCd rtCd msg : Json) (fallback : String) : PyError :=
  match classify with
  | .ok e => e
  | .error e => e
where
  codes : String := "(msg_cd=" ++ msgCd.text ++ ", rt_cd=" ++ rtCd.text ++ "): " ++ msg.text
  classify : Except PyError PyError := do
    if ← inEither msgCd rtCd tokenExpiredCodes then
      return tokenExpired endpoint msgCd msg
    else if ← isRateLimitError msgCd rtCd msg then
      return kisError .rateLimit true ("KIS " ++ endpoint ++ ": rate limit " ++ codes)
        (some (if msgCd.truthy then msgCd.text else rtCd.text))
    else if ← inEither msgCd rtCd ambiguousErrorCodes then
      return kisError .apiError false ("KIS " ++ endpoint ++ ": ambiguous state " ++ codes)
    else if ← inEither msgCd rtCd knownFailureCodes then
      return kisError .orderRejected false ("KIS " ++ endpoint ++ ": known failure " ++ codes)
    else
      return kisError .apiError false fallback

/-- `_raise_on_error`. Both kinds of check start by reading a key of the body. -/
def raiseOnError (resp : Response) (endpoint : String) : Except PyError Dict :=
  match resp.body with
  | none => .error (kisError .apiError false
      ("KIS " ++ endpoint ++ ": non-JSON response (HTTP " ++ toString resp.statusCode ++ ")"))
  | some (.obj data) =>
    let msg := Dict.get data "msg1" (Dict.get data "msg" (.str ""))
    if resp.statusCode ≥ 400 then
      let msgCd := Dict.get data "msg_cd" (.str "")
      let errorCode := Dict.get data "error_code" (.str "")
      let errorDescription := Dict.get data "error_description" (.str "")
      let msgCd := if errorCode.truthy && !msgCd.truthy then errorCode else msgCd
      let msg := if errorDescription.truthy && !msg.truthy then errorDescription else msg
      .error (errorOf endpoint msgCd (Dict.get data "rt_cd" (.str "")) msg
        ("KIS " ++ endpoint ++ ": HTTP " ++ toString resp.statusCode ++ " (msg_cd=" ++ msgCd.text ++
          "): " ++ msg.text))
    else
      let rtCd := Dict.get data "rt_cd" (.str "0")
      let msgCd := Dict.get data "msg_cd" (.str "")
      if rtCd.isText "0" then .ok data
      else .error (errorOf endpoint msgCd rtCd msg
        ("KIS " ++ endpoint ++ ": business error (rt_cd=" ++ rtCd.text ++ ", msg_cd=" ++
          msgCd.text ++ "): " ++ msg.text))
  | some _ => .error (.other "AttributeError")

/-- `_normalize_response`. A key `output` of the body replaces the one made from
`output1`. -/
def normalizeResponse (data : Dict) : Dict :=
  match data.lookup "output1" with
  | none => data
  | some output1 =>
    let result := [("output", output1)] ++
      (match data.lookup "output2" with
        | some output2 => [("output2", output2)]
        | none => [])
    data.foldl (fun result item =>
      if item.1 = "output1" ∨ item.1 = "output2" then result
      else Dict.set result item.1 item.2) result

/-- `hasBudgetManager` says whether the client was given one; `signature` is the hash key of
a body under the client's secret. -/
structure KISRestClient where
  apiKey : String
  apiSecret : String
  accountNumber : String
  accountProductCode : String
  env : String := "paper"
  hasBudgetManager : Bool := false
  signature : Dict → String

def kisEndpoints : List (String × String) := [
  ("oauth2_token", "/oauth2/tokenP"),
  ("oauth2_approval", "/oauth2/Approval"),
  ("order_cash", "/uapi/domestic-stock/v1/trading/order-cash"),
  ("order_rvsecncl", "/uapi/domestic-stock/v1/trading/order-rvsecncl"),
  ("inquire_balance", "/uapi/domestic-stock/v1/trading/inquire-balance"),
  ("inquire_psbl_order", "/uapi/domestic-stock/v1/trading/inquire-psbl-order"),
  ("inquire_psbl_sell", "/uapi/domestic-stock/v1/trading/inquire-psbl-sell"),
  ("inquire_daily_ccld", "/uapi/domestic-stock/v1/trading/inquire-daily-ccld"),
  ("inquire_psbl_rvsecncl", "/uapi/domestic-stock/v1/trading/inquire-psbl-rvsecncl"),
  ("inquire_price", "/uapi/domestic-stock/v1/quotations/inquire-price"),
  ("inquire_daily_itemchartprice",
    "/uapi/domestic-stock/v1/quotations/inquire-daily-itemchartprice"),
  ("inquire_daily_price", "/uapi/domestic-stock/v1/quotations/inquire-daily-price"),
  ("search_stock_info", "/uapi/domestic-stock/v1/quotations/search-stock-info"),
  ("inquire_asking_price_exp_ccn",
    "/uapi/domestic-stock/v1/quotations/inquire-asking-price-exp-ccn"),
  ("inquire_index_category_price",
    "/uapi/domestic-stock/v1/quotations/inquire-index-category-price"),
  ("ranking_volume", "/uapi/domestic-stock/v1/quotations/volume-rank"),
  ("ranking_volume_power", "/uapi/domestic-stock/v1/ranking/volume-power"),
  ("disclosure_title", "/uapi/domestic-stock/v1/quotations/news-title")]

/-- The identifiers of a transaction in the live and the paper environment. -/
def kisTrIds : List (String × String × Option String) := [
  ("order_buy", "TTTC0012U", some "VTTC0012U"),
  ("order_sell", "TTTC0011U", some "VTTC0011U"),
  ("order_rvsecncl", "TTTC0013U", some "VTTC0013U"),
  ("inquire_daily_ccld", "TTTC0081R", some "VTTC0081R"),
  ("inquire_balance", "TTTC8434R", some "VTTC8434R"),
  ("inquire_psbl_order", "TTTC8908R", some "VTTC8908R"),
  ("inquire_psbl_sell", "TTTC8408R", none),
  ("inquire_price", "FHKST01010100", some "FHKST01010100"),
  ("inquire_daily_itemchartprice", "FHKST03010100", some "FHKST03010100"),
  ("inquire_daily_price", "FHKST01010400", some "FHKST01010400"),
  ("search_stock_info", "CTPF1002R", none),
  ("inquire_asking_price_exp_ccn", "FHKST01010200", some "FHKST01010200"),
  ("inquire_index_category_price", "FHPUP02140000", none),
  ("ranking_volume", "FHPST01710000", none),
  ("ranking_volume_power", "FHPST01680000", none),
  ("disclosure_title", "FHKST01011800", none)]

def endpointUrl (endpointKey : String) : Except PyError String :=
  match kisEndpoints.lookup endpointKey with
  | some url => .ok url
  | none => .error (.other "KeyError")

def perform (op : RestOp) : RestCode (RestReply op) := Program.perform op

def orRaises {α : Type} : Except PyError α → RestCode α
  | .ok a => .ret a
  | .error e => .raise e

/-- Wall-clock seconds. -/
def seconds (t : Time) : ℚ := t / 1000000

namespace KISRestClient

variable (client : KISRestClient)

def getTrId (key : String) : Except PyError String :=
  match kisTrIds.lookup key with
  | none => .error (kisError .invalidRequest false ("Unknown TR ID key: " ++ key))
  | some (liveTr, paperTr) =>
    if client.env = "paper" then
      match paperTr with
      | some tr => .ok tr
      | none => .error (kisError .invalidRequest false
          ("TR ID " ++ key ++ " not available in " ++ client.env ++ " environment"))
    else .ok liveTr

/-- The end of `authenticate`: a new token from the service. -/
def requestToken (wall mono : ℚ) : RestCode Json := do
  let url ← orRaises (endpointUrl "oauth2_token")
  let outcome ← perform (.send {
    method := .post
    url := url
    headers := []
    body := some [("grant_type", .str "client_credentials"), ("appkey", .str client.apiKey),
      ("appsecret", .str client.apiSecret)] })
  match outcome with
  | .error e => .raise e.raised
  | .ok resp =>
    let data ← orRaises (raiseOnError resp "oauth2_token")
    let token ← orRaises (data.getItem "access_token")
    perform (.setAccessToken token)
    let expiresIn ← orRaises (data.get "expires_in" (.int 86400)).toInt
    perform (.setTokenExpiresAt (wall + expiresIn - 300))
    perform (.setLastAuthCallTime mono)
    perform (.tokenCacheSave token expiresIn)
    return token

/-- Two requests for a token are at least a second apart. -/
def freshToken (wall : ℚ) : RestCode Json := do
  let mono ← perform .monotonic
  let last ← perform .lastAuthCallTime
  if last > 0 ∧ mono - last < 1 then
    perform (.sleep (1 - (mono - last)))
    let mono ← perform .monotonic
    client.requestToken wall mono
  else client.requestToken wall mono

def authenticate : RestCode Json := do
  let wall := seconds (← perform .now)
  let (token, expiresAt) ← perform .accessToken
  if !token.isNull && wall < expiresAt then
    return token
  else
    match ← cachedToken token with
    | some t =>
      perform (.setAccessToken (.str t))
      perform (.setTokenExpiresAt (wall + 86400 - 300))
      return .str t
    | none => client.freshToken wall
where
  cachedToken (token : Json) : RestCode (Option String) :=
    if token.isNull then perform .tokenCacheLoad else .ret none

def buildHeaders (trId : String) (trCont : Option String) :
    RestCode (List (String × String)) := do
  let token ← client.authenticate
  return [("content-type", "application/json; charset=utf-8"),
    ("authorization", "Bearer " ++ token.text), ("appkey", client.apiKey),
    ("appsecret", client.apiSecret), ("tr_id", trId), ("custtype", "P")] ++
    (match trCont with
      | some c => [("tr_cont", c)]
      | none => [])

def pacePaperGlobalRest : RestCode Unit := do
  let now ← perform .monotonic
  let last ← perform .paperLastGlobalRestTime
  if last > 0 ∧ now - last < 1 then
    perform (.sleep (1 - (now - last)))
    let now ← perform .monotonic
    perform (.setPaperLastGlobalRestTime now)
  else perform (.setPaperLastGlobalRestTime now)

/-- The loop of `wait_until_global_rest_available`. Each poll but the last sleeps for at
least 0.05 seconds, so that no more than 600 of them come before the deadline. -/
def pollGlobalRest (interval : ℚ) (deadline : Time) : Nat → RestCode Unit
  | 0 => do
    if ← perform .globalRestTryConsume then return ()
    else .raise (.budgetExhausted "global")
  | polls + 1 => do
    if ← perform .globalRestTryConsume then return ()
    else
      let now ← perform .now
      if now ≥ deadline then .raise (.budgetExhausted "global")
      else
        perform (.sleep interval)
        pollGlobalRest interval deadline polls

def waitUntilGlobalRestAvailable : RestCode Unit := do
  match ← perform .globalRestInterval with
  | none => return ()
  | some interval =>
    let now ← perform .now
    pollGlobalRest interval (now + 30000000) 600

/-- The budget loop of `_request`, with the value of `skip_global_rest` it ends with. Only
the global bucket is waited for, and the wait has then charged it. -/
def consumeBudget (bucket : BucketType) (heldPositionSell : Bool) :
    Nat → Bool → RestCode Bool
  | 0, skipGlobalRest => attempt skipGlobalRest (.raise (.budgetExhausted "global"))
  | left + 1, skipGlobalRest => attempt skipGlobalRest do
    waitUntilGlobalRestAvailable
    consumeBudget bucket heldPositionSell left true
where
  attempt (skipGlobalRest : Bool) (onGlobal : RestCode Bool) : RestCode Bool := do
    match ← perform (.consumeOrRaise bucket skipGlobalRest heldPositionSell) with
    | .ok () => return skipGlobalRest
    | .error (.budgetExhausted b) => if b = "global" then onGlobal else .raise (.budgetExhausted b)
    | .error e => .raise e

/-- One endpoint call as `_request` receives it. -/
structure Call where
  method : Method
  endpointKey : String
  trIdKey : String
  bucket : BucketType
  body : Option Dict := none
  params : List (String × String) := []
  requiresHashkey : Bool := false
  heldPositionSell : Bool := false
  trCont : Option String := none

/-- Steps 2 and 3: the circuit breaker, the headers and the hash key. -/
def buildRequest (call : Call) : RestCode HttpRequest := do
  if (← perform .circuitState) = .opened then
    .raise (kisError .apiError false ("KIS circuit breaker open for " ++ call.endpointKey))
  else
    let headers ← signedHeaders
    let url ← orRaises (endpointUrl call.endpointKey)
    return {
      method := call.method
      url := url
      headers := headers
      params := call.params
      body := call.body }
where
  hashkey : List (String × String) :=
    match call.body with
    | some body =>
      if call.requiresHashkey && !body.isEmpty then [("hashkey", client.signature body)] else []
    | none => []
  signedHeaders : RestCode (List (String × String)) := do
    let trId ← orRaises (client.getTrId call.trIdKey)
    let headers ← client.buildHeaders trId call.trCont
    return headers ++ hashkey

/-- Step 4: the request is sent again, up to `left` times, when it times out. -/
def transmit (endpointKey : String) (request : HttpRequest) : Nat → RestCode Response
  | 0 => attempt do
    perform .recordFailure
    .raise (kisError .timeout true ("KIS " ++ endpointKey ++ ": timeout after 3 attempts"))
  | left + 1 => attempt do
    perform (.sleep (2 ^ (1 - left)))
    transmit endpointKey request left
where
  attempt (onTimeout : RestCode Response) : RestCode Response := do
    match ← perform (.send request) with
    | .ok resp => return resp
    | .error .timeout => onTimeout
    | .error (.request e) =>
      perform .recordFailure
      .raise (kisError .networkError true ("KIS " ++ endpointKey ++ ": network error: " ++ e))
    | .error .runtime => .raise (.other "RuntimeError")
    | .error (.other c) => .raise (.other c)

def maxReauthAttempts : BucketType → Nat
  | .inquiry => 2
  | .marketData => 2
  | .reconciliation => 2
  | _ => 1

/-- Step 5: an expired token is renewed and the request sent again, up to `left` times. -/
def decode (call : Call) (request : HttpRequest) : Nat → Response → RestCode Dict
  | 0, resp => accept resp .raise
  | left + 1, resp => accept resp fun e =>
    if PyError.isTokenExpired e then do
      let resp ← resend
      decode call request left resp
    else .raise e
where
  accept (resp : Response) (onError : PyError → RestCode Dict) : RestCode Dict :=
    match raiseOnError resp call.endpointKey with
    | .ok data => do
      perform .recordSuccess
      return normalizeResponse data
    | .error e => onError e
  resend : RestCode Response := do
    perform .tokenCacheInvalidate
    let _ ← client.authenticate
    let headers ← buildRequest.signedHeaders client call
    match ← perform (.send { request with headers := headers }) with
    | .ok resp => return resp
    | .error .timeout => .raise (kisError .timeout false
        ("KIS " ++ call.endpointKey ++ ": timeout during reauth retry"))
    | .error (.request e) =>
      perform .recordFailure
      .raise (kisError .networkError true
        ("KIS " ++ call.endpointKey ++ ": network error during reauth retry: " ++ e))
    | .error e => .raise e.raised

/-- Steps 2 to 5. -/
def exchange (call : Call) : RestCode Dict := do
  let request ← client.buildRequest call
  let resp ← transmit call.endpointKey request 2
  client.decode call request (maxReauthAttempts call.bucket - 1) resp

/-- Paper requests other than orders are paced here; orders are paced by their caller. -/
def pacing (call : Call) (skipGlobalRest : Bool) : RestCode Unit :=
  if client.env = "paper" ∧ skipGlobalRest = false ∧ call.bucket ≠ .order then
    pacePaperGlobalRest
  else .ret ()

/-- The exchange under the budget, whose tokens are given back when it raises. -/
def budgetedExchange (call : Call) (skipGlobalRest : Bool) : RestCode Dict :=
  if client.hasBudgetManager then do
    let skipGlobalRest ← consumeBudget call.bucket call.heldPositionSell 2 skipGlobalRest
    (client.exchange call).handle fun e => do
      perform (.release call.bucket skipGlobalRest)
      .raise e
  else client.exchange call

def request (call : Call) (skipGlobalRest : Bool) : RestCode Dict := do
  client.pacing call skipGlobalRest
  client.budgetedExchange call skipGlobalRest

end KISRestClient

end AgentTrading.Kis
