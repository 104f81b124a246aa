import AgentTrading.Kis.RestClient

/-! `submit_order` of the REST client, and how often one call sends the order. The timeout
loop of the request helper does not look at the bucket, so an order whose first POST times
out is sent again. -/
namespace AgentTrading.Kis
open Domain Brokers Library

def mapOrderStyle : Domain.OrderType → TimeInForce → String
  | .limit, .ioc => "11"
  | .limit, .fok => "12"
  | .limit, .day => "00"
  | .market, .ioc => "13"
  | .market, .fok => "14"
  | .market, .day => "01"
  | .stop, _ => "02"
  | .stopLimit, _ => "03"

variable (decimalText : ℚ → String)

/-- `_format_order_quantity`. Its `normalize()` rounds from the twenty-ninth digit on; a stored
quantity has at most twenty-four, of which it takes away trailing zeros only. -/
def formatOrderQuantity (quantity : ℚ) : Except PyError String :=
  if quantity ≤ 0 then
    .error (.valueError ("Order quantity must be positive, got " ++ decimalText quantity))
  else if quantity.den ≠ 1 then
    .error (.valueError ("Order quantity must be a whole share, got " ++ decimalText quantity))
  else .ok (toString quantity.num)

namespace KISRestClient

variable (client : KISRestClient)

def orderCall (request : SubmitOrderRequest) (quantity : String) (heldPositionSell : Bool) :
    Call where
  method := .post
  endpointKey := "order_cash"
  trIdKey := if request.side = .buy then "order_buy" else "order_sell"
  bucket := .order
  body := some [("CANO", .str client.accountNumber),
    ("ACNT_PRDT_CD", .str client.accountProductCode), ("PDNO", .str request.symbol),
    ("ORD_DVSN", .str (mapOrderStyle request.orderType request.timeInForce)),
    ("ORD_QTY", .str quantity),
    ("ORD_UNPR", .str (match request.price with
      | some price => decimalText price
      | none => "0"))]
  requiresHashkey := true
  heldPositionSell := heldPositionSell

/-- The result read off the response to an order. -/
def submitted (request : SubmitOrderRequest) (data : Dict) : RestCode SubmitOrderResult := do
  let output := data.get "output" (.obj data)
  let odno ← orRaises (output.get "ODNO" (.str ""))
  let now ← perform .now
  let tmd ← orRaises (output.get "ORD_TMD" (.str ""))
  return {
    accepted := true
    brokerName := .koreaInvestment
    clientOrderId := request.clientOrderId
    brokerOrderId := if odno.text = "" then none else some odno.text
    brokerStatus := .submitted
    ackTimestamp := some now
    rawCode := some odno.text
    rawMessage := some tmd.text
    normalizedStatus := some .submitted
    uncertain := false
    requiresReconciliation := false }

def submitOrder (request : SubmitOrderRequest) (heldPositionSell : Bool) :
    RestCode SubmitOrderResult := do
  let quantity ← orRaises (formatOrderQuantity decimalText request.quantity)
  if client.env = "paper" then pacePaperGlobalRest
  let data ← client.request (orderCall decimalText client request quantity heldPositionSell) false
  submitted request data

end KISRestClient

def orderCashUrl : String := "/uapi/domestic-stock/v1/trading/order-cash"

@[simp] theorem endpointUrl_order_cash : endpointUrl "order_cash" = .ok orderCashUrl := by
  simp [endpointUrl, kisEndpoints, List.lookup_cons, orderCashUrl]

@[simp] theorem endpointUrl_oauth2_token : endpointUrl "oauth2_token" = .ok "/oauth2/tokenP" := by
  simp [endpointUrl, kisEndpoints]

def postsOrder (step : (op : RestOp) × RestReply op) : Bool :=
  match step.1 with
  | .send r => r.method = .post && r.url = orderCashUrl
  | _ => false

/-- The POSTs to the order endpoint in a run. -/
def orderPosts (steps : List ((op : RestOp) × RestReply op)) : Nat := steps.countP postsOrder

/-- Any operation but a request to the order endpoint. -/
def RestOp.Elsewhere : RestOp → Prop
  | .send r => r.url ≠ orderCashUrl
  | _ => True

/-- A program that sends nothing to the order endpoint. -/
def Elsewhere {α : Type} (p : RestCode α) : Prop := p.Only RestOp.Elsewhere fun _ => True

section Elsewhere

variable {α β : Type} {p : RestCode α}

theorem Elsewhere.bind {f : α → RestCode β} (hp : Elsewhere p) (hf : ∀ a, Elsewhere (f a)) :
    Elsewhere (p.bind f) :=
  Program.Only.bind hp (fun a _ => hf a) fun _ _ => trivial

theorem elsewhere_orRaises (x : Except PyError α) : Elsewhere (orRaises x) := by
  cases x <;> trivial

theorem elsewhere_perform {op : RestOp} (hop : op.Elsewhere) : Elsewhere (perform op) :=
  ⟨hop, fun _ => trivial⟩

theorem elsewhere_call {op : RestOp} {f : RestReply op → RestCode β} (hop : op.Elsewhere)
    (hf : ∀ r, Elsewhere (f r)) : Elsewhere ((perform op).bind f) :=
  ⟨hop, hf⟩

theorem Elsewhere.orderPosts_eq_zero (hp : Elsewhere p) (w : World) :
    orderPosts (p.trace restExec w) = 0 := by
  rw [orderPosts, List.countP_eq_zero]
  intro step hstep
  have helse := Program.Only.trace restExec hp w step hstep
  obtain ⟨op, r⟩ := step
  cases op with
  | send r => simp [postsOrder, RestOp.Elsewhere] at helse ⊢; simp [helse]
  | _ => simp [postsOrder]

theorem restExec_outcomes {op : RestOp} (hop : op.Elsewhere) (w : World) :
    (restExec op w).2.outcomes orderCashUrl = w.outcomes orderCashUrl := by
  cases op with
  | send r =>
    have hne : orderCashUrl ≠ r.url := Ne.symm hop
    funext n
    simp [restExec, restRespond, World.receive, World.enter, hne]
  | _ => rfl

theorem Elsewhere.outcomes (hp : Elsewhere p) (w : World) :
    (p.run restExec w).2.outcomes orderCashUrl = w.outcomes orderCashUrl := by
  refine Program.Only.run_keeps restExec (I := fun v => v.outcomes orderCashUrl = _) hp ?_ w rfl
  intro op v hop hv
  rw [restExec_outcomes hop, hv]

/-- Before the order is sent: only what follows can send it, and it meets the same
outcomes. -/
theorem Elsewhere.orderPosts_bind (hp : Elsewhere p) (f : α → RestCode β) (w : World) :
    orderPosts ((p.bind f).trace restExec w) =
      match p.run restExec w with
      | (.ok a, v) => orderPosts ((f a).trace restExec v)
      | (.error _, _) => 0 := by
  rw [Program.trace_bind, orderPosts, List.countP_append]
  have hzero := hp.orderPosts_eq_zero w
  rw [orderPosts] at hzero
  rw [hzero, Nat.zero_add]
  cases p.run restExec w with
  | mk r v => cases r <;> rfl

theorem orderPosts_bind_elsewhere (p : RestCode α) {f : α → RestCode β}
    (hf : ∀ a, Elsewhere (f a)) (w : World) :
    orderPosts ((p.bind f).trace restExec w) = orderPosts (p.trace restExec w) := by
  rw [Program.trace_bind, orderPosts, List.countP_append]
  split
  · next a v _ =>
    have hzero := (hf a).orderPosts_eq_zero v
    rw [orderPosts] at hzero
    rw [hzero]
    rfl
  · rfl

theorem orderPosts_handle_elsewhere (p : RestCode α) {f : PyError → RestCode α}
    (hf : ∀ e, Elsewhere (f e)) (w : World) :
    orderPosts ((p.handle f).trace restExec w) = orderPosts (p.trace restExec w) := by
  rw [Program.trace_handle, orderPosts, List.countP_append]
  split
  · rfl
  · next e v _ =>
    have hzero := (hf e).orderPosts_eq_zero v
    rw [orderPosts] at hzero
    rw [hzero]
    rfl

end Elsewhere

namespace KISRestClient

variable (client : KISRestClient)

theorem pacePaperGlobalRest_elsewhere : Elsewhere pacePaperGlobalRest := by
  refine elsewhere_call (by trivial) fun now => ?_
  refine elsewhere_call (by trivial) fun last => ?_
  split
  · refine elsewhere_call (by trivial) fun _ => ?_
    refine elsewhere_call (by trivial) fun _ => ?_
    exact elsewhere_perform (by trivial)
  · exact elsewhere_perform (by trivial)

theorem pollGlobalRest_elsewhere (interval : ℚ) (deadline : Time) (polls : Nat) :
    Elsewhere (pollGlobalRest interval deadline polls) := by
  induction polls with
  | zero =>
    refine elsewhere_call (by trivial) fun taken => ?_
    cases taken <;> trivial
  | succ polls ih =>
    refine elsewhere_call (by trivial) fun taken => ?_
    split
    · trivial
    · refine elsewhere_call (by trivial) fun now => ?_
      split
      · trivial
      · exact elsewhere_call (by trivial) fun _ => ih

theorem waitUntilGlobalRestAvailable_elsewhere : Elsewhere waitUntilGlobalRestAvailable := by
  refine elsewhere_call (by trivial) fun interval => ?_
  cases interval with
  | none => trivial
  | some interval =>
    exact elsewhere_call (by trivial) fun now => pollGlobalRest_elsewhere interval _ _

theorem consumeBudget_elsewhere (bucket : BucketType) (held : Bool) (left : Nat) (skip : Bool) :
    Elsewhere (consumeBudget bucket held left skip) := by
  have hattempt : ∀ (skip : Bool) {onGlobal : RestCode Bool}, Elsewhere onGlobal →
      Elsewhere (consumeBudget.attempt bucket held skip onGlobal) := by
    intro skip onGlobal hglobal
    refine elsewhere_call (by trivial) fun outcome => ?_
    cases outcome with
    | ok _ => trivial
    | error e =>
      cases e with
      | budgetExhausted b => dsimp only; split <;> trivial
      | _ => trivial
  induction left generalizing skip with
  | zero => exact hattempt skip trivial
  | succ left ih =>
    exact hattempt skip (waitUntilGlobalRestAvailable_elsewhere.bind fun _ => ih true)

theorem requestToken_elsewhere (wall mono : ℚ) : Elsewhere (client.requestToken wall mono) := by
  simp only [requestToken, endpointUrl_oauth2_token, orRaises, Program.bind_eq, Program.ret_bind]
  refine elsewhere_call (by simp [RestOp.Elsewhere, orderCashUrl]) fun outcome => ?_
  cases outcome with
  | error e => trivial
  | ok resp =>
    refine (elsewhere_orRaises _).bind fun data => ?_
    refine (elsewhere_orRaises _).bind fun token => ?_
    refine elsewhere_call (by trivial) fun _ => ?_
    refine (elsewhere_orRaises _).bind fun expiresIn => ?_
    refine elsewhere_call (by trivial) fun _ => ?_
    refine elsewhere_call (by trivial) fun _ => ?_
    exact elsewhere_call (by trivial) fun _ => trivial

theorem freshToken_elsewhere (wall : ℚ) : Elsewhere (client.freshToken wall) := by
  refine elsewhere_call (by trivial) fun mono => ?_
  refine elsewhere_call (by trivial) fun last => ?_
  split
  · refine elsewhere_call (by trivial) fun _ => ?_
    exact elsewhere_call (by trivial) fun mono => client.requestToken_elsewhere wall mono
  · exact client.requestToken_elsewhere wall mono

theorem authenticate_elsewhere : Elsewhere client.authenticate := by
  refine elsewhere_call (by trivial) fun now => ?_
  refine elsewhere_call (by trivial) fun token => ?_
  obtain ⟨token, expiresAt⟩ := token
  dsimp only
  split
  · trivial
  · have hcached : Elsewhere (authenticate.cachedToken token) := by
      unfold authenticate.cachedToken
      split
      · exact elsewhere_perform (by trivial)
      · trivial
    refine hcached.bind fun cached => ?_
    cases cached with
    | some t =>
      refine elsewhere_call (by trivial) fun _ => ?_
      exact elsewhere_call (by trivial) fun _ => trivial
    | none => exact client.freshToken_elsewhere _

theorem buildRequest_elsewhere (call : Call) : Elsewhere (client.buildRequest call) := by
  refine elsewhere_call (by trivial) fun state => ?_
  split
  · trivial
  · refine Elsewhere.bind ?_ fun headers => ?_
    · refine (elsewhere_orRaises _).bind fun trId => ?_
      refine Elsewhere.bind ?_ fun headers => trivial
      exact client.authenticate_elsewhere.bind fun token => trivial
    · exact (elsewhere_orRaises _).bind fun url => trivial

theorem decode_elsewhere (call : Call) (hbucket : call.bucket = .order) (request : HttpRequest)
    (resp : Response) :
    Elsewhere (client.decode call request (maxReauthAttempts call.bucket - 1) resp) := by
  rw [hbucket]
  show Elsewhere (decode.accept call resp .raise)
  unfold decode.accept
  split
  · exact elsewhere_call (by trivial) fun _ => trivial
  · trivial

theorem submitted_elsewhere (request : SubmitOrderRequest) (data : Dict) :
    Elsewhere (submitted request data) := by
  refine (elsewhere_orRaises _).bind fun odno => ?_
  refine elsewhere_call (by trivial) fun now => ?_
  exact (elsewhere_orRaises _).bind fun tmd => trivial

/-- The request an order call is built into goes to the order endpoint. -/
def SendsOrder (request : HttpRequest) : Prop :=
  request.method = .post ∧ request.url = orderCashUrl

theorem buildRequest_sendsOrder (request : SubmitOrderRequest) (quantity : String) (held : Bool) :
    (client.buildRequest (client.orderCall decimalText request quantity held)).Only (fun _ => True)
      fun r => ∀ built, r = .ok built → SendsOrder built := by
  refine ⟨trivial, fun state => ?_⟩
  simp only [Program.ret_bind]
  split
  · simp
  · refine Program.Only.bind (Program.only_true _) (fun headers _ => ?_) (by simp)
    simp [orderCall, orRaises, SendsOrder]

theorem attempt_orderPosts {request : HttpRequest} (hrequest : SendsOrder request) (key : String)
    (onTimeout : RestCode Response) (w : World) :
    orderPosts ((transmit.attempt key request onTimeout).trace restExec w) =
      match w.outcomes orderCashUrl 0 with
      | .error .timeout => 1 + orderPosts (onTimeout.trace restExec (restExec (.send request) w).2)
      | _ => 1 := by
  obtain ⟨hmethod, hurl⟩ := hrequest
  have hpost : ∀ r, postsOrder ⟨.send request, r⟩ = true := by simp [postsOrder, hmethod, hurl]
  have hreply : (restExec (.send request) w).1 = w.outcomes orderCashUrl 0 := by
    simp [restExec, restRespond, World.enter, hurl]
  simp only [transmit.attempt, perform, Program.bind_eq, Program.perform_bind, Program.trace_call,
    orderPosts, List.countP_cons, hpost, if_true]
  rw [hreply]
  cases w.outcomes orderCashUrl 0 with
  | ok resp => simp
  | error e => cases e <;> simp [postsOrder, Nat.add_comm]

theorem transmit_orderPosts_pos {request : HttpRequest} (hrequest : SendsOrder request)
    (key : String) (left : Nat) (w : World) :
    1 ≤ orderPosts ((transmit key request left).trace restExec w) := by
  cases left <;>
  · rw [transmit, attempt_orderPosts hrequest]
    split
    · exact Nat.le_add_right 1 _
    · exact Nat.le_refl 1

theorem transmit_orderPosts_timeout {request : HttpRequest} (hrequest : SendsOrder request)
    (key : String) (left : Nat) (w : World)
    (hfirst : w.outcomes orderCashUrl 0 = .error .timeout) :
    2 ≤ orderPosts ((transmit key request (left + 1)).trace restExec w) := by
  rw [transmit, attempt_orderPosts hrequest, hfirst, Program.bind_eq,
    (elsewhere_perform (by trivial)).orderPosts_bind]
  have hsecond := transmit_orderPosts_pos hrequest key left
    (restExec (.sleep (2 ^ (1 - left))) (restExec (.send request) w).2).2
  exact Nat.add_le_add_left hsecond 1

theorem exchange_orderPosts_le (request : SubmitOrderRequest) (quantity : String) (held : Bool)
    (w : World) (hfirst : w.outcomes orderCashUrl 0 ≠ .error .timeout) :
    orderPosts ((client.exchange (client.orderCall decimalText request quantity held)).trace
      restExec w) ≤ 1 := by
  set call := client.orderCall decimalText request quantity held
  have hbuild := client.buildRequest_elsewhere call
  unfold exchange
  simp only [Program.bind_eq]
  rw [hbuild.orderPosts_bind]
  have hsent := (client.buildRequest_sendsOrder decimalText request quantity held).run_result
    restExec w
  have houtcomes := hbuild.outcomes w
  split
  · next built v hrun =>
    rw [hrun] at hsent houtcomes
    rw [orderPosts_bind_elsewhere _ (client.decode_elsewhere call rfl built)]
    show orderPosts ((transmit.attempt _ built _).trace restExec v) ≤ 1
    rw [attempt_orderPosts (hsent built rfl), houtcomes]
    cases hoc : w.outcomes orderCashUrl 0 with
    | ok resp => simp
    | error e => cases e <;> simp_all
  · omega

theorem release_elsewhere (bucket : BucketType) (skip : Bool) (e : PyError) :
    Elsewhere (do perform (.release bucket skip); .raise e : RestCode Dict) :=
  elsewhere_call (by trivial) fun _ => trivial

theorem request_order (request : SubmitOrderRequest) (quantity : String) (held : Bool) :
    client.request (client.orderCall decimalText request quantity held) false =
      client.budgetedExchange (client.orderCall decimalText request quantity held) false := by
  simp [KISRestClient.request, pacing, orderCall]

theorem request_orderPosts_le (request : SubmitOrderRequest) (quantity : String) (held : Bool)
    (w : World) (hfirst : w.outcomes orderCashUrl 0 ≠ .error .timeout) :
    orderPosts ((client.request (client.orderCall decimalText request quantity held) false).trace
      restExec w) ≤ 1 := by
  rw [request_order, budgetedExchange]
  split
  · rw [Program.bind_eq, (consumeBudget_elsewhere _ _ _ _).orderPosts_bind]
    have houtcomes := (consumeBudget_elsewhere .order held 2 false).outcomes w
    split
    · next skip v hrun =>
      change Program.run restExec (consumeBudget .order held 2 false) w = _ at hrun
      rw [hrun] at houtcomes
      rw [orderPosts_handle_elsewhere _ (release_elsewhere _ skip)]
      apply exchange_orderPosts_le
      rw [houtcomes]
      exact hfirst
    · omega
  · exact client.exchange_orderPosts_le decimalText request quantity held w hfirst

theorem submitOrder_orderPosts_le (request : SubmitOrderRequest) (held : Bool) (w : World)
    (hfirst : w.outcomes orderCashUrl 0 ≠ .error .timeout) :
    orderPosts ((client.submitOrder decimalText request held).trace restExec w) ≤ 1 := by
  unfold submitOrder
  rw [Program.bind_eq, (elsewhere_orRaises _).orderPosts_bind]
  cases formatOrderQuantity decimalText request.quantity with
  | error e => simp [orRaises]
  | ok quantity =>
    simp only [orRaises, Program.run_ret]
    split
    · rw [Program.bind_eq, pacePaperGlobalRest_elsewhere.orderPosts_bind]
      have houtcomes := pacePaperGlobalRest_elsewhere.outcomes w
      split
      · next v hrun =>
        rw [hrun] at houtcomes
        rw [Program.bind_eq, orderPosts_bind_elsewhere _ (submitted_elsewhere request)]
        apply request_orderPosts_le
        rw [houtcomes]
        exact hfirst
      · omega
    · rw [Program.bind_eq, orderPosts_bind_elsewhere _ (submitted_elsewhere request)]
      exact client.request_orderPosts_le decimalText request quantity held w hfirst

/-! A session in which nothing keeps an order from being sent. -/

def calm : Interlude where
  clock := fun _ => 0
  monotonic := 0

def full (remaining : Int) : OperationBucket where
  capacity := 1
  refillRate := 0
  remaining := remaining
  refillAt := 0

def ready (outcomes : String → Nat → Except HttpError Response) (orderTokens : Int) : World where
  outcomes := outcomes
  interludes := fun _ => calm
  session := {
    budget := {
      order := full orderTokens
      inquiry := full 1
      reconciliation := full 1
      marketData := full 1
      auth := full 1 }
    accessToken := .str "token"
    tokenExpiresAt := 1 }

variable (outcomes : String → Nat → Except HttpError Response)

theorem pacePaperGlobalRest_ready (tokens : Int) :
    Program.run restExec pacePaperGlobalRest (ready outcomes tokens) =
      (.ok (), ready outcomes tokens) := by
  simp [pacePaperGlobalRest, perform, restExec, restRespond, World.enter, ready, calm]
  rfl

theorem consumeBudget_ready (held : Bool) :
    Program.run restExec (consumeBudget .order held 2 false) (ready outcomes 1) =
      (.ok false, ready outcomes 0) := by
  have hrefill : (full 1).refill 0 = full 1 := by simp [full, OperationBucket.refill]
  cases held <;>
    simp [consumeBudget, consumeBudget.attempt, perform, restExec, restRespond, World.enter, ready,
      calm, RateLimitBudgetManager.consumeOrRaise, RateLimitBudgetManager.consumeGlobal,
      RateLimitBudgetManager.refillHeldSellReserve,
      RateLimitBudgetManager.tryConsumeHeldSellReserve, RateLimitBudgetManager.consumeBucket,
      RateLimitBudgetManager.bucket, RateLimitBudgetManager.setBucket, OperationBucket.tryConsume,
      hrefill]
  all_goals simp [full]

theorem authenticate_ready (tokens : Int) :
    Program.run restExec client.authenticate (ready outcomes tokens) =
      (.ok (.str "token"), ready outcomes tokens) := by
  have hnow : restExec .now (ready outcomes tokens) = (0, ready outcomes tokens) := rfl
  have htoken : restExec .accessToken (ready outcomes tokens) =
      ((.str "token", 1), ready outcomes tokens) := rfl
  have hvalid : seconds 0 < (1 : ℚ) := by simp [seconds]
  simp only [authenticate, perform, Program.bind_eq, Program.perform_bind, Program.run_call, hnow,
    htoken]
  rw [if_pos (by simp [Json.isNull, hvalid])]
  rfl

theorem getTrId_order (side : OrderSide) :
    ∃ tr, client.getTrId (if side = .buy then "order_buy" else "order_sell") = .ok tr := by
  have hbuy : kisTrIds.lookup "order_buy" = some ("TTTC0012U", some "VTTC0012U") := by
    simp [kisTrIds]
  have hsell : kisTrIds.lookup "order_sell" = some ("TTTC0011U", some "VTTC0011U") := by
    simp [kisTrIds, List.lookup_cons]
  cases side <;> by_cases hpaper : client.env = "paper" <;>
    simp [getTrId, hbuy, hsell, hpaper]

theorem buildRequest_ready (request : SubmitOrderRequest) (quantity : String) (held : Bool)
    (tokens : Int) : ∃ built,
    Program.run restExec (client.buildRequest (client.orderCall decimalText request quantity held))
      (ready outcomes tokens) = (.ok built, ready outcomes tokens) := by
  obtain ⟨tr, htr⟩ := client.getTrId_order request.side
  have hclosed : restExec .circuitState (ready outcomes tokens) =
      (.closed, ready outcomes tokens) := rfl
  simp only [buildRequest, buildRequest.signedHeaders, buildHeaders, perform, Program.bind_eq,
    Program.perform_bind, Program.run_call, hclosed]
  rw [if_neg (by decide)]
  simp only [orderCall, htr, orRaises, endpointUrl_order_cash, Program.ret_bind,
    Program.pure_eq, Program.bind_assoc, Program.run_bind, client.authenticate_ready]
  exact ⟨_, rfl⟩

theorem exchange_orderPosts_ready (request : SubmitOrderRequest) (quantity : String) (held : Bool)
    (tokens : Int) (hfirst : outcomes orderCashUrl 0 = .error .timeout) :
    2 ≤ orderPosts ((client.exchange (client.orderCall decimalText request quantity held)).trace
      restExec (ready outcomes tokens)) := by
  set call := client.orderCall decimalText request quantity held
  obtain ⟨built, hrun⟩ :=
    client.buildRequest_ready decimalText outcomes request quantity held tokens
  have hsent := (client.buildRequest_sendsOrder decimalText request quantity held).run_result
    restExec (ready outcomes tokens)
  rw [hrun] at hsent
  have hbuilt : SendsOrder built := hsent built rfl
  unfold exchange
  simp only [Program.bind_eq]
  rw [(client.buildRequest_elsewhere call).orderPosts_bind, hrun]
  dsimp only
  rw [orderPosts_bind_elsewhere _ (client.decode_elsewhere call rfl built)]
  exact transmit_orderPosts_timeout hbuilt call.endpointKey 1 (ready outcomes tokens) hfirst

theorem request_orderPosts_ready (request : SubmitOrderRequest) (quantity : String) (held : Bool)
    (hfirst : outcomes orderCashUrl 0 = .error .timeout) :
    2 ≤ orderPosts ((client.request (client.orderCall decimalText request quantity held)
      false).trace restExec (ready outcomes 1)) := by
  rw [request_order, budgetedExchange]
  split
  · rw [Program.bind_eq, (consumeBudget_elsewhere _ _ _ _).orderPosts_bind]
    simp only [orderCall, consumeBudget_ready outcomes held]
    rw [orderPosts_handle_elsewhere _ (release_elsewhere _ false)]
    exact client.exchange_orderPosts_ready decimalText outcomes request quantity held 0 hfirst
  · exact client.exchange_orderPosts_ready decimalText outcomes request quantity held 1 hfirst

/-- A quantity the broker takes: a positive number of whole shares. -/
def WholeShares (quantity : ℚ) : Prop := 0 < quantity ∧ quantity.den = 1

theorem formatOrderQuantity_whole {quantity : ℚ} (h : WholeShares quantity) :
    formatOrderQuantity decimalText quantity = .ok (toString quantity.num) := by
  rw [formatOrderQuantity, if_neg (not_le.mpr h.1), if_neg (by simp [h.2])]

theorem submitOrder_orderPosts_ready (request : SubmitOrderRequest) (held : Bool)
    (hwhole : WholeShares request.quantity)
    (hfirst : outcomes orderCashUrl 0 = .error .timeout) :
    2 ≤ orderPosts ((client.submitOrder decimalText request held).trace restExec
      (ready outcomes 1)) := by
  unfold submitOrder
  simp only [formatOrderQuantity_whole decimalText hwhole, orRaises, Program.bind_eq,
    Program.ret_bind]
  split
  · rw [pacePaperGlobalRest_elsewhere.orderPosts_bind, pacePaperGlobalRest_ready]
    dsimp only
    rw [orderPosts_bind_elsewhere _ (submitted_elsewhere request)]
    exact client.request_orderPosts_ready decimalText outcomes request _ held hfirst
  · rw [orderPosts_bind_elsewhere _ (submitted_elsewhere request)]
    exact client.request_orderPosts_ready decimalText outcomes request _ held hfirst

theorem submitOrder_not_whole (request : SubmitOrderRequest) (held : Bool)
    (hwhole : ¬ WholeShares request.quantity) (w : World) :
    orderPosts ((client.submitOrder decimalText request held).trace restExec w) = 0 := by
  have hraise : ∃ e, formatOrderQuantity decimalText request.quantity = .error e := by
    unfold formatOrderQuantity
    split
    · exact ⟨_, rfl⟩
    · next hpos =>
      rw [if_pos fun hden => hwhole ⟨not_le.mp hpos, hden⟩]
      exact ⟨_, rfl⟩
  obtain ⟨e, he⟩ := hraise
  simp [submitOrder, he, orRaises, orderPosts]

/-- Over all sessions and surroundings, a call of `submit_order` sends the order at most once
exactly when its first POST does not time out, or its quantity is refused beforehand. -/
theorem submitOrder_posts_once_iff (request : SubmitOrderRequest) (held : Bool)
    (outcomes : Nat → Except HttpError Response) :
    (∀ w : World, w.outcomes orderCashUrl = outcomes →
      orderPosts ((client.submitOrder decimalText request held).trace restExec w) ≤ 1) ↔
    (outcomes 0 = .error .timeout → ¬ WholeShares request.quantity) := by
  constructor
  · intro honce hfirst hwhole
    have htwice := client.submitOrder_orderPosts_ready decimalText (fun _ => outcomes) request held
      hwhole hfirst
    have := honce (ready (fun _ => outcomes) 1) rfl
    omega
  · intro hcond w houtcomes
    by_cases hfirst : outcomes 0 = .error .timeout
    · rw [client.submitOrder_not_whole decimalText request held (hcond hfirst) w]
      omega
    · apply submitOrder_orderPosts_le
      rw [houtcomes]
      exact hfirst

def paperClient : KISRestClient where
  apiKey := "key"
  apiSecret := "secret"
  accountNumber := "12345678"
  accountProductCode := "01"
  hasBudgetManager := true
  signature := fun _ => "hash"

def tenShares : SubmitOrderRequest where
  accountRef := "12345678-01"
  clientOrderId := "order-1"
  correlationId := "correlation-1"
  strategyId := "strategy-1"
  symbol := "005930"
  market := "KRX"
  side := .buy
  orderType := .limit
  quantity := 10
  price := some 70000

/-- The first POST times out after the broker has taken the order; the second is accepted as
an order of its own. -/
def acceptedTwice : String → Nat → Except HttpError Response := fun _ n =>
  if n = 0 then .error .timeout
  else .ok {
    statusCode := 200
    body := some (.obj [("rt_cd", .str "0"),
      ("output", .obj [("ODNO", .str "0000117057"), ("ORD_TMD", .str "121052")])]) }

theorem tenShares_posted_twice :
    ¬ orderPosts ((paperClient.submitOrder (fun _ => "70000") tenShares false).trace restExec
      (ready acceptedTwice 1)) ≤ 1 := by
  decide +kernel

end KISRestClient

end AgentTrading.Kis
