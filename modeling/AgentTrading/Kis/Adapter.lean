import AgentTrading.Orders.Submission

/-! The broker adapter's `submit_order` and a submission through it. The adapter turns an
exhausted budget into a rejection, but reads the exception under a name that only the
reserve lane binds. -/
namespace AgentTrading.Kis
open Domain Repositories Library Orders

variable (decimalText : ℚ → String)

/-- `_validate_order_request`; `decimalText` is the text of a decimal. -/
def validateOrderRequest (request : SubmitOrderRequest) : List String :=
  priceBandErrors ++ slippageErrors ++ partialFillErrors
where
  priceBandErrors : List String :=
    match request.price with
    | none => []
    | some price =>
      (match request.priceBandLower with
        | some band => if price < band then
            ["Price " ++ decimalText price ++ " is below lower band " ++ decimalText band] else []
        | none => []) ++
      (match request.priceBandUpper with
        | some band => if price > band then
            ["Price " ++ decimalText price ++ " is above upper band " ++ decimalText band] else []
        | none => [])
  slippageErrors : List String :=
    match request.maxSlippageBps with
    | some bps => if request.orderType = .market ∧ bps ≤ 0 then
        ["max_slippage_bps must be positive, got " ++ toString bps] else []
    | none => []
  partialFillErrors : List String :=
    if ¬ request.allowPartialFill ∧ request.orderType = .market then
      ["Market order with allow_partial_fill=False is not supported"]
    else []

def isHeldPositionSell (request : SubmitOrderRequest) : Bool :=
  request.side = .sell ∧
    lower ((request.metadata.lookup "source_type").getD "") = "held_position"

def ambiguousCodes : List String := ["UNKNOWN", "TIMEOUT", "PENDING", "CIRCUIT_OPEN"]

def normalizeSubmitResult (result : SubmitOrderResult) : SubmitOrderResult :=
  { result with
    normalizedStatus := result.normalizedStatus.or (some result.brokerStatus)
    uncertain := (result.brokerOrderId.isNone && result.accepted) ||
      (match result.rawCode with
        | some code => decide (upper code ∈ ambiguousCodes)
        | none => false)
    requiresReconciliation := result.brokerStatus = .reconcileRequired }

/-- A terminal rejection built by the adapter itself. -/
def rejection (request : SubmitOrderRequest) (rawCode rawMessage : String) : SubmitOrderResult where
  accepted := false
  brokerName := .koreaInvestment
  clientOrderId := request.clientOrderId
  brokerOrderId := none
  brokerStatus := .rejected
  ackTimestamp := none
  rawCode := some rawCode
  rawMessage := some rawMessage
  normalizedStatus := some .rejected

def exhaustedMessage (bucket : String) : String :=
  "Budget exhausted (" ++ bucket ++ ") — cannot submit."

/-- The end of the `except BudgetExhaustedError` clause; `exc` is the local variable of that
name, which nothing has assigned unless the reserve lane did. -/
def budgetExhausted (request : SubmitOrderRequest) (exc : Option String) :
    Code SubmitOrderResult :=
  match exc with
  | some bucket => .ret (rejection request "BUDGET_EXHAUSTED" (exhaustedMessage bucket))
  | none => .raise (.unboundLocal "exc")

def submitOrder (request : SubmitOrderRequest) : Code SubmitOrderResult := do
  let errors := validateOrderRequest decimalText request
  if errors ≠ [] then
    return rejection request "VALIDATION_ERROR" (String.intercalate "; " errors)
  else
    let outcome ← await (.restSubmitOrder request false)
    match outcome with
    | .ok result => return normalizeSubmitResult result
    | .error (.budgetExhausted _) =>
      if isHeldPositionSell request then
        let reserve ← await (.restSubmitOrder request true)
        match reserve with
        | .ok result => return normalizeSubmitResult result
        | .error (.budgetExhausted bucket) => budgetExhausted request (some bucket)
        | .error e => .raise e
      else budgetExhausted request none
    | .error e => .raise e

def adapter : Broker where
  className := "KoreaInvestmentAdapter"
  submitOrder := submitOrder decimalText

/-! The adapter as a function of the REST client's behaviour on either lane. -/

/-- What the REST client returned or raised on the calls the adapter makes. -/
def restAttempts (request : SubmitOrderRequest) (rest : Bool → Except PyError SubmitOrderResult) :
    List (Except PyError SubmitOrderResult) :=
  if validateOrderRequest decimalText request ≠ [] then []
  else
    match rest false with
    | .error (.budgetExhausted _) =>
      if isHeldPositionSell request then [rest false, rest true] else [rest false]
    | _ => [rest false]

/-- What the adapter returns or raises. -/
def adapterOutcome (request : SubmitOrderRequest)
    (rest : Bool → Except PyError SubmitOrderResult) : Except PyError SubmitOrderResult :=
  if validateOrderRequest decimalText request ≠ [] then
    .ok (rejection request "VALIDATION_ERROR"
      (String.intercalate "; " (validateOrderRequest decimalText request)))
  else
    match rest false with
    | .ok result => .ok (normalizeSubmitResult result)
    | .error (.budgetExhausted _) =>
      if isHeldPositionSell request then
        match rest true with
        | .ok result => .ok (normalizeSubmitResult result)
        | .error (.budgetExhausted bucket) =>
          .ok (rejection request "BUDGET_EXHAUSTED" (exhaustedMessage bucket))
        | .error e => .error e
      else .error (.unboundLocal "exc")
    | .error e => .error e

/-- The store after the adapter: only the REST calls have been noted. -/
structure RestNoted (attempts : List (Except PyError SubmitOrderResult)) (s t : Store) : Prop where
  orders : t.orders = s.orders
  restOutcomes : t.restOutcomes = s.restOutcomes ++ attempts

theorem submitOrder_alone (request : SubmitOrderRequest)
    (rest : Bool → Except PyError SubmitOrderResult) (s : Store) :
    Program.Alone exec (fun c _ _ => c.rest = rest) (fun _ _ _ => True)
      (fun r t => r = .ok (adapterOutcome decimalText request rest) ∧
        RestNoted (restAttempts decimalText request rest) s t)
      (submitUnblocked.attempt (submitOrder decimalText request)) s := by
  unfold submitOrder adapterOutcome restAttempts
  by_cases hvalid : validateOrderRequest decimalText request ≠ []
  · simp only [hvalid, ne_eq, not_false_eq_true, if_true]
    exact Program.alone_ret ⟨rfl, rfl, (List.append_nil _).symm⟩
  simp only [hvalid, if_false]
  refine Program.alone_call fun c hc => ⟨trivial, ?_⟩
  have hreply : (exec c (.restSubmitOrder request false) s).1 = rest false := by rw [← hc]; rfl
  have hnoted : RestNoted [rest false] s (exec c (.restSubmitOrder request false) s).2 :=
    ⟨rfl, by rw [← hc]; rfl⟩
  generalize exec c (.restSubmitOrder request false) s = after at *
  obtain ⟨outcome, t⟩ := after
  dsimp only at hreply hnoted ⊢
  subst hreply
  cases hfirst : rest false with
  | ok result =>
    rw [hfirst] at hnoted
    exact Program.alone_ret ⟨rfl, hnoted⟩
  | error e =>
    rw [hfirst] at hnoted
    cases e with
    | budgetExhausted bucket =>
      by_cases hheld : isHeldPositionSell request
      · simp only [hheld, if_true]
        refine Program.alone_call fun c hc => ⟨trivial, ?_⟩
        have hreply : (exec c (.restSubmitOrder request true) t).1 = rest true := by
          rw [← hc]
          rfl
        have hnoted₂ : RestNoted [.error (.budgetExhausted bucket), rest true] s
            (exec c (.restSubmitOrder request true) t).2 := by
          refine ⟨hnoted.orders, ?_⟩
          show t.restOutcomes ++ [c.rest true] = _
          rw [hnoted.restOutcomes, hc, List.append_assoc]
          rfl
        generalize exec c (.restSubmitOrder request true) t = after at *
        obtain ⟨outcome, u⟩ := after
        dsimp only at hreply hnoted₂ ⊢
        subst hreply
        cases hsecond : rest true with
        | ok result =>
          rw [hsecond] at hnoted₂
          exact Program.alone_ret ⟨rfl, hnoted₂⟩
        | error e =>
          rw [hsecond] at hnoted₂
          cases e <;> exact Program.alone_ret ⟨rfl, hnoted₂⟩
      · simp only [hheld, Bool.false_eq_true, if_false]
        exact Program.alone_ret ⟨rfl, hnoted⟩
    | _ => exact Program.alone_ret ⟨rfl, hnoted⟩

end AgentTrading.Kis
