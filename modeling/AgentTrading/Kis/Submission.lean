import AgentTrading.Kis.Adapter

/-! A submission through the broker adapter, from the lock check to the stored status,
for every behaviour of the REST client on the one or two calls made to it. -/
namespace AgentTrading.Kis
open Domain Repositories Library Orders

variable (decimalText : ℚ → String)

/-- The result of the submission with the store it leaves, when no other worker writes. -/
def submitThroughAdapter (service : Bool) (order : OrderRequestEntity)
    (request : SubmitOrderRequest) (cs : Nat → Choice) (s : Store) :
    Except PyError OrderRequestEntity × Store :=
  let ended := (submitOrderToBroker service order (adapter decimalText) request).run
    (Program.drawing exec) (cs, s)
  (ended.1, ended.2.2)

/-- The REST client returns a result or raises one of its two kinds of errors. -/
def RestBehaviour (rest : Bool → Except PyError SubmitOrderResult) : Prop :=
  ∀ lane e, rest lane = .error e → (∃ bucket, e = .budgetExhausted bucket) ∨ ∃ b, e = .broker b

/-- A normal return that leaves the order out of `PENDING_SUBMIT`, and rejected when the
last attempt found no budget. -/
structure Completes (order : OrderRequestEntity)
    (ended : Except PyError OrderRequestEntity × Store) : Prop where
  returns : ∃ after, ended.1 = .ok after
  settles : ∃ row, ended.2.orders order.orderRequestId = some row ∧
    row.status ∈ [.submitted, .rejected, .reconcileRequired] ∧
    ∀ bucket, ended.2.restOutcomes.getLast? = some (.error (.budgetExhausted bucket)) →
      row.status = .rejected

/-- The exception clause is entered and no local variable `exc` has been assigned. -/
def UnboundExhaustion (request : SubmitOrderRequest)
    (rest : Bool → Except PyError SubmitOrderResult) : Prop :=
  validateOrderRequest decimalText request = [] ∧
    (∃ bucket, rest false = .error (.budgetExhausted bucket)) ∧ isHeldPositionSell request = false

theorem adapterOutcome_unbound (request : SubmitOrderRequest)
    (rest : Bool → Except PyError SubmitOrderResult)
    (h : UnboundExhaustion decimalText request rest) :
    adapterOutcome decimalText request rest = .error (.unboundLocal "exc") := by
  obtain ⟨hvalid, ⟨bucket, hrest⟩, hheld⟩ := h
  unfold adapterOutcome
  simp only [hvalid, ne_eq, not_true_eq_false, if_false, hrest, hheld, Bool.false_eq_true]

/-- An outcome the order manager can settle: when the last attempt found no budget it is a
rejection. -/
def Settleable (request : SubmitOrderRequest)
    (rest : Bool → Except PyError SubmitOrderResult) : Prop :=
  (∃ result, adapterOutcome decimalText request rest = .ok result ∧
    ∀ bucket, (restAttempts decimalText request rest).getLast? =
      some (.error (.budgetExhausted bucket)) → resultStatus result = .rejected) ∨
  (∃ e, adapterOutcome decimalText request rest = .error (.broker e) ∧
    ∀ bucket, (restAttempts decimalText request rest).getLast? ≠
      some (.error (.budgetExhausted bucket)))

theorem adapterOutcome_settleable (request : SubmitOrderRequest)
    (rest : Bool → Except PyError SubmitOrderResult) (hrest : RestBehaviour rest)
    (h : ¬ UnboundExhaustion decimalText request rest) : Settleable decimalText request rest := by
  unfold Settleable adapterOutcome restAttempts
  by_cases hvalid : validateOrderRequest decimalText request ≠ []
  · simp only [hvalid, ne_eq, not_false_eq_true, if_true]
    exact Or.inl ⟨_, rfl, fun _ h => by cases h⟩
  simp only [hvalid, if_false]
  cases hfirst : rest false with
  | ok result => exact Or.inl ⟨_, rfl, fun _ h => by cases h⟩
  | error e =>
    rcases hrest false e hfirst with ⟨bucket, rfl⟩ | ⟨b, rfl⟩
    · cases hheld : isHeldPositionSell request with
      | false => exact (h ⟨not_not.mp hvalid, ⟨bucket, hfirst⟩, hheld⟩).elim
      | true =>
        cases hsecond : rest true with
        | ok result => exact Or.inl ⟨_, rfl, fun _ h => by cases h⟩
        | error e =>
          rcases hrest true e hsecond with ⟨bucket', rfl⟩ | ⟨b, rfl⟩
          · exact Or.inl ⟨_, rfl, fun _ _ => rfl⟩
          · exact Or.inr ⟨b, rfl, fun _ h => by cases h⟩
    · exact Or.inr ⟨b, rfl, fun _ h => by cases h⟩

/-- How the submission ends once the adapter's outcome is known. -/
def EndsWith (order : OrderRequestEntity) (outcome : Except PyError SubmitOrderResult)
    (attempts : List (Except PyError SubmitOrderResult))
    (r : Except PyError OrderRequestEntity) (t : Store) : Prop :=
  t.restOutcomes = attempts ∧
  match outcome with
  | .ok result => (∃ after, r = .ok after) ∧
      ∃ row, t.orders order.orderRequestId = some row ∧ row.status = resultStatus result
  | .error (.broker e) => (∃ after, r = .ok after) ∧
      ∃ row, t.orders order.orderRequestId = some row ∧ row.status = errorStatus e
  | .error e => r = .error e

theorem onException_alone (order : OrderRequestEntity) (brokerClass : String) (e : PyError)
    {may : Choice → Op → Store → Prop} (s : Store) :
    Program.Alone exec may (fun _ _ _ => True)
      (fun r t => r = .error e ∧ SameOrders s t) (onException order brokerClass e) s := by
  refine alone_bookkeeping_bind (only_bookkeeping (recordSubmissionAttempt_only _))
    (fun _ _ _ _ => trivial) ?_
    (fun _ _ h => by simp at h)
  exact fun _ t _ ht => Program.alone_raise ⟨rfl, ht⟩

theorem submitUnblocked_alone (service : Bool) (order : OrderRequestEntity)
    (request : SubmitOrderRequest) (rest : Bool → Except PyError SubmitOrderResult) (s : Store)
    (actorType actorId : String) (hstored : s.orders order.orderRequestId = some order)
    (hpending : order.status = .pendingSubmit) (hnone : s.restOutcomes = []) :
    Program.Alone exec (fun c _ _ => c.rest = rest) (fun _ _ _ => True)
      (EndsWith order (adapterOutcome decimalText request rest)
        (restAttempts decimalText request rest))
      (submitUnblocked service order (adapter decimalText) request actorType actorId) s := by
  refine Program.Alone.bind (submitOrder_alone decimalText request rest s) ?_
    (fun e t h => by simp at h)
  rintro outcome t ⟨houtcome, ht⟩
  obtain rfl := Except.ok.inj houtcome
  have hstored' : t.orders order.orderRequestId = some order := by
    rw [ht.orders]
    exact hstored
  have hrest : t.restOutcomes = restAttempts decimalText request rest := by
    rw [ht.restOutcomes, hnone, List.nil_append]
  have hgood : ∀ (c : Choice) (op : Op) (t : Store), op.Transition → True :=
    fun _ _ _ _ => trivial
  cases adapterOutcome decimalText request rest with
  | ok result =>
    refine (handleResult_alone hgood service request actorType actorId result
      (fun _ _ _ _ _ => trivial) hstored' hpending).mono ?_
    exact fun r u h => ⟨h.2.restOutcomes.trans hrest, h.1, h.2.row⟩
  | error e =>
    cases e with
    | broker b =>
      refine (onBrokerError_alone hgood service request actorType actorId b hstored'
        hpending).mono ?_
      exact fun r u h => ⟨h.2.restOutcomes.trans hrest, h.1, h.2.row⟩
    | _ =>
      refine (onException_alone order _ _ t).mono ?_
      exact fun r u h => ⟨h.2.restOutcomes.trans hrest, h.1⟩

theorem completes_of_endsWith {order : OrderRequestEntity} {request : SubmitOrderRequest}
    {rest : Bool → Except PyError SubmitOrderResult}
    {ended : Except PyError OrderRequestEntity × Store}
    (h : EndsWith order (adapterOutcome decimalText request rest)
      (restAttempts decimalText request rest) ended.1 ended.2)
    (hsettle : Settleable decimalText request rest) : Completes order ended := by
  obtain ⟨hattempts, hends⟩ := h
  rcases hsettle with ⟨result, houtcome, hlast⟩ | ⟨e, houtcome, hlast⟩
  · rw [houtcome] at hends
    obtain ⟨hreturns, row, hrow, hstatus⟩ := hends
    refine ⟨hreturns, row, hrow, ?_, fun bucket hb => ?_⟩
    · rw [hstatus]
      unfold resultStatus
      split
      · decide
      · split <;> decide
    · rw [hstatus]
      exact hlast bucket (by rw [← hattempts]; exact hb)
  · rw [houtcome] at hends
    obtain ⟨hreturns, row, hrow, hstatus⟩ := hends
    refine ⟨hreturns, row, hrow, ?_, fun bucket hb => ?_⟩
    · rw [hstatus]
      unfold errorStatus
      split <;> decide
    · exact (hlast bucket (by rw [← hattempts]; exact hb)).elim

theorem completes_iff_of_endsWith {order : OrderRequestEntity} {request : SubmitOrderRequest}
    {rest : Bool → Except PyError SubmitOrderResult} (hrest : RestBehaviour rest)
    {ended : Except PyError OrderRequestEntity × Store}
    (h : EndsWith order (adapterOutcome decimalText request rest)
      (restAttempts decimalText request rest) ended.1 ended.2) :
    Completes order ended ↔ ¬ UnboundExhaustion decimalText request rest := by
  constructor
  · rintro hcompletes hunbound
    obtain ⟨after, hafter⟩ := hcompletes.returns
    have hends := h.2
    rw [adapterOutcome_unbound decimalText request rest hunbound, hafter] at hends
    cases hends
  · exact fun hunbound => completes_of_endsWith decimalText h
      (adapterOutcome_settleable decimalText request rest hrest hunbound)

/-- The submission completes except where an exhausted budget meets the unbound name. -/
theorem submitOrderToBroker_completes_iff (service : Bool) (order : OrderRequestEntity)
    (request : SubmitOrderRequest) (rest : Bool → Except PyError SubmitOrderResult)
    (cs : Nat → Choice) (s : Store) (hrest : RestBehaviour rest)
    (hcs : ∀ n, (cs n).rest = rest) (hstored : s.orders order.orderRequestId = some order)
    (hpending : order.status = .pendingSubmit) (hnone : s.restOutcomes = []) :
    Completes order (submitThroughAdapter decimalText service order request cs s) ↔
      ¬ (lockedOut service order request cs s = false ∧
        UnboundExhaustion decimalText request rest) := by
  have hunblocked : ∀ (ds : Nat → Choice) (t : Store), (∀ n, (ds n).rest = rest) →
      SameOrders s t → EndsWith order (adapterOutcome decimalText request rest)
        (restAttempts decimalText request rest)
        ((submitUnblocked service order (adapter decimalText) request "system"
          "order_manager").run (Program.drawing exec) (ds, t)).1
        ((submitUnblocked service order (adapter decimalText) request "system"
          "order_manager").run (Program.drawing exec) (ds, t)).2.2 := by
    intro ds t hds ht
    refine (submitUnblocked_alone decimalText service order request rest t _ _ ?_ hpending
      ?_).run (fun n _ _ => hds n)
    · rw [ht.orders]
      exact hstored
    · rw [ht.restOutcomes]
      exact hnone
  unfold submitThroughAdapter
  cases service with
  | false =>
    have hfree : lockedOut false order request cs s = false := rfl
    rw [hfree]
    simp only [true_and]
    exact completes_iff_of_endsWith decimalText hrest (hunblocked cs s hcs (SameOrders.refl s))
  | true =>
    have ht := lockCheck_sameOrders order request cs s
    rw [submitOrderToBroker_run]
    generalize (lockCheck order request cs s).2 = t at ht ⊢
    cases lockedOut true order request cs s with
    | false =>
      simp only [Bool.false_eq_true, if_false, true_and]
      exact completes_iff_of_endsWith decimalText hrest
        (hunblocked _ t (fun n => hcs (n + 2)) ht)
    | true =>
      simp only [if_true, Bool.true_eq_false, false_and, not_false_eq_true, iff_true]
      have hstored' : t.orders order.orderRequestId = some order := by
        rw [ht.orders]
        exact hstored
      have halone : Program.Alone exec (fun _ _ _ => True) (fun _ _ _ => True)
          (Ends order .reconcileRequired t) (transitionTo true order .reconcileRequired
            (blockedArgs order)) t :=
        transitionTo_alone (fun _ _ _ _ => trivial) true hstored' (by rw [hpending]; decide)
          (Nat.succ_ne_zero 2)
      obtain ⟨hreturns, hmoved⟩ := halone.run fun _ _ _ => trivial
      obtain ⟨row, hrow, hstatus⟩ := hmoved.row
      refine ⟨hreturns, row, hrow, by rw [hstatus]; decide, fun bucket hb => ?_⟩
      rw [hmoved.restOutcomes, ht.restOutcomes, hnone] at hb
      cases hb

/-- A REST client whose both lanes are out of budget. -/
def exhaustedRest : Bool → Except PyError SubmitOrderResult :=
  fun _ => .error (.budgetExhausted "order")

def exhaustedStream : Nat → Choice :=
  fun _ => ⟨1, .error (.other "Unreachable"), exhaustedRest⟩

def pendingOrder : OrderRequestEntity where
  orderRequestId := 1
  accountId := 2
  instrumentId := 3
  clientOrderId := "c-1"
  idempotencyKey := "k-1"
  correlationId := "r-1"
  side := .sell
  orderType := .limit
  requestedQuantity := 10
  status := .pendingSubmit

def sellRequest (sourceType : String) : SubmitOrderRequest where
  accountRef := "a-1"
  clientOrderId := "c-1"
  correlationId := "r-1"
  strategyId := "s-1"
  symbol := "005930"
  market := "KRX"
  side := .sell
  orderType := .limit
  quantity := 10
  metadata := [("source_type", sourceType)]

theorem exhaustedRest_behaviour : RestBehaviour exhaustedRest := by
  intro lane e he
  obtain rfl := Except.error.inj he
  exact Or.inl ⟨_, rfl⟩

/-- A held-position sell finds both lanes exhausted and is rejected. -/
theorem submitOrderToBroker_completes_heldPosition :
    Completes pendingOrder (submitThroughAdapter (fun _ => "") true pendingOrder
      (sellRequest "HELD_POSITION") exhaustedStream (Store.holding pendingOrder 0)) := by
  refine (submitOrderToBroker_completes_iff _ true _ _ exhaustedRest _ _ exhaustedRest_behaviour
    (fun _ => rfl) rfl rfl rfl).mpr ?_
  rintro ⟨-, -, -, hheld⟩
  revert hheld
  decide

/-- Any other sell that finds the budget exhausted leaves its order pending. -/
theorem submitOrderToBroker_exhausted_pending :
    let ended := submitThroughAdapter (fun _ => "") true pendingOrder (sellRequest "signal")
      exhaustedStream (Store.holding pendingOrder 0)
    RestBehaviour exhaustedRest ∧ ended.1 = .error (.unboundLocal "exc") ∧
      (∃ row, ended.2.orders 1 = some row ∧ row.status = .pendingSubmit) ∧
      ended.2.restOutcomes.getLast? = some (.error (.budgetExhausted "order")) ∧
      ¬ Completes pendingOrder ended := by
  refine ⟨exhaustedRest_behaviour, rfl, ⟨_, rfl, rfl⟩, rfl, fun h => ?_⟩
  obtain ⟨after, hafter⟩ := h.returns
  cases hafter

end AgentTrading.Kis
