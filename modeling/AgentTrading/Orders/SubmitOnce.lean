import AgentTrading.Orders.Submission
import AgentTrading.Orders.TransitionSafety

/-! Callers of `submit_order_to_broker` on one order. Nothing is written before the broker
is called, so two callers that overlap both reach it; callers that find the order still
pending and no other submission under way reach it once between them. -/
namespace AgentTrading.Orders
open Domain Repositories Library

structure SubmitCall where
  order : OrderRequestEntity
  request : SubmitOrderRequest
  actorType : String := "system"
  actorId : String := "order_manager"

def SubmitCall.code (service : Bool) (job : SubmitCall) : Code OrderRequestEntity :=
  submitOrderToBroker service job.order (remoteBroker job.order.orderRequestId) job.request
    job.actorType job.actorId

def callsFor (id : UUID) (s : Store) : Nat := s.brokerCalls.count id

def insertsFor (id : UUID) (s : Store) : Nat :=
  s.brokerOrders.countP fun item => item.orderRequestId = id

/-- The broker was called at most once for the order and at most one broker order was
inserted for it. -/
def AtMostOnce (id : UUID) (s : Store) : Prop := callsFor id s ≤ 1 ∧ insertsFor id s ≤ 1

/-- The order is stored as pending and nothing has been done about it yet. -/
structure Unsubmitted (id : UUID) (s : Store) : Prop where
  untouched : Untouched s
  pending : ∃ row, s.orders id = some row ∧ row.status = .pendingSubmit
  uncalled : callsFor id s = 0
  uninserted : insertsFor id s = 0

/-- A caller holds an entity of the order that it read while the order was pending. -/
def HoldsPending (id : UUID) (job : SubmitCall) (s : Store) : Prop :=
  job.order.orderRequestId = id ∧ job.order.status = .pendingSubmit ∧ WasStored s job.order

def StoredPending (id : UUID) (s : Store) : Prop :=
  ∃ row, s.orders id = some row ∧ row.status = .pendingSubmit

/-- The broker answers or raises a `BrokerError`. -/
def BrokerErrorsOnly (c : Choice) (op : Op) (_ : Store) : Prop :=
  match op with
  | .brokerSubmitOrder .. => ∀ e, c.broker = .error e → ∃ b, e = .broker b
  | _ => True

/-- The operation is not the second of its kind for the order. -/
def FirstFor (id : UUID) (_ : Choice) (op : Op) (s : Store) : Prop :=
  match op with
  | .brokerSubmitOrder j _ => j = id → callsFor id s = 0
  | .brokerOrdersAdd item => item.orderRequestId = id → insertsFor id s = 0
  | _ => True

/-- Between submissions: while the order is pending nothing has been done about it. -/
def Undisturbed (id : UUID) (s : Store) : Prop :=
  ∃ row, s.orders id = some row ∧ (row.status = .pendingSubmit →
    s.statusWrites = [] ∧ callsFor id s = 0 ∧ insertsFor id s = 0)

theorem firstFor_transition (id : UUID) (c : Choice) (op : Op) (s : Store) (h : op.Transition) :
    FirstFor id c op s := by
  rcases h with h | ⟨_, _, _, _, _, _, rfl⟩
  · cases op <;> trivial
  · trivial

theorem callsFor_keeps (id : UUID) (c : Choice) (op : Op) (s : Store) (hs : callsFor id s ≤ 1)
    (hfirst : FirstFor id c op s) : callsFor id (exec c op s).2 ≤ 1 := by
  by_cases hop : ∃ j request, op = .brokerSubmitOrder j request
  · obtain ⟨j, request, rfl⟩ := hop
    show (s.brokerCalls ++ [j]).count id ≤ 1
    rw [List.count_append]
    by_cases hj : j = id
    · have h0 : s.brokerCalls.count id = 0 := hfirst hj
      have h1 : [j].count id ≤ 1 := List.count_le_length
      omega
    · rw [List.count_singleton, if_neg (by simpa using hj)]
      exact hs
  · push Not at hop
    unfold callsFor
    rw [(exec_writes c op s).brokerCalls hop]
    exact hs

theorem insertsFor_keeps (id : UUID) (c : Choice) (op : Op) (s : Store)
    (hs : insertsFor id s ≤ 1) (hfirst : FirstFor id c op s) :
    insertsFor id (exec c op s).2 ≤ 1 := by
  by_cases hop : ∃ item, op = .brokerOrdersAdd item
  · obtain ⟨item, rfl⟩ := hop
    show (s.brokerOrders ++ [item]).countP (fun item => item.orderRequestId = id) ≤ 1
    rw [List.countP_append]
    by_cases hj : item.orderRequestId = id
    · have h0 : s.brokerOrders.countP (fun item => item.orderRequestId = id) = 0 := hfirst hj
      have h1 : [item].countP (fun item => decide (item.orderRequestId = id)) ≤ 1 :=
        List.countP_le_length
      omega
    · rw [List.countP_singleton, if_neg (by simpa using hj)]
      exact hs
  · push Not at hop
    unfold insertsFor
    rw [(exec_writes c op s).brokerOrders hop]
    exact hs

theorem undisturbed_of_row {id : UUID} {s : Store} {target : OrderStatus}
    (h : ∃ row, s.orders id = some row ∧ row.status = target) (htarget : target ≠ .pendingSubmit) :
    Undisturbed id s := by
  obtain ⟨row, hrow, hstatus⟩ := h
  exact ⟨row, hrow, fun hpending => (htarget (hstatus.symm.trans hpending)).elim⟩

theorem pendingSubmit_not_allowed {target : OrderStatus}
    (h : target ∈ allowedTransitions .pendingSubmit) : target ≠ .pendingSubmit := by
  rintro rfl
  revert h
  decide

/-- From an order nothing has been done about, the submission calls the broker once and
leaves the order in another status. -/
theorem submit_alone (service : Bool) (job : SubmitCall) (s : Store)
    (hstored : s.orders job.order.orderRequestId = some job.order)
    (hpending : job.order.status = .pendingSubmit)
    (hcalls : callsFor job.order.orderRequestId s = 0)
    (hinserts : insertsFor job.order.orderRequestId s = 0) :
    Program.Alone exec BrokerErrorsOnly (FirstFor job.order.orderRequestId)
      (fun _ => Undisturbed job.order.orderRequestId) (job.code service) s := by
  refine submitOrderToBroker_alone (firstFor_transition _) service job.request job.actorType
    job.actorId _ hstored hpending ?_ ?_
  · exact fun r t h => undisturbed_of_row h.2.row (by decide)
  intro t ht
  refine Program.alone_call fun c hmay => ⟨fun _ => ?_, ?_⟩
  · unfold callsFor at hcalls ⊢
    rw [ht.brokerCalls]
    exact hcalls
  have hreply : (exec c (.brokerSubmitOrder job.order.orderRequestId job.request) t).1 =
      c.broker := rfl
  have horders : (exec c (.brokerSubmitOrder job.order.orderRequestId job.request) t).2.orders =
      s.orders := ht.orders
  have hbrokerOrders : (exec c (.brokerSubmitOrder job.order.orderRequestId job.request)
      t).2.brokerOrders = s.brokerOrders := ht.brokerOrders
  generalize exec c (.brokerSubmitOrder job.order.orderRequestId job.request) t = after at *
  obtain ⟨outcome, u⟩ := after
  rw [← horders] at hstored
  dsimp only at hreply hbrokerOrders hstored ⊢
  subst hreply
  cases hbroker : c.broker with
  | ok result =>
    refine (handleResult_alone (firstFor_transition _) service job.request job.actorType
      job.actorId result ?_ hstored hpending).mono ?_
    · intro c item v _ hv _
      unfold insertsFor at hinserts ⊢
      rw [hv, hbrokerOrders]
      exact hinserts
    · exact fun r v h => undisturbed_of_row h.2.row
        (pendingSubmit_not_allowed (resultStatus_allowed result))
  | error e =>
    obtain ⟨b, rfl⟩ := hmay e hbroker
    refine (onBrokerError_alone (firstFor_transition _) service job.request job.actorType
      job.actorId b hstored hpending).mono ?_
    exact fun r v h => undisturbed_of_row h.2.row
      (pendingSubmit_not_allowed (errorStatus_allowed b))

abbrev SubmitEvent := Pool.Event SubmitCall Choice

/-- Any number of submissions, interleaved in any order. -/
abbrev afterSubmissions (service : Bool) (s : Store) (es : List SubmitEvent) : Store :=
  (Pool.run exec (SubmitCall.code service) (Pool.idle s) es).shared

/-- Every caller of the run holds an entity of the order read while it was pending. -/
abbrev SubmitRun (service : Bool) (id : UUID) (s : Store) (es : List SubmitEvent) : Prop :=
  Pool.Meets exec (SubmitCall.code service) (HoldsPending id) (fun _ _ _ _ => True)
    (Pool.idle s) es

/-- A submission starts only while the order is stored as pending and no other submission
is under way, and the broker raises nothing but broker errors. -/
abbrev OneAtATime (service : Bool) (id : UUID) (s : Store) (es : List SubmitEvent) : Prop :=
  Runs.Meets (Pool.step exec (SubmitCall.code service))
    (Pool.StartsAlone (fun _ => StoredPending id) BrokerErrorsOnly) (Pool.idle s) es

theorem submitOrderToBroker_at_most_once (service : Bool) (id : UUID) (s : Store)
    (es : List SubmitEvent) (hs : Unsubmitted id s) (hread : SubmitRun service id s es)
    (hsole : OneAtATime service id s es) : AtMostOnce id (afterSubmissions service s es) := by
  have hes := (Runs.meets_and _ _ _ _ es).mpr ⟨hread, hsole⟩
  have hstart : Runs.Meets (Pool.step exec (SubmitCall.code service))
      (Pool.StartsAlone (fun job s => HoldsPending id job s ∧ StoredPending id s)
        BrokerErrorsOnly) (Pool.idle s) es := by
    refine Runs.meets_mono _ ?_ _ es hes
    rintro w (⟨t, job⟩ | ⟨t, c⟩) ⟨hholds, halone⟩
    · exact fun ht => ⟨⟨hholds ht, (halone ht).1⟩, (halone ht).2⟩
    · exact halone
  obtain ⟨row, hrow, hpending⟩ := hs.pending
  refine Pool.run_sole (I := AtMostOnce id) (J := Undisturbed id) (FirstFor id) ?_ ?_ s es
    ⟨by rw [hs.uncalled]; omega, by rw [hs.uninserted]; omega⟩
    ⟨row, hrow, fun _ => ⟨hs.untouched.unwritten, hs.uncalled, hs.uninserted⟩⟩ hstart
  · rintro job t - ⟨row, hrow, hrest⟩ ⟨⟨rfl, hstatus, hstored⟩, row', hrow', hpending'⟩
    obtain rfl := Option.some.inj (hrow.symm.trans hrow')
    obtain ⟨hwrites, hcalls, hinserts⟩ := hrest hpending'
    rcases hstored with hstored | ⟨w, hw, -⟩
    · exact submit_alone service job t hstored hstatus hcalls hinserts
    · rw [hwrites] at hw
      cases hw
  · exact fun c op t ht hfirst =>
      ⟨callsFor_keeps id c op t ht.1 hfirst, insertsFor_keeps id c op t ht.2 hfirst⟩

def sampleRequest : SubmitOrderRequest where
  accountRef := "a-1"
  clientOrderId := "c-1"
  correlationId := "r-1"
  strategyId := "s-1"
  symbol := "005930"
  market := "KRX"
  side := .buy
  orderType := .limit
  quantity := 10

def acceptedResult : SubmitOrderResult where
  accepted := true
  brokerName := .koreaInvestment
  clientOrderId := "c-1"
  brokerOrderId := some "0000117057"
  brokerStatus := .submitted
  ackTimestamp := none

def acceptingChoice : Choice := { idleChoice with broker := .ok acceptedResult }

def pendingCall : SubmitCall :=
  ⟨sampleOrder .pendingSubmit, sampleRequest, "system", "order_manager"⟩

theorem unsubmitted_sample : Unsubmitted 1 (Store.holding (sampleOrder .pendingSubmit) 0) :=
  ⟨untouched_holding _ _, ⟨_, rfl, rfl⟩, rfl, rfl⟩

/-- One submission up to the insertion of its broker order. -/
def oneSubmission : List SubmitEvent :=
  .start 0 pendingCall :: List.replicate 4 (.step 0 acceptingChoice)

theorem submitOrderToBroker_at_most_once_accepted :
    AtMostOnce 1 (afterSubmissions false (Store.holding (sampleOrder .pendingSubmit) 0)
        oneSubmission) ∧
      callsFor 1 (afterSubmissions false (Store.holding (sampleOrder .pendingSubmit) 0)
        oneSubmission) = 1 := by
  refine ⟨submitOrderToBroker_at_most_once false 1 _ _ unsubmitted_sample ?_ ?_, rfl⟩
  · exact ⟨fun _ => ⟨rfl, rfl, Or.inl rfl⟩, trivial, trivial, trivial, trivial, trivial⟩
  · refine ⟨fun _ => ⟨⟨_, rfl, rfl⟩, ?_⟩, (fun e he => by cases he), trivial, trivial, trivial,
      trivial⟩
    rintro u ⟨_, _, _, h⟩
    cases h

/-- Two submissions that overlap, each up to the insertion of its broker order. -/
def twoSubmissions : List SubmitEvent :=
  [.start 0 pendingCall, .start 1 pendingCall] ++
    List.replicate 4 (.step 0 acceptingChoice) ++ List.replicate 4 (.step 1 acceptingChoice)

theorem submitOrderToBroker_called_twice :
    Unsubmitted 1 (Store.holding (sampleOrder .pendingSubmit) 0) ∧
      SubmitRun false 1 (Store.holding (sampleOrder .pendingSubmit) 0) twoSubmissions ∧
      callsFor 1 (afterSubmissions false (Store.holding (sampleOrder .pendingSubmit) 0)
        twoSubmissions) = 2 ∧
      insertsFor 1 (afterSubmissions false (Store.holding (sampleOrder .pendingSubmit) 0)
        twoSubmissions) = 2 ∧
      ¬ AtMostOnce 1 (afterSubmissions false (Store.holding (sampleOrder .pendingSubmit) 0)
        twoSubmissions) := by
  refine ⟨unsubmitted_sample, ?_, rfl, rfl, fun h => ?_⟩
  · exact ⟨fun _ => ⟨rfl, rfl, Or.inl rfl⟩, fun _ => ⟨rfl, rfl, Or.inl rfl⟩, trivial, trivial,
      trivial, trivial, trivial, trivial, trivial, trivial, trivial⟩
  · exact absurd h.1 (by decide)

end AgentTrading.Orders
