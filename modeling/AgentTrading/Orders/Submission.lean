import AgentTrading.Orders.OrderManager

/-! What a transition and a submission do when no other worker writes the order: the
caller's copy is the stored row, so the first compare-and-set succeeds and the outcome
is a function of the broker's answer. -/
namespace AgentTrading.Orders
open Domain Repositories Library

/-- The order's row has moved to `target`; orders of other identifiers, broker orders and
broker calls are as before. -/
structure Moved (order : OrderRequestEntity) (target : OrderStatus) (s t : Store) : Prop where
  row : ∃ row, t.orders order.orderRequestId = some row ∧ row.status = target
  brokerOrders : t.brokerOrders = s.brokerOrders
  brokerCalls : t.brokerCalls = s.brokerCalls
  restOutcomes : t.restOutcomes = s.restOutcomes

theorem Moved.of_same {order : OrderRequestEntity} {target : OrderStatus} {s t u : Store}
    (h₁ : SameOrders s t) (h₂ : Moved order target t u) : Moved order target s u :=
  ⟨h₂.row, h₂.brokerOrders.trans h₁.brokerOrders, h₂.brokerCalls.trans h₁.brokerCalls,
    h₂.restOutcomes.trans h₁.restOutcomes⟩

theorem Moved.same {order : OrderRequestEntity} {target : OrderStatus} {s t u : Store}
    (h₁ : Moved order target s t) (h₂ : SameOrders t u) : Moved order target s u := by
  refine ⟨?_, h₂.brokerOrders.trans h₁.brokerOrders, h₂.brokerCalls.trans h₁.brokerCalls,
    h₂.restOutcomes.trans h₁.restOutcomes⟩
  rw [h₂.orders]
  exact h₁.row

/-- A normal return with the order's row moved to `target`. -/
def Ends (order : OrderRequestEntity) (target : OrderStatus) (s : Store)
    (r : Except PyError OrderRequestEntity) (t : Store) : Prop :=
  (∃ after, r = .ok after) ∧ Moved order target s t

/-- Operations of a transition that runs alone. -/
def Op.Transition (op : Op) : Prop :=
  op.Bookkeeping ∨ ∃ id status rc rm expected submittedAt,
    op = .ordersUpdateStatus id status rc rm expected submittedAt

section

variable {may good : Choice → Op → Store → Prop}
variable (hgood : ∀ c op t, op.Transition → good c op t)
include hgood

theorem updateStatus_alone {order after : OrderRequestEntity} {args : TransitionArgs}
    {submittedAt : Option Time} {n : Nat} {lastExc : Option PyError} {target : OrderStatus}
    {s : Store} (hstored : s.orders order.orderRequestId = some order)
    (hid : after.orderRequestId = order.orderRequestId) (hversion : after.version = order.version)
    (hstatus : after.status = target) :
    Program.Alone exec may good (fun r t => r = .ok after ∧ Moved order target s t)
      (retryUpdate order target args submittedAt (n + 1) after lastExc) s := by
  refine Program.alone_call fun c _ => ⟨hgood _ _ _ (Or.inr ⟨_, _, _, _, _, _, rfl⟩), ?_⟩
  have hrow : (tick c s).orders after.orderRequestId = some order := by
    rw [hid]
    exact hstored
  simp only [exec, respond, Store.updateStatus_current hrow hversion]
  refine Program.alone_ret ⟨rfl, ⟨⟨Store.statusRow (tick c s).clock order after.status
    args.reasonCode args.reasonMessage (some after.version) submittedAt, ?_, hstatus⟩, rfl, rfl,
    rfl⟩⟩
  simp only [Store.writeOrder, hid, Function.update_self]

/-- The transition succeeds whatever the caller's copy says of the order's status. -/
theorem transitionToCore_alone (service : Bool) {order : OrderRequestEntity}
    {target : OrderStatus} {args : TransitionArgs} {s : Store}
    (hstored : s.orders order.orderRequestId = some order) (hretries : args.maxRetries ≠ 0) :
    Program.Alone exec may good (Ends order target s) (transitionToCore service order target args)
      s := by
  have hbook : ∀ c op t, op.Bookkeeping → good c op t := fun c op t h => hgood c op t (Or.inl h)
  obtain ⟨n, hn⟩ := Nat.exists_eq_succ_of_ne_zero hretries
  simp only [transitionToCore, Program.bind_eq, hn]
  refine alone_bookkeeping_bind (only_bookkeeping (stamp_only _)) hbook ?_
    (fun e t h => by simp at h)
  intro submittedAt t₁ _ h₁
  refine alone_bookkeeping_bind (only_bookkeeping (replaceStatus_only ..)) hbook ?_
    (fun e t h => by simp at h)
  rintro after t₂ ⟨sa, ua, hafter⟩ h₂
  obtain rfl := Except.ok.inj hafter
  have hstored₂ : t₂.orders order.orderRequestId = some order := by
    rw [h₂.orders, h₁.orders]
    exact hstored
  refine Program.Alone.bind (updateStatus_alone hgood hstored₂ ?_ ?_ ?_) ?_
    (fun e t h => by simp at h)
  · rfl
  · rfl
  · rfl
  rintro written t₃ ⟨-, h₃⟩
  refine alone_bookkeeping_bind (recordTransition_only ..) hbook ?_ (fun e t h => by simp at h)
  intro _ t₄ _ h₄
  refine Program.alone_ret ⟨⟨written, rfl⟩, ?_⟩
  exact Moved.of_same h₁ (Moved.of_same h₂ (h₃.same h₄))

theorem transitionTo_alone (service : Bool) {order : OrderRequestEntity} {target : OrderStatus}
    {args : TransitionArgs} {s : Store} (hstored : s.orders order.orderRequestId = some order)
    (hallowed : target ∈ allowedTransitions order.status) (hretries : args.maxRetries ≠ 0) :
    Program.Alone exec may good (Ends order target s) (transitionTo service order target args)
      s := by
  have hvalid := (validateTransition_ok order.orderRequestId order.status target).mpr hallowed
  unfold transitionTo
  simp only [hvalid, orRaise, Program.bind_eq, Program.ret_bind]
  exact @transitionToCore_alone _ _ hgood service order target _ s hstored hretries

/-- The submission's row has moved to `target` and at most one broker order, of this order,
was added. -/
structure Submitted (order : OrderRequestEntity) (target : OrderStatus) (s t : Store) : Prop where
  row : ∃ row, t.orders order.orderRequestId = some row ∧ row.status = target
  brokerOrders : t.brokerOrders = s.brokerOrders ∨
    ∃ item, item.orderRequestId = order.orderRequestId ∧
      t.brokerOrders = s.brokerOrders ++ [item]
  brokerCalls : t.brokerCalls = s.brokerCalls
  restOutcomes : t.restOutcomes = s.restOutcomes

omit hgood in
theorem Moved.submitted {order : OrderRequestEntity} {target : OrderStatus} {s t : Store}
    (h : Moved order target s t) : Submitted order target s t :=
  ⟨h.row, Or.inl h.brokerOrders, h.brokerCalls, h.restOutcomes⟩

theorem bookkeeping_transitionTo_alone (service : Bool) {order : OrderRequestEntity}
    {target : OrderStatus} {args : TransitionArgs} {s : Store} {p : Code Unit}
    (hp : p.Only Op.Bookkeeping (· = .ok ()))
    (hstored : s.orders order.orderRequestId = some order)
    (hallowed : target ∈ allowedTransitions order.status) (hretries : args.maxRetries ≠ 0) :
    Program.Alone exec may good (Ends order target s)
      (p.bind fun _ => transitionTo service order target args) s := by
  refine alone_bookkeeping_bind hp (fun c op t h => hgood c op t (Or.inl h)) ?_
    (fun e t h => by simp at h)
  intro _ t _ ht
  have hstored' : t.orders order.orderRequestId = some order := by
    rw [ht.orders]
    exact hstored
  refine (transitionTo_alone hgood service hstored' hallowed hretries).mono ?_
  exact fun r u h => ⟨h.1, Moved.of_same ht h.2⟩

end

/-- The status a submission ends in when the broker answers. -/
def resultStatus (result : SubmitOrderResult) : OrderStatus :=
  if result.uncertain || result.requiresReconciliation then .reconcileRequired
  else if result.accepted then .submitted
  else .rejected

/-- The status a submission ends in when the broker raises a broker error. -/
def errorStatus (e : BrokerError) : OrderStatus :=
  if needsReconciliation e then .reconcileRequired else .rejected

theorem resultStatus_allowed (result : SubmitOrderResult) :
    resultStatus result ∈ allowedTransitions .pendingSubmit := by
  unfold resultStatus
  split
  · decide
  · split <;> decide

theorem errorStatus_allowed (e : BrokerError) :
    errorStatus e ∈ allowedTransitions .pendingSubmit := by
  unfold errorStatus
  split <;> decide

section

variable {may good : Choice → Op → Store → Prop}
variable (hgood : ∀ c op t, op.Transition → good c op t)
variable (service : Bool) {order : OrderRequestEntity} (request : SubmitOrderRequest)
variable (actorType actorId : String)
include hgood

theorem onBrokerError_alone (e : BrokerError) {s : Store}
    (hstored : s.orders order.orderRequestId = some order)
    (hpending : order.status = .pendingSubmit) :
    Program.Alone exec may good (Ends order (errorStatus e) s)
      (onBrokerError service order request actorType actorId e) s := by
  have hallowed := errorStatus_allowed e
  rw [← hpending] at hallowed
  unfold onBrokerError
  unfold errorStatus at hallowed ⊢
  by_cases h : needsReconciliation e
  · simp only [h, if_true] at hallowed ⊢
    simp only [Program.bind_eq, ← Program.bind_assoc]
    refine bookkeeping_transitionTo_alone hgood service ?_ hstored hallowed (Nat.succ_ne_zero 2)
    exact (only_bookkeeping (recordSubmissionAttempt_only _)).bind
      (fun _ _ => triggerFor_only ..) (by simp)
  · simp only [h, Bool.false_eq_true, if_false] at hallowed ⊢
    exact bookkeeping_transitionTo_alone hgood service
      (only_bookkeeping (recordSubmissionAttempt_only _)) hstored
      hallowed (Nat.succ_ne_zero 2)

theorem onUncertain_alone (result : SubmitOrderResult) {s : Store}
    (hstored : s.orders order.orderRequestId = some order)
    (hpending : order.status = .pendingSubmit) :
    Program.Alone exec may good (Ends order .reconcileRequired s)
      (onUncertain service order request actorType actorId result) s := by
  unfold onUncertain
  simp only [Program.bind_eq, ← Program.bind_assoc]
  refine bookkeeping_transitionTo_alone hgood service ?_ hstored (by rw [hpending]; decide)
    (Nat.succ_ne_zero 2)
  exact (triggerFor_only ..).bind (fun _ _ => only_bookkeeping (recordSubmissionAttempt_only _))
    (by simp)

theorem onRejected_alone (result : SubmitOrderResult) {s : Store}
    (hstored : s.orders order.orderRequestId = some order)
    (hpending : order.status = .pendingSubmit) :
    Program.Alone exec may good (Ends order .rejected s)
      (onRejected service order actorType actorId result) s :=
  bookkeeping_transitionTo_alone hgood service
    (only_bookkeeping (recordSubmissionAttempt_only _)) hstored
    (by rw [hpending]; decide) (Nat.succ_ne_zero 2)

theorem onAccepted_alone (result : SubmitOrderResult) {s : Store}
    (hadd : ∀ c item t, item.orderRequestId = order.orderRequestId →
      t.brokerOrders = s.brokerOrders → good c (.brokerOrdersAdd item) t)
    (hstored : s.orders order.orderRequestId = some order)
    (hpending : order.status = .pendingSubmit) :
    Program.Alone exec may good
      (fun r t => (∃ after, r = .ok after) ∧ Submitted order .submitted s t)
      (onAccepted service order actorType actorId result) s := by
  unfold onAccepted
  simp only [Program.bind_eq, Program.perform_bind]
  refine Program.alone_call fun c₁ _ => ⟨hgood _ _ _ (Or.inl trivial), ?_⟩
  refine Program.alone_call fun c₂ _ => ⟨hgood _ _ _ (Or.inl trivial), ?_⟩
  refine Program.alone_call fun c₃ _ => ⟨hadd _ _ _ rfl rfl, ?_⟩
  refine (bookkeeping_transitionTo_alone hgood service
    (only_bookkeeping (recordSubmissionAttempt_only _)) ?_ ?_
    (Nat.succ_ne_zero 2)).mono ?_
  · exact hstored
  · rw [hpending]
    decide
  · rintro r t ⟨hok, hmoved⟩
    exact ⟨hok, hmoved.row, Or.inr ⟨_, rfl, hmoved.brokerOrders⟩, hmoved.brokerCalls,
      hmoved.restOutcomes⟩

theorem handleResult_alone (result : SubmitOrderResult) {s : Store}
    (hadd : ∀ c item t, item.orderRequestId = order.orderRequestId →
      t.brokerOrders = s.brokerOrders → good c (.brokerOrdersAdd item) t)
    (hstored : s.orders order.orderRequestId = some order)
    (hpending : order.status = .pendingSubmit) :
    Program.Alone exec may good
      (fun r t => (∃ after, r = .ok after) ∧ Submitted order (resultStatus result) s t)
      (handleResult service order request actorType actorId result) s := by
  unfold handleResult resultStatus
  split
  · refine (onUncertain_alone hgood service request actorType actorId result hstored
      hpending).mono ?_
    exact fun r t h => ⟨h.1, h.2.submitted⟩
  · split
    · exact onAccepted_alone hgood service actorType actorId result hadd hstored hpending
    · refine (onRejected_alone hgood service actorType actorId result hstored hpending).mono ?_
      exact fun r t h => ⟨h.1, h.2.submitted⟩

/-- What stands before the broker call either ends the submission, blocked, or leaves the
orders as they were. -/
theorem submitOrderToBroker_alone (broker : Broker)
    {post : Except PyError OrderRequestEntity → Store → Prop} {s : Store}
    (hstored : s.orders order.orderRequestId = some order)
    (hpending : order.status = .pendingSubmit)
    (hblocked : ∀ r t, Ends order .reconcileRequired s r t → post r t)
    (hsubmit : ∀ t, SameOrders s t → Program.Alone exec may good post
      (submitUnblocked service order broker request actorType actorId) t) :
    Program.Alone exec may good post
      (submitOrderToBroker service order broker request actorType actorId) s := by
  have hbook : ∀ c op t, op.Bookkeeping → good c op t := fun c op t h => hgood c op t (Or.inl h)
  unfold submitOrderToBroker
  cases service with
  | false =>
    simp only [Bool.false_eq_true, if_false]
    exact hsubmit s (SameOrders.refl s)
  | true =>
    simp only [if_true, Program.bind_eq]
    refine alone_bookkeeping_bind (resolveStrategy_only request) hbook ?_
      (fun e t h => by simp at h)
    intro strategyId t₁ _ h₁
    refine alone_bookkeeping_bind (isBlocked_only _) hbook ?_ (fun e t h => by simp at h)
    intro blocked t₂ _ h₂
    have h₁₂ := SameOrders.trans _ _ _ h₁ h₂
    cases blocked with
    | false =>
      simp only [Bool.false_eq_true, if_false]
      exact hsubmit t₂ h₁₂
    | true =>
      simp only [if_true]
      refine (transitionTo_alone hgood true ?_ ?_ (Nat.succ_ne_zero 2)).mono ?_
      · rw [h₁₂.orders]
        exact hstored
      · rw [hpending]
        decide
      · exact fun r t h => hblocked r t ⟨h.1, Moved.of_same h₁₂ h.2⟩

end

/-- The lock check of a submission, at the time it is made, with the store it leaves. -/
def lockCheck (order : OrderRequestEntity) (request : SubmitOrderRequest) (cs : Nat → Choice)
    (s : Store) : Bool × Store :=
  (tick (cs 1) (tick (cs 0) s)).isLocked
    ⟨order.accountId, (s.strategyByCode 0 request.strategyId).map (·.strategyId),
      some request.symbol, some request.side.value⟩

/-- The submission finds a lock; without a reconciliation service none is looked for. -/
def lockedOut (service : Bool) (order : OrderRequestEntity) (request : SubmitOrderRequest)
    (cs : Nat → Choice) (s : Store) : Bool :=
  service && (lockCheck order request cs s).1

theorem lockCheck_sameOrders (order : OrderRequestEntity) (request : SubmitOrderRequest)
    (cs : Nat → Choice) (s : Store) : SameOrders s (lockCheck order request cs s).2 := by
  have h₁ := exec_sameOrders (cs 0) (.strategiesGetByCode 0 request.strategyId) s trivial
  have h₂ := exec_sameOrders (cs 1) (.reconciliationsIsLocked ⟨order.accountId,
    (s.strategyByCode 0 request.strategyId).map (·.strategyId), some request.symbol,
    some request.side.value⟩) (tick (cs 0) s) trivial
  exact SameOrders.trans _ _ _ h₁ h₂

def blockedArgs (order : OrderRequestEntity) : TransitionArgs where
  reasonCode := some "BLOCKED"
  reasonMessage := some (blockedMessage order)

theorem submitOrderToBroker_run (order : OrderRequestEntity) (broker : Broker)
    (request : SubmitOrderRequest) (cs : Nat → Choice) (s : Store) :
    (submitOrderToBroker true order broker request).run (Program.drawing exec) (cs, s) =
      if lockedOut true order request cs s then
        (transitionTo true order .reconcileRequired (blockedArgs order)).run
          (Program.drawing exec) (fun n => cs (n + 2), (lockCheck order request cs s).2)
      else (submitUnblocked true order broker request "system" "order_manager").run
        (Program.drawing exec) (fun n => cs (n + 2), (lockCheck order request cs s).2) := by
  have hlocked : lockedOut true order request cs s = (lockCheck order request cs s).1 :=
    Bool.true_and _
  rw [hlocked]
  change Program.run (Program.drawing exec)
    (if (lockCheck order request cs s).1 = true then _ else _) _ = _
  split
  · rfl
  · rfl

end AgentTrading.Orders
