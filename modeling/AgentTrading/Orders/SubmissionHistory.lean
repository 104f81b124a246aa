import AgentTrading.Library.History
import AgentTrading.Orders.TargetWrites

/-! What a transition and a submission have done when they return, whatever was replied to them:
the order that is returned has been written, and its status is the one the broker's reply leads
to. -/
namespace AgentTrading.Orders
open Domain Library Repositories

abbrev Steps := Program.History Op Reply

/-- A write of the status to the order's row went through. -/
def Wrote (id : UUID) (status : OrderStatus) (steps : Steps) : Prop :=
  ∃ reasonCode reasonMessage version submittedAt,
    ⟨.ordersUpdateStatus id status reasonCode reasonMessage (some version) submittedAt, .ok ()⟩ ∈
      steps

theorem Wrote.append {id : UUID} {status : OrderStatus} {steps : Steps}
    (h : Wrote id status steps) (rest : Steps) : Wrote id status (steps ++ rest) := by
  obtain ⟨rc, rm, version, submittedAt, hmem⟩ := h
  exact ⟨rc, rm, version, submittedAt, List.mem_append_left rest hmem⟩

/-- What was sent to the broker, for which order, and the broker's replies. -/
def submissions (steps : Steps) :
    List (UUID × SubmitOrderRequest × Except PyError SubmitOrderResult) :=
  steps.filterMap fun
    | ⟨.brokerSubmitOrder id request, reply⟩ => some (id, request, reply)
    | _ => none

@[simp] theorem submissions_append (steps rest : Steps) :
    submissions (steps ++ rest) = submissions steps ++ submissions rest := List.filterMap_append

/-- Operations without the broker that write no other status. -/
def Op.Targets (target : OrderStatus) : Op → Prop
  | .ordersUpdateStatus _ status _ _ _ _ => status = target
  | .brokerSubmitOrder .. => False
  | _ => True

theorem Op.Bookkeeping.targets {op : Op} (h : op.Bookkeeping) (target : OrderStatus) :
    op.Targets target := by
  cases op <;> trivial

theorem Op.Toward.targets {target : OrderStatus} {op : Op} (h : op.Toward (· = target)) :
    op.Targets target := by
  rcases h with h | ⟨id, rfl⟩ | ⟨_, _, _, _, _, _, hstatus, rfl⟩
  · exact h.bookkeeping.targets target
  · trivial
  · exact hstatus

theorem submissions_targets {target : OrderStatus} (steps : Steps) {rest : Steps}
    (h : ∀ step ∈ rest, step.1.Targets target) :
    submissions (steps ++ rest) = submissions steps := by
  have hnone : submissions rest = [] := by
    rw [submissions, List.filterMap_eq_nil_iff]
    rintro ⟨op, reply⟩ hstep
    have := h _ hstep
    cases op <;> first | rfl | exact this.elim
  rw [submissions_append, hnone, List.append_nil]

variable {target : OrderStatus} {α β : Type}

/-- A program of a transition to the target. -/
abbrev Leading (target : OrderStatus) (pre : Steps → Prop) (p : Code α)
    (post : Steps → Except PyError α → Prop) : Prop :=
  Program.Leads (fun _ => Op.Targets target) pre p post

theorem only_targets {Q : Except PyError α → Prop} {p : Code α} (hp : p.Only Op.Bookkeeping Q) :
    p.Only (Op.Targets target) Q := hp.mono (fun _ h => h.targets target) fun _ h => h

/-- What further operations leave true holds after a part of which nothing else is known. -/
theorem leading_bind {Q : Except PyError α → Prop} {p : Code α} {f : α → Code β}
    {pre : Steps → Prop} {post : Steps → Except PyError β → Prop}
    (hp : p.Only (Op.Targets target) Q)
    (hpre : ∀ steps rest, pre steps → pre (steps ++ rest))
    (hf : ∀ a, Q (.ok a) → Leading target pre (f a) post)
    (he : ∀ e steps, Q (.error e) → post steps (.error e)) :
    Leading target pre (p.bind f) post := by
  have hleads : Leading target pre p fun steps r => pre steps ∧ Q r :=
    hp.leads (fun _ _ h => h) fun steps rest h _ => hpre steps rest h
  refine hleads.bind (fun a => ?_) fun e t h => he e t h.2
  exact ⟨fun past h => (hf a h.2).watched past h.1⟩

/-- The order that is returned has been written in the target. -/
def MovedTo (target : OrderStatus) (steps : Steps) (r : Except PyError OrderRequestEntity) : Prop :=
  ∀ moved, r = .ok moved → moved.status = target ∧ Wrote moved.orderRequestId target steps

theorem movedTo_error (steps : Steps) (e : PyError) : MovedTo target steps (.error e) :=
  fun _ h => nomatch h

theorem MovedTo.append {steps : Steps} {r : Except PyError OrderRequestEntity}
    (h : MovedTo target steps r) (rest : Steps) : MovedTo target (steps ++ rest) r :=
  fun moved hmoved => ⟨(h moved hmoved).1, (h moved hmoved).2.append rest⟩

theorem refetch_leads (order : OrderRequestEntity) (args : TransitionArgs)
    (submittedAt : Option Time) (id : UUID) (lastAttempt : Bool) :
    Leading target (fun _ => True) (refetch order target args submittedAt id lastAttempt)
      fun _ r => ∀ row, r = .ok row → row.status = target := by
  refine ((refetch_toward order target args submittedAt id lastAttempt).leads
    (fun _ _ h => h.targets) fun _ _ h _ => h).conseq (fun _ h => h) fun _ _ h => h.2

theorem retryUpdate_leads (order : OrderRequestEntity) (args : TransitionArgs)
    (submittedAt : Option Time) (n : Nat) (after : OrderRequestEntity) (lastExc : Option PyError)
    (hleft : n = 0 → lastExc ≠ none) (hafter : after.status = target) :
    Leading target (fun _ => True) (retryUpdate order target args submittedAt n after lastExc)
      (MovedTo target) := by
  induction n generalizing after lastExc with
  | zero =>
    cases lastExc with
    | none => exact (hleft rfl rfl).elim
    | some e => exact Program.leads_raise fun t _ => movedTo_error t e
  | succ n ih =>
    refine Program.leads_call (fun _ _ => hafter) fun outcome => ?_
    rcases outcome with e | ⟨⟩
    · cases e with
      | versionConflict id expected actual =>
        refine ((refetch_leads ..).weaken fun _ _ => trivial).bind (fun rebuilt => ?_) ?_
        · refine ⟨fun past h => (ih rebuilt _ ?_ ?_).watched past trivial⟩
          · exact fun _ => Option.some_ne_none _
          · exact h rebuilt rfl
        · exact fun e t _ => movedTo_error t e
      | _ => exact Program.leads_raise fun t _ => movedTo_error t _
    · refine Program.leads_ret fun t ⟨past, _, ht⟩ moved hmoved => ?_
      obtain rfl := Except.ok.inj hmoved
      refine ⟨hafter, args.reasonCode, args.reasonMessage, after.version, submittedAt, ?_⟩
      rw [ht, ← hafter]
      exact List.mem_append_right past (List.mem_singleton_self _)

theorem transitionToCore_leads (service : Bool) (order : OrderRequestEntity) (args : TransitionArgs)
    (hretries : args.maxRetries ≠ 0) :
    Leading target (fun _ => True) (transitionToCore service order target args)
      (MovedTo target) := by
  have htrue : ∀ steps rest : Steps, True → True := fun _ _ => id
  refine leading_bind (only_targets (only_bookkeeping (stamp_only _))) htrue
    (fun submittedAt _ => ?_)
    fun e t _ => movedTo_error t e
  refine leading_bind (only_targets (only_bookkeeping (replaceStatus_only ..))) htrue
    (fun after hafter => ?_) fun e t _ => movedTo_error t e
  obtain ⟨_, _, hafter⟩ := hafter
  have hstatus : after.status = target := by rw [Except.ok.inj hafter]
  refine (retryUpdate_leads order args submittedAt args.maxRetries after none
    (fun h => (hretries h).elim) hstatus).bind (fun written => ?_) fun e t _ => movedTo_error t e
  refine leading_bind (only_targets (recordTransition_only ..)) (fun _ rest h => h.append rest)
    (fun _ _ => ?_) fun e t _ => movedTo_error t e
  exact Program.leads_ret fun _ h => h

theorem transitionTo_leads (service : Bool) (order : OrderRequestEntity) (args : TransitionArgs)
    (hretries : args.maxRetries ≠ 0) :
    Leading target (fun _ => True) (transitionTo service order target args) (MovedTo target) := by
  unfold transitionTo
  cases validateTransition order.orderRequestId order.status target with
  | error e => exact Program.leads_raise fun t _ => movedTo_error t e
  | ok u => exact transitionToCore_leads service order _ hretries

theorem leading_sent {pre : Steps → Prop} {p : Code α} {post : Steps → Except PyError α → Prop}
    (h : Leading target pre p post)
    (sent : List (UUID × SubmitOrderRequest × Except PyError SubmitOrderResult)) :
    Program.Leads (fun steps op => op.Targets target ∧ submissions steps = sent)
      (fun steps => pre steps ∧ submissions steps = sent) p
      fun steps r => post steps r ∧ submissions steps = sent :=
  h.frame fun steps op reply hop hsent => by
    have hstep : ∀ step ∈ ([⟨op, reply⟩] : Steps), step.1.Targets target := by simpa using hop
    rw [submissions_targets steps hstep, hsent]

theorem transitionTo_leads_alone (service : Bool) (order : OrderRequestEntity)
    (target : OrderStatus)
    (args : TransitionArgs) (hretries : args.maxRetries ≠ 0) :
    Program.Leads (fun steps op => op.Targets target ∧ submissions steps = []) (· = [])
      (transitionTo service order target args)
      fun steps r => MovedTo target steps r ∧ submissions steps = [] :=
  (leading_sent (transitionTo_leads service order args hretries) []).weaken
    fun steps h => ⟨trivial, by rw [h]; rfl⟩

/-- The status that the broker's reply leads to; other exceptions go on. -/
def replyStatus : Except PyError SubmitOrderResult → Option OrderStatus
  | .ok result => some (resultStatus result)
  | .error (.broker e) => some (errorStatus e)
  | .error _ => none

/-- The order that is returned was written in the status the broker's reply leads to. Under a lock
the broker was not asked, and the order needs reconciliation. -/
def Settled (id : UUID) (request : SubmitOrderRequest) (steps : Steps) :
    Except PyError OrderRequestEntity → Prop
  | .error _ => submissions steps = [] ∨ ∃ reply, submissions steps = [(id, request, reply)]
  | .ok order => Wrote order.orderRequestId order.status steps ∧
      ((submissions steps = [] ∧ order.status = .reconcileRequired) ∨
        ∃ reply, submissions steps = [(id, request, reply)] ∧ replyStatus reply = some order.status)

/-- A submission calls the broker once, for its order, with its request and not in the face of a
lock, and never makes an order pending. -/
def Submits (service : Bool) (order : OrderRequestEntity) (request : SubmitOrderRequest)
    (steps : Steps) : Op → Prop
  | .ordersUpdateStatus _ status _ _ _ _ => status ≠ .pendingSubmit
  | .brokerSubmitOrder id sent => id = order.orderRequestId ∧ sent = request ∧
      submissions steps = [] ∧ (service = true → ∃ strategyId, ⟨.reconciliationsIsLocked
        ⟨order.accountId, strategyId, some request.symbol, some request.side.value⟩, false⟩ ∈ steps)
  | _ => True

section

variable {service : Bool} {order : OrderRequestEntity} {request : SubmitOrderRequest}

theorem Op.Targets.submits {op : Op} (h : op.Targets target) (htarget : target ≠ .pendingSubmit)
    (steps : Steps) : Submits service order request steps op := by
  cases op <;> first | trivial | exact h.elim | exact h.trans_ne htarget

theorem settled_of_movedTo {id : UUID} {reply : Except PyError SubmitOrderResult} {steps : Steps}
    {r : Except PyError OrderRequestEntity} (hreply : replyStatus reply = some target)
    (hmoved : MovedTo target steps r) (hsent : submissions steps = [(id, request, reply)]) :
    Settled id request steps r := by
  cases r with
  | error e => exact Or.inr ⟨reply, hsent⟩
  | ok moved =>
    obtain ⟨rfl, hwrote⟩ := hmoved moved rfl
    exact ⟨hwrote, Or.inr ⟨reply, hsent, hreply⟩⟩

theorem transitionTo_leads_after {p : Code α} {args : TransitionArgs}
    (sent : List (UUID × SubmitOrderRequest × Except PyError SubmitOrderResult))
    (hp : p.Only (Op.Targets target) fun r => ∃ a, r = .ok a) (hretries : args.maxRetries ≠ 0)
    (htarget : target ≠ .pendingSubmit) :
    Program.Leads (Submits service order request) (fun steps => submissions steps = sent)
      (p.bind fun _ => transitionTo service order target args)
      fun steps r => MovedTo target steps r ∧ submissions steps = sent := by
  have hmoves : Leading target (fun _ => True)
      (p.bind fun _ => transitionTo service order target args) (MovedTo target) :=
    leading_bind hp (fun _ _ => id) (fun _ _ => transitionTo_leads service order args hretries)
      fun e _ ⟨_, h⟩ => nomatch h
  exact ((leading_sent hmoves sent).permitting fun steps op h => h.1.submits htarget steps).weaken
    fun _ h => ⟨trivial, h⟩

/-- What follows the broker's reply. -/
abbrev Settles (service : Bool) (order : OrderRequestEntity) (request : SubmitOrderRequest)
    (reply : Except PyError SubmitOrderResult) (p : Code OrderRequestEntity) : Prop :=
  Program.Leads (Submits service order request)
    (fun steps => submissions steps = [(order.orderRequestId, request, reply)]) p
    (Settled order.orderRequestId request)

theorem transitionTo_settles {reply : Except PyError SubmitOrderResult} {p : Code α}
    {args : TransitionArgs} (hreply : replyStatus reply = some target)
    (hp : p.Only (Op.Targets target) fun r => ∃ a, r = .ok a) (hretries : args.maxRetries ≠ 0)
    (htarget : target ≠ .pendingSubmit) :
    Settles service order request reply (p.bind fun _ => transitionTo service order target args) :=
  (transitionTo_leads_after _ hp hretries htarget).conseq (fun _ h => h)
    fun _ _ h => settled_of_movedTo hreply h.1 h.2

theorem recordSubmissionAttempt_returns (attempt : UUID → Time → OrderSubmissionAttemptEntity) :
    (recordSubmissionAttempt attempt).Only (Op.Targets target) fun r => ∃ a, r = .ok a :=
  ⟨trivial, fun _ => ⟨trivial, fun _ => ⟨trivial, fun _ => ⟨(), rfl⟩⟩⟩⟩

theorem triggerFor_returns (order : OrderRequestEntity) (request : SubmitOrderRequest)
    (triggerType : String) :
    (triggerFor service order request triggerType).Only (Op.Targets target) fun r =>
      ∃ a, r = .ok a :=
  (only_targets (triggerFor_only ..)).mono (fun _ h => h) fun _ h => ⟨(), h⟩

theorem returns_bind {p : Code α} {f : α → Code β}
    (hp : p.Only (Op.Targets target) fun r => ∃ a, r = .ok a)
    (hf : ∀ a, (f a).Only (Op.Targets target) fun r => ∃ b, r = .ok b) :
    (p.bind f).Only (Op.Targets target) fun r => ∃ b, r = .ok b :=
  hp.bind (fun a _ => hf a) fun _ ⟨_, h⟩ => nomatch h

theorem handleResult_settles (actorType actorId : String) (result : SubmitOrderResult) :
    Settles service order request (.ok result)
      (handleResult service order request actorType actorId result) := by
  unfold handleResult
  split
  case isTrue huncertain =>
    have hreply : replyStatus (.ok result) = some .reconcileRequired := by
      simp [replyStatus, resultStatus, huncertain]
    unfold onUncertain
    simp only [Program.bind_eq, ← Program.bind_assoc]
    refine transitionTo_settles hreply ?_ (Nat.succ_ne_zero 2) (by decide)
    exact returns_bind (triggerFor_returns ..) fun _ => recordSubmissionAttempt_returns _
  case isFalse hcertain =>
    split
    case isTrue haccepted =>
      have hreply : replyStatus (.ok result) = some .submitted := by
        simp only [replyStatus, resultStatus, hcertain, haccepted]
        rfl
      unfold onAccepted
      simp only [Program.bind_eq, ← Program.bind_assoc]
      refine transitionTo_settles hreply ?_ (Nat.succ_ne_zero 2) (by decide)
      refine returns_bind ⟨trivial, fun _ => ⟨trivial, fun _ => ⟨trivial, fun _ => ?_⟩⟩⟩ fun _ => ?_
      · exact ⟨(), rfl⟩
      · exact recordSubmissionAttempt_returns _
    case isFalse hrefused =>
      have hreply : replyStatus (.ok result) = some .rejected := by
        simp only [replyStatus, resultStatus, hcertain, hrefused]
        rfl
      exact transitionTo_settles hreply (recordSubmissionAttempt_returns _) (Nat.succ_ne_zero 2)
        (by decide)

theorem onBrokerError_settles (actorType actorId : String) (e : BrokerError) :
    Settles service order request (.error (.broker e))
      (onBrokerError service order request actorType actorId e) := by
  unfold onBrokerError
  by_cases h : needsReconciliation e
  · have hreply : replyStatus (.error (.broker e)) = some .reconcileRequired := by
      simp [replyStatus, errorStatus, h]
    simp only [h, if_true]
    simp only [Program.bind_eq, ← Program.bind_assoc]
    refine transitionTo_settles hreply ?_ (Nat.succ_ne_zero 2) (by decide)
    exact returns_bind (recordSubmissionAttempt_returns _) fun _ => triggerFor_returns ..
  · have hreply : replyStatus (.error (.broker e)) = some .rejected := by
      simp [replyStatus, errorStatus, h]
    simp only [h, Bool.false_eq_true, if_false]
    exact transitionTo_settles hreply (recordSubmissionAttempt_returns _) (Nat.succ_ne_zero 2)
      (by decide)

theorem onException_settles (brokerClass : String) (reply : Except PyError SubmitOrderResult)
    (e : PyError) : Settles service order request reply (onException order brokerClass e) := by
  have honly (attempt : UUID → Time → OrderSubmissionAttemptEntity) :
      Program.Leads (Submits service order request)
        (fun steps => submissions steps = [(order.orderRequestId, request, reply)])
        (recordSubmissionAttempt attempt) fun steps r =>
          submissions steps = [(order.orderRequestId, request, reply)] ∧ ∃ a, r = .ok a :=
    (recordSubmissionAttempt_returns attempt : (recordSubmissionAttempt attempt).Only
      (Op.Targets .submitted) _).leads (fun steps _ h => h.submits (by decide) steps)
      fun steps rest hsent h => by rw [submissions_targets steps h, hsent]
  refine (honly _).bind (fun _ => Program.leads_raise fun t h => Or.inr ⟨reply, h.1⟩) ?_
  exact fun _ _ ⟨_, _, h⟩ => nomatch h

theorem settleOutcome_settles (brokerClass actorType actorId : String)
    (reply : Except PyError SubmitOrderResult) :
    Settles service order request reply
      (settleOutcome service order brokerClass request actorType actorId reply) := by
  unfold settleOutcome
  split
  · exact handleResult_settles ..
  · exact onBrokerError_settles ..
  · exact onException_settles ..

theorem submitUnblocked_leads (actorType actorId : String) {pre : Steps → Prop}
    (hpre : ∀ steps, pre steps → submissions steps = [] ∧ (service = true → ∃ strategyId,
      ⟨.reconciliationsIsLocked ⟨order.accountId, strategyId, some request.symbol,
        some request.side.value⟩, false⟩ ∈ steps)) :
    Program.Leads (Submits service order request) pre
      (submitUnblocked service order (remoteBroker order.orderRequestId) request actorType actorId)
      (Settled order.orderRequestId request) := by
  rw [submitUnblocked_remoteBroker]
  refine Program.leads_call (fun t ht => ⟨rfl, rfl, hpre t ht⟩) fun reply => ?_
  refine (settleOutcome_settles ..).weaken ?_
  rintro _ ⟨past, hpast, rfl⟩
  rw [submissions_append, (hpre past hpast).1]
  rfl

/-- Whatever is replied to it, a submission asks the broker at most once and never about a locked
account, and it returns the order as it has written it. -/
theorem submitOrderToBroker_leads (service : Bool) (order : OrderRequestEntity)
    (request : SubmitOrderRequest) (actorType actorId : String) :
    Program.Leads (Submits service order request) (· = [])
      (submitOrderToBroker service order (remoteBroker order.orderRequestId) request actorType
        actorId) (Settled order.orderRequestId request) := by
  unfold submitOrderToBroker
  cases service with
  | false => exact submitUnblocked_leads _ _ fun steps h => ⟨by rw [h]; rfl, nofun⟩
  | true =>
    refine Program.leads_call (fun _ _ => trivial) fun strategy => ?_
    refine Program.leads_call (fun _ _ => trivial) fun blocked => ?_
    cases blocked with
    | true =>
      have hnothing : (Program.ret () : Code Unit).Only (Op.Targets .reconcileRequired)
          fun r => ∃ a, r = .ok a := ⟨(), rfl⟩
      refine (transitionTo_leads_after [] hnothing (Nat.succ_ne_zero 2) (by decide)).conseq ?_ ?_
      · rintro _ ⟨_, ⟨_, rfl, rfl⟩, rfl⟩
        rfl
      · rintro steps r ⟨hmoved, hsent⟩
        cases r with
        | error e => exact Or.inl hsent
        | ok moved =>
          obtain ⟨hstatus, hwrote⟩ := hmoved moved rfl
          exact ⟨hstatus ▸ hwrote, Or.inl ⟨hsent, hstatus⟩⟩
    | false =>
      refine submitUnblocked_leads _ _ ?_
      rintro _ ⟨_, ⟨_, rfl, rfl⟩, rfl⟩
      exact ⟨rfl, fun _ =>
        ⟨strategy.map (·.strategyId), List.mem_cons_of_mem _ (List.mem_singleton_self _)⟩⟩

end

end AgentTrading.Orders
