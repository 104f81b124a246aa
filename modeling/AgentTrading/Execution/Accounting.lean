import AgentTrading.Execution.Parts
import AgentTrading.RealizedPnl.Conservation

/-! A run that returns leaves the attempt it recorded with one finalization, which is the last
thing it does and says what the result says. A run that raises leaves the attempt as running. -/
namespace AgentTrading.Execution
open Domain Library Repositories Sizing

/-- The attempts a run recorded. -/
def attempts (steps : Steps) : List UUID :=
  steps.filterMap fun
    | ⟨.executionAttemptsAdd attempt, .ok _⟩ => some attempt.executionAttemptId
    | _ => none

def finalizations (steps : Steps) : List (UUID × AttemptUpdate) :=
  steps.filterMap fun
    | ⟨.executionAttemptsUpdateStatus id update, _⟩ => some (id, update)
    | _ => none

@[simp] theorem attempts_append (steps rest : Steps) :
    attempts (steps ++ rest) = attempts steps ++ attempts rest := List.filterMap_append

@[simp] theorem finalizations_append (steps rest : Steps) :
    finalizations (steps ++ rest) = finalizations steps ++ finalizations rest :=
  List.filterMap_append

/-- The status that goes with a result. Only a decision not to trade, found when sizing or when
translating it, is no stop. -/
def attemptStatus (result : SubmitResult) : String :=
  if result.status = "RECONCILE_REQUIRED" then "reconcile_required"
  else if result.status = "REJECTED" then "failed"
  else if result.status = "ERROR" then
    if result.errorPhase = some "order_submit" then "failed" else "stopped"
  else if result.status = "SKIPPED" then
    if (result.errorPhase = none ∨ result.errorPhase = some "sizing") ∧
        (result.stopReason = some "decision_hold" ∨ result.stopReason = some "decision_watch") then
      "non_trade"
    else "stopped"
  else "submitted"

/-- The finalization agrees with the result. -/
structure Reports (update : AttemptUpdate) (result : SubmitResult) : Prop where
  status : update.status = attemptStatus result
  stopReason : update.stopReason = result.stopReason.getD ""
  phaseTrace : update.phaseTrace = result.phaseTrace

/-- What a run that has ended so has done about its attempt. -/
def Accounted (steps : Steps) : Except PyError SubmitResult → Prop
  | .error _ => finalizations steps = []
  | .ok result => (attempts steps = [] ∧ finalizations steps = []) ∨
      ∃ id update reply before, attempts steps = [id] ∧ finalizations before = [] ∧
        steps = before ++ [⟨.executionAttemptsUpdateStatus id update, reply⟩] ∧
        Reports update result

/-- The operation does not concern attempts. -/
def Op.Aside : Op → Prop
  | .executionAttemptsAdd _ => False
  | .executionAttemptsUpdateStatus .. => False
  | _ => True

theorem attempts_aside {steps : Steps} (h : ∀ step ∈ steps, step.1.Aside) :
    attempts steps = [] := by
  rw [attempts, List.filterMap_eq_nil_iff]
  rintro ⟨op, reply⟩ hstep
  have := h _ hstep
  cases op <;> first | rfl | exact this.elim

theorem finalizations_aside {steps : Steps} (h : ∀ step ∈ steps, step.1.Aside) :
    finalizations steps = [] := by
  rw [finalizations, List.filterMap_eq_nil_iff]
  rintro ⟨op, reply⟩ hstep
  have := h _ hstep
  cases op <;> first | rfl | exact this.elim

/-- The run goes on: its attempt is recorded and not yet finalized. -/
structure Running (run : Run) (past : Steps) : Prop where
  attempts : attempts past = run.attemptId.toList
  finalizations : finalizations past = []

variable {svc : ExecutionService} {run : Run} {past : Steps} {α : Type}

theorem Running.append (h : Running run past) {steps : Steps}
    (hsteps : ∀ step ∈ steps, step.1.Aside) : Running run (past ++ steps) := by
  constructor
  · rw [attempts_append, attempts_aside hsteps, List.append_nil, h.attempts]
  · rw [finalizations_append, finalizations_aside hsteps, List.append_nil, h.finalizations]

theorem Running.step (h : Running run past) {op : Op} (hop : op.Aside) (reply : Reply op) :
    Running run (past ++ [⟨op, reply⟩]) := by
  apply h.append
  intro step hstep
  rw [List.mem_singleton.mp hstep]
  exact hop

/-- The program accounts for the attempt of the run whenever it is started. -/
structure Accounts (run : Run) (p : Code SubmitResult) : Prop where
  watched : ∀ past, Running run past → p.Watched (fun _ _ => True) Accounted past

theorem accounts_bind {Q : Except PyError α → Prop} {p : Code α} {f : α → Code SubmitResult}
    (hp : p.Only Op.Aside Q) (hf : ∀ a, Q (.ok a) → Accounts run (f a)) :
    Accounts run (p.bind f) := by
  refine ⟨fun past hrunning => ?_⟩
  refine (hp.watched (fun _ _ _ => trivial) past).bind ?_ ?_
  · rintro a t ⟨⟨steps, rfl, hsteps⟩, hQ⟩
    exact (hf a hQ).watched _ (hrunning.append hsteps)
  · rintro e t ⟨⟨steps, rfl, hsteps⟩, -⟩
    exact (hrunning.append hsteps).finalizations

theorem accounts_await {op : Op} {f : Reply op → Code SubmitResult} (hop : op.Aside)
    (hf : ∀ r, Accounts run (f r)) : Accounts run ((await op).bind f) :=
  ⟨fun _ hrunning => ⟨trivial, fun r => (hf r).watched _ (hrunning.step hop r)⟩⟩

theorem accounts_record {intent : OrderIntent} {ruleSetVersion : String} {codes : List String}
    {orderRequestId : Option UUID} {f : Unit → Code SubmitResult} (hf : ∀ r, Accounts run (f r)) :
    Accounts run ((recordValidation run intent ruleSetVersion codes orderRequestId).bind f) := by
  unfold recordValidation
  exact accounts_await trivial hf

theorem accounts_conclude {attemptStatus' stopPhase : String} {orderRequestId : Option UUID}
    {result : SubmitResult} (hstatus : attemptStatus' = attemptStatus result) :
    Accounts run (conclude run attemptStatus' stopPhase orderRequestId result) := by
  refine ⟨fun past hrunning => ?_⟩
  unfold conclude finalizeAttempt
  cases hattempt : run.attemptId with
  | none =>
    refine Or.inl ⟨?_, hrunning.finalizations⟩
    rw [hrunning.attempts, hattempt]
    rfl
  | some id =>
    refine ⟨trivial, fun completedAt => ⟨trivial, fun reply => Or.inr ?_⟩⟩
    have haside : Op.Aside (.orders .now) := trivial
    have hnow := hrunning.step haside completedAt
    refine ⟨id, _, reply, _, ?_, hnow.finalizations, rfl, hstatus, rfl, rfl⟩
    rw [attempts_append, hnow.attempts, hattempt]
    rfl

/-! The parts of the phases that do not concern the attempt. -/

theorem Op.Plain.aside {op : Op} (h : op.Plain) : op.Aside := by
  cases op <;> trivial

theorem plain_aside {p : Code α} (hp : Plain p) : p.Only Op.Aside fun _ => True :=
  hp.mono (fun _ h => h.aside) fun _ h => h

theorem accounts_plain {p : Code α} {f : α → Code SubmitResult} (hp : Plain p)
    (hf : ∀ a, Accounts run (f a)) : Accounts run (p.bind f) :=
  accounts_bind (plain_aside hp) fun a _ => hf a

theorem ofOrders_aside (p : Orders.Code α) : (ofOrders p).Only Op.Aside fun _ => True :=
  (Program.only_true p).lift fun _ _ => trivial

theorem aside_bind {β : Type} {p : Code α} {f : α → Code β} (hp : p.Only Op.Aside fun _ => True)
    (hf : ∀ a, (f a).Only Op.Aside fun _ => True) : (p.bind f).Only Op.Aside fun _ => True :=
  hp.bind (fun a _ => hf a) fun _ _ => trivial

theorem aside_await {op : Op} {f : Reply op → Code α} (hop : op.Aside)
    (hf : ∀ r, (f r).Only Op.Aside fun _ => True) :
    ((await op).bind f).Only Op.Aside fun _ => True := ⟨hop, hf⟩

theorem createOrder_aside (request : Request) (actorType actorId : String) :
    (createOrder svc request actorType actorId).Only Op.Aside fun _ => True := by
  unfold createOrder
  refine aside_bind ?_ fun _ => ?_
  · cases svc.budgetManager with
    | false => trivial
    | true =>
      refine aside_await trivial fun accepts => ?_
      cases accepts <;> trivial
  · split_ifs
    · trivial
    · trivial
    · refine aside_await trivial fun account => aside_bind (required_aside _ _) fun accountId => ?_
      refine aside_await trivial fun instrument => ?_
      refine aside_bind (required_aside _ _) fun instrumentId => ?_
      refine aside_await trivial fun existing => aside_bind (unclaimed_aside _) fun _ => ?_
      refine aside_await trivial fun now => aside_await trivial fun id => ?_
      refine aside_await trivial fun created => ?_
      refine aside_bind (plain_aside (returned_plain _)) fun order => ?_
      refine aside_await trivial fun audited => ?_
      exact aside_bind (plain_aside (returned_plain _)) fun _ => trivial
where
  required_aside (found : Except PyError (Option UUID)) (message : String) :
      (createOrder.required found message).Only Op.Aside fun _ => True := by
    refine aside_bind (plain_aside (returned_plain _)) fun found => ?_
    cases found <;> trivial
  unclaimed_aside (found : Except PyError (Option OrderRequestEntity)) :
      (createOrder.unclaimed found).Only Op.Aside fun _ => True := by
    refine aside_bind (plain_aside (returned_plain _)) fun found => ?_
    cases found <;> trivial

theorem skipped_status {intent : OrderIntent} {trace : Trace} {stopReason message : String}
    {errorPhase : Option String}
    (h : ¬((errorPhase = none ∨ errorPhase = some "sizing") ∧
      (stopReason = "decision_hold" ∨ stopReason = "decision_watch"))) :
    "stopped" = attemptStatus (skipped run intent trace stopReason message errorPhase) := by
  simp [attemptStatus, skipped, h]

theorem submitPhase_accounts (intent : OrderIntent) (trace : Trace) (request : Request)
    (pending : OrderRequestEntity) :
    Accounts run (submitPhase svc run intent trace request pending) := by
  unfold submitPhase
  refine accounts_bind (ofOrders_aside _).outcome fun outcome _ => ?_
  cases outcome with
  | error e => exact accounts_conclude rfl
  | ok submitted =>
    refine accounts_plain (plain_of_returns (postSubmitSync_returns _ _)) fun _ => ?_
    refine accounts_plain (plain_of_returns (recordOutcome_returns _ _)) fun _ => ?_
    apply accounts_conclude
    simp only [completedResult]
    cases submitted.status <;> rfl

theorem transitionFailed_accounts (intent : OrderIntent) (trace : Trace)
    (order : OrderRequestEntity)
    (target : String) (e : PyError) :
    Accounts run (transitionFailed svc run intent trace order target e) := accounts_conclude rfl

theorem pendingPhase_accounts (intent : OrderIntent) (trace : Trace) (request : Request)
    (validated : OrderRequestEntity) :
    Accounts run (pendingPhase svc run intent trace request validated) := by
  unfold pendingPhase
  refine accounts_bind (ofOrders_aside _).outcome fun outcome _ => ?_
  cases outcome with
  | error e => exact transitionFailed_accounts ..
  | ok pending => exact submitPhase_accounts ..

theorem staleGuardPhase_accounts (intent : OrderIntent) (trace : Trace) (request : Request)
    (validated : OrderRequestEntity) :
    Accounts run (staleGuardPhase svc run intent trace request validated) := by
  unfold staleGuardPhase
  refine accounts_plain (staleness_plain intent) fun stale => ?_
  match stale with
  | none => exact pendingPhase_accounts ..
  | some (code, message) =>
    dsimp only
    split
    · exact pendingPhase_accounts ..
    · exact accounts_record fun _ => accounts_conclude (skipped_status (by simp))

theorem createPhase_accounts (intent : OrderIntent) (trace : Trace) (request : Request) :
    Accounts run (createPhase svc run intent trace request) := by
  unfold createPhase
  refine accounts_bind (createOrder_aside ..).outcome fun created _ => ?_
  cases created with
  | error e => exact accounts_conclude rfl
  | ok order =>
    refine accounts_bind (ofOrders_aside _).outcome fun outcome _ => ?_
    cases outcome with
    | error e => exact transitionFailed_accounts ..
    | ok validated => exact accounts_await trivial fun _ => staleGuardPhase_accounts ..

theorem buyDuplicatePhase_accounts (intent : OrderIntent) (trace : Trace) (request : Request) :
    Accounts run (buyDuplicatePhase svc run intent trace request) := by
  unfold buyDuplicatePhase
  refine accounts_plain (buyDuplicate_plain intent) fun duplicate => ?_
  cases duplicate with
  | false => exact createPhase_accounts ..
  | true => exact accounts_record fun _ => accounts_conclude (skipped_status (by simp))

theorem blockedBy_accounts (intent : OrderIntent) (trace : Trace) {phase : String}
    (stopReason : String) (hphase : phase ≠ "sizing") :
    Accounts run (blockedBy run intent trace phase stopReason) :=
  accounts_conclude (skipped_status (by simp [hphase]))

theorem varPhase_accounts (intent : OrderIntent) (trace : Trace) (request : Request) :
    Accounts run (varPhase svc run intent trace request) := by
  unfold varPhase
  refine accounts_await trivial fun verdict => ?_
  refine accounts_plain (returned_plain verdict) fun verdict => ?_
  split
  · exact accounts_record fun _ => blockedBy_accounts _ _ _ (by decide)
  · exact buyDuplicatePhase_accounts ..

theorem compliancePhase_accounts (intent : OrderIntent) (trace : Trace) (request : Request) :
    Accounts run (compliancePhase svc run intent trace request) := by
  unfold compliancePhase
  refine accounts_await trivial fun verdict => ?_
  refine accounts_plain (returned_plain verdict) fun verdict => ?_
  refine accounts_plain (recordVerdict_plain intent verdict) fun _ => ?_
  split
  · exact blockedBy_accounts _ _ _ (by decide)
  · exact varPhase_accounts ..

theorem probePhase_accounts (intent : OrderIntent) (trace : Trace) (referencePrice : Option ℚ)
    (request : Request) :
    Accounts run (probePhase svc run intent trace referencePrice request) := by
  unfold probePhase
  split
  · refine accounts_plain (probeBlock_plain intent referencePrice) fun reason => ?_
    cases reason with
    | none => exact compliancePhase_accounts ..
    | some reason => exact accounts_record fun _ => blockedBy_accounts _ _ _ (by decide)
  · exact compliancePhase_accounts ..

theorem translationPhase_accounts (intent : OrderIntent) (trace : Trace)
    (referencePrice : Option ℚ) :
    Accounts run (translationPhase svc run intent trace referencePrice) := by
  unfold translationPhase
  refine accounts_plain (buildSubmitOrderRequest_plain intent) fun request => ?_
  cases request with
  | some request => exact probePhase_accounts ..
  | none =>
    apply accounts_conclude
    by_cases hhold : intent.aiBackendInputs.decisionType = "HOLD" <;>
      simp [attemptStatus, skipped, hhold]

theorem sellGuardPhase_accounts (intent : OrderIntent) (trace : Trace)
    (referencePrice : Option ℚ) :
    Accounts run (sellGuardPhase svc run intent trace referencePrice) := by
  unfold sellGuardPhase
  refine accounts_plain (sellGuard_plain intent) fun blocked => ?_
  cases blocked with
  | none => exact translationPhase_accounts ..
  | some availability => exact accounts_record fun _ => accounts_conclude (skipped_status (by simp))

theorem sizedPhase_accounts (intent : OrderIntent) (trace : Trace) (referencePrice : Option ℚ) :
    Accounts run (sizedPhase svc run intent trace referencePrice) :=
  accounts_plain (syncExecutionSizing_plain ..) fun _ => sellGuardPhase_accounts ..

theorem liquidityPhase_accounts (intent : OrderIntent) (trace : Trace) (quote : Option Quote)
    (referencePrice : Option ℚ) (sizing : SizingResult) :
    Accounts run (liquidityPhase svc run intent trace quote referencePrice sizing) := by
  unfold liquidityPhase
  dsimp only
  split
  · exact accounts_record fun _ => accounts_conclude (skipped_status (by simp))
  · split
    · exact sizedPhase_accounts ..
    · exact sizedPhase_accounts ..
  · exact sizedPhase_accounts ..

theorem resolveZeroQuantityOutcome_status (intent : OrderIntent) (sizing : SizingResult)
    (trace : Trace) : (resolveZeroQuantityOutcome intent sizing).1 = attemptStatus
      (skipped run intent trace (resolveZeroQuantityOutcome intent sizing).2.1
        (resolveZeroQuantityOutcome intent sizing).2.2 (some "sizing")) := by
  unfold resolveZeroQuantityOutcome
  by_cases hskip : sizing.skipReason = some "non_actionable_decision"
  · by_cases hhold : upper intent.aiBackendInputs.decisionType = "HOLD" <;>
      simp [attemptStatus, skipped, hskip, hhold]
  · simp [attemptStatus, skipped, hskip]

theorem sizingPhase_accounts (intent : OrderIntent) (trace : Trace) (isHpSell : Bool)
    (quote : Option Quote) (referencePrice : Option ℚ) :
    Accounts run (sizingPhase svc run intent trace isHpSell quote referencePrice) := by
  unfold sizingPhase
  refine accounts_plain (returned_plain _) fun inputs => ?_
  dsimp only
  split
  · refine accounts_plain (syncExecutionSizing_plain ..) fun _ => ?_
    exact accounts_conclude (resolveZeroQuantityOutcome_status ..)
  · exact liquidityPhase_accounts ..

theorem referencePhase_accounts (intent : OrderIntent) (trace : Trace) (isHpSell : Bool)
    (quote : Option Quote) (referencePrice : Option ℚ) :
    Accounts run (referencePhase svc run intent trace isHpSell quote referencePrice) := by
  unfold referencePhase
  dsimp only
  split
  · split
    · exact accounts_conclude (skipped_status (by simp))
    · exact sizingPhase_accounts ..
  · exact sizingPhase_accounts ..

theorem quotePhase_accounts (intent : OrderIntent) (trace : Trace) :
    Accounts run (quotePhase svc run intent trace) := by
  unfold quotePhase
  dsimp only
  split
  · refine accounts_await trivial fun resolution => ?_
    refine accounts_plain (returned_plain resolution) fun _ => ?_
    exact referencePhase_accounts ..
  · exact referencePhase_accounts ..

theorem createAttempt_starts (intent : OrderIntent) (tradeDecisionId : Option UUID)
    {start : Option UUID → Run} {f : Option UUID → Code SubmitResult}
    (hstart : ∀ attemptId, (start attemptId).attemptId = attemptId)
    (hf : ∀ attemptId, Accounts (start attemptId) (f attemptId)) :
    ((createAttempt intent tradeDecisionId).bind f).Watched (fun _ _ => True) Accounted [] := by
  have hrunning : ∀ attemptId past, attempts past = attemptId.toList → finalizations past = [] →
      (f attemptId).Watched (fun _ _ => True) Accounted past := by
    intro attemptId past hattempts hfinalizations
    refine (hf attemptId).watched past ⟨?_, hfinalizations⟩
    rw [hstart, hattempts]
  unfold createAttempt
  split
  · refine ⟨trivial, fun now => ⟨trivial, fun id => ⟨trivial, fun added => ?_⟩⟩⟩
    cases added with
    | ok _ => exact hrunning (some id) _ rfl rfl
    | error e => exact hrunning none _ rfl rfl
  · exact hrunning none [] rfl rfl

/-- Whatever the replies, and so whatever else is running, a run that returns has finalized the
attempt it recorded exactly once, as its last operation and in agreement with its result; a run
that raises has not finalized it. -/
theorem runExecutionPipeline_accounted (svc : ExecutionService) (intent : OrderIntent)
    (tradeDecisionId : Option UUID) (trace : Trace) (actorType actorId : String) {steps : Steps}
    {out : Except PyError SubmitResult}
    (hrun : (runExecutionPipeline svc intent tradeDecisionId trace actorType actorId).Performs
      steps out) : Accounted steps out :=
  (createAttempt_starts intent tradeDecisionId (fun _ => rfl)
    fun _ => quotePhase_accounts intent trace).ends hrun

def sampleService : ExecutionService where
  numerics := RealizedPnl.exact
  sha256 := id
  uuidOf := fun _ => none
  exceptionText := fun _ => "error"
  decimalText := fun _ => "3"
  timeText := fun _ => "now"

/-- A decision to sell three shares at a limit. -/
def sampleIntent : OrderIntent where
  decisionContextId := some 7
  request :=
    { accountRef := "main"
      clientOrderId := ""
      correlationId := "c-1"
      strategyId := "s-1"
      symbol := "005930"
      market := "KRX"
      side := .sell
      orderType := .limit
      quantity := 3
      price := some 100 }
  context := some { decisionContext := some ⟨7, 1⟩ }
  aiBackendInputs :=
    { decisionType := "SELL"
      expectedValueGatePassed := true
      expectedReturnBps := some 1
      expectedDownsideBps := some 1
      netExpectedValueBps := some 1
      finalTradeScore := some 1
      minimumRequiredEdgeBps := some 1
      edgeAfterCostBps := some 1
      estimatedRoundTripCostBps := some 1
      slippageBufferBps := some 1 }

/-- Replies that stand in no run's way; the broker accepts. -/
def granted : (op : Op) → Reply op
  | .orders .now => 0
  | .orders .uuid4 => 1
  | .orders .sleep => ()
  | .orders (.ordersGet _) => none
  | .orders (.ordersUpdateStatus ..) => .ok ()
  | .orders (.orderStateEventsAdd _) => ()
  | .orders (.auditLogsAdd _) => ()
  | .orders (.brokerOrdersAdd _) => ()
  | .orders (.submissionAttemptsAdd _) => ()
  | .orders (.strategiesGetByCode ..) => none
  | .orders (.reconciliationsGetRun _) => none
  | .orders (.reconciliationsGetActiveRun _) => none
  | .orders (.reconciliationsListPendingRuns ..) => []
  | .orders (.reconciliationsGetRunOrderLinks _) => []
  | .orders (.reconciliationsAddRun run) => run
  | .orders (.reconciliationsUpdateRunStatus ..) => ()
  | .orders (.reconciliationsAcquireLock ..) => true
  | .orders (.reconciliationsReleaseLock ..) => ()
  | .orders (.reconciliationsIsLocked _) => false
  | .orders (.reconciliationsAttachOrderMismatch _) => ()
  | .orders (.brokerSubmitOrder _ request) => .ok (accepted request)
  | .orders (.restSubmitOrder request _) => .ok (accepted request)
  | .executionAttemptsAdd _ => .ok ()
  | .executionAttemptsUpdateStatus .. => .ok ()
  | .guardrailEvaluationsAdd _ => ()
  | .tradeDecisionsSyncSizing .. => ()
  | .symbolTradeStatesLink _ => ()
  | .resolveQuote .. => .ok ⟨none, none, []⟩
  | .sellGuardResolve .. => .ok ⟨3, 3, 0, 0, false, none⟩
  | .submitTimeCompliance .. => .ok ⟨"compliance_v1", false, [], none, false⟩
  | .varThreshold _ => .ok ⟨"var_v1", false, [], none, false⟩
  | .accountsFindOne _ => .ok (some 1)
  | .instrumentsGetBySymbol .. => .ok (some 2)
  | .ordersList _ => .ok []
  | .ordersGetByClientOrderId _ => .ok none
  | .ordersAdd order => .ok order
  | .auditLogsAddCreate .. => .ok ()
  | .canAcceptNewEntries => true
  | .cashLatestSnapshotAt _ => .ok (some 0)
  | .positionsListLatest _ => .ok []
  | .syncHealthIsStale => .ok (false, none)
  | .brokerOrdersListByOrderRequest _ => .ok []
  | .syncOrderPostSubmit .. => .ok ()
where
  accepted (request : SubmitOrderRequest) : SubmitOrderResult :=
    { accepted := true
      brokerName := .koreaInvestment
      clientOrderId := request.clientOrderId
      brokerOrderId := some "0000117057"
      brokerStatus := .submitted
      ackTimestamp := none }

/-- A run alone with these replies. -/
def sampleRun : Except PyError SubmitResult × Unit :=
  Program.run (fun op s => (granted op, s))
    (runExecutionPipeline sampleService sampleIntent (some 5) []) ()

def sampleSteps : Steps :=
  Program.trace (fun op s => (granted op, s))
    (runExecutionPipeline sampleService sampleIntent (some 5) []) ()

theorem runExecutionPipeline_accounted_sample :
    Accounted sampleSteps sampleRun.1 ∧ attempts sampleSteps = [1] :=
  ⟨runExecutionPipeline_accounted _ _ _ _ _ _ (Program.performs_run _ _ _), by decide +kernel⟩

end AgentTrading.Execution
