import AgentTrading.Execution.Pipeline
import AgentTrading.Orders.SubmissionHistory

/-! What a run has to know before it makes an order, before it makes the order pending and before it
goes to the broker, and what its result tells about the broker. -/
namespace AgentTrading.Execution
open Domain Library Repositories Sizing

/-- What was sent to the broker, for which order, and the broker's replies. -/
def sent (steps : Steps) :
    List (UUID × SubmitOrderRequest × Except PyError SubmitOrderResult) :=
  steps.filterMap fun
    | ⟨.orders (.brokerSubmitOrder id request), reply⟩ => some (id, request, reply)
    | _ => none

/-- The drafts that were stored and what was stored of them. -/
def placements (steps : Steps) : List (OrderRequestEntity × Except PyError OrderRequestEntity) :=
  steps.filterMap fun
    | ⟨.ordersAdd draft, reply⟩ => some (draft, reply)
    | _ => none

@[simp] theorem sent_append (steps rest : Steps) : sent (steps ++ rest) = sent steps ++ sent rest :=
  List.filterMap_append

@[simp] theorem placements_append (steps rest : Steps) :
    placements (steps ++ rest) = placements steps ++ placements rest := List.filterMap_append

/-- The sell guard was asked about exactly this quantity and did not block it, unless it failed. -/
def SellCleared (accountId : Option UUID) (request : Request) (steps : Steps) : Prop :=
  request.side = .sell → 0 < request.quantity → ∀ id, accountId = some id →
    ∃ reply, ⟨.sellGuardResolve id request.symbol request.quantity, reply⟩ ∈ steps ∧
      ∀ availability, reply = .ok availability → availability.isBlocked = false

/-- Why no recent buy stands in the way: there is no account or no such instrument, a lock is left
to the order manager, or none of the account's recent orders is one. -/
inductive NoRecentBuy (accountId : Option UUID) (request : Request) (steps : Steps) : Prop
  | noAccount (h : accountId = none)
      (hfound : ⟨.accountsFindOne request.accountRef, .ok none⟩ ∈ steps)
  | locked (id : UUID) (h : ⟨.orders (.reconciliationsIsLocked
      ⟨id, none, some request.symbol, some request.side.value⟩), true⟩ ∈ steps)
  | noInstrument (h : ⟨.instrumentsGetBySymbol request.symbol request.market, .ok none⟩ ∈ steps)
  | none_listed (id instrumentId : UUID) (now : Time) (orders : List OrderRequestEntity)
      (hinstrument : ⟨.instrumentsGetBySymbol request.symbol request.market,
        .ok (some instrumentId)⟩ ∈ steps)
      (horders : ⟨.ordersList ⟨id, some activeBuyStatuses, now - buyDuplicateCooldown, none, 100⟩,
        .ok orders⟩ ∈ steps)
      (h : ∀ order ∈ orders, ¬(order.instrumentId = instrumentId ∧ order.side = .buy))

/-- What is known of a request that an order is made of. -/
structure Screened (sourceType : String) (intent : OrderIntent) (request : Request)
    (steps : Steps) : Prop where
  side : request.side = intent.request.side
  symbol : request.symbol = intent.request.symbol
  actionable : intent.aiBackendInputs.decisionType ∈ actionableTypes
  anchored : hasRequiredExpectedValueAnchor intent.aiBackendInputs intent.expectedValueAnchor = true
  positive : 0 < request.quantity
  sellCleared : SellCleared intent.accountId request steps
  compliance : ∃ verdict, ⟨.submitTimeCompliance request sourceType, .ok verdict⟩ ∈ steps ∧
    verdict.isBlocking = false
  risk : ∃ verdict, ⟨.varThreshold sourceType, .ok verdict⟩ ∈ steps ∧ verdict.isBlocking = false
  noRecentBuy : request.side = .buy → NoRecentBuy intent.accountId request steps

/-- The draft is the request's, for the account and the instrument it names, and its client order
identifier is free. -/
structure Drafted (svc : ExecutionService) (request : Request) (draft : OrderRequestEntity)
    (steps : Steps) : Prop where
  draft : ∃ accountId instrumentId now id,
    draft = draftOrder svc request accountId instrumentId now id ∧
    ⟨.accountsFindOne request.accountRef, .ok (some accountId)⟩ ∈ steps ∧
    ⟨.instrumentsGetBySymbol request.symbol request.market, .ok (some instrumentId)⟩ ∈ steps
  free : ⟨.ordersGetByClientOrderId request.clientOrderId, .ok none⟩ ∈ steps
  budget : svc.budgetManager = true → ⟨.canAcceptNewEntries, true⟩ ∈ steps

/-- The snapshots are not older than the threshold, or they need not be. -/
inductive Fresh (svc : ExecutionService) (sourceType : String) (intent : OrderIntent)
    (steps : Steps) : Prop
  | heldPositionSell (h : isHeldPositionSellPath sourceType intent.aiBackendInputs.decisionType
      intent.request.side = true)
  | account (id : UUID) (now cashAt : Time) (positions : List (Option ℚ × Time))
      (hid : intent.accountId = some id) (hnow : ⟨.orders .now, now⟩ ∈ steps)
      (hcash : ⟨.cashLatestSnapshotAt id, .ok (some cashAt)⟩ ∈ steps)
      (hpositions : ⟨.positionsListLatest id, .ok positions⟩ ∈ steps)
      (hrecent : now - cashAt ≤ svc.staleThresholdSeconds * 1000000)
      (hheld : ∀ newest, (positions.filterMap fun row =>
        if row.1.any (0 < ·) then some row.2 else none).max? = some newest →
          now - newest ≤ svc.staleThresholdSeconds * 1000000)
  | run (lastRunAt : Option Time) (hid : intent.accountId = none)
      (h : ⟨.syncHealthIsStale, .ok (false, lastRunAt)⟩ ∈ steps)

/-- The order was stored with the status. -/
def Stored (id : UUID) (status : OrderStatus) (steps : Steps) : Prop :=
  ∃ reasonCode reasonMessage version submittedAt,
    ⟨.orders (.ordersUpdateStatus id status reasonCode reasonMessage (some version) submittedAt),
      .ok ()⟩ ∈ steps

/-- No reconciliation lock was in the way of the request. -/
def Unlocked (request : SubmitOrderRequest) (steps : Steps) : Prop :=
  ∃ accountId strategyId, ⟨.orders (.reconciliationsIsLocked
    ⟨accountId, strategyId, some request.symbol, some request.side.value⟩), false⟩ ∈ steps

/-- What must be known before an operation. -/
def Gate (svc : ExecutionService) (sourceType : String) (intent : OrderIntent) (past : Steps) :
    Op → Prop
  | .ordersAdd draft => sent past = [] ∧ placements past = [] ∧
      ∃ request, Screened sourceType intent request past ∧ Drafted svc request draft past
  | .orders (.ordersUpdateStatus _ .pendingSubmit _ _ _ _) => sent past = [] ∧
      ∃ request draft created, placements past = [(draft, .ok created)] ∧
        Screened sourceType intent request past ∧ Drafted svc request draft past ∧
        Fresh svc sourceType intent past
  | .orders (.brokerSubmitOrder id submitted) => sent past = [] ∧
      ∃ request draft created, placements past = [(draft, .ok created)] ∧
        Screened sourceType intent request past ∧ Drafted svc request draft past ∧
        Fresh svc sourceType intent past ∧ Stored id .pendingSubmit past ∧
          submitted = request.toSubmitOrderRequest ∧
        (svc.reconciliationService = true → Unlocked submitted past)
  | _ => True

/-- What a run that ends so has had to do with the broker. -/
inductive Told (steps : Steps) : Except PyError SubmitResult → Prop
  | raised (e : PyError) (hsent : sent steps = []) : Told steps (.error e)
  | stopped (result : SubmitResult) (hstatus : result.status = "SKIPPED" ∨ result.status = "ERROR")
      (hresponse : result.submitResponse = none) (hsent : sent steps = []) : Told steps (.ok result)
  | failed (result : SubmitResult) (hstatus : result.status = "ERROR")
      (hphase : result.errorPhase = some "order_submit") (hresponse : result.submitResponse = none)
      (hsent : (sent steps).length ≤ 1) : Told steps (.ok result)
  | locked (result : SubmitResult) (order : OrderRequestEntity)
      (hstatus : result.status = "RECONCILE_REQUIRED")
      (hresponse : result.submitResponse = some order)
      (horder : order.status = .reconcileRequired) (hsent : sent steps = []) :
        Told steps (.ok result)
  | answered (result : SubmitResult) (order : OrderRequestEntity) (id : UUID)
      (request : SubmitOrderRequest) (reply : Except PyError SubmitOrderResult)
      (hstatus : result.status = resultStatus order.status)
      (hresponse : result.submitResponse = some order) (hsent : sent steps = [(id, request, reply)])
      (hreply : Orders.replyStatus reply = some order.status) : Told steps (.ok result)

variable {svc : ExecutionService} {sourceType : String} {intent : OrderIntent} {request : Request}
variable {draft : OrderRequestEntity} {steps steps' : Steps}

theorem SellCleared.mono {accountId : Option UUID} (h : SellCleared accountId request steps)
    (hsub : steps ⊆ steps') : SellCleared accountId request steps' := by
  intro hside hpositive id hid
  obtain ⟨reply, hreply, hfree⟩ := h hside hpositive id hid
  exact ⟨reply, hsub hreply, hfree⟩

theorem NoRecentBuy.mono {accountId : Option UUID} (h : NoRecentBuy accountId request steps)
    (hsub : steps ⊆ steps') : NoRecentBuy accountId request steps' := by
  cases h with
  | noAccount h hfound => exact .noAccount h (hsub hfound)
  | locked id h => exact .locked id (hsub h)
  | noInstrument h => exact .noInstrument (hsub h)
  | none_listed id instrumentId now orders hinstrument horders h =>
    exact .none_listed id instrumentId now orders (hsub hinstrument) (hsub horders) h

theorem Screened.mono (h : Screened sourceType intent request steps) (hsub : steps ⊆ steps') :
    Screened sourceType intent request steps' where
  side := h.side
  symbol := h.symbol
  actionable := h.actionable
  anchored := h.anchored
  positive := h.positive
  sellCleared := h.sellCleared.mono hsub
  compliance := h.compliance.imp fun _ h => ⟨hsub h.1, h.2⟩
  risk := h.risk.imp fun _ h => ⟨hsub h.1, h.2⟩
  noRecentBuy := fun hside => (h.noRecentBuy hside).mono hsub

theorem Drafted.mono (h : Drafted svc request draft steps) (hsub : steps ⊆ steps') :
    Drafted svc request draft steps' := by
  obtain ⟨⟨accountId, instrumentId, now, id, hdraft, haccount, hinstrument⟩, hfree, hbudget⟩ := h
  exact ⟨⟨accountId, instrumentId, now, id, hdraft, hsub haccount, hsub hinstrument⟩, hsub hfree,
    fun h => hsub (hbudget h)⟩

theorem Fresh.mono (h : Fresh svc sourceType intent steps) (hsub : steps ⊆ steps') :
    Fresh svc sourceType intent steps' := by
  cases h with
  | heldPositionSell h => exact .heldPositionSell h
  | account id now cashAt positions hid hnow hcash hpositions hrecent hheld =>
    exact .account id now cashAt positions hid (hsub hnow) (hsub hcash)
      (hsub hpositions) hrecent hheld
  | run lastRunAt hid h => exact .run lastRunAt hid (hsub h)

theorem Stored.mono {id : UUID} {status : OrderStatus} (h : Stored id status steps)
    (hsub : steps ⊆ steps') : Stored id status steps' := by
  obtain ⟨rc, rm, version, submittedAt, hmem⟩ := h
  exact ⟨rc, rm, version, submittedAt, hsub hmem⟩

end AgentTrading.Execution
