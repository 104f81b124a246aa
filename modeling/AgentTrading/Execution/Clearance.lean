import AgentTrading.Execution.Accounting
import AgentTrading.Execution.Evidence

/-! A run passes the gates with what they ask for, and its result tells the truth about the
broker. -/
namespace AgentTrading.Execution
open Domain Library Repositories Sizing

variable {svc : ExecutionService} {run : Run} {intent : OrderIntent} {request : Request}
variable {draft created : OrderRequestEntity} {steps known : Steps}
variable {placed : List (OrderRequestEntity × Except PyError OrderRequestEntity)}

/-- What is known of an order that may be made pending. -/
structure Ready (svc : ExecutionService) (run : Run) (intent : OrderIntent) (request : Request)
    (draft : OrderRequestEntity) (known : Steps) : Prop where
  screened : Screened run.sourceType intent request known
  drafted : Drafted svc request draft known
  fresh : Fresh svc run.sourceType intent known

theorem submits_gate {pending : OrderRequestEntity}
    (hready : Ready svc run intent request draft known)
    (hpending : Stored pending.orderRequestId .pendingSubmit known) {did : Orders.Steps}
    {op : Orders.Op}
    {past : Steps}
    (h : Orders.Submits svc.reconciliationService pending request.toSubmitOrderRequest
      did op) (hafter : After [(draft, .ok created)] known did past) :
    Gate svc run.sourceType intent past (.orders op) := by
  cases op with
  | ordersUpdateStatus id status rc rm expected submittedAt =>
    cases status <;> trivial
  | brokerSubmitOrder id submitted =>
    obtain ⟨rfl, rfl, hunsent, hlock⟩ := h
    refine ⟨hafter.sent.trans hunsent, request, draft, created, hafter.placed,
      hready.screened.mono hafter.known, hready.drafted.mono hafter.known,
      hready.fresh.mono hafter.known, hpending.mono hafter.known, rfl, fun hservice => ?_⟩
    obtain ⟨strategyId, hfree⟩ := hlock hservice
    exact ⟨_, strategyId, hafter.did (List.mem_map_of_mem hfree)⟩
  | _ => trivial

theorem afterSubmit_clears {trace : Trace} {submitted : OrderRequestEntity} :
    Clears svc run intent
      (fun steps => Told steps (.ok (completedResult run intent trace submitted)))
      (afterSubmit svc run intent trace request submitted) := by
  have hnoted : ∀ {p : Code Unit}, p.Only Op.Plain (· = .ok ()) → p.Only Op.Ungated (· = .ok ()) :=
    fun hp => hp.mono (fun _ h => h.ungated) fun _ h => h
  refine clears_after (hnoted (postSubmitSync_returns _ _)) (fun _ _ h hrest => h.append hrest)
    (fun _ _ => ?_) fun _ _ h => nomatch h
  refine clears_after (hnoted (recordOutcome_returns _ _)) (fun _ _ h hrest => h.append hrest)
    (fun _ _ => ?_) fun _ _ h => nomatch h
  exact conclude_clears fun _ h => h

theorem settled_told {trace : Trace} {pending submitted : OrderRequestEntity}
    {did : Orders.Steps} (hafter : After placed known did steps)
    (h : Orders.Settled pending.orderRequestId request.toSubmitOrderRequest did (.ok submitted)) :
    Told steps (.ok (completedResult run intent trace submitted)) := by
  obtain ⟨-, ⟨hunsent, hstatus⟩ | ⟨reply, hsent, hreply⟩⟩ := h
  · refine .locked _ submitted ?_ rfl hstatus (hafter.sent.trans hunsent)
    simp only [completedResult, hstatus]
    rfl
  · exact .answered _ submitted _ _ reply rfl rfl (hafter.sent.trans hsent) hreply

theorem submitPhase_clears {pending : OrderRequestEntity} {trace : Trace}
    (hready : Ready svc run intent request draft known)
    (hpending : Stored pending.orderRequestId .pendingSubmit known) :
    Clears svc run intent (Known [(draft, .ok created)] known)
      (submitPhase svc run intent trace request pending) := by
  have hsubmit : Passes svc run intent (Known [(draft, .ok created)] known) _ _ := ofOrders_leads
    (Orders.submitOrderToBroker_leads svc.reconciliationService pending request.toSubmitOrderRequest
      run.actorType run.actorId) fun did op past h hafter => submits_gate hready hpending h hafter
  refine hsubmit.bind (fun outcome => ?_) fun _ _ ⟨_, _, h, _⟩ => nomatch h
  cases outcome with
  | error e =>
    refine conclude_clears fun steps ⟨_, did, ha, hafter, hsettled⟩ => ?_
    obtain rfl := Except.ok.inj ha
    refine .failed _ rfl rfl rfl ?_
    rw [hafter.sent]
    rcases hsettled with h | ⟨reply, h⟩ <;> simp [h]
  | ok submitted =>
    refine afterSubmit_clears.weaken fun steps ⟨_, did, ha, hafter, hsettled⟩ => ?_
    obtain rfl := Except.ok.inj ha
    exact settled_told hafter hsettled

theorem targets_gate {target : OrderStatus} (hready : target = .pendingSubmit →
      Ready svc run intent request draft known) {did : Orders.Steps} {op : Orders.Op} {past : Steps}
    (h : op.Targets target ∧ Orders.submissions did = [])
    (hafter : After [(draft, .ok created)] known did past) :
    Gate svc run.sourceType intent past (.orders op) := by
  cases op with
  | ordersUpdateStatus id status rc rm expected submittedAt =>
    obtain ⟨rfl, hunsent⟩ := h
    cases status <;> try trivial
    have hready := hready rfl
    exact ⟨hafter.sent.trans hunsent, request, draft, created, hafter.placed,
      hready.screened.mono hafter.known, hready.drafted.mono hafter.known,
      hready.fresh.mono hafter.known⟩
  | brokerSubmitOrder id submitted => exact h.1.elim
  | _ => trivial

theorem stored_of_wrote {id : UUID} {status : OrderStatus} {did : Orders.Steps}
    (h : Orders.Wrote id status did) (hsub : liftSteps did ⊆ steps) : Stored id status steps := by
  obtain ⟨rc, rm, version, submittedAt, hmem⟩ := h
  exact ⟨rc, rm, version, submittedAt, hsub (List.mem_map_of_mem hmem)⟩

theorem transition_clears {order : OrderRequestEntity} {target : OrderStatus}
    {f : Except PyError OrderRequestEntity → Code SubmitResult}
    (hready : target = .pendingSubmit → Ready svc run intent request draft known)
    (hf : ∀ e, Clears svc run intent (Known [(draft, .ok created)] known) (f (.error e)))
    (hmoved : ∀ moved known', known ⊆ known' → Stored moved.orderRequestId target known' →
      Clears svc run intent (Known [(draft, .ok created)] known') (f (.ok moved))) :
    Clears svc run intent (Known [(draft, .ok created)] known)
      ((transition svc run order target).outcome.bind f) := by
  have htransition : Passes svc run intent (Known [(draft, .ok created)] known) _ _ :=
    ofOrders_leads (Orders.transitionTo_leads_alone svc.reconciliationService order target
      { actorType := run.actorType, actorId := run.actorId } (Nat.succ_ne_zero 2))
      fun did op past h hafter => targets_gate hready h hafter
  refine htransition.bind (fun outcome => ⟨?_⟩) fun _ _ ⟨_, _, h, _⟩ => nomatch h
  rintro past ⟨_, did, ha, hafter, hwritten, hunsent⟩
  obtain rfl := Except.ok.inj ha
  have hsent : sent past = [] := hafter.sent.trans hunsent
  cases outcome with
  | error e => exact (hf e).watched past ⟨hsent, hafter.placed, hafter.known⟩
  | ok moved =>
    -- from here on everything performed is known
    refine (hmoved moved past hafter.known ?_).watched past ⟨hsent, hafter.placed, fun _ h => h⟩
    exact stored_of_wrote (hwritten moved rfl).2 hafter.did

theorem pendingPhase_clears {validated : OrderRequestEntity} {trace : Trace}
    (hready : Ready svc run intent request draft known) :
    Clears svc run intent (Known [(draft, .ok created)] known)
      (pendingPhase svc run intent trace request validated) := by
  refine transition_clears (fun _ => hready) (fun e => failed_clears) fun pending known'
    hsub hstored => ?_
  refine submitPhase_clears ⟨?_, ?_, ?_⟩ hstored
  · exact hready.screened.mono hsub
  · exact hready.drafted.mono hsub
  · exact hready.fresh.mono hsub

theorem olderThan_false {seconds : Int} {now stamp : Time}
    (h : olderThan seconds now stamp = false) : now - stamp ≤ seconds * 1000000 := by
  simpa [olderThan] using h

theorem checkAccountSnapshotFreshness_finds (id : UUID) (hid : intent.accountId = some id) :
    Finds svc run intent placed known (checkAccountSnapshotFreshness svc id)
      fun steps freshness => freshness.isStale = false → Fresh svc run.sourceType intent steps := by
  refine finds_await trivial fun now => finds_await trivial fun cash => ?_
  refine finds_returned fun cashAt hcash => ?_
  subst hcash
  cases cashAt with
  | none => exact finds_ret fun _ _ h => nomatch h
  | some cashAt =>
    refine finds_await trivial fun positions => finds_returned fun positions' hpositions => ?_
    subst hpositions
    refine finds_ret fun steps hsub hfresh => ?_
    obtain ⟨hrecent, hheld⟩ := Bool.or_eq_false_iff.mp hfresh
    refine .account id now cashAt positions' hid (hsub ?_) (hsub ?_) (hsub ?_)
      (olderThan_false hrecent) fun newest hnewest => ?_
    · simp
    · simp
    · simp
    · exact olderThan_false (by simpa [hnewest] using hheld)

theorem staleness_finds : Finds svc run intent placed known (staleness svc intent)
    fun steps stale => stale = none → Fresh svc run.sourceType intent steps := by
  unfold staleness
  cases hid : intent.accountId with
  | some id =>
    refine finds_bind (checkAccountSnapshotFreshness_finds id hid) fun freshness known' _ hfresh =>
      ?_
    refine finds_ret fun steps hsub hnone => (hfresh ?_).mono hsub
    simpa using hnone
  | none =>
    refine finds_await trivial fun health => finds_returned fun health' hhealth => ?_
    subst hhealth
    obtain ⟨isStale, lastRunAt⟩ := health'
    refine finds_ret fun steps hsub hnone => ?_
    obtain rfl : isStale = false := by simpa using hnone
    exact .run lastRunAt hid (hsub (List.mem_cons_self))

theorem staleGuardPhase_clears {validated : OrderRequestEntity} {trace : Trace}
    (hscreened : Screened run.sourceType intent request known)
    (hdrafted : Drafted svc request draft known) :
    Clears svc run intent (Known [(draft, .ok created)] known)
      (staleGuardPhase svc run intent trace request validated) := by
  unfold staleGuardPhase
  refine clears_finds staleness_finds fun stale known' hsub hfresh => ?_
  have hready (h : Fresh svc run.sourceType intent known') :
      Ready svc run intent request draft known' :=
    ⟨hscreened.mono hsub, hdrafted.mono hsub, h⟩
  match stale with
  | none => exact pendingPhase_clears (hready (hfresh rfl))
  | some (code, message) =>
    dsimp only
    split
    case isTrue hsell => exact pendingPhase_clears (hready (.heldPositionSell hsell))
    case isFalse => exact passes_await trivial fun _ => skipped_clears

theorem required_finds {found : Except PyError (Option UUID)} {message : String} :
    Finds svc run intent placed known (createOrder.required found message)
      fun _ id => found = .ok (some id) := by
  refine finds_returned fun id hid => ?_
  cases id with
  | none => exact finds_raise
  | some id => exact finds_ret fun _ _ => hid

theorem unclaimed_finds {found : Except PyError (Option OrderRequestEntity)} :
    Finds svc run intent placed known (createOrder.unclaimed found) fun _ _ =>
      found = .ok none := by
  refine finds_returned fun order horder => ?_
  cases order with
  | none => exact finds_ret fun _ _ => horder
  | some order => exact finds_raise

theorem checkBudget_finds {budgetManager : Bool} :
    Finds svc run intent placed known (createOrder.checkBudget budgetManager)
      fun steps _ => budgetManager = true → ⟨.canAcceptNewEntries, true⟩ ∈ steps := by
  cases budgetManager with
  | false => exact finds_ret fun _ _ h => nomatch h
  | true =>
    refine finds_await trivial fun accepts => ?_
    cases accepts with
    | false => exact finds_raise
    | true => exact finds_ret fun _ hsub _ => hsub List.mem_cons_self

/-- The draft was stored and nothing was sent. -/
def Placed (svc : ExecutionService) (request : Request) (known steps : Steps) :
    Except PyError OrderRequestEntity → Prop
  | .error _ => sent steps = []
  | .ok created => ∃ draft, Known [(draft, .ok created)] known steps ∧
      Drafted svc request draft steps

theorem createOrder_places {actorType actorId : String}
    (hscreened : Screened run.sourceType intent request known) :
    Passes svc run intent (Known [] known) (createOrder svc request actorType actorId)
      (Placed svc request known) := by
  have hraised : ∀ e steps, sent steps = [] → Placed svc request known steps (.error e) :=
    fun _ _ h => h
  unfold createOrder
  refine passes_finds checkBudget_finds (fun _ k₁ hk₁ hbudget => ?_) hraised
  split
  · exact Program.leads_raise fun _ h => h.unsent
  split
  · exact Program.leads_raise fun _ h => h.unsent
  refine passes_await trivial fun account => passes_finds required_finds
    (fun accountId k₂ hk₂ haccount => ?_) hraised
  obtain ⟨haccountKnown, h₁₂⟩ := List.cons_subset.mp hk₂
  refine passes_await trivial fun instrument => passes_finds required_finds
    (fun instrumentId k₃ hk₃ hinstrument => ?_) hraised
  obtain ⟨hinstrumentKnown, h₂₃⟩ := List.cons_subset.mp hk₃
  refine passes_await trivial fun existing => passes_finds unclaimed_finds
    (fun _ k₄ hk₄ hexisting => ?_) hraised
  obtain ⟨hexistingKnown, h₃₄⟩ := List.cons_subset.mp hk₄
  subst haccount hinstrument hexisting
  refine passes_await trivial fun now => passes_await trivial fun id => ⟨fun past hpast => ?_⟩
  have hsub : k₄ ⊆ past := fun _ hstep =>
    hpast.known (List.mem_cons_of_mem _ (List.mem_cons_of_mem _ hstep))
  have hdrafted : Drafted svc request (draftOrder svc request accountId instrumentId now id) past :=
    ⟨⟨accountId, instrumentId, now, id, rfl, hsub (h₃₄ (h₂₃ haccountKnown)),
      hsub (h₃₄ hinstrumentKnown)⟩, hsub hexistingKnown,
      fun h => hsub (h₃₄ (h₂₃ (h₁₂ (hbudget h))))⟩
  have hknown : known ⊆ past := fun _ hstep => hsub (h₃₄ (h₂₃ (h₁₂ (hk₁ hstep))))
  refine ⟨⟨hpast.unsent, hpast.placed, request, hscreened.mono hknown, hdrafted⟩, fun added => ?_⟩
  have hplaced : Known [(draftOrder svc request accountId instrumentId now id, added)] past
      (past ++ [⟨.ordersAdd (draftOrder svc request accountId instrumentId now id), added⟩]) := by
    refine ⟨?_, ?_, List.subset_append_left _ _⟩
    · rw [sent_append, hpast.unsent]
      rfl
    · rw [placements_append, hpast.placed]
      rfl
  cases added with
  | error e => exact hplaced.unsent
  | ok created =>
    refine Program.Leads.starts hplaced (passes_await trivial fun audited =>
      passes_returned (fun _ _ => ?_) hraised)
    refine Program.leads_ret fun steps h => ⟨_, h.weaken ?_, hdrafted.mono ?_⟩
    · exact fun _ hstep => List.mem_cons_of_mem _ (hknown hstep)
    · exact fun _ hstep => h.known (List.mem_cons_of_mem _ hstep)

theorem createPhase_clears {trace : Trace}
    (hscreened : Screened run.sourceType intent request known) :
    Clears svc run intent (Known [] known) (createPhase svc run intent trace request) := by
  unfold createPhase
  refine (createOrder_places hscreened).outcome.bind (fun outcome => ⟨?_⟩) fun _ _ ⟨_, h, _⟩ =>
    nomatch h
  rintro past ⟨_, ha, hplaced⟩
  obtain rfl := Except.ok.inj ha
  cases outcome with
  | error e =>
    have hunsent : sent past = [] := hplaced
    exact Program.Leads.starts hunsent (conclude_clears fun _ h => .stopped _ (.inr rfl) rfl h)
  | ok created =>
    obtain ⟨draft, hknown, hdrafted⟩ := hplaced
    have hscreened := hscreened.mono hknown.known
    obtain ⟨known', hknown', hall⟩ := hknown.all
    have hnotPending : OrderStatus.validated = .pendingSubmit →
        Ready svc run intent request draft known' := nofun
    refine Program.Leads.starts hknown' (transition_clears hnotPending (fun e => failed_clears)
      fun validated known₂ hsub _ => passes_await trivial fun _ => staleGuardPhase_clears ?_ ?_)
    · exact hscreened.mono fun _ h => List.mem_cons_of_mem _ (hsub (hall h))
    · exact hdrafted.mono fun _ h => List.mem_cons_of_mem _ (hsub (hall h))

/-- What is known of a request before compliance has looked at it. -/
structure Translated (intent : OrderIntent) (request : Request) (known : Steps) : Prop where
  side : request.side = intent.request.side
  symbol : request.symbol = intent.request.symbol
  market : request.market = intent.request.market
  accountRef : request.accountRef = intent.request.accountRef
  actionable : intent.aiBackendInputs.decisionType ∈ actionableTypes
  anchored : hasRequiredExpectedValueAnchor intent.aiBackendInputs intent.expectedValueAnchor = true
  positive : 0 < request.quantity
  sellCleared : SellCleared intent.accountId request known

theorem Translated.mono {known' : Steps} (h : Translated intent request known)
    (hsub : known ⊆ known') : Translated intent request known' :=
  { h with sellCleared := h.sellCleared.mono hsub }

def Complied (run : Run) (request : Request) (known : Steps) : Prop :=
  ∃ verdict, ⟨.submitTimeCompliance request run.sourceType, .ok verdict⟩ ∈ known ∧
    verdict.isBlocking = false

def Bearable (run : Run) (known : Steps) : Prop :=
  ∃ verdict, ⟨.varThreshold run.sourceType, .ok verdict⟩ ∈ known ∧ verdict.isBlocking = false

theorem resolveAccount_finds : Finds svc run intent placed known (resolveAccount intent)
    fun steps account => account = none → intent.accountId = none ∧
      ⟨.accountsFindOne intent.request.accountRef, .ok none⟩ ∈ steps := by
  unfold resolveAccount
  cases hid : intent.accountId with
  | some id => exact finds_ret fun _ _ h => nomatch h
  | none =>
    refine finds_await trivial fun account => ?_
    cases account with
    | error e => exact finds_raise
    | ok account =>
      refine finds_ret fun steps hsub hnone => ⟨rfl, hsub ?_⟩
      rw [hnone]
      exact List.mem_cons_self

theorem hasRecentActiveBuyOrder_finds {id : UUID} {now : Time}
    (h : Translated intent request known) :
    Finds svc run intent placed known (hasRecentActiveBuyOrder id intent.request.symbol
      intent.request.market (now - buyDuplicateCooldown))
      fun steps duplicate => duplicate = false → NoRecentBuy intent.accountId request steps := by
  rw [← h.symbol, ← h.market]
  refine finds_await trivial fun instrument => finds_returned fun found hfound => ?_
  subst hfound
  cases found with
  | none => exact finds_ret fun _ hsub _ => .noInstrument (hsub List.mem_cons_self)
  | some instrumentId =>
    refine finds_await trivial fun orders => finds_returned fun orders' horders => ?_
    subst horders
    refine finds_ret fun _ hsub hnone => ?_
    refine .none_listed id instrumentId now orders' (hsub ?_) (hsub List.mem_cons_self) ?_
    · exact List.mem_cons_of_mem _ List.mem_cons_self
    · simpa using hnone

theorem buyDuplicate_finds (h : Translated intent request known) :
    Finds svc run intent placed known (buyDuplicate svc intent) fun steps duplicate =>
      duplicate = false → request.side = .buy → NoRecentBuy intent.accountId request steps := by
  unfold buyDuplicate
  split
  case isFalse hside => exact finds_ret fun _ _ _ hbuy => (hside (h.side ▸ hbuy)).elim
  case isTrue hside =>
    refine finds_bind resolveAccount_finds fun account known₁ hsub₁ haccount => ?_
    cases account with
    | none =>
      refine finds_ret fun _ hsub _ _ => .noAccount (haccount rfl).1 (hsub ?_)
      rw [h.accountRef]
      exact (haccount rfl).2
    | some id =>
      have hlock : Finds svc run intent placed known₁ (hasActiveReconciliationLock svc id
          intent.request.symbol intent.request.side) fun steps locked =>
          locked = true → NoRecentBuy intent.accountId request steps := by
        unfold hasActiveReconciliationLock
        rw [← h.symbol, ← h.side]
        split
        · refine finds_await trivial fun locked => ?_
          exact finds_ret fun _ hsub hlocked => .locked id (hsub (hlocked ▸ List.mem_cons_self))
        · exact finds_ret fun _ _ h => nomatch h
      refine finds_bind hlock fun locked known₂ hsub₂ hlocked => ?_
      cases locked with
      | true => exact finds_ret fun _ hsub _ _ => (hlocked rfl).mono hsub
      | false =>
        have hthen : Finds svc run intent placed known₂ (now.bind fun now =>
            hasRecentActiveBuyOrder id intent.request.symbol intent.request.market
              (now - buyDuplicateCooldown)) fun steps duplicate =>
            duplicate = false → NoRecentBuy intent.accountId request steps :=
          finds_await trivial fun now => hasRecentActiveBuyOrder_finds
            (h.mono fun _ hstep => List.mem_cons_of_mem _ (hsub₂ (hsub₁ hstep)))
        exact hthen.conseq (fun _ h => h) fun _ _ hfound =>
          ⟨hfound.1, fun a ha hfree _ => hfound.2 a ha hfree⟩

theorem buyDuplicatePhase_clears {trace : Trace} (h : Translated intent request known)
    (hcomplied : Complied run request known) (hbearable : Bearable run known) :
    Clears svc run intent (Known [] known) (buyDuplicatePhase svc run intent trace request) := by
  unfold buyDuplicatePhase
  refine clears_finds (buyDuplicate_finds h) fun duplicate known' hsub hnone => ?_
  cases duplicate with
  | true => exact passes_await trivial fun _ => skipped_clears
  | false =>
    exact createPhase_clears
      { side := h.side
        symbol := h.symbol
        actionable := h.actionable
        anchored := h.anchored
        positive := h.positive
        sellCleared := h.sellCleared.mono hsub
        compliance := hcomplied.imp fun _ h => ⟨hsub h.1, h.2⟩
        risk := hbearable.imp fun _ h => ⟨hsub h.1, h.2⟩
        noRecentBuy := hnone rfl }

theorem varPhase_clears {trace : Trace} (h : Translated intent request known)
    (hcomplied : Complied run request known) :
    Clears svc run intent (Known [] known) (varPhase svc run intent trace request) := by
  unfold varPhase
  refine passes_await trivial fun verdict => clears_returned fun verdict' hverdict => ?_
  subst hverdict
  have hsub := List.subset_cons_self
    (⟨.varThreshold run.sourceType, .ok verdict'⟩ : (op : Op) × Reply op) known
  split
  case isTrue => exact passes_await trivial fun _ => skipped_clears
  case isFalse hfree =>
    refine buyDuplicatePhase_clears (h.mono hsub) (hcomplied.imp fun _ h => ⟨hsub h.1, h.2⟩) ?_
    exact ⟨verdict', List.mem_cons_self, Bool.eq_false_iff.mpr hfree⟩

theorem compliancePhase_clears {trace : Trace} (h : Translated intent request known) :
    Clears svc run intent (Known [] known) (compliancePhase svc run intent trace request) := by
  unfold compliancePhase
  refine passes_await trivial fun verdict => clears_returned fun verdict' hverdict => ?_
  subst hverdict
  refine clears_plain (recordVerdict_plain intent verdict') fun _ => ?_
  split
  case isTrue => exact skipped_clears
  case isFalse hfree =>
    refine varPhase_clears (h.mono (List.subset_cons_self _ _)) ?_
    exact ⟨verdict', List.mem_cons_self, Bool.eq_false_iff.mpr hfree⟩

theorem probePhase_clears {trace : Trace} {referencePrice : Option ℚ}
    (h : Translated intent request known) :
    Clears svc run intent (Known [] known)
      (probePhase svc run intent trace referencePrice request) := by
  unfold probePhase
  split
  · refine clears_plain (probeBlock_plain intent referencePrice) fun reason => ?_
    cases reason with
    | none => exact compliancePhase_clears h
    | some reason => exact passes_await trivial fun _ => skipped_clears
  · exact compliancePhase_clears h

theorem translated_of_translatable {id : UUID} {now : Time}
    (htranslatable : translatable intent = true)
    (hsell : SellCleared intent.accountId intent.request known) :
    Translated intent (translate intent id now) known := by
  simp only [translatable, Bool.and_eq_true, decide_eq_true_eq] at htranslatable
  obtain ⟨⟨⟨hactionable, hanchored⟩, -⟩, hpositive⟩ := htranslatable
  exact ⟨rfl, rfl, rfl, rfl, hactionable, hanchored, hpositive, hsell⟩

theorem buildSubmitOrderRequest_finds (hsell : SellCleared intent.accountId intent.request known) :
    Finds svc run intent placed known (buildSubmitOrderRequest intent)
      fun steps built => ∀ request, built = some request → Translated intent request steps := by
  unfold buildSubmitOrderRequest
  split
  case isFalse => exact finds_ret fun _ _ _ h => nomatch h
  case isTrue htranslatable =>
    cases intent.decisionContextId with
    | none => exact finds_ret fun _ _ _ h => nomatch h
    | some id =>
      refine finds_await trivial fun now => finds_ret fun steps hsub request hrequest => ?_
      obtain rfl := Option.some.inj hrequest
      refine translated_of_translatable htranslatable (hsell.mono fun _ hstep => hsub ?_)
      exact List.mem_cons_of_mem _ hstep

theorem translationPhase_clears {trace : Trace} {referencePrice : Option ℚ}
    (hsell : SellCleared intent.accountId intent.request known) :
    Clears svc run intent (Known [] known)
      (translationPhase svc run intent trace referencePrice) := by
  unfold translationPhase
  refine clears_finds (buildSubmitOrderRequest_finds hsell) fun built known' _ htranslated => ?_
  cases built with
  | none => exact skipped_clears
  | some request => exact probePhase_clears (htranslated request rfl)

theorem sellGuard_finds : Finds svc run intent placed known (sellGuard intent)
    fun steps blocked => blocked = none → SellCleared intent.accountId intent.request steps := by
  unfold sellGuard
  cases hid : intent.accountId with
  | none => exact finds_ret fun _ _ _ _ _ _ h => nomatch h
  | some id =>
    dsimp only
    split
    case isFalse hnot =>
      exact finds_ret fun _ _ _ hside hpositive _ _ => (hnot ⟨hside, hpositive⟩).elim
    case isTrue =>
      refine finds_await trivial fun reply => ?_
      cases reply with
      | error e =>
        refine finds_ret fun _ hsub _ _ _ id' hid' => ?_
        obtain rfl := Option.some.inj hid'
        exact ⟨_, hsub List.mem_cons_self, fun _ h => nomatch h⟩
      | ok availability =>
        refine finds_ret fun _ hsub hfree _ _ id' hid' => ?_
        obtain rfl := Option.some.inj hid'
        refine ⟨_, hsub List.mem_cons_self, fun availability' h => ?_⟩
        obtain rfl := Except.ok.inj h
        simpa using hfree

theorem sellGuardPhase_clears {trace : Trace} {referencePrice : Option ℚ} :
    Clears svc run intent (Known [] known)
      (sellGuardPhase svc run intent trace referencePrice) := by
  unfold sellGuardPhase
  refine clears_finds sellGuard_finds fun blocked known' _ hsell => ?_
  cases blocked with
  | none => exact translationPhase_clears (hsell rfl)
  | some availability => exact passes_await trivial fun _ => skipped_clears

theorem sizedPhase_clears {trace : Trace} {referencePrice : Option ℚ} :
    Clears svc run intent (Known [] known) (sizedPhase svc run intent trace referencePrice) :=
  clears_plain (syncExecutionSizing_plain ..) fun _ => sellGuardPhase_clears

/-- Sizing changes the request's quantity, and a forced limit its price and type; the gates look at
neither of them in the intent. -/
structure SameScope (intent' intent : OrderIntent) : Prop where
  accountId : intent'.accountId = intent.accountId
  ai : intent'.aiBackendInputs = intent.aiBackendInputs
  anchor : intent'.expectedValueAnchor = intent.expectedValueAnchor
  side : intent'.request.side = intent.request.side
  symbol : intent'.request.symbol = intent.request.symbol

variable {intent' : OrderIntent}

theorem Screened.rescope (hscope : SameScope intent' intent)
    (h : Screened run.sourceType intent' request steps) :
    Screened run.sourceType intent request steps where
  side := h.side.trans hscope.side
  symbol := h.symbol.trans hscope.symbol
  actionable := hscope.ai ▸ h.actionable
  anchored := hscope.ai ▸ hscope.anchor ▸ h.anchored
  positive := h.positive
  sellCleared := hscope.accountId ▸ h.sellCleared
  compliance := h.compliance
  risk := h.risk
  noRecentBuy := fun hside => hscope.accountId ▸ h.noRecentBuy hside

theorem Fresh.rescope (hscope : SameScope intent' intent)
    (h : Fresh svc run.sourceType intent' steps) :
    Fresh svc run.sourceType intent steps := by
  cases h with
  | heldPositionSell h => exact .heldPositionSell (hscope.ai ▸ hscope.side ▸ h)
  | account id now cashAt positions hid hnow hcash hpositions hrecent hheld =>
    exact .account id now cashAt positions
      (hscope.accountId ▸ hid) hnow hcash hpositions hrecent hheld
  | run lastRunAt hid h => exact .run lastRunAt (hscope.accountId ▸ hid) h

theorem Gate.rescope (hscope : SameScope intent' intent) {op : Op}
    (h : Gate svc run.sourceType intent' steps op) : Gate svc run.sourceType intent steps op := by
  cases op with
  | ordersAdd draft =>
    obtain ⟨hunsent, hunplaced, request, hscreened, hdrafted⟩ := h
    exact ⟨hunsent, hunplaced, request, hscreened.rescope hscope, hdrafted⟩
  | orders op =>
    cases op with
    | ordersUpdateStatus id status rc rm expected submittedAt =>
      cases status <;> try trivial
      obtain ⟨hunsent, request, draft, created, hplaced, hscreened, hdrafted, hfresh⟩ := h
      exact ⟨hunsent, request, draft, created, hplaced, hscreened.rescope hscope, hdrafted,
        hfresh.rescope hscope⟩
    | brokerSubmitOrder id submitted =>
      obtain ⟨hunsent, request, draft, created, hplaced, hscreened, hdrafted, hfresh, hrest⟩ := h
      exact ⟨hunsent, request, draft, created, hplaced, hscreened.rescope hscope, hdrafted,
        hfresh.rescope hscope, hrest⟩
    | _ => trivial
  | _ => trivial

theorem Clears.rescope (hscope : SameScope intent' intent) {pre : Steps → Prop}
    {p : Code SubmitResult} (h : Clears svc run intent' pre p) : Clears svc run intent pre p :=
  h.permitting fun _ _ hgate => hgate.rescope hscope

theorem liquidityPhase_clears {trace : Trace} {quote : Option Quote} {referencePrice : Option ℚ}
    {sizing : SizingResult} : Clears svc run intent (Known [] known)
      (liquidityPhase svc run intent trace quote referencePrice sizing) := by
  unfold liquidityPhase
  dsimp only
  split
  · exact passes_await trivial fun _ => skipped_clears
  · split
    · refine Clears.rescope ?_ sizedPhase_clears
      exact ⟨rfl, rfl, rfl, rfl, rfl⟩
    · exact sizedPhase_clears
  · exact sizedPhase_clears

theorem sizingPhase_clears {trace : Trace} {isHpSell : Bool} {quote : Option Quote}
    {referencePrice : Option ℚ} : Clears svc run intent (Known [] known)
      (sizingPhase svc run intent trace isHpSell quote referencePrice) := by
  unfold sizingPhase
  refine clears_returned fun inputs _ => ?_
  dsimp only
  split
  · exact clears_plain (syncExecutionSizing_plain ..) fun _ => skipped_clears
  · refine Clears.rescope ?_ liquidityPhase_clears
    exact ⟨rfl, rfl, rfl, rfl, rfl⟩

theorem referencePhase_clears {trace : Trace} {isHpSell : Bool} {quote : Option Quote}
    {referencePrice : Option ℚ} : Clears svc run intent (Known [] known)
      (referencePhase svc run intent trace isHpSell quote referencePrice) := by
  unfold referencePhase
  dsimp only
  split
  · split
    · exact skipped_clears
    · exact sizingPhase_clears
  · exact sizingPhase_clears

theorem quotePhase_clears {trace : Trace} : Clears svc run intent (Known [] known)
    (quotePhase svc run intent trace) := by
  unfold quotePhase
  dsimp only
  split
  · exact passes_await trivial fun _ => clears_returned fun _ _ => referencePhase_clears
  · exact referencePhase_clears

theorem createAttempt_clears {tradeDecisionId : Option UUID}
    {f : Option UUID → Code SubmitResult}
    (hf : ∀ attemptId, Clears svc run intent (Known [] []) (f attemptId)) :
    Clears svc run intent (Known [] []) ((createAttempt intent tradeDecisionId).bind f) :=
  clears_bind (createAttempt_ungated intent tradeDecisionId) fun attemptId _ => hf attemptId

/-- Whatever is replied, the gates are passed with what they ask for, and the result tells what was
sent. -/
theorem runExecutionPipeline_leads (svc : ExecutionService) (intent : OrderIntent)
    (tradeDecisionId : Option UUID) (trace : Trace) (actorType actorId : String) :
    Program.Leads (Gate svc intent.sourceType intent) (Known [] [])
      (runExecutionPipeline svc intent tradeDecisionId trace actorType actorId) Told := by
  let start (attemptId : Option UUID) : Run :=
    { tradeDecisionId := tradeDecisionId
      sourceType := intent.sourceType
      symbol := intent.request.symbol
      actorType := actorType
      actorId := actorId
      attemptId := attemptId }
  have hstart (attemptId : Option UUID) :
      Clears svc (start attemptId) intent (Known [] [])
        (quotePhase svc (start attemptId) intent trace) :=
    quotePhase_clears
  have hrun : Clears svc (start none) intent (Known [] [])
      (runExecutionPipeline svc intent tradeDecisionId trace actorType actorId) :=
    createAttempt_clears hstart
  exact hrun

theorem known_nil : Known [] [] [] := ⟨rfl, rfl, fun _ h => h⟩

/-- A result tells what has been sent to the broker; after an exception nothing has. -/
theorem runExecutionPipeline_told (svc : ExecutionService) (intent : OrderIntent)
    (tradeDecisionId : Option UUID) (trace : Trace) (actorType actorId : String) {steps : Steps}
    {out : Except PyError SubmitResult}
    (hrun : (runExecutionPipeline svc intent tradeDecisionId trace actorType actorId).Performs
      steps out) : Told steps out :=
  ((runExecutionPipeline_leads svc intent tradeDecisionId trace actorType actorId).watched []
    known_nil).ends hrun

theorem runExecutionPipeline_told_sample :
    Told sampleSteps sampleRun.1 ∧ (sent sampleSteps).length = 1 :=
  ⟨runExecutionPipeline_told _ _ _ _ _ _ (Program.performs_run _ _ _), by decide +kernel⟩

end AgentTrading.Execution
