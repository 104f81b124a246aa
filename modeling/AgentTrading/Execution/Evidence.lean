import AgentTrading.Execution.Gates
import AgentTrading.Execution.Parts

/-! How evidence grows along a program: what is known before a part of it, with the steps the part
adds, is known after it. -/
namespace AgentTrading.Execution
open Domain Library Repositories

variable {svc : ExecutionService} {run : Run} {intent : OrderIntent} {request : Request}
variable {draft : OrderRequestEntity} {steps : Steps}

/-! Programs from what is known to what a result tells. -/

/-- Operations that need no clearance. -/
def Op.Ungated : Op → Prop
  | .ordersAdd _ => False
  | .orders (.ordersUpdateStatus ..) => False
  | .orders (.brokerSubmitOrder ..) => False
  | _ => True

theorem Op.Plain.ungated {op : Op} (h : op.Plain) : op.Ungated := by
  cases op with
  | orders op => cases op <;> trivial
  | ordersAdd draft => exact h
  | _ => trivial

theorem gate_of_ungated {op : Op} (h : op.Ungated) (past : Steps) :
    Gate svc run.sourceType intent past op := by
  cases op with
  | orders op => cases op <;> trivial
  | ordersAdd draft => exact h.elim
  | _ => trivial

theorem createAttempt_ungated (intent : OrderIntent) (tradeDecisionId : Option UUID) :
    (createAttempt intent tradeDecisionId).Only Op.Ungated fun _ => True := by
  unfold createAttempt
  split
  · exact ⟨trivial, fun _ => ⟨trivial, fun _ => ⟨trivial, fun added => by cases added <;> trivial⟩⟩⟩
  · trivial

theorem sent_ungated {rest : Steps} (h : ∀ step ∈ rest, step.1.Ungated) : sent rest = [] := by
  rw [sent, List.filterMap_eq_nil_iff]
  rintro ⟨op, reply⟩ hstep
  have := h _ hstep
  cases op with
  | orders op => cases op <;> first | rfl | exact this.elim
  | _ => rfl

theorem placements_ungated {rest : Steps} (h : ∀ step ∈ rest, step.1.Ungated) :
    placements rest = [] := by
  rw [placements, List.filterMap_eq_nil_iff]
  rintro ⟨op, reply⟩ hstep
  have := h _ hstep
  cases op <;> first | rfl | exact this.elim

/-- Nothing has been sent, these drafts have been stored, and these steps are known. -/
structure Known (placed : List (OrderRequestEntity × Except PyError OrderRequestEntity))
    (known : Steps) (steps : Steps) : Prop where
  unsent : sent steps = []
  placed : placements steps = placed
  known : known ⊆ steps

variable {placed : List (OrderRequestEntity × Except PyError OrderRequestEntity)} {known : Steps}

theorem Known.append (h : Known placed known steps) {rest : Steps}
    (hrest : ∀ step ∈ rest, step.1.Ungated) : Known placed known (steps ++ rest) where
  unsent := by rw [sent_append, h.unsent, sent_ungated hrest, List.append_nil]
  placed := by rw [placements_append, h.placed, placements_ungated hrest, List.append_nil]
  known := fun _ hstep => List.mem_append_left rest (h.known hstep)

theorem Known.step (h : Known placed known steps) {op : Op} (hop : op.Ungated) (reply : Reply op) :
    Known placed (⟨op, reply⟩ :: known) (steps ++ [⟨op, reply⟩]) := by
  have hrest : ∀ step ∈ ([⟨op, reply⟩] : Steps), step.1.Ungated := by simpa using hop
  have happend := h.append hrest
  refine ⟨happend.unsent, happend.placed, List.cons_subset.mpr ⟨?_, happend.known⟩⟩
  exact List.mem_append_right steps (List.mem_singleton_self _)

variable {α β : Type}

/-- From what is known the program passes the gates. -/
abbrev Passes (svc : ExecutionService) (run : Run) (intent : OrderIntent) (pre : Steps → Prop)
    (p : Code α) (post : Steps → Except PyError α → Prop) : Prop :=
  Program.Leads (Gate svc run.sourceType intent) pre p post

/-- It passes the gates and returns what tells the truth. -/
abbrev Clears (svc : ExecutionService) (run : Run) (intent : OrderIntent) (pre : Steps → Prop)
    (p : Code SubmitResult) : Prop :=
  Passes svc run intent pre p Told

theorem clears_after {pre : Steps → Prop} {Q : Except PyError α → Prop} {p : Code α}
    {f : α → Code SubmitResult} (hp : p.Only Op.Ungated Q)
    (hpre : ∀ steps rest, pre steps → (∀ step ∈ rest, step.1.Ungated) → pre (steps ++ rest))
    (hf : ∀ a, Q (.ok a) → Clears svc run intent pre (f a))
    (he : ∀ e steps, Q (.error e) → pre steps → Told steps (.error e)) :
    Clears svc run intent pre (p.bind f) := by
  have hleads : Passes svc run intent pre p fun steps r => pre steps ∧ Q r :=
    hp.leads (fun past _ h => gate_of_ungated h past) hpre
  refine hleads.bind (fun a => ⟨fun past h => (hf a h.2).watched past h.1⟩) ?_
  exact fun e steps h => he e steps h.2 h.1

theorem clears_bind {Q : Except PyError α → Prop} {p : Code α} {f : α → Code SubmitResult}
    (hp : p.Only Op.Ungated Q)
    (hf : ∀ a, Q (.ok a) → Clears svc run intent (Known placed known) (f a)) :
    Clears svc run intent (Known placed known) (p.bind f) :=
  clears_after hp (fun _ _ h hrest => h.append hrest) hf fun e _ _ h => .raised e h.unsent

theorem passes_await {post : Steps → Except PyError α → Prop} {op : Op} {f : Reply op → Code α}
    (hop : op.Ungated)
    (hf : ∀ r, Passes svc run intent (Known placed (⟨op, r⟩ :: known)) (f r) post) :
    Passes svc run intent (Known placed known) ((await op).bind f) post :=
  ⟨fun past h => ⟨gate_of_ungated hop past, fun r => (hf r).watched _ (h.step hop r)⟩⟩

theorem passes_returned {post : Steps → Except PyError β → Prop} {x : Except PyError α}
    {f : α → Code β} (hf : ∀ a, x = .ok a → Passes svc run intent (Known placed known) (f a) post)
    (he : ∀ e steps, sent steps = [] → post steps (.error e)) :
    Passes svc run intent (Known placed known) ((returned x).bind f) post := by
  cases x with
  | error e => exact Program.leads_raise fun steps h => he e steps h.unsent
  | ok a => exact hf a rfl

theorem clears_plain {p : Code α} {f : α → Code SubmitResult} (hp : Plain p)
    (hf : ∀ a, Clears svc run intent (Known placed known) (f a)) :
    Clears svc run intent (Known placed known) (p.bind f) :=
  clears_bind (hp.mono (fun _ h => h.ungated) fun _ h => h) fun a _ => hf a

theorem clears_returned {x : Except PyError α} {f : α → Code SubmitResult}
    (hf : ∀ a, x = .ok a → Clears svc run intent (Known placed known) (f a)) :
    Clears svc run intent (Known placed known) ((returned x).bind f) :=
  passes_returned hf fun e _ h => .raised e h

theorem Told.append {r : Except PyError SubmitResult} (h : Told steps r) {rest : Steps}
    (hrest : ∀ step ∈ rest, step.1.Ungated) : Told (steps ++ rest) r := by
  have hsent : sent (steps ++ rest) = sent steps := by
    rw [sent_append, sent_ungated hrest, List.append_nil]
  cases h with
  | raised e h => exact .raised e (hsent.trans h)
  | stopped result hstatus hresponse h => exact .stopped result hstatus hresponse (hsent.trans h)
  | failed result hstatus hphase hresponse h =>
    exact .failed result hstatus hphase hresponse (by rwa [hsent])
  | locked result order hstatus hresponse horder h =>
    exact .locked result order hstatus hresponse horder (hsent.trans h)
  | answered result order id request reply hstatus hresponse h hreply =>
    exact .answered result order id request reply hstatus hresponse (hsent.trans h) hreply

theorem finalizeAttempt_ungated (attemptId : Option UUID) (status stopPhase stopReason : String)
    (orderRequestId : Option UUID) (trace : Trace) :
    (finalizeAttempt attemptId status stopPhase stopReason orderRequestId trace).Only Op.Ungated
      (· = .ok ()) := by
  cases attemptId with
  | none => rfl
  | some id => exact ⟨trivial, fun _ => ⟨trivial, fun _ => rfl⟩⟩

theorem conclude_clears {pre : Steps → Prop} {attemptStatus stopPhase : String}
    {orderRequestId : Option UUID} {result : SubmitResult}
    (htold : ∀ steps, pre steps → Told steps (.ok result)) :
    Clears svc run intent pre (conclude run attemptStatus stopPhase orderRequestId result) := by
  have hfinal : Passes svc run intent (fun steps => Told steps (.ok result))
      (finalizeAttempt run.attemptId attemptStatus stopPhase (result.stopReason.getD "")
        orderRequestId result.phaseTrace) fun steps r => Told steps (.ok result) ∧ r = .ok () :=
    (finalizeAttempt_ungated ..).leads (fun past _ h => gate_of_ungated h past)
      fun _ _ h hrest => h.append hrest
  refine (hfinal.weaken htold).bind (fun _ => Program.leads_ret fun _ h => h.1) ?_
  exact fun _ _ h => nomatch h.2

theorem skipped_clears {trace : Trace} {attemptStatus stopPhase stopReason message : String}
    {errorPhase : Option String} {orderRequestId : Option UUID} {stopped : OrderIntent} :
    Clears svc run intent (Known placed known) (conclude run attemptStatus stopPhase orderRequestId
      (skipped run stopped trace stopReason message errorPhase)) :=
  conclude_clears fun _ h => .stopped _ (.inl rfl) rfl h.unsent

theorem failed_clears {trace : Trace} {attemptStatus stopPhase stopReason message : String}
    {errorPhase : String} {orderRequestId : Option UUID} {stopped : OrderIntent} :
    Clears svc run intent (Known placed known) (conclude run attemptStatus stopPhase orderRequestId
      (failed run stopped trace stopReason message errorPhase)) :=
  conclude_clears fun _ h => .stopped _ (.inr rfl) rfl h.unsent

theorem Known.weaken {known' : Steps} (h : Known placed known steps) (hsub : known' ⊆ known) :
    Known placed known' steps := ⟨h.unsent, h.placed, fun _ hstep => h.known (hsub hstep)⟩

theorem Known.all (h : Known placed known steps) :
    ∃ known', Known placed known' steps ∧ steps ⊆ known' :=
  ⟨steps, ⟨h.unsent, h.placed, fun _ hstep => hstep⟩, fun _ hstep => hstep⟩

/-- The program leaves what is known and finds out what `found` says. -/
abbrev Finds (svc : ExecutionService) (run : Run) (intent : OrderIntent)
    (placed : List (OrderRequestEntity × Except PyError OrderRequestEntity)) (known : Steps)
    (p : Code α) (found : Steps → α → Prop) : Prop :=
  Passes svc run intent (Known placed known) p fun steps r =>
    Known placed known steps ∧ ∀ a, r = .ok a → found steps a

variable {found : Steps → α → Prop}

theorem finds_await {op : Op} {f : Reply op → Code α} (hop : op.Ungated)
    (hf : ∀ r, Finds svc run intent placed (⟨op, r⟩ :: known) (f r) found) :
    Finds svc run intent placed known ((await op).bind f) found :=
  passes_await hop fun r => (hf r).conseq (fun _ h => h) fun _ _ h =>
    ⟨h.1.weaken (List.subset_cons_self _ _), h.2⟩

theorem finds_ret {a : α} (h : ∀ steps, known ⊆ steps → found steps a) :
    Finds svc run intent placed known (.ret a) found :=
  Program.leads_ret fun steps hknown =>
    ⟨hknown, fun _ ha => Except.ok.inj ha ▸ h steps hknown.known⟩

theorem finds_raise {e : PyError} : Finds svc run intent placed known (.raise e) found :=
  Program.leads_raise fun _ hknown => ⟨hknown, fun _ ha => nomatch ha⟩

theorem finds_returned {x : Except PyError β} {f : β → Code α}
    (hf : ∀ b, x = .ok b → Finds svc run intent placed known (f b) found) :
    Finds svc run intent placed known ((returned x).bind f) found := by
  cases x with
  | error e => exact finds_raise
  | ok b => exact hf b rfl

theorem finds_bind {found' : Steps → β → Prop} {p : Code β} {f : β → Code α}
    (hp : Finds svc run intent placed known p found')
    (hf : ∀ b known', known ⊆ known' → found' known' b →
      Finds svc run intent placed known' (f b) found) :
    Finds svc run intent placed known (p.bind f) found := by
  refine hp.bind (fun b => ⟨fun past h => ?_⟩) fun e _ h => ⟨h.1, fun _ ha => nomatch ha⟩
  refine ((hf b past h.1.known (h.2 b rfl)).watched past
    ⟨h.1.unsent, h.1.placed, fun _ hstep => hstep⟩).mono fun _ _ hfound => ?_
  exact ⟨hfound.1.weaken h.1.known, hfound.2⟩

theorem passes_finds {post : Steps → Except PyError β → Prop} {p : Code α} {f : α → Code β}
    (hp : Finds svc run intent placed known p found)
    (hf : ∀ a known', known ⊆ known' → found known' a →
      Passes svc run intent (Known placed known') (f a) post)
    (he : ∀ e steps, sent steps = [] → post steps (.error e)) :
    Passes svc run intent (Known placed known) (p.bind f) post := by
  refine hp.bind (fun a => ⟨fun past h => ?_⟩) fun e steps h => he e steps h.1.unsent
  exact (hf a past h.1.known (h.2 a rfl)).watched past
    ⟨h.1.unsent, h.1.placed, fun _ hstep => hstep⟩

theorem clears_finds {f : α → Code SubmitResult} {p : Code α}
    (hp : Finds svc run intent placed known p found)
    (hf : ∀ a known', known ⊆ known' → found known' a →
      Clears svc run intent (Known placed known') (f a)) :
    Clears svc run intent (Known placed known) (p.bind f) :=
  passes_finds hp hf fun e _ h => .raised e h

/-! The order services among the operations of the pipeline. -/

abbrev liftSteps (steps : Orders.Steps) : Steps := steps.lift Op.orders fun _ r => r

theorem sent_lift (steps : Orders.Steps) : sent (liftSteps steps) = Orders.submissions steps := by
  rw [sent, liftSteps, Program.History.lift, List.filterMap_map]
  refine List.filterMap_congr ?_
  rintro ⟨op, reply⟩ -
  cases op <;> rfl

theorem placements_lift (steps : Orders.Steps) : placements (liftSteps steps) = [] := by
  rw [placements, liftSteps, Program.History.lift, List.filterMap_map, List.filterMap_eq_nil_iff]
  exact fun _ _ => rfl

/-- What the order services do when nothing has been sent. -/
structure After (placed : List (OrderRequestEntity × Except PyError OrderRequestEntity))
    (known : Steps) (did : Orders.Steps) (steps : Steps) : Prop where
  sent : sent steps = Orders.submissions did
  placed : placements steps = placed
  known : known ⊆ steps
  did : liftSteps did ⊆ steps

theorem Known.after (h : Known placed known steps) (did : Orders.Steps) :
    After placed known did (steps ++ liftSteps did) where
  sent := by rw [sent_append, h.unsent, sent_lift, List.nil_append]
  placed := by rw [placements_append, h.placed, placements_lift, List.append_nil]
  known := fun _ hstep => List.mem_append_left _ (h.known hstep)
  did := fun _ hstep => List.mem_append_right _ hstep

theorem ofOrders_leads {permits : Orders.Steps → Orders.Op → Prop}
    {post : Orders.Steps → Except PyError α → Prop} {p : Orders.Code α}
    (hp : Program.Leads permits (· = []) p post)
    (hgate : ∀ did op past, permits did op → After placed known did past →
      Gate svc run.sourceType intent past (.orders op)) :
    Passes svc run intent (Known placed known) (ofOrders p).outcome fun steps r =>
      ∃ a did, r = .ok a ∧ After placed known did steps ∧ post did a := by
  have hlift : Passes svc run intent (Known placed known) (ofOrders p) fun steps r =>
      ∃ past did, Known placed known past ∧ steps = past ++ liftSteps did ∧ post did r :=
    hp.lift (fun _ _ => rfl) fun past did op hpast h => hgate did op _ h (hpast.after did)
  refine hlift.outcome.conseq (fun _ h => h) ?_
  rintro _ _ ⟨a, rfl, past, did, hpast, rfl, hpost⟩
  exact ⟨a, did, rfl, hpast.after did, hpost⟩

end AgentTrading.Execution
