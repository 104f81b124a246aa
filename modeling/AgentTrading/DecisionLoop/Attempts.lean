import AgentTrading.DecisionLoop.PassTwo
import AgentTrading.Execution.Clearance

/-! What one attempt of the second pass sends to the broker and what its result tells of it. A
timeout may break the attempt off after any of its operations. -/
namespace AgentTrading.DecisionLoop
open Domain Library Execution

/-- What the execution pipeline has done among the operations of the loop. -/
def pipelineStep : (op : Op) × Reply op → Option ((op : Execution.Op) × Execution.Reply op)
  | ⟨.pipeline op, reply⟩ => some ⟨op, reply⟩
  | _ => none

def pipelineSteps (steps : Steps) : Execution.Steps := steps.filterMap pipelineStep

/-- What was sent to the broker, for which order, and the broker's reply. -/
abbrev Submission := UUID × SubmitOrderRequest × Except PyError SubmitOrderResult

def submissions (steps : Steps) : List Submission := sent (pipelineSteps steps)

@[simp] theorem pipelineSteps_append (steps rest : Steps) :
    pipelineSteps (steps ++ rest) = pipelineSteps steps ++ pipelineSteps rest :=
  List.filterMap_append

@[simp] theorem submissions_append (steps rest : Steps) :
    submissions (steps ++ rest) = submissions steps ++ submissions rest := by
  rw [submissions, pipelineSteps_append, sent_append]
  rfl

theorem submissions_flatMap {α : Type} (l : List α) (f : α → Steps) :
    submissions (l.flatMap f) = l.flatMap fun a => submissions (f a) := by
  induction l with
  | nil => rfl
  | cons a l ih => rw [List.flatMap_cons, submissions_append, ih, List.flatMap_cons]

theorem sees_pipeline : Program.Sees Op.pipeline (fun _ r => r) .deadline pipelineStep where
  own _ _ := rfl
  clock _ := rfl

/-- At most one order has been sent, and it is for the symbol of the decision. -/
structure Sending (intent : OrderIntent) (sent : List Submission) : Prop where
  atMostOne : sent.length ≤ 1
  symbol : ∀ s ∈ sent, s.2.1.symbol = intent.request.symbol

variable {intent : OrderIntent}

theorem sending_nil : Sending intent [] := ⟨by simp, by simp⟩

theorem Sending.sublist {sent : List Submission} (h : Sending intent sent) :
    (sent.map (·.2.1.symbol)).Sublist [intent.request.symbol] := by
  cases sent with
  | nil => exact List.nil_sublist _
  | cons s rest =>
    have hnone : rest = [] := by
      rw [← List.length_eq_zero_iff]
      have := h.atMostOne
      rw [List.length_cons] at this
      omega
    rw [hnone, List.map_singleton, h.symbol s List.mem_cons_self]

def sendsOrder : Execution.Op → Bool
  | .orders (.brokerSubmitOrder ..) => true
  | _ => false

theorem sent_append_of_not_sendsOrder {op : Execution.Op} (h : sendsOrder op = false)
    (steps : Execution.Steps) (reply : Execution.Reply op) :
    sent (steps ++ [⟨op, reply⟩]) = sent steps := by
  have hnone : sent [⟨op, reply⟩] = [] := by
    cases op with
    | orders op => cases op <;> first | rfl | cases h
    | _ => rfl
  rw [sent_append, hnone, List.append_nil]

theorem sending_step {svc : ExecutionService} {sourceType : String} {steps : Execution.Steps}
    {op : Execution.Op} (hgate : Gate svc sourceType intent steps op)
    (h : Sending intent (sent steps)) (reply : Execution.Reply op) :
    Sending intent (sent (steps ++ [⟨op, reply⟩])) := by
  cases hsends : sendsOrder op with
  | false => rwa [sent_append_of_not_sendsOrder hsends]
  | true =>
    cases op with
    | orders op =>
      cases op with
      | brokerSubmitOrder id submitted =>
        obtain ⟨hunsent, request, draft, created, -, hscreened, -, -, -, rfl, -⟩ := hgate
        rw [sent_append, hunsent, List.nil_append]
        refine ⟨le_refl 1, ?_⟩
        rintro s hs
        rw [List.mem_singleton.mp hs]
        exact hscreened.symbol
      | _ => cases hsends
    | _ => cases hsends

theorem runExecutionPipeline_sending {svc : ExecutionService} {tradeDecisionId : Option UUID}
    {trace : Trace} {steps : Execution.Steps}
    (h : (runExecutionPipeline svc intent tradeDecisionId trace).Reaches steps) :
    Sending intent (sent steps) :=
  ((runExecutionPipeline_leads svc intent tradeDecisionId trace _ _).watched [] known_nil).reaches
    (fun steps => Sending intent (sent steps))
    (fun _ _ reply hgate hkept => sending_step hgate hkept reply) sending_nil h

/-- The pipeline under a time limit. -/
inductive Awaited (intent : OrderIntent) (steps : Steps) : Except PyError SubmitResult → Prop
  | raised (e : PyError) (h : Sending intent (submissions steps)) : Awaited intent steps (.error e)
  | told (result : SubmitResult) (h : Sending intent (submissions steps))
      (htold : Told (pipelineSteps steps) (.ok result)) : Awaited intent steps (.ok result)

theorem waitFor_awaited {svc : ExecutionService} {tradeDecisionId : Option UUID}
    {steps : Steps} {out : Except PyError SubmitResult}
    (h : (waitFor (runExecutionPipeline svc intent tradeDecisionId [])).Performs steps out) :
    Awaited intent steps out := by
  rcases Program.performs_limited sees_pipeline h with hends | ⟨hreaches, rfl⟩
  · have hsending := runExecutionPipeline_sending hends.reaches
    cases out with
    | error e => exact .raised e hsending
    | ok result => exact .told result hsending (runExecutionPipeline_told svc intent _ _ _ _ hends)
  · exact .raised _ (runExecutionPipeline_sending hreaches)

theorem inTransaction_performs {α : Type} {body : Code α} {steps : Steps} {out : Except PyError α}
    (h : (inTransaction body).Performs steps out) :
    (∃ e, out = .error e ∧ steps = [⟨.transactionEnter, .error e⟩]) ∨
      ∃ inner r exited, body.Performs inner r ∧
        steps = ⟨.transactionEnter, .ok ()⟩ :: (inner ++ [⟨.transactionExit, exited⟩]) ∧
        (out = r ∨ ∃ e, out = .error e) := by
  simp only [inTransaction, await, Program.bind_eq, Program.perform_bind] at h
  cases h with
  | @call _ _ entered rest _ hrest =>
    cases entered with
    | error e =>
      cases hrest
      exact .inl ⟨e, rfl, rfl⟩
    | ok u =>
      right
      simp only [returned_ok, Program.ret_bind] at hrest
      rcases Program.performs_bind hrest with ⟨e, hraised, -⟩ | ⟨r, inner, exit, rfl, hbody, hexit⟩
      · obtain ⟨r, hr, -⟩ := Program.performs_outcome hraised
        cases hr
      · obtain ⟨r', hr, hbody⟩ := Program.performs_outcome hbody
        obtain rfl := Except.ok.inj hr
        cases hexit with
        | @call _ _ exited after _ hafter =>
          have hsteps : after = [] ∧ (out = r ∨ ∃ e, out = .error e) := by
            cases exited with
            | error e =>
              cases hafter
              exact ⟨rfl, .inr ⟨e, rfl⟩⟩
            | ok u => cases r <;> cases hafter <;> exact ⟨rfl, .inl rfl⟩
          obtain ⟨rfl, hout⟩ := hsteps
          exact ⟨inner, r, exited, hbody, rfl, hout⟩

theorem submissions_inTransaction (inner : Steps) (exited : Except PyError Unit) :
    submissions (⟨.transactionEnter, .ok ()⟩ :: (inner ++ [⟨.transactionExit, exited⟩])) =
      submissions inner :=
  (submissions_append inner _).trans (List.append_nil _)

theorem resultStatus_submitted {status : OrderStatus} (h : resultStatus status = "SUBMITTED") :
    status = .submitted := by
  cases status <;> first | rfl | exact absurd h (by decide)

theorem resultStatus_ne (status : OrderStatus) :
    resultStatus status ≠ "SKIPPED" ∧ resultStatus status ≠ "PENDING_PASS2" := by
  cases status <;> decide

/-- What the result of a candidate tells of what has been done for it. -/
structure Reported (candidate : Candidate) (steps : Steps) (result : CycleResult) : Prop where
  symbol : result.symbol = candidate.symbol
  settled : result.status ≠ "PENDING_PASS2"
  sending : Sending candidate.intent (submissions steps)
  skipped : result.status = "SKIPPED" → submissions steps = []
  submitted : result.status = "SUBMITTED" →
    ∃ s, submissions steps = [s] ∧ Orders.replyStatus s.2.2 = some .submitted

variable {candidate : Candidate} {steps : Steps}

theorem reported_skippedResult (reason : String) (h : submissions steps = []) :
    Reported candidate steps (skippedResult candidate reason) where
  symbol := rfl
  settled := by simp [skippedResult]
  sending := h ▸ sending_nil
  skipped _ := h
  submitted := by simp [skippedResult]

theorem reported_told {result : SubmitResult}
    (hsending : Sending candidate.intent (submissions steps))
    (htold : Told (pipelineSteps steps) (.ok result)) :
    Reported candidate steps (serializeCycleResult candidate.symbol candidate.market
      candidate.sourceType (some result)) := by
  constructor
  case symbol => rfl
  case sending => exact hsending
  all_goals rw [serializeCycleResult_status]
  case settled =>
    cases htold with
    | stopped _ hstatus => rcases hstatus with h | h <;> simp [h]
    | failed _ hstatus => simp [hstatus]
    | locked _ _ hstatus => simp [hstatus]
    | answered _ order _ _ _ hstatus =>
      rw [hstatus]
      exact (resultStatus_ne order.status).2
  case skipped =>
    intro hskipped
    cases htold with
    | stopped _ _ _ hsent => exact hsent
    | failed _ hstatus => simp [hstatus] at hskipped
    | locked _ _ hstatus => simp [hstatus] at hskipped
    | answered _ order _ _ _ hstatus =>
      rw [hstatus] at hskipped
      exact ((resultStatus_ne order.status).1 hskipped).elim
  case submitted =>
    intro hsubmitted
    cases htold with
    | stopped _ hstatus => rcases hstatus with h | h <;> simp [h] at hsubmitted
    | failed _ hstatus => simp [hstatus] at hsubmitted
    | locked _ _ hstatus => simp [hstatus] at hsubmitted
    | answered _ order id request reply hstatus _ hsent hreply =>
      rw [hstatus] at hsubmitted
      exact ⟨_, hsent, resultStatus_submitted hsubmitted ▸ hreply⟩

theorem reported_failed (text : String) (h : Sending candidate.intent (submissions steps)) :
    Reported candidate steps (serializeCycleResult candidate.symbol candidate.market
      candidate.sourceType none (some text)) := by
  have hstatus := serializeCycleResult_failed candidate.symbol candidate.market
    candidate.sourceType text
  generalize hresult : serializeCycleResult candidate.symbol candidate.market candidate.sourceType
    none (some text) = result at hstatus
  have hsymbol : result.symbol = candidate.symbol := hresult ▸ serializeCycleResult_symbol ..
  simp only [List.mem_cons, List.not_mem_nil, or_false] at hstatus
  rcases hstatus with hstatus | hstatus <;>
    exact ⟨hsymbol, by simp [hstatus], h, by simp [hstatus], by simp [hstatus]⟩

theorem Reported.congr {steps' : Steps} {result : CycleResult} (h : Reported candidate steps result)
    (hsteps : submissions steps' = submissions steps) : Reported candidate steps' result :=
  ⟨h.symbol, h.settled, hsteps ▸ h.sending, hsteps ▸ h.skipped, hsteps ▸ h.submitted⟩

/-- The results that have been printed. -/
def printed (steps : Steps) : List CycleResult :=
  steps.filterMap fun
    | ⟨.print result, _⟩ => some result
    | _ => none

@[simp] theorem printed_append (steps rest : Steps) :
    printed (steps ++ rest) = printed steps ++ printed rest := List.filterMap_append

theorem printed_flatMap {α : Type} (l : List α) (f : α → Steps) :
    printed (l.flatMap f) = l.flatMap fun a => printed (f a) := by
  induction l with
  | nil => rfl
  | cons a l ih => rw [List.flatMap_cons, printed_append, ih, List.flatMap_cons]

/-- Operations that neither print a result nor hand over a candidate. -/
def Op.Quiet : Op → Prop
  | .print _ => False
  | .pendingAppend _ => False
  | _ => True

/-- The candidates that have been handed over. -/
def appended (steps : Steps) : List Candidate :=
  steps.filterMap fun
    | ⟨.pendingAppend candidate, _⟩ => some candidate
    | _ => none

@[simp] theorem appended_append (steps rest : Steps) :
    appended (steps ++ rest) = appended steps ++ appended rest := List.filterMap_append

theorem printed_quiet {steps : Steps} (h : ∀ step ∈ steps, step.1.Quiet) : printed steps = [] := by
  rw [printed, List.filterMap_eq_nil_iff]
  rintro ⟨op, reply⟩ hstep
  have hquiet := h _ hstep
  cases op with
  | print result => exact hquiet.elim
  | _ => rfl

theorem appended_quiet {steps : Steps} (h : ∀ step ∈ steps, step.1.Quiet) :
    appended steps = [] := by
  rw [appended, List.filterMap_eq_nil_iff]
  rintro ⟨op, reply⟩ hstep
  have hquiet := h _ hstep
  cases op with
  | pendingAppend candidate => exact hquiet.elim
  | _ => rfl

theorem returned_quiet {α : Type} (x : Except PyError α) :
    (returned x).Only Op.Quiet fun _ => True := by
  cases x <;> trivial

theorem inTransaction_quiet {α : Type} {body : Code α} (h : body.Only Op.Quiet fun _ => True) :
    (inTransaction body).Only Op.Quiet fun _ => True := by
  refine ⟨trivial, fun entered => (returned_quiet entered).bind (fun _ _ => ?_) fun _ _ => trivial⟩
  refine h.outcome.bind (fun result _ => ⟨trivial, fun exited => ?_⟩) fun _ _ => trivial
  exact (returned_quiet exited).bind (fun _ _ => returned_quiet result) fun _ _ => trivial

theorem waitFor_quiet {α : Type} (p : Execution.Code α) :
    (waitFor p).Only Op.Quiet fun _ => True :=
  (Program.only_true p).limited (fun _ _ => trivial) trivial trivial

variable {loop : Loop} {out : Except PyError CycleResult}

/-- What the transaction of an attempt has done when it ends. -/
inductive Resubmitted (candidate : Candidate) (steps : Steps) : Except PyError CycleResult → Prop
  | raised (e : PyError) (h : Sending candidate.intent (submissions steps)) :
    Resubmitted candidate steps (.error e)
  | reported (result : CycleResult) (h : Reported candidate steps result) :
    Resubmitted candidate steps (.ok result)

theorem Resubmitted.sending (h : Resubmitted candidate steps out) :
    Sending candidate.intent (submissions steps) := by
  cases h with
  | raised _ h => exact h
  | reported _ h => exact h.sending

theorem Resubmitted.congr {steps' : Steps} (h : Resubmitted candidate steps out)
    (hsteps : submissions steps' = submissions steps) : Resubmitted candidate steps' out := by
  cases h with
  | raised e h => exact .raised e (hsteps ▸ h)
  | reported result h => exact .reported result (h.congr hsteps)

theorem submit_resubmitted
    (h : ((waitFor (runExecutionPipeline loop.execution candidate.intent candidate.tradeDecisionId
      [])).bind fun result => Program.call .commit fun committed =>
        (returned committed).bind fun _ =>
        .ret (serializeCycleResult candidate.symbol candidate.market candidate.sourceType
          (some result))).Performs steps out) : Resubmitted candidate steps out := by
  rcases Program.performs_bind h with ⟨e, hraised, rfl⟩ | ⟨result, first, rest, rfl, hrun, hrest⟩
  · cases waitFor_awaited hraised with
    | raised _ hsending => exact .raised e hsending
  · have hcommit : submissions rest = [] ∧ ((∃ e, out = .error e) ∨
        out = .ok (serializeCycleResult candidate.symbol candidate.market candidate.sourceType
          (some result))) := by
      cases hrest with
      | @call _ _ committed _ _ hend =>
        cases committed <;> cases hend
        · exact ⟨rfl, .inl ⟨_, rfl⟩⟩
        · exact ⟨rfl, .inr rfl⟩
    obtain ⟨hnone, hout⟩ := hcommit
    have hsteps : submissions (first ++ rest) = submissions first := by
      rw [submissions_append, hnone, List.append_nil]
    refine Resubmitted.congr ?_ hsteps
    cases waitFor_awaited hrun with
    | told _ hsending htold =>
      rcases hout with ⟨e, rfl⟩ | rfl
      · exact .raised e hsending
      · exact .reported _ (reported_told hsending htold)

theorem resubmit_resubmitted (h : (resubmit loop candidate).Performs steps out) :
    Resubmitted candidate steps out := by
  rcases inTransaction_performs h with ⟨e, rfl, rfl⟩ | ⟨inner, r, exited, hbody, rfl, hout⟩
  · exact .raised e sending_nil
  · suffices hinner : Resubmitted candidate inner r by
      have hall := hinner.congr (submissions_inTransaction inner exited)
      rcases hout with rfl | ⟨e, rfl⟩
      · exact hall
      · exact .raised e hall.sending
    simp only [await, Program.bind_eq, Program.perform_bind, Program.pure_eq] at hbody
    cases hbody with
    | @call _ _ revalidation rest _ hrest =>
      suffices hrevalidated : Resubmitted candidate rest r from hrevalidated.congr rfl
      cases revalidation with
      | error e =>
        cases hrest
        exact .raised e sending_nil
      | ok stopReason =>
        simp only [returned_ok, Program.ret_bind] at hrest
        split at hrest
        next reason _ =>
          cases hrest
          exact .reported _ (reported_skippedResult _ rfl)
        next =>
          cases hrest with
          | @call _ _ now rest _ hrest =>
            suffices hchecked : Resubmitted candidate rest r from hchecked.congr rfl
            simp only [Program.lift, Program.ret_bind] at hrest
            split at hrest
            · cases hrest
              exact .reported _ (reported_skippedResult _ rfl)
            · exact submit_resubmitted hrest

theorem submitGeneralLaneCandidate_reported
    (h : (submitGeneralLaneCandidate loop candidate).Performs steps out) :
    ∃ result, out = .ok result ∧ Reported candidate steps result := by
  rcases Program.performs_handle h with ⟨result, hran, rfl⟩ | ⟨e, first, rest, rfl, hraised, hend⟩
  · cases resubmit_resubmitted hran with
    | reported _ hreported => exact ⟨result, rfl, hreported⟩
  · cases hend
    rw [List.append_nil]
    exact ⟨_, rfl, reported_failed _ (resubmit_resubmitted hraised).sending⟩

end AgentTrading.DecisionLoop
