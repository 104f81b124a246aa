import AgentTrading.DecisionLoop.Attempts
import AgentTrading.DecisionLoop.PassOne
import AgentTrading.Execution.Untradable

/-! What the first pass does for one symbol: nothing is sent to the broker, and an actionable
decision is handed over once. -/
namespace AgentTrading.DecisionLoop
open Domain Library Execution

/-- The candidate is the item's, and its order would be for the item's symbol. -/
structure Candidate.Of (item : Item) (candidate : Candidate) : Prop where
  cycleIndex : candidate.cycleIndex = item.cycleIndex
  symbol : candidate.symbol = item.symbol
  market : candidate.market = item.market
  sourceType : candidate.sourceType = item.sourceType
  orderSymbol : candidate.intent.request.symbol = item.symbol
  tradable : ¬Untradable candidate.intent

/-- The candidates handed over with a status: one with the pending status or, when the transaction
failed behind it, with that of a failure; and otherwise none, with the status of a decision that is
skipped or has failed. -/
inductive HandedOver (item : Item) : List Candidate → String → Prop
  | none {status : String} (h : status ∈ ["SKIPPED", "ERROR", "UNKNOWN"]) :
      HandedOver item [] status
  | one {candidate : Candidate} {status : String} (hof : candidate.Of item)
      (h : status ∈ ["PENDING_PASS2", "ERROR", "UNKNOWN"]) : HandedOver item [candidate] status

/-- What the transaction of an analysis has done when it ends. -/
structure Analysed (item : Item) (steps : Steps) (out : Except PyError CycleResult) : Prop where
  unsent : submissions steps = []
  unprinted : printed steps = []
  handedOver : ∀ result, out = .ok result →
    result.symbol = item.symbol ∧ HandedOver item (appended steps) result.status
  failed : ∀ e, out = .error e → ∀ status ∈ ["ERROR", "UNKNOWN"],
    HandedOver item (appended steps) status

variable {loop : Loop} {item : Item} {steps : Steps} {out : Except PyError CycleResult}

theorem handedOver_failed {status : String} (h : status ∈ ["ERROR", "UNKNOWN"]) :
    HandedOver item [] status := .none (List.mem_cons_of_mem _ h)

theorem HandedOver.failed {candidates : List Candidate} {before status : String}
    (h : HandedOver item candidates before) (hstatus : status ∈ ["ERROR", "UNKNOWN"]) :
    HandedOver item candidates status := by
  cases h with
  | none => exact handedOver_failed hstatus
  | one hof => exact .one hof (List.mem_cons_of_mem _ hstatus)

theorem analysed_raised (e : PyError) (hsent : submissions steps = [])
    (hprinted : printed steps = [])
    (happended : appended steps = []) : Analysed item steps (.error e) where
  unsent := hsent
  unprinted := hprinted
  handedOver _ h := nomatch h
  failed _ _ _ h := happended ▸ handedOver_failed h

theorem Analysed.append {first : Steps} (h : Analysed item steps out)
    (hsent : submissions first = [])
    (hquiet : ∀ step ∈ first, step.1.Quiet) : Analysed item (first ++ steps) out := by
  have hsubmissions : submissions (first ++ steps) = submissions steps := by
    rw [submissions_append, hsent, List.nil_append]
  have hprinted : printed (first ++ steps) = printed steps := by
    rw [printed_append, printed_quiet hquiet, List.nil_append]
  have happended : appended (first ++ steps) = appended steps := by
    rw [appended_append, appended_quiet hquiet, List.nil_append]
  exact ⟨hsubmissions ▸ h.unsent, hprinted ▸ h.unprinted, happended ▸ h.handedOver,
    happended ▸ h.failed⟩

theorem Analysed.cons {op : Op} {reply : Reply op} (h : Analysed item steps out)
    (hsent : submissions [⟨op, reply⟩] = []) (hquiet : op.Quiet) :
    Analysed item (⟨op, reply⟩ :: steps) out := by
  have hall : ∀ step ∈ ([⟨op, reply⟩] : Steps), step.1.Quiet := by simpa using hquiet
  exact h.append hsent hall

theorem Analysed.exit {out' : Except PyError CycleResult} (h : Analysed item steps out)
    (exited : Except PyError Unit) (hout : out' = out ∨ ∃ e, out' = .error e) :
    Analysed item (steps ++ [⟨.transactionExit, exited⟩]) out' := by
  have hsent : submissions (steps ++ [⟨.transactionExit, exited⟩]) = submissions steps :=
    (submissions_append steps _).trans (List.append_nil _)
  have hprinted : printed (steps ++ [⟨.transactionExit, exited⟩]) = printed steps :=
    (printed_append steps _).trans (List.append_nil _)
  have happended : appended (steps ++ [⟨.transactionExit, exited⟩]) = appended steps :=
    (appended_append steps _).trans (List.append_nil _)
  refine ⟨hsent ▸ h.unsent, hprinted ▸ h.unprinted, ?_, ?_⟩
  · intro result hresult
    rcases hout with rfl | ⟨e, rfl⟩
    · exact happended ▸ h.handedOver result hresult
    · cases hresult
  · intro e _ status hstatus
    rw [happended]
    cases out with
    | error e => exact h.failed e rfl status hstatus
    | ok result => exact (h.handedOver result rfl).2.failed hstatus

theorem buildSubmitOrderRequest_only (intent : OrderIntent) :
    (buildSubmitOrderRequest intent).Only Execution.Op.Ungated fun r =>
      ∃ built, r = .ok built ∧ (built.isSome = false ↔ Untradable intent) := by
  unfold buildSubmitOrderRequest
  cases htranslatable : translatable intent with
  | false => exact ⟨none, rfl, by simp [Untradable, htranslatable]⟩
  | true =>
    rw [if_pos rfl]
    cases hcontext : intent.decisionContextId with
    | none => exact ⟨none, rfl, by simp [Untradable, hcontext]⟩
    | some id =>
      refine ⟨trivial, fun now => ⟨_, rfl, ?_⟩⟩
      simp [Untradable, htranslatable, hcontext]

theorem submissions_ungated {steps : Steps} {α : Type} {p : Execution.Code α}
    {Q : Except PyError α → Prop} {out : Except PyError α} (hp : p.Only Execution.Op.Ungated Q)
    (h : (ofPipeline p).Performs steps out) : submissions steps = [] ∧ Q out := by
  have hperforms := hp.performs (Program.performs_lift sees_pipeline.own h)
  exact ⟨sent_ungated hperforms.1, hperforms.2⟩

theorem ofPipeline_quiet {α : Type} (p : Execution.Code α) :
    (ofPipeline p).Only Op.Quiet fun _ => True :=
  (Program.only_true p).lift fun _ _ => trivial

/-- A decision that no order is made of is skipped, unless its run fails or takes too long. -/
theorem waitFor_unsent {p : Execution.Code SubmitResult} {steps : Steps}
    {out : Except PyError SubmitResult} (hp : Unsent p) (h : (waitFor p).Performs steps out) :
    submissions steps = [] ∧ ∀ result, out = .ok result → result.status = "SKIPPED" := by
  rcases Program.performs_limited sees_pipeline h with hends | ⟨hreaches, rfl⟩
  · have hperforms := hp.only.performs hends
    exact ⟨sent_ungated hperforms.1, hperforms.2⟩
  · exact ⟨sent_ungated (hp.only.reaches hreaches), fun _ h => nomatch h⟩

/-- What an analysis that has assembled its decision does before the commit. -/
structure Prepared (item : Item) (steps : Steps) (result : SubmitResult) : Prop where
  unsent : submissions steps = []
  unprinted : printed steps = []
  handedOver : ∀ status ∈ [result.status, "ERROR", "UNKNOWN"],
    HandedOver item (appended steps) status

theorem defer_prepared {intent : OrderIntent} {tradeDecisionId : Option UUID}
    {out : Except PyError SubmitResult} (hsymbol : intent.request.symbol = item.symbol)
    (htradable : ¬Untradable intent) (h : (defer item intent tradeDecisionId).Performs steps out) :
    ∃ result, out = .ok result ∧ Prepared item steps result := by
  cases h with
  | call h =>
    cases h with
    | call h =>
      cases h
      refine ⟨_, rfl, rfl, rfl, fun status hstatus =>
        .one ⟨rfl, rfl, rfl, rfl, hsymbol, htradable⟩ ?_⟩
      exact hstatus

variable (item) in
theorem run_prepared {intent : OrderIntent} {tradeDecisionId : Option UUID}
    {out : Except PyError SubmitResult} (hpositive : 0 < intent.request.quantity)
    (huntradable : Untradable intent)
    (h : (waitFor (runExecutionPipeline loop.execution intent tradeDecisionId [])).Performs
      steps out) :
    (∃ e, out = .error e ∧ submissions steps = [] ∧ printed steps = [] ∧ appended steps = []) ∨
      ∃ result, out = .ok result ∧ Prepared item steps result := by
  have hquiet := ((waitFor_quiet _).performs h).1
  obtain ⟨hsent, hstatus⟩ := waitFor_unsent
    (runExecutionPipeline_unsent loop.execution tradeDecisionId [] _ _ huntradable hpositive) h
  cases out with
  | error e => exact .inl ⟨e, rfl, hsent, printed_quiet hquiet, appended_quiet hquiet⟩
  | ok result =>
    refine .inr ⟨result, rfl, hsent, printed_quiet hquiet, fun status hmem => ?_⟩
    rw [appended_quiet hquiet]
    exact .none (hstatus result rfl ▸ hmem)

/-- The end of an analysis. -/
def commitResult (item : Item) (result : SubmitResult) : Code CycleResult :=
  .call .commit fun committed => (returned committed).bind fun _ =>
    .ret (serializeCycleResult item.symbol item.market item.sourceType (some result))

theorem commit_analysed {first : Steps} {result : SubmitResult}
    (hfirst : Prepared item first result) (h : (commitResult item result).Performs steps out) :
    Analysed item (first ++ steps) out := by
  cases h with
  | @call _ _ committed rest _ hend =>
    have hrest : rest = [] ∧ ((∃ e, out = .error e) ∨ out = .ok (serializeCycleResult item.symbol
        item.market item.sourceType (some result))) := by
      cases committed <;> cases hend
      · exact ⟨rfl, .inl ⟨_, rfl⟩⟩
      · exact ⟨rfl, .inr rfl⟩
    obtain ⟨rfl, hout⟩ := hrest
    have hsent : submissions (first ++ [⟨.commit, committed⟩]) = [] := by
      rw [submissions_append, hfirst.unsent]
      rfl
    have hprinted : printed (first ++ [⟨.commit, committed⟩]) = [] := by
      rw [printed_append, hfirst.unprinted]
      rfl
    have happended : appended (first ++ [⟨.commit, committed⟩]) = appended first :=
      (appended_append first _).trans (List.append_nil _)
    refine ⟨hsent, hprinted, fun result' hresult => ?_, fun e _ status hstatus => ?_⟩
    · rcases hout with ⟨e, rfl⟩ | rfl
      · cases hresult
      · obtain rfl := Except.ok.inj hresult
        rw [happended]
        exact ⟨rfl, hfirst.handedOver _ List.mem_cons_self⟩
    · rw [happended]
      exact hfirst.handedOver _ (List.mem_cons_of_mem _ hstatus)

theorem decided_analysed {intent : OrderIntent} {tradeDecisionId : Option UUID}
    (hsymbol : intent.request.symbol = item.symbol) (hpositive : 0 < intent.request.quantity)
    (h : ((ofPipeline (buildSubmitOrderRequest intent)).bind fun built =>
      if built.isSome then (defer item intent tradeDecisionId).bind (commitResult item)
      else (waitFor (runExecutionPipeline loop.execution intent tradeDecisionId [])).bind
        (commitResult item)).Performs steps out) : Analysed item steps out := by
  have hbuilds := buildSubmitOrderRequest_only intent
  rcases Program.performs_bind h with ⟨e, hraised, -⟩ | ⟨built, first, rest, rfl, hbuild, hrest⟩
  · obtain ⟨-, _, hout, -⟩ := submissions_ungated hbuilds hraised
    cases hout
  obtain ⟨hsent, _, hout, huntradable⟩ := submissions_ungated hbuilds hbuild
  obtain rfl := Except.ok.inj hout
  refine Analysed.append ?_ hsent ((ofPipeline_quiet _).performs hbuild).1
  cases hbuilt : built.isSome with
  | true =>
    rw [hbuilt, if_pos rfl] at hrest
    have htradable : ¬Untradable intent := by simp [← huntradable, hbuilt]
    rcases Program.performs_bind hrest with ⟨e, hraised, -⟩ |
        ⟨result, mid, last, rfl, hrun, hcommit⟩
    · obtain ⟨_, hout, -⟩ := defer_prepared hsymbol htradable hraised
      cases hout
    · obtain ⟨_, hout, hprepared⟩ := defer_prepared hsymbol htradable hrun
      obtain rfl := Except.ok.inj hout
      exact commit_analysed hprepared hcommit
  | false =>
    rw [hbuilt, if_neg Bool.false_ne_true] at hrest
    have huntraded := huntradable.mp hbuilt
    rcases Program.performs_bind hrest with ⟨e, hraised, rfl⟩ |
        ⟨result, mid, last, rfl, hran, hcommit⟩
    · rcases run_prepared item hpositive huntraded hraised with ⟨_, -, hsent, hprinted, happended⟩ |
          ⟨_, hout, -⟩
      · exact analysed_raised e hsent hprinted happended
      · cases hout
    · rcases run_prepared item hpositive huntraded hran with ⟨_, hout, -⟩ | ⟨_, hout, hprepared⟩
      · cases hout
      · obtain rfl := Except.ok.inj hout
        exact commit_analysed hprepared hcommit

theorem analyse_analysed {start : Nat} (h : (analyse loop item start).Performs steps out) :
    Analysed item steps out := by
  rcases inTransaction_performs h with ⟨e, rfl, rfl⟩ | ⟨inner, r, exited, hbody, rfl, hout⟩
  · exact analysed_raised e rfl rfl rfl
  suffices hinner : Analysed item inner r from (hinner.exit exited hout).cons rfl trivial
  simp only [await, Program.bind_eq, Program.perform_bind, Program.pure_eq] at hbody
  cases hbody with
  | @call _ _ verdict rest _ hrest =>
    refine Analysed.cons ?_ rfl trivial
    cases verdict with
    | error e =>
      cases hrest
      exact analysed_raised e rfl rfl rfl
    | ok reason =>
      simp only [returned_ok, Program.ret_bind] at hrest
      cases reason with
      | some reason =>
        cases hrest with
        | call hend =>
          cases hend
          refine Analysed.cons ⟨rfl, rfl, fun result hresult => ?_, fun _ h =>
            nomatch h⟩ rfl trivial
          obtain rfl := Except.ok.inj hresult
          exact ⟨rfl, .none (by simp [preAiSkipped])⟩
      | none =>
        cases hrest with
        | @call _ _ events rest _ hrest =>
          refine Analysed.cons ?_ rfl trivial
          cases events with
          | error e =>
            cases hrest
            exact analysed_raised e rfl rfl rfl
          | ok u =>
            cases hrest with
            | @call _ _ assembled rest _ hrest =>
              refine Analysed.cons ?_ rfl trivial
              cases assembled with
              | error e =>
                cases hrest
                exact analysed_raised e rfl rfl rfl
              | ok a =>
                have hpositive : 0 < (assembledIntent (cycleRequest loop item start)
                    a).request.quantity := one_pos
                exact decided_analysed rfl hpositive hrest

/-- What the pass has done for an item of the general lane. -/
structure Processed (item : Item) (steps : Steps) (result : CycleResult) : Prop where
  symbol : result.symbol = item.symbol
  unsent : submissions steps = []
  printed : printed steps = [result]
  handedOver : HandedOver item (appended steps) result.status

theorem executeSymbolCycle_performs (h : (executeSymbolCycle loop item).Performs steps out) :
    submissions steps = [] ∧ (out = .error cancelledError ∨
      ∃ result, out = .ok result ∧ result.symbol = item.symbol ∧ printed steps = [] ∧
        HandedOver item (appended steps) result.status) := by
  cases h with
  | @call _ _ start rest _ hrest =>
    rcases Program.performs_handle hrest with ⟨result, hran, rfl⟩ |
        ⟨e, first, last, rfl, hraised, hend⟩
    · have hanalysed : Analysed item (⟨.monotonic, start⟩ :: rest) (.ok result) :=
        (analyse_analysed hran).cons rfl trivial
      have hresult := hanalysed.handedOver result rfl
      exact ⟨hanalysed.unsent, .inr ⟨result, rfl, hresult.1, hanalysed.unprinted, hresult.2⟩⟩
    · have hanalysed : Analysed item (⟨.monotonic, start⟩ :: first) (.error e) :=
        (analyse_analysed hraised).cons rfl trivial
      split at hend
      · cases hend
        rw [List.append_nil]
        exact ⟨hanalysed.unsent, .inl rfl⟩
      · cases hend
        rw [List.append_nil]
        exact ⟨hanalysed.unsent, .inr ⟨_, rfl, serializeCycleResult_symbol ..,
          hanalysed.unprinted, hanalysed.failed e rfl _ (serializeCycleResult_failed ..)⟩⟩

/-- An item of the general lane sends nothing, and unless it cancels the cycle it hands over at most
one candidate, and its result is pending exactly when the candidate is handed over and nothing has
failed behind it. -/
theorem processOne_processed (hgeneral : item.sourceType ≠ "held_position")
    (h : (processOne loop item).Performs steps out) :
    submissions steps = [] ∧
      (out = .error cancelledError ∨ ∃ result, out = .ok result ∧ Processed item steps result) := by
  unfold processOne at h
  rw [if_neg hgeneral] at h
  rcases Program.performs_bind h with ⟨e, hraised, rfl⟩ | ⟨result, first, rest, rfl, hrun, hprint⟩
  · obtain ⟨hsent, hcancelled | ⟨_, hout, -⟩⟩ := executeSymbolCycle_performs hraised
    · exact ⟨hsent, .inl (congrArg Except.error (Except.error.inj hcancelled))⟩
    · cases hout
  · obtain ⟨hsent, hcancelled | ⟨_, hout, hsymbol, hprinted, hhanded⟩⟩ :=
      executeSymbolCycle_performs hrun
    · cases hcancelled
    obtain rfl := Except.ok.inj hout
    cases hprint with
    | call hend =>
      cases hend
      have hall : submissions (first ++ [⟨.print result, ()⟩]) = [] := by
        rw [submissions_append, hsent]
        rfl
      refine ⟨hall, .inr ⟨result, rfl, hsymbol, hall, ?_, ?_⟩⟩
      · rw [printed_append, hprinted]
        rfl
      · rw [appended_append]
        exact (List.append_nil _).symm ▸ hhanded

theorem processOne_held (hheld : item.sourceType = "held_position")
    (h : (processOne loop item).Performs steps out) :
    submissions steps = [] ∧ appended steps = [] := by
  unfold processOne at h
  rw [if_pos hheld] at h
  cases h with
  | call h =>
    cases h with
    | call h =>
      cases h
      exact ⟨rfl, rfl⟩

theorem processOne_unsent (h : (processOne loop item).Performs steps out) :
    submissions steps = [] := by
  by_cases hheld : item.sourceType = "held_position"
  · exact (processOne_held hheld h).1
  · exact (processOne_processed hheld h).1

end AgentTrading.DecisionLoop
