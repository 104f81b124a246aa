import AgentTrading.Execution.Evidence
import AgentTrading.Execution.Parts

/-! The pipeline for a decision that no order is made of: it is run for the record of its attempt
only. -/
namespace AgentTrading.Execution
open Domain Library Sizing

/-- No request is built from the decision. -/
def Untradable (intent : OrderIntent) : Prop :=
  translatable intent = false ∨ intent.decisionContextId = none

variable {svc : ExecutionService} {run : Run} {intent : OrderIntent} {trace : Trace}

/-- The program touches neither orders nor the broker, and what it returns has been skipped. -/
structure Unsent (p : Code SubmitResult) : Prop where
  only : p.Only Op.Ungated fun r => ∀ result, r = .ok result → result.status = "SKIPPED"

theorem unsent_after {α : Type} {p : Code α} {f : α → Code SubmitResult}
    (hp : p.Only Op.Ungated fun _ => True) (hf : ∀ a, Unsent (f a)) : Unsent (p.bind f) :=
  ⟨hp.bind (fun a _ => (hf a).only) fun _ _ _ h => nomatch h⟩

theorem unsent_bind {α : Type} {p : Code α} {f : α → Code SubmitResult} (hp : Plain p)
    (hf : ∀ a, Unsent (f a)) : Unsent (p.bind f) :=
  unsent_after (hp.mono (fun _ h => h.ungated) fun _ h => h) hf

theorem unsent_await {op : Op} {f : Reply op → Code SubmitResult} (hop : op.Ungated)
    (hf : ∀ r, Unsent (f r)) : Unsent ((await op).bind f) :=
  ⟨hop, fun r => (hf r).only⟩

theorem conclude_unsent {attemptStatus stopPhase : String} {orderRequestId : Option UUID}
    {result : SubmitResult} (h : result.status = "SKIPPED") :
    Unsent (conclude run attemptStatus stopPhase orderRequestId result) := by
  unfold conclude finalizeAttempt
  cases run.attemptId with
  | none => exact ⟨fun result' hresult => Except.ok.inj hresult ▸ h⟩
  | some id =>
    exact unsent_await trivial fun now => unsent_await trivial fun updated =>
      ⟨fun result' hresult => Except.ok.inj hresult ▸ h⟩

theorem translationPhase_unsent {referencePrice : Option ℚ} (h : Untradable intent) :
    Unsent (translationPhase svc run intent trace referencePrice) := by
  have hnone : buildSubmitOrderRequest intent = .ret none := by
    unfold buildSubmitOrderRequest
    rcases h with h | h
    · rw [if_neg (by simp [h])]
      rfl
    · rw [h]
      split <;> rfl
  unfold translationPhase
  rw [hnone]
  exact conclude_unsent rfl

theorem record_unsent {ruleSetVersion : String} {codes : List String}
    {orderRequestId : Option UUID} {p : Code SubmitResult} (hp : Unsent p) :
    Unsent ((recordValidation run intent ruleSetVersion codes orderRequestId).bind fun _ => p) :=
  unsent_await trivial fun _ => hp

theorem sellGuardPhase_unsent {referencePrice : Option ℚ} (h : Untradable intent) :
    Unsent (sellGuardPhase svc run intent trace referencePrice) := by
  unfold sellGuardPhase
  refine unsent_bind (sellGuard_plain intent) fun blocked => ?_
  cases blocked with
  | none => exact translationPhase_unsent h
  | some availability => exact record_unsent (conclude_unsent rfl)

theorem sizedPhase_unsent {referencePrice : Option ℚ} (h : Untradable intent) :
    Unsent (sizedPhase svc run intent trace referencePrice) :=
  unsent_bind (syncExecutionSizing_plain ..) fun _ => sellGuardPhase_unsent h

theorem untradable_forceLimit (h : Untradable intent) (metadata : LiquidityMetadata) (price : ℚ) :
    Untradable (forceLimit intent metadata price) := h

theorem liquidityPhase_unsent {quote : Option Quote} {referencePrice : Option ℚ}
    {sizing : SizingResult} (h : Untradable intent) :
    Unsent (liquidityPhase svc run intent trace quote referencePrice sizing) := by
  unfold liquidityPhase
  dsimp only
  split
  · exact record_unsent (conclude_unsent rfl)
  · split
    · exact sizedPhase_unsent (untradable_forceLimit h _ _)
    · exact sizedPhase_unsent h
  · exact sizedPhase_unsent h

theorem untradable_withQuantity {quantity : ℚ} (h : Untradable intent)
    (hpositive : 0 < intent.request.quantity) (hquantity : 0 < quantity) :
    Untradable (intent.withQuantity quantity) := by
  have hasked : decide (0 < quantity) = decide (0 < intent.request.quantity) := by
    rw [decide_eq_true hquantity, decide_eq_true hpositive]
  have hsame : translatable (intent.withQuantity quantity) = translatable intent :=
    congrArg (Bool.and _) hasked
  exact h.imp (fun h => hsame.trans h) id

theorem sizingPhase_unsent {isHpSell : Bool} {quote : Option Quote} {referencePrice : Option ℚ}
    (h : Untradable intent) (hpositive : 0 < intent.request.quantity) :
    Unsent (sizingPhase svc run intent trace isHpSell quote referencePrice) := by
  unfold sizingPhase
  refine unsent_bind (returned_plain _) fun inputs => ?_
  dsimp only
  split
  next => exact unsent_bind (syncExecutionSizing_plain ..) fun _ => conclude_unsent rfl
  next hquantity =>
    exact liquidityPhase_unsent (untradable_withQuantity h hpositive (not_le.mp hquantity))

theorem referencePhase_unsent {isHpSell : Bool} {quote : Option Quote} {referencePrice : Option ℚ}
    (h : Untradable intent) (hpositive : 0 < intent.request.quantity) :
    Unsent (referencePhase svc run intent trace isHpSell quote referencePrice) := by
  unfold referencePhase
  dsimp only
  split
  · split
    · exact conclude_unsent rfl
    · exact sizingPhase_unsent h hpositive
  · exact sizingPhase_unsent h hpositive

theorem quotePhase_unsent (h : Untradable intent) (hpositive : 0 < intent.request.quantity) :
    Unsent (quotePhase svc run intent trace) := by
  unfold quotePhase
  dsimp only
  split
  · refine unsent_await trivial fun resolution => unsent_bind (returned_plain _) fun _ => ?_
    exact referencePhase_unsent h hpositive
  · exact referencePhase_unsent h hpositive

theorem runExecutionPipeline_unsent (svc : ExecutionService) (tradeDecisionId : Option UUID)
    (trace : Trace) (actorType actorId : String) (h : Untradable intent)
    (hpositive : 0 < intent.request.quantity) :
    Unsent (runExecutionPipeline svc intent tradeDecisionId trace actorType actorId) :=
  unsent_after (createAttempt_ungated intent tradeDecisionId) fun _ => quotePhase_unsent h hpositive

end AgentTrading.Execution
