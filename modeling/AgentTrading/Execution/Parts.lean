import AgentTrading.Execution.Pipeline

/-! The parts of the phases that only read, ask and record. -/
namespace AgentTrading.Execution
open Domain Library Repositories Sizing

/-- Operations that concern neither attempts nor orders nor the broker. -/
def Op.Plain : Op → Prop
  | .executionAttemptsAdd _ => False
  | .executionAttemptsUpdateStatus .. => False
  | .ordersAdd _ => False
  | .orders (.ordersUpdateStatus ..) => False
  | .orders (.brokerSubmitOrder ..) => False
  | _ => True

variable {svc : ExecutionService} {run : Run} {α β : Type}

/-- A program of such operations. -/
abbrev Plain (p : Code α) : Prop := p.Only Op.Plain fun _ => True

theorem returned_plain (x : Except PyError α) : Plain (returned x) := by
  cases x <;> trivial

theorem plain_bind {p : Code α} {f : α → Code β} (hp : Plain p) (hf : ∀ a, Plain (f a)) :
    Plain (p.bind f) :=
  hp.bind (fun a _ => hf a) fun _ _ => trivial

theorem plain_await {op : Op} {f : Reply op → Code α} (hop : op.Plain) (hf : ∀ r, Plain (f r)) :
    Plain ((await op).bind f) := ⟨hop, hf⟩

theorem plain_of_returns {p : Code α} {a : α} (hp : p.Only Op.Plain (· = .ok a)) : Plain p :=
  hp.mono (fun _ h => h) fun _ _ => trivial

theorem postSubmitSync_returns (request : Request) (submitted : OrderRequestEntity) :
    (postSubmitSync svc request submitted).Only Op.Plain (· = .ok ()) := by
  unfold postSubmitSync
  split_ifs
  · refine Program.Only.handle (Q := fun r => ∀ u, r = .ok u → r = .ok ()) ?_
      (fun u h => h u rfl) fun _ _ => rfl
    refine (plain_await (by trivial) fun brokerOrders =>
      plain_bind (returned_plain _) fun items => ?_ :
      Plain _).mono (fun _ h => h) fun r _ u h => h
    cases items with
    | nil => trivial
    | cons item rest => exact plain_await trivial fun synced => returned_plain _
  · rfl

theorem recordOutcome_returns (intent : OrderIntent) (submitted : OrderRequestEntity) :
    (recordOutcome run intent submitted).Only Op.Plain (· = .ok ()) := by
  unfold recordOutcome
  split_ifs
  · exact ⟨trivial, fun _ => rfl⟩
  · rfl

theorem recordVerdict_plain (intent : OrderIntent) (verdict : Verdict) :
    Plain (recordVerdict run intent verdict) := by
  unfold recordVerdict
  split_ifs
  · exact ⟨trivial, fun _ => trivial⟩
  · trivial

theorem staleness_plain (intent : OrderIntent) : Plain (staleness svc intent) := by
  unfold staleness
  cases intent.accountId with
  | none => exact plain_await trivial fun health => plain_bind (returned_plain _) fun _ => trivial
  | some accountId =>
    refine plain_bind ?_ fun freshness => trivial
    refine plain_await trivial fun now => plain_await trivial fun cash => ?_
    refine plain_bind (returned_plain _) fun cash => ?_
    cases cash with
    | none => trivial
    | some cashAt =>
      exact plain_await trivial fun positions => plain_bind (returned_plain _) fun _ => trivial

theorem resolveAccount_plain (intent : OrderIntent) : Plain (resolveAccount intent) := by
  unfold resolveAccount
  cases intent.accountId with
  | some id => trivial
  | none => exact plain_await trivial fun account => returned_plain _

theorem hasRecentActiveBuyOrder_plain (accountId : UUID) (symbol market : String) (after : Time) :
    Plain (hasRecentActiveBuyOrder accountId symbol market after) := by
  refine plain_await trivial fun instrument => plain_bind (returned_plain _) fun instrument => ?_
  cases instrument with
  | none => trivial
  | some id => exact plain_await trivial fun orders => plain_bind (returned_plain _) fun _ =>
    trivial

theorem buyDuplicate_plain (intent : OrderIntent) : Plain (buyDuplicate svc intent) := by
  unfold buyDuplicate
  split_ifs
  · refine plain_bind (resolveAccount_plain intent) fun account => ?_
    cases account with
    | none => trivial
    | some accountId =>
      refine plain_bind ?_ fun locked => ?_
      · unfold hasActiveReconciliationLock
        split_ifs
        · exact ⟨trivial, fun _ => trivial⟩
        · trivial
      · cases locked with
        | true => trivial
        | false => exact plain_await trivial fun now => hasRecentActiveBuyOrder_plain ..
  · trivial

theorem recentSells_plain (intent : OrderIntent) : Plain (recentSells intent) := by
  refine plain_bind (resolveAccount_plain intent) fun account => ?_
  cases account with
  | none => trivial
  | some accountId =>
    refine plain_await trivial fun first => plain_await trivial fun last => ?_
    exact plain_await trivial fun orders => plain_bind (returned_plain _) fun _ => trivial

theorem probeBlock_plain (intent : OrderIntent) (referencePrice : Option ℚ) :
    Plain (probeBlock svc run intent referencePrice) := by
  unfold probeBlock
  split
  · trivial
  · split
    · trivial
    · exact plain_bind (recentSells_plain intent) fun _ => trivial

theorem buildSubmitOrderRequest_plain (intent : OrderIntent) :
    Plain (buildSubmitOrderRequest intent) := by
  unfold buildSubmitOrderRequest
  split_ifs
  · cases intent.decisionContextId with
    | none => trivial
    | some id => exact plain_await trivial fun now => trivial
  · trivial

theorem sellGuard_plain (intent : OrderIntent) : Plain (sellGuard intent) := by
  unfold sellGuard
  cases intent.accountId with
  | none => trivial
  | some accountId =>
    dsimp only
    split_ifs
    · refine plain_await trivial fun reply => ?_
      cases reply <;> trivial
    · trivial

theorem syncExecutionSizing_plain (intent : OrderIntent) (quantity : ℚ) :
    Plain (syncExecutionSizing svc run intent quantity) := by
  unfold syncExecutionSizing
  cases run.tradeDecisionId with
  | none => trivial
  | some id => exact ⟨trivial, fun _ => trivial⟩

end AgentTrading.Execution
