import AgentTrading.Orders.VersionedWrites

/-! Concurrent callers of `transition_to`: when every status they write is one that the table
permits from the status it replaced. -/
namespace AgentTrading.Orders
open Domain Repositories Library

structure TransitionCall where
  order : OrderRequestEntity
  target : OrderStatus
  args : TransitionArgs

def TransitionCall.code (service : Bool) (job : TransitionCall) : Code OrderRequestEntity :=
  transitionTo service job.order job.target job.args

/-- Every persisted status is one that the table permits from the status it replaced. -/
def WritesAllowed (s : Store) : Prop :=
  ∀ w ∈ s.statusWrites, w.2.status ∈ allowedTransitions w.1.status

/-- A re-fetch finds a finished order or one that may go on to the caller's target. -/
def RefetchPermits (job : TransitionCall) (_ : Choice) (op : Op) (s : Store) : Prop :=
  match op with
  | .ordersGet id => ∀ row, s.orders id = some row →
      row.status ∈ terminalStates ∨ job.target ∈ allowedTransitions row.status
  | _ => True

/-- The table as a relation. -/
abbrev Permitted (current target : OrderStatus) : Prop := target ∈ allowedTransitions current

theorem transitionTo_safe (service : Bool) (job : TransitionCall) :
    WriteSafe Permitted (RefetchPermits job) job.order (job.code service) := by
  unfold TransitionCall.code transitionTo
  cases hvalid : validateTransition job.order.orderRequestId job.order.status job.target with
  | error e => exact Program.safeIn_raise e
  | ok u =>
    have hwithin : RefetchWithin Permitted (RefetchPermits job) job.target :=
      fun _ _ _ row hmay hrow => (hmay row hrow).resolve_left
    have hcore := transitionToCore_safe service job.order job.target
      { job.args with eventSource := .internal } job.order Program.ret (fun _ => trivial) hwithin
      rfl rfl ((validateTransition_ok ..).mp hvalid)
    simpa only [orRaise, Program.bind_eq, Program.ret_bind, Program.bind_ret] using hcore

/-- Any number of callers, each with an entity it has read, interleaved in any order. -/
abbrev afterTransitions (service : Bool) (s : Store)
    (es : List (Pool.Event TransitionCall Choice)) : Store :=
  (Pool.run exec (TransitionCall.code service) (Pool.idle s) es).shared

/-- The run's callers hold rows of the past, and its re-fetches meet `may`. -/
abbrev TransitionRun (service : Bool) (may : TransitionCall → Choice → Op → Store → Prop)
    (s : Store) (es : List (Pool.Event TransitionCall Choice)) : Prop :=
  Pool.Meets exec (TransitionCall.code service) (fun job s => WasStored s job.order) may
    (Pool.idle s) es

theorem allowed_reconcileRequired (target : OrderStatus)
    (h : target ∈ allowedTransitions .reconcileRequired) :
    target ≠ .filled ∧ target ≠ .partiallyFilled := by
  constructor <;> rintro rfl <;> revert h <;> decide

theorem transitionTo_writes_allowed (service : Bool) (s : Store)
    (es : List (Pool.Event TransitionCall Choice)) (hs : Untouched s)
    (hes : TransitionRun service RefetchPermits s es) :
    WritesAllowed (afterTransitions service s es) ∧
      ∀ w ∈ (afterTransitions service s es).statusWrites,
        w.1.status = .reconcileRequired → w.2.status ≠ .filled ∧ w.2.status ≠ .partiallyFilled := by
  have hversioned : VersionedBy Permitted (afterTransitions service s es) := by
    refine Pool.run_guarded
      (fun job _ op s => VersionedWrite Permitted job.order.orderRequestId op s)
      (later_refl Permitted) (later_trans Permitted) ?_ ?_ s es (untouched_versioned hs) hes
    · intro job t ht hread
      exact transitionTo_safe service job t ⟨ht, hread⟩
    · intro job c op t ht hgood
      have hlater := exec_later _ c op t ht.keyed hgood
      exact ⟨hlater.versioned ht, hlater⟩
  refine ⟨hversioned.within, fun w hw hfrom => ?_⟩
  have h := hversioned.within w hw
  rw [hfrom] at h
  exact allowed_reconcileRequired _ h

def sampleOrder (status : OrderStatus) : OrderRequestEntity where
  orderRequestId := 1
  accountId := 2
  instrumentId := 3
  clientOrderId := "c-1"
  idempotencyKey := "k-1"
  correlationId := "r-1"
  side := .buy
  orderType := .limit
  requestedQuantity := 10
  status := status

def idleChoice : Choice where
  elapsed := 0
  broker := .error (.other "Unreachable")
  rest := fun _ => .error (.other "Unreachable")

/-- Two callers read an acknowledged order; the second writes `other` before the first, on
its way to `filled`, makes its first attempt. -/
def overtaken (other : OrderStatus) : List (Pool.Event TransitionCall Choice) :=
  [.start 0 ⟨sampleOrder .acknowledged, .filled, {}⟩,
   .start 1 ⟨sampleOrder .acknowledged, other, {}⟩] ++
  List.replicate 2 (.step 1 idleChoice) ++ List.replicate 6 (.step 0 idleChoice)

theorem untouched_holding (order : OrderRequestEntity) (clock : Time) :
    Untouched (Store.holding order clock) := by
  refine ⟨fun id row h => ?_, rfl⟩
  by_cases hid : id = order.orderRequestId
  · simp only [Store.holding, hid, Function.update_self, Option.some.injEq] at h
    rw [← h, hid]
  · simp only [Store.holding, Function.update_of_ne hid, reduceCtorEq] at h

/-- The table permits `partially_filled` to `filled`, so this caller meets the condition. -/
theorem transitionTo_writes_allowed_overtaken :
    TransitionRun false RefetchPermits (Store.holding (sampleOrder .acknowledged) 0)
        (overtaken .partiallyFilled) ∧
      (∀ w ∈ (afterTransitions false (Store.holding (sampleOrder .acknowledged) 0)
        (overtaken .partiallyFilled)).statusWrites, w.2.status ∈
          allowedTransitions w.1.status) := by
  have hrun : TransitionRun false RefetchPermits (Store.holding (sampleOrder .acknowledged) 0)
      (overtaken .partiallyFilled) := by
    refine ⟨fun _ => Or.inl rfl, fun _ => Or.inl rfl, trivial, trivial, trivial, trivial, ?_,
      trivial, trivial, trivial, trivial⟩
    intro row hrow
    obtain rfl := Option.some.inj hrow
    exact Or.inr (by decide)
  exact ⟨hrun, (transitionTo_writes_allowed false _ _ (untouched_holding _ _) hrun).1⟩

theorem transitionTo_reconcileRequired_to_filled :
    Untouched (Store.holding (sampleOrder .acknowledged) 0) ∧
    TransitionRun false (fun _ _ _ _ => True) (Store.holding (sampleOrder .acknowledged) 0)
        (overtaken .reconcileRequired) ∧
      ¬ WritesAllowed (afterTransitions false (Store.holding (sampleOrder .acknowledged) 0)
        (overtaken .reconcileRequired)) ∧
      ∃ w ∈ (afterTransitions false (Store.holding (sampleOrder .acknowledged) 0)
        (overtaken .reconcileRequired)).statusWrites,
        w.1.status = .reconcileRequired ∧ w.2.status = .filled := by
  have hwrites : (afterTransitions false (Store.holding (sampleOrder .acknowledged) 0)
      (overtaken .reconcileRequired)).statusWrites.map (fun w => (w.1.status, w.2.status)) =
      [(.acknowledged, .reconcileRequired), (.reconcileRequired, .filled)] := rfl
  have hmem : (OrderStatus.reconcileRequired, OrderStatus.filled) ∈
      (afterTransitions false (Store.holding (sampleOrder .acknowledged) 0)
        (overtaken .reconcileRequired)).statusWrites.map (fun w => (w.1.status, w.2.status)) := by
    rw [hwrites]
    decide
  obtain ⟨w, hw, heq⟩ := List.mem_map.mp hmem
  obtain ⟨hfrom, hto⟩ := Prod.mk.inj heq
  refine ⟨untouched_holding _ _, ⟨fun _ => Or.inl rfl, fun _ => Or.inl rfl, trivial, trivial,
    trivial, trivial, trivial, trivial, trivial, trivial, trivial⟩, fun h => ?_, w, hw, hfrom, hto⟩
  have hallowed := h w hw
  rw [hfrom, hto] at hallowed
  exact (allowed_reconcileRequired _ hallowed).1 rfl

end AgentTrading.Orders
