import AgentTrading.Orders.TransitionSafety

/-! Concurrent callers of `transition_to`, `transition_to_authoritative` and
`manual_resolve`. The three decide differently whether a transition is permitted, but none
goes on from a copy that is filled, cancelled or rejected, and the retry loop they share
does not go on from such a row: what is once stored in one of these statuses stays. -/
namespace AgentTrading.Orders
open Domain Repositories Library

/-- A call of one of the operations that write the status of an order. -/
inductive ManagerCall where
  | transitionTo (order : OrderRequestEntity) (target : OrderStatus) (args : TransitionArgs)
  | transitionToAuthoritative (order : OrderRequestEntity) (target : OrderStatus)
      (reconciliationRunId : UUID) (reasonMessage : Option String) (maxRetries : Nat)
  | manualResolve (order : OrderRequestEntity) (target : OrderStatus)
      (evidence : List (String × String)) (reasonCode : String) (reasonMessage : Option String)
      (operator : String)

namespace ManagerCall

def order : ManagerCall → OrderRequestEntity
  | transitionTo order .. => order
  | transitionToAuthoritative order .. => order
  | manualResolve order .. => order

def target : ManagerCall → OrderStatus
  | transitionTo _ target .. => target
  | transitionToAuthoritative _ target .. => target
  | manualResolve _ target .. => target

/-- The number of attempts; a manual resolution makes the default three. -/
def maxRetries : ManagerCall → Nat
  | transitionTo _ _ args => args.maxRetries
  | transitionToAuthoritative _ _ _ _ maxRetries => maxRetries
  | manualResolve .. => 3

def code (service : Bool) : ManagerCall → Code OrderRequestEntity
  | transitionTo order target args => Orders.transitionTo service order target args
  | transitionToAuthoritative order target runId reasonMessage maxRetries =>
    Orders.transitionToAuthoritative service order target runId reasonMessage maxRetries
  | manualResolve order target evidence reasonCode reasonMessage operator =>
    Orders.manualResolve service order target evidence reasonCode reasonMessage operator

end ManagerCall

def finalStatuses : List OrderStatus := [.filled, .cancelled, .rejected]

theorem final_terminal {status : OrderStatus} (h : status ∈ finalStatuses) :
    status ∈ terminalStates := by
  revert h
  cases status <;> decide

theorem final_allows_none {status : OrderStatus} (h : status ∈ finalStatuses) :
    allowedTransitions status = [] := by
  revert h
  cases status <;> decide

theorem resolveLinkedRun_only (id : UUID) (runs : List ReconciliationRunEntity) :
    (resolveLinkedRun id runs).Only Op.Silent fun _ => True := by
  induction runs with
  | nil => trivial
  | cons run rest ih =>
    refine ⟨trivial, fun links => ?_⟩
    simp only [Program.ret_bind]
    split
    · refine ⟨trivial, fun found => ?_⟩
      cases found with
      | none => trivial
      | some run => exact ⟨trivial, fun _ => ⟨trivial, fun _ => trivial⟩⟩
    · exact ih

theorem reconcileResolved_only (service : Bool) (after : OrderRequestEntity) :
    (reconcileResolved service after).Only Op.Silent fun _ => True := by
  unfold reconcileResolved
  split
  · refine Program.Only.handle (Q := fun _ => True) ?_ (fun _ _ => trivial) fun _ _ => trivial
    exact ⟨trivial, fun pending => resolveLinkedRun_only _ pending⟩
  · trivial

/-- A call raises at once, or is the common core with the call's own attempts from a copy in
none of the final statuses, followed by nothing that concerns the order. -/
theorem code_cases (service : Bool) (job : ManagerCall) :
    (∃ e, job.code service = .raise e) ∨
    ∃ args f, job.code service = (transitionToCore service job.order job.target args).bind f ∧
      (∀ a, (f a).Only Op.Silent fun _ => True) ∧ job.order.status ∉ finalStatuses ∧
      args.maxRetries = job.maxRetries := by
  cases job with
  | transitionTo order target args =>
    simp only [ManagerCall.code, transitionTo]
    cases hvalid : validateTransition order.orderRequestId order.status target with
    | error e => exact Or.inl ⟨e, rfl⟩
    | ok u =>
      have hallowed := (validateTransition_ok ..).mp hvalid
      refine Or.inr ⟨{ args with eventSource := .internal }, .ret, ?_, fun _ => trivial, ?_, rfl⟩
      · rw [Program.bind_ret]
        rfl
      · intro hfinal
        have hnone : allowedTransitions order.status = [] := final_allows_none hfinal
        rw [hnone] at hallowed
        cases hallowed
  | transitionToAuthoritative order target runId reasonMessage maxRetries =>
    simp only [ManagerCall.code, transitionToAuthoritative]
    cases validateAuthoritativeTarget target with
    | error e => exact Or.inl ⟨e, rfl⟩
    | ok u =>
      by_cases hterminal : order.status ∈ terminalStates
      · simp only [hterminal, if_true]
        exact Or.inl ⟨_, rfl⟩
      · simp only [hterminal, if_false]
        refine Or.inr ⟨_, .ret, (Program.bind_ret _).symm, fun _ => trivial, ?_, rfl⟩
        exact fun hfinal => hterminal (final_terminal hfinal)
  | manualResolve order target evidence reasonCode reasonMessage operator =>
    simp only [ManagerCall.code, manualResolve]
    by_cases hstatus : order.status = .reconcileRequired
    · simp only [hstatus, ne_eq, not_true_eq_false, if_false]
      by_cases htarget : target ∉ manualResolveTargets
      · simp only [htarget, not_false_eq_true, if_true]
        exact Or.inl ⟨_, rfl⟩
      · by_cases hevidence : evidence = []
        · simp only [htarget, hevidence, if_false, if_true]
          exact Or.inl ⟨_, rfl⟩
        · simp only [htarget, hevidence, if_false]
          refine Or.inr ⟨_, _, rfl, fun after => ?_, ?_, rfl⟩
          · exact (reconcileResolved_only service after).bind (fun _ _ => trivial)
              fun _ _ => trivial
          · simp only [ManagerCall.order, hstatus]
            decide
    · simp only [hstatus, ne_eq, not_false_eq_true, if_true]
      exact Or.inl ⟨_, rfl⟩

/-- A copy of an order: a row of the past, or what a transition has returned, which carries
another status under the version of the row it was made from. -/
def IsCopy (s : Store) (e : OrderRequestEntity) : Prop :=
  WasStored s e ∨ ∃ row, WasStored s row ∧ row.status ∉ finalStatuses ∧
    e.orderRequestId = row.orderRequestId ∧ e.version = row.version

/-- A write may replace any status but a final one. -/
abbrev Unfinished (current _ : OrderStatus) : Prop := current ∉ finalStatuses

/-- A call from an entity with the identity and the version of `base`. -/
theorem code_safe {R : OrderStatus → OrderStatus → Prop} {may : Choice → Op → Store → Prop}
    (service : Bool) (job : ManagerCall) (base : OrderRequestEntity)
    (hwithin : RefetchWithin R may job.target)
    (hid : job.order.orderRequestId = base.orderRequestId)
    (hversion : job.order.version = base.version)
    (hbase : job.order.status ∉ finalStatuses → R base.status job.target) :
    WriteSafe R may base (job.code service) := by
  rcases code_cases service job with ⟨e, hcode⟩ | ⟨args, f, hcode, hf, hstatus, -⟩
  · rw [hcode]
    exact Program.safeIn_raise e
  · rw [hcode]
    exact transitionToCore_safe service job.order job.target args base f
      (fun a => (hf a).mono (fun _ h => h.keepsStatus) fun _ => id) hwithin hid hversion
      (hbase hstatus)

theorem code_safe_unfinished (service : Bool) (job : ManagerCall) (s : Store)
    (hs : VersionedBy Unfinished s) (hcopy : IsCopy s job.order) :
    Program.Safe exec (LaterBy Unfinished) (fun _ _ _ => True)
      (fun _ op s => VersionedWrite Unfinished job.order.orderRequestId op s) (fun _ _ => True)
      (job.code service) s := by
  have hwithin : RefetchWithin Unfinished (fun _ _ _ => True) job.target :=
    fun _ _ _ row _ _ hterminal hfinal => hterminal (final_terminal hfinal)
  rcases hcopy with hstored | ⟨row, hstored, hrow, hid, hversion⟩
  · exact code_safe service job job.order hwithin rfl rfl id s ⟨hs, hstored⟩
  · rw [hid]
    exact code_safe service job row hwithin hid hversion (fun _ => hrow) s ⟨hs, hstored⟩

/-- Any number of callers, each with a copy of an order, interleaved in any order. -/
abbrev afterCalls (service : Bool) (s : Store) (es : List (Pool.Event ManagerCall Choice)) :
    Store :=
  (Pool.run exec (ManagerCall.code service) (Pool.idle s) es).shared

abbrev CallsRun (service : Bool) (s : Store) (es : List (Pool.Event ManagerCall Choice)) : Prop :=
  Pool.Meets exec (ManagerCall.code service) (fun job s => IsCopy s job.order)
    (fun _ _ _ _ => True) (Pool.idle s) es

theorem calls_later (service : Bool) (s : Store) (es fs : List (Pool.Event ManagerCall Choice))
    (hs : Untouched s) (hes : CallsRun service s (es ++ fs)) :
    LaterBy Unfinished (afterCalls service s es) (afterCalls service s (es ++ fs)) := by
  have hversioned : VersionedBy Unfinished s := untouched_versioned hs
  refine Pool.run_rely
    (fun job _ op s => VersionedWrite Unfinished job.order.orderRequestId op s)
    (later_refl Unfinished) (later_trans Unfinished) ?_ ?_ s es fs hversioned hes
  · intro job t ht hcopy
    exact code_safe_unfinished service job t ht hcopy
  · intro job c op t ht hgood
    have hlater := exec_later _ c op t ht.keyed hgood
    exact ⟨hlater.versioned ht, hlater⟩

/-- A row that is filled, cancelled or rejected at some point of a run is stored unchanged at
every later point. -/
theorem finalStatus_never_changes (service : Bool) (s : Store)
    (es fs : List (Pool.Event ManagerCall Choice)) (hs : Untouched s)
    (hes : CallsRun service s (es ++ fs)) (id : UUID) (row : OrderRequestEntity)
    (hrow : (afterCalls service s es).orders id = some row) (hfinal : row.status ∈ finalStatuses) :
    (afterCalls service s (es ++ fs)).orders id = some row := by
  have hlater := calls_later service s es fs hs hes
  exact hlater.settled id row hrow fun _ hunfinished => hunfinished hfinal

/-- A caller fills an acknowledged order; another, with a copy read before, then tries to
cancel it. -/
def lateCancel : List (Pool.Event ManagerCall Choice) × List (Pool.Event ManagerCall Choice) :=
  (.start 0 (.transitionTo (sampleOrder .acknowledged) .filled {}) ::
      List.replicate 8 (.step 0 idleChoice),
    .start 1 (.transitionToAuthoritative (sampleOrder .acknowledged) .cancelled 9 none 3) ::
      List.replicate 4 (.step 1 idleChoice))

theorem finalStatus_never_changes_lateCancel :
    ∃ row, row.status = .filled ∧
      (afterCalls false (Store.holding (sampleOrder .acknowledged) 0) lateCancel.1).orders 1 =
        some row ∧
      (afterCalls false (Store.holding (sampleOrder .acknowledged) 0)
        (lateCancel.1 ++ lateCancel.2)).orders 1 = some row := by
  have hrun : CallsRun false (Store.holding (sampleOrder .acknowledged) 0)
      (lateCancel.1 ++ lateCancel.2) := by
    refine ⟨fun _ => Or.inl (Or.inl rfl), trivial, trivial, trivial, trivial, trivial, trivial,
      trivial, trivial, fun _ => ?_, trivial, trivial, trivial, trivial, trivial⟩
    exact Or.inl (Or.inr ⟨_, List.mem_cons_self .., Or.inl rfl⟩)
  refine ⟨_, ?_, rfl, finalStatus_never_changes false _ _ _ (untouched_holding _ _) hrun 1 _ rfl ?_⟩
  · rfl
  · decide

end AgentTrading.Orders
