import AgentTrading.Library.Phases
import AgentTrading.Orders.TargetWrites
import AgentTrading.Orders.VersionedWrites

/-! A transition tries to write until a write goes through. From then on it only records, and
returns the order in the target. -/
namespace AgentTrading.Orders
open Domain Repositories Library

/-- A write of a status that goes through. -/
def Op.Stores (op : Op) (reply : Reply op) : Prop :=
  match op, reply with
  | .ordersUpdateStatus .., reply => reply = .ok ()
  | _, _ => False

/-- A write of a status names the version it replaces. -/
def Op.Versioned : Op → Prop
  | .ordersUpdateStatus _ _ _ _ expected _ => expected ≠ none
  | _ => True

theorem Op.KeepsStatus.versioned {op : Op} (h : op.KeepsStatus) : op.Versioned := by
  cases op <;> first | exact h.elim | trivial

theorem Op.KeepsStatus.not_stores {op : Op} (h : op.KeepsStatus) (reply : Reply op) :
    ¬op.Stores reply := by
  cases op <;> first | exact h.elim | exact id

/-- The order is returned in the target. -/
def Arrives (target : OrderStatus) (r : Except PyError OrderRequestEntity) : Prop :=
  ∃ moved, r = .ok moved ∧ moved.status = target

/-- One write goes through, and then the order is returned in the target; otherwise an exception. -/
abbrev OneWrite (target : OrderStatus) (p : Code OrderRequestEntity) : Prop :=
  p.Phased Op.Versioned Op.Stores (fun _ _ q => q.Only Op.KeepsStatus (Arrives target))
    fun r => ∃ e, r = .error e

variable {target : OrderStatus}

theorem keepsStatus_oneWrite {Q : Except PyError α → Prop} {p : Code α}
    {f : α → Code OrderRequestEntity} (hp : p.Only Op.KeepsStatus Q)
    (hf : ∀ a, Q (.ok a) → OneWrite target (f a)) : OneWrite target (p.bind f) := by
  apply hp.phased_bind
  · exact fun op h => h.versioned
  · exact fun op reply h => h.not_stores reply
  · exact hf
  · exact fun e _ => ⟨e, rfl⟩

theorem refetch_keepsStatus (order : OrderRequestEntity) (target : OrderStatus)
    (args : TransitionArgs) (submittedAt : Option Time) (id : UUID) (lastAttempt : Bool) :
    (refetch order target args submittedAt id lastAttempt).Only Op.KeepsStatus
      fun r => ∀ row, r = .ok row → row.status = target := by
  apply (refetch_toward (P := fun _ => False) order target args submittedAt id lastAttempt).mono
  · rintro op (h | ⟨id, rfl⟩ | ⟨_, _, _, _, _, _, h, -⟩)
    · exact h.bookkeeping.keepsStatus
    · trivial
    · exact h.elim
  · exact fun _ h => h

theorem retryUpdate_oneWrite (order : OrderRequestEntity) (args : TransitionArgs)
    (submittedAt : Option Time) (n : Nat) (after : OrderRequestEntity)
    (lastExc : Option PyError) (hleft : n = 0 → lastExc ≠ none) (hafter : after.status = target) :
    OneWrite target (retryUpdate order target args submittedAt n after lastExc) := by
  induction n generalizing after lastExc with
  | zero =>
    cases lastExc with
    | none => exact (hleft rfl rfl).elim
    | some e => exact ⟨e, rfl⟩
  | succ n ih =>
    refine ⟨Option.some_ne_none _, fun outcome => ⟨fun hstored => ?_, fun hrefused => ?_⟩⟩
    · obtain rfl : outcome = .ok () := hstored
      exact ⟨after, rfl, hafter⟩
    · rcases outcome with e | ⟨⟩
      · cases e with
        | versionConflict id expected actual =>
          apply keepsStatus_oneWrite (refetch_keepsStatus ..)
          intro rebuilt hrebuilt
          apply ih rebuilt
          · exact fun _ => Option.some_ne_none _
          · exact hrebuilt rebuilt rfl
        | _ => exact ⟨_, rfl⟩
      · exact (hrefused rfl).elim

theorem transitionToCore_oneWrite (service : Bool) (order : OrderRequestEntity)
    {args : TransitionArgs} (hretries : args.maxRetries ≠ 0) :
    OneWrite target (transitionToCore service order target args) := by
  apply keepsStatus_oneWrite (only_keepsStatus (only_bookkeeping (stamp_only _)))
  intro submittedAt _
  apply keepsStatus_oneWrite (only_keepsStatus (only_bookkeeping (replaceStatus_only ..)))
  rintro after ⟨_, _, hafter⟩
  have hstatus : after.status = target := by rw [Except.ok.inj hafter]
  have hwrites := retryUpdate_oneWrite order args submittedAt args.maxRetries after none
    (fun h => (hretries h).elim) hstatus
  apply Program.Phased.bind hwrites
  · intro op reply q hq
    apply hq.bind
    · rintro written ⟨moved, hmoved, harrived⟩
      obtain rfl := Except.ok.inj hmoved
      apply (only_keepsStatus (recordTransition_only service order written target args)).bind
      · exact fun _ _ => ⟨written, rfl, harrived⟩
      · intro e he
        cases he
    · rintro e ⟨moved, hmoved, -⟩
      cases hmoved
  · rintro written ⟨e, he⟩
    cases he
  · exact fun e _ => ⟨e, rfl⟩

theorem transitionTo_oneWrite (service : Bool) (order : OrderRequestEntity)
    {args : TransitionArgs} (hretries : args.maxRetries ≠ 0) :
    OneWrite target (transitionTo service order target args) := by
  unfold transitionTo
  cases validateTransition order.orderRequestId order.status target with
  | error e => exact ⟨e, rfl⟩
  | ok u => exact transitionToCore_oneWrite service order hretries

end AgentTrading.Orders
