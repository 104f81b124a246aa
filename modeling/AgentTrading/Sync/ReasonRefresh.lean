import AgentTrading.Orders.OneWrite
import AgentTrading.Sync.ReportedStatus

/-! The writes of a call that name no version. They write the reason of the order that the call has
read, in the status it has read, and none comes after a transition of the call that goes through. -/
namespace AgentTrading.Sync.ReasonRefresh
open Domain Repositories Library

/-- A write of a status that goes through. -/
def Stores (op : Op) (reply : Reply op) : Prop :=
  match op, reply with
  | .orders op, reply => Orders.Op.Stores op reply
  | _, _ => False

/-- A write of a status that names no version is of an order and a status as `P` says. -/
def Refreshes (P : UUID → OrderStatus → Prop) : Op → Prop
  | .orders (.ordersUpdateStatus id status _ _ none _) => P id status
  | _ => True

/-- No write without a version. -/
abbrev Versioned : Op → Prop := Refreshes fun _ _ => False

/-- Writes without a version only of this order in this status, until a write goes through. -/
abbrev Refreshing (id : UUID) (status : OrderStatus) (p : Code α) : Prop :=
  p.Phased (Refreshes fun written target => written = id ∧ target = status) Stores
    (fun _ _ q => q.Only Versioned fun _ => True) fun _ => True

section

variable {P : UUID → OrderStatus → Prop}

theorem Versioned.refreshes {op : Op} (h : Versioned op) : Refreshes P op := by
  unfold Versioned at h
  unfold Refreshes at h ⊢
  split
  · exact h.elim
  · trivial

theorem versioned_of_orders {op : Orders.Op} (h : op.Versioned) : Versioned (.orders op) := by
  cases op with
  | ordersUpdateStatus id status rc rm expected submittedAt =>
    cases expected with
    | none => exact (h rfl).elim
    | some v => trivial
  | _ => trivial

theorem unwriting_versioned {op : Op} (h : ReportedStatus.Unwriting op) : Versioned op := by
  cases op with
  | orders op => cases op <;> first | exact h.elim | trivial
  | _ => trivial

theorem unwriting_not_stores {op : Op} (reply : Reply op) (h : ReportedStatus.Unwriting op) :
    ¬Stores op reply := by
  cases op with
  | orders op => cases op <;> first | exact h.elim | exact id
  | _ => exact id

theorem versioned_of_unwriting {Q : Except PyError α → Prop} {p : Code α}
    (hp : p.Only ReportedStatus.Unwriting Q) : p.Only Versioned Q :=
  hp.mono (fun _ => unwriting_versioned) fun _ => id

theorem unwriting_phased {Q : Except PyError α → Prop} {p : Code α} {f : α → Code β}
    {later : (op : Op) → Reply op → Code β → Prop} {still : Except PyError β → Prop}
    (hp : p.Only ReportedStatus.Unwriting Q)
    (hf : ∀ a, Q (.ok a) → (f a).Phased (Refreshes P) Stores later still)
    (he : ∀ e, still (.error e)) : (p.bind f).Phased (Refreshes P) Stores later still := by
  apply hp.phased_bind
  · exact fun _ h => (unwriting_versioned h).refreshes
  · exact fun _ reply h => unwriting_not_stores reply h
  · exact hf
  · exact fun e _ => he e

theorem versioned_refreshing {Q : Except PyError α → Prop} {id : UUID} {status : OrderStatus}
    {p : Code α} (hp : p.Only Versioned Q) : Refreshing id status p := by
  apply (hp.phased fun _ h => h.refreshes).mono
  · exact fun _ h => h
  · exact fun _ _ _ h => h.mono (fun _ h => h) fun _ _ => trivial
  · exact fun _ _ => trivial

end

section

variable (svc : OrderSyncService) {P : UUID → OrderStatus → Prop}

/-- A transition that is tried: one write goes through and the order is in the target, or there is
no order. -/
theorem transition_attempt (order : OrderRequestEntity) (target : OrderStatus)
    (reasonCode reasonMessage : Option String) :
    (svc.transition order target reasonCode reasonMessage).attempt.Phased (Refreshes P) Stores
      (fun _ _ q => q.Only Versioned fun r =>
        ∃ moved, r = .ok (some moved) ∧ moved.status = target) (· = .ok none) := by
  have hlone : Orders.OneWrite target (Orders.transitionTo svc.reconciliation order target
      { reasonCode := reasonCode, reasonMessage := reasonMessage }) :=
    Orders.transitionTo_oneWrite svc.reconciliation order (Nat.succ_ne_zero 2)
  have hlifted : (svc.transition order target reasonCode reasonMessage).Phased (Refreshes P) Stores
      (fun _ _ q => q.Only Versioned (Orders.Arrives target)) fun r => ∃ e, r = .error e := by
    apply hlone.lift
    · exact fun op h => (versioned_of_orders h).refreshes
    · exact fun op reply => Iff.rfl
    · exact fun op reply q h => h.lift fun op h => versioned_of_orders h.versioned
  apply hlifted.attempt
  · intro op reply q hq
    apply hq.tried
    · rintro moved ⟨_, hr, hstatus⟩
      obtain rfl := Except.ok.inj hr
      exact ⟨moved, rfl, hstatus⟩
    · rintro e ⟨moved, hr, -⟩
      cases hr
  · rintro moved ⟨e, he⟩
    cases he
  · exact fun _ _ => rfl

/-- The order is returned where a condition on its status holds. -/
def Ends (C : OrderStatus → Prop) (r : Except PyError OrderRequestEntity) : Prop :=
  ∃ moved, r = .ok moved ∧ C moved.status

theorem Ends.mono {C D : OrderStatus → Prop} {r : Except PyError OrderRequestEntity}
    (h : Ends C r) (hCD : ∀ status, C status → D status) : Ends D r := by
  obtain ⟨moved, hr, hmoved⟩ := h
  exact ⟨moved, hr, hCD moved.status hmoved⟩

theorem transition_attempt_versioned (order : OrderRequestEntity) (target : OrderStatus)
    (reasonCode reasonMessage : Option String) :
    (svc.transition order target reasonCode reasonMessage).attempt.Only Versioned fun r =>
      ∃ next, r = .ok next ∧ ∀ moved, next = some moved → moved.status = target := by
  apply Program.Phased.only
  · apply (transition_attempt (P := fun _ _ => False) svc order target reasonCode
      reasonMessage).mono
    · exact fun _ h => h
    · intro op reply q hq
      apply hq.mono (fun _ h => h)
      rintro _ ⟨moved, rfl, hmoved⟩
      refine ⟨some moved, rfl, ?_⟩
      rintro _ ⟨⟩
      exact hmoved
    · exact fun _ h => h
  · rintro _ rfl
    exact ⟨none, rfl, fun _ h => nomatch h⟩

theorem followChain_versioned (target : OrderStatus) (reasonCode reasonMessage : Option String)
    (steps : List OrderStatus) (order : OrderRequestEntity) :
    (svc.followChain target reasonCode reasonMessage steps order).Only Versioned
      (Ends (· ∈ order.status :: steps)) := by
  induction steps generalizing order with
  | nil => exact ⟨order, rfl, List.mem_cons_self⟩
  | cons step steps ih =>
    rw [OrderSyncService.followChain]
    split
    · apply (ih order).mono (fun _ h => h)
      intro r hr
      apply hr.mono
      intro status hstatus
      rcases List.mem_cons.mp hstatus with rfl | hlater
      · exact List.mem_cons_self
      · exact List.mem_cons_of_mem _ (List.mem_cons_of_mem _ hlater)
    · apply (transition_attempt_versioned svc order step _ _).bind
      · rintro next ⟨_, hr, hnext⟩
        obtain rfl := Except.ok.inj hr
        cases next with
        | none => exact ⟨order, rfl, List.mem_cons_self⟩
        | some next =>
          apply (ih next).mono (fun _ h => h)
          intro r hr
          apply hr.mono
          rw [hnext next rfl]
          exact fun status hstatus => List.mem_cons_of_mem _ hstatus
      · rintro e ⟨next, hr, -⟩
        cases hr

/-- A chain that no write goes through for returns the order as it was; otherwise the order ends in
one of its steps. -/
theorem followChain_phased (target : OrderStatus) (reasonCode reasonMessage : Option String)
    (steps : List OrderStatus) (order : OrderRequestEntity) :
    (svc.followChain target reasonCode reasonMessage steps order).Phased (Refreshes P) Stores
      (fun _ _ q => q.Only Versioned (Ends (· ∈ steps))) (· = .ok order) := by
  induction steps with
  | nil => rfl
  | cons step steps ih =>
    rw [OrderSyncService.followChain]
    split
    · apply ih.mono
      · exact fun _ h => h
      · intro op reply q hq
        apply hq.mono (fun _ h => h)
        intro r hr
        exact hr.mono fun status hstatus => List.mem_cons_of_mem step hstatus
      · exact fun _ h => h
    · apply (transition_attempt svc order step _ _).bind
      · intro op reply q hq
        apply hq.bind
        · rintro next ⟨moved, hr, hmoved⟩
          obtain rfl := Except.ok.inj hr
          have hrest := followChain_versioned svc target reasonCode reasonMessage steps moved
          rw [hmoved] at hrest
          exact hrest
        · rintro e ⟨moved, hr, -⟩
          cases hr
      · intro next hr
        obtain rfl := Except.ok.inj hr
        rfl
      · intro e hr
        cases hr

/-- The order is returned as it was, or a write has gone through and it has left its status. -/
theorem tryTransition_phased (order : OrderRequestEntity) (target : OrderStatus)
    (reasonCode reasonMessage : Option String) :
    (svc.tryTransition order target reasonCode reasonMessage).Phased (Refreshes P) Stores
      (fun _ _ q => q.Only Versioned (Ends (· ≠ order.status))) (· = .ok order) := by
  unfold OrderSyncService.tryTransition
  split
  · rfl
  · next hne =>
    obtain ⟨first, rest, hchain, hleft⟩ := ReportedStatus.chain_cases hne
    apply (transition_attempt svc order target _ _).bind
    · intro op reply q hq
      apply hq.bind
      · rintro next ⟨moved, hr, rfl⟩
        obtain rfl := Except.ok.inj hr
        exact ⟨moved, rfl, Ne.symm hne⟩
      · rintro e ⟨moved, hr, -⟩
        cases hr
    · intro next hr
      obtain rfl := Except.ok.inj hr
      apply (followChain_phased svc target _ _ _ order).mono
      · exact fun _ h => h
      · intro op reply q hq
        apply hq.mono (fun _ h => h)
        intro r hr
        apply hr.mono
        rintro status hstatus rfl
        rw [hchain] at hstatus
        exact hleft hstatus
      · exact fun _ h => h
    · intro e hr
      cases hr

theorem tryTransition_versioned (order : OrderRequestEntity) (target : OrderStatus)
    (reasonCode reasonMessage : Option String) :
    (svc.tryTransition order target reasonCode reasonMessage).Only Versioned
      (Ends fun _ => True) := by
  apply Program.Phased.only
  · apply (tryTransition_phased (P := fun _ _ => False) svc order target _ _).mono
    · exact fun _ h => h
    · intro op reply q hq
      exact hq.mono (fun _ h => h) fun r hr => hr.mono fun _ _ => trivial
    · exact fun _ h => h
  · rintro _ rfl
    exact ⟨order, rfl, trivial⟩

end

theorem refreshReason_refreshing (order : OrderRequestEntity) (code message : String) :
    Refreshing order.orderRequestId order.status
      (OrderSyncService.refreshReason order code message) := by
  refine ⟨⟨rfl, rfl⟩, fun outcome => ⟨fun hstored => ?_, fun _ => ?_⟩⟩
  · obtain rfl : outcome = .ok () := hstored
    trivial
  · cases outcome <;> trivial

section

variable (svc : OrderSyncService) {order : OrderRequestEntity} (brokerOrder : BrokerOrderEntity)

theorem refreshing_bind {id : UUID} {status : OrderStatus} {p : Code α} {f : α → Code β}
    (hp : Refreshing id status p)
    (hf : ∀ a, (f a).Only ReportedStatus.Unwriting fun _ => True) :
    Refreshing id status (p.bind f) := by
  apply hp.bind
  · intro op reply q hq
    apply hq.bind
    · exact fun a _ => versioned_of_unwriting (hf a)
    · exact fun _ _ => trivial
  · exact fun a _ => versioned_refreshing (versioned_of_unwriting (hf a))
  · exact fun _ _ => trivial

theorem applyProbe_refreshing (status : OrderStatus) (code message : String) :
    Refreshing order.orderRequestId order.status (svc.applyProbe order status code message) := by
  unfold OrderSyncService.applyProbe
  split
  · exact versioned_refreshing (tryTransition_versioned svc order status _ _)
  · split
    · exact refreshReason_refreshing order code message
    · trivial

theorem syncProbed_refreshing (refresh : Bool) (start : Time) (status : OrderStatus)
    (reason : Option TruthProbeReason) :
    Refreshing order.orderRequestId order.status
      (svc.syncProbed order brokerOrder refresh start status reason) := by
  apply unwriting_phased (OrderSyncService.buildTruthProbeReasonMessage_reason ..)
  · rintro ⟨code, message⟩ _
    apply refreshing_bind (applyProbe_refreshing svc status code message)
    intro moved
    apply (OrderSyncService.updateBrokerStatus_reason ..).bind
    · intro _ _
      apply (updateBrokerOrderRow_reason ..).bind
      · intro _ _
        apply (refreshSnapshots_reason ..).bind
        · intro _ _
          apply (ReportedStatus.parallelSyncFills_reason ..).bind
          · exact fun _ _ => trivial
          · exact fun _ _ => trivial
        · exact fun _ _ => trivial
      · exact fun _ _ => trivial
    · exact fun _ _ => trivial
  · exact fun _ => trivial

/-- The order has been expired where the call goes on. -/
def Expires (r : Except PyError (Option OrderRequestEntity)) : Prop :=
  ∀ expired, r = .ok expired → expired.isSome = true

/-- No write goes through and the order stays, or it is expired. -/
abbrev MayExpire (p : Code (Option OrderRequestEntity)) : Prop :=
  p.Phased Versioned Stores (fun _ _ q => q.Only Versioned Expires) (· = .ok none)

theorem expireRow_mayExpire (brokerOrderId : UUID) (start : Time)
    (reasonCode reasonMessage : Option String) :
    MayExpire (svc.expireRow order brokerOrderId start reasonCode reasonMessage) := by
  apply (tryTransition_phased (P := fun _ _ => False) svc order .expired _ _).bind
  · intro op reply q hq
    apply hq.bind
    · rintro moved ⟨_, hr, hne⟩
      obtain rfl := Except.ok.inj hr
      rw [if_pos hne]
      apply (versioned_of_unwriting (updateBrokerOrderRow_reason ..)).bind
      · intro _ _
        apply (versioned_of_unwriting (updateBrokerOrderRow_reason ..)).bind
        · rintro _ _ _ ⟨⟩
          rfl
        · rintro _ _ _ ⟨⟩
      · rintro _ _ _ ⟨⟩
    · rintro e ⟨moved, hr, -⟩
      cases hr
  · intro moved hr
    obtain rfl := Except.ok.inj hr
    rw [if_neg fun h => h rfl]
    rfl
  · intro e hr
    cases hr

theorem expireStuck_mayExpire (previous brokerStatus : OrderStatus) (afterHours : Bool)
    (start : Time) (synced : Nat) :
    MayExpire
      (svc.expireStuck order brokerOrder previous brokerStatus afterHours start synced) := by
  unfold OrderSyncService.expireStuck
  split
  · refine ⟨trivial, fun now => ⟨fun h => h.elim, fun _ => ?_⟩⟩
    simp only [Program.ret_bind]
    split
    · exact expireRow_mayExpire svc _ _ _ _
    · rfl
  · rfl

theorem expireResidual_mayExpire (brokerStatus : OrderStatus) (afterHours : Bool) (start : Time) :
    MayExpire (svc.expireResidual order brokerOrder brokerStatus afterHours start) := by
  unfold OrderSyncService.expireResidual
  split
  · refine ⟨trivial, fun now => ⟨fun h => h.elim, fun _ => ?_⟩⟩
    simp only [Program.ret_bind]
    split
    · exact expireRow_mayExpire svc _ _ _ _
    · rfl
  · rfl

theorem MayExpire.versioned {p : Code (Option OrderRequestEntity)} (hp : MayExpire p) :
    p.Only Versioned fun _ => True := by
  apply Program.Phased.only
  · apply hp.mono
    · exact fun _ h => h
    · exact fun _ _ _ hq => hq.mono (fun _ h => h) fun _ _ => trivial
    · exact fun _ h => h
  · exact fun _ _ => trivial

theorem buildPending_unwriting :
    (buildPendingTruthProbeReasonMessage order brokerOrder).Only ReportedStatus.Unwriting
      fun _ => True := by
  apply (listLinkedFillSnapshots_reason order).bind
  · exact fun _ _ => trivial
  · exact fun _ _ => trivial

theorem finishReported_versioned {moved : OrderRequestEntity} (refresh : Bool) (start : Time)
    (probe : Option TruthProbeReason) (synced skipped : Nat)
    (hmoved : moved.status ≠ order.status) :
    (OrderSyncService.finishReported order moved brokerOrder refresh start probe synced
      skipped).Only Versioned fun _ => True := by
  apply (versioned_of_unwriting (updateBrokerOrderRow_reason ..)).bind
  · intro _ _
    have hnoted : OrderSyncService.notePending moved brokerOrder probe
        (decide (moved.status ≠ order.status)) = Program.ret moved := by
      unfold OrderSyncService.notePending
      simp only [hmoved, ne_eq, not_false_eq_true, decide_true, Bool.true_eq_false, and_false,
        if_false]
      rfl
    rw [hnoted]
    apply (versioned_of_unwriting (refreshSnapshots_reason ..)).bind
    · exact fun _ _ => trivial
    · exact fun _ _ => trivial
  · exact fun _ _ => trivial

theorem finishReported_refreshing (refresh : Bool) (start : Time)
    (probe : Option TruthProbeReason) (synced skipped : Nat) :
    Refreshing order.orderRequestId order.status
      (OrderSyncService.finishReported order order brokerOrder refresh start probe synced
        skipped) := by
  apply unwriting_phased (updateBrokerOrderRow_reason ..)
  · intro _ _
    have hnote (changed : Bool) : Refreshing order.orderRequestId order.status
        (OrderSyncService.notePending order brokerOrder probe changed) := by
      unfold OrderSyncService.notePending
      split
      · apply unwriting_phased (buildPending_unwriting brokerOrder)
        · rintro ⟨code, message⟩ _
          exact refreshReason_refreshing order code message
        · exact fun _ => trivial
      · trivial
    apply refreshing_bind (hnote _)
    intro noted
    apply (refreshSnapshots_reason ..).bind
    · exact fun _ _ => trivial
    · exact fun _ _ => trivial
  · exact fun _ => trivial

/-- An expiry that goes through ends the call; otherwise the call goes on with the order as it
was. -/
theorem mayExpire_bind {id : UUID} {status : OrderStatus} {p : Code (Option OrderRequestEntity)}
    {f : Option OrderRequestEntity → Code β} (hp : MayExpire p)
    (hexpired : ∀ expired, (f (some expired)).Only Versioned fun _ => True)
    (hnone : Refreshing id status (f none)) : Refreshing id status (p.bind f) := by
  apply Program.Phased.bind
  · apply hp.mono
    · exact fun _ h => h.refreshes
    · exact fun _ _ _ hq => hq
    · exact fun _ h => h
  · intro op reply q hq
    apply hq.bind
    · intro expired hexpires
      cases expired with
      | some expired => exact hexpired expired
      | none => exact nomatch hexpires none rfl
    · exact fun _ _ => trivial
  · intro expired hr
    obtain rfl := Except.ok.inj hr
    exact hnone
  · exact fun _ _ => trivial

theorem syncReported_refreshing (refresh afterHours : Bool) (start : Time)
    (probe : Option TruthProbeReason) (brokerStatus : OrderStatus) :
    Refreshing order.orderRequestId order.status
      (svc.syncReported order brokerOrder refresh afterHours start probe brokerStatus) := by
  have hmove : (svc.moveTo order brokerStatus).Phased
      (Refreshes fun written target => written = order.orderRequestId ∧
        target = order.status) Stores
      (fun _ _ q => q.Only Versioned (Ends (· ≠ order.status))) (· = .ok order) := by
    unfold OrderSyncService.moveTo
    split
    · exact tryTransition_phased svc order brokerStatus none none
    · rfl
  apply unwriting_phased (OrderSyncService.updateBrokerStatus_reason ..)
  · intro _ _
    apply hmove.bind
    · intro op reply q hq
      apply hq.bind
      · rintro moved ⟨_, hr, hne⟩
        obtain rfl := Except.ok.inj hr
        apply (versioned_of_unwriting (OrderSyncService.syncOpenFills_reason ..)).bind
        · rintro ⟨synced, skipped⟩ _
          apply (expireStuck_mayExpire svc brokerOrder _ _ _ _ _).versioned.bind
          · intro stuck _
            cases stuck with
            | some expired => trivial
            | none =>
              apply (expireResidual_mayExpire svc brokerOrder _ _ _).versioned.bind
              · intro residual _
                cases residual with
                | some expired => trivial
                | none => exact finishReported_versioned brokerOrder refresh start probe _ _ hne
              · exact fun _ _ => trivial
          · exact fun _ _ => trivial
        · exact fun _ _ => trivial
      · exact fun _ _ => trivial
    · intro moved hr
      obtain rfl := Except.ok.inj hr
      apply unwriting_phased (OrderSyncService.syncOpenFills_reason ..)
      · rintro ⟨synced, skipped⟩ _
        apply mayExpire_bind (expireStuck_mayExpire svc brokerOrder _ _ _ _ _)
        · exact fun _ => trivial
        · apply mayExpire_bind (expireResidual_mayExpire svc brokerOrder _ _ _)
          · exact fun _ => trivial
          · exact finishReported_refreshing brokerOrder refresh start probe _ _
      · exact fun _ => trivial
    · exact fun _ _ => trivial
  · exact fun _ => trivial

theorem syncByStatus_refreshing (refresh afterHours : Bool) (start : Time)
    (probe : Option TruthProbeReason) :
    Refreshing order.orderRequestId order.status
      (svc.syncByStatus order brokerOrder refresh afterHours start probe) := by
  refine ⟨trivial, fun reply => ⟨fun h => h.elim, fun _ => ?_⟩⟩
  cases reply with
  | ok result => exact syncReported_refreshing svc brokerOrder refresh afterHours start probe _
  | error e => trivial

theorem syncActive_refreshing (refresh afterHours : Bool) (start : Time) :
    Refreshing order.orderRequestId order.status
      (svc.syncActive order brokerOrder refresh afterHours start) := by
  unfold OrderSyncService.syncActive
  split
  · have hprobe : ((tryTruthProbe order brokerOrder).handle
        fun _ => return (none, some .apiFailure)).Only ReportedStatus.Unwriting fun _ => True := by
      apply (tryTruthProbe_reason order brokerOrder).handle
      · exact fun _ _ => trivial
      · exact fun _ _ => trivial
    apply unwriting_phased hprobe
    · rintro ⟨status, reason⟩ _
      cases status with
      | some status => exact syncProbed_refreshing svc brokerOrder refresh start status reason
      | none => exact syncByStatus_refreshing svc brokerOrder refresh afterHours start reason
    · exact fun _ => trivial
  · exact syncByStatus_refreshing svc brokerOrder refresh afterHours start none

theorem syncOrder_refreshing (refresh afterHours : Bool) (start : Time) :
    Refreshing order.orderRequestId order.status
      (svc.syncOrder order brokerOrder refresh afterHours start) := by
  unfold OrderSyncService.syncOrder
  split
  · apply versioned_refreshing (svc.syncTerminal_only _ _ order brokerOrder refresh start)
    · exact fun _ h => unwriting_versioned h
    · intro order target
      exact (tryTransition_versioned svc order target none none).mono (fun _ h => h)
        fun _ _ => trivial
  · split
    · exact syncActive_refreshing svc brokerOrder refresh afterHours start
    · trivial

end

end AgentTrading.Sync.ReasonRefresh
