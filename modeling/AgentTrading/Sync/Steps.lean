import AgentTrading.Sync.PostSubmit

/-! Which status writes a call makes. A reason is only ever written by the transition or the
refresh that was given it. -/
namespace AgentTrading.Sync
open Domain Repositories Library

/-- A status write carries a reason that satisfies `R`. -/
def ordersReason (R : Option String → Prop) : Orders.Op → Prop
  | .ordersUpdateStatus _ _ code _ _ _ => R code
  | _ => True

def Op.Reason (R : Option String → Prop) : Op → Prop
  | .orders op => ordersReason R op
  | _ => True

variable {R : Option String → Prop}

theorem ordersReason_of_bookkeeping {op : Orders.Op} (h : op.Bookkeeping) : ordersReason R op := by
  cases op <;> trivial

theorem only_ordersReason {Q : Except PyError α → Prop} {p : Orders.Code α}
    (hp : p.Only Orders.Op.Bookkeeping Q) : p.Only (ordersReason R) Q :=
  hp.mono (fun _ => ordersReason_of_bookkeeping) fun _ => id

theorem refetch_reason (order : OrderRequestEntity) (target : OrderStatus)
    (args : Orders.TransitionArgs) (submittedAt : Option Time) (id : UUID) (lastAttempt : Bool) :
    (Orders.refetch order target args submittedAt id lastAttempt).Only (ordersReason R)
      fun _ => True := by
  refine ⟨trivial, fun latest => ?_⟩
  cases latest with
  | none => trivial
  | some latest =>
    by_cases h : latest.status ∈ Orders.terminalStates
    · simp only [Program.ret_bind, h, if_true]
      trivial
    · simp only [Program.ret_bind, h, if_false]
      refine (only_ordersReason (Orders.only_bookkeeping (Orders.replaceStatus_only ..))).bind
        (fun _ _ => ?_) fun _ _ => trivial
      exact (only_ordersReason (Orders.only_bookkeeping (Orders.pause_only _))).bind
        (fun _ _ => trivial) fun _ _ => trivial

theorem retryUpdate_reason (order : OrderRequestEntity) (target : OrderStatus)
    (args : Orders.TransitionArgs) (hR : R args.reasonCode) (submittedAt : Option Time) (n : Nat)
    (after : OrderRequestEntity) (lastExc : Option PyError) :
    (Orders.retryUpdate order target args submittedAt n after lastExc).Only (ordersReason R)
      fun _ => True := by
  induction n generalizing after lastExc with
  | zero => cases lastExc <;> trivial
  | succ n ih =>
    refine ⟨hR, fun outcome => ?_⟩
    rcases outcome with e | ⟨⟩
    · cases e with
      | versionConflict id expected actual =>
        exact (refetch_reason ..).bind (fun rebuilt _ => ih rebuilt _) fun _ _ => trivial
      | _ => trivial
    · trivial

theorem transitionTo_reason (service : Bool) (order : OrderRequestEntity) (target : OrderStatus)
    (args : Orders.TransitionArgs) (hR : R args.reasonCode) :
    (Orders.transitionTo service order target args).Only (ordersReason R) fun _ => True := by
  unfold Orders.transitionTo
  cases Orders.validateTransition order.orderRequestId order.status target with
  | error e => trivial
  | ok u =>
    refine (only_ordersReason (Orders.only_bookkeeping (Orders.stamp_only _))).bind (fun _ _ => ?_)
      fun _ _ => trivial
    refine (only_ordersReason (Orders.only_bookkeeping (Orders.replaceStatus_only ..))).bind
      (fun _ _ => ?_) fun _ _ => trivial
    refine (retryUpdate_reason order target { args with eventSource := .internal } hR _ _ _ _).bind
      (fun _ _ => ?_) fun _ _ => trivial
    exact (only_ordersReason (Orders.recordTransition_only service order _ target _)).bind
      (fun _ _ => trivial) fun _ _ => trivial

theorem orRaise_reason (r : Except PyError α) :
    (orRaise r).Only (Op.Reason R) fun _ => True := by
  cases r <;> trivial

theorem updateBrokerOrderRow_reason (id : UUID) (status : Option String)
    (lastSyncedAt updatedAt : Option Time) :
    (updateBrokerOrderRow id status lastSyncedAt updatedAt).Only (Op.Reason R) fun _ => True :=
  ⟨trivial, fun _ => orRaise_reason _⟩

theorem listLinkedFillSnapshots_reason (order : OrderRequestEntity) :
    (listLinkedFillSnapshots order).Only (Op.Reason R) fun _ => True :=
  ⟨trivial, fun _ => orRaise_reason _⟩

theorem refreshSnapshots_reason (given : Bool) (accountId : UUID) :
    (refreshSnapshots given accountId).Only (Op.Reason R) fun r => ∃ b, r = .ok b := by
  cases given with
  | true => exact ⟨trivial, fun outcome => ⟨outcome.isOk, rfl⟩⟩
  | false => exact ⟨false, rfl⟩

theorem getLatestPositionQty_reason (accountId instrumentId : UUID) :
    (getLatestPositionQty accountId instrumentId).Only (Op.Reason R) fun _ => True := by
  refine ⟨trivial, fun listed => ?_⟩
  cases listed <;> trivial

theorem inferBuyAt_reason (order : OrderRequestEntity) (placedAt : Time) :
    (inferBuyAt order placedAt).Only (Op.Reason R) fun _ => True := by
  refine ⟨trivial, fun before => ?_⟩
  refine (orRaise_reason before).bind (fun pre _ => ?_) fun _ _ => trivial
  refine ⟨trivial, fun after => ?_⟩
  refine (orRaise_reason after).bind (fun post _ => ?_) fun _ _ => trivial
  cases post with
  | none => trivial
  | some post =>
    refine ⟨trivial, fun listed => ?_⟩
    refine (orRaise_reason listed).bind (fun overlapping _ => ?_) fun _ _ => trivial
    dsimp only
    split <;> trivial

theorem inferBuyOrderFillViaPositionSafe_reason (order : OrderRequestEntity) :
    (inferBuyOrderFillViaPositionSafe order).Only (Op.Reason R) fun _ => True := by
  unfold inferBuyOrderFillViaPositionSafe
  split
  · trivial
  · split
    · trivial
    · exact inferBuyAt_reason order _

/-- The status that a decrease of the position shows is one of a fill. -/
def ShowsFill (r : Except PyError (Option OrderStatus)) : Prop :=
  ∀ status, r = .ok (some status) → status = .filled ∨ status = .partiallyFilled

@[simp] theorem showsFill_none : ShowsFill (.ok none) := fun _ h => nomatch h

@[simp] theorem showsFill_error (e : PyError) : ShowsFill (.error e) := fun _ h => nomatch h

theorem statusOfDelta_fill (order : OrderRequestEntity) (delta : ℚ) :
    ShowsFill (.ok (some (statusOfDelta order delta))) := by
  intro status h
  obtain rfl := Option.some.inj (Except.ok.inj h)
  unfold statusOfDelta
  split
  · exact Or.inl rfl
  · exact Or.inr rfl

theorem retrySellDelta_reason (order : OrderRequestEntity) (refresh : Bool) (preQty : ℚ) (n : Nat) :
    (retrySellDelta order refresh preQty n).Only (Op.Reason R) ShowsFill := by
  induction n with
  | zero => exact showsFill_none
  | succ n ih =>
    refine (refreshSnapshots_reason refresh order.accountId).bind (fun _ _ => ?_) (by simp)
    refine (getLatestPositionQty_reason ..).bind (fun current _ => ?_) (by simp)
    dsimp only
    split
    · exact statusOfDelta_fill order _
    · cases n with
      | zero => exact ih
      | succ n => exact ⟨trivial, fun _ => ih⟩

theorem inferSellOrderFillViaPosition_reason (order : OrderRequestEntity)
    (brokerOrder : BrokerOrderEntity) (refresh : Bool) :
    (inferSellOrderFillViaPosition order brokerOrder refresh).Only (Op.Reason R) ShowsFill := by
  unfold inferSellOrderFillViaPosition
  split
  · exact showsFill_none
  · refine ⟨trivial, fun before => ?_⟩
    rcases before with e | pre | pre
    · exact showsFill_none
    · exact showsFill_none
    · refine (getLatestPositionQty_reason ..).bind (fun current _ => ?_) (by simp)
      dsimp only
      split
      · exact statusOfDelta_fill order _
      · exact retrySellDelta_reason ..

theorem probeOpen_reason (order : OrderRequestEntity) (linked : List BrokerFillSnapshotEntity)
    (result : OrderStatusResult) :
    (probeOpen order linked result).Only (Op.Reason R) fun _ => True := by
  unfold probeOpen
  split
  · refine (inferBuyOrderFillViaPositionSafe_reason order).bind (fun inferred _ => ?_)
      fun _ _ => trivial
    cases inferred <;> trivial
  · split <;> trivial

theorem probeBroker_reason (order : OrderRequestEntity) (brokerOrder : BrokerOrderEntity)
    (linked : List BrokerFillSnapshotEntity) :
    (probeBroker order brokerOrder linked).Only (Op.Reason R) fun _ => True := by
  refine ⟨trivial, fun instrument => ?_⟩
  refine Program.Only.handle (Q := fun _ => True) ?_ (fun _ _ => trivial) fun _ _ => trivial
  refine ⟨trivial, fun reply => ?_⟩
  refine (orRaise_reason reply).bind (fun result _ => ?_) fun _ _ => trivial
  split
  · trivial
  · exact probeOpen_reason ..

theorem tryTruthProbe_reason (order : OrderRequestEntity) (brokerOrder : BrokerOrderEntity) :
    (tryTruthProbe order brokerOrder).Only (Op.Reason R) fun _ => True := by
  unfold tryTruthProbe
  split
  · refine (listLinkedFillSnapshots_reason order).bind (fun linked _ => ?_) fun _ _ => trivial
    split
    · trivial
    · exact probeBroker_reason ..
  · trivial

/-- No status write carries the reason of linked rows. -/
abbrev Unmarked : Op → Prop := Op.Reason (· ≠ some fillSnapshotReason)

/-- The order is written as filled by its linked rows. -/
def Op.Marks (op : Op) : Prop :=
  ∃ id message expected submittedAt,
    op = .orders (.ordersUpdateStatus id .filled (some fillSnapshotReason) message expected
      submittedAt)

theorem not_marks_of_unmarked {op : Op} (h : Unmarked op) : ¬ op.Marks := by
  rintro ⟨id, message, expected, submittedAt, rfl⟩
  exact h rfl

/-- Reading the fills of an order the broker has a number for. -/
def Op.asks : Op → Bool
  | .syncFills brokerOrder _ => brokerOrder.brokerNativeOrderId.isSome
  | _ => false

/-- A write of the broker order has failed. -/
def RowLost (brokerOrder : BrokerOrderEntity) (steps : Steps) : Prop :=
  ∃ status synced updated e,
    ⟨.brokerOrdersUpdate brokerOrder.brokerOrderId status synced updated, .error e⟩ ∈ steps

/-- Where the order was marked, the fills were read. -/
def AsksIfMarked (brokerOrder : BrokerOrderEntity) (steps : Steps) : Prop :=
  (∃ step ∈ steps, step.1.Marks) →
    (∃ step ∈ steps, step.1.asks = true) ∨ RowLost brokerOrder steps

theorem Unmarked.always {p : Code α} (hp : p.Only Unmarked fun _ => True)
    (brokerOrder : BrokerOrderEntity) {past : Steps} (hpast : ∀ step ∈ past, ¬ step.1.Marks) :
    p.Always (fun _ steps => AsksIfMarked brokerOrder steps) past := by
  have hclean : p.Only (fun op => ¬ op.Marks) fun _ => True :=
    hp.mono (fun _ => not_marks_of_unmarked) fun _ => id
  refine (hclean.steps hpast).mono fun _ steps h => ?_
  rintro ⟨step, hstep, hmark⟩
  exact (h.2 step hstep hmark).elim

theorem updateRow_error (id : UUID) (status : Option String) (synced updated : Option Time)
    (past : Steps) :
    (updateBrokerOrderRow id status synced updated).Always (fun r steps => ∀ e, r = .error e →
      ∃ status synced updated, ⟨.brokerOrdersUpdate id status synced updated, .error e⟩ ∈ steps)
      past := by
  intro outcome
  cases outcome with
  | ok u => exact fun e h => nomatch h
  | error e =>
    intro e' h
    rw [← Except.error.inj h]
    exact ⟨status, synced, updated, by simp⟩

namespace OrderSyncService

variable (svc : OrderSyncService)

theorem transition_reason (order : OrderRequestEntity) (target : OrderStatus)
    {code : Option String} (message : Option String) (hR : R code) :
    (svc.transition order target code message).Only (Op.Reason R) fun _ => True :=
  (transitionTo_reason _ _ _ _ hR).lift fun _ => id

/-- A transition is tried without an exception leaving it. -/
theorem attempt_ok {p : Code α} {Q : Except PyError α → Prop} (hp : p.Only (Op.Reason R) Q) :
    p.attempt.Only (Op.Reason R) fun r => ∃ a, r = .ok a :=
  hp.attempt_ok.mono (fun _ => id) fun _ h => h.imp fun _ => And.left

theorem followChain_reason (target : OrderStatus) {code : Option String} (message : Option String)
    (hR : R code) (hnone : R none) (steps : List OrderStatus) (current : OrderRequestEntity) :
    (svc.followChain target code message steps current).Only (Op.Reason R)
      fun r => ∃ moved, r = .ok moved := by
  induction steps generalizing current with
  | nil => exact ⟨current, rfl⟩
  | cons step steps ih =>
    rw [followChain]
    split
    · exact ih current
    · have hcode : R (if step = target then code else none) := by
        split
        · exact hR
        · exact hnone
      refine (attempt_ok (svc.transition_reason current step _ hcode)).bind (fun next _ => ?_)
        (fun e h => by simp at h)
      cases next with
      | some next => exact ih next
      | none => exact ⟨current, rfl⟩

theorem tryTransition_reason (order : OrderRequestEntity) (target : OrderStatus)
    {code : Option String} (message : Option String) (hR : R code) (hnone : R none) :
    (svc.tryTransition order target code message).Only (Op.Reason R)
      fun r => ∃ moved, r = .ok moved := by
  unfold tryTransition
  split
  · exact ⟨order, rfl⟩
  · refine (attempt_ok (svc.transition_reason order target message hR)).bind (fun direct _ => ?_)
      (fun e h => by simp at h)
    cases direct with
    | some moved => exact ⟨moved, rfl⟩
    | none => exact svc.followChain_reason target message hR hnone _ _

theorem updateBrokerStatus_reason (brokerOrder : BrokerOrderEntity) (status : OrderStatus)
    (now : Time) :
    (updateBrokerStatus brokerOrder status now).Only (Op.Reason R) fun _ => True := by
  unfold updateBrokerStatus
  split
  · exact updateBrokerOrderRow_reason ..
  · trivial

theorem mayRecover_reason (order : OrderRequestEntity) (found : OrderStatus) :
    (mayRecover order found).Only (Op.Reason R) fun _ => True := by
  unfold mayRecover canRecoverExpired
  split
  · split
    · trivial
    · exact ⟨trivial, fun _ => trivial⟩
  · trivial

section

variable {P : Op → Prop} (free : ∀ op, Op.Reason (fun _ => False) op → P op)
variable (moves : ∀ order target, (svc.tryTransition order target none none).Only P fun _ => True)

include free moves

theorem recoverTo_only (order : OrderRequestEntity) (brokerOrder : BrokerOrderEntity)
    (target brokerStatus : OrderStatus) :
    (svc.recoverTo order brokerOrder target brokerStatus).Only P fun _ => True := by
  refine (moves order target).bind (fun moved _ => ?_) fun _ _ => trivial
  refine ⟨free _ trivial, fun now => ?_⟩
  have hupdated := (updateBrokerStatus_reason brokerOrder brokerStatus now).attempt.mono free
    fun _ => id
  exact hupdated.bind (fun _ _ => trivial) fun _ _ => trivial

theorem recoverByBroker_only (order : OrderRequestEntity) (brokerOrder : BrokerOrderEntity) :
    (svc.recoverByBroker order brokerOrder).Only P fun _ => True := by
  refine ⟨free _ trivial, fun reply => ?_⟩
  cases reply with
  | error e => trivial
  | ok result =>
    have hrecover := (mayRecover_reason order result.status).mono free fun _ => id
    refine hrecover.bind (fun recoverable _ => ?_) fun _ _ => trivial
    split
    · exact svc.recoverTo_only free moves _ _ _ _
    · split
      · exact svc.recoverTo_only free moves _ _ _ _
      · trivial

theorem recoverByPosition_only (order : OrderRequestEntity) (brokerOrder : BrokerOrderEntity)
    (refresh : Bool) :
    (svc.recoverByPosition order brokerOrder refresh).Only P fun _ => True := by
  have hinferred := (inferSellOrderFillViaPosition_reason order brokerOrder refresh).attempt.mono
    free fun _ => id
  refine hinferred.bind (fun inferred _ => ?_) fun _ _ => trivial
  cases inferred.join with
  | none => trivial
  | some inferred =>
    have hrecover := (mayRecover_reason order inferred).mono free fun _ => id
    refine hrecover.bind (fun recoverable _ => ?_) fun _ _ => trivial
    split
    · refine (moves order inferred).bind (fun moved _ => ?_) fun _ _ => trivial
      refine ⟨free _ trivial, fun now => ?_⟩
      have hupdated := (updateBrokerOrderRow_reason brokerOrder.brokerOrderId
        (some inferred.value) none (some now)).attempt.mono free fun _ => id
      refine hupdated.bind (fun updated _ => ?_) fun _ _ => trivial
      split
      · have hrefreshed := (refreshSnapshots_reason refresh moved.accountId).mono free fun _ => id
        exact hrefreshed.bind (fun _ _ => trivial) fun _ _ => trivial
      · trivial
    · trivial

theorem syncTerminal_only (order : OrderRequestEntity) (brokerOrder : BrokerOrderEntity)
    (refresh : Bool) (start : Time) :
    (svc.syncTerminal order brokerOrder refresh start).Only P fun _ => True := by
  have hrecent : (recentlyExpired order).Only P fun _ => True := by
    unfold recentlyExpired
    split
    · split
      · trivial
      · exact ⟨free _ trivial, fun _ => trivial⟩
    · trivial
  refine hrecent.bind (fun recent _ => ?_) fun _ _ => trivial
  have hattempt : (syncTerminal.attemptRecovery svc order brokerOrder refresh recent).Only
      P fun _ => True := by
    cases recent with
    | false => trivial
    | true =>
      refine (svc.recoverByBroker_only free moves order brokerOrder).bind (fun outcome _ => ?_)
        fun _ _ => trivial
      obtain ⟨moved, recovered⟩ := outcome
      dsimp only
      split
      · trivial
      · split
        · exact (svc.recoverByPosition_only free moves _ _ _).bind (fun _ _ => trivial)
            fun _ _ => trivial
        · trivial
  refine hattempt.bind (fun recovered _ => ?_) fun _ _ => trivial
  have hsynced := (updateBrokerOrderRow_reason brokerOrder.brokerOrderId none (some start)
    (some start)).mono free fun _ => id
  refine hsynced.bind (fun _ _ => ?_) fun _ _ => trivial
  cases recovered <;> trivial

end

theorem syncTerminal_reason (order : OrderRequestEntity) (brokerOrder : BrokerOrderEntity)
    (refresh : Bool) (start : Time) (hnone : R none) :
    (svc.syncTerminal order brokerOrder refresh start).Only (Op.Reason R) fun _ => True := by
  apply svc.syncTerminal_only
  · intro op h
    cases op with
    | orders op => cases op <;> first | exact h.elim | trivial
    | _ => trivial
  · intro order target
    exact (svc.tryTransition_reason order target none hnone hnone).mono (fun _ => id)
      fun _ _ => trivial

theorem refreshReason_unmarked (order : OrderRequestEntity) {code : String}
    (hcode : code ≠ fillSnapshotReason) (message : String) :
    (refreshReason order code message).Only Unmarked fun _ => True := by
  refine ⟨by simpa [Unmarked, Op.Reason, ordersReason] using hcode, fun outcome => ?_⟩
  exact (orRaise_reason outcome).bind (fun _ _ => trivial) fun _ _ => trivial

theorem syncOpenFills_reason (order : OrderRequestEntity) (brokerOrder : BrokerOrderEntity)
    (brokerStatus : OrderStatus) :
    (syncOpenFills order brokerOrder brokerStatus).Only (Op.Reason R) fun _ => True := by
  unfold syncOpenFills
  split
  · trivial
  · exact ⟨trivial, fun _ => ⟨trivial, fun counts => orRaise_reason counts⟩⟩

theorem expireRow_unmarked (order : OrderRequestEntity) (brokerOrderId : UUID) (start : Time)
    {code : Option String} (message : Option String) (hcode : code ≠ some fillSnapshotReason) :
    (svc.expireRow order brokerOrderId start code message).Only Unmarked fun _ => True := by
  refine (svc.tryTransition_reason (R := (· ≠ some fillSnapshotReason)) order .expired message
    hcode (by simp)).bind (fun moved _ => ?_) fun _ _ => trivial
  split
  · refine (updateBrokerOrderRow_reason ..).bind (fun _ _ => ?_) fun _ _ => trivial
    exact (updateBrokerOrderRow_reason ..).bind (fun _ _ => trivial) fun _ _ => trivial
  · trivial

theorem expireStuck_unmarked (order : OrderRequestEntity) (brokerOrder : BrokerOrderEntity)
    (previous brokerStatus : OrderStatus) (afterHours : Bool) (start : Time) (synced : Nat) :
    (svc.expireStuck order brokerOrder previous brokerStatus afterHours start synced).Only Unmarked
      fun _ => True := by
  unfold expireStuck
  split
  · refine ⟨trivial, fun now => ?_⟩
    simp only [Program.ret_bind]
    split
    · exact svc.expireRow_unmarked order _ start none (by simp)
    · trivial
  · trivial

theorem expireResidual_unmarked (order : OrderRequestEntity) (brokerOrder : BrokerOrderEntity)
    (brokerStatus : OrderStatus) (afterHours : Bool) (start : Time) :
    (svc.expireResidual order brokerOrder brokerStatus afterHours start).Only Unmarked
      fun _ => True := by
  unfold expireResidual
  split
  · refine ⟨trivial, fun now => ?_⟩
    simp only [Program.ret_bind]
    split
    · exact svc.expireRow_unmarked order _ start _ (by decide)
    · trivial
  · trivial

theorem notePending_unmarked (order : OrderRequestEntity) (brokerOrder : BrokerOrderEntity)
    (probe : Option TruthProbeReason) (changed : Bool) :
    (notePending order brokerOrder probe changed).Only Unmarked fun _ => True := by
  unfold notePending
  split
  · have hpending : (buildPendingTruthProbeReasonMessage order brokerOrder).Only Unmarked fun r =>
        ∀ code message, r = .ok (code, message) → code ≠ fillSnapshotReason := by
      refine (listLinkedFillSnapshots_reason order).bind (fun snapshots _ => ?_) fun e _ => ?_
      · intro code message h
        rw [← (Prod.mk.inj (Except.ok.inj h)).1]
        decide
      · exact fun _ _ h => nomatch h
    refine hpending.bind (fun pending h => ?_) fun _ _ => trivial
    exact refreshReason_unmarked order (h pending.1 pending.2 rfl) pending.2
  · trivial

theorem finishReported_unmarked (order moved : OrderRequestEntity) (brokerOrder : BrokerOrderEntity)
    (refresh : Bool) (start : Time) (probe : Option TruthProbeReason) (synced skipped : Nat) :
    (finishReported order moved brokerOrder refresh start probe synced skipped).Only Unmarked
      fun _ => True := by
  refine (updateBrokerOrderRow_reason ..).bind (fun _ _ => ?_) fun _ _ => trivial
  refine (notePending_unmarked ..).bind (fun noted _ => ?_) fun _ _ => trivial
  exact (refreshSnapshots_reason ..).bind (fun _ _ => trivial) fun _ _ => trivial

theorem syncReported_unmarked (order : OrderRequestEntity) (brokerOrder : BrokerOrderEntity)
    (refresh afterHours : Bool) (start : Time) (probe : Option TruthProbeReason)
    (brokerStatus : OrderStatus) :
    (svc.syncReported order brokerOrder refresh afterHours start probe brokerStatus).Only Unmarked
      fun _ => True := by
  have hmove : (svc.moveTo order brokerStatus).Only Unmarked fun _ => True := by
    unfold moveTo
    split
    · exact (svc.tryTransition_reason order brokerStatus none (by simp) (by simp)).mono
        (fun _ => id) fun _ _ => trivial
    · trivial
  refine (updateBrokerStatus_reason ..).bind (fun _ _ => ?_) fun _ _ => trivial
  refine hmove.bind (fun moved _ => ?_) fun _ _ => trivial
  refine (syncOpenFills_reason ..).bind (fun counts _ => ?_) fun _ _ => trivial
  refine (svc.expireStuck_unmarked ..).bind (fun stuck _ => ?_) fun _ _ => trivial
  cases stuck with
  | some expired => trivial
  | none =>
    refine (svc.expireResidual_unmarked ..).bind (fun residual _ => ?_) fun _ _ => trivial
    cases residual with
    | some expired => trivial
    | none => exact finishReported_unmarked ..

theorem syncByStatus_unmarked (order : OrderRequestEntity) (brokerOrder : BrokerOrderEntity)
    (refresh afterHours : Bool) (start : Time) (probe : Option TruthProbeReason) :
    (svc.syncByStatus order brokerOrder refresh afterHours start probe).Only Unmarked
      fun _ => True := by
  refine ⟨trivial, fun reply => ?_⟩
  cases reply with
  | ok result => exact svc.syncReported_unmarked ..
  | error e => trivial

/-- The reason the probe's finding is written under. -/
def ReasonText (reason : Option TruthProbeReason) (r : Except PyError (String × String)) : Prop :=
  ∀ found, r = .ok found → (found.1 = fillSnapshotReason ↔ reason = some .fillSnapshot)

theorem buildTruthProbeReasonMessage_reason (text : ℚ → String) (order : OrderRequestEntity)
    (brokerOrder : BrokerOrderEntity) (status : OrderStatus) (reason : Option TruthProbeReason) :
    (buildTruthProbeReasonMessage text order brokerOrder status reason).Only (Op.Reason R)
      (ReasonText reason) := by
  have hlinked : (buildTruthProbeReasonMessage text order brokerOrder status
      (some .fillSnapshot)).Only (Op.Reason R) (ReasonText (some .fillSnapshot)) := by
    refine (listLinkedFillSnapshots_reason order).bind (fun linked _ => ?_) fun e _ => ?_
    · split
      · intro found h
        rw [← Except.ok.inj h]
        simp
      · intro found h
        rw [← Except.ok.inj h]
        simp
    · exact fun _ h => nomatch h
  cases reason with
  | none =>
    intro found h
    rw [← Except.ok.inj h]
    simp [fillSnapshotReason]
  | some reason =>
    cases reason
    case fillSnapshot => exact hlinked
    all_goals
      intro found h
      rw [← Except.ok.inj h]
      simp [fillSnapshotReason]

theorem applyProbe_unmarked (order : OrderRequestEntity) (status : OrderStatus) {code : String}
    (hcode : code ≠ fillSnapshotReason) (message : String) :
    (svc.applyProbe order status code message).Only Unmarked fun _ => True := by
  have hsome : some code ≠ some fillSnapshotReason := fun h => hcode (Option.some.inj h)
  unfold applyProbe
  split
  · exact (svc.tryTransition_reason (R := (· ≠ some fillSnapshotReason)) order status _ hsome
      (by simp)).mono (fun _ => id) fun _ _ => trivial
  · split
    · exact refreshReason_unmarked order hcode message
    · trivial

theorem syncProbed_unmarked (order : OrderRequestEntity) (brokerOrder : BrokerOrderEntity)
    (refresh : Bool) (start : Time) (status : OrderStatus) {reason : Option TruthProbeReason}
    (hreason : reason ≠ some .fillSnapshot) :
    (svc.syncProbed order brokerOrder refresh start status reason).Only Unmarked
      fun _ => True := by
  refine (buildTruthProbeReasonMessage_reason ..).bind (fun found h => ?_) fun _ _ => trivial
  obtain ⟨code, message⟩ := found
  have hcode : code ≠ fillSnapshotReason := fun hc => hreason ((h _ rfl).mp hc)
  refine (svc.applyProbe_unmarked order status hcode message).bind (fun moved _ => ?_)
    fun _ _ => trivial
  refine (updateBrokerStatus_reason ..).bind (fun _ _ => ?_) fun _ _ => trivial
  refine (updateBrokerOrderRow_reason ..).bind (fun _ _ => ?_) fun _ _ => trivial
  refine (refreshSnapshots_reason ..).bind (fun _ _ => ?_) fun _ _ => trivial
  simp only [parallelSyncFills, hreason, if_false]
  trivial

theorem applyProbe_fails_unmarked (order : OrderRequestEntity) (hopen : order.status ≠ .filled)
    (status : OrderStatus) (code message : String) {past : Steps}
    (hpast : ∀ step ∈ past, ¬ step.1.Marks) :
    (svc.applyProbe order status code message).Always
      (fun r steps => ∀ e, r = .error e → ∀ step ∈ steps, ¬ step.1.Marks) past := by
  unfold applyProbe
  split
  · refine ((svc.tryTransition_reason (R := fun _ => True) order status _ trivial trivial).always
      ).mono fun r steps h e he => ?_
    obtain ⟨moved, hmoved⟩ := h
    rw [hmoved] at he
    cases he
  · split
    · have hclean : (refreshReason order code message).Only (fun op => ¬ op.Marks)
          fun _ => True := by
        refine ⟨?_, fun outcome => ?_⟩
        · rintro ⟨_, _, _, _, h⟩
          injection h with h
          injection h with _ hstatus
          exact hopen hstatus
        · cases outcome <;> trivial
      exact (hclean.steps hpast).mono fun r steps h _ _ => h.2
    · exact fun e h => nomatch h

theorem parallelSyncFills_asks (order : OrderRequestEntity) {brokerOrder : BrokerOrderEntity}
    (hnative : brokerOrder.brokerNativeOrderId.isSome = true) (past : Steps) :
    (parallelSyncFills order brokerOrder (some .fillSnapshot)).Always
      (fun _ steps => ∃ step ∈ steps, step.1.asks = true) past := by
  simp only [parallelSyncFills, if_true]
  intro _ counts
  have hasks : ∃ step ∈ (past ++ [⟨.orders .sleep, ()⟩]) ++
      [⟨.syncFills brokerOrder order.accountId, counts⟩], step.1.asks = true :=
    ⟨⟨.syncFills brokerOrder order.accountId, counts⟩, by simp, hnative⟩
  cases counts <;> exact hasks

theorem syncProbed_asks (order : OrderRequestEntity) (hopen : order.status ≠ .filled)
    {brokerOrder : BrokerOrderEntity} (hnative : brokerOrder.brokerNativeOrderId.isSome = true)
    (refresh : Bool) (start : Time) (status : OrderStatus) (reason : Option TruthProbeReason)
    {past : Steps} (hpast : ∀ step ∈ past, ¬ step.1.Marks) :
    (svc.syncProbed order brokerOrder refresh start status reason).Always
      (fun _ steps => AsksIfMarked brokerOrder steps) past := by
  by_cases hreason : reason = some .fillSnapshot
  case neg => exact Unmarked.always (svc.syncProbed_unmarked _ _ _ _ _ hreason) _ hpast
  subst hreason
  have hlost : ∀ {e : PyError} {steps : Steps}, (∃ status synced updated,
      (⟨.brokerOrdersUpdate brokerOrder.brokerOrderId status synced updated, .error e⟩ :
        (op : Op) × Reply op) ∈ steps) → AsksIfMarked brokerOrder steps := by
    rintro e steps ⟨status, synced, updated, hmem⟩ -
    exact .inr ⟨status, synced, updated, e, hmem⟩
  have hclean : (buildTruthProbeReasonMessage svc.text order brokerOrder status
      (some .fillSnapshot)).Only (fun op => ¬ op.Marks) fun _ => True :=
    (buildTruthProbeReasonMessage_reason (R := (· ≠ some fillSnapshotReason)) ..).mono
      (fun _ => not_marks_of_unmarked) fun _ _ => trivial
  refine (hclean.steps hpast).bind (fun found steps h => ?_) fun e steps h => ?_
  swap
  · rintro ⟨step, hstep, hmark⟩
    exact (h.2 step hstep hmark).elim
  obtain ⟨code, message⟩ := found
  refine (svc.applyProbe_fails_unmarked order hopen status code message h.2).bind
    (fun moved steps _ => ?_) fun e steps h => ?_
  swap
  · rintro ⟨step, hstep, hmark⟩
    exact (h e rfl step hstep hmark).elim
  have hstatus : (updateBrokerStatus brokerOrder status start).Always (fun r steps => ∀ e,
      r = .error e → ∃ status synced updated,
        ⟨.brokerOrdersUpdate brokerOrder.brokerOrderId status synced updated, .error e⟩ ∈ steps)
      steps := by
    unfold updateBrokerStatus
    split
    · exact updateRow_error _ _ _ _ _
    · exact fun e h => nomatch h
  refine hstatus.bind (fun _ steps _ => ?_) fun e steps h => hlost (h e rfl)
  refine (updateRow_error _ _ _ _ _).bind (fun _ steps _ => ?_) fun e steps h => hlost (h e rfl)
  refine (refreshSnapshots_reason (R := fun _ => True) ..).always.bind (fun _ steps _ => ?_)
    (fun e steps h => by simp at h)
  refine (parallelSyncFills_asks moved hnative steps).bind (fun _ steps h => ?_)
    fun e steps h => ?_
  · exact fun _ => .inl h
  · exact fun _ => .inl h

theorem syncActive_asks (order : OrderRequestEntity) (hopen : order.status ≠ .filled)
    (brokerOrder : BrokerOrderEntity) (refresh afterHours : Bool) (start : Time) :
    (svc.syncActive order brokerOrder refresh afterHours start).Always
      (fun _ steps => AsksIfMarked brokerOrder steps) [] := by
  unfold syncActive
  split
  · next htruthy =>
    have hnative : brokerOrder.brokerNativeOrderId.isSome = true := by
      cases h : brokerOrder.brokerNativeOrderId with
      | some id => rfl
      | none => rw [h] at htruthy; cases htruthy
    have hprobe : ((tryTruthProbe order brokerOrder).handle
        fun _ => return (none, some .apiFailure)).Only (fun op => ¬ op.Marks) fun _ => True :=
      Program.Only.handle (Q := fun _ => True)
        ((tryTruthProbe_reason order brokerOrder).mono (fun _ => not_marks_of_unmarked) fun _ => id)
        (fun _ _ => trivial) fun _ _ => trivial
    refine (hprobe.steps (by simp)).bind (fun probe steps h => ?_) fun e steps h => ?_
    · obtain ⟨status, reason⟩ := probe
      cases status with
      | some status =>
        exact svc.syncProbed_asks order hopen hnative refresh start status reason h.2
      | none => exact Unmarked.always (svc.syncByStatus_unmarked ..) _ h.2
    · rintro ⟨step, hstep, hmark⟩
      exact (h.2 step hstep hmark).elim
  · exact Unmarked.always (svc.syncByStatus_unmarked ..) _ (by simp)

theorem syncOrder_asks (order : OrderRequestEntity) (brokerOrder : BrokerOrderEntity)
    (refresh afterHours : Bool) (start : Time) :
    (svc.syncOrder order brokerOrder refresh afterHours start).Always
      (fun _ steps => AsksIfMarked brokerOrder steps) [] := by
  unfold syncOrder
  split
  · exact Unmarked.always (svc.syncTerminal_reason _ _ _ _ (by simp)) _ (by simp)
  · next hterminal =>
    split
    · refine svc.syncActive_asks order (fun h => hterminal ?_) brokerOrder refresh afterHours start
      rw [h]
      decide
    · exact Unmarked.always (p := Program.ret _) trivial _ (by simp)

theorem syncOrder_filled (order : OrderRequestEntity) (hfilled : order.status = .filled)
    (brokerOrder : BrokerOrderEntity) (refresh afterHours : Bool) (start : Time) :
    (svc.syncOrder order brokerOrder refresh afterHours start).Only
      (fun op => ∃ id status synced updated, op = .brokerOrdersUpdate id status synced updated)
      fun _ => True := by
  have hterminal : order.status ∈ terminalStatuses := by rw [hfilled]; decide
  have hrecent : recentlyExpired order = .ret false := by
    simp only [recentlyExpired, hfilled, reduceCtorEq, if_false]
    rfl
  simp only [syncOrder, if_pos hterminal, syncTerminal, hrecent, Program.bind_eq, Program.ret_bind,
    syncTerminal.attemptRecovery, Program.pure_eq]
  refine ⟨⟨_, _, _, _, rfl⟩, fun outcome => ?_⟩
  cases outcome <;> trivial

end OrderSyncService

end AgentTrading.Sync
