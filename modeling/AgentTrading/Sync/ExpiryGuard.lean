import AgentTrading.Library.Pool
import AgentTrading.Sync.ExpiredOnPart
import AgentTrading.Sync.Steps

/-! An order is written as expired on one of two grounds: the broker says so, or it is a sell
after hours that has reached the age of its grace period. The guards are written out once for
each fallback; whatever else happens to the stored rows between the steps of a call, every one
of its writes is behind one of them. -/
namespace AgentTrading.Sync.Authoritative
open Domain Repositories Library

/-- The clock is not turned back. -/
def Forward (s t : State) : Prop := s.sync.store.clock ≤ t.sync.store.clock

theorem Forward.refl (s : State) : Forward s s := le_refl s.sync.store.clock

theorem exec_forward (w : World) (c : Sync.Choice) (op : Op) (s : State) :
    Forward s (w.exec c op s).2 := by
  unfold Forward
  cases op with
  | sync op =>
    cases op with
    | orders op =>
      have hclock := Orders.exec_clock (w.within s.sync.store.clock c.orders) op s.sync.store
      calc s.sync.store.clock
          ≤ s.sync.store.clock + ((w.within s.sync.store.clock c.orders).elapsed : Int) :=
            Int.le_add_of_nonneg_right (Int.natCast_nonneg _)
        _ = (w.exec c (.sync (.orders op)) s).2.sync.store.clock := hclock.symm
    | brokerOrdersUpdate id status synced updated =>
      apply le_of_eq
      exact (updateBrokerOrder_clock s.sync.store id status synced updated).symm
    | _ => exact le_refl _
  | _ => exact le_refl _

/-- The operation writes no order as expired. -/
def Op.Unexpiring : Op → Prop
  | .sync (.orders (.ordersUpdateStatus _ status _ _ _ _)) => status ≠ .expired
  | _ => True

/-- The operation turns the stored order into an expired one. -/
structure World.Expires (w : World) (order : OrderRequestEntity) (c : Sync.Choice) (op : Op)
    (s : State) : Prop where
  before : Unexpired order s
  after : Expired order (w.exec c op s).2

theorem unexpired_of_rows {order : OrderRequestEntity} {s t : State} (hs : Unexpired order s)
    (h : t.sync.store.orders order.orderRequestId = s.sync.store.orders order.orderRequestId) :
    ¬ Expired order t := by
  rintro ⟨row, hrow, hexpired⟩
  rw [h] at hrow
  exact hs row hrow hexpired

theorem Op.Unexpiring.not_expires {w : World} {order : OrderRequestEntity} {op : Op}
    (h : op.Unexpiring) (c : Sync.Choice) (s : State) : ¬ w.Expires order c op s := by
  rintro ⟨hbefore, hafter⟩
  cases op with
  | sync op =>
    cases op with
    | orders op =>
      rcases Orders.exec_order (w.within s.sync.store.clock c.orders) op s.sync.store
        order.orderRequestId with hsame | ⟨status, rc, rm, expected, submittedAt,
          current, rfl, -, hnew⟩
      · exact unexpired_of_rows hbefore hsame hafter
      · obtain ⟨row, hrow, hexpired⟩ := hafter
        obtain rfl := Option.some.inj (hnew.symm.trans hrow)
        exact h hexpired
    | brokerOrdersUpdate id status synced updated =>
      have hsame := updateBrokerOrder_orders s.sync.store id status synced updated
      exact unexpired_of_rows hbefore (congrFun hsame order.orderRequestId) hafter
    | _ => exact unexpired_of_rows hbefore rfl hafter
  | _ => exact unexpired_of_rows hbefore rfl hafter

theorem ofSync_reading {Q : Except PyError α → Prop} {p : Sync.Code α}
    (hp : p.Only (Sync.Op.Reason fun _ => False) Q) : (ofSync p).Only Op.Unexpiring Q := by
  apply Program.Only.lift hp
  intro op hop
  cases op with
  | orders op =>
    cases op with
    | ordersUpdateStatus id status rc rm expected submittedAt => exact False.elim hop
    | _ => trivial
  | _ => trivial

theorem ofSync_toward {Q : Except PyError α → Prop} {p : Sync.Code α}
    (hp : p.Only (Toward (· ≠ .expired)) Q) : (ofSync p).Only Op.Unexpiring Q := by
  apply Program.Only.lift hp
  rintro op ⟨o, rfl, hrecording | ⟨id, rfl⟩ | ⟨id, status, rc, rm, expected, submittedAt,
      hstatus, rfl⟩⟩
  · cases o with
    | ordersUpdateStatus id status rc rm expected submittedAt => exact False.elim hrecording
    | _ => trivial
  · trivial
  · exact hstatus

theorem await_unexpiring (op : Op) (h : op.Unexpiring) :
    (await op).Only Op.Unexpiring fun _ => True :=
  ⟨h, fun _ => trivial⟩

theorem orRaise_unexpiring (e : Except PyError α) :
    (orRaise e).Only Op.Unexpiring fun _ => True := by
  cases e <;> trivial

theorem mem_buildTransitionChain {current target step : OrderStatus}
    (h : step ∈ OrderSyncService.buildTransitionChain current target) :
    step = target ∨ step = .acknowledged ∨ step = .partiallyFilled ∨ step = .filled := by
  unfold OrderSyncService.buildTransitionChain at h
  split at h <;> grind

section

variable (svc : OrderSyncService) (order : OrderRequestEntity) (brokerOrder : BrokerOrderEntity)
variable (refresh afterHours : Bool)

theorem transition_unexpiring {target : OrderStatus} (reasonCode reasonMessage : Option String)
    (hexpired : target ≠ .expired) (hreconcile : target ≠ .reconcileRequired) :
    (svc.transition order target reasonCode reasonMessage).Only (Toward (· ≠ .expired))
      fun _ => True := by
  have htoward := Orders.transitionTo_toward svc.reconciliation order (P := (· ≠ .expired))
    { reasonCode := reasonCode, reasonMessage := reasonMessage } hexpired hreconcile
  apply Program.Only.lift (htoward.mono (fun _ => id) fun _ _ => trivial)
  exact fun o ho => ⟨o, rfl, ho⟩

theorem followChain_unexpiring (target : OrderStatus) (reasonCode reasonMessage : Option String)
    (steps : List OrderStatus)
    (hsteps : ∀ step ∈ steps, step ≠ .expired ∧ step ≠ .reconcileRequired) :
    (svc.followChain target reasonCode reasonMessage steps order).Only (Toward (· ≠ .expired))
      fun _ => True := by
  induction steps generalizing order with
  | nil => trivial
  | cons step steps ih =>
    obtain ⟨⟨hexpired, hreconcile⟩, hrest⟩ := List.forall_mem_cons.mp hsteps
    rw [OrderSyncService.followChain]
    split
    · exact ih order hrest
    · apply (transition_unexpiring svc order _ _ hexpired hreconcile).attempt.bind
      · intro next _
        cases next with
        | none => trivial
        | some next => exact ih next hrest
      · exact fun _ _ => trivial

theorem tryTransition_unexpiring {target : OrderStatus} (reasonCode reasonMessage : Option String)
    (hexpired : target ≠ .expired) (hreconcile : target ≠ .reconcileRequired) :
    (ofSync (svc.tryTransition order target reasonCode reasonMessage)).Only Op.Unexpiring
      fun _ => True := by
  apply ofSync_toward
  unfold OrderSyncService.tryTransition
  split
  · trivial
  · apply (transition_unexpiring svc order _ _ hexpired hreconcile).attempt.bind
    · intro direct _
      cases direct with
      | some moved => trivial
      | none =>
        apply followChain_unexpiring
        intro step hstep
        rcases mem_buildTransitionChain hstep with rfl | hfill
        · exact ⟨hexpired, hreconcile⟩
        · rcases hfill with rfl | rfl | rfl <;> decide
    · exact fun _ _ => trivial

theorem now_unexpiring : now.Only Op.Unexpiring fun _ => True :=
  await_unexpiring (.sync (.orders .now)) trivial

theorem followFill_unexpiring (inferred : OrderStatus) :
    (followFill order brokerOrder refresh inferred).Only Op.Unexpiring fun _ => True := by
  unfold followFill
  split
  · apply now_unexpiring.bind
    · intro time _
      apply (ofSync_reading (updateBrokerOrderRow_reason ..)).bind
      · intro _ _
        apply (ofSync_reading (refreshSnapshots_reason ..)).bind
        · exact fun _ _ => trivial
        · exact fun _ _ => trivial
      · exact fun _ _ => trivial
    · exact fun _ _ => trivial
  · trivial

theorem settleInferred_unexpiring {inferred : OrderStatus} (message : String)
    (hinferred : inferred = .filled ∨ inferred = .partiallyFilled) :
    (settleInferred svc order brokerOrder refresh inferred message).Only Op.Unexpiring
      fun _ => True := by
  have hne : inferred ≠ .expired ∧ inferred ≠ .reconcileRequired := by
    rcases hinferred with rfl | rfl <;> decide
  unfold settleInferred
  apply Program.Only.handle (Q := fun _ => True)
  · apply (tryTransition_unexpiring svc order none none hne.1 hne.2).bind
    · intro updated _
      split
      · apply (followFill_unexpiring order brokerOrder refresh inferred).bind
        · exact fun _ _ => trivial
        · exact fun _ _ => trivial
      · trivial
    · exact fun _ _ => trivial
  · exact fun _ _ => trivial
  · exact fun _ _ => trivial

theorem settleByPosition_unexpiring (message : OrderStatus → String) :
    (settleByPosition svc order brokerOrder refresh message).Only Op.Unexpiring fun _ => True := by
  unfold settleByPosition
  split
  · apply (ofSync_reading (inferSellOrderFillViaPosition_reason ..)).bind
    · intro inferred hinferred
      cases inferred with
      | none => trivial
      | some inferred =>
        refine ⟨trivial, fun _ => ?_⟩
        exact settleInferred_unexpiring svc order brokerOrder refresh _ (hinferred inferred rfl)
    · exact fun _ _ => trivial
  · trivial

theorem inquireKisPosition_unexpiring (accountId instrumentId : UUID) :
    (inquireKisPosition accountId instrumentId).Only Op.Unexpiring fun _ => True := by
  refine ⟨trivial, fun found => ?_⟩
  apply (orRaise_unexpiring found).bind
  · intro account _
    cases account with
    | none => trivial
    | some account =>
      refine ⟨trivial, fun found => ?_⟩
      apply (orRaise_unexpiring found).bind
      · intro brokerAccount _
        cases brokerAccount with
        | none => trivial
        | some brokerAccount =>
          refine ⟨trivial, fun time => ⟨trivial, fun _ => ⟨trivial, fun listed => ?_⟩⟩⟩
          apply (orRaise_unexpiring listed).bind
          · intro positions _
            apply (orRaise_unexpiring _).bind
            · exact fun _ _ => trivial
            · exact fun _ _ => trivial
          · exact fun _ _ => trivial
      · exact fun _ _ => trivial
  · exact fun _ _ => trivial

theorem fetchKisCurrentPositionQty_unexpiring :
    (fetchKisCurrentPositionQty order).Only Op.Unexpiring fun _ => True := by
  refine ⟨trivial, fun seen => ?_⟩
  cases seen with
  | true => trivial
  | false =>
    refine ⟨trivial, fun _ => ⟨trivial, fun time => ⟨trivial, fun last => ?_⟩⟩⟩
    simp only [Program.pure_eq, Program.ret_bind]
    split
    · apply (inquireKisPosition_unexpiring ..).handle
      · exact fun _ _ => trivial
      · exact fun _ _ => trivial
    · trivial

theorem tryKisTruthFallback_unexpiring :
    (tryKisTruthFallback order brokerOrder).Only Op.Unexpiring fun _ => True := by
  unfold tryKisTruthFallback
  split
  · trivial
  · refine ⟨trivial, fun before => ?_⟩
    rcases before with e | pre | pre
    · trivial
    · trivial
    · simp only [Program.ret_bind]
      split
      · trivial
      · apply (fetchKisCurrentPositionQty_unexpiring order).bind
        · intro held _
          apply Program.Only.bind (Q := fun _ => True)
          · cases held with
            | some quantity => trivial
            | none => exact ofSync_reading (getLatestPositionQty_reason ..)
          · intro current _
            split <;> trivial
          · exact fun _ _ => trivial
        · exact fun _ _ => trivial

theorem settleByKis_unexpiring (message : ℚ → OrderStatus → String) :
    (settleByKis svc order brokerOrder refresh message).Only Op.Unexpiring fun _ => True := by
  unfold settleByKis
  split
  · apply (tryKisTruthFallback_unexpiring order brokerOrder).bind
    · intro fill _
      cases fill with
      | none => trivial
      | some fill =>
        dsimp only
        split
        · refine ⟨trivial, fun _ => ?_⟩
          exact settleInferred_unexpiring svc order brokerOrder refresh _
            (statusOfDelta_fill order _ _ rfl)
        · trivial
    · exact fun _ _ => trivial
  · trivial

end

/-- The broker answers the inquiry of the call that the order has expired. -/
def ReportsExpired (w : World) (brokerOrder : BrokerOrderEntity) : Prop :=
  ∃ result, w.unknownState brokerOrder.brokerNativeOrderId = .ok result ∧ result.status = .expired

/-- A sell after hours that is as old as its grace period. -/
structure LateSell (order : OrderRequestEntity) (brokerOrder : BrokerOrderEntity)
    (afterHours : Bool) (s : State) : Prop where
  sell : order.side = .sell
  afterHours : afterHours = true
  old : ∃ createdAt, order.createdAt = some createdAt ∧
    resolveAfterHoursGracePeriod order brokerOrder ≤ s.sync.store.clock - createdAt

theorem LateSell.forward {order : OrderRequestEntity} {brokerOrder : BrokerOrderEntity}
    {afterHours : Bool} {s t : State} (h : Forward s t)
    (hs : LateSell order brokerOrder afterHours s) : LateSell order brokerOrder afterHours t := by
  obtain ⟨createdAt, hcreated, hold⟩ := hs.old
  exact ⟨hs.sell, hs.afterHours, createdAt, hcreated, le_trans hold (sub_le_sub_right h _)⟩

/-- An operation that expires the order has one of the two grounds for it. -/
def Grounded (w : World) (order : OrderRequestEntity) (brokerOrder : BrokerOrderEntity)
    (afterHours : Bool) (c : Sync.Choice) (op : Op) (s : State) : Prop :=
  w.Expires order c op s → ReportsExpired w brokerOrder ∨ LateSell order brokerOrder afterHours s

/-- Whatever the others write, as long as they do not turn back the clock, each operation of
the program from `s` on is grounded. -/
abbrev SoundFrom (w : World) (order : OrderRequestEntity) (brokerOrder : BrokerOrderEntity)
    (afterHours : Bool) (p : Code α) (s : State) : Prop :=
  Program.Safe w.exec Forward (fun _ _ _ => True) (Grounded w order brokerOrder afterHours)
    (fun _ _ => True) p s

/-- The program is sound from every state on. -/
abbrev Sound (w : World) (order : OrderRequestEntity) (brokerOrder : BrokerOrderEntity)
    (afterHours : Bool) (p : Code α) : Prop :=
  ∀ s, SoundFrom w order brokerOrder afterHours p s

section

variable {w : World} {order : OrderRequestEntity} {brokerOrder : BrokerOrderEntity}
variable {afterHours : Bool}

theorem soundFrom_of {K : State → Prop} {P : Op → Prop} {Q : Except PyError α → Prop} {p : Code α}
    {s : State} (stable : ∀ s t, Forward s t → K s → K t) (hp : p.Only P Q)
    (hP : ∀ op, P op → ∀ c s, K s → Grounded w order brokerOrder afterHours c op s) (hs : K s) :
    SoundFrom w order brokerOrder afterHours p s :=
  Program.safeIn_only stable (fun c op s _ _ => exec_forward w c op s) hp hP s hs

theorem sound_unexpiring {Q : Except PyError α → Prop} {p : Code α}
    (hp : p.Only Op.Unexpiring Q) : Sound w order brokerOrder afterHours p := by
  intro s
  apply soundFrom_of (K := fun _ => True) (fun _ _ _ => id) hp
  · exact fun op hop c s _ hexpires => (hop.not_expires c s hexpires).elim
  · trivial

theorem sound_reported (h : ReportsExpired w brokerOrder) (p : Code α) :
    Sound w order brokerOrder afterHours p := by
  intro s
  apply soundFrom_of (K := fun _ => True) (fun _ _ _ => id) p.only_true
  · exact fun _ _ _ _ _ _ => Or.inl h
  · trivial

theorem LateSell.sound {s : State} (h : LateSell order brokerOrder afterHours s) (p : Code α) :
    SoundFrom w order brokerOrder afterHours p s := by
  apply soundFrom_of (fun _ _ => LateSell.forward) p.only_true
  · exact fun _ _ _ _ hs _ => Or.inr hs
  · exact h

theorem sound_ret (a : α) : Sound w order brokerOrder afterHours (Program.ret a) :=
  fun _ _ _ => trivial

theorem Sound.bind {p : Code α} {f : α → Code β} (hp : Sound w order brokerOrder afterHours p)
    (hf : ∀ a, Sound w order brokerOrder afterHours (f a)) :
    Sound w order brokerOrder afterHours (p.bind f) := by
  intro s
  apply Program.Safe.bind Forward.refl (hp s)
  · exact fun a t _ => hf a t
  · exact fun _ _ _ => trivial

theorem Sound.andThen {stage : Code Stage} {next : Code (Option OrderStatusResult)}
    (hstage : Sound w order brokerOrder afterHours stage)
    (hnext : Sound w order brokerOrder afterHours next) :
    Sound w order brokerOrder afterHours (andThen stage next) := by
  apply hstage.bind
  intro reached
  cases reached with
  | none => exact hnext
  | some result => exact sound_ret result

theorem sound_now {f : Time → Code α}
    (h : ∀ time s, time = s.sync.store.clock →
      SoundFrom w order brokerOrder afterHours (f time) s) :
    Sound w order brokerOrder afterHours (now.bind f) := by
  intro s t c _ _
  constructor
  · intro hexpires
    have hread : Op.Unexpiring (.sync (.orders .now)) := trivial
    exact (hread.not_expires c t hexpires).elim
  · exact h _ _ rfl

end

section

variable {w : World} (svc : OrderSyncService) {order : OrderRequestEntity}
variable (brokerOrder : BrokerOrderEntity) (refresh afterHours : Bool) {createdAt : Time}

theorem fallBackToExpired_sound (message : String) (hcreated : order.createdAt = some createdAt) :
    Sound w order brokerOrder afterHours
      (fallBackToExpired svc order brokerOrder afterHours message) := by
  unfold fallBackToExpired
  split
  · exact sound_ret none
  · next hside =>
    split
    · exact sound_ret none
    · next hafter =>
      simp only [tooYoung, hcreated, Program.bind_eq, Program.bind_assoc]
      apply sound_now
      rintro time s rfl
      simp only [Program.pure_eq, Program.ret_bind, decide_eq_true_eq]
      split
      · exact sound_ret none s
      · next hold =>
        have hlate : LateSell order brokerOrder afterHours s :=
          ⟨not_not.mp hside, by simpa using hafter, createdAt, hcreated, not_lt.mp hold⟩
        exact hlate.sound _

theorem resolveStuck_sound (stuck : Int) {s : State} (hafter : afterHours = true)
    (hold : ∃ createdAt, order.createdAt = some createdAt ∧
      resolveAfterHoursGracePeriod order brokerOrder ≤ s.sync.store.clock - createdAt) :
    SoundFrom w order brokerOrder afterHours
      (resolveStuck svc order brokerOrder refresh stuck) s := by
  cases hside : order.side with
  | buy =>
    simp only [resolveStuck, hside, if_true]
    exact sound_ret _ s
  | sell =>
    have hlate : LateSell order brokerOrder afterHours s := ⟨hside, hafter, hold⟩
    exact hlate.sound _

theorem stuckTimeout_sound (hcreated : order.createdAt = some createdAt) :
    Sound w order brokerOrder afterHours
      (stuckTimeout svc order brokerOrder refresh afterHours) := by
  simp only [stuckTimeout, hcreated]
  apply sound_now
  rintro time s rfl
  split
  · next hstuck =>
    split
    · next hafter =>
      apply resolveStuck_sound svc brokerOrder refresh afterHours _ hafter
      refine ⟨createdAt, hcreated, ?_⟩
      exact le_trans (grace_le_stuckExpiry order brokerOrder) (le_of_lt hstuck)
    · split
      · exact sound_ret _ s
      · exact sound_ret _ s
  · exact sound_ret _ s

theorem withoutTruth_sound (e : PyError) (hcreated : order.createdAt = some createdAt) :
    Sound w order brokerOrder afterHours
      (withoutTruth svc order brokerOrder refresh afterHours e) := by
  apply Sound.andThen
  · exact sound_unexpiring (settleByPosition_unexpiring ..)
  · exact fallBackToExpired_sound svc brokerOrder afterHours _ hcreated

theorem withoutRecord_sound (hcreated : order.createdAt = some createdAt) :
    Sound w order brokerOrder afterHours
      (withoutRecord svc order brokerOrder refresh afterHours) := by
  apply Sound.andThen
  · exact sound_unexpiring (settleByKis_unexpiring ..)
  · apply Sound.andThen
    · exact sound_unexpiring (settleByPosition_unexpiring ..)
    · apply Sound.andThen
      · exact stuckTimeout_sound svc brokerOrder refresh afterHours hcreated
      · exact fallBackToExpired_sound svc brokerOrder afterHours _ hcreated

theorem isGenuineManualReconciliation_unexpiring (result : OrderStatusResult) :
    (isGenuineManualReconciliation order result).Only Op.Unexpiring fun _ => True := by
  unfold isGenuineManualReconciliation
  split
  · apply now_unexpiring.bind
    · intro time _
      cases order.createdAt <;> trivial
    · exact fun _ _ => trivial
  · trivial

theorem reflectTruth_sound (result : OrderStatusResult) (hunreported : result.status ≠ .expired)
    (hcreated : order.createdAt = some createdAt) :
    Sound w order brokerOrder afterHours
      (reflectTruth svc order brokerOrder refresh afterHours result) := by
  apply (sound_unexpiring now_unexpiring).bind
  intro time
  apply (sound_unexpiring (ofSync_reading
    (OrderSyncService.updateBrokerStatus_reason brokerOrder result.status time))).bind
  intro _
  split
  · next hdefinite =>
    apply (sound_unexpiring
      (tryTransition_unexpiring svc order none none hunreported hdefinite)).bind
    intro updated
    split
    · exact sound_ret _
    · exact sound_ret _
  · apply (sound_unexpiring (isGenuineManualReconciliation_unexpiring result)).bind
    intro manual
    split
    · exact sound_ret _
    · exact withoutRecord_sound svc brokerOrder refresh afterHours hcreated

/-- In a call for an order with a time of creation, an operation that expires the order is one
on the broker's word or one on a sell after hours past its grace period. -/
theorem transitionToAuthoritative_grounded (accountRef : String) (s : State)
    (hcreated : order.createdAt.isSome) :
    SoundFrom w order brokerOrder afterHours
      (transitionToAuthoritative svc accountRef order brokerOrder refresh afterHours) s := by
  obtain ⟨createdAt, hcreated⟩ := Option.isSome_iff_exists.mp hcreated
  by_cases hreports : ReportsExpired w brokerOrder
  · exact sound_reported hreports _ s
  · revert s
    unfold transitionToAuthoritative
    split
    · exact sound_ret _
    · apply (sound_unexpiring (await_unexpiring (.sync (.instrumentsGet _)) trivial)).bind
      intro found
      apply (sound_unexpiring (orRaise_unexpiring found)).bind
      intro symbol s t c _ _
      constructor
      · intro hexpires
        have hread : Op.Unexpiring (.brokerResolveUnknownState accountRef
          brokerOrder.brokerNativeOrderId symbol order.side (orderTime order)) := trivial
        exact (hread.not_expires c t hexpires).elim
      · show SoundFrom w order brokerOrder afterHours (Program.bind (Program.ret
          (w.unknownState brokerOrder.brokerNativeOrderId)) _) t
        cases hreply : w.unknownState brokerOrder.brokerNativeOrderId with
        | error e => exact withoutTruth_sound svc brokerOrder refresh afterHours e hcreated t
        | ok result =>
          have hunreported : result.status ≠ .expired := fun h => hreports ⟨result, hreply, h⟩
          exact reflectTruth_sound svc brokerOrder refresh afterHours result hunreported hcreated t

end

/-- The sell of ten shares an hour ago, which the call expires. -/
theorem transitionToAuthoritative_grounded_fiveGone :
    SoundFrom fiveGone halfSold halfSoldAtBroker true
      (transitionToAuthoritative plainService "50000000-01" halfSold halfSoldAtBroker true true)
      (beginning fiveGone halfSold halfSoldAtBroker false) :=
  transitionToAuthoritative_grounded plainService halfSoldAtBroker true true "50000000-01" _ rfl

end AgentTrading.Sync.Authoritative
