import AgentTrading.Orders.RowWrites
import AgentTrading.Sync.ReportedStatus

/-! When the result of `sync_order_post_submit` is faithful to what is stored. The reads of a call,
performed on their own, show the status it goes for at the two returns that do not look at what has
become of the order. -/
namespace AgentTrading.Sync.ReportedStatus
open Domain Repositories Library

/-- The status that the broker's reply moves an expired order to, and the status that it reports. -/
def brokerFinding (order : OrderRequestEntity) (brokerOrder : BrokerOrderEntity) :
    Code (Option (OrderStatus × OrderStatus)) := do
  let reply ← await (.brokerGetOrderStatus order.clientOrderId brokerOrder.brokerNativeOrderId)
  match reply with
  | .error _ => return none
  | .ok result => do
    let recoverable ← OrderSyncService.mayRecover order result.status
    if recoverable then return some (result.status, result.status)
    else if order.side = .buy ∧ truthy brokerOrder.brokerNativeOrderId ∧
        (result.status = .submitted ∨ result.status = .acknowledged ∨
          result.status = .reconcileRequired) then
      return some (.reconcileRequired, result.status)
    else return none

/-- The status that the positions move an expired sell to. -/
def positionFinding (order : OrderRequestEntity) (brokerOrder : BrokerOrderEntity)
    (refresh : Bool) : Code (Option OrderStatus) := do
  let inferred ← (inferSellOrderFillViaPosition order brokerOrder refresh).attempt
  match inferred.join with
  | none => return none
  | some inferred => do
    let recoverable ← OrderSyncService.mayRecover order inferred
    if recoverable then return some inferred else return none

/-- The status that the positions move a recently expired sell to when the broker's reply does not
recover it. -/
def recoveryFinding (order : OrderRequestEntity) (brokerOrder : BrokerOrderEntity)
    (refresh : Bool) : Code (Option OrderStatus) := do
  let found ← brokerFinding order brokerOrder
  match found with
  | some _ => return none
  | none => if order.side = .sell then positionFinding order brokerOrder refresh else return none

def expiredFinding (order : OrderRequestEntity) (brokerOrder : BrokerOrderEntity)
    (refresh : Bool) : Code (Option OrderStatus) := do
  let recent ← OrderSyncService.recentlyExpired order
  if recent then recoveryFinding order brokerOrder refresh else return none

/-- The status that the truth probe shows of an order in progress, where it is another one. -/
def probeFinding (order : OrderRequestEntity) (brokerOrder : BrokerOrderEntity) :
    Code (Option OrderStatus) :=
  if order.status ∈ syncableStatuses ∧ truthy brokerOrder.brokerNativeOrderId then do
    let probe ← (tryTruthProbe order brokerOrder).handle fun _ => return (none, some .apiFailure)
    return probe.1.filter (· ≠ order.status)
  else return none

def finding (order : OrderRequestEntity) (brokerOrder : BrokerOrderEntity) (refresh : Bool) :
    Code (Option OrderStatus) :=
  if order.status ∈ terminalStatuses then expiredFinding order brokerOrder refresh
  else probeFinding order brokerOrder

/-- The reads of a call from its start. -/
def looks (brokerOrderId : UUID) (refresh : Bool) (afterHours : Option Bool) :
    Code (Option OrderStatus) := do
  let _ ← now
  let _ ← OrderSyncService.resolveAfterHours afterHours
  let found ← await (.brokerOrdersGet brokerOrderId)
  match found with
  | none => return none
  | some brokerOrder => do
    let stored ← await (.orders (.ordersGet brokerOrder.orderRequestId))
    match stored with
    | none => return none
    | some order => finding order brokerOrder refresh

variable {refuses : Orders.Refusals}

/-- The run of a program under a stream of choices. -/
abbrev runs (refuses : Orders.Refusals) (p : Code α) (cs : Nat → Choice) (s : State) :
    Except PyError α × ((Nat → Choice) × State) :=
  p.run (Program.drawing (exec refuses)) (cs, s)

/-- An order in progress leaves its status, and a terminal one stays in it. -/
def Suits (refuses : Orders.Refusals) (before target : OrderStatus) (n : Nat) : Prop :=
  leaves refuses before target n = true ↔ before ∉ terminalStatuses

/-- Under every stream of choices, the result of the call tells the stored status exactly if the
status that the reads show suits. -/
def ToldBy (refuses : Orders.Refusals) (id : UUID) (before : OrderStatus)
    (call : Code SyncOrderResult) (reads : Code (Option OrderStatus)) (s : State) : Prop :=
  ∀ cs, Returns (fun result t => Tells id before result t ↔ ∀ target,
      (runs refuses reads cs s).1 = .ok (some target) → Suits refuses before target s.writes)
    (runs refuses call cs s).1 (runs refuses call cs s).2.2

section

variable {id : UUID} {before : OrderStatus} {s : State}

theorem toldBy_ret {call : Code SyncOrderResult} (found : Option OrderStatus)
    (h : Faces refuses (Returns fun result t => Tells id before result t ↔ ∀ target,
      found = some target → Suits refuses before target s.writes) call s) :
    ToldBy refuses id before call (.ret found) s := by
  intro cs result hresult
  have hrun : Tells id before result _ ↔ ∀ target, found = some target →
      Suits refuses before target s.writes :=
    h.run (fun _ _ _ => trivial) result hresult
  rw [hrun]
  apply forall_congr'
  intro target
  rw [runs, Program.run_ret, Except.ok.injEq]

theorem toldBy_none {call : Code SyncOrderResult}
    (h : Faces refuses (Returns (Tells id before)) call s) :
    ToldBy refuses id before call (.ret none) s := by
  apply toldBy_ret none
  apply h.mono
  exact fun r t hr result hresult => iff_of_true (hr result hresult) fun _ h => (by cases h)

theorem toldBy_raise (call : Code SyncOrderResult) {e e' : PyError} (h : call = .raise e) :
    ToldBy refuses id before call (.raise e') s := by
  subst h
  rintro cs result ⟨⟩

theorem toldBy_call {op : Op} {k : Reply op → Code SyncOrderResult}
    {k' : Reply op → Code (Option OrderStatus)} (hop : Unwriting op)
    (h : ∀ c, ToldBy refuses id before (k (exec refuses c op s).1) (k' (exec refuses c op s).1)
      (exec refuses c op s).2) :
    ToldBy refuses id before (.call op k) (.call op k') s := by
  intro cs
  have hrest := h (cs 0) fun n => cs (n + 1)
  have hwrites : (exec refuses (cs 0) op s).2.writes = s.writes :=
    (exec_unmoved (cs 0) s hop).writes
  rw [hwrites] at hrest
  exact hrest

theorem toldBy_bind {Q : Except PyError α → Prop} {p : Code α} {f : α → Code SyncOrderResult}
    {g : α → Code (Option OrderStatus)} (hp : p.Only Unwriting Q)
    (h : ∀ a t, Q (.ok a) → Unmoved s t → ToldBy refuses id before (f a) (g a) t) :
    ToldBy refuses id before (p.bind f) (p.bind g) s := by
  induction p generalizing s with
  | ret a => exact h a s hp (.refl s)
  | raise e => exact toldBy_raise _ rfl
  | call op k ih =>
    apply toldBy_call hp.1
    intro c
    have hmoved : Unmoved s (exec refuses c op s).2 := exec_unmoved c s hp.1
    apply ih _ (hp.2 _)
    exact fun a t ha ht => h a t ha (.trans _ _ _ hmoved ht)

theorem toldBy_found {Q : Except PyError (Option OrderStatus) → Prop}
    {p : Code (Option OrderStatus)} {f : Option OrderStatus → Code SyncOrderResult}
    (hp : p.Only Unwriting Q)
    (h : ∀ found t, Q (.ok found) → Unmoved s t →
      ToldBy refuses id before (f found) (.ret found) t) :
    ToldBy refuses id before (p.bind f) p s := by
  have hbind : ToldBy refuses id before (p.bind f) (p.bind .ret) s := toldBy_bind hp h
  rw [Program.bind_ret] at hbind
  exact hbind

end

section

variable (svc : OrderSyncService) {order : OrderRequestEntity} {brokerOrder : BrokerOrderEntity}
variable {s : State}

theorem recoverByBroker_eq : svc.recoverByBroker order brokerOrder =
    (brokerFinding order brokerOrder).bind fun found =>
      match found with
      | some (target, status) => svc.recoverTo order brokerOrder target status
      | none => .ret (order, false) := by
  unfold OrderSyncService.recoverByBroker brokerFinding
  simp only [Program.bind_eq, Program.bind_assoc]
  congr 1
  funext reply
  cases reply with
  | error e => rfl
  | ok result =>
    simp only [Program.bind_assoc]
    congr 1
    funext recoverable
    split
    · rfl
    · split <;> rfl

theorem recoverByPosition_eq (refresh : Bool) : svc.recoverByPosition order brokerOrder refresh =
    (positionFinding order brokerOrder refresh).bind fun found =>
      match found with
      | some inferred => (svc.tryTransition order inferred none none).bind fun moved =>
          OrderSyncService.finishPositionRecovery moved brokerOrder.brokerOrderId inferred refresh
      | none => .ret () := by
  unfold OrderSyncService.recoverByPosition positionFinding
  simp only [Program.bind_eq, Program.bind_assoc]
  congr 1
  funext inferred
  cases inferred.join with
  | none => rfl
  | some inferred =>
    simp only [Program.bind_assoc]
    congr 1
    funext recoverable
    split <;> rfl

theorem mayRecover_only (found : OrderStatus) :
    (OrderSyncService.mayRecover order found).Only Unwriting fun r =>
      r = .ok true → found = .filled ∨ found = .partiallyFilled := by
  unfold OrderSyncService.mayRecover canRecoverExpired
  split
  · next hfound =>
    split
    · exact fun _ => hfound
    · exact ⟨trivial, fun _ _ => hfound⟩
  · rintro ⟨⟩

theorem recentlyExpired_only :
    (OrderSyncService.recentlyExpired order).Only Unwriting fun r =>
      r = .ok true → order.status = .expired := by
  unfold OrderSyncService.recentlyExpired
  split
  · next hexpired =>
    split
    · rintro ⟨⟩
    · exact ⟨trivial, fun _ _ => hexpired⟩
  · rintro ⟨⟩

theorem brokerFinding_only :
    (brokerFinding order brokerOrder).Only Unwriting fun _ => True := by
  refine ⟨trivial, fun reply => ?_⟩
  cases reply with
  | error e => trivial
  | ok result =>
    apply (mayRecover_only result.status).bind
    · intro recoverable _
      split
      · trivial
      · split <;> trivial
    · exact fun _ _ => trivial

theorem positionFinding_only (refresh : Bool) :
    (positionFinding order brokerOrder refresh).Only Unwriting fun r =>
      ∀ inferred, r = .ok (some inferred) → inferred = .filled ∨ inferred = .partiallyFilled := by
  apply (inferSellOrderFillViaPosition_reason order brokerOrder refresh).attempt.bind
  · intro inferred _
    cases inferred.join with
    | none => exact fun _ h => nomatch h
    | some inferred =>
      apply (mayRecover_only inferred).bind
      · intro recoverable hfound
        split
        · next hrecoverable =>
          rintro _ ⟨⟩
          exact hfound (congrArg _ hrecoverable)
        · exact fun _ h => nomatch h
      · exact fun _ _ _ h => nomatch h
  · exact fun _ _ _ h => nomatch h

theorem updateBrokerStatus_goes (status : OrderStatus) (now : Time) {orderRequestId : UUID}
    (hlinked : Linked brokerOrder.brokerOrderId orderRequestId s.sync) :
    Faces refuses (fun r t => r = .ok () ∧ Unmoved s t)
      (OrderSyncService.updateBrokerStatus brokerOrder status now) s := by
  unfold OrderSyncService.updateBrokerStatus
  split
  · obtain ⟨stored, hget, -⟩ := hlinked
    apply Program.alone_call
    intro c _
    refine ⟨trivial, ?_⟩
    have hmoved : Unmoved s (exec refuses c (.brokerOrdersUpdate brokerOrder.brokerOrderId
        (some status.value) none (some now)) s).2 := exec_unmoved c s trivial
    have hreply : (exec refuses c (.brokerOrdersUpdate brokerOrder.brokerOrderId
        (some status.value) none (some now)) s).1 = .ok () := by
      simp only [exec, Sync.exec, updateBrokerOrder, hget]
    rw [hreply]
    exact Program.alone_ret ⟨rfl, hmoved⟩
  · exact Program.alone_ret ⟨rfl, .refl s⟩

theorem recoverTo_holds (target status : OrderStatus) {id orderRequestId : UUID}
    (hid : order.orderRequestId = id) (h : Holds id order.status s)
    (hlinked : Linked brokerOrder.brokerOrderId orderRequestId s.sync) :
    Faces refuses (fun r t => ∃ moved, r = .ok (moved, true) ∧ Holds id moved.status t)
      (svc.recoverTo order brokerOrder target status) s := by
  have hkept : Faces refuses (fun _ t => Linked brokerOrder.brokerOrderId orderRequestId t.sync)
      (svc.tryTransition order target none none) s :=
    faces_keeps (fun op c _ => exec_linked op c) _ hlinked
  apply Program.Alone.bind ((tryTransition_holds svc target none none hid h).and hkept)
  · rintro _ t ⟨⟨moved, hr, -, hholds, -⟩, hstored⟩
    obtain rfl := Except.ok.inj hr
    apply faces_bind (p := now) (Q := fun r => ∃ a, r = .ok a) ⟨trivial, fun a => ⟨a, rfl⟩⟩
    · intro now t₁ _ h₁
      apply Program.Alone.bind
        (updateBrokerStatus_goes status now (h₁.linked _ _ hstored)).attempt
      · rintro _ t₂ (⟨a, ha, -, h₂⟩ | ⟨e, -, he, -⟩)
        · obtain rfl := Except.ok.inj ha
          exact Program.alone_ret ⟨_, rfl, h₂.holds (h₁.holds hholds)⟩
        · cases he
      · rintro e t₂ (⟨a, ha, -⟩ | ⟨e', he, -⟩)
        · cases ha
        · cases he
    · rintro e t₁ ⟨a, ha⟩
      cases ha
  · rintro e t ⟨⟨moved, hr, -⟩, -⟩
    cases hr

theorem finishPositionRecovery_only (moved : OrderRequestEntity) (brokerOrderId : UUID)
    (inferred : OrderStatus) (refresh : Bool) :
    (OrderSyncService.finishPositionRecovery moved brokerOrderId inferred refresh).Only Unwriting
      fun _ => True := by
  refine ⟨trivial, fun now => ?_⟩
  apply (updateBrokerOrderRow_reason ..).attempt.bind
  · intro updated _
    split
    · exact (refreshSnapshots_reason ..).bind (fun _ _ => trivial) fun _ _ => trivial
    · trivial
  · exact fun _ _ => trivial

theorem holds_unique {id : UUID} {status status' : OrderStatus} (h : Holds id status s)
    (h' : Holds id status' s) : status = status' := by
  obtain ⟨row, hrow, -, rfl⟩ := h
  obtain ⟨row', hrow', -, rfl⟩ := h'
  rw [hrow] at hrow'
  rw [Option.some.inj hrow']

/-- What a call reports of a terminal order, recovered or not. -/
def terminalResult (order : OrderRequestEntity) (brokerOrder : BrokerOrderEntity) (start : Time)
    (recovered : Option OrderRequestEntity) : Code SyncOrderResult :=
  (OrderSyncService.updateLastSyncedAt brokerOrder.brokerOrderId start).bind fun _ =>
    match recovered with
    | some moved => .ret {
        brokerOrderId := brokerOrder.brokerOrderId
        previousStatus := order.status
        currentStatus := moved.status
        statusChanged := moved.status ≠ order.status
        terminal := moved.status ∈ terminalStatuses
        lastSyncedAt := start }
    | none => .ret {
        brokerOrderId := brokerOrder.brokerOrderId
        previousStatus := order.status
        currentStatus := order.status
        terminal := true
        lastSyncedAt := start }

theorem terminalResult_recovered {moved : OrderRequestEntity} (start : Time) {id : UUID}
    (h : Holds id moved.status s) :
    Faces refuses (Returns (Tells id order.status))
      (terminalResult order brokerOrder start (some moved)) s := by
  apply returns_unwriting (updateBrokerOrderRow_reason ..)
  intro _ t _ ht
  apply Program.alone_ret
  rw [returns_ok]
  refine ⟨ht.holds h, ?_, ?_⟩
  · simp
  · simp

theorem terminalResult_unrecovered (start : Time) {id : UUID} {status : OrderStatus}
    (h : Holds id status s) (hterminal : order.status ∈ terminalStatuses) :
    Faces refuses (Returns fun result t => Tells id order.status result t ↔ status = order.status)
      (terminalResult order brokerOrder start none) s := by
  apply returns_unwriting (updateBrokerOrderRow_reason ..)
  intro _ t _ ht
  apply Program.alone_ret
  rw [returns_ok]
  constructor
  · exact fun htells => holds_unique (ht.holds h) htells.current
  · rintro rfl
    exact ⟨ht.holds h, by simp, by simpa using hterminal⟩

theorem unmoved_toldBy (start : Time) (h : Holds order.orderRequestId order.status s)
    (hterminal : order.status ∈ terminalStatuses) :
    ToldBy refuses order.orderRequestId order.status (terminalResult order brokerOrder start none)
      (.ret none) s := by
  apply toldBy_none
  apply (terminalResult_unrecovered start h hterminal).mono
  exact fun r t hr result hresult => (hr result hresult).mpr rfl

theorem recoverByPosition_toldBy (refresh : Bool) (start : Time)
    (hrow : s.sync.store.orders order.orderRequestId = some order)
    (hexpired : order.status = .expired) :
    ToldBy refuses order.orderRequestId order.status
      ((svc.recoverByPosition order brokerOrder refresh).bind fun _ =>
        terminalResult order brokerOrder start none)
      (positionFinding order brokerOrder refresh) s := by
  have hterminal : order.status ∈ terminalStatuses := by
    rw [hexpired]
    decide
  rw [recoverByPosition_eq, Program.bind_assoc]
  apply toldBy_found (positionFinding_only refresh)
  intro found t hfound ht
  rw [← ht.orders] at hrow
  cases found with
  | none => exact unmoved_toldBy start ⟨order, hrow, rfl, rfl⟩ hterminal
  | some inferred =>
    have hne : order.status ≠ inferred := by
      rw [hexpired]
      rcases hfound inferred rfl with rfl | rfl
      · decide
      · decide
    apply toldBy_ret (some inferred)
    rw [Program.bind_assoc]
    apply Program.Alone.bind (tryTransition_faces svc inferred none none hrow rfl rfl hne)
    · rintro moved t₁ ⟨_, hmoved, -, hholds, -, hleaves⟩
      obtain rfl := Except.ok.inj hmoved
      apply returns_unwriting (finishPositionRecovery_only ..)
      intro _ t₂ _ h₂
      apply (terminalResult_unrecovered start (h₂.holds hholds) hterminal).mono
      intro r u hr result hresult
      have htells : Tells order.orderRequestId order.status result u ↔
          moved.status = order.status :=
        hr result hresult
      rw [htells]
      have hsuits : Suits refuses order.status inferred t.writes ↔ moved.status = order.status := by
        rw [Suits, ← hleaves rfl, iff_false_right (not_not.mpr hterminal), not_not]
      constructor
      · rintro hsame _ ⟨⟩
        exact hsuits.mpr hsame
      · exact fun h => hsuits.mp (h inferred rfl)
    · rintro e t₁ ⟨moved, he, -⟩
      cases he

theorem recoverExpired_toldBy (refresh : Bool) (start : Time) {orderRequestId : UUID}
    (hrow : s.sync.store.orders order.orderRequestId = some order)
    (hlinked : Linked brokerOrder.brokerOrderId orderRequestId s.sync)
    (hexpired : order.status = .expired) :
    ToldBy refuses order.orderRequestId order.status
      ((svc.recoverExpired order brokerOrder refresh).bind (terminalResult order brokerOrder start))
      (recoveryFinding order brokerOrder refresh) s := by
  unfold OrderSyncService.recoverExpired recoveryFinding
  simp only [Program.bind_eq, recoverByBroker_eq, Program.bind_assoc]
  apply toldBy_bind brokerFinding_only
  intro found t _ ht
  rw [← ht.orders] at hrow
  have hholds : Holds order.orderRequestId order.status t := ⟨order, hrow, rfl, rfl⟩
  cases found with
  | some found =>
    apply toldBy_none
    apply Program.Alone.bind
      (recoverTo_holds svc found.1 found.2 rfl hholds (ht.linked _ _ hlinked))
    · rintro _ t₁ ⟨moved, hmoved, h₁⟩
      obtain rfl := Except.ok.inj hmoved
      exact terminalResult_recovered start h₁
    · rintro e t₁ ⟨moved, he, -⟩
      cases he
  | none =>
    simp only [Program.ret_bind, Bool.false_eq_true, if_false]
    split
    · rw [Program.bind_assoc]
      exact recoverByPosition_toldBy svc refresh start hrow hexpired
    · apply unmoved_toldBy start hholds
      rw [hexpired]
      decide

theorem syncTerminal_toldBy (refresh : Bool) (start : Time) {orderRequestId : UUID}
    (hrow : s.sync.store.orders order.orderRequestId = some order)
    (hlinked : Linked brokerOrder.brokerOrderId orderRequestId s.sync)
    (hterminal : order.status ∈ terminalStatuses) :
    ToldBy refuses order.orderRequestId order.status
      (svc.syncTerminal order brokerOrder refresh start)
      (expiredFinding order brokerOrder refresh) s := by
  apply toldBy_bind recentlyExpired_only
  intro recent t hrecent ht
  rw [← ht.orders] at hrow
  cases recent with
  | false => exact unmoved_toldBy start ⟨order, hrow, rfl, rfl⟩ hterminal
  | true =>
    exact recoverExpired_toldBy svc refresh start hrow (ht.linked _ _ hlinked) (hrecent rfl)

theorem probeTried_only : ((tryTruthProbe order brokerOrder).handle
    fun _ => return (none, some .apiFailure)).Only Unwriting fun _ => True :=
  Program.Only.handle (tryTruthProbe_reason order brokerOrder) (fun _ _ => trivial)
    fun _ _ => trivial

/-- What the probe shows is reported whatever has become of the order. -/
theorem syncProbed_toldBy (refresh : Bool) (start : Time) (status : OrderStatus)
    (reason : Option TruthProbeReason)
    (hrow : s.sync.store.orders order.orderRequestId = some order)
    (hopen : order.status ∉ terminalStatuses) :
    ToldBy refuses order.orderRequestId order.status
      (svc.syncProbed order brokerOrder refresh start status reason)
      (.ret ((some status).filter (· ≠ order.status))) s := by
  apply toldBy_ret
  apply (syncProbed_tells svc brokerOrder refresh start status reason hrow).mono
  intro r t hr result hresult
  rw [(hr result hresult).tells_iff]
  simp only [Suits, iff_true_right hopen, Option.filter_eq_some_iff, decide_eq_true_eq]
  constructor
  · rintro h target ⟨⟨⟩, hne⟩
    exact h hne
  · exact fun h hne => h status ⟨rfl, hne⟩

theorem syncActive_toldBy (refresh afterHours : Bool) (start : Time)
    (hrow : s.sync.store.orders order.orderRequestId = some order)
    (hsyncable : order.status ∈ syncableStatuses) (hopen : order.status ∉ terminalStatuses) :
    ToldBy refuses order.orderRequestId order.status
      (svc.syncActive order brokerOrder refresh afterHours start)
      (probeFinding order brokerOrder) s := by
  unfold OrderSyncService.syncActive probeFinding
  by_cases htruthy : truthy brokerOrder.brokerNativeOrderId = true
  · rw [if_pos htruthy, if_pos ⟨hsyncable, htruthy⟩]
    apply toldBy_bind probeTried_only
    rintro ⟨status, reason⟩ t _ ht
    rw [← ht.orders] at hrow
    cases status with
    | some status => exact syncProbed_toldBy svc refresh start status reason hrow hopen
    | none =>
      apply toldBy_none
      exact syncByStatus_tells svc brokerOrder refresh afterHours start reason rfl
        ⟨order, hrow, rfl, rfl⟩ hopen
  · rw [if_neg htruthy, if_neg fun h => htruthy h.2]
    apply toldBy_none
    exact syncByStatus_tells svc brokerOrder refresh afterHours start none rfl
      ⟨order, hrow, rfl, rfl⟩ hopen

theorem syncOrder_toldBy (refresh afterHours : Bool) (start : Time) {orderRequestId : UUID}
    (hrow : s.sync.store.orders order.orderRequestId = some order)
    (hlinked : Linked brokerOrder.brokerOrderId orderRequestId s.sync) :
    ToldBy refuses order.orderRequestId order.status
      (svc.syncOrder order brokerOrder refresh afterHours start)
      (finding order brokerOrder refresh) s := by
  unfold OrderSyncService.syncOrder finding
  by_cases hterminal : order.status ∈ terminalStatuses
  · rw [if_pos hterminal, if_pos hterminal]
    exact syncTerminal_toldBy svc refresh start hrow hlinked hterminal
  · rw [if_neg hterminal, if_neg hterminal]
    split
    · next hsyncable =>
        exact syncActive_toldBy svc refresh afterHours start hrow hsyncable hterminal
    · next hsyncable =>
      rw [probeFinding, if_neg fun h => hsyncable h.1]
      apply toldBy_none
      apply Program.alone_ret
      rw [returns_ok]
      exact tells_same rfl ⟨order, hrow, rfl, rfl⟩ rfl rfl hterminal

theorem resolveAfterHours_only (afterHours : Option Bool) :
    (OrderSyncService.resolveAfterHours afterHours).Only Unwriting fun _ => True := by
  cases afterHours with
  | some hours => trivial
  | none => exact ⟨trivial, fun _ => trivial⟩

theorem syncOrderPostSubmit_toldBy (brokerOrderId : UUID) (refresh : Bool)
    (afterHours : Option Bool) {id : UUID} (hkeyed : Orders.Keyed s.sync.store)
    (hlinked : Linked brokerOrderId id s.sync) (hrow : s.sync.store.orders id = some order) :
    ToldBy refuses id order.status (svc.syncOrderPostSubmit brokerOrderId refresh afterHours)
      (looks brokerOrderId refresh afterHours) s := by
  have hid : order.orderRequestId = id := hkeyed id order hrow
  have hnow : (now : Code Time).Only Unwriting fun _ => True := ⟨trivial, fun _ => trivial⟩
  apply toldBy_bind hnow
  intro start t₁ _ h₁
  apply toldBy_bind (resolveAfterHours_only afterHours)
  intro hours t₂ _ h₂
  have hmoved := Unmoved.trans _ _ _ h₁ h₂
  obtain ⟨brokerOrder, hget, hbelongs⟩ := hmoved.linked _ _ hlinked
  rw [← hmoved.orders] at hrow
  apply toldBy_call (show Unwriting (.brokerOrdersGet brokerOrderId) from trivial)
  intro c
  have hfound : (exec refuses c (.brokerOrdersGet brokerOrderId) t₂).1 = some brokerOrder := hget
  have hstays : (exec refuses c (.brokerOrdersGet brokerOrderId) t₂).2 = t₂ := rfl
  rw [hfound, hstays]
  apply toldBy_call
    (show Unwriting (.orders (.ordersGet brokerOrder.orderRequestId)) from trivial)
  intro c'
  have hread : (exec refuses c' (.orders (.ordersGet brokerOrder.orderRequestId)) t₂).1 =
      some order := by
    rw [hbelongs]
    exact hrow
  rw [hread]
  have h₃ : Unmoved t₂ (exec refuses c' (.orders (.ordersGet brokerOrder.orderRequestId)) t₂).2 :=
    exec_unmoved c' t₂ trivial
  have hkept : Linked brokerOrder.brokerOrderId brokerOrder.orderRequestId t₂.sync := by
    rw [getBrokerOrder_id hget]
    exact ⟨brokerOrder, hget, rfl⟩
  subst hid
  rw [← h₃.orders] at hrow
  exact syncOrder_toldBy svc refresh hours start hrow (h₃.linked _ _ hkept)

end

/-- The status stored for an order. -/
def storedStatus (id : UUID) (s : State) : Option OrderStatus :=
  (s.sync.store.orders id).map (·.status)

/-- The result of a call from `s` to `t` agrees with what is stored. -/
structure Faithful (id : UUID) (s t : State) (result : SyncOrderResult) : Prop where
  current : storedStatus id t = some result.currentStatus
  changed : result.statusChanged = true ↔ storedStatus id t ≠ storedStatus id s
  terminal : result.terminal = true ↔
    ∃ status ∈ terminalStatuses, storedStatus id t = some status

theorem storedStatus_eq_some {id : UUID} {status : OrderStatus} {s : State}
    (hkeyed : Orders.Keyed s.sync.store) : storedStatus id s = some status ↔ Holds id status s := by
  rw [storedStatus, Option.map_eq_some_iff]
  constructor
  · rintro ⟨row, hrow, hstatus⟩
    exact ⟨row, hrow, hkeyed id row hrow, hstatus⟩
  · rintro ⟨row, hrow, -, hstatus⟩
    exact ⟨row, hrow, hstatus⟩

theorem faithful_iff {id : UUID} {before : OrderStatus} {s t : State} {result : SyncOrderResult}
    (hbefore : storedStatus id s = some before) (ht : Orders.Keyed t.sync.store) :
    Faithful id s t result ↔ Tells id before result t := by
  have hterminal (h : storedStatus id t = some result.currentStatus) :
      (∃ status ∈ terminalStatuses, storedStatus id t = some status) ↔
        result.currentStatus ∈ terminalStatuses := by
    simp [h]
  constructor
  · intro h
    refine ⟨(storedStatus_eq_some ht).mp h.current, ?_, ?_⟩
    · rw [h.changed, h.current, hbefore, ne_eq, Option.some.injEq]
    · rw [h.terminal, hterminal h.current]
  · intro h
    have hcurrent := (storedStatus_eq_some ht).mpr h.current
    refine ⟨hcurrent, ?_, ?_⟩
    · rw [h.changed, hcurrent, hbefore, ne_eq, ne_eq, Option.some.injEq]
    · rw [h.terminal, hterminal hcurrent]

theorem exec_keyed (op : Op) (c : Choice) (s : Sync.State) (hs : Orders.Keyed s.store) :
    Orders.Keyed (Sync.exec c op s).2.store := by
  cases op with
  | orders op => exact Orders.exec_keyed c.orders op hs
  | brokerOrdersUpdate id status synced updated =>
    unfold Orders.Keyed Sync.exec
    rw [updateBrokerOrder_orders]
    exact hs
  | _ => exact hs

/-- The result of a call is faithful exactly if the status that its reads show suits. -/
theorem syncOrderPostSubmit_faithful_iff (svc : OrderSyncService) (refuses : Orders.Refusals)
    (cs : Nat → Choice) (brokerOrderId : UUID) (refresh : Bool) (afterHours : Option Bool)
    {id : UUID} {order : OrderRequestEntity} {s : State} (hkeyed : Orders.Keyed s.sync.store)
    (hlinked : Linked brokerOrderId id s.sync) (horder : s.sync.store.orders id = some order)
    {result : SyncOrderResult} {cs' : Nat → Choice} {t : State}
    (hrun : runs refuses (svc.syncOrderPostSubmit brokerOrderId refresh afterHours) cs s =
      (.ok result, cs', t)) :
    Faithful id s t result ↔ ∀ target,
      (runs refuses (looks brokerOrderId refresh afterHours) cs s).1 = .ok (some target) →
        Suits refuses order.status target s.writes := by
  have htold : ToldBy refuses id order.status
      (svc.syncOrderPostSubmit brokerOrderId refresh afterHours)
      (looks brokerOrderId refresh afterHours) s :=
    syncOrderPostSubmit_toldBy svc brokerOrderId refresh afterHours hkeyed hlinked horder
  replace htold := htold cs
  have hafter :
      Orders.Keyed (runs refuses (svc.syncOrderPostSubmit brokerOrderId refresh afterHours)
      cs s).2.2.sync.store :=
    (faces_keeps exec_keyed (svc.syncOrderPostSubmit brokerOrderId refresh afterHours) hkeyed).run
      fun _ _ _ => trivial
  rw [hrun] at htold hafter
  have hbefore : storedStatus id s = some order.status := congrArg (Option.map _) horder
  rw [faithful_iff hbefore hafter]
  exact htold result rfl

/-! A sell of ten shares that is to be reconciled. -/

def tenToReconcile : State where
  sync := { tenSoldAtBroker with
    store := { tenSoldAtBroker.store with
      orders := (Store.holding (tenSold .reconcileRequired) 0).orders } }

/-- The linked rows show so many shares. -/
def showing (quantity : ℚ) : Nat → Choice :=
  (tenReported [{ filledQuantity := quantity }] .submitted).choices

abbrev tenSynced (quantity : ℚ) : Except PyError SyncOrderResult × ((Nat → Choice) × State) :=
  runs (fun _ => none) (plainService.syncOrderPostSubmit 4 false (some false)) (showing quantity)
    tenToReconcile

theorem tenSynced_returns {quantity : ℚ} {found : OrderStatus × Bool}
    (h : (tenSynced quantity).1.toOption.map (fun result =>
      (result.currentStatus, result.statusChanged)) = some found) :
    ∃ result, (tenSynced quantity).1 = .ok result ∧ result.statusChanged = found.2 := by
  obtain ⟨result, hresult, hfound⟩ := Option.map_eq_some_iff.mp h
  cases hrun : (tenSynced quantity).1 with
  | error e =>
    rw [hrun] at hresult
    cases hresult
  | ok returned =>
    rw [hrun] at hresult
    obtain rfl := Option.some.inj hresult
    exact ⟨returned, rfl, congrArg Prod.snd hfound⟩

/-- Linked rows show all ten shares. -/
theorem syncOrderPostSubmit_faithful_ten :
    ∃ result, (tenSynced 10).1 = .ok result ∧
      Faithful 1 tenToReconcile (tenSynced 10).2.2 result := by
  have hreturned : (tenSynced 10).1.toOption.map (fun result =>
      (result.currentStatus, result.statusChanged)) = some (.filled, true) := by
    decide +kernel
  have hshown : (runs (fun _ => none) (looks 4 false (some false)) (showing 10)
      tenToReconcile).1.toOption = some (some .filled) := by
    decide +kernel
  obtain ⟨result, hresult, -⟩ := tenSynced_returns hreturned
  refine ⟨result, hresult, ?_⟩
  apply (syncOrderPostSubmit_faithful_iff plainService (fun _ => none) (showing 10) 4 false
    (some false) (Orders.keyed_holding (tenSold .reconcileRequired) 0) tenSoldAtBroker_linked rfl
    (Prod.ext hresult rfl)).mpr
  intro target htarget
  rw [htarget] at hshown
  obtain rfl := Option.some.inj (Option.some.inj hshown)
  have hleaves : leaves (fun _ => none) .reconcileRequired .filled 0 = true := by decide
  have hopen : OrderStatus.reconcileRequired ∉ terminalStatuses := by decide
  exact iff_of_true hleaves hopen

/-- Linked rows show five of the ten shares, a status that the order cannot be moved to. -/
theorem unmoved_reported_changed :
    ∃ result, (tenSynced 5).1 = .ok result ∧
      ¬ Faithful 1 tenToReconcile (tenSynced 5).2.2 result := by
  have hreturned : (tenSynced 5).1.toOption.map (fun result =>
      (result.currentStatus, result.statusChanged)) = some (.reconcileRequired, true) := by
    decide +kernel
  have hstored : storedStatus 1 (tenSynced 5).2.2 = some .reconcileRequired := by
    decide +kernel
  obtain ⟨result, hresult, hchanged⟩ := tenSynced_returns hreturned
  refine ⟨result, hresult, fun h => ?_⟩
  exact h.changed.mp hchanged hstored

end AgentTrading.Sync.ReportedStatus
