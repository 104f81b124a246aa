import AgentTrading.Sync.Cleanup

/-! What the cleanups check before they write. Each reads the broker orders of an order right before
it moves the order, and goes on only where the reply lets it; what is in between is a transition,
which reads none of this again. -/
namespace AgentTrading.Sync.Cleanup
open Domain Repositories Library

/-- A row that is read has the identifier it is read by, and the status it is listed for. -/
def SaneReply (op : Op) (reply : Reply op) : Prop :=
  match op, reply with
  | .orders op, reply => Orders.SaneReply op reply
  | .ordersList statuses _, .ok rows => ∀ row ∈ rows, row.status ∈ statuses
  | _, _ => True

/-- A write of a status in `P` to the order. -/
def Moves (P : OrderStatus → Prop) (orderRequestId : UUID) (op : Op) : Prop :=
  ∃ inner, op = .orders inner ∧ inner.WritesTo P orderRequestId

def ListsBrokerOrders (orderRequestId : UUID) (op : Op) : Prop :=
  op = .brokerOrdersListByOrderRequest orderRequestId

/-- A cleanup's writes; what a submission writes is its own affair. -/
def Acts (P : OrderStatus → Prop) (orderRequestId : UUID) (job : Job) (op : Op) : Prop :=
  match job with
  | .submitOrderToBroker .. => False
  | _ => Moves P orderRequestId op

/-- The replies after which a cleanup goes on to write: no broker order at all, or none that has
its native identifier. -/
def Passes (job : Job) (op : Op) (reply : Reply op) : Prop :=
  match job, op, reply with
  | .expireEodOrphanOrders _, .brokerOrdersListByOrderRequest _, reply => reply = .ok []
  | .rejectStalePendingSubmitOrders, .brokerOrdersListByOrderRequest _, reply =>
    ∃ items, reply = .ok items ∧ ∀ item ∈ items, item.brokerNativeOrderId = none
  | _, _, _ => False

theorem exec_sane (c : Choice) (op : Op) (s : State) (hs : Orders.Keyed s.store) :
    SaneReply op (exec c op s).1 := by
  cases op with
  | orders op => exact Orders.exec_sane c.orders op s.store hs
  | ordersList statuses limit =>
    simp only [exec, Choice.read]
    cases c.failure with
    | some e => trivial
    | none =>
      intro row hrow
      have hfiltered := List.mem_of_mem_take hrow
      simpa using (List.mem_filter.mp hfiltered).2
  | brokerOrdersListByOrderRequest id => trivial
  | reconciliationsGetLatestStatusByOrder id => trivial

section

variable {P : OrderStatus → Prop} {id : UUID} {check : Op → Prop}
variable {passes : (op : Op) → Reply op → Prop}

theorem ofOrders_only (p : Orders.Code α) :
    (ofOrders p).Only (fun op => ∃ inner, op = .orders inner) fun _ => True :=
  (Program.only_true p).lift fun op _ => ⟨op, rfl⟩

theorem transitioned_only (settings : Settings) (order : OrderRequestEntity) (target : OrderStatus)
    (args : Orders.TransitionArgs) :
    (transitioned settings order target args).Only (fun op => ∃ inner, op = .orders inner)
      fun _ => True := by
  apply Program.Only.handle (Q := fun _ => True)
  · exact (ofOrders_only _).bind (fun _ _ => trivial) fun _ _ => trivial
  · exact fun _ _ => trivial
  · exact fun _ _ => trivial

theorem transitioned_unpoised (settings : Settings) (order : OrderRequestEntity)
    (target : OrderStatus) (args : Orders.TransitionArgs) (hne : order.orderRequestId ≠ id) :
    ¬ (transitioned settings order target args).Poised SaneReply (Moves P id) check := by
  have hlone : ¬ (Orders.transitionTo settings.service order target args).Poised Orders.SaneReply
      (Orders.Op.WritesTo P id) (fun _ => False) :=
    Orders.transitionTo_unpoised settings.service order target args hne
  apply Program.unpoised_handle
  · apply Program.unpoised_bind
    · refine Program.unpoised_lift (f := Op.orders) (g := fun _ r => r) (fun _ _ h => h) ?_
        (fun _ h => h.elim) hlone
      rintro op ⟨inner, hinner, hwrites⟩
      injection hinner with hinner
      rw [hinner]
      exact hwrites
    · exact fun _ h => h
  · exact fun _ h => h

/-! The broker orders are read before each write. -/

theorem transitioned_checked (settings : Settings) (order : OrderRequestEntity)
    (target : OrderStatus) (args : Orders.TransitionArgs) {act : Op → Prop}
    (hcheck : ∀ inner, ¬ check (.orders inner)) :
    (transitioned settings order target args).Checked SaneReply act check passes := by
  apply (transitioned_only settings order target args).checked
  rintro _ ⟨inner, rfl⟩
  exact hcheck inner

/-- A step of a cleanup that reads the broker orders of an order before it goes on to write it. -/
theorem reads_careful {order : OrderRequestEntity}
    {k : Except PyError (List BrokerOrderEntity) → Code α}
    (hchecked : ∀ r, (k r).Checked SaneReply (Moves P id) (ListsBrokerOrders id) passes)
    (hother : ∀ r, order.orderRequestId ≠ id →
      ¬ (k r).Poised SaneReply (Moves P id) (ListsBrokerOrders id))
    (hpasses : ∀ r, ¬ passes (.brokerOrdersListByOrderRequest order.orderRequestId) r →
      ¬ (k r).Poised SaneReply (Moves P id) (ListsBrokerOrders id)) :
    (Program.call (.brokerOrdersListByOrderRequest order.orderRequestId) k).Careful SaneReply
      (Moves P id) (ListsBrokerOrders id) passes := by
  apply Program.careful_call
  · rintro ⟨inner, hinner, -⟩
    cases hinner
  · exact fun r _ => hchecked r
  · intro r _ hpoised
    constructor
    · by_contra hno
      apply hother r _ hpoised
      rintro rfl
      exact hno rfl
    · by_contra hno
      exact hpasses r hno hpoised

theorem orders_not_listing (inner : Orders.Op) : ¬ ListsBrokerOrders id (.orders inner) := by
  rintro ⟨⟩

/-- What follows the look for an orphan: a write if it is one, or the next order. -/
theorem isEodOrphan_careful {order : OrderRequestEntity} (cutoff : Time) {f : Bool → Code α}
    (hpasses : ∀ r, passes (.brokerOrdersListByOrderRequest order.orderRequestId) r ↔ r = .ok [])
    (hfalse : (f false).Careful SaneReply (Moves P id) (ListsBrokerOrders id) passes)
    (htrue : (f true).Checked SaneReply (Moves P id) (ListsBrokerOrders id) passes)
    (hother : order.orderRequestId ≠ id →
      ¬ (f true).Poised SaneReply (Moves P id) (ListsBrokerOrders id)) :
    ((isEodOrphan order cutoff).bind f).Careful SaneReply (Moves P id) (ListsBrokerOrders id)
      passes := by
  unfold isEodOrphan
  cases order.createdAt with
  | none => exact hfalse
  | some createdAt =>
    dsimp only
    split
    · exact hfalse
    · split
      · exact hfalse
      · apply reads_careful
        · intro r
          rcases r with e | (_ | ⟨item, items⟩)
          · trivial
          · exact htrue
          · exact hfalse.checked
        · intro r hne
          rcases r with e | (_ | ⟨item, items⟩)
          · exact fun h => h
          · exact hother hne
          · exact hfalse.unpoised
        · intro r hr
          rcases r with e | (_ | ⟨item, items⟩)
          · exact fun h => h
          · exact (hr ((hpasses _).mpr rfl)).elim
          · exact hfalse.unpoised

theorem expirePending_careful (settings : Settings) (cutoff now : Time)
    (hpasses : ∀ other r, passes (.brokerOrdersListByOrderRequest other) r ↔ r = .ok [])
    (orders : List OrderRequestEntity) (expired : Nat) :
    (expirePending settings cutoff now orders expired).Careful SaneReply (Moves P id)
      (ListsBrokerOrders id) passes := by
  induction orders generalizing expired with
  | nil => exact Program.careful_ret _
  | cons order rest ih =>
    apply isEodOrphan_careful cutoff (hpasses _)
    · exact ih _
    · exact (transitioned_checked settings order _ _ orders_not_listing).bind fun done => ih _
    · intro hne
      apply Program.unpoised_bind (transitioned_unpoised settings order _ _ hne)
      exact fun done => (ih _).unpoised

theorem reconciliationStatus_only (order : UUID) :
    (reconciliationStatus order).Only (· = .reconciliationsGetLatestStatusByOrder order)
      fun _ => True := by
  refine ⟨rfl, fun r => ?_⟩
  cases r <;> trivial

theorem reconciliationStatus_unpoised (order : UUID) :
    ¬ (reconciliationStatus order).Poised SaneReply (Moves P id) check := by
  apply (reconciliationStatus_only order).unpoised
  rintro _ rfl ⟨inner, hinner, -⟩
  cases hinner

theorem expireReconcile_careful (settings : Settings) (cutoff now : Time)
    (hpasses : ∀ other r, passes (.brokerOrdersListByOrderRequest other) r ↔ r = .ok [])
    (orders : List OrderRequestEntity) (expired : Nat) :
    (expireReconcile settings cutoff now orders expired).Careful SaneReply (Moves P id)
      (ListsBrokerOrders id) passes := by
  induction orders generalizing expired with
  | nil => exact Program.careful_ret _
  | cons order rest ih =>
    apply isEodOrphan_careful cutoff (hpasses _)
    · exact ih _
    · apply (reconciliationStatus_only order.orderRequestId).checked_bind
      · rintro _ rfl ⟨⟩
      · intro recStatus
        exact (transitioned_checked settings order _ _ orders_not_listing).bind fun done => ih _
    · intro hne
      apply Program.unpoised_bind (reconciliationStatus_unpoised order.orderRequestId)
      intro recStatus
      apply Program.unpoised_bind (transitioned_unpoised settings order _ _ hne)
      exact fun done => (ih _).unpoised

theorem now_no_move : ¬ Moves P id (.orders .now) := by
  rintro ⟨inner, hinner, hwrites⟩
  injection hinner with hinner
  rw [← hinner] at hwrites
  obtain ⟨_, _, _, _, _, -, hnow⟩ := hwrites
  cases hnow

theorem read_no_move {op : Op} (hop : ∀ inner, op ≠ .orders inner) : ¬ Moves P id op := by
  rintro ⟨inner, hinner, -⟩
  exact hop inner hinner

theorem list_no_move (statuses : List OrderStatus) (limit : Nat) :
    ¬ Moves P id (.ordersList statuses limit) :=
  read_no_move fun _ h => (by cases h)

theorem list_not_listing (statuses : List OrderStatus) (limit : Nat) :
    ¬ ListsBrokerOrders id (.ordersList statuses limit) := by
  rintro ⟨⟩

theorem orRaise_careful {act : Op → Prop} {f : α → Code β} (r : Except PyError α)
    (hf : ∀ a, (f a).Careful SaneReply act check passes) :
    ((orRaise r).bind f).Careful SaneReply act check passes := by
  cases r with
  | ok a => exact hf a
  | error e => exact Program.careful_raise e

theorem expireEodOrphanOrders_careful (settings : Settings) (ageThreshold : Time)
    (hpasses : ∀ other r, passes (.brokerOrdersListByOrderRequest other) r ↔ r = .ok []) :
    (expireEodOrphanOrders settings ageThreshold).Careful SaneReply (Moves P id)
      (ListsBrokerOrders id) passes := by
  apply Program.careful_other now_no_move (orders_not_listing _)
  intro now
  apply Program.careful_other (list_no_move _ _) (list_not_listing _ _)
  intro pendingListed
  apply orRaise_careful
  intro pendingOrders
  apply (expirePending_careful settings _ _ hpasses _ _).bind
  intro expiredPending
  apply Program.careful_other (list_no_move _ _) (list_not_listing _ _)
  intro reconcileListed
  apply orRaise_careful
  intro reconcileOrders
  apply (expireReconcile_careful settings _ _ hpasses _ _).bind
  exact fun expiredReconcile => Program.careful_ret _

theorem rejectStale_careful (settings : Settings) (cutoff : Time)
    (hpasses : ∀ other r, passes (.brokerOrdersListByOrderRequest other) r ↔
      ∃ items, r = .ok items ∧ ∀ item ∈ items, item.brokerNativeOrderId = none)
    (orders rejected : List OrderRequestEntity) :
    (rejectStale settings cutoff orders rejected).Careful SaneReply (Moves P id)
      (ListsBrokerOrders id) passes := by
  induction orders generalizing rejected with
  | nil => exact Program.careful_ret _
  | cons order rest ih =>
    unfold rejectStale
    split
    · exact ih _
    · split
      · exact ih _
      · apply reads_careful
        · intro r
          rcases r with e | items
          · trivial
          · simp only [orRaise, Program.bind_eq, Program.ret_bind]
            split
            · exact (ih _).checked
            · exact (transitioned_checked settings order _ _ orders_not_listing).bind
                fun done => ih _
        · intro r hne
          rcases r with e | items
          · exact fun h => h
          · simp only [orRaise, Program.bind_eq, Program.ret_bind]
            split
            · exact (ih _).unpoised
            · apply Program.unpoised_bind (transitioned_unpoised settings order _ _ hne)
              exact fun done => (ih _).unpoised
        · intro r hr
          rcases r with e | items
          · exact fun h => h
          · simp only [orRaise, Program.bind_eq, Program.ret_bind]
            split
            · exact (ih _).unpoised
            · next hnative =>
              refine (hr ((hpasses _ _).mpr ⟨items, rfl, fun item hitem => ?_⟩)).elim
              by_contra hsome
              apply hnative
              rw [List.any_eq_true]
              exact ⟨item, hitem, Option.isSome_iff_ne_none.mpr hsome⟩

theorem rejectStalePendingSubmitOrders_careful (settings : Settings)
    (hpasses : ∀ other r, passes (.brokerOrdersListByOrderRequest other) r ↔
      ∃ items, r = .ok items ∧ ∀ item ∈ items, item.brokerNativeOrderId = none) :
    (rejectStalePendingSubmitOrders settings).Careful SaneReply (Moves P id)
      (ListsBrokerOrders id) passes := by
  apply Program.careful_other now_no_move (orders_not_listing _)
  intro now
  apply Program.careful_other (list_no_move _ _) (list_not_listing _ _)
  intro pendingListed
  apply orRaise_careful
  exact fun pendingOrders => rejectStale_careful settings _ hpasses pendingOrders []

/-- Every job that moves an order has read its broker orders, and its reply let it go on. -/
theorem code_careful (settings : Settings) (P : OrderStatus → Prop) (id : UUID) (job : Job) :
    (job.code settings).Careful SaneReply (Acts P id job) (ListsBrokerOrders id) (Passes job) := by
  cases job with
  | expireEodOrphanOrders ageThreshold =>
    apply (expireEodOrphanOrders_careful settings ageThreshold fun _ _ => Iff.rfl).bind
    exact fun _ => Program.careful_ret _
  | rejectStalePendingSubmitOrders =>
    apply (rejectStalePendingSubmitOrders_careful settings fun _ _ => Iff.rfl).bind
    exact fun _ => Program.careful_ret _
  | submitOrderToBroker order request actorType actorId =>
    exact (Program.only_true _).careful_of_never fun _ _ h => h

end

/-- The statuses a job may write. -/
def Job.targets : Job → List OrderStatus
  | .expireEodOrphanOrders _ => [.expired]
  | .rejectStalePendingSubmitOrders => [.rejected]
  | .submitOrderToBroker .. => Orders.submitTargets

/-- A status that is written is in `P`, and it is written under a version. -/
def Puts (P : OrderStatus → Prop) (op : Op) : Prop :=
  ∀ inner, op = .orders inner → inner.Puts P

section

variable {P : OrderStatus → Prop}

theorem puts_of_read {op : Op} (h : ∀ inner, op ≠ .orders inner) : Puts P op :=
  fun inner hinner => (h inner hinner).elim

theorem ofOrders_puts {Q : Except PyError α → Prop} {p : Orders.Code α}
    (hp : p.Only (Orders.Op.Puts P) Q) : (ofOrders p).Only (Puts P) Q := by
  apply hp.lift
  rintro op hop inner hinner
  injection hinner with hinner
  exact hinner ▸ hop

theorem transitioned_puts (settings : Settings) (order : OrderRequestEntity) {target : OrderStatus}
    (args : Orders.TransitionArgs) (htarget : P target) :
    (transitioned settings order target args).Only (Puts P) fun _ => True := by
  apply Program.Only.handle (Q := fun _ => True)
  · exact (ofOrders_puts (Orders.transitionTo_puts settings.service order args htarget)).bind
      (fun _ _ => trivial) fun _ _ => trivial
  · exact fun _ _ => trivial
  · exact fun _ _ => trivial

theorem isEodOrphan_puts (order : OrderRequestEntity) (cutoff : Time) :
    (isEodOrphan order cutoff).Only (Puts P) fun _ => True := by
  unfold isEodOrphan
  split
  · trivial
  · split
    · trivial
    · split
      · trivial
      · refine ⟨puts_of_read fun _ h => (by cases h), fun r => ?_⟩
        cases r <;> trivial

theorem expirePending_puts (settings : Settings) (cutoff now : Time)
    (orders : List OrderRequestEntity) (expired : Nat) (hexpired : P .expired) :
    (expirePending settings cutoff now orders expired).Only (Puts P) fun _ => True := by
  induction orders generalizing expired with
  | nil => trivial
  | cons order rest ih =>
    apply (isEodOrphan_puts order cutoff).bind
    · intro orphan _
      cases orphan with
      | false => exact ih _
      | true =>
        exact (transitioned_puts settings order _ hexpired).bind (fun _ _ => ih _) fun _ _ =>
          trivial
    · exact fun _ _ => trivial

theorem expireReconcile_puts (settings : Settings) (cutoff now : Time)
    (orders : List OrderRequestEntity) (expired : Nat) (hexpired : P .expired) :
    (expireReconcile settings cutoff now orders expired).Only (Puts P) fun _ => True := by
  induction orders generalizing expired with
  | nil => trivial
  | cons order rest ih =>
    apply (isEodOrphan_puts order cutoff).bind
    · intro orphan _
      cases orphan with
      | false => exact ih _
      | true =>
        apply Program.Only.bind (Q := fun _ => True)
        · apply (reconciliationStatus_only order.orderRequestId).mono
          · rintro _ rfl
            exact puts_of_read fun _ h => (by cases h)
          · exact fun _ => id
        · intro recStatus _
          exact (transitioned_puts settings order _ hexpired).bind (fun _ _ => ih _)
            fun _ _ => trivial
        · exact fun _ _ => trivial
    · exact fun _ _ => trivial

theorem rejectStale_puts (settings : Settings) (cutoff : Time)
    (orders rejected : List OrderRequestEntity) (hrejected : P .rejected) :
    (rejectStale settings cutoff orders rejected).Only (Puts P) fun _ => True := by
  induction orders generalizing rejected with
  | nil => trivial
  | cons order rest ih =>
    unfold rejectStale
    split
    · exact ih _
    · split
      · exact ih _
      · refine ⟨puts_of_read fun _ h => (by cases h), fun r => ?_⟩
        rcases r with e | items
        · trivial
        · simp only [orRaise, Program.bind_eq, Program.ret_bind]
          split
          · exact ih _
          · exact (transitioned_puts settings order _ hrejected).bind (fun _ _ => ih _)
              fun _ _ => trivial

theorem now_puts : Puts P (.orders .now) := by
  rintro _ ⟨⟩ _ _ _ _ _ _ ⟨⟩

theorem code_puts (settings : Settings) (job : Job) :
    (job.code settings).Only (Puts (· ∈ job.targets)) fun _ => True := by
  cases job with
  | expireEodOrphanOrders ageThreshold =>
    refine ⟨now_puts, fun now => ⟨puts_of_read fun _ h => (by cases h), fun r => ?_⟩⟩
    rcases r with e | pendingOrders
    · trivial
    · simp only [orRaise, Program.bind_eq, Program.ret_bind, Program.bind_assoc]
      apply (expirePending_puts settings _ _ _ _ List.mem_cons_self).bind
      · intro expiredPending _
        refine ⟨puts_of_read fun _ h => (by cases h), fun r => ?_⟩
        rcases r with e | reconcileOrders
        · trivial
        · simp only [Program.ret_bind]
          exact (expireReconcile_puts settings _ _ _ _ List.mem_cons_self).bind
            (fun _ _ => trivial) fun _ _ => trivial
      · exact fun _ _ => trivial
  | rejectStalePendingSubmitOrders =>
    refine ⟨now_puts, fun now => ⟨puts_of_read fun _ h => (by cases h), fun r => ?_⟩⟩
    rcases r with e | pendingOrders
    · trivial
    · exact (rejectStale_puts settings _ _ _ List.mem_cons_self).bind (fun _ _ => trivial)
        fun _ _ => trivial
  | submitOrderToBroker order request actorType actorId =>
    exact (ofOrders_puts (Orders.submitOrderToBroker_puts settings.service order _ request
      actorType actorId)).bind (fun _ _ => trivial) fun _ _ => trivial

end

end AgentTrading.Sync.Cleanup
