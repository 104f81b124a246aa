import AgentTrading.Orders.Submission

/-! A transition stores no status but its target, and besides that it only records; from a
re-fetched row, too. -/
namespace AgentTrading.Orders
open Domain Repositories Library

/-- Each order is stored under its own identifier. -/
def Keyed (s : Store) : Prop := ∀ id row, s.orders id = some row → row.orderRequestId = id

/-- Records, re-fetches, and writes of a status in `P`. -/
def Op.Toward (P : OrderStatus → Prop) (op : Op) : Prop :=
  op.Recording ∨ (∃ id, op = .ordersGet id) ∨ ∃ id status rc rm expected submittedAt,
    P status ∧ op = .ordersUpdateStatus id status rc rm expected submittedAt

variable {P : OrderStatus → Prop}

theorem only_toward {Q : Except PyError α → Prop} {p : Code α}
    (hp : p.Only Op.Recording Q) : p.Only (Op.Toward P) Q :=
  hp.mono (fun _ => Or.inl) fun _ => id

theorem noting_toward {Q : Except PyError α → Prop} {p : Code α}
    (hp : p.Only Op.Noting Q) : p.Only (Op.Toward P) Q :=
  hp.mono (fun _ h => Or.inl h.recording) fun _ => id

theorem refetch_toward (order : OrderRequestEntity) (target : OrderStatus)
    (args : TransitionArgs) (submittedAt : Option Time) (id : UUID) (lastAttempt : Bool) :
    (refetch order target args submittedAt id lastAttempt).Only (Op.Toward P)
      fun r => ∀ row, r = .ok row → row.status = target := by
  refine ⟨Or.inr (Or.inl ⟨id, rfl⟩), fun latest => ?_⟩
  cases latest with
  | none => simp
  | some latest =>
    by_cases h : latest.status ∈ terminalStates
    · simp [h]
    · simp only [Program.ret_bind, h, if_false]
      refine (noting_toward (replaceStatus_only ..)).bind (fun row hrow => ?_) (by simp)
      obtain ⟨_, _, hrow⟩ := hrow
      obtain rfl := Except.ok.inj hrow
      exact (noting_toward (pause_only _)).bind (fun _ _ => by simp) (by simp)

theorem retryUpdate_toward (order : OrderRequestEntity) (target : OrderStatus)
    (args : TransitionArgs) (submittedAt : Option Time) (n : Nat) (after : OrderRequestEntity)
    (lastExc : Option PyError) (hafter : after.status = target) (htarget : P target) :
    (retryUpdate order target args submittedAt n after lastExc).Only (Op.Toward P)
      fun r => ∀ row, r = .ok row → row.status = target := by
  induction n generalizing after lastExc with
  | zero =>
    cases lastExc with
    | none => simpa [retryUpdate] using hafter
    | some e => simp [retryUpdate]
  | succ n ih =>
    refine ⟨Or.inr (Or.inr ⟨_, target, _, _, _, _, htarget, by rw [hafter]⟩), fun outcome => ?_⟩
    rcases outcome with e | ⟨⟩
    · cases e with
      | versionConflict id expected actual =>
        exact (refetch_toward ..).bind (fun rebuilt h => ih rebuilt _ (h rebuilt rfl)) (by simp)
      | _ => simp
    · simpa using hafter

theorem autoTrigger_toward (service : Bool) (after : OrderRequestEntity) {target : OrderStatus}
    (args : TransitionArgs) (htarget : target ≠ .reconcileRequired) :
    autoTrigger service after target args = .ret () := by
  simp [autoTrigger, htarget]

theorem transitionToCore_toward (service : Bool) (order : OrderRequestEntity)
    {target : OrderStatus} (args : TransitionArgs) (htarget : P target)
    (hne : target ≠ .reconcileRequired) :
    (transitionToCore service order target args).Only (Op.Toward P)
      fun r => ∀ row, r = .ok row → row.status = target := by
  refine (noting_toward (stamp_only _)).bind (fun submittedAt _ => ?_) (by simp)
  refine (noting_toward (replaceStatus_only ..)).bind (fun after hafter => ?_) (by simp)
  obtain ⟨_, _, hafter⟩ := hafter
  obtain rfl := Except.ok.inj hafter
  refine (retryUpdate_toward order target args submittedAt _ _ none rfl htarget).bind
    (fun written hwritten => ?_) (by simp)
  simp only [recordTransition, autoTrigger_toward service _ args hne, Program.bind_eq]
  refine Program.Only.bind (Q := fun _ => True) ?_ (fun _ _ => hwritten) (by simp)
  refine (only_toward (recordOrderStateEvent_only ..)).bind (fun _ _ => ?_) (by simp)
  exact (noting_toward (recordStatusChange_only ..)).bind (fun _ _ => trivial) (by simp)

theorem transitionTo_toward (service : Bool) (order : OrderRequestEntity)
    {target : OrderStatus} (args : TransitionArgs) (htarget : P target)
    (hne : target ≠ .reconcileRequired) : (transitionTo service order target args).Only
      (Op.Toward P) fun r => ∀ row, r = .ok row → row.status = target := by
  unfold transitionTo
  cases validateTransition order.orderRequestId order.status target with
  | error e => simp [orRaise]
  | ok u => exact transitionToCore_toward service order _ htarget hne

theorem transitionToAuthoritative_toward (service : Bool) (order : OrderRequestEntity)
    {target : OrderStatus} (runId : UUID) (message : Option String) (maxRetries : Nat)
    (htarget : P target) (hne : target ≠ .reconcileRequired) :
    (transitionToAuthoritative service order target runId message maxRetries).Only
      (Op.Toward P) fun r => ∀ row, r = .ok row → row.status = target := by
  unfold transitionToAuthoritative
  cases validateAuthoritativeTarget target with
  | error e => simp [orRaise]
  | ok u =>
    simp only [orRaise, Program.bind_eq, Program.ret_bind]
    split
    · simp
    · exact transitionToCore_toward service order _ htarget hne

/-- Each row of `s` is in `t` as it was or has moved to a status in `P`; nothing else but the
records has changed. -/
structure MovedToward (P : OrderStatus → Prop) (s t : Store) : Prop where
  rows : ∀ id, t.orders id = s.orders id ∨ ∃ row, t.orders id = some row ∧ P row.status
  keyed : Keyed s → Keyed t
  brokerOrders : t.brokerOrders = s.brokerOrders
  runs : t.runs = s.runs
  locks : t.locks = s.locks
  orderLinks : t.orderLinks = s.orderLinks

namespace MovedToward

theorem of_orders {s t : Store} (horders : t.orders = s.orders)
    (hbroker : t.brokerOrders = s.brokerOrders) (hruns : t.runs = s.runs)
    (hlocks : t.locks = s.locks) (hlinks : t.orderLinks = s.orderLinks) :
    MovedToward P s t := by
  refine ⟨fun id => Or.inl (congrFun horders id), fun h => ?_, hbroker, hruns, hlocks, hlinks⟩
  unfold Keyed
  rwa [horders]

theorem refl (s : Store) : MovedToward P s s := of_orders rfl rfl rfl rfl rfl

theorem trans (a b c : Store) (h₁ : MovedToward P a b) (h₂ : MovedToward P b c) :
    MovedToward P a c := by
  refine ⟨fun id => ?_, h₂.keyed ∘ h₁.keyed, h₂.brokerOrders.trans h₁.brokerOrders,
    h₂.runs.trans h₁.runs, h₂.locks.trans h₁.locks, h₂.orderLinks.trans h₁.orderLinks⟩
  rcases h₂.rows id with h | h
  · rw [h]
    exact h₁.rows id
  · exact Or.inr h

/-- A row with a status in `P` keeps having one. -/
theorem stays {s t : Store} (h : MovedToward P s t) {id : UUID}
    (hs : ∃ row, s.orders id = some row ∧ P row.status) :
    ∃ row, t.orders id = some row ∧ P row.status := by
  rcases h.rows id with h | h
  · rwa [h]
  · exact h

end MovedToward

theorem exec_toward (c : Choice) (op : Op) (s : Store) (h : op.Toward P) :
    MovedToward P s (exec c op s).2 := by
  rcases h with h | ⟨id, rfl⟩ | ⟨id, status, rc, rm, expected, submittedAt, hstatus, rfl⟩
  · cases op <;> first | exact h.elim | exact MovedToward.of_orders rfl rfl rfl rfl rfl
  · exact MovedToward.of_orders rfl rfl rfl rfl rfl
  · rcases (tick c s).updateStatus_cases id status rc rm expected submittedAt with
      ⟨-, heq⟩ | ⟨current, v, -, -, -, heq⟩ | ⟨current, hcurrent, -, heq⟩
    · simp only [exec, respond, heq]
      exact MovedToward.of_orders rfl rfl rfl rfl rfl
    · simp only [exec, respond, heq]
      exact MovedToward.of_orders rfl rfl rfl rfl rfl
    · simp only [exec, respond, heq]
      refine ⟨fun other => ?_, fun hkeyed other row hrow => ?_, rfl, rfl, rfl, rfl⟩
      · by_cases hother : other = id
        · subst hother
          exact Or.inr ⟨_, Function.update_self .., hstatus⟩
        · exact Or.inl (Function.update_of_ne hother ..)
      · by_cases hother : other = id
        · subst hother
          have hnew := (Function.update_self other _ (tick c s).orders).symm.trans hrow
          obtain rfl := Option.some.inj hnew
          exact hkeyed other current hcurrent
        · exact hkeyed other row ((Function.update_of_ne hother ..).symm.trans hrow)

/-- Where the caller's copy is the stored row, an authoritative transition that returns has
stored its target. -/
theorem transitionToAuthoritative_alone (service : Bool) {order : OrderRequestEntity}
    {target : OrderStatus} (runId : UUID) (message : Option String) {maxRetries : Nat} {s : Store}
    (hstored : s.orders order.orderRequestId = some order)
    (hne : target ≠ .reconcileRequired) (hretries : maxRetries ≠ 0) :
    Program.Alone exec (fun _ _ _ => True) (fun _ _ _ => True)
      (fun r t => MovedToward (· = target) s t ∧ (∀ after, r = .ok after →
        ∃ row, t.orders order.orderRequestId = some row ∧ row.status = target))
      (transitionToAuthoritative service order target runId message maxRetries) s := by
  have hframe : Program.Alone exec (fun _ _ _ => True) (fun _ _ _ => True)
      (fun r t => (∀ row, r = .ok row → row.status = target) ∧ MovedToward (· = target) s t)
      (transitionToAuthoritative service order target runId message maxRetries) s :=
    Program.alone_only MovedToward.refl MovedToward.trans exec_toward
      (transitionToAuthoritative_toward service order runId message maxRetries rfl hne)
      fun _ _ _ _ _ => trivial
  have hmoved : Program.Alone exec (fun _ _ _ => True) (fun _ _ _ => True)
      (fun r t => ∀ after, r = .ok after →
        ∃ row, t.orders order.orderRequestId = some row ∧ row.status = target)
      (transitionToAuthoritative service order target runId message maxRetries) s := by
    unfold transitionToAuthoritative
    cases validateAuthoritativeTarget target with
    | error e => exact Program.alone_raise (by simp)
    | ok u =>
      simp only [orRaise, Program.bind_eq, Program.ret_bind]
      split
      · exact Program.alone_raise (by simp)
      · refine (transitionToCore_alone (fun _ _ _ _ => trivial) service hstored hretries).mono ?_
        exact fun r t h _ _ => h.2.row
  exact (hframe.and hmoved).mono fun r t h => ⟨h.1.2, h.2⟩

end AgentTrading.Orders
