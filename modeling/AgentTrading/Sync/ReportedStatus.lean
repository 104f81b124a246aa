import AgentTrading.Orders.RefusedWrites
import AgentTrading.Sync.FilledFills

/-! What the result of a call tells of the stored order, when nobody else writes and the repository
may refuse any status write. The result is made from copies that the call carries along; two of its
returns leave out what has become of the copy. -/
namespace AgentTrading.Sync.ReportedStatus
open Domain Repositories Library

/-- The state, and the number of status writes the repository has been asked for. -/
structure State where
  sync : Sync.State
  writes : Nat := 0

def State.asked (s : State) : Orders.Asked := ⟨s.sync.store, s.writes⟩

def State.answered (s : State) (a : Orders.Asked) : State where
  sync := { s.sync with store := a.store }
  writes := a.writes

def exec (refuses : Orders.Refusals) (c : Choice) (op : Op) (s : State) : Reply op × State :=
  match op with
  | .orders op =>
    ((refuses.exec c.orders op s.asked).1, s.answered (refuses.exec c.orders op s.asked).2)
  | op => ((Sync.exec c op s.sync).1, { s with sync := (Sync.exec c op s.sync).2 })

/-- A program that runs with no other writer ends in `post`. -/
abbrev Faces (refuses : Orders.Refusals) (post : Except PyError α → State → Prop) (p : Code α)
    (s : State) : Prop :=
  Program.Alone (exec refuses) (fun _ _ _ => True) (fun _ _ _ => True) post p s

/-- The order is stored in the status. -/
abbrev Holds (id : UUID) (status : OrderStatus) (s : State) : Prop :=
  Orders.HasStatus id status s.sync.store

variable {refuses : Orders.Refusals}

theorem exec_keeps {I : Sync.State → Prop} (h : ∀ op c s, I s → I (Sync.exec c op s).2) (c : Choice)
    (op : Op) {s : State} (hs : I s.sync) : I (exec refuses c op s).2.sync := by
  cases op with
  | orders op =>
    cases op with
    | ordersUpdateStatus id status rc rm expected submittedAt =>
      cases hrefuses : refuses s.writes with
      | none =>
        simp only [exec, Orders.Refusals.exec, State.asked, hrefuses]
        exact h (.orders (.ordersUpdateStatus id status rc rm expected submittedAt)) c s.sync hs
      | some e =>
        simp only [exec, Orders.Refusals.exec, State.asked, hrefuses]
        exact h (.orders .now) c s.sync hs
    | _ => exact h (.orders _) c s.sync hs
  | _ => exact h _ c s.sync hs

theorem faces_keeps {I : Sync.State → Prop} (h : ∀ op c s, I s → I (Sync.exec c op s).2)
    (p : Code α) {s : State} (hs : I s.sync) : Faces refuses (fun _ t => I t.sync) p s := by
  induction p generalizing s with
  | ret a => exact Program.alone_ret hs
  | raise e => exact Program.alone_raise hs
  | call op k ih =>
    apply Program.alone_call
    exact fun c _ => ⟨trivial, ih _ (exec_keeps h c op hs)⟩

abbrev Unwriting : Op → Prop := Op.Reason fun _ => False

/-- No status was written, and the rows of broker orders are still there. -/
structure Unmoved (s t : State) : Prop where
  orders : t.sync.store.orders = s.sync.store.orders
  writes : t.writes = s.writes
  linked : ∀ brokerOrderId orderRequestId, Linked brokerOrderId orderRequestId s.sync →
    Linked brokerOrderId orderRequestId t.sync

theorem Unmoved.refl (s : State) : Unmoved s s := ⟨rfl, rfl, fun _ _ => id⟩

theorem Unmoved.trans (a b c : State) (h₁ : Unmoved a b) (h₂ : Unmoved b c) : Unmoved a c where
  orders := h₂.orders.trans h₁.orders
  writes := h₂.writes.trans h₁.writes
  linked _ _ h := h₂.linked _ _ (h₁.linked _ _ h)

theorem Unmoved.holds {s t : State} (h : Unmoved s t) {id : UUID} {status : OrderStatus}
    (hs : Holds id status s) : Holds id status t := by
  unfold Holds Orders.HasStatus
  rw [h.orders]
  exact hs

theorem exec_unmoved (c : Choice) {op : Op} (s : State) (h : Unwriting op) :
    Unmoved s (exec refuses c op s).2 := by
  have hlinked (brokerOrderId orderRequestId : UUID)
      (hs : Linked brokerOrderId orderRequestId s.sync) :
      Linked brokerOrderId orderRequestId (exec refuses c op s).2.sync :=
    exec_keeps (fun op c _ => exec_linked op c) c op hs
  cases op with
  | orders op =>
    have hkeeps : op.KeepsStatus := by
      cases op <;> exact h
    have hstill : Orders.Still s.asked (refuses.exec c.orders op s.asked).2 :=
      Orders.exec_still c.orders s.asked hkeeps
    exact ⟨hstill.orders, hstill.writes, hlinked⟩
  | brokerOrdersUpdate id status synced updated =>
    exact ⟨updateBrokerOrder_orders .., rfl, hlinked⟩
  | _ => exact ⟨rfl, rfl, hlinked⟩

theorem faces_unwriting {Q : Except PyError α → Prop} {p : Code α} (hp : p.Only Unwriting Q)
    (s : State) : Faces refuses (fun r t => Q r ∧ Unmoved s t) p s :=
  Program.alone_only Unmoved.refl Unmoved.trans
    (fun c op t h => (exec_unmoved c t h : Unmoved t (exec refuses c op t).2)) hp
    fun _ _ _ _ _ => trivial

theorem faces_bind {post : Except PyError β → State → Prop} {Q : Except PyError α → Prop}
    {p : Code α} {f : α → Code β} {s : State} (hp : p.Only Unwriting Q)
    (hf : ∀ a t, Q (.ok a) → Unmoved s t → Faces refuses post (f a) t)
    (he : ∀ e t, Q (.error e) → Unmoved s t → post (.error e) t) :
    Faces refuses post (p.bind f) s := by
  apply Program.Alone.bind (faces_unwriting hp s)
  · exact fun a t h => hf a t h.1 h.2
  · exact fun e t h => he e t h.1 h.2

theorem faces_ofOrders {post : Except PyError α → Orders.Asked → Prop} {p : Orders.Code α}
    {s : State} (hp : Orders.Faces refuses post p s.asked) :
    Faces refuses (fun r t => post r t.asked) (ofOrders p) s := by
  have hlifted : Faces refuses (fun r t => ∃ a, post r a ∧ t = s.answered a) (ofOrders p)
      (s.answered s.asked) :=
    Program.Alone.lift State.asked State.answered (fun (c : Choice) _ => c.orders)
      (fun _ _ _ => rfl) (fun _ _ _ => rfl) (fun _ _ => rfl) (fun _ _ _ => rfl)
      (fun _ _ _ _ => trivial) (fun _ _ _ _ => trivial) hp
  apply hlifted.mono
  rintro r _ ⟨a, hpost, rfl⟩
  exact hpost

/-- Whether an order leaves its status when it is moved to a target: directly, or by the first step
of the chain. -/
def leaves (refuses : Orders.Refusals) (status target : OrderStatus) (n : Nat) : Bool :=
  (refuses.goesThrough status target 3 n).1 ||
    (OrderSyncService.buildTransitionChain status target).head?.any fun step =>
      (refuses.goesThrough status step 3 (refuses.goesThrough status target 3 n).2).1

theorem chain_cases {status target : OrderStatus} (h : status ≠ target) :
    ∃ first rest, OrderSyncService.buildTransitionChain status target = first :: rest ∧
      status ∉ first :: rest := by
  cases status <;> cases target <;> first | exact absurd rfl h | exact ⟨_, _, rfl, by decide⟩

section

variable (svc : OrderSyncService) {row order : OrderRequestEntity} {s : State}

theorem transition_faces (target : OrderStatus) (reasonCode reasonMessage : Option String)
    (hrow : s.sync.store.orders row.orderRequestId = some row)
    (hid : order.orderRequestId = row.orderRequestId) (hstatus : order.status = row.status) :
    Faces refuses (fun r t => Orders.Lands row target r t.asked ∧ (order.version = row.version →
        (r.isOk, t.writes) = refuses.goesThrough row.status target 3 s.writes))
      (svc.transition order target reasonCode reasonMessage) s := by
  have hasked : s.asked.store.orders row.orderRequestId = some row := hrow
  have horders : Orders.Faces refuses (fun r t => Orders.Lands row target r t ∧
      (order.version = row.version →
        (r.isOk, t.writes) = refuses.goesThrough row.status target 3 s.asked.writes))
      (Orders.transitionTo svc.reconciliation order target
        { reasonCode := reasonCode, reasonMessage := reasonMessage }) s.asked :=
    Orders.transitionTo_faces svc.reconciliation hasked hid hstatus rfl
  exact faces_ofOrders horders

theorem followChain_faces (target : OrderStatus) (reasonCode reasonMessage : Option String)
    (steps : List OrderStatus) {id : UUID} (hid : order.orderRequestId = id)
    (h : Holds id order.status s) :
    Faces refuses (fun r t => ∃ moved, r = .ok moved ∧ moved.orderRequestId = id ∧
        Holds id moved.status t ∧ (moved.status = order.status ∨ moved.status ∈ steps))
      (svc.followChain target reasonCode reasonMessage steps order) s := by
  induction steps generalizing s order with
  | nil => exact Program.alone_ret ⟨order, rfl, hid, h, Or.inl rfl⟩
  | cons step steps ih =>
    rw [OrderSyncService.followChain]
    split
    · apply (ih hid h).mono
      rintro r t ⟨moved, rfl, hmoved, hholds, hstatus⟩
      exact ⟨moved, rfl, hmoved, hholds, hstatus.imp_right (List.mem_cons_of_mem step)⟩
    · obtain ⟨row, hrow, rfl, hstatus⟩ := h
      apply Program.Alone.bind (transition_faces svc _ _ _ hrow hid hstatus.symm).attempt
      · rintro _ t (⟨next, hnext, hlands, -⟩ | ⟨e, hnext, hlands, -⟩)
        · obtain rfl := Except.ok.inj hnext
          obtain ⟨hnextId, hnextStatus, hholds⟩ := hlands
          rw [← hnextStatus] at hholds
          apply (ih hnextId hholds).mono
          rintro r u ⟨moved, rfl, hmoved, hmovedHolds, hmovedStatus⟩
          refine ⟨moved, rfl, hmoved, hmovedHolds, Or.inr ?_⟩
          rcases hmovedStatus with hsame | hlater
          · rw [hsame, hnextStatus]
            exact List.mem_cons_self
          · exact List.mem_cons_of_mem step hlater
        · obtain rfl := Except.ok.inj hnext
          exact Program.alone_ret ⟨order, rfl, hid, ⟨row, hlands, rfl, hstatus⟩, Or.inl rfl⟩
      · rintro e t (⟨next, he, -⟩ | ⟨e', he, -⟩) <;> cases he

/-- A chain that is entered at the stored row takes the order out of its status exactly if its first
step goes through: no later step leads back. -/
theorem chain_faces (target first : OrderStatus) (rest : List OrderStatus)
    (reasonCode reasonMessage : Option String)
    (hrow : s.sync.store.orders row.orderRequestId = some row)
    (hid : order.orderRequestId = row.orderRequestId) (hstatus : order.status = row.status)
    (hleft : order.status ∉ first :: rest) :
    Faces refuses (fun r t => ∃ moved, r = .ok moved ∧ moved.orderRequestId = row.orderRequestId ∧
        Holds row.orderRequestId moved.status t ∧
        (moved.status = order.status ∨ moved.status ∈ first :: rest) ∧
        (order.version = row.version → (moved.status ≠ order.status ↔
          (refuses.goesThrough row.status first 3 s.writes).1 = true)))
      (svc.followChain target reasonCode reasonMessage (first :: rest) order) s := by
  have hfirst : order.status ≠ first := fun h => hleft (h ▸ List.mem_cons_self)
  rw [OrderSyncService.followChain, if_neg hfirst]
  apply Program.Alone.bind (transition_faces svc _ _ _ hrow hid hstatus).attempt
  · rintro _ t (⟨next, hnext, hlands, hexact⟩ | ⟨e, hnext, hlands, hexact⟩)
    · obtain rfl := Except.ok.inj hnext
      obtain ⟨hnextId, hnextStatus, hholds⟩ := hlands
      rw [← hnextStatus] at hholds
      apply (followChain_faces svc target reasonCode reasonMessage rest hnextId hholds).mono
      rintro r u ⟨moved, rfl, hmovedId, hmovedHolds, hmovedStatus⟩
      have hmem : moved.status ∈ first :: rest := by
        rcases hmovedStatus with hsame | hlater
        · rw [hsame, hnextStatus]
          exact List.mem_cons_self
        · exact List.mem_cons_of_mem first hlater
      have hmovedNe : moved.status ≠ order.status := fun h => hleft (h ▸ hmem)
      refine ⟨moved, rfl, hmovedId, hmovedHolds, Or.inr hmem, fun hversion => ?_⟩
      have hthrough : (refuses.goesThrough row.status first 3 s.writes).1 = true := by
        rw [← hexact hversion]
        rfl
      exact iff_of_true hmovedNe hthrough
    · obtain rfl := Except.ok.inj hnext
      refine Program.alone_ret ⟨order, rfl, hid, ⟨row, hlands, rfl, hstatus.symm⟩, Or.inl rfl, ?_⟩
      intro hversion
      have hrefused : (refuses.goesThrough row.status first 3 s.writes).1 = false := by
        rw [← hexact hversion]
        rfl
      rw [hrefused]
      exact iff_of_false (fun h => h rfl) Bool.false_ne_true
  · rintro e t (⟨next, he, -⟩ | ⟨e', he, -⟩) <;> cases he

/-- The order ends where the copy that is returned says; from the stored row it leaves its status
exactly if the refusals let it. -/
theorem tryTransition_faces (target : OrderStatus) (reasonCode reasonMessage : Option String)
    (hrow : s.sync.store.orders row.orderRequestId = some row)
    (hid : order.orderRequestId = row.orderRequestId) (hstatus : order.status = row.status)
    (hne : order.status ≠ target) :
    Faces refuses (fun r t => ∃ moved, r = .ok moved ∧ moved.orderRequestId = row.orderRequestId ∧
        Holds row.orderRequestId moved.status t ∧ (moved.status = order.status ∨
          moved.status ∈ target :: OrderSyncService.buildTransitionChain order.status target) ∧
        (order.version = row.version →
          (moved.status ≠ order.status ↔ leaves refuses order.status target s.writes = true)))
      (svc.tryTransition order target reasonCode reasonMessage) s := by
  obtain ⟨first, rest, hchain, hleft⟩ := chain_cases hne
  have hleaves : leaves refuses order.status target s.writes =
      ((refuses.goesThrough row.status target 3 s.writes).1 ||
        (refuses.goesThrough row.status first 3
          (refuses.goesThrough row.status target 3 s.writes).2).1) := by
    rw [leaves, hchain, hstatus]
    rfl
  rw [OrderSyncService.tryTransition, if_neg hne]
  apply Program.Alone.bind (transition_faces svc _ _ _ hrow hid hstatus).attempt
  · rintro _ t (⟨moved, hmoved, hlands, hexact⟩ | ⟨e, hmoved, hlands, hexact⟩)
    · obtain rfl := Except.ok.inj hmoved
      obtain ⟨hmovedId, rfl, hholds⟩ := hlands
      refine Program.alone_ret ⟨moved, rfl, hmovedId, hholds, Or.inr List.mem_cons_self, ?_⟩
      intro hversion
      have hthrough : (refuses.goesThrough row.status moved.status 3 s.writes).1 = true := by
        rw [← hexact hversion]
        rfl
      rw [hleaves, hthrough, Bool.true_or]
      exact iff_of_true hne.symm rfl
    · obtain rfl := Except.ok.inj hmoved
      simp only [hchain]
      apply (chain_faces svc target first rest reasonCode reasonMessage hlands hid hstatus
        hleft).mono
      rintro r u ⟨moved, rfl, hmovedId, hmovedHolds, hmovedStatus, hleaving⟩
      refine ⟨moved, rfl, hmovedId, hmovedHolds,
        hmovedStatus.imp_right (List.mem_cons_of_mem target), ?_⟩
      intro hversion
      have hdirect : (refuses.goesThrough row.status target 3 s.writes).1 = false := by
        rw [← hexact hversion]
        rfl
      have hwrites : t.writes = (refuses.goesThrough row.status target 3 s.writes).2 := by
        rw [← hexact hversion]
      rw [hleaves, ← hwrites, hdirect, Bool.false_or]
      exact hleaving hversion
  · rintro e t (⟨next, he, -⟩ | ⟨e', he, -⟩) <;> cases he

theorem tryTransition_holds (target : OrderStatus) (reasonCode reasonMessage : Option String)
    {id : UUID} (hid : order.orderRequestId = id) (h : Holds id order.status s) :
    Faces refuses (fun r t => ∃ moved, r = .ok moved ∧ moved.orderRequestId = id ∧
        Holds id moved.status t ∧ (moved.status = order.status ∨
          moved.status ∈ target :: OrderSyncService.buildTransitionChain order.status target))
      (svc.tryTransition order target reasonCode reasonMessage) s := by
  by_cases hne : order.status = target
  · rw [OrderSyncService.tryTransition, if_pos hne]
    exact Program.alone_ret ⟨order, rfl, hid, h, Or.inl rfl⟩
  · obtain ⟨row, hrow, rfl, hstatus⟩ := h
    apply (tryTransition_faces svc target _ _ hrow hid hstatus.symm hne).mono
    rintro r t ⟨moved, hr, hmoved, hholds, hcases, -⟩
    exact ⟨moved, hr, hmoved, hholds, hcases⟩

end

/-- The result says of the order, stored in a status before the call, what is stored after. -/
structure Tells (id : UUID) (before : OrderStatus) (result : SyncOrderResult) (t : State) :
    Prop where
  current : Holds id result.currentStatus t
  changed : result.statusChanged = true ↔ result.currentStatus ≠ before
  terminal : result.terminal = true ↔ result.currentStatus ∈ terminalStatuses

/-- Where the call returns. -/
def Returns (post : α → State → Prop) (r : Except PyError α) (t : State) : Prop :=
  ∀ a, r = .ok a → post a t

@[simp] theorem returns_ok {post : α → State → Prop} {a : α} {t : State} :
    Returns post (.ok a) t ↔ post a t := by
  constructor
  · exact fun h => h a rfl
  · rintro h _ ⟨⟩
    exact h

@[simp] theorem returns_error {post : α → State → Prop} {e : PyError} {t : State} :
    Returns post (.error e) t := by
  rintro _ ⟨⟩

/-- An exception that ends the first part ends the call without a result. -/
theorem returns_bind {mid : α → State → Prop} {post : β → State → Prop} {p : Code α}
    {f : α → Code β} {s : State} (hp : Faces refuses (Returns mid) p s)
    (hf : ∀ a t, mid a t → Faces refuses (Returns post) (f a) t) :
    Faces refuses (Returns post) (p.bind f) s := by
  apply Program.Alone.bind hp
  · exact fun a t h => hf a t (h a rfl)
  · exact fun _ _ _ => returns_error

theorem returns_unwriting {post : β → State → Prop} {Q : Except PyError α → Prop} {p : Code α}
    {f : α → Code β} {s : State} (hp : p.Only Unwriting Q)
    (hf : ∀ a t, Q (.ok a) → Unmoved s t → Faces refuses (Returns post) (f a) t) :
    Faces refuses (Returns post) (p.bind f) s :=
  faces_bind hp hf fun _ _ _ _ => returns_error

section

variable (svc : OrderSyncService) {order : OrderRequestEntity} {s : State} {id : UUID}

theorem refreshReason_returns (code message : String) (hid : order.orderRequestId = id)
    (h : Holds id order.status s) :
    Faces refuses (Returns fun noted t => noted.status = order.status ∧ Holds id order.status t)
      (OrderSyncService.refreshReason order code message) s := by
  obtain ⟨row, hrow, hrowId, hstatus⟩ := h
  apply Program.alone_call
  intro c _
  refine ⟨trivial, ?_⟩
  have hticked : (Orders.tick c.orders s.sync.store).orders order.orderRequestId = some row := by
    rw [hid]
    exact hrow
  cases hrefuses : refuses s.writes with
  | some e =>
    simp only [exec, Orders.Refusals.exec, State.asked, hrefuses]
    exact Program.alone_raise returns_error
  | none =>
    simp only [exec, Orders.Refusals.exec, State.asked, hrefuses, Orders.exec, Orders.respond]
    rw [Store.updateStatus_unversioned hticked]
    apply Program.alone_ret
    rw [returns_ok]
    refine ⟨rfl, Store.statusRow (Orders.tick c.orders s.sync.store).clock row order.status
      (some code) (some message) none none, ?_, hrowId, rfl⟩
    simp only [State.answered, Store.writeOrder, hid, Function.update_self]

/-- An expiry that goes through leaves the call, and one that fails leaves the order. -/
def Expires (id : UUID) (before : OrderStatus) : Option OrderRequestEntity → State → Prop
  | none, t => Holds id before t
  | some moved, t => moved.status = .expired ∧ Holds id moved.status t

theorem expireRow_returns (brokerOrderId : UUID) (start : Time)
    (reasonCode reasonMessage : Option String) (hid : order.orderRequestId = id)
    (h : Holds id order.status s) :
    Faces refuses (Returns (Expires id order.status))
      (svc.expireRow order brokerOrderId start reasonCode reasonMessage) s := by
  apply Program.Alone.bind (tryTransition_holds svc .expired reasonCode reasonMessage hid h)
  · rintro moved t ⟨_, hr, -, hholds, hcases⟩
    obtain rfl := Except.ok.inj hr
    split
    · next hne =>
      have hexpired : moved.status = .expired := by
        have hmem := hcases.resolve_left hne
        simpa [OrderSyncService.buildTransitionChain] using hmem
      apply returns_unwriting (updateBrokerOrderRow_reason ..)
      intro _ t₁ _ h₁
      apply returns_unwriting (updateBrokerOrderRow_reason ..)
      intro _ t₂ _ h₂
      apply Program.alone_ret
      rw [returns_ok]
      exact ⟨hexpired, h₂.holds (h₁.holds hholds)⟩
    · next hsame =>
      apply Program.alone_ret
      rw [returns_ok]
      rw [not_not.mp hsame] at hholds
      exact hholds
  · rintro e t ⟨moved, hr, -⟩
    cases hr

theorem expireStuck_returns (brokerOrder : BrokerOrderEntity) (previous brokerStatus : OrderStatus)
    (afterHours : Bool) (start : Time) (synced : Nat) (hid : order.orderRequestId = id)
    (h : Holds id order.status s) :
    Faces refuses (Returns (Expires id order.status))
      (svc.expireStuck order brokerOrder previous brokerStatus afterHours start synced) s := by
  unfold OrderSyncService.expireStuck
  split
  · apply returns_unwriting (p := now) (Q := fun _ => True) ⟨trivial, fun _ => trivial⟩
    intro now t _ ht
    split
    · exact expireRow_returns svc _ _ _ _ hid (ht.holds h)
    · exact Program.alone_ret (returns_ok.mpr (ht.holds h))
  · exact Program.alone_ret (returns_ok.mpr h)

theorem expireResidual_returns (brokerOrder : BrokerOrderEntity) (brokerStatus : OrderStatus)
    (afterHours : Bool) (start : Time) (hid : order.orderRequestId = id)
    (h : Holds id order.status s) :
    Faces refuses (Returns (Expires id order.status))
      (svc.expireResidual order brokerOrder brokerStatus afterHours start) s := by
  unfold OrderSyncService.expireResidual
  split
  · apply returns_unwriting (p := now) (Q := fun _ => True) ⟨trivial, fun _ => trivial⟩
    intro now t _ ht
    split
    · exact expireRow_returns svc _ _ _ _ hid (ht.holds h)
    · exact Program.alone_ret (returns_ok.mpr (ht.holds h))
  · exact Program.alone_ret (returns_ok.mpr h)

theorem notePending_returns (brokerOrder : BrokerOrderEntity) (probe : Option TruthProbeReason)
    (changed : Bool) (hid : order.orderRequestId = id) (h : Holds id order.status s) :
    Faces refuses (Returns fun noted t => noted.status = order.status ∧ Holds id order.status t)
      (OrderSyncService.notePending order brokerOrder probe changed) s := by
  unfold OrderSyncService.notePending
  split
  · have hpending : (buildPendingTruthProbeReasonMessage order brokerOrder).Only Unwriting
        fun _ => True := by
      apply (listLinkedFillSnapshots_reason order).bind
      · exact fun _ _ => trivial
      · exact fun _ _ => trivial
    apply returns_unwriting hpending
    rintro ⟨code, message⟩ t _ ht
    exact refreshReason_returns code message hid (ht.holds h)
  · exact Program.alone_ret (returns_ok.mpr ⟨rfl, h⟩)

theorem finishReported_tells {moved : OrderRequestEntity} (brokerOrder : BrokerOrderEntity)
    (refresh : Bool) (start : Time) (probe : Option TruthProbeReason) (synced skipped : Nat)
    (hid : moved.orderRequestId = id) (h : Holds id moved.status s) :
    Faces refuses (Returns (Tells id order.status))
      (OrderSyncService.finishReported order moved brokerOrder refresh start probe synced skipped)
      s := by
  apply returns_unwriting (updateBrokerOrderRow_reason ..)
  intro _ t₁ _ h₁
  apply returns_bind (notePending_returns brokerOrder probe _ hid (h₁.holds h))
  rintro noted t₂ ⟨hnoted, hholds⟩
  apply returns_unwriting (refreshSnapshots_reason ..)
  intro triggered t₃ _ h₃
  apply Program.alone_ret
  rw [returns_ok]
  refine ⟨?_, ?_, ?_⟩
  · rw [hnoted]
    exact h₃.holds hholds
  · simp [hnoted]
  · simp

theorem moveTo_holds (brokerStatus : OrderStatus) (hid : order.orderRequestId = id)
    (h : Holds id order.status s) :
    Faces refuses (fun r t => ∃ moved, r = .ok moved ∧ moved.orderRequestId = id ∧
      Holds id moved.status t) (svc.moveTo order brokerStatus) s := by
  unfold OrderSyncService.moveTo
  split
  · apply (tryTransition_holds svc brokerStatus none none hid h).mono
    rintro r t ⟨moved, hr, hmoved, hholds, -⟩
    exact ⟨moved, hr, hmoved, hholds⟩
  · exact Program.alone_ret ⟨order, rfl, hid, h⟩

theorem syncReported_tells (brokerOrder : BrokerOrderEntity) (refresh afterHours : Bool)
    (start : Time) (probe : Option TruthProbeReason) (brokerStatus : OrderStatus)
    (hid : order.orderRequestId = id) (h : Holds id order.status s)
    (hopen : order.status ∉ terminalStatuses) :
    Faces refuses (Returns (Tells id order.status))
      (svc.syncReported order brokerOrder refresh afterHours start probe brokerStatus) s := by
  have hexpired {moved : OrderRequestEntity} {t : State} (synced skipped : Nat)
      (hmoved : moved.status = .expired) (hholds : Holds id moved.status t) :
      Tells id order.status (OrderSyncService.syncReported.expiredResult order brokerOrder start
        moved synced skipped) t := by
    refine ⟨hholds, ?_, ?_⟩
    · apply iff_of_true rfl
      intro hsame
      apply hopen
      rw [← hsame]
      simp [OrderSyncService.syncReported.expiredResult, hmoved, terminalStatuses]
    · apply iff_of_true rfl
      simp [OrderSyncService.syncReported.expiredResult, hmoved, terminalStatuses]
  apply returns_unwriting (OrderSyncService.updateBrokerStatus_reason ..)
  intro _ t₁ _ h₁
  apply Program.Alone.bind (moveTo_holds svc brokerStatus hid (h₁.holds h))
  · rintro moved t₂ ⟨_, hr, hmoved, hholds⟩
    obtain rfl := Except.ok.inj hr
    apply returns_unwriting (OrderSyncService.syncOpenFills_reason ..)
    rintro ⟨synced, skipped⟩ t₃ _ h₃
    apply returns_bind (expireStuck_returns svc brokerOrder order.status brokerStatus afterHours
      start synced hmoved (h₃.holds hholds))
    intro stuck t₄ hstuck
    cases stuck with
    | some expired => exact Program.alone_ret (returns_ok.mpr (hexpired _ _ hstuck.1 hstuck.2))
    | none =>
      apply returns_bind
        (expireResidual_returns svc brokerOrder brokerStatus afterHours start hmoved
        hstuck)
      intro residual t₅ hresidual
      cases residual with
      | some expired =>
        exact Program.alone_ret (returns_ok.mpr (hexpired _ _ hresidual.1 hresidual.2))
      | none => exact finishReported_tells brokerOrder refresh start probe _ _ hmoved hresidual
  · rintro e t ⟨moved, hr, -⟩
    cases hr

theorem tells_same {before : OrderStatus} {result : SyncOrderResult} {t : State}
    (hcurrent : result.currentStatus = before) (h : Holds id before t)
    (hchanged : result.statusChanged = false) (hterminal : result.terminal = false)
    (hopen : before ∉ terminalStatuses) : Tells id before result t := by
  subst hcurrent
  refine ⟨h, ?_, ?_⟩
  · rw [hchanged]
    simp
  · rw [hterminal]
    exact iff_of_false Bool.false_ne_true hopen

theorem syncByStatus_tells (brokerOrder : BrokerOrderEntity) (refresh afterHours : Bool)
    (start : Time) (probe : Option TruthProbeReason) (hid : order.orderRequestId = id)
    (h : Holds id order.status s) (hopen : order.status ∉ terminalStatuses) :
    Faces refuses (Returns (Tells id order.status))
      (svc.syncByStatus order brokerOrder refresh afterHours start probe) s := by
  have hreply : (await (.brokerGetOrderStatus order.clientOrderId
      brokerOrder.brokerNativeOrderId)).Only Unwriting fun _ => True := ⟨trivial, fun _ => trivial⟩
  apply returns_unwriting hreply
  intro reply t _ ht
  cases reply with
  | ok result =>
    exact syncReported_tells svc brokerOrder refresh afterHours start probe _ hid (ht.holds h) hopen
  | error e =>
    apply Program.alone_ret
    rw [returns_ok]
    exact tells_same rfl (ht.holds h) rfl rfl hopen

/-- What the result of a probe says: the change that was found, whatever has become of it. -/
structure TellsProbe (id : UUID) (before status : OrderStatus) (left : Bool)
    (result : SyncOrderResult) (t : State) : Prop where
  current : Holds id result.currentStatus t
  changed : result.statusChanged = true ↔ status ≠ before
  terminal : result.terminal = true ↔ result.currentStatus ∈ terminalStatuses
  moved : result.currentStatus ≠ before ↔ status ≠ before ∧ left = true

theorem applyProbe_returns (status : OrderStatus) (code message : String)
    (hrow : s.sync.store.orders order.orderRequestId = some order) :
    Faces refuses (Returns fun moved t => Holds order.orderRequestId moved.status t ∧
        (moved.status ≠ order.status ↔
          status ≠ order.status ∧ leaves refuses order.status status s.writes = true))
      (svc.applyProbe order status code message) s := by
  have hholds : Holds order.orderRequestId order.status s := ⟨order, hrow, rfl, rfl⟩
  unfold OrderSyncService.applyProbe
  split
  · next hne =>
    apply (tryTransition_faces svc status _ _ hrow rfl rfl (Ne.symm hne)).mono
    rintro r t ⟨moved, rfl, -, hmoved, -, hleaves⟩
    rw [returns_ok]
    exact ⟨hmoved, (hleaves rfl).trans (iff_and_self.mpr fun _ => hne)⟩
  · next hsame =>
    have hnot (moved : OrderRequestEntity) (h : moved.status = order.status) :
        moved.status ≠ order.status ↔
          status ≠ order.status ∧ leaves refuses order.status status s.writes = true :=
      iff_of_false (fun hne => hne h) fun hfound => hsame hfound.1
    split
    · apply (refreshReason_returns code message rfl hholds).mono
      intro r t hreturns moved hr
      obtain ⟨hmoved, hkept⟩ := hreturns moved hr
      exact ⟨hmoved ▸ hkept, hnot moved hmoved⟩
    · exact Program.alone_ret (returns_ok.mpr ⟨hholds, hnot order rfl⟩)

theorem parallelSyncFills_reason {R : Option String → Prop} (order : OrderRequestEntity)
    (brokerOrder : BrokerOrderEntity) (reason : Option TruthProbeReason) :
    (OrderSyncService.parallelSyncFills order brokerOrder reason).Only (Op.Reason R)
      fun _ => True := by
  unfold OrderSyncService.parallelSyncFills
  split
  · refine ⟨trivial, fun _ => ⟨trivial, fun counts => ?_⟩⟩
    cases counts <;> trivial
  · trivial

theorem syncProbed_tells (brokerOrder : BrokerOrderEntity) (refresh : Bool) (start : Time)
    (status : OrderStatus) (reason : Option TruthProbeReason)
    (hrow : s.sync.store.orders order.orderRequestId = some order) :
    Faces refuses (Returns (TellsProbe order.orderRequestId order.status status
        (leaves refuses order.status status s.writes)))
      (svc.syncProbed order brokerOrder refresh start status reason) s := by
  apply returns_unwriting (OrderSyncService.buildTruthProbeReasonMessage_reason ..)
  rintro ⟨code, message⟩ t₁ _ h₁
  rw [← h₁.orders] at hrow
  rw [← h₁.writes]
  apply returns_bind (applyProbe_returns svc status code message hrow)
  rintro moved t₂ ⟨hholds, hmoved⟩
  apply returns_unwriting (OrderSyncService.updateBrokerStatus_reason ..)
  intro _ t₃ _ h₃
  apply returns_unwriting (updateBrokerOrderRow_reason ..)
  intro _ t₄ _ h₄
  apply returns_unwriting (refreshSnapshots_reason ..)
  intro triggered t₅ _ h₅
  apply returns_unwriting (parallelSyncFills_reason ..)
  intro counts t₆ _ h₆
  apply Program.alone_ret
  rw [returns_ok]
  refine ⟨h₆.holds (h₅.holds (h₄.holds (h₃.holds hholds))), ?_, ?_, hmoved⟩
  · simp
  · simp

theorem TellsProbe.tells_iff {before status : OrderStatus} {left : Bool}
    {result : SyncOrderResult} {t : State} (h : TellsProbe id before status left result t) :
    Tells id before result t ↔ (status ≠ before → left = true) := by
  constructor
  · intro htells hne
    exact (h.moved.mp (htells.changed.mp (h.changed.mpr hne))).2
  · intro hleft
    refine ⟨h.current, ?_, h.terminal⟩
    rw [h.changed, h.moved]
    exact ⟨fun hne => ⟨hne, hleft hne⟩, And.left⟩

end

end AgentTrading.Sync.ReportedStatus
