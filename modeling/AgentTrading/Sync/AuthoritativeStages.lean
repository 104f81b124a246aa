import AgentTrading.Orders.TargetWrites
import AgentTrading.Sync.Authoritative

/-! What a stage of the call does about the decrease of the position it reads: nothing without
one, a note and nothing else about a part of the quantity, and a transition about all of it. -/
namespace AgentTrading.Sync.Authoritative
open Domain Repositories Library

/-- A program that runs alone in this world ends in `post`. -/
abbrev Solo (w : World) (post : Except PyError α → State → Prop) (p : Code α) (s : State) :
    Prop :=
  Program.Alone w.exec (fun _ _ _ => True) (fun _ _ _ => True) post p s

abbrev OrdersSolo (post : Except PyError α → Store → Prop) (p : Orders.Code α) (s : Store) :
    Prop :=
  Program.Alone Orders.exec (fun _ _ _ => True) (fun _ _ _ => True) post p s

variable {w : World}

theorem solo_call {post : Except PyError α → State → Prop} {op : Op} {k : Reply op → Code α}
    {s : State} (h : ∀ c, Solo w post (k (w.exec c op s).1) (w.exec c op s).2) :
    Solo w post (.call op k) s :=
  Program.alone_call fun c _ => ⟨trivial, h c⟩

def State.withStore (s : State) (store : Store) : State :=
  { s with sync := { s.sync with store := store } }

theorem solo_ofOrders {post : Except PyError α → Store → Prop} {p : Orders.Code α} {s : State}
    (hp : OrdersSolo post p s.sync.store) :
    Solo w (fun r t => ∃ store, post r store ∧ t = s.withStore store)
      (ofSync (Sync.ofOrders p)) s := by
  unfold ofSync Sync.ofOrders
  rw [Program.lift_lift]
  exact Program.Alone.lift (fun s : State => s.sync.store) State.withStore
    (fun c s => w.within s.sync.store.clock c.orders) (fun _ _ _ => rfl) (fun _ _ _ => rfl)
    (fun _ _ => rfl) (fun _ _ _ => rfl) (fun _ _ _ _ => trivial) (fun _ _ _ _ => trivial) hp

/-! What the synchronisation's own programs leave alone. -/

/-- The notes and the record of the inquiries. -/
structure SameNotes (s t : State) : Prop where
  evidence : t.evidence = s.evidence
  kisInquirySeen : t.kisInquirySeen = s.kisInquirySeen
  lastKisInquiryAt : t.lastKisInquiryAt = s.lastKisInquiryAt

theorem SameNotes.refl (s : State) : SameNotes s s := ⟨rfl, rfl, rfl⟩

theorem SameNotes.trans (a b c : State) (h₁ : SameNotes a b) (h₂ : SameNotes b c) :
    SameNotes a c :=
  ⟨h₂.evidence.trans h₁.evidence, h₂.kisInquirySeen.trans h₁.kisInquirySeen,
    h₂.lastKisInquiryAt.trans h₁.lastKisInquiryAt⟩

theorem solo_sameNotes (p : Sync.Code α) (s : State) :
    Solo w (fun _ t => SameNotes s t) (ofSync p) s := by
  have honly : (ofSync p).Only (fun op => ∃ o, op = .sync o) fun _ => True :=
    Program.Only.lift p.only_true fun o _ => ⟨o, rfl⟩
  have h : Solo w (fun _ t => True ∧ SameNotes s t) (ofSync p) s := by
    refine Program.alone_only SameNotes.refl SameNotes.trans ?_ honly fun _ _ _ _ _ => trivial
    rintro c op s ⟨o, rfl⟩
    exact ⟨rfl, rfl, rfl⟩
  exact h.mono fun _ _ h => h.2

theorem advance_within {opened clock closed : Int} (elapsed : Nat) (h₁ : opened ≤ clock)
    (h₂ : clock ≤ closed) :
    opened ≤ clock + (min elapsed (closed - clock).toNat : Nat) ∧
      clock + (min elapsed (closed - clock).toNat : Nat) ≤ closed := by
  omega

/-- The clock stays between the two times of the world. -/
def Timely (w : World) (s : State) : Prop :=
  w.opened ≤ s.sync.store.clock ∧ s.sync.store.clock ≤ w.closed

theorem updateBrokerOrder_clock (s : Store) (id : UUID) (status : Option String)
    (synced updated : Option Time) :
    (updateBrokerOrder s id status synced updated).2.clock = s.clock := by
  unfold updateBrokerOrder
  split <;> rfl

theorem exec_timely (c : Sync.Choice) (op : Op) (s : State) (h : Timely w s) :
    Timely w (w.exec c op s).2 := by
  cases op with
  | sync op =>
    cases op with
    | orders op =>
      have hclock := Orders.exec_clock (w.within s.sync.store.clock c.orders) op s.sync.store
      have hnew : (w.exec c (.sync (.orders op)) s).2.sync.store.clock =
        s.sync.store.clock + (w.within s.sync.store.clock c.orders).elapsed := hclock
      unfold Timely
      rw [hnew]
      exact advance_within c.orders.elapsed h.1 h.2
    | brokerOrdersUpdate id status synced updated =>
      have hclock := updateBrokerOrder_clock s.sync.store id status synced updated
      have hnew :
          (w.exec c (.sync (.brokerOrdersUpdate id status synced updated)) s).2.sync.store.clock
        = s.sync.store.clock := hclock
      unfold Timely at h ⊢
      rw [hnew]
      exact h
    | _ => exact h
  | _ => exact h

theorem solo_timely (p : Code α) {s : State} (h : Timely w s) :
    Solo w (fun _ t => Timely w t) p s := by
  have hframe : Solo w (fun _ t => True ∧ (Timely w s → Timely w t)) p s := by
    apply Program.alone_only (F := fun s t => Timely w s → Timely w t) (fun _ => id)
      (fun _ _ _ h₁ h₂ => h₂ ∘ h₁) ?_ p.only_true fun _ _ _ _ _ => trivial
    exact fun c op s _ => exec_timely c op s
  exact hframe.mono fun _ _ ht => ht.2 h

/-! Transitions of an order in reconciliation. -/

theorem transition_refused (svc : OrderSyncService) {order : OrderRequestEntity}
    {target : OrderStatus} (reasonCode reasonMessage : Option String)
    (h : target ∉ Orders.allowedTransitions order.status) :
    (svc.transition order target reasonCode reasonMessage).attempt = .ret none := by
  have hinvalid : Orders.validateTransition order.orderRequestId order.status target ≠ .ok () :=
    fun hok => h ((Orders.validateTransition_ok ..).mp hok)
  cases hvalid : Orders.validateTransition order.orderRequestId order.status target with
  | ok u => exact (hinvalid hvalid).elim
  | error e =>
    simp [OrderSyncService.transition, ofOrders, Orders.transitionTo, hvalid, Orders.orRaise,
      Program.attempt]

theorem tryTransition_partiallyFilled (svc : OrderSyncService) {order : OrderRequestEntity}
    (h : order.status = .reconcileRequired) :
    svc.tryTransition order .partiallyFilled none none = .ret order := by
  have hrefused : OrderStatus.partiallyFilled ∉ Orders.allowedTransitions order.status := by
    rw [h]
    decide
  simp [OrderSyncService.tryTransition, h, transition_refused svc none none hrefused,
    OrderSyncService.buildTransitionChain, OrderSyncService.followChain]

theorem tryTransition_filled (svc : OrderSyncService) {order : OrderRequestEntity}
    (h : order.status = .reconcileRequired) :
    svc.tryTransition order .filled none none =
      svc.followChain .filled none none [.acknowledged, .partiallyFilled, .filled] order := by
  have hrefused : OrderStatus.filled ∉ Orders.allowedTransitions order.status := by
    rw [h]
    decide
  simp [OrderSyncService.tryTransition, h, transition_refused svc none none hrefused,
    OrderSyncService.buildTransitionChain]

/-- Operations of a transition within `P`. -/
def Toward (P : OrderStatus → Prop) (op : Sync.Op) : Prop :=
  ∃ o : Orders.Op, op = .orders o ∧ o.Toward P

theorem solo_toward {P : OrderStatus → Prop} {Q : Except PyError α → Prop} {p : Sync.Code α}
    {s : State} (hp : p.Only (Toward P) Q) :
    Solo w (fun r t => Q r ∧ Orders.MovedToward P s.sync.store t.sync.store) (ofSync p) s := by
  have honly : (ofSync p).Only (fun op => ∃ o : Orders.Op, op = .sync (.orders o) ∧ o.Toward P) Q :=
    Program.Only.lift hp fun op h => h.imp fun o ho => ⟨congrArg Op.sync ho.1, ho.2⟩
  apply Program.alone_only (F := fun s t : State => Orders.MovedToward P s.sync.store t.sync.store)
    (fun _ => .refl _) (fun _ _ _ => .trans _ _ _) ?_ honly fun _ _ _ _ _ => trivial
  rintro c op s ⟨o, rfl, ho⟩
  exact Orders.exec_toward _ o s.sync.store ho

theorem followChain_toward (svc : OrderSyncService) (target : OrderStatus) {P : OrderStatus → Prop}
    (reasonCode reasonMessage : Option String) (steps : List OrderStatus)
    (hsteps : ∀ step ∈ steps, P step ∧ step ≠ .reconcileRequired) {current : OrderRequestEntity}
    (hcurrent : current.status ≠ .reconcileRequired) :
    (svc.followChain target reasonCode reasonMessage steps current).Only (Toward P)
      fun r => ∃ moved, r = .ok moved ∧ moved.status ≠ .reconcileRequired := by
  induction steps generalizing current with
  | nil => exact ⟨current, rfl, hcurrent⟩
  | cons step steps ih =>
    obtain ⟨⟨hP, hne⟩, hrest⟩ := List.forall_mem_cons.mp hsteps
    rw [OrderSyncService.followChain]
    split
    · exact ih hrest hcurrent
    · have htransition : (svc.transition current step (if step = target then reasonCode else none)
          (if step = target then reasonMessage else none)).Only (Toward P)
          fun r => ∀ row, r = .ok row → row.status = step :=
        Program.Only.lift (Orders.transitionTo_toward _ _ _ hP hne) fun o ho => ⟨o, rfl, ho⟩
      refine htransition.attempt_ok.bind (fun next hnext => ?_) (by simp)
      obtain ⟨_, hnext, hstatus⟩ := hnext
      obtain rfl := Except.ok.inj hnext
      cases next with
      | none => exact ⟨current, rfl, hcurrent⟩
      | some next =>
        refine ih hrest ?_
        rw [hstatus next rfl next rfl]
        exact hne

/-- The order is stored as the caller has it, in reconciliation. -/
structure Stored (order : OrderRequestEntity) (s : State) : Prop where
  row : s.sync.store.orders order.orderRequestId = some order
  status : order.status = .reconcileRequired

def Unexpired (order : OrderRequestEntity) (t : State) : Prop :=
  ∀ row, t.sync.store.orders order.orderRequestId = some row → row.status ≠ .expired

theorem Stored.unexpired {order : OrderRequestEntity} {s : State} (h : Stored order s) :
    Unexpired order s := by
  intro row hrow
  rw [h.row] at hrow
  obtain rfl := Option.some.inj hrow
  rw [h.status]
  decide

theorem Unexpired.moved {order : OrderRequestEntity} {s t : State} (h : Unexpired order s)
    (hmoved : Orders.MovedToward (· ≠ .expired) s.sync.store t.sync.store) : Unexpired order t := by
  intro row hrow
  rcases hmoved.rows order.orderRequestId with hsame | ⟨other, hother, hne⟩
  · exact h row (hsame ▸ hrow)
  · rw [hother] at hrow
    obtain rfl := Option.some.inj hrow
    exact hne

theorem tryTransition_filled_solo (svc : OrderSyncService) {order : OrderRequestEntity} {s : State}
    (h : Stored order s) :
    Solo w (fun r t => (∃ moved, r = .ok moved ∧ moved.status ≠ .reconcileRequired) ∧
      Unexpired order t) (ofSync (svc.tryTransition order .filled none none)) s := by
  have hallowed : OrderStatus.acknowledged ∈ Orders.allowedTransitions order.status := by
    rw [h.status]
    decide
  have hends : OrdersSolo (Orders.Ends order .acknowledged s.sync.store)
      (Orders.transitionTo svc.reconciliation order .acknowledged {}) s.sync.store :=
    Orders.transitionTo_alone (fun _ _ _ _ => trivial) _ h.row hallowed (by decide)
  have htoward : OrdersSolo (fun r t => (∀ row, r = .ok row → row.status = .acknowledged) ∧
      Orders.MovedToward (· ≠ .expired) s.sync.store t)
      (Orders.transitionTo svc.reconciliation order .acknowledged {}) s.sync.store :=
    Program.alone_only .refl .trans Orders.exec_toward
      (Orders.transitionTo_toward _ _ _ (by decide) (by decide)) fun _ _ _ _ _ => trivial
  have hfirst := (solo_ofOrders (w := w) (hends.and htoward)).attempt
  have hne : order.status ≠ .acknowledged := by
    rw [h.status]
    decide
  rw [tryTransition_filled svc h.status, OrderSyncService.followChain, if_neg hne]
  unfold ofSync
  rw [Program.bind_eq, Program.lift_bind, Program.lift_attempt]
  refine Program.Alone.bind hfirst ?_ (by simp)
  rintro next t
      (⟨after, hnext, store, ⟨-, hstatus, hmoved⟩, rfl⟩ | ⟨e, -, store, ⟨⟨⟨_, hok⟩, -⟩, -⟩, -⟩)
  · obtain rfl := Except.ok.inj hnext
    have hafter : after.status ≠ .reconcileRequired := by
      rw [hstatus after rfl]
      decide
    have hrest := solo_toward (w := w) (s := s.withStore store)
      (followChain_toward svc .filled (P := (· ≠ .expired)) none none [.partiallyFilled, .filled]
        (by decide) hafter)
    refine hrest.mono fun r u hu => ⟨hu.1, ?_⟩
    exact (h.unexpired.moved hmoved).moved hu.2
  · cases hok

namespace World

/-- The stored position after so many refreshes; one that cannot be read counts as none. -/
def stored (w : World) (order : OrderRequestEntity) (refreshes : Nat) : ℚ :=
  match w.latestPositions refreshes order.accountId with
  | .error _ => 0
  | .ok snapshots =>
    ((snapshots.find? fun snap => snap.instrumentId = order.instrumentId).map (·.quantity)).getD 0

/-- The position before the order. -/
def preOrder (w : World) (order : OrderRequestEntity) (brokerOrder : BrokerOrderEntity) :
    Option ℚ :=
  match w.latestBefore order.accountId order.instrumentId brokerOrder.createdAt with
  | .ok (some pre) => some pre.quantity
  | _ => none

def positive (delta : ℚ) : Option ℚ := if 0 < delta then some delta else none

/-- The decrease since `pre` that the stored position shows after so many refreshes. -/
def shown (w : World) (order : OrderRequestEntity) (pre : ℚ) (refreshes : Nat) : Option ℚ :=
  positive (pre - w.stored order refreshes)

/-- The decrease the retries show, each after one refresh where a callback is given. -/
def retried (w : World) (order : OrderRequestEntity) (refresh : Bool) (pre : ℚ) :
    Nat → Nat → Option ℚ
  | 0, _ => none
  | retries + 1, refreshes =>
    let refreshes := if refresh then refreshes + 1 else refreshes
    (w.shown order pre refreshes).or (w.retried order refresh pre retries refreshes)

/-- The decrease the stored position shows at once or to one of two retries. -/
def storedDecrease (w : World) (order : OrderRequestEntity) (refresh : Bool) (pre : ℚ)
    (refreshes : Nat) : Option ℚ :=
  (w.shown order pre refreshes).or (w.retried order refresh pre 2 refreshes)

/-- The position at the broker, where it can be asked for. -/
def held (w : World) (order : OrderRequestEntity) : Option ℚ := do
  let account ← (w.account order.accountId).toOption.join
  let brokerAccount ← (w.brokerAccount account.brokerAccountId).toOption.join
  let positions ← (w.positions brokerAccount.accountRef).toOption
  (positionOf order.instrumentId positions).toOption

end World

/-- The orders are as they were. -/
def SameRows (s t : State) : Prop := t.sync.store.orders = s.sync.store.orders

theorem SameRows.stored {order : OrderRequestEntity} {s t : State} (h : SameRows s t)
    (hs : Stored order s) : Stored order t :=
  ⟨by rw [h]; exact hs.row, hs.status⟩

theorem SameRows.trans {s t u : State} (h₁ : SameRows s t) (h₂ : SameRows t u) : SameRows s u :=
  Eq.trans h₂ h₁

theorem latestPositionQty_solo (order : OrderRequestEntity) (s : State) :
    Solo w (fun r t => t = s ∧ ∃ current, r = .ok current ∧
      current.getD 0 = w.stored order s.refreshes)
      (ofSync (getLatestPositionQty order.accountId order.instrumentId)) s := by
  refine solo_call fun c => ?_
  show Solo w _
      (Program.lift _ _ ((Program.ret (w.latestPositions s.refreshes order.accountId)).bind
    _)) s
  unfold World.stored
  cases w.latestPositions s.refreshes order.accountId with
  | error e => exact Program.alone_ret ⟨rfl, none, rfl, rfl⟩
  | ok snapshots => exact Program.alone_ret ⟨rfl, _, rfl, rfl⟩

theorem refreshSnapshots_solo (refresh : Bool) (accountId : UUID) (s : State) :
    Solo w (fun r t => (∃ done, r = .ok done) ∧ SameRows s t ∧
      t.refreshes = if refresh then s.refreshes + 1 else s.refreshes)
      (ofSync (refreshSnapshots refresh accountId)) s := by
  cases refresh with
  | false => exact Program.alone_ret ⟨⟨false, rfl⟩, rfl, rfl⟩
  | true => exact solo_call fun c => Program.alone_ret ⟨⟨_, rfl⟩, rfl, rfl⟩

theorem backoff_solo (remaining : Nat) (s : State) :
    Solo w (fun r t => r = .ok () ∧ SameRows s t ∧ t.refreshes = s.refreshes)
      (ofSync (retrySellDelta.backoff remaining)) s := by
  cases remaining with
  | zero => exact Program.alone_ret ⟨rfl, rfl, rfl⟩
  | succ n => exact solo_call fun c => Program.alone_ret ⟨rfl, rfl, rfl⟩

theorem retrySellDelta_solo (order : OrderRequestEntity) (refresh : Bool) (pre : ℚ) (retries : Nat)
    {s : State} (hnone : w.shown order pre s.refreshes = none) :
    Solo w (fun r t =>
      r = .ok ((w.retried order refresh pre retries s.refreshes).map (statusOfDelta order)) ∧
      SameRows s t ∧ w.shown order pre t.refreshes =
        w.retried order refresh pre retries s.refreshes)
      (ofSync (retrySellDelta order refresh pre retries)) s := by
  induction retries generalizing s with
  | zero => exact Program.alone_ret ⟨rfl, rfl, hnone⟩
  | succ retries ih =>
    unfold retrySellDelta World.retried ofSync
    simp only [Program.bind_eq, Program.lift_bind]
    refine Program.Alone.bind (refreshSnapshots_solo refresh order.accountId s) ?_ (by simp)
    rintro done t ⟨-, hrows, hrefreshes⟩
    refine Program.Alone.bind (latestPositionQty_solo order t) ?_ (by simp)
    rintro current t' ⟨rfl, _, hcurrent, hstored⟩
    obtain rfl := Except.ok.inj hcurrent
    rw [hstored, ← hrefreshes]
    by_cases hpositive : 0 < pre - w.stored order t'.refreshes
    · have hshown : w.shown order pre t'.refreshes = some (pre - w.stored order t'.refreshes) :=
        if_pos hpositive
      simp only [hpositive, if_true, hshown, Option.some_or]
      exact Program.alone_ret ⟨rfl, hrows, hshown⟩
    · have hshown : w.shown order pre t'.refreshes = none := if_neg hpositive
      simp only [hpositive, if_false, hshown, Option.none_or, Program.lift_bind]
      refine Program.Alone.bind (backoff_solo retries t') ?_ (by simp)
      rintro _ u ⟨-, hrows', hrefreshes'⟩
      rw [← hrefreshes'] at hshown ⊢
      refine (ih hshown).mono ?_
      rintro r v ⟨hr, hrows'', hlast⟩
      exact ⟨hr, (hrows.trans hrows').trans hrows'', hlast⟩

/-- The decrease since the snapshot before the order, if there is one. -/
def World.inferred (w : World) (order : OrderRequestEntity) (brokerOrder : BrokerOrderEntity)
    (refresh : Bool) (refreshes : Nat) : Option ℚ :=
  (w.preOrder order brokerOrder).bind fun pre => w.storedDecrease order refresh pre refreshes

theorem inferSellOrderFillViaPosition_solo {order : OrderRequestEntity}
    (brokerOrder : BrokerOrderEntity) (refresh : Bool) (s : State) (hsell : order.side = .sell) :
    Solo w (fun r t =>
      r = .ok ((w.inferred order brokerOrder refresh s.refreshes).map (statusOfDelta order)) ∧
      SameRows s t ∧ ∀ pre, w.preOrder order brokerOrder = some pre →
        w.shown order pre t.refreshes = w.inferred order brokerOrder refresh s.refreshes)
      (ofSync (inferSellOrderFillViaPosition order brokerOrder refresh)) s := by
  unfold inferSellOrderFillViaPosition ofSync
  simp only [hsell, ne_eq, not_true_eq_false, if_false]
  refine solo_call fun c => ?_
  show Solo w _ (Program.lift _ _ ((Program.ret (w.latestBefore order.accountId order.instrumentId
    brokerOrder.createdAt)).bind _)) s
  have hpre : w.preOrder order brokerOrder =
      match w.latestBefore order.accountId order.instrumentId brokerOrder.createdAt with
      | .ok (some pre) => some pre.quantity
      | _ => none := rfl
  revert hpre
  rcases w.latestBefore order.accountId order.instrumentId brokerOrder.createdAt with e | _ | pre
  · intro hpre
    simp only [World.inferred, hpre, Option.bind_none, Option.map_none]
    exact Program.alone_ret ⟨rfl, rfl, by simp⟩
  · intro hpre
    simp only [World.inferred, hpre, Option.bind_none, Option.map_none]
    exact Program.alone_ret ⟨rfl, rfl, by simp⟩
  · intro hpre
    simp only [World.inferred, hpre, Option.bind_some, World.storedDecrease, Option.some.injEq,
      forall_eq', Program.ret_bind, Program.bind_eq, Program.lift_bind]
    refine Program.Alone.bind (latestPositionQty_solo order s) ?_ (by simp)
    rintro current t ⟨rfl, _, hcurrent, hstored⟩
    obtain rfl := Except.ok.inj hcurrent
    rw [hstored]
    by_cases hpositive : 0 < pre.quantity - w.stored order t.refreshes
    · have hshown : w.shown order pre.quantity t.refreshes =
        some (pre.quantity - w.stored order t.refreshes) := if_pos hpositive
      simp only [hpositive, if_true, hshown, Option.some_or]
      exact Program.alone_ret ⟨rfl, rfl, hshown⟩
    · have hshown : w.shown order pre.quantity t.refreshes = none := if_neg hpositive
      simp only [hpositive, if_false, hshown, Option.none_or]
      exact retrySellDelta_solo order refresh pre.quantity 2 hshown

/-- A read that is not noted: the orders, the notes and the refreshes are as they were, and an
order the broker was asked about stays one. -/
structure Unnoted (s t : State) : Prop where
  rows : SameRows s t
  evidence : t.evidence = s.evidence
  refreshes : t.refreshes = s.refreshes
  seen : ∀ id, s.kisInquirySeen id = true → t.kisInquirySeen id = true

theorem Unnoted.refl (s : State) : Unnoted s s := ⟨rfl, rfl, rfl, fun _ => id⟩

theorem Unnoted.trans {s t u : State} (h₁ : Unnoted s t) (h₂ : Unnoted t u) : Unnoted s u :=
  ⟨h₁.rows.trans h₂.rows, h₂.evidence.trans h₁.evidence, h₂.refreshes.trans h₁.refreshes,
    fun id => h₂.seen id ∘ h₁.seen id⟩

theorem now_solo (s : State) : Solo w (fun r t => r = .ok t.sync.store.clock ∧ Unnoted s t ∧
    t.lastKisInquiryAt = s.lastKisInquiryAt) now s :=
  solo_call fun _ => Program.alone_ret ⟨rfl, ⟨rfl, rfl, rfl, fun _ => id⟩, rfl⟩

theorem inquireKisPosition_solo (order : OrderRequestEntity) (s : State) :
    Solo w (fun r t => r = .ok (w.held order) ∧ Unnoted s t)
      ((inquireKisPosition order.accountId order.instrumentId).handle fun _ => return none) s := by
  refine solo_call fun c => ?_
  show Solo w _ (Program.handle (Program.bind (Program.ret (w.account order.accountId)) _) _) s
  unfold World.held
  rcases w.account order.accountId with e | _ | account
  · exact Program.alone_ret ⟨rfl, .refl s⟩
  · exact Program.alone_ret ⟨rfl, .refl s⟩
  · refine solo_call fun c => ?_
    show Solo w _ (Program.handle (Program.bind
      (Program.ret (w.brokerAccount account.brokerAccountId)) _) _) s
    simp only [Except.toOption, Option.join_some, Option.bind_some, Option.bind_eq_bind]
    rcases w.brokerAccount account.brokerAccountId with e | _ | brokerAccount
    · exact Program.alone_ret ⟨rfl, .refl s⟩
    · exact Program.alone_ret ⟨rfl, .refl s⟩
    · refine solo_call fun c => solo_call fun c' => solo_call fun c'' => ?_
      show Solo w _ (Program.handle (Program.bind
        (Program.ret (w.positions brokerAccount.accountRef)) _) _) _
      simp only [Option.join_some, Option.bind_some]
      have hunnoted : Unnoted s (w.exec c'' (.brokerGetPositions brokerAccount.accountRef)
          (w.exec c' (.lastKisInquiryAtSet order.accountId (w.exec c (.sync (.orders .now)) s).1)
            (w.exec c (.sync (.orders .now)) s).2).2).2 := ⟨rfl, rfl, rfl, fun _ => id⟩
      rcases w.positions brokerAccount.accountRef with e | positions
      · exact Program.alone_ret ⟨rfl, hunnoted⟩
      · simp only [Program.ret_bind, orRaise, Program.bind_eq, Option.bind_some]
        cases positionOf order.instrumentId positions with
        | error e => exact Program.alone_ret ⟨rfl, hunnoted⟩
        | ok quantity => exact Program.alone_ret ⟨rfl, hunnoted⟩

/-- An order the broker was asked about is not asked about again; one that may be is. -/
theorem fetchKisCurrentPositionQty_solo (order : OrderRequestEntity) (s : State) :
    Solo w (fun r t => Unnoted s t ∧ ∃ quantity, r = .ok quantity ∧
      (quantity = none ∨ quantity = w.held order) ∧
      (s.kisInquirySeen order.orderRequestId = true → quantity = none) ∧
      (s.kisInquirySeen order.orderRequestId = false → s.lastKisInquiryAt order.accountId = none →
        quantity = w.held order)) (fetchKisCurrentPositionQty order) s := by
  refine solo_call fun c => ?_
  show Solo w _ (Program.bind (Program.ret (s.kisInquirySeen order.orderRequestId)) _) s
  cases hseen : s.kisInquirySeen order.orderRequestId with
  | true => exact Program.alone_ret ⟨.refl s, none, rfl, Or.inl rfl, fun _ => rfl, by simp⟩
  | false =>
    simp only [Program.ret_bind, Bool.false_eq_true, if_false]
    refine solo_call fun c => ?_
    have hmarked : Unnoted s (w.exec c (.kisInquirySeenSet order.orderRequestId) s).2 := by
      refine ⟨rfl, rfl, rfl, fun id hid => ?_⟩
      by_cases h : id = order.orderRequestId
      · rw [h]
        exact Function.update_self ..
      · exact (Function.update_of_ne h ..).trans hid
    have hlast : (w.exec c (.kisInquirySeenSet order.orderRequestId) s).2.lastKisInquiryAt =
      s.lastKisInquiryAt := rfl
    generalize (w.exec c (.kisInquirySeenSet order.orderRequestId) s).2 = marked at hmarked hlast ⊢
    simp only [Program.ret_bind, checkKisInquiryCooldown, Program.bind_eq, Program.bind_assoc]
    refine Program.Alone.bind (now_solo marked) ?_ (by simp)
    rintro time t ⟨-, hnow, hsame⟩
    refine solo_call fun c => ?_
    show Solo w _ (Program.bind (Program.ret (t.lastKisInquiryAt order.accountId)) _) t
    simp only [Program.ret_bind]
    cases hready : (t.lastKisInquiryAt order.accountId).all fun last =>
        decide (inquiryCooldown ≤ time - last) with
    | false =>
      refine Program.alone_ret ⟨hmarked.trans hnow, none, rfl, Or.inl rfl, by simp, ?_⟩
      intro _ hnone
      rw [hsame, hlast, hnone] at hready
      cases hready
    | true =>
      refine (inquireKisPosition_solo order t).mono ?_
      rintro r u ⟨rfl, hu⟩
      exact ⟨(hmarked.trans hnow).trans hu, _, rfl, Or.inr rfl, by simp, fun _ _ => rfl⟩

/-- The position a KIS stage compares with: the stored one, or where the broker may be asked
the one it holds. -/
structure KisRead (w : World) (order : OrderRequestEntity) (s : State) (current : ℚ) : Prop where
  source : current = w.stored order s.refreshes ∨ w.held order = some current
  seen : s.kisInquirySeen order.orderRequestId = true → current = w.stored order s.refreshes
  fresh : s.kisInquirySeen order.orderRequestId = false →
    s.lastKisInquiryAt order.accountId = none → ∀ q, w.held order = some q → current = q

/-- The decrease a KIS stage finds. -/
def KisDecrease (w : World) (order : OrderRequestEntity) (brokerOrder : BrokerOrderEntity)
    (s : State) (decrease : Option ℚ) : Prop :=
  (w.preOrder order brokerOrder = none ∨ w.preOrder order brokerOrder = some 0) ∧ decrease = none ∨
  ∃ pre current, w.preOrder order brokerOrder = some pre ∧ pre ≠ 0 ∧ KisRead w order s current ∧
    decrease = World.positive (pre - current)

theorem tryKisTruthFallback_solo {order : OrderRequestEntity} (brokerOrder : BrokerOrderEntity)
    (s : State) (hsell : order.side = .sell) :
    Solo w (fun r t => Unnoted s t ∧ ∃ decrease,
      r = .ok (decrease.map fun delta => ⟨delta, "kis_truth_fallback"⟩) ∧
      KisDecrease w order brokerOrder s decrease) (tryKisTruthFallback order brokerOrder) s := by
  unfold tryKisTruthFallback
  simp only [hsell, ne_eq, not_true_eq_false, if_false]
  refine solo_call fun _ => ?_
  show Solo w _ (Program.bind (Program.ret (w.latestBefore order.accountId order.instrumentId
    brokerOrder.createdAt)) _) s
  have hpre : w.preOrder order brokerOrder =
      match w.latestBefore order.accountId order.instrumentId brokerOrder.createdAt with
      | .ok (some pre) => some pre.quantity
      | _ => none := rfl
  revert hpre
  rcases w.latestBefore order.accountId order.instrumentId brokerOrder.createdAt with e | _ | pre
  · exact fun hpre => Program.alone_ret ⟨.refl s, none, rfl, Or.inl ⟨Or.inl hpre, rfl⟩⟩
  · exact fun hpre => Program.alone_ret ⟨.refl s, none, rfl, Or.inl ⟨Or.inl hpre, rfl⟩⟩
  · intro hpre
    simp only [Program.ret_bind]
    by_cases hzero : pre.quantity = 0
    · simp only [hzero, if_true]
      have hempty : w.preOrder order brokerOrder = some 0 := hpre.trans (congrArg some hzero)
      exact Program.alone_ret ⟨.refl s, none, rfl, Or.inl ⟨Or.inr hempty, rfl⟩⟩
    · simp only [hzero, if_false, Program.bind_eq]
      refine Program.Alone.bind (fetchKisCurrentPositionQty_solo order s) ?_ (by simp)
      rintro quantity t ⟨hunnoted, _, hquantity, hsource, hseen, hfresh⟩
      obtain rfl := Except.ok.inj hquantity
      have hcurrent : Solo w (fun r u => u = t ∧ ∃ current, r = .ok current ∧
          KisRead w order s (current.getD 0)) (currentQty order quantity) t := by
        cases quantity with
        | some q =>
          refine Program.alone_ret ⟨rfl, some q, rfl, Or.inr ?_, fun h => ?_, fun h h' q' hq' => ?_⟩
          · exact (hsource.resolve_left (by simp)).symm
          · cases hseen h
          · exact Option.some.inj ((hfresh h h').trans hq')
        | none =>
          refine (latestPositionQty_solo order t).mono ?_
          rintro r u ⟨rfl, current, rfl, hstored⟩
          rw [hunnoted.refreshes] at hstored
          refine ⟨rfl, current, rfl, Or.inl hstored, fun _ => hstored, fun h h' q hq => ?_⟩
          rw [← hfresh h h'] at hq
          cases hq
      refine Program.Alone.bind hcurrent ?_ (by simp)
      rintro current u ⟨rfl, _, hok, hread⟩
      obtain rfl := Except.ok.inj hok
      by_cases hpositive : 0 < pre.quantity - current.getD 0
      · simp only [hpositive, if_true]
        refine Program.alone_ret ⟨hunnoted, some _, rfl, Or.inr ⟨_, _, hpre, hzero, hread, ?_⟩⟩
        exact (if_pos hpositive).symm
      · simp only [hpositive, if_false]
        refine Program.alone_ret ⟨hunnoted, none, rfl, Or.inr ⟨_, _, hpre, hzero, hread, ?_⟩⟩
        exact (if_neg hpositive).symm

/-- Operations of what follows a transition; they write no order. -/
def Op.Following : Op → Prop
  | .sync (.orders .now) => True
  | .sync (.brokerOrdersUpdate ..) => True
  | .sync (.snapshotRefresh _) => True
  | _ => False

theorem updateBrokerOrder_orders (s : Store) (id : UUID) (status : Option String)
    (synced updated : Option Time) :
    (updateBrokerOrder s id status synced updated).2.orders = s.orders := by
  unfold updateBrokerOrder
  split <;> rfl

theorem solo_following {Q : Except PyError α → Prop} {p : Code α} {s : State}
    (hp : p.Only Op.Following Q) :
    Solo w (fun _ t => SameRows s t ∧ SameNotes s t) p s := by
  have h : Solo w (fun r t => Q r ∧ SameRows s t ∧ SameNotes s t) p s := by
    apply Program.alone_only (F := fun s t : State => SameRows s t ∧ SameNotes s t)
      (fun s => ⟨rfl, .refl s⟩)
      (fun a b c h₁ h₂ => ⟨h₁.1.trans h₂.1, .trans a b c h₁.2 h₂.2⟩) ?_ hp
      fun _ _ _ _ _ => trivial
    intro c op s hop
    cases op with
    | sync op =>
      cases op with
      | orders op => cases op <;> first | exact hop.elim | exact ⟨rfl, rfl, rfl, rfl⟩
      | brokerOrdersUpdate id status synced updated =>
        exact ⟨updateBrokerOrder_orders s.sync.store id status synced updated, rfl, rfl, rfl⟩
      | snapshotRefresh accountId => exact ⟨rfl, rfl, rfl, rfl⟩
      | _ => exact hop.elim
    | _ => exact hop.elim
  exact h.mono fun _ _ h => h.2

theorem updateBrokerOrderRow_following (id : UUID) (status : Option String)
    (synced updated : Option Time) :
    (ofSync (updateBrokerOrderRow id status synced updated)).Only Op.Following fun _ => True := by
  refine ⟨trivial, fun outcome => ?_⟩
  cases outcome <;> trivial

theorem followFill_following (order : OrderRequestEntity) (brokerOrder : BrokerOrderEntity)
    (refresh : Bool) (inferred : OrderStatus) :
    (followFill order brokerOrder refresh inferred).Only Op.Following fun _ => True := by
  unfold followFill
  split
  · refine ⟨trivial, fun time => ?_⟩
    refine (updateBrokerOrderRow_following ..).bind (fun _ _ => ?_) fun _ _ => trivial
    cases refresh with
    | false => trivial
    | true => exact ⟨trivial, fun _ => trivial⟩
  · trivial

theorem SameRows.unexpired {order : OrderRequestEntity} {s t : State} (h : SameRows s t)
    (hs : Unexpired order s) : Unexpired order t := by
  intro row hrow
  rw [h] at hrow
  exact hs row hrow

theorem statusOfDelta_part {order : OrderRequestEntity} {d : ℚ} (h : d < order.requestedQuantity) :
    statusOfDelta order d = .partiallyFilled := if_neg (not_le.mpr h)

theorem settleInferred_part (svc : OrderSyncService) {order : OrderRequestEntity}
    (brokerOrder : BrokerOrderEntity) (refresh : Bool) (message : String) {d : ℚ}
    (hstatus : order.status = .reconcileRequired) (hd : d < order.requestedQuantity) :
    settleInferred svc order brokerOrder refresh (statusOfDelta order d) message = .ret none := by
  simp [settleInferred, statusOfDelta_part hd, tryTransition_partiallyFilled svc hstatus, ofSync]

theorem settleInferred_full (svc : OrderSyncService) {order : OrderRequestEntity}
    (brokerOrder : BrokerOrderEntity) (refresh : Bool) (message : String) {s : State} {d : ℚ}
    (hs : Stored order s) (hd : ¬ d < order.requestedQuantity) :
    Solo w (fun r t => (∃ result, r = .ok (some result)) ∧ Unexpired order t)
      (settleInferred svc order brokerOrder refresh (statusOfDelta order d) message) s := by
  have hfilled : statusOfDelta order d = .filled := if_pos (not_lt.mp hd)
  unfold settleInferred
  rw [hfilled]
  have hsettled : Solo w (fun r t => (∀ stage, r = .ok stage → ∃ result, stage = some result) ∧
      Unexpired order t) ((ofSync (svc.tryTransition order .filled none none)).bind fun updated =>
        if updated.status ≠ order.status then
          (followFill order brokerOrder refresh .filled).bind fun _ =>
            .ret (some (some (inferredResult order brokerOrder .filled message)))
        else .ret none) s := by
    refine Program.Alone.bind (tryTransition_filled_solo svc hs) ?_ ?_
    · rintro updated t ⟨⟨_, hok, hmoved⟩, hunexpired⟩
      obtain rfl := Except.ok.inj hok
      rw [← hs.status] at hmoved
      simp only [ne_eq, hmoved, not_false_eq_true, if_true]
      refine Program.Alone.bind (solo_following (followFill_following ..)) ?_ ?_
      · exact fun _ u hu => Program.alone_ret ⟨by simp, hu.1.unexpired hunexpired⟩
      · exact fun _ u hu => ⟨by simp, hu.1.unexpired hunexpired⟩
    · rintro e t ⟨⟨_, h, -⟩, -⟩
      cases h
  refine Program.Alone.handle hsettled ?_ ?_
  · rintro stage t ⟨hstage, hunexpired⟩
    obtain ⟨result, rfl⟩ := hstage stage rfl
    exact ⟨⟨result, rfl⟩, hunexpired⟩
  · exact fun e t h => Program.alone_ret ⟨⟨none, rfl⟩, h.2⟩

/-- What a stage does about the decrease it finds. -/
def Staged (order : OrderRequestEntity) (decrease : Option ℚ) (r : Except PyError Stage)
    (s t : State) : Prop :=
  match decrease with
  | none => r = .ok none ∧ SameRows s t ∧ t.evidence = s.evidence
  | some d =>
    if d < order.requestedQuantity then r = .ok none ∧ SameRows s t ∧
      t.evidence = s.evidence ++ [⟨order.orderRequestId, .partiallyFilled⟩]
    else (∃ result, r = .ok (some result)) ∧ Unexpired order t

theorem settle_solo (svc : OrderSyncService) {order : OrderRequestEntity}
    (brokerOrder : BrokerOrderEntity) (refresh : Bool) (message : String) {s : State} (d : ℚ)
    (hs : Stored order s) :
    Solo w (fun r t => Staged order (some d) r s t ∧ (r = .ok none → t.refreshes = s.refreshes ∧
      t.kisInquirySeen = s.kisInquirySeen))
      (.call (.noteEvidence order.orderRequestId (statusOfDelta order d)) fun _ =>
        settleInferred svc order brokerOrder refresh (statusOfDelta order d) message) s := by
  refine solo_call fun _ => ?_
  by_cases hd : d < order.requestedQuantity
  · simp only [Staged, hd, if_true]
    rw [settleInferred_part svc brokerOrder refresh message hs.status hd, statusOfDelta_part hd]
    exact Program.alone_ret ⟨⟨rfl, rfl, rfl⟩, fun _ => ⟨rfl, rfl⟩⟩
  · simp only [Staged, hd, if_false]
    refine Program.Alone.mono (settleInferred_full svc brokerOrder refresh message ?_ hd) ?_
    · exact ⟨hs.row, hs.status⟩
    rintro r t ⟨⟨result, rfl⟩, hunexpired⟩
    exact ⟨⟨⟨result, rfl⟩, hunexpired⟩, by simp⟩

theorem Staged.after {order : OrderRequestEntity} {decrease : Option ℚ} {r : Except PyError Stage}
    {s t u : State} (hrows : SameRows s t) (hevidence : t.evidence = s.evidence)
    (h : Staged order decrease r t u) : Staged order decrease r s u := by
  unfold Staged at h ⊢
  cases decrease with
  | none => exact ⟨h.1, hrows.trans h.2.1, h.2.2.trans hevidence⟩
  | some d =>
    simp only at h ⊢
    split at h
    · rename_i hd
      rw [if_pos hd]
      exact ⟨h.1, hrows.trans h.2.1, by rw [h.2.2, hevidence]⟩
    · rename_i hd
      rw [if_neg hd]
      exact h

theorem settleByPosition_solo (svc : OrderSyncService) {order : OrderRequestEntity}
    (brokerOrder : BrokerOrderEntity) (refresh : Bool) (message : OrderStatus → String) {s : State}
    (hs : Stored order s) (hsell : order.side = .sell) :
    Solo w (fun r t => Staged order (w.inferred order brokerOrder refresh s.refreshes) r s t ∧
      (r = .ok none → t.kisInquirySeen = s.kisInquirySeen ∧
        ∀ pre, w.preOrder order brokerOrder = some pre →
          w.shown order pre t.refreshes = w.inferred order brokerOrder refresh s.refreshes))
      (settleByPosition svc order brokerOrder refresh message) s := by
  unfold settleByPosition
  simp only [hsell, if_true]
  refine Program.Alone.bind ((inferSellOrderFillViaPosition_solo brokerOrder refresh s hsell).and
    (solo_sameNotes _ s)) ?_ (by simp)
  rintro inferred t ⟨⟨hinferred, hrows, hlast⟩, hnotes⟩
  obtain rfl := Except.ok.inj hinferred
  cases hdecrease : w.inferred order brokerOrder refresh s.refreshes with
  | none =>
    rw [hdecrease] at hlast
    exact Program.alone_ret ⟨⟨rfl, hrows, hnotes.evidence⟩, fun _ => ⟨hnotes.kisInquirySeen, hlast⟩⟩
  | some d =>
    rw [hdecrease] at hlast
    refine (settle_solo svc brokerOrder refresh _ d (hrows.stored hs)).mono ?_
    rintro r u ⟨hstaged, hkept⟩
    refine ⟨hstaged.after hrows hnotes.evidence, fun hr => ?_⟩
    rw [(hkept hr).1, (hkept hr).2]
    exact ⟨hnotes.kisInquirySeen, hlast⟩

theorem settleByKis_solo (svc : OrderSyncService) {order : OrderRequestEntity}
    (brokerOrder : BrokerOrderEntity) (refresh : Bool) (message : ℚ → OrderStatus → String)
    {s : State} (hs : Stored order s) (hsell : order.side = .sell) :
    Solo w (fun r t => ∃ decrease, KisDecrease w order brokerOrder s decrease ∧
      Staged order decrease r s t ∧ (r = .ok none → t.refreshes = s.refreshes ∧
        ∀ id, s.kisInquirySeen id = true → t.kisInquirySeen id = true))
      (settleByKis svc order brokerOrder refresh message) s := by
  unfold settleByKis
  simp only [hsell, if_true]
  refine Program.Alone.bind (tryKisTruthFallback_solo brokerOrder s hsell) ?_ (by simp)
  rintro fill t ⟨hunnoted, decrease, hfill, hdecrease⟩
  obtain rfl := Except.ok.inj hfill
  cases decrease with
  | none =>
    exact Program.alone_ret ⟨none, hdecrease, ⟨rfl, hunnoted.rows, hunnoted.evidence⟩,
      fun _ => ⟨hunnoted.refreshes, hunnoted.seen⟩⟩
  | some d =>
    have hpositive : 0 < d := by
      rcases hdecrease with ⟨-, hnone⟩ | ⟨pre, current, -, -, -, hd⟩
      · cases hnone
      · unfold World.positive at hd
        split at hd
        · rwa [Option.some.inj hd]
        · cases hd
    simp only [Option.map_some, hpositive, if_true]
    refine (settle_solo svc brokerOrder refresh _ d (hunnoted.rows.stored hs)).mono ?_
    rintro r u ⟨hstaged, hkept⟩
    refine ⟨some d, hdecrease, hstaged.after hunnoted.rows hunnoted.evidence, fun hr => ?_⟩
    rw [(hkept hr).1, (hkept hr).2]
    exact ⟨hunnoted.refreshes, hunnoted.seen⟩

theorem andThen_solo {mid : Except PyError Stage → State → Prop}
    {post : Except PyError (Option OrderStatusResult) → State → Prop} {stage : Code Stage}
    {next : Code (Option OrderStatusResult)} {s : State} (hstage : Solo w mid stage s)
    (hdone : ∀ result t, mid (.ok (some result)) t → post (.ok result) t)
    (hnext : ∀ t, mid (.ok none) t → Solo w post next t)
    (he : ∀ e t, mid (.error e) t → post (.error e) t) : Solo w post (andThen stage next) s := by
  refine Program.Alone.bind hstage (fun reached t h => ?_) he
  cases reached with
  | none => exact hnext t h
  | some result => exact Program.alone_ret (hdone result t h)

def Expired (order : OrderRequestEntity) (t : State) : Prop :=
  ∃ row, t.sync.store.orders order.orderRequestId = some row ∧ row.status = .expired

theorem tryTransition_expired_solo (svc : OrderSyncService) {order : OrderRequestEntity}
    {s : State} (hs : Stored order s) :
    Solo w (fun r t => ((∃ moved, r = .ok moved ∧ moved.status = .expired) ∧ Expired order t) ∧
      SameNotes s t) (ofSync (svc.tryTransition order .expired none none)) s := by
  refine Program.Alone.and ?_ (solo_sameNotes _ s)
  have hallowed : OrderStatus.expired ∈ Orders.allowedTransitions order.status := by
    rw [hs.status]
    decide
  have hends : OrdersSolo (Orders.Ends order .expired s.sync.store)
      (Orders.transitionTo svc.reconciliation order .expired {}) s.sync.store :=
    Orders.transitionTo_alone (fun _ _ _ _ => trivial) _ hs.row hallowed (by decide)
  have htoward : OrdersSolo (fun r t => (∀ row, r = .ok row → row.status = .expired) ∧
      Orders.MovedToward (· = .expired) s.sync.store t)
      (Orders.transitionTo svc.reconciliation order .expired {}) s.sync.store :=
    Program.alone_only .refl .trans Orders.exec_toward
      (Orders.transitionTo_toward _ _ _ rfl (by decide)) fun _ _ _ _ _ => trivial
  have hne : order.status ≠ .expired := by
    rw [hs.status]
    decide
  unfold OrderSyncService.tryTransition ofSync
  rw [if_neg hne, Program.bind_eq, Program.lift_bind, Program.lift_attempt]
  refine Program.Alone.bind (solo_ofOrders (w := w) (hends.and htoward)).attempt ?_ (by simp)
  rintro next t (⟨moved, hnext, store, ⟨⟨-, hmoved⟩, hstatus, -⟩, rfl⟩ |
    ⟨e, -, store, ⟨⟨⟨_, hok⟩, -⟩, -⟩, -⟩)
  · obtain rfl := Except.ok.inj hnext
    exact Program.alone_ret ⟨⟨moved, rfl, hstatus moved rfl⟩, hmoved.row⟩
  · cases hok

/-- Before the world closes the order is old enough to be expired. -/
def PastGrace (w : World) (order : OrderRequestEntity) (brokerOrder : BrokerOrderEntity) : Prop :=
  ∀ createdAt, order.createdAt = some createdAt →
    resolveAfterHoursGracePeriod order brokerOrder ≤ w.closed - createdAt

end AgentTrading.Sync.Authoritative
