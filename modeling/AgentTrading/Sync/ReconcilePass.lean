import AgentTrading.Library.Windows
import AgentTrading.Sync.AuthoritativeStages

/-! `OrderSyncService._sync_reconcile_required_orders`: one pass over the orders in
reconciliation. A fill that a call notes is covered by the decrease of the position that the call
read; whether another order of the pass was filled by the same decrease is not asked. -/
namespace AgentTrading.Sync.Authoritative
open Domain Repositories Library

/-- What the repositories list: the orders in reconciliation under a limit, and the broker orders
of an order. -/
structure Listings where
  orders : Nat → Except PyError (List OrderRequestEntity)
  brokerOrders : UUID → Except PyError (List BrokerOrderEntity)

section

variable (svc : OrderSyncService) (accountRef : String) (refresh afterHours : Bool)

/-- The broker orders of one order; an exception counts as not resolved. -/
def resolveBrokerOrders (order : OrderRequestEntity) : List BrokerOrderEntity → Nat → Code Nat
  | [], resolved => return resolved
  | brokerOrder :: rest, resolved => do
    let result ← (transitionToAuthoritative svc accountRef order brokerOrder refresh
      afterHours).handle fun _ => return none
    resolveBrokerOrders order rest (if result.isSome then resolved + 1 else resolved)

def resolveOrders (listings : Listings) : List OrderRequestEntity → Nat → Code Nat
  | [], resolved => return resolved
  | order :: rest, resolved => do
    let brokerOrders ← orRaise (listings.brokerOrders order.orderRequestId)
    let resolved ← resolveBrokerOrders svc accountRef refresh afterHours order brokerOrders resolved
    resolveOrders listings rest resolved

def syncReconcileRequiredOrders (listings : Listings) (limit : Nat) : Code Nat := do
  let orders ← orRaise (listings.orders limit)
  resolveOrders svc accountRef refresh afterHours listings orders 0

end

/-- What the position of the order's instrument is said to be, by a stored snapshot or by the
broker. -/
def World.Current (w : World) (order : OrderRequestEntity) (current : ℚ) : Prop :=
  (∃ refreshes, current = w.stored order refreshes) ∨ w.held order = some current

theorem World.Current.congr {w : World} {order other : OrderRequestEntity} {current : ℚ}
    (h : w.Current order current) (haccount : order.accountId = other.accountId)
    (hinstrument : order.instrumentId = other.instrumentId) : w.Current other current := by
  unfold World.Current World.stored World.held at h ⊢
  rwa [← haccount, ← hinstrument]

/-- A note of a complete fill has a decrease that covers the quantity. -/
structure Covered (w : World) (order : OrderRequestEntity) (brokerOrder : BrokerOrderEntity)
    (e : Evidence) : Prop where
  noted : e.orderRequestId = order.orderRequestId
  covered : e.status = .filled → order.side = .sell ∧ ∃ pre current,
    w.preOrder order brokerOrder = some pre ∧ w.Current order current ∧ current < pre ∧
      order.requestedQuantity ≤ pre - current

/-- From whatever state the program starts, it notes only what is in `K`. -/
def Notes (w : World) (K : Evidence → Prop) (p : Code α) : Prop :=
  ∀ s, Solo w (fun _ t => ∀ e ∈ t.evidence, e ∈ s.evidence ∨ K e) p s

def Op.Unnoting : Op → Prop
  | .noteEvidence .. => False
  | _ => True

variable {w : World} {K : Evidence → Prop}

theorem unnoting_solo {Q : Except PyError α → Prop} {p : Code α} (hp : p.Only Op.Unnoting Q)
    (s : State) : Solo w (fun _ t => t.evidence = s.evidence) p s := by
  have h : Solo w (fun r t => Q r ∧ t.evidence = s.evidence) p s := by
    apply Program.alone_only (F := fun s t : State => t.evidence = s.evidence) (fun _ => rfl)
      (fun _ _ _ h₁ h₂ => h₂.trans h₁) ?_ hp fun _ _ _ _ _ => trivial
    intro c op s hop
    cases op <;> first | rfl | exact hop.elim
  exact h.mono fun _ _ h => h.2

theorem notes_unnoting {Q : Except PyError α → Prop} {p : Code α} (hp : p.Only Op.Unnoting Q) :
    Notes w K p := by
  intro s
  refine (unnoting_solo hp s).mono fun _ t ht e he => ?_
  rw [ht] at he
  exact Or.inl he

theorem ofSync_unnoting (p : Sync.Code α) : (ofSync p).Only Op.Unnoting fun _ => True :=
  Program.Only.lift p.only_true fun _ _ => trivial

theorem orRaise_unnoting (e : Except PyError α) : (orRaise e).Only Op.Unnoting fun _ => True := by
  cases e <;> trivial

theorem notes_ret (a : α) : Notes w K (Program.ret a) :=
  notes_unnoting (Q := fun _ => True) trivial

theorem notes_await (op : Op) (h : op.Unnoting) : Notes w K (await op) :=
  notes_unnoting (Q := fun _ => True) ⟨h, fun _ => trivial⟩

theorem Notes.bind {p : Code α} {f : α → Code β} (hp : Notes w K p)
    (hf : ∀ a, Notes w K (f a)) : Notes w K (p.bind f) := by
  intro s
  refine Program.Alone.bind (hp s) (fun a t ht => ?_) fun _ _ h => h
  refine (hf a t).mono fun _ u hu e he => ?_
  rcases hu e he with h | h
  · exact ht e h
  · exact Or.inr h

theorem Notes.handle {p : Code α} {f : PyError → Code α} (hp : Notes w K p)
    (hf : ∀ e, Notes w K (f e)) : Notes w K (p.handle f) := by
  intro s
  refine Program.Alone.handle (hp s) (fun _ _ h => h) fun e t ht => ?_
  refine (hf e t).mono fun _ u hu e he => ?_
  rcases hu e he with h | h
  · exact ht e h
  · exact Or.inr h

theorem Notes.mono {other : Evidence → Prop} {p : Code α} (hp : Notes w K p)
    (h : ∀ e, K e → other e) : Notes w other p :=
  fun s => (hp s).mono fun _ _ ht e he => (ht e he).imp_right (h e)

theorem Notes.andThen {stage : Code Stage} {next : Code (Option OrderStatusResult)}
    (hstage : Notes w K stage) (hnext : Notes w K next) :
    Notes w K (andThen stage next) := by
  refine hstage.bind fun reached => ?_
  cases reached with
  | none => exact hnext
  | some result => exact notes_ret result

section

variable (svc : OrderSyncService) (order : OrderRequestEntity) (brokerOrder : BrokerOrderEntity)
variable (refresh afterHours : Bool)

theorem settleInferred_unnoting (inferred : OrderStatus) (message : String) :
    (settleInferred svc order brokerOrder refresh inferred message).Only Op.Unnoting
      fun _ => True := by
  have hfollow : (followFill order brokerOrder refresh inferred).Only Op.Unnoting fun _ =>
    True := by
    unfold followFill
    split
    · refine (ofSync_unnoting Sync.now).bind (fun _ _ => ?_) fun _ _ => trivial
      refine (ofSync_unnoting _).bind (fun _ _ => ?_) fun _ _ => trivial
      exact (ofSync_unnoting _).bind (fun _ _ => trivial) fun _ _ => trivial
    · trivial
  refine Program.Only.handle (Q := fun _ => True) ?_ (fun _ _ => trivial) fun _ _ => trivial
  refine (ofSync_unnoting _).bind (fun updated _ => ?_) fun _ _ => trivial
  split
  · exact hfollow.bind (fun _ _ => trivial) fun _ _ => trivial
  · trivial

theorem statusOfDelta_filled {d : ℚ} (h : statusOfDelta order d = .filled) :
    order.requestedQuantity ≤ d := by
  by_contra hlt
  rw [statusOfDelta_part (not_le.mp hlt)] at h
  cases h

theorem settle_notes {s : State} (message : String) {pre current : ℚ} (hsell : order.side = .sell)
    (hpre : w.preOrder order brokerOrder = some pre) (hcurrent : w.Current order current)
    (hpositive : current < pre) :
    Solo w (fun _ t => ∀ e ∈ t.evidence, e ∈ s.evidence ∨ Covered w order brokerOrder e)
      (.call (.noteEvidence order.orderRequestId (statusOfDelta order (pre - current))) fun _ =>
        settleInferred svc order brokerOrder refresh (statusOfDelta order (pre - current)) message)
      s := by
  refine solo_call fun _ => ?_
  refine Program.Alone.mono (unnoting_solo (settleInferred_unnoting ..) _) fun _ t ht e he => ?_
  rw [ht] at he
  rcases List.mem_append.mp he with h | h
  · exact Or.inl h
  · obtain rfl := List.mem_singleton.mp h
    refine Or.inr ⟨rfl, fun hfilled => ?_⟩
    exact ⟨hsell, pre, current, hpre, hcurrent, hpositive, statusOfDelta_filled order hfilled⟩

theorem positive_some {delta d : ℚ} (h : World.positive delta = some d) :
    0 < delta ∧ delta = d := by
  unfold World.positive at h
  split at h
  · exact ⟨‹_›, Option.some.inj h⟩
  · cases h

theorem retried_some {pre d : ℚ} {retries refreshes : Nat}
    (h : w.retried order refresh pre retries refreshes = some d) :
    ∃ n, w.shown order pre n = some d := by
  induction retries generalizing refreshes with
  | zero => cases h
  | succ retries ih =>
    rcases Option.or_eq_some_iff.mp h with h | ⟨-, h⟩
    · exact ⟨_, h⟩
    · exact ih h

theorem inferred_some {d : ℚ} {refreshes : Nat}
    (h : w.inferred order brokerOrder refresh refreshes = some d) :
    ∃ pre current, w.preOrder order brokerOrder = some pre ∧ w.Current order current ∧
      current < pre ∧ d = pre - current := by
  obtain ⟨pre, hpre, hdecrease⟩ := Option.bind_eq_some_iff.mp h
  have hshown : ∃ n, w.shown order pre n = some d := by
    rcases Option.or_eq_some_iff.mp hdecrease with h | ⟨-, h⟩
    · exact ⟨_, h⟩
    · exact retried_some order refresh h
  obtain ⟨n, hn⟩ := hshown
  obtain ⟨hpositive, rfl⟩ := positive_some hn
  exact ⟨pre, w.stored order n, hpre, Or.inl ⟨n, rfl⟩, by linarith, rfl⟩

theorem kisDecrease_some {s : State} {d : ℚ} (h : KisDecrease w order brokerOrder s (some d)) :
    ∃ pre current, w.preOrder order brokerOrder = some pre ∧ w.Current order current ∧
      current < pre ∧ d = pre - current := by
  rcases h with ⟨-, hnone⟩ | ⟨pre, current, hpre, -, hread, hd⟩
  · cases hnone
  · obtain ⟨hpositive, rfl⟩ := positive_some hd.symm
    refine ⟨pre, current, hpre, ?_, by linarith, rfl⟩
    exact hread.source.imp (fun h => ⟨_, h⟩) id

theorem settleByPosition_notes (message : OrderStatus → String) :
    Notes w (Covered w order brokerOrder)
      (settleByPosition svc order brokerOrder refresh message) := by
  intro s
  unfold settleByPosition
  by_cases hsell : order.side = .sell
  · simp only [hsell, if_true]
    refine Program.Alone.bind ((inferSellOrderFillViaPosition_solo brokerOrder refresh s hsell).and
      (solo_sameNotes _ s)) ?_ (by simp)
    rintro inferred t ⟨⟨hinferred, -, -⟩, hnotes⟩
    obtain rfl := Except.ok.inj hinferred
    rw [← hnotes.evidence]
    cases hdecrease : w.inferred order brokerOrder refresh s.refreshes with
    | none => exact notes_ret none t
    | some d =>
      obtain ⟨pre, current, hpre, hcurrent, hpositive, rfl⟩ := inferred_some _ _ _ hdecrease
      exact settle_notes svc order brokerOrder refresh _ hsell hpre hcurrent hpositive
  · simp only [hsell, if_false]
    exact notes_ret none s

theorem settleByKis_notes (message : ℚ → OrderStatus → String) :
    Notes w (Covered w order brokerOrder) (settleByKis svc order brokerOrder refresh message) := by
  intro s
  unfold settleByKis
  by_cases hsell : order.side = .sell
  · simp only [hsell, if_true]
    refine Program.Alone.bind (tryKisTruthFallback_solo brokerOrder s hsell) ?_ (by simp)
    rintro fill t ⟨hunnoted, decrease, hfill, hdecrease⟩
    obtain rfl := Except.ok.inj hfill
    rw [← hunnoted.evidence]
    cases decrease with
    | none => exact notes_ret none t
    | some d =>
      obtain ⟨pre, current, hpre, hcurrent, hpositive, rfl⟩ := kisDecrease_some _ _ hdecrease
      have hsome : 0 < pre - current := by linarith
      simp only [Option.map_some, hsome, if_true]
      exact settle_notes svc order brokerOrder refresh _ hsell hpre hcurrent hpositive
  · simp only [hsell, if_false]
    exact notes_ret none s

theorem tooYoung_unnoting : (tooYoung order brokerOrder).Only Op.Unnoting fun _ => True := by
  unfold tooYoung
  cases order.createdAt with
  | none => trivial
  | some createdAt => exact (ofSync_unnoting Sync.now).bind (fun _ _ => trivial) fun _ _ => trivial

theorem fallBackToExpired_notes (message : String) :
    Notes w K (fallBackToExpired svc order brokerOrder afterHours message) := by
  refine notes_unnoting (Q := fun _ => True) ?_
  unfold fallBackToExpired
  split
  · trivial
  · split
    · trivial
    · refine (tooYoung_unnoting order brokerOrder).bind (fun young _ => ?_) fun _ _ => trivial
      split
      · trivial
      · refine Program.Only.handle (Q := fun _ => True) ?_ (fun _ _ => trivial) fun _ _ => trivial
        refine (ofSync_unnoting _).bind (fun updated _ => ?_) fun _ _ => trivial
        split <;> trivial

theorem expireStuckOrder_notes (stuck : Int) :
    Notes w K (expireStuckOrder svc order brokerOrder stuck) := by
  refine notes_unnoting (Q := fun _ => True) ?_
  unfold expireStuckOrder
  refine Program.Only.handle (Q := fun _ => True) ?_ (fun _ _ => trivial) fun _ _ => trivial
  refine (ofSync_unnoting _).bind (fun updated _ => ?_) fun _ _ => trivial
  split
  · refine (ofSync_unnoting Sync.now).bind (fun _ _ => ?_) fun _ _ => trivial
    exact (ofSync_unnoting _).bind (fun _ _ => trivial) fun _ _ => trivial
  · trivial

theorem stuckTimeout_notes :
    Notes w (Covered w order brokerOrder)
      (stuckTimeout svc order brokerOrder refresh afterHours) := by
  unfold stuckTimeout
  cases order.createdAt with
  | none => exact notes_ret none
  | some createdAt =>
    refine (notes_unnoting (ofSync_unnoting Sync.now)).bind fun time => ?_
    split
    · split
      · unfold resolveStuck
        split
        · exact notes_ret _
        · refine (settleByKis_notes svc order brokerOrder refresh _).bind fun reached => ?_
          cases reached with
          | none => exact expireStuckOrder_notes svc order brokerOrder _
          | some result => exact notes_ret _
      · split
        · exact notes_ret _
        · exact notes_ret _
    · exact notes_ret _

theorem withoutTruth_notes (e : PyError) :
    Notes w (Covered w order brokerOrder)
      (withoutTruth svc order brokerOrder refresh afterHours e) :=
  (settleByPosition_notes svc order brokerOrder refresh _).andThen
    (fallBackToExpired_notes svc order brokerOrder afterHours _)

theorem withoutRecord_notes :
    Notes w (Covered w order brokerOrder)
      (withoutRecord svc order brokerOrder refresh afterHours) := by
  apply (settleByKis_notes svc order brokerOrder refresh _).andThen
  apply (settleByPosition_notes svc order brokerOrder refresh _).andThen
  apply (stuckTimeout_notes svc order brokerOrder refresh afterHours).andThen
  exact fallBackToExpired_notes svc order brokerOrder afterHours _

theorem reflectTruth_notes (result : OrderStatusResult) :
    Notes w (Covered w order brokerOrder)
      (reflectTruth svc order brokerOrder refresh afterHours result) := by
  refine (notes_unnoting (ofSync_unnoting Sync.now)).bind fun time => ?_
  refine (notes_unnoting (ofSync_unnoting _)).bind fun _ => ?_
  split
  · refine (notes_unnoting (ofSync_unnoting _)).bind fun updated => ?_
    split
    · exact notes_ret _
    · exact notes_ret _
  · have hmanual : (isGenuineManualReconciliation order result).Only Op.Unnoting fun _ => True := by
      unfold isGenuineManualReconciliation
      split
      · refine (ofSync_unnoting Sync.now).bind (fun time _ => ?_) fun _ _ => trivial
        cases order.createdAt <;> trivial
      · trivial
    refine (notes_unnoting hmanual).bind fun manual => ?_
    split
    · exact notes_ret _
    · exact withoutRecord_notes svc order brokerOrder refresh afterHours

theorem transitionToAuthoritative_notes (accountRef : String) :
    Notes w (Covered w order brokerOrder)
      (transitionToAuthoritative svc accountRef order brokerOrder refresh afterHours) := by
  unfold transitionToAuthoritative
  split
  · exact notes_ret _
  · refine (notes_await (.sync (.instrumentsGet order.instrumentId)) trivial).bind fun found => ?_
    refine (notes_unnoting (orRaise_unnoting found)).bind fun symbol => ?_
    refine (notes_await (.brokerResolveUnknownState ..) trivial).bind fun reply => ?_
    cases reply with
    | error e => exact withoutTruth_notes svc order brokerOrder refresh afterHours e
    | ok result => exact reflectTruth_notes svc order brokerOrder refresh afterHours result

theorem resolveBrokerOrders_notes (accountRef : String) (brokerOrders : List BrokerOrderEntity)
    (resolved : Nat) :
    Notes w (fun e => ∃ brokerOrder ∈ brokerOrders, Covered w order brokerOrder e)
      (resolveBrokerOrders svc accountRef refresh afterHours order brokerOrders resolved) := by
  induction brokerOrders generalizing resolved with
  | nil => exact notes_ret resolved
  | cons brokerOrder rest ih =>
    refine Notes.bind ?_ fun result => (ih _).mono ?_
    · refine Notes.handle ?_ fun _ => notes_ret none
      refine (transitionToAuthoritative_notes svc order brokerOrder refresh afterHours
        accountRef).mono fun e he => ?_
      exact ⟨brokerOrder, List.mem_cons_self, he⟩
    · rintro e ⟨other, hother, he⟩
      exact ⟨other, List.mem_cons_of_mem _ hother, he⟩

end

/-- The note is one of an order of the pass and of one of its broker orders. -/
def CoveredIn (w : World) (listings : Listings) (orders : List OrderRequestEntity) (e : Evidence) :
    Prop :=
  ∃ order ∈ orders, ∃ brokerOrders, listings.brokerOrders order.orderRequestId = .ok brokerOrders ∧
    ∃ brokerOrder ∈ brokerOrders, Covered w order brokerOrder e

theorem resolveOrders_notes (svc : OrderSyncService) (accountRef : String)
    (refresh afterHours : Bool) (listings : Listings) (orders : List OrderRequestEntity)
    (resolved : Nat) :
    Notes w (CoveredIn w listings orders)
      (resolveOrders svc accountRef refresh afterHours listings orders resolved) := by
  induction orders generalizing resolved with
  | nil => exact notes_ret resolved
  | cons order rest ih =>
    rw [resolveOrders]
    cases hlisted : listings.brokerOrders order.orderRequestId with
    | error e => exact notes_unnoting (Q := fun _ => True) trivial
    | ok brokerOrders =>
      simp only [orRaise, Program.bind_eq, Program.ret_bind]
      refine Notes.bind ?_ fun count => (ih count).mono ?_
      · refine (resolveBrokerOrders_notes svc order refresh afterHours accountRef brokerOrders
          resolved).mono fun e he => ?_
        exact ⟨order, List.mem_cons_self, brokerOrders, hlisted, he⟩
      · rintro e ⟨other, hother, he⟩
        exact ⟨other, List.mem_cons_of_mem _ hother, he⟩

theorem syncReconcileRequiredOrders_notes (svc : OrderSyncService) (accountRef : String)
    (refresh afterHours : Bool) (listings : Listings) (limit : Nat) :
    Notes w (fun e => ∃ orders, listings.orders limit = .ok orders ∧ CoveredIn w listings orders e)
      (syncReconcileRequiredOrders svc accountRef refresh afterHours listings limit) := by
  unfold syncReconcileRequiredOrders
  cases hlisted : listings.orders limit with
  | error e => exact notes_unnoting (Q := fun _ => True) trivial
  | ok orders =>
    refine (resolveOrders_notes svc accountRef refresh afterHours listings orders 0).mono ?_
    exact fun e he => ⟨orders, rfl, he⟩

end AgentTrading.Sync.Authoritative
