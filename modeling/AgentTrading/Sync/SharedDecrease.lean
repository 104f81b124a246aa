import AgentTrading.Orders.StaleCopies
import AgentTrading.Sync.ExpiredOnPart
import AgentTrading.Sync.ReconcilePass

/-! When one pass attributes the same decrease of a position to two sells. Sells whose windows,
from the position before the order down by its quantity, do not overlap share no decrease; two
whose windows overlap may both be filled by it. -/
namespace AgentTrading.Sync.Authoritative
open Domain Repositories Library

/-- What a pass takes up: the orders in reconciliation, their broker orders, and the snapshots
before them. -/
structure Intake where
  orders : List OrderRequestEntity
  reconcileRequired : ∀ order ∈ orders, order.status = .reconcileRequired
  distinct : (orders.map (·.orderRequestId)).Nodup
  brokerOrders : UUID → List BrokerOrderEntity
  latestBefore : UUID → UUID → Option Time → Option PositionSnapshotEntity

namespace Intake

variable (intake : Intake)

/-- The positions before the broker orders of an order. -/
def positionsBefore (order : OrderRequestEntity) : List ℚ :=
  (intake.brokerOrders order.orderRequestId).filterMap fun brokerOrder =>
    (intake.latestBefore order.accountId order.instrumentId brokerOrder.createdAt).map (·.quantity)

/-- The largest of them. -/
def before (order : OrderRequestEntity) : Option ℚ := (intake.positionsBefore order).max?

/-- Two sells of one account and instrument, each of whose windows ends above the bottom of the
other. -/
structure Overlapping (a b : OrderRequestEntity) : Prop where
  sells : a.side = .sell ∧ b.side = .sell
  account : a.accountId = b.accountId
  instrument : a.instrumentId = b.instrumentId
  known : (intake.before a).isSome ∧ (intake.before b).isSome
  overlap : Windows.Overlap (fun order => (intake.before order).getD 0)
    OrderRequestEntity.requestedQuantity a b

/-- What is answered to the pass is this; a reply may also be an exception. -/
structure Answers (w : World) (listings : Listings) (limit : Nat) : Prop where
  orders : ∀ orders, listings.orders limit = .ok orders → orders = intake.orders
  brokerOrders : ∀ id brokerOrders, listings.brokerOrders id = .ok brokerOrders →
    brokerOrders = intake.brokerOrders id
  latestBefore : ∀ accountId instrumentId time snapshot,
    w.latestBefore accountId instrumentId time = .ok snapshot →
      snapshot = intake.latestBefore accountId instrumentId time

/-- The orders are stored as they are listed, and nothing is noted yet. -/
structure Begins (s : State) : Prop where
  stored : ∀ order ∈ intake.orders, s.sync.store.orders order.orderRequestId = some order
  evidence : s.evidence = []

end Intake

/-- A sell that the pass moved to `filled` by what it inferred from the position. -/
structure InferredFilled (order : OrderRequestEntity) (t : State) : Prop where
  noted : ⟨order.orderRequestId, .filled⟩ ∈ t.evidence
  row : ∃ row, t.sync.store.orders order.orderRequestId = some row ∧ row.status = .filled

/-- Whatever the position is, whatever the broker answers and whenever: the sells of one account
and instrument that a pass fills by inference ask for no more in all than the largest decrease
from a position before one of them to a current position. -/
def Attributed (svc : OrderSyncService) (accountRef : String) (limit : Nat) (intake : Intake) :
    Prop :=
  ∀ (w : World) (listings : Listings) (refresh afterHours : Bool) (cs : Nat → Sync.Choice)
    (s : State), intake.Answers w listings limit → intake.Begins s →
    ∀ (accountId instrumentId : UUID) (orders : Finset OrderRequestEntity), orders.Nonempty →
    (∀ order ∈ orders, order ∈ intake.orders ∧ order.side = .sell ∧ order.accountId = accountId ∧
      order.instrumentId = instrumentId ∧ InferredFilled order
        ((syncReconcileRequiredOrders svc accountRef refresh afterHours listings limit).run
          (Program.drawing w.exec) (cs, s)).2.2) →
    ∃ order ∈ orders, ∃ pre current, intake.before order = some pre ∧ w.Current order current ∧
      ∑ order ∈ orders, order.requestedQuantity ≤ pre - current

theorem le_max_of_mem {l : List ℚ} {q : ℚ} (h : q ∈ l) : ∃ m, l.max? = some m ∧ q ≤ m := by
  cases hmax : l.max? with
  | none =>
    rw [List.max?_eq_none_iff.mp hmax] at h
    cases h
  | some m => exact ⟨m, rfl, (List.max?_eq_some_iff.mp hmax).2 q h⟩

section

variable {w : World} {intake : Intake} {listings : Listings} {limit : Nat}

theorem Intake.Answers.covers (h : intake.Answers w listings limit) {order : OrderRequestEntity}
    (hmem : order ∈ intake.orders) {e : Evidence} (hid : e.orderRequestId = order.orderRequestId)
    (hfilled : e.status = .filled)
    (hnoted : ∃ orders, listings.orders limit = .ok orders ∧ CoveredIn w listings orders e) :
    ∃ pre current, intake.before order = some pre ∧ w.Current order current ∧ current < pre ∧
      order.requestedQuantity ≤ pre - current := by
  obtain ⟨orders, hlisted, other, hother, brokerOrders, hbroker, brokerOrder, hin, hcovered⟩ :=
    hnoted
  obtain rfl := h.orders orders hlisted
  obtain rfl : other = order :=
    Keyed.eq_of_key intake.distinct hother hmem (hcovered.noted.symm.trans hid)
  obtain rfl := h.brokerOrders _ _ hbroker
  obtain ⟨-, pre, current, hpre, hcurrent, hpositive, hquantity⟩ := hcovered.covered hfilled
  have hbefore : pre ∈ intake.positionsBefore other := by
    unfold World.preOrder at hpre
    refine List.mem_filterMap.mpr ⟨brokerOrder, hin, ?_⟩
    cases hreply : w.latestBefore other.accountId other.instrumentId brokerOrder.createdAt with
    | error e => simp [hreply] at hpre
    | ok snapshot =>
      rw [← h.latestBefore _ _ _ _ hreply]
      cases snapshot with
      | none => simp [hreply] at hpre
      | some snapshot =>
        simp only [hreply, Option.some.injEq] at hpre
        exact congrArg some hpre
  obtain ⟨largest, hlargest, hle⟩ := le_max_of_mem hbefore
  exact ⟨largest, current, hlargest, hcurrent, by linarith, by linarith⟩

theorem attributed_of_apart (svc : OrderSyncService) (accountRef : String)
    (hapart : ∀ a ∈ intake.orders, ∀ b ∈ intake.orders, a ≠ b → ¬ intake.Overlapping a b) :
    Attributed svc accountRef limit intake := by
  intro w listings refresh afterHours cs s hanswers hbegins accountId instrumentId
    orders hne horders
  have hsolo := syncReconcileRequiredOrders_notes (w := w) svc accountRef refresh afterHours
    listings limit s
  have hnotes := @Program.Alone.run _ _ _ _ _ _ _ _ _ _ _ s cs (fun _ _ _ => trivial) hsolo
  rw [hbegins.evidence] at hnotes
  have hcovers : ∀ order ∈ orders, ∃ current, (intake.before order).isSome ∧
      w.Current order current ∧ current < (intake.before order).getD 0 ∧
      order.requestedQuantity ≤ (intake.before order).getD 0 - current := by
    intro order horder
    obtain ⟨hmem, -, -, -, hfilled⟩ := horders order horder
    obtain ⟨pre, current, hpre, hcurrent, hlt, hle⟩ := hanswers.covers hmem rfl rfl
      ((hnotes _ hfilled.noted).resolve_left (by simp))
    simp only [hpre, Option.isSome_some, Option.getD_some, true_and]
    exact ⟨current, hcurrent, hlt, hle⟩
  choose! current hknown hcurrent hlt hle using hcovers
  have hwindows : ∀ a ∈ orders, ∀ b ∈ orders, a ≠ b → ¬ Windows.Overlap
      (fun order => (intake.before order).getD 0) OrderRequestEntity.requestedQuantity a b := by
    intro a ha b hb hab hoverlap
    obtain ⟨hmem, hsell, haccount, hinstrument, -⟩ := horders a ha
    obtain ⟨hmem', hsell', haccount', hinstrument', -⟩ := horders b hb
    exact hapart a hmem b hmem' hab ⟨⟨hsell, hsell'⟩, haccount.trans haccount'.symm,
      hinstrument.trans hinstrument'.symm, ⟨hknown a ha, hknown b hb⟩, hoverlap⟩
  obtain ⟨a, ha, b, hb, hsum⟩ := Windows.sum_le_of_any orders hne hle hlt hwindows
  obtain ⟨-, -, haccount, hinstrument, -⟩ := horders a ha
  obtain ⟨-, -, haccount', hinstrument', -⟩ := horders b hb
  obtain ⟨pre, hpre⟩ := Option.isSome_iff_exists.mp (hknown a ha)
  refine ⟨a, ha, pre, current b, hpre, ?_, ?_⟩
  · exact (hcurrent b hb).congr (haccount'.trans haccount.symm)
      (hinstrument'.trans hinstrument.symm)
  · simpa only [hpre, Option.getD_some] using hsum

end

section

variable {w : World} {order : OrderRequestEntity} {s : State}

/-- One step of a chain on a row that is open, though the caller's copy may be behind it. -/
theorem followChain_open (svc : OrderSyncService) {target step : OrderStatus}
    {steps : List OrderStatus} {current row : OrderRequestEntity}
    {post : Except PyError OrderRequestEntity → State → Prop}
    (hrow : s.sync.store.orders current.orderRequestId = some row)
    (hkey : row.orderRequestId = current.orderRequestId)
    (hopen : row.status ∉ Orders.terminalStates)
    (hallowed : step ∈ Orders.allowedTransitions current.status) (hne : current.status ≠ step)
    (hrest : ∀ written store, written.orderRequestId = current.orderRequestId →
      written.status = step →
      Orders.Replaced current.orderRequestId row step s.sync.store store →
      Solo w post (ofSync (svc.followChain target none none steps written)) (s.withStore store)) :
    Solo w post (ofSync (svc.followChain target none none (step :: steps) current)) s := by
  have hopened : OrdersSolo _ (Orders.transitionTo svc.reconciliation current step {})
      s.sync.store :=
    Orders.transitionTo_open svc.reconciliation hrow hkey hopen hallowed (by decide)
  have hfirst := (solo_ofOrders (w := w) hopened).attempt
  rw [OrderSyncService.followChain, if_neg hne]
  unfold ofSync
  simp only [ite_self, Program.bind_eq, Program.lift_bind, Program.lift_attempt]
  refine Program.Alone.bind hfirst ?_ (by simp)
  rintro next t (⟨_, hnext, store, ⟨⟨written, hok, hid, hstatus⟩, hreplaced⟩, rfl⟩ |
    ⟨e, -, store, ⟨⟨_, hok, -⟩, -⟩, -⟩)
  · obtain rfl := Except.ok.inj hok
    obtain rfl := Except.ok.inj hnext
    exact hrest _ store hid hstatus hreplaced
  · cases hok

/-- The chain of an order in reconciliation ends in `filled`. -/
theorem tryTransition_filled_replaced (svc : OrderSyncService) (h : Stored order s) :
    Solo w (fun r t => (∃ moved, r = .ok moved ∧ moved.status = .filled) ∧
      Orders.Replaced order.orderRequestId order .filled s.sync.store t.sync.store)
      (ofSync (svc.tryTransition order .filled none none)) s := by
  rw [tryTransition_filled svc h.status]
  have hopen : order.status ∉ Orders.terminalStates := by
    rw [h.status]
    decide
  have hallowed : OrderStatus.acknowledged ∈ Orders.allowedTransitions order.status := by
    rw [h.status]
    decide
  have hne : order.status ≠ .acknowledged := by
    rw [h.status]
    decide
  refine followChain_open svc h.row rfl hopen hallowed hne ?_
  rintro first store hid hstatus ⟨row, horders, hkey, hrow, hversion⟩
  have hstored : store.orders first.orderRequestId = some row := by
    rw [hid, horders, Function.update_self]
  refine followChain_open svc hstored (hkey.trans hid.symm) ?_ ?_ ?_ ?_
  · rw [hrow]
    decide
  · rw [hstatus]
    decide
  · rw [hstatus]
    decide
  rintro second store₂ hid₂ hstatus₂ hreplaced₂
  rw [hid] at hid₂ hreplaced₂
  have htwo : Orders.Replaced order.orderRequestId order .partiallyFilled s.sync.store store₂ :=
    Orders.Replaced.again horders hversion hreplaced₂
  obtain ⟨row₂, horders₂, hkey₂, hrow₂, hversion₂⟩ := htwo
  have hstored₂ : store₂.orders second.orderRequestId = some row₂ := by
    rw [hid₂, horders₂, Function.update_self]
  refine followChain_open svc hstored₂ (hkey₂.trans hid₂.symm) ?_ ?_ ?_ ?_
  · rw [hrow₂]
    decide
  · rw [hstatus₂]
    decide
  · rw [hstatus₂]
    decide
  rintro third store₃ hid₃ hstatus₃ hreplaced₃
  rw [hid₂] at hreplaced₃
  refine Program.alone_ret ⟨⟨third, rfl, hstatus₃⟩, ?_⟩
  exact Orders.Replaced.again horders₂ hversion₂ hreplaced₃

theorem tryTransition_filled_finished (svc : OrderSyncService) {row : OrderRequestEntity}
    (hstatus : order.status = .reconcileRequired)
    (hrow : s.sync.store.orders order.orderRequestId = some row)
    (hfinished : row.status ∈ Orders.terminalStates) (hversion : order.version ≠ row.version) :
    Solo w (fun r t => r = .ok order ∧ SameRows s t)
      (ofSync (svc.tryTransition order .filled none none)) s := by
  have hkept : OrdersSolo _ (Orders.transitionTo svc.reconciliation order .acknowledged {})
      s.sync.store :=
    Orders.transitionTo_finished svc.reconciliation hrow hfinished hversion (by decide)
  have hfirst := (solo_ofOrders (w := w) hkept).attempt
  have hne : order.status ≠ .acknowledged := by
    rw [hstatus]
    decide
  rw [tryTransition_filled svc hstatus, OrderSyncService.followChain, if_neg hne]
  unfold ofSync
  simp only [ite_self, Program.bind_eq, Program.lift_bind, Program.lift_attempt]
  refine Program.Alone.bind hfirst ?_ (by simp)
  rintro next t (⟨_, -, store, ⟨⟨_, hok⟩, -⟩, -⟩ | ⟨e, hnext, store, ⟨-, hsame⟩, rfl⟩)
  · cases hok
  · obtain rfl := Except.ok.inj hnext
    exact Program.alone_ret ⟨rfl, hsame⟩

end

/-! A pass in which nothing but the position tells of the orders. -/

/-- The order is filled in another version than the caller's, and a complete fill is noted. -/
structure Settled (order : OrderRequestEntity) (t : State) : Prop where
  row : ∃ row, t.sync.store.orders order.orderRequestId = some row ∧ row.status = .filled ∧
    order.version ≠ row.version
  noted : ⟨order.orderRequestId, .filled⟩ ∈ t.evidence

/-- As the order is listed, or settled. -/
def Pending (order : OrderRequestEntity) (t : State) : Prop :=
  t.sync.store.orders order.orderRequestId = some order ∨ Settled order t

/-- No order of the pass is left but by being settled. -/
def Progress (intake : Intake) (s t : State) : Prop :=
  ∀ order ∈ intake.orders, (Pending order s → Pending order t) ∧ (Settled order s → Settled order t)

/-- The decrease from the position before the broker order is the same at every read, and covers
the quantity. -/
structure Covers (w : World) (order : OrderRequestEntity) (brokerOrder : BrokerOrderEntity) :
    Prop where
  sell : order.side = .sell
  decrease : ∃ pre current, w.preOrder order brokerOrder = some pre ∧
    (∀ refreshes, w.stored order refreshes = current) ∧ current < pre ∧
    order.requestedQuantity ≤ pre - current

section

variable {w : World} {intake : Intake} {order : OrderRequestEntity} {s t u : State}

theorem Progress.refl (s : State) : Progress intake s s := fun _ _ => ⟨id, id⟩

theorem Progress.trans (h₁ : Progress intake s t) (h₂ : Progress intake t u) :
    Progress intake s u :=
  fun order hmem => ⟨(h₂ order hmem).1 ∘ (h₁ order hmem).1, (h₂ order hmem).2 ∘ (h₁ order hmem).2⟩

theorem Settled.mono (h : Settled order s)
    (hrow : t.sync.store.orders order.orderRequestId = s.sync.store.orders order.orderRequestId)
    (hnotes : ∀ e ∈ s.evidence, e ∈ t.evidence) : Settled order t := by
  refine ⟨?_, hnotes _ h.noted⟩
  rw [hrow]
  exact h.row

theorem progress_of_same (hrows : SameRows s t) (hnotes : ∀ e ∈ s.evidence, e ∈ t.evidence) :
    Progress intake s t := by
  intro order _
  have hrow := congrFun hrows order.orderRequestId
  refine ⟨fun h => h.imp (fun h => hrow.trans h) fun h => ?_, fun h => ?_⟩
  · exact h.mono hrow hnotes
  · exact h.mono hrow hnotes

/-- The order whose row was replaced is settled; the others are as they were. -/
theorem progress_of_replaced (hmem : order ∈ intake.orders)
    (hreplaced : Orders.Replaced order.orderRequestId order .filled s.sync.store t.sync.store)
    (hnotes : ∀ e ∈ s.evidence, e ∈ t.evidence)
    (hnoted : ⟨order.orderRequestId, .filled⟩ ∈ t.evidence) :
    Progress intake s t ∧ Settled order t := by
  obtain ⟨row, horders, -, hstatus, hversion⟩ := hreplaced
  have hsettled : Settled order t := by
    refine ⟨⟨row, ?_, hstatus, by omega⟩, hnoted⟩
    rw [horders, Function.update_self]
  refine ⟨fun other hother => ?_, hsettled⟩
  by_cases hid : other.orderRequestId = order.orderRequestId
  · obtain rfl := Keyed.eq_of_key intake.distinct hother hmem hid
    exact ⟨fun _ => Or.inr hsettled, fun _ => hsettled⟩
  · have hrow : t.sync.store.orders other.orderRequestId =
        s.sync.store.orders other.orderRequestId := by
      rw [horders, Function.update_of_ne hid]
    refine ⟨fun h => h.imp (fun h => hrow.trans h) fun h => ?_, fun h => ?_⟩
    · exact h.mono hrow hnotes
    · exact h.mono hrow hnotes

variable (svc : OrderSyncService) (brokerOrder : BrokerOrderEntity) (refresh : Bool)

theorem settleInferred_kept (message : String) {post : State → Prop}
    (htry : Solo w (fun _ t => post t) (ofSync (svc.tryTransition order .filled none none)) s)
    (hkept : ∀ {t u : State}, SameRows t u → post t → post u) :
    Solo w (fun _ t => post t)
      (settleInferred svc order brokerOrder refresh .filled message) s := by
  have hsettled : Solo w (fun _ t => post t)
      ((ofSync (svc.tryTransition order .filled none none)).bind fun updated =>
        if updated.status ≠ order.status then
          (followFill order brokerOrder refresh .filled).bind fun _ =>
            .ret (some (some (inferredResult order brokerOrder .filled message)))
        else .ret none) s := by
    apply Program.Alone.bind htry
    · intro updated t ht
      split
      · apply Program.Alone.bind (solo_following (followFill_following ..))
        · exact fun _ u hu => Program.alone_ret (hkept hu.1 ht)
        · exact fun _ u hu => hkept hu.1 ht
      · exact Program.alone_ret ht
    · exact fun _ _ ht => ht
  apply Program.Alone.handle hsettled
  · exact fun _ _ h => h
  · exact fun _ _ h => Program.alone_ret h

theorem settleInferred_stored (message : String) (h : Stored order s) :
    Solo w (fun _ t => Orders.Replaced order.orderRequestId order .filled s.sync.store
      t.sync.store) (settleInferred svc order brokerOrder refresh .filled message) s := by
  apply settleInferred_kept
  · exact (tryTransition_filled_replaced svc h).mono fun _ _ ht => ht.2
  · exact fun hrows hreplaced => hreplaced.same hrows

theorem settleInferred_settled (message : String) (hstatus : order.status = .reconcileRequired)
    (h : Settled order s) :
    Solo w (fun _ t => SameRows s t)
      (settleInferred svc order brokerOrder refresh .filled message) s := by
  obtain ⟨row, hrow, hfilled, hversion⟩ := h.row
  have hfinished : row.status ∈ Orders.terminalStates := by
    rw [hfilled]
    decide
  apply settleInferred_kept
  · exact (tryTransition_filled_finished svc hstatus hrow hfinished hversion).mono
      fun _ _ ht => ht.2
  · exact fun hrows hsame => hsame.trans hrows

theorem settle_progress (message : String) (d : ℚ) (hmem : order ∈ intake.orders)
    (h : Pending order s) :
    Solo w (fun _ t => Progress intake s t ∧ (order.requestedQuantity ≤ d → Settled order t))
      (.call (.noteEvidence order.orderRequestId (statusOfDelta order d)) fun _ =>
        settleInferred svc order brokerOrder refresh (statusOfDelta order d) message) s := by
  have hstatus := intake.reconcileRequired order hmem
  refine solo_call fun c => ?_
  by_cases hd : d < order.requestedQuantity
  · rw [settleInferred_part svc brokerOrder refresh message hstatus hd]
    refine Program.alone_ret ⟨progress_of_same rfl fun e he => ?_, fun hle => ?_⟩
    · exact List.mem_append_left _ he
    · exact absurd hd (not_lt.mpr hle)
  · have hfilled : statusOfDelta order d = .filled := if_pos (not_lt.mp hd)
    rw [hfilled]
    have hevidence := unnoting_solo (w := w)
      (settleInferred_unnoting svc order brokerOrder refresh .filled message)
      (w.exec c (.noteEvidence order.orderRequestId .filled) s).2
    have hnotes : ∀ {t : State}, t.evidence =
        (w.exec c (.noteEvidence order.orderRequestId .filled) s).2.evidence →
        (∀ e ∈ s.evidence, e ∈ t.evidence) ∧ ⟨order.orderRequestId, .filled⟩ ∈ t.evidence := by
      intro t ht
      rw [ht]
      exact ⟨fun e he => List.mem_append_left _ he,
        List.mem_append_right _ (List.mem_singleton_self _)⟩
    rcases h with hrow | hsettled
    · have hstored : Stored order (w.exec c (.noteEvidence order.orderRequestId .filled) s).2 :=
        ⟨hrow, hstatus⟩
      refine Program.Alone.mono ((settleInferred_stored svc brokerOrder refresh message
        hstored).and hevidence) fun _ t ht => ?_
      obtain ⟨hkept, hnoted⟩ := hnotes ht.2
      have hprogress : Progress intake s t ∧ Settled order t :=
        progress_of_replaced hmem ht.1 hkept hnoted
      exact ⟨hprogress.1, fun _ => hprogress.2⟩
    · have hsettled' : Settled order (w.exec c (.noteEvidence order.orderRequestId .filled) s).2 :=
        hsettled.mono rfl fun e he => List.mem_append_left _ he
      refine Program.Alone.mono ((settleInferred_settled svc brokerOrder refresh message hstatus
        hsettled').and hevidence) fun _ t ht => ?_
      obtain ⟨hkept, hnoted⟩ := hnotes ht.2
      have hprogress : Progress intake s t := progress_of_same ht.1 hkept
      exact ⟨hprogress, fun _ => (hprogress order hmem).2 hsettled⟩

theorem Covers.inferred {brokerOrder : BrokerOrderEntity} (h : Covers w order brokerOrder)
    (refresh : Bool) (refreshes : Nat) :
    ∃ d, w.inferred order brokerOrder refresh refreshes = some d ∧ order.requestedQuantity ≤ d := by
  obtain ⟨pre, current, hpre, hstored, hlt, hle⟩ := h.decrease
  have hshown : w.shown order pre refreshes = some (pre - current) := by
    unfold World.shown World.positive
    rw [hstored, if_pos (sub_pos.mpr hlt)]
  refine ⟨pre - current, ?_, hle⟩
  simp [World.inferred, hpre, World.storedDecrease, hshown]

theorem settleByPosition_progress (message : OrderStatus → String) (hmem : order ∈ intake.orders)
    (h : Pending order s) :
    Solo w (fun _ t => Progress intake s t ∧ (Covers w order brokerOrder → Settled order t))
      (settleByPosition svc order brokerOrder refresh message) s := by
  unfold settleByPosition
  by_cases hsell : order.side = .sell
  · simp only [hsell, if_true]
    refine Program.Alone.bind ((inferSellOrderFillViaPosition_solo brokerOrder refresh s hsell).and
      (solo_sameNotes _ s)) ?_ (by simp)
    rintro inferred t ⟨⟨hinferred, hrows, -⟩, hnotes⟩
    obtain rfl := Except.ok.inj hinferred
    have hsame : Progress intake s t := progress_of_same hrows fun e he => by rwa [hnotes.evidence]
    cases hdecrease : w.inferred order brokerOrder refresh s.refreshes with
    | none =>
      refine Program.alone_ret ⟨hsame, fun hcovers => ?_⟩
      obtain ⟨d, hd, -⟩ := hcovers.inferred refresh s.refreshes
      rw [hdecrease] at hd
      cases hd
    | some d =>
      refine (settle_progress svc brokerOrder refresh _ d hmem ((hsame order hmem).1 h)).mono ?_
      rintro r u ⟨hprogress, hsettled⟩
      refine ⟨hsame.trans hprogress, fun hcovers => hsettled ?_⟩
      obtain ⟨d', hd', hle⟩ := hcovers.inferred refresh s.refreshes
      rw [hdecrease] at hd'
      obtain rfl := Option.some.inj hd'
      exact hle
  · simp only [hsell, if_false]
    exact Program.alone_ret ⟨.refl s, fun hcovers => (hsell hcovers.sell).elim⟩

theorem call_progress (accountRef : String) (hmem : order ∈ intake.orders) (h : Pending order s)
    (hreply : ∃ e, w.unknownState brokerOrder.brokerNativeOrderId = .error e) :
    Program.Can w.exec (fun _ t => Progress intake s t ∧
      (Covers w order brokerOrder → Settled order t))
      (transitionToAuthoritative svc accountRef order brokerOrder refresh false) s := by
  obtain ⟨e, he⟩ := hreply
  unfold transitionToAuthoritative
  simp only [intake.reconcileRequired order hmem, ne_eq, not_true_eq_false, if_false]
  refine Program.can_call { unanswered with instrument := .ok none } ?_
  show Program.Can w.exec _ (Program.call _ _) s
  refine Program.can_call unanswered ?_
  show Program.Can w.exec _ (Program.bind
    (Program.ret (w.unknownState brokerOrder.brokerNativeOrderId)) _) s
  rw [he]
  refine andThen_can (settleByPosition_progress svc brokerOrder refresh _ hmem h) ?_ ?_ ?_
  · exact fun _ _ ht => ht
  · intro t ht
    have hnone : fallBackToExpired svc order brokerOrder false
        ("Fallback EXPIRED: " ++ ("resolve_unknown_state failed: " ++ svc.errorText e)) =
        .ret none := by
      simp [fallBackToExpired]
    rw [hnone]
    exact Program.can_ret ht
  · exact fun _ _ ht => ht

theorem resolveBrokerOrders_progress (accountRef : String) (brokerOrders : List BrokerOrderEntity)
    (resolved : Nat) (hmem : order ∈ intake.orders) (h : Pending order s)
    (hreply : ∀ id, ∃ e, w.unknownState id = .error e) :
    Program.Can w.exec (fun r t => (∃ count, r = .ok count) ∧ Progress intake s t ∧
      ((∃ brokerOrder ∈ brokerOrders, Covers w order brokerOrder) → Settled order t))
      (resolveBrokerOrders svc accountRef refresh false order brokerOrders resolved) s := by
  induction brokerOrders generalizing resolved s with
  | nil => exact Program.can_ret ⟨⟨resolved, rfl⟩, .refl s, by simp⟩
  | cons brokerOrder rest ih =>
    have hcall : Program.Can w.exec (fun r t => (∃ result, r = .ok result) ∧ Progress intake s t ∧
        (Covers w order brokerOrder → Settled order t))
        ((transitionToAuthoritative svc accountRef order brokerOrder refresh false).handle
          fun _ => return none) s := by
      refine (call_progress svc brokerOrder refresh accountRef hmem h (hreply _)).handle ?_ ?_
      · exact fun result t ht => ⟨⟨result, rfl⟩, ht⟩
      · exact fun _ t ht => Program.can_ret ⟨⟨none, rfl⟩, ht⟩
    refine hcall.bind ?_ ?_
    · rintro result t ⟨-, hprogress, hsettled⟩
      refine (ih _ ((hprogress order hmem).1 h)).mono ?_
      rintro r u ⟨hr, hprogress', hsettled'⟩
      refine ⟨hr, hprogress.trans hprogress', ?_⟩
      rintro ⟨other, hother, hcovers⟩
      rcases List.mem_cons.mp hother with rfl | hother
      · exact (hprogress' order hmem).2 (hsettled hcovers)
      · exact hsettled' ⟨other, hother, hcovers⟩
    · rintro e t ⟨⟨_, hr⟩, -⟩
      cases hr

/-- What the repositories list of the orders taken up. -/
def Intake.listings (intake : Intake) : Listings where
  orders := fun _ => .ok intake.orders
  brokerOrders := fun id => .ok (intake.brokerOrders id)

theorem resolveOrders_progress (accountRef : String) (orders : List OrderRequestEntity)
    (resolved : Nat) (hsub : orders ⊆ intake.orders) (h : ∀ order ∈ intake.orders, Pending order s)
    (hreply : ∀ id, ∃ e, w.unknownState id = .error e) :
    Program.Can w.exec (fun _ t => ∀ order ∈ orders,
      (∃ brokerOrder ∈ intake.brokerOrders order.orderRequestId, Covers w order brokerOrder) →
        Settled order t)
      (resolveOrders svc accountRef refresh false intake.listings orders resolved) s := by
  have hmain : Program.Can w.exec (fun _ t => Progress intake s t ∧ ∀ order ∈ orders,
      (∃ brokerOrder ∈ intake.brokerOrders order.orderRequestId, Covers w order brokerOrder) →
        Settled order t)
      (resolveOrders svc accountRef refresh false intake.listings orders resolved) s := by
    induction orders generalizing resolved s with
    | nil => exact Program.can_ret ⟨.refl s, by simp⟩
    | cons order rest ih =>
      have hmem := hsub List.mem_cons_self
      rw [resolveOrders]
      simp only [Intake.listings, orRaise, Program.bind_eq, Program.ret_bind]
      refine (resolveBrokerOrders_progress svc refresh accountRef _ resolved hmem (h order hmem)
        hreply).bind ?_ ?_
      · rintro count t ⟨-, hprogress, hsettled⟩
        refine (ih count (fun _ ho => hsub (List.mem_cons_of_mem _ ho))
          fun other ho => (hprogress other ho).1 (h other ho)).mono ?_
        rintro r u ⟨hprogress', hsettled'⟩
        refine ⟨hprogress.trans hprogress', fun other hother hcovers => ?_⟩
        rcases List.mem_cons.mp hother with rfl | hother
        · exact (hprogress' other hmem).2 (hsettled hcovers)
        · exact hsettled' other hother hcovers
      · rintro e t ⟨⟨_, hr⟩, -⟩
        cases hr
  exact hmain.mono fun _ _ ht => ht.2

end

/-- The inquiries fail, and the position of the order's instrument is `current`. -/
def Intake.world (intake : Intake) (order : OrderRequestEntity) (current : ℚ) : World where
  opened := 0
  span := 0
  unknownState := fun _ => .error (.other "Timeout")
  account := fun _ => .ok none
  brokerAccount := fun _ => .ok none
  positions := fun _ => .ok []
  latestBefore := fun accountId instrumentId time =>
    .ok (intake.latestBefore accountId instrumentId time)
  latestPositions := fun _ _ => .ok [{
    accountId := order.accountId
    instrumentId := order.instrumentId
    quantity := current
    snapshotAt := 0 }]

/-- The orders taken up are stored. -/
def Intake.state (intake : Intake) : State where
  sync :=
    { store :=
        { clock := 0
          nextId := 0
          orders := fun id => intake.orders.find? (·.orderRequestId = id)
          statusWrites := []
          orderStateEvents := []
          auditLogs := []
          brokerOrders := []
          submissionAttempts := []
          strategies := []
          runs := []
          locks := fun _ => none
          orderLinks := []
          brokerCalls := []
          restOutcomes := [] }
      appendEnabled := true }

namespace Intake

variable (intake : Intake) {a b : OrderRequestEntity} {current : ℚ}

theorem world_answers (limit : Nat) :
    intake.Answers (intake.world a current) intake.listings limit := by
  refine ⟨?_, ?_, ?_⟩
  · rintro orders h
    exact (Except.ok.inj h).symm
  · rintro id brokerOrders h
    exact (Except.ok.inj h).symm
  · rintro accountId instrumentId time snapshot h
    exact (Except.ok.inj h).symm

theorem state_begins : intake.Begins intake.state :=
  ⟨fun order hmem => (Keyed.find?_key intake.distinct _ order).mpr ⟨hmem, rfl⟩, rfl⟩

theorem world_stored (h : a.instrumentId = b.instrumentId) (refreshes : Nat) :
    (intake.world a current).stored b refreshes = current := by
  simp [World.stored, world, h]

theorem world_current (h : a.instrumentId = b.instrumentId) {q : ℚ}
    (hq : (intake.world a current).Current b q) : q = current := by
  rcases hq with ⟨n, hn⟩ | hheld
  · rw [hn]
    exact intake.world_stored h n
  · cases hheld

/-- An order whose window reaches below `current` is covered by one of its broker orders. -/
theorem world_covers (h : a.instrumentId = b.instrumentId) (hsell : b.side = .sell) {pre : ℚ}
    (hpre : intake.before b = some pre) (hlt : current < pre)
    (hle : b.requestedQuantity ≤ pre - current) :
    ∃ brokerOrder ∈ intake.brokerOrders b.orderRequestId,
      Covers (intake.world a current) b brokerOrder := by
  obtain ⟨brokerOrder, hin, hsnapshot⟩ := List.mem_filterMap.mp (List.max?_mem hpre)
  obtain ⟨snapshot, hsome, hquantity⟩ := Option.map_eq_some_iff.mp hsnapshot
  refine ⟨brokerOrder, hin, hsell, pre, current, ?_, intake.world_stored h, hlt, hle⟩
  simp [World.preOrder, world, hsome, hquantity]

end Intake

theorem not_attributed_of_overlap (svc : OrderSyncService) (accountRef : String) (limit : Nat)
    {intake : Intake} {a b : OrderRequestEntity} (ha : a ∈ intake.orders) (hb : b ∈ intake.orders)
    (hab : a ≠ b) (h : intake.Overlapping a b) : ¬ Attributed svc accountRef limit intake := by
  intro hattributed
  obtain ⟨pre, hpre⟩ := Option.isSome_iff_exists.mp h.known.1
  obtain ⟨pre', hpre'⟩ := Option.isSome_iff_exists.mp h.known.2
  have hoverlap := h.overlap
  have hexceeds := hoverlap.exceeds
  unfold Windows.Overlap at hoverlap
  simp only [hpre, hpre', Option.getD_some] at hoverlap hexceeds
  obtain ⟨hpositive, hpositive', -, -⟩ := hoverlap
  obtain ⟨hfit, hfit', hover⟩ := hexceeds
  let current := min (pre - a.requestedQuantity) (pre' - b.requestedQuantity)
  have hpending : ∀ order ∈ intake.orders, Pending order intake.state :=
    fun order hmem => Or.inl (intake.state_begins.stored order hmem)
  obtain ⟨cs, hcs⟩ := resolveOrders_progress (w := intake.world a current) svc false accountRef
    intake.orders 0 (fun _ => id) hpending fun _ => ⟨_, rfl⟩
  have hsettled : Settled a _ := hcs a ha
    (intake.world_covers rfl h.sells.1 hpre (by linarith) hfit)
  have hsettled' : Settled b _ := hcs b hb
    (intake.world_covers h.instrument h.sells.2 hpre' (by linarith) hfit')
  have hfilled : ∀ {order t}, Settled order t → InferredFilled order t := by
    rintro order t ⟨⟨row, hrow, hstatus, -⟩, hnoted⟩
    exact ⟨hnoted, row, hrow, hstatus⟩
  obtain ⟨order, hmem, largest, q, hlargest, hcurrent, hsum⟩ := hattributed (intake.world a current)
    intake.listings false false cs intake.state (intake.world_answers limit) intake.state_begins
    a.accountId a.instrumentId {a, b} ⟨a, Finset.mem_insert_self a _⟩ (by
      intro order hmem
      rcases Finset.mem_insert.mp hmem with rfl | hmem
      · exact ⟨ha, h.sells.1, rfl, rfl, hfilled hsettled⟩
      · obtain rfl := Finset.mem_singleton.mp hmem
        exact ⟨hb, h.sells.2, h.account.symm, h.instrument.symm, hfilled hsettled'⟩)
  rw [Finset.sum_pair hab] at hsum
  rcases Finset.mem_insert.mp hmem with rfl | hmem
  · obtain rfl := intake.world_current rfl hcurrent
    rw [hpre] at hlargest
    obtain rfl := Option.some.inj hlargest
    have := le_max_left pre pre'
    linarith
  · obtain rfl := Finset.mem_singleton.mp hmem
    obtain rfl := intake.world_current h.instrument hcurrent
    rw [hpre'] at hlargest
    obtain rfl := Option.some.inj hlargest
    have := le_max_right pre pre'
    linarith

/-- The sells a pass fills by inference share no decrease of a position, wherever it ends, just
when the windows of no two of them overlap. -/
theorem attributed_iff (svc : OrderSyncService) (accountRef : String) (limit : Nat)
    (intake : Intake) :
    Attributed svc accountRef limit intake ↔
      ∀ a ∈ intake.orders, ∀ b ∈ intake.orders, a ≠ b → ¬ intake.Overlapping a b := by
  constructor
  · intro hattributed a ha b hb hab hoverlap
    exact not_attributed_of_overlap svc accountRef limit ha hb hab hoverlap hattributed
  · exact attributed_of_apart svc accountRef

/-! Two sells of ten shares, before each of which twenty were held, and of which ten are left. -/

def twoSells : Intake where
  orders := [halfSold, { halfSold with orderRequestId := 5, clientOrderId := "C-5" }]
  reconcileRequired := by decide
  distinct := by decide
  brokerOrders :=
    fun id => [{ halfSoldAtBroker with brokerOrderId := id + 10, orderRequestId := id }]
  latestBefore := fun _ _ _ => some (sharesHeld 20 (-1))

theorem twoSells_filled_by_one_decrease :
    ¬ Attributed plainService "50000000-01" 5 twoSells ∧
      let t := ((syncReconcileRequiredOrders plainService "50000000-01" true false
        twoSells.listings 5).run (Program.drawing (twoSells.world halfSold 10).exec)
          (fun _ => { unanswered with instrument := .ok none }, twoSells.state)).2.2
      t.evidence = [⟨1, .filled⟩, ⟨5, .filled⟩] ∧
        (t.sync.store.orders 1).map (·.status) = some .filled ∧
        (t.sync.store.orders 5).map (·.status) = some .filled := by
  refine ⟨?_, ?_, ?_, ?_⟩
  · apply not_attributed_of_overlap plainService "50000000-01" 5
      (List.mem_cons_self (a := halfSold))
      (List.mem_cons_of_mem _ List.mem_cons_self) (by decide)
    refine ⟨⟨rfl, rfl⟩, rfl, rfl, by decide, ?_⟩
    unfold Windows.Overlap
    decide +kernel
  all_goals decide +kernel

end AgentTrading.Sync.Authoritative
