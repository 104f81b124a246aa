import AgentTrading.Sync.ExpiredEvidence
import AgentTrading.Sync.FilledFills
import AgentTrading.Sync.StoredReads

/-! The other direction: a part of the quantity that the positions show an order past its grace
period is noted and then passed over, up to the expiry. -/
namespace AgentTrading.Sync.Authoritative
open Domain Repositories Library

instance : Nonempty Sync.Choice := ⟨unanswered⟩

/-- So much time passes, and nothing answers. -/
def passing (elapsed : Nat) : Sync.Choice :=
  { unanswered with orders := { unanswered.orders with elapsed := elapsed } }

variable {w : World} {order : OrderRequestEntity} {brokerOrder : BrokerOrderEntity}
variable {refresh : Bool}

theorem now_can (elapsed : Nat) (s : State) :
    Program.Can w.exec (fun r t =>
      r = .ok (s.sync.store.clock + (min elapsed (w.closed - s.sync.store.clock).toNat : Nat)) ∧
      t = s.withStore { s.sync.store with
        clock := s.sync.store.clock + (min elapsed (w.closed - s.sync.store.clock).toNat : Nat) })
      now s :=
  Program.can_call (passing elapsed) (Program.can_ret ⟨rfl, rfl⟩)

theorem advance_none (clock closed : Int) :
    clock + (min 0 (closed - clock).toNat : Nat) = clock := by
  simp

theorem advance_all {opened clock : Int} {span : Nat} (h : opened ≤ clock)
    (h' : clock ≤ opened + span) :
    clock + (min span (opened + span - clock).toNat : Nat) = opened + span := by
  omega

theorem now_can_still (s : State) :
    Program.Can w.exec (fun r t => r = .ok s.sync.store.clock ∧ t = s) now s := by
  refine (now_can 0 s).mono fun r t ⟨hr, ht⟩ => ?_
  rw [advance_none] at hr ht
  exact ⟨hr, ht⟩

theorem now_can_closed {s : State} (htimely : Timely w s) :
    Program.Can w.exec (fun r t => r = .ok w.closed ∧ Unnoted s t) now s := by
  refine (now_can w.span s).mono fun r t ⟨hr, ht⟩ => ?_
  refine ⟨hr.trans (congrArg Except.ok (advance_all htimely.1 htimely.2)), ?_⟩
  rw [ht]
  exact ⟨rfl, rfl, rfl, fun _ => id⟩

theorem tooYoung_can {s : State} (htimely : Timely w s) (hgrace : PastGrace w order brokerOrder) :
    Program.Can w.exec (fun r t => r = .ok false ∧ Unnoted s t) (tooYoung order brokerOrder) s := by
  unfold tooYoung
  cases hcreated : order.createdAt with
  | none => exact Program.can_ret ⟨rfl, .refl s⟩
  | some createdAt =>
    refine (now_can_closed htimely).bind ?_ (by simp)
    rintro time t ⟨htime, hunnoted⟩
    obtain rfl := Except.ok.inj htime
    apply Program.can_ret
    simp [hgrace createdAt hcreated, hunnoted]

theorem fallBackToExpired_can (svc : OrderSyncService) (message : String) {s : State}
    (hs : Stored order s) (htimely : Timely w s) (hsell : order.side = .sell)
    (hgrace : PastGrace w order brokerOrder) :
    Program.Can w.exec (fun _ t => t.evidence = s.evidence ∧ Expired order t)
      (fallBackToExpired svc order brokerOrder true message) s := by
  unfold fallBackToExpired
  simp only [hsell, ne_eq, not_true_eq_false, if_false, Bool.not_true, Bool.false_eq_true]
  refine (tooYoung_can htimely hgrace).bind ?_ (by simp)
  rintro young t ⟨hyoung, hunnoted⟩
  obtain rfl := Except.ok.inj hyoung
  simp only [Bool.false_eq_true, if_false]
  refine (expireStored_solo svc message (hunnoted.rows.stored hs)).can.mono fun _ u hu => ?_
  exact ⟨hu.1.trans hunnoted.evidence, hu.2⟩

theorem andThen_can {mid : Except PyError Stage → State → Prop}
    {post : Except PyError (Option OrderStatusResult) → State → Prop} {stage : Code Stage}
    {next : Code (Option OrderStatusResult)} {s : State} (hstage : Solo w mid stage s)
    (hdone : ∀ result t, mid (.ok (some result)) t → post (.ok result) t)
    (hnext : ∀ t, mid (.ok none) t → Program.Can w.exec post next t)
    (he : ∀ e t, mid (.error e) t → post (.error e) t) :
    Program.Can w.exec post (andThen stage next) s := by
  refine hstage.can.bind (fun reached t h => ?_) he
  cases reached with
  | none => exact hnext t h
  | some result => exact Program.can_ret (hdone result t h)

section

variable (w order brokerOrder refresh)

/-- Whatever a stage still reads is the part of the quantity that was read first. -/
structure OnPart (t : State) : Prop where
  stored : Stored order t
  timely : Timely w t
  asked : ∀ d, w.inferred order brokerOrder refresh 0 = some d →
    t.kisInquirySeen order.orderRequestId = true
  shown : ∀ pre d, w.preOrder order brokerOrder = some pre →
    w.shown order pre t.refreshes = some d → w.inferred order brokerOrder refresh 0 = some d

end

theorem OnPart.unnoted {s t : State} (h : OnPart w order brokerOrder refresh s)
    (ht : Unnoted s t) (htimely : Timely w t) : OnPart w order brokerOrder refresh t := by
  refine ⟨ht.rows.stored h.stored, htimely, fun d hd => ht.seen _ (h.asked d hd), ?_⟩
  rw [ht.refreshes]
  exact h.shown

theorem ShowsPart.of_inferred {d : ℚ} (h : ShowsPart w order brokerOrder refresh)
    (hd : w.inferred order brokerOrder refresh 0 = some d) : d < order.requestedQuantity := by
  simpa only [ShowsPart, hd] using h

theorem OnPart.kis {s : State} {d : ℚ} (h : OnPart w order brokerOrder refresh s)
    (hshows : ShowsPart w order brokerOrder refresh)
    (hkis : KisDecrease w order brokerOrder s (some d)) : d < order.requestedQuantity := by
  rcases hkis with ⟨-, hnone⟩ | ⟨pre, current, hpre, -, hread, hd⟩
  · cases hnone
  · have hstored : current = w.stored order s.refreshes → d < order.requestedQuantity := by
      intro hcurrent
      rw [hcurrent] at hd
      exact hshows.of_inferred (h.shown pre d hpre hd.symm)
    rcases hread.source with hcurrent | hheld
    · exact hstored hcurrent
    · cases hinferred : w.inferred order brokerOrder refresh 0 with
      | some d' => exact hstored (hread.seen (h.asked d' hinferred))
      | none =>
        have hpart : ∃ pre held, w.preOrder order brokerOrder = some pre ∧ pre ≠ 0 ∧
            w.held order = some held ∧ 0 < pre - held ∧ pre - held < order.requestedQuantity := by
          simpa only [ShowsPart, hinferred] using hshows
        obtain ⟨pre', held, hpre', -, hheld', hpositive, hless⟩ := hpart
        rw [hpre] at hpre'
        rw [hheld] at hheld'
        obtain rfl := Option.some.inj hpre'
        obtain rfl := Option.some.inj hheld'
        rw [World.positive, if_pos hpositive] at hd
        exact Option.some.inj hd ▸ hless

theorem kis_notes {s : State} {decrease : Option ℚ} (hshows : ShowsPart w order brokerOrder refresh)
    (hnone : w.inferred order brokerOrder refresh 0 = none)
    (hseen : s.kisInquirySeen order.orderRequestId = false)
    (hlast : s.lastKisInquiryAt order.accountId = none)
    (hkis : KisDecrease w order brokerOrder s decrease) : ∃ d, decrease = some d := by
  have hpart : ∃ pre held, w.preOrder order brokerOrder = some pre ∧ pre ≠ 0 ∧
      w.held order = some held ∧ 0 < pre - held ∧ pre - held < order.requestedQuantity := by
    simpa only [ShowsPart, hnone] using hshows
  obtain ⟨pre, held, hpre, hzero, hheld, hpositive, -⟩ := hpart
  rcases hkis with ⟨hempty | hempty, -⟩ | ⟨pre', current, hpre', -, hread, hdecrease⟩
  · rw [hpre] at hempty
    cases hempty
  · rw [hpre] at hempty
    exact (hzero (Option.some.inj hempty)).elim
  · rw [hpre] at hpre'
    obtain rfl := Option.some.inj hpre'
    rw [hread.fresh hseen hlast held hheld, World.positive, if_pos hpositive] at hdecrease
    exact ⟨_, hdecrease⟩

theorem staged_part {decrease : Option ℚ} {r : Except PyError Stage} {s t : State}
    (hpart : ∀ d, decrease = some d → d < order.requestedQuantity)
    (h : Staged order decrease r s t) : r = .ok none ∧ SameRows s t ∧
      ((∃ d, decrease = some d) ∨ s.evidence ≠ [] → t.evidence ≠ []) := by
  cases decrease with
  | none =>
    obtain ⟨hr, hrows, hevidence⟩ := h
    refine ⟨hr, hrows, ?_⟩
    simp [hevidence]
  | some d =>
    simp only [Staged, hpart d rfl, if_true] at h
    obtain ⟨hr, hrows, hevidence⟩ := h
    refine ⟨hr, hrows, ?_⟩
    simp [hevidence]

theorem resolveStuck_onPart (svc : OrderSyncService) (stuck : Int) {s : State}
    (hs : OnPart w order brokerOrder refresh s) (hsell : order.side = .sell)
    (hshows : ShowsPart w order brokerOrder refresh) (hnoted : s.evidence ≠ []) :
    Solo w (fun r t => (∃ result, r = .ok (some result)) ∧ t.evidence ≠ [] ∧ Expired order t)
      (resolveStuck svc order brokerOrder refresh stuck) s := by
  unfold resolveStuck
  have hbuy : order.side ≠ .buy := by
    rw [hsell]
    decide
  simp only [hbuy, if_false]
  refine Program.Alone.bind (settleByKis_solo svc brokerOrder refresh _ hs.stored hsell) ?_ ?_
  · rintro reached t ⟨decrease, hkis, hstaged, -⟩
    have hpart : ∀ d, decrease = some d → d < order.requestedQuantity := by
      rintro d rfl
      exact hs.kis hshows hkis
    obtain ⟨hreached, hrows, hnotes⟩ := staged_part hpart hstaged
    obtain rfl := Except.ok.inj hreached
    refine (expireStuckOrder_solo svc stuck (hrows.stored hs.stored)).mono ?_
    rintro r u ⟨hr, hevidence, hexpired⟩
    refine ⟨hr, ?_, hexpired⟩
    rw [hevidence]
    exact hnotes (Or.inr hnoted)
  · rintro e t ⟨decrease, -, hstaged, -⟩
    exact (staged_error hstaged).elim

theorem stuckTimeout_onPart (svc : OrderSyncService) {s : State}
    (hs : OnPart w order brokerOrder refresh s) (hsell : order.side = .sell)
    (hshows : ShowsPart w order brokerOrder refresh) (hnoted : s.evidence ≠ []) :
    Solo w (fun r t => (r = .ok none ∧ Stored order t ∧ Timely w t ∧ t.evidence ≠ []) ∨
      (∃ result, r = .ok (some result)) ∧ t.evidence ≠ [] ∧ Expired order t)
      (stuckTimeout svc order brokerOrder refresh true) s := by
  unfold stuckTimeout
  cases order.createdAt with
  | none => exact Program.alone_ret (Or.inl ⟨rfl, hs.stored, hs.timely, hnoted⟩)
  | some createdAt =>
    refine Program.Alone.bind ((now_solo s).and (solo_timely now hs.timely)) ?_ (by simp)
    rintro time t ⟨⟨-, hunnoted, -⟩, htimely⟩
    have ht := hs.unnoted hunnoted htimely
    have hnoted' : t.evidence ≠ [] := by
      rw [hunnoted.evidence]
      exact hnoted
    split
    · simp only [if_true]
      exact (resolveStuck_onPart svc _ ht hsell hshows hnoted').mono fun _ _ => Or.inr
    · exact Program.alone_ret (Or.inl ⟨rfl, ht.stored, htimely, hnoted'⟩)

theorem withoutTruth_can (svc : OrderSyncService) (e : PyError) {s : State} (hs : Stored order s)
    (htimely : Timely w s) (hrefreshes : s.refreshes = 0) (hsell : order.side = .sell)
    (hgrace : PastGrace w order brokerOrder) (hpart : StoredPart w order brokerOrder refresh) :
    Program.Can w.exec (fun _ t => t.evidence ≠ [] ∧ Expired order t)
      (withoutTruth svc order brokerOrder refresh true e) s := by
  obtain ⟨d, hinferred, hd⟩ := hpart
  have hpart : ∀ d', w.inferred order brokerOrder refresh s.refreshes = some d' →
      d' < order.requestedQuantity := by
    rw [hrefreshes, hinferred]
    exact fun d' hd' => Option.some.inj hd' ▸ hd
  refine andThen_can ((settleByPosition_solo svc brokerOrder refresh _ hs hsell).and
    (solo_timely _ htimely)) ?_ ?_ ?_
  · exact fun _ t h => nomatch (staged_part hpart h.1.1).1
  · rintro t ⟨⟨hstaged, -⟩, htimely'⟩
    obtain ⟨-, hrows, hnotes⟩ := staged_part hpart hstaged
    refine (fallBackToExpired_can svc _ (hrows.stored hs) htimely' hsell hgrace).mono ?_
    rintro r u ⟨hsame, hexpired⟩
    refine ⟨?_, hexpired⟩
    rw [hsame]
    exact hnotes (Or.inl ⟨d, hrefreshes ▸ hinferred⟩)
  · exact fun _ t h => (staged_error h.1.1).elim

theorem withoutRecord_can (svc : OrderSyncService) {s : State}
    (hs : OnPart w order brokerOrder refresh s) (hrefreshes : s.refreshes = 0)
    (hseen : w.inferred order brokerOrder refresh 0 = none →
      s.kisInquirySeen order.orderRequestId = false)
    (hlast : s.lastKisInquiryAt order.accountId = none) (hsell : order.side = .sell)
    (hgrace : PastGrace w order brokerOrder) (hshows : ShowsPart w order brokerOrder refresh) :
    Program.Can w.exec (fun _ t => t.evidence ≠ [] ∧ Expired order t)
      (withoutRecord svc order brokerOrder refresh true) s := by
  have hposition : ∀ d, w.inferred order brokerOrder refresh 0 = some d →
      d < order.requestedQuantity := fun d => hshows.of_inferred
  refine andThen_can ((settleByKis_solo svc brokerOrder refresh _ hs.stored hsell).and
    (solo_timely _ hs.timely)) ?_ ?_ ?_
  · rintro _ t ⟨⟨decrease, hkis, hstaged, -⟩, -⟩
    exact nomatch (staged_part (fun d hd => hs.kis hshows (hd ▸ hkis)) hstaged).1
  · rintro t ⟨⟨decrease, hkis, hstaged, hkept⟩, htimely₁⟩
    obtain ⟨-, hrows₁, hnotes₁⟩ := staged_part (fun d hd => hs.kis hshows (hd ▸ hkis)) hstaged
    obtain ⟨hsame, hasked⟩ := hkept rfl
    have hzero : t.refreshes = 0 := hsame.trans hrefreshes
    refine andThen_can ((settleByPosition_solo svc brokerOrder refresh _ (hrows₁.stored hs.stored)
      hsell).and (solo_timely _ htimely₁)) ?_ ?_ ?_
    · rintro _ u ⟨⟨hstaged₂, -⟩, -⟩
      rw [hzero] at hstaged₂
      exact nomatch (staged_part hposition hstaged₂).1
    · rintro u ⟨⟨hstaged₂, hlast₂⟩, htimely₂⟩
      obtain ⟨hseen₂, hshown₂⟩ := hlast₂ rfl
      rw [hzero] at hstaged₂ hshown₂
      obtain ⟨-, hrows₂, hnotes₂⟩ := staged_part hposition hstaged₂
      have hu : OnPart w order brokerOrder refresh u := by
        refine ⟨hrows₂.stored (hrows₁.stored hs.stored), htimely₂, fun d hd => ?_, ?_⟩
        · rw [hseen₂]
          exact hasked _ (hs.asked d hd)
        · exact fun pre d hpre hd => (hshown₂ pre hpre) ▸ hd
      have hnoted : u.evidence ≠ [] := by
        apply hnotes₂
        cases hinferred : w.inferred order brokerOrder refresh 0 with
        | some d => exact Or.inl ⟨d, rfl⟩
        | none =>
          exact Or.inr (hnotes₁ (Or.inl (kis_notes hshows hinferred (hseen hinferred) hlast hkis)))
      refine andThen_can (stuckTimeout_onPart svc hu hsell hshows hnoted) ?_ ?_ ?_
      · rintro result v (⟨h, -⟩ | ⟨-, hexpired⟩)
        · cases h
        · exact hexpired
      · rintro v (⟨-, hstored, htimely₃, hnoted₃⟩ | ⟨⟨_, h⟩, -⟩)
        · refine (fallBackToExpired_can svc _ hstored htimely₃ hsell hgrace).mono fun r x hx => ?_
          rw [hx.1]
          exact ⟨hnoted₃, hx.2⟩
        · cases h
      · rintro e v (⟨h, -⟩ | ⟨⟨_, h⟩, -⟩) <;> cases h
    · exact fun _ u h => (staged_error h.1.1).elim
  · exact fun _ t ⟨⟨_, _, h, _⟩, _⟩ => (staged_error h).elim

theorem isGenuineManualReconciliation_can {result : OrderStatusResult} {s : State}
    (hclock : s.sync.store.clock = w.opened) (hrecord : NoRecord w order result) :
    Program.Can w.exec (fun r t => r = .ok false ∧ t = s)
      (isGenuineManualReconciliation order result) s := by
  obtain ⟨-, hid, createdAt, hcreated, hyoung⟩ := hrecord
  unfold isGenuineManualReconciliation
  simp only [hid, if_true]
  refine (now_can_still s).bind ?_ (by simp)
  rintro time s ⟨htime, rfl⟩
  obtain rfl := Except.ok.inj htime
  rw [hcreated]
  apply Program.can_ret
  simp [hclock, hyoung]

theorem reflectTruth_can (svc : OrderSyncService) (result : OrderStatusResult) {s : State}
    (hs : Begins w order s)
    (hbroker : getBrokerOrder s.sync.store brokerOrder.brokerOrderId ≠ none)
    (hasked : s.kisInquirySeen order.orderRequestId =
      (w.inferred order brokerOrder refresh 0).isSome)
    (hlast : s.lastKisInquiryAt order.accountId = none) (hsell : order.side = .sell)
    (hgrace : PastGrace w order brokerOrder) (hrecord : NoRecord w order result)
    (hshows : ShowsPart w order brokerOrder refresh) :
    Program.Can w.exec (fun _ t => t.evidence ≠ [] ∧ Expired order t)
      (reflectTruth svc order brokerOrder refresh true result) s := by
  refine (now_can_still s).bind ?_ (by simp)
  rintro time s ⟨-, rfl⟩
  refine (updateBrokerStatus_solo brokerOrder result.status time s).can.bind ?_ ?_
  · rintro _ _ ⟨⟨brokerOrders, rfl⟩, -⟩
    simp only [hrecord.1, ne_eq, not_true_eq_false, if_false]
    have hmanual := isGenuineManualReconciliation_can
      (s := s.withStore { s.sync.store with brokerOrders := brokerOrders }) hs.clock hrecord
    refine hmanual.bind ?_ (by simp)
    rintro manual _ ⟨hno, rfl⟩
    obtain rfl := Except.ok.inj hno
    refine withoutRecord_can svc ?_ hs.refreshes (fun hnone => ?_) hlast hsell hgrace hshows
    · refine ⟨⟨hs.stored.row, hs.stored.status⟩, hs.timely, fun d hd => ?_, fun pre d hpre hd => ?_⟩
      · exact hasked.trans (congrArg Option.isSome hd)
      · have hzero : w.shown order pre s.refreshes = some d := hd
        rw [hs.refreshes] at hzero
        unfold World.inferred World.storedDecrease
        rw [hpre, Option.bind_some, hzero, Option.some_or]
    · exact hasked.trans (congrArg Option.isSome hnone)
  · rintro e t ⟨-, hok⟩
    cases hok hbroker

theorem transitionToAuthoritative_can (svc : OrderSyncService) (accountRef : String) {s : State}
    (hs : Begins w order s)
    (hbroker : getBrokerOrder s.sync.store brokerOrder.brokerOrderId ≠ none)
    (hasked : s.kisInquirySeen order.orderRequestId =
      (w.inferred order brokerOrder refresh 0).isSome)
    (hlast : s.lastKisInquiryAt order.accountId = none) (hsell : order.side = .sell)
    (h : ExpiresOnPart w order brokerOrder refresh true) :
    Program.Can w.exec (fun _ t => t.evidence ≠ [] ∧ Expired order t)
      (transitionToAuthoritative svc accountRef order brokerOrder refresh true) s := by
  obtain ⟨-, hgrace, hpart⟩ := h
  unfold transitionToAuthoritative
  simp only [hs.stored.status, ne_eq, not_true_eq_false, if_false]
  refine Program.can_call { unanswered with instrument := .ok none } ?_
  show Program.Can w.exec _ (Program.call _ _) s
  refine Program.can_call unanswered ?_
  show Program.Can w.exec _ (Program.bind
    (Program.ret (w.unknownState brokerOrder.brokerNativeOrderId)) _) s
  cases hreply : w.unknownState brokerOrder.brokerNativeOrderId with
  | error e =>
    rw [hreply] at hpart
    exact withoutTruth_can svc e hs.stored hs.timely hs.refreshes hsell hgrace hpart
  | ok result =>
    rw [hreply] at hpart
    exact reflectTruth_can svc result hs hbroker hasked hlast hsell hgrace hpart.1 hpart.2

/-- The order is stored when the call begins, and its broker order with it; `asked` says whether
the broker was asked about it before. -/
def beginning (w : World) (order : OrderRequestEntity) (brokerOrder : BrokerOrderEntity)
    (asked : Bool) : State where
  sync :=
    { store := { Store.holding order w.opened with brokerOrders := [brokerOrder] }
      appendEnabled := true }
  kisInquirySeen := fun _ => asked

theorem beginning_begins (w : World) (brokerOrder : BrokerOrderEntity) (asked : Bool)
    (hstatus : order.status = .reconcileRequired) :
    Begins w order (beginning w order brokerOrder asked) := by
  refine ⟨⟨?_, hstatus⟩, rfl, rfl, rfl⟩
  simp [beginning, Store.holding]

theorem beginning_brokerOrder (asked : Bool) :
    getBrokerOrder (beginning w order brokerOrder asked).sync.store brokerOrder.brokerOrderId ≠
      none := by
  simp [getBrokerOrder, beginning]

/-- A sell whose fill a call noted is not expired by that call, but for one past its grace period
after hours of which the positions show a part only. -/
theorem evidenceKept_iff (svc : OrderSyncService) (accountRef : String) (order : OrderRequestEntity)
    (brokerOrder : BrokerOrderEntity) (refresh afterHours : Bool) (w : World)
    (hstatus : order.status = .reconcileRequired) (hsell : order.side = .sell) :
    EvidenceKept w order brokerOrder refresh afterHours svc accountRef ↔
      ¬ ExpiresOnPart w order brokerOrder refresh afterHours := by
  constructor
  · intro hkept hpart
    obtain rfl := hpart.1
    have hbegins := beginning_begins w brokerOrder
      (w.inferred order brokerOrder refresh 0).isSome hstatus
    obtain ⟨cs, hnoted, row, hrow, hexpired⟩ := transitionToAuthoritative_can svc accountRef hbegins
      (beginning_brokerOrder _) rfl rfl hsell hpart
    exact hkept cs _ hbegins hnoted row hrow hexpired
  · intro hpart cs s hbegins hnoted
    have hsolo : Solo w (fun _ t => t.evidence ≠ [] → Unexpired order t ∨
        ExpiresOnPart w order brokerOrder refresh afterHours)
        (transitionToAuthoritative svc accountRef order brokerOrder refresh afterHours) s :=
      transitionToAuthoritative_solo svc accountRef hbegins hsell
    exact (hsolo.run (fun _ _ _ => trivial) hnoted).resolve_right hpart

/-! A sell of ten shares of which five are gone. -/

def halfSold : OrderRequestEntity := { tenSold .reconcileRequired with createdAt := some 0 }

def halfSoldAtBroker : BrokerOrderEntity where
  brokerOrderId := 4
  orderRequestId := 1
  brokerName := "koreainvestment"
  brokerStatus := "reconcile_required"
  brokerNativeOrderId := some "0000117057"

def sharesHeld (quantity : ℚ) (snapshotAt : Time) : PositionSnapshotEntity where
  accountId := 2
  instrumentId := 3
  quantity := quantity
  snapshotAt := snapshotAt

/-- An hour after the order the inquiry of the broker fails, and of twenty shares fifteen are
left. -/
def fiveGone : World where
  opened := seconds 3600
  span := 0
  unknownState := fun _ => .error (.other "Timeout")
  account := fun _ => .ok none
  brokerAccount := fun _ => .ok none
  positions := fun _ => .ok []
  latestBefore := fun _ _ _ => .ok (some (sharesHeld 20 (-1)))
  latestPositions := fun _ _ => .ok [sharesHeld 15 (seconds 3000)]

theorem evidenceKept_iff_fiveGone :
    EvidenceKept fiveGone halfSold halfSoldAtBroker true false plainService "50000000-01" :=
  (evidenceKept_iff plainService "50000000-01" halfSold halfSoldAtBroker true false fiveGone rfl
    rfl).mpr fun h => nomatch h.1

theorem fiveGone_noted_and_expired :
    let s := beginning fiveGone halfSold halfSoldAtBroker false
    let t := ((transitionToAuthoritative plainService "50000000-01" halfSold halfSoldAtBroker true
      true).run (Program.drawing fiveGone.exec) (fun _ =>
        { unanswered with instrument := .ok none },
        s)).2.2
    Begins fiveGone halfSold s ∧ t.evidence = [⟨1, .partiallyFilled⟩] ∧
      (t.sync.store.orders 1).map (·.status) = some .expired := by
  refine ⟨beginning_begins _ _ _ rfl, ?_, ?_⟩ <;> decide +kernel

end AgentTrading.Sync.Authoritative
