import AgentTrading.Sync.AuthoritativeStages

/-! When a call expires a sell although its own reading of the positions showed a fill. All of
the quantity moves the order on; a part of it moves nothing, and the later stages go on as if
nothing had been seen. -/
namespace AgentTrading.Sync.Authoritative
open Domain Repositories Library

section

variable (w : World) (order : OrderRequestEntity) (brokerOrder : BrokerOrderEntity)
variable (refresh afterHours : Bool)

/-- The stored position shows less than the quantity, and something. -/
def StoredPart : Prop :=
  ∃ d, w.inferred order brokerOrder refresh 0 = some d ∧ d < order.requestedQuantity

/-- The stored position shows a part of the quantity or, where it shows nothing, the position at
the broker does. -/
def ShowsPart : Prop :=
  match w.inferred order brokerOrder refresh 0 with
  | some d => d < order.requestedQuantity
  | none => ∃ pre held, w.preOrder order brokerOrder = some pre ∧ pre ≠ 0 ∧
      w.held order = some held ∧ 0 < pre - held ∧ pre - held < order.requestedQuantity

/-- The broker's answer leaves the order in reconciliation, and the order is not one for an
operator. -/
def NoRecord (result : OrderStatusResult) : Prop :=
  result.status = .reconcileRequired ∧ truthy result.brokerOrderId = true ∧
    ∃ createdAt, order.createdAt = some createdAt ∧ w.opened - createdAt ≤ seconds 86400

/-- After hours an order past its grace period of which the positions show a part. -/
def ExpiresOnPart : Prop :=
  afterHours = true ∧ PastGrace w order brokerOrder ∧
    match w.unknownState brokerOrder.brokerNativeOrderId with
    | .error _ => StoredPart w order brokerOrder refresh
    | .ok result => NoRecord w order result ∧ ShowsPart w order brokerOrder refresh

/-- The order is stored in reconciliation when the call begins, and nothing is noted yet. -/
structure Begins (s : State) : Prop where
  stored : Stored order s
  clock : s.sync.store.clock = w.opened
  refreshes : s.refreshes = 0
  evidence : s.evidence = []

/-- No call in this world that notes a fill of the order expires it. -/
def EvidenceKept (svc : OrderSyncService) (accountRef : String) : Prop :=
  ∀ (cs : Nat → Sync.Choice) (s : State), Begins w order s →
    ((transitionToAuthoritative svc accountRef order brokerOrder refresh afterHours).run
      (Program.drawing w.exec) (cs, s)).2.2.evidence ≠ [] →
    Unexpired order
      ((transitionToAuthoritative svc accountRef order brokerOrder refresh afterHours).run
        (Program.drawing w.exec) (cs, s)).2.2

/-- Every stage has been passed by a part of the quantity at most. -/
structure Undecided (t : State) : Prop where
  stored : Stored order t
  timely : Timely w t
  explained : t.evidence ≠ [] → ShowsPart w order brokerOrder refresh
  passed : ∀ d, w.inferred order brokerOrder refresh 0 = some d → d < order.requestedQuantity
  last : ∀ pre, w.preOrder order brokerOrder = some pre →
    w.shown order pre t.refreshes = w.inferred order brokerOrder refresh 0

/-- The call may be over here. -/
def Decided (t : State) : Prop :=
  t.evidence ≠ [] → Unexpired order t ∨
    afterHours = true ∧ PastGrace w order brokerOrder ∧ ShowsPart w order brokerOrder refresh

end

variable {w : World} {order : OrderRequestEntity} {brokerOrder : BrokerOrderEntity}
variable {refresh afterHours : Bool}

theorem Begins.timely {s : State} (h : Begins w order s) : Timely w s := by
  unfold Timely World.closed
  rw [h.clock]
  exact ⟨le_refl _, le_add_of_nonneg_right (Int.natCast_nonneg _)⟩

theorem Undecided.unnoted {s t : State} (h : Undecided w order brokerOrder refresh s)
    (ht : Unnoted s t) (htimely : Timely w t) : Undecided w order brokerOrder refresh t := by
  refine ⟨ht.rows.stored h.stored, htimely, ?_, h.passed, ?_⟩
  · rw [ht.evidence]
    exact h.explained
  · rw [ht.refreshes]
    exact h.last

/-- What a KIS stage sees and the stored position does not is the position at the broker. -/
theorem showsPart_of_kis {s : State} {d : ℚ}
    (hpassed : ∀ d, w.inferred order brokerOrder refresh 0 = some d → d < order.requestedQuantity)
    (hshown : w.inferred order brokerOrder refresh 0 = none → ∀ pre,
      w.preOrder order brokerOrder = some pre → w.shown order pre s.refreshes = none)
    (hkis : KisDecrease w order brokerOrder s (some d)) (hd : d < order.requestedQuantity) :
    ShowsPart w order brokerOrder refresh := by
  unfold ShowsPart
  cases hinferred : w.inferred order brokerOrder refresh 0 with
  | some d' => exact hpassed d' hinferred
  | none =>
    rcases hkis with ⟨-, hnone⟩ | ⟨pre, current, hpre, hzero, hread, hdecrease⟩
    · cases hnone
    · have hpositive : 0 < pre - current ∧ d = pre - current := by
        unfold World.positive at hdecrease
        split at hdecrease
        · rename_i h
          exact ⟨h, Option.some.inj hdecrease⟩
        · cases hdecrease
      rcases hread.source with hstored | hheld
      · have hnone := hshown hinferred pre hpre
        rw [hstored] at hpositive
        unfold World.shown World.positive at hnone
        rw [if_pos hpositive.1] at hnone
        cases hnone
      · exact ⟨pre, current, hpre, hzero, hheld, hpositive.1, hpositive.2 ▸ hd⟩

theorem tooYoung_solo {s : State} (htimely : Timely w s) :
    Solo w (fun r t => Unnoted s t ∧ ∃ young, r = .ok young ∧
      (young = false → PastGrace w order brokerOrder)) (tooYoung order brokerOrder) s := by
  unfold tooYoung PastGrace
  cases hcreated : order.createdAt with
  | none => exact Program.alone_ret ⟨.refl s, false, rfl, by simp⟩
  | some createdAt =>
    refine Program.Alone.bind ((now_solo s).and (solo_timely now htimely)) ?_ (by simp)
    rintro time t ⟨⟨htime, hunnoted, -⟩, htimely'⟩
    obtain rfl := Except.ok.inj htime
    refine Program.alone_ret ⟨hunnoted, _, rfl, fun hold createdAt' hcreated' => ?_⟩
    obtain rfl := Option.some.inj hcreated'
    have hgrace := not_lt.mp (of_decide_eq_false hold)
    exact le_trans hgrace (sub_le_sub_right htimely'.2 _)

theorem expireStored_solo (svc : OrderSyncService) (message : String) {s : State}
    (hs : Stored order s) :
    Solo w (fun _ t => t.evidence = s.evidence ∧ Expired order t)
      (((ofSync (svc.tryTransition order .expired none none)).bind fun updated =>
        if updated.status ≠ order.status then .ret (some (expiredResult brokerOrder message))
        else .ret none).handle fun _ => .ret none) s := by
  have hexpired := tryTransition_expired_solo (w := w) svc hs
  have hbody : Solo w (fun _ t => t.evidence = s.evidence ∧ Expired order t)
      ((ofSync (svc.tryTransition order .expired none none)).bind fun updated =>
        if updated.status ≠ order.status then .ret (some (expiredResult brokerOrder message))
        else .ret none) s := by
    refine Program.Alone.bind hexpired ?_ fun e t ht => ⟨ht.2.evidence, ht.1.2⟩
    intro updated t ht
    split
    · exact Program.alone_ret ⟨ht.2.evidence, ht.1.2⟩
    · exact Program.alone_ret ⟨ht.2.evidence, ht.1.2⟩
  apply Program.Alone.handle hbody
  · exact fun _ t ht => ht
  · exact fun _ t ht => Program.alone_ret ht

theorem fallBackToExpired_solo (svc : OrderSyncService) (message : String) {s : State}
    (hs : Stored order s) (htimely : Timely w s) (hsell : order.side = .sell) :
    Solo w (fun _ t => t.evidence = s.evidence ∧
      (Unexpired order t ∨ afterHours = true ∧ PastGrace w order brokerOrder))
      (fallBackToExpired svc order brokerOrder afterHours message) s := by
  unfold fallBackToExpired
  simp only [hsell, ne_eq, not_true_eq_false, if_false]
  cases afterHours with
  | false => exact Program.alone_ret ⟨rfl, Or.inl hs.unexpired⟩
  | true =>
    simp only [Bool.not_true, Bool.false_eq_true, if_false]
    have hage : Solo w (fun r t => Unnoted s t ∧ ∃ young, r = .ok young ∧
        (young = false → PastGrace w order brokerOrder)) (tooYoung order brokerOrder) s :=
      tooYoung_solo htimely
    refine Program.Alone.bind hage ?_ (by simp)
    rintro young t ⟨hunnoted, _, hyoung, hgrace⟩
    obtain rfl := Except.ok.inj hyoung
    cases young with
    | true =>
      exact Program.alone_ret ⟨hunnoted.evidence, Or.inl (hunnoted.rows.stored hs).unexpired⟩
    | false =>
      simp only [Bool.false_eq_true, if_false]
      refine (expireStored_solo svc message (hunnoted.rows.stored hs)).mono fun _ u hu => ?_
      exact ⟨hu.1.trans hunnoted.evidence, Or.inr ⟨trivial, hgrace rfl⟩⟩

theorem expireStuckOrder_solo (svc : OrderSyncService) (stuck : Int) {s : State}
    (hs : Stored order s) :
    Solo w (fun r t => (∃ result, r = .ok (some result)) ∧ t.evidence = s.evidence ∧
      Expired order t) (expireStuckOrder svc order brokerOrder stuck) s := by
  have hbody : Solo w (fun r t => (∀ stage, r = .ok stage → ∃ result, stage = some result) ∧
      t.evidence = s.evidence ∧ Expired order t)
      ((ofSync (svc.tryTransition order .expired none none)).bind fun updated =>
        if updated.status ≠ order.status then now.bind fun time =>
          (ofSync (updateBrokerOrderRow brokerOrder.brokerOrderId (some "expired") none
            (some time))).bind fun _ =>
              .ret (some (some (expiredResult brokerOrder (stuckMessage stuck))))
        else .ret none) s := by
    refine Program.Alone.bind (tryTransition_expired_solo svc hs) ?_ ?_
    · rintro updated t ⟨⟨⟨_, hok, hmoved⟩, hexpired⟩, hnotes⟩
      obtain rfl := Except.ok.inj hok
      have hne : updated.status ≠ order.status := by
        rw [hmoved, hs.status]
        decide
      simp only [ne_eq, hne, not_false_eq_true, if_true]
      have hfollow : (now.bind fun time => ofSync (updateBrokerOrderRow brokerOrder.brokerOrderId
          (some "expired") none (some time))).Only Op.Following fun _ => True :=
        ⟨trivial, fun time => updateBrokerOrderRow_following ..⟩
      rw [← Program.bind_assoc]
      have hkept : ∀ u, SameRows t u → SameNotes t u →
          u.evidence = s.evidence ∧ Expired order u := fun u hrows hsame =>
        ⟨hsame.evidence.trans hnotes.evidence, by unfold Expired; rw [hrows]; exact hexpired⟩
      refine Program.Alone.bind (solo_following hfollow) ?_ ?_
      · exact fun _ u hu => Program.alone_ret ⟨by simp, hkept u hu.1 hu.2⟩
      · exact fun _ u hu => ⟨by simp, hkept u hu.1 hu.2⟩
    · rintro e t ⟨⟨⟨_, h, -⟩, -⟩, -⟩
      cases h
  refine Program.Alone.handle hbody ?_ ?_
  · rintro stage t ⟨hstage, hkept⟩
    obtain ⟨result, rfl⟩ := hstage stage rfl
    exact ⟨⟨result, rfl⟩, hkept⟩
  · exact fun e t h => Program.alone_ret ⟨⟨none, rfl⟩, h.2⟩

theorem resolveStuck_solo (svc : OrderSyncService) (stuck : Int) {s : State}
    (hs : Undecided w order brokerOrder refresh s) (hsell : order.side = .sell)
    (hgrace : PastGrace w order brokerOrder) :
    Solo w (fun r t => (∃ result, r = .ok (some result)) ∧
      Decided w order brokerOrder refresh true t)
      (resolveStuck svc order brokerOrder refresh stuck) s := by
  unfold resolveStuck
  have hbuy : order.side ≠ .buy := by
    rw [hsell]
    decide
  simp only [hbuy, if_false]
  refine Program.Alone.bind (settleByKis_solo svc brokerOrder refresh _ hs.stored hsell) ?_ ?_
  · rintro reached t ⟨decrease, hkis, hstaged, -⟩
    have hgo : ∀ hrows : SameRows s t, (t.evidence ≠ [] → ShowsPart w order brokerOrder refresh) →
        Solo w (fun r t => (∃ result, r = .ok (some result)) ∧
          Decided w order brokerOrder refresh true t)
          (expireStuckOrder svc order brokerOrder stuck) t := by
      intro hrows hshows
      refine (expireStuckOrder_solo svc stuck (hrows.stored hs.stored)).mono ?_
      rintro r u ⟨hr, hevidence, -⟩
      refine ⟨hr, fun hne => Or.inr ⟨rfl, hgrace, hshows ?_⟩⟩
      rwa [← hevidence]
    cases decrease with
    | none =>
      obtain ⟨hr, hrows, hevidence⟩ := hstaged
      obtain rfl := Except.ok.inj hr
      refine hgo hrows ?_
      rw [hevidence]
      exact hs.explained
    | some d =>
      by_cases hd : d < order.requestedQuantity
      · simp only [Staged, hd, if_true] at hstaged
        obtain ⟨hr, hrows, -⟩ := hstaged
        obtain rfl := Except.ok.inj hr
        refine hgo hrows fun _ => showsPart_of_kis hs.passed (fun hnone pre hpre => ?_) hkis hd
        exact (hs.last pre hpre).trans hnone
      · simp only [Staged, hd, if_false] at hstaged
        obtain ⟨⟨result, hr⟩, hunexpired⟩ := hstaged
        obtain rfl := Except.ok.inj hr
        exact Program.alone_ret ⟨⟨result, rfl⟩, fun _ => Or.inl hunexpired⟩
  · rintro e t ⟨decrease, -, hstaged, -⟩
    unfold Staged at hstaged
    split at hstaged
    · cases hstaged.1
    · split at hstaged
      · cases hstaged.1
      · obtain ⟨⟨_, h⟩, -⟩ := hstaged
        cases h

theorem grace_le_stuckExpiry (order : OrderRequestEntity) (brokerOrder : BrokerOrderEntity) :
    resolveAfterHoursGracePeriod order brokerOrder ≤ stuckExpiry := by
  unfold resolveAfterHoursGracePeriod
  split <;> decide

theorem stuckTimeout_solo (svc : OrderSyncService) {s : State}
    (hs : Undecided w order brokerOrder refresh s) (hsell : order.side = .sell) :
    Solo w (fun r t => (r = .ok none ∧ Undecided w order brokerOrder refresh t) ∨
      (∃ result, r = .ok (some result)) ∧ Decided w order brokerOrder refresh afterHours t)
      (stuckTimeout svc order brokerOrder refresh afterHours) s := by
  unfold stuckTimeout
  cases hcreated : order.createdAt with
  | none => exact Program.alone_ret (Or.inl ⟨rfl, hs⟩)
  | some createdAt =>
    refine Program.Alone.bind ((now_solo s).and (solo_timely now hs.timely)) ?_ (by simp)
    rintro time t ⟨⟨htime, hunnoted, -⟩, htimely⟩
    obtain rfl := Except.ok.inj htime
    have ht := hs.unnoted hunnoted htimely
    split
    · rename_i hstuck
      cases afterHours with
      | true =>
        have hgrace : PastGrace w order brokerOrder := by
          intro createdAt' hcreated'
          rw [hcreated] at hcreated'
          obtain rfl := Option.some.inj hcreated'
          calc resolveAfterHoursGracePeriod order brokerOrder
              ≤ stuckExpiry := grace_le_stuckExpiry order brokerOrder
            _ ≤ t.sync.store.clock - createdAt := le_of_lt hstuck
            _ ≤ w.closed - createdAt := sub_le_sub_right htimely.2 _
        exact (resolveStuck_solo svc _ ht hsell hgrace).mono fun _ _ => Or.inr
      | false =>
        simp only [Bool.false_eq_true, if_false]
        split
        · exact Program.alone_ret (Or.inr ⟨⟨none, rfl⟩, fun _ => Or.inl ht.stored.unexpired⟩)
        · exact Program.alone_ret (Or.inl ⟨rfl, ht⟩)
    · exact Program.alone_ret (Or.inl ⟨rfl, ht⟩)

theorem staged_error {decrease : Option ℚ} {e : PyError} {s t : State}
    (h : Staged order decrease (.error e) s t) : False := by
  unfold Staged at h
  split at h
  · cases h.1
  · split at h
    · cases h.1
    · obtain ⟨⟨_, h⟩, -⟩ := h
      cases h

theorem staged_done {decrease : Option ℚ} {result : Option OrderStatusResult} {s t : State}
    (h : Staged order decrease (.ok (some result)) s t) : Unexpired order t := by
  unfold Staged at h
  split at h
  · cases h.1
  · split at h
    · cases h.1
    · exact h.2

theorem staged_next {decrease : Option ℚ} {s t : State}
    (h : Staged order decrease (.ok none) s t) : SameRows s t ∧
      (∀ d, decrease = some d → d < order.requestedQuantity) ∧
      (decrease = none → t.evidence = s.evidence) := by
  unfold Staged at h
  split at h
  · exact ⟨h.2.1, by simp, fun _ => h.2.2⟩
  · split at h
    · rename_i hd
      exact ⟨h.2.1, fun d' hd' => Option.some.inj hd' ▸ hd, by simp⟩
    · obtain ⟨⟨_, h⟩, -⟩ := h
      cases h

theorem withoutTruth_solo (svc : OrderSyncService) (e : PyError) {s : State} (hs : Stored order s)
    (htimely : Timely w s) (hrefreshes : s.refreshes = 0) (hevidence : s.evidence = [])
    (hsell : order.side = .sell) :
    Solo w (fun _ t => t.evidence ≠ [] → Unexpired order t ∨
      afterHours = true ∧ PastGrace w order brokerOrder ∧ StoredPart w order brokerOrder refresh)
      (withoutTruth svc order brokerOrder refresh afterHours e) s := by
  refine andThen_solo ((settleByPosition_solo svc brokerOrder refresh _ hs hsell).and
    (solo_timely _ htimely)) ?_ ?_ ?_
  · exact fun _ t h _ => Or.inl (staged_done h.1.1)
  · rintro t ⟨⟨hstaged, -⟩, htimely'⟩
    obtain ⟨hrows, hpart, hnone⟩ := staged_next hstaged
    refine (fallBackToExpired_solo svc _ (hrows.stored hs) htimely' hsell).mono ?_
    rintro r u ⟨hsame, hunexpired | ⟨hafter, hgrace⟩⟩ hnoted
    · exact Or.inl hunexpired
    · refine Or.inr ⟨hafter, hgrace, ?_⟩
      rw [hrefreshes] at hpart hnone
      cases hinferred : w.inferred order brokerOrder refresh 0 with
      | none => exact (hnoted (by rw [hsame, hnone hinferred, hevidence])).elim
      | some d => exact ⟨d, hinferred, hpart d hinferred⟩
  · exact fun _ t h => (staged_error h.1.1).elim

theorem withoutRecord_solo (svc : OrderSyncService) {s : State} (hs : Stored order s)
    (htimely : Timely w s) (hrefreshes : s.refreshes = 0) (hevidence : s.evidence = [])
    (hsell : order.side = .sell) :
    Solo w (fun _ t => Decided w order brokerOrder refresh afterHours t)
      (withoutRecord svc order brokerOrder refresh afterHours) s := by
  refine andThen_solo ((settleByKis_solo svc brokerOrder refresh _ hs hsell).and
    (solo_timely _ htimely)) ?_ ?_ ?_
  · exact fun _ t ⟨⟨_, _, h, _⟩, _⟩ _ => Or.inl (staged_done h)
  · rintro t ⟨⟨decrease, hkis, hstaged, hkept⟩, htimely₁⟩
    obtain ⟨hrows₁, hpart₁, hnone₁⟩ := staged_next hstaged
    have hzero : t.refreshes = 0 := (hkept rfl).1.trans hrefreshes
    refine andThen_solo ((settleByPosition_solo svc brokerOrder refresh _ (hrows₁.stored hs)
      hsell).and (solo_timely _ htimely₁)) ?_ ?_ ?_
    · exact fun _ u h _ => Or.inl (staged_done h.1.1)
    · rintro u ⟨⟨hstaged₂, hlast⟩, htimely₂⟩
      obtain ⟨hrows₂, hpart₂, hnone₂⟩ := staged_next hstaged₂
      have hlast' := (hlast rfl).2
      rw [hzero] at hpart₂ hnone₂ hlast'
      have hundecided : Undecided w order brokerOrder refresh u := by
        refine ⟨hrows₂.stored (hrows₁.stored hs), htimely₂, fun hnoted => ?_, hpart₂, hlast'⟩
        cases decrease with
        | some d =>
          refine showsPart_of_kis hpart₂ (fun hnone pre hpre => ?_) hkis (hpart₁ d rfl)
          unfold World.inferred World.storedDecrease at hnone
          rw [hpre, Option.bind_some] at hnone
          rw [hrefreshes]
          exact (Option.or_eq_none_iff.mp hnone).1
        | none =>
          unfold ShowsPart
          cases hinferred : w.inferred order brokerOrder refresh 0 with
          | some d => exact hpart₂ d hinferred
          | none => exact (hnoted (by rw [hnone₂ hinferred, hnone₁ rfl, hevidence])).elim
      refine andThen_solo (stuckTimeout_solo svc hundecided hsell) ?_ ?_ ?_
      · rintro result v (⟨h, -⟩ | ⟨-, hdecided⟩)
        · cases h
        · exact hdecided
      · rintro v (⟨-, hv⟩ | ⟨⟨_, h⟩, -⟩)
        · refine (fallBackToExpired_solo svc _ hv.stored hv.timely hsell).mono ?_
          rintro r x ⟨hsame, hunexpired | ⟨hafter, hgrace⟩⟩ hnoted
          · exact Or.inl hunexpired
          · exact Or.inr ⟨hafter, hgrace, hv.explained (by rwa [← hsame])⟩
        · cases h
      · rintro e v (⟨h, -⟩ | ⟨⟨_, h⟩, -⟩) <;> cases h
    · exact fun _ u h => (staged_error h.1.1).elim
  · exact fun _ t ⟨⟨_, _, h, _⟩, _⟩ => (staged_error h).elim

/-- Only rows of broker orders change, and nothing is raised where there is one to change. -/
theorem updateBrokerStatus_solo (brokerOrder : BrokerOrderEntity) (status : OrderStatus)
    (time : Time) (s : State) :
    Solo w (fun r t => (∃ brokerOrders,
        t = s.withStore { s.sync.store with brokerOrders := brokerOrders }) ∧
      (getBrokerOrder s.sync.store brokerOrder.brokerOrderId ≠ none → r = .ok ()))
      (ofSync (OrderSyncService.updateBrokerStatus brokerOrder status time)) s := by
  unfold OrderSyncService.updateBrokerStatus
  split
  · refine solo_call fun c => ?_
    show Solo w _ (Program.lift _ _ ((Program.ret (updateBrokerOrder s.sync.store
      brokerOrder.brokerOrderId (some status.value) none (some time)).1).bind _))
      (s.withStore (updateBrokerOrder s.sync.store brokerOrder.brokerOrderId (some status.value)
        none (some time)).2)
    unfold updateBrokerOrder
    cases hfound : getBrokerOrder s.sync.store brokerOrder.brokerOrderId with
    | none => exact Program.alone_raise ⟨⟨s.sync.store.brokerOrders, rfl⟩, by simp⟩
    | some row => exact Program.alone_ret ⟨⟨_, rfl⟩, fun _ => rfl⟩
  · exact Program.alone_ret ⟨⟨s.sync.store.brokerOrders, rfl⟩, fun _ => rfl⟩

theorem isGenuineManualReconciliation_solo (order : OrderRequestEntity)
    (result : OrderStatusResult) {s : State}
    (htimely : Timely w s) :
    Solo w (fun r t => Unnoted s t ∧ Timely w t ∧ (r = .ok false →
      truthy result.brokerOrderId = true ∧
        ∃ createdAt, order.createdAt = some createdAt ∧ w.opened - createdAt ≤ seconds 86400))
      (isGenuineManualReconciliation order result) s := by
  unfold isGenuineManualReconciliation
  split
  · rename_i hid
    refine Program.Alone.bind ((now_solo s).and (solo_timely now htimely)) ?_ (by simp)
    rintro time t ⟨⟨htime, hunnoted, -⟩, htimely'⟩
    obtain rfl := Except.ok.inj htime
    cases hcreated : order.createdAt with
    | none => exact Program.alone_raise ⟨hunnoted, htimely', by simp⟩
    | some createdAt =>
      refine Program.alone_ret ⟨hunnoted, htimely', fun hmanual => ⟨hid, createdAt, rfl, ?_⟩⟩
      have hyoung := not_lt.mp (of_decide_eq_false (Except.ok.inj hmanual))
      exact le_trans (sub_le_sub_right htimely'.1 _) hyoung
  · exact Program.alone_ret ⟨.refl s, htimely, by simp⟩

theorem reflectTruth_solo (svc : OrderSyncService) (result : OrderStatusResult) {s : State}
    (hs : Begins w order s) (hsell : order.side = .sell) :
    Solo w (fun _ t => t.evidence ≠ [] → Unexpired order t ∨ afterHours = true ∧
      PastGrace w order brokerOrder ∧ NoRecord w order result ∧
      ShowsPart w order brokerOrder refresh)
      (reflectTruth svc order brokerOrder refresh afterHours result) s := by
  refine Program.Alone.bind ((now_solo s).and (solo_timely now hs.timely)) ?_ ?_
  · rintro time t ⟨⟨-, hunnoted, -⟩, htimely'⟩
    refine Program.Alone.bind (updateBrokerStatus_solo brokerOrder result.status time t) ?_ ?_
    · rintro _ u ⟨⟨brokerOrders, rfl⟩, -⟩
      have hempty :
          (t.withStore { t.sync.store with brokerOrders := brokerOrders }).evidence = [] :=
        hunnoted.evidence.trans hs.evidence
      have hstored : Stored order
          (t.withStore { t.sync.store with brokerOrders := brokerOrders }) :=
        ⟨(hunnoted.rows.stored hs.stored).row, hs.stored.status⟩
      split
      · rename_i hstatus
        have hkept := solo_sameNotes (w := w) (svc.tryTransition order result.status none none)
          (t.withStore { t.sync.store with brokerOrders := brokerOrders })
        refine Program.Alone.bind hkept ?_ ?_
        · intro updated v hv
          split
          · exact Program.alone_ret fun h => (h (hv.evidence.trans hempty)).elim
          · exact Program.alone_ret fun h => (h (hv.evidence.trans hempty)).elim
        · exact fun _ v hv h => (h (hv.evidence.trans hempty)).elim
      · rename_i hstatus
        refine Program.Alone.bind (isGenuineManualReconciliation_solo order result
          (s := t.withStore { t.sync.store with brokerOrders := brokerOrders }) htimely') ?_ ?_
        · rintro manual v ⟨hv, htimely'', hmanual⟩
          have hnone : v.evidence = [] := hv.evidence.trans hempty
          cases manual with
          | true => exact Program.alone_ret fun h => (h hnone).elim
          | false =>
            obtain ⟨hid, hyoung⟩ := hmanual rfl
            refine Program.Alone.mono (withoutRecord_solo svc (hv.rows.stored hstored) htimely''
              ?_ hnone hsell) ?_
            · exact (hv.refreshes.trans hunnoted.refreshes).trans hs.refreshes
            · rintro r x hdecided hnoted
              rcases hdecided hnoted with hunexpired | ⟨hafter, hgrace, hshows⟩
              · exact Or.inl hunexpired
              · exact Or.inr ⟨hafter, hgrace, ⟨not_not.mp hstatus, hid, hyoung⟩, hshows⟩
        · exact fun _ v hv h => (h (hv.1.evidence.trans hempty)).elim
    · rintro e u ⟨⟨brokerOrders, rfl⟩, -⟩ h
      exact (h (hunnoted.evidence.trans hs.evidence)).elim
  · exact fun e t ht h => (h (ht.1.2.1.evidence.trans hs.evidence)).elim

theorem transitionToAuthoritative_solo (svc : OrderSyncService) (accountRef : String) {s : State}
    (hs : Begins w order s) (hsell : order.side = .sell) :
    Solo w (fun _ t => t.evidence ≠ [] → Unexpired order t ∨
      ExpiresOnPart w order brokerOrder refresh afterHours)
      (transitionToAuthoritative svc accountRef order brokerOrder refresh afterHours) s := by
  unfold transitionToAuthoritative ExpiresOnPart
  simp only [hs.stored.status, ne_eq, not_true_eq_false, if_false]
  refine solo_call fun c => ?_
  show Solo w _ (Program.bind (Program.ret c.instrument) _) s
  cases c.instrument with
  | error e => exact Program.alone_raise fun h => (h hs.evidence).elim
  | ok symbol =>
    refine solo_call fun c => ?_
    show Solo w _ (Program.bind (Program.ret (w.unknownState brokerOrder.brokerNativeOrderId)) _) s
    cases w.unknownState brokerOrder.brokerNativeOrderId with
    | error e =>
      exact withoutTruth_solo svc e hs.stored hs.timely hs.refreshes hs.evidence hsell
    | ok result => exact reflectTruth_solo svc result hs hsell

end AgentTrading.Sync.Authoritative
