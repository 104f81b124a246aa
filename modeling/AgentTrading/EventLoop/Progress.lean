import Mathlib.Algebra.Order.BigOperators.Group.List
import Mathlib.Algebra.Order.Ring.Rat
import Mathlib.Tactic.Linarith
import AgentTrading.EventLoop.Delivery

/-! The status of an acknowledged order while notifications of its executions are handled. The
target of each transition is computed from the quantity of the one notification. -/
namespace AgentTrading.EventLoop
open Domain Repositories Library Orders

variable (service : Bool)

/-- The order is stored under its own identifier with this status. -/
def Stands (s : State) (id : UUID) (status : OrderStatus) : Prop :=
  ∃ row, s.store.orders id = some row ∧ row.orderRequestId = id ∧ row.status = status

theorem Stands.of_orders {s t : State} {id : UUID} {status : OrderStatus}
    (h : Stands s id status) (horders : t.store.orders = s.store.orders) : Stands t id status := by
  obtain ⟨row, hrow, hrest⟩ := h
  exact ⟨row, by rw [horders]; exact hrow, hrest⟩

theorem Stands.unique {s : State} {id : UUID} {status status' : OrderStatus}
    (h : Stands s id status) (h' : Stands s id status') : status = status' := by
  obtain ⟨row, hrow, -, rfl⟩ := h
  obtain ⟨row', hrow', -, rfl⟩ := h'
  rw [Option.some.inj (hrow.symm.trans hrow')]

/-- A notification of an execution of the broker order, with `total` as the order quantity. -/
structure Reports (s : State) (b : BrokerOrderEntity) (total : ℚ) (d : Delivery) : Prop where
  known : Known s d.execution b
  positive : 0 < d.execution.quantity
  orderQty : safeDecimal d.data.orderQty = .ok total

theorem Reports.kept {s t : State} {b : BrokerOrderEntity} {total : ℚ} {d : Delivery}
    (h : Reports s b total d) (hkept : StoreKept s.store t.store) : Reports t b total d :=
  ⟨h.known.kept hkept, h.positive, h.orderQty⟩

section

variable {s : State} {b : BrokerOrderEntity} {total : ℚ} {d : Delivery}

theorem applyFill_transition (hreports : Reports s b total d) {status : OrderStatus}
    (hstands : Stands s b.orderRequestId status) (hnot : status ≠ .reconcileRequired) :
    ∃ row t, t.orders = s.store.orders ∧ s.store.orders b.orderRequestId = some row ∧
      row.orderRequestId = b.orderRequestId ∧ row.status = status ∧
      (applyFill service d.now d.choices d.data s).store =
        ((transitionTo service row (resolveFillStatus d.execution.quantity total)
          (fillTransition d.data)).run (Program.drawing exec) (d.choices, t)).2.2 := by
  obtain ⟨row, hrow, hid, rfl⟩ := hstands
  have hresolved : s.resolveOrderFromNativeId d.data.brokerOrderId = some row := by
    simp only [State.resolveOrderFromNativeId, d.brokerOrderId, hreports.known.2.1, hrow]
  refine ⟨row, (s.addFill (fillEventOf d.now d.data row d.execution.quantity
    d.execution.price)).store, rfl, hrow, hid, rfl, ?_⟩
  unfold applyFill
  rw [hresolved]
  simp only [d.filledQty, d.filledPrice, routeStateChange, if_neg hnot, hreports.orderQty]

theorem allowed_acknowledged (fillQty orderQty : ℚ) :
    resolveFillStatus fillQty orderQty ∈ allowedTransitions .acknowledged := by
  unfold resolveFillStatus
  split <;> decide

theorem resolveFillStatus_less {fillQty orderQty : ℚ} (h : fillQty < orderQty) :
    resolveFillStatus fillQty orderQty = .partiallyFilled := by
  simp only [resolveFillStatus, not_le.mpr h, and_false, if_false]

theorem resolveFillStatus_whole {orderQty : ℚ} (h : 0 < orderQty) :
    resolveFillStatus orderQty orderQty = .filled := by
  simp only [resolveFillStatus, h, le_refl, and_self, if_true]

theorem applyFill_acknowledged (hreports : Reports s b total d)
    (hstands : Stands s b.orderRequestId .acknowledged) :
    Stands (applyFill service d.now d.choices d.data s) b.orderRequestId
      (resolveFillStatus d.execution.quantity total) := by
  obtain ⟨row, t, horders, hrow, hid, hstatus, hstore⟩ :=
    applyFill_transition service hreports hstands (by decide)
  have hrow' : t.orders row.orderRequestId = some row := by
    rw [hid, horders]
    exact hrow
  have hretries : 2 ≤ (fillTransition d.data).maxRetries := by simp [fillTransition]
  have hallowed : resolveFillStatus d.execution.quantity total ∈ allowedTransitions row.status := by
    rw [hstatus]
    exact allowed_acknowledged d.execution.quantity total
  have hopen := transitionTo_open service hrow' rfl (by rw [hstatus]; decide) hallowed hretries
  obtain ⟨-, row', hreplaced, hid', htarget, -⟩ :=
    @Program.Alone.run _ _ _ _ _ _ _ _ _ _ _ t d.choices (fun _ _ _ => trivial) hopen
  refine ⟨row', ?_, by rw [hid']; exact hid, htarget⟩
  rw [hstore, hreplaced, ← hid, Function.update_self]

/-- A second partial fill asks for the status the order has, which the table does not allow. -/
theorem applyFill_partiallyFilled (hreports : Reports s b total d)
    (hstands : Stands s b.orderRequestId .partiallyFilled) (hless : d.execution.quantity < total) :
    Stands (applyFill service d.now d.choices d.data s) b.orderRequestId .partiallyFilled := by
  obtain ⟨row, t, horders, hrow, hid, hstatus, hstore⟩ :=
    applyFill_transition service hreports hstands (by decide)
  refine ⟨row, ?_, hid, hstatus⟩
  rw [hstore, resolveFillStatus_less hless, transitionTo, hstatus]
  exact horders ▸ hrow

theorem handle_dropped (hne : d.execution.brokerOrderId ≠ "")
    (hdropped : d.execution.key ∈ seenKeys s ∨ d.execution.stockCode ∈ s.gapFillInProgress) :
    (handleFillNotification service d.now d.choices d.data s).store.orders = s.store.orders := by
  by_cases hseen : d.execution.key ∈ seenKeys s
  · rw [handle_seen service hseen]
  · rw [handle_new service hne hseen]
    simp only [if_pos (hdropped.resolve_left hseen)]
    rfl

theorem handle_handled (hne : d.execution.brokerOrderId ≠ "")
    (hseen : d.execution.key ∉ seenKeys s) (hgap : d.execution.stockCode ∉ s.gapFillInProgress) :
    handleFillNotification service d.now d.choices d.data s =
      applyFill service d.now d.choices d.data
        (s.addExternalEvent (fillNotificationEvent d.now d.data)) := by
  rw [handle_new service hne hseen]
  simp only [if_neg hgap]

end

/-- The quantity handled. -/
def handledQuantity (events : List Event) : ℚ := ((delivered events).map (·.quantity)).sum

theorem run_append (s : State) (events more : List Event) :
    run service s (events ++ more) = run service (run service s events) more :=
  List.foldl_append

theorem delivered_append (events more : List Event) :
    delivered (events ++ more) = delivered events ++ delivered more :=
  List.filterMap_append

theorem handledQuantity_append (events more : List Event) :
    handledQuantity (events ++ more) = handledQuantity events + handledQuantity more := by
  simp only [handledQuantity, delivered_append, List.map_append, List.sum_append]

theorem run_quiet (s : State) (events : List Event) (hnone : delivered events = []) :
    StoreKept s.store (run service s events).store ∧
      (run service s events).store.orders = s.store.orders ∧
      (∀ e : Execution, e.key ∈ seenKeys (run service s events) ↔ e.key ∈ seenKeys s) ∧
      ∀ more, arrivals s.gapFillInProgress (events ++ more) =
        arrivals (run service s events).gapFillInProgress more := by
  induction events generalizing s with
  | nil => exact ⟨.refl _, rfl, fun _ => Iff.rfl, fun _ => rfl⟩
  | cons event events ih =>
    cases event with
    | delivered d => exact (List.cons_ne_nil _ _ hnone).elim
    | gapFillStarted symbol => exact ih (startGapFill symbol s) hnone
    | gapFillFinished symbol now fills =>
      obtain ⟨hkept, horders, -, hgaps, hkeys⟩ := finishGapFill_onlyEvents symbol now fills s
      obtain ⟨hkept', horders', hkeys', harrivals⟩ := ih (finishGapFill symbol now fills s) hnone
      refine ⟨hkept.trans hkept', horders'.trans horders,
        fun e => (hkeys' e).trans (hkeys e), fun more => ?_⟩
      rw [hgaps] at harrivals
      exact harrivals more

theorem delivered_first {events : List Event} (hsome : delivered events ≠ []) :
    ∃ before d later, events = before ++ .delivered d :: later ∧ delivered before = [] := by
  induction events with
  | nil => exact (hsome rfl).elim
  | cons event events ih =>
    have hquiet : ∀ h : delivered [event] = [], ∃ before d later,
        event :: events = before ++ .delivered d :: later ∧ delivered before = [] := by
      intro h
      have hrest : delivered events ≠ [] := by
        intro hnil
        exact hsome (by rw [← List.singleton_append, delivered_append, h, hnil]; rfl)
      obtain ⟨before, d, later, rfl, hbefore⟩ := ih hrest
      refine ⟨event :: before, d, later, rfl, ?_⟩
      rw [← List.singleton_append, delivered_append, h, hbefore]
      rfl
    cases event with
    | delivered d => exact ⟨[], d, events, rfl, rfl⟩
    | gapFillStarted symbol => exact hquiet rfl
    | gapFillFinished symbol now fills => exact hquiet rfl

section

variable {b : BrokerOrderEntity} {total : ℚ}

/-- All notifications of the run are of executions of the broker order. -/
def AllReport (s : State) (b : BrokerOrderEntity) (total : ℚ) (events : List Event) : Prop :=
  ∀ d, .delivered d ∈ events → Reports s b total d

theorem AllReport.kept {s t : State} {events : List Event} (h : AllReport s b total events)
    (hkept : StoreKept s.store t.store) : AllReport t b total events :=
  fun d hd => (h d hd).kept hkept

theorem step_storeKept {s : State} (event : Event) (h : AllReport s b total [event]) :
    StoreKept s.store (step service s event).store := by
  cases event with
  | gapFillStarted symbol => exact .refl _
  | gapFillFinished symbol now fills => exact (finishGapFill_onlyEvents symbol now fills s).1
  | delivered d =>
    have hknown := (h d List.mem_cons_self).known
    have hadd := addExternalEvent_onlyEvents (s := s) (fillNotificationEvent d.now d.data)
    show StoreKept s.store (handleFillNotification service d.now d.choices d.data s).store
    by_cases hseen : d.execution.key ∈ seenKeys s
    · rw [handle_seen service hseen]
      exact .refl _
    · rw [handle_new service hknown.1 hseen]
      by_cases hgap : d.execution.stockCode ∈ s.gapFillInProgress
      · simp only [if_pos hgap]
        exact hadd.store
      · simp only [if_neg hgap]
        exact hadd.store.trans (applyFill_known service (hknown.kept hadd.store)).store

theorem run_storeKept (s : State) (events : List Event) (h : AllReport s b total events) :
    StoreKept s.store (run service s events).store := by
  induction events generalizing s with
  | nil => exact .refl _
  | cons event events ih =>
    have hstep := step_storeKept service event fun d hd =>
      h d (List.mem_cons.mpr (Or.inl (List.mem_singleton.mp hd)))
    refine hstep.trans (ih (step service s event) (AllReport.kept (fun d hd => ?_) hstep))
    exact h d (List.mem_cons_of_mem _ hd)

theorem run_partiallyFilled (s : State) (events : List Event) (h : AllReport s b total events)
    (hless : ∀ e ∈ delivered events, e.quantity < total)
    (hstands : Stands s b.orderRequestId .partiallyFilled) :
    Stands (run service s events) b.orderRequestId .partiallyFilled := by
  induction events generalizing s with
  | nil => exact hstands
  | cons event events ih =>
    have hstep := step_storeKept service event fun d hd =>
      h d (List.mem_cons.mpr (Or.inl (List.mem_singleton.mp hd)))
    have hrest : AllReport (step service s event) b total events :=
      AllReport.kept (fun d hd => h d (List.mem_cons_of_mem _ hd)) hstep
    cases event with
    | gapFillStarted symbol => exact ih (startGapFill symbol s) hrest hless hstands
    | gapFillFinished symbol now fills =>
      obtain ⟨-, horders, -⟩ := finishGapFill_onlyEvents symbol now fills s
      exact ih (finishGapFill symbol now fills s) hrest hless (hstands.of_orders horders)
    | delivered d =>
      have hd := h d List.mem_cons_self
      refine ih _ hrest (fun e he => hless e (List.mem_cons_of_mem _ he)) ?_
      have hadd := addExternalEvent_onlyEvents (s := s) (fillNotificationEvent d.now d.data)
      by_cases hdropped :
          d.execution.key ∈ seenKeys s ∨ d.execution.stockCode ∈ s.gapFillInProgress
      · exact hstands.of_orders (handle_dropped service hd.known.1 hdropped)
      · rw [not_or] at hdropped
        show Stands (handleFillNotification service d.now d.choices d.data s) _ _
        rw [handle_handled service hd.known.1 hdropped.1 hdropped.2]
        exact applyFill_partiallyFilled service (hd.kept hadd.store)
          (hstands.of_orders hadd.orders) (hless d.execution List.mem_cons_self)

/-- After every prefix the stored status is the one the quantity handled so far stands for. -/
def StatusFollows (s : State) (b : BrokerOrderEntity) (total : ℚ) (events : List Event) : Prop :=
  ∀ handled later, events = handled ++ later →
    (Stands (run service s handled) b.orderRequestId .filled ↔ handledQuantity handled = total) ∧
    (0 < handledQuantity handled → handledQuantity handled < total →
      Stands (run service s handled) b.orderRequestId .partiallyFilled)

/-- The first notification has a new key and comes outside a gap fill of its symbol. -/
def FirstHandled (s : State) (events : List Event) : Prop :=
  ∀ e gate later, arrivals s.gapFillInProgress events = (e, gate) :: later →
    e.key ∉ seenKeys s ∧ gate = true

theorem delivered_positive {s : State} {events : List Event} (h : AllReport s b total events)
    {e : Execution} (he : e ∈ delivered events) : 0 < e.quantity := by
  obtain ⟨event, hevent, hexecution⟩ := List.mem_filterMap.mp he
  cases event with
  | delivered d =>
    obtain rfl := Option.some.inj hexecution
    exact (h d hevent).positive
  | gapFillStarted symbol => cases hexecution
  | gapFillFinished symbol now fills => cases hexecution

theorem handledQuantity_nonneg {s : State} {events : List Event}
    (h : AllReport s b total events) : 0 ≤ handledQuantity events := by
  apply List.sum_nonneg
  intro q hq
  obtain ⟨e, he, rfl⟩ := List.mem_map.mp hq
  exact (delivered_positive h he).le

theorem handledQuantity_none {events : List Event} (h : delivered events = []) :
    handledQuantity events = 0 := by
  simp [handledQuantity, h]

theorem handledQuantity_delivered (d : Delivery) (events : List Event) :
    handledQuantity (.delivered d :: events) = d.execution.quantity + handledQuantity events :=
  List.sum_cons

theorem arrivals_first (s : State) {before : List Event} (d : Delivery) (later : List Event)
    (hbefore : delivered before = []) :
    arrivals s.gapFillInProgress (before ++ .delivered d :: later) =
      (d.execution,
        decide (d.execution.stockCode ∉ (run service s before).gapFillInProgress)) ::
        arrivals (run service s before).gapFillInProgress later :=
  (run_quiet service s before hbefore).2.2.2 _

theorem firstHandled_iff (s : State) {before : List Event} (d : Delivery) (later : List Event)
    (hbefore : delivered before = []) :
    FirstHandled s (before ++ .delivered d :: later) ↔ d.execution.key ∉ seenKeys s ∧
      d.execution.stockCode ∉ (run service s before).gapFillInProgress := by
  unfold FirstHandled
  rw [arrivals_first service s d later hbefore]
  simp only [List.cons.injEq, Prod.mk.injEq]
  constructor
  · intro h
    have hfirst := h d.execution _ _ ⟨⟨rfl, rfl⟩, rfl⟩
    exact ⟨hfirst.1, of_decide_eq_true hfirst.2⟩
  · rintro ⟨hseen, hgap⟩ _ _ _ ⟨⟨rfl, rfl⟩, -⟩
    exact ⟨hseen, decide_eq_true hgap⟩

theorem run_first (s : State) {before : List Event} (d : Delivery)
    (hbefore : delivered before = []) (hd : Reports s b total d)
    (hstands : Stands s b.orderRequestId .acknowledged) :
    Stands (run service s (before ++ [.delivered d])) b.orderRequestId
      (if d.execution.key ∉ seenKeys s ∧
          d.execution.stockCode ∉ (run service s before).gapFillInProgress then
        resolveFillStatus d.execution.quantity total
      else .acknowledged) := by
  obtain ⟨hkept, horders, hkeys, -⟩ := run_quiet service s before hbefore
  rw [run_append]
  generalize run service s before = t at hkept horders hkeys ⊢
  show Stands (handleFillNotification service d.now d.choices d.data t) _ _
  have hstands' := hstands.of_orders horders
  have hadd := addExternalEvent_onlyEvents (s := t) (fillNotificationEvent d.now d.data)
  by_cases hhandled : d.execution.key ∉ seenKeys s ∧ d.execution.stockCode ∉ t.gapFillInProgress
  · rw [if_pos hhandled, handle_handled service hd.known.1 (fun h => hhandled.1 ((hkeys _).mp h))
      hhandled.2]
    exact applyFill_acknowledged service ((hd.kept hkept).kept hadd.store)
      (hstands'.of_orders hadd.orders)
  · rw [if_neg hhandled]
    refine hstands'.of_orders (handle_dropped service hd.known.1 ?_)
    rw [hkeys]
    tauto

theorem follows_quiet (s : State) {handled : List Event} (hnone : delivered handled = [])
    (htotal : 0 < total) (hstands : Stands s b.orderRequestId .acknowledged) :
    (Stands (run service s handled) b.orderRequestId .filled ↔ handledQuantity handled = total) ∧
    (0 < handledQuantity handled → handledQuantity handled < total →
      Stands (run service s handled) b.orderRequestId .partiallyFilled) := by
  rw [handledQuantity_none hnone]
  have hstands' := hstands.of_orders (run_quiet service s handled hnone).2.1
  refine ⟨⟨fun h => ?_, fun h => (htotal.ne h).elim⟩, fun h => (lt_irrefl _ h).elim⟩
  exact (OrderStatus.noConfusion (hstands'.unique h))

theorem quantity_le {s : State} {events : List Event} (h : AllReport s b total events)
    {e : Execution} (he : e ∈ delivered events) :
    e.quantity ≤ handledQuantity events := by
  apply List.single_le_sum _ _ (List.mem_map_of_mem he)
  intro q hq
  obtain ⟨e', he', rfl⟩ := List.mem_map.mp hq
  exact (delivered_positive h he').le

theorem handledQuantity_pos {s : State} {events : List Event} (h : AllReport s b total events)
    {e : Execution} (he : e ∈ delivered events) : 0 < handledQuantity events :=
  (delivered_positive h he).trans_le (quantity_le h he)

theorem later_less {s : State} {d : Delivery} {later : List Event}
    (hd : 0 < d.execution.quantity) (h : AllReport s b total later)
    (hsum : d.execution.quantity + handledQuantity later ≤ total) :
    ∀ e ∈ delivered later, e.quantity < total := by
  intro e he
  have hle := quantity_le h he
  linarith

theorem run_delivered_cons (s : State) (before : List Event) (d : Delivery) (later : List Event) :
    run service s (before ++ .delivered d :: later) =
      run service (run service s (before ++ [.delivered d])) later := by
  rw [← run_append, List.append_assoc, List.singleton_append]

theorem run_after_first (s : State) {before : List Event} {d : Delivery} {later : List Event}
    (hall : AllReport s b total (before ++ .delivered d :: later))
    (hsum : d.execution.quantity + handledQuantity later ≤ total)
    (hless : d.execution.quantity < total)
    (hfirst : Stands (run service s (before ++ [.delivered d])) b.orderRequestId
      (resolveFillStatus d.execution.quantity total)) :
    Stands (run service s (before ++ .delivered d :: later)) b.orderRequestId
      .partiallyFilled := by
  rw [resolveFillStatus_less hless] at hfirst
  have hd : Reports s b total d := hall d (List.mem_append_right _ List.mem_cons_self)
  have hstart : AllReport s b total (before ++ [.delivered d]) := by
    intro d' hd'
    refine hall d' ?_
    simp only [List.mem_append, List.mem_cons, List.not_mem_nil, or_false] at hd' ⊢
    tauto
  have hkept := run_storeKept service s _ hstart
  have hlater : AllReport s b total later := fun d' hd' =>
    hall d' (List.mem_append_right _ (List.mem_cons_of_mem _ hd'))
  rw [run_delivered_cons]
  exact run_partiallyFilled service _ later (hlater.kept hkept)
    (later_less hd.positive hlater hsum) hfirst

/-- From the first notification on, when it is handled and no two executions make up the order. -/
theorem follows_handled (s : State) {before mid rest : List Event} {d : Delivery}
    (hbefore : delivered before = [])
    (hall : AllReport s b total (before ++ .delivered d :: (mid ++ rest))) (htotal : 0 < total)
    (hsum : d.execution.quantity + handledQuantity (mid ++ rest) ≤ total)
    (hnot : ¬ (2 ≤ (delivered (mid ++ rest)).length + 1 ∧
      d.execution.quantity + handledQuantity (mid ++ rest) = total))
    (hfirst : Stands (run service s (before ++ [.delivered d])) b.orderRequestId
      (resolveFillStatus d.execution.quantity total)) :
    (Stands (run service s (before ++ .delivered d :: mid)) b.orderRequestId .filled ↔
      handledQuantity (before ++ .delivered d :: mid) = total) ∧
    (0 < handledQuantity (before ++ .delivered d :: mid) →
      handledQuantity (before ++ .delivered d :: mid) < total →
      Stands (run service s (before ++ .delivered d :: mid)) b.orderRequestId
        .partiallyFilled) := by
  have hmid : AllReport s b total (before ++ .delivered d :: mid) := by
    intro d' hd'
    refine hall d' ?_
    simp only [List.mem_append, List.mem_cons] at hd' ⊢
    tauto
  have hlater : AllReport s b total (mid ++ rest) := fun d' hd' =>
    hall d' (List.mem_append_right _ (List.mem_cons_of_mem _ hd'))
  have hrest : 0 ≤ handledQuantity rest :=
    handledQuantity_nonneg fun d' hd' => hlater d' (List.mem_append_right _ hd')
  rw [handledQuantity_append, handledQuantity_none hbefore, zero_add, handledQuantity_delivered]
  rw [handledQuantity_append] at hsum hnot
  have hsum' : d.execution.quantity + handledQuantity mid ≤ total := by linarith
  by_cases hless : d.execution.quantity < total
  · have hpartly := run_after_first service s hmid hsum' hless hfirst
    refine ⟨⟨fun hfilled => OrderStatus.noConfusion (hpartly.unique hfilled), fun hwhole => ?_⟩,
      fun _ _ => hpartly⟩
    -- the prefix is the whole order, so a second execution is in it and none after it
    exfalso
    refine hnot ⟨?_, by linarith⟩
    have hsome : delivered mid ≠ [] := by
      intro hnil
      rw [handledQuantity_none hnil, add_zero] at hwhole
      exact hless.ne hwhole
    have := List.length_pos_of_ne_nil hsome
    rw [delivered_append, List.length_append]
    omega
  · -- a first execution of the whole order leaves nothing for others
    have hwhole : d.execution.quantity = total := by
      have := handledQuantity_nonneg hlater
      rw [handledQuantity_append] at this
      linarith [not_lt.mp hless]
    have hnone : delivered mid = [] := by
      by_contra hsome
      obtain ⟨e, he⟩ := List.exists_mem_of_ne_nil _ hsome
      have := handledQuantity_pos (fun d' hd' => hlater d' (List.mem_append_left _ hd')) he
      linarith
    rw [hwhole, resolveFillStatus_whole htotal] at hfirst
    rw [run_delivered_cons, hwhole, handledQuantity_none hnone, add_zero]
    have hfilled := hfirst.of_orders (run_quiet service _ mid hnone).2.1
    exact ⟨⟨fun _ => rfl, fun _ => hfilled⟩, fun _ h => (lt_irrefl _ h).elim⟩

/-- The stored status follows the quantity handled exactly when the first notification is not
dropped and no two or more executions make up the whole order. -/
theorem status_follows_iff (s : State) (events : List Event)
    (hall : AllReport s b total events) (htotal : 0 < total)
    (hstands : Stands s b.orderRequestId .acknowledged) (hsum : handledQuantity events ≤ total) :
    StatusFollows service s b total events ↔ FirstHandled s events ∧
      ¬ (2 ≤ (delivered events).length ∧ handledQuantity events = total) := by
  by_cases hnone : delivered events = []
  · have harrivals : arrivals s.gapFillInProgress events = [] := by
      rw [← List.map_eq_nil_iff (f := Prod.fst), arrivals_delivered, hnone]
    constructor
    · intro _
      refine ⟨fun e gate later h => ?_, by simp [hnone]⟩
      rw [harrivals] at h
      cases h
    · rintro - handled later rfl
      rw [delivered_append] at hnone
      exact follows_quiet service s (List.append_eq_nil_iff.mp hnone).1 htotal hstands
  obtain ⟨before, d, later, rfl, hbefore⟩ := delivered_first hnone
  have hd : Reports s b total d := hall d (List.mem_append_right _ List.mem_cons_self)
  have hfirst := run_first service s d hbefore hd hstands
  have hlater : AllReport s b total later := fun d' hd' =>
    hall d' (List.mem_append_right _ (List.mem_cons_of_mem _ hd'))
  have hquantity : ∀ more, handledQuantity (before ++ .delivered d :: more) =
      d.execution.quantity + handledQuantity more := by
    intro more
    rw [handledQuantity_append, handledQuantity_none hbefore, zero_add, handledQuantity_delivered]
  rw [hquantity] at hsum ⊢
  have hle : d.execution.quantity ≤ total := by
    have := handledQuantity_nonneg hlater
    linarith
  rw [firstHandled_iff service s d later hbefore, delivered_append, hbefore, List.nil_append]
  show _ ↔ _ ∧ ¬ (2 ≤ (delivered later).length + 1 ∧ _)
  constructor
  · intro hfollows
    have hat := hfollows (before ++ [.delivered d]) later (by simp)
    rw [hquantity, handledQuantity_none rfl, add_zero] at hat
    have hhandled : d.execution.key ∉ seenKeys s ∧
        d.execution.stockCode ∉ (run service s before).gapFillInProgress := by
      by_contra hdropped
      rw [if_neg hdropped] at hfirst
      rcases hle.lt_or_eq with hless | hwhole
      · exact OrderStatus.noConfusion (hfirst.unique (hat.2 hd.positive hless))
      · exact OrderStatus.noConfusion (hfirst.unique (hat.1.mpr hwhole))
    refine ⟨hhandled, ?_⟩
    rintro ⟨htwo, hwhole⟩
    rw [if_pos hhandled] at hfirst
    obtain ⟨e, he⟩ := List.exists_mem_of_length_pos (l := delivered later) (by omega)
    have hless : d.execution.quantity < total := by
      have := handledQuantity_pos hlater he
      linarith
    have hend := (hfollows (before ++ .delivered d :: later) [] (by simp)).1.mpr
      ((hquantity later).trans hwhole)
    have hpartly := run_after_first service s hall hsum hless hfirst
    exact OrderStatus.noConfusion (hpartly.unique hend)
  · rintro ⟨hhandled, hnot⟩ handled rest heq
    rw [if_pos hhandled] at hfirst
    rcases List.append_eq_append_iff.mp heq with ⟨more, rfl, hmore⟩ | ⟨more, rfl, -⟩
    · cases more with
      | nil =>
        rw [List.append_nil]
        exact follows_quiet service s hbefore htotal hstands
      | cons event mid =>
        rw [List.cons_append, List.cons.injEq] at hmore
        obtain ⟨rfl, rfl⟩ := hmore
        exact follows_handled service s hbefore hall htotal hsum hnot hfirst
    · rw [delivered_append] at hbefore
      exact follows_quiet service s (List.append_eq_nil_iff.mp hbefore).1 htotal hstands

end

/-- The broker order of the sample. -/
def tenOrdered : BrokerOrderEntity where
  brokerOrderId := 9
  orderRequestId := 1
  brokerName := brokerName
  brokerStatus := "acknowledged"
  brokerNativeOrderId := some "0000117057"

theorem fourDelivered_reports : Reports oneBrokerOrder tenOrdered 10 fourDelivered where
  known := ⟨by decide, rfl, sampleOrder .acknowledged, rfl, rfl⟩
  positive := by decide +kernel
  orderQty := by decide +kernel

theorem oneBrokerOrder_stands :
    Stands oneBrokerOrder tenOrdered.orderRequestId .acknowledged :=
  ⟨sampleOrder .acknowledged, rfl, rfl, rfl⟩

/-- Seven of ten, the last three during a gap fill. -/
def sevenDelivered : List Event :=
  [.delivered fourDelivered, .gapFillStarted "005930", .delivered threeDelivered]

theorem status_follows_sevenDelivered :
    StatusFollows false oneBrokerOrder tenOrdered 10 sevenDelivered := by
  have hall : AllReport oneBrokerOrder tenOrdered 10 sevenDelivered := by
    intro d hd
    simp only [sevenDelivered, List.mem_cons, Event.delivered.injEq, reduceCtorEq,
      List.not_mem_nil, or_false, false_or] at hd
    rcases hd with rfl | rfl
    · exact fourDelivered_reports
    · exact ⟨fourDelivered_reports.known, by decide +kernel, by decide +kernel⟩
  refine (status_follows_iff false oneBrokerOrder _ hall (by norm_num) oneBrokerOrder_stands
    (by decide +kernel)).mpr ⟨?_, by decide +kernel⟩
  rintro e gate later heq
  cases heq
  exact ⟨List.not_mem_nil, rfl⟩

/-- The six other shares, a second later. -/
def sixDelivered : Delivery where
  execution := { fourExecuted with identity := 2, time := "093001", quantity := 6 }
  data := { fourDelivered.data with filledQty := "6", filledTime := "093001" }
  now := 0
  choices := fun _ => idleChoice
  brokerOrderId := rfl
  stockCode := rfl
  filledTime := rfl
  filledPrice := by decide +kernel
  filledQty := by decide +kernel

/-- Four and six of ten: the order stays partially filled. -/
theorem ten_in_two_stays_partial :
    handledQuantity [.delivered fourDelivered, .delivered sixDelivered] = 10 ∧
      AllReport oneBrokerOrder tenOrdered 10 [.delivered fourDelivered, .delivered sixDelivered] ∧
      ¬ StatusFollows false oneBrokerOrder tenOrdered 10
        [.delivered fourDelivered, .delivered sixDelivered] := by
  have hall : AllReport oneBrokerOrder tenOrdered 10
      [.delivered fourDelivered, .delivered sixDelivered] := by
    intro d hd
    simp only [List.mem_cons, Event.delivered.injEq, List.not_mem_nil, or_false] at hd
    rcases hd with rfl | rfl
    · exact fourDelivered_reports
    · exact ⟨fourDelivered_reports.known, by decide +kernel, by decide +kernel⟩
  have hwhole : handledQuantity [.delivered fourDelivered, .delivered sixDelivered] = 10 := by
    decide +kernel
  refine ⟨hwhole, hall, fun hfollows => ?_⟩
  have hfirst := run_first false oneBrokerOrder fourDelivered
    (show delivered ([] : List Event) = [] from rfl) fourDelivered_reports oneBrokerOrder_stands
  rw [if_pos ⟨List.not_mem_nil, List.not_mem_nil⟩] at hfirst
  have hpartly := run_after_first false oneBrokerOrder
    (show AllReport oneBrokerOrder tenOrdered 10
      ([] ++ .delivered fourDelivered :: [.delivered sixDelivered]) from hall)
    (by decide +kernel) (by decide +kernel) hfirst
  exact OrderStatus.noConfusion (hpartly.unique ((hfollows _ [] rfl).1.mpr hwhole))

end AgentTrading.EventLoop
