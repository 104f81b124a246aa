import AgentTrading.EventLoop.Handler
import AgentTrading.Library.Inbox
import AgentTrading.Orders.TransitionSafety

/-! Which executions the event loop stores, and where it files them. -/
namespace AgentTrading.EventLoop
open Domain Repositories Library Orders

/-- An execution at the broker. Its identity is the broker's own and is not in the message. -/
structure Execution where
  identity : Nat
  brokerOrderId : String
  stockCode : String
  time : String
  price : ℚ
  quantity : ℚ
  deriving DecidableEq

def Execution.key (e : Execution) : String := dedupKey e.brokerOrderId e.time

/-- A notification of an execution; the handler sees the data only. -/
structure Delivery where
  execution : Execution
  data : FillNotification
  now : Time
  choices : Nat → Orders.Choice
  brokerOrderId : data.brokerOrderId = execution.brokerOrderId
  stockCode : data.stockCode = execution.stockCode
  filledTime : data.filledTime = execution.time
  filledPrice : safeDecimal data.filledPrice = .ok execution.price
  filledQty : safeDecimal data.filledQty = .ok execution.quantity

theorem Delivery.key (d : Delivery) : d.data.dedupKey = d.execution.key := by
  simp only [FillNotification.dedupKey, Execution.key, d.brokerOrderId, d.filledTime]

inductive Event where
  | delivered (d : Delivery)
  | gapFillStarted (symbol : String)
  | gapFillFinished (symbol : String) (now : Time) (fills : List ReportedFill)

variable (service : Bool)

def step (s : State) : Event → State
  | .delivered d => handleFillNotification service d.now d.choices d.data s
  | .gapFillStarted symbol => startGapFill symbol s
  | .gapFillFinished symbol now fills => finishGapFill symbol now fills s

def run (s : State) (events : List Event) : State := events.foldl (step service) s

/-- The executions in the order of their notifications, each with whether its symbol is outside
a gap fill at that point. -/
def arrivals (gapFills : List String) : List Event → List (Execution × Bool)
  | [] => []
  | .delivered d :: events =>
    (d.execution, decide (d.execution.stockCode ∉ gapFills)) :: arrivals gapFills events
  | .gapFillStarted symbol :: events => arrivals (gapFills.insert symbol) events
  | .gapFillFinished symbol _ _ :: events => arrivals (gapFills.filter (· ≠ symbol)) events

def delivered (events : List Event) : List Execution :=
  events.filterMap fun
    | .delivered d => some d.execution
    | _ => none

theorem arrivals_delivered (gapFills : List String) (events : List Event) :
    (arrivals gapFills events).map Prod.fst = delivered events := by
  induction events generalizing gapFills with
  | nil => rfl
  | cons event events ih =>
    cases event with
    | delivered d => exact congrArg (d.execution :: ·) (ih gapFills)
    | gapFillStarted symbol => exact ih _
    | gapFillFinished symbol now fills => exact ih _

def seenKeys (s : State) : List String := s.externalEvents.filterMap (·.dedupKeyHash)

/-- The key of a gap fill's event is no notification's. -/
theorem gapFillEvent_key (symbol : String) (now : Time) (fill : ReportedFill) (id : UUID)
    (e : Execution) : (gapFillEvent symbol now fill id).dedupKeyHash ≠ some e.key := by
  simp only [gapFillEvent, Execution.key, dedupKey, ne_eq, Option.some.injEq]
  intro h
  have hchars := congrArg String.toList h
  simp only [String.toList_append, List.append_assoc] at hchars
  exact absurd (congrArg List.head? hchars) (by simp)

theorem findByDedupKey_isSome (s : State) (key : String) :
    (s.findByDedupKey key).isSome ↔ key ∈ seenKeys s := by
  simp [State.findByDedupKey, seenKeys]

/-- The execution belongs to a broker order whose order is stored under its own identifier. -/
def Known (s : State) (e : Execution) (brokerOrder : BrokerOrderEntity) : Prop :=
  e.brokerOrderId ≠ "" ∧ s.getByNativeOrderId e.brokerOrderId = some brokerOrder ∧
    ∃ row, s.store.orders brokerOrder.orderRequestId = some row ∧
      row.orderRequestId = brokerOrder.orderRequestId

structure StoreKept (s t : Store) : Prop where
  brokerOrders : t.brokerOrders = s.brokerOrders
  orders : ∀ id row, s.orders id = some row → row.orderRequestId = id →
    ∃ row', t.orders id = some row' ∧ row'.orderRequestId = id

theorem StoreKept.refl (s : Store) : StoreKept s s := ⟨rfl, fun _ row h hid => ⟨row, h, hid⟩⟩

theorem StoreKept.trans {s t u : Store} (h : StoreKept s t) (h' : StoreKept t u) :
    StoreKept s u where
  brokerOrders := h'.brokerOrders.trans h.brokerOrders
  orders := fun id row hrow hid =>
    have ⟨row', hrow', hid'⟩ := h.orders id row hrow hid
    h'.orders id row' hrow' hid'

theorem exec_storeKept (c : Orders.Choice) (op : Orders.Op) (s : Store) (h : op.Transitional) :
    StoreKept s (exec c op s).2 := by
  have hbroker : (exec c op s).2.brokerOrders = s.brokerOrders := by
    apply (exec_writes c op s).brokerOrders
    rintro _ rfl
    rcases h with h | h | ⟨_, h⟩ | ⟨_, _, _, _, _, _, h⟩ <;> cases h
  refine ⟨hbroker, fun id row hrow hid => ?_⟩
  rcases exec_order c op s id with hsame | ⟨_, _, _, _, _, current, -, hcurrent, hwritten⟩
  · exact ⟨row, hsame.trans hrow, hid⟩
  · obtain rfl : current = row := Option.some.inj (hcurrent.symm.trans hrow)
    exact ⟨_, hwritten, hid⟩

theorem transition_storeKept (order : OrderRequestEntity) (target : OrderStatus)
    (args : TransitionArgs) (choices : Nat → Orders.Choice) (s : Store) :
    StoreKept s ((transitionTo service order target args).run (Program.drawing exec)
      (choices, s)).2.2 :=
  (transitionTo_only service order target args).run_keeps (I := fun x => StoreKept s x.2)
    (Program.drawing exec) (fun op _ h hx => hx.trans (exec_storeKept _ op _ h)) _ (.refl s)

theorem Known.kept {s t : State} {e : Execution} {b : BrokerOrderEntity} (h : Known s e b)
    (hkept : StoreKept s.store t.store) : Known t e b := by
  obtain ⟨hne, hnative, row, hrow, hid⟩ := h
  refine ⟨hne, ?_, hkept.orders _ row hrow hid⟩
  simpa only [State.getByNativeOrderId, hkept.brokerOrders] using hnative

/-- What `list_by_broker_order` finds, as prices and quantities. -/
def listed (s : State) (brokerOrderId : UUID) : List (ℚ × ℚ) :=
  (s.listByBrokerOrder brokerOrderId).map fun fill => (fill.fillPrice, fill.fillQuantity)

/-- Nothing is stored but the external events. -/
structure OnlyEvents (s t : State) : Prop where
  store : StoreKept s.store t.store
  orders : t.store.orders = s.store.orders
  gapFills : t.gapFillInProgress = s.gapFillInProgress
  fills : t.fillEvents = s.fillEvents

variable {s : State} {d : Delivery}

theorem handle_seen (h : d.execution.key ∈ seenKeys s) :
    handleFillNotification service d.now d.choices d.data s = s := by
  unfold handleFillNotification
  rw [d.key, if_pos ((findByDedupKey_isSome s _).mpr h), ite_self]

theorem handle_new (hne : d.execution.brokerOrderId ≠ "") (h : d.execution.key ∉ seenKeys s) :
    handleFillNotification service d.now d.choices d.data s =
      let t := s.addExternalEvent (fillNotificationEvent d.now d.data)
      if d.execution.stockCode ∈ s.gapFillInProgress then t
      else applyFill service d.now d.choices d.data t := by
  have hseen : ¬ (s.findByDedupKey d.execution.key).isSome := by
    rw [findByDedupKey_isSome]
    exact h
  unfold handleFillNotification
  rw [d.key, d.brokerOrderId, d.stockCode, if_neg hne, if_neg hseen]
  rfl

theorem addExternalEvent_onlyEvents (event : UUID → ExternalEventEntity) :
    OnlyEvents s (s.addExternalEvent event) :=
  ⟨⟨rfl, fun _ row h hid => ⟨row, h, hid⟩⟩, rfl, rfl, rfl⟩

theorem seenKeys_addNotification (d : Delivery) :
    seenKeys (s.addExternalEvent (fillNotificationEvent d.now d.data)) =
      seenKeys s ++ [d.execution.key] := by
  simp only [seenKeys, State.addExternalEvent, List.filterMap_append, List.filterMap_cons,
    List.filterMap_nil, fillNotificationEvent, d.key]

theorem routeStateChange_fields (choices : Nat → Orders.Choice) (data : FillNotification)
    (order : OrderRequestEntity) (fillQty : ℚ) (s : State) :
    ∃ store, routeStateChange service choices data order fillQty s = { s with store := store } ∧
      StoreKept s.store store := by
  unfold routeStateChange
  split
  · exact ⟨s.store, rfl, .refl _⟩
  · split
    · exact ⟨s.store, rfl, .refl _⟩
    · exact ⟨_, rfl, transition_storeKept service order _ _ choices s.store⟩

/-- What the fill of a known order changes: the list of fills that the identifier of the order
stands for. -/
structure Filed (s t : State) (orderRequestId : UUID) (e : Execution) : Prop where
  store : StoreKept s.store t.store
  externalEvents : t.externalEvents = s.externalEvents
  gapFills : t.gapFillInProgress = s.gapFillInProgress
  fills : ∀ id, listed t id =
    listed s id ++ if orderRequestId = id then [(e.price, e.quantity)] else []

theorem applyFill_known {b : BrokerOrderEntity} (hknown : Known s d.execution b) :
    Filed s (applyFill service d.now d.choices d.data s) b.orderRequestId d.execution := by
  obtain ⟨-, hnative, row, hrow, hid⟩ := hknown
  have hresolved : s.resolveOrderFromNativeId d.data.brokerOrderId = some row := by
    simp only [State.resolveOrderFromNativeId, d.brokerOrderId, hnative, hrow]
  obtain ⟨store, heq, hkept⟩ := routeStateChange_fields service d.choices d.data row
    d.execution.quantity
    (s.addFill (fillEventOf d.now d.data row d.execution.quantity d.execution.price))
  unfold applyFill
  rw [hresolved]
  simp only [d.filledQty, d.filledPrice, heq]
  refine ⟨⟨hkept.brokerOrders, hkept.orders⟩, rfl, rfl, fun id => ?_⟩
  simp only [listed, State.listByBrokerOrder, State.addFill, List.filter_append, List.map_append,
    List.filter_cons, List.filter_nil, fillEventOf, hid]
  by_cases hsame : b.orderRequestId = id
  · simp [hsame]
  · simp [hsame]

/-- An identifier the broker order of the execution has: its own or that of its order. -/
def fileOf (file : BrokerOrderEntity → UUID) (s : State) (e : Execution) : Option UUID :=
  (s.getByNativeOrderId e.brokerOrderId).map file

/-- The executions whose notification leads to a stored fill. -/
def stored (s : State) (events : List Event) : List Execution :=
  Inbox.accepted Execution.key (seenKeys s) (arrivals s.gapFillInProgress events)

/-- The amounts of the executions that `file` puts under one identifier. -/
def amountsOf (file : BrokerOrderEntity → UUID) (s : State) (id : UUID)
    (executions : List Execution) : List (ℚ × ℚ) :=
  (executions.filter fun e => fileOf file s e = some id).map fun e => (e.price, e.quantity)

theorem fileOf_kept (file : BrokerOrderEntity → UUID) {s t : State}
    (hkept : StoreKept s.store t.store) : fileOf file t = fileOf file s := by
  funext e
  simp only [fileOf, State.getByNativeOrderId, hkept.brokerOrders]

theorem finishGapFill_onlyEvents (symbol : String) (now : Time) (fills : List ReportedFill)
    (s : State) :
    StoreKept s.store (finishGapFill symbol now fills s).store ∧
      (finishGapFill symbol now fills s).store.orders = s.store.orders ∧
      (finishGapFill symbol now fills s).fillEvents = s.fillEvents ∧
      (finishGapFill symbol now fills s).gapFillInProgress =
        s.gapFillInProgress.filter (· ≠ symbol) ∧
      ∀ e : Execution, e.key ∈ seenKeys (finishGapFill symbol now fills s) ↔
        e.key ∈ seenKeys s := by
  suffices h : ∀ t : State, t = fills.foldl
      (fun s fill => s.addExternalEvent (gapFillEvent symbol now fill)) s →
      OnlyEvents s t ∧ ∀ e : Execution, e.key ∈ seenKeys t ↔ e.key ∈ seenKeys s by
    obtain ⟨⟨hkept, horders, hgaps, hfills⟩, hkeys⟩ := h _ rfl
    exact ⟨hkept, horders, hfills, congrArg (List.filter (· ≠ symbol)) hgaps, hkeys⟩
  induction fills generalizing s with
  | nil =>
    rintro _ rfl
    exact ⟨⟨.refl _, rfl, rfl, rfl⟩, fun e => Iff.rfl⟩
  | cons fill fills ih =>
    rintro t rfl
    obtain ⟨⟨hkept, horders, hgaps, hfills⟩, hkeys⟩ := ih _ _ rfl
    have hadd := addExternalEvent_onlyEvents (s := s) (gapFillEvent symbol now fill)
    refine ⟨⟨hadd.store.trans hkept, horders, hgaps, hfills⟩, fun e => (hkeys e).trans ?_⟩
    simp only [seenKeys, State.addExternalEvent, List.filterMap_append, List.mem_append,
      List.mem_filterMap, List.mem_singleton, exists_eq_left, gapFillEvent_key, or_false]

theorem stored_delivered_seen (events : List Event) (h : d.execution.key ∈ seenKeys s) :
    stored s (.delivered d :: events) = stored s events :=
  Inbox.accepted_seen h

theorem stored_delivered_new {t : State} (events : List Event)
    (h : d.execution.key ∉ seenKeys s) (hkeys : seenKeys t = seenKeys s ++ [d.execution.key])
    (hgaps : t.gapFillInProgress = s.gapFillInProgress) :
    stored s (.delivered d :: events) =
      if d.execution.stockCode ∈ s.gapFillInProgress then stored t events
      else d.execution :: stored t events := by
  have hrest : stored t events = Inbox.accepted Execution.key (d.execution.key :: seenKeys s)
      (arrivals s.gapFillInProgress events) := by
    unfold stored
    rw [hkeys, hgaps]
    refine Inbox.accepted_congr fun e => ?_
    simp only [List.mem_append, List.mem_cons, List.not_mem_nil, or_false]
    exact or_comm
  rw [hrest, stored, arrivals]
  by_cases hgap : d.execution.stockCode ∈ s.gapFillInProgress
  · rw [if_pos hgap]
    simp only [hgap, not_true_eq_false, decide_false]
    exact Inbox.accepted_closed h
  · rw [if_neg hgap]
    simp only [hgap, not_false_eq_true, decide_true]
    exact Inbox.accepted_open h

theorem run_delivered (s : State) (d : Delivery) (events : List Event) {b : BrokerOrderEntity}
    (hb : Known s d.execution b) {id : UUID}
    (ih : ∀ t, StoreKept s.store t.store →
      listed (run service t events) id = listed t id ++
        amountsOf (·.orderRequestId) t id (stored t events)) :
    listed (run service s (.delivered d :: events)) id =
      listed s id ++ amountsOf (·.orderRequestId) s id (stored s (.delivered d :: events)) := by
  simp only [run, List.foldl_cons, step] at ih ⊢
  by_cases hseen : d.execution.key ∈ seenKeys s
  · rw [handle_seen service hseen, ih s (.refl _), stored_delivered_seen events hseen]
  · have hadd := addExternalEvent_onlyEvents (s := s) (fillNotificationEvent d.now d.data)
    have hkeys := seenKeys_addNotification (s := s) d
    rw [handle_new service hb.1 hseen]
    by_cases hgap : d.execution.stockCode ∈ s.gapFillInProgress
    · rw [stored_delivered_new events hseen hkeys hadd.gapFills]
      simp only [if_pos hgap]
      rw [ih _ hadd.store, amountsOf, fileOf_kept _ hadd.store]
      rfl
    · have horder : fileOf (·.orderRequestId) s d.execution = some b.orderRequestId := by
        simp only [fileOf, hb.2.1, Option.map_some]
      have hfiled := applyFill_known (d := d) service (hb.kept hadd.store)
      simp only [if_neg hgap]
      generalize applyFill service d.now d.choices d.data _ = t at hfiled ⊢
      have hkept := hadd.store.trans hfiled.store
      have hkeys' : seenKeys t = seenKeys s ++ [d.execution.key] := by
        rw [← hkeys, seenKeys, hfiled.externalEvents, seenKeys]
      rw [ih t hkept, hfiled.fills, amountsOf, fileOf_kept _ hkept,
        stored_delivered_new events hseen hkeys' (hfiled.gapFills.trans hadd.gapFills),
        if_neg hgap, amountsOf, List.append_assoc, List.filter_cons, horder]
      refine congrArg (listed s id ++ ·) ?_
      by_cases hsame : b.orderRequestId = id
      · simp [hsame]
      · simp [hsame]

/-- Each list of fills grows by the stored executions of the order that has its identifier. -/
theorem run_listed (s : State) (events : List Event)
    (hknown : ∀ e ∈ delivered events, ∃ b, Known s e b) (id : UUID) :
    listed (run service s events) id = listed s id ++
      amountsOf (·.orderRequestId) s id (stored s events) := by
  induction events generalizing s with
  | nil => simp [run, stored, arrivals, amountsOf]
  | cons event events ih =>
    have hnext : ∀ t, StoreKept s.store t.store → ∀ e ∈ delivered events, ∃ b, Known t e b := by
      intro t hkept e he
      obtain ⟨b, hb⟩ := hknown e (by
        cases event with
        | delivered d => exact List.mem_cons_of_mem _ he
        | gapFillStarted symbol => exact he
        | gapFillFinished symbol now fills => exact he)
      exact ⟨b, hb.kept hkept⟩
    cases event with
    | gapFillStarted symbol =>
      exact ih (startGapFill symbol s) (hnext _ (.refl _))
    | gapFillFinished symbol now fills =>
      obtain ⟨hkept, -, hfills, hgaps, hkeys⟩ := finishGapFill_onlyEvents symbol now fills s
      have hrest := ih (finishGapFill symbol now fills s) (hnext _ hkept)
      simp only [listed, State.listByBrokerOrder, hfills, amountsOf, fileOf_kept _ hkept, stored,
        hgaps, Inbox.accepted_congr hkeys] at hrest
      exact hrest
    | delivered d =>
      obtain ⟨b, hb⟩ := hknown d.execution List.mem_cons_self
      exact run_delivered service s d events hb fun t hkept => ih t (hnext t hkept)

/-! Storing each execution once, under its order and under its broker order. -/

/-- Under each identifier stand, besides what stood there before, exactly the delivered
executions that `file` puts there. -/
def FiledOnce (file : BrokerOrderEntity → UUID) (s : State) (events : List Event) (t : State) :
    Prop :=
  ∀ id, (listed t id).Perm (listed s id ++ amountsOf file s id (delivered events).dedup)

/-- The notification is the first under its key and comes outside a gap fill of its symbol. -/
def ArrivesFirst (s : State) (events : List Event) (e : Execution) : Prop :=
  e.key ∉ seenKeys s ∧ ∃ earlier later,
    arrivals s.gapFillInProgress events = earlier ++ (e, true) :: later ∧
      ∀ a ∈ earlier, a.1.key ≠ e.key

theorem filedOnce_order_iff (s : State) (events : List Event)
    (hknown : ∀ e ∈ delivered events, ∃ b, Known s e b) :
    FiledOnce (·.orderRequestId) s events (run service s events) ↔
      ∀ e ∈ delivered events, ArrivesFirst s events e := by
  have hgroups : (∀ g, (((stored s events).filter
        fun e => fileOf (·.orderRequestId) s e = g).map fun e => (e.price, e.quantity)).Perm
      (((delivered events).dedup.filter
        fun e => fileOf (·.orderRequestId) s e = g).map fun e => (e.price, e.quantity))) ↔
      ∀ e ∈ delivered events, e ∈ stored s events := by
    rw [← arrivals_delivered s.gapFillInProgress events]
    exact Inbox.accepted_groups _ _
  have hfirst : (∀ e ∈ delivered events, e ∈ stored s events) ↔
      ∀ e ∈ delivered events, ArrivesFirst s events e :=
    forall₂_congr fun e _ => Inbox.mem_accepted
  rw [← hfirst, ← hgroups]
  simp only [FiledOnce, run_listed service s events hknown, List.perm_append_left_iff]
  refine ⟨fun h g => ?_, fun h id => h (some id)⟩
  cases g with
  | some id => exact h id
  | none =>
    -- no delivered execution is without an order
    have hnone : ∀ es : List Execution, es ⊆ delivered events →
        es.filter (fun e => fileOf (·.orderRequestId) s e = none) = [] := by
      intro es hes
      refine List.filter_eq_nil_iff.mpr fun e he => ?_
      obtain ⟨b, hb⟩ := hknown e (hes he)
      simp [fileOf, hb.2.1]
    rw [hnone _ (fun e he => List.mem_dedup.mp he), hnone]
    intro e he
    rw [← arrivals_delivered s.gapFillInProgress events]
    exact Inbox.accepted_arrived he

theorem run_listed_brokerOrder (s : State) (events : List Event)
    (hknown : ∀ e ∈ delivered events, ∃ b, Known s e b)
    (hids : ∀ b ∈ s.store.brokerOrders, ∀ b' ∈ s.store.brokerOrders,
      b.brokerOrderId ≠ b'.orderRequestId) {b : BrokerOrderEntity}
    (hb : b ∈ s.store.brokerOrders) :
    listed (run service s events) b.brokerOrderId = listed s b.brokerOrderId := by
  rw [run_listed service s events hknown, amountsOf, List.filter_eq_nil_iff.mpr, List.map_nil,
    List.append_nil]
  intro e _ hfile
  obtain ⟨b', hb', hid⟩ := Option.map_eq_some_iff.mp (of_decide_eq_true hfile)
  exact hids b hb b' (List.mem_of_find?_eq_some hb') hid.symm

theorem filedOnce_brokerOrder_iff (s : State) (events : List Event)
    (hknown : ∀ e ∈ delivered events, ∃ b, Known s e b)
    (hids : ∀ b ∈ s.store.brokerOrders, ∀ b' ∈ s.store.brokerOrders,
      b.brokerOrderId ≠ b'.orderRequestId) :
    FiledOnce (·.brokerOrderId) s events (run service s events) ↔ delivered events = [] := by
  constructor
  · intro h
    by_contra hsome
    obtain ⟨e, he⟩ := List.exists_mem_of_ne_nil _ hsome
    obtain ⟨b, hb⟩ := hknown e he
    have hlength := (h b.brokerOrderId).length_eq
    rw [run_listed_brokerOrder service s events hknown hids (List.mem_of_find?_eq_some hb.2.1),
      List.length_append] at hlength
    have hnil : amountsOf (·.brokerOrderId) s b.brokerOrderId (delivered events).dedup = [] :=
      List.length_eq_zero_iff.mp (by omega)
    have hmem : e ∈ (delivered events).dedup.filter
        fun e => fileOf (·.brokerOrderId) s e = some b.brokerOrderId := by
      simp only [List.mem_filter, List.mem_dedup, fileOf, hb.2.1, Option.map_some, decide_true,
        and_true]
      exact he
    rw [List.map_eq_nil_iff.mp hnil] at hmem
    exact List.not_mem_nil hmem
  · intro hnone id
    rw [run_listed service s events hknown, stored, hnone]
    have harrivals : arrivals s.gapFillInProgress events = [] := by
      rw [← List.map_eq_nil_iff (f := Prod.fst), arrivals_delivered, hnone]
    rw [harrivals]
    exact .refl _

/-- An acknowledged order for ten with its broker order. -/
def oneBrokerOrder : State where
  store := { Store.holding (sampleOrder .acknowledged) 0 with
    brokerOrders :=
      [{ brokerOrderId := 9
         orderRequestId := 1
         brokerName := brokerName
         brokerStatus := "acknowledged"
         brokerNativeOrderId := some "0000117057" }] }

/-- Four shares executed at half past nine. -/
def fourExecuted : Execution where
  identity := 1
  brokerOrderId := "0000117057"
  stockCode := "005930"
  time := "093000"
  price := 70000
  quantity := 4

def fourDelivered : Delivery where
  execution := fourExecuted
  data :=
    { brokerOrderId := "0000117057"
      stockCode := "005930"
      filledQty := "4"
      filledPrice := "70000"
      filledTime := "093000"
      orderQty := "10" }
  now := 0
  choices := fun _ => idleChoice
  brokerOrderId := rfl
  stockCode := rfl
  filledTime := rfl
  filledPrice := by decide +kernel
  filledQty := by decide +kernel

theorem fourExecuted_known :
    ∀ e ∈ delivered [.delivered fourDelivered], ∃ b, Known oneBrokerOrder e b := by
  simp only [delivered, List.filterMap_cons, List.filterMap_nil, List.mem_singleton, forall_eq]
  exact ⟨_, by decide, rfl, sampleOrder .acknowledged, rfl, rfl⟩

theorem oneBrokerOrder_ids : ∀ b ∈ oneBrokerOrder.store.brokerOrders,
    ∀ b' ∈ oneBrokerOrder.store.brokerOrders, b.brokerOrderId ≠ b'.orderRequestId := by
  simp [oneBrokerOrder]

/-- The executions delivered are never filed under their broker orders. Under their orders each
is stored once exactly when the first notification under its key is its own and comes outside a
gap fill of its symbol. -/
theorem fills_filed_iff (s : State) (events : List Event)
    (hknown : ∀ e ∈ delivered events, ∃ b, Known s e b)
    (hids : ∀ b ∈ s.store.brokerOrders, ∀ b' ∈ s.store.brokerOrders,
      b.brokerOrderId ≠ b'.orderRequestId) :
    (FiledOnce (·.brokerOrderId) s events (run service s events) ↔ delivered events = []) ∧
      (FiledOnce (·.orderRequestId) s events (run service s events) ↔
        ∀ e ∈ delivered events, ArrivesFirst s events e) :=
  ⟨filedOnce_brokerOrder_iff service s events hknown hids,
    filedOnce_order_iff service s events hknown⟩

/-- Three more shares, a second later. -/
def threeDelivered : Delivery where
  execution := { fourExecuted with identity := 2, time := "093001", quantity := 3 }
  data := { fourDelivered.data with filledQty := "3", filledTime := "093001" }
  now := 0
  choices := fun _ => idleChoice
  brokerOrderId := rfl
  stockCode := rfl
  filledTime := rfl
  filledPrice := by decide +kernel
  filledQty := by decide +kernel

/-- Both executions, the first once more, and a gap fill behind them. -/
def deliveredAgain : List Event :=
  [.delivered fourDelivered, .delivered threeDelivered, .delivered fourDelivered,
    .gapFillStarted "005930"]

theorem deliveredAgain_known : ∀ e ∈ delivered deliveredAgain, ∃ b, Known oneBrokerOrder e b := by
  intro e he
  simp only [delivered, deliveredAgain, List.filterMap_cons, List.filterMap_nil, List.mem_cons,
    List.not_mem_nil, or_false] at he
  rcases he with rfl | rfl | rfl <;> exact ⟨_, by decide, rfl, sampleOrder .acknowledged, rfl, rfl⟩

theorem fills_filed_deliveredAgain :
    ¬ FiledOnce (·.brokerOrderId) oneBrokerOrder deliveredAgain
        (run false oneBrokerOrder deliveredAgain) ∧
      FiledOnce (·.orderRequestId) oneBrokerOrder deliveredAgain
        (run false oneBrokerOrder deliveredAgain) := by
  have h := fills_filed_iff false oneBrokerOrder _ deliveredAgain_known oneBrokerOrder_ids
  rw [h.1, h.2]
  refine ⟨List.cons_ne_nil _ _, fun e he => ?_⟩
  have hfour : ArrivesFirst oneBrokerOrder deliveredAgain fourExecuted :=
    ⟨List.not_mem_nil, [], [(threeDelivered.execution, true), (fourExecuted, true)], rfl,
      fun _ h => (List.not_mem_nil h).elim⟩
  have hthree : ArrivesFirst oneBrokerOrder deliveredAgain threeDelivered.execution :=
    ⟨List.not_mem_nil, [(fourExecuted, true)], [(fourExecuted, true)], rfl, by decide +kernel⟩
  simp only [delivered, deliveredAgain, List.filterMap_cons, List.filterMap_nil, List.mem_cons,
    List.not_mem_nil, or_false] at he
  rcases he with rfl | rfl | rfl
  · exact hfour
  · exact hthree
  · exact hfour

/-- A single execution, delivered once to an idle loop, is not among the fills of its broker
order. -/
theorem fill_not_under_brokerOrder :
    (∃ b, Known oneBrokerOrder fourExecuted b) ∧
      ¬ FiledOnce (·.brokerOrderId) oneBrokerOrder [.delivered fourDelivered]
        (run false oneBrokerOrder [.delivered fourDelivered]) := by
  constructor
  · exact fourExecuted_known _ List.mem_cons_self
  · rw [filedOnce_brokerOrder_iff false oneBrokerOrder _ fourExecuted_known oneBrokerOrder_ids]
    exact List.cons_ne_nil _ _

end AgentTrading.EventLoop
