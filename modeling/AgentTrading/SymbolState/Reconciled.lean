import AgentTrading.SymbolState.StateMachine

/-! The states after a reconciliation. -/
namespace AgentTrading.SymbolState
open Domain Kis Library RealizedPnl Performance Library.Latest Library.Keyed

def sellPending (s : SymbolTradeStateEntity) : Prop :=
  s.state = "reduce_pending" ∨ s.state = "exit_pending"

def entryPending (s : SymbolTradeStateEntity) : Prop := s.state = "entry_pending"

section Resolve

variable (s : SymbolTradeStateEntity) (quantity : ℚ) (buy sell : Option OrderRequestEntity)
  (nowUtc : Time)

theorem resolve_sellPending :
    ((resolveSymbolTradeState s quantity buy sell nowUtc).state = "reduce_pending" ∨
      (resolveSymbolTradeState s quantity buy sell nowUtc).state = "exit_pending") ↔
      0 < quantity ∧ isActive sell = true := by
  unfold resolveSymbolTradeState
  dsimp only
  split_ifs <;> simp_all

theorem resolve_entryPending :
    (resolveSymbolTradeState s quantity buy sell nowUtc).state = "entry_pending" ↔
      ¬ 0 < quantity ∧ isActive buy = true := by
  unfold resolveSymbolTradeState
  dsimp only
  split_ifs <;> simp_all

/-- Resolving the resolved state again gives the same: only `exit_pending` is carried over. -/
theorem resolve_again (isoformat : Time → String) :
    resolveSymbolTradeState (s.resolved isoformat
      (resolveSymbolTradeState s quantity buy sell nowUtc) nowUtc) quantity buy sell nowUtc =
      resolveSymbolTradeState s quantity buy sell nowUtc := by
  by_cases hquantity : 0 < quantity
  · cases hsell : isActive sell with
    | false => simp [resolveSymbolTradeState, hquantity, hsell]
    | true =>
      by_cases hexit : s.state = "exit_pending" <;>
        simp [resolveSymbolTradeState, SymbolTradeStateEntity.resolved, hquantity, hsell, hexit]
  · simp [resolveSymbolTradeState, SymbolTradeStateEntity.resolved, hquantity]

end Resolve

section Orders

variable {orders : List OrderRequestEntity}

/-- The order that the state of a side is judged by. -/
def latestOf (orders : List OrderRequestEntity) (side : OrderSide) : Option OrderRequestEntity :=
  (newestFirst (fun order => (latestOrderKey order).getD 0)
    (orders.filter (·.side = side))).head?

theorem latestOrderForSide_eq
    (h : 2 ≤ orders.length → ∀ order ∈ orders, latestOrderKey order ≠ none) (side : OrderSide) :
    latestOrderForSide orders side = .ok (latestOf orders side) := by
  apply if_neg
  rintro ⟨⟨order, hmem, hnone⟩, order', hmem', hsome⟩
  have horder := (List.mem_filter.mp hmem).1
  have horder' := (List.mem_filter.mp hmem').1
  match orders, h, horder, horder' with
  | [single], _, horder, horder' =>
    rw [List.mem_singleton] at horder horder'
    rw [horder', ← horder] at hsome
    exact hsome hnone
  | _ :: _ :: rest, h, horder, _ => exact h (by simp) order horder hnone

theorem latestOf_isLatest (orders : List OrderRequestEntity) (side : OrderSide) :
    IsLatest (fun order => (latestOrderKey order).getD 0) (fun order => order.side = side) orders
      (latestOf orders side) := by
  have h : IsLatest (fun order => (latestOrderKey order).getD 0)
      (fun order : OrderRequestEntity => decide (order.side = side) = true) orders
      ((newestFirst (fun order => (latestOrderKey order).getD 0) orders).find? (·.side = side)) :=
    isLatest_newestFirst orders _
  rw [← List.head?_filter] at h
  unfold newestFirst at h
  rw [filter_insertionSort] at h
  unfold latestOf newestFirst
  simpa only [decide_eq_true_eq] using h

end Orders

variable (b : Books) (accountId : UUID)

/-- The orders of the account as the service lists them. -/
def listedOrders : List OrderRequestEntity :=
  (b.trades.accountOrders accountId).insertionSort orderAfter

def latestOrder (instrumentId : UUID) (side : OrderSide) : Option OrderRequestEntity :=
  latestOf ((listedOrders b accountId).filter (·.instrumentId = instrumentId)) side

/-- The quantity that the position of the instrument is taken to have. -/
def heldQuantity (instrumentId : UUID) : ℚ :=
  positionQuantity (b.listLatestByAccount accountId) instrumentId

def resolutionOf (nowUtc : Time) (s : SymbolTradeStateEntity) : SymbolTradeStateResolution :=
  resolveSymbolTradeState s (heldQuantity b accountId s.instrumentId)
    (latestOrder b accountId s.instrumentId .buy) (latestOrder b accountId s.instrumentId .sell)
    nowUtc

/-- One page holds the orders of the account, and they can be sorted. -/
structure OrdersRead : Prop where
  onOnePage : (b.trades.accountOrders accountId).length ≤ reconcileLimit
  dated : 2 ≤ (b.trades.accountOrders accountId).length →
    ∀ order ∈ b.trades.accountOrders accountId, orderListKey order ≠ none

variable {b accountId} {nowUtc : Time}

theorem OrdersRead.listOrders (h : OrdersRead b accountId) :
    b.trades.listOrders accountId reconcileLimit = .ok (listedOrders b accountId) := by
  have hall : (b.trades.accountOrders accountId).length ≤ reconcileLimit := h.onOnePage
  rw [Trades.listOrders_of_dated _ h.dated,
    List.take_of_length_le (by rwa [List.length_insertionSort])]
  rfl

theorem latestOrderKey_ne_none {order : OrderRequestEntity} (h : orderListKey order ≠ none) :
    latestOrderKey order ≠ none := by
  intro hnone
  apply h
  simp only [latestOrderKey, Option.or_eq_none_iff] at hnone
  simp only [orderListKey, Option.or_eq_none_iff, hnone, and_self]

theorem OrdersRead.resolveState (h : OrdersRead b accountId) (s : SymbolTradeStateEntity) :
    resolveState (b.listLatestByAccount accountId) (listedOrders b accountId) nowUtc s =
      .ok (resolutionOf b accountId nowUtc s) := by
  have hdated : 2 ≤ ((listedOrders b accountId).filter
      (·.instrumentId = s.instrumentId)).length →
      ∀ order ∈ (listedOrders b accountId).filter (·.instrumentId = s.instrumentId),
        latestOrderKey order ≠ none := by
    intro hlen order hmem
    apply latestOrderKey_ne_none
    apply h.dated
    · have hle := List.length_filter_le (fun order : OrderRequestEntity =>
        decide (order.instrumentId = s.instrumentId)) (listedOrders b accountId)
      rw [listedOrders, List.length_insertionSort] at hle
      exact hlen.trans hle
    · exact (List.mem_insertionSort _).mp (List.mem_filter.mp hmem).1
  simp only [SymbolState.resolveState, latestOrderForSide_eq hdated, bind, Except.bind, pure,
    Except.pure]
  rfl

section Loop

variable (isoformat : Time → String)
  (resolution : SymbolTradeStateEntity → SymbolTradeStateResolution) (nowUtc : Time)

def upToDate (s : SymbolTradeStateEntity) : Prop :=
  s.state = (resolution s).state ∧ s.positionQuantity = (resolution s).positionQuantity

instance : DecidablePred (upToDate resolution) := fun s => by
  unfold upToDate
  infer_instance

def settled (s : SymbolTradeStateEntity) : SymbolTradeStateEntity :=
  if upToDate resolution s then s else s.resolved isoformat (resolution s) nowUtc

@[simp] theorem settled_key (s : SymbolTradeStateEntity) :
    (settled isoformat resolution nowUtc s).key = s.key := by
  unfold settled
  split <;> rfl

theorem settled_state (s : SymbolTradeStateEntity) :
    (settled isoformat resolution nowUtc s).state = (resolution s).state := by
  unfold settled
  split
  next h => exact h.1
  next => rfl

theorem settled_positionQuantity (s : SymbolTradeStateEntity) :
    (settled isoformat resolution nowUtc s).positionQuantity =
      (resolution s).positionQuantity := by
  unfold settled
  split
  next h => exact h.2
  next => rfl

variable {resolution nowUtc}
variable {latestPositions : List PositionSnapshotEntity} {orders : List OrderRequestEntity}

theorem reconcileStates_cons
    (hresolve : ∀ s, resolveState latestPositions orders nowUtc s = .ok (resolution s))
    (s : SymbolTradeStateEntity) (states : List SymbolTradeStateEntity) (updatedCount : Nat)
    (t : SymbolTradeStates) (hs : s ∈ t.items) :
    ∃ t', reconcileStates isoformat latestPositions orders nowUtc (s :: states) updatedCount t =
        reconcileStates isoformat latestPositions orders nowUtc states
          (updatedCount + if upToDate resolution s then 0 else 1) t' ∧
      t'.items = t.items.map fun y =>
        if y.key = s.key then settled isoformat resolution nowUtc s else y := by
  have hstep : reconcileStates isoformat latestPositions orders nowUtc (s :: states)
      updatedCount t = if upToDate resolution s then
        reconcileStates isoformat latestPositions orders nowUtc states updatedCount t
      else reconcileStates isoformat latestPositions orders nowUtc states (updatedCount + 1)
        (t.upsert (s.resolved isoformat (resolution s) nowUtc)) := by
    rw [reconcileStates, hresolve]
    rfl
  rw [hstep]
  by_cases hdate : upToDate resolution s
  · refine ⟨t, ?_, ?_⟩
    · rw [if_pos hdate, if_pos hdate, Nat.add_zero]
    · -- the entry with the key of the state is the state itself
      rw [settled, if_pos hdate]
      have hsame : ∀ y ∈ t.items, (if y.key = s.key then s else y) = y := by
        intro y hy
        split
        next hkey => exact (eq_of_key t.nodup hy hs hkey).symm
        next => rfl
      rw [List.map_congr_left hsame, List.map_id']
  · refine ⟨t.upsert (s.resolved isoformat (resolution s) nowUtc), ?_, ?_⟩
    · rw [if_neg hdate, if_neg hdate]
    · rw [settled, if_neg hdate]
      have hmem : s.key ∈ t.items.map SymbolTradeStateEntity.key := List.mem_map_of_mem hs
      exact upsert_eq_map t.nodup hmem

theorem reconcileStates_eq
    (hresolve : ∀ s, resolveState latestPositions orders nowUtc s = .ok (resolution s))
    (states : List SymbolTradeStateEntity)
    (hstates : (states.map SymbolTradeStateEntity.key).Nodup) (updatedCount : Nat)
    (t : SymbolTradeStates) (hin : ∀ s ∈ states, s ∈ t.items) :
    ∃ t', reconcileStates isoformat latestPositions orders nowUtc states updatedCount t =
        (.ok (updatedCount + states.countP fun s => ¬ upToDate resolution s), t') ∧
      t'.items = t.items.map fun s =>
        if s.key ∈ states.map SymbolTradeStateEntity.key then
          settled isoformat resolution nowUtc s
        else s := by
  induction states generalizing updatedCount t with
  | nil => exact ⟨t, by simp [reconcileStates], by simp⟩
  | cons s states ih =>
    rw [List.map_cons, List.nodup_cons] at hstates
    have hs := hin s List.mem_cons_self
    obtain ⟨t₁, hstep, hitems₁⟩ :=
      reconcileStates_cons isoformat hresolve s states updatedCount t hs
    have hin₁ : ∀ y ∈ states, y ∈ t₁.items := by
      intro y hy
      have hkey : y.key ≠ s.key := by
        intro hkey
        apply hstates.1
        rw [← hkey]
        exact List.mem_map_of_mem hy
      rw [hitems₁]
      apply List.mem_map.mpr
      exact ⟨y, hin y (List.mem_cons_of_mem s hy), if_neg hkey⟩
    obtain ⟨t', hrest, hitems⟩ :=
      ih hstates.2 (updatedCount + if upToDate resolution s then 0 else 1) t₁ hin₁
    refine ⟨t', ?_, ?_⟩
    · rw [hstep, hrest, List.countP_cons]
      congr 2
      by_cases hdate : upToDate resolution s
      · simp [hdate]
      · simp [hdate]
        omega
    · rw [hitems, hitems₁, List.map_map]
      apply List.map_congr_left
      intro y hy
      by_cases hkey : y.key = s.key
      · rw [eq_of_key t.nodup hy hs hkey]
        simp only [Function.comp_apply, if_true, settled_key, if_neg hstates.1, List.map_cons,
          List.mem_cons, true_or]
      · simp [hkey]

end Loop

section Account

variable {isoformat : Time → String}

theorem resolutionOf_settled (s : SymbolTradeStateEntity) :
    resolutionOf b accountId nowUtc (settled isoformat (resolutionOf b accountId nowUtc) nowUtc s) =
      resolutionOf b accountId nowUtc s := by
  unfold settled
  split
  next => rfl
  next => exact resolve_again s _ _ _ nowUtc isoformat

theorem upToDate_settled (s : SymbolTradeStateEntity) :
    upToDate (resolutionOf b accountId nowUtc)
      (settled isoformat (resolutionOf b accountId nowUtc) nowUtc s) := by
  unfold upToDate
  rw [resolutionOf_settled, settled_state, settled_positionQuantity]
  exact ⟨rfl, rfl⟩

theorem reconcile_eq (isoformat : Time → String) (nowUtc : Time) (h : OrdersRead b accountId)
    (t : SymbolTradeStates) :
    ∃ t', reconcileAccountSymbolTradeStates isoformat b accountId nowUtc t =
        (.ok ((t.listByAccount accountId).countP fun s =>
          ¬ upToDate (resolutionOf b accountId nowUtc) s), t') ∧
      t'.items = t.items.map fun s =>
        if s.accountId = accountId then
          settled isoformat (resolutionOf b accountId nowUtc) nowUtc s
        else s := by
  have hloop : reconcileAccountSymbolTradeStates isoformat b accountId nowUtc t =
      reconcileStates isoformat (b.listLatestByAccount accountId) (listedOrders b accountId) nowUtc
        (t.listByAccount accountId) 0 t := by
    unfold reconcileAccountSymbolTradeStates
    cases hstates : t.listByAccount accountId with
    | nil => rfl
    | cons s states => simp [h.listOrders]
  have hnodup : ((t.listByAccount accountId).map SymbolTradeStateEntity.key).Nodup :=
    t.nodup.sublist (List.filter_sublist.map _)
  obtain ⟨t', hrun, hitems⟩ := reconcileStates_eq isoformat h.resolveState
    (t.listByAccount accountId) hnodup 0 t fun s hs => (List.mem_filter.mp hs).1
  refine ⟨t', ?_, ?_⟩
  · rw [hloop, hrun, Nat.zero_add]
  · rw [hitems]
    apply List.map_congr_left
    intro s hs
    have hlisted : s.key ∈ (t.listByAccount accountId).map SymbolTradeStateEntity.key ↔
        s.accountId = accountId := by
      constructor
      · intro hkey
        obtain ⟨y, hy, hys⟩ := List.mem_map.mp hkey
        have haccount := of_decide_eq_true (List.mem_filter.mp hy).2
        exact (congrArg Prod.fst hys).symm.trans haccount
      · intro haccount
        apply List.mem_map_of_mem
        exact List.mem_filter.mpr ⟨hs, decide_eq_true haccount⟩
    simp only [hlisted]

theorem mem_reconciled {t t' : SymbolTradeStates}
    (hitems : t'.items = t.items.map fun s =>
      if s.accountId = accountId then
        settled isoformat (resolutionOf b accountId nowUtc) nowUtc s
      else s) {s' : SymbolTradeStateEntity} (hs' : s' ∈ t'.listByAccount accountId) :
    ∃ s ∈ t.listByAccount accountId,
      s' = settled isoformat (resolutionOf b accountId nowUtc) nowUtc s := by
  obtain ⟨hmem, haccount'⟩ := List.mem_filter.mp hs'
  rw [hitems] at hmem
  obtain ⟨s, hs, rfl⟩ := List.mem_map.mp hmem
  by_cases haccount : s.accountId = accountId
  · rw [if_pos haccount]
    exact ⟨s, List.mem_filter.mpr ⟨hs, decide_eq_true haccount⟩, rfl⟩
  · rw [if_neg haccount] at haccount'
    exact absurd (of_decide_eq_true haccount') haccount

theorem reconcile_again (h : OrdersRead b accountId) {t t' : SymbolTradeStates}
    (hitems : t'.items = t.items.map fun s =>
      if s.accountId = accountId then
        settled isoformat (resolutionOf b accountId nowUtc) nowUtc s
      else s) :
    reconcileAccountSymbolTradeStates isoformat b accountId nowUtc t' = (.ok 0, t') := by
  obtain ⟨t'', hrun, hitems'⟩ := reconcile_eq isoformat nowUtc h t'
  have hdate : ∀ s ∈ t'.listByAccount accountId,
      upToDate (resolutionOf b accountId nowUtc) s := by
    intro s' hs'
    obtain ⟨s, -, rfl⟩ := mem_reconciled hitems hs'
    exact upToDate_settled s
  rw [hrun]
  congr 1
  · rw [List.countP_eq_zero.mpr]
    intro s hs
    simp [hdate s hs]
  · apply SymbolTradeStates.ext
    rw [hitems']
    have hkeep : ∀ s ∈ t'.items, (if s.accountId = accountId then
        settled isoformat (resolutionOf b accountId nowUtc) nowUtc s else s) = s := by
      intro s hs
      split
      next haccount =>
        rw [settled, if_pos (hdate s (List.mem_filter.mpr ⟨hs, decide_eq_true haccount⟩))]
      next => rfl
    rw [List.map_congr_left hkeep, List.map_id']

end Account

/-- The pending state of a symbol after the run, by its position and its latest orders. -/
structure PendingByLatest (b : Books) (accountId : UUID) (s : SymbolTradeStateEntity) : Prop where
  sell : sellPending s ↔ 0 < heldQuantity b accountId s.instrumentId ∧
    isActive (latestOrder b accountId s.instrumentId .sell) = true
  entry : entryPending s ↔ ¬ 0 < heldQuantity b accountId s.instrumentId ∧
    isActive (latestOrder b accountId s.instrumentId .buy) = true

theorem pendingByLatest_settled {isoformat : Time → String} (s : SymbolTradeStateEntity) :
    PendingByLatest b accountId
      (settled isoformat (resolutionOf b accountId nowUtc) nowUtc s) := by
  have hinstrument : (settled isoformat (resolutionOf b accountId nowUtc) nowUtc s).instrumentId =
      s.instrumentId := congrArg Prod.snd (settled_key isoformat _ nowUtc s)
  constructor
  · rw [sellPending, settled_state, hinstrument]
    exact resolve_sellPending s _ _ _ nowUtc
  · rw [entryPending, settled_state, hinstrument]
    exact resolve_entryPending s _ _ _ nowUtc

/-- The quantities are those of the latest snapshots. -/
def HoldsLatest (b : Books) (accountId : UUID) : Prop :=
  ∀ instrumentId, ∃ snapshot, IsLatest (·.snapshotAt) (·.instrumentId = instrumentId)
      (b.positionsOf accountId) snapshot ∧
    heldQuantity b accountId instrumentId = (snapshot.map (·.quantity)).getD 0

theorem holdsLatest_postgres (hdb : b.backend = .postgres) : HoldsLatest b accountId := by
  intro instrumentId
  refine ⟨_, Books.isLatest_byInstrument (b.positionsOf accountId) instrumentId, ?_⟩
  unfold heldQuantity positionQuantity Books.listLatestByAccount
  rw [hdb]
  dsimp only
  rw [find?_reverse nodup_firsts, find?_firsts]

/-- The run ends, and where it leaves the table it finds nothing more to do. -/
theorem reconcile_settles (isoformat : Time → String) (b : Books) (accountId : UUID)
    (nowUtc : Time) (h : OrdersRead b accountId) (t : SymbolTradeStates) :
    ∃ updatedCount t', reconcileAccountSymbolTradeStates isoformat b accountId nowUtc t =
        (.ok updatedCount, t') ∧
      (∀ s ∈ t'.listByAccount accountId, PendingByLatest b accountId s) ∧
      (b.backend = .postgres → HoldsLatest b accountId) ∧
      reconcileAccountSymbolTradeStates isoformat b accountId nowUtc t' = (.ok 0, t') := by
  obtain ⟨t', hrun, hitems⟩ := reconcile_eq isoformat nowUtc h t
  refine ⟨_, t', hrun, ?_, holdsLatest_postgres, reconcile_again h hitems⟩
  intro s' hs'
  obtain ⟨s, -, rfl⟩ := mem_reconciled hitems hs'
  exact pendingByLatest_settled s

/-- Some order of the side is open, whichever is the latest. -/
def someActive (b : Books) (accountId instrumentId : UUID) (side : OrderSide) : Prop :=
  ∃ order ∈ b.trades.accountOrders accountId, order.instrumentId = instrumentId ∧
    order.side = side ∧ order.status ∈ activeOrderStatuses

theorem someActive_of_latest {instrumentId : UUID} {side : OrderSide}
    (h : isActive (latestOrder b accountId instrumentId side) = true) :
    someActive b accountId instrumentId side := by
  have hlatest := latestOf_isLatest
    ((listedOrders b accountId).filter (·.instrumentId = instrumentId)) side
  unfold latestOrder at h
  cases horder : latestOf ((listedOrders b accountId).filter (·.instrumentId = instrumentId))
      side with
  | none =>
    rw [horder] at h
    cases h
  | some order =>
    rw [horder] at h hlatest
    obtain ⟨hmem, hside, -⟩ := hlatest
    obtain ⟨hlisted, hinstrument⟩ := List.mem_filter.mp hmem
    exact ⟨order, (List.mem_insertionSort _).mp hlisted, of_decide_eq_true hinstrument, hside,
      of_decide_eq_true h⟩

/-- Every open order of the symbol is seen exactly where the latest order of the side that counts
is open whenever one of them is. -/
theorem pendingByLatest_everyOpen_iff {s : SymbolTradeStateEntity}
    (h : PendingByLatest b accountId s) :
    ((sellPending s ↔ 0 < heldQuantity b accountId s.instrumentId ∧
        someActive b accountId s.instrumentId .sell) ∧
      (entryPending s ↔ ¬ 0 < heldQuantity b accountId s.instrumentId ∧
        someActive b accountId s.instrumentId .buy)) ↔
      (0 < heldQuantity b accountId s.instrumentId →
        someActive b accountId s.instrumentId .sell →
        isActive (latestOrder b accountId s.instrumentId .sell) = true) ∧
      (¬ 0 < heldQuantity b accountId s.instrumentId →
        someActive b accountId s.instrumentId .buy →
        isActive (latestOrder b accountId s.instrumentId .buy) = true) := by
  rw [h.sell, h.entry]
  have hsell : isActive (latestOrder b accountId s.instrumentId .sell) = true →
      someActive b accountId s.instrumentId .sell := someActive_of_latest
  have hbuy : isActive (latestOrder b accountId s.instrumentId .buy) = true →
      someActive b accountId s.instrumentId .buy := someActive_of_latest
  constructor
  · rintro ⟨hs, he⟩
    exact ⟨fun hheld hopen => (hs.mpr ⟨hheld, hopen⟩).2,
      fun hflat hopen => (he.mpr ⟨hflat, hopen⟩).2⟩
  · rintro ⟨hs, he⟩
    exact ⟨and_congr_right fun hheld => ⟨hsell, hs hheld⟩,
      and_congr_right fun hflat => ⟨hbuy, he hflat⟩⟩

def sellOrder (orderRequestId : UUID) (status : OrderStatus) (updatedAt : Time) :
    OrderRequestEntity where
  orderRequestId := orderRequestId
  accountId := 1
  instrumentId := 2
  clientOrderId := ""
  idempotencyKey := ""
  correlationId := ""
  side := .sell
  orderType := .market
  requestedQuantity := 5
  status := status
  createdAt := some 0
  updatedAt := some updatedAt

/-- Ten shares, a SELL of five that is open, and a later one that was rejected. -/
def openAndRejected : Books where
  backend := .postgres
  trades :=
    { orders := [sellOrder 3 .submitted 10, sellOrder 4 .rejected 20]
      brokerOrders := []
      fillEvents := []
      orders_nodup := by decide
      brokerOrders_nodup := List.nodup_nil
      fillEvents_nodup := List.nodup_nil }
  positionSnapshots :=
    [{ accountId := 1, instrumentId := 2, quantity := 10, averagePrice := 100
       marketPrice := none, snapshotAt := 30 }]
  cashBalanceSnapshots := []

def reducing : SymbolTradeStates where
  items := [{ accountId := 1, instrumentId := 2, state := "reduce_pending"
              positionQuantity := 10 }]
  nodup := by decide

theorem openAndRejected_settles : ∃ updatedCount t',
    reconcileAccountSymbolTradeStates (fun _ => "") openAndRejected 1 40 reducing =
        (.ok updatedCount, t') ∧
      (∀ s ∈ t'.listByAccount 1, PendingByLatest openAndRejected 1 s) ∧
      (openAndRejected.backend = .postgres → HoldsLatest openAndRejected 1) ∧
      reconcileAccountSymbolTradeStates (fun _ => "") openAndRejected 1 40 t' = (.ok 0, t') := by
  apply reconcile_settles
  constructor
  · decide
  · decide

/-- The open SELL is not seen, and the symbol is held as if none were. -/
theorem openAndRejected_unseen :
    ((reconcileAccountSymbolTradeStates (fun _ => "") openAndRejected 1 40 reducing).2.items.map
        (·.state)) = ["held_active"] ∧
      0 < heldQuantity openAndRejected 1 2 ∧ someActive openAndRejected 1 2 .sell := by
  refine ⟨by decide +kernel, by decide +kernel, sellOrder 3 .submitted 10, ?_⟩
  decide +kernel

end AgentTrading.SymbolState
