import AgentTrading.Backfill.Completion
import AgentTrading.EventLoop.Delivery
import AgentTrading.Fills.Conservation

/-! Three writers of one list of fills: the notifications of the event loop, the polls and the
backfills, call after call in any order. -/
namespace AgentTrading.Backfill
open Domain RealizedPnl Fills Repositories Library

/-- The event loop's state with the fills of all writers, the cumulative states of the polls, and
what the broker has executed. -/
structure FillLog where
  loop : EventLoop.State
  cumulatives : UUID × String × String → Option KisFillCumulativeStateEntity
  executed : UUID → ℚ

namespace FillLog

variable (s : FillLog)

def fills : List FillEventEntity := s.loop.fillEvents

/-- The rows that `_sync_fills` finds for its broker order. -/
def book (ctx : OrderContext) : FillBook where
  cumulative := ctx.brokerNativeOrderId.bind fun nativeId =>
    s.cumulatives (ctx.accountId, ctx.brokerName, nativeId)
  fillEvents := listByBrokerOrder s.fills ctx.brokerOrderId
  nextId := s.loop.store.nextId

/-- A poll with appending enabled. -/
def poll (ctx : OrderContext) (call : FillCall) : FillLog :=
  let book := s.book ctx
  let after := (syncFills { ctx with appendEnabled := true } call book).2
  { s with
    loop := { s.loop with
      store := { s.loop.store with nextId := after.nextId }
      fillEvents := s.fills ++ after.fillEvents.drop book.fillEvents.length }
    cumulatives :=
      match ctx.brokerNativeOrderId with
      | none => s.cumulatives
      | some nativeId =>
        Function.update s.cumulatives (ctx.accountId, ctx.brokerName, nativeId)
          after.cumulative }

/-- A plan is built and applied. -/
def backfill (n : Numerics) (reads : BackfillReads) (call : BackfillCall) (stamps : Stamps)
    (ledger : Ledger) : FillLog :=
  match buildBackfillPlan reads call with
  | .error _ => s
  | .ok plan =>
    { s with
      loop := { s.loop with
        fillEvents := (applyBackfillPlan n stamps plan s.fills ledger).2.1 } }

end FillLog

inductive WriterEvent where
  | executes (brokerOrderId : UUID) (quantity : ℚ)
  | notified (now : Time) (choices : Nat → Orders.Choice) (data : EventLoop.FillNotification)
  | gapFillStarted (symbol : String)
  | gapFillFinished (symbol : String) (now : Time) (fills : List EventLoop.ReportedFill)
  | polled (ctx : OrderContext) (call : FillCall)
  | backfilled (reads : BackfillReads) (call : BackfillCall) (stamps : Stamps) (ledger : Ledger)

def writeStep (service : Bool) (n : Numerics) (s : FillLog) : WriterEvent → FillLog
  | .executes brokerOrderId quantity =>
    { s with
      executed :=
        Function.update s.executed brokerOrderId (s.executed brokerOrderId + quantity) }
  | .notified now choices data =>
    { s with loop := EventLoop.handleFillNotification service now choices data s.loop }
  | .gapFillStarted symbol => { s with loop := EventLoop.startGapFill symbol s.loop }
  | .gapFillFinished symbol now fills =>
    { s with loop := EventLoop.finishGapFill symbol now fills s.loop }
  | .polled ctx call => s.poll ctx call
  | .backfilled reads call stamps ledger => s.backfill n reads call stamps ledger

/-- The broker reports no more than it has executed, to the polls and in the snapshots. -/
def Truthful (s : FillLog) : WriterEvent → Prop
  | .executes _ quantity => 0 ≤ quantity
  | .polled ctx call => ∀ observations, call.observations = .ok observations →
      ∀ observation ∈ observations, observation.fillQuantity ≤ s.executed ctx.brokerOrderId
  | .backfilled reads call _ _ => ∀ order ∈ reads.windowOrders call, ∀ brokerOrderId,
      reads.brokerOrderIdOf order = some brokerOrderId →
      ∀ snap ∈ reads.orderedSnapshots order, snap.filledQuantity ≤ s.executed brokerOrderId
  | _ => True

/-! Which increments of a poll are stored already. -/

instance : DecidableRel SameKey := fun a b =>
  inferInstanceAs (Decidable
    ((a.brokerFillId.isSome ∧ a.brokerFillId = b.brokerFillId) ∨ (a.brokerFillId = none ∧ a = b)))

/-- The quantity of the increments whose key is that of a stored fill or of one before them. -/
def passedOver : List Increment → List Increment → ℚ
  | _, [] => 0
  | stored, increment :: rest =>
    if ∃ fill ∈ stored, SameKey increment fill then increment.fillQuantity + passedOver stored rest
    else passedOver (stored ++ [increment]) rest

/-- What is stored beyond the polls' cumulative quantity, or beyond the plan's increments, is
recognised by the writer that comes to it. -/
def Recognises (brokerOrderId : UUID) (s : FillLog) : WriterEvent → Prop
  | .polled ctx call => ctx.brokerOrderId = brokerOrderId →
      storedQuantity s.fills brokerOrderId ≤ lastQuantity (s.book ctx).cumulative +
        passedOver (s.book ctx).stored
          (incrementsOf { ctx with appendEnabled := true } (s.book ctx) call)
  | .backfilled reads call _ _ => ∀ plan, buildBackfillPlan reads call = .ok plan →
      plan.eligible = true →
      (∃ order ∈ reads.windowOrders call, reads.brokerOrderIdOf order = some brokerOrderId) →
      storedQuantity s.fills brokerOrderId ≤
        foundQuantity s.fills brokerOrderId [] plan.syntheticFills
  | _ => True

theorem isDuplicate_iff {existing : List FillEventEntity} {fill : FillEvent} :
    isDuplicate existing fill = true ↔
      ∃ stored ∈ existing.map storedIncrement, SameKey fill.increment stored := by
  constructor
  · intro h
    obtain ⟨e, he, hkey⟩ := isDuplicate_sameKey h
    exact ⟨storedIncrement e, List.mem_map_of_mem he, hkey⟩
  · rintro ⟨stored, hstored, hkey⟩
    obtain ⟨e, he, rfl⟩ := List.mem_map.mp hstored
    unfold isDuplicate
    cases hid : fillIdOf fill.brokerFillId with
    | some id =>
      simp only [SameKey, FillEvent.increment, hid, storedIncrement, Option.isSome_some, true_and,
        reduceCtorEq, false_and, or_false] at hkey
      simp only [List.any_eq_true, decide_eq_true_eq]
      exact ⟨e, he, hkey.symm⟩
    | none =>
      simp only [SameKey, FillEvent.increment, hid, storedIncrement, Option.isSome_none,
        Bool.false_eq_true, false_and, true_and, false_or, Increment.mk.injEq] at hkey
      simp only [List.any_eq_true, decide_eq_true_eq]
      exact ⟨e, he, hkey.2.2.2.symm, hkey.1.symm, hkey.2.1.symm, hkey.2.2.1.symm⟩

theorem passedOver_le {increments : List Increment} (stored : List Increment)
    (hpos : ∀ i ∈ increments, 0 < i.fillQuantity) :
    passedOver stored increments ≤ quantity increments := by
  induction increments generalizing stored with
  | nil => exact le_rfl
  | cons i increments ih =>
    have hi := hpos i List.mem_cons_self
    have hrest : ∀ j ∈ increments, 0 < j.fillQuantity :=
      fun j hj => hpos j (List.mem_cons_of_mem _ hj)
    rw [passedOver, quantity_cons]
    split
    · linarith [ih stored hrest]
    · linarith [ih (stored ++ [i]) hrest]

theorem appendFills_quantity (ctx : OrderContext)
    (policy : Option (FillEvent → Except PyError FeeTax)) {fills : List FillEvent}
    (hpos : ∀ i ∈ fills.map FillEvent.increment, 0 < i.fillQuantity) (synced skipped : Nat)
    (book : FillBook) :
    quantity (appendFills ctx policy fills synced skipped book).2.stored +
        passedOver book.stored (fills.map FillEvent.increment) ≤
      quantity book.stored + quantity (fills.map FillEvent.increment) := by
  induction fills generalizing synced skipped book with
  | nil => exact le_rfl
  | cons fill fills ih =>
    have hrest : ∀ i ∈ fills.map FillEvent.increment, 0 < i.fillQuantity :=
      fun i hi => hpos i (List.mem_cons_of_mem _ hi)
    rw [appendFills]
    by_cases hduplicate : isDuplicate book.fillEvents fill = true
    · have hkey : ∃ stored ∈ book.stored, SameKey fill.increment stored :=
        isDuplicate_iff.mp hduplicate
      rw [if_pos hduplicate, List.map_cons, passedOver, if_pos hkey, quantity_cons]
      linarith [ih hrest synced (skipped + 1) book]
    · have hkey : ¬ ∃ stored ∈ book.stored, SameKey fill.increment stored :=
        fun h => hduplicate (isDuplicate_iff.mpr h)
      rw [if_neg hduplicate]
      cases hfee : feeTaxOf policy fill with
      | error e =>
        have hle := passedOver_le book.stored hpos
        simp only
        linarith
      | ok feeTax =>
        have hstored : (addFill book (entityOf ctx book.nextId fill feeTax)).stored =
            book.stored ++ [fill.increment] := by
          simp [FillBook.stored, addFill, storedIncrement_entityOf]
        have hnext := ih hrest (synced + 1) skipped
          (addFill book (entityOf ctx book.nextId fill feeTax))
        rw [hstored, quantity_append, quantity_cons, quantity_nil] at hnext
        rw [List.map_cons, passedOver, if_neg hkey, quantity_cons]
        simp only
        linarith

theorem appendFills_extends (ctx : OrderContext)
    (policy : Option (FillEvent → Except PyError FeeTax)) (fills : List FillEvent)
    (synced skipped : Nat) (book : FillBook) :
    ∃ added, (appendFills ctx policy fills synced skipped book).2.fillEvents =
        book.fillEvents ++ added ∧
      ∀ fill ∈ added, fill.brokerOrderId = ctx.brokerOrderId := by
  induction fills generalizing synced skipped book with
  | nil => exact ⟨[], by simp [appendFills], by simp⟩
  | cons fill fills ih =>
    rw [appendFills]
    split
    · exact ih synced (skipped + 1) book
    · split
      · exact ⟨[], by simp, by simp⟩
      next feeTax _ =>
        obtain ⟨added, hadded, howner⟩ := ih (synced + 1) skipped
          (addFill book (entityOf ctx book.nextId fill feeTax))
        refine ⟨entityOf ctx book.nextId fill feeTax :: added, ?_, ?_⟩
        · rw [hadded]
          simp [addFill]
        · simpa [entityOf] using howner

theorem syncFills_extends (ctx : OrderContext) (call : FillCall) (book : FillBook) :
    ∃ added, (syncFills ctx call book).2.fillEvents = book.fillEvents ++ added ∧
      ∀ fill ∈ added, fill.brokerOrderId = ctx.brokerOrderId := by
  have hnone : ∃ added, book.fillEvents = book.fillEvents ++ added ∧
      ∀ fill ∈ added, fill.brokerOrderId = ctx.brokerOrderId := ⟨[], by simp, by simp⟩
  unfold syncFills
  split
  · exact hnone
  · exact hnone
  next observations _ _ =>
    simp only
    split
    · exact hnone
    · have hadded := appendFills_extends ctx call.feeTaxPolicy
        (interpret ctx call.now book observations).candidates 0 0 { book with
          cumulative := (interpret ctx call.now book observations).cumulative
          nextId := (interpret ctx call.now book observations).nextId }
      split
      next heq =>
        rw [heq] at hadded
        exact hadded
      next heq =>
        rw [heq] at hadded
        exact hadded

theorem quantity_stored (book : FillBook) :
    quantity book.stored = (book.fillEvents.map (·.fillQuantity)).sum := by
  simp [quantity, FillBook.stored, storedIncrement, Function.comp_def]

theorem poll_extends (s : FillLog) (ctx : OrderContext) (call : FillCall) :
    ∃ added, (syncFills { ctx with appendEnabled := true } call (s.book ctx)).2.fillEvents =
        (s.book ctx).fillEvents ++ added ∧
      (s.poll ctx call).fills = s.fills ++ added ∧
      ∀ fill ∈ added, fill.brokerOrderId = ctx.brokerOrderId := by
  obtain ⟨added, hadded, howner⟩ :=
    syncFills_extends { ctx with appendEnabled := true } call (s.book ctx)
  refine ⟨added, hadded, ?_, howner⟩
  simp only [FillLog.poll, FillLog.fills, hadded, List.drop_left]

theorem poll_other (s : FillLog) {ctx : OrderContext} (call : FillCall) {brokerOrderId : UUID}
    (hother : ctx.brokerOrderId ≠ brokerOrderId) :
    storedQuantity (s.poll ctx call).fills brokerOrderId =
      storedQuantity s.fills brokerOrderId := by
  obtain ⟨added, -, hfills, howner⟩ := poll_extends s ctx call
  have hnone : listByBrokerOrder added brokerOrderId = [] := by
    apply List.filter_eq_nil_iff.mpr
    intro fill hfill
    rw [howner fill hfill]
    simp [hother]
  rw [hfills]
  simp only [listByBrokerOrder] at hnone
  simp only [storedQuantity, listByBrokerOrder, List.filter_append, hnone, List.append_nil]

theorem poll_own (s : FillLog) (ctx : OrderContext) (call : FillCall) :
    storedQuantity (s.poll ctx call).fills ctx.brokerOrderId =
      quantity (syncStep { ctx with appendEnabled := true } (s.book ctx) call).stored := by
  obtain ⟨added, hadded, hfills, howner⟩ := poll_extends s ctx call
  have hall : listByBrokerOrder added ctx.brokerOrderId = added := by
    apply List.filter_eq_self.mpr
    intro fill hfill
    rw [howner fill hfill]
    simp
  rw [hfills, quantity_stored, syncStep, hadded]
  simp only [listByBrokerOrder] at hall
  simp only [storedQuantity, listByBrokerOrder, List.filter_append, hall, FillLog.book]

theorem interpret_observed (ctx : OrderContext) (now : Time) (book : FillBook)
    {observations : List FillEvent} {bound : ℚ}
    (hbound : ∀ observation ∈ observations, observation.fillQuantity ≤ bound) :
    (interpret ctx now book observations).candidates = [] ∨
      lastQuantity (interpret ctx now book observations).cumulative ≤ bound := by
  unfold interpret
  cases ctx.brokerNativeOrderId with
  | none => exact Or.inl rfl
  | some nativeId =>
    have hloop : ∀ acc : Interpretation,
        (acc.candidates = [] ∨ lastQuantity acc.cumulative ≤ bound) →
        (observations.foldl (interpretOne ctx nativeId now) acc).candidates = [] ∨
          lastQuantity (observations.foldl (interpretOne ctx nativeId now) acc).cumulative ≤
            bound := by
      induction observations with
      | nil => exact fun acc h => h
      | cons observation observations ih =>
        intro acc hacc
        rw [List.foldl_cons]
        apply ih fun other hother => hbound other (List.mem_cons_of_mem _ hother)
        have hobserved := hbound observation List.mem_cons_self
        have hcases := resolveIncrementalFill_cases acc.cumulative {
          accountId := ctx.accountId
          brokerName := ctx.brokerName
          brokerNativeOrderId := nativeId
          currentCumulativeQuantity := observation.fillQuantity
          currentAveragePrice := some observation.fillPrice } now acc.nextId
        unfold interpretOne
        generalize resolveIncrementalFill _ _ _ _ = resolved at hcases ⊢
        obtain ⟨decision, state⟩ := resolved
        rcases hcases with ⟨hdecision, -, hstate⟩ | ⟨reason, hdecision, hstate⟩ |
          ⟨price, hdecision, -, hstate⟩
        · dsimp only at hdecision hstate
          subst hdecision
          rw [← hstate] at hacc
          exact hacc
        · dsimp only at hdecision hstate
          subst hdecision hstate
          cases reason with
          | negativeDelta => exact hacc
          | unpriceableDelta => exact hacc
        · dsimp only at hdecision hstate
          subst hdecision
          have hle : lastQuantity state ≤ bound := by
            rw [hstate]
            exact hobserved
          simp only
          split
          · exact Or.inr hle
          · exact Or.inr hle
    exact hloop _ (Or.inl rfl)

theorem syncStep_observed (ctx : OrderContext) (book : FillBook) (call : FillCall) {bound : ℚ}
    (hbound : ∀ observations, call.observations = .ok observations →
      ∀ observation ∈ observations, observation.fillQuantity ≤ bound) :
    incrementsOf ctx book call = [] ∨ lastQuantity (syncStep ctx book call).cumulative ≤ bound := by
  unfold incrementsOf syncStep
  cases hobs : call.observations with
  | error e => exact Or.inl rfl
  | ok observations =>
    obtain ⟨-, hcumulative, -⟩ := syncFills_observations ctx hobs book
    rw [hcumulative]
    rcases interpret_observed ctx call.now book (hbound observations hobs) with hnone | hle
    · simp [hnone]
    · exact Or.inr hle

theorem syncStep_quantity {ctx : OrderContext} (henabled : ctx.appendEnabled = true)
    (book : FillBook) (call : FillCall) :
    quantity (syncStep ctx book call).stored + passedOver book.stored (incrementsOf ctx book call) ≤
      quantity book.stored + quantity (incrementsOf ctx book call) := by
  have hpos := (syncStep_advances henabled book call).1
  unfold syncStep incrementsOf at *
  cases hobs : call.observations with
  | error e =>
    simp only [syncFills, hobs]
    exact le_rfl
  | ok observations =>
    obtain ⟨hstored, -, -⟩ := syncFills_observations ctx hobs book
    rw [hobs] at hpos
    rw [hstored]
    exact appendFills_quantity ctx call.feeTaxPolicy hpos 0 0 { book with
      cumulative := (interpret ctx call.now book observations).cumulative
      nextId := (interpret ctx call.now book observations).nextId }

/-- A poll that recognises what is stored beyond its cumulative quantity stores no more than
the broker reports. -/
theorem poll_bounded (s : FillLog) (ctx : OrderContext) (call : FillCall)
    (htruthful : Truthful s (.polled ctx call))
    (hrecognises : Recognises ctx.brokerOrderId s (.polled ctx call))
    (hbefore : storedQuantity s.fills ctx.brokerOrderId ≤ s.executed ctx.brokerOrderId) :
    storedQuantity (s.poll ctx call).fills ctx.brokerOrderId ≤ s.executed ctx.brokerOrderId := by
  have henabled : ({ ctx with appendEnabled := true } : OrderContext).appendEnabled = true := rfl
  have hquantity := syncStep_quantity henabled (s.book ctx) call
  have hadvances := (syncStep_advances henabled (s.book ctx) call).2
  have hstored : quantity (s.book ctx).stored = storedQuantity s.fills ctx.brokerOrderId :=
    quantity_stored (s.book ctx)
  have hknown := hrecognises rfl
  rw [poll_own]
  rw [hstored] at hquantity
  rcases syncStep_observed { ctx with appendEnabled := true } (s.book ctx) call htruthful with
    hnone | hle
  · rw [hnone] at hquantity
    simp only [passedOver, quantity_nil] at hquantity
    linarith
  · linarith

/-- No order bears the identifier. -/
def Unborne (brokerOrderId : UUID) (s : Store) : Prop :=
  ∀ id order, s.orders id = some order → order.orderRequestId ≠ brokerOrderId

theorem exec_unborne {brokerOrderId : UUID} (c : Orders.Choice) (op : Orders.Op) (s : Store)
    (hs : Unborne brokerOrderId s) : Unborne brokerOrderId (Orders.exec c op s).2 := by
  intro id order horder
  rcases Orders.exec_order c op s id with hsame | ⟨_, _, _, _, _, current, -, hcurrent, hwritten⟩
  · rw [hsame] at horder
    exact hs id order horder
  · rw [hwritten] at horder
    cases horder
    exact hs id current hcurrent

theorem handle_unborne {brokerOrderId : UUID} (service : Bool) (now : Time)
    (choices : Nat → Orders.Choice) (data : EventLoop.FillNotification) (s : EventLoop.State)
    (hs : Unborne brokerOrderId s.store) :
    Unborne brokerOrderId
        (EventLoop.handleFillNotification service now choices data s).store ∧
      listByBrokerOrder (EventLoop.handleFillNotification service now choices data s).fillEvents
        brokerOrderId = listByBrokerOrder s.fillEvents brokerOrderId := by
  unfold EventLoop.handleFillNotification
  split
  · exact ⟨hs, rfl⟩
  split
  · exact ⟨hs, rfl⟩
  simp only
  split
  · exact ⟨hs, rfl⟩
  unfold EventLoop.applyFill
  split
  · exact ⟨hs, rfl⟩
  next order hresolved =>
    have hother : order.orderRequestId ≠ brokerOrderId := by
      unfold EventLoop.State.resolveOrderFromNativeId at hresolved
      split at hresolved
      · cases hresolved
      · exact hs _ order hresolved
    split
    next quantity price _ _ =>
      have hfills : listByBrokerOrder (s.fillEvents ++
          [EventLoop.fillEventOf now data order quantity price (s.store.nextId + 1)])
          brokerOrderId = listByBrokerOrder s.fillEvents brokerOrderId := by
        simp [listByBrokerOrder_append, EventLoop.fillEventOf, hother]
      unfold EventLoop.routeStateChange
      split
      · exact ⟨hs, hfills⟩
      split
      · exact ⟨hs, hfills⟩
      · constructor
        · have honly := Orders.transitionTo_only service order
            (EventLoop.resolveFillStatus quantity ‹ℚ›) (EventLoop.fillTransition data)
          apply honly.run_keeps (I := fun x => Unborne brokerOrderId x.2)
            (Program.drawing Orders.exec)
          · exact fun op x _ hx => exec_unborne _ op _ hx
          · exact hs
        · exact hfills
    next => exact ⟨hs, rfl⟩

theorem risesFrom_order {order : OrderRequestEntity} {priorQty : ℚ} {priorPrice : Option ℚ}
    {snapshots : List BrokerFillSnapshotEntity} :
    ∀ rise ∈ risesFrom order priorQty priorPrice snapshots, rise.order = order := by
  induction snapshots generalizing priorQty priorPrice with
  | nil => simp [risesFrom]
  | cons snap rest ih =>
    rw [risesFrom]
    split
    · intro rise hrise
      rcases List.mem_cons.mp hrise with rfl | hrise
      · rfl
      · exact ih rise hrise
    · exact ih

theorem risesFrom_total (order : OrderRequestEntity) (priorQty : ℚ) (priorPrice : Option ℚ)
    (snapshots : List BrokerFillSnapshotEntity) :
    priorQty + ((risesFrom order priorQty priorPrice snapshots).map Rise.quantity).sum =
        priorQty ∨
      ∃ snap ∈ snapshots,
        priorQty + ((risesFrom order priorQty priorPrice snapshots).map Rise.quantity).sum =
          snap.filledQuantity := by
  induction snapshots generalizing priorQty priorPrice with
  | nil => simp [risesFrom]
  | cons snap rest ih =>
    rw [risesFrom]
    split
    · have hsum : ∀ rises : List Rise, priorQty + ((⟨order, snap, priorQty, priorPrice⟩ ::
          rises).map Rise.quantity).sum = snap.filledQuantity + (rises.map Rise.quantity).sum := by
        intro rises
        simp only [List.map_cons, List.sum_cons, Rise.quantity]
        ring
      rw [hsum]
      right
      rcases ih snap.filledQuantity (some snap.fillPrice) with hfinal | ⟨later, hlater, hfinal⟩
      · exact ⟨snap, List.mem_cons_self, hfinal⟩
      · exact ⟨later, List.mem_cons_of_mem _ hlater, hfinal⟩
    · apply (ih priorQty priorPrice).imp_right
      rintro ⟨later, hlater, hfinal⟩
      exact ⟨later, List.mem_cons_of_mem _ hlater, hfinal⟩

theorem foundQuantity_other (fills : List FillEventEntity) {brokerOrderId : UUID}
    {candidates : List SyntheticFillCandidate}
    (h : ∀ candidate ∈ candidates, candidate.brokerOrderId ≠ brokerOrderId)
    (before : List SyntheticFillCandidate) :
    foundQuantity fills brokerOrderId before candidates = 0 := by
  induction candidates generalizing before with
  | nil => rfl
  | cons candidate candidates ih =>
    have hfirst := h candidate List.mem_cons_self
    rw [foundQuantity, if_neg fun hc => hfirst hc.1,
      ih fun other hother => h other (List.mem_cons_of_mem _ hother), add_zero]

section
variable {reads : BackfillReads} {call : BackfillCall} {plan : BackfillPlan}

theorem candidates_window (hplan : buildBackfillPlan reads call = .ok plan)
    (heligible : plan.eligible = true) :
    ∀ candidate ∈ plan.syntheticFills, ∃ order ∈ reads.windowOrders call,
      reads.brokerOrderIdOf order = some candidate.brokerOrderId := by
  intro candidate hmem
  obtain ⟨rise, hrise, hmatches⟩ :=
    Library.paired_left (eligible_matches hplan heligible) candidate hmem
  obtain ⟨order, horder, hfrom⟩ := List.mem_flatMap.mp hrise
  refine ⟨order, horder, ?_⟩
  rw [← hmatches.brokerOrder, risesFrom_order rise hfrom]

theorem Decoded.seen {order : OrderRequestEntity} {detail : OrderBackfillDetail}
    (h : Decoded reads call order detail) :
    order.requestedQuantity = 0 ∨
      ∃ snap ∈ reads.orderedSnapshots order, order.requestedQuantity = snap.filledQuantity := by
  have hquantities : ∀ {candidates : List SyntheticFillCandidate} {rises : List Rise},
      List.Forall₂ (Matches reads.brokerOrderIdOf reads.feeTaxTerms call) candidates rises →
      candidates.map (·.fillQuantity) = rises.map Rise.quantity := by
    intro candidates rises hmatched
    induction hmatched with
    | nil => rfl
    | cons hmatches _ ih => rw [List.map_cons, List.map_cons, hmatches.quantity, ih]
  have htotal := risesFrom_total order 0 none (reads.orderedSnapshots order)
  rw [zero_add, ← hquantities h.matched, h.total] at htotal
  exact htotal

theorem plannedQuantity_le (hplan : buildBackfillPlan reads call = .ok plan)
    (heligible : plan.eligible = true) {executed : UUID → ℚ} {brokerOrderId : UUID}
    (hpositive : 0 ≤ executed brokerOrderId) {order : OrderRequestEntity}
    (horder : order ∈ reads.windowOrders call)
    (hid : reads.brokerOrderIdOf order = some brokerOrderId)
    (hseen : ∀ snap ∈ reads.orderedSnapshots order,
      snap.filledQuantity ≤ executed brokerOrderId) :
    plannedQuantity brokerOrderId plan.syntheticFills ≤ executed brokerOrderId := by
  rw [plannedQuantity_window hplan heligible horder hid]
  obtain ⟨first, others, anchor, details, horders, -, hdecoded, -⟩ :=
    eligible_parts hplan heligible
  rw [horders] at horder
  obtain ⟨detail, -, hdetail⟩ := Library.paired_left hdecoded order horder
  rcases hdetail.seen with hzero | ⟨snap, hsnap, hrequested⟩
  · rw [hzero]
    exact hpositive
  · rw [hrequested]
    exact hseen snap hsnap

end

theorem backfill_bounded (n : Numerics) (s : FillLog) (reads : BackfillReads) (call : BackfillCall)
    (stamps : Stamps) (ledger : Ledger) {brokerOrderId : UUID}
    (htruthful : Truthful s (.backfilled reads call stamps ledger))
    (hrecognises : Recognises brokerOrderId s (.backfilled reads call stamps ledger))
    (hpositive : 0 ≤ s.executed brokerOrderId)
    (hbefore : storedQuantity s.fills brokerOrderId ≤ s.executed brokerOrderId) :
    storedQuantity (s.backfill n reads call stamps ledger).fills brokerOrderId ≤
      s.executed brokerOrderId := by
  unfold FillLog.backfill
  split
  · exact hbefore
  next plan hplan =>
    simp only [FillLog.fills]
    cases heligible : plan.eligible with
    | false =>
      rw [idle_ineligible heligible]
      exact hbefore
    | true =>
      rw [applyBackfillPlan_fills heligible]
      have hstored := applyCandidates_storedQuantity stamps s.loop.fillEvents plan.syntheticFills
        brokerOrderId
      by_cases hwindow : ∃ order ∈ reads.windowOrders call,
          reads.brokerOrderIdOf order = some brokerOrderId
      · have hfound : storedQuantity s.loop.fillEvents brokerOrderId ≤ _ :=
          hrecognises plan hplan heligible hwindow
        obtain ⟨order, horder, hid⟩ := hwindow
        have hplanned := plannedQuantity_le hplan heligible hpositive horder hid
          (htruthful order horder brokerOrderId hid)
        simp only [FillLog.fills] at hfound
        linarith
      · have hother : ∀ candidate ∈ plan.syntheticFills,
            candidate.brokerOrderId ≠ brokerOrderId := by
          intro candidate hmem heq
          obtain ⟨order, horder, hid⟩ := candidates_window hplan heligible candidate hmem
          rw [heq] at hid
          exact hwindow ⟨order, horder, hid⟩
        rw [foundQuantity_other _ hother, plannedQuantity_other hother] at hstored
        simp only [FillLog.fills] at hbefore
        linarith

/-- What every step keeps. -/
structure Bounded (brokerOrderId : UUID) (s : FillLog) : Prop where
  unborne : Unborne brokerOrderId s.loop.store
  positive : 0 ≤ s.executed brokerOrderId
  stored : storedQuantity s.fills brokerOrderId ≤ s.executed brokerOrderId

theorem writeStep_bounded (service : Bool) (n : Numerics) {brokerOrderId : UUID} (s : FillLog)
    (event : WriterEvent) (hs : Bounded brokerOrderId s)
    (hevent : Truthful s event ∧ Recognises brokerOrderId s event) :
    Bounded brokerOrderId (writeStep service n s event) := by
  obtain ⟨htruthful, hrecognises⟩ := hevent
  cases event with
  | executes own quantity =>
    have hgrows : s.executed brokerOrderId ≤
        Function.update s.executed own (s.executed own + quantity) brokerOrderId := by
      rw [Function.update_apply]
      split
      next heq =>
        subst heq
        exact le_add_of_nonneg_right htruthful
      next => exact le_rfl
    exact ⟨hs.unborne, hs.positive.trans hgrows, hs.stored.trans hgrows⟩
  | notified now choices data =>
    obtain ⟨hunborne, hfills⟩ := handle_unborne service now choices data s.loop hs.unborne
    refine ⟨hunborne, hs.positive, ?_⟩
    have hstored := hs.stored
    simp only [storedQuantity, FillLog.fills] at hstored
    simp only [writeStep, storedQuantity, FillLog.fills, hfills]
    exact hstored
  | gapFillStarted symbol => exact ⟨hs.unborne, hs.positive, hs.stored⟩
  | gapFillFinished symbol now fills =>
    obtain ⟨-, horders, hfills, -⟩ :=
      EventLoop.finishGapFill_onlyEvents symbol now fills s.loop
    refine ⟨?_, hs.positive, ?_⟩
    · intro id order horder
      rw [writeStep, horders] at horder
      exact hs.unborne id order horder
    · simp only [writeStep, FillLog.fills, hfills]
      exact hs.stored
  | polled ctx call =>
    refine ⟨hs.unborne, hs.positive, ?_⟩
    by_cases hown : ctx.brokerOrderId = brokerOrderId
    · subst hown
      exact poll_bounded s ctx call htruthful hrecognises hs.stored
    · exact (poll_other s call hown).le.trans hs.stored
  | backfilled reads call stamps ledger =>
    have hstored := backfill_bounded n s reads call stamps ledger htruthful hrecognises hs.positive
      hs.stored
    have hsame : (s.backfill n reads call stamps ledger).executed = s.executed ∧
        (s.backfill n reads call stamps ledger).loop.store = s.loop.store := by
      unfold FillLog.backfill
      split
      · exact ⟨rfl, rfl⟩
      · exact ⟨rfl, rfl⟩
    constructor
    · rw [writeStep, hsame.2]
      exact hs.unborne
    · rw [writeStep, hsame.1]
      exact hs.positive
    · rw [writeStep, hsame.1]
      exact hstored

/-- While each writer recognises what the others have stored, no more is stored of an order than
the broker has executed. -/
theorem stored_le_executed (service : Bool) (n : Numerics) (brokerOrderId : UUID) (s : FillLog)
    (hunborne : Unborne brokerOrderId s.loop.store)
    (hstart : listByBrokerOrder s.fills brokerOrderId = [])
    (hpositive : 0 ≤ s.executed brokerOrderId) (events : List WriterEvent)
    (htruthful : Runs.Meets (writeStep service n) Truthful s events)
    (hrecognises : Runs.Meets (writeStep service n) (Recognises brokerOrderId) s events) :
    Runs.Throughout (writeStep service n)
      (fun t => storedQuantity t.fills brokerOrderId ≤ t.executed brokerOrderId) s events := by
  have hbounded : Bounded brokerOrderId s := by
    refine ⟨hunborne, hpositive, ?_⟩
    simp only [storedQuantity, hstart, List.map_nil, List.sum_nil]
    exact hpositive
  have hmeets := (Runs.meets_and (writeStep service n) Truthful (Recognises brokerOrderId) s
    events).mpr ⟨htruthful, hrecognises⟩
  exact Runs.run_throughout (writeStep service n) (writeStep_bounded service n)
    (fun _ h => h.stored) hbounded hmeets

def untouched : FillLog where
  loop := { store := { Store.holding boughtTen 0 with brokerOrders := [brokerOrderOf 1] } }
  cumulatives := fun _ => none
  executed := fun _ => 0

def pollOfEleven : OrderContext where
  brokerOrderId := 11
  brokerName := "koreainvestment"
  brokerNativeOrderId := some "n-1"
  accountId := 1

/-- Ten at 120, reported at 500. -/
def tenReported : FillCall where
  observations := .ok [{
    brokerName := .koreaInvestment
    brokerOrderId := "n-1"
    symbol := "005930"
    side := .buy
    fillQuantity := 10
    fillPrice := 120
    fillTimestamp := 500 }]
  now := 600
  feeTaxPolicy := none

/-- Ten bought, seen as given. -/
def tenSeen (snapshots : List BrokerFillSnapshotEntity) : BackfillReads where
  orders := [boughtTen]
  positions := []
  brokerFillSnapshots := fun _ => snapshots
  brokerOrders := [brokerOrderOf 1]
  feeTaxTerms := none
  orders_nodup := List.nodup_singleton _
  brokerOrders_nodup := List.nodup_singleton _

def tenAtOnce : BackfillReads := tenSeen [{ seenAt 1 10 120 with fillTimestamp := some 500 }]

def fourThenTen : BackfillReads := tenSeen [seenAt 1 4 100, seenAt 3 10 120]

def tenNotified : EventLoop.FillNotification where
  brokerOrderId := "n-1"
  stockCode := "005930"
  filledQty := "10"
  filledPrice := "120"
  filledTime := "093000"
  orderQty := "10"

theorem untouched_unborne : Unborne 11 untouched.loop.store := by
  intro id order horder
  simp only [untouched, Store.holding, Function.update_apply] at horder
  split at horder
  · cases horder
    decide
  · cases horder

theorem tenSeen_truthful {snapshots : List BrokerFillSnapshotEntity} {s : FillLog}
    (hexecuted : s.executed 11 = 10) (hseen : ∀ snap ∈ snapshots, snap.filledQuantity ≤ 10) :
    Truthful s (.backfilled (tenSeen snapshots) sinceStart countedStamps Ledger.empty) := by
  intro order horder brokerOrderId hid snap hsnap
  obtain ⟨brokerOrder, hmem, hown, -⟩ := brokerOrderIdOf_mem hid
  have hsame : brokerOrder = brokerOrderOf 1 := List.mem_singleton.mp hmem
  rw [← hown, hsame]
  have hbound := hseen snap ((List.mem_insertionSort _).mp hsnap)
  exact hbound.trans hexecuted.ge

theorem tenReported_truthful {s : FillLog} (hexecuted : s.executed 11 = 10) :
    Truthful s (.polled pollOfEleven tenReported) := by
  intro observations hobservations observation hmem
  cases hobservations
  rw [List.mem_singleton.mp hmem]
  exact hexecuted.ge

/-- The plan stores the ten, the poll passes them over, and the notification stores them under
the order. -/
theorem stored_le_executed_tenAtOnce :
    Runs.Throughout (writeStep true exact)
      (fun t => storedQuantity t.fills 11 ≤ t.executed 11) untouched
      [.executes 11 10, .backfilled tenAtOnce sinceStart countedStamps Ledger.empty,
        .polled pollOfEleven tenReported,
          .notified 0 (fun _ => Orders.idleChoice) tenNotified] := by
  apply stored_le_executed true exact 11 untouched untouched_unborne rfl le_rfl
  · refine ⟨by simp [Truthful], ?_, ?_, trivial, trivial⟩
    · exact tenSeen_truthful (by decide +kernel) (by decide +kernel)
    · exact tenReported_truthful (by decide +kernel)
  · refine ⟨trivial, ?_, ?_, trivial, trivial⟩
    · intro plan hplan _ _
      have hbuilt : buildBackfillPlan tenAtOnce sinceStart = .ok (planOf tenAtOnce) :=
        planOf_built (by decide +kernel)
      obtain rfl : planOf tenAtOnce = plan := Except.ok.inj (hbuilt.symm.trans hplan)
      decide +kernel
    · intro _
      decide +kernel

/-- The poll stores ten at once, and the plan adds the four and the six. -/
theorem polled_and_backfilled :
    let events : List WriterEvent := [.executes 11 10, .polled pollOfEleven tenReported,
      .backfilled fourThenTen sinceStart countedStamps Ledger.empty]
    Runs.Meets (writeStep true exact) Truthful untouched events ∧
      (Runs.run (writeStep true exact) untouched events).executed 11 = 10 ∧
      storedQuantity (Runs.run (writeStep true exact) untouched events).fills 11 = 20 := by
  refine ⟨⟨by simp [Truthful], ?_, ?_, trivial⟩, by decide +kernel, by decide +kernel⟩
  · exact tenReported_truthful (by decide +kernel)
  · exact tenSeen_truthful (by decide +kernel) (by decide +kernel)

end AgentTrading.Backfill
