import AgentTrading.Library.Reached
import AgentTrading.Orders.RowWrites
import AgentTrading.Orders.StaleCopies
import AgentTrading.Reconciliation.RunVerdict

/-! When a processed run moves an order to expired: the broker did not know the order, and the
fallback looks at its age and at the hour. It looks neither at the order's status nor at the half
of the hour. -/
namespace AgentTrading.Reconciliation.Worker
open Domain Repositories Library Orders

/-- The choices still to come, and the state. -/
abbrev World := (Nat → Choice) × State

/-- The statuses over which the expiry of an order is written. -/
def Writable (manager : Option Bool) (status : OrderStatus) : Prop :=
  manager = none ∨ status ∉ terminalStates

/-- The order is stored as expired, and no other order has changed. -/
def ExpiredRow (id : UUID) (s t : State) : Prop :=
  ∃ row, t.store.orders = Function.update s.store.orders id (some row) ∧ row.status = .expired

section

variable {order : OrderRequestEntity} {id : UUID} {manager : Option Bool} {s : State}

theorem transitionToAuthoritative_solo (service : Bool) (runId : UUID) (message : Option String)
    {s : Store} (hstored : s.orders order.orderRequestId = some order)
    (hopen : order.status ∉ terminalStates) :
    OrdersSolo (fun r t => (∃ after, r = .ok after) ∧
        Replaced order.orderRequestId order .expired s t)
      (transitionToAuthoritative service order .expired runId message 3) s := by
  have hvalid : validateAuthoritativeTarget .expired = .ok () := if_pos (by decide)
  unfold transitionToAuthoritative
  simp only [hvalid, Orders.orRaise, Program.bind_eq, Program.ret_bind, if_neg hopen]
  apply transitionToCore_solo
  intro after submittedAt t hafter horders
  have hstored' : t.orders order.orderRequestId = some order := by rw [horders, hstored]
  apply Program.Alone.bind
    (retryUpdate_current order _ submittedAt hstored' rfl hafter.id hafter.version hafter.status)
  · intro written u h
    apply alone_bookkeeping_bind (recordTransition_only ..) (fun _ _ _ _ => trivial)
    · intro _ v _ hv
      apply Program.alone_ret
      exact ⟨⟨written, rfl⟩, (h.2.of_orders horders).same hv.orders⟩
    · intro e t he
      cases he
  · rintro e u ⟨he, -⟩
    cases he

theorem expire_writes (runId : UUID) (hid : order.orderRequestId = id)
    (hstored : s.store.orders id = some order) (hwritable : Writable manager order.status) :
    Solo (fun _ t => ExpiredRow id s t)
      (ReconciliationRunProcessor.expire id order runId manager) s := by
  cases manager with
  | some service =>
    have hopen : order.status ∉ terminalStates := hwritable.resolve_left (by simp)
    rw [← hid] at hstored ⊢
    apply Program.Alone.bind
      (solo_ofOrders (transitionToAuthoritative_solo service runId _ hstored hopen))
    · rintro after t ⟨store, ⟨-, row, horders, -, hstatus, -⟩, rfl⟩
      apply Program.alone_ret
      exact ⟨row, horders, hstatus⟩
    · rintro e t ⟨store, ⟨⟨after, hafter⟩, -⟩, -⟩
      cases hafter
  | none =>
    apply solo_call
    intro c
    have hrow : (tick c.orders s.store).orders id = some order := hstored
    simp only [exec, Orders.exec, respond, Store.updateStatus_current hrow rfl, orRaise]
    exact Program.alone_ret ⟨_, rfl, rfl⟩

theorem expire_refused (runId : UUID) (hrefused : ¬Writable manager order.status) :
    Solo (fun _ t => t.store.orders = s.store.orders)
      (ReconciliationRunProcessor.expire id order runId manager) s := by
  have hvalid : validateAuthoritativeTarget .expired = .ok () := if_pos (by decide)
  unfold Writable at hrefused
  rw [not_or, not_not] at hrefused
  cases manager with
  | none => exact absurd rfl hrefused.1
  | some service =>
    unfold ReconciliationRunProcessor.expire transitionToAuthoritative
    simp only [hvalid, Orders.orRaise, Program.bind_eq, Program.ret_bind, if_pos hrefused.2]
    exact Program.alone_raise rfl

end

/-- The fallback writes the order when it looks at it at `now`. -/
structure Lapses (proc : ReconciliationRunProcessor) (now : Time) (order : OrderRequestEntity) :
    Prop where
  due : ∃ createdAt, order.createdAt = some createdAt ∧ mayExpire now createdAt = true
  writable : Writable proc.orderManager order.status

/-- The fallback on what it has found. -/
def lapse (proc : ReconciliationRunProcessor) (id runId : UUID) (now : Time) :
    Option OrderRequestEntity → Code Bool
  | none => return false
  | some order =>
    match order.createdAt with
    | none => return false
    | some createdAt =>
      if mayExpire now createdAt then do
        let done ← (ReconciliationRunProcessor.expire id order runId proc.orderManager).outcome
        return done.isOk
      else return false

section

variable (proc : ReconciliationRunProcessor) (id runId : UUID) (cs : Nat → Choice) (s : State)

/-- The state after the fallback has read the clock and the order. -/
def looked : State := { s with store := tick (cs 1).orders (tick (cs 0).orders s.store) }

theorem tryExpiredFallback_run :
    (proc.tryExpiredFallback id runId).run (Program.drawing exec) (cs, s) =
      (lapse proc id runId (s.store.clock + (cs 0).orders.elapsed) (s.store.orders id)).run
        (Program.drawing exec) (fun n => cs (n + 2), looked cs s) := by
  unfold ReconciliationRunProcessor.tryExpiredFallback
  simp only [Program.bind_eq, Program.perform_bind, Program.run_call]
  have hfound : (Program.drawing exec (.orders (.ordersGet id))
      (Program.drawing exec (.orders .now) (cs, s)).2).1 = s.store.orders id := rfl
  rw [hfound]
  cases s.store.orders id with
  | none => rfl
  | some order => cases hcreated : order.createdAt <;> simp only [lapse, hcreated] <;> rfl

omit cs s
variable {proc id runId} {now : Time} {s : State}

theorem lapse_writes {order : OrderRequestEntity} (runId : UUID)
    (hid : order.orderRequestId = id) (hstored : s.store.orders id = some order)
    (h : Lapses proc now order) :
    Solo (fun _ t => ExpiredRow id s t) (lapse proc id runId now (some order)) s := by
  obtain ⟨createdAt, hcreated, hdue⟩ := h.due
  have hexpire := expire_writes runId hid hstored h.writable
  simp only [lapse, hcreated, hdue, if_true]
  apply Program.Alone.bind hexpire.outcome
  · rintro done t ⟨-, -, hrow⟩
    exact Program.alone_ret hrow
  · rintro e t ⟨_, he, -⟩
    cases he

theorem lapse_leaves (id runId : UUID) (s : State) {found : Option OrderRequestEntity}
    (h : ∀ order, found = some order → ¬Lapses proc now order) :
    Solo (fun _ t => t.store.orders = s.store.orders) (lapse proc id runId now found) s := by
  cases found with
  | none => exact Program.alone_ret rfl
  | some order =>
    cases hcreated : order.createdAt with
    | none =>
      simp only [lapse, hcreated]
      exact Program.alone_ret rfl
    | some createdAt =>
      simp only [lapse, hcreated]
      split
      next hdue =>
        have hrefused : ¬Writable proc.orderManager order.status :=
          fun hwritable => h order rfl ⟨⟨createdAt, hcreated, hdue⟩, hwritable⟩
        apply Program.Alone.bind (expire_refused runId hrefused).outcome
        · rintro done t ⟨-, -, horders⟩
          exact Program.alone_ret horders
        · rintro e t ⟨_, he, -⟩
          cases he
      next => exact Program.alone_ret rfl

end

/-- The run turns to a link, in a world. -/
structure Visit where
  adapter : Adapter
  accountRef : String
  link : ReconciliationOrderLinkEntity
  before : World

namespace Visit

def code (proc : ReconciliationRunProcessor) (runId : UUID) (v : Visit) : Code LinkOutcome :=
  proc.processOrderLink runId v.adapter v.accountRef v.link

def id (v : Visit) : UUID := v.link.orderRequestId

/-- The order as it is stored at the visit. -/
def order (v : Visit) : Option OrderRequestEntity := v.before.2.store.orders v.id

/-- What the broker answers to the inquiry, the second operation of the visit. -/
def reply (v : Visit) : Except PyError OrderStatus := (v.before.1 1).unknownState

/-- What the clock shows to the fallback, the third operation of the visit. -/
def now (v : Visit) : Time := v.before.2.store.clock + (v.before.1 2).orders.elapsed

/-- The world after the visit. -/
def after (proc : ReconciliationRunProcessor) (runId : UUID) (v : Visit) : World :=
  ((v.code proc runId).run (Program.drawing exec) v.before).2

/-- The broker is asked about the order. -/
structure Asks (proc : ReconciliationRunProcessor) (v : Visit) : Prop where
  live : proc.dryRun = false
  brokerOrder : ∃ item ∈ v.before.2.store.brokerOrders, item.orderRequestId = v.id

/-- The visit writes the order. -/
structure Fires (proc : ReconciliationRunProcessor) (v : Visit) : Prop where
  asks : v.Asks proc
  unknown : v.reply = .ok .reconcileRequired
  lapses : ∃ order, v.order = some order ∧ Lapses proc v.now order

variable {proc : ReconciliationRunProcessor} {runId : UUID} {v : Visit}

/-- The state in which the fallback starts. -/
def asked (v : Visit) : State :=
  { v.before.2 with inquiries := v.before.2.inquiries ++ [⟨v.id, v.reply⟩] }

theorem after_asks (h : v.Asks proc) :
    v.after proc runId =
      (((match v.reply with
        | .ok status => proc.reflect v.id runId status
        | .error e => .raise e).handle fun _ => .ret .failed).run (Program.drawing exec)
          (fun n => v.before.1 (n + 2), v.asked)).2 := by
  obtain ⟨item, hitem, hid⟩ := h.brokerOrder
  unfold after code ReconciliationRunProcessor.processOrderLink
  simp only [Program.bind_eq, Program.perform_bind, Program.run_call]
  have hread : (Program.drawing exec (.brokerOrdersListByOrderRequest v.link.orderRequestId)
      v.before).1 = v.before.2.store.brokerOrders.filter
        fun item => item.orderRequestId = v.link.orderRequestId := rfl
  rw [hread]
  cases hlist : v.before.2.store.brokerOrders.filter
      fun item => item.orderRequestId = v.link.orderRequestId with
  | nil =>
    have hmem : item ∈ v.before.2.store.brokerOrders.filter
        fun item => item.orderRequestId = v.link.orderRequestId :=
      List.mem_filter.mpr ⟨hitem, decide_eq_true hid⟩
    rw [hlist] at hmem
    contradiction
  | cons brokerOrder rest =>
    simp only [h.live, Bool.false_eq_true, if_false]
    unfold ReconciliationRunProcessor.inquire
    simp only [Program.bind_eq, Program.perform_bind, Program.run_call, Program.call_handle]
    have hreply : (Program.drawing exec (.adapterResolveUnknownState v.adapter v.accountRef
        v.link.orderRequestId brokerOrder.brokerNativeOrderId)
        (Program.drawing exec (.brokerOrdersListByOrderRequest v.link.orderRequestId)
          v.before).2).1 = v.reply := rfl
    rw [hreply]
    cases v.reply <;> rfl

theorem after_not_asks (h : ¬v.Asks proc) :
    (v.after proc runId).2.store.orders = v.before.2.store.orders := by
  unfold after code ReconciliationRunProcessor.processOrderLink
  simp only [Program.bind_eq, Program.perform_bind, Program.run_call]
  have hread : (Program.drawing exec (.brokerOrdersListByOrderRequest v.link.orderRequestId)
      v.before).1 = v.before.2.store.brokerOrders.filter
        fun item => item.orderRequestId = v.link.orderRequestId := rfl
  rw [hread]
  cases hlist : v.before.2.store.brokerOrders.filter
      fun item => item.orderRequestId = v.link.orderRequestId with
  | nil => rfl
  | cons brokerOrder rest =>
    have hmem : brokerOrder ∈ v.before.2.store.brokerOrders.filter
        fun item => item.orderRequestId = v.link.orderRequestId := by
      rw [hlist]
      exact List.mem_cons_self
    obtain ⟨hitem, hid⟩ := List.mem_filter.mp hmem
    cases hdry : proc.dryRun with
    | true => rfl
    | false => exact absurd ⟨hdry, brokerOrder, hitem, of_decide_eq_true hid⟩ h

theorem after_unknown (h : v.Asks proc) (hreply : v.reply = .ok .reconcileRequired) :
    (v.after proc runId).2 =
      ((lapse proc v.id runId v.now v.order).run (Program.drawing exec)
        (fun n => v.before.1 (n + 4),
          looked (fun n => v.before.1 (n + 2)) v.asked)).2.2 := by
  have hunresolved : OrderStatus.reconcileRequired ∉ resolvedStatuses := by decide
  rw [after_asks h, hreply]
  unfold ReconciliationRunProcessor.reflect
  dsimp only
  rw [if_neg hunresolved, if_pos rfl]
  simp only [Program.bind_eq, Program.run_handle, Program.run_bind, tryExpiredFallback_run]
  have hnow : v.asked.store.clock + (v.before.1 (0 + 2)).orders.elapsed = v.now := rfl
  have horder : v.asked.store.orders v.id = v.order := rfl
  rw [hnow, horder]
  generalize (lapse proc v.id runId v.now v.order).run (Program.drawing exec) _ = outcome
  obtain ⟨result, w⟩ := outcome
  cases result <;> rfl

theorem after_writes (runId : UUID) (hkeyed : Keyed v.before.2.store) (h : v.Fires proc) :
    ExpiredRow v.id v.before.2 (v.after proc runId).2 := by
  obtain ⟨order, horder, hlapses⟩ := h.lapses
  have hid : order.orderRequestId = v.id := hkeyed v.id order horder
  rw [after_unknown h.asks h.unknown, horder]
  have hstored : (looked (fun n => v.before.1 (n + 2)) v.asked).store.orders v.id = some order :=
    horder
  exact (lapse_writes runId hid hstored hlapses).run fun _ _ _ => trivial

theorem after_leaves (h : ¬v.Fires proc) :
    (v.after proc runId).2.store.orders = v.before.2.store.orders := by
  by_cases hasks : v.Asks proc
  · by_cases hreply : v.reply = .ok .reconcileRequired
    · have hleaves := lapse_leaves v.id runId (looked (fun n => v.before.1 (n + 2)) v.asked)
        fun order horder hlapses => h ⟨hasks, hreply, order, horder, hlapses⟩
      rw [after_unknown hasks hreply]
      exact hleaves.run fun _ _ _ => trivial
    · rw [after_asks hasks]
      cases hanswer : v.reply with
      | error e => rfl
      | ok status =>
        have hstatus : status ≠ .reconcileRequired := by
          rintro rfl
          exact hreply hanswer
        unfold ReconciliationRunProcessor.reflect
        dsimp only
        rw [if_neg hstatus]
        split
        · rfl
        · rfl
  · exact after_not_asks hasks

end Visit

/-- The run turns to the link of the visit, in the world of the visit. -/
def Visited (proc : ReconciliationRunProcessor) (run : ReconciliationRunEntity) (start : World)
    (v : Visit) : Prop :=
  ∃ next, Program.Reached (Program.drawing exec) (proc.processRun run) start
    ((v.code proc run.reconciliationRunId).bind next) v.before

/-- An order that was not stored as expired is. -/
structure MovesToExpired (id : UUID) (s t : State) : Prop where
  before : ∃ row, s.store.orders id = some row ∧ row.status ≠ .expired
  after : Expired t.store id

theorem MovesToExpired.changes {id : UUID} {s t : State} (h : MovesToExpired id s t) :
    t.store.orders id ≠ s.store.orders id := by
  intro hsame
  obtain ⟨row, hrow, hne⟩ := h.before
  obtain ⟨row', hrow', hstatus⟩ := h.after
  rw [hsame, hrow] at hrow'
  obtain rfl := Option.some.inj hrow'
  exact hne hstatus

/-- Operations that leave the orders alone. -/
def Op.LeavesOrders : Op → Prop
  | .orders op => op.KeepsStatus
  | _ => True

theorem orders_of_leaves {p : Code α} {Q : Except PyError α → Prop}
    (hp : p.Only Op.LeavesOrders Q) (w : World) :
    (p.run (Program.drawing exec) w).2.2.store.orders = w.2.store.orders := by
  apply Program.Only.run_keeps (I := fun t : World => t.2.store.orders = w.2.store.orders) _ hp
  · intro op t hop ht
    rw [← ht]
    cases op with
    | orders op => exact (exec_keepsStatus _ op _ hop).1
    | _ => rfl
  · rfl

theorem leaves_of_preparing {p : Code α} {Q : Except PyError α → Prop}
    (hp : p.Only Op.Preparing Q) : p.Only Op.LeavesOrders Q := by
  apply hp.mono
  · intro op hop
    cases op with
    | orders op => exact hop.elim
    | _ => trivial
  · exact fun _ h => h

theorem markRun_leaves (run : ReconciliationRunEntity) (status : RunStatus) :
    (ReconciliationRunProcessor.markRun run status).Only Op.LeavesOrders fun _ => True :=
  ⟨trivial, fun _ => ⟨trivial, fun _ => ⟨trivial, fun _ => trivial⟩⟩⟩

theorem markRunResolved_leaves (run : ReconciliationRunEntity) :
    (ReconciliationRunProcessor.markRunResolved run).Only Op.LeavesOrders fun _ => True := by
  have hmark : (markResolved run.reconciliationRunId).Only Orders.Op.KeepsStatus
      fun _ => True := by
    refine ⟨trivial, fun found => ?_⟩
    cases found with
    | none => trivial
    | some row => exact ⟨trivial, fun _ => ⟨trivial, fun _ => trivial⟩⟩
  have hlift : (ofOrders (markResolved run.reconciliationRunId)).Only Op.LeavesOrders
      fun _ => True := hmark.lift fun _ h => h
  exact hlift.outcome.bind (fun _ _ => trivial) fun _ _ => trivial

theorem closeRun_leaves (proc : ReconciliationRunProcessor) (run : ReconciliationRunEntity)
    (processed : Nat) (tally : Tally) :
    (proc.closeRun run processed tally).Only Op.LeavesOrders fun _ => True := by
  have hunless : ∀ p : Code Unit, p.Only Op.LeavesOrders (fun _ => True) →
      (proc.unlessDryRun p).Only Op.LeavesOrders fun _ => True := by
    intro p hp
    unfold ReconciliationRunProcessor.unlessDryRun
    split
    · trivial
    · exact hp
  unfold ReconciliationRunProcessor.closeRun
  split
  · exact (hunless _ (markRunResolved_leaves run)).bind (fun _ _ => trivial) fun _ _ => trivial
  · split
    · exact (hunless _ (markRun_leaves run _)).bind (fun _ _ => trivial) fun _ _ => trivial
    · exact (hunless _ (markRun_leaves run _)).bind (fun _ _ => trivial) fun _ _ => trivial

section

variable {proc : ReconciliationRunProcessor} {runId id : UUID}

theorem Visit.moves_or_same (proc : ReconciliationRunProcessor) (runId : UUID) (v : Visit)
    (hkeyed : Keyed v.before.2.store) (id : UUID)
    (hbefore : ∃ row, v.before.2.store.orders id = some row ∧ row.status ≠ .expired) :
    (v.id = id ∧ MovesToExpired id v.before.2 (v.after proc runId).2) ∨
      (v.after proc runId).2.store.orders id = v.before.2.store.orders id := by
  by_cases hfires : v.Fires proc
  · obtain ⟨row, horders, hstatus⟩ := after_writes runId hkeyed hfires
    by_cases hid : id = v.id
    · subst hid
      refine Or.inl ⟨rfl, hbefore, row, ?_, hstatus⟩
      rw [horders, Function.update_self]
    · right
      rw [horders, Function.update_of_ne hid]
  · right
    rw [after_leaves hfires]

theorem worker_keyed (c : Choice) (op : Op) {s : State} (hs : Keyed s.store) :
    Keyed (exec c op s).2.store := by
  cases op with
  | orders op => exact exec_keyed c.orders op hs
  | _ => exact hs

theorem keyed_run (p : Code α) {w : World} (hw : Keyed w.2.store) :
    Keyed (p.run (Program.drawing exec) w).2.2.store :=
  (Program.only_true p).run_keeps (I := fun t : World => Keyed t.2.store) _
    (fun op t _ ht => worker_keyed (t.1 0) op ht) w hw

theorem processLinks_moves (adapter : Adapter) (accountRef : String)
    (links : List ReconciliationOrderLinkEntity) (tally : Tally)
    (f : Tally → Code ProcessingResult) {w : World} (hkeyed : Keyed w.2.store)
    (h : MovesToExpired id w.2
      ((proc.processLinks runId adapter accountRef links tally).run (Program.drawing exec) w).2.2) :
    ∃ v : Visit, ∃ next, v.id = id ∧ MovesToExpired id v.before.2 (v.after proc runId).2 ∧
      Program.Reached (Program.drawing exec)
        ((proc.processLinks runId adapter accountRef links tally).bind f) w
        ((v.code proc runId).bind next) v.before := by
  induction links generalizing tally w with
  | nil => exact absurd rfl h.changes
  | cons link links ih =>
    let v : Visit := ⟨adapter, accountRef, link, w⟩
    let rest (outcome : LinkOutcome) : Code Tally :=
      proc.processLinks runId adapter accountRef links (tally.count link outcome)
    have hcode : proc.processLinks runId adapter accountRef (link :: links) tally =
        (v.code proc runId).bind rest := rfl
    rw [hcode] at h ⊢
    rw [Program.bind_assoc]
    rcases v.moves_or_same proc runId hkeyed id h.before with
      ⟨hid, hmoves⟩ | hsame
    · exact ⟨v, _, hid, hmoves, .here _ _⟩
    · rw [Program.run_bind] at h
      cases hrun : (v.code proc runId).run (Program.drawing exec) w with
      | mk outcome w' =>
        have hafter : v.after proc runId = w' := congrArg Prod.snd hrun
        have hbefore := h.before
        rw [hrun] at h
        rw [hafter] at hsame
        cases outcome with
        | error e => exact absurd hsame h.changes
        | ok outcome =>
          have hkeyed' : Keyed w'.2.store := by
            rw [← hafter]
            exact keyed_run _ hkeyed
          have hmoves : MovesToExpired id w'.2
              ((rest outcome).run (Program.drawing exec) w').2.2 := by
            refine ⟨?_, h.after⟩
            rw [hsame]
            exact hbefore
          obtain ⟨v', next, hid, hmoved, hreached⟩ := ih _ hkeyed' hmoves
          refine ⟨v', next, hid, hmoved, ?_⟩
          exact (Program.reached_of_run hrun _).trans hreached

theorem moves_bind {p : Code α} {f : α → Code β} {Q : Except PyError α → Prop} {w : World}
    (hp : p.Only Op.LeavesOrders Q)
    (h : MovesToExpired id w.2 ((p.bind f).run (Program.drawing exec) w).2.2) :
    ∃ a w', Program.Reached (Program.drawing exec) (p.bind f) w (f a) w' ∧
      MovesToExpired id w'.2 ((f a).run (Program.drawing exec) w').2.2 ∧
      (Keyed w.2.store → Keyed w'.2.store) := by
  have horders := orders_of_leaves hp w
  have hkeyed := keyed_run (w := w) p
  rw [Program.run_bind] at h
  cases hrun : p.run (Program.drawing exec) w with
  | mk result w' =>
    rw [hrun] at h horders hkeyed
    cases result with
    | error e => exact absurd (congrFun horders id) h.changes
    | ok a =>
      refine ⟨a, w', Program.reached_of_run hrun f, ⟨?_, h.after⟩, hkeyed⟩
      rw [horders]
      exact h.before

theorem moves_before {p : Code α} {f : α → Code β} {Q : Except PyError β → Prop} {w : World}
    (hf : ∀ a, (f a).Only Op.LeavesOrders Q)
    (h : MovesToExpired id w.2 ((p.bind f).run (Program.drawing exec) w).2.2) :
    MovesToExpired id w.2 (p.run (Program.drawing exec) w).2.2 := by
  rw [Program.run_bind] at h
  cases hrun : p.run (Program.drawing exec) w with
  | mk result w' =>
    rw [hrun] at h
    cases result with
    | error e => exact h
    | ok a =>
      have hafter := h.after
      dsimp only at hafter
      unfold Expired at hafter
      rw [orders_of_leaves (hf a) w'] at hafter
      exact ⟨h.before, hafter⟩

end

theorem processRun_moves (proc : ReconciliationRunProcessor) (run : ReconciliationRunEntity)
    {start : World} (hkeyed : Keyed start.2.store) {id : UUID}
    (h : MovesToExpired id start.2
      ((proc.processRun run).run (Program.drawing exec) start).2.2) :
    ∃ v, Visited proc run start v ∧ v.id = id ∧
      MovesToExpired id v.before.2 (v.after proc run.reconciliationRunId).2 := by
  have hlinks : (await (.orders (.reconciliationsGetRunOrderLinks
      run.reconciliationRunId))).Only Op.LeavesOrders fun _ => True := ⟨trivial, fun _ => trivial⟩
  obtain ⟨links, w₁, hreached₁, h₁, hkeyed₁⟩ := moves_bind hlinks h
  cases links with
  | nil => exact absurd rfl h₁.changes
  | cons link rest =>
    have haccount := leaves_of_preparing (getBrokerAccount_preparing run.accountId).outcome
    obtain ⟨account, w₂, hreached₂, h₂, hkeyed₂⟩ := moves_bind haccount h₁
    rcases account with e | _ | account
    · exact absurd rfl h₂.changes
    · exact absurd rfl h₂.changes
    · have hbroker :=
        leaves_of_preparing (getOrCreateBroker_preparing run.accountId account).outcome
      obtain ⟨adapter, w₃, hreached₃, h₃, hkeyed₃⟩ := moves_bind hbroker h₂
      rcases adapter with e | _ | adapter
      · exact absurd rfl h₃.changes
      · exact absurd rfl h₃.changes
      · have hmoves := moves_before (fun tally => closeRun_leaves proc run _ tally) h₃
        obtain ⟨v, next, hid, hmoved, hreached⟩ := processLinks_moves adapter account.accountRef
          (link :: rest) {} _ (hkeyed₃ (hkeyed₂ (hkeyed₁ hkeyed))) hmoves
        refine ⟨v, ⟨next, ?_⟩, hid, hmoved⟩
        exact hreached₁.trans (hreached₂.trans (hreached₃.trans hreached))

/-- The time of the day on the Korean clock. -/
def kstTimeOfDay (t : Time) : Int := (t + 9 * microsPerHour) % (24 * microsPerHour)

/-- Between half past three, when the market closes, and six. -/
def AfterClose (now : Time) : Prop :=
  15 * microsPerHour + 30 * microsPerMinute ≤ kstTimeOfDay now ∧
    kstTimeOfDay now < 18 * microsPerHour

/-- The half hour before the market closes. -/
def BeforeClose (now : Time) : Prop :=
  15 * microsPerHour ≤ kstTimeOfDay now ∧
    kstTimeOfDay now < 15 * microsPerHour + 30 * microsPerMinute

theorem isAfterHours_iff (now : Time) :
    isAfterHours now = true ↔ BeforeClose now ∨ AfterClose now := by
  have hours : kstHour now = kstTimeOfDay now / 3600000000 := by
    unfold kstHour kstTimeOfDay microsPerHour microsPerMinute
    generalize (now : Int) = t
    omega
  unfold isAfterHours BeforeClose AfterClose
  rw [decide_eq_true_iff, hours]
  unfold microsPerHour microsPerMinute
  generalize kstTimeOfDay now = t
  omega

/-- Half an hour or more has passed since the order was made. -/
def Aged (now createdAt : Time) : Prop := 30 * microsPerMinute ≤ now - createdAt

theorem mayExpire_iff (now createdAt : Time) :
    mayExpire now createdAt = true ↔ Aged now createdAt ∨ BeforeClose now ∨ AfterClose now := by
  unfold mayExpire Aged
  rw [decide_eq_true_iff, isAfterHours_iff]

/-! When a visit expires its order rightly, and when it slips. -/

/-- The order needed reconciliation, the broker did not know it, and it was old enough or the
market had closed. -/
structure Visit.Rightly (v : Visit) : Prop where
  unknown : v.reply = .ok .reconcileRequired
  order : ∃ order createdAt, v.order = some order ∧ order.status = .reconcileRequired ∧
    order.createdAt = some createdAt ∧ (Aged v.now createdAt ∨ AfterClose v.now)

/-- The order has moved on since it was linked, to a status an expiry is written over. -/
structure MovedOn (proc : ReconciliationRunProcessor) (now createdAt : Time)
    (status : OrderStatus) : Prop where
  elsewhere : status ≠ .reconcileRequired ∧ status ≠ .expired
  writable : Writable proc.orderManager status
  due : mayExpire now createdAt = true

/-- A young order in the half hour before the close. -/
structure TooSoon (now createdAt : Time) (status : OrderStatus) : Prop where
  status : status = .reconcileRequired
  young : ¬Aged now createdAt
  soon : BeforeClose now

/-- The visit expires an order that it should leave. -/
structure Visit.Slips (proc : ReconciliationRunProcessor) (v : Visit) : Prop where
  asks : v.Asks proc
  unknown : v.reply = .ok .reconcileRequired
  order : ∃ order createdAt, v.order = some order ∧ order.createdAt = some createdAt ∧
    (MovedOn proc v.now createdAt order.status ∨ TooSoon v.now createdAt order.status)

theorem Visit.Slips.moves {proc : ReconciliationRunProcessor} (runId : UUID) {v : Visit}
    (h : v.Slips proc) (hkeyed : Keyed v.before.2.store) :
    MovesToExpired v.id v.before.2 (v.after proc runId).2 := by
  obtain ⟨order, createdAt, horder, hcreated, hcase⟩ := h.order
  have hdue : mayExpire v.now createdAt = true := by
    rcases hcase with h | h
    · exact h.due
    · rw [mayExpire_iff]
      exact Or.inr (Or.inl h.soon)
  have hwritable : Writable proc.orderManager order.status := by
    rcases hcase with h | h
    · exact h.writable
    · rw [h.status]
      exact Or.inr (by decide)
  have hstatus : order.status ≠ .expired := by
    rcases hcase with h | h
    · exact h.elsewhere.2
    · rw [h.status]
      decide
  have hfires : v.Fires proc :=
    ⟨h.asks, h.unknown, order, horder, ⟨createdAt, hcreated, hdue⟩, hwritable⟩
  obtain ⟨row, horders, hexpired⟩ := Visit.after_writes runId hkeyed hfires
  refine ⟨⟨order, horder, hstatus⟩, row, ?_, hexpired⟩
  rw [horders, Function.update_self]

theorem Visit.Slips.not_rightly {proc : ReconciliationRunProcessor} {v : Visit}
    (h : v.Slips proc) : ¬v.Rightly := by
  rintro ⟨-, order', createdAt', horder', hstatus', hcreated', htime⟩
  obtain ⟨order, createdAt, horder, hcreated, hcase⟩ := h.order
  obtain rfl := Option.some.inj (horder.symm.trans horder')
  obtain rfl := Option.some.inj (hcreated.symm.trans hcreated')
  rcases hcase with h | h
  · exact h.elsewhere.1 hstatus'
  · rcases htime with hold | hclosed
    · exact h.young hold
    · have hsoon := h.soon.2
      have hlate := hclosed.1
      omega

theorem Visit.Fires.rightly_or_slips {proc : ReconciliationRunProcessor} {v : Visit}
    (hfires : v.Fires proc)
    (hbefore : ∃ order, v.order = some order ∧ order.status ≠ .expired) :
    v.Rightly ∨ v.Slips proc := by
  obtain ⟨order, horder, ⟨createdAt, hcreated, hdue⟩, hwritable⟩ := hfires.lapses
  obtain ⟨row, hrow, hne⟩ := hbefore
  obtain rfl := Option.some.inj (horder.symm.trans hrow)
  by_cases hstatus : order.status = .reconcileRequired
  · by_cases htime : Aged v.now createdAt ∨ AfterClose v.now
    · exact Or.inl ⟨hfires.unknown, order, createdAt, horder, hstatus, hcreated, htime⟩
    · rw [not_or] at htime
      have hsoon : BeforeClose v.now := by
        rcases (mayExpire_iff _ _).mp hdue with h | h | h
        · exact absurd h htime.1
        · exact h
        · exact absurd h htime.2
      exact Or.inr ⟨hfires.asks, hfires.unknown, order, createdAt, horder, hcreated,
        Or.inr ⟨hstatus, htime.1, hsoon⟩⟩
  · exact Or.inr ⟨hfires.asks, hfires.unknown, order, createdAt, horder, hcreated,
      Or.inl ⟨⟨hstatus, hne⟩, hwritable, hdue⟩⟩

theorem visit_rightly_iff {proc : ReconciliationRunProcessor} (runId : UUID) {v : Visit}
    (hkeyed : Keyed v.before.2.store) :
    (∀ id, MovesToExpired id v.before.2 (v.after proc runId).2 → v.id = id ∧ v.Rightly) ↔
      ¬v.Slips proc := by
  constructor
  · intro hright hslips
    exact hslips.not_rightly (hright v.id (hslips.moves runId hkeyed)).2
  · intro hslips id hmoves
    rcases v.moves_or_same proc runId hkeyed id hmoves.before with
      ⟨hid, -⟩ | hsame
    · refine ⟨hid, ?_⟩
      subst hid
      have hfires : v.Fires proc := by
        by_contra hnot
        exact hmoves.changes (congrFun (Visit.after_leaves hnot) v.id)
      exact (hfires.rightly_or_slips hmoves.before).resolve_right hslips
    · exact absurd hsame hmoves.changes

/-- Whatever the run moves to expired it moves at a visit to that order, and every visit that does
so does it rightly. -/
structure ExpiresRightly (proc : ReconciliationRunProcessor) (run : ReconciliationRunEntity)
    (start : World) : Prop where
  visited : ∀ id, MovesToExpired id start.2
      ((proc.processRun run).run (Program.drawing exec) start).2.2 →
    ∃ v, Visited proc run start v ∧ v.id = id ∧
      MovesToExpired id v.before.2 (v.after proc run.reconciliationRunId).2
  rightly : ∀ v, Visited proc run start v → ∀ id,
    MovesToExpired id v.before.2 (v.after proc run.reconciliationRunId).2 →
      v.id = id ∧ v.Rightly

/-- A run expires orders rightly exactly when none of its visits slips. -/
theorem processRun_expires_iff (proc : ReconciliationRunProcessor) (run : ReconciliationRunEntity)
    (start : World) (hkeyed : Keyed start.2.store) :
    ExpiresRightly proc run start ↔ ∀ v, Visited proc run start v → ¬v.Slips proc := by
  have hkeyed' : ∀ v, Visited proc run start v → Keyed v.before.2.store := by
    rintro v ⟨next, hreached⟩
    apply hreached.keeps (I := fun w : World => Keyed w.2.store) _ hkeyed
    exact fun op w hw => worker_keyed (w.1 0) op hw
  constructor
  · intro h v hv
    rw [← visit_rightly_iff run.reconciliationRunId (hkeyed' v hv)]
    exact h.rightly v hv
  · intro h
    refine ⟨fun id => processRun_moves proc run hkeyed, fun v hv => ?_⟩
    rw [visit_rightly_iff run.reconciliationRunId (hkeyed' v hv)]
    exact h v hv

/-- Of all orders only the first has a broker order; it is half an hour old at least, and waits for
reconciliation or has expired. -/
def FirstAged (s : State) : Bool :=
  s.store.brokerOrders.all (·.orderRequestId = 1) &&
    (s.store.orders 1).any fun row =>
      (row.status = .reconcileRequired ∨ row.status = .expired) ∧ row.createdAt = some 0 ∧
        30 * microsPerMinute ≤ s.store.clock

theorem not_slips_aged {proc : ReconciliationRunProcessor} {v : Visit}
    (haged : FirstAged v.before.2 = true) (helapsed : 0 ≤ (v.before.1 2).orders.elapsed) :
    ¬v.Slips proc := by
  intro h
  unfold FirstAged at haged
  rw [Bool.and_eq_true, List.all_eq_true] at haged
  obtain ⟨item, hitem, hid⟩ := h.asks.brokerOrder
  have hfirst : v.id = 1 := hid.symm.trans (of_decide_eq_true (haged.1 item hitem))
  obtain ⟨order, createdAt, horder, hcreated, hcase⟩ := h.order
  rw [Visit.order, hfirst] at horder
  rw [horder, Option.any_some, decide_eq_true_eq] at haged
  obtain ⟨hstatus, hzero, hclock⟩ := haged.2
  obtain rfl := Option.some.inj (hzero.symm.trans hcreated)
  rcases hcase with hmoved | hsoon
  · exact hstatus.elim hmoved.elsewhere.1 hmoved.elsewhere.2
  · apply hsoon.young
    unfold Aged Visit.now
    omega

/-- The run of an order that is 31 minutes old and unknown to the broker expires it, and rightly. -/
theorem processRun_expires_aged :
    ExpiresRightly managed startedRun (answering (.ok .reconcileRequired), oneOrder) ∧
      MovesToExpired 1 oneOrder (afterReply (.ok .reconcileRequired)).2 := by
  constructor
  · apply (processRun_expires_iff managed startedRun _ oneOrder_keyed).mpr
    rintro v ⟨next, hreached⟩
    have hchoices : ∀ n, v.before.1 n = answering (.ok .reconcileRequired) 0 := by
      apply hreached.keeps
        (I := fun w : World => ∀ n, w.1 n = answering (.ok .reconcileRequired) 0)
      · exact fun _ _ hw n => hw (n + 1)
      · exact fun _ => rfl
    have htrail : ∀ w ∈ Program.trail (Program.drawing exec) (managed.processRun startedRun)
        (answering (.ok .reconcileRequired), oneOrder), FirstAged w.2 = true := by
      decide +kernel
    apply not_slips_aged (htrail v.before hreached.mem_trail)
    rw [hchoices]
    decide
  · exact ⟨⟨_, rfl, by decide⟩, _, rfl, rfl⟩

/-- Ten past three on the Korean clock, and an order made five minutes before. -/
def tenPastThree : State where
  store := underReconciliation (Store.holding
    { Orders.sampleOrder .reconcileRequired with createdAt := some (365 * microsPerMinute) }
    (370 * microsPerMinute))

/-- The visit of the run to its one link, the adapter built. -/
def onlyVisit : Visit where
  adapter := ⟨"50123456"⟩
  accountRef := "50123456"
  link := ⟨9, 1, "pending_inquiry", "requires_reconciliation", 0⟩
  before := (answering (.ok .reconcileRequired),
    { tenPastThree with
      brokerCache := Function.update (fun _ => none) 2 (some ⟨"50123456"⟩) })

theorem onlyVisit_visited :
    Visited managed startedRun (answering (.ok .reconcileRequired), tenPastThree) onlyVisit := by
  refine ⟨fun outcome => (managed.processLinks 9 onlyVisit.adapter onlyVisit.accountRef []
    (Tally.count {} onlyVisit.link outcome)).bind (managed.closeRun startedRun 1), ?_⟩
  rw [← Program.bind_assoc]
  exact .after (.after (.after (.after (.after (.after (.after (.here _ _)))))))

theorem tenPastThree_expired :
    ¬ExpiresRightly managed startedRun (answering (.ok .reconcileRequired), tenPastThree) := by
  intro h
  have hmoves : MovesToExpired 1 onlyVisit.before.2 (onlyVisit.after managed 9).2 :=
    ⟨⟨_, rfl, by decide⟩, _, rfl, rfl⟩
  obtain ⟨-, hright⟩ := h.rightly onlyVisit onlyVisit_visited 1 hmoves
  obtain ⟨order, createdAt, horder, -, hcreated, htime⟩ := hright.order
  obtain rfl := Option.some.inj horder
  obtain rfl := Option.some.inj hcreated
  rcases htime with hold | hclosed
  · revert hold
    unfold Aged
    decide
  · have hlate := hclosed.1
    revert hlate
    decide

end AgentTrading.Reconciliation.Worker
