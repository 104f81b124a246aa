import AgentTrading.Orders.StaleCopies
import AgentTrading.Orders.TransitionSafety

/-! A chain of transitions with nobody else writing, each on the order that the one before it
returned. The store counts the version of the row; the returned order keeps the version it was
written over, so that from the second transition on the first attempt meets a conflict. -/
namespace AgentTrading.Orders
open Domain Repositories Library

/-- The returned order says what the row says, versions apart. -/
structure SameFields (copy row : OrderRequestEntity) : Prop where
  id : copy.orderRequestId = row.orderRequestId
  status : copy.status = row.status
  reasonCode : copy.statusReasonCode = row.statusReasonCode
  reasonMessage : copy.statusReasonMessage = row.statusReasonMessage
  submitted : copy.submittedAt.isSome = row.submittedAt.isSome

/-- The returned order is as good as the row for whoever goes on with it. -/
structure Agrees (copy row : OrderRequestEntity) : Prop extends SameFields copy row where
  version : copy.version = row.version

/-- The returned order is one version behind the row. -/
structure Lags (copy row : OrderRequestEntity) : Prop extends SameFields copy row where
  version : copy.version + 1 = row.version

theorem Agrees.refl (row : OrderRequestEntity) : Agrees row row :=
  ⟨⟨rfl, rfl, rfl, rfl, rfl⟩, rfl⟩

theorem Lags.not_agrees {copy row : OrderRequestEntity} (h : Lags copy row) : ¬Agrees copy row := by
  intro hagrees
  have hbehind := h.version
  have hsame := hagrees.version
  omega

theorem Retargets.lags {target : OrderStatus} {args : TransitionArgs} {submittedAt : Option Time}
    {order row after : OrderRequestEntity} (h : Retargets target args submittedAt order after)
    (hid : order.orderRequestId = row.orderRequestId) (hversion : order.version = row.version)
    (hsubmitted : order.submittedAt.isSome = row.submittedAt.isSome) (now : Time) :
    Lags after (Store.statusRow now row after.status args.reasonCode args.reasonMessage
      (some after.version) submittedAt) := by
  refine ⟨⟨h.id.trans hid, rfl, h.reasonCode, h.reasonMessage, ?_⟩, ?_⟩
  · rw [h.submitted, hsubmitted]
    unfold Store.statusRow
    dsimp only
    rw [Option.isSome_or, h.status, Bool.or_assoc]
    congr 1
    cases row.submittedAt with
    | some t => simp
    | none => by_cases htarget : target = .submitted <;> simp [htarget]
  · change after.version + 1 = row.version + 1
    rw [h.version, hversion]

section

variable {order row : OrderRequestEntity} {target : OrderStatus} {args : TransitionArgs}
variable {s : Store} (service : Bool)

/-- The transition returned the order in the target, one version behind the row it stored. -/
def Leaves (id : UUID) (target : OrderStatus) (s : Store) (r : Except PyError OrderRequestEntity)
    (t : Store) : Prop :=
  ∃ after row, r = .ok after ∧ t.orders = Function.update s.orders id (some row) ∧
    (after.orderRequestId = id ∧ after.status = target) ∧ Lags after row

theorem leaves_recorded {id : UUID} {after : OrderRequestEntity} {t : Store}
    (h : Leaves id target s (.ok after) t) :
    Solo (Leaves id target s) ((recordTransition service order after target args).bind
      fun _ => .ret after) t := by
  obtain ⟨_, row, hafter, horders, hlags⟩ := h
  obtain rfl := Except.ok.inj hafter
  apply alone_bookkeeping_bind (recordTransition_only ..) (fun _ _ _ _ => trivial)
  · intro _ u _ hsame
    apply Program.alone_ret
    exact ⟨_, row, rfl, hsame.orders.trans horders, hlags⟩
  · intro e u he
    cases he

theorem retryUpdate_leaves {submittedAt : Option Time} {copy after : OrderRequestEntity} {n : Nat}
    {lastExc : Option PyError} {id : UUID} (hrow : s.orders id = some row)
    (hretargets : Retargets target args submittedAt copy after)
    (hid : copy.orderRequestId = id) (hkey : row.orderRequestId = id)
    (hversion : copy.version = row.version)
    (hsubmitted : copy.submittedAt.isSome = row.submittedAt.isSome) :
    Solo (Leaves id target s) (retryUpdate order target args submittedAt (n + 1) after lastExc)
      s := by
  apply (retryUpdate_writes order args submittedAt hrow (hretargets.id.trans hid)
    (hretargets.version.trans hversion)).mono
  rintro r t ⟨rfl, now, horders⟩
  exact ⟨after, _, rfl, horders, ⟨hretargets.id.trans hid, hretargets.status⟩,
    hretargets.lags (hid.trans hkey.symm) hversion hsubmitted now⟩

theorem Leaves.of_orders {id : UUID} {r : Except PyError OrderRequestEntity} {t u : Store}
    (h : Leaves id target t r u) (horders : t.orders = s.orders) :
    Leaves id target s r u := by
  obtain ⟨after, row, hr, hu, hlags⟩ := h
  rw [horders] at hu
  exact ⟨after, row, hr, hu, hlags⟩

theorem transitionTo_current (hstored : s.orders order.orderRequestId = some order)
    (hallowed : target ∈ allowedTransitions order.status) (hretries : args.maxRetries ≠ 0) :
    Solo (Leaves order.orderRequestId target s) (transitionTo service order target args) s := by
  have hvalid := (validateTransition_ok order.orderRequestId order.status target).mpr hallowed
  obtain ⟨n, hn⟩ := Nat.exists_eq_succ_of_ne_zero hretries
  unfold transitionTo
  simp only [hvalid, orRaise, Program.bind_eq, Program.ret_bind]
  apply transitionToCore_solo
  intro after submittedAt t hretargets horders
  have hstored' : t.orders order.orderRequestId = some order := by rw [horders, hstored]
  simp only [hn] at hretargets ⊢
  apply Program.Alone.bind (retryUpdate_leaves hstored' hretargets rfl rfl rfl rfl)
  · intro written u hleaves
    exact leaves_recorded service (hleaves.of_orders horders)
  · rintro e u ⟨_, _, he, -⟩
    cases he

/-- A transition of an order that lags behind an open row: the second attempt goes through. -/
theorem transitionTo_lagging (hrow : s.orders order.orderRequestId = some row)
    (hlags : Lags order row) (hopen : row.status ∉ terminalStates)
    (hallowed : target ∈ allowedTransitions order.status) (hretries : 2 ≤ args.maxRetries) :
    Solo (Leaves order.orderRequestId target s) (transitionTo service order target args) s := by
  have hvalid := (validateTransition_ok order.orderRequestId order.status target).mpr hallowed
  obtain ⟨n, hn⟩ := Nat.exists_eq_add_of_le' hretries
  unfold transitionTo
  simp only [hvalid, orRaise, Program.bind_eq, Program.ret_bind]
  apply transitionToCore_solo
  intro after submittedAt t hretargets horders
  have hrow' : t.orders order.orderRequestId = some row := by rw [horders, hrow]
  simp only [hn] at hretargets ⊢
  have hbehind : after.version ≠ row.version := by
    have hversion := hlags.version
    rw [hretargets.version]
    omega
  have hsecond : ∀ submittedAt u rebuilt lastExc, u.orders = t.orders →
      Retargets target { args with eventSource := .internal, maxRetries := n + 2 } submittedAt row
        rebuilt →
      Solo (Leaves order.orderRequestId target s) (retryUpdate order target
        { args with eventSource := .internal, maxRetries := n + 2 } submittedAt (n + 1) rebuilt
        lastExc) u := by
    intro submittedAt u rebuilt lastExc hsame hrebuilt
    have hrow'' : u.orders order.orderRequestId = some row := by rw [hsame, hrow']
    apply (retryUpdate_leaves hrow'' hrebuilt hlags.id.symm hlags.id.symm rfl rfl).mono
    exact fun r v hleaves => hleaves.of_orders (hsame.trans horders)
  have hattempts : Solo (Leaves order.orderRequestId target s) (retryUpdate order target
      { args with eventSource := .internal, maxRetries := n + 2 } submittedAt (n + 2) after none)
      t := by
    apply retryUpdate_conflict order _ submittedAt hrow' hretargets.id hbehind
    intro c
    rw [hretargets.id]
    have hrow'' : (tick c t).orders order.orderRequestId = some row := hrow'
    apply refetch_found order _ submittedAt _ hrow''
    · exact fun hfinished => absurd hfinished hopen
    · exact fun _ rebuilt u hrebuilt hsame => hsecond _ u rebuilt _ hsame hrebuilt
  apply Program.Alone.bind hattempts
  · exact fun written u hleaves => leaves_recorded service hleaves
  · rintro e u ⟨_, _, he, -⟩
    cases he

theorem transitionTo_unattempted (hallowed : target ∈ allowedTransitions order.status)
    (hretries : args.maxRetries = 0) :
    Solo (fun r t => t.orders = s.orders ∧ ∀ after, r = .ok after → after.status = target)
      (transitionTo service order target args) s := by
  have hvalid := (validateTransition_ok order.orderRequestId order.status target).mpr hallowed
  unfold transitionTo
  simp only [hvalid, orRaise, Program.bind_eq, Program.ret_bind]
  apply transitionToCore_solo
  intro after submittedAt t hretargets horders
  simp only [hretries, retryUpdate]
  apply alone_bookkeeping_bind (recordTransition_only ..) (fun _ _ _ _ => trivial)
  · intro _ u _ hsame
    apply Program.alone_ret
    refine ⟨hsame.orders.trans horders, ?_⟩
    rintro _ ⟨⟩
    exact hretargets.status
  · intro e u he
    cases he

/-- An attempt found another version than the one it was to write over. -/
def Conflicts : ((op : Op) × Reply op) → Prop
  | ⟨.ordersUpdateStatus .., reply⟩ => ∃ id expected actual,
      reply = .error (.versionConflict id expected actual)
  | _ => False

theorem conflicts_bind {α : Type} {p : Code α} {f : α → Code β} {Q : Except PyError α → Prop}
    (hp : p.Only Op.Noting Q) (hok : ∀ e, ¬Q (.error e)) {w : (Nat → Choice) × Store}
    (hrest : ∀ a u, Q (.ok a) → u.2.orders = w.2.orders →
      ∃ step ∈ (f a).trace (Program.drawing exec) u, Conflicts step) :
    ∃ step ∈ (p.bind f).trace (Program.drawing exec) w, Conflicts step := by
  have hresult := hp.run_result (Program.drawing exec) w
  have horders : (p.run (Program.drawing exec) w).2.2.orders = w.2.orders := by
    apply Program.Only.run_keeps (I := fun u : (Nat → Choice) × Store => u.2.orders = w.2.orders)
      _ hp
    · intro op u hop hu
      rw [← hu]
      exact (exec_keepsStatus _ op _ hop.recording.bookkeeping.keepsStatus).1
    · rfl
  rw [Program.trace_bind]
  cases hrun : p.run (Program.drawing exec) w with
  | mk result u =>
    rw [hrun] at hresult horders
    cases result with
    | error e => exact absurd hresult (hok e)
    | ok a =>
      obtain ⟨step, hstep, hconflict⟩ := hrest a u hresult horders
      exact ⟨step, List.mem_append_right _ hstep, hconflict⟩

theorem transitionTo_conflicts {w : (Nat → Choice) × Store}
    (hrow : w.2.orders order.orderRequestId = some row) (hversion : order.version ≠ row.version)
    (hallowed : target ∈ allowedTransitions order.status) (hretries : args.maxRetries ≠ 0) :
    ∃ step ∈ (transitionTo service order target args).trace (Program.drawing exec) w,
      Conflicts step := by
  have hvalid := (validateTransition_ok order.orderRequestId order.status target).mpr hallowed
  obtain ⟨n, hn⟩ := Nat.exists_eq_succ_of_ne_zero hretries
  unfold transitionTo transitionToCore
  simp only [hvalid, orRaise, Program.bind_eq, Program.ret_bind]
  apply conflicts_bind (stamp_only _) (by simp)
  intro submittedAt u _ hu
  apply conflicts_bind (replaceStatus_retargets order target
    { args with eventSource := .internal } submittedAt) (by simp)
  rintro after v ⟨_, hafter, hretargets⟩ hv
  obtain rfl := Except.ok.inj hafter
  have hrow' : v.2.orders after.orderRequestId = some row := by
    rw [hretargets.id, hv, hu, hrow]
  simp only [hn, retryUpdate, Program.bind_eq, Program.perform_bind, Program.call_bind,
    Program.trace_call]
  refine ⟨_, List.mem_cons_self, after.orderRequestId, after.version, row.version, ?_⟩
  have hrow'' : (tick (v.1 0) v.2).orders after.orderRequestId = some row := hrow'
  rw [← hretargets.version] at hversion
  exact congrArg Prod.fst (Store.updateStatus_behind hrow'' hversion _ _ _ _)

end

structure ChainStep where
  target : OrderStatus
  args : TransitionArgs := {}

/-- Each target is allowed from the one before. -/
def ChainAllowed : OrderStatus → List ChainStep → Prop
  | _, [] => True
  | status, step :: steps =>
    step.target ∈ allowedTransitions status ∧ ChainAllowed step.target steps

/-- Every call of the chain returns, each made on the order that the one before returned, and `P`
holds of what it did, of the order it returned and of the row it left. -/
def Chain (service : Bool)
    (P : List ((op : Op) × Reply op) → OrderRequestEntity → OrderRequestEntity → Prop) :
    List ChainStep → OrderRequestEntity → (Nat → Choice) × Store → Prop
  | [], _, _ => True
  | step :: steps, order, w =>
    let call := transitionTo service order step.target step.args
    ∃ after row, (call.run (Program.drawing exec) w).1 = .ok after ∧
      (call.run (Program.drawing exec) w).2.2.orders order.orderRequestId = some row ∧
      P (call.trace (Program.drawing exec) w) after row ∧
      Chain service P steps after (call.run (Program.drawing exec) w).2

theorem Chain.mono {service : Bool}
    {P P' : List ((op : Op) × Reply op) → OrderRequestEntity → OrderRequestEntity → Prop}
    (hP : ∀ ops after row, P ops after row → P' ops after row) {steps : List ChainStep}
    {order : OrderRequestEntity} {w : (Nat → Choice) × Store} (h : Chain service P steps order w) :
    Chain service P' steps order w := by
  induction steps generalizing order w with
  | nil => trivial
  | cons step steps ih =>
    obtain ⟨after, row, hreturned, hrow, hstep, hrest⟩ := h
    exact ⟨after, row, hreturned, hrow, hP _ _ _ hstep, ih hrest⟩

theorem solo_run {post : Except PyError α → Store → Prop} {p : Code α}
    {w : (Nat → Choice) × Store} (h : Solo post p w.2) :
    post (p.run (Program.drawing exec) w).1 (p.run (Program.drawing exec) w).2.2 :=
  h.run fun _ _ _ => trivial

section

variable (service : Bool) {steps : List ChainStep} {order row : OrderRequestEntity}
variable {w : (Nat → Choice) × Store}

/-- From a copy that lags behind an open row every call meets a conflict and gets through, as long
as the order is not finished on the way. -/
theorem chain_of_lagging (hrow : w.2.orders order.orderRequestId = some row)
    (hlags : Lags order row) (hopen : steps = [] ∨ row.status ∉ terminalStates)
    (hallowed : ChainAllowed order.status steps)
    (hretries : ∀ step ∈ steps, 2 ≤ step.args.maxRetries)
    (hbetween : ∀ step ∈ steps.dropLast, step.target ∉ terminalStates) :
    Chain service (fun ops after row => (∃ step ∈ ops, Conflicts step) ∧ Lags after row) steps
      order w := by
  induction steps generalizing order row w with
  | nil => trivial
  | cons step steps ih =>
    have hopen := hopen.resolve_left (List.cons_ne_nil _ _)
    have htwice := hretries step List.mem_cons_self
    have hbehind : order.version ≠ row.version := by
      have hversion := hlags.version
      omega
    have hattempts : step.args.maxRetries ≠ 0 := by omega
    have hconflict := transitionTo_conflicts service hrow hbehind hallowed.1 hattempts
    obtain ⟨after, row', hreturned, horders, ⟨hid, hstatus⟩, hlags'⟩ :=
      solo_run (transitionTo_lagging service hrow hlags hopen hallowed.1 htwice)
    have hrow' := congrFun horders order.orderRequestId
    rw [Function.update_self] at hrow'
    refine ⟨after, row', hreturned, hrow', ⟨hconflict, hlags'⟩, ?_⟩
    apply ih _ hlags'
    · cases steps with
      | nil => exact Or.inl rfl
      | cons next rest =>
        right
        rw [← hlags'.status, hstatus]
        exact hbetween step List.mem_cons_self
    · rw [hstatus]
      exact hallowed.2
    · exact fun other hother => hretries other (List.mem_cons_of_mem _ hother)
    · intro other hother
      cases steps with
      | nil => cases hother
      | cons next rest => exact hbetween other (List.mem_cons_of_mem _ hother)
    · rw [hid]
      exact hrow'

/-- A chain that finishes the order on the way stops there, though the table allows the next
status. -/
theorem chain_stops {step : ChainStep}
    {P : List ((op : Op) × Reply op) → OrderRequestEntity → OrderRequestEntity → Prop}
    (hrow : w.2.orders order.orderRequestId = some row) (hlags : Lags order row)
    (hfinished : row.status ∈ terminalStates) (hretries : step.args.maxRetries ≠ 0) :
    ¬Chain service P (step :: steps) order w := by
  rintro ⟨after, -, hreturned, -⟩
  have hbehind : order.version ≠ row.version := by
    have hversion := hlags.version
    omega
  obtain ⟨⟨e, hraised⟩, -⟩ :=
    solo_run (transitionTo_finished service hrow hfinished hbehind hretries)
  rw [hreturned] at hraised
  cases hraised

/-- A chain that does not finish the order on the way goes through. Each returned order says what
its row says, one version behind it. -/
theorem chain_lags (hstored : w.2.orders order.orderRequestId = some order)
    (hallowed : ChainAllowed order.status steps)
    (hretries : ∀ step ∈ steps, 2 ≤ step.args.maxRetries)
    (hbetween : ∀ step ∈ steps.dropLast, step.target ∉ terminalStates) :
    Chain service (fun _ after row => Lags after row) steps order w := by
  cases steps with
  | nil => trivial
  | cons step steps =>
    have htwice := hretries step List.mem_cons_self
    have hattempts : step.args.maxRetries ≠ 0 := by omega
    obtain ⟨after, row, hreturned, horders, ⟨hid, hstatus⟩, hlags⟩ :=
      solo_run (transitionTo_current service hstored hallowed.1 hattempts)
    have hrow := congrFun horders order.orderRequestId
    rw [Function.update_self] at hrow
    refine ⟨after, row, hreturned, hrow, hlags, ?_⟩
    apply Chain.mono (P := fun ops after row => (∃ step ∈ ops, Conflicts step) ∧ Lags after row)
      fun _ _ _ h => h.2
    apply chain_of_lagging service _ hlags
    · cases steps with
      | nil => exact Or.inl rfl
      | cons next rest =>
        right
        rw [← hlags.status, hstatus]
        exact hbetween step List.mem_cons_self
    · rw [hstatus]
      exact hallowed.2
    · exact fun other hother => hretries other (List.mem_cons_of_mem _ hother)
    · intro other hother
      cases steps with
      | nil => cases hother
      | cons next rest => exact hbetween other (List.mem_cons_of_mem _ hother)
    · rw [hid]
      exact hrow

end

/-- No call meets a conflict, and the returned order agrees with the row. -/
def ChainAgrees (service : Bool) : List ChainStep → OrderRequestEntity →
    (Nat → Choice) × Store → Prop :=
  Chain service fun ops after row => (∀ step ∈ ops, ¬Conflicts step) ∧ Agrees after row

/-- Only the empty chain agrees: already the first returned order has the version that its row
has left behind. -/
theorem chain_agrees_iff (service : Bool) (steps : List ChainStep) (order : OrderRequestEntity)
    (w : (Nat → Choice) × Store) (hstored : w.2.orders order.orderRequestId = some order)
    (hallowed : ChainAllowed order.status steps) :
    ChainAgrees service steps order w ↔ steps = [] := by
  constructor
  · intro h
    cases steps with
    | nil => rfl
    | cons step steps =>
      obtain ⟨after, row, hreturned, hrow, ⟨-, hagrees⟩, -⟩ := h
      by_cases hretries : step.args.maxRetries = 0
      · have hnothing := solo_run (w := w) (transitionTo_unattempted service hallowed.1 hretries)
        rw [hnothing.1, hstored] at hrow
        obtain rfl := Option.some.inj hrow
        have htarget := hnothing.2 after hreturned
        have hself : ∀ status : OrderStatus, status ∉ allowedTransitions status := by
          intro status
          cases status <;> decide
        have hsame := hallowed.1
        rw [← htarget, hagrees.status] at hsame
        exact absurd hsame (hself _)
      · obtain ⟨after', row', hreturned', horders, -, hlags⟩ :=
          solo_run (transitionTo_current service hstored hallowed.1 hretries)
        rw [horders, Function.update_self] at hrow
        obtain rfl := Except.ok.inj (hreturned.symm.trans hreturned')
        obtain rfl := Option.some.inj hrow
        exact absurd hagrees hlags.not_agrees
  · rintro rfl
    trivial

/-- What the sync service does where a fill is known of an order that was only submitted. -/
def submittedToFilled : List ChainStep :=
  [⟨.acknowledged, {}⟩, ⟨.partiallyFilled, {}⟩, ⟨.filled, {}⟩]

theorem chain_agrees_submittedToFilled :
    ChainAgrees true submittedToFilled (sampleOrder .submitted)
        (fun _ => idleChoice, Store.holding (sampleOrder .submitted) 0) ↔
      submittedToFilled = [] :=
  chain_agrees_iff true submittedToFilled (sampleOrder .submitted) _ rfl
    ⟨by decide, by decide, by decide, trivial⟩

/-- The order returned as acknowledged still has version one, and its row has version two. -/
theorem acknowledged_behind :
    ¬ChainAgrees true submittedToFilled (sampleOrder .submitted)
      (fun _ => idleChoice, Store.holding (sampleOrder .submitted) 0) := by
  rintro ⟨after, row, hreturned, hrow, ⟨-, hagrees⟩, -⟩
  cases hreturned
  cases hrow
  exact absurd hagrees.version (by decide)

end AgentTrading.Orders
