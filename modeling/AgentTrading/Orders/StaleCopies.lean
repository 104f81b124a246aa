import AgentTrading.Orders.Submission

/-! What a transition does when the caller's copy of the order may be behind the stored row. A
row that is still open is read again and written; a finished one is left alone. -/
namespace AgentTrading.Orders
open Domain Repositories Library

/-- The program runs with nobody else writing, and every operation is allowed. -/
abbrev Solo (post : Except PyError α → Store → Prop) (p : Code α) (s : Store) : Prop :=
  Program.Alone exec (fun _ _ _ => True) (fun _ _ _ => True) post p s

/-- The copy a call goes on with: the row under the target and the reasons of the call. -/
structure Retargets (target : OrderStatus) (args : TransitionArgs) (submittedAt : Option Time)
    (row after : OrderRequestEntity) : Prop where
  id : after.orderRequestId = row.orderRequestId
  version : after.version = row.version
  status : after.status = target
  reasonCode : after.statusReasonCode = args.reasonCode
  reasonMessage : after.statusReasonMessage = args.reasonMessage
  submitted : after.submittedAt.isSome =
    (submittedAt.isSome || row.submittedAt.isSome || target = .submitted)

theorem replaceStatus_retargets (order : OrderRequestEntity) (target : OrderStatus)
    (args : TransitionArgs) (submittedAt : Option Time) :
    (replaceStatus order target args.reasonCode args.reasonMessage submittedAt).Only Op.Noting
      fun r => ∃ after, r = .ok after ∧ Retargets target args submittedAt order after := by
  have hor : (submittedAt.or order.submittedAt).isSome =
      (submittedAt.isSome || order.submittedAt.isSome) := Option.isSome_or
  unfold replaceStatus
  cases hresolved : submittedAt.or order.submittedAt with
  | some t =>
    rw [hresolved] at hor
    refine ⟨trivial, fun now => ⟨_, rfl, rfl, rfl, rfl, rfl, rfl, ?_⟩⟩
    rw [← hor]
    rfl
  | none =>
    rw [hresolved] at hor
    by_cases htarget : target = .submitted
    · simp only [replaceStatus.resolveSubmittedAt, htarget, if_true]
      refine ⟨trivial, fun t => ⟨trivial, fun now => ⟨_, rfl, rfl, rfl, rfl, rfl, rfl, ?_⟩⟩⟩
      rw [← hor]
      rfl
    · simp only [replaceStatus.resolveSubmittedAt, htarget, if_false]
      refine ⟨trivial, fun now => ⟨_, rfl, rfl, rfl, rfl, rfl, rfl, ?_⟩⟩
      rw [← hor, decide_eq_false htarget]
      rfl

/-- A later version with status `target` has replaced the row, and nothing else the orders. -/
def Replaced (id : UUID) (row : OrderRequestEntity) (target : OrderStatus) (s t : Store) : Prop :=
  ∃ row', t.orders = Function.update s.orders id (some row') ∧ row'.orderRequestId = id ∧
    row'.status = target ∧ row.version < row'.version

section

variable {id : UUID} {row : OrderRequestEntity} {target : OrderStatus} {s t u : Store}

theorem Replaced.of_orders (h : Replaced id row target t u) (horders : t.orders = s.orders) :
    Replaced id row target s u := by
  obtain ⟨row', hrow', hrest⟩ := h
  rw [horders] at hrow'
  exact ⟨row', hrow', hrest⟩

theorem Replaced.same (h : Replaced id row target s t) (horders : u.orders = t.orders) :
    Replaced id row target s u := by
  obtain ⟨row', hrow', hrest⟩ := h
  exact ⟨row', horders.trans hrow', hrest⟩

theorem Replaced.again {next : OrderStatus} {row' : OrderRequestEntity}
    (horders : t.orders = Function.update s.orders id (some row'))
    (hversion : row.version < row'.version) (h : Replaced id row' next t u) :
    Replaced id row next s u := by
  obtain ⟨last, hlast, hid, hstatus, hlater⟩ := h
  refine ⟨last, ?_, hid, hstatus, by omega⟩
  rw [hlast, horders, Function.update_idem]

variable (order : OrderRequestEntity) (args : TransitionArgs) (submittedAt : Option Time)

theorem retryUpdate_writes {after : OrderRequestEntity} {n : Nat} {lastExc : Option PyError}
    (hrow : s.orders id = some row) (hid : after.orderRequestId = id)
    (hversion : after.version = row.version) :
    Solo (fun r t => r = .ok after ∧ ∃ now, t.orders = Function.update s.orders id
        (some (Store.statusRow now row after.status args.reasonCode args.reasonMessage
          (some after.version) submittedAt)))
      (retryUpdate order target args submittedAt (n + 1) after lastExc) s := by
  refine Program.alone_call fun c _ => ⟨trivial, ?_⟩
  have hrow' : (tick c s).orders after.orderRequestId = some row := by
    rw [hid]
    exact hrow
  simp only [exec, respond, Store.updateStatus_current hrow' hversion]
  refine Program.alone_ret ⟨rfl, (tick c s).clock, ?_⟩
  simp only [Store.writeOrder, hid, tick]

theorem retryUpdate_current {after : OrderRequestEntity} {n : Nat} {lastExc : Option PyError}
    (hrow : s.orders id = some row) (hkey : row.orderRequestId = id)
    (hid : after.orderRequestId = id) (hversion : after.version = row.version)
    (hstatus : after.status = target) :
    Solo (fun r t => r = .ok after ∧ Replaced id row target s t)
      (retryUpdate order target args submittedAt (n + 1) after lastExc) s := by
  apply (retryUpdate_writes order args submittedAt hrow hid hversion).mono
  rintro r t ⟨hr, now, horders⟩
  refine ⟨hr, _, horders, hkey, hstatus, ?_⟩
  simp [Store.statusRow]

theorem retryUpdate_conflict {after : OrderRequestEntity} {n : Nat} {lastExc : Option PyError}
    {post : Except PyError OrderRequestEntity → Store → Prop} (hrow : s.orders id = some row)
    (hid : after.orderRequestId = id) (hversion : after.version ≠ row.version)
    (hrest : ∀ c, Solo post
      ((refetch order target args submittedAt after.orderRequestId (n == 0)).bind fun rebuilt =>
        retryUpdate order target args submittedAt n rebuilt
          (some (.versionConflict after.orderRequestId after.version row.version))) (tick c s)) :
    Solo post (retryUpdate order target args submittedAt (n + 1) after lastExc) s := by
  refine Program.alone_call fun c _ => ⟨trivial, ?_⟩
  have hrow' : (tick c s).orders after.orderRequestId = some row := by
    rw [hid]
    exact hrow
  simp only [exec, respond, Store.updateStatus_behind hrow' hversion]
  exact hrest c

/-- The read after a conflict finds the row: a finished one ends the transition, and an open one
is copied under the target. -/
theorem refetch_found {post : Except PyError OrderRequestEntity → Store → Prop}
    {f : OrderRequestEntity → Code OrderRequestEntity} (lastAttempt : Bool)
    (hrow : s.orders id = some row)
    (hfinished : row.status ∈ terminalStates → ∀ t, t.orders = s.orders →
      post (.error (terminalConflict order target row.status)) t)
    (hopen : row.status ∉ terminalStates → ∀ rebuilt t,
      Retargets target args submittedAt row rebuilt → t.orders = s.orders →
        Solo post (f rebuilt) t) :
    Solo post ((refetch order target args submittedAt id lastAttempt).bind f) s := by
  refine Program.alone_call fun c _ => ⟨trivial, ?_⟩
  show Solo _ (Program.bind (Program.bind (Program.ret (s.orders id)) _) _) (tick c s)
  rw [hrow]
  by_cases hstatus : row.status ∈ terminalStates
  · simp only [Program.ret_bind, hstatus, if_true]
    exact Program.alone_raise (hfinished hstatus (tick c s) rfl)
  · simp only [Program.ret_bind, hstatus, if_false, Program.bind_eq, Program.bind_assoc]
    refine alone_bookkeeping_bind (only_bookkeeping (replaceStatus_retargets ..))
      (fun _ _ _ _ => trivial) ?_ (fun e t h => by simp at h)
    rintro rebuilt t ⟨_, hrebuilt, hretargets⟩ hsame
    obtain rfl := Except.ok.inj hrebuilt
    refine alone_bookkeeping_bind (only_bookkeeping (pause_only _)) (fun _ _ _ _ => trivial) ?_
      (fun e t h => by simp at h)
    intro _ u _ hsame'
    simp only [Program.pure_eq, Program.ret_bind]
    refine hopen hstatus _ u ?_ (hsame'.orders.trans hsame.orders)
    refine { hretargets with submitted := ?_ }
    rw [hretargets.submitted, Option.isSome_or, Bool.or_assoc submittedAt.isSome, Bool.or_self]

theorem retryUpdate_open {after : OrderRequestEntity} {n : Nat} {lastExc : Option PyError}
    (hrow : s.orders id = some row) (hkey : row.orderRequestId = id)
    (hopen : row.status ∉ terminalStates) (hid : after.orderRequestId = id)
    (hstatus : after.status = target) :
    Solo (fun r t => (∃ written, r = .ok written ∧ written.orderRequestId = id ∧
        written.status = target) ∧ Replaced id row target s t)
      (retryUpdate order target args submittedAt (n + 2) after lastExc) s := by
  by_cases hversion : after.version = row.version
  · refine (retryUpdate_current order args submittedAt hrow hkey hid hversion hstatus).mono ?_
    exact fun r t h => ⟨⟨after, h.1, hid, hstatus⟩, h.2⟩
  · apply retryUpdate_conflict order args submittedAt hrow hid hversion
    intro c
    rw [hid]
    apply refetch_found order args submittedAt _ (s := tick c s) hrow
    · exact fun hfinished => absurd hfinished hopen
    · intro _ rebuilt t h horders
      have hrow' : t.orders id = some row := by
        rw [horders]
        exact hrow
      refine (retryUpdate_current order args submittedAt hrow' hkey (h.id.trans hkey) h.version
        h.status).mono ?_
      rintro r u ⟨rfl, hreplaced⟩
      exact ⟨⟨_, rfl, h.id.trans hkey, h.status⟩, hreplaced.of_orders horders⟩

theorem retryUpdate_finished {after : OrderRequestEntity} {n : Nat} {lastExc : Option PyError}
    (hrow : s.orders id = some row) (hfinished : row.status ∈ terminalStates)
    (hid : after.orderRequestId = id) (hversion : after.version ≠ row.version) :
    Solo (fun r t => (∃ e, r = .error e) ∧ t.orders = s.orders)
      (retryUpdate order target args submittedAt (n + 1) after lastExc) s := by
  apply retryUpdate_conflict order args submittedAt hrow hid hversion
  intro c
  rw [hid]
  apply refetch_found order args submittedAt _ (s := tick c s) hrow
  · exact fun _ t horders => ⟨⟨_, rfl⟩, horders⟩
  · exact fun hopen => absurd hfinished hopen

end

section

variable {row : OrderRequestEntity} {order : OrderRequestEntity} {target : OrderStatus}
variable {s : Store}

theorem transitionToCore_solo (service : Bool) {args : TransitionArgs}
    {post : Except PyError OrderRequestEntity → Store → Prop}
    (hretry : ∀ after submittedAt t, Retargets target args submittedAt order after →
      t.orders = s.orders →
        Solo post ((retryUpdate order target args submittedAt args.maxRetries after none).bind
        fun written => (recordTransition service order written target args).bind
          fun _ => .ret written) t) :
    Solo post (transitionToCore service order target args) s := by
  unfold transitionToCore
  refine alone_bookkeeping_bind (only_bookkeeping (stamp_only _)) (fun _ _ _ _ => trivial) ?_
    (fun e t h => by simp at h)
  intro submittedAt t _ ht
  refine alone_bookkeeping_bind (only_bookkeeping (replaceStatus_retargets ..))
    (fun _ _ _ _ => trivial) ?_ (fun e t h => by simp at h)
  rintro after u ⟨_, hafter, hretargets⟩ hu
  obtain rfl := Except.ok.inj hafter
  exact hretry _ submittedAt u hretargets (hu.orders.trans ht.orders)

theorem transitionTo_open (service : Bool) {args : TransitionArgs}
    (hrow : s.orders order.orderRequestId = some row)
    (hkey : row.orderRequestId = order.orderRequestId) (hopen : row.status ∉ terminalStates)
    (hallowed : target ∈ allowedTransitions order.status) (hretries : 2 ≤ args.maxRetries) :
    Solo (fun r t => (∃ written, r = .ok written ∧
        written.orderRequestId = order.orderRequestId ∧ written.status = target) ∧
      Replaced order.orderRequestId row target s t) (transitionTo service order target args) s := by
  have hvalid := (validateTransition_ok order.orderRequestId order.status target).mpr hallowed
  obtain ⟨n, hn⟩ := Nat.exists_eq_add_of_le' hretries
  unfold transitionTo
  simp only [hvalid, orRaise, Program.bind_eq, Program.ret_bind]
  apply transitionToCore_solo
  intro after submittedAt t h horders
  have hrow' : t.orders order.orderRequestId = some row := by
    rw [horders]
    exact hrow
  simp only [hn]
  refine Program.Alone.bind (retryUpdate_open order _ submittedAt hrow' hkey hopen h.id h.status) ?_
    (fun e t h => by simp at h)
  rintro written u ⟨⟨_, hok, hid, hstatus⟩, hreplaced⟩
  obtain rfl := Except.ok.inj hok
  refine alone_bookkeeping_bind (recordTransition_only ..) (fun _ _ _ _ => trivial) ?_
    (fun e t h => by simp at h)
  intro _ v _ hv
  refine Program.alone_ret ⟨⟨written, rfl, hid, hstatus⟩, ?_⟩
  exact (hreplaced.of_orders horders).same hv.orders

theorem transitionTo_finished (service : Bool) {args : TransitionArgs}
    (hrow : s.orders order.orderRequestId = some row) (hfinished : row.status ∈ terminalStates)
    (hversion : order.version ≠ row.version) (hretries : args.maxRetries ≠ 0) :
    Solo (fun r t => (∃ e, r = .error e) ∧ t.orders = s.orders)
      (transitionTo service order target args) s := by
  obtain ⟨n, hn⟩ := Nat.exists_eq_succ_of_ne_zero hretries
  unfold transitionTo
  cases validateTransition order.orderRequestId order.status target with
  | error e => exact Program.alone_raise ⟨⟨e, rfl⟩, rfl⟩
  | ok u =>
    simp only [orRaise, Program.bind_eq, Program.ret_bind]
    apply transitionToCore_solo
    intro after submittedAt t h horders
    have hrow' : t.orders order.orderRequestId = some row := by
      rw [horders]
      exact hrow
    have hbehind : after.version ≠ row.version := by
      rw [h.version]
      exact hversion
    simp only [hn]
    apply Program.Alone.bind
      (retryUpdate_finished order _ submittedAt hrow' hfinished h.id hbehind)
    · rintro written u ⟨⟨_, hok⟩, -⟩
      cases hok
    · exact fun e u h => ⟨⟨e, rfl⟩, h.2.trans horders⟩

end

end AgentTrading.Orders
