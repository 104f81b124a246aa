import AgentTrading.Orders.FinalStatus

/-! The log of order states against the status writes it is to record. An event is made
from the caller's own copy of the order and appended some operations after the write, so
the log is the history of the writes as long as a retry finds the status the caller knew
and no write overtakes an event that is still to come. -/
namespace AgentTrading.Orders
open Domain Repositories Library

/-- The logged steps of an order: the status before and the status after. -/
def eventsOf (s : Store) (id : UUID) : List (Option OrderStatus × OrderStatus) :=
  (s.orderStateEvents.filter fun event => event.orderRequestId = id).map fun event =>
    (event.previousStatus, event.newStatus)

/-- The status writes of an order: the status replaced and the status stored. -/
def writesOf (s : Store) (id : UUID) : List (Option OrderStatus × OrderStatus) :=
  (s.statusWrites.filter fun w => w.1.orderRequestId = id).map fun w =>
    (some w.1.status, w.2.status)

/-- The status that a history leads to, when each of its steps goes on from the one before. -/
def replay : OrderStatus → List (Option OrderStatus × OrderStatus) → Option OrderStatus
  | current, [] => some current
  | current, (previous, new) :: rest => if previous = some current then replay new rest else none

theorem replay_append (start current : OrderStatus)
    (steps rest : List (Option OrderStatus × OrderStatus)) (h : replay start steps = some current) :
    replay start (steps ++ rest) = replay current rest := by
  induction steps generalizing start with
  | nil =>
    obtain rfl := Option.some.inj h
    rfl
  | cons step steps ih =>
    obtain ⟨previous, new⟩ := step
    by_cases hstep : previous = some start
    · simp only [replay, hstep, if_true] at h
      simp only [List.cons_append, replay, hstep, if_true]
      exact ih new h
    · simp only [replay, hstep, if_false, reduceCtorEq] at h

/-- The log of the order is the list of its status writes, and replaying it from the status
the order was created with leads to the stored status. -/
structure ExactHistory (created : OrderRequestEntity) (s : Store) : Prop where
  recorded : eventsOf s created.orderRequestId = writesOf s created.orderRequestId
  replayed : replay created.status (eventsOf s created.orderRequestId) =
    (s.orders created.orderRequestId).map (·.status)

/-! The parts of a call: before its write, between the write and the event, and after. -/

/-- The event of the call's write of order `id`. -/
def Records (job : ManagerCall) (id : UUID) : Op → Prop
  | .orderStateEventsAdd event => event.orderRequestId = id ∧
      event.previousStatus = some job.order.status ∧ event.newStatus = job.target
  | _ => False

/-- The call has written order `id` and is about to record it. -/
abbrev Written (job : ManagerCall) (id : UUID) (p : Code OrderRequestEntity) : Prop :=
  p.Due Op.Silent (Records job id) fun rest => rest.Only Op.Silent fun _ => True

/-- The call records nothing but a write of its own. -/
def Unwritten (job : ManagerCall) : Code OrderRequestEntity → Prop
  | .ret _ => True
  | .raise _ => True
  | .call (.ordersUpdateStatus id status _ _ _ _) k =>
    status = job.target ∧ Written job id (k (.ok ())) ∧ ∀ e, Unwritten job (k (.error e))
  | .call (.orderStateEventsAdd _) _ => False
  | .call _ k => ∀ r, Unwritten job (k r)

theorem unwritten_call (job : ManagerCall) {op : Op} (hop : op.Silent)
    (k : Reply op → Code OrderRequestEntity) :
    Unwritten job (.call op k) ↔ ∀ r, Unwritten job (k r) := by
  cases op <;> first | rfl | exact hop.elim

theorem unwritten_bind (job : ManagerCall) {Q : Except PyError α → Prop} {p : Code α}
    {f : α → Code OrderRequestEntity} (hp : p.Only Op.Silent Q)
    (hf : ∀ a, Q (.ok a) → Unwritten job (f a)) : Unwritten job (p.bind f) := by
  induction p with
  | ret a => exact hf a hp
  | raise e => trivial
  | call op k ih => exact (unwritten_call job hp.1 _).mpr fun r => ih r (hp.2 r)

theorem unwritten_silent (job : ManagerCall) {Q : Except PyError OrderRequestEntity → Prop}
    {p : Code OrderRequestEntity} (hp : p.Only Op.Silent Q) : Unwritten job p := by
  rw [← Program.bind_ret p]
  exact unwritten_bind job hp fun _ _ => trivial

theorem Op.Aside.silent {op : Op} (h : op.Aside) : op.Silent := by
  cases op <;> trivial

theorem only_silent {Q : Except PyError α → Prop} {p : Code α} (hp : p.Only Op.Noting Q) :
    p.Only Op.Silent Q :=
  hp.mono (fun _ h => h.aside.silent) fun _ => id

theorem refetch_silent (order : OrderRequestEntity) (target : OrderStatus) (args : TransitionArgs)
    (submittedAt : Option Time) (id : UUID) (lastAttempt : Bool) :
    (refetch order target args submittedAt id lastAttempt).Only Op.Silent
      fun r => ∀ rebuilt, r = .ok rebuilt → rebuilt.status = target := by
  refine ⟨trivial, fun latest => ?_⟩
  cases latest with
  | none => exact fun _ h => by cases h
  | some latest =>
    by_cases hterminal : latest.status ∈ terminalStates
    · simp only [Program.ret_bind, hterminal, if_true]
      exact fun _ h => by cases h
    · simp only [Program.ret_bind, hterminal, if_false]
      refine (only_silent (replaceStatus_only ..)).bind (fun rebuilt h => ?_)
        fun e h => by simp at h
      obtain ⟨_, _, hrebuilt⟩ := h
      refine (only_silent (pause_only _)).bind (fun _ _ => ?_) fun e h => by cases h
      intro result hresult
      rw [← Except.ok.inj hresult, Except.ok.inj hrebuilt]

theorem recordTransition_written (service : Bool) (job : ManagerCall) (args : TransitionArgs)
    (after : OrderRequestEntity) (hstatus : after.status = job.target)
    (f : OrderRequestEntity → Code OrderRequestEntity)
    (hf : ∀ a, (f a).Only Op.Silent fun _ => True) :
    Written job after.orderRequestId
      ((recordTransition service job.order after job.target args).bind fun _ => f after) := by
  refine Or.inr ⟨trivial, fun _ => Or.inr ⟨trivial, fun _ => Or.inr ⟨trivial, fun _ => ?_⟩⟩⟩
  refine Or.inl ⟨⟨rfl, rfl, hstatus⟩, fun _ => ?_⟩
  have hrest := (recordRest_only service job.order after job.target args).mono
    (fun _ h => h.silent) fun _ => id
  exact hrest.bind (fun _ _ => hf after) fun _ _ => trivial

/-- The loop reaches the record only behind a write: it has attempts left, or a conflict to
raise. -/
theorem retryUpdate_unwritten (service : Bool) (job : ManagerCall) (args : TransitionArgs)
    (submittedAt : Option Time) (f : OrderRequestEntity → Code OrderRequestEntity)
    (hf : ∀ a, (f a).Only Op.Silent fun _ => True) (n : Nat) (after : OrderRequestEntity)
    (lastExc : Option PyError) (hn : 0 < n ∨ lastExc.isSome) (hstatus : after.status = job.target) :
    Unwritten job ((retryUpdate job.order job.target args submittedAt n after lastExc).bind
      fun written => (recordTransition service job.order written job.target args).bind
        fun _ => f written) := by
  induction n generalizing after lastExc with
  | zero =>
    cases lastExc with
    | none => simp only [lt_irrefl, Option.isSome_none, Bool.false_eq_true, or_self] at hn
    | some e => trivial
  | succ n ih =>
    refine ⟨hstatus, recordTransition_written service job args after hstatus f hf, fun e => ?_⟩
    cases e with
    | versionConflict id expected actual =>
      simp only [Program.ret_bind, Program.bind_eq, Program.bind_assoc]
      refine unwritten_bind job (refetch_silent ..) fun rebuilt h => ?_
      exact ih rebuilt (some (.versionConflict id expected actual)) (Or.inr rfl) (h rebuilt rfl)
    | _ => trivial

theorem code_unwritten (service : Bool) (job : ManagerCall) (hretries : 0 < job.maxRetries) :
    Unwritten job (job.code service) := by
  rcases code_cases service job with ⟨e, hcode⟩ | ⟨args, f, hcode, hf, -, hargs⟩
  · rw [hcode]
    trivial
  · rw [hcode]
    simp only [transitionToCore, Program.bind_eq, Program.bind_assoc, Program.pure_eq,
      Program.ret_bind]
    refine unwritten_bind job (only_silent (stamp_only _)) fun submittedAt _ => ?_
    refine unwritten_bind job (only_silent (replaceStatus_only ..)) fun after hafter => ?_
    obtain ⟨_, _, hafter⟩ := hafter
    have hstatus : after.status = job.target := by rw [Except.ok.inj hafter]
    exact retryUpdate_unwritten service job args submittedAt f hf args.maxRetries after none
      (Or.inl (by rw [hargs]; exact hretries)) hstatus

/-! What one operation does to the log and to the writes. -/

theorem exec_events (c : Choice) (op : Op) (s : Store)
    (h : ∀ event, op ≠ .orderStateEventsAdd event) :
    (exec c op s).2.orderStateEvents = s.orderStateEvents := by
  cases op
  case orderStateEventsAdd event => exact (h event rfl).elim
  case ordersUpdateStatus id status rc rm expected submittedAt =>
    obtain ⟨orders, writes, h⟩ :=
      (tick c s).updateStatus_frame id status rc rm expected submittedAt
    simp only [exec, respond, h]
    rfl
  case reconciliationsAcquireLock key reason runId expiresAt =>
    obtain ⟨locks, h⟩ := (tick c s).acquireLock_frame key reason runId expiresAt
    simp only [exec, respond, h]
    rfl
  case reconciliationsReleaseLock accountId strategyId symbol side runId =>
    obtain ⟨locks, h⟩ := (tick c s).releaseLock_frame accountId strategyId symbol side runId
    simp only [exec, respond, h]
    rfl
  case reconciliationsIsLocked key =>
    obtain ⟨locks, h⟩ := (tick c s).isLocked_frame key
    simp only [exec, respond, h]
    rfl
  all_goals rfl

/-- The log, the writes and the rows of two stores agree. -/
structure SameHistory (s t : Store) : Prop where
  orders : t.orders = s.orders
  writes : ∀ id, writesOf t id = writesOf s id
  events : ∀ id, eventsOf t id = eventsOf s id

theorem exec_silent (c : Choice) (op : Op) (s : Store) (h : op.Silent) :
    SameHistory s (exec c op s).2 := by
  obtain ⟨horders, hwrites⟩ := exec_keepsStatus c op s h.keepsStatus
  have hevents := exec_events c op s (by rintro event rfl; exact h)
  refine ⟨horders, fun id => ?_, fun id => ?_⟩
  · simp only [writesOf, hwrites]
  · simp only [eventsOf, hevents]

theorem eventsOf_add (c : Choice) (s : Store) (event : OrderStateEventEntity) (id : UUID) :
    eventsOf (exec c (.orderStateEventsAdd event) s).2 id = eventsOf s id ++
      if event.orderRequestId = id then [(event.previousStatus, event.newStatus)] else [] := by
  simp only [exec, respond, tick, eventsOf, List.filter_append, List.map_append]
  by_cases h : event.orderRequestId = id
  · simp [h]
  · simp [h]

theorem writesOf_writeOrder (s : Store) (id other : UUID) (current row : OrderRequestEntity)
    (hkey : current.orderRequestId = id) :
    writesOf (s.writeOrder id current row) other = writesOf s other ++
      if id = other then [(some current.status, row.status)] else [] := by
  simp only [writesOf, Store.writeOrder, List.filter_append, List.map_append]
  by_cases h : id = other
  · simp [h, hkey]
  · simp [h, hkey]

abbrev ManagerPool := Pool Op Reply PyError OrderRequestEntity ManagerCall Store

/-- `pending` names for each order the call, if any, whose write is still to be recorded. -/
structure Logged (w : ManagerPool) (pending : UUID → Option Nat) : Prop where
  recorded : ∀ id, pending id = none → writesOf w.shared id = eventsOf w.shared id
  due : ∀ id t, pending id = some t → ∃ job p, w.threads t = some (job, p) ∧
    job.order.orderRequestId = id ∧ Written job id p ∧
    writesOf w.shared id = eventsOf w.shared id ++ [(some job.order.status, job.target)]
  others : ∀ t job p, w.threads t = some (job, p) →
    pending job.order.orderRequestId ≠ some t → Unwritten job p

/-- A write succeeds only on the status the caller's copy has, unless the version is still the
copy's own, and only when the earlier writes of the order are in the log. -/
def Recordable (job : ManagerCall) (_ : Choice) (op : Op) (s : Store) : Prop :=
  match op with
  | .ordersUpdateStatus id _ _ _ expected _ => ∀ row, s.orders id = some row →
      expected = some row.version →
        (row.version ≠ job.order.version → row.status = job.order.status) ∧
        (eventsOf s id).length = (writesOf s id).length
  | _ => True

theorem logged_same {w : ManagerPool} {pending : UUID → Option Nat} (hw : Logged w pending)
    {t : Nat} {job : ManagerCall} {p p' : Code OrderRequestEntity} {s : Store}
    (ht : w.threads t = some (job, p)) (hsame : SameHistory w.shared s)
    (hdue : pending job.order.orderRequestId = some t → Written job job.order.orderRequestId p →
      Written job job.order.orderRequestId p')
    (hother : pending job.order.orderRequestId ≠ some t → Unwritten job p → Unwritten job p') :
    Logged ⟨s, Function.update w.threads t (some (job, p'))⟩ pending := by
  refine ⟨fun id h => ?_, fun id u h => ?_, fun u j q hu hne => ?_⟩
  · rw [hsame.writes, hsame.events]
    exact hw.recorded id h
  · obtain ⟨j, q, hu, hid, hwritten, hwrites⟩ := hw.due id u h
    rw [hsame.writes, hsame.events]
    by_cases htu : u = t
    · subst htu
      obtain ⟨rfl, rfl⟩ := Prod.mk.inj (Option.some.inj (ht.symm.trans hu))
      subst hid
      exact ⟨job, p', Function.update_self .., rfl, hdue h hwritten, hwrites⟩
    · exact ⟨j, q, (Function.update_of_ne htu ..).trans hu, hid, hwritten, hwrites⟩
  · by_cases htu : u = t
    · subst htu
      simp only [Function.update_self, Option.some.injEq, Prod.mk.injEq] at hu
      obtain ⟨rfl, rfl⟩ := hu
      exact hother hne (hw.others u job p ht hne)
    · simp only [Function.update_of_ne htu] at hu
      exact hw.others u j q hu hne

theorem logged_event {w : ManagerPool} {pending : UUID → Option Nat} (hw : Logged w pending)
    {t : Nat} {job : ManagerCall} {p p' : Code OrderRequestEntity} (c : Choice)
    {event : OrderStateEventEntity} (ht : w.threads t = some (job, p))
    (hpending : pending job.order.orderRequestId = some t)
    (hevent : Records job job.order.orderRequestId (.orderStateEventsAdd event))
    (hrest : Unwritten job p') :
    Logged ⟨(exec c (.orderStateEventsAdd event) w.shared).2,
        Function.update w.threads t (some (job, p'))⟩
      (Function.update pending job.order.orderRequestId none) := by
  obtain ⟨hid, hprevious, hnew⟩ := hevent
  have hwrites : ∀ id, writesOf (exec c (.orderStateEventsAdd event) w.shared).2 id =
      writesOf w.shared id := fun _ => rfl
  have hevents : ∀ id, id ≠ job.order.orderRequestId →
      eventsOf (exec c (.orderStateEventsAdd event) w.shared).2 id = eventsOf w.shared id := by
    intro id hne
    rw [eventsOf_add, hid, if_neg (Ne.symm hne), List.append_nil]
  refine ⟨fun id h => ?_, fun id u h => ?_, fun u j q hu hne => ?_⟩
  · by_cases hj : id = job.order.orderRequestId
    · obtain ⟨j, q, hu, -, -, hlast⟩ := hw.due _ t hpending
      obtain ⟨rfl, rfl⟩ := Prod.mk.inj (Option.some.inj (ht.symm.trans hu))
      rw [hj, hwrites, eventsOf_add, hid, if_pos rfl, hprevious, hnew]
      exact hlast
    · rw [Function.update_of_ne hj] at h
      rw [hwrites, hevents id hj]
      exact hw.recorded id h
  · by_cases hj : id = job.order.orderRequestId
    · simp only [hj, Function.update_self, reduceCtorEq] at h
    · rw [Function.update_of_ne hj] at h
      obtain ⟨j, q, hu, hjid, hwritten, hlast⟩ := hw.due id u h
      have htu : u ≠ t := by
        rintro rfl
        obtain ⟨rfl, -⟩ := Prod.mk.inj (Option.some.inj (ht.symm.trans hu))
        exact hj hjid.symm
      refine ⟨j, q, (Function.update_of_ne htu ..).trans hu, hjid, hwritten, ?_⟩
      rw [hwrites, hevents id hj]
      exact hlast
  · by_cases htu : u = t
    · subst htu
      simp only [Function.update_self, Option.some.injEq, Prod.mk.injEq] at hu
      obtain ⟨rfl, rfl⟩ := hu
      exact hrest
    · simp only [Function.update_of_ne htu] at hu
      refine hw.others u j q hu fun hu' => ?_
      by_cases hj : j.order.orderRequestId = job.order.orderRequestId
      · rw [hj, hpending] at hu'
        exact htu (Option.some.inj hu').symm
      · rw [Function.update_of_ne hj] at hne
        exact hne hu'

theorem logged_write {w : ManagerPool} {pending : UUID → Option Nat} (hw : Logged w pending)
    {t : Nat} {job : ManagerCall} {p p' : Code OrderRequestEntity} {s : Store}
    {current row : OrderRequestEntity} (ht : w.threads t = some (job, p))
    (hpending : pending job.order.orderRequestId = none)
    (hsame : SameHistory w.shared s) (hkey : current.orderRequestId = job.order.orderRequestId)
    (hcurrent : current.status = job.order.status) (hrow : row.status = job.target)
    (hwritten : Written job job.order.orderRequestId p') :
    Logged ⟨s.writeOrder job.order.orderRequestId current row,
        Function.update w.threads t (some (job, p'))⟩
      (Function.update pending job.order.orderRequestId (some t)) := by
  have hevents : ∀ id, eventsOf (s.writeOrder job.order.orderRequestId current row) id =
      eventsOf w.shared id := fun id => hsame.events id
  have hwrites : ∀ id, id ≠ job.order.orderRequestId →
      writesOf (s.writeOrder job.order.orderRequestId current row) id = writesOf w.shared id := by
    intro id hne
    rw [writesOf_writeOrder _ _ _ _ _ hkey, if_neg (Ne.symm hne), List.append_nil, hsame.writes]
  refine ⟨fun id h => ?_, fun id u h => ?_, fun u j q hu hne => ?_⟩
  · by_cases hj : id = job.order.orderRequestId
    · simp only [hj, Function.update_self, reduceCtorEq] at h
    · rw [Function.update_of_ne hj] at h
      rw [hevents, hwrites id hj]
      exact hw.recorded id h
  · by_cases hj : id = job.order.orderRequestId
    · subst hj
      simp only [Function.update_self, Option.some.injEq] at h
      subst h
      refine ⟨job, p', Function.update_self .., rfl, hwritten, ?_⟩
      rw [writesOf_writeOrder _ _ _ _ _ hkey, if_pos rfl, hevents, hsame.writes, hcurrent, hrow,
        hw.recorded _ hpending]
    · rw [Function.update_of_ne hj] at h
      obtain ⟨j, q, hu, hjid, hjwritten, hlast⟩ := hw.due id u h
      have htu : u ≠ t := by
        rintro rfl
        obtain ⟨rfl, -⟩ := Prod.mk.inj (Option.some.inj (ht.symm.trans hu))
        exact hj hjid.symm
      refine ⟨j, q, (Function.update_of_ne htu ..).trans hu, hjid, hjwritten, ?_⟩
      rw [hevents, hwrites id hj]
      exact hlast
  · by_cases htu : u = t
    · subst htu
      simp only [Function.update_self, Option.some.injEq, Prod.mk.injEq] at hu
      obtain ⟨rfl, rfl⟩ := hu
      exact (hne (Function.update_self ..)).elim
    · simp only [Function.update_of_ne htu] at hu
      refine hw.others u j q hu fun hu' => ?_
      by_cases hj : j.order.orderRequestId = job.order.orderRequestId
      · rw [hj, hpending] at hu'
        cases hu'
      · rw [Function.update_of_ne hj] at hne
        exact hne hu'

theorem exec_update_cases (c : Choice) (s : Store) (id : UUID) (status : OrderStatus)
    (rc rm : Option String) (expected : Option Nat) (submittedAt : Option Time) :
    (∃ e, (exec c (.ordersUpdateStatus id status rc rm expected submittedAt) s).1 = .error e ∧
      SameHistory s (exec c (.ordersUpdateStatus id status rc rm expected submittedAt) s).2) ∨
    ∃ current row, s.orders id = some current ∧ (∀ v, expected = some v → v = current.version) ∧
      row.status = status ∧
      exec c (.ordersUpdateStatus id status rc rm expected submittedAt) s =
        (.ok (), (tick c s).writeOrder id current row) := by
  rcases (tick c s).updateStatus_cases id status rc rm expected submittedAt with
    ⟨-, heq⟩ | ⟨current, v, -, -, -, heq⟩ | ⟨current, hcurrent, hv, heq⟩
  · exact Or.inl ⟨_, congrArg Prod.fst heq, by
      simp only [exec, respond, heq]; exact ⟨rfl, fun _ => rfl, fun _ => rfl⟩⟩
  · exact Or.inl ⟨_, congrArg Prod.fst heq, by
      simp only [exec, respond, heq]; exact ⟨rfl, fun _ => rfl, fun _ => rfl⟩⟩
  · exact Or.inr ⟨current, _, hcurrent, hv, rfl, heq⟩

theorem replayed_step (start : OrderStatus) (c : Choice) (op : Op) (s : Store) (id : UUID)
    (hkeyed : ∀ id row, s.orders id = some row → row.orderRequestId = id)
    (h : replay start (writesOf s id) = (s.orders id).map (·.status)) :
    replay start (writesOf (exec c op s).2 id) = ((exec c op s).2.orders id).map (·.status) := by
  by_cases hop : op.KeepsStatus
  · obtain ⟨horders, hwrites⟩ := exec_keepsStatus c op s hop
    simp only [writesOf, hwrites, horders]
    exact h
  · cases op with
    | ordersUpdateStatus written status rc rm expected submittedAt =>
      rcases exec_update_cases c s written status rc rm expected submittedAt with
        ⟨e, -, hsame⟩ | ⟨current, row, hcurrent, -, hrow, heq⟩
      · rw [hsame.writes, hsame.orders]
        exact h
      · rw [heq]
        dsimp only
        rw [writesOf_writeOrder _ _ _ _ _ (hkeyed written current hcurrent)]
        by_cases hid : written = id
        · subst hid
          rw [hcurrent] at h
          rw [if_pos rfl, show writesOf (tick c s) written = writesOf s written from rfl,
            replay_append start current.status _ _ h]
          simp only [replay, if_true, Store.writeOrder, Function.update_self, Option.map_some]
        · rw [if_neg hid, List.append_nil]
          simp only [Store.writeOrder, Function.update_of_ne (Ne.symm hid)]
          exact h
    | _ => exact (hop trivial).elim

abbrev AnyStatus (_ _ : OrderStatus) : Prop := True

/-- The invariant of a run: callers hold copies, each write is recorded or due, and the writes
lead from the statuses in `initial` to the stored ones. -/
structure Tracked (initial : Store) (w : ManagerPool) : Prop where
  guarded : Pool.Guarded exec (LaterBy AnyStatus) Recordable
    (fun job _ op s => VersionedWrite AnyStatus job.order.orderRequestId op s)
    (VersionedBy AnyStatus) w
  copies : ∀ t job p, w.threads t = some (job, p) → WasStored w.shared job.order
  logged : ∃ pending, Logged w pending
  replayed : ∀ id row, initial.orders id = some row →
    replay row.status (writesOf w.shared id) = (w.shared.orders id).map (·.status)

/-- Callers start from a row of the past and make at least one attempt. -/
def Attempts (job : ManagerCall) (s : Store) : Prop := WasStored s job.order ∧ 0 < job.maxRetries

theorem logged_start {w : ManagerPool} {pending : UUID → Option Nat} (hw : Logged w pending)
    {t : Nat} {job : ManagerCall} {p : Code OrderRequestEntity} (ht : w.threads t = none)
    (hp : Unwritten job p) :
    Logged { w with threads := Function.update w.threads t (some (job, p)) } pending := by
  refine ⟨hw.recorded, fun id u h => ?_, fun u j q hu hne => ?_⟩
  · obtain ⟨j, q, hu, hrest⟩ := hw.due id u h
    have htu : u ≠ t := by
      rintro rfl
      rw [ht] at hu
      cases hu
    exact ⟨j, q, (Function.update_of_ne htu ..).trans hu, hrest⟩
  · by_cases htu : u = t
    · subst htu
      simp only [Function.update_self, Option.some.injEq, Prod.mk.injEq] at hu
      obtain ⟨rfl, rfl⟩ := hu
      exact hp
    · simp only [Function.update_of_ne htu] at hu
      exact hw.others u j q hu hne

theorem logged_step {w : ManagerPool} {pending : UUID → Option Nat} (hw : Logged w pending)
    {t : Nat} {job : ManagerCall} {op : Op} {k : Reply op → Code OrderRequestEntity} (c : Choice)
    (ht : w.threads t = some (job, .call op k)) (hversioned : VersionedBy AnyStatus w.shared)
    (hcopy : WasStored w.shared job.order) (hmay : Recordable job c op w.shared)
    (hgood : VersionedWrite AnyStatus job.order.orderRequestId op w.shared) :
    ∃ pending', Logged ⟨(exec c op w.shared).2,
      Function.update w.threads t (some (job, k (exec c op w.shared).1))⟩ pending' := by
  by_cases hsilent : op.Silent
  · refine ⟨pending, logged_same hw ht (exec_silent c op w.shared hsilent) (fun _ hdue => ?_)
      fun _ h => (unwritten_call job hsilent k).mp h _⟩
    rcases hdue with ⟨hevent, -⟩ | ⟨-, hlater⟩
    · cases op <;> first | exact hevent.elim | exact hsilent.elim
    · exact hlater _
  · by_cases hpending : pending job.order.orderRequestId = some t
    · obtain ⟨j, q, hu, -, hwritten, -⟩ := hw.due _ t hpending
      obtain ⟨rfl, rfl⟩ := Prod.mk.inj (Option.some.inj (ht.symm.trans hu))
      rcases hwritten with ⟨hevent, hrest⟩ | ⟨hlater, -⟩
      · cases op with
        | orderStateEventsAdd event =>
          exact ⟨_, logged_event hw c ht hpending hevent (unwritten_silent job (hrest _))⟩
        | _ => exact hevent.elim
      · exact (hsilent hlater).elim
    · have hunwritten := hw.others t job _ ht hpending
      cases op with
      | ordersUpdateStatus id status rc rm expected submittedAt =>
        obtain ⟨rfl, hsome, -⟩ := hgood
        obtain ⟨v, rfl⟩ := Option.isSome_iff_exists.mp hsome
        obtain ⟨hstatus, hwritten, herror⟩ := hunwritten
        rcases exec_update_cases c w.shared job.order.orderRequestId status rc rm (some v)
          submittedAt with ⟨e, hreply, hsame⟩ | ⟨current, row, hcurrent, hv, hrow, heq⟩
        · refine ⟨pending, logged_same hw ht hsame (fun h => (hpending h).elim) fun _ _ => ?_⟩
          rw [hreply]
          exact herror e
        · obtain rfl := hv v rfl
          obtain ⟨hsame, hcaught⟩ := hmay current hcurrent rfl
          have hnone : pending job.order.orderRequestId = none := by
            cases h : pending job.order.orderRequestId with
            | none => rfl
            | some u =>
              obtain ⟨j, q, -, -, -, hlast⟩ := hw.due _ u h
              rw [hlast, List.length_append, List.length_singleton] at hcaught
              omega
          have hbefore : current.status = job.order.status := by
            by_cases hversion : current.version = job.order.version
            · obtain ⟨r, hr, -, hrow⟩ := hversioned.older job.order hcopy
              rw [hcurrent] at hr
              obtain rfl := Option.some.inj hr
              rw [hrow hversion.symm]
            · exact hsame hversion
          rw [heq]
          exact ⟨_, logged_write hw ht hnone ⟨rfl, fun _ => rfl, fun _ => rfl⟩
            (hversioned.keyed _ current hcurrent) hbefore (hrow.trans hstatus) hwritten⟩
      | orderStateEventsAdd event => exact hunwritten.elim
      | _ => exact (hsilent trivial).elim

theorem tracked_step (service : Bool) (initial : Store) (w : ManagerPool)
    (e : Pool.Event ManagerCall Choice) (hw : Tracked initial w)
    (he : Pool.Allows Attempts Recordable w e) :
    Tracked initial (Pool.step exec (ManagerCall.code service) w e) := by
  have hkeeps : ∀ (job : ManagerCall) c op s, VersionedBy AnyStatus s →
      VersionedWrite AnyStatus job.order.orderRequestId op s →
      VersionedBy AnyStatus (exec c op s).2 ∧ LaterBy AnyStatus s (exec c op s).2 := by
    intro job c op s hs hgood
    have hlater := exec_later _ c op s hs.keyed hgood
    exact ⟨hlater.versioned hs, hlater⟩
  have hbegins : ∀ job, WriteSafe AnyStatus (Recordable job) job.order
      (ManagerCall.code service job) := by
    intro job
    exact code_safe service job job.order (fun _ _ _ _ _ _ _ => trivial) rfl rfl fun _ => trivial
  have hguarded := Pool.guarded_step (later_refl AnyStatus) (later_trans AnyStatus)
    (fun job s hs hentry => hbegins job s ⟨hs, hentry.1⟩) hkeeps w e hw.guarded he
  obtain ⟨pending, hlogged⟩ := hw.logged
  cases e with
  | start t job =>
    cases ht : w.threads t with
    | some x => simpa only [Pool.step, ht] using hw
    | none =>
      simp only [Pool.step, ht] at hguarded ⊢
      refine ⟨hguarded, fun u j p hu => ?_, ⟨pending, logged_start hlogged ht
        (code_unwritten service job (he ht).2)⟩, hw.replayed⟩
      by_cases htu : u = t
      · subst htu
        simp only [Function.update_self, Option.some.injEq, Prod.mk.injEq] at hu
        obtain ⟨rfl, -⟩ := hu
        exact (he ht).1
      · simp only [Function.update_of_ne htu] at hu
        exact hw.copies u j p hu
  | step t c =>
    simp only [Pool.step] at hguarded ⊢
    split at hguarded <;> rename_i hthread
    · rename_i job op k
      have hmay : Recordable job c op w.shared := by simpa only [Pool.Allows, hthread] using he
      have hgood := (hw.guarded.threads t job _ hthread w.shared c (later_refl _ _) hmay).1
      have hlater := (hkeeps job c op w.shared hw.guarded.shared hgood).2
      refine ⟨hguarded, fun u j p hu => ?_, logged_step hlogged c hthread hw.guarded.shared
        (hw.copies t job _ hthread) hmay hgood, fun id row hrow => replayed_step row.status c op
          w.shared id hw.guarded.shared.keyed (hw.replayed id row hrow)⟩
      by_cases htu : u = t
      · subst htu
        simp only [Function.update_self, Option.some.injEq, Prod.mk.injEq] at hu
        obtain ⟨rfl, -⟩ := hu
        exact hlater.stored _ (hw.copies u job _ hthread)
      · simp only [Function.update_of_ne htu] at hu
        exact hlater.stored _ (hw.copies u j p hu)
    · exact hw

/-- Any number of calls from rows of the past, interleaved in any order, that attempt at least
one write each and write only what the log can record. -/
abbrev RecordedRun (service : Bool) (s : Store) (es : List (Pool.Event ManagerCall Choice)) :
    Prop :=
  Pool.Meets exec (ManagerCall.code service) Attempts Recordable (Pool.idle s) es

abbrev poolAfter (service : Bool) (s : Store) (es : List (Pool.Event ManagerCall Choice)) :
    ManagerPool :=
  Pool.run exec (ManagerCall.code service) (Pool.idle s) es

theorem run_tracked (service : Bool) (s : Store) (es : List (Pool.Event ManagerCall Choice))
    (hs : Untouched s) (hevents : s.orderStateEvents = []) (hes : RecordedRun service s es) :
    Tracked s (poolAfter service s es) := by
  have hwrites : ∀ id, writesOf s id = [] := by
    intro id
    simp only [writesOf, hs.unwritten, List.filter_nil, List.map_nil]
  have hidle : Tracked s (Pool.idle s) := by
    have hthreads : ∀ t job p, (Pool.idle s : ManagerPool).threads t ≠ some (job, p) :=
      fun t job p ht => by cases ht
    refine ⟨Pool.guarded_idle (untouched_versioned hs), fun t job p ht =>
      (hthreads t job p ht).elim,
      ⟨fun _ => none, fun id _ => ?_, fun id t h => (nomatch h),
        fun t job p ht => (hthreads t job p ht).elim⟩,
      fun id row hrow => ?_⟩
    · rw [Pool.idle, hwrites]
      simp only [eventsOf, hevents, List.filter_nil, List.map_nil]
    · rw [Pool.idle, hwrites, hrow]
      rfl
  exact Runs.run_keeps _ (tracked_step service s) _ es hidle hes

/-- At every point of such a run the log lacks at most the write that was made last, and where
all calls have ended it is the exact history of the order. -/
theorem stateEvents_record_writes (service : Bool) (s : Store)
    (es : List (Pool.Event ManagerCall Choice)) (hs : Untouched s)
    (hevents : s.orderStateEvents = []) (hes : RecordedRun service s es)
    (created : OrderRequestEntity) (hcreated : s.orders created.orderRequestId = some created) :
    (writesOf (poolAfter service s es).shared created.orderRequestId =
        eventsOf (poolAfter service s es).shared created.orderRequestId ∨
      ∃ step, writesOf (poolAfter service s es).shared created.orderRequestId =
        eventsOf (poolAfter service s es).shared created.orderRequestId ++ [step]) ∧
    ((poolAfter service s es).Finished → ExactHistory created (poolAfter service s es).shared) := by
  have htracked := run_tracked service s es hs hevents hes
  generalize poolAfter service s es = w at htracked
  obtain ⟨pending, hlogged⟩ := htracked.logged
  have hreplayed := htracked.replayed _ created hcreated
  cases hpending : pending created.orderRequestId with
  | none =>
    have hrecorded := hlogged.recorded _ hpending
    refine ⟨Or.inl hrecorded, fun _ => ⟨hrecorded.symm, ?_⟩⟩
    rw [← hrecorded]
    exact hreplayed
  | some t =>
    obtain ⟨job, p, ht, -, hdue, hlast⟩ := hlogged.due _ t hpending
    refine ⟨Or.inr ⟨_, hlast⟩, fun hfinished => ?_⟩
    -- a call with a write still to record has not ended
    have hended := hfinished t
    rw [ht] at hended
    cases p with
    | ret a => exact hdue.elim
    | raise e => exact hdue.elim
    | call op k => cases hended

/-- A caller on its way to `filled` is overtaken by one that writes `other`, and goes on from
the row that one has left. -/
def overtakenBy (other : ManagerCall) : List (Pool.Event ManagerCall Choice) :=
  [.start 0 (.transitionTo (sampleOrder .acknowledged) .filled {}), .start 1 other] ++
    List.replicate 9 (.step 1 idleChoice) ++ List.replicate 13 (.step 0 idleChoice)

theorem overtakenBy_finished {s : Store} {other : ManagerCall}
    (hfirst : ((poolAfter false s (overtakenBy other)).threads 0).all fun x => x.2.ended)
    (hsecond : ((poolAfter false s (overtakenBy other)).threads 1).all fun x => x.2.ended) :
    (poolAfter false s (overtakenBy other)).Finished
  | 0 => hfirst
  | 1 => hsecond
  | t + 2 => by
    have hnone := Pool.threads_unstarted exec (ManagerCall.code false) (Pool.idle s) (t + 2)
      (overtakenBy other) rfl (by simp [overtakenBy])
    rw [poolAfter, hnone]
    rfl

/-- The broker's reply reflected in between leaves the status the caller knew. -/
def reflection : ManagerCall :=
  .transitionToAuthoritative (sampleOrder .acknowledged) .acknowledged 9 none 3

theorem stateEvents_record_writes_reflection :
    RecordedRun false (Store.holding (sampleOrder .acknowledged) 0) (overtakenBy reflection) ∧
      (writesOf (poolAfter false (Store.holding (sampleOrder .acknowledged) 0)
        (overtakenBy reflection)).shared 1).length = 2 ∧
      ExactHistory (sampleOrder .acknowledged) (poolAfter false
        (Store.holding (sampleOrder .acknowledged) 0) (overtakenBy reflection)).shared := by
  have hfirst : WasStored (Store.holding (sampleOrder .acknowledged) 0)
      (sampleOrder .acknowledged) := Or.inl rfl
  have hrun : RecordedRun false (Store.holding (sampleOrder .acknowledged) 0)
      (overtakenBy reflection) := by
    refine ⟨fun _ => ⟨hfirst, by decide⟩, fun _ => ⟨hfirst, by decide⟩, trivial, ?_, trivial,
      trivial, trivial, trivial, trivial, trivial, trivial, trivial, ?_, trivial, trivial, trivial,
      ?_, trivial, trivial, trivial, trivial, trivial, trivial, trivial, trivial⟩
    · intro row hrow _
      obtain rfl := Option.some.inj hrow
      exact ⟨fun _ => rfl, rfl⟩
    · intro row hrow hversion
      obtain rfl := Option.some.inj hrow
      cases hversion
    · intro row hrow _
      obtain rfl := Option.some.inj hrow
      exact ⟨fun _ => rfl, rfl⟩
  exact ⟨hrun, rfl, (stateEvents_record_writes false _ _ (untouched_holding _ _) rfl hrun
    (sampleOrder .acknowledged) rfl).2 (overtakenBy_finished rfl rfl)⟩

def partialFill : ManagerCall := .transitionTo (sampleOrder .acknowledged) .partiallyFilled {}

/-- Overtaken by a partial fill, the caller's event says that the order went from acknowledged
to filled. -/
theorem stateEvents_overtaken :
    CallsRun false (Store.holding (sampleOrder .acknowledged) 0) (overtakenBy partialFill) ∧
      (poolAfter false (Store.holding (sampleOrder .acknowledged) 0)
        (overtakenBy partialFill)).Finished ∧
      eventsOf (poolAfter false (Store.holding (sampleOrder .acknowledged) 0)
        (overtakenBy partialFill)).shared 1 =
        [(some .acknowledged, .partiallyFilled), (some .acknowledged, .filled)] ∧
      writesOf (poolAfter false (Store.holding (sampleOrder .acknowledged) 0)
        (overtakenBy partialFill)).shared 1 =
        [(some .acknowledged, .partiallyFilled), (some .partiallyFilled, .filled)] ∧
      ¬ ExactHistory (sampleOrder .acknowledged) (poolAfter false
        (Store.holding (sampleOrder .acknowledged) 0) (overtakenBy partialFill)).shared := by
  have hcopy : IsCopy (Store.holding (sampleOrder .acknowledged) 0) (sampleOrder .acknowledged) :=
    Or.inl (Or.inl rfl)
  refine ⟨⟨fun _ => hcopy, fun _ => hcopy, trivial, trivial, trivial, trivial, trivial, trivial,
    trivial, trivial, trivial, trivial, trivial, trivial, trivial, trivial, trivial, trivial,
    trivial, trivial, trivial, trivial, trivial, trivial, trivial⟩, overtakenBy_finished rfl rfl,
    rfl, rfl, fun h => ?_⟩
  have hrecorded := congrArg (List.map Prod.fst) h.recorded
  revert hrecorded
  decide

end AgentTrading.Orders
