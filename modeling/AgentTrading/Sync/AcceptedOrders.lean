import AgentTrading.Sync.CleanupChecks

/-! Orders that the broker has taken, under the cleanups. A submission writes the broker order and
the status only after the broker has answered, and it may stop for good before either; a cleanup
takes the missing rows for a sign that the broker was never reached. -/
namespace AgentTrading.Sync.Cleanup
open Domain Repositories Library

/-- The jobs, and the orders that cleanups have moved. -/
structure History where
  jobs : Jobs
  cleaned : List UUID := []

def cleanupStatuses : List OrderStatus := [.rejected, .expired]

/-- The order that a cleanup's operation moves: the write goes through. -/
def moved (c : Choice) (s : State) : Op → List UUID
  | .orders (.ordersUpdateStatus id status rc rm expected submittedAt) =>
    if status ∈ cleanupStatuses ∧
      (Orders.exec c.orders (.ordersUpdateStatus id status rc rm expected
      submittedAt) s.store).1 = .ok () then [id] else []
  | _ => []

def cleans (w : Jobs) : JobEvent → List UUID
  | .start _ _ => []
  | .step t c =>
    match w.threads t with
    | some (.submitOrderToBroker .., _) => []
    | some (_, .call op _) => moved c w.shared op
    | _ => []

def History.step (settings : Settings) (h : History) (e : JobEvent) : History where
  jobs := h.jobs.step settings e
  cleaned := h.cleaned ++ cleans h.jobs e

/-- No order that the broker has taken has been moved by a cleanup. -/
def Live (h : History) : Prop := ∀ id ∈ h.cleaned, id ∉ h.jobs.shared.accepted

/-- What a cleanup goes by is in the table: a broker order, to the stale ones one with its native
identifier. -/
def Recorded (job : Job) (orderRequestId : UUID) (s : Store) : Prop :=
  match job with
  | .expireEodOrphanOrders _ => brokerOrdersOf s orderRequestId ≠ []
  | .rejectStalePendingSubmitOrders =>
    ∃ item ∈ brokerOrdersOf s orderRequestId, item.brokerNativeOrderId ≠ none
  | .submitOrderToBroker .. => True

/-- A cleanup has read the order's broker orders and may go on to move it. -/
abbrev AboutToClean (orderRequestId : UUID) (w : Jobs) : Prop :=
  Pool.Poised SaneReply (Acts (· ∈ cleanupStatuses) orderRequestId)
    (fun _ => ListsBrokerOrders orderRequestId) w

/-- The condition on events. A cleanup that looks for the broker orders of an order that the broker
has taken finds the one it goes by; and the broker takes an order while that is still pending and no
cleanup is about to move it. -/
def Timely (h : History) : JobEvent → Prop
  | .start _ _ => True
  | .step t c =>
    match h.jobs.threads t with
    | some (job, .call (.brokerOrdersListByOrderRequest id) _) =>
      id ∈ h.jobs.shared.accepted → Recorded job id h.jobs.shared.store
    | some (_, .call (.orders (.brokerSubmitOrder id _)) _) =>
      c.accepts → (∃ row, h.jobs.shared.store.orders id = some row ∧ row.status = .pendingSubmit) ∧
        ¬ AboutToClean id h.jobs
    | _ => True

theorem exec_accepted (c : Choice) (op : Op) (s : State) :
    (exec c op s).2.accepted =
      s.accepted ++ match op with
        | .orders inner => takes c inner
        | _ => [] := by
  cases op <;> simp [exec]

theorem exec_keyed (c : Choice) (op : Op) (s : State) (hs : Orders.Keyed s.store) :
    Orders.Keyed (exec c op s).2.store := by
  cases op with
  | orders op => exact Orders.exec_keyed c.orders op hs
  | _ => exact hs

/-- An order that is no longer pending does not become so again. -/
def Settled (orderRequestId : UUID) (s : Store) : Prop :=
  ∃ row, s.orders orderRequestId = some row ∧ row.status ≠ .pendingSubmit

theorem exec_settled {P : OrderStatus → Prop} (hP : ∀ status, P status → status ≠ .pendingSubmit)
    (c : Choice) {op : Op} (hop : Puts P op) (s : State) {id : UUID} (hs : Settled id s.store) :
    Settled id (exec c op s).2.store := by
  cases op with
  | orders op =>
    obtain ⟨row, hrow, hstatus⟩ := hs
    rcases Orders.exec_order c.orders op s.store id with
      hsame | ⟨status, rc, rm, expected, sa, current, rfl, -, hnew⟩
    · exact ⟨row, hsame.trans hrow, hstatus⟩
    · exact ⟨_, hnew, hP status (hop _ rfl _ _ _ _ _ _ rfl).1⟩
  | _ => exact hs

theorem targets_settled (job : Job) : ∀ status ∈ job.targets, status ≠ .pendingSubmit := by
  cases job <;> simp [Job.targets, Orders.submitTargets]

theorem moved_cases {c : Choice} {s : State} {op : Op} {id : UUID} (h : id ∈ moved c s op) :
    (∃ status rc rm expected submittedAt, status ∈ cleanupStatuses ∧
      op = .orders (.ordersUpdateStatus id status rc rm expected submittedAt)) ∧
    Settled id (exec c op s).2.store := by
  unfold moved at h
  split at h
  · next written status rc rm expected submittedAt =>
    split at h
    · next hmoved =>
      rw [List.mem_singleton] at h
      subst h
      refine ⟨⟨status, rc, rm, expected, submittedAt, hmoved.1, rfl⟩, ?_⟩
      have hok := hmoved.2
      simp only [exec, Orders.exec, Orders.respond] at hok ⊢
      rcases (Orders.tick c.orders s.store).updateStatus_cases id status rc rm expected submittedAt
        with ⟨-, heq⟩ | ⟨current, v, -, -, -, heq⟩ | ⟨current, -, -, heq⟩
      · rw [heq] at hok
        cases hok
      · rw [heq] at hok
        cases hok
      · rw [heq]
        refine ⟨_, Function.update_self .., ?_⟩
        have hstatus := hmoved.1
        rintro hpending
        rw [show status = .pendingSubmit from hpending] at hstatus
        simp [cleanupStatuses] at hstatus
    · cases h
  · cases h

theorem takes_cases {c : Choice} {op : Orders.Op} {id : UUID} (h : id ∈ takes c op) :
    c.accepts ∧ ∃ request, op = .brokerSubmitOrder id request := by
  unfold takes at h
  split at h
  · next request =>
    split at h
    · next haccepts =>
      rw [List.mem_singleton] at h
      subst h
      exact ⟨haccepts, request, rfl⟩
    · cases h
  · cases h

theorem accepted_new {c : Choice} {op : Op} {s : State} {id : UUID}
    (h : id ∈ (exec c op s).2.accepted) (hnew : id ∉ s.accepted) :
    c.accepts ∧ ∃ request, op = .orders (.brokerSubmitOrder id request) := by
  rw [exec_accepted, List.mem_append] at h
  rcases h with h | h
  · exact (hnew h).elim
  · cases op with
    | orders inner =>
      obtain ⟨haccepts, request, rfl⟩ := takes_cases h
      exact ⟨haccepts, request, rfl⟩
    | _ => cases h

/-- What a cleanup has found of an order whose broker order is in the table does not let it go
on. -/
theorem not_passes {c : Choice} {job : Job} {id : UUID} {s : State}
    (h : Recorded job id s.store) :
    ¬ Passes job (.brokerOrdersListByOrderRequest id)
      (exec c (.brokerOrdersListByOrderRequest id) s).1 := by
  simp only [exec, Choice.read]
  cases c.failure with
  | some e => cases job <;> simp [Passes]
  | none =>
    cases job with
    | expireEodOrphanOrders ageThreshold =>
      intro hpasses
      exact h (Except.ok.inj hpasses)
    | rejectStalePendingSubmitOrders =>
      rintro ⟨items, hitems, hnone⟩
      obtain ⟨item, hitem, hnative⟩ := h
      rw [Except.ok.inj hitems] at hitem
      exact hnative (hnone item hitem)
    | submitOrderToBroker order request actorType actorId => exact fun hpasses => hpasses

/-- What the condition keeps along a run. -/
structure Watched (h : History) : Prop where
  keyed : Orders.Keyed h.jobs.shared.store
  puts : Pool.Staged (fun job p _ => p.Only (Puts (· ∈ job.targets)) fun _ => True) h.jobs
  covered : ∀ id, Pool.Staged (Pool.Covered SaneReply (Acts (· ∈ cleanupStatuses) id)
    (fun _ => ListsBrokerOrders id) Passes fun s => id ∉ s.accepted) h.jobs
  settled : ∀ id ∈ h.cleaned, Settled id h.jobs.shared.store
  live : Live h

section

variable {settings : Settings} {h : History} {e : JobEvent}

theorem Watched.keyed_step (hw : Watched h) :
    Orders.Keyed (h.jobs.step settings e).shared.store := by
  rcases Pool.step_cases exec (Job.code settings) h.jobs e with
    ⟨t, c, job, op, k, rfl, ht, hshared⟩ | ⟨-, hshared⟩
  · rw [hshared]
    exact exec_keyed c op h.jobs.shared hw.keyed
  · rw [hshared]
    exact hw.keyed

theorem Watched.puts_step (hw : Watched h) :
    Pool.Staged (fun job p _ => p.Only (Puts (· ∈ job.targets)) fun _ => True)
      (h.jobs.step settings e) := by
  apply Pool.staged_step e hw.puts
  · exact fun job => code_puts settings job
  · exact fun t job c op k _ ht => (hw.puts t job _ ht).2 _
  · exact fun t job c op k u other p _ _ hu => hw.puts u other p hu

theorem Timely.spares (he : Timely h e) (id : UUID) :
    Pool.Spares exec (Job.code settings) SaneReply (Acts (· ∈ cleanupStatuses) id)
      (fun _ => ListsBrokerOrders id) (fun s => id ∉ s.accepted) h.jobs e := by
  intro hpoised hnew
  rcases Pool.step_cases exec (Job.code settings) h.jobs e with
    ⟨t, c, job, op, k, rfl, ht, hshared⟩ | ⟨-, hshared⟩
  · rw [hshared]
    intro htaken
    obtain ⟨haccepts, request, rfl⟩ := accepted_new htaken hnew
    simp only [Timely, ht] at he
    exact (he haccepts).2 hpoised
  · rw [hshared]
    exact hnew

/-- A look for broker orders that lets a cleanup go on is for an order the broker has not taken. -/
theorem Timely.finds (he : Timely h e) (id : UUID) :
    Pool.Finds exec (fun _ => ListsBrokerOrders id) Passes (fun s => id ∉ s.accepted) h.jobs e := by
  cases e with
  | start t job => trivial
  | step t c =>
    simp only [Pool.Finds]
    split
    · next job op k ht =>
      rintro rfl hpasses haccepted
      rw [exec_accepted, List.append_nil] at haccepted
      simp only [Timely, ht] at he
      exact not_passes (he haccepted) hpasses
    · trivial

theorem Watched.covered_step (hw : Watched h) (he : Timely h e) (id : UUID) :
    Pool.Staged (Pool.Covered SaneReply (Acts (· ∈ cleanupStatuses) id)
      (fun _ => ListsBrokerOrders id) Passes fun s => id ∉ s.accepted) (h.jobs.step settings e) :=
  Pool.covered_step (hw.covered id) (code_careful settings (· ∈ cleanupStatuses) id)
    (fun c op => exec_sane c op h.jobs.shared hw.keyed) (he.spares id) (he.finds id)

theorem cleans_cases {id : UUID} (hid : id ∈ cleans h.jobs e) :
    ∃ t c job op k, e = .step t c ∧ h.jobs.threads t = some (job, .call op k) ∧
      Acts (· ∈ cleanupStatuses) id job op ∧ id ∈ moved c h.jobs.shared op := by
  cases e with
  | start t job => cases hid
  | step t c =>
    unfold cleans at hid
    dsimp only at hid
    split at hid
    · cases hid
    · next job op k hsubmit ht =>
      refine ⟨t, c, job, op, k, rfl, ht, ?_, hid⟩
      obtain ⟨⟨status, rc, rm, expected, submittedAt, hstatus, rfl⟩, -⟩ := moved_cases hid
      have hmoves : Moves (· ∈ cleanupStatuses) id
          (.orders (.ordersUpdateStatus id status rc rm expected submittedAt)) :=
        ⟨_, rfl, status, rc, rm, expected, submittedAt, hstatus, rfl⟩
      cases job with
      | submitOrderToBroker order request actorType actorId =>
        exact (hsubmit order request actorType actorId rfl).elim
      | _ => exact hmoves
    · cases hid

theorem Watched.settled_step (hw : Watched h) :
    ∀ id ∈ h.cleaned ++ cleans h.jobs e, Settled id (h.jobs.step settings e).shared.store := by
  intro id hid
  rcases Pool.step_cases exec (Job.code settings) h.jobs e with
    ⟨t, c, job, op, k, rfl, ht, hshared⟩ | ⟨hidle, hshared⟩
  · rw [hshared]
    rcases List.mem_append.mp hid with hbefore | hnow
    · exact exec_settled (targets_settled job) c (hw.puts t job _ ht).1 h.jobs.shared
        (hw.settled id hbefore)
    · obtain ⟨u, d, other, op', k', heq, hu, -, hmoved⟩ := cleans_cases hnow
      cases heq
      rw [ht] at hu
      cases hu
      exact (moved_cases hmoved).2
  · rw [hshared]
    rcases List.mem_append.mp hid with hbefore | hnow
    · exact hw.settled id hbefore
    · obtain ⟨t, c, job, op, k, heq, ht, -⟩ := cleans_cases hnow
      exact (hidle t c heq job op k ht).elim

theorem Watched.live_step (hw : Watched h) (he : Timely h e) : Live (h.step settings e) := by
  intro id hid
  have hbefore : id ∉ h.jobs.shared.accepted := by
    rcases List.mem_append.mp hid with hbefore | hnow
    · exact hw.live id hbefore
    · obtain ⟨t, c, job, op, k, rfl, ht, hacts, -⟩ := cleans_cases hnow
      have hacted := Pool.covered_acts (.step t c) (hw.covered id)
      simp only [Pool.ActsOn, ht] at hacted
      exact hacted hacts
  rcases Pool.step_cases exec (Job.code settings) h.jobs e with
    ⟨t, c, job, op, k, rfl, ht, hshared⟩ | ⟨-, hshared⟩
  · change id ∉ (h.jobs.step settings (.step t c)).shared.accepted
    rw [hshared]
    intro htaken
    obtain ⟨haccepts, request, rfl⟩ := accepted_new htaken hbefore
    rcases List.mem_append.mp hid with hcleaned | hnow
    · simp only [Timely, ht] at he
      obtain ⟨row, hrow, hpending⟩ := (he haccepts).1
      obtain ⟨row', hrow', hsettled⟩ := hw.settled id hcleaned
      rw [hrow] at hrow'
      obtain rfl := Option.some.inj hrow'
      exact hsettled hpending
    · obtain ⟨u, d, other, op, k', heq, hu, -, hmoved⟩ := cleans_cases hnow
      cases heq
      rw [ht] at hu
      cases hu
      cases hmoved
  · change id ∉ (h.jobs.step settings e).shared.accepted
    rw [hshared]
    exact hbefore

theorem Watched.step (hw : Watched h) (he : Timely h e) : Watched (h.step settings e) :=
  ⟨hw.keyed_step, hw.puts_step, hw.covered_step he, hw.settled_step, hw.live_step he⟩

end

/-- A state no job has been started on. -/
def History.idle (s : Store) : History := { jobs := Pool.idle { store := s } }

theorem watched_idle {s : Store} (hs : Orders.Keyed s) : Watched (History.idle s) := by
  refine ⟨hs, Pool.staged_idle _, fun _ => Pool.staged_idle _, ?_, ?_⟩
  · intro id hid
    cases hid
  · intro id hid
    cases hid

/-- In a run of submissions, which may stop anywhere, and of cleanups, no order that the broker has
taken is moved to REJECTED or EXPIRED by a cleanup at any time, if every event is timely. -/
theorem accepted_never_cleaned (settings : Settings) (s : Store) (es : List JobEvent)
    (hs : Orders.Keyed s) (hes : Runs.Meets (History.step settings) Timely (History.idle s) es) :
    Runs.Throughout (History.step settings) Live (History.idle s) es :=
  Runs.run_throughout (History.step settings) (fun _ _ hw he => hw.step he) (fun _ hw => hw.live)
    (watched_idle hs) hes

def plainSettings : Settings where
  service := false
  ageHours _ := ""
  isoformat _ := ""

/-- A sell of an hour ago that waits for its submission. -/
def pendingSell : OrderRequestEntity where
  orderRequestId := 1
  accountId := 7
  instrumentId := 3
  clientOrderId := "c-1"
  idempotencyKey := "k-1"
  correlationId := "r-1"
  side := .sell
  orderType := .limit
  requestedQuantity := 10
  status := .pendingSubmit
  createdAt := some 0

def sellRequest : SubmitOrderRequest where
  accountRef := "a-1"
  clientOrderId := "c-1"
  correlationId := "r-1"
  strategyId := "s-1"
  symbol := "005930"
  market := "KRX"
  side := .sell
  orderType := .limit
  quantity := 10

def takenResult : SubmitOrderResult where
  accepted := true
  brokerName := .koreaInvestment
  clientOrderId := "c-1"
  brokerOrderId := some "0001"
  brokerStatus := .submitted
  ackTimestamp := none

/-- The broker takes what it is sent; the only row there is is listed. -/
def taking : Choice where
  orders := { elapsed := 0, broker := .ok takenResult, rest := fun _ => .ok takenResult }
  rows := [1]
  accepts := true

def hourOld : Store := Store.holding pendingSell 3600000000

/-- A submission of the sell that gets as far as it is stepped, and then a cleanup. -/
def submitThenReject (steps : Nat) : List JobEvent :=
  .start 0 (.submitOrderToBroker pendingSell sellRequest "system" "order_manager") ::
    List.replicate steps (.step 0 taking) ++
  .start 1 .rejectStalePendingSubmitOrders :: List.replicate 5 (.step 1 taking)

/-- The submission is cancelled right after the broker has taken the order: the cleanup finds no
broker order and rejects an order that lives at the broker. -/
theorem taken_order_rejected :
    let h := Runs.run (History.step plainSettings) (History.idle hourOld) (submitThenReject 1)
    h.jobs.shared.accepted = [1] ∧ h.cleaned = [1] ∧
      (h.jobs.shared.store.orders 1).map (·.status) = some .rejected ∧
      ¬ Runs.Throughout (History.step plainSettings) Live (History.idle hourOld)
        (submitThenReject 1) := by
  have haccepted : (Runs.run (History.step plainSettings) (History.idle hourOld)
      (submitThenReject 1)).jobs.shared.accepted = [1] := rfl
  have hcleaned : (Runs.run (History.step plainSettings) (History.idle hourOld)
      (submitThenReject 1)).cleaned = [1] := rfl
  refine ⟨haccepted, hcleaned, rfl, fun hlive => ?_⟩
  have hlast := hlive.finish
  apply hlast 1
  · rw [hcleaned]
    exact List.mem_cons_self
  · rw [haccepted]
    exact List.mem_cons_self

theorem not_aboutToClean {w : Jobs} {t : Nat} {order : OrderRequestEntity}
    {request : SubmitOrderRequest} {actorType actorId : String} {p : Code Unit}
    (hw : w.threads = Function.update (fun _ => none) t
      (some (.submitOrderToBroker order request actorType actorId, p))) (id : UUID) :
    ¬ AboutToClean id w := by
  rintro ⟨u, job, q, hu, hpoised⟩
  rw [hw] at hu
  by_cases hut : u = t
  · rw [hut, Function.update_self] at hu
    obtain ⟨rfl, rfl⟩ := Prod.mk.inj (Option.some.inj hu)
    exact (Program.only_true _).unpoised (fun _ _ h => h) hpoised
  · rw [Function.update_of_ne hut] at hu
    cases hu

/-- A submission that stops right after the broker order is in the table is left alone. -/
theorem accepted_never_cleaned_recorded :
    Runs.Meets (History.step plainSettings) Timely (History.idle hourOld) (submitThenReject 4) ∧
      Runs.Throughout (History.step plainSettings) Live (History.idle hourOld)
        (submitThenReject 4) ∧
      (Runs.run (History.step plainSettings) (History.idle hourOld)
        (submitThenReject 4)).jobs.shared.accepted = [1] := by
  have htimely : Runs.Meets (History.step plainSettings) Timely (History.idle hourOld)
      (submitThenReject 4) := by
    refine ⟨trivial, fun _ => ⟨⟨pendingSell, rfl, rfl⟩, not_aboutToClean rfl 1⟩, trivial, trivial,
      trivial, trivial, trivial, trivial, ?_, trivial, trivial, trivial⟩
    intro _
    exact ⟨_, List.mem_cons_self, Option.some_ne_none "0001"⟩
  exact ⟨htimely, accepted_never_cleaned plainSettings hourOld _ (Orders.keyed_holding _ _) htimely,
    rfl⟩

end AgentTrading.Sync.Cleanup
