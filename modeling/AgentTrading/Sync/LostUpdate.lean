import AgentTrading.Sync.FaithfulResult
import AgentTrading.Sync.ReasonRefresh

/-! Calls of the synchronisation among transitions of other workers. A refresh of the reason writes
the status that the call has read, so it takes back what the others have written since. -/
namespace AgentTrading.Sync.LostUpdate
open Domain Repositories Library

/-- A call of the synchronisation, or a call of an order manager. -/
inductive Job where
  | syncOrderPostSubmit (svc : OrderSyncService) (brokerOrderId : UUID) (refresh : Bool)
      (afterHours : Option Bool)
  | transitionTo (service : Bool) (order : OrderRequestEntity) (target : OrderStatus)
      (args : Orders.TransitionArgs)
  | transitionToAuthoritative (service : Bool) (order : OrderRequestEntity) (target : OrderStatus)
      (reconciliationRunId : UUID) (reasonMessage : Option String) (maxRetries : Nat)
  | manualResolve (service : Bool) (order : OrderRequestEntity) (target : OrderStatus)
      (evidence : List (String × String)) (reasonCode : String) (reasonMessage : Option String)
      (operator : String)
  | submitOrderToBroker (service : Bool) (order : OrderRequestEntity) (request : SubmitOrderRequest)
      (actorType actorId : String)

def Job.code : Job → Code Unit
  | .syncOrderPostSubmit svc brokerOrderId refresh afterHours =>
    (svc.syncOrderPostSubmit brokerOrderId refresh afterHours).bind fun _ => .ret ()
  | .transitionTo service order target args =>
    (ofOrders (Orders.transitionTo service order target args)).bind fun _ => .ret ()
  | .transitionToAuthoritative service order target runId message retries =>
    (ofOrders (Orders.transitionToAuthoritative service order target runId message
      retries)).bind fun _ => .ret ()
  | .manualResolve service order target evidence code message operator =>
    (ofOrders (Orders.manualResolve service order target evidence code message
      operator)).bind fun _ => .ret ()
  | .submitOrderToBroker service order request actorType actorId =>
    (ofOrders (Orders.submitOrderToBroker service order
      (Orders.remoteBroker order.orderRequestId) request actorType actorId)).bind fun _ => .ret ()

def Job.syncs : Job → Bool
  | .syncOrderPostSubmit .. => true
  | _ => false

abbrev Jobs := Pool Op Reply PyError Unit Job State

abbrev JobEvent := Pool.Event Job Choice

def statusOf (s : State) (orderRequestId : UUID) : Option OrderStatus :=
  (s.store.orders orderRequestId).map (·.status)

/-- The order that a call has read first: the status it has found, and the status in which the
other jobs have left the order since. -/
structure Copy where
  orderRequestId : UUID
  found : OrderStatus
  left : OrderStatus
  deriving DecidableEq

/-- What an operation of another job makes of it. -/
def Copy.after (s s' : State) (copy : Copy) : Copy :=
  if statusOf s' copy.orderRequestId = statusOf s copy.orderRequestId then copy
  else { copy with left := (statusOf s' copy.orderRequestId).getD copy.left }

/-- The order that an operation reads. -/
def orderRead (op : Op) (reply : Reply op) : Option OrderRequestEntity :=
  match op, reply with
  | .orders (.ordersGet _), reply => reply
  | _, _ => none

/-- What an operation of a job reads for its copy. -/
def copyRead (job : Job) (op : Op) (reply : Reply op) : Option Copy :=
  if job.syncs then
    (orderRead op reply).map fun order => ⟨order.orderRequestId, order.status, order.status⟩
  else none

/-- The jobs, and the copies of the calls of the synchronisation. -/
structure History where
  jobs : Jobs
  copies : Nat → Option Copy

namespace History

def idle (s : State) : History := ⟨Pool.idle s, fun _ => none⟩

def step (h : History) (e : JobEvent) : History where
  jobs := Pool.step exec Job.code h.jobs e
  copies :=
    match e with
    | .start _ _ => h.copies
    | .step t c =>
      match h.jobs.threads t with
      | some (job, .call op _) => fun u =>
        let (reply, s) := exec c op h.jobs.shared
        if u = t then (h.copies t).or (copyRead job op reply)
        else (h.copies u).map (Copy.after h.jobs.shared s)
      | _ => h.copies

end History

/-- The call and the order whose status an event writes without a version, to refresh the reason. -/
def refreshed (w : Jobs) : JobEvent → Option (Nat × UUID)
  | .start _ _ => none
  | .step t _ =>
    match w.threads t with
    | some (.syncOrderPostSubmit .., .call (.orders (.ordersUpdateStatus id _ _ _ none _)) _) =>
      some (t, id)
    | _ => none

/-- A refresh of the reason leaves the order in its status. -/
def KeepsStatus (h : History) (e : JobEvent) : Prop :=
  ∀ refresh ∈ refreshed h.jobs e,
    statusOf (h.step e).jobs.shared refresh.2 = statusOf h.jobs.shared refresh.2

/-- A call that refreshes the reason finds the order as the others have left it in the status in
which it has read it. -/
def Undisturbed (h : History) (e : JobEvent) : Prop :=
  ∀ refresh ∈ refreshed h.jobs e, ∀ copy ∈ h.copies refresh.1, copy.left = copy.found

instance (h : History) (e : JobEvent) : Decidable (KeepsStatus h e) :=
  inferInstanceAs (Decidable (∀ refresh ∈ refreshed h.jobs e, _ = _))

instance (h : History) (e : JobEvent) : Decidable (Undisturbed h e) :=
  inferInstanceAs (Decidable (∀ refresh ∈ refreshed h.jobs e, ∀ copy ∈ h.copies refresh.1, _ = _))

section

variable {c : Choice} {op : Op} {s : State} {id : UUID}

theorem exec_statusOf (c : Choice) (op : Op) (s : State) (id : UUID) :
    statusOf (exec c op s).2 id = statusOf s id ∨
      ∃ status rc rm expected submittedAt,
        op = .orders (.ordersUpdateStatus id status rc rm expected submittedAt) ∧
        statusOf (exec c op s).2 id = some status := by
  rcases exec_order op c s id with
    hsame | ⟨status, rc, rm, expected, submittedAt, current, rfl, -, hwritten⟩
  · exact Or.inl (congrArg (Option.map _) hsame)
  · exact Or.inr ⟨status, rc, rm, expected, submittedAt, rfl, congrArg (Option.map _) hwritten⟩

theorem exec_unstored (h : ¬ReasonRefresh.Stores op (exec c op s).1) :
    statusOf (exec c op s).2 id = statusOf s id := by
  rcases exec_statusOf c op s id with hsame | ⟨status, rc, rm, expected, submittedAt, rfl, -⟩
  · exact hsame
  · unfold ReasonRefresh.Stores Orders.Op.Stores at h
    dsimp only [exec, Orders.exec, Orders.respond] at h ⊢
    rcases (Orders.tick c.orders s.store).updateStatus_cases id status rc rm expected submittedAt
      with ⟨-, heq⟩ | ⟨current, v, -, -, -, heq⟩ | ⟨current, -, -, heq⟩
    · rw [heq]
      rfl
    · rw [heq]
      rfl
    · rw [heq] at h
      exact (h rfl).elim

theorem Copy.after_left {copy : Copy} (h : statusOf s copy.orderRequestId = some copy.left) :
    statusOf (exec c op s).2 copy.orderRequestId =
      some (copy.after s (exec c op s).2).left := by
  unfold Copy.after
  split
  · next hsame => rw [hsame, h]
  · next hmoved =>
    rcases exec_statusOf c op s copy.orderRequestId with hsame | ⟨status, _, _, _, _, -, hstored⟩
    · exact (hmoved hsame).elim
    · rw [hstored]
      rfl

@[simp] theorem Copy.after_orderRequestId (copy : Copy) (s s' : State) :
    (copy.after s s').orderRequestId = copy.orderRequestId := by
  unfold Copy.after
  split <;> rfl

@[simp] theorem Copy.after_found (copy : Copy) (s s' : State) :
    (copy.after s s').found = copy.found := by
  unfold Copy.after
  split <;> rfl

theorem exec_read {order : OrderRequestEntity} (hs : Orders.Keyed s.store)
    (h : orderRead op (exec c op s).1 = some order) :
    statusOf (exec c op s).2 order.orderRequestId = some order.status := by
  cases op with
  | orders op =>
    cases op with
    | ordersGet read =>
      have hrow : s.store.orders read = some order := h
      rw [hs read order hrow]
      exact congrArg (Option.map _) hrow
    | _ => cases h
  | _ => cases h

/-- A write without a version of an order that is stored leaves it in the status it writes. -/
theorem exec_refresh {status before : OrderStatus} {rc rm : Option String}
    {submittedAt : Option Time}
    (h : statusOf s id = some before) :
    statusOf (exec c (.orders (.ordersUpdateStatus id status rc rm none submittedAt)) s).2 id =
      some status := by
  dsimp only [exec, Orders.exec, Orders.respond]
  obtain ⟨row, hrow, -⟩ := Option.map_eq_some_iff.mp h
  have hticked : (Orders.tick c.orders s.store).orders id = some row := hrow
  rw [Store.updateStatus_unversioned hticked]
  simp only [statusOf, Store.writeOrder, Function.update_self]
  rfl

end

/-- Nothing is written before an order is read, and from then on the call refreshes it only. -/
abbrev Reading (p : Code α) : Prop :=
  p.Phased ReportedStatus.Unwriting (fun op reply => (orderRead op reply).isSome = true)
    (fun op reply q => ∀ order, orderRead op reply = some order →
      ReasonRefresh.Refreshing order.orderRequestId order.status q) fun _ => True

theorem reading_bind {p : Code α} {f : α → Code β}
    (hp : p.Only (fun op => ReportedStatus.Unwriting op ∧ ∀ reply, orderRead op reply = none)
      fun _ => True) (hf : ∀ a, Reading (f a)) : Reading (p.bind f) := by
  apply hp.phased_bind
  · exact fun _ h => h.1
  · intro op reply h hread
    rw [h.2 reply] at hread
    cases hread
  · exact fun a _ => hf a
  · exact fun _ _ => trivial

theorem syncOrderPostSubmit_reading (svc : OrderSyncService) (brokerOrderId : UUID)
    (refresh : Bool) (afterHours : Option Bool) :
    Reading (svc.syncOrderPostSubmit brokerOrderId refresh afterHours) := by
  apply reading_bind (p := now) ⟨⟨trivial, fun _ => rfl⟩, fun _ => trivial⟩
  intro start
  have hhours : (OrderSyncService.resolveAfterHours afterHours).Only
      (fun op => ReportedStatus.Unwriting op ∧ ∀ reply, orderRead op reply = none)
      fun _ => True := by
    cases afterHours with
    | some hours => trivial
    | none => exact ⟨⟨trivial, fun _ => rfl⟩, fun _ => trivial⟩
  apply reading_bind hhours
  intro hours
  apply reading_bind (p := await (.brokerOrdersGet brokerOrderId))
    ⟨⟨trivial, fun _ => rfl⟩, fun _ => trivial⟩
  intro found
  cases found with
  | none => trivial
  | some brokerOrder =>
    refine ⟨trivial, fun stored => ⟨fun _ => ?_, fun hnone => ?_⟩⟩
    · rintro order hread
      obtain rfl : stored = some order := hread
      exact ReasonRefresh.syncOrder_refreshing svc brokerOrder refresh hours start
    · cases stored with
      | none => trivial
      | some order => exact (hnone rfl).elim

theorem code_reading {job : Job} (h : job.syncs = true) : Reading job.code := by
  cases job with
  | syncOrderPostSubmit svc brokerOrderId refresh afterHours =>
    apply (syncOrderPostSubmit_reading svc brokerOrderId refresh afterHours).bind
    · intro op reply q hq order hread
      exact ReasonRefresh.refreshing_bind (hq order hread) fun _ => trivial
    · exact fun _ _ => trivial
    · exact fun _ _ => trivial
  | _ => cases h

/-- Where a call of the synchronisation stands: before its read; or after it, with its last write
behind it, or with the order stored as the others have left it. -/
def Stage (copy : Option Copy) (p : Code Unit) (s : State) : Prop :=
  match copy with
  | none => Reading p
  | some copy => p.Only ReasonRefresh.Versioned (fun _ => True) ∨
      ReasonRefresh.Refreshing copy.orderRequestId copy.found p ∧
        statusOf s copy.orderRequestId = some copy.left

section

variable {c : Choice} {op : Op} {s : State} {k : Reply op → Code Unit} {copy : Option Copy}

theorem Stage.moves {job : Job} (hjob : job.syncs = true) (hs : Orders.Keyed s.store)
    (h : Stage copy (.call op k) s) :
    Stage (copy.or (copyRead job op (exec c op s).1)) (k (exec c op s).1) (exec c op s).2 := by
  cases copy with
  | none =>
    obtain ⟨hread, hunread⟩ := h.2 (exec c op s).1
    unfold copyRead
    rw [if_pos hjob, Option.none_or]
    cases hfound : orderRead op (exec c op s).1 with
    | none =>
      apply hunread
      show ¬(orderRead op (exec c op s).1).isSome = true
      rw [hfound]
      exact Bool.false_ne_true
    | some order =>
      have hsome : (orderRead op (exec c op s).1).isSome = true := by
        rw [hfound]
        rfl
      exact Or.inr ⟨hread hsome order hfound, exec_read hs hfound⟩
  | some copy =>
    rw [Option.some_or]
    rcases h with hdone | ⟨hrefreshing, hleft⟩
    · exact Or.inl (hdone.2 _)
    · obtain ⟨hstored, hunstored⟩ := hrefreshing.2 (exec c op s).1
      by_cases hstores : ReasonRefresh.Stores op (exec c op s).1
      · exact Or.inl (hstored hstores)
      · exact Or.inr ⟨hunstored hstores, (exec_unstored hstores).trans hleft⟩

theorem Stage.stays {p : Code Unit} (h : Stage copy p s) :
    Stage (copy.map (Copy.after s (exec c op s).2)) p (exec c op s).2 := by
  cases copy with
  | none => exact h
  | some copy =>
    rcases h with hdone | ⟨hrefreshing, hleft⟩
    · exact Or.inl hdone
    · right
      rw [Copy.after_orderRequestId, Copy.after_found]
      exact ⟨hrefreshing, Copy.after_left hleft⟩

end

/-- What is known of a history at any time. -/
structure Followed (h : History) : Prop where
  keyed : Orders.Keyed h.jobs.shared.store
  unstarted : ∀ t, h.jobs.threads t = none → h.copies t = none
  stages : ∀ t job p, h.jobs.threads t = some (job, p) → job.syncs = true →
    Stage (h.copies t) p h.jobs.shared

theorem followed_idle {s : State} (hs : Orders.Keyed s.store) : Followed (History.idle s) where
  keyed := hs
  unstarted _ _ := rfl
  stages _ _ _ ht := nomatch ht

section

variable {h : History} {e : JobEvent}

/-- An event that performs no operation leaves the copies as they are. -/
theorem History.step_idle
    (hidle : ∀ t c, e = .step t c → ∀ job op k, h.jobs.threads t ≠ some (job, .call op k)) :
    (h.step e).copies = h.copies := by
  cases e with
  | start t job => rfl
  | step t c =>
    simp only [History.step]
    split
    · next job op k ht => exact (hidle t c rfl job op k ht).elim
    · rfl

theorem History.step_copies {t : Nat} {c : Choice} {job : Job} {op : Op} {k : Reply op → Code Unit}
    (ht : h.jobs.threads t = some (job, .call op k)) (u : Nat) :
    (h.step (.step t c)).copies u =
      if u = t then (h.copies t).or (copyRead job op (exec c op h.jobs.shared).1)
      else (h.copies u).map (Copy.after h.jobs.shared (exec c op h.jobs.shared).2) := by
  simp only [History.step, ht]

theorem Followed.step (hh : Followed h) (e : JobEvent) : Followed (h.step e) := by
  rcases Pool.step_cases exec Job.code h.jobs e with
    ⟨t, c, job, op, k, rfl, ht, hshared⟩ | ⟨hidle, hshared⟩
  · have hafter : (h.step (.step t c)).jobs.shared = (exec c op h.jobs.shared).2 := hshared
    constructor
    · rw [hafter]
      exact ReportedStatus.exec_keyed op c h.jobs.shared hh.keyed
    · intro u hu
      have hbefore : h.jobs.threads u = none := Pool.threads_unstarted_of_step hu
      have hne : u ≠ t := by
        rintro rfl
        cases hbefore.symm.trans ht
      rw [History.step_copies ht, if_neg hne, hh.unstarted u hbefore]
      rfl
    · rw [hafter]
      show ∀ u other p, (Pool.step exec Job.code h.jobs (.step t c)).threads u = some (other, p) →
        other.syncs = true →
          Stage ((h.step (.step t c)).copies u) p (exec c op h.jobs.shared).2
      refine Pool.threads_step (.step t c)
        (fun u other p hu => And.intro hu (hh.stages u other p hu)) ?_ ?_ ?_
      · rintro _ _ ⟨⟩
      · rintro u other d op' k' ⟨⟩ hu hsyncs
        rw [ht] at hu
        cases hu
        rw [History.step_copies ht, if_pos rfl]
        exact (hh.stages t job _ ht hsyncs).moves hsyncs hh.keyed
      · rintro u other p hstill ⟨hu, hstage⟩ hsyncs
        have hne : u ≠ t := by
          rintro rfl
          cases ht.symm.trans hu
          exact hstill c op k rfl rfl
        rw [History.step_copies ht, if_neg hne]
        exact (hstage hsyncs).stays
  · have hcopies := History.step_idle hidle
    constructor
    · rw [show (h.step e).jobs.shared = h.jobs.shared from hshared]
      exact hh.keyed
    · intro t ht
      rw [hcopies]
      exact hh.unstarted t (Pool.threads_unstarted_of_step ht)
    · rw [hcopies, show (h.step e).jobs.shared = h.jobs.shared from hshared]
      show ∀ t job p, (Pool.step exec Job.code h.jobs e).threads t = some (job, p) →
        job.syncs = true → Stage (h.copies t) p h.jobs.shared
      refine Pool.threads_step e hh.stages ?_ ?_ ?_
      · intro t job he ht hsyncs
        rw [hh.unstarted t ht]
        exact code_reading hsyncs
      · intro t job c op k he ht
        exact (hidle t c he job op k ht).elim
      · exact fun _ _ _ _ hstage => hstage

theorem refreshed_cases {t : Nat} {id : UUID} (hrefreshed : refreshed h.jobs e = some (t, id)) :
    ∃ c job status rc rm submittedAt k, e = .step t c ∧ job.syncs = true ∧
      h.jobs.threads t = some (job, .call
        (.orders (.ordersUpdateStatus id status rc rm none submittedAt)) k) := by
  cases e with
  | start u job => cases hrefreshed
  | step u c =>
    simp only [refreshed] at hrefreshed
    split at hrefreshed
    · next ht =>
      cases hrefreshed
      exact ⟨c, _, _, _, _, _, _, rfl, rfl, ht⟩
    · cases hrefreshed

theorem Followed.keepsStatus_iff (hh : Followed h) (e : JobEvent) :
    KeepsStatus h e ↔ Undisturbed h e := by
  apply forall_congr'
  rintro ⟨t, id⟩
  apply imp_congr_right
  intro hrefreshed
  obtain ⟨c, job, status, rc, rm, submittedAt, k, rfl, hsyncs, ht⟩ := refreshed_cases hrefreshed
  have hstage := hh.stages t job _ ht hsyncs
  have hafter : (h.step (.step t c)).jobs.shared =
      (exec c (.orders (.ordersUpdateStatus id status rc rm none submittedAt))
        h.jobs.shared).2 := by
    simp only [History.step, Pool.step, ht]
  rw [hafter]
  cases hcopy : h.copies t with
  | none =>
    rw [hcopy] at hstage
    exact hstage.1.elim
  | some copy =>
    rw [hcopy] at hstage
    rcases hstage with hdone | ⟨hrefreshing, hleft⟩
    · exact hdone.1.elim
    · obtain ⟨rfl, rfl⟩ := hrefreshing.1
      rw [exec_refresh hleft, hleft]
      constructor
      · rintro hsame _ ⟨⟩
        exact (Option.some.inj hsame).symm
      · intro hundisturbed
        rw [hundisturbed copy rfl]

end

/-- In a run of calls of the synchronisation and of order managers, no refresh of a reason changes a
stored status exactly if each finds the order as the others have left it in the status that the call
has read. -/
theorem refresh_keepsStatus_iff (s : State) (hs : Orders.Keyed s.store) (es : List JobEvent) :
    Runs.Meets History.step KeepsStatus (History.idle s) es ↔
      Runs.Meets History.step Undisturbed (History.idle s) es := by
  apply Runs.meets_congr (J := Followed)
  · exact fun h e hh => hh.step e
  · exact fun h e hh => hh.keepsStatus_iff e
  · exact followed_idle hs

/-! A sell of ten shares of which four have been executed, as the linked rows show. -/

def fourSold : State where
  store := { tenSoldAtBroker.store with
    orders := (Store.holding (tenSold .partiallyFilled) 0).orders }
  appendEnabled := true

/-- The broker's record is read, the rows are read, and the reason is due to be refreshed. -/
def readFour : List JobEvent :=
  .start 0 (.syncOrderPostSubmit plainService 4 false (some false)) ::
    List.replicate 5 (.step 0 (ReportedStatus.showing 4 0))

def refreshFour : JobEvent := .step 0 (ReportedStatus.showing 4 0)

theorem refresh_keepsStatus_iff_fourSold :
    Runs.Meets History.step KeepsStatus (History.idle fourSold) (readFour ++ [refreshFour]) ∧
      ((Runs.run History.step (History.idle fourSold)
        (readFour ++ [refreshFour])).jobs.shared.store.orders 1).map
          (fun row => (row.status, row.statusReasonCode)) =
        some (.partiallyFilled, some fillSnapshotReason) := by
  constructor
  · apply (refresh_keepsStatus_iff fourSold
      (Orders.keyed_holding (tenSold .partiallyFilled) 0) _).mpr
    decide +kernel
  · decide +kernel

/-- Another worker fills the order before the reason is refreshed, and the order is partially filled
again. -/
theorem filled_order_written_back :
    let filled := readFour ++ [.start 1 (.transitionTo false (tenSold .partiallyFilled) .filled {}),
      .step 1 (ReportedStatus.showing 4 0), .step 1 (ReportedStatus.showing 4 0)]
    statusOf (Runs.run History.step (History.idle fourSold) filled).jobs.shared 1 = some .filled ∧
      statusOf (Runs.run History.step (History.idle fourSold)
        (filled ++ [refreshFour])).jobs.shared 1 = some .partiallyFilled ∧
      ¬Runs.Meets History.step KeepsStatus (History.idle fourSold) (filled ++ [refreshFour]) := by
  decide +kernel

end AgentTrading.Sync.LostUpdate
