import AgentTrading.Sync.OrphanExpiry

/-! Runs of the cleanup at the end of the day among submissions and other cleanups. -/
namespace AgentTrading.Sync.Cleanup
open Domain Repositories Library

/-- The reply that lets a cleanup go on after it has read the broker orders of an order. -/
def NoneListed (op : Op) (reply : Reply op) : Prop :=
  match op, reply with
  | .brokerOrdersListByOrderRequest _, reply => reply = .ok []
  | _, _ => True

/-- A listing that has the order, and any status of its run, lets the cleanup go on. -/
def Lists (orderRequestId : UUID) (op : Op) (reply : Reply op) : Prop :=
  match op, reply with
  | .ordersList .., reply => ∃ rows, reply = .ok rows ∧ ∃ row ∈ rows, row.orderRequestId =
      orderRequestId
  | _, _ => True

section

variable {P : OrderStatus → Prop} {id : UUID} {check : Op → Prop} {cutoff : Time}

theorem orders_not_review (inner : Orders.Op) : ¬ Reviews id (.orders inner) := by
  rintro (⟨limit, ⟨⟩⟩ | ⟨⟨⟩⟩)

theorem brokerOrders_not_review (other : UUID) :
    ¬ Reviews id (.brokerOrdersListByOrderRequest other) := by
  rintro (⟨limit, ⟨⟩⟩ | ⟨⟨⟩⟩)

theorem reconcileList_not_review (limit : Nat) :
    ¬ Reviews id (.ordersList [.reconcileRequired] limit) := by
  rintro (⟨limit, ⟨⟩⟩ | ⟨⟨⟩⟩)

theorem expirePending_unpoised (settings : Settings) (now : Time)
    (orders : List OrderRequestEntity) (expired : Nat)
    (hid : ∀ order ∈ orders, order.orderRequestId ≠ id) :
    ¬ (expirePending settings cutoff now orders expired).Poised SaneReply (Moves P id) check := by
  induction orders generalizing expired with
  | nil => exact fun h => h
  | cons order rest ih =>
    have hrest : ∀ other ∈ rest, other.orderRequestId ≠ id :=
      fun other hother => hid other (List.mem_cons_of_mem _ hother)
    apply (isEodOrphan_only order).unpoised_bind
    · rintro _ ⟨other, rfl⟩
      exact read_no_move fun _ h => (by cases h)
    · intro orphan _
      cases orphan with
      | false => exact ih _ hrest
      | true =>
        apply Program.unpoised_bind
        · exact transitioned_unpoised settings order _ _ (hid order List.mem_cons_self)
        · exact fun done => ih _ hrest

theorem expirePending_reviewed (settings : Settings) (now : Time)
    (orders : List OrderRequestEntity) (expired : Nat) :
    (expirePending settings cutoff now orders expired).Checked SaneReply (Moves P id) (Reviews id)
      (Lists id) := by
  induction orders generalizing expired with
  | nil => trivial
  | cons order rest ih =>
    apply (isEodOrphan_only order).checked_bind
    · rintro _ ⟨other, rfl⟩
      exact brokerOrders_not_review other
    · intro orphan
      cases orphan with
      | false => exact ih _
      | true =>
        apply (transitioned_only settings order .expired _).checked_bind
        · rintro _ ⟨inner, rfl⟩
          exact orders_not_review inner
        · exact fun done => ih _

theorem expireReconcile_reviewed (settings : Settings) (now : Time)
    (orders : List OrderRequestEntity) (expired : Nat) :
    (expireReconcile settings cutoff now orders expired).Careful SaneReply (Moves P id) (Reviews id)
      (Lists id) := by
  induction orders generalizing expired with
  | nil => exact Program.careful_ret _
  | cons order rest ih =>
    apply ((isEodOrphan_only order).careful _ _).bind
    · intro orphan
      cases orphan with
      | false => exact ih _
      | true =>
        have hchecked (recStatus : Option RunStatus) : ((transitioned settings order .expired
            (reconcileArgs settings now order recStatus)).bind fun done =>
              expireReconcile settings cutoff now rest (expired + done.toNat)).Checked SaneReply
              (Moves P id) (Reviews id) (Lists id) :=
          (transitioned_checked settings order _ _ orders_not_review).bind fun done => ih _
        have hpoised (recStatus : Option RunStatus) : ((transitioned settings order .expired
            (reconcileArgs settings now order recStatus)).bind fun done =>
              expireReconcile settings cutoff now rest (expired + done.toNat)).Poised SaneReply
              (Moves P id) (Reviews id) → order.orderRequestId = id := by
          intro h
          by_contra hne
          apply Program.unpoised_bind (transitioned_unpoised settings order _ _ hne) _ h
          exact fun done => (ih _).unpoised
        apply Program.careful_call
        · exact read_no_move fun _ h => (by cases h)
        · intro r _
          cases r with
          | ok recStatus => exact hchecked recStatus
          | error e => exact hchecked none
        · intro r _ h
          refine ⟨Or.inr ?_, trivial⟩
          cases r with
          | ok recStatus => rw [hpoised recStatus h]
          | error e => rw [hpoised none h]
    · rintro _ ⟨other, rfl⟩
      exact read_no_move fun _ h => (by cases h)
    · rintro _ ⟨other, rfl⟩
      exact brokerOrders_not_review other

theorem expireEodOrphanOrders_reviewed (settings : Settings) (ageThreshold : Time) :
    (expireEodOrphanOrders settings ageThreshold).Careful SaneReply (Moves P id) (Reviews id)
      (Lists id) := by
  apply Program.careful_other now_no_move (orders_not_review _)
  intro now
  -- what follows the pending orders does not write before it reviews
  have hreconcile (expiredPending : Nat) : (Program.call (.ordersList [.reconcileRequired] 500)
      fun listed => (orRaise listed).bind fun reconcileOrders =>
        (expireReconcile settings (now - ageThreshold) now reconcileOrders 0).bind
          fun expiredReconcile => .ret (expiredPending, expiredReconcile)).Careful SaneReply
        (Moves P id) (Reviews id) (Lists id) := by
    apply Program.careful_other (list_no_move _ _) (reconcileList_not_review _)
    intro listed
    apply orRaise_careful
    intro reconcileOrders
    apply (expireReconcile_reviewed settings now reconcileOrders 0).bind
    exact fun expiredReconcile => Program.careful_ret _
  apply Program.careful_call (list_no_move _ _)
  · intro r _
    cases r with
    | error e => trivial
    | ok pendingOrders =>
      exact (expirePending_reviewed settings now pendingOrders 0).bind hreconcile
  · intro r _ hpoised
    refine ⟨Or.inl ⟨500, rfl⟩, ?_⟩
    cases r with
    | error e => exact hpoised.elim
    | ok pendingOrders =>
      refine ⟨pendingOrders, rfl, ?_⟩
      by_contra hnone
      push Not at hnone
      have hpending : ¬ (expirePending settings (now - ageThreshold) now pendingOrders 0).Poised
          SaneReply (Moves P id) (Reviews id) := expirePending_unpoised settings now _ 0 hnone
      apply Program.unpoised_bind hpending _ hpoised
      exact fun expiredPending => (hreconcile expiredPending).unpoised

theorem code_never_expires (settings : Settings) (job : Job) (hjob : .expired ∉ job.targets)
    {passes : (op : Op) → Reply op → Prop} :
    (job.code settings).Careful SaneReply (Acts (· = .expired) id job) check passes := by
  apply (code_puts settings job).careful_of_never
  intro op hputs hacts
  have hmoves : Moves (· = .expired) id op := by
    cases job with
    | submitOrderToBroker order request actorType actorId => exact hacts.elim
    | _ => exact hacts
  obtain ⟨inner, rfl, status, rc, rm, expected, submittedAt, hexpired, rfl⟩ := hmoves
  have htarget := (hputs _ rfl _ _ _ _ _ _ rfl).1
  rw [hexpired] at htarget
  exact hjob htarget

theorem code_listed (settings : Settings) (job : Job) :
    (job.code settings).Careful SaneReply (Acts (· = .expired) id job) (ListsBrokerOrders id)
      NoneListed := by
  cases job with
  | expireEodOrphanOrders ageThreshold =>
    apply (expireEodOrphanOrders_careful settings ageThreshold fun _ _ => Iff.rfl).bind
    exact fun _ => Program.careful_ret _
  | rejectStalePendingSubmitOrders =>
    apply code_never_expires
    decide
  | submitOrderToBroker order request actorType actorId =>
    apply code_never_expires
    simp [Job.targets, Orders.submitTargets]

theorem code_reviewed (settings : Settings) (job : Job) :
    (job.code settings).Careful SaneReply (Acts (· = .expired) id job) (Reviews id) (Lists id) := by
  cases job with
  | expireEodOrphanOrders ageThreshold =>
    apply (expireEodOrphanOrders_reviewed settings ageThreshold).bind
    exact fun _ => Program.careful_ret _
  | rejectStalePendingSubmitOrders =>
    apply code_never_expires
    decide
  | submitOrderToBroker order request actorType actorId =>
    apply code_never_expires
    simp [Job.targets, Orders.submitTargets]

end

/-- A cleanup has not begun, or it keeps to the cutoff it has taken; the others keep to their
statuses. -/
def Stands (settings : Settings) (cutoff : Option Time) (job : Job) (p : Code Unit) (s : State) :
    Prop :=
  match job, cutoff with
  | .expireEodOrphanOrders ageThreshold, none =>
    p = (Job.expireEodOrphanOrders ageThreshold).code settings
  | .expireEodOrphanOrders _, some cutoff =>
    Program.Safe exec StoreEvolves (fun _ => FindsUnsubmitted) (fun _ => WritesAged cutoff)
      (fun _ _ => True) p s
  | job, _ => p.Only (Puts (· ∈ job.targets)) fun _ => True

section

variable {settings : Settings} {cutoff : Option Time} {job : Job} {s t : State}

theorem Stands.later {p : Code Unit} (h : Stands settings cutoff job p s)
    (hst : StoreEvolves s t) : Stands settings cutoff job p t := by
  cases job with
  | expireEodOrphanOrders ageThreshold =>
    cases cutoff with
    | none => exact h
    | some cutoff => exact Program.Safe.mono_rely storeEvolves_trans h hst
  | _ => exact h

theorem Stands.puts {op : Op} {k : Reply op → Code Unit}
    (h : Stands settings cutoff job (.call op k) s) (c : Choice)
    (hfinds : ∀ ageThreshold, job = .expireEodOrphanOrders ageThreshold →
      FindsUnsubmitted op s) : Puts (fun _ => True) op := by
  have weaken {P : OrderStatus → Prop} (hop : Puts P op) : Puts (fun _ => True) op :=
    fun inner hinner _ _ _ _ _ _ hwrite => ⟨trivial, (hop inner hinner _ _ _ _ _ _ hwrite).2⟩
  cases job with
  | expireEodOrphanOrders ageThreshold =>
    cases cutoff with
    | none =>
      obtain ⟨k', hcode, -⟩ := code_within settings ageThreshold
      have hcall : Program.call op k = .call (.orders .now) k' := h.trans hcode
      cases hcall
      exact now_puts
    | some cutoff => exact weaken (h s c (storeEvolves_refl s) (hfinds _ rfl)).1.puts
  | rejectStalePendingSubmitOrders => exact weaken h.1
  | submitOrderToBroker order request actorType actorId => exact weaken h.1

theorem takesCutoff_some (c : Choice) (s : Store) (job : Job) (p : Code Unit) (cutoff : Time) :
    takesCutoff c s job p (some cutoff) = some cutoff := by
  unfold takesCutoff
  split
  · next h => cases h
  · rfl

theorem Stands.next {op : Op} {k : Reply op → Code Unit}
    (h : Stands settings cutoff job (.call op k) s) (c : Choice) (hs : Orders.Keyed s.store)
    (hfinds : ∀ ageThreshold, job = .expireEodOrphanOrders ageThreshold → FindsUnsubmitted op s) :
    Stands settings (takesCutoff c s.store job (.call op k) cutoff) job (k (exec c op s).1)
      (exec c op s).2 := by
  cases job with
  | expireEodOrphanOrders ageThreshold =>
    cases cutoff with
    | none =>
      obtain ⟨k', hcode, hwithin⟩ := code_within settings ageThreshold
      have hcall : Program.call op k = .call (.orders .now) k' := h.trans hcode
      cases hcall
      exact hwithin _ _ ⟨hs, fun _ h => by cases h⟩
    | some cutoff =>
      rw [takesCutoff_some]
      exact (h s c (storeEvolves_refl s) (hfinds _ rfl)).2
  | rejectStalePendingSubmitOrders => exact h.2 _
  | submitOrderToBroker order request actorType actorId => exact h.2 _

end

/-- What the condition keeps along a run. -/
structure Kept (settings : Settings) (n : Nights) : Prop where
  keyed : Orders.Keyed n.jobs.shared.store
  unstarted : ∀ t, n.jobs.threads t = none → n.cutoffs t = none
  stands : ∀ t job p, n.jobs.threads t = some (job, p) →
    Stands settings (n.cutoffs t) job p n.jobs.shared
  listed : ∀ id, Pool.Staged (Pool.Covered SaneReply (Acts (· = .expired) id)
    (fun _ => ListsBrokerOrders id) (fun _ => NoneListed) (NoBrokerOrder id)) n.jobs
  reviewed : ∀ id, Pool.Staged (Pool.Covered SaneReply (Acts (· = .expired) id)
    (fun _ => Reviews id) (fun _ => Lists id) (Reconciled id)) n.jobs

section

variable {settings : Settings} {n : Nights} {e : JobEvent}

theorem FindsOrphan.unsubmitted {t : Nat} {c : Choice} {job : Job} {op : Op}
    {k : Reply op → Code Unit} (he : FindsOrphan n (.step t c))
    (ht : n.jobs.threads t = some (job, .call op k)) (ageThreshold : Time)
    (hjob : job = .expireEodOrphanOrders ageThreshold) : FindsUnsubmitted op n.jobs.shared := by
  subst hjob
  cases op with
  | orders inner =>
    simp only [FindsOrphan, ht] at he
    exact he.1
  | _ => exact fun _ h => (by cases h)

/-- Each event takes the rows on. -/
theorem Kept.evolves (hn : Kept settings n) (he : FindsOrphan n e) :
    StoreEvolves n.jobs.shared (n.jobs.step settings e).shared := by
  rcases Pool.step_cases exec (Job.code settings) n.jobs e with
    ⟨t, c, job, op, k, rfl, ht, hshared⟩ | ⟨-, hshared⟩
  · rw [hshared]
    exact exec_storeEvolves c _ ((hn.stands t job _ ht).puts c (he.unsubmitted ht))
  · rw [hshared]
    exact storeEvolves_refl _

theorem nextCutoffs_other {u : Nat} (h : ∀ c, e ≠ .step u c) :
    nextCutoffs n e u = n.cutoffs u := by
  cases e with
  | start t job => rfl
  | step t c =>
    have hne : u ≠ t := by
      rintro rfl
      exact h c rfl
    cases ht : n.jobs.threads t with
    | none => simp only [nextCutoffs, ht]
    | some x => simp only [nextCutoffs, ht, Function.update_of_ne hne]

theorem nextCutoffs_self {t : Nat} {c : Choice} {job : Job} {p : Code Unit}
    (ht : n.jobs.threads t = some (job, p)) :
    nextCutoffs n (.step t c) t = takesCutoff c n.jobs.shared.store job p (n.cutoffs t) := by
  simp only [nextCutoffs, ht, Function.update_self]

theorem takesCutoff_idle (c : Choice) (s : Store) (job : Job) {p : Code Unit}
    (cutoff : Option Time) (hp : ∀ op k, p ≠ .call op k) :
    takesCutoff c s job p cutoff = cutoff := by
  unfold takesCutoff
  split
  · exact (hp _ _ rfl).elim
  · rfl

theorem Kept.stands_step (hn : Kept settings n) (he : FindsOrphan n e) :
    ∀ t job p, (n.jobs.step settings e).threads t = some (job, p) →
      Stands settings (nextCutoffs n e t) job p (n.jobs.step settings e).shared := by
  refine Pool.threads_step e (fun t job p ht => And.intro ht (hn.stands t job p ht)) ?_ ?_ ?_
  · rintro t job rfl ht
    have hcutoff : nextCutoffs n (.start t job) t = none := hn.unstarted t ht
    rw [hcutoff]
    cases job with
    | expireEodOrphanOrders ageThreshold => rfl
    | rejectStalePendingSubmitOrders => exact code_puts settings _
    | submitOrderToBroker order request actorType actorId => exact code_puts settings _
  · rintro t job c op k rfl ht
    have hnext := (hn.stands t job _ ht).next c hn.keyed (he.unsubmitted ht)
    rw [nextCutoffs_self ht]
    simpa only [Jobs.step, Pool.step, ht] using hnext
  · rintro u other p hidle ⟨hu, hstands⟩
    have hcutoff : nextCutoffs n e u = n.cutoffs u := by
      by_cases hstep : ∃ c, e = .step u c
      · obtain ⟨c, rfl⟩ := hstep
        rw [nextCutoffs_self hu]
        exact takesCutoff_idle c _ other _ fun op k => hidle c op k rfl
      · exact nextCutoffs_other fun c hc => hstep ⟨c, hc⟩
    rw [hcutoff]
    exact hstands.later (hn.evolves he)

theorem Kept.unstarted_step (hn : Kept settings n) :
    ∀ t, (n.jobs.step settings e).threads t = none → nextCutoffs n e t = none := by
  intro t ht
  have hbefore : n.jobs.threads t = none := by
    by_contra hsome
    obtain ⟨⟨job, p⟩, hthread⟩ := Option.ne_none_iff_exists'.mp hsome
    cases e with
    | start u other =>
      simp only [Jobs.step, Pool.step] at ht
      split at ht
      · next hu =>
        have hne : t ≠ u := by
          rintro rfl
          rw [hu] at hthread
          cases hthread
        simp only [Function.update_of_ne hne] at ht
        exact hsome ht
      · exact hsome ht
    | step u c =>
      simp only [Jobs.step, Pool.step] at ht
      split at ht
      · by_cases htu : t = u
        · subst htu
          simp only [Function.update_self, reduceCtorEq] at ht
        · simp only [Function.update_of_ne htu] at ht
          exact hsome ht
      · exact hsome ht
  cases e with
  | start u other => exact hn.unstarted t hbefore
  | step u c =>
    by_cases htu : t = u
    · subst htu
      simp only [nextCutoffs, hbefore]
      exact hn.unstarted t hbefore
    · rw [nextCutoffs_other]
      · exact hn.unstarted t hbefore
      · rintro _ ⟨⟩
        exact htu rfl

theorem listed_finds (id : UUID) :
    Pool.Finds exec (fun _ => ListsBrokerOrders id) (fun _ => NoneListed) (NoBrokerOrder id) n.jobs
      e := by
  cases e with
  | start t job => trivial
  | step t c =>
    simp only [Pool.Finds]
    split
    · rintro rfl hempty
      simp only [NoneListed, exec, Choice.read] at hempty
      split at hempty
      · exact Except.ok.inj hempty
      · cases hempty
    · trivial

/-- A listed pending order needs no reconciliation, and the status of a run that is read is that of
a failed one. -/
theorem Kept.reviewed_finds (hn : Kept settings n) (he : FindsOrphan n e) (id : UUID) :
    Pool.Finds exec (fun _ => Reviews id) (fun _ => Lists id) (Reconciled id) n.jobs e := by
  cases e with
  | start t job => trivial
  | step t c =>
    simp only [Pool.Finds]
    split
    · next job op k ht =>
      rintro (⟨limit, rfl⟩ | rfl) hlists row hrow hstatus
      · obtain ⟨rows, hrows, listed, hlisted, rfl⟩ := hlists
        simp only [exec, Choice.read] at hrows hrow
        split at hrows
        · obtain rfl := Except.ok.inj hrows
          obtain ⟨hmem, hpending⟩ := List.mem_filter.mp (List.mem_of_mem_take hlisted)
          obtain ⟨other, -, hother⟩ := List.mem_filterMap.mp hmem
          have hstored : n.jobs.shared.store.orders listed.orderRequestId = some listed := by
            rw [hn.keyed other listed hother]
            exact hother
          have hsame : some listed = some row := hstored.symm.trans hrow
          obtain rfl := Option.some.inj hsame
          simp [hstatus] at hpending
        · cases hrows
      · simp only [FindsOrphan, ht] at he
        exact he.2
    · trivial

theorem Kept.step (hn : Kept settings n) (he : Undisturbed settings n e) :
    Kept settings (n.step settings e) := by
  have hsane (c : Choice) (op : Op) := exec_sane c op n.jobs.shared hn.keyed
  refine ⟨(hn.evolves he.finds).keyed hn.keyed, hn.unstarted_step, hn.stands_step he.finds, ?_, ?_⟩
  · intro id
    exact Pool.covered_step (hn.listed id) (code_listed settings) hsane (he.brokerOrders id)
      (listed_finds id)
  · intro id
    exact Pool.covered_step (hn.reviewed id) (code_reviewed settings) hsane (he.reconciled id)
      (hn.reviewed_finds he.finds id)

theorem Kept.documented (hn : Kept settings n) (he : Undisturbed settings n e) :
    ExpiresDocumented n e := by
  cases e with
  | start t job => trivial
  | step t c =>
    have hfinds := he.finds
    simp only [ExpiresDocumented]
    split
    · next ageThreshold id rc rm expected submittedAt k ht =>
      intro row hrow hexpected
      have hid : row.orderRequestId = id := hn.keyed id row hrow
      have hacts : Acts (· = .expired) id (.expireEodOrphanOrders ageThreshold)
          (.orders (.ordersUpdateStatus id .expired rc rm expected submittedAt)) :=
        ⟨_, rfl, .expired, rc, rm, expected, submittedAt, rfl, rfl⟩
      have hnone := Pool.covered_acts (.step t c) (hn.listed id)
      have hreconciled := Pool.covered_acts (.step t c) (hn.reviewed id)
      simp only [Pool.ActsOn, ht] at hnone hreconciled
      replace hnone : NoBrokerOrder id n.jobs.shared := hnone hacts
      replace hreconciled : Reconciled id n.jobs.shared := hreconciled hacts
      have hstands := hn.stands t _ _ ht
      cases hcutoff : n.cutoffs t with
      | none =>
        rw [hcutoff] at hstands
        obtain ⟨k', hcode, -⟩ := code_within settings ageThreshold
        have hcall := hstands.trans hcode
        cases hcall
      | some cutoff =>
        rw [hcutoff] at hstands
        have hwrites := (hstands _ c (storeEvolves_refl _)
          (hfinds.unsubmitted ht ageThreshold rfl)).1 _ rfl
        obtain ⟨v, hv⟩ := Option.isSome_iff_exists.mp (hwrites.1 _ _ _ _ _ _ rfl).2
        have haged : Aged cutoff row := by
          apply hwrites.2 _ _ _ _ _ _ rfl row hrow
          rw [hv, hexpected v hv]
        obtain ⟨hunsubmitted, createdAt, hcreated, hold⟩ := haged
        refine ⟨cutoff, rfl, ?_, hunsubmitted, ⟨createdAt, hcreated, ?_⟩, ?_⟩
        · rw [hid]
          exact hnone
        · simp only [FindsOrphan, ht] at hfinds
          have hexact := hfinds.2 _ _ _ _ _ _ rfl row hrow
          rw [hcreated, hcutoff] at hexact
          apply lt_of_le_of_ne hold
          rintro rfl
          exact hexact rfl
        · rw [hid]
          exact hreconciled row hrow
    · next ht =>
      simp only [FindsOrphan, ht] at hfinds
      intro error herror
      rw [hfinds.1] at herror
      cases herror
    · trivial

end

/-- A state no job has been started on. -/
def Nights.idle (s : Store) : Nights := { jobs := Pool.idle { store := s } }

theorem kept_idle (settings : Settings) {s : Store} (hs : Orders.Keyed s) :
    Kept settings (Nights.idle s) :=
  ⟨hs, fun _ _ => rfl, fun _ _ _ ht => (by cases ht), fun _ => Pool.staged_idle _,
    fun _ => Pool.staged_idle _⟩

/-- In a run of cleanups and submissions whose events leave the cleanups undisturbed, each write of
EXPIRED by the cleanup at the end of the day finds all its documented conditions. -/
theorem expired_only_documented (settings : Settings) (s : Store) (es : List JobEvent)
    (hs : Orders.Keyed s)
    (hes : Runs.Meets (Nights.step settings) (Undisturbed settings) (Nights.idle s) es) :
    Runs.Meets (Nights.step settings) ExpiresDocumented (Nights.idle s) es :=
  Runs.meets_of_invariant (Nights.step settings) (fun _ _ hn he => hn.step he)
    (fun _ _ hn he => hn.documented he) (Nights.idle s) es (kept_idle settings hs) hes

def nightSettings : Settings where
  service := false
  ageHours _ := ""
  isoformat _ := ""

/-- An order of two hours ago whose result at the broker was not known. -/
def unknownOrder : OrderRequestEntity where
  orderRequestId := 1
  accountId := 7
  instrumentId := 3
  clientOrderId := "c-1"
  idempotencyKey := "k-1"
  correlationId := "r-1"
  side := .sell
  orderType := .limit
  requestedQuantity := 10
  status := .reconcileRequired
  createdAt := some 0

/-- The order with a reconciliation run of the status. -/
def underReconciliation (status : RunStatus) : Store :=
  { Store.holding unknownOrder 7200000000 with
    runs := [{ reconciliationRunId := 5, accountId := 7, triggerType := "unknown_state",
               status := status, startedAt := 0 }]
    orderLinks := [{ reconciliationRunId := 5, orderRequestId := 1,
                     mismatchType := "order_unknown_state", triggerType := "unknown_state",
                     linkedAt := 0 }] }

/-- No time passes, every read succeeds, and the only row there is is listed. -/
def atNight : Choice where
  orders := { elapsed := 0, broker := .error (.other ""), rest := fun _ => .error (.other "") }
  rows := [1]

/-- A cleanup of what is an hour old, up to its first write. -/
def loneCleanup : List JobEvent :=
  .start 0 (.expireEodOrphanOrders 3600000000) :: List.replicate 7 (.step 0 atNight)

/-- The reconciliation of the order is under way, and the cleanup expires it all the same. -/
theorem started_run_expired :
    let n := Runs.run (Nights.step nightSettings) (Nights.idle (underReconciliation .started))
      loneCleanup
    (n.jobs.shared.store.orders 1).map (·.status) = some .expired ∧
      n.jobs.shared.store.getLatestReconciliationStatusByOrder 1 = some .started ∧
      ¬ Runs.Meets (Nights.step nightSettings) ExpiresDocumented
        (Nights.idle (underReconciliation .started)) loneCleanup := by
  refine ⟨rfl, rfl, ?_⟩
  rintro ⟨-, -, -, -, -, -, -, hwrite, -⟩
  obtain ⟨cutoff, -, hdocumented⟩ := hwrite unknownOrder rfl fun v hv => (Option.some.inj hv).symm
  have hreconciled := hdocumented.reconciled rfl
  revert hreconciled
  decide

theorem latest_underReconciliation (id : UUID) :
    (underReconciliation .failed).getLatestReconciliationStatusByOrder id ∈
      [none, some .failed] := by
  by_cases hid : 1 = id
  · subst hid
    decide
  · simp [Store.getLatestReconciliationStatusByOrder, underReconciliation, hid]

/-- A cleanup alone expires the order of a failed run. -/
theorem expired_only_documented_failed :
    Runs.Meets (Nights.step nightSettings) (Undisturbed nightSettings)
        (Nights.idle (underReconciliation .failed)) loneCleanup ∧
      Runs.Meets (Nights.step nightSettings) ExpiresDocumented
        (Nights.idle (underReconciliation .failed)) loneCleanup ∧
      ((Runs.run (Nights.step nightSettings) (Nights.idle (underReconciliation .failed))
        loneCleanup).jobs.shared.store.orders 1).map (·.status) = some .expired := by
  have hkeyed : Orders.Keyed (underReconciliation .failed) :=
    Orders.keyed_holding unknownOrder 7200000000
  have hes : Runs.Meets (Nights.step nightSettings) (Undisturbed nightSettings)
      (Nights.idle (underReconciliation .failed)) loneCleanup := by
    have hlatest := latest_underReconciliation
    refine ⟨⟨fun _ _ _ => rfl, fun id _ _ _ _ _ => hlatest id, trivial⟩,
      ⟨fun _ _ _ => rfl, fun id _ _ _ _ _ => hlatest id, ?_⟩,
      ⟨fun _ _ _ => rfl, fun id _ _ _ _ _ => hlatest id, trivial⟩,
      ⟨fun _ _ _ => rfl, fun id _ _ _ _ _ => hlatest id, trivial⟩,
      ⟨fun _ _ _ => rfl, fun id _ _ _ _ _ => hlatest id, trivial⟩,
      ⟨fun _ _ _ => rfl, fun id _ _ _ _ _ => hlatest id, rfl, hlatest 1⟩,
      ⟨fun _ _ _ => rfl, fun id _ _ _ _ _ => hlatest id, ?_⟩,
      ⟨fun _ _ _ => rfl, fun id _ _ _ _ _ => hlatest id, ?_⟩, trivial⟩
    · exact ⟨fun _ h => (by cases h), fun _ _ _ _ _ _ h => (by cases h)⟩
    · exact ⟨fun _ h => (by cases h), fun _ _ _ _ _ _ h => (by cases h)⟩
    · refine ⟨fun _ h => (by cases h), fun id _ _ _ _ _ h row hrow => ?_⟩
      cases h
      obtain rfl := Option.some.inj hrow
      decide
  exact ⟨hes, expired_only_documented nightSettings _ _ hkeyed hes, rfl⟩

end AgentTrading.Sync.Cleanup
