import AgentTrading.Orders.Submission

/-! The blocking lock over whole runs of submissions, triggers, releases and clock
advances. The lock of an uncertain submission is taken only when the account has no
active run, and is looked for only by submissions that resolve to no strategy. -/
namespace AgentTrading.Reconciliation
open Domain Repositories Library Orders

/-- A call of `submit_order_to_broker` with what the world outside decides during it. -/
structure Submission where
  order : OrderRequestEntity
  request : SubmitOrderRequest
  cs : Nat → Choice

/-- Account, symbol and side of a submission, as the trigger's lock is scoped. -/
def Submission.scope (sub : Submission) : LockKey :=
  ⟨sub.order.accountId, none, some sub.request.symbol, some sub.request.side.value⟩

/-- The broker's answer: the call is the third operation of a submission. -/
def Submission.reply (sub : Submission) : Except PyError SubmitOrderResult := (sub.cs 2).broker

def Submission.code (sub : Submission) : Code OrderRequestEntity :=
  submitOrderToBroker true sub.order (remoteBroker sub.order.orderRequestId) sub.request

inductive Event where
  | submit (sub : Submission)
  | trigger (accountId : UUID) (triggerType : String) (strategyId : Option UUID)
      (symbol side : Option String) (cs : Nat → Choice)
  | markResolved (runId : UUID) (cs : Nat → Choice)
  | haltRun (runId : UUID) (cs : Nat → Choice)
  | releaseLock (accountId : UUID) (strategyId : Option UUID) (symbol side : Option String)
      (lockedByRunId : Option UUID) (cs : Nat → Choice)
  | advance (elapsed : Nat)

/-- The store an uninterrupted call leaves. -/
def leaves (p : Code α) (cs : Nat → Choice) (s : Store) : Store :=
  (p.run (Program.drawing exec) (cs, s)).2.2

def step (s : Store) : Event → Store
  | .submit sub => leaves sub.code sub.cs s
  | .trigger accountId triggerType strategyId symbol side cs =>
    leaves (trigger accountId triggerType strategyId symbol side) cs s
  | .markResolved runId cs => leaves (markResolved runId) cs s
  | .haltRun runId cs => leaves (haltRun runId) cs s
  | .releaseLock accountId strategyId symbol side runId cs =>
    leaves (releaseBlockingLock accountId strategyId symbol side runId) cs s
  | .advance elapsed => { s with clock := s.clock + elapsed }

abbrev run (s : Store) (es : List Event) : Store := Runs.run step s es

def ReachesBroker (s : Store) (sub : Submission) : Prop :=
  (step s (.submit sub)).brokerCalls ≠ s.brokerCalls

/-- The answers after which the submission starts a reconciliation. -/
def UncertainReply : Except PyError SubmitOrderResult → Prop
  | .ok result => result.uncertain || result.requiresReconciliation
  | .error (.broker e) => needsReconciliation e
  | .error _ => False

def EndsUncertain (s : Store) (sub : Submission) : Prop :=
  ReachesBroker s sub ∧ UncertainReply sub.reply

/-- With `first` the store right after the uncertain submission: its lock's time has
elapsed, or its run is no longer started and the run's lock is gone. -/
def Lifted (scope : LockKey) (first t : Store) : Prop :=
  (∃ lock, first.locks scope = some lock ∧ lock.expiresAt ≤ t.clock) ∨
  (∃ active, first.getActiveRun scope.accountId = some active ∧
    (∀ r ∈ t.runs, r.reconciliationRunId = active.reconciliationRunId → r.status ≠ .started) ∧
    ∀ lock, t.locks scope = some lock → lock.lockedByRunId ≠ active.reconciliationRunId)

/-- Once a submission has ended uncertain, no later one of its account, symbol and side
reaches the broker before the block is lifted, the time of its lock check included. -/
def BlocksUntilLifted (s : Store) (es : List Event) : Prop :=
  ∀ (pre : List Event) (sub : Submission) (mid : List Event) (later : Submission)
    (post : List Event), es = pre ++ .submit sub :: (mid ++ .submit later :: post) →
    EndsUncertain (run s pre) sub →
    later.order.accountId = sub.order.accountId →
    later.request.symbol = sub.request.symbol → later.request.side = sub.request.side →
    let first := step (run s pre) (.submit sub)
    (∀ n, ¬ Lifted sub.scope first (run first (mid.take n))) →
    ¬ Lifted sub.scope first (tick (later.cs 1) (tick (later.cs 0) (run first mid))) →
    ¬ ReachesBroker (run first mid) later

/-- The condition on runs. A submission resolves to no strategy, and one that ends
uncertain finds no active run of its account; an explicit release takes no lock of a run
that is still started. -/
def Scoped (s : Store) : Event → Prop
  | .submit sub => s.strategyByCode 0 sub.request.strategyId = none ∧
      (EndsUncertain s sub → s.getActiveRun sub.order.accountId = none)
  | .releaseLock accountId strategyId symbol side runId _ => ∀ key lock,
      s.locks key = some lock →
      (s.releaseLock accountId strategyId symbol side runId).locks key = none →
      ∀ r ∈ s.runs, r.reconciliationRunId = lock.lockedByRunId → r.status ≠ .started
  | _ => True

/-! A lock that is neither released nor expired stays. -/

/-- The lock is in place or its time has elapsed. -/
def Stands (scope : LockKey) (lock : BlockingLock) (s : Store) : Prop :=
  s.locks scope = some lock ∨ lock.expiresAt ≤ s.clock

def Op.KeepsLocks (op : Op) : Prop :=
  ∀ accountId strategyId symbol side runId,
    op ≠ .reconciliationsReleaseLock accountId strategyId symbol side runId

theorem exec_stands (scope : LockKey) (lock : BlockingLock) (c : Choice) (op : Op) (s : Store)
    (hop : Op.KeepsLocks op) (hs : Stands scope lock s) : Stands scope lock (exec c op s).2 := by
  have hclock : (exec c op s).2.clock = s.clock + c.elapsed := exec_clock c op s
  rcases hs with hs | hs
  · have hkept : (exec c op s).2.locks scope = some lock ∨
        lock.expiresAt ≤ s.clock + c.elapsed := by
      cases op <;> first | exact Or.inl hs | exact (hop _ _ _ _ _ rfl).elim | skip
      case ordersUpdateStatus id status rc rm expected submittedAt =>
        obtain ⟨orders, writes, h⟩ :=
          (tick c s).updateStatus_frame id status rc rm expected submittedAt
        simp only [exec, respond, h]
        exact Or.inl hs
      case reconciliationsAcquireLock key reason runId expiresAt =>
        exact (tick c s).acquireLock_kept scope key reason runId expiresAt lock hs
      case reconciliationsIsLocked key => exact (tick c s).isLocked_kept scope key lock hs
    rcases hkept with hkept | hkept
    · exact Or.inl hkept
    · exact Or.inr (by rw [hclock]; exact hkept)
  · refine Or.inr (Int.le_trans hs ?_)
    rw [hclock]
    exact Int.le_add_of_nonneg_right (Int.natCast_nonneg _)

theorem leaves_stands (scope : LockKey) (lock : BlockingLock) {p : Code α}
    (hp : p.Only Op.KeepsLocks fun _ => True) (cs : Nat → Choice) (s : Store)
    (hs : Stands scope lock s) : Stands scope lock (leaves p cs s) :=
  hp.run_keeps (I := fun x => Stands scope lock x.2) (Program.drawing exec)
    (fun op x hop hx => exec_stands scope lock (x.1 0) op x.2 hop hx) (cs, s) hs

theorem keepsLocks_of_bookkeeping {op : Op} (h : op.Bookkeeping) : Op.KeepsLocks op := by
  rintro _ _ _ _ _ rfl
  exact h

theorem keepsLocks_of_settling {op : Op} (h : op.Settling) : Op.KeepsLocks op := by
  rcases h with (h | h) | ⟨_, rfl⟩
  · exact keepsLocks_of_bookkeeping h
  · rintro _ _ _ _ _ rfl
    exact h.quiet
  · rintro _ _ _ _ _ h
    cases h

theorem only_keepsLocks {Q : Except PyError α → Prop} {p : Code α} (hp : p.Only Op.Settling Q) :
    p.Only Op.KeepsLocks fun _ => True :=
  hp.mono (fun _ => keepsLocks_of_settling) fun _ _ => trivial

theorem submit_only (sub : Submission) : sub.code.Only Op.KeepsLocks fun _ => True := by
  have hbook : ∀ {α : Type} {Q : Except PyError α → Prop} {p : Code α},
      p.Only Op.Bookkeeping Q → p.Only Op.KeepsLocks fun _ => True :=
    fun hp => hp.mono (fun _ => keepsLocks_of_bookkeeping) fun _ _ => trivial
  refine (hbook (resolveStrategy_only _)).bind (fun _ _ => ?_) fun _ _ => trivial
  refine (hbook (isBlocked_only _)).bind (fun blocked _ => ?_) fun _ _ => trivial
  split
  · exact only_keepsLocks (only_settling (transitionTo_only ..))
  · rw [submitUnblocked_remoteBroker]
    exact ⟨(by rintro _ _ _ _ _ h; cases h), fun outcome =>
      only_keepsLocks (settleOutcome_only ..)⟩

theorem haltRun_only (runId : UUID) : (haltRun runId).Only Op.KeepsLocks fun _ => True := by
  refine ⟨(by rintro _ _ _ _ _ h; cases h), fun found => ?_⟩
  cases found with
  | none => trivial
  | some r =>
    refine ⟨(by rintro _ _ _ _ _ h; cases h), fun now => ⟨?_, fun _ => trivial⟩⟩
    rintro _ _ _ _ _ h
    cases h

/-! The lock check decides whether the broker is reached. -/

theorem leaves_brokerCalls {Q : Except PyError α → Prop} {p : Code α} (hp : p.Only Op.Settling Q)
    (cs : Nat → Choice) (s : Store) : (leaves p cs s).brokerCalls = s.brokerCalls := by
  refine hp.run_keeps (I := fun x => x.2.brokerCalls = s.brokerCalls) (Program.drawing exec)
    (fun op x hop hx => ?_) (cs, s) rfl
  refine ((exec_writes (x.1 0) op x.2).brokerCalls ?_).trans hx
  rintro id request rfl
  rcases hop with (h | h | ⟨_, h⟩ | ⟨_, _, _, _, _, _, h⟩) | ⟨_, h⟩
  · exact h
  · exact h
  · cases h
  · cases h
  · cases h

/-- The store in which the broker's answer is settled. -/
def answered (s : Store) (sub : Submission) : Store :=
  (exec (sub.cs 2) (.brokerSubmitOrder sub.order.orderRequestId sub.request)
    (lockCheck sub.order sub.request sub.cs s).2).2

theorem step_submit_unlocked (s : Store) (sub : Submission)
    (h : lockedOut true sub.order sub.request sub.cs s = false) :
    step s (.submit sub) = leaves (settleOutcome true sub.order "BrokerAdapter" sub.request
      "system" "order_manager" sub.reply) (fun n => sub.cs (n + 3)) (answered s sub) := by
  simp only [step, leaves, Submission.code, submitOrderToBroker_run, h, Bool.false_eq_true,
    if_false, submitUnblocked_remoteBroker]
  rfl

theorem step_submit_locked (s : Store) (sub : Submission)
    (h : lockedOut true sub.order sub.request sub.cs s = true) :
    step s (.submit sub) = leaves (transitionTo true sub.order .reconcileRequired
      (blockedArgs sub.order)) (fun n => sub.cs (n + 2))
      (lockCheck sub.order sub.request sub.cs s).2 := by
  simp only [step, leaves, Submission.code, submitOrderToBroker_run, h, if_true]

theorem reachesBroker_iff (s : Store) (sub : Submission) :
    ReachesBroker s sub ↔ lockedOut true sub.order sub.request sub.cs s = false := by
  unfold ReachesBroker
  have hcheck := (lockCheck_sameOrders sub.order sub.request sub.cs s).brokerCalls
  cases h : lockedOut true sub.order sub.request sub.cs s with
  | true =>
    rw [step_submit_locked s sub h, leaves_brokerCalls (only_settling (transitionTo_only ..)),
      hcheck]
    simp
  | false =>
    rw [step_submit_unlocked s sub h, leaves_brokerCalls (settleOutcome_only ..)]
    simp only [iff_true]
    show (lockCheck sub.order sub.request sub.cs s).2.brokerCalls ++ _ ≠ _
    rw [hcheck]
    simp

/-! An uncertain submission of an account without an active run takes the lock. -/

/-- The account has an active run and that run's lock is in place. -/
def Engaged (scope : LockKey) (s : Store) : Prop :=
  ∃ active lock, s.getActiveRun scope.accountId = some active ∧ s.locks scope = some lock ∧
    lock.lockedByRunId = active.reconciliationRunId

/-- Neither an active run nor a lock. -/
def Free (scope : LockKey) (s : Store) : Prop :=
  s.getActiveRun scope.accountId = none ∧ s.locks scope = none

abbrev Ensures (post : Store → Prop) (p : Code α) (s : Store) : Prop :=
  Program.Alone exec (fun _ _ _ => True) (fun _ _ _ => True) (fun _ => post) p s

/-- A property of the store that only the runs and the locks matter to. -/
def OfRuns (K : Store → Prop) : Prop := ∀ s t, SameRuns s t → K s → K t

theorem getActiveRun_same {s t : Store} (h : SameRuns s t) (accountId : UUID) :
    t.getActiveRun accountId = s.getActiveRun accountId := by
  unfold Store.getActiveRun
  rw [h.runs]

theorem ofRuns_engaged (scope : LockKey) : OfRuns (Engaged scope) := by
  rintro s t h ⟨active, lock, hactive, hlock, hid⟩
  refine ⟨active, lock, ?_, ?_, hid⟩
  · rw [getActiveRun_same h]
    exact hactive
  · rw [h.locks]
    exact hlock

theorem ofRuns_free (scope : LockKey) : OfRuns (Free scope) := by
  intro s t h hs
  unfold Free at hs ⊢
  rw [getActiveRun_same h, h.locks]
  exact hs

theorem ensures_call {post K : Store → Prop} (hK : OfRuns K) {op : Op}
    {k : Reply op → Code α} {s : Store} (hs : K s) (hop : op.Quiet)
    (hk : ∀ r t, K t → Ensures post (k r) t) : Ensures post (.call op k) s :=
  Program.alone_call fun c _ => ⟨trivial, hk _ _ (hK s _ (exec_sameRuns c op s hop) hs)⟩

theorem ensures_bind {post K : Store → Prop} (hK : OfRuns K) {Q : Except PyError α → Prop}
    {p : Code α} {f : α → Code β} {s : Store} (hs : K s) (hp : p.Only Op.Quiet Q)
    (hf : ∀ a t, K t → Ensures post (f a) t) (he : ∀ e t, Q (.error e) → K t → post t) :
    Ensures post (p.bind f) s :=
  Program.Alone.bind (alone_quiet hp) (fun a t h => hf a t (hK s t h.2 hs))
    fun e t h => he e t h.1 (hK s t h.2 hs)

theorem ensures_then {post : Store → Prop} {p : Code α} {f : α → Code β} {s : Store}
    (hp : Ensures post p s) (hf : ∀ a t, post t → Ensures post (f a) t) :
    Ensures post (p.bind f) s :=
  Program.Alone.bind hp hf fun _ _ h => h

theorem ensures_handle {post : Store → Prop} {p : Code α} {f : PyError → Code α} {s : Store}
    (hp : Ensures post p s) (hf : ∀ e t, post t → Ensures post (f e) t) :
    Ensures post (p.handle f) s :=
  Program.Safe.handle (fun _ => rfl) hp (fun _ _ h => h) hf

/-- The run has just become active and its lock is still free. -/
def Begun (scope : LockKey) (active : ReconciliationRunEntity) (s : Store) : Prop :=
  s.getActiveRun scope.accountId = some active ∧ s.locks scope = none

theorem ofRuns_begun (scope : LockKey) (active : ReconciliationRunEntity) :
    OfRuns (Begun scope active) := by
  intro s t h hs
  unfold Begun at hs ⊢
  rw [getActiveRun_same h, h.locks]
  exact hs

theorem addRun_begun {scope : LockKey} {active : ReconciliationRunEntity} {s : Store}
    (hs : Free scope s) (haccount : active.accountId = scope.accountId)
    (hstarted : active.status = .started) : Begun scope active (s.addRun active) := by
  refine ⟨?_, hs.2⟩
  rw [← haccount]
  exact Store.getActiveRun_addRun (by rw [haccount]; exact hs.1) hstarted

theorem acquireLock_engages {scope : LockKey} {active : ReconciliationRunEntity} {s : Store}
    (reason : String) (expiresAt : Time) (hs : Begun scope active s) :
    Engaged scope (s.acquireLock scope reason active.reconciliationRunId expiresAt).2 := by
  refine ⟨active, ⟨reason, active.reconciliationRunId, expiresAt⟩, ?_, ?_, rfl⟩
  · obtain ⟨locks, h⟩ := s.acquireLock_frame scope reason active.reconciliationRunId expiresAt
    rw [h]
    exact hs.1
  · unfold Store.acquireLock
    rw [hs.2]
    simp only [Store.setLock, Function.update_self]

theorem acquireBlockingLock_engages {scope : LockKey} {active : ReconciliationRunEntity}
    {s : Store} (reason : String) (hs : Begun scope active s) :
    Ensures (Engaged scope) (acquireBlockingLock scope reason active.reconciliationRunId) s := by
  refine ensures_call (ofRuns_begun scope active) hs trivial fun now t ht => ?_
  refine Program.alone_call fun c _ => ⟨trivial, Program.alone_ret ?_⟩
  exact acquireLock_engages _ _ (ofRuns_begun scope active t (tick c t) ⟨rfl, rfl⟩ ht)

theorem trigger_engages (scope : LockKey) (triggerType : String) (s : Store)
    (hs : Free scope s) :
    Ensures (Engaged scope)
      (trigger scope.accountId triggerType scope.strategyId scope.symbol scope.side) s := by
  refine Program.alone_call fun c _ => ⟨trivial, ?_⟩
  have hreply : (exec c (.reconciliationsGetActiveRun scope.accountId) s).1 = none := hs.1
  rw [hreply]
  refine ensures_call (ofRuns_free scope) hs trivial fun now t ht => ?_
  refine ensures_call (ofRuns_free scope) ht trivial fun runId t ht => ?_
  refine Program.alone_call fun c _ => ⟨trivial, ?_⟩
  change Ensures (Engaged scope) (Program.bind (acquireBlockingLock scope _ _) _) _
  refine ensures_then (acquireBlockingLock_engages _ (addRun_begun ?_ ?_ ?_)) ?_
  · exact ofRuns_free scope t (tick c t) ⟨rfl, rfl⟩ ht
  · rfl
  · rfl
  · exact fun _ _ h => Program.alone_ret h

theorem acquireLock_keeps_engaged {scope key : LockKey} {s : Store} (reason : String)
    (runId : UUID) (expiresAt : Time) (hkey : scope ≠ key) (hs : Engaged scope s) :
    Engaged scope (s.acquireLock key reason runId expiresAt).2 := by
  obtain ⟨active, lock, hactive, hlock, hid⟩ := hs
  refine ⟨active, lock, ?_, ?_, hid⟩
  · obtain ⟨locks, h⟩ := s.acquireLock_frame key reason runId expiresAt
    rw [h]
    exact hactive
  · unfold Store.acquireLock
    split
    · split
      · simpa only [Store.setLock, Function.update_of_ne hkey] using hlock
      · exact hlock
    · simpa only [Store.setLock, Function.update_of_ne hkey] using hlock

theorem addRun_keeps_engaged {scope : LockKey} {s : Store} {r : ReconciliationRunEntity}
    (haccount : r.accountId ≠ scope.accountId) (hs : Engaged scope s) :
    Engaged scope (s.addRun r) := by
  obtain ⟨active, lock, hactive, hlock, hid⟩ := hs
  exact ⟨active, lock, (Store.getActiveRun_addRun_of_ne haccount).trans hactive, hlock, hid⟩

/-- A later trigger of the account reuses the run; a trigger of another account takes
another lock. -/
theorem trigger_keeps_engaged (scope : LockKey) (accountId : UUID) (triggerType : String)
    (strategyId : Option UUID) (symbol side : Option String) (s : Store)
    (hs : Engaged scope s) :
    Ensures (Engaged scope) (trigger accountId triggerType strategyId symbol side) s := by
  by_cases haccount : accountId = scope.accountId
  · refine Program.alone_call fun c _ => ⟨trivial, ?_⟩
    obtain ⟨active, lock, hactive, hlock, hid⟩ := hs
    have hreply : (exec c (.reconciliationsGetActiveRun accountId) s).1 = some active := by
      rw [haccount]
      exact hactive
    rw [hreply]
    exact Program.alone_ret ⟨active, lock, hactive, hlock, hid⟩
  · have hengaged := ofRuns_engaged scope
    refine ensures_call hengaged hs trivial fun reply t ht => ?_
    cases reply with
    | some active => exact Program.alone_ret ht
    | none =>
      refine ensures_call hengaged ht trivial fun now t ht => ?_
      refine ensures_call hengaged ht trivial fun runId t ht => ?_
      refine Program.alone_call fun c _ => ⟨trivial, ?_⟩
      refine ensures_call hengaged (addRun_keeps_engaged ?_
        (hengaged t (tick c t) ⟨rfl, rfl⟩ ht)) trivial fun now t ht => ?_
      · exact haccount
      refine Program.alone_call fun c _ => ⟨trivial, Program.alone_ret ?_⟩
      refine acquireLock_keeps_engaged _ _ _ ?_ (hengaged t (tick c t) ⟨rfl, rfl⟩ ht)
      rintro rfl
      exact haccount rfl

theorem Op.Recording.quiet {op : Op} (h : op.Recording) : op.Quiet := by
  cases op <;> trivial

theorem only_quiet {Q : Except PyError α → Prop} {p : Code α} (hp : p.Only Op.Noting Q) :
    p.Only Op.Quiet Q :=
  hp.mono (fun _ h => Op.Recording.quiet h.recording) fun _ => id

theorem autoTrigger_keeps_engaged (scope : LockKey) (after : OrderRequestEntity)
    (target : OrderStatus) (args : TransitionArgs) (s : Store) (hs : Engaged scope s) :
    Ensures (Engaged scope) (autoTrigger true after target args) s := by
  unfold autoTrigger
  split
  · refine ensures_handle (ensures_then ?_ fun _ _ h => Program.alone_ret h)
      fun _ _ h => Program.alone_ret h
    refine ensures_then (trigger_keeps_engaged scope _ _ _ _ _ s hs) fun active t ht => ?_
    refine ensures_call (ofRuns_engaged scope) ht trivial fun now t ht => ?_
    exact ensures_call (ofRuns_engaged scope) ht trivial fun _ t ht => Program.alone_ret ht
  · exact Program.alone_ret hs

theorem transitionTo_keeps_engaged (scope : LockKey) (order : OrderRequestEntity)
    (target : OrderStatus) (args : TransitionArgs) (s : Store) (hs : Engaged scope s) :
    Ensures (Engaged scope) (transitionTo true order target args) s := by
  have hengaged := ofRuns_engaged scope
  unfold transitionTo
  cases validateTransition order.orderRequestId order.status target with
  | error e => exact Program.alone_raise hs
  | ok u =>
    simp only [orRaise, Program.bind_eq, Program.ret_bind, transitionToCore]
    refine ensures_bind hengaged hs (only_quiet (stamp_only _)) (fun sa t ht => ?_) fun _ _ _ h => h
    refine ensures_bind hengaged ht (only_quiet (replaceStatus_only ..)) (fun after t ht => ?_)
      fun _ _ _ h => h
    refine ensures_bind hengaged ht ((retryUpdate_only ..).mono (fun _ h => h.quiet)
      fun _ => id) (fun written t ht => ?_) fun _ _ _ h => h
    refine ensures_then ?_ fun _ _ h => Program.alone_ret h
    refine ensures_bind hengaged ht
      ((recordOrderStateEvent_only ..).mono (fun _ h => Op.Recording.quiet h) fun _ => id)
      (fun _ t ht => ?_) fun _ _ _ h => h
    refine ensures_bind hengaged ht (only_quiet (recordStatusChange_only ..))
      (fun _ t ht => ?_) fun _ _ _ h => h
    exact autoTrigger_keeps_engaged scope written target _ t ht

theorem settleOutcome_engages (sub : Submission) (brokerClass : String) (s : Store)
    (hs : Free sub.scope s) (huncertain : UncertainReply sub.reply) :
    Ensures (Engaged sub.scope) (settleOutcome true sub.order brokerClass sub.request "system"
      "order_manager" sub.reply) s := by
  have htrigger : ∀ triggerType t, Free sub.scope t →
      Ensures (Engaged sub.scope) (triggerFor true sub.order sub.request triggerType) t := by
    intro triggerType t ht
    exact ensures_then (trigger_engages sub.scope triggerType t ht)
      fun _ _ h => Program.alone_ret h
  generalize sub.reply = reply at huncertain ⊢
  unfold settleOutcome
  rcases reply with e | result
  · cases e with
    | broker e =>
      have hneeds : needsReconciliation e = true := huncertain
      simp only [onBrokerError, hneeds, if_true]
      refine ensures_bind (ofRuns_free sub.scope) hs (only_quiet (recordSubmissionAttempt_only _))
        (fun _ t ht => ?_) fun _ _ he => by cases he
      refine ensures_then (htrigger _ t ht) fun _ t ht => ?_
      exact transitionTo_keeps_engaged _ _ _ _ t ht
    | _ => exact huncertain.elim
  · have hflag : (result.uncertain || result.requiresReconciliation) = true := huncertain
    simp only [handleResult, hflag, if_true, onUncertain]
    refine ensures_then (htrigger _ s hs) fun _ t ht => ?_
    refine ensures_bind (ofRuns_engaged sub.scope) ht
      (only_quiet (recordSubmissionAttempt_only _)) (fun _ t ht => ?_) fun _ _ _ h => h
    exact transitionTo_keeps_engaged _ _ _ _ t ht

/-! The condition on runs makes the lock found again. -/

theorem lockCheck_scope {s : Store} {sub : Submission}
    (hstrategy : s.strategyByCode 0 sub.request.strategyId = none) :
    lockCheck sub.order sub.request sub.cs s =
      (tick (sub.cs 1) (tick (sub.cs 0) s)).isLocked sub.scope := by
  unfold lockCheck
  rw [hstrategy]
  rfl

theorem endsUncertain_engages {s : Store} {sub : Submission} (hscoped : Scoped s (.submit sub))
    (huncertain : EndsUncertain s sub) : Engaged sub.scope (step s (.submit sub)) := by
  have hunlocked := (reachesBroker_iff s sub).mp huncertain.1
  have hcheck := lockCheck_scope hscoped.1
  rw [step_submit_unlocked s sub hunlocked]
  have hfree : Free sub.scope (answered s sub) := by
    have hfalse : ((tick (sub.cs 1) (tick (sub.cs 0) s)).isLocked sub.scope).1 = false := by
      rw [← hcheck]
      exact hunlocked
    obtain ⟨locks, hlocks⟩ := (tick (sub.cs 1) (tick (sub.cs 0) s)).isLocked_frame sub.scope
    have hnone := Store.isLocked_false _ _ hfalse
    unfold answered
    rw [hcheck, hlocks]
    rw [hlocks] at hnone
    exact ⟨hscoped.2 huncertain, hnone⟩
  exact (settleOutcome_engages sub "BrokerAdapter" _ hfree huncertain.2).run
    fun _ _ _ => trivial

/-- The store right after an uncertain submission, with its run and its lock. -/
structure Taken (scope : LockKey) (first : Store) (active : ReconciliationRunEntity)
    (lock : BlockingLock) : Prop where
  started : first.getActiveRun scope.accountId = some active
  locked : first.locks scope = some lock
  owner : lock.lockedByRunId = active.reconciliationRunId

theorem lock_of_stands {scope : LockKey} {first t : Store} {active : ReconciliationRunEntity}
    {lock : BlockingLock} (htaken : Taken scope first active lock) (ht : Stands scope lock t)
    (hnot : ¬ Lifted scope first t) : t.locks scope = some lock :=
  ht.resolve_right fun hexpired => hnot (Or.inl ⟨lock, htaken.locked, hexpired⟩)

theorem lifted_of_removed {scope : LockKey} {first t : Store} {active : ReconciliationRunEntity}
    {lock : BlockingLock} (htaken : Taken scope first active lock) (hnone : t.locks scope = none)
    (hruns : ∀ r ∈ t.runs, r.reconciliationRunId = lock.lockedByRunId → r.status ≠ .started) :
    Lifted scope first t := by
  refine Or.inr ⟨active, htaken.started, fun r hr hid => hruns r hr ?_, fun l hl => ?_⟩
  · rw [htaken.owner]
    exact hid
  · rw [hnone] at hl
    cases hl

theorem markResolved_lock {scope : LockKey} {first t : Store} {active : ReconciliationRunEntity}
    {lock : BlockingLock} (htaken : Taken scope first active lock) (runId : UUID)
    (cs : Nat → Choice) (ht : t.locks scope = some lock)
    (hnot : ¬ Lifted scope first (step t (.markResolved runId cs))) :
    (step t (.markResolved runId cs)).locks scope = some lock := by
  by_contra hgone
  cases hrun : t.getRun runId with
  | none =>
    have hstep : step t (.markResolved runId cs) = tick (cs 0) t := by
      have hreply : (exec (cs 0) (.reconciliationsGetRun runId) t).1 = none := hrun
      simp only [step, leaves, markResolved, Program.bind_eq, Program.perform_bind,
        Program.run_call, Program.drawing, hreply, Program.run_raise]
      rfl
    rw [hstep] at hgone
    exact hgone ht
  | some r =>
    have hstep : step t (.markResolved runId cs) =
        (tick (cs 2)
          ((tick (cs 1) (tick (cs 0) t)).updateRunStatus runId .resolved none)).releaseLock
          r.accountId none none none (some runId) := by
      have hreply : (exec (cs 0) (.reconciliationsGetRun runId) t).1 = some r := hrun
      simp only [step, leaves, markResolved, Program.bind_eq, Program.perform_bind,
        Program.run_call, Program.drawing, hreply]
      rfl
    rw [hstep] at hgone hnot
    by_cases howner : scope.accountId = r.accountId ∧ lock.lockedByRunId = runId
    · refine hnot (lifted_of_removed htaken ?_ fun run hmem hid => ?_)
      · show Option.filter _ (t.locks scope) = none
        simp only [ht, Option.filter_some, howner, and_self, not_true_eq_false, decide_false,
          Bool.false_eq_true, if_false]
      · have hstatus := Store.updateRunStatus_status _ runId .resolved none run hmem
          (hid.trans howner.2)
        rw [hstatus]
        decide
    · refine hgone ?_
      show Option.filter _ (t.locks scope) = some lock
      simp only [ht, Option.filter_some, howner, not_false_eq_true, decide_true, if_true]

theorem releaseLock_lock {scope : LockKey} {first t : Store} {active : ReconciliationRunEntity}
    {lock : BlockingLock} (htaken : Taken scope first active lock) (accountId : UUID)
    (strategyId : Option UUID) (symbol side : Option String) (runId : Option UUID)
    (cs : Nat → Choice) (ht : t.locks scope = some lock)
    (hscoped : Scoped t (.releaseLock accountId strategyId symbol side runId cs))
    (hnot : ¬ Lifted scope first
      (step t (.releaseLock accountId strategyId symbol side runId cs))) :
    (step t (.releaseLock accountId strategyId symbol side runId cs)).locks scope =
      some lock := by
  have hstep : step t (.releaseLock accountId strategyId symbol side runId cs) =
      (tick (cs 0) t).releaseLock accountId strategyId symbol side runId := rfl
  rw [hstep] at hnot ⊢
  obtain ⟨locks, hframe⟩ := (tick (cs 0) t).releaseLock_frame accountId strategyId symbol side runId
  rcases (tick (cs 0) t).releaseLock_locks accountId strategyId symbol side runId scope with
    hkept | hnone
  · exact hkept.trans ht
  · refine (hnot (lifted_of_removed htaken hnone ?_)).elim
    rw [hframe]
    refine hscoped scope lock ht ?_
    have hsame : (t.releaseLock accountId strategyId symbol side runId).locks scope =
        ((tick (cs 0) t).releaseLock accountId strategyId symbol side runId).locks scope := by
      unfold Store.releaseLock
      split
      · rfl
      · split <;> rfl
    rw [hsame]
    exact hnone

/-- One event of a conditioned run: the lock stays until the block is lifted. -/
theorem step_lock {scope : LockKey} {first t : Store} {active : ReconciliationRunEntity}
    {lock : BlockingLock} (htaken : Taken scope first active lock) (e : Event)
    (ht : t.locks scope = some lock) (hscoped : Scoped t e)
    (hnot : ¬ Lifted scope first (step t e)) : (step t e).locks scope = some lock := by
  cases e with
  | submit sub =>
    exact lock_of_stands htaken (leaves_stands scope lock (submit_only sub) _ t (Or.inl ht)) hnot
  | trigger accountId triggerType strategyId symbol side cs =>
    refine lock_of_stands htaken (leaves_stands scope lock ?_ cs t (Or.inl ht)) hnot
    exact (only_of_aside (trigger_only ..)).mono (fun _ => keepsLocks_of_bookkeeping) fun _ _ =>
      trivial
  | markResolved runId cs => exact markResolved_lock htaken runId cs ht hnot
  | haltRun runId cs =>
    exact lock_of_stands htaken (leaves_stands scope lock (haltRun_only runId) cs t (Or.inl ht))
      hnot
  | releaseLock accountId strategyId symbol side runId cs =>
    exact releaseLock_lock htaken accountId strategyId symbol side runId cs ht hscoped hnot
  | advance elapsed => exact ht

/-- A whole run: while no state on the way has lifted the block, the lock is in place. -/
theorem run_lock {scope : LockKey} {first : Store} {active : ReconciliationRunEntity}
    {lock : BlockingLock} (htaken : Taken scope first active lock) (t : Store) (es : List Event)
    (ht : t.locks scope = some lock) (hes : Runs.Meets step Scoped t es)
    (hnot : ∀ n, ¬ Lifted scope first (run t (es.take n))) :
    (run t es).locks scope = some lock := by
  induction es generalizing t with
  | nil => exact ht
  | cons e es ih =>
    refine ih (step t e) (step_lock htaken e ht hes.1 (hnot 1)) hes.2 fun n => ?_
    exact hnot (n + 1)

theorem lockedOut_of_lock {s : Store} {sub : Submission} {lock : BlockingLock}
    (hstrategy : s.strategyByCode 0 sub.request.strategyId = none)
    (hlock : s.locks sub.scope = some lock)
    (hunexpired : ¬ lock.expiresAt ≤ (tick (sub.cs 1) (tick (sub.cs 0) s)).clock) :
    lockedOut true sub.order sub.request sub.cs s = true := by
  have hfound : (tick (sub.cs 1) (tick (sub.cs 0) s)).locks sub.scope = some lock := hlock
  unfold lockedOut
  rw [lockCheck_scope hstrategy, Bool.true_and]
  unfold Store.isLocked
  rw [hfound]
  simp only [hunexpired, if_false]

theorem submissions_blocked_until_lifted (s : Store) (es : List Event)
    (hes : Runs.Meets step Scoped s es) : BlocksUntilLifted s es := by
  intro pre sub mid later post heq huncertain haccount hsymbol hside first hnot hcheck hreaches
  subst heq
  have hpre := ((Runs.meets_append step Scoped s pre _).mp hes).2
  have hmid := (Runs.meets_append step Scoped first mid _).mp hpre.2
  obtain ⟨active, lock, hactive, hlock, howner⟩ := endsUncertain_engages hpre.1 huncertain
  have htaken : Taken sub.scope first active lock := ⟨hactive, hlock, howner⟩
  have hstill : (run first mid).locks sub.scope = some lock :=
    run_lock htaken first mid hlock hmid.1 hnot
  have hscope : later.scope = sub.scope := by
    unfold Submission.scope
    rw [haccount, hsymbol, hside]
  have hlater : lockedOut true later.order later.request later.cs (run first mid) = true := by
    refine lockedOut_of_lock hmid.2.1.1 (by rw [hscope]; exact hstill) fun hexpired => ?_
    exact hcheck (Or.inl ⟨lock, hlock, hexpired⟩)
  have hunlocked := (reachesBroker_iff _ later).mp hreaches
  rw [hlater] at hunlocked
  cases hunlocked

/-! Two submissions for one account, symbol and side, the first of which ends uncertain. -/

def sampleOrder (id : UUID) : OrderRequestEntity where
  orderRequestId := id
  accountId := 7
  instrumentId := 3
  clientOrderId := "c-1"
  idempotencyKey := "k-1"
  correlationId := "r-1"
  side := .buy
  orderType := .limit
  requestedQuantity := 10
  status := .pendingSubmit

def sampleRequest : SubmitOrderRequest where
  accountRef := "a-1"
  clientOrderId := "c-1"
  correlationId := "r-1"
  strategyId := "s-1"
  symbol := "005930"
  market := "KRX"
  side := .buy
  orderType := .limit
  quantity := 10

def uncertainResult : SubmitOrderResult where
  accepted := true
  brokerName := .koreaInvestment
  clientOrderId := "c-1"
  brokerOrderId := none
  brokerStatus := .submitted
  ackTimestamp := none
  uncertain := true

def uncertainStream : Nat → Choice :=
  fun _ => ⟨1, .ok uncertainResult, fun _ => .error (.other "Unreachable")⟩

def sampleSubmission (id : UUID) : Submission := ⟨sampleOrder id, sampleRequest, uncertainStream⟩

/-- A store with two pending orders of the account. -/
def twoOrders (strategies : List StrategyEntity) : Store :=
  { Store.holding (sampleOrder 1) 0 with
    nextId := 10
    orders := Function.update (Store.holding (sampleOrder 1) 0).orders 2 (some (sampleOrder 2))
    strategies := strategies }

theorem reachesBroker_of_calls {s : Store} {sub : Submission} (calls : List UUID)
    (hbefore : s.brokerCalls = calls)
    (hafter : (step s (.submit sub)).brokerCalls = calls ++ [sub.order.orderRequestId]) :
    ReachesBroker s sub := by
  unfold ReachesBroker
  rw [hbefore, hafter]
  simp

theorem not_lifted {scope : LockKey} {first t : Store} (runId : UUID)
    (hactive : (first.getActiveRun scope.accountId).map (·.reconciliationRunId) = some runId)
    (hruns : (runId, RunStatus.started) ∈ t.runs.map fun r => (r.reconciliationRunId, r.status))
    (hlock : (first.locks scope).all fun lock => t.clock < lock.expiresAt) :
    ¬ Lifted scope first t := by
  rintro (⟨lock, hfound, hexpired⟩ | ⟨active, hfound, hstatus, -⟩)
  · rw [hfound] at hlock
    exact absurd hexpired (Int.not_le.mpr (of_decide_eq_true hlock))
  · rw [hfound] at hactive
    obtain ⟨r, hr, heq⟩ := List.mem_map.mp hruns
    obtain ⟨hid, hstarted⟩ := Prod.mk.inj heq
    exact hstatus r hr (hid.trans (Option.some.inj hactive).symm) hstarted

theorem submissions_blocked_until_lifted_twice :
    EndsUncertain (twoOrders []) (sampleSubmission 1) ∧
    BlocksUntilLifted (twoOrders []) [.submit (sampleSubmission 1), .submit (sampleSubmission 2)] ∧
    ¬ ReachesBroker (step (twoOrders []) (.submit (sampleSubmission 1))) (sampleSubmission 2) := by
  have hfirst : ReachesBroker (twoOrders []) (sampleSubmission 1) :=
    reachesBroker_of_calls [] rfl (by decide +kernel)
  have hsecond : ¬ ReachesBroker (step (twoOrders []) (.submit (sampleSubmission 1)))
      (sampleSubmission 2) := fun h => h (by decide +kernel)
  refine ⟨⟨hfirst, rfl⟩, submissions_blocked_until_lifted _ _ ?_, hsecond⟩
  exact ⟨⟨rfl, fun _ => rfl⟩, ⟨by decide +kernel, fun h => (hsecond h.1).elim⟩, trivial⟩

/-- A scheduled run of the account on another symbol. -/
def otherTrigger : Event :=
  .trigger 7 "scheduled" none (some "000660") (some "buy") uncertainStream

theorem submissions_not_blocked :
    ¬ BlocksUntilLifted (twoOrders [])
      [otherTrigger, .submit (sampleSubmission 1), .submit (sampleSubmission 2)] ∧
    ¬ BlocksUntilLifted (twoOrders [⟨9, 0, "s-1"⟩])
      [.submit (sampleSubmission 1), .submit (sampleSubmission 2)] := by
  constructor
  · intro h
    refine h [otherTrigger] (sampleSubmission 1) [] (sampleSubmission 2) [] rfl
      ⟨reachesBroker_of_calls [] ?_ ?_, rfl⟩ rfl rfl rfl (fun n => ?_) ?_
      (reachesBroker_of_calls [1] ?_ ?_)
    · decide +kernel
    · decide +kernel
    · rw [List.take_nil]
      exact not_lifted 10 (by decide +kernel) (by decide +kernel) (by decide +kernel)
    · exact not_lifted 10 (by decide +kernel) (by decide +kernel) (by decide +kernel)
    · decide +kernel
    · decide +kernel
  · intro h
    refine h [] (sampleSubmission 1) [] (sampleSubmission 2) [] rfl
      ⟨reachesBroker_of_calls [] ?_ ?_, rfl⟩ rfl rfl rfl (fun n => ?_) ?_
      (reachesBroker_of_calls [1] ?_ ?_)
    · decide +kernel
    · decide +kernel
    · rw [List.take_nil]
      exact not_lifted 10 (by decide +kernel) (by decide +kernel) (by decide +kernel)
    · exact not_lifted 10 (by decide +kernel) (by decide +kernel) (by decide +kernel)
    · decide +kernel
    · decide +kernel

end AgentTrading.Reconciliation
