import AgentTrading.Sync.CleanupChecks

/-! What holds of an order at the moment `expire_eod_orphan_orders` writes EXPIRED. Its creation
time and its submission are those of the row that was listed, or of the row read again after a
conflict; its broker orders and its reconciliation run are read once and may change before the
write. -/
namespace AgentTrading.Sync.Cleanup
open Domain Repositories Library

/-- The jobs, and the cutoff that each cleanup at the end of the day has taken when it began. -/
structure Nights where
  jobs : Jobs
  cutoffs : Nat → Option Time := fun _ => none

/-- The cutoff of a job before it goes on: a cleanup takes its own when it first reads the clock. -/
def takesCutoff (c : Choice) (s : Store) (job : Job) (p : Code Unit) (cutoff : Option Time) :
    Option Time :=
  match job, p, cutoff with
  | .expireEodOrphanOrders ageThreshold, .call (.orders .now) _, none =>
    some ((Orders.tick c.orders s).clock - ageThreshold)
  | _, _, cutoff => cutoff

def nextCutoffs (n : Nights) : JobEvent → Nat → Option Time
  | .start _ _ => n.cutoffs
  | .step t c =>
    match n.jobs.threads t with
    | some (job, p) =>
      Function.update n.cutoffs t (takesCutoff c n.jobs.shared.store job p (n.cutoffs t))
    | none => n.cutoffs

def Nights.step (settings : Settings) (n : Nights) (e : JobEvent) : Nights where
  jobs := n.jobs.step settings e
  cutoffs := nextCutoffs n e

/-- The documented conditions, for the row that is replaced. -/
structure Documented (cutoff : Time) (s : Store) (row : OrderRequestEntity) : Prop where
  noBrokerOrder : brokerOrdersOf s row.orderRequestId = []
  unsubmitted : row.submittedAt = none
  old : ∃ createdAt, row.createdAt = some createdAt ∧ createdAt < cutoff
  reconciled : row.status = .reconcileRequired →
    s.getLatestReconciliationStatusByOrder row.orderRequestId ∈ [none, some .failed]

/-- A write of EXPIRED that goes through finds the documented conditions, and an order whose
reconciliation status could not be read is not expired before it is read again. -/
def ExpiresDocumented (n : Nights) : JobEvent → Prop
  | .start _ _ => True
  | .step t c =>
    match n.jobs.threads t with
    | some (.expireEodOrphanOrders _, .call (.orders
        (.ordersUpdateStatus id .expired _ _ expected _)) _) =>
      ∀ row, n.jobs.shared.store.orders id = some row → (∀ v, expected = some v → v = row.version) →
        ∃ cutoff, n.cutoffs t = some cutoff ∧ Documented cutoff n.jobs.shared.store row
    | some (.expireEodOrphanOrders _, .call (.reconciliationsGetLatestStatusByOrder id) k) =>
      ∀ e, c.failure = some e → ¬ (k (.error e)).Poised SaneReply (Moves (· = .expired) id)
        (· = .reconciliationsGetLatestStatusByOrder id)
    | _ => True

def NoBrokerOrder (orderRequestId : UUID) (s : State) : Prop :=
  brokerOrdersOf s.store orderRequestId = []

/-- The order does not need reconciliation, or its latest run has failed or there is none. -/
def Reconciled (orderRequestId : UUID) (s : State) : Prop :=
  ∀ row, s.store.orders orderRequestId = some row → row.status = .reconcileRequired →
    s.store.getLatestReconciliationStatusByOrder orderRequestId ∈ [none, some .failed]

/-- The reads that tell whether the order needs reconciliation: it is listed as pending, or the
status of its run is read. -/
def Reviews (orderRequestId : UUID) (op : Op) : Prop :=
  (∃ limit, op = .ordersList [.pendingSubmit] limit) ∨
    op = .reconciliationsGetLatestStatusByOrder orderRequestId

/-- Between a cleanup's look at the broker orders of an order and its write, none is added. -/
abbrev SparesBrokerOrders (settings : Settings) (orderRequestId : UUID) (w : Jobs) (e : JobEvent) :
    Prop :=
  Pool.Spares exec (Job.code settings) SaneReply (Acts (· = .expired) orderRequestId)
    (fun _ => ListsBrokerOrders orderRequestId) (NoBrokerOrder orderRequestId) w e

/-- Between a cleanup's listing of an order as pending, or its look at the order's run, and its
write, the order does not come to need a reconciliation that is under way. -/
abbrev SparesReconciled (settings : Settings) (orderRequestId : UUID) (w : Jobs) (e : JobEvent) :
    Prop :=
  Pool.Spares exec (Job.code settings) SaneReply (Acts (· = .expired) orderRequestId)
    (fun _ => Reviews orderRequestId) (Reconciled orderRequestId) w e

/-- The re-fetch of a row by a cleanup that goes on finds it unsubmitted. -/
def FindsUnsubmitted (op : Op) (s : State) : Prop :=
  ∀ id, op = .orders (.ordersGet id) → ∀ row, s.store.orders id = some row →
    row.status ∉ Orders.terminalStates → row.submittedAt = none

/-- What the cleanup's operations come upon. The status of a run can be read and is that of a failed
one or of none; and no order of exactly the age of the cutoff is written. -/
def FindsOrphan (n : Nights) : JobEvent → Prop
  | .start _ _ => True
  | .step t c =>
    match n.jobs.threads t with
    | some (_, .call (.reconciliationsGetLatestStatusByOrder id) _) =>
      c.failure = none ∧
        n.jobs.shared.store.getLatestReconciliationStatusByOrder id ∈ [none, some .failed]
    | some (.expireEodOrphanOrders _, .call (.orders op) _) =>
      FindsUnsubmitted (.orders op) n.jobs.shared ∧
      ∀ id status rc rm expected submittedAt,
        op = .ordersUpdateStatus id status rc rm expected submittedAt →
        ∀ row, n.jobs.shared.store.orders id = some row → row.createdAt ≠ n.cutoffs t
    | _ => True

structure Undisturbed (settings : Settings) (n : Nights) (e : JobEvent) : Prop where
  brokerOrders : ∀ id, SparesBrokerOrders settings id n.jobs e
  reconciled : ∀ id, SparesReconciled settings id n.jobs e
  finds : FindsOrphan n e

/-- Unsubmitted, and not created after the cutoff. -/
def Aged (cutoff : Time) (row : OrderRequestEntity) : Prop :=
  row.submittedAt = none ∧ ∃ createdAt, row.createdAt = some createdAt ∧ createdAt ≤ cutoff

/-- Over aged rows, a cleanup writes EXPIRED and nothing else. -/
def WritesAged (cutoff : Time) (op : Op) (s : State) : Prop :=
  ∀ inner, op = .orders inner →
    Orders.FitWrite (fun _ => Aged cutoff) (· = .expired) inner s.store

theorem writesAged_of_read {cutoff : Time} {op : Op} {s : State}
    (h : ∀ inner, op ≠ .orders inner) : WritesAged cutoff op s :=
  fun inner hinner => (h inner hinner).elim

theorem WritesAged.puts {cutoff : Time} {op : Op} {s : State} (h : WritesAged cutoff op s) :
    Puts (· = .expired) op :=
  fun inner hinner => (h inner hinner).1

/-- What a job may rely on of the others. -/
def StoreEvolves (s t : State) : Prop := Orders.Evolves s.store t.store

theorem storeEvolves_refl (s : State) : StoreEvolves s s := Orders.evolves_refl s.store

theorem storeEvolves_trans (a b c : State) (h₁ : StoreEvolves a b) (h₂ : StoreEvolves b c) :
    StoreEvolves a c :=
  Orders.evolves_trans _ _ _ h₁ h₂

theorem tick_evolves (c : Orders.Choice) (s : Store) : Orders.Evolves s (Orders.tick c s) := by
  have hnow : (Orders.exec c .now s).2 = Orders.tick c s := rfl
  rw [← hnow]
  apply Orders.exec_evolves (P := fun _ => True)
  exact Orders.Op.Bookkeeping.puts (show Orders.Op.Bookkeeping .now from trivial)

theorem exec_storeEvolves {P : OrderStatus → Prop} (c : Choice) {op : Op} (s : State)
    (hop : Puts P op) : StoreEvolves s (exec c op s).2 := by
  cases op with
  | orders inner => exact Orders.exec_evolves c.orders s.store (hop inner rfl)
  | _ => exact tick_evolves c.orders s.store

/-- Whatever the others do to the rows, the cleanup writes over aged ones. -/
abbrev WithinCutoff (cutoff : Time) (K : State → Prop) (p : Code α) : Prop :=
  Program.SafeIn exec StoreEvolves (fun _ => FindsUnsubmitted) (fun _ => WritesAged cutoff) K p

/-- The orders are rows that the table has or has had. -/
def Listed (orders : List OrderRequestEntity) (s : State) : Prop :=
  Orders.Keyed s.store ∧ ∀ order ∈ orders, Orders.Past order s.store

theorem Listed.later {orders : List OrderRequestEntity} (s t : State) (hst : StoreEvolves s t)
    (h : Listed orders s) : Listed orders t :=
  ⟨hst.keyed h.1, fun order horder => (h.2 order horder).later hst⟩

section

variable {cutoff : Time}

theorem writesAged_evolves (orders : List OrderRequestEntity) (c : Choice) (op : Op) (s : State)
    (_ : Listed orders s) (h : WritesAged cutoff op s) : StoreEvolves s (exec c op s).2 :=
  exec_storeEvolves c s h.puts

theorem transitioned_within (settings : Settings) (order : OrderRequestEntity)
    (orders : List OrderRequestEntity) (args : Orders.TransitionArgs) (horder : order ∈ orders)
    (haged : Aged cutoff order) :
    WithinCutoff cutoff (Listed orders) (transitioned settings order .expired args) := by
  have hfit : Orders.FitSafe (fun _ => Aged cutoff) (· = .expired)
      (fun _ op s => FindsUnsubmitted (.orders op) ⟨s, []⟩) order
      (Orders.transitionTo settings.service order .expired args) := by
    apply Orders.transitionTo_fitSafe
    · exact fun _ _ _ _ h => h
    · rintro c id s base row hmay hrow hlive hcreated ⟨-, hold⟩
      exact ⟨hmay id rfl row hrow hlive, hcreated ▸ hold⟩
    · rfl
  apply Program.safeIn_handle Listed.later (writesAged_evolves orders) storeEvolves_refl
  · apply Program.safeIn_seq Listed.later (writesAged_evolves orders) storeEvolves_refl
    · intro s hs
      have hsafe := hfit s.store ⟨hs.2 order horder, haged⟩
      apply Program.Safe.lift Choice.orders State.store (fun _ _ _ => rfl) _ _ hsafe
      · rintro c op s hmay id ⟨⟩
        exact hmay id rfl
      · rintro c op s hgood _ ⟨⟩
        exact hgood
    · exact fun _ => Program.safeIn_ret true
  · exact fun _ => Program.safeIn_ret false

theorem isEodOrphan_only (order : OrderRequestEntity) :
    (isEodOrphan order cutoff).Only (fun op => ∃ id, op = .brokerOrdersListByOrderRequest id)
      fun r => r = .ok true → Aged cutoff order := by
  unfold isEodOrphan
  split
  · simp
  · next createdAt hcreated =>
    split
    · simp
    · next hold =>
      split
      · simp
      · next hunsubmitted =>
        refine ⟨⟨_, rfl⟩, fun r => ?_⟩
        have haged : Aged cutoff order := by
          refine ⟨by simpa using hunsubmitted, createdAt, hcreated, ?_⟩
          exact Int.not_lt.mp hold
        cases r with
        | ok items => exact fun _ => haged
        | error e => exact fun _ => haged

theorem isEodOrphan_within {order : OrderRequestEntity} {orders : List OrderRequestEntity}
    {f : Bool → Code α} (hfalse : WithinCutoff cutoff (Listed orders) (f false))
    (htrue : Aged cutoff order → WithinCutoff cutoff (Listed orders) (f true)) :
    WithinCutoff cutoff (Listed orders) ((isEodOrphan order cutoff).bind f) := by
  apply Program.safeIn_bind Listed.later (writesAged_evolves orders) (isEodOrphan_only order)
  · rintro _ ⟨id, rfl⟩ c s _
    exact writesAged_of_read fun _ h => (by cases h)
  · intro orphan horphan
    cases orphan with
    | false => exact hfalse
    | true => exact htrue (horphan rfl)

theorem Listed.rest {order : OrderRequestEntity} {rest : List OrderRequestEntity} {s : State}
    (h : Listed (order :: rest) s) : Listed rest s :=
  ⟨h.1, fun other hother => h.2 other (List.mem_cons_of_mem _ hother)⟩

theorem expirePending_within (settings : Settings) (now : Time) (orders : List OrderRequestEntity)
    (expired : Nat) :
    WithinCutoff cutoff (Listed orders) (expirePending settings cutoff now orders expired) := by
  induction orders generalizing expired with
  | nil => exact Program.safeIn_ret _
  | cons order rest ih =>
    apply isEodOrphan_within
    · exact fun s hs => ih _ s hs.rest
    · intro haged
      apply Program.safeIn_seq Listed.later (writesAged_evolves _) storeEvolves_refl
      · exact transitioned_within settings order _ _ List.mem_cons_self haged
      · exact fun done s hs => ih _ s hs.rest

theorem expireReconcile_within (settings : Settings) (now : Time)
    (orders : List OrderRequestEntity) (expired : Nat) :
    WithinCutoff cutoff (Listed orders) (expireReconcile settings cutoff now orders expired) := by
  induction orders generalizing expired with
  | nil => exact Program.safeIn_ret _
  | cons order rest ih =>
    apply isEodOrphan_within
    · exact fun s hs => ih _ s hs.rest
    · intro haged
      apply Program.safeIn_bind Listed.later (writesAged_evolves _)
        (reconciliationStatus_only order.orderRequestId)
      · rintro _ rfl c s _
        exact writesAged_of_read fun _ h => (by cases h)
      · intro recStatus _
        apply Program.safeIn_seq Listed.later (writesAged_evolves _) storeEvolves_refl
        · exact transitioned_within settings order _ _ List.mem_cons_self haged
        · exact fun done s hs => ih _ s hs.rest

theorem listed_of_ordersList {c : Choice} {statuses : List OrderStatus} {limit : Nat} {s : State}
    (hs : Orders.Keyed s.store) {orders : List OrderRequestEntity}
    (horders : (exec c (.ordersList statuses limit) s).1 = .ok orders) :
    Listed orders (exec c (.ordersList statuses limit) s).2 := by
  simp only [exec, Choice.read] at horders
  split at horders
  · obtain rfl := Except.ok.inj horders
    refine ⟨hs, fun order horder => ?_⟩
    have hlisted := (List.mem_filter.mp (List.mem_of_mem_take horder)).1
    obtain ⟨id, -, hrow⟩ := List.mem_filterMap.mp hlisted
    exact (Orders.past_stored hs hrow).later (tick_evolves c.orders s.store)
  · cases horders

theorem listing_within {statuses : List OrderStatus} {limit : Nat}
    {f : List OrderRequestEntity → Code α}
    (hf : ∀ orders, WithinCutoff cutoff (Listed orders) (f orders)) :
    WithinCutoff cutoff (Listed [])
      (.call (.ordersList statuses limit) fun listed => (orRaise listed).bind f) := by
  apply Program.safeIn_call Listed.later (writesAged_evolves [])
  · exact fun c s _ _ => writesAged_of_read fun _ h => (by cases h)
  · intro c s hs _ _
    cases hlisted : (exec c (.ordersList statuses limit) s).1 with
    | error e => exact fun _ _ => trivial
    | ok orders => exact hf orders _ (listed_of_ordersList hs.1 hlisted)

end

theorem code_within (settings : Settings) (ageThreshold : Time) :
    ∃ k, (Job.expireEodOrphanOrders ageThreshold).code settings = .call (.orders .now) k ∧
      ∀ now, WithinCutoff (now - ageThreshold) (Listed []) (k now) := by
  refine ⟨_, rfl, fun now => ?_⟩
  apply Program.safeIn_seq Listed.later (writesAged_evolves []) storeEvolves_refl
  · apply listing_within
    intro pendingOrders
    apply Program.safeIn_seq Listed.later (writesAged_evolves _) storeEvolves_refl
    · exact expirePending_within settings now pendingOrders 0
    · intro expiredPending s hs
      apply listing_within (s := s) _ ⟨hs.1, fun _ h => by cases h⟩
      intro reconcileOrders
      apply Program.safeIn_seq Listed.later (writesAged_evolves _) storeEvolves_refl
      · exact expireReconcile_within settings now reconcileOrders 0
      · exact fun expiredReconcile => Program.safeIn_ret _
  · exact fun _ => Program.safeIn_ret ()

end AgentTrading.Sync.Cleanup
