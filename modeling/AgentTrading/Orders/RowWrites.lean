import AgentTrading.Library.CheckThenAct
import AgentTrading.Orders.TargetWrites
import AgentTrading.Orders.VersionedWrites

/-! Writes of a status among concurrent workers, row by row. All of them go under a version, so that
a row of a known version is a known row, and a transition that meets a conflict goes on from the row
it reads again. -/
namespace AgentTrading.Orders
open Domain Repositories Library

/-- A status that is written is in `P`, and it is written under a version. -/
def Op.Puts (P : OrderStatus → Prop) (op : Op) : Prop :=
  ∀ id status rc rm expected submittedAt,
    op = .ordersUpdateStatus id status rc rm expected submittedAt → P status ∧ expected.isSome

section

variable {P : OrderStatus → Prop} {Q : Except PyError α → Prop} {p : Code α}

theorem Op.Bookkeeping.puts {op : Op} (h : op.Bookkeeping) : op.Puts P := by
  rintro _ _ _ _ _ _ rfl
  exact h.elim

theorem only_puts (hp : p.Only Op.Bookkeeping Q) : p.Only (Op.Puts P) Q :=
  hp.mono (fun _ h => h.puts) fun _ => id

theorem noting_puts (hp : p.Only Op.Noting Q) : p.Only (Op.Puts P) Q :=
  only_puts (only_bookkeeping hp)

theorem refetch_puts (order : OrderRequestEntity) (target : OrderStatus) (args : TransitionArgs)
    (submittedAt : Option Time) (id : UUID) (lastAttempt : Bool) :
    (refetch order target args submittedAt id lastAttempt).Only (Op.Puts P)
      fun r => ∀ row, r = .ok row → row.status = target := by
  refine ⟨fun _ _ _ _ _ _ h => (by cases h), fun latest => ?_⟩
  cases latest with
  | none => simp
  | some latest =>
    by_cases h : latest.status ∈ terminalStates
    · simp [h]
    · simp only [Program.ret_bind, h, if_false]
      refine (noting_puts (replaceStatus_only ..)).bind (fun row hrow => ?_) (by simp)
      obtain ⟨_, _, hrow⟩ := hrow
      obtain rfl := Except.ok.inj hrow
      exact (noting_puts (pause_only _)).bind (fun _ _ => by simp) (by simp)

theorem retryUpdate_puts (order : OrderRequestEntity) (target : OrderStatus) (args : TransitionArgs)
    (submittedAt : Option Time) (n : Nat) (after : OrderRequestEntity) (lastExc : Option PyError)
    (hafter : after.status = target) (htarget : P target) :
    (retryUpdate order target args submittedAt n after lastExc).Only (Op.Puts P)
      fun _ => True := by
  induction n generalizing after lastExc with
  | zero => cases lastExc <;> trivial
  | succ n ih =>
    refine ⟨?_, fun outcome => ?_⟩
    · intro id status rc rm expected sa heq
      injection heq with _ hstatus _ _ hexpected
      rw [← hstatus, hafter, ← hexpected]
      exact ⟨htarget, rfl⟩
    · rcases outcome with e | ⟨⟩
      · cases e with
        | versionConflict id expected actual =>
          exact (refetch_puts ..).bind (fun rebuilt h => ih rebuilt _ (h rebuilt rfl)) (by simp)
        | _ => trivial
      · trivial

theorem transitionToCore_puts (service : Bool) (order : OrderRequestEntity) {target : OrderStatus}
    (args : TransitionArgs) (htarget : P target) :
    (transitionToCore service order target args).Only (Op.Puts P) fun _ => True := by
  refine (noting_puts (stamp_only _)).bind (fun submittedAt _ => ?_) (by simp)
  refine (noting_puts (replaceStatus_only ..)).bind (fun after hafter => ?_) (by simp)
  obtain ⟨_, _, hafter⟩ := hafter
  obtain rfl := Except.ok.inj hafter
  refine (retryUpdate_puts order target args submittedAt _ _ none rfl htarget).bind
    (fun _ _ => ?_) (by simp)
  exact (only_puts (recordTransition_only ..)).bind (fun _ _ => trivial) fun _ _ => trivial

theorem transitionTo_puts (service : Bool) (order : OrderRequestEntity) {target : OrderStatus}
    (args : TransitionArgs) (htarget : P target) :
    (transitionTo service order target args).Only (Op.Puts P) fun _ => True := by
  unfold transitionTo
  cases validateTransition order.orderRequestId order.status target with
  | error e => trivial
  | ok u => exact transitionToCore_puts service order _ htarget

/-- The statuses a submission may write. -/
def submitTargets : List OrderStatus := [.submitted, .rejected, .reconcileRequired]

theorem bookkeeping_transitionTo_puts (hp : p.Only Op.Bookkeeping Q) (service : Bool)
    (order : OrderRequestEntity) {target : OrderStatus} (args : TransitionArgs)
    (htarget : P target) :
    (p.bind fun _ => transitionTo service order target args).Only (Op.Puts P) fun _ => True :=
  (only_puts hp).bind (fun _ _ => transitionTo_puts service order args htarget) fun _ _ => trivial

theorem handleResult_puts (service : Bool) (order : OrderRequestEntity)
    (request : SubmitOrderRequest) (actorType actorId : String) (result : SubmitOrderResult) :
    (handleResult service order request actorType actorId result).Only
      (Op.Puts (· ∈ submitTargets)) fun _ => True := by
  unfold handleResult
  split
  · refine (only_puts (triggerFor_only ..)).bind (fun _ _ => ?_) fun _ _ => trivial
    apply bookkeeping_transitionTo_puts (only_bookkeeping (recordSubmissionAttempt_only _))
    decide
  · split
    · refine ⟨(show Op.Bookkeeping .now from trivial).puts, fun _ =>
        ⟨(show Op.Bookkeeping .uuid4 from trivial).puts, fun _ => ⟨?_, fun _ => ?_⟩⟩⟩
      · rintro _ _ _ _ _ _ h
        cases h
      · apply bookkeeping_transitionTo_puts (only_bookkeeping (recordSubmissionAttempt_only _))
        decide
    · apply bookkeeping_transitionTo_puts (only_bookkeeping (recordSubmissionAttempt_only _))
      decide

theorem onBrokerError_puts (service : Bool) (order : OrderRequestEntity)
    (request : SubmitOrderRequest) (actorType actorId : String) (e : BrokerError) :
    (onBrokerError service order request actorType actorId e).Only
      (Op.Puts (· ∈ submitTargets)) fun _ => True := by
  refine (noting_puts (recordSubmissionAttempt_only _)).bind (fun _ _ => ?_) fun _ _ => trivial
  split
  · apply bookkeeping_transitionTo_puts (triggerFor_only ..)
    decide
  · apply transitionTo_puts
    decide

theorem settleOutcome_puts (service : Bool) (order : OrderRequestEntity) (brokerClass : String)
    (request : SubmitOrderRequest) (actorType actorId : String)
    (outcome : Except PyError SubmitOrderResult) :
    (settleOutcome service order brokerClass request actorType actorId outcome).Only
      (Op.Puts (· ∈ submitTargets)) fun _ => True := by
  unfold settleOutcome
  split
  · exact handleResult_puts ..
  · exact onBrokerError_puts ..
  · exact (noting_puts (recordSubmissionAttempt_only _)).bind (fun _ _ => trivial)
      fun _ _ => trivial

theorem submitOrderToBroker_puts (service : Bool) (order : OrderRequestEntity) (id : UUID)
    (request : SubmitOrderRequest) (actorType actorId : String) :
    (submitOrderToBroker service order (remoteBroker id) request actorType actorId).Only
      (Op.Puts (· ∈ submitTargets)) fun _ => True := by
  have hsubmit : (submitUnblocked service order (remoteBroker id) request actorType actorId).Only
      (Op.Puts (· ∈ submitTargets)) fun _ => True := by
    rw [submitUnblocked_remoteBroker]
    refine ⟨fun _ _ _ _ _ _ h => ?_, fun outcome => settleOutcome_puts ..⟩
    cases h
  unfold submitOrderToBroker
  cases service with
  | false => exact hsubmit
  | true =>
    simp only [if_true, Program.bind_eq]
    refine (only_puts (resolveStrategy_only request)).bind (fun strategyId _ => ?_)
      fun _ _ => trivial
    refine (only_puts (isBlocked_only _)).bind (fun blocked _ => ?_) fun _ _ => trivial
    cases blocked with
    | false => exact hsubmit
    | true =>
      apply transitionTo_puts
      decide

end

/-- The clock goes on; an order keeps its creation time, and a row that is another one is of a later
version. -/
structure Evolves (s t : Store) : Prop where
  clock : s.clock ≤ t.clock
  keyed : Keyed s → Keyed t
  rows : ∀ id row, s.orders id = some row → ∃ row', t.orders id = some row' ∧
    row'.createdAt = row.createdAt ∧ row.version ≤ row'.version ∧
    (row.version = row'.version → row' = row)

theorem evolves_refl (s : Store) : Evolves s s :=
  ⟨le_refl _, id, fun _ row h => ⟨row, h, rfl, le_refl _, fun _ => rfl⟩⟩

theorem evolves_trans (a b c : Store) (h₁ : Evolves a b) (h₂ : Evolves b c) : Evolves a c := by
  refine ⟨h₁.clock.trans h₂.clock, h₂.keyed ∘ h₁.keyed, fun id row hrow => ?_⟩
  obtain ⟨row', hrow', hcreated', hle', heq'⟩ := h₁.rows id row hrow
  obtain ⟨row'', hrow'', hcreated'', hle'', heq''⟩ := h₂.rows id row' hrow'
  refine ⟨row'', hrow'', hcreated''.trans hcreated', hle'.trans hle'', fun h => ?_⟩
  have hfirst : row' = row := heq' (by omega)
  rw [heq'' (by omega), hfirst]

theorem keyed_holding (order : OrderRequestEntity) (clock : Time) :
    Keyed (Store.holding order clock) := by
  intro id row hrow
  by_cases hid : id = order.orderRequestId
  · simp only [Store.holding, hid, Function.update_self, Option.some.injEq] at hrow
    rw [← hrow, hid]
  · simp only [Store.holding, Function.update_of_ne hid, reduceCtorEq] at hrow

theorem exec_keyed (c : Choice) (op : Op) {s : Store} (hs : Keyed s) : Keyed (exec c op s).2 := by
  intro id row hrow
  rcases exec_order c op s id with hsame | ⟨status, rc, rm, expected, sa, current, -, hcur, hnew⟩
  · rw [hsame] at hrow
    exact hs id row hrow
  · rw [hnew] at hrow
    obtain rfl := Option.some.inj hrow
    exact hs id current hcur

theorem exec_evolves {P : OrderStatus → Prop} (c : Choice) {op : Op} (s : Store)
    (h : op.Puts P) : Evolves s (exec c op s).2 := by
  have hclock := exec_clock c op s
  refine ⟨?_, exec_keyed c op, fun id row hrow => ?_⟩
  · rw [hclock]
    exact Int.le_add_of_nonneg_right (Int.natCast_nonneg _)
  · rcases exec_order c op s id with hsame |
        ⟨status, rc, rm, expected, sa, current, hop, hcur, hnew⟩
    · exact ⟨row, hsame.trans hrow, rfl, le_refl _, fun _ => rfl⟩
    · rw [hrow] at hcur
      obtain rfl := Option.some.inj hcur
      have hversion : (Store.statusRow (tick c s).clock row status rc rm expected sa).version =
          row.version + 1 := by
        simp only [Store.statusRow, (h _ _ _ _ _ _ hop).2, if_true]
      refine ⟨_, hnew, rfl, by omega, fun hsame => ?_⟩
      omega

/-- A row of the past: the stored row is it or a later one. -/
structure Past (base : OrderRequestEntity) (s : Store) : Prop where
  keyed : Keyed s
  row : ∃ row, s.orders base.orderRequestId = some row ∧ row.createdAt = base.createdAt ∧
    base.version ≤ row.version ∧ (base.version = row.version → row = base)

theorem Past.later {base : OrderRequestEntity} {s t : Store} (h : Past base s)
    (hst : Evolves s t) : Past base t := by
  obtain ⟨row, hrow, hcreated, hle, heq⟩ := h.row
  obtain ⟨row', hrow', hcreated', hle', heq'⟩ := hst.rows _ row hrow
  refine ⟨hst.keyed h.keyed, row', hrow', hcreated'.trans hcreated, hle.trans hle', fun hsame => ?_⟩
  rw [heq' (by omega), heq (by omega)]

theorem past_stored {id : UUID} {row : OrderRequestEntity} {s : Store} (hs : Keyed s)
    (hrow : s.orders id = some row) : Past row s := by
  refine ⟨hs, row, ?_, rfl, le_refl _, fun _ => rfl⟩
  rw [hs id row hrow]
  exact hrow

section

variable (Fit : Store → OrderRequestEntity → Prop)

/-- A write of a status in `P` under a version, over a row that fits. -/
def FitWrite (P : OrderStatus → Prop) (op : Op) (s : Store) : Prop :=
  op.Puts P ∧ ∀ id status rc rm expected submittedAt,
    op = .ordersUpdateStatus id status rc rm expected submittedAt →
    ∀ row, s.orders id = some row → expected = some row.version → Fit s row

variable {P : OrderStatus → Prop} {may : Choice → Op → Store → Prop}

/-- Whatever versioned writes the others make, the program writes over rows that fit. -/
abbrev FitSafe (P : OrderStatus → Prop) (may : Choice → Op → Store → Prop)
    (base : OrderRequestEntity) (p : Code α) : Prop :=
  Program.SafeIn exec Evolves may (fun _ => FitWrite Fit P)
    (fun s => Past base s ∧ Fit s base) p

theorem fitWrite_of_keepsStatus {op : Op} (h : op.KeepsStatus) (s : Store) :
    FitWrite Fit P op s := by
  constructor
  · rintro _ _ _ _ _ _ rfl
    exact h.elim
  · rintro _ _ _ _ _ _ rfl
    exact h.elim

/-- A re-fetch that goes on has read a row that fits, as an earlier row of the order did. -/
def RefetchFits (may : Choice → Op → Store → Prop) : Prop :=
  ∀ c id s base row, may c (.ordersGet id) s → s.orders id = some row →
    row.status ∉ terminalStates → row.createdAt = base.createdAt → Fit s base → Fit s row

variable {Fit} (later : ∀ s t row, Evolves s t → Fit s row → Fit t row)

theorem fitWrite_within (base : OrderRequestEntity) (c : Choice) (op : Op) (s : Store)
    (_ : Past base s ∧ Fit s base) (h : FitWrite Fit P op s) : Evolves s (exec c op s).2 :=
  exec_evolves c s h.1

theorem fitWrite_of_past {base after : OrderRequestEntity} {s : Store} (hs : Past base s)
    (hfit : Fit s base) (hid : after.orderRequestId = base.orderRequestId)
    (hversion : after.version = base.version) (hstatus : P after.status) (rc rm : Option String)
    (submittedAt : Option Time) :
    FitWrite Fit P (.ordersUpdateStatus after.orderRequestId after.status rc rm
      (some after.version) submittedAt) s := by
  constructor
  · intro id status rc rm expected sa heq
    injection heq with _ hwritten _ _ hexpected
    rw [← hwritten, ← hexpected]
    exact ⟨hstatus, rfl⟩
  · intro id status rc rm expected sa heq row hrow hexpected
    injection heq with hwritten _ _ _ hversioned
    obtain ⟨current, hcurrent, -, -, hsame⟩ := hs.row
    rw [← hwritten, hid, hcurrent] at hrow
    obtain rfl := Option.some.inj hrow
    rw [← hversioned, hversion] at hexpected
    rw [hsame (Option.some.inj hexpected)]
    exact hfit

include later

theorem fit_stable (base : OrderRequestEntity) (s t : Store) (h : Evolves s t)
    (hs : Past base s ∧ Fit s base) : Past base t ∧ Fit t base :=
  ⟨hs.1.later h, later s t base h hs.2⟩

theorem fitSafe_keepsStatus (base : OrderRequestEntity) {Q : Except PyError α → Prop} {p : Code α}
    (hp : p.Only Op.KeepsStatus Q) : FitSafe Fit P may base p :=
  Program.safeIn_only (fit_stable later base) (fitWrite_within base) hp
    fun _ hop _ s _ => fitWrite_of_keepsStatus Fit hop s

theorem fitSafe_bind (base : OrderRequestEntity) {Q : Except PyError α → Prop} {p : Code α}
    {f : α → Code β} (hp : p.Only Op.KeepsStatus Q)
    (hf : ∀ a, Q (.ok a) → FitSafe Fit P may base (f a)) : FitSafe Fit P may base (p.bind f) :=
  Program.safeIn_bind (fit_stable later base) (fitWrite_within base) hp
    (fun _ hop _ s _ => fitWrite_of_keepsStatus Fit hop s) hf

theorem refetch_fitSafe (refetches : RefetchFits Fit may) (order : OrderRequestEntity)
    (target : OrderStatus) (args : TransitionArgs) (submittedAt : Option Time)
    (lastAttempt : Bool) (base : OrderRequestEntity) (g : OrderRequestEntity → Code α)
    (hg : ∀ latest rebuilt : OrderRequestEntity, rebuilt.orderRequestId = latest.orderRequestId →
      rebuilt.version = latest.version → rebuilt.status = target →
      FitSafe Fit P may latest (g rebuilt)) :
    FitSafe Fit P may base
      ((refetch order target args submittedAt base.orderRequestId lastAttempt).bind g) := by
  have hread (s : Store) : FitWrite Fit P (.ordersGet base.orderRequestId) s := by
    apply fitWrite_of_keepsStatus
    trivial
  refine Program.safeIn_call (fit_stable later base) (fitWrite_within base)
    (fun _ s _ _ => hread s) ?_
  intro c s hs hmay hs'
  have hreply : (exec c (.ordersGet base.orderRequestId) s).1 = s.orders base.orderRequestId := rfl
  have horders : (exec c (.ordersGet base.orderRequestId) s).2.orders = s.orders := rfl
  rw [hreply]
  cases hrow : s.orders base.orderRequestId with
  | none => exact fun _ _ => trivial
  | some latest =>
    by_cases hterminal : latest.status ∈ terminalStates
    · simp only [Program.ret_bind, hterminal, if_true]
      exact fun _ _ => trivial
    · have hcreated : latest.createdAt = base.createdAt := by
        obtain ⟨row, hstored, hcreated, -⟩ := hs.1.row
        rw [hrow] at hstored
        obtain rfl := Option.some.inj hstored
        exact hcreated
      have hfit : Fit s latest := refetches c _ s base latest hmay hrow hterminal hcreated hs.2
      have hpast : Past latest s := past_stored hs.1.keyed hrow
      have hevolves : Evolves s (exec c (.ordersGet base.orderRequestId) s).2 :=
        fitWrite_within base c _ s hs (hread s)
      simp only [Program.ret_bind, hterminal, if_false, Program.bind_eq, Program.bind_assoc]
      refine fitSafe_bind later latest
        (only_keepsStatus (only_bookkeeping (replaceStatus_only ..))) ?_ _
        (fit_stable later latest _ _ hevolves ⟨hpast, hfit⟩)
      rintro rebuilt ⟨sa, ua, hrebuilt⟩
      obtain rfl := Except.ok.inj hrebuilt
      refine fitSafe_bind later latest (only_keepsStatus (only_bookkeeping (pause_only _)))
        fun _ _ => ?_
      exact hg latest _ rfl rfl rfl

/-- The invariant of the retry loop: the entity about to be written is made from a row that fits. -/
theorem retryUpdate_fitSafe (refetches : RefetchFits Fit may) (order : OrderRequestEntity)
    (target : OrderStatus) (args : TransitionArgs) (submittedAt : Option Time)
    (f : OrderRequestEntity → Code α) (hf : ∀ a, (f a).Only Op.KeepsStatus fun _ => True)
    (htarget : P target) (n : Nat) (base after : OrderRequestEntity) (lastExc : Option PyError)
    (hid : after.orderRequestId = base.orderRequestId) (hversion : after.version = base.version)
    (hstatus : after.status = target) :
    FitSafe Fit P may base
      ((retryUpdate order target args submittedAt n after lastExc).bind f) := by
  induction n generalizing base after lastExc with
  | zero =>
    cases lastExc with
    | none => exact fitSafe_keepsStatus later base (hf after)
    | some e => exact Program.safeIn_raise e
  | succ n ih =>
    refine Program.safeIn_call (fit_stable later base) (fitWrite_within base) ?_ ?_
    · intro c s hs _
      apply fitWrite_of_past hs.1 hs.2 hid hversion
      rw [hstatus]
      exact htarget
    · intro c s _ _ hs
      generalize (exec c (.ordersUpdateStatus after.orderRequestId after.status args.reasonCode
        args.reasonMessage (some after.version) submittedAt) s) = result at hs ⊢
      obtain ⟨outcome, t⟩ := result
      rcases outcome with e | ⟨⟩
      · cases e with
        | versionConflict cid expected actual =>
          simp only [Program.ret_bind, Program.bind_eq, Program.bind_assoc]
          rw [hid]
          refine refetch_fitSafe later refetches order target args submittedAt _ base _ ?_ t hs
          exact fun latest rebuilt hi hv hst => ih latest rebuilt _ hi hv hst
        | _ => exact fun _ _ => trivial
      · exact fitSafe_keepsStatus later base (hf after) t hs

theorem transitionTo_fitSafe (refetches : RefetchFits Fit may) (service : Bool)
    (order : OrderRequestEntity) (target : OrderStatus) (args : TransitionArgs)
    (htarget : P target) : FitSafe Fit P may order (transitionTo service order target args) := by
  unfold transitionTo
  cases validateTransition order.orderRequestId order.status target with
  | error e => exact Program.safeIn_raise e
  | ok u =>
    simp only [orRaise, transitionToCore, Program.bind_eq, Program.ret_bind]
    refine fitSafe_bind later order (only_keepsStatus (only_bookkeeping (stamp_only _)))
      fun submittedAt _ => ?_
    refine fitSafe_bind later order (only_keepsStatus (only_bookkeeping (replaceStatus_only ..))) ?_
    rintro after ⟨sa, ua, hafter⟩
    obtain rfl := Except.ok.inj hafter
    apply retryUpdate_fitSafe later refetches order target _ submittedAt _ _ htarget _ order
    · rfl
    · rfl
    · rfl
    · intro written
      exact (only_keepsStatus (recordTransition_only ..)).bind (fun _ _ => trivial)
        fun _ _ => trivial

end

/-- A row that is read has the identifier it is read by. -/
def SaneReply (op : Op) (reply : Reply op) : Prop :=
  match op, reply with
  | .ordersGet id, reply => ∀ row, reply = some row → row.orderRequestId = id
  | _, _ => True

theorem exec_sane (c : Choice) (op : Op) (s : Store) (hs : Keyed s) :
    SaneReply op (exec c op s).1 := by
  cases op <;> first | trivial | skip
  case ordersGet id => exact fun row hrow => hs id row hrow

/-- A write of a status in `P` to the order. -/
def Op.WritesTo (P : OrderStatus → Prop) (orderRequestId : UUID) (op : Op) : Prop :=
  ∃ status rc rm expected submittedAt,
    P status ∧ op = .ordersUpdateStatus orderRequestId status rc rm expected submittedAt

section

variable {P : OrderStatus → Prop} {other : UUID} {check : Op → Prop}

theorem Op.KeepsStatus.no_write {op : Op} (h : op.KeepsStatus) : ¬ op.WritesTo P other := by
  rintro ⟨_, _, _, _, _, -, rfl⟩
  exact h

theorem refetch_unpoised (order : OrderRequestEntity) (target : OrderStatus) (args : TransitionArgs)
    (submittedAt : Option Time) (id : UUID) (lastAttempt : Bool) (g : OrderRequestEntity → Code α)
    (hg : ∀ rebuilt : OrderRequestEntity, rebuilt.orderRequestId = id →
      ¬ (g rebuilt).Poised SaneReply (Op.WritesTo P other) check) :
    ¬ ((refetch order target args submittedAt id lastAttempt).bind g).Poised SaneReply
      (Op.WritesTo P other) check := by
  rintro (⟨_, _, _, _, _, -, h⟩ | ⟨-, latest, hlatest, h⟩)
  · cases h
  · cases latest with
    | none => exact h
    | some latest =>
      have hid : latest.orderRequestId = id := hlatest latest rfl
      by_cases hterminal : latest.status ∈ terminalStates
      · simp only [Program.ret_bind, hterminal, if_true] at h
        exact h
      · simp only [Program.ret_bind, hterminal, if_false, Program.bind_eq, Program.bind_assoc] at h
        refine (only_keepsStatus (only_bookkeeping (replaceStatus_only ..))).unpoised_bind
          (fun _ hop => hop.no_write) ?_ h
        rintro rebuilt ⟨sa, ua, hrebuilt⟩
        obtain rfl := Except.ok.inj hrebuilt
        apply (only_keepsStatus (only_bookkeeping (pause_only _))).unpoised_bind
          (fun _ hop => hop.no_write)
        exact fun _ _ => hg _ hid

theorem retryUpdate_unpoised (order : OrderRequestEntity) (target : OrderStatus)
    (args : TransitionArgs) (submittedAt : Option Time) (n : Nat) (after : OrderRequestEntity)
    (lastExc : Option PyError) (hafter : after.orderRequestId ≠ other) :
    ¬ (retryUpdate order target args submittedAt n after lastExc).Poised SaneReply
      (Op.WritesTo P other) check := by
  induction n generalizing after lastExc with
  | zero => cases lastExc <;> exact id
  | succ n ih =>
    rintro (⟨_, _, _, _, _, -, h⟩ | ⟨-, outcome, -, h⟩)
    · injection h with hid
      exact hafter hid
    · rcases outcome with e | ⟨⟩
      · cases e with
        | versionConflict id expected actual =>
          refine refetch_unpoised order target args submittedAt _ _ _ ?_ h
          exact fun rebuilt hid => ih rebuilt _ (hid ▸ hafter)
        | _ => exact h
      · exact h

theorem transitionTo_unpoised (service : Bool) (order : OrderRequestEntity) (target : OrderStatus)
    (args : TransitionArgs) (hother : order.orderRequestId ≠ other) :
    ¬ (transitionTo service order target args).Poised SaneReply (Op.WritesTo P other) check := by
  unfold transitionTo
  cases validateTransition order.orderRequestId order.status target with
  | error e => exact id
  | ok u =>
    simp only [orRaise, transitionToCore, Program.bind_eq, Program.ret_bind]
    apply (only_keepsStatus (only_bookkeeping (stamp_only _))).unpoised_bind
      (fun _ hop => hop.no_write)
    intro submittedAt _
    apply (only_keepsStatus (only_bookkeeping (replaceStatus_only ..))).unpoised_bind
      (fun _ hop => hop.no_write)
    rintro after ⟨sa, ua, hafter⟩
    obtain rfl := Except.ok.inj hafter
    apply Program.unpoised_bind
    · apply retryUpdate_unpoised
      exact hother
    · intro written
      apply (only_keepsStatus (recordTransition_only ..)).unpoised_bind
        (fun _ hop => hop.no_write)
      exact fun _ _ => id

end

end AgentTrading.Orders
