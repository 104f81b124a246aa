import AgentTrading.Orders.OrderManager

/-! Status writes of concurrent transitions. A transition is decided on the caller's copy of
the order, so what a write goes from is known only while that copy is the stored row: at the
first attempt through the version, after a conflict through the status the re-fetch finds.
`R` relates the status a write replaces to the status it stores. -/
namespace AgentTrading.Orders
open Domain Repositories Library

/-- A row that is stored or has been stored before. -/
def WasStored (s : Store) (e : OrderRequestEntity) : Prop :=
  s.orders e.orderRequestId = some e ∨ ∃ w ∈ s.statusWrites, w.1 = e ∨ w.2 = e

/-- Each order is stored under its own identifier and nothing has been written yet. -/
structure Untouched (s : Store) : Prop where
  keyed : ∀ id row, s.orders id = some row → row.orderRequestId = id
  unwritten : s.statusWrites = []

/-- Operations other than the write of a status. -/
def Op.KeepsStatus : Op → Prop
  | .ordersUpdateStatus .. => False
  | _ => True

theorem Op.Bookkeeping.keepsStatus {op : Op} (h : op.Bookkeeping) : op.KeepsStatus := by
  cases op <;> trivial

/-- Operations that touch neither the orders nor the log of their states. -/
def Op.Silent : Op → Prop
  | .ordersUpdateStatus .. => False
  | .orderStateEventsAdd _ => False
  | _ => True

theorem Op.Silent.keepsStatus {op : Op} (h : op.Silent) : op.KeepsStatus := by
  cases op <;> trivial

theorem exec_keepsStatus (c : Choice) (op : Op) (s : Store) (h : op.KeepsStatus) :
    (exec c op s).2.orders = s.orders ∧ (exec c op s).2.statusWrites = s.statusWrites :=
  (exec_writes c op s).orders (by rintro _ _ _ _ _ _ rfl; exact h)

section Relation

variable (R : OrderStatus → OrderStatus → Prop)

/-- A write of order `id` under an expected version that, when it succeeds, is within `R`. -/
def VersionedWrite (id : UUID) (op : Op) (s : Store) : Prop :=
  match op with
  | .ordersUpdateStatus written status _ _ expected _ => written = id ∧ expected.isSome ∧
      ∀ row, s.orders written = some row → expected = some row.version → R row.status status
  | _ => True

/-- A row that was stored is the stored row or older than it. -/
structure VersionedBy (s : Store) : Prop where
  keyed : ∀ id row, s.orders id = some row → row.orderRequestId = id
  within : ∀ w ∈ s.statusWrites, R w.1.status w.2.status
  older : ∀ e, WasStored s e → ∃ row, s.orders e.orderRequestId = some row ∧
    e.version ≤ row.version ∧ (e.version = row.version → e = row)

/-- What a caller may rely on of the others: rows of the past stay known, and a row whose
status `R` lets nothing follow stays as it is. -/
structure LaterBy (s t : Store) : Prop where
  versioned : VersionedBy R s → VersionedBy R t
  stored : ∀ e, WasStored s e → WasStored t e
  settled : ∀ id row, s.orders id = some row → (∀ status, ¬ R row.status status) →
    t.orders id = some row

/-- The store is versioned and `base` is a row of its past. -/
def Knows (base : OrderRequestEntity) (s : Store) : Prop := VersionedBy R s ∧ WasStored s base

theorem later_refl (s : Store) : LaterBy R s s := ⟨id, fun _ => id, fun _ _ h _ => h⟩

theorem later_trans (a b c : Store) (h₁ : LaterBy R a b) (h₂ : LaterBy R b c) : LaterBy R a c :=
  ⟨h₂.versioned ∘ h₁.versioned, fun e => h₂.stored e ∘ h₁.stored e,
    fun id row h hrow => h₂.settled id row (h₁.settled id row h hrow) hrow⟩

theorem knows_stable (base : OrderRequestEntity) (s t : Store) (h : LaterBy R s t)
    (hs : Knows R base s) : Knows R base t :=
  ⟨h.versioned hs.1, h.stored base hs.2⟩

variable {R}

theorem later_of_same {s t : Store} (horders : t.orders = s.orders)
    (hwrites : t.statusWrites = s.statusWrites) : LaterBy R s t := by
  have hstored : ∀ e, WasStored t e ↔ WasStored s e := by
    intro e
    unfold WasStored
    rw [horders, hwrites]
  refine ⟨fun h => ⟨?_, ?_, ?_⟩, fun e he => (hstored e).mpr he, fun id row h _ => ?_⟩
  · rw [horders]
    exact h.keyed
  · rw [hwrites]
    exact h.within
  · intro e he
    rw [horders]
    exact h.older e ((hstored e).mp he)
  · rw [horders]
    exact h

theorem later_writeOrder {s : Store} {id : UUID} {current row : OrderRequestEntity}
    (hcurrent : s.orders id = some current) (hid : row.orderRequestId = id)
    (hversion : row.version = current.version + 1) (hwithin : R current.status row.status) :
    LaterBy R s (s.writeOrder id current row) := by
  have hrow : (s.writeOrder id current row).orders id = some row := Function.update_self ..
  have hne : ∀ j, j ≠ id → (s.writeOrder id current row).orders j = s.orders j :=
    fun j hj => Function.update_of_ne hj ..
  have hwrites : ∀ w, w ∈ (s.writeOrder id current row).statusWrites ↔
      w ∈ s.statusWrites ∨ w = (current, row) := by
    intro w
    simp only [Store.writeOrder, List.mem_append, List.mem_singleton]
  refine ⟨fun h => ?_, fun e he => ?_, fun j r hj hr => ?_⟩
  · have hkey : current.orderRequestId = id := h.keyed id current hcurrent
    have holder : ∀ e, WasStored s e →
        ∃ r, (s.writeOrder id current row).orders e.orderRequestId = some r ∧
          e.version ≤ r.version ∧ (e.version = r.version → e = r) := by
      intro e he
      obtain ⟨r, hr, hle, heq⟩ := h.older e he
      by_cases hj : e.orderRequestId = id
      · rw [hj] at hr ⊢
        rw [hcurrent] at hr
        obtain rfl := Option.some.inj hr
        exact ⟨row, hrow, by omega, fun hv => by omega⟩
      · exact ⟨r, (hne _ hj).trans hr, hle, heq⟩
    refine ⟨fun j r hj => ?_, fun w hw => ?_, fun e he => ?_⟩
    · by_cases hji : j = id
      · subst hji
        rw [hrow] at hj
        obtain rfl := Option.some.inj hj
        exact hid
      · exact h.keyed j r ((hne j hji).symm.trans hj)
    · rcases (hwrites w).mp hw with hw | rfl
      · exact h.within w hw
      · exact hwithin
    · have hself : ∃ r, (s.writeOrder id current row).orders row.orderRequestId = some r ∧
          row.version ≤ r.version ∧ (row.version = r.version → row = r) :=
        ⟨row, by rw [hid]; exact hrow, le_refl _, fun _ => rfl⟩
      rcases he with he | ⟨w, hw, he⟩
      · exact ⟨e, he, le_refl _, fun _ => rfl⟩
      · rcases (hwrites w).mp hw with hw | rfl
        · exact holder e (Or.inr ⟨w, hw, he⟩)
        · rcases he with rfl | rfl
          · exact holder current (Or.inl (by rw [hkey]; exact hcurrent))
          · exact hself
  · rcases he with he | ⟨w, hw, he⟩
    · by_cases hj : e.orderRequestId = id
      · rw [hj, hcurrent] at he
        obtain rfl := Option.some.inj he
        exact Or.inr ⟨_, (hwrites _).mpr (Or.inr rfl), Or.inl rfl⟩
      · exact Or.inl ((hne _ hj).trans he)
    · exact Or.inr ⟨w, (hwrites w).mpr (Or.inl hw), he⟩
  · by_cases hji : j = id
    · subst hji
      rw [hcurrent] at hj
      obtain rfl := Option.some.inj hj
      exact (hr _ hwithin).elim
    · exact (hne j hji).trans hj

theorem exec_later (id : UUID) (c : Choice) (op : Op) (s : Store)
    (hkeyed : ∀ id row, s.orders id = some row → row.orderRequestId = id)
    (hgood : VersionedWrite R id op s) : LaterBy R s (exec c op s).2 := by
  by_cases hop : op.KeepsStatus
  · obtain ⟨horders, hwrites⟩ := exec_keepsStatus c op s hop
    exact later_of_same horders hwrites
  · cases op with
    | ordersUpdateStatus written status rc rm expected submittedAt =>
      obtain ⟨-, hsome, hwithin⟩ := hgood
      obtain ⟨v, rfl⟩ := Option.isSome_iff_exists.mp hsome
      rcases (tick c s).updateStatus_cases written status rc rm (some v) submittedAt with
        ⟨-, heq⟩ | ⟨current, w, -, -, -, heq⟩ | ⟨current, hcurrent, hv, heq⟩
      · simp only [exec, respond, heq]
        exact later_of_same rfl rfl
      · simp only [exec, respond, heq]
        exact later_of_same rfl rfl
      · simp only [exec, respond, heq]
        have hstatus := hwithin current hcurrent (by rw [hv v rfl])
        have hwrite : LaterBy R (tick c s) ((tick c s).writeOrder written current
            (Store.statusRow (tick c s).clock current status rc rm (some v) submittedAt)) :=
          later_writeOrder hcurrent (hkeyed written current hcurrent) rfl hstatus
        exact later_trans R s (tick c s) _ (later_of_same rfl rfl) hwrite
    | _ => exact (hop trivial).elim

theorem versionedWrite_of_keepsStatus (id : UUID) (op : Op) (h : op.KeepsStatus) (s : Store) :
    VersionedWrite R id op s := by
  cases op <;> trivial

/-- The versioned write of an entity derived from `base` succeeds only on `base` itself. -/
theorem versionedWrite_of_knows (base : OrderRequestEntity) (target : OrderStatus) (s : Store)
    (rc rm : Option String) (submittedAt : Option Time) (hs : Knows R base s)
    (hbase : R base.status target) :
    VersionedWrite R base.orderRequestId (.ordersUpdateStatus base.orderRequestId target rc rm
      (some base.version) submittedAt) s := by
  refine ⟨rfl, rfl, fun row hrow hversion => ?_⟩
  obtain ⟨r, hr, -, heq⟩ := hs.1.older base hs.2
  rw [hr] at hrow
  obtain rfl := Option.some.inj hrow
  rw [← heq (Option.some.inj hversion)]
  exact hbase

theorem untouched_versioned {s : Store} (hs : Untouched s) : VersionedBy R s := by
  refine ⟨hs.keyed, fun w hw => ?_, fun e he => ?_⟩
  · rw [hs.unwritten] at hw
    cases hw
  · rcases he with he | ⟨w, hw, -⟩
    · exact ⟨e, he, le_refl _, fun _ => rfl⟩
    · rw [hs.unwritten] at hw
      cases hw

variable {may : Choice → Op → Store → Prop}

/-- Whatever the others do within `R`, the program writes only versioned and within `R`. -/
abbrev WriteSafe (R : OrderStatus → OrderStatus → Prop) (may : Choice → Op → Store → Prop)
    (base : OrderRequestEntity) (p : Code α) : Prop :=
  Program.SafeIn exec (LaterBy R) may (fun _ op s => VersionedWrite R base.orderRequestId op s)
    (Knows R base) p

theorem knows_within (base : OrderRequestEntity) (id : UUID) (c : Choice) (op : Op) (s : Store)
    (hs : Knows R base s) (h : VersionedWrite R id op s) : LaterBy R s (exec c op s).2 :=
  exec_later id c op s hs.1.keyed h

theorem writeSafe_keepsStatus (base : OrderRequestEntity) {Q : Except PyError α → Prop}
    {p : Code α} (hp : p.Only Op.KeepsStatus Q) : WriteSafe R may base p :=
  Program.safeIn_only (knows_stable R base) (knows_within base _) hp
    fun op hop _ s _ => versionedWrite_of_keepsStatus _ op hop s

theorem writeSafe_bind (base : OrderRequestEntity) {Q : Except PyError α → Prop} {p : Code α}
    {f : α → Code β} (hp : p.Only Op.KeepsStatus Q)
    (hf : ∀ a, Q (.ok a) → WriteSafe R may base (f a)) : WriteSafe R may base (p.bind f) :=
  Program.safeIn_bind (knows_stable R base) (knows_within base _) hp
    (fun op hop _ s _ => versionedWrite_of_keepsStatus _ op hop s) hf

theorem only_keepsStatus {Q : Except PyError α → Prop} {p : Code α}
    (hp : p.Only Op.Bookkeeping Q) : p.Only Op.KeepsStatus Q :=
  hp.mono (fun _ h => h.keepsStatus) fun _ => id

/-- A re-fetch may go on from a row that is not terminal and lets the target follow. -/
def RefetchWithin (R : OrderStatus → OrderStatus → Prop) (may : Choice → Op → Store → Prop)
    (target : OrderStatus) : Prop :=
  ∀ c id s row, may c (.ordersGet id) s → s.orders id = some row →
    row.status ∉ terminalStates → R row.status target

theorem refetch_safe (order : OrderRequestEntity) (target : OrderStatus) (args : TransitionArgs)
    (submittedAt : Option Time) (lastAttempt : Bool) (base : OrderRequestEntity)
    (g : OrderRequestEntity → Code α) (hwithin : RefetchWithin R may target)
    (hg : ∀ latest rebuilt : OrderRequestEntity,
      latest.orderRequestId = base.orderRequestId →
      rebuilt.orderRequestId = latest.orderRequestId → rebuilt.version = latest.version →
      rebuilt.status = target → R latest.status target → WriteSafe R may latest (g rebuilt)) :
    WriteSafe R may base
      ((refetch order target args submittedAt base.orderRequestId lastAttempt).bind g) := by
  refine Program.safeIn_call (knows_stable R base) (knows_within base _)
    (fun _ _ _ _ => trivial) ?_
  intro c s hs hmay hs'
  have hreply : (exec c (.ordersGet base.orderRequestId) s).1 = s.orders base.orderRequestId := rfl
  rw [hreply]
  cases hrow : s.orders base.orderRequestId with
  | none => exact Program.safeIn_raise _ _ hs'
  | some latest =>
    by_cases hterminal : latest.status ∈ terminalStates
    · simp only [Program.ret_bind, hterminal, if_true]
      exact Program.safeIn_raise _ _ hs'
    · have hid := hs.1.keyed _ latest hrow
      have hlatest : Knows R latest (exec c (.ordersGet base.orderRequestId) s).2 :=
        ⟨hs'.1, Or.inl (by rw [hid]; exact hrow)⟩
      simp only [Program.ret_bind, hterminal, if_false, Program.bind_eq, Program.bind_assoc]
      rw [← hid]
      refine writeSafe_bind latest
        (only_keepsStatus (only_bookkeeping (replaceStatus_only ..))) ?_ _ hlatest
      rintro rebuilt ⟨sa, ua, hrebuilt⟩
      obtain rfl := Except.ok.inj hrebuilt
      refine writeSafe_bind latest (only_keepsStatus (only_bookkeeping (pause_only _)))
        fun _ _ => ?_
      exact hg latest _ hid rfl rfl rfl (hwithin c _ s latest hmay hrow hterminal)

/-- The invariant of the retry loop: the entity about to be written carries the target and
otherwise the identity and the version of a stored row that the target may follow. -/
theorem retryUpdate_safe (order : OrderRequestEntity) (target : OrderStatus)
    (args : TransitionArgs) (submittedAt : Option Time) (f : OrderRequestEntity → Code α)
    (hf : ∀ a, (f a).Only Op.KeepsStatus fun _ => True) (hwithin : RefetchWithin R may target)
    (n : Nat) (base after : OrderRequestEntity) (lastExc : Option PyError)
    (hid : after.orderRequestId = base.orderRequestId) (hversion : after.version = base.version)
    (hstatus : after.status = target) (hbase : R base.status target) :
    WriteSafe R may base
      ((retryUpdate order target args submittedAt n after lastExc).bind f) := by
  induction n generalizing base after lastExc with
  | zero =>
    cases lastExc with
    | none => exact writeSafe_keepsStatus base (hf after)
    | some e => exact Program.safeIn_raise e
  | succ n ih =>
    refine Program.safeIn_call (knows_stable R base) (knows_within base _) ?_ ?_
    · intro c s hs _
      rw [hid, hversion, hstatus]
      exact versionedWrite_of_knows base target s _ _ _ hs hbase
    · intro c s _ _ hs
      generalize (exec c (.ordersUpdateStatus after.orderRequestId after.status args.reasonCode
        args.reasonMessage (some after.version) submittedAt) s) = result at hs ⊢
      obtain ⟨outcome, t⟩ := result
      rcases outcome with e | ⟨⟩
      · cases e with
        | versionConflict cid expected actual =>
          simp only [Program.ret_bind, Program.bind_eq, Program.bind_assoc]
          rw [hid]
          refine refetch_safe order target args submittedAt _ base _ hwithin ?_ t hs
          exact fun latest rebuilt _ hi hv hst ht => ih latest rebuilt _ hi hv hst ht
        | _ => exact Program.safeIn_raise _ t hs
      · exact writeSafe_keepsStatus base (hf after) t hs

/-- The core of a transition, from an entity with the identity and the version of a row that
the target may follow, and what comes after it. -/
theorem transitionToCore_safe (service : Bool) (order : OrderRequestEntity)
    (target : OrderStatus) (args : TransitionArgs) (base : OrderRequestEntity)
    (f : OrderRequestEntity → Code α) (hf : ∀ a, (f a).Only Op.KeepsStatus fun _ => True)
    (hwithin : RefetchWithin R may target) (hid : order.orderRequestId = base.orderRequestId)
    (hversion : order.version = base.version) (hbase : R base.status target) :
    WriteSafe R may base ((transitionToCore service order target args).bind f) := by
  simp only [transitionToCore, Program.bind_eq, Program.bind_assoc]
  refine writeSafe_bind base (only_keepsStatus (only_bookkeeping (stamp_only _))) ?_
  rintro submittedAt -
  refine writeSafe_bind base (only_keepsStatus (only_bookkeeping (replaceStatus_only ..))) ?_
  rintro after ⟨_, _, hafter⟩
  obtain rfl := Except.ok.inj hafter
  refine retryUpdate_safe order target args submittedAt _ (fun written => ?_) hwithin _ base _
    none hid hversion rfl hbase
  refine (only_keepsStatus (recordTransition_only ..)).bind (fun _ _ => ?_) fun _ _ => trivial
  exact hf written

end Relation

end AgentTrading.Orders
