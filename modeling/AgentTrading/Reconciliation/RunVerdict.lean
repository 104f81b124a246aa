import AgentTrading.Orders.TransitionSafety
import AgentTrading.Reconciliation.Worker

/-! What a processed run leaves behind when nobody else writes: the verdict decides over the
run's locks, and an order the broker could not answer for is expired before the run counts
as resolved. -/
namespace AgentTrading.Reconciliation.Worker
open Domain Repositories Library Orders

/-- A program of the worker that runs alone ends in `post`. -/
abbrev Solo (post : Except PyError α → State → Prop) (p : Code α) (s : State) : Prop :=
  Program.Alone exec (fun _ _ _ => True) (fun _ _ _ => True) post p s

/-- The same for a program of the order services. -/
abbrev OrdersSolo (post : Except PyError α → Store → Prop) (p : Orders.Code α) (s : Store) :
    Prop :=
  Program.Alone Orders.exec (fun _ _ _ => True) (fun _ _ _ => True) post p s

theorem solo_call {post : Except PyError α → State → Prop} {op : Op} {k : Reply op → Code α}
    {s : State} (h : ∀ c, Solo post (k (exec c op s).1) (exec c op s).2) :
    Solo post (.call op k) s :=
  Program.alone_call fun c _ => ⟨trivial, h c⟩

theorem solo_ofOrders {post : Except PyError α → Store → Prop} {p : Orders.Code α} {s : State}
    (hp : OrdersSolo post p s.store) :
    Solo (fun r t => ∃ store, post r store ∧ t = { s with store := store }) (ofOrders p) s :=
  Program.Alone.lift State.store (fun s store => { s with store := store })
    (fun c _ => c.orders) (fun _ _ _ => rfl) (fun _ _ _ => rfl) (fun _ _ => rfl)
    (fun _ _ _ => rfl) (fun _ _ _ _ => trivial) (fun _ _ _ _ => trivial) hp

/-- The order is stored as expired. -/
def Expired (t : Store) (orderRequestId : UUID) : Prop :=
  ∃ row, t.orders orderRequestId = some row ∧ row.status = .expired

/-- The answers stand for every link, and where the broker did not know, the order is
expired. -/
structure Reflected (links : List ReconciliationOrderLinkEntity) (answers : List Inquiry)
    (t : Store) : Prop where
  answered : ∀ link ∈ links, ∃ status, ⟨link.orderRequestId, .ok status⟩ ∈ answers ∧
    (status ∈ resolvedStatuses ∨ status = .reconcileRequired)
  expired : ∀ id, ⟨id, .ok .reconcileRequired⟩ ∈ answers → Expired t id

theorem Reflected.append {links more : List ReconciliationOrderLinkEntity}
    {answers later : List Inquiry} {t u : Store} (h : Reflected links answers t)
    (hmoved : MovedToward (· = .expired) t u) (hlater : Reflected more later u) :
    Reflected (links ++ more) (answers ++ later) u := by
  constructor
  · intro link hlink
    rcases List.mem_append.mp hlink with hlink | hlink
    · obtain ⟨status, hmem, hstatus⟩ := h.answered link hlink
      exact ⟨status, List.mem_append_left _ hmem, hstatus⟩
    · obtain ⟨status, hmem, hstatus⟩ := hlater.answered link hlink
      exact ⟨status, List.mem_append_right _ hmem, hstatus⟩
  · intro id hid
    rcases List.mem_append.mp hid with hid | hid
    · exact hmoved.stays (h.expired id hid)
    · exact hlater.expired id hid

/-- Rows move to expired only; `new` is what the broker answered meanwhile. -/
structure Progress (new : List Inquiry) (s t : State) : Prop where
  moved : MovedToward (· = .expired) s.store t.store
  inquiries : t.inquiries = s.inquiries ++ new

theorem Progress.trans {new later : List Inquiry} {s t u : State} (h₁ : Progress new s t)
    (h₂ : Progress later t u) : Progress (new ++ later) s u := by
  refine ⟨MovedToward.trans _ _ _ h₁.moved h₂.moved, ?_⟩
  rw [h₂.inquiries, h₁.inquiries, List.append_assoc]

theorem progress_orders (c : Choice) (op : Orders.Op) (s : State)
    (h : op.Toward (· = .expired)) : Progress [] s (exec c (.orders op) s).2 :=
  ⟨exec_toward c.orders op s.store h, (List.append_nil _).symm⟩

theorem expire_solo {order : OrderRequestEntity} {id : UUID} (runId : UUID)
    (manager : Option Bool) {s : State} (hid : order.orderRequestId = id)
    (hstored : s.store.orders id = some order) :
    Solo (fun r t => Progress [] s t ∧ (r = .ok () → Expired t.store id))
      (ReconciliationRunProcessor.expire id order runId manager) s := by
  cases manager with
  | some service =>
    rw [← hid] at hstored
    have hauthority : OrdersSolo (fun r t => MovedToward (· = .expired) s.store t ∧
        ∀ after, r = .ok after → Expired t order.orderRequestId)
        (transitionToAuthoritative service order .expired runId (some expiredFallback) 3)
        s.store :=
      transitionToAuthoritative_alone service runId _ hstored (by decide) (by decide)
    refine Program.Alone.bind (solo_ofOrders hauthority) ?_ ?_
    · rintro after t ⟨store, ⟨hmoved, hexpired⟩, rfl⟩
      refine Program.alone_ret ⟨⟨hmoved, (List.append_nil _).symm⟩, fun _ => ?_⟩
      rw [← hid]
      exact hexpired after rfl
    · rintro e t ⟨store, ⟨hmoved, -⟩, rfl⟩
      exact ⟨⟨hmoved, (List.append_nil _).symm⟩, by simp⟩
  | none =>
    refine solo_call fun c => ?_
    have hprogress := progress_orders c (.ordersUpdateStatus id .expired (some expiredFallback)
      none (some order.version) none) s (Or.inr (Or.inr ⟨_, _, _, _, _, _, rfl, rfl⟩))
    rcases (tick c.orders s.store).updateStatus_cases id .expired (some expiredFallback) none
        (some order.version) none with ⟨-, heq⟩ | ⟨_, _, -, -, -, heq⟩ | ⟨row, -, -, heq⟩
    · simp only [exec, Orders.exec, respond, heq, orRaise] at hprogress ⊢
      exact Program.alone_raise ⟨hprogress, by simp⟩
    · simp only [exec, Orders.exec, respond, heq, orRaise] at hprogress ⊢
      exact Program.alone_raise ⟨hprogress, by simp⟩
    · simp only [exec, Orders.exec, respond, heq, orRaise] at hprogress ⊢
      exact Program.alone_ret ⟨hprogress, fun _ => ⟨_, Function.update_self .., rfl⟩⟩

theorem tryExpiredFallback_solo (proc : ReconciliationRunProcessor) (id runId : UUID) {s : State}
    (hkeyed : Keyed s.store) :
    Solo (fun r t => Progress [] s t ∧ ∃ done, r = .ok done ∧ (done = true → Expired t.store id))
      (proc.tryExpiredFallback id runId) s := by
  refine solo_call fun c => ?_
  have h₁ := progress_orders c .now s (Or.inl trivial)
  generalize hs₁ : exec c (.orders .now) s = read at h₁ ⊢
  obtain ⟨now, s₁⟩ := read
  refine solo_call fun c' => ?_
  have h₂ := h₁.trans (progress_orders c' (.ordersGet id) s₁ (Or.inr (Or.inl ⟨id, rfl⟩)))
  have hreply : (exec c' (.orders (.ordersGet id)) s₁).1 =
    (exec c' (.orders (.ordersGet id)) s₁).2.store.orders id := rfl
  rw [hreply]
  generalize (exec c' (.orders (.ordersGet id)) s₁).2 = s₂ at h₂ ⊢
  have hfalse : Solo (fun r t => Progress [] s t ∧ ∃ done, r = .ok done ∧
      (done = true → Expired t.store id)) (.ret false) s₂ :=
    Program.alone_ret ⟨h₂, false, rfl, by simp⟩
  cases hrow : s₂.store.orders id with
  | none => exact hfalse
  | some order =>
    cases hcreated : order.createdAt with
    | none => simpa only [Program.ret_bind, hcreated, Program.pure_eq] using hfalse
    | some createdAt =>
      simp only [Program.ret_bind, hcreated]
      split
      · have hexpire := expire_solo runId proc.orderManager
          (h₂.moved.keyed hkeyed id order hrow) hrow
        refine Program.Alone.bind hexpire.outcome ?_ (by simp)
        rintro outcome t ⟨a, ha, hprogress, hexpired⟩
        obtain rfl := Except.ok.inj ha
        refine Program.alone_ret ⟨h₂.trans hprogress, _, rfl, fun hok => ?_⟩
        cases outcome with
        | ok u => exact hexpired rfl
        | error e => simp [Except.isOk, Except.toBool] at hok
      · exact hfalse

/-- A resolved link has an answer that stands, and a row that is expired where the broker
did not know. -/
theorem reflect_solo (proc : ReconciliationRunProcessor) (link : ReconciliationOrderLinkEntity)
    (runId : UUID) (status : OrderStatus) {s : State} (hkeyed : Keyed s.store) :
    Solo (fun r t => Progress [] s t ∧ ∃ outcome, r = .ok outcome ∧ (outcome = .resolved →
      Reflected [link] [⟨link.orderRequestId, .ok status⟩] t.store))
      (proc.reflect link.orderRequestId runId status) s := by
  have hrefl : Progress [] s s := ⟨MovedToward.refl _, (List.append_nil _).symm⟩
  have hreflected : ∀ t : Store, (status ∈ resolvedStatuses ∨ status = .reconcileRequired) →
      (status = .reconcileRequired → Expired t link.orderRequestId) →
      Reflected [link] [⟨link.orderRequestId, .ok status⟩] t := by
    intro t hstatus hexpired
    refine ⟨fun l hl => ?_, fun id hid => ?_⟩
    · rw [List.mem_singleton.mp hl]
      exact ⟨status, List.mem_singleton.mpr rfl, hstatus⟩
    · simp only [List.mem_singleton, Inquiry.mk.injEq, Except.ok.injEq] at hid
      rw [hid.1]
      exact hexpired hid.2.symm
  unfold ReconciliationRunProcessor.reflect
  by_cases hresolved : status ∈ resolvedStatuses
  · simp only [hresolved, if_true]
    refine Program.alone_ret ⟨hrefl, _, rfl, fun _ => hreflected _ (Or.inl hresolved) ?_⟩
    rintro rfl
    exact absurd hresolved (by decide)
  · simp only [hresolved, if_false]
    by_cases hrequired : status = .reconcileRequired
    · simp only [hrequired, if_true]
      refine Program.Alone.bind (tryExpiredFallback_solo proc _ runId hkeyed) ?_ (by simp)
      rintro done t ⟨hprogress, _, hdone, hexpired⟩
      obtain rfl := Except.ok.inj hdone
      refine Program.alone_ret ⟨hprogress, _, rfl, fun houtcome => ?_⟩
      rw [hrequired] at hreflected
      refine hreflected _ (Or.inr rfl) fun _ => hexpired ?_
      cases done with
      | true => rfl
      | false => simp at houtcome
    · simp only [hrequired, if_false]
      exact Program.alone_ret ⟨hrefl, _, rfl, by simp⟩

theorem inquire_solo (proc : ReconciliationRunProcessor) (runId : UUID) (adapter : Adapter)
    (accountRef : String) (link : ReconciliationOrderLinkEntity) (brokerOrder : BrokerOrderEntity)
    {s : State} (hkeyed : Keyed s.store) :
    Solo (fun r t => ∃ new, Progress new s t ∧
      ∀ outcome, r = .ok outcome → outcome = .resolved → Reflected [link] new t.store)
      (proc.inquire runId adapter accountRef link brokerOrder) s := by
  refine solo_call fun c => ?_
  have hreply : exec c (.adapterResolveUnknownState adapter accountRef link.orderRequestId
      brokerOrder.brokerNativeOrderId) s = (c.unknownState,
        { s with inquiries := s.inquiries ++ [⟨link.orderRequestId, c.unknownState⟩] }) := rfl
  rw [hreply]
  cases c.unknownState with
  | error e => exact Program.alone_raise ⟨[_], ⟨MovedToward.refl _, rfl⟩, by simp⟩
  | ok status =>
    refine Program.Alone.mono (reflect_solo proc link runId status ?_) ?_
    · exact hkeyed
    · rintro r t ⟨hprogress, outcome, rfl, hreflected⟩
      refine ⟨_, ⟨hprogress.moved, hprogress.inquiries.trans (List.append_nil _)⟩, ?_⟩
      intro o ho
      obtain rfl := Except.ok.inj ho
      exact hreflected

theorem processOrderLink_solo (proc : ReconciliationRunProcessor) (hlive : proc.dryRun = false)
    (runId : UUID) (adapter : Adapter) (accountRef : String)
    (link : ReconciliationOrderLinkEntity) {s : State} (hkeyed : Keyed s.store) :
    Solo (fun r t => ∃ new, Progress new s t ∧ ∃ outcome, r = .ok outcome ∧
      (outcome = .resolved → Reflected [link] new t.store))
      (proc.processOrderLink runId adapter accountRef link) s := by
  refine solo_call fun c => ?_
  have hread : exec c (.brokerOrdersListByOrderRequest link.orderRequestId) s =
    (s.store.brokerOrders.filter fun item => item.orderRequestId = link.orderRequestId, s) := rfl
  rw [hread]
  cases s.store.brokerOrders.filter fun item => item.orderRequestId = link.orderRequestId with
  | nil =>
    have hrefl : Progress [] s s := ⟨MovedToward.refl _, (List.append_nil _).symm⟩
    exact Program.alone_ret ⟨[], hrefl, _, rfl, by simp⟩
  | cons brokerOrder _ =>
    simp only [Program.ret_bind, hlive, Bool.false_eq_true, if_false]
    apply Program.Alone.handle (inquire_solo proc runId adapter accountRef link brokerOrder hkeyed)
    · rintro outcome t ⟨new, hprogress, hreflected⟩
      exact ⟨new, hprogress, outcome, rfl, hreflected outcome rfl⟩
    · rintro e t ⟨new, hprogress, -⟩
      exact Program.alone_ret ⟨new, hprogress, _, rfl, by simp⟩

theorem processLinks_solo (proc : ReconciliationRunProcessor) (hlive : proc.dryRun = false)
    (runId : UUID) (adapter : Adapter) (accountRef : String)
    (links : List ReconciliationOrderLinkEntity) (tally : Tally) {s : State}
    (hkeyed : Keyed s.store) :
    Solo (fun r t => ∃ new, Progress new s t ∧ ∃ tally', r = .ok tally' ∧
      (tally'.allSucceeded → tally.allSucceeded ∧ Reflected links new t.store))
      (proc.processLinks runId adapter accountRef links tally) s := by
  induction links generalizing tally s with
  | nil =>
    refine Program.alone_ret ⟨[], ⟨MovedToward.refl _, (List.append_nil _).symm⟩, tally, rfl, ?_⟩
    exact fun h => ⟨h, by simp, by simp⟩
  | cons link links ih =>
    refine Program.Alone.bind (processOrderLink_solo proc hlive runId adapter accountRef link
      hkeyed) ?_ (by simp)
    rintro outcome t ⟨new, hprogress, _, houtcome, hreflected⟩
    obtain rfl := Except.ok.inj houtcome
    refine (ih (tally.count link outcome) (hprogress.moved.keyed hkeyed)).mono ?_
    rintro r u ⟨later, hlater, tally', rfl, hrest⟩
    refine ⟨new ++ later, hprogress.trans hlater, tally', rfl, fun hall => ?_⟩
    obtain ⟨hcounted, hlinks⟩ := hrest hall
    cases outcome with
    | resolved => exact ⟨hcounted, (hreflected rfl).append hlater.moved hlinks⟩
    | failed => simp [Tally.count] at hcounted

/-- The account has no lock of the run. -/
def Released (run : ReconciliationRunEntity) (t : Store) : Prop :=
  ∀ key lock, t.locks key = some lock → key.accountId = run.accountId →
    lock.lockedByRunId ≠ run.reconciliationRunId

theorem releaseLock_released (run : ReconciliationRunEntity) (s : Store) :
    Released run (s.releaseLock run.accountId none none none (some run.reconciliationRunId)) := by
  intro key lock hlock haccount hrun
  simp only [Store.releaseLock, Option.filter_eq_some_iff, haccount, hrun] at hlock
  simp at hlock

/-- A step that ends a run writes no order and asks the broker nothing. -/
structure Closed (run : ReconciliationRunEntity) (s t : State) : Prop where
  orders : t.store.orders = s.store.orders
  inquiries : t.inquiries = s.inquiries
  released : Released run t.store

theorem markResolved_solo {run : ReconciliationRunEntity} {s : Store}
    (hstored : s.getRun run.reconciliationRunId = some run) :
    OrdersSolo (fun _ t => t.orders = s.orders ∧ Released run t)
      (markResolved run.reconciliationRunId) s := by
  refine Program.alone_call fun c _ => ⟨trivial, ?_⟩
  have hreply : (Orders.exec c (.reconciliationsGetRun run.reconciliationRunId) s).1 = some run :=
    hstored
  rw [hreply]
  refine Program.alone_call fun _ _ => ⟨trivial, Program.alone_call fun c' _ => ⟨trivial, ?_⟩⟩
  exact Program.alone_ret ⟨rfl, releaseLock_released run _⟩

theorem markRunResolved_solo {run : ReconciliationRunEntity} {s : State}
    (hstored : s.store.getRun run.reconciliationRunId = some run) :
    Solo (fun r t => r = .ok () ∧ Closed run s t)
      (ReconciliationRunProcessor.markRunResolved run) s := by
  refine Program.Alone.bind (solo_ofOrders (markResolved_solo hstored)).outcome ?_ (by simp)
  rintro outcome t ⟨_, -, store, ⟨horders, hreleased⟩, rfl⟩
  exact Program.alone_ret ⟨rfl, horders, rfl, hreleased⟩

theorem markRun_solo (run : ReconciliationRunEntity) (status : RunStatus) (s : State) :
    Solo (fun r t => r = .ok () ∧ Closed run s t)
      (ReconciliationRunProcessor.markRun run status) s := by
  refine solo_call fun _ => solo_call fun _ => solo_call fun c => Program.alone_ret ?_
  exact ⟨rfl, rfl, rfl, releaseLock_released run _⟩

theorem closeRun_solo (proc : ReconciliationRunProcessor) (hlive : proc.dryRun = false)
    {run : ReconciliationRunEntity} (processed : Nat) (tally : Tally) {s : State}
    (hstored : s.store.getRun run.reconciliationRunId = some run) :
    Solo (fun r t => Closed run s t ∧ ∃ result, r = .ok result ∧
      result.status ∈ [.resolved, .failed, .escalated] ∧
      (result.status = .resolved → tally.allSucceeded)) (proc.closeRun run processed tally) s := by
  have hrun : ∀ p, proc.unlessDryRun p = p := fun p => by
    simp [ReconciliationRunProcessor.unlessDryRun, hlive]
  unfold ReconciliationRunProcessor.closeRun
  split
  · rename_i h
    rw [hrun]
    refine Program.Alone.bind (markRunResolved_solo hstored) ?_ (by simp)
    rintro _ t ⟨-, hclosed⟩
    exact Program.alone_ret ⟨hclosed, _, rfl, by simp, fun _ => h.1⟩
  · split
    · rw [hrun]
      refine Program.Alone.bind (markRun_solo run .failed s) ?_ (by simp)
      rintro _ t ⟨-, hclosed⟩
      exact Program.alone_ret ⟨hclosed, _, rfl, by simp, by simp⟩
    · rw [hrun]
      refine Program.Alone.bind (markRun_solo run .reflectionFailed s) ?_ (by simp)
      rintro _ t ⟨-, hclosed⟩
      exact Program.alone_ret ⟨hclosed, _, rfl, by simp, by simp⟩

/-! What comes before the links: neither the store nor the broker's answers change. -/

/-- Reads of accounts, and building the adapter. -/
def Op.Preparing : Op → Prop
  | .accountsGet _ => True
  | .brokerAccountsGet _ => True
  | .brokerCacheGet _ => True
  | .brokerCacheSet .. => True
  | .adapterAuthenticate _ => True
  | _ => False

structure Prepared (s t : State) : Prop where
  store : t.store = s.store
  inquiries : t.inquiries = s.inquiries

theorem exec_prepared (c : Choice) (op : Op) (s : State) (h : op.Preparing) :
    Prepared s (exec c op s).2 := by
  cases op <;> first | exact h.elim | exact ⟨rfl, rfl⟩

theorem solo_preparing {p : Code α} {s : State} (hp : p.Only Op.Preparing fun _ => True) :
    Solo (fun r t => ∃ a, r = .ok a ∧ Prepared s t) p.outcome s := by
  have hprepared : Solo (fun _ t => True ∧ Prepared s t) p s :=
    Program.alone_only (fun _ => ⟨rfl, rfl⟩)
      (fun _ _ _ h₁ h₂ => ⟨h₂.store.trans h₁.store, h₂.inquiries.trans h₁.inquiries⟩)
      exec_prepared hp fun _ _ _ _ _ => trivial
  exact hprepared.outcome.mono fun r t ⟨a, hr, _, h⟩ => ⟨a, hr, h⟩

theorem getBrokerAccount_preparing (accountId : UUID) :
    (ReconciliationRunProcessor.getBrokerAccount accountId).Only Op.Preparing fun _ => True := by
  refine ⟨trivial, fun found => ?_⟩
  rcases found with e | _ | account
  · trivial
  · trivial
  · refine ⟨trivial, fun found => ?_⟩
    cases found <;> trivial

theorem buildAdapter_preparing (brokerAccountId : UUID) (brokerName : String) :
    (ReconciliationRunProcessor.buildAdapterForBrokerAccount brokerAccountId brokerName).Only
      Op.Preparing fun _ => True := by
  unfold ReconciliationRunProcessor.buildAdapterForBrokerAccount
  split
  · trivial
  · refine ⟨trivial, fun found => ?_⟩
    rcases found with e | _ | brokerAccount
    · trivial
    · trivial
    · refine ⟨trivial, fun session => ?_⟩
      cases session <;> trivial

theorem getOrCreateBroker_preparing (accountId : UUID) (brokerAccount : BrokerAccountEntity) :
    (ReconciliationRunProcessor.getOrCreateBroker accountId brokerAccount).Only
      Op.Preparing fun _ => True := by
  refine ⟨trivial, fun cached => ?_⟩
  cases cached with
  | some adapter => trivial
  | none =>
    simp only [Program.ret_bind]
    refine Program.Only.bind (buildAdapter_preparing ..) (fun adapter _ => ?_) fun _ _ => trivial
    cases adapter with
    | none => trivial
    | some adapter => exact ⟨trivial, fun _ => trivial⟩

/-- The verdict on a run decides over its locks. Behind a resolved run stands an answer of
the broker for every linked order, and an order the broker could not place is expired. -/
structure Verdict (run : ReconciliationRunEntity) (status : ProcessingStatus) (s t : State) :
    Prop where
  released : status ∈ [.resolved, .failed, .escalated] → Released run t.store
  held : status ∈ [.retained, .skippedNoLinks] → t.store.locks = s.store.locks
  reflected : status = .resolved → ∃ answers, t.inquiries = s.inquiries ++ answers ∧
    Reflected (s.store.getRunOrderLinks run.reconciliationRunId) answers t.store

theorem verdict_retained {run : ReconciliationRunEntity} {s t : State} (error : String)
    (hlocks : t.store.locks = s.store.locks) :
    Verdict run (ReconciliationRunProcessor.retain run error).status s t :=
  ⟨by simp [ReconciliationRunProcessor.retain], fun _ => hlocks,
    by simp [ReconciliationRunProcessor.retain]⟩

theorem processWithAdapter_solo (proc : ReconciliationRunProcessor) (hlive : proc.dryRun = false)
    {run : ReconciliationRunEntity} (brokerAccount : BrokerAccountEntity)
    (links : List ReconciliationOrderLinkEntity) {s : State} (hkeyed : Keyed s.store)
    (hstored : s.store.getRun run.reconciliationRunId = some run)
    (hlinks : s.store.getRunOrderLinks run.reconciliationRunId = links) :
    Solo (fun r t => ∃ result, r = .ok result ∧ Verdict run result.status s t)
      (proc.processWithAdapter run brokerAccount links) s := by
  refine Program.Alone.bind (solo_preparing (getOrCreateBroker_preparing ..)) ?_ (by simp)
  rintro adapter t ⟨_, -, hprepared⟩
  have hlocks : t.store.locks = s.store.locks := by rw [hprepared.store]
  rcases adapter with e | _ | adapter
  · exact Program.alone_ret ⟨_, rfl, verdict_retained _ hlocks⟩
  · exact Program.alone_ret ⟨_, rfl, verdict_retained _ hlocks⟩
  · rw [← hprepared.store] at hkeyed
    refine Program.Alone.bind (processLinks_solo proc hlive run.reconciliationRunId adapter
      brokerAccount.accountRef links {} hkeyed) ?_ (by simp)
    rintro tally u ⟨new, hprogress, _, htally, hreflected⟩
    obtain rfl := Except.ok.inj htally
    have hstored' : u.store.getRun run.reconciliationRunId = some run := by
      unfold Store.getRun at hstored ⊢
      rw [hprogress.moved.runs, hprepared.store]
      exact hstored
    refine (closeRun_solo proc hlive links.length tally hstored').mono ?_
    rintro r v ⟨hclosed, result, rfl, hstatus, hresolved⟩
    refine ⟨result, rfl, fun _ => hclosed.released, fun hheld => ?_, fun h => ?_⟩
    · revert hstatus hheld
      cases result.status <;> simp
    · obtain ⟨-, hall⟩ := hreflected (hresolved h)
      refine ⟨new, ?_, ?_⟩
      · rw [hclosed.inquiries, hprogress.inquiries, hprepared.inquiries]
      · rw [hlinks]
        refine ⟨hall.answered, fun id hid => ?_⟩
        unfold Expired
        rw [hclosed.orders]
        exact hall.expired id hid

/-- A run that is processed while nobody else writes: once it is reported resolved or failed
its locks are gone, while a run that is retained or skipped keeps them. -/
theorem processRun_verdict (proc : ReconciliationRunProcessor) (hlive : proc.dryRun = false)
    (run : ReconciliationRunEntity) (cs : Nat → Choice) (s : State) (hkeyed : Keyed s.store)
    (hstored : s.store.getRun run.reconciliationRunId = some run) :
    ∃ result, ((proc.processRun run).run (Program.drawing exec) (cs, s)).1 = .ok result ∧
      Verdict run result.status s
        ((proc.processRun run).run (Program.drawing exec) (cs, s)).2.2 := by
  have hsolo : Solo (fun r t => ∃ result, r = .ok result ∧ Verdict run result.status s t)
      (proc.processRun run) s := by
    refine solo_call fun c => ?_
    have hreply : (exec c (.orders (.reconciliationsGetRunOrderLinks run.reconciliationRunId)) s).1
      = s.store.getRunOrderLinks run.reconciliationRunId := rfl
    rw [hreply]
    cases hlinks : s.store.getRunOrderLinks run.reconciliationRunId with
    | nil => exact Program.alone_ret ⟨_, rfl, by simp, fun _ => rfl, by simp⟩
    | cons link rest =>
      simp only [Program.ret_bind]
      refine Program.Alone.bind (solo_preparing (getBrokerAccount_preparing ..)) ?_ (by simp)
      rintro brokerAccount t ⟨_, -, hprepared⟩
      have hlocks : t.store.locks = s.store.locks := by rw [hprepared.store]; rfl
      rcases brokerAccount with e | _ | brokerAccount
      · exact Program.alone_ret ⟨_, rfl, verdict_retained _ hlocks⟩
      · exact Program.alone_ret ⟨_, rfl, verdict_retained _ hlocks⟩
      · have hstore : t.store = tick c.orders s.store := hprepared.store
        refine Program.Alone.mono (processWithAdapter_solo proc hlive brokerAccount (link :: rest)
          ?_ ?_ ?_) ?_
        · rw [hstore]
          exact hkeyed
        · rw [hstore]
          exact hstored
        · rw [hstore]
          exact hlinks
        · rintro r u ⟨result, rfl, hverdict⟩
          refine ⟨result, rfl, hverdict.released, ?_, ?_⟩
          · intro h
            rw [hverdict.held h, hlocks]
          · intro h
            obtain ⟨answers, hanswers, hreflected⟩ := hverdict.reflected h
            have hsame : t.store.getRunOrderLinks run.reconciliationRunId =
                s.store.getRunOrderLinks run.reconciliationRunId := by rw [hstore]; rfl
            rw [hprepared.inquiries] at hanswers
            rw [hsame] at hreflected
            exact ⟨answers, hanswers, hreflected⟩
  exact hsolo.run fun _ _ _ => trivial

def startedRun : ReconciliationRunEntity where
  reconciliationRunId := 9
  accountId := 2
  triggerType := "requires_reconciliation"
  status := .started
  startedAt := 0

def accountLock : LockKey := ⟨2, none, none, some "buy"⟩

/-- The run, its lock, and a broker order for the order linked to it. -/
def underReconciliation (base : Store) : Store :=
  { base with
    runs := [startedRun]
    orderLinks := [⟨9, 1, "pending_inquiry", "requires_reconciliation", 0⟩]
    brokerOrders := [
      { brokerOrderId := 7
        orderRequestId := 1
        brokerName := "koreainvestment"
        brokerStatus := "submitted"
        brokerNativeOrderId := some "0000117057" }]
    locks := Function.update (fun _ => none) accountLock
      (some ⟨"reconciliation:requires_reconciliation", 9, lockTtlMinutes * microsPerMinute⟩) }

def createdAtEpoch (order : OrderRequestEntity) : OrderRequestEntity :=
  { order with createdAt := some 0 }

def oneOrder : State where
  store := underReconciliation
    (Store.holding (createdAtEpoch (Orders.sampleOrder .reconcileRequired)) (31 * microsPerMinute))

def answering (reply : Except PyError OrderStatus) : Nat → Choice := fun _ =>
  { orders := idleChoice
    account := .ok (some ⟨5⟩)
    brokerAccount := .ok (some ⟨5, "koreainvestment", "50123456"⟩)
    authenticate := .ok ()
    unknownState := reply }

def managed : ReconciliationRunProcessor where
  orderManager := some true
  errorText := PyError.className

/-- The run of `oneOrder` under one reply of the broker. -/
def afterReply (reply : Except PyError OrderStatus) : Except PyError ProcessingResult × State :=
  (((managed.processRun startedRun).run (Program.drawing exec) (answering reply, oneOrder)).1,
    ((managed.processRun startedRun).run (Program.drawing exec) (answering reply, oneOrder)).2.2)

theorem oneOrder_keyed : Keyed oneOrder.store :=
  (untouched_holding (createdAtEpoch (Orders.sampleOrder .reconcileRequired))
    (31 * microsPerMinute)).keyed

theorem processRun_verdict_unknown :
    (afterReply (.ok .reconcileRequired)).1.map (·.status) = .ok .resolved ∧
      ∃ result, (afterReply (.ok .reconcileRequired)).1 = .ok result ∧
        Verdict startedRun result.status oneOrder (afterReply (.ok .reconcileRequired)).2 :=
  ⟨rfl, processRun_verdict managed rfl startedRun (answering (.ok .reconcileRequired)) oneOrder
    oneOrder_keyed rfl⟩

/-- Resolved: no linked order needs reconciliation and the locks are gone; anything else: the
locks are held. -/
def LocksUntilResolved (run : ReconciliationRunEntity) (status : ProcessingStatus)
    (s t : State) : Prop :=
  (status = .resolved → Released run t.store ∧
    ∀ link ∈ s.store.getRunOrderLinks run.reconciliationRunId,
      ∀ row, t.store.orders link.orderRequestId = some row → row.status ≠ .reconcileRequired) ∧
  (status ≠ .resolved → t.store.locks = s.store.locks)

/-- An inquiry that fails releases the lock, and an answer of the broker resolves the run
while the order still needs reconciliation. -/
theorem failed_released_and_filled_unreflected :
    ((afterReply (.error (.other "Unreachable"))).1.map (·.status) = .ok .failed ∧
      ¬ LocksUntilResolved startedRun .failed oneOrder
        (afterReply (.error (.other "Unreachable"))).2) ∧
    (afterReply (.ok .filled)).1.map (·.status) = .ok .resolved ∧
      ¬ LocksUntilResolved startedRun .resolved oneOrder (afterReply (.ok .filled)).2 := by
  refine ⟨⟨rfl, fun h => ?_⟩, rfl, fun h => ?_⟩
  · have hlocks := congrFun (h.2 (by decide)) accountLock
    have hgone : (afterReply (.error (.other "Unreachable"))).2.store.locks accountLock = none :=
      rfl
    rw [hgone] at hlocks
    simp [oneOrder, underReconciliation, accountLock] at hlocks
  · exact (h.1 rfl).2 _ (List.mem_singleton.mpr rfl) _ rfl rfl

end AgentTrading.Reconciliation.Worker
