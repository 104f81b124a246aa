import AgentTrading.Orders.Submission
import AgentTrading.Orders.VersionedWrites

/-! Transitions against a repository that may refuse any status write, with no other writer. A
transition that fails leaves the row as it was, and one from the stored row goes through exactly if
one of its attempts does. -/
namespace AgentTrading.Orders
open Domain Repositories Library

/-- The exception with which the repository refuses the status write of a number, if it does. -/
abbrev Refusals := Nat → Option PyError

/-- The store, and the number of status writes it has been asked for. -/
structure Asked where
  store : Store
  writes : Nat

namespace Refusals

variable (refuses : Refusals)

def exec (c : Choice) (op : Op) (s : Asked) : Reply op × Asked :=
  match op with
  | .ordersUpdateStatus id status rc rm expected submittedAt =>
    match refuses s.writes with
    | some e => (.error e, ⟨tick c s.store, s.writes + 1⟩)
    | none =>
      ((Orders.exec c (.ordersUpdateStatus id status rc rm expected submittedAt) s.store).1,
        ⟨(Orders.exec c (.ordersUpdateStatus id status rc rm expected submittedAt) s.store).2,
          s.writes + 1⟩)
  | op => ((Orders.exec c op s.store).1, ⟨(Orders.exec c op s.store).2, s.writes⟩)

/-- Whether one of so many attempts goes through that begin with the status write of a number, and
the number of the next write. The row is read again after a conflict, and given up if terminal. -/
def attempts (terminal : Bool) : Nat → Nat → Bool × Nat
  | 0, n => (false, n)
  | remaining + 1, n =>
    match refuses n with
    | none => (true, n + 1)
    | some (.versionConflict ..) =>
      if terminal then (false, n + 1) else attempts terminal remaining (n + 1)
    | some _ => (false, n + 1)

/-- Whether a transition goes through, and the number of the next write. -/
def goesThrough (status target : OrderStatus) (maxRetries n : Nat) : Bool × Nat :=
  if target ∈ allowedTransitions status then
    refuses.attempts (status ∈ terminalStates) maxRetries n
  else (false, n)

end Refusals

variable {refuses : Refusals}

/-- A program that runs against the repository with no other writer ends in `post`. -/
abbrev Faces (refuses : Refusals) (post : Except PyError α → Asked → Prop) (p : Code α)
    (s : Asked) : Prop :=
  Program.Alone refuses.exec (fun _ _ _ => True) (fun _ _ _ => True) post p s

/-- The order is stored in the status. -/
def HasStatus (id : UUID) (status : OrderStatus) (s : Store) : Prop :=
  ∃ row, s.orders id = some row ∧ row.orderRequestId = id ∧ row.status = status

/-- No status was written. -/
structure Still (s t : Asked) : Prop where
  orders : t.store.orders = s.store.orders
  writes : t.writes = s.writes

theorem Still.refl (s : Asked) : Still s s := ⟨rfl, rfl⟩

theorem Still.trans (a b c : Asked) (h₁ : Still a b) (h₂ : Still b c) : Still a c :=
  ⟨h₂.orders.trans h₁.orders, h₂.writes.trans h₁.writes⟩

theorem exec_still (c : Choice) {op : Op} (s : Asked) (h : op.KeepsStatus) :
    Still s (refuses.exec c op s).2 := by
  have hnot (id status rc rm expected submittedAt) :
      op ≠ .ordersUpdateStatus id status rc rm expected submittedAt := by
    rintro rfl
    exact h
  have horders := ((exec_writes c op s.store).orders hnot).1
  cases op with
  | ordersUpdateStatus => exact h.elim
  | _ => exact ⟨horders, rfl⟩

theorem faces_still {Q : Except PyError α → Prop} {p : Code α} (hp : p.Only Op.KeepsStatus Q)
    (s : Asked) : Faces refuses (fun r t => Q r ∧ Still s t) p s :=
  Program.alone_only Still.refl Still.trans
    (fun c op t h => (exec_still c t h : Still t (refuses.exec c op t).2)) hp fun _ _ _ _ _ =>
      trivial

theorem faces_noting {Q : Except PyError α → Prop} {p : Code α} (hp : p.Only Op.Noting Q)
    (s : Asked) : Faces refuses (fun r t => Q r ∧ Still s t) p s :=
  faces_still (only_keepsStatus (only_bookkeeping hp)) s

/-- A transition of the stored row ends with the order in the target, or with the row untouched. -/
def Lands (row : OrderRequestEntity) (target : OrderStatus) (r : Except PyError OrderRequestEntity)
    (t : Asked) : Prop :=
  match r with
  | .ok moved => moved.orderRequestId = row.orderRequestId ∧ moved.status = target ∧
      HasStatus row.orderRequestId target t.store
  | .error _ => t.store.orders row.orderRequestId = some row

section

variable {row : OrderRequestEntity} {target : OrderStatus} {args : TransitionArgs}
variable {submittedAt : Option Time} {s : Asked}

/-- The row that is read again makes the entity of the next attempt, unless it is terminal. -/
theorem refetch_faces (order : OrderRequestEntity) (lastAttempt : Bool)
    {g : OrderRequestEntity → Code α} {post : Except PyError α → Asked → Prop}
    (hrow : s.store.orders row.orderRequestId = some row)
    (hterminal : row.status ∈ terminalStates → ∀ e t, Still s t → post (.error e) t)
    (hlive : row.status ∉ terminalStates → ∀ rebuilt t, Still s t →
      rebuilt.orderRequestId = row.orderRequestId → rebuilt.status = target →
      rebuilt.version = row.version → Faces refuses post (g rebuilt) t) :
    Faces refuses post
      ((refetch order target args submittedAt row.orderRequestId lastAttempt).bind g) s := by
  apply Program.alone_call
  intro c _
  refine ⟨trivial, ?_⟩
  have hstill : Still s (refuses.exec c (.ordersGet row.orderRequestId) s).2 :=
    exec_still c s trivial
  have hreply : (refuses.exec c (.ordersGet row.orderRequestId) s).1 = some row := hrow
  rw [hreply]
  by_cases h : row.status ∈ terminalStates
  · simp only [Program.ret_bind, h, if_true]
    exact Program.alone_raise (hterminal h _ _ hstill)
  · simp only [Program.ret_bind, h, if_false, Program.bind_eq, Program.bind_assoc]
    apply Program.Alone.bind (faces_noting (replaceStatus_only ..) _)
    · rintro rebuilt t₁ ⟨⟨sa, ua, hrebuilt⟩, hstill₁⟩
      obtain rfl := Except.ok.inj hrebuilt
      apply Program.Alone.bind (faces_noting (pause_only _) t₁)
      · rintro _ t₂ ⟨-, hstill₂⟩
        apply hlive h _ _ (.trans _ _ _ hstill (.trans _ _ _ hstill₁ hstill₂))
        · rfl
        · rfl
        · rfl
      · rintro e t₂ ⟨he, -⟩
        cases he
    · rintro e t₁ ⟨⟨sa, ua, he⟩, -⟩
      cases he

/-- Behind a write that came to nothing the attempts that are left decide, and none is left where
the row is terminal. -/
theorem conflict_faces (order : OrderRequestEntity) (n : Nat)
    {later : OrderRequestEntity → Code OrderRequestEntity}
    (hrow : s.store.orders row.orderRequestId = some row)
    (hlater : ∀ rebuilt t, t.store.orders row.orderRequestId = some row →
      rebuilt.orderRequestId = row.orderRequestId → rebuilt.status = target →
      rebuilt.version = row.version →
      Faces refuses (fun r u => Lands row target r u ∧
        (r.isOk, u.writes) = refuses.attempts (row.status ∈ terminalStates) n t.writes)
        (later rebuilt) t) :
    Faces refuses (fun r u => Lands row target r u ∧
        (r.isOk, u.writes) = if row.status ∈ terminalStates then (false, s.writes)
          else refuses.attempts false n s.writes)
      ((refetch order target args submittedAt row.orderRequestId (n == 0)).bind later) s := by
  apply refetch_faces order (n == 0) hrow
  · intro hterminal e u hu
    rw [if_pos hterminal]
    refine ⟨?_, congrArg (Prod.mk false) hu.writes⟩
    rw [← hu.orders] at hrow
    exact hrow
  · intro hlive rebuilt u hu hrebuilt htarget hversion
    rw [← hu.orders] at hrow
    apply (hlater rebuilt u hrow hrebuilt htarget hversion).mono
    rintro r v ⟨hlands, hexact⟩
    rw [if_neg hlive]
    refine ⟨hlands, ?_⟩
    rw [hexact, hu.writes, decide_eq_false hlive]

/-- Each attempt writes the row or leaves it, and from the row's own version on exactly the
refusals decide. -/
theorem retryUpdate_faces (order : OrderRequestEntity) (n : Nat) (after : OrderRequestEntity)
    (lastExc : Option PyError) (hrow : s.store.orders row.orderRequestId = some row)
    (hid : after.orderRequestId = row.orderRequestId) (hstatus : after.status = target)
    (hlast : n = 0 → lastExc ≠ none) :
    Faces refuses (fun r t => Lands row target r t ∧ (after.version = row.version →
        (r.isOk, t.writes) = refuses.attempts (row.status ∈ terminalStates) n s.writes))
      (retryUpdate order target args submittedAt n after lastExc) s := by
  induction n generalizing s after lastExc with
  | zero =>
    cases lastExc with
    | none => exact (hlast rfl rfl).elim
    | some e => exact Program.alone_raise ⟨hrow, fun _ => rfl⟩
  | succ n ih =>
    have hconflict (t : Asked) (ht : t.store.orders row.orderRequestId = some row)
        (e : PyError) (id : UUID) (expected actual : Nat)
        (he : e = .versionConflict id expected actual) :
        Faces refuses (fun r u => Lands row target r u ∧
            (r.isOk, u.writes) = if row.status ∈ terminalStates then (false, t.writes)
              else refuses.attempts false n t.writes)
          ((refetch order target args submittedAt after.orderRequestId (n == 0)).bind fun rebuilt =>
            retryUpdate order target args submittedAt n rebuilt (some e)) t := by
      subst he
      rw [hid]
      apply conflict_faces order n ht
      intro rebuilt u hu hrebuilt htarget hversion
      have hnext := ih rebuilt (some (.versionConflict id expected actual)) hu hrebuilt htarget
        fun _ h => (by cases h)
      apply hnext.mono
      rintro r v ⟨hlands, hexact⟩
      exact ⟨hlands, hexact hversion⟩
    apply Program.alone_call
    intro c _
    refine ⟨trivial, ?_⟩
    have hticked : (tick c s.store).orders row.orderRequestId = some row := hrow
    cases hrefuses : refuses s.writes with
    | some e =>
      simp only [Refusals.exec, hrefuses, Refusals.attempts]
      cases e with
      | versionConflict id expected actual =>
        simp only [Program.ret_bind, Program.bind_eq]
        apply (hconflict ⟨tick c s.store, s.writes + 1⟩ hticked _ id expected actual rfl).mono
        rintro r t ⟨hlands, hexact⟩
        refine ⟨hlands, fun _ => hexact.trans ?_⟩
        by_cases hterminal : row.status ∈ terminalStates <;> simp [hterminal]
      | _ => exact Program.alone_raise ⟨hrow, fun _ => rfl⟩
    | none =>
      simp only [Refusals.exec, hrefuses, Refusals.attempts, Orders.exec, respond]
      have hstored : (tick c s.store).orders after.orderRequestId = some row := by
        rw [hid, hticked]
      by_cases hversion : after.version = row.version
      · rw [Store.updateStatus_current hstored hversion]
        refine Program.alone_ret ⟨⟨hid, hstatus, ?_⟩, fun _ => rfl⟩
        refine ⟨Store.statusRow (tick c s.store).clock row after.status args.reasonCode
          args.reasonMessage (some after.version) submittedAt, ?_, rfl, hstatus⟩
        simp only [Store.writeOrder, hid, Function.update_self]
      · rw [Store.updateStatus_behind hstored hversion]
        simp only [Program.ret_bind, Program.bind_eq]
        apply (hconflict ⟨tick c s.store, s.writes + 1⟩ hticked _ _ _ _ rfl).mono
        rintro r t ⟨hlands, -⟩
        exact ⟨hlands, fun hsame => (hversion hsame).elim⟩

/-- A transition by an entity of the order goes through or leaves the row as it is, and for the row
itself the refusals decide which. -/
theorem transitionTo_faces (service : Bool) {order : OrderRequestEntity}
    (hrow : s.store.orders row.orderRequestId = some row)
    (hid : order.orderRequestId = row.orderRequestId) (hstatus : order.status = row.status)
    {n : Nat} (hretries : args.maxRetries = n + 1) :
    Faces refuses (fun r t => Lands row target r t ∧ (order.version = row.version →
        (r.isOk, t.writes) = refuses.goesThrough row.status target (n + 1) s.writes))
      (transitionTo service order target args) s := by
  unfold transitionTo Refusals.goesThrough
  by_cases hallowed : target ∈ allowedTransitions row.status
  · have hvalid := (validateTransition_ok order.orderRequestId order.status target).mpr
      (hstatus ▸ hallowed)
    simp only [hvalid, orRaise, transitionToCore, Program.bind_eq, Program.ret_bind,
      if_pos hallowed,
      hretries]
    apply Program.Alone.bind (faces_noting (stamp_only _) s)
    · rintro submittedAt t₁ ⟨-, h₁⟩
      apply Program.Alone.bind (faces_noting (replaceStatus_only ..) t₁)
      · rintro after t₂ ⟨⟨sa, ua, hafter⟩, h₂⟩
        obtain rfl := Except.ok.inj hafter
        have hstill := Still.trans _ _ _ h₁ h₂
        have hrow₂ : t₂.store.orders row.orderRequestId = some row := by
          rw [hstill.orders]
          exact hrow
        refine Program.Alone.bind (retryUpdate_faces order (n + 1) _ none hrow₂ ?_ ?_ ?_) ?_ ?_
        · exact hid
        · rfl
        · exact fun h => (Nat.succ_ne_zero n h).elim
        · rintro written t₃ ⟨hlands, hexact⟩
          apply Program.Alone.bind (faces_still (only_keepsStatus (recordTransition_only ..)) t₃)
          · rintro _ t₄ ⟨-, h₄⟩
            refine Program.alone_ret ⟨⟨hlands.1, hlands.2.1, ?_⟩, fun hversion => ?_⟩
            · unfold HasStatus
              rw [h₄.orders]
              exact hlands.2.2
            · rw [h₄.writes, ← hstill.writes]
              exact hexact hversion
          · rintro e t₄ ⟨he, -⟩
            cases he
        · rintro e t₃ ⟨hlands, hexact⟩
          refine ⟨hlands, fun hversion => ?_⟩
          rw [← hstill.writes]
          exact hexact hversion
      · rintro e t₂ ⟨⟨sa, ua, he⟩, -⟩
        cases he
    · rintro e t₁ ⟨⟨sa, he⟩, -⟩
      cases he
  · have hinvalid : validateTransition order.orderRequestId order.status target ≠ .ok () := by
      rw [ne_eq, validateTransition_ok, hstatus]
      exact hallowed
    rw [if_neg hallowed]
    cases hvalid : validateTransition order.orderRequestId order.status target with
    | ok u => exact (hinvalid hvalid).elim
    | error e => exact Program.alone_raise ⟨hrow, fun _ => rfl⟩

end

end AgentTrading.Orders
