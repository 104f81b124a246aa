import Mathlib.Order.Basic

/-! Programs as trees of the operations they perform. A program either returns,
raises, or performs one operation and goes on with its reply, so that a run can be
interrupted between any two operations. -/
namespace AgentTrading.Library

inductive Program (Op : Type) (Reply : Op → Type) (ε α : Type) where
  | ret (a : α)
  | raise (e : ε)
  | call (op : Op) (k : Reply op → Program Op Reply ε α)

namespace Program

variable {Op : Type} {Reply : Op → Type} {ε α β σ χ : Type}

def bind (p : Program Op Reply ε α) (f : α → Program Op Reply ε β) : Program Op Reply ε β :=
  match p with
  | ret a => f a
  | raise e => raise e
  | call op k => call op fun r => (k r).bind f

/-- `try p except e: f e`. -/
def handle (p : Program Op Reply ε α) (f : ε → Program Op Reply ε α) : Program Op Reply ε α :=
  match p with
  | ret a => ret a
  | raise e => f e
  | call op k => call op fun r => (k r).handle f

/-- The program has returned or raised. -/
def ended : Program Op Reply ε α → Bool
  | ret _ => true
  | raise _ => true
  | call _ _ => false

def perform (op : Op) : Program Op Reply ε (Reply op) := call op ret

instance : Monad (Program Op Reply ε) where
  pure := ret
  bind := bind

@[simp] theorem pure_eq (a : α) : (pure a : Program Op Reply ε α) = ret a := rfl

@[simp] theorem bind_eq (p : Program Op Reply ε α) (f : α → Program Op Reply ε β) :
    (p >>= f) = p.bind f := rfl

@[simp] theorem ret_bind (a : α) (f : α → Program Op Reply ε β) :
    (ret a : Program Op Reply ε α).bind f = f a := rfl

@[simp] theorem raise_bind (e : ε) (f : α → Program Op Reply ε β) :
    (raise e : Program Op Reply ε α).bind f = raise e := rfl

@[simp] theorem call_bind (op : Op) (k : Reply op → Program Op Reply ε α)
    (f : α → Program Op Reply ε β) :
    (call op k).bind f = call op fun r => (k r).bind f := rfl

@[simp] theorem perform_bind (op : Op) (f : Reply op → Program Op Reply ε β) :
    (perform op).bind f = call op f := rfl

@[simp] theorem bind_ret (p : Program Op Reply ε α) : p.bind ret = p := by
  induction p with
  | ret a => rfl
  | raise e => rfl
  | call op k ih => exact congrArg (call op) (funext ih)

@[simp] theorem bind_assoc {γ : Type} (p : Program Op Reply ε α)
    (f : α → Program Op Reply ε β) (g : β → Program Op Reply ε γ) :
    (p.bind f).bind g = p.bind fun a => (f a).bind g := by
  induction p with
  | ret a => rfl
  | raise e => rfl
  | call op k ih => exact congrArg (call op) (funext ih)

@[simp] theorem ret_handle (a : α) (f : ε → Program Op Reply ε α) :
    (ret a : Program Op Reply ε α).handle f = ret a := rfl

@[simp] theorem raise_handle (e : ε) (f : ε → Program Op Reply ε α) :
    (raise e : Program Op Reply ε α).handle f = f e := rfl

@[simp] theorem call_handle (op : Op) (k : Reply op → Program Op Reply ε α)
    (f : ε → Program Op Reply ε α) :
    (call op k).handle f = call op fun r => (k r).handle f := rfl

variable (exec : (op : Op) → σ → Reply op × σ)

/-- The result of a program nothing interrupts, with the state it leaves. -/
def run : Program Op Reply ε α → σ → Except ε α × σ
  | ret a, s => (.ok a, s)
  | raise e, s => (.error e, s)
  | call op k, s => run (k (exec op s).1) (exec op s).2

@[simp] theorem run_ret (a : α) (s : σ) :
    run exec (ret a : Program Op Reply ε α) s = (.ok a, s) := rfl

@[simp] theorem run_raise (e : ε) (s : σ) :
    run exec (raise e : Program Op Reply ε α) s = (.error e, s) := rfl

@[simp] theorem run_call (op : Op) (k : Reply op → Program Op Reply ε α) (s : σ) :
    run exec (call op k) s = run exec (k (exec op s).1) (exec op s).2 := rfl

theorem run_bind (p : Program Op Reply ε α) (f : α → Program Op Reply ε β) (s : σ) :
    run exec (p.bind f) s =
      match run exec p s with
      | (.ok a, s') => run exec (f a) s'
      | (.error e, s') => (.error e, s') := by
  induction p generalizing s with
  | ret a => rfl
  | raise e => rfl
  | call op k ih => exact ih (exec op s).1 (exec op s).2

theorem run_bind_ok_iff (p : Program Op Reply ε α) (f : α → Program Op Reply ε β) (s : σ) :
    (∃ b, (run exec (p.bind f) s).1 = .ok b) ↔
      ∃ a t, run exec p s = (.ok a, t) ∧ ∃ b, (run exec (f a) t).1 = .ok b := by
  rw [run_bind]
  cases h : run exec p s with
  | mk r t =>
    cases r with
    | error e => simp
    | ok a =>
      constructor
      · exact fun hb => ⟨a, t, rfl, hb⟩
      · rintro ⟨_, _, heq, hb⟩
        cases heq
        exact hb

theorem run_handle (p : Program Op Reply ε α) (f : ε → Program Op Reply ε α) (s : σ) :
    run exec (p.handle f) s =
      match run exec p s with
      | (.ok a, s') => (.ok a, s')
      | (.error e, s') => run exec (f e) s' := by
  induction p generalizing s with
  | ret a => rfl
  | raise e => rfl
  | call op k ih => exact ih (exec op s).1 (exec op s).2

/-- The operations of an uninterrupted run with their replies. -/
def trace : Program Op Reply ε α → σ → List ((op : Op) × Reply op)
  | ret _, _ => []
  | raise _, _ => []
  | call op k, s => ⟨op, (exec op s).1⟩ :: trace (k (exec op s).1) (exec op s).2

@[simp] theorem trace_ret (a : α) (s : σ) :
    trace exec (ret a : Program Op Reply ε α) s = [] := rfl

@[simp] theorem trace_raise (e : ε) (s : σ) :
    trace exec (raise e : Program Op Reply ε α) s = [] := rfl

@[simp] theorem trace_call (op : Op) (k : Reply op → Program Op Reply ε α) (s : σ) :
    trace exec (call op k) s =
      ⟨op, (exec op s).1⟩ :: trace exec (k (exec op s).1) (exec op s).2 := rfl

theorem trace_bind (p : Program Op Reply ε α) (f : α → Program Op Reply ε β) (s : σ) :
    trace exec (p.bind f) s = trace exec p s ++
      match run exec p s with
      | (.ok a, s') => trace exec (f a) s'
      | (.error _, _) => [] := by
  induction p generalizing s with
  | ret a => rfl
  | raise e => rfl
  | call op k ih => exact congrArg (List.cons _) (ih (exec op s).1 (exec op s).2)

theorem trace_handle (p : Program Op Reply ε α) (f : ε → Program Op Reply ε α) (s : σ) :
    trace exec (p.handle f) s = trace exec p s ++
      match run exec p s with
      | (.ok _, _) => []
      | (.error e, s') => trace exec (f e) s' := by
  induction p generalizing s with
  | ret a => rfl
  | raise e => rfl
  | call op k ih => exact congrArg (List.cons _) (ih (exec op s).1 (exec op s).2)

/-- The operations of an uninterrupted run with their replies, each with its stamp. -/
def stamped {τ : Type} (stamp : σ → τ) :
    Program Op Reply ε α → σ → List (τ × ((op : Op) × Reply op))
  | ret _, _ => []
  | raise _, _ => []
  | call op k, s =>
    (stamp s, ⟨op, (exec op s).1⟩) :: stamped stamp (k (exec op s).1) (exec op s).2

section Stamped

variable {τ : Type} (stamp : σ → τ)

@[simp] theorem stamped_ret (a : α) (s : σ) :
    stamped exec stamp (ret a : Program Op Reply ε α) s = [] := rfl

@[simp] theorem stamped_raise (e : ε) (s : σ) :
    stamped exec stamp (raise e : Program Op Reply ε α) s = [] := rfl

@[simp] theorem stamped_call (op : Op) (k : Reply op → Program Op Reply ε α) (s : σ) :
    stamped exec stamp (call op k) s =
      (stamp s, ⟨op, (exec op s).1⟩) :: stamped exec stamp (k (exec op s).1) (exec op s).2 := rfl

end Stamped

/-- The same program among more operations. -/
def lift {Op' : Type} {Reply' : Op' → Type} (f : Op → Op') (g : ∀ op, Reply' (f op) → Reply op) :
    Program Op Reply ε α → Program Op' Reply' ε α
  | ret a => ret a
  | raise e => raise e
  | call op k => call (f op) fun r => lift f g (k (g op r))

/-- `try p except: None`. -/
def attempt (p : Program Op Reply ε α) : Program Op Reply ε (Option α) :=
  (p.bind fun a => ret (some a)).handle fun _ => ret none

section Lift

variable {Op' : Type} {Reply' : Op' → Type} (f : Op → Op') (g : ∀ op, Reply' (f op) → Reply op)

@[simp] theorem lift_ret (a : α) : (ret a : Program Op Reply ε α).lift f g = ret a := rfl

@[simp] theorem lift_raise (e : ε) : (raise e : Program Op Reply ε α).lift f g = raise e := rfl

@[simp] theorem lift_call (op : Op) (k : Reply op → Program Op Reply ε α) :
    (call op k).lift f g = call (f op) fun r => (k (g op r)).lift f g := rfl

@[simp] theorem lift_bind (p : Program Op Reply ε α) (h : α → Program Op Reply ε β) :
    (p.bind h).lift f g = (p.lift f g).bind fun a => (h a).lift f g := by
  induction p with
  | ret a => rfl
  | raise e => rfl
  | call op k ih => exact congrArg (call (f op)) (funext fun r => ih (g op r))

@[simp] theorem lift_handle (p : Program Op Reply ε α) (h : ε → Program Op Reply ε α) :
    (p.handle h).lift f g = (p.lift f g).handle fun e => (h e).lift f g := by
  induction p with
  | ret a => rfl
  | raise e => rfl
  | call op k ih => exact congrArg (call (f op)) (funext fun r => ih (g op r))

@[simp] theorem lift_attempt (p : Program Op Reply ε α) :
    (p.attempt).lift f g = (p.lift f g).attempt := by
  simp [attempt]

theorem lift_lift {Op'' : Type} {Reply'' : Op'' → Type} (f' : Op' → Op'')
    (g' : ∀ op, Reply'' (f' op) → Reply' op) (p : Program Op Reply ε α) :
    ((p.lift f g).lift f' g' : Program Op'' Reply'' ε α) =
      p.lift (fun op => f' (f op)) fun op r => g op (g' (f op) r) := by
  induction p with
  | ret a => rfl
  | raise e => rfl
  | call op k ih => exact congrArg (call (f' (f op))) (funext fun r => ih _)

end Lift

/-- `try p except e`: the program's result or the exception that ended it. -/
def outcome (p : Program Op Reply ε α) : Program Op Reply ε (Except ε α) :=
  (p.bind fun a => ret (.ok a)).handle fun e => ret (.error e)

/-! Which operations a program can perform and how it can end. -/

/-- Whatever the replies, every operation the program performs satisfies `P` and its
result satisfies `Q`. -/
def Only (P : Op → Prop) (Q : Except ε α → Prop) : Program Op Reply ε α → Prop
  | ret a => Q (.ok a)
  | raise e => Q (.error e)
  | call op k => P op ∧ ∀ r, (k r).Only P Q

variable {P : Op → Prop} {Q : Except ε α → Prop}

@[simp] theorem only_ret (a : α) : (ret a : Program Op Reply ε α).Only P Q ↔ Q (.ok a) := Iff.rfl

@[simp] theorem only_raise (e : ε) :
    (raise e : Program Op Reply ε α).Only P Q ↔ Q (.error e) := Iff.rfl

@[simp] theorem only_call (op : Op) (k : Reply op → Program Op Reply ε α) :
    (call op k).Only P Q ↔ P op ∧ ∀ r, (k r).Only P Q := Iff.rfl

theorem only_true (p : Program Op Reply ε α) : p.Only (fun _ => True) fun _ => True := by
  induction p with
  | ret a => trivial
  | raise e => trivial
  | call op k ih => exact ⟨trivial, ih⟩

theorem Only.bind {R : Except ε β → Prop} {p : Program Op Reply ε α}
    {f : α → Program Op Reply ε β} (hp : p.Only P Q)
    (hf : ∀ a, Q (.ok a) → (f a).Only P R) (he : ∀ e, Q (.error e) → R (.error e)) :
    (p.bind f).Only P R := by
  induction p with
  | ret a => exact hf a hp
  | raise e => exact he e hp
  | call op k ih => exact ⟨hp.1, fun r => ih r (hp.2 r)⟩

theorem Only.handle {R : Except ε α → Prop} {p : Program Op Reply ε α}
    {f : ε → Program Op Reply ε α} (hp : p.Only P Q)
    (ho : ∀ a, Q (.ok a) → R (.ok a)) (hf : ∀ e, Q (.error e) → (f e).Only P R) :
    (p.handle f).Only P R := by
  induction p with
  | ret a => exact ho a hp
  | raise e => exact hf e hp
  | call op k ih => exact ⟨hp.1, fun r => ih r (hp.2 r)⟩

theorem Only.mono {P' : Op → Prop} {Q' : Except ε α → Prop} {p : Program Op Reply ε α}
    (hp : p.Only P Q) (hP : ∀ op, P op → P' op) (hQ : ∀ r, Q r → Q' r) : p.Only P' Q' := by
  induction p with
  | ret a => exact hQ _ hp
  | raise e => exact hQ _ hp
  | call op k ih => exact ⟨hP op hp.1, fun r => ih r (hp.2 r)⟩

theorem Only.lift {Op' : Type} {Reply' : Op' → Type} {f : Op → Op'}
    {g : ∀ op, Reply' (f op) → Reply op} {P' : Op' → Prop} {p : Program Op Reply ε α}
    (hp : p.Only P Q) (hP : ∀ op, P op → P' (f op)) : (p.lift f g).Only P' Q := by
  induction p with
  | ret a => exact hp
  | raise e => exact hp
  | call op k ih => exact ⟨hP op hp.1, fun r => ih (g op r) (hp.2 (g op r))⟩

theorem Only.attempt_ok {p : Program Op Reply ε α} (hp : p.Only P Q) :
    p.attempt.Only P fun r => ∃ o, r = .ok o ∧ ∀ a, o = some a → Q (.ok a) := by
  induction p with
  | ret a => exact ⟨some a, rfl, fun b hb => Option.some.inj hb ▸ hp⟩
  | raise e => exact ⟨none, rfl, fun _ h => nomatch h⟩
  | call op k ih => exact ⟨hp.1, fun r => ih r (hp.2 r)⟩

theorem Only.attempt {p : Program Op Reply ε α} (hp : p.Only P Q) :
    p.attempt.Only P fun _ => True :=
  hp.attempt_ok.mono (fun _ => id) fun _ _ => trivial

theorem Only.outcome {p : Program Op Reply ε α} (hp : p.Only P Q) :
    p.outcome.Only P fun r => ∃ a, r = .ok a ∧ Q a := by
  induction p with
  | ret a => exact ⟨.ok a, rfl, hp⟩
  | raise e => exact ⟨.error e, rfl, hp⟩
  | call op k ih => exact ⟨hp.1, fun r => ih r (hp.2 r)⟩

theorem Only.run_keeps {I : σ → Prop} {p : Program Op Reply ε α} (hp : p.Only P Q)
    (keeps : ∀ op s, P op → I s → I (exec op s).2) (s : σ) (hs : I s) :
    I (run exec p s).2 := by
  induction p generalizing s with
  | ret a => exact hs
  | raise e => exact hs
  | call op k ih => exact ih _ (hp.2 _) _ (keeps op s hp.1 hs)

theorem Only.trace {p : Program Op Reply ε α} (hp : p.Only P Q) (s : σ) :
    ∀ step ∈ trace exec p s, P step.1 := by
  induction p generalizing s with
  | ret a => simp
  | raise e => simp
  | call op k ih =>
    simp only [trace_call, List.mem_cons, forall_eq_or_imp]
    exact ⟨hp.1, ih _ (hp.2 _) _⟩

theorem Only.stamped {τ : Type} (stamp : σ → τ) {p : Program Op Reply ε α} (hp : p.Only P Q)
    (s : σ) : ∀ step ∈ stamped exec stamp p s, P step.2.1 := by
  induction p generalizing s with
  | ret a => simp
  | raise e => simp
  | call op k ih =>
    simp only [stamped_call, List.mem_cons, forall_eq_or_imp]
    exact ⟨hp.1, ih _ (hp.2 _) _⟩

theorem Only.run_result {p : Program Op Reply ε α} (hp : p.Only P Q) (s : σ) :
    Q (run exec p s).1 := by
  induction p generalizing s with
  | ret a => exact hp
  | raise e => exact hp
  | call op k ih => exact ih _ (hp.2 _) _

theorem run_keeps_of_trace {I : σ → Prop} (p : Program Op Reply ε α) (s : σ)
    (hp : ∀ step ∈ trace exec p s, P step.1) (keeps : ∀ op s, P op → I s → I (exec op s).2)
    (hs : I s) : I (run exec p s).2 := by
  induction p generalizing s with
  | ret a => exact hs
  | raise e => exact hs
  | call op k ih =>
    simp only [trace_call, List.mem_cons, forall_eq_or_imp] at hp
    exact ih _ _ hp.2 (keeps op s hp.1 hs)

/-- Whatever the replies, after operations in `P` comes one in `E`, and then a program in
`K`. -/
def Due (P E : Op → Prop) (K : Program Op Reply ε α → Prop) : Program Op Reply ε α → Prop
  | ret _ => False
  | raise _ => False
  | call op k => (E op ∧ ∀ r, K (k r)) ∨ (P op ∧ ∀ r, (k r).Due P E K)

/-! What holds of the result together with the operations that led to it. -/

/-- Whatever the replies, `Q` holds of the result and of the operations performed, those in
`past` included. -/
def Always (Q : Except ε α → List ((op : Op) × Reply op) → Prop) :
    Program Op Reply ε α → List ((op : Op) × Reply op) → Prop
  | ret a, past => Q (.ok a) past
  | raise e, past => Q (.error e) past
  | call op k, past => ∀ r, (k r).Always Q (past ++ [⟨op, r⟩])

section Always

variable {past : List ((op : Op) × Reply op)}

theorem Always.bind {Q : Except ε α → List ((op : Op) × Reply op) → Prop}
    {R : Except ε β → List ((op : Op) × Reply op) → Prop} {p : Program Op Reply ε α}
    {f : α → Program Op Reply ε β} (hp : p.Always Q past)
    (hf : ∀ a steps, Q (.ok a) steps → (f a).Always R steps)
    (he : ∀ e steps, Q (.error e) steps → R (.error e) steps) : (p.bind f).Always R past := by
  induction p generalizing past with
  | ret a => exact hf a past hp
  | raise e => exact he e past hp
  | call op k ih => exact fun r => ih r (hp r)

theorem Always.handle {Q R : Except ε α → List ((op : Op) × Reply op) → Prop}
    {p : Program Op Reply ε α} {f : ε → Program Op Reply ε α} (hp : p.Always Q past)
    (ho : ∀ a steps, Q (.ok a) steps → R (.ok a) steps)
    (hf : ∀ e steps, Q (.error e) steps → (f e).Always R steps) : (p.handle f).Always R past := by
  induction p generalizing past with
  | ret a => exact ho a past hp
  | raise e => exact hf e past hp
  | call op k ih => exact fun r => ih r (hp r)

theorem always_extends (p : Program Op Reply ε α) (past : List ((op : Op) × Reply op)) :
    p.Always (fun _ steps => past ⊆ steps) past := by
  suffices h : ∀ start, start ⊆ past → p.Always (fun _ steps => start ⊆ steps) past from
    h past (List.Subset.refl past)
  induction p generalizing past with
  | ret a => exact fun _ h => h
  | raise e => exact fun _ h => h
  | call op k ih =>
    intro start h r
    exact ih r _ start fun step hstep => List.mem_append_left _ (h hstep)

theorem Always.and {Q R : Except ε α → List ((op : Op) × Reply op) → Prop}
    {p : Program Op Reply ε α} (hq : p.Always Q past) (hr : p.Always R past) :
    p.Always (fun r steps => Q r steps ∧ R r steps) past := by
  induction p generalizing past with
  | ret a => exact ⟨hq, hr⟩
  | raise e => exact ⟨hq, hr⟩
  | call op k ih => exact fun r => ih r (hq r) (hr r)

theorem Always.mono {Q R : Except ε α → List ((op : Op) × Reply op) → Prop}
    {p : Program Op Reply ε α} (hp : p.Always Q past) (h : ∀ r steps, Q r steps → R r steps) :
    p.Always R past := by
  induction p generalizing past with
  | ret a => exact h _ _ hp
  | raise e => exact h _ _ hp
  | call op k ih => exact fun r => ih r (hp r)

theorem Only.always {p : Program Op Reply ε α} (hp : p.Only P Q) :
    p.Always (fun r _ => Q r) past := by
  induction p generalizing past with
  | ret a => exact hp
  | raise e => exact hp
  | call op k ih => exact fun r => ih r (hp.2 r)

theorem Only.steps {p : Program Op Reply ε α} (hp : p.Only P Q)
    (hpast : ∀ step ∈ past, P step.1) :
    p.Always (fun r steps => Q r ∧ ∀ step ∈ steps, P step.1) past := by
  induction p generalizing past with
  | ret a => exact ⟨hp, hpast⟩
  | raise e => exact ⟨hp, hpast⟩
  | call op k ih =>
    intro r
    refine ih r (hp.2 r) fun step hstep => ?_
    rcases List.mem_append.mp hstep with h | h
    · exact hpast step h
    · rw [List.mem_singleton.mp h]
      exact hp.1

theorem Always.run {Q : Except ε α → List ((op : Op) × Reply op) → Prop}
    {p : Program Op Reply ε α} (hp : p.Always Q past) (s : σ) :
    Q (Program.run exec p s).1 (past ++ Program.trace exec p s) := by
  induction p generalizing past s with
  | ret a => rw [trace_ret, List.append_nil]; exact hp
  | raise e => rw [trace_raise, List.append_nil]; exact hp
  | call op k ih =>
    have h := ih (exec op s).1 (hp (exec op s).1) (exec op s).2
    simpa using h

end Always

/-- `exec` under a stream of choices, of which each operation consumes one. -/
def drawing (exec : χ → (op : Op) → σ → Reply op × σ) (op : Op) (s : (Nat → χ) × σ) :
    Reply op × ((Nat → χ) × σ) :=
  ((exec (s.1 0) op s.2).1, (fun n => s.1 (n + 1), (exec (s.1 0) op s.2).2))

end Program

end AgentTrading.Library
