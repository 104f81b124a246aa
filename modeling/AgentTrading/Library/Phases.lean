import AgentTrading.Library.Program

/-! Programs in two phases. The first lasts until the reply to an operation turns the program; from
then on another condition holds of what is left of it. -/
namespace AgentTrading.Library.Program

variable {Op : Type} {Reply : Op → Type} {ε α β : Type}

/-- Operations in `P` until a reply turns the program, and then a program in `later`; a program that
is never turned ends in `still`. -/
def Phased (P : Op → Prop) (turns : (op : Op) → Reply op → Prop)
    (later : (op : Op) → Reply op → Program Op Reply ε α → Prop) (still : Except ε α → Prop) :
    Program Op Reply ε α → Prop
  | ret a => still (.ok a)
  | raise e => still (.error e)
  | call op k => P op ∧ ∀ r, (turns op r → later op r (k r)) ∧
      (¬turns op r → (k r).Phased P turns later still)

variable {P P' : Op → Prop} {turns : (op : Op) → Reply op → Prop}
variable {later : (op : Op) → Reply op → Program Op Reply ε α → Prop}
variable {still : Except ε α → Prop}

theorem Phased.mono {later' : (op : Op) → Reply op → Program Op Reply ε α → Prop}
    {still' : Except ε α → Prop} {p : Program Op Reply ε α} (hp : p.Phased P turns later still)
    (hP : ∀ op, P op → P' op) (hlater : ∀ op r q, later op r q → later' op r q)
    (hstill : ∀ r, still r → still' r) : p.Phased P' turns later' still' := by
  induction p with
  | ret a => exact hstill _ hp
  | raise e => exact hstill _ hp
  | call op k ih =>
    refine ⟨hP op hp.1, fun r => ⟨fun h => ?_, fun h => ?_⟩⟩
    · exact hlater op r _ ((hp.2 r).1 h)
    · exact ih r ((hp.2 r).2 h)

theorem Phased.bind {later' : (op : Op) → Reply op → Program Op Reply ε β → Prop}
    {still' : Except ε β → Prop} {p : Program Op Reply ε α} {f : α → Program Op Reply ε β}
    (hp : p.Phased P turns later still)
    (hlater : ∀ op r q, later op r q → later' op r (q.bind f))
    (hf : ∀ a, still (.ok a) → (f a).Phased P turns later' still')
    (he : ∀ e, still (.error e) → still' (.error e)) :
    (p.bind f).Phased P turns later' still' := by
  induction p with
  | ret a => exact hf a hp
  | raise e => exact he e hp
  | call op k ih =>
    refine ⟨hp.1, fun r => ⟨fun h => ?_, fun h => ?_⟩⟩
    · exact hlater op r _ ((hp.2 r).1 h)
    · exact ih r ((hp.2 r).2 h)

theorem Phased.attempt {later' : (op : Op) → Reply op → Program Op Reply ε (Option α) → Prop}
    {still' : Except ε (Option α) → Prop} {p : Program Op Reply ε α}
    (hp : p.Phased P turns later still) (hlater : ∀ op r q, later op r q → later' op r q.attempt)
    (ho : ∀ a, still (.ok a) → still' (.ok (some a)))
    (he : ∀ e, still (.error e) → still' (.ok none)) :
    p.attempt.Phased P turns later' still' := by
  induction p with
  | ret a => exact ho a hp
  | raise e => exact he e hp
  | call op k ih =>
    refine ⟨hp.1, fun r => ⟨fun h => ?_, fun h => ?_⟩⟩
    · exact hlater op r _ ((hp.2 r).1 h)
    · exact ih r ((hp.2 r).2 h)

/-- What is tried returns a result or, in place of an exception, nothing. -/
theorem Only.tried {Q : Except ε α → Prop} {Q' : Except ε (Option α) → Prop}
    {p : Program Op Reply ε α} (hp : p.Only P Q) (ho : ∀ a, Q (.ok a) → Q' (.ok (some a)))
    (he : ∀ e, Q (.error e) → Q' (.ok none)) : p.attempt.Only P Q' := by
  induction p with
  | ret a => exact ho a hp
  | raise e => exact he e hp
  | call op k ih => exact ⟨hp.1, fun r => ih r (hp.2 r)⟩

theorem Phased.lift {Op' : Type} {Reply' : Op' → Type} {f : Op → Op'}
    {g : ∀ op, Reply' (f op) → Reply op} {P' : Op' → Prop}
    {turns' : (op : Op') → Reply' op → Prop}
    {later' : (op : Op') → Reply' op → Program Op' Reply' ε α → Prop}
    {p : Program Op Reply ε α} (hp : p.Phased P turns later still) (hP : ∀ op, P op → P' (f op))
    (hturns : ∀ op r, turns' (f op) r ↔ turns op (g op r))
    (hlater : ∀ op r q, later op (g op r) q → later' (f op) r (q.lift f g)) :
    (p.lift f g).Phased P' turns' later' still := by
  induction p with
  | ret a => exact hp
  | raise e => exact hp
  | call op k ih =>
    refine ⟨hP op hp.1, fun r => ⟨fun h => ?_, fun h => ?_⟩⟩
    · exact hlater op r _ ((hp.2 (g op r)).1 ((hturns op r).mp h))
    · exact ih (g op r) ((hp.2 (g op r)).2 fun hturned => h ((hturns op r).mpr hturned))

theorem Only.phased {Q : Except ε α → Prop} {p : Program Op Reply ε α} (hp : p.Only P' Q)
    (hP : ∀ op, P' op → P op) : p.Phased P turns (fun _ _ q => q.Only P' Q) Q := by
  induction p with
  | ret a => exact hp
  | raise e => exact hp
  | call op k ih => exact ⟨hP op hp.1, fun r => ⟨fun _ => hp.2 r, fun _ => ih r (hp.2 r)⟩⟩

theorem Phased.only {Q : Except ε α → Prop} {p : Program Op Reply ε α}
    (hp : p.Phased P turns (fun _ _ q => q.Only P Q) still) (hstill : ∀ r, still r → Q r) :
    p.Only P Q := by
  induction p with
  | ret a => exact hstill _ hp
  | raise e => exact hstill _ hp
  | call op k ih =>
    refine ⟨hp.1, fun r => ?_⟩
    by_cases h : turns op r
    · exact (hp.2 r).1 h
    · exact ih r ((hp.2 r).2 h)

theorem Only.phased_bind {Q : Except ε α → Prop} {p : Program Op Reply ε α}
    {f : α → Program Op Reply ε β}
    {later : (op : Op) → Reply op → Program Op Reply ε β → Prop} {still : Except ε β → Prop}
    (hp : p.Only P' Q) (hP : ∀ op, P' op → P op) (hturns : ∀ op r, P' op → ¬turns op r)
    (hf : ∀ a, Q (.ok a) → (f a).Phased P turns later still)
    (he : ∀ e, Q (.error e) → still (.error e)) : (p.bind f).Phased P turns later still := by
  induction p with
  | ret a => exact hf a hp
  | raise e => exact he e hp
  | call op k ih =>
    exact ⟨hP op hp.1, fun r => ⟨fun h => (hturns op r hp.1 h).elim, fun _ => ih r (hp.2 r)⟩⟩

end AgentTrading.Library.Program
