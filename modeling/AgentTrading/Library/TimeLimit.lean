import AgentTrading.Library.History

/-! Programs under a time limit. A program that is waited for only so long may be broken off
after any of its operations, and then the exception of the limit ends it. -/
namespace AgentTrading.Library.Program

variable {Op Op' : Type} {Reply : Op → Type} {Reply' : Op' → Type} {ε α : Type}

section Limited

variable (f : Op → Op') (g : ∀ op, Reply' (f op) → Reply op)
variable (clock : Op') (late : Reply' clock → Bool) (e : ε)

/-- The program among more operations, with a look at the clock after each of its own. -/
def limited : Program Op Reply ε α → Program Op' Reply' ε α
  | ret a => ret a
  | raise e' => raise e'
  | call op k => call (f op) fun r => call clock fun t =>
      if late t then raise e else limited (k (g op r))

end Limited

theorem Only.limited {f : Op → Op'} {g : ∀ op, Reply' (f op) → Reply op} {clock : Op'}
    {late : Reply' clock → Bool} {e : ε} {P : Op → Prop} {P' : Op' → Prop}
    {Q : Except ε α → Prop} {p : Program Op Reply ε α} (hp : p.Only P Q)
    (hP : ∀ op, P op → P' (f op)) (hclock : P' clock) (he : Q (.error e)) :
    (p.limited f g clock late e).Only P' Q := by
  induction p with
  | ret a => exact hp
  | raise e' => exact hp
  | call op k ih =>
    refine ⟨hP op hp.1, fun r => ⟨hclock, fun t => ?_⟩⟩
    dsimp only
    split
    · exact he
    · exact ih _ (hp.2 _)

/-- The program can perform these operations with these replies and still have more to do. -/
inductive Reaches : Program Op Reply ε α → History Op Reply → Prop where
  | here (p : Program Op Reply ε α) : Reaches p []
  | call {op : Op} {k : Reply op → Program Op Reply ε α} {r : Reply op} {steps : History Op Reply}
      (rest : Reaches (k r) steps) : Reaches (call op k) (⟨op, r⟩ :: steps)

theorem Performs.reaches {p : Program Op Reply ε α} {steps : History Op Reply} {out : Except ε α}
    (h : p.Performs steps out) : p.Reaches steps := by
  induction h with
  | ret a => exact .here _
  | raise e => exact .here _
  | call rest ih => exact .call ih

theorem Reaches.performs (answer : ∀ op, Reply op) {p : Program Op Reply ε α}
    {steps : History Op Reply} (h : p.Reaches steps) :
    ∃ more out, p.Performs (steps ++ more) out := by
  induction h with
  | here p => exact ⟨_, _, performs_run (fun op (s : Unit) => (answer op, s)) p ()⟩
  | call rest ih =>
    obtain ⟨more, out, hmore⟩ := ih
    exact ⟨more, out, .call hmore⟩

theorem Only.reaches {P : Op → Prop} {Q : Except ε α → Prop} {p : Program Op Reply ε α}
    (hp : p.Only P Q) {steps : History Op Reply} (h : p.Reaches steps) :
    ∀ step ∈ steps, P step.1 := by
  induction h with
  | here p => simp
  | call rest ih => exact List.forall_mem_cons.mpr ⟨hp.1, ih (hp.2 _)⟩

/-- What every permitted operation leaves true holds wherever the program is broken off. -/
theorem Watched.reaches {permits : History Op Reply → Op → Prop}
    {post : History Op Reply → Except ε α → Prop} (kept : History Op Reply → Prop)
    {past steps : History Op Reply} {p : Program Op Reply ε α} (hp : p.Watched permits post past)
    (hkept : ∀ t op (r : Reply op), permits t op → kept t → kept (t ++ [⟨op, r⟩]))
    (hpast : kept past) (h : p.Reaches steps) : kept (past ++ steps) := by
  induction h generalizing past with
  | here p => rwa [List.append_nil]
  | call rest ih =>
    have hnext := ih (hp.2 _) (hkept past _ _ hp.1 hpast)
    rwa [List.append_assoc] at hnext

/-- Its own operations are seen and the clock is not. -/
structure Sees (f : Op → Op') (g : ∀ op, Reply' (f op) → Reply op) (clock : Op')
    (view : (op : Op') × Reply' op → Option ((op : Op) × Reply op)) : Prop where
  own : ∀ op r, view ⟨f op, r⟩ = some ⟨op, g op r⟩
  clock : ∀ t, view ⟨clock, t⟩ = none

section Observed

variable {f : Op → Op'} {g : ∀ op, Reply' (f op) → Reply op}
variable {clock : Op'} {late : Reply' clock → Bool} {e : ε}
variable {view : (op : Op') × Reply' op → Option ((op : Op) × Reply op)}

theorem performs_limited (hview : Sees f g clock view)
    {p : Program Op Reply ε α} {steps : History Op' Reply'} {out : Except ε α}
    (h : (p.limited f g clock late e).Performs steps out) :
    p.Performs (steps.filterMap view) out ∨
      p.Reaches (steps.filterMap view) ∧ out = .error e := by
  induction p generalizing steps with
  | ret a =>
    cases h
    exact .inl (.ret a)
  | raise e' =>
    cases h
    exact .inl (.raise e')
  | call op k ih =>
    cases h with
    | @call _ _ r _ _ hclock =>
      cases hclock with
      | @call _ _ t _ _ hrest =>
        rw [List.filterMap_cons_some (hview.own op r), List.filterMap_cons_none (hview.clock t)]
        dsimp only at hrest
        split at hrest
        · cases hrest
          exact .inr ⟨.call (.here _), rfl⟩
        · rcases ih _ hrest with h | ⟨h, hout⟩
          · exact .inl (.call h)
          · exact .inr ⟨.call h, hout⟩

theorem performs_lift (hown : ∀ op r, view ⟨f op, r⟩ = some ⟨op, g op r⟩)
    {p : Program Op Reply ε α} {steps : History Op' Reply'} {out : Except ε α}
    (h : (p.lift f g).Performs steps out) : p.Performs (steps.filterMap view) out := by
  induction p generalizing steps with
  | ret a =>
    cases h
    exact .ret a
  | raise e' =>
    cases h
    exact .raise e'
  | call op k ih =>
    cases h with
    | @call _ _ r _ _ hrest =>
      rw [List.filterMap_cons_some (hown op r)]
      exact .call (ih _ hrest)

end Observed

end AgentTrading.Library.Program
