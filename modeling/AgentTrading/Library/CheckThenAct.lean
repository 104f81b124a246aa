import AgentTrading.Library.Stages

/-! Programs that look before they act, in a pool where others may change what they looked at.
Between a check and the act it was made for a program is poised, and what the check has found
holds at the act if nobody takes it away meanwhile. -/
namespace AgentTrading.Library

namespace Program

variable {Op : Type} {Reply : Op → Type} {ε α β : Type}

section

variable (sane : (op : Op) → Reply op → Prop) (act check : Op → Prop)
variable (passes : (op : Op) → Reply op → Prop)

/-- Some replies lead the program to an act before any check. -/
def Poised : Program Op Reply ε α → Prop
  | ret _ => False
  | raise _ => False
  | call op k => act op ∨ ¬ check op ∧ ∃ r, sane op r ∧ (k r).Poised

/-- After a check whose reply does not pass, no act comes before another check. -/
def Checked : Program Op Reply ε α → Prop
  | ret _ => True
  | raise _ => True
  | call op k => ∀ r, sane op r →
      (check op → (k r).Poised sane act check → passes op r) ∧ (k r).Checked

/-- The program acts only after checks that pass. -/
structure Careful (p : Program Op Reply ε α) : Prop where
  unpoised : ¬ p.Poised sane act check
  checked : p.Checked sane act check passes

end

variable {sane : (op : Op) → Reply op → Prop} {act check : Op → Prop}
variable {passes : (op : Op) → Reply op → Prop}
variable {P : Op → Prop} {Q : Except ε α → Prop} {p : Program Op Reply ε α}

/-! Programs that never act, and programs that never check. -/

theorem Only.unpoised (hp : p.Only P Q) (hact : ∀ op, P op → ¬ act op) :
    ¬ p.Poised sane act check := by
  induction p with
  | ret a => exact id
  | raise e => exact id
  | call op k ih =>
    rintro (h | ⟨-, r, -, h⟩)
    · exact hact op hp.1 h
    · exact ih r (hp.2 r) h

theorem Only.checked (hp : p.Only P Q) (hcheck : ∀ op, P op → ¬ check op) :
    p.Checked sane act check passes := by
  induction p with
  | ret a => trivial
  | raise e => trivial
  | call op k ih => exact fun r _ => ⟨fun h => (hcheck op hp.1 h).elim, ih r (hp.2 r)⟩

/-- A program that never acts has nothing to check. -/
theorem Only.careful_of_never (hp : p.Only P Q) (hact : ∀ op, P op → ¬ act op) :
    Careful sane act check passes p := by
  refine ⟨hp.unpoised hact, ?_⟩
  induction p with
  | ret a => trivial
  | raise e => trivial
  | call op k ih => exact fun r _ => ⟨fun _ h => ((hp.2 r).unpoised hact h).elim, ih r (hp.2 r)⟩

theorem careful_ret (a : α) : Careful sane act check passes (ret a : Program Op Reply ε α) :=
  ⟨id, trivial⟩

theorem careful_raise (e : ε) : Careful sane act check passes (raise e : Program Op Reply ε α) :=
  ⟨id, trivial⟩

theorem Only.unpoised_bind {f : α → Program Op Reply ε β} (hp : p.Only P Q)
    (hact : ∀ op, P op → ¬ act op) (hf : ∀ a, Q (.ok a) → ¬ (f a).Poised sane act check) :
    ¬ (p.bind f).Poised sane act check := by
  induction p with
  | ret a => exact hf a hp
  | raise e => exact id
  | call op k ih =>
    rintro (h | ⟨-, r, -, h⟩)
    · exact hact op hp.1 h
    · exact ih r (hp.2 r) h

theorem unpoised_bind {f : α → Program Op Reply ε β} (hp : ¬ p.Poised sane act check)
    (hf : ∀ a, ¬ (f a).Poised sane act check) : ¬ (p.bind f).Poised sane act check := by
  induction p with
  | ret a => exact hf a
  | raise e => exact id
  | call op k ih =>
    rintro (h | ⟨hcheck, r, hr, h⟩)
    · exact hp (Or.inl h)
    · exact ih r (fun hk => hp (Or.inr ⟨hcheck, r, hr, hk⟩)) h

theorem unpoised_handle {f : ε → Program Op Reply ε α} (hp : ¬ p.Poised sane act check)
    (hf : ∀ e, ¬ (f e).Poised sane act check) : ¬ (p.handle f).Poised sane act check := by
  induction p with
  | ret a => exact id
  | raise e => exact hf e
  | call op k ih =>
    rintro (h | ⟨hcheck, r, hr, h⟩)
    · exact hp (Or.inl h)
    · exact ih r (fun hk => hp (Or.inr ⟨hcheck, r, hr, hk⟩)) h

theorem Only.checked_bind {f : α → Program Op Reply ε β} (hp : p.Only P Q)
    (hcheck : ∀ op, P op → ¬ check op) (hf : ∀ a, (f a).Checked sane act check passes) :
    (p.bind f).Checked sane act check passes := by
  induction p with
  | ret a => exact hf a
  | raise e => trivial
  | call op k ih => exact fun r _ => ⟨fun h => (hcheck op hp.1 h).elim, ih r (hp.2 r)⟩

theorem Checked.bind {f : α → Program Op Reply ε β} (hp : p.Checked sane act check passes)
    (hf : ∀ a, Careful sane act check passes (f a)) :
    (p.bind f).Checked sane act check passes := by
  induction p with
  | ret a => exact (hf a).checked
  | raise e => trivial
  | call op k ih =>
    intro r hr
    refine ⟨fun hcheck hpoised => ?_, ih r (hp r hr).2⟩
    by_contra hpasses
    refine unpoised_bind (fun h => ?_) (fun a => (hf a).unpoised) hpoised
    exact hpasses ((hp r hr).1 hcheck h)

theorem Careful.bind {f : α → Program Op Reply ε β} (hp : Careful sane act check passes p)
    (hf : ∀ a, Careful sane act check passes (f a)) :
    Careful sane act check passes (p.bind f) :=
  ⟨unpoised_bind hp.unpoised fun a => (hf a).unpoised, hp.checked.bind hf⟩

theorem Only.careful (hp : p.Only P Q) (hact : ∀ op, P op → ¬ act op)
    (hcheck : ∀ op, P op → ¬ check op) : Careful sane act check passes p :=
  ⟨hp.unpoised hact, hp.checked hcheck⟩

theorem careful_other {op : Op} {k : Reply op → Program Op Reply ε α} (hact : ¬ act op)
    (hcheck : ¬ check op) (hk : ∀ r, Careful sane act check passes (k r)) :
    Careful sane act check passes (call op k) := by
  constructor
  · rintro (h | ⟨-, r, -, h⟩)
    · exact hact h
    · exact (hk r).unpoised h
  · exact fun r _ => ⟨fun h => (hcheck h).elim, (hk r).checked⟩

/-- A check comes first; where its reply passes, the rest may be poised. -/
theorem careful_call {op : Op} {k : Reply op → Program Op Reply ε α} (hact : ¬ act op)
    (hk : ∀ r, sane op r → (k r).Checked sane act check passes)
    (hpoised : ∀ r, sane op r → (k r).Poised sane act check → check op ∧ passes op r) :
    Careful sane act check passes (call op k) := by
  constructor
  · rintro (h | ⟨hcheck, r, hr, h⟩)
    · exact hact h
    · exact hcheck (hpoised r hr h).1
  · exact fun r hr => ⟨fun _ h => (hpoised r hr h).2, hk r hr⟩

section

variable {Op' : Type} {Reply' : Op' → Type} {f : Op → Op'}
variable {g : ∀ op, Reply' (f op) → Reply op} {sane' : (op : Op') → Reply' op → Prop}
variable {act' check' : Op' → Prop}

theorem unpoised_lift (hsane : ∀ op r, sane' (f op) r → sane op (g op r))
    (hact : ∀ op, act' (f op) → act op) (hcheck : ∀ op, check op → check' (f op))
    (hp : ¬ p.Poised sane act check) : ¬ (p.lift f g).Poised sane' act' check' := by
  induction p with
  | ret a => exact id
  | raise e => exact id
  | call op k ih =>
    rintro (h | ⟨hno, r, hr, h⟩)
    · exact hp (Or.inl (hact op h))
    · apply ih (g op r) _ h
      intro hk
      exact hp (Or.inr ⟨fun hc => hno (hcheck op hc), g op r, hsane op r hr, hk⟩)

end

end Program

namespace Pool

variable {Op : Type} {Reply : Op → Type} {ε α κ σ χ : Type}
variable (exec : χ → (op : Op) → σ → Reply op × σ) (code : κ → Program Op Reply ε α)
variable (sane : (op : Op) → Reply op → Prop) (act check : κ → Op → Prop)
variable (passes : κ → (op : Op) → Reply op → Prop) (fact : σ → Prop)

/-- Some job may act without checking again. -/
def Poised (w : Pool Op Reply ε α κ σ) : Prop :=
  ∃ t job p, w.threads t = some (job, p) ∧ p.Poised sane (act job) (check job)

/-- The event does not take the fact away from a job that is poised. -/
def Spares (w : Pool Op Reply ε α κ σ) (e : Event κ χ) : Prop :=
  Poised sane act check w → fact w.shared → fact (step exec code w e).shared

/-- A check that passes has found the fact. -/
def Finds (w : Pool Op Reply ε α κ σ) : Event κ χ → Prop
  | .start _ _ => True
  | .step t c =>
    match w.threads t with
    | some (job, .call op _) =>
      check job op → passes job op (exec c op w.shared).1 → fact (exec c op w.shared).2
    | _ => True

/-- An act finds the fact. -/
def ActsOn (w : Pool Op Reply ε α κ σ) : Event κ χ → Prop
  | .start _ _ => True
  | .step t _ =>
    match w.threads t with
    | some (job, .call op _) => act job op → fact w.shared
    | _ => True

/-- The job acts only after checks that pass, and where it is poised, the fact holds. -/
structure Covered (job : κ) (p : Program Op Reply ε α) (s : σ) : Prop where
  checked : p.Checked sane (act job) (check job) (passes job)
  fact : p.Poised sane (act job) (check job) → fact s

variable {exec code sane act check passes fact}

theorem covered_step {w : Pool Op Reply ε α κ σ} {e : Event κ χ}
    (hw : Staged (Covered sane act check passes fact) w)
    (hcode : ∀ job, (code job).Careful sane (act job) (check job) (passes job))
    (hsane : ∀ c op, sane op (exec c op w.shared).1)
    (hspares : Spares exec code sane act check fact w e)
    (hfinds : Finds exec check passes fact w e) :
    Staged (Covered sane act check passes fact) (step exec code w e) := by
  apply staged_step e hw
  · exact fun job => ⟨(hcode job).checked, fun h => ((hcode job).unpoised h).elim⟩
  · rintro t job c op k rfl ht
    obtain ⟨hchecked, hfact⟩ := hw t job _ ht
    obtain ⟨hpasses, hnext⟩ := hchecked _ (hsane c op)
    refine ⟨hnext, fun hpoised => ?_⟩
    by_cases hcheck : check job op
    · simp only [Finds, ht] at hfinds
      exact hfinds hcheck (hpasses hcheck hpoised)
    · have hbefore : (Program.call op k).Poised sane (act job) (check job) :=
        Or.inr ⟨hcheck, _, hsane c op, hpoised⟩
      have hafter := hspares ⟨t, job, _, ht, hbefore⟩ (hfact hbefore)
      simpa only [step, ht] using hafter
  · rintro t job c op k u other p rfl ht hu
    obtain ⟨hchecked, hfact⟩ := hw u other p hu
    refine ⟨hchecked, fun hpoised => ?_⟩
    have hafter := hspares ⟨u, other, p, hu, hpoised⟩ (hfact hpoised)
    simpa only [step, ht] using hafter

theorem covered_acts {w : Pool Op Reply ε α κ σ} (e : Event κ χ)
    (hw : Staged (Covered sane act check passes fact) w) : ActsOn act fact w e := by
  cases e with
  | start t job => trivial
  | step t c =>
    simp only [ActsOn]
    split
    · next job op k ht => exact fun hact => (hw t job _ ht).fact (Or.inl hact)
    · trivial

end Pool

end AgentTrading.Library
