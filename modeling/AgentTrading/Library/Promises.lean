import AgentTrading.Library.Pool

/-! Jobs that promise something about the state they end in, and about each of their operations,
whatever the other jobs of the pool do in between. -/
namespace AgentTrading.Library.Pool

variable {Op : Type} {Reply : Op → Type} {ε α κ σ χ : Type}
variable (exec : χ → (op : Op) → σ → Reply op × σ) (code : κ → Program Op Reply ε α)

/-- The shared state is in `I`, and every started job will keep its promises from it on. -/
structure Promised (rely : σ → σ → Prop) (good : κ → χ → Op → σ → Prop)
    (post : κ → Except ε α → σ → Prop) (I : σ → Prop) (w : Pool Op Reply ε α κ σ) : Prop where
  shared : I w.shared
  threads : ∀ t job p, w.threads t = some (job, p) →
    Program.Safe exec rely (fun _ _ _ => True) (good job) (post job) p w.shared

variable {exec code} {rely : σ → σ → Prop} {good : κ → χ → Op → σ → Prop}
variable {post : κ → Except ε α → σ → Prop} {I : σ → Prop}

section Rule

variable (refl : ∀ s, rely s s) (trans : ∀ a b c, rely a b → rely b c → rely a c)
variable (begins : ∀ job s, I s →
  Program.Safe exec rely (fun _ _ _ => True) (good job) (post job) (code job) s)
variable (keeps : ∀ job c op s, I s → good job c op s → I (exec c op s).2 ∧ rely s (exec c op s).2)

theorem promised_idle {s : σ} (hs : I s) :
    Promised exec rely good post I (idle s : Pool Op Reply ε α κ σ) :=
  ⟨hs, fun t job p ht => by simp only [idle, reduceCtorEq] at ht⟩

include refl in
theorem Promised.performs {w : Pool Op Reply ε α κ σ} (hw : Promised exec rely good post I w)
    (e : Event κ χ) : Allows (fun _ _ => True) good w e := by
  cases e with
  | start t job => exact fun _ => trivial
  | step t c =>
    simp only [Allows]
    split
    next job op k ht => exact (hw.threads t job _ ht w.shared c (refl _) trivial).1
    next => trivial

include refl in
theorem Promised.returned {w : Pool Op Reply ε α κ σ} (hw : Promised exec rely good post I w)
    {t : Nat} {job : κ} {a : α} (ht : w.threads t = some (job, .ret a)) :
    post job (.ok a) w.shared := hw.threads t job _ ht w.shared (refl _)

include refl trans begins keeps

theorem promised_step (w : Pool Op Reply ε α κ σ) (e : Event κ χ)
    (hw : Promised exec rely good post I w) :
    Promised exec rely good post I (step exec code w e) := by
  cases e with
  | start t job =>
    cases ht : w.threads t with
    | some x => simpa only [step, ht] using hw
    | none =>
      simp only [step, ht]
      refine ⟨hw.shared, fun u j p hu => ?_⟩
      by_cases htu : u = t
      · subst htu
        simp only [Function.update_self, Option.some.injEq, Prod.mk.injEq] at hu
        obtain ⟨rfl, rfl⟩ := hu
        exact begins job w.shared hw.shared
      · simp only [Function.update_of_ne htu] at hu
        exact hw.threads u j p hu
  | step t c =>
    have hperforms := hw.performs refl (.step t c)
    simp only [step]
    split
    next job op k ht =>
      simp only [Allows, ht] at hperforms
      have hsafe := hw.threads t job _ ht w.shared c (refl _) trivial
      have hkeeps := keeps job c op w.shared hw.shared hperforms
      refine ⟨hkeeps.1, fun u j p hu => ?_⟩
      by_cases htu : u = t
      · subst htu
        simp only [Function.update_self, Option.some.injEq, Prod.mk.injEq] at hu
        obtain ⟨rfl, rfl⟩ := hu
        exact hsafe.2
      · simp only [Function.update_of_ne htu] at hu
        exact (hw.threads u j p hu).mono_rely trans hkeeps.2
    next => exact hw

theorem run_promised (w : Pool Op Reply ε α κ σ) (hw : Promised exec rely good post I w)
    (es : List (Event κ χ)) : Promised exec rely good post I (run exec code w es) :=
  Runs.run_keeps (step exec code) (C := fun _ _ => True)
    (fun w e hw _ => promised_step refl trans begins keeps w e hw) w es hw
    (Runs.meets_true (step exec code) w es)

theorem run_performs (s : σ) (hs : I s) (es : List (Event κ χ)) :
    Meets exec code (fun _ _ => True) good (idle s) es :=
  Runs.meets_of_invariant (step exec code) (C := fun _ _ => True)
    (fun w e hw _ => promised_step refl trans begins keeps w e hw)
    (fun _ e hw _ => hw.performs refl e) _ es (promised_idle hs)
    (Runs.meets_true (step exec code) _ es)

end Rule

end AgentTrading.Library.Pool
