import AgentTrading.Library.Pool

/-! Invariants of a pool that say of each job, from what it has left to do, what it may count on. -/
namespace AgentTrading.Library.Pool

variable {Op : Type} {Reply : Op → Type} {ε α κ σ χ : Type}
variable {exec : χ → (op : Op) → σ → Reply op × σ} {code : κ → Program Op Reply ε α}

/-- Every started job is at a stage of its own. -/
def Staged (stage : κ → Program Op Reply ε α → σ → Prop) (w : Pool Op Reply ε α κ σ) : Prop :=
  ∀ t job p, w.threads t = some (job, p) → stage job p w.shared

theorem staged_idle {stage : κ → Program Op Reply ε α → σ → Prop} (s : σ) :
    Staged stage (idle s : Pool Op Reply ε α κ σ) := by
  intro t job p ht
  simp only [idle, reduceCtorEq] at ht

variable {stage : κ → Program Op Reply ε α → σ → Prop} {w : Pool Op Reply ε α κ σ}

/-- What is known of each started job before an event, and what is known of it after. -/
theorem threads_step {before after : Nat → κ → Program Op Reply ε α → Prop} (e : Event κ χ)
    (hw : ∀ t job p, w.threads t = some (job, p) → before t job p)
    (begins : ∀ t job, e = .start t job → w.threads t = none → after t job (code job))
    (moves : ∀ t job c op k, e = .step t c → w.threads t = some (job, .call op k) →
      after t job (k (exec c op w.shared).1))
    (stays : ∀ u other p, (∀ c op k, e = .step u c → p ≠ .call op k) → before u other p →
      after u other p) :
    ∀ t job p, (step exec code w e).threads t = some (job, p) → after t job p := by
  intro u other p hu
  cases e with
  | start t job =>
    simp only [step] at hu
    split at hu
    · next ht =>
      by_cases htu : u = t
      · subst htu
        simp only [Function.update_self, Option.some.injEq, Prod.mk.injEq] at hu
        obtain ⟨rfl, rfl⟩ := hu
        exact begins u job rfl ht
      · simp only [Function.update_of_ne htu] at hu
        exact stays u other p (fun _ _ _ h => by cases h) (hw u other p hu)
    · exact stays u other p (fun _ _ _ h => by cases h) (hw u other p hu)
  | step t c =>
    by_cases htu : u = t
    · subst htu
      simp only [step] at hu
      split at hu
      · next job op k ht =>
        simp only [Function.update_self, Option.some.injEq, Prod.mk.injEq] at hu
        obtain ⟨rfl, rfl⟩ := hu
        exact moves u job c op k rfl ht
      · next hidle =>
        apply stays u other p _ (hw u other p hu)
        rintro _ op k - rfl
        exact hidle other op k hu
    · have hbefore : w.threads u = some (other, p) := by
        simp only [step] at hu
        split at hu
        · simpa only [Function.update_of_ne htu] using hu
        · exact hu
      apply stays u other p _ (hw u other p hbefore)
      rintro _ op k ⟨⟩
      exact (htu rfl).elim

theorem threads_unstarted_of_step {e : Event κ χ} {t : Nat}
    (h : (step exec code w e).threads t = none) : w.threads t = none := by
  cases e with
  | start u job =>
    simp only [step] at h
    split at h
    · next hu =>
      by_cases htu : t = u
      · rw [htu, hu]
      · simpa only [Function.update_of_ne htu] using h
    · exact h
  | step u c =>
    simp only [step] at h
    split at h
    · next job op k hu =>
      by_cases htu : t = u
      · simp only [htu, Function.update_self, reduceCtorEq] at h
      · simpa only [Function.update_of_ne htu] using h
    · exact h

/-- An event performs an operation of a job, or it leaves the shared state alone. -/
theorem step_cases (exec : χ → (op : Op) → σ → Reply op × σ) (code : κ → Program Op Reply ε α)
    (w : Pool Op Reply ε α κ σ) (e : Event κ χ) :
    (∃ t c job op k, e = .step t c ∧ w.threads t = some (job, .call op k) ∧
      (step exec code w e).shared = (exec c op w.shared).2) ∨
    ((∀ t c, e = .step t c → ∀ job op k, w.threads t ≠ some (job, .call op k)) ∧
      (step exec code w e).shared = w.shared) := by
  cases e with
  | start t job =>
    right
    constructor
    · rintro t c ⟨⟩
    · simp only [step]
      split <;> rfl
  | step t c =>
    by_cases hcall : ∃ job op k, w.threads t = some (job, .call op k)
    · obtain ⟨job, op, k, ht⟩ := hcall
      refine Or.inl ⟨t, c, job, op, k, rfl, ht, ?_⟩
      simp only [step, ht]
    · right
      constructor
      · rintro _ _ ⟨⟩ job op k ht
        exact hcall ⟨job, op, k, ht⟩
      · simp only [step]
        split
        · next job op k ht => exact (hcall ⟨job, op, k, ht⟩).elim
        · rfl

/-- A job starts at a stage, its own operations take it from stage to stage, and those of the
others leave it where it is. -/
theorem staged_step (e : Event κ χ) (hw : Staged stage w)
    (begins : ∀ job, stage job (code job) w.shared)
    (moves : ∀ t job c op k, e = .step t c → w.threads t = some (job, .call op k) →
      stage job (k (exec c op w.shared).1) (exec c op w.shared).2)
    (stays : ∀ t job c op k u other p, e = .step t c → w.threads t = some (job, .call op k) →
      w.threads u = some (other, p) → stage other p (exec c op w.shared).2) :
    Staged stage (step exec code w e) := by
  rcases step_cases exec code w e with ⟨t, c, job, op, k, rfl, ht, hshared⟩ | ⟨hidle, hshared⟩
  · rw [Staged, hshared]
    refine threads_step (.step t c) (fun u other p hu => hu) ?_ ?_ ?_
    · rintro _ _ ⟨⟩
    · rintro u j d op' k' ⟨⟩ hu
      rw [ht] at hu
      cases hu
      exact moves t job c op k rfl ht
    · exact fun u other p _ hu => stays t job c op k u other p rfl ht hu
  · rw [Staged, hshared]
    refine threads_step e hw ?_ ?_ ?_
    · exact fun t job _ _ => begins job
    · exact fun t job c op k he ht => (hidle t c he job op k ht).elim
    · exact fun _ _ _ _ h => h

end AgentTrading.Library.Pool
