import Mathlib.Data.List.Basic

/-! Runs of a transition function. A run is the list of events fed to it, and a
condition on runs is a condition on the state before each event. -/
namespace AgentTrading.Library.Runs

variable {σ ε : Type} (step : σ → ε → σ)

/-- The state a run ends in. -/
def run (s : σ) (es : List ε) : σ := es.foldl step s

@[simp] theorem run_nil (s : σ) : run step s [] = s := rfl

@[simp] theorem run_cons (s : σ) (e : ε) (es : List ε) :
    run step s (e :: es) = run step (step s e) es := rfl

theorem run_append (s : σ) (es fs : List ε) :
    run step s (es ++ fs) = run step (run step s es) fs := List.foldl_append

/-- Every event of the run meets `C` in the state it finds. -/
def Meets (C : σ → ε → Prop) : σ → List ε → Prop
  | _, [] => True
  | s, e :: es => C s e ∧ Meets C (step s e) es

theorem meets_append (C : σ → ε → Prop) (s : σ) (es fs : List ε) :
    Meets step C s (es ++ fs) ↔ Meets step C s es ∧ Meets step C (run step s es) fs := by
  induction es generalizing s with
  | nil => simp only [List.nil_append, Meets, run_nil, true_and]
  | cons e es ih => simp only [List.cons_append, Meets, run_cons, ih, and_assoc]

theorem meets_and (C D : σ → ε → Prop) (s : σ) (es : List ε) :
    Meets step (fun s e => C s e ∧ D s e) s es ↔ Meets step C s es ∧ Meets step D s es := by
  induction es generalizing s with
  | nil => simp only [Meets, and_self]
  | cons e es ih =>
    simp only [Meets, ih]
    tauto

theorem meets_mono {C D : σ → ε → Prop} (h : ∀ s e, C s e → D s e) (s : σ) (es : List ε)
    (hes : Meets step C s es) : Meets step D s es := by
  induction es generalizing s with
  | nil => trivial
  | cons e es ih => exact ⟨h s e hes.1, ih _ hes.2⟩

theorem meets_true (s : σ) (es : List ε) : Meets step (fun _ _ => True) s es := by
  induction es generalizing s with
  | nil => trivial
  | cons e es ih => exact ⟨trivial, ih _⟩

/-- Conditions that agree wherever an invariant of the steps holds agree on runs. -/
theorem meets_congr {C D : σ → ε → Prop} {J : σ → Prop} (keeps : ∀ s e, J s → J (step s e))
    (h : ∀ s e, J s → (C s e ↔ D s e)) (s : σ) (es : List ε) (hs : J s) :
    Meets step C s es ↔ Meets step D s es := by
  induction es generalizing s with
  | nil => exact Iff.rfl
  | cons e es ih => exact and_congr (h s e hs) (ih _ (keeps s e hs))

/-- What holds at every conditioned event that finds the invariant holds along a conditioned run. -/
theorem meets_of_invariant {C D : σ → ε → Prop} {J : σ → Prop}
    (keeps : ∀ s e, J s → C s e → J (step s e)) (h : ∀ s e, J s → C s e → D s e) (s : σ)
    (es : List ε) (hs : J s) (hes : Meets step C s es) : Meets step D s es := by
  induction es generalizing s with
  | nil => trivial
  | cons e es ih => exact ⟨h s e hs hes.1, ih _ (keeps s e hs hes.1) hes.2⟩

instance decidableMeets (C : σ → ε → Prop) [∀ s e, Decidable (C s e)] :
    ∀ s es, Decidable (Meets step C s es)
  | _, [] => isTrue trivial
  | s, e :: es =>
    have := decidableMeets C (step s e) es
    inferInstanceAs (Decidable (C s e ∧ Meets step C (step s e) es))

theorem run_keeps {C : σ → ε → Prop} {I : σ → Prop}
    (keeps : ∀ s e, I s → C s e → I (step s e)) (s : σ) (es : List ε)
    (hs : I s) (hes : Meets step C s es) : I (run step s es) := by
  induction es generalizing s with
  | nil => exact hs
  | cons e es ih => exact ih (step s e) (keeps s e hs hes.1) hes.2

/-- Leaving out events that keep a relation on one side, two runs stay related: each event that is
left in is taken on both sides. -/
theorem run_filter_related {τ : Type} (step' : τ → ε → τ) (keep : ε → Bool)
    {C : σ → ε → Prop} {R : σ → τ → Prop}
    (kept : ∀ s u e, R s u → C s e → keep e = true → R (step s e) (step' u e))
    (dropped : ∀ s u e, R s u → C s e → keep e = false → R (step s e) u) (s : σ) (u : τ)
    (es : List ε) (h : R s u) (hes : Meets step C s es) :
    R (run step s es) (run step' u (es.filter keep)) := by
  induction es generalizing s u with
  | nil => exact h
  | cons e es ih =>
    obtain ⟨hC, hrest⟩ := hes
    cases hkeep : keep e with
    | true =>
      rw [List.filter_cons_of_pos hkeep]
      exact ih _ _ (kept s u e h hC hkeep) hrest
    | false =>
      rw [List.filter_cons_of_neg (Bool.eq_false_iff.mp hkeep)]
      exact ih _ _ (dropped s u e h hC hkeep) hrest

/-- Every state of the run, the first and the last included, satisfies `P`. -/
def Throughout (P : σ → Prop) : σ → List ε → Prop
  | s, [] => P s
  | s, e :: es => P s ∧ Throughout P (step s e) es

theorem Throughout.start {P : σ → Prop} {s : σ} {es : List ε} (h : Throughout step P s es) :
    P s := by
  cases es with
  | nil => exact h
  | cons e es => exact h.1

theorem Throughout.finish {P : σ → Prop} {s : σ} {es : List ε} (h : Throughout step P s es) :
    P (run step s es) := by
  induction es generalizing s with
  | nil => exact h
  | cons e es ih => exact ih h.2

/-- What follows from an invariant of the conditioned steps holds throughout a conditioned run. -/
theorem run_throughout {C : σ → ε → Prop} {I P : σ → Prop}
    (keeps : ∀ s e, I s → C s e → I (step s e)) (hP : ∀ s, I s → P s) {s : σ} {es : List ε}
    (hs : I s) (hes : Meets step C s es) : Throughout step P s es := by
  induction es generalizing s with
  | nil => exact hP s hs
  | cons e es ih => exact ⟨hP s hs, ih (keeps s e hs hes.1) hes.2⟩

/-- Where an invariant of the steps holds and a step from a state in `P` ends in one exactly if its
event meets `C`, a run stays in `P` exactly if its events do. -/
theorem throughout_iff_of_invariant {C : σ → ε → Prop} {P J : σ → Prop}
    (keeps : ∀ s e, J s → J (step s e)) (h : ∀ s e, J s → P s → (P (step s e) ↔ C s e)) {s : σ}
    (hJ : J s) (hs : P s) (es : List ε) : Throughout step P s es ↔ Meets step C s es := by
  induction es generalizing s with
  | nil => exact iff_of_true hs trivial
  | cons e es ih =>
    have hkept : J (step s e) := keeps s e hJ
    constructor
    · rintro ⟨-, hrest⟩
      have hnext : P (step s e) := hrest.start
      exact ⟨(h s e hJ hs).mp hnext, (ih hkept hnext).mp hrest⟩
    · rintro ⟨hC, hrest⟩
      have hnext : P (step s e) := (h s e hJ hs).mpr hC
      exact ⟨hs, (ih hkept hnext).mpr hrest⟩

/-- Where a step from a state in `P` ends in one exactly if its event meets `C`, a run stays in `P`
exactly if its events do. -/
theorem throughout_iff {C : σ → ε → Prop} {P : σ → Prop}
    (h : ∀ s e, P s → (P (step s e) ↔ C s e)) {s : σ} (hs : P s) (es : List ε) :
    Throughout step P s es ↔ Meets step C s es :=
  throughout_iff_of_invariant (J := fun _ => True) step (fun _ _ h => h) (fun s e _ => h s e)
    trivial hs es

end AgentTrading.Library.Runs
