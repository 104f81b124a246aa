import Mathlib.Data.List.Basic

/-! Two runs of one machine, one with all its events and one from which the hidden events are
taken out. A relation that hidden events keep on one side and the others keep on both makes the
answers that are watched the same in the two runs. -/
namespace AgentTrading.Library.Purge

variable {σ ε α : Type} (step : σ → ε → α × σ) (hidden watched : ε → Bool)

/-- The state after a run. -/
def final (s : σ) (events : List ε) : σ := events.foldl (fun s e => (step s e).2) s

/-- The answers to the watched events of a run, each with its event. -/
def answers : σ → List ε → List (ε × α)
  | _, [] => []
  | s, e :: events =>
    if watched e then (e, (step s e).1) :: answers (step s e).2 events
    else answers (step s e).2 events

/-- The events that are not hidden. -/
def purge (events : List ε) : List ε := events.filter fun e => !hidden e

/-- `R` relates the states of the two runs, for events that meet `C`. -/
structure Unwinds (C : ε → Prop) (R : σ → σ → Prop) : Prop where
  hides : ∀ s t e, R s t → C e → hidden e = true → R (step s e).2 t
  follows : ∀ s t e, R s t → C e → hidden e = false → R (step s e).2 (step t e).2
  agrees : ∀ s t e, R s t → C e → hidden e = false → watched e = true →
    (step s e).1 = (step t e).1
  unwatched : ∀ e, hidden e = true → watched e = false

variable {step hidden watched} {C : ε → Prop} {R : σ → σ → Prop}

namespace Unwinds

theorem final (h : Unwinds step hidden watched C R) {s t : σ} {events : List ε} (hst : R s t)
    (hC : ∀ e ∈ events, C e) :
    R (Purge.final step s events) (Purge.final step t (purge hidden events)) := by
  induction events generalizing s t with
  | nil => exact hst
  | cons e events ih =>
    obtain ⟨he, hrest⟩ := List.forall_mem_cons.mp hC
    cases hhidden : hidden e with
    | true =>
      simp only [purge, List.filter_cons, hhidden, Bool.not_true, Bool.false_eq_true, if_false]
      exact ih (h.hides s t e hst he hhidden) hrest
    | false =>
      simp only [purge, List.filter_cons, hhidden, Bool.not_false, if_true]
      exact ih (h.follows s t e hst he hhidden) hrest

theorem answers (h : Unwinds step hidden watched C R) {s t : σ} {events : List ε} (hst : R s t)
    (hC : ∀ e ∈ events, C e) :
    Purge.answers step watched s events =
      Purge.answers step watched t (purge hidden events) := by
  induction events generalizing s t with
  | nil => rfl
  | cons e events ih =>
    obtain ⟨he, hrest⟩ := List.forall_mem_cons.mp hC
    cases hhidden : hidden e with
    | true =>
      simp only [purge, List.filter_cons, hhidden, Bool.not_true, Bool.false_eq_true, if_false,
        Purge.answers, h.unwatched e hhidden]
      exact ih (h.hides s t e hst he hhidden) hrest
    | false =>
      simp only [purge, List.filter_cons, hhidden, Bool.not_false, if_true, Purge.answers]
      have hnext := ih (h.follows s t e hst he hhidden) hrest
      split
      · next hwatched =>
        rw [h.agrees s t e hst he hhidden hwatched, hnext]
        rfl
      · exact hnext

end Unwinds

end AgentTrading.Library.Purge
