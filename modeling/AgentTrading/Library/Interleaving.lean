import Mathlib.Data.List.Perm.Basic

/-! What several parties do at the same time, each in its own order. -/
namespace AgentTrading.Library

variable {α : Type}

/-- At every step one of the parties that are not done goes on. -/
inductive Interleaving : List (List α) → List α → Prop
  | done {parties : List (List α)} (h : ∀ l ∈ parties, l = []) : Interleaving parties []
  | step {before later : List (List α)} {a : α} {l merged : List α}
      (h : Interleaving (before ++ l :: later) merged) :
      Interleaving (before ++ (a :: l) :: later) (a :: merged)

namespace Interleaving

theorem perm {parties : List (List α)} {merged : List α} (h : Interleaving parties merged) :
    merged.Perm parties.flatten := by
  induction h with
  | done h => rw [List.flatten_eq_nil_iff.mpr h]
  | @step before later a l merged _ ih =>
    rw [List.flatten_append, List.flatten_cons] at ih ⊢
    rw [List.cons_append]
    exact (ih.cons a).trans List.perm_middle.symm

theorem sequential (finished : List (List α)) (hfinished : ∀ l ∈ finished, l = [])
    (parties : List (List α)) : Interleaving (finished ++ parties) parties.flatten := by
  induction parties generalizing finished with
  | nil =>
    rw [List.append_nil]
    exact .done hfinished
  | cons l parties ih =>
    induction l with
    | nil =>
      have hall : ∀ l ∈ finished ++ [[]], l = [] := by
        intro l hl
        rw [List.mem_append, List.mem_singleton] at hl
        exact hl.elim (hfinished l) id
      have hnext := ih (finished ++ [[]]) hall
      rwa [List.append_assoc] at hnext
    | cons a l ihl => exact .step ihl

end Interleaving

end AgentTrading.Library
