import Mathlib.Data.List.Basic
import Mathlib.Algebra.Order.Group.Defs
import Mathlib.Algebra.Order.Sub.Defs

/-! Admission by counting. Each item of a log, newest first, was let in because it saw fewer than
`limit` of the items before it. No order of time is assumed: what an item sees is a relation. -/
namespace AgentTrading.Library

variable {α : Type}

/-- Each item saw fewer than `limit` of the older ones. -/
def Admitted (sees : α → α → Bool) (limit : Nat) : List α → Prop
  | [] => True
  | item :: older => older.countP (sees item) < limit ∧ Admitted sees limit older

namespace Admitted

variable {sees : α → α → Bool} {limit : Nat}

/-- Items may be taken out of the log; those that stay saw no more than before. -/
theorem sublist {items log : List α} (hsub : items.Sublist log) (h : Admitted sees limit log) :
    Admitted sees limit items := by
  induction hsub with
  | slnil => trivial
  | cons _ _ ih => exact ih h.2
  | cons_cons item hsub ih => exact ⟨lt_of_le_of_lt (hsub.countP_le) h.1, ih h.2⟩

/-- Where an item of a kind sees every older item of that kind, there are at most `limit` of
the kind. -/
theorem countP_le {kind : α → Bool} {log : List α} (h : Admitted sees limit log)
    (hsees : log.Pairwise fun newer older => kind newer → kind older → sees newer older) :
    log.countP kind ≤ limit := by
  induction log with
  | nil => exact Nat.zero_le _
  | cons item older ih =>
    rw [List.pairwise_cons] at hsees
    by_cases hitem : kind item
    · have hcount : older.countP kind ≤ older.countP (sees item) := by
        apply List.countP_mono_left
        intro other hother hkind
        exact hsees.1 other hother hitem hkind
      rw [List.countP_cons_of_pos hitem]
      exact lt_of_le_of_lt hcount h.1
    · rw [List.countP_cons_of_neg hitem]
      exact ih h.2 hsees.2

end Admitted

section Window

variable {τ : Type} [AddCommGroup τ] [LinearOrder τ]

/-- What a count over the last `width` before `stamp` takes in; later stamps are in it too. -/
def recent (width stamp other : τ) : Bool := decide (stamp - width < other)

theorem recent_iff {width stamp other : τ} :
    recent width stamp other = true ↔ stamp - width < other :=
  decide_eq_true_iff

/-- The half-open windows of length `width` that start at `start`. -/
def afterStart (width start stamp : τ) : Bool := decide (start < stamp ∧ stamp ≤ start + width)

def fromStart (width start stamp : τ) : Bool := decide (start ≤ stamp ∧ stamp < start + width)

variable [IsOrderedAddMonoid τ]

theorem recent_of_afterStart {width start a b : τ} (ha : afterStart width start a)
    (hb : afterStart width start b) : recent width a b := by
  simp only [afterStart, recent, decide_eq_true_eq] at *
  exact lt_of_le_of_lt (sub_le_iff_le_add.mpr ha.2) hb.1

theorem recent_of_fromStart {width start a b : τ} (ha : fromStart width start a)
    (hb : fromStart width start b) : recent width a b := by
  simp only [fromStart, recent, decide_eq_true_eq] at *
  exact lt_of_lt_of_le (sub_lt_iff_lt_add.mpr ha.2) hb.1

end Window

end AgentTrading.Library
