import Mathlib.Algebra.Order.BigOperators.Group.Finset
import Mathlib.Data.Finset.Max
import Mathlib.Tactic.Linarith

/-! Windows on a line: each reaches down from its top by its size. Windows that do not overlap
fit between the highest top and the lowest floor, and two that do overlap need not. -/
namespace AgentTrading.Library.Windows

variable {ι α : Type*} [Field α] [LinearOrder α] [IsStrictOrderedRing α]

/-- Each of the two windows ends inside the other or around it. -/
def Overlap (top size : ι → α) (i j : ι) : Prop :=
  0 < size i ∧ 0 < size j ∧ top i - size i < top j ∧ top j - size j < top i

theorem top_le_of_not_overlap {top size : ι → α} {i j : ι} (hi : 0 < size i) (hj : 0 < size j)
    (hle : top j ≤ top i) (h : ¬ Overlap top size i j) : top j ≤ top i - size i := by
  by_contra hlt
  refine h ⟨hi, hj, lt_of_not_ge hlt, ?_⟩
  linarith

theorem Overlap.exceeds {top size : ι → α} {i j : ι} (h : Overlap top size i j) :
    let floor := min (top i - size i) (top j - size j)
    size i ≤ top i - floor ∧ size j ≤ top j - floor ∧ max (top i) (top j) - floor <
      size i + size j := by
  obtain ⟨hi, hj, hij, hji⟩ := h
  refine ⟨?_, ?_, ?_⟩
  · have := min_le_left (top i - size i) (top j - size j)
    linarith
  · have := min_le_right (top i - size i) (top j - size j)
    linarith
  · rcases max_cases (top i) (top j) with ⟨hmax, -⟩ | ⟨hmax, -⟩ <;>
      rcases min_cases (top i - size i) (top j - size j) with ⟨hmin, -⟩ | ⟨hmin, -⟩ <;>
      rw [hmax, hmin] <;> linarith

variable [DecidableEq ι]

/-- The induction takes the highest window off; the others end below it. -/
theorem sum_le {top size floor : ι → α} (s : Finset ι) (hs : s.Nonempty)
    (hpos : ∀ i ∈ s, 0 < size i) (hfit : ∀ i ∈ s, size i ≤ top i - floor i)
    (hapart : ∀ i ∈ s, ∀ j ∈ s, i ≠ j → ¬ Overlap top size i j) :
    ∃ i ∈ s, ∃ j ∈ s, ∑ k ∈ s, size k ≤ top i - floor j := by
  induction s using Finset.induction_on_max_value top with
  | empty => simp at hs
  | insert a s ha hmax ih =>
    rw [Finset.sum_insert ha]
    have hmem : a ∈ insert a s := Finset.mem_insert_self a s
    rcases s.eq_empty_or_nonempty with rfl | hne
    · refine ⟨a, hmem, a, hmem, ?_⟩
      simpa using hfit a hmem
    · have hsub : ∀ i ∈ s, i ∈ insert a s := fun i => Finset.mem_insert_of_mem
      obtain ⟨i, hi, j, hj, hsum⟩ := ih hne (fun i hi => hpos i (hsub i hi))
        (fun i hi => hfit i (hsub i hi)) fun i hi j hj => hapart i (hsub i hi) j (hsub j hj)
      have hbelow : top i ≤ top a - size a := by
        apply top_le_of_not_overlap (hpos a hmem) (hpos i (hsub i hi)) (hmax i hi)
        apply hapart a hmem i (hsub i hi)
        rintro rfl
        exact ha hi
      refine ⟨a, hmem, j, hsub j hj, ?_⟩
      linarith

theorem sum_le_of_any {top size floor : ι → α} (s : Finset ι) (hs : s.Nonempty)
    (hfit : ∀ i ∈ s, size i ≤ top i - floor i) (hopen : ∀ i ∈ s, floor i < top i)
    (hapart : ∀ i ∈ s, ∀ j ∈ s, i ≠ j → ¬ Overlap top size i j) :
    ∃ i ∈ s, ∃ j ∈ s, ∑ k ∈ s, size k ≤ top i - floor j := by
  have hle : ∑ k ∈ s, size k ≤ ∑ k ∈ s.filter (0 < size ·), size k := by
    rw [Finset.sum_filter]
    apply Finset.sum_le_sum
    intro k _
    split
    · exact le_refl _
    · exact not_lt.mp ‹_›
  rcases (s.filter (0 < size ·)).eq_empty_or_nonempty with hempty | hne
  · obtain ⟨i, hi⟩ := hs
    rw [hempty, Finset.sum_empty] at hle
    have hroom := hopen i hi
    exact ⟨i, hi, i, hi, by linarith⟩
  · have hmem : ∀ i ∈ s.filter (0 < size ·), i ∈ s := fun i hi => Finset.mem_of_mem_filter i hi
    obtain ⟨i, hi, j, hj, hsum⟩ := sum_le (s.filter (0 < size ·)) hne
      (fun i hi => (Finset.mem_filter.mp hi).2) (fun i hi => hfit i (hmem i hi))
      fun i hi j hj => hapart i (hmem i hi) j (hmem j hj)
    exact ⟨i, hmem i hi, j, hmem j hj, hle.trans hsum⟩

end AgentTrading.Library.Windows
