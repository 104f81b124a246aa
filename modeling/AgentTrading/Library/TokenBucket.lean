import Mathlib.Algebra.Order.Field.Basic
import Mathlib.Data.List.Basic
import Mathlib.Tactic.Linarith

/-! The token bucket law. Tokens accrue at a rate and are capped; whatever was taken in a span
of time is bounded by the cap and what accrued in the span. -/
namespace AgentTrading.Library.TokenBucket

section Spans

variable {K : Type} [LinearOrder K]

/-- The times from `start` on, and those up to `stop` among them. -/
def since (start : K) (t : K) : Bool := decide (start ≤ t)

def between (start stop : K) (t : K) : Bool := decide (start ≤ t ∧ t ≤ stop)

theorem countP_since_eq_zero {start : K} {taken : List K} (hpast : ∀ t ∈ taken, t < start) :
    taken.countP (since start) = 0 := by
  apply List.countP_eq_zero.mpr
  intro t ht
  simpa [since] using hpast t ht

end Spans

variable {K : Type} [Field K] [LinearOrder K] [IsStrictOrderedRing K]

/-- The tokens of the times `taken`, newest first, have been taken by `now`, and `credit` is
what the bucket still holds of its `limit`. -/
structure Rationed (rate limit credit now : K) (taken : List K) : Prop where
  credit_nonneg : 0 ≤ credit
  past : ∀ t ∈ taken, t ≤ now
  sorted : taken.Pairwise fun newer older => older ≤ newer
  since_le : ∀ start ≤ now, (taken.countP (since start) : K) + credit ≤
    limit + rate * (now - start)
  between_le : ∀ start stop, start ≤ stop → (taken.countP (between start stop) : K) ≤
    limit + rate * (stop - start)

namespace Rationed

variable {rate limit credit now : K} {taken : List K}

theorem start (hrate : 0 ≤ rate) (hnonneg : 0 ≤ credit) (hle : credit ≤ limit) :
    Rationed rate limit credit now [] where
  credit_nonneg := hnonneg
  past := by simp
  sorted := List.Pairwise.nil
  since_le := by
    intro start hstart
    have haccrued := mul_nonneg hrate (sub_nonneg.mpr hstart)
    simp only [List.countP_nil, Nat.cast_zero]
    linarith
  between_le := by
    intro start stop hspan
    have haccrued := mul_nonneg hrate (sub_nonneg.mpr hspan)
    simp only [List.countP_nil, Nat.cast_zero]
    linarith

theorem accrue (h : Rationed rate limit credit now taken) (hrate : 0 ≤ rate) {later credit' : K}
    (hlater : now ≤ later) (hnonneg : 0 ≤ credit')
    (haccrued : credit' ≤ credit + rate * (later - now)) (hle : credit' ≤ limit) :
    Rationed rate limit credit' later taken where
  credit_nonneg := hnonneg
  past := fun t ht => (h.past t ht).trans hlater
  sorted := h.sorted
  since_le := by
    intro start hstart
    by_cases hold : start ≤ now
    · have hsince := h.since_le start hold
      linarith
    · have hzero : taken.countP (since start) = 0 :=
        countP_since_eq_zero fun t ht => lt_of_le_of_lt (h.past t ht) (not_le.mp hold)
      have hspan := mul_nonneg hrate (sub_nonneg.mpr hstart)
      rw [hzero, Nat.cast_zero]
      linarith
  between_le := h.between_le

theorem take (h : Rationed rate limit credit now taken) (hrate : 0 ≤ rate) (hcredit : 1 ≤ credit) :
    Rationed rate limit (credit - 1) now (now :: taken) where
  credit_nonneg := sub_nonneg.mpr hcredit
  past := by
    intro t ht
    cases ht with
    | head => exact le_refl now
    | tail _ ht => exact h.past t ht
  sorted := List.pairwise_cons.mpr ⟨h.past, h.sorted⟩
  since_le := by
    intro start hstart
    have hsince := h.since_le start hstart
    rw [List.countP_cons_of_pos (by simpa [since] using hstart)]
    push_cast
    linarith
  between_le := by
    intro start stop hspan
    by_cases hnow : start ≤ now ∧ now ≤ stop
    · have hsince := h.since_le start hnow.1
      have hsub : taken.countP (between start stop) ≤ taken.countP (since start) := by
        apply List.countP_mono_left
        intro t _ ht
        simp only [between, since, decide_eq_true_eq] at ht ⊢
        exact ht.1
      have hsub' : (taken.countP (between start stop) : K) ≤ taken.countP (since start) := by
        exact_mod_cast hsub
      have hmore := mul_le_mul_of_nonneg_left (sub_le_sub_right hnow.2 start) hrate
      rw [List.countP_cons_of_pos (by simpa [between] using hnow)]
      push_cast
      linarith
    · rw [List.countP_cons_of_neg (by simpa [between] using hnow)]
      exact h.between_le start stop hspan

theorem takeMany (h : Rationed rate limit credit now taken) (hrate : 0 ≤ rate) (k : ℕ)
    (hcredit : (k : K) ≤ credit) :
    Rationed rate limit (credit - k) now (List.replicate k now ++ taken) := by
  induction k with
  | zero => simpa using h
  | succ k ih =>
    push_cast at hcredit
    have hk := ih (by linarith)
    have hone : 1 ≤ credit - k := by linarith
    have htake := hk.take hrate hone
    rw [List.replicate_succ, List.cons_append]
    push_cast
    rwa [← sub_sub]

theorem forget {t : K} (h : Rationed rate limit credit now (t :: taken)) :
    Rationed rate limit credit now taken where
  credit_nonneg := h.credit_nonneg
  past := fun t' ht' => h.past t' (List.mem_cons_of_mem t ht')
  sorted := (List.pairwise_cons.mp h.sorted).2
  since_le := by
    intro start hstart
    have hsince := h.since_le start hstart
    have hfewer : (taken.countP (since start) : K) ≤ (t :: taken).countP (since start) := by
      exact_mod_cast (List.sublist_cons_self t taken).countP_le
    linarith
  between_le := by
    intro start stop hspan
    have hbetween := h.between_le start stop hspan
    have hfewer : (taken.countP (between start stop) : K) ≤
        (t :: taken).countP (between start stop) := by
      exact_mod_cast (List.sublist_cons_self t taken).countP_le
    linarith

theorem refund {t : K} (h : Rationed rate limit credit now (t :: taken)) (hrate : 0 ≤ rate)
    {credit' : K} (hnonneg : 0 ≤ credit') (hback : credit' ≤ credit + 1) (hle : credit' ≤ limit) :
    Rationed rate limit credit' now taken where
  credit_nonneg := hnonneg
  past := h.forget.past
  sorted := h.forget.sorted
  since_le := by
    intro start hstart
    by_cases ht : start ≤ t
    · have hsince := h.since_le start hstart
      rw [List.countP_cons_of_pos (by simpa [since] using ht)] at hsince
      push_cast at hsince
      linarith
    · have hzero : taken.countP (since start) = 0 := by
        apply countP_since_eq_zero
        intro t' ht'
        exact lt_of_le_of_lt ((List.pairwise_cons.mp h.sorted).1 t' ht') (not_le.mp ht)
      have hspan := mul_nonneg hrate (sub_nonneg.mpr hstart)
      rw [hzero, Nat.cast_zero]
      linarith
  between_le := h.forget.between_le

end Rationed

end AgentTrading.Library.TokenBucket
