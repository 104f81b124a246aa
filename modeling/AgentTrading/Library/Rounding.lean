import Mathlib.Algebra.Order.Floor.Ring
import Mathlib.Data.Int.ConditionallyCompleteOrder
import Mathlib.Data.Int.Log
import Mathlib.Tactic.FieldSimp
import Mathlib.Tactic.Linarith
import Mathlib.Tactic.Positivity
import Mathlib.Tactic.Ring

/-! Rounding: what arithmetic relies on when every result passes through a rounding function,
and that keeping a fixed number of significant digits provides it. -/
namespace AgentTrading.Library.Rounding

variable {K : Type} [Field K] [LinearOrder K]

/-- A rounding keeps the order and moves a number by at most `ε` of its size. -/
structure Rounds (round : K → K) (ε : K) : Prop where
  mono : Monotone round
  error : ∀ x, |round x - x| ≤ ε * |x|

namespace Rounds

variable [IsStrictOrderedRing K] {round : K → K} {ε : K}

theorem id : Rounds (fun x : K => x) 0 where
  mono := monotone_id
  error x := by simp

theorem error_nonneg (h : Rounds round ε) : 0 ≤ ε := by
  have herror := h.error 1
  rw [abs_one, mul_one] at herror
  exact (abs_nonneg _).trans herror

theorem zero (h : Rounds round ε) : round 0 = 0 := by
  have herror := h.error 0
  rw [abs_zero, mul_zero, sub_zero] at herror
  exact abs_eq_zero.mp (le_antisymm herror (abs_nonneg _))

theorem nonneg (h : Rounds round ε) {x : K} (hx : 0 ≤ x) : 0 ≤ round x := by
  have hmono := h.mono hx
  rwa [h.zero] at hmono

theorem nonpos (h : Rounds round ε) {x : K} (hx : x ≤ 0) : round x ≤ 0 := by
  have hmono := h.mono hx
  rwa [h.zero] at hmono

theorem pos_of_pos (h : Rounds round ε) {x : K} (hx : 0 < round x) : 0 < x := by
  by_contra hle
  exact absurd (h.nonpos (not_lt.mp hle)) (not_le.mpr hx)

theorem le_mul (h : Rounds round ε) {x : K} (hx : 0 ≤ x) : round x ≤ (1 + ε) * x := by
  have herror := (abs_le.mp (h.error x)).2
  rw [abs_of_nonneg hx] at herror
  linarith

theorem mul_le (h : Rounds round ε) {x : K} (hx : 0 ≤ x) : (1 - ε) * x ≤ round x := by
  have herror := (abs_le.mp (h.error x)).1
  rw [abs_of_nonneg hx] at herror
  linarith

end Rounds

/-- `y` is what `k` roundings make of `x`, on the way from numbers of size `M`. -/
structure Approx (ε : K) (k : ℕ) (M x y : K) : Prop where
  size : |x| ≤ M
  error : |y - x| ≤ ((1 + ε) ^ k - 1) * M

namespace Approx

variable [IsStrictOrderedRing K] {round : K → K} {ε M N x y a c : K} {k l : ℕ}

theorem refl (x : K) : Approx ε 0 |x| x x where
  size := le_rfl
  error := by simp

theorem rounded (hr : Rounds round ε) (h : Approx ε k M x y) : Approx ε (k + 1) M x (round y) where
  size := h.size
  error := by
    have hε := hr.error_nonneg
    have hy : |y| ≤ (1 + ε) ^ k * M := by
      have htri := abs_add_le (y - x) x
      rw [sub_add_cancel] at htri
      linarith [h.size, h.error]
    calc |round y - x| = |(round y - y) + (y - x)| := by rw [sub_add_sub_cancel]
      _ ≤ |round y - y| + |y - x| := abs_add_le _ _
      _ ≤ ε * |y| + ((1 + ε) ^ k - 1) * M := add_le_add (hr.error y) h.error
      _ ≤ ε * ((1 + ε) ^ k * M) + ((1 + ε) ^ k - 1) * M := by gcongr
      _ = ((1 + ε) ^ (k + 1) - 1) * M := by ring

theorem weaken (hε : 0 ≤ ε) (h : Approx ε k M x y) (hkl : k ≤ l) (hMN : M ≤ N) :
    Approx ε l N x y where
  size := h.size.trans hMN
  error := by
    have hM : 0 ≤ M := (abs_nonneg x).trans h.size
    have hpow : (1 + ε) ^ k ≤ (1 + ε) ^ l := pow_le_pow_right₀ (by linarith) hkl
    have hone : 1 ≤ (1 + ε) ^ l := one_le_pow₀ (by linarith)
    calc |y - x| ≤ ((1 + ε) ^ k - 1) * M := h.error
      _ ≤ ((1 + ε) ^ l - 1) * M := by gcongr
      _ ≤ ((1 + ε) ^ l - 1) * N := mul_le_mul_of_nonneg_left hMN (by linarith)

theorem const_mul (h : Approx ε k M x y) (c : K) : Approx ε k (|c| * M) (c * x) (c * y) where
  size := by
    rw [abs_mul]
    exact mul_le_mul_of_nonneg_left h.size (abs_nonneg c)
  error := by
    calc |c * y - c * x| = |c| * |y - x| := by rw [← mul_sub, abs_mul]
      _ ≤ |c| * (((1 + ε) ^ k - 1) * M) := mul_le_mul_of_nonneg_left h.error (abs_nonneg c)
      _ = ((1 + ε) ^ k - 1) * (|c| * M) := by ring

theorem sub (h : Approx ε k M x y) (h' : Approx ε k N a c) :
    Approx ε k (M + N) (x - a) (y - c) where
  size := (abs_sub x a).trans (add_le_add h.size h'.size)
  error := by
    calc |y - c - (x - a)| = |(y - x) - (c - a)| := by congr 1; ring
      _ ≤ |y - x| + |c - a| := abs_sub _ _
      _ ≤ ((1 + ε) ^ k - 1) * M + ((1 + ε) ^ k - 1) * N := add_le_add h.error h'.error
      _ = ((1 + ε) ^ k - 1) * (M + N) := by ring

/-- What `l` more roundings make of it, from above. -/
theorem scaled_le (hε : 0 ≤ ε) (h : Approx ε k M x y) (l : ℕ) :
    (1 + ε) ^ l * y ≤ x + ((1 + ε) ^ (k + l) - 1) * M := by
  have hone : 1 ≤ (1 + ε) ^ l := one_le_pow₀ (by linarith)
  have hx := (abs_le.mp h.size).2
  have hy := (abs_le.mp h.error).2
  calc (1 + ε) ^ l * y ≤ (1 + ε) ^ l * (x + ((1 + ε) ^ k - 1) * M) := by
        apply mul_le_mul_of_nonneg_left _ (by linarith)
        linarith
    _ = x + ((1 + ε) ^ (k + l) - 1) * M - ((1 + ε) ^ l - 1) * (M - x) := by ring
    _ ≤ x + ((1 + ε) ^ (k + l) - 1) * M := by
        apply sub_le_self
        exact mul_nonneg (by linarith) (by linarith)

end Approx

section Truncate

variable [FloorRing K]

def truncate (x : K) : K := if 0 ≤ x then (⌊x⌋ : K) else (⌈x⌉ : K)

theorem truncate_of_nonneg {x : K} (hx : 0 ≤ x) : truncate x = ⌊x⌋ := if_pos hx

theorem truncate_le {x : K} (hx : 0 ≤ x) : truncate x ≤ x := by
  rw [truncate_of_nonneg hx]
  exact Int.floor_le x

theorem truncate_isInt (x : K) : ∃ z : ℤ, truncate x = z := by
  unfold truncate
  split
  · exact ⟨_, rfl⟩
  · exact ⟨_, rfl⟩

variable [IsStrictOrderedRing K]

theorem truncate_nonneg {x : K} (hx : 0 ≤ x) : 0 ≤ truncate x := by
  rw [truncate_of_nonneg hx]
  exact_mod_cast Int.floor_nonneg.mpr hx

theorem truncate_nonpos {x : K} (hx : x ≤ 0) : truncate x ≤ 0 := by
  unfold truncate
  split
  next h =>
    have hzero : x = 0 := le_antisymm hx h
    simp [hzero]
  next h => exact_mod_cast Int.ceil_le.mpr (by simpa using hx)

theorem truncate_mono : Monotone (truncate : K → K) := by
  intro x y hxy
  by_cases hx : 0 ≤ x
  · rw [truncate_of_nonneg hx, truncate_of_nonneg (hx.trans hxy)]
    exact_mod_cast Int.floor_mono hxy
  · by_cases hy : 0 ≤ y
    · exact (truncate_nonpos (not_le.mp hx).le).trans (truncate_nonneg hy)
    · rw [truncate, truncate, if_neg hx, if_neg hy]
      exact_mod_cast Int.ceil_mono hxy

@[simp] theorem truncate_intCast (z : ℤ) : truncate (z : K) = z := by
  simp [truncate]

theorem pos_of_truncate_pos {x : K} (hx : 0 < truncate x) : 0 < x := by
  by_contra hle
  exact absurd (truncate_nonpos (not_lt.mp hle)) (not_le.mpr hx)

end Truncate

section Significant

/-- A rule for the nearest integer. -/
structure Nearest (nearest : K → ℤ) : Prop where
  mono : Monotone nearest
  intCast : ∀ z : ℤ, nearest z = z
  half : ∀ x, |(nearest x : K) - x| ≤ 1 / 2

namespace Nearest

variable {nearest : K → ℤ}

theorem le_of_le (h : Nearest nearest) {z : ℤ} {x : K} (hx : (z : K) ≤ x) : z ≤ nearest x := by
  have hmono := h.mono hx
  rwa [h.intCast] at hmono

theorem ge_of_ge (h : Nearest nearest) {z : ℤ} {x : K} (hx : x ≤ z) : nearest x ≤ z := by
  have hmono := h.mono hx
  rwa [h.intCast] at hmono

end Nearest

variable [FloorRing K]

/-- `x` to `digits + 1` significant digits of base `b`, by a rule for the nearest integer. -/
def significant (b digits : ℕ) (nearest : K → ℤ) (x : K) : K :=
  nearest (x / (b : K) ^ (Int.log b |x| - digits)) * (b : K) ^ (Int.log b |x| - digits)

variable {b digits : ℕ} {nearest : K → ℤ}

theorem pow_mul_unit (hb : 1 < b) (m : ℕ) (e : ℤ) :
    (b : K) ^ m * (b : K) ^ (e - digits) = (b : K) ^ (e + (m - digits)) := by
  have hbase : (b : K) ≠ 0 := by exact_mod_cast (Nat.zero_lt_one.trans hb).ne'
  rw [← zpow_natCast, ← zpow_add₀ hbase]
  congr 1
  omega

variable [IsStrictOrderedRing K]

theorem unit_pos (hb : 1 < b) (e : ℤ) : 0 < (b : K) ^ e :=
  zpow_pos (by exact_mod_cast Nat.zero_lt_one.trans hb) e

/-- The scaled number keeps `digits` digits behind its leading one. -/
theorem scaled_bounds (digits : ℕ) (hb : 1 < b) {x : K} (hx : 0 < x) :
    (b : K) ^ digits ≤ x / (b : K) ^ (Int.log b x - digits) ∧
      x / (b : K) ^ (Int.log b x - digits) < (b : K) ^ (digits + 1) := by
  constructor
  · rw [le_div_iff₀ (unit_pos hb _), pow_mul_unit hb, sub_self, add_zero]
    exact Int.zpow_log_le_self hb hx
  · rw [div_lt_iff₀ (unit_pos hb _), pow_mul_unit hb]
    push_cast
    rw [add_sub_cancel_left]
    exact Int.lt_zpow_succ_log_self hb x

theorem significant_error (hb : 1 < b) (h : Nearest nearest) (x : K) :
    |significant b digits nearest x - x| ≤ 1 / (2 * (b : K) ^ digits) * |x| := by
  by_cases hx : x = 0
  · have hnearest : nearest 0 = 0 := by simpa using h.intCast 0
    simp [significant, hx, hnearest]
  · have hlow := (scaled_bounds digits hb (abs_pos.mpr hx)).1
    have hunit : 0 < (b : K) ^ (Int.log b |x| - digits) := unit_pos hb _
    have hpow : 0 < (b : K) ^ digits := pow_pos (by exact_mod_cast Nat.zero_lt_one.trans hb) _
    unfold significant
    generalize (b : K) ^ (Int.log b |x| - digits) = unit at hlow hunit ⊢
    rw [le_div_iff₀ hunit] at hlow
    have hscaled :
        (nearest (x / unit) : K) * unit - x = (nearest (x / unit) - x / unit) * unit := by
      field_simp
    calc |(nearest (x / unit) : K) * unit - x|
        = |(nearest (x / unit) : K) - x / unit| * unit := by
          rw [hscaled, abs_mul, abs_of_pos hunit]
      _ ≤ 1 / 2 * unit := by gcongr; exact h.half _
      _ ≤ 1 / (2 * (b : K) ^ digits) * |x| := by
          rw [div_mul_eq_mul_div, one_mul, div_mul_eq_mul_div, one_mul,
            div_le_div_iff₀ two_pos (by positivity)]
          linarith

theorem significant_of_pos (hb : 1 < b) (h : Nearest nearest) {x : K} (hx : 0 < x) :
    (b : K) ^ Int.log b x ≤ significant b digits nearest x ∧
      significant b digits nearest x ≤ (b : K) ^ (Int.log b x + 1) := by
  obtain ⟨hlow, hhigh⟩ := scaled_bounds digits hb hx
  have hunit := unit_pos (K := K) hb (Int.log b x - digits)
  unfold significant
  rw [abs_of_pos hx]
  constructor
  · have hnearest := h.le_of_le (z := (b : ℤ) ^ digits) (by push_cast; exact hlow)
    calc (b : K) ^ Int.log b x = (b : K) ^ digits * (b : K) ^ (Int.log b x - digits) := by
          rw [pow_mul_unit hb, sub_self, add_zero]
      _ ≤ _ := by gcongr; exact_mod_cast hnearest
  · have hnearest := h.ge_of_ge (z := (b : ℤ) ^ (digits + 1)) (by push_cast; exact hhigh.le)
    calc _ ≤ (b : K) ^ (digits + 1) * (b : K) ^ (Int.log b x - digits) := by
          gcongr; exact_mod_cast hnearest
      _ = (b : K) ^ (Int.log b x + 1) := by
          rw [pow_mul_unit hb]
          push_cast
          rw [add_sub_cancel_left]

theorem significant_of_neg (hb : 1 < b) (h : Nearest nearest) {x : K} (hx : x < 0) :
    -(b : K) ^ (Int.log b (-x) + 1) ≤ significant b digits nearest x ∧
      significant b digits nearest x ≤ -(b : K) ^ Int.log b (-x) := by
  obtain ⟨hlow, hhigh⟩ := scaled_bounds digits hb (neg_pos.mpr hx)
  have hunit := unit_pos (K := K) hb (Int.log b (-x) - digits)
  unfold significant
  rw [abs_of_neg hx]
  rw [neg_div] at hlow hhigh
  constructor
  · have hnearest := h.le_of_le (z := -(b : ℤ) ^ (digits + 1))
      (x := x / (b : K) ^ (Int.log b (-x) - digits)) (by push_cast; linarith)
    calc -(b : K) ^ (Int.log b (-x) + 1)
        = -(b : K) ^ (digits + 1) * (b : K) ^ (Int.log b (-x) - digits) := by
          rw [neg_mul, pow_mul_unit hb]
          push_cast
          rw [add_sub_cancel_left]
      _ ≤ _ := by gcongr; exact_mod_cast hnearest
  · have hnearest := h.ge_of_ge (z := -(b : ℤ) ^ digits)
      (x := x / (b : K) ^ (Int.log b (-x) - digits)) (by push_cast; linarith)
    calc _ ≤ -(b : K) ^ digits * (b : K) ^ (Int.log b (-x) - digits) := by
          gcongr; exact_mod_cast hnearest
      _ = -(b : K) ^ Int.log b (-x) := by
          rw [neg_mul, pow_mul_unit hb, sub_self, add_zero]

theorem significant_le_of_log_eq (h : Nearest nearest) (hb : 1 < b) {x y : K} (hxy : x ≤ y)
    (hlog : Int.log b |x| = Int.log b |y|) :
    significant b digits nearest x ≤ significant b digits nearest y := by
  have hunit := unit_pos (K := K) hb (Int.log b |y| - digits)
  unfold significant
  rw [hlog]
  gcongr
  apply h.mono
  gcongr

theorem significant_mono (hb : 1 < b) (h : Nearest nearest) :
    Monotone (significant b digits nearest : K → K) := by
  have hzero : significant b digits nearest (0 : K) = 0 := by
    have hnearest : nearest 0 = 0 := by simpa using h.intCast 0
    simp [significant, hnearest]
  have hone : (1 : K) ≤ b := by exact_mod_cast hb.le
  intro x y hxy
  rcases lt_trichotomy x 0 with hx | rfl | hx
  · rcases lt_trichotomy y 0 with hy | rfl | hy
    · -- both negative: the larger exponent is the smaller number's
      have hlog : Int.log b (-y) ≤ Int.log b (-x) :=
        Int.log_mono_right (neg_pos.mpr hy) (by linarith)
      rcases hlog.eq_or_lt with heq | hlt
      · apply significant_le_of_log_eq h hb hxy
        rw [abs_of_neg hx, abs_of_neg hy, heq]
      · calc _ ≤ -(b : K) ^ Int.log b (-x) := (significant_of_neg hb h hx).2
          _ ≤ -(b : K) ^ (Int.log b (-y) + 1) := by
              apply neg_le_neg
              exact zpow_le_zpow_right₀ hone (by omega)
          _ ≤ _ := (significant_of_neg hb h hy).1
    · rw [hzero]
      apply (significant_of_neg hb h hx).2.trans
      exact neg_nonpos.mpr (unit_pos hb _).le
    · apply (significant_of_neg hb h hx).2.trans
      apply le_trans _ (significant_of_pos hb h hy).1
      exact (neg_nonpos.mpr (unit_pos hb _).le).trans (unit_pos hb _).le
  · rcases hxy.eq_or_lt with rfl | hy
    · exact le_rfl
    · rw [hzero]
      exact (unit_pos hb _).le.trans (significant_of_pos hb h hy).1
  · have hy := hx.trans_le hxy
    have hlog : Int.log b x ≤ Int.log b y := Int.log_mono_right hx hxy
    rcases hlog.eq_or_lt with heq | hlt
    · apply significant_le_of_log_eq h hb hxy
      rw [abs_of_pos hx, abs_of_pos hy, heq]
    · calc _ ≤ (b : K) ^ (Int.log b x + 1) := (significant_of_pos hb h hx).2
        _ ≤ (b : K) ^ Int.log b y := zpow_le_zpow_right₀ hone (by omega)
        _ ≤ _ := (significant_of_pos hb h hy).1

/-- Keeping `digits + 1` significant digits is a rounding. -/
theorem significant_rounds (hb : 1 < b) (h : Nearest nearest) :
    Rounds (significant b digits nearest : K → K) (1 / (2 * (b : K) ^ digits)) where
  mono := significant_mono hb h
  error := significant_error hb h

theorem significant_eq_mul (hb : 1 < b) (h : Nearest nearest) (x : K) :
    ∃ (z : ℤ) (e : ℤ), |z| ≤ (b : ℤ) ^ (digits + 1) ∧
      significant b digits nearest x = z * (b : K) ^ e := by
  refine ⟨_, Int.log b |x| - digits, ?_, rfl⟩
  rcases eq_or_ne x 0 with rfl | hx
  · have hnearest : nearest 0 = 0 := by simpa using h.intCast 0
    simp [hnearest]
  · have hhigh := (scaled_bounds digits hb (abs_pos.mpr hx)).2
    have hunit := unit_pos (K := K) hb (Int.log b |x| - digits)
    have hscaled : |x| / (b : K) ^ (Int.log b |x| - digits) =
        |x / (b : K) ^ (Int.log b |x| - digits)| := by
      rw [abs_div, abs_of_pos hunit]
    rw [hscaled] at hhigh
    obtain ⟨hlow, hhigh⟩ := abs_lt.mp hhigh
    rw [abs_le]
    constructor
    · exact h.le_of_le (by push_cast; exact hlow.le)
    · exact h.ge_of_ge (by push_cast; exact hhigh.le)

theorem significant_mul (hb : 1 < b) (h : Nearest nearest) {z e : ℤ}
    (hz : |z| ≤ (b : ℤ) ^ (digits + 1)) :
    significant b digits nearest (z * (b : K) ^ e) = z * (b : K) ^ e := by
  have hbase : (1 : K) < b := by exact_mod_cast hb
  have hne : (b : K) ≠ 0 := (zero_lt_one.trans hbase).ne'
  rcases eq_or_ne z 0 with rfl | hzero
  · have hnearest : nearest 0 = 0 := by simpa using h.intCast 0
    simp [significant, hnearest]
  · have habs : |(z : K) * (b : K) ^ e| = |(z : K)| * (b : K) ^ e := by
      rw [abs_mul, abs_of_pos (unit_pos hb e : 0 < (b : K) ^ e)]
    have hpos : 0 < |(z : K) * (b : K) ^ e| :=
      abs_pos.mpr (mul_ne_zero (by exact_mod_cast hzero) (unit_pos hb e).ne')
    -- the scaled number is an integer: `z` itself with the digits it lacks, or a power of `b`
    have hinteger : ∃ w : ℤ, (z : K) * (b : K) ^ e /
        (b : K) ^ (Int.log b |(z : K) * (b : K) ^ e| - digits) = w := by
      have hscaled : ∀ l : ℤ, (z : K) * (b : K) ^ e / (b : K) ^ (l - digits) =
          z * (b : K) ^ (e - (l - digits)) := fun l => by rw [mul_div_assoc, ← zpow_sub₀ hne]
      rw [hscaled]
      rcases hz.eq_or_lt with heq | hlt
      · have hlog : Int.log b |(z : K) * (b : K) ^ e| = digits + 1 + e := by
          have hzK : |(z : K)| = (b : K) ^ (digits + 1) := by exact_mod_cast heq
          rw [habs, hzK, ← zpow_natCast, ← zpow_add₀ hne, Int.log_zpow hb]
          push_cast
          rfl
        rw [hlog, show e - ((digits : ℤ) + 1 + e - digits) = -1 by ring, zpow_neg_one]
        rcases abs_eq (by positivity) |>.mp heq with hz | hz
        · refine ⟨b ^ digits, ?_⟩
          rw [hz]
          push_cast
          rw [pow_succ, mul_inv_cancel_right₀ hne]
        · refine ⟨-b ^ digits, ?_⟩
          rw [hz]
          push_cast
          rw [neg_mul, pow_succ, mul_inv_cancel_right₀ hne]
      · have hlog : Int.log b |(z : K) * (b : K) ^ e| < digits + 1 + e := by
          apply (Int.lt_zpow_iff_log_lt hb hpos).mp
          rw [habs, zpow_add₀ hne]
          apply mul_lt_mul_of_pos_right _ (unit_pos hb e)
          exact_mod_cast hlt
        obtain ⟨n, hn⟩ := Int.eq_ofNat_of_zero_le
          (by omega : 0 ≤ e - (Int.log b |(z : K) * (b : K) ^ e| - digits))
        refine ⟨z * b ^ n, ?_⟩
        rw [hn]
        push_cast
        rw [zpow_natCast]
    obtain ⟨w, hw⟩ := hinteger
    unfold significant
    rw [hw, h.intCast, ← hw, div_mul_cancel₀ _ (unit_pos hb _).ne']

theorem significant_fract (hb : 1 < b) (h : Nearest nearest) {x : K} (hx : 0 ≤ x) :
    significant b digits nearest (Int.fract (significant b digits nearest x)) =
      Int.fract (significant b digits nearest x) := by
  have hnonneg : 0 ≤ significant b digits nearest x := (significant_rounds hb h).nonneg hx
  obtain ⟨z, e, hz, heq⟩ : ∃ (z : ℤ) (e : ℤ), |z| ≤ (b : ℤ) ^ (digits + 1) ∧
      significant b digits nearest x = z * (b : K) ^ e := significant_eq_mul hb h x
  rw [heq] at hnonneg ⊢
  have hbase : (b : K) ≠ 0 := by exact_mod_cast (Nat.zero_lt_one.trans hb).ne'
  rcases le_or_gt 0 e with he | he
  · obtain ⟨n, rfl⟩ := Int.eq_ofNat_of_zero_le he
    have hint : (z : K) * (b : K) ^ (n : ℤ) = ((z * b ^ n : ℤ) : K) := by
      push_cast
      rw [zpow_natCast]
    rw [hint, Int.fract_intCast]
    exact (significant_rounds hb h).zero
  · obtain ⟨n, hn⟩ := Int.eq_ofNat_of_zero_le (by omega : 0 ≤ -e)
    obtain rfl : e = -(n : ℤ) := by omega
    have hfract : Int.fract ((z : K) * (b : K) ^ (-(n : ℤ))) =
        ((z - ⌊(z : K) * (b : K) ^ (-(n : ℤ))⌋ * b ^ n : ℤ) : K) * (b : K) ^ (-(n : ℤ)) := by
      rw [Int.fract]
      push_cast
      rw [sub_mul, mul_assoc, ← zpow_natCast (b : K) n, ← zpow_add₀ hbase, add_neg_cancel,
        zpow_zero, mul_one]
    rw [hfract]
    apply significant_mul hb h
    have hunit := unit_pos (K := K) hb (-(n : ℤ))
    have hle := Int.fract_nonneg ((z : K) * (b : K) ^ (-(n : ℤ)))
    rw [hfract] at hle
    have hpart : 0 ≤ z - ⌊(z : K) * (b : K) ^ (-(n : ℤ))⌋ * (b : ℤ) ^ n := by
      exact_mod_cast nonneg_of_mul_nonneg_left hle hunit
    have hfloor : 0 ≤ ⌊(z : K) * (b : K) ^ (-(n : ℤ))⌋ * (b : ℤ) ^ n :=
      mul_nonneg (Int.floor_nonneg.mpr hnonneg) (by positivity)
    rw [abs_of_nonneg hpart]
    exact (sub_le_self z hfloor).trans ((le_abs_self z).trans hz)

end Significant

end AgentTrading.Library.Rounding
