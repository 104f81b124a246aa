import Mathlib.Data.Rat.Floor
import AgentTrading.Library.Rounding
import AgentTrading.RealizedPnl.Engine

/-! The decimal context keeps 28 significant digits, and so rounds in the library's sense. -/
namespace AgentTrading.RealizedPnl
open Library.Rounding

theorem roundHalfEven_bounds (x : ℚ) : ⌊x⌋ ≤ roundHalfEven x ∧ roundHalfEven x ≤ ⌊x⌋ + 1 := by
  have hfloor : x.floor = ⌊x⌋ := rfl
  unfold roundHalfEven
  rw [hfloor]
  dsimp only
  split_ifs <;> omega

theorem roundHalfEven_nearest : Nearest roundHalfEven where
  mono x y hxy := by
    have hfloor : ⌊x⌋ ≤ ⌊y⌋ := Int.floor_mono hxy
    rcases hfloor.eq_or_lt with heq | hlt
    · have hx : x.floor = ⌊x⌋ := rfl
      have hy : y.floor = ⌊x⌋ := heq.symm
      unfold roundHalfEven
      rw [hx, hy]
      dsimp only
      -- between the same integers the one farther up does not round down alone
      split_ifs <;> first | omega | (exfalso; linarith)
    · have hx := (roundHalfEven_bounds x).2
      have hy := (roundHalfEven_bounds y).1
      omega
  intCast z := by
    have hfloor : (z : ℚ).floor = z := Int.floor_intCast (R := ℚ) z
    simp [roundHalfEven, hfloor]
  half x := by
    have hfloor : x.floor = ⌊x⌋ := rfl
    have hlow := Int.floor_le x
    have hhigh := Int.lt_floor_add_one x
    unfold roundHalfEven
    rw [hfloor]
    dsimp only
    rw [abs_le]
    split_ifs <;> push_cast <;> constructor <;> linarith

theorem powerOfTen_eq (e : ℤ) : powerOfTen e = (10 : ℚ) ^ e := by
  unfold powerOfTen
  split
  next h =>
    obtain ⟨m, rfl⟩ := Int.eq_ofNat_of_zero_le h
    simp
  next h =>
    obtain ⟨m, hm⟩ := Int.eq_ofNat_of_zero_le (by omega : 0 ≤ -e)
    have he : e = -(m : ℤ) := by omega
    rw [he]
    simp

theorem decimalDigits_bounds {m : ℕ} (hm : 0 < m) :
    (10 : ℚ) ^ (decimalDigits m - 1) ≤ m ∧ (m : ℚ) < (10 : ℚ) ^ decimalDigits m := by
  have hpos : 0 < (Nat.toDigits 10 m).length := Nat.length_toDigits_pos
  unfold decimalDigits
  constructor
  · have hpow : 10 ^ ((Nat.toDigits 10 m).length - 1) ≤ m := by
      by_contra hlt
      rcases Nat.eq_zero_or_pos ((Nat.toDigits 10 m).length - 1) with hone | hmore
      · rw [hone] at hlt
        omega
      · have hle := (Nat.length_toDigits_le_iff (by decide) hmore).mpr (not_le.mp hlt)
        omega
    have hcast : ((Nat.toDigits 10 m).length : ℤ) - 1 =
        (((Nat.toDigits 10 m).length - 1 : ℕ) : ℤ) := by omega
    rw [hcast, zpow_natCast]
    exact_mod_cast hpow
  · rw [zpow_natCast]
    exact_mod_cast (Nat.length_toDigits_le_iff (by decide) hpos).mp le_rfl

/-- The leading digit stands at the difference of the digit counts or one place below it. -/
theorem abs_bounds {x : ℚ} (hx : x ≠ 0) :
    (10 : ℚ) ^ (decimalDigits x.num.natAbs - decimalDigits x.den - 1) < |x| ∧
      |x| < (10 : ℚ) ^ (decimalDigits x.num.natAbs - decimalDigits x.den + 1) := by
  have hnum : 0 < x.num.natAbs := Int.natAbs_pos.mpr (Rat.num_ne_zero.mpr hx)
  have hden : (0 : ℚ) < x.den := by exact_mod_cast x.den_pos
  obtain ⟨hnumLow, hnumHigh⟩ := decimalDigits_bounds hnum
  obtain ⟨hdenLow, hdenHigh⟩ := decimalDigits_bounds x.den_pos
  have hten : (10 : ℚ) ≠ 0 := by norm_num
  have hpow : ∀ e : ℤ, 0 < (10 : ℚ) ^ e := fun e => zpow_pos (by norm_num) e
  have habs : |x| = (x.num.natAbs : ℚ) / x.den := by
    rw [Nat.cast_natAbs, Int.cast_abs]
    conv_lhs => rw [← Rat.num_div_den x]
    rw [abs_div, abs_of_pos hden]
  generalize decimalDigits x.num.natAbs = a at *
  generalize decimalDigits x.den = c at *
  rw [habs]
  constructor
  · rw [lt_div_iff₀ hden]
    calc (10 : ℚ) ^ (a - c - 1) * x.den < (10 : ℚ) ^ (a - c - 1) * (10 : ℚ) ^ c :=
          mul_lt_mul_of_pos_left hdenHigh (hpow _)
      _ = (10 : ℚ) ^ (a - 1) := by
          rw [← zpow_add₀ hten, sub_right_comm, sub_add_cancel]
      _ ≤ _ := hnumLow
  · rw [div_lt_iff₀ hden]
    calc (x.num.natAbs : ℚ) < (10 : ℚ) ^ a := hnumHigh
      _ = (10 : ℚ) ^ (a - c + 1) * (10 : ℚ) ^ (c - 1) := by
          rw [← zpow_add₀ hten, add_add_sub_cancel, sub_add_cancel]
      _ ≤ _ := mul_le_mul_of_nonneg_left hdenLow (hpow _).le

theorem log_abs {x : ℚ} (hx : x ≠ 0) :
    Int.log 10 |x| =
      (if |x| < powerOfTen (decimalDigits x.num.natAbs - decimalDigits x.den - 27 + 27)
        then decimalDigits x.num.natAbs - decimalDigits x.den - 27 - 1
        else decimalDigits x.num.natAbs - decimalDigits x.den - 27) + 27 := by
  obtain ⟨hlow, hhigh⟩ := abs_bounds hx
  have hpos := abs_pos.mpr hx
  rw [powerOfTen_eq]
  generalize decimalDigits x.num.natAbs - decimalDigits x.den = place at *
  have hplace : place - 27 + 27 = place := by omega
  rw [hplace]
  have hge : ∀ e : ℤ, (10 : ℚ) ^ e ≤ |x| → e ≤ Int.log 10 |x| := by
    intro e he
    exact (Int.zpow_le_iff_le_log (by decide) hpos).mp (by exact_mod_cast he)
  have hlt : ∀ e : ℤ, |x| < (10 : ℚ) ^ e → Int.log 10 |x| < e := by
    intro e he
    exact (Int.lt_zpow_iff_log_lt (by decide) hpos).mp (by exact_mod_cast he)
  split
  next h =>
    have h₁ := hge _ hlow.le
    have h₂ := hlt _ h
    omega
  next h =>
    have h₁ := hge _ (not_lt.mp h)
    have h₂ := hlt _ hhigh
    omega

theorem decimalContext_eq : decimalContext = significant 10 27 roundHalfEven := by
  funext x
  by_cases hx : x = 0
  · have hround : roundHalfEven 0 = 0 := by simpa using roundHalfEven_nearest.intCast 0
    simp [decimalContext, significant, hx, hround]
  · have hlog := log_abs hx
    unfold decimalContext significant
    dsimp only
    rw [hlog, powerOfTen_eq]
    push_cast
    rw [add_sub_cancel_right]

/-- Half a unit in the 28th digit. -/
def contextError : ℚ := 1 / (2 * 10 ^ 27)

theorem decimalContext_rounds : Rounds decimalContext contextError := by
  rw [decimalContext_eq]
  exact significant_rounds (by decide) roundHalfEven_nearest

end AgentTrading.RealizedPnl
