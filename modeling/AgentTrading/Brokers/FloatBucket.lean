import AgentTrading.Brokers.BucketRate
import AgentTrading.RealizedPnl.DecimalContext

/-! The bucket in the floats the source computes with: what is left of the exact law when every
result is rounded. -/
namespace AgentTrading.Brokers
open Domain Kis Library.Rounding Library.TokenBucket RealizedPnl

/-- A result in binary64, its exponent without bounds: 53 significant bits, ties to even. -/
def binary64 (x : ℚ) : ℚ := significant 2 52 roundHalfEven x

def unitRoundoff : ℚ := 1 / 2 ^ 53

theorem binary64_rounds : Rounds binary64 unitRoundoff := by
  have hunit : unitRoundoff = 1 / (2 * ((2 : ℕ) : ℚ) ^ 52) := by norm_num [unitRoundoff]
  rw [hunit]
  exact significant_rounds (by decide) roundHalfEven_nearest

theorem binary64_fract {x : ℚ} (hx : 0 ≤ x) :
    binary64 (Int.fract (binary64 x)) = Int.fract (binary64 x) :=
  significant_fract (by decide) roundHalfEven_nearest hx

/-- What `calls` refills may be off by when `accrued` tokens accrue. -/
def slack (calls : Nat) (accrued : ℚ) : ℚ :=
  calls * unitRoundoff + ((1 + unitRoundoff) ^ 3 - 1) * accrued

theorem slack_nonneg (n : Nat) {x : ℚ} (hx : 0 ≤ x) : 0 ≤ slack n x := by
  have hunit : 0 ≤ unitRoundoff := by norm_num [unitRoundoff]
  have hthree : 0 ≤ (1 + unitRoundoff) ^ 3 - 1 := by norm_num [unitRoundoff]
  exact add_nonneg (mul_nonneg n.cast_nonneg hunit) (mul_nonneg hthree hx)

namespace OperationBucket

/-- `accrued`: the quotient of `total_seconds()`, the product and the sum are each rounded. -/
def floatAccrued (b : OperationBucket) (now : Time) : ℚ :=
  binary64 (b.fractionalTokens +
    binary64 (binary64 ((now - b.refillAt) / 1000000) * b.refillRate))

/-- `_refill` as the interpreter computes it. -/
def floatRefill (b : OperationBucket) (now : Time) : OperationBucket :=
  let elapsed := binary64 ((now - b.refillAt) / 1000000)
  if elapsed > 0 then
    let accrued := binary64 (b.fractionalTokens + binary64 (elapsed * b.refillRate))
    let tokensToAdd := accrued.num.tdiv accrued.den
    { b with
      fractionalTokens := binary64 (accrued - tokensToAdd)
      remaining := if tokensToAdd > 0 then min b.capacity (b.remaining + tokensToAdd)
        else b.remaining
      refillAt := now }
  else b

def floatTryConsume (b : OperationBucket) (tokens : Int) (now : Time) : Bool × OperationBucket :=
  let b := b.floatRefill now
  if b.remaining ≥ tokens then (true, { b with remaining := b.remaining - tokens })
  else (false, b)

def floatIsExhausted (b : OperationBucket) (now : Time) : Bool × OperationBucket :=
  let b := b.floatRefill now
  (b.remaining ≤ 0, b)

end OperationBucket

namespace Schedule

def floatRun (b : OperationBucket) : Schedule → List (Time × Int) × OperationBucket
  | [] => ([], b)
  | (now, .tryConsume tokens) :: rest =>
    let (granted, b) := b.floatTryConsume tokens now
    let (grants, b) := floatRun b rest
    ((now, if granted then tokens else 0) :: grants, b)
  | (now, .isExhausted) :: rest => floatRun (b.floatIsExhausted now).2 rest

def FloatNeverFull (b : OperationBucket) : Schedule → Prop
  | [] => True
  | (now, poll) :: rest => (b.floatRefill now).remaining < b.capacity ∧
      FloatNeverFull (floatRun b [(now, poll)]).2 rest

instance decidableFloatNeverFull (b : OperationBucket) :
    (schedule : Schedule) → Decidable (FloatNeverFull b schedule)
  | [] => .isTrue trivial
  | (now, poll) :: rest =>
    have := decidableFloatNeverFull (floatRun b [(now, poll)]).2 rest
    inferInstanceAs (Decidable ((b.floatRefill now).remaining < b.capacity ∧
      FloatNeverFull _ rest))

end Schedule

namespace OperationBucket

variable {b : OperationBucket} {now : Time}

theorem Sound.floatAccrued_error (h : b.Sound) (hrate : 0 ≤ b.refillRate)
    (hnow : b.refillAt ≤ now) :
    |b.floatAccrued now -
        (b.fractionalTokens + b.refillRate * (seconds now - seconds b.refillAt))| ≤
      slack 1 (b.refillRate * (seconds now - seconds b.refillAt)) := by
  have hspan : ((now : ℚ) - b.refillAt) / 1000000 = seconds now - seconds b.refillAt := by
    simp only [seconds]
    ring
  have helapsed : 0 ≤ seconds now - seconds b.refillAt := sub_nonneg.mpr (seconds_mono hnow)
  have hfraction := h.fractionalTokens_nonneg
  have hone := h.fractionalTokens_lt
  have hunit : unitRoundoff = 1 / 2 ^ 53 := rfl
  unfold floatAccrued slack
  rw [hspan]
  generalize seconds now - seconds b.refillAt = elapsed at *
  have hrounded := binary64_rounds.nonneg helapsed
  have hproduct := mul_nonneg hrounded hrate
  have hgain := binary64_rounds.nonneg hproduct
  have hsum := add_nonneg hfraction hgain
  have htime := binary64_rounds.le_mul helapsed
  have htime' := binary64_rounds.mul_le helapsed
  have hshare := binary64_rounds.le_mul hproduct
  have hshare' := binary64_rounds.mul_le hproduct
  have htotal := binary64_rounds.le_mul hsum
  have htotal' := binary64_rounds.mul_le hsum
  have htimes := mul_le_mul_of_nonneg_right htime hrate
  have htimes' := mul_le_mul_of_nonneg_right htime' hrate
  have haccrue : 0 ≤ elapsed * b.refillRate := mul_nonneg helapsed hrate
  rw [hunit] at *
  rw [abs_le]
  constructor <;> push_cast <;> linarith

theorem Sound.floatAccrued_nonneg (h : b.Sound) (hrate : 0 ≤ b.refillRate)
    (hnow : b.refillAt ≤ now) : 0 ≤ b.floatAccrued now := by
  have helapsed : 0 ≤ ((now : ℚ) - b.refillAt) / 1000000 := by
    have hnow' : (b.refillAt : ℚ) ≤ now := by exact_mod_cast hnow
    exact div_nonneg (sub_nonneg.mpr hnow') (by norm_num)
  have hproduct := mul_nonneg (binary64_rounds.nonneg helapsed) hrate
  exact binary64_rounds.nonneg
    (add_nonneg h.fractionalTokens_nonneg (binary64_rounds.nonneg hproduct))

@[simp] theorem floatRefill_capacity (b : OperationBucket) (now : Time) :
    (b.floatRefill now).capacity = b.capacity := by
  unfold floatRefill
  dsimp only
  split <;> rfl

@[simp] theorem floatRefill_refillRate (b : OperationBucket) (now : Time) :
    (b.floatRefill now).refillRate = b.refillRate := by
  unfold floatRefill
  dsimp only
  split <;> rfl

/-- What there is to know of a refill: `b'` is `b` some time later. -/
structure Refilled (b b' : OperationBucket) (now : Time) : Prop where
  ready : b'.Ready
  capacity_eq : b'.capacity = b.capacity
  refillRate_eq : b'.refillRate = b.refillRate
  refillAt_eq : b'.refillAt = now
  credit_le : b'.credit ≤ b.credit + b.refillRate * (seconds now - seconds b.refillAt) +
    slack 1 (b.refillRate * (seconds now - seconds b.refillAt))
  le_credit : b'.remaining < b.capacity →
    b.credit + b.refillRate * (seconds now - seconds b.refillAt) ≤
      b'.credit + slack 1 (b.refillRate * (seconds now - seconds b.refillAt))

theorem Ready.floatRefill (h : b.Ready) (hnow : b.refillAt ≤ now) :
    Refilled b (b.floatRefill now) now := by
  have hsound := h.toSound
  have hrate := h.refillRate_nonneg
  have helapsed : 0 ≤ seconds now - seconds b.refillAt := sub_nonneg.mpr (seconds_mono hnow)
  have hslack := slack_nonneg 1 (mul_nonneg hrate helapsed)
  unfold OperationBucket.floatRefill
  dsimp only
  split
  next hpos =>
    have hnonneg := hsound.floatAccrued_nonneg hrate hnow
    obtain ⟨hlow, hhigh⟩ := abs_le.mp (hsound.floatAccrued_error hrate hnow)
    -- the fraction that is kept is exact
    have hexact : binary64 (b.floatAccrued now - ⌊b.floatAccrued now⌋) =
        b.floatAccrued now - ⌊b.floatAccrued now⌋ := by
      have hproduct := mul_nonneg hpos.le hrate
      exact binary64_fract
        (add_nonneg hsound.fractionalTokens_nonneg (binary64_rounds.nonneg hproduct))
    change Refilled b
      { b with
        fractionalTokens := binary64 (b.floatAccrued now -
          (b.floatAccrued now).num.tdiv (b.floatAccrued now).den)
        remaining := if (b.floatAccrued now).num.tdiv (b.floatAccrued now).den > 0 then
            min b.capacity (b.remaining + (b.floatAccrued now).num.tdiv (b.floatAccrued now).den)
          else b.remaining
        refillAt := now } now
    rw [tdiv_eq_floor hnonneg, hexact]
    generalize b.floatAccrued now = accrued at *
    have hfloor : 0 ≤ ⌊accrued⌋ := Int.floor_nonneg.mpr hnonneg
    have hcapacity := h.remaining_le
    have hremaining := h.remaining_nonneg
    have hkept : (if ⌊accrued⌋ > 0 then min b.capacity (b.remaining + ⌊accrued⌋)
        else b.remaining) = min b.capacity (b.remaining + ⌊accrued⌋) := by
      split <;> omega
    rw [hkept]
    constructor
    · exact {
        remaining_le := min_le_left _ _
        fractionalTokens_nonneg := sub_nonneg.mpr (Int.floor_le accrued)
        fractionalTokens_lt := by
          have hlt := Int.lt_floor_add_one accrued
          dsimp only
          linarith
        remaining_nonneg := by
          dsimp only
          omega
        refillRate_nonneg := hrate }
    · rfl
    · rfl
    · rfl
    · have hadded : min b.capacity (b.remaining + ⌊accrued⌋) ≤ b.remaining + ⌊accrued⌋ :=
        min_le_right _ _
      have hadded' : ((min b.capacity (b.remaining + ⌊accrued⌋) : Int) : ℚ) ≤
          b.remaining + ⌊accrued⌋ := by exact_mod_cast hadded
      simp only [credit]
      linarith
    · intro hbelow
      have hall : min b.capacity (b.remaining + ⌊accrued⌋) = b.remaining + ⌊accrued⌋ := by
        dsimp only at hbelow
        omega
      simp only [credit, hall]
      push_cast
      linarith
  next hzero =>
    -- no microsecond has passed: a positive time is not rounded to zero
    have hsame : now = b.refillAt := by
      have hspan := binary64_rounds.mul_le (x := ((now : ℚ) - b.refillAt) / 1000000) (by
        have hnow' : (b.refillAt : ℚ) ≤ now := by exact_mod_cast hnow
        exact div_nonneg (sub_nonneg.mpr hnow') (by norm_num))
      have hle : (now : ℚ) ≤ b.refillAt := by
        have hunit : (1 - unitRoundoff) * (((now : ℚ) - b.refillAt) / 1000000) ≤ 0 :=
          hspan.trans (not_lt.mp hzero)
        rw [show unitRoundoff = 1 / 2 ^ 53 from rfl] at hunit
        linarith
      exact le_antisymm (by exact_mod_cast hle) hnow
    subst hsame
    rw [sub_self, mul_zero] at hslack
    exact {
      ready := h
      capacity_eq := rfl
      refillRate_eq := rfl
      refillAt_eq := rfl
      credit_le := by rw [sub_self, mul_zero]; linarith
      le_credit := fun _ => by rw [sub_self, mul_zero]; linarith }

end OperationBucket

variable {b : OperationBucket} {now : Time} {poll : Poll} {rest schedule : Schedule}

/-- What one call grants comes out of the refilled bucket. -/
structure Served (b refilled b' : OperationBucket) (granted : Int) (now : Time) : Prop where
  ready : b'.Ready
  capacity_eq : b'.capacity = b.capacity
  refillRate_eq : b'.refillRate = b.refillRate
  refillAt_eq : b'.refillAt = now
  granted_nonneg : 0 ≤ granted
  credit_eq : granted + b'.credit = refilled.credit

namespace Schedule

theorem Valid.after (h : Valid ((now, poll) :: rest) b) {b' : OperationBucket}
    (hat : b'.refillAt = now) : Valid rest b' where
  clock := by
    rw [hat]
    exact h.clock.tail
  tokens := fun t k hmem => h.tokens t k (List.mem_cons_of_mem _ hmem)

/-- The calls after one that comes after `stop` do as well. -/
theorem Valid.late {stop : ℚ} (h : Valid ((now, poll) :: rest) b) (hnow : stop < seconds now) :
    ∀ call ∈ (now, poll) :: rest, stop < seconds call.1 := by
  intro call hmem
  rcases List.mem_cons.mp hmem with rfl | hmem
  · exact hnow
  · have hle := List.rel_of_pairwise_cons h.clock.tail (List.mem_map_of_mem hmem)
    exact hnow.trans_le (OperationBucket.seconds_mono hle)

end Schedule

end AgentTrading.Brokers
