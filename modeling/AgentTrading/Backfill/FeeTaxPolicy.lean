import Mathlib.Algebra.Order.Field.Rat
import Mathlib.Data.Rat.Floor
import AgentTrading.RealizedPnl.Engine

/-! `compute_fee_tax`: the fee and the tax of one fill under the policy that was active at its
time. A policy is read as parsed; reading a malformed one raises. -/
namespace AgentTrading.Backfill
open Domain RealizedPnl

structure FeeTaxPolicy where
  enabled : Bool
  supportedAssetClasses : List String
  supportedMarketSegments : List String
  buyCommissionRatePct : ℚ
  sellCommissionRatePct : ℚ
  sellTaxRatePct : ℚ
  sellAgriTaxRatePct : ℚ
  roundingMode : String
  roundingUnit : ℚ
  deriving DecidableEq

structure FeeTaxResult where
  fee : ℚ
  tax : ℚ
  feeTaxSource : FeeTaxSource
  deriving DecidableEq

/-- What the calculation knows of the account and the instrument. -/
structure FeeTaxTerms where
  policyAt : Time → Except PyError (Option FeeTaxPolicy)
  assetClass : String
  marketSegment : Option String

def isAssetSupported (policy : FeeTaxPolicy) (assetClass : String)
    (marketSegment : Option String) : Bool :=
  policy.supportedAssetClasses.contains assetClass &&
    marketSegment.any policy.supportedMarketSegments.contains

/-- The nearest integer, away from zero at equal distance. -/
def roundHalfUp (x : ℚ) : Int := if x < 0 then -(-x + 1 / 2).floor else (x + 1 / 2).floor

/-- The integer part. -/
def roundDown (x : ℚ) : Int := if x < 0 then -(-x).floor else x.floor

def applyRounding (policy : FeeTaxPolicy) (value : ℚ) : Except PyError ℚ :=
  let quantized (round : ℚ → Int) : Except PyError ℚ :=
    if policy.roundingUnit ≤ 0 then .error (.other "MalformedFeeTaxPolicyError")
    else .ok (round (value / policy.roundingUnit) * policy.roundingUnit)
  if policy.roundingMode = "round_half_up" then quantized roundHalfUp
  else if policy.roundingMode = "round_down" then quantized roundDown
  else .error (.other "UnsupportedRoundingModeError")

def computeAmount (policy : FeeTaxPolicy) (fillPrice fillQuantity ratePct : ℚ) :
    Except PyError ℚ :=
  applyRounding policy (fillPrice * fillQuantity * (ratePct / 100))

def chargesOf (policy : FeeTaxPolicy) (side : OrderSide) (fillPrice fillQuantity : ℚ) :
    Except PyError FeeTaxResult :=
  match side with
  | .buy => do
    let fee ← computeAmount policy fillPrice fillQuantity policy.buyCommissionRatePct
    return ⟨fee, 0, .calculatedFromPolicy⟩
  | .sell => do
    let fee ← computeAmount policy fillPrice fillQuantity policy.sellCommissionRatePct
    let tax ← computeAmount policy fillPrice fillQuantity
      (policy.sellTaxRatePct + policy.sellAgriTaxRatePct)
    return ⟨fee, tax, .calculatedFromPolicy⟩

def computeFeeTax (terms : FeeTaxTerms) (side : OrderSide) (fillPrice fillQuantity : ℚ)
    (fillTimestamp : Time) : Except PyError FeeTaxResult := do
  match ← terms.policyAt fillTimestamp with
  | none => return ⟨0, 0, .assumedZero⟩
  | some policy =>
    if ¬ isAssetSupported policy terms.assetClass terms.marketSegment then
      return ⟨0, 0, .policyNotApplicable⟩
    else if ¬ policy.enabled then return ⟨0, 0, .assumedZero⟩
    else chargesOf policy side fillPrice fillQuantity

/-- `_maybe_override_with_historical_policy_estimate`: a purchase without a policy of its time
is charged by the policy of today. -/
def historicalPolicyEstimate (terms : FeeTaxTerms) (side : OrderSide)
    (fillPrice fillQuantity : ℚ) (now : Time) (base : FeeTaxResult) : Except PyError FeeTaxResult :=
  if side ≠ .buy ∨ base.feeTaxSource ≠ .assumedZero then .ok base
  else do
    let estimate ← computeFeeTax terms side fillPrice fillQuantity now
    if estimate.feeTaxSource ≠ .calculatedFromPolicy then return base
    else return ⟨estimate.fee, 0, .historicalPolicyEstimate⟩

def FeeTaxResult.Honest (result : FeeTaxResult) : Prop :=
  result.feeTaxSource = .assumedZero → result.fee = 0 ∧ result.tax = 0

theorem chargesOf_honest {policy : FeeTaxPolicy} {side : OrderSide} {fillPrice fillQuantity : ℚ}
    {result : FeeTaxResult} (h : chargesOf policy side fillPrice fillQuantity = .ok result) :
    result.Honest := by
  intro hsource
  cases side with
  | buy =>
    obtain ⟨fee, -, h⟩ := Library.bind_eq_ok.mp h
    cases h
    cases hsource
  | sell =>
    obtain ⟨fee, -, h⟩ := Library.bind_eq_ok.mp h
    obtain ⟨tax, -, h⟩ := Library.bind_eq_ok.mp h
    cases h
    cases hsource

theorem computeFeeTax_honest {terms : FeeTaxTerms} {side : OrderSide}
    {fillPrice fillQuantity : ℚ} {fillTimestamp : Time} {result : FeeTaxResult}
    (h : computeFeeTax terms side fillPrice fillQuantity fillTimestamp = .ok result) :
    result.Honest := by
  unfold computeFeeTax at h
  obtain ⟨policy, -, h⟩ := Library.bind_eq_ok.mp h
  cases policy with
  | none =>
    cases h
    exact fun _ => ⟨rfl, rfl⟩
  | some policy =>
    simp only at h
    split at h
    · cases h
      exact fun _ => ⟨rfl, rfl⟩
    · split at h
      · cases h
        exact fun _ => ⟨rfl, rfl⟩
      · exact chargesOf_honest h

theorem historicalPolicyEstimate_honest {terms : FeeTaxTerms} {side : OrderSide}
    {fillPrice fillQuantity : ℚ} {now : Time} {base result : FeeTaxResult} (hbase : base.Honest)
    (h : historicalPolicyEstimate terms side fillPrice fillQuantity now base = .ok result) :
    result.Honest := by
  unfold historicalPolicyEstimate at h
  split at h
  · cases h
    exact hbase
  · obtain ⟨estimate, -, h⟩ := Library.bind_eq_ok.mp h
    split at h
    · cases h
      exact hbase
    · cases h
      exact fun hsource => nomatch hsource

end AgentTrading.Backfill
