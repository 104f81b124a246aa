import AgentTrading.Sizing.Steps

/-! The minimum order quantity. It is checked between the caps, so that a later cap can leave
less than it. -/
namespace AgentTrading.Sizing
open Domain RealizedPnl Library.Rounding Library.Caps

section Minimum

variable (n : Numerics) (inputs : SizingInputs)

/-- The limits the minimum is checked after. -/
def checkedLimits : List ℚ := (configured inputs.maxOrderQty).toList ++ [valuedQuantity n inputs]

/-- Every limit on the order. -/
def limits : List ℚ := laterCaps n inputs ++ checkedLimits n inputs

/-- The order is turned down before the lots: there is nothing to do, a limit checked before the
minimum is below it, or what the cash leaves is not worth opening a position. -/
def TurnedDown (minimum : ℚ) : Prop :=
  resolveBaseQuantity n inputs ≤ 0 ∨
    (∃ limit ∈ checkedLimits n inputs, limit < minimum) ∨
    BelowMinEntry n inputs
      (capped (earlierCaps n inputs ++ (configured inputs.maxOrderQty).toList)
        (valuedQuantity n inputs))

/-- The order is turned down, some limit leaves no lot of it, or every limit leaves the minimum. -/
def MinimumFits (minimum : ℚ) : Prop :=
  TurnedDown n inputs minimum ∨
    (∃ limit ∈ limits n inputs, wholeLots n inputs limit = 0) ∨
    ∀ limit ∈ limits n inputs, minimum ≤ wholeLots n inputs limit

end Minimum

variable {n : Numerics} {ε : ℚ} {inputs : SizingInputs}

theorem capped_checkedLimits_lt (minimum : ℚ) :
    capped (configured inputs.maxOrderQty).toList (valuedQuantity n inputs) < minimum ↔
      ∃ limit ∈ checkedLimits n inputs, limit < minimum := by
  rw [← not_le, le_capped_iff]
  unfold checkedLimits
  simp only [List.mem_append, List.mem_singleton]
  grind

section Checked

variable {minimum : ℚ} (hmin : configured inputs.minOrderQty = some minimum)

include hmin

theorem boundedQuantity_nonpos_iff :
    boundedQuantity n inputs ≤ 0 ↔ ∃ limit ∈ checkedLimits n inputs, limit < minimum := by
  have hpos := configured_pos hmin
  unfold boundedQuantity
  rw [applyQtyBounds_capped, hmin, ← capped_checkedLimits_lt]
  dsimp only
  split
  next h => exact iff_of_true le_rfl h
  next h => exact iff_of_false (by linarith) h

theorem boundedQuantity_eq (h : ¬∃ limit ∈ checkedLimits n inputs, limit < minimum) :
    boundedQuantity n inputs =
      capped (configured inputs.maxOrderQty).toList (valuedQuantity n inputs) := by
  rw [← capped_checkedLimits_lt] at h
  unfold boundedQuantity
  rw [applyQtyBounds_capped, hmin]
  exact if_neg h

theorem rejected_iff : Rejected n inputs ↔ TurnedDown n inputs minimum := by
  unfold Rejected TurnedDown
  rw [boundedQuantity_nonpos_iff hmin, capped_append]
  by_cases h : ∃ limit ∈ checkedLimits n inputs, limit < minimum
  · simp [h]
  · rw [boundedQuantity_eq hmin h]

end Checked

theorem capped_limits (hn : Rounds n.round ε) :
    wholeLots n inputs
        (capped (laterCaps n inputs ++ (configured inputs.maxOrderQty).toList)
          (valuedQuantity n inputs)) =
      capped ((laterCaps n inputs ++ (configured inputs.maxOrderQty).toList).map
        (wholeLots n inputs)) (wholeLots n inputs (valuedQuantity n inputs)) :=
  map_capped (wholeLots_mono hn inputs) _ _

theorem le_wholeLots_iff (hn : Rounds n.round ε) (x : ℚ) :
    x ≤ wholeLots n inputs
        (capped (laterCaps n inputs ++ (configured inputs.maxOrderQty).toList)
          (valuedQuantity n inputs)) ↔
      ∀ limit ∈ limits n inputs, x ≤ wholeLots n inputs limit := by
  rw [capped_limits hn, le_capped_iff]
  unfold limits checkedLimits
  simp only [List.mem_append, List.mem_map, List.mem_singleton]
  grind

theorem wholeLots_le_iff (hn : Rounds n.round ε) (x : ℚ) :
    wholeLots n inputs
        (capped (laterCaps n inputs ++ (configured inputs.maxOrderQty).toList)
          (valuedQuantity n inputs)) ≤ x ↔
      ∃ limit ∈ limits n inputs, wholeLots n inputs limit ≤ x := by
  rw [capped_limits hn, capped_le_iff]
  unfold limits checkedLimits
  simp only [List.mem_append, List.mem_map, List.mem_singleton]
  grind

theorem wholeLots_eq_zero_iff (hn : Rounds n.round ε) :
    wholeLots n inputs
        (capped (laterCaps n inputs ++ (configured inputs.maxOrderQty).toList)
          (valuedQuantity n inputs)) = 0 ↔
      ∃ limit ∈ limits n inputs, wholeLots n inputs limit = 0 := by
  have hzero : ∀ qty, wholeLots n inputs qty = 0 ↔ wholeLots n inputs qty ≤ 0 := by
    intro qty
    exact ⟨le_of_eq, fun h => le_antisymm h (wholeLots_nonneg inputs qty)⟩
  simp only [hzero]
  exact wholeLots_le_iff hn 0

theorem calculateSizing_minimum (hn : Rounds n.round ε) {minimum : ℚ}
    (hmin : configured inputs.minOrderQty = some minimum) :
    (calculateSizing n inputs).quantity = 0 ∨ minimum ≤ (calculateSizing n inputs).quantity ↔
      MinimumFits n inputs minimum := by
  unfold MinimumFits
  by_cases hrejected : Rejected n inputs
  · apply iff_of_true (.inl (calculateSizing_rejected hn hrejected))
    exact .inl ((rejected_iff hmin).mp hrejected)
  · rw [calculateSizing_capped hn hrejected, ← rejected_iff hmin, or_iff_right hrejected]
    have hchecked : ¬∃ limit ∈ checkedLimits n inputs, limit < minimum := by
      intro h
      exact hrejected ((rejected_iff hmin).mpr (.inr (.inl h)))
    rw [boundedQuantity_eq hmin hchecked, ← capped_append, wholeLots_eq_zero_iff hn,
      le_wholeLots_iff hn]

/-- Under the decimal context. -/
theorem calculateSizing_minimum_iff (inputs : SizingInputs) (minimum : ℚ)
    (hmin : configured inputs.minOrderQty = some minimum) :
    (calculateSizing inMemory inputs).quantity = 0 ∨
        minimum ≤ (calculateSizing inMemory inputs).quantity ↔
      MinimumFits inMemory inputs minimum :=
  calculateSizing_minimum decimalContext_rounds hmin

/-- A position of 95 shares that may grow to 100. -/
def nearlyFull : SizingInputs where
  decisionType := "BUY"
  side := .buy
  requestedQuantity := 100
  requestedPrice := some 1000
  currentPositionQty := some 95
  currentPositionAvgPrice := some 1000
  nav := some 1000000
  maxSinglePositionPct := some 10
  minOrderQty := some 10

theorem calculateSizing_minimum_iff_nearlyFull :
    (calculateSizing inMemory nearlyFull).quantity = 0 ∨
        10 ≤ (calculateSizing inMemory nearlyFull).quantity ↔
      MinimumFits inMemory nearlyFull 10 :=
  calculateSizing_minimum_iff nearlyFull 10 (by decide +kernel)

/-- The room left for the position is less than the minimum, and is what is ordered. -/
theorem nearlyFull_below_minimum :
    calculateSizing inMemory nearlyFull =
        { quantity := 5
          maxOrderValue := some 5000
          appliedConstraints := ["position_concentration"] } ∧
      ¬((calculateSizing inMemory nearlyFull).quantity = 0 ∨
        10 ≤ (calculateSizing inMemory nearlyFull).quantity) := by
  decide +kernel

end AgentTrading.Sizing
