import AgentTrading.Sizing.Limits
import AgentTrading.Sizing.Looser
import AgentTrading.Sizing.Minimum

/-! The sale of a position. The concentration step is taken for a sale as for a purchase, so that
the limits on holding a position reach its closing. -/
namespace AgentTrading.Sizing
open Domain RealizedPnl Library.Rounding Library.Caps

/-- The decisions that sell the whole position. -/
def exitDecisionTypes : List String := ["EXIT", "SELL", "APPROVE"]

/-- The inputs without the limits on exposure. -/
def SizingInputs.withoutExposureLimits (inputs : SizingInputs) : SizingInputs :=
  { inputs with
    nav := none
    maxSinglePositionPct := none
    availableCash := none
    orderableAmount := none }

section Closing

variable (n : Numerics) (inputs : SizingInputs)

/-- The sale is turned down, or one of its limits in whole lots is within the position. -/
def SoldWithin (position : ℚ) : Prop :=
  Rejected n inputs ∨ ∃ limit ∈ limits n inputs, wholeLots n inputs limit ≤ position

/-- The order is below the minimum, or the concentration limit has room for as much as the other
limits leave of the position. -/
def ClosingFree : Prop :=
  boundedQuantity n inputs ≤ 0 ∨
    ∀ room ∈ concentrationCap n inputs, ∃ limit ∈ checkedLimits n inputs, limit ≤ room

/-- The end of the calculation: the lots and the report. -/
def finish (step : ℚ × List String) : SizingResult :=
  let qty := applyLotSize n step.1 inputs.lotSize
  if qty ≤ 0 then
    { quantity := 0, appliedConstraints := step.2, skipReason := some "zero_after_constraints" }
  else
    { quantity := qty
      maxOrderValue :=
        (configured (inputs.requestedPrice <|> inputs.referencePrice)).map (n.mul · qty)
      appliedConstraints := step.2 }

/-- The bounds, with their labels. -/
def boundedStep : ℚ × List String :=
  let step := applyMaxOrderValue n (resolveBaseQuantity n inputs) inputs.requestedPrice
    inputs.maxOrderValue [] inputs.referencePrice
  applyQtyBounds step.1 inputs.maxOrderQty inputs.minOrderQty step.2

end Closing

variable {n : Numerics} {ε : ℚ} {inputs : SizingInputs}

@[simp] theorem finish_appliedConstraints (step : ℚ × List String) :
    (finish n inputs step).appliedConstraints = step.2 := by
  unfold finish
  dsimp only
  split
  next => rfl
  next => rfl

theorem boundedStep_fst (n : Numerics) (inputs : SizingInputs) :
    (boundedStep n inputs).1 = boundedQuantity n inputs := by
  unfold boundedStep boundedQuantity valuedQuantity
  rw [applyQtyBounds_fst]

theorem calculateSizing_sell (hside : inputs.side = .sell)
    (hbase : 0 < resolveBaseQuantity n inputs) :
    calculateSizing n inputs =
      if boundedQuantity n inputs ≤ 0 then
        { quantity := 0
          appliedConstraints := (boundedStep n inputs).2
          skipReason := some "below_min_qty" }
      else finish n inputs
        (concentrate n inputs (boundedQuantity n inputs) (boundedStep n inputs).2) := by
  have hbuy : ¬inputs.side = .buy := by simp [hside]
  unfold calculateSizing applyLaterConstraints
  simp only [if_neg (not_le.mpr hbase), if_neg hbuy]
  rw [← boundedStep_fst]
  rfl

theorem concentrate_known {qty : ℚ} (hqty : 0 < qty)
    (hposition : inputs.currentPositionQty ≠ none) (constraints : List String) :
    (∀ room ∈ concentrationCap n inputs, qty ≤ room) ∧
        concentrate n inputs qty constraints = (qty, constraints) ∨
      (∃ room ∈ concentrationCap n inputs, room < qty) ∧
        (concentrate n inputs qty constraints).2 =
          constraints ++ ["position_concentration"] := by
  unfold concentrate applyConcentrationConstraint concentrationCap SizingInputs.price
  cases configured inputs.nav with
  | none => exact .inl ⟨by simp, rfl⟩
  | some nav =>
    cases configured inputs.maxSinglePositionPct with
    | none => exact .inl ⟨by simp, rfl⟩
    | some pct =>
      cases configured (effectivePrice inputs.requestedPrice inputs.referencePrice) with
      | none => exact .inl ⟨by simp, rfl⟩
      | some price =>
        by_cases hroom : remainingCapacity n nav pct inputs.currentPositionQty
            inputs.currentPositionAvgPrice ≤ 0
        · simp [hroom, hqty]
        · simp only [if_neg hroom]
          rw [if_neg (fun hnew => hposition hnew.1)]
          split
          next hless => exact .inr ⟨⟨_, rfl, hless⟩, rfl⟩
          next hless =>
            refine .inl ⟨?_, rfl⟩
            simpa using hless

theorem resolveBaseQuantity_without (hside : inputs.side = .sell) :
    resolveBaseQuantity n inputs.withoutExposureLimits = resolveBaseQuantity n inputs := by
  have hbuy : ¬inputs.side = .buy := by simp [hside]
  unfold resolveBaseQuantity SizingInputs.withoutExposureLimits
  simp only [if_neg hbuy]
  rfl

theorem calculateSizing_without (hside : inputs.side = .sell)
    (hbase : 0 < resolveBaseQuantity n inputs) :
    calculateSizing n inputs.withoutExposureLimits =
      if boundedQuantity n inputs ≤ 0 then
        { quantity := 0
          appliedConstraints := (boundedStep n inputs).2
          skipReason := some "below_min_qty" }
      else finish n inputs (boundedQuantity n inputs, (boundedStep n inputs).2) := by
  have hsame := resolveBaseQuantity_without (n := n) hside
  have hstep : boundedStep n inputs.withoutExposureLimits = boundedStep n inputs := by
    unfold boundedStep
    rw [hsame]
    rfl
  have hbounded : boundedQuantity n inputs.withoutExposureLimits = boundedQuantity n inputs := by
    rw [← boundedStep_fst, hstep, boundedStep_fst]
  have hsell := @calculateSizing_sell n inputs.withoutExposureLimits hside (by rwa [hsame])
  rw [hsell, hstep, hbounded]
  rfl

theorem exits_position {position : ℚ} (hside : inputs.side = .sell)
    (hposition : configured inputs.currentPositionQty = some position)
    (hexit : inputs.decisionType ∈ exitDecisionTypes) :
    resolveBaseQuantity n inputs = position := by
  have hbuy : ¬inputs.side = .buy := by simp [hside]
  have hbase : baseQtyExit inputs = position := by
    unfold baseQtyExit
    rw [hposition]
  unfold resolveBaseQuantity
  rw [if_neg hbuy, hside, hbase]
  rcases List.mem_cons.mp hexit with htype | htype
  · simp [htype, skipDecisionTypes]
  · rcases List.mem_cons.mp htype with htype | htype
    · simp [htype, skipDecisionTypes]
    · rw [List.mem_singleton.mp htype]
      simp [skipDecisionTypes]

theorem bounded_le_room {room : ℚ} (hpos : 0 < boundedQuantity n inputs) :
    boundedQuantity n inputs ≤ room ↔ ∃ limit ∈ checkedLimits n inputs, limit ≤ room := by
  rw [boundedQuantity_of_pos hpos, capped_le_iff]
  unfold checkedLimits
  simp only [List.mem_append, List.mem_singleton]
  grind

theorem calculateSizing_eq_without {position : ℚ} (hside : inputs.side = .sell)
    (hposition : configured inputs.currentPositionQty = some position)
    (hexit : inputs.decisionType ∈ exitDecisionTypes) :
    calculateSizing n inputs = calculateSizing n inputs.withoutExposureLimits ↔
      ClosingFree n inputs := by
  have hbase : 0 < resolveBaseQuantity n inputs := by
    rw [exits_position hside hposition hexit]
    exact configured_pos hposition
  have hknown : inputs.currentPositionQty ≠ none := by
    intro hnone
    simp [configured, hnone] at hposition
  rw [calculateSizing_sell hside hbase, calculateSizing_without hside hbase]
  unfold ClosingFree
  by_cases hbounded : boundedQuantity n inputs ≤ 0
  · simp [hbounded]
  · have hpos := not_le.mp hbounded
    rw [if_neg hbounded, if_neg hbounded, or_iff_right hbounded]
    simp only [← bounded_le_room hpos]
    rcases concentrate_known hpos hknown (boundedStep n inputs).2 with
      ⟨hroom, hstep⟩ | ⟨⟨room, hmem, hless⟩, hlabel⟩
    · rw [hstep]
      exact iff_of_true rfl hroom
    · apply iff_of_false
      · intro hsame
        have hconstraints := congrArg SizingResult.appliedConstraints hsame
        simp [hlabel] at hconstraints
      · intro hroom
        exact absurd (hroom room hmem) (not_le.mpr hless)

theorem calculateSizing_soldWithin (hn : Rounds n.round ε) {position : ℚ} (hpos : 0 ≤ position) :
    (calculateSizing n inputs).quantity ≤ position ↔ SoldWithin n inputs position := by
  unfold SoldWithin
  by_cases hrejected : Rejected n inputs
  · rw [calculateSizing_rejected hn hrejected]
    exact iff_of_true hpos (.inl hrejected)
  · have hbounded : 0 < boundedQuantity n inputs := by
      by_contra hnone
      exact hrejected (.inr (.inl (not_lt.mp hnone)))
    rw [or_iff_right hrejected, calculateSizing_capped hn hrejected,
      boundedQuantity_of_pos hbounded, ← capped_append]
    exact wholeLots_le_iff hn position

theorem resolveBaseQuantity_le {position : ℚ} (hside : inputs.side = .sell)
    (hposition : configured inputs.currentPositionQty = some position)
    (htype : inputs.decisionType = "REDUCE" ∨ inputs.decisionType ∈ exitDecisionTypes) :
    resolveBaseQuantity n inputs ≤ position := by
  rcases htype with htype | htype
  · unfold resolveBaseQuantity baseQtyReduce
    rw [hposition, hside, htype]
    simp [skipDecisionTypes]
  · exact (exits_position hside hposition htype).le

/-- Without rounding they never sell more than the position. -/
theorem soldWithin_exact (column : ℚ → ℚ) {position : ℚ} (hside : inputs.side = .sell)
    (hposition : configured inputs.currentPositionQty = some position)
    (htype : inputs.decisionType = "REDUCE" ∨ inputs.decisionType ∈ exitDecisionTypes) :
    SoldWithin ⟨id, column⟩ inputs position := by
  have hbase := resolveBaseQuantity_le (n := ⟨id, column⟩) hside hposition htype
  by_cases hnone : resolveBaseQuantity ⟨id, column⟩ inputs ≤ 0
  · exact .inl (.inl hnone)
  · refine .inr ⟨valuedQuantity ⟨id, column⟩ inputs, by simp [limits, checkedLimits], ?_⟩
    have hvalued :
        valuedQuantity ⟨id, column⟩ inputs ≤ resolveBaseQuantity ⟨id, column⟩ inputs := by
      rw [valuedQuantity_eq]
      unfold underValueLimit
      split
      next limit price hlimit hprice =>
        split
        next hover =>
          exact truncate_le_of_lt_value Rounds.id (configured_pos hprice) rfl rfl
            (configured_pos hlimit).le hover
        next => exact le_rfl
      next => exact le_rfl
    apply (wholeLots_mono Rounds.id inputs hvalued).trans
    apply max_le (configured_pos hposition).le
    apply le_trans _ hbase
    simpa using applyLotSize_le (n := ⟨id, column⟩) Rounds.id (not_le.mp hnone).le inputs.lotSize

/-- Under the decimal context. -/
theorem calculateSizing_closing_iff (inputs : SizingInputs) (position : ℚ)
    (hside : inputs.side = .sell)
    (hposition : configured inputs.currentPositionQty = some position) :
    ((calculateSizing inMemory inputs).quantity ≤ position ∧
        (inputs.decisionType ∈ exitDecisionTypes →
          calculateSizing inMemory inputs =
            calculateSizing inMemory inputs.withoutExposureLimits)) ↔
      SoldWithin inMemory inputs position ∧
        (inputs.decisionType ∈ exitDecisionTypes → ClosingFree inMemory inputs) := by
  have hwithin : (calculateSizing inMemory inputs).quantity ≤ position ↔
      SoldWithin inMemory inputs position :=
    calculateSizing_soldWithin decimalContext_rounds (configured_pos hposition).le
  rw [hwithin]
  apply and_congr_right
  intro _
  apply imp_congr_right
  intro hexit
  exact calculateSizing_eq_without hside hposition hexit

/-- The exit from a position of more than its share of the net assets. -/
def oversizedExit : SizingInputs where
  decisionType := "EXIT"
  side := .sell
  requestedQuantity := 120
  requestedPrice := some 100000
  currentPositionQty := some 120
  currentPositionAvgPrice := some 100000
  nav := some 100000000
  maxSinglePositionPct := some 10

theorem calculateSizing_closing_iff_oversizedExit :
    ((calculateSizing inMemory oversizedExit).quantity ≤ 120 ∧
        (oversizedExit.decisionType ∈ exitDecisionTypes →
          calculateSizing inMemory oversizedExit =
            calculateSizing inMemory oversizedExit.withoutExposureLimits)) ↔
      SoldWithin inMemory oversizedExit 120 ∧
        (oversizedExit.decisionType ∈ exitDecisionTypes → ClosingFree inMemory oversizedExit) :=
  calculateSizing_closing_iff oversizedExit 120 rfl (by decide +kernel)

/-- The position is 12 percent of the net assets, and none of it is sold. -/
theorem oversizedExit_blocked :
    calculateSizing inMemory oversizedExit =
        { quantity := 0
          appliedConstraints := ["position_concentration"]
          skipReason := some "zero_after_constraints" } ∧
      (calculateSizing inMemory oversizedExit.withoutExposureLimits).quantity = 120 ∧
      ¬(oversizedExit.decisionType ∈ exitDecisionTypes →
        calculateSizing inMemory oversizedExit =
          calculateSizing inMemory oversizedExit.withoutExposureLimits) := by
  decide +kernel

end AgentTrading.Sizing
