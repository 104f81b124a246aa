import AgentTrading.Library.Caps
import AgentTrading.Sizing.Engine

/-! What the steps do to a quantity: every limit is a cap on it, and the result is the least
cap in whole lots, unless a rule turns the order down. -/
namespace AgentTrading.Sizing
open Domain RealizedPnl Library.Rounding Library.Caps

theorem configured_eq_some {x : Option ℚ} {a : ℚ} : configured x = some a ↔ x = some a ∧ 0 < a := by
  simp [configured, Option.filter_eq_some_iff]

theorem configured_pos {x : Option ℚ} {a : ℚ} (h : configured x = some a) : 0 < a :=
  (configured_eq_some.mp h).2

/-- The price a purchase is measured at. -/
def SizingInputs.price (inputs : SizingInputs) : Option ℚ :=
  configured (effectivePrice inputs.requestedPrice inputs.referencePrice)

/-- The cash a purchase is measured against. -/
def SizingInputs.cash (inputs : SizingInputs) : Option ℚ :=
  inputs.orderableAmount <|> inputs.availableCash

def SizingInputs.volumePct (inputs : SizingInputs) : ℚ :=
  inputs.maxIntradayVolumeParticipationPct.getD defaultMaxIntradayVolumeParticipationPct

def SizingInputs.turnoverPct (inputs : SizingInputs) : ℚ :=
  inputs.maxIntradayTurnoverParticipationPct.getD defaultMaxIntradayTurnoverParticipationPct

def SizingInputs.averageVolumePct (inputs : SizingInputs) : ℚ :=
  inputs.maxAverageDailyVolumeParticipationPct.getD defaultMaxAvgDailyVolumeParticipationPct

section Caps

variable (n : Numerics) (inputs : SizingInputs)

/-- What the buffer leaves. -/
def bufferedCash (cash : ℚ) : ℚ :=
  match configured inputs.minCashBufferPct with
  | some pct => n.mul cash (n.sub 1 (n.div pct 100))
  | none => cash

def cashCap : Option ℚ :=
  match inputs.price, inputs.cash with
  | some price, some cash =>
    if inputs.orderableAmount.isSome ∧ cash ≤ 0 then some 0
    else some (toIntegralValue (n.div (spendableCash n inputs.requestedPrice
      inputs.referencePrice inputs.minCashBufferPct cash) price))
  | _, _ => none

def concentrationCap : Option ℚ :=
  match configured inputs.nav, configured inputs.maxSinglePositionPct, inputs.price with
  | some nav, some pct, some price =>
    let remaining :=
      remainingCapacity n nav pct inputs.currentPositionQty inputs.currentPositionAvgPrice
    if remaining ≤ 0 then some 0 else some (toIntegralValue (n.div remaining price))
  | _, _, _ => none

def participations : List (ℚ × String) :=
  participationCaps n inputs.requestedPrice inputs.referencePrice
    inputs.accumulatedIntradayVolume inputs.accumulatedIntradayTurnover
    inputs.averageDailyVolume20d inputs.maxIntradayVolumeParticipationPct
    inputs.maxIntradayTurnoverParticipationPct inputs.maxAverageDailyVolumeParticipationPct

/-- The caps of the steps after the bounds, in their order. -/
def earlierCaps : List ℚ := if inputs.side = .buy then (cashCap n inputs).toList else []

def laterCaps : List ℚ :=
  earlierCaps n inputs ++ (concentrationCap n inputs).toList ++
    if inputs.side = .buy then (participations n inputs).map Prod.fst else []

/-- A quantity not worth opening a position with. -/
def BelowMinEntry (qty : ℚ) : Prop :=
  match concentrationCap n inputs, inputs.price with
  | some cap, some price =>
    inputs.currentPositionQty = none ∧ 0 < cap ∧ n.mul qty price < minEntryValueForNewPosition
  | _, _ => False

/-- The base quantity under the value limit. -/
def valuedQuantity : ℚ :=
  (applyMaxOrderValue n (resolveBaseQuantity n inputs) inputs.requestedPrice
    inputs.maxOrderValue [] inputs.referencePrice).1

/-- And within the quantity bounds. -/
def boundedQuantity : ℚ :=
  (applyQtyBounds (valuedQuantity n inputs) inputs.maxOrderQty inputs.minOrderQty []).1

end Caps

/-! The steps, on the positive part of the quantity. -/

section Steps

variable {n : Numerics} {ε : ℚ}

theorem spendableCash_eq (inputs : SizingInputs) (cash : ℚ) :
    spendableCash n inputs.requestedPrice inputs.referencePrice inputs.minCashBufferPct cash =
      if inputs.requestedPrice = none ∧ (configured inputs.referencePrice).isSome then
        toIntegralValue (n.mul (bufferedCash n inputs cash) (95 / 100))
      else bufferedCash n inputs cash := rfl

theorem applyQtyBounds_fst (qty : ℚ) (maxOrderQty minOrderQty : Option ℚ)
    (constraints : List String) :
    (applyQtyBounds qty maxOrderQty minOrderQty constraints).1 =
      (applyQtyBounds qty maxOrderQty minOrderQty []).1 := by
  unfold applyQtyBounds
  cases configured maxOrderQty <;> cases configured minOrderQty <;> dsimp only <;> split_ifs <;> rfl

theorem applyQtyBounds_capped (qty : ℚ) (maxOrderQty minOrderQty : Option ℚ) :
    (applyQtyBounds qty maxOrderQty minOrderQty []).1 =
      match configured minOrderQty with
      | some minimum =>
        if capped (configured maxOrderQty).toList qty < minimum then 0
        else capped (configured maxOrderQty).toList qty
      | none => capped (configured maxOrderQty).toList qty := by
  unfold applyQtyBounds
  cases configured maxOrderQty with
  | none =>
    cases configured minOrderQty with
    | none => rfl
    | some minimum => exact apply_ite Prod.fst _ _ _
  | some limit =>
    rw [Option.toList_some, capped_cons, capped_nil]
    dsimp only
    by_cases hlimit : limit < qty
    · rw [if_pos hlimit, min_eq_left hlimit.le]
      cases configured minOrderQty with
      | none => rfl
      | some minimum => exact apply_ite Prod.fst _ _ _
    · rw [if_neg hlimit, min_eq_right (not_lt.mp hlimit)]
      cases configured minOrderQty with
      | none => rfl
      | some minimum => exact apply_ite Prod.fst _ _ _

theorem boundedQuantity_of_pos {inputs : SizingInputs} (h : 0 < boundedQuantity n inputs) :
    boundedQuantity n inputs =
      capped (configured inputs.maxOrderQty).toList (valuedQuantity n inputs) := by
  unfold boundedQuantity at h ⊢
  rw [applyQtyBounds_capped] at h ⊢
  split at h
  next minimum hmin =>
    split at h
    next => exact absurd h (lt_irrefl 0)
    next hless => exact if_neg hless
  next => rfl

theorem applyCashConstraint_capped (inputs : SizingInputs) {qty : ℚ} (hqty : 0 < qty)
    (constraints : List String) :
    (applyCashConstraint n qty inputs.requestedPrice inputs.availableCash
      inputs.minCashBufferPct constraints inputs.orderableAmount inputs.referencePrice).1 =
      capped (cashCap n inputs).toList qty := by
  unfold applyCashConstraint cashCap SizingInputs.price SizingInputs.cash
  cases configured (effectivePrice inputs.requestedPrice inputs.referencePrice) with
  | none => rfl
  | some price =>
    cases inputs.orderableAmount <|> inputs.availableCash with
    | none => rfl
    | some cash =>
      dsimp only
      split
      · exact (min_eq_left hqty.le).symm
      · split
        next h => exact (min_eq_left h.le).symm
        next h => exact (min_eq_right (not_lt.mp h)).symm

/-- The concentration step under the names of the inputs. -/
def concentrate (n : Numerics) (inputs : SizingInputs) (qty : ℚ) (constraints : List String) :
    ℚ × List String :=
  applyConcentrationConstraint n qty inputs.requestedPrice inputs.currentPositionQty
    inputs.currentPositionAvgPrice inputs.nav inputs.maxSinglePositionPct constraints
    inputs.referencePrice

theorem concentrate_cases (inputs : SizingInputs) (qty : ℚ) (constraints : List String) :
    BelowMinEntry n inputs qty ∧ (concentrate n inputs qty constraints).1 = 0 ∨
      ¬BelowMinEntry n inputs qty ∧ max 0 (concentrate n inputs qty constraints).1 =
        max 0 (capped (concentrationCap n inputs).toList qty) := by
  unfold BelowMinEntry concentrate applyConcentrationConstraint concentrationCap
  unfold SizingInputs.price
  cases configured inputs.nav with
  | none => exact .inr ⟨not_false, rfl⟩
  | some nav =>
    cases configured inputs.maxSinglePositionPct with
    | none => exact .inr ⟨not_false, rfl⟩
    | some pct =>
      cases configured (effectivePrice inputs.requestedPrice inputs.referencePrice) with
      | none => exact .inr ⟨not_false, rfl⟩
      | some price =>
        by_cases hroom : remainingCapacity n nav pct inputs.currentPositionQty
            inputs.currentPositionAvgPrice ≤ 0
        · simp [hroom]
        · simp only [if_neg hroom]
          split
          next hbelow => exact .inl ⟨hbelow, rfl⟩
          next hbelow =>
            refine .inr ⟨hbelow, ?_⟩
            rw [Option.toList_some, capped_cons, capped_nil]
            split
            next hless => rw [min_eq_left hless.le]
            next hless => rw [min_eq_right (not_lt.mp hless)]

theorem capped_eq_min {caps : List ℚ} {least : ℚ} (h : caps.min? = some least) (qty : ℚ) :
    capped caps qty = min least qty := by
  obtain ⟨hmem, hleast⟩ := List.min?_eq_some_iff.mp h
  apply le_antisymm
  · exact le_min (capped_le_of_mem hmem qty) (capped_le caps qty)
  · rw [le_capped_iff]
    constructor
    · exact min_le_right _ _
    · intro cap hcap
      exact (min_le_left _ _).trans (hleast cap hcap)

theorem applyLiquidityParticipationConstraint_capped (caps : List (ℚ × String)) (qty : ℚ)
    (constraints : List String) :
    max 0 (applyLiquidityParticipationConstraint qty constraints caps).1 =
      max 0 (capped (caps.map Prod.fst) qty) := by
  unfold applyLiquidityParticipationConstraint
  cases h : (caps.map Prod.fst).min? with
  | none =>
    rw [List.min?_eq_none_iff] at h
    rw [h, capped_nil]
  | some least =>
    rw [capped_eq_min h]
    dsimp only
    split
    next hless => rw [min_eq_left hless.le, max_eq_right (le_max_left 0 least)]
    next hless => rw [min_eq_right (not_lt.mp hless)]

theorem max_zero_capped_congr (caps : List ℚ) {qty qty' : ℚ} (h : max 0 qty = max 0 qty') :
    max 0 (capped caps qty) = max 0 (capped caps qty') := by
  rw [max_zero_capped, max_zero_capped, h]

theorem applyLaterConstraints_cases (inputs : SizingInputs) {qty : ℚ} (hqty : 0 < qty)
    (constraints : List String) :
    BelowMinEntry n inputs (capped (earlierCaps n inputs) qty) ∧
        max 0 (applyLaterConstraints n inputs qty constraints).1 = 0 ∨
      ¬BelowMinEntry n inputs (capped (earlierCaps n inputs) qty) ∧
        max 0 (applyLaterConstraints n inputs qty constraints).1 =
          max 0 (capped (laterCaps n inputs) qty) := by
  unfold applyLaterConstraints laterCaps earlierCaps
  by_cases hside : inputs.side = .buy
  · simp only [if_pos hside]
    have hcash := applyCashConstraint_capped (n := n) inputs hqty constraints
    generalize applyCashConstraint n qty inputs.requestedPrice inputs.availableCash
      inputs.minCashBufferPct constraints inputs.orderableAmount inputs.referencePrice = afterCash
      at hcash
    have hconcentrate := concentrate_cases (n := n) inputs afterCash.1 afterCash.2
    unfold concentrate at hconcentrate
    rw [hcash] at hconcentrate ⊢
    rw [applyLiquidityParticipationConstraint_capped]
    rcases hconcentrate with ⟨hbelow, hzero⟩ | ⟨hbelow, hcapped⟩
    · refine .inl ⟨hbelow, ?_⟩
      rw [hzero]
      exact max_eq_left (capped_le _ _)
    · refine .inr ⟨hbelow, ?_⟩
      rw [max_zero_capped_congr _ hcapped, capped_append_comm, capped_append_comm,
        ← List.append_assoc]
      rfl
  · simp only [if_neg hside]
    have hconcentrate := concentrate_cases (n := n) inputs qty constraints
    unfold concentrate at hconcentrate
    rcases hconcentrate with ⟨hbelow, hzero⟩ | ⟨hbelow, hcapped⟩
    · exact .inl ⟨hbelow, by rw [hzero, max_self]⟩
    · exact .inr ⟨hbelow, by simpa using hcapped⟩

theorem applyLotSize_mono (hn : Rounds n.round ε) (lotSize : Option ℚ) :
    Monotone fun qty => applyLotSize n qty lotSize := by
  intro qty qty' h
  unfold applyLotSize Numerics.mul Numerics.div toIntegralValue
  cases hlot : configured lotSize with
  | none => exact h
  | some lot =>
    have hpos := configured_pos hlot
    dsimp only
    apply hn.mono
    apply mul_le_mul_of_nonneg_right _ hpos.le
    apply truncate_mono
    apply hn.mono
    gcongr

theorem applyLotSize_zero (hn : Rounds n.round ε) (lotSize : Option ℚ) :
    applyLotSize n 0 lotSize = 0 := by
  have htruncate : truncate (0 : ℚ) = 0 := by simpa using truncate_intCast (K := ℚ) 0
  unfold applyLotSize Numerics.mul Numerics.div toIntegralValue
  cases configured lotSize with
  | none => rfl
  | some lot => simp [hn.zero, htruncate]

/-- A quantity in whole lots, none when it is not positive. -/
def wholeLots (n : Numerics) (inputs : SizingInputs) (qty : ℚ) : ℚ :=
  max 0 (applyLotSize n qty inputs.lotSize)

theorem wholeLots_mono (hn : Rounds n.round ε) (inputs : SizingInputs) :
    Monotone (wholeLots n inputs) := by
  intro qty qty' h
  exact max_le_max le_rfl (applyLotSize_mono hn inputs.lotSize h)

theorem wholeLots_max_zero (hn : Rounds n.round ε) (inputs : SizingInputs) (qty : ℚ) :
    wholeLots n inputs (max 0 qty) = wholeLots n inputs qty := by
  unfold wholeLots
  rw [(applyLotSize_mono hn inputs.lotSize).map_max, applyLotSize_zero hn, ← max_assoc, max_self]

theorem wholeLots_nonneg (inputs : SizingInputs) (qty : ℚ) : 0 ≤ wholeLots n inputs qty :=
  le_max_left _ _

theorem wholeLots_nonpos (hn : Rounds n.round ε) (inputs : SizingInputs) {qty : ℚ}
    (h : qty ≤ 0) : wholeLots n inputs qty = 0 := by
  rw [← wholeLots_max_zero hn, max_eq_left h]
  unfold wholeLots
  rw [applyLotSize_zero hn, max_self]

/-- The order is turned down before the lots. -/
def Rejected (n : Numerics) (inputs : SizingInputs) : Prop :=
  resolveBaseQuantity n inputs ≤ 0 ∨ boundedQuantity n inputs ≤ 0 ∨
    BelowMinEntry n inputs (capped (earlierCaps n inputs) (boundedQuantity n inputs))

theorem calculateSizing_early {inputs : SizingInputs}
    (h : resolveBaseQuantity n inputs ≤ 0 ∨ boundedQuantity n inputs ≤ 0) :
    (calculateSizing n inputs).quantity = 0 := by
  unfold calculateSizing
  by_cases hbase : resolveBaseQuantity n inputs ≤ 0
  · simp only [if_pos hbase]
  · have hbounded := h.resolve_left hbase
    unfold boundedQuantity valuedQuantity at hbounded
    rw [← applyQtyBounds_fst _ _ _ (applyMaxOrderValue n (resolveBaseQuantity n inputs)
      inputs.requestedPrice inputs.maxOrderValue [] inputs.referencePrice).2] at hbounded
    simp only [if_neg hbase, if_pos hbounded]

theorem calculateSizing_late {inputs : SizingInputs} (hbase : 0 < resolveBaseQuantity n inputs)
    (hbounded : 0 < boundedQuantity n inputs) : ∃ constraints,
    (calculateSizing n inputs).quantity =
      wholeLots n inputs
        (applyLaterConstraints n inputs (boundedQuantity n inputs) constraints).1 := by
  unfold calculateSizing
  simp only [if_neg (not_le.mpr hbase)]
  generalize hvalue : applyMaxOrderValue n (resolveBaseQuantity n inputs) inputs.requestedPrice
    inputs.maxOrderValue [] inputs.referencePrice = afterValue
  have hfst : (applyQtyBounds afterValue.1 inputs.maxOrderQty inputs.minOrderQty
      afterValue.2).1 = boundedQuantity n inputs := by
    rw [applyQtyBounds_fst, ← hvalue]
    rfl
  simp only [hfst, if_neg (not_le.mpr hbounded)]
  refine ⟨(applyQtyBounds afterValue.1 inputs.maxOrderQty inputs.minOrderQty afterValue.2).2, ?_⟩
  unfold wholeLots
  split
  next hnone => exact (max_eq_left hnone).symm
  next hsome => exact (max_eq_right (not_le.mp hsome).le).symm

theorem calculateSizing_nonneg (n : Numerics) (inputs : SizingInputs) :
    0 ≤ (calculateSizing n inputs).quantity := by
  by_cases hearly : resolveBaseQuantity n inputs ≤ 0 ∨ boundedQuantity n inputs ≤ 0
  · rw [calculateSizing_early hearly]
  · rw [not_or, not_le, not_le] at hearly
    obtain ⟨constraints, hquantity⟩ := calculateSizing_late hearly.1 hearly.2
    rw [hquantity]
    exact wholeLots_nonneg _ _

theorem calculateSizing_rejected (hn : Rounds n.round ε) {inputs : SizingInputs}
    (h : Rejected n inputs) : (calculateSizing n inputs).quantity = 0 := by
  by_cases hearly : resolveBaseQuantity n inputs ≤ 0 ∨ boundedQuantity n inputs ≤ 0
  · exact calculateSizing_early hearly
  · have hbelow := (or_assoc.mpr h).resolve_left hearly
    rw [not_or, not_le, not_le] at hearly
    obtain ⟨constraints, hquantity⟩ := calculateSizing_late hearly.1 hearly.2
    rw [hquantity, ← wholeLots_max_zero hn]
    rcases applyLaterConstraints_cases inputs hearly.2 constraints with ⟨-, hzero⟩ | ⟨habove, -⟩
    · rw [hzero]
      exact wholeLots_nonpos hn inputs le_rfl
    · exact absurd hbelow habove

theorem calculateSizing_capped (hn : Rounds n.round ε) {inputs : SizingInputs}
    (h : ¬Rejected n inputs) :
    (calculateSizing n inputs).quantity =
      wholeLots n inputs (capped (laterCaps n inputs) (boundedQuantity n inputs)) := by
  unfold Rejected at h
  rw [not_or, not_or, not_le, not_le] at h
  obtain ⟨constraints, hquantity⟩ := calculateSizing_late h.1 h.2.1
  rw [hquantity, ← wholeLots_max_zero hn]
  rcases applyLaterConstraints_cases inputs h.2.1 constraints with ⟨hbelow, -⟩ | ⟨-, hcapped⟩
  · exact absurd hbelow h.2.2
  · rw [hcapped, wholeLots_max_zero hn]

end Steps

end AgentTrading.Sizing
