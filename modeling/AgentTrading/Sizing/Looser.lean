import AgentTrading.Sizing.Steps

/-! Two runs of a purchase that differ in one limit: the looser one does not buy less. -/
namespace AgentTrading.Sizing
open Domain RealizedPnl Library.Rounding Library.Caps

inductive Limit where
  | availableCash
  | orderableAmount
  | minCashBufferPct
  | nav
  | maxSinglePositionPct
  | maxOrderValue
  | maxOrderQty
  | accumulatedIntradayVolume
  | accumulatedIntradayTurnover
  | averageDailyVolume20d
  | maxIntradayVolumeParticipationPct
  | maxIntradayTurnoverParticipationPct
  | maxAverageDailyVolumeParticipationPct
  deriving DecidableEq, Repr

/-- The inputs with another value of the limit. -/
def Limit.set (limit : Limit) (inputs : SizingInputs) (value : ℚ) : SizingInputs :=
  match limit with
  | availableCash => { inputs with availableCash := some value }
  | orderableAmount => { inputs with orderableAmount := some value }
  | minCashBufferPct => { inputs with minCashBufferPct := some value }
  | nav => { inputs with nav := some value }
  | maxSinglePositionPct => { inputs with maxSinglePositionPct := some value }
  | maxOrderValue => { inputs with maxOrderValue := some value }
  | maxOrderQty => { inputs with maxOrderQty := some value }
  | accumulatedIntradayVolume => { inputs with accumulatedIntradayVolume := some value }
  | accumulatedIntradayTurnover => { inputs with accumulatedIntradayTurnover := some value }
  | averageDailyVolume20d => { inputs with averageDailyVolume20d := some value }
  | maxIntradayVolumeParticipationPct =>
    { inputs with maxIntradayVolumeParticipationPct := some value }
  | maxIntradayTurnoverParticipationPct =>
    { inputs with maxIntradayTurnoverParticipationPct := some value }
  | maxAverageDailyVolumeParticipationPct =>
    { inputs with maxAverageDailyVolumeParticipationPct := some value }

/-- The smaller buffer is the more permissive one, of the other limits the larger. -/
def Limit.AtMost (limit : Limit) (tight loose : ℚ) : Prop :=
  match limit with
  | minCashBufferPct => loose ≤ tight
  | _ => tight ≤ loose

/-- The limits that decide on which side of the value limit the order is. -/
def Limit.MovesValue (limit : Limit) : Prop :=
  limit = availableCash ∨ limit = orderableAmount ∨ limit = maxOrderValue

/-- The base quantity and its value have no more digits than the context keeps. -/
def Unrounded (n : Numerics) (inputs : SizingInputs) : Prop :=
  n.round (resolveBaseQuantity n inputs) = resolveBaseQuantity n inputs ∧
    ∀ price ∈ inputs.price, n.round (price * resolveBaseQuantity n inputs) =
      price * resolveBaseQuantity n inputs

section Set

variable (limit : Limit) (inputs : SizingInputs) (value : ℚ)

@[simp] theorem set_side : (limit.set inputs value).side = inputs.side := by
  cases limit <;> rfl

@[simp] theorem set_price : (limit.set inputs value).price = inputs.price := by
  cases limit <;> rfl

@[simp] theorem set_currentPositionQty :
    (limit.set inputs value).currentPositionQty = inputs.currentPositionQty := by
  cases limit <;> rfl

@[simp] theorem set_lotSize : (limit.set inputs value).lotSize = inputs.lotSize := by
  cases limit <;> rfl

@[simp] theorem set_minOrderQty : (limit.set inputs value).minOrderQty = inputs.minOrderQty := by
  cases limit <;> rfl

@[simp] theorem set_decisionType :
    (limit.set inputs value).decisionType = inputs.decisionType := by
  cases limit <;> rfl

@[simp] theorem set_requestedPrice :
    (limit.set inputs value).requestedPrice = inputs.requestedPrice := by
  cases limit <;> rfl

@[simp] theorem set_referencePrice :
    (limit.set inputs value).referencePrice = inputs.referencePrice := by
  cases limit <;> rfl

end Set

variable {n : Numerics} {ε : ℚ}

/-- Every step of one run permits what the other run leaves. -/
structure Permits (n : Numerics) (tight loose : SizingInputs) : Prop where
  price : tight.price = loose.price
  position : tight.currentPositionQty = loose.currentPositionQty
  lotSize : tight.lotSize = loose.lotSize
  base : 0 < resolveBaseQuantity n tight → 0 < resolveBaseQuantity n loose
  bounded : 0 < resolveBaseQuantity n tight → boundedQuantity n tight ≤
    max 0 (boundedQuantity n loose)
  cash : List.Forall₂ (fun c c' => c ≤ max 0 c') (earlierCaps n tight) (earlierCaps n loose)
  concentration : List.Forall₂ (fun c c' => c ≤ max 0 c') (concentrationCap n tight).toList
    (concentrationCap n loose).toList
  later : List.Forall₂ (fun c c' => c ≤ max 0 c') (laterCaps n tight) (laterCaps n loose)

theorem mul_lt_of_le_max_zero (hn : Rounds n.round ε) {qty qty' price bound : ℚ}
    (hprice : 0 ≤ price) (hbound : 0 < bound) (hle : qty ≤ max 0 qty')
    (h : n.mul qty' price < bound) : n.mul qty price < bound := by
  have hmono : n.mul qty price ≤ n.mul (max 0 qty') price :=
    hn.mono (mul_le_mul_of_nonneg_right hle hprice)
  apply hmono.trans_lt
  rcases max_choice 0 qty' with hmax | hmax
  · rw [hmax]
    unfold Numerics.mul
    rwa [zero_mul, hn.zero]
  · rwa [hmax]

/-- A quantity too small for the looser run is too small for the other, or has no room there. -/
theorem belowMinEntry_of_permits (hn : Rounds n.round ε) {tight loose : SizingInputs}
    (h : Permits n tight loose) {qty qty' : ℚ} (hqty : qty ≤ max 0 qty')
    (hbelow : BelowMinEntry n loose qty') :
    BelowMinEntry n tight qty ∨ ∃ cap ∈ laterCaps n tight, cap ≤ 0 := by
  have hconcentration := h.concentration
  unfold BelowMinEntry at hbelow ⊢
  rw [h.price, h.position]
  cases hloose : concentrationCap n loose with
  | none => simp [hloose] at hbelow
  | some cap' =>
    cases htight : concentrationCap n tight with
    | none => simp [hloose, htight] at hconcentration
    | some cap =>
      cases hprice : loose.price with
      | none => simp [hloose, hprice] at hbelow
      | some price =>
        rw [hloose, hprice] at hbelow
        dsimp only at hbelow ⊢
        by_cases hcap : 0 < cap
        · refine .inl ⟨hbelow.1, hcap, ?_⟩
          apply mul_lt_of_le_max_zero hn (configured_pos hprice).le _ hqty hbelow.2.2
          norm_num [minEntryValueForNewPosition]
        · refine .inr ⟨cap, ?_, not_lt.mp hcap⟩
          simp [laterCaps, htight]

theorem quantity_le_of_permits (hn : Rounds n.round ε) {tight loose : SizingInputs}
    (h : Permits n tight loose) :
    (calculateSizing n tight).quantity ≤ (calculateSizing n loose).quantity := by
  by_cases htight : Rejected n tight
  · rw [calculateSizing_rejected hn htight]
    exact calculateSizing_nonneg n loose
  · have hbase : 0 < resolveBaseQuantity n tight := by
      by_contra hnone
      exact htight (.inl (not_lt.mp hnone))
    have hbounded := h.bounded hbase
    have hlots : ∀ qty, wholeLots n tight qty = wholeLots n loose qty := by
      intro qty
      unfold wholeLots
      rw [h.lotSize]
    rw [calculateSizing_capped hn htight]
    by_cases hloose : Rejected n loose
    · rw [calculateSizing_rejected hn hloose]
      rcases hloose with hnone | hnone | hbelow
      · exact absurd (h.base hbase) (not_lt.mpr hnone)
      · rw [max_eq_left hnone] at hbounded
        exact absurd (.inr (.inl hbounded)) htight
      · rcases belowMinEntry_of_permits hn h (capped_le_max_zero h.cash hbounded) hbelow with
          hbelow | ⟨cap, hmem, hcap⟩
        · exact absurd (.inr (.inr hbelow)) htight
        · rw [wholeLots_nonpos hn]
          exact (capped_le_of_mem hmem _).trans hcap
    · rw [calculateSizing_capped hn hloose, hlots, ← wholeLots_max_zero hn loose
        (capped (laterCaps n loose) _)]
      apply wholeLots_mono hn
      exact capped_le_max_zero h.later hbounded

/-- The target quantity for an amount of cash. -/
def targetQuantity (n : Numerics) (inputs : SizingInputs) (cash : Option ℚ) : ℚ :=
  match configured (inputs.requestedPrice.filter (· ≠ 0) <|> inputs.referencePrice),
      configured cash with
  | some effectivePrice, some effectiveCash =>
    let targetQty :=
      toIntegralValue (n.div (n.mul effectiveCash allocationPct) effectivePrice)
    if targetQty < 1 then 1 else targetQty
  | _, _ => inputs.requestedQuantity

theorem resolveBuyTargetQuantity_eq (inputs : SizingInputs) :
    resolveBuyTargetQuantity n inputs = targetQuantity n inputs inputs.cash := rfl

/-- More cash has a larger target; a target that depends on the cash is whole. -/
theorem targetQuantity_mono (hn : Rounds n.round ε) (inputs : SizingInputs) {cash cash' : ℚ}
    (hpos : 0 < cash) (hle : cash ≤ cash') :
    targetQuantity n inputs (some cash) ≤ targetQuantity n inputs (some cash') ∧
      (targetQuantity n inputs (some cash) = targetQuantity n inputs (some cash') ∨
        ∃ z : ℤ, targetQuantity n inputs (some cash) = z) := by
  unfold targetQuantity
  rw [configured_eq_some.mpr ⟨rfl, hpos⟩, configured_eq_some.mpr ⟨rfl, hpos.trans_le hle⟩]
  cases hprice : configured (inputs.requestedPrice.filter (· ≠ 0) <|> inputs.referencePrice) with
  | none => exact ⟨le_rfl, .inl rfl⟩
  | some price =>
    have hpricePos := configured_pos hprice
    have hallocation : 0 ≤ allocationPct := by norm_num [allocationPct]
    have hmono : toIntegralValue (n.div (n.mul cash allocationPct) price) ≤
        toIntegralValue (n.div (n.mul cash' allocationPct) price) := by
      apply truncate_mono
      apply hn.mono
      apply div_le_div_of_nonneg_right _ hpricePos.le
      exact hn.mono (mul_le_mul_of_nonneg_right hle hallocation)
    dsimp only
    constructor
    · split_ifs <;> linarith
    · right
      split
      · exact ⟨1, by norm_num⟩
      · exact truncate_isInt _

section Value

variable (hn : Rounds n.round ε) {price qty : ℚ} (hprice : 0 < price)
  (hvalue : n.round (price * qty) = price * qty) (hqty : n.round qty = qty)

include hn hprice hvalue hqty

theorem le_truncate_of_value_le {limit : ℚ} (hle : n.mul price qty ≤ limit)
    (hint : ∃ z : ℤ, qty = z) : qty ≤ toIntegralValue (n.div limit price) := by
  obtain ⟨z, rfl⟩ := hint
  unfold Numerics.mul at hle
  rw [hvalue] at hle
  have hquotient : (z : ℚ) ≤ n.div limit price := by
    rw [← hqty]
    apply hn.mono
    rwa [le_div_iff₀ hprice, mul_comm]
  have hwhole : toIntegralValue (z : ℚ) = z := truncate_intCast z
  rw [← hwhole]
  exact truncate_mono hquotient

theorem truncate_le_of_lt_value {limit : ℚ} (hpos : 0 ≤ limit) (hlt : limit < n.mul price qty) :
    toIntegralValue (n.div limit price) ≤ qty := by
  unfold Numerics.mul at hlt
  rw [hvalue] at hlt
  apply (truncate_le (hn.nonneg (div_nonneg hpos hprice.le))).trans
  rw [← hqty]
  apply hn.mono
  rw [div_le_iff₀ hprice, mul_comm]
  exact hlt.le

end Value

/-- A quantity under the value limit. -/
def underValueLimit (n : Numerics) (price limit : Option ℚ) (qty : ℚ) : ℚ :=
  match limit, price with
  | some limit, some price =>
    if limit < n.mul price qty then toIntegralValue (n.div limit price) else qty
  | _, _ => qty

theorem valuedQuantity_eq (inputs : SizingInputs) :
    valuedQuantity n inputs =
      underValueLimit n inputs.price (configured inputs.maxOrderValue)
        (resolveBaseQuantity n inputs) := by
  unfold valuedQuantity applyMaxOrderValue underValueLimit SizingInputs.price
  cases configured inputs.maxOrderValue with
  | none => rfl
  | some limit =>
    cases configured (effectivePrice inputs.requestedPrice inputs.referencePrice) with
    | none => rfl
    | some price => exact apply_ite Prod.fst _ _ _

section ValueLimit

variable (hn : Rounds n.round ε) {price : Option ℚ} (hprice : ∀ p ∈ price, 0 < p) {qty : ℚ}
  (hqty : n.round qty = qty) (hvalue : ∀ p ∈ price, n.round (p * qty) = p * qty)

include hn hprice hqty hvalue

theorem underValueLimit_mono_qty (limit : Option ℚ) {qty' : ℚ} (hle : qty ≤ qty')
    (hint : ∃ z : ℤ, qty = z) :
    underValueLimit n price limit qty ≤ underValueLimit n price limit qty' := by
  unfold underValueLimit
  cases limit with
  | none => exact hle
  | some limit =>
    cases price with
    | none => exact hle
    | some price =>
      have hpos := hprice price rfl
      have hmono : n.mul price qty ≤ n.mul price qty' :=
        hn.mono (mul_le_mul_of_nonneg_left hle hpos.le)
      dsimp only
      split
      next hover =>
        rw [if_pos (hover.trans_le hmono)]
      next hunder =>
        split
        next =>
          exact le_truncate_of_value_le hn hpos (hvalue price rfl) hqty (not_lt.mp hunder) hint
        next => exact hle

theorem underValueLimit_mono_limit {limit limit' : ℚ} (hpos : 0 ≤ limit) (hle : limit ≤ limit') :
    underValueLimit n price (some limit) qty ≤ underValueLimit n price (some limit') qty := by
  unfold underValueLimit
  cases price with
  | none => exact le_rfl
  | some price =>
    have hpricePos := hprice price rfl
    dsimp only
    split
    next hover =>
      split
      next =>
        apply truncate_mono
        apply hn.mono
        exact div_le_div_of_nonneg_right hle hpricePos.le
      next => exact truncate_le_of_lt_value hn hpricePos (hvalue price rfl) hqty hpos hover
    next hunder => rw [if_neg (fun h => hunder (hle.trans_lt h))]

end ValueLimit

/-- Both are configured, one no larger than the other, or neither is. -/
def Grows (x y : Option ℚ) : Prop :=
  List.Forall₂ (· ≤ ·) (configured x).toList (configured y).toList

theorem Grows.refl (x : Option ℚ) : Grows x x := List.forall₂_same.mpr fun _ _ => le_rfl

theorem Grows.of_le {a b : ℚ} (hpos : 0 < a) (hle : a ≤ b) : Grows (some a) (some b) := by
  unfold Grows
  rw [configured_eq_some.mpr ⟨rfl, hpos⟩, configured_eq_some.mpr ⟨rfl, hpos.trans_le hle⟩]
  exact .cons hle .nil

theorem Grows.cases {x y : Option ℚ} (h : Grows x y) :
    configured x = none ∧ configured y = none ∨
      ∃ a b, configured x = some a ∧ configured y = some b ∧ 0 < a ∧ a ≤ b := by
  unfold Grows at h
  cases hx : configured x with
  | none =>
    cases hy : configured y with
    | none => exact .inl ⟨rfl, rfl⟩
    | some b => simp [hx, hy] at h
  | some a =>
    cases hy : configured y with
    | none => simp [hx, hy] at h
    | some b =>
      rw [hx, hy] at h
      have hle : a ≤ b := by simpa using h
      exact .inr ⟨a, b, rfl, rfl, configured_pos hx, hle⟩

theorem remainingCapacity_mono (hn : Rounds n.round ε) {nav nav' pct pct' : ℚ} (hpct : 0 ≤ pct)
    (hnav' : 0 ≤ nav') (hnav : nav ≤ nav') (hle : pct ≤ pct') (qty avgPrice : Option ℚ) :
    remainingCapacity n nav pct qty avgPrice ≤ remainingCapacity n nav' pct' qty avgPrice := by
  apply hn.mono
  apply sub_le_sub_right
  apply hn.mono
  apply div_le_div_of_nonneg_right _ (by norm_num)
  apply hn.mono
  exact mul_le_mul hnav hle hpct hnav'

theorem concentrationCap_mono (hn : Rounds n.round ε) {tight loose : SizingInputs}
    (hprice : tight.price = loose.price)
    (hqty : tight.currentPositionQty = loose.currentPositionQty)
    (havgPrice : tight.currentPositionAvgPrice = loose.currentPositionAvgPrice)
    (hnav : Grows tight.nav loose.nav)
    (hpct : Grows tight.maxSinglePositionPct loose.maxSinglePositionPct) :
    List.Forall₂ (fun c c' => c ≤ max 0 c') (concentrationCap n tight).toList
      (concentrationCap n loose).toList := by
  unfold concentrationCap
  rw [hprice, hqty, havgPrice]
  rcases hnav.cases with ⟨htight, hloose⟩ | ⟨nav, nav', htight, hloose, hpos, hle⟩
  · rw [htight, hloose]
    exact .nil
  · rw [htight, hloose]
    rcases hpct.cases with ⟨htight, hloose⟩ | ⟨pct, pct', htight, hloose, hpctPos, hpctLe⟩
    · rw [htight, hloose]
      exact .nil
    · rw [htight, hloose]
      cases h : loose.price with
      | none => exact .nil
      | some price =>
        have hmono := remainingCapacity_mono hn hpctPos.le (hpos.le.trans hle) hle hpctLe
          loose.currentPositionQty loose.currentPositionAvgPrice
        dsimp only
        split
        next =>
          split
          next => exact .cons (le_max_left _ _) .nil
          next => exact .cons (le_max_left _ _) .nil
        next hroom =>
          rw [if_neg (fun hnone => hroom (hmono.trans hnone))]
          refine .cons (le_max_of_le_right ?_) .nil
          apply truncate_mono
          apply hn.mono
          exact div_le_div_of_nonneg_right hmono (configured_pos h).le

/-- The cap by shares traded. -/
def shareCaps (n : Numerics) (volume pct : Option ℚ) : List ℚ :=
  match configured volume, configured pct with
  | some volume, some pct => [toIntegralValue (participationCap n volume pct)]
  | _, _ => []

/-- The cap by money traded. -/
def moneyCaps (n : Numerics) (turnover price pct : Option ℚ) : List ℚ :=
  match configured turnover, price, configured pct with
  | some turnover, some price, some pct =>
    [toIntegralValue (n.div (participationCap n turnover pct) price)]
  | _, _, _ => []

theorem participations_map (inputs : SizingInputs) :
    (participations n inputs).map Prod.fst =
      shareCaps n inputs.accumulatedIntradayVolume (some inputs.volumePct) ++
        moneyCaps n inputs.accumulatedIntradayTurnover inputs.price (some inputs.turnoverPct) ++
        shareCaps n inputs.averageDailyVolume20d (some inputs.averageVolumePct) := by
  unfold participations participationCaps shareCaps moneyCaps SizingInputs.price
  unfold SizingInputs.volumePct SizingInputs.turnoverPct SizingInputs.averageVolumePct
  generalize configured (some _) = volumePct
  generalize configured (some _) = turnoverPct
  generalize configured (some _) = averagePct
  rw [List.map_append, List.map_append]
  congr 1
  · congr 1
    · cases configured inputs.accumulatedIntradayVolume <;> cases volumePct <;> rfl
    · cases configured inputs.accumulatedIntradayTurnover <;>
        cases configured (effectivePrice inputs.requestedPrice inputs.referencePrice) <;>
        cases turnoverPct <;> rfl
  · cases configured inputs.averageDailyVolume20d <;> cases averagePct <;> rfl

theorem participationCap_mono (hn : Rounds n.round ε) {volume volume' pct pct' : ℚ}
    (hpct : 0 ≤ pct) (hvolume' : 0 ≤ volume') (hvolume : volume ≤ volume') (hle : pct ≤ pct') :
    participationCap n volume pct ≤ participationCap n volume' pct' := by
  apply hn.mono
  apply div_le_div_of_nonneg_right _ (by norm_num)
  apply hn.mono
  exact mul_le_mul hvolume hle hpct hvolume'

theorem shareCaps_mono (hn : Rounds n.round ε) {volume volume' pct pct' : Option ℚ}
    (hvolume : Grows volume volume') (hpct : Grows pct pct') :
    List.Forall₂ (fun c c' => c ≤ max 0 c') (shareCaps n volume pct)
      (shareCaps n volume' pct') := by
  unfold shareCaps
  rcases hvolume.cases with ⟨htight, hloose⟩ | ⟨v, v', htight, hloose, hpos, hle⟩
  · rw [htight, hloose]
    exact .nil
  · rw [htight, hloose]
    rcases hpct.cases with ⟨htight, hloose⟩ | ⟨p, p', htight, hloose, hpctPos, hpctLe⟩
    · rw [htight, hloose]
      exact .nil
    · rw [htight, hloose]
      refine .cons (le_max_of_le_right ?_) .nil
      apply truncate_mono
      exact participationCap_mono hn hpctPos.le (hpos.le.trans hle) hle hpctLe

theorem moneyCaps_mono (hn : Rounds n.round ε) {turnover turnover' price pct pct' : Option ℚ}
    (hprice : ∀ p ∈ price, 0 < p) (hturnover : Grows turnover turnover') (hpct : Grows pct pct') :
    List.Forall₂ (fun c c' => c ≤ max 0 c') (moneyCaps n turnover price pct)
      (moneyCaps n turnover' price pct') := by
  unfold moneyCaps
  rcases hturnover.cases with ⟨htight, hloose⟩ | ⟨v, v', htight, hloose, hpos, hle⟩
  · rw [htight, hloose]
    exact .nil
  · rw [htight, hloose]
    cases price with
    | none => exact .nil
    | some price =>
      rcases hpct.cases with ⟨htight, hloose⟩ | ⟨p, p', htight, hloose, hpctPos, hpctLe⟩
      · rw [htight, hloose]
        exact .nil
      · rw [htight, hloose]
        refine .cons (le_max_of_le_right ?_) .nil
        apply truncate_mono
        apply hn.mono
        apply div_le_div_of_nonneg_right _ (hprice price rfl).le
        exact participationCap_mono hn hpctPos.le (hpos.le.trans hle) hle hpctLe

theorem applyQtyBounds_mono {qty qty' : ℚ} (hqty : qty ≤ qty') {maxOrderQty maxOrderQty' : Option ℚ}
    (hmax : List.Forall₂ (· ≤ ·) (configured maxOrderQty).toList (configured maxOrderQty').toList)
    (minOrderQty : Option ℚ) :
    (applyQtyBounds qty maxOrderQty minOrderQty []).1 ≤
      max 0 (applyQtyBounds qty' maxOrderQty' minOrderQty []).1 := by
  have hcapped := capped_mono hmax hqty
  rw [applyQtyBounds_capped, applyQtyBounds_capped]
  cases configured minOrderQty with
  | none => exact hcapped.trans (le_max_right _ _)
  | some minimum =>
    dsimp only
    split
    next => exact le_max_left _ _
    next h =>
      rw [if_neg (fun hless => h (hcapped.trans_lt hless))]
      exact hcapped.trans (le_max_right _ _)

theorem truncate_zero : toIntegralValue 0 = 0 := by
  have h := truncate_intCast (K := ℚ) 0
  rwa [Int.cast_zero] at h

theorem spendableCash_mono (hn : Rounds n.round ε) {tight loose : SizingInputs}
    (hrequested : tight.requestedPrice = loose.requestedPrice)
    (hreference : tight.referencePrice = loose.referencePrice) {cash cash' : ℚ}
    (h : bufferedCash n tight cash ≤ max 0 (bufferedCash n loose cash')) :
    spendableCash n tight.requestedPrice tight.referencePrice tight.minCashBufferPct cash ≤
      max 0 (spendableCash n loose.requestedPrice loose.referencePrice loose.minCashBufferPct
        cash') := by
  rw [spendableCash_eq, spendableCash_eq, hrequested, hreference]
  split
  next =>
    have hmono : Monotone fun x : ℚ => toIntegralValue (n.mul x (95 / 100)) := by
      intro x y hxy
      apply truncate_mono
      apply hn.mono
      exact mul_le_mul_of_nonneg_right hxy (by norm_num)
    apply map_le_max_zero hmono _ h
    unfold Numerics.mul
    rw [zero_mul, hn.zero, truncate_zero]
  next => exact h

theorem bufferedCash_mono_cash (hn : Rounds n.round ε) (inputs : SizingInputs) {cash cash' : ℚ}
    (hpos : 0 ≤ cash) (hle : cash ≤ cash') :
    bufferedCash n inputs cash ≤ max 0 (bufferedCash n inputs cash') := by
  unfold bufferedCash
  cases configured inputs.minCashBufferPct with
  | none => exact le_max_of_le_right hle
  | some pct =>
    dsimp only
    rcases le_total 0 (n.sub 1 (n.div pct 100)) with hkept | hkept
    · apply le_max_of_le_right
      exact hn.mono (mul_le_mul_of_nonneg_right hle hkept)
    · apply le_max_of_le_left
      exact hn.nonpos (mul_nonpos_of_nonneg_of_nonpos hpos hkept)

/-- A smaller buffer leaves more, unless cash that is owed meets a buffer of more than all of it. -/
theorem bufferedCash_mono_buffer (hn : Rounds n.round ε) (hone : n.round 1 = 1)
    {tight loose : SizingInputs} {pct pct' cash : ℚ}
    (htight : configured tight.minCashBufferPct = some pct)
    (hloose : configured loose.minCashBufferPct = some pct') (hle : pct' ≤ pct)
    (hcash : 0 ≤ cash ∨ pct ≤ 100) :
    bufferedCash n tight cash ≤ max 0 (bufferedCash n loose cash) := by
  unfold bufferedCash
  rw [htight, hloose]
  dsimp only
  have hquotient : n.div pct' 100 ≤ n.div pct 100 :=
    hn.mono (div_le_div_of_nonneg_right hle (by norm_num))
  have hkept : n.sub 1 (n.div pct 100) ≤ n.sub 1 (n.div pct' 100) :=
    hn.mono (sub_le_sub_left hquotient 1)
  by_cases hpos : 0 ≤ cash
  · apply le_max_of_le_right
    exact hn.mono (mul_le_mul_of_nonneg_left hkept hpos)
  · apply le_max_of_le_left
    have hall : n.div pct 100 ≤ 1 := by
      rw [← hone]
      apply hn.mono
      rw [div_le_one (by norm_num)]
      exact hcash.resolve_left hpos
    apply hn.nonpos
    apply mul_nonpos_of_nonpos_of_nonneg (not_le.mp hpos).le
    exact hn.nonneg (sub_nonneg.mpr hall)

/-- The cash of one run, where it is any, is cash of the other, and no more is left of it. -/
def CashPermits (n : Numerics) (tight loose : SizingInputs) : Prop :=
  tight.cash = none ∧ loose.cash = none ∨
    ∃ cash cash', tight.cash = some cash ∧ loose.cash = some cash' ∧
      (loose.orderableAmount.isSome → cash' ≤ 0 → tight.orderableAmount.isSome ∧ cash ≤ 0) ∧
      (¬(tight.orderableAmount.isSome ∧ cash ≤ 0) →
        bufferedCash n tight cash ≤ max 0 (bufferedCash n loose cash'))

theorem CashPermits.of_eq {tight loose : SizingInputs} (hcash : tight.cash = loose.cash)
    (horderable : tight.orderableAmount = loose.orderableAmount)
    (hpct : tight.minCashBufferPct = loose.minCashBufferPct) : CashPermits n tight loose := by
  unfold CashPermits
  rw [hcash, horderable]
  cases loose.cash with
  | none => exact .inl ⟨rfl, rfl⟩
  | some cash =>
    refine .inr ⟨cash, cash, rfl, rfl, fun h hnone => ⟨h, hnone⟩, fun _ => ?_⟩
    unfold bufferedCash
    rw [hpct]
    exact le_max_right _ _

theorem earlierCaps_mono (hn : Rounds n.round ε) {tight loose : SizingInputs}
    (hside : tight.side = loose.side) (hprice : tight.price = loose.price)
    (hrequested : tight.requestedPrice = loose.requestedPrice)
    (hreference : tight.referencePrice = loose.referencePrice)
    (hcash : CashPermits n tight loose) :
    List.Forall₂ (fun c c' => c ≤ max 0 c') (earlierCaps n tight) (earlierCaps n loose) := by
  unfold earlierCaps
  rw [hside]
  split
  next =>
    unfold cashCap
    rw [hprice]
    cases h : loose.price with
    | none => exact .nil
    | some price =>
      rcases hcash with ⟨htight, hloose⟩ | ⟨cash, cash', htight, hloose, hnone, hleft⟩
      · rw [htight, hloose]
        exact .nil
      · rw [htight, hloose]
        dsimp only
        split
        next =>
          split
          next => exact .cons (le_max_left _ _) .nil
          next => exact .cons (le_max_left _ _) .nil
        next hsome =>
          rw [if_neg (fun h => hsome (hnone h.1 h.2))]
          refine .cons ?_ .nil
          have hmono : Monotone fun x : ℚ => toIntegralValue (n.div x price) := by
            intro x y hxy
            apply truncate_mono
            apply hn.mono
            exact div_le_div_of_nonneg_right hxy (configured_pos h).le
          apply map_le_max_zero hmono _ (spendableCash_mono hn hrequested hreference (hleft hsome))
          unfold Numerics.div
          rw [zero_div, hn.zero, truncate_zero]
  next => exact .nil

section Runs

variable (hn : Rounds n.round ε) (limit : Limit) (inputs : SizingInputs)
  (hside : inputs.side = .buy) {tight loose : ℚ} (htight : 0 < tight) (hloose : 0 < loose)
  (hle : limit.AtMost tight loose)

include hn hside htight hle

theorem base_cases :
    resolveBaseQuantity n (limit.set inputs tight) =
        resolveBaseQuantity n (limit.set inputs loose) ∨
      resolveBaseQuantity n (limit.set inputs tight) ≤
          resolveBaseQuantity n (limit.set inputs loose) ∧
        (∃ z : ℤ, resolveBaseQuantity n (limit.set inputs tight) = z) ∧
        limit ≠ .maxOrderValue ∧ limit.MovesValue := by
  have hbuy : ∀ value, resolveBaseQuantity n (limit.set inputs value) =
      if inputs.decisionType ∈ skipDecisionTypes then 0
      else targetQuantity n (limit.set inputs value) (limit.set inputs value).cash := by
    intro value
    unfold resolveBaseQuantity
    rw [set_side, set_decisionType, if_pos hside, resolveBuyTargetQuantity_eq]
  rw [hbuy, hbuy]
  split
  next => exact .inl rfl
  next =>
    have hmono := fun h : tight ≤ loose => targetQuantity_mono hn inputs htight h
    cases limit with
    | availableCash =>
      cases horderable : inputs.orderableAmount with
      | some cash =>
        left
        simp only [Limit.set, SizingInputs.cash, horderable]
        rfl
      | none =>
        obtain ⟨hmono, hsame | hint⟩ := hmono hle
        · left
          simp only [Limit.set, SizingInputs.cash, horderable]
          exact hsame
        · right
          simp only [Limit.set, SizingInputs.cash, horderable]
          exact ⟨hmono, hint, by simp, .inl rfl⟩
    | orderableAmount =>
      obtain ⟨hmono, hsame | hint⟩ := hmono hle
      · exact .inl hsame
      · exact .inr ⟨hmono, hint, by simp, .inr (.inl rfl)⟩
    | _ => exact .inl rfl

theorem valued_le
    (hdigits : limit.MovesValue → (configured (limit.set inputs tight).maxOrderValue).isSome →
      Unrounded n (limit.set inputs tight)) :
    valuedQuantity n (limit.set inputs tight) ≤ valuedQuantity n (limit.set inputs loose) := by
  have hprice : ∀ price ∈ inputs.price, 0 < price := fun price h => configured_pos h
  have hbase := base_cases hn limit inputs hside htight hle
  rw [valuedQuantity_eq, valuedQuantity_eq, set_price, set_price]
  unfold Unrounded at hdigits
  rw [set_price] at hdigits
  by_cases hvalue : limit = .maxOrderValue
  · subst hvalue
    have hsame := hbase.resolve_right (fun h => h.2.2.1 rfl)
    have hconfigured : ∀ value, 0 < value → configured
        (Limit.maxOrderValue.set inputs value).maxOrderValue = some value :=
      fun value h => configured_eq_some.mpr ⟨rfl, h⟩
    have hpos : 0 < loose := htight.trans_le hle
    rw [hconfigured tight htight] at hdigits
    obtain ⟨hqty, hexact⟩ := hdigits (.inr (.inr rfl)) rfl
    rw [hconfigured tight htight, hconfigured loose hpos, ← hsame]
    exact underValueLimit_mono_limit hn hprice hqty hexact htight.le hle
  · have hlimits : ∀ value, (limit.set inputs value).maxOrderValue = inputs.maxOrderValue := by
      intro value
      cases limit <;> first | rfl | exact absurd rfl hvalue
    rw [hlimits] at hdigits ⊢
    rw [hlimits]
    rcases hbase with hsame | ⟨hmono, hint, -, hmoves⟩
    · rw [hsame]
    · cases hconfigured : configured inputs.maxOrderValue with
      | none => exact hmono
      | some value =>
        rw [hconfigured] at hdigits
        obtain ⟨hqty, hexact⟩ := hdigits hmoves rfl
        exact underValueLimit_mono_qty hn hprice hqty hexact _ hmono hint

theorem bounded_le
    (hdigits : limit.MovesValue → (configured (limit.set inputs tight).maxOrderValue).isSome →
      Unrounded n (limit.set inputs tight)) :
    boundedQuantity n (limit.set inputs tight) ≤
      max 0 (boundedQuantity n (limit.set inputs loose)) := by
  unfold boundedQuantity
  rw [set_minOrderQty, set_minOrderQty]
  apply applyQtyBounds_mono (valued_le hn limit inputs hside htight hle hdigits)
  cases limit with
  | maxOrderQty =>
    have hpos : 0 < loose := htight.trans_le hle
    have hconfigured : ∀ value, 0 < value → configured
        (Limit.maxOrderQty.set inputs value).maxOrderQty = some value :=
      fun value h => configured_eq_some.mpr ⟨rfl, h⟩
    rw [hconfigured tight htight, hconfigured loose hpos]
    exact .cons hle .nil
  | _ => exact List.forall₂_same.mpr fun cap _ => le_rfl

omit hside

theorem cash_permits (hone : n.round 1 = 1) (hloose : 0 < loose)
    (hbuffer : limit = .minCashBufferPct → inputs.orderableAmount = none →
      ∀ cash ∈ inputs.availableCash, 0 ≤ cash ∨ tight ≤ 100) :
    CashPermits n (limit.set inputs tight) (limit.set inputs loose) := by
  cases limit with
  | availableCash =>
    cases horderable : inputs.orderableAmount with
    | some amount =>
      exact CashPermits.of_eq (by simp [Limit.set, SizingInputs.cash, horderable]) rfl rfl
    | none =>
      refine .inr ⟨tight, loose, ?_, ?_, ?_, fun _ => ?_⟩
      · simp [Limit.set, SizingInputs.cash, horderable]
      · simp [Limit.set, SizingInputs.cash, horderable]
      · simp [Limit.set, horderable]
      · exact bufferedCash_mono_cash hn inputs htight.le hle
  | orderableAmount =>
    refine .inr ⟨tight, loose, rfl, rfl, fun _ hnone => ?_, fun _ => ?_⟩
    · exact absurd hloose (not_lt.mpr hnone)
    · exact bufferedCash_mono_cash hn inputs htight.le hle
  | minCashBufferPct =>
    cases hcash : inputs.cash with
    | none => exact .inl ⟨hcash, hcash⟩
    | some cash =>
      refine .inr ⟨cash, cash, hcash, hcash, fun h hnone => ⟨h, hnone⟩, fun hsome => ?_⟩
      apply bufferedCash_mono_buffer hn hone (configured_eq_some.mpr ⟨rfl, htight⟩)
        (configured_eq_some.mpr ⟨rfl, hloose⟩) hle
      unfold SizingInputs.cash at hcash
      cases horderable : inputs.orderableAmount with
      | some amount =>
        -- orderable cash that is not positive blocks both runs before the buffer
        have hpos : ¬cash ≤ 0 := fun hnone => hsome ⟨by simp [Limit.set, horderable], hnone⟩
        exact .inl (not_le.mp hpos).le
      | none =>
        rw [horderable] at hcash
        exact hbuffer rfl horderable cash hcash
  | _ => exact CashPermits.of_eq rfl rfl rfl

theorem concentration_permits :
    List.Forall₂ (fun c c' => c ≤ max 0 c') (concentrationCap n (limit.set inputs tight)).toList
      (concentrationCap n (limit.set inputs loose)).toList := by
  apply concentrationCap_mono hn
  · simp
  · simp
  · cases limit <;> rfl
  · cases limit <;> first | exact Grows.refl _ | exact Grows.of_le htight hle
  · cases limit <;> first | exact Grows.refl _ | exact Grows.of_le htight hle

theorem participation_permits :
    List.Forall₂ (fun c c' => c ≤ max 0 c')
      ((participations n (limit.set inputs tight)).map Prod.fst)
      ((participations n (limit.set inputs loose)).map Prod.fst) := by
  rw [participations_map, participations_map, set_price, set_price]
  apply List.rel_append
  · apply List.rel_append
    · apply shareCaps_mono hn
      · cases limit <;> first | exact Grows.refl _ | exact Grows.of_le htight hle
      · cases limit <;> first | exact Grows.refl _ | exact Grows.of_le htight hle
    · apply moneyCaps_mono hn (fun price h => configured_pos h)
      · cases limit <;> first | exact Grows.refl _ | exact Grows.of_le htight hle
      · cases limit <;> first | exact Grows.refl _ | exact Grows.of_le htight hle
  · apply shareCaps_mono hn
    · cases limit <;> first | exact Grows.refl _ | exact Grows.of_le htight hle
    · cases limit <;> first | exact Grows.refl _ | exact Grows.of_le htight hle

end Runs

theorem calculateSizing_looser (hn : Rounds n.round ε) (hone : n.round 1 = 1) (limit : Limit)
    (inputs : SizingInputs) (hside : inputs.side = .buy) {tight loose : ℚ} (htight : 0 < tight)
    (hloose : 0 < loose) (hle : limit.AtMost tight loose)
    (hbuffer : limit = .minCashBufferPct → inputs.orderableAmount = none →
      ∀ cash ∈ inputs.availableCash, 0 ≤ cash ∨ tight ≤ 100)
    (hdigits : limit.MovesValue → (configured (limit.set inputs tight).maxOrderValue).isSome →
      Unrounded n (limit.set inputs tight)) :
    (calculateSizing n (limit.set inputs tight)).quantity ≤
      (calculateSizing n (limit.set inputs loose)).quantity := by
  have hcash : List.Forall₂ (fun c c' => c ≤ max 0 c') (earlierCaps n (limit.set inputs tight))
      (earlierCaps n (limit.set inputs loose)) :=
    earlierCaps_mono hn (by simp) (by simp) (by simp) (by simp)
      (cash_permits hn limit inputs htight hle hone hloose hbuffer)
  have hconcentration := concentration_permits hn limit inputs htight hle
  have hbase := base_cases hn limit inputs hside htight hle
  apply quantity_le_of_permits hn
  exact {
    price := by simp
    position := by simp
    lotSize := by simp
    base := fun hpos => by
      rcases hbase with hsame | ⟨hmono, -⟩
      · rwa [← hsame]
      · exact hpos.trans_le hmono
    bounded := fun _ => bounded_le hn limit inputs hside htight hle hdigits
    cash := hcash
    concentration := hconcentration
    later := by
      unfold laterCaps
      simp only [set_side, if_pos hside]
      apply List.rel_append
      · exact List.rel_append hcash hconcentration
      · exact participation_permits hn limit inputs htight hle }

/-- Under the decimal context. -/
theorem calculateSizing_looser_limit (limit : Limit) (inputs : SizingInputs)
    (hside : inputs.side = .buy) (tight loose : ℚ) (htight : 0 < tight) (hloose : 0 < loose)
    (hle : limit.AtMost tight loose)
    (hbuffer : limit = .minCashBufferPct → inputs.orderableAmount = none →
      ∀ cash ∈ inputs.availableCash, 0 ≤ cash ∨ tight ≤ 100)
    (hdigits : limit.MovesValue → (configured (limit.set inputs tight).maxOrderValue).isSome →
      Unrounded inMemory (limit.set inputs tight)) :
    (calculateSizing inMemory (limit.set inputs tight)).quantity ≤
      (calculateSizing inMemory (limit.set inputs loose)).quantity :=
  calculateSizing_looser decimalContext_rounds (by decide +kernel) limit inputs hside htight hloose
    hle hbuffer hdigits

/-- A purchase with a limit on its value. -/
def valuedBuy : SizingInputs where
  decisionType := "BUY"
  side := .buy
  requestedQuantity := 100
  requestedPrice := some 1000
  maxOrderValue := some 150000

theorem calculateSizing_looser_limit_valuedBuy :
    (calculateSizing inMemory (Limit.availableCash.set valuedBuy 500000)).quantity ≤
        (calculateSizing inMemory (Limit.availableCash.set valuedBuy 2000000)).quantity ∧
      (calculateSizing inMemory (Limit.minCashBufferPct.set
          { valuedBuy with availableCash := some 200000 } 90)).quantity ≤
        (calculateSizing inMemory (Limit.minCashBufferPct.set
          { valuedBuy with availableCash := some 200000 } 10)).quantity := by
  constructor
  · exact calculateSizing_looser_limit .availableCash valuedBuy rfl 500000 2000000
      (by decide +kernel) (by decide +kernel)
      (by change (500000 : ℚ) ≤ 2000000; decide +kernel) (fun h => absurd h (by decide))
      (fun _ _ => ⟨by decide +kernel, by decide +kernel⟩)
  · exact calculateSizing_looser_limit .minCashBufferPct
      { valuedBuy with availableCash := some 200000 } rfl 90 10 (by decide +kernel)
      (by decide +kernel) (by change (10 : ℚ) ≤ 90; decide +kernel)
      (fun _ _ cash _ => .inr (by decide +kernel)) (fun h => absurd h (by simp [Limit.MovesValue]))

/-- The cash of the account is owed. -/
def owedCash : SizingInputs where
  decisionType := "BUY"
  side := .buy
  requestedQuantity := 100
  requestedPrice := some 1000
  availableCash := some (-1000000)

/-- An order of as many digits as the context keeps. -/
def longOrder : SizingInputs where
  decisionType := "BUY"
  side := .buy
  requestedQuantity := 9 * 10 ^ 27 + 15
  requestedPrice := some 9

/-- The buffer of more than all of the cash turns a debt into cash, and the rounding of its value
takes a long order for a larger one. -/
theorem looser_buys_less :
    (Limit.minCashBufferPct.AtMost 200 10 ∧
        (calculateSizing inMemory (Limit.minCashBufferPct.set owedCash 200)).quantity = 100 ∧
        (calculateSizing inMemory (Limit.minCashBufferPct.set owedCash 10)).quantity = 0) ∧
      Limit.maxOrderValue.AtMost (81 * 10 ^ 27 + 1399 / 10) (81 * 10 ^ 27 + 140) ∧
        (calculateSizing inMemory
          (Limit.maxOrderValue.set longOrder (81 * 10 ^ 27 + 1399 / 10))).quantity =
            9 * 10 ^ 27 + 16 ∧
        (calculateSizing inMemory
          (Limit.maxOrderValue.set longOrder (81 * 10 ^ 27 + 140))).quantity =
            9 * 10 ^ 27 + 15 := by
  refine ⟨⟨?_, ?_⟩, ?_, ?_⟩
  · change (10 : ℚ) ≤ 200
    decide +kernel
  · decide +kernel
  · change (81 * 10 ^ 27 + 1399 / 10 : ℚ) ≤ 81 * 10 ^ 27 + 140
    decide +kernel
  · decide +kernel

end AgentTrading.Sizing
