import AgentTrading.Sizing.Steps

/-! A purchase keeps within all configured limits at once. The limits are stated on exact
numbers, and each holds up to the error of the arithmetic. -/
namespace AgentTrading.Sizing
open Domain RealizedPnl Library.Rounding Library.Caps

namespace SizingInputs

variable (inputs : SizingInputs)

/-- The part of the cash the buffer reserves. -/
def buffer : ℚ := (configured inputs.minCashBufferPct).getD 0 / 100

/-- The allowance for a price that was not requested. -/
def slippage : ℚ := if inputs.requestedPrice = none then 95 / 100 else 1

/-- The position at its average price, nothing when either is unknown. -/
def positionValue : ℚ :=
  match inputs.currentPositionQty, inputs.currentPositionAvgPrice with
  | some qty, some avgPrice => qty * avgPrice
  | _, _ => 0

end SizingInputs

/-- The limits on a purchase at a price, each up to `slack` of the amounts it compares. -/
structure WithinLimits (n : Numerics) (slack : ℚ) (inputs : SizingInputs) (price quantity : ℚ) :
    Prop where
  orderValue : ∀ limit ∈ configured inputs.maxOrderValue, price * quantity ≤ (1 + slack) * limit
  cash : ∀ cash ∈ inputs.cash, price * quantity ≤
    inputs.slippage * (cash * (1 - inputs.buffer)) + slack * (|cash| * (1 + inputs.buffer))
  position : ∀ nav ∈ configured inputs.nav, ∀ pct ∈ configured inputs.maxSinglePositionPct,
    inputs.positionValue + price * quantity ≤
      nav * pct / 100 + slack * (nav * pct / 100 + |inputs.positionValue|)
  orderQty : ∀ limit ∈ configured inputs.maxOrderQty, quantity ≤ (1 + slack) * limit
  participation : ∀ cap ∈ participations n inputs, quantity ≤ (1 + slack) * cap.1
  volume : ∀ volume ∈ configured inputs.accumulatedIntradayVolume, 0 < inputs.volumePct →
    quantity ≤ (1 + slack) * (volume * inputs.volumePct / 100)
  turnover : ∀ turnover ∈ configured inputs.accumulatedIntradayTurnover,
    0 < inputs.turnoverPct →
      price * quantity ≤ (1 + slack) * (turnover * inputs.turnoverPct / 100)
  averageVolume : ∀ volume ∈ configured inputs.averageDailyVolume20d,
    0 < inputs.averageVolumePct →
      quantity ≤ (1 + slack) * (volume * inputs.averageVolumePct / 100)
  lots : ∀ lot ∈ configured inputs.lotSize, ∃ count : ℤ, quantity = n.round (count * lot)

variable {n : Numerics} {ε : ℚ} {inputs : SizingInputs}

theorem toIntegralValue_div_le (hn : Rounds n.round ε) {a b : ℚ} (ha : 0 ≤ a) (hb : 0 < b) :
    toIntegralValue (n.div a b) * b ≤ (1 + ε) * a := by
  have hdiv : 0 ≤ a / b := div_nonneg ha hb.le
  calc toIntegralValue (n.div a b) * b ≤ n.div a b * b :=
        mul_le_mul_of_nonneg_right (truncate_le (hn.nonneg hdiv)) hb.le
    _ ≤ (1 + ε) * (a / b) * b := mul_le_mul_of_nonneg_right (hn.le_mul hdiv) hb.le
    _ = (1 + ε) * a := by rw [mul_assoc, div_mul_cancel₀ a hb.ne']

theorem pos_of_toIntegralValue_div_pos (hn : Rounds n.round ε) {a b : ℚ} (hb : 0 < b)
    (h : 0 < toIntegralValue (n.div a b)) : 0 < a := by
  have hdiv : 0 < a / b := hn.pos_of_pos (pos_of_truncate_pos h)
  rwa [div_pos_iff_of_pos_right hb] at hdiv

theorem applyLotSize_le (hn : Rounds n.round ε) {qty : ℚ} (hqty : 0 ≤ qty)
    (lotSize : Option ℚ) : applyLotSize n qty lotSize ≤ (1 + ε) ^ 2 * qty := by
  have hε := hn.error_nonneg
  unfold applyLotSize
  cases hlot : configured lotSize with
  | none =>
    have hone : 1 ≤ (1 + ε) ^ 2 := one_le_pow₀ (by linarith)
    exact le_mul_of_one_le_left hqty hone
  | some lot =>
    have hpos := configured_pos hlot
    have hcount : 0 ≤ toIntegralValue (n.div qty lot) :=
      truncate_nonneg (hn.nonneg (div_nonneg hqty hpos.le))
    calc n.mul (toIntegralValue (n.div qty lot)) lot
        ≤ (1 + ε) * (toIntegralValue (n.div qty lot) * lot) :=
          hn.le_mul (mul_nonneg hcount hpos.le)
      _ ≤ (1 + ε) * ((1 + ε) * qty) :=
          mul_le_mul_of_nonneg_left (toIntegralValue_div_le hn hqty hpos) (by linarith)
      _ = (1 + ε) ^ 2 * qty := by ring

section Positive

variable (hn : Rounds n.round ε) (hpos : 0 < (calculateSizing n inputs).quantity)

include hn hpos

theorem accepted : ¬Rejected n inputs := by
  intro h
  rw [calculateSizing_rejected hn h] at hpos
  exact lt_irrefl 0 hpos

theorem base_pos : 0 < resolveBaseQuantity n inputs := by
  by_contra h
  exact accepted hn hpos (.inl (not_lt.mp h))

theorem bounded_pos : 0 < boundedQuantity n inputs := by
  by_contra h
  exact accepted hn hpos (.inr (.inl (not_lt.mp h)))

theorem bounded_eq :
    boundedQuantity n inputs =
      capped (configured inputs.maxOrderQty).toList (valuedQuantity n inputs) :=
  boundedQuantity_of_pos (bounded_pos hn hpos)

theorem quantity_le {limit : ℚ}
    (h : capped (laterCaps n inputs) (boundedQuantity n inputs) ≤ limit) :
    0 < limit ∧ (calculateSizing n inputs).quantity ≤ (1 + ε) ^ 2 * limit := by
  have hquantity := calculateSizing_capped hn (accepted hn hpos)
  have hlots := wholeLots_mono hn inputs h
  rw [← hquantity] at hlots
  have hlimit : 0 < limit := by
    by_contra hnone
    rw [wholeLots_nonpos hn inputs (not_lt.mp hnone)] at hlots
    exact absurd hpos (not_lt.mpr hlots)
  refine ⟨hlimit, hlots.trans ?_⟩
  apply max_le _ (applyLotSize_le hn hlimit.le inputs.lotSize)
  have hε := hn.error_nonneg
  positivity

theorem quantity_le_later {limit : ℚ} (h : limit ∈ laterCaps n inputs) :
    0 < limit ∧ (calculateSizing n inputs).quantity ≤ (1 + ε) ^ 2 * limit :=
  quantity_le hn hpos (capped_le_of_mem h _)

theorem quantity_le_valued :
    0 < valuedQuantity n inputs ∧
      (calculateSizing n inputs).quantity ≤ (1 + ε) ^ 2 * valuedQuantity n inputs := by
  apply quantity_le hn hpos
  rw [bounded_eq hn hpos]
  exact (capped_le _ _).trans (capped_le _ _)

theorem cost_le {amount price : ℚ} (hprice : 0 < price)
    (h : capped (laterCaps n inputs) (boundedQuantity n inputs) ≤
      toIntegralValue (n.div amount price)) :
    0 < amount ∧ price * (calculateSizing n inputs).quantity ≤ (1 + ε) ^ 3 * amount := by
  obtain ⟨hshares, hquantity⟩ := quantity_le hn hpos h
  have hε := hn.error_nonneg
  have hamount := pos_of_toIntegralValue_div_pos hn hprice hshares
  refine ⟨hamount, ?_⟩
  calc price * (calculateSizing n inputs).quantity
      ≤ price * ((1 + ε) ^ 2 * toIntegralValue (n.div amount price)) :=
        mul_le_mul_of_nonneg_left hquantity hprice.le
    _ = (1 + ε) ^ 2 * (toIntegralValue (n.div amount price) * price) := by ring
    _ ≤ (1 + ε) ^ 2 * ((1 + ε) * amount) := by
        apply mul_le_mul_of_nonneg_left (toIntegralValue_div_le hn hamount.le hprice)
        positivity
    _ = (1 + ε) ^ 3 * amount := by ring

theorem orderValue_le (hhalf : ε ≤ 1 / 2) {price : ℚ} (hprice : inputs.price = some price)
    {limit : ℚ} (hlimit : configured inputs.maxOrderValue = some limit) :
    price * (calculateSizing n inputs).quantity ≤ (1 + ε) ^ 4 * limit := by
  have hε := hn.error_nonneg
  have hpricePos := configured_pos hprice
  have hlimitPos := configured_pos hlimit
  have hvalue : price * valuedQuantity n inputs ≤ (1 + ε) ^ 2 * limit := by
    unfold valuedQuantity applyMaxOrderValue
    unfold SizingInputs.price at hprice
    rw [hlimit, hprice]
    dsimp only
    split
    next =>
      -- the shares the limit buys
      rw [mul_comm]
      apply (toIntegralValue_div_le hn hlimitPos.le hpricePos).trans
      apply mul_le_mul_of_nonneg_right _ hlimitPos.le
      nlinarith
    next h =>
      -- the value itself, which the rounding may have moved under the limit
      have hbase := base_pos hn hpos
      have hrounded := hn.mul_le (mul_pos hpricePos hbase).le
      have hle : (1 - ε) * (price * resolveBaseQuantity n inputs) ≤ limit :=
        hrounded.trans (not_lt.mp h)
      have hfactor : 1 ≤ (1 + ε) ^ 2 * (1 - ε) := by
        have hsquare : ε * ε ≤ 1 / 2 * (1 / 2) := mul_le_mul hhalf hhalf hε (by norm_num)
        have hrest : 0 ≤ ε * (1 - ε - ε * ε) := mul_nonneg hε (by linarith)
        linarith
      calc price * resolveBaseQuantity n inputs
          ≤ (1 + ε) ^ 2 * (1 - ε) * (price * resolveBaseQuantity n inputs) :=
            le_mul_of_one_le_left (mul_pos hpricePos hbase).le hfactor
        _ = (1 + ε) ^ 2 * ((1 - ε) * (price * resolveBaseQuantity n inputs)) := by ring
        _ ≤ (1 + ε) ^ 2 * limit := mul_le_mul_of_nonneg_left hle (by positivity)
  calc price * (calculateSizing n inputs).quantity
      ≤ price * ((1 + ε) ^ 2 * valuedQuantity n inputs) :=
        mul_le_mul_of_nonneg_left (quantity_le_valued hn hpos).2 hpricePos.le
    _ = (1 + ε) ^ 2 * (price * valuedQuantity n inputs) := by ring
    _ ≤ (1 + ε) ^ 2 * ((1 + ε) ^ 2 * limit) := mul_le_mul_of_nonneg_left hvalue (by positivity)
    _ = (1 + ε) ^ 4 * limit := by ring

theorem orderQty_le {limit : ℚ} (hlimit : configured inputs.maxOrderQty = some limit) :
    (calculateSizing n inputs).quantity ≤ (1 + ε) ^ 2 * limit := by
  apply (quantity_le hn hpos _).2
  rw [bounded_eq hn hpos, hlimit]
  apply (capped_le _ _).trans
  exact min_le_left _ _

end Positive

theorem buffer_nonneg (inputs : SizingInputs) : 0 ≤ inputs.buffer := by
  unfold SizingInputs.buffer
  apply div_nonneg _ (by norm_num)
  cases h : configured inputs.minCashBufferPct with
  | none => exact le_rfl
  | some pct => exact (configured_pos h).le

theorem bufferedCash_approx (hn : Rounds n.round ε) (inputs : SizingInputs) (cash : ℚ) :
    Approx ε 3 (|cash| * (1 + inputs.buffer)) (cash * (1 - inputs.buffer))
      (bufferedCash n inputs cash) := by
  have hε := hn.error_nonneg
  have hbuffer := buffer_nonneg inputs
  unfold bufferedCash
  unfold SizingInputs.buffer at hbuffer ⊢
  cases hpct : configured inputs.minCashBufferPct with
  | none =>
    have hcash := (Approx.refl (ε := ε) cash).weaken hε (Nat.zero_le 3) le_rfl
    simpa using hcash
  | some pct =>
    rw [hpct] at hbuffer
    have hone := (Approx.refl (ε := ε) (1 : ℚ)).weaken hε (Nat.zero_le 1) le_rfl
    have hquotient := (Approx.refl (ε := ε) (pct / 100)).rounded hn
    have hkept := ((hone.sub hquotient).rounded hn).const_mul cash
    have hsize : |cash| * (|1| + |pct / 100|) = |cash| * (1 + pct / 100) := by
      rw [abs_one]
      exact congrArg (fun x => |cash| * (1 + x)) (abs_of_nonneg hbuffer)
    rw [hsize] at hkept
    exact hkept.rounded hn

theorem referencePrice_of_none {price : ℚ} (hprice : inputs.price = some price)
    (hnone : inputs.requestedPrice = none) : (configured inputs.referencePrice).isSome := by
  unfold SizingInputs.price effectivePrice at hprice
  rw [hnone] at hprice
  exact Option.isSome_of_eq_some hprice

theorem spendableCash_le (hn : Rounds n.round ε) {price : ℚ} (hprice : inputs.price = some price)
    {cash : ℚ} (hpos : 0 < spendableCash n inputs.requestedPrice inputs.referencePrice
      inputs.minCashBufferPct cash) :
    ∃ spent, spendableCash n inputs.requestedPrice inputs.referencePrice
        inputs.minCashBufferPct cash ≤ spent ∧
      Approx ε 4 (|cash| * (1 + inputs.buffer))
        (inputs.slippage * (cash * (1 - inputs.buffer))) spent := by
  have hε := hn.error_nonneg
  have hbuffered := bufferedCash_approx hn inputs cash
  have hM : 0 ≤ |cash| * (1 + inputs.buffer) := (abs_nonneg _).trans hbuffered.size
  rw [spendableCash_eq] at hpos ⊢
  unfold SizingInputs.slippage
  by_cases hnone : inputs.requestedPrice = none
  · have hboth := And.intro hnone (referencePrice_of_none hprice hnone)
    rw [if_pos hboth] at hpos ⊢
    rw [if_pos hnone]
    refine ⟨n.mul (bufferedCash n inputs cash) (95 / 100), ?_, ?_⟩
    · exact truncate_le (pos_of_truncate_pos hpos).le
    · have hscaled := (hbuffered.const_mul (95 / 100)).rounded hn
      rw [mul_comm (95 / 100) (bufferedCash n inputs cash)] at hscaled
      apply hscaled.weaken hε le_rfl
      rw [abs_of_pos (by norm_num)]
      linarith
  · rw [if_neg (fun h => hnone h.1), if_neg hnone, one_mul]
    exact ⟨_, le_rfl, hbuffered.weaken hε (by decide) le_rfl⟩

theorem remainingCapacity_approx (hn : Rounds n.round ε) (inputs : SizingInputs) {nav pct : ℚ}
    (hnav : 0 < nav) (hpct : 0 < pct) :
    Approx ε 3 (nav * pct / 100 + |inputs.positionValue|)
      (nav * pct / 100 - inputs.positionValue)
      (remainingCapacity n nav pct inputs.currentPositionQty inputs.currentPositionAvgPrice) := by
  have hε := hn.error_nonneg
  have hlimit : Approx ε 2 (nav * pct / 100) (nav * pct / 100) (n.div (n.mul nav pct) 100) := by
    have hproduct := (Approx.refl (ε := ε) (nav * pct)).rounded hn
    have hquotient := (hproduct.const_mul (1 / 100)).rounded hn
    rw [abs_of_pos (by norm_num), abs_of_pos (mul_pos hnav hpct)] at hquotient
    simp only [one_div_mul_eq_div] at hquotient
    exact hquotient
  have hvalue : Approx ε 2 |inputs.positionValue| inputs.positionValue
      (match inputs.currentPositionQty, inputs.currentPositionAvgPrice with
        | some qty, some avgPrice => n.mul qty avgPrice
        | _, _ => 0) := by
    unfold SizingInputs.positionValue
    split
    · exact ((Approx.refl _).rounded hn).weaken hε (by decide) le_rfl
    · exact (Approx.refl _).weaken hε (Nat.zero_le 2) le_rfl
  exact (hlimit.sub hvalue).rounded hn

section Purchase

variable (hn : Rounds n.round ε) (hpos : 0 < (calculateSizing n inputs).quantity)
  {price : ℚ} (hprice : inputs.price = some price)

include hn hpos hprice

theorem position_le {nav pct : ℚ} (hnav : configured inputs.nav = some nav)
    (hpct : configured inputs.maxSinglePositionPct = some pct) :
    inputs.positionValue + price * (calculateSizing n inputs).quantity ≤
      nav * pct / 100 +
        ((1 + ε) ^ 6 - 1) * (nav * pct / 100 + |inputs.positionValue|) := by
  have hcap : concentrationCap n inputs =
      if remainingCapacity n nav pct inputs.currentPositionQty inputs.currentPositionAvgPrice ≤ 0
      then some 0
      else some (toIntegralValue (n.div (remainingCapacity n nav pct inputs.currentPositionQty
        inputs.currentPositionAvgPrice) price)) := by
    unfold concentrationCap
    rw [hnav, hpct, hprice]
  have hmem : ∀ cap, concentrationCap n inputs = some cap → cap ∈ laterCaps n inputs := by
    intro cap h
    simp [laterCaps, h]
  split at hcap
  next => exact absurd (quantity_le_later hn hpos (hmem 0 hcap)).1 (lt_irrefl 0)
  next =>
    have hcost := (cost_le hn hpos (configured_pos hprice)
      (capped_le_of_mem (hmem _ hcap) _)).2
    have happrox := remainingCapacity_approx hn inputs (configured_pos hnav) (configured_pos hpct)
    have hscaled := happrox.scaled_le hn.error_nonneg 3
    calc inputs.positionValue + price * (calculateSizing n inputs).quantity
        ≤ inputs.positionValue + (1 + ε) ^ 3 * remainingCapacity n nav pct
            inputs.currentPositionQty inputs.currentPositionAvgPrice := by gcongr
      _ ≤ inputs.positionValue + (nav * pct / 100 - inputs.positionValue +
            ((1 + ε) ^ (3 + 3) - 1) * (nav * pct / 100 + |inputs.positionValue|)) := by gcongr
      _ = _ := by ring

variable (hside : inputs.side = .buy)

include hside

theorem cash_le {cash : ℚ} (hcash : inputs.cash = some cash) :
    price * (calculateSizing n inputs).quantity ≤
      inputs.slippage * (cash * (1 - inputs.buffer)) +
        ((1 + ε) ^ 7 - 1) * (|cash| * (1 + inputs.buffer)) := by
  have hcap : cashCap n inputs =
      if inputs.orderableAmount.isSome ∧ cash ≤ 0 then some 0
      else some (toIntegralValue (n.div (spendableCash n inputs.requestedPrice
        inputs.referencePrice inputs.minCashBufferPct cash) price)) := by
    unfold cashCap
    rw [hcash, hprice]
  have hmem : ∀ cap, cashCap n inputs = some cap → cap ∈ laterCaps n inputs := by
    intro cap h
    simp [laterCaps, earlierCaps, hside, h]
  split at hcap
  next => exact absurd (quantity_le_later hn hpos (hmem 0 hcap)).1 (lt_irrefl 0)
  next =>
    obtain ⟨hsome, hcost⟩ := cost_le hn hpos (configured_pos hprice)
      (capped_le_of_mem (hmem _ hcap) _)
    obtain ⟨spent, hspent, happrox⟩ := spendableCash_le hn hprice hsome
    have hε := hn.error_nonneg
    have hfactor : 0 ≤ (1 + ε) ^ 3 := by positivity
    calc price * (calculateSizing n inputs).quantity
        ≤ (1 + ε) ^ 3 * spendableCash n inputs.requestedPrice inputs.referencePrice
            inputs.minCashBufferPct cash := hcost
      _ ≤ (1 + ε) ^ 3 * spent := mul_le_mul_of_nonneg_left hspent hfactor
      _ ≤ _ := happrox.scaled_le hε 3

omit hprice

theorem participation_le {cap : ℚ × String} (hcap : cap ∈ participations n inputs) :
    0 < cap.1 ∧ (calculateSizing n inputs).quantity ≤ (1 + ε) ^ 2 * cap.1 := by
  apply quantity_le_later hn hpos
  unfold laterCaps
  rw [if_pos hside]
  exact List.mem_append_right _ (List.mem_map_of_mem hcap)

end Purchase

theorem participationCap_bounds (hn : Rounds n.round ε) {volume pct : ℚ} (hvolume : 0 < volume)
    (hpct : 0 < pct) :
    0 ≤ participationCap n volume pct ∧
      participationCap n volume pct ≤ (1 + ε) ^ 2 * (volume * pct / 100) := by
  have hε := hn.error_nonneg
  have hproduct : 0 ≤ volume * pct := (mul_pos hvolume hpct).le
  have hrounded : 0 ≤ n.mul volume pct := hn.nonneg hproduct
  have hquotient : 0 ≤ n.mul volume pct / 100 := div_nonneg hrounded (by norm_num)
  constructor
  · exact hn.nonneg hquotient
  · calc participationCap n volume pct ≤ (1 + ε) * (n.mul volume pct / 100) :=
          hn.le_mul hquotient
      _ ≤ (1 + ε) * ((1 + ε) * (volume * pct) / 100) := by
          gcongr
          exact hn.le_mul hproduct
      _ = (1 + ε) ^ 2 * (volume * pct / 100) := by ring

theorem configured_some {x : ℚ} (h : 0 < x) : configured (some x) = some x :=
  configured_eq_some.mpr ⟨rfl, h⟩

theorem volumeCap_mem {volume : ℚ}
    (hvolume : configured inputs.accumulatedIntradayVolume = some volume)
    (hpct : 0 < inputs.volumePct) :
    (toIntegralValue (participationCap n volume inputs.volumePct),
      "intraday_volume_participation_cap") ∈ participations n inputs := by
  have hconfigured := configured_some hpct
  unfold participations participationCaps
  unfold SizingInputs.volumePct at hconfigured ⊢
  rw [hvolume, hconfigured]
  simp

theorem turnoverCap_mem {turnover price : ℚ}
    (hturnover : configured inputs.accumulatedIntradayTurnover = some turnover)
    (hprice : inputs.price = some price) (hpct : 0 < inputs.turnoverPct) :
    (toIntegralValue (n.div (participationCap n turnover inputs.turnoverPct) price),
      "intraday_turnover_participation_cap") ∈ participations n inputs := by
  have hconfigured := configured_some hpct
  unfold participations participationCaps
  unfold SizingInputs.turnoverPct at hconfigured ⊢
  unfold SizingInputs.price at hprice
  rw [hturnover, hprice, hconfigured]
  simp

theorem averageCap_mem {volume : ℚ}
    (hvolume : configured inputs.averageDailyVolume20d = some volume)
    (hpct : 0 < inputs.averageVolumePct) :
    (toIntegralValue (participationCap n volume inputs.averageVolumePct),
      "average_daily_volume_participation_cap") ∈ participations n inputs := by
  have hconfigured := configured_some hpct
  unfold participations participationCaps
  unfold SizingInputs.averageVolumePct at hconfigured ⊢
  rw [hvolume, hconfigured]
  simp

section Shares

variable (hn : Rounds n.round ε) (hpos : 0 < (calculateSizing n inputs).quantity)
  (hside : inputs.side = .buy)

include hn hpos hside

theorem volumeShare_le {volume pct : ℚ} {reason : String} (hvolume : 0 < volume) (hpct : 0 < pct)
    (hmem : (toIntegralValue (participationCap n volume pct), reason) ∈ participations n inputs) :
    (calculateSizing n inputs).quantity ≤ (1 + ε) ^ 4 * (volume * pct / 100) := by
  have hε := hn.error_nonneg
  obtain ⟨hnonneg, hle⟩ := participationCap_bounds hn hvolume hpct
  calc (calculateSizing n inputs).quantity
      ≤ (1 + ε) ^ 2 * toIntegralValue (participationCap n volume pct) :=
        (participation_le hn hpos hside hmem).2
    _ ≤ (1 + ε) ^ 2 * ((1 + ε) ^ 2 * (volume * pct / 100)) := by
        gcongr
        exact (truncate_le hnonneg).trans hle
    _ = (1 + ε) ^ 4 * (volume * pct / 100) := by ring

theorem turnoverShare_le {price turnover : ℚ} (hprice : inputs.price = some price)
    (hturnover : configured inputs.accumulatedIntradayTurnover = some turnover)
    (hpct : 0 < inputs.turnoverPct) :
    price * (calculateSizing n inputs).quantity ≤
      (1 + ε) ^ 5 * (turnover * inputs.turnoverPct / 100) := by
  have hε := hn.error_nonneg
  have hlater : toIntegralValue (n.div (participationCap n turnover inputs.turnoverPct) price) ∈
      laterCaps n inputs := by
    unfold laterCaps
    rw [if_pos hside]
    exact List.mem_append_right _ (List.mem_map_of_mem (turnoverCap_mem hturnover hprice hpct))
  calc price * (calculateSizing n inputs).quantity
      ≤ (1 + ε) ^ 3 * participationCap n turnover inputs.turnoverPct :=
        (cost_le hn hpos (configured_pos hprice) (capped_le_of_mem hlater _)).2
    _ ≤ (1 + ε) ^ 3 * ((1 + ε) ^ 2 * (turnover * inputs.turnoverPct / 100)) := by
        gcongr
        exact (participationCap_bounds hn (configured_pos hturnover) hpct).2
    _ = (1 + ε) ^ 5 * (turnover * inputs.turnoverPct / 100) := by ring

end Shares

theorem calculateSizing_lots (hn : Rounds n.round ε)
    (hpos : 0 < (calculateSizing n inputs).quantity) {lot : ℚ}
    (hlot : configured inputs.lotSize = some lot) :
    ∃ count : ℤ, (calculateSizing n inputs).quantity = n.round (count * lot) := by
  have hquantity := calculateSizing_capped hn (accepted hn hpos)
  rw [hquantity] at hpos ⊢
  generalize capped (laterCaps n inputs) (boundedQuantity n inputs) = qty at hpos ⊢
  unfold wholeLots applyLotSize at hpos ⊢
  rw [hlot] at hpos ⊢
  dsimp only at hpos ⊢
  obtain ⟨count, hcount⟩ := truncate_isInt (n.div qty lot)
  have hsome := (lt_max_iff.mp hpos).resolve_left (lt_irrefl 0)
  rw [max_eq_right hsome.le]
  unfold toIntegralValue
  rw [hcount]
  exact ⟨count, rfl⟩

theorem calculateSizing_within (hn : Rounds n.round ε) (hhalf : ε ≤ 1 / 2) {slack : ℚ}
    (hslack : (1 + ε) ^ 7 - 1 ≤ slack) {price : ℚ} (hprice : inputs.price = some price)
    (hside : inputs.side = .buy) (hpos : 0 < (calculateSizing n inputs).quantity) :
    WithinLimits n slack inputs price (calculateSizing n inputs).quantity := by
  have hε := hn.error_nonneg
  have hpricePos := configured_pos hprice
  have hfactor : ∀ k ≤ 7, ∀ limit : ℚ, 0 ≤ limit → (1 + ε) ^ k * limit ≤ (1 + slack) * limit := by
    intro k hk limit hlimit
    have hpow : (1 + ε) ^ k ≤ (1 + ε) ^ 7 := pow_le_pow_right₀ (by linarith) hk
    exact mul_le_mul_of_nonneg_right (by linarith) hlimit
  exact {
    orderValue := fun limit hlimit =>
      (orderValue_le hn hpos hhalf hprice hlimit).trans
        (hfactor 4 (by decide) _ (configured_pos hlimit).le)
    cash := fun cash hcash => by
      have hbuffer := buffer_nonneg inputs
      apply (cash_le hn hpos hprice hside hcash).trans
      gcongr
    position := fun nav hnav pct hpct => by
      have hnavPos := configured_pos hnav
      have hpctPos := configured_pos hpct
      have hpow : (1 + ε) ^ 6 ≤ (1 + ε) ^ 7 := pow_le_pow_right₀ (by linarith) (by decide)
      apply (position_le hn hpos hprice hnav hpct).trans
      gcongr
      linarith
    orderQty := fun limit hlimit =>
      (orderQty_le hn hpos hlimit).trans (hfactor 2 (by decide) _ (configured_pos hlimit).le)
    participation := fun cap hcap =>
      (participation_le hn hpos hside hcap).2.trans
        (hfactor 2 (by decide) _ (participation_le hn hpos hside hcap).1.le)
    volume := fun volume hvolume hpct => by
      have hvolumePos := configured_pos hvolume
      exact (volumeShare_le hn hpos hside hvolumePos hpct (volumeCap_mem hvolume hpct)).trans
        (hfactor 4 (by decide) _ (by positivity))
    turnover := fun turnover hturnover hpct => by
      have hturnoverPos := configured_pos hturnover
      exact (turnoverShare_le hn hpos hside hprice hturnover hpct).trans
        (hfactor 5 (by decide) _ (by positivity))
    averageVolume := fun volume hvolume hpct => by
      have hvolumePos := configured_pos hvolume
      exact (volumeShare_le hn hpos hside hvolumePos hpct (averageCap_mem hvolume hpct)).trans
        (hfactor 4 (by decide) _ (by positivity))
    lots := fun lot hlot => calculateSizing_lots hn hpos hlot }

theorem calculateSizing_within_exact (column : ℚ → ℚ) {price : ℚ}
    (hprice : inputs.price = some price) (hside : inputs.side = .buy)
    (hpos : 0 < (calculateSizing ⟨id, column⟩ inputs).quantity) :
    WithinLimits ⟨id, column⟩ 0 inputs price (calculateSizing ⟨id, column⟩ inputs).quantity :=
  calculateSizing_within Rounds.id (by norm_num) (by norm_num) hprice hside hpos

/-- What the decimal context can add to a limit, relative to the amounts compared. -/
def contextSlack : ℚ := 4 / 10 ^ 27

/-- Under the decimal context. A limit that is absent or not positive is no limit. -/
theorem calculateSizing_within_limits (inputs : SizingInputs) (price : ℚ)
    (hprice : inputs.price = some price) (hside : inputs.side = .buy) :
    0 ≤ (calculateSizing inMemory inputs).quantity ∧
      (0 < (calculateSizing inMemory inputs).quantity →
        WithinLimits inMemory contextSlack inputs price
          (calculateSizing inMemory inputs).quantity) := by
  constructor
  · exact calculateSizing_nonneg inMemory inputs
  · intro hpos
    have hhalf : contextError ≤ 1 / 2 := by norm_num [contextError]
    have hslack : (1 + contextError) ^ 7 - 1 ≤ contextSlack := by
      norm_num [contextError, contextSlack]
    exact calculateSizing_within decimalContext_rounds hhalf hslack hprice hside hpos

/-- A market order against every kind of limit. -/
def limitedBuy : SizingInputs where
  decisionType := "BUY"
  side := .buy
  requestedQuantity := 10
  referencePrice := some 1000
  accumulatedIntradayVolume := some 2000
  accumulatedIntradayTurnover := some 900000
  averageDailyVolume20d := some 2300
  currentPositionQty := some 10
  currentPositionAvgPrice := some 1000
  orderableAmount := some 1000000
  nav := some 1000000
  maxSinglePositionPct := some 6
  minCashBufferPct := some 10
  maxOrderValue := some 150000
  maxOrderQty := some 120
  lotSize := some 10

theorem calculateSizing_within_limits_limitedBuy :
    (calculateSizing inMemory limitedBuy).quantity = 40 ∧
      0 ≤ (calculateSizing inMemory limitedBuy).quantity ∧
      (0 < (calculateSizing inMemory limitedBuy).quantity →
        WithinLimits inMemory contextSlack limitedBuy 1000
          (calculateSizing inMemory limitedBuy).quantity) :=
  ⟨by decide +kernel, calculateSizing_within_limits limitedBuy 1000 (by decide +kernel) rfl⟩

/-- A purchase of an account without net assets. -/
def withoutNav : SizingInputs where
  decisionType := "BUY"
  side := .buy
  requestedQuantity := 100
  requestedPrice := some 1000
  nav := some 0
  maxSinglePositionPct := some 10

/-- A limit with more digits than the context keeps. -/
def longLimit : SizingInputs where
  decisionType := "BUY"
  side := .buy
  requestedQuantity := 2 * 10 ^ 28
  requestedPrice := some 1
  maxOrderValue := some (10 ^ 28 - 2 / 5)

/-- Read as it stands, the share of the net assets is exceeded when there are none, and the
order value by the rounding of the limit. -/
theorem limits_exceeded :
    (withoutNav.price = some 1000 ∧ withoutNav.nav = some 0 ∧
        withoutNav.maxSinglePositionPct = some 10 ∧
        0 < (calculateSizing inMemory withoutNav).quantity ∧
        ¬withoutNav.positionValue + 1000 * (calculateSizing inMemory withoutNav).quantity ≤
          0 * 10 / 100) ∧
      longLimit.price = some 1 ∧ longLimit.maxOrderValue = some (10 ^ 28 - 2 / 5) ∧
        0 < (calculateSizing inMemory longLimit).quantity ∧
        ¬1 * (calculateSizing inMemory longLimit).quantity ≤ 10 ^ 28 - 2 / 5 := by
  decide +kernel

end AgentTrading.Sizing
