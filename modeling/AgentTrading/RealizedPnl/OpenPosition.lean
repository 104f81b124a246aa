import AgentTrading.RealizedPnl.Conservation

/-! The purchases that an open position was made of: those since it was last zero. What the engine
summarises of them in one row, it summarises exactly. -/
namespace AgentTrading.RealizedPnl
open Domain Library

/-- A position and the purchases since it was last zero. -/
structure OpenPosition where
  quantity : ℚ := 0
  buys : List NormalizedFill := []

/-- A flat position forgets its purchases. -/
def OpenPosition.next (n : Numerics) (p : OpenPosition) (fill : NormalizedFill) : OpenPosition :=
  let quantity := match fill.side with
    | .buy => if p.quantity = 0 then fill.quantity else n.add p.quantity fill.quantity
    | .sell => n.sub p.quantity fill.quantity
  { quantity := quantity
    buys := if quantity = 0 then []
      else match fill.side with
        | .buy => p.buys ++ [fill]
        | .sell => p.buys }

def openPosition (n : Numerics) (fills : List NormalizedFill) : OpenPosition :=
  fills.foldl (·.next n) {}

theorem openPosition_concat (n : Numerics) (fills : List NormalizedFill) (fill : NormalizedFill) :
    openPosition n (fills ++ [fill]) = (openPosition n fills).next n fill := by
  simp [openPosition]

section
variable {n : Numerics} {deriveEventId : UUID → UUID}

theorem replayFills_keeps {I : Option PositionCostBasisStateEntity → OpenPosition → Prop}
    (hstart : I none {})
    (hstep : ∀ state p fill runId state' event, I state p →
      applyFillToCostBasis n deriveEventId state fill runId = .ok (state', event) →
      I (some state') (p.next n fill))
    {fills : List NormalizedFill} {runId : UUID} {result : ReplayResult}
    (h : replayFills n deriveEventId fills runId = .ok result) :
    I result.finalState (openPosition n fills) := by
  induction fills using List.reverseRecOn generalizing result with
  | nil =>
    cases h
    exact hstart
  | append_singleton fills fill ih =>
    obtain ⟨before, state, event, hbefore, -, happly, rfl⟩ := replayFills_concat h
    rw [openPosition_concat]
    exact hstep _ _ _ _ _ _ (ih hbefore) happly

theorem applyBuy_flat {state : Option PositionCostBasisStateEntity} (fill : NormalizedFill)
    (h : quantityOf state = 0) :
    applyBuy n state fill = appliedState fill fill.quantity fill.price fill.fee
      (freshEntryProvenance (classifyFeeTaxSourceForPool fill.feeTaxSource)) := by
  have hheld : held state = none := by
    cases state with
    | none => rfl
    | some row => simpa [held] using h
  rw [applyBuy, hheld]

theorem applyBuy_open {row : PositionCostBasisStateEntity} (fill : NormalizedFill)
    (h : row.quantity ≠ 0) :
    applyBuy n (some row) fill = appliedState fill (n.add row.quantity fill.quantity)
      (n.div (n.add (n.mul row.quantity row.averageCost) (n.mul fill.quantity fill.price))
        (n.add row.quantity fill.quantity))
      (n.add row.remainingBuyFeePool fill.fee)
      (mergeBuyFeePoolProvenance row.buyFeePoolProvenance fill.feeTaxSource) := by
  have hheld : held (some row) = some row := by simpa [held] using h
  rw [applyBuy, hheld]

/-- What a sale writes, beside the fees. -/
structure SaleOf (n : Numerics) (row : PositionCostBasisStateEntity) (fill : NormalizedFill)
    (state : PositionCostBasisStateEntity) (event : RealizedPnlEventEntity) : Prop where
  position : row.quantity ≠ 0
  quantity : state.quantity = n.sub row.quantity fill.quantity
  covered : fill.quantity ≤ row.quantity
  averageCost : state.quantity ≠ 0 → state.averageCost = row.averageCost
  provenance : state.buyFeePoolProvenance = row.buyFeePoolProvenance
  fill : event.fillEventId = fill.fillEventId
  costBefore : event.avgCostBasisBefore = row.averageCost
  provenanceBefore : event.buyFeeAllocationSource = row.buyFeePoolProvenance

theorem applySell_sale {state : Option PositionCostBasisStateEntity} {fill : NormalizedFill}
    {runId : UUID} {state' : PositionCostBasisStateEntity} {event : RealizedPnlEventEntity}
    (h : applySell n deriveEventId state fill runId = .ok (state', event)) :
    ∃ row, state = some row ∧ SaleOf n row fill state' event := by
  unfold applySell at h
  split at h
  · contradiction
  next row hrow =>
    obtain ⟨rfl, hne⟩ := held_eq_some hrow
    dsimp only at h
    split at h
    · contradiction
    next hcovered =>
      rw [not_or, gt_iff_lt, not_lt] at hcovered
      cases h
      exact ⟨row, rfl, hne, rfl, hcovered.1, fun hopen => if_neg hopen, rfl, rfl, rfl, rfl⟩

theorem applyFillToCostBasis_cases {state : Option PositionCostBasisStateEntity}
    {fill : NormalizedFill} {runId : UUID} {state' : PositionCostBasisStateEntity}
    {event : Option RealizedPnlEventEntity}
    (h : applyFillToCostBasis n deriveEventId state fill runId = .ok (state', event)) :
    Valid fill ∧ (fill.side = .buy ∧ event = none ∧ state' = applyBuy n state fill ∨
      fill.side = .sell ∧ ∃ row sale, state = some row ∧ event = some sale ∧
        SaleOf n row fill state' sale) := by
  obtain ⟨hvalid, hbuys, hsells⟩ := applyFillToCostBasis_side h
  refine ⟨hvalid, ?_⟩
  cases hside : fill.side with
  | buy =>
    obtain ⟨rfl, rfl⟩ := hbuys hside
    exact Or.inl ⟨rfl, rfl, rfl⟩
  | sell =>
    obtain ⟨e, rfl, hsell⟩ := hsells hside
    obtain ⟨row, rfl, hsale⟩ := applySell_sale hsell
    exact Or.inr ⟨rfl, row, e, rfl, rfl, hsale⟩

/-- The quantity of the row is the position, whatever is rounded. -/
theorem replayFills_quantity {fills : List NormalizedFill} {runId : UUID} {result : ReplayResult}
    (h : replayFills n deriveEventId fills runId = .ok result) :
    quantityOf result.finalState = (openPosition n fills).quantity := by
  apply replayFills_keeps (I := fun state p => quantityOf state = p.quantity) rfl _ h
  intro state p fill runId state' event hp happly
  rcases (applyFillToCostBasis_cases happly).2 with
    ⟨hside, -, rfl⟩ | ⟨hside, row, sale, rfl, -, hsale⟩
  · by_cases hzero : p.quantity = 0
    · rw [applyBuy_flat fill (hp.trans hzero)]
      simp [OpenPosition.next, hside, hzero, appliedState]
    · cases state with
      | none => exact (hzero hp.symm).elim
      | some row =>
        have hrow : row.quantity = p.quantity := hp
        rw [applyBuy_open fill (hrow ▸ hzero), hrow]
        simp [OpenPosition.next, hside, hzero, appliedState]
  · have hrow : row.quantity = p.quantity := hp
    simp [OpenPosition.next, hside, hsale.quantity, hrow]

theorem openPosition_flat (fills : List NormalizedFill)
    (h : (openPosition n fills).quantity = 0) : (openPosition n fills).buys = [] := by
  induction fills using List.reverseRecOn with
  | nil => rfl
  | append_singleton fills fill ih =>
    rw [openPosition_concat] at h ⊢
    exact if_pos h

theorem next_buys_of_buy {p : OpenPosition} {fill : NormalizedFill} (hside : fill.side = .buy)
    (h : (p.next n fill).quantity ≠ 0) : (p.next n fill).buys = p.buys ++ [fill] := by
  have hbuys : (p.next n fill).buys = if (p.next n fill).quantity = 0 then []
      else match fill.side with
        | .buy => p.buys ++ [fill]
        | .sell => p.buys := rfl
  rw [hbuys, if_neg h, hside]

theorem next_buys_of_sell {p : OpenPosition} {fill : NormalizedFill} (hside : fill.side = .sell)
    (h : (p.next n fill).quantity ≠ 0) : (p.next n fill).buys = p.buys := by
  have hbuys : (p.next n fill).buys = if (p.next n fill).quantity = 0 then []
      else match fill.side with
        | .buy => p.buys ++ [fill]
        | .sell => p.buys := rfl
  rw [hbuys, if_neg h, hside]

/-- A property of the row and of the purchases it was made of, which a purchase into nothing starts
and every other fill keeps while the position is open. -/
structure Summarises (n : Numerics) (deriveEventId : UUID → UUID)
    (S : List NormalizedFill → PositionCostBasisStateEntity → Prop) : Prop where
  fresh : ∀ state fill, quantityOf state = 0 → Valid fill → S [fill] (applyBuy n state fill)
  more : ∀ row fill buys, row.quantity ≠ 0 → S buys row → Valid fill →
    S (buys ++ [fill]) (applyBuy n (some row) fill)
  sale : ∀ row fill buys state event, S buys row → SaleOf n row fill state event →
    state.quantity ≠ 0 → S buys state

theorem Summarises.replay {S : List NormalizedFill → PositionCostBasisStateEntity → Prop}
    (hS : Summarises n deriveEventId S) {fills : List NormalizedFill} {runId : UUID}
    {result : ReplayResult} (h : replayFills n deriveEventId fills runId = .ok result)
    {row : PositionCostBasisStateEntity} (hrow : result.finalState = some row)
    (hopen : row.quantity ≠ 0) : S (openPosition n fills).buys row := by
  induction fills using List.reverseRecOn generalizing result row with
  | nil =>
    cases h
    cases hrow
  | append_singleton fills fill ih =>
    have hquantity := replayFills_quantity h
    obtain ⟨before, state, event, hbefore, -, happly, rfl⟩ := replayFills_concat h
    obtain rfl := Option.some.inj hrow
    have hposition := replayFills_quantity hbefore
    rw [openPosition_concat] at hquantity ⊢
    have hnext : ((openPosition n fills).next n fill).quantity ≠ 0 := hquantity ▸ hopen
    obtain ⟨hvalid, ⟨hside, -, rfl⟩ | ⟨hside, row, sale, hrow, -, hsale⟩⟩ :=
      applyFillToCostBasis_cases happly
    · rw [next_buys_of_buy hside hnext]
      by_cases hzero : quantityOf before.finalState = 0
      · rw [openPosition_flat fills (hposition ▸ hzero)]
        exact hS.fresh _ _ hzero hvalid
      · cases hstate : before.finalState with
        | none =>
          rw [hstate] at hzero
          exact (hzero rfl).elim
        | some row =>
          rw [hstate] at hzero
          exact hS.more row fill _ hzero (ih hbefore hstate hzero) hvalid
    · rw [next_buys_of_sell hside hnext]
      exact hS.sale row fill _ _ sale (ih hbefore hrow hsale.position) hsale hopen

/-- What summarises the purchases does so after every prefix of a replay, and at every sale for the
row that is sold from. -/
theorem Summarises.throughout {S : List NormalizedFill → PositionCostBasisStateEntity → Prop}
    (hS : Summarises n deriveEventId S) {fills : List NormalizedFill} {runId : UUID}
    {result : ReplayResult} (h : replayFills n deriveEventId fills runId = .ok result) :
    (∀ taken rest, fills = taken ++ rest → ∃ before,
        replayFills n deriveEventId taken runId = .ok before ∧
          (0 < quantityOf before.finalState → ∃ row, before.finalState = some row ∧
            S (openPosition n taken).buys row)) ∧
      ∀ taken fill rest, fills = taken ++ fill :: rest → fill.side = .sell →
        ∃ before row state sale, replayFills n deriveEventId taken runId = .ok before ∧
          before.finalState = some row ∧ SaleOf n row fill state sale ∧
          result.realizedPnlEvents[before.realizedPnlEvents.length]? = some sale ∧
          S (openPosition n taken).buys row := by
  constructor
  · intro taken rest hfills
    obtain ⟨before, hbefore⟩ := replayFills_before h hfills
    refine ⟨before, hbefore, fun hpos => ?_⟩
    cases hstate : before.finalState with
    | none =>
      rw [hstate] at hpos
      exact (lt_irrefl 0 hpos).elim
    | some row =>
      rw [hstate] at hpos
      exact ⟨row, rfl, hS.replay hbefore hstate hpos.ne'⟩
  · intro taken fill rest hfills hside
    obtain ⟨before, state, event, more, hbefore, happly, hevents⟩ := replayFills_at h hfills
    obtain ⟨-, ⟨hbuy, -⟩ | ⟨-, row, sale, hrow, rfl, hsale⟩⟩ := applyFillToCostBasis_cases happly
    · rw [hside] at hbuy
      cases hbuy
    · refine ⟨before, row, state, sale, hbefore, hrow, hsale, ?_, ?_⟩
      · simp [hevents]
      · exact hS.replay hbefore hrow hsale.position

end

/-- Between the lowest and the highest price of the purchases. -/
def BetweenPrices (buys : List NormalizedFill) (cost : ℚ) : Prop :=
  ∃ low ∈ buys, ∃ high ∈ buys, low.price ≤ cost ∧ cost ≤ high.price

theorem BetweenPrices.append {buys : List NormalizedFill} {cost : ℚ} (h : BetweenPrices buys cost)
    (fill : NormalizedFill) {average : ℚ}
    (haverage : min cost fill.price ≤ average ∧ average ≤ max cost fill.price) :
    BetweenPrices (buys ++ [fill]) average := by
  obtain ⟨low, hlow, high, hhigh, hle, hge⟩ := h
  have hfill : fill ∈ buys ++ [fill] := List.mem_append_right _ (List.mem_singleton_self fill)
  have hlow' : ∃ low ∈ buys ++ [fill], low.price ≤ average := by
    rcases min_le_iff.mp haverage.1 with hcost | hprice
    · exact ⟨low, List.mem_append_left _ hlow, hle.trans hcost⟩
    · exact ⟨fill, hfill, hprice⟩
  have hhigh' : ∃ high ∈ buys ++ [fill], average ≤ high.price := by
    rcases le_max_iff.mp haverage.2 with hcost | hprice
    · exact ⟨high, List.mem_append_left _ hhigh, hcost.trans hge⟩
    · exact ⟨fill, hfill, hprice⟩
  obtain ⟨low', hlow', hbelow⟩ := hlow'
  obtain ⟨high', hhigh', habove⟩ := hhigh'
  exact ⟨low', hlow', high', hhigh', hbelow, habove⟩

theorem weightedAverage_between {q r a b : ℚ} (hq : 0 ≤ q) (hr : 0 < r) :
    min a b ≤ (q * a + r * b) / (q + r) ∧ (q * a + r * b) / (q + r) ≤ max a b := by
  have hpos : 0 < q + r := by linarith
  constructor
  · rw [le_div_iff₀ hpos, mul_add, mul_comm, mul_comm (min a b) r]
    exact add_le_add (mul_le_mul_of_nonneg_left (min_le_left a b) hq)
      (mul_le_mul_of_nonneg_left (min_le_right a b) hr.le)
  · rw [div_le_iff₀ hpos, mul_add, mul_comm (max a b) q, mul_comm (max a b) r]
    exact add_le_add (mul_le_mul_of_nonneg_left (le_max_left a b) hq)
      (mul_le_mul_of_nonneg_left (le_max_right a b) hr.le)

theorem averageCost_summarises (deriveEventId : UUID → UUID) :
    Summarises exact deriveEventId fun buys row =>
      0 ≤ row.quantity ∧ BetweenPrices buys row.averageCost where
  fresh := by
    intro state fill hzero hvalid
    rw [applyBuy_flat fill hzero]
    have hmem := List.mem_singleton_self fill
    exact ⟨hvalid.quantity.le, fill, hmem, fill, hmem, le_refl _, le_refl _⟩
  more := by
    rintro row fill buys hopen ⟨hquantity, hbetween⟩ hvalid
    rw [applyBuy_open fill hopen]
    refine ⟨add_nonneg hquantity hvalid.quantity.le, hbetween.append fill ?_⟩
    exact weightedAverage_between hquantity hvalid.quantity
  sale := by
    rintro row fill buys state event ⟨hquantity, hbetween⟩ hsale hopen
    rw [hsale.quantity, hsale.averageCost hopen]
    exact ⟨sub_nonneg.mpr hsale.covered, hbetween⟩

/-- While the position is positive, its average cost lies between the prices of the purchases since
it was last zero, and so does the cost that each sale was charged. -/
theorem replayFills_averageCost_between (deriveEventId : UUID → UUID) (fills : List NormalizedFill)
    (runId : UUID) (result : ReplayResult)
    (h : replayFills exact deriveEventId fills runId = .ok result) :
    (∀ taken rest, fills = taken ++ rest → ∃ before,
        replayFills exact deriveEventId taken runId = .ok before ∧
          (0 < quantityOf before.finalState →
            BetweenPrices (openPosition exact taken).buys (averageCostOf before.finalState))) ∧
      ∀ taken fill rest, fills = taken ++ fill :: rest → fill.side = .sell →
        ∃ before sale, replayFills exact deriveEventId taken runId = .ok before ∧
          result.realizedPnlEvents[before.realizedPnlEvents.length]? = some sale ∧
          sale.fillEventId = fill.fillEventId ∧
          BetweenPrices (openPosition exact taken).buys sale.avgCostBasisBefore := by
  obtain ⟨hprior, hsales⟩ := (averageCost_summarises deriveEventId).throughout h
  constructor
  · intro taken rest hfills
    obtain ⟨before, hbefore, hopen⟩ := hprior taken rest hfills
    refine ⟨before, hbefore, fun hpos => ?_⟩
    obtain ⟨row, hrow, -, hbetween⟩ := hopen hpos
    rw [hrow]
    exact hbetween
  · intro taken fill rest hfills hside
    obtain ⟨before, row, state, sale, hbefore, -, hsale, hevent, -, hbetween⟩ :=
      hsales taken fill rest hfills hside
    refine ⟨before, sale, hbefore, hevent, hsale.fill, ?_⟩
    rw [hsale.costBefore]
    exact hbetween

theorem replayFills_averageCost_between_roundTrip :
    (∀ taken rest, roundTrip = taken ++ rest → ∃ before,
        replayFills exact id taken 7 = .ok before ∧
          (0 < quantityOf before.finalState →
            BetweenPrices (openPosition exact taken).buys (averageCostOf before.finalState))) ∧
      ∀ taken fill rest, roundTrip = taken ++ fill :: rest → fill.side = .sell →
        ∃ before sale, replayFills exact id taken 7 = .ok before ∧
          roundTripReplay.realizedPnlEvents[before.realizedPnlEvents.length]? = some sale ∧
          sale.fillEventId = fill.fillEventId ∧
          BetweenPrices (openPosition exact taken).buys sale.avgCostBasisBefore :=
  replayFills_averageCost_between id roundTrip 7 roundTripReplay roundTrip_accepted

def AllCalculated (buys : List NormalizedFill) : Prop :=
  ∀ fill ∈ buys, fill.feeTaxSource = .calculatedFromPolicy ∨ fill.feeTaxSource = .reported

def AllEstimated (buys : List NormalizedFill) : Prop :=
  ∀ fill ∈ buys, fill.feeTaxSource = .historicalPolicyEstimate

def AllAssumed (buys : List NormalizedFill) : Prop :=
  ∀ fill ∈ buys, fill.feeTaxSource = .assumedZero ∨ fill.feeTaxSource = .policyNotApplicable

/-- The provenance says what the purchases have in common. -/
structure ProvenanceExact (buys : List NormalizedFill) (provenance : BuyFeeAllocationSource) :
    Prop where
  calculated : provenance = .fullyCalculated ↔ AllCalculated buys
  estimated : provenance = .historicallyEstimated ↔ AllEstimated buys
  assumed : provenance = .fullyAssumedZero ↔ AllAssumed buys
  mixed : provenance = .partiallyAssumedZero ↔
    ¬ AllCalculated buys ∧ ¬ AllEstimated buys ∧ ¬ AllAssumed buys

theorem allCalculated_concat (buys : List NormalizedFill) (fill : NormalizedFill) :
    AllCalculated (buys ++ [fill]) ↔ AllCalculated buys ∧
      classifyFeeTaxSourceForPool fill.feeTaxSource = .calculatedIsh := by
  have hbucket : (fill.feeTaxSource = .calculatedFromPolicy ∨ fill.feeTaxSource = .reported) ↔
      classifyFeeTaxSourceForPool fill.feeTaxSource = .calculatedIsh := by
    cases fill.feeTaxSource <;> decide
  simp only [AllCalculated, List.forall_mem_append, List.forall_mem_singleton, hbucket]

theorem allEstimated_concat (buys : List NormalizedFill) (fill : NormalizedFill) :
    AllEstimated (buys ++ [fill]) ↔ AllEstimated buys ∧
      classifyFeeTaxSourceForPool fill.feeTaxSource = .historicalIsh := by
  have hbucket : fill.feeTaxSource = .historicalPolicyEstimate ↔
      classifyFeeTaxSourceForPool fill.feeTaxSource = .historicalIsh := by
    cases fill.feeTaxSource <;> decide
  simp only [AllEstimated, List.forall_mem_append, List.forall_mem_singleton, hbucket]

theorem allAssumed_concat (buys : List NormalizedFill) (fill : NormalizedFill) :
    AllAssumed (buys ++ [fill]) ↔ AllAssumed buys ∧
      classifyFeeTaxSourceForPool fill.feeTaxSource = .zeroIsh := by
  have hbucket : (fill.feeTaxSource = .assumedZero ∨ fill.feeTaxSource = .policyNotApplicable) ↔
      classifyFeeTaxSourceForPool fill.feeTaxSource = .zeroIsh := by
    cases fill.feeTaxSource <;> decide
  simp only [AllAssumed, List.forall_mem_append, List.forall_mem_singleton, hbucket]

/-- One of three exclusive conditions holds of the purchases, or none, as the provenance says. -/
theorem provenanceExact_iff {buys : List NormalizedFill} {provenance : BuyFeeAllocationSource} :
    ProvenanceExact buys provenance ↔ match provenance with
      | .fullyCalculated => AllCalculated buys ∧ ¬ AllEstimated buys ∧ ¬ AllAssumed buys
      | .historicallyEstimated => ¬ AllCalculated buys ∧ AllEstimated buys ∧ ¬ AllAssumed buys
      | .fullyAssumedZero => ¬ AllCalculated buys ∧ ¬ AllEstimated buys ∧ AllAssumed buys
      | .partiallyAssumedZero => ¬ AllCalculated buys ∧ ¬ AllEstimated buys ∧
          ¬ AllAssumed buys := by
  constructor
  · rintro ⟨hcalculated, hestimated, hassumed, -⟩
    rw [← hcalculated, ← hestimated, ← hassumed]
    cases provenance <;> decide
  · cases provenance <;>
    · rintro ⟨hcalculated, hestimated, hassumed⟩
      constructor <;> simp [hcalculated, hestimated, hassumed]

theorem freshEntryProvenance_exact (fill : NormalizedFill) :
    ProvenanceExact [fill]
      (freshEntryProvenance (classifyFeeTaxSourceForPool fill.feeTaxSource)) := by
  have hcalculated := allCalculated_concat [] fill
  have hestimated := allEstimated_concat [] fill
  have hassumed := allAssumed_concat [] fill
  rw [List.nil_append] at hcalculated hestimated hassumed
  rw [provenanceExact_iff, hcalculated, hestimated, hassumed]
  cases classifyFeeTaxSourceForPool fill.feeTaxSource <;>
    simp [freshEntryProvenance, AllCalculated, AllEstimated, AllAssumed]

theorem mergeBuyFeePoolProvenance_exact {buys : List NormalizedFill}
    {provenance : BuyFeeAllocationSource} (h : ProvenanceExact buys provenance)
    (fill : NormalizedFill) :
    ProvenanceExact (buys ++ [fill]) (mergeBuyFeePoolProvenance provenance fill.feeTaxSource) := by
  rw [provenanceExact_iff] at h
  rw [provenanceExact_iff, allCalculated_concat, allEstimated_concat, allAssumed_concat]
  unfold mergeBuyFeePoolProvenance
  cases provenance <;> cases classifyFeeTaxSourceForPool fill.feeTaxSource <;>
  · obtain ⟨hcalculated, hestimated, hassumed⟩ := h
    simp [hcalculated, hestimated, hassumed]

theorem provenance_summarises (n : Numerics) (deriveEventId : UUID → UUID) :
    Summarises n deriveEventId fun buys row => ProvenanceExact buys row.buyFeePoolProvenance where
  fresh := by
    intro state fill hzero _
    rw [applyBuy_flat fill hzero]
    exact freshEntryProvenance_exact fill
  more := by
    intro row fill buys hopen hexact _
    rw [applyBuy_open fill hopen]
    exact mergeBuyFeePoolProvenance_exact hexact fill
  sale := by
    intro row fill buys state event hexact hsale _
    rw [hsale.provenance]
    exact hexact

/-- While the position is positive, its provenance is exact for the purchases since it was last
zero, and each sale carries the provenance in force before it. -/
theorem replayFills_provenance_exact (n : Numerics) (deriveEventId : UUID → UUID)
    (fills : List NormalizedFill) (runId : UUID) (result : ReplayResult)
    (h : replayFills n deriveEventId fills runId = .ok result) :
    (∀ taken rest, fills = taken ++ rest → ∃ before,
        replayFills n deriveEventId taken runId = .ok before ∧
          (0 < quantityOf before.finalState → ∃ row, before.finalState = some row ∧
            ProvenanceExact (openPosition n taken).buys row.buyFeePoolProvenance)) ∧
      ∀ taken fill rest, fills = taken ++ fill :: rest → fill.side = .sell →
        ∃ before row sale, replayFills n deriveEventId taken runId = .ok before ∧
          before.finalState = some row ∧
          result.realizedPnlEvents[before.realizedPnlEvents.length]? = some sale ∧
          sale.fillEventId = fill.fillEventId ∧
          sale.buyFeeAllocationSource = row.buyFeePoolProvenance ∧
          ProvenanceExact (openPosition n taken).buys sale.buyFeeAllocationSource := by
  obtain ⟨hprior, hsales⟩ := (provenance_summarises n deriveEventId).throughout h
  refine ⟨hprior, ?_⟩
  intro taken fill rest hfills hside
  obtain ⟨before, row, state, sale, hbefore, hrow, hsale, hevent, hexact⟩ :=
    hsales taken fill rest hfills hside
  refine ⟨before, row, sale, hbefore, hrow, hevent, hsale.fill, hsale.provenanceBefore, ?_⟩
  rw [hsale.provenanceBefore]
  exact hexact

/-- The round trip with a purchase of every bucket: calculated and estimated fees before the first
sale, an assumed zero in the new position. -/
def mixedFees : List NormalizedFill :=
  let sources : List FeeTaxSource := [.reported, .historicalPolicyEstimate, .calculatedFromPolicy,
    .reported, .policyNotApplicable]
  List.zipWith (fun fill source => { fill with feeTaxSource := source }) roundTrip sources

def mixedFeesReplay : ReplayResult :=
  (replayFills exact id mixedFees 7).toOption.getD ⟨none, []⟩

theorem mixedFees_accepted : replayFills exact id mixedFees 7 = .ok mixedFeesReplay := by
  decide +kernel

theorem replayFills_provenance_exact_mixedFees :
    (∀ taken rest, mixedFees = taken ++ rest → ∃ before,
        replayFills exact id taken 7 = .ok before ∧
          (0 < quantityOf before.finalState → ∃ row, before.finalState = some row ∧
            ProvenanceExact (openPosition exact taken).buys row.buyFeePoolProvenance)) ∧
      ∀ taken fill rest, mixedFees = taken ++ fill :: rest → fill.side = .sell →
        ∃ before row sale, replayFills exact id taken 7 = .ok before ∧
          before.finalState = some row ∧
          mixedFeesReplay.realizedPnlEvents[before.realizedPnlEvents.length]? = some sale ∧
          sale.fillEventId = fill.fillEventId ∧
          sale.buyFeeAllocationSource = row.buyFeePoolProvenance ∧
          ProvenanceExact (openPosition exact taken).buys sale.buyFeeAllocationSource :=
  replayFills_provenance_exact exact id mixedFees 7 mixedFeesReplay mixedFees_accepted

end AgentTrading.RealizedPnl
