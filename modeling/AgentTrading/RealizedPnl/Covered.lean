import AgentTrading.RealizedPnl.Conservation

/-! When a replay from nothing raises no error: every fill passes its checks, and the purchases
cover the sales at every point. -/
namespace AgentTrading.RealizedPnl
open Domain Library

def signedQuantity (fill : NormalizedFill) : ℚ :=
  match fill.side with
  | .buy => fill.quantity
  | .sell => -fill.quantity

/-- The position that the fills leave. -/
def positionAfter (fills : List NormalizedFill) : ℚ := (fills.map signedQuantity).sum

/-- No sale exceeds what is held before it. -/
def Covered (heldBefore : ℚ) (fills : List NormalizedFill) : Prop :=
  ∀ before, before <+: fills → 0 ≤ heldBefore + positionAfter before

@[simp] theorem positionAfter_nil : positionAfter [] = 0 := rfl

@[simp] theorem positionAfter_cons (fill : NormalizedFill) (fills : List NormalizedFill) :
    positionAfter (fill :: fills) = signedQuantity fill + positionAfter fills := by
  simp [positionAfter]

theorem covered_nil (heldBefore : ℚ) : Covered heldBefore [] ↔ 0 ≤ heldBefore := by
  simp [Covered]

theorem covered_cons (heldBefore : ℚ) (fill : NormalizedFill) (fills : List NormalizedFill) :
    Covered heldBefore (fill :: fills) ↔
      0 ≤ heldBefore ∧ Covered (heldBefore + signedQuantity fill) fills := by
  constructor
  · intro h
    constructor
    · simpa using h [] List.nil_prefix
    · intro before hbefore
      have hlonger := h (fill :: before) (List.cons_prefix_cons.mpr ⟨rfl, hbefore⟩)
      rwa [positionAfter_cons, ← add_assoc] at hlonger
  · rintro ⟨hnow, hlater⟩ before hbefore
    cases before with
    | nil => simpa using hnow
    | cons first before =>
      obtain ⟨rfl, hrest⟩ := List.cons_prefix_cons.mp hbefore
      rw [positionAfter_cons, ← add_assoc]
      exact hlater before hrest

theorem Covered.start {heldBefore : ℚ} {fills : List NormalizedFill}
    (h : Covered heldBefore fills) : 0 ≤ heldBefore := by
  simpa using h [] List.nil_prefix

theorem covered_zero_iff (fills : List NormalizedFill) :
    Covered 0 fills ↔
      ∀ before, before <+: fills.map signedQuantity → 0 ≤ before.sum := by
  simp only [Covered, zero_add, List.prefix_map_iff]
  constructor
  · rintro h _ ⟨before, hbefore, rfl⟩
    exact h before hbefore
  · intro h before hbefore
    exact h _ ⟨before, hbefore, rfl⟩

theorem validateFill_ok_iff (fill : NormalizedFill) :
    validateFill fill = .ok () ↔ 0 < fill.quantity ∧ 0 ≤ fill.price ∧
      (0 ≤ fill.fee ∧ 0 ≤ fill.tax) ∧
      (fill.feeTaxSource = .assumedZero → fill.fee = 0 ∧ fill.tax = 0) := by
  unfold validateFill
  by_cases hquantity : fill.quantity ≤ 0
  · simp [hquantity, not_lt.mpr hquantity]
  by_cases hprice : fill.price < 0
  · simp [hquantity, hprice]
  by_cases hcharges : fill.fee < 0 ∨ fill.tax < 0
  · rw [if_neg hquantity, if_neg hprice, if_pos hcharges]
    simp only [reduceCtorEq, false_iff]
    rintro ⟨-, -, ⟨hfee, htax⟩, -⟩
    exact hcharges.elim hfee.not_gt htax.not_gt
  rw [if_neg hquantity, if_neg hprice, if_neg hcharges]
  simp only [not_or, not_lt] at hcharges
  simp only [not_le.mp hquantity, not_lt.mp hprice, hcharges.1, hcharges.2, true_and]
  by_cases hsource : fill.feeTaxSource = .assumedZero
  · by_cases hzero : fill.fee = 0 ∧ fill.tax = 0
    · simp [hzero]
    · simp only [hsource, true_and, forall_const, hzero, iff_false]
      rw [if_pos (not_and_or.mp hzero)]
      simp
  · simp [hsource]

section
variable (deriveEventId : UUID → UUID) (state : Option PositionCostBasisStateEntity)
  {fill : NormalizedFill} (runId : UUID)

theorem quantityOf_applyBuy (state : Option PositionCostBasisStateEntity) (fill : NormalizedFill) :
    (applyBuy exact state fill).quantity = quantityOf state + fill.quantity := by
  unfold applyBuy
  cases hheld : held state with
  | none => simp [appliedState, held_eq_none hheld]
  | some row =>
    obtain ⟨rfl, -⟩ := held_eq_some hheld
    simp [appliedState]

theorem applySell_ok (hquantity : 0 < fill.quantity) :
    (fill.quantity ≤ quantityOf state ∧ ∃ row event,
      applySell exact deriveEventId state fill runId = .ok (row, event) ∧
        row.quantity = quantityOf state - fill.quantity) ∨
    (quantityOf state < fill.quantity ∧ ∃ error,
      applySell exact deriveEventId state fill runId = .error error) := by
  unfold applySell
  cases hheld : held state with
  | none =>
    right
    rw [held_eq_none hheld]
    exact ⟨hquantity, _, rfl⟩
  | some row =>
    obtain ⟨rfl, -⟩ := held_eq_some hheld
    simp only [quantityOf_some, exact_sub, sub_neg, gt_iff_lt, or_self]
    by_cases hshort : row.quantity < fill.quantity
    · right
      rw [if_pos hshort]
      exact ⟨hshort, _, rfl⟩
    · left
      rw [if_neg hshort]
      exact ⟨not_lt.mp hshort, _, _, rfl, rfl⟩

theorem applyFillToCostBasis_ok (hvalid : validateFill fill = .ok ())
    (hheld : 0 ≤ quantityOf state) :
    (0 ≤ quantityOf state + signedQuantity fill ∧ ∃ row event,
      applyFillToCostBasis exact deriveEventId state fill runId = .ok (row, event) ∧
        row.quantity = quantityOf state + signedQuantity fill) ∨
    (quantityOf state + signedQuantity fill < 0 ∧ ∃ error,
      applyFillToCostBasis exact deriveEventId state fill runId = .error error) := by
  have hquantity := (validateFill_ok hvalid).quantity
  unfold applyFillToCostBasis
  rw [hvalid]
  cases hside : fill.side with
  | buy =>
    left
    simp only [signedQuantity, hside]
    constructor
    · exact add_nonneg hheld hquantity.le
    · exact ⟨_, _, rfl, quantityOf_applyBuy state fill⟩
  | sell =>
    simp only [signedQuantity, hside, ← sub_eq_add_neg]
    rcases applySell_ok deriveEventId state runId hquantity with
      ⟨hcovered, row, event, happly, hrow⟩ | ⟨hshort, error, happly⟩
    · left
      exact ⟨sub_nonneg.mpr hcovered, row, some event, by rw [happly]; rfl, hrow⟩
    · right
      exact ⟨sub_neg.mpr hshort, error, by rw [happly]; rfl⟩

theorem applyFillToCostBasis_invalid (h : validateFill fill ≠ .ok ()) :
    ∃ error, applyFillToCostBasis exact deriveEventId state fill runId = .error error := by
  unfold applyFillToCostBasis
  cases hvalid : validateFill fill with
  | error e => exact ⟨e, rfl⟩
  | ok u => exact (h hvalid).elim

/-- What a replay reaches, from a position that is not short, over fills in the order of time. -/
theorem replayLoop_ok_iff {previous : Option Time} {acc : ReplayResult}
    {fills : List NormalizedFill} (hheld : 0 ≤ quantityOf acc.finalState)
    (hprevious : ∀ time ∈ previous, ∀ fill ∈ fills, time ≤ fill.fillTimestamp)
    (hordered : fills.Pairwise fun a b => a.fillTimestamp ≤ b.fillTimestamp) :
    (∃ result, replayLoop exact deriveEventId runId previous acc fills = .ok result ∧
        quantityOf result.finalState = quantityOf acc.finalState + positionAfter fills) ↔
      (∀ fill ∈ fills, validateFill fill = .ok ()) ∧
        Covered (quantityOf acc.finalState) fills := by
  induction fills generalizing previous acc with
  | nil => simp [replayLoop, covered_nil, hheld]
  | cons fill fills ih =>
    have hinOrder : previous.filter (fill.fillTimestamp < ·) = none := by
      cases previous with
      | none => rfl
      | some time =>
        have hle := hprevious time rfl fill List.mem_cons_self
        simp only [Option.filter_some, decide_eq_true_eq, if_neg (not_lt.mpr hle)]
    rw [replayLoop, hinOrder, covered_cons, List.forall_mem_cons]
    simp only
    by_cases hvalid : validateFill fill = .ok ()
    · rcases applyFillToCostBasis_ok deriveEventId acc.finalState runId hvalid hheld with
        ⟨hcovered, row, event, happly, hrow⟩ | ⟨hshort, error, happly⟩
      · have hnonneg : 0 ≤ quantityOf
            (⟨some row, acc.realizedPnlEvents ++ event.toList⟩ : ReplayResult).finalState := by
          rw [quantityOf_some, hrow]
          exact hcovered
        have hafter : ∀ time ∈ some fill.fillTimestamp, ∀ later ∈ fills,
            time ≤ later.fillTimestamp := by
          intro time htime later hlater
          cases htime
          exact (List.pairwise_cons.mp hordered).1 later hlater
        have hnext := ih hnonneg hafter (List.pairwise_cons.mp hordered).2
        simp only [quantityOf_some, hrow] at hnext
        rw [happly, positionAfter_cons, ← add_assoc]
        simp only [hnext, hvalid, hheld, true_and]
      · rw [happly]
        constructor
        · rintro ⟨_, herror, -⟩
          cases herror
        · rintro ⟨-, -, hcovered⟩
          exact (hcovered.start.not_gt hshort).elim
    · obtain ⟨error, happly⟩ :=
        applyFillToCostBasis_invalid deriveEventId acc.finalState runId hvalid
      rw [happly]
      constructor
      · rintro ⟨_, herror, -⟩
        cases herror
      · rintro ⟨⟨hok, -⟩, -⟩
        exact (hvalid hok).elim

/-- A replay from nothing reaches the position of its fills just when they are valid and the
sales are covered. -/
theorem replayFills_ok_iff {fills : List NormalizedFill}
    (hordered : fills.Pairwise fun a b => a.fillTimestamp ≤ b.fillTimestamp) :
    (∃ result, replayFills exact deriveEventId fills runId = .ok result ∧
        quantityOf result.finalState = positionAfter fills) ↔
      (∀ fill ∈ fills, validateFill fill = .ok ()) ∧ Covered 0 fills := by
  have hloop := replayLoop_ok_iff deriveEventId runId
    (show 0 ≤ quantityOf (⟨none, []⟩ : ReplayResult).finalState from le_rfl)
    (show ∀ time ∈ (none : Option Time), ∀ fill ∈ fills, time ≤ fill.fillTimestamp from nofun)
    hordered
  simp only [show quantityOf none = 0 from rfl, zero_add] at hloop
  exact hloop

end

end AgentTrading.RealizedPnl
