import Mathlib.Algebra.BigOperators.Group.List.Lemmas
import AgentTrading.RealizedPnl.Conservation

/-! Fills of one side that follow one another can change places: purchases add up, and sales at
one average cost leave the pool in proportion to what is still held. -/
namespace AgentTrading.RealizedPnl
open Domain Library

/-- What a position says of its cost. -/
structure CostBasis where
  quantity : ℚ
  averageCost : ℚ
  pool : ℚ
  provenance : BuyFeeAllocationSource
  deriving DecidableEq

def PositionCostBasisStateEntity.basis (row : PositionCostBasisStateEntity) : CostBasis where
  quantity := row.quantity
  averageCost := row.averageCost
  pool := row.remainingBuyFeePool
  provenance := row.buyFeePoolProvenance

def basisOf (state : Option PositionCostBasisStateEntity) : Option CostBasis :=
  state.map (·.basis)

/-- The same fills, but for the order of fills of one side that follow one another. -/
inductive Reordered : List NormalizedFill → List NormalizedFill → Prop
  | nil : Reordered [] []
  | run (side : OrderSide) {run run' rest rest' : List NormalizedFill}
      (hperm : run.Perm run') (hside : ∀ fill ∈ run, fill.side = side)
      (hrest : Reordered rest rest') : Reordered (run ++ rest) (run' ++ rest')

theorem quantityOf_congr {state state' : Option PositionCostBasisStateEntity}
    (h : basisOf state = basisOf state') : quantityOf state = quantityOf state' := by
  cases state with
  | none =>
    cases state' with
    | none => rfl
    | some row => contradiction
  | some row =>
    cases state' with
    | none => contradiction
    | some row' => exact congrArg CostBasis.quantity (Option.some.inj h)

theorem poolOf_congr {state state' : Option PositionCostBasisStateEntity}
    (h : basisOf state = basisOf state') : poolOf state = poolOf state' := by
  cases state with
  | none =>
    cases state' with
    | none => rfl
    | some row => contradiction
  | some row =>
    cases state' with
    | none => contradiction
    | some row' => exact congrArg CostBasis.pool (Option.some.inj h)

/-! Purchases. What they bring in is added up, so their order does not matter. -/

/-- All that a position has taken in; an empty one has no provenance yet. -/
structure Intake where
  quantity : ℚ
  cost : ℚ
  fees : ℚ
  provenance : Option BuyFeeAllocationSource
  deriving DecidableEq

namespace Intake

def nothing : Intake := ⟨0, 0, 0, none⟩

/-- The provenance of a pool with one more buy fee in it. -/
def mergeProvenance (current : Option BuyFeeAllocationSource) (source : FeeTaxSource) :
    BuyFeeAllocationSource :=
  match current with
  | none => freshEntryProvenance (classifyFeeTaxSourceForPool source)
  | some current => mergeBuyFeePoolProvenance current source

def buy (intake : Intake) (fill : NormalizedFill) : Intake where
  quantity := intake.quantity + fill.quantity
  cost := intake.cost + fill.quantity * fill.price
  fees := intake.fees + fill.fee
  provenance := some (mergeProvenance intake.provenance fill.feeTaxSource)

theorem mergeProvenance_comm (current : Option BuyFeeAllocationSource)
    (source source' : FeeTaxSource) :
    mergeProvenance (some (mergeProvenance current source)) source' =
      mergeProvenance (some (mergeProvenance current source')) source := by
  cases current with
  | none => cases source <;> cases source' <;> rfl
  | some current => cases current <;> cases source <;> cases source' <;> rfl

theorem buy_comm (intake : Intake) (fill fill' : NormalizedFill) :
    (intake.buy fill).buy fill' = (intake.buy fill').buy fill := by
  unfold buy
  congr 1
  · ring
  · ring
  · ring
  · rw [mergeProvenance_comm]

theorem foldl_buy_perm {fills fills' : List NormalizedFill} (h : fills.Perm fills')
    (intake : Intake) : fills.foldl buy intake = fills'.foldl buy intake := by
  apply h.foldl_eq'
  intro fill _ fill' _ intake
  exact buy_comm intake fill fill'

/-- What a position shows of its intake. -/
def basis (intake : Intake) : CostBasis where
  quantity := intake.quantity
  averageCost := intake.cost / intake.quantity
  pool := intake.fees
  provenance := intake.provenance.getD .fullyAssumedZero

end Intake

/-- What the position of a state has taken in. -/
def intakeOf (state : Option PositionCostBasisStateEntity) : Intake :=
  match held state with
  | none => Intake.nothing
  | some row => ⟨row.quantity, row.quantity * row.averageCost, row.remainingBuyFeePool,
      some row.buyFeePoolProvenance⟩

theorem intakeOf_some {row : PositionCostBasisStateEntity} (h : row.quantity ≠ 0) :
    intakeOf (some row) = ⟨row.quantity, row.quantity * row.averageCost, row.remainingBuyFeePool,
      some row.buyFeePoolProvenance⟩ := by
  have hheld : held (some row) = some row := by simp [held, h]
  unfold intakeOf
  rw [hheld]

theorem intakeOf_flat {state : Option PositionCostBasisStateEntity} (h : quantityOf state = 0) :
    intakeOf state = Intake.nothing := by
  unfold intakeOf
  cases hrow : held state with
  | none => rfl
  | some row =>
    obtain ⟨rfl, hne⟩ := held_eq_some hrow
    exact absurd h hne

theorem intakeOf_congr {state state' : Option PositionCostBasisStateEntity}
    (h : basisOf state = basisOf state') : intakeOf state = intakeOf state' := by
  have hquantity := quantityOf_congr h
  by_cases hzero : quantityOf state = 0
  · rw [intakeOf_flat hzero, intakeOf_flat (by rw [← hquantity, hzero])]
  · cases state with
    | none => exact absurd rfl hzero
    | some row =>
      cases state' with
      | none => contradiction
      | some row' =>
        have hbasis := Option.some.inj h
        rw [quantityOf_some] at hzero
        rw [quantityOf_some, quantityOf_some] at hquantity
        rw [intakeOf_some hzero, intakeOf_some (by rw [← hquantity]; exact hzero), hquantity,
          show row.averageCost = row'.averageCost from congrArg CostBasis.averageCost hbasis,
          show row.remainingBuyFeePool = row'.remainingBuyFeePool from
            congrArg CostBasis.pool hbasis,
          show row.buyFeePoolProvenance = row'.buyFeePoolProvenance from
            congrArg CostBasis.provenance hbasis]

theorem basisOf_intakeOf {row : PositionCostBasisStateEntity} (h : row.quantity ≠ 0) :
    (intakeOf (some row)).basis = row.basis := by
  rw [intakeOf_some h]
  unfold Intake.basis PositionCostBasisStateEntity.basis
  dsimp only [Option.getD_some]
  rw [mul_div_cancel_left₀ _ h]

/-- A purchase adds to the intake, unless it divides by zero. -/
theorem intakeOf_applyBuy (state : Option PositionCostBasisStateEntity) (fill : NormalizedFill)
    (h : quantityOf state + fill.quantity ≠ 0) :
    intakeOf (some (applyBuy exact state fill)) = (intakeOf state).buy fill ∧
      (applyBuy exact state fill).quantity ≠ 0 := by
  have hquantity : (applyBuy exact state fill).quantity = quantityOf state + fill.quantity := by
    unfold applyBuy
    cases hrow : held state with
    | none => simp [appliedState, held_eq_none hrow]
    | some row => simp [appliedState, (held_eq_some hrow).1]
  have hne : (applyBuy exact state fill).quantity ≠ 0 := by
    rw [hquantity]
    exact h
  refine ⟨?_, hne⟩
  rw [intakeOf_some hne, hquantity]
  unfold applyBuy intakeOf Intake.buy
  cases hrow : held state with
  | none => simp [appliedState, held_eq_none hrow, Intake.nothing, Intake.mergeProvenance]
  | some row =>
    obtain ⟨rfl, -⟩ := held_eq_some hrow
    rw [quantityOf_some] at h ⊢
    simp [appliedState, Intake.mergeProvenance, mul_div_cancel₀ _ h]

/-! Sales. Each leaves the average cost, and of the pool the part still held. -/

/-- A position less some of its units. -/
def CostBasis.less (basis : CostBasis) (units : ℚ) : CostBasis where
  quantity := basis.quantity - units
  averageCost := if basis.quantity - units = 0 then 0 else basis.averageCost
  pool := basis.pool * ((basis.quantity - units) / basis.quantity)
  provenance := basis.provenance

theorem CostBasis.less_zero {basis : CostBasis} (h : basis.quantity ≠ 0) :
    basis.less 0 = basis := by
  unfold less
  rw [sub_zero, if_neg h, div_self h, mul_one]

theorem CostBasis.less_less {basis : CostBasis} {units : ℚ} (h : basis.quantity ≠ 0)
    (hunits : basis.quantity - units ≠ 0) (more : ℚ) :
    (basis.less units).less more = basis.less (units + more) := by
  unfold less
  dsimp only
  rw [if_neg hunits, sub_sub]
  congr 1
  field_simp

section
variable {deriveEventId : UUID → UUID}

theorem applySell_basis {state : Option PositionCostBasisStateEntity} {fill : NormalizedFill}
    {runId : UUID} {state' : PositionCostBasisStateEntity} {event : RealizedPnlEventEntity}
    (h : applySell exact deriveEventId state fill runId = .ok (state', event)) :
    ∃ row, state = some row ∧ row.quantity ≠ 0 ∧ state'.basis = row.basis.less fill.quantity ∧
      event.realizedPnlGross = fill.quantity * fill.price - row.averageCost * fill.quantity ∧
      event.realizedPnlNet = event.realizedPnlGross - fill.fee - fill.tax -
        (row.remainingBuyFeePool - state'.remainingBuyFeePool) := by
  unfold applySell at h
  split at h
  · contradiction
  next row hrow =>
    obtain ⟨rfl, hne⟩ := held_eq_some hrow
    dsimp only at h
    split at h
    · contradiction
    next =>
      cases h
      refine ⟨row, rfl, hne, ?_, ?_, ?_⟩
      · unfold PositionCostBasisStateEntity.basis CostBasis.less
        dsimp only [appliedState, exact_sub]
        congr 1
        by_cases hall : fill.quantity = row.quantity
        · rw [if_pos hall, hall, sub_self, zero_div, mul_zero]
        · rw [if_neg hall]
          unfold allocatedBuyFee
          rw [if_neg hall, exact_mul, exact_div]
          field_simp
      · rw [exact_mul, exact_sub]
        ring
      · dsimp only [appliedState, exact_sub]
        congr 1
        by_cases hall : fill.quantity = row.quantity
        · rw [if_pos hall, sub_zero]
          unfold allocatedBuyFee
          rw [if_pos hall]
        · rw [if_neg hall, sub_sub_cancel]

/-! A replay carried on from what another one left. -/

/-- The replay of more fills on a result. -/
def resume (n : Numerics) (deriveEventId : UUID → UUID) (runId : UUID) (acc : ReplayResult)
    (fills : List NormalizedFill) : Except EngineError ReplayResult :=
  replayLoop n deriveEventId runId (acc.finalState.bind (·.lastAppliedFillTimestamp)) acc fills

theorem resume_append {n : Numerics} {runId : UUID} (acc : ReplayResult)
    (fills fills' : List NormalizedFill) :
    resume n deriveEventId runId acc (fills ++ fills') =
      (resume n deriveEventId runId acc fills).bind
        fun mid => resume n deriveEventId runId mid fills' := by
  induction fills generalizing acc with
  | nil => rfl
  | cons fill fills ih =>
    simp only [resume, List.cons_append, replayLoop]
    cases (acc.finalState.bind (·.lastAppliedFillTimestamp)).filter (fill.fillTimestamp < ·) with
    | some previous => rfl
    | none =>
      cases happly : applyFillToCostBasis n deriveEventId acc.finalState fill runId with
      | error e => rfl
      | ok p =>
        obtain ⟨state, event⟩ := p
        dsimp only
        rw [← (applyFillToCostBasis_fromFill happly).lastTime]
        exact ih ⟨some state, _⟩

/-- No purchase of the replay divides by zero, which would raise. -/
def Divides (deriveEventId : UUID → UUID) (runId : UUID) (acc : ReplayResult)
    (fills : List NormalizedFill) : Prop :=
  ∀ taken fill rest before, fills = taken ++ fill :: rest →
    resume exact deriveEventId runId acc taken = .ok before → fill.side = .buy →
      quantityOf before.finalState + fill.quantity ≠ 0

/-- The replay goes through. -/
structure Accepted (deriveEventId : UUID → UUID) (runId : UUID) (acc : ReplayResult)
    (fills : List NormalizedFill) (result : ReplayResult) : Prop where
  replayed : resume exact deriveEventId runId acc fills = .ok result
  divides : Divides deriveEventId runId acc fills

theorem Divides.left {runId : UUID} {acc : ReplayResult} {fills fills' : List NormalizedFill}
    (h : Divides deriveEventId runId acc (fills ++ fills')) :
    Divides deriveEventId runId acc fills := by
  intro taken fill rest before hfills hbefore hside
  apply h taken fill (rest ++ fills') before _ hbefore hside
  rw [hfills, List.append_assoc, List.cons_append]

variable {runId : UUID} {acc mid result : ReplayResult} {fills fills' : List NormalizedFill}

theorem Divides.right (h : Divides deriveEventId runId acc (fills ++ fills'))
    (hmid : resume exact deriveEventId runId acc fills = .ok mid) :
    Divides deriveEventId runId mid fills' := by
  intro taken fill rest before hfills hbefore hside
  apply h (fills ++ taken) fill rest before _ _ hside
  · rw [hfills, List.append_assoc]
  · rw [resume_append, hmid, ← hbefore]
    rfl

theorem Accepted.append (h : Accepted deriveEventId runId acc (fills ++ fills') result) :
    ∃ mid, Accepted deriveEventId runId acc fills mid ∧
      Accepted deriveEventId runId mid fills' result := by
  have hreplayed := h.replayed
  rw [resume_append] at hreplayed
  obtain ⟨mid, hmid, hrest⟩ := bind_eq_ok.mp hreplayed
  exact ⟨mid, ⟨hmid, h.divides.left⟩, hrest, h.divides.right hmid⟩

theorem Accepted.concat {fill : NormalizedFill}
    (h : Accepted deriveEventId runId acc (fills ++ [fill]) result) :
    ∃ before state event, Accepted deriveEventId runId acc fills before ∧
      applyFillToCostBasis exact deriveEventId before.finalState fill runId = .ok (state, event) ∧
      (fill.side = .buy → quantityOf before.finalState + fill.quantity ≠ 0) ∧
      result = ⟨some state, before.realizedPnlEvents ++ event.toList⟩ := by
  obtain ⟨before, state, event, hbefore, -, happly, hresult⟩ := replayLoop_concat acc h.replayed
  refine ⟨before, state, event, ⟨hbefore, h.divides.left⟩, happly, ?_, hresult⟩
  exact h.divides fills fill [] before rfl hbefore

/-- Purchases one after another leave no event, and take in what each of them does. -/
theorem Accepted.buys (h : Accepted deriveEventId runId acc fills result)
    (hbuys : ∀ fill ∈ fills, fill.side = .buy) :
    result.realizedPnlEvents = acc.realizedPnlEvents ∧
      intakeOf result.finalState = fills.foldl Intake.buy (intakeOf acc.finalState) ∧
      (fills ≠ [] → ∃ row, result.finalState = some row ∧ row.quantity ≠ 0) := by
  induction fills using List.reverseRecOn generalizing result with
  | nil =>
    cases h.replayed
    exact ⟨rfl, rfl, fun hne => absurd rfl hne⟩
  | append_singleton fills fill ih =>
    obtain ⟨before, state, event, hbefore, happly, hdivides, rfl⟩ := h.concat
    have hside := hbuys fill (List.mem_append_right _ (List.mem_singleton_self fill))
    obtain ⟨hevents, hintake, -⟩ :=
      ih hbefore fun other hother => hbuys other (List.mem_append_left _ hother)
    obtain ⟨rfl, rfl⟩ := (applyFillToCostBasis_side happly).2.1 hside
    obtain ⟨hstep, hne⟩ := intakeOf_applyBuy before.finalState fill (hdivides hside)
    refine ⟨?_, ?_, fun _ => ⟨_, rfl, hne⟩⟩
    · rw [Option.toList_none, List.append_nil, hevents]
    · rw [List.foldl_append, ← hintake, hstep]
      rfl

/-- Sales one after another: what they leave of the position, and what they realize of it. -/
theorem Accepted.sells (h : Accepted deriveEventId runId acc fills result)
    (hsells : ∀ fill ∈ fills, fill.side = .sell) {row : PositionCostBasisStateEntity}
    (hrow : acc.finalState = some row) (hne : row.quantity ≠ 0) :
    basisOf result.finalState = some (row.basis.less (fills.map (·.quantity)).sum) ∧
      grossSum result.realizedPnlEvents = grossSum acc.realizedPnlEvents +
        (fills.map fun fill => fill.quantity * fill.price).sum -
        row.averageCost * (fills.map (·.quantity)).sum ∧
      netSum result.realizedPnlEvents - grossSum result.realizedPnlEvents =
        netSum acc.realizedPnlEvents - grossSum acc.realizedPnlEvents -
        (fills.map (·.fee)).sum - (fills.map (·.tax)).sum -
        (row.remainingBuyFeePool - poolOf result.finalState) := by
  induction fills using List.reverseRecOn generalizing result with
  | nil =>
    cases h.replayed
    simp only [List.map_nil, List.sum_nil, hrow]
    refine ⟨congrArg some (CostBasis.less_zero hne).symm, ?_, ?_⟩
    · ring
    · rw [poolOf_some]
      ring
  | append_singleton fills fill ih =>
    obtain ⟨before, state, event, hbefore, happly, -, rfl⟩ := h.concat
    have hside := hsells fill (List.mem_append_right _ (List.mem_singleton_self fill))
    obtain ⟨hbasis, hgross, hnet⟩ :=
      ih hbefore fun other hother => hsells other (List.mem_append_left _ hother)
    obtain ⟨e, rfl, hsell⟩ := (applyFillToCostBasis_side happly).2.2 hside
    obtain ⟨row', hrow', hne', hstep, hgross', hnet'⟩ := applySell_basis hsell
    rw [hrow'] at hbasis hnet
    have hbasis' : row'.basis = row.basis.less (fills.map (·.quantity)).sum :=
      Option.some.inj hbasis
    have hleft : row.basis.quantity - (fills.map (·.quantity)).sum ≠ 0 := by
      intro hzero
      apply hne'
      rw [show row'.quantity = _ from congrArg CostBasis.quantity hbasis']
      exact hzero
    have haverage : row'.averageCost = row.averageCost := by
      rw [show row'.averageCost = _ from congrArg CostBasis.averageCost hbasis']
      exact if_neg hleft
    simp only [List.map_append, List.map_cons, List.map_nil, List.sum_append, List.sum_cons,
      List.sum_nil, add_zero, Option.toList_some, grossSum, netSum] at hgross hnet ⊢
    refine ⟨?_, ?_, ?_⟩
    · rw [← CostBasis.less_less hne hleft, ← hbasis']
      exact congrArg some hstep
    · rw [hgross, hgross', haverage]
      ring
    · rw [poolOf_some] at hnet ⊢
      linarith

theorem Accepted.held_of_sells (h : Accepted deriveEventId runId acc fills result)
    (hsells : ∀ fill ∈ fills, fill.side = .sell) (hne : fills ≠ []) :
    ∃ row, acc.finalState = some row ∧ row.quantity ≠ 0 := by
  cases fills with
  | nil => contradiction
  | cons fill fills =>
    obtain ⟨state, event, -, happly, -⟩ := replayLoop_cons h.replayed
    obtain ⟨e, -, hsell⟩ := (applyFillToCostBasis_side happly).2.2 (hsells fill List.mem_cons_self)
    obtain ⟨row, hrow, hquantity, -⟩ := applySell_basis hsell
    exact ⟨row, hrow, hquantity⟩

/-- Two results that agree but for the single events. -/
structure SameTotals (result result' : ReplayResult) : Prop where
  basis : basisOf result.finalState = basisOf result'.finalState
  gross : grossSum result.realizedPnlEvents = grossSum result'.realizedPnlEvents
  net : netSum result.realizedPnlEvents = netSum result'.realizedPnlEvents

variable {acc' mid' result' : ReplayResult}

theorem SameTotals.buys (hsame : SameTotals acc acc') (hperm : fills.Perm fills')
    (hbuys : ∀ fill ∈ fills, fill.side = .buy)
    (h : Accepted deriveEventId runId acc fills result)
    (h' : Accepted deriveEventId runId acc' fills' result') : SameTotals result result' := by
  obtain ⟨hevents, hintake, hheld⟩ := h.buys hbuys
  obtain ⟨hevents', hintake', hheld'⟩ :=
    h'.buys fun fill hfill => hbuys fill (hperm.mem_iff.mpr hfill)
  rw [← intakeOf_congr hsame.basis, ← Intake.foldl_buy_perm hperm, ← hintake] at hintake'
  refine ⟨?_, by rw [hevents, hevents', hsame.gross], by rw [hevents, hevents', hsame.net]⟩
  by_cases hnil : fills = []
  · subst hnil
    rw [hperm.nil_eq.symm] at h'
    cases h.replayed
    cases h'.replayed
    exact hsame.basis
  · have hnil' : fills' ≠ [] := by
      intro hempty
      rw [hempty] at hperm
      exact hnil hperm.eq_nil
    obtain ⟨row, hrow, hne⟩ := hheld hnil
    obtain ⟨row', hrow', hne'⟩ := hheld' hnil'
    rw [hrow, hrow'] at hintake' ⊢
    have hbasis := basisOf_intakeOf hne
    rw [← hintake', basisOf_intakeOf hne'] at hbasis
    exact congrArg some hbasis.symm

theorem SameTotals.sells (hsame : SameTotals acc acc') (hperm : fills.Perm fills')
    (hsells : ∀ fill ∈ fills, fill.side = .sell)
    (h : Accepted deriveEventId runId acc fills result)
    (h' : Accepted deriveEventId runId acc' fills' result') : SameTotals result result' := by
  by_cases hnil : fills = []
  · exact hsame.buys hperm (fun fill hfill => by rw [hnil] at hfill; contradiction) h h'
  · obtain ⟨row, hrow, hne⟩ := h.held_of_sells hsells hnil
    have hbasis := hsame.basis
    cases hrow' : acc'.finalState with
    | none =>
      rw [hrow, hrow'] at hbasis
      contradiction
    | some row' =>
      rw [hrow, hrow'] at hbasis
      have hsells' : ∀ fill ∈ fills', fill.side = .sell :=
        fun fill hfill => hsells fill (hperm.mem_iff.mpr hfill)
      have hequal : row.basis = row'.basis := Option.some.inj hbasis
      have hquantity : row.quantity = row'.quantity := congrArg CostBasis.quantity hequal
      have haverage : row.averageCost = row'.averageCost := congrArg CostBasis.averageCost hequal
      have hpool : row.remainingBuyFeePool = row'.remainingBuyFeePool :=
        congrArg CostBasis.pool hequal
      obtain ⟨hless, hgross, hnet⟩ := h.sells hsells hrow hne
      obtain ⟨hless', hgross', hnet'⟩ := h'.sells hsells' hrow' (by rw [← hquantity]; exact hne)
      have hleft : basisOf result.finalState = basisOf result'.finalState := by
        rw [hless, hless', hequal, (hperm.map _).sum_eq]
      have hgrossSame : grossSum result.realizedPnlEvents = grossSum result'.realizedPnlEvents := by
        rw [hgross, hgross', hsame.gross, haverage, (hperm.map _).sum_eq, (hperm.map _).sum_eq]
      refine ⟨hleft, hgrossSame, ?_⟩
      rw [← poolOf_congr hleft, ← hsame.gross, ← hsame.net, ← hpool, ← hgrossSame,
        ← (hperm.map _).sum_eq, ← (hperm.map _).sum_eq] at hnet'
      linarith

theorem SameTotals.reordered (hre : Reordered fills fills') (hsame : SameTotals acc acc')
    (h : Accepted deriveEventId runId acc fills result)
    (h' : Accepted deriveEventId runId acc' fills' result') : SameTotals result result' := by
  induction hre generalizing acc acc' with
  | nil =>
    cases h.replayed
    cases h'.replayed
    exact hsame
  | run side hperm hside _ ih =>
    obtain ⟨mid, hrun, hrest⟩ := h.append
    obtain ⟨mid', hrun', hrest'⟩ := h'.append
    apply ih _ hrest hrest'
    cases side with
    | buy => exact hsame.buys hperm hside hrun hrun'
    | sell => exact hsame.sells hperm hside hrun hrun'

theorem quantityOf_nonneg_step {state : Option PositionCostBasisStateEntity}
    {fill : NormalizedFill} {state' : PositionCostBasisStateEntity}
    {event : Option RealizedPnlEventEntity} (hstate : 0 ≤ quantityOf state)
    (h : applyFillToCostBasis exact deriveEventId state fill runId = .ok (state', event)) :
    0 ≤ state'.quantity := by
  obtain ⟨hvalid, hbuy, hsell⟩ := applyFillToCostBasis_side h
  cases hside : fill.side with
  | buy =>
    obtain ⟨rfl, -⟩ := hbuy hside
    have hpos := hvalid.quantity
    unfold applyBuy
    cases hrow : held state with
    | none => exact hpos.le
    | some row =>
      obtain ⟨rfl, -⟩ := held_eq_some hrow
      exact add_nonneg hstate hpos.le
  | sell =>
    obtain ⟨e, -, hsell⟩ := hsell hside
    unfold applySell at hsell
    split at hsell
    · contradiction
    · dsimp only at hsell
      split at hsell
      · contradiction
      next hle =>
        simp only [not_or, not_lt] at hle
        cases hsell
        exact hle.2

theorem quantityOf_nonneg_resume (hacc : 0 ≤ quantityOf acc.finalState)
    (h : resume exact deriveEventId runId acc fills = .ok result) :
    0 ≤ quantityOf result.finalState := by
  induction fills using List.reverseRecOn generalizing result with
  | nil =>
    cases h
    exact hacc
  | append_singleton fills fill ih =>
    obtain ⟨before, state, event, hbefore, -, happly, rfl⟩ := replayLoop_concat acc h
    exact quantityOf_nonneg_step (ih hbefore) happly

/-- From a position that is not negative, which the table demands, no purchase divides by zero. -/
theorem divides_of_nonneg {initial : Option PositionCostBasisStateEntity}
    (hinitial : 0 ≤ quantityOf initial)
    (h : replayFills exact deriveEventId fills runId initial = .ok result) :
    Divides deriveEventId runId ⟨initial, []⟩ fills := by
  intro taken fill rest before hfills hbefore _
  have hsplit : fills = (taken ++ [fill]) ++ rest := by
    rw [hfills, List.append_assoc, List.singleton_append]
  change resume exact deriveEventId runId ⟨initial, []⟩ fills = .ok result at h
  rw [hsplit, resume_append] at h
  obtain ⟨mid, hmid, -⟩ := bind_eq_ok.mp h
  rw [resume_append, hbefore] at hmid
  obtain ⟨state, event, -, happly, -⟩ := replayLoop_cons hmid
  have hpos := (applyFillToCostBasis_side happly).1.quantity
  have hbefore' : 0 ≤ quantityOf before.finalState := by
    apply quantityOf_nonneg_resume _ hbefore
    exact hinitial
  linarith

/-- Two orderings of the same fills that both go through, and differ only inside runs of one
side, end in the same position and realize the same totals. Neither the moments nor the ids of
the fills are looked at. -/
theorem replayFills_reordered (deriveEventId : UUID → UUID) (runId : UUID)
    (initial : Option PositionCostBasisStateEntity) {fills fills' : List NormalizedFill}
    (hre : Reordered fills fills') {result result' : ReplayResult}
    (h : replayFills exact deriveEventId fills runId initial = .ok result)
    (h' : replayFills exact deriveEventId fills' runId initial = .ok result')
    (hdivides : Divides deriveEventId runId ⟨initial, []⟩ fills)
    (hdivides' : Divides deriveEventId runId ⟨initial, []⟩ fills') :
    basisOf result.finalState = basisOf result'.finalState ∧
      grossSum result.realizedPnlEvents = grossSum result'.realizedPnlEvents ∧
      netSum result.realizedPnlEvents = netSum result'.realizedPnlEvents := by
  have hsame : SameTotals ⟨initial, []⟩ ⟨initial, []⟩ := ⟨rfl, rfl, rfl⟩
  have htotals := hsame.reordered hre ⟨h, hdivides⟩ ⟨h', hdivides'⟩
  exact ⟨htotals.basis, htotals.gross, htotals.net⟩

/-- Two buys at one moment, then two sales at one moment that close the position. -/
def twoAndTwo (ids : List UUID) : List NormalizedFill :=
  ids.map fun id =>
    { fillEventId := id
      accountId := 1
      instrumentId := 2
      brokerOrderId := id
      orderRequestId := id
      side := if id ≤ 2 then .buy else .sell
      quantity := if id % 2 = 1 then 4 else 6
      price := 100 + id
      fee := id
      tax := 0
      feeTaxSource := if id = 1 then .historicalPolicyEstimate else .reported
      fillTimestamp := if id ≤ 2 then 10 else 20 }

def twoAndTwoReplay (ids : List UUID) : ReplayResult :=
  (replayFills exact id (twoAndTwo ids) 7).toOption.getD ⟨none, []⟩

theorem twoAndTwo_reordered : Reordered (twoAndTwo [1, 2, 3, 4]) (twoAndTwo [2, 1, 4, 3]) := by
  have hbuys : (twoAndTwo [1, 2]).Perm (twoAndTwo [2, 1]) := (List.Perm.swap 2 1 []).map _
  have hsells : (twoAndTwo [3, 4]).Perm (twoAndTwo [4, 3]) := (List.Perm.swap 4 3 []).map _
  exact .run .buy hbuys (by decide) (.run .sell hsells (by decide) .nil)

theorem replayFills_reordered_twoAndTwo :
    basisOf (twoAndTwoReplay [1, 2, 3, 4]).finalState =
        basisOf (twoAndTwoReplay [2, 1, 4, 3]).finalState ∧
      grossSum (twoAndTwoReplay [1, 2, 3, 4]).realizedPnlEvents =
        grossSum (twoAndTwoReplay [2, 1, 4, 3]).realizedPnlEvents ∧
      netSum (twoAndTwoReplay [1, 2, 3, 4]).realizedPnlEvents =
        netSum (twoAndTwoReplay [2, 1, 4, 3]).realizedPnlEvents := by
  have hleft : replayFills exact id (twoAndTwo [1, 2, 3, 4]) 7 =
      .ok (twoAndTwoReplay [1, 2, 3, 4]) := by decide +kernel
  have hright : replayFills exact id (twoAndTwo [2, 1, 4, 3]) 7 =
      .ok (twoAndTwoReplay [2, 1, 4, 3]) := by decide +kernel
  exact replayFills_reordered id 7 none twoAndTwo_reordered hleft hright
    (divides_of_nonneg le_rfl hleft) (divides_of_nonneg le_rfl hright)

end

end AgentTrading.RealizedPnl
