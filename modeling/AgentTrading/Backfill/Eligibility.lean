import Mathlib.Data.List.Forall2
import AgentTrading.Backfill.Apply
import AgentTrading.Backfill.Decoder
import AgentTrading.RealizedPnl.Covered
import AgentTrading.RealizedPnl.Trades

/-! What an eligible plan promises: a position that opens at zero, and synthetic fills that the
ledger can replay. -/
namespace AgentTrading.Backfill
open Domain RealizedPnl Fills

/-! The snapshots that raise the quantity of their order. -/

/-- A snapshot with the quantity and the average it raises. -/
structure Rise where
  order : OrderRequestEntity
  snap : BrokerFillSnapshotEntity
  priorQty : ℚ
  priorPrice : Option ℚ

def Rise.quantity (rise : Rise) : ℚ := rise.snap.filledQuantity - rise.priorQty

def risesFrom (order : OrderRequestEntity) (priorQty : ℚ) (priorPrice : Option ℚ) :
    List BrokerFillSnapshotEntity → List Rise
  | [] => []
  | snap :: rest =>
    if priorQty < snap.filledQuantity then
      ⟨order, snap, priorQty, priorPrice⟩ ::
        risesFrom order snap.filledQuantity (some snap.fillPrice) rest
    else risesFrom order priorQty priorPrice rest

/-- The broker order that the snapshots of an order lead to. -/
def BackfillReads.brokerOrderIdOf (reads : BackfillReads) (order : OrderRequestEntity) :
    Option UUID :=
  (reads.lineageOf order).toOption.map (·.brokerOrderId)

/-- The rises of the window's orders. -/
def BackfillReads.rises (reads : BackfillReads) (call : BackfillCall) : List Rise :=
  (reads.windowOrders call).flatMap fun order =>
    risesFrom order 0 none (reads.orderedSnapshots order)

/-- The increment that the plan makes of a rise. -/
structure Matches (brokerOrderIdOf : OrderRequestEntity → Option UUID)
    (terms : Option FeeTaxTerms) (call : BackfillCall) (candidate : SyntheticFillCandidate)
    (rise : Rise) : Prop where
  brokerOrder : brokerOrderIdOf rise.order = some candidate.brokerOrderId
  rises : rise.priorQty < rise.snap.filledQuantity
  prior : rise.priorQty ≠ 0 → rise.priorPrice.isSome = true
  side : candidate.side = rise.order.side
  quantity : candidate.fillQuantity = rise.quantity
  time : candidate.fillTimestamp = fillTime call rise.snap
  fillId : candidate.brokerFillId = rise.snap.brokerFillId
  priced : inferDeltaPrice rise.snap.filledQuantity (some rise.snap.fillPrice) rise.priorQty
    rise.priorPrice = some candidate.fillPrice
  charged : candidateCharges terms call rise.order.side candidate.fillPrice rise.quantity
    (fillTime call rise.snap) = .ok ⟨candidate.fee, candidate.tax, candidate.feeTaxSource⟩

section
variable {terms : Option FeeTaxTerms} {call : BackfillCall} {lineage : OrderLineage}

theorem candidateOf_charged {snap : BrokerFillSnapshotEntity} {deltaQty inferredPrice : ℚ}
    {candidate : SyntheticFillCandidate}
    (h : candidateOf terms call lineage snap deltaQty inferredPrice = .ok candidate) :
    candidateCharges terms call lineage.order.side inferredPrice deltaQty (fillTime call snap) =
      .ok ⟨candidate.fee, candidate.tax, candidate.feeTaxSource⟩ := by
  unfold candidateOf at h
  obtain ⟨charges, hcharges, h⟩ := Library.bind_eq_ok.mp h
  cases h
  exact hcharges

/-- An accepted order makes one increment of every rise, and they add up to the quantity it
ends at. -/
theorem decode_matches {brokerOrderIdOf : OrderRequestEntity → Option UUID}
    (hbroker : brokerOrderIdOf lineage.order = some lineage.brokerOrderId) {priorQty : ℚ}
    {priorPrice : Option ℚ} {snapshots : List BrokerFillSnapshotEntity}
    {candidates : List SyntheticFillCandidate} {final : ℚ}
    (hprior : priorQty ≠ 0 → priorPrice.isSome = true)
    (h : decode terms call lineage priorQty priorPrice snapshots = .ok (candidates, final)) :
    List.Forall₂ (Matches brokerOrderIdOf terms call) candidates
        (risesFrom lineage.order priorQty priorPrice snapshots) ∧
      final = priorQty + (candidates.map (·.fillQuantity)).sum := by
  induction snapshots generalizing priorQty priorPrice candidates with
  | nil =>
    cases h
    simp [risesFrom]
  | cons snap rest ih =>
    rw [risesFrom]
    rcases decode_cons h with ⟨hsame, hrest⟩ |
      ⟨hrise, price, candidate, found, hprice, hcandidate, hrest, rfl⟩
    · rw [if_neg hsame.not_gt]
      exact ih hprior hrest
    · rw [if_pos hrise]
      obtain ⟨hmatches, hfinal⟩ := ih (fun _ => rfl) hrest
      obtain ⟨horder, hside, hquantity, hprice', htime, hfillId⟩ := candidateOf_copies hcandidate
      have hcharged := candidateOf_charged hcandidate
      constructor
      · refine .cons ?_ hmatches
        subst hprice'
        exact ⟨by rw [hbroker, horder], hrise, hprior, hside, hquantity, htime, hfillId, hprice,
          hcharged⟩
      · rw [List.map_cons, List.sum_cons, hquantity, hfinal]
        ring

end

section
variable {reads : BackfillReads} {call : BackfillCall}

theorem lineageOf_order {order : OrderRequestEntity} {lineage : OrderLineage}
    (h : reads.lineageOf order = .ok lineage) : lineage.order = order := by
  unfold BackfillReads.lineageOf at h
  split at h
  · split at h
    · cases h
      rfl
    · cases h
  · cases h

/-- What an order contributes to an eligible plan. -/
structure Decoded (reads : BackfillReads) (call : BackfillCall) (order : OrderRequestEntity)
    (detail : OrderBackfillDetail) : Prop where
  side : detail.side = order.side
  requested : detail.requestedQuantity = order.requestedQuantity
  final : detail.finalCumulativeQuantity = order.requestedQuantity
  matched : List.Forall₂ (Matches reads.brokerOrderIdOf reads.feeTaxTerms call) detail.candidates
    (risesFrom order 0 none (reads.orderedSnapshots order))
  total : (detail.candidates.map (·.fillQuantity)).sum = order.requestedQuantity
  lineage : ∃ brokerOrderId, reads.brokerOrderIdOf order = some brokerOrderId ∧
    ∀ candidate ∈ detail.candidates,
      candidate.brokerOrderId = brokerOrderId ∧ candidate.side = order.side

theorem candidates_lineage {terms : Option FeeTaxTerms} {lineage : OrderLineage}
    {priorQty : ℚ} {priorPrice : Option ℚ} {snapshots : List BrokerFillSnapshotEntity}
    {candidates : List SyntheticFillCandidate} {final : ℚ}
    (h : decode terms call lineage priorQty priorPrice snapshots = .ok (candidates, final)) :
    ∀ candidate ∈ candidates,
      candidate.brokerOrderId = lineage.brokerOrderId ∧ candidate.side = lineage.order.side := by
  induction snapshots generalizing priorQty priorPrice candidates with
  | nil =>
    cases h
    simp
  | cons snap rest ih =>
    rcases decode_cons h with ⟨-, hrest⟩ | ⟨-, price, first, found, -, hfirst, hrest, rfl⟩
    · exact ih hrest
    · intro candidate hcandidate
      rcases List.mem_cons.mp hcandidate with rfl | hcandidate
      · have hcopies := candidateOf_copies hfirst
        exact ⟨hcopies.1, hcopies.2.1⟩
      · exact ih hrest candidate hcandidate

theorem orderDetail_decoded {order : OrderRequestEntity} {detail : OrderBackfillDetail}
    (h : reads.orderDetail call order = .ok detail) : Decoded reads call order detail := by
  unfold BackfillReads.orderDetail at h
  split at h
  · cases h
  obtain ⟨lineage, hlineage, h⟩ := Library.bind_eq_ok.mp h
  obtain ⟨⟨candidates, finalQty⟩, hdecode, h⟩ := Library.bind_eq_ok.mp h
  simp only at h
  split at h
  · cases h
  next hfinal =>
    simp only [ne_eq, not_not] at hfinal
    cases h
    have hbroker : reads.brokerOrderIdOf lineage.order = some lineage.brokerOrderId := by
      rw [lineageOf_order hlineage, BackfillReads.brokerOrderIdOf, hlineage]
      rfl
    obtain ⟨hmatched, htotal⟩ := decode_matches hbroker (fun h => (h rfl).elim) hdecode
    have hcandidates := candidates_lineage hdecode
    rw [lineageOf_order hlineage] at hbroker hmatched hcandidates
    exact {
      side := rfl
      requested := rfl
      final := hfinal
      matched := hmatched
      total := by rw [← hfinal, htotal, zero_add]
      lineage := ⟨lineage.brokerOrderId, hbroker, hcandidates⟩ }

theorem eligible_parts {plan : BackfillPlan} (h : buildBackfillPlan reads call = .ok plan)
    (heligible : plan.eligible = true) :
    ∃ first others anchor details, reads.windowOrders call = first :: others ∧
      reads.anchor call first = .ok anchor ∧
      List.Forall₂ (Decoded reads call) (first :: others) details ∧
      plan = eligiblePlan call anchor details (reads.brokerReportedQuantity call) := by
  unfold buildBackfillPlan at h
  split at h
  · cases h
    cases heligible
  next first others horders =>
    split at h
    · cases h
      cases heligible
    next anchor hanchor =>
      split at h
      · cases h
      · cases h
        cases heligible
      next details hdetails =>
        cases h
        refine ⟨first, others, anchor, details, horders, hanchor, ?_, rfl⟩
        exact (Library.mapM_eq_ok hdetails).imp fun _ _ => orderDetail_decoded

theorem matches_flatMap {orders : List OrderRequestEntity} {details : List OrderBackfillDetail}
    (h : List.Forall₂ (Decoded reads call) orders details) :
    List.Forall₂ (Matches reads.brokerOrderIdOf reads.feeTaxTerms call)
      (details.flatMap (·.candidates)) (orders.flatMap fun order =>
        risesFrom order 0 none (reads.orderedSnapshots order)) := by
  induction h with
  | nil => exact .nil
  | cons hdecoded _ ih =>
    rw [List.flatMap_cons, List.flatMap_cons]
    exact List.rel_append hdecoded.matched ih

/-- The quantity a candidate adds to the position. -/
def signedFill (candidate : SyntheticFillCandidate) : ℚ :=
  signed candidate.side candidate.fillQuantity

theorem sum_signed {side : OrderSide} {candidates : List SyntheticFillCandidate}
    (h : ∀ candidate ∈ candidates, candidate.side = side) :
    (candidates.map signedFill).sum = signed side (candidates.map (·.fillQuantity)).sum := by
  induction candidates with
  | nil => cases side <;> simp [signed]
  | cons candidate candidates ih =>
    have hrest := ih fun other hother => h other (List.mem_cons_of_mem _ hother)
    have hside := h candidate List.mem_cons_self
    simp only [List.map_cons, List.sum_cons, hrest, signedFill, hside]
    cases side with
    | buy => rfl
    | sell =>
      simp only [signed]
      ring

theorem expected_eq_sum {orders : List OrderRequestEntity} {details : List OrderBackfillDetail}
    (h : List.Forall₂ (Decoded reads call) orders details) :
    (details.map fun detail => signed detail.side detail.finalCumulativeQuantity).sum =
      ((details.flatMap (·.candidates)).map signedFill).sum := by
  induction h with
  | nil => rfl
  | @cons order detail orders details hdecoded _ ih =>
    have hsides : ∀ candidate ∈ detail.candidates, candidate.side = detail.side := by
      intro candidate hcandidate
      obtain ⟨brokerOrderId, -, hlineage⟩ := hdecoded.lineage
      rw [hdecoded.side]
      exact (hlineage candidate hcandidate).2
    rw [List.map_cons, List.sum_cons, List.flatMap_cons, List.map_append, List.sum_append, ih,
      sum_signed hsides, hdecoded.total, hdecoded.final]

end

/-! The replay of a plan, and the rises in the same order. -/

def replayRow (plan : BackfillPlan) (stamps : Stamps) (candidate : SyntheticFillCandidate × Nat) :
    FillEventEntity × NormalizedFill :=
  (fillEventOf stamps candidate.2 candidate.1,
    buildNormalizedFill (fillEventOf stamps candidate.2 candidate.1)
      ⟨plan.accountId, plan.instrumentId, candidate.1.orderRequestId, candidate.1.side⟩)

/-- The plan's fills as a recompute collects them. -/
def replayOrder (plan : BackfillPlan) (stamps : Stamps) : List NormalizedFill :=
  ((plan.syntheticFills.zipIdx.map (replayRow plan stamps)).insertionSort
    fun a b => fillBefore a.1 b.1).map (·.2)

abbrev FillSortKey := Time ×ₗ (Nat ×ₗ String) ×ₗ Time ×ₗ UUID

/-- The key under which the increment of a rise is replayed. -/
def riseSortKey (call : BackfillCall) (stamps : Stamps) (i : Nat) (rise : Rise) : FillSortKey :=
  let brokerFillRank : Nat ×ₗ String :=
    match rise.snap.brokerFillId with
    | some id => toLex (0, id)
    | none => toLex (1, "")
  toLex (fillTime call rise.snap, toLex (brokerFillRank,
    toLex ((stamps.createdAt i).getD datetimeMax, stamps.fillEventId i)))

/-- What the rises do to the position, in the order of their keys. -/
def riseMoves (reads : BackfillReads) (call : BackfillCall) (stamps : Stamps) : List ℚ :=
  (((reads.rises call).zipIdx.map fun rise =>
      (riseSortKey call stamps rise.2 rise.1,
        signed rise.1.order.side rise.1.quantity)).insertionSort fun a b => a.1 ≤ b.1).map (·.2)

theorem zipIdx_map_congr {α β γ : Type} {R : α → β → Prop} {f : α × Nat → γ} {g : β × Nat → γ}
    (hfg : ∀ a b i, R a b → f (a, i) = g (b, i)) {as : List α} {bs : List β}
    (h : List.Forall₂ R as bs) (n : Nat) : (as.zipIdx n).map f = (bs.zipIdx n).map g := by
  induction h generalizing n with
  | nil => rfl
  | cons hab _ ih =>
    rw [List.zipIdx_cons, List.zipIdx_cons, List.map_cons, List.map_cons, hfg _ _ _ hab, ih]

theorem ofValue?_value (source : FeeTaxSource) :
    FeeTaxSource.ofValue? source.value = some source := by
  cases source <;> decide

theorem replayRow_fill (plan : BackfillPlan) (stamps : Stamps)
    (candidate : SyntheticFillCandidate × Nat) :
    let fill := (replayRow plan stamps candidate).2
    fill.side = candidate.1.side ∧ fill.quantity = candidate.1.fillQuantity ∧
      fill.price = candidate.1.fillPrice ∧ fill.fee = candidate.1.fee ∧
      fill.tax = candidate.1.tax ∧ fill.feeTaxSource = candidate.1.feeTaxSource ∧
      fill.fillTimestamp = candidate.1.fillTimestamp := by
  simp [replayRow, buildNormalizedFill, fillEventOf, ofValue?_value, normalizeFeeTax]

theorem signedQuantity_replayRow (plan : BackfillPlan) (stamps : Stamps)
    (candidate : SyntheticFillCandidate × Nat) :
    signedQuantity (replayRow plan stamps candidate).2 = signedFill candidate.1 := by
  have hfill := replayRow_fill plan stamps candidate
  rw [signedQuantity, hfill.1, hfill.2.1]
  rfl

section
variable {reads : BackfillReads} {call : BackfillCall} {plan : BackfillPlan}

theorem replayOrder_moves (stamps : Stamps)
    (h : List.Forall₂ (Matches reads.brokerOrderIdOf reads.feeTaxTerms call)
      plan.syntheticFills (reads.rises call)) :
    (replayOrder plan stamps).map signedQuantity = riseMoves reads call stamps := by
  have hrows : (plan.syntheticFills.zipIdx.map (replayRow plan stamps)).map
      (fun row => (fillSortKey row.1, signedQuantity row.2)) =
        (reads.rises call).zipIdx.map fun rise =>
          (riseSortKey call stamps rise.2 rise.1, signed rise.1.order.side rise.1.quantity) := by
    rw [List.map_map]
    apply zipIdx_map_congr (R := Matches reads.brokerOrderIdOf reads.feeTaxTerms call) _ h
    intro candidate rise i hmatches
    have hkey : fillSortKey (fillEventOf stamps i candidate) = riseSortKey call stamps i rise := by
      have hfillId := hmatches.fillId
      cases hrise : rise.snap.brokerFillId with
      | none =>
        rw [hrise] at hfillId
        simp [fillSortKey, riseSortKey, fillEventOf, hmatches.time, hfillId, hrise]
      | some id =>
        rw [hrise] at hfillId
        simp [fillSortKey, riseSortKey, fillEventOf, hmatches.time, hfillId, hrise]
    simp only [Function.comp_apply, signedQuantity_replayRow, signedFill, hmatches.side,
      hmatches.quantity, Prod.mk.injEq, and_true]
    exact hkey
  rw [riseMoves, ← hrows, replayOrder, List.map_map,
    ← List.map_insertionSort (r := fun a b => fillBefore a.1 b.1) (s := fun a b => a.1 ≤ b.1)
      (fun row : FillEventEntity × NormalizedFill => (fillSortKey row.1, signedQuantity row.2)) _
      fun _ _ _ _ => Iff.rfl,
    List.map_map]
  rfl

end

theorem candidateCharges_honest {terms : Option FeeTaxTerms} {call : BackfillCall}
    {side : OrderSide} {fillPrice fillQuantity : ℚ} {fillTimestamp : Time} {result : FeeTaxResult}
    (h : candidateCharges terms call side fillPrice fillQuantity fillTimestamp = .ok result) :
    result.Honest := by
  unfold candidateCharges at h
  cases terms with
  | none =>
    cases h
    exact fun _ => ⟨rfl, rfl⟩
  | some terms =>
    obtain ⟨base, hbase, h⟩ := Library.bind_eq_ok.mp h
    have hhonest := computeFeeTax_honest hbase
    split at h
    · exact historicalPolicyEstimate_honest hhonest h
    · cases h
      exact hhonest

/-- The purchases cover the sales at every point. -/
def NeverShort (moves : List ℚ) : Prop := ∀ before, before <+: moves → 0 ≤ before.sum

/-- No order is first reported at a negative price, and the fee policy sets no negative charge on
a rise. -/
structure NothingNegative (reads : BackfillReads) (call : BackfillCall) : Prop where
  price : ∀ rise ∈ reads.rises call, rise.priorQty = 0 → 0 ≤ rise.snap.fillPrice
  charges : ∀ rise ∈ reads.rises call, ∀ price charges,
    inferDeltaPrice rise.snap.filledQuantity (some rise.snap.fillPrice) rise.priorQty
        rise.priorPrice = some price →
      candidateCharges reads.feeTaxTerms call rise.order.side price rise.quantity
        (fillTime call rise.snap) = .ok charges →
      0 ≤ charges.fee ∧ 0 ≤ charges.tax

section
variable {brokerOrderIdOf : OrderRequestEntity → Option UUID} {terms : Option FeeTaxTerms}
  {call : BackfillCall} {candidate : SyntheticFillCandidate} {rise : Rise}

theorem Matches.price_nonneg_iff (h : Matches brokerOrderIdOf terms call candidate rise) :
    0 ≤ candidate.fillPrice ↔ (rise.priorQty = 0 → 0 ≤ rise.snap.fillPrice) := by
  have hpriced := h.priced
  by_cases hfirst : rise.priorQty = 0
  · have hrises := h.rises
    rw [hfirst] at hpriced hrises
    rw [inferDeltaPrice_first hrises, Option.some.injEq] at hpriced
    simp [hfirst, hpriced]
  · obtain ⟨prior, hprior⟩ := Option.isSome_iff_exists.mp (h.prior hfirst)
    rw [hprior, inferDeltaPrice_later h.rises hfirst] at hpriced
    simp only [hfirst, IsEmpty.forall_iff, iff_true]
    split at hpriced
    · cases hpriced
    next htotal =>
      rw [← Option.some.inj hpriced]
      apply div_nonneg
      · exact sub_nonneg.mpr (not_lt.mp htotal)
      · exact (sub_pos.mpr h.rises).le

theorem Matches.valid_iff (h : Matches brokerOrderIdOf terms call candidate rise)
    (plan : BackfillPlan) (stamps : Stamps) (i : Nat) :
    validateFill (replayRow plan stamps (candidate, i)).2 = .ok () ↔
      (rise.priorQty = 0 → 0 ≤ rise.snap.fillPrice) ∧ ∀ price charges,
        inferDeltaPrice rise.snap.filledQuantity (some rise.snap.fillPrice) rise.priorQty
            rise.priorPrice = some price →
          candidateCharges terms call rise.order.side price rise.quantity
            (fillTime call rise.snap) = .ok charges →
          0 ≤ charges.fee ∧ 0 ≤ charges.tax := by
  obtain ⟨-, hquantity, hprice, hfee, htax, hsource, -⟩ := replayRow_fill plan stamps (candidate, i)
  have hpositive : 0 < candidate.fillQuantity := by
    rw [h.quantity]
    exact sub_pos.mpr h.rises
  have hhonest := candidateCharges_honest h.charged
  rw [validateFill_ok_iff, hquantity, hprice, hfee, htax, hsource, h.price_nonneg_iff]
  simp only [hpositive, true_and, and_congr_right_iff]
  intro _
  constructor
  · rintro ⟨hnonneg, -⟩ price charges hpriced hcharged
    have hsame := h.priced.symm.trans hpriced
    cases hsame
    have hcharges := h.charged.symm.trans hcharged
    cases hcharges
    exact hnonneg
  · intro hall
    exact ⟨hall _ _ h.priced h.charged, hhonest⟩

end

theorem forall_zipIdx_iff {α β : Type} {R : α → β → Prop} {P : α × Nat → Prop} {Q : β → Prop}
    (hpq : ∀ a b i, R a b → (P (a, i) ↔ Q b)) {as : List α} {bs : List β}
    (h : List.Forall₂ R as bs) (n : Nat) : (∀ a ∈ as.zipIdx n, P a) ↔ ∀ b ∈ bs, Q b := by
  induction h generalizing n with
  | nil => simp
  | cons hab _ ih =>
    rw [List.zipIdx_cons, List.forall_mem_cons, List.forall_mem_cons, hpq _ _ _ hab, ih]

section
variable {reads : BackfillReads} {call : BackfillCall} {plan : BackfillPlan}

theorem mem_replayOrder (plan : BackfillPlan) (stamps : Stamps) (fill : NormalizedFill) :
    fill ∈ replayOrder plan stamps ↔
      ∃ candidate ∈ plan.syntheticFills.zipIdx, (replayRow plan stamps candidate).2 = fill := by
  unfold replayOrder
  constructor
  · intro h
    obtain ⟨row, hrow, rfl⟩ := List.mem_map.mp h
    obtain ⟨candidate, hcandidate, rfl⟩ := List.mem_map.mp ((List.mem_insertionSort _).mp hrow)
    exact ⟨candidate, hcandidate, rfl⟩
  · rintro ⟨candidate, hcandidate, rfl⟩
    exact List.mem_map_of_mem ((List.mem_insertionSort _).mpr (List.mem_map_of_mem hcandidate))

theorem replayOrder_valid_iff (stamps : Stamps)
    (h : List.Forall₂ (Matches reads.brokerOrderIdOf reads.feeTaxTerms call)
      plan.syntheticFills (reads.rises call)) :
    (∀ fill ∈ replayOrder plan stamps, validateFill fill = .ok ()) ↔
      NothingNegative reads call := by
  have hrows : (∀ fill ∈ replayOrder plan stamps, validateFill fill = .ok ()) ↔
      ∀ candidate ∈ plan.syntheticFills.zipIdx,
        validateFill (replayRow plan stamps candidate).2 = .ok () := by
    simp only [mem_replayOrder]
    constructor
    · intro hall candidate hcandidate
      exact hall _ ⟨candidate, hcandidate, rfl⟩
    · rintro hall _ ⟨candidate, hcandidate, rfl⟩
      exact hall candidate hcandidate
  rw [hrows,
    forall_zipIdx_iff (fun candidate rise i hmatches => hmatches.valid_iff plan stamps i) h]
  constructor
  · intro hall
    exact ⟨fun rise hrise => (hall rise hrise).1, fun rise hrise => (hall rise hrise).2⟩
  · intro hnonneg rise hrise
    exact ⟨hnonneg.price rise hrise, hnonneg.charges rise hrise⟩

theorem replayOrder_ordered (plan : BackfillPlan) (stamps : Stamps) :
    (replayOrder plan stamps).Pairwise fun a b => a.fillTimestamp ≤ b.fillTimestamp := by
  have htotal : Std.Total fun a b : FillEventEntity × NormalizedFill => fillBefore a.1 b.1 :=
    ⟨fun a b => Std.Total.total (r := fillBefore) a.1 b.1⟩
  have htrans : IsTrans (FillEventEntity × NormalizedFill) fun a b => fillBefore a.1 b.1 :=
    ⟨fun a b c => IsTrans.trans (r := fillBefore) a.1 b.1 c.1⟩
  have hsorted := List.pairwise_insertionSort
    (fun a b : FillEventEntity × NormalizedFill => fillBefore a.1 b.1)
    (plan.syntheticFills.zipIdx.map (replayRow plan stamps))
  rw [replayOrder, List.pairwise_map]
  refine hsorted.imp_of_mem fun {a b} ha hb hab => ?_
  have hstamped : ∀ row ∈ (plan.syntheticFills.zipIdx.map (replayRow plan stamps)).insertionSort
      (fun a b => fillBefore a.1 b.1), row.2.fillTimestamp = row.1.fillTimestamp := by
    intro row hrow
    obtain ⟨candidate, -, rfl⟩ := List.mem_map.mp ((List.mem_insertionSort _).mp hrow)
    exact (replayRow_fill plan stamps candidate).2.2.2.2.2.2
  rw [hstamped a ha, hstamped b hb]
  exact Trades.fillTimestamp_le hab

theorem positionAfter_replayOrder (plan : BackfillPlan) (stamps : Stamps) :
    positionAfter (replayOrder plan stamps) = (plan.syntheticFills.map signedFill).sum := by
  have hperm := List.perm_insertionSort
    (fun a b : FillEventEntity × NormalizedFill => fillBefore a.1 b.1)
    (plan.syntheticFills.zipIdx.map (replayRow plan stamps))
  rw [positionAfter, replayOrder, ((hperm.map (·.2)).map signedQuantity).sum_eq]
  have hmoves : (signedQuantity ∘ fun row : FillEventEntity × NormalizedFill => row.2) ∘
      replayRow plan stamps = signedFill ∘ Prod.fst :=
    funext fun candidate => signedQuantity_replayRow plan stamps candidate
  rw [List.map_map, List.map_map, Function.comp_assoc, ← Function.comp_assoc, hmoves,
    ← List.map_map, List.zipIdx_map_fst]

/-- Before the first order of the window the position was last seen at zero, if at all. -/
def OpensFlat (reads : BackfillReads) (call : BackfillCall) : Prop :=
  ∀ first ∈ (reads.windowOrders call).head?, ∀ position ∈
    reads.latestPositionBefore call (first.createdAt.getD (BackfillReads.windowStart call)),
    position.quantity = 0

/-- An order that enters the position without a filled order before the window finds no position
seen before it, or one at zero. -/
def EntersFlat (reads : BackfillReads) (call : BackfillCall) : Prop :=
  ∀ first ∈ (reads.windowOrders call).head?, first.side = .buy →
    (∀ order ∈ reads.allFilledOrders call, BackfillReads.windowStart call ≤
      order.createdAt.getD (BackfillReads.windowStart call)) →
    ∀ position ∈ reads.latestPositionBefore call
      (first.createdAt.getD (BackfillReads.windowStart call)), position.quantity = 0

theorem opensFlat_iff {first : OrderRequestEntity} {others : List OrderRequestEntity}
    {anchor : BackfillAnchorType × Option Time}
    (horders : reads.windowOrders call = first :: others)
    (hanchor : reads.anchor call first = .ok anchor) :
    OpensFlat reads call ↔ EntersFlat reads call := by
  constructor
  · intro h first' hfirst _ _
    exact h first' hfirst
  · intro h first' hfirst position hposition
    have heq : first' = first := by simpa [horders] using hfirst.symm
    subst heq
    by_contra hnonzero
    unfold BackfillReads.anchor at hanchor
    simp only at hanchor
    rw [Option.mem_def] at hposition
    rw [hposition] at hanchor
    simp only [Option.filter_some, hnonzero, decide_false, Bool.false_eq_true, if_false] at hanchor
    split at hanchor
    · cases hanchor
    next hentry =>
      simp only [not_or, List.any_eq_true, decide_eq_true_eq, not_exists, not_and, not_lt,
        ne_eq, not_not] at hentry
      exact hnonzero (h first' hfirst hentry.2 hentry.1 position hposition)

/-- The plan's fills replay from nothing, to the quantity the plan expects. -/
def Replays (plan : BackfillPlan) (stamps : Stamps) (deriveEventId : UUID → UUID)
    (runId : UUID) : Prop :=
  ∃ result, replayFills exact deriveEventId (replayOrder plan stamps) runId = .ok result ∧
    quantityOf result.finalState = plan.expectedFinalQuantity ∧ 0 ≤ plan.expectedFinalQuantity

/-- What an eligible plan promises holds just when the position is not entered over one seen
before, the sales are covered in the order of the replay, and nothing is negative. -/
theorem eligible_sound_iff (reads : BackfillReads) (call : BackfillCall) (plan : BackfillPlan)
    (hplan : buildBackfillPlan reads call = .ok plan) (heligible : plan.eligible = true)
    (stamps : Stamps) (deriveEventId : UUID → UUID) (runId : UUID) :
    (OpensFlat reads call ∧ Replays plan stamps deriveEventId runId) ↔
      EntersFlat reads call ∧ NeverShort (riseMoves reads call stamps) ∧
        NothingNegative reads call := by
  obtain ⟨first, others, anchor, details, horders, hanchor, hdecoded, hparts⟩ :=
    eligible_parts hplan heligible
  have hfills : plan.syntheticFills = details.flatMap (·.candidates) := by rw [hparts]; rfl
  have hmatched : List.Forall₂ (Matches reads.brokerOrderIdOf reads.feeTaxTerms call)
      plan.syntheticFills (reads.rises call) := by
    rw [hfills, BackfillReads.rises, horders]
    exact matches_flatMap hdecoded
  have hexpected : plan.expectedFinalQuantity = positionAfter (replayOrder plan stamps) := by
    rw [positionAfter_replayOrder, hfills, ← expected_eq_sum hdecoded, hparts]
    rfl
  have hreplay := replayFills_ok_iff deriveEventId runId (replayOrder_ordered plan stamps)
  rw [replayOrder_valid_iff stamps hmatched, covered_zero_iff, replayOrder_moves stamps hmatched]
    at hreplay
  rw [opensFlat_iff horders hanchor, Replays, hexpected]
  constructor
  · rintro ⟨hflat, result, hok, hquantity, -⟩
    obtain ⟨hnonneg, hcovered⟩ := hreplay.mp ⟨result, hok, hquantity⟩
    exact ⟨hflat, hcovered, hnonneg⟩
  · rintro ⟨hflat, hcovered, hnonneg⟩
    obtain ⟨result, hok, hquantity⟩ := hreplay.mpr ⟨hnonneg, hcovered⟩
    refine ⟨hflat, result, hok, hquantity, ?_⟩
    rw [positionAfter, replayOrder_moves stamps hmatched]
    exact hcovered _ List.prefix_rfl

end

def soldTen : OrderRequestEntity :=
  { boughtTen with orderRequestId := 2, side := .sell, createdAt := some 200 }

def brokerOrderOf (orderRequestId : UUID) : BrokerOrderEntity where
  brokerOrderId := 10 + orderRequestId
  orderRequestId := orderRequestId
  brokerName := "koreainvestment"
  brokerStatus := "filled"
  brokerNativeOrderId := some "n-1"

/-- Ten bought and ten sold, each seen once, at 100 past the time given. -/
def boughtAndSold (positions : List PositionSnapshotEntity) (boughtAt soldAt : UUID) :
    BackfillReads where
  orders := [soldTen, boughtTen]
  positions := positions
  brokerFillSnapshots := fun orderRequestId =>
    if orderRequestId = 1 then [seenAt boughtAt 10 100] else [seenAt soldAt 10 110]
  brokerOrders := [brokerOrderOf 1, brokerOrderOf 2]
  feeTaxTerms := none
  orders_nodup := by decide
  brokerOrders_nodup := by decide

def countedStamps : Stamps where
  fillEventId := fun i => 500 + i
  createdAt := fun _ => none

def planOf (reads : BackfillReads) : BackfillPlan :=
  ((buildBackfillPlan reads sinceStart).toOption).getD
    (emptyPlan sinceStart .snapshotMissing none)

theorem planOf_built {reads : BackfillReads}
    (h : (buildBackfillPlan reads sinceStart).toOption = some (planOf reads)) :
    buildBackfillPlan reads sinceStart = .ok (planOf reads) := Library.toOption_eq_some.mp h

/-- Bought at 101 and sold at 300. -/
theorem eligible_sound_boughtFirst :
    (OpensFlat (boughtAndSold [] 1 200) sinceStart ∧
        Replays (planOf (boughtAndSold [] 1 200)) countedStamps id 7) ↔
      EntersFlat (boughtAndSold [] 1 200) sinceStart ∧
        NeverShort (riseMoves (boughtAndSold [] 1 200) sinceStart countedStamps) ∧
        NothingNegative (boughtAndSold [] 1 200) sinceStart :=
  eligible_sound_iff _ _ _ (planOf_built (by decide +kernel)) (by decide +kernel) _ _ _

/-- The purchase, created first, is seen after the sale, and five were held when it was placed:
the plan is eligible, opens over the five and does not replay. -/
theorem eligible_saleSeenFirst :
    let reads := boughtAndSold [⟨1, 1, 5, 50⟩] 300 200
    buildBackfillPlan reads sinceStart = .ok (planOf reads) ∧
      (planOf reads).eligible = true ∧ ¬ OpensFlat reads sinceStart ∧
      ¬ Replays (planOf reads) countedStamps id 7 := by
  refine ⟨planOf_built (by decide +kernel), by decide +kernel, ?_, ?_⟩
  · intro h
    have hflat := h boughtTen (by decide +kernel) ⟨1, 1, 5, 50⟩ (by decide +kernel)
    exact absurd hflat (by decide)
  · rintro ⟨result, hok, -, -⟩
    have hfails : (replayFills exact id
        (replayOrder (planOf (boughtAndSold [⟨1, 1, 5, 50⟩] 300 200)) countedStamps) 7).toOption =
          none := by
      decide +kernel
    rw [hok] at hfails
    cases hfails

end AgentTrading.Backfill
