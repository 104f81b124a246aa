import Mathlib.Tactic.FieldSimp
import Mathlib.Tactic.Linarith
import AgentTrading.Backfill.Plan

/-! The increments of a backfill against those of the resolver that polls. Both split the
weighted average; they differ in the average they keep while the quantity stands still. -/
namespace AgentTrading.Backfill
open Domain Fills

/-! The loop over the snapshots, one at a time. -/

section
variable {terms : Option FeeTaxTerms} {call : BackfillCall} {lineage : OrderLineage}

theorem candidateOf_copies {snap : BrokerFillSnapshotEntity} {deltaQty inferredPrice : ℚ}
    {candidate : SyntheticFillCandidate}
    (h : candidateOf terms call lineage snap deltaQty inferredPrice = .ok candidate) :
    candidate.brokerOrderId = lineage.brokerOrderId ∧ candidate.side = lineage.order.side ∧
      candidate.fillQuantity = deltaQty ∧ candidate.fillPrice = inferredPrice ∧
      candidate.fillTimestamp = fillTime call snap ∧
      candidate.brokerFillId = snap.brokerFillId := by
  unfold candidateOf at h
  obtain ⟨charges, -, h⟩ := Library.bind_eq_ok.mp h
  cases h
  exact ⟨rfl, rfl, rfl, rfl, rfl, rfl⟩

theorem decode_cons {priorQty : ℚ} {priorPrice : Option ℚ} {snap : BrokerFillSnapshotEntity}
    {rest : List BrokerFillSnapshotEntity} {candidates : List SyntheticFillCandidate} {final : ℚ}
    (h : decode terms call lineage priorQty priorPrice (snap :: rest) = .ok (candidates, final)) :
    (snap.filledQuantity = priorQty ∧
      decode terms call lineage priorQty priorPrice rest = .ok (candidates, final)) ∨
    (priorQty < snap.filledQuantity ∧ ∃ price candidate found,
      inferDeltaPrice snap.filledQuantity (some snap.fillPrice) priorQty priorPrice = some price ∧
      candidateOf terms call lineage snap (snap.filledQuantity - priorQty) price = .ok candidate ∧
      decode terms call lineage snap.filledQuantity (some snap.fillPrice) rest =
        .ok (found, final) ∧ candidates = candidate :: found) := by
  rw [decode] at h
  by_cases hcancelled : cancelled snap = true
  · rw [if_pos hcancelled] at h
    cases h
  rw [if_neg hcancelled] at h
  by_cases hnegative : snap.filledQuantity - priorQty < 0
  · rw [if_pos hnegative] at h
    cases h
  rw [if_neg hnegative] at h
  by_cases hzero : snap.filledQuantity - priorQty = 0
  · rw [if_pos hzero] at h
    exact Or.inl ⟨sub_eq_zero.mp hzero, h⟩
  rw [if_neg hzero] at h
  right
  constructor
  · exact sub_pos.mp (lt_of_le_of_ne (not_lt.mp hnegative) (Ne.symm hzero))
  · cases hprice : inferDeltaPrice snap.filledQuantity (some snap.fillPrice) priorQty
        priorPrice with
    | none =>
      rw [hprice] at h
      cases h
    | some price =>
      cases hcandidate : candidateOf terms call lineage snap (snap.filledQuantity - priorQty)
          price with
      | error e =>
        simp only [hprice, hcandidate] at h
        cases h
      | ok candidate =>
        simp only [hprice, hcandidate] at h
        obtain ⟨⟨found, last⟩, hfound, hpair⟩ := Library.map_eq_ok.mp h
        cases hpair
        exact ⟨price, candidate, found, rfl, hcandidate, hfound, rfl⟩

theorem decode_rises {priorQty : ℚ} {priorPrice : Option ℚ}
    {snapshots : List BrokerFillSnapshotEntity} {candidates : List SyntheticFillCandidate}
    {final : ℚ}
    (h : decode terms call lineage priorQty priorPrice snapshots = .ok (candidates, final)) :
    ∀ snap ∈ snapshots, priorQty ≤ snap.filledQuantity := by
  induction snapshots generalizing priorQty priorPrice candidates with
  | nil => simp
  | cons snap rest ih =>
    intro other hother
    rcases decode_cons h with ⟨hsame, hrest⟩ | ⟨hrise, price, candidate, found, -, -, hrest, -⟩
    · rcases List.mem_cons.mp hother with rfl | hother
      · exact hsame.ge
      · exact ih hrest other hother
    · rcases List.mem_cons.mp hother with rfl | hother
      · exact hrise.le
      · exact hrise.le.trans (ih hrest other hother)

end

/-- What the resolver is given beside the quantity and the price. -/
structure Polling where
  accountId : UUID
  brokerName : String
  brokerNativeOrderId : String
  rawFieldFingerprint : BrokerFillSnapshotEntity → Option String := fun _ => none
  observedAt : BrokerFillSnapshotEntity → Time
  freshId : BrokerFillSnapshotEntity → UUID

namespace Polling

variable (polling : Polling)

def observation (snap : BrokerFillSnapshotEntity) : Observation where
  accountId := polling.accountId
  brokerName := polling.brokerName
  brokerNativeOrderId := polling.brokerNativeOrderId
  currentCumulativeQuantity := snap.filledQuantity
  currentAveragePrice := some snap.fillPrice
  rawFieldFingerprint := polling.rawFieldFingerprint snap

def resolve (state : Option KisFillCumulativeStateEntity) (snap : BrokerFillSnapshotEntity) :
    IncrementalFillDecision × Option KisFillCumulativeStateEntity :=
  resolveIncrementalFill state (polling.observation snap) (polling.observedAt snap)
    (polling.freshId snap)

/-- The increments the resolver emits. -/
def resolveAll (state : Option KisFillCumulativeStateEntity) :
    List BrokerFillSnapshotEntity → List (ℚ × ℚ)
  | [] => []
  | snap :: rest =>
    match polling.resolve state snap with
    | (.newFill deltaQuantity inferredPrice, state) =>
      (deltaQuantity, inferredPrice) :: resolveAll state rest
    | (_, state) => resolveAll state rest

/-- The stored state has this quantity and this average. -/
def Stores (state : Option KisFillCumulativeStateEntity) (quantity : ℚ) (average : Option ℚ) :
    Prop :=
  lastQuantity state = quantity ∧ state.bind (·.lastAverageFillPrice) = average

variable {state : Option KisFillCumulativeStateEntity} {quantity : ℚ} {average : Option ℚ}
  {snap : BrokerFillSnapshotEntity} (rest : List BrokerFillSnapshotEntity)

theorem resolveAll_same (h : Stores state quantity average)
    (hsame : snap.filledQuantity = quantity) :
    ∃ state', polling.resolveAll state (snap :: rest) = polling.resolveAll state' rest ∧
      Stores state' quantity (orPrice (some snap.fillPrice) average) := by
  obtain ⟨rfl, rfl⟩ := h
  have hzero : snap.filledQuantity - lastQuantity state = 0 := sub_eq_zero.mpr hsame
  have hresolve : ∃ state', polling.resolve state snap = (.noNewFill, state') ∧
      Stores state' (lastQuantity state)
        (orPrice (some snap.fillPrice) (state.bind (·.lastAverageFillPrice))) := by
    simp only [resolve, resolveIncrementalFill, observation, hzero, if_true]
    exact ⟨_, rfl, hsame, rfl⟩
  obtain ⟨state', hresolve, hstores⟩ := hresolve
  exact ⟨state', by simp only [resolveAll, hresolve], hstores⟩

theorem resolveAll_rise (h : Stores state quantity average)
    (hrise : quantity < snap.filledQuantity) :
    (inferDeltaPrice snap.filledQuantity (some snap.fillPrice) quantity average = none ∧
      polling.resolveAll state (snap :: rest) = polling.resolveAll state rest) ∨
    ∃ price state',
      inferDeltaPrice snap.filledQuantity (some snap.fillPrice) quantity average = some price ∧
      polling.resolveAll state (snap :: rest) =
        (snap.filledQuantity - quantity, price) :: polling.resolveAll state' rest ∧
      Stores state' snap.filledQuantity (some snap.fillPrice) := by
  obtain ⟨rfl, rfl⟩ := h
  have hzero : snap.filledQuantity - lastQuantity state ≠ 0 := (sub_pos.mpr hrise).ne'
  have hnegative : ¬ snap.filledQuantity - lastQuantity state < 0 := (sub_pos.mpr hrise).le.not_gt
  cases hprice : inferDeltaPrice snap.filledQuantity (some snap.fillPrice) (lastQuantity state)
      (state.bind (·.lastAverageFillPrice)) with
  | none =>
    left
    have hresolve : polling.resolve state snap = (.anomaly .unpriceableDelta, state) := by
      simp only [resolve, resolveIncrementalFill, observation, if_neg hzero, if_neg hnegative,
        hprice]
    simp only [resolveAll, hresolve, true_and]
  | some price =>
    right
    have hresolve : ∃ state', polling.resolve state snap =
        (.newFill (snap.filledQuantity - lastQuantity state) price, state') ∧
          Stores state' snap.filledQuantity (some snap.fillPrice) := by
      simp only [resolve, resolveIncrementalFill, observation, if_neg hzero, if_neg hnegative,
        hprice]
      exact ⟨_, rfl, rfl, rfl⟩
    obtain ⟨state', hresolve, hstores⟩ := hresolve
    exact ⟨price, state', rfl, by simp only [resolveAll, hresolve], hstores⟩

theorem resolveAll_first {snapshots : List BrokerFillSnapshotEntity} {first : ℚ × ℚ}
    {others : List (ℚ × ℚ)} (h : polling.resolveAll state snapshots = first :: others) :
    ∃ snap ∈ snapshots, first.1 = snap.filledQuantity - lastQuantity state := by
  induction snapshots generalizing state with
  | nil => simp [resolveAll] at h
  | cons snap rest ih =>
    have hcases := resolveIncrementalFill_cases state (polling.observation snap)
      (polling.observedAt snap) (polling.freshId snap)
    rw [show resolveIncrementalFill state _ _ _ = polling.resolve state snap from rfl] at hcases
    rw [resolveAll] at h
    generalize polling.resolve state snap = resolved at h hcases
    obtain ⟨decision, state'⟩ := resolved
    have hlater : lastQuantity state' = lastQuantity state →
        polling.resolveAll state' rest = first :: others →
        ∃ snap' ∈ snap :: rest, first.1 = snap'.filledQuantity - lastQuantity state := by
      intro hkept hrest
      obtain ⟨snap', hmem, hfirst⟩ := ih hrest
      exact ⟨snap', List.mem_cons_of_mem _ hmem, by rw [hfirst, hkept]⟩
    rcases hcases with ⟨rfl, -, hkept⟩ | ⟨reason, rfl, rfl⟩ | ⟨price, rfl, -, -⟩
    · exact hlater hkept h
    · exact hlater rfl h
    · injection h with hfirst hothers
      exact ⟨snap, List.mem_cons_self, by rw [← hfirst]; rfl⟩

end Polling

mutual

/-- At `quantity` the backfill keeps the average `first` and the resolver `last`. A rise of a
positive quantity finds them equal, or the resolver cannot price it yet. -/
def Agrees (quantity first last : ℚ) : List (ℚ × ℚ) → Prop
  | [] => True
  | (filled, average) :: rest =>
    if filled = quantity then Agrees quantity first (if average = 0 then last else average) rest
    else if quantity = 0 ∨ last = first then Agrees filled average average rest
    else average * filled < last * quantity ∧
      MakesUp filled average (last * quantity) (average * filled - first * quantity) rest

/-- The resolver cannot price a rise below the `booked` total. The first total of the same
quantity that is not below exceeds it by the `amount` of the backfill's increment. -/
def MakesUp (quantity first booked amount : ℚ) : List (ℚ × ℚ) → Prop
  | [] => False
  | (filled, average) :: rest =>
    filled = quantity ∧
      if average * filled < booked then MakesUp quantity first booked amount rest
      else average * filled - booked = amount ∧ Agrees filled first average rest

end

/-- The quantities and averages that the broker reported. -/
def observed (snapshots : List BrokerFillSnapshotEntity) : List (ℚ × ℚ) :=
  snapshots.map fun snap => (snap.filledQuantity, snap.fillPrice)

theorem observed_cons (snap : BrokerFillSnapshotEntity) (rest : List BrokerFillSnapshotEntity) :
    observed (snap :: rest) = (snap.filledQuantity, snap.fillPrice) :: observed rest := rfl

def increments (candidates : List SyntheticFillCandidate) : List (ℚ × ℚ) :=
  candidates.map fun candidate => (candidate.fillQuantity, candidate.fillPrice)

theorem inferDeltaPrice_first {quantity average : ℚ} {priorAvg : Option ℚ} (h : 0 < quantity) :
    inferDeltaPrice quantity (some average) 0 priorAvg = some average := by
  have hdelta : ¬ quantity ≤ 0 := not_le.mpr h
  cases priorAvg with
  | none => simp [inferDeltaPrice, hdelta]
  | some prior => simp [inferDeltaPrice, hdelta]

theorem inferDeltaPrice_later {filled quantity average prior : ℚ} (h : quantity < filled)
    (hquantity : quantity ≠ 0) :
    inferDeltaPrice filled (some average) quantity (some prior) =
      if average * filled < prior * quantity then none
      else some ((average * filled - prior * quantity) / (filled - quantity)) := by
  have hdelta : ¬ filled ≤ quantity := not_le.mpr h
  simp [inferDeltaPrice, hdelta, hquantity]

/-- The increments of the decoder and of the resolver on the same observations, where the two
stand at the same quantity, and where the resolver has yet to price the last rise. -/
structure Compared (terms : Option FeeTaxTerms) (call : BackfillCall) (lineage : OrderLineage)
    (polling : Polling) (snapshots : List BrokerFillSnapshotEntity) : Prop where
  level : ∀ quantity first last priorPrice state candidates final, 0 ≤ quantity →
    decode terms call lineage quantity priorPrice snapshots = .ok (candidates, final) →
    (quantity ≠ 0 → priorPrice = some first ∧ Polling.Stores state quantity (some last)) →
    lastQuantity state = quantity →
    (polling.resolveAll state snapshots = increments candidates ↔
      Agrees quantity first last (observed snapshots))
  behind : ∀ quantity first last stored price state candidates final, 0 < stored →
    stored < quantity →
    decode terms call lineage quantity (some first) snapshots = .ok (candidates, final) →
    Polling.Stores state stored (some last) →
    (polling.resolveAll state snapshots = (quantity - stored, price) :: increments candidates ↔
      MakesUp quantity first (last * stored) (price * (quantity - stored)) (observed snapshots))

section
variable {terms : Option FeeTaxTerms} {call : BackfillCall} {lineage : OrderLineage}
  {polling : Polling} {snap : BrokerFillSnapshotEntity} {rest : List BrokerFillSnapshotEntity}

/-- The next increment where the two have kept different averages: only an amount that is taken
for a fall can still be made up for. -/
theorem Compared.level_later (ih : Compared terms call lineage polling rest)
    {quantity first last price : ℚ} {state : Option KisFillCumulativeStateEntity}
    {found : List SyntheticFillCandidate} {final : ℚ} (hquantity : 0 < quantity)
    (hlevel : last ≠ first) (hrise : quantity < snap.filledQuantity)
    (hrest : decode terms call lineage snap.filledQuantity (some snap.fillPrice) rest =
      .ok (found, final))
    (hprice : inferDeltaPrice snap.filledQuantity (some snap.fillPrice) quantity (some first) =
      some price)
    (hstate : Polling.Stores state quantity (some last)) :
    polling.resolveAll state (snap :: rest) =
        (snap.filledQuantity - quantity, price) :: increments found ↔
      snap.fillPrice * snap.filledQuantity < last * quantity ∧
        MakesUp snap.filledQuantity snap.fillPrice (last * quantity)
          (snap.fillPrice * snap.filledQuantity - first * quantity) (observed rest) := by
  have hgap : snap.filledQuantity - quantity ≠ 0 := (sub_pos.mpr hrise).ne'
  have hrises := Polling.resolveAll_rise polling rest hstate hrise
  rw [inferDeltaPrice_later hrise hquantity.ne'] at hprice hrises
  have hamount : price * (snap.filledQuantity - quantity) =
      snap.fillPrice * snap.filledQuantity - first * quantity := by
    split at hprice
    · cases hprice
    · rw [← Option.some.inj hprice, div_mul_cancel₀ _ hgap]
  by_cases hbelow : snap.fillPrice * snap.filledQuantity < last * quantity
  · rw [if_pos hbelow] at hrises
    rcases hrises with ⟨-, hresolve⟩ | ⟨_, _, hnone, -⟩
    · have hbehind := ih.behind _ _ _ _ price _ _ _ hquantity hrise hrest hstate
      rw [hresolve, hbehind, hamount]
      exact (and_iff_right hbelow).symm
    · cases hnone
  · rw [if_neg hbelow] at hrises
    rcases hrises with ⟨hnone, -⟩ | ⟨price', state', hprice', hresolve, -⟩
    · cases hnone
    · constructor
      · intro hlist
        rw [hresolve] at hlist
        injection hlist with hhead htail
        have hsame : price' = price := congrArg Prod.snd hhead
        rw [← hsame, ← Option.some.inj hprice', div_mul_cancel₀ _ hgap] at hamount
        have htotal : last * quantity = first * quantity := by linarith
        exact (hlevel (mul_right_cancel₀ hquantity.ne' htotal)).elim
      · rintro ⟨hlt, -⟩
        exact (hbelow hlt).elim

theorem Compared.level_cons (ih : Compared terms call lineage polling rest)
    {quantity first last : ℚ} {priorPrice : Option ℚ}
    {state : Option KisFillCumulativeStateEntity} {candidates : List SyntheticFillCandidate}
    {final : ℚ} (hquantity : 0 ≤ quantity)
    (hdecode : decode terms call lineage quantity priorPrice (snap :: rest) =
      .ok (candidates, final))
    (hkept : quantity ≠ 0 → priorPrice = some first ∧ Polling.Stores state quantity (some last))
    (hstate : lastQuantity state = quantity) :
    polling.resolveAll state (snap :: rest) = increments candidates ↔
      Agrees quantity first last (observed (snap :: rest)) := by
  rw [observed_cons, Agrees]
  rcases decode_cons hdecode with ⟨hsame, hrest⟩ |
    ⟨hrise, price, candidate, found, hprice, hcandidate, hrest, rfl⟩
  · -- The quantity stands still.
    rw [if_pos hsame]
    obtain ⟨state', hresolve, hstores⟩ :=
      Polling.resolveAll_same polling rest ⟨hstate, rfl⟩ hsame
    rw [hresolve]
    apply ih.level _ _ _ _ _ _ _ hquantity hrest
    · intro hpositive
      obtain ⟨hprior, -, haverage⟩ := hkept hpositive
      refine ⟨hprior, hstores.1, ?_⟩
      rw [hstores.2, haverage]
      by_cases hfree : snap.fillPrice = 0
      · simp [orPrice, hfree]
      · simp [orPrice, hfree]
    · exact hstores.1
  · rw [if_neg hrise.ne']
    have hcopies := candidateOf_copies hcandidate
    have hpositive : 0 < snap.filledQuantity := hquantity.trans_lt hrise
    have hnext : ∀ state', Polling.Stores state' snap.filledQuantity (some snap.fillPrice) →
        (polling.resolveAll state' rest = increments found ↔
          Agrees snap.filledQuantity snap.fillPrice snap.fillPrice (observed rest)) :=
      fun state' hstores =>
        ih.level _ _ _ _ _ _ _ hpositive.le hrest (fun _ => ⟨rfl, hstores⟩) hstores.1
    have hincrements : increments (candidate :: found) =
        (snap.filledQuantity - quantity, price) :: increments found := by
      rw [increments, List.map_cons, hcopies.2.2.1, hcopies.2.2.2.1]
      rfl
    rw [hincrements]
    have hequal : inferDeltaPrice snap.filledQuantity (some snap.fillPrice) quantity
          (state.bind (·.lastAverageFillPrice)) = some price →
        (polling.resolveAll state (snap :: rest) =
            (snap.filledQuantity - quantity, price) :: increments found ↔
          Agrees snap.filledQuantity snap.fillPrice snap.fillPrice (observed rest)) := by
      intro hinferred
      have hrises := Polling.resolveAll_rise polling rest ⟨hstate, rfl⟩ hrise
      rw [hinferred] at hrises
      rcases hrises with ⟨hnone, -⟩ | ⟨price', state', hprice', hresolve, hstores⟩
      · cases hnone
      · cases hprice'
        rw [hresolve, ← hnext state' hstores]
        simp
    by_cases hfirst : quantity = 0
    · -- The first increment costs the reported average.
      rw [if_pos (Or.inl hfirst)]
      apply hequal
      rw [← hprice, hfirst, inferDeltaPrice_first hpositive, inferDeltaPrice_first hpositive]
    obtain ⟨hprior, -, haverage⟩ := hkept hfirst
    by_cases hlevel : last = first
    · rw [if_pos (Or.inr hlevel)]
      apply hequal
      rw [haverage, hlevel, ← hprior, hprice]
    · rw [if_neg (not_or.mpr ⟨hfirst, hlevel⟩)]
      rw [hprior] at hprice
      exact ih.level_later (lt_of_le_of_ne hquantity (Ne.symm hfirst)) hlevel hrise hrest hprice
        ⟨hstate, haverage⟩

theorem Compared.behind_cons (ih : Compared terms call lineage polling rest)
    {quantity first last stored price : ℚ} {state : Option KisFillCumulativeStateEntity}
    {candidates : List SyntheticFillCandidate} {final : ℚ} (hstored : 0 < stored)
    (hbehind : stored < quantity)
    (hdecode : decode terms call lineage quantity (some first) (snap :: rest) =
      .ok (candidates, final))
    (hstate : Polling.Stores state stored (some last)) :
    polling.resolveAll state (snap :: rest) = (quantity - stored, price) :: increments candidates ↔
      MakesUp quantity first (last * stored) (price * (quantity - stored))
        (observed (snap :: rest)) := by
  rw [observed_cons, MakesUp]
  rcases decode_cons hdecode with ⟨hsame, hrest⟩ | ⟨hrise, _, _, _, -, -, -, -⟩
  · rw [and_iff_right hsame]
    have hrises := Polling.resolveAll_rise polling rest hstate (hbehind.trans_eq hsame.symm)
    have hgap : quantity - stored ≠ 0 := (sub_pos.mpr hbehind).ne'
    rw [hsame, inferDeltaPrice_later hbehind hstored.ne'] at hrises
    rw [hsame]
    by_cases hbelow : snap.fillPrice * quantity < last * stored
    · rw [if_pos hbelow] at hrises ⊢
      rcases hrises with ⟨-, hresolve⟩ | ⟨_, _, hnone, -⟩
      · rw [hresolve]
        exact ih.behind _ _ _ _ _ _ _ _ hstored hbehind hrest hstate
      · cases hnone
    · rw [if_neg hbelow] at hrises ⊢
      rcases hrises with ⟨hnone, -⟩ | ⟨price', state', hprice', hresolve, hstores⟩
      · cases hnone
      · have hlevel := ih.level quantity first snap.fillPrice _ state' _ _
          (hstored.trans hbehind).le hrest (fun _ => ⟨rfl, hstores⟩) hstores.1
        have hamount : price' = price ↔
            snap.fillPrice * quantity - last * stored = price * (quantity - stored) := by
          rw [← Option.some.inj hprice', div_eq_iff hgap]
        rw [hresolve, ← hlevel, ← hamount]
        simp
  · -- The backfill has gone on to the next increment.
    constructor
    · intro hlist
      obtain ⟨later, hlater, hfirst⟩ := Polling.resolveAll_first polling hlist
      have hquantity : snap.filledQuantity ≤ later.filledQuantity := by
        rcases List.mem_cons.mp hlater with rfl | hlater
        · exact le_rfl
        · rcases decode_cons hdecode with ⟨hsame, -⟩ | ⟨-, _, _, _, -, -, hrest, -⟩
          · exact (hrise.ne' hsame).elim
          · exact decode_rises hrest later hlater
      rw [hstate.1] at hfirst
      linarith
    · rintro ⟨hsame, -⟩
      exact (hrise.ne' hsame).elim

theorem compared (snapshots : List BrokerFillSnapshotEntity) :
    Compared terms call lineage polling snapshots := by
  induction snapshots with
  | nil =>
    constructor
    · intro quantity first last priorPrice state candidates final _ hdecode _ _
      cases hdecode
      simp [Polling.resolveAll, increments, observed, Agrees]
    · intro quantity first last stored price state candidates final _ _ hdecode _
      cases hdecode
      simp [Polling.resolveAll, observed, MakesUp]
  | cons snap rest ih =>
    constructor
    · intro quantity first last priorPrice state candidates final
      exact ih.level_cons
    · intro quantity first last stored price state candidates final
      exact ih.behind_cons

end

/-- On the observations that the backfill accepts, the resolver emits the same increments just
when the averages agree. -/
theorem increments_agree_iff (terms : Option FeeTaxTerms) (call : BackfillCall)
    (lineage : OrderLineage) (polling : Polling) (snapshots : List BrokerFillSnapshotEntity)
    (candidates : List SyntheticFillCandidate) (final : ℚ)
    (haccepted : decode terms call lineage 0 none snapshots = .ok (candidates, final)) :
    polling.resolveAll none snapshots = increments candidates ↔
      Agrees 0 0 0 (observed snapshots) :=
  (compared snapshots).level 0 0 0 none none candidates final le_rfl haccepted
    (fun hpositive => (hpositive rfl).elim) rfl

def boughtTen : OrderRequestEntity where
  orderRequestId := 1
  accountId := 1
  instrumentId := 1
  clientOrderId := "c-1"
  idempotencyKey := "i-1"
  correlationId := "r-1"
  side := .buy
  orderType := .limit
  requestedQuantity := 10
  status := .filled
  createdAt := some 100

def seenAt (id : UUID) (filledQuantity fillPrice : ℚ) : BrokerFillSnapshotEntity where
  brokerFillSnapshotId := id
  brokerNativeOrderId := "n-1"
  symbol := "005930"
  filledQuantity := filledQuantity
  fillPrice := fillPrice
  updatedAt := some (100 + id)

def anyPolling : Polling where
  accountId := 1
  brokerName := "koreainvestment"
  brokerNativeOrderId := "n-1"
  observedAt := fun _ => 0
  freshId := fun _ => 0

def sinceStart : BackfillCall where
  accountId := 1
  instrumentId := 1
  startDate := 0
  now := 1000

def increment (id : UUID) (fillQuantity fillPrice : ℚ) : SyntheticFillCandidate where
  orderRequestId := 1
  brokerOrderId := 11
  brokerNativeOrderId := "n-1"
  symbol := "005930"
  side := .buy
  fillQuantity := fillQuantity
  fillPrice := fillPrice
  fillTimestamp := 100 + id
  brokerFillId := none
  sourceBrokerFillSnapshotId := id

/-- The average of four stays while it is repeated. -/
theorem increments_agree_fourThenEight :
    anyPolling.resolveAll none [seenAt 1 4 100, seenAt 2 4 100, seenAt 3 8 120] =
        increments [increment 1 4 100, increment 3 4 140] ↔
      Agrees 0 0 0 (observed [seenAt 1 4 100, seenAt 2 4 100, seenAt 3 8 120]) :=
  increments_agree_iff none sinceStart ⟨boughtTen, 11, "n-1"⟩ anyPolling _ _ 8
    (Library.toOption_eq_some.mp (by decide +kernel))

/-- The average of four moves from 100 to 110 before the other four come in: they cost 560 in the
backfill and 520 in the resolver. -/
theorem increments_differ_movedAverage :
    let snapshots := [seenAt 1 4 100, seenAt 2 4 110, seenAt 3 8 120]
    decode none sinceStart ⟨boughtTen, 11, "n-1"⟩ 0 none snapshots =
        .ok ([increment 1 4 100, increment 3 4 140], 8) ∧
      anyPolling.resolveAll none snapshots = [(4, 100), (4, 130)] ∧
      anyPolling.resolveAll none snapshots ≠
        increments [increment 1 4 100, increment 3 4 140] :=
  ⟨Library.toOption_eq_some.mp (by decide +kernel), by decide +kernel, by decide +kernel⟩

end AgentTrading.Backfill
