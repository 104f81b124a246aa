import Mathlib.Tactic.Linarith
import AgentTrading.Fills.Conservation
import AgentTrading.Kis.FillNormalization

/-! A settlement row without a price, on its way through `get_fills` and `_sync_fills`. The fill
event has no way to say that the price is missing. -/
namespace AgentTrading.Fills
open Domain Kis

/-- The `FillEvent` that `get_fills` makes of a row. Its quantity is cumulative. -/
structure CumulativeFill where
  brokerOrderId : String
  symbol : String
  side : OrderSide
  fillQuantity : Dec
  fillPrice : Dec
  fillTimestamp : Time
  brokerFillId : Option String

/-- The row belongs to another order; an empty identifier asks for all. -/
def otherOrder (brokerOrderId : Option String) (observation : NormalizedKisFillObservation) :
    Bool :=
  (brokerOrderId.filter (· ≠ "")).any (· ≠ observation.brokerNativeOrderId)

/-- One row of the loop of `get_fills`. A quantity that is no number cannot be compared. -/
def rowFill (digest : String → String) (brokerOrderId : Option String) (now : Time) (item : Dict) :
    Except PyError (Option CumulativeFill) :=
  let observation := normalizeKisFillObservation digest item
  if !observation.isParseable then .ok none
  else if otherOrder brokerOrderId observation then .ok none
  else if observation.cancelYn = some "Y" ∨ observation.rvseYn = some "Y" then .ok none
  else
    match observation.cumulativeFilledQuantity with
    | none => .ok none
    | some quantity => do
      if ← quantity.less zero then return none
      return observation.side.map fun side => {
        brokerOrderId := observation.brokerNativeOrderId
        symbol := observation.symbol
        side := side
        fillQuantity := quantity
        fillPrice := observation.averageFillPrice.getD zero
        fillTimestamp := now
        brokerFillId := observation.brokerFillIdCandidate }

/-- `get_fills` on what `inquire_daily_ccld` returns. -/
def getFills (digest : String → String) (brokerOrderId : Option String) (now : Time) :
    List Json → Except PyError (List CumulativeFill)
  | [] => .ok []
  | .obj item :: rows => do
    let fill ← rowFill digest brokerOrderId now item
    let fills ← getFills digest brokerOrderId now rows
    return fill.toList ++ fills
  | _ :: _ => .error (.other "AttributeError")

/-- The fill with its numbers, when they are finite. -/
def CumulativeFill.event? (fill : CumulativeFill) : Option FillEvent :=
  match fill.fillQuantity, fill.fillPrice with
  | .finite quantity, .finite price => some {
      brokerName := .koreaInvestment
      brokerOrderId := fill.brokerOrderId
      symbol := fill.symbol
      side := fill.side
      fillQuantity := quantity
      fillPrice := price
      fillTimestamp := fill.fillTimestamp
      brokerFillId := fill.brokerFillId }
  | _, _ => none

/-- One pass of `_sync_fills` over rows whose numbers are finite. -/
def passOver (digest : String → String) (ctx : OrderContext) (now : Time)
    (feeTaxPolicy : Option (FillEvent → Except PyError FeeTax)) (rows : List Json)
    (book : FillBook) : Option (Except PyError (Nat × Nat) × FillBook) :=
  match getFills digest ctx.brokerNativeOrderId now rows with
  | .error e => some (syncFills ctx ⟨.error e, now, feeTaxPolicy⟩ book)
  | .ok fills =>
    (fills.mapM CumulativeFill.event?).map fun events =>
      syncFills ctx ⟨.ok events, now, feeTaxPolicy⟩ book

/-- The pass stores no fill and leaves the row of the cumulative state as it was. -/
def Untouched (digest : String → String) (ctx : OrderContext) (now : Time)
    (feeTaxPolicy : Option (FillEvent → Except PyError FeeTax)) (item : Dict) (book : FillBook) :
    Prop :=
  ∃ result after, passOver digest ctx now feeTaxPolicy [.obj item] book = some (result, after) ∧
    after.fillEvents = book.fillEvents ∧ after.cumulative = book.cumulative

/-- `get_fills` does not return the row, or the order has no identifier to look it up by. -/
def PassedOver (digest : String → String) (ctx : OrderContext) (item : Dict) : Prop :=
  let observation := normalizeKisFillObservation digest item
  observation.isParseable = false ∨ otherOrder ctx.brokerNativeOrderId observation = true ∨
    observation.cancelYn = some "Y" ∨ observation.rvseYn = some "Y" ∨ observation.side = none ∨
      ctx.brokerNativeOrderId = none

/-- The stored row as an observation of the same quantity leaves it. -/
def renewed (ctx : OrderContext) (now : Time) (s : KisFillCumulativeStateEntity) :
    KisFillCumulativeStateEntity :=
  { s with
    accountId := ctx.accountId
    brokerName := ctx.brokerName
    brokerNativeOrderId := ctx.brokerNativeOrderId.getD ""
    lastObservedAt := now
    lastRawFieldFingerprint := none }

/-- The quantity has gone down, or up from one with a positive price, or it is the stored one and
there is nothing to renew. -/
def Withheld (ctx : OrderContext) (now : Time) (q : ℚ)
    (prior : Option KisFillCumulativeStateEntity) : Prop :=
  q < lastQuantity prior ∨
    (lastQuantity prior < q ∧ ∃ price, prior.bind (·.lastAverageFillPrice) = some price ∧
      0 < price * lastQuantity prior) ∨
    ∃ s, prior = some s ∧ q = s.lastCumulativeFilledQuantity ∧ renewed ctx now s = s

theorem resolve_down {o : Observation} {prior : Option KisFillCumulativeStateEntity} (now : Time)
    (freshId : UUID) (hless : o.currentCumulativeQuantity < lastQuantity prior) :
    resolveIncrementalFill prior o now freshId = (.anomaly .negativeDelta, prior) := by
  have hzero : o.currentCumulativeQuantity - lastQuantity prior ≠ 0 := by linarith
  have hneg : o.currentCumulativeQuantity - lastQuantity prior < 0 := by linarith
  simp only [resolveIncrementalFill, if_neg hzero, if_pos hneg]

section Unpriced

variable {o : Observation} (hprice : o.currentAveragePrice = some 0)
  {prior : Option KisFillCumulativeStateEntity} (now : Time) (freshId : UUID)
include hprice

theorem resolve_unpriceable (hmore : lastQuantity prior < o.currentCumulativeQuantity)
    {price : ℚ} (hprior : prior.bind (·.lastAverageFillPrice) = some price)
    (hpositive : 0 < price * lastQuantity prior) :
    resolveIncrementalFill prior o now freshId = (.anomaly .unpriceableDelta, prior) := by
  have hzero : o.currentCumulativeQuantity - lastQuantity prior ≠ 0 := by linarith
  have hneg : ¬o.currentCumulativeQuantity - lastQuantity prior < 0 := by linarith
  have hdelta : ¬o.currentCumulativeQuantity - lastQuantity prior ≤ 0 := by linarith
  have hlast : lastQuantity prior ≠ 0 := by
    intro h
    rw [h, mul_zero] at hpositive
    exact lt_irrefl 0 hpositive
  have hnumerator : 0 * o.currentCumulativeQuantity - price * lastQuantity prior < 0 := by
    linarith
  simp only [resolveIncrementalFill, if_neg hzero, if_neg hneg, inferDeltaPrice, hprice, hprior,
    if_neg hdelta, if_neg hlast, if_pos hnumerator]

theorem resolve_priced (hmore : lastQuantity prior < o.currentCumulativeQuantity)
    (hprior : ∀ price, prior.bind (·.lastAverageFillPrice) = some price →
      price * lastQuantity prior ≤ 0) :
    ∃ delta price, resolveIncrementalFill prior o now freshId =
      (.newFill delta price, some (upserted prior o (some 0) now freshId)) := by
  have hzero : o.currentCumulativeQuantity - lastQuantity prior ≠ 0 := by linarith
  have hneg : ¬o.currentCumulativeQuantity - lastQuantity prior < 0 := by linarith
  have hdelta : ¬o.currentCumulativeQuantity - lastQuantity prior ≤ 0 := by linarith
  simp only [resolveIncrementalFill, if_neg hzero, if_neg hneg, inferDeltaPrice, hprice,
    if_neg hdelta]
  cases hbefore : prior.bind (·.lastAverageFillPrice) with
  | none => exact ⟨_, _, rfl⟩
  | some price =>
    have hnumerator : ¬0 * o.currentCumulativeQuantity - price * lastQuantity prior < 0 := by
      have hle := hprior price hbefore
      linarith
    by_cases hlast : lastQuantity prior = 0
    · simp only [if_pos hlast]
      exact ⟨_, _, rfl⟩
    · simp only [if_neg hlast, if_neg hnumerator]
      exact ⟨_, _, rfl⟩

theorem resolve_same (hsame : o.currentCumulativeQuantity = lastQuantity prior) :
    resolveIncrementalFill prior o now freshId = (.noNewFill,
      some (upserted prior o (prior.bind (·.lastAverageFillPrice)) now freshId)) := by
  simp only [resolveIncrementalFill, sub_eq_zero.mpr hsame, if_true, hprice, orPrice]

theorem resolve_unchanged_iff {ctx : OrderContext} (hkeys : o.accountId = ctx.accountId ∧
      o.brokerName = ctx.brokerName ∧ o.brokerNativeOrderId = ctx.brokerNativeOrderId.getD "" ∧
      o.rawFieldFingerprint = none) (hpositive : 0 < o.currentCumulativeQuantity) :
    (resolveIncrementalFill prior o now freshId).2 = prior ↔
      Withheld ctx now o.currentCumulativeQuantity prior := by
  rcases lt_trichotomy o.currentCumulativeQuantity (lastQuantity prior) with hless | hsame | hmore
  · rw [resolve_down now freshId hless]
    exact iff_of_true rfl (Or.inl hless)
  · rw [resolve_same hprice now freshId hsame]
    cases prior with
    | none => exact absurd hsame hpositive.ne'
    | some s =>
      have hrenewed : upserted (some s) o ((some s).bind (·.lastAverageFillPrice)) now freshId =
          renewed ctx now s := by
        obtain ⟨haccount, hbroker, hnative, hfingerprint⟩ := hkeys
        simp only [upserted, renewed, Option.bind_some, haccount, hbroker, hnative, hfingerprint]
        rw [hsame]
        rfl
      rw [hrenewed, Option.some.injEq]
      constructor
      · exact fun h => Or.inr (Or.inr ⟨s, rfl, hsame, h⟩)
      · rintro (hless | ⟨hmore, _⟩ | ⟨s', hs, _, h⟩)
        · exact absurd hless (hsame ▸ lt_irrefl _)
        · exact absurd hmore (hsame ▸ lt_irrefl _)
        · obtain rfl := Option.some.inj hs
          exact h
  · by_cases hprior : ∃ price, prior.bind (·.lastAverageFillPrice) = some price ∧
        0 < price * lastQuantity prior
    · obtain ⟨price, hbefore, hpos⟩ := hprior
      rw [resolve_unpriceable hprice now freshId hmore hbefore hpos]
      exact iff_of_true rfl (Or.inr (Or.inl ⟨hmore, price, hbefore, hpos⟩))
    · have hle : ∀ price, prior.bind (·.lastAverageFillPrice) = some price →
          price * lastQuantity prior ≤ 0 :=
        fun price hbefore => not_lt.mp fun hpos => hprior ⟨price, hbefore, hpos⟩
      obtain ⟨delta, price, hresolved⟩ := resolve_priced hprice now freshId hmore hle
      rw [hresolved]
      apply iff_of_false
      · intro h
        have hlast := congrArg lastQuantity h
        exact absurd hlast hmore.ne'
      · rintro (hless | ⟨_, h⟩ | ⟨s, rfl, hq, _⟩)
        · exact absurd hless hmore.not_gt
        · exact hprior h
        · exact absurd hq hmore.ne'

end Unpriced

theorem not_newFill_of_unchanged {prior : Option KisFillCumulativeStateEntity} {o : Observation}
    {now : Time} {freshId : UUID} (h : (resolveIncrementalFill prior o now freshId).2 = prior)
    (delta price : ℚ) : (resolveIncrementalFill prior o now freshId).1 ≠ .newFill delta price := by
  intro hnew
  rcases resolveIncrementalFill_cases prior o now freshId with
    ⟨hdecision, _⟩ | ⟨reason, hdecision, _⟩ | ⟨_, _, hdelta, hlast⟩
  · exact nomatch hdecision.symm.trans hnew
  · exact nomatch hdecision.symm.trans hnew
  · rw [h] at hlast
    rw [hlast] at hdelta
    exact absurd hdelta (by simp)

/-- What `_sync_fills` hands to the resolver. -/
def observed (ctx : OrderContext) (nativeId : String) (quantity price : ℚ) : Observation where
  accountId := ctx.accountId
  brokerName := ctx.brokerName
  brokerNativeOrderId := nativeId
  currentCumulativeQuantity := quantity
  currentAveragePrice := some price

theorem interpretOne_resolved (ctx : OrderContext) (nativeId : String) (now : Time)
    (acc : Interpretation) (fill : FillEvent) :
    let resolved := resolveIncrementalFill acc.cumulative
      (observed ctx nativeId fill.fillQuantity fill.fillPrice) now acc.nextId
    (interpretOne ctx nativeId now acc fill).cumulative = resolved.2 ∧
      ((∀ delta price, resolved.1 ≠ .newFill delta price) →
        (interpretOne ctx nativeId now acc fill).candidates = acc.candidates) := by
  unfold interpretOne observed
  generalize resolveIncrementalFill acc.cumulative _ now acc.nextId = resolved
  obtain ⟨decision, state⟩ := resolved
  cases decision with
  | noNewFill => exact ⟨rfl, fun _ => rfl⟩
  | anomaly reason => cases reason <;> exact ⟨rfl, fun _ => rfl⟩
  | newFill delta price =>
    refine ⟨?_, fun h => absurd rfl (h delta price)⟩
    dsimp only
    split <;> rfl

theorem syncFills_no_candidates (ctx : OrderContext) {fills : List FillEvent} {now : Time}
    (policy : Option (FillEvent → Except PyError FeeTax)) {book : FillBook}
    (hnone : (interpret ctx now book fills).candidates = []) :
    (syncFills ctx ⟨.ok fills, now, policy⟩ book).2.fillEvents = book.fillEvents := by
  cases fills with
  | nil => rfl
  | cons fill fills => simp only [syncFills, hnone, if_true]

/-- A pass over one fill writes what the resolver writes. Where that is no new fill, it also
stores none. -/
theorem syncFills_one (ctx : OrderContext) {nativeId : String}
    (hnative : ctx.brokerNativeOrderId = some nativeId) (fill : FillEvent) (now : Time)
    (policy : Option (FillEvent → Except PyError FeeTax)) (book : FillBook) :
    let resolved := resolveIncrementalFill book.cumulative
      (observed ctx nativeId fill.fillQuantity fill.fillPrice) now book.nextId
    (syncFills ctx ⟨.ok [fill], now, policy⟩ book).2.cumulative = resolved.2 ∧
      ((∀ delta price, resolved.1 ≠ .newFill delta price) →
        (syncFills ctx ⟨.ok [fill], now, policy⟩ book).2.fillEvents = book.fillEvents) := by
  have hfound : interpret ctx now book [fill] = interpretOne ctx nativeId now
      { cumulative := book.cumulative, nextId := book.nextId } fill := by
    simp only [interpret, hnative, List.foldl_cons, List.foldl_nil]
  obtain ⟨hcumulative, hcandidates⟩ := interpretOne_resolved ctx nativeId now
    { cumulative := book.cumulative, nextId := book.nextId } fill
  rw [← hfound] at hcumulative hcandidates
  constructor
  · exact (syncFills_observations ctx rfl book).2.1.trans hcumulative
  · intro hold
    exact syncFills_no_candidates ctx policy (hcandidates hold)

theorem syncFills_nameless (ctx : OrderContext) (hnative : ctx.brokerNativeOrderId = none)
    (fills : List FillEvent) (now : Time) (policy : Option (FillEvent → Except PyError FeeTax))
    (book : FillBook) :
    (syncFills ctx ⟨.ok fills, now, policy⟩ book).2.fillEvents = book.fillEvents ∧
      (syncFills ctx ⟨.ok fills, now, policy⟩ book).2.cumulative = book.cumulative := by
  have hfound : interpret ctx now book fills =
      { cumulative := book.cumulative, nextId := book.nextId } := by
    simp only [interpret, hnative]
  constructor
  · apply syncFills_no_candidates
    rw [hfound]
  · refine (syncFills_observations ctx rfl book).2.1.trans ?_
    exact congrArg Interpretation.cumulative hfound

/-! A row with a quantity and without a price. -/

section Row

variable {digest : String → String} {item : Dict} {q : ℚ}
  (hquantity : (normalizeKisFillObservation digest item).cumulativeFilledQuantity =
    some (.finite q))
  (hpositive : 0 < q) (hprice : (normalizeKisFillObservation digest item).averageFillPrice = none)
include hquantity hpositive hprice

theorem rowFill_unpriced (ctx : OrderContext) (now : Time) :
    (rowFill digest ctx.brokerNativeOrderId now item = .ok none ∧ PassedOver digest ctx item) ∨
      ∃ fill, rowFill digest ctx.brokerNativeOrderId now item = .ok (some fill) ∧
        (PassedOver digest ctx item ↔ ctx.brokerNativeOrderId = none) ∧
        ∃ event, fill.event? = some event ∧ event.fillQuantity = q ∧ event.fillPrice = 0 := by
  unfold rowFill PassedOver
  generalize normalizeKisFillObservation digest item = observation at hquantity hprice
  dsimp only
  by_cases hparse : observation.isParseable = false
  · simp [hparse]
  · by_cases hother : otherOrder ctx.brokerNativeOrderId observation
    · simp [hother]
    · by_cases hflag : observation.cancelYn = some "Y" ∨ observation.rvseYn = some "Y"
      · apply Or.inl
        refine ⟨?_, Or.inr (Or.inr (or_assoc.mp (Or.inl hflag)))⟩
        simp [hparse, hother, hflag]
      · obtain ⟨hcancel, hrevise⟩ := not_or.mp hflag
        have hless : Dec.less (.finite q) (.finite 0) = .ok false := by
          simp [Dec.less, hpositive.le]
        cases hside : observation.side with
        | none =>
          apply Or.inl
          simp [hparse, hother, hflag, hquantity, zero, hless, bind, Except.bind, pure,
            Except.pure]
        | some side =>
          apply Or.inr
          simp [hparse, hother, hcancel, hrevise, hquantity, hprice, hless, bind, Except.bind, pure,
            Except.pure, CumulativeFill.event?, zero]

end Row

theorem getFills_row (digest : String → String) (brokerOrderId : Option String) (now : Time)
    (item : Dict) : getFills digest brokerOrderId now [.obj item] =
      (rowFill digest brokerOrderId now item).map Option.toList := by
  simp only [getFills]
  cases rowFill digest brokerOrderId now item with
  | error e => rfl
  | ok fill => cases fill <;> rfl

/-- A row with a quantity and no price stores nothing, and leaves the state as it is, exactly if
it is passed over or withheld. -/
theorem untouched_iff (digest : String → String) (ctx : OrderContext) (now : Time)
    (feeTaxPolicy : Option (FillEvent → Except PyError FeeTax)) (item : Dict) (book : FillBook)
    {q : ℚ} (hquantity : (normalizeKisFillObservation digest item).cumulativeFilledQuantity =
      some (.finite q)) (hpositive : 0 < q)
    (hprice : (normalizeKisFillObservation digest item).averageFillPrice = none) :
    Untouched digest ctx now feeTaxPolicy item book ↔
      PassedOver digest ctx item ∨ Withheld ctx now q book.cumulative := by
  unfold Untouched passOver
  rw [getFills_row]
  rcases rowFill_unpriced hquantity hpositive hprice ctx now with
    ⟨hrow, hpassed⟩ | ⟨fill, hrow, hpassed, event, hevent, hq, hzero⟩
  · rw [hrow]
    exact iff_of_true ⟨_, _, rfl, rfl, rfl⟩ (Or.inl hpassed)
  · rw [hrow]
    have hevents : [fill].mapM CumulativeFill.event? = some [event] := by
      simp [hevent]
    simp only [Except.map, Option.toList, hevents, Option.map_some, Option.some.injEq]
    cases hnative : ctx.brokerNativeOrderId with
    | none =>
      obtain ⟨hfills, hcumulative⟩ :=
        syncFills_nameless ctx hnative [event] now feeTaxPolicy book
      apply iff_of_true
      · exact ⟨_, _, rfl, hfills, hcumulative⟩
      · exact Or.inl (hpassed.mpr hnative)
    | some nativeId =>
      obtain ⟨hwritten, hstored⟩ := syncFills_one ctx hnative event now feeTaxPolicy book
      have hunchanged : (resolveIncrementalFill book.cumulative
          (observed ctx nativeId event.fillQuantity event.fillPrice) now book.nextId).2 =
            book.cumulative ↔ Withheld ctx now q book.cumulative := by
        rw [← hq] at hpositive ⊢
        apply resolve_unchanged_iff
        · exact congrArg some hzero
        · exact ⟨rfl, rfl, by rw [hnative]; rfl, rfl⟩
        · exact hpositive
      have hnot : ¬PassedOver digest ctx item := by
        rw [hpassed, hnative]
        exact nofun
      rw [or_iff_right hnot, ← hunchanged]
      constructor
      · rintro ⟨result, after, hafter, -, hsame⟩
        rw [← hwritten, congrArg Prod.snd hafter]
        exact hsame
      · intro hsame
        refine ⟨_, _, rfl, hstored ?_, hwritten.trans hsame⟩
        exact not_newFill_of_unchanged hsame

def unpricedRow : Dict :=
  [("ODNO", .str "0000117057"), ("PDNO", .str "005930"), ("SLL_BUY_DVSN_CD", .str "02"),
    ("TOT_CCLD_QTY", .str "10"), ("AVG_PRVS", .str "")]

def pricedRow : Dict := unpricedRow.set "AVG_PRVS" (.str "70000")

def boughtOrder : OrderContext where
  brokerOrderId := 1
  brokerName := "koreainvestment"
  brokerNativeOrderId := some "0000117057"
  accountId := 1

/-- Six shares have been seen at 70000. -/
def sixSeen : FillBook where
  cumulative := some {
    kisFillCumulativeStateId := 1
    accountId := 1
    brokerName := "koreainvestment"
    brokerNativeOrderId := "0000117057"
    lastCumulativeFilledQuantity := 6
    lastAverageFillPrice := some 70000
    lastObservedAt := 0 }
  nextId := 2

theorem untouched_sixSeen : Untouched id boughtOrder 60000000 none unpricedRow sixSeen :=
  (untouched_iff id boughtOrder 60000000 none unpricedRow sixSeen (q := 10) (by decide +kernel)
    (by decide) (by decide +kernel)).mpr
      (Or.inr (Or.inr (Or.inl ⟨by decide +kernel, 70000, by decide +kernel, by decide +kernel⟩)))

/-- On the first sight of the order the ten shares are stored at the price of zero, and the row
with the price then counts as nothing new. -/
theorem unpriced_row_stored :
    ¬Untouched id boughtOrder 60000000 none unpricedRow {} ∧
      (passOver id boughtOrder 60000000 none [.obj unpricedRow] {}).map
        (fun pass => pass.2.fillEvents.map fun fill => (fill.fillQuantity, fill.fillPrice)) =
          some [(10, 0)] ∧
      ((passOver id boughtOrder 60000000 none [.obj unpricedRow] {}).bind fun pass =>
        passOver id boughtOrder 120000000 none [.obj pricedRow] pass.2).map
          (fun pass => pass.2.fillEvents.map fun fill => (fill.fillQuantity, fill.fillPrice)) =
            some [(10, 0)] := by
  refine ⟨?_, by decide +kernel, by decide +kernel⟩
  rintro ⟨result, after, hafter, hfills, -⟩
  have hstored : (passOver id boughtOrder 60000000 none [.obj unpricedRow] {}).map
      (fun pass => pass.2.fillEvents.length) = some 1 := by
    decide +kernel
  rw [hafter, Option.map_some, hfills] at hstored
  exact absurd hstored (by decide)

end AgentTrading.Fills
