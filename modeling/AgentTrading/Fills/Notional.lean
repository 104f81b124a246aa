import Mathlib.Algebra.BigOperators.Group.List.Basic
import Mathlib.Tactic.FieldSimp
import Mathlib.Tactic.Linarith
import Mathlib.Tactic.Ring
import AgentTrading.Fills.Incremental
import AgentTrading.Library.Runs

/-! What the increments of one order are worth. Splitting the average keeps the worth of all
increments at the cumulative quantity times the average; an observation without an increment may
write another average, and the worth then stays behind. -/
namespace AgentTrading.Fills
open Domain Library

/-- One call of the resolver for the order. -/
structure Sighting where
  observation : Observation
  now : Time
  freshId : UUID

def Sighting.resolve (s : Sighting) (prior : Option KisFillCumulativeStateEntity) :
    IncrementalFillDecision × Option KisFillCumulativeStateEntity :=
  resolveIncrementalFill prior s.observation s.now s.freshId

/-- The stored state after a call. -/
def stateAfter (prior : Option KisFillCumulativeStateEntity) (s : Sighting) :
    Option KisFillCumulativeStateEntity := (s.resolve prior).2

/-- The decisions of call after call. -/
def decisions : Option KisFillCumulativeStateEntity → List Sighting → List IncrementalFillDecision
  | _, [] => []
  | prior, s :: seen => (s.resolve prior).1 :: decisions (stateAfter prior s) seen

/-- The quantity and the price of an increment. -/
def IncrementalFillDecision.fill? : IncrementalFillDecision → Option (ℚ × ℚ)
  | .newFill quantity price => some (quantity, price)
  | _ => none

def newFills (prior : Option KisFillCumulativeStateEntity) (seen : List Sighting) : List (ℚ × ℚ) :=
  (decisions prior seen).filterMap IncrementalFillDecision.fill?

def worth (fills : List (ℚ × ℚ)) : ℚ := (fills.map fun fill => fill.1 * fill.2).sum

/-- The stored average; without one there is nothing to average over. -/
def averageOf (state : Option KisFillCumulativeStateEntity) : ℚ :=
  (state.bind (·.lastAverageFillPrice)).getD 0

def notional (state : Option KisFillCumulativeStateEntity) : ℚ :=
  lastQuantity state * averageOf state

/-- By how much an observation without an increment moves the worth of what is stored. -/
def revaluation (prior : Option KisFillCumulativeStateEntity) (s : Sighting) : ℚ :=
  if s.observation.currentCumulativeQuantity = lastQuantity prior then
    lastQuantity prior * (averageOf (stateAfter prior s) - averageOf prior)
  else 0

def revalued : Option KisFillCumulativeStateEntity → List Sighting → ℚ
  | _, [] => 0
  | prior, s :: seen => revaluation prior s + revalued (stateAfter prior s) seen

/-- A repeated positive quantity comes without a price or with the stored average. -/
def KeepsAverage (prior : Option KisFillCumulativeStateEntity) (s : Sighting) : Prop :=
  s.observation.currentCumulativeQuantity = lastQuantity prior → lastQuantity prior ≠ 0 →
    ∀ price, s.observation.currentAveragePrice = some price → price = 0 ∨ price = averageOf prior

/-- A stored quantity has a stored average. -/
def Averaged (state : Option KisFillCumulativeStateEntity) : Prop :=
  lastQuantity state ≠ 0 → ∃ average, state.bind (·.lastAverageFillPrice) = some average

theorem averaged_none : Averaged none := fun h => (h rfl).elim

theorem averageOf_upserted (prior : Option KisFillCumulativeStateEntity) (o : Observation)
    (average : Option ℚ) (now : Time) (freshId : UUID) :
    averageOf (some (upserted prior o average now freshId)) = average.getD 0 := rfl

theorem orPrice_getD (current prior : Option ℚ) :
    (orPrice current prior).getD 0 = prior.getD 0 ∨
      ∃ price, current = some price ∧ price ≠ 0 ∧ (orPrice current prior).getD 0 = price := by
  cases current with
  | none => exact Or.inl rfl
  | some price =>
    by_cases hzero : price = 0
    · apply Or.inl
      simp [orPrice, hzero]
    · apply Or.inr
      exact ⟨price, rfl, hzero, by simp [orPrice, hzero]⟩

theorem orPrice_isSome {current prior : Option ℚ} (h : ∃ average, prior = some average) :
    ∃ average, orPrice current prior = some average := by
  obtain ⟨average, rfl⟩ := h
  cases current with
  | none => exact ⟨average, rfl⟩
  | some price =>
    by_cases hzero : price = 0
    · exact ⟨average, by simp [orPrice, hzero]⟩
    · exact ⟨price, by simp [orPrice, hzero]⟩

/-- The increment is priced so that the worth of all of them is the quantity times the average. -/
theorem inferDeltaPrice_worth {prior : Option KisFillCumulativeStateEntity} (h : Averaged prior)
    {quantity price : ℚ} {average : Option ℚ}
    (hprice : inferDeltaPrice quantity average (lastQuantity prior)
      (prior.bind (·.lastAverageFillPrice)) = some price) :
    ∃ current, average = some current ∧ 0 < quantity - lastQuantity prior ∧
      quantity * current = notional prior + (quantity - lastQuantity prior) * price := by
  unfold inferDeltaPrice at hprice
  cases average with
  | none => cases hprice
  | some current =>
    dsimp only at hprice
    split at hprice
    · cases hprice
    · next hpos =>
      rw [not_le] at hpos
      refine ⟨current, rfl, hpos, ?_⟩
      by_cases hzero : lastQuantity prior = 0
      · have hcurrent : price = current := by
          rw [hzero] at hprice
          split at hprice
          · exact (Option.some.inj hprice).symm
          · simpa using hprice.symm
        rw [hcurrent, notional, hzero]
        ring
      · obtain ⟨before, hbefore⟩ := h hzero
        have hnotional : notional prior = lastQuantity prior * before := by
          rw [notional, averageOf, hbefore]
          rfl
        rw [hbefore] at hprice
        simp only [if_neg hzero] at hprice
        split at hprice
        · cases hprice
        · rw [← Option.some.inj hprice, mul_div_cancel₀ _ hpos.ne', hnotional]
          ring

/-- What one call does to the worth: an increment adds what it is worth, an observation without one
moves the average, and an anomaly changes nothing. -/
theorem resolve_worth {prior : Option KisFillCumulativeStateEntity} (h : Averaged prior)
    (s : Sighting) :
    Averaged (stateAfter prior s) ∧
      ((s.resolve prior).1.fill? = none ∧ lastQuantity (stateAfter prior s) = lastQuantity prior ∧
          notional (stateAfter prior s) = notional prior + revaluation prior s ∨
        ∃ quantity price, (s.resolve prior).1.fill? = some (quantity, price) ∧ 0 < quantity ∧
          lastQuantity (stateAfter prior s) = lastQuantity prior + quantity ∧
          revaluation prior s = 0 ∧
          notional (stateAfter prior s) = notional prior + quantity * price) := by
  by_cases hsame : s.observation.currentCumulativeQuantity = lastQuantity prior
  · have hresolve : s.resolve prior = (.noNewFill, some (upserted prior s.observation
        (orPrice s.observation.currentAveragePrice (prior.bind (·.lastAverageFillPrice))) s.now
        s.freshId)) := by
      simp [Sighting.resolve, resolveIncrementalFill, hsame]
    have hquantity : lastQuantity (stateAfter prior s) = lastQuantity prior := by
      rw [stateAfter, hresolve]
      exact hsame
    constructor
    · intro hne
      rw [hquantity] at hne
      rw [stateAfter, hresolve]
      exact orPrice_isSome (h hne)
    · apply Or.inl
      refine ⟨by rw [hresolve]; rfl, hquantity, ?_⟩
      rw [notional, notional, hquantity, revaluation, if_pos hsame]
      ring
  · have hrevaluation : revaluation prior s = 0 := if_neg hsame
    have hdelta : s.observation.currentCumulativeQuantity - lastQuantity prior ≠ 0 :=
      sub_ne_zero.mpr hsame
    have hunchanged (reason : AnomalyReason)
        (hresolve : s.resolve prior = (.anomaly reason, prior)) :
        Averaged (stateAfter prior s) ∧ (s.resolve prior).1.fill? = none ∧
          lastQuantity (stateAfter prior s) = lastQuantity prior ∧
          notional (stateAfter prior s) = notional prior + revaluation prior s := by
      rw [stateAfter, hrevaluation, hresolve, add_zero]
      exact ⟨h, rfl, rfl, rfl⟩
    by_cases hneg : s.observation.currentCumulativeQuantity - lastQuantity prior < 0
    · have hsettled := hunchanged .negativeDelta (by
        simp [Sighting.resolve, resolveIncrementalFill, hdelta, hneg])
      exact ⟨hsettled.1, Or.inl hsettled.2⟩
    · cases hprice : inferDeltaPrice s.observation.currentCumulativeQuantity
          s.observation.currentAveragePrice (lastQuantity prior)
          (prior.bind (·.lastAverageFillPrice)) with
      | none =>
        have hsettled := hunchanged .unpriceableDelta (by
          simp [Sighting.resolve, resolveIncrementalFill, hdelta, hneg, hprice])
        exact ⟨hsettled.1, Or.inl hsettled.2⟩
      | some price =>
        obtain ⟨current, hcurrent, hpos, hworth⟩ := inferDeltaPrice_worth h hprice
        have hresolve : s.resolve prior =
            (.newFill (s.observation.currentCumulativeQuantity - lastQuantity prior) price,
              some (upserted prior s.observation (some current) s.now s.freshId)) := by
          rw [← hcurrent]
          simp [Sighting.resolve, resolveIncrementalFill, hdelta, hneg, hprice]
        have hstate : stateAfter prior s =
            some (upserted prior s.observation (some current) s.now s.freshId) := by
          rw [stateAfter, hresolve]
        rw [hstate, hresolve]
        refine ⟨fun _ => ⟨current, rfl⟩, Or.inr ⟨_, price, rfl, hpos, ?_, hrevaluation, hworth⟩⟩
        exact (add_sub_cancel _ _).symm

theorem stateAfter_of_anomaly {prior : Option KisFillCumulativeStateEntity} {s : Sighting}
    {reason : AnomalyReason} (h : (s.resolve prior).1 = .anomaly reason) :
    stateAfter prior s = prior := by
  rcases resolveIncrementalFill_cases prior s.observation s.now s.freshId with
    ⟨hnone, -⟩ | ⟨_, -, hsame⟩ | ⟨price, hnew, -⟩
  · rw [Sighting.resolve, hnone] at h
    cases h
  · exact hsame
  · rw [Sighting.resolve, hnew] at h
    cases h

theorem newFills_sum {prior : Option KisFillCumulativeStateEntity} (h : Averaged prior)
    (seen : List Sighting) :
    Averaged (Runs.run stateAfter prior seen) ∧ (∀ fill ∈ newFills prior seen, 0 < fill.1) ∧
      lastQuantity prior + ((newFills prior seen).map Prod.fst).sum =
        lastQuantity (Runs.run stateAfter prior seen) ∧
      notional prior + worth (newFills prior seen) + revalued prior seen =
        notional (Runs.run stateAfter prior seen) := by
  induction seen generalizing prior with
  | nil => exact ⟨h, by simp [newFills, decisions], by simp [newFills, decisions],
      by simp [newFills, decisions, worth, revalued]⟩
  | cons s seen ih =>
    obtain ⟨hnext, hstep⟩ := resolve_worth h s
    obtain ⟨hlast, hpos, hquantity, hworth⟩ := ih hnext
    rw [Runs.run_cons]
    refine ⟨hlast, ?_⟩
    rw [← hquantity, ← hworth]
    rcases hstep with ⟨hnone, hsame, hnotional⟩ |
        ⟨quantity, price, hfill, hq, hgrown, hstill, hnotional⟩
    · have hfills : newFills prior (s :: seen) = newFills (stateAfter prior s) seen := by
        simp [newFills, decisions, hnone]
      rw [hfills, hsame, hnotional, revalued]
      exact ⟨hpos, rfl, by ring⟩
    · have hfills : newFills prior (s :: seen) =
          (quantity, price) :: newFills (stateAfter prior s) seen := by
        simp [newFills, decisions, hfill]
      rw [hfills, hgrown, hnotional, revalued, hstill]
      refine ⟨?_, ?_, ?_⟩
      · simp only [List.forall_mem_cons]
        exact ⟨hq, hpos⟩
      · rw [List.map_cons, List.sum_cons]
        ring
      · rw [worth, List.map_cons, List.sum_cons, ← worth]
        ring

theorem revaluation_eq_zero {prior : Option KisFillCumulativeStateEntity} (h : Averaged prior)
    (s : Sighting) : revaluation prior s = 0 ↔ KeepsAverage prior s := by
  unfold revaluation KeepsAverage
  by_cases hsame : s.observation.currentCumulativeQuantity = lastQuantity prior
  · have hstate : averageOf (stateAfter prior s) = (orPrice s.observation.currentAveragePrice
        (prior.bind (·.lastAverageFillPrice))).getD 0 := by
      simp [stateAfter, Sighting.resolve, resolveIncrementalFill, hsame, averageOf_upserted]
    simp only [hsame, if_true, forall_const, mul_eq_zero, sub_eq_zero, hstate]
    rcases orPrice_getD s.observation.currentAveragePrice (prior.bind (·.lastAverageFillPrice)) with
      hkept | ⟨price, hprice, hne, hwritten⟩
    · apply iff_of_true (Or.inr hkept)
      intro hquantity price hprice
      obtain ⟨average, haverage⟩ := h hquantity
      by_cases hzero : price = 0
      · exact Or.inl hzero
      · apply Or.inr
        rw [hprice, haverage] at hkept
        simpa [orPrice, hzero, averageOf, haverage] using hkept
    · rw [hwritten, hprice, or_iff_not_imp_left]
      constructor
      · rintro hkept hquantity _ ⟨⟩
        exact Or.inr (hkept hquantity)
      · exact fun hkept hquantity => (hkept hquantity price rfl).resolve_left hne
  · exact iff_of_true (if_neg hsame) fun h' => (hsame h').elim

theorem revalued_prefixes {prior : Option KisFillCumulativeStateEntity} (h : Averaged prior)
    (seen : List Sighting) :
    (∀ taken rest, seen = taken ++ rest → revalued prior taken = 0) ↔
      Runs.Meets stateAfter KeepsAverage prior seen := by
  induction seen generalizing prior with
  | nil =>
    apply iff_of_true _ trivial
    intro taken rest htaken
    rw [(List.append_eq_nil_iff.mp htaken.symm).1]
    rfl
  | cons s seen ih =>
    rw [Runs.Meets, ← ih (resolve_worth h s).1, ← revaluation_eq_zero h]
    constructor
    · intro hprefix
      have hfirst : revaluation prior s = 0 := by
        have hone := hprefix [s] seen rfl
        rwa [revalued, revalued, add_zero] at hone
      refine ⟨hfirst, ?_⟩
      rintro taken rest rfl
      have hmore := hprefix (s :: taken) rest rfl
      rwa [revalued, hfirst, zero_add] at hmore
    · rintro ⟨hfirst, hrest⟩ taken rest htaken
      cases taken with
      | nil => rfl
      | cons first taken =>
        rw [List.cons_append, List.cons.injEq] at htaken
        obtain ⟨rfl, hseen⟩ := htaken
        rw [revalued, hfirst, hrest taken rest hseen, add_zero]

/-- The increments of an order sum to its cumulative quantity, and their worth with what
observations without an increment moved is the quantity times the average. -/
theorem resolveIncrementalFill_conserves (seen : List Sighting) :
    (∀ fill ∈ newFills none seen, 0 < fill.1) ∧
      ((newFills none seen).map Prod.fst).sum = lastQuantity (Runs.run stateAfter none seen) ∧
      Averaged (Runs.run stateAfter none seen) ∧
      worth (newFills none seen) + revalued none seen = notional (Runs.run stateAfter none seen) ∧
      ((∀ taken rest, seen = taken ++ rest →
          worth (newFills none taken) = notional (Runs.run stateAfter none taken)) ↔
        Runs.Meets stateAfter KeepsAverage none seen) ∧
      ∀ next reason, (next.resolve (Runs.run stateAfter none seen)).1 = .anomaly reason →
        stateAfter (Runs.run stateAfter none seen) next = Runs.run stateAfter none seen := by
  have hworth (taken : List Sighting) : worth (newFills none taken) + revalued none taken =
      notional (Runs.run stateAfter none taken) := by
    have hsum := (newFills_sum averaged_none taken).2.2.2
    rwa [notional, lastQuantity_none, zero_mul, zero_add] at hsum
  obtain ⟨haveraged, hpos, hquantity, -⟩ := newFills_sum averaged_none seen
  rw [lastQuantity_none, zero_add] at hquantity
  refine ⟨hpos, hquantity, haveraged, hworth seen, ?_, fun _ _ => stateAfter_of_anomaly⟩
  rw [← revalued_prefixes averaged_none]
  apply forall_congr'
  intro taken
  rw [← hworth taken, left_eq_add]

/-- Ten shares at 100, and the same ten seen again at 105. -/
theorem average_moved_without_fill :
    let seen (price : ℚ) : Sighting :=
      { observation :=
          { accountId := 1
            brokerName := "koreainvestment"
            brokerNativeOrderId := "0000117057"
            currentCumulativeQuantity := 10
            currentAveragePrice := some price }
        now := 0
        freshId := 1 }
    worth (newFills none [seen 100, seen 105]) = 1000 ∧
      notional (Runs.run stateAfter none [seen 100, seen 105]) = 1050 := by
  decide +kernel

end AgentTrading.Fills
