import Mathlib.Algebra.BigOperators.Group.List.Basic
import Mathlib.Algebra.Order.Field.Basic
import Mathlib.Tactic.Linarith
import Mathlib.Tactic.Ring

/-! Units that carry an amount spread evenly over them. Units taken out carry their share of
the amount with them, so nothing of it is lost or made on the way. -/
namespace AgentTrading.Library

variable {K : Type*} [Field K] [LinearOrder K]

/-- Units and their amount; without units there is no amount. -/
structure Lot (K : Type*) [Field K] [LinearOrder K] where
  units : K
  amount : K
  units_nonneg : 0 ≤ units
  amount_nonneg : 0 ≤ amount
  amount_of_empty : units = 0 → amount = 0

inductive Lot.Move (K : Type*) where
  | put (units amount : K)
  | take (units : K)

namespace Lot

def empty : Lot K := ⟨0, 0, le_rfl, le_rfl, fun _ => rfl⟩

/-- The amount that goes with some of the units. -/
def share (lot : Lot K) (units : K) : K := lot.amount * (units / lot.units)

theorem share_all (lot : Lot K) : lot.share lot.units = lot.amount := by
  unfold share
  by_cases hunits : lot.units = 0
  · simp [lot.amount_of_empty hunits]
  · rw [div_self hunits, mul_one]

variable [IsStrictOrderedRing K]

theorem share_le (lot : Lot K) {units : K} (hle : units ≤ lot.units) :
    lot.share units ≤ lot.amount := by
  unfold share
  apply mul_le_of_le_one_right lot.amount_nonneg
  exact div_le_one_of_le₀ hle lot.units_nonneg

def put (lot : Lot K) (units amount : K) (hunits : 0 < units) (hamount : 0 ≤ amount) : Lot K where
  units := lot.units + units
  amount := lot.amount + amount
  units_nonneg := add_nonneg lot.units_nonneg hunits.le
  amount_nonneg := add_nonneg lot.amount_nonneg hamount
  amount_of_empty := by
    intro hzero
    have := lot.units_nonneg
    linarith

def take (lot : Lot K) (units : K) (hle : units ≤ lot.units) : Lot K where
  units := lot.units - units
  amount := lot.amount - lot.share units
  units_nonneg := sub_nonneg.mpr hle
  amount_nonneg := sub_nonneg.mpr (lot.share_le hle)
  amount_of_empty := by
    intro hzero
    rw [← sub_eq_zero.mp hzero, share_all, sub_self]

/-- A move with the amount it releases. Nothing can be put in without units or with a negative
amount, and no more can be taken out than there is. -/
def move (lot : Lot K) : Move K → Option (Lot K × K)
  | .put units amount =>
    if h : 0 < units ∧ 0 ≤ amount then some (lot.put units amount h.1 h.2, 0) else none
  | .take units =>
    if h : 0 < units ∧ units ≤ lot.units then some (lot.take units h.2, lot.share units) else none

/-- Moves in order, with all that they release. -/
def run (lot : Lot K) : List (Move K) → Option (Lot K × K)
  | [] => some (lot, 0)
  | m :: ms => do
    let (next, released) ← lot.move m
    let (last, rest) ← next.run ms
    return (last, released + rest)

def Move.unitsIn : Move K → K
  | .put units _ => units
  | .take _ => 0

def Move.unitsOut : Move K → K
  | .put _ _ => 0
  | .take units => units

def Move.amountIn : Move K → K
  | .put _ amount => amount
  | .take _ => 0

theorem move_balanced {lot next : Lot K} {m : Move K} {released : K}
    (h : lot.move m = some (next, released)) :
    lot.units + m.unitsIn = next.units + m.unitsOut ∧
      lot.amount + m.amountIn = next.amount + released := by
  cases m with
  | put units amount =>
    simp only [move, Option.dite_none_right_eq_some, Option.some.injEq, Prod.mk.injEq] at h
    obtain ⟨_, rfl, rfl⟩ := h
    simp [Move.unitsIn, Move.unitsOut, Move.amountIn, put]
  | take units =>
    simp only [move, Option.dite_none_right_eq_some, Option.some.injEq, Prod.mk.injEq] at h
    obtain ⟨_, rfl, rfl⟩ := h
    simp [Move.unitsIn, Move.unitsOut, Move.amountIn, take]

theorem run_append (lot : Lot K) (ms ms' : List (Move K)) :
    lot.run (ms ++ ms') = (lot.run ms).bind fun p =>
      (p.1.run ms').map fun q => (q.1, p.2 + q.2) := by
  induction ms generalizing lot with
  | nil => cases lot.run ms' <;> simp [run]
  | cons m ms ih =>
    simp only [List.cons_append, run]
    cases lot.move m with
    | none => rfl
    | some p =>
      cases hrun : p.1.run ms with
      | none => simp [ih, hrun]
      | some q =>
        cases hrest : q.1.run ms' with
        | none => simp [ih, hrun, hrest]
        | some r => simp [ih, hrun, hrest, add_assoc]

theorem run_concat {lot mid next : Lot K} {ms : List (Move K)} {m : Move K} {released more : K}
    (hrun : lot.run ms = some (mid, released)) (hmove : mid.move m = some (next, more)) :
    lot.run (ms ++ [m]) = some (next, released + more) := by
  simp [run_append, hrun, run, hmove]

theorem run_balanced {lot last : Lot K} {ms : List (Move K)} {released : K}
    (h : lot.run ms = some (last, released)) :
    lot.units + (ms.map Move.unitsIn).sum = last.units + (ms.map Move.unitsOut).sum ∧
      lot.amount + (ms.map Move.amountIn).sum = last.amount + released := by
  induction ms generalizing lot released with
  | nil =>
    simp only [run, Option.some.injEq, Prod.mk.injEq] at h
    simp [← h.1, ← h.2]
  | cons m ms ih =>
    simp only [run, Option.bind_eq_bind, Option.bind_eq_some_iff, Option.pure_def,
      Option.some.injEq, Prod.mk.injEq, Prod.exists] at h
    obtain ⟨next, first, hmove, _, rest, hrest, rfl, rfl⟩ := h
    have hfirst := move_balanced hmove
    have hlater := ih hrest
    simp only [List.map_cons, List.sum_cons]
    constructor
    · linarith [hfirst.1, hlater.1]
    · linarith [hfirst.2, hlater.2]

end Lot

end AgentTrading.Library
