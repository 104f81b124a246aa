import Mathlib.Algebra.BigOperators.Group.List.Basic
import Mathlib.Tactic.Linarith
import Mathlib.Tactic.NormNum
import AgentTrading.Fills.Incremental
import AgentTrading.Library.RowLock
import AgentTrading.Library.Runs

/-! Concurrent transactions that resolve observations of one broker order over its row of
`kis_fill_cumulative_state`. The row lock covers every read and write of a row that is there;
the observation that finds none is covered by nothing. -/
namespace AgentTrading.Fills
open Domain Library Library.Runs

abbrev TxId := Nat

/-- The columns that `ON CONFLICT DO UPDATE` writes over a row that is there. -/
def conflictUpdate (state : KisFillCumulativeStateEntity) :
    Option KisFillCumulativeStateEntity → KisFillCumulativeStateEntity
  | none => state
  | some stored =>
    { stored with
      lastCumulativeFilledQuantity := state.lastCumulativeFilledQuantity
      lastAverageFillPrice := state.lastAverageFillPrice
      lastObservedAt := state.lastObservedAt
      lastRawFieldFingerprint := state.lastRawFieldFingerprint }

@[simp] theorem conflictUpdate_quantity (state : KisFillCumulativeStateEntity)
    (stored : Option KisFillCumulativeStateEntity) :
    (conflictUpdate state stored).lastCumulativeFilledQuantity =
      state.lastCumulativeFilledQuantity := by
  cases stored <;> rfl

/-- A transaction in flight: the call that has read and not yet decided, and the quantities of
the new fills it has returned. -/
structure Session where
  reading : Option (Option KisFillCumulativeStateEntity × Observation) := none
  emitted : List ℚ := []

/-- The row, the transactions in flight, and what committed transactions emitted. -/
structure OrderRow where
  row : Row TxId KisFillCumulativeStateEntity
  session : TxId → Session := fun _ => {}
  emitted : List ℚ := []
  observed : List ℚ := []

inductive Action where
  | get (tx : TxId) (o : Observation)
  | resolve (tx : TxId) (now : Time) (freshId : UUID)
  | commit (tx : TxId)
  | rollback (tx : TxId)

def OrderRow.setSession (w : OrderRow) (tx : TxId) (s : Session) : OrderRow :=
  { w with session := Function.update w.session tx s }

@[simp] theorem OrderRow.setSession_self (w : OrderRow) (tx : TxId) (s : Session) :
    (w.setSession tx s).session tx = s :=
  Function.update_self ..

@[simp] theorem OrderRow.setSession_emitted (w : OrderRow) (tx : TxId) (s : Session) :
    (w.setSession tx s).emitted = w.emitted := rfl

theorem OrderRow.setSession_other (w : OrderRow) {tx other : TxId} (s : Session)
    (h : other ≠ tx) : (w.setSession tx s).session other = w.session other :=
  Function.update_of_ne h ..

/-- The read at the start of `resolve_incremental_fill`. -/
def OrderRow.get (w : OrderRow) (tx : TxId) (o : Observation) : OrderRow :=
  match w.row.selectForUpdate tx with
  | none => w
  | some (prior, row) =>
    { w.setSession tx { w.session tx with reading := some (prior, o) } with
      row := row
      observed := o.currentCumulativeQuantity :: w.observed }

def deltaOf : IncrementalFillDecision → List ℚ
  | .newFill deltaQuantity _ => [deltaQuantity]
  | _ => []

/-- The end of a call that returns: its read is forgotten and its new fill is kept. -/
def OrderRow.returned (w : OrderRow) (tx : TxId) (decision : IncrementalFillDecision)
    (row : Row TxId KisFillCumulativeStateEntity) : OrderRow :=
  { w.setSession tx ⟨none, deltaOf decision ++ (w.session tx).emitted⟩ with row := row }

/-- The write when there is one. A write that waits leaves the call where it was. -/
def OrderRow.conclude (w : OrderRow) (tx : TxId) :
    IncrementalFillDecision × Option KisFillCumulativeStateEntity → OrderRow
  | (.anomaly reason, _) => w.returned tx (.anomaly reason) w.row
  | (decision, none) => w.returned tx decision w.row
  | (decision, some state) =>
    match w.row.upsert tx (conflictUpdate state) with
    | none => w
    | some row => w.returned tx decision row

/-- The rest of the call. -/
def OrderRow.resolve (w : OrderRow) (tx : TxId) (now : Time) (freshId : UUID) : OrderRow :=
  match (w.session tx).reading with
  | none => w
  | some (prior, o) => w.conclude tx (resolveIncrementalFill prior o now freshId)

def OrderRow.commit (w : OrderRow) (tx : TxId) : OrderRow :=
  { w.setSession tx {} with
    row := w.row.commit tx
    emitted := (w.session tx).emitted ++ w.emitted }

def OrderRow.rollback (w : OrderRow) (tx : TxId) : OrderRow :=
  { w.setSession tx {} with row := w.row.rollback tx }

def act (w : OrderRow) : Action → OrderRow
  | .get tx o => w.get tx o
  | .resolve tx now freshId => w.resolve tx now freshId
  | .commit tx => w.commit tx
  | .rollback tx => w.rollback tx

def start (stored : Option KisFillCumulativeStateEntity) : OrderRow := { row := ⟨stored, none⟩ }

def largest (quantities : List ℚ) : ℚ := quantities.foldr max 0

theorem le_largest_cons (q : ℚ) (quantities : List ℚ) : q ≤ largest (q :: quantities) :=
  le_max_left _ _

theorem largest_le_cons (q : ℚ) (quantities : List ℚ) :
    largest quantities ≤ largest (q :: quantities) :=
  le_max_right _ _

theorem largest_nonneg (quantities : List ℚ) : 0 ≤ largest quantities := by
  induction quantities with
  | nil => exact le_rfl
  | cons q quantities ih => exact le_trans ih (largest_le_cons q quantities)

/-- A first observation that is no anomaly. -/
def Observation.Usable (o : Observation) : Prop :=
  0 ≤ o.currentCumulativeQuantity ∧
    (0 < o.currentCumulativeQuantity → o.currentAveragePrice ≠ none)

/-- A call that found no row decides only while no fill has been committed to one. -/
def UpToDate (w : OrderRow) : Action → Prop
  | .resolve tx _ _ => ∀ o, (w.session tx).reading = some (none, o) → o.Usable →
      lastQuantity w.row.committed = 0
  | _ => True

theorem first_anomaly_iff {o : Observation} {now : Time} {freshId : UUID} :
    (∃ reason, (resolveIncrementalFill none o now freshId).1 = .anomaly reason) ↔ ¬ o.Usable := by
  rcases lt_trichotomy o.currentCumulativeQuantity 0 with hneg | hzero | hpos
  · simp [resolveIncrementalFill, lastQuantity, Observation.Usable, hneg, hneg.ne, hneg.not_ge]
  · simp [resolveIncrementalFill, lastQuantity, Observation.Usable, hzero]
  · cases hprice : o.currentAveragePrice <;>
      simp [resolveIncrementalFill, lastQuantity, inferDeltaPrice, Observation.Usable, hprice,
        hpos, hpos.ne', hpos.le, hpos.not_gt, hpos.not_ge]

/-- What a call can do once it has read: wait, find an anomaly, or write what it observed and
emit what it observed beyond what it read. -/
theorem resolve_cases {w : OrderRow} {tx : TxId} {now : Time} {freshId : UUID}
    {prior : Option KisFillCumulativeStateEntity} {o : Observation}
    (hreading : (w.session tx).reading = some (prior, o)) :
    (∃ state, w.row.upsert tx (conflictUpdate state) = none ∧ w.resolve tx now freshId = w) ∨
    (∃ reason, (resolveIncrementalFill prior o now freshId).1 = .anomaly reason ∧
      w.resolve tx now freshId = w.returned tx (.anomaly reason) w.row) ∨
    ∃ state row decision, w.row.upsert tx (conflictUpdate state) = some row ∧
      state.lastCumulativeFilledQuantity = o.currentCumulativeQuantity ∧
      (∀ reason, (resolveIncrementalFill prior o now freshId).1 ≠ .anomaly reason) ∧
      (deltaOf decision).sum = o.currentCumulativeQuantity - lastQuantity prior ∧
      w.resolve tx now freshId = w.returned tx decision row := by
  have hresolve : w.resolve tx now freshId =
      w.conclude tx (resolveIncrementalFill prior o now freshId) := by
    simp [OrderRow.resolve, hreading]
  rw [hresolve]
  by_cases hanomaly : ∃ reason, (resolveIncrementalFill prior o now freshId).1 = .anomaly reason
  · obtain ⟨reason, hreason⟩ := hanomaly
    apply Or.inr
    apply Or.inl
    refine ⟨reason, hreason, ?_⟩
    rw [← hreason]
    generalize resolveIncrementalFill prior o now freshId = resolved at hreason
    obtain ⟨decision, state⟩ := resolved
    simp only at hreason
    subst hreason
    rfl
  · have hwrites : ∀ reason, (resolveIncrementalFill prior o now freshId).1 ≠ .anomaly reason :=
      fun reason h => hanomaly ⟨reason, h⟩
    obtain ⟨average, hstate⟩ := resolveIncrementalFill_writes hwrites
    have hdelta : (deltaOf (resolveIncrementalFill prior o now freshId).1).sum =
        o.currentCumulativeQuantity - lastQuantity prior := by
      rcases resolveIncrementalFill_cases prior o now freshId with
        ⟨hdecision, hquantity, -⟩ | ⟨reason, hdecision, -⟩ | ⟨price, hdecision, -, -⟩
      · simp [hdecision, deltaOf, hquantity]
      · exact absurd hdecision (hwrites reason)
      · simp [hdecision, deltaOf]
    have hconclude : w.conclude tx (resolveIncrementalFill prior o now freshId) =
        match w.row.upsert tx (conflictUpdate (upserted prior o average now freshId)) with
        | none => w
        | some row => w.returned tx (resolveIncrementalFill prior o now freshId).1 row := by
      generalize resolveIncrementalFill prior o now freshId = resolved at hstate hwrites
      obtain ⟨decision, state⟩ := resolved
      simp only at hstate hwrites
      subst hstate
      cases decision with
      | anomaly reason => exact absurd rfl (hwrites reason)
      | noNewFill => rfl
      | newFill delta price => rfl
    rw [hconclude]
    cases hupsert : w.row.upsert tx (conflictUpdate (upserted prior o average now freshId)) with
    | none => exact Or.inl ⟨_, hupsert, rfl⟩
    | some row => exact Or.inr (Or.inr ⟨_, row, _, hupsert, rfl, hwrites, hdelta, rfl⟩)

/-- What the session of one transaction has to do with the row: the holder's version is ahead of
the committed one by what the holder has emitted, and a read that found the row still shows it. -/
structure Kept (row : Row TxId KisFillCumulativeStateEntity) (tx : TxId) (s : Session) : Prop where
  own : ∀ state, row.writer = some (tx, state) →
    state.lastCumulativeFilledQuantity = lastQuantity row.committed + s.emitted.sum
  idle : ¬ row.HeldBy tx → s.emitted = []
  found : ∀ state o, s.reading = some (some state, o) → row.writer = some (tx, state)
  absent : ∀ o, s.reading = some (none, o) → ¬ row.HeldBy tx

theorem Kept.free {row next : Row TxId KisFillCumulativeStateEntity} {tx : TxId} {s : Session}
    (h : Kept row tx s) (hrow : ¬ row.HeldBy tx) (hnext : ¬ next.HeldBy tx) : Kept next tx s where
  own state hown := absurd ⟨state, hown⟩ hnext
  idle _ := h.idle hrow
  found state o hfound := absurd ⟨state, h.found state o hfound⟩ hrow
  absent _ _ := hnext

theorem Kept.ended {row : Row TxId KisFillCumulativeStateEntity} {tx : TxId}
    (h : ¬ row.HeldBy tx) : Kept row tx {} where
  own state hown := absurd ⟨state, hown⟩ h
  idle _ := rfl
  found _ _ hfound := nomatch hfound
  absent _ habsent := nomatch habsent

/-- The committed quantity is what was emitted, and so is every session's part of it. -/
structure Balanced (initial : ℚ) (w : OrderRow) : Prop where
  committed : lastQuantity w.row.committed = initial + w.emitted.sum
  kept : ∀ tx, Kept w.row tx (w.session tx)

theorem Balanced.start (stored : Option KisFillCumulativeStateEntity) :
    Balanced (lastQuantity stored) (start stored) where
  committed := by simp [Fills.start]
  kept tx := Kept.ended (by simp [Fills.start, Row.HeldBy])

theorem Balanced.set {initial : ℚ} {w : OrderRow} {tx : TxId} {s : Session}
    {next : Row TxId KisFillCumulativeStateEntity} {emitted observed : List ℚ}
    (hcommitted : lastQuantity next.committed = initial + emitted.sum) (hself : Kept next tx s)
    (hothers : ∀ other, other ≠ tx → Kept next other (w.session other)) :
    Balanced initial ⟨next, (w.setSession tx s).session, emitted, observed⟩ where
  committed := hcommitted
  kept other := by
    by_cases hother : other = tx
    · subst hother
      simpa using hself
    · simpa only [OrderRow.setSession_other w s hother] using hothers other hother

theorem not_heldBy_other {row : Row TxId KisFillCumulativeStateEntity} {tx other : TxId}
    {state : KisFillCumulativeStateEntity} (h : row.writer = some (tx, state))
    (hother : other ≠ tx) : ¬ row.HeldBy other := by
  simp [Row.HeldBy, h, Ne.symm hother]

theorem not_heldBy_of_free {row : Row TxId KisFillCumulativeStateEntity} (h : row.writer = none)
    (tx : TxId) : ¬ row.HeldBy tx := by
  simp [Row.HeldBy, h]

theorem Balanced.get {initial : ℚ} {w : OrderRow} (h : Balanced initial w) (tx : TxId)
    (o : Observation) : Balanced initial (w.get tx o) := by
  unfold OrderRow.get
  split
  · exact h
  next prior row hread =>
    obtain ⟨hcommitted, ⟨rfl, rfl, -, hfree⟩ | ⟨a, rfl, -, hwriter, hbefore⟩⟩ :=
      Row.selectForUpdate_eq hread
    · apply Balanced.set h.committed
      · constructor
        · exact (h.kept tx).own
        · exact (h.kept tx).idle
        · intro state o' hreading
          simp at hreading
        · exact fun _ _ => hfree
      · exact fun other _ => h.kept other
    · apply Balanced.set (hcommitted ▸ h.committed)
      · constructor
        · intro state hstate
          simp only [hwriter, Option.some.injEq, Prod.mk.injEq, true_and] at hstate
          subst hstate
          rw [hcommitted]
          rcases hbefore with hbefore | ⟨hbefore, hstored⟩
          · exact (h.kept tx).own a hbefore
          · rw [(h.kept tx).idle (not_heldBy_of_free hbefore tx)]
            simp [hstored, lastQuantity]
        · exact fun hidle => absurd ⟨a, hwriter⟩ hidle
        · intro state o' hreading
          simp only [Option.some.injEq, Prod.mk.injEq] at hreading
          rw [hwriter, hreading.1]
        · intro o' hreading
          simp at hreading
      · intro other hother
        apply (h.kept other).free _ (not_heldBy_other hwriter hother)
        rcases hbefore with hbefore | ⟨hbefore, -⟩
        · exact not_heldBy_other hbefore hother
        · exact not_heldBy_of_free hbefore other

theorem Balanced.anomaly {initial : ℚ} {w : OrderRow} (h : Balanced initial w) (tx : TxId)
    (reason : AnomalyReason) : Balanced initial (w.returned tx (.anomaly reason) w.row) := by
  apply Balanced.set h.committed
  · constructor
    · exact (h.kept tx).own
    · exact (h.kept tx).idle
    · intro read own hreading
      cases hreading
    · intro read hreading
      cases hreading
  · exact fun other _ => h.kept other

theorem Balanced.resolve {initial : ℚ} {w : OrderRow} (h : Balanced initial w) {tx : TxId}
    {now : Time} {freshId : UUID} (hfresh : UpToDate w (.resolve tx now freshId)) :
    Balanced initial (w.resolve tx now freshId) := by
  cases hreading : (w.session tx).reading with
  | none =>
    simp only [OrderRow.resolve, hreading]
    exact h
  | some read =>
    obtain ⟨prior, o⟩ := read
    rcases @resolve_cases w tx now freshId prior o hreading with
      ⟨-, -, heq⟩ | ⟨reason, -, heq⟩ |
        ⟨state, row, decision, hupsert, hquantity, hwrites, hdelta, heq⟩
    · rw [heq]
      exact h
    · rw [heq]
      exact h.anomaly tx reason
    · rw [heq]
      obtain ⟨hcommitted, hwriter, hbefore⟩ := Row.upsert_eq hupsert
      apply Balanced.set (hcommitted ▸ h.committed)
      · constructor
        · intro own hown
          simp only [hwriter, Option.some.injEq, Prod.mk.injEq, true_and] at hown
          subst hown
          rw [conflictUpdate_quantity, hquantity, hcommitted, List.sum_append, hdelta]
          cases prior with
          | some prior =>
            have hown := (h.kept tx).own prior ((h.kept tx).found prior o hreading)
            simp only [lastQuantity] at hown ⊢
            linarith
          | none =>
            -- the row it did not find has no fill yet, and the call has emitted none
            have husable : o.Usable := by
              by_contra hnot
              obtain ⟨reason, hreason⟩ := (@first_anomaly_iff o now freshId).mpr hnot
              exact hwrites reason hreason
            rw [hfresh o hreading husable, (h.kept tx).idle ((h.kept tx).absent o hreading)]
            simp [lastQuantity]
        · exact fun hidle => absurd ⟨_, hwriter⟩ hidle
        · intro read own hreading
          cases hreading
        · intro read hreading
          cases hreading
      · intro other hother
        apply (h.kept other).free _ (not_heldBy_other hwriter hother)
        rcases hbefore with ⟨own, hbefore⟩ | hbefore
        · exact not_heldBy_other hbefore hother
        · exact not_heldBy_of_free hbefore other

theorem Balanced.freed {initial : ℚ} {w : OrderRow} (h : Balanced initial w) {tx : TxId}
    {own : KisFillCumulativeStateEntity} {next : Row TxId KisFillCumulativeStateEntity}
    {emitted observed : List ℚ} (hown : w.row.writer = some (tx, own)) (hfree : next.writer = none)
    (hcommitted : lastQuantity next.committed = initial + emitted.sum) :
    Balanced initial ⟨next, (w.setSession tx {}).session, emitted, observed⟩ := by
  apply Balanced.set hcommitted
  · exact Kept.ended (not_heldBy_of_free hfree tx)
  · intro other hother
    exact (h.kept other).free (not_heldBy_other hown hother) (not_heldBy_of_free hfree other)

theorem Balanced.left {initial : ℚ} {w : OrderRow} (h : Balanced initial w) {tx : TxId}
    (hheld : ¬ w.row.HeldBy tx) {observed : List ℚ} :
    Balanced initial ⟨w.row, (w.setSession tx {}).session, w.emitted, observed⟩ := by
  apply Balanced.set h.committed
  · exact Kept.ended hheld
  · exact fun other _ => h.kept other

theorem Balanced.commit {initial : ℚ} {w : OrderRow} (h : Balanced initial w) (tx : TxId) :
    Balanced initial (w.commit tx) := by
  unfold OrderRow.commit
  by_cases hheld : w.row.HeldBy tx
  · obtain ⟨own, hown⟩ := hheld
    rw [Row.commit_held hown]
    apply h.freed hown rfl
    rw [List.sum_append]
    have hquantity := (h.kept tx).own own hown
    have hcommitted := h.committed
    simp only [lastQuantity] at hcommitted hquantity ⊢
    linarith
  · rw [Row.commit_other hheld, (h.kept tx).idle hheld, List.nil_append]
    exact h.left hheld

theorem Balanced.rollback {initial : ℚ} {w : OrderRow} (h : Balanced initial w) (tx : TxId) :
    Balanced initial (w.rollback tx) := by
  unfold OrderRow.rollback
  by_cases hheld : w.row.HeldBy tx
  · obtain ⟨own, hown⟩ := hheld
    rw [Row.rollback_held hown]
    exact h.freed hown rfl h.committed
  · rw [Row.rollback_other hheld]
    exact h.left hheld

theorem Balanced.act {initial : ℚ} {w : OrderRow} {action : Action} (h : Balanced initial w)
    (hfresh : UpToDate w action) : Balanced initial (act w action) := by
  cases action with
  | get tx o => exact h.get tx o
  | resolve tx now freshId => exact h.resolve hfresh
  | commit tx => exact h.commit tx
  | rollback tx => exact h.rollback tx

/-- No version of the row is ahead of the observations. -/
structure Bounded (initial : ℚ) (w : OrderRow) : Prop where
  committed : lastQuantity w.row.committed ≤ max initial (largest w.observed)
  own : ∀ tx state, w.row.writer = some (tx, state) →
    state.lastCumulativeFilledQuantity ≤ max initial (largest w.observed)
  reading : ∀ tx prior o, (w.session tx).reading = some (prior, o) →
    o.currentCumulativeQuantity ≤ largest w.observed

theorem Bounded.start (stored : Option KisFillCumulativeStateEntity) :
    Bounded (lastQuantity stored) (start stored) where
  committed := le_max_left _ _
  own := by simp [Fills.start]
  reading := by simp [Fills.start]

theorem Bounded.readings {initial : ℚ} {w : OrderRow} (h : Bounded initial w) {tx : TxId}
    {s : Session} (hs : s.reading = none) (other : TxId)
    {prior : Option KisFillCumulativeStateEntity} {o : Observation}
    (hreading : ((w.setSession tx s).session other).reading = some (prior, o)) :
    o.currentCumulativeQuantity ≤ largest w.observed := by
  by_cases hother : other = tx
  · subst hother
    simp [hs] at hreading
  · rw [OrderRow.setSession_other w s hother] at hreading
    exact h.reading other prior o hreading

theorem Bounded.get {initial : ℚ} {w : OrderRow} (h : Bounded initial w) (tx : TxId)
    (o : Observation) : Bounded initial (w.get tx o) := by
  unfold OrderRow.get
  split
  · exact h
  next prior row hread =>
    obtain ⟨hcommitted, hcases⟩ := Row.selectForUpdate_eq hread
    have hgrows : max initial (largest w.observed) ≤
        max initial (largest (o.currentCumulativeQuantity :: w.observed)) :=
      max_le_max_left _ (largest_le_cons _ _)
    constructor
    · rw [hcommitted]
      exact le_trans h.committed hgrows
    · intro holder state hstate
      obtain ⟨-, rfl, -, -⟩ | ⟨a, -, -, hwriter, hbefore⟩ := hcases
      · exact le_trans (h.own holder state hstate) hgrows
      · simp only [hwriter, Option.some.injEq, Prod.mk.injEq] at hstate
        obtain ⟨rfl, rfl⟩ := hstate
        apply le_trans _ hgrows
        rcases hbefore with hbefore | ⟨-, hstored⟩
        · exact h.own tx a hbefore
        · simpa [hstored, lastQuantity] using h.committed
    · intro other prior' o' hreading
      by_cases hother : other = tx
      · subst hother
        simp only [OrderRow.setSession_self, Option.some.injEq, Prod.mk.injEq] at hreading
        rw [← hreading.2]
        exact le_largest_cons _ _
      · apply le_trans _ (largest_le_cons _ _)
        apply h.reading other prior' o'
        simpa only [OrderRow.setSession_other w _ hother] using hreading

theorem Bounded.resolve {initial : ℚ} {w : OrderRow} (h : Bounded initial w) (tx : TxId)
    (now : Time) (freshId : UUID) : Bounded initial (w.resolve tx now freshId) := by
  cases hreading : (w.session tx).reading with
  | none =>
    simp only [OrderRow.resolve, hreading]
    exact h
  | some read =>
    obtain ⟨prior, o⟩ := read
    rcases @resolve_cases w tx now freshId prior o hreading with
      ⟨-, -, heq⟩ | ⟨reason, -, heq⟩ | ⟨state, row, decision, hupsert, hquantity, -, -, heq⟩
    · rw [heq]
      exact h
    · rw [heq]
      exact ⟨h.committed, h.own, fun other _ _ => h.readings rfl other⟩
    · rw [heq]
      obtain ⟨hcommitted, hwriter, -⟩ := Row.upsert_eq hupsert
      constructor
      · exact hcommitted ▸ h.committed
      · intro holder own hown
        simp only [OrderRow.returned, hwriter, Option.some.injEq, Prod.mk.injEq] at hown
        rw [← hown.2, conflictUpdate_quantity, hquantity]
        exact le_max_of_le_right (h.reading tx prior o hreading)
      · exact fun other _ _ => h.readings rfl other

theorem Bounded.commit {initial : ℚ} {w : OrderRow} (h : Bounded initial w) (tx : TxId) :
    Bounded initial (w.commit tx) := by
  by_cases hheld : w.row.HeldBy tx
  · obtain ⟨own, hown⟩ := hheld
    refine ⟨?_, ?_, fun other _ _ => h.readings rfl other⟩
    · simp only [OrderRow.commit, Row.commit_held hown]
      exact h.own tx own hown
    · simp [OrderRow.commit, Row.commit_held hown]
  · refine ⟨?_, ?_, fun other _ _ => h.readings rfl other⟩
    · simp only [OrderRow.commit, Row.commit_other hheld]
      exact h.committed
    · simp only [OrderRow.commit, Row.commit_other hheld]
      exact h.own

theorem Bounded.rollback {initial : ℚ} {w : OrderRow} (h : Bounded initial w) (tx : TxId) :
    Bounded initial (w.rollback tx) := by
  by_cases hheld : w.row.HeldBy tx
  · obtain ⟨own, hown⟩ := hheld
    refine ⟨?_, ?_, fun other _ _ => h.readings rfl other⟩
    · simp only [OrderRow.rollback, Row.rollback_held hown]
      exact h.committed
    · simp [OrderRow.rollback, Row.rollback_held hown]
  · refine ⟨?_, ?_, fun other _ _ => h.readings rfl other⟩
    · simp only [OrderRow.rollback, Row.rollback_other hheld]
      exact h.committed
    · simp only [OrderRow.rollback, Row.rollback_other hheld]
      exact h.own

theorem Bounded.act {initial : ℚ} {w : OrderRow} (h : Bounded initial w) (action : Action) :
    Bounded initial (act w action) := by
  cases action with
  | get tx o => exact h.get tx o
  | resolve tx now freshId => exact h.resolve tx now freshId
  | commit tx => exact h.commit tx
  | rollback tx => exact h.rollback tx

theorem emitted_le {initial : ℚ} {w : OrderRow} (hinitial : 0 ≤ initial)
    (hbalanced : Balanced initial w) (hbounded : Bounded initial w) :
    w.emitted.sum ≤ largest w.observed := by
  have hsum := hbalanced.committed
  have hlargest := largest_nonneg w.observed
  rcases le_max_iff.mp hbounded.committed with hle | hle <;> linarith

/-- A row that is there stays there, so no call finds none. -/
structure Present (w : OrderRow) : Prop where
  row : w.row.committed ≠ none
  reading : ∀ tx o, (w.session tx).reading ≠ some (none, o)

theorem Present.set {w : OrderRow} (h : Present w) {tx : TxId} {s : Session}
    {next : Row TxId KisFillCumulativeStateEntity} {emitted observed : List ℚ}
    (hrow : next.committed ≠ none) (hs : ∀ o, s.reading ≠ some (none, o)) :
    Present ⟨next, (w.setSession tx s).session, emitted, observed⟩ where
  row := hrow
  reading other := by
    by_cases hother : other = tx
    · subst hother
      simpa using hs
    · simpa only [OrderRow.setSession_other w s hother] using h.reading other

theorem Present.act {w : OrderRow} (h : Present w) (action : Action) : Present (act w action) := by
  cases action with
  | get tx o =>
    simp only [Fills.act, OrderRow.get]
    split
    · exact h
    next prior row hread =>
      obtain ⟨hcommitted, ⟨-, -, habsent, -⟩ | ⟨a, rfl, -, -, -⟩⟩ := Row.selectForUpdate_eq hread
      · exact absurd habsent h.row
      · apply h.set
        · exact hcommitted ▸ h.row
        · simp
  | resolve tx now freshId =>
    cases hreading : (w.session tx).reading with
    | none =>
      simp only [Fills.act, OrderRow.resolve, hreading]
      exact h
    | some read =>
      obtain ⟨prior, o⟩ := read
      rcases @resolve_cases w tx now freshId prior o hreading with
        ⟨-, -, heq⟩ | ⟨reason, -, heq⟩ | ⟨state, row, decision, hupsert, -, -, -, heq⟩
      · simp only [Fills.act, heq]
        exact h
      · simp only [Fills.act, heq]
        exact h.set h.row (by simp)
      · simp only [Fills.act, heq]
        exact h.set ((Row.upsert_eq hupsert).1 ▸ h.row) (by simp)
  | commit tx =>
    apply h.set
    · by_cases hheld : w.row.HeldBy tx
      · obtain ⟨own, hown⟩ := hheld
        simp [Row.commit_held hown]
      · rw [Row.commit_other hheld]
        exact h.row
    · simp
  | rollback tx =>
    apply h.set
    · by_cases hheld : w.row.HeldBy tx
      · obtain ⟨own, hown⟩ := hheld
        simp [Row.rollback_held hown, h.row]
      · rw [Row.rollback_other hheld]
        exact h.row
    · simp

theorem upToDate_of_present (stored : KisFillCumulativeStateEntity) (actions : List Action) :
    Meets act UpToDate (start (some stored)) actions := by
  have hpresent : Present (start (some stored)) := ⟨by simp [start], by simp [start]⟩
  generalize start (some stored) = w at hpresent
  induction actions generalizing w with
  | nil => trivial
  | cons action actions ih =>
    constructor
    · cases action with
      | resolve tx now freshId =>
        exact fun o hreading => absurd hreading (hpresent.reading tx o)
      | get tx o => trivial
      | commit tx => trivial
      | rollback tx => trivial
    · exact ih _ (hpresent.act action)

/-- A stale decision that commits: what had been committed before it is emitted a second time. -/
theorem stale_emits_twice {w : OrderRow} {tx : TxId} {now : Time} {freshId : UUID}
    {o : Observation} {initial : ℚ} (h : Balanced initial w)
    (hreading : (w.session tx).reading = some (none, o)) (husable : o.Usable)
    (hfree : w.row.writer = none) :
    let next := (w.resolve tx now freshId).commit tx
    initial + next.emitted.sum =
      lastQuantity next.row.committed + lastQuantity w.row.committed := by
  intro next
  rcases @resolve_cases w tx now freshId none o hreading with
    ⟨state, hwaits, -⟩ | ⟨reason, hanomaly, -⟩ | ⟨state, row, decision, hupsert, hquantity, -,
      hdelta, heq⟩
  · simp [Row.upsert, hfree] at hwaits
  · exact absurd husable (first_anomaly_iff.mp ⟨reason, hanomaly⟩)
  · obtain ⟨-, hwriter, -⟩ := Row.upsert_eq hupsert
    have hidle := (h.kept tx).idle (not_heldBy_of_free hfree tx)
    have hcommitted := h.committed
    simp only [next, heq, OrderRow.commit, OrderRow.returned, OrderRow.setSession_self,
      OrderRow.setSession_emitted, Row.commit_held hwriter, hidle, List.append_nil,
      List.sum_append, hdelta, lastQuantity_none, lastQuantity_some, conflictUpdate_quantity,
      hquantity]
    linarith

/-- Committed transactions never emit more than the largest quantity observed, as long as no call
that found no row decides over a fill committed since. The stored quantity is not negative by
the table's own check. -/
theorem emitted_le_largest (stored : Option KisFillCumulativeStateEntity)
    (hstored : 0 ≤ lastQuantity stored) (actions : List Action)
    (hfresh : Meets act UpToDate (start stored) actions) :
    (run act (start stored) actions).emitted.sum ≤
      largest (run act (start stored) actions).observed := by
  have hkept := run_keeps act
    (I := fun w => Balanced (lastQuantity stored) w ∧ Bounded (lastQuantity stored) w)
    (fun w action h hfresh => ⟨h.1.act hfresh, h.2.act action⟩) (start stored) actions
    ⟨Balanced.start stored, Bounded.start stored⟩ hfresh
  exact emitted_le hstored hkept.1 hkept.2

/-- One observation of ten shares at a price of 100. -/
def tenShares : Observation where
  accountId := 1
  brokerName := "KIS"
  brokerNativeOrderId := "000227"
  currentCumulativeQuantity := 10
  currentAveragePrice := some 100

theorem emitted_le_largest_inTurn :
    let actions : List Action := [.get 1 tenShares, .resolve 1 0 7, .commit 1,
      .get 2 tenShares, .resolve 2 1 8, .commit 2]
    (run act (start none) actions).emitted.sum ≤
      largest (run act (start none) actions).observed := by
  apply emitted_le_largest none le_rfl
  norm_num [Meets, UpToDate, act, start, OrderRow.get, Row.selectForUpdate, OrderRow.resolve,
    OrderRow.conclude, resolveIncrementalFill, tenShares, inferDeltaPrice, Row.upsert,
    OrderRow.returned, OrderRow.commit, Row.commit, conflictUpdate, upserted]
  intro hprior
  cases hprior

theorem emitted_exceeds_largest :
    let actions : List Action := [.get 1 tenShares, .get 2 tenShares, .resolve 1 0 7,
      .commit 1, .resolve 2 1 8, .commit 2]
    ¬ (run act (start none) actions).emitted.sum ≤
      largest (run act (start none) actions).observed := by
  decide +kernel

end AgentTrading.Fills
