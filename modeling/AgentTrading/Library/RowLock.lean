import Mathlib.Logic.Basic

/-! One row of a table under READ COMMITTED. A lock is taken on a row that is there; a row that
is not there cannot be locked, and a version that is not committed is seen by its writer only. -/
namespace AgentTrading.Library

variable {τ α : Type}

/-- The committed version of a row, and the transaction that holds the row with the version it
sees. -/
structure Row (τ α : Type) where
  committed : Option α
  writer : Option (τ × α) := none

namespace Row

/-- The transaction holds the row. -/
def HeldBy (row : Row τ α) (tx : τ) : Prop := ∃ own, row.writer = some (tx, own)

variable [DecidableEq τ]

/-- The version a transaction sees. -/
def seen (row : Row τ α) (tx : τ) : Option α :=
  match row.writer with
  | some (holder, own) => if holder = tx then some own else row.committed
  | none => row.committed

/-- `SELECT ... FOR UPDATE`; it waits for another transaction only when there is a row. -/
def selectForUpdate (row : Row τ α) (tx : τ) : Option (Option α × Row τ α) :=
  match row.writer, row.committed with
  | some (holder, own), committed =>
    if holder = tx then some (some own, row)
    else if committed.isNone then some (none, row)
    else none
  | none, some a => some (some a, { row with writer := some (tx, a) })
  | none, none => some (none, row)

/-- `INSERT ... ON CONFLICT DO UPDATE`, with what it writes over each version. It waits for
another transaction that holds or has inserted the row. -/
def upsert (row : Row τ α) (tx : τ) (write : Option α → α) : Option (Row τ α) :=
  match row.writer with
  | some (holder, own) =>
    if holder = tx then some { row with writer := some (tx, write (some own)) } else none
  | none => some { row with writer := some (tx, write row.committed) }

def commit (row : Row τ α) (tx : τ) : Row τ α :=
  match row.writer with
  | some (holder, own) => if holder = tx then ⟨some own, none⟩ else row
  | none => row

def rollback (row : Row τ α) (tx : τ) : Row τ α :=
  match row.writer with
  | some (holder, _) => if holder = tx then ⟨row.committed, none⟩ else row
  | none => row

/-- A read locks the row and gives its version, or finds none and leaves everything as it is. -/
theorem selectForUpdate_eq {row next : Row τ α} {tx : τ} {found : Option α}
    (h : row.selectForUpdate tx = some (found, next)) :
    next.committed = row.committed ∧
      ((found = none ∧ next = row ∧ row.committed = none ∧ ¬ row.HeldBy tx) ∨
        ∃ a, found = some a ∧ row.seen tx = some a ∧ next.writer = some (tx, a) ∧
          (row.writer = some (tx, a) ∨ row.writer = none ∧ row.committed = some a)) := by
  obtain ⟨committed, writer⟩ := row
  cases writer with
  | none =>
    cases committed with
    | none =>
      simp only [selectForUpdate, Option.some.injEq, Prod.mk.injEq] at h
      obtain ⟨rfl, rfl⟩ := h
      simp [HeldBy]
    | some a =>
      simp only [selectForUpdate, Option.some.injEq, Prod.mk.injEq] at h
      obtain ⟨rfl, rfl⟩ := h
      simp [seen]
  | some held =>
    obtain ⟨holder, own⟩ := held
    by_cases hholder : holder = tx
    · simp only [selectForUpdate, hholder, if_true, Option.some.injEq, Prod.mk.injEq] at h
      obtain ⟨rfl, rfl⟩ := h
      simp [seen, hholder]
    · cases committed with
      | none =>
        simp only [selectForUpdate, hholder, if_false, Option.isNone_none, if_true,
          Option.some.injEq, Prod.mk.injEq] at h
        obtain ⟨rfl, rfl⟩ := h
        simp [HeldBy, hholder]
      | some a => simp [selectForUpdate, hholder] at h

theorem upsert_eq {row next : Row τ α} {tx : τ} {write : Option α → α}
    (h : row.upsert tx write = some next) :
    next.committed = row.committed ∧ next.writer = some (tx, write (row.seen tx)) ∧
      (row.HeldBy tx ∨ row.writer = none) := by
  obtain ⟨committed, writer⟩ := row
  cases writer with
  | none =>
    simp only [upsert, Option.some.injEq] at h
    subst h
    simp [seen]
  | some held =>
    obtain ⟨holder, own⟩ := held
    by_cases hholder : holder = tx
    · simp only [upsert, hholder, if_true, Option.some.injEq] at h
      subst h
      simp [seen, HeldBy, hholder]
    · simp [upsert, hholder] at h

theorem commit_held {row : Row τ α} {tx : τ} {own : α} (h : row.writer = some (tx, own)) :
    row.commit tx = ⟨some own, none⟩ := by
  simp [commit, h]

theorem commit_other {row : Row τ α} {tx : τ} (h : ¬ row.HeldBy tx) : row.commit tx = row := by
  unfold commit
  split
  next holder own hwriter =>
    split
    next hsame => exact absurd ⟨own, by rw [hwriter, hsame]⟩ h
    next => rfl
  next => rfl

theorem rollback_held {row : Row τ α} {tx : τ} {own : α} (h : row.writer = some (tx, own)) :
    row.rollback tx = ⟨row.committed, none⟩ := by
  simp [rollback, h]

theorem rollback_other {row : Row τ α} {tx : τ} (h : ¬ row.HeldBy tx) : row.rollback tx = row := by
  unfold rollback
  split
  next holder own hwriter =>
    split
    next hsame => exact absurd ⟨own, by rw [hwriter, hsame]⟩ h
    next => rfl
  next => rfl

end Row

end AgentTrading.Library
