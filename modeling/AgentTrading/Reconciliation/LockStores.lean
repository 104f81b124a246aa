import Mathlib.Data.List.Pairwise
import AgentTrading.Library.Runs
import AgentTrading.Repositories.Memory

/-! The blocking locks in memory beside the rows that the SQL statements of the same calls
keep. In memory an absent part of a scope is a value of its own; in a statement it leaves a
filter out, and a `NULL` strategy equals no strategy. -/
namespace AgentTrading.Reconciliation
open Domain Repositories Library

inductive LockCall where
  | acquireBlockingLock (accountId : UUID) (strategyId : Option UUID) (symbol side reason : String)
      (lockedByRunId : UUID) (now : Time) (ttlMinutes : Int)
  | releaseBlockingLock (accountId : UUID) (strategyId : Option UUID) (symbol side : Option String)
      (lockedByRunId : Option UUID)
  | isBlocked (accountId : UUID) (strategyId : Option UUID) (symbol side : Option String)

/-- The call, and the clock of the store it reaches. -/
structure LockEvent where
  clock : Time
  call : LockCall

/-- A row of `order_blocking_locks`. -/
structure LockRow where
  accountId : UUID
  strategyId : Option UUID
  symbol : String
  side : String
  lock : BlockingLock
  deriving DecidableEq

namespace LockRow

def key (row : LockRow) : LockKey := ⟨row.accountId, row.strategyId, some row.symbol, some row.side⟩

/-- `COALESCE(strategy_id, '00000000-0000-0000-0000-000000000000')`. -/
def coalesced (row : LockRow) : UUID := row.strategyId.getD 0

/-- The rows are equal for the unique index. -/
def conflicts (row other : LockRow) : Bool :=
  row.accountId = other.accountId ∧ row.coalesced = other.coalesced ∧ row.symbol = other.symbol ∧
    row.side = other.side

/-- The filters of a statement; a filter is added for a value only. -/
def inScope (row : LockRow) (accountId : UUID) (strategyId : Option UUID)
    (symbol side : Option String) : Bool :=
  row.accountId = accountId ∧ strategyId.all (row.strategyId = some ·) ∧
    symbol.all (row.symbol = ·) ∧ side.all (row.side = ·)

/-- The update of an expired row leaves its strategy and its reason. -/
def takeOver (row new : LockRow) : LockRow :=
  { row with lock :=
    { row.lock with
      lockedByRunId := new.lock.lockedByRunId
      expiresAt := new.lock.expiresAt } }

end LockRow

/-- `INSERT … ON CONFLICT … DO UPDATE … WHERE expires_at < NOW()`. -/
def sqlAcquire (now : Time) (new : LockRow) (rows : List LockRow) : List LockRow :=
  if rows.any (·.conflicts new) then
    rows.map fun row =>
      if row.conflicts new ∧ row.lock.expiresAt < now then row.takeOver new else row
  else rows ++ [new]

/-- `DELETE … WHERE …`. -/
def sqlRelease (accountId : UUID) (strategyId : Option UUID) (symbol side : Option String)
    (lockedByRunId : Option UUID) (rows : List LockRow) : List LockRow :=
  rows.filter fun row =>
    ¬ (row.inScope accountId strategyId symbol side ∧
      lockedByRunId.all (row.lock.lockedByRunId = ·))

/-- `SELECT 1 … WHERE … AND expires_at > NOW() LIMIT 1`. -/
def sqlIsBlocked (now : Time) (accountId : UUID) (strategyId : Option UUID)
    (symbol side : Option String) (rows : List LockRow) : Bool :=
  rows.any fun row => row.inScope accountId strategyId symbol side ∧ now < row.lock.expiresAt

/-- Both stores, and the answers they gave: in memory, and from the rows. -/
structure LockStores where
  memory : Store
  rows : List LockRow := []
  answers : List (Bool × Bool) := []

def lockStep (w : LockStores) (e : LockEvent) : LockStores :=
  let memory := { w.memory with clock := e.clock }
  match e.call with
  | .acquireBlockingLock accountId strategyId symbol side reason lockedByRunId now ttlMinutes =>
    let expiresAt := now + ttlMinutes * microsPerMinute
    { w with
      memory := (memory.acquireLock ⟨accountId, strategyId, some symbol, some side⟩ reason
        lockedByRunId expiresAt).2
      rows := sqlAcquire e.clock
        ⟨accountId, strategyId, symbol, side, ⟨reason, lockedByRunId, expiresAt⟩⟩ w.rows }
  | .releaseBlockingLock accountId strategyId symbol side lockedByRunId =>
    { w with
      memory := memory.releaseLock accountId strategyId symbol side lockedByRunId
      rows := sqlRelease accountId strategyId symbol side lockedByRunId w.rows }
  | .isBlocked accountId strategyId symbol side =>
    let (answer, memory) := memory.isLocked ⟨accountId, strategyId, symbol, side⟩
    { memory := memory
      rows := w.rows
      answers := w.answers ++
        [(answer, sqlIsBlocked e.clock accountId strategyId symbol side w.rows)] }

/-- The same answers so far, and the same locks that have not expired. -/
structure LockStores.Agree (w : LockStores) : Prop where
  answers : ∀ answer ∈ w.answers, answer.1 = answer.2
  locks : ∀ key (lock : BlockingLock), w.memory.clock < lock.expiresAt →
    (w.memory.locks key = some lock ↔ ∃ row ∈ w.rows, row.key = key ∧ row.lock = lock)

/-- A row that has not expired and that the filters let through. -/
def LockRow.liveIn (row : LockRow) (clock : Time) (accountId : UUID) (strategyId : Option UUID)
    (symbol side : Option String) : Prop :=
  row.inScope accountId strategyId symbol side = true ∧ clock < row.lock.expiresAt

/-- Where the meaning of an absent part makes no difference. -/
def ScopesCoincide (rows : List LockRow) (clock : Time) : LockCall → Prop
  | .acquireBlockingLock accountId strategyId symbol side reason lockedByRunId _ _ =>
    -- a row that stands in the way is of the same strategy; an expired one gives way in both
    -- stores, and its reason is the new one
    ∀ row ∈ rows, row.conflicts ⟨accountId, strategyId, symbol, side, ⟨reason, lockedByRunId, 0⟩⟩ →
      row.strategyId = strategyId ∧
        (clock < row.lock.expiresAt ∨ row.lock.expiresAt < clock ∧ row.lock.reason = reason)
  | .releaseBlockingLock accountId strategyId symbol side none =>
    (strategyId = none ∧ symbol = none ∧ side = none) ∨
      ∀ row ∈ rows, row.liveIn clock accountId strategyId symbol side →
        row.key = ⟨accountId, strategyId, symbol, side⟩
  | .releaseBlockingLock accountId strategyId symbol side (some runId) =>
    ∀ row ∈ rows, row.liveIn clock accountId none none none → row.lock.lockedByRunId = runId →
      row.inScope accountId strategyId symbol side = true
  | .isBlocked accountId strategyId symbol side =>
    (∃ row ∈ rows, row.liveIn clock accountId strategyId symbol side) →
      ∃ row ∈ rows, clock < row.lock.expiresAt ∧ row.key = ⟨accountId, strategyId, symbol, side⟩

/-- The clock does not go back, and the scopes coincide. -/
def Coincides (w : LockStores) (e : LockEvent) : Prop :=
  w.memory.clock ≤ e.clock ∧ ScopesCoincide w.rows e.clock e.call

instance (row : LockRow) (clock : Time) (accountId : UUID) (strategyId : Option UUID)
    (symbol side : Option String) :
    Decidable (row.liveIn clock accountId strategyId symbol side) :=
  inferInstanceAs (Decidable (_ ∧ _))

instance (rows : List LockRow) (clock : Time) : ∀ call, Decidable (ScopesCoincide rows clock call)
  | .acquireBlockingLock .. => inferInstanceAs (Decidable (∀ _ ∈ rows, _))
  | .releaseBlockingLock _ _ _ _ none => inferInstanceAs (Decidable (_ ∨ ∀ _ ∈ rows, _))
  | .releaseBlockingLock _ _ _ _ (some _) => inferInstanceAs (Decidable (∀ _ ∈ rows, _))
  | .isBlocked .. => inferInstanceAs (Decidable ((∃ _ ∈ rows, _) → _))

instance (w : LockStores) (e : LockEvent) : Decidable (Coincides w e) :=
  inferInstanceAs (Decidable (_ ∧ _))

/-- Neither store holds a lock. -/
def noLocks (s : Store) : LockStores where
  memory := { s with locks := fun _ => none }

def LockRow.Apart (row other : LockRow) : Prop := row.conflicts other = false

/-- The stores agree, and the unique index holds. -/
structure LockStores.Sound (w : LockStores) : Prop extends w.Agree where
  unique : w.rows.Pairwise LockRow.Apart

theorem conflicts_iff {row other : LockRow} : row.conflicts other = true ↔
    row.accountId = other.accountId ∧ row.coalesced = other.coalesced ∧
      row.symbol = other.symbol ∧ row.side = other.side := by
  simp only [LockRow.conflicts, decide_eq_true_eq]

theorem conflicts_of_key {row other : LockRow} (h : row.key = other.key) :
    row.conflicts other = true := by
  simp only [LockRow.key, LockKey.mk.injEq, Option.some.injEq] at h
  rw [conflicts_iff, LockRow.coalesced, LockRow.coalesced, h.2.1]
  exact ⟨h.1, rfl, h.2.2.1, h.2.2.2⟩

theorem conflicts_symm {row other : LockRow} (h : row.conflicts other = true) :
    other.conflicts row = true := by
  rw [conflicts_iff] at h ⊢
  exact ⟨h.1.symm, h.2.1.symm, h.2.2.1.symm, h.2.2.2.symm⟩

theorem conflicts_trans {a b c : LockRow} (hab : a.conflicts b = true)
    (hbc : b.conflicts c = true) : a.conflicts c = true := by
  rw [conflicts_iff] at hab hbc ⊢
  exact ⟨hab.1.trans hbc.1, hab.2.1.trans hbc.2.1, hab.2.2.1.trans hbc.2.2.1,
    hab.2.2.2.trans hbc.2.2.2⟩

instance : Std.Symm LockRow.Apart where
  symm row other h := by
    cases hconflicts : other.conflicts row with
    | false => exact hconflicts
    | true =>
      have htrue := conflicts_symm hconflicts
      rw [show row.conflicts other = false from h] at htrue
      cases htrue

theorem unique_conflict {rows : List LockRow} (h : rows.Pairwise LockRow.Apart)
    {a b new : LockRow} (ha : a ∈ rows) (hb : b ∈ rows) (hanew : a.conflicts new = true)
    (hbnew : b.conflicts new = true) : a = b := by
  by_contra hne
  have hapart : a.conflicts b = false := h.forall ha hb hne
  rw [conflicts_trans hanew (conflicts_symm hbnew)] at hapart
  cases hapart

theorem LockStores.Sound.later {w : LockStores} (h : w.Sound) {clock : Time}
    (hclock : w.memory.clock ≤ clock) :
    ({ w with memory := { w.memory with clock := clock } } : LockStores).Sound where
  answers := h.answers
  locks := fun key lock hlive => h.locks key lock (hclock.trans_lt hlive)
  unique := h.unique

theorem acquireLock_live {s : Store} {key : LockKey} {lock : BlockingLock} (reason : String)
    (runId : UUID) (expiresAt : Time) (h : s.locks key = some lock)
    (hlive : s.clock < lock.expiresAt) :
    (s.acquireLock key reason runId expiresAt).2 = s := by
  simp only [Store.acquireLock, h, not_le.mpr hlive, if_false]

theorem acquireLock_free {s : Store} {key : LockKey} (reason : String) (runId : UUID)
    (expiresAt : Time) (h : ∀ lock, s.locks key = some lock → lock.expiresAt ≤ s.clock) :
    (s.acquireLock key reason runId expiresAt).2 =
      s.setLock key (some ⟨reason, runId, expiresAt⟩) := by
  unfold Store.acquireLock
  cases hlock : s.locks key with
  | none => rfl
  | some lock => simp only [h lock hlock, if_true]

theorem sqlAcquire_live {now : Time} {new row : LockRow} {rows : List LockRow}
    (hunique : rows.Pairwise LockRow.Apart) (hrow : row ∈ rows)
    (hconflicts : row.conflicts new = true)
    (hlive : now < row.lock.expiresAt) : sqlAcquire now new rows = rows := by
  have hany : rows.any (·.conflicts new) = true := List.any_eq_true.mpr ⟨row, hrow, hconflicts⟩
  rw [sqlAcquire, if_pos hany]
  have hsame : ∀ other ∈ rows,
      (if other.conflicts new ∧ other.lock.expiresAt < now then other.takeOver new else other) =
        id other := by
    intro other hother
    apply if_neg
    rintro ⟨hother', hexpired⟩
    rw [unique_conflict hunique hother hrow hother' hconflicts] at hexpired
    exact lt_asymm hlive hexpired
  rw [List.map_congr_left hsame, List.map_id]

theorem sqlAcquire_unique {now : Time} {new : LockRow} {rows : List LockRow}
    (hunique : rows.Pairwise LockRow.Apart) : (sqlAcquire now new rows).Pairwise LockRow.Apart := by
  unfold sqlAcquire
  by_cases hany : rows.any (·.conflicts new) = true
  · rw [if_pos hany, List.pairwise_map]
    refine hunique.imp fun h => ?_
    split <;> split <;> exact h
  · rw [if_neg hany, List.pairwise_append]
    refine ⟨hunique, List.pairwise_singleton _ _, fun row hrow other hother => ?_⟩
    rw [List.mem_singleton.mp hother]
    simp only [List.any_eq_true, not_exists, not_and, Bool.not_eq_true] at hany
    exact hany row hrow

theorem key_of_conflicts {row new : LockRow} (h : row.conflicts new = true)
    (hstrategy : row.strategyId = new.strategyId) : row.key = new.key := by
  obtain ⟨haccount, -, hsymbol, hside⟩ := conflicts_iff.mp h
  rw [LockRow.key, LockRow.key, haccount, hstrategy, hsymbol, hside]

theorem takeOver_lock {row new : LockRow} (h : row.lock.reason = new.lock.reason) :
    (row.takeOver new).lock = new.lock := by
  simp only [LockRow.takeOver, h]

theorem sqlAcquire_free {now : Time} {new : LockRow} {rows : List LockRow}
    (h : ∀ row ∈ rows, row.conflicts new = true → row.strategyId = new.strategyId ∧
      row.lock.expiresAt < now ∧ row.lock.reason = new.lock.reason) (key : LockKey)
    (lock : BlockingLock) :
    (∃ row ∈ sqlAcquire now new rows, row.key = key ∧ row.lock = lock) ↔
      if key = new.key then lock = new.lock else ∃ row ∈ rows, row.key = key ∧ row.lock = lock := by
  have hstays : ∀ row ∈ rows, row.key ≠ new.key → row.conflicts new = false := by
    intro row hrow hne
    cases hconflicts : row.conflicts new with
    | false => rfl
    | true => exact absurd (key_of_conflicts hconflicts (h row hrow hconflicts).1) hne
  unfold sqlAcquire
  by_cases hany : rows.any (·.conflicts new) = true
  · rw [if_pos hany]
    simp only [List.mem_map, exists_exists_and_eq_and]
    constructor
    · rintro ⟨row, hrow, hkey, hlock⟩
      by_cases hconflicts : row.conflicts new = true
      · obtain ⟨hstrategy, hexpired, hreason⟩ := h row hrow hconflicts
        rw [if_pos ⟨hconflicts, hexpired⟩] at hkey hlock
        rw [if_pos (hkey.symm.trans (key_of_conflicts hconflicts hstrategy)), ← hlock,
          takeOver_lock hreason]
      · rw [if_neg fun hboth => hconflicts hboth.1] at hkey hlock
        rw [if_neg]
        · exact ⟨row, hrow, hkey, hlock⟩
        · intro heq
          exact hconflicts (conflicts_of_key (hkey.trans heq))
    · by_cases hkey : key = new.key
      · rw [if_pos hkey]
        rintro rfl
        obtain ⟨row, hrow, hconflicts⟩ := List.any_eq_true.mp hany
        obtain ⟨hstrategy, hexpired, hreason⟩ := h row hrow hconflicts
        refine ⟨row, hrow, ?_⟩
        rw [if_pos ⟨hconflicts, hexpired⟩, takeOver_lock hreason, hkey]
        exact ⟨key_of_conflicts hconflicts hstrategy, rfl⟩
      · rw [if_neg hkey]
        rintro ⟨row, hrow, rfl, rfl⟩
        refine ⟨row, hrow, ?_⟩
        rw [hstays row hrow hkey]
        simp only [Bool.false_eq_true, false_and, if_false, and_self]
  · rw [if_neg hany]
    simp only [List.any_eq_true, not_exists, not_and, Bool.not_eq_true] at hany
    simp only [List.mem_append, List.mem_singleton]
    constructor
    · rintro ⟨row, hrow | rfl, hkey, hlock⟩
      · rw [if_neg]
        · exact ⟨row, hrow, hkey, hlock⟩
        · intro heq
          have htrue := conflicts_of_key (hkey.trans heq)
          rw [hany row hrow] at htrue
          cases htrue
      · rw [if_pos hkey.symm, hlock]
    · by_cases hkey : key = new.key
      · rw [if_pos hkey]
        rintro rfl
        exact ⟨new, Or.inr rfl, hkey.symm, rfl⟩
      · rw [if_neg hkey]
        rintro ⟨row, hrow, hrest⟩
        exact ⟨row, Or.inl hrow, hrest⟩

theorem LockStores.Sound.acquire {w : LockStores} (h : w.Sound) {new : LockRow}
    (hscope : ∀ row ∈ w.rows, row.conflicts new → row.strategyId = new.strategyId ∧
      (w.memory.clock < row.lock.expiresAt ∨
        row.lock.expiresAt < w.memory.clock ∧ row.lock.reason = new.lock.reason)) :
    ({ w with
      memory := (w.memory.acquireLock new.key new.lock.reason new.lock.lockedByRunId
        new.lock.expiresAt).2
      rows := sqlAcquire w.memory.clock new w.rows } : LockStores).Sound := by
  by_cases hlive : ∃ row ∈ w.rows, row.conflicts new = true ∧ w.memory.clock < row.lock.expiresAt
  · obtain ⟨row, hrow, hconflicts, hexpires⟩ := hlive
    have hkey := key_of_conflicts hconflicts (hscope row hrow hconflicts).1
    have hheld : w.memory.locks new.key = some row.lock :=
      (h.locks new.key row.lock hexpires).mpr ⟨row, hrow, hkey, rfl⟩
    rw [acquireLock_live _ _ _ hheld hexpires, sqlAcquire_live h.unique hrow hconflicts hexpires]
    exact h
  · simp only [not_exists, not_and] at hlive
    have hexpired : ∀ row ∈ w.rows, row.conflicts new = true → row.strategyId = new.strategyId ∧
        row.lock.expiresAt < w.memory.clock ∧ row.lock.reason = new.lock.reason := by
      intro row hrow hconflicts
      obtain ⟨hstrategy, hrest⟩ := hscope row hrow hconflicts
      exact ⟨hstrategy, hrest.resolve_left (hlive row hrow hconflicts)⟩
    have hfree : ∀ lock, w.memory.locks new.key = some lock →
        lock.expiresAt ≤ w.memory.clock := by
      intro lock hlock
      by_contra hlt
      obtain ⟨row, hrow, hkey, rfl⟩ := (h.locks new.key lock (not_le.mp hlt)).mp hlock
      exact hlive row hrow (conflicts_of_key hkey) (not_le.mp hlt)
    rw [acquireLock_free _ _ _ hfree]
    refine ⟨⟨h.answers, fun key lock hexpires => ?_⟩, sqlAcquire_unique h.unique⟩
    rw [sqlAcquire_free hexpired]
    by_cases hkey : key = new.key
    · subst hkey
      simp only [Store.setLock, Function.update_self, if_true, Option.some.injEq]
      exact eq_comm
    · simp only [Store.setLock, Function.update_of_ne hkey, hkey, if_false]
      exact h.locks key lock hexpires

theorem mem_sqlRelease {accountId : UUID} {strategyId : Option UUID} {symbol side : Option String}
    {runId : Option UUID} {rows : List LockRow} {row : LockRow} :
    row ∈ sqlRelease accountId strategyId symbol side runId rows ↔ row ∈ rows ∧
      ¬ (row.inScope accountId strategyId symbol side = true ∧
        runId.all (row.lock.lockedByRunId = ·) = true) := by
  simp only [sqlRelease, List.mem_filter, decide_eq_true_eq]

theorem inScope_iff {row : LockRow} {accountId : UUID} {strategyId : Option UUID}
    {symbol side : Option String} : row.inScope accountId strategyId symbol side = true ↔
      row.accountId = accountId ∧ strategyId.all (row.strategyId = some ·) = true ∧
        symbol.all (row.symbol = ·) = true ∧ side.all (row.side = ·) = true := by
  simp only [LockRow.inScope, decide_eq_true_eq]

theorem inScope_of_key {row : LockRow} {accountId : UUID} {strategyId : Option UUID}
    {symbol side : Option String} (h : row.key = ⟨accountId, strategyId, symbol, side⟩) :
    row.inScope accountId strategyId symbol side = true := by
  simp only [LockRow.key, LockKey.mk.injEq] at h
  obtain ⟨haccount, hstrategy, rfl, rfl⟩ := h
  rw [inScope_iff, ← hstrategy]
  refine ⟨haccount, ?_, ?_, ?_⟩
  · cases row.strategyId <;> simp
  · simp
  · simp

theorem LockStores.Sound.release {w : LockStores} (h : w.Sound) {memory : Store}
    {accountId : UUID} {strategyId : Option UUID} {symbol side : Option String}
    {runId : Option UUID} {gone : LockKey → BlockingLock → Prop}
    (hclock : memory.clock = w.memory.clock)
    (hmemory : ∀ key lock, memory.locks key = some lock ↔
      w.memory.locks key = some lock ∧ ¬ gone key lock)
    (hrows : ∀ row ∈ w.rows, w.memory.clock < row.lock.expiresAt →
      (row.inScope accountId strategyId symbol side = true ∧
        runId.all (row.lock.lockedByRunId = ·) = true ↔ gone row.key row.lock)) :
    ({ w with
      memory := memory
      rows := sqlRelease accountId strategyId symbol side runId w.rows } : LockStores).Sound := by
  refine ⟨⟨h.answers, fun key lock hlive => ?_⟩, h.unique.filter _⟩
  rw [hclock] at hlive
  rw [hmemory, h.locks key lock hlive]
  constructor
  · rintro ⟨⟨row, hrow, rfl, rfl⟩, hkept⟩
    exact ⟨row, mem_sqlRelease.mpr ⟨hrow, fun hboth => hkept ((hrows row hrow hlive).mp hboth)⟩,
      rfl, rfl⟩
  · rintro ⟨row, hrow, rfl, rfl⟩
    obtain ⟨hstored, hkept⟩ := mem_sqlRelease.mp hrow
    exact ⟨⟨row, hstored, rfl, rfl⟩, fun hgone => hkept ((hrows row hstored hlive).mpr hgone)⟩

theorem inScope_account {row : LockRow} {accountId : UUID} :
    row.inScope accountId none none none = true ↔ row.accountId = accountId := by
  simp [inScope_iff]

theorem releaseLock_clock (s : Store) (accountId : UUID) (strategyId : Option UUID)
    (symbol side : Option String) (runId : Option UUID) :
    (s.releaseLock accountId strategyId symbol side runId).clock = s.clock := by
  obtain ⟨locks, hlocks⟩ := s.releaseLock_frame accountId strategyId symbol side runId
  rw [hlocks]

theorem LockStores.Sound.releaseRun {w : LockStores} (h : w.Sound) {accountId : UUID}
    {strategyId : Option UUID} {symbol side : Option String} {runId : UUID}
    (hscope : ∀ row ∈ w.rows, row.liveIn w.memory.clock accountId none none none →
      row.lock.lockedByRunId = runId → row.inScope accountId strategyId symbol side = true) :
    ({ w with
      memory := w.memory.releaseLock accountId strategyId symbol side (some runId)
      rows := sqlRelease accountId strategyId symbol side (some runId) w.rows } :
        LockStores).Sound := by
  have hmemory : ∀ key lock,
      (w.memory.releaseLock accountId strategyId symbol side (some runId)).locks key = some lock ↔
        w.memory.locks key = some lock ∧
          ¬ (key.accountId = accountId ∧ lock.lockedByRunId = runId) := by
    intro key lock
    simp only [Store.releaseLock, Option.filter_eq_some_iff, decide_eq_true_eq]
  refine h.release (releaseLock_clock ..) hmemory fun row hrow hlive => ?_
  simp only [Option.all_some, decide_eq_true_eq]
  constructor
  · rintro ⟨hin, hrun⟩
    exact ⟨(inScope_iff.mp hin).1, hrun⟩
  · rintro ⟨haccount, hrun⟩
    exact ⟨hscope row hrow ⟨inScope_account.mpr haccount, hlive⟩ hrun, hrun⟩

theorem LockStores.Sound.releaseAccount {w : LockStores} (h : w.Sound) (accountId : UUID) :
    ({ w with
      memory := w.memory.releaseLock accountId none none none none
      rows := sqlRelease accountId none none none none w.rows } : LockStores).Sound := by
  have hmemory : ∀ key lock,
      (w.memory.releaseLock accountId none none none none).locks key = some lock ↔
        w.memory.locks key = some lock ∧ ¬ key.accountId = accountId := by
    intro key lock
    simp only [Store.releaseLock, and_self, if_true]
    split
    · rename_i haccount
      simp [haccount]
    · rename_i haccount
      simp [haccount]
  refine h.release (releaseLock_clock ..) hmemory fun row hrow hlive => ?_
  simp only [inScope_account, Option.all_none, and_true]
  rfl

theorem LockStores.Sound.releaseScope {w : LockStores} (h : w.Sound) {accountId : UUID}
    {strategyId : Option UUID} {symbol side : Option String}
    (hpart : ¬ (strategyId = none ∧ symbol = none ∧ side = none))
    (hscope : ∀ row ∈ w.rows, row.liveIn w.memory.clock accountId strategyId symbol side →
      row.key = ⟨accountId, strategyId, symbol, side⟩) :
    ({ w with
      memory := w.memory.releaseLock accountId strategyId symbol side none
      rows := sqlRelease accountId strategyId symbol side none w.rows } : LockStores).Sound := by
  have hmemory : ∀ key lock,
      (w.memory.releaseLock accountId strategyId symbol side none).locks key = some lock ↔
        w.memory.locks key = some lock ∧ ¬ key = ⟨accountId, strategyId, symbol, side⟩ := by
    intro key lock
    simp only [Store.releaseLock, hpart, if_false, Store.setLock]
    by_cases hkey : key = ⟨accountId, strategyId, symbol, side⟩
    · rw [hkey, Function.update_self]
      simp
    · rw [Function.update_of_ne hkey]
      simp [hkey]
  refine h.release (releaseLock_clock ..) hmemory fun row hrow hlive => ?_
  simp only [Option.all_none, and_true]
  exact ⟨fun hin => hscope row hrow ⟨hin, hlive⟩, inScope_of_key⟩

theorem isLocked_answer (s : Store) (key : LockKey) :
    (s.isLocked key).1 = true ↔ ∃ lock, s.locks key = some lock ∧ s.clock < lock.expiresAt := by
  unfold Store.isLocked
  cases hlock : s.locks key with
  | none => simp
  | some lock =>
    by_cases hexpired : lock.expiresAt ≤ s.clock
    · simp [hexpired, not_lt.mpr hexpired]
    · simp [hexpired, not_le.mp hexpired]

theorem isLocked_live (s : Store) (key key' : LockKey) (lock : BlockingLock)
    (hlive : s.clock < lock.expiresAt) :
    (s.isLocked key).2.locks key' = some lock ↔ s.locks key' = some lock := by
  unfold Store.isLocked
  cases hlock : s.locks key with
  | none => rfl
  | some held =>
    by_cases hexpired : held.expiresAt ≤ s.clock
    · simp only [hexpired, if_true, Store.setLock]
      by_cases hkey : key' = key
      · subst hkey
        rw [Function.update_self, hlock]
        constructor
        · intro hnone
          cases hnone
        · intro hheld
          rw [Option.some.injEq] at hheld
          rw [hheld] at hexpired
          exact absurd hlive (not_lt.mpr hexpired)
      · rw [Function.update_of_ne hkey]
    · simp only [hexpired, if_false]

theorem isLocked_clock (s : Store) (key : LockKey) : (s.isLocked key).2.clock = s.clock := by
  obtain ⟨locks, hlocks⟩ := s.isLocked_frame key
  rw [hlocks]

theorem sqlIsBlocked_iff {now : Time} {accountId : UUID} {strategyId : Option UUID}
    {symbol side : Option String} {rows : List LockRow} :
    sqlIsBlocked now accountId strategyId symbol side rows = true ↔
      ∃ row ∈ rows, row.liveIn now accountId strategyId symbol side := by
  simp only [sqlIsBlocked, List.any_eq_true, decide_eq_true_eq, LockRow.liveIn]

theorem LockStores.Sound.ask {w : LockStores} (h : w.Sound) {accountId : UUID}
    {strategyId : Option UUID} {symbol side : Option String}
    (hscope : (∃ row ∈ w.rows, row.liveIn w.memory.clock accountId strategyId symbol side) →
      ∃ row ∈ w.rows, w.memory.clock < row.lock.expiresAt ∧
        row.key = ⟨accountId, strategyId, symbol, side⟩) :
    ({ memory := (w.memory.isLocked ⟨accountId, strategyId, symbol, side⟩).2
       rows := w.rows
       answers := w.answers ++ [((w.memory.isLocked ⟨accountId, strategyId, symbol, side⟩).1,
         sqlIsBlocked w.memory.clock accountId strategyId symbol side w.rows)] } :
        LockStores).Sound := by
  refine ⟨⟨fun answer hanswer => ?_, fun key lock hlive => ?_⟩, h.unique⟩
  · rcases List.mem_append.mp hanswer with hold | hnew
    · exact h.answers answer hold
    · rw [List.mem_singleton.mp hnew, Bool.eq_iff_iff, isLocked_answer, sqlIsBlocked_iff]
      constructor
      · rintro ⟨lock, hlock, hlive⟩
        obtain ⟨row, hrow, hkey, rfl⟩ := (h.locks _ lock hlive).mp hlock
        exact ⟨row, hrow, inScope_of_key hkey, hlive⟩
      · intro hrow
        obtain ⟨row, hrow, hlive, hkey⟩ := hscope hrow
        exact ⟨row.lock, (h.locks _ row.lock hlive).mpr ⟨row, hrow, hkey, rfl⟩, hlive⟩
  · simp only [isLocked_clock] at hlive
    rw [isLocked_live _ _ _ _ hlive]
    exact h.locks key lock hlive

theorem noLocks_sound (s : Store) : (noLocks s).Sound where
  answers := by simp [noLocks]
  locks := by simp [noLocks]
  unique := List.Pairwise.nil

theorem sound_step (w : LockStores) (e : LockEvent) (h : w.Sound) (hmeets : Coincides w e) :
    (lockStep w e).Sound := by
  obtain ⟨hclock, hscope⟩ := hmeets
  have hlater := h.later hclock
  obtain ⟨clock, call⟩ := e
  cases call with
  | acquireBlockingLock accountId strategyId symbol side reason lockedByRunId now ttlMinutes =>
    let new : LockRow := ⟨accountId, strategyId, symbol, side,
      ⟨reason, lockedByRunId, now + ttlMinutes * microsPerMinute⟩⟩
    exact @LockStores.Sound.acquire _ hlater new hscope
  | releaseBlockingLock accountId strategyId symbol side lockedByRunId =>
    cases lockedByRunId with
    | some runId => exact hlater.releaseRun hscope
    | none =>
      by_cases hall : strategyId = none ∧ symbol = none ∧ side = none
      · obtain ⟨rfl, rfl, rfl⟩ := hall
        exact hlater.releaseAccount accountId
      · exact hlater.releaseScope hall (hscope.resolve_left hall)
  | isBlocked accountId strategyId symbol side => exact hlater.ask hscope

/-- As long as the scopes coincide, both stores answer alike and hold the same locks. -/
theorem lockStores_agree (s : Store) (es : List LockEvent)
    (h : Runs.Meets lockStep Coincides (noLocks s) es) :
    (Runs.run lockStep (noLocks s) es).Agree :=
  (Runs.run_keeps lockStep sound_step (noLocks s) es (noLocks_sound s) h).toAgree

def emptyStore : Store where
  clock := 0
  nextId := 1
  orders := fun _ => none
  statusWrites := []
  orderStateEvents := []
  auditLogs := []
  brokerOrders := []
  submissionAttempts := []
  strategies := []
  runs := []
  locks := fun _ => none
  orderLinks := []
  brokerCalls := []
  restOutcomes := []

/-- A lock without a strategy, asked for with its symbol and side and released by its run. -/
def fullScopes : List LockEvent :=
  [⟨0, .acquireBlockingLock 2 none "005930" "buy" "reconciliation" 7 0 30⟩,
   ⟨1000, .isBlocked 2 none (some "005930") (some "buy")⟩,
   ⟨2000, .releaseBlockingLock 2 none none none (some 7)⟩,
   ⟨3000, .isBlocked 2 none (some "005930") (some "buy")⟩]

theorem fullScopes_agree :
    Runs.Meets lockStep Coincides (noLocks emptyStore) fullScopes ∧
      (Runs.run lockStep (noLocks emptyStore) fullScopes).Agree := by
  have hmeets : Runs.Meets lockStep Coincides (noLocks emptyStore) fullScopes := by decide +kernel
  exact ⟨hmeets, lockStores_agree emptyStore fullScopes hmeets⟩

/-- The same lock, asked for by its account alone. -/
def accountScope : List LockEvent :=
  [⟨0, .acquireBlockingLock 2 none "005930" "buy" "reconciliation" 7 0 30⟩,
   ⟨1000, .isBlocked 2 none none none⟩]

/-- The statement finds the lock, and the store in memory does not. -/
theorem accountScope_differ :
    (Runs.run lockStep (noLocks emptyStore) accountScope).answers = [(false, true)] ∧
      ¬ (Runs.run lockStep (noLocks emptyStore) accountScope).Agree := by
  have hanswers : (Runs.run lockStep (noLocks emptyStore) accountScope).answers =
      [(false, true)] := by
    decide +kernel
  refine ⟨hanswers, fun hagree => ?_⟩
  have hsame := hagree.answers (false, true) (by rw [hanswers]; exact List.mem_singleton_self _)
  cases hsame

end AgentTrading.Reconciliation
