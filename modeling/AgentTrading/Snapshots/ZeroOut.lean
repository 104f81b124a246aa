import AgentTrading.Snapshots.AccountSync

/-! When a quantity of zero is written. Both ways of synchronising take an instrument that no
snapshot was made of for one that is no longer held. -/
namespace AgentTrading.Snapshots
open Domain Kis

/-- The row bears the instrument's symbol. -/
def Carries (w : SyncWorld) (row : PositionRow) (instrumentId : UUID) : Prop :=
  ∃ instrument ∈ w.instruments, instrument.instrumentId = instrumentId ∧
    row.pdno.getD "" = instrument.symbol

/-- The positions were requested and fetched to the last page, and the instrument is not among
them. -/
structure Unheld (w : SyncWorld) (requested : Bool) (instrumentId : UUID) : Prop where
  requested : requested = true
  fetched : ∃ reply, w.source.reply = some reply ∧ reply.complete = true ∧
    ∀ row ∈ reply.positions, ¬ Carries w row instrumentId

/-- Zero is written for such instruments only. -/
def OnlyUnheldZeroed (w : SyncWorld) (requested : Bool) (p : SyncProgress) : Prop :=
  ∀ snap ∈ p.written, snap.quantity = .finite 0 → Unheld w requested snap.instrumentId

/-! What a call does, told from what it meets. -/

namespace SyncWorld

variable (w : SyncWorld)

def rows (requested : Bool) : List PositionRow :=
  if requested then (w.source.reply.map (·.positions)).getD [] else []

def cash : Bool := (w.source.reply.map (·.cash)).getD false

/-- The instrument that the lookup for the `i`-th row finds. -/
def finds (i : Nat) (row : PositionRow) : Option InstrumentEntity :=
  if row.pdno.getD "" = "" then none
  else if w.lookupFails i then none
  else getBySymbolAnyMarket w.instruments (row.pdno.getD "")

/-- The rows with an instrument. -/
def foundRows (requested : Bool) : List (PositionRow × InstrumentEntity) :=
  (w.rows requested).zipIdx.filterMap fun row => (w.finds row.2 row.1).map (row.1, ·)

/-- The snapshots made of the rows. -/
def resolved (requested : Bool) : List PositionSnapshotEntity :=
  (readRows w 0 (w.rows requested)).1

/-- Those that can be stored, the first being the call's `n`-th. -/
def storable {α : Type} (n : Nat) (snaps : List α) : List α :=
  ((snaps.zipIdx n).filter fun snap => (w.addFails snap.2).isNone).map (·.1)

/-- Those before the first that cannot be stored. -/
def reached (n : Nat) (snaps : List PositionSnapshotEntity) : List PositionSnapshotEntity :=
  ((snaps.zipIdx n).takeWhile fun snap => (w.addFails snap.2).isNone).map (·.1)

end SyncWorld

/-- The latest snapshots above or below zero whose instrument is not among the current ones. -/
def missing (current : List UUID) (latest : List PositionSnapshotEntity) :
    List PositionSnapshotEntity :=
  (latest.takeWhile (·.quantity ≠ .snan)).filter fun snap =>
    snap.quantity ≠ .finite 0 ∧ snap.instrumentId ∉ current

/-- The snapshots whose instruments are taken for sold. -/
def SyncWorld.swept (w : SyncWorld) (runId : Option UUID)
    (positions : List PositionSnapshotEntity) (current : List UUID) :
    List PositionSnapshotEntity :=
  match w.listLatest (w.stored ++ w.storable 0 (positions.map (stamped runId))) with
  | .error _ => []
  | .ok latest => w.reached positions.length (missing current latest)

/-- The provider's answer is worked on: something came, and the risk limit was made. -/
def Proceeds (w : SyncWorld) (flags : SyncFlags) : Prop :=
  (w.cash = true ∨ w.rows flags.provided ≠ [] ∨ ∃ e, w.source.budget = .error e) ∧
    (w.cash = true → ∃ made, w.riskLimit = .ok made)

/-- The part of the listed snapshots that the loop comes to: it ends at a signalling NaN, and
where zero cannot be stored for an instrument that no row accounts for. -/
def SyncWorld.visited (w : SyncWorld) (accounted : List UUID) :
    Nat → List PositionSnapshotEntity → List PositionSnapshotEntity
  | _, [] => []
  | n, snap :: rest =>
    if snap.quantity = .snan then []
    else if snap.quantity = .finite 0 ∨ snap.instrumentId ∈ accounted then
      snap :: w.visited accounted n rest
    else if (w.addFails n).isSome then []
    else snap :: w.visited accounted (n + 1) rest

/-- `list_latest_by_account`, asked when the rows are stored; what the loop comes to of it. -/
def SyncWorld.listed (w : SyncWorld) (requested : Bool) (runId : Option UUID)
    (accounted : List UUID) : List PositionSnapshotEntity :=
  match w.listLatest (w.stored ++ (w.storable 0 (w.foundRows requested)).map fun row =>
      stamped runId (positionOf w row.1 row.2)) with
  | .error _ => []
  | .ok latest => w.visited accounted (w.foundRows requested).length latest

/-- Every instrument listed above or below zero is accounted for; or else the positions were
requested and read to the last page, and every listed one with the symbol of a row is. -/
def Accounted (w : SyncWorld) (requested : Bool) (runId : Option UUID) (accounted : List UUID) :
    Prop :=
  (∀ snap ∈ w.listed requested runId accounted, snap.quantity ≠ .finite 0 →
    snap.instrumentId ∈ accounted) ∨
  requested = true ∧ ∃ reply, w.source.reply = some reply ∧ reply.complete = true ∧
    ∀ snap ∈ w.listed requested runId accounted, snap.quantity ≠ .finite 0 →
      (∃ row ∈ reply.positions, Carries w row snap.instrumentId) → snap.instrumentId ∈ accounted

/-- No row that is stored under an instrument reports zero. -/
def ReportsHeld (w : SyncWorld) (requested : Bool) : Prop :=
  ∀ row ∈ w.storable 0 (w.foundRows requested), safeDecimal row.1.hldgQty ≠ .finite 0

/-- Here the stored rows account for their instruments. -/
def ProviderSafe (w : SyncWorld) (flags : SyncFlags) (runId : Option UUID) : Prop :=
  Proceeds w flags → ReportsHeld w flags.provided ∧
    (flags.afterHours = false → Accounted w flags.provided runId
      ((w.storable 0 (w.foundRows flags.provided)).map (·.2.instrumentId)))

/-- Here all rows with an instrument do, stored or not. -/
def DirectSafe (w : SyncWorld) (flags : SyncFlags) (runId : Option UUID) : Prop :=
  ReportsHeld w flags.direct ∧
    (w.foundRows flags.direct ≠ [] ∨ w.cash = true →
      Accounted w flags.direct runId ((w.foundRows flags.direct).map (·.2.instrumentId)))

section
variable {w : SyncWorld}

theorem add_fails {p : SyncProgress} {e : PyError} (h : w.addFails p.adds = some e)
    (snap : PositionSnapshotEntity) :
    p.add w snap = (some e, { p with adds := p.adds + 1 }) := by
  simp only [SyncProgress.add, h]

theorem add_stores {p : SyncProgress} (h : w.addFails p.adds = none)
    (snap : PositionSnapshotEntity) :
    p.add w snap = (none, ⟨p.written ++ [snap], p.adds + 1⟩) := by
  simp only [SyncProgress.add, h]

theorem persist_eq (positions : List PositionSnapshotEntity) :
    persist w positions = ⟨w.storable 0 positions, positions.length⟩ := by
  have hloop : ∀ p : SyncProgress,
      positions.foldl (fun p position => (p.add w position).2) p =
        ⟨p.written ++ w.storable p.adds positions, p.adds + positions.length⟩ := by
    induction positions with
    | nil => simp [SyncWorld.storable]
    | cons position positions ih =>
      intro p
      rw [List.foldl_cons, ih]
      cases hadd : w.addFails p.adds with
      | some e =>
        rw [add_fails hadd]
        simp [SyncWorld.storable, List.zipIdx_cons, hadd, Nat.add_assoc, Nat.add_comm 1]
      | none =>
        rw [add_stores hadd]
        simp [SyncWorld.storable, List.zipIdx_cons, hadd, Nat.add_assoc, Nat.add_comm 1]
  rw [persist, hloop]
  simp

theorem storable_map {α β : Type} (f : α → β) (n : Nat) (snaps : List α) :
    w.storable n (snaps.map f) = (w.storable n snaps).map f := by
  induction snaps generalizing n with
  | nil => rfl
  | cons snap snaps ih =>
    simp only [SyncWorld.storable] at ih
    simp only [SyncWorld.storable, List.map_cons, List.zipIdx_cons, List.filter_cons]
    cases hadd : (w.addFails n).isNone with
    | true => simp [ih]
    | false => simp [ih]

theorem reached_fails {n : Nat} {e : PyError} (h : w.addFails n = some e)
    (snap : PositionSnapshotEntity) (snaps : List PositionSnapshotEntity) :
    w.reached n (snap :: snaps) = [] := by
  simp [SyncWorld.reached, List.zipIdx_cons, h]

theorem reached_stores {n : Nat} (h : w.addFails n = none) (snap : PositionSnapshotEntity)
    (snaps : List PositionSnapshotEntity) :
    w.reached n (snap :: snaps) = snap :: w.reached (n + 1) snaps := by
  simp [SyncWorld.reached, List.zipIdx_cons, h]

theorem missing_snan {snap : PositionSnapshotEntity} (h : snap.quantity = .snan)
    (current : List UUID) (latest : List PositionSnapshotEntity) :
    missing current (snap :: latest) = [] := by
  simp [missing, h]

theorem missing_cons {snap : PositionSnapshotEntity} (h : snap.quantity ≠ .snan)
    (current : List UUID) (latest : List PositionSnapshotEntity) :
    missing current (snap :: latest) =
      if snap.quantity ≠ .finite 0 ∧ snap.instrumentId ∉ current then
        snap :: missing current latest
      else missing current latest := by
  simp [missing, h, List.filter_cons]

theorem equalsZero_eq {quantity : Dec} (h : quantity ≠ .snan) :
    equalsZero quantity = .ok (decide (quantity = .finite 0)) := by
  cases quantity with
  | finite v => simp [equalsZero]
  | infinity negative => simp [equalsZero]
  | nan => simp [equalsZero]
  | snan => exact absurd rfl h

theorem zeroOut_written (mark : ZeroMark) (runId : Option UUID) (current : List UUID)
    (latest : List PositionSnapshotEntity) (p : SyncProgress) :
    (zeroOut w mark runId current latest p).written =
      p.written ++ (w.reached p.adds (missing current latest)).map (zeroed w mark runId) := by
  induction latest generalizing p with
  | nil => simp [zeroOut, missing, SyncWorld.reached]
  | cons snap latest ih =>
    rw [zeroOut]
    by_cases hsnan : snap.quantity = .snan
    · rw [missing_snan hsnan, hsnan]
      simp [equalsZero, SyncWorld.reached]
    rw [equalsZero_eq hsnan, missing_cons hsnan]
    by_cases hzero : snap.quantity = .finite 0
    · simp [hzero, ih]
    by_cases hcurrent : snap.instrumentId ∈ current
    · simp [hzero, hcurrent, ih]
    simp only [hzero, decide_false, hcurrent, if_false, ne_eq, not_false_eq_true, and_self, if_true]
    cases hadd : w.addFails p.adds with
    | some e =>
      rw [add_fails hadd, reached_fails hadd]
      simp
    | none =>
      rw [add_stores hadd, reached_stores hadd]
      simp [ih]

end

section
variable {w : SyncWorld}

theorem getBySymbolAnyMarket_symbol {instruments : List InstrumentEntity} {symbol : String}
    {instrument : InstrumentEntity}
    (h : getBySymbolAnyMarket instruments symbol = some instrument) :
    instrument ∈ instruments ∧ instrument.symbol = symbol := by
  have hmem := (List.mem_insertionSort _).mp (List.mem_of_head? h)
  obtain ⟨hstored, hsymbol⟩ := List.mem_filter.mp hmem
  exact ⟨hstored, of_decide_eq_true hsymbol⟩

theorem readRows_carries (i : Nat) (rows : List PositionRow) :
    ∀ snap ∈ (readRows w i rows).1, ∃ row ∈ rows, Carries w row snap.instrumentId := by
  induction rows generalizing i with
  | nil => simp [readRows]
  | cons row rows ih =>
    have hlater : ∀ snap ∈ (readRows w (i + 1) rows).1,
        ∃ other ∈ row :: rows, Carries w other snap.instrumentId := by
      intro snap hsnap
      obtain ⟨other, hother, hcarries⟩ := ih (i + 1) snap hsnap
      exact ⟨other, List.mem_cons_of_mem _ hother, hcarries⟩
    rw [readRows]
    simp only
    split
    · exact hlater
    split
    · exact hlater
    next instrument hfound =>
      intro snap hsnap
      rcases List.mem_cons.mp hsnap with rfl | hsnap
      · split at hfound
        · cases hfound
        · obtain ⟨hstored, hsymbol⟩ := getBySymbolAnyMarket_symbol hfound
          exact ⟨row, List.mem_cons_self, instrument, hstored, rfl, hsymbol.symm⟩
      · exact hlater snap hsnap

theorem readRows_empty (i : Nat) (rows : List PositionRow) :
    ((readRows w i rows).1 = [] ∧ (readRows w i rows).2 = []) ↔ rows = [] := by
  cases rows with
  | nil => simp [readRows]
  | cons row rows =>
    rw [readRows]
    simp only
    split
    · simp
    split
    · simp
    · simp

theorem readRows_eq (i : Nat) (rows : List PositionRow) :
    (readRows w i rows).1 =
      ((rows.zipIdx i).filterMap fun row => (w.finds row.2 row.1).map (row.1, ·)).map
        fun row => positionOf w row.1 row.2 := by
  induction rows generalizing i with
  | nil => rfl
  | cons row rows ih =>
    rw [readRows, List.zipIdx_cons, List.filterMap_cons]
    simp only [SyncWorld.finds]
    by_cases hempty : row.pdno.getD "" = ""
    · simp [hempty, ih, SyncWorld.finds]
    · rw [if_neg hempty, if_neg hempty]
      cases (if w.lookupFails i = true then none
        else getBySymbolAnyMarket w.instruments (row.pdno.getD "")) with
      | none => exact ih (i + 1)
      | some instrument => simp [ih, SyncWorld.finds]

theorem resolved_eq (requested : Bool) :
    w.resolved requested =
      (w.foundRows requested).map fun row => positionOf w row.1 row.2 :=
  readRows_eq 0 (w.rows requested)

/-- What is taken for sold: the listed snapshots that the loop comes to, are not zero, and are
accounted for by no row. -/
theorem mem_reached_missing (current : List UUID) (n : Nat)
    (latest : List PositionSnapshotEntity) (snap : PositionSnapshotEntity) :
    snap ∈ w.reached n (missing current latest) ↔
      snap ∈ w.visited current n latest ∧ snap.quantity ≠ .finite 0 ∧
        snap.instrumentId ∉ current := by
  induction latest generalizing n with
  | nil => simp [missing, SyncWorld.reached, SyncWorld.visited]
  | cons first latest ih =>
    rw [SyncWorld.visited]
    by_cases hsnan : first.quantity = .snan
    · rw [missing_snan hsnan, if_pos hsnan]
      simp [SyncWorld.reached]
    rw [missing_cons hsnan, if_neg hsnan]
    by_cases hkept : first.quantity = .finite 0 ∨ first.instrumentId ∈ current
    · have hnot : ¬ (first.quantity ≠ .finite 0 ∧ first.instrumentId ∉ current) := by tauto
      rw [if_neg hnot, if_pos hkept, ih, List.mem_cons]
      constructor
      · rintro ⟨hmem, hrest⟩
        exact ⟨.inr hmem, hrest⟩
      · rintro ⟨rfl | hmem, hrest⟩
        · exact absurd hrest hnot
        · exact ⟨hmem, hrest⟩
    · have hsold : first.quantity ≠ .finite 0 ∧ first.instrumentId ∉ current := by tauto
      rw [if_pos hsold, if_neg hkept]
      cases hadd : w.addFails n with
      | some e =>
        rw [reached_fails hadd]
        simp
      | none =>
        rw [reached_stores hadd, List.mem_cons, ih]
        simp only [Option.isSome_none, Bool.false_eq_true, if_false, List.mem_cons]
        constructor
        · rintro (rfl | ⟨hmem, hrest⟩)
          · exact ⟨.inl rfl, hsold⟩
          · exact ⟨.inr hmem, hrest⟩
        · rintro ⟨rfl | hmem, hrest⟩
          · exact .inl rfl
          · exact .inr ⟨hmem, hrest⟩

theorem mem_swept (requested : Bool) (runId : Option UUID) (current : List UUID)
    (snap : PositionSnapshotEntity) :
    snap ∈ w.swept runId (w.resolved requested) current ↔
      snap ∈ w.listed requested runId current ∧ snap.quantity ≠ .finite 0 ∧
        snap.instrumentId ∉ current := by
  unfold SyncWorld.swept SyncWorld.listed
  rw [resolved_eq, List.map_map, storable_map, List.length_map]
  simp only [Function.comp_def]
  cases w.listLatest (w.stored ++ (w.storable 0 (w.foundRows requested)).map fun row =>
      stamped runId (positionOf w row.1 row.2)) with
  | error e => simp
  | ok latest => exact mem_reached_missing current _ latest snap

theorem unheld_swept_iff (requested : Bool) (runId : Option UUID) (current : List UUID) :
    (∀ snap ∈ w.swept runId (w.resolved requested) current,
        Unheld w requested snap.instrumentId) ↔ Accounted w requested runId current := by
  simp only [mem_swept]
  constructor
  · intro h
    by_cases hall : ∀ snap ∈ w.listed requested runId current, snap.quantity ≠ .finite 0 →
        snap.instrumentId ∈ current
    · exact .inl hall
    · -- one that is taken for sold shows that the fetch succeeded
      simp only [not_forall] at hall
      obtain ⟨snap, hsnap, hnonzero, hcurrent⟩ := hall
      obtain ⟨hrequested, reply, hreply, hcomplete, -⟩ := h snap ⟨hsnap, hnonzero, hcurrent⟩
      refine .inr ⟨hrequested, reply, hreply, hcomplete, ?_⟩
      rintro other hother hnonzero' ⟨row, hrow, hcarries⟩
      by_contra hout
      obtain ⟨-, reply', hreply', -, hnone⟩ := h other ⟨hother, hnonzero', hout⟩
      rw [hreply, Option.some.injEq] at hreply'
      subst hreply'
      exact hnone row hrow hcarries
  · rintro (hall | ⟨hrequested, reply, hreply, hcomplete, hborne⟩) snap ⟨hsnap, hnonzero, hcurrent⟩
    · exact absurd (hall snap hsnap hnonzero) hcurrent
    · refine ⟨hrequested, reply, hreply, hcomplete, fun row hrow hcarries => ?_⟩
      exact hcurrent (hborne snap hsnap hnonzero ⟨row, hrow, hcarries⟩)

theorem reportsHeld_iff (requested : Bool) :
    (∀ snap ∈ w.storable 0 (w.resolved requested), snap.quantity ≠ .finite 0) ↔
      ReportsHeld w requested := by
  rw [resolved_eq, storable_map]
  simp only [List.forall_mem_map]
  exact Iff.rfl

theorem storable_subset (n : Nat) (snaps : List PositionSnapshotEntity) :
    w.storable n snaps ⊆ snaps := by
  intro snap hsnap
  obtain ⟨⟨other, i⟩, hmem, rfl⟩ := List.mem_map.mp hsnap
  exact List.fst_mem_of_mem_zipIdx (List.mem_filter.mp hmem).1

@[simp] theorem stamped_quantity (runId : Option UUID) (snap : PositionSnapshotEntity) :
    (stamped runId snap).quantity = snap.quantity := by
  cases runId <;> rfl

@[simp] theorem stamped_instrumentId (runId : Option UUID) (snap : PositionSnapshotEntity) :
    (stamped runId snap).instrumentId = snap.instrumentId := by
  cases runId <;> rfl

/-- A snapshot of zero made of a row is one too many, and each instrument taken for sold must
be one that is no longer held. -/
theorem onlyUnheldZeroed_iff {requested : Bool} {runId : Option UUID} {mark : ZeroMark}
    {swept : List PositionSnapshotEntity} {p : SyncProgress}
    (hwritten : p.written = w.storable 0 ((w.resolved requested).map (stamped runId)) ++
      swept.map (zeroed w mark runId)) :
    OnlyUnheldZeroed w requested p ↔
      (∀ snap ∈ w.storable 0 (w.resolved requested), snap.quantity ≠ .finite 0) ∧
        ∀ snap ∈ swept, Unheld w requested snap.instrumentId := by
  have hcarried : ∀ snap ∈ w.resolved requested, ¬ Unheld w requested snap.instrumentId := by
    intro snap hsnap hunheld
    obtain ⟨hrequested, reply, hreply, -, hnone⟩ := hunheld
    obtain ⟨row, hrow, hcarries⟩ := readRows_carries 0 (w.rows requested) snap hsnap
    rw [SyncWorld.rows, if_pos hrequested, hreply] at hrow
    exact hnone row hrow hcarries
  rw [storable_map] at hwritten
  constructor
  · intro h
    constructor
    · intro snap hsnap hzero
      apply hcarried snap (storable_subset 0 _ hsnap)
      have hmem : stamped runId snap ∈ p.written := by
        rw [hwritten]
        exact List.mem_append_left _ (List.mem_map_of_mem hsnap)
      simpa using h (stamped runId snap) hmem (by simpa using hzero)
    · intro snap hsnap
      have hmem : zeroed w mark runId snap ∈ p.written := by
        rw [hwritten]
        exact List.mem_append_right _ (List.mem_map_of_mem hsnap)
      exact h (zeroed w mark runId snap) hmem rfl
  · rintro ⟨hrows, hswept⟩ snap hsnap hzero
    rw [hwritten] at hsnap
    rcases List.mem_append.mp hsnap with hsnap | hsnap
    · obtain ⟨position, hposition, rfl⟩ := List.mem_map.mp hsnap
      rw [stamped_quantity] at hzero
      exact (hrows position hposition hzero).elim
    · obtain ⟨held, hheld, rfl⟩ := List.mem_map.mp hsnap
      exact hswept held hheld

theorem reply_raised {e : PyError} (h : w.source.budget = .error e) :
    w.source.getCashAndPositions = .error e ∧ w.source.reply = none := by
  simp [BalanceSource.getCashAndPositions, BalanceSource.reply, h]

theorem reply_found {enough : Bool} (h : w.source.budget = .ok enough) :
    w.source.getCashAndPositions =
      .ok ⟨w.cash, (w.source.reply.map (·.positions)).getD []⟩ := by
  simp only [BalanceSource.getCashAndPositions, h, SyncWorld.cash]
  cases w.source.reply <;> rfl

theorem provided_rows (flags : SyncFlags) {enough : Bool} (h : w.source.budget = .ok enough) :
    fetchSnapshot w flags =
      match if w.cash then w.riskLimit else .ok false with
      | .error e => .error e
      | .ok riskLimit => .ok {
          positions := w.resolved flags.provided
          cashBalance := w.cash
          riskLimitSnapshot := riskLimit
          errors := (readRows w 0 (w.rows flags.provided)).2
          fetchSuccess := w.cash ∨ w.resolved flags.provided ≠ [] } := by
  unfold fetchSnapshot
  rw [reply_found h]
  simp only [SyncWorld.resolved, SyncWorld.rows]
  cases flags.provided <;> rfl

theorem sweep_written (mark : ZeroMark) (runId : Option UUID)
    (positions : List PositionSnapshotEntity) (current : List UUID) :
    (zeroOutMissing w mark runId current
        (persist w (positions.map (stamped runId)))).written =
      w.storable 0 (positions.map (stamped runId)) ++
        (w.swept runId positions current).map (zeroed w mark runId) := by
  rw [persist_eq, zeroOutMissing, SyncWorld.swept]
  cases w.listLatest (w.stored ++ w.storable 0 (positions.map (stamped runId))) with
  | error e => simp
  | ok latest => simp [zeroOut_written]

theorem direct_iff (flags : SyncFlags) (runId : Option UUID) :
    OnlyUnheldZeroed w flags.direct (syncKisAccountSnapshots w flags runId) ↔
      DirectSafe w flags runId := by
  have hdirect : syncKisAccountSnapshots w flags runId =
      if w.resolved flags.direct ≠ [] ∨ w.cash = true then
        zeroOutMissing w directMark runId ((w.resolved flags.direct).map (·.instrumentId))
          (persist w ((w.resolved flags.direct).map (stamped runId)))
      else persist w ((w.resolved flags.direct).map (stamped runId)) := by
    unfold syncKisAccountSnapshots SyncWorld.resolved SyncWorld.rows
    cases hbudget : w.source.budget with
    | error e =>
      obtain ⟨hraised, hnone⟩ := reply_raised hbudget
      simp [SyncWorld.cash, hraised, hnone]
    | ok enough =>
      rw [reply_found hbudget]
  have hids : (w.resolved flags.direct).map (·.instrumentId) =
      (w.foundRows flags.direct).map (·.2.instrumentId) := by
    rw [resolved_eq, List.map_map]
    rfl
  have hsome : w.resolved flags.direct ≠ [] ↔ w.foundRows flags.direct ≠ [] := by
    rw [resolved_eq, ne_eq, List.map_eq_nil_iff]
  rw [hdirect, DirectSafe, hids]
  by_cases hgate : w.resolved flags.direct ≠ [] ∨ w.cash = true
  · rw [if_pos hgate, onlyUnheldZeroed_iff (sweep_written directMark runId _ _), reportsHeld_iff,
      unheld_swept_iff]
    rw [hsome] at hgate
    exact and_congr_right fun _ => (imp_iff_right hgate).symm
  · rw [if_neg hgate]
    have hnone : (persist w ((w.resolved flags.direct).map (stamped runId))).written =
        w.storable 0 ((w.resolved flags.direct).map (stamped runId)) ++
          ([] : List PositionSnapshotEntity).map (zeroed w directMark runId) := by
      simp [persist_eq]
    rw [onlyUnheldZeroed_iff hnone, reportsHeld_iff]
    rw [hsome] at hgate
    exact and_congr_right fun _ =>
      ⟨fun _ h => absurd h hgate, fun _ _ hnil => absurd hnil List.not_mem_nil⟩

theorem persist_instruments (runId : Option UUID) (positions : List PositionSnapshotEntity) :
    (persist w (positions.map (stamped runId))).written.map (·.instrumentId) =
      (w.storable 0 positions).map (·.instrumentId) := by
  rw [persist_eq, storable_map, List.map_map]
  simp [Function.comp_def]

/-- What is left of the call once the answer is worked on. -/
def worked (w : SyncWorld) (afterHours : Bool) (runId : Option UUID)
    (positions : List PositionSnapshotEntity) : SyncProgress :=
  let p := persist w (positions.map (stamped runId))
  if afterHours then p else zeroOutMissing w providerMark runId (p.written.map (·.instrumentId)) p

theorem worked_written (afterHours : Bool) (runId : Option UUID)
    (positions : List PositionSnapshotEntity) :
    (worked w afterHours runId positions).written =
      w.storable 0 (positions.map (stamped runId)) ++
        (if afterHours then []
          else w.swept runId positions
            ((w.storable 0 positions).map (·.instrumentId))).map (zeroed w providerMark runId) := by
  unfold worked
  cases afterHours with
  | true => simp [persist_eq]
  | false =>
    simp only [persist_instruments, Bool.false_eq_true, if_false]
    exact sweep_written providerMark runId positions _

theorem provider_worked (flags : SyncFlags) (runId : Option UUID) :
    (Proceeds w flags → syncAccountSnapshots w flags runId =
      worked w flags.afterHours runId (w.resolved flags.provided)) ∧
      (¬ Proceeds w flags → syncAccountSnapshots w flags runId = {}) := by
  unfold syncAccountSnapshots
  cases hbudget : w.source.budget with
  | error e =>
    obtain ⟨hraised, hnone⟩ := reply_raised hbudget
    have hcash : w.cash = false := by simp [SyncWorld.cash, hnone]
    have hresolved : w.resolved flags.provided = [] := by
      simp [SyncWorld.resolved, SyncWorld.rows, hnone, readRows]
    have hproceeds : Proceeds w flags := by simp [Proceeds, hcash, hbudget]
    have hfetched : ∃ errors, errors ≠ [] ∧
        fetchSnapshot w flags = .ok ⟨[], false, false, errors, false⟩ := by
      unfold fetchSnapshot
      rw [hraised]
      cases flags.provided with
      | true => exact ⟨[.fetchFailed e, .noResult], by simp, by simp [readRows]⟩
      | false => exact ⟨[.fetchFailed e], by simp, by simp [readRows]⟩
    obtain ⟨errors, herrors, hfetched⟩ := hfetched
    rw [hfetched, hresolved]
    simp [herrors, hproceeds, worked]
  | ok enough =>
    rw [provided_rows flags hbudget]
    have hbudget' : ¬ ∃ e, w.source.budget = .error e := by simp [hbudget]
    cases hcash : w.cash with
    | true =>
      cases hrisk : w.riskLimit with
      | error e => simp [Proceeds, hcash, hrisk]
      | ok riskLimit => simp [Proceeds, hcash, hrisk, worked]
    | false =>
      have hempty := readRows_empty (w := w) 0 (w.rows flags.provided)
      by_cases hrows : w.rows flags.provided = []
      · simp [Proceeds, hcash, hbudget', hrows, SyncWorld.resolved, readRows]
      · have hproceeds : Proceeds w flags := by simp [Proceeds, hcash, hrows]
        have hsome : ¬ (w.resolved flags.provided = [] ∧
            (readRows w 0 (w.rows flags.provided)).2 = []) := fun h => hrows (hempty.mp h)
        simp only [hproceeds, worked, forall_const, not_true_eq_false, false_implies, and_true,
          Bool.false_eq_true, if_false, false_or, decide_eq_true_eq, not_not, not_false_eq_true]
        rw [if_neg fun h => hsome h]

theorem provider_iff (flags : SyncFlags) (runId : Option UUID) :
    OnlyUnheldZeroed w flags.provided (syncAccountSnapshots w flags runId) ↔
      ProviderSafe w flags runId := by
  obtain ⟨hproceeds, hstops⟩ := provider_worked (w := w) flags runId
  have hids : (w.storable 0 (w.resolved flags.provided)).map (·.instrumentId) =
      (w.storable 0 (w.foundRows flags.provided)).map (·.2.instrumentId) := by
    rw [resolved_eq, storable_map, List.map_map]
    rfl
  by_cases hgate : Proceeds w flags
  · rw [hproceeds hgate, onlyUnheldZeroed_iff (worked_written flags.afterHours runId _),
      reportsHeld_iff, hids, ProviderSafe, imp_iff_right hgate]
    cases flags.afterHours with
    | true => simp
    | false => simp [← unheld_swept_iff]
  · simp [OnlyUnheldZeroed, ProviderSafe, hstops hgate, hgate]

end

/-- Either way writes zero for nothing but instruments that were asked for, fetched and not
found, if and only if no stored row reports zero and the rows account for what is listed. -/
theorem zeroed_unheld_iff (w : SyncWorld) (flags : SyncFlags) (runId : Option UUID) :
    (OnlyUnheldZeroed w flags.provided (syncAccountSnapshots w flags runId) ↔
        ProviderSafe w flags runId) ∧
      (OnlyUnheldZeroed w flags.direct (syncKisAccountSnapshots w flags runId) ↔
        DirectSafe w flags runId) :=
  ⟨provider_iff flags runId, direct_iff flags runId⟩

def tenHeld : PositionSnapshotEntity where
  accountId := 1
  instrumentId := 1
  quantity := .finite 10
  averagePrice := .finite 70000
  marketPrice := none
  unrealizedPnl := none
  sourceOfTruth := "broker"
  snapshotAt := 0

/-- Ten shares are held before and after, and the cash balance comes with them. -/
def stillHeld : SyncWorld where
  accountId := 1
  now := 100
  source := {
    paper := false
    budget := .ok true
    page := fun _ _ =>
      .ok { output := [{ pdno := some "005930", hldgQty := some "10" }], output2 := true } }
  instruments :=
    [{ instrumentId := 1, symbol := "005930", exchangeCode := "KRX", marketCode := "KRX" }]
  stored := [tenHeld]
  lookupFails := fun _ => false
  addFails := fun _ => none
  listLatest := .ok
  riskLimit := .ok true

def cashOnly : SyncFlags where
  fetchPositions := false

/-- A call that asks for the cash alone writes zero for the ten shares, either way. -/
theorem cashOnly_zeroes :
    ¬ OnlyUnheldZeroed stillHeld cashOnly.provided
        (syncAccountSnapshots stillHeld cashOnly none) ∧
      ¬ OnlyUnheldZeroed stillHeld cashOnly.direct
        (syncKisAccountSnapshots stillHeld cashOnly none) := by
  constructor
  · intro h
    have hmem : zeroed stillHeld providerMark none tenHeld ∈
        (syncAccountSnapshots stillHeld cashOnly none).written := by decide +kernel
    have hunheld := h (zeroed stillHeld providerMark none tenHeld) hmem rfl
    exact absurd hunheld.requested (by decide)
  · intro h
    have hmem : zeroed stillHeld directMark none tenHeld ∈
        (syncKisAccountSnapshots stillHeld cashOnly none).written := by decide +kernel
    have hunheld := h (zeroed stillHeld directMark none tenHeld) hmem rfl
    exact absurd hunheld.requested (by decide)

end AgentTrading.Snapshots
