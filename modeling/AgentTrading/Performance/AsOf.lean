import AgentTrading.Performance.Summary
import AgentTrading.RealizedPnl.Conservation

/-! Which snapshots a day of the history uses. The repository method it reads positions from
keeps only the latest snapshot of an instrument when the tables are in the database. -/
namespace AgentTrading.Performance
open Domain RealizedPnl Library.Latest

/-- The snapshots `get_daily_history` uses for `day`. -/
def dayPositions (b : Books) (accountId : UUID) (day : Int) : List PositionSnapshotEntity :=
  latestPositionsOnOrBefore (b.listLatestByAccount accountId) day

def dayCash (b : Books) (accountId : UUID) (day : Int) : Option CashBalanceSnapshotEntity :=
  latestCashOnOrBefore (b.listCashByAccount accountId) day

/-- One snapshot an instrument, its latest on or before the day, and the latest cash. -/
structure UsesLatest (b : Books) (accountId : UUID) (day : Int) : Prop where
  once : ((dayPositions b accountId day).map (·.instrumentId)).Nodup
  position : ∀ instrumentId, IsLatest (·.snapshotAt)
    (fun s => s.instrumentId = instrumentId ∧ dayOf s.snapshotAt ≤ day)
    (b.positionsOf accountId)
    ((dayPositions b accountId day).find? (·.instrumentId = instrumentId))
  cash : IsLatest (·.snapshotAt) (fun s => dayOf s.snapshotAt ≤ day) (b.cashOf accountId)
    (dayCash b accountId day)

/-- The snapshots of an instrument are all on or before the day, or all after it. -/
def Unsplit (b : Books) (accountId : UUID) (day : Int) : Prop :=
  ∀ s ∈ b.positionsOf accountId, ∀ s' ∈ b.positionsOf accountId,
    s.instrumentId = s'.instrumentId → dayOf s.snapshotAt ≤ day → dayOf s'.snapshotAt ≤ day

variable {b : Books} {accountId instrumentId : UUID} {day : Int}

/-! The selection of a day is a filter, then the first row of each instrument. -/

theorem latestPositionsOnOrBefore_eq (positions : List PositionSnapshotEntity) (day : Int) :
    latestPositionsOnOrBefore positions day =
      firsts (·.instrumentId) (positions.filter fun s => dayOf s.snapshotAt ≤ day) := by
  unfold latestPositionsOnOrBefore firsts
  rw [List.foldl_filter]
  congr 1
  funext selected pos
  by_cases hday : dayOf pos.snapshotAt ≤ day
  · simp only [hday, true_and, decide_true, if_true, keepFirst]
  · simp only [hday, false_and, decide_false, if_false, Bool.false_eq_true]

theorem find?_dayPositions : (dayPositions b accountId day).find? (·.instrumentId = instrumentId) =
    (b.listLatestByAccount accountId).find? fun s =>
      s.instrumentId = instrumentId ∧ dayOf s.snapshotAt ≤ day := by
  unfold dayPositions
  rw [latestPositionsOnOrBefore_eq, find?_firsts, List.find?_filter]
  congr 1
  funext s
  simp [and_comm]

theorem nodup_dayPositions : ((dayPositions b accountId day).map (·.instrumentId)).Nodup := by
  unfold dayPositions
  rw [latestPositionsOnOrBefore_eq]
  exact nodup_firsts

theorem isLatest_dayCash : IsLatest (·.snapshotAt) (fun s => dayOf s.snapshotAt ≤ day)
    (b.cashOf accountId) (dayCash b accountId day) := by
  have h : IsLatest (·.snapshotAt) _ _ (dayCash b accountId day) :=
    isLatest_newestFirst (b.cashOf accountId) fun s => dayOf s.snapshotAt ≤ day
  simpa only [decide_eq_true_eq] using h

theorem usesLatest_inMemory (hmem : b.backend = .inMemory) : UsesLatest b accountId day where
  once := nodup_dayPositions
  position := by
    intro instrumentId
    have h : IsLatest (·.snapshotAt) _ _
        ((newestFirst (·.snapshotAt) (b.positionsOf accountId)).find? _) :=
      isLatest_newestFirst (b.positionsOf accountId) fun s =>
        s.instrumentId = instrumentId ∧ dayOf s.snapshotAt ≤ day
    rw [find?_dayPositions]
    unfold Books.listLatestByAccount
    rw [hmem]
    simpa only [decide_eq_true_eq] using h
  cash := isLatest_dayCash

/-! From the database it is the latest snapshot of each instrument. -/

namespace Books

instance : IsTrans PositionSnapshotEntity byInstrument where
  trans a b c hab hbc := by
    rcases hab with hab | ⟨hab, hle⟩
    · rcases hbc with hbc | ⟨hbc, -⟩
      · exact .inl (hab.trans hbc)
      · exact .inl (hab.trans_eq hbc)
    · rcases hbc with hbc | ⟨hbc, hle'⟩
      · exact .inl (hab.trans_lt hbc)
      · exact .inr ⟨hab.trans hbc, hle'.trans hle⟩

instance : Std.Total byInstrument where
  total a b := by
    rcases lt_trichotomy a.instrumentId b.instrumentId with hlt | heq | hgt
    · exact .inl (.inl hlt)
    · rcases le_total b.snapshotAt a.snapshotAt with hle | hle
      · exact .inl (.inr ⟨heq, hle⟩)
      · exact .inr (.inr ⟨heq.symm, hle⟩)
    · exact .inr (.inl hgt)

theorem isLatest_byInstrument (history : List PositionSnapshotEntity) (instrumentId : UUID) :
    IsLatest (·.snapshotAt) (·.instrumentId = instrumentId) history
      ((history.insertionSort byInstrument).find? (·.instrumentId = instrumentId)) := by
  have hsorted : ((history.insertionSort byInstrument).filter
      (·.instrumentId = instrumentId)).Pairwise (newer (·.snapshotAt)) := by
    apply List.Pairwise.imp_of_mem _
      ((List.pairwise_insertionSort byInstrument history).sublist List.filter_sublist)
    intro s s' hs hs' hle
    have hsame := of_decide_eq_true (List.mem_filter.mp hs).2
    have hsame' := of_decide_eq_true (List.mem_filter.mp hs').2
    rcases hle with hlt | ⟨-, hle⟩
    · exact absurd (hsame.trans hsame'.symm) hlt.ne
    · exact hle
  have h := isLatest_find? _ history _ (fun _ _ => List.mem_insertionSort _) hsorted
  simpa only [decide_eq_true_eq] using h

end Books

theorem find?_dayPositions_postgres (hdb : b.backend = .postgres) :
    (dayPositions b accountId day).find? (·.instrumentId = instrumentId) =
      (((b.positionsOf accountId).insertionSort Books.byInstrument).find?
        (·.instrumentId = instrumentId)).filter fun s => dayOf s.snapshotAt ≤ day := by
  rw [find?_dayPositions]
  unfold Books.listLatestByAccount
  rw [hdb]
  dsimp only
  rw [← find?_firsts, find?_and_of_nodup nodup_firsts]

theorem dayOf_mono {t t' : Time} (h : t ≤ t') : dayOf t ≤ dayOf t' :=
  Int.ediv_le_ediv (by decide) h

/-- The latest snapshot of an instrument, where it is not after the day, is the latest on or
before it exactly where no snapshot of the instrument precedes a later one over the day. -/
theorem usesLatest_postgres (hdb : b.backend = .postgres) :
    UsesLatest b accountId day ↔ Unsplit b accountId day := by
  constructor
  · intro h s hs s' hs' hsame hday
    have hlatest := Books.isLatest_byInstrument (b.positionsOf accountId) s.instrumentId
    have huse := h.position s.instrumentId
    rw [find?_dayPositions_postgres hdb] at huse
    cases hfind : ((b.positionsOf accountId).insertionSort Books.byInstrument).find?
        (·.instrumentId = s.instrumentId) with
    | none =>
      rw [hfind] at hlatest
      exact absurd rfl (hlatest s hs)
    | some last =>
      rw [hfind] at hlatest huse
      by_cases hlast : dayOf last.snapshotAt ≤ day
      · exact (dayOf_mono (hlatest.2.2 s' hs' hsame.symm)).trans hlast
      · rw [Option.filter_some_neg (by simpa using hlast)] at huse
        exact absurd ⟨rfl, hday⟩ (huse s hs)
  · intro h
    refine ⟨nodup_dayPositions, fun instrumentId => ?_, isLatest_dayCash⟩
    have hlatest := Books.isLatest_byInstrument (b.positionsOf accountId) instrumentId
    rw [find?_dayPositions_postgres hdb]
    cases hfind : ((b.positionsOf accountId).insertionSort Books.byInstrument).find?
        (·.instrumentId = instrumentId) with
    | none =>
      rw [hfind] at hlatest
      exact fun s hs hsame => hlatest s hs hsame.1
    | some last =>
      rw [hfind] at hlatest
      obtain ⟨hmem, hlastIs, hbound⟩ := hlatest
      by_cases hlast : dayOf last.snapshotAt ≤ day
      · rw [Option.filter_some_pos (by simpa using hlast)]
        exact ⟨hmem, ⟨hlastIs, hlast⟩, fun s hs hsame => hbound s hs hsame.1⟩
      · rw [Option.filter_some_neg (by simpa using hlast)]
        rintro s hs ⟨hsame, hday⟩
        exact hlast (h s hs last hmem (hsame.trans hlastIs.symm) hday)

namespace Books

def addPosition (b : Books) (snap : PositionSnapshotEntity) : Books :=
  { b with positionSnapshots := b.positionSnapshots ++ [snap] }

def addCash (b : Books) (snap : CashBalanceSnapshotEntity) : Books :=
  { b with cashBalanceSnapshots := b.cashBalanceSnapshots ++ [snap] }

end Books

/-- The reads of every day of the range are right: in memory always, from the database when no
instrument's snapshots are split by a day of the range. -/
def ReadsWhole (b : Books) (accountId : UUID) (startDate endDate : Int) : Prop :=
  b.backend = .inMemory ∨ ∀ day, startDate ≤ day → day ≤ endDate → Unsplit b accountId day

variable {snap : PositionSnapshotEntity} {cash : CashBalanceSnapshotEntity}
  {startDate endDate : Int}

theorem usesLatest_iff : (∀ day, startDate ≤ day → day ≤ endDate → UsesLatest b accountId day) ↔
    ReadsWhole b accountId startDate endDate := by
  unfold ReadsWhole
  cases hbackend : b.backend with
  | inMemory => exact iff_of_true (fun _ _ _ => usesLatest_inMemory hbackend) (.inl rfl)
  | postgres =>
    simp only [reduceCtorEq, false_or, usesLatest_postgres hbackend]

theorem positionsOf_addPosition : (b.addPosition snap).positionsOf accountId =
    b.positionsOf accountId ++ [snap].filter (·.accountId = accountId) :=
  List.filter_append _ _

theorem filter_addPosition (hnew : day < dayOf snap.snapshotAt) :
    ((b.addPosition snap).positionsOf accountId).filter (fun s => dayOf s.snapshotAt ≤ day) =
      (b.positionsOf accountId).filter fun s => dayOf s.snapshotAt ≤ day := by
  have hnone : ([snap].filter (·.accountId = accountId)).filter
      (fun s => dayOf s.snapshotAt ≤ day) = [] := by
    apply List.filter_eq_nil_iff.mpr
    intro s hs
    rw [List.mem_singleton.mp (List.mem_filter.mp hs).1, decide_eq_true_eq]
    exact not_le.mpr hnew
  rw [positionsOf_addPosition, List.filter_append, hnone, List.append_nil]

/-- Where the day is read right, the snapshots on or before it alone decide what it uses. -/
theorem dayPositions_eq (hday : b.backend = .inMemory ∨ Unsplit b accountId day) :
    dayPositions b accountId day = firsts (·.instrumentId)
      (match b.backend with
        | .inMemory => newestFirst (·.snapshotAt)
            ((b.positionsOf accountId).filter fun s => dayOf s.snapshotAt ≤ day)
        | .postgres => ((b.positionsOf accountId).filter fun s =>
            dayOf s.snapshotAt ≤ day).insertionSort Books.byInstrument) := by
  unfold dayPositions Books.listLatestByAccount
  rw [latestPositionsOnOrBefore_eq]
  cases hbackend : b.backend with
  | inMemory =>
    dsimp only
    unfold newestFirst
    rw [filter_insertionSort]
  | postgres =>
    dsimp only
    have hsplit : Unsplit b accountId day := by
      rcases hday with hmem | hsplit
      · rw [hbackend] at hmem
        cases hmem
      · exact hsplit
    rw [filter_firsts, firsts_of_nodup nodup_firsts, filter_insertionSort]
    intro s hs s' hs' hsame
    have hmem := (List.mem_insertionSort Books.byInstrument).mp hs
    have hmem' := (List.mem_insertionSort Books.byInstrument).mp hs'
    exact decide_eq_decide.mpr
      ⟨hsplit s hmem s' hmem' hsame, hsplit s' hmem' s hmem hsame.symm⟩

theorem dayPositions_addPosition (hday : b.backend = .inMemory ∨ Unsplit b accountId day)
    (hday' : b.backend = .inMemory ∨ Unsplit (b.addPosition snap) accountId day)
    (hnew : day < dayOf snap.snapshotAt) :
    dayPositions (b.addPosition snap) accountId day = dayPositions b accountId day := by
  rw [dayPositions_eq hday, dayPositions_eq (b := b.addPosition snap) hday',
    filter_addPosition hnew]
  rfl

theorem dayCash_addCash (hnew : day < dayOf cash.snapshotAt) :
    dayCash (b.addCash cash) accountId day = dayCash b accountId day := by
  have hfilter : ((b.addCash cash).cashOf accountId).filter (fun s => dayOf s.snapshotAt ≤ day) =
      (b.cashOf accountId).filter fun s => dayOf s.snapshotAt ≤ day := by
    change ((b.cashBalanceSnapshots ++ [cash]).filter (·.accountId = accountId)).filter _ = _
    have hnone : ([cash].filter (·.accountId = accountId)).filter
        (fun s => dayOf s.snapshotAt ≤ day) = [] := by
      apply List.filter_eq_nil_iff.mpr
      intro s hs
      rw [List.mem_singleton.mp (List.mem_filter.mp hs).1, decide_eq_true_eq]
      exact not_le.mpr hnew
    rw [List.filter_append, List.filter_append, hnone, List.append_nil]
    rfl
  unfold dayCash latestCashOnOrBefore Books.listCashByAccount newestFirst
  rw [← List.head?_filter, ← List.head?_filter, filter_insertionSort, filter_insertionSort, hfilter]

theorem dailyPoints_congr {n : Numerics} {cashs cashs' : List CashBalanceSnapshotEntity}
    {positions positions' : List PositionSnapshotEntity} {realizedOn : Int → ℚ} {days : List Int}
    (cumulative : ℚ)
    (h : ∀ day ∈ days, latestCashOnOrBefore cashs day = latestCashOnOrBefore cashs' day ∧
      latestPositionsOnOrBefore positions day = latestPositionsOnOrBefore positions' day) :
    dailyPoints n cashs positions realizedOn cumulative days =
      dailyPoints n cashs' positions' realizedOn cumulative days := by
  induction days generalizing cumulative with
  | nil => rfl
  | cons day days ih =>
    obtain ⟨hcash, hpositions⟩ := h day (by simp)
    rw [dailyPoints, dailyPoints, ih _ fun d hd => h d (List.mem_cons_of_mem _ hd)]
    unfold dailyPoint
    rw [hcash, hpositions]

theorem getDailyHistory_congr (b : Books) (positions : List PositionSnapshotEntity)
    (cashs : List CashBalanceSnapshotEntity)
    (h : ∀ day, startDate ≤ day → day ≤ endDate →
      dayCash { b with positionSnapshots := positions, cashBalanceSnapshots := cashs }
        accountId day = dayCash b accountId day ∧
      dayPositions { b with positionSnapshots := positions, cashBalanceSnapshots := cashs }
        accountId day = dayPositions b accountId day)
    (n : Numerics) (strategyId : Option UUID) :
    getDailyHistory n { b with positionSnapshots := positions, cashBalanceSnapshots := cashs }
      accountId startDate endDate strategyId =
      getDailyHistory n b accountId startDate endDate strategyId := by
  unfold getDailyHistory
  cases b.trades.listOrders accountId defaultLimit with
  | error e => rfl
  | ok orders =>
    apply congrArg Except.ok
    apply dailyPoints_congr
    intro day hday
    obtain ⟨hstart, hend⟩ := mem_dateRange.mp hday
    exact h day hstart hend

theorem readsWhole_at (h : ReadsWhole b accountId startDate endDate) (hstart : startDate ≤ day)
    (hend : day ≤ endDate) : b.backend = .inMemory ∨ Unsplit b accountId day :=
  h.imp_right fun hall => hall day hstart hend

theorem dayPositions_addPosition_iff (h : ReadsWhole b accountId startDate endDate)
    (hnew : endDate < dayOf snap.snapshotAt) :
    (∀ day, startDate ≤ day → day ≤ endDate →
      dayPositions (b.addPosition snap) accountId day = dayPositions b accountId day) ↔
    ReadsWhole (b.addPosition snap) accountId startDate endDate := by
  constructor
  · intro hsame
    rw [← usesLatest_iff] at h ⊢
    intro day hstart hend
    refine ⟨nodup_dayPositions, fun instrumentId => ?_, isLatest_dayCash⟩
    rw [hsame day hstart hend]
    apply ((h day hstart hend).position instrumentId).congr
    rintro s ⟨-, hday⟩
    -- the new snapshot is after the day
    have hold : s ∈ ((b.addPosition snap).positionsOf accountId).filter
        (fun s => dayOf s.snapshotAt ≤ day) ↔
        s ∈ (b.positionsOf accountId).filter fun s => dayOf s.snapshotAt ≤ day := by
      rw [filter_addPosition (hend.trans_lt hnew)]
    simpa [hday] using hold.symm
  · intro h' day hstart hend
    exact dayPositions_addPosition (readsWhole_at h hstart hend)
      (readsWhole_at (b := b.addPosition snap) h' hstart hend) (hend.trans_lt hnew)

/-- For every account, tables and range of dates: every day of the history uses the latest
snapshots on or before it exactly when the position history is read whole, in memory or with
no instrument's snapshots split by a day of the range. A newer position snapshot leaves the
snapshots of the days as they are exactly when the history with it is still read whole; the
points of the range then stay, with a newer cash snapshot as well. -/
theorem getDailyHistory_usesLatest_iff (b : Books) (accountId : UUID)
    (startDate endDate : Int) :
    ((∀ day, startDate ≤ day → day ≤ endDate → UsesLatest b accountId day) ↔
      ReadsWhole b accountId startDate endDate) ∧
    ∀ snap : PositionSnapshotEntity, endDate < dayOf snap.snapshotAt →
      ReadsWhole b accountId startDate endDate →
      ((∀ day, startDate ≤ day → day ≤ endDate →
        dayPositions (b.addPosition snap) accountId day = dayPositions b accountId day) ↔
        ReadsWhole (b.addPosition snap) accountId startDate endDate) ∧
      ∀ cash : CashBalanceSnapshotEntity, endDate < dayOf cash.snapshotAt →
        ReadsWhole (b.addPosition snap) accountId startDate endDate →
        ∀ (n : Numerics) (strategyId : Option UUID),
          getDailyHistory n ((b.addPosition snap).addCash cash) accountId startDate endDate
            strategyId =
            getDailyHistory n b accountId startDate endDate strategyId := by
  refine ⟨usesLatest_iff, fun snap hnew h => ⟨dayPositions_addPosition_iff h hnew, ?_⟩⟩
  intro cash hcash h' n strategyId
  apply getDailyHistory_congr b (b.positionSnapshots ++ [snap]) (b.cashBalanceSnapshots ++ [cash])
  intro day hstart hend
  exact ⟨dayCash_addCash (b := b) (hend.trans_lt hcash),
    (dayPositions_addPosition_iff h hnew).mpr h' day hstart hend⟩

/-- Ten shares bought on the first day, at 100. -/
def bought : PositionSnapshotEntity where
  accountId := 1
  instrumentId := 7
  quantity := 10
  averagePrice := 100
  marketPrice := some 100
  snapshotAt := 24 * 60 * microsPerMinute

def firstDay : Books where
  backend := .postgres
  trades :=
    { orders := []
      brokerOrders := []
      fillEvents := []
      orders_nodup := List.nodup_nil
      brokerOrders_nodup := List.nodup_nil
      fillEvents_nodup := List.nodup_nil }
  positionSnapshots := [bought]
  cashBalanceSnapshots := [{
    accountId := 1
    availableCash := 500
    snapshotAt := 24 * 60 * microsPerMinute }]

/-- They stand at 120 the day after. -/
def dayAfter : PositionSnapshotEntity :=
  { bought with
    marketPrice := some 120
    snapshotAt := 2 * (24 * 60 * microsPerMinute) }

def equityOn (b : Books) (day : Int) : Option (List (Option ℚ)) :=
  ((getDailyHistory exact b 1 day day none).toOption).map fun points =>
    points.map (·.totalEquity)

/-- The snapshot of the second day takes the position out of the first day's equity. -/
theorem dayAfter_splits :
    equityOn firstDay 1 = some [some 1500] ∧
    equityOn (firstDay.addPosition dayAfter) 1 = some [some 500] ∧
    ¬ ∀ day, 1 ≤ day → day ≤ 1 → UsesLatest (firstDay.addPosition dayAfter) 1 day := by
  refine ⟨by decide +kernel, by decide +kernel, fun h => ?_⟩
  rcases usesLatest_iff.mp h with hmem | hall
  · cases hmem
  · have hsplit := hall 1 le_rfl le_rfl
    have hday := hsplit bought (by decide) dayAfter (by decide) rfl (by decide)
    exact absurd hday (by decide)

end AgentTrading.Performance
