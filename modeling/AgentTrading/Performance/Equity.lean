import AgentTrading.Library.RunningPeak
import AgentTrading.Performance.Summary
import AgentTrading.RealizedPnl.Conservation
import AgentTrading.RealizedPnl.DecimalContext

/-! The drawdown of an equity history: one pass with a running peak, and all pairs of days. -/
namespace AgentTrading.Performance
open RealizedPnl Library Library.Rounding

structure EquityMetrics where
  cumulativeReturnPct : ℚ
  currentEquity : ℚ
  peakEquity : ℚ
  currentDrawdownPct : ℚ
  maxDrawdownPct : ℚ
  deriving DecidableEq

variable (n : Numerics)

/-- `(peak - eq) / peak * 100`. -/
def drawdownPct (peak eq : ℚ) : ℚ := n.mul (n.div (n.sub peak eq) peak) 100

/-- One equity of the loop: the peak and the largest drawdown so far. -/
def drawdownStep (state : ℚ × ℚ) (eq : ℚ) : ℚ × ℚ :=
  let peak := if state.1 < eq then eq else state.1
  if 0 < peak then
    let drawdown := drawdownPct n peak eq
    (peak, if state.2 < drawdown then drawdown else state.2)
  else (peak, state.2)

def equities (points : List DailyPerformancePoint) : List ℚ := points.filterMap (·.totalEquity)

def calcEquityMetrics (points : List DailyPerformancePoint) (startingEquity : ℚ) :
    EquityMetrics :=
  match (equities points).getLast? with
  | none => ⟨0, startingEquity, startingEquity, 0, 0⟩
  | some currentEquity =>
    let (peak, maxDrawdown) := (equities points).foldl (drawdownStep n) (startingEquity, 0)
    { cumulativeReturnPct :=
        if 0 < startingEquity then
          n.mul (n.div (n.sub currentEquity startingEquity) startingEquity) 100
        else 0
      currentEquity := currentEquity
      peakEquity := peak
      currentDrawdownPct := if 0 < peak then drawdownPct n peak currentEquity else 0
      maxDrawdownPct := maxDrawdown }

/-- The drawdowns from a positive equity to one at or after it. -/
def drawdowns (series : List ℚ) : Set ℚ :=
  {d | ∃ (i j : Nat) (ei ej : ℚ), i ≤ j ∧ series[i]? = some ei ∧ series[j]? = some ej ∧ 0 < ei ∧
    d = (ei - ej) / ei * 100}

variable {n : Numerics} {ε : ℚ} {peak eq worst starting : ℚ} {series : List ℚ}

theorem drawdowns_eq : drawdowns series = RunningPeak.losses (drawdownPct exact) (0 < ·) series :=
  rfl

theorem foldl_drawdownStep (hpeak : 0 < peak) :
    series.foldl (drawdownStep n) (peak, worst) =
      RunningPeak.pass (drawdownPct n) (peak, worst) series := by
  induction series generalizing peak worst with
  | nil => rfl
  | cons eq series ih =>
    have hmax : 0 < max peak eq := lt_max_of_lt_left hpeak
    have hstep : drawdownStep n (peak, worst) eq =
        RunningPeak.step (drawdownPct n) (peak, worst) eq := by
      unfold drawdownStep RunningPeak.step
      dsimp only
      rw [← max_def_lt, if_pos hmax, ← max_def_lt]
    rw [List.foldl_cons, hstep, RunningPeak.pass_cons]
    exact ih hmax

theorem calcEquityMetrics_of_last {points : List DailyPerformancePoint}
    (hlast : (equities points).getLast? = some eq) (hstart : 0 < starting) :
    let pass := RunningPeak.pass (drawdownPct n) (starting, 0) (equities points)
    (calcEquityMetrics n points starting).peakEquity = pass.1 ∧
      (calcEquityMetrics n points starting).maxDrawdownPct = pass.2 ∧
      (calcEquityMetrics n points starting).currentDrawdownPct = drawdownPct n pass.1 eq := by
  have hpeak : starting ≤
      (RunningPeak.pass (drawdownPct n) (starting, 0) (equities points)).1 :=
    (RunningPeak.pass_peak (starting, 0) (equities points)).2 (by simp)
  unfold calcEquityMetrics
  rw [hlast]
  dsimp only
  rw [foldl_drawdownStep hstart]
  refine ⟨rfl, rfl, if_pos (hstart.trans_le hpeak)⟩

theorem drawdownPct_monotonic :
    RunningPeak.Monotonic (drawdownPct exact) (0 < ·) (0 ≤ ·) where
  upward _ _ ha hle := ha.trans_le hle
  mono a a' b ha hle hb := by
    have ha' : 0 < a' := ha.trans_le hle
    change (a - b) / a * 100 ≤ (a' - b) / a' * 100
    rw [sub_div, sub_div, div_self ha.ne', div_self ha'.ne']
    have hdiv : b / a' ≤ b / a := div_le_div_of_nonneg_left hb ha hle
    linarith

theorem drawdownPct_nonneg (hn : Rounds n.round ε) (hpeak : 0 < peak) (hle : eq ≤ peak) :
    0 ≤ drawdownPct n peak eq := by
  have hsub : 0 ≤ n.sub peak eq := hn.nonneg (by linarith)
  have hdiv : 0 ≤ n.div (n.sub peak eq) peak := hn.nonneg (by positivity)
  exact hn.nonneg (by positivity)

theorem drawdownPct_bounds (hn : Rounds n.round ε) (hε : ε ≤ 1) (hpeak : 0 < peak)
    (hle : eq ≤ peak) :
    (1 - ε) ^ 3 * drawdownPct exact peak eq ≤ drawdownPct n peak eq ∧
      drawdownPct n peak eq ≤ (1 + ε) ^ 3 * drawdownPct exact peak eq := by
  have hfall : 0 ≤ peak - eq := by linarith
  have hε0 := hn.error_nonneg
  have hsub : 0 ≤ n.sub peak eq := hn.nonneg hfall
  have hratio : 0 ≤ n.sub peak eq / peak := by positivity
  have hdiv : 0 ≤ n.div (n.sub peak eq) peak := hn.nonneg hratio
  constructor
  · calc (1 - ε) ^ 3 * drawdownPct exact peak eq
        = (1 - ε) * ((1 - ε) * ((1 - ε) * (peak - eq) / peak) * 100) := by
          change (1 - ε) ^ 3 * ((peak - eq) / peak * 100) = _
          ring
      _ ≤ (1 - ε) * ((1 - ε) * (n.sub peak eq / peak) * 100) := by
          have h1 : 0 ≤ 1 - ε := by linarith
          gcongr
          exact hn.mul_le hfall
      _ ≤ (1 - ε) * (n.div (n.sub peak eq) peak * 100) := by
          have h1 : 0 ≤ 1 - ε := by linarith
          gcongr
          exact hn.mul_le hratio
      _ ≤ drawdownPct n peak eq := hn.mul_le (by positivity)
  · calc drawdownPct n peak eq ≤ (1 + ε) * (n.div (n.sub peak eq) peak * 100) :=
          hn.le_mul (by positivity)
      _ ≤ (1 + ε) * ((1 + ε) * (n.sub peak eq / peak) * 100) := by
          gcongr
          exact hn.le_mul hratio
      _ ≤ (1 + ε) * ((1 + ε) * ((1 + ε) * (peak - eq) / peak) * 100) := by
          gcongr
          exact hn.le_mul hfall
      _ = (1 + ε) ^ 3 * drawdownPct exact peak eq := by
          change _ = (1 + ε) ^ 3 * ((peak - eq) / peak * 100)
          ring

theorem isGreatest_pass (hstart : 0 < starting) (hnonneg : ∀ e ∈ series, 0 ≤ e) :
    IsGreatest (drawdowns (starting :: series))
      (RunningPeak.pass (drawdownPct exact) (starting, 0) series).2 := by
  have hself : drawdownPct exact starting starting = 0 := by
    change (starting - starting) / starting * 100 = 0
    simp
  have hzero : (0 : ℚ) ∈ drawdowns (starting :: series) :=
    ⟨0, 0, starting, starting, le_rfl, rfl, rfl, hstart, hself.symm⟩
  have hall : ∀ e ∈ starting :: series, 0 ≤ e := by
    intro e he
    rcases List.mem_cons.mp he with rfl | he
    · exact hstart.le
    · exact hnonneg e he
  have hworst := RunningPeak.pass_worst drawdownPct_monotonic hstart hself.le hall
  rwa [← drawdowns_eq, Set.insert_eq_of_mem hzero] at hworst

/-- For every history of non-negative equities and every positive starting equity: the peak is
the greatest equity, the current drawdown lies between zero and the maximum drawdown, and the
maximum drawdown is the largest over all pairs of days, from the starting equity on; where each
operation rounds by at most `ε` of its result, it is so up to the three roundings of one
drawdown. -/
theorem calcEquityMetrics_drawdown (points : List DailyPerformancePoint) (startingEquity : ℚ)
    (hne : equities points ≠ []) (hnonneg : ∀ e ∈ equities points, 0 ≤ e)
    (hstart : 0 < startingEquity) :
    IsGreatest (drawdowns (startingEquity :: equities points))
      (calcEquityMetrics exact points startingEquity).maxDrawdownPct ∧
    ∀ (n : Numerics) (ε : ℚ), Rounds n.round ε → ε ≤ 1 →
      let metrics := calcEquityMetrics n points startingEquity
      let worst := (calcEquityMetrics exact points startingEquity).maxDrawdownPct
      IsGreatest {e | e ∈ startingEquity :: equities points} metrics.peakEquity ∧
        0 ≤ metrics.currentDrawdownPct ∧
        metrics.currentDrawdownPct ≤ metrics.maxDrawdownPct ∧
        (1 - ε) ^ 3 * worst ≤ metrics.maxDrawdownPct ∧
        metrics.maxDrawdownPct ≤ (1 + ε) ^ 3 * worst := by
  obtain ⟨last, hlast⟩ : ∃ last, (equities points).getLast? = some last :=
    ⟨_, List.getLast?_eq_some_getLast hne⟩
  have hexact := calcEquityMetrics_of_last (n := exact) hlast hstart
  dsimp only at hexact
  refine ⟨?_, fun n ε hn hε => ?_⟩
  · rw [hexact.2.1]
    exact isGreatest_pass hstart hnonneg
  obtain ⟨hpeak, hmax, hcurrent⟩ := calcEquityMetrics_of_last (n := n) hlast hstart
  have hgreatest : IsGreatest {e | e ∈ startingEquity :: equities points}
      (RunningPeak.pass (drawdownPct n) (startingEquity, 0) (equities points)).1 :=
    RunningPeak.pass_peak _ _
  have hpos : 0 < (RunningPeak.pass (drawdownPct n) (startingEquity, 0) (equities points)).1 :=
    hstart.trans_le (hgreatest.2 (by simp))
  have hlastMem : last ∈ equities points := List.mem_of_getLast? hlast
  dsimp only
  rw [hpeak, hmax, hcurrent, hexact.2.1]
  refine ⟨hgreatest, ?_, RunningPeak.last_le_pass _ hlast, ?_, ?_⟩
  · exact drawdownPct_nonneg hn hpos (hgreatest.2 (List.mem_cons_of_mem _ hlastMem))
  · apply RunningPeak.le_pass (f := fun x => (1 - ε) ^ 3 * x) (P := (0 < ·)) (Q := (0 ≤ ·)) _
      (fun _ _ ha hle => ha.trans_le hle) hstart hnonneg
    · intro a b ha _ hle
      exact (drawdownPct_bounds hn hε ha hle).1
    · simp
    · intro x y hxy
      have h1 : 0 ≤ 1 - ε := by linarith
      dsimp only
      gcongr
  · apply RunningPeak.pass_le (f := fun x => (1 + ε) ^ 3 * x) (P := (0 < ·)) (Q := (0 ≤ ·)) _
      (fun _ _ ha hle => ha.trans_le hle) hstart hnonneg
    · intro a b ha _ hle
      exact (drawdownPct_bounds hn hε ha hle).2
    · simp
    · intro x y hxy
      have h1 : 0 ≤ 1 + ε := by linarith [hn.error_nonneg]
      dsimp only
      gcongr

/-- Five days, one of them without an equity. -/
def fiveDays : List DailyPerformancePoint :=
  [{ date := 1, realizedPnl := 0, cumulativeRealizedPnl := 0, totalEquity := some 120 },
    { date := 2, realizedPnl := 0, cumulativeRealizedPnl := 0 },
    { date := 3, realizedPnl := 0, cumulativeRealizedPnl := 0, totalEquity := some 90 },
    { date := 4, realizedPnl := 0, cumulativeRealizedPnl := 0, totalEquity := some 150 },
    { date := 5, realizedPnl := 0, cumulativeRealizedPnl := 0, totalEquity := some 135 }]

theorem fiveDays_metrics : calcEquityMetrics exact fiveDays 100 = ⟨35, 135, 150, 10, 25⟩ := by
  decide +kernel

/-- The history falls by a quarter, from 120 to 90. -/
theorem fiveDays_drawdown : IsGreatest (drawdowns [100, 120, 90, 150, 135]) 25 ∧
    ∀ (n : Numerics) (ε : ℚ), Rounds n.round ε → ε ≤ 1 →
      (calcEquityMetrics n fiveDays 100).maxDrawdownPct ≤ (1 + ε) ^ 3 * 25 := by
  have h := calcEquityMetrics_drawdown fiveDays 100 (by decide) (by decide) (by decide)
  rw [fiveDays_metrics] at h
  exact ⟨h.1, fun n ε hn hε => (h.2 n ε hn hε).2.2.2.2⟩

end AgentTrading.Performance
