import FinanceKing.Backtest.Report.EquityGrid
import FinanceKing.Domain.Guards
import FinanceKing.Lib.Sample

/-! The deflated Sharpe ratio and the evidence it is computed from, over the reals. -/

namespace FinanceKing.Backtest.Report

open ProbabilityTheory

noncomputable section

/-! ### The standard normal -/

/-- `NormalDist().cdf`. -/
def normalCdf (x : ℝ) : ℝ := cdf (gaussianReal 0 1) x

/-- `NormalDist().inv_cdf`. -/
def normalInvCdf (probability : ℝ) : ℝ := sInf {x | probability ≤ normalCdf x}

def eulerMascheroni : ℝ := 0.5772156649015329

/-! ### Evidence -/

structure SharpeEvidenceFields where
  observedSharpe : ℝ
  trialsAtTimeOfRun : ℤ
  independentEpisodeCount : ℤ
  skewness : ℝ
  kurtosis : ℝ
  sharpeVarianceAcrossTrials : ℝ

/-- What the schema validates of the fields. -/
def SharpeEvidenceFields.validate (self : SharpeEvidenceFields) : PyResult Unit := do
  raiseIf (self.trialsAtTimeOfRun < 1) .validation
    ["trials_at_time_of_run: Input should be greater than or equal to 1"]
  raiseIf (self.independentEpisodeCount < 2) .validation
    ["independent_episode_count: Input should be greater than or equal to 2"]
  raiseIf (self.sharpeVarianceAcrossTrials ≤ 0) .validation
    ["sharpe_variance_across_trials: Input should be greater than 0"]

/-- One observed Sharpe with everything needed to discount it; the Sharpe and the count of episodes are
    both per episode. -/
structure SharpeEvidence extends SharpeEvidenceFields where
  checked : toSharpeEvidenceFields.validate = .ok ()

/-! ### Deflation -/

/-- The Sharpe the best of some zero-edge configurations would show. -/
def expectedMaxSharpe (trialCount : ℤ) (sharpeVarianceAcrossTrials : ℝ) : PyResult ℝ := do
  raiseIf (trialCount < 1) .trialCountUnavailable
    ["trial count is ", .count trialCount, "; refusing to deflate against an unreadable ledger, because ",
      "a benchmark of zero reports a searched result as an unsearched one"]
  raiseIf (sharpeVarianceAcrossTrials ≤ 0) .sharpeEvidenceUnusable
    ["the expected maximum of a degenerate distribution is its mean, which deflates by nothing"]
  if trialCount = 1 then return 0
  let dispersion := √sharpeVarianceAcrossTrials
  let upperQuantile := normalInvCdf (1 - 1 / trialCount)
  let lowerQuantile := normalInvCdf (1 - 1 / (trialCount * Real.exp 1))
  return dispersion * ((1 - eulerMascheroni) * upperQuantile + eulerMascheroni * lowerQuantile)

namespace SharpeEvidence

variable (self : SharpeEvidence)

/-- The term by which adverse moments discount the statistic. -/
def varianceTerm : ℝ :=
  1 - self.skewness * self.observedSharpe + (self.kurtosis - 1) / 4 * self.observedSharpe ^ 2

/-- The statistic the probability is read at. -/
def statistic (benchmark : ℝ) : ℝ :=
  (self.observedSharpe - benchmark) * √((self.independentEpisodeCount : ℝ) - 1) / √self.varianceTerm

/-- The probability that the observed Sharpe reflects skill rather than the search. -/
def deflatedSharpeRatio : PyResult ℝ := do
  let benchmark ← expectedMaxSharpe self.trialsAtTimeOfRun self.sharpeVarianceAcrossTrials
  raiseIf (self.varianceTerm ≤ 0) .sharpeEvidenceUnusable
    ["the deflation variance term is not positive; the statistic is undefined, not weak"]
  return normalCdf (self.statistic benchmark)

end SharpeEvidence

end

end FinanceKing.Backtest.Report

/-! Economics, risk and path statistics of a daily return series. Floating point is exact real arithmetic
    here, and nothing is rounded on the way out. -/

namespace FinanceKing.Backtest.Report

open Lib

noncomputable section

/-- The one place a `Decimal` becomes a real. -/
def floatSeries (returnFractions : List Decimal) : List ℝ :=
  returnFractions.map fun fraction : Decimal => (fraction : ℝ)

/-! ### The effective sample -/

/-- The two-sided 95% critical value of the standard normal. -/
def significanceZ : ℝ := 1.959963984540054

def minObservationsForEffectiveSample : ℕ := 8

def maxLagFraction : ℕ := 4

/-- The autocorrelation-corrected observation count, with its working. -/
structure EffectiveSample where
  observationCount : ℕ
  nEff : ℝ
  inflationFactor : ℝ
  significantLagCount : ℕ
  autocorrelations : List ℝ

/-- The effective sample floored to a whole number. -/
def EffectiveSample.episodeCount (self : EffectiveSample) : ℤ := ⌊self.nEff⌋

/-- The lags examined up to the first insignificant one, the sum of those before it and their count. -/
def examineLags (autocorrelation : ℕ → ℝ) (band : ℝ) : List ℕ → List ℝ × ℝ × ℕ
  | [] => ([], 0, 0)
  | lag :: lags =>
    if |autocorrelation lag| ≤ band then ([autocorrelation lag], 0, 0)
    else
      let (examined, significantSum, significantLagCount) := examineLags autocorrelation band lags
      (autocorrelation lag :: examined, autocorrelation lag + significantSum, significantLagCount + 1)

/-- The effective sample of a series that varies. -/
def correctedSample (series : List ℝ) : EffectiveSample :=
  let observationCount := series.length
  let band := significanceZ / √observationCount
  let maxLag := max 1 (observationCount / maxLagFraction)
  let (examined, significantSum, significantLagCount) := examineLags
    (fun lag => autocovariance series lag / powerSum 2 series) band (List.range' 1 maxLag)
  let inflationFactor := max 1 (1 + 2.0 * significantSum)
  { observationCount := observationCount
    nEff := observationCount / inflationFactor
    inflationFactor := inflationFactor
    significantLagCount := significantLagCount
    autocorrelations := examined }

/-- The effective sample of a series of daily returns; a constant one is not corrected. -/
def effectiveSampleSize (returnFractions : List Decimal) : PyResult EffectiveSample := do
  let observationCount := returnFractions.length
  raiseIf (observationCount < minObservationsForEffectiveSample) .metricInput
    [.count observationCount, " observations is below the ", .count minObservationsForEffectiveSample,
      " needed to estimate an autocorrelation; at this length the significance band admits almost ",
      "nothing and the correction would report independence it never established"]
  let series := floatSeries returnFractions
  if powerSum 2 series = 0 then return ⟨observationCount, observationCount, 1, 0, []⟩
  return correctedSample series

/-- The effective sample, or none when the window is too short to estimate it. -/
def effectiveSampleOrNone (returnFractions : List Decimal) : PyResult (Option EffectiveSample) :=
  if returnFractions.length < minObservationsForEffectiveSample then .ok none
  else some <$> effectiveSampleSize returnFractions

/-! ### Metrics -/

def minObservationsForDispersion : ℕ := 2

/-- A ratio, or none when its denominator does not exist for the window. -/
def ratioOrNone (numerator denominator : ℝ) : Option ℝ :=
  if denominator ≤ 0 then none else some (numerator / denominator)

def requireDispersionSample (returnFractions : List Decimal) : PyResult (List ℝ) := do
  raiseIf (returnFractions.length < minObservationsForDispersion) .metricInput
    [.count returnFractions.length, " daily returns cannot support a dispersion estimate; at least ",
      .count minObservationsForDispersion, " are needed"]
  return floatSeries returnFractions

/-- What the equity path earned. -/
structure PathEconomics where
  totalReturnFraction : ℝ
  annualisedReturnFraction : ℝ
  observationCount : ℕ

def pathEconomics (returnFractions : List Decimal) : PyResult PathEconomics := do
  raiseIf (returnFractions = []) .metricInput ["path economics needs at least one daily return"]
  let growth : ℝ := ((returnFractions.map fun fraction => 1 + fraction).prod : Decimal)
  return {
    totalReturnFraction := growth - 1
    annualisedReturnFraction := growth ^ ((annualisationDays : ℝ) / returnFractions.length) - 1
    observationCount := returnFractions.length }

/-- Dispersion and drawdown, annualised on the daily grid. -/
structure RiskProfile where
  annualisedVolatilityFraction : ℝ
  downsideDeviationFraction : ℝ
  maxDrawdownFraction : ℝ
  ulcerIndexPct : ℝ
  worstDailyReturnFraction : ℝ

/-- The drawdown after each return, on the wealth the returns compound to. -/
def drawdowns : ℝ → ℝ → List ℝ → List ℝ
  | _, _, [] => []
  | wealth, peak, observation :: series =>
    let grown := wealth * (1 + observation)
    let highest := max peak grown
    (1 - grown / highest) :: drawdowns grown highest series

def riskProfile (returnFractions : List Decimal) : PyResult RiskProfile := do
  let series ← requireDispersionSample returnFractions
  let observationCount : ℝ := series.length
  -- only the losing days enter the downside, but every day enters its divisor
  let downsideVariance := (series.map fun observation => min observation 0 ^ 2).sum / (observationCount - 1)
  let annualiser := √annualisationDays
  let fallen := drawdowns 1 1 series
  return {
    annualisedVolatilityFraction := √(sampleVariance series) * annualiser
    downsideDeviationFraction := √downsideVariance * annualiser
    maxDrawdownFraction := fallen.max?.getD 0
    ulcerIndexPct := √((fallen.map fun drawdown => drawdown ^ 2).sum / observationCount) * 100
    worstDailyReturnFraction := (returnFractions.min?.getD 0 : Decimal) }

/-- The risk-adjusted ratios, their moments, and the sample they rest on. -/
structure PathStatistics where
  sharpeRatio : Option ℝ
  sortinoRatio : Option ℝ
  calmarRatio : Option ℝ
  skewness : Option ℝ
  kurtosis : Option ℝ
  effectiveSample : Option EffectiveSample
  sharpeTStatistic : Option ℝ

/-- A standardised moment, which a series that does not vary does not have. -/
def standardisedMoment (power : ℕ) (exponent : ℝ) (series : List ℝ) : Option ℝ :=
  if 0 < centralMoment 2 series then some (centralMoment power series / centralMoment 2 series ^ exponent)
  else none

def pathStatistics (returnFractions : List Decimal) (risk : RiskProfile) (economics : PathEconomics) :
    PyResult PathStatistics := do
  let series ← requireDispersionSample returnFractions
  let mean := sampleMean series
  let sampleDeviation := √(sampleVariance series)
  let sharpe := ratioOrNone (mean * √annualisationDays) sampleDeviation
  let sample ← effectiveSampleOrNone returnFractions
  return {
    sharpeRatio := sharpe
    sortinoRatio := ratioOrNone (mean * annualisationDays) risk.downsideDeviationFraction
    calmarRatio := ratioOrNone economics.annualisedReturnFraction risk.maxDrawdownFraction
    skewness := standardisedMoment 3 1.5 series
    kurtosis := standardisedMoment 4 2.0 series
    effectiveSample := sample
    sharpeTStatistic := do
      let _ ← sharpe
      ratioOrNone (mean * √(← sample).nEff) sampleDeviation }

end

/-! ### When they exist -/

theorem floatSeries_length (returnFractions : List Decimal) :
    (floatSeries returnFractions).length = returnFractions.length := by
  rw [floatSeries, List.length_map]

theorem requireDispersionSample_eq_ok {returnFractions : List Decimal} {series : List ℝ} :
    requireDispersionSample returnFractions = .ok series ↔
      minObservationsForDispersion ≤ returnFractions.length ∧ series = floatSeries returnFractions := by
  simp only [requireDispersionSample, bind_eq_ok, raiseIf_eq_ok, pure_eq_ok, not_lt, exists_const]
  exact and_congr_right fun _ => eq_comm

/-- The corrected count of a series is positive. -/
theorem correctedSample_nEff_pos {series : List ℝ} (h : series ≠ []) : 0 < (correctedSample series).nEff := by
  have hinflation : (0 : ℝ) < (correctedSample series).inflationFactor :=
    zero_lt_one.trans_le (le_max_left _ _)
  exact div_pos (Nat.cast_pos.mpr (List.length_pos_iff.mpr h)) hinflation

/-- The sample of a series of eight returns or more, corrected where it varies. -/
theorem effectiveSampleOrNone_eq (returnFractions : List Decimal) :
    effectiveSampleOrNone returnFractions =
      .ok (if returnFractions.length < minObservationsForEffectiveSample then none
        else if powerSum 2 (floatSeries returnFractions) = 0 then
          some ⟨returnFractions.length, returnFractions.length, 1, 0, []⟩
        else some (correctedSample (floatSeries returnFractions))) := by
  rw [effectiveSampleOrNone]
  split
  · rfl
  · next hlength =>
    by_cases hconstant : powerSum 2 (floatSeries returnFractions) = 0
    · simp only [effectiveSampleSize, raiseIf, if_neg hlength, if_pos hconstant]
      rfl
    · simp only [effectiveSampleSize, raiseIf, if_neg hlength, if_neg hconstant]
      rfl

theorem effectiveSampleOrNone_length {returnFractions : List Decimal} {sample : EffectiveSample}
    (h : effectiveSampleOrNone returnFractions = .ok (some sample)) :
    minObservationsForEffectiveSample ≤ returnFractions.length := by
  by_contra hlength
  rw [effectiveSampleOrNone, if_pos (not_le.mp hlength)] at h
  cases h

/-- An effective sample is positive. -/
theorem effectiveSampleOrNone_pos {returnFractions : List Decimal} {sample : EffectiveSample}
    (h : effectiveSampleOrNone returnFractions = .ok (some sample)) : 0 < sample.nEff := by
  rw [effectiveSampleOrNone_eq] at h
  have hsample := Except.ok.inj h
  split at hsample
  · cases hsample
  · next hlength =>
    have hpositive : 0 < returnFractions.length := (Nat.succ_pos 7).trans_le (not_lt.mp hlength)
    split at hsample
    · rw [← Option.some.inj hsample]
      exact Nat.cast_pos.mpr hpositive
    · rw [← Option.some.inj hsample]
      refine correctedSample_nEff_pos ?_
      rw [← List.length_pos_iff, floatSeries_length]
      exact hpositive

theorem pathStatistics_ok {returnFractions : List Decimal}
    (h : minObservationsForDispersion ≤ returnFractions.length) (risk : RiskProfile)
    (economics : PathEconomics) :
    ∃ statistics, pathStatistics returnFractions risk economics = .ok statistics := by
  rw [pathStatistics, requireDispersionSample_eq_ok.mpr ⟨h, rfl⟩, effectiveSampleOrNone_eq]
  exact ⟨_, rfl⟩

/-- The statistics of a series of two returns or more. -/
theorem pathStatistics_eq_ok {returnFractions : List Decimal} {risk : RiskProfile}
    {economics : PathEconomics} {statistics : PathStatistics}
    (h : pathStatistics returnFractions risk economics = .ok statistics) :
    statistics.sharpeRatio = ratioOrNone (sampleMean (floatSeries returnFractions) * √annualisationDays)
        √(sampleVariance (floatSeries returnFractions)) ∧
      effectiveSampleOrNone returnFractions = .ok statistics.effectiveSample ∧
      statistics.sharpeTStatistic = (do
        let _ ← statistics.sharpeRatio
        ratioOrNone (sampleMean (floatSeries returnFractions) * √(← statistics.effectiveSample).nEff)
          √(sampleVariance (floatSeries returnFractions))) ∧
      statistics.skewness = standardisedMoment 3 1.5 (floatSeries returnFractions) ∧
      statistics.kurtosis = standardisedMoment 4 2.0 (floatSeries returnFractions) := by
  simp only [pathStatistics, bind_eq_ok, pure_eq_ok, requireDispersionSample_eq_ok] at h
  obtain ⟨_, ⟨_, rfl⟩, sample, hsample, rfl⟩ := h
  exact ⟨rfl, hsample, rfl, rfl, rfl⟩

end FinanceKing.Backtest.Report

/-! The assembled report: credibility, economics, risk and statistics of the path and of each of its regimes,
    and the evidence it hands to the overfitting gate. -/

namespace FinanceKing.Backtest.Report

open Lib

noncomputable section

/-! ### Regimes -/

def minRegimeEffectiveSample : ℝ := 10

/-- Whether a bucket's numbers can carry weight. -/
inductive RegimeCoverage where
  | sufficient
  | thin
  deriving DecidableEq

/-- One regime's share of the path, with the metrics of the whole. -/
structure RegimeSlice where
  regime : String
  observationCount : ℕ
  timeInMarketPct : Decimal
  economics : PathEconomics
  risk : Option RiskProfile
  statistics : Option PathStatistics
  regimeCoverage : RegimeCoverage

/-- Whether a sample is of ten independent episodes. -/
def coverageOf (sample : Option EffectiveSample) : RegimeCoverage :=
  match sample with
  | none => .thin
  | some sample => if minRegimeEffectiveSample ≤ sample.nEff then .sufficient else .thin

/-- The slice of one regime; a bucket too short to have a dispersion carries none. -/
def regimeSlice (path : EquityPath) (regime : String) : PyResult RegimeSlice := do
  let returnFractions := path.returnsInRegime regime
  let economics ← pathEconomics returnFractions
  if returnFractions.length < minObservationsForDispersion then
    let timeInMarketPct ← path.timeInMarketPctInRegime regime
    return ⟨regime, returnFractions.length, timeInMarketPct, economics, none, none, .thin⟩
  let risk ← riskProfile returnFractions
  let statistics ← pathStatistics returnFractions risk economics
  let sample ← effectiveSampleOrNone returnFractions
  let timeInMarketPct ← path.timeInMarketPctInRegime regime
  return ⟨regime, returnFractions.length, timeInMarketPct, economics, some risk, some statistics,
    coverageOf sample⟩

/-- Every regime of the path, in sorted label order. -/
def regimeBreakdown (path : EquityPath) : PyResult (List RegimeSlice) :=
  path.regimes.mapM fun regime => regimeSlice path regime

/-! ### The report -/

/-- The money of record. -/
structure LedgerTotals where
  startingEquityUsd : Decimal
  endingEquityUsd : Decimal
  realisedPnlUsd : Decimal
  feePaidUsd : Decimal
  fundingPaidUsd : Decimal
  fillCount : ℕ

/-- What qualifies every number that follows it. -/
structure Credibility where
  observationCount : ℕ
  effectiveSample : Option EffectiveSample
  timeInMarketPct : Decimal
  fillCount : ℕ
  riskLimitBreachCount : ℤ
  thinRegimes : List String

/-- Derived from the breach counter. -/
def Credibility.isClean (self : Credibility) : Bool := self.riskLimitBreachCount = 0

structure PortfolioReport where
  credibility : Credibility
  ledger : LedgerTotals
  economics : PathEconomics
  risk : RiskProfile
  statistics : PathStatistics
  regimes : List RegimeSlice

namespace PortfolioReport

variable (self : PortfolioReport)

def isClean : Bool := self.credibility.isClean

/-- The fields of the evidence, once every statistic it needs exists. -/
def evidenceFields (trialsAtTimeOfRun : ℤ) (sharpeVarianceAcrossTrials : ℝ) :
    PyResult SharpeEvidenceFields :=
  match self.statistics.effectiveSample with
  | none => raise .metricInput
      ["the path is too short to estimate an effective sample size, and the raw observation count is ",
        "never substituted for it"]
  | some sample =>
    match self.statistics.sharpeRatio, self.statistics.skewness, self.statistics.kurtosis with
    | some sharpeRatio, some skewness, some kurtosis => .ok
        { observedSharpe := sharpeRatio
          trialsAtTimeOfRun := trialsAtTimeOfRun
          independentEpisodeCount := sample.episodeCount
          skewness := skewness
          kurtosis := kurtosis
          sharpeVarianceAcrossTrials := sharpeVarianceAcrossTrials }
    | _, _, _ => raise .metricInput
        ["the path has no return variation, so its Sharpe and its moments do not exist; there is nothing ",
          "here to deflate"]

/-- Hand the path's Sharpe to the overfitting gate; a breached run is refused. -/
def sharpeEvidence (trialsAtTimeOfRun : ℤ) (sharpeVarianceAcrossTrials : ℝ) :
    PyResult SharpeEvidence := do
  raiseIf (¬ self.isClean) .riskLimitBreached
    ["the run breached a risk limit ", .count self.credibility.riskLimitBreachCount, " time(s); its ",
      "Sharpe is not evidence and does not reach the validation gate"]
  let fields ← self.evidenceFields trialsAtTimeOfRun sharpeVarianceAcrossTrials
  construct SharpeEvidenceFields.validate SharpeEvidence.mk fields

end PortfolioReport

/-- Return the report, or refuse it if the run breached a risk limit. -/
def requireCleanResult (report : PortfolioReport) : PyResult PortfolioReport := do
  raiseIf (¬ report.isClean) .riskLimitBreached
    ["the run breached a risk limit ", .count report.credibility.riskLimitBreachCount,
      " time(s) and cannot be reported as a clean result"]
  return report

/-- The whole suite, from a daily equity path and the state that produced it. -/
def assembleReport (path : EquityPath) (finalState : PortfolioState) : PyResult PortfolioReport := do
  let returnFractions := path.dailyReturnFractions
  let economics ← pathEconomics returnFractions
  let risk ← riskProfile returnFractions
  let statistics ← pathStatistics returnFractions risk economics
  let regimes ← regimeBreakdown path
  return {
    credibility := {
      observationCount := path.observationCount
      effectiveSample := statistics.effectiveSample
      timeInMarketPct := path.timeInMarketPct
      fillCount := finalState.fillCount
      riskLimitBreachCount := finalState.riskLimitBreachCount
      thinRegimes := (regimes.filter fun bucket => bucket.regimeCoverage = .thin).map
        RegimeSlice.regime }
    ledger := {
      startingEquityUsd := path.startingEquityUsd
      endingEquityUsd := path.endingEquityUsd
      realisedPnlUsd := finalState.realisedPnlUsd
      feePaidUsd := finalState.feePaidUsd
      fundingPaidUsd := finalState.fundingPaidUsd
      fillCount := finalState.fillCount }
    economics := economics
    risk := risk
    statistics := statistics
    regimes := regimes }

end

/-! ### When a report and its evidence exist -/

theorem pathEconomics_ok {returnFractions : List Decimal} (h : returnFractions ≠ []) :
    ∃ economics, pathEconomics returnFractions = .ok economics := by
  rw [pathEconomics, raiseIf, if_neg h]
  exact ⟨_, rfl⟩

theorem riskProfile_ok {returnFractions : List Decimal}
    (h : minObservationsForDispersion ≤ returnFractions.length) :
    ∃ risk, riskProfile returnFractions = .ok risk := by
  rw [riskProfile, requireDispersionSample_eq_ok.mpr ⟨h, rfl⟩]
  exact ⟨_, rfl⟩

/-- Every regime the path names has a slice, short or not. -/
theorem regimeSlice_ok {path : EquityPath} {regime : String} (h : regime ∈ path.regimes) :
    ∃ bucket, regimeSlice path regime = .ok bucket := by
  obtain ⟨economics, heconomics⟩ := pathEconomics_ok (path.returnsInRegime_ne_nil h)
  obtain ⟨pct, hpct⟩ := path.timeInMarketPctInRegime_ok h
  rw [regimeSlice]
  by_cases hlength : (path.returnsInRegime regime).length < minObservationsForDispersion
  · simp only [if_pos hlength, bind_eq_ok, pure_eq_ok]
    exact ⟨_, economics, heconomics, pct, hpct, rfl⟩
  · obtain ⟨risk, hrisk⟩ := riskProfile_ok (not_lt.mp hlength)
    obtain ⟨statistics, hstatistics⟩ := pathStatistics_ok (not_lt.mp hlength) risk economics
    simp only [if_neg hlength, bind_eq_ok, pure_eq_ok]
    exact ⟨_, economics, heconomics, risk, hrisk, statistics, hstatistics, _,
      effectiveSampleOrNone_eq _, pct, hpct, rfl⟩

/-- A path of two daily returns or more has a report, with the breaches its final state counted. -/
theorem assembleReport_ok (path : EquityPath) (finalState : PortfolioState)
    (h : minObservationsForDispersion ≤ path.dailyReturnFractions.length) :
    ∃ report, assembleReport path finalState = .ok report ∧
      report.credibility.riskLimitBreachCount = finalState.riskLimitBreachCount := by
  have hreturns : path.dailyReturnFractions ≠ [] :=
    List.length_pos_iff.mp (zero_lt_two.trans_le h)
  obtain ⟨economics, heconomics⟩ := pathEconomics_ok hreturns
  obtain ⟨risk, hrisk⟩ := riskProfile_ok h
  obtain ⟨statistics, hstatistics⟩ := pathStatistics_ok h risk economics
  obtain ⟨regimes, hregimes, _⟩ := exists_mapM (fun _ _ => True) fun regime hregime =>
    (regimeSlice_ok hregime).imp fun _ hbucket => ⟨hbucket, trivial⟩
  simp only [assembleReport, bind_eq_ok, pure_eq_ok]
  exact ⟨_, ⟨economics, heconomics, risk, hrisk, statistics, hstatistics, regimes, hregimes, rfl⟩, rfl⟩

end FinanceKing.Backtest.Report
