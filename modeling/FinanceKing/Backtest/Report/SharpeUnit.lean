import FinanceKing.Backtest.Report.Report

/-! The unit of the Sharpe the overfitting gate is handed. The report annualises its ratio and takes its
    t-statistic per day, and the gate reads the ratio as per episode. -/

namespace FinanceKing.Backtest.Report

open Lib

/-! ### What the evidence is made of -/

theorem ratioOrNone_of_pos {numerator denominator : ℝ} (h : 0 < denominator) :
    ratioOrNone numerator denominator = some (numerator / denominator) :=
  if_neg (not_le.mpr h)

theorem ratioOrNone_eq_some {numerator denominator ratio : ℝ}
    (h : ratioOrNone numerator denominator = some ratio) :
    0 < denominator ∧ ratio = numerator / denominator := by
  rw [ratioOrNone] at h
  split at h
  · cases h
  · next hpositive => exact ⟨not_le.mp hpositive, (Option.some.inj h).symm⟩

/-- Evidence carries the report's ratio and the floor of its effective sample. -/
theorem sharpeEvidence_eq_ok {report : PortfolioReport} {trials : ℤ} {variance : ℝ}
    {evidence : SharpeEvidence} (h : report.sharpeEvidence trials variance = .ok evidence) :
    ∃ sample, report.statistics.effectiveSample = some sample ∧
      report.statistics.sharpeRatio = some evidence.observedSharpe ∧
      evidence.independentEpisodeCount = sample.episodeCount ∧ 2 ≤ sample.episodeCount := by
  simp only [PortfolioReport.sharpeEvidence, bind_eq_ok] at h
  obtain ⟨_, _, fields, hfields, hevidence⟩ := h
  obtain ⟨hchecked, rfl⟩ := construct_eq_ok hevidence
  simp only [SharpeEvidenceFields.validate, bind_eq_ok, raiseIf_eq_ok, not_lt, not_le] at hchecked
  obtain ⟨_, _, _, hepisodes, _⟩ := hchecked
  rw [PortfolioReport.evidenceFields] at hfields
  split at hfields
  · exact absurd hfields raise_ne_ok
  · next sample hsample =>
    split at hfields
    · next hsharpe _ _ =>
      obtain rfl := Except.ok.inj hfields
      exact ⟨sample, hsample, hsharpe, rfl, hepisodes⟩
    · exact absurd hfields raise_ne_ok

/-- A report's statistics are those of its path. -/
theorem assembleReport_eq_ok {path : EquityPath} {finalState : PortfolioState} {report : PortfolioReport}
    (h : assembleReport path finalState = .ok report) :
    2 ≤ path.dailyReturnFractions.length ∧ ∃ risk economics,
      pathStatistics path.dailyReturnFractions risk economics = .ok report.statistics := by
  simp only [assembleReport, bind_eq_ok, pure_eq_ok] at h
  obtain ⟨economics, _, risk, hrisk, statistics, hstatistics, _, _, rfl⟩ := h
  simp only [riskProfile, bind_eq_ok, requireDispersionSample_eq_ok] at hrisk
  obtain ⟨_, ⟨hlength, _⟩, _⟩ := hrisk
  exact ⟨hlength, risk, economics, hstatistics⟩

/-- A clean report hands over the evidence its statistics make. -/
theorem sharpeEvidence_ok {report : PortfolioReport} {sample : EffectiveSample}
    {sharpeRatio skewness kurtosis variance : ℝ} {trials : ℤ}
    (hclean : report.credibility.riskLimitBreachCount = 0)
    (hsample : report.statistics.effectiveSample = some sample)
    (hsharpe : report.statistics.sharpeRatio = some sharpeRatio)
    (hskewness : report.statistics.skewness = some skewness)
    (hkurtosis : report.statistics.kurtosis = some kurtosis)
    (hepisodes : 2 ≤ sample.episodeCount) (htrials : 1 ≤ trials) (hvariance : 0 < variance) :
    ∃ evidence, report.sharpeEvidence trials variance = .ok evidence := by
  have hisClean : report.isClean := decide_eq_true hclean
  have hchecked : SharpeEvidenceFields.validate
      ⟨sharpeRatio, trials, sample.episodeCount, skewness, kurtosis, variance⟩ = .ok () := by
    simp only [SharpeEvidenceFields.validate, bind_eq_ok, raiseIf_eq_ok, not_lt, not_le]
    exact ⟨(), htrials, (), hepisodes, hvariance⟩
  have hfields : report.evidenceFields trials variance =
      .ok ⟨sharpeRatio, trials, sample.episodeCount, skewness, kurtosis, variance⟩ := by
    rw [PortfolioReport.evidenceFields, hsample, hsharpe, hskewness, hkurtosis]
  refine ⟨⟨_, hchecked⟩, ?_⟩
  simp only [PortfolioReport.sharpeEvidence, bind_eq_ok, raiseIf_eq_ok]
  exact ⟨(), not_not_intro hisClean, _, hfields, construct_ok hchecked⟩

/-- A clean path whose returns vary over two independent episodes or more has evidence. -/
theorem exists_evidence {path : EquityPath} {finalState : PortfolioState} {sample : EffectiveSample}
    {trials : ℤ} {variance : ℝ} (hclean : finalState.riskLimitBreachCount = 0)
    (hvaries : 0 < powerSum 2 (floatSeries path.dailyReturnFractions))
    (hsample : effectiveSampleOrNone path.dailyReturnFractions = .ok (some sample))
    (hepisodes : 2 ≤ sample.episodeCount) (htrials : 1 ≤ trials) (hvariance : 0 < variance) :
    ∃ report evidence, assembleReport path finalState = .ok report ∧
      report.sharpeEvidence trials variance = .ok evidence := by
  have hlength : 2 ≤ path.dailyReturnFractions.length :=
    (Nat.le_add_right 2 6).trans (effectiveSampleOrNone_length hsample)
  have hseries : 2 ≤ (floatSeries path.dailyReturnFractions).length := by
    rw [floatSeries_length]
    exact hlength
  obtain ⟨report, hreport, hbreaches⟩ := assembleReport_ok path finalState hlength
  obtain ⟨_, risk, economics, hstatistics⟩ := assembleReport_eq_ok hreport
  obtain ⟨hsharpe, hreported, _, hskewness, hkurtosis⟩ := pathStatistics_eq_ok hstatistics
  rw [ratioOrNone_of_pos (Real.sqrt_pos.mpr (sampleVariance_pos hseries hvaries))] at hsharpe
  have hmoment : 0 < centralMoment 2 (floatSeries path.dailyReturnFractions) :=
    centralMoment_two_pos (List.length_pos_iff.mp (zero_lt_two.trans_le hseries)) hvaries
  rw [standardisedMoment, if_pos hmoment] at hskewness hkurtosis
  obtain ⟨evidence, hevidence⟩ := sharpeEvidence_ok (hbreaches.trans hclean)
    (Except.ok.inj (hreported.symm.trans hsample)) hsharpe hskewness hkurtosis hepisodes htrials hvariance
  exact ⟨report, evidence, hreport, hevidence⟩

/-! ### Units -/

noncomputable section

/-- The report's own t-statistic as the gate would test it: corrected for the count, over the moment term. -/
def SharpeEvidence.ownStatistic (evidence : SharpeEvidence) (sample : EffectiveSample) (t : ℝ) : ℝ :=
  t * √(((evidence.independentEpisodeCount : ℝ) - 1) / sample.nEff) / √evidence.varianceTerm

end

theorem sqrt_annualisationDays_gt_one : 1 < √(annualisationDays : ℝ) := by
  rw [Real.lt_sqrt zero_le_one]
  norm_num [annualisationDays]

/-- A multiple by the root of the year is the number itself only at zero. -/
theorem annualised_eq_self_iff {x : ℝ} : √(annualisationDays : ℝ) * x = x ↔ x = 0 := by
  have hyear := sqrt_annualisationDays_gt_one
  constructor
  · intro h
    have hzero : (√(annualisationDays : ℝ) - 1) * x = 0 := by linarith
    exact (mul_eq_zero.mp hzero).resolve_left (by linarith)
  · rintro rfl
    exact mul_zero _

theorem floatSeries_sum (returnFractions : List Decimal) :
    (floatSeries returnFractions).sum = (returnFractions.sum : Decimal) := by
  rw [floatSeries, Rat.cast_list_sum]

/-- The evidence of a report against its own t-statistic. -/
structure EvidenceUnit (path : EquityPath) (evidence : SharpeEvidence) (sample : EffectiveSample) (t : ℝ) :
    Prop where
  scaled : evidence.observedSharpe * √sample.nEff = √annualisationDays * t
  unit : evidence.observedSharpe * √sample.nEff = t ↔ path.dailyReturnFractions.sum = 0
  deflated : evidence.trialsAtTimeOfRun = 1 → ∀ probability,
    evidence.deflatedSharpeRatio = .ok probability →
    probability = normalCdf (√annualisationDays * evidence.ownStatistic sample t)
  tested : 0 < evidence.varianceTerm →
    (evidence.statistic 0 = evidence.ownStatistic sample t ↔ path.dailyReturnFractions.sum = 0)

theorem evidenceUnit_of_ratios {path : EquityPath} {evidence : SharpeEvidence} {sample : EffectiveSample}
    {mean deviation t : ℝ} (hdeviation : 0 < deviation) (hsample : 0 < sample.nEff)
    (hepisodes : 2 ≤ evidence.independentEpisodeCount)
    (hsharpe : evidence.observedSharpe = mean * √annualisationDays / deviation)
    (ht : t = mean * √sample.nEff / deviation)
    (hmean : mean = 0 ↔ path.dailyReturnFractions.sum = 0) : EvidenceUnit path evidence sample t := by
  have hroot : 0 < √sample.nEff := Real.sqrt_pos.mpr hsample
  have hzero : t = 0 ↔ mean = 0 := by
    rw [ht, div_eq_zero_iff, mul_eq_zero, or_iff_left hdeviation.ne', or_iff_left hroot.ne']
  have hscaled : evidence.observedSharpe * √sample.nEff = √annualisationDays * t := by
    rw [hsharpe, ht]
    ring
  have hstatistic : evidence.statistic 0 = √annualisationDays * evidence.ownStatistic sample t := by
    have hobserved : evidence.observedSharpe = √annualisationDays * t / √sample.nEff := by
      rw [← hscaled, mul_div_cancel_right₀ _ hroot.ne']
    rw [SharpeEvidence.statistic, SharpeEvidence.ownStatistic, sub_zero,
      Real.sqrt_div' _ hsample.le, hobserved]
    ring
  refine ⟨hscaled, ?_, ?_, ?_⟩
  · rw [hscaled, annualised_eq_self_iff, hzero, hmean]
  · intro htrials probability hprobability
    simp only [SharpeEvidence.deflatedSharpeRatio, expectedMaxSharpe, htrials, bind_eq_ok,
      pure_eq_ok, if_true] at hprobability
    obtain ⟨benchmark, ⟨_, _, _, _, rfl⟩, _, _, rfl⟩ := hprobability
    rw [hstatistic]
  · intro hterm
    have hcorrection : 0 < √(((evidence.independentEpisodeCount : ℝ) - 1) / sample.nEff) := by
      have hcast : (2 : ℝ) ≤ evidence.independentEpisodeCount := by exact_mod_cast hepisodes
      exact Real.sqrt_pos.mpr (div_pos (by linarith) hsample)
    rw [hstatistic, annualised_eq_self_iff, SharpeEvidence.ownStatistic, div_eq_zero_iff, mul_eq_zero,
      or_iff_left (Real.sqrt_pos.mpr hterm).ne', or_iff_left hcorrection.ne', hzero, hmean]

/-- The evidence of any report is in the unit of its t-statistic exactly when its mean return is zero. -/
theorem evidenceUnit {path : EquityPath} {finalState : PortfolioState} {report : PortfolioReport}
    {trials : ℤ} {variance : ℝ} {evidence : SharpeEvidence}
    (hreport : assembleReport path finalState = .ok report)
    (hevidence : report.sharpeEvidence trials variance = .ok evidence) :
    ∃ sample t, report.statistics.effectiveSample = some sample ∧
      report.statistics.sharpeTStatistic = some t ∧ EvidenceUnit path evidence sample t := by
  obtain ⟨hlength, risk, economics, hstatistics⟩ := assembleReport_eq_ok hreport
  obtain ⟨hsharpe, hsample, ht, _⟩ := pathStatistics_eq_ok hstatistics
  obtain ⟨sample, hsome, hobserved, hepisodes, htwo⟩ := sharpeEvidence_eq_ok hevidence
  rw [hsome] at hsample
  rw [hobserved] at hsharpe ht
  obtain ⟨hdeviation, hratio⟩ := ratioOrNone_eq_some hsharpe.symm
  have hseries : floatSeries path.dailyReturnFractions ≠ [] := by
    rw [← List.length_pos_iff, floatSeries_length]
    exact zero_lt_two.trans_le hlength
  have hmean : sampleMean (floatSeries path.dailyReturnFractions) = 0 ↔
      path.dailyReturnFractions.sum = 0 := by
    rw [sampleMean_eq_zero_iff hseries, floatSeries_sum, Rat.cast_eq_zero]
  have htvalue : report.statistics.sharpeTStatistic =
      some (sampleMean (floatSeries path.dailyReturnFractions) * √sample.nEff /
        √(sampleVariance (floatSeries path.dailyReturnFractions))) := by
    rw [ht, hsome]
    exact ratioOrNone_of_pos hdeviation
  exact ⟨sample, _, hsome, htvalue, evidenceUnit_of_ratios hdeviation
    (effectiveSampleOrNone_pos hsample) (hepisodes ▸ htwo) hratio rfl hmean⟩

/-- Every Sharpe handed to the gate, against the t-statistic of the report it comes from. -/
def SharpeUnit (path : EquityPath) (finalState : PortfolioState) : Prop :=
  ∀ report trials variance evidence, assembleReport path finalState = .ok report →
    report.sharpeEvidence trials variance = .ok evidence →
    ∃ sample t, report.statistics.effectiveSample = some sample ∧
      report.statistics.sharpeTStatistic = some t ∧ EvidenceUnit path evidence sample t

/-- The gate tests a path at the root of the year times its own t-statistic. -/
theorem sharpe_unit (path : EquityPath) (finalState : PortfolioState) : SharpeUnit path finalState :=
  fun _ _ _ _ hreport hevidence => evidenceUnit hreport hevidence

/-! ### One good day -/

/-- The equity of a day on the grid. -/
def gridPoint (day : ℤ) (equityUsd : Decimal)
    (h : (EquityPointFields.mk (day * oneDay) equityUsd true "calm").postInit = .ok ()) : EquityPoint :=
  ⟨⟨day * oneDay, equityUsd, true, "calm"⟩, h⟩

/-- An equity that doubles on the first of eight days. -/
def oneGoodDay : EquityPath where
  points := [gridPoint 0 1 (by decide +kernel), gridPoint 1 2 (by decide +kernel),
    gridPoint 2 2 (by decide +kernel), gridPoint 3 2 (by decide +kernel), gridPoint 4 2 (by decide +kernel),
    gridPoint 5 2 (by decide +kernel), gridPoint 6 2 (by decide +kernel), gridPoint 7 2 (by decide +kernel),
    gridPoint 8 2 (by decide +kernel)]
  checked := by decide +kernel

/-- The books of a run that ended in cash. -/
def cashOnly : PortfolioState where
  asOfUtc := 0
  quoteCashUsd := 2
  positions := Dict.empty
  appliedFillIds := ∅
  appliedFundingKeys := ∅
  fundingPaidUsd := 0
  riskLimitBreachCount := 0
  checked := by decide +kernel

theorem oneGoodDay_returns : oneGoodDay.dailyReturnFractions = [1, 0, 0, 0, 0, 0, 0, 0] := by
  with_unfolding_all decide

theorem oneGoodDay_series : floatSeries oneGoodDay.dailyReturnFractions = [1, 0, 0, 0, 0, 0, 0, 0] := by
  simp [floatSeries, oneGoodDay_returns]

theorem oneGoodDay_deviations : deviations (floatSeries oneGoodDay.dailyReturnFractions) =
    [7 / 8, -1 / 8, -1 / 8, -1 / 8, -1 / 8, -1 / 8, -1 / 8, -1 / 8] := by
  rw [oneGoodDay_series]
  norm_num [deviations, sampleMean]

theorem oneGoodDay_varies : powerSum 2 (floatSeries oneGoodDay.dailyReturnFractions) = 7 / 8 := by
  rw [powerSum, oneGoodDay_deviations]
  norm_num

/-- The days after the good one are as good as independent of it. -/
theorem oneGoodDay_nEff : (correctedSample (floatSeries oneGoodDay.dailyReturnFractions)).nEff = 8 := by
  have hlag : autocovariance (floatSeries oneGoodDay.dailyReturnFractions) 1 = -1 / 64 := by
    rw [autocovariance, oneGoodDay_deviations]
    norm_num
  have hlength : (floatSeries oneGoodDay.dailyReturnFractions).length = 8 := by
    rw [oneGoodDay_series]
    rfl
  have hband : |(-1 / 64 : ℝ) / (7 / 8)| ≤ significanceZ / √(8 : ℕ) := by
    have hroot : √((8 : ℕ) : ℝ) ≤ 3 := Real.sqrt_le_iff.mpr ⟨by norm_num, by norm_num⟩
    have hcorrelation : |(-1 / 64 : ℝ) / (7 / 8)| = 1 / 56 := by
      rw [abs_of_neg (by norm_num)]
      norm_num
    rw [hcorrelation, le_div_iff₀ (Real.sqrt_pos.mpr (by norm_num))]
    calc 1 / 56 * √((8 : ℕ) : ℝ) ≤ 1 / 56 * 3 := mul_le_mul_of_nonneg_left hroot (by norm_num)
      _ ≤ significanceZ := by norm_num [significanceZ]
  have hlags : List.range' 1 (max 1 (8 / maxLagFraction)) = [1, 2] := by decide
  simp only [correctedSample, hlength, hlags, examineLags, hlag, oneGoodDay_varies, if_pos hband]
  norm_num

/-- An observed Sharpe of several times its report's own t-statistic. -/
theorem one_good_day_is_annualised : ∃ report evidence sample t,
    assembleReport oneGoodDay cashOnly = .ok report ∧ report.sharpeEvidence 1 1 = .ok evidence ∧
    report.statistics.effectiveSample = some sample ∧ report.statistics.sharpeTStatistic = some t ∧
    evidence.observedSharpe * √sample.nEff ≠ t := by
  have hvaries : 0 < powerSum 2 (floatSeries oneGoodDay.dailyReturnFractions) := by
    rw [oneGoodDay_varies]
    norm_num
  have hlength : ¬ oneGoodDay.dailyReturnFractions.length < minObservationsForEffectiveSample := by
    decide +kernel
  have hsample := effectiveSampleOrNone_eq oneGoodDay.dailyReturnFractions
  rw [if_neg hlength, if_neg hvaries.ne'] at hsample
  have hepisodes : 2 ≤ (correctedSample (floatSeries oneGoodDay.dailyReturnFractions)).episodeCount := by
    rw [EffectiveSample.episodeCount, oneGoodDay_nEff]
    norm_num
  obtain ⟨report, evidence, hreport, hevidence⟩ := exists_evidence
    (show cashOnly.riskLimitBreachCount = 0 from rfl) hvaries hsample hepisodes le_rfl zero_lt_one
  obtain ⟨sample, t, hsome, ht, hunit⟩ := evidenceUnit hreport hevidence
  refine ⟨report, evidence, sample, t, hreport, hevidence, hsome, ht, fun heq => ?_⟩
  have hsum : oneGoodDay.dailyReturnFractions.sum = 0 := hunit.unit.mp heq
  rw [oneGoodDay_returns] at hsum
  norm_num at hsum

end FinanceKing.Backtest.Report
