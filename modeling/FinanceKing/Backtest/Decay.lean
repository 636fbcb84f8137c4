import FinanceKing.Backtest.WalkForward
import FinanceKing.Lib.LeastSquares
import FinanceKing.Lib.Rounding
import FinanceKing.Lib.SortBy

/-! Out-of-sample decay: the slope of an observation's Sharpe against its distance from the fit that produced
    it. The reported line is the one of least squared error. -/

namespace FinanceKing.Backtest

open Lib

/-! ### The code -/

/-- The reporting unit, in days of distance. -/
def decayReportDays : Decimal := 30

def secondsPerDay : Decimal := 86400

def minimumObservations : ℕ := 2

structure OutOfSampleObservationFields where
  foldIndex : ℤ
  observedFromUtc : DateTime
  observedToUtc : DateTime
  sharpeRatio : Decimal
  deriving DecidableEq

def OutOfSampleObservationFields.postInit (self : OutOfSampleObservationFields) : PyResult Unit := do
  raiseIf (self.foldIndex < 0) .decayReport ["fold_index must not be negative; got ", .count self.foldIndex]
  raiseIf (self.observedToUtc ≤ self.observedFromUtc) .decayReport
    ["fold ", .count self.foldIndex, ": observation window is empty (", .instant self.observedFromUtc, " .. ",
      .instant self.observedToUtc, ")"]

/-- One Sharpe estimate over one sub-window of a fold's test period. -/
structure OutOfSampleObservation extends OutOfSampleObservationFields where
  checked : toOutOfSampleObservationFields.postInit = .ok ()
  deriving DecidableEq

/-- The instant the distance is measured from; halving a `timedelta` rounds to even. -/
def OutOfSampleObservation.midpointUtc (self : OutOfSampleObservation) : DateTime :=
  self.observedFromUtc + roundHalfEven (((self.observedToUtc - self.observedFromUtc : ℤ) : ℚ) / 2)

/-- One distance and one Sharpe, with the fold they came from. -/
structure DecayPoint where
  foldIndex : ℤ
  distanceDays : Decimal
  sharpeRatio : Decimal
  deriving DecidableEq

structure DecayReport where
  sharpePer30Days : Decimal
  interceptSharpe : Decimal
  points : List DecayPoint
  deriving DecidableEq

/-- Days between two instants, through the days, seconds and microseconds of the `timedelta`. -/
def daysBetween (earlier later : DateTime) : Decimal :=
  let span : TimeDelta := later - earlier
  let days := span / 86400000000
  let seconds := span % 86400000000 / 1000000
  let microseconds := span % 1000000
  ((days : Decimal) * secondsPerDay + seconds + (microseconds : Decimal) / 1000000) / secondsPerDay

/-- The fold with this index, or a refusal naming what was asked for. -/
def foldByIndex (folds : List Fold) (foldIndex : ℤ) : PyResult Fold :=
  match folds.find? fun fold => (fold.foldIndex : ℤ) = foldIndex with
  | some fold => .ok fold
  | none => raise .walkForwardConfig ["no fold with index ", .count foldIndex, "; the schedule holds ",
      .texts ((sortBy id (folds.map (·.foldIndex))).map toString)]

/-- The distance of one observation from the fit of the fold it names. -/
def decayPoint (folds : List Fold) (observation : OutOfSampleObservation) : PyResult DecayPoint := do
  let fold ← foldByIndex folds observation.foldIndex
  raiseIf (observation.observedFromUtc < fold.testStartUtc) .decayReport
    ["fold ", .count fold.foldIndex, ": observation opens at ", .instant observation.observedFromUtc,
      ", before the test window at ", .instant fold.testStartUtc,
      "; that is in-sample performance reported as out-of-sample"]
  raiseIf (fold.testEndUtc < observation.observedToUtc) .decayReport
    ["fold ", .count fold.foldIndex, ": observation closes at ", .instant observation.observedToUtc,
      ", after the test window at ", .instant fold.testEndUtc]
  return ⟨fold.foldIndex, daysBetween fold.trainEndUtc observation.midpointUtc, observation.sharpeRatio⟩

/-- Attach each observation to its fold and measure its distance from that fit. -/
def decayPoints (folds : List Fold) (observations : List OutOfSampleObservation) : PyResult (List DecayPoint) :=
  observations.mapM (decayPoint folds)

/-- Ordinary least squares of Sharpe on distance, reported per 30 days. -/
def fitDecay (points : List DecayPoint) : PyResult DecayReport := do
  raiseIf (points.length < minimumObservations) .decayReport
    ["a decay slope needs at least ", .count minimumObservations, " observations; got ", .count points.length]
  let observationTotal : Decimal := points.length
  let meanDistance := (points.map (·.distanceDays)).sum / observationTotal
  let meanSharpe := (points.map (·.sharpeRatio)).sum / observationTotal
  let (covariance, variance) := points.foldl (fun (covariance, variance) point =>
    let centredDistance := point.distanceDays - meanDistance
    (covariance + centredDistance * (point.sharpeRatio - meanSharpe),
      variance + centredDistance * centredDistance)) ((0, 0) : Decimal × Decimal)
  raiseIf (variance = 0) .decayReport
    ["all ", .count points.length, " observations sit at distance ", .decimal meanDistance,
      " days, so no slope exists; score sub-windows of each test period rather than each fold as a whole"]
  let slopePerDay := covariance / variance
  return ⟨slopePerDay * decayReportDays, meanSharpe - slopePerDay * meanDistance, points⟩

/-- Attach observations to folds, then fit. -/
def decayReport (folds : List Fold) (observations : List OutOfSampleObservation) : PyResult DecayReport := do
  let points ← decayPoints folds observations
  fitDecay points

/-! ### Distances -/

theorem daysBetween_eq (earlier later : DateTime) :
    daysBetween earlier later = ((later - earlier : ℤ) : Decimal) / 86400000000 := by
  rw [daysBetween, secondsPerDay]
  generalize later - earlier = span
  have hsplit : ∀ n : ℤ, n / 86400000000 * 86400000000 + n % 86400000000 / 1000000 * 1000000 + n % 1000000 = n := by
    omega
  have hcast : ((span / 86400000000 : ℤ) : Decimal) * 86400000000 +
      (span % 86400000000 / 1000000 : ℤ) * 1000000 + (span % 1000000 : ℤ) = span := by
    exact_mod_cast hsplit span
  rw [← hcast]
  ring

/-- The midpoint of an observation lies in its window. -/
theorem OutOfSampleObservation.midpointUtc_mem (self : OutOfSampleObservation) :
    self.observedFromUtc ≤ self.midpointUtc ∧ self.midpointUtc ≤ self.observedToUtc := by
  have h := self.checked
  simp only [OutOfSampleObservationFields.postInit, bind_eq_ok, raiseIf_eq_ok, not_le, not_lt] at h
  obtain ⟨_, _, hwindow⟩ := h
  have hspan : (0 : ℚ) ≤ ((self.observedToUtc - self.observedFromUtc : ℤ) : ℚ) :=
    Int.cast_nonneg (Int.sub_nonneg_of_le hwindow.le)
  have hlow : 0 ≤ roundHalfEven (((self.observedToUtc - self.observedFromUtc : ℤ) : ℚ) / 2) :=
    roundHalfEven_nonneg (div_nonneg hspan zero_le_two)
  have hhigh : roundHalfEven (((self.observedToUtc - self.observedFromUtc : ℤ) : ℚ) / 2) ≤
      self.observedToUtc - self.observedFromUtc := by
    have hmono := roundHalfEven_mono (half_le_self hspan)
    rwa [roundHalfEven_intCast] at hmono
  exact ⟨le_add_of_nonneg_right hlow, by rw [midpointUtc]; linarith⟩

/-- Every measured observation lies after the fit of its fold. -/
theorem decayPoint_distance_pos {folds : List Fold} {observation : OutOfSampleObservation} {point : DecayPoint}
    (h : decayPoint folds observation = .ok point) : 0 < point.distanceDays := by
  simp only [decayPoint, bind_eq_ok, raiseIf_eq_ok, pure_eq_ok, not_lt] at h
  obtain ⟨fold, _, _, hopens, _, _, rfl⟩ := h
  have hfold := fold.checked
  simp only [FoldFields.postInit, bind_eq_ok, raiseIf_eq_ok, not_le] at hfold
  obtain ⟨_, _, _, _, hgap⟩ := hfold
  have hafter : (0 : ℤ) < observation.midpointUtc - fold.trainEndUtc := by
    have hmidpoint := observation.midpointUtc_mem.1
    linarith
  have hcast : (0 : Decimal) < ((observation.midpointUtc - fold.trainEndUtc : ℤ) : Decimal) := by
    exact_mod_cast hafter
  rw [daysBetween_eq]
  positivity

theorem decayPoints_distance_pos {folds : List Fold} {observations : List OutOfSampleObservation}
    {points : List DecayPoint} (h : decayPoints folds observations = .ok points) :
    ∀ point ∈ points, 0 < point.distanceDays := by
  intro point hpoint
  obtain ⟨observation, _, hobservation⟩ := exists_left_of_forall₂ (mapM_eq_ok_iff.mp h) hpoint
  exact decayPoint_distance_pos hobservation

/-! ### The fitted line -/

/-- The loop sums both products of deviations. -/
theorem foldl_products (f g : DecayPoint → Decimal) (points : List DecayPoint) (covariance variance : Decimal) :
    points.foldl (fun (covariance, variance) point =>
        (covariance + f point * g point, variance + f point * f point)) (covariance, variance) =
      (covariance + (points.map fun point => f point * g point).sum,
        variance + (points.map fun point => f point * f point).sum) := by
  induction points generalizing covariance variance with
  | nil => simp
  | cons point points ih =>
    rw [List.foldl_cons, ih, List.map_cons, List.map_cons, List.sum_cons, List.sum_cons, add_assoc, add_assoc]

/-- What the code fits, with its sums read as sums. -/
theorem fitDecay_eq (points : List DecayPoint) : fitDecay points = (do
    raiseIf (points.length < minimumObservations) .decayReport
      ["a decay slope needs at least ", .count minimumObservations, " observations; got ", .count points.length]
    raiseIf (codeviation DecayPoint.distanceDays DecayPoint.distanceDays points = 0) .decayReport
      ["all ", .count points.length, " observations sit at distance ",
        .decimal (listMean DecayPoint.distanceDays points),
        " days, so no slope exists; score sub-windows of each test period rather than each fold as a whole"]
    let slopePerDay := codeviation DecayPoint.distanceDays DecayPoint.sharpeRatio points /
      codeviation DecayPoint.distanceDays DecayPoint.distanceDays points
    return ⟨slopePerDay * decayReportDays, listMean DecayPoint.sharpeRatio points -
      slopePerDay * listMean DecayPoint.distanceDays points, points⟩) := by
  simp only [fitDecay, codeviation, listMean]
  rw [foldl_products (fun point => point.distanceDays - (points.map DecayPoint.distanceDays).sum / points.length)
    (fun point => point.sharpeRatio - (points.map DecayPoint.sharpeRatio).sum / points.length), zero_add, zero_add]
  rfl

/-- Whether every observation sits at one distance. -/
def AllAtOneDistance (points : List DecayPoint) : Prop :=
  ∀ p ∈ points, ∀ q ∈ points, p.distanceDays = q.distanceDays

theorem fitDecay_eq_ok {points : List DecayPoint} {report : DecayReport} : fitDecay points = .ok report ↔
    minimumObservations ≤ points.length ∧ ¬ AllAtOneDistance points ∧
      report = ⟨codeviation DecayPoint.distanceDays DecayPoint.sharpeRatio points /
          codeviation DecayPoint.distanceDays DecayPoint.distanceDays points * decayReportDays,
        listMean DecayPoint.sharpeRatio points -
          codeviation DecayPoint.distanceDays DecayPoint.sharpeRatio points /
            codeviation DecayPoint.distanceDays DecayPoint.distanceDays points *
              listMean DecayPoint.distanceDays points, points⟩ := by
  simp only [fitDecay_eq, bind_eq_ok, raiseIf_eq_ok, pure_eq_ok, Unique.exists_iff, not_lt]
  constructor
  · rintro ⟨hlength, hvariance, rfl⟩
    have hne : points ≠ [] := List.ne_nil_of_length_pos (lt_of_lt_of_le (by decide) hlength)
    exact ⟨hlength, fun hone => hvariance ((codeviation_self_eq_zero_iff hne).mpr hone), rfl⟩
  · rintro ⟨hlength, hapart, rfl⟩
    have hne : points ≠ [] := List.ne_nil_of_length_pos (lt_of_lt_of_le (by decide) hlength)
    exact ⟨hlength, fun hvariance => hapart ((codeviation_self_eq_zero_iff hne).mp hvariance), rfl⟩

/-- The fit raises nothing but its own refusal. -/
theorem fitDecay_cases (points : List DecayPoint) :
    (∃ report, fitDecay points = .ok report) ∨ ∃ message, fitDecay points = raise .decayReport message := by
  rw [fitDecay_eq]
  by_cases hlength : points.length < minimumObservations
  · exact .inr ⟨_, by rw [raiseIf, if_pos hlength]; rfl⟩
  by_cases hvariance : codeviation DecayPoint.distanceDays DecayPoint.distanceDays points = 0
  · exact .inr ⟨_, by rw [raiseIf, if_neg hlength, raiseIf, if_pos hvariance]; rfl⟩
  · exact .inl ⟨_, by rw [raiseIf, if_neg hlength, raiseIf, if_neg hvariance]; rfl⟩

/-- The points with every Sharpe raised by a constant. -/
def raiseSharpes (c : Decimal) (points : List DecayPoint) : List DecayPoint :=
  points.map fun point => { point with sharpeRatio := point.sharpeRatio + c }

/-- The points with every distance moved by a constant. -/
def shiftDistances (c : Decimal) (points : List DecayPoint) : List DecayPoint :=
  points.map fun point => { point with distanceDays := point.distanceDays + c }

theorem listMean_map (f : DecayPoint → Decimal) (move : DecayPoint → DecayPoint) (points : List DecayPoint) :
    listMean f (points.map move) = listMean (f ∘ move) points := by
  rw [listMean, listMean, List.map_map, List.length_map]

theorem codeviation_map (f g : DecayPoint → Decimal) (move : DecayPoint → DecayPoint)
    (points : List DecayPoint) :
    codeviation f g (points.map move) = codeviation (f ∘ move) (g ∘ move) points := by
  rw [codeviation, codeviation, List.map_map, listMean_map, listMean_map]
  rfl

/-- Raising every Sharpe raises their mean and moves no other moment. -/
theorem raiseSharpes_moments (c : Decimal) {points : List DecayPoint} (hne : points ≠ []) :
    codeviation DecayPoint.distanceDays DecayPoint.distanceDays (raiseSharpes c points) =
        codeviation DecayPoint.distanceDays DecayPoint.distanceDays points ∧
      codeviation DecayPoint.distanceDays DecayPoint.sharpeRatio (raiseSharpes c points) =
        codeviation DecayPoint.distanceDays DecayPoint.sharpeRatio points ∧
      listMean DecayPoint.distanceDays (raiseSharpes c points) = listMean DecayPoint.distanceDays points ∧
      listMean DecayPoint.sharpeRatio (raiseSharpes c points) = listMean DecayPoint.sharpeRatio points + c := by
  have hmoved := codeviation_add_const DecayPoint.distanceDays DecayPoint.sharpeRatio hne 0 c
  simp only [add_zero] at hmoved
  refine ⟨?_, ?_, ?_, ?_⟩
  · exact codeviation_map _ _ _ _
  · rw [raiseSharpes, codeviation_map]
    exact hmoved
  · exact listMean_map _ _ _
  · rw [raiseSharpes, listMean_map]
    exact listMean_add_const _ hne c

/-- Moving every distance moves their mean and no other moment. -/
theorem shiftDistances_moments (c : Decimal) {points : List DecayPoint} (hne : points ≠ []) :
    codeviation DecayPoint.distanceDays DecayPoint.distanceDays (shiftDistances c points) =
        codeviation DecayPoint.distanceDays DecayPoint.distanceDays points ∧
      codeviation DecayPoint.distanceDays DecayPoint.sharpeRatio (shiftDistances c points) =
        codeviation DecayPoint.distanceDays DecayPoint.sharpeRatio points ∧
      listMean DecayPoint.distanceDays (shiftDistances c points) = listMean DecayPoint.distanceDays points + c ∧
      listMean DecayPoint.sharpeRatio (shiftDistances c points) = listMean DecayPoint.sharpeRatio points := by
  have hvariance := codeviation_add_const DecayPoint.distanceDays DecayPoint.distanceDays hne c c
  have hcovariance := codeviation_add_const DecayPoint.distanceDays DecayPoint.sharpeRatio hne c 0
  simp only [add_zero] at hcovariance
  refine ⟨?_, ?_, ?_, ?_⟩
  · rw [shiftDistances, codeviation_map]
    exact hvariance
  · rw [shiftDistances, codeviation_map]
    exact hcovariance
  · rw [shiftDistances, listMean_map]
    exact listMean_add_const _ hne c
  · exact listMean_map _ _ _

/-- The refusals are the degenerate lists; otherwise the reported line is the one of least squared error, does not
    depend on the order of the points, and follows them when they move. -/
theorem fitDecay_leastSquares (points : List DecayPoint) :
    ((∃ message, fitDecay points = raise .decayReport message) ↔
      points.length < minimumObservations ∨ AllAtOneDistance points) ∧
    (¬ (points.length < minimumObservations ∨ AllAtOneDistance points) →
      ∃ report, fitDecay points = .ok report ∧
        LeastSquares DecayPoint.distanceDays DecayPoint.sharpeRatio points
          (report.sharpePer30Days / decayReportDays) report.interceptSharpe ∧
        (∀ reordered : List DecayPoint, reordered.Perm points →
          fitDecay reordered = .ok { report with points := reordered }) ∧
        (∀ c, fitDecay (raiseSharpes c points) = .ok { report with
          interceptSharpe := report.interceptSharpe + c, points := raiseSharpes c points }) ∧
        ∀ c, fitDecay (shiftDistances c points) = .ok { report with
          interceptSharpe := report.interceptSharpe - report.sharpePer30Days / decayReportDays * c
          points := shiftDistances c points }) := by
  have hok : (∃ report, fitDecay points = .ok report) ↔
      ¬ (points.length < minimumObservations ∨ AllAtOneDistance points) := by
    simp only [fitDecay_eq_ok, not_or, not_lt, exists_and_left, exists_eq, and_true]
  refine ⟨?_, fun happart => ?_⟩
  · constructor
    · rintro ⟨message, hrefused⟩
      by_contra happart
      obtain ⟨report, hreport⟩ := hok.mpr happart
      rw [hrefused] at hreport
      exact raise_ne_ok hreport
    · intro hdegenerate
      refine (fitDecay_cases points).resolve_left fun hreport => ?_
      exact hok.mp hreport hdegenerate
  obtain ⟨report, hreport⟩ := hok.mpr happart
  obtain ⟨hlength, hapart, rfl⟩ := fitDecay_eq_ok.mp hreport
  have hne : points ≠ [] := List.ne_nil_of_length_pos (lt_of_lt_of_le (by decide) hlength)
  have hdays : decayReportDays ≠ 0 := by norm_num [decayReportDays]
  refine ⟨_, hreport, ?_, fun reordered hperm => ?_, fun c => ?_, fun c => ?_⟩
  · have hvariance : codeviation DecayPoint.distanceDays DecayPoint.distanceDays points ≠ 0 := fun h =>
      hapart ((codeviation_self_eq_zero_iff hne).mp h)
    simp only [AllAtOneDistance] at hapart
    push Not at hapart
    obtain ⟨p, hp, q, hq, hpq⟩ := hapart
    simp only [mul_div_cancel_right₀ _ hdays]
    exact (normal_of_slope hne hvariance).leastSquares hp hq hpq
  · have hsame : AllAtOneDistance reordered ↔ AllAtOneDistance points := by
      simp only [AllAtOneDistance, hperm.mem_iff]
    rw [fitDecay_eq_ok, hperm.length_eq, hsame, codeviation_perm _ _ hperm, codeviation_perm _ _ hperm,
      listMean_perm _ hperm, listMean_perm _ hperm]
    exact ⟨hlength, hapart, rfl⟩
  · have hsame : AllAtOneDistance (raiseSharpes c points) ↔ AllAtOneDistance points := by
      simp [AllAtOneDistance, raiseSharpes]
    have hlengths : (raiseSharpes c points).length = points.length := List.length_map _
    obtain ⟨hvariance, hcovariance, hdistance, hsharpe⟩ := raiseSharpes_moments c hne
    rw [fitDecay_eq_ok, hsame, hlengths, hvariance, hcovariance, hdistance, hsharpe]
    refine ⟨hlength, hapart, ?_⟩
    rw [add_sub_right_comm]
  · have hsame : AllAtOneDistance (shiftDistances c points) ↔ AllAtOneDistance points := by
      simp [AllAtOneDistance, shiftDistances]
    have hlengths : (shiftDistances c points).length = points.length := List.length_map _
    obtain ⟨hvariance, hcovariance, hdistance, hsharpe⟩ := shiftDistances_moments c hne
    rw [fitDecay_eq_ok, hsame, hlengths, hvariance, hcovariance, hdistance, hsharpe]
    refine ⟨hlength, hapart, ?_⟩
    rw [mul_div_cancel_right₀ _ hdays, mul_add, sub_add_eq_sub_sub]

end FinanceKing.Backtest
