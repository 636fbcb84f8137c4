import FinanceKing.Data.Features.Availability
import FinanceKing.Data.Features.Registry
import FinanceKing.Data.RestatedTables

/-! The table behind the feature store: what may be written into it, and the one function that reads it. -/

namespace FinanceKing.Data.Features

open Lib

/-- The constraints of `feature_values`. -/
def featureConstraints (row : StoredRow FeatureRef) : PyResult Unit := do
  requireConstraint (row.series.market.value ∈ ["spot", "futures_um"]) "ck_feature_values_market_is_known"
  requireConstraint (1 ≤ row.series.version) "ck_feature_values_feature_version_is_positive"
  requireConstraint (row.eventTime ≤ row.availableAt) "ck_feature_values_availability_follows_event"

/-- A point of a series as a row. -/
def FeaturePoint.row (self : FeaturePoint) (feature : FeatureRef) : StoredRow FeatureRef :=
  ⟨feature, self.eventTimeUtc, self.availableAtUtc, self.featureValue⟩

/-- `FeatureValueWriter.append`. -/
def FeatureValueWriter.append (table : StoredTable FeatureRef) (feature : FeatureRef)
    (points : List FeaturePoint) : StoredTable FeatureRef × PyResult ℕ :=
  if points = [] then (table, .ok 0)
  else appendRows (fun _ => .ok ()) featureConstraints table (points.map fun point => point.row feature)

/-- `fking_feature_as_of`. -/
def fkingFeatureAsOf (table : StoredTable FeatureRef) (feature : FeatureRef) (asOf : DateTime)
    (lookback : TimeDelta) : List FeatureValue :=
  (table.latest feature asOf (asOf - lookback)).map fun row => ⟨row.eventTime, row.value⟩

/-- The store over a table and the contract it refuses by. -/
def PostgresFeatureStore.ofTable (availability : AvailabilityContract) (table : StoredTable FeatureRef) :
    PostgresFeatureStore where
  availability := availability
  read feature asOf lookback :=
    sortBy FeatureValue.eventTimeUtc (fkingFeatureAsOf table feature asOf lookback)

/-! No feature looks ahead, and none looks further back than it declares: what it stamps at an instant is a
    function of its window there and of the newest observation at or before the window's start. -/

/-- What a computation over one kind of observation promises, at a window of this lookback. -/
structure PointInTime {α : Type} (time : α → DateTime) (lookback : TimeDelta)
    (compute : List α → List FeaturePoint) : Prop where
  noLookAhead : ∀ observations, InOrder time observations → ∀ t : DateTime,
    (compute observations).filter (fun point => point.eventTimeUtc ≤ t) =
      compute (observations.filter fun observation => time observation ≤ t)
  noLookBack : ∀ observations others, InOrder time observations → InOrder time others → ∀ t : DateTime,
    windowAt time lookback observations t = windowAt time lookback others t →
    baseAt time lookback observations t = baseAt time lookback others t →
    ∀ point ∈ compute observations, ∀ other ∈ compute others,
      point.eventTimeUtc = t → other.eventTimeUtc = t → point = other
  moreHistory : ∀ earlier observations, InOrder time (earlier ++ observations) →
    ∀ point ∈ compute observations, point ∈ compute (earlier ++ observations) ∧
      ∀ other ∈ compute (earlier ++ observations), other.eventTimeUtc = point.eventTimeUtc → other = point

section Windowed

variable {α : Type} {time : α → DateTime} {kernel : α → List α → α → Option Decimal}
  {window : FeatureWindow}

/-- A computed point, with the observation it is stamped at. -/
theorem mem_windowedPoints {observations : List α} {point : FeaturePoint} :
    point ∈ windowedPoints time kernel observations window ↔ ∃ passed observation rest,
      observations = passed ++ observation :: rest ∧
      windowed time window.lookback (fun base inside observation =>
        (kernel base inside observation).map (window.point (time observation))) passed observation =
        some point := by
  rw [windowedPoints, mem_emitFrom]
  simp only [List.nil_append]

/-- A point is stamped at its own observation. -/
theorem windowed_stamp {passed : List α} {observation : α} {point : FeaturePoint}
    (h : windowed time window.lookback (fun base inside observation =>
      (kernel base inside observation).map (window.point (time observation))) passed observation =
      some point) : point.eventTimeUtc = time observation := by
  rw [windowed, Option.bind_eq_some_iff] at h
  obtain ⟨base, _, hvalue⟩ := h
  obtain ⟨value, _, rfl⟩ := Option.map_eq_some_iff.mp hvalue
  rfl

/-- Loading earlier history keeps the base an observation already had. -/
theorem windowed_append {earlier passed rest : List α} {observation : α} {point : FeaturePoint}
    (hlookback : 0 < window.lookback) (hordered : InOrder time (earlier ++ (passed ++ observation :: rest)))
    (h : windowed time window.lookback (fun base inside observation =>
      (kernel base inside observation).map (window.point (time observation))) passed observation =
      some point) :
    windowed time window.lookback (fun base inside observation =>
      (kernel base inside observation).map (window.point (time observation))) (earlier ++ passed)
        observation = some point := by
  have hshort := (List.pairwise_append.mp hordered).2.1
  have hacross := (List.pairwise_append.mp hordered).2.2
  have hlong : InOrder time ((earlier ++ passed) ++ observation :: rest) := by
    rwa [List.append_assoc]
  rw [windowed_eq hlookback _ hshort, Option.bind_eq_some_iff] at h
  rw [windowed_eq hlookback _ hlong, Option.bind_eq_some_iff]
  obtain ⟨base, hbase, hvalue⟩ := h
  obtain ⟨hmem, hstart⟩ := List.mem_filter.mp (List.mem_of_getLast? hbase)
  rw [decide_eq_true_eq] at hstart
  have hbefore : ∀ other ∈ earlier, time other < time observation - window.lookback := by
    intro other hother
    exact (hacross other hother base hmem).trans_le hstart
  refine ⟨base, ?_, ?_⟩
  · rw [baseAt, List.append_assoc, List.filter_append, List.getLast?_append]
    rw [baseAt] at hbase
    rw [hbase]
    rfl
  · have hnone : earlier.filter (fun other => time observation - window.lookback < time other ∧
        time other ≤ time observation) = [] := by
      rw [List.filter_eq_nil_iff]
      intro other hother
      have hless := hbefore other hother
      rw [decide_eq_true_eq, not_and]
      exact fun hlater => absurd hlater (lt_asymm hless)
    rw [windowAt, List.append_assoc, List.filter_append, hnone, List.nil_append]
    exact hvalue

/-- Every windowed computation is point in time. -/
theorem windowedPoints_pointInTime (hlookback : 0 < window.lookback) :
    PointInTime time window.lookback fun observations => windowedPoints time kernel observations window where
  noLookAhead observations hordered t :=
    filter_emitFrom (fun _ _ _ => windowed_stamp) t hordered []
  noLookBack observations others hordered hothers t hwindow hbase point hpoint other hother hstamp
      hstamp' := by
    obtain ⟨passed, observation, rest, rfl, hvalue⟩ := mem_windowedPoints.mp hpoint
    obtain ⟨passed', observation', rest', rfl, hvalue'⟩ := mem_windowedPoints.mp hother
    have ht : t = time observation := hstamp.symm.trans (windowed_stamp hvalue)
    have ht' : t = time observation' := hstamp'.symm.trans (windowed_stamp hvalue')
    rw [ht] at hwindow hbase
    have hequal := windowed_congr hlookback
      (fun base inside observation =>
        (kernel base inside observation).map (window.point (time observation)))
      hordered hothers (ht.symm.trans ht') hwindow hbase
    exact Option.some.inj (hvalue.symm.trans (hequal.trans hvalue'))
  moreHistory earlier observations hordered point hpoint := by
    obtain ⟨passed, observation, rest, rfl, hvalue⟩ := mem_windowedPoints.mp hpoint
    have hlonger := windowed_append hlookback hordered hvalue
    refine ⟨mem_windowedPoints.mpr
      ⟨earlier ++ passed, observation, rest, (List.append_assoc _ _ _).symm, hlonger⟩, ?_⟩
    intro other hother hstamp
    obtain ⟨passed', observation', rest', hsplit, hvalue'⟩ := mem_windowedPoints.mp hother
    rw [hsplit] at hordered
    have htime : time observation' = time observation :=
      (windowed_stamp hvalue').symm.trans (hstamp.trans (windowed_stamp hvalue))
    rw [← List.append_assoc] at hsplit
    have hlong : InOrder time ((earlier ++ passed) ++ observation :: rest) := by rwa [hsplit]
    have hequal := windowed_congr hlookback
      (fun base inside observation =>
        (kernel base inside observation).map (window.point (time observation)))
      hordered hlong htime (by rw [hsplit]) (by rw [hsplit])
    exact Option.some.inj (hvalue'.symm.trans (hequal.trans hlonger))

end Windowed

/-- The return's search backwards stops where the walk back does. -/
theorem trailingReturnFraction_eq (observations : List FeatureObservation) (window : FeatureWindow) :
    trailingReturnFraction observations window =
      windowedPoints FeatureObservation.eventTimeUtc (fun base _ observation =>
        some (observation.closeQuotePrice / base.closeQuotePrice - 1)) observations window := by
  rw [trailingReturnFraction, windowedPoints]
  congr 1
  funext before observation
  simp only [windowed, find?_reverse_eq, Option.map_some]
  exact Option.map_eq_bind

/-- A registered feature's computation is point in time at the lookback it declares. -/
structure SpecPointInTime (spec : FeatureSpec) : Prop where
  bars : ∀ compute, spec.compute = some compute →
    PointInTime FeatureObservation.eventTimeUtc spec.lookback fun observations =>
      compute observations spec.window
  settlements : ∀ compute, spec.settlementRateCompute = some compute →
    PointInTime SettlementRateObservation.eventTimeUtc spec.lookback fun observations =>
      compute observations spec.window

theorem specPointInTime_of_bars {spec : FeatureSpec} {compute : FeatureCompute}
    (hcompute : spec.compute = some compute) (hnone : spec.settlementRateCompute = none)
    (h : ∀ window : FeatureWindow, 0 < window.lookback →
      PointInTime FeatureObservation.eventTimeUtc window.lookback fun observations =>
        compute observations window) : SpecPointInTime spec where
  bars compute' hcompute' := by
    obtain rfl : compute = compute' := Option.some.inj (hcompute.symm.trans hcompute')
    exact h spec.window spec.lookback_pos
  settlements compute' hcompute' := by
    rw [hnone] at hcompute'
    cases hcompute'

theorem specPointInTime_of_settlements {spec : FeatureSpec} {compute : SettlementRateCompute}
    (hcompute : spec.settlementRateCompute = some compute) (hnone : spec.compute = none)
    (h : ∀ window : FeatureWindow, 0 < window.lookback →
      PointInTime SettlementRateObservation.eventTimeUtc window.lookback fun observations =>
        compute observations window) : SpecPointInTime spec where
  bars compute' hcompute' := by
    rw [hnone] at hcompute'
    cases hcompute'
  settlements compute' hcompute' := by
    obtain rfl : compute = compute' := Option.some.inj (hcompute.symm.trans hcompute')
    exact h spec.window spec.lookback_pos

/-- Every registered feature is point in time, whatever its floating-point statistics are. -/
theorem features_pointInTime (float : FloatArithmetic) :
    (features float).Forall SpecPointInTime := by
  rw [List.forall_iff_forall_mem]
  intro spec hspec
  simp only [features, List.mem_cons, List.not_mem_nil, or_false] at hspec
  rcases hspec with rfl | rfl | rfl | rfl | rfl | rfl | rfl
  · refine specPointInTime_of_bars rfl rfl fun window hlookback => ?_
    simp only [trailingReturnFraction_eq]
    exact windowedPoints_pointInTime hlookback
  · exact specPointInTime_of_bars rfl rfl fun window hlookback => windowedPoints_pointInTime hlookback
  · exact specPointInTime_of_bars rfl rfl fun window hlookback => windowedPoints_pointInTime hlookback
  · exact specPointInTime_of_bars rfl rfl fun window hlookback => windowedPoints_pointInTime hlookback
  · exact specPointInTime_of_bars rfl rfl fun window hlookback => windowedPoints_pointInTime hlookback
  · exact specPointInTime_of_settlements rfl rfl fun window hlookback =>
      windowedPoints_pointInTime hlookback
  · exact specPointInTime_of_settlements rfl rfl fun window hlookback =>
      windowedPoints_pointInTime hlookback

end FinanceKing.Data.Features
