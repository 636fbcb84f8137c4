import FinanceKing.Data.Backfill
import FinanceKing.Data.Calendar
import FinanceKing.Domain.Results
import FinanceKing.Lib.Tiling

/-! The plan of a backfill of any dataset: its partitions, day by day or month by month, and the archives that
    fill each; every day asked for is in one archive, and no archive reaches past its partition. -/

namespace FinanceKing.Data

open Lib

theorem monthStart_le (day : Date) : monthStart day ≤ day := firstDayOf_yearMonth_le day

theorem le_monthEnd (day : Date) : day ≤ monthEnd day :=
  Int.le_sub_one_of_lt (lt_firstDayOf_nextMonth day)

theorem toNat_sub_lt {last cursor lastDay : ℤ} (h : cursor ≤ last) (hlast : cursor ≤ lastDay) :
    (last + 1 - (lastDay + 1)).toNat < (last + 1 - cursor).toNat := by
  omega

/-! ### The code -/

/-- `DATASET_PARTITION_GRAIN`. -/
def datasetPartitionGrain : Dataset → Option PartitionGrain
  | .klines => some .monthly
  | .trades => some .daily
  | .aggTrades => some .daily
  | _ => none

/-- The months from one cursor on. -/
def monthStartsFrom (cursor last : Date) : List Date :=
  if _ : cursor ≤ last then cursor :: monthStartsFrom (monthEnd cursor + 1) last else []
termination_by (last + 1 - cursor).toNat
decreasing_by exact toNat_sub_lt ‹_› (le_monthEnd cursor)

/-- `_month_starts_between`. -/
def monthStarts (first last : Date) : List Date :=
  if last < first then [] else monthStartsFrom (monthStart first) last

/-- What identifies one series of any dataset. -/
structure DatasetSeries where
  market : Market
  dataset : Dataset
  symbol : String
  interval : Option String
  deriving DecidableEq

/-- One file of the corpus, its grain, and the archives that fill it. -/
structure PlannedPartition where
  coordinate : ArchiveCoordinate
  grain : PartitionGrain
  archives : List PlannedArchive
  deriving DecidableEq

namespace PlannedPartition

variable (self : PlannedPartition)

def periodStartDate : Date := self.coordinate.archiveDate

/-- The last day of the period that the file is placed by. -/
def periodEndDate : Date :=
  match self.grain with
  | .daily => self.coordinate.archiveDate
  | .monthly => monthEnd self.coordinate.archiveDate

end PlannedPartition

namespace DatasetSeries

variable (self : DatasetSeries)

/-- The fields of this series' coordinate for one date. -/
def coordinateFields (archiveDate : Date) : ArchiveCoordinateFields :=
  ⟨self.market, self.dataset, self.symbol, archiveDate, self.interval⟩

/-- `ArchiveSeries.at`. -/
def coordinate (archiveDate : Date) : PyResult ArchiveCoordinate :=
  construct ArchiveCoordinateFields.postInit ArchiveCoordinate.mk (self.coordinateFields archiveDate)

/-- `_daily_partition`. -/
def dailyPartition (archiveDate : Date) : PyResult PlannedPartition := do
  let coordinate ← self.coordinate archiveDate
  return ⟨coordinate, .daily, [⟨coordinate, .daily⟩]⟩

/-- `_monthly_partition`: the daily fan-out is clipped to the range, the monthly archive is not. -/
def monthlyPartition (earliestDate throughDate todayUtc monthStart : Date) : PyResult PlannedPartition := do
  let partition ← self.coordinate monthStart
  let archives ← match resolveGranularity monthStart todayUtc with
    | .monthly => pure [⟨partition, .monthly⟩]
    | .daily =>
      (daysBetween (max monthStart earliestDate) (min (monthEnd monthStart) throughDate)).mapM fun day => do
        let coordinate ← self.coordinate day
        return (⟨coordinate, .daily⟩ : PlannedArchive)
  return ⟨partition, .monthly, archives⟩

/-- `plan_partitions`. -/
def planPartitions (earliestDate throughDate todayUtc : Date) : PyResult (List PlannedPartition) := do
  raiseIf (throughDate < earliestDate) .dataIntegrity
    ["backfill range for ", self.symbol, " ends ", .date throughDate, ", before it starts ",
      .date earliestDate, ". An inverted range plans nothing and would report a complete run having ",
      "fetched no archive"]
  match datasetPartitionGrain self.dataset with
  | none =>
    raise .dataIntegrity
      ["dataset ", .quoted self.dataset.value, " has no declared partition grain, so there is no file for ",
        "its records to land in. A grain arrives with a canonical schema, never before one -- ",
        "fking.data.parquet.layout"]
  | some .daily => (daysBetween earliestDate throughDate).mapM self.dailyPartition
  | some .monthly =>
    (monthStarts earliestDate throughDate).mapM (self.monthlyPartition earliestDate throughDate todayUtc)

end DatasetSeries

/-! ### The days and the months of a range -/

theorem tiles_days : ∀ (count : ℕ) (first : Date),
    Tiles id id first (first + count) ((List.range count).map fun offset : ℕ => first + (offset : ℤ))
  | 0, first => by
    simp only [Nat.cast_zero, add_zero, List.range_zero, List.map_nil]
    exact .nil first
  | count + 1, first => by
    rw [List.range_succ, List.map_append, Nat.cast_succ, ← add_assoc]
    exact (tiles_days count first).append (.single le_rfl)

theorem daysBetween_eq (first last : Date) : daysBetween first last =
    (List.range (last + 1 - first).toNat).map fun offset : ℕ => first + (offset : ℤ) := by
  simp only [daysBetween, List.pure_def, List.bind_eq_flatMap, ← List.map_eq_flatMap, List.map_map]
  rfl

theorem tiles_daysBetween {first last : Date} (h : first ≤ last + 1) :
    Tiles id id first (last + 1) (daysBetween first last) := by
  have hcount : first + ((last + 1 - first).toNat : ℤ) = last + 1 := by
    rw [Int.toNat_of_nonneg (Int.sub_nonneg_of_le h)]
    exact add_sub_cancel _ _
  have hdays := tiles_days (last + 1 - first).toNat first
  rw [hcount, ← daysBetween_eq] at hdays
  exact hdays

/-- The first day of some month. -/
def IsMonthStart (day : Date) : Prop := monthStart day = day

theorem isMonthStart_monthStart (day : Date) : IsMonthStart (monthStart day) := by
  rw [IsMonthStart, monthStart, monthStart, yearMonth_firstDayOf (isMonth_yearMonth day)]

theorem isMonthStart_next (day : Date) : IsMonthStart (monthEnd day + 1) := by
  have hnext : monthEnd day + 1 = firstDayOf (nextMonth (yearMonth day)) := sub_add_cancel _ _
  rw [hnext, IsMonthStart, monthStart, yearMonth_firstDayOf (isMonth_nextMonth (isMonth_yearMonth day))]

theorem monthEnd_monthStart (day : Date) : monthEnd (monthStart day) = monthEnd day := by
  rw [monthEnd, monthStart, yearMonth_firstDayOf (isMonth_yearMonth day), monthEnd]

/-- The months from a month's first day on follow one another, past the last day asked for. -/
theorem tiles_monthStartsFrom (last : Date) {cursor : Date} (h : IsMonthStart cursor) : ∃ stop,
    Tiles id monthEnd cursor stop (monthStartsFrom cursor last) ∧
      ∀ start ∈ monthStartsFrom cursor last, IsMonthStart start := by
  induction cursor using monthStartsFrom.induct last with
  | case1 cursor hinside ih =>
    obtain ⟨stop, htiles, hstarts⟩ := ih (isMonthStart_next cursor)
    rw [monthStartsFrom, dif_pos hinside]
    refine ⟨stop, .cons rfl (le_monthEnd cursor) htiles, fun start hstart => ?_⟩
    rcases List.mem_cons.mp hstart with rfl | hlater
    · exact h
    · exact hstarts start hlater
  | case2 cursor hpast =>
    rw [monthStartsFrom, dif_neg hpast]
    exact ⟨cursor, .nil cursor, fun _ hstart => absurd hstart List.not_mem_nil⟩

/-- The first day of a month that a plan reaches for. -/
def monthFrom (earliestDate todayUtc month : Date) : Date :=
  match resolveGranularity month todayUtc with
  | .monthly => month
  | .daily => max month earliestDate

/-- The last day of a month that a plan reaches for. -/
def monthThrough (throughDate todayUtc month : Date) : Date :=
  match resolveGranularity month todayUtc with
  | .monthly => monthEnd month
  | .daily => min (monthEnd month) throughDate

section

variable {earliestDate throughDate todayUtc month : Date}

theorem monthFrom_ge : month ≤ monthFrom earliestDate todayUtc month := by
  -- the definition's own equation would be proved by running the calendar
  delta monthFrom
  split
  · exact le_rfl
  · exact le_max_left _ _

theorem monthFrom_le (h : month ≤ earliestDate) : monthFrom earliestDate todayUtc month ≤ earliestDate := by
  delta monthFrom
  split
  · exact h
  · exact max_le h le_rfl

theorem monthFrom_of_later (h : earliestDate ≤ month) : monthFrom earliestDate todayUtc month = month := by
  delta monthFrom
  split
  · rfl
  · exact max_eq_left h

theorem monthThrough_le : monthThrough throughDate todayUtc month ≤ monthEnd month := by
  delta monthThrough
  split
  · exact le_rfl
  · exact min_le_left _ _

theorem monthThrough_of_within (h : monthEnd month ≤ throughDate) :
    monthThrough throughDate todayUtc month = monthEnd month := by
  delta monthThrough
  split
  · rfl
  · exact min_eq_left h

theorem le_monthThrough (h : throughDate ≤ monthEnd month) :
    throughDate ≤ monthThrough throughDate todayUtc month := by
  delta monthThrough
  split
  · exact h
  · exact le_min h le_rfl

variable (todayUtc) in
theorem monthFrom_le_monthThrough (hlast : month ≤ throughDate) (hfirst : earliestDate ≤ monthEnd month)
    (hrange : earliestDate ≤ throughDate) :
    monthFrom earliestDate todayUtc month ≤ monthThrough throughDate todayUtc month := by
  delta monthFrom monthThrough
  split
  · exact le_monthEnd month
  · exact le_min (max_le (le_monthEnd month) hfirst) (max_le hlast hrange)

end

/-- What is reached for in each month follows on from the month before, past the last day asked for. -/
theorem tiles_months {earliestDate throughDate : Date} (todayUtc : Date) (hrange : earliestDate ≤ throughDate)
    {cursor : Date} (hinside : cursor ≤ throughDate) (hfirst : earliestDate ≤ monthEnd cursor) :
    ∃ stop, throughDate < stop ∧ Tiles (monthFrom earliestDate todayUtc) (monthThrough throughDate todayUtc)
      (monthFrom earliestDate todayUtc cursor) stop (monthStartsFrom cursor throughDate) := by
  induction cursor using monthStartsFrom.induct throughDate with
  | case1 cursor _ ih =>
    have hnonempty := monthFrom_le_monthThrough todayUtc hinside hfirst hrange
    rw [monthStartsFrom, dif_pos hinside]
    by_cases hnext : monthEnd cursor + 1 ≤ throughDate
    · have hlater : earliestDate ≤ monthEnd cursor + 1 := hfirst.trans (Int.le_add_one le_rfl)
      obtain ⟨stop, hstop, htiles⟩ := ih hnext (hlater.trans (le_monthEnd _))
      rw [monthFrom_of_later hlater] at htiles
      have hwhole : monthThrough throughDate todayUtc cursor = monthEnd cursor :=
        monthThrough_of_within ((Int.le_add_one le_rfl).trans hnext)
      exact ⟨stop, hstop, .cons rfl hnonempty (hwhole.symm ▸ htiles)⟩
    · have hlast : throughDate ≤ monthEnd cursor := Int.lt_add_one_iff.mp (not_le.mp hnext)
      rw [monthStartsFrom, dif_neg hnext]
      exact ⟨_, Int.lt_add_one_of_le (le_monthThrough hlast), .single hnonempty⟩
  | case2 cursor hpast => exact absurd hinside hpast

/-! ### The archives -/

namespace DatasetSeries

variable {self : DatasetSeries}

/-- A series with coordinates: its symbol and its interval are what its dataset asks for, on any date. -/
def HasCoordinates (self : DatasetSeries) : Prop := ∀ day, (self.coordinateFields day).postInit = .ok ()

theorem coordinate_eq_ok {day : Date} {found : ArchiveCoordinate} (h : self.coordinate day = .ok found) :
    self.HasCoordinates := by
  obtain ⟨hchecked, _⟩ := construct_eq_ok h
  exact fun _ => hchecked

/-- This series' coordinate for one date. -/
def coordinateAt (h : self.HasCoordinates) (day : Date) : ArchiveCoordinate := ⟨self.coordinateFields day, h day⟩

theorem coordinate_ok (h : self.HasCoordinates) (day : Date) : self.coordinate day = .ok (coordinateAt h day) :=
  construct_ok (h day)

/-- The archives of one day, and of one month. -/
def dayArchive (h : self.HasCoordinates) (day : Date) : PlannedArchive := ⟨coordinateAt h day, .daily⟩

def monthArchives (h : self.HasCoordinates) (earliestDate throughDate todayUtc month : Date) :
    List PlannedArchive :=
  match resolveGranularity month todayUtc with
  | .monthly => [⟨coordinateAt h month, .monthly⟩]
  | .daily => (daysBetween (max month earliestDate) (min (monthEnd month) throughDate)).map (dayArchive h)

theorem dailyPartition_ok (h : self.HasCoordinates) (day : Date) :
    self.dailyPartition day = .ok ⟨coordinateAt h day, .daily, [dayArchive h day]⟩ := by
  rw [dailyPartition, coordinate_ok h]
  rfl

theorem monthlyPartition_ok (h : self.HasCoordinates) (earliestDate throughDate todayUtc month : Date) :
    self.monthlyPartition earliestDate throughDate todayUtc month =
      .ok ⟨coordinateAt h month, .monthly, monthArchives h earliestDate throughDate todayUtc month⟩ := by
  have hdays : ∀ days : List Date, (days.mapM fun day => do
      let coordinate ← self.coordinate day
      return (⟨coordinate, .daily⟩ : PlannedArchive)) = .ok (days.map (dayArchive h)) := by
    intro days
    rw [mapM_eq_ok_iff, List.forall₂_map_right_iff]
    refine List.forall₂_same.mpr fun day _ => ?_
    rw [coordinate_ok h]
    rfl
  rw [monthlyPartition, coordinate_ok h]
  delta monthArchives
  cases resolveGranularity month todayUtc with
  | monthly => rfl
  | daily => exact bind_eq_ok.mpr ⟨_, rfl, bind_eq_ok.mpr ⟨_, hdays _, rfl⟩⟩

theorem tiles_dayArchives (h : self.HasCoordinates) {first last : Date} (hle : first ≤ last + 1) :
    Tiles PlannedArchive.coveredFromDate PlannedArchive.coveredThroughDate first (last + 1)
      ((daysBetween first last).map (dayArchive h)) :=
  .of_map (tiles_daysBetween hle)

/-- The archives of a month are what is reached for in it. -/
theorem tiles_monthArchives (h : self.HasCoordinates) {earliestDate throughDate : Date} (todayUtc : Date)
    {month : Date} (hstart : IsMonthStart month) (hnonempty : monthFrom earliestDate todayUtc month ≤
      monthThrough throughDate todayUtc month) :
    Tiles PlannedArchive.coveredFromDate PlannedArchive.coveredThroughDate
      (monthFrom earliestDate todayUtc month) (monthThrough throughDate todayUtc month + 1)
      (monthArchives h earliestDate throughDate todayUtc month) := by
  delta monthFrom monthThrough at hnonempty ⊢
  delta monthArchives
  cases hgranularity : resolveGranularity month todayUtc with
  | monthly =>
    have hfrom : PlannedArchive.coveredFromDate ⟨coordinateAt h month, .monthly⟩ = month := hstart
    exact .cons hfrom (hfrom.le.trans (le_monthEnd month)) (.nil _)
  | daily =>
    rw [hgranularity] at hnonempty
    exact tiles_dayArchives h (hnonempty.trans (Int.le_add_one le_rfl))

end DatasetSeries

/-! ### The plan -/

/-- The archives of a plan cover a range day by day, in order, each inside its own partition. -/
structure CoversOnce (plans : List PlannedPartition) (earliestDate throughDate : Date) : Prop where
  once : ∀ day, earliestDate ≤ day → day ≤ throughDate →
    ∃! planned, planned ∈ plans.flatMap PlannedPartition.archives ∧ planned.coveredFromDate ≤ day ∧
      day ≤ planned.coveredThroughDate
  ordered : (plans.flatMap PlannedPartition.archives).Pairwise fun earlier later =>
    earlier.coveredThroughDate < later.coveredFromDate
  inside : ∀ plan ∈ plans, ∀ planned ∈ plan.archives, plan.periodStartDate ≤ planned.coveredFromDate ∧
    planned.coveredThroughDate ≤ plan.periodEndDate
  apart : plans.Pairwise fun earlier later => earlier.periodEndDate < later.periodStartDate

namespace DatasetSeries

variable {self : DatasetSeries}

theorem coversOnce_daily (h : self.HasCoordinates) {earliestDate throughDate : Date}
    (hrange : earliestDate ≤ throughDate) :
    CoversOnce ((daysBetween earliestDate throughDate).map fun day =>
      ⟨coordinateAt h day, .daily, [dayArchive h day]⟩) earliestDate throughDate := by
  have hflat : ((daysBetween earliestDate throughDate).map fun day =>
      (⟨coordinateAt h day, .daily, [dayArchive h day]⟩ : PlannedPartition)).flatMap
        PlannedPartition.archives = (daysBetween earliestDate throughDate).map (dayArchive h) := by
    rw [List.flatMap_map, ← List.map_eq_flatMap]
  have hle : earliestDate ≤ throughDate + 1 := hrange.trans (Int.le_add_one le_rfl)
  have htiles := tiles_dayArchives h hle
  refine ⟨fun day hfirst hlast => ?_, ?_, ?_, ?_⟩
  · rw [hflat]
    exact htiles.existsUnique hfirst (Int.lt_add_one_of_le hlast)
  · rw [hflat]
    exact htiles.pairwise
  · intro plan hplan planned hplanned
    obtain ⟨day, _, rfl⟩ := List.mem_map.mp hplan
    rw [List.mem_singleton.mp hplanned]
    exact ⟨le_rfl, le_rfl⟩
  · exact List.pairwise_map.mpr (tiles_daysBetween hle).pairwise

theorem coversOnce_monthly (h : self.HasCoordinates) {earliestDate throughDate : Date} (todayUtc : Date)
    (hrange : earliestDate ≤ throughDate) :
    CoversOnce ((monthStarts earliestDate throughDate).map fun month => ⟨coordinateAt h month, .monthly,
      monthArchives h earliestDate throughDate todayUtc month⟩) earliestDate throughDate := by
  have hinside : monthStart earliestDate ≤ throughDate := (monthStart_le earliestDate).trans hrange
  have hfirst : earliestDate ≤ monthEnd (monthStart earliestDate) :=
    (monthEnd_monthStart earliestDate).symm ▸ le_monthEnd earliestDate
  have hmonths : monthStarts earliestDate throughDate =
      monthStartsFrom (monthStart earliestDate) throughDate := if_neg (not_lt.mpr hrange)
  obtain ⟨stop, hstop, hreached⟩ := tiles_months todayUtc hrange hinside hfirst
  obtain ⟨_, hwhole, hstarts⟩ := tiles_monthStartsFrom throughDate (isMonthStart_monthStart earliestDate)
  have hmembers : ∀ month ∈ monthStartsFrom (monthStart earliestDate) throughDate,
      Tiles PlannedArchive.coveredFromDate PlannedArchive.coveredThroughDate
        (monthFrom earliestDate todayUtc month) (monthThrough throughDate todayUtc month + 1)
        (monthArchives h earliestDate throughDate todayUtc month) := by
    intro month hmonth
    exact tiles_monthArchives h todayUtc (hstarts month hmonth) (hreached.le_of_mem month hmonth)
  have hflat : ((monthStarts earliestDate throughDate).map fun month => (⟨coordinateAt h month, .monthly,
      monthArchives h earliestDate throughDate todayUtc month⟩ : PlannedPartition)).flatMap
        PlannedPartition.archives = (monthStartsFrom (monthStart earliestDate) throughDate).flatMap
          (monthArchives h earliestDate throughDate todayUtc) := by
    rw [List.flatMap_map, hmonths]
  have htiles := hreached.flatMap hmembers
  refine ⟨fun day hday hlast => ?_, ?_, ?_, ?_⟩
  · rw [hflat]
    exact htiles.existsUnique ((monthFrom_le (monthStart_le earliestDate)).trans hday) (hlast.trans_lt hstop)
  · rw [hflat]
    exact htiles.pairwise
  · intro plan hplan planned hplanned
    obtain ⟨month, hmonth, rfl⟩ := List.mem_map.mp hplan
    obtain ⟨hfrom, hthrough⟩ := (hmembers month (hmonths ▸ hmonth)).inside planned hplanned
    exact ⟨monthFrom_ge.trans hfrom, (Int.lt_add_one_iff.mp hthrough).trans monthThrough_le⟩
  · rw [hmonths]
    exact List.pairwise_map.mpr hwhole.pairwise

/-! ### Refusals -/

theorem coordinate_error {day : Date} {e : PyError} (h : self.coordinate day = .error e) :
    e.kind = .dataIntegrity ∧ ¬ self.HasCoordinates := by
  refine ⟨?_, fun hhas => by rw [coordinate_ok hhas] at h; cases h⟩
  cases hchecked : (self.coordinateFields day).postInit with
  | ok u =>
    have hok : self.coordinate day = .ok ⟨self.coordinateFields day, hchecked⟩ := construct_ok hchecked
    rw [hok] at h
    cases h
  | error refused =>
    have herror : self.coordinate day = .error refused := construct_error hchecked
    obtain rfl := Except.error.inj (h.symm.trans herror)
    simp only [ArchiveCoordinateFields.postInit] at hchecked
    rcases bind_eq_error hchecked with hsymbol | ⟨_, _, hrest⟩
    · exact raiseIf_error hsymbol
    rcases bind_eq_error hrest with hinterval | ⟨_, _, hnone⟩
    · exact raiseIf_error hinterval
    · exact raiseIf_error hnone

theorem dailyPartition_error {day : Date} {e : PyError} (h : self.dailyPartition day = .error e) :
    e.kind = .dataIntegrity ∧ ¬ self.HasCoordinates := by
  rcases bind_eq_error h with hcoordinate | ⟨_, _, hreturned⟩
  · exact coordinate_error hcoordinate
  · cases hreturned

theorem monthlyPartition_error {earliestDate throughDate todayUtc month : Date} {e : PyError}
    (h : self.monthlyPartition earliestDate throughDate todayUtc month = .error e) :
    e.kind = .dataIntegrity ∧ ¬ self.HasCoordinates := by
  rcases bind_eq_error h with hcoordinate | ⟨partition, hpartition, _⟩
  · exact coordinate_error hcoordinate
  · rw [monthlyPartition_ok (coordinate_eq_ok hpartition)] at h
    cases h

/-- A plan that is made covers its range, and one that is refused had no range, no grain or no coordinates. -/
structure PlanContract (self : DatasetSeries) (earliestDate throughDate todayUtc : Date) : Prop where
  covered : ∀ plans, self.planPartitions earliestDate throughDate todayUtc = .ok plans →
    CoversOnce plans earliestDate throughDate
  refused : ∀ e, self.planPartitions earliestDate throughDate todayUtc = .error e →
    e.kind = .dataIntegrity ∧ (throughDate < earliestDate ∨ datasetPartitionGrain self.dataset = none ∨
      ¬ self.HasCoordinates)

/-- With coordinates, a plan is one partition for each day or each month. -/
theorem planPartitions_ok (h : self.HasCoordinates) {earliestDate throughDate : Date} (todayUtc : Date)
    (hrange : earliestDate ≤ throughDate) {grain : PartitionGrain}
    (hgrain : datasetPartitionGrain self.dataset = some grain) :
    ∃ plans, self.planPartitions earliestDate throughDate todayUtc = .ok plans ∧
      CoversOnce plans earliestDate throughDate := by
  have hrefused : ¬ throughDate < earliestDate := not_lt.mpr hrange
  cases grain with
  | daily =>
    refine ⟨_, ?_, coversOnce_daily h hrange⟩
    simp only [planPartitions, bind_eq_ok, raiseIf_eq_ok, hgrain]
    refine ⟨(), hrefused, ?_⟩
    rw [mapM_eq_ok_iff, List.forall₂_map_right_iff]
    exact List.forall₂_same.mpr fun day _ => dailyPartition_ok h day
  | monthly =>
    refine ⟨_, ?_, coversOnce_monthly h todayUtc hrange⟩
    simp only [planPartitions, bind_eq_ok, raiseIf_eq_ok, hgrain]
    refine ⟨(), hrefused, ?_⟩
    rw [mapM_eq_ok_iff, List.forall₂_map_right_iff]
    exact List.forall₂_same.mpr fun month _ => monthlyPartition_ok h _ _ _ month

/-- A plan of at least one partition was made with coordinates. -/
theorem hasCoordinates_of_planPartitions {earliestDate throughDate todayUtc : Date}
    {plans : List PlannedPartition} (h : self.planPartitions earliestDate throughDate todayUtc = .ok plans) :
    earliestDate ≤ throughDate ∧ (∃ grain, datasetPartitionGrain self.dataset = some grain) ∧
      self.HasCoordinates := by
  simp only [planPartitions, bind_eq_ok, raiseIf_eq_ok, not_lt] at h
  obtain ⟨_, hrange, hplans⟩ := h
  cases hgrain : datasetPartitionGrain self.dataset with
  | none =>
    rw [hgrain] at hplans
    cases hplans
  | some grain =>
    rw [hgrain] at hplans
    refine ⟨hrange, ⟨grain, rfl⟩, ?_⟩
    cases grain with
    | daily =>
      obtain ⟨day, hday, _⟩ := (tiles_daysBetween (hrange.trans (Int.le_add_one le_rfl))).covers le_rfl
        (Int.lt_add_one_of_le hrange)
      obtain ⟨plan, _, hplan⟩ := exists_right_of_forall₂ (mapM_eq_ok_iff.mp hplans) hday
      obtain ⟨_, hcoordinate, _⟩ := bind_eq_ok.mp hplan
      exact coordinate_eq_ok hcoordinate
    | monthly =>
      have hfirst : monthStart earliestDate ∈ monthStarts earliestDate throughDate := by
        rw [monthStarts, if_neg (not_lt.mpr hrange), monthStartsFrom,
          dif_pos ((monthStart_le earliestDate).trans hrange)]
        exact List.mem_cons_self
      obtain ⟨plan, _, hplan⟩ := exists_right_of_forall₂ (mapM_eq_ok_iff.mp hplans) hfirst
      obtain ⟨_, hcoordinate, _⟩ := bind_eq_ok.mp hplan
      exact coordinate_eq_ok hcoordinate

theorem planContract (self : DatasetSeries) (earliestDate throughDate todayUtc : Date) :
    self.PlanContract earliestDate throughDate todayUtc where
  covered := by
    intro plans hplans
    obtain ⟨hrange, ⟨grain, hgrain⟩, hhas⟩ := hasCoordinates_of_planPartitions hplans
    obtain ⟨found, hfound, hcovers⟩ := planPartitions_ok hhas todayUtc hrange hgrain
    obtain rfl := Except.ok.inj (hplans.symm.trans hfound)
    exact hcovers
  refused := by
    intro e he
    simp only [planPartitions] at he
    rcases bind_eq_error he with hrange | ⟨_, hrange, hplans⟩
    · refine ⟨raiseIf_error hrange, .inl ?_⟩
      by_contra hnot
      rw [raiseIf, if_neg hnot] at hrange
      cases hrange
    · cases hgrain : datasetPartitionGrain self.dataset with
      | none =>
        rw [hgrain] at hplans
        exact ⟨congrArg PyError.kind (Except.error.inj hplans).symm, .inr (.inl rfl)⟩
      | some grain =>
        rw [hgrain] at hplans
        cases grain with
        | daily =>
          obtain ⟨day, _, hday⟩ := mapM_error hplans
          obtain ⟨hkind, hnot⟩ := dailyPartition_error hday
          exact ⟨hkind, .inr (.inr hnot)⟩
        | monthly =>
          obtain ⟨month, _, hmonth⟩ := mapM_error hplans
          obtain ⟨hkind, hnot⟩ := monthlyPartition_error hmonth
          exact ⟨hkind, .inr (.inr hnot)⟩

end DatasetSeries

/-! ### The search -/

/-- Between two places, the search stops at the first that is published, of places that stay published. -/
theorem firstPublishedBetween_spec {isPublished : ℕ → Bool} {size : ℕ}
    (hmono : ∀ i j, i ≤ j → j < size → isPublished i → isPublished j) {low high : ℕ} (hle : low ≤ high)
    (hsize : high ≤ size) : low ≤ firstPublishedBetween isPublished low high ∧
      firstPublishedBetween isPublished low high ≤ high ∧
      (∀ i, low ≤ i → i < firstPublishedBetween isPublished low high → isPublished i = false) ∧
      (firstPublishedBetween isPublished low high < high →
        isPublished (firstPublishedBetween isPublished low high)) := by
  induction low, high using firstPublishedBetween.induct isPublished with
  | case1 low high hlt hpublished ih =>
    rw [firstPublishedBetween, if_pos hlt, if_pos hpublished]
    obtain ⟨hlow, hmiddle, hbefore, hfound⟩ := ih (by omega) (by omega)
    refine ⟨hlow, by omega, hbefore, fun _ => ?_⟩
    rcases Nat.lt_or_eq_of_le hmiddle with hless | heq
    · exact hfound hless
    · rw [heq]
      exact hpublished
  | case2 low high hlt hunpublished ih =>
    rw [firstPublishedBetween, if_pos hlt, if_neg hunpublished]
    obtain ⟨hlow, hhigh, hbefore, hfound⟩ := ih (by omega) hsize
    refine ⟨by omega, hhigh, fun i hi hless => ?_, hfound⟩
    by_cases hmiddle : i ≤ (low + high) / 2
    · rw [← Bool.not_eq_true]
      exact fun hpublished => hunpublished (hmono i _ hmiddle (by omega) hpublished)
    · exact hbefore i (by omega) hless
  | case3 low high hnot =>
    rw [firstPublishedBetween, if_neg hnot]
    exact ⟨le_rfl, hle, fun i hi hless => absurd hi (by omega), fun hless => absurd hless hnot⟩

/-- Candidates that stay published from the first one that is. -/
structure PublishedRun where
  candidates : List Date
  isPublished : Date → Bool
  contiguous : candidates.Pairwise fun earlier later => isPublished earlier → isPublished later

theorem PublishedRun.firstPublished_eq (run : PublishedRun) :
    firstPublished run.candidates run.isPublished = run.candidates.find? run.isPublished := by
  have hmono : ∀ i j, i ≤ j → j < run.candidates.length →
      (run.candidates[i]?).any run.isPublished → (run.candidates[j]?).any run.isPublished := by
    intro i j hle hj hi
    rw [List.getElem?_eq_getElem (by omega), Option.any_some] at hi
    rw [List.getElem?_eq_getElem hj, Option.any_some]
    rcases Nat.lt_or_eq_of_le hle with hlt | rfl
    · exact List.pairwise_iff_getElem.mp run.contiguous i j (by omega) hj hlt hi
    · exact hi
  obtain ⟨_, hhigh, hbefore, hfound⟩ := firstPublishedBetween_spec hmono (Nat.zero_le _) le_rfl
  rw [firstPublished]
  rcases Nat.lt_or_eq_of_le hhigh with hlt | heq
  · rw [List.getElem?_eq_getElem hlt, eq_comm, List.find?_eq_some_iff_getElem]
    refine ⟨?_, _, hlt, rfl, fun j hj => ?_⟩
    · have hpublished := hfound hlt
      rwa [List.getElem?_eq_getElem hlt, Option.any_some] at hpublished
    · have hnot := hbefore j (Nat.zero_le _) hj
      rw [List.getElem?_eq_getElem (hj.trans hlt), Option.any_some] at hnot
      rw [hnot]
      rfl
  · rw [heq, List.getElem?_eq_none le_rfl, eq_comm, List.find?_eq_none]
    intro day hday
    obtain ⟨i, hi, rfl⟩ := List.mem_iff_getElem.mp hday
    have hnot := hbefore i (Nat.zero_le _) (lt_of_lt_of_eq hi heq.symm)
    rw [List.getElem?_eq_getElem hi, Option.any_some] at hnot
    rw [hnot]
    exact Bool.false_ne_true

/-- A plan covers every day of its range once, and the search before it finds the first published archive. -/
theorem plans_cover_every_day_once (series : DatasetSeries) (earliestDate throughDate todayUtc : Date)
    (run : PublishedRun) : series.PlanContract earliestDate throughDate todayUtc ∧
      firstPublished run.candidates run.isPublished = run.candidates.find? run.isPublished :=
  ⟨series.planContract earliestDate throughDate todayUtc, run.firstPublished_eq⟩

end FinanceKing.Data
