import FinanceKing.Data.Registry
import FinanceKing.Lib.Fold

/-! Histories of the gap registry: which gaps are open after each call, which instants they cover, and
    when a call leaves a hole unrecorded. -/

namespace FinanceKing.Data

open Lib

/-! ### What is on record -/

namespace IngestTables

variable (self : IngestTables) (series : SeriesKey)

def isOpen (bounds : DateTime × DateTime) : Bool :=
  (self.coverageGap.get? (series, bounds)).any (·.resolution.isNone)

def isResolved (bounds : DateTime × DateTime) : Bool :=
  (self.coverageGap.get? (series, bounds)).any (·.resolution.isSome)

def isRecorded (bounds : DateTime × DateTime) : Bool :=
  (self.coverageGap.get? (series, bounds)).isSome

/-- The instants the open gaps of a series cover. -/
def openPoints : Set DateTime := points ((self.openGaps series).map (·.gap.bounds))

variable {self series} {bounds : DateTime × DateTime}

theorem exists_openGaps_iff :
    (∃ found ∈ self.openGaps series, found.gap.bounds = bounds) ↔ self.isOpen series bounds := by
  simp only [openGaps, mem_sortBy, List.mem_filterMap, isOpen, Option.any_eq_true,
    Dict.get?_eq_some_iff]
  constructor
  · rintro ⟨found, ⟨⟨⟨key, lo, hi⟩, row⟩, hentry, hsome⟩, rfl⟩
    split at hsome
    · next h =>
      obtain rfl := Option.some.inj hsome
      obtain ⟨rfl, hopen⟩ := h
      exact ⟨row, hentry, hopen⟩
    · cases hsome
  · rintro ⟨row, hentry, hopen⟩
    refine ⟨⟨series, ⟨bounds.1, bounds.2, row.gapKind, row.missingBarCount⟩, row.discoveredAtUtc⟩,
      ⟨_, hentry, ?_⟩, rfl⟩
    rw [if_pos ⟨rfl, hopen⟩]

theorem mem_openPoints {t : DateTime} :
    t ∈ self.openPoints series ↔ ∃ bounds, self.isOpen series bounds ∧ bounds.1 ≤ t ∧ t < bounds.2 := by
  simp only [openPoints, mem_points, List.mem_map]
  constructor
  · rintro ⟨_, ⟨found, hfound, rfl⟩, ht⟩
    exact ⟨_, exists_openGaps_iff.mp ⟨found, hfound, rfl⟩, ht⟩
  · rintro ⟨bounds, hopen, ht⟩
    obtain ⟨found, hfound, rfl⟩ := exists_openGaps_iff.mpr hopen
    exact ⟨_, ⟨found, hfound, rfl⟩, ht⟩

theorem isOpen_eq_recorded (h : self.isResolved series bounds = false) :
    self.isOpen series bounds = self.isRecorded series bounds := by
  rw [isOpen, isRecorded]
  rw [isResolved] at h
  cases hrow : self.coverageGap.get? (series, bounds) with
  | none => rfl
  | some row => simpa [hrow] using h

theorem not_isOpen_of_isResolved (h : self.isResolved series bounds) :
    self.isOpen series bounds = false := by
  rw [isOpen]
  rw [isResolved] at h
  cases hrow : self.coverageGap.get? (series, bounds) with
  | none => rfl
  | some row => simpa [hrow] using h

/-! ### Inserting gaps -/

/-- The table once every gap of the list has been inserted. -/
def placed (self : IngestTables) (series : SeriesKey) (discoveredAtUtc : DateTime)
    (gaps : List RecordedGap) : IngestTables :=
  gaps.foldl (fun tables gap => tables.placeGap series discoveredAtUtc gap) self

variable {discoveredAtUtc : DateTime} {gaps : List RecordedGap}

theorem insertGaps_ok (discoveredAtUtc : DateTime) : ∀ {gaps : List RecordedGap}
    (tables : IngestTables), (∀ gap ∈ gaps, gap.constraints series = .ok ()) →
    ∃ n, insertGaps series discoveredAtUtc gaps tables =
      .ok (tables.placed series discoveredAtUtc gaps, n)
  | [], tables, _ => ⟨0, rfl⟩
  | gap :: gaps, tables, h => by
    obtain ⟨hgap, hgaps⟩ := List.forall_mem_cons.mp h
    obtain ⟨n, hn⟩ := insertGaps_ok discoveredAtUtc (tables.placeGap series discoveredAtUtc gap) hgaps
    refine ⟨n + if (tables.coverageGap.get? (series, gap.bounds)).isNone then 1 else 0, ?_⟩
    rw [insertGaps, hgap]
    simp only [bind, Except.bind, hn]
    rfl

theorem insertGaps_error (discoveredAtUtc : DateTime) : ∀ {gaps : List RecordedGap}
    (tables : IngestTables), ¬ (∀ gap ∈ gaps, gap.constraints series = .ok ()) →
    ∃ e, insertGaps series discoveredAtUtc gaps tables = .error e
  | [], _, h => absurd (by simp) h
  | gap :: gaps, tables, h => by
    rw [insertGaps]
    rcases hgap : gap.constraints series with e | u
    · exact ⟨e, rfl⟩
    · have hgaps : ¬ ∀ gap ∈ gaps, gap.constraints series = .ok () := fun hgaps =>
        h (List.forall_mem_cons.mpr ⟨hgap, hgaps⟩)
      obtain ⟨e, he⟩ := insertGaps_error discoveredAtUtc (tables.placeGap series discoveredAtUtc gap) hgaps
      exact ⟨e, by simp only [bind, Except.bind, he]⟩

theorem get?_placed (series : SeriesKey) (discoveredAtUtc : DateTime) (key : GapKey) :
    ∀ (gaps : List RecordedGap) (tables : IngestTables),
    (∀ row, tables.coverageGap.get? key = some row →
      (tables.placed series discoveredAtUtc gaps).coverageGap.get? key = some row) ∧
    (tables.coverageGap.get? key = none →
      ((tables.placed series discoveredAtUtc gaps).coverageGap.get? key).isSome =
        decide (key ∈ gaps.map fun gap => (series, gap.bounds)) ∧
      ∀ row, (tables.placed series discoveredAtUtc gaps).coverageGap.get? key = some row →
        row.resolution = none)
  | [], tables => by
    refine ⟨fun row h => h, fun h => ?_⟩
    have hsame : (tables.placed series discoveredAtUtc []).coverageGap.get? key = none := h
    simp [hsame]
  | gap :: gaps, tables => by
    obtain ⟨hold, hnew⟩ := get?_placed series discoveredAtUtc key gaps
      (tables.placeGap series discoveredAtUtc gap)
    have hplace := tables.coverageGap.get?_setDefault (series, gap.bounds)
      ⟨gap.gapKind, gap.missingBarCount, discoveredAtUtc, none⟩ key
    by_cases hkey : key = (series, gap.bounds)
    · subst hkey
      rw [if_pos rfl] at hplace
      have hrow := hold _ hplace
      refine ⟨fun row h => hrow.trans (by rw [h]; rfl), fun h => ?_⟩
      rw [h] at hrow
      refine ⟨(congrArg Option.isSome hrow).trans (by simp), fun row heq => ?_⟩
      rw [← Option.some.inj (hrow.symm.trans heq)]
      rfl
    · rw [if_neg hkey] at hplace
      refine ⟨fun row h => hold row (hplace.trans h), fun h => ?_⟩
      obtain ⟨hsome, hnone⟩ := hnew (hplace.trans h)
      exact ⟨hsome.trans (by simp [hkey]), hnone⟩

theorem isResolved_placed {other : SeriesKey} :
    (self.placed series discoveredAtUtc gaps).isResolved other bounds =
      self.isResolved other bounds := by
  obtain ⟨hold, hnew⟩ := get?_placed series discoveredAtUtc (other, bounds) gaps self
  rw [isResolved, isResolved]
  cases hrow : self.coverageGap.get? (other, bounds) with
  | some row => rw [hold row hrow]
  | none =>
    obtain ⟨_, hnone⟩ := hnew hrow
    cases hafter : (self.placed series discoveredAtUtc gaps).coverageGap.get? (other, bounds) with
    | none => rfl
    | some row => simp [hnone row hafter]

theorem isRecorded_placed (h : bounds ∈ gaps.map RecordedGap.bounds) :
    (self.placed series discoveredAtUtc gaps).isRecorded series bounds := by
  obtain ⟨hold, hnew⟩ := get?_placed series discoveredAtUtc (series, bounds) gaps self
  rw [isRecorded]
  cases hrow : self.coverageGap.get? (series, bounds) with
  | some row => rw [hold row hrow]; rfl
  | none =>
    obtain ⟨gap, hgap, rfl⟩ := List.mem_map.mp h
    refine (hnew hrow).1.trans (decide_eq_true ?_)
    exact List.mem_map_of_mem (f := fun gap : RecordedGap => (series, gap.bounds)) hgap

theorem isOpen_placed : (self.placed series discoveredAtUtc gaps).isOpen series bounds ↔
    self.isOpen series bounds ∨
      (bounds ∈ gaps.map RecordedGap.bounds ∧ self.isRecorded series bounds = false) := by
  obtain ⟨hold, hnew⟩ := get?_placed series discoveredAtUtc (series, bounds) gaps self
  rw [isOpen, isOpen, isRecorded]
  cases hrow : self.coverageGap.get? (series, bounds) with
  | some row => simp [hold row hrow]
  | none =>
    obtain ⟨hsome, hnone⟩ := hnew hrow
    cases hafter : (self.placed series discoveredAtUtc gaps).coverageGap.get? (series, bounds) with
    | none => simpa [hafter] using hsome
    | some row => simpa [hafter, hnone row hafter] using hsome

/-- Inserting gaps changes nothing exactly when every one of them is already a row. -/
theorem placed_eq_self_iff : self.placed series discoveredAtUtc gaps = self ↔
    ∀ gap ∈ gaps, self.isRecorded series gap.bounds := by
  constructor
  · intro heq gap hgap
    obtain ⟨_, hnew⟩ := get?_placed series discoveredAtUtc (series, gap.bounds) gaps self
    rw [isRecorded]
    cases hrow : self.coverageGap.get? (series, gap.bounds) with
    | some row => rfl
    | none =>
      have hsome := (hnew hrow).1
      rw [heq, hrow] at hsome
      have hmem : (series, gap.bounds) ∈ gaps.map fun gap => (series, gap.bounds) :=
        List.mem_map_of_mem hgap
      simp [hmem] at hsome
  · intro h
    induction gaps with
    | nil => rfl
    | cons gap gaps ih =>
      obtain ⟨hgap, hgaps⟩ := List.forall_mem_cons.mp h
      obtain ⟨row, hrow⟩ := Option.isSome_iff_exists.mp hgap
      have hplace : self.placeGap series discoveredAtUtc gap = self := by
        rw [placeGap, Dict.setDefault, hrow]
      rw [placed, List.foldl_cons, hplace]
      exact ih hgaps

/-! ### Marking a gap -/

theorem markResolved_of_isOpen {gap : RecordedGap} (resolution : GapResolution)
    (resolvedAtUtc : DateTime) (h : self.isOpen series gap.bounds) :
    ∃ after, self.markResolved series gap resolution resolvedAtUtc = (after, true) ∧
      ∀ bounds, after.isOpen series bounds ↔ bounds ≠ gap.bounds ∧ self.isOpen series bounds := by
  rw [isOpen] at h
  cases hrow : self.coverageGap.get? (series, gap.bounds) with
  | none => simp [hrow] at h
  | some row =>
    have hnone : row.resolution.isNone := by simpa [hrow] using h
    rw [markResolved, hrow]
    simp only [hnone, if_true]
    refine ⟨_, rfl, fun bounds => ?_⟩
    by_cases hb : bounds = gap.bounds
    · subst hb
      simp [isOpen]
    · rw [isOpen, Dict.get?_set_of_ne _ _ (by simpa using hb)]
      simp [isOpen, hb]

theorem markResolved_of_not_isOpen {gap : RecordedGap} {resolution : GapResolution}
    {resolvedAtUtc : DateTime} (h : self.isOpen series gap.bounds = false) :
    self.markResolved series gap resolution resolvedAtUtc = (self, false) := by
  rw [isOpen] at h
  rw [markResolved]
  cases hrow : self.coverageGap.get? (series, gap.bounds) with
  | none => rfl
  | some row =>
    have hsome : row.resolution.isNone = false := by simpa [hrow] using h
    simp [hsome]

end IngestTables

/-! ### Calls -/

/-- One call of the registry's writers. -/
inductive RegistryCall where
  | recordPartition (record : PartitionRecord) (discoveredAtUtc : DateTime)
  | recordGaps (coordinate : ArchiveCoordinate) (gaps : List RecordedGap)
      (discoveredAtUtc : DateTime)
  | recordSeriesGaps (series : SeriesKey) (gaps : List RecordedGap) (discoveredAtUtc : DateTime)
  | resolveGap (openGap : OpenGap) (residuals : List RecordedGap) (resolvedAtUtc : DateTime)

namespace RegistryCall

/-- The table the call leaves, and whether it returns. -/
def perform (tables : IngestTables) : RegistryCall → IngestTables × PyResult Unit
  | .recordPartition record discoveredAtUtc =>
    let outcome := tables.recordPartition record discoveredAtUtc
    (outcome.1, outcome.2.map fun _ => ())
  | .recordGaps coordinate gaps discoveredAtUtc =>
    let outcome := tables.recordGaps coordinate gaps discoveredAtUtc
    (outcome.1, outcome.2.map fun _ => ())
  | .recordSeriesGaps series gaps discoveredAtUtc =>
    let outcome := tables.recordSeriesGaps series gaps discoveredAtUtc
    (outcome.1, outcome.2.map fun _ => ())
  | .resolveGap openGap residuals resolvedAtUtc =>
    let outcome := tables.resolveGap openGap residuals resolvedAtUtc
    (outcome.1, outcome.2.map fun _ => ())

def series : RegistryCall → SeriesKey
  | .recordPartition record _ => SeriesKey.fromCoordinate record.coordinate
  | .recordGaps coordinate _ _ => SeriesKey.fromCoordinate coordinate
  | .recordSeriesGaps series _ _ => series
  | .resolveGap openGap _ _ => openGap.series

/-- The gaps the call was handed to put on record: all of them, or the residuals of a repair. -/
def gaps : RegistryCall → List RecordedGap
  | .recordPartition record _ => record.gaps
  | .recordGaps _ gaps _ => gaps
  | .recordSeriesGaps _ gaps _ => gaps
  | .resolveGap _ residuals _ => residuals

/-- The gap the call resolves, if it is a repair. -/
def resolves : RegistryCall → Option RecordedGap
  | .resolveGap openGap _ _ => some openGap.gap
  | _ => none

def discoveredAtUtc : RegistryCall → DateTime
  | .recordPartition _ discoveredAtUtc => discoveredAtUtc
  | .recordGaps _ _ discoveredAtUtc => discoveredAtUtc
  | .recordSeriesGaps _ _ discoveredAtUtc => discoveredAtUtc
  | .resolveGap openGap _ _ => openGap.discoveredAtUtc

/-- The arguments pass the method's own checks and the tables' constraints. -/
def Accepted (call : RegistryCall) : Prop :=
  (∀ gap ∈ call.gaps, gap.constraints call.series = .ok ()) ∧
    match call with
    | .recordPartition record _ => record.row.constraints call.series = .ok () ∧
        ∀ ingested ∈ record.files, (record.fileRow ingested).constraints call.series = .ok ()
    | .resolveGap openGap residuals _ => ∀ residual ∈ residuals,
        IngestTables.checkResidual openGap residual = .ok ()
    | _ => True

end RegistryCall

/-- What a call owes the holes on record: what it was handed is open, what it resolves is gone and
    nothing else is, and a call that raises has written nothing. -/
structure NothingLost (tables : IngestTables) (call : RegistryCall) : Prop where
  recorded : (call.perform tables).2 = .ok () → ∀ gap ∈ call.gaps,
    ∃ found ∈ (call.perform tables).1.openGaps call.series, found.gap.bounds = gap.bounds
  resolved : (call.perform tables).2 = .ok () → ∀ gap ∈ call.resolves,
    (call.perform tables).1.openPoints call.series =
      tables.openPoints call.series \ points [gap.bounds] ∪
        (points (call.gaps.map RecordedGap.bounds) ∪
          points (((tables.openGaps call.series).map (·.gap.bounds)).filter (· ≠ gap.bounds)))
  raised : ∀ e, (call.perform tables).2 = .error e → (call.perform tables).1 = tables

/-- No gap handed over is a row marked resolved before; a repair finds its gap unresolved, or stops
    before it writes, or has nothing to write. -/
def KeepsHoles (tables : IngestTables) (call : RegistryCall) : Prop :=
  call.Accepted → match call.resolves with
    | none => ∀ gap ∈ call.gaps, tables.isResolved call.series gap.bounds = false
    | some gap => tables.isOpen call.series gap.bounds ∨
        (∃ residual ∈ call.gaps, tables.isResolved call.series residual.bounds) ∨
        ∀ residual ∈ call.gaps, tables.isRecorded call.series residual.bounds

/-! ### What a call does -/

section Outcomes

variable {tables : IngestTables} {call : RegistryCall}

theorem upsertPartition_ok (tables : IngestTables) {series : SeriesKey} {record : PartitionRecord}
    (hrow : record.row.constraints series = .ok ())
    (hfiles : ∀ ingested ∈ record.files, (record.fileRow ingested).constraints series = .ok ()) :
    ∃ written, tables.upsertPartition series record = .ok written ∧
      written.coverageGap = tables.coverageGap := by
  rw [IngestTables.upsertPartition, hrow]
  simp only [bind, Except.bind]
  generalize hstart : ({ tables with ingestPartition := _ } : IngestTables) = start
  have hsame : start.coverageGap = tables.coverageGap := by rw [← hstart]
  clear hstart
  revert hfiles
  generalize record.files = files
  intro hfiles
  induction files generalizing start with
  | nil => exact ⟨start, rfl, hsame⟩
  | cons ingested files ih =>
    obtain ⟨hhead, htail⟩ := List.forall_mem_cons.mp hfiles
    rw [List.foldlM_cons, hhead]
    exact ih _ hsame htail

theorem upsertPartition_error (tables : IngestTables) {series : SeriesKey} {record : PartitionRecord}
    (h : ¬ (record.row.constraints series = .ok () ∧
      ∀ ingested ∈ record.files, (record.fileRow ingested).constraints series = .ok ())) :
    ∃ e, tables.upsertPartition series record = .error e := by
  rw [IngestTables.upsertPartition]
  rcases hrow : record.row.constraints series with e | u
  · exact ⟨e, rfl⟩
  · have hfiles : ¬ ∀ ingested ∈ record.files, (record.fileRow ingested).constraints series = .ok () :=
      fun hfiles => h ⟨hrow, hfiles⟩
    simp only [bind, Except.bind]
    generalize ({ tables with ingestPartition := _ } : IngestTables) = start
    clear h
    revert hfiles
    generalize record.files = files
    intro hfiles
    induction files generalizing start with
    | nil => exact absurd (by simp) hfiles
    | cons ingested files ih =>
      rw [List.foldlM_cons]
      rcases hhead : (record.fileRow ingested).constraints series with e | u
      · exact ⟨e, rfl⟩
      · exact ih _ fun htail => hfiles (List.forall_mem_cons.mpr ⟨hhead, htail⟩)

/-- A recording that is accepted returns, its gaps inserted; one that is not raises and writes nothing. -/
theorem perform_recording (tables : IngestTables) (hresolves : call.resolves = none) :
    (call.Accepted → ∃ written : IngestTables, written.coverageGap = tables.coverageGap ∧
      call.perform tables =
        (written.placed call.series call.discoveredAtUtc call.gaps, .ok ())) ∧
    (¬ call.Accepted → ∃ e, call.perform tables = (tables, .error e)) := by
  have hseries : ∀ series gaps discoveredAtUtc,
      ((∀ gap ∈ gaps, RecordedGap.constraints series gap = .ok ()) → ∃ n,
        tables.recordSeriesGaps series gaps discoveredAtUtc =
          (tables.placed series discoveredAtUtc gaps, .ok n)) ∧
      ((¬ ∀ gap ∈ gaps, RecordedGap.constraints series gap = .ok ()) → ∃ e,
        tables.recordSeriesGaps series gaps discoveredAtUtc = (tables, .error e)) := by
    intro series gaps discoveredAtUtc
    rw [IngestTables.recordSeriesGaps]
    by_cases hnil : gaps = []
    · subst hnil
      exact ⟨fun _ => ⟨0, rfl⟩, fun h => absurd (by simp) h⟩
    · rw [if_neg hnil]
      refine ⟨fun h => ?_, fun h => ?_⟩
      · obtain ⟨n, hn⟩ := IngestTables.insertGaps_ok discoveredAtUtc tables h
        exact ⟨n, by rw [hn]; rfl⟩
      · obtain ⟨e, he⟩ := IngestTables.insertGaps_error discoveredAtUtc tables h
        exact ⟨e, by rw [he]; rfl⟩
  cases call with
  | recordPartition record discoveredAtUtc =>
    refine ⟨fun ⟨hgaps, hrow, hfiles⟩ => ?_, fun h => ?_⟩
    · obtain ⟨written, hwritten, hsame⟩ := upsertPartition_ok tables hrow hfiles
      obtain ⟨n, hn⟩ := IngestTables.insertGaps_ok discoveredAtUtc written hgaps
      refine ⟨written, hsame, ?_⟩
      simp only [RegistryCall.perform, IngestTables.recordPartition]
      simp only [RegistryCall.series, RegistryCall.gaps] at hwritten hn
      rw [hwritten]
      simp only [bind, Except.bind, hn]
      rfl
    · simp only [RegistryCall.perform, IngestTables.recordPartition]
      by_cases hup : record.row.constraints (SeriesKey.fromCoordinate record.coordinate) = .ok () ∧
          ∀ ingested ∈ record.files, (record.fileRow ingested).constraints
            (SeriesKey.fromCoordinate record.coordinate) = .ok ()
      · obtain ⟨written, hwritten, _⟩ := upsertPartition_ok tables hup.1 hup.2
        have hgaps : ¬ ∀ gap ∈ record.gaps,
            gap.constraints (SeriesKey.fromCoordinate record.coordinate) = .ok () := fun hgaps =>
          h ⟨hgaps, hup⟩
        obtain ⟨e, he⟩ := IngestTables.insertGaps_error discoveredAtUtc written hgaps
        refine ⟨e, ?_⟩
        rw [hwritten]
        simp only [bind, Except.bind, he]
        rfl
      · obtain ⟨e, he⟩ := upsertPartition_error tables hup
        exact ⟨e, by rw [he]; rfl⟩
  | recordGaps coordinate gaps discoveredAtUtc =>
    obtain ⟨hok, herror⟩ := hseries (SeriesKey.fromCoordinate coordinate) gaps discoveredAtUtc
    refine ⟨fun h => ?_, fun h => ?_⟩
    · obtain ⟨n, hn⟩ := hok h.1
      exact ⟨tables, rfl, by rw [RegistryCall.perform, IngestTables.recordGaps, hn]; rfl⟩
    · obtain ⟨e, he⟩ := herror fun hgaps => h ⟨hgaps, trivial⟩
      exact ⟨e, by rw [RegistryCall.perform, IngestTables.recordGaps, he]; rfl⟩
  | recordSeriesGaps series gaps discoveredAtUtc =>
    obtain ⟨hok, herror⟩ := hseries series gaps discoveredAtUtc
    refine ⟨fun h => ?_, fun h => ?_⟩
    · obtain ⟨n, hn⟩ := hok h.1
      exact ⟨tables, rfl, by rw [RegistryCall.perform, hn]; rfl⟩
    · obtain ⟨e, he⟩ := herror fun hgaps => h ⟨hgaps, trivial⟩
      exact ⟨e, by rw [RegistryCall.perform, he]; rfl⟩
  | resolveGap openGap residuals resolvedAtUtc => cases hresolves

variable {openGap : OpenGap} {residuals : List RecordedGap} {resolvedAtUtc : DateTime}

theorem requireResidualIsOpen_eq_ok {series : SeriesKey} {residual : RecordedGap} :
    tables.requireResidualIsOpen series residual = .ok () ↔ tables.isOpen series residual.bounds := by
  rw [IngestTables.requireResidualIsOpen, IngestTables.isOpen]
  cases hrow : tables.coverageGap.get? (series, residual.bounds) with
  | none => simp
  | some row =>
    obtain ⟨_, _, _, resolution⟩ := row
    cases resolution with
    | none => simp
    | some resolution => simp

theorem checkResidual_narrower {residual : RecordedGap}
    (h : IngestTables.checkResidual openGap residual = .ok ()) :
    residual.bounds ≠ openGap.gap.bounds := by
  simp only [IngestTables.checkResidual, bind_eq_ok, raiseIf_eq_ok] at h
  obtain ⟨_, hne, _⟩ := h
  exact hne

/-- A repair whose arguments are refused, or one of whose residuals is marked resolved, writes nothing. -/
theorem resolveGap_refused (tables : IngestTables) (resolvedAtUtc : DateTime)
    (h : ¬ (RegistryCall.resolveGap openGap residuals resolvedAtUtc).Accepted ∨
      ∃ residual ∈ residuals, tables.isResolved openGap.series residual.bounds) :
    ∃ e, tables.resolveGap openGap residuals resolvedAtUtc = (tables, .error e) := by
  rw [IngestTables.resolveGap]
  rcases hcheck : residuals.forM (IngestTables.checkResidual openGap) with e | u
  · exact ⟨e, rfl⟩
  · simp only
    by_cases hgaps : ∀ residual ∈ residuals, residual.constraints openGap.series = .ok ()
    · obtain ⟨n, hn⟩ := IngestTables.insertGaps_ok openGap.discoveredAtUtc tables hgaps
      have hchecked := forM_eq_ok.mp hcheck
      obtain ⟨residual, hresidual, hresolved⟩ := h.resolve_left fun hrefused =>
        hrefused ⟨hgaps, hchecked⟩
      rw [hn]
      simp only [bind, Except.bind]
      rcases hopen : residuals.forM ((tables.placed openGap.series openGap.discoveredAtUtc
        residuals).requireResidualIsOpen openGap.series) with e | u
      · exact ⟨e, rfl⟩
      · have hstill := requireResidualIsOpen_eq_ok.mp (forM_eq_ok.mp hopen residual hresidual)
        rw [IngestTables.not_isOpen_of_isResolved
          (IngestTables.isResolved_placed.trans hresolved)] at hstill
        cases hstill
    · obtain ⟨e, he⟩ := IngestTables.insertGaps_error openGap.discoveredAtUtc tables hgaps
      exact ⟨e, by rw [he]; rfl⟩

/-- A repair that is not refused inserts its residuals; it returns, the gap marked, exactly when the gap
    was unresolved. -/
theorem resolveGap_accepted
    (h : (RegistryCall.resolveGap openGap residuals resolvedAtUtc).Accepted)
    (hunresolved : ¬ ∃ residual ∈ residuals, tables.isResolved openGap.series residual.bounds) :
    (tables.isOpen openGap.series openGap.gap.bounds → ∃ after resolution,
      tables.resolveGap openGap residuals resolvedAtUtc = (after, .ok resolution) ∧
      ∀ bounds, after.isOpen openGap.series bounds ↔ bounds ≠ openGap.gap.bounds ∧
        (tables.isOpen openGap.series bounds ∨ bounds ∈ residuals.map RecordedGap.bounds)) ∧
    (tables.isOpen openGap.series openGap.gap.bounds = false → ∃ e,
      tables.resolveGap openGap residuals resolvedAtUtc =
        (tables.placed openGap.series openGap.discoveredAtUtc residuals, .error e)) := by
  have hgaps : ∀ residual ∈ residuals, residual.constraints openGap.series = .ok () := h.1
  have hchecked : ∀ residual ∈ residuals, IngestTables.checkResidual openGap residual = .ok () := h.2
  obtain ⟨n, hn⟩ := IngestTables.insertGaps_ok openGap.discoveredAtUtc tables hgaps
  have hunresolved' : ∀ bounds ∈ residuals.map RecordedGap.bounds,
      tables.isResolved openGap.series bounds = false := by
    intro bounds hbounds
    obtain ⟨residual, hresidual, rfl⟩ := List.mem_map.mp hbounds
    exact Bool.eq_false_iff.mpr fun hresolved => hunresolved ⟨residual, hresidual, hresolved⟩
  have hopen : ∀ bounds, (tables.placed openGap.series openGap.discoveredAtUtc residuals).isOpen
      openGap.series bounds ↔
        tables.isOpen openGap.series bounds ∨ bounds ∈ residuals.map RecordedGap.bounds := by
    intro bounds
    rw [IngestTables.isOpen_placed]
    constructor
    · exact Or.imp_right And.left
    · rintro (hold | hnew)
      · exact .inl hold
      · rw [IngestTables.isOpen_eq_recorded (hunresolved' bounds hnew)]
        cases hrecorded : tables.isRecorded openGap.series bounds with
        | true => exact .inl rfl
        | false => exact .inr ⟨hnew, rfl⟩
  have hpass : residuals.forM ((tables.placed openGap.series openGap.discoveredAtUtc
      residuals).requireResidualIsOpen openGap.series) = .ok () :=
    forM_eq_ok.mpr fun residual hresidual => requireResidualIsOpen_eq_ok.mpr
      ((hopen _).mpr (.inr (List.mem_map_of_mem hresidual)))
  have hnarrower : openGap.gap.bounds ∉ residuals.map RecordedGap.bounds := by
    intro hmem
    obtain ⟨residual, hresidual, heq⟩ := List.mem_map.mp hmem
    exact checkResidual_narrower (hchecked residual hresidual) heq
  rw [IngestTables.resolveGap, forM_eq_ok.mpr hchecked]
  simp only [hn, bind, Except.bind, hpass]
  constructor
  · intro hG
    obtain ⟨after, hmark, hafter⟩ := IngestTables.markResolved_of_isOpen
      (if residuals = [] then .backfilled else .superseded) resolvedAtUtc ((hopen _).mpr (.inl hG))
    refine ⟨after, if residuals = [] then .backfilled else .superseded, ?_, fun bounds =>
      (hafter bounds).trans (and_congr_right fun _ => hopen bounds)⟩
    rw [hmark]
    rfl
  · intro hG
    have hG' : (tables.placed openGap.series openGap.discoveredAtUtc residuals).isOpen openGap.series
        openGap.gap.bounds = false := by
      rw [Bool.eq_false_iff]
      intro htrue
      rcases (hopen _).mp htrue with hold | hnew
      · rw [hG] at hold
        cases hold
      · exact hnarrower hnew
    rw [IngestTables.markResolved_of_not_isOpen hG']
    exact ⟨_, rfl⟩

end Outcomes

/-! ### Nothing is lost -/

section

variable {tables : IngestTables} {call : RegistryCall}

theorem nothingLost_of_error {e : PyError} (h : call.perform tables = (tables, .error e)) :
    NothingLost tables call where
  recorded hok := by rw [h] at hok; cases hok
  resolved hok := by rw [h] at hok; cases hok
  raised _ _ := by rw [h]

theorem nothingLost_recording_iff (hresolves : call.resolves = none) :
    NothingLost tables call ↔ KeepsHoles tables call := by
  obtain ⟨hreturns, hraises⟩ := perform_recording tables hresolves
  by_cases haccepted : call.Accepted
  · obtain ⟨written, hsame, hperform⟩ := hreturns haccepted
    have hresolved : ∀ bounds, (written.placed call.series call.discoveredAtUtc call.gaps).isResolved
        call.series bounds = tables.isResolved call.series bounds := by
      intro bounds
      rw [IngestTables.isResolved_placed, IngestTables.isResolved, hsame, IngestTables.isResolved]
    have hkeeps : KeepsHoles tables call ↔
        ∀ gap ∈ call.gaps, tables.isResolved call.series gap.bounds = false := by
      simp [KeepsHoles, hresolves, haccepted]
    rw [hkeeps]
    constructor
    · intro h gap hgap
      have hopen := IngestTables.exists_openGaps_iff.mp (h.recorded (by rw [hperform]) gap hgap)
      rw [hperform] at hopen
      rw [Bool.eq_false_iff]
      intro htrue
      rw [IngestTables.not_isOpen_of_isResolved ((hresolved _).trans htrue)] at hopen
      cases hopen
    · intro h
      refine ⟨fun _ gap hgap => ?_, fun _ gap hgap => ?_, fun e he => ?_⟩
      · rw [hperform]
        refine IngestTables.exists_openGaps_iff.mpr ?_
        rw [IngestTables.isOpen_eq_recorded ((hresolved _).trans (h gap hgap))]
        exact IngestTables.isRecorded_placed (List.mem_map_of_mem hgap)
      · rw [hresolves] at hgap
        cases hgap
      · rw [hperform] at he
        cases he
  · obtain ⟨e, hperform⟩ := hraises haccepted
    exact iff_of_true (nothingLost_of_error hperform) fun h => absurd h haccepted

/-- What is open once the gap is resolved covers what was, less the gap, with the residuals. -/
theorem openPoints_resolved {after : IngestTables} {series : SeriesKey} {gap : RecordedGap}
    {residuals : List RecordedGap} (hnarrower : ∀ residual ∈ residuals, residual.bounds ≠ gap.bounds)
    (h : ∀ bounds, after.isOpen series bounds ↔ bounds ≠ gap.bounds ∧
      (tables.isOpen series bounds ∨ bounds ∈ residuals.map RecordedGap.bounds)) :
    after.openPoints series = tables.openPoints series \ points [gap.bounds] ∪
      (points (residuals.map RecordedGap.bounds) ∪
        points (((tables.openGaps series).map (·.gap.bounds)).filter (· ≠ gap.bounds))) := by
  have hothers : ∀ t, t ∈ points (((tables.openGaps series).map (·.gap.bounds)).filter
      (· ≠ gap.bounds)) ↔
        ∃ bounds, bounds ≠ gap.bounds ∧ tables.isOpen series bounds ∧ bounds.1 ≤ t ∧ t < bounds.2 := by
    intro t
    simp only [mem_points, List.mem_filter, List.mem_map, decide_eq_true_eq]
    constructor
    · rintro ⟨_, ⟨⟨found, hfound, rfl⟩, hne⟩, ht⟩
      exact ⟨_, hne, IngestTables.exists_openGaps_iff.mp ⟨found, hfound, rfl⟩, ht⟩
    · rintro ⟨bounds, hne, hopen, ht⟩
      obtain ⟨found, hfound, rfl⟩ := IngestTables.exists_openGaps_iff.mpr hopen
      exact ⟨_, ⟨⟨found, hfound, rfl⟩, hne⟩, ht⟩
  ext t
  rw [Set.mem_union, Set.mem_union, Set.mem_sdiff, hothers, IngestTables.mem_openPoints,
    IngestTables.mem_openPoints, mem_points (l := [gap.bounds])]
  constructor
  · rintro ⟨bounds, hopen, ht⟩
    obtain ⟨hne, hold | hnew⟩ := (h bounds).mp hopen
    · exact .inr (.inr ⟨bounds, hne, hold, ht⟩)
    · exact .inr (.inl ⟨bounds, hnew, ht⟩)
  · rintro (⟨⟨bounds, hold, ht⟩, hout⟩ | ⟨bounds, hnew, ht⟩ | ⟨bounds, hne, hold, ht⟩)
    · refine ⟨bounds, (h bounds).mpr ⟨?_, .inl hold⟩, ht⟩
      rintro rfl
      exact hout ⟨_, List.mem_singleton_self _, ht⟩
    · refine ⟨bounds, (h bounds).mpr ⟨?_, .inr hnew⟩, ht⟩
      obtain ⟨residual, hresidual, rfl⟩ := List.mem_map.mp hnew
      exact hnarrower residual hresidual
    · exact ⟨bounds, (h bounds).mpr ⟨hne, .inl hold⟩, ht⟩

theorem nothingLost_resolveGap_iff {openGap : OpenGap} {residuals : List RecordedGap}
    {resolvedAtUtc : DateTime} (hcall : call = .resolveGap openGap residuals resolvedAtUtc) :
    NothingLost tables call ↔ KeepsHoles tables call := by
  subst hcall
  have hperform : (RegistryCall.resolveGap openGap residuals resolvedAtUtc).perform tables =
      ((tables.resolveGap openGap residuals resolvedAtUtc).1,
        (tables.resolveGap openGap residuals resolvedAtUtc).2.map fun _ => ()) := rfl
  by_cases haccepted : (RegistryCall.resolveGap openGap residuals resolvedAtUtc).Accepted
  swap
  · obtain ⟨e, he⟩ := resolveGap_refused tables resolvedAtUtc (.inl haccepted)
    refine iff_of_true (nothingLost_of_error (e := e) ?_) fun h => absurd h haccepted
    rw [hperform, he]
    rfl
  by_cases hcollides : ∃ residual ∈ residuals, tables.isResolved openGap.series residual.bounds
  · obtain ⟨e, he⟩ := resolveGap_refused tables resolvedAtUtc (.inr hcollides)
    refine iff_of_true (nothingLost_of_error (e := e) ?_) fun _ => .inr (.inl hcollides)
    rw [hperform, he]
    rfl
  obtain ⟨hreturns, hraises⟩ := resolveGap_accepted haccepted hcollides
  cases hG : tables.isOpen openGap.series openGap.gap.bounds with
  | true =>
    obtain ⟨after, resolution, hok, hafter⟩ := hreturns hG
    rw [hok] at hperform
    have hnarrower : ∀ residual ∈ residuals, residual.bounds ≠ openGap.gap.bounds :=
      fun residual hresidual => checkResidual_narrower (haccepted.2 residual hresidual)
    refine iff_of_true ⟨fun _ residual hresidual => ?_, fun _ gap hgap => ?_, fun e he => ?_⟩
      fun _ => .inl hG
    · rw [hperform]
      exact IngestTables.exists_openGaps_iff.mpr ((hafter _).mpr
        ⟨hnarrower residual hresidual, .inr (List.mem_map_of_mem hresidual)⟩)
    · obtain rfl : openGap.gap = gap := Option.some.inj hgap
      rw [hperform]
      exact openPoints_resolved hnarrower hafter
    · rw [hperform] at he
      cases he
  | false =>
    obtain ⟨e, herror⟩ := hraises hG
    rw [herror] at hperform
    have hkeeps : KeepsHoles tables (.resolveGap openGap residuals resolvedAtUtc) ↔
        ∀ residual ∈ residuals, tables.isRecorded openGap.series residual.bounds := by
      rw [KeepsHoles]
      constructor
      · intro h
        rcases h haccepted with hopen | hcollision | hrecorded
        · exact absurd (hG.symm.trans hopen) (by simp)
        · exact absurd hcollision hcollides
        · exact hrecorded
      · exact fun h _ => .inr (.inr h)
    rw [hkeeps, ← IngestTables.placed_eq_self_iff]
    constructor
    · intro h
      have hsame := h.raised e (by rw [hperform]; rfl)
      rwa [hperform] at hsame
    · intro hsame
      rw [hsame] at hperform
      exact nothingLost_of_error hperform

end

/-- A call loses no hole exactly when it meets the condition. -/
theorem nothingLost_iff (tables : IngestTables) (call : RegistryCall) :
    NothingLost tables call ↔ KeepsHoles tables call := by
  cases call with
  | recordPartition record discoveredAtUtc => exact nothingLost_recording_iff rfl
  | recordGaps coordinate gaps discoveredAtUtc => exact nothingLost_recording_iff rfl
  | recordSeriesGaps series gaps discoveredAtUtc => exact nothingLost_recording_iff rfl
  | resolveGap openGap residuals resolvedAtUtc => exact nothingLost_resolveGap_iff rfl

/-- One call after another. -/
def RegistryCall.apply (tables : IngestTables) (call : RegistryCall) : IngestTables :=
  (call.perform tables).1

/-- In any sequence of calls, from any tables, no hole is lost at any call exactly when every call meets
    the condition where it is made. -/
theorem registry_loses_no_hole_iff (tables : IngestTables) (calls : List RegistryCall) :
    StepsMeet RegistryCall.apply NothingLost tables calls ↔
      StepsMeet RegistryCall.apply KeepsHoles tables calls :=
  stepsMeet_congr nothingLost_iff

def sampleSeries : SeriesKey := ⟨.spot, .klines, "BTCUSDT", "1m"⟩

/-- Minutes `lo` to `hi` of the first hour, missing. -/
def sampleGap (lo hi : ℤ) : RecordedGap :=
  ⟨TimeDelta.ofMinutes lo, TimeDelta.ofMinutes hi, .cadence, some (hi - lo)⟩

def sampleResolve (residuals : List RecordedGap) : RegistryCall :=
  .resolveGap ⟨sampleSeries, sampleGap 2 5, 0⟩ residuals 1

/-- A range that is filled, lost again and found again stays marked resolved; a repair that finds its gap
    already resolved raises with its residuals committed. -/
theorem registry_loses_hole :
    ¬ StepsMeet RegistryCall.apply NothingLost .empty
        [.recordSeriesGaps sampleSeries [sampleGap 2 5] 0, sampleResolve [],
          .recordSeriesGaps sampleSeries [sampleGap 2 5] 2] ∧
      ¬ StepsMeet RegistryCall.apply NothingLost .empty
        [.recordSeriesGaps sampleSeries [sampleGap 2 5] 0, sampleResolve [],
          sampleResolve [sampleGap 3 4]] := by
  refine ⟨fun h => ?_, fun h => ?_⟩
  · obtain ⟨found, hfound, _⟩ := h.2.2.1.recorded (by decide +kernel) (sampleGap 2 5)
      (List.mem_singleton_self _)
    revert hfound
    have hnone : (RegistryCall.perform (RegistryCall.apply (RegistryCall.apply .empty
        (.recordSeriesGaps sampleSeries [sampleGap 2 5] 0)) (sampleResolve []))
        (.recordSeriesGaps sampleSeries [sampleGap 2 5] 2)).1.openGaps sampleSeries = [] := by
      decide +kernel
    exact hnone ▸ List.not_mem_nil
  · have hraised := h.2.2.1.raised _ rfl
    revert hraised
    decide +kernel

end FinanceKing.Data
