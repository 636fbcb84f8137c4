import FinanceKing.Data.RegistryHistory
import FinanceKing.Data.TradeGaps
import FinanceKing.Domain.Results
import FinanceKing.Lib.MaximalRuns

/-! What a partial tape repair leaves behind: one residual for each maximal run of absent ids, and when
    the registry takes all of them. -/

namespace FinanceKing.Data

open Lib

theorem instantOf_eq_ok {instants : Dict ℤ DateTime} {id : ℤ} {moment : DateTime} :
    instantOf instants id = .ok moment ↔ instants.get? id = some moment := by
  rw [instantOf]
  split <;> simp_all

/-- The bounds a run of absent ids gets from the prints either side of it. -/
def residualBounds (gap : RecordedGap) (before after : DateTime) : DateTime × DateTime :=
  (before, min (max after (before + streamTimestampResolution)) gap.gapEndUtc)

theorem residual_eq_ok {gap left : RecordedGap} {instants : Dict ℤ DateTime} {lo hi : ℤ} :
    residual gap instants lo hi = .ok left ↔ ∃ before after, instants.get? (lo - 1) = some before ∧
      instants.get? (hi + 1) = some after ∧ left = ⟨before, (residualBounds gap before after).2,
        gap.gapKind, some (hi - lo + 1)⟩ := by
  simp only [residual, bind_eq_ok, pure_eq_ok, instantOf_eq_ok, residualBounds]
  constructor
  · rintro ⟨before, hbefore, after, hafter, rfl⟩
    exact ⟨before, after, hbefore, hafter, rfl⟩
  · rintro ⟨before, after, hbefore, hafter, rfl⟩
    exact ⟨before, hbefore, after, hafter, rfl⟩

/-- A residual starts before it ends exactly where the print before it lies before its parent's end. -/
theorem residualBounds_forward_iff {gap : RecordedGap} {before after : DateTime} :
    before < (residualBounds gap before after).2 ↔ before < gap.gapEndUtc := by
  rw [residualBounds, lt_min_iff]
  refine and_iff_right (lt_max_of_lt_right (lt_add_of_pos_right before ?_))
  rw [streamTimestampResolution]
  norm_num

/-- A residual reproduces its parent exactly where it opens with it and closes no earlier. -/
theorem residualBounds_eq_iff {gap : RecordedGap} {before after : DateTime} :
    residualBounds gap before after = gap.bounds ↔
      before = gap.gapStartUtc ∧ gap.gapEndUtc ≤ max after (before + streamTimestampResolution) := by
  rw [residualBounds, RecordedGap.bounds, Prod.mk.injEq, min_eq_right_iff]

namespace RepairWindow

variable (self : RepairWindow)

/-- The runs the loop closes are the maximal runs of absent ids. -/
def runs : List (ℤ × ℤ) :=
  closedRuns self.isAbsent (self.missingCount + 1).toNat (self.previousId + 1) none

theorem residualGapsFrom_eq_mapM (gap : RecordedGap) : ∀ (count : ℕ) (candidateId : ℤ)
    (runStartId : Option ℤ), self.residualGapsFrom gap count candidateId runStartId =
      (closedRuns self.isAbsent count candidateId runStartId).mapM
        fun run => residual gap self.instants run.1 run.2
  | 0, _, _ => rfl
  | count + 1, candidateId, runStartId => by
    cases habsent : self.isAbsent candidateId with
    | true =>
      rw [closedRuns_of_absent habsent, ← residualGapsFrom_eq_mapM gap count]
      cases runStartId <;> rw [residualGapsFrom, if_pos habsent]
    | false =>
      cases runStartId with
      | none =>
        rw [closedRuns_none habsent, ← residualGapsFrom_eq_mapM gap count, residualGapsFrom,
          if_neg (by simp [habsent])]
      | some start =>
        rw [closedRuns_some habsent, List.mapM_cons, ← residualGapsFrom_eq_mapM gap count,
          residualGapsFrom, if_neg (by simp [habsent])]

theorem isAbsent_iff {self : RepairWindow} {id : ℤ} : self.isAbsent id ↔ self.previousId < id ∧
    id ≤ self.previousId + self.missingCount ∧ id ∉ self.presentIds := by
  simp [isAbsent, and_assoc]

theorem openSince_first : OpenSince self.isAbsent (self.previousId + 1) none := by
  rw [OpenSince, ← Bool.not_eq_true, isAbsent_iff]
  rintro ⟨hlt, -⟩
  omega

theorem mem_runs_iff {self : RepairWindow} {lo hi : ℤ} :
    (lo, hi) ∈ self.runs ↔ IsMaximalRun self.isAbsent lo hi := by
  rw [runs, mem_closedRuns self.openSince_first]
  refine and_iff_left_of_imp fun hrun => ?_
  have hfirst := isAbsent_iff.mp (hrun.inside lo le_rfl hrun.nonempty)
  have hlast := isAbsent_iff.mp (hrun.inside hi hrun.nonempty le_rfl)
  refine ⟨.inl (by omega), ?_⟩
  rw [Int.toNat_of_nonneg (by omega)]
  omega

/-- Each residual names one maximal run of absent ids: it opens with the print before the run and counts
    the run's ids. -/
def Names (left : RecordedGap) (run : ℤ × ℤ) : Prop :=
  self.instants.get? (run.1 - 1) = some left.gapStartUtc ∧
    left.missingBarCount = some (run.2 - run.1 + 1)

/-- The residuals name runs, apart from each other, that hold exactly the ids still absent. -/
def CoversAbsent (residuals : List RecordedGap) : Prop :=
  ∃ runs : List (ℤ × ℤ), List.Forall₂ self.Names residuals runs ∧
    runs.Pairwise (fun run later => run.2 + 1 < later.1) ∧
    ∀ id, self.isAbsent id ↔ ∃ run ∈ runs, run.1 ≤ id ∧ id ≤ run.2

theorem residualGaps_eq_ok {self : RepairWindow} {gap : RecordedGap} {residuals : List RecordedGap} :
    self.residualGaps gap = .ok residuals ↔ List.Forall₂
      (fun run left => residual gap self.instants run.1 run.2 = .ok left) self.runs residuals := by
  rw [residualGaps, residualGapsFrom_eq_mapM, mapM_eq_ok_iff]
  rfl

/-- What the loop computes covers what is absent, whatever is absent. -/
theorem coversAbsent_of_residualGaps {gap : RecordedGap} {residuals : List RecordedGap}
    (h : self.residualGaps gap = .ok residuals) : self.CoversAbsent residuals := by
  refine ⟨self.runs, ?_, pairwise_closedRuns self.openSince_first, fun id => ?_⟩
  · refine (residualGaps_eq_ok.mp h).flip.imp fun left run hleft => ?_
    obtain ⟨before, after, hbefore, -, rfl⟩ := residual_eq_ok.mp hleft
    exact ⟨hbefore, rfl⟩
  · constructor
    · intro habsent
      obtain ⟨hlt, hle, -⟩ := isAbsent_iff.mp habsent
      refine exists_closedRuns self.openSince_first ?_ habsent (.inl (by omega)) ?_
      · rw [Int.toNat_of_nonneg (by omega), ← Bool.not_eq_true, isAbsent_iff]
        rintro ⟨-, hbeyond, -⟩
        omega
      · rw [Int.toNat_of_nonneg (by omega)]
        omega
    · rintro ⟨⟨lo, hi⟩, hrun, hlo, hhi⟩
      exact (mem_runs_iff.mp hrun).inside id hlo hhi

end RepairWindow

/-! ### A pass that has written -/

/-- A repair of one recorded gap of a tape, up to the point where the recovered prints are in the
    corpus. -/
structure WrittenPass (backfiller : TradeGapBackfiller) (world : TapeWorld) where
  symbol : String
  openGap : OpenGap
  recorded : openGap ∈ world.registry.openGaps (tapeSeries backfiller.market symbol)
  request : RepairRequest
  planned : planRepair world.corpus openGap = .ok (.ask request)
  window : RepairWindow
  fetched : request.fetch backfiller.source openGap.series.symbol = .ok window
  corpus : TapeCorpus
  written : writeDays backfiller.toTable openGap.series (groupByDay window.recovered).entries
    world.corpus = (corpus, .ok ())

namespace WrittenPass

variable {backfiller : TradeGapBackfiller} {world : TapeWorld} (self : WrittenPass backfiller world)

def gap : RecordedGap := self.openGap.gap

theorem series_eq : self.openGap.series = tapeSeries backfiller.market self.symbol := by
  have h := self.recorded
  simp only [IngestTables.openGaps, mem_sortBy, List.mem_filterMap] at h
  obtain ⟨_, _, hsome⟩ := h
  split at hsome
  · rw [← Option.some.inj hsome]
  · cases hsome

theorem isOpen : world.registry.isOpen self.openGap.series self.gap.bounds := by
  rw [series_eq]
  exact IngestTables.exists_openGaps_iff.mp ⟨_, self.recorded, rfl⟩

/-- The repair is what settles the gap over the corpus it has written. -/
theorem repair_eq (tally : Tally) : backfiller.repair self.openGap tally world =
    backfiller.settleGap self.openGap self.window tally { world with corpus := self.corpus } := by
  simp only [TradeGapBackfiller.repair, self.planned, self.fetched, self.written]

/-- What a residual must be: of positive width, inside its parent, and not its parent. -/
def Narrows (left : RecordedGap) : Prop :=
  left.gapStartUtc < left.gapEndUtc ∧ self.gap.gapStartUtc ≤ left.gapStartUtc ∧
    left.gapEndUtc ≤ self.gap.gapEndUtc ∧ left.bounds ≠ self.gap.bounds

/-- The residuals are computed and cover what is absent; those of a repair that recovered something
    narrow the gap and are taken by the registry; and the repair returns. -/
structure LeavesValidResiduals (pass : WrittenPass backfiller world) : Prop where
  residuals : ∃ residuals, pass.window.residualGaps pass.gap = .ok residuals ∧
    pass.window.CoversAbsent residuals ∧ (pass.window.recovered ≠ [] →
      (∀ left ∈ residuals, pass.Narrows left) ∧ ∃ registry resolution,
        world.registry.resolveGap pass.openGap residuals backfiller.nowUtc = (registry, .ok resolution))
  returns : ∀ tally, ∃ after counted, backfiller.repair pass.openGap tally world = (after, .ok counted)

/-- The prints either side of a run are in the merged view; and where something was recovered, the one
    before lies inside the gap, the two do not span all of it, and no row of their bounds has been
    resolved before. -/
def SoundRun (lo hi : ℤ) : Prop :=
  ∃ before after, self.window.instants.get? (lo - 1) = some before ∧
    self.window.instants.get? (hi + 1) = some after ∧ (self.window.recovered ≠ [] →
      self.gap.gapStartUtc ≤ before ∧ before < self.gap.gapEndUtc ∧
      ¬(before = self.gap.gapStartUtc ∧
        self.gap.gapEndUtc ≤ max after (before + streamTimestampResolution)) ∧
      ¬world.registry.isResolved self.openGap.series (residualBounds self.gap before after))

/-! ### What the registry takes -/

theorem checkResidual_eq_ok {openGap : OpenGap} {left : RecordedGap} {u : Unit} :
    IngestTables.checkResidual openGap left = .ok u ↔ left.bounds ≠ openGap.gap.bounds ∧
      openGap.gap.gapStartUtc ≤ left.gapStartUtc ∧ left.gapEndUtc ≤ openGap.gap.gapEndUtc := by
  simp [IngestTables.checkResidual, bind_eq_ok]

/-- A tape's gap passes the table's own checks exactly when it runs forward and counts something. -/
theorem constraints_eq_ok {left : RecordedGap} {u : Unit} :
    left.constraints self.openGap.series = .ok u ↔ left.gapStartUtc < left.gapEndUtc ∧
      left.missingBarCount.all (0 < ·) := by
  have hmatches : self.openGap.series.matchesDataset := by
    rw [series_eq, SeriesKey.matchesDataset]
    simp [tapeSeries]
  simp [RecordedGap.constraints, bind_eq_ok, hmatches]

/-- The registry takes residuals that narrow the gap, unless one of them has been resolved before. -/
theorem resolveGap_ok_iff {residuals : List RecordedGap}
    (hcounts : ∀ left ∈ residuals, left.missingBarCount.all (0 < ·)) :
    (∃ registry resolution, world.registry.resolveGap self.openGap residuals backfiller.nowUtc =
      (registry, .ok resolution)) ↔
      (∀ left ∈ residuals, self.Narrows left) ∧
        ¬∃ left ∈ residuals, world.registry.isResolved self.openGap.series left.bounds := by
  have haccepted : (RegistryCall.resolveGap self.openGap residuals backfiller.nowUtc).Accepted ↔
      ∀ left ∈ residuals, self.Narrows left := by
    constructor
    · rintro ⟨hconstraints, hchecks⟩ left hleft
      obtain ⟨hne, hstart, hend⟩ := checkResidual_eq_ok.mp (hchecks left hleft)
      exact ⟨(self.constraints_eq_ok.mp (hconstraints left hleft)).1, hstart, hend, hne⟩
    · intro hnarrow
      refine ⟨fun left hleft => ?_, fun left hleft => ?_⟩
      · exact self.constraints_eq_ok.mpr ⟨(hnarrow left hleft).1, hcounts left hleft⟩
      · obtain ⟨_, hstart, hend, hne⟩ := hnarrow left hleft
        exact checkResidual_eq_ok.mpr ⟨hne, hstart, hend⟩
  rw [← haccepted]
  constructor
  · rintro ⟨registry, resolution, hok⟩
    by_contra hrefused
    rw [not_and_or, not_not] at hrefused
    obtain ⟨e, he⟩ := resolveGap_refused world.registry backfiller.nowUtc hrefused
    rw [he] at hok
    cases congrArg Prod.snd hok
  · rintro ⟨hall, hunresolved⟩
    obtain ⟨registry, resolution, hok, _⟩ := (resolveGap_accepted hall hunresolved).1 self.isOpen
    exact ⟨registry, resolution, hok⟩

/-! ### The residuals of the pass -/

variable {self}

/-- The residual of a run, with the prints that bound it. -/
theorem exists_residual {residuals : List RecordedGap}
    (h : self.window.residualGaps self.gap = .ok residuals) {lo hi : ℤ}
    (hrun : IsMaximalRun self.window.isAbsent lo hi) : ∃ before after,
      self.window.instants.get? (lo - 1) = some before ∧
      self.window.instants.get? (hi + 1) = some after ∧
      ⟨before, (residualBounds self.gap before after).2, self.gap.gapKind, some (hi - lo + 1)⟩ ∈
        residuals := by
  obtain ⟨left, hmem, hleft⟩ :=
    exists_right_of_forall₂ (RepairWindow.residualGaps_eq_ok.mp h) (RepairWindow.mem_runs_iff.mpr hrun)
  obtain ⟨before, after, hbefore, hafter, rfl⟩ := residual_eq_ok.mp hleft
  exact ⟨before, after, hbefore, hafter, hmem⟩

/-- Every residual is the residual of a maximal run. -/
theorem exists_run {residuals : List RecordedGap}
    (h : self.window.residualGaps self.gap = .ok residuals) {left : RecordedGap} (hleft : left ∈ residuals) :
    ∃ lo hi before after, IsMaximalRun self.window.isAbsent lo hi ∧
      self.window.instants.get? (lo - 1) = some before ∧
      self.window.instants.get? (hi + 1) = some after ∧
      left = ⟨before, (residualBounds self.gap before after).2, self.gap.gapKind,
        some (hi - lo + 1)⟩ := by
  obtain ⟨⟨lo, hi⟩, hrun, hresidual⟩ :=
    exists_left_of_forall₂ (RepairWindow.residualGaps_eq_ok.mp h) hleft
  obtain ⟨before, after, hbefore, hafter, rfl⟩ := residual_eq_ok.mp hresidual
  exact ⟨lo, hi, before, after, RepairWindow.mem_runs_iff.mp hrun, hbefore, hafter, rfl⟩

theorem counts_pos {residuals : List RecordedGap}
    (h : self.window.residualGaps self.gap = .ok residuals) :
    ∀ left ∈ residuals, left.missingBarCount.all (0 < ·) := by
  intro left hleft
  obtain ⟨lo, hi, _, _, hrun, _, _, rfl⟩ := exists_run h hleft
  have := hrun.nonempty
  simp only [Option.all_some, decide_eq_true_eq]
  omega

theorem exists_residualGaps (h : ∀ lo hi, IsMaximalRun self.window.isAbsent lo hi → ∃ before after,
      self.window.instants.get? (lo - 1) = some before ∧
      self.window.instants.get? (hi + 1) = some after) :
    ∃ residuals, self.window.residualGaps self.gap = .ok residuals := by
  have hruns : ∀ run ∈ self.window.runs, ∃ left,
      residual self.gap self.window.instants run.1 run.2 = .ok left ∧ True := by
    intro run hrun
    obtain ⟨before, after, hbefore, hafter⟩ := h _ _ (RepairWindow.mem_runs_iff.mp hrun)
    exact ⟨_, residual_eq_ok.mpr ⟨before, after, hbefore, hafter, rfl⟩, trivial⟩
  obtain ⟨residuals, hresiduals, -⟩ := exists_mapM (fun _ _ => True) hruns
  exact ⟨residuals, RepairWindow.residualGaps_eq_ok.mpr (mapM_eq_ok_iff.mp hresiduals)⟩

/-- What makes a residual narrow the gap, in terms of the prints that bound it. -/
theorem narrows_iff {before after : DateTime} {kind : GapKind} {count : Option ℤ} :
    self.Narrows ⟨before, (residualBounds self.gap before after).2, kind, count⟩ ↔
      self.gap.gapStartUtc ≤ before ∧ before < self.gap.gapEndUtc ∧
      ¬(before = self.gap.gapStartUtc ∧
        self.gap.gapEndUtc ≤ max after (before + streamTimestampResolution)) := by
  have hclamped : (residualBounds self.gap before after).2 ≤ self.gap.gapEndUtc := min_le_right _ _
  have hsame := not_congr (@residualBounds_eq_iff self.gap before after)
  rw [Narrows, ← hsame, residualBounds_forward_iff]
  constructor
  · rintro ⟨hforward, hstart, -, hne⟩
    exact ⟨hstart, hforward, hne⟩
  · rintro ⟨hstart, hforward, hne⟩
    exact ⟨hforward, hstart, hclamped, hne⟩

/-- A repair over computed residuals returns where nothing was recovered or the registry takes them. -/
theorem repair_returns {residuals : List RecordedGap}
    (h : self.window.residualGaps self.gap = .ok residuals)
    (haccepted : self.window.recovered ≠ [] → ∃ registry resolution,
      world.registry.resolveGap self.openGap residuals backfiller.nowUtc = (registry, .ok resolution))
    (tally : Tally) :
    ∃ after counted, backfiller.repair self.openGap tally world = (after, .ok counted) := by
  rw [self.repair_eq, TradeGapBackfiller.settleGap]
  rw [gap] at h
  simp only [h]
  split
  · exact ⟨_, _, rfl⟩
  · next hrecovered =>
    obtain ⟨registry, resolution, hok⟩ := haccepted hrecovered
    simp only [hok]
    exact ⟨_, _, rfl⟩

/-- A partial repair leaves valid residuals exactly where every maximal run of ids still absent is
    bounded by prints the repair has seen, inside the gap and narrower than it. -/
theorem leavesValidResiduals_iff (pass : WrittenPass backfiller world) : pass.LeavesValidResiduals ↔
    ∀ lo hi, IsMaximalRun pass.window.isAbsent lo hi → pass.SoundRun lo hi := by
  constructor
  · rintro ⟨⟨residuals, hresiduals, -, hvalid⟩, -⟩ lo hi hrun
    obtain ⟨before, after, hbefore, hafter, hmem⟩ := exists_residual hresiduals hrun
    refine ⟨before, after, hbefore, hafter, fun hrecovered => ?_⟩
    obtain ⟨hnarrow, haccepted⟩ := hvalid hrecovered
    have hunresolved := ((pass.resolveGap_ok_iff (counts_pos hresiduals)).mp haccepted).2
    obtain ⟨hstart, hforward, hne⟩ := narrows_iff.mp (hnarrow _ hmem)
    exact ⟨hstart, hforward, hne, fun hresolved => hunresolved ⟨_, hmem, hresolved⟩⟩
  · intro hsound
    obtain ⟨residuals, hresiduals⟩ := exists_residualGaps fun lo hi hrun => by
      obtain ⟨before, after, hbefore, hafter, -⟩ := hsound lo hi hrun
      exact ⟨before, after, hbefore, hafter⟩
    have hvalid : pass.window.recovered ≠ [] → (∀ left ∈ residuals, pass.Narrows left) ∧
        ∃ registry resolution, world.registry.resolveGap pass.openGap residuals backfiller.nowUtc =
          (registry, .ok resolution) := by
      intro hrecovered
      have hruns : ∀ left ∈ residuals, pass.Narrows left ∧
          ¬world.registry.isResolved pass.openGap.series left.bounds := by
        intro left hleft
        obtain ⟨lo, hi, before, after, hrun, hbefore, hafter, rfl⟩ := exists_run hresiduals hleft
        obtain ⟨before', after', hbefore', hafter', hbounds⟩ := hsound lo hi hrun
        obtain rfl := Option.some.inj (hbefore.symm.trans hbefore')
        obtain rfl := Option.some.inj (hafter.symm.trans hafter')
        obtain ⟨hstart, hforward, hne, hunresolved⟩ := hbounds hrecovered
        exact ⟨narrows_iff.mpr ⟨hstart, hforward, hne⟩, hunresolved⟩
      refine ⟨fun left hleft => (hruns left hleft).1, ?_⟩
      refine (pass.resolveGap_ok_iff (counts_pos hresiduals)).mpr
        ⟨fun left hleft => (hruns left hleft).1, ?_⟩
      rintro ⟨left, hleft, hresolved⟩
      exact (hruns left hleft).2 hresolved
    exact ⟨⟨residuals, hresiduals, pass.window.coversAbsent_of_residualGaps hresiduals, hvalid⟩,
      repair_returns hresiduals fun hrecovered => (hvalid hrecovered).2⟩

end WrittenPass

/-! ### A prefix recovered within the millisecond -/

def samplePrint (venueTradeId : String) (eventTimeUtc : DateTime) : TradeRecord :=
  ⟨venueTradeId, eventTimeUtc, 100, 1, 100, true, true⟩

/-- An endpoint that returns at most three prints of a tape whose last print is a millisecond later. -/
def sampleSource : AggTradeSource := fun _ fromId printCount =>
  .ok ([samplePrint "10" 0, samplePrint "11" 0, samplePrint "12" 0, samplePrint "13" 0,
    samplePrint "14" 1000].filter fun record =>
      fromId ≤ record.aggregateId ∧ record.aggregateId < fromId + min printCount 3)

def sampleBackfiller : TradeGapBackfiller := ⟨.spot, sampleSource, fun _ => .ok (), 5000⟩

/-- The gap between prints 10 and 14, as the detector records it. -/
def sampleTapeGap : OpenGap := ⟨tapeSeries .spot "BTCUSDT", ⟨0, 1000, .sequence, some 3⟩, 2000⟩

def sampleTapeWorld : TapeWorld where
  corpus := Dict.empty.set (sampleTapeGap.series, 0)
    [⟨samplePrint "10" 0, .stream⟩, ⟨samplePrint "14" 1000, .stream⟩]
  registry := IngestTables.empty.placeGap sampleTapeGap.series 2000 sampleTapeGap.gap

def sampleRequest : RepairRequest where
  previousId := 10
  missingCount := 3
  held := (Dict.empty.set "10" ⟨samplePrint "10" 0, .stream⟩).set "14" ⟨samplePrint "14" 1000, .stream⟩
  heldIds := [10, 14]

def sampleWindow : RepairWindow where
  toRepairRequest := sampleRequest
  seam := ⟨[samplePrint "10" 0, samplePrint "11" 0, samplePrint "12" 0, samplePrint "14" 1000], 1, 2⟩

/-- The corpus once 11 and 12 are in it. -/
def sampleRepaired : TapeCorpus := Dict.empty.set (sampleTapeGap.series, 0)
  [⟨samplePrint "10" 0, .stream⟩, ⟨samplePrint "11" 0, .restBackfill⟩,
    ⟨samplePrint "12" 0, .restBackfill⟩, ⟨samplePrint "14" 1000, .stream⟩]

/-- Two prints of a gap one millisecond wide are recovered and written; the residual of the third has the
    gap's own bounds, and the registry refuses it. -/
theorem a_recovered_prefix_is_refused_once_it_is_written :
    ∃ pass : WrittenPass sampleBackfiller sampleTapeWorld, pass.corpus = sampleRepaired ∧
      ¬pass.LeavesValidResiduals := by
  have hrepair : (sampleBackfiller.repair sampleTapeGap ⟨0, 0, 0, 0, 0, 0, 0⟩
      sampleTapeWorld).2.toOption = none := by decide +kernel
  refine ⟨⟨"BTCUSDT", sampleTapeGap, by decide +kernel, sampleRequest, ?_, sampleWindow, ?_,
    sampleRepaired, ?_⟩, rfl, ?_⟩
  · decide +kernel
  · decide +kernel
  · decide +kernel
  · intro hvalid
    obtain ⟨after, counted, hreturns⟩ := hvalid.returns ⟨0, 0, 0, 0, 0, 0, 0⟩
    rw [hreturns] at hrepair
    cases hrepair

end FinanceKing.Data
