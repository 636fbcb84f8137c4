import FinanceKing.Data.Registry
import FinanceKing.Lib.MaximalRuns
import Mathlib.Data.Finset.Image

/-! What a kline repair leaves of a gap: the loop over the candidate open times and the runs it closes,
    against the bars that the gap really holds. -/

namespace FinanceKing.Data

open Lib

/-- A gap under repair: its bar interval, and the open times in it that the corpus now holds. -/
structure KlineRepair where
  gap : RecordedGap
  interval : TimeDelta
  recoveredOpenTimes : List DateTime
  forward : gap.gapStartUtc < gap.gapEndUtc
  intervalPositive : 0 < interval
  /-- A bar opens on the lattice anchored at the epoch. -/
  onLattice : ∀ openTime ∈ recoveredOpenTimes, interval ∣ openTime

/-- A step forward leaves less to go. -/
theorem toNat_sub_add_lt {last next step : ℤ} (h : next < last) (hstep : 0 < step) :
    (last - (next + step)).toNat < (last - next).toNat := by
  omega

namespace KlineRepair

variable (self : KlineRepair)

/-! ### The code -/

/-- `_residual`, clamped to the parent's end. -/
def residual (runStart : DateTime) (runLength : ℕ) : RecordedGap where
  gapStartUtc := runStart
  gapEndUtc := min (runStart + self.interval * runLength) self.gap.gapEndUtc
  gapKind := self.gap.gapKind
  missingBarCount := some runLength

/-- The open run, by its start and its length, becomes a residual. -/
def closeRun : Option (DateTime × ℕ) → List RecordedGap
  | none => []
  | some (runStart, runLength) => [self.residual runStart runLength]

/-- An absent candidate opens a run or lengthens the open one. -/
def growRun (candidate : DateTime) : Option (DateTime × ℕ) → DateTime × ℕ
  | none => (candidate, 1)
  | some (runStart, runLength) => (runStart, runLength + 1)

/-- The loop, from one candidate on. -/
def residualGapsFrom (candidate : DateTime) (run : Option (DateTime × ℕ)) : List RecordedGap :=
  if _ : candidate < self.gap.gapEndUtc then
    if candidate ∈ self.recoveredOpenTimes then
      self.closeRun run ++ residualGapsFrom (candidate + self.interval) none
    else
      residualGapsFrom (candidate + self.interval) (some (growRun candidate run))
  else
    self.closeRun run
termination_by (self.gap.gapEndUtc - candidate).toNat
decreasing_by all_goals exact toNat_sub_add_lt ‹_› self.intervalPositive

/-- `_residual_gaps`. -/
def residualGaps : List RecordedGap := self.residualGapsFrom self.gap.gapStartUtc none

/-- `_narrows_nothing`. -/
def narrowsNothing : Bool := self.residualGaps.map RecordedGap.bounds = [self.gap.bounds]

/-- What a pass reports as still missing. -/
def stillMissing : ℤ := (self.residualGaps.map fun left => left.missingBarCount.getD 0).sum

/-! ### The candidates -/

/-- How many candidates the loop visits. -/
def candidateCount : ℕ := (-((self.gap.gapStartUtc - self.gap.gapEndUtc) / self.interval)).toNat

/-- The open time that the loop visits at one step. -/
def candidateAt (index : ℤ) : DateTime := self.gap.gapStartUtc + index * self.interval

theorem candidateAt_lt_iff {index : ℤ} (hindex : 0 ≤ index) :
    self.candidateAt index < self.gap.gapEndUtc ↔ index < self.candidateCount := by
  have hcount : index < -((self.gap.gapStartUtc - self.gap.gapEndUtc) / self.interval) ↔
      self.candidateAt index < self.gap.gapEndUtc := by
    rw [lt_neg, ← not_le, Int.le_ediv_iff_mul_le self.intervalPositive, not_le, candidateAt, neg_mul,
      sub_lt_iff_lt_add, neg_add_eq_sub, lt_sub_iff_add_lt]
  rw [← hcount, candidateCount]
  omega

/-- A candidate of the gap that was not recovered. -/
def isAbsent (index : ℤ) : Bool :=
  0 ≤ index ∧ index < self.candidateCount ∧ self.candidateAt index ∉ self.recoveredOpenTimes

theorem isAbsent_iff {index : ℤ} : self.isAbsent index ↔
    0 ≤ index ∧ index < self.candidateCount ∧ self.candidateAt index ∉ self.recoveredOpenTimes := by
  rw [isAbsent, decide_eq_true_iff]

theorem candidateCount_pos : 0 < self.candidateCount := by
  have hfirst := (self.candidateAt_lt_iff le_rfl).mp (by simpa [candidateAt] using self.forward)
  exact_mod_cast hfirst

theorem openSince_first : OpenSince self.isAbsent 0 none := by
  rw [OpenSince, ← Bool.not_eq_true, isAbsent_iff]
  omega

theorem isAbsent_last : self.isAbsent (0 + (self.candidateCount + 1 : ℕ) - 1) = false := by
  rw [← Bool.not_eq_true, isAbsent_iff]
  push_cast
  omega

/-- The runs that the loop closes, counted in candidates. -/
def runs : List (ℤ × ℤ) := closedRuns self.isAbsent (self.candidateCount + 1) 0 none

theorem mem_runs_iff {lo hi : ℤ} : (lo, hi) ∈ self.runs ↔ IsMaximalRun self.isAbsent lo hi := by
  rw [runs, mem_closedRuns self.openSince_first]
  refine and_iff_left_of_imp fun hrun => ?_
  have hfirst := self.isAbsent_iff.mp (hrun.inside lo le_rfl hrun.nonempty)
  have hlast := self.isAbsent_iff.mp (hrun.inside hi hrun.nonempty le_rfl)
  exact ⟨.inl hfirst.1, by push_cast; omega⟩

theorem runs_apart : self.runs.Pairwise fun run later => run.2 + 1 < later.1 :=
  pairwise_closedRuns self.openSince_first

/-- The residual of a run of candidates. -/
def residualOf (run : ℤ × ℤ) : RecordedGap :=
  self.residual (self.candidateAt run.1) (run.2 - run.1 + 1).toNat

theorem residualOf_closed (lo next : ℤ) :
    self.residualOf (lo, next - 1) = self.residual (self.candidateAt lo) (next - lo).toNat := by
  rw [residualOf, sub_right_comm, sub_add_cancel]

/-- From any candidate on, the loop closes the runs of the candidates left. -/
theorem residualGapsFrom_eq_map : ∀ (count : ℕ) (next : ℤ) (start : Option ℤ), 0 ≤ next →
    next + count = self.candidateCount → OpenSince self.isAbsent next start →
    self.residualGapsFrom (self.candidateAt next)
        (start.map fun lo => (self.candidateAt lo, (next - lo).toNat)) =
      (closedRuns self.isAbsent (count + 1) next start).map self.residualOf
  | 0, next, start, hnext, hcount, hopen => by
    have hend : ¬ self.candidateAt next < self.gap.gapEndUtc := by
      rw [self.candidateAt_lt_iff hnext]
      omega
    have hpresent : self.isAbsent next = false := by
      rw [← Bool.not_eq_true, isAbsent_iff]
      omega
    rw [residualGapsFrom, dif_neg hend]
    cases start with
    | none => rw [closedRuns_none hpresent]; rfl
    | some lo =>
      rw [closedRuns_some hpresent, Option.map_some, closeRun, closedRuns, List.map_singleton, residualOf_closed]
  | count + 1, next, start, hnext, hcount, hopen => by
    have hinside : self.candidateAt next < self.gap.gapEndUtc := by
      rw [self.candidateAt_lt_iff hnext]
      omega
    have hstep : self.candidateAt next + self.interval = self.candidateAt (next + 1) := by
      rw [candidateAt, candidateAt, add_mul, one_mul, add_assoc]
    rw [residualGapsFrom, dif_pos hinside, hstep]
    have hcount' : next + 1 + count = self.candidateCount := by
      push_cast at hcount
      omega
    cases habsent : self.isAbsent next with
    | true =>
      rw [if_neg (self.isAbsent_iff.mp habsent).2.2, closedRuns_of_absent habsent]
      have ih := residualGapsFrom_eq_map count (next + 1) (some (start.getD next)) (by omega) hcount'
        (hopen.absent_next habsent)
      rw [← ih]
      cases start with
      | none => simp [growRun]
      | some lo =>
        have hgrown : (next - lo).toNat + 1 = (next + 1 - lo).toNat := by
          have := hopen.1
          omega
        simp [growRun, hgrown]
    | false =>
      have hrecovered : self.candidateAt next ∈ self.recoveredOpenTimes := by
        by_contra hnot
        have hinRange := (self.candidateAt_lt_iff hnext).mp hinside
        rw [← Bool.not_eq_true, isAbsent_iff] at habsent
        exact habsent ⟨hnext, hinRange, hnot⟩
      have ih := residualGapsFrom_eq_map count (next + 1) none (by omega) hcount' (.present_next habsent)
      rw [Option.map_none] at ih
      rw [if_pos hrecovered, ih]
      cases start with
      | none => rw [closedRuns_none habsent]; rfl
      | some lo =>
        rw [closedRuns_some habsent, List.map_cons, Option.map_some, closeRun, residualOf_closed]
        rfl

/-- The residuals are the runs of absent candidates. -/
theorem residualGaps_eq : self.residualGaps = self.runs.map self.residualOf := by
  have hall := self.residualGapsFrom_eq_map self.candidateCount 0 none le_rfl (zero_add _)
    self.openSince_first
  rw [candidateAt, zero_mul, add_zero] at hall
  exact hall

/-! ### The bars of the gap -/

/-- The first multiple of the interval at or after an instant, counted in intervals. -/
def barAfter (moment : DateTime) : ℤ := -(-moment / self.interval)

theorem barAfter_le_iff {moment : DateTime} {bar : ℤ} :
    self.barAfter moment ≤ bar ↔ moment ≤ bar * self.interval := by
  rw [barAfter, neg_le, Int.le_ediv_iff_mul_le self.intervalPositive, neg_mul, neg_le_neg_iff]

theorem lt_barAfter_iff {moment : DateTime} {bar : ℤ} :
    bar < self.barAfter moment ↔ bar * self.interval < moment := by
  rw [← not_le, barAfter_le_iff, not_le]

/-- The bars that a full gap would hold. -/
def expectedBars : Finset ℤ :=
  (Finset.range (self.barAfter self.gap.gapEndUtc - self.barAfter self.gap.gapStartUtc).toNat).image
    fun i : ℕ => self.barAfter self.gap.gapStartUtc + i

theorem mem_expectedBars {bar : ℤ} : bar ∈ self.expectedBars ↔
    self.gap.gapStartUtc ≤ bar * self.interval ∧ bar * self.interval < self.gap.gapEndUtc := by
  rw [← barAfter_le_iff, ← lt_barAfter_iff, expectedBars, Finset.mem_image]
  constructor
  · rintro ⟨i, hi, rfl⟩
    rw [Finset.mem_range] at hi
    omega
  · rintro ⟨hfirst, hlast⟩
    exact ⟨(bar - self.barAfter self.gap.gapStartUtc).toNat, Finset.mem_range.mpr (by omega), by omega⟩

theorem card_expectedBars : self.expectedBars.card =
    (self.barAfter self.gap.gapEndUtc - self.barAfter self.gap.gapStartUtc).toNat := by
  rw [expectedBars, Finset.card_image_of_injective, Finset.card_range]
  intro i j hij
  simpa using hij

/-- An expected bar that was not recovered. -/
def isMissing (bar : ℤ) : Bool :=
  bar ∈ self.expectedBars ∧ bar * self.interval ∉ self.recoveredOpenTimes

/-- The residuals are the missing bars of the gap, one for each maximal run of them. -/
structure ResidualsExact (repair : KlineRepair) : Prop where
  ordered : repair.residualGaps.Pairwise fun earlier later => earlier.gapEndUtc ≤ later.gapStartUtc
  inside : ∀ left ∈ repair.residualGaps, repair.gap.gapStartUtc ≤ left.gapStartUtc ∧
    left.gapStartUtc < left.gapEndUtc ∧ left.gapEndUtc ≤ repair.gap.gapEndUtc
  maximal : ∀ left ∈ repair.residualGaps, ∃ lo hi, IsMaximalRun repair.isMissing lo hi ∧
    left.missingBarCount = some (hi - lo + 1) ∧
    ∀ bar, left.gapStartUtc ≤ bar * repair.interval ∧ bar * repair.interval < left.gapEndUtc ↔
      lo ≤ bar ∧ bar ≤ hi
  counted : repair.stillMissing = (repair.expectedBars.filter fun bar => repair.isMissing bar).card
  narrows : repair.narrowsNothing ↔
    ∀ bar ∈ repair.expectedBars, bar * repair.interval ∉ repair.recoveredOpenTimes

/-! ### Any gap -/

/-- The end of the residual of a run of the gap. -/
theorem residualOf_bounds {lo hi : ℤ} (hle : lo ≤ hi) : (self.residualOf (lo, hi)).bounds =
    (self.candidateAt lo, min (self.candidateAt (hi + 1)) self.gap.gapEndUtc) := by
  have hlength : ((hi - lo + 1).toNat : ℤ) = hi - lo + 1 := Int.toNat_of_nonneg (by omega)
  have hend : self.candidateAt lo + self.interval * (hi - lo + 1) = self.candidateAt (hi + 1) := by
    rw [candidateAt, candidateAt]
    ring
  rw [RecordedGap.bounds, residualOf, residual, hlength, hend]

theorem residualOf_missing {lo hi : ℤ} (hle : lo ≤ hi) :
    (self.residualOf (lo, hi)).missingBarCount = some (hi - lo + 1) := by
  have hlength : ((hi - lo + 1).toNat : ℤ) = hi - lo + 1 := Int.toNat_of_nonneg (by omega)
  rw [residualOf, residual, hlength]

theorem run_inside {lo hi : ℤ} (h : IsMaximalRun self.isAbsent lo hi) :
    0 ≤ lo ∧ lo ≤ hi ∧ hi < self.candidateCount :=
  ⟨(self.isAbsent_iff.mp (h.inside lo le_rfl h.nonempty)).1, h.nonempty,
    (self.isAbsent_iff.mp (h.inside hi h.nonempty le_rfl)).2.1⟩

theorem candidateAt_strictMono {lo hi : ℤ} : self.candidateAt lo < self.candidateAt hi ↔ lo < hi := by
  rw [candidateAt, candidateAt, add_lt_add_iff_left, mul_lt_mul_iff_left₀ self.intervalPositive]

/-- Where every candidate is absent, the gap is one run. -/
theorem runs_of_all (h : ∀ index : ℤ, 0 ≤ index → index < self.candidateCount →
    self.candidateAt index ∉ self.recoveredOpenTimes) :
    self.runs = [(0, (self.candidateCount : ℤ) - 1)] := by
  have hpos := self.candidateCount_pos
  have habsent : ∀ index : ℤ, self.isAbsent index ↔ 0 ≤ index ∧ index < self.candidateCount := by
    intro index
    rw [isAbsent_iff]
    exact ⟨fun hall => ⟨hall.1, hall.2.1⟩, fun hall => ⟨hall.1, hall.2, h index hall.1 hall.2⟩⟩
  have hpresent : ∀ index : ℤ, self.isAbsent index = false ↔ ¬(0 ≤ index ∧ index < self.candidateCount) := by
    intro index
    rw [← habsent, Bool.not_eq_true]
  have hwhole : (0, (self.candidateCount : ℤ) - 1) ∈ self.runs := by
    rw [mem_runs_iff]
    refine ⟨by omega, fun index hlo hhi => (habsent index).mpr ⟨hlo, by omega⟩, ?_, ?_⟩
    · rw [hpresent]
      omega
    · rw [hpresent]
      omega
  have honly : ∀ run ∈ self.runs, run = (0, (self.candidateCount : ℤ) - 1) := by
    rintro ⟨lo, hi⟩ hrun
    have hmaximal := self.mem_runs_iff.mp hrun
    obtain ⟨hlo, hle, hhi⟩ := self.run_inside hmaximal
    have hbelow := (hpresent _).mp hmaximal.below
    have habove := (hpresent _).mp hmaximal.above
    rw [Prod.mk.injEq]
    omega
  have hnodup : self.runs.Nodup := by
    refine self.runs_apart.imp_of_mem fun {run later} hrun _ hlt heq => ?_
    have hle := (self.mem_runs_iff.mp hrun).nonempty
    rw [heq] at hlt hle
    omega
  exact List.perm_singleton.mp ((List.perm_ext_iff_of_nodup hnodup (List.nodup_singleton _)).mpr
    fun run => ⟨fun hrun => List.mem_singleton.mpr (honly run hrun), fun hrun =>
      (List.mem_singleton.mp hrun) ▸ hwhole⟩)

theorem residualOf_whole : (self.residualOf (0, (self.candidateCount : ℤ) - 1)).bounds = self.gap.bounds := by
  have hpos := self.candidateCount_pos
  have hend : ¬ self.candidateAt self.candidateCount < self.gap.gapEndUtc := by
    rw [self.candidateAt_lt_iff (Int.natCast_nonneg _)]
    exact lt_irrefl _
  rw [residualOf_bounds _ (by omega), sub_add_cancel, min_eq_right (not_lt.mp hend), candidateAt, zero_mul,
    add_zero, RecordedGap.bounds]

/-- A pass narrows nothing exactly where every candidate is absent. -/
theorem narrowsNothing_iff : self.narrowsNothing ↔
    ∀ index : ℤ, 0 ≤ index → index < self.candidateCount →
      self.candidateAt index ∉ self.recoveredOpenTimes := by
  have hpos := self.candidateCount_pos
  rw [narrowsNothing, decide_eq_true_iff, residualGaps_eq]
  constructor
  · intro hwhole index hindex hlt
    rw [List.map_map, List.map_eq_singleton_iff] at hwhole
    obtain ⟨⟨lo, hi⟩, hruns, hbounds⟩ := hwhole
    rw [Function.comp_apply] at hbounds
    have hrun := self.mem_runs_iff.mp (hruns ▸ List.mem_singleton_self _)
    obtain ⟨hlo, hle, hhi⟩ := self.run_inside hrun
    rw [residualOf_bounds _ hle, RecordedGap.bounds, Prod.mk.injEq, min_eq_right_iff] at hbounds
    obtain ⟨hstart, hend⟩ := hbounds
    have hfirst : lo = 0 := by
      rw [candidateAt, add_eq_left, mul_eq_zero, or_iff_left self.intervalPositive.ne'] at hstart
      exact hstart
    have hlast : ¬ hi + 1 < self.candidateCount := by
      rw [← self.candidateAt_lt_iff (by omega), not_lt]
      exact hend
    exact (self.isAbsent_iff.mp (hrun.inside index (by omega) (by omega))).2.2
  · intro habsent
    rw [self.runs_of_all habsent, List.map_singleton, List.map_singleton, residualOf_whole]

/-- What is still missing is counted in absent candidates. -/
theorem stillMissing_eq : self.stillMissing =
    Nat.count (fun i => self.isAbsent i) (self.candidateCount + 1) := by
  have hsum := sum_closedRuns self.openSince_first self.isAbsent_last
  simp only [Option.elim, zero_add] at hsum
  rw [← hsum, stillMissing, residualGaps_eq, List.map_map]
  refine congrArg List.sum (List.map_congr_left fun run hrun => ?_)
  rw [Function.comp_apply, self.residualOf_missing (self.mem_runs_iff.mp hrun).nonempty, Option.getD_some]

theorem residualGaps_ordered :
    self.residualGaps.Pairwise fun earlier later => earlier.gapEndUtc ≤ later.gapStartUtc := by
  rw [residualGaps_eq, List.pairwise_map]
  refine self.runs_apart.imp_of_mem fun {run later} hrun _ hlt => ?_
  have hbounds := self.residualOf_bounds (self.mem_runs_iff.mp hrun).nonempty
  rw [(Prod.mk.inj hbounds).2]
  exact (min_le_left _ _).trans ((self.candidateAt_strictMono.mpr hlt).le)

theorem residualGaps_inside : ∀ left ∈ self.residualGaps, self.gap.gapStartUtc ≤ left.gapStartUtc ∧
    left.gapStartUtc < left.gapEndUtc ∧ left.gapEndUtc ≤ self.gap.gapEndUtc := by
  intro left hleft
  rw [residualGaps_eq] at hleft
  obtain ⟨⟨lo, hi⟩, hrun, rfl⟩ := List.mem_map.mp hleft
  obtain ⟨hlo, hle, hhi⟩ := self.run_inside (self.mem_runs_iff.mp hrun)
  obtain ⟨hstart, hend⟩ := Prod.mk.inj (self.residualOf_bounds hle)
  rw [hstart, hend]
  refine ⟨?_, lt_min (self.candidateAt_strictMono.mpr (by omega)) ?_, min_le_right _ _⟩
  · rw [candidateAt, le_add_iff_nonneg_right]
    exact mul_nonneg hlo self.intervalPositive.le
  · exact (self.candidateAt_lt_iff hlo).mpr (by omega)

/-! ### A gap on the lattice -/

section

variable {first : ℤ} (hfirst : self.gap.gapStartUtc = first * self.interval)

include hfirst

theorem candidateAt_of_first (index : ℤ) : self.candidateAt index = (first + index) * self.interval := by
  rw [candidateAt, hfirst, add_mul]

theorem mem_expectedBars_of_first {index : ℤ} :
    first + index ∈ self.expectedBars ↔ 0 ≤ index ∧ index < self.candidateCount := by
  rw [mem_expectedBars, ← self.candidateAt_of_first hfirst, candidateAt, le_add_iff_nonneg_right,
    mul_nonneg_iff_of_pos_right self.intervalPositive, ← candidateAt]
  exact and_congr_right fun hindex => self.candidateAt_lt_iff hindex

theorem isMissing_of_first (index : ℤ) : self.isMissing (first + index) = self.isAbsent index := by
  rw [isMissing, isAbsent, decide_eq_decide, self.mem_expectedBars_of_first hfirst,
    ← self.candidateAt_of_first hfirst, and_assoc]

theorem maximal_of_first : ∀ left ∈ self.residualGaps, ∃ lo hi, IsMaximalRun self.isMissing lo hi ∧
    left.missingBarCount = some (hi - lo + 1) ∧
    ∀ bar, left.gapStartUtc ≤ bar * self.interval ∧ bar * self.interval < left.gapEndUtc ↔
      lo ≤ bar ∧ bar ≤ hi := by
  intro left hleft
  rw [residualGaps_eq] at hleft
  obtain ⟨⟨lo, hi⟩, hrun, rfl⟩ := List.mem_map.mp hleft
  replace hrun := self.mem_runs_iff.mp hrun
  obtain ⟨hlo, hle, hhi⟩ := self.run_inside hrun
  obtain ⟨hstart, hend⟩ := Prod.mk.inj (self.residualOf_bounds hle)
  refine ⟨first + lo, first + hi, hrun.shift (self.isMissing_of_first hfirst), ?_, fun bar => ?_⟩
  · rw [self.residualOf_missing hle, add_sub_add_left_eq_sub]
  · have hinside : first + hi ∈ self.expectedBars :=
      (self.mem_expectedBars_of_first hfirst).mpr ⟨hlo.trans hle, hhi⟩
    have hlast := (self.mem_expectedBars.mp hinside).2
    rw [hstart, hend, lt_min_iff, self.candidateAt_of_first hfirst, self.candidateAt_of_first hfirst,
      mul_le_mul_iff_left₀ self.intervalPositive, mul_lt_mul_iff_left₀ self.intervalPositive]
    rw [← add_assoc, Int.lt_add_one_iff]
    refine and_congr_right fun _ => and_iff_left_of_imp fun hbar => lt_of_le_of_lt ?_ hlast
    exact mul_le_mul_of_nonneg_right hbar self.intervalPositive.le

theorem counted_of_first :
    self.stillMissing = (self.expectedBars.filter fun bar => self.isMissing bar).card := by
  have himage : (self.expectedBars.filter fun bar => self.isMissing bar) =
      ((Finset.range (self.candidateCount + 1)).filter fun i : ℕ => self.isAbsent i).image
        fun i : ℕ => first + i := by
    ext bar
    rw [Finset.mem_filter, Finset.mem_image]
    constructor
    · rintro ⟨hbar, hmissing⟩
      obtain ⟨index, rfl⟩ : ∃ index, bar = first + index := ⟨bar - first, by omega⟩
      obtain ⟨hindex, hlt⟩ := (self.mem_expectedBars_of_first hfirst).mp hbar
      refine ⟨index.toNat, Finset.mem_filter.mpr ⟨Finset.mem_range.mpr (by omega), ?_⟩, by omega⟩
      rw [Int.toNat_of_nonneg hindex, ← self.isMissing_of_first hfirst]
      exact hmissing
    · rintro ⟨i, hi, rfl⟩
      have habsent := (Finset.mem_filter.mp hi).2
      have hinside := self.isAbsent_iff.mp habsent
      rw [self.isMissing_of_first hfirst]
      exact ⟨(self.mem_expectedBars_of_first hfirst).mpr ⟨hinside.1, hinside.2.1⟩, habsent⟩
  rw [himage, stillMissing_eq, Nat.count_eq_card_filter_range, Finset.card_image_of_injective]
  intro i j hij
  simpa using hij

theorem exact_of_first : self.ResidualsExact where
  ordered := self.residualGaps_ordered
  inside := self.residualGaps_inside
  maximal := self.maximal_of_first hfirst
  counted := self.counted_of_first hfirst
  narrows := by
    rw [narrowsNothing_iff]
    constructor
    · intro hall bar hbar
      obtain ⟨index, rfl⟩ : ∃ index, bar = first + index := ⟨bar - first, by omega⟩
      obtain ⟨hindex, hlt⟩ := (self.mem_expectedBars_of_first hfirst).mp hbar
      rw [← self.candidateAt_of_first hfirst]
      exact hall index hindex hlt
    · intro hall index hindex hlt
      rw [self.candidateAt_of_first hfirst]
      exact hall _ ((self.mem_expectedBars_of_first hfirst).mpr ⟨hindex, hlt⟩)

end

/-! ### A gap off the lattice -/

section

variable (hoff : ¬ self.interval ∣ self.gap.gapStartUtc)

include hoff

/-- No candidate is a bar. -/
theorem candidateAt_not_recovered (index : ℤ) : self.candidateAt index ∉ self.recoveredOpenTimes := by
  intro hrecovered
  have hdvd := self.onLattice _ hrecovered
  rw [candidateAt] at hdvd
  exact hoff ((Int.dvd_add_left (Dvd.intro_left index rfl)).mp hdvd)

theorem narrowsNothing_of_off : self.narrowsNothing :=
  self.narrowsNothing_iff.mpr fun index _ _ => self.candidateAt_not_recovered hoff index

/-- Whatever was recovered, the whole gap is left, counted in candidates. -/
theorem residualGaps_of_off : self.residualGaps =
    [⟨self.gap.gapStartUtc, self.gap.gapEndUtc, self.gap.gapKind, some (self.candidateCount : ℤ)⟩] := by
  have hruns := self.runs_of_all fun index _ _ => self.candidateAt_not_recovered hoff index
  obtain ⟨hstart, hend⟩ := Prod.mk.inj self.residualOf_whole
  rw [residualGaps_eq, hruns, List.map_singleton, List.singleton_inj]
  have hmissing := self.residualOf_missing (Int.le_sub_one_of_lt (Int.natCast_pos.mpr self.candidateCount_pos))
  rw [sub_zero, sub_add_cancel] at hmissing
  cases hwhole : self.residualOf (0, (self.candidateCount : ℤ) - 1) with
  | mk gapStartUtc gapEndUtc gapKind missingBarCount =>
    rw [hwhole] at hstart hend hmissing
    have hkind : gapKind = self.gap.gapKind := congrArg RecordedGap.gapKind hwhole.symm
    rw [← hstart, ← hend, ← hmissing, hkind]

theorem exact_iff_of_off : self.ResidualsExact ↔
    (∀ bar ∈ self.expectedBars, bar * self.interval ∉ self.recoveredOpenTimes) ∧
      self.expectedBars.card = self.candidateCount := by
  have hleft := self.residualGaps_of_off hoff
  have hcount : self.stillMissing = self.candidateCount := by
    rw [stillMissing, hleft]
    simp
  constructor
  · intro h
    have hnone := h.narrows.mp (self.narrowsNothing_of_off hoff)
    refine ⟨hnone, ?_⟩
    have hall : (self.expectedBars.filter fun bar => self.isMissing bar) = self.expectedBars := by
      refine Finset.filter_true_of_mem fun bar hbar => ?_
      exact decide_eq_true ⟨hbar, hnone bar hbar⟩
    have hcounted := h.counted
    rw [hcount, hall] at hcounted
    exact_mod_cast hcounted.symm
  · rintro ⟨hnone, hcard⟩
    have hmissing : ∀ bar, self.isMissing bar ↔ bar ∈ self.expectedBars := fun bar =>
      (decide_eq_true_iff.trans (and_iff_left_of_imp (hnone bar)) :)
    refine ⟨self.residualGaps_ordered, self.residualGaps_inside, ?_, ?_, ?_⟩
    · have hpos := self.candidateCount_pos
      have hpresent : ∀ bar, self.isMissing bar = false ↔ bar ∉ self.expectedBars := fun bar => by
        rw [← hmissing, Bool.not_eq_true]
      have hinside : ∀ bar, bar ∈ self.expectedBars ↔ self.barAfter self.gap.gapStartUtc ≤ bar ∧
          bar ≤ self.barAfter self.gap.gapEndUtc - 1 := fun bar => by
        rw [mem_expectedBars, ← barAfter_le_iff, ← lt_barAfter_iff, Int.le_sub_one_iff]
      rw [card_expectedBars] at hcard
      intro left hmem
      rw [hleft, List.mem_singleton] at hmem
      subst hmem
      refine ⟨self.barAfter self.gap.gapStartUtc, self.barAfter self.gap.gapEndUtc - 1,
        ⟨by omega, fun bar hlo hhi => (hmissing bar).mpr ((hinside bar).mpr ⟨hlo, hhi⟩), ?_, ?_⟩, ?_, ?_⟩
      · rw [hpresent, hinside]
        omega
      · rw [hpresent, hinside]
        omega
      · rw [Option.some.injEq]
        omega
      · intro bar
        rw [← hinside, mem_expectedBars]
    · rw [hcount, ← hcard, Finset.filter_true_of_mem fun bar hbar => (hmissing bar).mpr hbar]
    · exact iff_of_true (self.narrowsNothing_of_off hoff) hnone

end

/-- The residuals of a repair are exact if and only if its gap starts on the lattice, or none of its bars was
    recovered and there are as many of them as intervals from its start on. -/
theorem residuals_exact_iff : self.ResidualsExact ↔ self.interval ∣ self.gap.gapStartUtc ∨
    (∀ bar ∈ self.expectedBars, bar * self.interval ∉ self.recoveredOpenTimes) ∧
      self.expectedBars.card = self.candidateCount := by
  by_cases hoff : self.interval ∣ self.gap.gapStartUtc
  · obtain ⟨first, hfirst⟩ := hoff
    rw [mul_comm] at hfirst
    exact iff_of_true (self.exact_of_first hfirst) (.inl ⟨first, by rw [hfirst, mul_comm]⟩)
  · rw [self.exact_iff_of_off hoff, or_iff_right hoff]

/-- A gap between two observations off the lattice, both of whose bars the venue has returned. -/
def seamRepair : KlineRepair where
  gap := ⟨30000000, 150000000, .seam, some 2⟩
  interval := 60000000
  recoveredOpenTimes := [60000000, 120000000]
  forward := by decide
  intervalPositive := by decide
  onLattice := by decide

/-- With both of its bars recovered, the gap is found as it was. -/
theorem a_seam_gap_off_the_lattice_never_narrows : ¬ ∀ repair : KlineRepair, repair.ResidualsExact := by
  intro h
  have hnarrows := (h seamRepair).narrows.mp (by
    rw [narrowsNothing_iff]
    decide +kernel)
  exact hnarrows 1 (by decide) (by decide)

end KlineRepair

end FinanceKing.Data
