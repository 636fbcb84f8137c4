import FinanceKing.Domain.Guards
import FinanceKing.Domain.Results
import FinanceKing.Lib.Tiling

/-! The horizons a validation declares before any data is read; purge and embargo are arithmetic on
    them. -/

namespace FinanceKing.Backtest

def requirePositiveSpan (candidate : TimeDelta) (fieldName : String) : PyResult Unit :=
  raiseIf (candidate ≤ 0) .walkForwardConfig
    [fieldName, " must be positive; got ", .span candidate]

/-- A span at or above zero; each harness raises its own class. -/
def requireNonNegativeSpan (kind : ErrorKind) (candidate : TimeDelta) (fieldName : String) :
    PyResult Unit :=
  raiseIf (candidate < 0) kind [fieldName, " must not be negative; got ", .span candidate]

@[simp] theorem requirePositiveSpan_eq_ok {d : TimeDelta} {name : String} {u : Unit} :
    requirePositiveSpan d name = .ok u ↔ 0 < d := by
  simp [requirePositiveSpan]

@[simp] theorem requireNonNegativeSpan_eq_ok {kind : ErrorKind} {d : TimeDelta} {name : String}
    {u : Unit} : requireNonNegativeSpan kind d name = .ok u ↔ 0 ≤ d := by
  simp [requireNonNegativeSpan]

structure WalkForwardDeclarationFields where
  labelHorizon : TimeDelta
  availabilityLag : TimeDelta
  maxFeatureLookback : TimeDelta
  maxHoldingHorizon : TimeDelta
  deriving DecidableEq

def WalkForwardDeclarationFields.postInit (self : WalkForwardDeclarationFields) : PyResult Unit := do
  requirePositiveSpan self.labelHorizon "label_horizon"
  requireNonNegativeSpan .walkForwardConfig self.availabilityLag "availability_lag"
  requireNonNegativeSpan .walkForwardConfig self.maxFeatureLookback "max_feature_lookback"
  requirePositiveSpan self.maxHoldingHorizon "max_holding_horizon"

/-- The four declared horizons that size purge and embargo. -/
structure WalkForwardDeclaration extends WalkForwardDeclarationFields where
  checked : toWalkForwardDeclarationFields.postInit = .ok ()
  deriving DecidableEq

namespace WalkForwardDeclaration

variable (self : WalkForwardDeclaration)

/-- Training samples whose label resolves inside the test window. -/
def purge : TimeDelta := self.labelHorizon + self.availabilityLag

/-- The declared floor, never below the purge. -/
def embargo : TimeDelta := max (self.maxFeatureLookback + self.maxHoldingHorizon) self.purge

/-- The distance between the end of a training window and the start of its test. -/
def gap : TimeDelta := self.purge + self.embargo

theorem postInit_facts :
    0 < self.labelHorizon ∧ 0 ≤ self.availabilityLag ∧ 0 ≤ self.maxFeatureLookback ∧
      0 < self.maxHoldingHorizon := by
  have h := self.checked
  simp only [WalkForwardDeclarationFields.postInit, bind_eq_ok, requirePositiveSpan_eq_ok,
    requireNonNegativeSpan_eq_ok] at h
  obtain ⟨_, hlabel, _, hlag, _, hlookback, hholding⟩ := h
  exact ⟨hlabel, hlag, hlookback, hholding⟩

theorem purge_pos : 0 < self.purge := by
  obtain ⟨hlabel, hlag, _, _⟩ := self.postInit_facts
  exact add_pos_of_pos_of_nonneg hlabel hlag

theorem gap_pos : 0 < self.gap := by
  have hembargo : self.purge ≤ self.embargo := le_max_right _ _
  exact add_pos self.purge_pos (self.purge_pos.trans_le hembargo)

end WalkForwardDeclaration

end FinanceKing.Backtest

/-! The folds of a walk-forward: one loop for both schemes, stopped by the first test window that would end
    past the plan's. -/

namespace FinanceKing.Backtest

open Lib

/-! ### The code -/

/-- Which end of the training window moves. -/
inductive WalkForwardScheme where
  | anchored
  | rolling
  deriving DecidableEq

def WalkForwardScheme.value : WalkForwardScheme → String
  | .anchored => "anchored"
  | .rolling => "rolling"

def minimumFolds : ℕ := 2

structure WalkForwardPlanFields where
  scheme : WalkForwardScheme
  startUtc : DateTime
  endUtc : DateTime
  trainSpan : TimeDelta
  testSpan : TimeDelta
  step : TimeDelta
  declaration : WalkForwardDeclaration
  deriving DecidableEq

def WalkForwardPlanFields.postInit (self : WalkForwardPlanFields) : PyResult Unit := do
  requirePositiveSpan self.trainSpan "train_span"
  requirePositiveSpan self.testSpan "test_span"
  requirePositiveSpan self.step "step"
  raiseIf (self.endUtc ≤ self.startUtc) .walkForwardConfig
    ["end_utc ", .instant self.endUtc, " must follow start_utc ", .instant self.startUtc]
  raiseIf (self.testSpan < self.step) .walkForwardConfig
    ["step ", .span self.step, " exceeds test_span ", .span self.testSpan,
      ", which leaves out-of-sample periods no fold scores; production re-fits at least as often as it " ++
      "is measured"]

/-- A walk-forward, fully specified before any data is read. -/
structure WalkForwardPlan extends WalkForwardPlanFields where
  checked : toWalkForwardPlanFields.postInit = .ok ()
  deriving DecidableEq

structure FoldFields where
  foldIndex : ℕ
  trainStartUtc : DateTime
  trainEndUtc : DateTime
  testStartUtc : DateTime
  testEndUtc : DateTime
  deriving DecidableEq

def FoldFields.postInit (self : FoldFields) : PyResult Unit := do
  raiseIf (self.trainEndUtc ≤ self.trainStartUtc) .walkForwardConfig
    ["fold ", .count self.foldIndex, ": train window is empty (", .instant self.trainStartUtc, " .. ",
      .instant self.trainEndUtc, ")"]
  raiseIf (self.testEndUtc ≤ self.testStartUtc) .walkForwardConfig
    ["fold ", .count self.foldIndex, ": test window is empty (", .instant self.testStartUtc, " .. ",
      .instant self.testEndUtc, ")"]
  raiseIf (self.testStartUtc ≤ self.trainEndUtc) .walkForwardConfig
    ["fold ", .count self.foldIndex, ": train window ends at ", .instant self.trainEndUtc,
      ", at or after the test window opens at ", .instant self.testStartUtc]

/-- One re-fit and the out-of-sample window it is scored on. -/
structure Fold extends FoldFields where
  checked : toFoldFields.postInit = .ok ()
  deriving DecidableEq

structure WalkForwardScheduleFields where
  plan : WalkForwardPlan
  folds : List Fold
  purge : TimeDelta
  embargo : TimeDelta
  deriving DecidableEq

def WalkForwardScheduleFields.postInit (self : WalkForwardScheduleFields) : PyResult Unit :=
  raiseIf (self.folds.length < minimumFolds) .scheduleRefused
    ["a schedule needs at least ", .count minimumFolds, " folds; got ", .count self.folds.length]

/-- The folds, with the plan and the two gaps that produced them. -/
structure WalkForwardSchedule extends WalkForwardScheduleFields where
  checked : toWalkForwardScheduleFields.postInit = .ok ()
  deriving DecidableEq

theorem windowsLeft_lt {stop testEnd step : ℤ} (hfits : ¬stop < testEnd) (hstep : 0 < step) :
    (stop + 1 - (testEnd + step)).toNat < (stop + 1 - testEnd).toNat := by
  omega

namespace WalkForwardPlan

variable (self : WalkForwardPlan)

theorem postInit_facts : 0 < self.trainSpan ∧ 0 < self.testSpan ∧ 0 < self.step ∧
    self.startUtc < self.endUtc ∧ self.step ≤ self.testSpan := by
  have h := self.checked
  simp only [WalkForwardPlanFields.postInit, bind_eq_ok, requirePositiveSpan_eq_ok, raiseIf_eq_ok,
    not_le, not_lt] at h
  obtain ⟨_, htrain, _, htest, _, hstep, _, hwindow, hwidth⟩ := h
  exact ⟨htrain, htest, hstep, hwindow, hwidth⟩

theorem step_pos : 0 < self.step := self.postInit_facts.2.2.1

/-- When the loop's fold of this index is tested, and when its test is over. -/
def testStart (firstTestStart : DateTime) (foldIndex : ℕ) : DateTime := firstTestStart + foldIndex * self.step

def testEnd (firstTestStart : DateTime) (foldIndex : ℕ) : DateTime :=
  self.testStart firstTestStart foldIndex + self.testSpan

theorem testEnd_succ (firstTestStart : DateTime) (foldIndex : ℕ) :
    self.testEnd firstTestStart (foldIndex + 1) = self.testEnd firstTestStart foldIndex + self.step := by
  simp only [testEnd, testStart]
  push_cast
  ring

/-- The arguments that the loop builds a fold of. -/
def foldFields (firstTestStart : DateTime) (gap : TimeDelta) (foldIndex : ℕ) : FoldFields :=
  let trainEnd := self.testStart firstTestStart foldIndex - gap
  let trainStart := match self.scheme with
    | .anchored => self.startUtc
    | .rolling => trainEnd - self.trainSpan
  ⟨foldIndex, trainStart, trainEnd, self.testStart firstTestStart foldIndex,
    self.testEnd firstTestStart foldIndex⟩

/-- The loop, from a fold's index on. -/
def foldsFrom (firstTestStart : DateTime) (gap : TimeDelta) (foldIndex : ℕ) : PyResult (List Fold) :=
  if _ : self.endUtc < self.testEnd firstTestStart foldIndex then return []
  else do
    let fold ← construct FoldFields.postInit Fold.mk (self.foldFields firstTestStart gap foldIndex)
    let later ← foldsFrom firstTestStart gap (foldIndex + 1)
    return fold :: later
termination_by (self.endUtc + 1 - self.testEnd firstTestStart foldIndex).toNat
decreasing_by
  rw [testEnd_succ]
  exact windowsLeft_lt ‹_› self.step_pos

end WalkForwardPlan

/-- Every fold the plan admits inside its window, in chronological order. -/
def buildSchedule (plan : WalkForwardPlan) : PyResult WalkForwardSchedule := do
  let declaration := plan.declaration
  let gap := declaration.gap
  let firstTestStart := plan.startUtc + plan.trainSpan + gap
  let folds ← plan.foldsFrom firstTestStart gap 0
  raiseIf (folds.length < minimumFolds) .scheduleRefused
    [.text plan.scheme.value, " plan over ", .instant plan.startUtc, " .. ", .instant plan.endUtc,
      " admits ", .count folds.length, " fold(s) at train_span=", .span plan.trainSpan, ", test_span=",
      .span plan.testSpan, ", step=", .span plan.step, ", gap=", .span gap, "; ", .count minimumFolds,
      " is the minimum, because one fold is a single train/test split and a single split is not evidence"]
  construct WalkForwardScheduleFields.postInit WalkForwardSchedule.mk
    ⟨plan, folds, declaration.purge, declaration.embargo⟩

/-! ### The loop in closed form -/

namespace WalkForwardPlan

variable (self : WalkForwardPlan)

def firstTestStart : DateTime := self.startUtc + self.trainSpan + self.declaration.gap

/-- How many test windows end inside the plan's. -/
def foldTotal : ℕ := membersUpTo self.step self.firstTestStart (self.endUtc - self.testSpan)

theorem lt_foldTotal_iff {k : ℕ} : k < self.foldTotal ↔ self.testEnd self.firstTestStart k ≤ self.endUtc := by
  rw [foldTotal, lt_membersUpTo_iff self.step_pos, testEnd, testStart, le_sub_iff_add_le]

theorem foldFields_checked (k : ℕ) :
    (self.foldFields self.firstTestStart self.declaration.gap k).postInit = .ok () := by
  obtain ⟨htrain, htest, hstep, _, _⟩ := self.postInit_facts
  have hgap := self.declaration.gap_pos
  have helapsed : 0 ≤ (k : ℤ) * self.step := mul_nonneg (Int.natCast_nonneg k) hstep.le
  simp only [FoldFields.postInit, bind_eq_ok, raiseIf_eq_ok, not_le]
  refine ⟨(), ?_, (), ?_, ?_⟩
  · simp only [foldFields, testStart, firstTestStart]
    cases self.scheme <;> dsimp only <;> linarith
  · simp only [foldFields, testEnd]
    linarith
  · simp only [foldFields]
    linarith

/-- The fold of an index. -/
def fold (k : ℕ) : Fold :=
  ⟨self.foldFields self.firstTestStart self.declaration.gap k, self.foldFields_checked k⟩

/-- From an index on, the loop appends the folds that end inside the window. -/
theorem foldsFrom_eq (k : ℕ) : self.foldsFrom self.firstTestStart self.declaration.gap k =
    .ok ((List.range' k (self.foldTotal - k)).map self.fold) := by
  induction k using foldsFrom.induct self self.firstTestStart with
  | case1 k hstop =>
    have hdone : self.foldTotal - k = 0 :=
      Nat.sub_eq_zero_of_le (not_lt.mp fun h => not_lt.mpr (self.lt_foldTotal_iff.mp h) hstop)
    rw [foldsFrom, dif_pos hstop, hdone]
    rfl
  | case2 k hfits ih =>
    have hlater : self.foldTotal - k = self.foldTotal - (k + 1) + 1 := by
      have hk : k < self.foldTotal := self.lt_foldTotal_iff.mpr (not_lt.mp hfits)
      omega
    rw [foldsFrom, dif_neg hfits, construct_ok (self.foldFields_checked k), ih, hlater, List.range'_succ]
    rfl

/-- The same plan under either scheme. -/
def withScheme (scheme : WalkForwardScheme) : WalkForwardPlan :=
  ⟨{ self.toWalkForwardPlanFields with scheme := scheme }, self.checked⟩

@[simp] theorem withScheme_foldTotal (scheme : WalkForwardScheme) :
    (self.withScheme scheme).foldTotal = self.foldTotal := rfl

end WalkForwardPlan

/-- A schedule is built exactly when two folds fit, and it holds every fold that fits. -/
theorem buildSchedule_eq_ok {plan : WalkForwardPlan} {schedule : WalkForwardSchedule} :
    buildSchedule plan = .ok schedule ↔ minimumFolds ≤ plan.foldTotal ∧
      schedule.toWalkForwardScheduleFields = ⟨plan, (List.range plan.foldTotal).map plan.fold,
        plan.declaration.purge, plan.declaration.embargo⟩ := by
  have hfolds : plan.foldsFrom (plan.startUtc + plan.trainSpan + plan.declaration.gap)
      plan.declaration.gap 0 = .ok ((List.range plan.foldTotal).map plan.fold) := by
    rw [List.range_eq_range']
    exact plan.foldsFrom_eq 0
  have hlength : ((List.range plan.foldTotal).map plan.fold).length = plan.foldTotal := by
    rw [List.length_map, List.length_range]
  simp only [buildSchedule, hfolds, bind_eq_ok, raiseIf_eq_ok, not_lt]
  constructor
  · rintro ⟨folds, hbuilt, _, henough, hschedule⟩
    cases hbuilt
    obtain ⟨hchecked, rfl⟩ := construct_eq_ok hschedule
    exact ⟨hlength ▸ henough, rfl⟩
  · rintro ⟨henough, hfields⟩
    refine ⟨_, rfl, (), hlength.symm ▸ henough, ?_⟩
    obtain ⟨fields, hchecked⟩ := schedule
    cases hfields
    exact construct_ok hchecked

theorem exists_buildSchedule (plan : WalkForwardPlan) (h : minimumFolds ≤ plan.foldTotal) :
    ∃ schedule, buildSchedule plan = .ok schedule := by
  have hchecked : WalkForwardScheduleFields.postInit ⟨plan, (List.range plan.foldTotal).map plan.fold,
      plan.declaration.purge, plan.declaration.embargo⟩ = .ok () := by
    rw [WalkForwardScheduleFields.postInit, raiseIf_eq_ok, List.length_map, List.length_range, not_lt]
    exact h
  exact ⟨⟨_, hchecked⟩, buildSchedule_eq_ok.mpr ⟨h, rfl⟩⟩

/-! ### What the folds of a schedule promise -/

/-- The folds are all that fit: they open as early as the plan allows, come a step apart, leave no instant
    between the first test and the last untested, and the next would end past the plan's window. Each is
    tested a gap after its training ends. -/
structure MaximalAndLeakFree (plan : WalkForwardPlan) (folds : List Fold) : Prop where
  enough : minimumFolds ≤ folds.length
  indexed : folds.map (fun fold => fold.foldIndex) = List.range folds.length
  opens : ∀ first ∈ folds.head?, first.testStartUtc = plan.startUtc + plan.trainSpan + plan.declaration.gap
  stepwise : folds.IsChain fun earlier later => later.testStartUtc = earlier.testStartUtc + plan.step
  shared : folds.IsChain fun earlier later =>
    earlier.testEndUtc - later.testStartUtc = plan.testSpan - plan.step
  covered : ∀ first ∈ folds.head?, ∀ last ∈ folds.getLast?, ∀ moment : DateTime,
    first.testStartUtc ≤ moment → moment < last.testEndUtc →
      ∃ fold ∈ folds, fold.testStartUtc ≤ moment ∧ moment < fold.testEndUtc
  width : ∀ fold ∈ folds, fold.testEndUtc = fold.testStartUtc + plan.testSpan
  separated : ∀ fold ∈ folds, fold.trainEndUtc + plan.declaration.gap = fold.testStartUtc
  inside : ∀ fold ∈ folds, plan.startUtc ≤ fold.trainStartUtc ∧ fold.testEndUtc ≤ plan.endUtc
  maximal : ∀ last ∈ folds.getLast?, plan.endUtc < last.testEndUtc + plan.step

/-- The folds of the two schemes differ in their training starts only, and not in the first one. -/
structure SameButTrainStarts (anchored rolling : List Fold) : Prop where
  aligned : List.Forall₂ (fun a r => a.foldIndex = r.foldIndex ∧ a.trainEndUtc = r.trainEndUtc ∧
    a.testStartUtc = r.testStartUtc ∧ a.testEndUtc = r.testEndUtc) anchored rolling
  first : anchored.head? = rolling.head?

namespace WalkForwardPlan

variable (self : WalkForwardPlan)

theorem fold_testStart (k : ℕ) : (self.fold k).testStartUtc = self.firstTestStart + self.step * k := by
  rw [mul_comm]
  rfl

theorem fold_testEnd (k : ℕ) :
    (self.fold k).testEndUtc = self.firstTestStart + self.step * k + self.testSpan := by
  rw [mul_comm]
  rfl

theorem fold_trainStart_le (k : ℕ) : self.startUtc ≤ (self.fold k).trainStartUtc := by
  have helapsed : 0 ≤ (k : ℤ) * self.step := mul_nonneg (Int.natCast_nonneg k) self.step_pos.le
  simp only [fold, foldFields, testStart, firstTestStart]
  cases self.scheme <;> dsimp only <;> linarith

theorem maximalAndLeakFree (h : minimumFolds ≤ self.foldTotal) :
    MaximalAndLeakFree self ((List.range self.foldTotal).map self.fold) := by
  obtain ⟨m, hm⟩ : ∃ m, self.foldTotal = m + 1 := Nat.exists_eq_add_one.mpr (Nat.lt_of_lt_of_le Nat.two_pos h)
  have hfirst : ((List.range self.foldTotal).map self.fold).head? = some (self.fold 0) := by
    rw [hm, List.range_succ_eq_map]
    rfl
  have hlast : ((List.range self.foldTotal).map self.fold).getLast? = some (self.fold m) := by
    rw [hm, List.range_succ, List.map_append, List.getLast?_append]
    rfl
  refine ⟨?_, ?_, ?_, ?_, ?_, ?_, ?_, ?_, ?_, ?_⟩
  · rwa [List.length_map, List.length_range]
  · rw [List.map_map, List.length_map, List.length_range]
    exact List.map_id _
  · rintro first hmem
    rw [hfirst] at hmem
    cases hmem
    rw [fold_testStart, firstTestStart]
    simp
  · rw [List.isChain_map, List.isChain_range]
    intro k _
    rw [fold_testStart, fold_testStart]
    push_cast
    ring
  · rw [List.isChain_map, List.isChain_range]
    intro k _
    rw [fold_testStart, fold_testEnd]
    push_cast
    ring
  · intro first hmem last hmem' moment hlow hhigh
    rw [hfirst] at hmem
    rw [hlast] at hmem'
    cases hmem
    cases hmem'
    rw [fold_testStart, Nat.cast_zero, mul_zero, add_zero] at hlow
    rw [fold_testEnd] at hhigh
    obtain ⟨opened, hopened, hinside⟩ :=
      exists_window_of_progression self.postInit_facts.2.2.2.2 hlow hhigh
    obtain ⟨k, hk, rfl⟩ := mem_progression.mp hopened
    refine ⟨self.fold k, List.mem_map_of_mem (List.mem_range.mpr (hm ▸ hk)), ?_⟩
    rw [fold_testStart, fold_testEnd]
    exact hinside
  · intro fold hfold
    obtain ⟨k, _, rfl⟩ := List.mem_map.mp hfold
    rfl
  · intro fold hfold
    obtain ⟨k, _, rfl⟩ := List.mem_map.mp hfold
    exact sub_add_cancel _ _
  · intro fold hfold
    obtain ⟨k, hk, rfl⟩ := List.mem_map.mp hfold
    exact ⟨self.fold_trainStart_le k, self.lt_foldTotal_iff.mp (List.mem_range.mp hk)⟩
  · intro last hmem
    rw [hlast] at hmem
    cases hmem
    have hpast : ¬self.testEnd self.firstTestStart (m + 1) ≤ self.endUtc := by
      rw [← lt_foldTotal_iff, hm]
      exact lt_irrefl _
    rw [testEnd_succ, not_le] at hpast
    exact hpast

theorem sameButTrainStarts :
    SameButTrainStarts ((List.range self.foldTotal).map (self.withScheme .anchored).fold)
      ((List.range self.foldTotal).map (self.withScheme .rolling).fold) := by
  refine ⟨?_, ?_⟩
  · rw [List.forall₂_map_left_iff, List.forall₂_map_right_iff, List.forall₂_same]
    exact fun k _ => ⟨rfl, rfl, rfl, rfl⟩
  · have hzero : (self.withScheme .anchored).fold 0 = (self.withScheme .rolling).fold 0 := by
      have hstart : self.startUtc = self.testStart self.firstTestStart 0 - self.declaration.gap - self.trainSpan := by
        simp only [testStart, firstTestStart, Nat.cast_zero, zero_mul]
        ring
      have hfields : (self.withScheme .anchored).foldFields self.firstTestStart self.declaration.gap 0 =
          (self.withScheme .rolling).foldFields self.firstTestStart self.declaration.gap 0 := by
        simp only [foldFields]
        exact congrArg (FoldFields.mk _ · _ _ _) hstart
      simp only [fold]
      congr 1
    cases self.foldTotal with
    | zero => rfl
    | succ n =>
      rw [List.range_succ_eq_map]
      exact congrArg some hzero

end WalkForwardPlan

/-- What a built schedule holds is all that fits and leaks nothing; and under either scheme the plan builds
    the same folds but for where their training starts. -/
theorem schedules_are_maximal (plan : WalkForwardPlan) (schedule : WalkForwardSchedule)
    (h : buildSchedule plan = .ok schedule) : MaximalAndLeakFree plan schedule.folds ∧
      ∃ anchored rolling, buildSchedule (plan.withScheme .anchored) = .ok anchored ∧
        buildSchedule (plan.withScheme .rolling) = .ok rolling ∧
        SameButTrainStarts anchored.folds rolling.folds := by
  obtain ⟨henough, hfields⟩ := buildSchedule_eq_ok.mp h
  obtain ⟨anchored, hanchored⟩ := exists_buildSchedule (plan.withScheme .anchored) henough
  obtain ⟨rolling, hrolling⟩ := exists_buildSchedule (plan.withScheme .rolling) henough
  have hfolds : schedule.folds = (List.range plan.foldTotal).map plan.fold :=
    congrArg WalkForwardScheduleFields.folds hfields
  refine ⟨hfolds ▸ plan.maximalAndLeakFree henough, anchored, rolling, hanchored, hrolling, ?_⟩
  rw [(buildSchedule_eq_ok.mp hanchored).2, (buildSchedule_eq_ok.mp hrolling).2]
  exact plan.sameButTrainStarts

/-- A plan that re-fits twice in every test window. -/
def halfStepFields : WalkForwardPlanFields where
  scheme := .rolling
  startUtc := 0
  endUtc := 20
  trainSpan := 10
  testSpan := 4
  step := 2
  declaration := ⟨⟨1, 0, 0, 1⟩, rfl⟩

theorem halfStepFields_checked : halfStepFields.postInit = .ok () := by decide

def halfStepPlan : WalkForwardPlan := ⟨halfStepFields, halfStepFields_checked⟩

theorem halfStepPlan_foldTotal : halfStepPlan.foldTotal = 3 := by decide

theorem schedules_are_maximal_half_step : ∃ schedule, buildSchedule halfStepPlan = .ok schedule ∧
    MaximalAndLeakFree halfStepPlan schedule.folds := by
  have henough : minimumFolds ≤ halfStepPlan.foldTotal := by rw [halfStepPlan_foldTotal]; decide
  obtain ⟨schedule, hbuilt⟩ := exists_buildSchedule halfStepPlan henough
  exact ⟨schedule, hbuilt, (schedules_are_maximal halfStepPlan schedule hbuilt).1⟩

/-- A plan may step by less than its test span, and then an instant is tested by two folds. -/
theorem shorter_steps_overlap : ¬∀ (plan : WalkForwardPlan) (schedule : WalkForwardSchedule),
    buildSchedule plan = .ok schedule →
      schedule.folds.IsChain fun earlier later => earlier.testEndUtc ≤ later.testStartUtc := by
  intro hclaim
  have henough : minimumFolds ≤ halfStepPlan.foldTotal := by rw [halfStepPlan_foldTotal]; decide
  obtain ⟨schedule, hbuilt⟩ := exists_buildSchedule halfStepPlan henough
  have hchain := hclaim halfStepPlan schedule hbuilt
  rw [(buildSchedule_eq_ok.mp hbuilt).2, halfStepPlan_foldTotal, List.isChain_map, List.isChain_range] at hchain
  exact absurd (hchain 0 (by decide)) (by decide)

end FinanceKing.Backtest
