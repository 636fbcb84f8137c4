import FinanceKing.Domain.Guards

/-! When a job is due: an anchored interval as integer arithmetic, and what a missed run means for each
    misfire policy. -/

namespace FinanceKing.Platform

structure IntervalScheduleFields where
  period : TimeDelta
  anchorUtc : DateTime
  deriving DecidableEq

def IntervalScheduleFields.postInit (self : IntervalScheduleFields) : PyResult Unit :=
  raiseIf (self.period ≤ 0) .jobRegistration
    ["period must be positive; got ", .span self.period, ". A non-positive period has no next fire ",
      "time, so the job would either never run or run without bound"]

/-- Fires at `anchorUtc + k * period` for every integer `k`. -/
structure IntervalSchedule extends IntervalScheduleFields where
  checked : toIntervalScheduleFields.postInit = .ok ()
  deriving DecidableEq

namespace IntervalSchedule

variable (self : IntervalSchedule)

theorem period_pos : 0 < self.period := by
  have h := self.checked
  simp only [IntervalScheduleFields.postInit, raiseIf_eq_ok] at h
  exact not_le.mp h

/-- The `index`-th fire time, counting from the anchor. -/
def fireTimeForIndex (index : ℤ) : DateTime := self.anchorUtc + index * self.period

/-- The largest index whose fire time is at or before the moment. -/
def indexAtOrBefore (momentUtc : DateTime) : ℤ := (momentUtc - self.anchorUtc) / self.period

/-- How many fire times fall in `(afterUtc, throughUtc]`. -/
def pendingFireCount (afterUtc throughUtc : DateTime) : ℤ :=
  if throughUtc ≤ afterUtc then 0
  else max 0 (self.indexAtOrBefore throughUtc - (self.indexAtOrBefore afterUtc + 1) + 1)

/-- The fire times of consecutive indices. -/
def fireTimesFrom (firstIndex : ℤ) (count : ℕ) : List DateTime :=
  (List.range count).map fun (i : ℕ) => self.fireTimeForIndex (firstIndex + i)

/-- Every fire time in `(afterUtc, throughUtc]`, ascending. -/
def fireTimesIn (afterUtc throughUtc : DateTime) : List DateTime :=
  if throughUtc ≤ afterUtc then []
  else
    let firstIndex := self.indexAtOrBefore afterUtc + 1
    self.fireTimesFrom firstIndex (self.indexAtOrBefore throughUtc + 1 - firstIndex).toNat

/-! ### Fire times and their indices -/

@[simp] theorem indexAtOrBefore_fireTimeForIndex (index : ℤ) :
    self.indexAtOrBefore (self.fireTimeForIndex index) = index := by
  rw [indexAtOrBefore, fireTimeForIndex, add_sub_cancel_left,
    Int.mul_ediv_cancel _ self.period_pos.ne']

theorem indexAtOrBefore_mono {a b : DateTime} (h : a ≤ b) :
    self.indexAtOrBefore a ≤ self.indexAtOrBefore b :=
  Int.ediv_le_ediv self.period_pos (Int.sub_le_sub_right h _)

theorem lt_of_indexAtOrBefore_lt {a b : DateTime}
    (h : self.indexAtOrBefore a < self.indexAtOrBefore b) : a < b := by
  by_contra hle
  exact absurd (self.indexAtOrBefore_mono (not_lt.mp hle)) (not_le.mpr h)

theorem fireTimesFrom_succ (firstIndex : ℤ) (count : ℕ) :
    self.fireTimesFrom firstIndex (count + 1) =
      self.fireTimesFrom firstIndex count ++ [self.fireTimeForIndex (firstIndex + count)] := by
  simp [fireTimesFrom, List.range_succ]

theorem fireTimesFrom_cons (firstIndex : ℤ) (count : ℕ) :
    self.fireTimesFrom firstIndex (count + 1) =
      self.fireTimeForIndex firstIndex :: self.fireTimesFrom (firstIndex + 1) count := by
  simp only [fireTimesFrom, List.range_succ_eq_map, List.map_cons, List.map_map, Nat.cast_zero,
    add_zero, List.cons.injEq, true_and, List.map_inj_left, Function.comp_apply, Nat.cast_succ]
  intro i _
  rw [add_assoc, add_comm 1]

theorem exists_of_pendingFireCount_ne_zero {afterUtc throughUtc : DateTime}
    (h : self.pendingFireCount afterUtc throughUtc ≠ 0) : afterUtc < throughUtc ∧ ∃ count : ℕ,
      self.indexAtOrBefore throughUtc = self.indexAtOrBefore afterUtc + (count + 1) := by
  rw [pendingFireCount] at h
  split at h
  · exact absurd rfl h
  · next hlt =>
    refine ⟨not_le.mp hlt,
      (self.indexAtOrBefore throughUtc - self.indexAtOrBefore afterUtc - 1).toNat, ?_⟩
    omega

/-- The fire times after one moment and through another, when the second is in a later interval. -/
theorem fireTimesIn_eq {afterUtc throughUtc : DateTime} (count : ℕ)
    (h : self.indexAtOrBefore throughUtc = self.indexAtOrBefore afterUtc + (count + 1)) :
    self.fireTimesIn afterUtc throughUtc =
      self.fireTimesFrom (self.indexAtOrBefore afterUtc + 1) (count + 1) := by
  have hlt := self.lt_of_indexAtOrBefore_lt (a := afterUtc) (b := throughUtc) (by omega)
  have hcount : (self.indexAtOrBefore throughUtc + 1 - (self.indexAtOrBefore afterUtc + 1)).toNat =
      count + 1 := by omega
  rw [fireTimesIn, if_neg (not_le.mpr hlt)]
  simp only [hcount]

end IntervalSchedule

/-- What happens to the fires that elapsed while the job was not running. -/
inductive MisfirePolicy where
  | skipToLatest
  | runEveryMissed
  | runNow
  deriving DecidableEq

def MisfirePolicy.value : MisfirePolicy → String
  | .skipToLatest => "skip_to_latest"
  | .runEveryMissed => "run_every_missed"
  | .runNow => "run_now"

/-- The fire times to execute, and how many fires elapsed to produce them. -/
structure DueRuns where
  fireTimes : List DateTime
  missedFireCount : ℤ
  deriving DecidableEq

def DueRuns.isCatchUp (self : DueRuns) : Bool := 1 < self.missedFireCount

/-- The runs owed at `nowUtc`, given the last fire time already recorded. -/
def dueFireTimes (schedule : IntervalSchedule) (misfirePolicy : MisfirePolicy)
    (lastFireUtc : Option DateTime) (nowUtc : DateTime) (maxCatchUpRuns : ℤ) : PyResult DueRuns :=
  let afterUtc :=
    lastFireUtc.getD (schedule.fireTimeForIndex (schedule.indexAtOrBefore nowUtc - 1))
  let missedFireCount := schedule.pendingFireCount afterUtc nowUtc
  if missedFireCount = 0 then return ⟨[], 0⟩
  else match misfirePolicy with
    | .skipToLatest =>
      return ⟨[schedule.fireTimeForIndex (schedule.indexAtOrBefore nowUtc)], missedFireCount⟩
    | .runNow => return ⟨[nowUtc], missedFireCount⟩
    | .runEveryMissed => do
      raiseIf (maxCatchUpRuns < missedFireCount) .catchUpBacklogTooLarge
        [.count missedFireCount, " missed fire times are due but the job declared ",
          "max_catch_up_runs=", .count maxCatchUpRuns, ". Running them all would flood every ",
          "downstream consumer and dropping all but the last would leave ",
          .count (missedFireCount - 1), " windows unprocessed with nothing to notice it. Backfill ",
          "the range deliberately, then advance the cursor"]
      return ⟨schedule.fireTimesIn afterUtc nowUtc, missedFireCount⟩

/-! ### Job declarations -/

def isLowerLetter (c : Char) : Bool := 'a' ≤ c ∧ c ≤ 'z'

/-- The rest of a job id: word characters, with a letter after every dot. -/
def isJobIdRest : List Char → Bool
  | [] => true
  | '.' :: c :: rest => isLowerLetter c && isJobIdRest rest
  | c :: rest => (isLowerLetter c || ('0' ≤ c && c ≤ '9') || c == '_') && isJobIdRest rest

/-- `subsystem.operation`, in lower snake case. -/
def isJobId (jobId : String) : Bool :=
  match jobId.toList with
  | [] => false
  | c :: rest => isLowerLetter c && isJobIdRest rest

structure JobSpecFields where
  jobId : String
  schedule : IntervalSchedule
  misfirePolicy : MisfirePolicy
  maxCatchUpRuns : ℤ
  deriving DecidableEq

def JobSpecFields.postInit (self : JobSpecFields) : PyResult Unit := do
  raiseIf (isJobId self.jobId = false) .jobRegistration
    ["job_id ", .quoted self.jobId, " is not subsystem.operation in lower snake case; a job id is a ",
      "metric label, a log field and half of the run ledger's primary key, so it is frozen once the ",
      "job has run"]
  raiseIf (self.maxCatchUpRuns < 1) .jobRegistration
    [self.jobId, " declares max_catch_up_runs=", .count self.maxCatchUpRuns, "; a job that may ",
      "replay no fire times can never recover from an outage"]
  raiseIf (self.misfirePolicy ≠ .runEveryMissed ∧ self.maxCatchUpRuns ≠ 1) .jobRegistration
    [self.jobId, " declares misfire_policy=", self.misfirePolicy.value, " with max_catch_up_runs=",
      .count self.maxCatchUpRuns, ". That policy produces exactly one run however many fires were ",
      "missed, so any other bound states a tolerance that can never be reached and reads as if it ",
      "could"]

/-- A registrable recurring job. -/
structure JobSpec extends JobSpecFields where
  checked : toJobSpecFields.postInit = .ok ()
  deriving DecidableEq

/-- Every job the beat will run, in the order of the ids it is iterated in. -/
structure JobCatalogue where
  specs : List JobSpec
  ascending : specs.Pairwise fun a b => a.jobId < b.jobId

theorem JobCatalogue.eq_of_jobId_eq (catalogue : JobCatalogue) {a b : JobSpec}
    (ha : a ∈ catalogue.specs) (hb : b ∈ catalogue.specs) (h : a.jobId = b.jobId) : a = b := by
  have hnodup : (catalogue.specs.map (·.jobId)).Nodup :=
    List.pairwise_map.mpr (catalogue.ascending.imp fun hlt => hlt.ne)
  exact List.inj_on_of_nodup_map hnodup ha hb h

end FinanceKing.Platform
