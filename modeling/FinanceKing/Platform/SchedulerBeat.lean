import FinanceKing.Lib.Dict
import FinanceKing.Platform.Scheduler

/-! The beat and its run ledger, one ledger transaction a step: a tick admits job by job, claiming one
    fire time after another, while the jobs it started run beside it, and the process may stop between
    any two steps. -/

namespace FinanceKing.Platform

open Lib

/-- How a claimed run ended. -/
inductive JobOutcome where
  | succeeded
  | failed
  | abandoned
  deriving DecidableEq

/-- A row of `scheduler_job_run`, outside its key. -/
structure JobRunRow where
  isCatchUp : Bool
  outcome : Option JobOutcome
  failureReason : Option String
  deriving DecidableEq

/-- The reason the boot sweep writes. -/
def abandonedReason : String :=
  "claimed by a process that is no longer running; swept at scheduler boot"

abbrev JobRunTable := Dict (String × DateTime) JobRunRow

namespace JobRunTable

variable (self : JobRunTable)

/-- The fire times claimed for a job, in the order they were. -/
def firesOf (jobId : String) : List DateTime :=
  (self.keys.filter (fun key => key.1 = jobId)).map Prod.snd

def lastFireUtc (jobId : String) : Option DateTime := (self.firesOf jobId).max?

/-- `_CLAIM`: a fire time that has a row is left alone. -/
def claim (jobId : String) (fireTimeUtc : DateTime) (isCatchUp : Bool) : JobRunTable × Bool :=
  match self.get? (jobId, fireTimeUtc) with
  | some _ => (self, false)
  | none => (self.set (jobId, fireTimeUtc) ⟨isCatchUp, none, none⟩, true)

/-- `_FINISH`: only a row that is still unfinished is closed. -/
def finish (jobId : String) (fireTimeUtc : DateTime) (outcome : JobOutcome)
    (failureReason : Option String) : JobRunTable :=
  match self.get? (jobId, fireTimeUtc) with
  | some row =>
    if row.outcome.isNone then
      self.set (jobId, fireTimeUtc) { row with outcome := some outcome, failureReason := failureReason }
    else self
  | none => self

/-- `_ABANDON_UNFINISHED`. -/
def abandonUnfinished : JobRunTable where
  entries := self.entries.map fun entry =>
    (entry.1, if entry.2.outcome.isNone then
      { entry.2 with outcome := some .abandoned, failureReason := some abandonedReason } else entry.2)
  nodupKeys := by simpa [List.map_map, Function.comp_def] using self.nodupKeys

end JobRunTable

/-- One scheduled execution, handed to the job callable. -/
structure JobFire where
  jobId : String
  fireTimeUtc : DateTime
  isCatchUp : Bool
  deriving DecidableEq

def JobFire.key (self : JobFire) : String × DateTime := (self.jobId, self.fireTimeUtc)

/-- One job's task: the fire times it has left, the one it is executing, and whether something outside the
    taxonomy ended it. -/
structure JobTask where
  jobId : String
  remaining : List JobFire
  running : Option JobFire
  raised : Bool
  deriving DecidableEq

def JobTask.done (self : JobTask) : Bool :=
  self.raised || (self.remaining.isEmpty && self.running.isNone)

/-- What one tick admitted, and what it turned away. -/
structure TickReport where
  claimed : List JobFire
  refusedOverlap : List String
  alreadyClaimed : List String
  deriving DecidableEq

/-- A job whose due fire times are being claimed one by one. -/
structure Claiming where
  spec : JobSpec
  due : List DateTime
  isCatchUp : Bool
  fires : List JobFire
  deriving DecidableEq

/-- A tick under way. -/
structure Admission where
  nowUtc : DateTime
  specs : List JobSpec
  current : Option Claiming
  report : TickReport
  deriving DecidableEq

/-- A beat process: the tasks it has created, which of them `_in_flight` names, and the tick under way. -/
structure Beat where
  tasks : List JobTask
  inFlight : List (String × ℕ)
  admission : Option Admission
  deriving DecidableEq

/-- One claim that was won, with the instant of the tick that made it. -/
structure Claim where
  jobId : String
  fireTimeUtc : DateTime
  tickUtc : DateTime
  deriving DecidableEq

def Claim.key (self : Claim) : String × DateTime := (self.jobId, self.fireTimeUtc)

/-- The database, the process if one is up, and what has happened: every claim, every admission carried
    through to a task, every execution begun, and every tick's report. -/
structure SchedulerState where
  ledger : JobRunTable
  lastTickUtc : Option DateTime
  beat : Option Beat
  claims : List Claim
  admitted : List (String × DateTime)
  executions : List (String × DateTime)
  reports : List TickReport
  deriving DecidableEq

inductive SchedulerAction where
  | boot
  | tick (nowUtc : DateTime)
  | admitNext
  | claim
  | start
  | execute (task : ℕ)
  | finish (task : ℕ) (failureReason : Option String)
  | raiseUnexpected (task : ℕ)
  | crash

namespace Beat

variable (self : Beat)

/-- The task at that place has ended. -/
def taskDone (task : ℕ) : Bool := (self.tasks[task]?).all JobTask.done

/-- `_reap`: finished tasks are retired, and one that raised stops the process. -/
def reap : Option Beat :=
  if self.inFlight.any (fun entry => (self.tasks[entry.2]?).any JobTask.raised) then none
  else some { self with inFlight := self.inFlight.filter (fun entry => ¬ self.taskDone entry.2) }

def isInFlight (jobId : String) : Bool := self.inFlight.any (fun entry => entry.1 = jobId)

end Beat

namespace SchedulerState

/-- A state with no process up, over what the ledger already holds. -/
def init (ledger : JobRunTable) : SchedulerState := ⟨ledger, none, none, [], [], [], []⟩

variable (s : SchedulerState) (catalogue : JobCatalogue)

def withBeat (beat : Beat) : SchedulerState := { s with beat := some beat }

/-- The lock is taken and the runs a previous process left open are swept. -/
def boot : SchedulerState :=
  match s.beat with
  | some _ => s
  | none => { s with ledger := s.ledger.abandonUnfinished, beat := some ⟨[], [], none⟩ }

/-- A tick begins at an instant no earlier than the one before. -/
def tick (nowUtc : DateTime) : SchedulerState :=
  match s.beat with
  | none => s
  | some beat =>
    if beat.admission.isNone ∧ s.lastTickUtc.all (· ≤ nowUtc) then
      { s with
        lastTickUtc := some nowUtc
        beat := beat.reap.map fun reaped =>
          { reaped with admission := some ⟨nowUtc, catalogue.specs, none, ⟨[], [], []⟩⟩ } }
    else s

/-- The next job of the catalogue is refused, found not due, or has its due fire times read; a backlog
    past its bound stops the process. -/
def admitNext : SchedulerState :=
  match s.beat with
  | none => s
  | some beat =>
    match beat.admission with
    | none => s
    | some admission =>
      match admission.current, admission.specs with
      | some _, _ => s
      | none, [] =>
        { s with
          beat := some { beat with admission := none }
          reports := s.reports ++ [admission.report] }
      | none, spec :: specs =>
        if beat.isInFlight spec.jobId then
          s.withBeat { beat with admission := some { admission with
            specs := specs
            report := { admission.report with
              refusedOverlap := admission.report.refusedOverlap ++ [spec.jobId] } } }
        else
          match dueFireTimes spec.schedule spec.misfirePolicy (s.ledger.lastFireUtc spec.jobId)
              admission.nowUtc spec.maxCatchUpRuns with
          | .error _ => { s with beat := none }
          | .ok due =>
            s.withBeat { beat with admission := some { admission with
              specs := specs
              current := if due.fireTimes = [] then none
                else some ⟨spec, due.fireTimes, due.isCatchUp, []⟩ } }

/-- One transaction of `_claim_due`. -/
def claim : SchedulerState :=
  match s.beat with
  | none => s
  | some beat =>
    match beat.admission with
    | none => s
    | some admission =>
      match admission.current with
      | none => s
      | some current =>
        match current.due with
        | [] => s
        | fireTimeUtc :: due =>
          let outcome := s.ledger.claim current.spec.jobId fireTimeUtc current.isCatchUp
          let fire : JobFire := ⟨current.spec.jobId, fireTimeUtc, current.isCatchUp⟩
          if outcome.2 then
            { s with
              ledger := outcome.1
              beat := some { beat with admission := some { admission with
                current := some { current with due := due, fires := current.fires ++ [fire] } } }
              claims := s.claims ++ [⟨current.spec.jobId, fireTimeUtc, admission.nowUtc⟩] }
          else
            s.withBeat { beat with admission := some { admission with
              current := some { current with due := due } } }

/-- Every due fire time has been tried: the job's task is created over those that were won. -/
def start : SchedulerState :=
  match s.beat with
  | none => s
  | some beat =>
    match beat.admission with
    | none => s
    | some admission =>
      match admission.current with
      | none => s
      | some current =>
        if current.due ≠ [] then s
        else if current.fires = [] then
          s.withBeat { beat with admission := some { admission with
            current := none
            report := { admission.report with
              alreadyClaimed := admission.report.alreadyClaimed ++ [current.spec.jobId] } } }
        else
          { s with
            admitted := s.admitted ++ [(current.spec.jobId, admission.nowUtc)]
            beat := some
              { tasks := beat.tasks ++ [⟨current.spec.jobId, current.fires, none, false⟩]
                inFlight := beat.inFlight.filter (fun entry => entry.1 ≠ current.spec.jobId) ++
                  [(current.spec.jobId, beat.tasks.length)]
                admission := some { admission with
                  current := none
                  report := { admission.report with
                    claimed := admission.report.claimed ++ current.fires } } } }

/-- The task begins its next fire time. -/
def execute (index : ℕ) : SchedulerState :=
  match s.beat with
  | none => s
  | some beat =>
    match beat.tasks[index]? with
    | none => s
    | some task =>
      match task.raised, task.running, task.remaining with
      | false, none, fire :: remaining =>
        { s with
          executions := s.executions ++ [fire.key]
          beat := some { beat with
            tasks := beat.tasks.set index { task with remaining := remaining, running := some fire } } }
      | _, _, _ => s

/-- The job returned, or raised a failure of the taxonomy: the run is closed and the task goes on. -/
def finish (index : ℕ) (failureReason : Option String) : SchedulerState :=
  match s.beat with
  | none => s
  | some beat =>
    match beat.tasks[index]? with
    | none => s
    | some task =>
      match task.running with
      | none => s
      | some fire =>
        let outcome : JobOutcome := if failureReason.isSome then .failed else .succeeded
        { s with
          ledger := s.ledger.finish fire.jobId fire.fireTimeUtc outcome failureReason
          beat := some { beat with tasks := beat.tasks.set index { task with running := none } } }

/-- The job raised something else, which ends its task. -/
def raiseUnexpected (index : ℕ) : SchedulerState :=
  match s.beat with
  | none => s
  | some beat =>
    match beat.tasks[index]? with
    | none => s
    | some task =>
      match task.running with
      | none => s
      | some _ =>
        s.withBeat { beat with
          tasks := beat.tasks.set index { task with running := none, raised := true } }

/-- One step of the system. -/
def step : SchedulerAction → SchedulerState
  | .boot => s.boot
  | .tick nowUtc => s.tick catalogue nowUtc
  | .admitNext => s.admitNext
  | .claim => s.claim
  | .start => s.start
  | .execute task => s.execute task
  | .finish task failureReason => s.finish task failureReason
  | .raiseUnexpected task => s.raiseUnexpected task
  | .crash => { s with beat := none }

/-- The state a sequence of steps reaches. -/
def run (actions : List SchedulerAction) : SchedulerState :=
  actions.foldl (fun s action => s.step catalogue action) s

end SchedulerState

end FinanceKing.Platform

/-! What a job's claims look like, one after another: each falls in an interval later than every fire time
    already on record, and under `RUN_EVERY_MISSED` in the very next one. -/

namespace FinanceKing.Platform

open Lib

variable {spec : JobSpec}

/-- A fire time a tick may claim, over the fire times already on record. -/
structure NextClaim (spec : JobSpec) (held : List DateTime) (fireTimeUtc tickUtc : DateTime) :
    Prop where
  reached : spec.schedule.indexAtOrBefore fireTimeUtc ≤ spec.schedule.indexAtOrBefore tickUtc
  later : ∀ earlier ∈ held,
    spec.schedule.indexAtOrBefore earlier < spec.schedule.indexAtOrBefore fireTimeUtc
  next : spec.misfirePolicy = .runEveryMissed → fireTimeUtc = spec.schedule.fireTimeForIndex
    (held.max?.elim (spec.schedule.indexAtOrBefore tickUtc)
      fun last => spec.schedule.indexAtOrBefore last + 1)

/-- Every claim of the list may be made over what was on record and the claims before it. -/
def ClaimsFrom (spec : JobSpec) : List DateTime → List Claim → Prop
  | _, [] => True
  | held, c :: claims =>
    NextClaim spec held c.fireTimeUtc c.tickUtc ∧ ClaimsFrom spec (held ++ [c.fireTimeUtc]) claims

theorem claimsFrom_concat {c : Claim} : ∀ {held : List DateTime} {claims : List Claim},
    ClaimsFrom spec held (claims ++ [c]) ↔ ClaimsFrom spec held claims ∧
      NextClaim spec (held ++ claims.map Claim.fireTimeUtc) c.fireTimeUtc c.tickUtc
  | held, [] => by simp [ClaimsFrom]
  | held, first :: claims => by
    rw [List.cons_append, ClaimsFrom, ClaimsFrom, claimsFrom_concat, List.map_cons, and_assoc,
      List.append_assoc, List.singleton_append]

/-- The intervals of the claims are later than those on record, and ascend. -/
theorem ClaimsFrom.ascending : ∀ {held : List DateTime} {claims : List Claim},
    ClaimsFrom spec held claims →
    (claims.map fun c => spec.schedule.indexAtOrBefore c.fireTimeUtc).Pairwise (· < ·) ∧
      ∀ earlier ∈ held, ∀ c ∈ claims, spec.schedule.indexAtOrBefore earlier <
        spec.schedule.indexAtOrBefore c.fireTimeUtc
  | _, [], _ => by simp
  | held, first :: claims, h => by
    obtain ⟨hpairwise, hlater⟩ := h.2.ascending
    refine ⟨?_, fun earlier hearlier c hc => ?_⟩
    · rw [List.map_cons, List.pairwise_cons]
      refine ⟨fun index hindex => ?_, hpairwise⟩
      obtain ⟨c, hc, rfl⟩ := List.mem_map.mp hindex
      exact hlater first.fireTimeUtc (by simp) c hc
    · rcases List.mem_cons.mp hc with rfl | hc
      · exact h.1.later earlier hearlier
      · exact hlater earlier (List.mem_append_left _ hearlier) c hc

theorem max?_concat {held : List DateTime} {last : DateTime}
    (h : ∀ earlier ∈ held, spec.schedule.indexAtOrBefore earlier <
      spec.schedule.indexAtOrBefore last) : (held ++ [last]).max? = some last := by
  rw [List.max?_eq_some_iff]
  refine ⟨by simp, fun b hb => ?_⟩
  rcases List.mem_append.mp hb with hb | hb
  · exact (spec.schedule.lt_of_indexAtOrBefore_lt (h b hb)).le
  · rw [List.mem_singleton.mp hb]

/-! ### Every missed fire time -/

/-- Under `RUN_EVERY_MISSED` the claims are consecutive fire times. -/
theorem ClaimsFrom.consecutive (hpolicy : spec.misfirePolicy = .runEveryMissed) :
    ∀ {held : List DateTime} {claims : List Claim} {first : Claim},
    ClaimsFrom spec held (first :: claims) →
    (first :: claims).map Claim.fireTimeUtc = spec.schedule.fireTimesFrom
      (held.max?.elim (spec.schedule.indexAtOrBefore first.tickUtc)
        fun last => spec.schedule.indexAtOrBefore last + 1) (claims.length + 1)
  | held, [], first, h => by
    simp [IntervalSchedule.fireTimesFrom, h.1.next hpolicy]
  | held, second :: claims, first, h => by
    have hrest := ClaimsFrom.consecutive hpolicy h.2
    have hfirst := h.1.next hpolicy
    have hindex := congrArg spec.schedule.indexAtOrBefore hfirst
    rw [IntervalSchedule.indexAtOrBefore_fireTimeForIndex] at hindex
    rw [max?_concat h.1.later, Option.elim_some, hindex] at hrest
    rw [List.map_cons, hrest, List.length_cons]
    exact (congrArg₂ List.cons hfirst rfl).trans (spec.schedule.fireTimesFrom_cons _ _).symm

/-- The initial cursor: the last fire time on record, or else one period behind the first admission. -/
def initialCursor (spec : JobSpec) (held : List DateTime) (claims : List Claim) : DateTime :=
  held.max?.getD (spec.schedule.fireTimeForIndex
    (spec.schedule.indexAtOrBefore ((claims.map Claim.tickUtc).headD 0) - 1))

/-- They are the fire times after the initial cursor through any moment of the last one's interval. -/
theorem ClaimsFrom.eq_fireTimesIn (hpolicy : spec.misfirePolicy = .runEveryMissed)
    {held : List DateTime} {claims : List Claim} {last : Claim}
    (h : ClaimsFrom spec held (claims ++ [last])) {throughUtc : DateTime}
    (hthrough : spec.schedule.indexAtOrBefore throughUtc =
      spec.schedule.indexAtOrBefore last.fireTimeUtc) :
    (claims ++ [last]).map Claim.fireTimeUtc =
      spec.schedule.fireTimesIn (initialCursor spec held (claims ++ [last])) throughUtc := by
  obtain ⟨first, rest, hlist⟩ : ∃ first rest, claims ++ [last] = first :: rest :=
    List.exists_cons_of_ne_nil (by simp)
  rw [hlist] at h ⊢
  have hfires := h.consecutive hpolicy
  have hcursor : held.max?.elim (spec.schedule.indexAtOrBefore first.tickUtc)
      (fun last => spec.schedule.indexAtOrBefore last + 1) =
        spec.schedule.indexAtOrBefore (initialCursor spec held (first :: rest)) + 1 := by
    rw [initialCursor]
    cases held.max? with
    | none => simp
    | some m => rfl
  rw [hcursor] at hfires
  have hlast : last.fireTimeUtc = spec.schedule.fireTimeForIndex
      (spec.schedule.indexAtOrBefore (initialCursor spec held (first :: rest)) + 1 + rest.length) := by
    have hget := congrArg List.getLast? hfires
    have hend : ((first :: rest).map Claim.fireTimeUtc).getLast? = some last.fireTimeUtc := by
      rw [← hlist]
      simp
    rw [hend, IntervalSchedule.fireTimesFrom_succ] at hget
    simpa using hget
  rw [hfires, IntervalSchedule.fireTimesIn_eq _ rest.length]
  rw [hthrough, hlast, IntervalSchedule.indexAtOrBefore_fireTimeForIndex]
  ring

/-! ### What is due -/

/-- Consecutive fire times from the one after the last on record may be claimed one after another. -/
theorem claimsFrom_fireTimesFrom {nowUtc : DateTime} : ∀ {count : ℕ} {firstIndex : ℤ}
    {held : List DateTime}, (∀ earlier ∈ held, spec.schedule.indexAtOrBefore earlier < firstIndex) →
    firstIndex = held.max?.elim (spec.schedule.indexAtOrBefore nowUtc)
      (fun last => spec.schedule.indexAtOrBefore last + 1) →
    firstIndex + count ≤ spec.schedule.indexAtOrBefore nowUtc + 1 →
    ClaimsFrom spec held ((spec.schedule.fireTimesFrom firstIndex count).map
      fun fireTimeUtc => ⟨spec.jobId, fireTimeUtc, nowUtc⟩)
  | 0, _, _, _, _, _ => trivial
  | count + 1, firstIndex, held, hlater, hfirst, hcount => by
    rw [IntervalSchedule.fireTimesFrom_cons, List.map_cons]
    have hindex := spec.schedule.indexAtOrBefore_fireTimeForIndex firstIndex
    refine ⟨⟨?_, ?_, fun _ => congrArg spec.schedule.fireTimeForIndex hfirst⟩, claimsFrom_fireTimesFrom ?_ ?_ ?_⟩
    · simp only [hindex]
      omega
    · simpa only [hindex] using hlater
    · intro earlier hearlier
      rcases List.mem_append.mp hearlier with hold | hnew
      · exact (hlater earlier hold).trans (by omega)
      · rw [List.mem_singleton.mp hnew]
        simp only [hindex]
        omega
    · have hfireLater : ∀ earlier ∈ held, spec.schedule.indexAtOrBefore earlier <
          spec.schedule.indexAtOrBefore (spec.schedule.fireTimeForIndex firstIndex) := by
        simpa only [hindex] using hlater
      rw [max?_concat hfireLater, Option.elim_some, hindex]
    · push_cast at hcount
      omega

/-- What is found due may be claimed one after another, and reaches the interval of the tick. -/
theorem claimsFrom_dueFireTimes {held : List DateTime} {nowUtc : DateTime} {maxCatchUpRuns : ℤ}
    {due : DueRuns}
    (h : dueFireTimes spec.schedule spec.misfirePolicy held.max? nowUtc maxCatchUpRuns = .ok due) :
    ClaimsFrom spec held (due.fireTimes.map fun fireTimeUtc => ⟨spec.jobId, fireTimeUtc, nowUtc⟩) ∧
      (due.fireTimes ≠ [] → ∃ fireTimeUtc ∈ due.fireTimes,
        spec.schedule.indexAtOrBefore fireTimeUtc = spec.schedule.indexAtOrBefore nowUtc) := by
  have hcursor : held.max?.elim (spec.schedule.indexAtOrBefore nowUtc)
      (fun last => spec.schedule.indexAtOrBefore last + 1) = spec.schedule.indexAtOrBefore
        (held.max?.getD (spec.schedule.fireTimeForIndex
          (spec.schedule.indexAtOrBefore nowUtc - 1))) + 1 := by
    cases held.max? with
    | none => simp
    | some m => rfl
  have hheld : ∀ earlier ∈ held, spec.schedule.indexAtOrBefore earlier ≤
      spec.schedule.indexAtOrBefore (held.max?.getD (spec.schedule.fireTimeForIndex
        (spec.schedule.indexAtOrBefore nowUtc - 1))) := by
    intro earlier hearlier
    cases hmax : held.max? with
    | none => rw [List.max?_eq_none_iff] at hmax; subst hmax; cases hearlier
    | some m => exact spec.schedule.indexAtOrBefore_mono ((List.max?_eq_some_iff.mp hmax).2 _ hearlier)
  simp only [dueFireTimes] at h
  revert h hcursor hheld
  generalize held.max?.getD (spec.schedule.fireTimeForIndex
    (spec.schedule.indexAtOrBefore nowUtc - 1)) = afterUtc
  intro h hcursor hheld
  split at h
  · obtain rfl := Except.ok.inj h
    exact ⟨trivial, fun hne => absurd rfl hne⟩
  · next hpending =>
    obtain ⟨hlt, count, hcount⟩ := spec.schedule.exists_of_pendingFireCount_ne_zero hpending
    have hsingle : ∀ fireTimeUtc,
        spec.schedule.indexAtOrBefore fireTimeUtc = spec.schedule.indexAtOrBefore nowUtc →
        spec.misfirePolicy ≠ .runEveryMissed →
        NextClaim spec held fireTimeUtc nowUtc := by
      intro fireTimeUtc hindex hpolicy
      refine ⟨hindex.le, fun earlier hearlier => ?_, fun hevery => absurd hevery hpolicy⟩
      rw [hindex]
      exact (hheld earlier hearlier).trans_lt (by omega)
    cases hpolicy : spec.misfirePolicy with
    | skipToLatest =>
      rw [hpolicy] at h
      obtain rfl := Except.ok.inj h
      have hindex := spec.schedule.indexAtOrBefore_fireTimeForIndex
        (spec.schedule.indexAtOrBefore nowUtc)
      exact ⟨⟨hsingle _ hindex (by rw [hpolicy]; decide), trivial⟩, fun _ => ⟨_, by simp, hindex⟩⟩
    | runNow =>
      rw [hpolicy] at h
      obtain rfl := Except.ok.inj h
      exact ⟨⟨hsingle _ rfl (by rw [hpolicy]; decide), trivial⟩, fun _ => ⟨_, by simp, rfl⟩⟩
    | runEveryMissed =>
      rw [hpolicy] at h
      simp only [bind_eq_ok, raiseIf_eq_ok] at h
      obtain ⟨_, _, h⟩ := h
      obtain rfl := Except.ok.inj h
      rw [spec.schedule.fireTimesIn_eq count hcount]
      refine ⟨claimsFrom_fireTimesFrom (fun earlier hearlier => ?_) hcursor.symm ?_, fun _ => ?_⟩
      · have := hheld earlier hearlier
        omega
      · push_cast
        omega
      · rw [IntervalSchedule.fireTimesFrom_succ]
        refine ⟨_, List.mem_append_right _ (List.mem_singleton_self _), ?_⟩
        rw [IntervalSchedule.indexAtOrBefore_fireTimeForIndex]
        omega

end FinanceKing.Platform
