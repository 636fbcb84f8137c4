import FinanceKing.Platform.SchedulerRun

/-! One tick as a whole: the jobs it claims and starts, beside a job whose backlog is past its bound. -/

namespace FinanceKing.Platform

open Lib

/-- A step of the tick's own loop, or of a job running beside it. -/
def SchedulerAction.withinTick : SchedulerAction → Bool
  | .boot => false
  | .tick _ => false
  | .crash => false
  | _ => true

namespace SchedulerState

variable (s : SchedulerState) (catalogue : JobCatalogue)

/-- The loop of a tick begins, once what had finished is reaped. -/
def openTick (nowUtc : DateTime) : SchedulerState :=
  { s with
    lastTickUtc := some nowUtc
    beat := (s.beat.bind Beat.reap).map fun reaped =>
      { reaped with admission := some ⟨nowUtc, catalogue.specs, none, ⟨[], [], []⟩⟩ } }

theorem tick_eq_openTick {nowUtc : DateTime} {beat : Beat} (hbeat : s.beat = some beat)
    (hidle : beat.admission = none) (hnow : s.lastTickUtc.all (· ≤ nowUtc)) :
    s.tick catalogue nowUtc = s.openTick catalogue nowUtc := by
  rw [SchedulerState.tick, hbeat]
  dsimp only
  rw [if_pos ⟨by rw [hidle]; rfl, hnow⟩, openTick, hbeat]
  rfl

/-- The tick has returned its report, or stopped the process. -/
def TickOver : Prop := ∀ beat ∈ s.beat, beat.admission = none

/-- What a job owes at an instant, on the ledger as it stands. -/
def due (spec : JobSpec) (nowUtc : DateTime) : PyResult DueRuns :=
  dueFireTimes spec.schedule spec.misfirePolicy (s.ledger.lastFireUtc spec.jobId) nowUtc spec.maxCatchUpRuns

/-- How many of its fires elapsed. -/
def missedFireCount (spec : JobSpec) (nowUtc : DateTime) : ℤ :=
  spec.schedule.pendingFireCount ((s.ledger.lastFireUtc spec.jobId).getD
    (spec.schedule.fireTimeForIndex (spec.schedule.indexAtOrBefore nowUtc - 1))) nowUtc

/-- The job replays every fire, and more of them elapsed than it declared it may replay. -/
def PastItsBound (spec : JobSpec) (nowUtc : DateTime) : Prop :=
  spec.misfirePolicy = .runEveryMissed ∧ spec.maxCatchUpRuns < s.missedFireCount spec nowUtc

/-- Since `s`, every fire time that the job owed there was claimed at that tick, and a task started on them. -/
def ClaimedAndStarted (s' : SchedulerState) (spec : JobSpec) (nowUtc : DateTime) : Prop :=
  (spec.jobId, nowUtc) ∈ s'.admitted.drop s.admitted.length ∧ ∀ due, s.due spec nowUtc = .ok due →
    ∀ fireTimeUtc ∈ due.fireTimes, ⟨spec.jobId, fireTimeUtc, nowUtc⟩ ∈ s'.claims.drop s.claims.length

end SchedulerState

/-! ### What is due -/

theorem JobSpec.one_le_maxCatchUpRuns (spec : JobSpec) : 1 ≤ spec.maxCatchUpRuns := by
  have h := spec.checked
  simp only [JobSpecFields.postInit, bind_eq_ok, raiseIf_eq_ok, not_lt] at h
  obtain ⟨_, _, _, hbound, _⟩ := h
  exact hbound

namespace SchedulerState

variable {s : SchedulerState} {catalogue : JobCatalogue} {spec : JobSpec} {nowUtc : DateTime}

theorem due_of_pastItsBound (h : s.PastItsBound spec nowUtc) : ∃ e, s.due spec nowUtc = .error e := by
  obtain ⟨hpolicy, hbound⟩ := h
  have hone := spec.one_le_maxCatchUpRuns
  have hmissed : ¬s.missedFireCount spec nowUtc = 0 := by omega
  cases hdue : s.due spec nowUtc with
  | error e => exact ⟨e, rfl⟩
  | ok due =>
    simp only [SchedulerState.due, dueFireTimes, hpolicy] at hdue
    rw [missedFireCount] at hmissed hbound
    rw [if_neg hmissed, bind_eq_ok] at hdue
    obtain ⟨_, hwithin, _⟩ := hdue
    exact absurd hbound (raiseIf_eq_ok.mp hwithin)

/-- Within its bound a job has its fire times read, and there are some exactly when one elapsed. -/
theorem due_of_not_pastItsBound (h : ¬s.PastItsBound spec nowUtc) : ∃ due : DueRuns,
    s.due spec nowUtc = .ok due ∧ (due.fireTimes = [] ↔ s.missedFireCount spec nowUtc = 0) := by
  by_cases hmissed : s.missedFireCount spec nowUtc = 0
  · exact ⟨⟨[], 0⟩, if_pos hmissed, iff_of_true rfl hmissed⟩
  · simp only [SchedulerState.due, dueFireTimes]
    rw [PastItsBound] at h
    rw [missedFireCount] at hmissed h
    rw [if_neg hmissed]
    cases hpolicy : spec.misfirePolicy with
    | skipToLatest => exact ⟨_, rfl, iff_of_false (List.cons_ne_nil _ _) hmissed⟩
    | runNow => exact ⟨_, rfl, iff_of_false (List.cons_ne_nil _ _) hmissed⟩
    | runEveryMissed =>
      have hbound := fun hlt => h ⟨hpolicy, hlt⟩
      obtain ⟨_, count, hcount⟩ := spec.schedule.exists_of_pendingFireCount_ne_zero hmissed
      refine ⟨_, bind_eq_ok.mpr ⟨(), raiseIf_eq_ok.mpr hbound, rfl⟩, iff_of_false ?_ hmissed⟩
      rw [spec.schedule.fireTimesIn_eq count hcount, IntervalSchedule.fireTimesFrom_succ]
      simp

/-! ### What the loop has done -/

/-- The job the loop is claiming for was free and within its bound; what it has tried it has won. -/
structure ClaimingOk (s : SchedulerState) (reaped : Beat) (nowUtc : DateTime) (s' : SchedulerState)
    (current : Claiming) : Prop where
  free : reaped.isInFlight current.spec.jobId = false
  bounded : ¬s.PastItsBound current.spec nowUtc
  due : ∃ due : DueRuns, s.due current.spec nowUtc = .ok due ∧ due.fireTimes ≠ [] ∧
    due.fireTimes = current.fires.map JobFire.fireTimeUtc ++ current.due
  won : ∀ fire ∈ current.fires,
    ⟨current.spec.jobId, fire.fireTimeUtc, nowUtc⟩ ∈ s'.claims.drop s.claims.length
  fresh : ClaimsFrom current.spec (s'.ledger.firesOf current.spec.jobId)
    (current.due.map fun fireTimeUtc => ⟨current.spec.jobId, fireTimeUtc, nowUtc⟩)

/-- Between two iterations: the jobs done, the one being claimed for and the ones to come make up the
    catalogue, and nothing has touched those to come. -/
structure LoopOk (s : SchedulerState) (catalogue : JobCatalogue) (reaped : Beat) (nowUtc : DateTime)
    (done : List JobSpec) (s' : SchedulerState) (beat : Beat) (admission : Admission) : Prop where
  now : admission.nowUtc = nowUtc
  specs : catalogue.specs = done ++ (admission.current.map Claiming.spec).toList ++ admission.specs
  untouched : ∀ spec ∈ admission.specs, s'.ledger.firesOf spec.jobId = s.ledger.firesOf spec.jobId ∧
    beat.isInFlight spec.jobId = reaped.isInFlight spec.jobId
  current : ∀ current ∈ admission.current, ClaimingOk s reaped nowUtc s' current

/-- A tick under way or over: every free job done was within its bound and is started if anything was due, no
    other is started, and what stops the process is the backlog of the next one. -/
structure Ticking (s : SchedulerState) (catalogue : JobCatalogue) (reaped : Beat) (nowUtc : DateTime)
    (done : List JobSpec) (s' : SchedulerState) : Prop where
  claims : s.claims <+: s'.claims
  admitted : s.admitted <+: s'.admitted
  settled : ∀ spec ∈ done, reaped.isInFlight spec.jobId = false → ¬s.PastItsBound spec nowUtc ∧
    (s.missedFireCount spec nowUtc ≠ 0 → s.ClaimedAndStarted s' spec nowUtc)
  started : ∀ entry ∈ s'.admitted.drop s.admitted.length, ∃ spec ∈ done, spec.jobId = entry.1
  stopped : s'.beat = none → ∃ offender later, catalogue.specs = done ++ offender :: later ∧
    reaped.isInFlight offender.jobId = false ∧ s.PastItsBound offender nowUtc
  ended : ∀ beat ∈ s'.beat, beat.admission = none → catalogue.specs = done
  loop : ∀ beat ∈ s'.beat, ∀ admission ∈ beat.admission,
    LoopOk s catalogue reaped nowUtc done s' beat admission

variable {s' s'' : SchedulerState} {reaped : Beat} {done : List JobSpec}

theorem ticking_openTick (catalogue : JobCatalogue) (nowUtc : DateTime)
    (hreaped : s.beat.bind Beat.reap = some reaped) :
    Ticking s catalogue reaped nowUtc [] (s.openTick catalogue nowUtc) := by
  have hbeat : (s.openTick catalogue nowUtc).beat =
      some { reaped with admission := some ⟨nowUtc, catalogue.specs, none, ⟨[], [], []⟩⟩ } := by
    rw [openTick, hreaped]
    rfl
  refine ⟨List.prefix_refl _, List.prefix_refl _, fun _ h => absurd h List.not_mem_nil, fun entry h => ?_,
    fun hstopped => ?_, fun beat hbeat' hidle => ?_, fun beat hbeat' admission hadmission => ?_⟩
  · simp [openTick] at h
  · rw [hbeat] at hstopped
    cases hstopped
  · rw [hbeat] at hbeat'
    obtain rfl := Option.some.inj hbeat'
    cases hidle
  · rw [hbeat] at hbeat'
    obtain rfl := Option.some.inj hbeat'
    obtain rfl := Option.some.inj hadmission
    exact ⟨rfl, rfl, fun _ _ => ⟨rfl, rfl⟩, fun _ h => by cases h⟩

theorem ClaimingOk.congr {current : Claiming} (hkeys : s''.ledger.keys = s'.ledger.keys)
    (hclaims : s''.claims = s'.claims) (h : ClaimingOk s reaped nowUtc s' current) :
    ClaimingOk s reaped nowUtc s'' current where
  free := h.free
  bounded := h.bounded
  due := h.due
  won := by
    rw [hclaims]
    exact h.won
  fresh := by
    rw [JobRunTable.firesOf_congr hkeys]
    exact h.fresh

theorem Ticking.settled_congr (h : Ticking s catalogue reaped nowUtc done s')
    (hclaims : s''.claims = s'.claims) (hadmitted : s''.admitted = s'.admitted) : ∀ spec ∈ done,
    reaped.isInFlight spec.jobId = false → ¬s.PastItsBound spec nowUtc ∧
      (s.missedFireCount spec nowUtc ≠ 0 → s.ClaimedAndStarted s'' spec nowUtc) := by
  intro spec hspec hfree
  obtain ⟨hbounded, hstarted⟩ := h.settled spec hspec hfree
  refine ⟨hbounded, fun hmissed => ?_⟩
  rw [ClaimedAndStarted, hclaims, hadmitted]
  exact hstarted hmissed

/-- A task's step is none of the tick's business. -/
theorem Ticking.moved (h : Ticking s catalogue reaped nowUtc done s') {beat : Beat} {index : ℕ}
    {task task' : JobTask} (hmoves : MovesTask s' s'' beat index task task') :
    Ticking s catalogue reaped nowUtc done s'' where
  claims := hmoves.claims_eq ▸ h.claims
  admitted := hmoves.admitted_eq ▸ h.admitted
  settled := h.settled_congr hmoves.claims_eq hmoves.admitted_eq
  started := by
    rw [hmoves.admitted_eq]
    exact h.started
  stopped hstopped := by
    rw [hmoves.beat_eq'] at hstopped
    cases hstopped
  ended beat' hbeat' hidle := by
    rw [hmoves.beat_eq'] at hbeat'
    obtain rfl := Option.some.inj hbeat'
    exact h.ended beat hmoves.beat_eq hidle
  loop beat' hbeat' admission hadmission := by
    rw [hmoves.beat_eq'] at hbeat'
    obtain rfl := Option.some.inj hbeat'
    obtain ⟨hnow, hspecs, huntouched, hcurrent⟩ := h.loop beat hmoves.beat_eq admission hadmission
    refine ⟨hnow, hspecs, fun spec hspec => ?_, fun current hmem =>
      (hcurrent current hmem).congr hmoves.keys_eq hmoves.claims_eq⟩
    rw [JobRunTable.firesOf_congr hmoves.keys_eq]
    exact huntouched spec hspec

/-- The loop goes on to the next job, when the one it leaves was in flight or owed nothing. -/
theorem Ticking.passed (h : Ticking s catalogue reaped nowUtc done s') {beat : Beat}
    {admission : Admission} (next : Admission) {spec : JobSpec} (hbeat : s'.beat = some beat)
    (hadmission : beat.admission = some admission) (hcurrent : admission.current = none)
    (hspecs : admission.specs = spec :: next.specs) (hnow : next.nowUtc = admission.nowUtc)
    (hnone : next.current = none)
    (hpassed : reaped.isInFlight spec.jobId = false → ¬s.PastItsBound spec nowUtc ∧
      s.missedFireCount spec nowUtc = 0) :
    Ticking s catalogue reaped nowUtc (done ++ [spec]) (s'.withBeat { beat with admission := some next }) := by
  have hloop := h.loop beat hbeat admission hadmission
  refine ⟨h.claims, h.admitted, fun other hother hfree => ?_, fun entry hentry => ?_, fun hstopped => ?_,
    fun beat' hbeat' hidle => ?_, fun beat' hbeat' a ha => ?_⟩
  · rcases List.mem_append.mp hother with hdone | hnew
    · exact h.settled other hdone hfree
    · obtain rfl := List.mem_singleton.mp hnew
      obtain ⟨hbounded, hnothing⟩ := hpassed hfree
      exact ⟨hbounded, fun hmissed => absurd hnothing hmissed⟩
  · obtain ⟨other, hother, hjob⟩ := h.started entry hentry
    exact ⟨other, List.mem_append_left _ hother, hjob⟩
  · cases hstopped
  · obtain rfl := Option.some.inj hbeat'
    cases hidle
  · obtain rfl := Option.some.inj hbeat'
    obtain rfl := Option.some.inj ha
    refine ⟨hnow.trans hloop.now, ?_, fun other hother => ?_, fun current hmem => ?_⟩
    · rw [hloop.specs, hcurrent, hspecs, hnone]
      simp
    · exact hloop.untouched other (hspecs ▸ List.mem_cons_of_mem _ hother)
    · rw [hnone] at hmem
      cases hmem

/-- The loop turns to its next job. -/
theorem Ticking.admitNext (h : Ticking s catalogue reaped nowUtc done s') :
    ∃ done', Ticking s catalogue reaped nowUtc done' s'.admitNext := by
  rw [SchedulerState.admitNext]
  split
  · exact ⟨done, h⟩
  · next beat hbeat =>
    split
    · exact ⟨done, h⟩
    · next admission hadmission =>
      have hloop := h.loop beat hbeat admission hadmission
      split
      · exact ⟨done, h⟩
      · next hcurrent hspecs =>
        -- the catalogue is through
        have hall : catalogue.specs = done := by
          rw [hloop.specs, hcurrent, hspecs]
          simp
        refine ⟨done, h.claims, h.admitted, h.settled_congr rfl rfl, h.started, fun hstopped => ?_,
          fun _ _ _ => hall, fun beat' hbeat' a ha => ?_⟩
        · cases hstopped
        · obtain rfl := Option.some.inj hbeat'
          cases ha
      · next spec specs hcurrent hspecs =>
        have hmem : spec ∈ admission.specs := by simp [hspecs]
        obtain ⟨hfires, hflight⟩ := hloop.untouched spec hmem
        split
        · next hinFlight =>
          refine ⟨_, h.passed { admission with specs := specs, report := _ } hbeat hadmission hcurrent
            hspecs rfl hcurrent fun hfree => ?_⟩
          rw [← hflight, hinFlight] at hfree
          cases hfree
        · next hinFlight =>
          have hfree : reaped.isInFlight spec.jobId = false := by
            rw [← hflight]
            exact Bool.eq_false_iff.mpr hinFlight
          have hdueEq : dueFireTimes spec.schedule spec.misfirePolicy (s'.ledger.lastFireUtc spec.jobId)
              admission.nowUtc spec.maxCatchUpRuns = s.due spec nowUtc := by
            rw [SchedulerState.due, JobRunTable.lastFireUtc, JobRunTable.lastFireUtc, hfires, hloop.now]
          rw [hdueEq]
          split
          · next e hdue =>
            -- the backlog of this job ends the tick, and the process
            have hpast : s.PastItsBound spec nowUtc := by
              by_contra hbounded
              obtain ⟨due, hok, -⟩ := due_of_not_pastItsBound hbounded
              rw [hok] at hdue
              cases hdue
            refine ⟨done, h.claims, h.admitted, h.settled_congr rfl rfl, h.started, fun _ => ?_,
              fun beat' hbeat' _ => ?_, fun beat' hbeat' => ?_⟩
            · refine ⟨spec, specs, ?_, hfree, hpast⟩
              rw [hloop.specs, hcurrent, hspecs]
              simp
            · cases hbeat'
            · cases hbeat'
          · next due hdue =>
            have hbounded : ¬s.PastItsBound spec nowUtc := by
              intro hpast
              obtain ⟨e, herror⟩ := due_of_pastItsBound hpast
              rw [herror] at hdue
              cases hdue
            obtain ⟨due', hdue', hnothing⟩ := due_of_not_pastItsBound hbounded
            obtain rfl := Except.ok.inj (hdue'.symm.trans hdue)
            by_cases hfireTimes : due'.fireTimes = []
            · exact ⟨_, h.passed { admission with specs := specs, current := _ } hbeat hadmission
                hcurrent hspecs rfl (if_pos hfireTimes) fun _ => ⟨hbounded, hnothing.mp hfireTimes⟩⟩
            · refine ⟨done, h.claims, h.admitted, h.settled_congr rfl rfl, h.started, fun hstopped => ?_,
                fun beat' hbeat' hidle => ?_, fun beat' hbeat' a ha => ?_⟩
              · cases hstopped
              · obtain rfl := Option.some.inj hbeat'
                cases hidle
              · obtain rfl := Option.some.inj hbeat'
                obtain rfl := Option.some.inj ha
                simp only [if_neg hfireTimes]
                refine ⟨hloop.now, ?_, fun other hother => ?_, fun current hcurrent' => ?_⟩
                · rw [hloop.specs, hcurrent, hspecs]
                  simp
                · exact hloop.untouched other (hspecs ▸ List.mem_cons_of_mem _ hother)
                · obtain rfl := Option.some.inj hcurrent'
                  refine ⟨hfree, hbounded, ⟨due', hdue, hfireTimes, rfl⟩, by simp, ?_⟩
                  rw [show (s'.withBeat _).ledger.firesOf spec.jobId = s.ledger.firesOf spec.jobId from hfires]
                  exact (claimsFrom_dueFireTimes hdue).1

theorem mem_drop_append {α : Type} {l new : List α} {a : α} {n : ℕ} (h : a ∈ l.drop n) :
    a ∈ (l ++ new).drop n := by
  rw [List.drop_append]
  exact List.mem_append_left _ h

/-- What is done stays done when a job after it claims or starts. -/
theorem ClaimedAndStarted.mono {spec : JobSpec} {newClaims : List Claim} {newAdmitted : List (String × DateTime)}
    (hclaims : s''.claims = s'.claims ++ newClaims) (hadmitted : s''.admitted = s'.admitted ++ newAdmitted)
    (h : s.ClaimedAndStarted s' spec nowUtc) : s.ClaimedAndStarted s'' spec nowUtc := by
  obtain ⟨hstarted, hclaimed⟩ := h
  rw [ClaimedAndStarted, hclaims, hadmitted]
  exact ⟨mem_drop_append hstarted, fun due hdue fireTimeUtc hmem =>
    mem_drop_append (hclaimed due hdue fireTimeUtc hmem)⟩

theorem LoopOk.jobId_ne {beat : Beat} {admission : Admission} {current : Claiming}
    (h : LoopOk s catalogue reaped nowUtc done s' beat admission) (hcurrent : admission.current = some current) :
    ∀ spec ∈ admission.specs, spec.jobId ≠ current.spec.jobId := by
  intro spec hspec
  have hascending := catalogue.ascending
  rw [h.specs, hcurrent] at hascending
  have hlater := (List.pairwise_append.mp hascending).2.2 current.spec
    (List.mem_append_right _ (List.mem_singleton_self _)) spec hspec
  exact hlater.ne'

/-- The loop tries a fire time of the job it is claiming for, and wins it. -/
theorem Ticking.claim (h : Ticking s catalogue reaped nowUtc done s') :
    Ticking s catalogue reaped nowUtc done s'.claim := by
  rcases s'.claim_cases with heq | ⟨beat, admission, current, fireTimeUtc, due, htries⟩
  · rwa [heq]
  have hloop := h.loop beat htries.beat_eq admission htries.admission_eq
  have hcurrent := hloop.current current htries.current_eq
  have hclaimsFrom := hcurrent.fresh
  rw [htries.due_eq, List.map_cons] at hclaimsFrom
  obtain ⟨hnext, hrest⟩ := hclaimsFrom
  have hfresh : (current.spec.jobId, fireTimeUtc) ∉ s'.ledger.keys := fun hmem =>
    lt_irrefl _ (hnext.later fireTimeUtc (JobRunTable.mem_firesOf.mpr hmem))
  obtain ⟨hkeys, hclaims, hbeat⟩ := htries.won hfresh
  have hadmitted : s'.claim.admitted = s'.admitted ++ [] := by rw [htries.admitted_eq, List.append_nil]
  have hfiresOf : ∀ jobId, s'.claim.ledger.firesOf jobId = s'.ledger.firesOf jobId ++
      if current.spec.jobId = jobId then [fireTimeUtc] else [] := by
    intro jobId
    rw [JobRunTable.firesOf, hkeys, List.filter_append, List.map_append, JobRunTable.firesOf]
    by_cases hjob : current.spec.jobId = jobId <;> simp [hjob]
  refine ⟨?_, ?_, fun spec hspec hfree => ?_, ?_, fun hstopped => ?_, fun beat' hbeat' hidle => ?_,
    fun beat' hbeat' a ha => ?_⟩
  · rw [hclaims]
    exact h.claims.trans (List.prefix_append _ _)
  · rw [htries.admitted_eq]
    exact h.admitted
  · obtain ⟨hbounded, hstarted⟩ := h.settled spec hspec hfree
    exact ⟨hbounded, fun hmissed => (hstarted hmissed).mono hclaims hadmitted⟩
  · rw [htries.admitted_eq]
    exact h.started
  · rw [hbeat] at hstopped
    cases hstopped
  · rw [hbeat] at hbeat'
    obtain rfl := Option.some.inj hbeat'
    cases hidle
  · rw [hbeat] at hbeat'
    obtain rfl := Option.some.inj hbeat'
    obtain rfl := Option.some.inj ha
    refine ⟨hloop.now, ?_, fun spec hspec => ?_, fun next hnext' => ?_⟩
    · rw [hloop.specs, htries.current_eq]
      rfl
    · rw [hfiresOf, if_neg (hloop.jobId_ne htries.current_eq spec hspec).symm, List.append_nil]
      exact hloop.untouched spec hspec
    · obtain rfl := Option.some.inj hnext'
      obtain ⟨owed, howed, hne, hsplit⟩ := hcurrent.due
      refine ⟨hcurrent.free, hcurrent.bounded, ⟨owed, howed, hne, ?_⟩, fun fire hfire => ?_, ?_⟩
      · rw [hsplit, htries.due_eq, List.map_append, List.append_assoc]
        rfl
      · rw [hclaims]
        rcases List.mem_append.mp hfire with hold | hnew
        · exact mem_drop_append (hcurrent.won fire hold)
        · obtain rfl := List.mem_singleton.mp hnew
          rw [List.drop_append_of_le_length h.claims.length_le, hloop.now]
          exact List.mem_append_right _ (List.mem_singleton_self _)
      · rw [hfiresOf, if_pos rfl]
        exact hrest

/-- Every fire time of the job has been tried: its task is started. -/
theorem Ticking.start (h : Ticking s catalogue reaped nowUtc done s') :
    ∃ done', Ticking s catalogue reaped nowUtc done' s'.start := by
  rcases s'.start_cases with heq | ⟨beat, admission, current, hstarts⟩
  · exact ⟨done, by rwa [heq]⟩
  have hloop := h.loop beat hstarts.beat_eq admission hstarts.admission_eq
  have hcurrent := hloop.current current hstarts.current_eq
  obtain ⟨owed, howed, hne, hsplit⟩ := hcurrent.due
  rw [hstarts.due_eq, List.append_nil] at hsplit
  have hfires : current.fires ≠ [] := by
    intro hnil
    rw [hsplit, hnil] at hne
    exact hne rfl
  obtain ⟨hadmitted, report, hbeat⟩ := hstarts.started hfires
  have hclaims : s'.start.claims = s'.claims ++ [] := by rw [hstarts.claims_eq, List.append_nil]
  have hentry : (current.spec.jobId, nowUtc) ∈ s'.start.admitted.drop s.admitted.length := by
    rw [hadmitted, List.drop_append_of_le_length h.admitted.length_le, hloop.now]
    exact List.mem_append_right _ (List.mem_singleton_self _)
  refine ⟨done ++ [current.spec], ?_, ?_, fun spec hspec hfree => ?_, fun entry hmem => ?_, fun hstopped => ?_,
    fun beat' hbeat' hidle => ?_, fun beat' hbeat' a ha => ?_⟩
  · rw [hstarts.claims_eq]
    exact h.claims
  · rw [hadmitted]
    exact h.admitted.trans (List.prefix_append _ _)
  · rcases List.mem_append.mp hspec with hdone | hnew
    · obtain ⟨hbounded, hstarted⟩ := h.settled spec hdone hfree
      exact ⟨hbounded, fun hmissed => (hstarted hmissed).mono hclaims hadmitted⟩
    · obtain rfl := List.mem_singleton.mp hnew
      refine ⟨hcurrent.bounded, fun _ => ⟨hentry, fun due hdue fireTimeUtc hmem => ?_⟩⟩
      obtain rfl := Except.ok.inj (howed.symm.trans hdue)
      rw [hsplit] at hmem
      obtain ⟨fire, hfire, rfl⟩ := List.mem_map.mp hmem
      rw [hstarts.claims_eq]
      exact hcurrent.won fire hfire
  · rw [hadmitted, List.drop_append_of_le_length h.admitted.length_le] at hmem
    rcases List.mem_append.mp hmem with hold | hnew
    · obtain ⟨spec, hspec, hjob⟩ := h.started entry hold
      exact ⟨spec, List.mem_append_left _ hspec, hjob⟩
    · obtain rfl := List.mem_singleton.mp hnew
      exact ⟨current.spec, List.mem_append_right _ (List.mem_singleton_self _), rfl⟩
  · rw [hbeat] at hstopped
    cases hstopped
  · rw [hbeat] at hbeat'
    obtain rfl := Option.some.inj hbeat'
    cases hidle
  · rw [hbeat] at hbeat'
    obtain rfl := Option.some.inj hbeat'
    obtain rfl := Option.some.inj ha
    refine ⟨hloop.now, ?_, fun spec hspec => ?_, fun _ hmem => by cases hmem⟩
    · rw [hloop.specs, hstarts.current_eq]
      simp
    · obtain ⟨hfiresOf, hflight⟩ := hloop.untouched spec hspec
      have hne' := hloop.jobId_ne hstarts.current_eq spec hspec
      refine ⟨(JobRunTable.firesOf_congr hstarts.keys_eq _).trans hfiresOf, ?_⟩
      have hentries : (fun entry : String × ℕ => decide (entry.1 ≠ current.spec.jobId) &&
          decide (entry.1 = spec.jobId)) = fun entry => decide (entry.1 = spec.jobId) := by
        funext entry
        by_cases hjob : entry.1 = spec.jobId <;> simp [hjob, hne']
      rw [← hflight, Beat.isInFlight, Beat.isInFlight, List.any_append, List.any_filter, hentries]
      simp [hne'.symm]

theorem Ticking.step (h : Ticking s catalogue reaped nowUtc done s') {action : SchedulerAction}
    (haction : action.withinTick = true) :
    ∃ done', Ticking s catalogue reaped nowUtc done' (s'.step catalogue action) := by
  cases action with
  | boot => cases haction
  | tick nowUtc => cases haction
  | crash => cases haction
  | admitNext => exact h.admitNext
  | claim => exact ⟨done, h.claim⟩
  | start => exact h.start
  | execute index =>
    rcases s'.execute_cases index with heq | ⟨_, _, _, hmoves⟩
    · exact ⟨done, by rwa [SchedulerState.step, heq]⟩
    · exact ⟨done, h.moved hmoves⟩
  | finish index failureReason =>
    rcases s'.finish_cases index failureReason with heq | ⟨_, _, _, hmoves⟩
    · exact ⟨done, by rwa [SchedulerState.step, heq]⟩
    · exact ⟨done, h.moved hmoves⟩
  | raiseUnexpected index =>
    rcases s'.raiseUnexpected_cases index with heq | ⟨_, _, _, hmoves⟩
    · exact ⟨done, by rwa [SchedulerState.step, heq]⟩
    · exact ⟨done, h.moved hmoves⟩

theorem Ticking.run : ∀ {actions : List SchedulerAction} {done : List JobSpec} {s' : SchedulerState},
    Ticking s catalogue reaped nowUtc done s' → (∀ action ∈ actions, action.withinTick = true) →
    ∃ done', Ticking s catalogue reaped nowUtc done' (s'.run catalogue actions)
  | [], done, _, h, _ => ⟨done, h⟩
  | _ :: _, _, _, h, hactions => by
    obtain ⟨haction, hrest⟩ := List.forall_mem_cons.mp hactions
    obtain ⟨done', hstep⟩ := h.step haction
    exact hstep.run hrest

/-- A tick that is over has started a job that was due exactly when no job before it was past its bound. -/
theorem Ticking.started_iff (h : Ticking s catalogue reaped nowUtc done s') (hover : s'.TickOver)
    {spec : JobSpec} (hspec : spec ∈ catalogue.specs) (hmissed : s.missedFireCount spec nowUtc ≠ 0)
    (hfree : reaped.isInFlight spec.jobId = false) (hbounded : ¬s.PastItsBound spec nowUtc) :
    s.ClaimedAndStarted s' spec nowUtc ↔ ∀ earlier ∈ catalogue.specs, earlier.jobId < spec.jobId →
      reaped.isInFlight earlier.jobId = false → ¬s.PastItsBound earlier nowUtc := by
  have hdone : s.ClaimedAndStarted s' spec nowUtc ↔ spec ∈ done := by
    constructor
    · rintro ⟨hstarted, -⟩
      obtain ⟨other, hother, hjob⟩ := h.started _ hstarted
      have hmem : other ∈ catalogue.specs := by
        cases hbeat : s'.beat with
        | none =>
          obtain ⟨offender, later, hspecs, -⟩ := h.stopped hbeat
          exact hspecs ▸ List.mem_append_left _ hother
        | some beat => exact h.ended beat hbeat (hover beat hbeat) ▸ hother
      exact catalogue.eq_of_jobId_eq hmem hspec hjob ▸ hother
    · exact fun hmem => (h.settled spec hmem hfree).2 hmissed
  rw [hdone]
  cases hbeat : s'.beat with
  | some beat =>
    have hall := h.ended beat hbeat (hover beat hbeat)
    exact iff_of_true (hall ▸ hspec) fun earlier hearlier _ hearlierFree =>
      (h.settled earlier (hall ▸ hearlier) hearlierFree).1
  | none =>
    obtain ⟨offender, later, hspecs, hoffenderFree, hpast⟩ := h.stopped hbeat
    have hascending := catalogue.ascending
    rw [hspecs] at hascending hspec
    obtain ⟨-, hfrom, hacross⟩ := List.pairwise_append.mp hascending
    constructor
    · intro hmem earlier hearlier hbefore hearlierFree
      rw [hspecs] at hearlier
      rcases List.mem_append.mp hearlier with hdone' | hlater
      · exact (h.settled earlier hdone' hearlierFree).1
      · exact absurd (hacross spec hmem earlier hlater) hbefore.not_gt
    · intro hnone
      rcases List.mem_append.mp hspec with hmem | hlater
      · exact hmem
      · rcases List.mem_cons.mp hlater with rfl | hlater
        · exact absurd hpast hbounded
        · have hbefore := (List.pairwise_cons.mp hfrom).1 spec hlater
          refine absurd hpast (hnone offender ?_ hbefore hoffenderFree)
          rw [hspecs]
          exact List.mem_append_right _ List.mem_cons_self

/-! ### A tick ends -/

/-- The loop is about to turn to the next of these jobs. -/
def LoopAt (s : SchedulerState) (specs : List JobSpec) : Prop :=
  ∃ beat admission, s.beat = some beat ∧ beat.admission = some admission ∧ admission.current = none ∧
    admission.specs = specs

/-- The loop has these fire times of a job to try, and then these jobs. -/
def ClaimingAt (s : SchedulerState) (due : List DateTime) (specs : List JobSpec) : Prop :=
  ∃ beat admission current, s.beat = some beat ∧ beat.admission = some admission ∧
    admission.current = some current ∧ current.due = due ∧ admission.specs = specs

theorem ClaimingAt.claim {fireTimeUtc : DateTime} {due : List DateTime} {specs : List JobSpec}
    (h : s.ClaimingAt (fireTimeUtc :: due) specs) : s.claim.ClaimingAt due specs := by
  obtain ⟨beat, admission, current, hbeat, hadmission, hcurrent, hdue, hspecs⟩ := h
  simp only [SchedulerState.claim, hbeat, hadmission, hcurrent, hdue]
  split
  · exact ⟨_, _, _, rfl, rfl, rfl, rfl, hspecs⟩
  · exact ⟨_, _, _, rfl, rfl, rfl, rfl, hspecs⟩

theorem ClaimingAt.start {specs : List JobSpec} (h : s.ClaimingAt [] specs) : s.start.LoopAt specs := by
  obtain ⟨beat, admission, current, hbeat, hadmission, hcurrent, hdue, hspecs⟩ := h
  simp only [SchedulerState.start, hbeat, hadmission, hcurrent, hdue, ne_eq, not_true_eq_false, if_false]
  split
  · exact ⟨_, _, rfl, rfl, rfl, hspecs⟩
  · exact ⟨_, _, rfl, rfl, rfl, hspecs⟩

theorem LoopAt.admitNext_nil (h : s.LoopAt []) : s.admitNext.TickOver := by
  obtain ⟨beat, admission, hbeat, hadmission, hcurrent, hspecs⟩ := h
  simp only [SchedulerState.admitNext, hbeat, hadmission, hcurrent, hspecs]
  intro beat' hbeat'
  obtain rfl := Option.some.inj hbeat'
  rfl

theorem LoopAt.admitNext_cons {spec : JobSpec} {specs : List JobSpec} (h : s.LoopAt (spec :: specs)) :
    s.admitNext.TickOver ∨ s.admitNext.LoopAt specs ∨ ∃ due, s.admitNext.ClaimingAt due specs := by
  obtain ⟨beat, admission, hbeat, hadmission, hcurrent, hspecs⟩ := h
  simp only [SchedulerState.admitNext, hbeat, hadmission, hcurrent, hspecs]
  split
  · exact .inr (.inl ⟨_, _, rfl, rfl, rfl, rfl⟩)
  · split
    · exact .inl fun _ hbeat' => by cases hbeat'
    · next due _ =>
      by_cases hnothing : due.fireTimes = []
      · exact .inr (.inl ⟨_, _, rfl, rfl, if_pos hnothing, rfl⟩)
      · exact .inr (.inr ⟨due.fireTimes, _, _, _, rfl, rfl, if_neg hnothing, rfl, rfl⟩)

theorem ClaimingAt.runs (catalogue : JobCatalogue) {specs : List JobSpec} : ∀ {due : List DateTime} {s : SchedulerState},
    s.ClaimingAt due specs → ∃ actions : List SchedulerAction,
      (∀ action ∈ actions, action.withinTick = true) ∧ (s.run catalogue actions).LoopAt specs
  | [], _, h => ⟨[.start], by simp [SchedulerAction.withinTick], h.start⟩
  | _ :: _, _, h => by
    obtain ⟨actions, hactions, hloop⟩ := h.claim.runs catalogue
    exact ⟨.claim :: actions, List.forall_mem_cons.mpr ⟨rfl, hactions⟩, hloop⟩

theorem LoopAt.runs (catalogue : JobCatalogue) : ∀ {specs : List JobSpec} {s : SchedulerState}, s.LoopAt specs →
    ∃ actions : List SchedulerAction, (∀ action ∈ actions, action.withinTick = true) ∧
      (s.run catalogue actions).TickOver
  | [], _, h => ⟨[.admitNext], by simp [SchedulerAction.withinTick], h.admitNext_nil⟩
  | _ :: _, s, h => by
    rcases h.admitNext_cons with hover | hloop | ⟨due, hclaiming⟩
    · exact ⟨[.admitNext], by simp [SchedulerAction.withinTick], hover⟩
    · obtain ⟨actions, hactions, hover⟩ := hloop.runs catalogue
      exact ⟨.admitNext :: actions, List.forall_mem_cons.mpr ⟨rfl, hactions⟩, hover⟩
    · obtain ⟨claims, hclaims, hloop⟩ := hclaiming.runs catalogue
      obtain ⟨actions, hactions, hover⟩ := hloop.runs catalogue
      refine ⟨.admitNext :: (claims ++ actions), List.forall_mem_cons.mpr ⟨rfl, ?_⟩, ?_⟩
      · exact List.forall_mem_append.mpr ⟨hclaims, hactions⟩
      · rw [SchedulerState.run, List.foldl_cons, List.foldl_append]
        exact hover

/-- Wherever a tick stands, steps of its own end it. -/
theorem exists_tickOver (catalogue : JobCatalogue) (s : SchedulerState) : ∃ actions : List SchedulerAction,
    (∀ action ∈ actions, action.withinTick = true) ∧ (s.run catalogue actions).TickOver := by
  by_cases hover : s.TickOver
  · exact ⟨[], by simp, hover⟩
  · simp only [TickOver, not_forall] at hover
    obtain ⟨beat, hbeat, hbusy⟩ := hover
    obtain ⟨admission, hadmission⟩ := Option.ne_none_iff_exists'.mp hbusy
    cases hcurrent : admission.current with
    | none => exact LoopAt.runs catalogue ⟨beat, admission, hbeat, hadmission, hcurrent, rfl⟩
    | some current =>
      have hclaiming : s.ClaimingAt current.due admission.specs :=
        ⟨beat, admission, current, hbeat, hadmission, hcurrent, rfl, rfl⟩
      obtain ⟨claims, hclaims, hloop⟩ := hclaiming.runs catalogue
      obtain ⟨actions, hactions, hdone⟩ := hloop.runs catalogue
      refine ⟨claims ++ actions, List.forall_mem_append.mpr ⟨hclaims, hactions⟩, ?_⟩
      rw [SchedulerState.run, List.foldl_append]
      exact hdone

end SchedulerState

/-! ### One job and the others -/

/-- However the jobs beside it run, a tick comes to its end, and by then a job that was due, free and within its
    bound is claimed and started exactly when no free job before it in the catalogue is past its bound. -/
theorem tick_starts_until_a_backlog (catalogue : JobCatalogue) (s : SchedulerState) (nowUtc : DateTime)
    (reaped : Beat) (actions : List SchedulerAction) (spec : JobSpec)
    (hreaped : s.beat.bind Beat.reap = some reaped)
    (hactions : ∀ action ∈ actions, action.withinTick = true) (hspec : spec ∈ catalogue.specs)
    (hmissed : s.missedFireCount spec nowUtc ≠ 0) (hfree : reaped.isInFlight spec.jobId = false)
    (hbounded : ¬s.PastItsBound spec nowUtc) :
    (∃ more : List SchedulerAction, (∀ action ∈ more, action.withinTick = true) ∧
      ((s.openTick catalogue nowUtc).run catalogue (actions ++ more)).TickOver) ∧
    (((s.openTick catalogue nowUtc).run catalogue actions).TickOver →
      (s.ClaimedAndStarted ((s.openTick catalogue nowUtc).run catalogue actions) spec nowUtc ↔
        ∀ earlier ∈ catalogue.specs, earlier.jobId < spec.jobId →
          reaped.isInFlight earlier.jobId = false → ¬s.PastItsBound earlier nowUtc)) := by
  constructor
  · obtain ⟨more, hmore, hover⟩ := SchedulerState.exists_tickOver catalogue
      ((s.openTick catalogue nowUtc).run catalogue actions)
    refine ⟨more, hmore, ?_⟩
    rw [SchedulerState.run, List.foldl_append]
    exact hover
  · intro hover
    obtain ⟨done, hticking⟩ := (SchedulerState.ticking_openTick catalogue nowUtc hreaped).run hactions
    exact hticking.started_iff hover hspec hmissed hfree hbounded

/-- An hourly job that runs once, at the instant it finds. -/
def reconcileFields : JobSpecFields := ⟨"risk.reconcile", sampleJob.schedule, .runNow, 1⟩

theorem reconcileFields_checked : reconcileFields.postInit = .ok () := by with_unfolding_all decide

def reconcileJob : JobSpec := ⟨reconcileFields, reconcileFields_checked⟩

theorem reconcile_after_ingest : [sampleJob, reconcileJob].Pairwise fun a b => a.jobId < b.jobId := by
  with_unfolding_all decide

def twoJobs : JobCatalogue := ⟨[sampleJob, reconcileJob], reconcile_after_ingest⟩

/-- A process with nothing in flight, over a ledger in which the first job ran at the epoch. -/
def idleState : SchedulerState := (SchedulerState.init sampleJobRuns).boot

instance (s : SchedulerState) (spec : JobSpec) (nowUtc : DateTime) : Decidable (s.PastItsBound spec nowUtc) :=
  inferInstanceAs (Decidable (_ ∧ _))

/-- A tick over two hours of the first job. -/
def quietTick : List SchedulerAction :=
  [.admitNext, .claim, .claim, .start, .admitNext, .claim, .start, .admitNext]

theorem quietTick_over :
    (((idleState.openTick twoJobs (TimeDelta.ofMinutes 120)).run twoJobs quietTick).beat.bind
      Beat.admission) = none := by
  with_unfolding_all decide

theorem tick_starts_until_a_backlog_quiet : idleState.ClaimedAndStarted
    ((idleState.openTick twoJobs (TimeDelta.ofMinutes 120)).run twoJobs quietTick) reconcileJob
      (TimeDelta.ofMinutes 120) := by
  have hover : ((idleState.openTick twoJobs (TimeDelta.ofMinutes 120)).run twoJobs quietTick).TickOver :=
    fun beat hbeat => by
      have hnone := quietTick_over
      rw [hbeat] at hnone
      exact hnone
  have hwithin : ∀ spec ∈ [sampleJob, reconcileJob],
      ¬idleState.PastItsBound spec (TimeDelta.ofMinutes 120) := by decide +kernel
  exact ((tick_starts_until_a_backlog twoJobs idleState (TimeDelta.ofMinutes 120) ⟨[], [], none⟩ quietTick
    reconcileJob rfl (by decide) (by decide +kernel) (by decide +kernel) rfl
      (hwithin reconcileJob (by decide +kernel))).2 hover).mpr fun earlier hearlier _ _ => hwithin earlier hearlier

/-- Two days of the first job are past its bound: the process stops, and the second is neither claimed nor
    started, though it was due. -/
theorem a_backlog_silences_the_next_job : ¬∀ (catalogue : JobCatalogue) (s : SchedulerState)
    (nowUtc : DateTime) (reaped : Beat) (actions : List SchedulerAction) (spec : JobSpec),
    s.beat.bind Beat.reap = some reaped → (∀ action ∈ actions, action.withinTick = true) →
    spec ∈ catalogue.specs → s.missedFireCount spec nowUtc ≠ 0 → reaped.isInFlight spec.jobId = false →
    ¬s.PastItsBound spec nowUtc → ((s.openTick catalogue nowUtc).run catalogue actions).TickOver →
    s.ClaimedAndStarted ((s.openTick catalogue nowUtc).run catalogue actions) spec nowUtc := by
  intro hclaim
  have hstopped : ((idleState.openTick twoJobs (TimeDelta.ofMinutes 2880)).run twoJobs [.admitNext]).beat =
      none := by decide +kernel
  have hnothing : ((idleState.openTick twoJobs (TimeDelta.ofMinutes 2880)).run twoJobs [.admitNext]).admitted =
      [] := by decide +kernel
  obtain ⟨hstarted, -⟩ := hclaim twoJobs idleState (TimeDelta.ofMinutes 2880) ⟨[], [], none⟩ [.admitNext]
    reconcileJob rfl (by decide) (by decide +kernel) (by decide +kernel) rfl (by decide +kernel)
      fun beat hbeat => by rw [hstopped] at hbeat; cases hbeat
  rw [hnothing] at hstarted
  simp at hstarted

end FinanceKing.Platform
