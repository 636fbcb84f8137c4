import FinanceKing.Lib.Fold
import FinanceKing.Platform.SchedulerBeat

/-! Runs of the scheduler: every window is claimed once and in order, executed at most once, and a job has
    at most one task in flight, over any ticks, overlaps, failures, crashes and restarts. -/

namespace FinanceKing.Platform

open Lib

/-! ### The ledger -/

namespace JobRunTable

variable {self : JobRunTable}

theorem firesOf_congr {other : JobRunTable} (h : other.keys = self.keys) (jobId : String) :
    other.firesOf jobId = self.firesOf jobId := by
  rw [firesOf, firesOf, h]

theorem mem_firesOf {jobId : String} {fireTimeUtc : DateTime} :
    fireTimeUtc ∈ self.firesOf jobId ↔ (jobId, fireTimeUtc) ∈ self.keys := by
  simp [firesOf]

theorem keys_finish (jobId : String) (fireTimeUtc : DateTime) (outcome : JobOutcome)
    (failureReason : Option String) :
    (self.finish jobId fireTimeUtc outcome failureReason).keys = self.keys := by
  rw [finish]
  split
  · next row hrow =>
    split
    · have hmem : (jobId, fireTimeUtc) ∈ self.keys := by
        rw [Dict.mem_keys_iff, hrow]
        rfl
      rw [Dict.keys_set, if_pos hmem]
    · rfl
  · rfl

theorem keys_abandonUnfinished : self.abandonUnfinished.keys = self.keys := by
  simp [abandonUnfinished, Dict.keys, List.map_map, Function.comp_def]

/-- A fire time without a row is claimed, at the end. -/
theorem claim_of_not_mem {jobId : String} {fireTimeUtc : DateTime} (isCatchUp : Bool)
    (h : (jobId, fireTimeUtc) ∉ self.keys) :
    (self.claim jobId fireTimeUtc isCatchUp).2 = true ∧
      (self.claim jobId fireTimeUtc isCatchUp).1.keys = self.keys ++ [(jobId, fireTimeUtc)] := by
  have hnone : self.get? (jobId, fireTimeUtc) = none := by
    cases hrow : self.get? (jobId, fireTimeUtc) with
    | none => rfl
    | some row => exact absurd ((Dict.mem_keys_iff _ _).mpr (by rw [hrow]; rfl)) h
  rw [claim, hnone]
  exact ⟨rfl, by rw [Dict.keys_set, if_neg h]⟩

end JobRunTable

/-! ### What the steps of a task change -/

/-- One task has moved on: it keeps its job, never comes back from being done, and what it executes it
    had left; the rest of the process and the claims are as they were. -/
structure MovesTask (s s' : SchedulerState) (beat : Beat) (index : ℕ) (task task' : JobTask) :
    Prop where
  beat_eq : s.beat = some beat
  task_eq : beat.tasks[index]? = some task
  beat_eq' : s'.beat = some { beat with tasks := beat.tasks.set index task' }
  keys_eq : s'.ledger.keys = s.ledger.keys
  claims_eq : s'.claims = s.claims
  admitted_eq : s'.admitted = s.admitted
  jobId_eq : task'.jobId = task.jobId
  done_of_done : task.done → task'.done
  executions_perm : (s'.executions ++ task'.remaining.map JobFire.key).Perm
    (s.executions ++ task.remaining.map JobFire.key)

/-- A tick has moved on to its next job: what it may now be claiming was found due from the ledger. -/
structure Admits (s s' : SchedulerState) (beat : Beat) (admission : Admission)
    (next : Option Admission) : Prop where
  beat_eq : s.beat = some beat
  admission_eq : beat.admission = some admission
  current_eq : admission.current = none
  beat_eq' : s'.beat = some { beat with admission := next }
  keys_eq : s'.ledger.keys = s.ledger.keys
  claims_eq : s'.claims = s.claims
  admitted_eq : s'.admitted = s.admitted
  executions_eq : s'.executions = s.executions
  now_eq : ∀ a ∈ next, a.nowUtc = admission.nowUtc
  specs : ∀ a ∈ next, a.specs ⊆ admission.specs
  current : ∀ a ∈ next, ∀ c ∈ a.current, c.spec ∈ admission.specs ∧
    beat.isInFlight c.spec.jobId = false ∧ c.fires = [] ∧ c.due ≠ [] ∧
      ∃ due, dueFireTimes c.spec.schedule c.spec.misfirePolicy (s.ledger.lastFireUtc c.spec.jobId)
        admission.nowUtc c.spec.maxCatchUpRuns = .ok due ∧ c.due = due.fireTimes

/-- A fire time of the current job has been tried, and won if it had no row. -/
structure Tries (s s' : SchedulerState) (beat : Beat) (admission : Admission) (current : Claiming)
    (fireTimeUtc : DateTime) (due : List DateTime) : Prop where
  beat_eq : s.beat = some beat
  admission_eq : beat.admission = some admission
  current_eq : admission.current = some current
  due_eq : current.due = fireTimeUtc :: due
  admitted_eq : s'.admitted = s.admitted
  executions_eq : s'.executions = s.executions
  won : (current.spec.jobId, fireTimeUtc) ∉ s.ledger.keys →
    s'.ledger.keys = s.ledger.keys ++ [(current.spec.jobId, fireTimeUtc)] ∧
    s'.claims = s.claims ++ [⟨current.spec.jobId, fireTimeUtc, admission.nowUtc⟩] ∧
    s'.beat = some { beat with admission := some { admission with current := some { current with
      due := due
      fires := current.fires ++ [⟨current.spec.jobId, fireTimeUtc, current.isCatchUp⟩] } } }

/-- The current job is through: its task is created over what it won. -/
structure Starts (s s' : SchedulerState) (beat : Beat) (admission : Admission) (current : Claiming) :
    Prop where
  beat_eq : s.beat = some beat
  admission_eq : beat.admission = some admission
  current_eq : admission.current = some current
  due_eq : current.due = []
  keys_eq : s'.ledger.keys = s.ledger.keys
  claims_eq : s'.claims = s.claims
  executions_eq : s'.executions = s.executions
  started : current.fires ≠ [] →
    s'.admitted = s.admitted ++ [(current.spec.jobId, admission.nowUtc)] ∧
    ∃ report, s'.beat = some
      { tasks := beat.tasks ++ [⟨current.spec.jobId, current.fires, none, false⟩]
        inFlight := beat.inFlight.filter (fun entry => entry.1 ≠ current.spec.jobId) ++
          [(current.spec.jobId, beat.tasks.length)]
        admission := some { admission with current := none, report := report } }
  idle : current.fires = [] → s'.admitted = s.admitted ∧ ∃ report, s'.beat = some
    { beat with admission := some { admission with current := none, report := report } }

namespace SchedulerState

variable (s : SchedulerState)

theorem admitNext_cases : s.admitNext = s ∨ s.admitNext = { s with beat := none } ∨
    ∃ beat admission next, Admits s s.admitNext beat admission next := by
  rw [SchedulerState.admitNext]
  split
  · exact .inl rfl
  · next beat hbeat =>
    split
    · exact .inl rfl
    · next admission hadmission =>
      split
      · exact .inl rfl
      · next hcurrent hspecs =>
        exact .inr (.inr ⟨beat, admission, none, hbeat, hadmission, hcurrent, rfl, rfl, rfl, rfl, rfl,
          nofun, nofun, nofun⟩)
      · next spec specs hcurrent hspecs =>
        have hmem : spec ∈ admission.specs := by simp [hspecs]
        have hsubset : specs ⊆ admission.specs := by simp [hspecs]
        split
        · refine .inr (.inr ⟨beat, admission, some _, hbeat, hadmission, hcurrent, rfl, rfl, rfl, rfl,
            rfl, fun a ha => ?_, fun a ha => ?_, fun a ha c hc => ?_⟩)
          all_goals obtain rfl := Option.some.inj ha
          · rfl
          · exact hsubset
          · rw [hcurrent] at hc
            cases hc
        · next hinFlight =>
          split
          · exact .inr (.inl rfl)
          · next due hdue =>
            refine .inr (.inr ⟨beat, admission, some _, hbeat, hadmission, hcurrent, rfl, rfl, rfl,
              rfl, rfl, fun a ha => ?_, fun a ha => ?_, fun a ha c hc => ?_⟩)
            all_goals obtain rfl := Option.some.inj ha
            · rfl
            · exact hsubset
            · simp only [Option.mem_def] at hc
              split at hc
              · cases hc
              · next hne =>
                obtain rfl := Option.some.inj hc
                exact ⟨hmem, by simpa using hinFlight, rfl, hne, due, hdue, rfl⟩

theorem claim_cases : s.claim = s ∨ ∃ beat admission current fireTimeUtc due,
    Tries s s.claim beat admission current fireTimeUtc due := by
  rw [SchedulerState.claim]
  split
  · exact .inl rfl
  · next beat hbeat =>
    split
    · exact .inl rfl
    · next admission hadmission =>
      split
      · exact .inl rfl
      · next current hcurrent =>
        split
        · exact .inl rfl
        · next fireTimeUtc due hdue =>
          refine .inr ⟨beat, admission, current, fireTimeUtc, due, hbeat, hadmission, hcurrent, hdue,
            ?_, ?_, fun hfresh => ?_⟩
          · simp only
            split <;> rfl
          · simp only
            split <;> rfl
          · obtain ⟨hwon, hkeys⟩ := JobRunTable.claim_of_not_mem current.isCatchUp hfresh
            simpa only [hwon, if_true, and_true] using hkeys

theorem start_cases : s.start = s ∨
    ∃ beat admission current, Starts s s.start beat admission current := by
  rw [SchedulerState.start]
  split
  · exact .inl rfl
  · next beat hbeat =>
    split
    · exact .inl rfl
    · next admission hadmission =>
      split
      · exact .inl rfl
      · next current hcurrent =>
        split
        · exact .inl rfl
        · next hdue =>
          have hdue' : current.due = [] := not_not.mp hdue
          split
          · next hfires =>
            exact .inr ⟨beat, admission, current, hbeat, hadmission, hcurrent, hdue', rfl, rfl, rfl,
              fun hne => absurd hfires hne, fun _ => ⟨rfl, _, rfl⟩⟩
          · next hfires =>
            exact .inr ⟨beat, admission, current, hbeat, hadmission, hcurrent, hdue', rfl, rfl, rfl,
              fun _ => ⟨rfl, _, rfl⟩, fun hnil => absurd hnil hfires⟩

theorem execute_cases (index : ℕ) : s.execute index = s ∨
    ∃ beat task task', MovesTask s (s.execute index) beat index task task' := by
  rw [SchedulerState.execute]
  split
  · exact .inl rfl
  · next beat hbeat =>
    split
    · exact .inl rfl
    · next task htask =>
      split
      · next fire remaining hraised hrunning hremaining =>
        refine .inr ⟨beat, task, { task with remaining := remaining, running := some fire }, hbeat,
          htask, rfl, rfl, rfl, rfl, rfl, fun hdone => ?_, ?_⟩
        · simp [JobTask.done, hraised, hremaining] at hdone
        · rw [hremaining, List.map_cons, List.append_assoc]
          rfl
      · exact .inl rfl

theorem finish_cases (index : ℕ) (failureReason : Option String) :
    s.finish index failureReason = s ∨
      ∃ beat task task', MovesTask s (s.finish index failureReason) beat index task task' := by
  rw [SchedulerState.finish]
  split
  · exact .inl rfl
  · next beat hbeat =>
    split
    · exact .inl rfl
    · next task htask =>
      split
      · exact .inl rfl
      · next fire hrunning =>
        refine .inr ⟨beat, task, { task with running := none }, hbeat, htask, rfl,
          JobRunTable.keys_finish _ _ _ _, rfl, rfl, rfl, fun hdone => ?_, .refl _⟩
        simp only [JobTask.done, hrunning, Option.isNone_some, Bool.and_false, Bool.or_false] at hdone
        simp [JobTask.done, hdone]

theorem raiseUnexpected_cases (index : ℕ) : s.raiseUnexpected index = s ∨
    ∃ beat task task', MovesTask s (s.raiseUnexpected index) beat index task task' := by
  rw [SchedulerState.raiseUnexpected]
  split
  · exact .inl rfl
  · next beat hbeat =>
    split
    · exact .inl rfl
    · next task htask =>
      split
      · exact .inl rfl
      · exact .inr ⟨beat, task, { task with running := none, raised := true }, hbeat, htask, rfl, rfl,
          rfl, rfl, rfl, fun _ => rfl, .refl _⟩

/-! ### What was claimed -/

def claimsOf (jobId : String) : List Claim := s.claims.filter (fun c => c.jobId = jobId)

/-- A tick under way: what it has still to claim may be claimed one after another, and with what it has
    claimed reaches its own interval. -/
structure AdmissionOk (catalogue : JobCatalogue) (admission : Admission) : Prop where
  specs : admission.specs ⊆ catalogue.specs
  spec : ∀ current ∈ admission.current, current.spec ∈ catalogue.specs
  due : ∀ current ∈ admission.current,
    ClaimsFrom current.spec (s.ledger.firesOf current.spec.jobId)
      (current.due.map fun fireTimeUtc => ⟨current.spec.jobId, fireTimeUtc, admission.nowUtc⟩)
  reaches : ∀ current ∈ admission.current, ∃ fireTimeUtc,
    (fireTimeUtc ∈ current.due ∨ ⟨current.spec.jobId, fireTimeUtc, admission.nowUtc⟩ ∈ s.claims) ∧
      current.spec.schedule.indexAtOrBefore fireTimeUtc =
        current.spec.schedule.indexAtOrBefore admission.nowUtc

/-- The claims so far over what the ledger held at first. -/
structure HistoryOk (catalogue : JobCatalogue) (initial : JobRunTable) : Prop where
  keys_eq : s.ledger.keys = initial.keys ++ s.claims.map Claim.key
  history : ∀ spec ∈ catalogue.specs,
    ClaimsFrom spec (initial.firesOf spec.jobId) (s.claimsOf spec.jobId)
  admitted : ∀ entry ∈ s.admitted, ∃ c ∈ s.claims, c.jobId = entry.1 ∧ c.tickUtc = entry.2 ∧
    ∀ spec ∈ catalogue.specs, spec.jobId = entry.1 →
      spec.schedule.indexAtOrBefore c.fireTimeUtc = spec.schedule.indexAtOrBefore c.tickUtc
  admission : ∀ beat ∈ s.beat, ∀ admission ∈ beat.admission, s.AdmissionOk catalogue admission

variable {s} {s' : SchedulerState} {catalogue : JobCatalogue} {initial : JobRunTable}

theorem HistoryOk.firesOf_eq (h : s.HistoryOk catalogue initial) (jobId : String) :
    s.ledger.firesOf jobId =
      initial.firesOf jobId ++ (s.claimsOf jobId).map Claim.fireTimeUtc := by
  rw [JobRunTable.firesOf, JobRunTable.firesOf, claimsOf, h.keys_eq, List.filter_append,
    List.map_append, List.filter_map, List.map_map]
  rfl

theorem AdmissionOk.congr {admission : Admission} (hkeys : s'.ledger.keys = s.ledger.keys)
    (hclaims : s'.claims = s.claims) (h : s.AdmissionOk catalogue admission) :
    s'.AdmissionOk catalogue admission where
  specs := h.specs
  spec := h.spec
  due current hcurrent := by
    rw [JobRunTable.firesOf_congr hkeys]
    exact h.due current hcurrent
  reaches := by
    rw [hclaims]
    exact h.reaches

/-- A step that claims nothing keeps the history, whatever process it leaves, if its tick is in order. -/
theorem HistoryOk.congr (h : s.HistoryOk catalogue initial)
    (hkeys : s'.ledger.keys = s.ledger.keys) (hclaims : s'.claims = s.claims)
    (hadmitted : s'.admitted = s.admitted)
    (hadmission : ∀ beat ∈ s'.beat, ∀ admission ∈ beat.admission, s.AdmissionOk catalogue admission) :
    s'.HistoryOk catalogue initial where
  keys_eq := by rw [hkeys, hclaims, h.keys_eq]
  history spec hspec := by
    rw [claimsOf, hclaims]
    exact h.history spec hspec
  admitted := by
    rw [hadmitted, hclaims]
    exact h.admitted
  admission beat hbeat admission hmem := (hadmission beat hbeat admission hmem).congr hkeys hclaims

theorem historyOk_init (catalogue : JobCatalogue) (initial : JobRunTable) :
    (init initial).HistoryOk catalogue initial where
  keys_eq := by simp [init]
  history _ _ := trivial
  admitted _ h := by cases h
  admission _ h := by cases h

theorem HistoryOk.moved (h : s.HistoryOk catalogue initial) {beat : Beat} {index : ℕ}
    {task task' : JobTask} (hmoves : MovesTask s s' beat index task task') :
    s'.HistoryOk catalogue initial := by
  refine h.congr hmoves.keys_eq hmoves.claims_eq hmoves.admitted_eq fun beat' hbeat' => ?_
  rw [hmoves.beat_eq', Option.mem_some_iff] at hbeat'
  subst hbeat'
  exact h.admission beat hmoves.beat_eq

theorem HistoryOk.boot (h : s.HistoryOk catalogue initial) : s.boot.HistoryOk catalogue initial := by
  rw [SchedulerState.boot]
  split
  · exact h
  · refine h.congr JobRunTable.keys_abandonUnfinished rfl rfl fun beat hbeat admission hmem => ?_
    obtain rfl := Option.some.inj hbeat
    cases hmem

theorem HistoryOk.tick (h : s.HistoryOk catalogue initial) (nowUtc : DateTime) :
    (s.tick catalogue nowUtc).HistoryOk catalogue initial := by
  rw [SchedulerState.tick]
  split
  · exact h
  · split
    · refine h.congr rfl rfl rfl fun beat hbeat admission hmem => ?_
      obtain ⟨reaped, _, rfl⟩ := Option.map_eq_some_iff.mp hbeat
      obtain rfl := Option.some.inj hmem
      exact ⟨List.Subset.refl _, nofun, nofun, nofun⟩
    · exact h

theorem HistoryOk.admitNext (h : s.HistoryOk catalogue initial) :
    s.admitNext.HistoryOk catalogue initial := by
  rcases s.admitNext_cases with heq | heq | ⟨beat, admission, next, hadmits⟩
  · rwa [heq]
  · rw [heq]
    exact h.congr rfl rfl rfl nofun
  · have hok := h.admission beat hadmits.beat_eq admission hadmits.admission_eq
    refine h.congr hadmits.keys_eq hadmits.claims_eq hadmits.admitted_eq fun beat' hbeat' a ha => ?_
    rw [hadmits.beat_eq'] at hbeat'
    obtain rfl := Option.some.inj hbeat'
    refine ⟨List.Subset.trans (hadmits.specs a ha) hok.specs, fun c hc => ?_, fun c hc => ?_, fun c hc => ?_⟩
    · exact hok.specs (hadmits.current a ha c hc).1
    · obtain ⟨_, _, _, _, due, hdue, heq⟩ := hadmits.current a ha c hc
      rw [heq, hadmits.now_eq a ha]
      exact (claimsFrom_dueFireTimes hdue).1
    · obtain ⟨_, _, _, hne, due, hdue, heq⟩ := hadmits.current a ha c hc
      rw [heq] at hne ⊢
      rw [hadmits.now_eq a ha]
      obtain ⟨fireTimeUtc, hmem, hindex⟩ := (claimsFrom_dueFireTimes hdue).2 hne
      exact ⟨fireTimeUtc, .inl hmem, hindex⟩

/-- What a job is about to claim has no row yet. -/
theorem HistoryOk.fresh (h : s.HistoryOk catalogue initial) {beat : Beat} {admission : Admission}
    {current : Claiming} {fireTimeUtc : DateTime} {due : List DateTime}
    (htries : Tries s s' beat admission current fireTimeUtc due) :
    (current.spec.jobId, fireTimeUtc) ∉ s.ledger.keys := by
  have hdue := (h.admission beat htries.beat_eq admission htries.admission_eq).due current
    htries.current_eq
  rw [htries.due_eq] at hdue
  intro hmem
  exact lt_irrefl _ (hdue.1.later fireTimeUtc (JobRunTable.mem_firesOf.mpr hmem))

theorem HistoryOk.claim (h : s.HistoryOk catalogue initial) :
    s.claim.HistoryOk catalogue initial := by
  rcases s.claim_cases with heq | ⟨beat, admission, current, fireTimeUtc, due, htries⟩
  · rwa [heq]
  obtain ⟨hkeys, hclaims, hbeat⟩ := htries.won (h.fresh htries)
  have hok := h.admission beat htries.beat_eq admission htries.admission_eq
  have hspec := hok.spec current htries.current_eq
  have hdue := hok.due current htries.current_eq
  rw [htries.due_eq, List.map_cons] at hdue
  have hclaimsOf : ∀ jobId, s.claim.claimsOf jobId = s.claimsOf jobId ++
      if current.spec.jobId = jobId then
        [⟨current.spec.jobId, fireTimeUtc, admission.nowUtc⟩] else [] := by
    intro jobId
    rw [claimsOf, hclaims, List.filter_append, claimsOf]
    by_cases hjob : current.spec.jobId = jobId <;> simp [hjob]
  refine ⟨?_, fun spec hmem => ?_, fun entry hentry => ?_, fun beat' hbeat' a ha => ?_⟩
  · rw [hkeys, hclaims, h.keys_eq, List.map_append, List.append_assoc]
    rfl
  · rw [hclaimsOf]
    split
    · next hjob =>
      obtain rfl := catalogue.eq_of_jobId_eq hspec hmem hjob
      rw [claimsFrom_concat, ← h.firesOf_eq]
      exact ⟨h.history _ hmem, hdue.1⟩
    · rw [List.append_nil]
      exact h.history spec hmem
  · rw [htries.admitted_eq] at hentry
    rw [hclaims]
    obtain ⟨c, hc, hrest⟩ := h.admitted entry hentry
    exact ⟨c, List.mem_append_left _ hc, hrest⟩
  · rw [hbeat] at hbeat'
    obtain rfl := Option.some.inj hbeat'
    obtain rfl := Option.some.inj ha
    refine ⟨hok.specs, fun c hc => ?_, fun c hc => ?_, fun c hc => ?_⟩
    all_goals obtain rfl := Option.some.inj hc
    · exact hspec
    · have hfires : s.claim.ledger.firesOf current.spec.jobId =
          s.ledger.firesOf current.spec.jobId ++ [fireTimeUtc] := by
        rw [JobRunTable.firesOf, hkeys, List.filter_append, List.map_append]
        simp [JobRunTable.firesOf]
      rw [hfires]
      exact hdue.2
    · obtain ⟨reached, hreached, hindex⟩ := hok.reaches current htries.current_eq
      refine ⟨reached, ?_, hindex⟩
      rw [hclaims]
      rw [htries.due_eq] at hreached
      rcases hreached with hmem | hmem
      · rcases List.mem_cons.mp hmem with rfl | hmem
        · exact .inr (List.mem_append_right _ (List.mem_singleton_self _))
        · exact .inl hmem
      · exact .inr (List.mem_append_left _ hmem)

theorem HistoryOk.start (h : s.HistoryOk catalogue initial) :
    s.start.HistoryOk catalogue initial := by
  rcases s.start_cases with heq | ⟨beat, admission, current, hstarts⟩
  · rwa [heq]
  have hok := h.admission beat hstarts.beat_eq admission hstarts.admission_eq
  have hnone : ∀ report, s.AdmissionOk catalogue
      { admission with current := none, report := report } := fun report =>
    ⟨hok.specs, nofun, nofun, nofun⟩
  by_cases hfires : current.fires = []
  · obtain ⟨hadmitted, report, hbeat⟩ := hstarts.idle hfires
    refine h.congr hstarts.keys_eq hstarts.claims_eq hadmitted fun beat' hbeat' a ha => ?_
    rw [hbeat] at hbeat'
    obtain rfl := Option.some.inj hbeat'
    obtain rfl := Option.some.inj ha
    exact hnone report
  · obtain ⟨hadmitted, report, hbeat⟩ := hstarts.started hfires
    refine ⟨by rw [hstarts.keys_eq, hstarts.claims_eq, h.keys_eq], fun spec hspec => ?_,
      fun entry hentry => ?_, fun beat' hbeat' a ha => ?_⟩
    · rw [claimsOf, hstarts.claims_eq]
      exact h.history spec hspec
    · rw [hstarts.claims_eq]
      rw [hadmitted] at hentry
      rcases List.mem_append.mp hentry with hold | hnew
      · exact h.admitted entry hold
      · obtain rfl := List.mem_singleton.mp hnew
        obtain ⟨reached, hreached, hindex⟩ := hok.reaches current hstarts.current_eq
        have hclaimed := hreached.resolve_left (by simp [hstarts.due_eq])
        refine ⟨_, hclaimed, rfl, rfl, fun spec hspec hjob => ?_⟩
        rwa [catalogue.eq_of_jobId_eq hspec (hok.spec current hstarts.current_eq) hjob]
    · rw [hbeat] at hbeat'
      obtain rfl := Option.some.inj hbeat'
      obtain rfl := Option.some.inj ha
      exact (hnone report).congr hstarts.keys_eq hstarts.claims_eq

theorem HistoryOk.step (s : SchedulerState) (action : SchedulerAction)
    (h : s.HistoryOk catalogue initial) : (s.step catalogue action).HistoryOk catalogue initial := by
  cases action with
  | boot => exact h.boot
  | tick nowUtc => exact h.tick nowUtc
  | admitNext => exact h.admitNext
  | claim => exact h.claim
  | start => exact h.start
  | execute index =>
    rcases s.execute_cases index with heq | ⟨_, _, _, hmoves⟩
    · rwa [SchedulerState.step, heq]
    · exact h.moved hmoves
  | finish index failureReason =>
    rcases s.finish_cases index failureReason with heq | ⟨_, _, _, hmoves⟩
    · rwa [SchedulerState.step, heq]
    · exact h.moved hmoves
  | raiseUnexpected index =>
    rcases s.raiseUnexpected_cases index with heq | ⟨_, _, _, hmoves⟩
    · rwa [SchedulerState.step, heq]
    · exact h.moved hmoves
  | crash => exact h.congr rfl rfl rfl nofun

end SchedulerState

/-! ### What is executed -/

/-- The fire times the process has claimed and not begun: its tasks' and those of the tick under way. -/
def Beat.outstanding (beat : Beat) : List (String × DateTime) :=
  beat.tasks.flatMap (fun task => task.remaining.map JobFire.key) ++
    (beat.admission.bind Admission.current).elim [] fun current => current.fires.map JobFire.key

namespace SchedulerState

def outstanding (s : SchedulerState) : List (String × DateTime) := s.beat.elim [] Beat.outstanding

/-- Nothing is begun twice, and nothing that was not claimed. -/
structure ExecutionsOk (s : SchedulerState) : Prop where
  nodup : (s.executions ++ s.outstanding).Nodup
  claimed : ∀ key ∈ s.executions ++ s.outstanding, key ∈ s.claims.map Claim.key

variable {s s' : SchedulerState} {catalogue : JobCatalogue} {initial : JobRunTable}

theorem ExecutionsOk.perm (h : s.ExecutionsOk) (hclaims : s'.claims = s.claims)
    (hperm : (s'.executions ++ s'.outstanding).Perm (s.executions ++ s.outstanding)) :
    s'.ExecutionsOk where
  nodup := hperm.nodup_iff.mpr h.nodup
  claimed key hkey := by
    rw [hclaims]
    exact h.claimed key (hperm.mem_iff.mp hkey)

/-- A process that goes leaves what it had not begun for ever. -/
theorem ExecutionsOk.stopped (h : s.ExecutionsOk) (hclaims : s'.claims = s.claims)
    (hexecutions : s'.executions = s.executions) (hbeat : s'.beat = none) : s'.ExecutionsOk where
  nodup := by
    rw [hexecutions, outstanding, hbeat, Option.elim_none, List.append_nil]
    exact h.nodup.of_append_left
  claimed key hkey := by
    rw [hexecutions, outstanding, hbeat, Option.elim_none, List.append_nil] at hkey
    rw [hclaims]
    exact h.claimed key (List.mem_append_left _ hkey)

theorem ExecutionsOk.moved (h : s.ExecutionsOk) {beat : Beat} {index : ℕ} {task task' : JobTask}
    (hmoves : MovesTask s s' beat index task task') : s'.ExecutionsOk := by
  refine h.perm hmoves.claims_eq ?_
  obtain ⟨hindex, htask⟩ := List.getElem?_eq_some_iff.mp hmoves.task_eq
  have hold : (beat.tasks.flatMap fun task => task.remaining.map JobFire.key).Perm
      (task.remaining.map JobFire.key ++
        (beat.tasks.eraseIdx index).flatMap fun task => task.remaining.map JobFire.key) := by
    have hperm := List.getElem_cons_eraseIdx_perm hindex
    rw [htask] at hperm
    exact (hperm.symm.flatMap_right _)
  have hnew : ((beat.tasks.set index task').flatMap fun task => task.remaining.map JobFire.key).Perm
      (task'.remaining.map JobFire.key ++
        (beat.tasks.eraseIdx index).flatMap fun task => task.remaining.map JobFire.key) :=
    (List.set_perm_cons_eraseIdx hindex task').flatMap_right _
  rw [outstanding, outstanding, hmoves.beat_eq, hmoves.beat_eq', Option.elim_some, Option.elim_some,
    Beat.outstanding, Beat.outstanding, ← List.append_assoc, ← List.append_assoc]
  refine List.Perm.append_right _ ?_
  refine (hnew.append_left _).trans (List.Perm.trans ?_ (hold.symm.append_left _))
  rw [← List.append_assoc, ← List.append_assoc]
  exact hmoves.executions_perm.append_right _

theorem ExecutionsOk.step (h : s.ExecutionsOk) (hhistory : s.HistoryOk catalogue initial)
    (action : SchedulerAction) : (s.step catalogue action).ExecutionsOk := by
  cases action with
  | boot =>
    rw [SchedulerState.step, SchedulerState.boot]
    split
    · exact h
    · next hbeat =>
      refine h.perm rfl ?_
      rw [outstanding, outstanding, hbeat]
      rfl
  | tick nowUtc =>
    rw [SchedulerState.step, SchedulerState.tick]
    split
    · exact h
    · next beat hbeat =>
      split
      · next hidle =>
        cases hreap : beat.reap with
        | none => exact h.stopped rfl rfl rfl
        | some reaped =>
          refine h.perm rfl ?_
          have htasks : reaped.tasks = beat.tasks := by
            rw [Beat.reap] at hreap
            split at hreap
            · cases hreap
            · rw [← Option.some.inj hreap]
          have hnone : beat.admission = none := by simpa using hidle.1
          rw [outstanding, outstanding, hbeat]
          simp [Beat.outstanding, htasks, hnone]
      · exact h
  | admitNext =>
    rcases s.admitNext_cases with heq | heq | ⟨beat, admission, next, hadmits⟩
    · rwa [SchedulerState.step, heq]
    · rw [SchedulerState.step, heq]
      exact h.stopped rfl rfl rfl
    · refine h.perm hadmits.claims_eq ?_
      have hnext : (next.bind Admission.current).elim [] (fun c => c.fires.map JobFire.key) = [] := by
        cases hcurrent : next.bind Admission.current with
        | none => rfl
        | some c =>
          obtain ⟨a, ha, hc⟩ := Option.bind_eq_some_iff.mp hcurrent
          rw [Option.elim_some, (hadmits.current a ha c hc).2.2.1]
          rfl
      rw [SchedulerState.step, hadmits.executions_eq, outstanding, outstanding, hadmits.beat_eq,
        hadmits.beat_eq', Option.elim_some, Option.elim_some, Beat.outstanding, Beat.outstanding, hnext,
        hadmits.admission_eq, Option.bind_some, hadmits.current_eq]
      rfl
  | claim =>
    rcases s.claim_cases with heq | ⟨beat, admission, current, fireTimeUtc, due, htries⟩
    · rwa [SchedulerState.step, heq]
    have hfresh := hhistory.fresh htries
    obtain ⟨_, hclaims, hbeat⟩ := htries.won hfresh
    have houtstanding : s.claim.executions ++ s.claim.outstanding =
        (s.executions ++ s.outstanding) ++ [(current.spec.jobId, fireTimeUtc)] := by
      rw [htries.executions_eq, outstanding, outstanding, htries.beat_eq, hbeat]
      simp [Beat.outstanding, htries.admission_eq, htries.current_eq, JobFire.key]
    have hnotin : (current.spec.jobId, fireTimeUtc) ∉ s.claims.map Claim.key := fun hmem =>
      hfresh (hhistory.keys_eq ▸ List.mem_append_right _ hmem)
    constructor
    · rw [SchedulerState.step, houtstanding]
      refine h.nodup.append (List.nodup_singleton _) ?_
      rw [List.disjoint_singleton]
      exact fun hmem => hnotin (h.claimed _ hmem)
    · intro key hkey
      rw [SchedulerState.step, houtstanding] at hkey
      rw [SchedulerState.step, hclaims, List.map_append]
      rcases List.mem_append.mp hkey with hold | hnew
      · exact List.mem_append_left _ (h.claimed key hold)
      · rw [List.mem_singleton.mp hnew]
        exact List.mem_append_right _ (List.mem_singleton_self _)
  | start =>
    rcases s.start_cases with heq | ⟨beat, admission, current, hstarts⟩
    · rwa [SchedulerState.step, heq]
    refine h.perm hstarts.claims_eq ?_
    have hbefore : s.outstanding = beat.tasks.flatMap (fun task => task.remaining.map JobFire.key) ++
        current.fires.map JobFire.key := by
      rw [outstanding, hstarts.beat_eq, Option.elim_some, Beat.outstanding, hstarts.admission_eq,
        Option.bind_some, hstarts.current_eq, Option.elim_some]
    rw [SchedulerState.step, hstarts.executions_eq, hbefore]
    by_cases hfires : current.fires = []
    · obtain ⟨_, report, hbeat⟩ := hstarts.idle hfires
      rw [outstanding, hbeat]
      simp [Beat.outstanding, hfires]
    · obtain ⟨_, report, hbeat⟩ := hstarts.started hfires
      rw [outstanding, hbeat]
      simp [Beat.outstanding]
  | execute index =>
    rcases s.execute_cases index with heq | ⟨_, _, _, hmoves⟩
    · rwa [SchedulerState.step, heq]
    · exact h.moved hmoves
  | finish index failureReason =>
    rcases s.finish_cases index failureReason with heq | ⟨_, _, _, hmoves⟩
    · rwa [SchedulerState.step, heq]
    · exact h.moved hmoves
  | raiseUnexpected index =>
    rcases s.raiseUnexpected_cases index with heq | ⟨_, _, _, hmoves⟩
    · rwa [SchedulerState.step, heq]
    · exact h.moved hmoves
  | crash => exact h.stopped rfl rfl rfl

end SchedulerState

/-! ### One task in flight -/

/-- Every task that has not ended is the one in flight for its job, and the job being claimed has none. -/
structure Beat.TasksOk (beat : Beat) : Prop where
  named : ∀ (index : ℕ) (task : JobTask), beat.tasks[index]? = some task → task.done = false →
    (task.jobId, index) ∈ beat.inFlight
  distinct : beat.inFlight.Pairwise fun a b => a.1 ≠ b.1
  free : ∀ admission ∈ beat.admission, ∀ current ∈ admission.current,
    beat.isInFlight current.spec.jobId = false

theorem Beat.TasksOk.eq_of_jobId_eq {beat : Beat} (h : beat.TasksOk) {i j : ℕ} {a b : JobTask}
    (ha : beat.tasks[i]? = some a) (hb : beat.tasks[j]? = some b) (hadone : a.done = false)
    (hbdone : b.done = false) (hjob : a.jobId = b.jobId) : i = j := by
  have hnodup : (beat.inFlight.map Prod.fst).Nodup := List.pairwise_map.mpr h.distinct
  have heq := List.inj_on_of_nodup_map hnodup (h.named i a ha hadone) (h.named j b hb hbdone) hjob
  exact (Prod.mk.inj heq).2

/-- The same tasks under another tick. -/
theorem Beat.TasksOk.withAdmission {beat : Beat} (h : beat.TasksOk) {admission : Option Admission}
    (hfree : ∀ a ∈ admission, ∀ current ∈ a.current, beat.isInFlight current.spec.jobId = false) :
    ({ beat with admission := admission } : Beat).TasksOk where
  named := h.named
  distinct := h.distinct
  free := hfree

/-- Reaping retires ended tasks only. -/
theorem Beat.TasksOk.reap {beat reaped : Beat} (h : beat.TasksOk) (hreap : beat.reap = some reaped) :
    ({ reaped with admission := none } : Beat).TasksOk := by
  rw [Beat.reap] at hreap
  split at hreap
  · cases hreap
  · obtain rfl := Option.some.inj hreap
    refine ⟨fun i task htask hdone => ?_, h.distinct.filter _, nofun⟩
    refine List.mem_filter.mpr ⟨h.named i task htask hdone, ?_⟩
    have htask' : beat.tasks[i]? = some task := htask
    simp [Beat.taskDone, htask', hdone]

namespace SchedulerState

def TasksOk (s : SchedulerState) : Prop := ∀ beat ∈ s.beat, beat.TasksOk

variable {s s' : SchedulerState} {catalogue : JobCatalogue} {initial : JobRunTable}

theorem TasksOk.moved (h : s.TasksOk) {beat : Beat} {index : ℕ} {task task' : JobTask}
    (hmoves : MovesTask s s' beat index task task') : s'.TasksOk := by
  intro beat' hbeat'
  rw [hmoves.beat_eq'] at hbeat'
  obtain rfl := Option.some.inj hbeat'
  have hok := h beat hmoves.beat_eq
  refine ⟨fun i other hother hdone => ?_, hok.distinct, hok.free⟩
  by_cases hi : index = i
  · subst hi
    obtain ⟨hindex, _⟩ := List.getElem?_eq_some_iff.mp hmoves.task_eq
    obtain rfl : task' = other := by simpa [hindex] using hother
    rw [hmoves.jobId_eq]
    refine hok.named index task hmoves.task_eq ?_
    cases hbefore : task.done with
    | false => rfl
    | true => rw [hmoves.done_of_done hbefore] at hdone; cases hdone
  · exact hok.named i other (by simpa [hi] using hother) hdone

theorem TasksOk.step (h : s.TasksOk) (action : SchedulerAction) :
    (s.step catalogue action).TasksOk := by
  cases action with
  | boot =>
    rw [SchedulerState.step, SchedulerState.boot]
    split
    · exact h
    · intro beat hbeat
      obtain rfl := Option.some.inj hbeat
      exact ⟨nofun, List.Pairwise.nil, nofun⟩
  | tick nowUtc =>
    rw [SchedulerState.step, SchedulerState.tick]
    split
    · exact h
    · next beat hbeat =>
      split
      · intro beat' hbeat'
        obtain ⟨reaped, hreap, rfl⟩ := Option.map_eq_some_iff.mp hbeat'
        have hok := Beat.TasksOk.reap (h beat hbeat) hreap
        refine hok.withAdmission fun a ha => ?_
        obtain rfl := Option.some.inj ha
        exact nofun
      · exact h
  | admitNext =>
    rcases s.admitNext_cases with heq | heq | ⟨beat, admission, next, hadmits⟩
    · rwa [SchedulerState.step, heq]
    · rw [SchedulerState.step, heq]
      exact nofun
    · intro beat' hbeat'
      rw [SchedulerState.step, hadmits.beat_eq'] at hbeat'
      obtain rfl := Option.some.inj hbeat'
      exact (h beat hadmits.beat_eq).withAdmission fun a ha c hc => (hadmits.current a ha c hc).2.1
  | claim =>
    rw [SchedulerState.step, SchedulerState.claim]
    split
    · exact h
    · next beat hbeat =>
      have hok := h beat hbeat
      split
      · exact h
      · next admission hadmission =>
        split
        · exact h
        · next current hcurrent =>
          have hfree := hok.free admission hadmission current hcurrent
          split
          · exact h
          · simp only
            split <;>
            · intro beat' hbeat'
              obtain rfl := Option.some.inj hbeat'
              refine hok.withAdmission fun a ha c hc => ?_
              obtain rfl := Option.some.inj ha
              obtain rfl := Option.some.inj hc
              exact hfree
  | start =>
    rcases s.start_cases with heq | ⟨beat, admission, current, hstarts⟩
    · rwa [SchedulerState.step, heq]
    have hok := h beat hstarts.beat_eq
    have hfree := hok.free admission hstarts.admission_eq current hstarts.current_eq
    intro beat' hbeat'
    rw [SchedulerState.step] at hbeat'
    by_cases hfires : current.fires = []
    · obtain ⟨_, report, hbeat⟩ := hstarts.idle hfires
      rw [hbeat] at hbeat'
      obtain rfl := Option.some.inj hbeat'
      refine hok.withAdmission fun a ha => ?_
      obtain rfl := Option.some.inj ha
      exact nofun
    · obtain ⟨_, report, hbeat⟩ := hstarts.started hfires
      rw [hbeat] at hbeat'
      obtain rfl := Option.some.inj hbeat'
      have hother : ∀ entry ∈ beat.inFlight, entry.1 ≠ current.spec.jobId := by
        simpa [Beat.isInFlight] using hfree
      have hkept : beat.inFlight.filter (fun entry => entry.1 ≠ current.spec.jobId) =
          beat.inFlight := List.filter_eq_self.mpr (by simpa using hother)
      refine ⟨fun i task htask hdone => ?_, ?_, fun a ha => ?_⟩
      · rw [hkept]
        rcases Nat.lt_or_ge i beat.tasks.length with hold | hnew
        · rw [List.getElem?_append_left hold] at htask
          exact List.mem_append_left _ (hok.named i task htask hdone)
        · rw [List.getElem?_append_right hnew, List.getElem?_singleton] at htask
          split at htask
          · next hi =>
            obtain rfl := Option.some.inj htask
            have heq : i = beat.tasks.length := by omega
            simp [heq]
          · cases htask
      · rw [hkept]
        refine pairwise_concat hok.distinct fun entry hentry => ?_
        exact hother entry hentry
      · obtain rfl := Option.some.inj ha
        exact nofun
  | execute index =>
    rcases s.execute_cases index with heq | ⟨_, _, _, hmoves⟩
    · rwa [SchedulerState.step, heq]
    · exact h.moved hmoves
  | finish index failureReason =>
    rcases s.finish_cases index failureReason with heq | ⟨_, _, _, hmoves⟩
    · rwa [SchedulerState.step, heq]
    · exact h.moved hmoves
  | raiseUnexpected index =>
    rcases s.raiseUnexpected_cases index with heq | ⟨_, _, _, hmoves⟩
    · rwa [SchedulerState.step, heq]
    · exact h.moved hmoves
  | crash => exact nofun

end SchedulerState

/-! ### Every window once -/

/-- What every reachable state shows of the claims, the executions and the tasks. -/
structure WindowsOnce (catalogue : JobCatalogue) (initial : JobRunTable) (s : SchedulerState) :
    Prop where
  claimed_once : (initial.keys ++ s.claims.map Claim.key).Nodup
  executed_once : s.executions.Nodup
  executed_claimed : s.executions ⊆ s.claims.map Claim.key
  one_in_flight : ∀ beat ∈ s.beat, ∀ (i j : ℕ) (a b : JobTask), beat.tasks[i]? = some a →
    beat.tasks[j]? = some b → a.done = false → b.done = false → a.jobId = b.jobId → i = j
  /-- No two claims of a job, nor a claim and a row there was before, share an interval. -/
  interval_once : ∀ spec ∈ catalogue.specs,
    ((s.claimsOf spec.jobId).map fun c => spec.schedule.indexAtOrBefore c.fireTimeUtc).Pairwise
        (· < ·) ∧
      ∀ earlier ∈ initial.firesOf spec.jobId, ∀ c ∈ s.claimsOf spec.jobId,
        spec.schedule.indexAtOrBefore earlier < spec.schedule.indexAtOrBefore c.fireTimeUtc
  /-- Under `RUN_EVERY_MISSED` the claims are the fire times after the initial cursor through the last
      one claimed; where the tick that claimed it was carried through, through that tick. -/
  every_missed : ∀ spec ∈ catalogue.specs, spec.misfirePolicy = .runEveryMissed →
    ∀ claims last, s.claimsOf spec.jobId = claims ++ [last] →
      (claims ++ [last]).map Claim.fireTimeUtc = spec.schedule.fireTimesIn
        (initialCursor spec (initial.firesOf spec.jobId) (claims ++ [last])) last.fireTimeUtc ∧
      spec.schedule.indexAtOrBefore last.fireTimeUtc ≤ spec.schedule.indexAtOrBefore last.tickUtc ∧
      ((spec.jobId, last.tickUtc) ∈ s.admitted →
        (claims ++ [last]).map Claim.fireTimeUtc = spec.schedule.fireTimesIn
          (initialCursor spec (initial.firesOf spec.jobId) (claims ++ [last])) last.tickUtc)

namespace SchedulerState

variable {s : SchedulerState} {catalogue : JobCatalogue} {initial : JobRunTable}

/-- A tick carried through has claimed up to its own interval, so its last claim is in it. -/
theorem HistoryOk.index_eq_of_admitted (h : s.HistoryOk catalogue initial) {spec : JobSpec}
    (hspec : spec ∈ catalogue.specs) {claims : List Claim} {last : Claim}
    (hclaims : s.claimsOf spec.jobId = claims ++ [last])
    (hadmitted : (spec.jobId, last.tickUtc) ∈ s.admitted) :
    spec.schedule.indexAtOrBefore last.tickUtc = spec.schedule.indexAtOrBefore last.fireTimeUtc := by
  have hhistory := h.history spec hspec
  rw [hclaims] at hhistory
  have hreached := (claimsFrom_concat.mp hhistory).2.reached
  obtain ⟨c, hc, hjob, htick, hindex⟩ := h.admitted _ hadmitted
  have hmem : c ∈ claims ++ [last] := hclaims ▸ List.mem_filter.mpr ⟨hc, by simpa using hjob⟩
  have hc_index : spec.schedule.indexAtOrBefore c.fireTimeUtc =
      spec.schedule.indexAtOrBefore last.tickUtc := by
    rw [hindex spec hspec rfl, htick]
  have hle : spec.schedule.indexAtOrBefore c.fireTimeUtc ≤
      spec.schedule.indexAtOrBefore last.fireTimeUtc := by
    rcases List.mem_append.mp hmem with hold | hnew
    · have hascending := hhistory.ascending.1
      rw [List.map_append, List.pairwise_append] at hascending
      exact (hascending.2.2 _ (List.mem_map_of_mem hold) _ (by simp)).le
    · rw [List.mem_singleton.mp hnew]
  omega

theorem invariants_run (catalogue : JobCatalogue) (initial : JobRunTable)
    (actions : List SchedulerAction) :
    ((init initial).run catalogue actions).HistoryOk catalogue initial ∧
      ((init initial).run catalogue actions).ExecutionsOk ∧
      ((init initial).run catalogue actions).TasksOk := by
  have hstep : ∀ (s : SchedulerState) (action : SchedulerAction),
      (s.HistoryOk catalogue initial ∧ s.ExecutionsOk ∧ s.TasksOk) →
      (s.step catalogue action).HistoryOk catalogue initial ∧
        (s.step catalogue action).ExecutionsOk ∧ (s.step catalogue action).TasksOk := by
    rintro s action ⟨hhistory, hexecutions, htasks⟩
    exact ⟨hhistory.step s action, hexecutions.step hhistory action, htasks.step action⟩
  exact foldl_invariant_of_forall hstep
    ⟨historyOk_init catalogue initial, ⟨List.nodup_nil, nofun⟩, nofun⟩

end SchedulerState

/-- Over any catalogue, any ledger to begin with, and any run of ticks that do not go back, executions,
    failures, crashes and restarts, every window is consumed once. -/
theorem scheduler_consumes_windows_once (catalogue : JobCatalogue) (initial : JobRunTable)
    (actions : List SchedulerAction) :
    WindowsOnce catalogue initial ((SchedulerState.init initial).run catalogue actions) := by
  obtain ⟨hhistory, hexecutions, htasks⟩ :=
    SchedulerState.invariants_run catalogue initial actions
  refine ⟨?_, hexecutions.nodup.of_append_left, fun key hkey => ?_, fun beat hbeat => ?_,
    fun spec hspec => ?_, fun spec hspec hpolicy claims last hclaims => ?_⟩
  · rw [← hhistory.keys_eq]
    exact Dict.nodupKeys _
  · exact hexecutions.claimed key (List.mem_append_left _ hkey)
  · exact fun i j a b => (htasks beat hbeat).eq_of_jobId_eq
  · exact (hhistory.history spec hspec).ascending
  · have hfrom := hhistory.history spec hspec
    rw [hclaims] at hfrom
    refine ⟨hfrom.eq_fireTimesIn hpolicy rfl, (claimsFrom_concat.mp hfrom).2.reached,
      fun hadmitted => hfrom.eq_fireTimesIn hpolicy ?_⟩
    exact hhistory.index_eq_of_admitted hspec hclaims hadmitted

/-- An hourly job anchored at the epoch that replays up to a day. -/
def sampleJob : JobSpec where
  jobId := "data.ingest"
  schedule := ⟨⟨TimeDelta.ofMinutes 60, 0⟩, by decide +kernel⟩
  misfirePolicy := .runEveryMissed
  maxCatchUpRuns := 24
  checked := by decide +kernel

def sampleCatalogue : JobCatalogue := ⟨[sampleJob], List.pairwise_singleton _ _⟩

/-- The job ran at the epoch. -/
def sampleJobRuns : JobRunTable :=
  Dict.empty.set ("data.ingest", 0) ⟨false, some .succeeded, none⟩

/-- Three fire times are due, and the process stops after the first of their claims. -/
def sampleSplit : SchedulerState :=
  (SchedulerState.init sampleJobRuns).run sampleCatalogue
    [.boot, .tick (TimeDelta.ofMinutes 180), .admitNext, .claim, .crash]

/-- The tick that claimed last left two of the fire times up to it unclaimed, and the last tick carried
    through, there being none, claimed nothing. -/
theorem crash_splits_claims :
    sampleSplit.claimsOf "data.ingest" =
        [⟨"data.ingest", TimeDelta.ofMinutes 60, TimeDelta.ofMinutes 180⟩] ∧
      (sampleSplit.claimsOf "data.ingest").map Claim.fireTimeUtc ≠
        sampleJob.schedule.fireTimesIn 0 (TimeDelta.ofMinutes 180) ∧
      sampleSplit.admitted = [] := by
  decide +kernel

end FinanceKing.Platform
