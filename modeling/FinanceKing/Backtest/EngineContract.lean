import FinanceKing.Backtest.Engine

/-! What the event loop guarantees over any handler and any initial events. Everything is read off the
    log: which events are pending after a prefix of it, where the clock stands, what was queued,
    dropped and dispatched. One schedule and one dispatch keep the loop's state in step with its log
    (`Tracks`), so a handler's whole program does, and so does the drain. -/

namespace FinanceKing.Backtest

open Lib

/-! ### Reading a log -/

def queuedOf (log : List Occurrence) : List QueuedEvent :=
  log.filterMap (fun | .queued position => some position | _ => none)

def droppedOf (log : List Occurrence) : List Event :=
  log.filterMap (fun | .dropped event => some event | _ => none)

def dispatchedOf (log : List Occurrence) : List QueuedEvent :=
  log.filterMap (fun | .dispatched position => some position | _ => none)

/-- The events `schedule` was called with, in order. -/
def scheduledOf (log : List Occurrence) : List Event :=
  log.filterMap (fun
    | .queued position => some position.event
    | .dropped event => some event
    | .refused event => some event
    | .dispatched _ => none)

/-- What one occurrence does to the pending events. -/
def pendingStep (pending : List QueuedEvent) : Occurrence → List QueuedEvent
  | .queued position => pending ++ [position]
  | .dispatched position => pending.erase position
  | _ => pending

/-- The events queued and not yet dispatched. -/
def pendingOf (log : List Occurrence) : List QueuedEvent := log.foldl pendingStep []

def clockStep (nowUtc : DateTime) : Occurrence → DateTime
  | .dispatched position => position.occursAtUtc
  | _ => nowUtc

/-- Where the clock stands: at the last dispatched event, or at the window's start. -/
def clockOf (startUtc : DateTime) (log : List Occurrence) : DateTime := log.foldl clockStep startUtc

variable {H : Type} {digests : Digests} {config : RunConfig} {handler : EventHandler H}
  {log : List Occurrence} {state after : LoopState}

/-- What may happen next, given everything that happened before. -/
def Permitted (config : RunConfig) (before : List Occurrence) : Occurrence → Prop
  | .queued position => position = ⟨position.event.occursAtUtc, position.event.priority,
      (queuedOf before).length, position.event⟩ ∧
      clockOf config.startUtc before ≤ position.occursAtUtc ∧ position.occursAtUtc ≤ config.endUtc
  | .dropped event => config.endUtc < event.occursAtUtc
  | .refused event => event.occursAtUtc < clockOf config.startUtc before
  | .dispatched position => position ∈ pendingOf before ∧
      (∀ other ∈ pendingOf before, position.orderingKey ≤ other.orderingKey) ∧
      clockOf config.startUtc before ≤ position.occursAtUtc

/-- Everything in the log was permitted when it happened. -/
def Lawful (config : RunConfig) (log : List Occurrence) : Prop :=
  ∀ before occurrence rest, log = before ++ occurrence :: rest → Permitted config before occurrence

theorem lawful_nil : Lawful config [] := by
  intro before occurrence rest h
  simp at h

theorem lawful_concat {occurrence : Occurrence} (h : Lawful config log)
    (hlast : Permitted config log occurrence) : Lawful config (log ++ [occurrence]) := by
  intro before other rest hsplit
  rcases List.eq_nil_or_concat rest with rfl | ⟨rest, last, rfl⟩
  · obtain ⟨rfl, hother⟩ := List.append_inj' hsplit rfl
    rw [List.cons.injEq] at hother
    exact hother.1 ▸ hlast
  · rw [List.concat_eq_append, ← List.cons_append, ← List.append_assoc] at hsplit
    exact h before other rest (List.append_inj' hsplit rfl).1

theorem lawful_init {occurrence : Occurrence} (h : Lawful config (log ++ [occurrence])) :
    Lawful config log ∧ Permitted config log occurrence := by
  refine ⟨fun before other rest hsplit => h before other (rest ++ [occurrence]) ?_,
    h log occurrence [] rfl⟩
  rw [hsplit, List.append_assoc, List.cons_append]

/-! ### What a lawful log says -/

/-- Nothing is lost and nothing appears: dispatched and pending are what was queued. -/
theorem dispatched_append_pending (h : Lawful config log) :
    (dispatchedOf log ++ pendingOf log).Perm (queuedOf log) := by
  induction log using List.reverseRecOn with
  | nil => exact List.Perm.nil
  | append_singleton log occurrence ih =>
    obtain ⟨hlog, hlast⟩ := lawful_init h
    have hperm := ih hlog
    simp only [dispatchedOf, queuedOf, pendingOf, List.filterMap_append, List.foldl_append] at hperm ⊢
    cases occurrence with
    | queued position =>
      simpa [pendingStep, List.append_assoc] using hperm.append_right [position]
    | dropped event => simpa [pendingStep] using hperm
    | refused event => simpa [pendingStep] using hperm
    | dispatched position =>
      obtain ⟨hmem, _, _⟩ := hlast
      have herase := (List.perm_cons_erase hmem).symm
      simp only [List.filterMap_cons, List.filterMap_nil, List.append_assoc, List.foldl_cons,
        List.foldl_nil, pendingStep, List.append_nil, List.cons_append, List.nil_append]
      exact (herase.append_left _).trans hperm

/-- The queue numbers its events in the order it was given them. -/
theorem sequence_queuedOf (h : Lawful config log) :
    (queuedOf log).map (·.sequence) = List.range (queuedOf log).length := by
  induction log using List.reverseRecOn with
  | nil => rfl
  | append_singleton log occurrence ih =>
    obtain ⟨hlog, hlast⟩ := lawful_init h
    have hrange := ih hlog
    simp only [queuedOf, List.filterMap_append] at hrange ⊢
    cases occurrence with
    | queued position =>
      obtain ⟨hposition, _, _⟩ := hlast
      simp only [List.filterMap_cons, List.filterMap_nil, List.map_append, hrange, List.length_append,
        List.map_cons, List.map_nil, List.length_cons, List.length_nil, List.range_succ, zero_add]
      rw [hposition]
      rfl
    | dropped event => simpa using hrange
    | refused event => simpa using hrange
    | dispatched position => simpa using hrange

theorem nodup_queuedOf (h : Lawful config log) : (queuedOf log).Nodup := by
  refine List.Nodup.of_map (·.sequence) ?_
  rw [sequence_queuedOf h]
  exact List.nodup_range

/-- The clock never runs backwards. -/
theorem clockOf_le {before rest : List Occurrence} (h : Lawful config (before ++ rest)) :
    clockOf config.startUtc before ≤ clockOf config.startUtc (before ++ rest) := by
  induction rest using List.reverseRecOn with
  | nil => rw [List.append_nil]
  | append_singleton rest occurrence ih =>
    rw [← List.append_assoc] at h ⊢
    obtain ⟨hlog, hlast⟩ := lawful_init h
    refine (ih hlog).trans ?_
    simp only [clockOf, List.foldl_append, List.foldl_cons, List.foldl_nil] at hlast ⊢
    cases occurrence with
    | queued position => exact le_rfl
    | dropped event => exact le_rfl
    | refused event => exact le_rfl
    | dispatched position => simpa [clockStep, clockOf, List.foldl_append] using hlast.2.2

/-! ### The loop's state and its log -/

/-- The loop's state is what its log says it is, and nothing pending is behind the clock. -/
structure Tracks (digests : Digests) (config : RunConfig) (state : LoopState) : Prop where
  lawful : Lawful config state.log
  heap : state.queue.heap = pendingOf state.log
  nextSequence : state.queue.nextSequence = (queuedOf state.log).length
  clock : state.nowUtc = clockOf config.startUtc state.log
  dropped : state.eventsBeyondWindow = (droppedOf state.log).length
  entries : state.entries = (dispatchedOf state.log).map (traceEntry digests)
  ahead : ∀ queued ∈ state.queue.heap, state.nowUtc ≤ queued.occursAtUtc

theorem tracks_initial : Tracks digests config (LoopState.initial config) :=
  ⟨lawful_nil, rfl, rfl, rfl, rfl, rfl, fun _ h => absurd h List.not_mem_nil⟩

/-- One call of `schedule` keeps the state in step with the log. -/
theorem schedule_tracks (h : Tracks digests config state) (event : Event) :
    Tracks digests config (schedule config event state).2 := by
  rw [schedule]
  split
  · next hpast =>
    have hrefused : event.occursAtUtc < clockOf config.startUtc state.log := h.clock ▸ hpast
    refine ⟨lawful_concat h.lawful hrefused, ?_, ?_, ?_, ?_, ?_, h.ahead⟩
    · simpa [pendingOf, pendingStep] using h.heap
    · simpa [queuedOf] using h.nextSequence
    · simpa [clockOf, clockStep] using h.clock
    · simpa [droppedOf] using h.dropped
    · simpa [dispatchedOf] using h.entries
  · next hpast =>
    split
    · next hbeyond =>
      refine ⟨lawful_concat h.lawful hbeyond, ?_, ?_, ?_, ?_, ?_, h.ahead⟩
      · simpa [pendingOf, pendingStep] using h.heap
      · simpa [queuedOf] using h.nextSequence
      · simpa [clockOf, clockStep] using h.clock
      · simpa [droppedOf] using h.dropped
      · simpa [dispatchedOf] using h.entries
    · next hbeyond =>
      have hposition : Permitted config state.log (.queued (state.queue.position event)) := by
        refine ⟨?_, h.clock ▸ not_lt.mp hpast, not_lt.mp hbeyond⟩
        rw [EventQueue.position, h.nextSequence]
      refine ⟨lawful_concat h.lawful hposition, ?_, ?_, ?_, ?_, ?_, ?_⟩
      · simp [pendingOf, pendingStep, EventQueue.schedule, h.heap]
      · simp [queuedOf, EventQueue.schedule, h.nextSequence]
      · simpa [clockOf, clockStep] using h.clock
      · simpa [droppedOf] using h.dropped
      · simpa [dispatchedOf] using h.entries
      · intro queued hmem
        rcases List.mem_append.mp hmem with hold | hnew
        · exact h.ahead queued hold
        · rw [List.mem_singleton.mp hnew]
          exact not_lt.mp hpast

/-- What `schedule` adds to the log is one occurrence of the event it was called with. -/
theorem schedule_log (config : RunConfig) (event : Event) (state : LoopState) :
    ∃ occurrence, (schedule config event state).2.log = state.log ++ [occurrence] ∧
      scheduledOf [occurrence] = [event] ∧ dispatchedOf [occurrence] = [] := by
  rw [schedule]
  split
  · exact ⟨_, rfl, rfl, rfl⟩
  · split
    · exact ⟨_, rfl, rfl, rfl⟩
    · exact ⟨_, rfl, rfl, rfl⟩

theorem schedule_nowUtc (config : RunConfig) (event : Event) (state : LoopState) :
    (schedule config event state).2.nowUtc = state.nowUtc := by
  rw [schedule]
  split
  · rfl
  · split <;> rfl

theorem dispatchedOf_append (before rest : List Occurrence) :
    dispatchedOf (before ++ rest) = dispatchedOf before ++ dispatchedOf rest :=
  List.filterMap_append

theorem scheduledOf_append (before rest : List Occurrence) :
    scheduledOf (before ++ rest) = scheduledOf before ++ scheduledOf rest :=
  List.filterMap_append

/-- A handler's program keeps the state in step with the log and dispatches nothing. -/
theorem perform_tracks (program : HandlerProgram H) (h : Tracks digests config state) :
    Tracks digests config (perform config program state).2 ∧
      state.log <+: (perform config program state).2.log ∧
      dispatchedOf (perform config program state).2.log = dispatchedOf state.log := by
  induction program generalizing state with
  | done next => exact ⟨h, List.prefix_rfl, rfl⟩
  | raise failure => exact ⟨h, List.prefix_rfl, rfl⟩
  | schedule event next ih =>
    obtain ⟨occurrence, hlog, _, hquiet⟩ := schedule_log config event state
    obtain ⟨htracks, hextends, hsame⟩ :=
      ih (schedule config event state).1 (schedule_tracks h event)
    refine ⟨htracks, ?_, ?_⟩
    · exact (hlog ▸ List.prefix_append state.log [occurrence]).trans hextends
    · rw [perform, hsame, hlog, dispatchedOf_append, hquiet, List.append_nil]
  | eventsBeyondWindow next ih => exact ih state.eventsBeyondWindow h

theorem occursAtUtc_le_of_key {a b : QueuedEvent} (h : a.orderingKey ≤ b.orderingKey) :
    a.occursAtUtc ≤ b.occursAtUtc := by
  rcases Prod.Lex.toLex_le_toLex.mp h with hlt | ⟨heq, _⟩
  · exact hlt.le
  · exact heq.le

/-- Dispatching the popped event never moves the clock backwards, and keeps the state in step with
    the log. -/
theorem advanceTo_tracks (h : Tracks digests config state) {queued : QueuedEvent}
    {rest : EventQueue} (hpop : state.queue.pop = some (queued, rest)) :
    ∃ advanced, advanceTo digests queued rest state = .ok advanced ∧
      Tracks digests config advanced ∧ advanced.log = state.log ++ [.dispatched queued] := by
  obtain ⟨hmem, hleast, rfl⟩ := EventQueue.pop_spec _ hpop
  have hclock : state.nowUtc ≤ queued.occursAtUtc := h.ahead queued hmem
  have hpermitted : Permitted config state.log (.dispatched queued) :=
    ⟨h.heap ▸ hmem, h.heap ▸ hleast, h.clock ▸ hclock⟩
  rw [advanceTo, if_neg (not_lt.mpr hclock)]
  refine ⟨_, rfl, ⟨lawful_concat h.lawful hpermitted, ?_, ?_, ?_, ?_, ?_, ?_⟩, rfl⟩
  · simp [pendingOf, pendingStep, h.heap]
  · simpa [queuedOf] using h.nextSequence
  · simp [clockOf, clockStep]
  · simpa [droppedOf] using h.dropped
  · simp [dispatchedOf, h.entries]
  · intro other hother
    exact occursAtUtc_le_of_key (hleast other (List.mem_of_mem_erase hother))

/-- The drain ends with an empty queue, on its budget, or on a handler's exception. -/
theorem drain_tracks (handler : EventHandler H) (remaining : ℕ) (start : H) (h : Tracks digests config state)
    (hbudget : state.entries.length + remaining = config.eventBudget.toNat) :
    let result := drain digests config handler remaining start state
    Tracks digests config result.2 ∧ state.log <+: result.2.log ∧
      (result.1 = none → result.2.queue.heap = []) ∧
      (∀ stop, result.1 = some stop →
        (∃ error, stop = .budgetExhausted error ∧
          result.2.entries.length = config.eventBudget.toNat) ∨
        ∃ failure, stop = .handlerFailed failure) := by
  induction remaining generalizing start state with
  | zero =>
    rw [drain]
    cases hpop : state.queue.pop with
    | none =>
      refine ⟨h, List.prefix_rfl, fun _ => (EventQueue.pop_eq_none_iff _).mp hpop, ?_⟩
      intro stop hstop
      cases hstop
    | some popped =>
      refine ⟨h, List.prefix_rfl, fun hnone => (by cases hnone), ?_⟩
      intro stop hstop
      exact Or.inl ⟨_, (Option.some.inj hstop).symm, hbudget⟩
  | succ remaining ih =>
    rw [drain]
    cases hpop : state.queue.pop with
    | none =>
      refine ⟨h, List.prefix_rfl, fun _ => (EventQueue.pop_eq_none_iff _).mp hpop, ?_⟩
      intro stop hstop
      cases hstop
    | some popped =>
      obtain ⟨queued, rest⟩ := popped
      obtain ⟨advanced, hadvance, htracks, hlog⟩ := advanceTo_tracks h hpop
      obtain ⟨hperform, hextends, hsame⟩ := perform_tracks
        (handler start queued.event advanced.nowUtc) htracks
      have hgrown : state.log <+: advanced.log := hlog ▸ List.prefix_append _ _
      simp only [hadvance]
      rcases hresult : perform config (handler start queued.event advanced.nowUtc) advanced with
        ⟨failure | next, after⟩
      · rw [hresult] at hperform hextends
        refine ⟨hperform, hgrown.trans hextends, fun hnone => (by cases hnone), ?_⟩
        intro stop hstop
        exact Or.inr ⟨failure, (Option.some.inj hstop).symm⟩
      · rw [hresult] at hperform hextends hsame
        have hcount : after.entries.length + remaining = config.eventBudget.toNat := by
          rw [hperform.entries, List.length_map, hsame, hlog, dispatchedOf_append,
            List.length_append, ← hbudget, h.entries, List.length_map]
          simp [dispatchedOf]
          omega
        obtain ⟨htracks', hextends', hempty, hstops⟩ := ih next hperform hcount
        exact ⟨htracks', (hgrown.trans hextends).trans hextends', hempty, hstops⟩

/-- The initial events are scheduled in order, or one of them is before the window. -/
theorem scheduleInitial_tracks (events : List Event) (h : Tracks digests config state)
    (hclock : state.nowUtc = config.startUtc) :
    let result := scheduleInitial config events state
    Tracks digests config result.2 ∧
      (result.1 = none → scheduledOf result.2.log = scheduledOf state.log ++ events ∧
        dispatchedOf result.2.log = dispatchedOf state.log) ∧
      (∀ stop, result.1 = some stop → (∃ error, stop = .initialRefused error) ∧
        ∃ event ∈ events, event.occursAtUtc < config.startUtc) := by
  induction events generalizing state with
  | nil =>
    refine ⟨h, fun _ => ⟨(List.append_nil _).symm, rfl⟩, ?_⟩
    intro stop hstop
    cases hstop
  | cons event rest ih =>
    obtain ⟨occurrence, hlog, hscheduled, hquiet⟩ := schedule_log config event state
    have htracks := schedule_tracks h event
    have hnow := schedule_nowUtc config event state
    rw [scheduleInitial]
    rcases hresult : schedule config event state with ⟨_ | error, after⟩
    · rw [hresult] at hlog htracks hnow
      obtain ⟨htracks', hscheduled', hstops⟩ := ih htracks (hnow.trans hclock)
      refine ⟨htracks', fun hnone => ?_, fun stop hstop => ?_⟩
      · obtain ⟨hevents, hsame⟩ := hscheduled' hnone
        refine ⟨?_, ?_⟩
        · rw [hevents, hlog, scheduledOf_append, hscheduled, List.append_assoc]
          rfl
        · rw [hsame, hlog, dispatchedOf_append, hquiet, List.append_nil]
      · obtain ⟨herror, early, hmem, hearly⟩ := hstops stop hstop
        exact ⟨herror, early, List.mem_cons_of_mem _ hmem, hearly⟩
    · rw [hresult] at htracks
      refine ⟨htracks, fun hnone => (by cases hnone), fun stop hstop => ?_⟩
      refine ⟨⟨error, (Option.some.inj hstop).symm⟩, event, List.mem_cons_self, ?_⟩
      rw [← hclock]
      by_contra hnot
      rw [schedule, if_neg hnot] at hresult
      split at hresult <;> cases hresult

/-! ### A whole run -/

/-- How a dispatch ends, with the state it leaves. -/
structure Dispatched (digests : Digests) (config : RunConfig) (initialEvents : List Event)
    (stop : Option Stop) (state : LoopState) : Prop where
  tracks : Tracks digests config state
  drained : stop = none → pendingOf state.log = []
  scheduled : (∀ event ∈ initialEvents, config.startUtc ≤ event.occursAtUtc) →
    initialEvents <+: scheduledOf state.log
  stops : ∀ reason, stop = some reason →
    (∃ error, reason = .budgetExhausted error ∧
      (dispatchedOf state.log).length = config.eventBudget.toNat) ∨
    (∃ failure, reason = .handlerFailed failure) ∨
    (∃ error, reason = .initialRefused error ∧
      ∃ event ∈ initialEvents, event.occursAtUtc < config.startUtc)

theorem dispatch_spec (digests : Digests) (config : RunConfig) (handler : EventHandler H) (start : H)
    (initialEvents : List Event) :
    Dispatched digests config initialEvents (dispatch digests config handler start initialEvents).1
      (dispatch digests config handler start initialEvents).2 := by
  have htracks₀ : Tracks digests config (LoopState.initial config) := tracks_initial
  obtain ⟨htracks, hscheduled, hrefused⟩ :=
    scheduleInitial_tracks initialEvents htracks₀ rfl
  rw [dispatch]
  rcases hinitial : scheduleInitial config initialEvents (LoopState.initial config) with
    ⟨_ | reason, state⟩
  · rw [hinitial] at htracks hscheduled
    obtain ⟨hevents, hquiet⟩ := hscheduled rfl
    have hbudget : state.entries.length + config.eventBudget.toNat = config.eventBudget.toNat := by
      rw [htracks.entries, hquiet]
      simp [LoopState.initial, dispatchedOf]
    obtain ⟨hdrained, hextends, hempty, hstops⟩ :=
      drain_tracks handler _ start htracks hbudget
    refine ⟨hdrained, fun hnone => hdrained.heap ▸ hempty hnone, fun _ => ?_, ?_⟩
    · obtain ⟨more, hmore⟩ := hextends
      rw [← hmore, scheduledOf_append, hevents]
      exact List.prefix_append _ _
    · intro reason hreason
      rcases hstops reason hreason with ⟨error, herror, hcount⟩ | hfailed
      · rw [hdrained.entries, List.length_map] at hcount
        exact Or.inl ⟨error, herror, hcount⟩
      · exact Or.inr (Or.inl hfailed)
  · rw [hinitial] at htracks hrefused
    obtain ⟨⟨error, herror⟩, hearly⟩ := hrefused reason rfl
    refine ⟨htracks, fun hnone => (by cases hnone), ?_, ?_⟩
    · intro hwindow
      obtain ⟨event, hmem, hbefore⟩ := hearly
      exact absurd (hwindow event hmem) (not_le.mpr hbefore)
    · intro other hother
      exact Or.inr (Or.inr ⟨error, (Option.some.inj hother).symm.trans herror, hearly⟩)

/-- What a registered run guarantees. -/
structure LoopContract (digests : Digests) (loop : EventLoop) (initialEvents : List Event)
    (execution : Execution) : Prop where
  scheduled : (∀ event ∈ initialEvents, loop.config.startUtc ≤ event.occursAtUtc) →
    initialEvents <+: scheduledOf execution.log
  window : (∀ queued ∈ queuedOf execution.log, queued.event.occursAtUtc ≤ loop.config.endUtc) ∧
    ∀ event ∈ droppedOf execution.log, loop.config.endUtc < event.occursAtUtc
  atMostOnce : (queuedOf execution.log).Nodup ∧ (dispatchedOf execution.log).Nodup ∧
    ∀ queued ∈ dispatchedOf execution.log, queued ∈ queuedOf execution.log
  exactlyOnce : ∀ trace, execution.result = .ok trace →
    (dispatchedOf execution.log).Perm (queuedOf execution.log)
  stops : ∀ reason, execution.result = .error reason →
    (∃ error, reason = .budgetExhausted error ∧
      (dispatchedOf execution.log).length = loop.config.eventBudget.toNat) ∨
    (∃ failure, reason = .handlerFailed failure) ∨
    (∃ error, reason = .initialRefused error ∧
      ∃ event ∈ initialEvents, event.occursAtUtc < loop.config.startUtc)
  clock : ∀ before rest, execution.log = before ++ rest →
    clockOf loop.config.startUtc before ≤ clockOf loop.config.startUtc execution.log
  least : ∀ before queued rest, execution.log = before ++ .dispatched queued :: rest →
    queued ∈ pendingOf before ∧
      ∀ other ∈ pendingOf before, queued.orderingKey ≤ other.orderingKey
  trace : ∀ trace, execution.result = .ok trace →
    trace.entries = (dispatchedOf execution.log).map (traceEntry digests) ∧
      trace.eventsBeyondWindow = (droppedOf execution.log).length
  completedReport : ∀ trace, execution.result = .ok trace →
    ∃ report, execution.reports = [report] ∧ report.outcome = .completed ∧
      report.dispatchedEventCount = (dispatchedOf execution.log).length
  failedReport : ∀ reason error, execution.result = .error reason →
    reason.failure = .exception error →
    ∃ report, execution.reports = [report] ∧ report.outcome = .failed ∧
      report.dispatchedEventCount = (dispatchedOf execution.log).length
  unreported : ∀ reason className, execution.result = .error reason →
    reason.failure = .baseException className → execution.reports = []

/-- A queued or dropped event of a lawful log is on its side of the window's end. -/
theorem window_of_lawful (h : Lawful config log) :
    (∀ queued ∈ queuedOf log, queued.event.occursAtUtc ≤ config.endUtc) ∧
      ∀ event ∈ droppedOf log, config.endUtc < event.occursAtUtc := by
  constructor
  · intro queued hmem
    obtain ⟨occurrence, hlog, hqueued⟩ := List.mem_filterMap.mp hmem
    obtain ⟨before, rest, hsplit⟩ := List.append_of_mem hlog
    have hpermitted := h before occurrence rest hsplit
    cases occurrence with
    | queued position =>
      obtain rfl : position = queued := Option.some.inj hqueued
      obtain ⟨hposition, _, hend⟩ := hpermitted
      rw [hposition] at hend
      exact hend
    | dropped event => cases hqueued
    | refused event => cases hqueued
    | dispatched position => cases hqueued
  · intro event hmem
    obtain ⟨occurrence, hlog, hdropped⟩ := List.mem_filterMap.mp hmem
    obtain ⟨before, rest, hsplit⟩ := List.append_of_mem hlog
    have hpermitted := h before occurrence rest hsplit
    cases occurrence with
    | queued position => cases hdropped
    | dropped other =>
      obtain rfl : other = event := Option.some.inj hdropped
      exact hpermitted
    | refused event => cases hdropped
    | dispatched position => cases hdropped

/-- The part of the contract that the log alone decides. -/
theorem loopContract_of_log {loop : EventLoop} {initialEvents : List Event} {stop : Option Stop}
    {execution : Execution} (h : Dispatched digests loop.config initialEvents stop state)
    (hlog : execution.log = state.log)
    (hresult : ∀ trace, execution.result = .ok trace → stop = none ∧
      trace.entries = state.entries ∧ trace.eventsBeyondWindow = state.eventsBeyondWindow ∧
      ∃ report, execution.reports = [report] ∧ report.outcome = .completed ∧
        report.dispatchedEventCount = state.entries.length)
    (hfailure : ∀ reason, execution.result = .error reason → stop = some reason ∧
      (∀ error, reason.failure = .exception error → ∃ report, execution.reports = [report] ∧
        report.outcome = .failed ∧ report.dispatchedEventCount = state.entries.length) ∧
      ∀ className, reason.failure = .baseException className → execution.reports = []) :
    LoopContract digests loop initialEvents execution := by
  have hlawful := h.tracks.lawful
  have hperm := dispatched_append_pending hlawful
  have hnodup := nodup_queuedOf hlawful
  have hcount : (dispatchedOf state.log).length = state.entries.length := by
    rw [h.tracks.entries, List.length_map]
  rw [← hlog] at hlawful hperm hnodup hcount
  constructor
  case scheduled => exact hlog ▸ h.scheduled
  case window => exact window_of_lawful hlawful
  case atMostOnce =>
    refine ⟨hnodup, ?_, fun queued hmem => hperm.subset (List.mem_append_left _ hmem)⟩
    exact (List.nodup_append.mp (hperm.nodup_iff.mpr hnodup)).1
  case exactlyOnce =>
    intro trace htrace
    rw [hlog, h.drained (hresult trace htrace).1, List.append_nil] at hperm
    exact hlog ▸ hperm
  case stops =>
    intro reason hreason
    rw [hlog]
    exact h.stops reason (hfailure reason hreason).1
  case clock =>
    intro before rest hsplit
    rw [hsplit] at hlawful ⊢
    exact clockOf_le hlawful
  case least =>
    intro before queued rest hsplit
    obtain ⟨hmem, hleast, _⟩ := hlawful before (.dispatched queued) rest hsplit
    exact ⟨hmem, hleast⟩
  case trace =>
    intro trace htrace
    obtain ⟨_, hentries, hbeyond, _⟩ := hresult trace htrace
    rw [hlog, hentries, hbeyond]
    exact ⟨h.tracks.entries, h.tracks.dropped⟩
  case completedReport =>
    intro trace htrace
    rw [hcount]
    exact (hresult trace htrace).2.2.2
  case failedReport =>
    intro reason error hreason herror
    rw [hcount]
    exact (hfailure reason hreason).2.1 error herror
  case unreported =>
    intro reason className hreason hname
    exact (hfailure reason hreason).2.2 className hname

/-- A registered loop over the window `[0, 10]` with a budget of five events. -/
def sampleLoop : EventLoop where
  config := ⟨⟨"momentum", "1", ["BTCUSDT"], Dict.empty, 0, 10, 0, 5⟩, by decide⟩
  registration :=
    ⟨⟨"0123456789abcdef0123456789abcdef0123456789abcdef0123456789abcdef", 1⟩, by decide⟩
  pathLabel := "path-0"
  checked := by decide

def sampleDigests : Digests := ⟨fun _ => "config", fun _ => "event", fun _ => "entries"⟩

/-- On its first event the handler schedules one sweep at the same instant and one past the
    window. -/
def sampleHandler : EventHandler Bool := fun woken _ nowUtc =>
  if woken then .done true
  else .schedule (.reconciliation .bybitTestnet nowUtc) fun _ =>
    .schedule (.reconciliation .bybitTestnet 11) fun _ => .done true

end FinanceKing.Backtest
