import FinanceKing.Lib.Fold
import FinanceKing.Platform.Supervisor

/-! The supervisor's gate beside the kill-switch journal it reads, over any order of entries, exits, rows
    and readings. A mode that trips the kill switch is the one the journal cannot be written in, so its halt
    may leave no row behind. -/

namespace FinanceKing.Platform

open Lib

/-! ### Transitions -/

/-- What the constructor established of the modes and the reason. -/
structure SupervisorState.Facts (state : SupervisorState) : Prop where
  reason : ∀ reason ∈ state.haltedReason, strip reason ≠ []
  distinct : state.modes.Nodup
  ordered : state.values.Pairwise (· ≤ ·)

theorem SupervisorStateFields.postInit_eq_ok {fields : SupervisorStateFields} :
    fields.postInit = .ok () ↔ (∀ reason ∈ fields.haltedReason, strip reason ≠ []) ∧
      fields.modes.Nodup ∧ fields.values.Pairwise (· ≤ ·) := by
  have hsorted : fields.values = sortBy id fields.values ↔ fields.values.Pairwise (· ≤ ·) := by
    constructor
    · intro h
      rw [h]
      exact pairwise_sortBy id _
    · exact fun h => (sortBy_eq_self id h).symm
  simp only [SupervisorStateFields.postInit, bind_eq_ok, raiseIf_eq_ok, not_exists, not_and, not_not,
    exists_const, hsorted, ne_eq]

theorem SupervisorState.facts (state : SupervisorState) : state.Facts := by
  obtain ⟨hreason, hdistinct, hordered⟩ := SupervisorStateFields.postInit_eq_ok.mp state.checked
  exact ⟨hreason, hdistinct, hordered⟩

theorem trippingReason_eq_none_iff {modes : List DegradedMode} :
    trippingReason modes = none ↔ ∀ mode ∈ modes, mode ∉ trippingModes := by
  rw [trippingReason]
  split
  · next h =>
    have hempty : (modes.filter fun mode => mode ∈ trippingModes) = [] := by
      have hperm := perm_sortBy id ((modes.filter fun mode => mode ∈ trippingModes).map DegradedMode.value)
      rw [h] at hperm
      exact List.map_eq_nil_iff.mp hperm.symm.eq_nil
    simpa using hempty
  · next h =>
    refine iff_of_false (by simp) fun hnone => h ?_
    have hempty : (modes.filter fun mode => mode ∈ trippingModes) = [] := by simpa using hnone
    rw [hempty]
    rfl

theorem trippingReason_stated {modes : List DegradedMode} :
    ∀ reason ∈ trippingReason modes, strip reason ≠ [] := by
  intro reason h
  rw [trippingReason] at h
  split at h
  · cases h
  · rw [← Option.some.inj h]
    exact strip_append_ne_nil_right (by with_unfolding_all decide) _

/-- Entering a mode: nothing for one already active, else the mode joins, and one that trips halts. -/
theorem enterDegraded_cases {state after : SupervisorState} {mode : DegradedMode} {nowUtc : DateTime}
    {detail : String} (h : enterDegraded state mode nowUtc detail = .ok after) :
    (mode ∈ state.modes ∧ after = state) ∨
      (mode ∉ state.modes ∧ (∀ other, other ∈ after.modes ↔ other = mode ∨ other ∈ state.modes) ∧
        after.haltedReason = if state.haltedReason = none ∧ mode ∈ trippingModes then trippingReason [mode]
          else state.haltedReason) := by
  rw [enterDegraded] at h
  split at h
  · next hactive => exact .inl ⟨hactive, (Except.ok.inj h).symm⟩
  · next hactive =>
    rw [bind_eq_ok] at h
    obtain ⟨entry, hentry, h⟩ := h
    obtain ⟨_, rfl⟩ := construct_eq_ok hentry
    obtain ⟨_, rfl⟩ := construct_eq_ok h
    refine .inr ⟨hactive, fun other => ?_, rfl⟩
    simp only [SupervisorStateFields.modes, List.mem_map, mem_sortBy, List.mem_append,
      List.mem_singleton]
    constructor
    · rintro ⟨held, hheld | rfl, rfl⟩
      · exact .inr ⟨held, hheld, rfl⟩
      · exact .inl rfl
    · rintro (rfl | ⟨held, hheld, rfl⟩)
      · exact ⟨_, .inr rfl, rfl⟩
      · exact ⟨held, .inl hheld, rfl⟩

/-- Leaving a mode removes it and carries the reason through. -/
theorem exitDegraded_ok (state : SupervisorState) (mode : DegradedMode) :
    ∃ after, exitDegraded state mode = .ok after ∧ after.haltedReason = state.haltedReason ∧
      ∀ other, other ∈ after.modes ↔ other ∈ state.modes ∧ other ≠ mode := by
  have hfacts := state.facts
  have hmodes : (state.degraded.filter fun entry => entry.mode ≠ mode).map (fun entry => entry.mode) =
      state.modes.filter fun other => other ≠ mode := by
    rw [SupervisorStateFields.modes, List.filter_map]
    rfl
  rw [exitDegraded]
  split
  · next hsame =>
    refine ⟨state, rfl, rfl, fun other => ⟨fun hmem => ⟨hmem, ?_⟩, fun hmem => hmem.1⟩⟩
    obtain ⟨entry, hentry, rfl⟩ := List.mem_map.mp hmem
    simpa using List.length_filter_eq_length_iff.mp hsame entry hentry
  · have hchecked : (SupervisorStateFields.mk state.haltedReason
        (state.degraded.filter fun entry => entry.mode ≠ mode)).postInit = .ok () := by
      rw [SupervisorStateFields.postInit_eq_ok]
      simp only [SupervisorStateFields.values, SupervisorStateFields.modes, hmodes]
      refine ⟨hfacts.reason, hfacts.distinct.filter _, ?_⟩
      exact hfacts.ordered.sublist (List.filter_sublist.map _)
    refine ⟨_, construct_ok hchecked, rfl, fun other => ?_⟩
    rw [SupervisorStateFields.modes, hmodes, List.mem_filter, decide_eq_true_eq]

/-- A reading is always adopted: its own reason when it is halted, else that of the modes that trip. -/
theorem applyReading_ok (state : SupervisorState) (reading : KillSwitchReading) :
    ∃ after, applyReading state reading = .ok after ∧ after.degraded = state.degraded ∧
      after.haltedReason =
        if reading.isHalted then reading.haltedReason else trippingReason state.modes := by
  have hfacts := state.facts
  have hchecked : (SupervisorStateFields.mk
      (if reading.isHalted then reading.haltedReason else trippingReason state.modes)
      state.degraded).postInit = .ok () := by
    rw [SupervisorStateFields.postInit_eq_ok]
    refine ⟨?_, hfacts.distinct, hfacts.ordered⟩
    intro reason hreason
    split at hreason
    · next hhalted =>
      have hstated := reading.checked
      simp only [KillSwitchReadingFields.postInit, raiseIf_eq_ok, not_and, hhalted, true_implies] at hstated
      have hcarried : reading.haltedReason = some reason := hreason
      rw [hcarried] at hstated
      exact hstated
    · exact trippingReason_stated reason hreason
  exact ⟨_, construct_ok hchecked, rfl, rfl⟩

/-- A halted reading carries the reason it halts with. -/
theorem KillSwitchReading.haltedReason_ne_none {reading : KillSwitchReading}
    (h : reading.isHalted = true) : reading.haltedReason ≠ none := by
  have hstated := reading.checked
  simp only [KillSwitchReadingFields.postInit, raiseIf_eq_ok, not_and, h, true_implies] at hstated
  intro hnone
  rw [hnone] at hstated
  exact hstated rfl

/-! ### The gate and the journal -/

/-- A row of the kill-switch journal. -/
inductive JournalEvent where
  | trip
  | resume
  deriving DecidableEq

/-- What the journal reads: its last row is a TRIP. -/
def readsHalted (journal : List JournalEvent) : Bool := journal.getLast? = some .trip

/-- The journal reads halted exactly when some TRIP has no later RESUME. -/
theorem readsHalted_iff {journal : List JournalEvent} : readsHalted journal = true ↔
    ∃ earlier later, journal = earlier ++ .trip :: later ∧ JournalEvent.resume ∉ later := by
  rw [readsHalted, decide_eq_true_eq]
  constructor
  · intro h
    obtain ⟨earlier, rfl⟩ := List.getLast?_eq_some_iff.mp h
    exact ⟨earlier, [], rfl, List.not_mem_nil⟩
  · rintro ⟨earlier, later, rfl, hlater⟩
    rw [List.getLast?_append_of_ne_nil _ (List.cons_ne_nil _ _)]
    have hlast := List.getLast_mem (List.cons_ne_nil JournalEvent.trip later)
    rw [List.getLast?_eq_some_getLast (List.cons_ne_nil _ _)]
    rcases List.mem_cons.mp hlast with htrip | hmem
    · rw [htrip]
    · cases hvalue : (JournalEvent.trip :: later).getLast (List.cons_ne_nil _ _) with
      | trip => rfl
      | resume => exact absurd (hvalue ▸ hmem) hlater

/-- What can happen: the gate's own calls, a row appended to the journal, and the adoption of a reading
    taken when the journal had a number of rows. -/
inductive SupervisorAction where
  | enterDegraded (mode : DegradedMode) (nowUtc : DateTime) (detail : String)
  | exitDegraded (mode : DegradedMode)
  | append (row : JournalEvent)
  | adopt (rows : ℕ) (haltedReason : Option String)

/-- The gate's state, the journal, and whether a mode that trips has been entered with no RESUME appended
    since. -/
structure SupervisorWorld where
  gate : SupervisorState
  journal : List JournalEvent
  unresumed : Bool

namespace SupervisorWorld

/-- A gate that has read nothing, beside whatever the journal holds. -/
def boot (journal : List JournalEvent) : SupervisorWorld := ⟨bootHaltedState, journal, false⟩

/-- The gate keeps its state where a call raised. -/
def replaceGate (world : SupervisorWorld) : PyResult SupervisorState → SupervisorWorld
  | .ok gate => { world with gate := gate }
  | .error _ => world

/-- A mode is entered, unless the entry is refused. -/
def enter (world : SupervisorWorld) (mode : DegradedMode) (nowUtc : DateTime) (detail : String) :
    SupervisorWorld :=
  match Platform.enterDegraded world.gate mode nowUtc detail with
  | .ok gate =>
    { world with gate := gate, unresumed := world.unresumed || decide (mode ∈ trippingModes) }
  | .error _ => world

/-- A row is appended, unless the database is unavailable. -/
def append (world : SupervisorWorld) (row : JournalEvent) : SupervisorWorld :=
  if .databaseUnavailable ∈ world.gate.modes then world
  else { world with
    journal := world.journal ++ [row]
    unresumed := world.unresumed && decide (row ≠ .resume) }

/-- The reading of the journal's first rows. -/
def reading (world : SupervisorWorld) (rows : ℕ) (haltedReason : Option String) :
    PyResult KillSwitchReading :=
  construct KillSwitchReadingFields.postInit KillSwitchReading.mk
    ⟨readsHalted (world.journal.take rows), haltedReason⟩

/-- One thing happens; a call that raises changes nothing. -/
def step (world : SupervisorWorld) : SupervisorAction → SupervisorWorld
  | .enterDegraded mode nowUtc detail => world.enter mode nowUtc detail
  | .exitDegraded mode => world.replaceGate (Platform.exitDegraded world.gate mode)
  | .append row => world.append row
  | .adopt rows haltedReason => world.replaceGate do
      applyReading world.gate (← world.reading rows haltedReason)

def run (journal : List JournalEvent) (actions : List SupervisorAction) : SupervisorWorld :=
  actions.foldl step (boot journal)

/-- Signals are not admitted between the entry of a mode that trips and the next RESUME. -/
def Sticky (world : SupervisorWorld) : Prop :=
  world.unresumed = true → world.gate.signalsAdmitted = false

/-- A reading that is not halted is adopted between the entry of a mode that trips and the next RESUME,
    after the mode was left. -/
def Unhalts (world : SupervisorWorld) : SupervisorAction → Prop
  | .adopt rows _ => world.unresumed = true ∧ world.gate.isTripping = false ∧
      readsHalted (world.journal.take rows) = false
  | _ => False

/-- A mode that trips keeps the gate halted as long as it is active. -/
def TrippingHalts (world : SupervisorWorld) : Prop :=
  world.gate.isTripping = true → world.gate.signalsAdmitted = false

end SupervisorWorld

/-! ### What a step keeps -/

theorem SupervisorState.isTripping_iff {state : SupervisorState} :
    state.isTripping = true ↔ ∃ mode ∈ state.modes, mode ∈ trippingModes := by
  rw [SupervisorState.isTripping, List.any_eq_true]
  simp only [decide_eq_true_eq]
  exact ⟨fun ⟨mode, htrips, hactive⟩ => ⟨mode, hactive, htrips⟩,
    fun ⟨mode, hactive, htrips⟩ => ⟨mode, htrips, hactive⟩⟩

theorem SupervisorState.signalsAdmitted_eq_false {state : SupervisorState} :
    state.signalsAdmitted = false ↔ state.haltedReason ≠ none := by
  rw [SupervisorState.signalsAdmitted, Option.isNone_eq_false_iff, Option.isSome_iff_ne_none]

theorem trippingReason_ne_none {state : SupervisorState} :
    trippingReason state.modes ≠ none ↔ state.isTripping = true := by
  rw [ne_eq, trippingReason_eq_none_iff, SupervisorState.isTripping_iff]
  push Not
  exact Iff.rfl

/-- An entry halts if its mode trips, and never lifts a halt. -/
theorem enterDegraded_halts {state after : SupervisorState} {mode : DegradedMode} {nowUtc : DateTime}
    {detail : String} (h : enterDegraded state mode nowUtc detail = .ok after) :
    (state.signalsAdmitted = false → after.signalsAdmitted = false) ∧
      (after.isTripping = true → state.isTripping = true ∨ after.signalsAdmitted = false) ∧
      (mode ∈ trippingModes → after.isTripping = true) := by
  simp only [SupervisorState.signalsAdmitted_eq_false]
  rcases enterDegraded_cases h with ⟨hactive, rfl⟩ | ⟨_, hmodes, hreason⟩
  · exact ⟨id, .inl, fun htrips => SupervisorState.isTripping_iff.mpr ⟨mode, hactive, htrips⟩⟩
  · refine ⟨?_, ?_, ?_⟩
    · intro hhalted
      rw [hreason, if_neg fun hnone => hhalted hnone.1]
      exact hhalted
    · intro htripping
      obtain ⟨other, hother, htrips⟩ := SupervisorState.isTripping_iff.mp htripping
      rcases (hmodes other).mp hother with rfl | hheld
      · right
        rw [hreason]
        split
        · rw [ne_eq, trippingReason_eq_none_iff]
          exact fun hnone => hnone other List.mem_cons_self htrips
        · next hhalted => exact fun hnone => hhalted ⟨hnone, htrips⟩
      · exact .inl (SupervisorState.isTripping_iff.mpr ⟨other, hheld, htrips⟩)
    · exact fun htrips => SupervisorState.isTripping_iff.mpr ⟨mode, (hmodes mode).mpr (.inl rfl), htrips⟩

namespace SupervisorWorld

variable {world : SupervisorWorld}

theorem exit_cases (world : SupervisorWorld) (mode : DegradedMode) :
    ∃ gate, world.step (.exitDegraded mode) = { world with gate := gate } ∧
      gate.haltedReason = world.gate.haltedReason ∧
      (gate.isTripping = true → world.gate.isTripping = true) := by
  obtain ⟨gate, hgate, hreason, hmodes⟩ := exitDegraded_ok world.gate mode
  refine ⟨gate, by rw [step, hgate, replaceGate], hreason, fun htripping => ?_⟩
  obtain ⟨other, hother, htrips⟩ := SupervisorState.isTripping_iff.mp htripping
  exact SupervisorState.isTripping_iff.mpr ⟨other, ((hmodes other).mp hother).1, htrips⟩

/-- An adoption: nothing when the reading is refused, else the modes are kept and the reason recomputed. -/
theorem adopt_cases (world : SupervisorWorld) (rows : ℕ) (haltedReason : Option String) :
    (readsHalted (world.journal.take rows) = true ∧ world.step (.adopt rows haltedReason) = world) ∨
      ∃ gate, world.step (.adopt rows haltedReason) = { world with gate := gate } ∧
        gate.isTripping = world.gate.isTripping ∧
        (gate.signalsAdmitted = false ↔
          readsHalted (world.journal.take rows) = true ∨ world.gate.isTripping = true) := by
  rw [step]
  cases hreading : world.reading rows haltedReason with
  | error e =>
    refine .inl ⟨?_, rfl⟩
    by_contra hopen
    have hchecked : (KillSwitchReadingFields.mk (readsHalted (world.journal.take rows))
        haltedReason).postInit = .ok () := by
      simp only [KillSwitchReadingFields.postInit, raiseIf_eq_ok, not_and]
      exact fun hhalted => absurd hhalted hopen
    rw [reading, construct_ok hchecked] at hreading
    cases hreading
  | ok taken =>
    obtain ⟨_, rfl⟩ := construct_eq_ok hreading
    obtain ⟨gate, hgate, hdegraded, hreason⟩ := applyReading_ok world.gate
      ⟨⟨readsHalted (world.journal.take rows), haltedReason⟩, by assumption⟩
    refine .inr ⟨gate, ?_, ?_, ?_⟩
    · simp only [bind, Except.bind, hgate, replaceGate]
    · rw [SupervisorState.isTripping, SupervisorState.isTripping, SupervisorStateFields.modes,
        SupervisorStateFields.modes, hdegraded]
    · rw [SupervisorState.signalsAdmitted_eq_false, hreason]
      split
      · next hhalted => simp [KillSwitchReading.haltedReason_ne_none hhalted, show
          readsHalted (world.journal.take rows) = true from hhalted]
      · next hhalted =>
        rw [trippingReason_ne_none]
        simp [show ¬ readsHalted (world.journal.take rows) = true from hhalted]

theorem TrippingHalts.step (h : world.TrippingHalts) (action : SupervisorAction) : (world.step action).TrippingHalts := by
  cases action with
  | enterDegraded mode nowUtc detail =>
    rw [SupervisorWorld.step, enter]
    split
    · next gate hgate =>
      obtain ⟨hkeeps, htripping, _⟩ := enterDegraded_halts hgate
      intro hactive
      rcases htripping hactive with hbefore | hhalted
      · exact hkeeps (h hbefore)
      · exact hhalted
    · exact h
  | exitDegraded mode =>
    obtain ⟨gate, hstep, hreason, htripping⟩ := exit_cases world mode
    rw [hstep]
    intro hactive
    have hhalted := h (htripping hactive)
    rw [SupervisorState.signalsAdmitted_eq_false] at hhalted ⊢
    exact hreason ▸ hhalted
  | append row =>
    rw [SupervisorWorld.step, append]
    split <;> exact h
  | adopt rows haltedReason =>
    rcases adopt_cases world rows haltedReason with ⟨_, hstep⟩ | ⟨gate, hstep, htripping, hadmitted⟩
    · rw [hstep]
      exact h
    · rw [hstep]
      exact fun hactive => hadmitted.mpr (.inr (htripping ▸ hactive))

/-- A step keeps the halt exactly when it adopts no reading that lifts it. -/
theorem Sticky.step (h : world.Sticky) (htripping : world.TrippingHalts) (action : SupervisorAction) :
    (world.step action).Sticky ↔ ¬ world.Unhalts action := by
  cases action with
  | enterDegraded mode nowUtc detail =>
    refine iff_of_true ?_ id
    have hafter := htripping.step (.enterDegraded mode nowUtc detail)
    rw [SupervisorWorld.step, enter] at hafter ⊢
    split at hafter
    · next gate hgate =>
      obtain ⟨hkeeps, _, htrips⟩ := enterDegraded_halts hgate
      intro hunresumed
      rcases Bool.or_eq_true_iff.mp hunresumed with hbefore | hmode
      · exact hkeeps (h hbefore)
      · exact hafter (htrips (of_decide_eq_true hmode))
    · exact h
  | exitDegraded mode =>
    refine iff_of_true ?_ id
    obtain ⟨gate, hstep, hreason, _⟩ := exit_cases world mode
    rw [hstep]
    intro hunresumed
    have hhalted := h hunresumed
    rw [SupervisorState.signalsAdmitted_eq_false] at hhalted ⊢
    exact hreason ▸ hhalted
  | append row =>
    refine iff_of_true ?_ id
    rw [SupervisorWorld.step, append]
    split
    · exact h
    · exact fun hunresumed => h (Bool.and_eq_true_iff.mp hunresumed).1
  | adopt rows haltedReason =>
    rw [Unhalts]
    rcases adopt_cases world rows haltedReason with ⟨hhalted, hstep⟩ | ⟨gate, hstep, _, hadmitted⟩
    · rw [hstep, hhalted]
      simpa using h
    · rw [hstep]
      constructor
      · rintro hsticky ⟨hunresumed, hleft, hread⟩
        rcases hadmitted.mp (hsticky hunresumed) with hhalted | hactive
        · rw [hread] at hhalted
          cases hhalted
        · rw [hleft] at hactive
          cases hactive
      · intro hkeeps hunresumed
        refine hadmitted.mpr ?_
        by_contra hneither
        simp only [not_or, Bool.not_eq_true] at hneither
        exact hkeeps ⟨hunresumed, hneither.2, hneither.1⟩

end SupervisorWorld

/-! ### Every run -/

open SupervisorWorld in
/-- What lifts a halt of the gate, whatever happens in whatever order. -/
structure HaltContract (journal : List JournalEvent) : Prop where
  sticky : ∀ actions, (∀ earlier, earlier <+: actions → (run journal earlier).Sticky) ↔
    StepsMeet step (fun world action => ¬ world.Unhalts action) (boot journal) actions
  halts : ∀ state reading, reading.isHalted = true →
    ∃ after, applyReading state reading = .ok after ∧ after.signalsAdmitted = false
  redelivered : ∀ (state : SupervisorState) mode nowUtc detail, mode ∈ state.modes →
    enterDegraded state mode nowUtc detail = .ok state
  exits : ∀ state mode, ∃ after, exitDegraded state mode = .ok after ∧
    after.signalsAdmitted = state.signalsAdmitted

/-- A halt is lifted by a RESUME, or by a reading adopted while none was written. -/
theorem halt_contract (journal : List JournalEvent) : HaltContract journal := by
  refine ⟨?_, ?_, ?_, ?_⟩
  · intro actions
    have hboot : (SupervisorWorld.boot journal).TrippingHalts := fun _ => rfl
    have hkeeps : ∀ (world : SupervisorWorld) (action : SupervisorAction),
        world.TrippingHalts ∧ world.Sticky → ¬ world.Unhalts action →
        (world.step action).TrippingHalts ∧ (world.step action).Sticky :=
      fun world action h hkept => ⟨h.1.step action, (h.2.step h.1 action).mpr hkept⟩
    exact forall_prefix_iff_stepsMeet hkeeps (fun world action h => h.2.step h.1 action)
      ⟨hboot, fun _ => rfl⟩ fun _ => rfl
  · intro state reading hhalted
    obtain ⟨after, hafter, _, hreason⟩ := applyReading_ok state reading
    refine ⟨after, hafter, ?_⟩
    rw [SupervisorState.signalsAdmitted_eq_false, hreason, if_pos hhalted]
    exact KillSwitchReading.haltedReason_ne_none hhalted
  · intro state mode nowUtc detail hactive
    rw [enterDegraded, if_pos hactive]
  · intro state mode
    obtain ⟨after, hafter, hreason, _⟩ := exitDegraded_ok state mode
    refine ⟨after, hafter, ?_⟩
    rw [SupervisorState.signalsAdmitted, SupervisorState.signalsAdmitted, hreason]

/-- The database goes away and comes back, and the journal, in which nothing could be written, is read. -/
def flappingDatabase : List SupervisorAction :=
  [.enterDegraded .databaseUnavailable 0 "connection refused", .append .trip,
    .exitDegraded .databaseUnavailable, .adopt 0 none]

/-- The outage's own halt is lifted with no RESUME appended. -/
theorem flapping_database_admits :
    (SupervisorWorld.run [] flappingDatabase).unresumed = true ∧
      (SupervisorWorld.run [] flappingDatabase).journal = [] ∧
      (SupervisorWorld.run [] flappingDatabase).gate.signalsAdmitted = true := by
  decide +kernel

end FinanceKing.Platform
