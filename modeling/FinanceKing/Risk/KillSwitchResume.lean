import FinanceKing.Risk.KillSwitchJournal

/-! Arm and resume: the human-only procedure that closes an incident. A resume is either refused with
    every failing condition named, or granted as a journal row for the incident the state reports.
    What the row then does to the journal is a question about the journal's order, not about the
    checks, so effectiveness is proved from the order of the clocks. -/

namespace FinanceKing

open Lib

/-- How stale a clean reconciliation may be at the moment of resume. -/
def reconciliationFreshness : TimeDelta := TimeDelta.ofMinutes 5

def requiredRecoveryStep : ℕ := 7

/-- The world as the resume procedure needs to observe it; supplied by the caller. -/
structure ResumePreconditions where
  reconciliationIsClean : Bool
  reconciliationCompletedAtUtc : Option DateTime
  triggerConditionStillTrue : Bool
  recoveryStepCompleted : ℤ
  deriving DecidableEq

/-- One condition of the procedure: its refusal when it fails, nothing when it holds. -/
def refuseIf (failed : Prop) [Decidable failed] (refusal : Message) : List Message :=
  if failed then [refusal] else []

/-- Why the arm does not authorise this resume. -/
def armRefusals (state : KillSwitchState) (armedBy : Option ArmEvent) (operatorId : String)
    (nowUtc : DateTime) : List Message :=
  match armedBy with
  | none => [["no arm precedes this resume; arm then resume, within 120 seconds"]]
  | some arm =>
    (match state.incidentId with
      | none => []
      | some incidentId => refuseIf (arm.incidentId ≠ incidentId)
          ["the arm names incident ", .uuid arm.incidentId, ", the open incident is ",
            .uuid incidentId]) ++
    refuseIf (arm.expiresAtUtc ≤ nowUtc)
      ["the arm expired at ", .instant arm.expiresAtUtc, "; it is now ", .instant nowUtc] ++
    refuseIf (nowUtc < arm.occurredAtUtc) ["the resume is timestamped before its arm"] ++
    refuseIf (arm.operatorId ≠ operatorId)
      ["the arm was recorded by ", arm.operatorId, " and the resume by ", operatorId,
        "; both steps are one person's"]

/-- Why the root cause does not explain anything. -/
def rootCauseRefusals (rootCause : String) : List Message :=
  if strip rootCause = [] then [["the root cause is empty"]]
  else refuseIf ((strip rootCause).length < minRootCauseLength)
    ["the root cause is ", .count (strip rootCause).length, " characters; at least ",
      .count minRootCauseLength, " are required"]

/-- Why the reconciliation does not describe the venue. -/
def reconciliationRefusals (preconditions : ResumePreconditions) (nowUtc : DateTime) :
    List Message :=
  if ¬preconditions.reconciliationIsClean then [["the most recent reconciliation was not clean"]]
  else
    match preconditions.reconciliationCompletedAtUtc with
    | none => [["no reconciliation completion time was recorded"]]
    | some completedAtUtc => refuseIf (nowUtc - completedAtUtc > reconciliationFreshness)
        ["the clean reconciliation completed at ", .instant completedAtUtc, ", more than ",
          .span reconciliationFreshness, " ago"]

/-- Every reason this resume is refused, or none. -/
def resumeRefusals (state : KillSwitchState) (armedBy : Option ArmEvent) (operatorId : String)
    (rootCause : String) (preconditions : ResumePreconditions) (nowUtc : DateTime) : List Message :=
  refuseIf (¬state.isHalted) ["the kill switch is not halted, so there is nothing to resume"] ++
  refuseIf (state.incidentId = none) ["no incident is open"] ++
  armRefusals state armedBy operatorId nowUtc ++
  refuseIf (strip operatorId = []) ["no operator identity was recorded"] ++
  rootCauseRefusals rootCause ++
  reconciliationRefusals preconditions nowUtc ++
  refuseIf preconditions.triggerConditionStillTrue
    ["the condition that tripped the switch still evaluates true"] ++
  refuseIf (preconditions.recoveryStepCompleted < requiredRecoveryStep)
    ["recovery reached step ", .count preconditions.recoveryStepCompleted, " of ",
      .count requiredRecoveryStep]

def ResumeEvent.make (fields : ResumeEventFields) : PyResult ResumeEvent :=
  construct ResumeEventFields.postInit ResumeEvent.mk fields

/-- Step two of two: raises unless every condition holds. -/
def resume (eventId correlationId : Uuid) (state : KillSwitchState) (armedBy : Option ArmEvent)
    (operatorId rootCause : String) (preconditions : ResumePreconditions) (nowUtc : DateTime) :
    PyResult ResumeEvent :=
  match resumeRefusals state armedBy operatorId rootCause preconditions nowUtc with
  | [] =>
    match state.incidentId with
    | none => raise .resumeRefused ["resume refused: no incident is open"]
    | some incidentId => ResumeEvent.make {
        eventId := eventId
        incidentId := incidentId
        correlationId := correlationId
        occurredAtUtc := nowUtc
        operatorId := operatorId
        rootCause := rootCause }
  | refusals =>
    raise .resumeRefused (Piece.text "resume refused: " :: List.intercalate [Piece.text "; "] refusals)

/-- Step one of two: records an intent and authorises nothing by itself. -/
def arm (eventId incidentId correlationId : Uuid) (operatorId : String) (nowUtc : DateTime) :
    PyResult ArmEvent :=
  construct ArmEventFields.postInit ArmEvent.mk
    { eventId, incidentId, correlationId, occurredAtUtc := nowUtc, operatorId }

/-- What a grant says: the row is stamped with the resume's own clock and names the incident the
    state reports. -/
theorem resume_granted {eventId correlationId : Uuid} {state : KillSwitchState}
    {armedBy : Option ArmEvent} {operatorId rootCause : String}
    {preconditions : ResumePreconditions} {nowUtc : DateTime} {event : ResumeEvent}
    (h : resume eventId correlationId state armedBy operatorId rootCause preconditions nowUtc =
      .ok event) :
    state.incidentId = some event.incidentId ∧ event.occurredAtUtc = nowUtc ∧
      event.eventId = eventId ∧
      resumeRefusals state armedBy operatorId rootCause preconditions nowUtc = [] := by
  rw [resume] at h
  split at h
  · next hrefusals =>
    split at h
    · cases h
    · next incidentId hincident =>
      obtain ⟨hf, rfl⟩ := construct_eq_ok h
      exact ⟨hincident, rfl, rfl, hrefusals⟩
  · cases h

/-! ### What appending the row does -/

theorem openTrips_append_of_ne {events : List KillSwitchEvent} {event : KillSwitchEvent}
    {incidentId : Uuid} (h : incidentId ≠ event.incidentId) :
    (openTrips (events ++ [event])).get? incidentId = (openTrips events).get? incidentId := by
  have hkept : (events ++ [event]).filter (fun row => row.incidentId = incidentId) =
      events.filter (fun row => row.incidentId = incidentId) := by
    rw [List.filter_append, List.filter_singleton]
    simp [Ne.symm h]
  rw [get?_openTrips, get?_openTrips, incidentRows, incidentRows, inJournalOrder, inJournalOrder,
    filter_sortBy, filter_sortBy, hkept]

/-- A resume stamped after every trip of its incident closes it. -/
theorem not_isOpen_append_resume {events : List KillSwitchEvent} {event : ResumeEvent}
    (h : ∀ trip, .trip trip ∈ events → trip.incidentId = event.incidentId →
      trip.occurredAtUtc < event.occurredAtUtc) :
    ¬IsOpen (events ++ [.resume event]) event.incidentId := by
  refine not_isOpen_of_resume (by simp) fun trip htrip hincident => ?_
  rcases List.mem_append.mp htrip with hmem | hmem
  · exact (journalKey_lt_iff _ _).mpr (Or.inl (h trip hmem hincident))
  · simp at hmem

/-- The caller's reconciliation completed after every trip of the reported incident and no later
    than the resume. -/
def ReconciledSinceTrip (events : List KillSwitchEvent) (preconditions : ResumePreconditions)
    (nowUtc : DateTime) : Prop :=
  ∃ completedAtUtc, preconditions.reconciliationCompletedAtUtc = some completedAtUtc ∧
    completedAtUtc ≤ nowUtc ∧
    ∀ trip, .trip trip ∈ events →
      (deriveState (.read events)).incidentId = some trip.incidentId →
      trip.occurredAtUtc < completedAtUtc

/-- What a granted resume owes: its incident is closed and no longer reported, every other incident
    is listed as before, and the reconciliation behind it is after the trip and not in the future. -/
structure ResumeContract (events : List KillSwitchEvent) (preconditions : ResumePreconditions)
    (nowUtc : DateTime) (event : ResumeEvent) : Prop where
  closes : ¬IsOpen (events ++ [.resume event]) event.incidentId
  unreported :
    (deriveState (.read (events ++ [.resume event]))).incidentId ≠ some event.incidentId
  frame : ∀ other, other ≠ event.incidentId →
    (openTrips (events ++ [.resume event])).get? other = (openTrips events).get? other
  reconciled : ∃ completedAtUtc,
    preconditions.reconciliationCompletedAtUtc = some completedAtUtc ∧ completedAtUtc ≤ nowUtc ∧
      ∀ trip, .trip trip ∈ events → trip.incidentId = event.incidentId →
        trip.occurredAtUtc < completedAtUtc

/-- A granted resume keeps its contract exactly when the caller's reconciliation is since the trip:
    the procedure compares it to neither, and a reconciliation since the trip also makes the row
    sort after every trip it closes. -/
theorem resumeContract_iff {events : List KillSwitchEvent} {eventId correlationId : Uuid}
    {armedBy : Option ArmEvent} {operatorId rootCause : String}
    {preconditions : ResumePreconditions} {nowUtc : DateTime} {event : ResumeEvent}
    (hgranted : resume eventId correlationId (deriveState (.read events)) armedBy operatorId
      rootCause preconditions nowUtc = .ok event) :
    ResumeContract events preconditions nowUtc event ↔
      ReconciledSinceTrip events preconditions nowUtc := by
  obtain ⟨hincident, hstamp, _, _⟩ := resume_granted hgranted
  rw [ReconciledSinceTrip, hincident]
  constructor
  · rintro ⟨_, _, _, completedAtUtc, hcompleted, hpast, hsince⟩
    exact ⟨completedAtUtc, hcompleted, hpast, fun trip htrip hsame =>
      hsince trip htrip (Option.some.inj hsame).symm⟩
  · rintro ⟨completedAtUtc, hcompleted, hpast, hsince⟩
    have hsince' : ∀ trip, .trip trip ∈ events → trip.incidentId = event.incidentId →
        trip.occurredAtUtc < completedAtUtc := fun trip htrip hsame =>
      hsince trip htrip (congrArg some hsame.symm)
    have hcloses : ¬IsOpen (events ++ [.resume event]) event.incidentId := by
      refine not_isOpen_append_resume fun trip htrip hsame => ?_
      rw [hstamp]
      exact (hsince' trip htrip hsame).trans_le hpast
    exact ⟨hcloses, fun hreported => hcloses (isOpen_of_reported hreported),
      fun other hother => openTrips_append_of_ne hother,
      completedAtUtc, hcompleted, hpast, hsince'⟩

def sampleArm : ArmEvent where
  eventId := 2
  incidentId := 7
  correlationId := 0
  occurredAtUtc := 10
  operatorId := "human:operator"
  checked := by decide

/-- Grant a resume at instant `nowUtc` on a reconciliation completed at `completedAtUtc`, against
    one trip at instant 8. -/
def sampleGrant (completedAtUtc nowUtc : DateTime) : PyResult ResumeEvent :=
  resume 3 0 (deriveState (.read [.trip (sampleTrip 1 8)])) (some sampleArm) "human:operator"
    "the venue was wiped and restored" ⟨true, some completedAtUtc, false, 7⟩ nowUtc

theorem resumeContract_reconciled :
    ∃ event, sampleGrant 9 12 = .ok event ∧
      ResumeContract [.trip (sampleTrip 1 8)] ⟨true, some 9, false, 7⟩ 12 event := by
  have hgranted : sampleGrant 9 12 = .ok (sampleResume 3 12) := by decide +kernel
  refine ⟨_, hgranted, (resumeContract_iff hgranted).mpr ⟨9, rfl, by decide, ?_⟩⟩
  intro trip htrip _
  simp only [List.mem_singleton, KillSwitchEvent.trip.injEq] at htrip
  rw [htrip]
  decide

/-- A resume granted on a reconciliation that completed before the trip. -/
theorem not_resumeContract_stale :
    ¬∀ (events : List KillSwitchEvent) (eventId correlationId : Uuid) (armedBy : Option ArmEvent)
      (operatorId rootCause : String) (preconditions : ResumePreconditions) (nowUtc : DateTime)
      (event : ResumeEvent),
      resume eventId correlationId (deriveState (.read events)) armedBy operatorId rootCause
        preconditions nowUtc = .ok event →
      ResumeContract events preconditions nowUtc event := by
  intro hall
  have hgranted : sampleGrant 5 12 = .ok (sampleResume 3 12) := by decide +kernel
  obtain ⟨completedAtUtc, hcompleted, _, hsince⟩ :=
    (hall _ _ _ _ _ _ _ _ _ hgranted).reconciled
  have hafter := hsince (sampleTrip 1 8) (by simp) rfl
  rw [← Option.some.inj hcompleted] at hafter
  exact absurd hafter (by decide)

end FinanceKing
