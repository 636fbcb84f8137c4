import FinanceKing.Risk.KillSwitchState
import FinanceKing.Lib.Fold

/-! Deriving the switch's state from its journal. The fold runs in journal order and, at each
    incident, is the fold of that incident's own rows: a trip opens it unless it is open, a resume
    closes it. So an incident is open exactly when one of its trips stands after all its resumes. -/

namespace FinanceKing

open Lib

def bootUnreadableReason : String :=
  "the kill-switch journal could not be read, so the system cannot prove it is not " ++
    "halted; unknown is tripped"

/-- Journal rows sorted by occurrence, with the event id breaking ties. -/
def inJournalOrder (events : List KillSwitchEvent) : List KillSwitchEvent :=
  sortBy KillSwitchEvent.journalKey events

/-- One row of the fold: the earliest trip of an incident owns it, and a resume clears the one
    incident it names. -/
def foldOpenTrips (openTrips : Dict Uuid TripEvent) : KillSwitchEvent → Dict Uuid TripEvent
  | .trip event => openTrips.setDefault event.incidentId event
  | .resume event => openTrips.erase event.incidentId
  | .arm _ => openTrips

/-- The incidents a journal leaves open, each with the trip that owns it. -/
def openTrips (events : List KillSwitchEvent) : Dict Uuid TripEvent :=
  (inJournalOrder events).foldl foldOpenTrips Dict.empty

/-- The open trip that is reported: the earliest, with the event id breaking ties. -/
def earliestTrip (trips : List TripEvent) : Option TripEvent :=
  minBy (fun candidate => toLex (candidate.occurredAtUtc, candidate.eventId)) trips

def haltedBy (openTrip : TripEvent) : KillSwitchState where
  status := .halted
  incidentId := some openTrip.incidentId
  trippedAtUtc := some openTrip.occurredAtUtc
  trigger := some openTrip.trigger
  haltedReason := some
    ["tripped by ", openTrip.trigger.triggerId, ": ", .decimal openTrip.trigger.observedValue, " ",
      openTrip.trigger.unit, " against a threshold of ", .decimal openTrip.trigger.thresholdValue,
      " (", openTrip.trigger.detail, ")"]
  checked := rfl

def tradingState : KillSwitchState where
  status := .trading
  incidentId := none
  trippedAtUtc := none
  trigger := none
  haltedReason := none
  checked := rfl

/-- The current state, from the journal alone. -/
def deriveState : JournalReadOutcome → KillSwitchState
  | .unreadable failure => {
      status := .halted
      incidentId := none
      trippedAtUtc := none
      trigger := none
      haltedReason := some [bootUnreadableReason, " (", failure.reason, ")"]
      checked := rfl }
  | .read events =>
    match earliestTrip (openTrips events).values with
    | none => tradingState
    | some openTrip => haltedBy openTrip

/-- The state a process holds before it has proved it may trade. -/
def bootHaltedState : KillSwitchState where
  status := .halted
  incidentId := none
  trippedAtUtc := none
  trigger := none
  haltedReason := some ["the kill-switch journal has not been read yet"]
  checked := rfl

/-- The order path's gate: it raises unless the held state is trading. -/
def ensureTrading (state : KillSwitchState) : PyResult Unit :=
  raiseIf (state.status = .halted) .killSwitchTripped
    (Piece.text "kill switch is halted: " :: state.haltedReason.getD ["None"])

/-! ### The fold, one incident at a time -/

/-- What one row does to the slot of its own incident. -/
def foldSlot (slot : Option TripEvent) : KillSwitchEvent → Option TripEvent
  | .trip event => some (slot.getD event)
  | .resume _ => none
  | .arm _ => slot

/-- The rows of one incident, in journal order. -/
def incidentRows (events : List KillSwitchEvent) (incidentId : Uuid) : List KillSwitchEvent :=
  (inJournalOrder events).filter (fun event => event.incidentId = incidentId)

theorem get?_openTrips (events : List KillSwitchEvent) (incidentId : Uuid) :
    (openTrips events).get? incidentId = (incidentRows events incidentId).foldl foldSlot none := by
  refine Dict.get?_foldl foldOpenTrips KillSwitchEvent.incidentId foldSlot ?_ ?_ incidentId _ _
  · intro trips event
    cases event with
    | trip event => simp [foldOpenTrips, foldSlot, KillSwitchEvent.incidentId, Dict.get?_setDefault]
    | arm event => rfl
    | resume event => simp [foldOpenTrips, foldSlot, KillSwitchEvent.incidentId, Dict.get?_erase]
  · intro trips event other hother
    cases event with
    | trip event => exact (trips.get?_setDefault _ _ _).trans (if_neg hother)
    | arm event => rfl
    | resume event => exact (trips.get?_erase _ _).trans (if_neg hother)

/-- The slot ends up held exactly when some trip has no resume after it. -/
theorem isSome_foldSlot_iff (rows : List KillSwitchEvent) :
    (rows.foldl foldSlot none).isSome ↔
      ∃ before trip after, rows = before ++ .trip trip :: after ∧
        ∀ resume, .resume resume ∉ after := by
  induction rows using List.reverseRecOn with
  | nil => simp
  | append_singleton rows row ih =>
    rw [List.foldl_append, List.foldl_cons, List.foldl_nil]
    cases row with
    | trip event =>
      simp only [foldSlot, Option.isSome_some, true_iff]
      exact ⟨rows, event, [], rfl, fun _ => List.not_mem_nil⟩
    | arm event =>
      rw [foldSlot, ih]
      constructor
      · rintro ⟨before, trip, after, rfl, hafter⟩
        refine ⟨before, trip, after ++ [.arm event], by simp, fun resume hmem => ?_⟩
        rcases List.mem_append.mp hmem with h | h
        · exact hafter resume h
        · simp at h
      · rintro ⟨before, trip, after, hrows, hafter⟩
        rcases List.eq_nil_or_concat after with rfl | ⟨after, last, rfl⟩
        · have hlast := (List.append_inj' hrows rfl).2
          simp at hlast
        · rw [List.concat_eq_append, ← List.cons_append, ← List.append_assoc] at hrows
          refine ⟨before, trip, after, (List.append_inj' hrows rfl).1, fun resume hmem => ?_⟩
          exact hafter resume (by simp [hmem])
    | resume event =>
      simp only [foldSlot, Option.isSome_none, Bool.false_eq_true, false_iff]
      rintro ⟨before, trip, after, hrows, hafter⟩
      rcases List.eq_nil_or_concat after with rfl | ⟨after, last, rfl⟩
      · have hlast := (List.append_inj' hrows rfl).2
        simp at hlast
      · rw [List.concat_eq_append, ← List.cons_append, ← List.append_assoc] at hrows
        have hlast := (List.append_inj' hrows rfl).2
        rw [List.cons.injEq] at hlast
        exact hafter event (by simp [hlast.1])

/-! ### When an incident is open -/

/-- The derived state counts the incident as open. -/
def IsOpen (events : List KillSwitchEvent) (incidentId : Uuid) : Prop :=
  ((openTrips events).get? incidentId).isSome

theorem mem_incidentRows {events : List KillSwitchEvent} {incidentId : Uuid}
    {event : KillSwitchEvent} :
    event ∈ incidentRows events incidentId ↔ event ∈ events ∧ event.incidentId = incidentId := by
  rw [incidentRows, List.mem_filter, inJournalOrder, mem_sortBy, decide_eq_true_iff]

theorem pairwise_incidentRows (events : List KillSwitchEvent) (incidentId : Uuid) :
    (incidentRows events incidentId).Pairwise (fun a b => a.journalKey ≤ b.journalKey) :=
  (pairwise_sortBy _ events).sublist List.filter_sublist

/-- A trip that stands after every resume of its incident leaves the incident open. -/
theorem isOpen_of_trip {events : List KillSwitchEvent} {trip : TripEvent}
    (htrip : .trip trip ∈ events)
    (hlast : ∀ resume, .resume resume ∈ events → resume.incidentId = trip.incidentId →
      (KillSwitchEvent.resume resume).journalKey < (KillSwitchEvent.trip trip).journalKey) :
    IsOpen events trip.incidentId := by
  have hmem : .trip trip ∈ incidentRows events trip.incidentId :=
    mem_incidentRows.mpr ⟨htrip, rfl⟩
  have hsorted := pairwise_incidentRows events trip.incidentId
  obtain ⟨before, after, hrows⟩ := List.append_of_mem hmem
  rw [IsOpen, get?_openTrips, isSome_foldSlot_iff]
  refine ⟨before, trip, after, hrows, fun resume hafter => ?_⟩
  have hresume := mem_incidentRows.mp
    (hrows ▸ List.mem_append_right before (List.mem_cons_of_mem _ hafter))
  rw [hrows, List.pairwise_append, List.pairwise_cons] at hsorted
  exact absurd (hlast resume hresume.1 hresume.2) (not_lt.mpr (hsorted.2.1.1 _ hafter))

/-- A resume that stands after every trip of its incident leaves the incident closed. -/
theorem not_isOpen_of_resume {events : List KillSwitchEvent} {resume : ResumeEvent}
    (hresume : .resume resume ∈ events)
    (hlast : ∀ trip, .trip trip ∈ events → trip.incidentId = resume.incidentId →
      (KillSwitchEvent.trip trip).journalKey < (KillSwitchEvent.resume resume).journalKey) :
    ¬IsOpen events resume.incidentId := by
  have hmem : .resume resume ∈ incidentRows events resume.incidentId :=
    mem_incidentRows.mpr ⟨hresume, rfl⟩
  have hsorted := pairwise_incidentRows events resume.incidentId
  rw [IsOpen, get?_openTrips, isSome_foldSlot_iff]
  rintro ⟨before, trip, after, hrows, hafter⟩
  have htrip := mem_incidentRows.mp (hrows ▸ List.mem_append_right before List.mem_cons_self)
  have hlt := hlast trip htrip.1 htrip.2
  rw [hrows, List.pairwise_append] at hsorted
  rw [hrows, List.mem_append, List.mem_cons] at hmem
  rcases hmem with hbefore | htrip' | hafter'
  · exact absurd hlt (not_lt.mpr (hsorted.2.2 _ hbefore _ List.mem_cons_self))
  · cases htrip'
  · exact hafter resume hafter'

/-- The switch is halted exactly when some incident is open. -/
theorem deriveState_halted_iff (events : List KillSwitchEvent) :
    (deriveState (.read events)).status = .halted ↔ ∃ incidentId, IsOpen events incidentId := by
  rw [deriveState]
  split
  · next hnone =>
    have hempty : (openTrips events).values = [] := (minBy_eq_none_iff _).mp hnone
    refine ⟨(nomatch ·), ?_⟩
    rintro ⟨incidentId, hopen⟩
    obtain ⟨trip, htrip⟩ := Option.isSome_iff_exists.mp hopen
    exact absurd (hempty ▸ Dict.mem_values_of_get? htrip) List.not_mem_nil
  · next openTrip hsome =>
    obtain ⟨incidentId, hget⟩ := (Dict.mem_values_iff _ _).mp (mem_of_minBy _ hsome)
    exact ⟨fun _ => ⟨incidentId, Option.isSome_iff_exists.mpr ⟨openTrip, hget⟩⟩, fun _ => rfl⟩

/-- Whatever the slot holds is one of the rows. -/
theorem mem_of_foldSlot {rows : List KillSwitchEvent} {trip : TripEvent}
    (h : rows.foldl foldSlot none = some trip) : .trip trip ∈ rows := by
  induction rows using List.reverseRecOn with
  | nil => cases h
  | append_singleton rows row ih =>
    rw [List.foldl_append, List.foldl_cons, List.foldl_nil] at h
    cases row with
    | trip event =>
      cases hslot : rows.foldl foldSlot none with
      | none =>
        rw [hslot, foldSlot, Option.getD_none, Option.some.injEq] at h
        simp [h]
      | some held =>
        rw [hslot, foldSlot, Option.getD_some, Option.some.injEq] at h
        exact List.mem_append_left _ (ih (hslot.trans (congrArg some h)))
    | arm event => exact List.mem_append_left _ (ih h)
    | resume event => cases h

/-- An open incident is owned by a trip row of its own. -/
theorem mem_of_get?_openTrips {events : List KillSwitchEvent} {incidentId : Uuid}
    {trip : TripEvent} (h : (openTrips events).get? incidentId = some trip) :
    .trip trip ∈ events ∧ trip.incidentId = incidentId := by
  rw [get?_openTrips] at h
  exact mem_incidentRows.mp (mem_of_foldSlot h)

/-- The reported incident is one the journal leaves open. -/
theorem isOpen_of_reported {events : List KillSwitchEvent} {incidentId : Uuid}
    (h : (deriveState (.read events)).incidentId = some incidentId) : IsOpen events incidentId := by
  rw [deriveState] at h
  split at h
  · cases h
  · next openTrip hsome =>
    obtain ⟨owner, hget⟩ := (Dict.mem_values_iff _ _).mp (mem_of_minBy _ hsome)
    have howner : openTrip.incidentId = owner := (mem_of_get?_openTrips hget).2
    have hreported : openTrip.incidentId = incidentId := Option.some.inj h
    rw [IsOpen, ← hreported, howner, hget]
    rfl

/-! ### The journal contract -/

theorem inJournalOrder_of_perm {events other : List KillSwitchEvent}
    (hids : (events.map (·.eventId)).Nodup) (h : other.Perm events) :
    inJournalOrder other = inJournalOrder events := by
  refine (sortBy_eq_of_perm _ h.symm ?_).symm
  intro a ha b hb hkey
  have hid : a.eventId = b.eventId := (Prod.ext_iff.mp (toLex.injective hkey)).2
  exact List.inj_on_of_nodup_map hids ha hb hid

/-- The derived state does not depend on the order the rows are read in. -/
theorem deriveState_of_perm {events other : List KillSwitchEvent}
    (hids : (events.map (·.eventId)).Nodup) (h : other.Perm events) :
    deriveState (.read other) = deriveState (.read events) := by
  rw [deriveState, deriveState, openTrips, openTrips, inJournalOrder_of_perm hids h]

/-- The last trip and the last resume of one incident share an instant, and the resume's event id is
    the greater, so the tie-break on ids sorts the resume after the trip. -/
structure ResumeShadowsTrip (events : List KillSwitchEvent) (trip : TripEvent)
    (resume : ResumeEvent) : Prop where
  trip_mem : .trip trip ∈ events
  resume_mem : .resume resume ∈ events
  incident : resume.incidentId = trip.incidentId
  lastTrip : ∀ other, .trip other ∈ events → other.incidentId = trip.incidentId →
    (KillSwitchEvent.trip other).journalKey ≤ (KillSwitchEvent.trip trip).journalKey
  lastResume : ∀ other, .resume other ∈ events → other.incidentId = trip.incidentId →
    (KillSwitchEvent.resume other).journalKey ≤ (KillSwitchEvent.resume resume).journalKey
  instant : trip.occurredAtUtc = resume.occurredAtUtc
  tieBreak : trip.eventId < resume.eventId

theorem exists_lastTrip {events : List KillSwitchEvent} {trip : TripEvent}
    (htrip : .trip trip ∈ events) :
    ∃ last, .trip last ∈ events ∧ last.incidentId = trip.incidentId ∧
      ∀ other, .trip other ∈ events → other.incidentId = trip.incidentId →
        (KillSwitchEvent.trip other).journalKey ≤ (KillSwitchEvent.trip last).journalKey := by
  obtain ⟨_, hmem, ⟨last, rfl, hincident⟩, hmax⟩ :=
    exists_last KillSwitchEvent.journalKey
      (fun event => ∃ other, event = .trip other ∧ other.incidentId = trip.incidentId)
      ⟨_, htrip, trip, rfl, rfl⟩
  exact ⟨last, hmem, hincident, fun other ho hi => hmax _ ho ⟨other, rfl, hi⟩⟩

theorem exists_lastResume {events : List KillSwitchEvent} {resume : ResumeEvent}
    (hresume : .resume resume ∈ events) :
    ∃ last, .resume last ∈ events ∧ last.incidentId = resume.incidentId ∧
      ∀ other, .resume other ∈ events → other.incidentId = resume.incidentId →
        (KillSwitchEvent.resume other).journalKey ≤ (KillSwitchEvent.resume last).journalKey := by
  obtain ⟨_, hmem, ⟨last, rfl, hincident⟩, hmax⟩ :=
    exists_last KillSwitchEvent.journalKey
      (fun event => ∃ other, event = .resume other ∧ other.incidentId = resume.incidentId)
      ⟨_, hresume, resume, rfl, rfl⟩
  exact ⟨last, hmem, hincident, fun other ho hi => hmax _ ho ⟨other, rfl, hi⟩⟩

theorem journalKey_le_iff (a b : KillSwitchEvent) :
    a.journalKey ≤ b.journalKey ↔
      a.occurredAtUtc < b.occurredAtUtc ∨
        a.occurredAtUtc = b.occurredAtUtc ∧ a.eventId ≤ b.eventId :=
  Prod.Lex.toLex_le_toLex

theorem journalKey_lt_iff (a b : KillSwitchEvent) :
    a.journalKey < b.journalKey ↔
      a.occurredAtUtc < b.occurredAtUtc ∨
        a.occurredAtUtc = b.occurredAtUtc ∧ a.eventId < b.eventId :=
  Prod.Lex.toLex_lt_toLex

/-- A trip recorded no earlier than every resume of its incident keeps it open, provided no resume
    shadows the incident's last trip. -/
theorem isOpen_of_unresumed {events : List KillSwitchEvent}
    (hids : (events.map (·.eventId)).Nodup) (hshadow : ∀ trip resume,
      ¬ResumeShadowsTrip events trip resume) {trip : TripEvent} (htrip : .trip trip ∈ events)
    (hlatest : ∀ resume, .resume resume ∈ events → resume.incidentId = trip.incidentId →
      resume.occurredAtUtc ≤ trip.occurredAtUtc) :
    IsOpen events trip.incidentId := by
  obtain ⟨lastTrip, hlt, hlti, hltmax⟩ := exists_lastTrip htrip
  rw [← hlti] at hltmax hlatest ⊢
  refine isOpen_of_trip hlt fun resume hresume hincident => ?_
  obtain ⟨lastResume, hlr, hlri, hlrmax⟩ := exists_lastResume hresume
  refine lt_of_le_of_lt (hlrmax resume hresume rfl) ?_
  rw [hincident] at hlri hlrmax
  by_contra hnot
  have hkey := (journalKey_le_iff _ _).mp (not_lt.mp hnot)
  have htime := hlatest lastResume hlr hlri
  have hfirst := (journalKey_le_iff _ _).mp (hltmax trip htrip hlti.symm)
  simp only [KillSwitchEvent.occurredAtUtc, KillSwitchEvent.eventId] at hkey hfirst
  have hinstant : lastTrip.occurredAtUtc = lastResume.occurredAtUtc := by
    rcases hkey with hkey | ⟨hkey, _⟩
    · rcases hfirst with hfirst | ⟨hfirst, _⟩
      · exact absurd htime (not_le.mpr (hfirst.trans hkey))
      · exact absurd htime (not_le.mpr (hfirst.trans_lt hkey))
    · exact hkey
  have hne : lastTrip.eventId ≠ lastResume.eventId := fun hid =>
    nomatch List.inj_on_of_nodup_map hids hlt hlr hid
  have htie : lastTrip.eventId < lastResume.eventId := by
    rcases hkey with hkey | ⟨_, hid⟩
    · exact absurd hinstant hkey.ne
    · exact lt_of_le_of_ne hid hne
  exact hshadow lastTrip lastResume
    ⟨hlt, hlr, hlri, hltmax, hlrmax, hinstant, htie⟩

/-- A shadowed incident is closed although no resume follows its last trip. -/
theorem not_isOpen_of_shadow {events : List KillSwitchEvent} {trip : TripEvent}
    {resume : ResumeEvent} (h : ResumeShadowsTrip events trip resume) :
    ¬IsOpen events trip.incidentId := by
  rw [← h.incident]
  refine not_isOpen_of_resume h.resume_mem fun other hother hincident => ?_
  refine lt_of_le_of_lt (h.lastTrip other hother (hincident.trans h.incident)) ?_
  exact (journalKey_lt_iff _ _).mpr (Or.inr ⟨h.instant, h.tieBreak⟩)

/-- What a journal owes its readers: the state is a function of the set of rows, an unreadable
    journal is halted, and a trip with no strictly later resume of its incident is still open. -/
structure JournalContract (events : List KillSwitchEvent) : Prop where
  orderFree : ∀ other : List KillSwitchEvent, other.Perm events →
    deriveState (.read other) = deriveState (.read events)
  unreadableHalts : ∀ failure, (deriveState (.unreadable failure)).status = .halted
  unresumedOpen : ∀ trip, .trip trip ∈ events →
    (∀ resume, .resume resume ∈ events → resume.incidentId = trip.incidentId →
      resume.occurredAtUtc ≤ trip.occurredAtUtc) →
    IsOpen events trip.incidentId ∧ (deriveState (.read events)).status = .halted

/-- The contract holds of exactly the journals in which no resume shadows a trip. -/
theorem journalContract_iff (events : List KillSwitchEvent)
    (hids : (events.map (·.eventId)).Nodup) :
    JournalContract events ↔ ∀ trip resume, ¬ResumeShadowsTrip events trip resume := by
  constructor
  · rintro ⟨_, _, hclosure⟩ trip resume hshadow
    refine not_isOpen_of_shadow hshadow (hclosure trip hshadow.trip_mem ?_).1
    intro other hother hincident
    rcases (journalKey_le_iff _ _).mp (hshadow.lastResume other hother hincident) with hlt | ⟨heq, _⟩
    · exact hlt.le.trans hshadow.instant.ge
    · exact heq.le.trans hshadow.instant.ge
  · intro hshadow
    refine ⟨fun other hperm => deriveState_of_perm hids hperm, fun _ => rfl, ?_⟩
    intro trip htrip hlatest
    have hopen := isOpen_of_unresumed hids hshadow htrip hlatest
    exact ⟨hopen, (deriveState_halted_iff events).mpr ⟨_, hopen⟩⟩

/-- A trip of incident 7 with an empty book, for evaluating the fold on concrete journals. -/
def sampleTrip (eventId : Uuid) (occurredAtUtc : DateTime) : TripEvent where
  eventId := eventId
  incidentId := 7
  correlationId := 0
  occurredAtUtc := occurredAtUtc
  actor := "risk-engine"
  trigger := ⟨⟨"drawdown", "fraction", 1 / 5, 1 / 10, "daily drawdown"⟩, by decide⟩
  snapshot := ⟨⟨⟨⟨0, [], Dict.empty⟩, by decide⟩, [], [], none, false⟩, by decide⟩
  checked := (by decide : requireText "risk-engine" "actor" = .ok ())

def sampleResume (eventId : Uuid) (occurredAtUtc : DateTime) : ResumeEvent where
  eventId := eventId
  incidentId := 7
  correlationId := 0
  occurredAtUtc := occurredAtUtc
  operatorId := "human:operator"
  rootCause := "the venue was wiped and restored"
  checked := (by decide : (ResumeEventFields.mk 0 0 0 0 "human:operator"
    "the venue was wiped and restored").postInit = .ok ())

theorem journalContract_resumed_later :
    JournalContract [.trip (sampleTrip 1 0), .resume (sampleResume 2 5)] := by
  refine (journalContract_iff _ (by decide)).mpr ?_
  rintro trip resume ⟨htrip, hresume, _, _, _, hinstant, _⟩
  simp only [List.mem_cons, KillSwitchEvent.trip.injEq, KillSwitchEvent.resume.injEq, reduceCtorEq,
    List.not_mem_nil, or_false, false_or] at htrip hresume
  rw [htrip, hresume] at hinstant
  exact absurd hinstant (by decide)

/-- A trip and a resume at one instant, the resume with the greater id: the trip is erased. -/
theorem not_journalContract_simultaneous :
    ¬∀ events : List KillSwitchEvent, (events.map (·.eventId)).Nodup → JournalContract events := by
  intro hall
  have hcontract := hall [.trip (sampleTrip 1 0), .resume (sampleResume 2 0)] (by decide)
  have htraded := (hcontract.unresumedOpen (sampleTrip 1 0) (by simp) (by
    intro resume hmem _
    simp only [List.mem_cons, KillSwitchEvent.resume.injEq, reduceCtorEq, List.not_mem_nil,
      or_false, false_or] at hmem
    rw [hmem]
    decide)).2
  exact absurd htraded (by decide)

end FinanceKing
