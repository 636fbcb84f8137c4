import FinanceKing.Execution.ThrottleRun

/-! What any position of the two windows contains over a whole run, what a ban leaves possible, and
    what a refusal does to the charge records. -/

namespace FinanceKing.Execution

open Lib Governor GovernorRun

/-- Nothing is admitted once a 418 has been observed. -/
def GovernorEvent.RespectsBan : GovernorEvent → GovernorEvent → Prop
  | .observed _ observation, .admitted _ => observation.httpStatus ≠ ipBannedStatus
  | _, _ => True

/-- The charge an admission leaves in the records. -/
def Admission.charged (self : Admission) : Seconds × ℕ := (self.beganAt, self.cost.requestWeight)

/-- The records hold what the windows still contain, and every admission fitted both windows. -/
structure Metered (clocks : Clocks) (profile : VenueProfile) (run : GovernorRun) : Prop where
  profile_eq : run.governor.profile = profile
  charges : KeptLog Prod.fst
    (clocks.monotonicSeconds run.governor.readings - weightWindowSeconds)
    (run.admissions.map Admission.charged) run.governor.weightCharged
  slots : KeptLog id (clocks.monotonicSeconds run.governor.readings - orderWindowSeconds)
    (run.orderAdmissions.map Admission.beganAt) run.governor.orderSlotsUsedAt
  weightWindows : ∀ ceiling, profile.requestWeightPerMinute = some ceiling →
    CheckedWindows weightWindowSeconds Admission.beganAt Admission.checkedAt
      (fun admission => admission.cost.requestWeight) ceiling run.admissions
  slotWindows : CheckedWindows orderWindowSeconds Admission.beganAt Admission.beganAt (fun _ => 1)
    profile.orderRatePer10s run.orderAdmissions
  banned : ∀ atSeconds observation, .observed atSeconds observation ∈ run.history →
    observation.httpStatus = ipBannedStatus → run.governor.banned = true
  respected : run.history.Pairwise GovernorEvent.RespectsBan

theorem admissions_admitted (run : GovernorRun) (governor : Governor) (admission : Admission) :
    (GovernorRun.mk governor (run.history ++ [.admitted admission])).admissions =
      run.admissions ++ [admission] := by
  rw [admissions, List.filterMap_append]
  rfl

theorem orderAdmissions_admitted (run : GovernorRun) (governor : Governor) (admission : Admission) :
    (GovernorRun.mk governor (run.history ++ [.admitted admission])).orderAdmissions =
      run.orderAdmissions ++ if admission.cost.consumesOrderSlot then [admission] else [] := by
  rw [orderAdmissions, admissions_admitted, List.filter_append, List.filter_singleton]
  cases admission.cost.consumesOrderSlot <;> rfl

theorem admissions_of_none (run : GovernorRun) (governor : Governor) {event : GovernorEvent}
    (hevent : event.admission? = none) :
    (GovernorRun.mk governor (run.history ++ [event])).admissions = run.admissions := by
  rw [admissions, List.filterMap_append, List.filterMap_cons_none hevent]
  exact List.append_nil _

section Windows

variable {clocks : Clocks} {profile : VenueProfile} {run : GovernorRun} {governor next : Governor}

theorem metered_start (clocks : Clocks) (profile : VenueProfile) (readings : ℕ) :
    Metered clocks profile (start profile readings) where
  profile_eq := rfl
  charges := keptLog_refl _ _ []
  slots := keptLog_refl _ _ []
  weightWindows := fun _ _ => checkedWindows_nil
  slotWindows := checkedWindows_nil
  banned := by simp [start]
  respected := .nil

/-- Reading the clock keeps the invariant. -/
theorem Metered.aged (h : Metered clocks profile run) (haged : RecordsAged clocks run.governor next)
    (hbanned : run.governor.banned = true → next.banned = true) :
    Metered clocks profile ⟨next, run.history⟩ where
  profile_eq := haged.profile.trans h.profile_eq
  charges := haged.charges h.charges le_rfl
  slots := haged.slots h.slots le_rfl
  weightWindows := h.weightWindows
  slotWindows := h.slotWindows
  banned := fun t o ho hstatus => hbanned (h.banned t o ho hstatus)
  respected := h.respected

/-- So does an event that admits nothing. -/
theorem Metered.concat (h : Metered clocks profile run) {event : GovernorEvent}
    (hevent : event.admission? = none)
    (hban : ∀ t o, event = .observed t o → o.httpStatus = ipBannedStatus →
      run.governor.banned = true) :
    Metered clocks profile ⟨run.governor, run.history ++ [event]⟩ := by
  have hadmissions := admissions_of_none run run.governor hevent
  have horders : (GovernorRun.mk run.governor (run.history ++ [event])).orderAdmissions =
      run.orderAdmissions := by
    rw [orderAdmissions, hadmissions, orderAdmissions]
  refine ⟨h.profile_eq, ?_, ?_, ?_, ?_, fun t o ho hstatus => ?_,
    pairwise_concat h.respected fun earlier _ => ?_⟩
  · rw [hadmissions]
    exact h.charges
  · rw [horders]
    exact h.slots
  · rw [hadmissions]
    exact h.weightWindows
  · rw [horders]
    exact h.slotWindows
  · rcases List.mem_append.mp ho with ho | ho
    · exact h.banned t o ho hstatus
    · exact hban t o (List.mem_singleton.mp ho).symm hstatus
  · cases event with
    | admitted admission => cases hevent
    | refused refusal => cases earlier <;> trivial
    | observed t o => cases earlier <;> trivial

/-- The weight check saw everything the window ending there was charged. -/
theorem Metered.weight_fits (hmono : Monotone clocks.monotonicSeconds)
    (h : Metered clocks profile run) {requestClass : RequestClass} {cost : EndpointCost}
    (hadmitted : Admitted clocks requestClass cost run.governor next) {ceiling : ℕ}
    (hceiling : profile.requestWeightPerMinute = some ceiling) :
    heldWeight weightWindowSeconds Admission.beganAt (fun admission => admission.cost.requestWeight)
      (run.governor.checkedAt clocks) run.admissions + cost.requestWeight ≤ ceiling := by
  rw [← h.profile_eq] at hceiling
  have hchecked : run.governor.checkedAt clocks =
      clocks.monotonicSeconds (run.governor.readings + 1) := by rw [checkedAt, hceiling]
  have hheld := (checkedState_charges hmono hceiling h.charges le_rfl).heldWeight_le Prod.snd
  rw [hchecked]
  calc heldWeight weightWindowSeconds Admission.beganAt
          (fun admission => admission.cost.requestWeight)
          (clocks.monotonicSeconds (run.governor.readings + 1)) run.admissions + cost.requestWeight
      ≤ (run.governor.checkedState clocks).estimate + cost.requestWeight :=
        Nat.add_le_add_right (hheld.trans (localTotal_le_estimate _)) _
    _ ≤ ceiling := (hadmitted.weight ceiling hceiling).trans (weightShare_le ceiling requestClass)

/-- The order check counted everything the window ending there was charged. -/
theorem Metered.slot_fits (h : Metered clocks profile run) {requestClass : RequestClass}
    {cost : EndpointCost} (hadmitted : Admitted clocks requestClass cost run.governor next)
    (hslot : cost.consumesOrderSlot = true) :
    heldWeight orderWindowSeconds Admission.beganAt (fun _ => 1)
      (clocks.monotonicSeconds run.governor.readings) run.orderAdmissions + 1 ≤
        profile.orderRatePer10s := by
  have hheld := (h.slots.expire le_rfl).heldWeight_le fun _ => 1
  rw [List.map_const', List.sum_replicate, smul_eq_mul, mul_one] at hheld
  have hfree := hadmitted.slots hslot
  rw [h.profile_eq] at hfree
  exact (Nat.add_le_add_right hheld 1).trans hfree

/-- A granted admission keeps the invariant: both checks saw the whole of their window. -/
theorem Metered.admitted (hmono : Monotone clocks.monotonicSeconds) (h : Metered clocks profile run)
    {requestClass : RequestClass} {cost : EndpointCost}
    (hadmitted : Admitted clocks requestClass cost run.governor next) :
    Metered clocks profile
      ⟨next, run.history ++ [.admitted ⟨clocks.monotonicSeconds run.governor.readings,
        run.governor.checkedAt clocks, cost⟩]⟩ := by
  have hchecked := aged_checkedState hmono run.governor
  have hpublished := aged_publish hmono ((run.governor.checkedState clocks).charge cost
    (clocks.monotonicSeconds run.governor.readings))
  rw [← hadmitted.next_eq] at hpublished
  refine ⟨?_, ?_, ?_, fun ceiling hceiling => ?_, ?_, fun t o ho hstatus => ?_,
    pairwise_concat h.respected fun earlier hearlier => ?_⟩
  · exact (hpublished.profile.trans hchecked.profile).trans h.profile_eq
  · rw [admissions_admitted, List.map_append]
    exact hpublished.charges ((hchecked.charges h.charges le_rfl).append _) le_rfl
  · have hkept := hchecked.slots h.slots le_rfl
    rw [orderAdmissions_admitted, List.map_append]
    refine hpublished.slots ?_ le_rfl
    by_cases hslot : cost.consumesOrderSlot = true
    · simpa [charge, hslot] using hkept.append [clocks.monotonicSeconds run.governor.readings]
    · simpa [charge, hslot] using hkept
  · rw [admissions_admitted]
    exact checkedWindows_concat (h.weightWindows ceiling hceiling) (h.weight_fits hmono hadmitted hceiling)
  · rw [orderAdmissions_admitted]
    by_cases hslot : cost.consumesOrderSlot = true
    · rw [if_pos hslot]
      exact checkedWindows_concat h.slotWindows (h.slot_fits hadmitted hslot)
    · rw [if_neg hslot, List.append_nil]
      exact h.slotWindows
  · have hbanned := h.banned t o (mem_observed_concat (by simp) ho) hstatus
    exact absurd (hbanned.symm.trans hadmitted.unbanned) (by simp)
  · cases earlier with
    | observed t o =>
      intro hstatus
      have hbanned := h.banned t o hearlier hstatus
      exact absurd (hbanned.symm.trans hadmitted.unbanned) (by simp)
    | admitted admission => trivial
    | refused refusal => trivial

theorem Governor.Refused.recordsAged (hmono : Monotone clocks.monotonicSeconds)
    (h : governor.Refused clocks next) :
    RecordsAged clocks governor next ∧ next.banned = governor.banned := by
  rcases h.aged hmono with haged | ⟨_, haged⟩
  · exact ⟨haged.toRecordsAged, haged.banned⟩
  · exact ⟨⟨haged.profile, haged.readings, haged.charges, haged.slots⟩, haged.banned⟩

theorem Governor.recordsAged_observe (hmono : Monotone clocks.monotonicSeconds) (governor : Governor)
    (metadata : VenueResponseMetadata) :
    RecordsAged clocks governor (governor.observe clocks metadata) := by
  have haged := aged_reconciled hmono governor (parseRateLimitHeaders metadata)
  rw [observe_eq]
  split
  · exact ⟨haged.profile, haged.readings, haged.charges, haged.slots⟩
  · split
    · exact ⟨haged.profile, haged.readings, haged.charges, haged.slots⟩
    · exact haged.toRecordsAged

/-- A ban is never lifted, and a 418 is one. -/
theorem Governor.banned_observe (hmono : Monotone clocks.monotonicSeconds) (governor : Governor)
    (metadata : VenueResponseMetadata)
    (h : governor.banned = true ∨ (parseRateLimitHeaders metadata).httpStatus = ipBannedStatus) :
    (governor.observe clocks metadata).banned = true := by
  have hbanned := (aged_reconciled hmono governor (parseRateLimitHeaders metadata)).banned
  rw [observe_eq]
  by_cases hstatus : (parseRateLimitHeaders metadata).httpStatus = ipBannedStatus
  · rw [if_pos hstatus]
    rfl
  · rw [if_neg hstatus]
    split
    · exact hbanned.trans (h.resolve_right hstatus)
    · exact hbanned.trans (h.resolve_right hstatus)

theorem metered_step (hmono : Monotone clocks.monotonicSeconds) (run : GovernorRun)
    (call : GovernorCall) (h : Metered clocks profile run) :
    Metered clocks profile (run.step clocks call) := by
  rcases step_cases clocks run call with
    ⟨requestClass, endpoint, cost, next, -, hadmitted, hstep⟩ | ⟨refusal, next, hrefused, hstep⟩ |
      ⟨metadata, rfl, hstep⟩ | hstep
  · rw [hstep]
    exact h.admitted hmono hadmitted
  · obtain ⟨haged, hbanned⟩ := hrefused.recordsAged hmono
    have hnext : Metered clocks profile ⟨next, run.history⟩ := h.aged haged fun hb => hbanned.trans hb
    rw [hstep]
    exact hnext.concat rfl fun _ _ hevent => by cases hevent
  · have hnext : Metered clocks profile ⟨run.governor.observe clocks metadata, run.history⟩ :=
      h.aged (run.governor.recordsAged_observe hmono metadata) fun hb =>
        run.governor.banned_observe hmono metadata (.inl hb)
    rw [hstep]
    refine hnext.concat rfl fun t o hevent hstatus => ?_
    obtain ⟨rfl, rfl⟩ := GovernorEvent.observed.inj hevent
    exact run.governor.banned_observe hmono metadata (.inr hstatus)
  · rw [hstep]
    exact h.aged (aged_refresh hmono run.governor).toRecordsAged id

/-- A refusal only drops from the charge records what had left its window by the last reading taken. -/
theorem Governor.Refused.kept (hmono : Monotone clocks.monotonicSeconds)
    (h : governor.Refused clocks next) :
    KeptLog Prod.fst (clocks.monotonicSeconds (next.readings - 1) - weightWindowSeconds)
        governor.weightCharged next.weightCharged ∧
      KeptLog id (clocks.monotonicSeconds (next.readings - 1) - orderWindowSeconds)
        governor.orderSlotsUsedAt next.orderSlotsUsedAt := by
  have hcharges := (keptLog_refl Prod.fst _ governor.weightCharged).expire
    (le_refl (clocks.monotonicSeconds governor.readings - weightWindowSeconds))
  have hslots := (keptLog_refl id _ governor.orderSlotsUsedAt).expire
    (le_refl (clocks.monotonicSeconds governor.readings - orderWindowSeconds))
  rcases h with rfl | rfl | ⟨-, rfl | rfl⟩
  · exact ⟨keptLog_refl _ _ _, keptLog_refl _ _ _⟩
  · exact ⟨hcharges, hslots⟩
  · exact ⟨hcharges, hslots⟩
  · unfold checkedState
    split
    · exact ⟨hcharges, hslots⟩
    · have hlater := hmono (Nat.le_succ governor.readings)
      exact ⟨hcharges.expire (sub_le_sub_right hlater _), hslots.expire (sub_le_sub_right hlater _)⟩

end Windows

def cancelRequest (weight : ℕ) : GovernorCall := .admitRequest .order "privateDeleteOrder" ⟨weight, false⟩

/-- A clock that moves between the readings of one admission. -/
def straddlingClocks : Clocks :=
  { monotonicSeconds := fun n => if n = 0 then 0 else if n < 3 then 1 else if n = 3 then 119 / 2 else 121 / 2
    nowUtc := fun n => n }

theorem straddlingClocks_mono : Monotone straddlingClocks.monotonicSeconds := by
  refine monotone_nat_of_le_succ fun n => ?_
  match n with
  | 0 | 1 | 2 | 3 => decide +kernel
  | n + 4 =>
    have hlast : ∀ m, straddlingClocks.monotonicSeconds (m + 4) = 121 / 2 := by
      intro m
      simp [straddlingClocks]
    rw [hlast n, Nat.add_right_comm, hlast (n + 1)]

end FinanceKing.Execution
