import FinanceKing.Execution.ThrottleSpec
import FinanceKing.Lib.Fold

/-! Runs of one governor: the calls its users make in the order they reach it, and what each one did.
    The laws are over whole runs: how long a 429 holds admissions back, and what any position of the
    two windows contains. -/

namespace FinanceKing.Execution

open Lib

/-- A call on the governor. -/
inductive GovernorCall where
  | admitRequest (requestClass : RequestClass) (endpoint : String) (cost : EndpointCost)
  | observe (metadata : VenueResponseMetadata)
  | usedRequestWeight
  | ordersInWindow

/-- An admitted request: the reading its admission began with, and the one its last check took. -/
structure Admission where
  beganAt : Seconds
  checkedAt : Seconds
  cost : EndpointCost
  deriving DecidableEq

/-- What a call did. -/
inductive GovernorEvent where
  | admitted (admission : Admission)
  | refused (refusal : PyError)
  | observed (atSeconds : Seconds) (observation : RateLimitObservation)
  deriving DecidableEq

def GovernorEvent.admission? : GovernorEvent → Option Admission
  | .admitted admission => some admission
  | _ => none

/-- The reading the last check of an admission takes. -/
def Governor.checkedAt (self : Governor) (clocks : Clocks) : Seconds :=
  match self.profile.requestWeightPerMinute with
  | none => clocks.monotonicSeconds self.readings
  | some _ => clocks.monotonicSeconds (self.readings + 1)

/-- A governor and what its calls did so far, oldest first. -/
structure GovernorRun where
  governor : Governor
  history : List GovernorEvent

namespace GovernorRun

def start (profile : VenueProfile) (readings : ℕ) : GovernorRun :=
  { governor := Governor.init profile readings
    history := [] }

def step (clocks : Clocks) (self : GovernorRun) : GovernorCall → GovernorRun
  | .admitRequest requestClass endpoint cost =>
    match self.governor.admitRequest clocks requestClass endpoint cost with
    | (.ok (), governor) =>
      { governor := governor
        history := self.history ++
          [.admitted
            { beganAt := clocks.monotonicSeconds self.governor.readings
              checkedAt := self.governor.checkedAt clocks
              cost := cost }] }
    | (.error refusal, governor) =>
      { governor := governor
        history := self.history ++ [.refused refusal] }
  | .observe metadata =>
    { governor := self.governor.observe clocks metadata
      history := self.history ++
        [.observed (clocks.monotonicSeconds self.governor.readings) (parseRateLimitHeaders metadata)] }
  | .usedRequestWeight => { self with governor := (self.governor.usedRequestWeight clocks).2 }
  | .ordersInWindow => { self with governor := (self.governor.ordersInWindow clocks).2 }

/-- The run a sequence of calls makes. -/
def run (clocks : Clocks) (self : GovernorRun) (calls : List GovernorCall) : GovernorRun :=
  calls.foldl (step clocks) self

def admissions (self : GovernorRun) : List Admission := self.history.filterMap (·.admission?)

def orderAdmissions (self : GovernorRun) : List Admission :=
  self.admissions.filter fun admission => admission.cost.consumesOrderSlot

end GovernorRun

open Governor GovernorRun

/-! ### What a step does -/

/-- A step grants a request, or refuses one, or observes a response, or only reads the clock. -/
theorem step_cases (clocks : Clocks) (run : GovernorRun) (call : GovernorCall) :
    (∃ requestClass endpoint cost next, call = .admitRequest requestClass endpoint cost ∧
        Admitted clocks requestClass cost run.governor next ∧
        run.step clocks call =
          ⟨next, run.history ++ [.admitted ⟨clocks.monotonicSeconds run.governor.readings,
            run.governor.checkedAt clocks, cost⟩]⟩) ∨
      (∃ refusal next, run.governor.Refused clocks next ∧
        run.step clocks call = ⟨next, run.history ++ [.refused refusal]⟩) ∨
      (∃ metadata, call = .observe metadata ∧
        run.step clocks call =
          ⟨run.governor.observe clocks metadata, run.history ++
            [.observed (clocks.monotonicSeconds run.governor.readings)
              (parseRateLimitHeaders metadata)]⟩) ∨
      run.step clocks call = ⟨run.governor.refresh clocks, run.history⟩ := by
  cases call with
  | admitRequest requestClass endpoint cost =>
    rcases run.governor.admitRequest_cases clocks requestClass endpoint cost with
      ⟨refusal, next, hcall, hrefused⟩ | ⟨next, hcall, hadmitted⟩
    · exact .inr (.inl ⟨refusal, next, hrefused, by rw [step, hcall]⟩)
    · exact .inl ⟨requestClass, endpoint, cost, next, rfl, hadmitted, by rw [step, hcall]⟩
  | observe metadata => exact .inr (.inr (.inl ⟨metadata, rfl, rfl⟩))
  | usedRequestWeight => exact .inr (.inr (.inr rfl))
  | ordersInWindow => exact .inr (.inr (.inr rfl))

/-- A refusal ages the records, and forgets a cool-down only once it has elapsed. -/
theorem Governor.Refused.aged {clocks : Clocks} (hmono : Monotone clocks.monotonicSeconds)
    {governor next : Governor} (h : governor.Refused clocks next) :
    Aged clocks governor next ∨
      governor.Elapsed clocks ∧ Aged clocks { governor with refuseUntilSeconds := none } next := by
  rcases h with rfl | rfl | ⟨helapsed, rfl | rfl⟩
  · exact .inl (aged_refl hmono _)
  · exact .inl (aged_refresh hmono _)
  · exact .inr ⟨helapsed, aged_refresh hmono { governor with refuseUntilSeconds := none }⟩
  · exact .inr ⟨helapsed, aged_checkedState hmono governor⟩

/-- A granted admission ages the records and bills itself, once no cool-down is pending. -/
theorem Governor.Admitted.aged {clocks : Clocks} (hmono : Monotone clocks.monotonicSeconds)
    {requestClass : RequestClass} {cost : EndpointCost} {governor next : Governor}
    (h : Admitted clocks requestClass cost governor next) :
    ∃ checked, Aged clocks { governor with refuseUntilSeconds := none } checked ∧
      Aged clocks (checked.charge cost (clocks.monotonicSeconds governor.readings)) next := by
  refine ⟨_, aged_checkedState hmono governor, ?_⟩
  rw [h.next_eq]
  exact aged_publish hmono _

/-! ### Cool-downs -/

/-- Nothing may be admitted before the resume time: it has passed, or a pending cool-down covers it. -/
def Governor.CoolsUntil (self : Governor) (clocks : Clocks) (resumeAt : Seconds) : Prop :=
  resumeAt ≤ clocks.monotonicSeconds self.readings ∨
    ∃ refuseUntil, self.refuseUntilSeconds = some refuseUntil ∧ resumeAt ≤ refuseUntil

/-- A later admission begins no earlier than the 429 asked. -/
def GovernorEvent.RespectsCooldown : GovernorEvent → GovernorEvent → Prop
  | .observed atSeconds observation, .admitted admission =>
    observation.httpStatus = tooManyRequestsStatus →
      atSeconds + cooldownSeconds observation ≤ admission.beganAt
  | _, _ => True

instance : DecidableRel GovernorEvent.RespectsCooldown
  | .observed atSeconds observation, .admitted admission =>
    inferInstanceAs (Decidable (observation.httpStatus = tooManyRequestsStatus →
      atSeconds + cooldownSeconds observation ≤ admission.beganAt))
  | .observed _ _, .refused _ => .isTrue trivial
  | .observed _ _, .observed _ _ => .isTrue trivial
  | .admitted _, _ => .isTrue trivial
  | .refused _, _ => .isTrue trivial

/-- An observed 429 asks for no earlier a resume time than the cool-down already pending. -/
def Governor.KeepsCooldown (clocks : Clocks) (self : Governor) : GovernorCall → Prop
  | .observe metadata =>
    (parseRateLimitHeaders metadata).httpStatus = tooManyRequestsStatus →
      ∀ refuseUntil, self.refuseUntilSeconds = some refuseUntil →
        refuseUntil ≤
          clocks.monotonicSeconds self.readings + cooldownSeconds (parseRateLimitHeaders metadata)
  | _ => True

/-- Every 429 seen so far is still covered, and was respected by every admission since. -/
structure Cooled (clocks : Clocks) (run : GovernorRun) : Prop where
  pending : ∀ atSeconds observation, .observed atSeconds observation ∈ run.history →
    observation.httpStatus = tooManyRequestsStatus →
    run.governor.CoolsUntil clocks (atSeconds + cooldownSeconds observation)
  respected : run.history.Pairwise GovernorEvent.RespectsCooldown

section Cooldowns

variable {clocks : Clocks} {governor next : Governor} {run : GovernorRun}

theorem Governor.CoolsUntil.aged (hmono : Monotone clocks.monotonicSeconds) {resumeAt : Seconds}
    (h : governor.CoolsUntil clocks resumeAt) (haged : Aged clocks governor next) :
    next.CoolsUntil clocks resumeAt := by
  rcases h with hpassed | ⟨refuseUntil, hpending, hle⟩
  · exact .inl (hpassed.trans (hmono haged.readings))
  · exact .inr ⟨refuseUntil, haged.refuseUntil.trans hpending, hle⟩

/-- Once no cool-down is pending, every resume time has passed. -/
theorem Governor.CoolsUntil.passed {resumeAt : Seconds} (h : governor.CoolsUntil clocks resumeAt)
    (helapsed : governor.Elapsed clocks) : resumeAt ≤ clocks.monotonicSeconds governor.readings := by
  rcases h with hpassed | ⟨refuseUntil, hpending, hle⟩
  · exact hpassed
  · exact hle.trans (helapsed refuseUntil hpending)

theorem Governor.CoolsUntil.elapsed_aged (hmono : Monotone clocks.monotonicSeconds)
    {resumeAt : Seconds} (h : governor.CoolsUntil clocks resumeAt) (helapsed : governor.Elapsed clocks)
    (haged : Aged clocks { governor with refuseUntilSeconds := none } next) :
    next.CoolsUntil clocks resumeAt :=
  .inl ((h.passed helapsed).trans (hmono haged.readings))

/-- An observation that does not cut a pending cool-down short keeps every resume time covered. -/
theorem Governor.CoolsUntil.observe (hmono : Monotone clocks.monotonicSeconds) {resumeAt : Seconds}
    {metadata : VenueResponseMetadata} (h : governor.CoolsUntil clocks resumeAt)
    (hkeeps : governor.KeepsCooldown clocks (.observe metadata)) :
    (governor.observe clocks metadata).CoolsUntil clocks resumeAt := by
  have hreconciled : (governor.reconciled clocks (parseRateLimitHeaders metadata)).CoolsUntil clocks
      resumeAt := h.aged hmono (aged_reconciled hmono governor _)
  rw [observe_eq]
  split
  · exact hreconciled
  · split
    · next hstatus =>
      rcases h with hpassed | ⟨refuseUntil, hpending, hle⟩
      · exact .inl (hpassed.trans (hmono (aged_reconciled hmono governor _).readings))
      · exact .inr ⟨_, rfl, hle.trans (hkeeps hstatus refuseUntil hpending)⟩
    · exact hreconciled

/-- An observed 429 is covered from then on. -/
theorem coolsUntil_observe (clocks : Clocks) (governor : Governor) (metadata : VenueResponseMetadata)
    (hstatus : (parseRateLimitHeaders metadata).httpStatus = tooManyRequestsStatus) :
    (governor.observe clocks metadata).CoolsUntil clocks
      (clocks.monotonicSeconds governor.readings + cooldownSeconds (parseRateLimitHeaders metadata)) := by
  have hnotBan : (parseRateLimitHeaders metadata).httpStatus ≠ ipBannedStatus := by
    rw [hstatus]
    decide
  rw [observe_eq, if_neg hnotBan, if_pos hstatus]
  exact .inr ⟨_, rfl, le_rfl⟩

theorem cooled_start (clocks : Clocks) (profile : VenueProfile) (readings : ℕ) :
    Cooled clocks (start profile readings) where
  pending := by simp [start]
  respected := .nil

theorem mem_observed_concat {history : List GovernorEvent} {event : GovernorEvent}
    {atSeconds : Seconds} {observation : RateLimitObservation} (hevent : ∀ t o, event ≠ .observed t o)
    (h : .observed atSeconds observation ∈ history ++ [event]) :
    .observed atSeconds observation ∈ history := by
  rcases List.mem_append.mp h with h | h
  · exact h
  · exact absurd (List.mem_singleton.mp h).symm (hevent _ _)

/-- One call keeps the invariant unless it is a 429 that cuts a pending cool-down short. -/
theorem cooled_step (hmono : Monotone clocks.monotonicSeconds) (call : GovernorCall)
    (h : Cooled clocks run) (hkeeps : run.governor.KeepsCooldown clocks call) :
    Cooled clocks (run.step clocks call) := by
  rcases step_cases clocks run call with
    ⟨requestClass, endpoint, cost, next, -, hadmitted, hstep⟩ | ⟨refusal, next, hrefused, hstep⟩ |
      ⟨metadata, rfl, hstep⟩ | hstep
  · obtain ⟨checked, hchecked, hnext⟩ := hadmitted.aged hmono
    rw [hstep]
    refine ⟨fun t o ho hstatus => ?_, pairwise_concat h.respected ?_⟩
    · have hcools := h.pending t o (mem_observed_concat (by simp) ho) hstatus
      have hpassed := hcools.elapsed_aged hmono hadmitted.elapsed hchecked
      have hcharged : (checked.charge cost (clocks.monotonicSeconds run.governor.readings)).CoolsUntil
          clocks (t + cooldownSeconds o) := hpassed
      exact hcharged.aged hmono hnext
    · intro earlier hearlier
      cases earlier with
      | admitted admission => trivial
      | refused refusal => trivial
      | observed t o =>
        exact fun hstatus => (h.pending t o hearlier hstatus).passed hadmitted.elapsed
  · rw [hstep]
    refine ⟨fun t o ho hstatus => ?_, pairwise_concat h.respected ?_⟩
    · have hcools := h.pending t o (mem_observed_concat (by simp) ho) hstatus
      rcases hrefused.aged hmono with haged | ⟨helapsed, haged⟩
      · exact hcools.aged hmono haged
      · exact hcools.elapsed_aged hmono helapsed haged
    · intro earlier _
      cases earlier <;> trivial
  · rw [hstep]
    refine ⟨fun t o ho hstatus => ?_, pairwise_concat h.respected ?_⟩
    · rcases List.mem_append.mp ho with ho | ho
      · exact (h.pending t o ho hstatus).observe hmono hkeeps
      · obtain ⟨rfl, rfl⟩ := GovernorEvent.observed.inj (List.mem_singleton.mp ho)
        exact coolsUntil_observe clocks run.governor metadata hstatus
    · intro earlier _
      cases earlier <;> trivial
  · rw [hstep]
    exact ⟨fun t o ho hstatus => (h.pending t o ho hstatus).aged hmono (aged_refresh hmono _),
      h.respected⟩

end Cooldowns

/-- A venue that allows `orders` orders in ten seconds and `weight` a minute. -/
def smallProfile (orders weight : ℕ) (horders : 0 < orders) (hweight : 0 < weight) : VenueProfile :=
  { venueId := .binanceSpotTestnet
    market := .spot
    orderRatePer10s := orders
    requestWeightPerMinute := some weight
    orderRate_pos := horders
    requestWeight_pos := fun _ h => Option.some.inj h ▸ hweight }

/-- A monotonic clock that moves one second between readings. -/
def tickingClocks : Clocks :=
  { monotonicSeconds := fun n => n
    nowUtc := fun n => n }

theorem tickingClocks_mono : Monotone tickingClocks.monotonicSeconds := Nat.mono_cast

def tooManyRequests (retryAfter : String) : VenueResponseMetadata :=
  { httpStatus := tooManyRequestsStatus
    headers := Dict.empty.set retryAfterHeader retryAfter }

def oneOrder : GovernorCall := .admitRequest .order "privatePostOrder" ⟨1, true⟩

end FinanceKing.Execution
