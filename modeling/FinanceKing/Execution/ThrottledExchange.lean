import FinanceKing.Execution.ThrottleRun
import FinanceKing.Execution.ThrottleWindows

/-! The exchange views that share one governor, with the calls they have in flight and the venue that
    meters them. A call is admitted and billed at once; the venue receives it later or never, answers
    it later or never, and its answer reaches the one slot that every view reads its last response
    from. What happens at the venue takes the next instant of the clock, as a reading does. -/

namespace FinanceKing.Execution

open Lib

/-- An answer of the venue, and the instant the venue made it. -/
structure VenueReport where
  metadata : VenueResponseMetadata
  reportedAt : ℕ
  deriving DecidableEq

/-- The used weight a response reports, when it can be read. -/
def VenueReport.usedWeight (self : VenueReport) : Option ℕ :=
  (parseRateLimitHeaders self.metadata).usedRequestWeight1m

/-- A call that was admitted, and how far it got. -/
structure VenueRequest where
  requestWeight : ℕ
  chargedAt : Seconds
  receivedAt : Option ℕ
  report : Option VenueReport
  finished : Bool
  deriving DecidableEq

/-- The venue counts a request for a minute from the instant it received it. -/
def VenueRequest.countedAt (clocks : Clocks) (instant : ℕ) (self : VenueRequest) : Bool :=
  match self.receivedAt with
  | none => false
  | some received =>
    received < instant ∧
      clocks.monotonicSeconds instant - weightWindowSeconds < clocks.monotonicSeconds received

/-- The governor, the calls made through it, the slot of the last response, and the report whose
    figure the governor took last. -/
structure ThrottledExchange where
  governor : Governor
  requests : List VenueRequest
  lastResponse : Option VenueReport
  observed : Option VenueReport
  deriving DecidableEq

/-- What can happen next. -/
inductive ExchangeAction where
  | call (requestClass : RequestClass) (endpoint : String)
  | receive (request : ℕ)
  | respond (request : ℕ) (metadata : VenueResponseMetadata)
  | deliver (request : ℕ)
  | finish (request : ℕ)
  | usedRequestWeight
  | ordersInWindow

namespace ThrottledExchange

def start (profile : VenueProfile) (readings : ℕ) : ThrottledExchange :=
  { governor := Governor.init profile readings
    requests := []
    lastResponse := none
    observed := none }

/-- The weight the venue has received in the minute up to an instant. -/
def venueUsed (clocks : Clocks) (self : ThrottledExchange) (instant : ℕ) : ℕ :=
  weightOf VenueRequest.requestWeight (fun request => request.countedAt clocks instant) self.requests

/-- Something happens at the venue and takes the next instant. -/
def atVenue (self : ThrottledExchange) (requests : List VenueRequest) : ThrottledExchange :=
  { self with
    governor := { self.governor with readings := self.governor.readings + 1 }
    requests := requests }

/-- The synchronous half of a call: its cost is looked up, and it is admitted or refused. -/
def call (clocks : Clocks) (self : ThrottledExchange) (requestClass : RequestClass)
    (endpoint : String) : ThrottledExchange :=
  match costOf self.governor.profile requestClass endpoint with
  | .error _ => self
  | .ok cost =>
    match self.governor.admitRequest clocks requestClass endpoint cost with
    | (.error _, governor) => { self with governor := governor }
    | (.ok (), governor) =>
      { self with
        governor := governor
        requests := self.requests ++
          [{ requestWeight := cost.requestWeight
             chargedAt := clocks.monotonicSeconds self.governor.readings
             receivedAt := none
             report := none
             finished := false }] }

/-- The venue receives a request it has not received yet. -/
def receive (self : ThrottledExchange) (index : ℕ) : ThrottledExchange :=
  match self.requests[index]? with
  | some request =>
    match request.receivedAt with
    | none =>
      self.atVenue
        (self.requests.set index { request with receivedAt := some self.governor.readings })
    | some _ => self
  | none => self

/-- The venue answers a request it has received, with the weight it has received in the minute. -/
def respond (clocks : Clocks) (self : ThrottledExchange) (index : ℕ)
    (metadata : VenueResponseMetadata) : ThrottledExchange :=
  let report : VenueReport := ⟨metadata, self.governor.readings⟩
  match self.requests[index]? with
  | some request =>
    if request.receivedAt.isSome ∧ request.report = none ∧
        report.usedWeight = some (self.venueUsed clocks self.governor.readings) then
      self.atVenue (self.requests.set index { request with report := some report })
    else self
  | none => self

/-- An answer reaches the session of a call that is still waiting, which records it. -/
def deliver (self : ThrottledExchange) (index : ℕ) : ThrottledExchange :=
  match self.requests[index]? with
  | some request =>
    match request.report with
    | some report => if request.finished then self else { self with lastResponse := some report }
    | none => self
  | none => self

/-- A call returns or fails, and the governor observes whatever response was recorded last. -/
def finish (clocks : Clocks) (self : ThrottledExchange) (index : ℕ) : ThrottledExchange :=
  match self.requests[index]? with
  | some request =>
    if request.finished then self
    else
      let requests := self.requests.set index { request with finished := true }
      match self.lastResponse with
      | none => { self with requests := requests }
      | some report =>
        { self with
          governor := self.governor.observe clocks report.metadata
          requests := requests
          observed := some report }
  | none => self

/-- One thing happens; what cannot happen changes nothing. -/
def step (clocks : Clocks) (self : ThrottledExchange) : ExchangeAction → ThrottledExchange
  | .call requestClass endpoint => self.call clocks requestClass endpoint
  | .receive index => self.receive index
  | .respond index metadata => self.respond clocks index metadata
  | .deliver index => self.deliver index
  | .finish index => self.finish clocks index
  | .usedRequestWeight => { self with governor := (self.governor.usedRequestWeight clocks).2 }
  | .ordersInWindow => { self with governor := (self.governor.ordersInWindow clocks).2 }

def run (clocks : Clocks) (self : ThrottledExchange) (actions : List ExchangeAction) :
    ThrottledExchange :=
  actions.foldl (step clocks) self

/-- Every request the venue still counts at the instant is still charged: it was admitted within the
    minute. -/
def ChargesCover (clocks : Clocks) (self : ThrottledExchange) (instant : ℕ) : Prop :=
  ∀ request ∈ self.requests, request.countedAt clocks instant →
    clocks.monotonicSeconds instant - weightWindowSeconds < request.chargedAt

/-- The figure held was taken within the minute, and no request the venue still counts reached it after
    it made that figure unless the request was admitted after the figure was taken. -/
def ReportCovers (clocks : Clocks) (self : ThrottledExchange) (instant : ℕ) : Prop :=
  ∃ used observedAt report, self.governor.observedUsedWeight = some used ∧
    self.governor.observedAtSeconds = some observedAt ∧ self.observed = some report ∧
    clocks.monotonicSeconds instant - weightWindowSeconds < observedAt ∧
    ∀ request ∈ self.requests, request.countedAt clocks instant →
      ∀ received, request.receivedAt = some received → report.reportedAt ≤ received →
        observedAt ≤ request.chargedAt

end ThrottledExchange

end FinanceKing.Execution

/-! When the used-weight estimate covers what the venue has received: the invariant of every
    interleaving, and the two ways an estimate can be large enough. -/

namespace FinanceKing.Execution

open Lib Governor

/-! ### What the clock and the charges leave of the observation -/

namespace Governor

/-- The observation held is the one held before, or has been forgotten. -/
def ObservationKept (governor next : Governor) : Prop :=
  next.observedUsedWeight = none ∨
    next.observedUsedWeight = governor.observedUsedWeight ∧
      next.observedAtSeconds = governor.observedAtSeconds

variable {governor next last : Governor} {clocks : Clocks}

theorem observationKept_of_eq (hweight : next.observedUsedWeight = governor.observedUsedWeight)
    (hat : next.observedAtSeconds = governor.observedAtSeconds) : ObservationKept governor next :=
  .inr ⟨hweight, hat⟩

theorem ObservationKept.trans (h : ObservationKept governor next) (h' : ObservationKept next last) :
    ObservationKept governor last := by
  rcases h' with hnone | ⟨hweight, hat⟩
  · exact .inl hnone
  · rcases h with hnone | ⟨hweight', hat'⟩
    · exact .inl (hweight.trans hnone)
    · exact .inr ⟨hweight.trans hweight', hat.trans hat'⟩

theorem observationKept_refresh (governor : Governor) (clocks : Clocks) :
    ObservationKept governor (governor.refresh clocks) := by
  by_cases hforgotten : ∃ at_ ∈ governor.observedAtSeconds,
      at_ ≤ clocks.monotonicSeconds governor.readings - weightWindowSeconds
  · exact .inl (if_pos hforgotten)
  · exact .inr ⟨if_neg hforgotten, if_neg hforgotten⟩

theorem observationKept_publish (governor : Governor) (clocks : Clocks) :
    ObservationKept governor (governor.publishWeightUtilisation clocks) := by
  unfold publishWeightUtilisation
  split
  · exact observationKept_of_eq rfl rfl
  · exact observationKept_refresh governor clocks

theorem observationKept_entered (governor : Governor) (clocks : Clocks) :
    ObservationKept governor (governor.entered clocks) :=
  (observationKept_refresh governor clocks).trans (observationKept_of_eq rfl rfl)

theorem observationKept_checkedState (governor : Governor) (clocks : Clocks) :
    ObservationKept governor (governor.checkedState clocks) := by
  unfold checkedState
  split
  · exact observationKept_entered governor clocks
  · exact (observationKept_entered governor clocks).trans (observationKept_refresh _ clocks)

theorem Refused.observationKept (h : governor.Refused clocks next) : ObservationKept governor next := by
  rcases h with rfl | rfl | ⟨-, rfl | rfl⟩
  · exact observationKept_of_eq rfl rfl
  · exact observationKept_refresh governor clocks
  · exact observationKept_entered governor clocks
  · exact observationKept_checkedState governor clocks

theorem Admitted.observationKept {requestClass : RequestClass} {cost : EndpointCost}
    (h : Admitted clocks requestClass cost governor next) : ObservationKept governor next := by
  have hcharged : ObservationKept (governor.checkedState clocks) ((governor.checkedState clocks).charge
      cost (clocks.monotonicSeconds governor.readings)) := observationKept_of_eq rfl rfl
  rw [h.next_eq]
  exact ((observationKept_checkedState governor clocks).trans hcharged).trans
    (observationKept_publish _ clocks)

/-- A fresh observation survives a reading. -/
theorem refresh_observed {observedAt : Seconds} (hat : governor.observedAtSeconds = some observedAt)
    (hfresh : clocks.monotonicSeconds governor.readings - weightWindowSeconds < observedAt) :
    (governor.refresh clocks).observedUsedWeight = governor.observedUsedWeight ∧
      (governor.refresh clocks).observedAtSeconds = governor.observedAtSeconds := by
  have hkept : ¬∃ at_ ∈ governor.observedAtSeconds,
      at_ ≤ clocks.monotonicSeconds governor.readings - weightWindowSeconds := by
    rintro ⟨at_, hmem, hle⟩
    obtain rfl := Option.some.inj (hat.symm.trans hmem)
    exact not_le.mpr hfresh hle
  exact ⟨if_neg hkept, if_neg hkept⟩

/-- A header is read, or not there, or named as malformed. -/
theorem parseNonNegativeHeader_cases (headers : Dict String String) (name : String) :
    (∃ value, parseNonNegativeHeader headers name = (some value, [])) ∨
      ∃ malformed, parseNonNegativeHeader headers name = (none, malformed) ∧
        ∀ other ∈ malformed, other = name := by
  unfold parseNonNegativeHeader
  split
  · exact .inr ⟨[], rfl, by simp⟩
  · dsimp only
    split
    · exact .inr ⟨[name], rfl, by simp⟩
    · exact .inl ⟨_, rfl⟩

/-- A readable used-weight header is not reported as malformed. -/
theorem usedWeight_not_malformed {metadata : VenueResponseMetadata} {used : ℕ}
    (h : (parseRateLimitHeaders metadata).usedRequestWeight1m = some used) :
    usedWeightHeader ∉ (parseRateLimitHeaders metadata).malformedHeaders := by
  have hnames : usedWeightHeader ≠ retryAfterHeader := by decide
  simp only [parseRateLimitHeaders] at h ⊢
  rw [List.mem_append, not_or]
  constructor
  · rcases parseNonNegativeHeader_cases metadata.headers usedWeightHeader with
      ⟨value, hread⟩ | ⟨malformed, hread, -⟩
    · rw [hread]
      exact List.not_mem_nil
    · rw [hread] at h
      cases h
  · rcases parseNonNegativeHeader_cases metadata.headers retryAfterHeader with
      ⟨value, hread⟩ | ⟨malformed, hread, hname⟩
    · rw [hread]
      exact List.not_mem_nil
    · rw [hread]
      exact fun hmem => hnames (hname _ hmem)

/-- After a readable report, the governor holds its figure or has forgotten it. -/
theorem observe_observed (governor : Governor) (clocks : Clocks) {metadata : VenueResponseMetadata}
    {used : ℕ} (h : (parseRateLimitHeaders metadata).usedRequestWeight1m = some used) :
    (governor.observe clocks metadata).observedUsedWeight = none ∨
      (governor.observe clocks metadata).observedUsedWeight = some used := by
  have hreconciled : (governor.reconciled clocks (parseRateLimitHeaders metadata)).observedUsedWeight =
        none ∨
      (governor.reconciled clocks (parseRateLimitHeaders metadata)).observedUsedWeight = some used := by
    rw [reconciled, if_neg (usedWeight_not_malformed h), h]
    dsimp only
    rcases observationKept_publish
      { governor with
        readings := governor.readings + 1
        observedUsedWeight := some used
        observedAtSeconds := some (clocks.monotonicSeconds governor.readings) } clocks with hnone | hsame
    · exact .inl hnone
    · exact .inr hsame.1
  rw [observe_eq]
  split
  · exact hreconciled
  · split
    · exact hreconciled
    · exact hreconciled

end Governor

/-! ### The invariant -/

/-- The charge a request left in the records. -/
def VenueRequest.charged (self : VenueRequest) : Seconds × ℕ := (self.chargedAt, self.requestWeight)

namespace ThrottledExchange

/-- A report made earlier, with the figure the venue had then. -/
def Truthful (clocks : Clocks) (self : ThrottledExchange) (report : VenueReport) : Prop :=
  report.reportedAt < self.governor.readings ∧
    report.usedWeight = some (self.venueUsed clocks report.reportedAt)

end ThrottledExchange

open ThrottledExchange

/-- The charges are those of the requests, what was received lies in the past, and every report still
    about, the one last observed too, is truthful. -/
structure Tracked (clocks : Clocks) (s : ThrottledExchange) : Prop where
  charges : KeptLog Prod.fst (clocks.monotonicSeconds s.governor.readings - weightWindowSeconds)
    (s.requests.map VenueRequest.charged) s.governor.weightCharged
  received : ∀ request ∈ s.requests, ∀ received, request.receivedAt = some received →
    received < s.governor.readings
  reports : ∀ request ∈ s.requests, ∀ report, request.report = some report → s.Truthful clocks report
  last : ∀ report, s.lastResponse = some report → s.Truthful clocks report
  figure : ∀ used, s.governor.observedUsedWeight = some used →
    ∃ report, s.observed = some report ∧ report.usedWeight = some used
  observed : ∀ report, s.observed = some report → s.Truthful clocks report

section Tracked

variable {clocks : Clocks} {s : ThrottledExchange} {next : Governor}

theorem tracked_start (clocks : Clocks) (profile : VenueProfile) (readings : ℕ) :
    Tracked clocks (start profile readings) where
  charges := keptLog_refl _ _ []
  received := by simp [start]
  reports := by simp [start]
  last := by simp [start]
  figure := by simp [start, Governor.init]
  observed := by simp [start]

theorem ThrottledExchange.Truthful.later {report : VenueReport} (h : s.Truthful clocks report)
    (hle : s.governor.readings ≤ next.readings) :
    ({ s with governor := next } : ThrottledExchange).Truthful clocks report :=
  ⟨h.1.trans_le hle, h.2⟩

/-- Readings of the clock keep the invariant. -/
theorem Tracked.aged (h : Tracked clocks s) (haged : RecordsAged clocks s.governor next)
    (hobserved : ObservationKept s.governor next) : Tracked clocks { s with governor := next } where
  charges := haged.charges h.charges le_rfl
  received := fun request hrequest received hreceived =>
    (h.received request hrequest received hreceived).trans_le haged.readings
  reports := fun request hrequest report hreport =>
    (h.reports request hrequest report hreport).later haged.readings
  last := fun report hreport => (h.last report hreport).later haged.readings
  figure := fun used hused => by
    rcases hobserved with hnone | ⟨hweight, -⟩
    · cases hnone.symm.trans hused
    · exact h.figure used (hweight.symm.trans hused)
  observed := fun report hreport => (h.observed report hreport).later haged.readings

/-- Changing one request, but not its charge nor what the venue counted of it so far. -/
theorem Tracked.set (h : Tracked clocks s) {index : ℕ} {request changed : VenueRequest}
    (hget : s.requests[index]? = some request) (hcharged : changed.charged = request.charged)
    (hcounted : ∀ instant < s.governor.readings,
      changed.countedAt clocks instant = request.countedAt clocks instant)
    (hreceived : ∀ received, changed.receivedAt = some received → received < s.governor.readings)
    (hreport : ∀ report, changed.report = some report → s.Truthful clocks report) :
    Tracked clocks { s with requests := s.requests.set index changed } := by
  have htruthful : ∀ report, s.Truthful clocks report →
      ({ s with requests := s.requests.set index changed } : ThrottledExchange).Truthful clocks
        report := by
    intro report hold
    have hsame : ({ s with requests := s.requests.set index changed } : ThrottledExchange).venueUsed
        clocks report.reportedAt = s.venueUsed clocks report.reportedAt := by
      have hweight : changed.requestWeight = request.requestWeight := congrArg Prod.snd hcharged
      exact weightOf_set hweight (by rw [hcounted _ hold.1]) hget
    exact ⟨hold.1, by rw [hsame]; exact hold.2⟩
  refine ⟨?_, fun other hother => ?_, fun other hother report hin => ?_,
    fun report hlast => htruthful report (h.last report hlast), h.figure,
    fun report hobs => htruthful report (h.observed report hobs)⟩
  · have hsame : (s.requests.set index changed).map VenueRequest.charged =
        s.requests.map VenueRequest.charged := map_set_of_eq hget hcharged
    rw [hsame]
    exact h.charges
  · rcases List.mem_or_eq_of_mem_set hother with hold | rfl
    · exact h.received other hold
    · exact hreceived
  · rcases List.mem_or_eq_of_mem_set hother with hold | rfl
    · exact htruthful report (h.reports other hold report hin)
    · exact htruthful report (hreport report hin)

/-- A granted admission bills its request before the venue has seen it. -/
theorem Tracked.admitted (hmono : Monotone clocks.monotonicSeconds) (h : Tracked clocks s)
    {requestClass : RequestClass} {cost : EndpointCost}
    (hadmitted : Admitted clocks requestClass cost s.governor next) :
    Tracked clocks
      { s with
        governor := next
        requests := s.requests ++
          [⟨cost.requestWeight, clocks.monotonicSeconds s.governor.readings, none, none, false⟩] } := by
  have hchecked := aged_checkedState hmono s.governor
  have hpublished := aged_publish hmono ((s.governor.checkedState clocks).charge cost
    (clocks.monotonicSeconds s.governor.readings))
  rw [← hadmitted.next_eq] at hpublished
  have hreadings : s.governor.readings ≤ next.readings :=
    hchecked.readings.trans hpublished.readings
  have htruthful : ∀ report, s.Truthful clocks report → Truthful clocks
      { s with
        governor := next
        requests := s.requests ++
          [⟨cost.requestWeight, clocks.monotonicSeconds s.governor.readings, none, none, false⟩] }
      report := by
    intro report hold
    refine ⟨hold.1.trans_le hreadings, ?_⟩
    rw [hold.2, venueUsed, venueUsed, weightOf_append, weightOf_singleton]
    simp [VenueRequest.countedAt]
  refine ⟨?_, fun request hrequest => ?_, fun request hrequest report hreport => ?_,
    fun report hlast => htruthful report (h.last report hlast), fun used hused => ?_,
    fun report hobs => htruthful report (h.observed report hobs)⟩
  · rw [List.map_append]
    exact hpublished.charges ((hchecked.charges h.charges le_rfl).append _) le_rfl
  · rcases List.mem_append.mp hrequest with hold | hnew
    · exact fun received hreceived => (h.received request hold received hreceived).trans_le hreadings
    · rw [List.mem_singleton.mp hnew]
      intro received hreceived
      cases hreceived
  · rcases List.mem_append.mp hrequest with hold | hnew
    · exact htruthful report (h.reports request hold report hreport)
    · rw [List.mem_singleton.mp hnew] at hreport
      cases hreport
  · rcases hadmitted.observationKept with hnone | ⟨hweight, -⟩
    · cases hnone.symm.trans hused
    · exact h.figure used (hweight.symm.trans hused)

theorem Tracked.call (hmono : Monotone clocks.monotonicSeconds) (h : Tracked clocks s)
    (requestClass : RequestClass) (endpoint : String) :
    Tracked clocks (s.call clocks requestClass endpoint) := by
  unfold ThrottledExchange.call
  split
  · exact h
  · next cost _ =>
    rcases s.governor.admitRequest_cases clocks requestClass endpoint cost with
      ⟨refusal, next, hcall, hrefused⟩ | ⟨next, hcall, hadmitted⟩
    · rw [hcall]
      exact h.aged (hrefused.recordsAged hmono).1 hrefused.observationKept
    · rw [hcall]
      exact h.admitted hmono hadmitted

/-- An instant that passes at the venue. -/
theorem Tracked.tick (hmono : Monotone clocks.monotonicSeconds) (h : Tracked clocks s) :
    Tracked clocks { s with governor := { s.governor with readings := s.governor.readings + 1 } } := by
  have haged : Aged clocks s.governor { s.governor with readings := s.governor.readings + 1 } :=
    aged_of_eq hmono rfl (Nat.le_succ _) rfl rfl rfl rfl
  exact h.aged haged.toRecordsAged (observationKept_of_eq rfl rfl)

theorem Tracked.receive (hmono : Monotone clocks.monotonicSeconds) (h : Tracked clocks s)
    (index : ℕ) : Tracked clocks (s.receive index) := by
  unfold ThrottledExchange.receive
  split
  · next request hget =>
    split
    · next hnew =>
      have hticked := h.tick hmono
      refine hticked.set hget rfl (fun instant hinstant => ?_) (fun received hreceived => ?_)
        fun report hreport => hticked.reports request (List.mem_of_getElem? hget) report hreport
      · have hlater : ¬s.governor.readings < instant := Nat.not_lt.mpr (Nat.lt_succ_iff.mp hinstant)
        simp [VenueRequest.countedAt, hnew, hlater]
      · obtain rfl := Option.some.inj hreceived
        exact Nat.lt_succ_self _
    · exact h
  · exact h

theorem Tracked.respond (hmono : Monotone clocks.monotonicSeconds) (h : Tracked clocks s)
    (index : ℕ) (metadata : VenueResponseMetadata) :
    Tracked clocks (s.respond clocks index metadata) := by
  unfold ThrottledExchange.respond
  dsimp only
  split
  · next request hget =>
    split
    · next hanswered =>
      have hticked := h.tick hmono
      refine hticked.set hget rfl (fun _ _ => rfl)
        (hticked.received request (List.mem_of_getElem? hget)) fun report hreport => ?_
      obtain rfl := Option.some.inj hreport
      exact ⟨Nat.lt_succ_self _, hanswered.2.2⟩
    · exact h
  · exact h

theorem Tracked.deliver (h : Tracked clocks s) (index : ℕ) : Tracked clocks (s.deliver index) := by
  unfold ThrottledExchange.deliver
  split
  · next request hget =>
    split
    · next report hreport =>
      split
      · exact h
      · refine ⟨h.charges, h.received, h.reports, fun other hother => ?_, h.figure, h.observed⟩
        obtain rfl := Option.some.inj hother
        exact h.reports request (List.mem_of_getElem? hget) report hreport
    · exact h
  · exact h

theorem Tracked.observe (hmono : Monotone clocks.monotonicSeconds) (h : Tracked clocks s)
    {report : VenueReport} (hreport : s.Truthful clocks report) :
    Tracked clocks
      { s with
        governor := s.governor.observe clocks report.metadata
        observed := some report } := by
  have haged := s.governor.recordsAged_observe hmono report.metadata
  refine ⟨haged.charges h.charges le_rfl,
    fun request hrequest received hreceived =>
      (h.received request hrequest received hreceived).trans_le haged.readings,
    fun request hrequest other hother => (h.reports request hrequest other hother).later haged.readings,
    fun other hother => (h.last other hother).later haged.readings, fun used hused => ?_,
    fun other hother => ?_⟩
  · refine ⟨report, rfl, ?_⟩
    rcases s.governor.observe_observed clocks hreport.2 with hnone | hsome
    · cases hnone.symm.trans hused
    · rw [hreport.2, ← hsome, ← hused]
  · obtain rfl := Option.some.inj hother
    exact hreport.later haged.readings

theorem Tracked.finish (hmono : Monotone clocks.monotonicSeconds) (h : Tracked clocks s)
    (index : ℕ) : Tracked clocks (s.finish clocks index) := by
  unfold ThrottledExchange.finish
  split
  · next request hget =>
    split
    · exact h
    · have hmem := List.mem_of_getElem? hget
      have hfinished : Tracked clocks
          { s with requests := s.requests.set index { request with finished := true } } :=
        h.set hget rfl (fun _ _ => rfl) (h.received request hmem) (h.reports request hmem)
      dsimp only
      split
      · exact hfinished
      · next report hlast => exact hfinished.observe hmono (hfinished.last report hlast)
  · exact h

/-- Every action keeps the invariant. -/
theorem tracked_step (hmono : Monotone clocks.monotonicSeconds) (s : ThrottledExchange)
    (action : ExchangeAction) (h : Tracked clocks s) : Tracked clocks (s.step clocks action) := by
  cases action with
  | call requestClass endpoint => exact h.call hmono requestClass endpoint
  | receive index => exact h.receive hmono index
  | respond index metadata => exact h.respond hmono index metadata
  | deliver index => exact h.deliver index
  | finish index => exact h.finish hmono index
  | usedRequestWeight =>
    exact h.aged (aged_refresh hmono s.governor).toRecordsAged (observationKept_refresh s.governor clocks)
  | ordersInWindow =>
    exact h.aged (aged_refresh hmono s.governor).toRecordsAged (observationKept_refresh s.governor clocks)

/-! ### The estimate -/

/-- A covered estimate is at least what the venue counts at the reading it is made at. -/
theorem Tracked.venueUsed_le_estimate (hmono : Monotone clocks.monotonicSeconds) (h : Tracked clocks s)
    (hcovers : s.ChargesCover clocks s.governor.readings ∨ s.ReportCovers clocks s.governor.readings) :
    s.venueUsed clocks s.governor.readings ≤ (s.governor.refresh clocks).estimate := by
  have hkept : KeptLog Prod.fst
      (clocks.monotonicSeconds s.governor.readings - weightWindowSeconds)
      (s.requests.map VenueRequest.charged) (s.governor.refresh clocks).weightCharged :=
    h.charges.expire le_rfl
  rcases hcovers with hcharges | ⟨used, observedAt, report, hused, hat, hobserved, hfresh, hsince⟩
  · -- every counted request is still charged
    calc s.venueUsed clocks s.governor.readings
        ≤ heldWeight weightWindowSeconds VenueRequest.chargedAt VenueRequest.requestWeight
            (clocks.monotonicSeconds s.governor.readings) s.requests := weightOf_mono hcharges
      _ ≤ ((s.governor.refresh clocks).weightCharged.map Prod.snd).sum := hkept.heldWeight_le Prod.snd
      _ ≤ (s.governor.refresh clocks).estimate := localTotal_le_estimate _
  · -- the report counts what was received before it, the charges since count the rest
    obtain ⟨report', hobserved', hfigure⟩ := h.figure used hused
    obtain rfl := Option.some.inj (hobserved.symm.trans hobserved')
    obtain ⟨hreported, htrue⟩ := h.observed report hobserved
    obtain rfl := Option.some.inj (hfigure.symm.trans htrue)
    have hearlier := hmono hreported.le
    obtain ⟨hkeptUsed, hkeptAt⟩ := refresh_observed hat hfresh
    have hestimate := report_le_estimate (hkeptUsed.trans hused) (hkeptAt.trans hat)
    have hsinceKept := hkept.weightOf_le Prod.snd fun charge => observedAt ≤ charge.1
    rw [weightOf_map] at hsinceKept
    have hsplit : ∀ request ∈ s.requests,
        request.countedAt clocks s.governor.readings = true →
        request.countedAt clocks report.reportedAt = true ∨
          observedAt ≤ request.charged.1 ∧
            clocks.monotonicSeconds s.governor.readings - weightWindowSeconds <
              request.charged.1 := by
      intro request hrequest hcounted
      cases hreceived : request.receivedAt with
      | none => simp [VenueRequest.countedAt, hreceived] at hcounted
      | some received =>
        by_cases hbefore : received < report.reportedAt
        · left
          simp only [VenueRequest.countedAt, hreceived, decide_eq_true_eq] at hcounted ⊢
          exact ⟨hbefore, (sub_le_sub_right hearlier _).trans_lt hcounted.2⟩
        · right
          have hcharged := hsince request hrequest hcounted received hreceived (not_lt.mp hbefore)
          exact ⟨hcharged, hfresh.trans_le hcharged⟩
    exact ((weightOf_le_add hsplit).trans (Nat.add_le_add_left hsinceKept _)).trans hestimate

/-- What covers the estimate of the weight check still does once the first reading has been taken. -/
theorem covers_entered (hmono : Monotone clocks.monotonicSeconds)
    (hcovers : s.ChargesCover clocks (s.governor.readings + 1) ∨
      s.ReportCovers clocks (s.governor.readings + 1)) :
    ({ s with governor := s.governor.entered clocks } : ThrottledExchange).ChargesCover clocks
        (s.governor.readings + 1) ∨
      ({ s with governor := s.governor.entered clocks } : ThrottledExchange).ReportCovers clocks
        (s.governor.readings + 1) := by
  rcases hcovers with hcharges | ⟨used, observedAt, report, hused, hat, hobserved, hfresh, hsince⟩
  · exact .inl hcharges
  · have hearlier := hmono (Nat.le_succ s.governor.readings)
    obtain ⟨hkeptUsed, hkeptAt⟩ :=
      refresh_observed hat ((sub_le_sub_right hearlier weightWindowSeconds).trans_lt hfresh)
    exact .inr ⟨used, observedAt, report, hkeptUsed.trans hused, hkeptAt.trans hat, hobserved, hfresh,
      hsince⟩

/-- A granted admission fits the budget together with what the venue counts at its weight check. -/
theorem Tracked.admission_fits (hmono : Monotone clocks.monotonicSeconds) (h : Tracked clocks s)
    {requestClass : RequestClass} {cost : EndpointCost} {ceiling : ℕ}
    (hceiling : s.governor.profile.requestWeightPerMinute = some ceiling)
    (hadmitted : Admitted clocks requestClass cost s.governor next)
    (hcovers : s.ChargesCover clocks (s.governor.readings + 1) ∨
      s.ReportCovers clocks (s.governor.readings + 1)) :
    s.venueUsed clocks (s.governor.readings + 1) + cost.requestWeight ≤ ceiling := by
  have hentered : Tracked clocks { s with governor := s.governor.entered clocks } :=
    h.aged (recordsAged_entered hmono s.governor) (observationKept_entered s.governor clocks)
  have hchecked : s.governor.checkedState clocks = (s.governor.entered clocks).refresh clocks := by
    rw [checkedState, hceiling]
  have hfits := hadmitted.weight ceiling hceiling
  rw [hchecked] at hfits
  calc s.venueUsed clocks (s.governor.readings + 1) + cost.requestWeight
      ≤ ((s.governor.entered clocks).refresh clocks).estimate + cost.requestWeight :=
        Nat.add_le_add_right (hentered.venueUsed_le_estimate hmono (covers_entered hmono hcovers)) _
    _ ≤ ceiling := hfits.trans (weightShare_le ceiling requestClass)

end Tracked

/-- A successful response that reports a used weight. -/
def usedWeightReport (used : String) : VenueResponseMetadata :=
  { httpStatus := 200
    headers := Dict.empty.set usedWeightHeader used }

/-- One trade query received and answered, on a budget of a hundred. -/
def answeredQuery : ThrottledExchange :=
  (start (smallProfile 1 100 (by decide) (by decide)) 0).run tickingClocks
    [.call .order "privateGetMyTrades", .receive 0, .respond 0 (usedWeightReport "20"), .deliver 0,
      .finish 0]

/-- Two queries admitted at zero and received two and five seconds later; their answers come back in
    the other order, after eight and nine seconds; the next call comes at sixty-three. -/
def lateClocks : Clocks :=
  { monotonicSeconds := fun n =>
      if n < 6 then 0 else if n < 8 then 2 else if n < 10 then 5 else if n < 12 then 8
      else if n < 14 then 9 else 63
    nowUtc := fun n => n }

theorem lateClocks_mono : Monotone lateClocks.monotonicSeconds := by
  refine monotone_nat_of_le_succ fun n => ?_
  by_cases hearly : n < 14
  · have hsteps : ∀ n < 14, lateClocks.monotonicSeconds n ≤ lateClocks.monotonicSeconds (n + 1) := by
      with_unfolding_all decide
    exact hsteps n hearly
  · have hlast : ∀ m, 14 ≤ m → lateClocks.monotonicSeconds m = 63 := by
      intro m hm
      have hbounds : ¬m < 6 ∧ ¬m < 8 ∧ ¬m < 10 ∧ ¬m < 12 ∧ ¬m < 14 := by omega
      simp [lateClocks, hbounds]
    rw [hlast n (by omega), hlast (n + 1) (by omega)]

def lateReports : ThrottledExchange :=
  (start (smallProfile 1 100 (by decide) (by decide)) 0).run lateClocks
    [.call .order "privateGetOpenOrders", .call .order "privateGetMyTrades", .receive 1,
      .respond 1 (usedWeightReport "20"), .receive 0, .respond 0 (usedWeightReport "100"), .deliver 0,
      .finish 0, .deliver 1, .finish 1]

end FinanceKing.Execution
