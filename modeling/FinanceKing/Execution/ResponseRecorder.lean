import FinanceKing.Execution.ThrottleWindows
import FinanceKing.Lib.Fold

/-! The one slot the governor reads a response's status and headers from. Headers overwrite it when they
    arrive, the body follows later, and a call reads the slot when it ends, answered or not. -/

namespace FinanceKing.Execution

open Lib

/-- One admitted call: the status and headers of its response, once they arrived, and whether it ended. -/
structure ObservedCall where
  response : Option VenueResponseMetadata
  ended : Bool
  deriving DecidableEq

/-- The governor the views share, the recorder's slot with the call whose response fills it, the calls, and
    the observations made: the call at whose end, and the call whose response was observed. -/
structure RecordedExchange where
  governor : Governor
  latest : Option (ℕ × VenueResponseMetadata)
  calls : List ObservedCall
  observations : List (ℕ × ℕ)
  deriving DecidableEq

/-- What can happen: a call is made through a view; the headers of its response arrive; it ends. -/
inductive ResponseEvent where
  | call (requestClass : RequestClass) (endpoint : String)
  | respond (index : ℕ) (metadata : VenueResponseMetadata)
  | finish (index : ℕ)

namespace RecordedExchange

def init (profile : VenueProfile) (readings : ℕ) : RecordedExchange :=
  ⟨Governor.init profile readings, none, [], []⟩

/-- The synchronous half of a call: its cost is looked up, and it is admitted or refused. -/
def call (clocks : Clocks) (self : RecordedExchange) (requestClass : RequestClass) (endpoint : String) :
    RecordedExchange :=
  match costOf self.governor.profile requestClass endpoint with
  | .error _ => self
  | .ok cost =>
    match self.governor.admitRequest clocks requestClass endpoint cost with
    | (.error _, governor) => { self with governor := governor }
    | (.ok (), governor) =>
      { self with governor := governor, calls := self.calls ++ [⟨none, false⟩] }

/-- The call in flight at a place. -/
def inFlight (self : RecordedExchange) (index : ℕ) : Option ObservedCall :=
  (self.calls[index]?).filter fun call => !call.ended

/-- The headers of a response arrive, once for a call, and are recorded. -/
def respond (self : RecordedExchange) (index : ℕ) (metadata : VenueResponseMetadata) :
    RecordedExchange :=
  match self.inFlight index with
  | none => self
  | some call =>
    if call.response.isSome then self
    else { self with
      latest := some (index, metadata)
      calls := self.calls.set index { call with response := some metadata } }

/-- A call ends, and the governor observes whatever was recorded last. -/
def finish (clocks : Clocks) (self : RecordedExchange) (index : ℕ) : RecordedExchange :=
  match self.inFlight index with
  | none => self
  | some call =>
    let calls := self.calls.set index { call with ended := true }
    match self.latest with
    | none => { self with calls := calls }
    | some (owner, metadata) =>
      { self with
        governor := self.governor.observe clocks metadata
        calls := calls
        observations := self.observations ++ [(index, owner)] }

/-- One thing happens; what cannot happen changes nothing. -/
def step (clocks : Clocks) (self : RecordedExchange) : ResponseEvent → RecordedExchange
  | .call requestClass endpoint => self.call clocks requestClass endpoint
  | .respond index metadata => self.respond index metadata
  | .finish index => self.finish clocks index

def run (clocks : Clocks) (profile : VenueProfile) (readings : ℕ) (events : List ResponseEvent) :
    RecordedExchange :=
  events.foldl (step clocks) (init profile readings)

/-- The calls whose responses were observed, one for each observation. -/
def observed (self : RecordedExchange) : List ℕ := self.observations.map Prod.snd

/-- No response is missed or counted twice, and a call that got none makes the governor observe nothing. -/
structure ObservesOnce (exchange : RecordedExchange) : Prop where
  once : ∀ (index : ℕ) (call : ObservedCall), exchange.calls[index]? = some call → call.ended = true →
    call.response.isSome = true → exchange.observed.count index = 1
  atMost : ∀ index, exchange.observed.count index ≤ 1
  silent : ∀ made ∈ exchange.observations,
    ∃ call, exchange.calls[made.1]? = some call ∧ call.response.isSome = true

/-- A call that ends finds its own response recorded last, or none at all when it got none. -/
def EndsOwn (self : RecordedExchange) : ResponseEvent → Prop
  | .finish index => ∀ call, self.inFlight index = some call →
      self.latest.map Prod.fst = call.response.map fun _ => index
  | _ => True

/-! ### One event -/

variable {clocks : Clocks} {self : RecordedExchange} {index : ℕ}

theorem inFlight_eq_some {call : ObservedCall} : self.inFlight index = some call ↔
    self.calls[index]? = some call ∧ call.ended = false := by
  rw [inFlight, Option.filter_eq_some_iff, Bool.not_eq_true']

/-- Every observation is of the response of the call that made it, and every answered call that ended made
    one. -/
structure ObservesOwn (exchange : RecordedExchange) : Prop where
  own : ∀ made ∈ exchange.observations, made.1 = made.2
  distinct : exchange.observed.Nodup
  ended : ∀ index : ℕ, index ∈ exchange.observed ↔
    ∃ call : ObservedCall, exchange.calls[index]? = some call ∧ call.ended = true ∧ call.response.isSome = true
  slot : ∀ owner metadata, exchange.latest = some (owner, metadata) →
    ∃ call : ObservedCall, exchange.calls[owner]? = some call ∧ call.response = some metadata
  recorded : ∀ (index : ℕ) (call : ObservedCall), exchange.calls[index]? = some call → call.response.isSome = true →
    exchange.latest.isSome = true

theorem ObservesOwn.observesOnce (h : self.ObservesOwn) : self.ObservesOnce where
  once index call hindex hended hresponse :=
    List.count_eq_one_of_mem h.distinct ((h.ended index).mpr ⟨call, hindex, hended, hresponse⟩)
  atMost index := List.nodup_iff_count_le_one.mp h.distinct index
  silent made hmade := by
    have hobserved : made.1 ∈ self.observed := by
      rw [h.own made hmade]
      exact List.mem_map_of_mem hmade
    obtain ⟨call, hindex, _, hresponse⟩ := (h.ended made.1).mp hobserved
    exact ⟨call, hindex, hresponse⟩

/-- A call's admission changes the governor, and may add a call in flight. -/
theorem call_cases (clocks : Clocks) (self : RecordedExchange) (requestClass : RequestClass)
    (endpoint : String) : ∃ governor added, self.call clocks requestClass endpoint =
      { self with governor := governor, calls := self.calls ++ added } ∧
      ∀ call ∈ added, call = ⟨none, false⟩ := by
  rw [RecordedExchange.call]
  split
  · exact ⟨self.governor, [], by rw [List.append_nil], by simp⟩
  · split
    · next governor _ => exact ⟨governor, [], by rw [List.append_nil], by simp⟩
    · next governor _ => exact ⟨governor, [⟨none, false⟩], rfl, by simp⟩

theorem getElem?_append_fresh {calls added : List ObservedCall}
    (hadded : ∀ call ∈ added, call = ⟨none, false⟩) {call : ObservedCall}
    (h : (calls ++ added)[index]? = some call) : calls[index]? = some call ∨ call = ⟨none, false⟩ := by
  rcases lt_or_ge index calls.length with hlt | hge
  · rw [List.getElem?_append_left hlt] at h
    exact .inl h
  · rw [List.getElem?_append_right hge] at h
    exact .inr (hadded call (List.mem_of_getElem? h))

theorem getElem?_append_of_some {calls : List ObservedCall} (added : List ObservedCall)
    {call : ObservedCall} (h : calls[index]? = some call) : (calls ++ added)[index]? = some call := by
  obtain ⟨hlt, _⟩ := List.getElem?_eq_some_iff.mp h
  rw [List.getElem?_append_left hlt, h]

theorem getElem?_set_of_some {calls : List ObservedCall} {before : ObservedCall}
    (h : calls[index]? = some before) (after : ObservedCall) (other : ℕ) :
    (calls.set index after)[other]? = if other = index then some after else calls[other]? := by
  obtain ⟨hlt, _⟩ := List.getElem?_eq_some_iff.mp h
  rw [List.getElem?_set]
  by_cases hsame : index = other
  · simp [hsame, hsame ▸ hlt]
  · simp [hsame, Ne.symm hsame]

theorem ObservesOwn.call (h : self.ObservesOwn) (requestClass : RequestClass) (endpoint : String) :
    (self.call clocks requestClass endpoint).ObservesOwn := by
  obtain ⟨governor, added, hcall, hadded⟩ := call_cases clocks self requestClass endpoint
  rw [hcall]
  refine ⟨h.own, h.distinct, fun index => ?_, ?_, ?_⟩
  · refine (h.ended index).trans ⟨?_, ?_⟩
    · rintro ⟨call, hindex, hcall⟩
      exact ⟨call, getElem?_append_of_some added hindex, hcall⟩
    · rintro ⟨call, hindex, hended, hresponse⟩
      rcases getElem?_append_fresh hadded hindex with hheld | rfl
      · exact ⟨call, hheld, hended, hresponse⟩
      · cases hended
  · intro owner metadata hlatest
    obtain ⟨call, howner, hresponse⟩ := h.slot owner metadata hlatest
    exact ⟨call, getElem?_append_of_some added howner, hresponse⟩
  · intro index call hindex hresponse
    rcases getElem?_append_fresh hadded hindex with hheld | rfl
    · exact h.recorded index call hheld hresponse
    · cases hresponse

theorem ObservesOwn.respond (h : self.ObservesOwn) (index : ℕ) (metadata : VenueResponseMetadata) :
    (self.respond index metadata).ObservesOwn := by
  rw [RecordedExchange.respond]
  split
  · exact h
  · next call hflight =>
    obtain ⟨hindex, hended⟩ := inFlight_eq_some.mp hflight
    split
    · exact h
    · have hlookup := getElem?_set_of_some hindex { call with response := some metadata }
      refine ⟨h.own, h.distinct, fun other => ?_, ?_, fun _ _ _ _ => rfl⟩
      · rw [hlookup other]
        refine (h.ended other).trans ?_
        by_cases hother : other = index
        · rw [if_pos hother, hother, hindex]
          simp [hended]
        · rw [if_neg hother]
      · intro owner recorded hlatest
        obtain ⟨rfl, rfl⟩ := Prod.mk.inj (Option.some.inj hlatest)
        rw [hlookup index, if_pos rfl]
        exact ⟨_, rfl, rfl⟩

/-- What an end observes, and what it leaves of the calls. -/
theorem finish_cases (clocks : Clocks) {call : ObservedCall} (hflight : self.inFlight index = some call) :
    (self.latest = none ∧ self.finish clocks index =
      { self with calls := self.calls.set index { call with ended := true } }) ∨
    ∃ owner metadata, self.latest = some (owner, metadata) ∧ self.finish clocks index =
      { self with
        governor := self.governor.observe clocks metadata
        calls := self.calls.set index { call with ended := true }
        observations := self.observations ++ [(index, owner)] } := by
  rw [finish, hflight]
  cases hlatest : self.latest with
  | none => exact .inl ⟨rfl, rfl⟩
  | some recorded => exact .inr ⟨recorded.1, recorded.2, rfl, rfl⟩

theorem ObservesOwn.notMem_observed (h : self.ObservesOwn) {call : ObservedCall}
    (hflight : self.inFlight index = some call) :
    index ∉ self.observed := by
  obtain ⟨hindex, hended⟩ := inFlight_eq_some.mp hflight
  intro hmem
  obtain ⟨other, hother, hfinished, _⟩ := (h.ended index).mp hmem
  rw [Option.some.inj (hother.symm.trans hindex), hended] at hfinished
  cases hfinished

theorem ObservesOwn.finish (h : self.ObservesOwn) (index : ℕ) (hown : self.EndsOwn (.finish index)) :
    (self.finish clocks index).ObservesOwn := by
  cases hflight : self.inFlight index with
  | none =>
    rw [RecordedExchange.finish, hflight]
    exact h
  | some call =>
    have hslot := hown call hflight
    have hfresh := h.notMem_observed hflight
    obtain ⟨hindex, hended⟩ := inFlight_eq_some.mp hflight
    have hlookup := getElem?_set_of_some hindex { call with ended := true }
    have hresponses : ∀ (other : ℕ) (after : ObservedCall), (self.calls.set index { call with ended := true })[other]? =
        some after → ∃ before : ObservedCall, self.calls[other]? = some before ∧ before.response = after.response := by
      intro other after hafter
      rw [hlookup other] at hafter
      split at hafter
      · next hsame => exact ⟨call, hsame ▸ hindex, by rw [← Option.some.inj hafter]⟩
      · exact ⟨after, hafter, rfl⟩
    have hkept : ∀ owner metadata, self.latest = some (owner, metadata) →
        ∃ after, (self.calls.set index { call with ended := true })[owner]? = some after ∧
          after.response = some metadata := by
      intro owner metadata hlatest
      obtain ⟨before, howner, hresponse⟩ := h.slot owner metadata hlatest
      rw [hlookup owner]
      by_cases hsame : owner = index
      · rw [if_pos hsame]
        rw [hsame, hindex] at howner
        exact ⟨_, rfl, by rw [Option.some.inj howner]; exact hresponse⟩
      · rw [if_neg hsame]
        exact ⟨before, howner, hresponse⟩
    have hrecorded : ∀ (other : ℕ) (after : ObservedCall), (self.calls.set index { call with ended := true })[other]? =
        some after → after.response.isSome = true → self.latest.isSome = true := by
      intro other after hafter hresponse
      obtain ⟨before, hbefore, hsame⟩ := hresponses other after hafter
      exact h.recorded other before hbefore (hsame ▸ hresponse)
    rcases finish_cases clocks hflight with ⟨hnone, hfinish⟩ | ⟨owner, metadata, hlatest, hfinish⟩
    · rw [hnone] at hslot
      have hunanswered : call.response = none := (Option.map_eq_none_iff.mp hslot.symm)
      rw [hfinish]
      refine ⟨h.own, h.distinct, fun other => (h.ended other).trans ?_, hkept, hrecorded⟩
      rw [hlookup other]
      by_cases hother : other = index
      · rw [if_pos hother, hother, hindex]
        simp [hunanswered]
      · rw [if_neg hother]
    · rw [hlatest] at hslot
      obtain ⟨response, hresponse, howner⟩ := Option.map_eq_some_iff.mp hslot.symm
      rw [hfinish]
      simp only at howner
      refine ⟨?_, ?_, fun other => ?_, hkept, hrecorded⟩
      · rw [List.forall_mem_append]
        refine ⟨h.own, fun made hmade => ?_⟩
        rw [List.mem_singleton.mp hmade]
        exact howner
      · simp only [observed, List.map_append, List.map_cons, List.map_nil, ← howner]
        exact List.nodup_append.mpr ⟨h.distinct, List.nodup_singleton _, fun a ha b hb => by
          rw [List.mem_singleton.mp hb]
          exact fun hsame => hfresh (hsame ▸ ha)⟩
      · simp only [observed, List.map_append, List.map_cons, List.map_nil, ← howner, List.mem_append,
          List.mem_singleton]
        rw [hlookup other]
        by_cases hother : other = index
        · simp [hother, hresponse]
        · rw [if_neg hother]
          simp only [hother, or_false]
          exact h.ended other

/-- An end that observes each response once ends its own. -/
theorem ObservesOwn.endsOwn (h : self.ObservesOwn) (index : ℕ)
    (honce : (self.finish clocks index).ObservesOnce) : self.EndsOwn (.finish index) := by
  intro call hflight
  have hfresh := h.notMem_observed hflight
  obtain ⟨hindex, _⟩ := inFlight_eq_some.mp hflight
  have hlookup := getElem?_set_of_some hindex { call with ended := true }
  rcases finish_cases clocks hflight with ⟨hnone, _⟩ | ⟨owner, metadata, hlatest, hfinish⟩
  · rw [hnone]
    cases hresponse : call.response with
    | none => rfl
    | some response =>
      have hsome := h.recorded index call hindex (by rw [hresponse]; rfl)
      rw [hnone] at hsome
      cases hsome
  · rw [hfinish] at honce
    obtain ⟨after, hafter, hanswered⟩ :=
      honce.silent (index, owner) (List.mem_append_right _ List.mem_cons_self)
    have hown := (hlookup index).symm.trans hafter
    rw [if_pos rfl] at hown
    rw [← Option.some.inj hown] at hanswered
    obtain ⟨response, hresponse⟩ := Option.isSome_iff_exists.mp hanswered
    have hcount := honce.once index { call with ended := true } (by rw [hlookup index, if_pos rfl]) rfl
      hanswered
    have hobserved : index = owner := by
      simp only [observed, List.map_append, List.map_cons, List.map_nil, List.count_append] at hcount
      have hnone : (self.observations.map Prod.snd).count index = 0 := List.count_eq_zero.mpr hfresh
      have hmem : index ∈ [owner] := List.count_pos_iff.mp (by omega)
      exact List.mem_singleton.mp hmem
    rw [hlatest, hresponse, hobserved]
    rfl

theorem ObservesOwn.step (h : self.ObservesOwn) (event : ResponseEvent) (hown : self.EndsOwn event) :
    (self.step clocks event).ObservesOwn := by
  cases event with
  | call requestClass endpoint => exact h.call requestClass endpoint
  | respond index metadata => exact h.respond index metadata
  | finish index => exact h.finish index hown

/-- A step observes each response once exactly when it ends no call on another's response. -/
theorem ObservesOwn.step_iff (h : self.ObservesOwn) (event : ResponseEvent) :
    (self.step clocks event).ObservesOnce ↔ self.EndsOwn event := by
  constructor
  · intro honce
    cases event with
    | call requestClass endpoint => trivial
    | respond index metadata => trivial
    | finish index => exact h.endsOwn index honce
  · exact fun hown => (h.step event hown).observesOnce

theorem observesOwn_init (profile : VenueProfile) (readings : ℕ) :
    (init profile readings).ObservesOwn where
  own made h := absurd h List.not_mem_nil
  distinct := List.nodup_nil
  ended index := by simp [init, observed]
  slot owner metadata h := by cases h
  recorded index call h := by simp [init] at h

/-! ### Bans -/

/-- Every 418 a call was answered with and ended on has stopped the governor. -/
def Banned (self : RecordedExchange) : Prop :=
  ∀ (index : ℕ) (call : ObservedCall) (metadata : VenueResponseMetadata), self.calls[index]? = some call → call.ended = true →
    call.response = some metadata → metadata.httpStatus = ipBannedStatus → self.governor.banned = true

theorem call_banned (hmono : Monotone clocks.monotonicSeconds) (requestClass : RequestClass)
    (endpoint : String) (h : self.governor.banned = true) :
    (self.call clocks requestClass endpoint).governor.banned = true := by
  rw [RecordedExchange.call]
  split
  · exact h
  · next cost _ =>
    rcases self.governor.admitRequest_cases clocks requestClass endpoint cost with
      ⟨refusal, next, hpassed, hrefused⟩ | ⟨next, _, hadmitted⟩
    · rw [hpassed]
      exact (hrefused.recordsAged hmono).2.trans h
    · rw [hadmitted.unbanned] at h
      cases h

theorem Banned.call (hmono : Monotone clocks.monotonicSeconds) (h : self.Banned)
    (requestClass : RequestClass) (endpoint : String) :
    (self.call clocks requestClass endpoint).Banned := by
  obtain ⟨governor, added, hcall, hadded⟩ := call_cases clocks self requestClass endpoint
  have hkept : self.governor.banned = true → (self.call clocks requestClass endpoint).governor.banned = true :=
    call_banned hmono requestClass endpoint
  rw [hcall] at hkept ⊢
  intro index call metadata hindex hended hresponse hstatus
  rcases getElem?_append_fresh hadded hindex with hheld | rfl
  · exact hkept (h index call metadata hheld hended hresponse hstatus)
  · cases hended

theorem Banned.respond (h : self.Banned) (index : ℕ) (metadata : VenueResponseMetadata) :
    (self.respond index metadata).Banned := by
  rw [RecordedExchange.respond]
  split
  · exact h
  · next call hflight =>
    obtain ⟨hindex, hended⟩ := inFlight_eq_some.mp hflight
    split
    · exact h
    · intro other after observed hafter hfinished hresponse hstatus
      rw [getElem?_set_of_some hindex _ other] at hafter
      split at hafter
      · rw [← Option.some.inj hafter] at hfinished
        rw [hended] at hfinished
        cases hfinished
      · exact h other after observed hafter hfinished hresponse hstatus

theorem Banned.finish (hmono : Monotone clocks.monotonicSeconds) (hobserves : self.ObservesOwn)
    (h : self.Banned) (index : ℕ) (hown : self.EndsOwn (.finish index)) :
    (self.finish clocks index).Banned := by
  cases hflight : self.inFlight index with
  | none =>
    rw [RecordedExchange.finish, hflight]
    exact h
  | some call =>
    have hslot := hown call hflight
    obtain ⟨hindex, _⟩ := inFlight_eq_some.mp hflight
    rcases finish_cases clocks hflight with ⟨hnone, hfinish⟩ | ⟨owner, recorded, hlatest, hfinish⟩
    · rw [hnone] at hslot
      have hunanswered : call.response = none := Option.map_eq_none_iff.mp hslot.symm
      rw [hfinish]
      intro other after metadata hafter hended hresponse hstatus
      rw [getElem?_set_of_some hindex _ other] at hafter
      split at hafter
      · rw [← Option.some.inj hafter, hunanswered] at hresponse
        cases hresponse
      · exact h other after metadata hafter hended hresponse hstatus
    · rw [hfinish]
      intro other after metadata hafter hended hresponse hstatus
      rw [getElem?_set_of_some hindex _ other] at hafter
      refine Governor.banned_observe hmono self.governor recorded ?_
      split at hafter
      · obtain ⟨held, howner, hheld⟩ := hobserves.slot owner recorded hlatest
        rw [← Option.some.inj hafter] at hresponse
        rw [hlatest, show call.response = some metadata from hresponse] at hslot
        obtain rfl : owner = index := Option.some.inj hslot
        rw [Option.some.inj (howner.symm.trans hindex)] at hheld
        have hsame : metadata = recorded := Option.some.inj (hresponse.symm.trans hheld)
        exact .inr (hsame ▸ hstatus)
      · exact .inl (h other after metadata hafter hended hresponse hstatus)

theorem Banned.step (hmono : Monotone clocks.monotonicSeconds) (hobserves : self.ObservesOwn)
    (h : self.Banned) (event : ResponseEvent) (hown : self.EndsOwn event) :
    (self.step clocks event).Banned := by
  cases event with
  | call requestClass endpoint => exact h.call hmono requestClass endpoint
  | respond index metadata => exact h.respond index metadata
  | finish index => exact h.finish hmono hobserves index hown

/-! ### The end of a call -/

/-- A call that ends on its own response has the governor observe it. -/
theorem ObservesOwn.finish_answered (h : self.ObservesOwn) (hown : self.EndsOwn (.finish index))
    {call : ObservedCall} {metadata : VenueResponseMetadata} (hflight : self.inFlight index = some call)
    (hresponse : call.response = some metadata) :
    (self.finish clocks index).governor = self.governor.observe clocks metadata := by
  have hslot := hown call hflight
  rw [hresponse] at hslot
  obtain ⟨hindex, _⟩ := inFlight_eq_some.mp hflight
  rcases finish_cases clocks hflight with ⟨hnone, _⟩ | ⟨owner, recorded, hlatest, hfinish⟩
  · rw [hnone] at hslot
    cases hslot
  · rw [hlatest] at hslot
    obtain rfl : owner = index := Option.some.inj hslot
    obtain ⟨held, howner, hheld⟩ := h.slot owner recorded hlatest
    rw [Option.some.inj (howner.symm.trans hindex), hresponse] at hheld
    rw [hfinish, Option.some.inj hheld]

/-- A call that got no response leaves the governor as it was. -/
theorem finish_unanswered {call : ObservedCall} (hown : self.EndsOwn (.finish index))
    (hflight : self.inFlight index = some call) (hresponse : call.response = none) :
    (self.finish clocks index).governor = self.governor := by
  have hslot := hown call hflight
  rw [hresponse] at hslot
  rcases finish_cases clocks hflight with ⟨_, hfinish⟩ | ⟨owner, recorded, hlatest, _⟩
  · rw [hfinish]
  · rw [hlatest] at hslot
    cases hslot

end RecordedExchange

/-! ### Every interleaving -/

open RecordedExchange in
/-- What the governor observes of the responses, over every interleaving of the calls. -/
structure ObservationContract (clocks : Clocks) (profile : VenueProfile) (readings : ℕ) : Prop where
  exact : ∀ events,
    (∀ earlier, earlier <+: events → (run clocks profile readings earlier).ObservesOnce) ↔
      StepsMeet (step clocks) EndsOwn (init profile readings) events
  banned : Monotone clocks.monotonicSeconds → ∀ events,
    StepsMeet (step clocks) EndsOwn (init profile readings) events →
      (run clocks profile readings events).Banned
  cooled : ∀ events index call metadata,
    StepsMeet (step clocks) EndsOwn (init profile readings) events →
    (run clocks profile readings events).EndsOwn (.finish index) →
    (run clocks profile readings events).inFlight index = some call → call.response = some metadata →
    metadata.httpStatus = tooManyRequestsStatus →
    ((run clocks profile readings events).finish clocks index).governor.CoolsUntil clocks
      (clocks.monotonicSeconds (run clocks profile readings events).governor.readings +
        Governor.cooldownSeconds (parseRateLimitHeaders metadata))
  silent : ∀ events index call,
    (run clocks profile readings events).EndsOwn (.finish index) →
    (run clocks profile readings events).inFlight index = some call → call.response = none →
    ((run clocks profile readings events).finish clocks index).governor =
      (run clocks profile readings events).governor

/-- A 418 and a 200 whose headers both arrive before either body does. -/
def overlappingResponses : List ResponseEvent :=
  [.call .order "privatePostOrder", .call .order "privatePostOrder",
    .respond 0 ⟨ipBannedStatus, Dict.empty⟩, .respond 1 ⟨200, Dict.empty⟩, .finish 0, .finish 1]

end FinanceKing.Execution
