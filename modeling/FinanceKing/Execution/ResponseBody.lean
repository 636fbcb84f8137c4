import FinanceKing.Domain.Guards
import FinanceKing.Lib.Fold

/-! The one slot a guarded exchange reads response bodies from. A call clears it before its request and
    reads it back after, and every call in flight shares it. -/

namespace FinanceKing.Execution

open Lib

/-- One call: the body of the response to its own request, once received, and what the call gave back. -/
structure VenueCall where
  endpoint : String
  body : Option String
  result : Option (PyResult String)
  deriving DecidableEq

/-- The exchange and the calls made over it. -/
structure GuardedCcxtExchange where
  venueId : String
  endpoints : List String
  lastHttpResponse : Option String
  requestCount : ℕ
  calls : List VenueCall
  deriving DecidableEq

/-- What can happen: a call is made; the body of a request's response is received, and the request returns
    or raises the venue's rejection at once; a request fails in transport. -/
inductive RequestEvent where
  | call (endpoint : String)
  | receive (index : ℕ) (body : String) (rejection : Option String)
  | fail (index : ℕ) (cause : String)

/-- What a call gives back once its request has ended: whatever body the slot holds. -/
def readBody (venueId endpoint : String) (lastHttpResponse failure : Option String) : PyResult String :=
  match lastHttpResponse, failure with
  | some body, _ => .ok body
  | none, none => raise .unknownVenueEndpoint
      [venueId, ": ", endpoint, " recorded no response body; ccxt's enableLastHttpResponse must stay on " ++
        "for the Decimal path to work"]
  | none, some _ => raise .venueTransport [venueId, ": ", endpoint, " produced no response body"]

namespace GuardedCcxtExchange

/-- An exchange over which nothing has been called. -/
def init (venueId : String) (endpoints : List String) : GuardedCcxtExchange :=
  ⟨venueId, endpoints, none, 0, []⟩

/-- The synchronous half of a call; an endpoint ccxt does not implement is refused before it. -/
def call (self : GuardedCcxtExchange) (endpoint : String) : GuardedCcxtExchange :=
  if endpoint ∈ self.endpoints then
    { self with
      lastHttpResponse := none
      requestCount := self.requestCount + 1
      calls := self.calls ++ [⟨endpoint, none, none⟩] }
  else self

/-- The call in flight at a place. -/
def inFlight (self : GuardedCcxtExchange) (index : ℕ) : Option VenueCall :=
  (self.calls[index]?).filter fun call => call.result.isNone

/-- A body is recorded, and its request ends without yielding. -/
def receive (self : GuardedCcxtExchange) (index : ℕ) (body : String) (rejection : Option String) :
    GuardedCcxtExchange :=
  match self.inFlight index with
  | none => self
  | some call =>
    { self with
      lastHttpResponse := some body
      calls := self.calls.set index
        ⟨call.endpoint, some body, some (readBody self.venueId call.endpoint (some body) rejection)⟩ }

/-- A request fails before any body was received, and its call reads the slot. -/
def fail (self : GuardedCcxtExchange) (index : ℕ) (cause : String) : GuardedCcxtExchange :=
  match self.inFlight index with
  | none => self
  | some call =>
    { self with
      calls := self.calls.set index
        ⟨call.endpoint, call.body,
          some (readBody self.venueId call.endpoint self.lastHttpResponse (some cause))⟩ }

/-- One thing happens; what cannot happen changes nothing. -/
def step (self : GuardedCcxtExchange) : RequestEvent → GuardedCcxtExchange
  | .call endpoint => self.call endpoint
  | .receive index body rejection => self.receive index body rejection
  | .fail index cause => self.fail index cause

def run (venueId : String) (endpoints : List String) (events : List RequestEvent) :
    GuardedCcxtExchange :=
  events.foldl step (init venueId endpoints)

/-- A request that fails in transport finds the slot as the latest call cleared it. -/
def FailsCleared (self : GuardedCcxtExchange) : RequestEvent → Prop
  | .fail index _ => (self.inFlight index).isSome → self.lastHttpResponse = none
  | _ => True

end GuardedCcxtExchange

/-- A call that returned text returned its own response's, and one that got none raised. -/
structure VenueCall.Attributed (call : VenueCall) : Prop where
  own : ∀ text, call.result = some (.ok text) → call.body = some text
  none : ∀ result, call.result = some result → call.body = none →
    ∃ message, result = raise .venueTransport message

/-- A call in flight has received no body. -/
def VenueCall.Waiting (call : VenueCall) : Prop := call.result = none → call.body = none

/-! ### One event -/

namespace GuardedCcxtExchange

variable {self : GuardedCcxtExchange} {index : ℕ} {call : VenueCall}

theorem inFlight_eq_some : self.inFlight index = some call ↔
    self.calls[index]? = some call ∧ call.result = none := by
  rw [inFlight, Option.filter_eq_some_iff, Option.isNone_iff_eq_none]

/-- Every call made so far is attributed. -/
def AllAttributed (exchange : GuardedCcxtExchange) : Prop := ∀ call ∈ exchange.calls, call.Attributed

/-- Every call made so far is attributed, and every call in flight waits. -/
structure Attributes (exchange : GuardedCcxtExchange) : Prop where
  attributed : exchange.AllAttributed
  waiting : ∀ call ∈ exchange.calls, call.Waiting

theorem attributed_of_waiting {endpoint : String} : VenueCall.Attributed ⟨endpoint, none, none⟩ where
  own _ h := by cases h
  none _ h := by cases h

theorem attributed_of_received {venueId endpoint body : String} {rejection : Option String} :
    VenueCall.Attributed ⟨endpoint, some body, some (readBody venueId endpoint (some body) rejection)⟩ where
  own text h := by rw [← Except.ok.inj (Option.some.inj h)]
  none _ _ h := by cases h

/-- A failed call is attributed exactly when the slot was empty. -/
theorem attributed_of_failed (venueId endpoint cause : String) {slot : Option String} :
    VenueCall.Attributed ⟨endpoint, none, some (readBody venueId endpoint slot (some cause))⟩ ↔
      slot = none := by
  constructor
  · intro h
    cases slot with
    | none => rfl
    | some body => cases h.own body rfl
  · rintro rfl
    refine ⟨?_, fun result h _ => ⟨_, (Option.some.inj h).symm⟩⟩
    intro text h
    cases h

theorem step_attributes (self : GuardedCcxtExchange) (event : RequestEvent) (h : self.Attributes) :
    (self.step event).AllAttributed ↔ self.FailsCleared event := by
  cases event with
  | call endpoint =>
    refine iff_of_true ?_ trivial
    rw [step, GuardedCcxtExchange.call]
    split
    · rw [AllAttributed, List.forall_mem_append]
      refine ⟨h.attributed, fun call hcall => ?_⟩
      rw [List.mem_singleton.mp hcall]
      exact attributed_of_waiting
    · exact h.attributed
  | receive index body rejection =>
    refine iff_of_true ?_ trivial
    rw [step, receive]
    split
    · exact h.attributed
    · intro call hcall
      rcases List.mem_or_eq_of_mem_set hcall with hold | rfl
      · exact h.attributed call hold
      · exact attributed_of_received
  | fail index cause =>
    rw [step, fail, FailsCleared]
    cases hflight : self.inFlight index with
    | none => exact iff_of_true h.attributed fun hsome => by cases hsome
    | some call =>
      obtain ⟨hindex, hresult⟩ := inFlight_eq_some.mp hflight
      have hwaiting : call.body = none := h.waiting call (List.mem_of_getElem? hindex) hresult
      simp only [Option.isSome_some, true_implies, hwaiting, AllAttributed]
      rw [← attributed_of_failed self.venueId call.endpoint cause]
      obtain ⟨hlt, _⟩ := List.getElem?_eq_some_iff.mp hindex
      constructor
      · exact fun hall => hall _ (List.mem_set hlt _)
      · intro hown other hother
        rcases List.mem_or_eq_of_mem_set hother with hold | rfl
        · exact h.attributed other hold
        · exact hown

theorem step_waiting (self : GuardedCcxtExchange) (event : RequestEvent)
    (h : ∀ call ∈ self.calls, call.Waiting) : ∀ call ∈ (self.step event).calls, call.Waiting := by
  cases event with
  | call endpoint =>
    rw [step, GuardedCcxtExchange.call]
    split
    · rw [List.forall_mem_append]
      exact ⟨h, fun call hcall => by rw [List.mem_singleton.mp hcall]; exact fun _ => rfl⟩
    · exact h
  | receive index body rejection =>
    rw [step, receive]
    split
    · exact h
    · intro call hcall
      rcases List.mem_or_eq_of_mem_set hcall with hold | rfl
      · exact h call hold
      · exact fun hresult => by cases hresult
  | fail index cause =>
    rw [step, fail]
    split
    · exact h
    · intro call hcall
      rcases List.mem_or_eq_of_mem_set hcall with hold | rfl
      · exact h call hold
      · exact fun hresult => by cases hresult

end GuardedCcxtExchange

/-! ### Every interleaving -/

open GuardedCcxtExchange in
/-- Every call of a run gives back its own response, or raises when it got none, exactly when no request
    fails after a body was received on a slot no later call has cleared. -/
theorem calls_return_own_body (venueId : String) (endpoints : List String)
    (events : List RequestEvent) :
    (∀ earlier, earlier <+: events → (run venueId endpoints earlier).AllAttributed) ↔
      StepsMeet step FailsCleared (init venueId endpoints) events := by
  have hinit : ∀ call ∈ (init venueId endpoints).calls, call.Attributed ∧ call.Waiting :=
    fun call hcall => absurd hcall List.not_mem_nil
  have hkeeps : ∀ self event, Attributes self → FailsCleared self event → Attributes (step self event) :=
    fun self event h hcleared =>
      ⟨(step_attributes self event h).mpr hcleared, step_waiting self event h.waiting⟩
  exact forall_prefix_iff_stepsMeet hkeeps step_attributes
    ⟨fun call hcall => (hinit call hcall).1, fun call hcall => (hinit call hcall).2⟩
    fun call hcall => (hinit call hcall).1

/-- Two orders are placed; the second is acknowledged, and the first then fails in transport. -/
def overlappingOrders : List RequestEvent :=
  [.call "privatePostOrder", .call "privatePostOrder", .receive 1 "orderId 2" none,
    .fail 0 "NetworkError"]

/-- The order that failed returns the acknowledgement of the other. -/
theorem failed_order_returns_other_body :
    (GuardedCcxtExchange.run "binance" ["privatePostOrder"] overlappingOrders).calls.map
        (fun call => (call.body, call.result)) =
      [(none, some (.ok "orderId 2")), (some "orderId 2", some (.ok "orderId 2"))] := by
  decide +kernel

end FinanceKing.Execution
