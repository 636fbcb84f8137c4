import FinanceKing.Domain.Guards
import FinanceKing.Lib.Dict

/-! Admission control for one venue's IP budget: a hard stop after a 418, a `Retry-After` cool-down
    after a 429, and two rolling windows. It refuses and never waits. Every reading of the monotonic
    clock is taken from a sequence of instants, so time may pass between any two of them. -/

namespace FinanceKing.Execution

open Lib

/-- A reading of the monotonic clock. -/
abbrev Seconds := ℚ

/-- What the two injected clocks give, reading by reading. -/
structure Clocks where
  monotonicSeconds : ℕ → Seconds
  nowUtc : ℕ → DateTime

def orderWindowSeconds : Seconds := 10

def weightWindowSeconds : Seconds := 60

def usedWeightHeader : String := "x-mbx-used-weight-1m"

def retryAfterHeader : String := "retry-after"

def tooManyRequestsStatus : ℤ := 429

def ipBannedStatus : ℤ := 418

/-- What a request is for, which decides whether it is shed. -/
inductive RequestClass where
  | order
  | reconciliation
  | marketData
  | research
  | backfill
  deriving DecidableEq

def RequestClass.value : RequestClass → String
  | .order => "order"
  | .reconciliation => "reconciliation"
  | .marketData => "market_data"
  | .research => "research"
  | .backfill => "backfill"

/-- Percent of the weight budget above which a class stops being admitted. -/
def weightCeilingPercent : RequestClass → ℕ
  | .order => 100
  | .reconciliation => 95
  | .marketData => 90
  | .research => 80
  | .backfill => 80

theorem weightCeilingPercent_le (requestClass : RequestClass) :
    weightCeilingPercent requestClass ≤ 100 := by
  cases requestClass <;> decide

/-- A class's share of a budget is within it. -/
theorem weightShare_le (ceiling : ℕ) (requestClass : RequestClass) :
    ceiling * weightCeilingPercent requestClass / 100 ≤ ceiling :=
  Nat.div_le_of_le_mul
    ((Nat.mul_le_mul_left _ (weightCeilingPercent_le requestClass)).trans_eq (mul_comm _ _))

/-- What one call to an endpoint costs against the two budgets. -/
structure EndpointCost where
  requestWeight : ℕ
  consumesOrderSlot : Bool
  deriving DecidableEq

inductive Market where
  | spot
  | futures
  deriving DecidableEq

def spotEndpointCosts : List (String × EndpointCost) :=
  [("publicGetExchangeInfo", ⟨20, false⟩), ("privateGetAccount", ⟨20, false⟩),
    ("privateGetOpenOrders", ⟨80, false⟩), ("privateGetMyTrades", ⟨20, false⟩),
    ("privatePostOrder", ⟨1, true⟩), ("privateDeleteOrder", ⟨1, false⟩),
    ("privatePostOrderCancelReplace", ⟨1, true⟩)]

def futuresEndpointCosts : List (String × EndpointCost) :=
  [("fapiPublicGetExchangeInfo", ⟨1, false⟩), ("fapiPrivateV3GetBalance", ⟨5, false⟩),
    ("fapiPrivateV3GetPositionRisk", ⟨5, false⟩), ("fapiPrivateGetOpenOrders", ⟨40, false⟩),
    ("fapiPrivateGetUserTrades", ⟨5, false⟩), ("fapiPrivatePostOrder", ⟨1, true⟩),
    ("fapiPrivateDeleteOrder", ⟨1, false⟩), ("fapiPrivatePutOrder", ⟨1, true⟩)]

def endpointCosts : Market → List (String × EndpointCost)
  | .spot => spotEndpointCosts
  | .futures => futuresEndpointCosts

/-- The venue's numbers the governor reads; both budgets are positive where they are declared. -/
structure VenueProfile where
  venueId : Venue
  market : Market
  orderRatePer10s : ℕ
  requestWeightPerMinute : Option ℕ
  orderRate_pos : 0 < orderRatePer10s
  requestWeight_pos : ∀ ceiling, requestWeightPerMinute = some ceiling → 0 < ceiling
  deriving DecidableEq

/-! ### Responses -/

/-- What the transport saw of a response. -/
structure VenueResponseMetadata where
  httpStatus : ℤ
  headers : Dict String String
  deriving DecidableEq

/-- What a response said about the budget. -/
structure RateLimitObservation where
  httpStatus : ℤ
  usedRequestWeight1m : Option ℕ
  retryAfterSeconds : Option ℕ
  malformedHeaders : List String
  deriving DecidableEq

/-- `int(text)` of ASCII digits. -/
def intOfDigits (digits : List Char) : ℕ := digits.foldl (fun n c => 10 * n + (c.toNat - 48)) 0

/-- A header read as a non-negative integer, and its name when it is there and unreadable. -/
def parseNonNegativeHeader (headers : Dict String String) (name : String) :
    Option ℕ × List String :=
  match headers.get? name with
  | none => (none, [])
  | some raw =>
    let stripped := strip raw
    if stripped = [] ∨ ¬stripped.all (fun c => 48 ≤ c.toNat && c.toNat ≤ 57) then (none, [name])
    else (some (intOfDigits stripped), [])

def parseRateLimitHeaders (metadata : VenueResponseMetadata) : RateLimitObservation :=
  let used := parseNonNegativeHeader metadata.headers usedWeightHeader
  let retry := parseNonNegativeHeader metadata.headers retryAfterHeader
  { httpStatus := metadata.httpStatus
    usedRequestWeight1m := used.1
    retryAfterSeconds := retry.1
    malformedHeaders := used.2 ++ retry.2 }

/-- One time the venue told us the throttle was wrong. -/
structure RateLimitIncident where
  venueId : Venue
  httpStatus : ℤ
  observedAtUtc : DateTime
  retryAfterSeconds : Option ℕ
  usedRequestWeight1m : Option ℕ
  reason : String
  deriving DecidableEq

/-! ### The governor -/

/-- The governor's fields, and how many readings of the monotonic clock have been taken. -/
structure Governor where
  profile : VenueProfile
  readings : ℕ
  orderSlotsUsedAt : List Seconds
  weightCharged : List (Seconds × ℕ)
  observedUsedWeight : Option ℕ
  observedAtSeconds : Option Seconds
  refuseUntilSeconds : Option Seconds
  banned : Bool
  incidents : List RateLimitIncident
  deriving DecidableEq

namespace Governor

/-- A governor that has admitted and seen nothing. -/
def init (profile : VenueProfile) (readings : ℕ) : Governor :=
  { profile := profile
    readings := readings
    orderSlotsUsedAt := []
    weightCharged := []
    observedUsedWeight := none
    observedAtSeconds := none
    refuseUntilSeconds := none
    banned := false
    incidents := [] }

/-- Drop window entries the venue has already forgotten. -/
def expire (self : Governor) (nowSeconds : Seconds) : Governor :=
  let weightFloor := nowSeconds - weightWindowSeconds
  let forgotten := ∃ at_ ∈ self.observedAtSeconds, at_ ≤ weightFloor
  { self with
    orderSlotsUsedAt :=
      self.orderSlotsUsedAt.dropWhile fun usedAt => usedAt ≤ nowSeconds - orderWindowSeconds
    weightCharged := self.weightCharged.dropWhile fun charge => charge.1 ≤ weightFloor
    observedUsedWeight := if forgotten then none else self.observedUsedWeight
    observedAtSeconds := if forgotten then none else self.observedAtSeconds }

/-- The estimate over the charges and the observation the governor holds. -/
def estimate (self : Governor) : ℕ :=
  let localTotal := (self.weightCharged.map Prod.snd).sum
  match self.observedUsedWeight, self.observedAtSeconds with
  | some observedWeight, some observedAt =>
    -- a charge that ties with the observation is counted twice rather than not at all
    let chargedSince := ((self.weightCharged.filter fun charge => observedAt ≤ charge.1).map Prod.snd).sum
    max localTotal (observedWeight + chargedSince)
  | _, _ => localTotal

/-- Take one reading of the monotonic clock and expire what it has passed. -/
def refresh (self : Governor) (clocks : Clocks) : Governor :=
  { self with readings := self.readings + 1 }.expire (clocks.monotonicSeconds self.readings)

/-- The best available estimate of weight consumed in the trailing minute. -/
def usedRequestWeight (self : Governor) (clocks : Clocks) : ℕ × Governor :=
  ((self.refresh clocks).estimate, self.refresh clocks)

/-- Order slots consumed in the trailing ten seconds. -/
def ordersInWindow (self : Governor) (clocks : Clocks) : ℕ × Governor :=
  ((self.refresh clocks).orderSlotsUsedAt.length, self.refresh clocks)

/-- Emit consumption where the venue publishes a budget, which takes a reading. -/
def publishWeightUtilisation (self : Governor) (clocks : Clocks) : Governor :=
  match self.profile.requestWeightPerMinute with
  | none => self
  | some _ => (self.usedRequestWeight clocks).2

/-! ### Refusals -/

def refuseIfBanned (self : Governor) : PyResult Unit :=
  raiseIf (self.banned = true) .venueIpBanned
    [self.profile.venueId.value, " returned HTTP ", .count ipBannedStatus, " and this governor is " ++
      "stopped; retrying into a ban extends it, so recovery is an operator action after the cause is " ++
      "understood, not a timer"]

/-- Refuse while a cool-down has not elapsed; one that has is forgotten. -/
def refuseIfCoolingDown (self : Governor) (nowSeconds : Seconds) : PyResult Unit × Governor :=
  match self.refuseUntilSeconds with
  | none => (.ok (), self)
  | some refuseUntil =>
    if refuseUntil ≤ nowSeconds then (.ok (), { self with refuseUntilSeconds := none })
    else
      (raise .rateBudgetExhausted
        [self.profile.venueId.value, " returned ", .count tooManyRequestsStatus, " and asked for a " ++
          "cooldown that has not elapsed; admitting anything now is the request that escalates the " ++
          "refusal into an IP ban"], self)

def refuseIfOrderRateExhausted (self : Governor) (endpoint : String) : PyResult Unit :=
  raiseIf (self.profile.orderRatePer10s ≤ self.orderSlotsUsedAt.length) .rateBudgetExhausted
    [self.profile.venueId.value, " allows ", .count self.profile.orderRatePer10s, " orders per ",
      .decimal orderWindowSeconds, "s and ", .count self.orderSlotsUsedAt.length,
      " are already in the window; ", endpoint, " was not sent, so the intended position was not " ++
      "established and must be treated as unplaced"]

/-- Refuse what would take the estimate above the class's share of the budget. -/
def refuseIfWeightExhausted (self : Governor) (clocks : Clocks) (requestClass : RequestClass)
    (endpoint : String) (cost : EndpointCost) : PyResult Unit × Governor :=
  match self.profile.requestWeightPerMinute with
  | none => (.ok (), self)
  | some ceiling =>
    let shedAbove := ceiling * weightCeilingPercent requestClass / 100
    let (used, self) := self.usedRequestWeight clocks
    let projected := used + cost.requestWeight
    (raiseIf (shedAbove < projected) .rateBudgetExhausted
      [self.profile.venueId.value, " request weight would reach ", .count projected, " against a ",
        .count shedAbove, " ceiling for ", requestClass.value, "; ", endpoint, " was shed so that " ++
        "order state and reconciliation keep the remaining budget"], self)

/-! ### Admission and observation -/

/-- Bill an admitted request at the reading its admission began with. -/
def charge (self : Governor) (cost : EndpointCost) (nowSeconds : Seconds) : Governor :=
  { self with
    orderSlotsUsedAt :=
      if cost.consumesOrderSlot then self.orderSlotsUsedAt ++ [nowSeconds] else self.orderSlotsUsedAt
    weightCharged := self.weightCharged ++ [(nowSeconds, cost.requestWeight)] }

/-- Grant admission for one request, or refuse it; a refusal leaves what the checks did to the state. -/
def admitRequest (self : Governor) (clocks : Clocks) (requestClass : RequestClass) (endpoint : String)
    (cost : EndpointCost) : PyResult Unit × Governor :=
  match self.refuseIfBanned with
  | .error refusal => (.error refusal, self)
  | .ok () =>
    let nowSeconds := clocks.monotonicSeconds self.readings
    match (self.refresh clocks).refuseIfCoolingDown nowSeconds with
    | (.error refusal, self) => (.error refusal, self)
    | (.ok (), self) =>
      match if cost.consumesOrderSlot then self.refuseIfOrderRateExhausted endpoint else .ok () with
      | .error refusal => (.error refusal, self)
      | .ok () =>
        match self.refuseIfWeightExhausted clocks requestClass endpoint cost with
        | (.error refusal, self) => (.error refusal, self)
        | (.ok (), self) => (.ok (), (self.charge cost nowSeconds).publishWeightUtilisation clocks)

/-- Treat the whole budget as consumed when the header is unreadable. -/
def assumeBudgetSpent (self : Governor) (nowSeconds : Seconds) : Governor :=
  match self.profile.requestWeightPerMinute with
  | none => self
  | some ceiling =>
    { self with observedUsedWeight := some ceiling, observedAtSeconds := some nowSeconds }

def addIncident (self : Governor) (clocks : Clocks) (observation : RateLimitObservation)
    (reason : String) : Governor :=
  { self with
    incidents := self.incidents ++
      [{ venueId := self.profile.venueId
         httpStatus := observation.httpStatus
         observedAtUtc := clocks.nowUtc self.incidents.length
         retryAfterSeconds := observation.retryAfterSeconds
         usedRequestWeight1m := observation.usedRequestWeight1m
         reason := reason }] }

def recordBan (self : Governor) (clocks : Clocks) (observation : RateLimitObservation) : Governor :=
  { self with banned := true }.addIncident clocks observation "ip_banned"

/-- The cool-down a 429 asks for: what it says, or the venue's own window when it says nothing. -/
def cooldownSeconds (observation : RateLimitObservation) : Seconds :=
  match observation.retryAfterSeconds with
  | some seconds => seconds
  | none => weightWindowSeconds

def recordThrottleBreach (self : Governor) (clocks : Clocks) (observation : RateLimitObservation)
    (nowSeconds : Seconds) : Governor :=
  { self with refuseUntilSeconds := some (nowSeconds + cooldownSeconds observation) }.addIncident
    clocks observation
    (if observation.retryAfterSeconds.isSome then "retry_after" else "no_retry_after")

/-- Reconcile the governor against what the venue just said. -/
def observe (self : Governor) (clocks : Clocks) (metadata : VenueResponseMetadata) : Governor :=
  let observation := parseRateLimitHeaders metadata
  let nowSeconds := clocks.monotonicSeconds self.readings
  let self := { self with readings := self.readings + 1 }
  let self :=
    if usedWeightHeader ∈ observation.malformedHeaders then self.assumeBudgetSpent nowSeconds
    else
      match observation.usedRequestWeight1m with
      | some used =>
        { self with
          observedUsedWeight := some used
          observedAtSeconds := some nowSeconds }.publishWeightUtilisation clocks
      | none => self
  if observation.httpStatus = ipBannedStatus then self.recordBan clocks observation
  else if observation.httpStatus = tooManyRequestsStatus then
    self.recordThrottleBreach clocks observation nowSeconds
  else self

end Governor

/-- The declared cost of an endpoint, refused where it is unknown or places an order through a view
    that is not the order path. -/
def costOf (profile : VenueProfile) (requestClass : RequestClass) (endpoint : String) :
    PyResult EndpointCost :=
  match (endpointCosts profile.market).lookup endpoint with
  | none => raise .throttleConfiguration
      [profile.venueId.value, ": ", endpoint, " has no declared request weight, so admitting it would " ++
        "spend an unknown amount of the venue's budget. Add it to ENDPOINT_COSTS with the weight the " ++
        "venue documents"]
  | some cost => do
    raiseIf (cost.consumesOrderSlot = true ∧ requestClass ≠ .order) .throttleConfiguration
      [profile.venueId.value, ": ", endpoint, " places an order but was issued through a ",
        requestClass.value, " view, which is shed before the order path; an order must never be " ++
        "droppable as low-priority traffic"]
    return cost

end FinanceKing.Execution
