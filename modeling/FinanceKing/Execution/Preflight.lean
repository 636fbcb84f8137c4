import FinanceKing.Execution.Throttle
import FinanceKing.Execution.VenueModels
import FinanceKing.Lib.Checklist
import FinanceKing.Lib.JsonText
import FinanceKing.Lib.Rounding
import FinanceKing.Risk.KillSwitchJournal

/-! The eleven checks that run before the demo runtime accepts any work. They run in order, the first failed item
    stops the list, and the report names it. The kill switch is first: it touches no venue, and it is the only item
    that may leave the runtime running and refusing orders. -/

namespace FinanceKing.Execution

open Lib

/-! ### Items and outcomes -/

/-- The checklist, in the order it runs. -/
inductive PreflightItem where
  | killSwitchJournal
  | allowlistedEndpoints
  | clockSkew
  | credentialKeyType
  | symbolUniverse
  | symbolRoundTrip
  | symbolFilters
  | exchangeState
  | orderRateBudget
  | userDataHeartbeat
  | costParameterProvenance
  deriving DecidableEq

namespace PreflightItem

def value : PreflightItem → String
  | killSwitchJournal => "preflight.kill_switch_journal"
  | allowlistedEndpoints => "preflight.endpoints_allowlisted"
  | clockSkew => "preflight.clock_skew"
  | credentialKeyType => "preflight.credential_key_type"
  | symbolUniverse => "preflight.symbol_universe"
  | symbolRoundTrip => "preflight.symbol_round_trip"
  | symbolFilters => "preflight.symbol_filters"
  | exchangeState => "preflight.exchange_state"
  | orderRateBudget => "preflight.order_rate_budget"
  | userDataHeartbeat => "preflight.user_data_heartbeat"
  | costParameterProvenance => "preflight.cost_parameter_provenance"

def all : List PreflightItem :=
  [killSwitchJournal, allowlistedEndpoints, clockSkew, credentialKeyType, symbolUniverse, symbolRoundTrip,
    symbolFilters, exchangeState, orderRateBudget, userDataHeartbeat, costParameterProvenance]

end PreflightItem

inductive Verdict where
  | passed
  | failed
  | routed
  deriving DecidableEq

/-- One item's verdict and the evidence it was reached from. -/
structure CheckOutcome where
  item : PreflightItem
  verdict : Verdict
  detail : Message
  evidence : List (String × Message)
  deriving DecidableEq

def CheckOutcome.isBlocking (self : CheckOutcome) : Bool := self.verdict = .failed

/-- Every item's outcome, in checklist order. -/
structure PreflightReport where
  venueId : Venue
  outcomes : List CheckOutcome
  deriving DecidableEq

def PreflightReport.failures (self : PreflightReport) : List CheckOutcome :=
  self.outcomes.filter CheckOutcome.isBlocking

def PreflightReport.isReady (self : PreflightReport) : Bool :=
  self.failures = [] && self.outcomes.length = PreflightItem.all.length

/-! ### What the checks read -/

/-- `PERMITTED_HOSTS`. -/
def permittedHosts : List String :=
  ["testnet.binance.vision", "stream.testnet.binance.vision", "ws-api.testnet.binance.vision",
    "testnet.binancefuture.com", "stream.binancefuture.com", "api-testnet.bybit.com", "stream-testnet.bybit.com"]

inductive UserDataMechanism where
  | sessionLogonEd25519
  | listenKey
  deriving DecidableEq

def UserDataMechanism.value : UserDataMechanism → String
  | .sessionLogonEd25519 => "session_logon_ed25519"
  | .listenKey => "listen_key"

inductive CredentialKind where
  | ed25519
  | hmac
  deriving DecidableEq

def CredentialKind.value : CredentialKind → String
  | .ed25519 => "ed25519"
  | .hmac => "hmac"

/-- A venue's profile as the checks read it; every endpoint resolves to a permitted host. -/
structure ConnectedProfile extends VenueProfile where
  endpointHosts : List String
  recvWindowMs : ℤ
  maxClockDriftMs : ℤ
  userDataMechanism : UserDataMechanism
  permitted : ∀ host ∈ endpointHosts, host ∈ permittedHosts

/-- A venue, call by call. The two reads of the balances are of different moments and need not agree. -/
structure ExecutionVenue where
  profile : ConnectedProfile
  fetchBalances : PreflightItem → VenueAnswer (List VenueBalance)
  exchangeInfo : VenueAnswer VenueExchangeInfo
  fetchOpenOrders : VenueAnswer (List VenueOrder)

/-- The venue's clock against the local ones: its answer, the local reading and the two monotonic ones. -/
structure ClockSkewMonitor where
  profile : ConnectedProfile
  serverTimeMs : VenueAnswer ℤ
  nowUtc : DateTime
  monotonicBeforeSeconds : Seconds
  monotonicAfterSeconds : Seconds

/-- What waiting for a first user-data event comes to. -/
inductive FirstEvent where
  | event (fields : List (String × JsonValue))
  | closed
  | silent

/-- Case folding and the alphanumeric characters, which Python takes from the Unicode database. -/
structure UnicodeTables where
  casefold : Char → List Char
  isAlphanumeric : Char → Bool

structure PreflightInputs where
  venue : ExecutionVenue
  journal : JournalReadOutcome
  clockMonitor : ClockSkewMonitor
  credentialKind : CredentialKind
  requiredSymbols : Finset String
  configuredOrderRatePer10s : ℤ
  costParameterProvenanceId : String
  userData : Option FirstEvent
  localStateExpectsHoldings : Bool
  userDataTimeoutSeconds : Seconds

/-! ### Calls -/

inductive CallName where
  | readJournal
  | serverTime
  | fetchBalances
  | exchangeInfo
  | fetchOpenOrders
  | connectUserData
  | nextUserData
  deriving DecidableEq

/-- A call, under the item that makes it. -/
structure PreflightCall where
  item : PreflightItem
  name : CallName
  deriving DecidableEq

/-- The kill-switch gate, and the calls made so far. -/
structure Session where
  gate : KillSwitchState
  calls : List PreflightCall
  deriving DecidableEq

/-- A check: it may call out, move the gate, and raise. -/
abbrev Preflight (α : Type) := EStateM PyError Session α

def record (item : PreflightItem) (name : CallName) : Preflight Unit :=
  modify fun session => { session with calls := session.calls ++ [⟨item, name⟩] }

/-- What a call that may raise gives, raised. -/
def lift {α : Type} (result : PyResult α) : Preflight α :=
  match result with
  | .ok a => pure a
  | .error e => throw e

/-- A venue's answer outside any handler: a refusal is raised. -/
def answered {α : Type} (answer : VenueAnswer α) : Preflight α := lift (answer.mapError VenueRefusal.error)

/-! ### The kill switch -/

/-- The journal's read, adopted into the gate. -/
def restoreKillSwitch (journal : JournalReadOutcome) : Preflight JournalReadOutcome := do
  record .killSwitchJournal .readJournal
  modify fun session => { session with gate := deriveState journal }
  return journal

/-- Item 1: an unreadable journal fails, an open incident leaves the runtime halted, and the gate opens only for a
    journal that was read and holds none. -/
def checkKillSwitchJournal (journal : JournalReadOutcome) : Preflight CheckOutcome := do
  let outcome ← restoreKillSwitch journal
  let session ← get
  let state := session.gate
  match outcome with
  | .unreadable _ =>
    return ⟨.killSwitchJournal, .failed, state.haltedReason.getD ["the kill-switch journal could not be read"],
      [("halted", ["true"])]⟩
  | .read _ =>
    if state.isHalted then
      return ⟨.killSwitchJournal, .routed,
        ["incident ", state.incidentId.elim "None" Piece.uuid, " is open in the journal; the runtime starts halted ",
          "and only #53's resume procedure reopens it"],
        [("halted", ["true"]), ("incident_id", [state.incidentId.elim "None" Piece.uuid]),
          ("tripped_at_utc", [state.trippedAtUtc.elim "" Piece.instant])]⟩
    else return ⟨.killSwitchJournal, .passed, ["the journal was read and holds no open incident"],
      [("halted", ["false"])]⟩

/-! ### Endpoints, clock and credential -/

def checkEndpointsAllowlisted (profile : ConnectedProfile) : CheckOutcome :=
  ⟨.allowlistedEndpoints, .passed,
    [.count profile.endpointHosts.length, " endpoint(s) resolved inside the compiled-in allowlist"],
    [("hosts", [.texts profile.endpointHosts])]⟩

/-- One skew measurement, with the round trip it was corrected for. -/
structure ClockSkewSample where
  venueId : Venue
  serverTimeUtc : DateTime
  localMidpointUtc : DateTime
  roundTripSeconds : Seconds
  skewMs : ℤ
  deriving DecidableEq

/-- The local clock against the venue's, at the middle of the round trip. -/
def measureClockSkew (venueId : Venue) (serverEpochMs : ℤ) (localBeforeUtc : DateTime)
    (monotonicBeforeSeconds monotonicAfterSeconds : Seconds) : PyResult ClockSkewSample := do
  let roundTripSeconds := monotonicAfterSeconds - monotonicBeforeSeconds
  raiseIf (roundTripSeconds < 0) .clockDrift
    [venueId.value, " skew sample spans a monotonic regression of ", .decimal roundTripSeconds,
      "s; time.monotonic cannot go backwards, so the readings did not come from one counter"]
  let localMidpointUtc : DateTime := localBeforeUtc + roundHalfEven (roundTripSeconds / 2 * 1000000)
  raiseIf (datetimeMax < localMidpointUtc) .overflowError ["date value out of range"]
  let serverTimeUtc ← venueEpochToUtc serverEpochMs
  return ⟨venueId, serverTimeUtc, localMidpointUtc, roundTripSeconds,
    roundHalfEven (((serverTimeUtc - localMidpointUtc : ℤ) : ℚ) / 1000)⟩

/-- `ClockSkewMonitor.sample`. -/
def ClockSkewMonitor.sample (self : ClockSkewMonitor) : Preflight ClockSkewSample := do
  record .clockSkew .serverTime
  let serverEpochMs ← answered self.serverTimeMs
  lift (measureClockSkew self.profile.venueId serverEpochMs self.nowUtc self.monotonicBeforeSeconds
    self.monotonicAfterSeconds)

/-- Item 3: the skew inside the profile's budget. -/
def clockSkewOutcome (profile : ConnectedProfile) (sample : ClockSkewSample) : CheckOutcome :=
  let evidence : List (String × Message) :=
    [("skew_ms", [.count sample.skewMs]), ("max_clock_drift_ms", [.count profile.maxClockDriftMs]),
      ("recv_window_ms", [.count profile.recvWindowMs]),
      ("round_trip_seconds", [.decimal (roundHalfEven (sample.roundTripSeconds * 1000) / 1000)]),
      ("server_time_utc", [.instant sample.serverTimeUtc])]
  if profile.maxClockDriftMs < |sample.skewMs| then
    ⟨.clockSkew, .failed,
      ["local clock is ", .count sample.skewMs, "ms from venue time, past the ", .count profile.maxClockDriftMs,
        "ms budget; fix the clock, never the window"], evidence⟩
  else ⟨.clockSkew, .passed,
    ["skew ", .count sample.skewMs, "ms inside the ", .count profile.maxClockDriftMs, "ms budget"], evidence⟩

def checkClockSkew (monitor : ClockSkewMonitor) : Preflight CheckOutcome := do
  let sample ← monitor.sample
  return clockSkewOutcome monitor.profile sample

/-- The key type the venue's user-data mechanism forces. -/
def requiredCredentialKind (profile : ConnectedProfile) : CredentialKind :=
  match profile.userDataMechanism with
  | .sessionLogonEd25519 => .ed25519
  | .listenKey => .hmac

def credentialVenueCodes : List ℤ := [-1022, -1102, -2014, -2015]

def renderCode (venueCode : Option ℤ) : Piece := venueCode.elim "None" Piece.count

/-- Item 4: the right kind of key, and a venue that takes it. -/
def checkCredentialKeyType (venue : ExecutionVenue) (credentialKind : CredentialKind) : Preflight CheckOutcome :=
  let profile := venue.profile
  let required := requiredCredentialKind profile
  if credentialKind ≠ required then
    return ⟨.credentialKeyType, .failed,
      [profile.venueId.value, " authenticates with ", profile.userDataMechanism.value, " and requires a ",
        required.value, " key; a ", credentialKind.value, " key was presented"],
      [("required_key_type", [required.value]), ("presented_key_type", [credentialKind.value])]⟩
  else do
    record .credentialKeyType .fetchBalances
    match venue.fetchBalances .credentialKeyType with
    | .error rejected =>
      let classification :=
        if rejected.venueCode.any (· ∈ credentialVenueCodes) then "credential" else "unclassified venue rejection"
      return ⟨.credentialKeyType, .failed,
        (["the venue refused a signed account call with ", .text classification, " error ",
          renderCode rejected.venueCode, ": "] : Message) ++ rejected.message,
        [("required_key_type", [required.value]), ("venue_code", [renderCode rejected.venueCode])]⟩
    | .ok balances =>
      return ⟨.credentialKeyType, .passed,
        [required.value, " key signed an account call returning ", .count balances.length, " balance rows"],
        [("required_key_type", [required.value]), ("asset_row_count", [.count balances.length])]⟩

/-! ### Symbols -/

/-- `[A-Z0-9]{2,32}` over the whole text. -/
def isTradableSymbol (raw : String) : Bool :=
  2 ≤ raw.toList.length && raw.toList.length ≤ 32 && raw.toList.all fun c => c.isUpper || c.isDigit

/-- One venue symbol, judged; `symbol` is always what the venue sent. -/
structure SymbolClassification where
  symbol : String
  isTradable : Bool
  deriving DecidableEq

def classifySymbol (raw : String) : SymbolClassification := ⟨raw, isTradableSymbol raw⟩

def tradableSymbols (raws : List String) : Finset String :=
  (((raws.map classifySymbol).filter SymbolClassification.isTradable).map SymbolClassification.symbol).toFinset

/-- Item 5: every requested symbol is in the venue's tradable set. -/
def checkSymbolUniverse (venueSymbols : List String) (requiredSymbols : Finset String) : CheckOutcome :=
  let tradable := tradableSymbols venueSymbols
  let missing := requiredSymbols \ tradable
  if missing.Nonempty then
    ⟨.symbolUniverse, .failed,
      [.texts (sortedSet missing), " requested but not tradable on the venue; ", .count tradable.card, " of ",
        .count venueSymbols.length, " listed symbols are tradable"],
      [("missing_symbols", [.texts (sortedSet missing)]), ("tradable_symbol_count", [.count tradable.card])]⟩
  else if requiredSymbols = ∅ then
    ⟨.symbolUniverse, .failed, ["no symbols were requested; a runtime with an empty universe trades nothing"],
      [("tradable_symbol_count", [.count tradable.card])]⟩
  else ⟨.symbolUniverse, .passed,
    [.count requiredSymbols.card, " requested symbol(s) inside ", .count tradable.card, " tradable"],
    [("tradable_symbol_count", [.count tradable.card]), ("listed_symbol_count", [.count venueSymbols.length])]⟩

/-- Whether a symbol reaches a log sink and comes back. A text that validated has no lone surrogate, so it always
    encodes. -/
def survivesTheLogSink (raw : String) : Bool :=
  (classifySymbol raw).symbol = raw && JsonText.read (JsonText.render raw.toList) = some raw.toList

/-- Item 6: every listed symbol survives the log sink. -/
def checkSymbolRoundTrip (venueSymbols : List String) : CheckOutcome :=
  let damaged := venueSymbols.filter fun raw => !survivesTheLogSink raw
  let nonAscii := venueSymbols.filter fun raw => raw.toList.any fun c => 127 < c.toNat
  if damaged ≠ [] then
    ⟨.symbolRoundTrip, .failed, [.count damaged.length, " symbol(s) did not round-trip through the log sink"],
      [("damaged_symbol_count", [.count damaged.length])]⟩
  else ⟨.symbolRoundTrip, .passed,
    [.count venueSymbols.length, " symbol(s) round-tripped, including ", .count nonAscii.length, " non-ascii"],
    [("non_ascii_symbol_count", [.count nonAscii.length])]⟩

/-- The tick and the step of each symbol, or the outcome of the first whose filters the venue did not make usable;
    nothing else is caught. -/
def loadFilters (info : VenueExchangeInfo) : List String → PyResult (Except CheckOutcome (List (String × Decimal × Decimal)))
  | [] => .ok (.ok [])
  | symbol :: rest =>
    match orderFiltersOf info symbol with
    | .error e =>
      if e.kind = .permanentExchange then
        .ok (.error ⟨.symbolFilters, .failed, ([symbol, " filters could not be loaded: "] : Message) ++ e.message,
          [("symbol", [symbol])]⟩)
      else .error e
    | .ok filters =>
      (loadFilters info rest).map fun loaded => loaded.map ((symbol, filters.tickSize, filters.stepSize) :: ·)

/-- Item 7: tick and step for every requested symbol, positive. -/
def checkSymbolFilters (info : VenueExchangeInfo) (requiredSymbols : Finset String) : PyResult CheckOutcome := do
  match ← loadFilters info (sortedSet requiredSymbols) with
  | .error outcome => return outcome
  | .ok filtersBySymbol =>
    match filtersBySymbol.find? fun entry => entry.2.1 ≤ 0 ∨ entry.2.2 ≤ 0 with
    | some (symbol, tickSize, stepSize) =>
      return ⟨.symbolFilters, .failed,
        [symbol, " declares tick ", .decimal tickSize, " and step ", .decimal stepSize], [("symbol", [symbol])]⟩
    | none =>
      return ⟨.symbolFilters, .passed,
        ["tick and step loaded as Decimal for ", .count requiredSymbols.card, " symbol(s)"],
        [("symbol_with_filters_count", [.count requiredSymbols.card]),
          ("filters", filtersBySymbol.flatMap fun entry =>
            ([.text entry.1, ":tick=", .decimal entry.2.1, ":step=", .decimal entry.2.2, " "] : Message))]⟩

/-! ### State, budget, heartbeat and provenance -/

/-- Item 8: the venue's view, read inside the item; an empty one where holdings were expected goes to the wipe
    handler. -/
def checkExchangeState (venue : ExecutionVenue) (localStateExpectsHoldings : Bool) : Preflight CheckOutcome := do
  let refusedWith (refused : VenueRefusal) : CheckOutcome :=
    ⟨.exchangeState, .failed,
      (["the venue refused the state read, so local state cannot be rebuilt from it: "] : Message) ++ refused.message,
      [("venue_code", [renderCode refused.venueCode])]⟩
  record .exchangeState .fetchBalances
  match venue.fetchBalances .exchangeState with
  | .error refused => return refusedWith refused
  | .ok balances =>
    record .exchangeState .fetchOpenOrders
    match venue.fetchOpenOrders with
    | .error refused => return refusedWith refused
    | .ok openOrders =>
      let held := balances.filter fun entry => entry.freeAmount ≠ 0 ∨ entry.lockedAmount.getD 0 ≠ 0
      if held = [] ∧ openOrders = [] ∧ localStateExpectsHoldings then
        return ⟨.exchangeState, .routed,
          ["venue reports zero balances and no open orders where local state expected holdings; routed to the wipe ",
            "handler, not reported as a discrepancy"],
          [("asset_row_count", [.count balances.length]), ("open_order_count", [.count openOrders.length])]⟩
      else return ⟨.exchangeState, .passed,
        ["local state rebuilt from ", .count held.length, " funded asset(s) and ", .count openOrders.length,
          " open order(s)"],
        [("funded_asset_count", [.count held.length]), ("open_order_count", [.count openOrders.length])]⟩

def spotOrderRatePer10s : ℕ := 50

/-- Item 9: the limiter's budget is the profile's, and spot's is the measured one. -/
def checkOrderRateBudget (profile : ConnectedProfile) (configuredOrderRatePer10s : ℤ) : CheckOutcome :=
  if configuredOrderRatePer10s ≠ profile.orderRatePer10s then
    ⟨.orderRateBudget, .failed,
      ["order-rate budget is ", .count configuredOrderRatePer10s, "/10s but ", profile.venueId.value, " declares ",
        .count profile.orderRatePer10s, "/10s"],
      [("configured_order_rate_per_10s", [.count configuredOrderRatePer10s]),
        ("profile_order_rate_per_10s", [.count profile.orderRatePer10s])]⟩
  else if profile.market = .spot ∧ profile.orderRatePer10s ≠ spotOrderRatePer10s then
    ⟨.orderRateBudget, .failed,
      ["spot budget is ", .count profile.orderRatePer10s, "/10s; testnet was measured at ",
        .count spotOrderRatePer10s, "/10s on 2026-08-01 and is the binding constraint"],
      [("profile_order_rate_per_10s", [.count profile.orderRatePer10s])]⟩
  else ⟨.orderRateBudget, .passed,
    ["limiter budget ", .count profile.orderRatePer10s, "/10s taken from the profile"],
    [("profile_order_rate_per_10s", [.count profile.orderRatePer10s])]⟩

/-- Item 10: one event before the runtime declares itself ready. -/
def checkUserDataHeartbeat (source : Option FirstEvent) (timeoutSeconds : Seconds) : Preflight CheckOutcome :=
  match source with
  | none =>
    return ⟨.userDataHeartbeat, .failed, ["no user-data source was supplied; fills would arrive nowhere"], []⟩
  | some first => do
    record .userDataHeartbeat .connectUserData
    record .userDataHeartbeat .nextUserData
    match first with
    | .silent =>
      return ⟨.userDataHeartbeat, .failed,
        ["no user-data event within ", .decimal timeoutSeconds, "s of connecting; the socket is open and the stream ",
          "is not"],
        [("timeout_seconds", [.decimal timeoutSeconds])]⟩
    | .closed =>
      return ⟨.userDataHeartbeat, .failed, ["the user-data stream closed before delivering an event"], []⟩
    | .event fields =>
      return ⟨.userDataHeartbeat, .passed,
        ["first user-data event observed with ", .count fields.length, " field(s)"],
        [("event_field_count", [.count fields.length])]⟩

/-- Casefolded, with every separator dropped. -/
def condensedProvenance (unicode : UnicodeTables) (candidate : String) : List Char :=
  (candidate.toList.flatMap unicode.casefold).filter unicode.isAlphanumeric

/-- `PRODUCTION_PROVENANCE_FORBIDDEN_SUBSTRING`. -/
def forbiddenProvenance : List Char := ['t', 'e', 's', 't', 'n', 'e', 't']

/-- Item 11: the cost parameters name a production calibration. -/
def checkCostParameterProvenance (unicode : UnicodeTables) (provenanceId : String) : CheckOutcome :=
  let evidence : List (String × Message) := [("provenance_id", [provenanceId])]
  if strip provenanceId = [] then
    ⟨.costParameterProvenance, .failed,
      ["cost parameters carry a blank provenance; an id that records nothing cannot be distinguished later from a ",
        "testnet calibration"], evidence⟩
  else if forbiddenProvenance <:+: condensedProvenance unicode provenanceId then
    ⟨.costParameterProvenance, .failed,
      ["cost parameters carry provenance ", .quoted provenanceId, ", which names testnet; testnet spreads are ",
        "roughly 47x production's and produce a model that looks conservative and is fiction"], evidence⟩
  else ⟨.costParameterProvenance, .passed, ["cost parameters calibrated from ", .text provenanceId], evidence⟩

/-! ### The run -/

/-- One more item, unless the last one blocks. -/
def nextItem (check : Preflight CheckOutcome) (outcomes : List CheckOutcome) : Preflight (List CheckOutcome) :=
  next CheckOutcome.isBlocking check outcomes

/-- The three items that share one read of `exchangeInfo`. -/
def symbolItems (inputs : PreflightInputs) (outcomes : List CheckOutcome) : Preflight (List CheckOutcome) :=
  unlessStopped CheckOutcome.isBlocking outcomes do
    record .symbolUniverse .exchangeInfo
    let exchangeInfo ← answered inputs.venue.exchangeInfo
    let listed := (exchangeInfo.symbols.filter VenueSymbol.isTrading).map VenueSymbol.symbol
    let outcomes := outcomes ++ [checkSymbolUniverse listed inputs.requiredSymbols]
    let outcomes ← nextItem (pure (checkSymbolRoundTrip listed)) outcomes
    nextItem (lift (checkSymbolFilters exchangeInfo inputs.requiredSymbols)) outcomes

section Run

variable (unicode : UnicodeTables) (inputs : PreflightInputs)

/-- The items behind the symbols. -/
def remainingItems (outcomes : List CheckOutcome) : Preflight (List CheckOutcome) := do
  let outcomes ← nextItem (checkExchangeState inputs.venue inputs.localStateExpectsHoldings) outcomes
  let outcomes ← nextItem
    (pure (checkOrderRateBudget inputs.venue.profile inputs.configuredOrderRatePer10s)) outcomes
  let outcomes ← nextItem (checkUserDataHeartbeat inputs.userData inputs.userDataTimeoutSeconds) outcomes
  nextItem (pure (checkCostParameterProvenance unicode inputs.costParameterProvenanceId)) outcomes

/-- The checklist in order, stopped at the first blocking failure. -/
def runPreflight : Preflight PreflightReport := do
  let journal ← checkKillSwitchJournal inputs.journal
  let outcomes ← nextItem (pure (checkEndpointsAllowlisted inputs.venue.profile)) [journal]
  let outcomes ← nextItem (checkClockSkew inputs.clockMonitor) outcomes
  let outcomes ← nextItem (checkCredentialKeyType inputs.venue inputs.credentialKind) outcomes
  let outcomes ← symbolItems inputs outcomes
  let outcomes ← remainingItems unicode inputs outcomes
  return ⟨inputs.venue.profile.venueId, outcomes⟩

/-- The run, or an abort unless every item cleared. -/
def preflightOrAbort : Preflight PreflightReport := do
  let report ← runPreflight unicode inputs
  lift (raiseIf (report.failures ≠ []) .preflightAborted
    (([report.venueId.value, " pre-flight failed: "] : Message) ++
      List.intercalate (["; "] : Message) (report.failures.map fun failure =>
        .text failure.item.value :: ": " :: failure.detail)))
  lift (raiseIf (¬ report.isReady) .preflightAborted
    [report.venueId.value, " pre-flight ran ", .count report.outcomes.length, " of ", .count PreflightItem.all.length,
      " items; an unrun item is not a passed item"])
  return report

end Run

end FinanceKing.Execution
