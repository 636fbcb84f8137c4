import FinanceKing.Backtest.Events
import FinanceKing.Lib.Dict

/-! The event loop: it drains the queue in total order, advancing simulated time as it goes, and tells
    the trial ledger about every run it starts. A handler is any program over the surface a
    `RunContext` gives it: it may read the clock, read the dropped count, schedule forward and see the
    refusal, and finish or raise. The log keeps, in order, everything that happened to an event. -/

namespace FinanceKing.Backtest

open Lib

/-! ### Configuration, registration and reports -/

def requirePositiveInt (candidate : ℤ) (fieldName : String) : PyResult Unit :=
  raiseIf (candidate ≤ 0) .runConfig [fieldName, " must be positive; got ", .count candidate]

structure RunConfigFields where
  strategyId : String
  strategyVersion : String
  symbols : List String
  parameters : Dict String Decimal
  startUtc : DateTime
  endUtc : DateTime
  runSeed : ℤ
  eventBudget : ℤ
  deriving DecidableEq

def RunConfigFields.postInit (self : RunConfigFields) : PyResult Unit := do
  requireText self.strategyId "strategy_id"
  requireText self.strategyVersion "strategy_version"
  requirePositiveInt self.eventBudget "event_budget"
  raiseIf (self.runSeed < 0) .runConfig
    ["run_seed must not be negative; got ", .count self.runSeed]
  raiseIf (self.endUtc ≤ self.startUtc) .runConfig
    ["end_utc ", .instant self.endUtc, " must follow start_utc ", .instant self.startUtc]
  raiseIf (self.symbols = []) .runConfig ["symbols must name at least one instrument"]
  self.symbols.forM (fun symbol => requireText symbol "symbol")
  raiseIf (¬self.symbols.Nodup) .runConfig ["symbols contains a duplicate: ", .texts self.symbols]
  self.parameters.keys.forM (fun name => requireText name "parameter name")

/-- Everything that decides what a run produces. -/
structure RunConfig extends RunConfigFields where
  checked : toRunConfigFields.postInit = .ok ()
  deriving DecidableEq

def specHashHexLength : ℕ := 64

structure SpecRegistrationFields where
  specHash : String
  trialsCharged : ℤ
  deriving DecidableEq

def SpecRegistrationFields.postInit (self : SpecRegistrationFields) : PyResult Unit := do
  raiseIf (self.specHash.length ≠ specHashHexLength) .runConfig
    ["spec_hash must be a ", .count specHashHexLength, "-character SHA-256 digest; got ",
      .count self.specHash.length, " characters"]
  raiseIf (¬self.specHash.toList.all (fun character => character ∈ "0123456789abcdef".toList))
    .runConfig ["spec_hash must be lowercase hex; got ", .quoted self.specHash]
  raiseIf (self.trialsCharged < 0) .runConfig
    ["trials_charged must not be negative; got ", .count self.trialsCharged,
      ". The ledger is monotone, so a negative charge describes a state it cannot reach"]

/-- What the trial ledger says about the specification a run belongs to. -/
structure SpecRegistration extends SpecRegistrationFields where
  checked : toSpecRegistrationFields.postInit = .ok ()
  deriving DecidableEq

/-- Whether the ledger holds a charge for this specification. -/
def SpecRegistration.isRegistered (self : SpecRegistration) : Bool := 0 < self.trialsCharged

/-- What leaves a handler when it raises: an `Exception`, or one of the classes that deliberately
    are not one, which no handler in the codebase absorbs. -/
inductive Failure where
  | exception (error : PyError)
  | baseException (className : String)
  deriving DecidableEq

inductive ExecutionOutcome where
  | completed
  | failed
  deriving DecidableEq

/-- One executed configuration, as the ledger hears about it; a failed one carries the exception
    its traceback is rendered from. -/
structure ExecutionReport where
  specHash : String
  configHash : String
  pathLabel : String
  outcome : ExecutionOutcome
  failureDetail : Option PyError
  dispatchedEventCount : ℕ
  deriving DecidableEq

/-- One dispatched event, reduced to what a comparison between two runs needs. -/
structure TraceEntry where
  occursAtUtc : DateTime
  priority : EventPriority
  sequence : ℕ
  eventType : String
  eventDigest : String
  deriving DecidableEq

/-- SHA-256 over the canonical rendering of a configuration, an event and a list of entries. -/
structure Digests where
  config : RunConfig → String
  event : Event → String
  entries : List TraceEntry → String

/-- The entry a dispatched event leaves in the trace. -/
def traceEntry (digests : Digests) (queued : QueuedEvent) : TraceEntry where
  occursAtUtc := queued.occursAtUtc
  priority := queued.priority
  sequence := queued.sequence
  eventType := queued.event.typeName
  eventDigest := digests.event queued.event

/-- What a run did, in a form two runs can be compared on. -/
structure RunTrace where
  configHash : String
  specHash : String
  entries : List TraceEntry
  digest : String
  eventsBeyondWindow : ℕ
  deriving DecidableEq

/-! ### Handlers -/

/-- What a handler does with one event: finish with its next state, raise, schedule an event and go
    on with what `schedule` raised if it did, or read how many events were dropped. -/
inductive HandlerProgram (H : Type) where
  | done (next : H)
  | raise (failure : Failure)
  | schedule (event : Event) (next : Option PyError → HandlerProgram H)
  | eventsBeyondWindow (next : ℕ → HandlerProgram H)

/-- A handler: its state, the event and the instant being dispatched decide what it does. -/
abbrev EventHandler (H : Type) := H → Event → DateTime → HandlerProgram H

/-! ### The loop -/

/-- One thing that happened to an event. -/
inductive Occurrence where
  | queued (position : QueuedEvent)
  | dropped (event : Event)
  | refused (event : Event)
  | dispatched (position : QueuedEvent)
  deriving DecidableEq

/-- The loop's state: its queue, its clock, its count of dropped events, its trace so far, and the
    log of everything that happened. -/
structure LoopState where
  queue : EventQueue
  nowUtc : DateTime
  eventsBeyondWindow : ℕ
  entries : List TraceEntry
  log : List Occurrence
  deriving DecidableEq

/-- Why a run stopped without completing. -/
inductive Stop where
  | unregistered (error : PyError)
  | initialRefused (error : PyError)
  | budgetExhausted (error : PyError)
  | clockBackwards (error : PyError)
  | handlerFailed (failure : Failure)
  deriving DecidableEq

/-- The exception a stop raises. -/
def Stop.failure : Stop → Failure
  | .unregistered error => .exception error
  | .initialRefused error => .exception error
  | .budgetExhausted error => .exception error
  | .clockBackwards error => .exception error
  | .handlerFailed failure => failure

/-- What `EventLoop.run` leaves behind: its result, what it reported, and the log. -/
structure Execution where
  result : Except Stop RunTrace
  reports : List ExecutionReport
  log : List Occurrence
  deriving DecidableEq

/-- A loop as it is constructed: a run's configuration, the ledger's word on its specification, and
    the label its path is reported under. -/
structure EventLoop where
  config : RunConfig
  registration : SpecRegistration
  pathLabel : String
  checked : requireText pathLabel "path_label" = .ok ()
  deriving DecidableEq

section Loop

variable {H : Type} (digests : Digests) (config : RunConfig) (handler : EventHandler H)

/-- Queue an event for its own instant: refused before the instant being dispatched, dropped and
    counted past the window's end. -/
def schedule (event : Event) (state : LoopState) : Option PyError × LoopState :=
  if event.occursAtUtc < state.nowUtc then
    (some ⟨.causality, [event.typeName, " was scheduled at ", .instant event.occursAtUtc,
      ", before the instant being dispatched, ", .instant state.nowUtc,
      ". An event cannot be observed before its cause"]⟩,
      { state with log := state.log ++ [.refused event] })
  else if config.endUtc < event.occursAtUtc then
    (none, { state with
      eventsBeyondWindow := state.eventsBeyondWindow + 1
      log := state.log ++ [.dropped event] })
  else
    (none, { state with
      queue := state.queue.schedule event
      log := state.log ++ [.queued (state.queue.position event)] })

/-- Run a handler's program on the loop's surface. -/
def perform : HandlerProgram H → LoopState → Except Failure H × LoopState
  | .done next, state => (.ok next, state)
  | .raise failure, state => (.error failure, state)
  | .schedule event next, state =>
    perform (next (schedule config event state).1) (schedule config event state).2
  | .eventsBeyondWindow next, state => perform (next state.eventsBeyondWindow) state

/-- Schedule the initial events with the clock still at the window's start; the first refusal
    raises. -/
def scheduleInitial : List Event → LoopState → Option Stop × LoopState
  | [], state => (none, state)
  | event :: rest, state =>
    match schedule config event state with
    | (some error, after) => (some (.initialRefused error), after)
    | (none, after) => scheduleInitial rest after

/-- Move the clock and record one popped event; the clock refuses to move backwards. -/
def advanceTo (queued : QueuedEvent) (rest : EventQueue) (state : LoopState) :
    Except Stop LoopState :=
  if queued.occursAtUtc < state.nowUtc then
    .error (.clockBackwards ⟨.causality,
      ["simulated time cannot move backwards: asked to advance to ", .instant queued.occursAtUtc,
        " from ", .instant state.nowUtc, ". The event queue produced an out-of-order pop, " ++
        "which makes every result from this run void rather than merely wrong"]⟩)
  else
    .ok {
      queue := rest
      nowUtc := queued.occursAtUtc
      eventsBeyondWindow := state.eventsBeyondWindow
      entries := state.entries ++ [traceEntry digests queued]
      log := state.log ++ [.dispatched queued] }

/-- Drain the queue. `remaining` is the event budget less the events already dispatched, so a
    non-empty queue at zero is the exhausted budget. -/
def drain : (remaining : ℕ) → H → LoopState → Option Stop × LoopState
  | remaining, hstate, state =>
    match state.queue.pop with
    | none => (none, state)
    | some (queued, rest) =>
      match remaining with
      | 0 =>
        (some (.budgetExhausted ⟨.eventBudgetExhausted,
          ["run dispatched its full budget of ", .count config.eventBudget, " events with ",
            .count state.queue.heap.length, " still queued at ", .instant state.nowUtc,
            ". A handler scheduling at its own instant never advances simulated time " ++
            "and the queue never drains"]⟩), state)
      | remaining + 1 =>
        match advanceTo digests queued rest state with
        | .error stop => (some stop, state)
        | .ok advanced =>
          match perform config (handler hstate queued.event advanced.nowUtc) advanced with
          | (.error failure, after) => (some (.handlerFailed failure), after)
          | (.ok next, after) => drain remaining next after

/-- The state a run starts in. -/
def LoopState.initial : LoopState := ⟨EventQueue.empty, config.startUtc, 0, [], []⟩

/-- Schedule the initial events and drain the queue. -/
def dispatch (start : H) (initialEvents : List Event) : Option Stop × LoopState :=
  match scheduleInitial config initialEvents (LoopState.initial config) with
  | (some stop, state) => (some stop, state)
  | (none, state) => drain digests config handler config.eventBudget.toNat start state

end Loop

namespace EventLoop

variable {H : Type} (self : EventLoop) (digests : Digests) (handler : EventHandler H)

/-- The report of a run that started. -/
def report (failureDetail : Option PyError) (state : LoopState) : ExecutionReport where
  specHash := self.registration.specHash
  configHash := digests.config self.config
  pathLabel := self.pathLabel
  outcome := if failureDetail.isSome then .failed else .completed
  failureDetail := failureDetail
  dispatchedEventCount := state.entries.length

/-- Dispatch every event until the queue empties. An unregistered specification is refused before
    anything is dispatched; an `Exception` is reported as a failure and raised on; what is not an
    `Exception` passes unreported. -/
def run (start : H) (initialEvents : List Event) : Execution :=
  if ¬self.registration.isRegistered then
    ⟨.error (.unregistered ⟨.unregisteredSpecification,
      ["spec_hash ", self.registration.specHash, " carries no trial-ledger charge; register the " ++
        "specification before any data is read. An unregistered run is an undeclared search, " ++
        "and its result would be deflated against a selection pool that omits it"]⟩), [], []⟩
  else
    match dispatch digests self.config handler start initialEvents with
    | (none, state) =>
      ⟨.ok {
          configHash := digests.config self.config
          specHash := self.registration.specHash
          entries := state.entries
          digest := digests.entries state.entries
          eventsBeyondWindow := state.eventsBeyondWindow },
        [self.report digests none state], state.log⟩
    | (some stop, state) =>
      match stop.failure with
      | .exception error => ⟨.error stop, [self.report digests (some error) state], state.log⟩
      | .baseException _ => ⟨.error stop, [], state.log⟩

end EventLoop

end FinanceKing.Backtest
