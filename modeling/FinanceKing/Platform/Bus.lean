import FinanceKing.Base
import FinanceKing.Lib.Dict
import FinanceKing.Lib.SortBy

/-! What travels on the event bus and how a consumer reads it: the envelope, the registry of payload
    schemas, and the reasons a message is set aside. Validation of a document against a model is a
    parameter, as the models are registered by the producers. -/

namespace FinanceKing.Platform

open Lib

/-- The stream field the serialised envelope is written to. -/
def payloadField : String := "data"

/-- One fact that happened, addressed to whoever is listening. -/
structure EventEnvelope where
  eventId : String
  eventType : String
  schemaVersion : ℤ
  correlationId : Uuid
  causationId : Option Uuid
  occurredAtUtc : DateTime
  payload : List (String × JsonValue)

/-- Why a message could not be delivered to a handler. -/
inductive DeadLetterReason where
  | undecodable
  | schemaInvalid
  | unregisteredEventType
  | missingCorrelationId
  deriving DecidableEq

/-- A failed validation: the kind and place of every error, and the text of them all. -/
structure ValidationFailure where
  errors : List (String × List String)
  rendered : String
  deriving DecidableEq

/-- `_classify`. -/
def ValidationFailure.classify (invalid : ValidationFailure) : DeadLetterReason :=
  if invalid.errors.any (fun error => error.1 = "json_invalid" ∨ error.1 = "json_type") then
    .undecodable
  else if invalid.errors.any (fun error => error.2 = ["correlation_id"]) then .missingCorrelationId
  else .schemaInvalid

/-- What a consumer validates a message against: the envelope model, and each registered payload model. -/
structure EventSchemas where
  validateJson : String → Except ValidationFailure EventEnvelope
  registry : Dict (String × ℤ) (List (String × JsonValue) → Except ValidationFailure Unit)

namespace EventSchemas

variable (self : EventSchemas)

/-- The payload model registered for an event type at a schema version. -/
def resolveEvent (eventType : String) (schemaVersion : ℤ) :
    PyResult (List (String × JsonValue) → Except ValidationFailure Unit) :=
  match self.registry.get? (eventType, schemaVersion) with
  | some payloadModel => .ok payloadModel
  | none =>
    let known := sortBy id (self.registry.keys.map fun key => key.1 ++ " v" ++ toString key.2)
    raise .eventSchema ["no schema registered for ", .quoted eventType, " v", .count schemaVersion,
      "; registered: ", if known = [] then "(none)" else .texts known]

/-- `_decode`: the envelope, or the reason the message is set aside and what went wrong. -/
def decode (fields : Dict String String) : Except (DeadLetterReason × Message) EventEnvelope :=
  match fields.get? payloadField with
  | none => .error (.undecodable, [])
  | some raw =>
    match self.validateJson raw with
    | .error invalid => .error (invalid.classify, [.text invalid.rendered])
    | .ok envelope =>
      match self.resolveEvent envelope.eventType envelope.schemaVersion with
      | .error unregistered => .error (.unregisteredEventType, unregistered.message)
      | .ok payloadModel =>
        match payloadModel envelope.payload with
        | .error invalidPayload => .error (.schemaInvalid, [.text invalidPayload.rendered])
        | .ok () => .ok envelope

end EventSchemas

/-- A message set aside, with its bytes preserved. -/
structure DeadLetter where
  original : String
  reason : DeadLetterReason
  detail : Message
  sourceMessageId : ℕ
  consumerGroup : String
  deriving DecidableEq

/-- What one pass over the stream did. -/
structure ConsumeReport where
  appliedCount : ℕ
  duplicateCount : ℕ
  deadLetteredCount : ℕ
  reclaimedCount : ℕ
  deriving DecidableEq

def ConsumeReport.zero : ConsumeReport := ⟨0, 0, 0, 0⟩

def ConsumeReport.mergedWith (self other : ConsumeReport) : ConsumeReport :=
  ⟨self.appliedCount + other.appliedCount, self.duplicateCount + other.duplicateCount,
    self.deadLetteredCount + other.deadLetteredCount, self.reclaimedCount + other.reclaimedCount⟩

end FinanceKing.Platform

/-! Consumer processes over one stream and one claim table. Claim and effect commit together, the
    acknowledgement is a step of its own after them, and a process may stop between any two steps; the
    stream delivers at least once and hands a pending message to whoever reclaims it. -/

namespace FinanceKing.Platform

open Lib

/-- Where a process stands with the message it is handling. -/
inductive Phase where
  /-- Between two messages. -/
  | between
  /-- Written to the dead-letter stream, not yet acknowledged. -/
  | deadLettered (messageId : ℕ)
  /-- The claim is inserted and its transaction is open. -/
  | claimed (messageId : ℕ) (envelope : EventEnvelope)
  /-- The handler has run in that transaction. -/
  | handled (messageId : ℕ) (envelope : EventEnvelope)
  /-- The transaction has ended, not yet acknowledged. -/
  | decided (messageId : ℕ) (applied : Bool)

/-- A process in its loop of passes: it reclaims, handles what it got, reads, and handles that. -/
structure ConsumerProcess where
  readsNext : Bool
  batch : List ℕ
  phase : Phase
  report : ConsumeReport

/-- A process that has just started. -/
def ConsumerProcess.started : ConsumerProcess := ⟨false, [], .between, .zero⟩

structure BusState where
  /-- The stream; a message's id is its place in it. -/
  messages : List (Dict String String)
  lastDelivered : String → ℕ
  pending : String → List ℕ
  /-- Claims of open transactions, each with the process that holds it. -/
  openClaims : Dict (String × String) ℕ
  /-- `processed_events`: the committed claims by group and idempotency key, with their message. -/
  processedEvents : Dict (String × String) ℕ
  /-- The handlers' committed effects, by group and event. -/
  effects : List (String × String)
  deadLetters : List DeadLetter
  processes : ℕ → ConsumerProcess

inductive BusAction where
  | publish (fields : Dict String String)
  | reclaim (process : ℕ) (messageIds : List ℕ)
  | read (process : ℕ) (batchSize : ℕ)
  | decide (process : ℕ)
  | handle (process : ℕ) (returns : Bool)
  | commit (process : ℕ)
  | acknowledge (process : ℕ)
  | crash (process : ℕ)

namespace BusState

def init : BusState where
  messages := []
  lastDelivered _ := 0
  pending _ := []
  openClaims := .empty
  processedEvents := .empty
  effects := []
  deadLetters := []
  processes _ := .started

variable (s : BusState) (schemas : EventSchemas) (groupOf : ℕ → String) (process : ℕ)

def setProcess (p : ConsumerProcess) : BusState :=
  { s with processes := Function.update s.processes process p }

/-- `XAUTOCLAIM`: the server hands over messages that are pending. -/
def reclaim (messageIds : List ℕ) : BusState :=
  let p := s.processes process
  match p.phase with
  | .between =>
    if p.batch = [] ∧ p.readsNext = false then
      let reclaimed := messageIds.filter (· ∈ s.pending (groupOf process))
      s.setProcess process ⟨true, reclaimed, .between, ⟨0, 0, 0, reclaimed.length⟩⟩
    else s
  | _ => s

/-- `XREADGROUP`: the next messages become pending. -/
def read (batchSize : ℕ) : BusState :=
  let p := s.processes process
  let group := groupOf process
  match p.phase with
  | .between =>
    if p.batch = [] ∧ p.readsNext then
      let fresh := List.range' (s.lastDelivered group)
        (min batchSize (s.messages.length - s.lastDelivered group))
      { s with
          lastDelivered := Function.update s.lastDelivered group
            (s.lastDelivered group + fresh.length)
          pending := Function.update s.pending group (s.pending group ++ fresh)
        }.setProcess process { p with readsNext := false, batch := fresh }
    else s
  | _ => s

/-- The next message of the batch is dead-lettered, found a duplicate, or claimed; an open claim of the
    same event by another process is waited for. -/
def decide : BusState :=
  let p := s.processes process
  let group := groupOf process
  match p.phase, p.batch with
  | .between, messageId :: rest =>
    match s.messages[messageId]? with
    | none => s
    | some fields =>
      match schemas.decode fields with
      | .error (reason, detail) =>
        let letter : DeadLetter :=
          { original := (fields.get? payloadField).getD ""
            reason := reason
            detail := detail
            sourceMessageId := messageId
            consumerGroup := group }
        { s with deadLetters := s.deadLetters ++ [letter] }.setProcess process
          { p with batch := rest, phase := .deadLettered messageId }
      | .ok envelope =>
        match s.processedEvents.get? (group, envelope.eventId),
            s.openClaims.get? (group, envelope.eventId) with
        | some _, _ => s.setProcess process { p with batch := rest, phase := .decided messageId false }
        | none, some _ => s
        | none, none =>
          { s with openClaims := s.openClaims.set (group, envelope.eventId) process }.setProcess process
            { p with batch := rest, phase := .claimed messageId envelope }
  | _, _ => s

/-- The process stops where it is: an open transaction is rolled back, the batch is forgotten. -/
def stop : BusState :=
  let released : BusState :=
    match (s.processes process).phase with
    | .claimed _ envelope =>
      { s with openClaims := s.openClaims.erase (groupOf process, envelope.eventId) }
    | .handled _ envelope =>
      { s with openClaims := s.openClaims.erase (groupOf process, envelope.eventId) }
    | _ => s
  released.setProcess process .started

/-- The handler runs in the claim's transaction; one that raises ends the pass. -/
def handle (returns : Bool) : BusState :=
  let p := s.processes process
  match p.phase with
  | .claimed messageId envelope =>
    if returns then s.setProcess process { p with phase := .handled messageId envelope }
    else s.stop groupOf process
  | _ => s

/-- The claim and the effect become durable together. -/
def commit : BusState :=
  let p := s.processes process
  match p.phase with
  | .handled messageId envelope =>
    let key := (groupOf process, envelope.eventId)
    { s with
        openClaims := s.openClaims.erase key
        processedEvents := s.processedEvents.set key messageId
        effects := s.effects ++ [key]
      }.setProcess process { p with phase := .decided messageId true }
  | _ => s

/-- `XACK`. -/
def acknowledged (messageId : ℕ) (counted : ConsumeReport) : BusState :=
  let p := s.processes process
  let group := groupOf process
  { s with
      pending := Function.update s.pending group ((s.pending group).filter (· ≠ messageId))
    }.setProcess process { p with phase := .between, report := p.report.mergedWith counted }

def acknowledge : BusState :=
  match (s.processes process).phase with
  | .deadLettered messageId => s.acknowledged groupOf process messageId ⟨0, 0, 1, 0⟩
  | .decided messageId true => s.acknowledged groupOf process messageId ⟨1, 0, 0, 0⟩
  | .decided messageId false => s.acknowledged groupOf process messageId ⟨0, 1, 0, 0⟩
  | _ => s

/-- One step of the system. -/
def step : BusAction → BusState
  | .publish fields => { s with messages := s.messages ++ [fields] }
  | .reclaim process messageIds => s.reclaim groupOf process messageIds
  | .read process batchSize => s.read groupOf process batchSize
  | .decide process => s.decide schemas groupOf process
  | .handle process returns => s.handle groupOf process returns
  | .commit process => s.commit groupOf process
  | .acknowledge process => s.acknowledge groupOf process
  | .crash process => s.stop groupOf process

/-- The state an interleaving of steps reaches from another. -/
def run (actions : List BusAction) : BusState :=
  actions.foldl (fun s action => s.step schemas groupOf action) s

end BusState

end FinanceKing.Platform
