import FinanceKing.Domain.Portfolio
import FinanceKing.Lib.SortBy

/-! The kill switch's vocabulary: its journal rows and its derived state. The journal is append-only
    and authoritative; the state is rebuilt from it. A read of the journal gives either the rows or a
    stated reason it could not be read, and there is no third possibility. -/

namespace FinanceKing

open Lib

/-- Attribution prefix of a named person. -/
def humanOperatorPrefix : String := "human:"

def minRootCauseLength : ℕ := 20

def armValidity : TimeDelta := TimeDelta.ofSeconds 120

/-- Whether the order path is open; there is no unknown member, because unknown is shut. -/
inductive KillSwitchStatus where
  | trading
  | halted
  deriving DecidableEq

/-! ### What a trip records -/

structure TripTriggerFields where
  triggerId : String
  unit : String
  observedValue : Decimal
  thresholdValue : Decimal
  detail : String
  deriving DecidableEq

def TripTriggerFields.postInit (self : TripTriggerFields) : PyResult Unit := do
  requireText self.triggerId "trigger_id"
  requireText self.unit "unit"
  requireText self.detail "detail"

/-- What tripped the switch. -/
structure TripTrigger extends TripTriggerFields where
  checked : toTripTriggerFields.postInit = .ok ()
  deriving DecidableEq

structure BookSnapshotFields where
  portfolio : Portfolio
  openClientOrderIds : List String
  protectiveClientOrderIds : List String
  reconciledAtUtc : Option DateTime
  reconciliationIsClean : Bool
  deriving DecidableEq

def BookSnapshotFields.postInit (self : BookSnapshotFields) : PyResult Unit := do
  (self.openClientOrderIds ++ self.protectiveClientOrderIds).forM
    (fun orderId => requireText orderId "client_order_id")
  let unknown := self.protectiveClientOrderIds.dedup.filter (fun id => id ∉ self.openClientOrderIds)
  raiseIf (unknown ≠ []) .domainError
    ["protective orders ", .texts (sortBy id unknown), " are not among the open orders; " ++
      "a protective order the snapshot does not also list as open would be " ++
      "exempted from cancellation without any record of having existed"]
  raiseIf (self.reconciledAtUtc = none ∧ self.reconciliationIsClean) .domainError
    ["a clean reconciliation must carry the time it completed"]

/-- The book as it stood when the switch tripped, before any remediation. -/
structure BookSnapshot extends BookSnapshotFields where
  checked : toBookSnapshotFields.postInit = .ok ()
  deriving DecidableEq

/-! ### Journal rows -/

def requireHumanOperator (operatorId : String) : PyResult Unit := do
  requireText operatorId "operator_id"
  raiseIf (¬humanOperatorPrefix.toList.isPrefixOf operatorId.toList) .domainError
    ["operator_id must name a person as ", humanOperatorPrefix, "<handle>; got ",
      .quoted operatorId, ". A kill switch an automated actor can reset under its own " ++
      "identity is not a kill switch"]
  raiseIf (stripChars (operatorId.toList.drop humanOperatorPrefix.length) = []) .domainError
    ["operator_id ", .quoted operatorId, " names nobody after the prefix"]

structure TripEventFields where
  eventId : Uuid
  incidentId : Uuid
  correlationId : Uuid
  occurredAtUtc : DateTime
  actor : String
  trigger : TripTrigger
  snapshot : BookSnapshot
  deriving DecidableEq

def TripEventFields.postInit (self : TripEventFields) : PyResult Unit :=
  requireText self.actor "actor"

/-- The switch closed; appended before any remediation runs. -/
structure TripEvent extends TripEventFields where
  checked : toTripEventFields.postInit = .ok ()
  deriving DecidableEq

structure ArmEventFields where
  eventId : Uuid
  incidentId : Uuid
  correlationId : Uuid
  occurredAtUtc : DateTime
  operatorId : String
  deriving DecidableEq

def ArmEventFields.postInit (self : ArmEventFields) : PyResult Unit :=
  requireHumanOperator self.operatorId

/-- An operator declared an intent to resume; grants nothing on its own. -/
structure ArmEvent extends ArmEventFields where
  checked : toArmEventFields.postInit = .ok ()
  deriving DecidableEq

/-- Derived rather than stored, so it cannot disagree with the arm. -/
def ArmEvent.expiresAtUtc (self : ArmEvent) : DateTime := self.occurredAtUtc + armValidity

structure ResumeEventFields where
  eventId : Uuid
  incidentId : Uuid
  correlationId : Uuid
  occurredAtUtc : DateTime
  operatorId : String
  rootCause : String
  deriving DecidableEq

def ResumeEventFields.postInit (self : ResumeEventFields) : PyResult Unit := do
  requireHumanOperator self.operatorId
  requireText self.rootCause "root_cause"
  raiseIf ((strip self.rootCause).length < minRootCauseLength) .domainError
    ["root_cause must be at least ", .count minRootCauseLength, " characters; got ",
      .count (strip self.rootCause).length]

/-- The switch reopened, with a name and a written explanation against it. -/
structure ResumeEvent extends ResumeEventFields where
  checked : toResumeEventFields.postInit = .ok ()
  deriving DecidableEq

inductive KillSwitchEvent where
  | trip (event : TripEvent)
  | arm (event : ArmEvent)
  | resume (event : ResumeEvent)
  deriving DecidableEq

namespace KillSwitchEvent

def eventId : KillSwitchEvent → Uuid
  | .trip event => event.eventId
  | .arm event => event.eventId
  | .resume event => event.eventId

def incidentId : KillSwitchEvent → Uuid
  | .trip event => event.incidentId
  | .arm event => event.incidentId
  | .resume event => event.incidentId

def occurredAtUtc : KillSwitchEvent → DateTime
  | .trip event => event.occurredAtUtc
  | .arm event => event.occurredAtUtc
  | .resume event => event.occurredAtUtc

/-- The sort key of a journal row: its instant, the event id breaking ties. -/
def journalKey (event : KillSwitchEvent) : DateTime ×ₗ Uuid :=
  toLex (event.occurredAtUtc, event.eventId)

end KillSwitchEvent

/-- The journal could not be read, and why. -/
structure JournalUnreadable where
  reason : String
  checked : requireText reason "reason" = .ok ()
  deriving DecidableEq

inductive JournalReadOutcome where
  | read (events : List KillSwitchEvent)
  | unreadable (failure : JournalUnreadable)
  deriving DecidableEq

/-! ### Derived state -/

structure KillSwitchStateFields where
  status : KillSwitchStatus
  incidentId : Option Uuid
  trippedAtUtc : Option DateTime
  trigger : Option TripTrigger
  haltedReason : Option Message
  deriving DecidableEq

def KillSwitchStateFields.postInit (self : KillSwitchStateFields) : PyResult Unit :=
  match self.status with
  | .halted =>
    raiseIf (¬(self.haltedReason.any Message.isTruthy)) .domainError
      ["a halted kill switch must state why it is halted"]
  | .trading =>
    raiseIf (self.haltedReason.isSome ∨ self.incidentId.isSome ∨ self.trippedAtUtc.isSome ∨
        self.trigger.isSome) .domainError
      ["a trading kill switch carries no incident: a state that is open for " ++
        "orders while naming a live incident is the shape a reader trusts " ++
        "the wrong half of"]

/-- The derived, rebuildable view of the journal. -/
structure KillSwitchState extends KillSwitchStateFields where
  checked : toKillSwitchStateFields.postInit = .ok ()
  deriving DecidableEq

/-- Whether the order path is closed. -/
def KillSwitchState.isHalted (self : KillSwitchState) : Bool := self.status = .halted

end FinanceKing
