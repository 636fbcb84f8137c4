import FinanceKing.Domain.Guards
import FinanceKing.Lib.SortBy

/-! The process's operating state: the degraded modes it is in and the reason it is halted, if it is. Two
    halts meet in one reason, a mode that trips the kill switch and the kill-switch journal, and a reading
    of the journal recomputes it. -/

namespace FinanceKing.Platform

open Lib

inductive DegradedMode where
  | dataStale
  | exchangeUnreachable
  | llmQuotaExhausted
  | databaseUnavailable
  | featureStorePartial
  deriving DecidableEq

/-- The member's string, which is what modes are ordered by. -/
def DegradedMode.value : DegradedMode → String
  | .dataStale => "data_stale"
  | .exchangeUnreachable => "exchange_unreachable"
  | .llmQuotaExhausted => "llm_quota_exhausted"
  | .databaseUnavailable => "database_unavailable"
  | .featureStorePartial => "feature_store_partial"

theorem DegradedMode.value_injective : Function.Injective DegradedMode.value := by
  intro mode other h
  cases mode <;> cases other <;> first | rfl | exact absurd h (by decide)

/-- The modes whose entry trips the kill switch. -/
def trippingModes : List DegradedMode := [.databaseUnavailable]

/-! ### Checked values -/

structure DegradedEntryFields where
  mode : DegradedMode
  enteredAtUtc : DateTime
  detail : String
  deriving DecidableEq

def DegradedEntryFields.postInit (self : DegradedEntryFields) : PyResult Unit :=
  raiseIf (strip self.detail = []) .supervisor
    ["entering ", self.mode.value, " with no detail; the dashboard tile and the audit row both carry ",
      "this text and 'degraded' on its own is not actionable"]

/-- One active degraded mode, with when it was entered and why. -/
structure DegradedEntry extends DegradedEntryFields where
  checked : toDegradedEntryFields.postInit = .ok ()
  deriving DecidableEq

structure KillSwitchReadingFields where
  isHalted : Bool
  haltedReason : Option String
  deriving DecidableEq

def KillSwitchReadingFields.postInit (self : KillSwitchReadingFields) : PyResult Unit :=
  raiseIf (self.isHalted ∧ strip (self.haltedReason.getD "") = []) .supervisor
    ["a halted reading carries no reason; an operator woken at 03:00 reads this string first"]

/-- What the kill-switch journal says, reduced to what the supervisor needs. -/
structure KillSwitchReading extends KillSwitchReadingFields where
  checked : toKillSwitchReadingFields.postInit = .ok ()
  deriving DecidableEq

structure SupervisorStateFields where
  haltedReason : Option String
  degraded : List DegradedEntry
  deriving DecidableEq

namespace SupervisorStateFields

variable (self : SupervisorStateFields)

def modes : List DegradedMode := self.degraded.map fun entry => entry.mode

/-- The strings of the modes in the order they are held. -/
def values : List String := self.modes.map DegradedMode.value

def postInit : PyResult Unit := do
  raiseIf (∃ reason ∈ self.haltedReason, strip reason = []) .supervisor
    ["a halt with an empty reason; use None for 'not halted' so the two states cannot be spelled the ",
      "same way"]
  raiseIf (¬ self.modes.Nodup) .supervisor ["a degraded mode is present twice: ", .texts self.values]
  raiseIf (self.values ≠ sortBy id self.values) .supervisor
    ["degraded modes are not in canonical order: ", .texts self.values]

end SupervisorStateFields

/-- The process's operating state. -/
structure SupervisorState extends SupervisorStateFields where
  checked : toSupervisorStateFields.postInit = .ok ()
  deriving DecidableEq

namespace SupervisorState

variable (self : SupervisorState)

/-- True only when nothing is holding the process back. -/
def signalsAdmitted : Bool := self.haltedReason.isNone

/-- Whether a mode that trips the kill switch is entered. -/
def isTripping : Bool := trippingModes.any fun mode => mode ∈ self.modes

end SupervisorState

/-- The state before the journal has been read. -/
def bootHaltedState : SupervisorState :=
  ⟨⟨some "the kill-switch journal has not been read yet", []⟩, by decide +kernel⟩

/-- The halt a set of active degraded modes forces. -/
def trippingReason (modes : List DegradedMode) : Option String :=
  let tripping := sortBy id ((modes.filter fun mode => mode ∈ trippingModes).map DegradedMode.value)
  if tripping = [] then none
  else some (String.intercalate ", " tripping ++
    " tripped the kill switch; only a human resume clears it (FAILSAFE.md 2.6)")

/-! ### Transitions -/

/-- Enter a mode. Entering one already active returns the state unchanged. -/
def enterDegraded (state : SupervisorState) (mode : DegradedMode) (nowUtc : DateTime) (detail : String) :
    PyResult SupervisorState :=
  if mode ∈ state.modes then .ok state
  else do
    let entry ← construct DegradedEntryFields.postInit DegradedEntry.mk ⟨mode, nowUtc, detail⟩
    let degraded := sortBy (fun item : DegradedEntry => item.mode.value) (state.degraded ++ [entry])
    let haltedReason := if state.haltedReason = none ∧ mode ∈ trippingModes then trippingReason [mode]
      else state.haltedReason
    construct SupervisorStateFields.postInit SupervisorState.mk ⟨haltedReason, degraded⟩

/-- Leave a mode. Only ever removes its entry. -/
def exitDegraded (state : SupervisorState) (mode : DegradedMode) : PyResult SupervisorState :=
  let degraded := state.degraded.filter fun entry => entry.mode ≠ mode
  if degraded.length = state.degraded.length then .ok state
  else construct SupervisorStateFields.postInit SupervisorState.mk ⟨state.haltedReason, degraded⟩

/-- Fold a reading of the kill-switch journal in. -/
def applyReading (state : SupervisorState) (reading : KillSwitchReading) : PyResult SupervisorState :=
  construct SupervisorStateFields.postInit SupervisorState.mk
    ⟨if reading.isHalted then reading.haltedReason else trippingReason state.modes, state.degraded⟩

/-- Raise unless the process is admitting work. -/
def ensureSignalsAdmitted (state : SupervisorState) : PyResult Unit :=
  match state.haltedReason with
  | none => .ok ()
  | some reason => raise .signalsHalted
      ["the process is halted and admits no signals: ", .text reason]

end FinanceKing.Platform
