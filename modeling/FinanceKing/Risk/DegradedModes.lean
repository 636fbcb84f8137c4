import FinanceKing.Domain.Guards
import FinanceKing.Lib.Dict
import FinanceKing.Lib.SortBy

/-! The five degraded modes as a state machine over observations: one pair of counters and at most one
    entry a mode, hysteresis on the way in or out, and a guard against redelivered and reordered
    observations. -/

namespace FinanceKing.Risk

open Lib

inductive DegradedMode where
  | dataStale
  | exchangeUnreachable
  | llmQuotaExhausted
  | databaseUnavailable
  | featureStorePartial
  deriving DecidableEq

def DegradedMode.value : DegradedMode → String
  | .dataStale => "DATA_STALE"
  | .exchangeUnreachable => "EXCHANGE_UNREACHABLE"
  | .llmQuotaExhausted => "LLM_QUOTA_EXHAUSTED"
  | .databaseUnavailable => "DATABASE_UNAVAILABLE"
  | .featureStorePartial => "FEATURE_STORE_PARTIAL"

/-- Every mode, in declaration order. -/
def degradedModes : List DegradedMode :=
  [.dataStale, .exchangeUnreachable, .llmQuotaExhausted, .databaseUnavailable, .featureStorePartial]

theorem mem_degradedModes (mode : DegradedMode) : mode ∈ degradedModes := by
  cases mode <;> decide

inductive ModeDirection where
  | entered
  | exited
  deriving DecidableEq

/-- What one mode does; neither threshold is below one observation. -/
structure ModeRule where
  mode : DegradedMode
  consecutiveFaultsToEnter : ℕ
  consecutiveClearsToExit : ℕ
  requiresCleanReconciliationToExit : Bool
  blocksNewOrders : Bool
  restrictsAffectedSymbols : Bool
  withholdsFeatureValues : Bool
  tripsKillSwitch : Bool
  pausesAgentWork : Bool
  faults_pos : 1 ≤ consecutiveFaultsToEnter
  clears_pos : 1 ≤ consecutiveClearsToExit

def modeRules : DegradedMode → ModeRule
  | .dataStale =>
    { mode := .dataStale
      consecutiveFaultsToEnter := 1
      consecutiveClearsToExit := 2
      requiresCleanReconciliationToExit := false
      blocksNewOrders := false
      restrictsAffectedSymbols := true
      withholdsFeatureValues := true
      tripsKillSwitch := false
      pausesAgentWork := false
      faults_pos := by decide
      clears_pos := by decide }
  | .exchangeUnreachable =>
    { mode := .exchangeUnreachable
      consecutiveFaultsToEnter := 2
      consecutiveClearsToExit := 1
      requiresCleanReconciliationToExit := true
      blocksNewOrders := true
      restrictsAffectedSymbols := false
      withholdsFeatureValues := false
      tripsKillSwitch := false
      pausesAgentWork := false
      faults_pos := by decide
      clears_pos := by decide }
  | .llmQuotaExhausted =>
    { mode := .llmQuotaExhausted
      consecutiveFaultsToEnter := 1
      consecutiveClearsToExit := 1
      requiresCleanReconciliationToExit := false
      blocksNewOrders := false
      restrictsAffectedSymbols := false
      withholdsFeatureValues := false
      tripsKillSwitch := false
      pausesAgentWork := true
      faults_pos := by decide
      clears_pos := by decide }
  | .databaseUnavailable =>
    { mode := .databaseUnavailable
      consecutiveFaultsToEnter := 1
      consecutiveClearsToExit := 1
      requiresCleanReconciliationToExit := false
      blocksNewOrders := true
      restrictsAffectedSymbols := false
      withholdsFeatureValues := false
      tripsKillSwitch := true
      pausesAgentWork := false
      faults_pos := by decide
      clears_pos := by decide }
  | .featureStorePartial =>
    { mode := .featureStorePartial
      consecutiveFaultsToEnter := 1
      consecutiveClearsToExit := 1
      requiresCleanReconciliationToExit := false
      blocksNewOrders := false
      restrictsAffectedSymbols := true
      withholdsFeatureValues := true
      tripsKillSwitch := false
      pausesAgentWork := false
      faults_pos := by decide
      clears_pos := by decide }

/-- Every rule names its own mode. -/
theorem modeRules_mode (mode : DegradedMode) : (modeRules mode).mode = mode := by
  cases mode <;> rfl

/-! ### Observations -/

/-- One report about one mode; `observationId` identifies the measurement. -/
structure ModeObservationFields where
  observationId : Uuid
  correlationId : Uuid
  mode : DegradedMode
  isFaulted : Bool
  observedAtUtc : DateTime
  reason : String
  affectedSymbols : List String
  reconciliationIsClean : Bool
  deriving DecidableEq

def ModeObservationFields.postInit (self : ModeObservationFields) : PyResult Unit := do
  raiseIf (strip self.reason = []) .degradedMode
    ["a mode transition carries a reason; an audit row that says a mode changed and not why is a row " ++
      "nobody can act on"]
  self.affectedSymbols.forM fun symbol =>
    raiseIf (strip symbol = []) .degradedMode ["affected_symbols must not contain a blank symbol"]

structure ModeObservation extends ModeObservationFields where
  checked : toModeObservationFields.postInit = .ok ()
  deriving DecidableEq

/-- A mode that is currently entered, and what it was entered for. -/
structure ModeEntry where
  mode : DegradedMode
  enteredAtUtc : DateTime
  reason : String
  correlationId : Uuid
  affectedSymbols : List String
  deriving DecidableEq

/-- The audit event a mode change writes. -/
structure ModeTransition where
  mode : DegradedMode
  direction : ModeDirection
  occurredAtUtc : DateTime
  reason : String
  correlationId : Uuid
  affectedSymbols : List String
  deriving DecidableEq

/-- One mode's counters, the observation applied last, and its entry, if it has one. -/
structure ModeProgress where
  consecutiveFaults : ℕ
  consecutiveClears : ℕ
  lastObservationId : Option Uuid
  lastObservedAtUtc : Option DateTime
  entry : Option ModeEntry
  deriving DecidableEq

def ModeProgress.init : ModeProgress :=
  { consecutiveFaults := 0
    consecutiveClears := 0
    lastObservationId := none
    lastObservedAtUtc := none
    entry := none }

/-- Which modes are entered, and how close the rest are. -/
structure DegradedModeState where
  progress : Dict DegradedMode ModeProgress
  deriving DecidableEq

/-! ### Transitions -/

/-- The observation carries nothing the state has not already applied. -/
def ModeProgress.superseded (current : ModeProgress) (observation : ModeObservation) : Prop :=
  current.lastObservationId = some observation.observationId ∨
    ∃ last ∈ current.lastObservedAtUtc, observation.observedAtUtc < last

instance (current : ModeProgress) (observation : ModeObservation) :
    Decidable (current.superseded observation) :=
  inferInstanceAs (Decidable (_ ∨ _))

/-- `sorted({*previous, *more})`. -/
def widened (previous more : List String) : List String :=
  sortBy (fun symbol => symbol) (previous ++ more).dedup

theorem mem_widened {previous more : List String} {symbol : String} :
    symbol ∈ widened previous more ↔ symbol ∈ previous ∨ symbol ∈ more := by
  rw [widened, mem_sortBy, List.mem_dedup, List.mem_append]

/-- The entry after a fault: the original instant is kept and the symbols are united. -/
def enteredBy (observation : ModeObservation) : Option ModeEntry → ModeEntry
  | none =>
    { mode := observation.mode
      enteredAtUtc := observation.observedAtUtc
      reason := observation.reason
      correlationId := observation.correlationId
      affectedSymbols := observation.affectedSymbols }
  | some previous =>
    { previous with affectedSymbols := widened previous.affectedSymbols observation.affectedSymbols }

def transitionOf (observation : ModeObservation) (direction : ModeDirection)
    (affectedSymbols : List String) : ModeTransition :=
  { mode := observation.mode
    direction := direction
    occurredAtUtc := observation.observedAtUtc
    reason := observation.reason
    correlationId := observation.correlationId
    affectedSymbols := affectedSymbols }

/-- One mode's progress after a fault, and the entry it caused. -/
def ModeProgress.afterFault (current : ModeProgress) (observation : ModeObservation) :
    ModeProgress × Option ModeTransition :=
  let rule := modeRules observation.mode
  let faults := min (current.consecutiveFaults + 1) rule.consecutiveFaultsToEnter
  let crosses := rule.consecutiveFaultsToEnter ≤ faults
  let entry := enteredBy observation current.entry
  ({ consecutiveFaults := faults
     consecutiveClears := 0
     lastObservationId := some observation.observationId
     lastObservedAtUtc := some observation.observedAtUtc
     entry := if crosses then some entry else current.entry },
    if crosses ∧ current.entry = none then some (transitionOf observation .entered entry.affectedSymbols)
    else none)

/-- One mode's progress after a clear, and the exit it caused. -/
def ModeProgress.afterClear (current : ModeProgress) (observation : ModeObservation) :
    ModeProgress × Option ModeTransition :=
  let rule := modeRules observation.mode
  let clears := min (current.consecutiveClears + 1) rule.consecutiveClearsToExit
  let leaves := rule.consecutiveClearsToExit ≤ clears ∧
    (observation.reconciliationIsClean = true ∨ rule.requiresCleanReconciliationToExit = false)
  ({ consecutiveFaults := 0
     consecutiveClears := clears
     lastObservationId := some observation.observationId
     lastObservedAtUtc := some observation.observedAtUtc
     entry := if leaves then none else current.entry },
    if leaves then current.entry.map fun entry => transitionOf observation .exited entry.affectedSymbols
    else none)

namespace DegradedModeState

def init : DegradedModeState := ⟨Dict.empty⟩

/-- `progress.get(mode, ModeProgress())`. -/
def progressFor (self : DegradedModeState) (mode : DegradedMode) : ModeProgress :=
  (self.progress.get? mode).getD .init

def entryFor (self : DegradedModeState) (mode : DegradedMode) : Option ModeEntry :=
  (self.progress.get? mode).bind (·.entry)

def isActive (self : DegradedModeState) (mode : DegradedMode) : Bool := (self.entryFor mode).isSome

def activeModes (self : DegradedModeState) : List DegradedMode := degradedModes.filter self.isActive

/-- Apply one observation: the new state, and the transition it caused. -/
def observe (self : DegradedModeState) (observation : ModeObservation) :
    DegradedModeState × Option ModeTransition :=
  let current := self.progressFor observation.mode
  if current.superseded observation then (self, none)
  else
    let advanced :=
      if observation.isFaulted then current.afterFault observation else current.afterClear observation
    (⟨self.progress.set observation.mode advanced.1⟩, advanced.2)

/-- The symbols of every active mode whose rule satisfies the predicate. -/
def symbolsWhere (self : DegradedModeState) (predicate : ModeRule → Bool) : Finset String :=
  ((self.activeModes.filter fun mode => predicate (modeRules mode)).flatMap fun mode =>
    ((self.entryFor mode).map fun entry => entry.affectedSymbols).getD []).toFinset

/-- Symbols that may not take a new position while their mode is entered. -/
def blockedSymbols (self : DegradedModeState) : Finset String :=
  self.symbolsWhere fun rule => rule.restrictsAffectedSymbols

def symbolsWithoutUsableData (self : DegradedModeState) : Finset String :=
  self.symbolsWhere fun rule => rule.withholdsFeatureValues

end DegradedModeState

end FinanceKing.Risk
