import FinanceKing.Backtest.Engine
import FinanceKing.Lib.LockedTable
import FinanceKing.Lib.SortBy

/-! The global trial ledger: a registration charges the declared grid in full, and each execution past it
    charges one more. Both tables are written by triggers under one advisory lock. -/

namespace FinanceKing.Evolution

open Lib Backtest

/-! ### Specifications -/

/-- Non-empty and free of surrounding whitespace. -/
def requireTrialText (candidate : String) (fieldName : Message) : PyResult Unit :=
  raiseIf (candidate = "" ∨ strip candidate ≠ candidate.toList) .trialSpecification
    (fieldName ++ [.text " must be non-empty and free of surrounding whitespace; got ", .quoted candidate])

structure SearchContextFields where
  symbolUniverse : List String
  windowStartUtc : DateTime
  windowEndUtc : DateTime
  featureIds : Finset String
  deriving DecidableEq

def SearchContextFields.postInit (self : SearchContextFields) : PyResult Unit := do
  raiseIf (self.symbolUniverse = []) .trialSpecification
    ["symbol_universe must name at least one instrument"]
  self.symbolUniverse.forM (fun symbol => requireTrialText symbol ["symbol"])
  raiseIf (¬self.symbolUniverse.Nodup) .trialSpecification
    ["symbol_universe contains a duplicate: ", .texts self.symbolUniverse,
      ". A repeated symbol multiplies the declared grid without widening the search"]
  raiseIf (self.featureIds = ∅) .trialSpecification ["feature_ids must name at least one feature"]
  (sortedSet self.featureIds).forM (fun featureId => requireTrialText featureId ["feature_id"])
  raiseIf (self.windowEndUtc ≤ self.windowStartUtc) .trialSpecification
    ["window_end_utc ", .instant self.windowEndUtc, " must follow window_start_utc ",
      .instant self.windowStartUtc]

/-- The data a search ran against, reduced to the identity trials are counted under. -/
structure SearchContext extends SearchContextFields where
  checked : toSearchContextFields.postInit = .ok ()
  deriving DecidableEq

def SearchContext.symbolCount (self : SearchContext) : ℤ := self.symbolUniverse.length

structure TrialSpecificationFields where
  correlationId : Uuid
  statement : String
  registeredBy : String
  parameterGrid : Dict String (List String)
  searchContext : SearchContext
  lineageId : String
  variantCount : ℤ
  holdoutRequested : Bool
  humanAuthorisationRef : Option String

def TrialSpecificationFields.postInit (self : TrialSpecificationFields) : PyResult Unit := do
  requireTrialText self.statement ["statement"]
  requireTrialText self.registeredBy ["registered_by"]
  requireTrialText self.lineageId ["lineage_id"]
  raiseIf (self.variantCount < 1) .trialSpecification
    ["variant_count must be at least 1; got ", .count self.variantCount]
  self.parameterGrid.entries.forM fun entry => do
    requireTrialText entry.1 ["parameter name"]
    raiseIf (entry.2 = []) .trialSpecification
      ["parameter ", .quoted entry.1, " declares no candidate values, so the declared grid multiplies ",
        "out to zero and the search would charge nothing"]
    entry.2.forM fun candidate =>
      requireTrialText candidate [.text "parameter ", .quoted entry.1, .text " candidate"]
  raiseIf (self.holdoutRequested ∧ self.humanAuthorisationRef = none) .trialSpecification
    ["the permanently held-out period requires a recorded human authorisation before registration; ",
      "reading it burns it, and there is no such thing as reading it and not counting it"]

/-- A search, declared in full before any data is read. -/
structure TrialSpecification extends TrialSpecificationFields where
  checked : toTrialSpecificationFields.postInit = .ok ()

namespace TrialSpecification

variable (self : TrialSpecification)

def parameterCount : ℤ := self.parameterGrid.keys.length

/-- Every point in the declared grid, whether or not it is ever run. -/
def declaredGridPointCount : ℤ :=
  self.parameterGrid.values.foldl (fun (points : ℤ) candidates => points * candidates.length) 1 *
    self.searchContext.symbolCount * self.variantCount

end TrialSpecification

/-- SHA-256 over the canonical rendering of a search context and of a specification. -/
structure TrialDigests where
  contextHash : SearchContext → String
  specHash : TrialSpecification → String

/-! ### The two tables -/

inductive EntryKind where
  | registration
  | executionOverflow
  deriving DecidableEq

/-- A row of `trial_ledger`. -/
structure LedgerRow where
  seq : ℤ
  chargedAtUtc : DateTime
  correlationId : Uuid
  specHash : String
  registeredBy : String
  statement : Message
  nParameters : ℤ
  nSymbols : ℤ
  nVariants : ℤ
  trialsCharged : ℤ
  cumulativeTrials : ℤ
  holdoutTouched : Bool
  humanAuthorisationRef : Option String
  searchContextHash : String
  lineageId : String
  entryKind : EntryKind
  deriving DecidableEq

/-- A row of `trial_execution`. -/
structure ExecutionRow where
  seq : ℤ
  executedAtUtc : DateTime
  correlationId : Uuid
  specHash : String
  executionIndex : ℤ
  configHash : String
  pathLabel : String
  charged : Bool
  outcome : ExecutionOutcome
  failureDetail : Option PyError
  dispatchedEventCount : ℕ
  deriving DecidableEq

/-- What one call wrote: a registration, or an execution with the ledger row its trigger nested. -/
inductive TrialWrite where
  | registered (row : LedgerRow)
  | executed (row : ExecutionRow) (overflow : Option LedgerRow)
  deriving DecidableEq

def TrialWrite.ledgerRows : TrialWrite → List LedgerRow
  | .registered row => [row]
  | .executed _ overflow => overflow.toList

def TrialWrite.executionRows : TrialWrite → List ExecutionRow
  | .registered _ => []
  | .executed row _ => [row]

/-- The rows of `trial_ledger`, in the order they were written. -/
def ledgerOf (writes : List TrialWrite) : List LedgerRow := writes.flatMap TrialWrite.ledgerRows

/-- The rows of `trial_execution`, in the order they were written. -/
def executionsOf (writes : List TrialWrite) : List ExecutionRow :=
  writes.flatMap TrialWrite.executionRows

def integerLimit : ℤ := 2 ^ 31

def bigintLimit : ℤ := 2 ^ 63

/-! ### The triggers -/

/-- `fking_trial_ledger_accumulate`: the running total goes on from the row with the largest one. -/
def accumulate (ledger : List LedgerRow) (row : LedgerRow) : LedgerRow :=
  let previous := (sortBy (fun r => toLex (r.cumulativeTrials, r.seq)) ledger).getLast?
  { row with
    cumulativeTrials := (previous.map LedgerRow.cumulativeTrials).getD 0 + row.trialsCharged }

/-- The checks and the partial unique index of `trial_ledger`. -/
def ledgerAccepts (ledger : List LedgerRow) (row : LedgerRow) : Prop :=
  0 ≤ row.nParameters ∧ row.nParameters < integerLimit ∧ 1 ≤ row.nSymbols ∧
    row.nSymbols < integerLimit ∧ 1 ≤ row.nVariants ∧ row.nVariants < integerLimit ∧
    1 ≤ row.trialsCharged ∧ row.trialsCharged < integerLimit ∧ row.cumulativeTrials < bigintLimit ∧
    (row.holdoutTouched → row.humanAuthorisationRef.isSome) ∧
    (row.entryKind ≠ .executionOverflow →
      ∀ r ∈ ledger, r.entryKind ≠ .executionOverflow → r.specHash ≠ row.specHash)

instance (ledger : List LedgerRow) (row : LedgerRow) : Decidable (ledgerAccepts ledger row) :=
  inferInstanceAs (Decidable (_ ∧ _))

/-- An insert into `trial_ledger`. -/
def insertLedger (ledger : List LedgerRow) (row : LedgerRow) : Option LedgerRow :=
  if ledgerAccepts ledger (accumulate ledger row) then some (accumulate ledger row) else none

/-- The registration the reconcile trigger reads for a specification. -/
def registrationOf (ledger : List LedgerRow) (specHash : String) : Option LedgerRow :=
  ledger.find? fun r => r.specHash = specHash ∧ r.entryKind ≠ .executionOverflow

/-- The ledger row an execution past the declared grid writes. -/
def overflowRow (registration : LedgerRow) (execution : ExecutionRow) : LedgerRow where
  seq := execution.seq
  chargedAtUtc := execution.executedAtUtc
  correlationId := execution.correlationId
  specHash := execution.specHash
  registeredBy := registration.registeredBy
  statement := ["execution ", .count execution.executionIndex, " of spec ", .text execution.specHash,
    " exceeded the declared grid of ", .count registration.trialsCharged]
  nParameters := registration.nParameters
  nSymbols := registration.nSymbols
  nVariants := registration.nVariants
  trialsCharged := 1
  cumulativeTrials := 0
  holdoutTouched := registration.holdoutTouched
  humanAuthorisationRef := registration.humanAuthorisationRef
  searchContextHash := registration.searchContextHash
  lineageId := registration.lineageId
  entryKind := .executionOverflow

/-- The hexadecimal text of 32 bytes. -/
def isSha256Hex (text : String) : Bool :=
  text.length = specHashHexLength ∧
    text.toList.all (fun character => character ∈ "0123456789abcdef".toList)

/-- The checks of `trial_execution`; the unique index over specification and index is the last. -/
def executionAccepts (executions : List ExecutionRow) (row : ExecutionRow) : Prop :=
  1 ≤ row.executionIndex ∧ row.executionIndex < integerLimit ∧ isSha256Hex row.configHash ∧
    (row.dispatchedEventCount : ℤ) < integerLimit ∧ (row.outcome = .failed ↔ row.failureDetail.isSome) ∧
    ∀ r ∈ executions, r.specHash = row.specHash → r.executionIndex ≠ row.executionIndex

instance (executions : List ExecutionRow) (row : ExecutionRow) :
    Decidable (executionAccepts executions row) :=
  inferInstanceAs (Decidable (_ ∧ _))

/-- `fking_trial_execution_reconcile`: number the execution, and charge it once the grid is spent. -/
def reconcile (ledger : List LedgerRow) (executions : List ExecutionRow) (row : ExecutionRow) :
    Option TrialWrite :=
  match registrationOf ledger row.specHash with
  | none => none
  | some registration =>
    let executed : ℤ := (executions.filter fun r => r.specHash = row.specHash).length
    let numbered :=
      { row with
        executionIndex := executed + 1
        charged := decide (registration.trialsCharged < executed + 1) }
    if ¬executionAccepts executions numbered then none
    else if numbered.charged then
      (insertLedger ledger (overflowRow registration numbered)).map fun overflow =>
        .executed numbered (some overflow)
    else some (.executed numbered none)

/-! ### The calls -/

inductive TrialCall where
  | register (specification : TrialSpecification) (chargedAtUtc : DateTime)
  | reportExecution (execution : ExecutionReport) (correlationId : Uuid) (executedAtUtc : DateTime)

/-- The row `register` inserts; the placeholder total is overwritten by the trigger. -/
def registrationRow (digests : TrialDigests) (seq : ℤ) (specification : TrialSpecification)
    (chargedAtUtc : DateTime) : LedgerRow where
  seq := seq
  chargedAtUtc := chargedAtUtc
  correlationId := specification.correlationId
  specHash := digests.specHash specification
  registeredBy := specification.registeredBy
  statement := [specification.statement]
  nParameters := specification.parameterCount
  nSymbols := specification.searchContext.symbolCount
  nVariants := specification.variantCount
  trialsCharged := specification.declaredGridPointCount
  cumulativeTrials := 0
  holdoutTouched := specification.holdoutRequested
  humanAuthorisationRef := specification.humanAuthorisationRef
  searchContextHash := digests.contextHash specification.searchContext
  lineageId := specification.lineageId
  entryKind := .registration

/-- The row `report_execution` inserts, with placeholders for what the trigger assigns. -/
def executionRow (seq : ℤ) (execution : ExecutionReport) (correlationId : Uuid)
    (executedAtUtc : DateTime) : ExecutionRow where
  seq := seq
  executedAtUtc := executedAtUtc
  correlationId := correlationId
  specHash := execution.specHash
  executionIndex := 1
  configHash := execution.configHash
  pathLabel := execution.pathLabel
  charged := false
  outcome := execution.outcome
  failureDetail := execution.failureDetail
  dispatchedEventCount := execution.dispatchedEventCount

/-- A 64-character digest with no upper-case letter in it. -/
def requireDigest (candidate : String) (fieldName : String) : PyResult Unit :=
  raiseIf (candidate.length ≠ specHashHexLength ∨ candidate.toLower ≠ candidate) .trialLedger
    [fieldName, " must be a ", .count specHashHexLength, "-character lowercase SHA-256 digest; got ",
      .quoted candidate]

/-- What a call checks before its insert, over the rows it reads. -/
def requireAdmissible (ledger : List LedgerRow) : TrialCall → PyResult Unit
  | .register _ _ => .ok ()
  | .reportExecution execution _ _ => do
    requireDigest execution.specHash "spec_hash"
    requireDigest execution.configHash "config_hash"
    let charged := ((ledger.find? fun r =>
      r.specHash = execution.specHash ∧ r.entryKind = .registration).map LedgerRow.trialsCharged).getD 0
    let registration ← construct SpecRegistrationFields.postInit SpecRegistration.mk
      ⟨execution.specHash, charged⟩
    raiseIf (¬registration.isRegistered) .trialLedger
      ["spec_hash ", .text execution.specHash, " was never registered; an execution that skips the ",
        "ledger is an undeclared search, and the best of sixty unregistered runs deflates as though ",
        "it were the only one"]

/-- The insert of a call, through its table's trigger. -/
def insertCall (digests : TrialDigests) (writes : List TrialWrite) (seq : ℤ) :
    TrialCall → Option TrialWrite
  | .register specification chargedAtUtc =>
    (insertLedger (ledgerOf writes) (registrationRow digests seq specification chargedAtUtc)).map
      TrialWrite.registered
  | .reportExecution execution correlationId executedAtUtc =>
    reconcile (ledgerOf writes) (executionsOf writes)
      (executionRow seq execution correlationId executedAtUtc)

/-- Both tables as one locked table; one counter numbers their rows. -/
def trialRules (digests : TrialDigests) : TableRules TrialCall TrialWrite where
  admits writes call := (requireAdmissible (ledgerOf writes) call).toBool
  insert := insertCall digests

/-! ### What the counts read -/

/-- `global_trial_count`: `COALESCE(max(cumulative_trials), 0)`. -/
def globalTrialCount (ledger : List LedgerRow) : ℤ :=
  (ledger.map LedgerRow.cumulativeTrials).foldl max 0

/-- `trial_context_totals`, read as the ledger reads it: no row counts zero. -/
def contextTrials (ledger : List LedgerRow) (searchContextHash : String) : ℤ :=
  ((ledger.filter fun r => r.searchContextHash = searchContextHash).map LedgerRow.trialsCharged).sum

/-- `trial_lineage_totals`. -/
def lineageTrials (ledger : List LedgerRow) (searchContextHash lineageId : String) : ℤ :=
  ((ledger.filter fun r => r.searchContextHash = searchContextHash ∧ r.lineageId = lineageId).map
    LedgerRow.trialsCharged).sum

end FinanceKing.Evolution
