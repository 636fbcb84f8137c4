import FinanceKing.Domain.Market
import FinanceKing.Lib.SortBy

/-! Internal netting: one instrument's authorised quantities become one venue quantity and a slice of it for
    every strategy. Lot truncation is taken from the side the net points at, largest holding first. -/

namespace FinanceKing.Risk

open Lib

/-- Which price an attribution is booked at. -/
inductive BookingBasis where
  | venueVwap
  | decisionMid
  deriving DecidableEq

def requirePositivePrice (candidate : Decimal) (fieldName : String) : PyResult Unit :=
  raiseIf (candidate ≤ 0) .domainError
    [fieldName, " must be a finite positive price; got ", .decimal candidate]

@[simp] theorem requirePositivePrice_eq_ok {x : Decimal} {name : String} {u : Unit} :
    requirePositivePrice x name = .ok u ↔ 0 < x := by
  rw [requirePositivePrice, raiseIf_eq_ok, not_le]

/-! ### Requests and plans -/

structure StrategyRequestFields where
  strategyId : String
  signedBaseQuantity : Decimal
  deriving DecidableEq

def StrategyRequestFields.postInit (self : StrategyRequestFields) : PyResult Unit :=
  raiseIf (self.strategyId = "") .domainError
    ["a netting request must name the strategy it came from"]

/-- One strategy's authorised quantity on one instrument, signed and already sized. -/
structure StrategyRequest extends StrategyRequestFields where
  checked : toStrategyRequestFields.postInit = .ok ()
  deriving DecidableEq

def strategyRequest (strategyId : String) (signedBaseQuantity : Decimal) : PyResult StrategyRequest :=
  construct StrategyRequestFields.postInit StrategyRequest.mk ⟨strategyId, signedBaseQuantity⟩

structure AttributionFields where
  strategyId : String
  signedBaseQuantity : Decimal
  bookedQuotePrice : Decimal
  bookingBasis : BookingBasis
  deriving DecidableEq

def AttributionFields.postInit (self : AttributionFields) : PyResult Unit :=
  requirePositivePrice self.bookedQuotePrice "booked_quote_price"

/-- What one strategy is booked for out of one net order. -/
structure Attribution extends AttributionFields where
  checked : toAttributionFields.postInit = .ok ()
  deriving DecidableEq

/-- Value booked to this strategy: positive when long, negative when short. -/
def Attribution.signedNotionalQuote (self : Attribution) : Decimal :=
  self.signedBaseQuantity * self.bookedQuotePrice

/-- The account the internalisation difference is charged to. -/
def crossingResidualAccount : String := "crossing_residual"

structure CrossingResidualFields where
  symbol : String
  crossedBaseQuantity : Decimal
  bookedQuotePrice : Decimal
  bookingBasis : BookingBasis
  account : String := crossingResidualAccount
  deriving DecidableEq

def CrossingResidualFields.postInit (self : CrossingResidualFields) : PyResult Unit := do
  raiseIf (self.crossedBaseQuantity ≤ 0) .domainError
    ["crossed_base_quantity is ", .decimal self.crossedBaseQuantity, "; a residual row for nothing crossed " ++
      "is a row that reconciles against nothing"]
  requirePositivePrice self.bookedQuotePrice "booked_quote_price"
  raiseIf (self.account ≠ crossingResidualAccount) .domainError
    ["account is ", .quoted self.account, "; the internalisation difference belongs to ",
      .quoted crossingResidualAccount, " and to no strategy"]

/-- The internally crossed quantity, and where its valuation difference is charged. -/
structure CrossingResidual extends CrossingResidualFields where
  checked : toCrossingResidualFields.postInit = .ok ()
  deriving DecidableEq

/-- One instrument's netted result: the venue quantity, and who owns which part of it. -/
structure NetOrderPlan where
  instrument : Instrument
  netSignedBaseQuantity : Decimal
  referenceQuotePrice : Decimal
  attributions : List Attribution
  crossedBaseQuantity : Decimal
  residual : Option CrossingResidual
  deriving DecidableEq

namespace NetOrderPlan

variable (self : NetOrderPlan)

def symbol : String := self.instrument.symbol

/-- Whether any quantity at all reaches the venue. -/
def hasVenuePortion : Bool := self.netSignedBaseQuantity ≠ 0

/-- What the venue leg is worth at the reference price. -/
def venueSignedNotionalQuote : Decimal := self.netSignedBaseQuantity * self.referenceQuotePrice

/-- Every strategy's slice, summed. -/
def attributedSignedBaseQuantity : Decimal :=
  (self.attributions.map fun attribution => attribution.signedBaseQuantity).sum

end NetOrderPlan

/-! ### Lot truncation -/

/-- Take the remaining adjustment out of one holding of the surplus side. -/
def absorbStep (surplusIsLong : Bool) (held : List Decimal × Decimal) (index : ℕ) : List Decimal × Decimal :=
  let (quantities, remaining) := held
  if remaining ≤ 0 then held
  else
    let quantity := quantities.getD index 0
    let taken := min |quantity| remaining
    (quantities.set index (quantity + if surplusIsLong then -taken else taken), remaining - taken)

/-- The surplus side's positions in the batch, largest holding first, then by strategy. -/
def surplusOrder (requests : List StrategyRequest) (surplusIsLong : Bool) : List ℕ :=
  let onSurplusSide := (List.range requests.length).filter fun index =>
    match requests[index]? with
    | none => false
    | some request => if surplusIsLong then 0 < request.signedBaseQuantity else request.signedBaseQuantity < 0
  sortBy (fun index => toLex
    (-|(requests[index]?.elim 0 fun request => request.signedBaseQuantity)|,
      requests[index]?.elim "" fun request => request.strategyId)) onSurplusSide

/-- Push the adjustment onto the surplus side, largest holding first. -/
def absorbQuantization (requests : List StrategyRequest) (adjustment : Decimal) :
    PyResult (List Decimal) := do
  let quantities := requests.map fun request => request.signedBaseQuantity
  if adjustment = 0 then return quantities
  -- the adjustment moves the net toward zero, so it opposes the surplus side's sign
  let surplusIsLong := adjustment < 0
  let (adjusted, remaining) :=
    (surplusOrder requests surplusIsLong).foldl (absorbStep surplusIsLong) (quantities, |adjustment|)
  raiseIf (0 < remaining) .domainError
    [.decimal remaining, " of lot-step truncation could not be attributed; the surplus side is smaller " ++
      "than the net it produced, which is arithmetically impossible"]
  return adjusted

/-! ### Netting -/

/-- Two slices for one strategy cannot be attributed. -/
def requireDistinctStrategies (instrument : Instrument) : List String → List StrategyRequest → PyResult Unit
  | _, [] => .ok ()
  | seen, request :: rest => do
    raiseIf (request.strategyId ∈ seen) .domainError
      [request.strategyId, " appears twice in the netting batch for ", instrument.symbol,
        "; two slices for one strategy cannot be attributed"]
    requireDistinctStrategies instrument (request.strategyId :: seen) rest

/-- The long side of some quantities, summed. -/
def grossLong (quantities : List Decimal) : Decimal := (quantities.filter (0 < ·)).sum

/-- The short side's magnitude. -/
def grossShort (quantities : List Decimal) : Decimal := -(quantities.filter (· < 0)).sum

/-- The residual row, when anything crossed. -/
def crossingResidual (instrument : Instrument) (crossedBaseQuantity bookedQuotePrice : Decimal)
    (basis : BookingBasis) : PyResult (Option CrossingResidual) :=
  if 0 < crossedBaseQuantity then
    some <$> construct CrossingResidualFields.postInit CrossingResidual.mk
      { symbol := instrument.symbol
        crossedBaseQuantity := crossedBaseQuantity
        bookedQuotePrice := bookedQuotePrice
        bookingBasis := basis }
  else .ok none

/-- The slices and the residual, once the quantities are on the lattice. -/
def attributePlan (instrument : Instrument) (requests : List StrategyRequest) (adjusted : List Decimal)
    (netSignedBaseQuantity referenceQuotePrice decisionMidQuotePrice : Decimal) : PyResult NetOrderPlan := do
  let hasVenuePortion := netSignedBaseQuantity ≠ 0
  let basis : BookingBasis := if hasVenuePortion then .venueVwap else .decisionMid
  let bookedQuotePrice := if hasVenuePortion then referenceQuotePrice else decisionMidQuotePrice
  let attributions ← (requests.zip adjusted).mapM fun (request, quantity) =>
    construct AttributionFields.postInit Attribution.mk
      ⟨request.strategyId, quantity, bookedQuotePrice, basis⟩
  let crossedBaseQuantity := min (grossLong adjusted) (grossShort adjusted)
  let residual ← crossingResidual instrument crossedBaseQuantity bookedQuotePrice basis
  return {
    instrument := instrument
    netSignedBaseQuantity := netSignedBaseQuantity
    referenceQuotePrice := bookedQuotePrice
    attributions := attributions
    crossedBaseQuantity := crossedBaseQuantity
    residual := residual }

/-- Net one instrument's authorised quantities into a single plan. -/
def netRequests (instrument : Instrument) (requests : List StrategyRequest)
    (referenceQuotePrice decisionMidQuotePrice : Decimal) : PyResult NetOrderPlan := do
  raiseIf (requests = []) .domainError
    ["netting ", instrument.symbol, " with no requests; an empty batch produces no plan, and a plan for " ++
      "nothing would be indistinguishable from a perfect cross"]
  requireDistinctStrategies instrument [] requests
  requirePositivePrice referenceQuotePrice "reference_quote_price"
  requirePositivePrice decisionMidQuotePrice "decision_mid_quote_price"
  let rawNet := (requests.map fun request => request.signedBaseQuantity).sum
  let netSignedBaseQuantity := instrument.quantizeBaseQuantity rawNet
  let adjusted ← absorbQuantization requests (netSignedBaseQuantity - rawNet)
  attributePlan instrument requests adjusted netSignedBaseQuantity referenceQuotePrice decisionMidQuotePrice

end FinanceKing.Risk
