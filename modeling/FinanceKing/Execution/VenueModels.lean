import FinanceKing.Domain.Results
import FinanceKing.Lib.Dict

/-! Typed views of what a venue answers: its symbols, their filters, its epochs and its refusals. A filter that is
    missing is the venue's failure; one that fails a declared constraint is a validation error. -/

namespace FinanceKing.Execution

open Lib

/-- A `PermanentExchangeError`: its text, and the venue's own code for the refusal. -/
structure VenueRefusal where
  message : Message
  venueCode : Option ℤ
  deriving DecidableEq

def VenueRefusal.error (self : VenueRefusal) : PyError := ⟨.permanentExchange, self.message⟩

/-- What one call to a venue gives: a value of its declared type, or a refusal. -/
abbrev VenueAnswer (α : Type) := Except VenueRefusal α

/-! ### Epochs -/

/-- 2015-01-01. -/
def plausibleFromUtc : DateTime := TimeDelta.ofSeconds 1420070400

/-- 2100-01-01. -/
def plausibleBeforeUtc : DateTime := TimeDelta.ofSeconds 4102444800

/-- The first and the last instant a `datetime` holds. -/
def datetimeMin : DateTime := TimeDelta.ofSeconds (-62135596800)

def datetimeMax : DateTime := TimeDelta.ofSeconds 253402300800 - 1

/-- A venue millisecond epoch as an instant, exactly; one outside the plausible range is a unit error. -/
def venueEpochToUtc (epochMs : ℤ) : PyResult DateTime := do
  let moment : DateTime := epochMs * 1000
  raiseIf (moment < datetimeMin ∨ datetimeMax < moment) .permanentExchange
    ["venue epoch ", .count epochMs, " is not representable as a datetime; the timestamp unit assumption is wrong"]
  raiseIf (¬(plausibleFromUtc ≤ moment ∧ moment < plausibleBeforeUtc)) .permanentExchange
    ["venue epoch ", .count epochMs, " normalises to ", .instant moment, ", outside the plausible range; the ",
      "timestamp unit assumption is wrong"]
  return moment

/-! ### Filters -/

/-- One entry of a symbol's `filters` array; every filter type has the same fields, most of them absent. -/
structure VenueSymbolFilter where
  filterType : String
  tickSize : Option Decimal
  stepSize : Option Decimal
  minQuantity : Option Decimal
  maxQuantity : Option Decimal
  minNotional : Option Decimal
  deriving DecidableEq

structure SymbolFiltersFields where
  tickSize : Decimal
  stepSize : Decimal
  minQuantity : Decimal
  maxQuantity : Decimal
  minNotional : Option Decimal
  deriving DecidableEq

/-- `Field(gt=0)`. -/
def requirePositiveField (field : String) (input : Decimal) : PyResult Unit :=
  raiseIf (¬ 0 < input) .validation
    ["SymbolFilters.", .text field, ": Input should be greater than 0, got ", .decimal input]

/-- `Field(ge=0)`. -/
def requireNonNegativeField (field : String) (input : Decimal) : PyResult Unit :=
  raiseIf (¬ 0 ≤ input) .validation
    ["SymbolFilters.", .text field, ": Input should be greater than or equal to 0, got ", .decimal input]

/-- The declared field constraints, in field order. -/
def SymbolFiltersFields.postInit (self : SymbolFiltersFields) : PyResult Unit := do
  requirePositiveField "tick_size" self.tickSize
  requirePositiveField "step_size" self.stepSize
  requireNonNegativeField "min_quantity" self.minQuantity
  requirePositiveField "max_quantity" self.maxQuantity
  requireNonNegativeField "min_notional" (self.minNotional.getD 0)

/-- The filters an order must satisfy. -/
structure SymbolFilters extends SymbolFiltersFields where
  checked : toSymbolFiltersFields.postInit = .ok ()
  deriving DecidableEq

/-- The last entry of each filter type: `{entry.filter_type: entry for entry in entries}`. -/
def filtersByType (entries : List VenueSymbolFilter) : Dict String VenueSymbolFilter :=
  entries.foldl (fun byType entry => byType.set entry.filterType entry) Dict.empty

/-- The filters extracted from a symbol's array; a missing price or lot filter is the venue's failure. -/
def SymbolFilters.fromEntries (entries : List VenueSymbolFilter) (symbol : String) : PyResult SymbolFilters := do
  let byType := filtersByType entries
  let notional := (byType.get? "NOTIONAL").or (byType.get? "MIN_NOTIONAL")
  match (byType.get? "PRICE_FILTER").bind VenueSymbolFilter.tickSize with
  | none => raise .permanentExchange [symbol, " exchangeInfo carries no usable PRICE_FILTER"]
  | some tickSize =>
    match byType.get? "LOT_SIZE" with
    | some ⟨_, _, some stepSize, minQuantity, some maxQuantity, _⟩ =>
      construct SymbolFiltersFields.postInit SymbolFilters.mk
        ⟨tickSize, stepSize, minQuantity.getD 0, maxQuantity, notional.bind VenueSymbolFilter.minNotional⟩
    | _ => raise .permanentExchange [symbol, " exchangeInfo carries no usable LOT_SIZE"]

/-! ### Symbols -/

/-- One entry of `exchangeInfo.symbols`, with its code points untouched. -/
structure VenueSymbol where
  symbol : String
  status : String
  filters : List VenueSymbolFilter
  deriving DecidableEq

def VenueSymbol.isTrading (self : VenueSymbol) : Bool := self.status = "TRADING"

def VenueSymbol.orderFilters (self : VenueSymbol) : PyResult SymbolFilters :=
  SymbolFilters.fromEntries self.filters self.symbol

structure VenueExchangeInfo where
  symbols : List VenueSymbol
  deriving DecidableEq

/-- The first entry of this name. -/
def VenueExchangeInfo.symbol (self : VenueExchangeInfo) (name : String) : PyResult VenueSymbol :=
  match self.symbols.find? fun entry => entry.symbol = name with
  | some entry => .ok entry
  | none => raise .permanentExchange ["exchangeInfo lists no symbol ", .quoted name]

structure VenueBalance where
  asset : String
  freeAmount : Decimal
  lockedAmount : Option Decimal
  deriving DecidableEq

/-- An order the venue considers live, by its two names. -/
structure VenueOrder where
  venueOrderId : ℤ
  clientOrderId : String
  deriving DecidableEq

/-! ### When filters load -/

/-- The numbers of the price and lot filters, where both are usable: a tick, and a step with a largest quantity. -/
def usableNumbers (entries : List VenueSymbolFilter) : Option SymbolFiltersFields := do
  let byType := filtersByType entries
  let price ← byType.get? "PRICE_FILTER"
  let tickSize ← price.tickSize
  let lot ← byType.get? "LOT_SIZE"
  let stepSize ← lot.stepSize
  let maxQuantity ← lot.maxQuantity
  return ⟨tickSize, stepSize, lot.minQuantity.getD 0, maxQuantity,
    ((byType.get? "NOTIONAL").or (byType.get? "MIN_NOTIONAL")).bind VenueSymbolFilter.minNotional⟩

/-- The usable numbers of the symbol of this name, where it is listed. -/
def usableFilters (info : VenueExchangeInfo) (name : String) : Option SymbolFiltersFields :=
  (info.symbols.find? fun entry => entry.symbol = name).bind fun entry => usableNumbers entry.filters

/-- The numbers a venue can mean: positive lattices and bounds that are not negative. -/
structure InRange (fields : SymbolFiltersFields) : Prop where
  tick : 0 < fields.tickSize
  step : 0 < fields.stepSize
  minimum : 0 ≤ fields.minQuantity
  maximum : 0 < fields.maxQuantity
  notional : 0 ≤ fields.minNotional.getD 0

theorem postInit_eq_ok {fields : SymbolFiltersFields} : fields.postInit = .ok () ↔ InRange fields := by
  simp only [SymbolFiltersFields.postInit, requirePositiveField, requireNonNegativeField, bind_eq_ok, raiseIf_eq_ok,
    Unique.exists_iff, not_not]
  constructor
  · rintro ⟨ht, hs, hm, hx, hn⟩
    exact ⟨ht, hs, hm, hx, hn⟩
  · intro h
    exact ⟨h.tick, h.step, h.minimum, h.maximum, h.notional⟩

theorem postInit_error {fields : SymbolFiltersFields} {e : PyError} (h : fields.postInit = .error e) :
    e.kind = .validation := by
  rcases bind_eq_error h with h | ⟨_, _, h⟩
  · exact raiseIf_error h
  rcases bind_eq_error h with h | ⟨_, _, h⟩
  · exact raiseIf_error h
  rcases bind_eq_error h with h | ⟨_, _, h⟩
  · exact raiseIf_error h
  rcases bind_eq_error h with h | ⟨_, _, h⟩
  · exact raiseIf_error h
  · exact raiseIf_error h

/-- A load of filters, judged by the numbers it would load: none are the venue's failure, and one out of range is
    a validation error. -/
structure Loads (result : PyResult SymbolFilters) (usable : Option SymbolFiltersFields) : Prop where
  unusable : usable = none → ∃ message, result = raise .permanentExchange message
  inRange : ∀ fields, usable = some fields → InRange fields →
    ∃ filters, result = .ok filters ∧ filters.toSymbolFiltersFields = fields
  outOfRange : ∀ fields, usable = some fields → ¬ InRange fields → ∃ message, result = raise .validation message

theorem construct_loads (fields : SymbolFiltersFields) :
    Loads (construct SymbolFiltersFields.postInit SymbolFilters.mk fields) (some fields) := by
  refine ⟨fun h => by (cases h), fun other hother hin => ?_, fun other hother hout => ?_⟩
  · obtain rfl := Option.some.inj hother
    exact ⟨_, construct_ok (postInit_eq_ok.mpr hin), rfl⟩
  · obtain rfl := Option.some.inj hother
    cases hpost : fields.postInit with
    | ok u => exact absurd (postInit_eq_ok.mp hpost) hout
    | error e =>
      obtain ⟨kind, message⟩ := e
      obtain rfl : kind = .validation := postInit_error hpost
      exact ⟨message, construct_error hpost⟩

theorem raise_loads (message : Message) : Loads (raise .permanentExchange message) none :=
  ⟨fun _ => ⟨message, rfl⟩, fun _ h => by (cases h), fun _ h => by (cases h)⟩

theorem fromEntries_loads (entries : List VenueSymbolFilter) (symbol : String) :
    Loads (SymbolFilters.fromEntries entries symbol) (usableNumbers entries) := by
  rw [SymbolFilters.fromEntries, usableNumbers]
  dsimp only [Option.bind_eq_bind, Option.pure_def]
  cases (filtersByType entries).get? "PRICE_FILTER" with
  | none => exact raise_loads _
  | some price =>
    obtain ⟨_, tick, _, _, _, _⟩ := price
    cases tick with
    | none => exact raise_loads _
    | some tickSize =>
      cases (filtersByType entries).get? "LOT_SIZE" with
      | none => exact raise_loads _
      | some lot =>
        obtain ⟨_, _, step, minQuantity, maximum, _⟩ := lot
        cases step with
        | none => exact raise_loads _
        | some stepSize =>
          cases maximum with
          | none => exact raise_loads _
          | some maxQuantity => exact construct_loads _

/-- `exchange_info.symbol(name).order_filters()`. -/
def orderFiltersOf (info : VenueExchangeInfo) (name : String) : PyResult SymbolFilters := do
  let entry ← info.symbol name
  entry.orderFilters

theorem orderFiltersOf_loads (info : VenueExchangeInfo) (name : String) :
    Loads (orderFiltersOf info name) (usableFilters info name) := by
  rw [usableFilters, orderFiltersOf, VenueExchangeInfo.symbol]
  cases info.symbols.find? fun entry => entry.symbol = name with
  | none => exact raise_loads _
  | some entry => exact fromEntries_loads entry.filters entry.symbol

end FinanceKing.Execution
