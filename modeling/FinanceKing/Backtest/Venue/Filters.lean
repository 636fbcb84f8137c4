import FinanceKing.Backtest.Venue.Rejections
import FinanceKing.Domain.Numerals
import FinanceKing.Domain.Results
import FinanceKing.Lib.Checks
import FinanceKing.Lib.Rounding

/-! Venue filters, read from an `exchangeInfo` entry and applied to an order. The check order is fixed, price
    lattice, price band, lot lattice, notional floor, so that the one rejection reported never depends on
    iteration order. A step of zero stands for no lattice at the venue; the screen divides by it. -/

namespace FinanceKing.Backtest

open Lib

/-! ### The payload -/

/-- A decoded value of a venue's payload; of what is neither text nor container, its type and how it prints. -/
inductive VenueValue where
  | text (s : String)
  | scalar (typeName rendered : String)
  | sequence (items : List VenueValue)
  | mapping (members : List (String × VenueValue))

namespace VenueValue

/-- `type(value).__name__`; what is absent is `None`. -/
def typeName : Option VenueValue → String
  | none => "NoneType"
  | some (.text _) => "str"
  | some (.scalar typeName _) => typeName
  | some (.sequence _) => "list"
  | some (.mapping _) => "dict"

mutual

/-- `repr(value)`. -/
def render : VenueValue → Message
  | .text s => [.quoted s]
  | .scalar _ rendered => [rendered]
  | .sequence items => (["["] : Message) ++ renderItems items ++ (["]"] : Message)
  | .mapping members => (["\x7b"] : Message) ++ renderMembers members ++ (["\x7d"] : Message)

def renderItems : List VenueValue → Message
  | [] => []
  | [item] => render item
  | item :: rest => render item ++ ([", "] : Message) ++ renderItems rest

def renderMembers : List (String × VenueValue) → Message
  | [] => []
  | [(key, member)] => ([.quoted key, ": "] : Message) ++ render member
  | (key, member) :: rest =>
    ([.quoted key, ": "] : Message) ++ render member ++ ([", "] : Message) ++ renderMembers rest

end

/-- `repr(mapping.get(key))`. -/
def renderGet : Option VenueValue → Message
  | none => ["None"]
  | some value => value.render

end VenueValue

/-- `Decimal.__mod__`: the remainder of a division truncated toward zero; zero is no modulus. -/
def decimalMod (x modulus : Decimal) : PyResult Decimal :=
  if modulus = 0 then raise .invalidOperation ["[<class 'decimal.InvalidOperation'>]"]
  else .ok (x - snapWith roundTowardZero modulus x)

/-- What one symbol's venue will accept, as the venue itself reported it. -/
structure SymbolFilters where
  symbol : String
  tickSize : Decimal
  minQuotePrice : Decimal
  maxQuotePrice : Decimal
  lotStep : Decimal
  minBaseQuantity : Decimal
  maxBaseQuantity : Decimal
  minNotionalQuote : Decimal
  bidMultiplierUp : Decimal
  bidMultiplierDown : Decimal
  askMultiplierUp : Decimal
  askMultiplierDown : Decimal
  deriving DecidableEq

/-- The first entry of the array that is of this filter type. -/
def entryFor (filters : List VenueValue) (filterType symbol : String) :
    PyResult (List (String × VenueValue)) :=
  let found := filters.findSome? fun
    | .mapping entry => match entry.lookup "filterType" with
      | some (.text type) => if type = filterType then some entry else none
      | _ => none
    | _ => none
  match found with
  | some entry => .ok entry
  | none => raise .venueSimulation
      [symbol, " exchangeInfo carries no ", filterType, " filter; the simulator cannot decide which orders the ",
        "venue would refuse, and defaulting the bound would disable the check without saying so"]

/-- A number of one entry, which is a string or a change of contract. -/
def decimalField (entry : List (String × VenueValue)) (key symbol : String) : PyResult Decimal :=
  let named : Message := ([symbol, " "] : Message) ++ (match entry.lookup "filterType" with
    | some (.text type) => [.text type]
    | other => VenueValue.renderGet other) ++ ([".", .text key] : Message)
  match entry.lookup key with
  | some (.text candidate) =>
    match decimalOf candidate with
    | .finite parsed => .ok parsed
    | .notFinite => raise .venueSimulation (named ++ ([" is not finite"] : Message))
    | .invalid => raise .venueSimulation (named ++ ([" is not a decimal: ", .quoted candidate] : Message))
  | candidate => raise .venueSimulation (named ++
      ([" must be a string-encoded decimal, got ", VenueValue.typeName candidate, " "] : Message) ++
      VenueValue.renderGet candidate ++
      (["; a JSON number has already been rounded by the parser before this code ran"] : Message))

/-- One `exchangeInfo` symbol entry as the filters the simulator enforces. -/
def parseSymbolFilters (payload : List (String × VenueValue)) : PyResult SymbolFilters :=
  match payload.lookup "symbol" with
  | some (.text symbol) => do
    raiseIf (symbol = "") .venueSimulation
      ["exchangeInfo symbol entry carries no usable symbol: ", .quoted symbol]
    match payload.lookup "filters" with
    | some (.sequence filters) => do
      let priceFilter ← entryFor filters "PRICE_FILTER" symbol
      let lot ← entryFor filters "LOT_SIZE" symbol
      let notional ← entryFor filters "NOTIONAL" symbol
      let band ← entryFor filters "PERCENT_PRICE_BY_SIDE" symbol
      return {
        symbol := symbol
        tickSize := ← decimalField priceFilter "tickSize" symbol
        minQuotePrice := ← decimalField priceFilter "minPrice" symbol
        maxQuotePrice := ← decimalField priceFilter "maxPrice" symbol
        lotStep := ← decimalField lot "stepSize" symbol
        minBaseQuantity := ← decimalField lot "minQty" symbol
        maxBaseQuantity := ← decimalField lot "maxQty" symbol
        minNotionalQuote := ← decimalField notional "minNotional" symbol
        bidMultiplierUp := ← decimalField band "bidMultiplierUp" symbol
        bidMultiplierDown := ← decimalField band "bidMultiplierDown" symbol
        askMultiplierUp := ← decimalField band "askMultiplierUp" symbol
        askMultiplierDown := ← decimalField band "askMultiplierDown" symbol }
    | _ => raise .venueSimulation [symbol, " exchangeInfo entry carries no filters array"]
  | symbol => raise .venueSimulation
      ((["exchangeInfo symbol entry carries no usable symbol: "] : Message) ++ VenueValue.renderGet symbol)

/-- The low and the high this side may quote against a reference of 1. -/
def SymbolFilters.priceBandFor (self : SymbolFilters) : Side → Decimal × Decimal
  | .buy => (self.bidMultiplierDown, self.bidMultiplierUp)
  | .sell => (self.askMultiplierDown, self.askMultiplierUp)

/-- `PRICE_FILTER`, then `PERCENT_PRICE_BY_SIDE`. -/
def screenQuotePrice (filters : SymbolFilters) (order : Order) (quoted reference : Decimal) :
    PyResult (Option Rejection) :=
  if quoted < filters.minQuotePrice ∨ filters.maxQuotePrice < quoted then
    .ok (some ⟨.priceFilter, [.decimal quoted, " outside [", .decimal filters.minQuotePrice, ", ",
      .decimal filters.maxQuotePrice, "]"]⟩)
  else do
    let remainder ← decimalMod quoted filters.tickSize
    if remainder ≠ 0 then
      .ok (some ⟨.priceFilter, [.decimal quoted, " is not a multiple of tick size ",
        .decimal filters.tickSize]⟩)
    else
      let (lowMultiplier, highMultiplier) := filters.priceBandFor order.side
      let bandLow := reference * lowMultiplier
      let bandHigh := reference * highMultiplier
      if quoted < bandLow ∨ bandHigh < quoted then
        .ok (some ⟨.percentPriceBySide, [order.side.value, " at ", .decimal quoted, " outside [",
          .decimal bandLow, ", ", .decimal bandHigh, "] against reference ", .decimal reference]⟩)
      else .ok none

/-- `LOT_SIZE`: the bounds first, then the lattice. -/
def screenBaseQuantity (filters : SymbolFilters) (baseQuantity : Decimal) :
    PyResult (Option Rejection) :=
  if baseQuantity < filters.minBaseQuantity ∨ filters.maxBaseQuantity < baseQuantity then
    .ok (some ⟨.lotSize, [.decimal baseQuantity, " outside [", .decimal filters.minBaseQuantity,
      ", ", .decimal filters.maxBaseQuantity, "]"]⟩)
  else do
    let remainder ← decimalMod baseQuantity filters.lotStep
    if remainder ≠ 0 then
      .ok (some ⟨.lotSize, [.decimal baseQuantity, " is not a multiple of step size ",
        .decimal filters.lotStep]⟩)
    else .ok none

/-- The price the notional floor is checked at: a limit order's own, the reference otherwise. -/
def notionalReference (order : Order) (reference : Decimal) : Decimal :=
  match order.orderType, order.limitQuotePrice with
  | .limit, some quoted => quoted
  | _, _ => reference

/-- The venue's answer to an order it has just received, or `none` if it accepts. -/
def screenOrder (filters : SymbolFilters) (order : Order) (reference : Decimal) :
    PyResult (Option Rejection) := do
  let priced ← match order.limitQuotePrice with
    | some quoted => screenQuotePrice filters order quoted reference
    | none => .ok none
  if priced.isSome then
    return priced
  let lotted ← screenBaseQuantity filters order.baseQuantity
  if lotted.isSome then
    return lotted
  let notionalQuote := order.baseQuantity * notionalReference order reference
  if notionalQuote < filters.minNotionalQuote then
    return some ⟨.minNotional, ["notional ", .decimal notionalQuote, " below floor ",
      .decimal filters.minNotionalQuote]⟩
  return none

/-! ### What the parser accepts -/

/-- The parser refuses in the simulator's own vocabulary. -/
theorem decimalField_error {entry : List (String × VenueValue)} {key symbol : String} {e : PyError}
    (h : decimalField entry key symbol = .error e) : e.kind = .venueSimulation := by
  rw [decimalField] at h
  split at h
  · split at h <;> cases h <;> rfl
  · cases h
    rfl

theorem entryFor_error {filters : List VenueValue} {filterType symbol : String} {e : PyError}
    (h : entryFor filters filterType symbol = .error e) : e.kind = .venueSimulation := by
  rw [entryFor] at h
  split at h <;> cases h
  rfl

theorem error_bind {α β : Type} {kind : ErrorKind} {x : PyResult α} {next : α → PyResult β}
    (hx : ∀ e, x = .error e → e.kind = kind) (hnext : ∀ a e, next a = .error e → e.kind = kind) :
    ∀ e, (x >>= next) = .error e → e.kind = kind := by
  intro e he
  rcases bind_eq_error he with he | ⟨a, _, he⟩
  · exact hx e he
  · exact hnext a e he

theorem parseSymbolFilters_error (payload : List (String × VenueValue)) :
    ∀ e, parseSymbolFilters payload = .error e → e.kind = .venueSimulation := by
  rw [parseSymbolFilters]
  split
  · refine error_bind (fun _ => raiseIf_error) fun _ => ?_
    split
    · refine error_bind (fun _ => entryFor_error) fun priceFilter => ?_
      refine error_bind (fun _ => entryFor_error) fun lot => ?_
      refine error_bind (fun _ => entryFor_error) fun notional => ?_
      refine error_bind (fun _ => entryFor_error) fun band => ?_
      repeat refine error_bind (fun _ => decimalField_error) fun _ => ?_
      exact fun e he => by cases he
    · exact fun e he => by cases he; rfl
  · exact fun e he => by cases he; rfl

/-! ### Lattices -/

/-- A value on the lattice of a step; at the venue a step of zero stands for no lattice. -/
def OnLattice (step x : Decimal) : Prop := step ≠ 0 → ∃ n : ℤ, x = n * step

theorem decimalMod_zero (x : Decimal) : ∃ message, decimalMod x 0 = raise .invalidOperation message :=
  ⟨_, by rw [decimalMod, if_pos rfl]⟩

/-- A remainder by a step that is none of zero vanishes exactly on the lattice. -/
theorem decimalMod_of_ne_zero (x : Decimal) {step : Decimal} (hstep : step ≠ 0) :
    ∃ remainder, decimalMod x step = .ok remainder ∧ (remainder = 0 ↔ OnLattice step x) := by
  refine ⟨x - snapWith roundTowardZero step x, by rw [decimalMod, if_neg hstep], ?_⟩
  rw [sub_eq_zero, snapWith]
  constructor
  · intro h _
    exact ⟨_, h⟩
  · intro h
    obtain ⟨n, rfl⟩ := h hstep
    have hwhole : roundTowardZero (n : Decimal) = n := by simp [roundTowardZero]
    rw [mul_div_cancel_right₀ _ hstep, hwhole]

/-! ### What the screen answers -/

/-- A screen that answers in the order of its checks: it raises nothing, accepts where all of them hold, and
    otherwise rejects with the reason of the first that does not. -/
structure AnswersFirst (result : PyResult (Option Rejection)) (checks : List (RejectReason × Prop)) : Prop where
  returns : ∃ answer, result = .ok answer
  accepts : result = .ok none ↔ AllPass checks
  names : ∀ reason, (∃ detail, result = .ok (some ⟨reason, detail⟩)) ↔ FirstFailing checks reason

namespace AnswersFirst

variable {checks rest : List (RejectReason × Prop)} {reason : RejectReason} {check : Prop}

theorem accepted : AnswersFirst (.ok none) [] := by
  refine ⟨⟨none, rfl⟩, by simp [AllPass], fun reason => iff_of_false (by simp) ?_⟩
  rintro ⟨⟩

theorem rejected (detail : Message) (h : ¬ check) :
    AnswersFirst (.ok (some ⟨reason, detail⟩)) ((reason, check) :: rest) := by
  refine ⟨⟨_, rfl⟩, iff_of_false (by simp) ?_, fun other => ?_⟩
  · exact fun hall => h (hall _ List.mem_cons_self)
  · constructor
    · rintro ⟨_, hother⟩
      obtain rfl : reason = other := by injection hother with hother; injection hother with hother; cases hother; rfl
      exact .here h
    · intro hother
      obtain rfl := hother.unique (.here h)
      exact ⟨detail, rfl⟩

/-- A check that holds is not what the screen answers by. -/
theorem passed {result : PyResult (Option Rejection)} (h : check) (hrest : AnswersFirst result rest) :
    AnswersFirst result ((reason, check) :: rest) := by
  refine ⟨hrest.returns, hrest.accepts.trans ?_, fun other => (hrest.names other).trans ?_⟩
  · simp [AllPass, h]
  · constructor
    · exact .later h
    · rintro (hfail | ⟨_, hlater⟩)
      · exact absurd h hfail
      · exact hlater

/-- A screen behind another answers for both. -/
theorem andThen {first next : PyResult (Option Rejection)} (h : AnswersFirst first checks)
    (hnext : AllPass checks → AnswersFirst next rest) :
    AnswersFirst (first >>= fun answer => if answer.isSome then pure answer else next) (checks ++ rest) := by
  obtain ⟨answer, hanswer⟩ := h.returns
  cases answer with
  | none =>
    have hall := h.accepts.mp hanswer
    have hbind : (first >>= fun answer => if answer.isSome then pure answer else next) = next := by
      rw [hanswer]
      rfl
    rw [hbind]
    clear hanswer hbind h
    induction checks with
    | nil => exact hnext hall
    | cons c checks ih =>
      have htail : AllPass checks := fun d hd => hall d (List.mem_cons_of_mem _ hd)
      exact passed (hall c List.mem_cons_self) (ih (fun _ => hnext hall) htail)
  | some rejection =>
    obtain ⟨reason, detail⟩ := rejection
    have hfails := (h.names reason).mp ⟨detail, hanswer⟩
    have hbind : (first >>= fun answer => if answer.isSome then pure answer else next) =
        .ok (some ⟨reason, detail⟩) := by
      rw [hanswer]
      rfl
    rw [hbind]
    refine ⟨⟨_, rfl⟩, iff_of_false (by simp) ?_, fun other => ?_⟩
    · exact (hfails.append_left rest).not_allPass
    · constructor
      · rintro ⟨_, hother⟩
        obtain rfl : reason = other := by
          injection hother with hother; injection hother with hother; cases hother; rfl
        exact hfails.append_left rest
      · intro hother
        obtain rfl := hother.unique (hfails.append_left rest)
        exact ⟨detail, rfl⟩

end AnswersFirst

section Screen

variable (filters : SymbolFilters) (order : Order) (reference : Decimal)

/-- `PRICE_FILTER` on a quoted price. -/
def PriceInBounds (quoted : Decimal) : Prop :=
  filters.minQuotePrice ≤ quoted ∧ quoted ≤ filters.maxQuotePrice

/-- `PERCENT_PRICE_BY_SIDE` on a quoted price. -/
def PriceInBand (quoted : Decimal) : Prop :=
  reference * (filters.priceBandFor order.side).1 ≤ quoted ∧
    quoted ≤ reference * (filters.priceBandFor order.side).2

def QuantityInBounds (baseQuantity : Decimal) : Prop :=
  filters.minBaseQuantity ≤ baseQuantity ∧ baseQuantity ≤ filters.maxBaseQuantity

/-- The checks on a quoted price; an order without one passes them. -/
def priceChecks (quoted : Option Decimal) : List (RejectReason × Prop) :=
  [(.priceFilter, ∀ price ∈ quoted, PriceInBounds filters price ∧ OnLattice filters.tickSize price),
    (.percentPriceBySide, ∀ price ∈ quoted, PriceInBand filters order reference price)]

/-- The documented checks in their documented order. -/
def screenChecks : List (RejectReason × Prop) :=
  priceChecks filters order reference order.limitQuotePrice ++
    [(.lotSize, QuantityInBounds filters order.baseQuantity ∧ OnLattice filters.lotStep order.baseQuantity),
      (.minNotional, filters.minNotionalQuote ≤ order.baseQuantity * notionalReference order reference)]

/-- No lattice the screen reaches has a step of zero. -/
structure StepsUsable : Prop where
  tick : ∀ price ∈ order.limitQuotePrice, PriceInBounds filters price → filters.tickSize ≠ 0
  lot : AllPass (priceChecks filters order reference order.limitQuotePrice) →
    QuantityInBounds filters order.baseQuantity → filters.lotStep ≠ 0

variable {filters order reference}

theorem screenQuotePrice_answers {quoted : Decimal}
    (h : PriceInBounds filters quoted → filters.tickSize ≠ 0) :
    AnswersFirst (screenQuotePrice filters order quoted reference)
      (priceChecks filters order reference (some quoted)) := by
  rw [screenQuotePrice]
  by_cases hbounds : PriceInBounds filters quoted
  · have hin : ¬(quoted < filters.minQuotePrice ∨ filters.maxQuotePrice < quoted) := by
      rw [not_or, not_lt, not_lt]
      exact hbounds
    obtain ⟨remainder, hmod, hzero⟩ := decimalMod_of_ne_zero quoted (h hbounds)
    rw [if_neg hin, hmod]
    change AnswersFirst (if remainder ≠ 0 then _ else _) _
    by_cases hlattice : remainder = 0
    · rw [if_neg (not_not.mpr hlattice)]
      refine .passed (by simpa using ⟨hbounds, hzero.mp hlattice⟩) ?_
      change AnswersFirst (if quoted < reference * (filters.priceBandFor order.side).1 ∨
        reference * (filters.priceBandFor order.side).2 < quoted then _ else _) _
      by_cases hband : PriceInBand filters order reference quoted
      · have hinside : ¬(quoted < reference * (filters.priceBandFor order.side).1 ∨
            reference * (filters.priceBandFor order.side).2 < quoted) := by
          rw [not_or, not_lt, not_lt]
          exact hband
        rw [if_neg hinside]
        exact .passed (by simpa using hband) .accepted
      · have houtside : quoted < reference * (filters.priceBandFor order.side).1 ∨
            reference * (filters.priceBandFor order.side).2 < quoted := by
          rw [← not_le, ← not_le, ← not_and_or]
          exact hband
        rw [if_pos houtside]
        exact .rejected _ (by simpa using hband)
    · rw [if_pos hlattice]
      exact .rejected _ (by simpa using fun _ => mt hzero.mpr hlattice)
  · have hout : quoted < filters.minQuotePrice ∨ filters.maxQuotePrice < quoted := by
      rw [← not_le, ← not_le, ← not_and_or]
      exact hbounds
    rw [if_pos hout]
    exact .rejected _ (by simpa using fun hin => absurd hin hbounds)

/-- A price inside the bounds is divided by a tick of zero. -/
theorem screenQuotePrice_raises (order : Order) (reference : Decimal) {quoted : Decimal} (hbounds : PriceInBounds filters quoted)
    (htick : filters.tickSize = 0) :
    ∃ message, screenQuotePrice filters order quoted reference = raise .invalidOperation message := by
  have hin : ¬(quoted < filters.minQuotePrice ∨ filters.maxQuotePrice < quoted) := by
    rw [not_or, not_lt, not_lt]
    exact hbounds
  obtain ⟨message, hmod⟩ := decimalMod_zero quoted
  exact ⟨message, by rw [screenQuotePrice, if_neg hin, htick, hmod]; rfl⟩

theorem screenBaseQuantity_answers {baseQuantity : Decimal}
    (h : QuantityInBounds filters baseQuantity → filters.lotStep ≠ 0) :
    AnswersFirst (screenBaseQuantity filters baseQuantity)
      [(.lotSize, QuantityInBounds filters baseQuantity ∧ OnLattice filters.lotStep baseQuantity)] := by
  rw [screenBaseQuantity]
  by_cases hbounds : QuantityInBounds filters baseQuantity
  · have hin : ¬(baseQuantity < filters.minBaseQuantity ∨ filters.maxBaseQuantity < baseQuantity) := by
      rw [not_or, not_lt, not_lt]
      exact hbounds
    obtain ⟨remainder, hmod, hzero⟩ := decimalMod_of_ne_zero baseQuantity (h hbounds)
    rw [if_neg hin, hmod]
    change AnswersFirst (if remainder ≠ 0 then _ else _) _
    by_cases hlattice : remainder = 0
    · rw [if_neg (not_not.mpr hlattice)]
      exact .passed ⟨hbounds, hzero.mp hlattice⟩ .accepted
    · rw [if_pos hlattice]
      exact .rejected _ fun hpass => hlattice (hzero.mpr hpass.2)
  · have hout : baseQuantity < filters.minBaseQuantity ∨ filters.maxBaseQuantity < baseQuantity := by
      rw [← not_le, ← not_le, ← not_and_or]
      exact hbounds
    rw [if_pos hout]
    exact .rejected _ fun hpass => hbounds hpass.1

theorem screenBaseQuantity_raises {baseQuantity : Decimal} (hbounds : QuantityInBounds filters baseQuantity)
    (hstep : filters.lotStep = 0) :
    ∃ message, screenBaseQuantity filters baseQuantity = raise .invalidOperation message := by
  have hin : ¬(baseQuantity < filters.minBaseQuantity ∨ filters.maxBaseQuantity < baseQuantity) := by
    rw [not_or, not_lt, not_lt]
    exact hbounds
  obtain ⟨message, hmod⟩ := decimalMod_zero baseQuantity
  exact ⟨message, by rw [screenBaseQuantity, if_neg hin, hstep, hmod]; rfl⟩

/-- The part of the screen that reads the quoted price, if there is one. -/
def screenPriced (filters : SymbolFilters) (order : Order) (reference : Decimal) : PyResult (Option Rejection) :=
  match order.limitQuotePrice with
  | some quoted => screenQuotePrice filters order quoted reference
  | none => .ok none

theorem screenPriced_answers (h : ∀ price ∈ order.limitQuotePrice, PriceInBounds filters price →
      filters.tickSize ≠ 0) :
    AnswersFirst (screenPriced filters order reference)
      (priceChecks filters order reference order.limitQuotePrice) := by
  rw [screenPriced]
  cases hquoted : order.limitQuotePrice with
  | none => exact .passed (by simp) (.passed (by simp) .accepted)
  | some quoted => exact screenQuotePrice_answers (h quoted hquoted)

/-- The notional floor, which ends the screen. -/
def screenNotional (filters : SymbolFilters) (order : Order) (reference : Decimal) : PyResult (Option Rejection) :=
  if order.baseQuantity * notionalReference order reference < filters.minNotionalQuote then
    .ok (some ⟨.minNotional, ["notional ", .decimal (order.baseQuantity * notionalReference order reference),
      " below floor ", .decimal filters.minNotionalQuote]⟩)
  else .ok none

theorem screenNotional_answers : AnswersFirst (screenNotional filters order reference)
    [(.minNotional, filters.minNotionalQuote ≤ order.baseQuantity * notionalReference order reference)] := by
  rw [screenNotional]
  by_cases hfloor : filters.minNotionalQuote ≤ order.baseQuantity * notionalReference order reference
  · rw [if_neg (not_lt.mpr hfloor)]
    exact .passed hfloor .accepted
  · rw [if_pos (not_le.mp hfloor)]
    exact .rejected _ hfloor

/-- The screen is its three parts, each reached where those before it accept. -/
theorem screenOrder_eq : screenOrder filters order reference =
    (screenPriced filters order reference >>= fun priced => if priced.isSome then pure priced else
      screenBaseQuantity filters order.baseQuantity >>= fun lotted => if lotted.isSome then pure lotted else
        screenNotional filters order reference) := by
  rw [screenOrder, screenPriced]
  cases order.limitQuotePrice with
  | none => rfl
  | some quoted => rfl

end Screen

/-- The screen raises nothing and answers by the documented checks in the documented order exactly where no
    lattice it reaches has a step of zero. -/
theorem screenOrder_answers_iff (filters : SymbolFilters) (order : Order) (reference : Decimal) :
    AnswersFirst (screenOrder filters order reference) (screenChecks filters order reference) ↔
      StepsUsable filters order reference := by
  rw [screenOrder_eq, screenChecks]
  constructor
  · intro h
    obtain ⟨answer, hanswer⟩ := h.returns
    have htick : ∀ price ∈ order.limitQuotePrice, PriceInBounds filters price → filters.tickSize ≠ 0 := by
      intro price hprice hbounds hzero
      obtain ⟨message, hraised⟩ := screenQuotePrice_raises order reference hbounds hzero
      rw [screenPriced, Option.mem_def.mp hprice] at hanswer
      simp only [hraised, bind_eq_ok, raise_ne_ok, false_and, exists_false] at hanswer
    refine ⟨htick, fun hpriced hbounds hzero => ?_⟩
    obtain ⟨message, hraised⟩ := screenBaseQuantity_raises hbounds hzero
    have hnone := (screenPriced_answers htick).accepts.mpr hpriced
    rw [hnone, hraised] at hanswer
    cases hanswer
  · intro h
    refine (screenPriced_answers h.tick).andThen fun hpriced => ?_
    exact (screenBaseQuantity_answers (h.lot hpriced)).andThen fun _ => screenNotional_answers

/-! ### An entry with a step of zero -/

def zeroTickFilter (filterType : String) (fields : List (String × String)) : VenueValue :=
  .mapping (("filterType", .text filterType) :: fields.map fun field => (field.1, .text field.2))

/-- An entry whose price lattice is disabled. -/
def zeroTickEntry : List (String × VenueValue) :=
  [("symbol", .text "BTCUSDT"), ("filters", .sequence [
    zeroTickFilter "PRICE_FILTER" [("minPrice", "0.01"), ("maxPrice", "1000000.00"), ("tickSize", "0")],
    zeroTickFilter "LOT_SIZE" [("minQty", "0.00001"), ("maxQty", "9000.0"), ("stepSize", "0.00001")],
    zeroTickFilter "NOTIONAL" [("minNotional", "5.00000000")],
    zeroTickFilter "PERCENT_PRICE_BY_SIDE" [("bidMultiplierUp", "5"), ("bidMultiplierDown", "0.2"),
      ("askMultiplierUp", "5"), ("askMultiplierDown", "0.2")]])]

def zeroTickFilters : SymbolFilters :=
  ⟨"BTCUSDT", 0, 1 / 100, 1000000, 1 / 100000, 1 / 100000, 9000, 5, 5, 1 / 5, 5, 1 / 5⟩

theorem zeroTickInstrument_checked : InstrumentFields.postInit
    ⟨.binanceSpotTestnet, "BTCUSDT", "BTC", "USDT", 1 / 100, 1 / 100000, 5⟩ = .ok () := by
  with_unfolding_all decide

def zeroTickOrderFields : OrderFields where
  orderId := 1
  clientOrderId := "fk-1"
  correlationId := 2
  instrument := ⟨⟨.binanceSpotTestnet, "BTCUSDT", "BTC", "USDT", 1 / 100, 1 / 100000, 5⟩,
    zeroTickInstrument_checked⟩
  side := .buy
  orderType := .limit
  timeInForce := .gtc
  baseQuantity := 1
  limitQuotePrice := some 100
  createdAtUtc := 0

theorem zeroTickOrderFields_checked : zeroTickOrderFields.postInit = .ok () := by with_unfolding_all decide

def zeroTickOrder : Order := ⟨zeroTickOrderFields, zeroTickOrderFields_checked⟩

/-- The parser accepts the entry, and the screen raises on an order that every filter of it admits. -/
theorem zero_tick_leaves_the_screen : parseSymbolFilters zeroTickEntry = .ok zeroTickFilters ∧
    ¬ AnswersFirst (screenOrder zeroTickFilters zeroTickOrder 100) (screenChecks zeroTickFilters zeroTickOrder 100) := by
  refine ⟨by decide +kernel, fun h => ?_⟩
  obtain ⟨answer, hanswer⟩ := h.returns
  have hraised : (screenOrder zeroTickFilters zeroTickOrder 100).isOk = false := by decide +kernel
  rw [hanswer] at hraised
  cases hraised

end FinanceKing.Backtest
