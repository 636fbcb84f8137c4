import FinanceKing.Risk.Limits

/-! Drawdown, daily-loss and rolling-24h-loss limits over state that is restored, never recomputed.
    Every transition takes the instant as a parameter; the row form carries every figure as text. -/

namespace FinanceKing.Risk

open Lib

/-- Its length is not configurable. -/
def rollingWindow : TimeDelta := TimeDelta.ofMinutes (24 * 60)

def deriskOnsetRatio : Decimal := 6 / 10

def deriskTaperWidth : Decimal := 4 / 10

/-- The rolling budget as a multiple of the fixed daily one. -/
def rollingMultiple : Decimal := 15 / 10

def drawdownHardCeilings : List (String × Ceiling) :=
  [("strategy_drawdown_ratio", ⟨25 / 100⟩), ("portfolio_drawdown_ratio", ⟨20 / 100⟩),
    ("daily_loss_ratio", ⟨5 / 100⟩), ("rolling_loss_ratio", ⟨75 / 1000⟩)]

inductive Scope where
  | strategy
  | portfolio
  deriving DecidableEq

def Scope.value : Scope → String
  | .strategy => "strategy"
  | .portfolio => "portfolio"

inductive LimitName where
  | drawdown
  | dailyLoss
  | rollingLoss
  deriving DecidableEq

def LimitName.value : LimitName → String
  | .drawdown => "drawdown"
  | .dailyLoss => "daily_loss"
  | .rollingLoss => "rolling_loss"

/-- The decode tables of a persisted row. -/
def scopes : List (String × Scope) := [("strategy", .strategy), ("portfolio", .portfolio)]

def limitNames : List (String × LimitName) :=
  [("drawdown", .drawdown), ("daily_loss", .dailyLoss), ("rolling_loss", .rollingLoss)]

/-- What a breach authorises, and nothing beyond it. -/
inductive BreachResponse where
  | suspendStrategy
  | requestKillSwitchTrip
  deriving DecidableEq

def BreachResponse.value : BreachResponse → String
  | .suspendStrategy => "suspend_strategy"
  | .requestKillSwitchTrip => "request_kill_switch_trip"

def responseByScope : Scope → BreachResponse
  | .strategy => .suspendStrategy
  | .portfolio => .requestKillSwitchTrip

/-- A strictly positive equity; every ratio here divides by one. -/
def requirePositiveEquity (candidate : Decimal) (fieldName : String) : PyResult Unit :=
  raiseIf (candidate ≤ 0) .drawdownState
    [fieldName, " must be positive; got ", .decimal candidate]

@[simp] theorem requirePositiveEquity_eq_ok {x : Decimal} {name : String} {u : Unit} :
    requirePositiveEquity x name = .ok u ↔ 0 < x := by
  simp [requirePositiveEquity]

/-- The 00:00 UTC boundary of the day containing the instant. -/
def utcDayStart (momentUtc : DateTime) : DateTime := momentUtc - momentUtc % TimeDelta.ofMinutes (24 * 60)

/-! ### The state -/

structure EquityMarkFields where
  observedAtUtc : DateTime
  equityUsd : Decimal
  deriving DecidableEq

def EquityMarkFields.postInit (self : EquityMarkFields) : PyResult Unit :=
  requirePositiveEquity self.equityUsd "equity_usd"

/-- One observation of equity, as it stood at an instant. -/
structure EquityMark extends EquityMarkFields where
  checked : toEquityMarkFields.postInit = .ok ()
  deriving DecidableEq

def equityMark (observedAtUtc : DateTime) (equityUsd : Decimal) : PyResult EquityMark :=
  construct EquityMarkFields.postInit EquityMark.mk ⟨observedAtUtc, equityUsd⟩

/-- A limit that was crossed, with everything needed to reconstruct the decision. -/
structure BreachRecord where
  scope : Scope
  subjectId : String
  limitName : LimitName
  observedRatio : Decimal
  budgetRatio : Decimal
  breachedAtUtc : DateTime
  response : BreachResponse
  deriving DecidableEq

structure DrawdownBudgetsFields where
  scope : Scope
  drawdownRatio : Decimal
  dailyLossRatio : Decimal
  deriving DecidableEq

namespace DrawdownBudgetsFields

variable (self : DrawdownBudgetsFields)

/-- The trailing-24h budget, derived from the fixed daily one. -/
def rollingLossRatio : Decimal := self.dailyLossRatio * rollingMultiple

def submitted : Dict String Decimal :=
  ((Dict.empty.set (self.scope.value ++ "_drawdown_ratio") self.drawdownRatio).set
    "daily_loss_ratio" self.dailyLossRatio).set "rolling_loss_ratio" self.rollingLossRatio

def postInit : PyResult Unit :=
  assertWithinCeilings self.submitted
    (drawdownHardCeilings.filter fun (name, _) => name ∈ self.submitted.keys)
    ("risk.drawdown." ++ self.scope.value)

def budgetFor : LimitName → Decimal
  | .drawdown => self.drawdownRatio
  | .dailyLoss => self.dailyLossRatio
  | .rollingLoss => self.rollingLossRatio

end DrawdownBudgetsFields

/-- The three budgets for one scope, refused at construction above their ceilings. -/
structure DrawdownBudgets extends DrawdownBudgetsFields where
  checked : toDrawdownBudgetsFields.postInit = .ok ()
  deriving DecidableEq

structure DrawdownStateFields where
  scope : Scope
  subjectId : String
  peakEquityUsd : Decimal
  currentEquityUsd : Decimal
  dayStartUtc : DateTime
  dayOpenEquityUsd : Decimal
  rollingMarks : List EquityMark
  observedAtUtc : DateTime
  latchedBreach : Option BreachRecord
  deriving DecidableEq

def DrawdownStateFields.postInit (self : DrawdownStateFields) : PyResult Unit := do
  requirePositiveEquity self.peakEquityUsd "peak_equity_usd"
  requirePositiveEquity self.currentEquityUsd "current_equity_usd"
  requirePositiveEquity self.dayOpenEquityUsd "day_open_equity_usd"
  raiseIf (self.dayStartUtc ≠ utcDayStart self.dayStartUtc) .drawdownState
    ["day_start_utc ", .instant self.dayStartUtc, " is not a 00:00 UTC boundary; an anchor off the " ++
      "boundary makes the daily budget reset at an unrepeatable instant"]
  raiseIf (self.peakEquityUsd < self.currentEquityUsd) .drawdownState
    ["peak_equity_usd ", .decimal self.peakEquityUsd, " is below current_equity_usd ",
      .decimal self.currentEquityUsd, "; a high-water mark that trails current equity is the " ++
      "restart bug this type exists to prevent"]
  raiseIf (self.rollingMarks = []) .drawdownState
    ["rolling_marks is empty; the trailing-24h window has no reference equity and the rolling limit " ++
      "would silently never bind"]
  let ordering := self.rollingMarks.map fun mark => mark.observedAtUtc
  raiseIf (ordering ≠ sortBy (fun moment => moment) ordering) .drawdownState
    ["rolling_marks must be ordered by observed_at_utc"]

/-- Everything that must survive a restart, and nothing that may be re-derived. -/
structure DrawdownState extends DrawdownStateFields where
  checked : toDrawdownStateFields.postInit = .ok ()
  deriving DecidableEq

def drawdownState (fields : DrawdownStateFields) : PyResult DrawdownState :=
  construct DrawdownStateFields.postInit DrawdownState.mk fields

namespace DrawdownState

variable (self : DrawdownState)

/-- Peak-to-current drawdown as a fraction of the high-water mark. -/
def drawdownRatio : Decimal := (self.peakEquityUsd - self.currentEquityUsd) / self.peakEquityUsd

/-- Loss since 00:00 UTC, clipped at zero on the upside. -/
def dailyLossRatio : Decimal :=
  max 0 ((self.dayOpenEquityUsd - self.currentEquityUsd) / self.dayOpenEquityUsd)

/-- The highest equity of the trailing window, the current one included. -/
def windowHigh : Decimal :=
  self.rollingMarks.foldr (fun mark high => max mark.equityUsd high) self.currentEquityUsd

/-- Loss from the highest equity in the trailing 24h. -/
def rollingLossRatio : Decimal := max 0 ((self.windowHigh - self.currentEquityUsd) / self.windowHigh)

def observedRatioFor : LimitName → Decimal
  | .drawdown => self.drawdownRatio
  | .dailyLoss => self.dailyLossRatio
  | .rollingLoss => self.rollingLossRatio

end DrawdownState

/-! ### Transitions -/

/-- State for a subject with no history at all. -/
def openFirstTime (scope : Scope) (subjectId : String) (openingEquityUsd : Decimal)
    (asOfUtc : DateTime) : PyResult DrawdownState := do
  requirePositiveEquity openingEquityUsd "opening_equity_usd"
  let mark ← equityMark asOfUtc openingEquityUsd
  drawdownState
    { scope := scope
      subjectId := subjectId
      peakEquityUsd := openingEquityUsd
      currentEquityUsd := openingEquityUsd
      dayStartUtc := utcDayStart asOfUtc
      dayOpenEquityUsd := openingEquityUsd
      rollingMarks := [mark]
      observedAtUtc := asOfUtc
      latchedBreach := none }

/-- Marks inside the trailing window, plus the last one at or before its start. -/
def prune (marks : List EquityMark) (asOfUtc : DateTime) : List EquityMark :=
  let windowStart := asOfUtc - rollingWindow
  let inside := marks.filter fun mark => windowStart < mark.observedAtUtc
  let before := marks.filter fun mark => mark.observedAtUtc ≤ windowStart
  match before.getLast? with
  | some straddling => straddling :: inside
  | none => inside

/-- State after observing an equity at an instant. -/
def withEquity (state : DrawdownState) (equityUsd : Decimal) (asOfUtc : DateTime) :
    PyResult DrawdownState := do
  requirePositiveEquity equityUsd "equity_usd"
  raiseIf (asOfUtc < state.observedAtUtc) .drawdownState
    ["as_of_utc ", .instant asOfUtc, " precedes the last observation ",
      .instant state.observedAtUtc, "; drawdown state is not reorderable"]
  let dayStart := utcDayStart asOfUtc
  let rolled := state.dayStartUtc < dayStart
  let mark ← equityMark asOfUtc equityUsd
  drawdownState
    { state.toDrawdownStateFields with
      peakEquityUsd := max state.peakEquityUsd equityUsd
      currentEquityUsd := equityUsd
      dayStartUtc := dayStart
      -- the new day opens at the equity carried across the boundary
      dayOpenEquityUsd := if rolled then equityUsd else state.dayOpenEquityUsd
      rollingMarks := prune (state.rollingMarks ++ [mark]) asOfUtc
      observedAtUtc := asOfUtc }

/-- The size multiplier at this level of budget consumption, in `[0, 1]`. -/
def deriskScalar (observedRatio budgetRatio : Decimal) : Decimal :=
  if budgetRatio ≤ 0 then 0
  else
    let utilisationRatio := max 0 observedRatio / budgetRatio
    let taper := 1 - (utilisationRatio - deriskOnsetRatio) / deriskTaperWidth
    min 1 (max 0 taper)

/-- The outcome of one evaluation: every limit's reading, not only the failing one. -/
structure LimitVerdict where
  state : DrawdownState
  observedRatios : List (LimitName × Decimal)
  deriskMultiplier : Decimal
  breach : Option BreachRecord
  deriving DecidableEq

/-- Latched: a state carrying a prior breach stays halted after the drawdown recovers. -/
def LimitVerdict.isHalted (self : LimitVerdict) : Bool := self.breach.isSome

def limitOrder : List LimitName := [.drawdown, .dailyLoss, .rollingLoss]

/-- The first limit crossed, in the order drawdown, daily, rolling. -/
def firstBreach (state : DrawdownState) (budgets : DrawdownBudgets) : Option BreachRecord :=
  (limitOrder.find? fun name => budgets.budgetFor name ≤ state.observedRatioFor name).map fun name =>
    { scope := state.scope
      subjectId := state.subjectId
      limitName := name
      observedRatio := state.observedRatioFor name
      budgetRatio := budgets.budgetFor name
      breachedAtUtc := state.observedAtUtc
      response := responseByScope state.scope }

/-- Read every limit against the state and return the verdict, latching any breach. -/
def evaluate (state : DrawdownState) (budgets : DrawdownBudgets) : PyResult LimitVerdict := do
  raiseIf (budgets.scope ≠ state.scope) .drawdownState
    ["budgets are scoped ", .quoted budgets.scope.value, " but state is scoped ",
      .quoted state.scope.value, "; a portfolio budget applied to a strategy is a limit off by its " ++
      "own size"]
  let breach := state.latchedBreach.or (firstBreach state budgets)
  let scalarFor := fun name => deriskScalar (state.observedRatioFor name) (budgets.budgetFor name)
  let multiplier := min (scalarFor .drawdown) (min (scalarFor .dailyLoss) (scalarFor .rollingLoss))
  let latched ← drawdownState { state.toDrawdownStateFields with latchedBreach := breach }
  return {
    state := latched
    observedRatios := limitOrder.map fun name => (name, state.observedRatioFor name)
    deriskMultiplier := if breach.isSome then 0 else multiplier
    breach := breach }

/-! ### The persisted row -/

/-- What a persisted row holds under a column: nothing, text, a sequence or a mapping. -/
inductive RowValue where
  | null
  | text (m : Message)
  | sequence (items : List RowValue)
  | mapping (entries : List (String × RowValue))

abbrev Row := List (String × RowValue)

/-- `row.get(field_name)`. -/
def Row.get (row : Row) (fieldName : String) : RowValue := (row.lookup fieldName).getD .null

mutual

/-- `repr` of a row value. -/
def RowValue.repr : RowValue → Message
  | .null => [.text "None"]
  | .text m => .text "'" :: m ++ [.text "'"]
  | .sequence [item] => .text "(" :: item.repr ++ [.text ",)"]
  | .sequence items => .text "(" :: reprItems items ++ [.text ")"]
  | .mapping entries => .text "\x7b" :: reprEntries entries ++ [.text "\x7d"]

def reprItems : List RowValue → Message
  | [] => []
  | [item] => item.repr
  | item :: rest => item.repr ++ .text ", " :: reprItems rest

def reprEntries : List (String × RowValue) → Message
  | [] => []
  | [(key, item)] => .quoted key :: .text ": " :: item.repr
  | (key, item) :: rest => .quoted key :: .text ": " :: item.repr ++ .text ", " :: reprEntries rest

end

def markRow (mark : EquityMark) : RowValue :=
  .mapping
    [("observed_at_utc", .text [.instant mark.observedAtUtc]),
      ("equity_usd", .text [.decimal mark.equityUsd])]

def breachRow (breach : BreachRecord) : RowValue :=
  .mapping
    [("limit_name", .text [breach.limitName.value]),
      ("observed_ratio", .text [.decimal breach.observedRatio]),
      ("budget_ratio", .text [.decimal breach.budgetRatio]),
      ("breached_at_utc", .text [.instant breach.breachedAtUtc]),
      ("response", .text [breach.response.value])]

/-- The persisted form of the state, every equity figure as a string. -/
def toRow (state : DrawdownState) : Row :=
  [("scope", .text [state.scope.value]),
    ("subject_id", .text [state.subjectId]),
    ("peak_equity_usd", .text [.decimal state.peakEquityUsd]),
    ("current_equity_usd", .text [.decimal state.currentEquityUsd]),
    ("day_start_utc", .text [.instant state.dayStartUtc]),
    ("day_open_equity_usd", .text [.decimal state.dayOpenEquityUsd]),
    ("observed_at_utc", .text [.instant state.observedAtUtc]),
    ("rolling_marks", .sequence (state.rollingMarks.map markRow)),
    ("latched_breach",
      match state.latchedBreach with
      | none => .null
      | some breach => breachRow breach)]

/-- `Decimal(raw)`. -/
def parseDecimal : Message → PyResult Decimal
  | [.decimal d] => .ok d
  | raw => raise .invalidOperation raw

/-- `datetime.fromisoformat(raw)`. -/
def parseInstant : Message → PyResult DateTime
  | [.instant t] => .ok t
  | raw => raise .valueError (.text "Invalid isoformat string: " :: raw)

/-- A column that must hold text, which `!r` prints when it does not. -/
def rowText (row : Row) (fieldName expected advice : String) : PyResult Message :=
  match row.get fieldName with
  | .text m => .ok m
  | raw => raise .drawdownState
      ([.text "persisted ", .text fieldName, .text " must be ", .text expected, .text ", got "] ++
        raw.repr ++ [.text advice])

def decodeMoment (row : Row) (fieldName : String) : PyResult DateTime := do
  let raw ← rowText row fieldName "an ISO-8601 string" ""
  parseInstant raw

def decodeRatio (row : Row) (fieldName : String) : PyResult Decimal := do
  let raw ← rowText row fieldName "a decimal string" ""
  let ratio ← parseDecimal raw
  raiseIf (ratio < 0) .drawdownState
    ["persisted ", fieldName, " must be a finite fraction, got ", .decimal ratio]
  return ratio

def decodeEquity (row : Row) (fieldName : String) : PyResult Decimal := do
  let raw ← rowText row fieldName "a decimal string" "; a number here has already been through a float"
  let equity ← parseDecimal raw
  requirePositiveEquity equity fieldName
  return equity

/-- A column that names a member of a decode table. -/
def decodeMember {α : Type} (table : List (String × α)) (raw : RowValue) (refusal : Message) :
    PyResult α :=
  match raw with
  | .text [.text name] =>
    match table.lookup name with
    | some member => .ok member
    | none => raise .drawdownState (refusal ++ raw.repr)
  | _ => raise .drawdownState (refusal ++ raw.repr)

def decodeMark : RowValue → PyResult EquityMark
  | .mapping entry => do
    let observedAtUtc ← decodeMoment entry "observed_at_utc"
    let equityUsd ← decodeEquity entry "equity_usd"
    equityMark observedAtUtc equityUsd
  | entry => raise .drawdownState (.text "persisted rolling mark must be a mapping, got " :: entry.repr)

def decodeMarks (raw : RowValue) : PyResult (List EquityMark) :=
  match raw with
  | .sequence (entry :: rest) => (entry :: rest).mapM decodeMark
  | _ => raise .drawdownState (.text "persisted rolling_marks must be a non-empty sequence, got " :: raw.repr)

def decodeBreach (scope : Scope) (subjectId : String) : RowValue → PyResult (Option BreachRecord)
  | .null => .ok none
  | .mapping raw => do
    let limitName ← decodeMember limitNames (Row.get raw "limit_name")
      ["persisted limit_name is unknown: "]
    let observedRatio ← decodeRatio raw "observed_ratio"
    let budgetRatio ← decodeRatio raw "budget_ratio"
    let breachedAtUtc ← decodeMoment raw "breached_at_utc"
    return some
      { scope := scope
        subjectId := subjectId
        limitName := limitName
        observedRatio := observedRatio
        budgetRatio := budgetRatio
        breachedAtUtc := breachedAtUtc
        response := responseByScope scope }
  | raw => raise .drawdownState
      (.text "persisted latched_breach must be a mapping or null, got " :: raw.repr)

/-- The subject of a row: non-empty text. -/
def decodeSubject (raw : RowValue) : PyResult String :=
  match raw with
  | .text [.text subjectId] => do
    raiseIf (strip subjectId = []) .drawdownState
      (.text "persisted subject_id must be non-empty text, got " :: raw.repr)
    return subjectId
  | _ => raise .drawdownState (.text "persisted subject_id must be non-empty text, got " :: raw.repr)

/-- Rebuild state from its persisted form, refusing anything absent or malformed. -/
def fromRow (row : Row) : PyResult DrawdownState := do
  let scope ← decodeMember scopes (row.get "scope")
    ["persisted scope must be strategy or portfolio, got "]
  let subjectId ← decodeSubject (row.get "subject_id")
  let marks ← decodeMarks (row.get "rolling_marks")
  let breach ← decodeBreach scope subjectId (row.get "latched_breach")
  let peakEquityUsd ← decodeEquity row "peak_equity_usd"
  let currentEquityUsd ← decodeEquity row "current_equity_usd"
  let dayStartUtc ← decodeMoment row "day_start_utc"
  let dayOpenEquityUsd ← decodeEquity row "day_open_equity_usd"
  let observedAtUtc ← decodeMoment row "observed_at_utc"
  drawdownState
    { scope := scope
      subjectId := subjectId
      peakEquityUsd := peakEquityUsd
      currentEquityUsd := currentEquityUsd
      dayStartUtc := dayStartUtc
      dayOpenEquityUsd := dayOpenEquityUsd
      rollingMarks := marks
      observedAtUtc := observedAtUtc
      latchedBreach := breach }

end FinanceKing.Risk
