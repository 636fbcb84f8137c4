import FinanceKing.Data.Formats
import FinanceKing.Data.Registry
import FinanceKing.Domain.Numerals

/-! Archives row by row: the split into lines and fields, the header gate, the field parsers, and the tally
    of what was rejected and why. A row that cannot be parsed is counted; what a row raises leaves the
    parse. -/

namespace FinanceKing.Data

open Lib

/-! ### Records -/

/-- One closed OHLCV interval as the archive filed it. -/
structure KlineRecord where
  openTimeUtc : DateTime
  closeTimeUtc : DateTime
  openQuotePrice : Decimal
  highQuotePrice : Decimal
  lowQuotePrice : Decimal
  closeQuotePrice : Decimal
  baseVolume : Decimal
  quoteVolume : Decimal
  tradeCount : ℤ
  takerBuyBaseVolume : Decimal
  takerBuyQuoteVolume : Decimal
  ignoredField : String
  deriving DecidableEq

/-- The instant a bar is keyed on: its open. -/
def KlineRecord.eventTimeUtc (self : KlineRecord) : DateTime := self.openTimeUtc

/-- One trade print as the archive filed it. -/
structure TradeRecord where
  venueTradeId : String
  eventTimeUtc : DateTime
  quotePrice : Decimal
  baseQuantity : Decimal
  quoteQuantity : Decimal
  isBuyerMaker : Bool
  isBestMatch : Bool
  deriving DecidableEq

/-- Why one row was not turned into a record. -/
inductive RejectionReason where
  | fieldCount
  | epochNotInteger
  | epochOutOfRange
  | decimalUnparseable
  | priceNotPositive
  | volumeNegative
  | ohlcNotBracketing
  | intervalNotForward
  | tradeCountNotInteger
  | identifierBlank
  | booleanUnrecognised
  deriving DecidableEq

namespace RejectionReason

def value : RejectionReason → String
  | fieldCount => "field_count"
  | epochNotInteger => "epoch_not_integer"
  | epochOutOfRange => "epoch_out_of_range"
  | decimalUnparseable => "decimal_unparseable"
  | priceNotPositive => "price_not_positive"
  | volumeNegative => "volume_negative"
  | ohlcNotBracketing => "ohlc_not_bracketing"
  | intervalNotForward => "interval_not_forward"
  | tradeCountNotInteger => "trade_count_not_integer"
  | identifierBlank => "identifier_blank"
  | booleanUnrecognised => "boolean_unrecognised"

def all : List RejectionReason :=
  [fieldCount, epochNotInteger, epochOutOfRange, decimalUnparseable, priceNotPositive, volumeNegative,
    ohlcNotBracketing, intervalNotForward, tradeCountNotInteger, identifierBlank, booleanUnrecognised]

end RejectionReason

/-- How many rows were rejected for this reason: `rejection_reasons.get(reason, 0)`. -/
def NormalizationResult.rejectedFor (self : NormalizationResult) (reason : RejectionReason) : ℤ :=
  (self.rejectionReasons.lookup reason.value).getD 0

/-- Raise when the counted rejections exceed `ceiling * rows_in`; with no reasons given, every rejection
    counts. -/
def refuseAboveCeiling (outcome : NormalizationResult) (ceiling : Decimal) (source : String)
    (reasons : Option (List RejectionReason)) : PyResult Unit :=
  let rejected := reasons.elim outcome.rowsRejected fun counted =>
    (counted.map outcome.rejectedFor).sum
  raiseIf (rejected ≠ 0 ∧ ceiling * outcome.rowsIn < rejected) .dataIntegrity
    [source, " rejected ", .count rejected, " of ", .count outcome.rowsIn, " rows",
      .texts ((reasons.getD []).map RejectionReason.value), ", above the declared ceiling of ",
      .decimal ceiling]

/-! ### Field parsers -/

/-- What stops a row: a reason it is counted under, or an exception that is none of the parser's own. -/
inductive RowFault where
  | rejected (reason : RejectionReason)
  | raised (error : PyError)
  deriving DecidableEq

/-- What a row parser returns, or what stops the row. -/
abbrev RowResult (α : Type) := Except RowFault α

def reject {α : Type} (reason : RejectionReason) : RowResult α := .error (.rejected reason)

def rejectIf (rejected : Prop) [Decidable rejected] (reason : RejectionReason) : RowResult Unit :=
  if rejected then reject reason else .ok ()

/-- A call inside a row parser whose exception the parser does not catch. -/
def uncaught {α : Type} (result : PyResult α) : RowResult α :=
  match result with
  | .ok a => .ok a
  | .error e => .error (.raised e)

def requireFieldCount (row : List String) (expected : ℕ) : RowResult Unit :=
  rejectIf (row.length ≠ expected) .fieldCount

/-- Plain decimal notation with an optional sign and exponent, read exactly. -/
def parseDecimal (raw : String) : RowResult Decimal :=
  let (negative, rest) := takeSign raw.toList
  let (whole, afterWhole) := takeDigits rest
  let (fraction, tail) := takeFraction afterWhole
  match whole, exponentOf tail with
  | _ :: _, some exponent => do
    rejectIf (¬ holdsDecimal (whole ++ fraction) (exponent - fraction.length)) .decimalUnparseable
    return applySign negative (Nat.ofDigitChars 10 (whole ++ fraction) 0) *
      10 ^ (exponent - fraction.length)
  | _, _ => reject .decimalUnparseable

def parsePositiveDecimal (raw : String) : RowResult Decimal := do
  let parsed ← parseDecimal raw
  rejectIf (parsed ≤ 0) .priceNotPositive
  return parsed

def parseNonNegativeDecimal (raw : String) : RowResult Decimal := do
  let parsed ← parseDecimal raw
  rejectIf (parsed < 0) .volumeNegative
  return parsed

/-- `int(raw)`, for a text the integer pattern matched. -/
def intOf (raw : String) (spelled : ℤ) : PyResult ℤ := do
  let digits := (takeSign raw.toList).2.length
  raiseIf (maxIntDigits < digits) .valueError
    ["Exceeds the limit (", .count maxIntDigits, " digits) for integer string conversion: value has ",
      .count digits, " digits; use sys.set_int_max_str_digits() to increase the limit"]
  return spelled

/-- A raw epoch under the declared unit; one outside the plausible window rejects its row. Only a
    `DataIntegrityError` is read as that. -/
def parseEpoch (raw : String) (unit : EpochUnit) (nowUtc : DateTime) : RowResult DateTime :=
  match signedInteger raw.toList with
  | none => reject .epochNotInteger
  | some spelled => do
    let rawEpoch ← uncaught (intOf raw spelled)
    match epochToUtc rawEpoch unit nowUtc with
    | .ok moment => .ok moment
    | .error e => if e.kind = .dataIntegrity then reject .epochOutOfRange else .error (.raised e)

/-- `[0-9]+` over the whole text, as the integer it spells. -/
def unsignedInteger (text : List Char) : Option ℤ :=
  match takeDigits text with
  | (digit :: digits, []) => some (Nat.ofDigitChars 10 (digit :: digits) 0)
  | _ => none

def parseNonNegativeInt (raw : String) : RowResult ℤ :=
  match unsignedInteger raw.toList with
  | none => reject .tradeCountNotInteger
  | some spelled => uncaught (intOf raw spelled)

/-- `BOOLEAN_TOKENS`: exact spellings, and no fallback. -/
def booleanTokens : BooleanEncoding → List (String × Bool)
  | .python => [("True", true), ("False", false)]
  | .json => [("true", true), ("false", false)]
  | .numeric => [("1", true), ("0", false)]

def parseBoolean (raw : String) (encoding : BooleanEncoding) : RowResult Bool :=
  match (booleanTokens encoding).lookup raw with
  | some token => .ok token
  | none => reject .booleanUnrecognised

/-! ### What a parse is declared with -/

/-- One archive's parse, fully declared. -/
structure IngestionSpecFields where
  coordinate : ArchiveCoordinate
  archiveFormat : ArchiveFormat
  sourceChecksumHex : String
  nowUtc : DateTime
  maxRejectionFraction : Decimal
  deriving DecidableEq

/-- A lowercase digest of 64 hexadecimal characters. -/
def isSha256Hex (digest : String) : Bool :=
  digest.toList.length = 64 && digest.toList.all fun c => c.isDigit || ('a' ≤ c && c ≤ 'f')

def IngestionSpecFields.postInit (self : IngestionSpecFields) : PyResult Unit := do
  raiseIf ((self.archiveFormat.market, self.archiveFormat.dataset) ≠
      (self.coordinate.market, self.coordinate.dataset)) .dataIntegrity
    ["the declared format is for ", self.archiveFormat.market.value, "/",
      self.archiveFormat.dataset.value, " but the file is ", self.coordinate.market.value, "/",
      self.coordinate.dataset.value, "; formats do not transfer between corpora"]
  raiseIf (¬ self.archiveFormat.covers self.coordinate.archiveDate) .dataIntegrity
    ["the declared format segment covers [", .date self.archiveFormat.declaredFromDate, ", ",
      self.archiveFormat.declaredUntilDate.elim "open" Piece.date, ") and the file is dated ",
      .date self.coordinate.archiveDate, "; resolve the format for the file's own date with ",
      "resolve_archive_format()"]
  raiseIf (¬ isSha256Hex self.sourceChecksumHex) .dataIntegrity
    ["source_checksum_hex must be a lowercase 64-character SHA-256 digest of the verified archive; got ",
      .quoted self.sourceChecksumHex, ". No archive is parsed before it is verified ",
      "(DATA_PIPELINE.md section 2)"]
  raiseIf (¬(0 ≤ self.maxRejectionFraction ∧ self.maxRejectionFraction ≤ 1)) .dataIntegrity
    ["max_rejection_fraction is a fraction in [0, 1], not a percent; got ",
      .decimal self.maxRejectionFraction]

structure IngestionSpec extends IngestionSpecFields where
  checked : toIngestionSpecFields.postInit = .ok ()
  deriving DecidableEq

/-! ### Rows -/

def klineColumns : List String :=
  ["open_time", "open", "high", "low", "close", "volume", "close_time", "quote_volume", "count",
    "taker_buy_volume", "taker_buy_quote_volume", "ignore"]

/-- One kline row to one record, or what stops it. -/
def parseKlineRow (row : List String) (spec : IngestionSpec) : RowResult KlineRecord := do
  requireFieldCount row klineColumns.length
  match row with
  | [openTime, openPrice, high, low, close, volume, closeTime, quoteVolume, count, takerBuyBase,
      takerBuyQuote, ignored] => do
    let unit ← uncaught spec.archiveFormat.requireEpochUnit
    let openTimeUtc ← parseEpoch openTime unit spec.nowUtc
    let closeTimeUtc ← parseEpoch closeTime unit spec.nowUtc
    rejectIf (closeTimeUtc ≤ openTimeUtc) .intervalNotForward
    let openQuotePrice ← parsePositiveDecimal openPrice
    let highQuotePrice ← parsePositiveDecimal high
    let lowQuotePrice ← parsePositiveDecimal low
    let closeQuotePrice ← parsePositiveDecimal close
    rejectIf (highQuotePrice < max openQuotePrice closeQuotePrice ∨
      min openQuotePrice closeQuotePrice < lowQuotePrice) .ohlcNotBracketing
    let baseVolume ← parseNonNegativeDecimal volume
    let quoteVolume ← parseNonNegativeDecimal quoteVolume
    let tradeCount ← parseNonNegativeInt count
    let takerBuyBaseVolume ← parseNonNegativeDecimal takerBuyBase
    let takerBuyQuoteVolume ← parseNonNegativeDecimal takerBuyQuote
    return ⟨openTimeUtc, closeTimeUtc, openQuotePrice, highQuotePrice, lowQuotePrice,
      closeQuotePrice, baseVolume, quoteVolume, tradeCount, takerBuyBaseVolume,
      takerBuyQuoteVolume, ignored⟩
  | _ => reject .fieldCount

def tradeColumns : List String :=
  ["trade_id", "price", "qty", "quote_qty", "time", "is_buyer_maker", "is_best_match"]

/-- The encoding of the boolean columns; a format that names none is an incomplete declaration. -/
def requireBooleanEncoding (archiveFormat : ArchiveFormat) : PyResult BooleanEncoding :=
  match archiveFormat.booleanEncoding with
  | some encoding => .ok encoding
  | none => raise .dataIntegrity
      ["the declared format for ", archiveFormat.market.value, "/", archiveFormat.dataset.value,
        " names no boolean_encoding, but the dataset has boolean columns. Declaring one requires ",
        "reading a real archive rather than assuming the neighbouring dataset's encoding -- that ",
        "assumption is trap 3"]

/-- One trade row to one record, or what stops it. -/
def parseTradeRow (row : List String) (spec : IngestionSpec) : RowResult TradeRecord := do
  requireFieldCount row tradeColumns.length
  match row with
  | [tradeId, price, quantity, quoteQuantity, time, isBuyerMaker, isBestMatch] => do
    let encoding ← uncaught (requireBooleanEncoding spec.archiveFormat)
    rejectIf (strip tradeId = []) .identifierBlank
    let unit ← uncaught spec.archiveFormat.requireEpochUnit
    let eventTimeUtc ← parseEpoch time unit spec.nowUtc
    let quotePrice ← parsePositiveDecimal price
    let baseQuantity ← parsePositiveDecimal quantity
    let quoteQuantity ← parsePositiveDecimal quoteQuantity
    let isBuyerMaker ← parseBoolean isBuyerMaker encoding
    let isBestMatch ← parseBoolean isBestMatch encoding
    return ⟨tradeId, eventTimeUtc, quotePrice, baseQuantity, quoteQuantity, isBuyerMaker, isBestMatch⟩
  | _ => reject .fieldCount

/-! ### Lines and fields -/

/-- The characters `str.splitlines` breaks at. -/
def isLineBreak (c : Char) : Bool :=
  let n := c.toNat
  (10 ≤ n && n ≤ 13) || (28 ≤ n && n ≤ 30) || n == 0x85 || n == 0x2028 || n == 0x2029

/-- `str.splitlines`, from the line read so far; `\r\n` is one break. -/
def splitLinesFrom (line : List Char) : List Char → List String
  | [] => if line = [] then [] else [String.ofList line.reverse]
  | '\r' :: '\n' :: rest => String.ofList line.reverse :: splitLinesFrom [] rest
  | c :: rest =>
    if isLineBreak c then String.ofList line.reverse :: splitLinesFrom [] rest
    else splitLinesFrom (c :: line) rest

def splitLines (text : String) : List String := splitLinesFrom [] text.toList

/-- `line.split(",")`, from the field read so far. -/
def splitFieldsFrom (field : List Char) : List Char → List String
  | [] => [String.ofList field.reverse]
  | ',' :: rest => String.ofList field.reverse :: splitFieldsFrom [] rest
  | c :: rest => splitFieldsFrom (c :: field) rest

def splitFields (line : String) : List String := splitFieldsFrom [] line.toList

/-- The lines up to the last one that is not blank. -/
def dropBlankTail (lines : List String) : List String :=
  (lines.reverse.dropWhile fun line => strip line = []).reverse

/-- Whether a row opens with a column name rather than an integer or nothing. -/
def looksLikeHeader (row : List String) : Bool :=
  row.head?.any fun first => first ≠ "" && (signedInteger first.toList).isNone

/-- The data rows of one archive member, behind the header gate; the gate's refusal is its own class. -/
def splitRows (text source : String) (hasHeaderRow : Bool) (columns : List String) :
    PyResult (List (List String)) :=
  match dropBlankTail (splitLines text) with
  | [] => .ok []
  | first :: rest => do
    let firstRow := splitFields first
    raiseIf (hasHeaderRow ∧ ¬ looksLikeHeader firstRow) .headerExpectation
      ["archive member ", source, " declares has_header_row=True but its first field ",
        .quoted (firstRow.headD ""), " is numeric, so the file has no header. Reading it as though it ",
        "did would silently discard the first real row of the day -- always 00:00 UTC. Resolve the ",
        "format for this (market, dataset, date) instead"]
    raiseIf (¬ hasHeaderRow ∧ looksLikeHeader firstRow) .headerExpectation
      ["archive member ", source, " declares has_header_row=False but its first field ",
        .quoted (firstRow.headD ""), " is not numeric, so the file has a header. Parsing it as data ",
        "would file a bar at the Unix epoch. Resolve the format for this (market, dataset, date) ",
        "instead"]
    raiseIf (hasHeaderRow ∧ firstRow ≠ columns) .headerExpectation
      ["archive member ", source, " has header ", .texts firstRow, " but the declared layout is ",
        .texts columns, "; a reordered or renamed column parses cleanly and means something else, so ",
        "the layout is compared rather than assumed"]
    return (if hasHeaderRow then rest else first :: rest).map splitFields

/-! ### The parse -/

/-- A dataset's layout and its row parser, and the instant its records are keyed on. -/
structure DatasetParser (Record : Type) where
  columns : List String
  parseRow : List String → IngestionSpec → RowResult Record
  eventTimeUtc : Record → DateTime

/-- `KLINE_PARSER`. -/
def klineParser : DatasetParser KlineRecord := ⟨klineColumns, parseKlineRow, KlineRecord.eventTimeUtc⟩

/-- `TRADE_PARSER`. -/
def tradeParser : DatasetParser TradeRecord := ⟨tradeColumns, parseTradeRow, TradeRecord.eventTimeUtc⟩

namespace DatasetParser

variable {Record : Type} (self : DatasetParser Record)

/-- The rows that become records, in file order. -/
def acceptedRows (rows : List (List String)) (spec : IngestionSpec) : List Record :=
  rows.filterMap fun row => (self.parseRow row spec).toOption

/-- One more row counted under its reason. -/
def countRejection (reason : RejectionReason) (tally : List (String × ℤ)) : List (String × ℤ) :=
  putEntry reason.value ((tally.lookup reason.value).getD 0 + 1) tally

/-- The records accepted and the rejections counted so far, after one more row; what a row raises ends
    the loop. -/
def takeRow (spec : IngestionSpec) (state : List Record × List (String × ℤ)) (row : List String) :
    PyResult (List Record × List (String × ℤ)) :=
  match self.parseRow row spec with
  | .ok record => .ok (state.1 ++ [record], state.2)
  | .error (.rejected reason) => .ok (state.1, countRejection reason state.2)
  | .error (.raised e) => .error e

/-- The parse of a decoded member: every accepted record and the audit record of the parse. -/
def parseText (text : String) (spec : IngestionSpec) (maxRejectionFraction : Decimal)
    (source : String) : PyResult (List Record × NormalizationResult) := do
  let rows ← splitRows text source spec.archiveFormat.hasHeaderRow self.columns
  let (accepted, tally) ← rows.foldlM (self.takeRow spec) ([], [])
  let unit ← spec.archiveFormat.requireEpochUnit
  let outcome : NormalizationResult :=
    { rowsIn := rows.length
      rowsOut := accepted.length
      rowsRejected := rows.length - accepted.length
      rejectionReasons := tally
      epochUnitApplied := unit.value
      firstEventTimeUtc := accepted.head?.map self.eventTimeUtc
      lastEventTimeUtc := accepted.getLast?.map self.eventTimeUtc }
  refuseAboveCeiling outcome maxRejectionFraction source none
  return (accepted, outcome)

end DatasetParser

/-- `payload.decode("utf-8")`. -/
def decodePayload (payload : ByteArray) (source : String) : PyResult String :=
  match String.fromUTF8? payload with
  | some text => .ok text
  | none => raise .dataIntegrity ["archive member ", source, " is not utf-8"]

/-- One archive member's bytes, parsed under the spec's own ceiling. -/
def parseRows {Record : Type} (payload : ByteArray) (spec : IngestionSpec)
    (parser : DatasetParser Record) (source : String) :
    PyResult (List Record × NormalizationResult) := do
  let text ← decodePayload payload source
  parser.parseText text spec spec.maxRejectionFraction source

/-! ### What the loop keeps -/

namespace DatasetParser

variable {Record : Type} {self : DatasetParser Record} {spec : IngestionSpec}

/-- Whether a row stops the loop. -/
def Raises (self : DatasetParser Record) (spec : IngestionSpec) (row : List String) : Prop :=
  ∃ e, self.parseRow row spec = .error (.raised e)

/-- The tally of one more row. -/
def tallyRow (self : DatasetParser Record) (spec : IngestionSpec) (tally : List (String × ℤ))
    (row : List String) : List (String × ℤ) :=
  match self.parseRow row spec with
  | .error (.rejected reason) => countRejection reason tally
  | _ => tally

theorem takeRow_eq_ok {state next : List Record × List (String × ℤ)} {row : List String} :
    self.takeRow spec state row = .ok next ↔ ¬ self.Raises spec row ∧
      next = (state.1 ++ self.acceptedRows [row] spec, self.tallyRow spec state.2 row) := by
  rw [takeRow, Raises, tallyRow, acceptedRows, List.filterMap_cons, List.filterMap_nil]
  cases hrow : self.parseRow row spec with
  | ok record => simp [Except.toOption, eq_comm]
  | error fault =>
    cases fault with
    | rejected reason => simp [Except.toOption, eq_comm]
    | raised e => simp

/-- The loop returns exactly where no row stops it, with the rows accepted and the tally of the rest. -/
theorem foldlM_takeRow {rows : List (List String)} {state next : List Record × List (String × ℤ)} :
    rows.foldlM (self.takeRow spec) state = .ok next ↔ (∀ row ∈ rows, ¬ self.Raises spec row) ∧
      next = (state.1 ++ self.acceptedRows rows spec, rows.foldl (self.tallyRow spec) state.2) := by
  induction rows generalizing state with
  | nil => simp [acceptedRows, pure, Except.pure, eq_comm]
  | cons row rows ih =>
    have hsplit : self.acceptedRows (row :: rows) spec =
        self.acceptedRows [row] spec ++ self.acceptedRows rows spec := by
      rw [acceptedRows, acceptedRows, acceptedRows, ← List.filterMap_append]
      rfl
    simp only [List.foldlM_cons, bind_eq_ok, takeRow_eq_ok, ih, List.forall_mem_cons, List.foldl_cons,
      hsplit]
    constructor
    · rintro ⟨_, ⟨hrow, rfl⟩, hrest, rfl⟩
      exact ⟨⟨hrow, hrest⟩, by rw [List.append_assoc]⟩
    · rintro ⟨⟨hrow, hrest⟩, rfl⟩
      exact ⟨_, ⟨hrow, rfl⟩, hrest, by rw [List.append_assoc]⟩

end DatasetParser

end FinanceKing.Data
