import FinanceKing.Data.Loaders

/-! The quality gates in front of a write. A blocking gate raises and nothing is written; the cadence and
    the continuity gates report what they find and refuse nothing. -/

namespace FinanceKing.Data

inductive Gate where
  | checksum
  | headerExpectation
  | firstTimestampPlausible
  | monotoneTimestamps
  | booleanTokens
  | ohlcCoherence
  | nonNegativeVolume
  | barCadence
  | priceContinuity
  | crossSourceAgreement
  | noSynthesisedRows
  | rejectionCeiling
  deriving DecidableEq

def Gate.value : Gate → String
  | .checksum => "checksum"
  | .headerExpectation => "header_expectation"
  | .firstTimestampPlausible => "first_timestamp_plausible"
  | .monotoneTimestamps => "monotone_timestamps"
  | .booleanTokens => "boolean_tokens"
  | .ohlcCoherence => "ohlc_coherence"
  | .nonNegativeVolume => "non_negative_volume"
  | .barCadence => "bar_cadence"
  | .priceContinuity => "price_continuity"
  | .crossSourceAgreement => "cross_source_agreement"
  | .noSynthesisedRows => "no_synthesised_rows"
  | .rejectionCeiling => "rejection_ceiling"

/-- The text of a `QualityGateError`. -/
def Gate.refusal (gate : Gate) (message : Message) : Message :=
  (["gate ", gate.value, " refused: "] : Message) ++ message

/-! ### Blocking gates -/

/-- Gate 1: the bytes about to be parsed are the bytes that were verified. -/
def assertChecksumMatches (observed expectedSha256Hex source : String) : PyResult Unit :=
  raiseIf (observed ≠ expectedSha256Hex) .qualityGate (Gate.checksum.refusal
    [source, " hashes to ", observed, " but was verified as ", expectedSha256Hex, ". The bytes changed ",
      "after verification, so they are not the archive whose provenance this run would record"])

/-- `int(raw)`, for a text of ASCII digits: padding is stripped and one underscore may part two digits. -/
def pythonInt (raw : String) : Option ℤ :=
  let text := strip raw
  let (_, digits) := takeSign text
  let parted := digits.head? ≠ some '_' ∧ digits.getLast? ≠ some '_' ∧
    (digits.zip digits.tail).all fun pair => pair.1 ≠ '_' ∨ pair.2 ≠ '_'
  if parted then signedInteger (text.filter (· ≠ '_')) else none

/-- The padding `int` ignores: what `str.strip` drops, less the ASCII separators. -/
def isIntSpace (c : Char) : Bool := isSpace c && !(28 ≤ c.toNat && c.toNat ≤ 31)

/-- `int(raw)`, or none where it raises: padding is dropped, a digit of any script is read, one underscore
    may part two digits, and a run of digits too long is refused. -/
def builtinInt (raw : String) : Option ℤ :=
  let text := (((raw.toList.dropWhile isIntSpace).reverse.dropWhile isIntSpace).reverse).map asciiDigit
  let (_, digits) := takeSign text
  let parted := digits.head? ≠ some '_' ∧ digits.getLast? ≠ some '_' ∧
    (digits.zip digits.tail).all fun pair => pair.1 ≠ '_' ∨ pair.2 ≠ '_'
  if parted ∧ (digits.filter (· ≠ '_')).length ≤ maxIntDigits then
    signedInteger (text.filter (· ≠ '_'))
  else none

example : [" +1_000 ", "1__0", "١٢", "+ 5", ""].map builtinInt = [some 1000, none, some 12, none, none] := by
  decide +kernel

/-- Gate 3: the first timestamp of the file is plausible under the declared unit. -/
def assertFirstTimestampIsPlausible (rawEpoch : String) (unit : EpochUnit) (nowUtc : DateTime)
    (source : String) : PyResult Unit :=
  match builtinInt rawEpoch with
  | none => raise .qualityGate (Gate.firstTimestampPlausible.refusal
      [source, " opens with ", .quoted rawEpoch, ", which is not a base-10 integer, so no epoch unit ",
        "can be applied to it"])
  | some ticks =>
    match epochToUtc ticks unit nowUtc with
    | .ok _ => .ok ()
    | .error e =>
      if e.kind.isDataIntegrity then
        raise .qualityGate (Gate.firstTimestampPlausible.refusal
          (([source, " opens with an implausible timestamp: "] : Message) ++ e.message ++
            ([". Nothing is loaded, because a partial load of a file whose unit is wrong is worse than ",
              "none -- it parses cleanly and changes every statistic computed from it"] : Message)))
      else .error e

section Ordering

variable {Record : Type} (eventTimeUtc : Record → DateTime)

/-- The records behind the one at `index - 1`, none of them earlier than the record before it. -/
def monotoneFrom (source : String) (index : ℤ) (previous : DateTime) : List Record → PyResult Unit
  | [] => .ok ()
  | record :: records => do
    raiseIf (eventTimeUtc record < previous) .qualityGate (Gate.monotoneTimestamps.refusal
      [source, " row ", .count index, " is dated ", .instant (eventTimeUtc record), ", before row ",
        .count (index - 1), " at ", .instant previous, ". Out-of-order rows mean the wrong epoch unit ",
        "was applied to part of this file or two files were merged upstream, so the whole file is ",
        "refused -- dropping the rows would hide the cause and leave a plausible file behind"])
    monotoneFrom source (index + 1) (eventTimeUtc record) records

/-- Gate 4: non-decreasing, because several trades legitimately print inside one microsecond. -/
def assertBarTimestampsAreMonotone (source : String) : List Record → PyResult Unit
  | [] => .ok ()
  | record :: records => monotoneFrom eventTimeUtc source 1 (eventTimeUtc record) records

end Ordering

/-- The shared ceiling rule applied to one gate's reason, its refusal relabelled. -/
def refuseNamed (outcome : NormalizationResult) (gate : Gate) (reason : RejectionReason)
    (consequence : String) (ceiling : Decimal) (source : String) : PyResult Unit :=
  match refuseAboveCeiling outcome ceiling source (some [reason]) with
  | .ok () => .ok ()
  | .error above => raise .qualityGate
      (gate.refusal (above.message ++ ([". Why it matters: ", consequence] : Message)))

/-- Gate 5. -/
def assertBooleanRejectionsWithinCeiling (outcome : NormalizationResult) (ceiling : Decimal)
    (source : String) : PyResult Unit :=
  refuseNamed outcome .booleanTokens .booleanUnrecognised
    ("a boolean encoding that drifted upstream inverts the aggressor side on every row while counts, " ++
      "prices and volumes all stay correct") ceiling source

def ohlcRejectionCeiling : Decimal := 1 / 10000

/-- Gate 6. -/
def assertOhlcRejectionsWithinCeiling (outcome : NormalizationResult) (source : String) :
    PyResult Unit :=
  refuseNamed outcome .ohlcCoherence .ohlcNotBracketing
    ("a bar whose high does not bracket its own open and close describes a price path that did not " ++
      "happen, and a range computed from it is wrong in the direction that makes a strategy look better")
    ohlcRejectionCeiling source

/-- Gate 7: zero tolerated. -/
def assertNoNegativeVolume (outcome : NormalizationResult) (source : String) : PyResult Unit :=
  raiseIf (outcome.rejectedFor .volumeNegative ≠ 0) .qualityGate (Gate.nonNegativeVolume.refusal
    [source, " holds ", .count (outcome.rejectedFor .volumeNegative), " row(s) with a negative volume ",
      "out of ", .count outcome.rowsIn, " read. No upstream change makes that the correct reading of a ",
      "file"])

/-- Every reason a numbered gate owns. -/
def ownedReasons : List RejectionReason := [.booleanUnrecognised, .ohlcNotBracketing, .volumeNegative]

/-- The declared ceiling, applied to the reasons no numbered gate owns. -/
def assertResidualRejectionsWithinCeiling (outcome : NormalizationResult) (ceiling : Decimal)
    (source : String) : PyResult Unit :=
  refuseAboveCeiling outcome ceiling source
    (some (RejectionReason.all.filter fun reason => ¬ reason ∈ ownedReasons))

/-! ### Reporting gates -/

/-- `CADENCE_INTERVALS`: declared, never inferred; a calendar month has no fixed duration. -/
def cadenceIntervals : List (String × TimeDelta) :=
  [("1s", .ofSeconds 1), ("1m", .ofMinutes 1), ("3m", .ofMinutes 3), ("5m", .ofMinutes 5),
    ("15m", .ofMinutes 15), ("30m", .ofMinutes 30), ("1h", .ofMinutes 60), ("2h", .ofMinutes 120),
    ("4h", .ofMinutes 240), ("6h", .ofMinutes 360), ("8h", .ofMinutes 480), ("12h", .ofMinutes 720),
    ("1d", .ofMinutes 1440), ("3d", .ofMinutes 4320), ("1w", .ofMinutes 10080)]

/-- Bars the interval implies and the file does not hold, between two bars it does hold. -/
structure CadenceGap where
  afterOpenTimeUtc : DateTime
  beforeOpenTimeUtc : DateTime
  missingBarCount : ℤ
  deriving DecidableEq

/-- The whole intervals spanned, less the bar that did arrive; a ragged remainder counts as one more. -/
def missingBars (elapsed duration : TimeDelta) : ℤ :=
  elapsed / duration - 1 + if elapsed % duration ≠ 0 then 1 else 0

/-- The gaps behind a bar, one for each step longer than the interval. -/
def cadenceGapsFrom (duration : TimeDelta) (previous : DateTime) : List KlineRecord → List CadenceGap
  | [] => []
  | record :: records =>
    let current := record.eventTimeUtc
    let rest := cadenceGapsFrom duration current records
    if current - previous ≤ duration then rest
    else ⟨previous, current, missingBars (current - previous) duration⟩ :: rest

def cadenceGaps (duration : TimeDelta) : List KlineRecord → List CadenceGap
  | [] => []
  | record :: records => cadenceGapsFrom duration record.eventTimeUtc records

/-- Gate 8: reported, never filled. -/
def detectCadenceGaps (records : List KlineRecord) (interval source : String) :
    PyResult (List CadenceGap) :=
  match cadenceIntervals.lookup interval with
  | none => raise .qualityGate (Gate.barCadence.refusal
      [source, " declares interval ", .quoted interval, ", whose bar duration is not declared in ",
        "CADENCE_INTERVALS. Inferring one from the string is how a calendar month becomes 30 days and ",
        "every cadence report after it is quietly wrong"])
  | some duration => .ok (cadenceGaps duration records)

/-- A bar whose close moved by half or more, on the log scale, from its predecessor's. -/
structure PriceContinuityFlag where
  openTimeUtc : DateTime
  previousCloseQuotePrice : Decimal
  closeQuotePrice : Decimal
  deriving DecidableEq

/-- `exp(-0.5)` to thirty figures. -/
def continuityLowerRatio : Decimal := 606530659712633423603799534991 / 10 ^ 30

/-- `exp(0.5)` to thirty figures. -/
def continuityUpperRatio : Decimal := 164872127070012814684865078781 / 10 ^ 29

/-- The flags behind a bar that closed at `previous`. -/
def flagsFrom (previous : Decimal) : List KlineRecord → List PriceContinuityFlag
  | [] => []
  | record :: records =>
    let current := record.closeQuotePrice
    let rest := flagsFrom current records
    if previous ≤ 0 then rest
    else if continuityLowerRatio < current / previous ∧ current / previous < continuityUpperRatio then
      rest
    else ⟨record.openTimeUtc, previous, current⟩ :: rest

/-- Gate 9: a flag, never a rejection. -/
def flagPriceDiscontinuities : List KlineRecord → List PriceContinuityFlag
  | [] => []
  | record :: records => flagsFrom record.closeQuotePrice records

/-! ### What the gates establish -/

section Ordering

variable {Record : Type} {eventTimeUtc : Record → DateTime}

theorem monotoneFrom_eq_ok {source : String} {u : Unit} : ∀ (records : List Record) (index : ℤ)
    (previous : DateTime), monotoneFrom eventTimeUtc source index previous records = .ok u ↔
      (previous :: records.map eventTimeUtc).IsChain (· ≤ ·)
  | [], _, _ => by simp [monotoneFrom]
  | record :: records, index, previous => by
    have hrest : monotoneFrom eventTimeUtc source (index + 1) (eventTimeUtc record) records = .ok u ↔ _ :=
      monotoneFrom_eq_ok records (index + 1) (eventTimeUtc record)
    rw [monotoneFrom, List.map_cons, List.isChain_cons_cons]
    simp [bind_eq_ok, hrest]

/-- A file passes the ordering gate exactly when its instants never decrease. -/
theorem assertBarTimestampsAreMonotone_eq_ok {source : String} {u : Unit} {records : List Record} :
    assertBarTimestampsAreMonotone eventTimeUtc source records = .ok u ↔
      (records.map eventTimeUtc).Pairwise (· ≤ ·) := by
  rw [← List.isChain_iff_pairwise]
  cases records with
  | nil => simp [assertBarTimestampsAreMonotone]
  | cons record records =>
    rw [assertBarTimestampsAreMonotone, monotoneFrom_eq_ok]
    rfl

end Ordering

end FinanceKing.Data
