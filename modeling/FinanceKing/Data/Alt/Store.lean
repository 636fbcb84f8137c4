import FinanceKing.Data.Features.Registry
import FinanceKing.Data.RestatedTables

/-! What an alternative source declares before a value of it is stored, and the sources that are registered. A
    point carries the instant it could first have been known, which only its source's declaration derives. -/

namespace FinanceKing.Data.Alt

open Lib

/-- How, and whether, a source can be reached. -/
inductive Delivery where
  | archive
  | egressNotProvisioned
  deriving DecidableEq

/-- Whether a published value is ever restated. -/
inductive Revision where
  | final
  | revised
  deriving DecidableEq

/-- One series of one source. -/
structure AltSeriesRef where
  sourceId : String
  seriesId : String
  deriving DecidableEq

def AltSeriesRef.describe (self : AltSeriesRef) : String := self.sourceId ++ ":" ++ self.seriesId

/-- One value as its publisher stamped it, with the publisher's own release instant where there is one. -/
structure AltObservation where
  eventTimeUtc : DateTime
  observedValue : Decimal
  publishedAtUtc : Option DateTime
  deriving DecidableEq

/-- One observation with the instant this system could first have known it. -/
structure AltPoint where
  series : AltSeriesRef
  eventTimeUtc : DateTime
  availableAtUtc : DateTime
  observedValue : Decimal
  deriving DecidableEq

/-! ### Declarations -/

structure AltSourceSpecFields where
  sourceId : String
  delivery : Delivery
  availabilityLag : TimeDelta
  cadence : TimeDelta
  unit : String
  requiresCredential : Bool
  revision : Revision
  termsPosition : String
  provenance : String
  deriving DecidableEq

/-- `_require_text`. -/
def requireText (candidate fieldName : String) : PyResult Unit :=
  raiseIf (strip candidate = []) .featureContract [fieldName, " must not be blank"]

def minimumStatementCharacters : ℕ := 20

/-- The text says something. -/
def IsStatement (text : String) : Prop := strip text ≠ [] ∧ minimumStatementCharacters ≤ text.length

instance (text : String) : Decidable (IsStatement text) := inferInstanceAs (Decidable (_ ∧ _))

theorem IsStatement.append {opening : String} (h : IsStatement opening) (rest : String) :
    IsStatement (opening ++ rest) := by
  refine ⟨strip_append_ne_nil h.1 _, ?_⟩
  rw [String.length_append]
  exact h.2.trans (Nat.le_add_right _ _)

namespace AltSourceSpecFields

variable (self : AltSourceSpecFields)

/-- A statement about a source says something that can be checked. -/
def requireStatement (fieldName statement : String) : PyResult Unit := do
  requireText statement fieldName
  raiseIf (statement.length < minimumStatementCharacters) .featureContract
    [fieldName, " for ", self.sourceId, " is ", .count statement.length, " characters and states nothing ",
      "checkable; SOURCES.md requires the position on automated use and the origin of the declared numbers, ",
      "before ingestion rather than after"]

def postInit : PyResult Unit := do
  requireText self.sourceId "source_id"
  requireText self.unit "unit"
  raiseIf (self.availabilityLag ≤ 0) .featureContract
    [self.sourceId, " declares availability_lag=", .span self.availabilityLag, "; every alternative source ",
      "is published after the instant it stamps, so a non-positive lag is a claim that the value was ",
      "knowable before it existed (docs/rules/no-lookahead.md)"]
  raiseIf (self.cadence ≤ 0) .featureContract
    [self.sourceId, " declares cadence=", .span self.cadence, "; a source that never publishes has no series"]
  self.requireStatement "terms_position" self.termsPosition
  self.requireStatement "provenance" self.provenance

variable {self}

theorem requireStatement_eq_ok {fieldName statement : String} {u : Unit} (h : IsStatement statement) :
    self.requireStatement fieldName statement = .ok u := by
  simp only [requireStatement, requireText, bind_eq_ok, raiseIf_eq_ok]
  exact ⟨(), h.1, not_lt.mpr h.2⟩

theorem postInit_eq_ok (hsource : strip self.sourceId ≠ []) (hunit : strip self.unit ≠ [])
    (hlag : 0 < self.availabilityLag) (hcadence : 0 < self.cadence) (hterms : IsStatement self.termsPosition)
    (hprovenance : IsStatement self.provenance) : self.postInit = .ok () := by
  simp only [postInit, requireText, bind_eq_ok, raiseIf_eq_ok]
  exact ⟨(), hsource, (), hunit, (), not_le.mpr hlag, (), not_le.mpr hcadence, (),
    requireStatement_eq_ok hterms, requireStatement_eq_ok hprovenance⟩

end AltSourceSpecFields

/-- A registrable alternative source. -/
structure AltSourceSpec extends AltSourceSpecFields where
  checked : toAltSourceSpecFields.postInit = .ok ()
  deriving DecidableEq

namespace AltSourceSpec

variable (self : AltSourceSpec)

/-- The observation with the instant it could first have been known. -/
def point (series : AltSeriesRef) (observation : AltObservation) : PyResult AltPoint := do
  raiseIf (series.sourceId ≠ self.sourceId) .dataIntegrity
    ["series ", series.describe, " does not belong to source ", .quoted self.sourceId, "; a point built from ",
      "another source's declaration would carry that source's lag"]
  let earliestKnowableUtc := observation.eventTimeUtc + self.availabilityLag
  match observation.publishedAtUtc with
  | none => return ⟨series, observation.eventTimeUtc, earliestKnowableUtc, observation.observedValue⟩
  | some publishedAtUtc =>
    raiseIf (publishedAtUtc < earliestKnowableUtc) .dataIntegrity
      [series.describe, " declares a release at ", .instant publishedAtUtc, " for an event at ",
        .instant observation.eventTimeUtc, ", which is inside the source's own declared minimum publication ",
        "delay of ", .span self.availabilityLag, ". One of the two is wrong, and taking the earlier one ",
        "would move the whole series forward in time"]
    return ⟨series, observation.eventTimeUtc, publishedAtUtc, observation.observedValue⟩

theorem availabilityLag_pos : 0 < self.availabilityLag := by
  have h := self.checked
  simp only [AltSourceSpecFields.postInit, bind_eq_ok, raiseIf_eq_ok] at h
  obtain ⟨_, _, _, _, _, hlag, _⟩ := h
  exact not_le.mp hlag

/-- A point is built for the observation's time, and is never known before its lag has passed. -/
theorem point_cases {self : AltSourceSpec} {series : AltSeriesRef} {observation : AltObservation}
    {point : AltPoint} (h : self.point series observation = .ok point) :
    point.series = series ∧ point.eventTimeUtc = observation.eventTimeUtc ∧
      point.observedValue = observation.observedValue ∧
      point.eventTimeUtc + self.availabilityLag ≤ point.availableAtUtc := by
  simp only [AltSourceSpec.point, bind_eq_ok] at h
  obtain ⟨_, _, h⟩ := h
  split at h
  · rw [pure_eq_ok] at h
    subst h
    exact ⟨rfl, rfl, rfl, le_rfl⟩
  · simp only [bind_eq_ok, raiseIf_eq_ok, pure_eq_ok] at h
    obtain ⟨_, hfloor, rfl⟩ := h
    exact ⟨rfl, rfl, rfl, not_lt.mp hfloor⟩

end AltSourceSpec

/-! ### The registered sources -/

def fundingPublicationLag : TimeDelta := TimeDelta.ofMinutes 1

def openInterestSamplingPeriod : TimeDelta := TimeDelta.ofMinutes 5

def fearAndGreedLag : TimeDelta := TimeDelta.ofMinutes (24 * 60)

def fredMinimumReleaseLag : TimeDelta := TimeDelta.ofMinutes (24 * 60)

def cryptopanicPollLag : TimeDelta := TimeDelta.ofMinutes 5

/-- The terms of the public archive. -/
def archiveTerms : String :=
  "data.binance.vision is a " ++ (
  "public bulk archive served without authentication and automated download is the intended use; checked " ++
  "2026-08-05")

def fundingRateFields : AltSourceSpecFields where
  sourceId := "binance.fundingRate"
  delivery := .archive
  availabilityLag := fundingPublicationLag
  cadence := TimeDelta.ofMinutes (8 * 60)
  unit := "dimensionless funding rate fraction applied at one settlement"
  requiresCredential := false
  revision := .final
  termsPosition := archiveTerms
  provenance :=
    "cadence and layout read " ++ (
    "from BTCUSDT-fundingRate-2020-01 on 2026-08-05; the lag is the markPrice stream delivery envelope, not " ++
    "the archive publication delay")

def openInterestFields : AltSourceSpecFields where
  sourceId := "binance.openInterest"
  delivery := .archive
  availabilityLag := openInterestSamplingPeriod
  cadence := openInterestSamplingPeriod
  unit := "open interest in base quantity, summed across the perpetual"
  requiresCredential := false
  revision := .final
  termsPosition := archiveTerms
  provenance :=
    "cadence read from BTCUSDT" ++ (
    "-metrics-2024-01-02 on 2026-08-05: rows five minutes apart, stamped create_time as a naive datetime " ++
    "string rather than an epoch")

def fearAndGreedFields : AltSourceSpecFields where
  sourceId := "alternative.me.fearGreed"
  delivery := .egressNotProvisioned
  availabilityLag := fearAndGreedLag
  cadence := TimeDelta.ofMinutes (24 * 60)
  unit := "index in [0, 100], 0 extreme fear and 100 extreme greed"
  requiresCredential := false
  revision := .final
  termsPosition :=
    "public API with no stated " ++ (
    "restriction on automated use; measured HTTP 200 in 0.6 s without credentials on 2026-08-03 and again " ++
    "on 2026-08-05")
  provenance :=
    "lag derived from the response" ++ (
    "'s own time_until_update field, measured 2026-08-05T06:05Z: 64,448 s remaining on the value stamped " ++
    "that day at 00:00Z")

def cryptopanicPostsFields : AltSourceSpecFields where
  sourceId := "cryptopanic.posts"
  delivery := .egressNotProvisioned
  availabilityLag := cryptopanicPollLag
  cadence := TimeDelta.ofMinutes 1
  unit := "count of posts matching a filter within one polling window"
  requiresCredential := true
  revision := .final
  termsPosition :=
    "API key required and the " ++ (
    "free-tier terms have not been read; measured HTTP 404 on developer/v2 without a key and HTTP 403 from " ++
    "Cloudflare on v1 with a placeholder token, 2026-08-03. Unusable until the terms are read")
  provenance :=
    "an aggregator: its timestamp " ++ (
    "is the republication instant, not the first print, so this lag is a polling envelope and not an " ++
    "information lag. Clustering republications to one event with a first-print timestamp is required " ++
    "before this can be a feature at all")

def fredReleasesFields : AltSourceSpecFields where
  sourceId := "stlouisfed.fredReleases"
  delivery := .egressNotProvisioned
  availabilityLag := fredMinimumReleaseLag
  cadence := TimeDelta.ofMinutes (24 * 60)
  unit := "series-dependent; the release calendar is what this source contributes"
  requiresCredential := true
  revision := .revised
  termsPosition :=
    "free API key by registration" ++ (
    ", attribution required, automated use permitted; measured HTTP 400 without a key on 2026-08-03. The " ++
    "per-key rate limit has not been obtained (OQ-001)")
  provenance :=
    "fred/release/dates returns " ++ (
    "the release calendar as a first-class resource, so available_at is published rather than inferred; the " ++
    "declared lag is only the floor that refuses a release instant predating its own observation period")

/-- The declarations, in the order they are registered in. -/
def altSourceFields : List AltSourceSpecFields :=
  [fundingRateFields, openInterestFields, fearAndGreedFields, cryptopanicPostsFields, fredReleasesFields]

/-- Every declaration passes its own constructor. -/
theorem altSourceFields_checked : ∀ fields ∈ altSourceFields, fields.postInit = .ok () := by
  intro fields hfields
  simp only [altSourceFields, List.mem_cons, List.not_mem_nil, or_false] at hfields
  rcases hfields with rfl | rfl | rfl | rfl | rfl <;>
    exact AltSourceSpecFields.postInit_eq_ok (by decide +kernel) (by decide +kernel) (by decide) (by decide)
      (.append (by decide +kernel) _) (.append (by decide +kernel) _)

/-- `ALT_SOURCES`. -/
def altSources : List AltSourceSpec :=
  altSourceFields.pmap AltSourceSpec.mk altSourceFields_checked

/-- The declaration for one source. -/
def registered (sourceId : String) : PyResult AltSourceSpec :=
  match altSources.find? fun source => source.sourceId = sourceId with
  | some source => .ok source
  | none => raise .dataUnavailable
      ["no alternative source is registered as ", .quoted sourceId, "; registered sources are ",
        .texts (sortBy id (altSources.map fun source => source.sourceId)), ". A source is registered with ",
        "its measured availability lag, cadence and terms position, never before them (SOURCES.md)"]

theorem sourceId_of_registered {sourceId : String} {source : AltSourceSpec}
    (h : registered sourceId = .ok source) : source.sourceId = sourceId := by
  rw [registered] at h
  split at h
  · next hfound =>
    injection h with h
    simpa [h] using List.find?_some hfound
  · cases h

end FinanceKing.Data.Alt

/-! The table of alternative observations: the one write path that feeds it, and the reads as of an instant. -/

namespace FinanceKing.Data.Alt

open Lib

/-- The sources the table was made for. -/
def knownSourceIds : List String :=
  ["alternative.me.fearGreed", "binance.fundingRate", "binance.openInterest", "cryptopanic.posts",
    "stlouisfed.fredReleases"]

/-- The constraints of `alt_observations`. -/
def altConstraints (row : StoredRow AltSeriesRef) : PyResult Unit := do
  requireConstraint (row.series.sourceId ∈ knownSourceIds) "ck_alt_observations_source_id_is_known"
  requireConstraint (row.eventTime < row.availableAt) "ck_alt_observations_availability_follows_event"

def AltPoint.row (self : AltPoint) : StoredRow AltSeriesRef :=
  ⟨self.series, self.eventTimeUtc, self.availableAtUtc, self.observedValue⟩

/-- A point of a source that nobody registered is not written. -/
def requireRegistered (row : StoredRow AltSeriesRef) : PyResult Unit := do
  let _source ← registered row.series.sourceId
  return ()

/-- `AltObservationWriter.append`. -/
def AltObservationWriter.append (table : StoredTable AltSeriesRef) (points : List AltPoint) :
    StoredTable AltSeriesRef × PyResult ℕ :=
  if points = [] then (table, .ok 0)
  else appendRows requireRegistered altConstraints table (points.map AltPoint.row)

/-! ### The read -/

/-- One value as it was believed at the instant that it was read for. -/
structure AltValue where
  eventTimeUtc : DateTime
  observedValue : Decimal
  deriving DecidableEq

/-- The answer to one read, carrying the question it answered. -/
structure AltSeries where
  series : AltSeriesRef
  asOf : DateTime
  lookback : TimeDelta
  values : List AltValue
  deriving DecidableEq

/-- `fking_alt_as_of`. -/
def fkingAltAsOf (table : StoredTable AltSeriesRef) (series : AltSeriesRef) (asOf : DateTime)
    (lookback : TimeDelta) : List AltValue :=
  (table.latest series asOf (asOf - lookback)).map fun row => ⟨row.eventTime, row.value⟩

/-- `PostgresAltStore.load`. -/
def PostgresAltStore.load (table : StoredTable AltSeriesRef) (series : AltSeriesRef) (asOf : DateTime)
    (lookback : TimeDelta) : PyResult AltSeries := do
  raiseIf (lookback ≤ 0) .featureContract
    ["lookback must be positive; got ", .span lookback, ". A zero window returns nothing and reads as ",
      "'this source has no history'"]
  let _source ← registered series.sourceId
  return ⟨series, asOf, lookback, sortBy AltValue.eventTimeUtc (fkingAltAsOf table series asOf lookback)⟩

end FinanceKing.Data.Alt
