import FinanceKing.Data.Loaders
import FinanceKing.Lib.Merge

/-! Where a REST backfill meets what the corpus already holds: klines are joined on their open time and
    trades on the venue's id, and a disagreement is refused rather than merged. -/

namespace FinanceKing.Data

open Lib

/-! ### The join -/

/-- How the records of one kind are joined: the key, the check it must pass, the fields two views must
    agree on, and what is said of a key filed twice and of a disagreement. -/
structure SeamKind (κ ρ : Type) where
  key : ρ → κ
  checkKey : ρ → PyResult Unit
  comparedFields : List (String × (ρ → Piece))
  filedTwice : String → ρ → Message
  disagreement : ρ → String × Piece × Piece → Message

namespace SeamKind

variable {κ ρ : Type} [DecidableEq κ] (self : SeamKind κ ρ)

/-- The first compared field on which two records under one key differ, with both values. -/
def firstDisagreement (held fetched : ρ) : Option (String × Piece × Piece) :=
  (self.comparedFields.find? fun field => field.2 held ≠ field.2 fetched).map fun field =>
    (field.1, field.2 held, field.2 fetched)

/-- One record filed under its key; a source that filed one key two different ways is refused. -/
def file (sourceName : String) (indexed : Dict κ ρ) (record : ρ) : PyResult (Dict κ ρ) := do
  self.checkKey record
  raiseIf ((indexed.get? (self.key record)).any fun previous =>
    (self.firstDisagreement previous record).isSome) .seamDisagreement
    (self.filedTwice sourceName record)
  return indexed.set (self.key record) record

/-- One record per key of one source. -/
def index (sourceName : String) (records : List ρ) : PyResult (Dict κ ρ) :=
  records.foldlM (self.file sourceName) Dict.empty

/-- How many of the held records the other source carries too, where it agrees about all of them. -/
def compare (fetched : Dict κ ρ) : List (κ × ρ) → PyResult ℤ
  | [] => .ok 0
  | (key, held) :: rest =>
    match fetched.get? key with
    | none => compare fetched rest
    | some other =>
      match self.firstDisagreement held other with
      | some found => raise .seamDisagreement (self.disagreement held found)
      | none => do
        let agreed ← compare fetched rest
        return agreed + 1

/-- What a merge gives back: the union by key, and how many records agreed and were recovered. -/
structure Union (κ ρ : Type) [DecidableEq κ] where
  merged : Dict κ ρ
  agreed : ℤ
  recovered : ℤ

/-- Both sources indexed and compared, the held record kept where both have one. -/
def unite (held fetched : List ρ) : PyResult (Union κ ρ) := do
  let heldByKey ← self.index "corpus" held
  let fetchedByKey ← self.index "REST" fetched
  let agreed ← self.compare fetchedByKey heldByKey.entries
  return ⟨fetchedByKey.merge heldByKey, agreed, fetchedByKey.entries.length - agreed⟩

end SeamKind

/-! ### Klines -/

/-- `SEAM_COMPARED_FIELDS`, by the value of each. -/
def seamComparedFields : List (String × (KlineRecord → Piece)) :=
  [("open_quote_price", fun record => .decimal record.openQuotePrice),
    ("high_quote_price", fun record => .decimal record.highQuotePrice),
    ("low_quote_price", fun record => .decimal record.lowQuotePrice),
    ("close_quote_price", fun record => .decimal record.closeQuotePrice),
    ("base_volume", fun record => .decimal record.baseVolume),
    ("quote_volume", fun record => .decimal record.quoteVolume),
    ("trade_count", fun record => .count record.tradeCount),
    ("taker_buy_base_volume", fun record => .decimal record.takerBuyBaseVolume),
    ("taker_buy_quote_volume", fun record => .decimal record.takerBuyQuoteVolume)]

def klineSeam : SeamKind DateTime KlineRecord where
  key := KlineRecord.openTimeUtc
  checkKey _ := .ok ()
  comparedFields := seamComparedFields
  filedTwice sourceName record :=
    ["the ", sourceName, " view contains two different bars opening at ", .instant record.openTimeUtc,
      "; one minute has one closed bar, and a source that filed it twice cannot be reconciled against ",
      "anything"]
  disagreement held found :=
    ["the corpus and the venue's REST view disagree about the closed bar opening at ",
      .instant held.openTimeUtc, ": ", found.1, " is ", found.2.1, " held and ", found.2.2,
      " fetched. A closed bar is immutable, so one of these is wrong about a final period -- nothing ",
      "from this seam is written, and choosing a winner would leave no record that they differed"]

structure KlineSeam where
  merged : List KlineRecord
  agreed : ℤ
  recovered : ℤ
  deriving DecidableEq

/-- The union of the held and the fetched bars, ordered by open time. -/
def reconcileKlines (held fetched : List KlineRecord) : PyResult KlineSeam := do
  let union ← klineSeam.unite held fetched
  return ⟨sortBy KlineRecord.openTimeUtc union.merged.values, union.agreed, union.recovered⟩

/-! ### Trades -/

/-- `str.isdigit`, of ASCII text. -/
def isDigits (text : String) : Bool := text ≠ "" && text.toList.all Char.isDigit

/-- `int()` of a text of digits. -/
def idNumber (venueTradeId : String) : ℤ := Nat.ofDigitChars 10 venueTradeId.toList 0

/-- The venue's id as the integer it is, once it has been checked to be one. -/
def TradeRecord.aggregateId (self : TradeRecord) : ℤ := idNumber self.venueTradeId

def checkAggregateId (record : TradeRecord) : PyResult Unit :=
  raiseIf (¬isDigits record.venueTradeId) .dataIntegrity
    ["trade id ", .quoted record.venueTradeId, " is not a decimal integer. The seam joins and orders on ",
      "the venue's monotone id; an id that is not one cannot order the tape, and a lexical order would ",
      "file print 9 after print 10"]

/-- `TRADE_SEAM_COMPARED_FIELDS`, by the value of each. -/
def tradeSeamComparedFields : List (String × (TradeRecord → Piece)) :=
  [("quote_price", fun record => .decimal record.quotePrice),
    ("base_quantity", fun record => .decimal record.baseQuantity),
    ("quote_quantity", fun record => .decimal record.quoteQuantity),
    ("is_buyer_maker", fun record => .text (if record.isBuyerMaker then "True" else "False"))]

def tradeSeam : SeamKind String TradeRecord where
  key := TradeRecord.venueTradeId
  checkKey := checkAggregateId
  comparedFields := tradeSeamComparedFields
  filedTwice sourceName record :=
    ["the ", sourceName, " view contains two different trades under id ", record.venueTradeId,
      "; the venue assigns one id to one execution, and a source that filed it twice cannot be ",
      "reconciled against anything"]
  disagreement held found :=
    ["the corpus and the venue disagree about trade ", held.venueTradeId, ": ", found.1, " is ",
      found.2.1, " held and ", found.2.2, " fetched. The id is the venue's own and identifies one ",
      "execution, so nothing from this seam is written -- choosing a winner would leave no record that ",
      "two sources described one trade differently"]

structure TradeSeam where
  merged : List TradeRecord
  agreed : ℤ
  recovered : ℤ
  deriving DecidableEq

/-- The union of the held and the fetched prints, ordered by event time and id. -/
def reconcileTrades (held fetched : List TradeRecord) : PyResult TradeSeam := do
  let union ← tradeSeam.unite held fetched
  return ⟨sortBy (fun record => toLex (record.eventTimeUtc, record.aggregateId)) union.merged.values,
    union.agreed, union.recovered⟩

/-! ### What a union holds -/

namespace SeamKind

variable {κ ρ : Type} [DecidableEq κ] {self : SeamKind κ ρ}

omit [DecidableEq κ] in
/-- A record two views agree about has the same values in every compared field. -/
theorem firstDisagreement_eq_none_iff {held fetched : ρ} :
    self.firstDisagreement held fetched = none ↔
      ∀ field ∈ self.comparedFields, field.2 held = field.2 fetched := by
  simp [firstDisagreement]

theorem file_eq_ok {sourceName : String} {indexed after : Dict κ ρ} {record : ρ}
    (h : self.file sourceName indexed record = .ok after) :
    self.checkKey record = .ok () ∧ after = indexed.set (self.key record) record := by
  simp only [file, bind_eq_ok, pure_eq_ok] at h
  obtain ⟨_, hcheck, _, _, rfl⟩ := h
  exact ⟨hcheck, rfl⟩

/-- An index that is not refused holds the last record of each key. -/
theorem foldlM_file {sourceName : String} {after : Dict κ ρ} : ∀ {records : List ρ}
    {indexed : Dict κ ρ}, records.foldlM (self.file sourceName) indexed = .ok after →
    (∀ record ∈ records, self.checkKey record = .ok ()) ∧
      after = records.foldl (fun d record => d.set (self.key record) record) indexed
  | [], indexed, h => by
    obtain rfl : indexed = after := by simpa [List.foldlM_nil] using h
    exact ⟨by simp, rfl⟩
  | record :: records, indexed, h => by
    rw [List.foldlM_cons, bind_eq_ok] at h
    obtain ⟨next, hfile, hrest⟩ := h
    obtain ⟨hcheck, rfl⟩ := file_eq_ok hfile
    obtain ⟨hchecks, rfl⟩ := foldlM_file hrest
    exact ⟨List.forall_mem_cons.mpr ⟨hcheck, hchecks⟩, rfl⟩

theorem index_eq_ok {sourceName : String} {records : List ρ} {indexed : Dict κ ρ}
    (h : self.index sourceName records = .ok indexed) :
    (∀ record ∈ records, self.checkKey record = .ok ()) ∧
      indexed = Dict.indexBy self.key id records := foldlM_file h

/-- Every record of a union is a record of one of its sources, under its own key. -/
theorem mem_of_unite {held fetched : List ρ} {union : Union κ ρ}
    (h : self.unite held fetched = .ok union) {key : κ} {record : ρ}
    (hrecord : union.merged.get? key = some record) :
    self.key record = key ∧ (record ∈ held ∨ record ∈ fetched) := by
  simp only [unite, bind_eq_ok, pure_eq_ok] at h
  obtain ⟨heldByKey, hheld, fetchedByKey, hfetched, _, _, rfl⟩ := h
  obtain ⟨_, rfl⟩ := index_eq_ok hheld
  obtain ⟨_, rfl⟩ := index_eq_ok hfetched
  rw [Dict.get?_merge, Option.or_eq_some_iff] at hrecord
  rcases hrecord with hrecord | ⟨_, hrecord⟩
  · obtain ⟨_, hmem, hkey, rfl⟩ := Dict.exists_of_get?_indexBy hrecord
    exact ⟨hkey, .inl hmem⟩
  · obtain ⟨_, hmem, hkey, rfl⟩ := Dict.exists_of_get?_indexBy hrecord
    exact ⟨hkey, .inr hmem⟩

/-- A union holds every key of both its sources. -/
theorem isSome_of_unite {held fetched : List ρ} {union : Union κ ρ}
    (h : self.unite held fetched = .ok union) {record : ρ} (hrecord : record ∈ held ∨ record ∈ fetched) :
    ∃ kept, union.merged.get? (self.key record) = some kept := by
  simp only [unite, bind_eq_ok, pure_eq_ok] at h
  obtain ⟨heldByKey, hheld, fetchedByKey, hfetched, _, _, rfl⟩ := h
  obtain ⟨_, rfl⟩ := index_eq_ok hheld
  obtain ⟨_, rfl⟩ := index_eq_ok hfetched
  rw [← Option.isSome_iff_exists, Dict.get?_merge, Option.isSome_or, Bool.or_eq_true]
  exact hrecord.imp Dict.isSome_get?_indexBy Dict.isSome_get?_indexBy

end SeamKind

/-- Every print of a reconciled seam came from one of the two views. -/
theorem mem_of_reconcileTrades {held fetched : List TradeRecord} {seam : TradeSeam}
    (h : reconcileTrades held fetched = .ok seam) {record : TradeRecord} (hrecord : record ∈ seam.merged) :
    record ∈ held ∨ record ∈ fetched := by
  simp only [reconcileTrades, bind_eq_ok, pure_eq_ok] at h
  obtain ⟨union, hunion, rfl⟩ := h
  obtain ⟨key, hkey⟩ := (union.merged.mem_values_iff record).mp ((mem_sortBy _).mp hrecord)
  exact (SeamKind.mem_of_unite hunion hkey).2

/-- A reconciled seam has a print under every id of the two views. -/
theorem exists_of_reconcileTrades {held fetched : List TradeRecord} {seam : TradeSeam}
    (h : reconcileTrades held fetched = .ok seam) {record : TradeRecord}
    (hrecord : record ∈ held ∨ record ∈ fetched) :
    ∃ kept ∈ seam.merged, kept.venueTradeId = record.venueTradeId := by
  simp only [reconcileTrades, bind_eq_ok, pure_eq_ok] at h
  obtain ⟨union, hunion, rfl⟩ := h
  obtain ⟨kept, hkept⟩ := SeamKind.isSome_of_unite hunion hrecord
  exact ⟨kept, (mem_sortBy _).mpr (Dict.mem_values_of_get? hkept),
    (SeamKind.mem_of_unite hunion hkept).1⟩

end FinanceKing.Data
