import FinanceKing.Backtest.Events

/-! The closed rejection taxonomy and the venue envelope each member mirrors. The taxonomy member is
    written between brackets in the reject text, which is how it survives the trip through a
    `RejectEvent`'s free text. -/

namespace FinanceKing.Backtest

/-- Why the simulated venue refused an order. -/
inductive RejectReason where
  | priceFilter
  | percentPriceBySide
  | lotSize
  | minNotional
  | unfillableDepth
  | orderRateBudget
  deriving DecidableEq

namespace RejectReason

def value : RejectReason → String
  | priceFilter => "price_filter"
  | percentPriceBySide => "percent_price_by_side"
  | lotSize => "lot_size"
  | minNotional => "min_notional"
  | unfillableDepth => "unfillable_depth"
  | orderRateBudget => "order_rate_budget"

/-- The members, in the order they are declared. -/
def all : List RejectReason :=
  [priceFilter, percentPriceBySide, lotSize, minNotional, unfillableDepth, orderRateBudget]

/-- The code and the message the venue answers a refusal with. -/
def envelope : RejectReason → ℤ × String
  | priceFilter => (-1013, "Filter failure: PRICE_FILTER")
  | percentPriceBySide => (-1013, "Filter failure: PERCENT_PRICE_BY_SIDE")
  | lotSize => (-1013, "Filter failure: LOT_SIZE")
  | minNotional => (-1013, "Filter failure: NOTIONAL")
  | unfillableDepth => (-2010, "Order would trigger immediate liquidation")
  | orderRateBudget => (-1015, "Too many new orders.")

theorem mem_all (reason : RejectReason) : reason ∈ all := by
  cases reason <;> decide

end RejectReason

/-- One refusal: its reason and the simulator's own explanation. -/
structure Rejection where
  reason : RejectReason
  detail : Message
  deriving DecidableEq

namespace Rejection

variable (self : Rejection)

def venueCode : ℤ := self.reason.envelope.1

def venueMessage : String := self.reason.envelope.2

/-- The text a `RejectEvent` carries into the run trace. -/
def asRejectText : Message :=
  ([.count self.venueCode, " ", self.venueMessage, " [", self.reason.value, "] "] : Message) ++
    self.detail

theorem asRejectText_not_blank : self.asRejectText.isBlank = false := by
  simp [asRejectText, Message.isBlank]

end Rejection

/-! ### Reading the taxonomy member back -/

/-- The characters of a text, one opaque glyph standing for each interpolated value. -/
def glyphsOf (m : Message) : List (Option Char) :=
  m.flatMap (fun | .text s => s.toList.map some | _ => [none])

/-- `[a-z_]`. -/
def isReasonGlyph : Option Char → Bool
  | some c => ('a' ≤ c && c ≤ 'z') || c == '_'
  | none => false

/-- The group of the first match of `\[([a-z_]+)\]`. -/
def searchReason : List (Option Char) → Option (List (Option Char))
  | [] => none
  | glyph :: rest =>
    let name := rest.takeWhile isReasonGlyph
    if glyph = some '[' ∧ name ≠ [] ∧ (rest.dropWhile isReasonGlyph).head? = some (some ']') then
      some name
    else searchReason rest

/-- The member whose value the glyphs spell. -/
def RejectReason.ofGlyphs (name : List (Option Char)) : Option RejectReason :=
  RejectReason.all.find? (fun reason => reason.value.toList.map some = name)

/-- The taxonomy member a recorded reject text names, or a refusal to guess. -/
def reasonFrom (rejectText : Message) : PyResult RejectReason :=
  match searchReason (glyphsOf rejectText) with
  | none => raise .venueRecording
      ((["recorded reject text '"] : Message) ++ rejectText ++
        (["' carries no taxonomy member; it was not produced by Rejection.as_reject_text()"] :
          Message))
  | some name =>
    match RejectReason.ofGlyphs name with
    | some reason => .ok reason
    | none => raise .venueRecording
        ["recorded reject text names ", .quoted (String.ofList (name.filterMap id)),
          ", which is not a member of the closed rejection taxonomy"]

theorem searchReason_of_forall {l : List (Option Char)} (h : ∀ glyph ∈ l, isReasonGlyph glyph) :
    searchReason l = none := by
  induction l with
  | nil => rfl
  | cons glyph rest ih =>
    have hglyph : glyph ≠ some '[' := by
      rintro rfl
      exact absurd (h _ List.mem_cons_self) (by decide)
    rw [searchReason, if_neg (fun hmatch => hglyph hmatch.1)]
    exact ih fun other hother => h other (List.mem_cons_of_mem _ hother)

/-- What follows a match does not move it. -/
theorem searchReason_append {l name : List (Option Char)} (h : searchReason l = some name)
    (r : List (Option Char)) : searchReason (l ++ r) = some name := by
  induction l with
  | nil => cases h
  | cons glyph rest ih =>
    -- a run of reason glyphs reaching the end of `rest` would leave nothing to match
    by_cases hrun : ∀ other ∈ rest, isReasonGlyph other
    · have hdrop : rest.dropWhile isReasonGlyph = [] := List.dropWhile_eq_nil_iff.mpr hrun
      rw [searchReason, hdrop, if_neg (by simp), searchReason_of_forall hrun] at h
      cases h
    · have htake : (rest ++ r).takeWhile isReasonGlyph = rest.takeWhile isReasonGlyph := by
        rw [List.takeWhile_append, if_neg]
        intro hlength
        exact hrun (List.takeWhile_eq_self_iff.mp
          ((List.takeWhile_prefix isReasonGlyph).eq_of_length hlength))
      have hne : rest.dropWhile isReasonGlyph ≠ [] := by
        rwa [Ne, List.dropWhile_eq_nil_iff]
      have hdrop : ((rest ++ r).dropWhile isReasonGlyph).head? =
          (rest.dropWhile isReasonGlyph).head? := by
        rw [List.dropWhile_append, if_neg (by simpa using hne), List.head?_append_of_ne_nil _ hne]
      rw [List.cons_append, searchReason, htake, hdrop]
      rw [searchReason] at h
      split
      · next hmatch => rwa [if_pos hmatch] at h
      · next hmatch =>
        rw [if_neg hmatch] at h
        exact ih h

/-- A reject text names the reason it was written for. -/
theorem reasonFrom_asRejectText (self : Rejection) :
    reasonFrom self.asRejectText = .ok self.reason := by
  obtain ⟨reason, detail⟩ := self
  have hfound : ∃ name, RejectReason.ofGlyphs name = some reason ∧
      searchReason (glyphsOf [.count reason.envelope.1, " ", reason.envelope.2, " [", reason.value,
        "] "]) = some name := by
    refine ⟨reason.value.toList.map some, ?_⟩
    cases reason <;> decide +kernel
  obtain ⟨name, hname, hsearch⟩ := hfound
  rw [reasonFrom, Rejection.asRejectText, glyphsOf, List.flatMap_append,
    searchReason_append (by simpa [glyphsOf, Rejection.venueMessage] using hsearch)]
  simp only [hname]

end FinanceKing.Backtest
