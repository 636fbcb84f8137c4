import FinanceKing.Data.Loaders
import FinanceKing.Lib.Checks
import FinanceKing.Lib.Numeral

/-! The grammar of each column. A field parser reads a text exactly where the text is in its column's grammar,
    and is stopped exactly where it would convert too long a run of digits or look past the last instant. -/

namespace FinanceKing.Data

open Lib

/-! ### Scanners -/

theorem takeDigits_eq {text digits rest : List Char} : takeDigits text = (digits, rest) ↔
    text = digits ++ rest ∧ AllDigits digits ∧ ∀ c ∈ rest.head?, ¬ c.isDigit := by
  rw [takeDigits, List.span_eq_takeWhile_dropWhile, Prod.mk.injEq]
  constructor
  · rintro ⟨rfl, rfl⟩
    refine ⟨List.takeWhile_append_dropWhile.symm, fun c => List.mem_takeWhile_imp, fun c hc => ?_⟩
    have hnot := List.head?_dropWhile_not Char.isDigit text
    rw [Option.mem_def.mp hc] at hnot
    simpa using hnot
  · rintro ⟨rfl, hdigits, hrest⟩
    have hstop : rest.takeWhile Char.isDigit = [] ∧ rest.dropWhile Char.isDigit = rest := by
      cases rest with
      | nil => exact ⟨rfl, rfl⟩
      | cons c rest =>
        have hc : c.isDigit = false := by simpa using hrest c rfl
        exact ⟨List.takeWhile_cons_of_neg (by simp [hc]), List.dropWhile_cons_of_neg (by simp [hc])⟩
    rw [List.takeWhile_append_of_pos hdigits, List.dropWhile_append_of_pos hdigits, hstop.1, hstop.2,
      List.append_nil]
    exact ⟨rfl, rfl⟩

theorem takeDigits_of_all {digits : List Char} (h : AllDigits digits) : takeDigits digits = (digits, []) :=
  takeDigits_eq.mpr ⟨(List.append_nil _).symm, h, fun _ hc => by cases hc⟩

/-- A sign taken off a text is one the grammar writes. -/
theorem takeSign_spells (text : List Char) : ∃ sign factor, text = sign ++ (takeSign text).2 ∧
    SpellsSign sign factor ∧ ∀ n, applySign (takeSign text).1 n = factor * n := by
  rw [takeSign.eq_def]
  split
  · exact ⟨['+'], 1, rfl, .plus, fun n => by simp [applySign]⟩
  · exact ⟨['-'], -1, rfl, .minus, fun n => by simp [applySign]⟩
  · exact ⟨[], 1, rfl, .unsigned, fun n => by simp [applySign]⟩

/-- A sign the grammar writes before a digit is the one taken off. -/
theorem takeSign_append {sign rest : List Char} {factor : ℤ} (h : SpellsSign sign factor)
    (hdigit : ∃ c ∈ rest.head?, c.isDigit) :
    (takeSign (sign ++ rest)).2 = rest ∧
      ∀ n, applySign (takeSign (sign ++ rest)).1 n = factor * n := by
  cases h with
  | plus => exact ⟨rfl, fun n => by simp [takeSign, applySign]⟩
  | minus => exact ⟨rfl, fun n => by simp [takeSign, applySign]⟩
  | unsigned =>
    obtain ⟨c, hc, hdigit⟩ := hdigit
    cases rest with
    | nil => cases hc
    | cons d rest =>
      obtain rfl := Option.some.inj hc
      have hsign : takeSign (d :: rest) = (false, d :: rest) := by
        rw [takeSign.eq_def]
        split
        · next heq =>
          obtain ⟨rfl, _⟩ := List.cons.inj heq
          cases hdigit
        · next heq =>
          obtain ⟨rfl, _⟩ := List.cons.inj heq
          cases hdigit
        · rfl
      rw [List.nil_append, hsign]
      exact ⟨rfl, fun n => by simp [applySign]⟩

theorem head_isDigit {digits : List Char} (rest : List Char) (hne : digits ≠ [])
    (hdigits : AllDigits digits) : ∃ c ∈ (digits ++ rest).head?, c.isDigit := by
  cases digits with
  | nil => exact absurd rfl hne
  | cons c digits => exact ⟨c, rfl, hdigits c List.mem_cons_self⟩

/-- The integer pattern matches exactly the texts that spell an integer, and reads the integer. -/
theorem signedInteger_eq_some {text : List Char} {n : ℤ} :
    signedInteger text = some n ↔ SpellsInteger text n := by
  constructor
  · intro h
    obtain ⟨sign, factor, htext, hsign, hfactor⟩ := takeSign_spells text
    rw [signedInteger] at h
    cases hsplit : takeDigits (takeSign text).2 with
    | mk digits rest =>
      obtain ⟨hrest, hdigits, _⟩ := takeDigits_eq.mp hsplit
      simp only [hsplit] at h
      cases digits with
      | nil => cases h
      | cons c digits =>
        cases rest with
        | cons d rest => cases h
        | nil =>
          rw [List.append_nil] at hrest
          refine ⟨sign, factor, c :: digits, by rw [← hrest]; exact htext, hsign, by simp, hdigits, ?_⟩
          rw [← Option.some.inj h, hfactor, ofDigitChars_zero]
  · rintro ⟨sign, factor, digits, rfl, hsign, hne, hdigits, rfl⟩
    have hhead := head_isDigit [] hne hdigits
    rw [List.append_nil] at hhead
    obtain ⟨hrest, hfactor⟩ := takeSign_append hsign hhead
    rw [signedInteger]
    simp only [hrest, takeDigits_of_all hdigits]
    cases digits with
    | nil => exact absurd rfl hne
    | cons c digits => simp only [hfactor, ofDigitChars_zero]

theorem unsignedInteger_eq_some {text : List Char} {n : ℤ} :
    unsignedInteger text = some n ↔ SpellsNatural text n := by
  rw [unsignedInteger.eq_def]
  cases hsplit : takeDigits text with
  | mk digits rest =>
    obtain ⟨rfl, hdigits, hstop⟩ := takeDigits_eq.mp hsplit
    cases digits with
    | nil =>
      refine iff_of_false (by simp) ?_
      rintro ⟨hne, hall, _⟩
      cases rest with
      | nil => exact hne rfl
      | cons c rest => exact hstop c rfl (hall c List.mem_cons_self)
    | cons c digits =>
      cases rest with
      | nil =>
        simp only [List.append_nil] at *
        rw [Option.some.injEq, ofDigitChars_zero]
        exact ⟨fun h => ⟨by simp, hdigits, h.symm⟩, fun h => h.2.2.symm⟩
      | cons d rest =>
        refine iff_of_false (by simp) ?_
        rintro ⟨_, hall, _⟩
        exact hstop d rfl (hall d (by simp))

theorem exponentOf_eq_some {text : List Char} {n : ℤ} : exponentOf text = some n ↔ SpellsExponent text n := by
  constructor
  · intro h
    rw [exponentOf.eq_def] at h
    split at h
    · obtain rfl := Option.some.inj h
      exact .absent
    · exact .lower (signedInteger_eq_some.mp h)
    · exact .upper (signedInteger_eq_some.mp h)
    · cases h
  · rintro (_ | h | h)
    · rfl
    · exact signedInteger_eq_some.mpr h
    · exact signedInteger_eq_some.mpr h

/-- What follows the whole digits opens with no digit. -/
theorem not_isDigit_of_tail {point digits exponent : List Char} {n : ℤ} (hpoint : SpellsFraction point digits)
    (hexponent : SpellsExponent exponent n) : ∀ c ∈ (point ++ exponent).head?, ¬ c.isDigit := by
  rintro c hc
  cases hpoint with
  | point _ =>
    obtain rfl := Option.some.inj hc
    decide
  | whole =>
    cases hexponent with
    | absent => cases hc
    | lower _ =>
      obtain rfl := Option.some.inj hc
      decide
    | upper _ =>
      obtain rfl := Option.some.inj hc
      decide

theorem takeFraction_append {point digits exponent : List Char} {n : ℤ}
    (hpoint : SpellsFraction point digits) (hexponent : SpellsExponent exponent n) :
    takeFraction (point ++ exponent) = (digits, exponent) := by
  cases hpoint with
  | whole =>
    cases hexponent with
    | absent => rfl
    | lower _ => rfl
    | upper _ => rfl
  | point hdigits => exact takeDigits_eq.mpr ⟨rfl, hdigits, not_isDigit_of_tail .whole hexponent⟩

theorem takeFraction_spells (text : List Char) : ∃ point, text = point ++ (takeFraction text).2 ∧
    SpellsFraction point (takeFraction text).1 := by
  rw [takeFraction.eq_def]
  split
  · next rest =>
    cases hsplit : takeDigits rest with
    | mk digits tail =>
      obtain ⟨rfl, hdigits, _⟩ := takeDigits_eq.mp hsplit
      exact ⟨'.' :: digits, rfl, .point hdigits⟩
  · exact ⟨[], rfl, .whole⟩

/-- The digits of an integer are what is left behind its sign. -/
theorem takeSign_digits {text sign digits : List Char} {factor : ℤ} (htext : text = sign ++ digits)
    (hsign : SpellsSign sign factor) (hne : digits ≠ []) (hdigits : AllDigits digits) :
    (takeSign text).2 = digits := by
  have hhead := head_isDigit [] hne hdigits
  rw [List.append_nil] at hhead
  rw [htext]
  exact (takeSign_append hsign hhead).1

/-! ### Columns -/

/-- An exact decimal, inside the exponents a `Decimal` holds. -/
def DecimalText (raw : String) (x : Decimal) : Prop :=
  ∃ token, SpellsDecimal raw.toList token ∧ holdsDecimal (token.whole ++ token.fraction) token.lastExponent ∧
    x = token.value

def PriceText (raw : String) (x : Decimal) : Prop := DecimalText raw x ∧ 0 < x

def VolumeText (raw : String) (x : Decimal) : Prop := DecimalText raw x ∧ 0 ≤ x

/-- The end of the plausible window, to the second. -/
def plausibleUntil (nowUtc : DateTime) : DateTime := (nowUtc + oneDay).tdiv 1000000 * 1000000

/-- An integer that names a plausible instant under the unit. -/
def EpochText (unit : EpochUnit) (nowUtc : DateTime) (raw : String) (moment : DateTime) : Prop :=
  (∃ ticks, SpellsInteger raw.toList ticks ∧ moment = ticks * (1000000 / unit.divisor)) ∧
    earliestPlausibleUtc ≤ moment ∧ moment < plausibleUntil nowUtc

def CountText (raw : String) (n : ℤ) : Prop := SpellsNatural raw.toList n

def BooleanText (encoding : BooleanEncoding) (raw : String) (token : Bool) : Prop :=
  (raw, token) ∈ booleanTokens encoding

/-- More digits than `int` converts. -/
def LongInteger (raw : String) : Prop :=
  ∃ sign factor digits, raw.toList = sign ++ digits ∧ SpellsSign sign factor ∧ AllDigits digits ∧
    maxIntDigits < digits.length

/-- An epoch that stops its row: an integer too long to convert, or any under a reference instant whose
    window ends past the last instant there is. -/
def EpochStops (nowUtc : DateTime) (raw : String) : Prop :=
  (∃ ticks, SpellsInteger raw.toList ticks) ∧ (LongInteger raw ∨ latestUtc < nowUtc + oneDay)

def CountStops (raw : String) : Prop := (∃ n, CountText raw n) ∧ LongInteger raw

/-- `int` counts the digits behind the sign. -/
theorem longInteger_iff {raw : String} {n : ℤ} (h : SpellsInteger raw.toList n) :
    maxIntDigits < (takeSign raw.toList).2.length ↔ LongInteger raw := by
  constructor
  · intro hlong
    obtain ⟨sign, factor, digits, htext, hsign, hne, hdigits, _⟩ := h
    rw [takeSign_digits htext hsign hne hdigits] at hlong
    exact ⟨sign, factor, digits, htext, hsign, hdigits, hlong⟩
  · rintro ⟨sign, factor, digits, htext, hsign, hdigits, hlong⟩
    have hne : digits ≠ [] := List.ne_nil_of_length_pos (Nat.lt_of_le_of_lt (Nat.zero_le _) hlong)
    rwa [takeSign_digits htext hsign hne hdigits]

theorem SpellsNatural.spellsInteger {text : List Char} {n : ℤ} (h : SpellsNatural text n) :
    SpellsInteger text n :=
  ⟨[], 1, text, rfl, .unsigned, h.1, h.2.1, by rw [one_mul]; exact h.2.2⟩

/-- The window is compared in ticks; in microseconds it is the same window. -/
theorem inWindow_iff (ticks : ℤ) (unit : EpochUnit) (nowUtc : DateTime) :
    (earliestPlausibleUtc.tdiv 1000000 * unit.divisor ≤ ticks ∧
      ticks < (nowUtc + oneDay).tdiv 1000000 * unit.divisor) ↔
    earliestPlausibleUtc ≤ ticks * (1000000 / unit.divisor) ∧
      ticks * (1000000 / unit.divisor) < plausibleUntil nowUtc := by
  have hscale : ∀ seconds : ℤ, 1262304000 * unit.divisor ≤ ticks ∧ ticks < seconds * unit.divisor ↔
      1262304000000000 ≤ ticks * (1000000 / unit.divisor) ∧
        ticks * (1000000 / unit.divisor) < seconds * 1000000 := by
    intro seconds
    cases unit with
    | milliseconds =>
      have hticks : (1000000 / EpochUnit.divisor .milliseconds : ℤ) = 1000 := by decide
      rw [hticks, EpochUnit.divisor]
      omega
    | microseconds =>
      have hticks : (1000000 / EpochUnit.divisor .microseconds : ℤ) = 1 := by decide
      rw [hticks, EpochUnit.divisor]
      omega
  exact hscale _

/-- Each spelling of an encoding stands for one token. -/
theorem lookup_booleanTokens {encoding : BooleanEncoding} {raw : String} {token : Bool} :
    (booleanTokens encoding).lookup raw = some token ↔ (raw, token) ∈ booleanTokens encoding := by
  have hspellings : ((booleanTokens encoding).map Prod.fst).Nodup := by cases encoding <;> decide
  exact Dict.get?_eq_some_iff ⟨booleanTokens encoding, hspellings⟩ raw token

/-! ### Field parsers -/

/-- The faults that leave a row parser: every exception no handler for `DataIntegrityError` catches, and no
    rejection. -/
structure Escaping (escapes : RowFault → Prop) : Prop where
  rejected : ∀ reason, ¬ escapes (.rejected reason)
  raised : ∀ e : PyError, e.kind.isDataIntegrity = false → escapes (.raised e)

section Fields

variable {escapes : RowFault → Prop} (hescapes : Escaping escapes)

include hescapes

theorem reject_reads {α : Type} {reason : RejectionReason} :
    Reads escapes (reject reason : RowResult α) (fun _ => False) False :=
  .counted (hescapes.rejected reason)

theorem rejectIf_reads {rejected : Prop} [Decidable rejected] {reason : RejectionReason} :
    Reads escapes (rejectIf rejected reason) (fun _ => ¬ rejected) False := by
  rw [rejectIf]
  split
  · next h => exact (reject_reads hescapes).congr (fun _ => by simp [h]) Iff.rfl
  · next h => exact (Reads.pure ()).congr (fun _ => by simp [h]) Iff.rfl

/-- A text that is no decimal of the grammar is counted, and no decimal stops its row. -/
theorem parseDecimal_reads (raw : String) : Reads escapes (parseDecimal raw) (DecimalText raw) False := by
  rw [parseDecimal]
  obtain ⟨sign, factor, htext, hsign, hfactor⟩ := takeSign_spells raw.toList
  cases hwhole : takeDigits (takeSign raw.toList).2 with
  | mk whole afterWhole =>
    obtain ⟨hrest, hdigits, _⟩ := takeDigits_eq.mp hwhole
    obtain ⟨point, hpoint, hfraction⟩ := takeFraction_spells afterWhole
    simp only [hwhole]
    -- the only parts a spelling of this text can have are the ones scanned
    have hscanned : ∀ token, SpellsDecimal raw.toList token → token.whole = whole ∧
        token.fraction = (takeFraction afterWhole).1 ∧
        exponentOf (takeFraction afterWhole).2 = some token.exponent ∧ token.sign = factor := by
      rintro token ⟨sign', point', exponent', htext', hsign', hne', hdigits', hpoint', hexponent'⟩
      obtain ⟨hafter, hfactor'⟩ := takeSign_append hsign'
        (head_isDigit (point' ++ exponent') hne' hdigits')
      rw [← htext'] at hafter hfactor'
      have hsplit := takeDigits_eq.mpr
        ⟨hafter, hdigits', not_isDigit_of_tail hpoint' hexponent'⟩
      rw [hwhole] at hsplit
      obtain ⟨rfl, rfl⟩ := Prod.mk.inj hsplit
      rw [takeFraction_append hpoint' hexponent']
      refine ⟨rfl, rfl, exponentOf_eq_some.mpr hexponent', ?_⟩
      have hone := (hfactor' 1).symm.trans (hfactor 1)
      simpa using hone
    cases whole with
    | nil =>
      refine (reject_reads hescapes).congr (fun x => iff_of_false id ?_) Iff.rfl
      rintro ⟨token, hspells, _⟩
      have hempty := (hscanned token hspells).1
      obtain ⟨_, _, _, _, _, hne, _⟩ := hspells
      exact hne hempty
    | cons c whole =>
      cases hexponent : exponentOf (takeFraction afterWhole).2 with
      | none =>
        refine (reject_reads hescapes).congr (fun x => iff_of_false id ?_) Iff.rfl
        rintro ⟨token, hspells, _⟩
        have hsome := (hscanned token hspells).2.2.1
        rw [hexponent] at hsome
        cases hsome
      | some exponent =>
        let token : DecimalToken := ⟨factor, c :: whole, (takeFraction afterWhole).1, exponent⟩
        have hspells : SpellsDecimal raw.toList token := by
          refine ⟨sign, point, (takeFraction afterWhole).2, ?_, hsign, by simp [token], hdigits, hfraction,
            exponentOf_eq_some.mp hexponent⟩
          rw [← hpoint, ← hrest]
          exact htext
        have honly : ∀ token', SpellsDecimal raw.toList token' → token' = token := by
          intro token' hspells'
          obtain ⟨hwhole', hfraction', hexponent', hsign'⟩ := hscanned token' hspells'
          rw [hexponent] at hexponent'
          cases token'
          simp only [token, DecimalToken.mk.injEq]
          exact ⟨hsign', hwhole', hfraction', (Option.some.inj hexponent').symm⟩
        have hvalue : (applySign (takeSign raw.toList).1
            (Nat.ofDigitChars 10 (c :: whole ++ (takeFraction afterWhole).1) 0) : Decimal) *
              10 ^ (exponent - (takeFraction afterWhole).1.length) = token.value := by
          rw [DecimalToken.value_eq, hfactor, ofDigitChars_zero, DecimalToken.lastExponent]
          push_cast
          rfl
        refine ((rejectIf_reads hescapes).bind fun _ => Reads.pure _).congr (fun x => ?_) (by simp)
        rw [hvalue]
        constructor
        · rintro ⟨_, hholds, rfl⟩
          exact ⟨token, hspells, not_not.mp hholds, rfl⟩
        · rintro ⟨token', hspells', hholds, rfl⟩
          obtain rfl := honly token' hspells'
          exact ⟨(), not_not.mpr hholds, rfl⟩

theorem parsePositiveDecimal_reads (raw : String) :
    Reads escapes (parsePositiveDecimal raw) (PriceText raw) False := by
  refine ((parseDecimal_reads hescapes raw).bind fun x => (rejectIf_reads hescapes).bind fun _ =>
    Reads.pure x).congr (fun x => ?_) (by simp)
  constructor
  · rintro ⟨_, hx, _, hpos, rfl⟩
    exact ⟨hx, not_le.mp hpos⟩
  · rintro ⟨hx, hpos⟩
    exact ⟨x, hx, (), not_le.mpr hpos, rfl⟩

theorem parseNonNegativeDecimal_reads (raw : String) :
    Reads escapes (parseNonNegativeDecimal raw) (VolumeText raw) False := by
  refine ((parseDecimal_reads hescapes raw).bind fun x => (rejectIf_reads hescapes).bind fun _ =>
    Reads.pure x).congr (fun x => ?_) (by simp)
  constructor
  · rintro ⟨_, hx, _, hnonneg, rfl⟩
    exact ⟨hx, not_lt.mp hnonneg⟩
  · rintro ⟨hx, hnonneg⟩
    exact ⟨x, hx, (), not_lt.mpr hnonneg, rfl⟩

theorem intOf_reads {raw : String} {n : ℤ} (h : SpellsInteger raw.toList n) :
    Reads escapes (uncaught (intOf raw n)) (fun m => m = n) (LongInteger raw) := by
  by_cases hlong : LongInteger raw
  · obtain ⟨message, hraised⟩ : ∃ message, intOf raw n = raise .valueError message :=
      ⟨_, by rw [intOf, raiseIf, if_pos ((longInteger_iff h).mpr hlong)]; rfl⟩
    rw [hraised]
    exact (Reads.escaped (hescapes.raised _ rfl)).congr (fun _ => Iff.rfl) (by simp [hlong])
  · have hread : intOf raw n = .ok n := by
      rw [intOf, raiseIf, if_neg fun hdigits => hlong ((longInteger_iff h).mp hdigits)]
      rfl
    rw [hread]
    exact (Reads.pure n).congr (fun _ => Iff.rfl) (by simp [hlong])

/-- The instant an integer names is read inside the window and counted outside it. -/
theorem window_reads (ticks : ℤ) (unit : EpochUnit) (nowUtc : DateTime) :
    Reads escapes (match epochToUtc ticks unit nowUtc with
        | .ok moment => .ok moment
        | .error e => if e.kind = .dataIntegrity then reject .epochOutOfRange else .error (.raised e))
      (fun moment => moment = ticks * (1000000 / unit.divisor) ∧
        earliestPlausibleUtc ≤ moment ∧ moment < plausibleUntil nowUtc)
      (latestUtc < nowUtc + oneDay) := by
  by_cases hpast : latestUtc < nowUtc + oneDay
  · obtain ⟨message, hraised⟩ : ∃ message, epochToUtc ticks unit nowUtc = raise .overflowError message :=
      ⟨_, by rw [epochToUtc, raiseIf, if_pos hpast]; rfl⟩
    rw [hraised]
    exact (Reads.escaped (hescapes.raised _ rfl)).congr (fun _ => Iff.rfl) (by simp [hpast])
  · by_cases hinside : earliestPlausibleUtc.tdiv 1000000 * unit.divisor ≤ ticks ∧
        ticks < (nowUtc + oneDay).tdiv 1000000 * unit.divisor
    · have hread : epochToUtc ticks unit nowUtc = .ok (ticks * (1000000 / unit.divisor)) := by
        simp only [epochToUtc, raiseIf, hpast, hinside, not_true_eq_false, and_self, if_false]
        rfl
      rw [hread]
      refine (Reads.pure _).congr (fun moment => ?_) (by simp [hpast])
      rw [inWindow_iff] at hinside
      constructor
      · rintro rfl
        exact ⟨rfl, hinside⟩
      · exact fun h => h.1
    · obtain ⟨message, hrefused⟩ : ∃ message, epochToUtc ticks unit nowUtc = raise .dataIntegrity message :=
        ⟨_, by simp only [epochToUtc, raiseIf, hpast, hinside, not_false_eq_true, if_true, if_false]; rfl⟩
      rw [hrefused]
      refine (reject_reads hescapes).congr (fun moment => iff_of_false id ?_) (by simp [hpast])
      rintro ⟨rfl, hmoment⟩
      exact hinside ((inWindow_iff ticks unit nowUtc).mpr hmoment)

/-- An epoch is counted or read under the declared unit, unless something stops it. -/
theorem parseEpoch_reads (raw : String) (unit : EpochUnit) (nowUtc : DateTime) :
    Reads escapes (parseEpoch raw unit nowUtc) (EpochText unit nowUtc raw) (EpochStops nowUtc raw) := by
  rw [parseEpoch]
  cases hspells : signedInteger raw.toList with
  | none =>
    have hnone : ∀ n, ¬ SpellsInteger raw.toList n := fun n h => by
      rw [← signedInteger_eq_some, hspells] at h
      cases h
    refine (reject_reads hescapes).congr (fun moment => iff_of_false id ?_) (iff_of_false id ?_)
    · rintro ⟨⟨ticks, hticks, _⟩, _⟩
      exact hnone ticks hticks
    · rintro ⟨⟨ticks, hticks⟩, _⟩
      exact hnone ticks hticks
  | some ticks =>
    have hticks := signedInteger_eq_some.mp hspells
    have honly : ∀ n, SpellsInteger raw.toList n → n = ticks := fun n h =>
      Option.some.inj ((signedInteger_eq_some.mpr h).symm.trans hspells)
    refine ((intOf_reads hescapes hticks).bind fun n => window_reads hescapes n unit nowUtc).congr
      (fun moment => ?_) ?_
    · constructor
      · rintro ⟨n, rfl, hmoment, hinside⟩
        exact ⟨⟨n, hticks, hmoment⟩, hinside⟩
      · rintro ⟨⟨n, hn, hmoment⟩, hinside⟩
        exact ⟨n, honly n hn, hmoment, hinside⟩
    · constructor
      · rintro (hlong | ⟨_, rfl, hpast⟩)
        · exact ⟨⟨ticks, hticks⟩, .inl hlong⟩
        · exact ⟨⟨_, hticks⟩, .inr hpast⟩
      · rintro ⟨_, hlong | hpast⟩
        · exact .inl hlong
        · exact .inr ⟨ticks, rfl, hpast⟩

theorem parseNonNegativeInt_reads (raw : String) :
    Reads escapes (parseNonNegativeInt raw) (CountText raw) (CountStops raw) := by
  rw [parseNonNegativeInt]
  cases hspells : unsignedInteger raw.toList with
  | none =>
    have hnone : ∀ n, ¬ CountText raw n := fun n h => by
      rw [CountText, ← unsignedInteger_eq_some, hspells] at h
      cases h
    refine (reject_reads hescapes).congr (fun n => iff_of_false id (hnone n)) (iff_of_false id ?_)
    rintro ⟨⟨n, hn⟩, _⟩
    exact hnone n hn
  | some count =>
    have hcount : CountText raw count := unsignedInteger_eq_some.mp hspells
    refine (intOf_reads hescapes (SpellsNatural.spellsInteger hcount)).congr (fun n => ?_)
      ⟨fun hlong => ⟨⟨count, hcount⟩, hlong⟩, fun hstops => hstops.2⟩
    constructor
    · rintro rfl
      exact hcount
    · exact fun h => Option.some.inj ((unsignedInteger_eq_some.mpr h).symm.trans hspells)

theorem parseBoolean_reads (raw : String) (encoding : BooleanEncoding) :
    Reads escapes (parseBoolean raw encoding) (BooleanText encoding raw) False := by
  rw [parseBoolean]
  cases hraw : (booleanTokens encoding).lookup raw with
  | none =>
    refine (reject_reads hescapes).congr (fun token => iff_of_false id fun h => ?_) Iff.rfl
    rw [BooleanText, ← lookup_booleanTokens, hraw] at h
    cases h
  | some found =>
    refine (Reads.pure found).congr (fun token => ?_) Iff.rfl
    rw [BooleanText, ← lookup_booleanTokens, hraw, Option.some.injEq, eq_comm]

end Fields

end FinanceKing.Data
