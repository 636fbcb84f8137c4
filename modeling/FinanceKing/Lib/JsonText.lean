import Mathlib

/-! Strings as ASCII JSON text. Every character that is not printable ASCII is escaped by its UTF-16 code units, and
    reading the text back gives the string. -/

namespace Lib.JsonText

/-! ### Code units -/

/-- The UTF-16 code units of a character: one, or a high and a low surrogate. -/
def unitsOf (c : Char) : List ℕ :=
  if c.toNat < 0x10000 then [c.toNat]
  else [0xD800 + (c.toNat - 0x10000) / 0x400, 0xDC00 + (c.toNat - 0x10000) % 0x400]

/-- The characters of a run of code units; a surrogate without its other half is none. -/
def ofUnits : List ℕ → Option (List Char)
  | [] => some []
  | unit :: units =>
    if 0xD800 ≤ unit ∧ unit < 0xDC00 then
      match units with
      | low :: rest =>
        if 0xDC00 ≤ low ∧ low < 0xE000 then
          (ofUnits rest).map (Char.ofNat (0x10000 + (unit - 0xD800) * 0x400 + (low - 0xDC00)) :: ·)
        else none
      | [] => none
    else if 0xDC00 ≤ unit ∧ unit < 0xE000 then none
    else (ofUnits units).map (Char.ofNat unit :: ·)

theorem ofUnits_unitsOf (c : Char) (units : List ℕ) : ofUnits (unitsOf c ++ units) = (ofUnits units).map (c :: ·) := by
  have hvalid : c.toNat < 0xD800 ∨ 0xDFFF < c.toNat ∧ c.toNat < 0x110000 := c.valid
  rw [unitsOf]
  split
  · rw [List.singleton_append, ofUnits.eq_def]
    dsimp only
    rw [if_neg (by omega), if_neg (by omega), Char.ofNat_toNat]
  · have hunit : 0x10000 + (0xD800 + (c.toNat - 0x10000) / 0x400 - 0xD800) * 0x400 +
        (0xDC00 + (c.toNat - 0x10000) % 0x400 - 0xDC00) = c.toNat := by omega
    rw [List.cons_append, List.singleton_append, ofUnits, if_pos (by omega), if_pos (by omega), hunit,
      Char.ofNat_toNat]

/-! ### Escapes -/

def hexDigit (n : ℕ) : Char := if n < 10 then Char.ofNat (48 + n) else Char.ofNat (87 + n)

def hexValue (c : Char) : Option ℕ :=
  if '0' ≤ c ∧ c ≤ '9' then some (c.toNat - 48)
  else if 'a' ≤ c ∧ c ≤ 'f' then some (c.toNat - 87)
  else if 'A' ≤ c ∧ c ≤ 'F' then some (c.toNat - 55)
  else none

/-- `\uXXXX`. -/
def escapeUnit (unit : ℕ) : List Char :=
  ['\\', 'u', hexDigit (unit / 4096 % 16), hexDigit (unit / 256 % 16), hexDigit (unit / 16 % 16),
    hexDigit (unit % 16)]

/-- The unit four hexadecimal digits name. -/
def unitOf (a b c d : Char) : Option ℕ := do
  let a ← hexValue a
  let b ← hexValue b
  let c ← hexValue c
  let d ← hexValue d
  return a * 4096 + b * 256 + c * 16 + d

theorem hexValue_hexDigit {n : ℕ} (h : n < 16) : hexValue (hexDigit n) = some n := by
  interval_cases n <;> decide

theorem unitOf_digits {unit : ℕ} (h : unit < 0x10000) :
    unitOf (hexDigit (unit / 4096 % 16)) (hexDigit (unit / 256 % 16)) (hexDigit (unit / 16 % 16))
      (hexDigit (unit % 16)) = some unit := by
  have hdigit : ∀ n : ℕ, hexValue (hexDigit (n % 16)) = some (n % 16) := fun n =>
    hexValue_hexDigit (Nat.mod_lt _ (by decide))
  simp only [unitOf, hdigit, Option.bind_eq_bind, Option.bind_some, Option.pure_def, Option.some.injEq]
  omega

/-- The escapes of one letter, by the character they stand for. -/
def shortEscapes : List (Char × Char) :=
  [('"', '"'), ('\\', '\\'), ('\n', 'n'), ('\r', 'r'), ('\t', 't'), (Char.ofNat 8, 'b'), (Char.ofNat 12, 'f')]

/-! ### Writing and reading -/

/-- One character, escaped unless it is printable ASCII. -/
def escapeChar (c : Char) : List Char :=
  match shortEscapes.lookup c with
  | some letter => ['\\', letter]
  | none => if 32 ≤ c.toNat ∧ c.toNat ≤ 126 then [c] else (unitsOf c).flatMap escapeUnit

/-- The body of a string literal and the quote that closes it. -/
def render (text : List Char) : List Char := text.flatMap escapeChar ++ ['"']

/-- The code units up to the closing quote, which ends the text. -/
def readUnits : List Char → Option (List ℕ)
  | [] => none
  | '"' :: rest => if rest = [] then some [] else none
  | '\\' :: 'u' :: a :: b :: c :: d :: rest =>
    match unitOf a b c d with
    | some unit => (readUnits rest).map (unit :: ·)
    | none => none
  | '\\' :: letter :: rest =>
    match (('/', '/') :: shortEscapes).find? fun escape => escape.2 = letter with
    | some escape => (readUnits rest).map (unitsOf escape.1 ++ ·)
    | none => none
  | '\\' :: [] => none
  | c :: rest => (readUnits rest).map (unitsOf c ++ ·)

def read (body : List Char) : Option (List Char) := (readUnits body).bind ofUnits

/-! ### The round trip -/

theorem readUnits_escapeUnit {unit : ℕ} (h : unit < 0x10000) (rest : List Char) :
    readUnits (escapeUnit unit ++ rest) = (readUnits rest).map (unit :: ·) := by
  simp only [escapeUnit, List.cons_append, List.nil_append, readUnits, unitOf_digits h]

theorem readUnits_escapeUnits (units : List ℕ) (h : ∀ unit ∈ units, unit < 0x10000) (rest : List Char) :
    readUnits (units.flatMap escapeUnit ++ rest) = (readUnits rest).map (units ++ ·) := by
  induction units with
  | nil => simp
  | cons unit units ih =>
    obtain ⟨hunit, hunits⟩ := List.forall_mem_cons.mp h
    rw [List.flatMap_cons, List.append_assoc, readUnits_escapeUnit hunit, ih hunits, Option.map_map]
    rfl

theorem unitsOf_lt (c : Char) : ∀ unit ∈ unitsOf c, unit < 0x10000 := by
  have hvalid : c.toNat < 0xD800 ∨ 0xDFFF < c.toNat ∧ c.toNat < 0x110000 := c.valid
  rw [unitsOf]
  split
  · simpa using ‹_›
  · simp only [List.forall_mem_cons]
    exact ⟨by omega, by omega, by simp⟩

/-- An escaped character is read as its code units. -/
theorem readUnits_escapeChar (c : Char) (rest : List Char) :
    readUnits (escapeChar c ++ rest) = (readUnits rest).map (unitsOf c ++ ·) := by
  rw [escapeChar]
  cases hshort : shortEscapes.lookup c with
  | some letter =>
    have hmem : (c, letter) ∈ shortEscapes := by
      obtain ⟨before, after, hsplit, _⟩ := List.lookup_eq_some_iff.mp hshort
      rw [hsplit]
      exact List.mem_append_right _ List.mem_cons_self
    simp only [shortEscapes, List.mem_cons, Prod.mk.injEq, List.not_mem_nil, or_false] at hmem
    rcases hmem with ⟨rfl, rfl⟩ | ⟨rfl, rfl⟩ | ⟨rfl, rfl⟩ | ⟨rfl, rfl⟩ | ⟨rfl, rfl⟩ | ⟨rfl, rfl⟩ | ⟨rfl, rfl⟩ <;> rfl
  | none =>
    dsimp only
    split
    · have hquote : c ≠ '"' := by
        rintro rfl
        cases hshort
      have hslash : c ≠ '\\' := by
        rintro rfl
        cases hshort
      rw [List.singleton_append, readUnits] <;> simp [hquote, hslash]
    · exact readUnits_escapeUnits (unitsOf c) (unitsOf_lt c) rest

/-- The text of a string is read back as the string. -/
theorem read_render (text : List Char) : read (render text) = some text := by
  have hunits : ∀ text : List Char, readUnits (render text) = some (text.flatMap unitsOf) := by
    intro text
    induction text with
    | nil => rfl
    | cons c text ih =>
      rw [render] at ih ⊢
      rw [List.flatMap_cons, List.append_assoc, readUnits_escapeChar, ih]
      rfl
  have hchars : ∀ text : List Char, ofUnits (text.flatMap unitsOf) = some text := by
    intro text
    induction text with
    | nil => rfl
    | cons c text ih => rw [List.flatMap_cons, ofUnits_unitsOf, ih]; rfl
  rw [read, hunits, Option.bind_some, hchars]

end Lib.JsonText
