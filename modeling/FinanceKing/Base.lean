import FinanceKing.Lib.Sha1

/-! The Python values the repository computes with, as the model reads them. A `Decimal` is an exact
    rational, a UTC `datetime` is a count of microseconds, and an exception is its class together
    with the pieces of its message, so a number inside a message stays a number. -/

namespace FinanceKing

abbrev Decimal := ℚ

/-- An aware UTC instant, in microseconds since the epoch. -/
abbrev DateTime := ℤ

/-- A `timedelta`, in microseconds. -/
abbrev TimeDelta := ℤ

/-- A UUID as its 128-bit integer; Python orders both it and its hexadecimal text by that. -/
abbrev Uuid := ℕ

def TimeDelta.ofSeconds (seconds : ℤ) : TimeDelta := seconds * 1000000

def TimeDelta.ofMinutes (minutes : ℤ) : TimeDelta := TimeDelta.ofSeconds (minutes * 60)

/-- The UTF-8 bytes of a string. -/
def utf8Bytes (s : String) : List ℕ :=
  s.toList.flatMap (fun c => (String.utf8EncodeChar c).map UInt8.toNat)

/-- `uuid.uuid5`: the first sixteen bytes of the SHA-1 of the namespace and the name, with the version
    and variant bits written over them. -/
def uuid5 (space : Uuid) (name : String) : Uuid :=
  let raw := Lib.Sha1.fromBytes
    ((Lib.Sha1.digest (Lib.Sha1.toBytes 16 space ++ utf8Bytes name)).take 16)
  raw / 2 ^ 80 * 2 ^ 80 + 5 * 2 ^ 76 + raw / 2 ^ 64 % 2 ^ 12 * 2 ^ 64 + 2 ^ 63 + raw % 2 ^ 62

/-- `uuid.NAMESPACE_URL`. -/
def namespaceUrl : Uuid := 0x6ba7b8119dad11d180b400c04fd430c8

example : uuid5 namespaceUrl "fk" = 0x8ccb3f8151765138a8cf55983dcd6d9d := by decide +kernel

/-! ### Strings and messages -/

/-- `str.isspace` of one character: the whitespace code points Python strips. -/
def isSpace (c : Char) : Bool :=
  let n := c.toNat
  (9 ≤ n && n ≤ 13) || (28 ≤ n && n ≤ 32) || n == 0x85 || n == 0xA0 || n == 0x1680 ||
    (0x2000 ≤ n && n ≤ 0x200A) || n == 0x2028 || n == 0x2029 || n == 0x202F || n == 0x205F ||
    n == 0x3000

/-- `str.strip()`: the characters left once whitespace is dropped at both ends. -/
def stripChars (l : List Char) : List Char :=
  ((l.dropWhile isSpace).reverse.dropWhile isSpace).reverse

def strip (s : String) : List Char := stripChars s.toList

/-- Stripping leaves something exactly where some character is not whitespace. -/
theorem stripChars_ne_nil_iff {l : List Char} : stripChars l ≠ [] ↔ ∃ c ∈ l, isSpace c = false := by
  rw [stripChars, ne_eq, List.reverse_eq_nil_iff, List.dropWhile_eq_nil_iff]
  push Not
  simp only [List.mem_reverse, Bool.not_eq_true]
  constructor
  · rintro ⟨c, hc, hvisible⟩
    exact ⟨c, (List.dropWhile_suffix _).subset hc, hvisible⟩
  · rintro ⟨c, hc, hvisible⟩
    refine ⟨c, ?_, hvisible⟩
    rw [← List.takeWhile_append_dropWhile (p := isSpace) (l := l), List.mem_append] at hc
    refine hc.resolve_left fun htaken => ?_
    have hspace := List.mem_takeWhile_imp htaken
    rw [hvisible] at hspace
    cases hspace

theorem strip_append_ne_nil {s : String} (h : strip s ≠ []) (rest : String) : strip (s ++ rest) ≠ [] := by
  rw [strip, stripChars_ne_nil_iff] at h ⊢
  obtain ⟨c, hc, hvisible⟩ := h
  exact ⟨c, by rw [String.toList_append]; exact List.mem_append_left _ hc, hvisible⟩

theorem strip_append_ne_nil_right {rest : String} (h : strip rest ≠ []) (s : String) :
    strip (s ++ rest) ≠ [] := by
  rw [strip, stripChars_ne_nil_iff] at h ⊢
  obtain ⟨c, hc, hvisible⟩ := h
  exact ⟨c, by rw [String.toList_append]; exact List.mem_append_right _ hc, hvisible⟩

/-- One piece of an f-string: literal text or the value interpolated there; `quoted` is `!r`. -/
inductive Piece where
  | text (s : String)
  | decimal (d : Decimal)
  | instant (t : DateTime)
  | span (d : TimeDelta)
  | uuid (u : Uuid)
  | count (n : ℤ)
  | date (day : ℤ)
  | quoted (s : String)
  | texts (l : List String)
  deriving DecidableEq

instance : Coe String Piece := ⟨Piece.text⟩

/-- An f-string, piece by piece. -/
abbrev Message := List Piece

/-- Whether the string has a character, which is what `if not message` asks. -/
def Message.isTruthy (m : Message) : Bool := m.any (fun p => p != Piece.text "")

/-- Whether the string is whitespace throughout; an interpolated value never is. -/
def Message.isBlank (m : Message) : Bool :=
  m.all (fun | .text s => strip s = [] | _ => false)

/-- The exception classes the modelled code raises. -/
inductive ErrorKind where
  | domainError
  | resumeRefused
  | killSwitchTripped
  | portfolioAccounting
  | markPriceMissing
  | runConfig
  | causality
  | unregisteredSpecification
  | eventBudgetExhausted
  | costModelConfig
  | venueSimulation
  | venueRecording
  | invalidOperation
  | keyError
  | indexError
  | valueError
  | walkForwardConfig
  | scheduleRefused
  | cpcvConfig
  | cpcvPartition
  | drawdownState
  | triggerObservation
  | degradedMode
  | throttleConfiguration
  | rateBudgetExhausted
  | venueIpBanned
  | dataIntegrity
  | dataUnavailable
  | seamDisagreement
  | zeroDivision
  | executionReport
  | trialSpecification
  | trialLedger
  | lifecycleTransition
  | illegalTransition
  | lineage
  | lineageCycle
  | genome
  | integrity
  | noResultFound
  | jobRegistration
  | catchUpBacklogTooLarge
  | payload
  | validation
  | eventSchema
  | qualityGate
  | corpusIntegrity
  | feedRequest
  | coverageRefused
  | warmupLeak
  | ambiguousEpochUnit
  | headerExpectation
  | arrowInvalid
  | featureContract
  | strategyContract
  | observationRefused
  | signalRefused
  | duplicateStrategy
  | featureUnavailable
  | riskModel
  | calibration
  | stopIteration
  | supervisor
  | signalsHalted
  | venueTransport
  | unknownVenueEndpoint
  | venueProfile
  | metricInput
  | riskLimitBreached
  | equityPath
  | sharpeEvidenceUnusable
  | trialCountUnavailable
  | pathSplitMalformed
  | decayReport
  | permanentExchange
  | clockDrift
  | preflightAborted
  | overflowError
  | fileNotFound
  deriving DecidableEq

/-- The classes a handler for `DataIntegrityError` catches. -/
def ErrorKind.isDataIntegrity : ErrorKind → Bool
  | dataIntegrity | headerExpectation | qualityGate => true
  | _ => false

/-- A raised exception. -/
structure PyError where
  kind : ErrorKind
  message : Message
  deriving DecidableEq

/-- What a call gives back: its value, or the exception it raised. -/
abbrev PyResult (α : Type) := Except PyError α

def raise {α : Type} (kind : ErrorKind) (message : Message) : PyResult α := .error ⟨kind, message⟩

/-- Build a checked value: the constructor's checks pass, or their exception is raised. -/
def construct {F V : Type} (postInit : F → PyResult Unit)
    (mk : (f : F) → postInit f = .ok () → V) (f : F) : PyResult V :=
  match h : postInit f with
  | .ok () => .ok (mk f h)
  | .error e => .error e

theorem construct_ok {F V : Type} {postInit : F → PyResult Unit}
    {mk : (f : F) → postInit f = .ok () → V} {f : F} (h : postInit f = .ok ()) :
    construct postInit mk f = .ok (mk f h) := by
  rw [construct]
  split
  · rfl
  · next e he => rw [h] at he; cases he

theorem construct_error {F V : Type} {postInit : F → PyResult Unit}
    {mk : (f : F) → postInit f = .ok () → V} {f : F} {e : PyError} (h : postInit f = .error e) :
    construct postInit mk f = .error e := by
  rw [construct]
  split
  · next hf => rw [h] at hf; cases hf
  · next e' he => exact congrArg Except.error (Except.error.inj (he.symm.trans h))

theorem construct_eq_ok {F V : Type} {postInit : F → PyResult Unit}
    {mk : (f : F) → postInit f = .ok () → V} {f : F} {v : V}
    (h : construct postInit mk f = .ok v) : ∃ hf, v = mk f hf := by
  rw [construct] at h
  split at h
  · next hf => exact ⟨hf, (Except.ok.inj h).symm⟩
  · cases h

/-! ### Reading a sequence of checks -/

@[simp] theorem bind_eq_ok {α β : Type} {x : PyResult α} {f : α → PyResult β} {b : β} :
    (x >>= f) = .ok b ↔ ∃ a, x = .ok a ∧ f a = .ok b := by
  cases x with
  | error e => simp [bind, Except.bind]
  | ok a => simp [bind, Except.bind]

@[simp] theorem pure_eq_ok {α : Type} {a b : α} : (pure a : PyResult α) = .ok b ↔ a = b := by
  simp [pure, Except.pure]

@[simp] theorem raise_ne_ok {α : Type} {kind : ErrorKind} {message : Message} {a : α} :
    (raise kind message : PyResult α) ≠ .ok a := by
  simp [raise]

/-- A loop of checks passes exactly when every check does. -/
theorem forM_eq_ok {α : Type} {check : α → PyResult Unit} : ∀ {l : List α},
    l.forM check = .ok () ↔ ∀ a ∈ l, check a = .ok ()
  | [] => by simp [List.forM_nil]
  | a :: l => by
    have hcons : (a :: l).forM check = (check a >>= fun _ => l.forM check) := rfl
    rw [hcons, bind_eq_ok, List.forall_mem_cons, forM_eq_ok]
    exact ⟨fun ⟨(), ha, hl⟩ => ⟨ha, hl⟩, fun ⟨ha, hl⟩ => ⟨(), ha, hl⟩⟩

/-- A comprehension whose every element returns. -/
theorem forall₂_mapM {α β γ : Type} (f : α → PyResult β) {R : α → γ → Prop} (P : β → γ → Prop)
    {l : List α} {m : List γ} (h : List.Forall₂ R l m)
    (hf : ∀ a c, c ∈ m → R a c → ∃ b, f a = .ok b ∧ P b c) :
    ∃ bs, l.mapM f = .ok bs ∧ List.Forall₂ P bs m := by
  induction h with
  | nil => exact ⟨[], rfl, .nil⟩
  | cons hac _ ih =>
    obtain ⟨b, hb, hP⟩ := hf _ _ List.mem_cons_self hac
    obtain ⟨bs, hbs, hall⟩ := ih fun a c hc => hf a c (List.mem_cons_of_mem _ hc)
    refine ⟨b :: bs, ?_, .cons hP hall⟩
    simp only [List.mapM_cons, bind_eq_ok]
    exact ⟨b, hb, bs, hbs, rfl⟩

theorem exists_mapM {α β : Type} {f : α → PyResult β} (P : β → α → Prop) {l : List α}
    (hf : ∀ a ∈ l, ∃ b, f a = .ok b ∧ P b a) :
    ∃ bs, l.mapM f = .ok bs ∧ List.Forall₂ P bs l := by
  have hsame : List.Forall₂ (fun a b => a = b) l l := List.forall₂_same.mpr fun _ _ => rfl
  refine forall₂_mapM f P hsame ?_
  rintro a _ ha rfl
  exact hf a ha

/-- A comprehension whose elements each return or raise: it returns, or raises what one of them does. -/
theorem mapM_cases {α β : Type} {f : α → PyResult β} (P : β → α → Prop) (Q : α → PyError → Prop) :
    ∀ {l : List α}, (∀ a ∈ l, (∃ b, f a = .ok b ∧ P b a) ∨ ∃ e, f a = .error e ∧ Q a e) →
    (∃ bs, l.mapM f = .ok bs ∧ List.Forall₂ P bs l) ∨ ∃ a ∈ l, ∃ e, l.mapM f = .error e ∧ Q a e
  | [], _ => .inl ⟨[], rfl, .nil⟩
  | a :: l, h => by
    have hcons : (a :: l).mapM f = (f a >>= fun b => l.mapM f >>= fun bs => pure (b :: bs)) :=
      List.mapM_cons
    rw [hcons]
    rcases h a List.mem_cons_self with ⟨b, hb, hP⟩ | ⟨e, he, hQ⟩
    · rw [hb]
      rcases mapM_cases P Q fun c hc => h c (List.mem_cons_of_mem _ hc) with
        ⟨bs, hbs, hall⟩ | ⟨c, hc, e, he, hQ⟩
      · exact .inl ⟨b :: bs, by rw [hbs]; rfl, .cons hP hall⟩
      · exact .inr ⟨c, List.mem_cons_of_mem _ hc, e, by rw [he]; rfl, hQ⟩
    · exact .inr ⟨a, List.mem_cons_self, e, by rw [he]; rfl, hQ⟩

/-- Reading back a sequence written element by element. -/
theorem mapM_map_eq_ok {α β : Type} {write : α → β} {read : β → PyResult α} :
    ∀ {l : List α}, (∀ a ∈ l, read (write a) = .ok a) → (l.map write).mapM read = .ok l
  | [], _ => rfl
  | a :: l, h => by
    rw [List.map_cons, List.mapM_cons, h a List.mem_cons_self]
    have hrest := mapM_map_eq_ok fun b hb => h b (List.mem_cons_of_mem a hb)
    exact bind_eq_ok.mpr ⟨a, rfl, bind_eq_ok.mpr ⟨l, hrest, rfl⟩⟩

/-- `container[index]` of a sequence. -/
def item {α : Type} (container : String) (l : List α) (index : ℕ) : PyResult α :=
  match l[index]? with
  | some a => .ok a
  | none => raise .indexError [container, " index out of range"]

theorem item_ok {α : Type} {container : String} {l : List α} {index : ℕ} {a : α}
    (h : l[index]? = some a) : item container l index = .ok a := by
  rw [item, h]

/-! ### JSON data: what the codec, the digests and the journals write -/

/-- A JSON value; an object keeps its members in the order they were inserted. -/
inductive JsonValue where
  | null
  | boolean (b : Bool)
  | integer (n : ℤ)
  | text (s : String)
  | array (items : List JsonValue)
  | object (members : List (String × JsonValue))

/-- A string, or null. -/
def JsonValue.optional : Option String → JsonValue
  | none => .null
  | some s => .text s

theorem JsonValue.optional_inj {a b : Option String} :
    JsonValue.optional a = JsonValue.optional b ↔ a = b := by
  cases a <;> cases b <;> simp [optional]

end FinanceKing
