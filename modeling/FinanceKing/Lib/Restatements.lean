import FinanceKing.Lib.Dict
import FinanceKing.Lib.SortBy

/-! Values that are restated. A row names its series, the time it is about and the time from which it is
    known; rows are added, never changed, and the first row at a key stays. A reading as of an instant takes,
    for each time in its window, the last row known by then. -/

namespace Lib

/-! ### The first of each run -/

section Destutter

variable {α β : Type} [LinearOrder β] (key : α → β)

theorem find?_key_cons (a x : α) (l : List α) : (a :: l).find? (fun b => key b = key x) =
    if key a = key x then some a else l.find? fun b => key b = key x := by
  by_cases h : key a = key x <;> simp [h]

/-- In a list sorted by a key, what is kept is the first element of each key. -/
theorem mem_destutter'_iff {a x : α} : ∀ {l : List α}, (a :: l).Pairwise (fun b c => key b ≤ key c) →
    (x ∈ l.destutter' (fun b c => key b ≠ key c) a ↔ (a :: l).find? (fun b => key b = key x) = some x)
  | [], _ => by
    rw [List.destutter'_nil, List.mem_singleton, find?_key_cons, List.find?_nil]
    by_cases h : key a = key x
    · rw [if_pos h, Option.some.injEq, eq_comm]
    · rw [if_neg h]
      refine iff_of_false ?_ nofun
      rintro rfl
      exact h rfl
  | b :: l, hsorted => by
    obtain ⟨hfirst, hrest⟩ := List.pairwise_cons.mp hsorted
    rw [find?_key_cons]
    by_cases hab : key a = key b
    · have hskip : (a :: l).Pairwise (fun c d => key c ≤ key d) :=
        hsorted.sublist (.cons_cons a (.cons b (.refl l)))
      rw [List.destutter'_cons_neg _ (not_not.mpr hab), mem_destutter'_iff hskip, find?_key_cons,
        find?_key_cons, ← hab]
      by_cases h : key a = key x
      · rw [if_pos h, if_pos h]
      · rw [if_neg h, if_neg h, if_neg h]
    · rw [List.destutter'_cons_pos _ hab, List.mem_cons, mem_destutter'_iff hrest]
      by_cases h : key a = key x
      · rw [if_pos h, Option.some.injEq]
        refine ⟨fun hx => hx.elim Eq.symm fun hfound => ?_, fun hx => .inl hx.symm⟩
        have hle : key b ≤ key x := by
          rcases List.mem_cons.mp (List.mem_of_find?_eq_some hfound) with rfl | hmem
          · exact le_rfl
          · exact (List.pairwise_cons.mp hrest).1 x hmem
        exact absurd (le_antisymm (hfirst b List.mem_cons_self) (h ▸ hle)) hab
      · rw [if_neg h, or_iff_right_iff_imp]
        rintro rfl
        exact absurd rfl h

theorem mem_destutter_iff {l : List α} (hsorted : l.Pairwise fun b c => key b ≤ key c) {x : α} :
    x ∈ l.destutter (fun b c => key b ≠ key c) ↔ l.find? (fun b => key b = key x) = some x := by
  cases l with
  | nil => simp
  | cons a l => exact mem_destutter'_iff key hsorted

/-- What is kept of a sorted list ascends strictly. -/
theorem pairwise_lt_destutter {l : List α} (hsorted : l.Pairwise fun b c => key b ≤ key c) :
    (l.destutter fun b c => key b ≠ key c).Pairwise fun b c => key b < key c := by
  have htrans : Trans (fun b c => key b < key c) (fun b c => key b < key c) (fun b c => key b < key c) :=
    ⟨lt_trans⟩
  refine List.isChain_iff_pairwise.mp ?_
  have hle := (hsorted.sublist (List.destutter_sublist (fun b c => key b ≠ key c) l)).isChain
  have hne : (l.destutter fun b c => key b ≠ key c).IsChain fun b c => key b ≠ key c :=
    List.isChain_destutter _ l
  rw [List.isChain_iff_getElem] at hle hne ⊢
  exact fun i hi => lt_of_le_of_ne (hle i hi) (hne i hi)

end Destutter

/-! ### The table -/

/-- One value of a series, with the time it is about and the time from which it is known. -/
structure Restated (κ τ α : Type) where
  series : κ
  eventTime : τ
  availableAt : τ
  value : α
  deriving DecidableEq

variable {κ τ α : Type}

def Restated.key (row : Restated κ τ α) : κ × τ × τ := (row.series, row.eventTime, row.availableAt)

/-- The rows of a table, at most one to a key. -/
abbrev Restatements (κ τ α : Type) [DecidableEq κ] [LinearOrder τ] := Dict (κ × τ × τ) α

variable [DecidableEq κ] [LinearOrder τ]

namespace Restatements

variable (table : Restatements κ τ α)

def rows : List (Restated κ τ α) :=
  table.entries.map fun entry => ⟨entry.1.1, entry.1.2.1, entry.1.2.2, entry.2⟩

/-- Inserts a row, unless its key is taken. -/
def insert (row : Restated κ τ α) : Restatements κ τ α := table.setDefault row.key row.value

/-- The rows of a series about times after `start` and known by an instant. -/
def visible (series : κ) (asOf start : τ) : List (Restated κ τ α) :=
  table.rows.filter fun row => row.series = series ∧ row.availableAt ≤ asOf ∧ start < row.eventTime

/-- The order of a reading: by time, and the last known first. -/
def readingKey (row : Restated κ τ α) : τ ×ₗ τᵒᵈ := toLex (row.eventTime, OrderDual.toDual row.availableAt)

/-- For each time in the window, the last row known by the instant. -/
def latest (series : κ) (asOf start : τ) : List (Restated κ τ α) :=
  (sortBy readingKey (table.visible series asOf start)).destutter fun a b => a.eventTime ≠ b.eventTime

/-! ### What the rows are -/

theorem mem_rows {row : Restated κ τ α} : row ∈ table.rows ↔ table.get? row.key = some row.value := by
  rw [Dict.get?_eq_some_iff, rows, List.mem_map]
  constructor
  · rintro ⟨entry, hentry, rfl⟩
    exact hentry
  · exact fun hentry => ⟨_, hentry, rfl⟩

theorem nodup_rows : table.rows.Nodup := by
  have hkeys : (table.rows.map Restated.key).Nodup := by
    rw [rows, List.map_map]
    exact table.nodupKeys
  exact hkeys.of_map

theorem mem_visible {series : κ} {asOf start : τ} {row : Restated κ τ α} :
    row ∈ table.visible series asOf start ↔ table.get? row.key = some row.value ∧ row.series = series ∧
      row.availableAt ≤ asOf ∧ start < row.eventTime := by
  simp [visible, mem_rows]

/-- Rows of one series with one time and one availability are one row. -/
theorem eq_of_readingKey {series : κ} {asOf start : τ} {a b : Restated κ τ α}
    (ha : a ∈ table.visible series asOf start) (hb : b ∈ table.visible series asOf start)
    (h : readingKey a = readingKey b) : a = b := by
  rw [mem_visible] at ha hb
  obtain ⟨hvalue, hseries, -⟩ := ha
  obtain ⟨hvalue', hseries', -⟩ := hb
  obtain ⟨htime, havailable⟩ := Prod.mk.inj (toLex.injective h)
  have havailable : a.availableAt = b.availableAt := OrderDual.toDual.injective havailable
  have hkey : a.key = b.key := by rw [Restated.key, Restated.key, hseries, hseries', htime, havailable]
  rw [hkey, hvalue'] at hvalue
  cases a
  cases b
  simp_all

theorem pairwise_eventTime (series : κ) (asOf start : τ) :
    (sortBy readingKey (table.visible series asOf start)).Pairwise fun a b => a.eventTime ≤ b.eventTime :=
  (pairwise_sortBy readingKey _).imp fun {a b} hle => by
    rcases Prod.Lex.le_iff.mp hle with hlt | ⟨heq, -⟩
    · exact hlt.le
    · exact heq.le

/-- No time is read twice. -/
theorem pairwise_latest (series : κ) (asOf start : τ) :
    (table.latest series asOf start).Pairwise fun a b => a.eventTime < b.eventTime :=
  pairwise_lt_destutter Restated.eventTime (table.pairwise_eventTime series asOf start)

/-- A row is read exactly when it can be seen and none that can be seen is about its time and later. -/
theorem mem_latest_iff {series : κ} {asOf start : τ} {row : Restated κ τ α} :
    row ∈ table.latest series asOf start ↔ row ∈ table.visible series asOf start ∧
      ∀ other ∈ table.visible series asOf start, other.eventTime = row.eventTime →
        other.availableAt ≤ row.availableAt := by
  rw [latest, mem_destutter_iff Restated.eventTime (table.pairwise_eventTime series asOf start)]
  have hordered := pairwise_sortBy readingKey (table.visible series asOf start)
  have hmem : ∀ other, other ∈ sortBy readingKey (table.visible series asOf start) ↔
      other ∈ table.visible series asOf start := fun other => mem_sortBy readingKey
  generalize sortBy readingKey (table.visible series asOf start) = ordered at hordered hmem
  constructor
  · intro hfound
    refine ⟨(hmem row).mp (List.mem_of_find?_eq_some hfound), fun other hother htime => ?_⟩
    obtain ⟨-, front, back, rfl, hfront⟩ := List.find?_eq_some_iff_append.mp hfound
    rcases List.mem_append.mp ((hmem other).mpr hother) with hbefore | hafter
    · exact absurd htime (by simpa using hfront other hbefore)
    · rcases List.mem_cons.mp hafter with rfl | hlater
      · exact le_rfl
      · have hle := (List.pairwise_cons.mp (List.pairwise_append.mp hordered).2.1).1 other hlater
        rcases Prod.Lex.le_iff.mp hle with hlt | ⟨-, hle⟩
        · exact absurd htime.symm (ne_of_lt hlt)
        · exact hle
  · rintro ⟨hseen, hlast⟩
    have hsome : (ordered.find? fun other => other.eventTime = row.eventTime).isSome :=
      List.find?_isSome.mpr ⟨row, (hmem row).mpr hseen, decide_eq_true rfl⟩
    obtain ⟨found, hfound⟩ := Option.isSome_iff_exists.mp hsome
    obtain ⟨htime, front, back, rfl, hfront⟩ := List.find?_eq_some_iff_append.mp hfound
    have htime : found.eventTime = row.eventTime := by simpa using htime
    have hfoundSeen := (hmem found).mp (List.mem_append_right front List.mem_cons_self)
    rw [hfound]
    rcases List.mem_append.mp ((hmem row).mpr hseen) with hbefore | hafter
    · have hother : row.eventTime ≠ row.eventTime := by simpa using hfront row hbefore
      exact absurd rfl hother
    · rcases List.mem_cons.mp hafter with rfl | hlater
      · rfl
      · have hle := (List.pairwise_cons.mp (List.pairwise_append.mp hordered).2.1).1 row hlater
        rcases Prod.Lex.le_iff.mp hle with hlt | ⟨-, hle⟩
        · exact absurd htime (ne_of_lt hlt)
        · refine congrArg some (table.eq_of_readingKey hfoundSeen hseen ?_)
          have havailable := le_antisymm (hlast found hfoundSeen htime) hle
          rw [readingKey, readingKey, htime, havailable]

/-! ### What a reading depends on -/

/-- Two tables hold the same rows known by an instant. -/
def AgreeUntil (table₁ table₂ : Restatements κ τ α) (asOf : τ) : Prop :=
  ∀ series eventTime availableAt, availableAt ≤ asOf →
    table₁.get? (series, eventTime, availableAt) = table₂.get? (series, eventTime, availableAt)

theorem latest_congr {table₁ table₂ : Restatements κ τ α} {asOf : τ} (h : AgreeUntil table₁ table₂ asOf)
    (series : κ) (start : τ) : table₁.latest series asOf start = table₂.latest series asOf start := by
  have hmem : ∀ row, row ∈ table₁.visible series asOf start ↔ row ∈ table₂.visible series asOf start := by
    intro row
    rw [mem_visible, mem_visible]
    refine and_congr_left fun hseen => ?_
    rw [Restated.key, h _ _ _ hseen.2.1]
  have hperm : (table₁.visible series asOf start).Perm (table₂.visible series asOf start) :=
    (List.perm_ext_iff_of_nodup (table₁.nodup_rows.filter _) (table₂.nodup_rows.filter _)).mpr hmem
  rw [latest, latest, sortBy_eq_of_perm readingKey hperm fun a ha b hb => table₁.eq_of_readingKey ha hb]

theorem AgreeUntil.trans {table₁ table₂ table₃ : Restatements κ τ α} {asOf : τ}
    (h₁₂ : AgreeUntil table₁ table₂ asOf) (h₂₃ : AgreeUntil table₂ table₃ asOf) :
    AgreeUntil table₁ table₃ asOf :=
  fun series eventTime availableAt hknown =>
    (h₁₂ series eventTime availableAt hknown).trans (h₂₃ series eventTime availableAt hknown)

/-- A row that is known only later leaves what is known now. -/
theorem agreeUntil_insert {row : Restated κ τ α} {asOf : τ} (hlater : asOf < row.availableAt) :
    AgreeUntil (table.insert row) table asOf := by
  intro series eventTime availableAt hknown
  have hne : (series, eventTime, availableAt) ≠ row.key := fun heq =>
    absurd (hknown.trans_lt hlater) (not_lt.mpr (congrArg (fun key => key.2.2) heq).ge)
  rw [insert, Dict.get?_setDefault, if_neg hne]

/-- A row at a key that is taken changes nothing. -/
theorem insert_of_held {row : Restated κ τ α} (hheld : (table.get? row.key).isSome) :
    table.insert row = table := by
  obtain ⟨value, hvalue⟩ := Option.isSome_iff_exists.mp hheld
  rw [insert, Dict.setDefault, hvalue]

end Restatements

end Lib
