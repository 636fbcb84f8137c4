import Mathlib

/-! Insertion-ordered dictionaries. Writing an existing key keeps its place and writing a new key
    appends it, which is what iteration order and first-writer-wins code depend on; Mathlib's
    `AList` moves a rewritten key to the front, so it cannot stand in. The reasoning interface is
    `get?` together with the frame lemmas of `set` and `erase`. -/

namespace Lib

variable {κ ν : Type} [DecidableEq κ]

/-- A finite map that remembers insertion order: its entries in order, with no key twice. -/
structure Dict (κ ν : Type) where
  entries : List (κ × ν)
  nodupKeys : (entries.map Prod.fst).Nodup
  deriving DecidableEq

theorem lookup_cons_if (k : κ) (e : κ × ν) (es : List (κ × ν)) :
    (e :: es).lookup k = if k = e.1 then some e.2 else es.lookup k := by
  rw [List.lookup_cons]
  by_cases h : k = e.1
  · simp [h]
  · simp [h, beq_eq_false_iff_ne.mpr h]

/-- Overwrite the entry of `k` where it stands, or append one. -/
def putEntry (k : κ) (v : ν) : List (κ × ν) → List (κ × ν)
  | [] => [(k, v)]
  | (k', v') :: es => if k' = k then (k', v) :: es else (k', v') :: putEntry k v es

theorem keys_putEntry (k : κ) (v : ν) : ∀ es : List (κ × ν),
    (putEntry k v es).map Prod.fst =
      if k ∈ es.map Prod.fst then es.map Prod.fst else es.map Prod.fst ++ [k]
  | [] => by simp [putEntry]
  | (k', v') :: es => by
    rw [putEntry]
    by_cases hk : k' = k
    · simp [hk]
    · have hk' : k ≠ k' := fun h => hk h.symm
      simp only [hk, if_false, List.map_cons, List.mem_cons, hk', false_or, keys_putEntry k v es]
      split <;> simp

theorem nodup_keys_putEntry (k : κ) (v : ν) {es : List (κ × ν)} (h : (es.map Prod.fst).Nodup) :
    ((putEntry k v es).map Prod.fst).Nodup := by
  rw [keys_putEntry]
  split
  · exact h
  · next hk => exact List.Nodup.append h (List.nodup_singleton k) (by simpa using hk)

theorem lookup_putEntry (k : κ) (v : ν) (k' : κ) : ∀ es : List (κ × ν),
    (putEntry k v es).lookup k' = if k' = k then some v else es.lookup k'
  | [] => by rw [putEntry, lookup_cons_if]
  | (k₀, v₀) :: es => by
    rw [putEntry]
    by_cases hk : k₀ = k
    · subst hk
      by_cases h : k' = k₀ <;> simp [lookup_cons_if, h]
    · rw [if_neg hk, lookup_cons_if, lookup_cons_if, lookup_putEntry k v k' es]
      by_cases h : k' = k₀
      · simp [h, hk]
      · simp only [h, if_false]

namespace Dict

/-- The dictionary with no entries. -/
def empty : Dict κ ν := ⟨[], List.nodup_nil⟩

def keys (d : Dict κ ν) : List κ := d.entries.map Prod.fst

def values (d : Dict κ ν) : List ν := d.entries.map Prod.snd

def get? (d : Dict κ ν) (k : κ) : Option ν := d.entries.lookup k

/-- `d[k] = v`: in place for a key already held, appended otherwise. -/
def set (d : Dict κ ν) (k : κ) (v : ν) : Dict κ ν :=
  ⟨putEntry k v d.entries, nodup_keys_putEntry k v d.nodupKeys⟩

/-- Write `v` only if `k` holds nothing yet. -/
def setDefault (d : Dict κ ν) (k : κ) (v : ν) : Dict κ ν :=
  match d.get? k with
  | some _ => d
  | none => d.set k v

/-- Drop the entry of `k`, if there is one. -/
def erase (d : Dict κ ν) (k : κ) : Dict κ ν :=
  ⟨d.entries.filter (fun e => e.1 ≠ k),
    d.nodupKeys.sublist ((List.filter_sublist).map Prod.fst)⟩

/-- Every value under a function, at its own key. -/
def mapValues {μ : Type} (f : ν → μ) (d : Dict κ ν) : Dict κ μ :=
  ⟨d.entries.map (fun e => (e.1, f e.2)), by
    rw [List.map_map]
    exact d.nodupKeys⟩

omit [DecidableEq κ] in
@[simp] theorem keys_mapValues {μ : Type} (f : ν → μ) (d : Dict κ ν) : (d.mapValues f).keys = d.keys := by
  rw [keys, mapValues, List.map_map]
  rfl

theorem lookup_mapValues {μ : Type} (f : ν → μ) (k : κ) : ∀ l : List (κ × ν),
    (l.map fun e => (e.1, f e.2)).lookup k = (l.lookup k).map f
  | [] => rfl
  | e :: l => by
    rw [List.map_cons, List.lookup_cons, List.lookup_cons]
    split
    · rfl
    · exact lookup_mapValues f k l

@[simp] theorem get?_mapValues {μ : Type} (f : ν → μ) (d : Dict κ ν) (k : κ) :
    (d.mapValues f).get? k = (d.get? k).map f := lookup_mapValues f k d.entries

@[simp] theorem get?_empty (k : κ) : (empty : Dict κ ν).get? k = none := rfl

theorem get?_set (d : Dict κ ν) (k : κ) (v : ν) (k' : κ) :
    (d.set k v).get? k' = if k' = k then some v else d.get? k' :=
  lookup_putEntry k v k' d.entries

@[simp] theorem get?_set_self (d : Dict κ ν) (k : κ) (v : ν) : (d.set k v).get? k = some v := by
  rw [get?_set, if_pos rfl]

theorem get?_set_of_ne (d : Dict κ ν) {k k' : κ} (v : ν) (h : k' ≠ k) :
    (d.set k v).get? k' = d.get? k' := by
  rw [get?_set, if_neg h]

theorem get?_setDefault (d : Dict κ ν) (k : κ) (v : ν) (k' : κ) :
    (d.setDefault k v).get? k' = if k' = k then some ((d.get? k).getD v) else d.get? k' := by
  rw [setDefault]
  split
  · next w hw =>
    by_cases h : k' = k
    · subst h; simp [hw]
    · simp [h]
  · next hn => rw [get?_set, hn]; simp

theorem get?_erase (d : Dict κ ν) (k k' : κ) :
    (d.erase k).get? k' = if k' = k then none else d.get? k' := by
  simp only [get?, erase]
  induction d.entries with
  | nil => simp
  | cons e es ih =>
    rw [List.filter_cons, lookup_cons_if]
    by_cases hk : e.1 = k
    · rw [if_neg (by simpa using hk), ih, hk]
      by_cases h : k' = k <;> simp [h]
    · rw [if_pos (by simpa using hk), lookup_cons_if, ih]
      by_cases h : k' = e.1
      · simp [h, hk]
      · simp only [h, if_false]

/-- `get?` reads exactly the entries. -/
theorem get?_eq_some_iff (d : Dict κ ν) (k : κ) (v : ν) :
    d.get? k = some v ↔ (k, v) ∈ d.entries := by
  obtain ⟨es, hes⟩ := d
  simp only [get?]
  induction es with
  | nil => simp
  | cons e es ih =>
    rw [List.map_cons, List.nodup_cons] at hes
    rw [lookup_cons_if, List.mem_cons]
    by_cases h : k = e.1
    · subst h
      have hout : (e.1, v) ∉ es := fun hm => hes.1 (List.mem_map.mpr ⟨_, hm, rfl⟩)
      simp [hout, Prod.ext_iff, eq_comm]
    · simp [h, ih hes.2, Prod.ext_iff]

theorem mem_keys_iff (d : Dict κ ν) (k : κ) : k ∈ d.keys ↔ (d.get? k).isSome := by
  rw [Option.isSome_iff_exists]
  simp only [get?_eq_some_iff, keys, List.mem_map]
  exact ⟨fun ⟨e, he, hk⟩ => ⟨e.2, hk ▸ he⟩, fun ⟨v, hv⟩ => ⟨(k, v), hv, rfl⟩⟩

theorem mem_values_iff (d : Dict κ ν) (v : ν) : v ∈ d.values ↔ ∃ k, d.get? k = some v := by
  simp only [get?_eq_some_iff, values, List.mem_map]
  exact ⟨fun ⟨e, he, hv⟩ => ⟨e.1, hv ▸ he⟩, fun ⟨k, hk⟩ => ⟨(k, v), hk, rfl⟩⟩

theorem mem_values_of_get? {d : Dict κ ν} {k : κ} {v : ν} (h : d.get? k = some v) :
    v ∈ d.values := (d.mem_values_iff v).mpr ⟨k, h⟩

theorem keys_set (d : Dict κ ν) (k : κ) (v : ν) :
    (d.set k v).keys = if k ∈ d.keys then d.keys else d.keys ++ [k] :=
  keys_putEntry k v d.entries

end Dict

/-! ### Totals over the values -/

section Totals

variable {α : Type} [AddCommGroup α]

theorem sum_putEntry (k : κ) (v : ν) (f : ν → α) : ∀ es : List (κ × ν),
    ((putEntry k v es).map (fun e => f e.2)).sum =
      (es.map (fun e => f e.2)).sum - (es.lookup k).elim 0 f + f v
  | [] => by simp [putEntry]
  | (k', v') :: es => by
    rw [putEntry, lookup_cons_if]
    by_cases hk : k' = k
    · subst hk
      simp only [if_true, List.map_cons, List.sum_cons, Option.elim_some]
      abel
    · have hk' : k ≠ k' := fun h => hk h.symm
      simp only [if_neg hk, if_neg hk', List.map_cons, List.sum_cons, sum_putEntry k v f es]
      abel

/-- Rewriting one key moves a total over the values by exactly that key's change. -/
theorem Dict.sum_values_set (d : Dict κ ν) (k : κ) (v : ν) (f : ν → α) :
    ((d.set k v).values.map f).sum = (d.values.map f).sum - (d.get? k).elim 0 f + f v := by
  simpa [Dict.values, Dict.set, Dict.get?, List.map_map, Function.comp_def] using
    sum_putEntry k v f d.entries

end Totals

end Lib
