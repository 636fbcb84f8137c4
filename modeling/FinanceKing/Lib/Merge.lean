import FinanceKing.Lib.Dict

/-! Dictionaries built from lists, and from one another: the last element under each key, the elements
    of each key together, and one dictionary written over another. -/

namespace Lib

namespace Dict

variable {κ ν ε : Type} [DecidableEq κ]

/-- The last element of each key, under it. -/
def indexBy (key : ε → κ) (value : ε → ν) (l : List ε) : Dict κ ν :=
  l.foldl (fun d e => d.set (key e) (value e)) empty

theorem indexBy_concat (key : ε → κ) (value : ε → ν) (l : List ε) (e : ε) :
    indexBy key value (l ++ [e]) = (indexBy key value l).set (key e) (value e) := by
  rw [indexBy, List.foldl_append]
  rfl

/-- What an index holds under a key, some element filed there. -/
theorem exists_of_get?_indexBy {key : ε → κ} {value : ε → ν} {l : List ε} {k : κ} {v : ν}
    (h : (indexBy key value l).get? k = some v) : ∃ e ∈ l, key e = k ∧ value e = v := by
  induction l using List.reverseRecOn with
  | nil => cases h
  | append_singleton l e ih =>
    rw [indexBy_concat, get?_set] at h
    split at h
    · next hk => exact ⟨e, by simp, hk.symm, Option.some.inj h⟩
    · obtain ⟨e', he', hfiled⟩ := ih h
      exact ⟨e', List.mem_append_left _ he', hfiled⟩

/-- An index holds the key of every element. -/
theorem isSome_get?_indexBy {key : ε → κ} {value : ε → ν} {l : List ε} {e : ε} (he : e ∈ l) :
    ((indexBy key value l).get? (key e)).isSome := by
  induction l using List.reverseRecOn with
  | nil => cases he
  | append_singleton l last ih =>
    rw [indexBy_concat, get?_set]
    split
    · rfl
    · next hne =>
      rcases List.mem_append.mp he with hold | hnew
      · exact ih hold
      · exact absurd (congrArg key (List.mem_singleton.mp hnew)) hne

/-- With distinct keys, an index holds every element under its key. -/
theorem get?_indexBy (key : ε → κ) (value : ε → ν) {l : List ε} (hnodup : (l.map key).Nodup) {e : ε}
    (he : e ∈ l) : (indexBy key value l).get? (key e) = some (value e) := by
  have hsome : ((indexBy key value l).get? (key e)).isSome := isSome_get?_indexBy he
  obtain ⟨v, hv⟩ := Option.isSome_iff_exists.mp hsome
  obtain ⟨e', he', hkey, rfl⟩ := exists_of_get?_indexBy hv
  rw [hv, List.inj_on_of_nodup_map hnodup he' he hkey]

theorem putEntry_of_notMem {k : κ} (v : ν) : ∀ {es : List (κ × ν)}, k ∉ es.map Prod.fst →
    putEntry k v es = es ++ [(k, v)]
  | [], _ => rfl
  | e :: es, h => by
    rw [List.map_cons, List.mem_cons, not_or] at h
    rw [putEntry, if_neg (Ne.symm h.1), putEntry_of_notMem v h.2]
    rfl

/-- With distinct keys, an index is the list, keyed. -/
theorem entries_indexBy (key : ε → κ) (value : ε → ν) {l : List ε} (hnodup : (l.map key).Nodup) :
    (indexBy key value l).entries = l.map fun e => (key e, value e) := by
  induction l using List.reverseRecOn with
  | nil => rfl
  | append_singleton l e ih =>
    rw [List.map_append, List.map_singleton] at hnodup
    have hnotMem : key e ∉ (l.map fun e => (key e, value e)).map Prod.fst := by
      rw [List.map_map]
      exact fun hmem => List.disjoint_of_nodup_append hnodup hmem (List.mem_singleton_self _)
    rw [indexBy_concat, set]
    change putEntry (key e) (value e) (indexBy key value l).entries = _
    rw [ih (List.Nodup.of_append_left hnodup), putEntry_of_notMem _ hnotMem, List.map_append]
    rfl

/-- The elements of each key, in order. -/
def groupBy (key : ε → κ) (l : List ε) : Dict κ (List ε) :=
  l.foldl (fun d e => d.set (key e) ((d.get? (key e)).getD [] ++ [e])) empty

theorem groupBy_concat (key : ε → κ) (l : List ε) (e : ε) : groupBy key (l ++ [e]) =
    (groupBy key l).set (key e) (((groupBy key l).get? (key e)).getD [] ++ [e]) := by
  rw [groupBy, List.foldl_append]
  rfl

/-- A group holds what its key's elements are, and a key with none has no group. -/
theorem get?_groupBy (key : ε → κ) (k : κ) (l : List ε) : (groupBy key l).get? k =
    if l.filter (fun e => key e = k) = [] then none else some (l.filter fun e => key e = k) := by
  induction l using List.reverseRecOn with
  | nil => rfl
  | append_singleton l e ih =>
    rw [groupBy_concat, get?_set, List.filter_append]
    by_cases hk : k = key e
    · subst hk
      rw [if_pos rfl, ih, List.filter_singleton]
      split <;> simp_all
    · rw [if_neg hk, ih, List.filter_singleton]
      simp [Ne.symm hk]

omit [DecidableEq κ] in
theorem perm_flatMap_append {es : List (κ × List ε)} (k : κ) (group : List ε) (e : ε) :
    (((k, group ++ [e]) :: es).flatMap Prod.snd).Perm (((k, group) :: es).flatMap Prod.snd ++ [e]) := by
  simp only [List.flatMap_cons, List.append_assoc]
  exact List.Perm.append_left group List.perm_append_comm

theorem perm_flatMap_putEntry (k : κ) (e : ε) : ∀ es : List (κ × List ε),
    ((putEntry k ((es.lookup k).getD [] ++ [e]) es).flatMap Prod.snd).Perm (es.flatMap Prod.snd ++ [e])
  | [] => by simp [putEntry]
  | (k', group) :: es => by
    rw [putEntry, lookup_cons_if]
    by_cases hk : k' = k
    · subst hk
      rw [if_pos rfl, if_pos rfl, Option.getD_some]
      exact perm_flatMap_append k' group e
    · rw [if_neg hk, if_neg (Ne.symm hk), List.flatMap_cons, List.flatMap_cons, List.append_assoc]
      exact (perm_flatMap_putEntry k e es).append_left group

/-- The groups together are the elements. -/
theorem perm_groupBy (key : ε → κ) (l : List ε) : ((groupBy key l).entries.flatMap Prod.snd).Perm l := by
  induction l using List.reverseRecOn with
  | nil => exact List.Perm.refl _
  | append_singleton l e ih =>
    rw [groupBy_concat]
    exact (perm_flatMap_putEntry (key e) e _).trans (ih.append_right [e])

theorem filter_key_eq_self {k : κ} {es : List (κ × ν)} (h : k ∉ es.map Prod.fst) :
    es.filter (fun e => e.1 ≠ k) = es :=
  List.filter_eq_self.mpr fun e he => decide_eq_true fun hk => h (List.mem_map.mpr ⟨e, he, hk⟩)

theorem perm_cons_filter_key {k : κ} {v : ν} : ∀ {es : List (κ × ν)}, (es.map Prod.fst).Nodup →
    (k, v) ∈ es → es.Perm ((k, v) :: es.filter fun e => e.1 ≠ k)
  | [], _, h => absurd h List.not_mem_nil
  | e :: es, hnodup, h => by
    obtain ⟨hnotin, hrest⟩ := List.nodup_cons.mp hnodup
    rcases List.mem_cons.mp h with rfl | hmem
    · rw [List.filter_cons_of_neg (by simp), filter_key_eq_self hnotin]
    · have hne : e.1 ≠ k := by
        rintro rfl
        exact hnotin (List.mem_map.mpr ⟨_, hmem, rfl⟩)
      rw [List.filter_cons_of_pos (by simpa using hne)]
      exact ((perm_cons_filter_key hrest hmem).cons e).trans (List.Perm.swap ..)

/-- A dictionary is one entry and the rest of it. -/
theorem perm_values_erase {d : Dict κ ν} {k : κ} {v : ν} (h : d.get? k = some v) :
    d.values.Perm (v :: (d.erase k).values) :=
  (perm_cons_filter_key d.nodupKeys ((get?_eq_some_iff d k v).mp h)).map Prod.snd

/-- `{**base, **upper}`. -/
def merge (base upper : Dict κ ν) : Dict κ ν := upper.entries.foldl (fun d e => d.set e.1 e.2) base

theorem get?_foldl_entries (k : κ) : ∀ (es : List (κ × ν)) (base : Dict κ ν), (es.map Prod.fst).Nodup →
    (es.foldl (fun d e => d.set e.1 e.2) base).get? k = (es.lookup k).or (base.get? k)
  | [], base, _ => rfl
  | e :: es, base, hnodup => by
    obtain ⟨hnotin, hrest⟩ := List.nodup_cons.mp hnodup
    rw [List.foldl_cons, get?_foldl_entries k es _ hrest, get?_set, lookup_cons_if]
    by_cases hk : k = e.1
    · have hnone : es.lookup k = none := by
        rw [List.lookup_eq_none_iff]
        rintro ⟨k', v⟩ hmem
        have hne : k' ≠ k := by
          rintro rfl
          exact hnotin (List.mem_map.mpr ⟨_, hmem, hk⟩)
        simpa using hne.symm
      rw [if_pos hk, if_pos hk, hnone]
      rfl
    · rw [if_neg hk, if_neg hk]

/-- A merge holds what is written over, and what the base holds elsewhere. -/
theorem get?_merge (base upper : Dict κ ν) (k : κ) :
    (base.merge upper).get? k = (upper.get? k).or (base.get? k) :=
  get?_foldl_entries k upper.entries base upper.nodupKeys

end Dict

end Lib
