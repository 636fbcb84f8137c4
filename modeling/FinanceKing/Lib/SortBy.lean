import Mathlib

/-! Stable sorting by a key. A stable sort is a function of the multiset once the keys tell the
    elements apart, and it commutes with dropping elements; a left fold over a keyed state that
    touches one key an element reads, at each key, only the elements of that key. -/

namespace Lib

variable {α β : Type} [LinearOrder β]

/-- The elements in ascending order of `key`, equal keys in their given order. -/
def sortBy (key : α → β) (l : List α) : List α :=
  l.insertionSort (fun a b => key a ≤ key b)

variable (key : α → β)

instance totalBy : Std.Total (fun a b : α => key a ≤ key b) := ⟨fun a b => le_total (key a) (key b)⟩

instance isTransBy : IsTrans α (fun a b : α => key a ≤ key b) := ⟨fun _ _ _ h h' => le_trans h h'⟩

theorem perm_sortBy (l : List α) : (sortBy key l).Perm l := List.perm_insertionSort _ l

theorem mem_sortBy {l : List α} {a : α} : a ∈ sortBy key l ↔ a ∈ l := (perm_sortBy key l).mem_iff

theorem pairwise_sortBy (l : List α) : (sortBy key l).Pairwise (fun a b => key a ≤ key b) :=
  List.pairwise_insertionSort _ l

theorem sortBy_eq_self {l : List α} (h : l.Pairwise (fun a b => key a ≤ key b)) : sortBy key l = l :=
  h.insertionSort_eq

theorem orderedInsert_concat {a last : α} (h : key a ≤ key last) : ∀ l : List α,
    (l ++ [last]).orderedInsert (fun a b => key a ≤ key b) a =
      l.orderedInsert (fun a b => key a ≤ key b) a ++ [last]
  | [] => by rw [List.nil_append, List.orderedInsert_cons, if_pos h]; rfl
  | b :: l => by
    rw [List.cons_append, List.orderedInsert_cons, List.orderedInsert_cons, orderedInsert_concat h l]
    split <;> rfl

/-- An element whose key is at least every other sorts last. -/
theorem sortBy_concat {last : α} : ∀ {l : List α}, (∀ b ∈ l, key b ≤ key last) →
    sortBy key (l ++ [last]) = sortBy key l ++ [last]
  | [], _ => rfl
  | b :: l, h => by
    obtain ⟨hb, hl⟩ := List.forall_mem_cons.mp h
    have hrest := sortBy_concat hl
    rw [sortBy] at hrest ⊢
    rw [List.cons_append, List.insertionSort_cons, hrest, orderedInsert_concat key hb]
    rfl

/-- The elements of a set in ascending order. -/
def sortedSet [LinearOrder α] (s : Finset α) : List α := s.sort (· ≤ ·)

theorem sortedSet_inj [LinearOrder α] {s t : Finset α} : sortedSet s = sortedSet t ↔ s = t := by
  constructor
  · intro h
    rw [← Finset.sort_toFinset s (· ≤ ·), ← sortedSet, h, sortedSet, Finset.sort_toFinset]
  · rintro rfl
    rfl

/-- The last of the sorted elements carries the greatest key. -/
theorem le_of_getLast?_sortBy {l : List α} {a b : α} (h : (sortBy key l).getLast? = some a)
    (hb : b ∈ l) : key b ≤ key a := by
  obtain ⟨m, hm⟩ := List.getLast?_eq_some_iff.mp h
  have hsorted := pairwise_sortBy key l
  rw [hm, List.pairwise_append] at hsorted
  have hmem : b ∈ m ++ [a] := hm ▸ (mem_sortBy key).mpr hb
  rcases List.mem_append.mp hmem with hold | hnew
  · exact hsorted.2.2 b hold a (List.mem_singleton_self a)
  · exact (List.mem_singleton.mp hnew ▸ le_rfl)

/-- Two orders of the same elements sort alike when the keys tell the elements apart. -/
theorem sortBy_eq_of_perm {l₁ l₂ : List α} (h : l₁.Perm l₂)
    (hinj : ∀ a ∈ l₁, ∀ b ∈ l₁, key a = key b → a = b) : sortBy key l₁ = sortBy key l₂ := by
  have hp : (sortBy key l₁).Perm (sortBy key l₂) :=
    (perm_sortBy key l₁).trans (h.trans (perm_sortBy key l₂).symm)
  refine hp.eq_of_pairwise ?_ (pairwise_sortBy key l₁) (pairwise_sortBy key l₂)
  intro a b ha hb hab hba
  have ha' : a ∈ l₁ := (mem_sortBy key).mp ha
  have hb' : b ∈ l₁ := h.mem_iff.mpr ((mem_sortBy key).mp hb)
  exact hinj a ha' b hb' (le_antisymm hab hba)

/-- The first of the elements with the least key, which is `min` with a key. -/
def minBy (l : List α) : Option α := (sortBy key l).head?

theorem minBy_eq_none_iff {l : List α} : minBy key l = none ↔ l = [] := by
  rw [minBy, List.head?_eq_none_iff]
  constructor
  · intro h
    exact (h ▸ perm_sortBy key l).nil_eq.symm
  · rintro rfl
    rfl

theorem mem_of_minBy {l : List α} {a : α} (h : minBy key l = some a) : a ∈ l :=
  (mem_sortBy key).mp (List.mem_of_head? h)

/-- Nothing has a smaller key than the least element. -/
theorem le_of_minBy {l : List α} {a b : α} (h : minBy key l = some a) (hb : b ∈ l) :
    key a ≤ key b := by
  obtain ⟨rest, hrest⟩ := List.head?_eq_some_iff.mp h
  have hsorted := pairwise_sortBy key l
  have hmem : b ∈ sortBy key l := (mem_sortBy key).mpr hb
  rw [hrest, List.pairwise_cons] at hsorted
  rw [hrest, List.mem_cons] at hmem
  rcases hmem with rfl | hmem
  · exact le_rfl
  · exact hsorted.1 b hmem

/-- Among the elements with a property, one has the greatest key. -/
theorem exists_last {l : List α} (P : α → Prop) (h : ∃ a ∈ l, P a) :
    ∃ a ∈ l, P a ∧ ∀ b ∈ l, P b → key b ≤ key a := by
  have hfinite : {a | a ∈ l ∧ P a}.Finite := l.finite_toSet.subset fun a ha => ha.1
  obtain ⟨a, ha, hmax⟩ := Set.exists_max_image _ key hfinite h
  exact ⟨a, ha.1, ha.2, fun b hb hPb => hmax b ⟨hb, hPb⟩⟩

/-! ### Dropping elements -/

theorem orderedInsert_of_forall_le (a : α) : ∀ l : List α, (∀ b ∈ l, key a ≤ key b) →
    l.orderedInsert (fun a b => key a ≤ key b) a = a :: l
  | [], _ => rfl
  | b :: l, h => by rw [List.orderedInsert_cons, if_pos (h b List.mem_cons_self)]

theorem filter_orderedInsert (p : α → Bool) (a : α) : ∀ l : List α,
    l.Pairwise (fun a b => key a ≤ key b) →
    (l.orderedInsert (fun a b => key a ≤ key b) a).filter p =
      if p a then (l.filter p).orderedInsert (fun a b => key a ≤ key b) a else l.filter p
  | [], _ => by by_cases hp : p a <;> simp [hp]
  | b :: l, hl => by
    rw [List.pairwise_cons] at hl
    by_cases hab : key a ≤ key b
    · rw [List.orderedInsert_cons, if_pos hab, List.filter_cons]
      by_cases hp : p a
      · rw [if_pos hp, if_pos hp]
        -- everything kept stands above `a`, so `a` is inserted at the head of it too
        refine (orderedInsert_of_forall_le key a _ ?_).symm
        intro c hc
        rcases List.mem_cons.mp (List.mem_of_mem_filter hc) with rfl | hc
        · exact hab
        · exact le_trans hab (hl.1 c hc)
      · rw [if_neg hp, if_neg hp]
    · rw [List.orderedInsert_cons, if_neg hab, List.filter_cons, List.filter_cons,
        filter_orderedInsert p a l hl.2]
      by_cases hb : p b <;> by_cases hp : p a <;> simp [hb, hp, hab]

/-- Sorting commutes with dropping elements. -/
theorem filter_sortBy (p : α → Bool) (l : List α) :
    (sortBy key l).filter p = sortBy key (l.filter p) := by
  induction l with
  | nil => rfl
  | cons a l ih =>
    rw [sortBy, List.insertionSort_cons,
      filter_orderedInsert key p a _ (List.pairwise_insertionSort _ l), List.filter_cons]
    rw [sortBy] at ih
    by_cases hp : p a
    · rw [if_pos hp, if_pos hp, ih, sortBy, sortBy, List.insertionSort_cons]
    · rw [if_neg hp, if_neg hp, ih]

/-! ### Keys in strict order -/

/-- Distinct elements sorted by themselves ascend strictly. -/
theorem pairwise_lt_sortBy [LinearOrder α] {l : List α} (h : l.Nodup) :
    (sortBy (fun a => a) l).Pairwise (fun a b => a < b) := by
  have hnodup : (sortBy (fun a => a) l).Nodup := (perm_sortBy _ l).nodup_iff.mpr h
  exact ((pairwise_sortBy (fun a => a) l).and hnodup).imp fun hab => lt_of_le_of_ne hab.1 hab.2

theorem filterMap_eq_filterMap_filter {γ : Type} (f : α → Option γ) : ∀ l : List α,
    l.filterMap f = (l.filter (fun a => (f a).isSome)).filterMap f
  | [] => rfl
  | a :: l => by
    rw [List.filterMap_cons, List.filter_cons, filterMap_eq_filterMap_filter f l]
    cases hf : f a <;> simp [hf]

/-- Two lists with the same elements where `f` gives something, both ascending there, give the same. -/
theorem filterMap_eq_of_ascending {γ : Type} (f : α → Option γ) {l₁ l₂ : List α}
    (hmem : ∀ a, (f a).isSome → (a ∈ l₁ ↔ a ∈ l₂))
    (h₁ : l₁.Pairwise (fun a b => (f a).isSome → (f b).isSome → key a < key b))
    (h₂ : l₂.Pairwise (fun a b => (f a).isSome → (f b).isSome → key a < key b)) :
    l₁.filterMap f = l₂.filterMap f := by
  have hkept : ∀ {l : List α}, l.Pairwise (fun a b => (f a).isSome → (f b).isSome → key a < key b) →
      (l.filter (fun a => (f a).isSome)).Pairwise (fun a b => key a < key b) := fun h =>
    List.pairwise_filter.mpr h
  have hnodup : ∀ {l : List α}, l.Pairwise (fun a b => key a < key b) → l.Nodup := fun h =>
    h.imp fun hab => ne_of_apply_ne key (ne_of_lt hab)
  have hperm : (l₁.filter (fun a => (f a).isSome)).Perm (l₂.filter (fun a => (f a).isSome)) := by
    rw [List.perm_ext_iff_of_nodup (hnodup (hkept h₁)) (hnodup (hkept h₂))]
    intro a
    rw [List.mem_filter, List.mem_filter]
    exact and_congr_left fun hsome => hmem a hsome
  have heq := hperm.eq_of_pairwise (fun a b _ _ hab hba => absurd hba (lt_asymm hab)) (hkept h₁)
    (hkept h₂)
  rw [filterMap_eq_filterMap_filter f l₁, heq, ← filterMap_eq_filterMap_filter]

end Lib
