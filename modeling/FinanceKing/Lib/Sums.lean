import Mathlib

/-! Running maxima, a sum over a list taken one key at a time, and sums over the elements that pass a
    test. -/

namespace Lib

theorem foldl_max_eq {α : Type} [LinearOrder α] {l : List α} {a b : α} (hb : b = a ∨ b ∈ l) (ha : a ≤ b)
    (hl : ∀ c ∈ l, c ≤ b) : l.foldl max a = b := by
  induction l generalizing a with
  | nil => exact (hb.resolve_right List.not_mem_nil).symm
  | cons c l ih =>
    have hc : c ≤ b := hl c List.mem_cons_self
    refine ih ?_ (max_le ha hc) fun d hd => hl d (List.mem_cons_of_mem _ hd)
    rcases hb with rfl | hb
    · exact .inl (max_eq_left hc).symm
    · rcases List.mem_cons.mp hb with rfl | hb
      · exact .inl (max_eq_right ha).symm
      · exact .inr hb

section Grouped

variable {κ β α : Type} [DecidableEq κ] [AddCommMonoid α] (key : β → κ) (g : β → α)

theorem sum_map_ite_of_nodup {ks : List κ} (hks : ks.Nodup) {k : κ} (hk : k ∈ ks) (a : α) :
    (ks.map fun k' => if k' = k then a else 0).sum = a := by
  induction ks with
  | nil => cases hk
  | cons k' ks ih =>
    obtain ⟨hnotin, hrest⟩ := List.nodup_cons.mp hks
    rw [List.map_cons, List.sum_cons]
    rcases List.mem_cons.mp hk with rfl | hmem
    · have hzero : (ks.map fun k' => if k' = k then a else 0) = ks.map fun _ => 0 := by
        refine List.map_congr_left fun j hj => if_neg ?_
        rintro rfl
        exact hnotin hj
      simp [hzero]
    · have hne : k' ≠ k := fun heq => hnotin (heq ▸ hmem)
      rw [if_neg hne, zero_add, ih hrest hmem]

/-- When the keys of a list are among some distinct ones, its sum is the sum of the keys' parts. -/
theorem sum_by_key {ks : List κ} (hks : ks.Nodup) : ∀ l : List β, (∀ b ∈ l, key b ∈ ks) →
    (l.map g).sum = (ks.map fun k => ((l.filter fun b => key b = k).map g).sum).sum
  | [], _ => by simp
  | b :: l, hl => by
    have hsplit : ∀ k, (((b :: l).filter fun b => key b = k).map g).sum =
        (if k = key b then g b else 0) + ((l.filter fun b => key b = k).map g).sum := by
      intro k
      by_cases hk : key b = k
      · simp [hk]
      · simp [hk, Ne.symm hk]
    rw [List.map_cons, List.sum_cons, sum_by_key hks l fun c hc => hl c (List.mem_cons_of_mem _ hc)]
    simp only [hsplit, List.sum_map_add]
    rw [sum_map_ite_of_nodup hks (hl b List.mem_cons_self)]

end Grouped

/-! ### A sum over the elements that pass -/

theorem sum_filter_le {α : Type} {p q : α → Prop} [DecidablePred p] [DecidablePred q] {f : α → ℕ}
    (hpq : ∀ a, p a → q a) (l : List α) :
    ((l.filter p).map f).sum ≤ ((l.filter q).map f).sum := by
  induction l with
  | nil => exact le_rfl
  | cons a l ih =>
    by_cases ha : p a
    · simpa [ha, hpq a ha] using ih
    · by_cases hb : q a
      · simp only [List.filter_cons, ha, hb, decide_true, decide_false, if_true, Bool.false_eq_true,
          if_false, List.map_cons, List.sum_cons]
        omega
      · simpa [ha, hb] using ih

theorem sum_filter_add_le {α : Type} {p q : α → Prop} [DecidablePred p] [DecidablePred q] {f : α → ℕ}
    (hpq : ∀ a, p a → q a) {l : List α} {a : α} (ha : a ∈ l) (hp : ¬p a) (hq : q a) :
    ((l.filter p).map f).sum + f a ≤ ((l.filter q).map f).sum := by
  induction l with
  | nil => cases ha
  | cons b l ih =>
    have hrest := sum_filter_le (f := f) hpq l
    rcases List.mem_cons.mp ha with rfl | hmem
    · simp only [List.filter_cons, hp, hq, decide_true, decide_false, if_true, Bool.false_eq_true,
        if_false, List.map_cons, List.sum_cons]
      omega
    · have hmore := ih hmem
      by_cases hb : p b
      · simp only [List.filter_cons, hb, hpq b hb, decide_true, if_true, List.map_cons, List.sum_cons]
        omega
      · by_cases hb' : q b
        · simp only [List.filter_cons, hb, hb', decide_true, decide_false, if_true, Bool.false_eq_true,
            if_false, List.map_cons, List.sum_cons]
          omega
        · simpa [hb, hb'] using hmore

end Lib

/-! Taking a wanted amount out of holdings one after another, each giving up what it has until nothing is
    wanted any more; and sums over a list taken through its positions. -/

namespace Lib

section Share

variable {K : Type} [AddCommGroup K] [LinearOrder K]

/-- What a holding gives up when this much is still wanted. -/
def share (capacity wanted : K) : K := min capacity (max 0 wanted)

theorem share_le (capacity wanted : K) : share capacity wanted ≤ capacity := min_le_left _ _

theorem share_nonneg {capacity : K} (hc : 0 ≤ capacity) (wanted : K) : 0 ≤ share capacity wanted :=
  le_min hc (le_max_left _ _)

/-- What is wanted after a holding has given up its share. -/
theorem wanted_sub_share [IsOrderedAddMonoid K] {capacity : K} (hc : 0 ≤ capacity) (wanted : K) :
    max 0 wanted - share capacity wanted = max 0 (wanted - capacity) := by
  rw [share]
  rcases le_total wanted 0 with hw | hw
  · rw [max_eq_left hw, min_eq_right hc, sub_zero, max_eq_left (sub_nonpos.mpr (hw.trans hc))]
  · rw [max_eq_right hw]
    rcases le_total capacity wanted with hle | hle
    · rw [min_eq_left hle, max_eq_right (sub_nonneg.mpr hle)]
    · rw [min_eq_right hle, sub_self, max_eq_left (sub_nonpos.mpr hle)]

end Share

section Sums

variable {α K : Type} [AddCommMonoid K]

/-- A sum over a list's positions is the sum over the list. -/
theorem sum_range_getElem? (f : α → K) (l : List α) :
    ((List.range l.length).map fun i => l[i]?.elim 0 f).sum = (l.map f).sum := by
  induction l with
  | nil => rfl
  | cons a l ih =>
    rw [List.length_cons, List.range_succ_eq_map, List.map_cons, List.map_map, List.sum_cons, List.map_cons,
      List.sum_cons, ← ih]
    rfl

/-- A sum over the elements kept is the sum in which the others count for nothing. -/
theorem sum_filter_eq_ite (p : α → Bool) (f : α → K) (l : List α) :
    ((l.filter p).map f).sum = (l.map fun a => if p a then f a else 0).sum := by
  induction l with
  | nil => rfl
  | cons a l ih =>
    rw [List.filter_cons, List.map_cons, List.sum_cons, ← ih]
    split
    · rw [List.map_cons, List.sum_cons]
    · rw [zero_add]

end Sums

/-- In a strictly ascending list the elements before one are those of a smaller key. -/
theorem filter_lt_of_ascending {α β : Type} [LinearOrder β] (key : α → β) {pre post : List α} {a : α}
    (h : (pre ++ a :: post).Pairwise fun x y => key x < key y) :
    (pre ++ a :: post).filter (fun x => key x < key a) = pre := by
  rw [List.pairwise_append, List.pairwise_cons] at h
  obtain ⟨_, ⟨hpost, _⟩, hpre⟩ := h
  rw [List.filter_append, List.filter_cons, if_neg (by simp), List.filter_eq_self.mpr, List.filter_eq_nil_iff.mpr,
    List.append_nil]
  · exact fun x hx => by simpa using (hpost x hx).le
  · exact fun x hx => decide_eq_true (hpre x hx a List.mem_cons_self)

end Lib

/-! Signed holdings of a finite set of keys, weighed by what a unit of each is worth, and what one trade does
    to their gross and net value. -/

namespace Lib

variable {κ K : Type} [DecidableEq κ] [CommRing K] [LinearOrder K] [IsStrictOrderedRing K]

/-- The value of some holdings, whichever way they point. -/
def grossValue (keys : Finset κ) (worth held : κ → K) : K := ∑ k ∈ keys, worth k * |held k|

/-- The value of some holdings, the short ones counted against the long ones. -/
def netValue (keys : Finset κ) (worth held : κ → K) : K := ∑ k ∈ keys, worth k * held k

/-- Holdings after so much was added to one of them. -/
def traded (held : κ → K) (key : κ) (amount : K) : κ → K := fun k => held k + if k = key then amount else 0

omit [LinearOrder K] [IsStrictOrderedRing K] in
theorem sum_single {keys : Finset κ} {key : κ} (h : key ∈ keys) (worth : κ → K) (amount : K) :
    ∑ k ∈ keys, worth k * (if k = key then amount else 0) = worth key * amount := by
  simp only [mul_ite, mul_zero, Finset.sum_ite_eq', if_pos h]

/-- A trade adds at most its own value to the gross, since it may also reduce a holding. -/
theorem grossValue_traded_le {keys : Finset κ} {worth : κ → K} (hworth : ∀ k ∈ keys, 0 ≤ worth k)
    {key : κ} (h : key ∈ keys) (held : κ → K) (amount : K) :
    grossValue keys worth (traded held key amount) ≤ grossValue keys worth held + worth key * |amount| := by
  rw [grossValue, grossValue, ← sum_single h worth |amount|, ← Finset.sum_add_distrib]
  refine Finset.sum_le_sum fun k hk => ?_
  rw [← mul_add]
  refine mul_le_mul_of_nonneg_left ((abs_add_le _ _).trans_eq ?_) (hworth k hk)
  rw [apply_ite abs, abs_zero]

omit [LinearOrder K] [IsStrictOrderedRing K] in
/-- A trade adds its own signed value to the net. -/
theorem netValue_traded {keys : Finset κ} {key : κ} (h : key ∈ keys) (worth held : κ → K) (amount : K) :
    netValue keys worth (traded held key amount) = netValue keys worth held + worth key * amount := by
  rw [netValue, netValue, ← sum_single h worth amount, ← Finset.sum_add_distrib]
  exact Finset.sum_congr rfl fun k _ => mul_add _ _ _

end Lib
