import FinanceKing.Domain.Results
import FinanceKing.Lib.Sums
import FinanceKing.Risk.CalibratedBand
import FinanceKing.Risk.Calibration

/-! The buckets of a fit: bounds drawn from the convictions themselves, ascending up to the highest, and every
    trade in the one bucket that a look-up of its conviction finds. -/

namespace FinanceKing.Risk

open Lib

theorem pyIndex_natCast {α : Type} {l : List α} {n : ℕ} {a : α} (h : l[n]? = some a) (typeName : String) :
    pyIndex typeName l n = .ok a := by
  rw [pyIndex]
  simp only [Int.natCast_nonneg, not_lt.mpr, if_false, Int.toNat_natCast, h]

theorem pyIndex_last {α : Type} {l : List α} {a : α} (h : l.getLast? = some a) (typeName : String) :
    pyIndex typeName l (-1) = .ok a := by
  have hne : l ≠ [] := by
    rintro rfl
    cases h
  have hlength := List.length_pos_iff.mpr hne
  have hlast : l[(-1 + (l.length : ℤ)).toNat]? = some a := by
    rw [← h, List.getLast?_eq_getElem?]
    congr 1
    omega
  rw [pyIndex]
  simp only [show (-1 : ℤ) < 0 by decide, if_true, show ¬(-1 + (l.length : ℤ) < 0) by omega, if_false, hlast]

/-! ### The bounds -/

/-- The bounds after so many deciles: ascending, each a conviction, the last at the end of its decile. -/
structure DecilesTo (ordered : List Decimal) (deciles : ℕ) (bounds : List Decimal) : Prop where
  ascending : bounds.Pairwise (· < ·)
  drawn : ∀ bound ∈ bounds, bound ∈ ordered
  last : if deciles = 0 then bounds = [] else
    bounds.getLast? = ordered[deciles * ordered.length / decileCount - 1]?

theorem pairwise_lt_concat {l : List Decimal} {a : Decimal} (h : l.Pairwise (· < ·))
    (hlast : ∀ b ∈ l.getLast?, b < a) : (l ++ [a]).Pairwise (· < ·) := by
  rw [List.pairwise_append]
  refine ⟨h, List.pairwise_singleton _ _, fun b hb c hc => ?_⟩
  rw [List.mem_singleton.mp hc]
  rcases List.eq_nil_or_concat l with rfl | ⟨front, last, rfl⟩
  · cases hb
  · rw [List.concat_eq_append] at h hb hlast
    have hbelow := hlast last (by simp)
    rcases List.mem_append.mp hb with hfront | hend
    · exact ((List.pairwise_append.mp h).2.2 b hfront last (List.mem_singleton_self _)).trans hbelow
    · rwa [List.mem_singleton.mp hend]

/-- One more decile: its end is a bound unless it ties with the last one. -/
theorem DecilesTo.append {ordered : List Decimal} {deciles : ℕ} {bounds : List Decimal}
    (h : DecilesTo ordered deciles bounds) (hsorted : ordered.Pairwise (· ≤ ·))
    (henough : decileCount ≤ ordered.length) (hdeciles : deciles < decileCount) :
    ∃ next, appendBound ordered bounds (deciles + 1) = .ok next ∧ DecilesTo ordered (deciles + 1) next := by
  have hpositive : 1 ≤ (deciles + 1) * ordered.length / decileCount := by
    rw [Nat.one_le_div_iff (by decide)]
    exact henough.trans (Nat.le_mul_of_pos_left _ (Nat.succ_pos _))
  have hinside : (deciles + 1) * ordered.length / decileCount - 1 < ordered.length := by
    have hle : (deciles + 1) * ordered.length / decileCount ≤ ordered.length :=
      Nat.div_le_of_le_mul (Nat.mul_le_mul_right _ hdeciles)
    omega
  have hbound : ordered[(deciles + 1) * ordered.length / decileCount - 1]? =
      some ordered[(deciles + 1) * ordered.length / decileCount - 1] := List.getElem?_eq_getElem hinside
  have hindex := pyIndex_natCast hbound "list"
  rw [Nat.cast_sub hpositive, Nat.cast_one] at hindex
  generalize ordered[(deciles + 1) * ordered.length / decileCount - 1] = bound at hbound hindex
  -- the last bound so far lies no further than this one
  have hbelow : ∀ b ∈ bounds.getLast?, b ≤ bound := by
    intro b hb
    have hlast := h.last
    split at hlast
    · rw [hlast] at hb
      cases hb
    · rw [hlast] at hb
      have hle : deciles * ordered.length / decileCount - 1 ≤
          (deciles + 1) * ordered.length / decileCount - 1 :=
        Nat.sub_le_sub_right (Nat.div_le_div_right (Nat.mul_le_mul_right _ (Nat.le_succ _))) 1
      obtain ⟨hb', rfl⟩ := List.getElem?_eq_some_iff.mp hb
      obtain ⟨hbound', rfl⟩ := List.getElem?_eq_some_iff.mp hbound
      exact hsorted.rel_get_of_le (a := ⟨_, hb'⟩) (b := ⟨_, hbound'⟩) hle
  have hmem : bound ∈ ordered := List.mem_of_getElem? hbound
  rw [appendBound, hindex]
  refine ⟨_, rfl, ?_⟩
  split
  · next hall =>
    have hless : ∀ b ∈ bounds.getLast?, b < bound := by
      intro b hb
      rw [hb] at hall
      simpa using hall
    refine ⟨pairwise_lt_concat h.ascending hless, fun b hb => ?_, ?_⟩
    · rcases List.mem_append.mp hb with hold | hnew
      · exact h.drawn b hold
      · exact (List.mem_singleton.mp hnew) ▸ hmem
    · rw [if_neg (Nat.succ_ne_zero _), List.getLast?_concat, hbound]
  · next hties =>
    refine ⟨h.ascending, h.drawn, ?_⟩
    rw [if_neg (Nat.succ_ne_zero _), hbound]
    cases hlast : bounds.getLast? with
    | none =>
      rw [hlast] at hties
      exact absurd rfl hties
    | some b =>
      rw [hlast] at hties
      have hge : bound ≤ b := by simpa using hties
      rw [le_antisymm (hbelow b hlast) hge]

theorem foldlM_appendBound {ordered : List Decimal} (hsorted : ordered.Pairwise (· ≤ ·))
    (henough : decileCount ≤ ordered.length) : ∀ {deciles : ℕ}, deciles ≤ decileCount →
    ∃ bounds, (List.range' 1 deciles).foldlM (appendBound ordered) [] = .ok bounds ∧
      DecilesTo ordered deciles bounds
  | 0, _ => ⟨[], rfl, List.Pairwise.nil, fun _ hbound => absurd hbound List.not_mem_nil, rfl⟩
  | deciles + 1, hle => by
    obtain ⟨bounds, hbounds, hdeciles⟩ := foldlM_appendBound hsorted henough (Nat.le_of_succ_le hle)
    obtain ⟨next, hnext, hreached⟩ := hdeciles.append hsorted henough hle
    refine ⟨next, ?_, hreached⟩
    rw [List.range'_1_concat, List.foldlM_append, hbounds, Nat.add_comm 1]
    simpa using hnext

/-- The bounds of a sample of ten or more: ascending convictions, up to the highest. -/
structure Bounds (convictions bounds : List Decimal) : Prop where
  ascending : bounds.Pairwise (· < ·)
  drawn : ∀ bound ∈ bounds, bound ∈ convictions
  covers : ∀ conviction ∈ convictions, ∃ bound ∈ bounds, conviction ≤ bound

theorem decileUpperBounds_ok {convictions : List Decimal} (henough : decileCount ≤ convictions.length) :
    ∃ bounds, decileUpperBounds (sortBy id convictions) = .ok bounds ∧ Bounds convictions bounds := by
  have hlength : (sortBy id convictions).length = convictions.length := (perm_sortBy id convictions).length_eq
  have hsorted : (sortBy id convictions).Pairwise (· ≤ ·) := pairwise_sortBy id convictions
  obtain ⟨bounds, hbounds, hdeciles⟩ := foldlM_appendBound hsorted (hlength.symm ▸ henough) le_rfl
  refine ⟨bounds, hbounds, hdeciles.ascending, fun bound hbound => ?_, fun conviction hconviction => ?_⟩
  · exact (mem_sortBy id).mp (hdeciles.drawn bound hbound)
  · have hlast := hdeciles.last
    rw [if_neg (by decide), Nat.mul_div_cancel_left _ (by decide), ← List.getLast?_eq_getElem?] at hlast
    obtain ⟨highest, hhighest⟩ : ∃ highest, (sortBy id convictions).getLast? = some highest := by
      have hne := List.ne_nil_of_mem ((mem_sortBy id).mpr hconviction)
      exact Option.isSome_iff_exists.mp (by simpa using hne)
    rw [hhighest] at hlast
    exact ⟨highest, List.mem_of_getLast? hlast, le_of_getLast?_sortBy id hhighest hconviction⟩

/-! ### The bucket of a conviction -/

/-- `bisect_left` finds the first bound at or above the conviction. -/
theorem getElem?_bisectLeft {α : Type} (bound : α → Decimal) (conviction : Decimal) : ∀ l : List α,
    l[bisectLeft (l.map bound) conviction]? = l.find? fun a => conviction ≤ bound a
  | [] => rfl
  | a :: l => by
    have ih := getElem?_bisectLeft bound conviction l
    rw [bisectLeft] at ih ⊢
    by_cases hbelow : bound a < conviction
    · rw [List.map_cons, List.takeWhile_cons_of_pos (by simpa using hbelow), List.length_cons,
        List.getElem?_cons_succ, ih, List.find?_cons_of_neg (by simpa using hbelow)]
    · rw [List.map_cons, List.takeWhile_cons_of_neg (by simpa using hbelow), List.length_nil,
        List.getElem?_cons_zero, List.find?_cons_of_pos (by simpa using hbelow)]

theorem bisectLeft_lt {bounds : List Decimal} {conviction : Decimal}
    (h : ∃ bound ∈ bounds, conviction ≤ bound) : bisectLeft bounds conviction < bounds.length := by
  have hfind := getElem?_bisectLeft id conviction bounds
  rw [List.map_id] at hfind
  by_contra hge
  rw [List.getElem?_eq_none (not_lt.mp hge)] at hfind
  obtain ⟨bound, hmem, hle⟩ := h
  exact absurd (decide_eq_true hle) (List.find?_eq_none.mp hfind.symm bound hmem)

theorem bucketIndexFor_eq {bounds : List Decimal} {conviction : Decimal}
    (h : ∃ bound ∈ bounds, conviction ≤ bound) : bucketIndexFor conviction bounds = bisectLeft bounds conviction :=
  min_eq_left (Nat.le_sub_one_of_lt (bisectLeft_lt h))

/-- A bound is found at its own place. -/
theorem bisectLeft_bound : ∀ {bounds : List Decimal} {index : ℕ} {bound : Decimal},
    bounds.Pairwise (· < ·) → bounds[index]? = some bound → bisectLeft bounds bound = index
  | first :: rest, 0, bound, _, hbound => by
    obtain rfl := Option.some.inj hbound
    rw [bisectLeft, List.takeWhile_cons_of_neg (by simp), List.length_nil]
  | first :: rest, index + 1, bound, h, hbound => by
    obtain ⟨hfirst, hrest⟩ := List.pairwise_cons.mp h
    have ih := bisectLeft_bound hrest hbound
    rw [bisectLeft] at ih ⊢
    rw [List.takeWhile_cons_of_pos (by simpa using hfirst bound (List.mem_of_getElem? hbound)),
      List.length_cons, ih]

/-! ### The groups -/

theorem modify_map_range {α : Type} (f : ℕ → α) (count place : ℕ) (g : α → α) :
    ((List.range count).map f).modify place g =
      (List.range count).map fun i => if place = i then g (f i) else f i := by
  refine List.ext_getElem (by simp) fun i hi _ => ?_
  rw [List.getElem_modify, List.getElem_map, List.getElem_map, List.getElem_range]

/-- Appending each element to its group leaves every group the elements of its own place. -/
theorem foldl_modify_append {α : Type} (place : α → ℕ) (count : ℕ) : ∀ (l : List α) (f : ℕ → List α),
    l.foldl (fun grouped a => grouped.modify (place a) (· ++ [a])) ((List.range count).map f) =
      (List.range count).map fun i => f i ++ l.filter fun a => place a = i
  | [], f => by simp
  | a :: l, f => by
    rw [List.foldl_cons, modify_map_range, foldl_modify_append place count l]
    refine List.map_congr_left fun i _ => ?_
    by_cases hplace : place a = i
    · simp [hplace]
    · simp [hplace]

theorem groupTrades_eq (bounds : List Decimal) (eligible : List ClosedTrade) :
    groupTrades bounds eligible = (List.range bounds.length).map fun i =>
      eligible.filter fun trade => bucketIndexFor trade.reportedConviction bounds = i := by
  have hempty : (bounds.map fun _ => ([] : List ClosedTrade)) = (List.range bounds.length).map fun _ => [] := by
    simp [List.map_const']
  rw [groupTrades, hempty, foldl_modify_append]
  simp

/-- Every bound with the trades whose conviction falls in its bucket. -/
theorem zip_groupTrades (bounds : List Decimal) (eligible : List ClosedTrade) :
    bounds.zip (groupTrades bounds eligible) = bounds.zipIdx.map fun entry =>
      (entry.1, eligible.filter fun trade => bucketIndexFor trade.reportedConviction bounds = entry.2) := by
  rw [groupTrades_eq]
  refine List.ext_getElem (by simp) fun i hi hi' => ?_
  simp

/-- The trade that set a bound is in its bucket. -/
theorem exists_grouped {bounds : List Decimal} {eligible : List ClosedTrade}
    (h : Bounds (eligible.map (·.reportedConviction)) bounds) {bound : Decimal} {index : ℕ}
    (hbound : bounds[index]? = some bound) :
    (eligible.filter fun trade => bucketIndexFor trade.reportedConviction bounds = index) ≠ [] := by
  have hmem := List.mem_of_getElem? hbound
  obtain ⟨trade, htrade, hconviction⟩ := List.mem_map.mp (h.drawn bound hmem)
  refine List.ne_nil_of_mem (List.mem_filter.mpr ⟨htrade, ?_⟩)
  rw [hconviction, bucketIndexFor_eq ⟨bound, hmem, le_rfl⟩, bisectLeft_bound h.ascending hbound,
    decide_eq_true rfl]

end FinanceKing.Risk
