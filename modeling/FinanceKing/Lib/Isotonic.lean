import Mathlib.Algebra.BigOperators.Group.List.Basic
import Mathlib.Algebra.Order.BigOperators.Group.List
import Mathlib.Algebra.Order.Field.Basic
import Mathlib.Data.List.Pairwise
import Mathlib.Tactic.Linarith
import Mathlib.Tactic.Positivity
import Mathlib.Tactic.Ring

/-! Monotone least squares. A weighted sample that is cut into blocks is fitted by the levels of its blocks:
    when the levels never fall and no beginning of a block lies below its level, that fit is the one
    non-decreasing sequence nearest to the sample. -/

namespace Lib

/-- A value observed with a weight. -/
structure Weighted (K : Type) where
  value : K
  weight : K

variable {K : Type}

/-- The weights of the sample, all observed at one level. -/
def levelled (level : K) (sample : List (Weighted K)) : List (Weighted K) :=
  sample.map fun o => ⟨level, o.weight⟩

/-- A block of the sample and the level it is fitted at. -/
structure Block (K : Type) where
  level : K
  members : List (Weighted K)

/-- Every observation at the level of its block. -/
def fitOf (blocks : List (Block K)) : List K :=
  blocks.flatMap fun block => List.replicate block.members.length block.level

def sampleOf (blocks : List (Block K)) : List (Weighted K) := blocks.flatMap Block.members

/-- The weights of the sample, each observed at the level of its block. -/
def fittedSample (blocks : List (Block K)) : List (Weighted K) :=
  blocks.flatMap fun block => levelled block.level block.members

theorem length_fitOf (blocks : List (Block K)) : (fitOf blocks).length = (sampleOf blocks).length := by
  simp [fitOf, sampleOf, List.length_flatMap]

theorem map_value_fittedSample (blocks : List (Block K)) :
    (fittedSample blocks).map Weighted.value = fitOf blocks := by
  simp [fittedSample, fitOf, levelled, List.map_flatMap, Function.comp_def]

theorem length_fittedSample (blocks : List (Block K)) :
    (fittedSample blocks).length = (sampleOf blocks).length := by
  simp [fittedSample, sampleOf, levelled, List.length_flatMap]

theorem pairwise_fitOf [Preorder K] {blocks : List (Block K)}
    (h : blocks.Pairwise fun earlier later => earlier.level ≤ later.level) :
    (fitOf blocks).Pairwise (· ≤ ·) := by
  refine List.pairwise_flatMap.mpr ⟨fun block _ => ?_, h.imp fun hle a ha b hb => ?_⟩
  · exact List.pairwise_replicate.mpr (.inr le_rfl)
  · rw [List.eq_of_mem_replicate ha, List.eq_of_mem_replicate hb]
    exact hle

section Algebra

variable [Field K]

def mass (sample : List (Weighted K)) : K := (sample.map Weighted.weight).sum

def weightedSum (sample : List (Weighted K)) : K := (sample.map fun o => o.value * o.weight).sum

/-- How far the sample lies above a level, by weight. -/
def excess (level : K) (sample : List (Weighted K)) : K :=
  (sample.map fun o => o.weight * (o.value - level)).sum

/-- The weighted squares of what a fit leaves of the sample. -/
def squares (sample : List (Weighted K)) (fit : List K) : K :=
  (List.zipWith (fun o level => o.weight * (o.value - level) ^ 2) sample fit).sum

/-- What is left of the sample above a level, paired with another fit. -/
def pairing (level : K) (sample : List (Weighted K)) (fit : List K) : K :=
  (List.zipWith (fun o other => o.weight * (o.value - level) * other) sample fit).sum

theorem mass_append (l m : List (Weighted K)) : mass (l ++ m) = mass l + mass m := by
  simp [mass]

theorem weightedSum_append (l m : List (Weighted K)) :
    weightedSum (l ++ m) = weightedSum l + weightedSum m := by
  simp [weightedSum]

theorem excess_append (level : K) (l m : List (Weighted K)) :
    excess level (l ++ m) = excess level l + excess level m := by
  simp [excess]

theorem excess_eq (level : K) : ∀ sample : List (Weighted K),
    excess level sample = weightedSum sample - mass sample * level
  | [] => by simp [excess, weightedSum, mass]
  | o :: sample => by
    have ih := excess_eq level sample
    simp only [excess, weightedSum, mass, List.map_cons, List.sum_cons] at ih ⊢
    rw [ih]
    ring

/-- Moving the level moves the excess by the mass. -/
theorem excess_shift (level other : K) (sample : List (Weighted K)) :
    excess other sample = excess level sample + mass sample * (level - other) := by
  rw [excess_eq, excess_eq]
  ring

/-- The squares around any sequence, by way of one level. -/
theorem squares_split (level : K) : ∀ {sample : List (Weighted K)} {fit : List K},
    fit.length = sample.length →
    squares sample fit = squares sample (List.replicate sample.length level) +
      squares (levelled level sample) fit + 2 * (level * excess level sample - pairing level sample fit)
  | [], fit, _ => by simp [squares, levelled, excess, pairing]
  | o :: sample, [], hlength => by simp at hlength
  | o :: sample, next :: fit, hlength => by
    have ih := squares_split level (Nat.succ.inj hlength)
    simp only [squares, levelled, excess, pairing] at ih
    simp only [squares, levelled, excess, pairing, List.length_cons, List.replicate_succ, List.map_cons,
      List.zipWith_cons_cons, List.sum_cons]
    rw [ih]
    ring

theorem squares_append {l m : List (Weighted K)} {fit other : List K} (h : fit.length = l.length) :
    squares (l ++ m) (fit ++ other) = squares l fit + squares m other := by
  rw [squares, List.zipWith_append h.symm, List.sum_append]
  rfl

end Algebra

section Order

variable [Field K] [LinearOrder K] [IsStrictOrderedRing K]

theorem mass_nonneg {sample : List (Weighted K)} (h : ∀ o ∈ sample, 0 < o.weight) : 0 ≤ mass sample := by
  refine List.sum_nonneg fun w hw => ?_
  obtain ⟨o, ho, rfl⟩ := List.mem_map.mp hw
  exact (h o ho).le

theorem mass_pos {sample : List (Weighted K)} (h : ∀ o ∈ sample, 0 < o.weight) (hne : sample ≠ []) :
    0 < mass sample := by
  obtain ⟨o, rest, rfl⟩ := List.exists_cons_of_ne_nil hne
  have hrest := mass_nonneg fun other hother => h other (List.mem_cons_of_mem _ hother)
  have hfirst := h o List.mem_cons_self
  rw [mass, List.map_cons, List.sum_cons]
  exact add_pos_of_pos_of_nonneg hfirst hrest

/-! ### Blocks -/

/-- The level balances the block, and no beginning of the block lies below it. -/
structure FrontHeavy (level : K) (sample : List (Weighted K)) : Prop where
  front : ∀ front rest, sample = front ++ rest → 0 ≤ excess level front
  balanced : excess level sample = 0

omit [IsStrictOrderedRing K] in
theorem frontHeavy_single (o : Weighted K) : FrontHeavy o.value [o] := by
  have hzero : excess o.value [o] = 0 := by simp [excess]
  refine ⟨fun front rest h => ?_, hzero⟩
  cases front with
  | nil => simp [excess]
  | cons first front =>
    obtain ⟨rfl, hnil⟩ := List.cons_eq_cons.mp h
    obtain ⟨rfl, -⟩ := List.append_eq_nil_iff.mp hnil.symm
    exact hzero.ge

/-- A block whose level is not above the one before it is pooled with it at the level that balances both. -/
theorem FrontHeavy.append {a b c : K} {l m : List (Weighted K)} (hl : FrontHeavy a l) (hm : FrontHeavy b m)
    (hle : b ≤ a) (hlpos : ∀ o ∈ l, 0 < o.weight) (hmpos : ∀ o ∈ m, 0 < o.weight) (hlne : l ≠ [])
    (hmne : m ≠ []) (hc : excess c (l ++ m) = 0) : FrontHeavy c (l ++ m) := by
  have hlmass := mass_pos hlpos hlne
  have hmmass := mass_pos hmpos hmne
  have hbalance : mass l * (a - c) = mass m * (c - b) := by
    have hsum := hc
    rw [excess_append, excess_shift a c l, excess_shift b c m, hl.balanced, hm.balanced] at hsum
    linarith
  have hbelow : c ≤ a := by
    by_contra hlt
    have hneg : mass l * (a - c) < 0 := mul_neg_of_pos_of_neg hlmass (by linarith)
    have hpos : 0 ≤ mass m * (c - b) := mul_nonneg hmmass.le (by linarith)
    linarith
  have habove : b ≤ c := by
    have hpos : 0 ≤ mass m * (c - b) := hbalance ▸ mul_nonneg hlmass.le (by linarith)
    linarith [nonneg_of_mul_nonneg_right hpos hmmass]
  refine ⟨fun front rest h => ?_, hc⟩
  rcases List.append_eq_append_iff.mp h with ⟨within, rfl, rfl⟩ | ⟨within, rfl, rfl⟩
  · -- the beginning runs into the second block
    have hfront := hm.front within rest rfl
    have hrest : 0 ≤ mass rest * (c - b) :=
      mul_nonneg (mass_nonneg fun o ho => hmpos o (List.mem_append_right _ ho)) (by linarith)
    rw [mass_append] at hbalance
    rw [excess_append, excess_shift a c l, excess_shift b c within, hl.balanced]
    linarith
  · have hfront := hl.front front within rfl
    have hmore : 0 ≤ mass front * (a - c) :=
      mul_nonneg (mass_nonneg fun o ho => hlpos o (List.mem_append_left _ ho)) (by linarith)
    rw [excess_shift a]
    linarith

/-- What a block leaves above its level does not grow along with a sequence that does not fall; `carried` is
    the excess of what went before. -/
theorem pairing_le : ∀ {sample : List (Weighted K)} {fit : List K} {level carried floor : K},
    fit.length = sample.length → (floor :: fit).Pairwise (· ≤ ·) →
    (∀ front rest, sample = front ++ rest → 0 ≤ carried + excess level front) →
    carried + excess level sample = 0 → pairing level sample fit ≤ -(carried * floor)
  | [], fit, level, carried, floor, _, _, _, hzero => by
    have hcarried : carried = 0 := by simpa [excess] using hzero
    simp [pairing, hcarried]
  | o :: sample, [], _, _, _, hlength, _, _, _ => by simp at hlength
  | o :: sample, next :: fit, level, carried, floor, hlength, hmono, hfront, hzero => by
    have hstart : 0 ≤ carried := by simpa [excess] using hfront [] _ rfl
    have hhead : floor ≤ next := (List.pairwise_cons.mp hmono).1 next List.mem_cons_self
    have hrest : pairing level sample fit ≤ -((carried + o.weight * (o.value - level)) * next) := by
      refine pairing_le (Nat.succ.inj hlength) (List.pairwise_cons.mp hmono).2 (fun front rest h => ?_) ?_
      · have hcons := hfront (o :: front) rest (by rw [h]; rfl)
        rw [excess, List.map_cons, List.sum_cons] at hcons
        rw [add_assoc]
        exact hcons
      · rw [excess, List.map_cons, List.sum_cons] at hzero
        rw [add_assoc]
        exact hzero
    have hscaled : carried * floor ≤ carried * next := mul_le_mul_of_nonneg_left hhead hstart
    rw [pairing, List.zipWith_cons_cons, List.sum_cons]
    rw [pairing] at hrest
    linarith

theorem FrontHeavy.pairing_nonpos {level : K} {sample : List (Weighted K)} (h : FrontHeavy level sample)
    {fit : List K} (hlength : fit.length = sample.length) (hmono : fit.Pairwise (· ≤ ·)) :
    pairing level sample fit ≤ 0 := by
  cases fit with
  | nil =>
    obtain rfl := List.length_eq_zero_iff.mp hlength.symm
    simp [pairing]
  | cons first fit =>
    have hfloor : (first :: first :: fit).Pairwise (· ≤ ·) := by
      refine List.pairwise_cons.mpr ⟨fun other hother => ?_, hmono⟩
      rcases List.mem_cons.mp hother with rfl | htail
      · exact le_rfl
      · exact (List.pairwise_cons.mp hmono).1 other htail
    have hle := pairing_le hlength hfloor (fun front rest hfront => by
      rw [zero_add]
      exact h.front front rest hfront) (by rw [zero_add, h.balanced])
    linarith

theorem squares_nonneg : ∀ {sample : List (Weighted K)} {fit : List K}, (∀ o ∈ sample, 0 < o.weight) →
    0 ≤ squares sample fit
  | [], _, _ => by simp [squares]
  | _ :: _, [], _ => by simp [squares]
  | o :: sample, next :: fit, hpos => by
    have hrest : 0 ≤ squares sample fit :=
      squares_nonneg fun other hother => hpos other (List.mem_cons_of_mem _ hother)
    have hfirst := mul_nonneg (hpos o List.mem_cons_self).le (sq_nonneg (o.value - next))
    rw [squares, List.zipWith_cons_cons, List.sum_cons]
    exact add_nonneg hfirst hrest

/-- Positive weights leave nothing only where the fit is the sample. -/
theorem eq_of_squares_nonpos : ∀ {sample : List (Weighted K)} {fit : List K},
    (∀ o ∈ sample, 0 < o.weight) → fit.length = sample.length → squares sample fit ≤ 0 →
    fit = sample.map Weighted.value
  | [], fit, _, hlength, _ => List.length_eq_zero_iff.mp hlength
  | _ :: _, [], _, hlength, _ => by simp at hlength
  | o :: sample, next :: fit, hpos, hlength, hzero => by
    have hweight := hpos o List.mem_cons_self
    have htail : ∀ other ∈ sample, 0 < other.weight := fun other hother =>
      hpos other (List.mem_cons_of_mem _ hother)
    have hrest : 0 ≤ squares sample fit := squares_nonneg htail
    have hfirst := mul_nonneg hweight.le (sq_nonneg (o.value - next))
    rw [squares, List.zipWith_cons_cons, List.sum_cons] at hzero
    rw [squares] at hrest
    have hsame : o.value - next = 0 := by
      have hsquare : o.weight * (o.value - next) ^ 2 = 0 := le_antisymm (by linarith) hfirst
      exact pow_eq_zero_iff (two_ne_zero) |>.mp ((mul_eq_zero.mp hsquare).resolve_left hweight.ne')
    rw [List.map_cons, eq_of_squares_nonpos htail (Nat.succ.inj hlength) (by rw [squares]; linarith),
      ← sub_eq_zero.mp hsame]

/-! ### The fit of a sample cut into blocks -/

omit [IsStrictOrderedRing K] in
theorem weights_fittedSample {blocks : List (Block K)} (h : ∀ o ∈ sampleOf blocks, 0 < o.weight) :
    ∀ o ∈ fittedSample blocks, 0 < o.weight := by
  intro o ho
  obtain ⟨block, hblock, hmem⟩ := List.mem_flatMap.mp ho
  obtain ⟨member, hmember, rfl⟩ := List.mem_map.mp hmem
  exact h member (List.mem_flatMap.mpr ⟨block, hblock, hmember⟩)

/-- A sequence that does not fall is no nearer to the sample than the levels of front-heavy blocks are, by at
    least what it differs from them. -/
theorem squares_fitOf_add_le : ∀ {blocks : List (Block K)} {fit : List K},
    (∀ block ∈ blocks, FrontHeavy block.level block.members) →
    fit.length = (sampleOf blocks).length → fit.Pairwise (· ≤ ·) →
    squares (sampleOf blocks) (fitOf blocks) + squares (fittedSample blocks) fit ≤
      squares (sampleOf blocks) fit
  | [], fit, _, _, _ => by simp [sampleOf, fitOf, fittedSample, squares]
  | block :: blocks, fit, hheavy, hlength, hmono => by
    obtain ⟨here, later, rfl, hhere⟩ : ∃ here later, fit = here ++ later ∧
        here.length = block.members.length := by
      refine ⟨fit.take block.members.length, fit.drop block.members.length,
        (List.take_append_drop _ _).symm, ?_⟩
      rw [List.length_take, hlength, sampleOf, List.flatMap_cons, List.length_append]
      omega
    have hlater : later.length = (sampleOf blocks).length := by
      rw [List.length_append, sampleOf, List.flatMap_cons, List.length_append, hhere] at hlength
      exact Nat.add_left_cancel hlength
    obtain ⟨hmonoHere, hmonoLater, -⟩ := List.pairwise_append.mp hmono
    have hblock := hheavy block List.mem_cons_self
    have hrest := squares_fitOf_add_le (fun other hother => hheavy other (List.mem_cons_of_mem _ hother))
      hlater hmonoLater
    have hpaired := hblock.pairing_nonpos hhere hmonoHere
    have hsplit := squares_split block.level hhere
    rw [hblock.balanced, mul_zero, zero_sub] at hsplit
    have hsample : sampleOf (block :: blocks) = block.members ++ sampleOf blocks := rfl
    have hfit : fitOf (block :: blocks) =
        List.replicate block.members.length block.level ++ fitOf blocks := rfl
    have hfitted : fittedSample (block :: blocks) =
        levelled block.level block.members ++ fittedSample blocks := rfl
    rw [hsample, hfit, hfitted, squares_append List.length_replicate, squares_append hhere,
      squares_append (by rw [hhere, levelled, List.length_map])]
    linarith

/-- The one non-decreasing sequence nearest to a sample. -/
structure IsotonicFit (sample : List (Weighted K)) (fit : List K) : Prop where
  length : fit.length = sample.length
  monotone : fit.Pairwise (· ≤ ·)
  least : ∀ other : List K, other.length = sample.length → other.Pairwise (· ≤ ·) →
    squares sample fit ≤ squares sample other
  unique : ∀ other : List K, other.length = sample.length → other.Pairwise (· ≤ ·) →
    squares sample other ≤ squares sample fit → other = fit

/-- Front-heavy blocks whose levels never fall fit their sample. -/
theorem isotonicFit_of_blocks {blocks : List (Block K)}
    (hheavy : ∀ block ∈ blocks, FrontHeavy block.level block.members)
    (hlevels : blocks.Pairwise fun earlier later => earlier.level ≤ later.level)
    (hpos : ∀ o ∈ sampleOf blocks, 0 < o.weight) : IsotonicFit (sampleOf blocks) (fitOf blocks) where
  length := length_fitOf blocks
  monotone := pairwise_fitOf hlevels
  least := fun other hlength hmono => by
    have hle := squares_fitOf_add_le hheavy hlength hmono
    have hapart : 0 ≤ squares (fittedSample blocks) other := squares_nonneg (weights_fittedSample hpos)
    linarith
  unique := fun other hlength hmono hno => by
    have hle := squares_fitOf_add_le hheavy hlength hmono
    rw [← map_value_fittedSample]
    exact eq_of_squares_nonpos (weights_fittedSample hpos) (by rw [hlength, length_fittedSample])
      (by linarith)

end Order

end Lib
