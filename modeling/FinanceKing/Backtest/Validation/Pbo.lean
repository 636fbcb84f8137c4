import FinanceKing.Domain.Guards
import FinanceKing.Domain.Results
import FinanceKing.Lib.Rounding
import FinanceKing.Lib.Ranks
import FinanceKing.Lib.SortBy
import Mathlib.Analysis.SpecialFunctions.Log.Basic
import Mathlib.Data.List.FinRange
import Mathlib.Data.List.MinMax

/-! The probability of backtest overfitting: the share of paths on which the configuration that was best in
    sample fails to beat the median out of sample. Only the logarithm leaves the decimals. -/

namespace FinanceKing.Backtest

open Lib

structure PathSplitFields where
  inSampleSharpe : List Decimal
  outOfSampleSharpe : List Decimal
  deriving DecidableEq

def PathSplitFields.postInit (self : PathSplitFields) : PyResult Unit := do
  raiseIf (self.inSampleSharpe.length ≠ self.outOfSampleSharpe.length) .pathSplitMalformed
    ["split scores ", .count self.inSampleSharpe.length, " configurations in sample and ",
      .count self.outOfSampleSharpe.length, " out of sample; the vectors are indexed by configuration and " ++
      "cannot be aligned by position"]
  raiseIf (self.inSampleSharpe.length < 2) .pathSplitMalformed
    ["a split over ", .count self.inSampleSharpe.length, " configuration(s) has no median to underperform; " ++
      "PBO measures a ranking, not a score"]

/-- One path: every configuration scored in sample and out of sample, in one order. -/
structure PathSplit extends PathSplitFields where
  checked : toPathSplitFields.postInit = .ok ()
  deriving DecidableEq

theorem PathSplitFields.postInit_eq_ok {self : PathSplitFields} : self.postInit = .ok () ↔
    self.inSampleSharpe.length = self.outOfSampleSharpe.length ∧ 2 ≤ self.inSampleSharpe.length := by
  simp only [PathSplitFields.postInit, bind_eq_ok, raiseIf_eq_ok, not_not, not_lt, exists_const]

/-- The smallest step a published statistic takes. -/
def statisticQuantum : Decimal := 1 / 10 ^ 12

/-- The configuration a search would have selected; ties go to the lower index. -/
def winningConfigurationIndex (inSampleSharpe : List Decimal) : ℕ :=
  ((List.range inSampleSharpe.length).argmax fun index =>
    toLex (inSampleSharpe.getD index 0, OrderDual.toDual index)).getD 0

/-- The place of a configuration among the others, from one for the worst; ties resolve by index. -/
def outOfSampleRank (outOfSampleSharpe : List Decimal) (winnerIndex : ℕ) : ℕ :=
  (sortBy (fun index => toLex (outOfSampleSharpe.getD index 0, index))
    (List.range outOfSampleSharpe.length)).idxOf winnerIndex + 1

section

variable {K : Type} [Field K] [LinearOrder K] [FloorRing K] (log : K → K)

variable (K) in
omit [Field K] [LinearOrder K] [FloorRing K] in
/-- The statistic with the evidence of every path. -/
structure OverfittingProbability where
  splitCount : ℕ
  configurationCount : ℕ
  underperformingSplitCount : ℕ
  probabilityOfBacktestOverfitting : Decimal
  rankLogits : List K

/-- How far the winner fell, in the published resolution. -/
def logit (relativeRank : Decimal) : K :=
  snapWith roundHalfEven (statisticQuantum : K) (log ((relativeRank : K) / (1 - (relativeRank : K))))

/-- A list of indices as a message writes it. -/
def indexList (indices : List ℕ) : Message :=
  let counts : List Message := indices.map fun index => [.count (index : ℤ)]
  let separated : List Message := counts.intersperse [", "]
  (["["] : Message) ++ separated.flatten ++ (["]"] : Message)

def probabilityOfBacktestOverfitting (splits : List PathSplit) : PyResult (OverfittingProbability K) := do
  raiseIf (splits = []) .pathSplitMalformed
    ["PBO over zero splits is not a probability; a search with no CPCV paths has not been validated, which " ++
      "is a different statement from a low PBO"]
  let configurationCount := splits.head?.elim 0 fun split => split.inSampleSharpe.length
  let mismatched := (splits.zipIdx.filter fun entry => entry.1.inSampleSharpe.length ≠ configurationCount).map
    Prod.snd
  raiseIf (mismatched ≠ []) .pathSplitMalformed
    ((["splits "] : Message) ++ indexList mismatched ++
      ([" score a different number of configurations than split 0 (", .count configurationCount,
        "); the ranks would not be comparable across paths"] : Message))
  let divisor : Decimal := configurationCount + 1
  let logits := splits.map fun split =>
    logit log (outOfSampleRank split.outOfSampleSharpe (winningConfigurationIndex split.inSampleSharpe) / divisor)
  let underperformingSplitCount := logits.countP fun logit => logit ≤ 0
  return ⟨splits.length, configurationCount, underperformingSplitCount,
    snapWith roundHalfEven statisticQuantum (underperformingSplitCount / splits.length), logits⟩

end

end FinanceKing.Backtest

/-! Where the in-sample winner lands against the out-of-sample median. Its rank counts the configurations below
    it and those of lower index that tie with it, so a tie can lift it past a median it does not beat. -/

namespace FinanceKing.Backtest

open Lib

/-! ### The winner -/

theorem winningConfigurationIndex_spec {sharpes : List Decimal} (h : sharpes ≠ []) :
    winningConfigurationIndex sharpes < sharpes.length ∧ ∀ index < sharpes.length,
      sharpes.getD index 0 ≤ sharpes.getD (winningConfigurationIndex sharpes) 0 := by
  rw [winningConfigurationIndex]
  cases hwinner : (List.range sharpes.length).argmax fun index =>
      toLex (sharpes.getD index 0, OrderDual.toDual index) with
  | none => exact absurd (List.range_eq_nil.mp (List.argmax_eq_none.mp hwinner)) (List.length_pos_of_ne_nil h).ne'
  | some winner =>
    refine ⟨List.mem_range.mp (List.argmax_mem hwinner), fun index hindex => ?_⟩
    have hle := List.le_of_mem_argmax (List.mem_range.mpr hindex) hwinner
    rcases Prod.Lex.le_iff.mp hle with hlt | ⟨heq, -⟩
    · exact hlt.le
    · exact heq.le

/-- A configuration better than all others is the winner. -/
theorem winningConfigurationIndex_eq {sharpes : List Decimal} {winner : ℕ} (hwinner : winner < sharpes.length)
    (hbest : ∀ index < sharpes.length, index ≠ winner → sharpes.getD index 0 < sharpes.getD winner 0) :
    winningConfigurationIndex sharpes = winner := by
  have hne : sharpes ≠ [] := List.ne_nil_of_length_pos (Nat.zero_lt_of_lt hwinner)
  obtain ⟨hinside, hmax⟩ := winningConfigurationIndex_spec hne
  by_contra hother
  exact absurd (hmax winner hwinner) (not_le.mpr (hbest _ hinside hother))

namespace PathSplit

variable (self : PathSplit)

theorem length_eq : self.inSampleSharpe.length = self.outOfSampleSharpe.length :=
  (PathSplitFields.postInit_eq_ok.mp self.checked).1

theorem two_le : 2 ≤ self.inSampleSharpe.length := (PathSplitFields.postInit_eq_ok.mp self.checked).2

def winner : ℕ := winningConfigurationIndex self.inSampleSharpe

/-- One configuration is strictly the best in sample. -/
def HasUniqueWinner : Prop := ∀ index < self.inSampleSharpe.length, index ≠ self.winner →
  self.inSampleSharpe.getD index 0 < self.inSampleSharpe.getD self.winner 0

/-- What the winner scored out of sample. -/
def winnerSharpe : Decimal := self.outOfSampleSharpe.getD self.winner 0

/-- How many configurations did worse out of sample. -/
def below : ℕ := self.outOfSampleSharpe.countP (· < self.winnerSharpe)

/-- How many of lower index did as well. -/
def tiedBefore : ℕ := (self.outOfSampleSharpe.take self.winner).count self.winnerSharpe

/-- How many others did as well. -/
def tied : ℕ := self.outOfSampleSharpe.count self.winnerSharpe - 1

/-- Half of the other configurations. -/
def half : ℕ := (self.outOfSampleSharpe.length - 1) / 2

theorem winner_lt : self.winner < self.outOfSampleSharpe.length := by
  rw [← self.length_eq]
  exact (winningConfigurationIndex_spec (List.ne_nil_of_length_pos (Nat.zero_lt_of_lt self.two_le))).1

theorem winnerSharpe_mem : self.winnerSharpe ∈ self.outOfSampleSharpe := by
  rw [winnerSharpe, List.getD_eq_getElem _ _ self.winner_lt]
  exact List.getElem_mem _

/-- The winner fails to beat the median exactly when at most half of the others did worse. -/
theorem le_median_iff : self.winnerSharpe ≤ median self.outOfSampleSharpe ↔ self.below ≤ self.half :=
  Lib.le_median_iff self.winnerSharpe_mem

/-! ### Its rank -/

theorem countP_le {K : Type} [LinearOrder K] (bound : K) (l : List K) :
    l.countP (· ≤ bound) = l.countP (· < bound) + l.count bound := by
  induction l with
  | nil => rfl
  | cons a l ih =>
    rcases lt_trichotomy a bound with h | h | h
    · rw [List.countP_cons_of_pos (by simpa using h.le), List.countP_cons_of_pos (by simpa using h),
        List.count_cons_of_ne h.ne, ih]
      omega
    · subst h
      rw [List.countP_cons_of_pos (by simp), List.countP_cons_of_neg (by simp), List.count_cons_self, ih]
      omega
    · rw [List.countP_cons_of_neg (by simpa using h), List.countP_cons_of_neg (by simpa using h.le),
        List.count_cons_of_ne h.ne', ih]

theorem map_getD_range (l : List Decimal) {count : ℕ} (h : count ≤ l.length) :
    (List.range count).map (fun index => l.getD index 0) = l.take count := by
  refine List.ext_getElem (by simp [h]) fun index hleft hright => ?_
  have hindex : index < l.length := by
    rw [List.length_map, List.length_range] at hleft
    omega
  rw [List.getElem_map, List.getElem_range, List.getD_eq_getElem _ _ hindex, List.getElem_take]

theorem map_getD_drop (l : List Decimal) (count : ℕ) :
    (List.range (l.length - count)).map (fun index => l.getD (count + index) 0) = l.drop count := by
  refine List.ext_getElem (by simp) fun index hleft hright => ?_
  have hindex : count + index < l.length := by
    rw [List.length_map, List.length_range] at hleft
    omega
  rw [List.getElem_map, List.getElem_range, List.getD_eq_getElem _ _ hindex, List.getElem_drop]

/-- The rank counts those below the winner, and those that tie with it and come first. -/
theorem rank_eq : outOfSampleRank self.outOfSampleSharpe self.winner = self.below + self.tiedBefore + 1 := by
  have hwinner := self.winner_lt
  have hkey : Function.Injective fun index => toLex (self.outOfSampleSharpe.getD index 0, index) :=
    fun _ _ h => (Prod.mk.inj (toLex.injective h)).2
  have hsplit : List.range self.outOfSampleSharpe.length = List.range self.winner ++
      (List.range (self.outOfSampleSharpe.length - self.winner)).map (self.winner + ·) := by
    rw [← List.range_add, Nat.add_sub_cancel' hwinner.le]
  have hfirst : (List.range self.winner).countP (fun index =>
      toLex (self.outOfSampleSharpe.getD index 0, index) < toLex (self.winnerSharpe, self.winner)) =
      (self.outOfSampleSharpe.take self.winner).countP (· ≤ self.winnerSharpe) := by
    rw [← map_getD_range _ hwinner.le, List.countP_map]
    refine List.countP_congr fun index hindex => ?_
    have hlt := List.mem_range.mp hindex
    rw [decide_eq_true_eq, Function.comp_apply, decide_eq_true_eq, Prod.Lex.lt_iff, le_iff_lt_or_eq]
    exact or_congr_right (and_iff_left hlt)
  have hsecond : ((List.range (self.outOfSampleSharpe.length - self.winner)).map (self.winner + ·)).countP
      (fun index => toLex (self.outOfSampleSharpe.getD index 0, index) < toLex (self.winnerSharpe, self.winner)) =
      (self.outOfSampleSharpe.drop self.winner).countP (· < self.winnerSharpe) := by
    rw [← map_getD_drop, List.countP_map, List.countP_map]
    refine List.countP_congr fun index _ => ?_
    simp only [Function.comp_apply, decide_eq_true_eq, Prod.Lex.lt_iff, ofLex_toLex]
    exact or_iff_left fun h => absurd h.2 (by omega)
  have hbelow : self.below = (self.outOfSampleSharpe.take self.winner).countP (· < self.winnerSharpe) +
      (self.outOfSampleSharpe.drop self.winner).countP (· < self.winnerSharpe) := by
    rw [← List.countP_append, List.take_append_drop, below]
  rw [outOfSampleRank, idxOf_sortBy _ List.nodup_range hkey (List.mem_range.mpr hwinner)]
  refine congrArg (· + 1) ?_
  rw [hsplit, List.countP_append]
  refine (congrArg₂ (· + ·) hfirst hsecond).trans ?_
  rw [countP_le, hbelow, tiedBefore]
  omega

/-! ### The rounded logit -/

/-- The winner's rank is counted against the search: its logit rounds to zero or less. -/
def RanksLow : Prop :=
  Real.log ((self.below + self.tiedBefore + 1 : ℕ) /
    (self.outOfSampleSharpe.length + 1 - (self.below + self.tiedBefore + 1 : ℕ))) ≤ 5e-13

/-- Half a unit of the twelfth decimal. -/
theorem halfQuantum_eq : (5e-13 : ℝ) = 1 / (2 * 10 ^ 12) := by norm_num

theorem logit_nonpos_iff (relativeRank : Decimal) : logit Real.log relativeRank ≤ 0 ↔
    Real.log (relativeRank / (1 - relativeRank)) ≤ 1 / (2 * 10 ^ 12) := by
  have hquantum : (0 : ℝ) < (statisticQuantum : ℝ) := by
    rw [statisticQuantum]
    positivity
  rw [logit, snapWith, ← not_lt, mul_pos_iff_of_pos_right hquantum, not_lt]
  rw [show ((0 : ℝ)) = ((0 : ℤ) : ℝ) by norm_num, Int.cast_le, roundHalfEven_nonpos_iff, div_le_iff₀ hquantum,
    statisticQuantum]
  norm_num

/-- The path is counted exactly when the winner ranks low. -/
theorem logit_rank_nonpos_iff :
    logit Real.log (outOfSampleRank self.outOfSampleSharpe self.winner /
      ((self.inSampleSharpe.length : Decimal) + 1)) ≤ 0 ↔ self.RanksLow := by
  have hdivisor : (0 : ℝ) < (self.outOfSampleSharpe.length : ℝ) + 1 := by positivity
  rw [logit_nonpos_iff, RanksLow, halfQuantum_eq, self.rank_eq, self.length_eq]
  push_cast
  rw [one_sub_div hdivisor.ne', div_div_div_cancel_right₀ hdivisor.ne']

/-- Among at most so many configurations the rounding makes no difference. -/
theorem ranksLow_iff (hsize : self.outOfSampleSharpe.length ≤ 10 ^ 12) :
    self.RanksLow ↔ self.below + self.tiedBefore ≤ self.half := by
  have hrank : self.below + self.tiedBefore + 1 ≤ self.outOfSampleSharpe.length := by
    rw [← self.rank_eq, outOfSampleRank]
    have hlt := List.idxOf_lt_length_of_mem ((mem_sortBy fun index =>
      toLex (self.outOfSampleSharpe.getD index 0, index)).mpr (List.mem_range.mpr self.winner_lt))
    rwa [(perm_sortBy _ _).length_eq, List.length_range] at hlt
  rw [RanksLow, half, halfQuantum_eq]
  generalize self.below + self.tiedBefore = above at hrank ⊢
  generalize self.outOfSampleSharpe.length = size at hsize hrank ⊢
  have hleft : (0 : ℝ) < size + 1 - (above + 1 : ℕ) := by
    have : ((above + 1 : ℕ) : ℝ) ≤ size := by exact_mod_cast hrank
    linarith
  have hpositive : (0 : ℝ) < (above + 1 : ℕ) := by positivity
  constructor
  · intro h
    by_contra hover
    have hmore : (size : ℝ) + 2 ≤ 2 * (above + 1 : ℕ) := by
      have : size + 2 ≤ 2 * (above + 1) := by omega
      exact_mod_cast this
    have hsize : (size : ℝ) ≤ 10 ^ 12 := by exact_mod_cast hsize
    have hlog := Real.one_sub_inv_le_log_of_pos (div_pos hpositive hleft)
    rw [inv_div] at hlog
    have hratio : 1 / (2 * 10 ^ 12) <
        1 - ((size : ℝ) + 1 - (above + 1 : ℕ)) / (above + 1 : ℕ) := by
      rw [one_sub_div hpositive.ne', div_lt_div_iff₀ (by norm_num) hpositive]
      have hrank : ((above + 1 : ℕ) : ℝ) ≤ size := by exact_mod_cast hrank
      linarith
    linarith
  · intro h
    have hless : (2 : ℝ) * (above + 1 : ℕ) ≤ size + 1 := by
      have : 2 * (above + 1) ≤ size + 1 := by omega
      exact_mod_cast this
    refine (Real.log_nonpos (div_pos hpositive hleft).le ?_).trans (by norm_num)
    rw [div_le_one hleft]
    linarith

end PathSplit

/-! ### Rearranged configurations -/

/-- The configurations of a split in another order. -/
def PathSplitFields.rearranged {size : ℕ} (self : PathSplitFields) (order : Equiv.Perm (Fin size)) :
    PathSplitFields where
  inSampleSharpe := List.ofFn fun index => self.inSampleSharpe.getD (order index) 0
  outOfSampleSharpe := List.ofFn fun index => self.outOfSampleSharpe.getD (order index) 0

theorem perm_ofFn_getD {size : ℕ} (order : Equiv.Perm (Fin size)) {l : List Decimal} (h : l.length = size) :
    (List.ofFn fun index => l.getD (order index) 0).Perm l := by
  subst h
  have hget : (fun index : Fin l.length => l.getD index 0) = fun index => l[index] :=
    funext fun index => List.getD_eq_getElem _ _ index.isLt
  have hsame : (List.ofFn fun index : Fin l.length => l.getD index 0) = l := hget ▸ List.ofFn_getElem
  have hperm := order.ofFn_comp_perm fun index : Fin l.length => l.getD index 0
  rwa [hsame] at hperm

theorem getD_ofFn {size : ℕ} (f : Fin size → Decimal) {index : ℕ} (h : index < size) :
    (List.ofFn f).getD index 0 = f ⟨index, h⟩ := by
  rw [List.getD_eq_getElem _ _ (by simpa using h), List.getElem_ofFn]

namespace PathSplit

variable {size : ℕ} {order : Equiv.Perm (Fin size)} {split other : PathSplit}

/-- Every order of the configurations is a split. -/
theorem exists_rearranged (split : PathSplit) (order : Equiv.Perm (Fin size))
    (hsize : split.inSampleSharpe.length = size) :
    ∃ other : PathSplit, other.toPathSplitFields = split.rearranged order := by
  refine ⟨⟨split.rearranged order, PathSplitFields.postInit_eq_ok.mpr ⟨?_, ?_⟩⟩, rfl⟩
  · simp [PathSplitFields.rearranged]
  · have := split.two_le
    simp only [PathSplitFields.rearranged, List.length_ofFn]
    omega

/-- The one best configuration wins wherever it stands. -/
theorem winner_rearranged (hsize : split.inSampleSharpe.length = size) (hunique : split.HasUniqueWinner)
    (hother : other.toPathSplitFields = split.rearranged order) {place : Fin size}
    (hplace : (order place : ℕ) = split.winner) : other.winner = place := by
  have hin : other.inSampleSharpe = List.ofFn fun index => split.inSampleSharpe.getD (order index) 0 :=
    congrArg PathSplitFields.inSampleSharpe hother
  rw [winner, hin]
  refine winningConfigurationIndex_eq (by simp) fun index hindex hne => ?_
  rw [List.length_ofFn] at hindex
  rw [getD_ofFn _ hindex, getD_ofFn _ place.isLt, hplace]
  refine hunique _ (hsize ▸ (order ⟨index, hindex⟩).isLt) fun hsame => hne ?_
  have hsame : order ⟨index, hindex⟩ = order place := Fin.ext (hsame.trans hplace.symm)
  exact congrArg Fin.val (order.injective hsame)

/-- What the order of the configurations leaves alone when one is the best in sample. -/
structure SameStanding (split other : PathSplit) : Prop where
  sharpe : other.winnerSharpe = split.winnerSharpe
  perm : other.outOfSampleSharpe.Perm split.outOfSampleSharpe

theorem sameStanding (hsize : split.inSampleSharpe.length = size) (hunique : split.HasUniqueWinner)
    (hother : other.toPathSplitFields = split.rearranged order) : SameStanding split other := by
  have hwinner : split.winner < size := by
    rw [← hsize, split.length_eq]
    exact split.winner_lt
  have hplace : ((order (order.symm ⟨split.winner, hwinner⟩) : Fin size) : ℕ) = split.winner := by
    rw [Equiv.apply_symm_apply]
  have hout : other.outOfSampleSharpe = List.ofFn fun index => split.outOfSampleSharpe.getD (order index) 0 :=
    congrArg PathSplitFields.outOfSampleSharpe hother
  constructor
  · rw [winnerSharpe, winner_rearranged hsize hunique hother hplace, hout, getD_ofFn _ (Fin.isLt _), hplace,
      winnerSharpe]
  · rw [hout]
    exact perm_ofFn_getD order (split.length_eq ▸ hsize)

theorem SameStanding.below (h : SameStanding split other) : other.below = split.below := by
  rw [PathSplit.below, PathSplit.below, h.sharpe, h.perm.countP_eq]

theorem SameStanding.half (h : SameStanding split other) : other.half = split.half := by
  rw [PathSplit.half, PathSplit.half, h.perm.length_eq]

theorem SameStanding.tied (h : SameStanding split other) : other.tied = split.tied := by
  rw [PathSplit.tied, PathSplit.tied, h.sharpe, h.perm.count_eq]

/-- Those that tie and come first are among those that tie. -/
theorem tiedBefore_le_tied (split : PathSplit) : split.tiedBefore ≤ split.tied := by
  have hlt := split.winner_lt
  have hcount : split.outOfSampleSharpe.count split.winnerSharpe =
      (split.outOfSampleSharpe.take split.winner).count split.winnerSharpe +
        (split.outOfSampleSharpe.drop split.winner).count split.winnerSharpe := by
    rw [← List.count_append, List.take_append_drop]
  rw [List.drop_eq_getElem_cons split.winner_lt,
    show split.outOfSampleSharpe[split.winner] = split.winnerSharpe from
      (List.getD_eq_getElem _ _ split.winner_lt).symm, List.count_cons_self] at hcount
  rw [tied, tiedBefore]
  omega

/-- Everything that ties comes before the last configuration. -/
theorem tiedBefore_of_last (split : PathSplit) (hlast : split.winner + 1 = split.outOfSampleSharpe.length) :
    split.tiedBefore = split.tied := by
  have hlt := split.winner_lt
  have hcount : split.outOfSampleSharpe.count split.winnerSharpe =
      (split.outOfSampleSharpe.take split.winner).count split.winnerSharpe +
        (split.outOfSampleSharpe.drop split.winner).count split.winnerSharpe := by
    rw [← List.count_append, List.take_append_drop]
  rw [List.drop_eq_getElem_cons split.winner_lt, hlast, List.drop_length,
    show split.outOfSampleSharpe[split.winner] = split.winnerSharpe from
      (List.getD_eq_getElem _ _ split.winner_lt).symm, List.count_cons_self, List.count_nil] at hcount
  rw [tied, tiedBefore]
  omega

end PathSplit

/-! ### What is counted -/

open Classical in
/-- How many splits have a property. -/
noncomputable def splitCount (property : PathSplit → Prop) (splits : List PathSplit) : ℕ :=
  splits.countP fun split => property split

/-- The winner fails to beat the median out of sample. -/
def PathSplit.FailsMedian (split : PathSplit) : Prop := split.winnerSharpe ≤ median split.outOfSampleSharpe

theorem splitCount_congr {P Q : PathSplit → Prop} {splits : List PathSplit} (h : ∀ split ∈ splits, P split ↔ Q split) :
    splitCount P splits = splitCount Q splits :=
  List.countP_congr fun split hsplit => by simpa using h split hsplit

/-- Properties that count alike differ on as many splits one way as the other. -/
theorem splitCount_eq_iff {P Q : PathSplit → Prop} {splits : List PathSplit} :
    splitCount P splits = splitCount Q splits ↔
      splitCount (fun split => Q split ∧ ¬ P split) splits = splitCount (fun split => P split ∧ ¬ Q split) splits := by
  have hparts : ∀ P Q : PathSplit → Prop, splitCount P splits =
      splitCount (fun split => P split ∧ Q split) splits + splitCount (fun split => P split ∧ ¬ Q split) splits := by
    intro P Q
    induction splits with
    | nil => rfl
    | cons split splits ih =>
      rw [splitCount, splitCount, splitCount, List.countP_cons, List.countP_cons, List.countP_cons]
      rw [splitCount, splitCount, splitCount] at ih
      rw [ih]
      by_cases hP : P split <;> by_cases hQ : Q split <;> simp [hP, hQ] <;> omega
  have hP := hparts P Q
  have hQ := hparts Q P
  have hboth : splitCount (fun split => P split ∧ Q split) splits =
      splitCount (fun split => Q split ∧ P split) splits := splitCount_congr fun split _ => and_comm
  omega

/-- Of a property and a weaker one that count alike, each implies the other. -/
theorem splitCount_eq_iff_of_imp {P Q : PathSplit → Prop} {splits : List PathSplit}
    (himp : ∀ split ∈ splits, P split → Q split) :
    splitCount P splits = splitCount Q splits ↔ ∀ split ∈ splits, Q split → P split := by
  have hnone : splitCount (fun split => P split ∧ ¬ Q split) splits = 0 :=
    List.countP_eq_zero.mpr fun split hsplit => by simpa using himp split hsplit
  rw [splitCount_eq_iff, hnone, splitCount, List.countP_eq_zero]
  simp

/-! ### The published statistic -/

/-- The share of splits with a property, in the published resolution. -/
noncomputable def publishedShare (property : PathSplit → Prop) (splits : List PathSplit) : Decimal :=
  snapWith roundHalfEven statisticQuantum (splitCount property splits / splits.length)

/-- What is published of the paths: how many winners rank low, and their share. -/
structure Publishes (splits : List PathSplit) (estimate : OverfittingProbability ℝ) : Prop where
  size : ∀ split ∈ splits, split.inSampleSharpe.length = estimate.configurationCount
  count : estimate.underperformingSplitCount = splitCount PathSplit.RanksLow splits
  share : estimate.probabilityOfBacktestOverfitting = publishedShare PathSplit.RanksLow splits

theorem countP_logits {splits : List PathSplit} {size : ℕ}
    (h : ∀ split ∈ splits, split.inSampleSharpe.length = size) :
    (splits.map fun split => logit Real.log (outOfSampleRank split.outOfSampleSharpe
      (winningConfigurationIndex split.inSampleSharpe) / ((size : Decimal) + 1))).countP (fun logit => logit ≤ 0) =
      splitCount PathSplit.RanksLow splits := by
  rw [List.countP_map]
  refine List.countP_congr fun split hsplit => ?_
  simp only [Function.comp_apply, decide_eq_true_eq, ← h split hsplit]
  exact split.logit_rank_nonpos_iff

/-- There is a statistic exactly of paths over the same configurations, and at least one. -/
theorem overfitting_ok_iff {splits : List PathSplit} {estimate : OverfittingProbability ℝ}
    (h : probabilityOfBacktestOverfitting Real.log splits = .ok estimate) :
    splits ≠ [] ∧ Publishes splits estimate := by
  simp only [probabilityOfBacktestOverfitting, bind_eq_ok, raiseIf_eq_ok, not_not, pure_eq_ok,
    List.map_eq_nil_iff, List.filter_eq_nil_iff, decide_eq_true_eq] at h
  obtain ⟨_, hne, _, hsame, rfl⟩ := h
  have hsize : ∀ split ∈ splits, split.inSampleSharpe.length =
      splits.head?.elim 0 fun split => split.inSampleSharpe.length := by
    intro split hsplit
    obtain ⟨index, hindex, rfl⟩ := List.getElem_of_mem hsplit
    exact hsame (splits[index], index) (List.mem_zipIdx_iff_getElem?.mpr (List.getElem?_eq_getElem hindex))
  exact ⟨hne, hsize, countP_logits hsize, congrArg (fun count : ℕ =>
    snapWith roundHalfEven statisticQuantum ((count : Decimal) / splits.length)) (countP_logits hsize)⟩

theorem exists_overfitting {splits : List PathSplit} {size : ℕ} (hne : splits ≠ [])
    (h : ∀ split ∈ splits, split.inSampleSharpe.length = size) :
    ∃ estimate, probabilityOfBacktestOverfitting Real.log splits = .ok estimate := by
  simp only [probabilityOfBacktestOverfitting, bind_eq_ok, raiseIf_eq_ok, not_not, pure_eq_ok,
    List.map_eq_nil_iff, List.filter_eq_nil_iff, decide_eq_true_eq]
  refine ⟨_, (), hne, (), fun entry hentry => ?_, rfl⟩
  cases splits with
  | nil => exact absurd rfl hne
  | cons first rest =>
    rw [h entry.1 (List.fst_mem_of_mem_zipIdx hentry)]
    exact (h first List.mem_cons_self).symm

/-! ### When the count is that of the definition -/

/-- The splits with their configurations in another order. -/
def Rearrangement (splits others : List PathSplit) {size : ℕ} (order : Equiv.Perm (Fin size)) : Prop :=
  others.map PathSplit.toPathSplitFields = splits.map fun split => split.rearranged order

/-- The count is the number of winners that fail to beat the median, and the order of the configurations does
    not show in the statistic where every winner is the only one. -/
structure CountsFailures (splits : List PathSplit) (estimate : OverfittingProbability ℝ) : Prop where
  count : estimate.underperformingSplitCount = splitCount PathSplit.FailsMedian splits
  orderFree : (∀ split ∈ splits, split.HasUniqueWinner) →
    ∀ (order : Equiv.Perm (Fin estimate.configurationCount)) (others : List PathSplit)
      (other : OverfittingProbability ℝ), Rearrangement splits others order →
      probabilityOfBacktestOverfitting Real.log others = .ok other →
      other.probabilityOfBacktestOverfitting = estimate.probabilityOfBacktestOverfitting

/-- The winners that a tie lifts over the middle rank are as many as those that rounding holds under it, and
    no order of the configurations shows in the published share of low ranks. -/
structure RanksClear (splits : List PathSplit) (size : ℕ) : Prop where
  balanced : splitCount (fun split => split.below ≤ split.half ∧ ¬ split.RanksLow) splits =
    splitCount (fun split => split.RanksLow ∧ ¬ split.below ≤ split.half) splits
  orderFree : (∀ split ∈ splits, split.HasUniqueWinner) → ∀ (order : Equiv.Perm (Fin size))
    (others : List PathSplit), Rearrangement splits others order →
    publishedShare PathSplit.RanksLow others = publishedShare PathSplit.RanksLow splits

/-- No winner that at most half of the others are below is lifted past the middle rank by those of lower index
    that tie with it; where every winner is the only one, nor by all that tie with it. -/
structure TiesClear (splits : List PathSplit) : Prop where
  before : ∀ split ∈ splits, split.below ≤ split.half → split.below + split.tiedBefore ≤ split.half
  anyOrder : (∀ split ∈ splits, split.HasUniqueWinner) →
    ∀ split ∈ splits, split.below ≤ split.half → split.below + split.tied ≤ split.half

theorem Rearrangement.exists {splits others : List PathSplit} {size : ℕ} {order : Equiv.Perm (Fin size)}
    (h : Rearrangement splits others order) : others.length = splits.length ∧
      List.Forall₂ (fun split other => other.toPathSplitFields = split.rearranged order) splits others := by
  have hlength := congrArg List.length h
  rw [List.length_map, List.length_map] at hlength
  refine ⟨hlength, ?_⟩
  refine List.forall₂_iff_get.mpr ⟨hlength.symm, fun index hsplit hother => ?_⟩
  have hget := congrArg (fun fields => fields[index]?) h
  simpa [hsplit, hother] using hget

/-- A rearranged split has as many configurations. -/
theorem Rearrangement.size_eq {splits others : List PathSplit} {size : ℕ} {order : Equiv.Perm (Fin size)}
    (h : Rearrangement splits others order) : ∀ other ∈ others, other.inSampleSharpe.length = size := by
  intro other hother
  have hmem := List.mem_map_of_mem (f := PathSplit.toPathSplitFields) hother
  rw [h] at hmem
  obtain ⟨split, _, hsame⟩ := List.mem_map.mp hmem
  rw [← hsame]
  simp [PathSplitFields.rearranged]

theorem Rearrangement.exists_of_mem {splits others : List PathSplit} {size : ℕ} {order : Equiv.Perm (Fin size)}
    (h : Rearrangement splits others order) {split : PathSplit} (hsplit : split ∈ splits) :
    ∃ other ∈ others, other.toPathSplitFields = split.rearranged order := by
  have hmem := List.mem_map_of_mem (f := fun split : PathSplit => split.rearranged order) hsplit
  rw [← h] at hmem
  exact List.mem_map.mp hmem

theorem exists_rearrangement {splits : List PathSplit} {size : ℕ} (order : Equiv.Perm (Fin size))
    (h : ∀ split ∈ splits, split.inSampleSharpe.length = size) :
    ∃ others, Rearrangement splits others order := by
  induction splits with
  | nil => exact ⟨[], rfl⟩
  | cons split splits ih =>
    obtain ⟨hsplit, hsplits⟩ := List.forall_mem_cons.mp h
    obtain ⟨other, hother⟩ := split.exists_rearranged order hsplit
    obtain ⟨others, hothers⟩ := ih hsplits
    exact ⟨other :: others, congrArg₂ List.cons hother hothers⟩

/-- As many are below half of the others whatever the order. -/
theorem splitCount_of_sameStanding {splits others : List PathSplit}
    (h : List.Forall₂ PathSplit.SameStanding splits others) :
    splitCount (fun split => split.below ≤ split.half) others =
      splitCount (fun split => split.below ≤ split.half) splits := by
  induction h with
  | nil => rfl
  | @cons split other splits others hsame _ ih =>
    simp only [splitCount, List.countP_cons, decide_eq_true_eq] at ih ⊢
    simp only [ih, hsame.below, hsame.half]

theorem countsFailures_iff_ranksClear {splits : List PathSplit} {estimate : OverfittingProbability ℝ}
    (hne : splits ≠ []) (h : Publishes splits estimate) :
    CountsFailures splits estimate ↔ RanksClear splits estimate.configurationCount := by
  have hcount : estimate.underperformingSplitCount = splitCount PathSplit.FailsMedian splits ↔
      splitCount (fun split => split.below ≤ split.half ∧ ¬ split.RanksLow) splits =
        splitCount (fun split => split.RanksLow ∧ ¬ split.below ≤ split.half) splits := by
    rw [h.count, splitCount_congr (P := PathSplit.FailsMedian) (Q := fun split => split.below ≤ split.half)
      fun split _ => split.le_median_iff]
    exact splitCount_eq_iff
  constructor
  · rintro ⟨hcounted, hfree⟩
    refine ⟨hcount.mp hcounted, fun hunique order others hothers => ?_⟩
    obtain ⟨hlength, hpairs⟩ := hothers.exists
    have hotherNe : others ≠ [] := fun hnil => hne (List.length_eq_zero_iff.mp (by rw [← hlength, hnil]; rfl))
    obtain ⟨other, hother⟩ := exists_overfitting hotherNe hothers.size_eq
    rw [← (overfitting_ok_iff hother).2.share, hfree hunique order others other hothers hother, h.share]
  · rintro ⟨hbalanced, hfree⟩
    refine ⟨hcount.mpr hbalanced, fun hunique order others other hothers hother => ?_⟩
    rw [(overfitting_ok_iff hother).2.share, hfree hunique order others hothers, h.share]

/-- Published shares of fewer than so many splits tell their counts apart. -/
theorem publishedShare_inj {P Q : PathSplit → Prop} {splits others : List PathSplit} (hne : splits ≠ [])
    (hlength : others.length = splits.length) (hsize : splits.length < 10 ^ 12) :
    publishedShare P others = publishedShare Q splits ↔ splitCount P others = splitCount Q splits := by
  have hpos : (0 : Decimal) < splits.length := by exact_mod_cast List.length_pos_of_ne_nil hne
  have hsize : (splits.length : Decimal) < 10 ^ 12 := by exact_mod_cast hsize
  constructor
  · intro h
    rw [publishedShare, publishedShare, snapWith, snapWith, hlength] at h
    have hquantum : statisticQuantum ≠ 0 := by rw [statisticQuantum]; norm_num
    have hround := Int.cast_injective (mul_right_cancel₀ hquantum h)
    have hscale : ∀ count : Decimal, count / splits.length / statisticQuantum = count * (10 ^ 12 / splits.length) := by
      intro count
      rw [statisticQuantum]
      field_simp
    have hstep : 1 < 10 ^ 12 / (splits.length : Decimal) := (one_lt_div hpos).mpr hsize
    have hapart : ∀ {few more : ℕ}, few < more → roundHalfEven ((few : Decimal) * (10 ^ 12 / splits.length)) <
        roundHalfEven ((more : Decimal) * (10 ^ 12 / splits.length)) := by
      intro few more hlt
      have hcast : (few : Decimal) + 1 ≤ more := by exact_mod_cast hlt
      exact roundHalfEven_lt (by nlinarith)
    rw [hscale, hscale] at hround
    rcases lt_trichotomy (splitCount P others) (splitCount Q splits) with hlt | heq | hgt
    · exact absurd hround (hapart hlt).ne
    · exact heq
    · exact absurd hround (hapart hgt).ne'
  · intro h
    rw [publishedShare, publishedShare, h, hlength]

/-- At ordinary sizes ties alone make the count another than the definition's. -/
theorem ranksClear_iff_tiesClear {splits : List PathSplit} {size : ℕ} (hne : splits ≠ [])
    (hconfigurations : ∀ split ∈ splits, split.inSampleSharpe.length = size) (hsplits : splits.length < 10 ^ 12)
    (hsize : size < 10 ^ 12) : RanksClear splits size ↔ TiesClear splits := by
  have hlow : ∀ split : PathSplit, split.inSampleSharpe.length = size →
      (split.RanksLow ↔ split.below + split.tiedBefore ≤ split.half) := fun split hsplit =>
    split.ranksLow_iff (by rw [← split.length_eq, hsplit]; exact hsize.le)
  have hfails : ∀ split : PathSplit, split.inSampleSharpe.length = size → split.RanksLow →
      split.below ≤ split.half := fun split hsplit h => by
    have := (hlow split hsplit).mp h
    omega
  have hbefore : splitCount (fun split => split.below ≤ split.half ∧ ¬ split.RanksLow) splits =
        splitCount (fun split => split.RanksLow ∧ ¬ split.below ≤ split.half) splits ↔
      ∀ split ∈ splits, split.below ≤ split.half → split.below + split.tiedBefore ≤ split.half := by
    rw [← splitCount_eq_iff, splitCount_eq_iff_of_imp fun split hsplit => hfails split (hconfigurations split hsplit)]
    exact forall₂_congr fun split hsplit => imp_congr_right fun _ => hlow split (hconfigurations split hsplit)
  have hstanding : (∀ split ∈ splits, split.HasUniqueWinner) → ∀ (order : Equiv.Perm (Fin size)) others,
      Rearrangement splits others order → List.Forall₂ PathSplit.SameStanding splits others := by
    intro hunique order others hothers
    have hpairs := List.forall₂_iff_zip.mp hothers.exists.2
    refine List.forall₂_iff_zip.mpr ⟨hpairs.1, fun hpair => ?_⟩
    have hsplit := (List.of_mem_zip hpair).1
    exact PathSplit.sameStanding (hconfigurations _ hsplit) (hunique _ hsplit) (hpairs.2 hpair)
  constructor
  · rintro ⟨hbalanced, hfree⟩
    refine ⟨hbefore.mp hbalanced, fun hunique split hsplit hbelow => ?_⟩
    have hwinner : split.winner < size := by
      rw [← hconfigurations split hsplit, split.length_eq]
      exact split.winner_lt
    -- the order that puts this winner last
    let last : Fin size := ⟨size - 1, by omega⟩
    let order := Equiv.swap ⟨split.winner, hwinner⟩ last
    obtain ⟨others, hothers⟩ := exists_rearrangement order hconfigurations
    have hcounts := (publishedShare_inj hne hothers.exists.1 hsplits).mp (hfree hunique order others hothers)
    rw [splitCount_eq_iff.mpr hbalanced, ← splitCount_of_sameStanding (hstanding hunique order others hothers),
      splitCount_eq_iff_of_imp fun other hother => hfails other (hothers.size_eq other hother)] at hcounts
    obtain ⟨other, hother, hfields⟩ := hothers.exists_of_mem hsplit
    have hstands := PathSplit.sameStanding (hconfigurations split hsplit) (hunique split hsplit) hfields
    have hlast : other.winner = last :=
      PathSplit.winner_rearranged (hconfigurations split hsplit) (hunique split hsplit) hfields
        (congrArg Fin.val (Equiv.swap_apply_right _ _))
    have hotherSize := hothers.size_eq other hother
    have hlow' := (hlow other hotherSize).mp (hcounts other hother (by rwa [hstands.below, hstands.half]))
    rw [other.tiedBefore_of_last, hstands.below, hstands.half, hstands.tied] at hlow'
    · exact hlow'
    · rw [hlast, ← other.length_eq, hotherSize]
      exact Nat.sub_add_cancel (Nat.zero_lt_of_lt hwinner)
  · rintro ⟨hclear, hany⟩
    refine ⟨hbefore.mpr hclear, fun hunique order others hothers => ?_⟩
    have hstands := hstanding hunique order others hothers
    have hotherClear : ∀ other ∈ others, other.below ≤ other.half → other.RanksLow := by
      intro other hother hbelow
      obtain ⟨split, hsplit, hsame⟩ := exists_left_of_forall₂ hstands hother
      rw [hlow other (hothers.size_eq other hother), hsame.half]
      rw [hsame.below, hsame.half] at hbelow
      have hle := other.tiedBefore_le_tied
      have hroom := hany hunique split hsplit hbelow
      rw [hsame.tied] at hle
      rw [hsame.below]
      omega
    have hlowOthers := (splitCount_eq_iff_of_imp fun other hother =>
      hfails other (hothers.size_eq other hother)).mpr hotherClear
    rw [publishedShare, publishedShare, hothers.exists.1, hlowOthers, splitCount_of_sameStanding hstands,
      ← splitCount_eq_iff.mpr (hbefore.mpr hclear)]

/-- The statistic exists of every list of paths over the same configurations; it counts the winners that fail
    to beat the median exactly when the ranks are clear, which at ordinary sizes is a matter of ties alone. -/
theorem overfitting_counts_failures_iff (splits : List PathSplit) :
    ((∃ estimate, probabilityOfBacktestOverfitting Real.log splits = .ok estimate) ↔
      splits ≠ [] ∧ ∃ size, ∀ split ∈ splits, split.inSampleSharpe.length = size) ∧
    ∀ estimate, probabilityOfBacktestOverfitting Real.log splits = .ok estimate →
      (CountsFailures splits estimate ↔ RanksClear splits estimate.configurationCount) ∧
      (splits.length < 10 ^ 12 → estimate.configurationCount < 10 ^ 12 →
        (CountsFailures splits estimate ↔ TiesClear splits)) := by
  refine ⟨⟨?_, fun ⟨hne, _, hsize⟩ => exists_overfitting hne hsize⟩, fun estimate h => ?_⟩
  · rintro ⟨estimate, h⟩
    obtain ⟨hne, hpublishes⟩ := overfitting_ok_iff h
    exact ⟨hne, _, hpublishes.size⟩
  · obtain ⟨hne, hpublishes⟩ := overfitting_ok_iff h
    have hclear := countsFailures_iff_ranksClear hne hpublishes
    exact ⟨hclear, fun hsplits hsize =>
      hclear.trans (ranksClear_iff_tiesClear hne hpublishes.size hsplits hsize)⟩

def tiedFields : PathSplitFields where
  inSampleSharpe := [0, 1]
  outOfSampleSharpe := [0, 0]

theorem tiedFields_checked : tiedFields.postInit = .ok () := by with_unfolding_all decide

/-- The in-sample winner does as well as the other configuration out of sample, which is the median. -/
def tiedSplit : PathSplit := ⟨tiedFields, tiedFields_checked⟩

/-- A winner exactly on the median is not counted when a configuration of lower index ties with it. -/
theorem a_tied_winner_beats_the_median : ¬ ∀ (splits : List PathSplit) (estimate : OverfittingProbability ℝ),
    probabilityOfBacktestOverfitting Real.log splits = .ok estimate →
    estimate.underperformingSplitCount = splitCount PathSplit.FailsMedian splits := by
  intro h
  have hsize : ∀ split ∈ [tiedSplit], split.inSampleSharpe.length = 2 := List.forall_mem_singleton.mpr rfl
  obtain ⟨estimate, hestimate⟩ := exists_overfitting (List.cons_ne_nil _ _) hsize
  obtain ⟨_, hpublishes⟩ := overfitting_ok_iff hestimate
  have hcount := h [tiedSplit] estimate hestimate
  have hfails : tiedSplit.FailsMedian := tiedSplit.le_median_iff.mpr (by decide +kernel)
  have hranks : ¬ tiedSplit.RanksLow := by
    rw [tiedSplit.ranksLow_iff (by decide)]
    decide +kernel
  rw [hpublishes.count, splitCount, splitCount, List.countP_cons_of_neg (by simpa using hranks),
    List.countP_cons_of_pos (by simpa using hfails)] at hcount
  simp at hcount

end FinanceKing.Backtest
