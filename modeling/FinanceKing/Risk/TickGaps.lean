import FinanceKing.Lib.Ranks
import FinanceKing.Risk.Triggers

/-! The inter-tick percentile against the instant it is asked for: what the gaps up to that instant say, and
    what the gaps after it do to the answer. -/

namespace FinanceKing.Risk

open Lib

/-- The ticks of one symbol, oldest first. -/
structure TickHistory where
  tickTimesUtc : List DateTime
  ascending : tickTimesUtc.Pairwise (· < ·)

def gapsOf (ticks : List (DateTime × DateTime)) : List Decimal :=
  ticks.map fun (earlier, later) => secondsBetween earlier later

namespace TickHistory

variable (self : TickHistory) (asOfUtc : DateTime) (window : TimeDelta)

/-- The ticks from the window's start on. -/
def considered : List DateTime := self.tickTimesUtc.filter fun tick => asOfUtc - window ≤ tick

/-- The gaps between consecutive ticks inside the window that ends at the instant. -/
def trailingGaps : List Decimal :=
  gapsOf (pairwise ((self.considered asOfUtc window).filter fun tick => tick ≤ asOfUtc))

/-- The gaps that end after the instant. -/
def laterGaps : List Decimal :=
  gapsOf ((pairwise (self.considered asOfUtc window)).filter fun pair => asOfUtc < pair.2)

/-- The answer for this history. -/
def p99InterTickGapSeconds : PyResult Decimal :=
  deriveP99InterTickGapSeconds self.tickTimesUtc asOfUtc window

/-- The answer is the percentile of the gaps inside the trailing window, where there are enough of them. -/
def AnswersPointInTime : Prop := ∀ gap, self.p99InterTickGapSeconds asOfUtc window = .ok gap ↔
  0 < window ∧ minimumGapObservations ≤ (self.trailingGaps asOfUtc window).length ∧
    IsNearestRank 99 (self.trailingGaps asOfUtc window) gap

/-- The gaps that end after the instant leave the percentile where the trailing ones put it. -/
structure KeepsItsRank (history : TickHistory) (asOfUtc : DateTime) (window : TimeDelta) : Prop where
  few : (history.trailingGaps asOfUtc window).length < minimumGapObservations →
    (history.trailingGaps asOfUtc window).length + (history.laterGaps asOfUtc window).length <
      minimumGapObservations
  below : ∀ p, minimumGapObservations ≤ (history.trailingGaps asOfUtc window).length →
    IsNearestRank 99 (history.trailingGaps asOfUtc window) p →
    100 * ((history.trailingGaps asOfUtc window).countP (· < p) +
        (history.laterGaps asOfUtc window).countP (· < p)) <
      99 * ((history.trailingGaps asOfUtc window).length + (history.laterGaps asOfUtc window).length)
  reached : ∀ p, minimumGapObservations ≤ (history.trailingGaps asOfUtc window).length →
    IsNearestRank 99 (history.trailingGaps asOfUtc window) p →
    99 * ((history.trailingGaps asOfUtc window).length + (history.laterGaps asOfUtc window).length) ≤
      100 * ((history.trailingGaps asOfUtc window).countP (· ≤ p) +
        (history.laterGaps asOfUtc window).countP (· ≤ p))

end TickHistory

/-! ### The gaps either side of the instant -/

/-- Of ascending ticks, the pairs that end by an instant are the pairs of the ticks up to it. -/
theorem filter_pairwise_le (asOfUtc : DateTime) : ∀ {ticks : List DateTime}, ticks.Pairwise (· < ·) →
    (pairwise ticks).filter (fun pair => pair.2 ≤ asOfUtc) = pairwise (ticks.filter fun tick => tick ≤ asOfUtc)
  | [], _ => rfl
  | [first], _ => by
    by_cases hfirst : first ≤ asOfUtc
    · rw [List.filter_cons_of_pos (by simpa using hfirst)]
      rfl
    · rw [List.filter_cons_of_neg (by simpa using hfirst)]
      rfl
  | first :: second :: rest, h => by
    obtain ⟨hfirst, hrest⟩ := List.pairwise_cons.mp h
    have hpairs : pairwise (first :: second :: rest) = (first, second) :: pairwise (second :: rest) := rfl
    have ih := filter_pairwise_le asOfUtc hrest
    by_cases hsecond : second ≤ asOfUtc
    · have hbefore : first ≤ asOfUtc := (hfirst second List.mem_cons_self).le.trans hsecond
      rw [hpairs, List.filter_cons_of_pos (by simpa using hsecond), ih,
        List.filter_cons_of_pos (by simpa using hsecond), List.filter_cons_of_pos (by simpa using hbefore),
        List.filter_cons_of_pos (by simpa using hsecond)]
      rfl
    · have hnone : (second :: rest).filter (fun tick => tick ≤ asOfUtc) = [] := by
        refine List.filter_eq_nil_iff.mpr fun tick htick => ?_
        have hafter : second ≤ tick := (List.mem_cons.mp htick).elim (fun h => h.ge) fun hlater =>
          ((List.pairwise_cons.mp hrest).1 tick hlater).le
        simpa using (not_le.mp hsecond).trans_le hafter
      rw [hnone] at ih
      rw [hpairs, List.filter_cons_of_neg (by simpa using hsecond), ih]
      by_cases hbefore : first ≤ asOfUtc
      · rw [List.filter_cons_of_pos (by simpa using hbefore), hnone]
        rfl
      · rw [List.filter_cons_of_neg (by simpa using hbefore), hnone]

namespace TickHistory

variable {self : TickHistory} {asOfUtc : DateTime} {window : TimeDelta}

/-- All the gaps that the answer is taken over. -/
theorem gaps_perm (self : TickHistory) (asOfUtc : DateTime) (window : TimeDelta) :
    (self.trailingGaps asOfUtc window ++ self.laterGaps asOfUtc window).Perm
      (gapsOf (pairwise (self.considered asOfUtc window))) := by
  have hordered : (self.considered asOfUtc window).Pairwise (· < ·) := self.ascending.filter _
  have hlater : (pairwise (self.considered asOfUtc window)).filter (fun pair => asOfUtc < pair.2) =
      (pairwise (self.considered asOfUtc window)).filter fun pair => !decide (pair.2 ≤ asOfUtc) :=
    List.filter_congr fun pair _ => by rw [← decide_not, decide_eq_decide, not_le]
  rw [trailingGaps, laterGaps, hlater, ← filter_pairwise_le asOfUtc hordered, gapsOf, gapsOf, gapsOf,
    ← List.map_append]
  exact (List.filter_append_perm _ _).map _

/-- The answer is the percentile of all the gaps from the window's start on. -/
theorem p99_eq_ok {gap : Decimal} : self.p99InterTickGapSeconds asOfUtc window = .ok gap ↔
    0 < window ∧
      minimumGapObservations ≤ (self.trailingGaps asOfUtc window).length + (self.laterGaps asOfUtc window).length ∧
      IsNearestRank 99 (self.trailingGaps asOfUtc window ++ self.laterGaps asOfUtc window) gap := by
  have hsorted := perm_sortBy (fun gap : Decimal => gap)
    (gapsOf (pairwise (self.considered asOfUtc window)))
  have hperm := (self.gaps_perm asOfUtc window).trans hsorted.symm
  have hlength := hperm.length_eq
  rw [List.length_append] at hlength
  rw [hlength, isNearestRank_perm hperm]
  have hascending : (sortBy (fun gap : Decimal => gap)
      (gapsOf (pairwise (self.considered asOfUtc window)))).Pairwise (· ≤ ·) := pairwise_sortBy _ _
  constructor
  · intro h
    simp only [p99InterTickGapSeconds, deriveP99InterTickGapSeconds, bind_eq_ok, raiseIf_eq_ok, not_le,
      not_lt] at h
    obtain ⟨_, hwindow, _, _, _, henough, hfound⟩ := h
    refine ⟨hwindow, henough, ?_⟩
    rw [isNearestRank_iff (by decide) hascending ((by decide : 0 < minimumGapObservations).trans_le henough)]
    split at hfound
    · next found hrank =>
      rw [← Except.ok.inj hfound]
      exact hrank
    · cases hfound
  · rintro ⟨hwindow, henough, hrank⟩
    rw [isNearestRank_iff (by decide) hascending
      ((by decide : 0 < minimumGapObservations).trans_le henough)] at hrank
    simp only [p99InterTickGapSeconds, deriveP99InterTickGapSeconds, bind_eq_ok, raiseIf_eq_ok, not_le, not_lt]
    refine ⟨(), hwindow, (), forM_eq_ok.mpr fun pair hpair => ?_, (), henough, ?_⟩
    · exact raiseIf_eq_ok.mpr (not_le.mpr (isChain_iff_forall_pairwise.mp self.ascending.isChain pair hpair))
    · split
      · next found hfound => exact congrArg Except.ok (Option.some.inj (hfound.symm.trans hrank))
      · next hnone => cases hnone.symm.trans hrank

/-! ### When the answer is point-in-time -/

theorem exists_trailingRank (h : minimumGapObservations ≤ (self.trailingGaps asOfUtc window).length) :
    ∃ p, IsNearestRank 99 (self.trailingGaps asOfUtc window) p := by
  have hsorted := perm_sortBy (fun gap : Decimal => gap) (self.trailingGaps asOfUtc window)
  have hpositive : 0 < (sortBy (fun gap : Decimal => gap) (self.trailingGaps asOfUtc window)).length :=
    hsorted.length_eq.symm ▸ (by decide : 0 < minimumGapObservations).trans_le h
  obtain ⟨p, hp⟩ := exists_isNearestRank (by decide : 0 < 99 ∧ 99 ≤ 100)
    (pairwise_sortBy (fun gap : Decimal => gap) (self.trailingGaps asOfUtc window)) hpositive
  exact ⟨p, (isNearestRank_perm hsorted).mp hp⟩

theorem isNearestRank_append_iff {p : Decimal} :
    IsNearestRank 99 (self.trailingGaps asOfUtc window ++ self.laterGaps asOfUtc window) p ↔
      100 * ((self.trailingGaps asOfUtc window).countP (· < p) +
          (self.laterGaps asOfUtc window).countP (· < p)) <
        99 * ((self.trailingGaps asOfUtc window).length + (self.laterGaps asOfUtc window).length) ∧
      99 * ((self.trailingGaps asOfUtc window).length + (self.laterGaps asOfUtc window).length) ≤
        100 * ((self.trailingGaps asOfUtc window).countP (· ≤ p) +
          (self.laterGaps asOfUtc window).countP (· ≤ p)) := by
  rw [← List.countP_append, ← List.countP_append, ← List.length_append]
  exact ⟨fun h => ⟨h.below, h.reached⟩, fun h => ⟨h.1, h.2⟩⟩

theorem answersPointInTime_iff : self.AnswersPointInTime asOfUtc window ↔
    (0 < window → self.KeepsItsRank asOfUtc window) := by
  constructor
  · intro hanswers hwindow
    refine ⟨fun hfew => ?_, fun p henough hp => ?_, fun p henough hp => ?_⟩
    · by_contra hmany
      have hsorted := perm_sortBy (fun gap : Decimal => gap)
        (self.trailingGaps asOfUtc window ++ self.laterGaps asOfUtc window)
      have hpositive : 0 < (sortBy (fun gap : Decimal => gap)
          (self.trailingGaps asOfUtc window ++ self.laterGaps asOfUtc window)).length := by
        rw [hsorted.length_eq, List.length_append]
        exact (by decide : 0 < minimumGapObservations).trans_le (not_lt.mp hmany)
      obtain ⟨p, hp⟩ := exists_isNearestRank (by decide : 0 < 99 ∧ 99 ≤ 100)
        (pairwise_sortBy (fun gap : Decimal => gap) _) hpositive
      have hreturned := p99_eq_ok.mpr ⟨hwindow, not_lt.mp hmany, (isNearestRank_perm hsorted).mp hp⟩
      exact absurd ((hanswers p).mp hreturned).2.1 (not_le.mpr hfew)
    · have hreturned := (hanswers p).mpr ⟨hwindow, henough, hp⟩
      exact (isNearestRank_append_iff.mp (p99_eq_ok.mp hreturned).2.2).1
    · have hreturned := (hanswers p).mpr ⟨hwindow, henough, hp⟩
      exact (isNearestRank_append_iff.mp (p99_eq_ok.mp hreturned).2.2).2
  · intro hkeeps gap
    rw [p99_eq_ok]
    refine and_congr_right fun hwindow => ?_
    have hkept := hkeeps hwindow
    by_cases henough : minimumGapObservations ≤ (self.trailingGaps asOfUtc window).length
    · obtain ⟨p, hp⟩ := exists_trailingRank henough
      have hall := isNearestRank_append_iff.mpr ⟨hkept.below p henough hp, hkept.reached p henough hp⟩
      constructor
      · rintro ⟨_, hgap⟩
        exact ⟨henough, hgap.unique hall ▸ hp⟩
      · rintro ⟨_, hgap⟩
        exact ⟨henough.trans (Nat.le_add_right _ _), hgap.unique hp ▸ hall⟩
    · have hfew := hkept.few (not_le.mp henough)
      exact iff_of_false (fun h => absurd h.1 (not_le.mpr hfew)) (fun h => henough h.1)

/-- Without a tick after the instant, the percentile keeps its rank. -/
theorem keepsItsRank_of_none_later (h : ∀ tick ∈ self.tickTimesUtc, tick ≤ asOfUtc) :
    self.KeepsItsRank asOfUtc window := by
  have hnone : self.laterGaps asOfUtc window = [] := by
    have hpairs : (pairwise (self.considered asOfUtc window)).filter (fun pair => asOfUtc < pair.2) = [] := by
      refine List.filter_eq_nil_iff.mpr fun pair hpair => ?_
      have hmem : pair.2 ∈ self.considered asOfUtc window := List.mem_of_mem_tail (List.of_mem_zip hpair).2
      simpa using h _ (List.mem_of_mem_filter hmem)
    rw [laterGaps, hpairs]
    rfl
  refine ⟨?_, ?_, ?_⟩
  · rw [hnone, List.length_nil, add_zero]
    exact id
  · intro p _ hp
    rw [hnone, List.length_nil, add_zero, List.countP_nil, add_zero]
    exact hp.below
  · intro p _ hp
    rw [hnone, List.length_nil, add_zero, List.countP_nil, add_zero]
    exact hp.reached

end TickHistory

/-! ### Two histories -/

/-- Two histories with the same ticks up to an instant. -/
structure AgreeingHistories where
  first : TickHistory
  second : TickHistory
  asOfUtc : DateTime
  window : TimeDelta
  agree : first.tickTimesUtc.filter (· ≤ asOfUtc) = second.tickTimesUtc.filter (· ≤ asOfUtc)

namespace AgreeingHistories

variable (self : AgreeingHistories)

theorem trailingGaps_eq :
    self.first.trailingGaps self.asOfUtc self.window = self.second.trailingGaps self.asOfUtc self.window := by
  have hcommon : ∀ history : TickHistory, (history.considered self.asOfUtc self.window).filter
      (fun tick => tick ≤ self.asOfUtc) = (history.tickTimesUtc.filter (· ≤ self.asOfUtc)).filter
        fun tick => self.asOfUtc - self.window ≤ tick := by
    intro history
    rw [TickHistory.considered, List.filter_filter, List.filter_filter]
    exact List.filter_congr fun tick _ => Bool.and_comm _ _
  rw [TickHistory.trailingGaps, TickHistory.trailingGaps, hcommon, hcommon, self.agree]

/-- Both histories are answered with the percentile of the gaps up to the instant, so with the same value. -/
structure SameAnswer (histories : AgreeingHistories) : Prop where
  first : histories.first.AnswersPointInTime histories.asOfUtc histories.window
  second : histories.second.AnswersPointInTime histories.asOfUtc histories.window
  same : ∀ gap, histories.first.p99InterTickGapSeconds histories.asOfUtc histories.window = .ok gap ↔
    histories.second.p99InterTickGapSeconds histories.asOfUtc histories.window = .ok gap

/-- The answer does not see the ticks after the instant if and only if the gaps that end after it keep the
    percentile at its rank. -/
theorem sameAnswer_iff : self.SameAnswer ↔ (0 < self.window →
    self.first.KeepsItsRank self.asOfUtc self.window ∧ self.second.KeepsItsRank self.asOfUtc self.window) := by
  have hboth : (0 < self.window → self.first.KeepsItsRank self.asOfUtc self.window ∧
      self.second.KeepsItsRank self.asOfUtc self.window) ↔
      self.first.AnswersPointInTime self.asOfUtc self.window ∧
        self.second.AnswersPointInTime self.asOfUtc self.window := by
    rw [TickHistory.answersPointInTime_iff, TickHistory.answersPointInTime_iff, forall_and]
  rw [hboth]
  constructor
  · exact fun h => ⟨h.first, h.second⟩
  · rintro ⟨hfirst, hsecond⟩
    refine ⟨hfirst, hsecond, fun gap => ?_⟩
    rw [hfirst gap, hsecond gap, self.trailingGaps_eq]

end AgreeingHistories

/-- A tick a second for a hundred seconds, and whatever follows. -/
def everySecond (later : List DateTime) : List DateTime :=
  ((List.range 101).map fun i : ℕ => (i : ℤ) * 1000000) ++ later

theorem everySecond_ascending : (everySecond []).Pairwise (· < ·) := by decide +kernel

theorem everySecond_silences_ascending : (everySecond [3700000000, 7300000000]).Pairwise (· < ·) := by
  decide +kernel

/-- The same ticks up to a hundred seconds, one history with two hours of silence after them. -/
def silentLater : AgreeingHistories where
  first := ⟨everySecond [], everySecond_ascending⟩
  second := ⟨everySecond [3700000000, 7300000000], everySecond_silences_ascending⟩
  asOfUtc := 100000000
  window := stalenessCalibrationWindow
  agree := by decide +kernel

/-- Ticks that come after the instant raise the threshold a thousandfold. -/
theorem later_silence_raises_the_threshold : ¬ ∀ histories : AgreeingHistories, ∀ gap,
    histories.first.p99InterTickGapSeconds histories.asOfUtc histories.window = .ok gap ↔
      histories.second.p99InterTickGapSeconds histories.asOfUtc histories.window = .ok gap := by
  intro h
  have hfirst : silentLater.first.p99InterTickGapSeconds silentLater.asOfUtc silentLater.window = .ok 1 := by
    decide +kernel
  have hsecond : silentLater.second.p99InterTickGapSeconds silentLater.asOfUtc silentLater.window =
      .ok 3600 := by
    decide +kernel
  have hsame := (h silentLater 1).mp hfirst
  rw [hsecond] at hsame
  exact absurd (Except.ok.inj hsame) (by decide)

end FinanceKing.Risk
