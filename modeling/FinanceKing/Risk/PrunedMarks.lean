import FinanceKing.Lib.Timeline
import FinanceKing.Risk.DrawdownRun
import FinanceKing.Risk.Triggers

/-! Pruning loses nothing a trailing window reads: along any run of observations the marks a state
    carries are those of its whole history that its trailing day sees, and every shorter window reads
    the same of them as of the history. -/

namespace FinanceKing.Risk

open Lib

def EquityMark.time (mark : EquityMark) : DateTime := mark.observedAtUtc

/-- Pruning ordered marks keeps what the trailing window sees of them. -/
theorem prune_eq_inForceFrom {marks : List EquityMark}
    (h : marks.Pairwise fun a b => a.time ≤ b.time) (asOfUtc : DateTime) :
    prune marks asOfUtc = inForceFrom EquityMark.time (asOfUtc - rollingWindow) marks := by
  rw [inForceFrom_of_sorted _ h]
  change prune marks asOfUtc =
    ((marks.filter fun mark => mark.observedAtUtc ≤ asOfUtc - rollingWindow).getLast?).toList ++
      marks.filter fun mark => asOfUtc - rollingWindow < mark.observedAtUtc
  rw [prune]
  cases (marks.filter fun mark => mark.observedAtUtc ≤ asOfUtc - rollingWindow).getLast? with
  | none => rfl
  | some straddling => rfl

/-! ### The ratios of a whole history -/

/-- The loss from the highest of the equities and the current one, as a fraction of that high. -/
def lossBelowHigh (equities : List Decimal) (current : Decimal) : Decimal :=
  let high := equities.foldr max current
  max 0 ((high - current) / high)

/-- The rolling loss of a history that ends with `latest`: against all that was in force in its
    trailing window, nothing of the history having been dropped before. -/
def rollingLossOfHistory (history : List EquityMark) (latest : EquityMark) : Decimal :=
  let seen := inForceFrom EquityMark.time (latest.time - rollingWindow) history
  lossBelowHigh (seen.map fun mark => mark.equityUsd) latest.equityUsd

/-- The loss velocity of a history that ends with `latest`, over a window. -/
def lossVelocityOfHistory (history : List EquityMark) (latest : EquityMark) (window : TimeDelta) :
    Decimal :=
  let inside := history.filter fun mark => latest.time - window ≤ mark.time
  lossBelowHigh (inside.map fun mark => mark.equityUsd) latest.equityUsd

/-! ### Runs of observations -/

/-- The state after a subject's first observation and every later one, in order. -/
def observeAll (scope : Scope) (subjectId : String) (opening : EquityMark)
    (observations : List EquityMark) : PyResult DrawdownState := do
  let start ← openFirstTime scope subjectId opening.equityUsd opening.observedAtUtc
  observations.foldlM (fun state mark => withEquity state mark.equityUsd mark.observedAtUtc) start

/-- A state that carries what its trailing window sees of a history. -/
structure TracksHistory (history : List EquityMark) (latest : EquityMark) (state : DrawdownState) : Prop where
  marks : state.rollingMarks = inForceFrom EquityMark.time (latest.time - rollingWindow) history
  observed : state.observedAtUtc = latest.time
  current : state.currentEquityUsd = latest.equityUsd
  kept : Kept state

theorem equityMark_self (mark : EquityMark) :
    equityMark mark.observedAtUtc mark.equityUsd = .ok mark := construct_ok mark.checked

theorem tracks_opening (scope : Scope) (subjectId : String) (opening : EquityMark) :
    ∃ state, openFirstTime scope subjectId opening.equityUsd opening.observedAtUtc = .ok state ∧
      TracksHistory [opening] opening state := by
  obtain ⟨state, hstate, hkept, _⟩ :=
    openFirstTime_ok scope subjectId opening.observedAtUtc opening.equity_pos
  refine ⟨state, hstate, ?_⟩
  simp only [openFirstTime, bind_eq_ok, equityMark_self] at hstate
  obtain ⟨_, _, mark, hmark, hbuilt⟩ := hstate
  cases hmark
  obtain ⟨_, rfl⟩ := construct_eq_ok hbuilt
  refine ⟨?_, rfl, rfl, hkept⟩
  exact (inForceFrom_cons_of_last fun _ hlater => absurd hlater List.not_mem_nil).symm

/-- One more observation, no earlier than the last. -/
theorem tracks_withEquity {history : List EquityMark} {latest mark : EquityMark}
    {state : DrawdownState} (h : TracksHistory history latest state) (htime : latest.time ≤ mark.time) :
    ∃ next, withEquity state mark.equityUsd mark.observedAtUtc = .ok next ∧
      TracksHistory (history ++ [mark]) mark next := by
  have hlater : state.observedAtUtc ≤ mark.observedAtUtc := h.observed.trans_le htime
  obtain ⟨next, hnext, hkept, _⟩ := withEquity_ok h.kept mark.equity_pos hlater
  refine ⟨next, hnext, ?_⟩
  simp only [withEquity, bind_eq_ok, equityMark_self] at hnext
  obtain ⟨_, _, _, _, mark', hmark, hbuilt⟩ := hnext
  cases hmark
  obtain ⟨_, rfl⟩ := construct_eq_ok hbuilt
  refine ⟨?_, rfl, rfl, hkept⟩
  have hsorted : (state.rollingMarks ++ [mark]).Pairwise fun a b => a.time ≤ b.time := by
    refine List.pairwise_append.mpr ⟨state.valid.marks_sorted, List.pairwise_singleton _ _, ?_⟩
    intro a ha b hb
    rw [List.mem_singleton.mp hb]
    exact (h.kept.marks_le a ha).trans hlater
  have hstart : latest.time - rollingWindow ≤ mark.time - rollingWindow :=
    sub_le_sub_right htime rollingWindow
  calc prune (state.rollingMarks ++ [mark]) mark.observedAtUtc
      = inForceFrom EquityMark.time (mark.time - rollingWindow) (state.rollingMarks ++ [mark]) :=
        prune_eq_inForceFrom hsorted _
    _ = inForceFrom EquityMark.time (mark.time - rollingWindow) (history ++ [mark]) := by
        rw [h.marks, inForceFrom_append hstart]

/-- Observations in order of time: the run returns, and its state tracks the whole history. -/
theorem tracks_foldlM : ∀ {observations : List EquityMark} {history : List EquityMark}
    {latest : EquityMark} {state : DrawdownState}, TracksHistory history latest state →
    ((latest :: observations).Pairwise fun a b => a.time ≤ b.time) →
    ∃ final, observations.foldlM (fun state mark =>
        withEquity state mark.equityUsd mark.observedAtUtc) state = .ok final ∧
      TracksHistory (history ++ observations) ((latest :: observations).getLast (List.cons_ne_nil _ _)) final
  | [], history, _, state, h, _ => ⟨state, rfl, by rw [List.append_nil]; exact h⟩
  | mark :: rest, history, latest, state, h, hordered => by
    obtain ⟨hhead, htail⟩ := List.pairwise_cons.mp hordered
    obtain ⟨next, hnext, htracks⟩ := tracks_withEquity h (hhead mark List.mem_cons_self)
    obtain ⟨final, hfinal, hrest⟩ := tracks_foldlM htracks htail
    refine ⟨final, bind_eq_ok.mpr ⟨next, hnext, hfinal⟩, ?_⟩
    rw [List.append_assoc, List.singleton_append] at hrest
    rw [List.getLast_cons (List.cons_ne_nil _ _)]
    exact hrest

theorem rollingLossRatio_of_tracks {history : List EquityMark} {latest : EquityMark}
    {state : DrawdownState} (h : TracksHistory history latest state) :
    state.rollingLossRatio = rollingLossOfHistory history latest := by
  rw [DrawdownState.rollingLossRatio, DrawdownState.windowHigh, rollingLossOfHistory, lossBelowHigh,
    ← h.marks, ← h.current, List.foldr_map]

/-- Every window shorter than the trailing day reads the whole history too. -/
theorem lossVelocityRatio_of_tracks {history : List EquityMark} {latest : EquityMark}
    {state : DrawdownState} (h : TracksHistory history latest state) {window : TimeDelta}
    (hpos : 0 < window) (hshort : window < rollingWindow) :
    lossVelocityRatio state window = .ok (lossVelocityOfHistory history latest window) := by
  have hhorizon : latest.time - rollingWindow < latest.time - window := sub_lt_sub_left hshort _
  have hinside : (state.rollingMarks.filter fun mark => latest.time - window ≤ mark.observedAtUtc) =
      history.filter fun mark => latest.time - window ≤ mark.time := by
    rw [h.marks]
    exact filter_inForceFrom hhorizon history
  simp only [lossVelocityRatio, bind_eq_ok, raiseIf_eq_ok, pure_eq_ok]
  refine ⟨(), not_le.mpr hpos, ?_⟩
  rw [h.observed, h.current, hinside]
  rfl

/-- For observations in order of time, ties included, the run returns; the rolling loss of its state is
    that of the whole history, and so is the loss velocity over any window shorter than the trailing
    day, the trigger's five minutes among them. -/
theorem pruned_marks_read_as_the_full_history (scope : Scope) (subjectId : String)
    {opening latest : EquityMark} {observations : List EquityMark}
    (hordered : (opening :: observations).Pairwise fun a b => a.observedAtUtc ≤ b.observedAtUtc)
    (hlatest : (opening :: observations).getLast? = some latest) :
    ∃ state, observeAll scope subjectId opening observations = .ok state ∧
      state.rollingLossRatio = rollingLossOfHistory (opening :: observations) latest ∧
      lossVelocityRatio state lossVelocityWindow =
        .ok (lossVelocityOfHistory (opening :: observations) latest lossVelocityWindow) ∧
      ∀ window, 0 < window → window < rollingWindow →
        lossVelocityRatio state window =
          .ok (lossVelocityOfHistory (opening :: observations) latest window) := by
  obtain ⟨start, hstart, htracks⟩ := tracks_opening scope subjectId opening
  obtain ⟨state, hstate, hfinal⟩ := tracks_foldlM htracks hordered
  rw [List.getLast?_eq_some_getLast (List.cons_ne_nil _ _), Option.some.injEq] at hlatest
  rw [hlatest, List.singleton_append] at hfinal
  refine ⟨state, bind_eq_ok.mpr ⟨start, hstart, hstate⟩, rollingLossRatio_of_tracks hfinal, ?_, ?_⟩
  · exact lossVelocityRatio_of_tracks hfinal (by decide) (by decide)
  · exact fun window hpos hshort => lossVelocityRatio_of_tracks hfinal hpos hshort

def openingMark : EquityMark := ⟨⟨0, 120⟩, by decide +kernel⟩

/-- A second mark at the opening's own instant, then a fall the day after. -/
def laterMarks : List EquityMark :=
  [⟨⟨0, 100⟩, by decide +kernel⟩, ⟨⟨TimeDelta.ofMinutes (25 * 60), 90⟩, by decide +kernel⟩]

theorem pruned_marks_read_as_the_full_history_tie :
    ∃ latest state, observeAll .portfolio "book" openingMark laterMarks = .ok state ∧
      state.rollingLossRatio = rollingLossOfHistory (openingMark :: laterMarks) latest ∧
      lossVelocityRatio state lossVelocityWindow =
        .ok (lossVelocityOfHistory (openingMark :: laterMarks) latest lossVelocityWindow) ∧
      ∀ window, 0 < window → window < rollingWindow →
        lossVelocityRatio state window =
          .ok (lossVelocityOfHistory (openingMark :: laterMarks) latest window) :=
  ⟨_, pruned_marks_read_as_the_full_history .portfolio "book" (by decide) rfl⟩

end FinanceKing.Risk
