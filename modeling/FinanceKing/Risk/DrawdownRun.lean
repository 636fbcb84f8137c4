import FinanceKing.Risk.Drawdown
import FinanceKing.Lib.Fold

/-! Runs of the drawdown state: what every transition keeps, that a state the run reaches reads back
    from its row unchanged, and what a latched breach does to every later verdict. -/

namespace FinanceKing.Risk

open Lib

theorem EquityMark.equity_pos (self : EquityMark) : 0 < self.equityUsd :=
  requirePositiveEquity_eq_ok.mp self.checked

theorem equityMark_ok (observedAtUtc : DateTime) {equityUsd : Decimal} (h : 0 < equityUsd) :
    ∃ mark, equityMark observedAtUtc equityUsd = .ok mark ∧ mark.observedAtUtc = observedAtUtc ∧
      mark.equityUsd = equityUsd := by
  have hchecked : (EquityMarkFields.mk observedAtUtc equityUsd).postInit = .ok () :=
    requirePositiveEquity_eq_ok.mpr h
  exact ⟨_, construct_ok hchecked, rfl, rfl⟩

theorem utcDayStart_idem (t : DateTime) : utcDayStart (utcDayStart t) = utcDayStart t := by
  have hzero : (t - t % TimeDelta.ofMinutes (24 * 60)) % TimeDelta.ofMinutes (24 * 60) = 0 :=
    Int.emod_eq_zero_of_dvd (Int.dvd_self_sub_emod)
  rw [utcDayStart, utcDayStart, hzero, sub_zero]

/-! ### The constructor -/

/-- What the constructor of the state checks. -/
structure DrawdownStateFields.Valid (fields : DrawdownStateFields) : Prop where
  peak_pos : 0 < fields.peakEquityUsd
  current_pos : 0 < fields.currentEquityUsd
  dayOpen_pos : 0 < fields.dayOpenEquityUsd
  dayStart : fields.dayStartUtc = utcDayStart fields.dayStartUtc
  current_le_peak : fields.currentEquityUsd ≤ fields.peakEquityUsd
  marks_ne : fields.rollingMarks ≠ []
  marks_sorted : fields.rollingMarks.Pairwise fun a b => a.observedAtUtc ≤ b.observedAtUtc

theorem DrawdownStateFields.postInit_eq_ok {self : DrawdownStateFields} :
    self.postInit = .ok () ↔ self.Valid := by
  have hsorted : (self.rollingMarks.map fun mark => mark.observedAtUtc) =
      sortBy (fun moment => moment) (self.rollingMarks.map fun mark => mark.observedAtUtc) ↔
      self.rollingMarks.Pairwise fun a b => a.observedAtUtc ≤ b.observedAtUtc := by
    have hmap : (self.rollingMarks.map fun mark => mark.observedAtUtc).Pairwise (fun a b => a ≤ b) ↔
        self.rollingMarks.Pairwise fun a b => a.observedAtUtc ≤ b.observedAtUtc := List.pairwise_map
    rw [← hmap]
    constructor
    · intro h
      rw [h]
      exact pairwise_sortBy _ _
    · intro h
      exact (List.Pairwise.insertionSort_eq h).symm
  simp only [postInit, bind_eq_ok, requirePositiveEquity_eq_ok, raiseIf_eq_ok, not_not, not_lt, hsorted]
  constructor
  · rintro ⟨_, h₁, _, h₂, _, h₃, _, h₄, _, h₅, _, h₆, h₇⟩
    exact ⟨h₁, h₂, h₃, h₄, h₅, h₆, h₇⟩
  · rintro ⟨h₁, h₂, h₃, h₄, h₅, h₆, h₇⟩
    exact ⟨(), h₁, (), h₂, (), h₃, (), h₄, (), h₅, (), h₆, h₇⟩

theorem DrawdownState.valid (self : DrawdownState) : self.toDrawdownStateFields.Valid :=
  DrawdownStateFields.postInit_eq_ok.mp self.checked

theorem drawdownState_ok (fields : DrawdownStateFields) (h : fields.Valid) :
    ∃ state, drawdownState fields = .ok state ∧ state.toDrawdownStateFields = fields :=
  ⟨_, construct_ok (DrawdownStateFields.postInit_eq_ok.mpr h), rfl⟩

theorem drawdownRatio_nonneg (self : DrawdownState) (name : LimitName) :
    0 ≤ self.observedRatioFor name := by
  cases name with
  | drawdown =>
    exact div_nonneg (sub_nonneg.mpr self.valid.current_le_peak) self.valid.peak_pos.le
  | dailyLoss => exact le_max_left _ _
  | rollingLoss => exact le_max_left _ _

/-! ### Pruning -/

theorem prune_sorted {marks : List EquityMark} (asOfUtc : DateTime)
    (h : marks.Pairwise fun a b => a.observedAtUtc ≤ b.observedAtUtc) :
    (prune marks asOfUtc).Pairwise fun a b => a.observedAtUtc ≤ b.observedAtUtc := by
  have hinside := h.filter fun mark => asOfUtc - rollingWindow < mark.observedAtUtc
  unfold prune
  dsimp only
  split
  · next straddling hlast =>
    refine List.pairwise_cons.mpr ⟨fun mark hmark => ?_, hinside⟩
    have hbefore := List.mem_filter.mp (List.mem_of_getLast? hlast)
    have hafter := List.mem_filter.mp hmark
    exact (of_decide_eq_true hbefore.2).trans (of_decide_eq_true hafter.2).le
  · exact hinside

theorem mem_of_mem_prune {marks : List EquityMark} {asOfUtc : DateTime} {mark : EquityMark}
    (h : mark ∈ prune marks asOfUtc) : mark ∈ marks := by
  unfold prune at h
  dsimp only at h
  split at h
  · next straddling hlast =>
    rcases List.mem_cons.mp h with rfl | h
    · exact (List.mem_filter.mp (List.mem_of_getLast? hlast)).1
    · exact (List.mem_filter.mp h).1
  · exact (List.mem_filter.mp h).1

/-- A mark observed now is inside its own window. -/
theorem mem_prune_self {marks : List EquityMark} {mark : EquityMark} (h : mark ∈ marks) :
    mark ∈ prune marks mark.observedAtUtc := by
  have hpos : 0 < rollingWindow := by decide
  have hinside : mark ∈ marks.filter fun m => mark.observedAtUtc - rollingWindow < m.observedAtUtc :=
    List.mem_filter.mpr ⟨h, decide_eq_true (by linarith)⟩
  unfold prune
  dsimp only
  split
  · exact List.mem_cons_of_mem _ hinside
  · exact hinside

/-! ### What the transitions keep -/

/-- What holds of a state beside its own checks: no mark is later than the last observation, and a
    latched breach is one this subject's row can carry. -/
structure Kept (state : DrawdownState) : Prop where
  marks_le : ∀ mark ∈ state.rollingMarks, mark.observedAtUtc ≤ state.observedAtUtc
  latched : ∀ breach, state.latchedBreach = some breach → breach.scope = state.scope ∧
    breach.subjectId = state.subjectId ∧ breach.response = responseByScope state.scope ∧
    0 ≤ breach.observedRatio ∧ 0 ≤ breach.budgetRatio

theorem openFirstTime_ok (scope : Scope) (subjectId : String) {openingEquityUsd : Decimal}
    (asOfUtc : DateTime) (h : 0 < openingEquityUsd) :
    ∃ state, openFirstTime scope subjectId openingEquityUsd asOfUtc = .ok state ∧ Kept state ∧
      state.scope = scope ∧ state.subjectId = subjectId ∧ state.observedAtUtc = asOfUtc ∧
      state.peakEquityUsd = openingEquityUsd ∧ state.latchedBreach = none := by
  obtain ⟨mark, hmark, htime, _⟩ := equityMark_ok asOfUtc h
  obtain ⟨state, hstate, hfields⟩ := drawdownState_ok
    { scope := scope, subjectId := subjectId, peakEquityUsd := openingEquityUsd,
      currentEquityUsd := openingEquityUsd, dayStartUtc := utcDayStart asOfUtc,
      dayOpenEquityUsd := openingEquityUsd, rollingMarks := [mark], observedAtUtc := asOfUtc,
      latchedBreach := none }
    ⟨h, h, h, (utcDayStart_idem _).symm, le_rfl, by simp, by simp⟩
  refine ⟨state, ?_, ?_, by rw [hfields], by rw [hfields], by rw [hfields], by rw [hfields],
    by rw [hfields]⟩
  · simp only [openFirstTime, bind_eq_ok, requirePositiveEquity_eq_ok]
    exact ⟨(), h, mark, hmark, hstate⟩
  · exact ⟨by rw [hfields]; simp [htime], by rw [hfields]; simp⟩

/-- Observing a positive equity no earlier than the last one: what becomes of the state. -/
theorem withEquity_ok {state : DrawdownState} (hkept : Kept state) {equityUsd : Decimal}
    {asOfUtc : DateTime} (hequity : 0 < equityUsd) (htime : state.observedAtUtc ≤ asOfUtc) :
    ∃ next, withEquity state equityUsd asOfUtc = .ok next ∧ Kept next ∧
      next.scope = state.scope ∧ next.subjectId = state.subjectId ∧ next.observedAtUtc = asOfUtc ∧
      next.peakEquityUsd = max state.peakEquityUsd equityUsd ∧
      next.latchedBreach = state.latchedBreach := by
  obtain ⟨mark, hmark, hmarktime, _⟩ := equityMark_ok asOfUtc hequity
  have hvalid := state.valid
  have hsorted : (state.rollingMarks ++ [mark]).Pairwise
      fun a b => a.observedAtUtc ≤ b.observedAtUtc := by
    refine List.pairwise_append.mpr ⟨hvalid.marks_sorted, List.pairwise_singleton _ _, ?_⟩
    intro a ha b hb
    rw [List.mem_singleton.mp hb, hmarktime]
    exact (hkept.marks_le a ha).trans htime
  have hmem : mark ∈ prune (state.rollingMarks ++ [mark]) asOfUtc :=
    hmarktime ▸ mem_prune_self (List.mem_append_right _ (List.mem_singleton_self mark))
  obtain ⟨next, hnext, hfields⟩ := drawdownState_ok
    { state.toDrawdownStateFields with
      peakEquityUsd := max state.peakEquityUsd equityUsd
      currentEquityUsd := equityUsd
      dayStartUtc := utcDayStart asOfUtc
      dayOpenEquityUsd :=
        if state.dayStartUtc < utcDayStart asOfUtc then equityUsd else state.dayOpenEquityUsd
      rollingMarks := prune (state.rollingMarks ++ [mark]) asOfUtc
      observedAtUtc := asOfUtc }
    { peak_pos := lt_max_of_lt_left hvalid.peak_pos
      current_pos := hequity
      dayOpen_pos := by
        dsimp only
        split
        · exact hequity
        · exact hvalid.dayOpen_pos
      dayStart := (utcDayStart_idem _).symm
      current_le_peak := le_max_right _ _
      marks_ne := List.ne_nil_of_mem hmem
      marks_sorted := prune_sorted asOfUtc hsorted }
  refine ⟨next, ?_, ⟨?_, ?_⟩, by rw [hfields], by rw [hfields], by rw [hfields], by rw [hfields],
    by rw [hfields]⟩
  · simp only [withEquity, bind_eq_ok, requirePositiveEquity_eq_ok, raiseIf_eq_ok, not_lt]
    exact ⟨(), hequity, (), htime, mark, hmark, hnext⟩
  · rw [hfields]
    intro m hm
    rcases List.mem_append.mp (mem_of_mem_prune hm) with hold | hnew
    · exact (hkept.marks_le m hold).trans htime
    · rw [List.mem_singleton.mp hnew, hmarktime]
  · rw [hfields]
    exact hkept.latched

/-- Evaluating budgets of the state's own scope: the verdict carries the state with the breach latched. -/
theorem evaluate_ok {state : DrawdownState} {budgets : DrawdownBudgets}
    (hscope : budgets.scope = state.scope) :
    ∃ verdict, evaluate state budgets = .ok verdict ∧
      verdict.state.toDrawdownStateFields =
        { state.toDrawdownStateFields with
          latchedBreach := state.latchedBreach.or (firstBreach state budgets) } ∧
      verdict.breach = state.latchedBreach.or (firstBreach state budgets) ∧
      (verdict.breach.isSome → verdict.deriskMultiplier = 0) := by
  have hvalid := state.valid
  obtain ⟨latched, hlatched, hfields⟩ := drawdownState_ok
    { state.toDrawdownStateFields with
      latchedBreach := state.latchedBreach.or (firstBreach state budgets) }
    ⟨hvalid.peak_pos, hvalid.current_pos, hvalid.dayOpen_pos, hvalid.dayStart,
      hvalid.current_le_peak, hvalid.marks_ne, hvalid.marks_sorted⟩
  refine ⟨_, bind_eq_ok.mpr ⟨(), raiseIf_eq_ok.mpr (not_not.mpr hscope),
    bind_eq_ok.mpr ⟨latched, hlatched, rfl⟩⟩, hfields, rfl, fun h => if_pos h⟩

theorem kept_of_evaluate {state next : DrawdownState} {budgets : DrawdownBudgets}
    (hkept : Kept state) (hbudgets : ∀ name, 0 ≤ budgets.budgetFor name)
    (hfields : next.toDrawdownStateFields =
      { state.toDrawdownStateFields with
        latchedBreach := state.latchedBreach.or (firstBreach state budgets) }) : Kept next := by
  constructor
  · rw [hfields]
    exact hkept.marks_le
  · rw [hfields]
    intro breach hbreach
    rcases hlatched : state.latchedBreach with _ | old
    · rw [hlatched, Option.none_or] at hbreach
      obtain ⟨name, _, rfl⟩ := Option.map_eq_some_iff.mp hbreach
      exact ⟨rfl, rfl, rfl, drawdownRatio_nonneg state name, hbudgets name⟩
    · rw [hlatched, Option.some_or] at hbreach
      exact hkept.latched breach (hlatched.trans hbreach)

/-! ### The row -/

theorem decodeMark_markRow (mark : EquityMark) : decodeMark (markRow mark) = .ok mark := by
  have hequity : decodeEquity
      [("observed_at_utc", .text [.instant mark.observedAtUtc]),
        ("equity_usd", .text [.decimal mark.equityUsd])] "equity_usd" = .ok mark.equityUsd :=
    bind_eq_ok.mpr ⟨_, rfl, bind_eq_ok.mpr ⟨_, rfl,
      bind_eq_ok.mpr ⟨(), requirePositiveEquity_eq_ok.mpr mark.equity_pos, rfl⟩⟩⟩
  exact bind_eq_ok.mpr ⟨_, rfl, bind_eq_ok.mpr ⟨_, hequity, construct_ok mark.checked⟩⟩

theorem decodeBreach_breachRow {scope : Scope} {subjectId : String} {breach : BreachRecord}
    (hscope : breach.scope = scope) (hsubject : breach.subjectId = subjectId)
    (hresponse : breach.response = responseByScope scope) (hobserved : 0 ≤ breach.observedRatio)
    (hbudget : 0 ≤ breach.budgetRatio) :
    decodeBreach scope subjectId (breachRow breach) = .ok (some breach) := by
  have hlimit : decodeMember limitNames (.text [.text breach.limitName.value])
      ["persisted limit_name is unknown: "] = .ok breach.limitName := by
    cases breach.limitName <;> rfl
  have hratio : ∀ (row : Row) (name : String) (d : Decimal), row.get name = .text [.decimal d] →
      0 ≤ d → decodeRatio row name = .ok d := by
    intro row name d hget hd
    refine bind_eq_ok.mpr ⟨[.decimal d], by rw [rowText, hget], bind_eq_ok.mpr ⟨d, rfl, ?_⟩⟩
    exact bind_eq_ok.mpr ⟨(), raiseIf_eq_ok.mpr (not_lt.mpr hd), rfl⟩
  refine bind_eq_ok.mpr ⟨_, hlimit, bind_eq_ok.mpr ⟨_, hratio _ _ _ rfl hobserved,
    bind_eq_ok.mpr ⟨_, hratio _ _ _ rfl hbudget, bind_eq_ok.mpr ⟨_, rfl, ?_⟩⟩⟩⟩
  rw [← hscope] at hresponse
  subst hscope hsubject
  rw [← hresponse]
  rfl

theorem decodeEquity_ok {row : Row} {name : String} {d : Decimal}
    (hget : row.get name = .text [.decimal d]) (hd : 0 < d) : decodeEquity row name = .ok d :=
  bind_eq_ok.mpr ⟨[.decimal d], by rw [rowText, hget], bind_eq_ok.mpr ⟨d, rfl,
    bind_eq_ok.mpr ⟨(), requirePositiveEquity_eq_ok.mpr hd, rfl⟩⟩⟩

/-- A state with a named subject reads back from its row as it was. -/
theorem fromRow_toRow {state : DrawdownState} (hkept : Kept state)
    (hsubject : strip state.subjectId ≠ []) : fromRow (toRow state) = .ok state := by
  have hscope : decodeMember scopes (Row.get (toRow state) "scope")
      ["persisted scope must be strategy or portfolio, got "] = .ok state.scope := by
    change decodeMember scopes (.text [.text state.scope.value]) _ = _
    cases state.scope <;> rfl
  have hname : decodeSubject (Row.get (toRow state) "subject_id") = .ok state.subjectId :=
    bind_eq_ok.mpr ⟨(), raiseIf_eq_ok.mpr hsubject, rfl⟩
  have hmarks : decodeMarks (Row.get (toRow state) "rolling_marks") = .ok state.rollingMarks := by
    change decodeMarks (.sequence (state.rollingMarks.map markRow)) = _
    have hread := mapM_map_eq_ok (l := state.rollingMarks) fun mark _ => decodeMark_markRow mark
    cases hm : state.rollingMarks with
    | nil => exact absurd hm state.valid.marks_ne
    | cons mark rest => rwa [hm] at hread
  have hbreach : decodeBreach state.scope state.subjectId (Row.get (toRow state) "latched_breach") =
      .ok state.latchedBreach := by
    cases hlatched : state.latchedBreach with
    | none =>
      have hnull : Row.get (toRow state) "latched_breach" = .null := by
        unfold toRow
        rw [hlatched]
        rfl
      rw [hnull]
      rfl
    | some breach =>
      have hrow : Row.get (toRow state) "latched_breach" = breachRow breach := by
        unfold toRow
        rw [hlatched]
        rfl
      rw [hrow]
      obtain ⟨hs, hid, hresponse, hobserved, hbudget⟩ := hkept.latched breach hlatched
      exact decodeBreach_breachRow hs hid hresponse hobserved hbudget
  have hvalid := state.valid
  simp only [fromRow, bind_eq_ok]
  exact ⟨_, hscope, _, hname, _, hmarks, _, hbreach, _, decodeEquity_ok rfl hvalid.peak_pos, _,
    decodeEquity_ok rfl hvalid.current_pos, _, rfl, _, decodeEquity_ok rfl hvalid.dayOpen_pos, _, rfl,
    construct_ok state.checked⟩

/-! ### Runs -/

/-- What a caller does with the state: observe an equity, or evaluate the budgets. -/
inductive DrawdownAction where
  | observe (equityUsd : Decimal) (asOfUtc : DateTime)
  | evaluate (budgets : DrawdownBudgets)
  deriving DecidableEq

/-- The state a run has reached, and every verdict it has given. -/
structure DrawdownRun where
  state : DrawdownState
  verdicts : List LimitVerdict
  deriving DecidableEq

namespace DrawdownRun

def step (run : DrawdownRun) : DrawdownAction → PyResult DrawdownRun
  | .observe equityUsd asOfUtc => do
    let state ← withEquity run.state equityUsd asOfUtc
    return { run with state := state }
  | .evaluate budgets => do
    let verdict ← Risk.evaluate run.state budgets
    return ⟨verdict.state, run.verdicts ++ [verdict]⟩

/-- A restart: the state is read back from its row. -/
def restart (run : DrawdownRun) : PyResult DrawdownRun := do
  let state ← fromRow (toRow run.state)
  return { run with state := state }

/-- The run over the actions, with a restart before each marked one. -/
def steps (run : DrawdownRun) (actions : List (Bool × DrawdownAction)) : PyResult DrawdownRun :=
  actions.foldlM (reloadStep restart step) run

end DrawdownRun

/-- Actions the run takes without raising: positive equities at times that do not decrease, and
    non-negative budgets of the subject's own scope. -/
def Admissible (scope : Scope) : DateTime → List DrawdownAction → Prop
  | _, [] => True
  | time, .observe equityUsd asOfUtc :: rest =>
    0 < equityUsd ∧ time ≤ asOfUtc ∧ Admissible scope asOfUtc rest
  | time, .evaluate budgets :: rest =>
    (budgets.scope = scope ∧ ∀ name, 0 ≤ budgets.budgetFor name) ∧ Admissible scope time rest

/-- The equities a run observes, in order. -/
def equitiesSeen (actions : List DrawdownAction) : List Decimal :=
  actions.filterMap fun
    | .observe equityUsd _ => some equityUsd
    | .evaluate _ => none

/-- What holds of every run a subject reaches. -/
structure Sound (scope : Scope) (subjectId : String) (run : DrawdownRun) : Prop where
  kept : Kept run.state
  scope_eq : run.state.scope = scope
  subject_eq : run.state.subjectId = subjectId

/-- From a run with a latched breach the breach stays, and every verdict given later is halted with a
    zero multiplier. -/
def StaysLatched (run next : DrawdownRun) : Prop :=
  ∃ later, next.verdicts = run.verdicts ++ later ∧
    ∀ breach, run.state.latchedBreach = some breach → next.state.latchedBreach = some breach ∧
      ∀ verdict ∈ later, verdict.isHalted ∧ verdict.deriskMultiplier = 0

theorem StaysLatched.trans {run mid next : DrawdownRun} (h : StaysLatched run mid)
    (h' : StaysLatched mid next) : StaysLatched run next := by
  obtain ⟨first, hfirst, hlatch⟩ := h
  obtain ⟨second, hsecond, hlatch'⟩ := h'
  refine ⟨first ++ second, by rw [hsecond, hfirst, List.append_assoc], fun breach hbreach => ?_⟩
  obtain ⟨hmid, hverdicts⟩ := hlatch breach hbreach
  obtain ⟨hnext, hverdicts'⟩ := hlatch' breach hmid
  exact ⟨hnext, List.forall_mem_append.mpr ⟨hverdicts, hverdicts'⟩⟩

section Steps

variable {scope : Scope} {subjectId : String} {run : DrawdownRun}

theorem step_observe (hsound : Sound scope subjectId run) {equityUsd : Decimal} {asOfUtc : DateTime}
    (hequity : 0 < equityUsd) (htime : run.state.observedAtUtc ≤ asOfUtc) :
    ∃ next, run.step (.observe equityUsd asOfUtc) = .ok next ∧ Sound scope subjectId next ∧
      next.state.observedAtUtc = asOfUtc ∧
      next.state.peakEquityUsd = max run.state.peakEquityUsd equityUsd ∧ StaysLatched run next := by
  obtain ⟨state, hstate, hkept, hscope, hsubject, htime', hpeak, hlatched⟩ :=
    withEquity_ok hsound.kept hequity htime
  refine ⟨{ run with state := state }, bind_eq_ok.mpr ⟨state, hstate, rfl⟩,
    ⟨hkept, hscope.trans hsound.scope_eq, hsubject.trans hsound.subject_eq⟩, htime', hpeak,
    [], by simp, fun breach hbreach => ⟨hlatched.trans hbreach, by simp⟩⟩

theorem step_evaluate (hsound : Sound scope subjectId run) {budgets : DrawdownBudgets}
    (hscope : budgets.scope = scope) (hbudgets : ∀ name, 0 ≤ budgets.budgetFor name) :
    ∃ next, run.step (.evaluate budgets) = .ok next ∧ Sound scope subjectId next ∧
      next.state.observedAtUtc = run.state.observedAtUtc ∧
      next.state.peakEquityUsd = run.state.peakEquityUsd ∧ StaysLatched run next := by
  obtain ⟨verdict, hverdict, hfields, hbreach, hzero⟩ :=
    evaluate_ok (hscope.trans hsound.scope_eq.symm)
  refine ⟨⟨verdict.state, run.verdicts ++ [verdict]⟩, bind_eq_ok.mpr ⟨verdict, hverdict, rfl⟩,
    ⟨kept_of_evaluate hsound.kept hbudgets hfields, ?_, ?_⟩, by rw [hfields], by rw [hfields],
    [verdict], rfl, fun breach hlatched => ?_⟩
  · rw [hfields]
    exact hsound.scope_eq
  · rw [hfields]
    exact hsound.subject_eq
  · rw [hlatched, Option.some_or] at hbreach hfields
    have hhalted : verdict.isHalted := by rw [LimitVerdict.isHalted, hbreach]; rfl
    refine ⟨by rw [hfields], fun v hv => ?_⟩
    rw [List.mem_singleton.mp hv]
    exact ⟨hhalted, hzero hhalted⟩

/-- A step that returns was an admissible one, evaluations of negative budgets apart. -/
theorem sound_of_step (hsound : Sound scope subjectId run) {action : DrawdownAction}
    {next : DrawdownRun} (hbudgets : ∀ budgets, action = .evaluate budgets →
      ∀ name, 0 ≤ budgets.budgetFor name) (h : run.step action = .ok next) :
    Sound scope subjectId next := by
  cases action with
  | observe equityUsd asOfUtc =>
    obtain ⟨state, hstate, _⟩ := bind_eq_ok.mp h
    simp only [withEquity, bind_eq_ok, requirePositiveEquity_eq_ok, raiseIf_eq_ok, not_lt] at hstate
    obtain ⟨_, hequity, _, htime, _⟩ := hstate
    obtain ⟨next', hnext', hsound', _⟩ := step_observe hsound hequity htime
    exact Except.ok.inj (hnext'.symm.trans h) ▸ hsound'
  | evaluate budgets =>
    obtain ⟨verdict, hverdict, _⟩ := bind_eq_ok.mp h
    obtain ⟨_, hscope, _⟩ := bind_eq_ok.mp hverdict
    rw [raiseIf_eq_ok, not_not] at hscope
    obtain ⟨next', hnext', hsound', _⟩ :=
      step_evaluate hsound (hscope.trans hsound.scope_eq) (hbudgets budgets rfl)
    exact Except.ok.inj (hnext'.symm.trans h) ▸ hsound'

/-- An admissible run returns; its peak is the greatest equity seen, and a latched breach stays. -/
theorem foldlM_step_ok : ∀ {earlier later : List DrawdownAction} {run : DrawdownRun},
    Sound scope subjectId run → Admissible scope run.state.observedAtUtc (earlier ++ later) →
    ∃ next, earlier.foldlM DrawdownRun.step run = .ok next ∧ Sound scope subjectId next ∧
      Admissible scope next.state.observedAtUtc later ∧
      next.state.peakEquityUsd = (equitiesSeen earlier).foldl max run.state.peakEquityUsd ∧
      StaysLatched run next
  | [], later, run, hsound, hlater =>
    ⟨run, rfl, hsound, hlater, rfl, [], by simp, fun _ h => ⟨h, by simp⟩⟩
  | .observe equityUsd asOfUtc :: rest, later, run, hsound, ⟨hequity, htime, hrest⟩ => by
    obtain ⟨mid, hmid, hsound', htime', hpeak, hlatch⟩ := step_observe hsound hequity htime
    obtain ⟨next, hnext, hsound'', hlater, hpeak', hlatch'⟩ := foldlM_step_ok hsound' (htime' ▸ hrest)
    exact ⟨next, bind_eq_ok.mpr ⟨mid, hmid, hnext⟩, hsound'', hlater, by rw [hpeak', hpeak]; rfl,
      hlatch.trans hlatch'⟩
  | .evaluate budgets :: rest, later, run, hsound, ⟨⟨hscope, hbudgets⟩, hrest⟩ => by
    obtain ⟨mid, hmid, hsound', htime', hpeak, hlatch⟩ := step_evaluate hsound hscope hbudgets
    obtain ⟨next, hnext, hsound'', hlater, hpeak', hlatch'⟩ := foldlM_step_ok hsound' (htime' ▸ hrest)
    exact ⟨next, bind_eq_ok.mpr ⟨mid, hmid, hnext⟩, hsound'', hlater, by rw [hpeak', hpeak]; rfl,
      hlatch.trans hlatch'⟩

/-- Restarts at any points of a run change nothing of it. -/
theorem steps_eq (hsubject : strip subjectId ≠ []) (hsound : Sound scope subjectId run)
    {actions : List (Bool × DrawdownAction)} (hbudgets : ∀ action ∈ actions, ∀ budgets,
      action.2 = .evaluate budgets → ∀ name, 0 ≤ budgets.budgetFor name) :
    run.steps actions = (actions.map Prod.snd).foldlM DrawdownRun.step run := by
  refine foldlM_reloadStep (Sound scope subjectId) (fun action => ∀ budgets,
    action = .evaluate budgets → ∀ name, 0 ≤ budgets.budgetFor name) ?_ ?_ actions run hsound hbudgets
  · intro run hsound
    exact bind_eq_ok.mpr
      ⟨run.state, fromRow_toRow hsound.kept (hsound.subject_eq ▸ hsubject), rfl⟩
  · intro run action next hsound hbudgets hnext
    exact sound_of_step hsound hbudgets hnext

theorem budgets_of_admissible : ∀ {actions : List DrawdownAction} {time : DateTime},
    Admissible scope time actions → ∀ action ∈ actions, ∀ budgets, action = .evaluate budgets →
      ∀ name, 0 ≤ budgets.budgetFor name
  | .observe _ _ :: rest, _, ⟨_, _, hrest⟩, action, haction, budgets, hbudgets => by
    rcases List.mem_cons.mp haction with rfl | haction
    · cases hbudgets
    · exact budgets_of_admissible hrest action haction budgets hbudgets
  | .evaluate _ :: rest, _, ⟨⟨_, hhead⟩, hrest⟩, action, haction, budgets, hbudgets => by
    rcases List.mem_cons.mp haction with rfl | haction
    · cases hbudgets
      exact hhead
    · exact budgets_of_admissible hrest action haction budgets hbudgets

end Steps

theorem le_foldl_max : ∀ (l : List Decimal) (x : Decimal), x ≤ l.foldl max x
  | [], _ => le_rfl
  | a :: l, x => (le_max_left x a).trans (le_foldl_max l (max x a))

/-- A named subject's admissible run returns, is the same run with restarts at any points of it, has
    the greatest equity seen as its peak at every point, and keeps a latched breach: every verdict
    after it is halted with a zero multiplier. -/
theorem drawdown_survives_restarts {scope : Scope} {subjectId : String} {openingEquityUsd : Decimal}
    {asOfUtc : DateTime} {actions : List (Bool × DrawdownAction)} (hsubject : strip subjectId ≠ [])
    (hopening : 0 < openingEquityUsd)
    (hactions : Admissible scope asOfUtc (actions.map Prod.snd)) :
    ∃ start final, openFirstTime scope subjectId openingEquityUsd asOfUtc = .ok start ∧
      (actions.map Prod.snd).foldlM DrawdownRun.step ⟨start, []⟩ = .ok final ∧
      (DrawdownRun.mk start []).steps actions = .ok final ∧
      ∀ earlier later, actions.map Prod.snd = earlier ++ later →
        ∃ mid, earlier.foldlM DrawdownRun.step ⟨start, []⟩ = .ok mid ∧
          later.foldlM DrawdownRun.step mid = .ok final ∧
          mid.state.peakEquityUsd = (equitiesSeen earlier).foldl max openingEquityUsd ∧
          mid.state.peakEquityUsd ≤ final.state.peakEquityUsd ∧ StaysLatched mid final := by
  obtain ⟨start, hstart, hkept, hscope, hid, htime, hpeak, _⟩ :=
    openFirstTime_ok scope subjectId asOfUtc hopening
  have hsound : Sound scope subjectId ⟨start, []⟩ := ⟨hkept, hscope, hid⟩
  have hrun : ∀ earlier later, actions.map Prod.snd = earlier ++ later →
      ∃ mid final, earlier.foldlM DrawdownRun.step ⟨start, []⟩ = .ok mid ∧
        later.foldlM DrawdownRun.step mid = .ok final ∧
        mid.state.peakEquityUsd = (equitiesSeen earlier).foldl max openingEquityUsd ∧
        mid.state.peakEquityUsd ≤ final.state.peakEquityUsd ∧ StaysLatched mid final := by
    intro earlier later hsplit
    rw [hsplit, ← htime] at hactions
    obtain ⟨mid, hmid, hsound', hlater, hpeak', _⟩ := foldlM_step_ok hsound hactions
    rw [← List.append_nil later] at hlater
    obtain ⟨final, hfinal, _, _, hpeak'', hlatch⟩ := foldlM_step_ok hsound' hlater
    exact ⟨mid, final, hmid, hfinal, by rw [hpeak', ← hpeak],
      hpeak'' ▸ le_foldl_max _ _, hlatch⟩
  obtain ⟨_, final, hmid, hfinal, _⟩ := hrun [] (actions.map Prod.snd) rfl
  obtain rfl := Except.ok.inj hmid
  have hsteps := steps_eq hsubject hsound fun action haction =>
    budgets_of_admissible hactions action.2 (List.mem_map_of_mem haction)
  refine ⟨start, final, hstart, hfinal, hsteps.trans hfinal, fun earlier later hsplit => ?_⟩
  obtain ⟨mid, final', hmid', hfinal', hfacts⟩ := hrun earlier later hsplit
  have hsame : final' = final := by
    rw [hsplit, List.foldlM_append, hmid'] at hfinal
    exact Except.ok.inj (hfinal'.symm.trans hfinal)
  exact ⟨mid, hmid', hsame ▸ hfinal', hsame ▸ hfacts⟩

/-- A strategy at 100 that falls to 80, breaches a tenth of drawdown and recovers. -/
def recoveredActions : List (Bool × DrawdownAction) :=
  [(false, .observe 80 1), (true, .evaluate ⟨⟨.strategy, 1 / 10, 3 / 100⟩, by decide +kernel⟩),
    (true, .observe 110 2), (true, .evaluate ⟨⟨.strategy, 1 / 10, 3 / 100⟩, by decide +kernel⟩)]

theorem drawdown_survives_restarts_recovered :
    ∃ start final, openFirstTime .strategy "alpha" 100 0 = .ok start ∧
      (recoveredActions.map Prod.snd).foldlM DrawdownRun.step ⟨start, []⟩ = .ok final ∧
      (DrawdownRun.mk start []).steps recoveredActions = .ok final ∧
      ∀ earlier later, recoveredActions.map Prod.snd = earlier ++ later →
        ∃ mid, earlier.foldlM DrawdownRun.step ⟨start, []⟩ = .ok mid ∧
          later.foldlM DrawdownRun.step mid = .ok final ∧
          mid.state.peakEquityUsd = (equitiesSeen earlier).foldl max 100 ∧
          mid.state.peakEquityUsd ≤ final.state.peakEquityUsd ∧ StaysLatched mid final := by
  have hbudgets : ∀ name, 0 ≤ DrawdownBudgetsFields.budgetFor ⟨.strategy, 1 / 10, 3 / 100⟩ name := by
    intro name
    cases name <;> norm_num [DrawdownBudgetsFields.budgetFor,
      DrawdownBudgetsFields.rollingLossRatio, rollingMultiple]
  refine drawdown_survives_restarts (by decide) (by norm_num) ?_
  exact ⟨by norm_num, by decide, ⟨rfl, hbudgets⟩, by norm_num, by decide, ⟨rfl, hbudgets⟩, trivial⟩

/-- A state opened for a blank subject, and one that latched a negative budget, are refused when they
    are read back. -/
theorem restart_refuses_blank_subject_and_negative_budget :
    (∃ start, openFirstTime .strategy "" 100 0 = .ok start ∧
      ((DrawdownRun.mk start []).steps [(false, .observe 100 0)]).isOk ∧
      ¬((DrawdownRun.mk start []).steps [(true, .observe 100 0)]).isOk) ∧
    ∃ start budgets, openFirstTime .strategy "alpha" 100 0 = .ok start ∧
      ((DrawdownRun.mk start []).steps [(false, .evaluate budgets), (false, .observe 100 0)]).isOk ∧
      ¬((DrawdownRun.mk start []).steps [(false, .evaluate budgets), (true, .observe 100 0)]).isOk := by
  refine ⟨⟨⟨⟨.strategy, "", 100, 100, 0, 100, [⟨⟨0, 100⟩, ?_⟩], 0, none⟩, ?_⟩, ?_, ?_, ?_⟩,
    ⟨⟨.strategy, "alpha", 100, 100, 0, 100, [⟨⟨0, 100⟩, ?_⟩], 0, none⟩, ?_⟩,
    ⟨⟨.strategy, 1 / 10, -1 / 100⟩, ?_⟩, ?_, ?_, ?_⟩ <;> decide +kernel

end FinanceKing.Risk
