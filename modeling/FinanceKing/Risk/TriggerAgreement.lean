import FinanceKing.Risk.DrawdownRun
import FinanceKing.Risk.Triggers

/-! The first three triggers and the drawdown limits are one mechanism: they fire together, the incident
    is named for the limit that breached, and size is zero exactly where they fire. -/

namespace FinanceKing.Risk

open Lib

/-! ### The size multiplier -/

theorem deriskScalar_nonneg (observed budget : Decimal) : 0 ≤ deriskScalar observed budget := by
  rw [deriskScalar]
  split
  · exact le_rfl
  · exact le_min zero_le_one (le_max_left _ _)

/-- A limit takes all size away exactly where its budget is used up. -/
theorem deriskScalar_eq_zero_iff {observed : Decimal} (budget : Decimal) (hobserved : 0 ≤ observed) :
    deriskScalar observed budget = 0 ↔ budget ≤ observed := by
  rw [deriskScalar]
  split
  · next hbudget => exact iff_of_true rfl (hbudget.trans hobserved)
  · next hbudget =>
    have hpos : 0 < budget := not_le.mp hbudget
    have hone : (1 : Decimal) ≠ 0 := one_ne_zero
    rw [max_eq_right hobserved, min_eq_iff, max_eq_left_iff]
    simp only [hone, false_and, false_or]
    constructor
    · rintro ⟨htaper, _⟩
      have hused : 1 ≤ observed / budget := by
        norm_num [deriskOnsetRatio, deriskTaperWidth] at htaper
        linarith
      exact (one_le_div hpos).mp hused
    · intro hle
      have hused : 1 ≤ observed / budget := (one_le_div hpos).mpr hle
      have htaper : 1 - (observed / budget - deriskOnsetRatio) / deriskTaperWidth ≤ 0 := by
        norm_num [deriskOnsetRatio, deriskTaperWidth]
        linarith
      exact ⟨htaper, max_le zero_le_one (htaper.trans zero_le_one)⟩

/-- A greater loss leaves no more size. -/
theorem deriskScalar_antitone (budget : Decimal) :
    Antitone fun observed => deriskScalar observed budget := by
  intro observed worse hle
  dsimp only [deriskScalar]
  split
  · exact le_rfl
  · next hbudget =>
    have hpos : 0 < budget := not_le.mp hbudget
    have hwidth : (0 : Decimal) < deriskTaperWidth := by norm_num [deriskTaperWidth]
    gcongr

/-- The size left under all three limits. -/
def sizeLeft (state : DrawdownState) (budgets : DrawdownBudgets) : Decimal :=
  let scalarFor := fun name => deriskScalar (state.observedRatioFor name) (budgets.budgetFor name)
  min (scalarFor .drawdown) (min (scalarFor .dailyLoss) (scalarFor .rollingLoss))

theorem firstBreach_isSome_iff {state : DrawdownState} {budgets : DrawdownBudgets} :
    (firstBreach state budgets).isSome ↔
      ∃ name, budgets.budgetFor name ≤ state.observedRatioFor name := by
  rw [firstBreach, Option.isSome_map, List.find?_isSome]
  constructor
  · rintro ⟨name, _, hle⟩
    exact ⟨name, of_decide_eq_true hle⟩
  · rintro ⟨name, hle⟩
    refine ⟨name, ?_, decide_eq_true hle⟩
    cases name <;> decide

/-- What is left is nothing exactly where some limit is crossed. -/
theorem sizeLeft_eq_zero_iff {state : DrawdownState} {budgets : DrawdownBudgets} :
    sizeLeft state budgets = 0 ↔ (firstBreach state budgets).isSome := by
  have hscalar := fun name => deriskScalar_eq_zero_iff (budgets.budgetFor name)
    (drawdownRatio_nonneg state name)
  have hnonneg := fun name =>
    deriskScalar_nonneg (state.observedRatioFor name) (budgets.budgetFor name)
  rw [firstBreach_isSome_iff, sizeLeft]
  constructor
  · intro hzero
    rcases min_choice (deriskScalar (state.observedRatioFor .drawdown) (budgets.budgetFor .drawdown))
        (min (deriskScalar (state.observedRatioFor .dailyLoss) (budgets.budgetFor .dailyLoss))
          (deriskScalar (state.observedRatioFor .rollingLoss) (budgets.budgetFor .rollingLoss)))
      with hfirst | hrest
    · exact ⟨.drawdown, (hscalar _).mp (hfirst.symm.trans hzero)⟩
    · rw [hrest] at hzero
      rcases min_choice (deriskScalar (state.observedRatioFor .dailyLoss) (budgets.budgetFor .dailyLoss))
          (deriskScalar (state.observedRatioFor .rollingLoss) (budgets.budgetFor .rollingLoss))
        with hsecond | hthird
      · exact ⟨.dailyLoss, (hscalar _).mp (hsecond.symm.trans hzero)⟩
      · exact ⟨.rollingLoss, (hscalar _).mp (hthird.symm.trans hzero)⟩
  · rintro ⟨name, hle⟩
    have hname := (hscalar name).mpr hle
    refine le_antisymm ?_ (le_min (hnonneg _) (le_min (hnonneg _) (hnonneg _)))
    rw [← hname]
    cases name with
    | drawdown => exact min_le_left _ _
    | dailyLoss => exact (min_le_right _ _).trans (min_le_left _ _)
    | rollingLoss => exact (min_le_right _ _).trans (min_le_right _ _)

/-- The verdict on an unlatched state, under budgets of its scope. -/
theorem evaluate_unlatched {state : DrawdownState} {budgets : DrawdownBudgets}
    (hunlatched : state.latchedBreach = none) (hscope : budgets.scope = state.scope) :
    ∃ verdict, evaluate state budgets = .ok verdict ∧ verdict.breach = firstBreach state budgets ∧
      verdict.deriskMultiplier = sizeLeft state budgets := by
  obtain ⟨verdict, hverdict, _, hbreach, _⟩ := evaluate_ok hscope
  rw [hunlatched, Option.none_or] at hbreach
  refine ⟨verdict, hverdict, hbreach, ?_⟩
  simp only [evaluate, bind_eq_ok, pure_eq_ok] at hverdict
  obtain ⟨_, _, latched, _, rfl⟩ := hverdict
  dsimp only at hbreach ⊢
  rw [hbreach]
  split
  · next hsome => exact (sizeLeft_eq_zero_iff.mpr hsome).symm
  · rfl

theorem evaluate_scope {state : DrawdownState} {budgets : DrawdownBudgets} {verdict : LimitVerdict}
    (h : evaluate state budgets = .ok verdict) : budgets.scope = state.scope := by
  obtain ⟨_, hscope, _⟩ := bind_eq_ok.mp h
  exact not_not.mp (raiseIf_eq_ok.mp hscope)

theorem sizeLeft_antitone {state worse : DrawdownState} (budgets : DrawdownBudgets)
    (h : ∀ name, state.observedRatioFor name ≤ worse.observedRatioFor name) :
    sizeLeft worse budgets ≤ sizeLeft state budgets :=
  min_le_min (deriskScalar_antitone _ (h .drawdown))
    (min_le_min (deriskScalar_antitone _ (h .dailyLoss)) (deriskScalar_antitone _ (h .rollingLoss)))

/-! ### The order of the table -/

/-- Triggers listed in table order, between two of its rows. -/
structure InTable (first last : ℕ) (firing : List FiringTrigger) : Prop where
  within : ∀ trigger ∈ firing,
    first ≤ triggerOrdinals trigger.triggerId ∧ triggerOrdinals trigger.triggerId ≤ last
  ordered : firing.Pairwise fun a b => triggerOrdinals a.triggerId ≤ triggerOrdinals b.triggerId

theorem InTable.append {first last first' last' : ℕ} {firing firing' : List FiringTrigger}
    (h : InTable first last firing) (h' : InTable first' last' firing') (hlast : last ≤ first')
    (hfirst : first ≤ last) (hfirst' : first' ≤ last') : InTable first last' (firing ++ firing') := by
  constructor
  · intro trigger htrigger
    rcases List.mem_append.mp htrigger with hearly | hlate
    · have hwithin := h.within trigger hearly
      omega
    · have hwithin := h'.within trigger hlate
      omega
  · refine List.pairwise_append.mpr ⟨h.ordered, h'.ordered, fun a ha b hb => ?_⟩
    exact (h.within a ha).2.trans (hlast.trans (h'.within b hb).1)

/-- Triggers that all carry one identity stand in its row. -/
theorem inTable_of_forall {triggerId : TriggerId} {firing : List FiringTrigger}
    (h : ∀ trigger ∈ firing, trigger.triggerId = triggerId) :
    InTable (triggerOrdinals triggerId) (triggerOrdinals triggerId) firing := by
  constructor
  · intro trigger htrigger
    rw [h trigger htrigger]
    exact ⟨le_rfl, le_rfl⟩
  · refine List.pairwise_of_forall_mem_list fun a ha b hb => ?_
    rw [h a ha, h b hb]

/-- A block of one identity, put before later rows. -/
theorem InTable.after {triggerId : TriggerId} {first last : ℕ} {firing later : List FiringTrigger}
    (hlater : InTable first last later) (h : ∀ trigger ∈ firing, trigger.triggerId = triggerId)
    (hrow : triggerOrdinals triggerId ≤ first) (hlast : first ≤ last) :
    InTable (triggerOrdinals triggerId) last (firing ++ later) :=
  (inTable_of_forall h).append hlater hrow le_rfl hlast

theorem forall_mem_toList {triggerId : TriggerId} {firing : Option FiringTrigger}
    (h : ∀ trigger, firing = some trigger → trigger.triggerId = triggerId) :
    ∀ trigger ∈ firing.toList, trigger.triggerId = triggerId :=
  fun trigger htrigger => h trigger (Option.mem_toList.mp htrigger)

section Blocks

variable (observations : TriggerObservations) (thresholds : TriggerThresholds)

theorem inTable_drawdownTriggers : InTable 1 3 (drawdownTriggers observations thresholds) := by
  simp only [drawdownTriggers, drawdownTriggerIds, List.filterMap_cons, List.filterMap_nil]
  split_ifs <;> constructor <;> simp [triggerOrdinals]

theorem lossVelocityTrigger_ok :
    ∃ velocity, lossVelocityTrigger observations thresholds = .ok velocity ∧
      ∀ trigger, velocity = some trigger → trigger.triggerId = .lossVelocity := by
  have hwindow : ¬lossVelocityWindow ≤ 0 := by decide
  have hobserved : ∃ observed,
      lossVelocityRatio observations.drawdownState lossVelocityWindow = .ok observed :=
    ⟨_, bind_eq_ok.mpr ⟨(), raiseIf_eq_ok.mpr hwindow, rfl⟩⟩
  obtain ⟨observed, hobserved⟩ := hobserved
  by_cases hbelow : observed < thresholds.lossVelocityRatio
  · refine ⟨none, bind_eq_ok.mpr ⟨observed, hobserved, if_pos hbelow⟩, ?_⟩
    rintro trigger ⟨⟩
  · refine ⟨some _, bind_eq_ok.mpr ⟨observed, hobserved, if_neg hbelow⟩, ?_⟩
    rintro trigger ⟨⟩
    rfl

theorem reconciliationTrigger_id : ∀ trigger, reconciliationTrigger observations = some trigger →
    trigger.triggerId = .reconciliationDivergence := by
  intro trigger h
  simp only [reconciliationTrigger] at h
  split_ifs at h
  rw [← Option.some.inj h]

theorem rejectionRateTrigger_id : ∀ trigger,
    rejectionRateTrigger observations thresholds = some trigger →
    trigger.triggerId = .orderRejectionRate := by
  intro trigger h
  simp only [rejectionRateTrigger] at h
  split_ifs at h
  rw [← Option.some.inj h]

theorem stalenessTriggers_id : ∀ trigger ∈ stalenessTriggers observations thresholds,
    trigger.triggerId = .marketDataStaleness := by
  intro trigger h
  obtain ⟨staleness, _, hstale⟩ := List.mem_filterMap.mp h
  dsimp only at hstale
  split_ifs at hstale
  rw [← Option.some.inj hstale]

theorem clockSkewTrigger_id : ∀ trigger, clockSkewTrigger observations thresholds = some trigger →
    trigger.triggerId = .clockSkew := by
  intro trigger h
  simp only [clockSkewTrigger] at h
  split_ifs at h
  rw [← Option.some.inj h]

theorem unhandledExceptionTrigger_id : ∀ trigger,
    unhandledExceptionTrigger observations = some trigger →
    trigger.triggerId = .unhandledException := by
  intro trigger h
  obtain ⟨name, _, rfl⟩ := Option.map_eq_some_iff.mp h
  rfl

theorem hardCeilingTriggers_ok :
    ∃ ceilings, hardCeilingTriggers observations = .ok ceilings ∧
      ∀ trigger ∈ ceilings, trigger.triggerId = .hardCeilingBreach := by
  refine ⟨_, bind_eq_ok.mpr ⟨⟨100000⟩, rfl, bind_eq_ok.mpr ⟨⟨10⟩, rfl, rfl⟩⟩, ?_⟩
  intro trigger h
  rcases List.mem_append.mp h with h | h <;> split at h <;> simp only [List.mem_singleton,
    List.not_mem_nil] at h <;> rw [h]

theorem auditWriteTrigger_id : ∀ trigger, auditWriteTrigger observations = some trigger →
    trigger.triggerId = .auditWriteFailure := by
  intro trigger h
  rw [auditWriteTrigger] at h
  split at h
  · rw [← Option.some.inj h]
  · cases h

theorem manualTrigger_id : ∀ trigger, manualTrigger observations = some trigger →
    trigger.triggerId = .manual := by
  intro trigger h
  obtain ⟨reason, _, rfl⟩ := Option.map_eq_some_iff.mp h
  rfl

end Blocks

/-- Evaluation always returns: the drawdown triggers first, then later rows of the table in order. -/
theorem evaluateTriggers_ok (observations : TriggerObservations)
    (thresholds : Option TriggerThresholds) :
    ∃ evaluation later, evaluateTriggers observations thresholds = .ok evaluation ∧
      evaluation.firing =
        drawdownTriggers observations (thresholds.getD defaultThresholds) ++ later ∧
      InTable 4 12 later := by
  obtain ⟨velocity, hvelocity, hvelocityId⟩ :=
    lossVelocityTrigger_ok observations (thresholds.getD defaultThresholds)
  obtain ⟨ceilings, hceilings, hceilingsId⟩ := hardCeilingTriggers_ok observations
  refine ⟨_, _, bind_eq_ok.mpr ⟨velocity, hvelocity, bind_eq_ok.mpr ⟨ceilings, hceilings, rfl⟩⟩,
    by simp only [List.append_assoc]; rfl, ?_⟩
  have hmanual : InTable 12 12 (manualTrigger observations).toList :=
    inTable_of_forall (forall_mem_toList (manualTrigger_id observations))
  have haudit := hmanual.after (forall_mem_toList (auditWriteTrigger_id observations))
    (by decide) le_rfl
  have hceiling := haudit.after hceilingsId (by decide) (by decide)
  have hexception := hceiling.after (forall_mem_toList (unhandledExceptionTrigger_id observations))
    (by decide) (by decide)
  have hskew := hexception.after
    (forall_mem_toList (clockSkewTrigger_id observations (thresholds.getD defaultThresholds)))
    (by decide) (by decide)
  have hstale := hskew.after
    (stalenessTriggers_id observations (thresholds.getD defaultThresholds)) (by decide) (by decide)
  have hrejected := hstale.after
    (forall_mem_toList (rejectionRateTrigger_id observations (thresholds.getD defaultThresholds)))
    (by decide) (by decide)
  have hdiverged := hrejected.after (forall_mem_toList (reconciliationTrigger_id observations))
    (by decide) (by decide)
  exact hdiverged.after (forall_mem_toList hvelocityId) (by decide) (by decide)

/-! ### Agreement -/

/-- The first drawdown trigger is the first limit crossed. -/
theorem head?_drawdownTriggers (observations : TriggerObservations) (thresholds : TriggerThresholds) :
    (drawdownTriggers observations thresholds = [] ∧
      firstBreach observations.drawdownState thresholds.portfolioBudgets = none) ∨
    ∃ trigger breach, (drawdownTriggers observations thresholds).head? = some trigger ∧
      firstBreach observations.drawdownState thresholds.portfolioBudgets = some breach ∧
      (breach.limitName, trigger.triggerId) ∈ drawdownTriggerIds ∧
      trigger.observedValue = breach.observedRatio ∧ trigger.thresholdValue = breach.budgetRatio := by
  simp only [drawdownTriggers, drawdownTriggerIds, firstBreach, limitOrder, List.filterMap_cons,
    List.filterMap_nil, List.find?_cons, List.find?_nil]
  by_cases hdrawdown : thresholds.portfolioBudgets.budgetFor .drawdown ≤
      observations.drawdownState.observedRatioFor .drawdown
  · simp only [hdrawdown, if_true, decide_true]
    exact .inr ⟨_, _, rfl, rfl, List.mem_cons_self, rfl, rfl⟩
  by_cases hdaily : thresholds.portfolioBudgets.budgetFor .dailyLoss ≤
      observations.drawdownState.observedRatioFor .dailyLoss
  · simp only [hdrawdown, hdaily, if_true, if_false, decide_true, decide_false]
    exact .inr ⟨_, _, rfl, rfl, List.mem_cons_of_mem _ List.mem_cons_self, rfl, rfl⟩
  by_cases hrolling : thresholds.portfolioBudgets.budgetFor .rollingLoss ≤
      observations.drawdownState.observedRatioFor .rollingLoss
  · simp only [hdrawdown, hdaily, hrolling, if_true, if_false, decide_true, decide_false]
    exact .inr ⟨_, _, rfl, rfl,
      List.mem_cons_of_mem _ (List.mem_cons_of_mem _ List.mem_cons_self), rfl, rfl⟩
  · simp only [hdrawdown, hdaily, hrolling, if_false, decide_false]
    exact .inl ⟨trivial, rfl⟩

/-- One of the first three triggers fires exactly where evaluation reports a breach, and the incident
    is then named for the limit that breached. -/
structure NamesTheBreach (evaluation : TriggerEvaluation) (verdict : LimitVerdict) : Prop where
  fires : (∃ trigger ∈ evaluation.firing, triggerOrdinals trigger.triggerId ≤ 3) ↔
    verdict.breach.isSome
  primary : ∀ breach, verdict.breach = some breach → ∃ trigger, evaluation.primary = some trigger ∧
    (breach.limitName, trigger.triggerId) ∈ drawdownTriggerIds ∧
    trigger.observedValue = breach.observedRatio ∧ trigger.thresholdValue = breach.budgetRatio

theorem namesTheBreach {observations : TriggerObservations} {thresholds : Option TriggerThresholds}
    {evaluation : TriggerEvaluation} {later : List FiringTrigger} {verdict : LimitVerdict}
    (hfiring : evaluation.firing =
      drawdownTriggers observations (thresholds.getD defaultThresholds) ++ later)
    (hlater : InTable 4 12 later)
    (hbreach : verdict.breach = firstBreach observations.drawdownState
      (thresholds.getD defaultThresholds).portfolioBudgets) :
    NamesTheBreach evaluation verdict := by
  have hrow : ∀ trigger ∈ later, ¬triggerOrdinals trigger.triggerId ≤ 3 := by
    intro trigger htrigger hle
    have hwithin := hlater.within trigger htrigger
    omega
  rcases head?_drawdownTriggers observations (thresholds.getD defaultThresholds) with
    ⟨hnil, hnone⟩ | ⟨trigger, breach, hhead, hsome, hnamed⟩
  · rw [hnone] at hbreach
    rw [hnil, List.nil_append] at hfiring
    constructor
    · rw [hfiring, hbreach]
      refine iff_of_false ?_ (by simp)
      rintro ⟨trigger, htrigger, hle⟩
      exact hrow trigger htrigger hle
    · intro breach hsome
      rw [hbreach] at hsome
      cases hsome
  · rw [hsome] at hbreach
    have hmem := List.mem_of_head? hhead
    constructor
    · rw [hfiring, hbreach]
      refine iff_of_true ⟨trigger, List.mem_append_left _ hmem, ?_⟩ rfl
      exact ((inTable_drawdownTriggers observations _).within trigger hmem).2
    · intro breach' hsome'
      rw [hbreach] at hsome'
      cases hsome'
      refine ⟨trigger, ?_, hnamed⟩
      rw [TriggerEvaluation.primary, hfiring, List.head?_append, hhead, Option.some_or]

theorem TriggerObservations.scope_eq (self : TriggerObservations) :
    self.drawdownState.scope = .portfolio := by
  obtain ⟨_, hscope, _⟩ := bind_eq_ok.mp self.checked
  exact not_not.mp (raiseIf_eq_ok.mp hscope)

theorem TriggerThresholds.scope_eq (self : TriggerThresholds) :
    self.portfolioBudgets.scope = .portfolio := by
  obtain ⟨_, hscope, _⟩ := bind_eq_ok.mp self.checked
  exact not_not.mp (raiseIf_eq_ok.mp hscope)

end FinanceKing.Risk
