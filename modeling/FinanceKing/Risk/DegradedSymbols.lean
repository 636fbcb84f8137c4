import FinanceKing.Risk.DegradedRun

/-! Which symbols a mode entered on one fault keeps blocked. The counters are the mode's, so what
    releases a symbol is a row of clears of the mode, whichever symbols they name. -/

namespace FinanceKing.Risk

open Lib

/-- How many of the latest observations are clears. -/
def clearsInARow (observations : List ModeObservation) : ℕ :=
  (observations.reverse.takeWhile fun observation => !observation.isFaulted).length

/-- The symbol was named by a fault since which there were never `threshold` clears in a row. -/
def Held (threshold : ℕ) (observations : List ModeObservation) (symbol : String) : Prop :=
  ∃ before fault after, observations = before ++ fault :: after ∧ fault.isFaulted = true ∧
    symbol ∈ fault.affectedSymbols ∧ ∀ part, part <+: after → clearsInARow part < threshold

section Held

variable {threshold : ℕ} {observations : List ModeObservation} {observation : ModeObservation}
  {symbol : String}

theorem clearsInARow_concat_of_fault (h : observation.isFaulted = true) :
    clearsInARow (observations ++ [observation]) = 0 := by
  simp [clearsInARow, h]

theorem clearsInARow_concat_of_clear (h : observation.isFaulted = false) :
    clearsInARow (observations ++ [observation]) = clearsInARow observations + 1 := by
  simp [clearsInARow, h]

/-- A fault ends the row: what came before it no longer counts. -/
theorem clearsInARow_after_fault (before : List ModeObservation) {fault : ModeObservation}
    (h : fault.isFaulted = true) (after : List ModeObservation) :
    clearsInARow (before ++ fault :: after) = clearsInARow after := by
  induction after using List.reverseRecOn with
  | nil => exact clearsInARow_concat_of_fault h
  | append_singleton after last ih =>
    rw [← List.cons_append, ← List.append_assoc]
    cases hlast : last.isFaulted with
    | true => rw [clearsInARow_concat_of_fault hlast, clearsInARow_concat_of_fault hlast]
    | false => rw [clearsInARow_concat_of_clear hlast, clearsInARow_concat_of_clear hlast, ih]

theorem not_held_nil : ¬Held threshold [] symbol := by
  rintro ⟨before, fault, after, h, -⟩
  simp at h

/-- Where a fault sits in a sequence that was extended by one observation. -/
theorem held_concat_iff : Held threshold (observations ++ [observation]) symbol ↔
    (observation.isFaulted = true ∧ symbol ∈ observation.affectedSymbols ∧ 0 < threshold) ∨
      ∃ before fault after, observations = before ++ fault :: after ∧ fault.isFaulted = true ∧
        symbol ∈ fault.affectedSymbols ∧ (∀ part, part <+: after → clearsInARow part < threshold) ∧
        clearsInARow (after ++ [observation]) < threshold := by
  constructor
  · rintro ⟨before, fault, after, hsplit, hfault, hsymbol, hrows⟩
    rcases List.eq_nil_or_concat' after with rfl | ⟨after, last, rfl⟩
    · obtain ⟨-, hlast⟩ := List.append_inj' hsplit rfl
      obtain rfl := List.singleton_inj.mp hlast
      exact .inl ⟨hfault, hsymbol, hrows [] (List.prefix_refl _)⟩
    · rw [← List.cons_append, ← List.append_assoc] at hsplit
      obtain ⟨hobservations, hlast⟩ := List.append_inj' hsplit rfl
      obtain rfl := List.singleton_inj.mp hlast
      exact .inr ⟨before, fault, after, hobservations, hfault, hsymbol,
        fun part hpart => hrows part (hpart.trans (List.prefix_append _ _)),
        hrows _ (List.prefix_refl _)⟩
  · rintro (⟨hfault, hsymbol, hpos⟩ | ⟨before, fault, after, rfl, hfault, hsymbol, hrows, hlast⟩)
    · refine ⟨observations, observation, [], rfl, hfault, hsymbol, fun part hpart => ?_⟩
      rw [List.prefix_nil.mp hpart]
      exact hpos
    · refine ⟨before, fault, after ++ [observation], by simp, hfault, hsymbol, fun part hpart => ?_⟩
      rcases List.prefix_concat_iff.mp hpart with rfl | hpart
      · exact hlast
      · exact hrows part hpart

/-- A fault holds its own symbols too. -/
theorem held_concat_of_fault (hpos : 0 < threshold) (h : observation.isFaulted = true) :
    Held threshold (observations ++ [observation]) symbol ↔
      Held threshold observations symbol ∨ symbol ∈ observation.affectedSymbols := by
  rw [held_concat_iff]
  constructor
  · rintro (⟨-, hsymbol, -⟩ | ⟨before, fault, after, hsplit, hfault, hsymbol, hrows, -⟩)
    · exact .inr hsymbol
    · exact .inl ⟨before, fault, after, hsplit, hfault, hsymbol, hrows⟩
  · rintro (⟨before, fault, after, hsplit, hfault, hsymbol, hrows⟩ | hsymbol)
    · exact .inr ⟨before, fault, after, hsplit, hfault, hsymbol, hrows,
        by rw [clearsInARow_concat_of_fault h]; exact hpos⟩
    · exact .inl ⟨h, hsymbol, hpos⟩

/-- A clear releases every symbol once the row is long enough, and none before. -/
theorem held_concat_of_clear (h : observation.isFaulted = false) :
    Held threshold (observations ++ [observation]) symbol ↔
      Held threshold observations symbol ∧ clearsInARow observations + 1 < threshold := by
  rw [held_concat_iff]
  constructor
  · rintro (⟨hfault, -⟩ | ⟨before, fault, after, hsplit, hfault, hsymbol, hrows, hlast⟩)
    · exact absurd (h.symm.trans hfault) (by simp)
    · rw [clearsInARow_concat_of_clear h] at hlast
      refine ⟨⟨before, fault, after, hsplit, hfault, hsymbol, hrows⟩, ?_⟩
      rwa [hsplit, clearsInARow_after_fault before hfault]
  · rintro ⟨⟨before, fault, after, hsplit, hfault, hsymbol, hrows⟩, hrow⟩
    rw [hsplit, clearsInARow_after_fault before hfault] at hrow
    exact .inr ⟨before, fault, after, hsplit, hfault, hsymbol, hrows,
      by rwa [clearsInARow_concat_of_clear h]⟩

end Held

/-! ### The symbols of an entry -/

/-- The mode is entered with the symbol among those it was entered for. -/
def ModeProgress.holds (self : ModeProgress) (symbol : String) : Prop :=
  ∃ entry, self.entry = some entry ∧ symbol ∈ entry.affectedSymbols

/-- The progress of a mode counts the row of clears and holds the symbols of its applied observations. -/
structure Counts (applied : List ModeObservation) (mode : DegradedMode) (progress : ModeProgress) :
    Prop where
  clears : progress.consecutiveClears =
    min (clearsInARow applied) (modeRules mode).consecutiveClearsToExit
  symbols : ∀ symbol, progress.holds symbol ↔
    Held (modeRules mode).consecutiveClearsToExit applied symbol

section Counts

variable {applied : List ModeObservation} {mode : DegradedMode} {progress : ModeProgress}
  {observation : ModeObservation}

theorem mem_enteredBy (observation : ModeObservation) (previous : Option ModeEntry) (symbol : String) :
    symbol ∈ (enteredBy observation previous).affectedSymbols ↔
      (∃ entry, previous = some entry ∧ symbol ∈ entry.affectedSymbols) ∨
        symbol ∈ observation.affectedSymbols := by
  cases previous with
  | none => simp [enteredBy]
  | some entry => simp [enteredBy, mem_widened]

/-- A fault of a mode that enters on one. -/
theorem Counts.fault (h : Counts applied mode progress) (hmode : observation.mode = mode)
    (hfault : observation.isFaulted = true) (henters : (modeRules mode).consecutiveFaultsToEnter = 1) :
    Counts (applied ++ [observation]) mode (progress.advanced observation) := by
  have hadvanced : progress.advanced observation = (progress.afterFault observation).1 := by
    rw [ModeProgress.advanced, if_pos hfault]
  have hentry : (progress.afterFault observation).1.entry =
      some (enteredBy observation progress.entry) := by
    refine if_pos ?_
    rw [hmode, henters]
    exact le_min (Nat.le_add_left 1 _) le_rfl
  rw [hadvanced]
  refine ⟨?_, fun symbol => ?_⟩
  · rw [clearsInARow_concat_of_fault hfault, Nat.zero_min]
    rfl
  · rw [held_concat_of_fault (modeRules mode).clears_pos hfault, ← h.symbols]
    constructor
    · rintro ⟨entry, hsome, hsymbol⟩
      obtain rfl := Option.some.inj (hentry.symm.trans hsome)
      exact (mem_enteredBy observation progress.entry symbol).mp hsymbol
    · intro hheld
      exact ⟨_, hentry, (mem_enteredBy observation progress.entry symbol).mpr hheld⟩

/-- A clear of a mode that needs no reconciliation. -/
theorem Counts.clear (h : Counts applied mode progress) (hmode : observation.mode = mode)
    (hclear : observation.isFaulted = false)
    (hfree : (modeRules mode).requiresCleanReconciliationToExit = false) :
    Counts (applied ++ [observation]) mode (progress.advanced observation) := by
  have hadvanced : progress.advanced observation = (progress.afterClear observation).1 := by
    rw [ModeProgress.advanced, if_neg (by simp [hclear])]
  have hclears : (progress.afterClear observation).1.consecutiveClears =
      min (clearsInARow applied + 1) (modeRules mode).consecutiveClearsToExit := by
    change min (progress.consecutiveClears + 1) (modeRules observation.mode).consecutiveClearsToExit = _
    rw [hmode, h.clears]
    omega
  have hentry : (progress.afterClear observation).1.entry =
      if clearsInARow applied + 1 < (modeRules mode).consecutiveClearsToExit then progress.entry
      else none := by
    have hleaves : ((modeRules observation.mode).consecutiveClearsToExit ≤
        min (progress.consecutiveClears + 1) (modeRules observation.mode).consecutiveClearsToExit ∧
          (observation.reconciliationIsClean = true ∨
            (modeRules observation.mode).requiresCleanReconciliationToExit = false)) ↔
        ¬clearsInARow applied + 1 < (modeRules mode).consecutiveClearsToExit := by
      rw [hmode, h.clears]
      constructor
      · rintro ⟨hrow, -⟩
        omega
      · intro hrow
        exact ⟨by omega, .inr hfree⟩
    by_cases hrow : clearsInARow applied + 1 < (modeRules mode).consecutiveClearsToExit
    · rw [if_pos hrow]
      exact if_neg fun hgone => hleaves.mp hgone hrow
    · rw [if_neg hrow]
      exact if_pos (hleaves.mpr hrow)
  rw [hadvanced]
  refine ⟨by rw [hclears, clearsInARow_concat_of_clear hclear], fun symbol => ?_⟩
  rw [held_concat_of_clear hclear, ← h.symbols, ModeProgress.holds, hentry]
  by_cases hrow : clearsInARow applied + 1 < (modeRules mode).consecutiveClearsToExit
  · rw [if_pos hrow, ModeProgress.holds]
    exact ⟨fun hheld => ⟨hheld, hrow⟩, And.left⟩
  · rw [if_neg hrow]
    constructor
    · rintro ⟨entry, hnone, -⟩
      cases hnone
    · rintro ⟨-, hshort⟩
      exact absurd hshort hrow

end Counts

/-- The observations of a mode a run applied. -/
def ModeRun.appliedTo (self : ModeRun) (mode : DegradedMode) : List ModeObservation :=
  self.applied.filter fun observation => observation.mode = mode

/-- In every run, a mode that enters on one fault and needs no reconciliation counts its observations. -/
theorem counts_of (observations : List ModeObservation) {mode : DegradedMode}
    (henters : (modeRules mode).consecutiveFaultsToEnter = 1)
    (hfree : (modeRules mode).requiresCleanReconciliationToExit = false) :
    Counts ((ModeRun.of observations).appliedTo mode) mode
      ((ModeRun.of observations).state.progressFor mode) := by
  induction observations using List.reverseRecOn with
  | nil =>
    refine ⟨by simp [ModeRun.of, ModeRun.init, ModeRun.appliedTo, clearsInARow,
      DegradedModeState.progressFor, DegradedModeState.init, ModeProgress.init], fun symbol => ?_⟩
    constructor
    · rintro ⟨entry, hnone, -⟩
      cases hnone
    · exact fun h => absurd h not_held_nil
  | append_singleton observations observation ih =>
    rw [ModeRun.of_concat]
    by_cases hsuper : ((ModeRun.of observations).state.progressFor observation.mode).superseded observation
    · rw [step_of_superseded observation hsuper]
      exact ih
    · have hprogress := progressFor_observe (ModeRun.of observations).state observation mode hsuper
      have happlied : ((ModeRun.of observations).step observation).appliedTo mode =
          ((ModeRun.of observations).applied ++ [observation]).filter fun o => o.mode = mode := by
        rw [ModeRun.appliedTo, ModeRun.step, if_neg hsuper]
      rw [happlied, ModeRun.step]
      dsimp only
      rw [hprogress]
      by_cases hmode : mode = observation.mode
      · subst hmode
        rw [if_pos rfl, List.filter_append, List.filter_cons_of_pos (by simp), List.filter_nil]
        cases hfaulted : observation.isFaulted with
        | true => exact ih.fault rfl hfaulted henters
        | false => exact ih.clear rfl hfaulted hfree
      · rw [if_neg hmode, filter_concat_of_neg _ (by simpa using fun h => hmode h.symm)]
        exact ih

theorem entryFor_eq (state : DegradedModeState) (mode : DegradedMode) :
    state.entryFor mode = (state.progressFor mode).entry := by
  rw [DegradedModeState.entryFor, DegradedModeState.progressFor]
  cases state.progress.get? mode <;> rfl

/-- The blocked symbols are those held by a mode that restricts its symbols. -/
theorem mem_blockedSymbols (state : DegradedModeState) (symbol : String) :
    symbol ∈ state.blockedSymbols ↔ ∃ mode, (modeRules mode).restrictsAffectedSymbols = true ∧
      (state.progressFor mode).holds symbol := by
  simp only [DegradedModeState.blockedSymbols, DegradedModeState.symbolsWhere, List.mem_toFinset,
    List.mem_flatMap, List.mem_filter, DegradedModeState.activeModes, DegradedModeState.isActive,
    entryFor_eq]
  constructor
  · rintro ⟨mode, ⟨-, hrestricts⟩, hsymbol⟩
    cases hentry : (state.progressFor mode).entry with
    | none => simp [hentry] at hsymbol
    | some entry => exact ⟨mode, hrestricts, entry, hentry, by simpa [hentry] using hsymbol⟩
  · rintro ⟨mode, hrestricts, entry, hentry, hsymbol⟩
    exact ⟨mode, ⟨⟨mem_degradedModes mode, by simp [hentry]⟩, hrestricts⟩, by simpa [hentry] using hsymbol⟩

theorem stale_counts (observations : List ModeObservation) :
    Counts ((ModeRun.of observations).appliedTo .dataStale) .dataStale
      ((ModeRun.of observations).state.progressFor .dataStale) := counts_of observations rfl rfl

/-- After every sequence of observations, the symbols stale data holds are those named by an applied
    stale observation since which the required clears of the mode were never seen in a row, and each of
    them is blocked. -/
theorem stale_symbol_blocked (observations : List ModeObservation) (symbol : String) :
    (((ModeRun.of observations).state.progressFor .dataStale).holds symbol ↔
        Held (modeRules .dataStale).consecutiveClearsToExit
          ((ModeRun.of observations).appliedTo .dataStale) symbol) ∧
      (Held (modeRules .dataStale).consecutiveClearsToExit
          ((ModeRun.of observations).appliedTo .dataStale) symbol →
        symbol ∈ (ModeRun.of observations).state.blockedSymbols) := by
  have hheld := (stale_counts observations).symbols symbol
  refine ⟨hheld, fun h => (mem_blockedSymbols _ symbol).mpr ⟨.dataStale, rfl, hheld.mpr h⟩⟩

/-- One report of the freshness of some symbols. -/
def freshnessFields (observationId : Uuid) (isFaulted : Bool) (affectedSymbols : List String) :
    ModeObservationFields :=
  { observationId := observationId
    correlationId := 0
    mode := .dataStale
    isFaulted := isFaulted
    observedAtUtc := observationId
    reason := "tick"
    affectedSymbols := affectedSymbols
    reconciliationIsClean := false }

/-- Two clears that name another symbol release the stale one. -/
theorem other_symbols_clears_release :
    ∃ stale first second : ModeObservation,
      stale.toModeObservationFields = freshnessFields 1 true ["BTCUSDT"] ∧
      first.toModeObservationFields = freshnessFields 2 false ["ETHUSDT"] ∧
      second.toModeObservationFields = freshnessFields 3 false ["ETHUSDT"] ∧
      "BTCUSDT" ∈ (ModeRun.of [stale, first]).state.blockedSymbols ∧
      "BTCUSDT" ∉ (ModeRun.of [stale, first, second]).state.blockedSymbols := by
  refine ⟨⟨freshnessFields 1 true ["BTCUSDT"], ?_⟩, ⟨freshnessFields 2 false ["ETHUSDT"], ?_⟩,
    ⟨freshnessFields 3 false ["ETHUSDT"], ?_⟩, rfl, rfl, rfl, ?_, ?_⟩ <;> decide +kernel

end FinanceKing.Risk
