import FinanceKing.Execution.Preflight

/-! What a pre-flight run comes to. Whatever a venue answers, the outcomes are the first items in order and at most the
    last one failed, no later item called out, and the gate opens only for a journal that was read and holds no open
    incident. Three refusals are in no item's hands: one met while the clock is sampled, one of `exchange_info` itself,
    and a filter array whose numbers no filter can carry. -/

namespace FinanceKing.Execution

open Lib

/-! ### Conditions on the inputs -/

namespace ClockSkewMonitor

/-- The local instant in the middle of the round trip. -/
def midpointUtc (monitor : ClockSkewMonitor) : DateTime :=
  monitor.nowUtc +
    roundHalfEven ((monitor.monotonicAfterSeconds - monitor.monotonicBeforeSeconds) / 2 * 1000000)

/-- The venue answered with a plausible epoch, and the local readings place the middle of the round trip. -/
structure Reads (monitor : ClockSkewMonitor) (epochMs : ℤ) : Prop where
  answers : monitor.serverTimeMs = .ok epochMs
  forward : monitor.monotonicBeforeSeconds ≤ monitor.monotonicAfterSeconds
  representable : monitor.midpointUtc ≤ datetimeMax
  inWindow : plausibleFromUtc ≤ epochMs * 1000 ∧ epochMs * 1000 < plausibleBeforeUtc

/-- The venue's clock is inside the budget of the local one. -/
def WithinBudget (monitor : ClockSkewMonitor) (epochMs : ℤ) : Prop :=
  |roundHalfEven (((epochMs * 1000 - monitor.midpointUtc : ℤ) : ℚ) / 1000)| ≤ monitor.profile.maxClockDriftMs

end ClockSkewMonitor

/-- The key is of the kind the venue requires, and the venue takes it. -/
def KeyAccepted (inputs : PreflightInputs) : Prop :=
  inputs.credentialKind = requiredCredentialKind inputs.venue.profile ∧
    ∃ balances, inputs.venue.fetchBalances .credentialKeyType = .ok balances

/-- The symbols a venue lists as trading. -/
def listedSymbols (info : VenueExchangeInfo) : List String :=
  (info.symbols.filter VenueSymbol.isTrading).map VenueSymbol.symbol

/-- Some symbols are required, and all of them are tradable on the venue. -/
def SymbolsCovered (info : VenueExchangeInfo) (requiredSymbols : Finset String) : Prop :=
  requiredSymbols ≠ ∅ ∧ requiredSymbols ⊆ tradableSymbols (listedSymbols info)

/-- Up to the first symbol with no usable filters, the numbers are ones a filter can carry. -/
def LoadInOrder (info : VenueExchangeInfo) : List String → Prop
  | [] => True
  | symbol :: rest =>
    ∀ fields, usableFilters info symbol = some fields → InRange fields ∧ LoadInOrder info rest

/-- The venue lists its symbols; where they cover the required ones, the filters of those load in order. -/
def SymbolsRead (inputs : PreflightInputs) : Prop :=
  ∃ info, inputs.venue.exchangeInfo = .ok info ∧
    (SymbolsCovered info inputs.requiredSymbols → LoadInOrder info (sortedSet inputs.requiredSymbols))

/-- No refusal is met outside an item: each condition is asked for only where the checks before it passed. -/
def NothingEscapes (inputs : PreflightInputs) : Prop :=
  (∃ events, inputs.journal = .read events) →
    ∃ epochMs, inputs.clockMonitor.Reads epochMs ∧
      (inputs.clockMonitor.WithinBudget epochMs → KeyAccepted inputs → SymbolsRead inputs)

/-! ### What a report says -/

/-- Every required symbol carries usable filters with a positive tick and a positive step. -/
def FiltersUsable (info : VenueExchangeInfo) (requiredSymbols : Finset String) : Prop :=
  ∀ symbol ∈ requiredSymbols, ∃ fields,
    usableFilters info symbol = some fields ∧ 0 < fields.tickSize ∧ 0 < fields.stepSize

/-- The outcome of the filters' item says whether they are usable. -/
def FiltersJudged (inputs : PreflightInputs) (outcome : CheckOutcome) : Prop :=
  outcome.item = .symbolFilters → ∃ info, inputs.venue.exchangeInfo = .ok info ∧
    (outcome.verdict = .passed ↔ FiltersUsable info inputs.requiredSymbols)

/-- A report and the session it left: the outcomes are the first items in order, of which only the last may have
    failed, and no other item made a call; the filters are judged; the checklist clears only when every item ran and
    none failed; and the gate admits orders only for a journal that was read and holds no open incident. -/
structure Accounted (unicode : UnicodeTables) (inputs : PreflightInputs) (start : Session) (report : PreflightReport)
    (session : Session) : Prop where
  ordered : report.outcomes.map CheckOutcome.item <+: PreflightItem.all
  onlyLast : ∀ outcome ∈ report.outcomes.dropLast, outcome.verdict ≠ .failed
  calls : ∀ call ∈ session.calls, call.item ∈ report.outcomes.map CheckOutcome.item
  filters : ∀ outcome ∈ report.outcomes, FiltersJudged inputs outcome
  cleared : ∀ cleared session', preflightOrAbort unicode inputs start = .ok cleared session' →
    cleared = report ∧ report.outcomes.map CheckOutcome.item = PreflightItem.all ∧
      ∀ outcome ∈ report.outcomes, outcome.verdict ≠ .failed
  gate : ensureTrading session.gate = .ok () →
    ∃ events, inputs.journal = .read events ∧ ∀ incidentId, ¬IsOpen events incidentId

/-- What the run is followed by. -/
def followed (inputs : PreflightInputs) : Checklist CheckOutcome PreflightItem Session where
  order := PreflightItem.all
  label := CheckOutcome.item
  blocking := CheckOutcome.isBlocking
  made := fun session => session.calls.map PreflightCall.item
  sound := FiltersJudged inputs
  kept := fun session => session.gate = deriveState inputs.journal

/-! ### Calls and lifted results -/

section Lifted

variable {α : Type} {s s' : Session} {a : α}

theorem lift_eq_ok {result : PyResult α} : lift result s = .ok a s' ↔ result = .ok a ∧ s = s' := by
  cases result with
  | ok b =>
    rw [lift, pure_eq_ok_iff, Except.ok.injEq]
  | error e =>
    refine ⟨fun h => ?_, fun h => by cases h.1⟩
    cases h

theorem returns_lift {result : PyResult α} : Returns (lift result) s ↔ ∃ a, result = .ok a := by
  simp only [Returns, lift_eq_ok, exists_eq_right']

theorem answered_eq_ok {answer : VenueAnswer α} : answered answer s = .ok a s' ↔ answer = .ok a ∧ s = s' := by
  rw [answered, lift_eq_ok]
  cases answer with
  | ok b => rw [Except.mapError, Except.ok.injEq, Except.ok.injEq]
  | error e => simp [Except.mapError]

theorem record_eq_ok {item : PreflightItem} {name : CallName} {u : Unit} :
    record item name s = .ok u s' ↔ { s with calls := s.calls ++ [⟨item, name⟩] } = s' := by
  change EStateM.Result.ok () { s with calls := s.calls ++ [⟨item, name⟩] } = .ok u s' ↔ _
  simp

theorem total_record (item : PreflightItem) (name : CallName) : Total (record item name) :=
  fun s => ⟨(), { s with calls := s.calls ++ [⟨item, name⟩] }, rfl⟩

variable {inputs : PreflightInputs} {item : PreflightItem}

theorem record_under (name : CallName) : Keeps (MadeUnder (followed inputs) item) (record item name) := by
  intro s u s' h
  obtain rfl := record_eq_ok.mp h
  refine ⟨fun call hcall => ?_, id⟩
  simp only [followed, List.map_append, List.map_singleton, List.mem_append, List.mem_singleton] at hcall
  exact hcall

theorem lift_under (result : PyResult α) : Keeps (MadeUnder (followed inputs) item) (lift result) := by
  intro s a s' h
  obtain ⟨_, rfl⟩ := lift_eq_ok.mp h
  exact MadeUnder.refl s

end Lifted

/-! ### The kill switch -/

/-- The first item restores the gate from the journal, and blocks exactly when that was not read. -/
theorem checkKillSwitchJournal_run (journal : JournalReadOutcome) (s : Session) :
    ∃ outcome, checkKillSwitchJournal journal s =
        .ok outcome ⟨deriveState journal, s.calls ++ [⟨.killSwitchJournal, .readJournal⟩]⟩ ∧
      outcome.item = .killSwitchJournal ∧ (outcome.isBlocking = false ↔ ∃ events, journal = .read events) := by
  cases journal with
  | unreadable failure =>
    refine ⟨_, rfl, rfl, iff_of_false (by simp [CheckOutcome.isBlocking]) ?_⟩
    rintro ⟨events, h⟩
    cases h
  | read events =>
    change ∃ outcome, (if (deriveState (.read events)).isHalted then (pure _ : Preflight CheckOutcome) else pure _) _ =
      .ok outcome _ ∧ _
    split
    · exact ⟨_, rfl, rfl, iff_of_true rfl ⟨events, rfl⟩⟩
    · exact ⟨_, rfl, rfl, iff_of_true rfl ⟨events, rfl⟩⟩

theorem ensureTrading_of_read {journal : JournalReadOutcome} (h : ensureTrading (deriveState journal) = .ok ()) :
    ∃ events, journal = .read events ∧ ∀ incidentId, ¬IsOpen events incidentId := by
  rw [ensureTrading, raiseIf_eq_ok] at h
  cases journal with
  | unreadable failure => exact absurd rfl h
  | read events =>
    exact ⟨events, rfl, fun incidentId hopen => h ((deriveState_halted_iff events).mpr ⟨incidentId, hopen⟩)⟩

/-! ### The clock -/

theorem venueEpochToUtc_eq_ok {epochMs : ℤ} {moment : DateTime} :
    venueEpochToUtc epochMs = .ok moment ↔
      (plausibleFromUtc ≤ epochMs * 1000 ∧ epochMs * 1000 < plausibleBeforeUtc) ∧ epochMs * 1000 = moment := by
  simp only [venueEpochToUtc, bind_eq_ok, raiseIf_eq_ok, pure_eq_ok, Unique.exists_iff, not_not]
  constructor
  · rintro ⟨_, hwindow, hmoment⟩
    exact ⟨hwindow, hmoment⟩
  rintro ⟨hwindow, hmoment⟩
  refine ⟨?_, hwindow, hmoment⟩
  have hfrom : (1420070400000000 : ℤ) ≤ epochMs * 1000 := hwindow.1
  have hbefore : epochMs * 1000 < (4102444800000000 : ℤ) := hwindow.2
  rintro (h | h)
  · have hmin : epochMs * 1000 < (-62135596800000000 : ℤ) := h
    omega
  · have hmax : (253402300799999999 : ℤ) < epochMs * 1000 := h
    omega

/-- The sample a plausible epoch gives. -/
def ClockSkewMonitor.sampled (monitor : ClockSkewMonitor) (epochMs : ℤ) : ClockSkewSample :=
  ⟨monitor.profile.venueId, epochMs * 1000, monitor.midpointUtc,
    monitor.monotonicAfterSeconds - monitor.monotonicBeforeSeconds,
    roundHalfEven (((epochMs * 1000 - monitor.midpointUtc : ℤ) : ℚ) / 1000)⟩

theorem sample_eq_ok {monitor : ClockSkewMonitor} {s s' : Session} {sample : ClockSkewSample} :
    monitor.sample s = .ok sample s' ↔
      (∃ epochMs, monitor.Reads epochMs ∧ sample = monitor.sampled epochMs) ∧
        { s with calls := s.calls ++ [⟨.clockSkew, .serverTime⟩] } = s' := by
  simp only [ClockSkewMonitor.sample, Lib.bind_eq_ok_iff, record_eq_ok, answered_eq_ok, lift_eq_ok, measureClockSkew,
    bind_eq_ok, raiseIf_eq_ok, venueEpochToUtc_eq_ok, pure_eq_ok, Unique.exists_iff, not_lt, sub_nonneg]
  constructor
  · rintro ⟨s₁, rfl, epochMs, s₂, ⟨hanswers, rfl⟩, ⟨hforward, hrep, moment, ⟨hwindow, rfl⟩, rfl⟩, rfl⟩
    exact ⟨⟨epochMs, ⟨hanswers, hforward, hrep, hwindow⟩, rfl⟩, rfl⟩
  · rintro ⟨⟨epochMs, hreads, rfl⟩, rfl⟩
    exact ⟨_, rfl, epochMs, _, ⟨hreads.answers, rfl⟩,
      ⟨hreads.forward, hreads.representable, _, ⟨hreads.inWindow, rfl⟩, rfl⟩, rfl⟩

theorem clockSkewOutcome_isBlocking (profile : ConnectedProfile) (sample : ClockSkewSample) :
    (clockSkewOutcome profile sample).isBlocking = false ↔ |sample.skewMs| ≤ profile.maxClockDriftMs := by
  rw [clockSkewOutcome, ← not_lt]
  split
  · next h => exact iff_of_false (by simp [CheckOutcome.isBlocking]) (not_not_intro h)
  · next h => exact iff_of_true rfl h

theorem checkClockSkew_judges (monitor : ClockSkewMonitor) :
    Judges CheckOutcome.isBlocking (∃ epochMs, monitor.Reads epochMs)
      (∃ epochMs, monitor.Reads epochMs ∧ monitor.WithinBudget epochMs) (checkClockSkew monitor) := by
  have hrun : ∀ s outcome s', checkClockSkew monitor s = .ok outcome s' ↔
      ∃ epochMs, monitor.Reads epochMs ∧ outcome = clockSkewOutcome monitor.profile (monitor.sampled epochMs) ∧
        { s with calls := s.calls ++ [⟨.clockSkew, .serverTime⟩] } = s' := by
    intro s outcome s'
    simp only [checkClockSkew, Lib.bind_eq_ok_iff, sample_eq_ok, pure_eq_ok_iff]
    constructor
    · rintro ⟨_, _, ⟨⟨epochMs, hreads, rfl⟩, rfl⟩, rfl, rfl⟩
      exact ⟨epochMs, hreads, rfl, rfl⟩
    · rintro ⟨epochMs, hreads, rfl, rfl⟩
      exact ⟨_, _, ⟨⟨epochMs, hreads, rfl⟩, rfl⟩, rfl, rfl⟩
  constructor
  · intro s
    constructor
    · rintro ⟨outcome, s', h⟩
      obtain ⟨epochMs, hreads, _⟩ := (hrun s outcome s').mp h
      exact ⟨epochMs, hreads⟩
    · rintro ⟨epochMs, hreads⟩
      exact ⟨_, _, (hrun s _ _).mpr ⟨epochMs, hreads, rfl, rfl⟩⟩
  · intro s outcome s' h
    obtain ⟨epochMs, hreads, rfl, _⟩ := (hrun s outcome s').mp h
    rw [clockSkewOutcome_isBlocking]
    constructor
    · intro hbudget
      exact ⟨epochMs, hreads, hbudget⟩
    · rintro ⟨other, hother, hbudget⟩
      obtain rfl := Except.ok.inj (hreads.answers.symm.trans hother.answers)
      exact hbudget

/-! ### The credential -/

/-- A check that never raises, judged by its outcome from each state. -/
theorem judges_of_run {check : Preflight CheckOutcome} {passes : Prop}
    (h : ∀ s, ∃ outcome s', check s = .ok outcome s' ∧ (outcome.isBlocking = false ↔ passes)) :
    Judges CheckOutcome.isBlocking True passes check := by
  refine ⟨fun s => iff_of_true ?_ trivial, fun s outcome s' hrun => ?_⟩
  · obtain ⟨outcome, s', hrun, _⟩ := h s
    exact ⟨outcome, s', hrun⟩
  · obtain ⟨other, s'', hother, hpasses⟩ := h s
    obtain ⟨rfl, rfl⟩ := EStateM.Result.ok.inj (hrun.symm.trans hother)
    exact hpasses

theorem checkCredentialKeyType_judges (inputs : PreflightInputs) :
    Judges CheckOutcome.isBlocking True (KeyAccepted inputs)
      (checkCredentialKeyType inputs.venue inputs.credentialKind) := by
  refine judges_of_run fun s => ?_
  rw [checkCredentialKeyType, KeyAccepted]
  dsimp only
  split
  · next hkind => exact ⟨_, _, rfl, iff_of_false (by simp [CheckOutcome.isBlocking]) fun h => hkind h.1⟩
  · next hkind =>
    rw [not_not] at hkind
    cases hanswer : inputs.venue.fetchBalances .credentialKeyType with
    | error rejected =>
      refine ⟨_, _, rfl, iff_of_false (by simp [CheckOutcome.isBlocking]) ?_⟩
      rintro ⟨_, balances, h⟩
      cases h
    | ok balances => exact ⟨_, _, rfl, iff_of_true rfl ⟨hkind, balances, rfl⟩⟩

/-! ### The symbols -/

theorem checkSymbolUniverse_isBlocking (info : VenueExchangeInfo) (requiredSymbols : Finset String) :
    (checkSymbolUniverse (listedSymbols info) requiredSymbols).isBlocking = false ↔
      SymbolsCovered info requiredSymbols := by
  rw [checkSymbolUniverse, SymbolsCovered]
  split
  · next hmissing =>
    refine iff_of_false (by simp [CheckOutcome.isBlocking]) fun h => ?_
    rw [Finset.sdiff_eq_empty_iff_subset.mpr h.2] at hmissing
    exact Finset.not_nonempty_empty hmissing
  · next hmissing =>
    have hsubset := Finset.sdiff_eq_empty_iff_subset.mp (Finset.not_nonempty_iff_eq_empty.mp hmissing)
    split
    · next hempty => exact iff_of_false (by simp [CheckOutcome.isBlocking]) fun h => h.1 hempty
    · next hempty => exact iff_of_true rfl ⟨hempty, hsubset⟩

/-- A symbol that validated always comes back from the log sink. -/
theorem survivesTheLogSink_eq_true (raw : String) : survivesTheLogSink raw = true := by
  simp [survivesTheLogSink, classifySymbol, JsonText.read_render]

theorem checkSymbolRoundTrip_isBlocking (venueSymbols : List String) :
    (checkSymbolRoundTrip venueSymbols).isBlocking = false := by
  have hdamaged : venueSymbols.filter (fun raw => !survivesTheLogSink raw) = [] := by
    simp [survivesTheLogSink_eq_true]
  rw [checkSymbolRoundTrip]
  rw [if_neg (not_not_intro hdamaged)]
  rfl

/-- What loading the filters of some symbols comes to: all of them usable, or the outcome of the first that is not. -/
inductive Loaded (info : VenueExchangeInfo) (symbols : List String) :
    Except CheckOutcome (List (String × Decimal × Decimal)) → Prop
  | all (loaded : List (String × Decimal × Decimal))
      (usable : ∀ symbol ∈ symbols, ∃ fields, usableFilters info symbol = some fields ∧ InRange fields)
      (positive : ∀ entry ∈ loaded, 0 < entry.2.1 ∧ 0 < entry.2.2) : Loaded info symbols (.ok loaded)
  | unusable (outcome : CheckOutcome) (symbol : String) (listed : symbol ∈ symbols)
      (missing : usableFilters info symbol = none) (item : outcome.item = .symbolFilters)
      (failed : outcome.verdict = .failed) : Loaded info symbols (.error outcome)

theorem loadFilters_loaded {info : VenueExchangeInfo} {symbols : List String} (h : LoadInOrder info symbols) :
    ∃ loaded, loadFilters info symbols = .ok loaded ∧ Loaded info symbols loaded := by
  induction symbols with
  | nil => exact ⟨.ok [], rfl, .all [] (by simp) (by simp)⟩
  | cons symbol rest ih =>
    obtain ⟨hunusable, hinRange, _⟩ := orderFiltersOf_loads info symbol
    rw [loadFilters]
    cases husable : usableFilters info symbol with
    | none =>
      obtain ⟨message, hraise⟩ := hunusable husable
      rw [hraise]
      exact ⟨_, rfl, .unusable _ symbol List.mem_cons_self husable rfl rfl⟩
    | some fields =>
      obtain ⟨hfields, hrest⟩ := h fields husable
      obtain ⟨filters, hload, rfl⟩ := hinRange fields husable hfields
      obtain ⟨loaded, hloaded, hspec⟩ := ih hrest
      rw [hload, hloaded]
      refine ⟨_, rfl, ?_⟩
      cases hspec with
      | all loaded usable positive =>
        refine .all _ ?_ ?_
        · exact List.forall_mem_cons.mpr ⟨⟨_, husable, hfields⟩, usable⟩
        · exact List.forall_mem_cons.mpr ⟨⟨hfields.tick, hfields.step⟩, positive⟩
      | unusable outcome missing listed hmissing item failed =>
        exact .unusable outcome missing (List.mem_cons_of_mem _ listed) hmissing item failed

/-- A number out of range before the first unusable symbol is a validation error of the whole load. -/
theorem loadFilters_returns {info : VenueExchangeInfo} {symbols : List String}
    {loaded : Except CheckOutcome (List (String × Decimal × Decimal))}
    (h : loadFilters info symbols = .ok loaded) : LoadInOrder info symbols := by
  induction symbols generalizing loaded with
  | nil => trivial
  | cons symbol rest ih =>
    obtain ⟨_, hinRange, houtOfRange⟩ := orderFiltersOf_loads info symbol
    intro fields husable
    rw [loadFilters] at h
    by_cases hfields : InRange fields
    · obtain ⟨filters, hload, _⟩ := hinRange fields husable hfields
      rw [hload] at h
      cases hrest : loadFilters info rest with
      | ok others => exact ⟨hfields, ih hrest⟩
      | error e =>
        rw [hrest] at h
        cases h
    · obtain ⟨message, hraise⟩ := houtOfRange fields husable hfields
      rw [hraise] at h
      cases h

/-- The outcome of the filters' item, where the load raises nothing. -/
theorem checkSymbolFilters_judged {info : VenueExchangeInfo} {requiredSymbols : Finset String}
    (h : LoadInOrder info (sortedSet requiredSymbols)) :
    ∃ outcome, checkSymbolFilters info requiredSymbols = .ok outcome ∧ outcome.item = .symbolFilters ∧
      (outcome.verdict = .passed ∧ FiltersUsable info requiredSymbols ∨
        outcome.verdict = .failed ∧ ¬FiltersUsable info requiredSymbols) := by
  obtain ⟨loaded, hload, hspec⟩ := loadFilters_loaded h
  rw [checkSymbolFilters, hload]
  cases hspec with
  | all loaded usable positive =>
    have hfound : loaded.find? (fun entry => entry.2.1 ≤ 0 ∨ entry.2.2 ≤ 0) = none := by
      rw [List.find?_eq_none]
      intro entry hentry
      obtain ⟨htick, hstep⟩ := positive entry hentry
      simp [htick, hstep]
    dsimp only [bind, Except.bind]
    rw [hfound]
    refine ⟨_, rfl, rfl, .inl ⟨rfl, fun symbol hsymbol => ?_⟩⟩
    obtain ⟨fields, husable, hfields⟩ := usable symbol ((Finset.mem_sort _).mpr hsymbol)
    exact ⟨fields, husable, hfields.tick, hfields.step⟩
  | unusable outcome symbol listed missing item failed =>
    refine ⟨outcome, rfl, item, .inr ⟨failed, fun husable => ?_⟩⟩
    obtain ⟨fields, hsome, _⟩ := husable symbol ((Finset.mem_sort _).mp listed)
    rw [missing] at hsome
    cases hsome

theorem checkSymbolFilters_judges (info : VenueExchangeInfo) (requiredSymbols : Finset String) :
    Judges CheckOutcome.isBlocking (LoadInOrder info (sortedSet requiredSymbols))
      (FiltersUsable info requiredSymbols) (lift (checkSymbolFilters info requiredSymbols)) := by
  have hreturns : ∀ outcome, checkSymbolFilters info requiredSymbols = .ok outcome →
      LoadInOrder info (sortedSet requiredSymbols) := by
    intro outcome h
    rw [checkSymbolFilters] at h
    obtain ⟨loaded, hload, _⟩ := bind_eq_ok.mp h
    exact loadFilters_returns hload
  constructor
  · intro s
    rw [returns_lift]
    constructor
    · rintro ⟨outcome, h⟩
      exact hreturns outcome h
    · intro h
      obtain ⟨outcome, hrun, _⟩ := checkSymbolFilters_judged h
      exact ⟨outcome, hrun⟩
  · intro s outcome s' h
    obtain ⟨hrun, _⟩ := lift_eq_ok.mp h
    obtain ⟨other, hother, _, hverdict⟩ := checkSymbolFilters_judged (hreturns outcome hrun)
    obtain rfl := Except.ok.inj (hrun.symm.trans hother)
    rcases hverdict with ⟨hpassed, husable⟩ | ⟨hfailed, husable⟩
    · exact iff_of_true (by simp [CheckOutcome.isBlocking, hpassed]) husable
    · exact iff_of_false (by simp [CheckOutcome.isBlocking, hfailed]) husable

/-! ### Whether the run returns -/

section Returns

variable (unicode : UnicodeTables) (inputs : PreflightInputs)

theorem returns_symbolItems (outcomes : List CheckOutcome) (s : Session) :
    Returns (symbolItems inputs outcomes) s ↔
      (stopped CheckOutcome.isBlocking outcomes = false → SymbolsRead inputs) := by
  cases hopen : stopped CheckOutcome.isBlocking outcomes with
  | true =>
    rw [symbolItems, unlessStopped_of_stopped hopen]
    exact iff_of_true (total_pure outcomes s) (by simp)
  | false =>
    rw [symbolItems, unlessStopped_of_open hopen, SymbolsRead]
    have hroundTrip := fun info => (judges_pure (checkSymbolRoundTrip (listedSymbols info)) :
      Judges CheckOutcome.isBlocking True _ (pure _ : Preflight CheckOutcome))
    have hbehind := fun info => (hroundTrip info).next_bind
      (checkSymbolFilters_judges info inputs.requiredSymbols).next
    have hrecord : record .symbolUniverse .exchangeInfo s = .ok () _ := record_eq_ok.mpr rfl
    rw [returns_bind_of_ok hrecord, returns_bind]
    constructor
    · rintro ⟨info, s', hanswered, hreturns⟩ _
      obtain ⟨hinfo, rfl⟩ := answered_eq_ok.mp hanswered
      refine ⟨info, hinfo, fun hcovered => ?_⟩
      obtain ⟨_, hload⟩ := (hbehind info _ _).mp hreturns
        ((stopped_concat _ _).trans ((checkSymbolUniverse_isBlocking info _).mpr hcovered))
      exact hload (checkSymbolRoundTrip_isBlocking _)
    · intro h
      obtain ⟨info, hinfo, hload⟩ := h rfl
      refine ⟨info, _, answered_eq_ok.mpr ⟨hinfo, rfl⟩, (hbehind info _ _).mpr fun hpassed => ⟨trivial, fun _ => ?_⟩⟩
      rw [stopped_concat] at hpassed
      exact hload ((checkSymbolUniverse_isBlocking info _).mp hpassed)

theorem total_checkExchangeState (venue : ExecutionVenue) (localStateExpectsHoldings : Bool) :
    Total (checkExchangeState venue localStateExpectsHoldings) := by
  refine (total_record _ _).bind fun _ => ?_
  cases venue.fetchBalances .exchangeState with
  | error refused => exact total_pure _
  | ok balances =>
    refine (total_record _ _).bind fun _ => ?_
    cases venue.fetchOpenOrders with
    | error refused => exact total_pure _
    | ok openOrders =>
      dsimp only
      split
      · exact total_pure _
      · exact total_pure _

theorem total_checkUserDataHeartbeat (source : Option FirstEvent) (timeoutSeconds : Seconds) :
    Total (checkUserDataHeartbeat source timeoutSeconds) := by
  cases source with
  | none => exact total_pure _
  | some first =>
    refine (total_record _ _).bind fun _ => (total_record _ _).bind fun _ => ?_
    cases first with
    | event fields => exact total_pure _
    | closed => exact total_pure _
    | silent => exact total_pure _

theorem total_remainingItems (outcomes : List CheckOutcome) : Total (remainingItems unicode inputs outcomes) := by
  refine (Total.next (total_checkExchangeState _ _) _).bind fun _ => ?_
  refine (Total.next (total_pure _) _).bind fun _ => ?_
  refine (Total.next (total_checkUserDataHeartbeat _ _) _).bind fun _ => ?_
  exact Total.next (total_pure _) _

/-- The run returns exactly when no refusal is met outside an item. -/
theorem returns_runPreflight (s : Session) : Returns (runPreflight unicode inputs) s ↔ NothingEscapes inputs := by
  have hsymbols : ∀ outcomes s, Returns (symbolItems inputs outcomes >>= fun outcomes =>
      remainingItems unicode inputs outcomes >>= fun outcomes =>
        (pure ⟨inputs.venue.profile.venueId, outcomes⟩ : Preflight PreflightReport)) s ↔
      (stopped CheckOutcome.isBlocking outcomes = false → SymbolsRead inputs) := by
    intro outcomes s
    rw [returns_bind_total fun outcomes => (total_remainingItems unicode inputs outcomes).bind fun _ => total_pure _]
    exact returns_symbolItems inputs outcomes s
  have hcredential := (checkCredentialKeyType_judges inputs).next_bind hsymbols
  have hclock := (checkClockSkew_judges inputs.clockMonitor).next_bind hcredential
  have hendpoints := (judges_pure (checkEndpointsAllowlisted inputs.venue.profile)).next_bind hclock
  obtain ⟨journal, hrun, hitem, hblocking⟩ := checkKillSwitchJournal_run inputs.journal s
  rw [runPreflight, returns_bind_of_ok hrun]
  refine (hendpoints [journal] _).trans ?_
  rw [stopped_singleton, hblocking, NothingEscapes]
  refine forall_congr' fun hread => ?_
  constructor
  · rintro ⟨_, h⟩
    obtain ⟨⟨epochMs, hreads⟩, hbehind⟩ := h rfl
    exact ⟨epochMs, hreads, fun hbudget => (hbehind ⟨epochMs, hreads, hbudget⟩).2⟩
  · rintro ⟨epochMs, hreads, hbehind⟩
    refine ⟨trivial, fun _ => ⟨⟨epochMs, hreads⟩, ?_⟩⟩
    rintro ⟨other, hother, hbudget⟩
    obtain rfl := Except.ok.inj (hreads.answers.symm.trans hother.answers)
    exact ⟨trivial, hbehind hbudget⟩

end Returns

/-! ### How far the run came -/

section Followed

variable {unicode : UnicodeTables} {inputs : PreflightInputs}

/-- A check of any other item than the filters'. -/
theorem checks_of {item : PreflightItem} {check : Preflight CheckOutcome} (hother : item ≠ .symbolFilters)
    (hitem : Yields (fun outcome => outcome.item = item) check)
    (hunder : Keeps (MadeUnder (followed inputs) item) check) : Checks (followed inputs) item check :=
  ⟨fun s outcome s' h => ⟨hitem s outcome s' h, fun hfilters => absurd ((hitem s outcome s' h).symm.trans hfilters) hother⟩,
    hunder⟩

theorem checks_outcome {item : PreflightItem} {outcome : CheckOutcome} (hother : item ≠ .symbolFilters)
    (hitem : outcome.item = item) : Checks (followed inputs) item (pure outcome : Preflight CheckOutcome) :=
  checks_of hother (yields_pure hitem) (keeps_pure MadeUnder.refl outcome)

theorem checks_clockSkew : Checks (followed inputs) .clockSkew (checkClockSkew inputs.clockMonitor) := by
  refine checks_of (by decide) (Yields.bind fun sample => yields_pure ?_)
    (Keeps.bind MadeUnder.trans (Keeps.bind MadeUnder.trans (record_under _) fun _ => ?_) fun _ =>
      keeps_pure MadeUnder.refl _)
  · rw [clockSkewOutcome]
    split <;> rfl
  · exact Keeps.bind MadeUnder.trans (lift_under _) fun _ => lift_under _

theorem checks_credentialKeyType :
    Checks (followed inputs) .credentialKeyType (checkCredentialKeyType inputs.venue inputs.credentialKind) := by
  rw [checkCredentialKeyType]
  dsimp only
  split
  · exact checks_outcome (by decide) rfl
  · cases inputs.venue.fetchBalances .credentialKeyType with
    | error rejected =>
      exact checks_of (by decide) (Yields.bind fun _ => yields_pure rfl)
        (Keeps.bind MadeUnder.trans (record_under _) fun _ => keeps_pure MadeUnder.refl _)
    | ok balances =>
      exact checks_of (by decide) (Yields.bind fun _ => yields_pure rfl)
        (Keeps.bind MadeUnder.trans (record_under _) fun _ => keeps_pure MadeUnder.refl _)

theorem checkSymbolUniverse_item (venueSymbols : List String) (requiredSymbols : Finset String) :
    (checkSymbolUniverse venueSymbols requiredSymbols).item = .symbolUniverse := by
  rw [checkSymbolUniverse]
  split
  · rfl
  · split <;> rfl

theorem checkSymbolRoundTrip_item (venueSymbols : List String) :
    (checkSymbolRoundTrip venueSymbols).item = .symbolRoundTrip := by
  rw [checkSymbolRoundTrip]
  split <;> rfl

theorem checks_symbolFilters {info : VenueExchangeInfo} (hinfo : inputs.venue.exchangeInfo = .ok info) :
    Checks (followed inputs) .symbolFilters (lift (checkSymbolFilters info inputs.requiredSymbols)) := by
  refine ⟨fun s outcome s' h => ?_, lift_under _⟩
  obtain ⟨hrun, _⟩ := lift_eq_ok.mp h
  have hload : LoadInOrder info (sortedSet inputs.requiredSymbols) :=
    ((checkSymbolFilters_judges info _).returns s).mp ⟨outcome, s', h⟩
  obtain ⟨other, hother, hitem, hverdict⟩ := checkSymbolFilters_judged hload
  obtain rfl := Except.ok.inj (hrun.symm.trans hother)
  refine ⟨hitem, fun _ => ⟨info, hinfo, ?_⟩⟩
  rcases hverdict with ⟨hpassed, husable⟩ | ⟨hfailed, husable⟩
  · exact iff_of_true hpassed husable
  · exact iff_of_false (by simp [hfailed]) husable

theorem checks_exchangeState (localStateExpectsHoldings : Bool) :
    Checks (followed inputs) .exchangeState (checkExchangeState inputs.venue localStateExpectsHoldings) := by
  refine checks_of (by decide) (Yields.bind fun _ => ?_) (Keeps.bind MadeUnder.trans (record_under _) fun _ => ?_)
  · cases inputs.venue.fetchBalances .exchangeState with
    | error refused => exact yields_pure rfl
    | ok balances =>
      refine Yields.bind fun _ => ?_
      cases inputs.venue.fetchOpenOrders with
      | error refused => exact yields_pure rfl
      | ok openOrders =>
        dsimp only
        split
        · exact yields_pure rfl
        · exact yields_pure rfl
  · cases inputs.venue.fetchBalances .exchangeState with
    | error refused => exact keeps_pure MadeUnder.refl _
    | ok balances =>
      refine Keeps.bind MadeUnder.trans (record_under _) fun _ => ?_
      cases inputs.venue.fetchOpenOrders with
      | error refused => exact keeps_pure MadeUnder.refl _
      | ok openOrders =>
        dsimp only
        split
        · exact keeps_pure MadeUnder.refl _
        · exact keeps_pure MadeUnder.refl _

theorem checkOrderRateBudget_item (profile : ConnectedProfile) (configuredOrderRatePer10s : ℤ) :
    (checkOrderRateBudget profile configuredOrderRatePer10s).item = .orderRateBudget := by
  rw [checkOrderRateBudget]
  split
  · rfl
  · split <;> rfl

theorem checks_userDataHeartbeat (source : Option FirstEvent) (timeoutSeconds : Seconds) :
    Checks (followed inputs) .userDataHeartbeat (checkUserDataHeartbeat source timeoutSeconds) := by
  cases source with
  | none => exact checks_outcome (by decide) rfl
  | some first =>
    refine checks_of (by decide) (Yields.bind fun _ => Yields.bind fun _ => ?_)
      (Keeps.bind MadeUnder.trans (record_under _) fun _ => Keeps.bind MadeUnder.trans (record_under _) fun _ => ?_)
    · cases first <;> exact yields_pure rfl
    · cases first <;> exact keeps_pure MadeUnder.refl _

theorem checkCostParameterProvenance_item (provenanceId : String) :
    (checkCostParameterProvenance unicode provenanceId).item = .costParameterProvenance := by
  rw [checkCostParameterProvenance]
  split
  · rfl
  · split <;> rfl

/-- The three symbol items, from one read of the venue's symbols. -/
theorem symbolItems_progress {outcomes outcomes' : List CheckOutcome} {s s' : Session}
    (h : Progress (followed inputs) 4 outcomes s) (hrun : symbolItems inputs outcomes s = .ok outcomes' s') :
    Progress (followed inputs) 7 outcomes' s' := by
  cases hopen : stopped CheckOutcome.isBlocking outcomes with
  | true =>
    rw [symbolItems, unlessStopped_of_stopped hopen] at hrun
    obtain ⟨rfl, rfl⟩ := pure_eq_ok_iff.mp hrun
    exact h.mono hopen (by decide)
  | false =>
    rw [symbolItems, unlessStopped_of_open hopen] at hrun
    obtain ⟨_, s₁, hrecord, hrun⟩ := bind_eq_ok_iff.mp hrun
    obtain ⟨info, s₂, hanswered, hrun⟩ := bind_eq_ok_iff.mp hrun
    obtain ⟨hinfo, rfl⟩ := answered_eq_ok.mp hanswered
    obtain ⟨outcomes₁, s₃, hroundTrip, hfilters⟩ := bind_eq_ok_iff.mp hrun
    have hitem := checkSymbolUniverse_item (listedSymbols info) inputs.requiredSymbols
    have huniverse : Progress (followed inputs) 5 (outcomes ++ [checkSymbolUniverse (listedSymbols info) _]) s₁ :=
      h.append hopen rfl hitem (fun hfilters => by rw [hitem] at hfilters; cases hfilters)
        (record_under _ _ _ _ hrecord)
    have hchecks : Checks (followed inputs) .symbolRoundTrip (pure (checkSymbolRoundTrip (listedSymbols info))) :=
      checks_outcome (by decide) (checkSymbolRoundTrip_item _)
    have hlist := huniverse.next rfl hchecks hroundTrip
    exact hlist.next rfl (checks_symbolFilters hinfo) hfilters

theorem remainingItems_progress {outcomes outcomes' : List CheckOutcome} {s s' : Session}
    (h : Progress (followed inputs) 7 outcomes s)
    (hrun : remainingItems unicode inputs outcomes s = .ok outcomes' s') :
    Progress (followed inputs) 11 outcomes' s' := by
  obtain ⟨outcomes₁, s₁, hstate, hrun⟩ := bind_eq_ok_iff.mp hrun
  obtain ⟨outcomes₂, s₂, hbudget, hrun⟩ := bind_eq_ok_iff.mp hrun
  obtain ⟨outcomes₃, s₃, hheartbeat, hprovenance⟩ := bind_eq_ok_iff.mp hrun
  have hrate : Checks (followed inputs) .orderRateBudget
      (pure (checkOrderRateBudget inputs.venue.profile inputs.configuredOrderRatePer10s)) :=
    checks_outcome (by decide) (checkOrderRateBudget_item _ _)
  have hcosts : Checks (followed inputs) .costParameterProvenance
      (pure (checkCostParameterProvenance unicode inputs.costParameterProvenanceId)) :=
    checks_outcome (by decide) (checkCostParameterProvenance_item _)
  have h₁ := h.next rfl (checks_exchangeState _) hstate
  have h₂ := h₁.next rfl hrate hbudget
  have h₃ := h₂.next rfl (checks_userDataHeartbeat _ _) hheartbeat
  exact h₃.next rfl hcosts hprovenance

/-- However a run ends, it followed the list, all of it unless the last item it came to blocked. -/
theorem runPreflight_progress {gate : KillSwitchState} {report : PreflightReport} {session : Session}
    (hrun : runPreflight unicode inputs ⟨gate, []⟩ = .ok report session) :
    Progress (followed inputs) 11 report.outcomes session := by
  obtain ⟨journal, hjournal, hitem, _⟩ := checkKillSwitchJournal_run inputs.journal ⟨gate, []⟩
  obtain ⟨outcome, s₁, hfirst, hrun⟩ := bind_eq_ok_iff.mp hrun
  obtain ⟨rfl, rfl⟩ := EStateM.Result.ok.inj (hjournal.symm.trans hfirst)
  obtain ⟨outcomes₂, s₂, hendpoints, hrun⟩ := bind_eq_ok_iff.mp hrun
  obtain ⟨outcomes₃, s₃, hclock, hrun⟩ := bind_eq_ok_iff.mp hrun
  obtain ⟨outcomes₄, s₄, hcredential, hrun⟩ := bind_eq_ok_iff.mp hrun
  obtain ⟨outcomes₇, s₇, hsymbols, hrun⟩ := bind_eq_ok_iff.mp hrun
  obtain ⟨outcomes', s', hremaining, hreport⟩ := bind_eq_ok_iff.mp hrun
  obtain ⟨rfl, rfl⟩ := pure_eq_ok_iff.mp hreport
  have h₁ : Progress (followed inputs) 1 [journal]
      ⟨deriveState inputs.journal, [⟨.killSwitchJournal, .readJournal⟩]⟩ := by
    refine progress_one (congrArg some hitem.symm) (fun item h => ?_) (fun hfilters => ?_) rfl
    · exact (List.mem_singleton.mp h).trans hitem.symm
    · rw [hitem] at hfilters
      cases hfilters
  have hallowlisted : Checks (followed inputs) .allowlistedEndpoints
      (pure (checkEndpointsAllowlisted inputs.venue.profile)) := checks_outcome (by decide) rfl
  have h₂ := h₁.next rfl hallowlisted hendpoints
  have h₃ := h₂.next rfl checks_clockSkew hclock
  have h₄ := h₃.next rfl checks_credentialKeyType hcredential
  exact remainingItems_progress (symbolItems_progress h₄ hsymbols) hremaining

end Followed

/-! ### The account of a run -/

section Account

variable {unicode : UnicodeTables} {inputs : PreflightInputs} {start s : Session} {report : PreflightReport}

theorem isBlocking_eq_false {outcome : CheckOutcome} : outcome.isBlocking = false ↔ outcome.verdict ≠ .failed := by
  rw [CheckOutcome.isBlocking, decide_eq_false_iff_not]

/-- The abort lets a report through only when nothing in it failed. -/
theorem preflightOrAbort_eq_ok {cleared : PreflightReport} :
    preflightOrAbort unicode inputs start = .ok cleared s ↔
      runPreflight unicode inputs start = .ok cleared s ∧ cleared.failures = [] ∧ cleared.isReady = true := by
  simp only [preflightOrAbort, Lib.bind_eq_ok_iff, lift_eq_ok, raiseIf_eq_ok, pure_eq_ok_iff, not_not]
  constructor
  · rintro ⟨report, s₁, hrun, _, s₂, ⟨hfailures, rfl⟩, _, s₃, ⟨hready, rfl⟩, rfl, rfl⟩
    exact ⟨hrun, hfailures, hready⟩
  · rintro ⟨hrun, hfailures, hready⟩
    exact ⟨cleared, s, hrun, (), s, ⟨hfailures, rfl⟩, (), s, ⟨hready, rfl⟩, rfl, rfl⟩

/-- Every report is accounted for. -/
theorem runPreflight_accounted {gate : KillSwitchState}
    (hrun : runPreflight unicode inputs ⟨gate, []⟩ = .ok report s) :
    Accounted unicode inputs ⟨gate, []⟩ report s where
  ordered := (runPreflight_progress hrun).ordered
  onlyLast := fun outcome h => isBlocking_eq_false.mp ((runPreflight_progress hrun).onlyLast outcome h)
  calls := fun call h => (runPreflight_progress hrun).calls call.item (List.mem_map_of_mem h)
  filters := (runPreflight_progress hrun).sound
  cleared := by
    intro cleared s' hcleared
    obtain ⟨hrun', hfailures, _⟩ := preflightOrAbort_eq_ok.mp hcleared
    obtain ⟨rfl, rfl⟩ := EStateM.Result.ok.inj (hrun.symm.trans hrun')
    have hnone : ∀ outcome ∈ report.outcomes, outcome.isBlocking = false := by
      intro outcome houtcome
      by_contra hblocking
      exact List.filter_eq_nil_iff.mp hfailures outcome houtcome (Bool.of_not_eq_false hblocking)
    exact ⟨rfl, (runPreflight_progress hrun).all hnone, fun outcome h => isBlocking_eq_false.mp (hnone outcome h)⟩
  gate := by
    intro hadmits
    rw [(runPreflight_progress hrun).kept] at hadmits
    exact ensureTrading_of_read hadmits

end Account

/-- A run gives an accounted report exactly when no refusal is met outside an item. -/
theorem runPreflight_reports_iff (unicode : UnicodeTables) (inputs : PreflightInputs) (gate : KillSwitchState) :
    (∃ report session, runPreflight unicode inputs ⟨gate, []⟩ = .ok report session ∧
      Accounted unicode inputs ⟨gate, []⟩ report session) ↔ NothingEscapes inputs := by
  rw [← returns_runPreflight unicode inputs ⟨gate, []⟩]
  constructor
  · rintro ⟨report, session, hrun, _⟩
    exact ⟨report, session, hrun⟩
  · rintro ⟨report, session, hrun⟩
    exact ⟨report, session, hrun, runPreflight_accounted hrun⟩

/-! ### A tick of zero -/

/-- A spot venue that lists one trading symbol, whose price filter declares a tick of zero. -/
def zeroTickVenue : ExecutionVenue where
  profile :=
    { venueId := .binanceSpotTestnet
      market := .spot
      orderRatePer10s := 50
      requestWeightPerMinute := none
      orderRate_pos := by decide
      requestWeight_pos := fun _ h => by cases h
      endpointHosts := []
      recvWindowMs := 5000
      maxClockDriftMs := 500
      userDataMechanism := .sessionLogonEd25519
      permitted := fun _ h => by cases h }
  fetchBalances := fun _ => .ok []
  exchangeInfo := .ok ⟨[⟨"BTCUSDT", "TRADING",
    [⟨"PRICE_FILTER", some 0, none, none, none, none⟩, ⟨"LOT_SIZE", none, some 1, some 0, some 100, none⟩]⟩]⟩
  fetchOpenOrders := .ok []

def zeroTickInputs : PreflightInputs where
  venue := zeroTickVenue
  journal := .read []
  clockMonitor := ⟨zeroTickVenue.profile, .ok 1700000000000, 1700000000000000, 0, 0⟩
  credentialKind := .ed25519
  requiredSymbols := {"BTCUSDT"}
  configuredOrderRatePer10s := 50
  costParameterProvenanceId := "binance-spot-2026-08"
  userData := some (.event [])
  localStateExpectsHoldings := false
  userDataTimeoutSeconds := 30

def asciiTables : UnicodeTables := ⟨fun c => [c.toLower], Char.isAlphanum⟩

/-- The exception a run ends in. -/
def raisedKind : EStateM.Result PyError Session PreflightReport → Option ErrorKind
  | .ok _ _ => none
  | .error e _ => some e.kind

/-- The zero tick is a validation error of the whole run, and no item's failure. -/
theorem zeroTick_escapes :
    raisedKind (runPreflight asciiTables zeroTickInputs ⟨bootHaltedState, []⟩) = some .validation ∧
      ¬∃ report session, runPreflight asciiTables zeroTickInputs ⟨bootHaltedState, []⟩ = .ok report session ∧
        Accounted asciiTables zeroTickInputs ⟨bootHaltedState, []⟩ report session := by
  have hraised : raisedKind (runPreflight asciiTables zeroTickInputs ⟨bootHaltedState, []⟩) = some .validation := by
    decide +kernel
  refine ⟨hraised, ?_⟩
  rintro ⟨report, session, hrun, _⟩
  rw [hrun] at hraised
  cases hraised

end FinanceKing.Execution
