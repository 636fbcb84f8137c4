import FinanceKing.Evolution.Genealogy
import FinanceKing.Evolution.Lifecycle
import FinanceKing.Lib.LockedTable

/-! The lifecycle stream under concurrent transactions: the state is derived and checked before the insert,
    and only the insert's trigger takes a lock. -/

namespace FinanceKing.Evolution

open Lib LockedTable

/-- A row of `strategy`. -/
structure StrategyRow where
  strategyId : String
  genomeHash : String
  deriving DecidableEq

/-- What one call wrote: an event, and for an admission the strategy it is the genesis of. -/
structure LifecycleRow where
  seq : ℤ
  event : LifecycleEvent
  strategy : Option StrategyRow

inductive LifecycleCall where
  | admitStrategy (strategyId : String) (record : GenomeRecord) (genesisEvent : LifecycleEvent)
  | appendLifecycleEvent (event : LifecycleEvent)

/-- The event the call inserts. -/
def LifecycleCall.event : LifecycleCall → LifecycleEvent
  | admitStrategy _ _ genesisEvent => genesisEvent
  | appendLifecycleEvent event => event

/-- `_SELECT_EVENTS`: the events of one strategy, by `seq`. -/
def streamOf (rows : List LifecycleRow) (strategyId : String) : List LifecycleEvent :=
  (sortBy LifecycleRow.seq (rows.filter fun row => row.event.strategyId = strategyId)).map
    LifecycleRow.event

def strategiesOf (rows : List LifecycleRow) : List StrategyRow := rows.filterMap LifecycleRow.strategy

/-- What a call checks before its first insert, over the rows it reads. -/
def requireAppendable (rows : List LifecycleRow) : LifecycleCall → PyResult Unit
  | .admitStrategy _ _ genesisEvent =>
    raiseIf (genesisEvent.fromState ≠ .nonexistent) .lifecycleTransition
      ["a genesis event comes from ", LifecycleState.nonexistent.label, ", not from ",
        genesisEvent.fromState.label]
  | .appendLifecycleEvent event => do
    let observed := deriveCurrentState (streamOf rows event.strategyId)
    raiseIf (observed ≠ event.fromState) .lifecycleTransition
      [.text event.strategyId, " is in ", observed.label, ", so a transition from ", event.fromState.label,
        " is not the one to record"]
    requirePermittedTransition event.fromState event.toState

/-- The checks, the unique event id and the strategy's foreign key of `strategy_lifecycle_events`. -/
def eventAccepted (rows : List LifecycleRow) (strategies : List StrategyRow) (event : LifecycleEvent) :
    Bool :=
  event.fromState ≠ event.toState ∧ event.toState ≠ .nonexistent ∧ event.fromState ≠ .retired ∧
    event.reason ≠ "" ∧ event.independentEpisodeCount < 2 ^ 31 ∧
    event.forwardIndependentEpisodeCount < 2 ^ 31 ∧ event.globalTrialIndex < 2 ^ 63 ∧
    (∀ row ∈ rows, row.event.eventId ≠ event.eventId) ∧
    ∃ strategy ∈ strategies, strategy.strategyId = event.strategyId

/-- The primary key and the unique genome of `strategy`. -/
def strategyAccepted (rows : List LifecycleRow) (strategy : StrategyRow) : Bool :=
  ∀ other ∈ strategiesOf rows,
    other.strategyId ≠ strategy.strategyId ∧ other.genomeHash ≠ strategy.genomeHash

section Store

variable (digest : JsonValue → String)

/-- The inserts of a call. -/
def insertLifecycle (rows : List LifecycleRow) (seq : ℤ) : LifecycleCall → Option LifecycleRow
  | .admitStrategy strategyId record genesisEvent =>
    match genomeHash digest record.genome with
    | .error _ => none
    | .ok hash =>
      let strategy : StrategyRow := ⟨strategyId, hash⟩
      if strategyAccepted rows strategy ∧ eventAccepted rows (strategiesOf rows ++ [strategy]) genesisEvent
      then some ⟨seq, genesisEvent, some strategy⟩
      else none
  | .appendLifecycleEvent event =>
    if eventAccepted rows (strategiesOf rows) event then some ⟨seq, event, none⟩ else none

/-- The strategies and their events as one locked table. -/
def lifecycleRules : TableRules LifecycleCall LifecycleRow where
  admits rows call := (requireAppendable rows call).toBool
  insert := insertLifecycle digest

/-- The rows committed by an interleaving of the transactions' steps. -/
def committedLifecycle (actions : List (TableAction LifecycleCall)) : List LifecycleRow :=
  (run (lifecycleRules digest) actions).committed

end Store

/-- Under the lock the event still leaves the state its strategy's stream is in, and its `seq` is above the
    stream's. -/
def ExtendsStream (rows : List LifecycleRow) (seq : ℤ) (call : LifecycleCall) : Prop :=
  deriveCurrentState (streamOf rows call.event.strategyId) = call.event.fromState ∧
    ∀ row ∈ rows, row.event.strategyId = call.event.strategyId → row.seq < seq

instance (rows : List LifecycleRow) (seq : ℤ) (call : LifecycleCall) :
    Decidable (ExtendsStream rows seq call) :=
  inferInstanceAs (Decidable (_ ∧ _))

/-- Every strategy's stream is a path from `nonexistent`. -/
def StreamsArePaths (rows : List LifecycleRow) : Prop :=
  ∀ strategyId, IsLifecyclePath .nonexistent (streamOf rows strategyId)

variable {digest : JsonValue → String} {rows : List LifecycleRow}

theorem insertLifecycle_eq {seq : ℤ} {call : LifecycleCall} {row : LifecycleRow}
    (h : insertLifecycle digest rows seq call = some row) : row.seq = seq ∧ row.event = call.event := by
  cases call with
  | admitStrategy strategyId record genesisEvent =>
    rw [insertLifecycle] at h
    split at h
    · cases h
    · dsimp only at h
      split at h
      · obtain rfl := Option.some.inj h
        exact ⟨rfl, rfl⟩
      · cases h
  | appendLifecycleEvent event =>
    rw [insertLifecycle] at h
    split at h
    · obtain rfl := Option.some.inj h
      exact ⟨rfl, rfl⟩
    · cases h

/-- A row whose `seq` is above its stream's is the stream's last. -/
theorem streamOf_append {row : LifecycleRow}
    (h : ∀ other ∈ rows, other.event.strategyId = row.event.strategyId → other.seq < row.seq)
    (strategyId : String) : streamOf (rows ++ [row]) strategyId =
      if row.event.strategyId = strategyId then streamOf rows strategyId ++ [row.event]
      else streamOf rows strategyId := by
  rw [streamOf, streamOf, List.filter_append]
  split
  · next hstrategy =>
    subst hstrategy
    have hlast : ∀ other ∈ rows.filter (fun other => other.event.strategyId = row.event.strategyId),
        other.seq ≤ row.seq := by
      intro other hother
      obtain ⟨hmem, hsame⟩ := List.mem_filter.mp hother
      exact (h other hmem (of_decide_eq_true hsame)).le
    have hself : [row].filter (fun other => other.event.strategyId = row.event.strategyId) = [row] := by
      simp
    rw [hself, sortBy_concat _ hlast, List.map_append]
    rfl
  · next hstrategy => simp [hstrategy]

/-- An insert that extends its strategy's stream keeps every stream a path. -/
theorem StreamsArePaths.append (h : StreamsArePaths rows) {seq : ℤ} {call : LifecycleCall}
    {row : LifecycleRow} (hextends : ExtendsStream rows seq call)
    (hrow : insertLifecycle digest rows seq call = some row) : StreamsArePaths (rows ++ [row]) := by
  obtain ⟨hseq, hevent⟩ := insertLifecycle_eq hrow
  obtain ⟨hstate, hlast⟩ := hextends
  rw [← hevent] at hstate hlast
  intro strategyId
  rw [streamOf_append (hseq.symm ▸ hlast)]
  split
  · next hstrategy => exact (h strategyId).append (hstrategy ▸ hstate.symm)
  · exact h strategyId

/-- In every run whose events extend their strategy's stream when they are inserted, every stream is a path
    of the lifecycle graph, and nothing follows an event into `retired`. -/
theorem streams_are_paths (digest : JsonValue → String) {actions : List (TableAction LifecycleCall)}
    (h : StepsMeet (fun s a => s.step (lifecycleRules digest) a)
      (fun s a => s.InsertsMeet (lifecycleRules digest) ExtendsStream a) init actions)
    (strategyId : String) :
    IsLifecyclePath .nonexistent (streamOf (committedLifecycle digest actions) strategyId) ∧
      ∀ before event after, streamOf (committedLifecycle digest actions) strategyId =
        before ++ event :: after → event.toState = .retired → after = [] := by
  have hnil : StreamsArePaths [] := fun _ => trivial
  have hpaths : StreamsArePaths (committedLifecycle digest actions) :=
    committed_run hnil (fun _ _ _ _ hrows _ hextends hrow => hrows.append hextends hrow) h
  refine ⟨hpaths strategyId, fun before event after hstream hretired => ?_⟩
  have hpath := hpaths strategyId
  rw [hstream] at hpath
  exact hpath.retired_last hretired

/-! ### Two transitions out of one state -/

def sampleFields (eventId : Uuid) (fromState toState : LifecycleState) : LifecycleEventFields :=
  ⟨eventId, "s1", lowHash, 7, none, fromState, toState, .operator, "sample", none, Dict.empty, 0, 0, 0, 0,
    "v1", 0⟩

def genesisEvent : LifecycleEvent := ⟨sampleFields 1 .nonexistent .proposed, by decide +kernel⟩

def backtestedEvent : LifecycleEvent := ⟨sampleFields 2 .proposed .backtested, by decide +kernel⟩

def retiredEvent : LifecycleEvent := ⟨sampleFields 3 .proposed .retired, by decide +kernel⟩

def admission : LifecycleCall := .admitStrategy "s1" (sampleRecord ⟨false, 15, -1⟩ []) genesisEvent

/-- A transaction that checks and draws. -/
def offerFor (tx : ℕ) (call : LifecycleCall) : List (TableAction LifecycleCall) :=
  [.check tx call, .draw tx]

/-- A transaction that inserts and commits. -/
def writeFor (tx : ℕ) : List (TableAction LifecycleCall) := [.insert tx, .commit tx]

/-- Read back as the transitions it is made of. -/
def transitionsOf (events : List LifecycleEvent) : List (LifecycleState × LifecycleState) :=
  events.map fun event => (event.fromState, event.toState)

/-- An admission, then one transition. -/
def sampleTransactions : List (TableAction LifecycleCall) :=
  offerFor 1 admission ++ writeFor 1 ++ offerFor 2 (.appendLifecycleEvent retiredEvent) ++ writeFor 2

theorem streams_are_paths_sample :
    IsLifecyclePath .nonexistent (streamOf (committedLifecycle sampleDigest sampleTransactions) "s1") ∧
      transitionsOf (streamOf (committedLifecycle sampleDigest sampleTransactions) "s1") =
        [(.nonexistent, .proposed), (.proposed, .retired)] := by
  refine ⟨(streams_are_paths sampleDigest ?_ "s1").1, by decide +kernel⟩
  refine ⟨insertsMeet_of_ne nofun, insertsMeet_of_ne nofun, insertsMeet_insert ?_,
    insertsMeet_of_ne nofun, insertsMeet_of_ne nofun, insertsMeet_of_ne nofun, insertsMeet_insert ?_,
    insertsMeet_of_ne nofun, trivial⟩
  · decide +kernel
  · decide +kernel

/-- Two transactions that both read `proposed`, and both append. -/
def racingTransactions : List (TableAction LifecycleCall) :=
  offerFor 1 admission ++ writeFor 1 ++ offerFor 2 (.appendLifecycleEvent retiredEvent) ++
    offerFor 3 (.appendLifecycleEvent backtestedEvent) ++ writeFor 2 ++ writeFor 3

/-- The second transition leaves a state its predecessor had left, and follows one into `retired`. -/
theorem racing_transitions_leave_path :
    transitionsOf (streamOf (committedLifecycle sampleDigest racingTransactions) "s1") =
        [(.nonexistent, .proposed), (.proposed, .retired), (.proposed, .backtested)] ∧
      ¬IsLifecyclePath .nonexistent
        (streamOf (committedLifecycle sampleDigest racingTransactions) "s1") := by
  refine ⟨?_, ?_⟩ <;> decide +kernel

end FinanceKing.Evolution
