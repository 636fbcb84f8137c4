import FinanceKing.Domain.Guards
import FinanceKing.Lib.Dict

/-! The strategy lifecycle: its states, the edges it has, and the event that records one transition. -/

namespace FinanceKing.Evolution

open Lib

inductive LifecycleState where
  | nonexistent
  | proposed
  | backtested
  | validated
  | paper
  | challenger
  | champion
  | quarantined
  | retired
  deriving DecidableEq

def LifecycleState.label : LifecycleState → String
  | nonexistent => "nonexistent"
  | proposed => "proposed"
  | backtested => "backtested"
  | validated => "validated"
  | paper => "paper"
  | challenger => "challenger"
  | champion => "champion"
  | quarantined => "quarantined"
  | retired => "retired"

inductive ReasonClass where
  | genesis
  | gatePassed
  | gateFailed
  | defect
  | risk
  | decay
  | superseded
  | environmental
  | quarantine
  | operator
  deriving DecidableEq

/-- States a strategy cannot enter without a score and the sample behind it. -/
def scoredStates : List LifecycleState := [.validated, .paper, .challenger, .champion]

/-- `PERMITTED_TRANSITIONS`, each state's destinations sorted by name. -/
def permittedTransitions : LifecycleState → List LifecycleState
  | .nonexistent => [.proposed]
  | .proposed => [.backtested, .quarantined, .retired]
  | .backtested => [.quarantined, .retired, .validated]
  | .validated => [.paper, .quarantined, .retired]
  | .paper => [.challenger, .quarantined, .retired]
  | .challenger => [.champion, .quarantined, .retired]
  | .champion => [.quarantined, .retired]
  | .quarantined => [.backtested, .retired]
  | .retired => []

def isPermittedTransition (fromState toState : LifecycleState) : Bool :=
  toState ∈ permittedTransitions fromState

/-- Refuse an edge the lifecycle does not have; the three common refusals come before the table. -/
def requirePermittedTransition (fromState toState : LifecycleState) : PyResult Unit := do
  raiseIf (fromState = toState) .illegalTransition
    [toState.label, " -> ", toState.label, " is not a transition; nothing moved"]
  raiseIf (fromState = .retired) .illegalTransition
    ["retired is terminal: there is no reactivate and no unretire. Re-testing a hypothesis you already ",
      "rejected gives a second correlated look at the full statistical cost (EVOLUTION_ENGINE.md section 8)"]
  raiseIf (toState = .nonexistent) .illegalTransition
    ["nonexistent is where a strategy comes from, never where it goes"]
  raiseIf (¬isPermittedTransition fromState toState) .illegalTransition
    [fromState.label, " -> ", toState.label, " is not an edge the lifecycle has; from ", fromState.label,
      " the only destinations are ", .texts ((permittedTransitions fromState).map LifecycleState.label)]

theorem requirePermittedTransition_eq_ok {fromState toState : LifecycleState} :
    requirePermittedTransition fromState toState = .ok () ↔ isPermittedTransition fromState toState := by
  simp only [requirePermittedTransition, bind_eq_ok, raiseIf_eq_ok, not_not]
  constructor
  · rintro ⟨_, -, _, -, _, -, h⟩
    exact h
  · intro h
    cases fromState <;> cases toState <;> first | exact ⟨(), by decide, (), by decide, (), by decide, h⟩ | cases h

/-! ### The event -/

structure LifecycleEventFields where
  eventId : Uuid
  strategyId : String
  genomeHash : String
  correlationId : Uuid
  causationId : Option Uuid
  fromState : LifecycleState
  toState : LifecycleState
  reasonClass : ReasonClass
  reason : String
  survivalScore : Option Decimal
  scoreComponents : Dict String Decimal
  independentEpisodeCount : ℤ
  forwardIndependentEpisodeCount : ℤ
  globalTrialIndex : ℤ
  familyTrialIndex : ℤ
  scoringVersion : String
  occurredAtUtc : DateTime

namespace LifecycleEventFields

variable (self : LifecycleEventFields)

/-- A promotion carries its score, its components, a sample and a trial count that was read. -/
def requireEvidence : PyResult Unit := do
  raiseIf (self.survivalScore = none ∨ self.scoreComponents.entries = []) .lifecycleTransition
    ["entering ", self.toState.label, " requires a survival score and its components; a score with no ",
      "decomposition cannot be re-checked"]
  raiseIf (self.independentEpisodeCount ≤ 0) .lifecycleTransition
    ["entering ", self.toState.label, " requires a sample; zero independent episodes is ",
      "INSUFFICIENT_SAMPLE, not a low score"]
  raiseIf (self.globalTrialIndex < 1) .lifecycleTransition
    ["entering ", self.toState.label, " requires a trial count that was actually read. Zero never means ",
      "'nothing was tried, so no deflation was needed'"]

def postInit : PyResult Unit := do
  requirePermittedTransition self.fromState self.toState
  raiseIf (strip self.reason = []) .lifecycleTransition
    ["a transition states its reason; the reason class alone is a category, not an explanation"]
  raiseIf (self.independentEpisodeCount < 0 ∨ self.forwardIndependentEpisodeCount < 0)
    .lifecycleTransition ["episode counts are counts and cannot be negative"]
  raiseIf (self.globalTrialIndex < 0 ∨ self.familyTrialIndex < 0) .lifecycleTransition
    ["trial indices cannot be negative"]
  raiseIf (self.globalTrialIndex < self.familyTrialIndex) .lifecycleTransition
    ["family trial index ", .count self.familyTrialIndex, " exceeds the global ",
      .count self.globalTrialIndex, "; the family is a subset by construction, so one of the two counters ",
      "was reset"]
  match self.survivalScore with
  | none => pure ()
  | some survivalScore =>
    raiseIf (¬(0 ≤ survivalScore ∧ survivalScore ≤ 1)) .lifecycleTransition
      ["survival_score is a fraction on [0, 1], got ", .decimal survivalScore]
  if self.toState ∈ scoredStates then self.requireEvidence else pure ()

end LifecycleEventFields

/-- One transition, with what is needed to re-derive why it happened. -/
structure LifecycleEvent extends LifecycleEventFields where
  checked : toLifecycleEventFields.postInit = .ok ()

theorem LifecycleEvent.permitted (event : LifecycleEvent) :
    isPermittedTransition event.fromState event.toState := by
  have h := event.checked
  rw [LifecycleEventFields.postInit, bind_eq_ok] at h
  obtain ⟨_, htransition, -⟩ := h
  exact requirePermittedTransition_eq_ok.mp htransition

/-- The state an ordered event stream implies. -/
def deriveCurrentState (events : List LifecycleEvent) : LifecycleState :=
  (events.getLast?.map (·.toState)).getD .nonexistent

/-! ### Paths of the lifecycle graph -/

/-- Each event leaves the state the one before it entered, along an edge the lifecycle has. -/
def IsLifecyclePath : LifecycleState → List LifecycleEvent → Prop
  | _, [] => True
  | state, event :: events => event.fromState = state ∧
      isPermittedTransition event.fromState event.toState ∧ IsLifecyclePath event.toState events

instance decidableIsLifecyclePath : ∀ (state : LifecycleState) (events : List LifecycleEvent),
    Decidable (IsLifecyclePath state events)
  | _, [] => .isTrue trivial
  | _, event :: events =>
    have := decidableIsLifecyclePath event.toState events
    inferInstanceAs (Decidable (_ ∧ _))

theorem IsLifecyclePath.append {event : LifecycleEvent} : ∀ {state : LifecycleState}
    {events : List LifecycleEvent}, IsLifecyclePath state events →
    event.fromState = (events.getLast?.map (·.toState)).getD state →
    IsLifecyclePath state (events ++ [event])
  | _, [], _, hfrom => ⟨hfrom, event.permitted, trivial⟩
  | _, first :: events, ⟨hfirst, hpermitted, hrest⟩, hfrom => by
    refine ⟨hfirst, hpermitted, hrest.append ?_⟩
    cases events with
    | nil => exact hfrom
    | cons second events => rwa [List.getLast?_cons_cons] at hfrom

/-- Nothing follows an event into `retired`. -/
theorem IsLifecyclePath.retired_last {event : LifecycleEvent} {after : List LifecycleEvent} :
    ∀ {state : LifecycleState} {before : List LifecycleEvent},
    IsLifecyclePath state (before ++ event :: after) → event.toState = .retired → after = []
  | _, [], ⟨_, _, hrest⟩, hretired => by
    cases after with
    | nil => rfl
    | cons next after =>
      obtain ⟨hfrom, hpermitted, -⟩ := hrest
      rw [hfrom, hretired] at hpermitted
      cases hpermitted
  | _, _ :: _, ⟨_, _, hrest⟩, hretired => hrest.retired_last hretired

end FinanceKing.Evolution
