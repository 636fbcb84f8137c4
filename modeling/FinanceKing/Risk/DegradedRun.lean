import FinanceKing.Risk.DegradedModes
import FinanceKing.Lib.Fold

/-! Runs of the degraded-mode tracker: what one delivery does, what redelivering an observation does,
    and how long a stale symbol stays blocked. -/

namespace FinanceKing.Risk

open Lib

/-- The tracker with what it emitted and the observations it applied, oldest first. -/
structure ModeRun where
  state : DegradedModeState
  transitions : List ModeTransition
  applied : List ModeObservation
  deriving DecidableEq

namespace ModeRun

def init : ModeRun := ⟨.init, [], []⟩

def step (self : ModeRun) (observation : ModeObservation) : ModeRun :=
  { state := (self.state.observe observation).1
    transitions := self.transitions ++ (self.state.observe observation).2.toList
    applied :=
      if (self.state.progressFor observation.mode).superseded observation then self.applied
      else self.applied ++ [observation] }

/-- The run a sequence of deliveries makes. -/
def of (observations : List ModeObservation) : ModeRun := observations.foldl step init

theorem of_concat (observations : List ModeObservation) (observation : ModeObservation) :
    of (observations ++ [observation]) = (of observations).step observation := by
  rw [of, List.foldl_append]
  rfl

end ModeRun

/-! ### One delivery -/

/-- One mode's progress once an observation has been applied to it. -/
def ModeProgress.advanced (current : ModeProgress) (observation : ModeObservation) : ModeProgress :=
  (if observation.isFaulted then current.afterFault observation
    else current.afterClear observation).1

section Observe

variable (state : DegradedModeState) (observation : ModeObservation)

theorem observe_of_superseded (h : (state.progressFor observation.mode).superseded observation) :
    state.observe observation = (state, none) := if_pos h

theorem step_of_superseded {run : ModeRun}
    (h : (run.state.progressFor observation.mode).superseded observation) :
    run.step observation = run := by
  rw [ModeRun.step, observe_of_superseded run.state observation h, if_pos h]
  exact congrArg (fun transitions => ModeRun.mk run.state transitions run.applied)
    (List.append_nil run.transitions)

/-- An applied observation advances its own mode and leaves the others alone. -/
theorem progressFor_observe (mode : DegradedMode)
    (h : ¬(state.progressFor observation.mode).superseded observation) :
    (state.observe observation).1.progressFor mode =
      if mode = observation.mode then (state.progressFor observation.mode).advanced observation
      else state.progressFor mode := by
  rw [DegradedModeState.observe]
  dsimp only
  rw [if_neg h]
  dsimp only
  rw [DegradedModeState.progressFor, Dict.get?_set]
  by_cases hmode : mode = observation.mode
  · rw [if_pos hmode, if_pos hmode]
    rfl
  · rw [if_neg hmode, if_neg hmode]
    rfl

@[simp] theorem advanced_lastObservationId (current : ModeProgress) :
    (current.advanced observation).lastObservationId = some observation.observationId := by
  rw [ModeProgress.advanced]
  split <;> rfl

@[simp] theorem advanced_lastObservedAtUtc (current : ModeProgress) :
    (current.advanced observation).lastObservedAtUtc = some observation.observedAtUtc := by
  rw [ModeProgress.advanced]
  split <;> rfl

/-- An observation changes nothing exactly when it is superseded on arrival. -/
theorem observe_eq_self_iff :
    state.observe observation = (state, none) ↔
      (state.progressFor observation.mode).superseded observation := by
  constructor
  · intro h
    by_contra hnew
    have hprogress := progressFor_observe state observation observation.mode hnew
    rw [h, if_pos rfl] at hprogress
    have hid := advanced_lastObservationId observation (state.progressFor observation.mode)
    rw [← hprogress] at hid
    exact hnew (.inl hid)
  · exact observe_of_superseded state observation

/-- An observation older than the tracked time changes nothing. -/
theorem observe_of_older {last : DateTime}
    (hlast : (state.progressFor observation.mode).lastObservedAtUtc = some last)
    (holder : observation.observedAtUtc < last) : state.observe observation = (state, none) :=
  observe_of_superseded state observation (.inr ⟨last, hlast, holder⟩)

end Observe

/-! ### Redelivery -/

/-- What one mode tracks of the observations delivered so far: the latest of them, and of those with
    its stamp the one delivered last. -/
def Tracks (delivered : List ModeObservation) (mode : DegradedMode) (progress : ModeProgress) : Prop :=
  (progress.lastObservationId = none ∧ progress.lastObservedAtUtc = none ∧
      ∀ e ∈ delivered, e.mode ≠ mode) ∨
    ∃ last, progress.lastObservationId = some last.observationId ∧
      progress.lastObservedAtUtc = some last.observedAtUtc ∧
      (∀ e ∈ delivered, e.mode = mode → e.observedAtUtc ≤ last.observedAtUtc) ∧
      (delivered.filter fun e => e.mode = mode ∧ e.observedAtUtc = last.observedAtUtc).getLast? =
        some last

/-- A later observation of the mode has been delivered, or the observation is the last one delivered
    of those of the mode with its stamp. -/
def Settled (delivered : List ModeObservation) (observation : ModeObservation) : Prop :=
  (∃ e ∈ delivered, e.mode = observation.mode ∧ observation.observedAtUtc < e.observedAtUtc) ∨
    (delivered.filter fun e => e.mode = observation.mode ∧
      e.observedAtUtc = observation.observedAtUtc).getLast? = some observation

/-- No two different observations share an id. -/
def IdsIdentify (observations : List ModeObservation) : Prop :=
  ∀ a ∈ observations, ∀ b ∈ observations, a.observationId = b.observationId → a = b

section Tracks

variable {delivered : List ModeObservation} {mode : DegradedMode} {progress : ModeProgress}
  {observation : ModeObservation}

theorem mem_of_filter_getLast? {α : Type} {p : α → Bool} {l : List α} {a : α}
    (h : (l.filter p).getLast? = some a) : a ∈ l ∧ p a = true :=
  List.mem_filter.mp (List.mem_of_getLast? h)

theorem filter_concat_of_neg {α : Type} {p : α → Bool} {a : α} (l : List α) (h : ¬p a = true) :
    (l ++ [a]).filter p = l.filter p := by
  rw [List.filter_append, List.filter_cons_of_neg h, List.filter_nil, List.append_nil]

/-- A delivery of another mode leaves what this mode tracks. -/
theorem Tracks.other (h : Tracks delivered mode progress) (hmode : observation.mode ≠ mode) :
    Tracks (delivered ++ [observation]) mode progress := by
  rcases h with ⟨hid, hat, hnone⟩ | ⟨last, hid, hat, hle, hlast⟩
  · refine .inl ⟨hid, hat, fun e he => ?_⟩
    rcases List.mem_append.mp he with he | he
    · exact hnone e he
    · exact List.mem_singleton.mp he ▸ hmode
  · refine .inr ⟨last, hid, hat, fun e he hsame => ?_, ?_⟩
    · rcases List.mem_append.mp he with he | he
      · exact hle e he hsame
      · exact absurd (List.mem_singleton.mp he ▸ hsame) hmode
    · rw [filter_concat_of_neg _ (by simp [hmode]), hlast]

/-- A superseded delivery leaves what its mode tracks. -/
theorem Tracks.superseded (hids : IdsIdentify (delivered ++ [observation]))
    (h : Tracks delivered mode progress) (hmode : observation.mode = mode)
    (hsuper : progress.superseded observation) : Tracks (delivered ++ [observation]) mode progress := by
  rcases h with ⟨hid, hat, -⟩ | ⟨last, hid, hat, hle, hlast⟩
  · rcases hsuper with hsame | ⟨stamp, hstamp, -⟩
    · rw [hid] at hsame
      cases hsame
    · rw [hat] at hstamp
      cases hstamp
  · obtain ⟨hmem, hlastMode⟩ := mem_of_filter_getLast? hlast
    rcases hsuper with hsame | ⟨stamp, hstamp, holder⟩
    · have heq : last = observation :=
        hids last (List.mem_append_left _ hmem) observation (by simp)
          (Option.some.inj (hid.symm.trans hsame))
      subst heq
      refine .inr ⟨last, hid, hat, fun e he hsameMode => ?_, ?_⟩
      · rcases List.mem_append.mp he with he | he
        · exact hle e he hsameMode
        · rw [List.mem_singleton.mp he]
      · rw [List.filter_append, List.filter_singleton]
        simp [hmode]
    · rw [hat] at hstamp
      obtain rfl := Option.some.inj hstamp
      refine .inr ⟨last, hid, hat, fun e he hsameMode => ?_, ?_⟩
      · rcases List.mem_append.mp he with he | he
        · exact hle e he hsameMode
        · rw [List.mem_singleton.mp he]
          exact holder.le
      · rw [filter_concat_of_neg _ (by simp [holder.ne]), hlast]

/-- An applied delivery is what its mode tracks from then on. -/
theorem Tracks.applied (h : Tracks delivered mode progress) (hmode : observation.mode = mode)
    (hnew : ¬progress.superseded observation) :
    Tracks (delivered ++ [observation]) mode (progress.advanced observation) := by
  refine .inr ⟨observation, advanced_lastObservationId _ _, advanced_lastObservedAtUtc _ _,
    fun e he hsameMode => ?_, ?_⟩
  · rcases List.mem_append.mp he with he | he
    · rcases h with ⟨-, -, hnone⟩ | ⟨last, -, hat, hle, -⟩
      · exact absurd hsameMode (hnone e he)
      · refine (hle e he hsameMode).trans (not_lt.mp fun holder => hnew (.inr ⟨_, hat, holder⟩))
    · rw [List.mem_singleton.mp he]
  · rw [List.filter_append, List.filter_singleton]
    simp [hmode]

/-- A copy of a delivered observation is superseded exactly when it is settled. -/
theorem Tracks.superseded_iff (hids : IdsIdentify delivered)
    (h : Tracks delivered observation.mode progress) (hmem : observation ∈ delivered) :
    progress.superseded observation ↔ Settled delivered observation := by
  rcases h with ⟨-, -, hnone⟩ | ⟨last, hid, hat, hle, hlast⟩
  · exact absurd rfl (hnone observation hmem)
  obtain ⟨hlastMem, hlastMode⟩ := mem_of_filter_getLast? hlast
  have hlastMode' : last.mode = observation.mode := by simpa using hlastMode
  constructor
  · rintro (hsame | ⟨stamp, hstamp, holder⟩)
    · have heq := hids last hlastMem observation hmem (Option.some.inj (hid.symm.trans hsame))
      subst heq
      exact .inr hlast
    · rw [hat] at hstamp
      obtain rfl := Option.some.inj hstamp
      exact .inl ⟨last, hlastMem, hlastMode', holder⟩
  · rintro (⟨e, he, hsameMode, holder⟩ | hgot)
    · exact .inr ⟨_, hat, holder.trans_le (hle e he hsameMode)⟩
    · rcases (hle observation hmem rfl).lt_or_eq with holder | heq
      · exact .inr ⟨_, hat, holder⟩
      · rw [heq] at hgot
        obtain rfl := Option.some.inj (hlast.symm.trans hgot)
        exact .inl hid

end Tracks

/-- Every mode tracks what has been delivered of it. -/
theorem tracks_of (observations : List ModeObservation) (hids : IdsIdentify observations)
    (mode : DegradedMode) : Tracks observations mode ((ModeRun.of observations).state.progressFor mode) := by
  induction observations using List.reverseRecOn with
  | nil => exact .inl ⟨rfl, rfl, by simp⟩
  | append_singleton observations observation ih =>
    have hprefix : IdsIdentify observations := fun a ha b hb =>
      hids a (List.mem_append_left _ ha) b (List.mem_append_left _ hb)
    have htracks := ih hprefix
    rw [ModeRun.of_concat]
    by_cases hsuper : ((ModeRun.of observations).state.progressFor observation.mode).superseded observation
    · rw [step_of_superseded observation hsuper]
      by_cases hmode : observation.mode = mode
      · subst hmode
        exact htracks.superseded hids rfl hsuper
      · exact htracks.other hmode
    · have hprogress := progressFor_observe (ModeRun.of observations).state observation mode hsuper
      rw [ModeRun.step]
      dsimp only
      rw [hprogress]
      by_cases hmode : mode = observation.mode
      · subst hmode
        rw [if_pos rfl]
        exact htracks.applied rfl hsuper
      · rw [if_neg hmode]
        exact htracks.other fun h => hmode h.symm

/-- Deliveries, each marked when it is a further copy of an earlier one. -/
abbrev Deliveries := List (Bool × ModeObservation)

/-- What was delivered, copies left out. -/
def originals (deliveries : Deliveries) : List ModeObservation :=
  (deliveries.filter fun delivery => !delivery.1).map Prod.snd

/-- Every marked delivery is a copy of something delivered before it. -/
def Redelivers (deliveries : Deliveries) : Prop :=
  ∀ earlier observation later, deliveries = earlier ++ (true, observation) :: later →
    observation ∈ earlier.map Prod.snd

/-- Every copy arrives settled. -/
def CopiesSettled (deliveries : Deliveries) : Prop :=
  ∀ earlier observation later, deliveries = earlier ++ (true, observation) :: later →
    Settled (earlier.map Prod.snd) observation

/-- No copy changes the tracker or emits a transition when it arrives. -/
def CopiesIgnored (deliveries : Deliveries) : Prop :=
  ∀ earlier observation later, deliveries = earlier ++ (true, observation) :: later →
    (ModeRun.of (earlier.map Prod.snd)).state.observe observation =
      ((ModeRun.of (earlier.map Prod.snd)).state, none)

theorem copiesIgnored_iff {deliveries : Deliveries} (hcopies : Redelivers deliveries)
    (hids : IdsIdentify (deliveries.map Prod.snd)) :
    CopiesIgnored deliveries ↔ CopiesSettled deliveries := by
  have hone : ∀ earlier observation later, deliveries = earlier ++ (true, observation) :: later →
      ((ModeRun.of (earlier.map Prod.snd)).state.observe observation =
          ((ModeRun.of (earlier.map Prod.snd)).state, none) ↔
        Settled (earlier.map Prod.snd) observation) := by
    intro earlier observation later hsplit
    have hprefix : IdsIdentify (earlier.map Prod.snd) := fun a ha b hb =>
      hids a (by rw [hsplit, List.map_append]; exact List.mem_append_left _ ha) b
        (by rw [hsplit, List.map_append]; exact List.mem_append_left _ hb)
    rw [observe_eq_self_iff]
    exact (tracks_of _ hprefix observation.mode).superseded_iff hprefix
      (hcopies earlier observation later hsplit)
  constructor
  · intro h earlier observation later hsplit
    exact (hone earlier observation later hsplit).mp (h earlier observation later hsplit)
  · intro h earlier observation later hsplit
    exact (hone earlier observation later hsplit).mpr (h earlier observation later hsplit)

/-- Copies that change nothing on arrival change nothing of the run. -/
theorem of_originals {deliveries : Deliveries} (h : CopiesIgnored deliveries) :
    ModeRun.of (deliveries.map Prod.snd) = ModeRun.of (originals deliveries) := by
  induction deliveries using List.reverseRecOn with
  | nil => rfl
  | append_singleton deliveries delivery ih =>
    have hprefix : CopiesIgnored deliveries := fun earlier observation later hsplit =>
      h earlier observation (later ++ [delivery]) (by rw [hsplit, List.append_assoc, List.cons_append])
    obtain ⟨copy, observation⟩ := delivery
    rw [List.map_append, List.map_singleton, ModeRun.of_concat]
    cases copy with
    | true =>
      have hignored := h deliveries observation [] rfl
      rw [step_of_superseded observation ((observe_eq_self_iff _ _).mp hignored), ih hprefix, originals,
        originals, filter_concat_of_neg _ (by simp)]
    | false =>
      have hlast : originals (deliveries ++ [(false, observation)]) =
          originals deliveries ++ [observation] := by
        rw [originals, List.filter_append, List.map_append]
        rfl
      rw [hlast, ModeRun.of_concat, ih hprefix]

/-- Where ids identify observations, no copy changes anything exactly when each arrives settled, and
    then the tracker ends where it would have and emits the same transitions. An observation older than
    the tracked time changes nothing in any state. -/
theorem redelivery_idempotent (deliveries : Deliveries) (hcopies : Redelivers deliveries)
    (hids : IdsIdentify (deliveries.map Prod.snd)) :
    (CopiesIgnored deliveries ↔ CopiesSettled deliveries) ∧
      (CopiesSettled deliveries →
        (ModeRun.of (deliveries.map Prod.snd)).state = (ModeRun.of (originals deliveries)).state ∧
          (ModeRun.of (deliveries.map Prod.snd)).transitions =
            (ModeRun.of (originals deliveries)).transitions) ∧
      ∀ (state : DegradedModeState) (observation : ModeObservation) (last : DateTime),
        (state.progressFor observation.mode).lastObservedAtUtc = some last →
        observation.observedAtUtc < last → state.observe observation = (state, none) := by
  refine ⟨copiesIgnored_iff hcopies hids, fun hsettled => ?_, fun state observation last hlast holder =>
    observe_of_older state observation hlast holder⟩
  have hsame := of_originals ((copiesIgnored_iff hcopies hids).mpr hsettled)
  rw [hsame]
  exact ⟨rfl, rfl⟩

/-- One report of the venue's reachability. -/
def reachabilityFields (observationId : Uuid) (isFaulted : Bool) (observedAtUtc : DateTime) :
    ModeObservationFields :=
  { observationId := observationId
    correlationId := 0
    mode := .exchangeUnreachable
    isFaulted := isFaulted
    observedAtUtc := observedAtUtc
    reason := "ping"
    affectedSymbols := []
    reconciliationIsClean := true }

theorem reachability_checked (observationId : Uuid) (isFaulted : Bool) (observedAtUtc : DateTime) :
    (reachabilityFields observationId isFaulted observedAtUtc).postInit = .ok () := by
  have hreason : strip "ping" ≠ [] := by with_unfolding_all decide
  exact bind_eq_ok.mpr ⟨(), raiseIf_eq_ok.mpr hreason, rfl⟩

def unreachableAt (observationId : Uuid) (observedAtUtc : DateTime) : ModeObservation :=
  ⟨reachabilityFields observationId true observedAtUtc, reachability_checked _ _ _⟩

def reachableAt (observationId : Uuid) (observedAtUtc : DateTime) : ModeObservation :=
  ⟨reachabilityFields observationId false observedAtUtc, reachability_checked _ _ _⟩

/-- A failed call, a copy of it, a successful one and another copy of the first. -/
def retriedDeliveries : Deliveries :=
  [(false, unreachableAt 1 0), (true, unreachableAt 1 0), (false, reachableAt 2 1),
    (true, unreachableAt 1 0)]

theorem redelivery_idempotent_retried :
    (ModeRun.of (retriedDeliveries.map Prod.snd)).state =
        (ModeRun.of (originals retriedDeliveries)).state ∧
      (ModeRun.of (retriedDeliveries.map Prod.snd)).transitions =
        (ModeRun.of (originals retriedDeliveries)).transitions := by
  have hplaces : ∀ earlier observation later,
      retriedDeliveries = earlier ++ (true, observation) :: later →
      (earlier, observation) = (retriedDeliveries.take 1, unreachableAt 1 0) ∨
        (earlier, observation) = (retriedDeliveries.take 3, unreachableAt 1 0) := by
    intro earlier observation later hsplit
    rcases earlier with _ | ⟨a, _ | ⟨b, _ | ⟨c, _ | ⟨d, rest⟩⟩⟩⟩ <;>
      simp only [retriedDeliveries, List.cons_append, List.nil_append, List.cons.injEq, Prod.mk.injEq,
        Bool.false_eq_true, false_and, and_false] at hsplit
    · obtain ⟨rfl, ⟨-, rfl⟩, -⟩ := hsplit
      exact .inl rfl
    · obtain ⟨rfl, rfl, rfl, ⟨-, rfl⟩, -⟩ := hsplit
      exact .inr rfl
    · simp at hsplit
  have hcopies : Redelivers retriedDeliveries := by
    intro earlier observation later hsplit
    rcases hplaces earlier observation later hsplit with h | h <;>
      (obtain ⟨rfl, rfl⟩ := Prod.mk.inj h; decide +kernel)
  have hsettled : CopiesSettled retriedDeliveries := by
    intro earlier observation later hsplit
    rcases hplaces earlier observation later hsplit with h | h <;>
      (obtain ⟨rfl, rfl⟩ := Prod.mk.inj h; unfold Settled; decide +kernel)
  exact (redelivery_idempotent retriedDeliveries hcopies (by unfold IdsIdentify; decide +kernel)).2.1
    hsettled

/-- A failure and a success measured at one instant, then the failure again, then a later failure: the
    copy counts as a second failure in a row, and the mode is entered. -/
theorem copy_after_tie_enters_mode :
    (ModeRun.of [unreachableAt 1 0, reachableAt 2 0, unreachableAt 3 1]).transitions = [] ∧
      (ModeRun.of [unreachableAt 1 0, reachableAt 2 0, unreachableAt 1 0,
        unreachableAt 3 1]).transitions =
          [transitionOf (unreachableAt 3 1) .entered []] := by
  decide +kernel

end FinanceKing.Risk
