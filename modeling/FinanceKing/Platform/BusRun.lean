import FinanceKing.Platform.Bus
import FinanceKing.Lib.Fold

/-! Every event is applied at most once per group, nothing leaves the pending list unsettled, and what is
    pending can still be processed: over any number of processes, any interleaving of their steps, any
    crashes and any republishing. -/

namespace FinanceKing.Platform

open Lib

/-- The claim a process holds open, with the message it is for. -/
def Phase.held : Phase → Option (ℕ × EventEnvelope)
  | .claimed messageId envelope => some (messageId, envelope)
  | .handled messageId envelope => some (messageId, envelope)
  | _ => none

/-- The message that is decided and only has to be acknowledged. -/
def Phase.settles : Phase → Option ℕ
  | .deadLettered messageId => some messageId
  | .decided messageId _ => some messageId
  | _ => none

namespace BusState

variable (schemas : EventSchemas) (groupOf : ℕ → String) (s : BusState)

/-- The message decodes to this envelope. -/
def Carries (messageId : ℕ) (envelope : EventEnvelope) : Prop :=
  ∃ fields, s.messages[messageId]? = some fields ∧ schemas.decode fields = .ok envelope

/-- Its event's effect is committed for the group, or the message is in the dead-letter stream. -/
def Settled (group : String) (messageId : ℕ) : Prop :=
  (∃ envelope, s.Carries schemas messageId envelope ∧ (group, envelope.eventId) ∈ s.effects) ∨
    ∃ letter ∈ s.deadLetters, letter.consumerGroup = group ∧ letter.sourceMessageId = messageId

/-- What holds of one process: what it is about to acknowledge is settled, and the claim it holds open is
    its own and not yet processed. -/
structure ProcessOk (process : ℕ) (phase : Phase) : Prop where
  settles : ∀ messageId ∈ phase.settles, s.Settled schemas (groupOf process) messageId
  held : ∀ claim ∈ phase.held,
    s.openClaims.get? (groupOf process, claim.2.eventId) = some process ∧
      s.processedEvents.get? (groupOf process, claim.2.eventId) = none ∧
      s.Carries schemas claim.1 claim.2

/-- What holds of the streams and the tables. -/
structure TablesOk : Prop where
  effects_eq : s.effects = s.processedEvents.keys
  delivered_le : ∀ group, s.lastDelivered group ≤ s.messages.length
  pending_lt : ∀ group, ∀ messageId ∈ s.pending group, messageId < s.messages.length
  delivered : ∀ group messageId, messageId < s.lastDelivered group →
    messageId ∈ s.pending group ∨ s.Settled schemas group messageId

structure Consistent : Prop where
  tables : s.TablesOk schemas
  processes : ∀ process, s.ProcessOk schemas groupOf process (s.processes process).phase
  holders : ∀ key process, s.openClaims.get? key = some process →
    ∃ claim ∈ (s.processes process).phase.held, key = (groupOf process, claim.2.eventId)

variable {schemas groupOf s} {s' : BusState} {process : ℕ}

/-! ### What steps leave alone -/

theorem Carries.mono (hmessages : ∃ more, s'.messages = s.messages ++ more) {messageId : ℕ}
    {envelope : EventEnvelope} (h : s.Carries schemas messageId envelope) :
    s'.Carries schemas messageId envelope := by
  obtain ⟨more, hmore⟩ := hmessages
  obtain ⟨fields, hfields, hdecode⟩ := h
  refine ⟨fields, ?_, hdecode⟩
  rw [hmore, List.getElem?_append_left (List.getElem?_eq_some_iff.mp hfields).1, hfields]

theorem Settled.mono (hmessages : ∃ more, s'.messages = s.messages ++ more)
    (heffects : s.effects ⊆ s'.effects) (hletters : s.deadLetters ⊆ s'.deadLetters) {group : String}
    {messageId : ℕ} (h : s.Settled schemas group messageId) : s'.Settled schemas group messageId := by
  rcases h with ⟨envelope, hcarries, hmem⟩ | ⟨letter, hmem, hletter⟩
  · exact .inl ⟨envelope, hcarries.mono hmessages, heffects hmem⟩
  · exact .inr ⟨letter, hletters hmem, hletter⟩

/-- A process stays as it is through steps that leave its open claim alone. -/
theorem ProcessOk.mono {phase : Phase} (hmessages : ∃ more, s'.messages = s.messages ++ more)
    (heffects : s.effects ⊆ s'.effects) (hletters : s.deadLetters ⊆ s'.deadLetters)
    (hclaims : ∀ key, s.openClaims.get? key = some process → s.processedEvents.get? key = none →
      s'.openClaims.get? key = some process ∧ s'.processedEvents.get? key = none)
    (h : s.ProcessOk schemas groupOf process phase) :
    s'.ProcessOk schemas groupOf process phase where
  settles messageId hid := (h.settles messageId hid).mono hmessages heffects hletters
  held claim hclaim := by
    obtain ⟨hopen, hnone, hcarries⟩ := h.held claim hclaim
    obtain ⟨hopen', hnone'⟩ := hclaims _ hopen hnone
    exact ⟨hopen', hnone', hcarries.mono hmessages⟩

theorem processOk_idle {phase : Phase} (hsettles : phase.settles = none) (hheld : phase.held = none) :
    s.ProcessOk schemas groupOf process phase where
  settles messageId hid := by rw [hsettles] at hid; cases hid
  held claim hclaim := by rw [hheld] at hclaim; cases hclaim

/-- A step of one process keeps the state consistent when it keeps the tables, that process and the
    claims of the others. -/
theorem Consistent.setProcess (h : s.Consistent schemas groupOf) {p : ConsumerProcess}
    (hsame : s'.processes = s.processes) (hmessages : s'.messages = s.messages)
    (heffects : s.effects ⊆ s'.effects) (hletters : s.deadLetters ⊆ s'.deadLetters)
    (htables : s'.TablesOk schemas) (hp : s'.ProcessOk schemas groupOf process p.phase)
    (hclaims : ∀ key other, other ≠ process → s.openClaims.get? key = some other →
      s.processedEvents.get? key = none →
        s'.openClaims.get? key = some other ∧ s'.processedEvents.get? key = none)
    (hothers : ∀ key other, other ≠ process → s'.openClaims.get? key = some other →
      s.openClaims.get? key = some other)
    (hown : ∀ key, s'.openClaims.get? key = some process →
      ∃ claim ∈ p.phase.held, key = (groupOf process, claim.2.eventId)) :
    (s'.setProcess process p).Consistent schemas groupOf where
  tables := ⟨htables.effects_eq, htables.delivered_le, htables.pending_lt, htables.delivered⟩
  processes other := by
    have hmore : ∃ more, s'.messages = s.messages ++ more := ⟨[], by rw [hmessages, List.append_nil]⟩
    by_cases hother : other = process
    · subst hother
      simpa [BusState.setProcess] using ⟨hp.settles, hp.held⟩
    · have hold := (h.processes other).mono hmore heffects hletters
        fun key hopen hnone => hclaims key other hother hopen hnone
      simpa [BusState.setProcess, hother, hsame] using ⟨hold.settles, hold.held⟩
  holders key other hopen := by
    by_cases hother : other = process
    · subst hother
      simpa [BusState.setProcess] using hown key hopen
    · have hold := h.holders key other (hothers key other hother hopen)
      simpa [BusState.setProcess, hother, hsame] using hold

/-- A step that moves one process to a phase holding no claim, and touches no table of claims. -/
theorem Consistent.moved (h : s.Consistent schemas groupOf) {p : ConsumerProcess}
    (hsame : s'.processes = s.processes) (hmessages : s'.messages = s.messages)
    (heffects : s'.effects = s.effects) (hletters : s.deadLetters ⊆ s'.deadLetters)
    (hopen : s'.openClaims = s.openClaims) (hprocessed : s'.processedEvents = s.processedEvents)
    (htables : s'.TablesOk schemas) (hp : s'.ProcessOk schemas groupOf process p.phase)
    (hheld : p.phase.held = (s.processes process).phase.held) :
    (s'.setProcess process p).Consistent schemas groupOf := by
  refine h.setProcess hsame hmessages (heffects ▸ List.Subset.refl _) hletters htables hp ?_ ?_ ?_
  · intro key other _ hkey hnone
    exact ⟨hopen ▸ hkey, hprocessed ▸ hnone⟩
  · intro key other _ hkey
    exact hopen ▸ hkey
  · intro key hkey
    rw [hheld]
    exact h.holders key process (hopen ▸ hkey)

/-! ### What each step keeps -/

theorem consistent_init (schemas : EventSchemas) (groupOf : ℕ → String) :
    init.Consistent schemas groupOf where
  tables :=
    { effects_eq := rfl
      delivered_le := fun _ => le_rfl
      pending_lt := fun _ _ h => by cases h
      delivered := fun _ _ h => absurd h (Nat.not_lt_zero _) }
  processes _ := processOk_idle rfl rfl
  holders _ _ h := by cases h

theorem Consistent.publish (h : s.Consistent schemas groupOf) (fields : Dict String String) :
    ({ s with messages := s.messages ++ [fields] } : BusState).Consistent schemas groupOf := by
  have hmore : ∃ more, ({ s with messages := s.messages ++ [fields] } : BusState).messages =
      s.messages ++ more := ⟨[fields], rfl⟩
  refine ⟨⟨h.tables.effects_eq, fun group => ?_, fun group id hid => ?_, fun group id hid => ?_⟩,
    fun process => ?_, h.holders⟩
  · have hle := h.tables.delivered_le group
    simp only [List.length_append, List.length_singleton]
    omega
  · have hlt := h.tables.pending_lt group id hid
    simp only [List.length_append, List.length_singleton]
    omega
  · exact (h.tables.delivered group id hid).imp_right fun hsettled =>
      hsettled.mono hmore (List.Subset.refl _) (List.Subset.refl _)
  · exact (h.processes process).mono hmore (List.Subset.refl _) (List.Subset.refl _)
      fun key hopen hnone => ⟨hopen, hnone⟩

theorem Consistent.reclaim (h : s.Consistent schemas groupOf) (process : ℕ) (messageIds : List ℕ) :
    (s.reclaim groupOf process messageIds).Consistent schemas groupOf := by
  rw [BusState.reclaim]
  split
  · next hphase =>
    split
    · refine h.moved rfl rfl rfl (List.Subset.refl _) rfl rfl h.tables (processOk_idle rfl rfl) ?_
      rw [hphase]
    · exact h
  · exact h

theorem Consistent.read (h : s.Consistent schemas groupOf) (process batchSize : ℕ) :
    (s.read groupOf process batchSize).Consistent schemas groupOf := by
  rw [BusState.read]
  split
  · next hphase =>
    split
    · have hle := h.tables.delivered_le (groupOf process)
      refine h.moved rfl rfl rfl (List.Subset.refl _) rfl rfl
        ⟨h.tables.effects_eq, fun group => ?_, fun group id hid => ?_, fun group id hid => ?_⟩
        (processOk_idle (by rw [hphase]; rfl) (by rw [hphase]; rfl)) rfl
      · by_cases hgroup : group = groupOf process
        · subst hgroup
          simp only [Function.update_self, List.length_range']
          omega
        · simpa [hgroup] using h.tables.delivered_le group
      · by_cases hgroup : group = groupOf process
        · subst hgroup
          simp only [Function.update_self, List.mem_append, List.mem_range'_1] at hid
          rcases hid with hold | ⟨_, hnew⟩
          · exact h.tables.pending_lt _ id hold
          · simp only
            omega
        · exact h.tables.pending_lt group id (by simpa [hgroup] using hid)
      · by_cases hgroup : group = groupOf process
        · subst hgroup
          simp only [Function.update_self, List.length_range'] at hid ⊢
          rcases Nat.lt_or_ge id (s.lastDelivered (groupOf process)) with hold | hnew
          · exact (h.tables.delivered _ id hold).imp_left fun hpending =>
              List.mem_append_left _ hpending
          · exact .inl (List.mem_append_right _ (List.mem_range'_1.mpr ⟨hnew, hid⟩))
        · simp only [Function.update_of_ne hgroup] at hid ⊢
          exact h.tables.delivered group id hid
    · exact h
  · exact h

theorem TablesOk.deadLetter (h : s.TablesOk schemas) (letter : DeadLetter) :
    ({ s with deadLetters := s.deadLetters ++ [letter] } : BusState).TablesOk schemas where
  effects_eq := h.effects_eq
  delivered_le := h.delivered_le
  pending_lt := h.pending_lt
  delivered group id hid := by
    rcases h.delivered group id hid with hpending | heffect | ⟨old, hold, hletter⟩
    · exact .inl hpending
    · exact .inr (.inl heffect)
    · exact .inr (.inr ⟨old, List.mem_append_left _ hold, hletter⟩)

theorem Consistent.decide (h : s.Consistent schemas groupOf) (process : ℕ) :
    (s.decide schemas groupOf process).Consistent schemas groupOf := by
  rw [BusState.decide]
  split
  · next messageId rest hphase hbatch =>
    split
    · exact h
    · next fields hfields =>
      split
      · next reason detail hdecode =>
        -- the message is undeliverable: its copy is in the dead-letter stream before it is acknowledged
        refine h.moved rfl rfl rfl (List.subset_append_left _ _) rfl rfl (h.tables.deadLetter _)
          ⟨fun id hid => ?_, nofun⟩ (by rw [hphase]; rfl)
        obtain rfl := Option.some.inj hid
        exact .inr ⟨_, List.mem_append_right _ (List.mem_singleton_self _), rfl, rfl⟩
      · next envelope hdecode =>
        have hcarries : s.Carries schemas messageId envelope := ⟨fields, hfields, hdecode⟩
        split
        · next hprocessed =>
          -- a committed claim: its effect was committed with it
          refine h.moved rfl rfl rfl (List.Subset.refl _) rfl rfl h.tables
            ⟨fun id hid => ?_, nofun⟩ (by rw [hphase]; rfl)
          obtain rfl := Option.some.inj hid
          refine .inl ⟨envelope, hcarries, ?_⟩
          rw [h.tables.effects_eq, Dict.mem_keys_iff, hprocessed]
          rfl
        · exact h
        · next hprocessed hopen =>
          refine h.setProcess rfl rfl (List.Subset.refl _) (List.Subset.refl _)
            ⟨h.tables.effects_eq, h.tables.delivered_le, h.tables.pending_lt, h.tables.delivered⟩
            ⟨nofun, fun claim hclaim => ?_⟩ ?_ ?_ ?_
          · obtain rfl := Option.some.inj hclaim
            exact ⟨Dict.get?_set_self _ _ _, hprocessed, hcarries⟩
          · intro key other _ hkey hnone
            have hne : key ≠ (groupOf process, envelope.eventId) := by
              rintro rfl
              rw [hopen] at hkey
              cases hkey
            exact ⟨(Dict.get?_set_of_ne _ _ hne).trans hkey, hnone⟩
          · intro key other hother hkey
            rw [Dict.get?_set] at hkey
            split at hkey
            · exact absurd (Option.some.inj hkey).symm hother
            · exact hkey
          · intro key hkey
            rw [Dict.get?_set] at hkey
            split at hkey
            · next heq => exact ⟨_, rfl, heq⟩
            · obtain ⟨claim, hclaim, _⟩ := h.holders key process hkey
              rw [hphase] at hclaim
              cases hclaim
  · exact h

/-- A process that stops releases the claim it holds and no other. -/
theorem Consistent.stop (h : s.Consistent schemas groupOf) (process : ℕ) :
    (s.stop groupOf process).Consistent schemas groupOf := by
  have hreleased : ∀ envelope, (∃ id, (s.processes process).phase.held = some (id, envelope)) →
      (({ s with openClaims := s.openClaims.erase (groupOf process, envelope.eventId) } :
        BusState).setProcess process .started).Consistent schemas groupOf := by
    rintro envelope ⟨id, hheld⟩
    obtain ⟨hown, _, _⟩ := (h.processes process).held (id, envelope) hheld
    refine h.setProcess rfl rfl (List.Subset.refl _) (List.Subset.refl _)
      ⟨h.tables.effects_eq, h.tables.delivered_le, h.tables.pending_lt, h.tables.delivered⟩
      (processOk_idle rfl rfl) ?_ ?_ ?_
    · intro key other hother hkey hnone
      have hne : key ≠ (groupOf process, envelope.eventId) := by
        rintro rfl
        exact hother (Option.some.inj (hkey.symm.trans hown))
      exact ⟨by rw [Dict.get?_erase, if_neg hne]; exact hkey, hnone⟩
    · intro key other _ hkey
      rw [Dict.get?_erase] at hkey
      split at hkey
      · cases hkey
      · exact hkey
    · intro key hkey
      rw [Dict.get?_erase] at hkey
      split at hkey
      · cases hkey
      · next hne =>
        obtain ⟨claim, hclaim, hkey'⟩ := h.holders key process hkey
        obtain rfl := Option.some.inj (hheld.symm.trans hclaim)
        exact absurd hkey' hne
  rw [BusState.stop]
  split
  · next id envelope hphase => exact hreleased envelope ⟨id, by rw [hphase]; rfl⟩
  · next id envelope hphase => exact hreleased envelope ⟨id, by rw [hphase]; rfl⟩
  · next hclaimed hhandled =>
    refine h.moved rfl rfl rfl (List.Subset.refl _) rfl rfl h.tables (processOk_idle rfl rfl) ?_
    cases hphase : (s.processes process).phase with
    | claimed id envelope => exact absurd hphase (hclaimed id envelope)
    | handled id envelope => exact absurd hphase (hhandled id envelope)
    | between => rfl
    | deadLettered id => rfl
    | decided id applied => rfl

theorem Consistent.handle (h : s.Consistent schemas groupOf) (process : ℕ) (returns : Bool) :
    (s.handle groupOf process returns).Consistent schemas groupOf := by
  rw [BusState.handle]
  split
  · next id envelope hphase =>
    split
    · have hp := h.processes process
      rw [hphase] at hp
      exact h.moved rfl rfl rfl (List.Subset.refl _) rfl rfl h.tables ⟨hp.settles, hp.held⟩
        (by rw [hphase]; rfl)
    · exact h.stop process
  · exact h

/-- Committing makes the claim and the effect durable together: the event had none before. -/
theorem Consistent.commit (h : s.Consistent schemas groupOf) (process : ℕ) :
    (s.commit groupOf process).Consistent schemas groupOf := by
  rw [BusState.commit]
  split
  · next messageId envelope hphase =>
    obtain ⟨hown, hnone, hcarries⟩ := (h.processes process).held (messageId, envelope)
      (by rw [hphase]; rfl)
    have hfresh : (groupOf process, envelope.eventId) ∉ s.processedEvents.keys := by
      rw [Dict.mem_keys_iff]
      simp [hnone]
    refine h.setProcess rfl rfl (List.subset_append_left _ _) (List.Subset.refl _)
      ⟨?_, h.tables.delivered_le, h.tables.pending_lt, fun group id hid => ?_⟩
      ⟨fun id hid => ?_, fun claim hclaim => ?_⟩ ?_ ?_ ?_
    · rw [Dict.keys_set, if_neg hfresh, ← h.tables.effects_eq]
    · rcases h.tables.delivered group id hid with hpending | ⟨old, hold, heffect⟩ | hletter
      · exact .inl hpending
      · exact .inr (.inl ⟨old, hold, List.mem_append_left _ heffect⟩)
      · exact .inr (.inr hletter)
    · obtain rfl := Option.some.inj hid
      exact .inl ⟨envelope, hcarries, List.mem_append_right _ (List.mem_singleton_self _)⟩
    · cases hclaim
    · intro key other hother hkey hkeynone
      have hne : key ≠ (groupOf process, envelope.eventId) := by
        rintro rfl
        exact hother (Option.some.inj (hkey.symm.trans hown))
      exact ⟨by rw [Dict.get?_erase, if_neg hne]; exact hkey,
        (Dict.get?_set_of_ne _ _ hne).trans hkeynone⟩
    · intro key other _ hkey
      rw [Dict.get?_erase] at hkey
      split at hkey
      · cases hkey
      · exact hkey
    · intro key hkey
      rw [Dict.get?_erase] at hkey
      split at hkey
      · cases hkey
      · next hne =>
        obtain ⟨claim, hclaim, hkey'⟩ := h.holders key process hkey
        rw [hphase] at hclaim
        obtain rfl := Option.some.inj hclaim
        exact absurd hkey' hne
  · exact h

/-- What is acknowledged is settled, so whatever leaves the pending list is. -/
theorem Consistent.acknowledged (h : s.Consistent schemas groupOf) {process messageId : ℕ}
    (hphase : (s.processes process).phase.settles = some messageId)
    (hheld : (s.processes process).phase.held = none) (counted : ConsumeReport) :
    (s.acknowledged groupOf process messageId counted).Consistent schemas groupOf := by
  have hsettled := (h.processes process).settles messageId hphase
  refine h.moved rfl rfl rfl (List.Subset.refl _) rfl rfl
    ⟨h.tables.effects_eq, h.tables.delivered_le, fun group id hid => ?_, fun group id hid => ?_⟩
    (processOk_idle rfl rfl) (by rw [hheld]; rfl)
  · by_cases hgroup : group = groupOf process
    · subst hgroup
      simp only [Function.update_self] at hid
      exact h.tables.pending_lt _ id (List.mem_of_mem_filter hid)
    · exact h.tables.pending_lt group id (by simpa [hgroup] using hid)
  · rcases h.tables.delivered group id hid with hpending | hdone
    · by_cases hgroup : group = groupOf process
      · subst hgroup
        by_cases hid' : id = messageId
        · exact .inr (hid' ▸ hsettled)
        · exact .inl (by simpa [hid'] using hpending)
      · exact .inl (by simpa [hgroup] using hpending)
    · exact .inr hdone

theorem Consistent.acknowledge (h : s.Consistent schemas groupOf) (process : ℕ) :
    (s.acknowledge groupOf process).Consistent schemas groupOf := by
  rw [BusState.acknowledge]
  split
  · next id hphase => exact h.acknowledged (by rw [hphase]; rfl) (by rw [hphase]; rfl) _
  · next id hphase => exact h.acknowledged (by rw [hphase]; rfl) (by rw [hphase]; rfl) _
  · next id hphase => exact h.acknowledged (by rw [hphase]; rfl) (by rw [hphase]; rfl) _
  · exact h

theorem Consistent.step (s : BusState) (action : BusAction) (h : s.Consistent schemas groupOf) :
    (s.step schemas groupOf action).Consistent schemas groupOf := by
  cases action with
  | publish fields => exact h.publish fields
  | reclaim process messageIds => exact h.reclaim process messageIds
  | read process batchSize => exact h.read process batchSize
  | decide process => exact h.decide process
  | handle process returns => exact h.handle process returns
  | commit process => exact h.commit process
  | acknowledge process => exact h.acknowledge process
  | crash process => exact h.stop process

theorem Consistent.run (h : s.Consistent schemas groupOf) (actions : List BusAction) :
    (s.run schemas groupOf actions).Consistent schemas groupOf :=
  foldl_invariant_of_forall Consistent.step h

/-! ### What is pending can be processed -/

theorem run_cons (action : BusAction) (actions : List BusAction) :
    s.run schemas groupOf (action :: actions) =
      (s.step schemas groupOf action).run schemas groupOf actions := rfl

theorem not_mem_pending_acknowledge {messageId : ℕ}
    (h : (s.processes process).phase.settles = some messageId) :
    messageId ∉ (s.acknowledge groupOf process).pending (groupOf process) := by
  have hdropped : ∀ counted, messageId ∉
      (s.acknowledged groupOf process messageId counted).pending (groupOf process) := by
    intro counted
    simp [BusState.acknowledged, BusState.setProcess]
  rw [BusState.acknowledge]
  cases hphase : (s.processes process).phase with
  | between => rw [hphase] at h; cases h
  | claimed id envelope => rw [hphase] at h; cases h
  | handled id envelope => rw [hphase] at h; cases h
  | deadLettered id =>
    rw [hphase] at h
    obtain rfl := Option.some.inj h
    exact hdropped _
  | decided id applied =>
    rw [hphase] at h
    obtain rfl := Option.some.inj h
    cases applied with
    | true => exact hdropped _
    | false => exact hdropped _

/-- The rest of the way, from deciding the message to acknowledging it. -/
def finishing (process : ℕ) : List BusAction :=
  [.decide process, .handle process true, .commit process, .acknowledge process]

/-- Handing a process the message and letting it finish removes the message from the pending list, unless
    another process is holding a claim of the same event open. -/
theorem not_mem_pending_of_finishing {messageId : ℕ} {rest : List ℕ} {fields : Dict String String}
    (hphase : (s.processes process).phase = .between)
    (hbatch : (s.processes process).batch = messageId :: rest)
    (hfields : s.messages[messageId]? = some fields)
    (hfree : ∀ envelope, s.Carries schemas messageId envelope →
      s.openClaims.get? (groupOf process, envelope.eventId) = none) :
    messageId ∉ (s.run schemas groupOf (finishing process)).pending (groupOf process) := by
  simp only [finishing, run_cons]
  refine not_mem_pending_acknowledge ?_
  simp only [step]
  rcases hdecode : schemas.decode fields with ⟨reason, detail⟩ | envelope
  · simp [BusState.decide, hphase, hbatch, hfields, hdecode, BusState.setProcess, BusState.handle,
      BusState.commit, Phase.settles]
  · have hopen := hfree envelope ⟨fields, hfields, hdecode⟩
    cases hprocessed : s.processedEvents.get? (groupOf process, envelope.eventId) with
    | some claimedBy =>
      simp [BusState.decide, hphase, hbatch, hfields, hdecode, hprocessed, BusState.setProcess,
        BusState.handle, BusState.commit, Phase.settles]
    | none =>
      simp [BusState.decide, hphase, hbatch, hfields, hdecode, hprocessed, hopen,
        BusState.setProcess, BusState.handle, BusState.commit, Phase.settles]

/-- A process that has just started and is handed a pending message. -/
theorem processes_reclaim {messageId : ℕ} (hprocess : s.processes process = .started)
    (hpending : messageId ∈ s.pending (groupOf process)) :
    s.reclaim groupOf process [messageId] =
      s.setProcess process ⟨true, [messageId], .between, ⟨0, 0, 0, 1⟩⟩ := by
  rw [BusState.reclaim, hprocess]
  simp [ConsumerProcess.started, hpending]

theorem stop_eq (groupOf : ℕ → String) (s : BusState) (process : ℕ) : ∃ claims : Dict (String × String) ℕ,
    s.stop groupOf process = ({ s with openClaims := claims } : BusState).setProcess process .started ∧
      (∀ key, claims.get? key = none ∨ claims.get? key = s.openClaims.get? key) ∧
      ∀ claim ∈ (s.processes process).phase.held,
        claims.get? (groupOf process, claim.2.eventId) = none := by
  rw [BusState.stop]
  cases hphase : (s.processes process).phase with
  | claimed id envelope =>
    refine ⟨_, rfl, fun key => ?_, fun claim hclaim => ?_⟩
    · rw [Dict.get?_erase]
      split
      · exact .inl rfl
      · exact .inr rfl
    · obtain rfl := Option.some.inj hclaim
      rw [Dict.get?_erase, if_pos rfl]
  | handled id envelope =>
    refine ⟨_, rfl, fun key => ?_, fun claim hclaim => ?_⟩
    · rw [Dict.get?_erase]
      split
      · exact .inl rfl
      · exact .inr rfl
    · obtain rfl := Option.some.inj hclaim
      rw [Dict.get?_erase, if_pos rfl]
  | between =>
    refine ⟨s.openClaims, rfl, fun _ => .inr rfl, ?_⟩
    intro claim hclaim
    cases hclaim
  | deadLettered id =>
    refine ⟨s.openClaims, rfl, fun _ => .inr rfl, ?_⟩
    intro claim hclaim
    cases hclaim
  | decided id applied =>
    refine ⟨s.openClaims, rfl, fun _ => .inr rfl, ?_⟩
    intro claim hclaim
    cases hclaim

end BusState

/-- The action is a consumer's, not a producer's. -/
def BusAction.isConsumer : BusAction → Bool
  | .publish _ => false
  | _ => true

namespace BusState

variable {schemas : EventSchemas} {groupOf : ℕ → String} {s : BusState}

theorem Carries.eventId_eq {messageId : ℕ} {a b : EventEnvelope} (ha : s.Carries schemas messageId a)
    (hb : s.Carries schemas messageId b) : a = b := by
  obtain ⟨fields, hfields, hdecode⟩ := ha
  obtain ⟨fields', hfields', hdecode'⟩ := hb
  obtain rfl := Option.some.inj (hfields.symm.trans hfields')
  exact Except.ok.inj (hdecode.symm.trans hdecode')

/-- A process that restarts, is handed a pending message and finishes it removes it from the list, unless
    another process is holding a claim of the same event open. -/
theorem Consistent.not_mem_pending_of_restart (h : s.Consistent schemas groupOf)
    {process messageId : ℕ} (hpending : messageId ∈ s.pending (groupOf process))
    (hfree : ∀ envelope other, s.Carries schemas messageId envelope →
      s.openClaims.get? (groupOf process, envelope.eventId) = some other → other = process) :
    messageId ∉ (s.run schemas groupOf
      (.crash process :: .reclaim process [messageId] :: finishing process)).pending
        (groupOf process) := by
  obtain ⟨fields, hfields⟩ : ∃ fields, s.messages[messageId]? = some fields :=
    ⟨_, List.getElem?_eq_getElem (h.tables.pending_lt _ messageId hpending)⟩
  obtain ⟨claims, hstop, hkept, hreleased⟩ := stop_eq groupOf s process
  have hstarted : (s.stop groupOf process).processes process = .started := by
    simp [hstop, BusState.setProcess]
  have hpending' : messageId ∈ (s.stop groupOf process).pending (groupOf process) := by
    simpa [hstop, BusState.setProcess] using hpending
  have hmessages : (s.stop groupOf process).messages[messageId]? = some fields := by
    simpa [hstop, BusState.setProcess] using hfields
  simp only [run_cons, BusState.step]
  rw [processes_reclaim hstarted hpending']
  have hbatch : (((s.stop groupOf process).setProcess process
      ⟨true, [messageId], .between, ⟨0, 0, 0, 1⟩⟩).processes process).batch = [messageId] := by
    simp [BusState.setProcess]
  refine not_mem_pending_of_finishing (by simp [BusState.setProcess]) hbatch hmessages ?_
  intro envelope hcarries
  have hcarries' : s.Carries schemas messageId envelope := by
    simpa [hstop, BusState.setProcess, BusState.Carries] using hcarries
  have hclaims : ((s.stop groupOf process).setProcess process
      ⟨true, [messageId], .between, ⟨0, 0, 0, 1⟩⟩).openClaims = claims := by
    rw [hstop]
    rfl
  rw [hclaims]
  rcases hkept (groupOf process, envelope.eventId) with hnone | hsame
  · exact hnone
  · rw [hsame]
    cases hopen : s.openClaims.get? (groupOf process, envelope.eventId) with
    | none => rfl
    | some other =>
      obtain rfl := hfree envelope other hcarries' hopen
      obtain ⟨claim, hclaim, hkey⟩ := h.holders _ _ hopen
      rw [← hopen, ← hsame, hkey]
      exact hreleased claim hclaim

/-- From any consistent state, and for any process of the group, there is a way on in which the pending
    message is processed and leaves the list. -/
theorem Consistent.exists_processed (h : s.Consistent schemas groupOf) (process messageId : ℕ)
    (hpending : messageId ∈ s.pending (groupOf process)) :
    ∃ actions : List BusAction, (∀ action ∈ actions, action.isConsumer) ∧
      messageId ∉ (s.run schemas groupOf actions).pending (groupOf process) := by
  -- another process holding the same event's claim is the one thing to wait for
  by_cases hblocked : ∃ envelope other, s.Carries schemas messageId envelope ∧
      s.openClaims.get? (groupOf process, envelope.eventId) = some other
  · obtain ⟨envelope, other, hcarries, hopen⟩ := hblocked
    obtain ⟨claim, hclaim, hkey⟩ := h.holders _ other hopen
    obtain ⟨claims, hstop, _, hreleased⟩ := stop_eq groupOf s other
    refine ⟨.crash other :: .crash process :: .reclaim process [messageId] :: finishing process,
      by simp [finishing, BusAction.isConsumer], ?_⟩
    rw [run_cons]
    refine (h.stop other).not_mem_pending_of_restart ?_ fun envelope' holder hcarries' hopen' => ?_
    · simpa [hstop, BusState.setProcess] using hpending
    · have hcarries'' : s.Carries schemas messageId envelope' := by
        simpa [hstop, BusState.setProcess, BusState.Carries] using hcarries'
      obtain rfl := hcarries''.eventId_eq hcarries
      rw [hstop] at hopen'
      have hnone := hreleased claim hclaim
      rw [← hkey] at hnone
      exact absurd (hopen'.symm.trans hnone) (by simp)
  · refine ⟨.crash process :: .reclaim process [messageId] :: finishing process,
      by simp [finishing, BusAction.isConsumer], h.not_mem_pending_of_restart hpending ?_⟩
    intro envelope other hcarries hopen
    exact absurd ⟨envelope, other, hcarries, hopen⟩ hblocked

end BusState

/-! ### Exactly once -/

/-- What every reachable state of the bus shows of an event and of a message. -/
structure AppliedOnce (schemas : EventSchemas) (groupOf : ℕ → String) (s : BusState) : Prop where
  once : s.effects.Nodup
  left : ∀ group messageId, messageId < s.lastDelivered group →
    messageId ∉ s.pending group → s.Settled schemas group messageId
  processable : ∀ process, ∀ messageId ∈ s.pending (groupOf process),
    ∃ actions : List BusAction, (∀ action ∈ actions, action.isConsumer) ∧
      messageId ∉ (s.run schemas groupOf actions).pending (groupOf process)

/-- Over any number of processes and groups, any interleaving of their steps with crashes, and any
    publications: each event's effect is committed at most once per group, a delivered message is pending
    or settled, and a pending one can still be processed. -/
theorem bus_applies_once (schemas : EventSchemas) (groupOf : ℕ → String) (actions : List BusAction) :
    AppliedOnce schemas groupOf (BusState.init.run schemas groupOf actions) := by
  have h := (BusState.consistent_init schemas groupOf).run actions
  refine ⟨?_, fun group messageId hdelivered hnot => ?_, fun process messageId hpending => ?_⟩
  · rw [h.tables.effects_eq]
    exact (BusState.init.run schemas groupOf actions).processedEvents.nodupKeys
  · exact (h.tables.delivered group messageId hdelivered).resolve_left hnot
  · exact h.exists_processed process messageId hpending

end FinanceKing.Platform
