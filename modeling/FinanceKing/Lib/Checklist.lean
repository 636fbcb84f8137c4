import Mathlib

/-! A checklist run in order. Each check gives an outcome, and the first that blocks stops the list; a check may
    fail outright instead, which ends the run with no list at all. The state a check runs in records the calls made,
    each under the item that made it. -/

namespace Lib

variable {ε σ α β : Type}

/-! ### Computations that return -/

/-- The computation returns from this state. -/
def Returns (x : EStateM ε σ α) (s : σ) : Prop := ∃ a s', x s = .ok a s'

/-- The computation returns from every state. -/
def Total (x : EStateM ε σ α) : Prop := ∀ s, Returns x s

theorem bind_eq_ok_iff {x : EStateM ε σ α} {f : α → EStateM ε σ β} {s s'' : σ} {b : β} :
    (x >>= f) s = .ok b s'' ↔ ∃ a s', x s = .ok a s' ∧ f a s' = .ok b s'' := by
  change EStateM.bind x f s = _ ↔ _
  rw [EStateM.bind]
  cases x s with
  | ok a s' => simp
  | error e s' => simp

theorem pure_eq_ok_iff {a b : α} {s s' : σ} : (pure a : EStateM ε σ α) s = .ok b s' ↔ a = b ∧ s = s' := by
  change EStateM.Result.ok a s = .ok b s' ↔ _
  simp

theorem returns_bind {x : EStateM ε σ α} {f : α → EStateM ε σ β} {s : σ} :
    Returns (x >>= f) s ↔ ∃ a s', x s = .ok a s' ∧ Returns (f a) s' := by
  simp only [Returns, bind_eq_ok_iff]
  constructor
  · rintro ⟨b, s'', a, s', hx, hf⟩
    exact ⟨a, s', hx, b, s'', hf⟩
  · rintro ⟨a, s', hx, b, s'', hf⟩
    exact ⟨b, s'', a, s', hx, hf⟩

theorem returns_bind_of_ok {x : EStateM ε σ α} {f : α → EStateM ε σ β} {s s' : σ} {a : α} (h : x s = .ok a s') :
    Returns (x >>= f) s ↔ Returns (f a) s' := by
  rw [returns_bind]
  constructor
  · rintro ⟨b, s'', hrun, hf⟩
    obtain ⟨rfl, rfl⟩ := EStateM.Result.ok.inj (h.symm.trans hrun)
    exact hf
  · intro hf
    exact ⟨a, s', h, hf⟩

theorem total_pure (a : α) : Total (pure a : EStateM ε σ α) := fun s => ⟨a, s, rfl⟩

theorem Total.bind {x : EStateM ε σ α} {f : α → EStateM ε σ β} (hx : Total x) (hf : ∀ a, Total (f a)) :
    Total (x >>= f) := by
  intro s
  obtain ⟨a, s', ha⟩ := hx s
  exact returns_bind.mpr ⟨a, s', ha, hf a s'⟩

/-- What is total behind a computation does not decide whether it returns. -/
theorem returns_bind_total {x : EStateM ε σ α} {f : α → EStateM ε σ β} (hf : ∀ a, Total (f a)) {s : σ} :
    Returns (x >>= f) s ↔ Returns x s := by
  rw [returns_bind]
  constructor
  · rintro ⟨a, s', hx, _⟩
    exact ⟨a, s', hx⟩
  · rintro ⟨a, s', hx⟩
    exact ⟨a, s', hx, hf a s'⟩

/-! ### What a computation keeps -/

/-- Wherever it returns, the states before and after are so related. -/
def Keeps (R : σ → σ → Prop) (x : EStateM ε σ α) : Prop := ∀ s a s', x s = .ok a s' → R s s'

/-- Wherever it returns, its value is such. -/
def Yields (P : α → Prop) (x : EStateM ε σ α) : Prop := ∀ s a s', x s = .ok a s' → P a

section Kept

variable {R : σ → σ → Prop} {x : EStateM ε σ α} {f : α → EStateM ε σ β}

theorem keeps_pure (hrefl : ∀ s, R s s) (a : α) : Keeps R (pure a : EStateM ε σ α) := by
  intro s b s' h
  obtain ⟨_, rfl⟩ := pure_eq_ok_iff.mp h
  exact hrefl s

theorem Keeps.bind (htrans : ∀ {s s' s''}, R s s' → R s' s'' → R s s'') (hx : Keeps R x)
    (hf : ∀ a, Keeps R (f a)) : Keeps R (x >>= f) := by
  intro s b s'' h
  obtain ⟨a, s', ha, hb⟩ := bind_eq_ok_iff.mp h
  exact htrans (hx s a s' ha) (hf a s' b s'' hb)

theorem yields_pure {P : α → Prop} {a : α} (h : P a) : Yields P (pure a : EStateM ε σ α) := by
  intro s b s' hrun
  obtain ⟨rfl, _⟩ := pure_eq_ok_iff.mp hrun
  exact h

theorem Yields.bind {P : β → Prop} (hf : ∀ a, Yields P (f a)) : Yields P (x >>= f) := by
  intro s b s'' h
  obtain ⟨a, s', _, hb⟩ := bind_eq_ok_iff.mp h
  exact hf a s' b s'' hb

end Kept

/-! ### The list -/

section Checklist

variable {ω ι : Type} (blocking : ω → Bool)

/-- Whether the last outcome stops the list. -/
def stopped (outcomes : List ω) : Bool := outcomes.getLast?.any blocking

/-- The rest of the list, or nothing more of it once it is stopped. -/
def unlessStopped (outcomes : List ω) (step : EStateM ε σ (List ω)) : EStateM ε σ (List ω) :=
  if stopped blocking outcomes then pure outcomes else step

/-- One more check. -/
def next (check : EStateM ε σ ω) (outcomes : List ω) : EStateM ε σ (List ω) :=
  unlessStopped blocking outcomes do
    let outcome ← check
    return outcomes ++ [outcome]

variable {blocking}

theorem stopped_concat (outcomes : List ω) (outcome : ω) :
    stopped blocking (outcomes ++ [outcome]) = blocking outcome := by
  rw [stopped, List.getLast?_concat]
  rfl

theorem stopped_singleton (outcome : ω) : stopped blocking [outcome] = blocking outcome := rfl

theorem Total.unlessStopped {outcomes : List ω} {step : EStateM ε σ (List ω)} (h : Total step) :
    Total (unlessStopped blocking outcomes step) := by
  rw [Lib.unlessStopped]
  split
  · exact total_pure outcomes
  · exact h

theorem Total.next {check : EStateM ε σ ω} (h : Total check) (outcomes : List ω) :
    Total (next blocking check outcomes) := (h.bind fun _ => total_pure _).unlessStopped

/-- A list that is stopped takes no further check. -/
theorem unlessStopped_of_stopped {outcomes : List ω} {step : EStateM ε σ (List ω)}
    (h : stopped blocking outcomes = true) : unlessStopped blocking outcomes step = pure outcomes := if_pos h

theorem unlessStopped_of_open {outcomes : List ω} {step : EStateM ε σ (List ω)}
    (h : stopped blocking outcomes = false) : unlessStopped blocking outcomes step = step := if_neg (by simp [h])

end Checklist

/-! ### Whether a run returns -/

section Judged

variable {ω : Type} {blocking : ω → Bool} {returns passes : Prop} {check : EStateM ε σ ω}

/-- A check judged by two conditions: it returns under the first, and lets the list go on under the second. -/
structure Judges (blocking : ω → Bool) (returns passes : Prop) (check : EStateM ε σ ω) : Prop where
  returns : ∀ s, Returns check s ↔ returns
  passes : ∀ s outcome s', check s = .ok outcome s' → (blocking outcome = false ↔ passes)

theorem judges_pure (outcome : ω) :
    Judges blocking True (blocking outcome = false) (pure outcome : EStateM ε σ ω) := by
  refine ⟨fun s => iff_of_true (total_pure outcome s) trivial, fun s other s' h => ?_⟩
  obtain ⟨rfl, _⟩ := pure_eq_ok_iff.mp h
  exact Iff.rfl

/-- A list that goes on with a check returns when the check does, and what is behind it does if it passes. -/
theorem Judges.next_bind (h : Judges blocking returns passes check) {f : List ω → EStateM ε σ β} {behind : Prop}
    (hf : ∀ outcomes s, Returns (f outcomes) s ↔ (stopped blocking outcomes = false → behind))
    (outcomes : List ω) (s : σ) :
    Returns (next blocking check outcomes >>= f) s ↔
      (stopped blocking outcomes = false → returns ∧ (passes → behind)) := by
  cases hopen : stopped blocking outcomes with
  | true =>
    rw [next, unlessStopped_of_stopped hopen, pure_bind, hf, hopen]
    simp
  | false =>
    rw [next, unlessStopped_of_open hopen, bind_assoc, returns_bind, ← h.returns s]
    simp only [pure_bind, hf, stopped_concat, forall_const]
    constructor
    · rintro ⟨outcome, s', hcheck, hbehind⟩
      exact ⟨⟨outcome, s', hcheck⟩, fun hpasses => hbehind ((h.passes s outcome s' hcheck).mpr hpasses)⟩
    · rintro ⟨⟨outcome, s', hcheck⟩, hbehind⟩
      exact ⟨outcome, s', hcheck, fun hopen => hbehind ((h.passes s outcome s' hcheck).mp hopen)⟩

/-- The last check of a list. -/
theorem Judges.next (h : Judges blocking returns passes check) (outcomes : List ω) (s : σ) :
    Returns (next blocking check outcomes) s ↔ (stopped blocking outcomes = false → returns) := by
  have hpure : ∀ (outcomes : List ω) (s : σ), Returns (pure outcomes : EStateM ε σ (List ω)) s ↔
      (stopped blocking outcomes = false → True) :=
    fun outcomes s => iff_of_true (total_pure outcomes s) fun _ => trivial
  have hlast := h.next_bind hpure outcomes s
  simpa using hlast

end Judged

/-! ### How far a run came -/

section Followed

variable {ω ι : Type}

/-- What a list is followed by: the items in order, the item of each outcome, which outcomes block, the item each
    recorded call was made under, what every outcome must satisfy, and what every check must keep. -/
structure Checklist (ω ι σ : Type) where
  order : List ι
  label : ω → ι
  blocking : ω → Bool
  made : σ → List ι
  sound : ω → Prop
  kept : σ → Prop

/-- The list after the first `count` items: the outcomes are theirs in order, all of them unless the last one
    blocks, and every call was made under an item that has an outcome. -/
structure Progress (list : Checklist ω ι σ) (count : ℕ) (outcomes : List ω) (s : σ) : Prop where
  started : outcomes ≠ []
  ordered : outcomes.map list.label <+: list.order.take count
  complete : stopped list.blocking outcomes = false → outcomes.length = count
  onlyLast : ∀ outcome ∈ outcomes.dropLast, list.blocking outcome = false
  calls : ∀ item ∈ list.made s, item ∈ outcomes.map list.label
  sound : ∀ outcome ∈ outcomes, list.sound outcome
  kept : list.kept s

/-- The calls made in between are this item's, and what must be kept is. -/
structure MadeUnder (list : Checklist ω ι σ) (item : ι) (s s' : σ) : Prop where
  calls : ∀ call ∈ list.made s', call ∈ list.made s ∨ call = item
  kept : list.kept s → list.kept s'

/-- A check of an item gives a sound outcome of the item and makes its calls alone. -/
structure Checks (list : Checklist ω ι σ) (item : ι) (check : EStateM ε σ ω) : Prop where
  outcome : Yields (fun outcome => list.label outcome = item ∧ list.sound outcome) check
  under : Keeps (MadeUnder list item) check

variable {list : Checklist ω ι σ} {count : ℕ} {outcomes : List ω} {item : ι} {s s' : σ}

theorem MadeUnder.refl (s : σ) : MadeUnder list item s s := ⟨fun _ => .inl, id⟩

theorem MadeUnder.trans {s'' : σ} (h : MadeUnder list item s s') (h' : MadeUnder list item s' s'') :
    MadeUnder list item s s'' :=
  ⟨fun call hcall => (h'.calls call hcall).elim (h.calls call) .inr, h'.kept ∘ h.kept⟩

theorem checks_pure {outcome : ω} (hlabel : list.label outcome = item) (hsound : list.sound outcome) :
    Checks list item (pure outcome : EStateM ε σ ω) :=
  ⟨yields_pure ⟨hlabel, hsound⟩, keeps_pure MadeUnder.refl outcome⟩

/-- A first outcome. -/
theorem progress_one {outcome : ω} (hitem : list.order[0]? = some (list.label outcome))
    (hcalls : ∀ item ∈ list.made s, item = list.label outcome) (hsound : list.sound outcome) (hkept : list.kept s) :
    Progress list 1 [outcome] s where
  started := List.cons_ne_nil _ _
  ordered := by
    rw [List.take_add_one, hitem]
    exact List.prefix_refl _
  complete := fun _ => rfl
  onlyLast := fun _ h => by cases h
  calls := fun item h => by rw [hcalls item h]; exact List.mem_singleton_self _
  sound := fun other h => by rwa [List.mem_singleton.mp h]
  kept := hkept

/-- Once stopped, the list stays as it is however many items it had left. -/
theorem Progress.mono (h : Progress list count outcomes s) (hstopped : stopped list.blocking outcomes = true)
    {later : ℕ} (hle : count ≤ later) : Progress list later outcomes s where
  started := h.started
  ordered := h.ordered.trans (List.take_prefix_take_left hle)
  complete := fun hopen => absurd (hstopped.symm.trans hopen) (by decide)
  onlyLast := h.onlyLast
  calls := h.calls
  sound := h.sound
  kept := h.kept

/-- One more outcome is one more item. -/
theorem Progress.append (h : Progress list count outcomes s) (hopen : stopped list.blocking outcomes = false)
    (hitem : list.order[count]? = some item) {outcome : ω} (hlabel : list.label outcome = item)
    (hsound : list.sound outcome) (hunder : MadeUnder list item s s') :
    Progress list (count + 1) (outcomes ++ [outcome]) s' := by
  have hlength := h.complete hopen
  have hbound : count < list.order.length := (List.getElem?_eq_some_iff.mp hitem).1
  have hmap : outcomes.map list.label = list.order.take count := by
    refine h.ordered.eq_of_length ?_
    rw [List.length_map, hlength, List.length_take, min_eq_left hbound.le]
  refine ⟨by simp, ?_, fun _ => by simp [hlength], ?_, ?_, ?_, hunder.kept h.kept⟩
  · rw [List.map_append, hmap, List.map_singleton, hlabel, List.take_add_one, hitem]
    exact List.prefix_refl _
  · rw [List.dropLast_concat]
    intro earlier hearlier
    rcases List.eq_nil_or_concat outcomes with hnil | ⟨before, last, rfl⟩
    · exact absurd hnil h.started
    · rw [List.concat_eq_append] at hearlier hopen
      rcases List.mem_append.mp hearlier with hmem | hmem
      · exact h.onlyLast earlier (by rwa [List.concat_eq_append, List.dropLast_concat])
      · rw [stopped_concat] at hopen
        rw [List.mem_singleton.mp hmem]
        exact hopen
  · intro call hcall
    rw [List.map_append, List.mem_append]
    rcases hunder.calls call hcall with hearlier | rfl
    · exact .inl (h.calls call hearlier)
    · exact .inr (by simp [hlabel])
  · intro other hother
    rcases List.mem_append.mp hother with hold | hnew
    · exact h.sound other hold
    · rwa [List.mem_singleton.mp hnew]

/-- One more check is one more item. -/
theorem Progress.next {check : EStateM ε σ ω} (hitem : list.order[count]? = some item)
    (hchecks : Checks list item check) (h : Progress list count outcomes s) {outcomes' : List ω}
    (hrun : next list.blocking check outcomes s = .ok outcomes' s') : Progress list (count + 1) outcomes' s' := by
  rw [Lib.next, unlessStopped] at hrun
  split at hrun
  · next hstopped =>
    obtain ⟨rfl, rfl⟩ := pure_eq_ok_iff.mp hrun
    exact h.mono hstopped (Nat.le_succ count)
  · next hopen =>
    obtain ⟨outcome, s₁, hcheck, hreturn⟩ := bind_eq_ok_iff.mp hrun
    obtain ⟨rfl, rfl⟩ := pure_eq_ok_iff.mp hreturn
    rw [Bool.not_eq_true] at hopen
    obtain ⟨hlabel, hsound⟩ := hchecks.outcome s outcome s₁ hcheck
    exact h.append hopen hitem hlabel hsound (hchecks.under s outcome s₁ hcheck)

/-- A list that ran to its end without a block has every item. -/
theorem Progress.all (h : Progress list list.order.length outcomes s)
    (hnone : ∀ outcome ∈ outcomes, list.blocking outcome = false) : outcomes.map list.label = list.order := by
  have hopen : stopped list.blocking outcomes = false := by
    rw [stopped, Option.any_eq_false]
    exact fun outcome hlast => hnone outcome (List.mem_of_getLast? hlast)
  have hprefix := h.ordered
  rw [List.take_length] at hprefix
  exact hprefix.eq_of_length (by rw [List.length_map, h.complete hopen])

end Followed

end Lib
