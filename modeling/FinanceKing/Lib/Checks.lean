import Mathlib.Logic.Basic
import Mathlib.Tactic.ByContra

/-! Computations that fail in two ways: with a failure their caller counts, or with one that escapes it. What
    such a computation returns, and when it escapes, is stated of its steps and composed. -/

namespace Lib

variable {ε α β : Type} {escapes : ε → Prop}

/-- A computation returns exactly what is read where nothing stops it, and a failure escapes it exactly where
    something does; every other failure is counted. -/
structure Reads (escapes : ε → Prop) (result : Except ε α) (reads : α → Prop) (stops : Prop) : Prop where
  ok_iff : ∀ a, result = .ok a ↔ reads a ∧ ¬ stops
  escapes_iff : (∃ e, result = .error e ∧ escapes e) ↔ stops

namespace Reads

variable {result : Except ε α} {next : α → Except ε β} {reads reads' : α → Prop} {stops stops' : Prop}

theorem congr (h : Reads escapes result reads stops) (hreads : ∀ a, reads a ↔ reads' a)
    (hstops : stops ↔ stops') : Reads escapes result reads' stops' where
  ok_iff a := by rw [h.ok_iff, hreads, hstops]
  escapes_iff := h.escapes_iff.trans hstops

theorem pure (a : α) : Reads escapes (.ok a) (fun b => b = a) False where
  ok_iff b := by simp [eq_comm]
  escapes_iff := by simp

/-- A failure that is counted. -/
theorem counted {e : ε} (h : ¬ escapes e) : Reads escapes (.error e : Except ε α) (fun _ => False) False where
  ok_iff _ := by simp
  escapes_iff := by simpa using h

/-- A failure that escapes. -/
theorem escaped {e : ε} (h : escapes e) : Reads escapes (.error e : Except ε α) reads True where
  ok_iff _ := by simp
  escapes_iff := by simpa using h

/-- Two values read of one computation are the value it returned. -/
theorem unique (h : Reads escapes result reads stops) (hstops : ¬ stops) {a b : α} (ha : reads a)
    (hb : reads b) : a = b :=
  Except.ok.inj (((h.ok_iff a).mpr ⟨ha, hstops⟩).symm.trans ((h.ok_iff b).mpr ⟨hb, hstops⟩))

theorem eq_of_ok (h : Reads escapes result reads stops) {a b : α} (ha : result = .ok a) (hb : reads b) :
    a = b :=
  have hread := (h.ok_iff a).mp ha
  h.unique hread.2 hread.1 hb

/-- Nothing is read of a computation that failed with a counted failure. -/
theorem not_reads (h : Reads escapes result reads stops) {e : ε} (he : result = .error e)
    (hcounted : ¬ escapes e) (a : α) : ¬ reads a := by
  intro ha
  by_cases hstops : stops
  · obtain ⟨e', he', hescapes⟩ := h.escapes_iff.mpr hstops
    rw [he] at he'
    exact hcounted (Except.error.inj he' ▸ hescapes)
  · have hok := (h.ok_iff a).mpr ⟨ha, hstops⟩
    rw [he] at hok
    cases hok

/-- A sequence reads what its second step reads behind its first, and is stopped by either. -/
theorem bind {reads₂ : α → β → Prop} {stops₂ : α → Prop} (h : Reads escapes result reads stops)
    (hnext : ∀ a, Reads escapes (next a) (reads₂ a) (stops₂ a)) :
    Reads escapes (result >>= next) (fun b => ∃ a, reads a ∧ reads₂ a b)
      (stops ∨ ∃ a, reads a ∧ stops₂ a) := by
  cases hresult : result with
  | error e =>
    have hnone : ∀ a, ¬(reads a ∧ ¬ stops) := fun a ha => by
      have hok := (h.ok_iff a).mpr ha
      rw [hresult] at hok
      cases hok
    have hescapes : escapes e ↔ stops := by simpa [hresult] using h.escapes_iff
    refine ⟨fun b => ?_, ?_⟩
    · refine iff_of_false (by simp [Bind.bind, Except.bind]) ?_
      rintro ⟨⟨a, ha, _⟩, hrest⟩
      exact hnone a ⟨ha, fun hstops => hrest (.inl hstops)⟩
    · have herror : (∃ e', (Except.error e >>= next) = .error e' ∧ escapes e') ↔ escapes e := by
        simp [Bind.bind, Except.bind]
      rw [herror, hescapes]
      constructor
      · exact .inl
      · rintro (hstops | ⟨a, ha, _⟩)
        · exact hstops
        · by_contra hstops
          exact hnone a ⟨ha, hstops⟩
  | ok a =>
    obtain ⟨ha, hstops⟩ := (h.ok_iff a).mp hresult
    have hbind : (Except.ok a >>= next) = next a := rfl
    refine ⟨fun b => ?_, ?_⟩
    · rw [hbind, (hnext a).ok_iff]
      constructor
      · rintro ⟨hb, hrest⟩
        refine ⟨⟨a, ha, hb⟩, ?_⟩
        rintro (hstopped | ⟨a', ha', hrest'⟩)
        · exact hstops hstopped
        · exact hrest (h.unique hstops ha' ha ▸ hrest')
      · rintro ⟨⟨a', ha', hb⟩, hrest⟩
        obtain rfl := h.unique hstops ha' ha
        exact ⟨hb, fun hstopped => hrest (.inr ⟨a', ha, hstopped⟩)⟩
    · rw [hbind, (hnext a).escapes_iff]
      constructor
      · exact fun hstopped => .inr ⟨a, ha, hstopped⟩
      · rintro (hstopped | ⟨a', ha', hstopped⟩)
        · exact absurd hstopped hstops
        · exact h.unique hstops ha' ha ▸ hstopped

end Reads

end Lib

/-! Checks made one after another. A computation that runs through a list of labelled checks returns only where
    all of them pass, and fails under the label of the first that does not. -/

namespace Lib

variable {ρ ε α β : Type}

/-- The label of the first check that fails. -/
inductive FirstFailing : List (ρ × Prop) → ρ → Prop
  | here {label : ρ} {check : Prop} {rest : List (ρ × Prop)} (h : ¬ check) :
      FirstFailing ((label, check) :: rest) label
  | later {label other : ρ} {check : Prop} {rest : List (ρ × Prop)} (h : check)
      (hrest : FirstFailing rest other) : FirstFailing ((label, check) :: rest) other

def AllPass (checks : List (ρ × Prop)) : Prop := ∀ c ∈ checks, c.2

theorem FirstFailing.unique {checks : List (ρ × Prop)} {a b : ρ} (ha : FirstFailing checks a)
    (hb : FirstFailing checks b) : a = b := by
  induction ha with
  | here h =>
    cases hb with
    | here _ => rfl
    | later hpass _ => exact absurd hpass h
  | later h _ ih =>
    cases hb with
    | here hfail => exact absurd h hfail
    | later _ hrest => exact ih hrest

theorem FirstFailing.not_allPass {checks : List (ρ × Prop)} {a : ρ} (h : FirstFailing checks a) :
    ¬ AllPass checks := by
  induction h with
  | here h => exact fun hall => h (hall _ List.mem_cons_self)
  | later _ _ ih => exact fun hall => ih fun c hc => hall c (List.mem_cons_of_mem _ hc)

theorem FirstFailing.append_left {checks : List (ρ × Prop)} {a : ρ} (h : FirstFailing checks a)
    (rest : List (ρ × Prop)) : FirstFailing (checks ++ rest) a := by
  induction h with
  | here h => exact .here h
  | later h _ ih => exact .later h ih

theorem FirstFailing.append_right {checks rest : List (ρ × Prop)} {a : ρ} (hall : AllPass checks)
    (h : FirstFailing rest a) : FirstFailing (checks ++ rest) a := by
  induction checks with
  | nil => exact h
  | cons c checks ih =>
    exact .later (hall c List.mem_cons_self) (ih fun d hd => hall d (List.mem_cons_of_mem _ hd))

/-- A computation that makes these checks in this order; `label` says which failures are a check's. -/
structure Makes (label : ε → Option ρ) (result : Except ε α) (checks : List (ρ × Prop)) : Prop where
  passes : ∀ a, result = .ok a → AllPass checks
  fails : ∀ e r, result = .error e → label e = some r → FirstFailing checks r

namespace Makes

variable {label : ε → Option ρ} {result : Except ε α} {next : α → Except ε β}

theorem pure (a : α) : Makes label (.ok a : Except ε α) [] :=
  ⟨fun _ _ _ hc => absurd hc List.not_mem_nil, fun _ _ he _ => absurd he (by simp)⟩

/-- Checks behind a computation are made with what it returned at hand. -/
theorem bind {checks rest : List (ρ × Prop)} (h : Makes label result checks)
    (hnext : ∀ a, result = .ok a → Makes label (next a) rest) :
    Makes label (result >>= next) (checks ++ rest) := by
  cases hresult : result with
  | error e =>
    have hbind : (Except.error e >>= next) = .error e := rfl
    rw [hbind]
    refine ⟨fun _ hok => ?_, fun e' r he hr => ?_⟩
    · cases hok
    · obtain rfl := Except.error.inj he
      exact (h.fails _ r hresult hr).append_left rest
  | ok a =>
    have hbind : (Except.ok a >>= next) = next a := rfl
    have hall := h.passes a hresult
    rw [hbind]
    refine ⟨fun b hb c hc => ?_, fun e r he hr => ?_⟩
    · rcases List.mem_append.mp hc with hc | hc
      · exact hall c hc
      · exact (hnext a hresult).passes b hb c hc
    · exact .append_right hall ((hnext a hresult).fails e r he hr)

end Makes

end Lib
