import FinanceKing.Domain.Guards

/-! Calls that may raise, read from their results: which step of a sequence raised, and what a comprehension
    over such calls returned element by element. -/

namespace FinanceKing

theorem bind_eq_error {α β : Type} {x : PyResult α} {f : α → PyResult β} {e : PyError}
    (h : (x >>= f) = .error e) : x = .error e ∨ ∃ a, x = .ok a ∧ f a = .error e := by
  cases x with
  | error other =>
    injection h with h
    exact .inl (h ▸ rfl)
  | ok a => exact .inr ⟨a, rfl, h⟩

theorem raiseIf_error {refused : Prop} [Decidable refused] {kind : ErrorKind} {message : Message}
    {e : PyError} (h : raiseIf refused kind message = .error e) : e.kind = kind := by
  rw [raiseIf] at h
  split at h
  · injection h with h
    rw [← h]
  · cases h

/-- A comprehension over the same elements in another order returns the same results in that order. -/
theorem mapM_perm {α β : Type} {f : α → PyResult β} {l₁ l₂ : List α} (h : l₁.Perm l₂) :
    ∀ {bs : List β}, l₁.mapM f = .ok bs → ∃ cs, l₂.mapM f = .ok cs ∧ bs.Perm cs := by
  induction h with
  | nil => exact fun hbs => ⟨_, hbs, List.Perm.refl _⟩
  | cons a _ ih =>
    intro bs hbs
    simp only [List.mapM_cons, bind_eq_ok] at hbs
    obtain ⟨b, hb, rest, hrest, hreturn⟩ := hbs
    obtain ⟨cs, hcs, hperm⟩ := ih hrest
    injection hreturn with hreturn
    refine ⟨b :: cs, ?_, hreturn ▸ hperm.cons b⟩
    simp only [List.mapM_cons, bind_eq_ok]
    exact ⟨b, hb, cs, hcs, rfl⟩
  | swap a a' l =>
    intro bs hbs
    simp only [List.mapM_cons, bind_eq_ok] at hbs
    obtain ⟨b, hb, _, ⟨b', hb', rest, hrest, hinner⟩, hreturn⟩ := hbs
    injection hinner with hinner
    injection hreturn with hreturn
    refine ⟨b' :: b :: rest, ?_, ?_⟩
    · simp only [List.mapM_cons, bind_eq_ok]
      exact ⟨b', hb', _, ⟨b, hb, rest, hrest, rfl⟩, rfl⟩
    · rw [← hreturn, ← hinner]
      exact List.Perm.swap b' b rest
  | trans _ _ ih₁ ih₂ =>
    intro bs hbs
    obtain ⟨cs, hcs, hperm⟩ := ih₁ hbs
    obtain ⟨ds, hds, hperm'⟩ := ih₂ hcs
    exact ⟨ds, hds, hperm.trans hperm'⟩

theorem mapM_eq_ok_iff {α β : Type} {f : α → PyResult β} : ∀ {l : List α} {bs : List β},
    l.mapM f = .ok bs ↔ List.Forall₂ (fun a b => f a = .ok b) l bs
  | [], bs => by
    rw [List.mapM_nil, List.forall₂_nil_left_iff, pure_eq_ok]
    exact eq_comm
  | a :: l, bs => by
    simp only [List.mapM_cons, bind_eq_ok, pure_eq_ok, List.forall₂_cons_left_iff, mapM_eq_ok_iff]
    constructor
    · rintro ⟨b, hb, rest, hrest, rfl⟩
      exact ⟨b, rest, hb, hrest, rfl⟩
    · rintro ⟨b, rest, hb, hrest, rfl⟩
      exact ⟨b, hb, rest, hrest, rfl⟩

/-- A comprehension raises what one of its elements does. -/
theorem mapM_error {α β : Type} {f : α → PyResult β} {e : PyError} : ∀ {l : List α},
    l.mapM f = .error e → ∃ a ∈ l, f a = .error e
  | [], h => by cases h
  | a :: l, h => by
    rw [List.mapM_cons] at h
    rcases bind_eq_error h with ha | ⟨b, _, hrest⟩
    · exact ⟨a, List.mem_cons_self, ha⟩
    · rcases bind_eq_error hrest with hl | ⟨_, _, hreturn⟩
      · obtain ⟨a', ha', herror⟩ := mapM_error hl
        exact ⟨a', List.mem_cons_of_mem _ ha', herror⟩
      · cases hreturn

/-- What a loop raises, one of its steps did. -/
theorem foldlM_error {σ α : Type} {step : σ → α → PyResult σ} {e : PyError} : ∀ {l : List α} {state : σ},
    l.foldlM step state = .error e → ∃ state, ∃ a ∈ l, step state a = .error e
  | [], _, h => by cases h
  | a :: l, state, h => by
    rw [List.foldlM_cons] at h
    rcases bind_eq_error h with hstep | ⟨next, _, hrest⟩
    · exact ⟨state, a, List.mem_cons_self, hstep⟩
    · obtain ⟨later, b, hb, hstep⟩ := foldlM_error hrest
      exact ⟨later, b, List.mem_cons_of_mem a hb, hstep⟩

theorem forM_error {α : Type} {check : α → PyResult Unit} {e : PyError} : ∀ {l : List α},
    l.forM check = .error e → ∃ a ∈ l, check a = .error e
  | [], h => by cases h
  | a :: l, h => by
    rcases bind_eq_error h with hcheck | ⟨_, _, hrest⟩
    · exact ⟨a, List.mem_cons_self, hcheck⟩
    · obtain ⟨b, hb, hcheck⟩ := forM_error hrest
      exact ⟨b, List.mem_cons_of_mem a hb, hcheck⟩

/-! ### Lists related element by element -/

section Related

variable {α β : Type} {R : α → β → Prop} {as : List α} {bs : List β}

theorem exists_left_of_forall₂ (h : List.Forall₂ R as bs) {b : β} (hb : b ∈ bs) : ∃ a ∈ as, R a b := by
  induction h with
  | nil => cases hb
  | cons hR _ ih =>
    rcases List.mem_cons.mp hb with rfl | hb
    · exact ⟨_, List.mem_cons_self, hR⟩
    · obtain ⟨a, ha, hRa⟩ := ih hb
      exact ⟨a, List.mem_cons_of_mem _ ha, hRa⟩

theorem exists_right_of_forall₂ (h : List.Forall₂ R as bs) {a : α} (ha : a ∈ as) : ∃ b ∈ bs, R a b :=
  exists_left_of_forall₂ h.flip ha

end Related

end FinanceKing
