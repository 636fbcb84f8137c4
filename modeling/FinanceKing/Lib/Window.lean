import Mathlib

/-! Rolling windows over a log. A limiter that checks, at each entry, what the log still holds of the
    window ending there bounds every window position, wherever it starts. -/

namespace Lib

variable {α β : Type} [LinearOrder β]

/-- The total weight of the entries a predicate selects. -/
def weightOf (weight : α → ℕ) (p : α → Prop) [DecidablePred p] (log : List α) : ℕ :=
  ((log.filter p).map weight).sum

section WeightOf

variable (weight : α → ℕ) (p q : α → Prop) [DecidablePred p] [DecidablePred q]

@[simp] theorem weightOf_nil : weightOf weight p [] = 0 := rfl

@[simp] theorem weightOf_append (l m : List α) :
    weightOf weight p (l ++ m) = weightOf weight p l + weightOf weight p m := by
  simp [weightOf]

theorem weightOf_singleton (a : α) : weightOf weight p [a] = if p a then weight a else 0 := by
  by_cases h : p a <;> simp [weightOf, h]

theorem weightOf_cons (a : α) (l : List α) :
    weightOf weight p (a :: l) = (if p a then weight a else 0) + weightOf weight p l := by
  rw [← List.singleton_append, weightOf_append, weightOf_singleton]

variable {weight p q}

/-- What selects less weighs no more. -/
theorem weightOf_mono {l : List α} (h : ∀ a ∈ l, p a → q a) :
    weightOf weight p l ≤ weightOf weight q l := by
  induction l with
  | nil => exact le_rfl
  | cons a l ih =>
    rw [weightOf_cons, weightOf_cons]
    refine add_le_add ?_ (ih fun b hb => h b (List.mem_cons_of_mem a hb))
    by_cases hp : p a
    · rw [if_pos hp, if_pos (h a List.mem_cons_self hp)]
    · rw [if_neg hp]
      exact Nat.zero_le _

/-- What selects only what one of two predicates selects weighs no more than both together. -/
theorem weightOf_le_add {r : α → Prop} [DecidablePred r] {l : List α}
    (h : ∀ a ∈ l, p a → q a ∨ r a) :
    weightOf weight p l ≤ weightOf weight q l + weightOf weight r l := by
  induction l with
  | nil => exact Nat.zero_le _
  | cons a l ih =>
    have hl := ih fun b hb => h b (List.mem_cons_of_mem a hb)
    have ha := h a List.mem_cons_self
    rw [weightOf_cons, weightOf_cons, weightOf_cons]
    by_cases hp : p a
    · rcases ha hp with hq | hr
      · rw [if_pos hp, if_pos hq]
        omega
      · rw [if_pos hp, if_pos hr]
        omega
    · rw [if_neg hp]
      omega

theorem weightOf_congr {l : List α} (h : ∀ a ∈ l, p a ↔ q a) :
    weightOf weight p l = weightOf weight q l :=
  le_antisymm (weightOf_mono fun a ha => (h a ha).mp) (weightOf_mono fun a ha => (h a ha).mpr)

theorem weightOf_eq_zero {l : List α} (h : ∀ a ∈ l, ¬p a) : weightOf weight p l = 0 := by
  rw [weightOf, List.filter_eq_nil_iff.mpr (by simpa using h)]
  rfl

theorem weightOf_map {γ : Type} (weight : α → ℕ) (p : α → Prop) [DecidablePred p] (f : γ → α)
    (l : List γ) :
    weightOf weight p (l.map f) = weightOf (fun c => weight (f c)) (fun c => p (f c)) l := by
  rw [weightOf, weightOf, List.filter_map, List.map_map]
  rfl

theorem weightOf_one (p : α → Prop) [DecidablePred p] (l : List α) :
    weightOf (fun _ => 1) p l = l.countP p := by
  rw [weightOf, List.map_const', List.sum_replicate, List.countP_eq_length_filter]
  simp

/-- Replacing an entry by one that weighs the same and is selected alike. -/
theorem weightOf_set {weight : α → ℕ} {p : α → Prop} [DecidablePred p] {a b : α}
    (hweight : weight b = weight a) (hp : p b ↔ p a) :
    ∀ {l : List α} {i : ℕ}, l[i]? = some a → weightOf weight p (l.set i b) = weightOf weight p l
  | [], _, h => by simp at h
  | c :: l, 0, h => by
    obtain rfl : c = a := by simpa using h
    rw [List.set_cons_zero, weightOf_cons, weightOf_cons, hweight, if_congr hp rfl rfl]
  | c :: l, i + 1, h => by
    have hl : l[i]? = some a := by simpa using h
    rw [List.set_cons_succ, weightOf_cons, weightOf_cons, weightOf_set hweight hp hl]

end WeightOf

section Windows

variable [AddCommGroup β]

/-- The weight of what the window ending at `now` holds. -/
def heldWeight (width : β) (start : α → β) (weight : α → ℕ) (now : β) (log : List α) : ℕ :=
  weightOf weight (fun a => now - width < start a) log

/-- Each entry, when it was checked, fitted the budget together with what its window held. -/
def CheckedWindows (width : β) (start finish : α → β) (weight : α → ℕ) (budget : ℕ) (log : List α) :
    Prop :=
  ∀ earlier e later, log = earlier ++ e :: later →
    heldWeight width start weight (finish e) earlier + weight e ≤ budget

variable {width : β} {start finish : α → β} {weight : α → ℕ} {budget : ℕ}

theorem checkedWindows_nil : CheckedWindows width start finish weight budget [] := by
  intro earlier e later h
  simp at h

theorem checkedWindows_concat {log : List α} {e : α}
    (h : CheckedWindows width start finish weight budget log)
    (he : heldWeight width start weight (finish e) log + weight e ≤ budget) :
    CheckedWindows width start finish weight budget (log ++ [e]) := by
  intro earlier e' later hsplit
  rcases List.eq_nil_or_concat' later with rfl | ⟨later', last, rfl⟩
  · obtain ⟨rfl, hlast⟩ := List.append_inj' hsplit rfl
    obtain rfl := List.singleton_inj.mp hlast
    exact he
  · rw [← List.cons_append, ← List.append_assoc] at hsplit
    obtain ⟨hlog, _⟩ := List.append_inj' hsplit rfl
    exact h earlier e' later' hlog

variable [IsOrderedAddMonoid β]

/-- Every window holds at most the budget of the entries that start and finish inside it. -/
theorem weightOf_window_le {log : List α} (h : CheckedWindows width start finish weight budget log)
    (t : β) : weightOf weight (fun a => t ≤ start a ∧ finish a < t + width) log ≤ budget := by
  induction log using List.reverseRecOn with
  | nil => exact Nat.zero_le _
  | append_singleton log e ih =>
    have hlog : CheckedWindows width start finish weight budget log := by
      intro earlier e' later hsplit
      exact h earlier e' (later ++ [e]) (by rw [hsplit]; simp)
    rw [weightOf_append, weightOf_singleton]
    by_cases hin : t ≤ start e ∧ finish e < t + width
    · rw [if_pos hin]
      -- what else the window holds was still held when the last entry was checked
      have hheld : weightOf weight (fun a => t ≤ start a ∧ finish a < t + width) log ≤
          heldWeight width start weight (finish e) log :=
        weightOf_mono fun a _ ha => (sub_lt_iff_lt_add.mpr hin.2).trans_le ha.1
      exact (Nat.add_le_add_right hheld _).trans (h log e [] rfl)
    · rw [if_neg hin, Nat.add_zero]
      exact ih hlog

end Windows

/-! ### Logs that drop what has expired -/

section Kept

/-- What is kept of a log once entries have been dropped from its front, each at or under the floor. -/
def KeptLog (key : α → β) (floor : β) (log kept : List α) : Prop :=
  ∃ dropped, log = dropped ++ kept ∧ ∀ a ∈ dropped, key a ≤ floor

variable {key : α → β} {floor floor' : β} {log kept : List α}

theorem keptLog_refl (key : α → β) (floor : β) (log : List α) : KeptLog key floor log log :=
  ⟨[], rfl, by simp⟩

theorem KeptLog.mono (h : KeptLog key floor log kept) (hle : floor ≤ floor') :
    KeptLog key floor' log kept := by
  obtain ⟨dropped, rfl, hdropped⟩ := h
  exact ⟨dropped, rfl, fun a ha => (hdropped a ha).trans hle⟩

/-- Dropping what a later floor has passed. -/
theorem KeptLog.expire (h : KeptLog key floor log kept) (hle : floor ≤ floor') :
    KeptLog key floor' log (kept.dropWhile fun a => key a ≤ floor') := by
  obtain ⟨dropped, rfl, hdropped⟩ := h
  refine ⟨dropped ++ kept.takeWhile fun a => key a ≤ floor', ?_, fun a ha => ?_⟩
  · rw [List.append_assoc, List.takeWhile_append_dropWhile]
  · rcases List.mem_append.mp ha with ha | ha
    · exact (hdropped a ha).trans hle
    · simpa using List.mem_takeWhile_imp ha

theorem KeptLog.append (h : KeptLog key floor log kept) (entries : List α) :
    KeptLog key floor (log ++ entries) (kept ++ entries) := by
  obtain ⟨dropped, rfl, hdropped⟩ := h
  exact ⟨dropped, List.append_assoc _ _ _, hdropped⟩

/-- Whatever is above the floor is still kept. -/
theorem KeptLog.weightOf_le (h : KeptLog key floor log kept) (weight : α → ℕ) (p : α → Prop)
    [DecidablePred p] :
    weightOf weight (fun a => p a ∧ floor < key a) log ≤ weightOf weight p kept := by
  obtain ⟨dropped, rfl, hdropped⟩ := h
  have hnone : weightOf weight (fun a => p a ∧ floor < key a) dropped = 0 :=
    weightOf_eq_zero fun a ha hin => not_lt.mpr (hdropped a ha) hin.2
  rw [weightOf_append, hnone, Nat.zero_add]
  exact weightOf_mono fun a _ hin => hin.1

/-- What the window ending now holds is still kept, so it weighs no more than what is. -/
theorem KeptLog.heldWeight_le {γ : Type} [AddCommGroup β] {f : γ → α} {entries : List γ}
    {width now : β} (h : KeptLog key (now - width) (entries.map f) kept) (weight : α → ℕ) :
    heldWeight width (fun c => key (f c)) (fun c => weight (f c)) now entries ≤
      (kept.map weight).sum := by
  have hkept := h.weightOf_le weight fun _ => True
  rw [weightOf_map] at hkept
  have hall : weightOf weight (fun _ => True) kept = (kept.map weight).sum := by simp [weightOf]
  rw [← hall]
  exact (weightOf_mono fun a _ hin => ⟨trivial, hin⟩).trans hkept

end Kept

end Lib
