import Mathlib

/-! Series computed by walking a list in time order, one optional output at each element from what stands
    before it. Such a walk never looks ahead; and when an output is read off a window and the newest
    element before it, it depends on nothing else. -/

namespace Lib

variable {α β : Type}

/-- The outputs of a walk: at each element, what `emit` makes of the elements before it and of itself. -/
def emitFrom (emit : List α → α → Option β) : List α → List α → List β
  | _, [] => []
  | before, a :: rest => (emit before a).toList ++ emitFrom emit (before ++ [a]) rest

theorem mem_emitFrom {emit : List α → α → Option β} {b : β} : ∀ {before l : List α},
    b ∈ emitFrom emit before l ↔
      ∃ passed a rest, l = passed ++ a :: rest ∧ emit (before ++ passed) a = some b
  | before, [] => by simp [emitFrom]
  | before, a :: l => by
    rw [emitFrom, List.mem_append, Option.mem_toList, mem_emitFrom]
    constructor
    · rintro (hhead | ⟨passed, a', rest, hl, hemit⟩)
      · exact ⟨[], a, l, rfl, by rw [List.append_nil]; exact hhead⟩
      · refine ⟨a :: passed, a', rest, by rw [hl, List.cons_append], ?_⟩
        rw [List.append_assoc] at hemit
        exact hemit
    · rintro ⟨passed, a', rest, hl, hemit⟩
      cases passed with
      | nil =>
        obtain ⟨rfl, _⟩ := List.cons.inj hl
        rw [List.append_nil] at hemit
        exact .inl hemit
      | cons first passed =>
        obtain ⟨rfl, htail⟩ := List.cons.inj hl
        exact .inr ⟨passed, a', rest, htail, by rw [List.append_assoc]; exact hemit⟩

section Time

variable {time : α → ℤ}

/-- A list in strictly increasing order of time. -/
def InOrder (time : α → ℤ) (l : List α) : Prop := l.Pairwise fun a b => time a < time b

/-- No output looks ahead: those up to an instant are those of the list cut there. -/
theorem filter_emitFrom {emit : List α → α → Option β} {stamp : β → ℤ}
    (hstamp : ∀ before a b, emit before a = some b → stamp b = time a) (t : ℤ) :
    ∀ {l : List α}, InOrder time l → ∀ before,
      (emitFrom emit before l).filter (fun b => stamp b ≤ t) =
        emitFrom emit before (l.filter fun a => time a ≤ t)
  | [], _, _ => rfl
  | a :: l, hordered, before => by
    obtain ⟨hhead, htail⟩ := List.pairwise_cons.mp hordered
    have hrest := filter_emitFrom hstamp t htail (before ++ [a])
    by_cases hat : time a ≤ t
    · have hkept : ((emit before a).toList).filter (fun b => stamp b ≤ t) = (emit before a).toList := by
        rw [List.filter_eq_self]
        intro b hb
        rw [hstamp before a b (Option.mem_toList.mp hb)]
        exact decide_eq_true hat
      rw [List.filter_cons_of_pos (by simpa using hat), emitFrom, emitFrom, List.filter_append, hkept, hrest]
    · have hlater : ∀ c ∈ a :: l, ¬ time c ≤ t := by
        intro c hc
        rcases List.mem_cons.mp hc with rfl | hc
        · exact hat
        · exact fun hct => hat ((hhead c hc).le.trans hct)
      have hcut : ((a :: l).filter fun c => time c ≤ t) = [] := by
        rw [List.filter_eq_nil_iff]
        exact fun c hc => by simpa using hlater c hc
      rw [hcut, emitFrom, List.filter_eq_nil_iff]
      intro b hb
      obtain ⟨passed, c, rest, hl, hemit⟩ := mem_emitFrom.mp hb
      have hc : c ∈ a :: l := hl ▸ List.mem_append_right _ List.mem_cons_self
      rw [hstamp _ c b hemit]
      simpa using hlater c hc

/-! ### A walk back -/

/-- Walking back while elements lie after an instant leaves those at or before it. -/
theorem rdropWhile_eq_filter (start : ℤ) {l : List α} (h : InOrder time l) :
    l.rdropWhile (fun a => start < time a) = l.filter fun a => time a ≤ start := by
  induction l using List.reverseRecOn with
  | nil => rfl
  | append_singleton l a ih =>
    obtain ⟨hl, _, hlast⟩ := List.pairwise_append.mp h
    by_cases ha : start < time a
    · rw [List.rdropWhile_concat_pos _ _ _ (by simpa using ha), ih hl, List.filter_append]
      simp [ha]
    · rw [List.rdropWhile_concat_neg _ _ _ (by simpa using ha)]
      symm
      rw [List.filter_eq_self]
      intro b hb
      rcases List.mem_append.mp hb with hb | hb
      · exact decide_eq_true ((hlast b hb a (List.mem_singleton_self a)).le.trans (not_lt.mp ha))
      · rw [List.mem_singleton.mp hb]
        exact decide_eq_true (not_lt.mp ha)

/-- What it walks over are the elements after the instant. -/
theorem rtakeWhile_eq_filter (start : ℤ) {l : List α} (h : InOrder time l) :
    l.rtakeWhile (fun a => start < time a) = l.filter fun a => start < time a := by
  induction l using List.reverseRecOn with
  | nil => rfl
  | append_singleton l a ih =>
    obtain ⟨hl, _, hlast⟩ := List.pairwise_append.mp h
    by_cases ha : start < time a
    · rw [List.rtakeWhile_concat_pos _ _ _ (by simpa using ha), ih hl, List.filter_append]
      simp [ha]
    · rw [List.rtakeWhile_concat_neg _ _ _ (by simpa using ha)]
      symm
      rw [List.filter_eq_nil_iff]
      intro b hb
      rw [decide_eq_true_eq, not_lt]
      rcases List.mem_append.mp hb with hb | hb
      · exact (hlast b hb a (List.mem_singleton_self a)).le.trans (not_lt.mp ha)
      · rw [List.mem_singleton.mp hb]
        exact not_lt.mp ha

/-- The search backwards for an element at or before an instant finds where the walk back stops. -/
theorem find?_reverse_eq (start : ℤ) (l : List α) :
    l.reverse.find? (fun a => time a ≤ start) = (l.rdropWhile fun a => start < time a).getLast? := by
  rw [List.find?_eq_head?_dropWhile_not, List.rdropWhile, List.getLast?_reverse]
  have hlater : (fun a => !decide (time a ≤ start)) = fun a => decide (start < time a) := by
    funext a
    by_cases h : time a ≤ start
    · simp [h]
    · simp [h, not_le.mp h]
  rw [hlater]

/-! ### Windows -/

/-- The elements of `(t - lookback, t]`. -/
def windowAt (time : α → ℤ) (lookback : ℤ) (l : List α) (t : ℤ) : List α :=
  l.filter fun a => t - lookback < time a ∧ time a ≤ t

/-- The newest element at or before the start of the window. -/
def baseAt (time : α → ℤ) (lookback : ℤ) (l : List α) (t : ℤ) : Option α :=
  (l.filter fun a => time a ≤ t - lookback).getLast?

/-- What an element's window gives, once an element stands at or before its start: a kernel of that element
    and of the window, which the walk back has delimited. -/
def windowed (time : α → ℤ) (lookback : ℤ) (kernel : α → List α → α → Option β) (before : List α) (a : α) :
    Option β :=
  (before.rdropWhile fun b => time a - lookback < time b).getLast?.bind fun base =>
    kernel base ((before.rtakeWhile fun b => time a - lookback < time b) ++ [a]) a

/-- Cutting an ordered list at one of its elements. -/
theorem filter_at {passed rest : List α} {a : α} (h : InOrder time (passed ++ a :: rest)) :
    (∀ b ∈ passed, time b < time a) ∧ (∀ b ∈ rest, time a < time b) ∧ InOrder time passed := by
  obtain ⟨hpassed, hrest, hacross⟩ := List.pairwise_append.mp h
  exact ⟨fun b hb => hacross b hb a List.mem_cons_self, (List.pairwise_cons.mp hrest).1, hpassed⟩

/-- The output at an element is a function of its window and of the newest element before it. -/
theorem windowed_eq {lookback : ℤ} (hlookback : 0 < lookback) (kernel : α → List α → α → Option β)
    {passed rest : List α} {a : α} (h : InOrder time (passed ++ a :: rest)) :
    windowed time lookback kernel passed a =
      (baseAt time lookback (passed ++ a :: rest) (time a)).bind fun base =>
        kernel base (windowAt time lookback (passed ++ a :: rest) (time a)) a := by
  obtain ⟨hbefore, hafter, hpassed⟩ := filter_at h
  have hbase : passed.filter (fun b => time b ≤ time a - lookback) =
      (passed ++ a :: rest).filter fun b => time b ≤ time a - lookback := by
    have hnone : (a :: rest).filter (fun b => time b ≤ time a - lookback) = [] := by
      rw [List.filter_eq_nil_iff]
      intro b hb
      have hb' : time a ≤ time b := by
        rcases List.mem_cons.mp hb with rfl | hb
        · exact le_rfl
        · exact (hafter b hb).le
      rw [decide_eq_true_eq]
      omega
    rw [List.filter_append, hnone, List.append_nil]
  have hwindow : passed.filter (fun b => time a - lookback < time b) ++ [a] =
      windowAt time lookback (passed ++ a :: rest) (time a) := by
    have hpast : passed.filter (fun b => time a - lookback < time b ∧ time b ≤ time a) =
        passed.filter fun b => time a - lookback < time b := by
      refine List.filter_congr fun b hb => ?_
      rw [decide_eq_decide]
      exact and_iff_left (hbefore b hb).le
    have hfuture : rest.filter (fun b => time a - lookback < time b ∧ time b ≤ time a) = [] := by
      rw [List.filter_eq_nil_iff]
      intro b hb
      have hb' := hafter b hb
      rw [decide_eq_true_eq]
      omega
    rw [windowAt, List.filter_append, hpast, List.filter_cons_of_pos (by simpa using hlookback), hfuture]
  rw [windowed, rdropWhile_eq_filter _ hpassed, rtakeWhile_eq_filter _ hpassed, hbase, hwindow, baseAt]

/-- Two ordered lists that agree on a window and on the newest element before it give one output there. -/
theorem windowed_congr {lookback : ℤ} (hlookback : 0 < lookback) (kernel : α → List α → α → Option β)
    {passed rest passed' rest' : List α} {a a' : α} (h : InOrder time (passed ++ a :: rest))
    (h' : InOrder time (passed' ++ a' :: rest')) (htime : time a = time a')
    (hwindow : windowAt time lookback (passed ++ a :: rest) (time a) =
      windowAt time lookback (passed' ++ a' :: rest') (time a))
    (hbase : baseAt time lookback (passed ++ a :: rest) (time a) =
      baseAt time lookback (passed' ++ a' :: rest') (time a)) :
    windowed time lookback kernel passed a = windowed time lookback kernel passed' a' := by
  have hmem : a ∈ windowAt time lookback (passed' ++ a' :: rest') (time a) := by
    rw [← hwindow, windowAt, List.mem_filter]
    exact ⟨List.mem_append_right _ List.mem_cons_self, by simpa using hlookback⟩
  have hsame : a = a' := by
    obtain ⟨hbefore, hafter, _⟩ := filter_at h'
    rcases List.mem_append.mp (List.mem_filter.mp hmem).1 with hpast | hmem
    · exact absurd htime (hbefore a hpast).ne
    · rcases List.mem_cons.mp hmem with hequal | hfuture
      · exact hequal
      · exact absurd htime (hafter a hfuture).ne'
  rw [windowed_eq hlookback kernel h, windowed_eq hlookback kernel h', hwindow, hbase, htime, hsame]

end Time

end Lib
