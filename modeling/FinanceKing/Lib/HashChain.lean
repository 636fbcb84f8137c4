import Mathlib

/-! Hash-linked lists: each record carries the hash of the record before it, the first one the hash the
    list starts at. -/

namespace Lib

variable {R H : Type} (prev hash : R → H)

/-- Each record links back to the hash before it, the first one to `start`. -/
def Linked : H → List R → Prop
  | _, [] => True
  | start, r :: l => prev r = start ∧ Linked (hash r) l

/-- The hash the next record of the list must link back to. -/
def endHash (start : H) (l : List R) : H := l.foldl (fun _ r => hash r) start

@[simp] theorem endHash_nil (start : H) : endHash hash start [] = start := rfl

@[simp] theorem endHash_cons (start : H) (r : R) (l : List R) :
    endHash hash start (r :: l) = endHash hash (hash r) l := rfl

theorem endHash_append (start : H) (l m : List R) :
    endHash hash start (l ++ m) = endHash hash (endHash hash start l) m := List.foldl_append

@[simp] theorem endHash_concat (start : H) (l : List R) (r : R) :
    endHash hash start (l ++ [r]) = hash r := by
  rw [endHash_append]
  rfl

theorem endHash_of_getLast? {start : H} {l : List R} {r : R} (h : l.getLast? = some r) :
    endHash hash start l = hash r := by
  obtain ⟨m, rfl⟩ := List.getLast?_eq_some_iff.mp h
  exact endHash_concat hash start m r

theorem linked_append {start : H} {l m : List R} :
    Linked prev hash start (l ++ m) ↔
      Linked prev hash start l ∧ Linked prev hash (endHash hash start l) m := by
  induction l generalizing start with
  | nil => simp [Linked]
  | cons r l ih =>
    rw [List.cons_append, Linked, Linked, ih, endHash_cons, and_assoc]

theorem linked_concat {start : H} {l : List R} {r : R} :
    Linked prev hash start (l ++ [r]) ↔
      Linked prev hash start l ∧ prev r = endHash hash start l := by
  rw [linked_append]
  exact and_congr_right fun _ => and_iff_left trivial

theorem linked_map {R' : Type} (f : R' → R) {start : H} {l : List R'} :
    Linked prev hash start (l.map f) ↔ Linked (fun r => prev (f r)) (fun r => hash (f r)) start l := by
  induction l generalizing start with
  | nil => rfl
  | cons r l ih => rw [List.map_cons, Linked, Linked, ih]

theorem endHash_map {R' : Type} (f : R' → R) (start : H) (l : List R') :
    endHash hash start (l.map f) = endHash (fun r => hash (f r)) start l := List.foldl_map

/-! ### Chains whose hashes never repeat -/

/-- No hash comes round again along the list, the starting one included. -/
def FreshHashes (start : H) (l : List R) : Prop := (start :: l.map hash).Nodup

variable {prev hash}

/-- Each record of a linked list carries the hash the records before it end at. -/
theorem Linked.prev_getElem {start : H} {l : List R} (h : Linked prev hash start l) {i : ℕ}
    (hi : i < l.length) : prev l[i] = endHash hash start (l.take i) := by
  have hsplit : l = l.take i ++ l[i] :: l.drop (i + 1) := by
    rw [List.cons_getElem_drop_succ, List.take_append_drop]
  rw [hsplit, linked_append] at h
  exact h.2.1

/-- Records that carry the same hashes end at the same one. -/
theorem endHash_congr {S : R → R → Prop} (hhash : ∀ t o, S t o → hash t = hash o) {start : H}
    {k l : List R} (h : List.Forall₂ S k l) : endHash hash start k = endHash hash start l := by
  induction h generalizing start with
  | nil => rfl
  | cons hto _ ih => rw [endHash_cons, endHash_cons, hhash _ _ hto, ih]

/-- Records that carry the same two hashes are linked alike. -/
theorem linked_congr {S : R → R → Prop} (hprev : ∀ t o, S t o → prev t = prev o)
    (hhash : ∀ t o, S t o → hash t = hash o) {start : H} {k l : List R} (h : List.Forall₂ S k l) :
    Linked prev hash start k ↔ Linked prev hash start l := by
  induction h generalizing start with
  | nil => rfl
  | cons hto _ ih => rw [Linked, Linked, hprev _ _ hto, hhash _ _ hto, ih]

theorem endHash_take {start : H} {l : List R} {n : ℕ} (hn : n ≤ l.length) :
    (start :: l.map hash)[n]? = some (endHash hash start (l.take n)) := by
  induction l generalizing start n with
  | nil =>
    obtain rfl : n = 0 := Nat.le_zero.mp hn
    rfl
  | cons r l ih =>
    cases n with
    | zero => rfl
    | succ n =>
      rw [List.map_cons, List.getElem?_cons_succ, List.take_succ_cons, endHash_cons]
      exact ih (Nat.le_of_succ_le_succ hn)

/-- No two records of such a list link back to one hash. -/
theorem FreshHashes.nodup_prev {start : H} {l : List R} (h : FreshHashes hash start l)
    (hl : Linked prev hash start l) : (l.map prev).Nodup := by
  have hprev : ∀ {start : H} {l : List R}, Linked prev hash start l →
      (l.map prev).Sublist (start :: l.map hash) := by
    intro start l hl
    induction l generalizing start with
    | nil => exact List.nil_sublist _
    | cons r l ih =>
      rw [List.map_cons, List.map_cons, hl.1]
      exact (ih hl.2).cons_cons start
  exact (hprev hl).nodup h

/-- Two initial parts of such a list that end at one hash are the same part. -/
theorem FreshHashes.take_inj {start : H} {l : List R} (h : FreshHashes hash start l) {m n : ℕ}
    (hm : m ≤ l.length) (hn : n ≤ l.length)
    (heq : endHash hash start (l.take m) = endHash hash start (l.take n)) : m = n := by
  have hlt : m < (start :: l.map hash).length := by simpa using Nat.lt_succ_of_le hm
  refine (List.getElem?_inj hlt h).mp ?_
  rw [endHash_take hm, endHash_take hn, heq]

/-- A linked list whose records each match one of a fresh chain, going on from where the chain's first
    `n` records end, matches the chain's next records one by one. -/
theorem Linked.forall₂_of_match {S : R → R → Prop} (hprev : ∀ t o, S t o → prev t = prev o)
    (hhash : ∀ t o, S t o → hash t = hash o) {start : H} {l : List R} (hl : Linked prev hash start l)
    (hfresh : FreshHashes hash start l) {k : List R} {n : ℕ} (hn : n ≤ l.length)
    (hk : Linked prev hash (endHash hash start (l.take n)) k) (hmatch : ∀ t ∈ k, ∃ o ∈ l, S t o) :
    List.Forall₂ S k ((l.drop n).take k.length) := by
  induction k generalizing n with
  | nil => exact .nil
  | cons t k ih =>
    obtain ⟨o, ho, hto⟩ := hmatch t List.mem_cons_self
    -- The matched record sits where the hash before it is the one `t` links back to.
    obtain ⟨i, hi, rfl⟩ := List.mem_iff_getElem.mp ho
    obtain rfl : n = i := by
      refine hfresh.take_inj hn hi.le ?_
      rw [← hl.prev_getElem hi, ← hprev t _ hto, hk.1]
    have hnext : endHash hash start (l.take (n + 1)) = hash t := by
      rw [List.take_succ_eq_append_getElem hi, endHash_concat, hhash t _ hto]
    have hrest := ih (n := n + 1) hi (hnext ▸ hk.2) fun t ht => hmatch t (List.mem_cons_of_mem _ ht)
    rw [← List.cons_getElem_drop_succ (h := hi), List.length_cons, List.take_succ_cons]
    exact .cons hto hrest

end Lib
