import Mathlib

/-! Average linkage: clusters are joined nearest first, by the mean distance between their members, until the
    nearest two are too far apart. Where no two means met are equal the result is unique, and it commutes with
    renaming the points. -/

namespace Lib

variable {α K : Type} [DecidableEq α] [Field K]

/-- The mean of the distances between the members of two clusters. -/
def meanDistance (d : α → α → K) (A B : Finset α) : K := (∑ a ∈ A, ∑ b ∈ B, d a b) / (A.card * B.card)

omit [DecidableEq α] in
theorem meanDistance_singleton (d : α → α → K) (a b : α) : meanDistance d {a} {b} = d a b := by
  simp [meanDistance]

omit [DecidableEq α] in
theorem meanDistance_comm {d : α → α → K} {A B : Finset α} (h : ∀ a ∈ A, ∀ b ∈ B, d a b = d b a) :
    meanDistance d A B = meanDistance d B A := by
  rw [meanDistance, meanDistance, mul_comm, Finset.sum_comm]
  congr 1
  exact Finset.sum_congr rfl fun b hb => Finset.sum_congr rfl fun a ha => h a ha b hb

/-- The distance from a joined cluster is the mean of its parts' distances, weighed by their sizes. -/
theorem meanDistance_union [CharZero K] (d : α → α → K) {A B : Finset α} (hdisjoint : Disjoint A B)
    (hA : A.Nonempty) (hB : B.Nonempty) (C : Finset α) : meanDistance d (A ∪ B) C =
      (A.card * meanDistance d A C + B.card * meanDistance d B C) / (A.card + B.card) := by
  have hcardA : (A.card : K) ≠ 0 := Nat.cast_ne_zero.mpr hA.card_pos.ne'
  have hcardB : (B.card : K) ≠ 0 := Nat.cast_ne_zero.mpr hB.card_pos.ne'
  have hpart : ∀ (size total : K), size ≠ 0 → size * (total / (size * C.card)) = total / C.card := by
    intro size total hsize
    rw [mul_div_assoc', mul_div_mul_left _ _ hsize]
  rw [meanDistance, meanDistance, meanDistance, Finset.sum_union hdisjoint, Finset.card_union_of_disjoint hdisjoint,
    hpart _ _ hcardA, hpart _ _ hcardB, ← add_div, div_div, Nat.cast_add, mul_comm (C.card : K)]

section

variable [LinearOrder K] {d : α → α → K} {cut : K} {P Q : Finset (Finset α)}

/-- Two clusters at the least mean distance, within the cut, become one. -/
def Joins (d : α → α → K) (cut : K) (P Q : Finset (Finset α)) : Prop :=
  ∃ A ∈ P, ∃ B ∈ P, A ≠ B ∧
    (∀ C ∈ P, ∀ D ∈ P, C ≠ D → meanDistance d A B ≤ meanDistance d C D) ∧
    meanDistance d A B ≤ cut ∧ Q = insert (A ∪ B) ((P.erase A).erase B)

/-- Every two clusters are further apart than the cut. -/
def Separated (d : α → α → K) (cut : K) (P : Finset (Finset α)) : Prop :=
  ∀ A ∈ P, ∀ B ∈ P, A ≠ B → cut < meanDistance d A B

/-- No two pairs of clusters are at the same mean distance. -/
def DistinctMeans (d : α → α → K) (P : Finset (Finset α)) : Prop :=
  ∀ A ∈ P, ∀ B ∈ P, ∀ C ∈ P, ∀ D ∈ P, A ≠ B → C ≠ D → meanDistance d A B = meanDistance d C D →
    (A = C ∧ B = D) ∨ (A = D ∧ B = C)

theorem Joins.not_separated (h : Joins d cut P Q) : ¬ Separated d cut P := by
  obtain ⟨A, hA, B, hB, hne, _, hcut, _⟩ := h
  exact fun hseparated => (hseparated A hA B hB hne).not_ge hcut

/-- Where the means are distinct only one pair can be joined. -/
theorem Joins.unique {Q' : Finset (Finset α)} (hdistinct : DistinctMeans d P) (h : Joins d cut P Q)
    (h' : Joins d cut P Q') : Q = Q' := by
  obtain ⟨A, hA, B, hB, hne, hleast, _, rfl⟩ := h
  obtain ⟨C, hC, D, hD, hne', hleast', _, rfl⟩ := h'
  have hsame := le_antisymm (hleast C hC D hD hne') (hleast' A hA B hB hne)
  rcases hdistinct A hA B hB C hC D hD hne hne' hsame with ⟨rfl, rfl⟩ | ⟨rfl, rfl⟩
  · rfl
  · rw [Finset.union_comm, Finset.erase_right_comm]

/-! ### Renaming -/

section

variable {β : Type} [DecidableEq β] {f : α → β} {d' : β → β → K} {points : Finset α}

omit [DecidableEq α] [LinearOrder K] in
theorem meanDistance_image (hf : f.Injective) (hd : ∀ a ∈ points, ∀ b ∈ points, d' (f a) (f b) = d a b)
    {A B : Finset α} (hA : A ⊆ points) (hB : B ⊆ points) :
    meanDistance d' (A.image f) (B.image f) = meanDistance d A B := by
  rw [meanDistance, meanDistance, Finset.card_image_of_injective _ hf, Finset.card_image_of_injective _ hf,
    Finset.sum_image hf.injOn]
  congr 1
  refine Finset.sum_congr rfl fun a ha => ?_
  rw [Finset.sum_image hf.injOn]
  exact Finset.sum_congr rfl fun b hb => hd a (hA ha) b (hB hb)

/-- The clusters, renamed. -/
def renameClusters (f : α → β) (P : Finset (Finset α)) : Finset (Finset β) := P.image (Finset.image f)

theorem Joins.subset (h : Joins d cut P Q) (hP : ∀ A ∈ P, A ⊆ points) : ∀ A ∈ Q, A ⊆ points := by
  obtain ⟨A, hA, B, hB, _, _, _, rfl⟩ := h
  intro C hC
  rcases Finset.mem_insert.mp hC with rfl | hkept
  · exact Finset.union_subset (hP A hA) (hP B hB)
  · exact hP C (Finset.mem_of_mem_erase (Finset.mem_of_mem_erase hkept))

/-- A join of renamed points is the renamed join. -/
theorem Joins.rename (hf : f.Injective) (hd : ∀ a ∈ points, ∀ b ∈ points, d' (f a) (f b) = d a b)
    (hP : ∀ A ∈ P, A ⊆ points) (h : Joins d cut P Q) : Joins d' cut (renameClusters f P) (renameClusters f Q) := by
  obtain ⟨A, hA, B, hB, hne, hleast, hcut, rfl⟩ := h
  have himage := Finset.image_injective hf
  have hmean : ∀ C ∈ P, ∀ D ∈ P, meanDistance d' (C.image f) (D.image f) = meanDistance d C D :=
    fun C hC D hD => meanDistance_image hf hd (hP C hC) (hP D hD)
  refine ⟨A.image f, Finset.mem_image_of_mem _ hA, B.image f, Finset.mem_image_of_mem _ hB, himage.ne hne, ?_, ?_, ?_⟩
  · intro C' hC' D' hD' hdiffer
    obtain ⟨C, hC, rfl⟩ := Finset.mem_image.mp hC'
    obtain ⟨D, hD, rfl⟩ := Finset.mem_image.mp hD'
    rw [hmean A hA B hB, hmean C hC D hD]
    exact hleast C hC D hD fun hsame => hdiffer (congrArg _ hsame)
  · rw [hmean A hA B hB]
    exact hcut
  · rw [renameClusters, renameClusters, Finset.image_insert, Finset.image_union, Finset.image_erase himage,
      Finset.image_erase himage]

omit [DecidableEq α] in
theorem Separated.rename (hf : f.Injective) (hd : ∀ a ∈ points, ∀ b ∈ points, d' (f a) (f b) = d a b)
    (hP : ∀ A ∈ P, A ⊆ points) (h : Separated d cut P) : Separated d' cut (renameClusters f P) := by
  intro A' hA' B' hB' hdiffer
  obtain ⟨A, hA, rfl⟩ := Finset.mem_image.mp hA'
  obtain ⟨B, hB, rfl⟩ := Finset.mem_image.mp hB'
  rw [meanDistance_image hf hd (hP A hA) (hP B hB)]
  exact h A hA B hB fun hsame => hdiffer (congrArg _ hsame)

omit [DecidableEq α] [LinearOrder K] in
theorem DistinctMeans.rename (hf : f.Injective) (hd : ∀ a ∈ points, ∀ b ∈ points, d' (f a) (f b) = d a b)
    (hP : ∀ A ∈ P, A ⊆ points) (h : DistinctMeans d P) : DistinctMeans d' (renameClusters f P) := by
  intro A' hA' B' hB' C' hC' D' hD' hne hne' hsame
  obtain ⟨A, hA, rfl⟩ := Finset.mem_image.mp hA'
  obtain ⟨B, hB, rfl⟩ := Finset.mem_image.mp hB'
  obtain ⟨C, hC, rfl⟩ := Finset.mem_image.mp hC'
  obtain ⟨D, hD, rfl⟩ := Finset.mem_image.mp hD'
  rw [meanDistance_image hf hd (hP A hA) (hP B hB), meanDistance_image hf hd (hP C hC) (hP D hD)] at hsame
  rcases h A hA B hB C hC D hD (fun heq => hne (congrArg _ heq)) (fun heq => hne' (congrArg _ heq)) hsame with
    ⟨rfl, rfl⟩ | ⟨rfl, rfl⟩
  · exact .inl ⟨rfl, rfl⟩
  · exact .inr ⟨rfl, rfl⟩

/-- Where all means met are distinct, every way of joining the renamed points ends on the renamed clusters. -/
theorem joined_rename {Q' : Finset (Finset β)} (hf : f.Injective)
    (hd : ∀ a ∈ points, ∀ b ∈ points, d' (f a) (f b) = d a b) (h : Relation.ReflTransGen (Joins d cut) P Q)
    (hP : ∀ A ∈ P, A ⊆ points)
    (hdistinct : ∀ R, Relation.ReflTransGen (Joins d cut) P R → DistinctMeans d R) (hQ : Separated d cut Q)
    (h' : Relation.ReflTransGen (Joins d' cut) (renameClusters f P) Q') (hQ' : Separated d' cut Q') :
    Q' = renameClusters f Q := by
  induction h using Relation.ReflTransGen.head_induction_on with
  | refl =>
    rcases Relation.ReflTransGen.cases_head h' with rfl | ⟨R, hR, _⟩
    · rfl
    · exact absurd (hQ.rename hf hd hP) hR.not_separated
  | @head P R hstep _ ih =>
    have hrenamed := hstep.rename hf hd hP
    rcases Relation.ReflTransGen.cases_head h' with rfl | ⟨R', hR', hrest⟩
    · exact absurd hQ' hrenamed.not_separated
    · obtain rfl := hrenamed.unique ((hdistinct P .refl).rename hf hd hP) hR'
      exact ih (hstep.subset hP) (fun S hS => hdistinct S (.head hstep hS)) hrest

end

end

end Lib
