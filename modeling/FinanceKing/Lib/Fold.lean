import FinanceKing.Lib.Dict

/-! Folds over event sequences: what one event preserves, a whole sequence preserves; a fold over a
    keyed state that touches one key an event reads, at each key, only that key's events; and the
    first delivery of each identity in a sequence that may repeat them. -/

namespace Lib

section Keyed

variable {κ ν ε : Type} [DecidableEq κ]

/-- A fold whose every step rewrites the one key its event touches is, at each key, the fold of
    that key's own events. -/
theorem Dict.get?_foldl (step : Dict κ ν → ε → Dict κ ν) (touches : ε → κ)
    (slot : Option ν → ε → Option ν)
    (hself : ∀ d e, (step d e).get? (touches e) = slot (d.get? (touches e)) e)
    (hother : ∀ d e k, k ≠ touches e → (step d e).get? k = d.get? k) (k : κ) :
    ∀ (es : List ε) (d : Dict κ ν),
      (es.foldl step d).get? k = (es.filter (fun e => touches e = k)).foldl slot (d.get? k)
  | [], d => rfl
  | e :: es, d => by
    rw [List.foldl_cons, Dict.get?_foldl step touches slot hself hother k es, List.filter_cons]
    by_cases hk : touches e = k
    · subst hk
      rw [hself]
      simp
    · rw [hother d e k (fun h => hk h.symm)]
      simp [hk]

/-- Folding assignments under distinct keys leaves each key its own value. -/
theorem Dict.get?_foldl_set (key : ε → κ) (value : ε → ν) {es : List ε}
    (hnodup : (es.map key).Nodup) {e : ε} (he : e ∈ es) :
    (es.foldl (fun d e => d.set (key e) (value e)) Dict.empty).get? (key e) = some (value e) := by
  induction es using List.reverseRecOn with
  | nil => cases he
  | append_singleton es last ih =>
    rw [List.map_append] at hnodup
    rw [List.foldl_append, List.foldl_cons, List.foldl_nil, Dict.get?_set]
    rcases List.mem_append.mp he with hold | hnew
    · have hne : key e ≠ key last := fun heq =>
        List.disjoint_of_nodup_append hnodup (List.mem_map_of_mem hold) (by simp [heq])
      rw [if_neg hne, ih hnodup.of_append_left hold]
    · rw [if_pos (by rw [List.mem_singleton.mp hnew]), List.mem_singleton.mp hnew]

end Keyed

/-! ### Lists whose elements carry a key -/

section Keys

variable {κ β γ : Type} [DecidableEq κ]

/-- What keys give, kept at one key, is what that key gives. -/
theorem filter_filterMap_key (f : κ → Option β) (key : β → κ) (k : κ) : ∀ l : List κ, l.Nodup →
    (∀ k' ∈ l, ∀ b, f k' = some b → key b = k') →
    (l.filterMap f).filter (fun b => key b = k) = if k ∈ l then (f k).toList else []
  | [], _, _ => rfl
  | k' :: l, hnodup, hkey => by
    obtain ⟨hnotin, hrest⟩ := List.nodup_cons.mp hnodup
    have ih := filter_filterMap_key f key k l hrest fun j hj => hkey j (List.mem_cons_of_mem _ hj)
    have hhead : (f k').toList.filter (fun b => key b = k) = if k' = k then (f k').toList else [] := by
      cases hf : f k' with
      | none => split <;> rfl
      | some b =>
        have hb := hkey k' List.mem_cons_self b hf
        split
        · next h => simp [hb, h]
        · next h => simp [hb, h]
    have hsplit : (k' :: l).filterMap f = (f k').toList ++ l.filterMap f := by
      rw [List.filterMap_cons]
      cases f k' <;> rfl
    rw [hsplit, List.filter_append, hhead, ih]
    by_cases h : k' = k
    · subst h
      simp [hnotin]
    · simp [h, Ne.symm h]

/-- A list has no repeats under `g` when no key's part has any and `g` tells the keys apart. -/
theorem nodup_map_of_filter (g : β → γ) (key : β → κ) {l : List β}
    (hg : ∀ a ∈ l, ∀ b ∈ l, g a = g b → key a = key b)
    (h : ∀ k, ((l.filter (fun b => key b = k)).map g).Nodup) : (l.map g).Nodup := by
  induction l with
  | nil => exact List.nodup_nil
  | cons a l ih =>
    rw [List.map_cons, List.nodup_cons]
    constructor
    · intro hmem
      obtain ⟨b, hb, hab⟩ := List.mem_map.mp hmem
      have hkey := hg b (List.mem_cons_of_mem _ hb) a List.mem_cons_self hab
      have hpart := h (key a)
      rw [List.filter_cons, if_pos (by simp), List.map_cons, List.nodup_cons] at hpart
      exact hpart.1 (List.mem_map.mpr ⟨b, List.mem_filter.mpr ⟨hb, by simpa using hkey⟩, hab⟩)
    · refine ih (fun b hb c hc => hg b (List.mem_cons_of_mem _ hb) c (List.mem_cons_of_mem _ hc)) ?_
      intro k
      exact (h k).sublist (((List.sublist_cons_self a l).filter _).map g)

/-- Two lists agreeing at every key are permutations of each other. -/
theorem perm_of_filter [DecidableEq β] (key : β → κ) {l₁ l₂ : List β}
    (h : ∀ k, (l₁.filter (fun b => key b = k)).Perm (l₂.filter (fun b => key b = k))) :
    l₁.Perm l₂ := by
  rw [List.perm_iff_count]
  intro b
  have hcount := (h (key b)).count_eq b
  rwa [List.count_filter (by simp), List.count_filter (by simp)] at hcount

/-- A search by key finds an element related to the key, where each is related to its own. -/
theorem find?_of_forall₂ {P : β → κ → Prop} {key : β → κ} (hkey : ∀ b k, P b k → key b = k)
    {bs : List β} {ks : List κ} (h : List.Forall₂ P bs ks) {k : κ} (hk : k ∈ ks) :
    ∃ b, bs.find? (fun b => key b = k) = some b ∧ P b k := by
  induction h with
  | nil => cases hk
  | @cons b k' bs ks hP _ ih =>
    by_cases hhead : k' = k
    · subst hhead
      exact ⟨b, by rw [List.find?_cons_of_pos (by simp [hkey _ _ hP])], hP⟩
    · obtain ⟨found, hfound, hPfound⟩ := ih ((List.mem_cons.mp hk).resolve_left (Ne.symm hhead))
      exact ⟨found, by rw [List.find?_cons_of_neg (by simpa [hkey _ _ hP] using hhead), hfound], hPfound⟩

end Keys

/-! ### Lists related element by element -/

section Related

variable {α β : Type} {P : α → β → Prop} {as : List α} {bs : List β}

theorem getElem?_of_forall₂ (h : List.Forall₂ P as bs) {index : ℕ} {b : β}
    (hb : bs[index]? = some b) : ∃ a, as[index]? = some a ∧ P a b := by
  induction h generalizing index with
  | nil => simp at hb
  | @cons a b' as bs hP _ ih =>
    cases index with
    | zero =>
      obtain rfl : b' = b := by simpa using hb
      exact ⟨a, rfl, hP⟩
    | succ index => exact ih (by simpa using hb)

theorem exists_mem_congr_of_forall₂ (h : List.Forall₂ P as bs) {p : α → Prop} {q : β → Prop}
    (hpq : ∀ a b, P a b → (p a ↔ q b)) : (∃ a ∈ as, p a) ↔ ∃ b ∈ bs, q b := by
  induction h with
  | nil => simp
  | cons hP _ ih => rw [List.exists_mem_cons_iff, List.exists_mem_cons_iff, ih, hpq _ _ hP]

end Related

/-! ### Deliveries that may repeat -/

section Deliveries

variable {κ ε σ err : Type} [DecidableEq κ]

/-- The first delivery of each identity, in order. -/
def distinctBy (key : ε → κ) (es : List ε) : List ε :=
  es.foldl (fun kept e => if key e ∈ kept.map key then kept else kept ++ [e]) []

theorem distinctBy_concat (key : ε → κ) (es : List ε) (e : ε) :
    distinctBy key (es ++ [e]) =
      if key e ∈ (distinctBy key es).map key then distinctBy key es else distinctBy key es ++ [e] := by
  rw [distinctBy, List.foldl_append]
  rfl

/-- Every identity delivered is among the first deliveries. -/
theorem mem_keys_distinctBy (key : ε → κ) (k : κ) (es : List ε) :
    k ∈ (distinctBy key es).map key ↔ k ∈ es.map key := by
  induction es using List.reverseRecOn with
  | nil => rfl
  | append_singleton es e ih =>
    rw [distinctBy_concat, List.map_append, List.mem_append, ← ih]
    split
    · next hmem => simp only [List.map_cons, List.map_nil, List.mem_singleton]
                   exact ⟨Or.inl, fun h => h.elim id (fun hk => hk ▸ hmem)⟩
    · rw [List.map_append, List.mem_append]

/-- A step that books a new delivery and ignores a repeated one leaves, over any deliveries, the
    state the first deliveries alone describe. -/
theorem foldlM_deliveries {step : σ → ε → Except err σ} {key : ε → κ} {wanted : ε → Prop}
    {Inv : List ε → σ → Prop} {s₀ : σ} (hbase : Inv [] s₀)
    (hstep : ∀ booked s e, Inv booked s → wanted e →
      ∃ s', step s e = .ok s' ∧ (key e ∈ booked.map key → s' = s) ∧
        (key e ∉ booked.map key → Inv (booked ++ [e]) s')) (es : List ε)
    (hes : ∀ e ∈ es, wanted e) :
    ∃ s, es.foldlM step s₀ = .ok s ∧ Inv (distinctBy key es) s := by
  induction es using List.reverseRecOn with
  | nil => exact ⟨s₀, rfl, hbase⟩
  | append_singleton es e ih =>
    obtain ⟨s, hs, hinv⟩ := ih fun x hx => hes x (List.mem_append_left _ hx)
    obtain ⟨s', hs', hrepeat, hnew⟩ := hstep _ s e hinv (hes e (by simp))
    refine ⟨s', ?_, ?_⟩
    · rw [List.foldlM_append, hs]
      simp [bind, Except.bind, pure, Except.pure, hs']
    · rw [distinctBy_concat]
      split
      · next hmem => rw [hrepeat hmem]; exact hinv
      · next hmem => exact hnew hmem

end Deliveries

/-! ### Runs interrupted by reloads -/

section Reloads

variable {σ ε err : Type}

/-- One step of an interrupted run: reload the state first where the mark says so. -/
def reloadStep (reload : σ → Except err σ) (step : σ → ε → Except err σ) (s : σ) :
    Bool × ε → Except err σ
  | (false, e) => step s e
  | (true, e) => reload s >>= fun s => step s e

/-- Reloading a state that reloads to itself, at any points of a run, changes nothing. -/
theorem foldlM_reloadStep {reload : σ → Except err σ} {step : σ → ε → Except err σ}
    (Inv : σ → Prop) (wanted : ε → Prop) (hreload : ∀ s, Inv s → reload s = .ok s)
    (hstep : ∀ s e s', Inv s → wanted e → step s e = .ok s' → Inv s') :
    ∀ (es : List (Bool × ε)) (s : σ), Inv s → (∀ e ∈ es, wanted e.2) →
      es.foldlM (reloadStep reload step) s = (es.map Prod.snd).foldlM step s
  | [], _, _, _ => rfl
  | (mark, e) :: es, s, hs, hes => by
    have hhead : reloadStep reload step s (mark, e) = step s e := by
      cases mark with
      | false => rfl
      | true => rw [reloadStep, hreload s hs]; rfl
    rw [List.foldlM_cons, hhead, List.map_cons, List.foldlM_cons]
    rcases hnext : step s e with err | s'
    · rfl
    · exact foldlM_reloadStep Inv wanted hreload hstep es s'
        (hstep s e s' hs (hes _ List.mem_cons_self) hnext)
        fun e he => hes e (List.mem_cons_of_mem _ he)

end Reloads

/-- Replacing an element by one with the same image leaves the images alone. -/
theorem map_set_of_eq {α β : Type} {f : α → β} {l : List α} {i : ℕ} {a b : α} (hget : l[i]? = some a)
    (h : f b = f a) : (l.set i b).map f = l.map f := by
  obtain ⟨hi, rfl⟩ := List.getElem?_eq_some_iff.mp hget
  have hi' : i < (l.map f).length := by simpa using hi
  have hsame : f l[i] = (l.map f)[i] := (List.getElem_map f).symm
  rw [List.map_set, h, hsame, List.set_getElem_self hi']

/-! ### Runs whose every step meets a condition -/

theorem pairwise_concat {α : Type} {R : α → α → Prop} {l : List α} {a : α} (h : l.Pairwise R)
    (ha : ∀ b ∈ l, R b a) : (l ++ [a]).Pairwise R := by
  rw [List.pairwise_append]
  refine ⟨h, List.pairwise_singleton _ _, fun b hb c hc => ?_⟩
  rw [List.mem_singleton.mp hc]
  exact ha b hb

section Runs

variable {σ ε : Type} (step : σ → ε → σ) (condition : σ → ε → Prop)

/-- Every step of the run meets the condition in the state it is taken from. -/
def StepsMeet : σ → List ε → Prop
  | _, [] => True
  | s, e :: es => condition s e ∧ StepsMeet (step s e) es

variable {step condition}

/-- What a step that meets the condition preserves holds of the state a run of them reaches. -/
theorem foldl_invariant {Inv : σ → Prop} (hstep : ∀ s e, Inv s → condition s e → Inv (step s e))
    {es : List ε} {s : σ} (hmeet : StepsMeet step condition s es) (hs : Inv s) :
    Inv (es.foldl step s) := by
  induction es generalizing s with
  | nil => exact hs
  | cons e es ih => exact ih hmeet.2 (hstep s e hs hmeet.1)

/-- The steps of a shorter run are among them. -/
theorem stepsMeet_earlier {earlier es : List ε} (h : earlier <+: es) {s : σ}
    (hmeet : StepsMeet step condition s es) : StepsMeet step condition s earlier := by
  induction earlier generalizing es s with
  | nil => trivial
  | cons e earlier ih =>
    obtain ⟨rest, rfl⟩ := h
    exact ⟨hmeet.1, ih (List.prefix_append earlier rest) hmeet.2⟩

theorem foldl_invariant_of_forall {Inv : σ → Prop} (hstep : ∀ s e, Inv s → Inv (step s e))
    {es : List ε} {s : σ} (hs : Inv s) : Inv (es.foldl step s) := by
  induction es generalizing s with
  | nil => exact hs
  | cons e es ih => exact ih (hstep s e hs)

end Runs

end Lib

/-! Runs of a step function whose steps are judged one by one: replacing the judgement by an equivalent
    one, and what a run keeps once a prefix of it has. -/

namespace Lib

variable {σ ε : Type} {step : σ → ε → σ} {condition condition' : σ → ε → Prop}

/-- Conditions that agree at every step agree on every run. -/
theorem stepsMeet_congr (h : ∀ s e, condition s e ↔ condition' s e) : ∀ {es : List ε} {s : σ},
    StepsMeet step condition s es ↔ StepsMeet step condition' s es
  | [], _ => Iff.rfl
  | e :: _, s => and_congr (h s e) (stepsMeet_congr h)

instance decidableStepsMeet [∀ s e, Decidable (condition s e)] : ∀ (es : List ε) (s : σ),
    Decidable (StepsMeet step condition s es)
  | [], _ => isTrue trivial
  | e :: es, s =>
    have : Decidable (StepsMeet step condition (step s e) es) := decidableStepsMeet es (step s e)
    inferInstanceAs (Decidable (_ ∧ _))

/-- When the condition keeps an invariant, and under the invariant a step lands in a good state exactly where
    it meets the condition, a run is good throughout exactly when its steps all meet it. -/
theorem forall_prefix_iff_stepsMeet {Inv Good : σ → Prop}
    (hkeeps : ∀ s e, Inv s → condition s e → Inv (step s e))
    (hstep : ∀ s e, Inv s → (Good (step s e) ↔ condition s e)) : ∀ {es : List ε} {s : σ},
    Inv s → Good s →
    ((∀ earlier, earlier <+: es → Good (earlier.foldl step s)) ↔ StepsMeet step condition s es)
  | [], s, _, hgood => by simp [StepsMeet, hgood]
  | e :: es, s, hs, hgood => by
    rw [StepsMeet]
    constructor
    · intro hall
      have hnext : Good (step s e) := hall [e] (List.prefix_append _ _)
      have hmet := (hstep s e hs).mp hnext
      refine ⟨hmet, (forall_prefix_iff_stepsMeet hkeeps hstep (hkeeps s e hs hmet) hnext).mp ?_⟩
      intro earlier hearlier
      exact hall (e :: earlier) (List.cons_prefix_cons.mpr ⟨rfl, hearlier⟩)
    · rintro ⟨hmet, hrest⟩ earlier hearlier
      have hnext := (hstep s e hs).mpr hmet
      cases earlier with
      | nil => exact hgood
      | cons e' earlier =>
        obtain ⟨rfl, htail⟩ := List.cons_prefix_cons.mp hearlier
        exact (forall_prefix_iff_stepsMeet hkeeps hstep (hkeeps s e' hs hmet) hnext).mpr hrest earlier
          htail

end Lib
