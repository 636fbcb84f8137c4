import FinanceKing.Evolution.Genome

/-! When two genomes share a payload: exactly when they agree everywhere once each `Decimal` is rounded
    to the context's 38 digits. -/

namespace FinanceKing.Evolution

open Lib

/-! ### Numbers and their spellings -/

namespace PyDecimal

/-- What Python compares. -/
def number : PyDecimal → Option ℚ
  | finite d => some d.value
  | _ => none

/-- What is left of it in 38 significant digits. -/
def roundedNumber : PyDecimal → Option ℚ
  | finite d => some (d.rounded decimalPrecision).value
  | _ => none

def spelled : PyDecimal → Option String
  | finite d => some (d.spelling decimalPrecision)
  | _ => none

theorem spelled_eq_iff {a b : PyDecimal} : a.spelled = b.spelled ↔ a.roundedNumber = b.roundedNumber := by
  cases a <;> cases b <;> simp [spelled, roundedNumber, DecimalFloat.spelling_eq_iff]

theorem roundedNumber_congr {a b : PyDecimal} (h : a.number = b.number) :
    a.roundedNumber = b.roundedNumber := by
  cases a with
  | finite x =>
    cases b with
    | finite y =>
      have hvalue : x.value = y.value := Option.some.inj h
      exact congrArg some (DecimalFloat.value_rounded_congr hvalue decimalPrecision)
    | infinity negative => cases h
    | nan => cases h
  | infinity negative => cases b <;> first | rfl | cases h
  | nan => cases b <;> first | rfl | cases h

end PyDecimal

theorem canonicalDecimal_eq {candidate : PyDecimal} (h : candidate.isFinite) :
    ∃ text, candidate.spelled = some text ∧ canonicalDecimal candidate = .ok text := by
  cases candidate with
  | finite d =>
    refine ⟨d.spelling decimalPrecision, rfl, ?_⟩
    simp only [canonicalDecimal, requireFinite, bind_eq_ok, raiseIf_eq_ok]
    refine ⟨(), by simpa using h, ?_⟩
    rw [DecimalFloat.spelling]
    split <;> rfl
  | infinity negative => cases h
  | nan => cases h

/-! ### Agreement -/

/-- Two constants that a view of decimals does not tell apart. -/
def AgreesThrough {α : Type} (view : PyDecimal → α) (a b : Option PyDecimal) : Prop :=
  a.map view = b.map view

theorem AgreesThrough.imp {α β : Type} {view : PyDecimal → α} {coarser : PyDecimal → β}
    (h : ∀ a b, view a = view b → coarser a = coarser b) {a b : Option PyDecimal}
    (hagrees : AgreesThrough view a b) : AgreesThrough coarser a b := by
  cases a with
  | none => cases b with
    | none => rfl
    | some y => cases hagrees
  | some x => cases b with
    | none => cases hagrees
    | some y => exact congrArg some (h x y (Option.some.inj hagrees))

namespace ExpressionNode

variable {α β : Type}

mutual

/-- The trees agree node by node, their constants seen through the view. -/
def SameThrough (view : PyDecimal → α) : ExpressionNode → ExpressionNode → Prop
  | mk kind operator featureId parameterName constant children,
      mk kind' operator' featureId' parameterName' constant' children' =>
    kind = kind' ∧ operator = operator' ∧ featureId = featureId' ∧ parameterName = parameterName' ∧
      AgreesThrough view constant constant' ∧ SameAllThrough view children children'

def SameAllThrough (view : PyDecimal → α) : List ExpressionNode → List ExpressionNode → Prop
  | [], [] => True
  | child :: children, child' :: children' =>
    SameThrough view child child' ∧ SameAllThrough view children children'
  | _, _ => False

end

mutual

/-- A view that tells apart no more than another agrees wherever the other does. -/
theorem SameThrough.imp {view : PyDecimal → α} {coarser : PyDecimal → β}
    (h : ∀ a b, view a = view b → coarser a = coarser b) :
    ∀ {a b : ExpressionNode}, SameThrough view a b → SameThrough coarser a b
  | mk _ _ _ _ constant children, mk _ _ _ _ constant' children',
      ⟨hkind, hoperator, hfeature, hparameter, hconstant, hchildren⟩ => by
    refine ⟨hkind, hoperator, hfeature, hparameter, ?_, SameAllThrough.imp h hchildren⟩
    exact AgreesThrough.imp h hconstant

theorem SameAllThrough.imp {view : PyDecimal → α} {coarser : PyDecimal → β}
    (h : ∀ a b, view a = view b → coarser a = coarser b) :
    ∀ {a b : List ExpressionNode}, SameAllThrough view a b → SameAllThrough coarser a b
  | [], [], _ => trivial
  | _ :: _, _ :: _, ⟨hchild, hchildren⟩ => ⟨SameThrough.imp h hchild, SameAllThrough.imp h hchildren⟩

end

end ExpressionNode

/-- The genomes are equal with their decimals seen through the view. -/
structure GenomeFields.SameThrough {α : Type} (view : PyDecimal → α) (a b : GenomeFields) : Prop where
  entryRule : a.entryRule.SameThrough view b.entryRule
  parameters : ∀ name, (a.parameters.get? name).map view = (b.parameters.get? name).map view
  featureIds : a.featureIds = b.featureIds
  holdingHorizon : a.holdingHorizon = b.holdingHorizon

/-- The genomes are equal once the parameter values, but not the names, are forgotten. -/
structure GenomeFields.SameStructureThrough {α : Type} (view : PyDecimal → α) (a b : GenomeFields) :
    Prop where
  entryRule : a.entryRule.SameThrough view b.entryRule
  parameterNames : ∀ name, name ∈ a.parameters.keys ↔ name ∈ b.parameters.keys
  featureIds : a.featureIds = b.featureIds
  holdingHorizon : a.holdingHorizon = b.holdingHorizon

/-! ### The tree's payload -/

/-- The payload of a decimal that is finite. -/
def decimalPayload (candidate : PyDecimal) : JsonValue :=
  match candidate.spelled with
  | some text => .text text
  | none => .object []

def constantPayload : Option PyDecimal → JsonValue
  | none => .null
  | some constant => decimalPayload constant

mutual

def nodePayload : ExpressionNode → JsonValue
  | .mk kind operator featureId parameterName constant children => .object
      [("kind", .text kind.label), ("operator", .optional operator), ("feature_id", .optional featureId),
        ("parameter_name", .optional parameterName), ("constant", constantPayload constant),
        ("children", .array (nodePayloads children))]

def nodePayloads : List ExpressionNode → List JsonValue
  | [] => []
  | child :: children => nodePayload child :: nodePayloads children

end

theorem decimalPayload_inj {a b : PyDecimal} : decimalPayload a = decimalPayload b ↔
    a.spelled = b.spelled := by
  rw [decimalPayload, decimalPayload]
  cases a.spelled <;> cases b.spelled <;> simp

theorem constantPayload_inj {a b : Option PyDecimal} : constantPayload a = constantPayload b ↔
    AgreesThrough PyDecimal.spelled a b := by
  have hne : ∀ x, decimalPayload x ≠ .null := fun x => by
    rw [decimalPayload]
    cases x.spelled <;> simp
  cases a <;> cases b <;> simp [constantPayload, AgreesThrough, decimalPayload_inj, hne, Ne.symm (hne _)]

theorem NodeKind.label_inj {a b : NodeKind} : a.label = b.label ↔ a = b := by
  cases a <;> cases b <;> decide

mutual

theorem nodePayload_inj : ∀ {a b : ExpressionNode}, nodePayload a = nodePayload b ↔
    a.SameThrough PyDecimal.spelled b
  | .mk _ _ _ _ _ _, .mk _ _ _ _ _ _ => by
    simp only [nodePayload, ExpressionNode.SameThrough, JsonValue.object.injEq, List.cons.injEq,
      Prod.mk.injEq, true_and, and_true, JsonValue.text.injEq, NodeKind.label_inj,
      JsonValue.optional_inj, constantPayload_inj, JsonValue.array.injEq, nodePayloads_inj]

theorem nodePayloads_inj : ∀ {a b : List ExpressionNode}, nodePayloads a = nodePayloads b ↔
    ExpressionNode.SameAllThrough PyDecimal.spelled a b
  | [], [] => by simp [nodePayloads, ExpressionNode.SameAllThrough]
  | [], _ :: _ => by simp [nodePayloads, ExpressionNode.SameAllThrough]
  | _ :: _, [] => by simp [nodePayloads, ExpressionNode.SameAllThrough]
  | _ :: _, _ :: _ => by
    simp only [nodePayloads, ExpressionNode.SameAllThrough, List.cons.injEq, nodePayload_inj,
      nodePayloads_inj]

end

theorem kind_of_strayFields {node : ExpressionNode} (h : strayFields node = [])
    (hconstant : node.constant.isSome) : node.kind = .constant := by
  by_contra hkind
  have hmem : "constant" ∈ strayFields node := by
    simp [strayFields, hconstant, hkind]
  rw [h] at hmem
  cases hmem

/-- A node that passed its checks has no constant that is not finite. -/
theorem isFinite_of_validateNode {node : ExpressionNode} (h : validateNode node = .ok ())
    {constant : PyDecimal} (hconstant : node.constant = some constant) : constant.isFinite := by
  by_cases hkind : node.kind = .constant
  · rw [validateNode] at h
    simp only [hkind, hconstant, requireFinite, bind_eq_ok, raiseIf_eq_ok] at h
    obtain ⟨_, -, _, hfinite, -⟩ := h
    simpa using hfinite
  · refine absurd (kind_of_strayFields ?_ (by rw [hconstant]; rfl)) hkind
    rw [validateNode] at h
    cases hcase : node.kind <;>
      simp only [hcase, bind_eq_ok, raiseIf_eq_ok, requireNoStrayFields, not_not] at h
    case constant => exact absurd hcase hkind
    case feature | parameter =>
      obtain ⟨_, -, _, -, hstray⟩ := h
      exact hstray
    case arithmetic | comparison | logical =>
      obtain ⟨_, -, _, -, _, -, _, -, hstray⟩ := h
      exact hstray
    case negation =>
      obtain ⟨_, -, _, -, _, -, hstray⟩ := h
      exact hstray

theorem encodeConstant_eq {constant : Option PyDecimal}
    (h : ∀ candidate, constant = some candidate → candidate.isFinite) :
    encodeConstant constant = .ok (constantPayload constant) := by
  cases constant with
  | none => rfl
  | some candidate =>
    obtain ⟨text, hspelled, hcanonical⟩ := canonicalDecimal_eq (h candidate rfl)
    rw [encodeConstant, hcanonical, constantPayload, decimalPayload, hspelled]
    rfl

mutual

theorem encodeNode_eq : ∀ {node : ExpressionNode}, (∀ n ∈ node.walk, validateNode n = .ok ()) →
    encodeNode node = .ok (nodePayload node)
  | .mk kind operator featureId parameterName constant children, h => by
    rw [ExpressionNode.walk, List.forall_mem_cons] at h
    have hconstant : encodeConstant constant = .ok (constantPayload constant) :=
      encodeConstant_eq fun candidate hcandidate => isFinite_of_validateNode h.1 hcandidate
    rw [encodeNode, nodePayload, hconstant, encodeNodes_eq h.2]
    rfl

theorem encodeNodes_eq : ∀ {nodes : List ExpressionNode},
    (∀ n ∈ ExpressionNode.walkAll nodes, validateNode n = .ok ()) →
    encodeNodes nodes = .ok (nodePayloads nodes)
  | [], _ => rfl
  | child :: children, h => by
    rw [ExpressionNode.walkAll, List.forall_mem_append] at h
    rw [encodeNodes, nodePayloads, encodeNode_eq h.1, encodeNodes_eq h.2]
    rfl

end

/-! ### The parameters' payload -/

section Parameters

variable {α : Type} {p q : Dict String PyDecimal}

theorem mem_sortedParameters_map (view : PyDecimal → α) {name : String} {a : α} :
    (name, a) ∈ (sortedParameters p).map (fun entry => (entry.1, view entry.2)) ↔
      (p.get? name).map view = some a := by
  simp only [sortedParameters, List.mem_map, mem_sortBy, Option.map_eq_some_iff, Dict.get?_eq_some_iff,
    Prod.mk.injEq, Prod.exists]
  constructor
  · rintro ⟨_, v, hmem, rfl, hv⟩
    exact ⟨v, hmem, hv⟩
  · rintro ⟨v, hmem, hv⟩
    exact ⟨name, v, hmem, rfl, hv⟩

/-- The sorted parameters agree exactly when every name's value does. -/
theorem sortedParameters_map_inj {view : PyDecimal → α} :
    (sortedParameters p).map (fun entry => (entry.1, view entry.2)) =
        (sortedParameters q).map (fun entry => (entry.1, view entry.2)) ↔
      ∀ name, (p.get? name).map view = (q.get? name).map view := by
  constructor
  · intro h name
    refine Option.ext fun a => ?_
    rw [← mem_sortedParameters_map, h, mem_sortedParameters_map]
  · intro h
    have hnodup : ∀ d : Dict String PyDecimal,
        ((sortedParameters d).map fun entry => (entry.1, view entry.2)).Nodup := by
      intro d
      have hkeys : ((sortedParameters d).map Prod.fst).Nodup :=
        ((perm_sortBy Prod.fst d.entries).map Prod.fst).nodup_iff.mpr d.nodupKeys
      refine List.Nodup.of_map Prod.fst ?_
      rwa [List.map_map]
    have hsorted : ∀ d : Dict String PyDecimal,
        ((sortedParameters d).map fun entry => (entry.1, view entry.2)).Pairwise
          fun a b => a.1 ≤ b.1 := fun d =>
      List.pairwise_map.mpr (pairwise_sortBy Prod.fst d.entries)
    have hperm := (List.perm_ext_iff_of_nodup (hnodup p) (hnodup q)).mpr fun entry => by
      rw [mem_sortedParameters_map, h, ← mem_sortedParameters_map]
    refine hperm.eq_of_pairwise ?_ (hsorted p) (hsorted q)
    rintro ⟨name, a⟩ ⟨name', b⟩ ha hb hab hba
    obtain rfl : name = name' := le_antisymm hab hba
    rw [mem_sortedParameters_map, h] at ha
    rw [mem_sortedParameters_map, ha] at hb
    rw [Option.some.inj hb]

theorem mapM_eq_ok {β γ : Type} {f : β → PyResult γ} {g : β → γ} :
    ∀ {l : List β}, (∀ b ∈ l, f b = .ok (g b)) → l.mapM f = .ok (l.map g)
  | [], _ => rfl
  | b :: l, h => by
    rw [List.mapM_cons, h b List.mem_cons_self, mapM_eq_ok fun c hc => h c (List.mem_cons_of_mem _ hc)]
    rfl

/-- The payload of the parameters of a genome. -/
def parametersPayload (parameters : Dict String PyDecimal) (includeParameterValues : Bool) : JsonValue :=
  if includeParameterValues then
    .object ((sortedParameters parameters).map fun entry => (entry.1, decimalPayload entry.2))
  else jsonStrings (sortBy id parameters.keys)

theorem parameterPayload_eq (includeParameterValues : Bool)
    (h : ∀ entry ∈ p.entries, entry.2.isFinite) :
    parameterPayload p includeParameterValues = .ok (parametersPayload p includeParameterValues) := by
  cases includeParameterValues with
  | false => rfl
  | true =>
    rw [parameterPayload, if_pos rfl, parametersPayload, if_pos rfl,
      mapM_eq_ok (g := fun entry => (entry.1, decimalPayload entry.2))]
    · rfl
    · intro entry hentry
      obtain ⟨text, hspelled, hcanonical⟩ := canonicalDecimal_eq (h entry ((mem_sortBy _).mp hentry))
      rw [hcanonical, decimalPayload, hspelled]
      rfl

theorem jsonStrings_inj {a b : List String} : jsonStrings a = jsonStrings b ↔ a = b := by
  have hinjective : Function.Injective JsonValue.text := fun _ _ h => JsonValue.text.inj h
  rw [jsonStrings, jsonStrings, JsonValue.array.injEq, List.map_inj_right hinjective]

theorem parametersPayload_inj (p q : Dict String PyDecimal) :
    (parametersPayload p true = parametersPayload q true ↔
      ∀ name, (p.get? name).map PyDecimal.spelled = (q.get? name).map PyDecimal.spelled) ∧
    (parametersPayload p false = parametersPayload q false ↔ ∀ name, name ∈ p.keys ↔ name ∈ q.keys) := by
  constructor
  · have hview : ∀ a b : Option PyDecimal, a.map decimalPayload = b.map decimalPayload ↔
        a.map PyDecimal.spelled = b.map PyDecimal.spelled := by
      intro a b
      cases a <;> cases b <;> simp [decimalPayload_inj]
    simp only [parametersPayload, if_true, JsonValue.object.injEq, sortedParameters_map_inj, hview]
  · have hkeys : ∀ {a b : Dict String PyDecimal}, sortBy id a.keys = sortBy id b.keys ↔
        ∀ name, name ∈ a.keys ↔ name ∈ b.keys := by
      intro a b
      constructor
      · intro h name
        rw [← mem_sortBy id, h, mem_sortBy]
      · intro h
        exact sortBy_eq_of_perm id ((List.perm_ext_iff_of_nodup a.nodupKeys b.nodupKeys).mpr h)
          fun _ _ _ _ heq => heq
    simp only [parametersPayload, Bool.false_eq_true, if_false, jsonStrings_inj, hkeys]

end Parameters

/-! ### The genome's payload -/

namespace Genome

variable (a b : Genome)

theorem isFinite_parameter (genome : Genome) : ∀ entry ∈ genome.parameters.entries, entry.2.isFinite := by
  intro entry hentry
  have h := genome.checked
  simp only [GenomeFields.postInit, bind_eq_ok, raiseIf_eq_ok, forM_eq_ok, requireFinite] at h
  obtain ⟨_, -, _, -, _, -, _, -, _, -, hentries⟩ := h
  obtain ⟨_, -, hfinite⟩ := hentries entry hentry
  simpa using hfinite

/-- The payload of a genome; it never fails. -/
def payload (genome : Genome) (includeParameterValues : Bool) : JsonValue :=
  .object
    [("entry_rule", nodePayload genome.entryRule),
      ("parameters", parametersPayload genome.parameters includeParameterValues),
      ("feature_ids", jsonStrings (sortedSet genome.featureIds)),
      ("holding_horizon_microseconds", .integer genome.holdingHorizonMicroseconds),
      ("schema_version", .integer 1)]

theorem canonicalPayload_eq (genome : Genome) (includeParameterValues : Bool) :
    canonicalPayload genome includeParameterValues = .ok (genome.payload includeParameterValues) := by
  rw [canonicalPayload, parameterPayload_eq includeParameterValues genome.isFinite_parameter,
    encodeNode_eq genome.constructed]
  rfl

/-- Payloads agree exactly when the genomes do, each decimal spelled canonically. -/
theorem payload_inj : (a.payload true = b.payload true ↔
      a.SameThrough PyDecimal.spelled b.toGenomeFields) ∧
    (a.payload false = b.payload false ↔ a.SameStructureThrough PyDecimal.spelled b.toGenomeFields) := by
  obtain ⟨hvalues, hnames⟩ := parametersPayload_inj a.parameters b.parameters
  simp only [payload, JsonValue.object.injEq, List.cons.injEq, Prod.mk.injEq, true_and, and_true,
    nodePayload_inj, jsonStrings_inj, sortedSet_inj, JsonValue.integer.injEq, holdingHorizonMicroseconds,
    Int.ediv_one, hvalues, hnames]
  constructor
  · exact ⟨fun h => ⟨h.1, h.2.1, h.2.2.1, h.2.2.2⟩, fun h => ⟨h.1, h.2, h.3, h.4⟩⟩
  · exact ⟨fun h => ⟨h.1, h.2.1, h.2.2.1, h.2.2.2⟩, fun h => ⟨h.1, h.2, h.3, h.4⟩⟩

end Genome

/-! ### Identity -/

section Identity

variable {α β : Type} {a b : Genome}

theorem GenomeFields.SameThrough.imp {view : PyDecimal → α} {coarser : PyDecimal → β}
    {a b : GenomeFields} (h : ∀ x y, view x = view y → coarser x = coarser y)
    (hsame : a.SameThrough view b) : a.SameThrough coarser b :=
  ⟨hsame.entryRule.imp h, fun name => AgreesThrough.imp h (hsame.parameters name), hsame.featureIds,
    hsame.holdingHorizon⟩

theorem GenomeFields.SameStructureThrough.imp {view : PyDecimal → α} {coarser : PyDecimal → β}
    {a b : GenomeFields} (h : ∀ x y, view x = view y → coarser x = coarser y)
    (hsame : a.SameStructureThrough view b) : a.SameStructureThrough coarser b :=
  ⟨hsame.entryRule.imp h, hsame.parameterNames, hsame.featureIds, hsame.holdingHorizon⟩

/-- The payloads agree exactly when the genomes do with each decimal rounded to 38 digits. -/
theorem canonicalPayload_eq_iff :
    (canonicalPayload a true = canonicalPayload b true ↔
      a.SameThrough PyDecimal.roundedNumber b.toGenomeFields) ∧
    (canonicalPayload a false = canonicalPayload b false ↔
      a.SameStructureThrough PyDecimal.roundedNumber b.toGenomeFields) := by
  simp only [Genome.canonicalPayload_eq, Except.ok.injEq, a.payload_inj b]
  exact ⟨⟨fun h => h.imp fun _ _ => PyDecimal.spelled_eq_iff.mp,
      fun h => h.imp fun _ _ => PyDecimal.spelled_eq_iff.mpr⟩,
    fun h => h.imp fun _ _ => PyDecimal.spelled_eq_iff.mp,
    fun h => h.imp fun _ _ => PyDecimal.spelled_eq_iff.mpr⟩

/-- The digest tells the genomes' payloads apart. -/
def NoCollision (digest : JsonValue → String) (a b : Genome) : Prop :=
  ∀ p q, canonicalPayload a true = .ok p → canonicalPayload b true = .ok q → digest p = digest q → p = q

/-- What an exact identity says of two genomes, numbers compared as Python compares them. -/
structure IdentityIsExact (digest : JsonValue → String) (a b : Genome) : Prop where
  returns : ∀ values, (canonicalPayload a values).toBool ∧ (canonicalPayload b values).toBool
  payload : canonicalPayload a true = canonicalPayload b true ↔
    a.SameThrough PyDecimal.number b.toGenomeFields
  structurePayload : canonicalPayload a false = canonicalPayload b false ↔
    a.SameStructureThrough PyDecimal.number b.toGenomeFields
  hash : genomeHash digest a = genomeHash digest b ↔ a.SameThrough PyDecimal.number b.toGenomeFields
  lineage : a.SameStructureThrough PyDecimal.number b.toGenomeFields →
    lineageIdFor digest a = lineageIdFor digest b

/-- The genomes, or their structures, part only beyond the 38th significant digit of some decimal. -/
def PartsBeyondPrecision (a b : Genome) : Prop :=
  (a.SameThrough PyDecimal.roundedNumber b.toGenomeFields ∧
      ¬a.SameThrough PyDecimal.number b.toGenomeFields) ∨
    (a.SameStructureThrough PyDecimal.roundedNumber b.toGenomeFields ∧
      ¬a.SameStructureThrough PyDecimal.number b.toGenomeFields)

theorem genomeHash_eq_iff {digest : JsonValue → String} (h : NoCollision digest a b) :
    genomeHash digest a = genomeHash digest b ↔ canonicalPayload a true = canonicalPayload b true := by
  have hcollision := h _ _ (a.canonicalPayload_eq true) (b.canonicalPayload_eq true)
  rw [genomeHash, genomeHash, a.canonicalPayload_eq, b.canonicalPayload_eq]
  constructor
  · exact fun heq => congrArg Except.ok (hcollision (Except.ok.inj heq))
  · exact fun heq => congrArg (fun payload : PyResult JsonValue => payload >>= fun p => pure (digest p)) heq

/-- The identity of two genomes is exact unless they part only beyond the 38th significant digit. -/
theorem identity_exact_iff {digest : JsonValue → String} (h : NoCollision digest a b) :
    IdentityIsExact digest a b ↔ ¬PartsBeyondPrecision a b := by
  obtain ⟨hpayload, hstructure⟩ := canonicalPayload_eq_iff (a := a) (b := b)
  have hrounds : a.SameThrough PyDecimal.number b.toGenomeFields →
      a.SameThrough PyDecimal.roundedNumber b.toGenomeFields := fun hsame =>
    hsame.imp fun _ _ => PyDecimal.roundedNumber_congr
  have hroundsStructure : a.SameStructureThrough PyDecimal.number b.toGenomeFields →
      a.SameStructureThrough PyDecimal.roundedNumber b.toGenomeFields := fun hsame =>
    hsame.imp fun _ _ => PyDecimal.roundedNumber_congr
  constructor
  · rintro hexact (⟨hrounded, hne⟩ | ⟨hrounded, hne⟩)
    · exact hne (hexact.payload.mp (hpayload.mpr hrounded))
    · exact hne (hexact.structurePayload.mp (hstructure.mpr hrounded))
  · intro hparts
    have hsame : canonicalPayload a true = canonicalPayload b true ↔
        a.SameThrough PyDecimal.number b.toGenomeFields :=
      hpayload.trans ⟨fun hrounded => not_not.mp fun hne => hparts (.inl ⟨hrounded, hne⟩), hrounds⟩
    have hsameStructure : canonicalPayload a false = canonicalPayload b false ↔
        a.SameStructureThrough PyDecimal.number b.toGenomeFields :=
      hstructure.trans
        ⟨fun hrounded => not_not.mp fun hne => hparts (.inr ⟨hrounded, hne⟩), hroundsStructure⟩
    refine ⟨fun values => ?_, hsame, hsameStructure, (genomeHash_eq_iff h).trans hsame, fun hfamily => ?_⟩
    · rw [a.canonicalPayload_eq, b.canonicalPayload_eq]
      exact ⟨rfl, rfl⟩
    · rw [lineageIdFor, lineageIdFor, structureHash, structureHash, hsameStructure.mpr hfamily]

end Identity

/-! ### Two thresholds one digit too long -/

/-- `rsi_14 > threshold`, held for an hour. -/
def thresholdRule (threshold : DecimalFloat) : ExpressionNode :=
  .mk .comparison (some "gt") none none none
    [.mk .feature none (some "rsi_14") none none [],
      .mk .constant none none none (some (.finite threshold)) []]

theorem constructed_thresholdRule (threshold : DecimalFloat) : (thresholdRule threshold).Constructed := by
  simp only [ExpressionNode.Constructed, thresholdRule, ExpressionNode.walk, ExpressionNode.walkAll,
    List.append_nil, List.cons_append, List.nil_append, List.forall_mem_cons]
  refine ⟨rfl, ?_, rfl, fun _ h => absurd h List.not_mem_nil⟩
  with_unfolding_all decide

def thresholdGenome (threshold : DecimalFloat) : Genome where
  entryRule := thresholdRule threshold
  parameters := Dict.empty
  featureIds := {"rsi_14"}
  holdingHorizon := TimeDelta.ofMinutes 60
  constructed := constructed_thresholdRule threshold
  checked := by rfl

/-- SHA-256 of the payload and of the structure payload of `rsi_14 > 1.5`. -/
def thresholdDigest : JsonValue → String
  | .object (_ :: (_, .object _) :: _) =>
    "6f073caa7dd77c8743434ce7b20cd41fca8c426893795ddf4e68601ccdc07354"
  | _ => "c1805c37966d605d9dd569c993f7ea818812e1fe1b6007bffb867a69e76a5706"

theorem thresholdGenome_sameThrough {α : Type} {view : PyDecimal → α} {x y : DecimalFloat} :
    ((thresholdGenome x).SameThrough view (thresholdGenome y).toGenomeFields ↔
      view (.finite x) = view (.finite y)) ∧
    ((thresholdGenome x).SameStructureThrough view (thresholdGenome y).toGenomeFields ↔
      view (.finite x) = view (.finite y)) := by
  have hrule : (thresholdRule x).SameThrough view (thresholdRule y) ↔
      view (.finite x) = view (.finite y) := by
    simp [thresholdRule, ExpressionNode.SameThrough, ExpressionNode.SameAllThrough, AgreesThrough]
  rw [← hrule]
  exact ⟨⟨fun h => h.entryRule, fun h => ⟨h, fun _ => rfl, rfl, rfl⟩⟩,
    ⟨fun h => h.entryRule, fun h => ⟨h, fun _ => Iff.rfl, rfl, rfl⟩⟩⟩

/-- Two spellings of 1.5 are one genome. -/
theorem identity_exact_spellings :
    NoCollision thresholdDigest (thresholdGenome ⟨false, 150, -2⟩) (thresholdGenome ⟨false, 15, -1⟩) ∧
      IdentityIsExact thresholdDigest (thresholdGenome ⟨false, 150, -2⟩)
        (thresholdGenome ⟨false, 15, -1⟩) := by
  have hnumber : PyDecimal.number (.finite ⟨false, 150, -2⟩) =
      PyDecimal.number (.finite ⟨false, 15, -1⟩) := by
    decide +kernel
  have hcollision : NoCollision thresholdDigest (thresholdGenome ⟨false, 150, -2⟩)
      (thresholdGenome ⟨false, 15, -1⟩) := by
    intro p q hp hq _
    have hsame := canonicalPayload_eq_iff.1.mpr
      ((thresholdGenome_sameThrough (x := ⟨false, 150, -2⟩) (y := ⟨false, 15, -1⟩)).1.mpr
        (PyDecimal.roundedNumber_congr hnumber))
    rw [hp, hq] at hsame
    exact Except.ok.inj hsame
  refine ⟨hcollision, (identity_exact_iff hcollision).mpr ?_⟩
  rintro (⟨-, hne⟩ | ⟨-, hne⟩)
  · exact hne (thresholdGenome_sameThrough.1.mpr hnumber)
  · exact hne (thresholdGenome_sameThrough.2.mpr hnumber)

/-- A threshold edited in its 39th digit is a new genome that keeps its payload. -/
theorem edited_threshold_keeps_payload :
    canonicalPayload (thresholdGenome ⟨false, 10 ^ 38 + 1, -38⟩) true =
        canonicalPayload (thresholdGenome ⟨false, 10 ^ 38 + 2, -38⟩) true ∧
      canonicalPayload (thresholdGenome ⟨false, 10 ^ 38 + 1, -38⟩) false =
        canonicalPayload (thresholdGenome ⟨false, 10 ^ 38 + 2, -38⟩) false ∧
      ¬(thresholdGenome ⟨false, 10 ^ 38 + 1, -38⟩).SameThrough PyDecimal.number
        (thresholdGenome ⟨false, 10 ^ 38 + 2, -38⟩).toGenomeFields ∧
      ¬(thresholdGenome ⟨false, 10 ^ 38 + 1, -38⟩).SameStructureThrough PyDecimal.number
        (thresholdGenome ⟨false, 10 ^ 38 + 2, -38⟩).toGenomeFields := by
  have hrounded : PyDecimal.roundedNumber (.finite ⟨false, 10 ^ 38 + 1, -38⟩) =
      PyDecimal.roundedNumber (.finite ⟨false, 10 ^ 38 + 2, -38⟩) := by
    decide +kernel
  have hnumber : PyDecimal.number (.finite ⟨false, 10 ^ 38 + 1, -38⟩) ≠
      PyDecimal.number (.finite ⟨false, 10 ^ 38 + 2, -38⟩) := by
    decide +kernel
  refine ⟨canonicalPayload_eq_iff.1.mpr (thresholdGenome_sameThrough.1.mpr hrounded),
    canonicalPayload_eq_iff.2.mpr (thresholdGenome_sameThrough.2.mpr hrounded), ?_, ?_⟩
  · exact fun h => hnumber (thresholdGenome_sameThrough.1.mp h)
  · exact fun h => hnumber (thresholdGenome_sameThrough.2.mp h)

end FinanceKing.Evolution
