import FinanceKing.Domain.Guards
import FinanceKing.Lib.DecimalFloat
import FinanceKing.Lib.Dict
import FinanceKing.Lib.SortBy

/-! Genome identity: a typed expression tree, a parameter vector, and the payloads the digests are taken
    over. A `Decimal` here is its sign, coefficient and exponent, so two spellings of one number stay
    apart until the canonical one is taken. -/

namespace FinanceKing.Evolution

open Lib

/-- `DECIMAL_PRECISION`. -/
def decimalPrecision : ℕ := 38

/-- A Python `Decimal`, as it was constructed. -/
inductive PyDecimal where
  | finite (d : DecimalFloat)
  | infinity (negative : Bool)
  | nan
  deriving DecidableEq

namespace PyDecimal

def isFinite : PyDecimal → Bool
  | finite _ => true
  | _ => false

/-- `{candidate!r}` of a value that is not finite. -/
def shown : PyDecimal → Piece
  | finite d => .decimal d.value
  | infinity false => "Decimal('Infinity')"
  | infinity true => "Decimal('-Infinity')"
  | nan => "Decimal('NaN')"

end PyDecimal

def requireFinite (candidate : PyDecimal) (fieldName : Message) : PyResult Unit :=
  raiseIf (¬candidate.isFinite) .genome
    (fieldName ++ [.text " must be a finite Decimal, got ", candidate.shown])

/-- `_canonical_decimal`: the one spelling of a quantity, at the context's precision. -/
def canonicalDecimal (candidate : PyDecimal) : PyResult String := do
  requireFinite candidate ["a decimal"]
  match candidate with
  | .finite d =>
    let normalised := d.normalize decimalPrecision
    if normalised.isZero then pure "0" else pure normalised.positional
  | _ => raise .invalidOperation []

/-! ### The expression tree -/

inductive ExpressionType where
  | numeric
  | boolean
  deriving DecidableEq

def ExpressionType.label : ExpressionType → String
  | numeric => "numeric"
  | boolean => "boolean"

inductive NodeKind where
  | feature
  | parameter
  | constant
  | arithmetic
  | comparison
  | logical
  | negation
  deriving DecidableEq

def NodeKind.label : NodeKind → String
  | feature => "feature"
  | parameter => "parameter"
  | constant => "constant"
  | arithmetic => "arithmetic"
  | comparison => "comparison"
  | logical => "logical"
  | negation => "negation"

def leafKinds : List NodeKind := [.feature, .parameter, .constant]

def numericKinds : List NodeKind := leafKinds ++ [.arithmetic]

def arithmeticOperators : List String := ["add", "divide", "multiply", "subtract"]

def comparisonOperators : List String := ["ge", "gt", "le", "lt"]

def logicalOperators : List String := ["and", "or"]

/-- One node of the tree, before its checks. -/
inductive ExpressionNode where
  | mk (kind : NodeKind) (operator featureId parameterName : Option String)
    (constant : Option PyDecimal) (children : List ExpressionNode)

namespace ExpressionNode

variable (node : ExpressionNode)

def kind : ExpressionNode → NodeKind
  | mk kind _ _ _ _ _ => kind

def operator : ExpressionNode → Option String
  | mk _ operator _ _ _ _ => operator

def featureId : ExpressionNode → Option String
  | mk _ _ featureId _ _ _ => featureId

def parameterName : ExpressionNode → Option String
  | mk _ _ _ parameterName _ _ => parameterName

def constant : ExpressionNode → Option PyDecimal
  | mk _ _ _ _ constant _ => constant

def children : ExpressionNode → List ExpressionNode
  | mk _ _ _ _ _ children => children

/-- What the node evaluates to. -/
def expressionType : ExpressionType :=
  if node.kind ∈ numericKinds then .numeric else .boolean

mutual

/-- The node and every node beneath it, parents before children. -/
def walk : ExpressionNode → List ExpressionNode
  | mk kind operator featureId parameterName constant children =>
    mk kind operator featureId parameterName constant children :: walkAll children

def walkAll : List ExpressionNode → List ExpressionNode
  | [] => []
  | child :: children => child.walk ++ walkAll children

end

def referencedFeatureIds : Finset String :=
  (node.walk.filterMap fun n => if n.kind = .feature then n.featureId else none).toFinset

def referencedParameterNames : Finset String :=
  (node.walk.filterMap fun n => if n.kind = .parameter then n.parameterName else none).toFinset

end ExpressionNode

/-! ### Node validation -/

def requireNodeText (candidate : Option String) (fieldName : String) (kind : NodeKind) : PyResult Unit :=
  raiseIf ((candidate.map strip).getD [] = []) .genome
    ["a ", kind.label, " node needs a non-empty ", fieldName]

def requireChildren (node : ExpressionNode) (expected : ℕ) : PyResult Unit :=
  raiseIf (node.children.length ≠ expected) .genome
    ["a ", node.kind.label, " node takes exactly ", .count expected, " children, got ",
      .count node.children.length]

def requireChildTypes (node : ExpressionNode) (expected : ExpressionType) : PyResult Unit :=
  let offenders := (node.children.filter fun child => child.expressionType ≠ expected).map
    fun child => child.kind.label
  raiseIf (offenders ≠ []) .genome
    ["a ", node.kind.label, " node takes ", expected.label, " children; got ", .texts offenders,
      ", which are not"]

def requireOperator (node : ExpressionNode) (permitted : List String) : PyResult Unit :=
  raiseIf (¬node.operator.any (· ∈ permitted)) .genome
    ["a ", node.kind.label, " node's operator must be one of ", .texts permitted, ", got ",
      (node.operator.map Piece.quoted).getD "None"]

/-- The fields set on a kind that has no use for them, sorted by name. -/
def strayFields (node : ExpressionNode) : List String :=
  let fields : List (String × Bool × List NodeKind) :=
    [("constant", node.constant.isSome, [.constant]), ("feature_id", node.featureId.isSome, [.feature]),
      ("operator", node.operator.isSome, [.arithmetic, .comparison, .logical]),
      ("parameter_name", node.parameterName.isSome, [.parameter])]
  (fields.filter fun field => field.2.1 ∧ node.kind ∉ field.2.2).map Prod.fst

def requireNoStrayFields (node : ExpressionNode) : PyResult Unit :=
  raiseIf (strayFields node ≠ []) .genome
    ["a ", node.kind.label, " node must not set ", .texts (strayFields node)]

/-- `_validate_node`: the shape of a node matches its kind. -/
def validateNode (node : ExpressionNode) : PyResult Unit := do
  raiseIf (node.kind ∈ leafKinds ∧ node.children ≠ []) .genome
    ["a ", node.kind.label, " node is a leaf and takes no children"]
  match node.kind with
  | .feature => requireNodeText node.featureId "feature_id" node.kind
  | .parameter => requireNodeText node.parameterName "parameter_name" node.kind
  | .constant =>
    match node.constant with
    | none => raise .genome ["a constant node needs a constant"]
    | some constant => requireFinite constant ["a constant node's constant"]
  | .arithmetic => do
    requireOperator node arithmeticOperators
    requireChildren node 2
    requireChildTypes node .numeric
  | .comparison => do
    requireOperator node comparisonOperators
    requireChildren node 2
    requireChildTypes node .numeric
  | .logical => do
    requireOperator node logicalOperators
    raiseIf (node.children.length < 2) .genome
      ["a logical node takes at least ", .count 2, " children, got ", .count node.children.length]
    requireChildTypes node .boolean
  | .negation => do
    requireChildren node 1
    requireChildTypes node .boolean
  requireNoStrayFields node

/-- Every node beneath was itself constructed, so every one passed its checks. -/
def ExpressionNode.Constructed (node : ExpressionNode) : Prop :=
  ∀ n ∈ node.walk, validateNode n = .ok ()

/-! ### The genome -/

structure GenomeFields where
  entryRule : ExpressionNode
  parameters : Dict String PyDecimal
  featureIds : Finset String
  holdingHorizon : TimeDelta

def GenomeFields.postInit (self : GenomeFields) : PyResult Unit := do
  raiseIf (self.entryRule.expressionType ≠ .boolean) .genome
    ["an entry rule must evaluate to a boolean, got ", self.entryRule.expressionType.label]
  raiseIf (self.featureIds = ∅) .genome
    ["a genome declares at least one feature; it computes nothing without"]
  raiseIf (self.holdingHorizon ≤ 0) .genome
    ["holding_horizon must be positive, got ", .span self.holdingHorizon,
      "; a non-positive horizon leaves the CPCV embargo length undefined"]
  let undeclaredFeatures := self.entryRule.referencedFeatureIds \ self.featureIds
  raiseIf (undeclaredFeatures ≠ ∅) .genome
    ["the entry rule reads ", .texts (sortedSet undeclaredFeatures), ", which the genome does not ",
      "declare; the feature store refuses an undeclared read and a silent substitution is worse"]
  let undeclaredParameters := self.entryRule.referencedParameterNames \ self.parameters.keys.toFinset
  raiseIf (undeclaredParameters ≠ ∅) .genome
    ["the entry rule reads parameters ", .texts (sortedSet undeclaredParameters), ", which the ",
      "genome does not declare"]
  self.parameters.entries.forM fun entry => do
    raiseIf (strip entry.1 = []) .genome ["a parameter name must be non-empty"]
    requireFinite entry.2 [.text "parameter ", .quoted entry.1]

/-- A complete hypothesis: what `genome_hash` is an identity for. -/
structure Genome extends GenomeFields where
  constructed : entryRule.Constructed
  checked : toGenomeFields.postInit = .ok ()

/-- A `timedelta` floor-divided by a microsecond. -/
def Genome.holdingHorizonMicroseconds (self : Genome) : ℤ := self.holdingHorizon / 1

/-! ### The payloads -/

def encodeConstant : Option PyDecimal → PyResult JsonValue
  | none => pure .null
  | some constant => do
    let spelled ← canonicalDecimal constant
    pure (.text spelled)

mutual

/-- `_encode_node`: every key present, so absence is explicit. -/
def encodeNode : ExpressionNode → PyResult JsonValue
  | .mk kind operator featureId parameterName constant children => do
    let constantPayload ← encodeConstant constant
    let childPayloads ← encodeNodes children
    pure (.object
      [("kind", .text kind.label), ("operator", .optional operator), ("feature_id", .optional featureId),
        ("parameter_name", .optional parameterName), ("constant", constantPayload),
        ("children", .array childPayloads)])

def encodeNodes : List ExpressionNode → PyResult (List JsonValue)
  | [] => pure []
  | child :: children => do
    let payload ← encodeNode child
    let payloads ← encodeNodes children
    pure (payload :: payloads)

end

def jsonStrings (items : List String) : JsonValue := .array (items.map JsonValue.text)

/-- The parameters by name, as `sorted(genome.parameters.items())` gives them. -/
def sortedParameters (parameters : Dict String PyDecimal) : List (String × PyDecimal) :=
  sortBy Prod.fst parameters.entries

def parameterPayload (parameters : Dict String PyDecimal) (includeParameterValues : Bool) :
    PyResult JsonValue :=
  if includeParameterValues then do
    let members ← (sortedParameters parameters).mapM fun entry => do
      let spelled ← canonicalDecimal entry.2
      pure (entry.1, JsonValue.text spelled)
    pure (.object members)
  else pure (jsonStrings (sortBy id parameters.keys))

/-- `canonical_payload`: the data the two digests are taken over. -/
def canonicalPayload (genome : Genome) (includeParameterValues : Bool) : PyResult JsonValue := do
  let parameters ← parameterPayload genome.parameters includeParameterValues
  let entryRule ← encodeNode genome.entryRule
  pure (.object
    [("entry_rule", entryRule), ("parameters", parameters),
      ("feature_ids", jsonStrings (sortedSet genome.featureIds)),
      ("holding_horizon_microseconds", .integer genome.holdingHorizonMicroseconds),
      ("schema_version", .integer 1)])

section Digests

variable (digest : JsonValue → String)

/-- `genome_hash`; `digest` is SHA-256 over the payload's canonical JSON text. -/
def genomeHash (genome : Genome) : PyResult String := do
  let payload ← canonicalPayload genome true
  pure (digest payload)

/-- `structure_hash`: the digest with the parameter values removed. -/
def structureHash (genome : Genome) : PyResult String := do
  let payload ← canonicalPayload genome false
  pure (digest payload)

/-- `lineage_id_for`: the family, named by the structure. -/
def lineageIdFor (genome : Genome) : PyResult String := do
  let structureDigest ← structureHash digest genome
  pure ("lin-" ++ String.ofList (structureDigest.toList.take 16))

end Digests

end FinanceKing.Evolution
