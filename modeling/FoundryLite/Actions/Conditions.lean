import FoundryLite.Actions.ConditionValues
import FoundryLite.Library.Kleene

/-!
# Conditions

Submission criteria and parameter overrides are conditions: a closed tree of `all`, `any`, `not` and
comparisons, persisted as JSON and interpreted without any expression text. A condition is checked
before it is evaluated. A comparison of a value that is not there is unknown, and only a condition
that is true counts as satisfied.

The groups of the user are an operand like any other, and the check is meant to keep them to positive
uses.
-/

namespace FoundryLite.Actions

/-- Where an operand comes from. -/
inductive ConditionValue where
  | literal (value : Json)
  | parameter (name : String)
  | objectProperty (name : String)
  | currentUser (userAttribute : Option String)
  | linkedObjectProperty (linkType direction propertyName aggregation : String)

inductive ActionCondition where
  | all (children : List ActionCondition)
  | any (children : List ActionCondition)
  | not (child : ActionCondition)
  | exists (left : ConditionValue)
  | compare (operator : Operator) (left right : ConditionValue)

/-! ### Reading a condition -/

section Reading

def conditionNodeFields : List String := ["all", "any", "not", "op"]

def conditionMetadataFields : List String := ["message", "policyName"]

/-- The comparison of a name, and `none` for `exists`. -/
def operators : List (String × Option Operator) :=
  [("eq", some .eq), ("neq", some .neq), ("in", some .in), ("notIn", some .notIn), ("lt", some .lt),
    ("lte", some .lte), ("gt", some .gt), ("gte", some .gte), ("contains", some .contains),
    ("containsAny", some .containsAny), ("startsWith", some .startsWith), ("matches", some .matches),
    ("eachIs", some .eachIs), ("eachIsNot", some .eachIsNot), ("exists", none)]

def sortedTexts (texts : List String) : Json := .arr ((Dict.sortedSet texts).map .str)

def conditionNodeKind (condition : Mapping) : Checked String :=
  match conditionNodeFields.filter fun field => (condition.lookup field).isSome with
  | [kind] => pure kind
  | kinds =>
    validationFailed "action condition must contain exactly one node kind"
      [("nodeFields", sortedTexts kinds)]

def isNonemptyText : Json → Bool
  | .str text => Text.strip text ≠ ""
  | _ => false

def validateConditionFields (condition : Mapping) (kind : String) : Checked Unit := do
  let allowed := conditionMetadataFields ++ [kind] ++ if kind = "op" then ["left", "right"] else []
  let unexpected := (condition.map Prod.fst).filter (· ∉ allowed)
  rejectIf (unexpected ≠ []) "unsupported action condition fields"
    [("fields", sortedTexts unexpected)]
  conditionMetadataFields.forM fun field =>
    match condition.lookup field with
    | none => pure ()
    | some text =>
      rejectIf (isNonemptyText text = false) "action condition metadata must be non-empty text"
        [("field", .str field)]

def validateValueFields (value : Mapping) (required optional : List String) : Checked Unit := do
  let missing := required.filter fun field => (value.lookup field).isNone
  let unexpected := (value.map Prod.fst).filter (· ∉ required ++ optional)
  rejectIf (missing ≠ [] ∨ unexpected ≠ []) "action condition value has invalid fields"
    [("missingFields", sortedTexts missing), ("unexpectedFields", sortedTexts unexpected)]

def conditionText (payload : Mapping) (key : String) : Checked String :=
  match payload.lookup key with
  | some (.str value) =>
    if value = "" then
      validationFailed "action condition field is required" [("field", .str key)]
    else pure value
  | _ => validationFailed "action condition field is required" [("field", .str key)]

/-- A text among the given ones, the first of them where none is given. -/
def conditionChoice (payload : Mapping) (key message : String) (first second : String) :
    Checked String :=
  match payload.lookup key with
  | none => pure first
  | some (.str value) =>
    if value = first ∨ value = second then pure value
    else validationFailed message [(key, .str value)]
  | some value => validationFailed message [(key, value)]

def linkedDirection (value : Mapping) : Checked String :=
  conditionChoice value "direction"
    "linked-object condition direction must be outgoing or incoming" "outgoing" "incoming"

def linkedAggregation (value : Mapping) : Checked String :=
  conditionChoice value "aggregation"
    "linked-object condition aggregation must be values or count" "values" "count"

def currentUserAttribute (value : Mapping) : Checked (Option String) :=
  match value.lookup "attribute" with
  | none => pure none
  | some (.str name) =>
    if Text.strip name = "" then
      validationFailed "unsupported current-user attribute" [("attribute", .str name)]
    else pure (some name)
  | some value => validationFailed "unsupported current-user attribute" [("attribute", value)]

/-- An operand of a comparison. -/
def readConditionValue (raw : Option Json) : Checked ConditionValue :=
  match raw with
  | some (.obj value) =>
    match value.lookup "kind" with
    | some (.str "literal") => do
      validateValueFields value ["kind", "value"] []
      return .literal ((value.lookup "value").getD .null)
    | some (.str "parameter") => do
      validateValueFields value ["kind", "parameter"] []
      let name ← conditionText value "parameter"
      return .parameter name
    | some (.str "objectProperty") => do
      validateValueFields value ["kind", "property"] []
      let name ← conditionText value "property"
      return .objectProperty name
    | some (.str "currentUser") => do
      validateValueFields value ["kind"] ["attribute"]
      let userAttribute ← currentUserAttribute value
      return .currentUser userAttribute
    | some (.str "linkedObjectProperty") => do
      validateValueFields value ["kind", "linkType", "property"] ["direction", "aggregation"]
      let linkType ← conditionText value "linkType"
      let direction ← linkedDirection value
      let propertyName ← conditionText value "property"
      let aggregation ← linkedAggregation value
      return .linkedObjectProperty linkType direction propertyName aggregation
    | kind =>
      validationFailed "unsupported action condition value" [("kind", kind.getD .null)]
  | _ => validationFailed "condition value must be an object"

def readComparison (condition : Mapping) : Checked ActionCondition :=
  let unsupported : Checked ActionCondition :=
    validationFailed "unsupported action condition operator"
      [("operator", (condition.lookup "op").getD .null)]
  match condition.lookup "op" with
  | some (.str name) =>
    match operators.lookup name with
    | none => unsupported
    | some none => do
      let left ← readConditionValue (condition.lookup "left")
      rejectIf ((condition.lookup "right").isSome = true)
        "exists condition does not accept a right value"
      return .exists left
    | some (some operator) => do
      let left ← readConditionValue (condition.lookup "left")
      let right ← readConditionValue (condition.lookup "right")
      return .compare operator left right
  | _ => unsupported

/-- The value of a field, read as a condition and read as a list of them. -/
structure FieldReading where
  asCondition : Checked ActionCondition
  asConditions : Checked (List ActionCondition)

/-- A condition from its fields and their readings: the kind of the node says which one counts. -/
def conditionOfFields (condition : Mapping) (readings : List (String × FieldReading)) :
    Checked ActionCondition := do
  let kind ← conditionNodeKind condition
  validateConditionFields condition kind
  match readings.lookup kind with
  | none => readComparison condition
  | some reading =>
    match kind with
    | "all" => ActionCondition.all <$> reading.asConditions
    | "any" => ActionCondition.any <$> reading.asConditions
    | "not" => ActionCondition.not <$> reading.asCondition
    | _ => readComparison condition

mutual

/-- A condition, as the value of a field. -/
def readCondition (field : String) : Json → Checked ActionCondition
  | .obj condition => conditionOfFields condition (readConditionFields condition)
  | _ => validationFailed s!"condition {field} must be an object"

def readConditionFields : List (String × Json) → List (String × FieldReading)
  | [] => []
  | (field, value) :: fields =>
    (field, ⟨readCondition field value, readConditions field value⟩) :: readConditionFields fields

/-- A list of conditions, as the value of a field. -/
def readConditions (field : String) : Json → Checked (List ActionCondition)
  | .arr items => readConditionItems field items
  | _ => validationFailed "action condition group must be a list" [("field", .str field)]

def readConditionItems (field : String) : List Json → Checked (List ActionCondition)
  | [] => pure []
  | item :: items => do
    let child ← readCondition field item
    let children ← readConditionItems field items
    return child :: children

end

end Reading

/-! ### The check -/

def groupAttributes : List String := ["group", "groups", "roles"]

/-- The operand is the groups of the user. -/
def ConditionValue.isGroupIdentity : ConditionValue → Bool
  | .currentUser (some name) => name ∈ groupAttributes
  | _ => false

mutual

def ActionCondition.usesGroupIdentity : ActionCondition → Bool
  | .all children => anyUsesGroupIdentity children
  | .any children => anyUsesGroupIdentity children
  | .not child => child.usesGroupIdentity
  | .exists left => left.isGroupIdentity
  | .compare _ left right => left.isGroupIdentity || right.isGroupIdentity

def anyUsesGroupIdentity : List ActionCondition → Bool
  | [] => false
  | child :: children => child.usesGroupIdentity || anyUsesGroupIdentity children

end

section Validation

variable (engine : RegexEngine)

def validateLiteralRegex : ConditionValue → Checked Unit
  | .literal (.str pattern) => validateSafeRegexPattern engine pattern
  | .literal _ =>
    validationFailed "action condition regex must be text" [("operator", .str "matches")]
  | _ => pure ()

def validateComparison (operator : Operator) (left right : ConditionValue) : Checked Unit := do
  if operator = .matches then validateLiteralRegex engine right
  rejectIf (operator ∈ [Operator.neq, .notIn] ∧
      (left.isGroupIdentity || right.isGroupIdentity) = true)
    "group identity conditions require a positive operator"

mutual

/-- `validate_action_condition`, of a condition that is well formed. -/
def ActionCondition.validate : ActionCondition → Checked Unit
  | .all children => do
    rejectIf (children.isEmpty = true) "action condition group cannot be empty"
      [("field", .str "all")]
    validateChildren children
  | .any children => do
    rejectIf (children.isEmpty = true) "action condition group cannot be empty"
      [("field", .str "any")]
    validateChildren children
  | .not child => do
    rejectIf (child.usesGroupIdentity = true) "group identity conditions cannot be negated"
    child.validate
  | .exists _ => pure ()
  | .compare operator left right => validateComparison engine operator left right

def validateChildren : List ActionCondition → Checked Unit
  | [] => pure ()
  | child :: children => do
    child.validate
    validateChildren children

end

/-- A condition that is persisted, read and checked. -/
def acceptedCondition (condition : Mapping) : Checked ActionCondition := do
  let read ← conditionOfFields condition (readConditionFields condition)
  read.validate engine
  return read

def validateActionCondition (condition : Mapping) : Checked Unit := do
  let _ ← acceptedCondition engine condition
  return ()

end Validation

/-! ### Evaluation -/

/-- `StaticActionConditionContext`. -/
structure ActionConditionContext where
  parameters : Dict String Json := ∅
  objectProperties : Dict String Json := ∅
  actorUserId : String
  actorGroups : List String
  actorAttributes : Dict String Json := ∅
  linkedObjectProperties : Dict String Json := ∅
  parameterTypes : Dict String String := ∅
  objectPropertyTypes : Dict String String := ∅
  linkedObjectPropertyTypes : Dict String String := ∅

def linkedObjectPropertyKey (linkType direction propertyName aggregation : String) : String :=
  s!"{direction}:{linkType}:{propertyName}:{aggregation}"

namespace ActionConditionContext

variable (context : ActionConditionContext)

/-- `_MISSING` is none. -/
def currentUser (userAttribute : Option String) : Option Json :=
  match userAttribute with
  | none => some (.str context.actorUserId)
  | some name =>
    if name = "id" then some (.str context.actorUserId)
    else if name ∈ groupAttributes then some (.arr (context.actorGroups.map .str))
    else context.actorAttributes.get? name

def linkedObjectProperty (linkType direction propertyName aggregation : String) : Checked Json :=
  match context.linkedObjectProperties.get?
      (linkedObjectPropertyKey linkType direction propertyName aggregation) with
  | some value => pure value
  | none =>
    validationFailed "linked-object condition value was not resolved"
      [("linkType", .str linkType), ("direction", .str direction), ("property", .str propertyName)]

end ActionConditionContext

structure ConditionOperand where
  value : Option Json
  dataType : Option String := none

/-- An empty type is none. -/
def valueType (type : Option String) : Option String := type.filter (· ≠ "")

section Evaluation

variable (engine : RegexEngine) (context : ActionConditionContext)

def conditionValue : ConditionValue → Checked ConditionOperand
  | .literal value => pure ⟨some value, none⟩
  | .parameter name =>
    pure ⟨context.parameters.get? name, valueType (context.parameterTypes.get? name)⟩
  | .objectProperty name =>
    pure ⟨context.objectProperties.get? name, valueType (context.objectPropertyTypes.get? name)⟩
  | .currentUser userAttribute => pure ⟨context.currentUser userAttribute, none⟩
  | .linkedObjectProperty linkType direction propertyName aggregation => do
    let value ← context.linkedObjectProperty linkType direction propertyName aggregation
    return ⟨some value, valueType (context.linkedObjectPropertyTypes.get?
      (linkedObjectPropertyKey linkType direction propertyName aggregation))⟩

def hasValue : Option Json → Bool
  | none => false
  | some .null => false
  | some (.str text) => text ≠ ""
  | some (.obj fields) => fields ≠ []
  | some (.arr items) => items ≠ []
  | some _ => true

/-- Operands of different types are not compared. -/
def compareOperands (operator : Operator) (leftType rightType : Option String)
    (left right : Json) : Checked Bool :=
  if leftType.isSome ∧ rightType.isSome ∧ leftType ≠ rightType then pure false
  else if leftType.or rightType = some "decimal" then
    pure (compareDecimalValues operator left right)
  else compare engine operator left right

/-- A comparison with a missing value is unknown. -/
def compareWhenPresent (operator : Operator) (left right : ConditionOperand) :
    Checked (Option Bool) :=
  match left.value, right.value with
  | some leftValue, some rightValue =>
    some <$> compareOperands engine operator left.dataType right.dataType leftValue rightValue
  | _, _ => pure none

def evaluateComparison (operator : Operator) (left right : ConditionValue) :
    Checked (Option Bool) := do
  let left ← conditionValue context left
  let right ← conditionValue context right
  compareWhenPresent engine operator left right

mutual

/-- `_evaluate_validated_condition`: `None` is unknown. -/
def ActionCondition.evaluate : ActionCondition → Checked (Option Bool)
  | .all children => Kleene.connect false <$> evaluateChildren children
  | .any children => Kleene.connect true <$> evaluateChildren children
  | .not child => Kleene.negate <$> child.evaluate
  | .exists left => do
    let operand ← conditionValue context left
    return some (hasValue operand.value)
  | .compare operator left right => evaluateComparison engine context operator left right

/-- All children are evaluated before they are connected. -/
def evaluateChildren : List ActionCondition → Checked (List (Option Bool))
  | [] => pure []
  | child :: children => do
    let result ← child.evaluate
    let results ← evaluateChildren children
    return result :: results

end

/-- `evaluate_action_condition`: only what is true is satisfied. -/
def evaluateActionCondition (condition : Mapping) : Checked Bool := do
  let read ← acceptedCondition engine condition
  let result ← read.evaluate engine context
  return result = some true

end Evaluation

end FoundryLite.Actions
