import FoundryLite.Actions.ConditionEquality

/-!
# JSON schemas of tool arguments

The arguments of a tool are validated against the schema that the tool advertises. The validator walks the
schema; it reads a keyword on texts or numbers wherever it stands, and a keyword on objects or arrays only
beside the type of these.

A schema is well formed here by its type: a keyword that is not there has the value that says nothing.
-/

namespace FoundryLite.Mcp

open Json Actions

inductive SchemaType where
  | object
  | array
  | string
  | integer
  | number
  | boolean
  | null
  deriving DecidableEq

def SchemaType.name : SchemaType → String
  | object => "object"
  | array => "array"
  | string => "string"
  | integer => "integer"
  | number => "number"
  | boolean => "boolean"
  | null => "null"

/-- A bound on numbers, and how it is written. -/
structure Bound where
  number : ℚ
  text : String

/-- The keywords that hold no schema. -/
structure Keywords where
  type : Option SchemaType := none
  const : Option KeyedValue := none
  enum : Option (List KeyedValue) := none
  minLength : Option ℕ := none
  maxLength : Option ℕ := none
  minimum : Option Bound := none
  maximum : Option Bound := none
  required : List String := []
  additionalProperties : Bool := true
  minItems : Option ℕ := none
  maxItems : Option ℕ := none
  uniqueItems : Bool := false

inductive Schema where
  | mk (keywords : Keywords) (oneOf : Option (List Schema)) (properties : List (String × Schema))
      (items : Option Schema)

/-- `McpJsonSchemaError`. -/
structure SchemaError where
  path : String
  reason : String

abbrev Validation := Except SchemaError Unit

/-! ### Keywords -/

/-- `_json_equal`, which compares as conditions do; a fractional number is here the one that it is. -/
def jsonEqual (left right : Json) : Bool := valuesEqual left right

def matchesType (value : Json) : SchemaType → Bool
  | .object => (value matches .obj _)
  | .array => (value matches .arr _)
  | .string => (value matches .str _)
  | .integer => (value matches .int _)
  | .number => (numberOf value).isSome
  | .boolean => (value matches .bool _)
  | .null => (value matches .null)

/-- Raise where the value does not pass. -/
def require (passes : Prop) [Decidable passes] (path reason : String) : Validation :=
  if passes then pure () else throw ⟨path, reason⟩

/-- A keyword that may be there. -/
def validateKeyword {α : Type} (keyword : Option α) (validate : α → Validation) : Validation :=
  keyword.elim (pure ()) validate

def hasDuplicate : List Json → Bool
  | [] => false
  | value :: values => values.any (fun later => jsonEqual later value) || hasDuplicate values

section

variable (keywords : Keywords) (value : Json) (path : String)

def validateType : Validation :=
  validateKeyword keywords.type fun type => require (matchesType value type) path ("expected " ++ type.name)

def validateConst : Validation :=
  validateKeyword keywords.const fun const =>
    require (jsonEqual value const.value) path "value does not match const"

def validateEnum : Validation :=
  validateKeyword keywords.enum fun allowed =>
    require (allowed.any fun item => jsonEqual value item.value) path "value is outside enum"

def validateString : Validation :=
  match value with
  | .str text => do
    validateKeyword keywords.minLength fun minimum => require (minimum ≤ text.length) path
      ("requires at least " ++ toString minimum ++ " characters")
    validateKeyword keywords.maxLength fun maximum => require (text.length ≤ maximum) path
      ("allows at most " ++ toString maximum ++ " characters")
  | _ => pure ()

def validateNumericBounds : Validation :=
  match numberOf value with
  | some number => do
    validateKeyword keywords.minimum fun minimum => require (minimum.number ≤ number) path
      ("must be greater than or equal to " ++ minimum.text)
    validateKeyword keywords.maximum fun maximum => require (number ≤ maximum.number) path
      ("must be less than or equal to " ++ maximum.text)
  | none => pure ()

def validateRequired (fields : List (String × Json)) : Validation :=
  keywords.required.forM fun name =>
    require (name ∈ fields.map Prod.fst) (path ++ "." ++ name) "required property is missing"

def validateExtras (fields : List (String × Json)) (names : List String) : Validation :=
  let extras := Dict.sortedSet ((fields.map Prod.fst).filter (· ∉ names))
  require (keywords.additionalProperties = true ∨ extras = []) path
    ("additional properties are not allowed: " ++ String.intercalate ", " extras)

def validateArrayBounds (items : List Json) : Validation := do
  validateKeyword keywords.minItems fun minimum => require (minimum ≤ items.length) path
    ("requires at least " ++ toString minimum ++ " items")
  validateKeyword keywords.maxItems fun maximum => require (items.length ≤ maximum) path
    ("allows at most " ++ toString maximum ++ " items")

def validateUniqueItems (items : List Json) : Validation :=
  require (keywords.uniqueItems = true → hasDuplicate items = false) path "array items must be unique"

/-- `_validate_container`, where `names` are the names of the properties, and the last arguments validate
properties and items. -/
def validateContainer (names : List String) (validateProperties : List (String × Json) → Validation)
    (validateArrayItems : List Json → Validation) : Validation :=
  match keywords.type, value with
  | some .object, .obj fields => do
    validateRequired keywords path fields
    validateExtras keywords path fields names
    validateProperties fields
  | some .array, .arr items => do
    validateArrayBounds keywords path items
    validateUniqueItems keywords path items
    validateArrayItems items
  | _, _ => pure ()

end

/-! ### Schemas -/

mutual

/-- `validate_mcp_json_schema`. -/
def validateMcpJsonSchema (value : Json) (path : String) : Schema → Validation
  | ⟨keywords, oneOf, properties, items⟩ => do
    validateOneOf value path oneOf
    validateType keywords value path
    validateConst keywords value path
    validateEnum keywords value path
    validateString keywords value path
    validateNumericBounds keywords value path
    validateContainer keywords value path (properties.map Prod.fst)
      (fun fields => validateProperties fields path properties)
      (fun values => validateArrayItems values path items)

def validateOneOf (value : Json) (path : String) : Option (List Schema) → Validation
  | none => pure ()
  | some choices =>
    require (matchCount value path choices = 1) path "value must match exactly one oneOf schema"

/-- How many of the choices raise nothing. -/
def matchCount (value : Json) (path : String) : List Schema → ℕ
  | [] => 0
  | choice :: choices =>
    (if (validateMcpJsonSchema value path choice).isOk then 1 else 0) + matchCount value path choices

def validateProperties (fields : List (String × Json)) (path : String) :
    List (String × Schema) → Validation
  | [] => pure ()
  | (name, child) :: properties => do
    match fields.lookup name with
    | some value => validateMcpJsonSchema value (path ++ "." ++ name) child
    | none => pure ()
    validateProperties fields path properties

def validateArrayItems (values : List Json) (path : String) : Option Schema → Validation
  | none => pure ()
  | some child => values.zipIdx.forM fun entry =>
    validateMcpJsonSchema entry.1 (path ++ "[" ++ toString entry.2 ++ "]") child

end

end FoundryLite.Mcp
