import FoundryLite.Errors
import FoundryLite.Library.JsonText
import FoundryLite.Library.Runs

/-!
# Privacy transforms

A plan says field by field what becomes of the values of a dataset's rows. A pseudonym is a keyed digest
of the JSON text of the field, the scope and the value; a value that JSON has no form for stands there
with its text as a string. A reversible pseudonym is stored with the value it stands for, under the
tenant, the plan's version, the field, the scope and the pseudonym. What is stored under a key last is
what a lookup finds.
-/

namespace FoundryLite.Security.Privacy

open JsonText

/-! ### Values -/

/-- A value of a row. `F` are the floating-point numbers, `O` the values that JSON has no form for: dates,
decimals and the like. -/
inductive Cell (F O : Type)
  | null
  | bool (b : Bool)
  | int (n : ℤ)
  | float (f : F)
  | str (text : String)
  | object (o : O)
  | list (items : List (Cell F O))
  | dict (fields : List (String × Cell F O))

/-- The text forms of values, and the digests. -/
structure Texts (F O : Type) where
  /-- `float.__repr__`, or what `json` writes for the floats that are no numbers. -/
  floatText : F → List Char
  float_token : ∀ f, Token (floatText f)
  /-- A float is determined by its text. -/
  float_injective : Function.Injective floatText
  float_ne_int : ∀ f n, floatText f ≠ intToken n
  /-- `str` of a value that JSON has no form for. -/
  objectText : O → String
  /-- The hexadecimal HMAC-SHA256 of a text under a key. -/
  hmac : String → List Char → String
  /-- The hexadecimal SHA-256 of a text. -/
  sha256 : List Char → String
  redactTextPii : String → String

variable {F O : Type}

mutual

/-- What `json.dumps` makes of a value, with sorted keys and `str` for what has no JSON form. -/
def cellDoc (texts : Texts F O) : Cell F O → Doc
  | .null => .null
  | .bool b => .bool b
  | .int n => .num (intToken n)
  | .float f => .num (texts.floatText f)
  | .str text => .str text
  | .object o => .str (texts.objectText o)
  | .list items => .arr (itemDocs texts items)
  | .dict fields => .obj (Dict.canon (fieldDocs texts fields))

def itemDocs (texts : Texts F O) : List (Cell F O) → List Doc
  | [] => []
  | item :: items => cellDoc texts item :: itemDocs texts items

def fieldDocs (texts : Texts F O) : List (String × Cell F O) → List (String × Doc)
  | [] => []
  | (key, value) :: fields => (key, cellDoc texts value) :: fieldDocs texts fields

end

mutual

/-- A value with the keys of its dictionaries in order. -/
def norm : Cell F O → Cell F O
  | .list items => .list (normItems items)
  | .dict fields => .dict (Dict.canon (normFields fields))
  | value => value

def normItems : List (Cell F O) → List (Cell F O)
  | [] => []
  | item :: items => norm item :: normItems items

def normFields : List (String × Cell F O) → List (String × Cell F O)
  | [] => []
  | (key, value) :: fields => (key, norm value) :: normFields fields

end

/-- The same value: the order in which a dictionary was filled is no part of it. -/
def Same (a b : Cell F O) : Prop := norm a = norm b

/-! ### Plans -/

inductive PrivacyTransformMode
  | passthrough
  | pseudonymize
  | anonymize
  | redactText
  deriving DecidableEq

def PrivacyTransformMode.text : PrivacyTransformMode → String
  | .passthrough => "passthrough"
  | .pseudonymize => "pseudonymize"
  | .anonymize => "anonymize"
  | .redactText => "redact_text"

structure PrivacyFieldRule where
  fieldName : String
  mode : PrivacyTransformMode
  scope : String := "tenant"
  isReversible : Bool := false

structure PrivacyTransformPlan where
  planName : String
  salt : String
  rules : List PrivacyFieldRule

/-- The first characters of a digest. -/
def truncated (length : ℕ) (digest : String) : String := String.ofList (digest.toList.take length)

/-- `PrivacyTransformPlan.version`. -/
def PrivacyTransformPlan.version (texts : Texts F O) (plan : PrivacyTransformPlan) : String :=
  "privacy:v1:" ++ truncated 16 (texts.sha256 (render (.obj [("planName", .str plan.planName),
    ("rules", .arr (plan.rules.map fun rule => .obj [("fieldName", .str rule.fieldName),
      ("isReversible", .bool rule.isReversible), ("mode", .str rule.mode.text),
      ("scope", .str rule.scope)])),
    ("saltFingerprint", .str (truncated 12 (texts.sha256 plan.salt.toList)))])))

/-- `rules.get` of `transform_privacy_rows`: the last rule of a field. -/
def PrivacyTransformPlan.ruleOf (plan : PrivacyTransformPlan) (fieldName : String) :
    Option PrivacyFieldRule :=
  plan.rules.reverse.find? fun rule => rule.fieldName = fieldName

/-- `_effective_scope`. -/
def effectiveScope (tenantId : String) (rule : PrivacyFieldRule) : String :=
  if rule.scope = "tenant" then tenantId else rule.scope

/-! ### The mapping store -/

/-- `PrivacyMappingRecord.key`. -/
structure MappingKey where
  tenantId : String
  planVersion : String
  fieldName : String
  scope : String
  pseudonym : String
  deriving DecidableEq

structure PrivacyMappingRecord (F O : Type) where
  key : MappingKey
  originalValue : Cell F O

/-- `_records` of `InMemoryProtectedPrivacyMappingStore`, the last stored in front. -/
abbrev MappingStore (F O : Type) := List (MappingKey × PrivacyMappingRecord F O)

/-- `store_mapping`. -/
def storeMapping (store : MappingStore F O) (record : PrivacyMappingRecord F O) : MappingStore F O :=
  (record.key, record) :: store

/-- `get_original_value`. -/
def getOriginalValue (store : MappingStore F O) (key : MappingKey) : Option (Cell F O) :=
  (store.lookup key).map PrivacyMappingRecord.originalValue

/-! ### Replication -/

structure PrivacyReplicationPolicy where
  sourceEnvironment : String
  targetEnvironment : String
  sensitiveFields : List String
  allowedTargetEnvironments : List String :=
    ["staging", "analytics", "ai_experiment", "development", "test"]
  productionEnvironment : String := "production"

/-- `PRIVACY_PROTECTING_MODES`. -/
def protectingModes : List PrivacyTransformMode := [.pseudonymize, .anonymize, .redactText]

/-- `_unprotected_sensitive_fields`. -/
def unprotectedSensitiveFields (sensitiveFields : List String) (plan : PrivacyTransformPlan) :
    List String :=
  sensitiveFields.filter fun fieldName => ((plan.ruleOf fieldName).all fun rule => rule.mode ∉ protectingModes)

/-- `validate_privacy_replication_policy` of a call with a plan: whether it is allowed, and why. -/
def validatePrivacyReplicationPolicy (policy : PrivacyReplicationPolicy) (plan : PrivacyTransformPlan) :
    Bool × String :=
  if policy.sourceEnvironment ≠ policy.productionEnvironment then (true, "non_production_source")
  else if policy.sourceEnvironment = policy.targetEnvironment then (true, "same_environment")
  else if policy.targetEnvironment ∉ policy.allowedTargetEnvironments then
    (false, "target_environment_not_allowed")
  else if unprotectedSensitiveFields policy.sensitiveFields plan ≠ [] then
    (false, "sensitive_fields_unprotected")
  else (true, "privacy_transform_applied")

/-! ### One call -/

section Transform

variable (texts : Texts F O) (tenantId : String) (plan : PrivacyTransformPlan)

/-- `_pseudonym_message`. -/
def pseudonymMessage (fieldName scope : String) (value : Cell F O) : List Char :=
  render (.obj [("fieldName", .str fieldName), ("scope", .str scope), ("value", cellDoc texts value)])

/-- `_pseudonym`, under a salt. -/
def pseudonymOf (salt : String) (message : List Char) : String :=
  "pseudonym:" ++ truncated 24 (texts.hmac salt message)

/-- The record of `_store_reversible_mapping`. -/
def reversibleMapping (rule : PrivacyFieldRule) (value : Cell F O) : PrivacyMappingRecord F O where
  key :=
    { tenantId
      planVersion := plan.version texts
      fieldName := rule.fieldName
      scope := effectiveScope tenantId rule
      pseudonym := pseudonymOf texts plan.salt
        (pseudonymMessage texts rule.fieldName (effectiveScope tenantId rule) value) }
  originalValue := value

/-- What a part of a call comes to, and the mappings that it stores, in order. -/
structure Transformed (F O α : Type) where
  /-- The result, or the text of the `ValueError`. -/
  result : Except String α
  stored : List (PrivacyMappingRecord F O) := []

/-- `_transform_value`. -/
def transformValue (hasStore : Bool) (rule : PrivacyFieldRule) (value : Cell F O) :
    Transformed F O (Cell F O) :=
  match rule.mode, value with
  | .passthrough, value => { result := .ok value }
  | _, .null => { result := .ok .null }
  | .pseudonymize, value =>
    let record := reversibleMapping texts tenantId plan rule value
    if rule.isReversible then
      if hasStore then { result := .ok (.str record.key.pseudonym), stored := [record] }
      else { result := .error "reversible privacy mapping requires a protected mapping store" }
    else { result := .ok (.str record.key.pseudonym) }
  | .anonymize, _ => { result := .ok (.str "***ANONYMIZED***") }
  | .redactText, .str text => { result := .ok (.str (texts.redactTextPii text)) }
  | .redactText, _ => { result := .error "redact_text privacy field requires a string value" }

/-- One part after another, unless the first fails. -/
def Transformed.andThen {α β : Type} (first : Transformed F O α) (rest : α → Transformed F O β) :
    Transformed F O β :=
  match first.result with
  | .error message => { result := .error message, stored := first.stored }
  | .ok a => { result := (rest a).result, stored := first.stored ++ (rest a).stored }

abbrev Row (F O : Type) := List (String × Cell F O)

/-- A field of `_transform_row`. -/
def transformField (hasStore : Bool) (fieldName : String) (value : Cell F O) : Transformed F O (Cell F O) :=
  match plan.ruleOf fieldName with
  | none => { result := .ok value }
  | some rule => transformValue texts tenantId plan hasStore rule value

/-- `_transform_row`. -/
def transformRow (hasStore : Bool) : Row F O → Transformed F O (Row F O)
  | [] => { result := .ok [] }
  | (fieldName, value) :: row =>
    (transformField texts tenantId plan hasStore fieldName value).andThen fun emitted =>
    (transformRow hasStore row).andThen fun transformed =>
    { result := .ok ((fieldName, emitted) :: transformed) }

def transformRows (hasStore : Bool) : List (Row F O) → Transformed F O (List (Row F O))
  | [] => { result := .ok [] }
  | row :: rows =>
    (transformRow texts tenantId plan hasStore row).andThen fun transformed =>
    (transformRows hasStore rows).andThen fun others => { result := .ok (transformed :: others) }

end Transform

/-- The arguments of a call, apart from the names of the dataset references. -/
structure Call (F O : Type) where
  rows : List (Row F O)
  tenantId : String
  plan : PrivacyTransformPlan
  hasStore : Bool := true
  replicationPolicy : Option PrivacyReplicationPolicy := none
  hasSourceDataset : Bool := false
  hasTargetDataset : Bool := false

/-- `transform_privacy_rows`: the rows. -/
def transformPrivacyRows (texts : Texts F O) (call : Call F O) : Transformed F O (List (Row F O)) :=
  if call.hasSourceDataset ≠ call.hasTargetDataset then
    { result := .error "privacy dataset lineage requires both source and target dataset refs" }
  else
    match call.replicationPolicy.map fun policy => validatePrivacyReplicationPolicy policy call.plan with
    | some (false, reason) => { result := .error s!"privacy replication denied: {reason}" }
    | _ => transformRows texts call.tenantId call.plan call.hasStore call.rows

/-! ### Many calls -/

/-- A mapping as it was stored, with the salt of its call. -/
structure Written (F O : Type) where
  salt : String
  record : PrivacyMappingRecord F O

/-- A call that returned rows. -/
structure Answered (F O : Type) where
  call : Call F O
  transformed : List (Row F O)

structure State (F O : Type) where
  store : MappingStore F O := []
  written : List (Written F O) := []
  answered : List (Answered F O) := []

/-- A call. What it has stored before it fails stays stored. -/
def next (texts : Texts F O) (s : State F O) (call : Call F O) : Option (State F O) :=
  let outcome := transformPrivacyRows texts call
  some
    { store := outcome.stored.foldl storeMapping s.store
      written := s.written ++ outcome.stored.map fun record => ⟨call.plan.salt, record⟩
      answered :=
        match outcome.result with
        | .ok transformed => ⟨call, transformed⟩ :: s.answered
        | .error _ => s.answered }

end FoundryLite.Security.Privacy
