import FoundryLite.Library.Text
import FoundryLite.Ontology.Definition

/-!
# Function type definitions

A function type of an ontology is persisted in a canonical shape: every optional field is filled
with its default, and the parts a function may not have are refused. Migration planning compares
the persisted shape with the normalised candidate.
-/

namespace FoundryLite.Ontology.FunctionTypes

def supportedFunctionRuntimes : List String := ["logic_dag", "python", "typescript"]

/-- The runtimes whose definition is source text rather than a block graph. -/
def codeFunctionRuntimes : List String := ["python", "typescript"]

def functionDefaultTimeoutSeconds : ℤ := 60

def functionMaxTimeoutSeconds : ℤ := 280

def functionDataTypes : List String :=
  ["array", "attachment", "boolean", "date", "decimal", "float", "integer", "interface", "long",
    "media", "media_reference", "object", "objectSet", "ontology_edit_batch", "string", "struct",
    "timestamp"]

/-! ### Field readers

The readers of this part of the source have their own messages, and a default does not stand in
for an explicit null. -/

def requiredStr (mapping : Mapping) (key : String) : Checked String :=
  match mapping.lookup key with
  | some (.str value) =>
    if value = "" then validationFailed s!"function {key} must be a non-empty string"
    else pure value
  | _ => validationFailed s!"function {key} must be a non-empty string"

def optionalStr (mapping : Mapping) (key default : String) : Checked String :=
  match mapping.lookup key with
  | none => if default = "" then validationFailed s!"function {key} must be a non-empty string"
    else pure default
  | some _ => requiredStr mapping key

def optionalInt (mapping : Mapping) (key : String) (default : ℤ) : Checked ℤ :=
  match mapping.lookup key with
  | none => pure default
  | some (.int value) => pure value
  | some _ => validationFailed s!"function {key} must be an integer"

def requiredFlag (mapping : Mapping) : Checked Bool :=
  match mapping.lookup "required" with
  | none => pure false
  | some (.bool value) => pure value
  | some _ => validationFailed "function input required must be a boolean"

def requiredMapping (mapping : Mapping) (key apiName : String) : Checked Mapping :=
  match mapping.lookup key with
  | some (.obj value) => pure value
  | _ => validationFailed s!"function {key} must be a mapping" [("function", .str apiName)]

def optionalMapping (mapping : Mapping) (key apiName : String) : Checked Mapping :=
  match mapping.lookup key with
  | none => pure []
  | some .null => pure []
  | some _ => requiredMapping mapping key apiName

def mappingItem (key : String) : Json → Checked Mapping
  | .obj value => pure value
  | _ => validationFailed s!"function {key} entries must be mappings"

def mappingSequence (container : Mapping) (key : String) : Checked (List Mapping) :=
  match container.lookup key with
  | none => pure []
  | some .null => pure []
  | some (.arr items) => items.mapM (mappingItem key)
  | some _ => validationFailed s!"function {key} must be a list"

def stringItem (name : String) : Json → Checked String
  | .str value => pure value
  | _ => validationFailed s!"function {name} entries must be strings"

def stringSequence (value : Option Json) (name : String) : Checked (List String) :=
  match value with
  | none => pure []
  | some .null => pure []
  | some (.arr items) => items.mapM (stringItem name)
  | some _ => validationFailed s!"function {name} must be a list of strings"

def strings (values : List String) : Json := .arr (values.map .str)

/-- The entries of a list of mappings are smaller than the mapping that holds the list. -/
theorem sizeOf_lt_of_mem_mappingSequence {container : Mapping} {key : String}
    {rows : List Mapping} (h : mappingSequence container key = .ok rows) {row : Mapping}
    (hrow : row ∈ rows) : sizeOf row < sizeOf container := by
  rw [mappingSequence] at h
  split at h
  · obtain rfl : [] = rows := by simpa [pure, Except.pure] using h
    simp at hrow
  · obtain rfl : [] = rows := by simpa [pure, Except.pure] using h
    simp at hrow
  · next items hitems =>
    obtain ⟨item, hitem, hobj⟩ := List.exists_mem_of_mem_mapM_eq_ok h hrow
    have hlist := Dict.sizeOf_lookup_lt hitems
    have hmem := List.sizeOf_lt_of_mem hitem
    match item, hobj with
    | .obj value, hobj =>
      obtain rfl : value = row := by simpa [mappingItem] using hobj
      simp only [Json.obj.sizeOf_spec, Json.arr.sizeOf_spec] at hmem hlist
      omega
  · simp at h

/-! ### The parts of a definition -/

def requireFunctionDataType (container : Mapping) (apiName path : String) : Checked Unit := do
  let declared ← requiredStr container "type"
  if declared ∉ functionDataTypes then
    validationFailed "unsupported function data type"
      [("function", .str apiName), ("path", .str path), ("value", .str declared),
        ("allowed", strings functionDataTypes)]

/-- Keep a text field if it is there. -/
def keepStr (mapping : Mapping) (key : String) : Checked Mapping :=
  if (mapping.lookup key).isSome then do
    let value ← requiredStr mapping key
    pure [(key, .str value)]
  else pure []

def keepMapping (mapping : Mapping) (apiName key : String) : Checked Mapping :=
  if (mapping.lookup key).isSome then do
    let value ← requiredMapping mapping key apiName
    pure [(key, .obj value)]
  else pure []

def keepMimeTypes (mapping : Mapping) : Checked Mapping :=
  match mapping.lookup "allowedMimeTypes" with
  | none => pure []
  | some value => do
    let items ← stringSequence value "allowedMimeTypes"
    pure [("allowedMimeTypes", strings items)]

def keepMaxBytes (mapping : Mapping) : Checked Mapping :=
  if (mapping.lookup "maxBytes").isSome then do
    let value ← optionalInt mapping "maxBytes" 0
    pure [("maxBytes", .int value)]
  else pure []

/-- One input, or one field of a structured input. -/
def normalizedInput (inputDef : Mapping) (apiName path : String) : Checked Mapping := do
  requireFunctionDataType inputDef apiName path
  let inputApi ← requiredStr inputDef "apiName"
  let type ← requiredStr inputDef "type"
  let required ← requiredFlag inputDef
  let texts ← ["description", "objectType", "interfaceType", "itemType", "mediaSet",
    "render"].mapM (keepStr inputDef)
  let mappings ← ["default", "constraints"].mapM (keepMapping inputDef apiName)
  let mimeTypes ← keepMimeTypes inputDef
  let maxBytes ← keepMaxBytes inputDef
  let fields ←
    if (inputDef.lookup "fields").isSome then
      match _h : mappingSequence inputDef "fields" with
      | .error e => throw e
      | .ok rows => do
        let items ← rows.attach.mapM fun ⟨row, _hrow⟩ => do
          let fieldApi ← requiredStr row "apiName"
          normalizedInput row apiName (path ++ ".fields." ++ fieldApi)
        pure [("fields", Json.arr (items.map .obj))]
    else pure []
  pure ([("apiName", .str inputApi), ("type", .str type), ("required", .bool required)] ++
    texts.flatten ++ mappings.flatten ++ mimeTypes ++ maxBytes ++ fields)
termination_by sizeOf inputDef
decreasing_by exact sizeOf_lt_of_mem_mappingSequence _h _hrow

def normalizedInputs (item : Mapping) (apiName : String) : Checked (List Mapping) := do
  let inputs ← mappingSequence item "inputs"
  let result ← inputs.foldlM (fun (seen, normalized) inputDef => do
    let inputApi ← requiredStr inputDef "apiName"
    if inputApi ∈ seen then
      validationFailed "duplicate function input apiName"
        [("function", .str apiName), ("input", .str inputApi)]
    let input ← normalizedInput inputDef apiName ("inputs." ++ inputApi)
    pure (seen ++ [inputApi], normalized ++ [input])) (([] : List String), ([] : List Mapping))
  pure result.2

def normalizedOutput (item : Mapping) (apiName : String) : Checked Mapping := do
  let output ← requiredMapping item "output" apiName
  requireFunctionDataType output apiName "output"
  let type ← requiredStr output "type"
  pure [("type", .str type)]

def normalizedBlock (apiName : String) (block : Mapping) : Checked Mapping := do
  let blockId ← requiredStr block "blockId"
  let kind ← requiredStr block "kind"
  let inputs ← optionalMapping block "inputs" apiName
  let dependsOn ← stringSequence (block.lookup "dependsOn") "dependsOn"
  pure [("blockId", .str blockId), ("kind", .str kind), ("inputs", .obj inputs),
    ("dependsOn", strings dependsOn)]

/-- A tool spec with every default filled in. -/
def normalizedTool (apiName : String) (tool : Mapping) : Checked Mapping := do
  let toolId ← requiredStr tool "toolId"
  let version ← requiredStr tool "version"
  let inputSchema ← optionalMapping tool "inputSchema" apiName
  let outputSchema ← optionalMapping tool "outputSchema" apiName
  let effect ← optionalStr tool "effect" "READ"
  let requiredPermission ← optionalStr tool "requiredPermission" "object:read"
  let confirmationPolicy ← optionalStr tool "confirmationPolicy" "NONE"
  let objectTypes ← stringSequence (tool.lookup "objectTypeAllowlist") "objectTypeAllowlist"
  let properties ← stringSequence (tool.lookup "propertyAllowlist") "propertyAllowlist"
  let timeoutSeconds ← optionalInt tool "timeoutSeconds" 30
  let maxResultItems ← optionalInt tool "maxResultItems" 50
  let resultClassification ← optionalStr tool "resultClassification" "public"
  let status ← optionalStr tool "status" "published"
  pure [("toolId", .str toolId), ("version", .str version), ("inputSchema", .obj inputSchema),
    ("outputSchema", .obj outputSchema), ("effect", .str effect),
    ("requiredPermission", .str requiredPermission),
    ("confirmationPolicy", .str confirmationPolicy), ("objectTypeAllowlist", strings objectTypes),
    ("propertyAllowlist", strings properties), ("timeoutSeconds", .int timeoutSeconds),
    ("maxResultItems", .int maxResultItems), ("resultClassification", .str resultClassification),
    ("status", .str status)]

def normalizedLogic (item : Mapping) (apiName : String) : Checked Mapping := do
  let logic ← requiredMapping item "definition" apiName
  let blockRows ← mappingSequence logic "blocks"
  let blocks ← blockRows.mapM (normalizedBlock apiName)
  if blocks.isEmpty then
    validationFailed "function definition must declare blocks" [("function", .str apiName)]
  let toolRows ← mappingSequence logic "tools"
  let tools ← toolRows.mapM (normalizedTool apiName)
  pure [("blocks", .arr (blocks.map .obj)), ("tools", .arr (tools.map .obj))]

def normalizedSource (item : Mapping) (apiName : String) : Checked Mapping := do
  let definition ← requiredMapping item "definition" apiName
  let source ← requiredStr definition "source"
  if Text.isBlank source then
    validationFailed "function source must not be blank" [("function", .str apiName)]
  if (definition.lookup "blocks").isSome then
    validationFailed "a code function cannot declare Logic DAG blocks" [("function", .str apiName)]
  let entrypoint ← optionalStr definition "entrypoint" "compute"
  pure [("source", .str source), ("entrypoint", .str entrypoint)]

/-- A code function carries source, a logic function carries blocks. -/
def normalizedRuntimeDefinition (item : Mapping) (apiName runtime : String) : Checked Mapping :=
  if runtime ∈ codeFunctionRuntimes then normalizedSource item apiName
  else normalizedLogic item apiName

def functionRuntime (item : Mapping) (apiName : String) : Checked String := do
  let runtime ← requiredStr item "runtime"
  if runtime ∉ supportedFunctionRuntimes then
    validationFailed "unsupported function runtime"
      [("function", .str apiName), ("value", .str runtime),
        ("allowed", strings supportedFunctionRuntimes)]
  pure runtime

def functionTimeoutSeconds (item : Mapping) (apiName : String) : Checked ℤ := do
  let timeout ← optionalInt item "timeoutSeconds" functionDefaultTimeoutSeconds
  if timeout < 1 ∨ timeout > functionMaxTimeoutSeconds then
    validationFailed "function timeout is outside the permitted range"
      [("function", .str apiName), ("value", .int timeout),
        ("max", .int functionMaxTimeoutSeconds)]
  pure timeout

def normalizedPermissions (item : Mapping) (apiName : String) : Checked (Option Mapping) :=
  match item.lookup "permissions" with
  | none => pure none
  | some .null => pure none
  | some _ => do
    let permissions ← optionalMapping item "permissions" apiName
    match permissions.lookup "allowedRoles" with
    | none => pure (some permissions)
    | some .null => pure (some permissions)
    | some roles => do
      let allowed ← stringSequence roles "permissions.allowedRoles"
      pure (some (Dict.insertEntry "allowedRoles" (strings allowed) (Dict.canon permissions)))

/-- **The canonical persisted payload of one `functionTypes` entry.** -/
def normalizedFunctionDefinition (item : Mapping) : Checked Mapping := do
  let apiName ← requiredStr item "apiName"
  let runtime ← functionRuntime item apiName
  let displayName ← optionalStr item "displayName" apiName
  let version ← optionalStr item "version" "v1"
  let inputs ← normalizedInputs item apiName
  let output ← normalizedOutput item apiName
  let definition ← normalizedRuntimeDefinition item apiName runtime
  let timeoutSeconds ← functionTimeoutSeconds item apiName
  let permissions ← normalizedPermissions item apiName
  pure ([("apiName", .str apiName), ("displayName", .str displayName), ("version", .str version),
    ("runtime", .str runtime), ("inputs", .arr (inputs.map .obj)), ("output", .obj output),
    ("definition", .obj definition), ("timeoutSeconds", .int timeoutSeconds)] ++
    match permissions with
    | none => []
    | some permissions => [("permissions", .obj permissions)])

end FoundryLite.Ontology.FunctionTypes
