import FoundryLite.Ontology.Datasources

/-!
# Reading ontology YAML

A definition is applied from YAML text. The readers here take fields out of the decoded document,
and `objectTypeBacking` takes the backing of an object type: one dataset, or several datasources
that may not be mixed with a top-level dataset.
-/

namespace FoundryLite.Ontology.Yaml

def yamlObject (field : String) : Json → Checked Mapping
  | .obj fields => pure fields
  | _ => validationFailed s!"{field} must be a mapping"

def mappingSequence (container : Mapping) (key : String) : Checked (List Mapping) :=
  match container.lookup key with
  | none => pure []
  | some .null => pure []
  | some (.arr items) => items.zipIdx.mapM fun (item, index) => yamlObject s!"{key}[{index}]" item
  | some _ => validationFailed s!"{key} must be a list"

def requiredMapping (container : Mapping) (key : String) : Checked Mapping :=
  match container.lookup key with
  | none => validationFailed s!"{key} is required"
  | some value => yamlObject key value

def optionalMapping (container : Mapping) (key : String) : Checked (Option Mapping) :=
  match container.lookup key with
  | none => pure none
  | some .null => pure none
  | some value => some <$> yamlObject key value

def requiredStr (container : Mapping) (key : String) : Checked String :=
  match container.lookup key with
  | some (.str value) =>
    if value = "" then validationFailed s!"{key} must be a non-empty string" else pure value
  | _ => validationFailed s!"{key} must be a non-empty string"

def optionalStr (container : Mapping) (key : String) (default : Option String := none) :
    Checked (Option String) :=
  match container.lookup key with
  | none => pure default
  | some .null => pure none
  | some (.str value) => pure (some value)
  | some _ => validationFailed s!"{key} must be a string"

def stringItem (field : String) : Json × ℕ → Checked String
  | (.str value, _) => pure value
  | (_, index) => validationFailed s!"{field} entries must be strings" [("index", .int index)]

def stringSequence (value : Json) (field : String) : Checked (List String) :=
  match value with
  | .arr items => items.zipIdx.mapM (stringItem field)
  | _ => validationFailed s!"{field} must be a list of strings"

/-! ### Backings -/

def strings (values : List String) : Json := .arr (values.map .str)

/-- A member of a payload, when there is a value for it. -/
def member (key : String) (value : Option Json) : Mapping :=
  match value with
  | none => []
  | some value => [(key, value)]

def objectTypeCdcBacking (cdc : Mapping) : Checked Mapping := do
  let dataset ← requiredStr cdc "dataset"
  let columns ← (cdc.lookup "primaryKeyColumns").mapM fun value =>
    stringSequence value "cdc.primaryKeyColumns"
  let deletePolicy ← optionalStr cdc "deletePolicy"
  return [("dataset", .str dataset)] ++ member "primaryKeyColumns" (columns.map strings) ++
    member "deletePolicy" (deletePolicy.map .str)

def singleDatasetBacking (backing : Mapping) : Checked Mapping := do
  let dataset ← requiredStr backing "dataset"
  let mode ← optionalStr backing "mode"
  let columns ← (backing.lookup "primaryKeyColumns").mapM fun value =>
    stringSequence value "primaryKeyColumns"
  let cdc ← optionalMapping backing "cdc"
  let cdcBacking ← cdc.mapM objectTypeCdcBacking
  return [("dataset", .str dataset)] ++ member "mode" (mode.map .str) ++
    member "primaryKeyColumns" (columns.map strings) ++ member "cdc" (cdcBacking.map .obj)

def datasourceKeyColumns (name : String) (index : ℕ) (value : Json) : Checked (List String) := do
  let columns ← stringSequence value s!"datasources[{index}].primaryKeyColumns"
  rejectIf (columns.length ≠ 1) "datasource primaryKeyColumns must declare exactly one column"
    [("datasource", .str name)]
  return columns

def backingDatasource : Mapping × ℕ → Checked Json := fun (entry, index) => do
  let name ← requiredStr entry "name"
  let dataset ← requiredStr entry "dataset"
  let columns ← (entry.lookup "primaryKeyColumns").mapM (datasourceKeyColumns name index)
  let requiredRole ← optionalStr entry "requiredRole"
  rejectIf (requiredRole = some "") "datasource requiredRole must be a non-empty string"
  return .obj ([("name", .str name), ("dataset", .str dataset)] ++
    member "primaryKeyColumns" (columns.map strings) ++
    member "requiredRole" (requiredRole.map .str))

/-- CDC is single-datasource only, and a top-level dataset would be a second declaration. -/
def multiDatasourceBacking (backing : Mapping) : Checked Mapping := do
  rejectIf ((backing.lookup "cdc").getD .null ≠ .null)
    "cdc backing requires a single-datasource object type"
  for field in ["dataset", "primaryKeyColumns"] do
    rejectIf (backing.lookup field).isSome
      "backing cannot mix datasources with a top-level dataset declaration"
      [("field", .str field)]
  let entries ← mappingSequence backing "datasources"
  let datasources ← entries.zipIdx.mapM backingDatasource
  rejectIf (datasources = []) "backing datasources must declare at least one datasource"
  let mode ← optionalStr backing "mode"
  return [("datasources", .arr datasources)] ++ member "mode" (mode.map .str)

/-- The backing payload of an object type. -/
def objectTypeBacking (item : Mapping) : Checked Mapping := do
  let backing ← requiredMapping item "backing"
  if (backing.lookup "datasources").getD .null = .null then singleDatasetBacking backing
  else multiDatasourceBacking backing

end FoundryLite.Ontology.Yaml
