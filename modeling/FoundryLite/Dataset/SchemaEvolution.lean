import FoundryLite.Serialiser

/-!
# Evolution of dataset schemas

A commit to a dataset brings a schema, read off its files. The schema is compared with that of the
latest version, column by column, and the commit is refused if a change is blocked. Types are
compared by their logical type, which is the lower-case name of the type up to aliases.

A file whose column holds nulls only says `null` for its type. The candidate is not committed like
this: a column that had a type before keeps it (`resolveInferredNullTypes`), and what is compared,
and stored, is the resolved schema.
-/

namespace FoundryLite.Dataset

/-! ### Text -/

/-- `str.lower`, of a text in ASCII. -/
def lowerAscii (text : String) : String := String.ofList (text.toList.map Char.toLower)

/-- The text forms of values, with `str.lower`. -/
structure TextForms extends Serialiser where
  lower : String → String
  lower_ascii : ∀ text, text.toList.all (fun c => c.toNat < 128) = true → lower text = lowerAscii text
  /-- What was lowered is in lower case. -/
  lower_lower : ∀ text, lower (lower text) = lower text

/-- `{**mapping, key: value}`: a key that is there keeps its place. -/
def setItem {β : Type} (key : String) (value : β) : List (String × β) → List (String × β)
  | [] => [(key, value)]
  | (k, v) :: rest => if k = key then (key, value) :: rest else (k, v) :: setItem key value rest

/-! ### Columns -/

abbrev SchemaColumn := Mapping

abbrev ColumnsByName := List (String × SchemaColumn)

def schemaColumn (value : Json) (index : ℕ) : Checked SchemaColumn :=
  match value with
  | .obj column => return column
  | _ => validationFailed "dataset schema column must be a mapping" [("index", .int index)]

def columnName (column : SchemaColumn) (index : ℕ) : Checked String :=
  match column.lookup "name" with
  | some (.str name) => do
    rejectIf (name = "") "dataset schema column name must be a non-empty string"
      [("index", .int index)]
    return name
  | _ =>
    validationFailed "dataset schema column name must be a non-empty string" [("index", .int index)]

def addColumn (columns : ColumnsByName) (entry : Json × ℕ) : Checked ColumnsByName := do
  let column ← schemaColumn entry.1 entry.2
  let name ← columnName column entry.2
  return setItem name column columns

/-- The columns by name; of two with one name the later. -/
def schemaColumnsByName (schema : Mapping) : Checked ColumnsByName :=
  match schema.lookup "columns" with
  | some (.arr columns) => columns.zipIdx.foldlM addColumn []
  | _ => validationFailed "dataset schema columns must be a list"

section

variable (env : TextForms)

def typeAliases : List (String × String) :=
  [("bigint", "long"), ("bool", "boolean"), ("date", "timestamp"), ("datetime", "timestamp"),
    ("decimal", "float"), ("double", "float"), ("int", "integer"), ("long", "long"),
    ("real", "float")]

def columnType (column : SchemaColumn) : String :=
  let rawType := env.lower (env.str ((column.lookup "type").getD (.str "string")))
  (typeAliases.lookup rawType).getD rawType

def nullable (column : SchemaColumn) : Bool :=
  match column.lookup "nullable" with
  | some (.bool value) => value
  | _ => true

def hasDefault (column : SchemaColumn) : Bool :=
  ["default", "defaultValue", "backfillDefault"].any fun key => (column.lookup key).isSome

def renameSource (column : SchemaColumn) : Option String :=
  let renamedFrom := (column.lookup "renamedFrom").getD .null
  let value :=
    if renamedFrom.isTruthy then renamedFrom else (column.lookup "previousName").getD .null
  match value with
  | .str source => if source = "" then none else some source
  | _ => none

def isDeprecated (column : SchemaColumn) : Bool :=
  match column.lookup "deprecated" with
  | some (.bool value) => value
  | _ => false

def numericWideningRank : List (String × ℕ) := [("integer", 1), ("long", 2), ("float", 3)]

def isTypeWidening (previousType nextType : String) : Bool :=
  match numericWideningRank.lookup previousType, numericWideningRank.lookup nextType with
  | some previousRank, some nextRank => previousRank < nextRank
  | _, _ => false

def schemaPrimaryKey (schema : Mapping) : List String :=
  match schema.lookup "primary_key" with
  | some (.arr items) => items.map env.str
  | _ => []

/-! ### Changes -/

inductive ChangeKind where
  | dropColumn | renameColumn | addRequiredColumnWithoutDefault | addRequiredColumnWithDefault
  | addNullableColumn | resolveNullType | typeWidening | typeChange | tightenNullability
  | relaxNullability | deprecateColumn | primaryKeyChange
  deriving DecidableEq

def ChangeKind.text : ChangeKind → String
  | .dropColumn => "drop_column"
  | .renameColumn => "rename_column"
  | .addRequiredColumnWithoutDefault => "add_required_column_without_default"
  | .addRequiredColumnWithDefault => "add_required_column_with_default"
  | .addNullableColumn => "add_nullable_column"
  | .resolveNullType => "resolve_null_type"
  | .typeWidening => "type_widening"
  | .typeChange => "type_change"
  | .tightenNullability => "tighten_nullability"
  | .relaxNullability => "relax_nullability"
  | .deprecateColumn => "deprecate_column"
  | .primaryKeyChange => "primary_key_change"

inductive ChangeStatus where
  | blocked | warning | compatible
  deriving DecidableEq

def ChangeStatus.text : ChangeStatus → String
  | .blocked => "blocked"
  | .warning => "warning"
  | .compatible => "compatible"

/-- One schema change, classified for compatibility. -/
structure SchemaEvolutionChange where
  kind : ChangeKind
  column : String
  status : ChangeStatus
  reason : String
  previousType : Option String := none
  nextType : Option String := none
  requireBackfill : Bool := false
  deriving DecidableEq

def SchemaEvolutionChange.toPayload (change : SchemaEvolutionChange) : Mapping :=
  [("kind", .str change.kind.text), ("column", .str change.column),
    ("status", .str change.status.text), ("reason", .str change.reason)] ++
    (change.previousType.toList.map fun type => ("previousType", .str type)) ++
    (change.nextType.toList.map fun type => ("nextType", .str type)) ++
    (if change.requireBackfill then [("requiresBackfill", .bool true)] else [])

structure SchemaEvolutionPlan where
  changes : List SchemaEvolutionChange

namespace SchemaEvolutionPlan

variable (plan : SchemaEvolutionPlan)

def blockingChanges : List SchemaEvolutionChange :=
  plan.changes.filter fun change => change.status = .blocked

def warningChanges : List SchemaEvolutionChange :=
  plan.changes.filter fun change => change.status = .warning

def status : String :=
  if plan.blockingChanges ≠ [] then "blocked"
  else if plan.warningChanges ≠ [] then "compatible_with_warning"
  else "compatible"

/-- The payload of a failed check, if a change is blocked. -/
def failure : Option Mapping :=
  if plan.blockingChanges = [] then none
  else
    some
      [("check", .str "schema_compatibility"), ("status", .str "failed"),
        ("compatibilityStatus", .str plan.status),
        ("consumerCompatibility", .str "blocked_until_schema_migration_plan"),
        ("changes", .arr (plan.changes.map fun change => .obj change.toPayload)),
        ("blockedChanges", .arr (plan.blockingChanges.map fun change => .obj change.toPayload))]

end SchemaEvolutionPlan

/-- `sorted(columns.items())`. -/
def sortedColumns (columns : ColumnsByName) : List (String × SchemaColumn) :=
  (Dict.ofList columns).entries

def removedColumns (current next : ColumnsByName) : List SchemaEvolutionChange :=
  ((sortedColumns current).filter fun entry => (next.lookup entry.1).isNone).map fun entry =>
    { kind := .dropColumn, column := entry.1, status := .blocked
      reason := "column deletion can break transforms, ontology mappings, and consumers"
      previousType := some (columnType env entry.2) }

def addedColumnChange (name : String) (column : SchemaColumn) : SchemaEvolutionChange :=
  if (renameSource column).isSome then
    { kind := .renameColumn, column := name, status := .blocked
      reason := "renames require an explicit migration plan and consumer mapping"
      nextType := some (columnType env column) }
  else if nullable column = false ∧ hasDefault column = false then
    { kind := .addRequiredColumnWithoutDefault, column := name, status := .blocked
      reason := "new non-null columns require a default or backfill before old writers can coexist"
      nextType := some (columnType env column), requireBackfill := true }
  else if nullable column = false then
    { kind := .addRequiredColumnWithDefault, column := name, status := .warning
      reason := "existing rows need a deterministic backfill/default proof"
      nextType := some (columnType env column), requireBackfill := true }
  else
    { kind := .addNullableColumn, column := name, status := .compatible
      reason := "nullable column addition is backward-compatible"
      nextType := some (columnType env column) }

def addedColumns (current next : ColumnsByName) : List SchemaEvolutionChange :=
  ((sortedColumns next).filter fun entry => (current.lookup entry.1).isNone).map fun entry =>
    addedColumnChange env entry.1 entry.2

def columnTypeChanges (name : String) (current next : SchemaColumn) :
    List SchemaEvolutionChange :=
  let previousType := columnType env current
  let nextType := columnType env next
  if previousType = nextType then []
  else if previousType = "null" then
    [{ kind := .resolveNullType, column := name, status := .compatible
       reason := "earlier snapshots contained only null values and established no conflicting " ++
         "logical type"
       previousType := some previousType, nextType := some nextType }]
  else if nextType = "null" then []
  else if isTypeWidening previousType nextType then
    [{ kind := .typeWidening, column := name, status := .warning
       reason := "numeric widening is compatible but downstream schema hashes should refresh"
       previousType := some previousType, nextType := some nextType }]
  else
    [{ kind := .typeChange, column := name, status := .blocked
       reason := "type narrowing or incompatible type changes can break consumers"
       previousType := some previousType, nextType := some nextType }]

def columnNullabilityChanges (name : String) (current next : SchemaColumn) :
    List SchemaEvolutionChange :=
  if nullable current = true ∧ nullable next = false then
    [{ kind := .tightenNullability, column := name, status := .blocked
       reason := "nullable to non-null requires full validation and a backfill plan"
       previousType := some (columnType env current), nextType := some (columnType env next)
       requireBackfill := true }]
  else if nullable current = false ∧ nullable next = true then
    [{ kind := .relaxNullability, column := name, status := .warning
       reason := "non-null to nullable is compatible but downstream checks should refresh"
       nextType := some (columnType env next) }]
  else []

def deprecatedColumnChanges (name : String) (current next : SchemaColumn) :
    List SchemaEvolutionChange :=
  if isDeprecated next = true ∧ isDeprecated current = false then
    [{ kind := .deprecateColumn, column := name, status := .warning
       reason := "deprecated fields stay readable while consumers migrate"
       nextType := some (columnType env next) }]
  else []

def changedColumns (current next : ColumnsByName) : List SchemaEvolutionChange :=
  (sortedColumns current).flatMap fun (name, column) =>
    match next.lookup name with
    | none => []
    | some nextColumn =>
      columnTypeChanges env name column nextColumn ++
        columnNullabilityChanges env name column nextColumn ++
        deprecatedColumnChanges env name column nextColumn

def blockedPrimaryKeyChange (column reason : String) : SchemaEvolutionChange :=
  { kind := .primaryKeyChange, column, status := .blocked, reason }

def primaryKeyChanges (currentSchema nextSchema : Mapping) (next : ColumnsByName)
    (primaryKey : List String) : List SchemaEvolutionChange :=
  let missing := (primaryKey.filter fun pk => (next.lookup pk).isNone).map fun pk =>
    blockedPrimaryKeyChange pk "primary key column is missing from the next schema"
  if schemaPrimaryKey env currentSchema = schemaPrimaryKey env nextSchema then missing
  else
    missing ++ [blockedPrimaryKeyChange (String.intercalate "," primaryKey)
      "primary key changes require a new dataset"]

/-- Classify a candidate schema against the latest committed schema. -/
def planSchemaEvolution (currentSchema nextSchema : Mapping) (primaryKey : List String) :
    Checked SchemaEvolutionPlan := do
  let current ← schemaColumnsByName currentSchema
  let next ← schemaColumnsByName nextSchema
  return ⟨removedColumns env current next ++ addedColumns env current next ++
    changedColumns env current next ++
    primaryKeyChanges env currentSchema nextSchema next primaryKey⟩

/-! ### Null types -/

def resolvedColumn (current : ColumnsByName) (name : String) (column : SchemaColumn) :
    SchemaColumn :=
  match current.lookup name with
  | none => column
  | some previous =>
    if columnType env column = "null" ∧ columnType env previous ≠ "null" then
      setItem "type" (.str (columnType env previous)) column
    else column

/-- Keep a known logical type when a new snapshot contains only null values. -/
def resolveInferredNullTypes (currentSchema nextSchema : Mapping) : Checked Mapping := do
  let current ← schemaColumnsByName currentSchema
  let next ← schemaColumnsByName nextSchema
  let resolved := next.map fun (name, column) => Json.obj (resolvedColumn env current name column)
  return setItem "columns" (.arr resolved) nextSchema

/-- The schema that is stored for a candidate, with the failure of the compatibility check. -/
def validateCandidate (currentSchema candidate : Mapping) (primaryKey : List String) :
    Checked (Mapping × Option Mapping) := do
  let schema ← resolveInferredNullTypes env currentSchema candidate
  -- the check resolves the schema once more, against the same version
  let resolved ← resolveInferredNullTypes env currentSchema schema
  let plan ← planSchemaEvolution env currentSchema resolved primaryKey
  return (schema, plan.failure)

end

end FoundryLite.Dataset
