import FoundryLite.Ontology.Datasources
import FoundryLite.Ontology.FunctionTypes
import FoundryLite.Ontology.MigrationChanges

/-!
# Planning an ontology migration

A candidate ontology definition is compared with the active ontology, resource kind by resource
kind, over maps indexed by API name. Every difference becomes a change that is either blocked or
a warning; a definition that cannot be read is refused.

The active ontology is read from the database, so its rows are records with the columns the
planner reads; the columns that hold JSON are decoded values. The candidate is a document.
-/

namespace FoundryLite.Ontology

/-! ### The active ontology -/

structure ObjectTypeRow where
  primaryKeyProperty : String
  backing : Json
  config : Json

structure PropertyTypeRow where
  apiName : String
  dataType : String
  source : String
  columnName : Option String

structure LinkTypeRow where
  apiName : String
  fromApiName : String
  toApiName : String
  cardinality : String
  backing : Json

structure ActionTypeRow where
  apiName : String
  targetApiName : String
  definition : Json

structure InterfaceTypeRow where
  apiName : String
  definition : Json

structure FunctionTypeRow where
  apiName : String
  definition : Json

/-- The active ontology. Object types are read into a map by API name, and the properties of an
object type are unique by API name in the database. -/
structure OntologySnapshot where
  sourceOntologyVersionId : Option String
  currentObjects : Dict String ObjectTypeRow
  currentProperties : String → List PropertyTypeRow
  currentLinks : List LinkTypeRow
  currentActions : List ActionTypeRow
  currentInterfaces : List InterfaceTypeRow
  currentFunctions : List FunctionTypeRow
  uniqueProperties : ∀ apiName, ((currentProperties apiName).map (·.apiName)).Nodup

/-! ### Indexes -/

def rowsByApi {α : Type} (apiName : α → String) (message : String) (rows : List α) :
    Checked (List (String × α)) :=
  rowsByKey (fun row => pure (apiName row))
    (fun name => validationFailed message [("apiName", .str name)]) rows

/-- The entries of one section of a definition, by API name. -/
def definitionsByApi (definition : Mapping) (section_ message detailKey : String) :
    Checked (List (String × Mapping)) := do
  let rows ← mappingSequence definition section_
  yamlRowsByApi rows message detailKey

def objectDefinitionsByApi (definition : Mapping) : Checked (List (String × Mapping)) :=
  definitionsByApi definition "objectTypes" "duplicate object apiName" "objectType"

def propertyDefinitionsByApi (objectDefinition : Mapping) : Checked (List (String × Mapping)) :=
  definitionsByApi objectDefinition "properties" "duplicate property apiName" "property"

def interfaceDefinitionsByApi (definition : Mapping) : Checked (List (String × Mapping)) :=
  definitionsByApi definition "interfaces" "duplicate interface apiName" "interface"

def linkDefinitionsByApi (definition : Mapping) : Checked (List (String × Mapping)) :=
  definitionsByApi definition "linkTypes" "duplicate link apiName" "linkType"

def actionDefinitionsByApi (definition : Mapping) : Checked (List (String × Mapping)) :=
  definitionsByApi definition "actionTypes" "duplicate action apiName" "actionType"

def functionDefinitionsByApi (definition : Mapping) : Checked (List (String × Mapping)) :=
  definitionsByApi definition "functionTypes" "duplicate function apiName" "functionType"

def parameterDefinitionsByApi (parameters : List Mapping) : Checked (List (String × Mapping)) :=
  rowsByKey (fun parameter => requiredStr parameter "apiName")
    (fun apiName => validationFailed "duplicate action parameter apiName"
      [("parameter", .str apiName)]) parameters

/-- The current properties by API name, the last of equal names. -/
def propertyByApi (rows : List PropertyTypeRow) : List (String × PropertyTypeRow) :=
  (rows.map fun row => (row.apiName, row)).reverse

/-! ### Backings -/

def objectTypeBacking (item : Mapping) : Checked Mapping :=
  match item.lookup "backing" with
  | some (.obj backing) => pure backing
  | _ => do
    let dataset ← requiredStr item "dataset"
    pure [("dataset", .str dataset)]

def linkTypeBacking (item : Mapping) : Checked Mapping :=
  match item.lookup "backing" with
  | some (.obj backing) => pure backing
  | _ => do
    let dataset ← requiredStr item "dataset"
    let fromKey ← requiredStr item "fromKey"
    let toKey ← requiredStr item "toKey"
    pure [("dataset", .str dataset), ("fromKey", .str fromKey), ("toKey", .str toKey)]

section

variable (env : Serialiser)

def mappingChanged (previous nextMapping : Mapping) : Bool :=
  env.jsonHash [("value", .obj previous)] != env.jsonHash [("value", .obj nextMapping)]

def reindexOperation (apiName : String) (reindexFields : List String) :
    Option OntologyReindexOperation :=
  let fields := Dict.sortedSet reindexFields
  if fields.isEmpty then none
  else
    let payload := [("objectTypeApiName", Json.str apiName),
      ("changedFields", .arr (fields.map .str))]
    some ⟨apiName, "ontology object mapping changed", fields,
      "object_reindex:" ++ apiName ++ ":" ++
        String.ofList ((env.jsonHash payload).toList.take 12)⟩

/-- The text of a field as a change reports it. -/
def fieldText (mapping : Mapping) (key : String) : String :=
  match mapping.lookup key with
  | none => ""
  | some .null => ""
  | some value => env.str value

/-! ### Datasources -/

def implicitRenamePairs (currentBacking : Mapping) (currentSegments candidateSegments : Segments) :
    List (String × String) :=
  if isMultiDatasourceBacking currentBacking then []
  else if (candidateSegments.byName.lookup currentSegments.first.name).isSome then []
  else
    match candidateSegments.toList.find? (·.datasetRef = currentSegments.first.datasetRef) with
    | some candidate => [(currentSegments.first.name, candidate.name)]
    | none => []

def commonSegmentChanges (apiName : String) (current candidate : DatasourceSegment) :
    List OntologyMigrationChange :=
  (if current.datasetRef ≠ candidate.datasetRef then
    [blockedDatasourceDatasetChanged apiName current.name current.datasetRef candidate.datasetRef]
  else []) ++
  if current.requiredRole ≠ candidate.requiredRole then
    [warningDatasourceRequiredRoleChanged apiName current.name current.requiredRole
      candidate.requiredRole]
  else []

/-- The changes of a pair of segments named by the two sides. -/
def segmentPairChanges (apiName : String) (currentSegments candidateSegments : Segments)
    (pair : String × String) : List OntologyMigrationChange :=
  match currentSegments.byName.lookup pair.1, candidateSegments.byName.lookup pair.2 with
  | some current, some candidate => commonSegmentChanges apiName current candidate
  | _, _ => []

def segmentShapeChanges (apiName : String) (currentBacking : Mapping)
    (currentSegments candidateSegments : Segments) : List OntologyMigrationChange :=
  let currentNames := Dict.sortedSet (currentSegments.toList.map (·.name))
  let candidateNames := Dict.sortedSet (candidateSegments.toList.map (·.name))
  let renamed := implicitRenamePairs currentBacking currentSegments candidateSegments
  (currentNames.filter fun name => name ∉ candidateNames ∧ name ∉ renamed.map Prod.fst).map
      (blockedDatasourceRemoved apiName) ++
    (candidateNames.filter fun name => name ∉ currentNames ∧ name ∉ renamed.map Prod.snd).map
      (warningDatasourceAdded apiName) ++
    (currentNames.filter (· ∈ candidateNames)).flatMap (fun name =>
      segmentPairChanges apiName currentSegments candidateSegments (name, name)) ++
    renamed.flatMap (segmentPairChanges apiName currentSegments candidateSegments)

def persistedPropertyDatasources (current : ObjectTypeRow) : List (String × String) :=
  match current.config with
  | .obj config =>
    match config.lookup "propertyDatasources" with
    | some (.obj declared) => declared.filterMap fun (key, value) =>
        match value with
        | .str name => some (key, name)
        | _ => none
    | _ => []
  | _ => []

/-- The dataset that feeds each dataset property, by property; the last of equal names. -/
def currentPropertyDatasetRefs (current : ObjectTypeRow)
    (currentProperties : List PropertyTypeRow) (currentSegments : Segments) :
    List (String × String) :=
  (currentProperties.filterMap fun prop =>
    if prop.source ≠ "dataset" then none
    else
      let segmentName := ((persistedPropertyDatasources current).lookup prop.apiName).getD
        currentSegments.first.name
      (currentSegments.byName.lookup segmentName).map fun segment =>
        (prop.apiName, segment.datasetRef)).reverse

def propertyMoveChanges (apiName : String) (current : ObjectTypeRow)
    (currentProperties : List PropertyTypeRow) (currentSegments : Segments)
    (candidateProperties : List (String × Mapping)) (candidateSegments : Segments) :
    Checked (List OntologyMigrationChange) := do
  let currentRefs := Dict.canon (currentPropertyDatasetRefs current currentProperties
    currentSegments)
  let moves ← currentRefs.mapM fun (propertyApiName, currentRef) =>
    match candidateProperties.lookup propertyApiName with
    | none => pure []
    | some candidateProperty => do
      match ← propertyDatasourceName env candidateProperty candidateSegments with
      | none => pure []
      | some candidateName =>
        match candidateSegments.byName.lookup candidateName with
        | none => pure []
        | some segment =>
          if segment.datasetRef ≠ currentRef then
            pure [blockedPropertyDatasourceMoved apiName propertyApiName currentRef
              segment.datasetRef]
          else pure []
  pure moves.flatten

def mappingOr (value : Option Json) : Mapping :=
  match value with
  | some (.obj mapping) => mapping
  | _ => []

def datasourceMigrationChanges (apiName : String) (current : ObjectTypeRow)
    (currentProperties : List PropertyTypeRow) (candidate : Mapping)
    (candidateProperties : List (String × Mapping)) : Checked (List OntologyMigrationChange) :=
  let currentBacking := mappingOr (some current.backing)
  let candidateBacking := mappingOr (candidate.lookup "backing")
  if !isMultiDatasourceBacking currentBacking && !isMultiDatasourceBacking candidateBacking then
    pure []
  else do
    let currentSegments ← backingDatasources currentBacking
    let candidateSegments ← backingDatasources candidateBacking
    let moves ← propertyMoveChanges env apiName current currentProperties currentSegments
      candidateProperties candidateSegments
    pure (segmentShapeChanges apiName currentBacking currentSegments candidateSegments ++ moves)

/-! ### Properties -/

def propertySource (prop : Mapping) : Checked String := do
  let source ← optionalStr prop "source"
    (some (if (prop.lookup "column").isSome then "dataset" else "edit_layer"))
  match source with
  | some source => pure source
  | none => do
    let apiName ← requiredStr prop "apiName"
    validationFailed "property source must be set" [("property", .str apiName)]

def renameSource (prop : Mapping) : Checked (Option String) := do
  match ← optionalStr prop "renamedFrom" with
  | some value => pure (some value)
  | none =>
    match ← optionalStr prop "previousName" with
    | some value => pure (some value)
    | none => optionalStr prop "previousApiName"

/-- The names candidate properties declare to be renamed from. -/
def propertyRenameSources (properties : List (String × Mapping)) : Checked (List String) := do
  let sources ← properties.mapM fun (_, prop) => renameSource prop
  pure (sources.filterMap id)

def propertyRequiresReindex (currentProperty : Option PropertyTypeRow)
    (candidateProperty : Mapping) : Checked Bool :=
  match currentProperty with
  | none => do
    let source ← propertySource candidateProperty
    pure (source = "dataset")
  | some current => do
    let source ← propertySource candidateProperty
    if source ≠ current.source then pure true
    else
      let column ← optionalStr candidateProperty "column"
      pure (column ≠ current.columnName)

def columnText (candidateProperty : Mapping) : Json :=
  match candidateProperty.lookup "column" with
  | none => .null
  | some .null => .null
  | some value => .str (env.str value)

def candidatePropertyChanges (objectApiName apiName : String)
    (currentProperty : Option PropertyTypeRow) (candidateProperty : Mapping) :
    Checked (List OntologyMigrationChange) := do
  let source ← renameSource candidateProperty
  let rename := source.toList.map fun previous =>
    blockedPropertyRename objectApiName previous apiName
  match currentProperty with
  | none => pure rename
  | some current => do
    let type ← requiredStr candidateProperty "type"
    let deprecated ← optionalBool candidateProperty "deprecated" false
    let reindex ← propertyRequiresReindex (some current) candidateProperty
    pure (rename ++
      (if type ≠ current.dataType then
        [blockedPropertyTypeChange objectApiName apiName current.dataType type] else []) ++
      (if deprecated then [warningPropertyDeprecated objectApiName apiName] else []) ++
      if reindex then [warningPropertyReindex objectApiName apiName (optionText current.columnName)
        (columnText env candidateProperty)] else [])

def removedPropertyChanges (objectApiName : String) (currentProperties : List PropertyTypeRow)
    (candidateProperties : List (String × Mapping)) (renameSources : List String) :
    List OntologyMigrationChange :=
  (currentProperties.filter fun current =>
    (candidateProperties.lookup current.apiName).isNone ∧ current.apiName ∉ renameSources).map
      fun current => blockedPropertyRemoved objectApiName current.apiName

def propertyMigrationChanges (objectApiName : String) (currentProperties : List PropertyTypeRow)
    (candidate : Mapping) : Checked (List OntologyMigrationChange × List String) := do
  let candidateProperties ← propertyDefinitionsByApi candidate
  let renameSources ← propertyRenameSources candidateProperties
  let parts ← (Dict.canon candidateProperties).mapM fun (apiName, candidateProperty) => do
    let currentProperty := (propertyByApi currentProperties).lookup apiName
    let changes ← candidatePropertyChanges env objectApiName apiName currentProperty
      candidateProperty
    let reindex ← propertyRequiresReindex currentProperty candidateProperty
    pure (changes, if reindex then ["properties." ++ apiName] else [])
  pure (removedPropertyChanges objectApiName currentProperties candidateProperties renameSources ++
    parts.flatMap Prod.fst, parts.flatMap Prod.snd)

/-! ### Object types -/

def objectShapeChanges (apiName : String) (current : ObjectTypeRow) (candidate : Mapping) :
    Checked (List OntologyMigrationChange) := do
  let primaryKey ← requiredStr candidate "primaryKey"
  let backing ← asMapping current.backing
  let candidateBacking ← objectTypeBacking candidate
  pure ((if primaryKey ≠ current.primaryKeyProperty then
      [blockedPrimaryKeyChanged apiName current.primaryKeyProperty primaryKey] else []) ++
    if mappingChanged env backing candidateBacking then [warningObjectReindex apiName "backing"]
    else [])

def singleObjectMigrationChanges (apiName : String) (current : ObjectTypeRow)
    (currentProperties : List PropertyTypeRow) (candidate : Mapping) :
    Checked (List OntologyMigrationChange × Option OntologyReindexOperation) := do
  let shape ← objectShapeChanges env apiName current candidate
  let candidateProperties ← propertyDefinitionsByApi candidate
  let datasources ← datasourceMigrationChanges env apiName current currentProperties candidate
    candidateProperties
  let (properties, reindexFields) ← propertyMigrationChanges env apiName currentProperties
    candidate
  let backing ← asMapping current.backing
  let candidateBacking ← objectTypeBacking candidate
  let backingField := if mappingChanged env backing candidateBacking then ["backing"] else []
  pure (shape ++ datasources ++ properties,
    reindexOperation env apiName (reindexFields ++ backingField))

def objectMigrationChanges (currentObjects : Dict String ObjectTypeRow)
    (currentProperties : String → List PropertyTypeRow)
    (candidateObjects : List (String × Mapping)) :
    Checked (List OntologyMigrationChange × List OntologyReindexOperation) := do
  let parts ← currentObjects.entries.mapM fun (apiName, current) =>
    match candidateObjects.lookup apiName with
    | none => pure ([blockedObjectRemoved apiName], none)
    | some candidate => singleObjectMigrationChanges env apiName current
        (currentProperties apiName) candidate
  pure (parts.flatMap Prod.fst, parts.filterMap Prod.snd)

/-! ### Interfaces and implements -/

def interfaceRowPropertyNames (row : InterfaceTypeRow) : Checked (List String) := do
  let definition ← asMapping row.definition
  let properties ← mappingSequence definition "properties"
  properties.mapM fun prop => requiredStr prop "apiName"

def singleInterfaceMigrationChanges (apiName : String) (current : InterfaceTypeRow)
    (candidate : Mapping) : Checked (List OntologyMigrationChange) := do
  let rows ← mappingSequence candidate "properties"
  let candidateProperties ← rows.mapM fun prop => requiredStr prop "apiName"
  let names ← interfaceRowPropertyNames current
  pure ((names.filter (· ∉ candidateProperties)).map (blockedInterfacePropertyRemoved apiName))

def interfaceMigrationChanges (currentInterfaces : List (String × InterfaceTypeRow))
    (definition : Mapping) : Checked (List OntologyMigrationChange) := do
  let candidateInterfaces ← interfaceDefinitionsByApi definition
  let changes ← (Dict.canon currentInterfaces).mapM fun (apiName, current) =>
    match candidateInterfaces.lookup apiName with
    | none => pure [blockedInterfaceRemoved apiName]
    | some candidate => singleInterfaceMigrationChanges apiName current candidate
  let added := (Dict.sortedSet (candidateInterfaces.map Prod.fst)).filter fun apiName =>
    (currentInterfaces.lookup apiName).isNone
  pure (changes.flatten ++ added.map warningInterfaceAdded)

def stringItems (value : Option Json) : Checked (List String) :=
  match value with
  | none => pure []
  | some .null => pure []
  | some (.arr items) => pure (items.map env.str)
  | some _ => validationFailed "implements must be a list of strings"

def singleImplementsMigrationChanges (apiName : String) (current : ObjectTypeRow)
    (candidate : Mapping) : Checked (List OntologyMigrationChange) := do
  let config ← asMapping current.config
  let currentImplements ← stringItems env (config.lookup "implements")
  let candidateImplements ← stringItems env (candidate.lookup "implements")
  pure (((Dict.sortedSet currentImplements).filter (· ∉ candidateImplements)).map
      (blockedImplementsRemoved apiName) ++
    ((Dict.sortedSet candidateImplements).filter (· ∉ currentImplements)).map
      (warningImplementsAdded apiName))

def implementsMigrationChanges (currentObjects : Dict String ObjectTypeRow)
    (candidateObjects : List (String × Mapping)) : Checked (List OntologyMigrationChange) := do
  let changes ← currentObjects.entries.mapM fun (apiName, current) =>
    match candidateObjects.lookup apiName with
    | none => pure []
    | some candidate => singleImplementsMigrationChanges env apiName current candidate
  pure changes.flatten

/-! ### Functions -/

def functionDefinitionChanges (apiName : String) (current : FunctionTypeRow)
    (candidate : Mapping) : Checked (List OntologyMigrationChange) := do
  let currentDefinition ← asMapping current.definition
  pure (if mappingChanged env currentDefinition candidate then
    [warningFunctionDefinitionChanged apiName] else [])

def functionMigrationChanges (currentFunctions : List (String × FunctionTypeRow))
    (definition : Mapping) : Checked (List OntologyMigrationChange) := do
  let rawCandidates ← functionDefinitionsByApi definition
  let candidates ← rawCandidates.mapM fun (apiName, item) => do
    let normalized ← FunctionTypes.normalizedFunctionDefinition item
    pure (apiName, normalized)
  let changes ← (Dict.canon currentFunctions).mapM fun (apiName, current) =>
    match candidates.lookup apiName with
    | none => pure [blockedFunctionRemoved apiName]
    | some candidate => functionDefinitionChanges env apiName current candidate
  let added := (Dict.sortedSet (candidates.map Prod.fst)).filter fun apiName =>
    (currentFunctions.lookup apiName).isNone
  pure (changes.flatten ++ added.map warningFunctionAdded)

/-! ### Links -/

/-- The endpoints of a candidate link when they are not those of the current one; the target is
read only if the source is the same. -/
def changedEndpoints (current : LinkTypeRow) (candidate : Mapping) :
    Checked (Option (String × String)) := do
  let source ← requiredStr candidate "from"
  if source ≠ current.fromApiName then pure (some (source, fieldText env candidate "to"))
  else
    let target ← requiredStr candidate "to"
    pure (if target ≠ current.toApiName then some (source, target) else none)

def singleLinkMigrationChanges (apiName : String) (current : LinkTypeRow) (candidate : Mapping) :
    Checked (List OntologyMigrationChange) := do
  let endpoints ← changedEndpoints env current candidate
  let cardinality ← optionalStr candidate "cardinality" (some "many_to_one")
  let backing ← asMapping current.backing
  let candidateBacking ← linkTypeBacking candidate
  pure ((endpoints.toList.map
      (blockedLinkEndpointChanged apiName (current.fromApiName, current.toApiName))) ++
    (if cardinality ≠ some current.cardinality then [blockedLinkCardinalityChanged apiName]
      else []) ++
    if mappingChanged env backing candidateBacking then
      [blockedLinkBackingChanged apiName backing candidateBacking] else [])

def linkMigrationChanges (currentLinks : List (String × LinkTypeRow))
    (candidateLinks : List (String × Mapping)) : Checked (List OntologyMigrationChange) := do
  let changes ← (Dict.canon currentLinks).mapM fun (apiName, current) =>
    match candidateLinks.lookup apiName with
    | none => pure [blockedLinkRemoved apiName]
    | some candidate => singleLinkMigrationChanges env apiName current candidate
  pure changes.flatten

/-! ### Actions -/

def currentActionParameters (action : ActionTypeRow) : Checked (List Mapping) := do
  let definition ← asMapping action.definition
  match definition.lookup "parameters" with
  | none => pure []
  | some (.arr items) => items.mapM asMapping
  | some _ =>
    validationFailed "persisted action parameters must be a list"
      [("actionType", .str action.apiName)]

def parameterRequired (parameter : Mapping) : Bool :=
  parameter.lookup "required" = some (.bool true)

def changedParameterChanges (actionApiName apiName : String) (current candidate : Mapping) :
    Checked (List OntologyMigrationChange) := do
  let next ← requiredStr candidate "type"
  let previous ← requiredStr current "type"
  pure ((if next ≠ previous then
      [blockedParameterTypeChanged actionApiName apiName previous next] else []) ++
    (if !parameterRequired current && parameterRequired candidate then
      [blockedParameterBecameRequired actionApiName apiName] else []) ++
    if parameterRequired current && !parameterRequired candidate then
      [warningParameterBecameOptional actionApiName apiName] else [])

def removedOrChangedParameterChanges (actionApiName : String)
    (currentParams candidateParams : List (String × Mapping)) :
    Checked (List OntologyMigrationChange) := do
  let changes ← (Dict.canon currentParams).mapM fun (apiName, current) =>
    match candidateParams.lookup apiName with
    | none => pure [blockedParameterRemoved actionApiName apiName]
    | some candidate => changedParameterChanges actionApiName apiName current candidate
  pure changes.flatten

def addedParameterChanges (actionApiName : String)
    (currentParams candidateParams : List (String × Mapping)) : List OntologyMigrationChange :=
  (Dict.canon candidateParams).flatMap fun (apiName, candidate) =>
    if (currentParams.lookup apiName).isSome then []
    else if parameterRequired candidate then
      [blockedRequiredParameterAdded actionApiName apiName]
    else [warningOptionalParameterAdded actionApiName apiName]

def parameterMigrationChanges (actionApiName : String) (current : ActionTypeRow)
    (candidate : Mapping) : Checked (List OntologyMigrationChange) := do
  let currentRows ← currentActionParameters current
  let currentParams ← parameterDefinitionsByApi currentRows
  let candidateRows ← mappingSequence candidate "parameters"
  let candidateParams ← parameterDefinitionsByApi candidateRows
  let changes ← removedOrChangedParameterChanges actionApiName currentParams candidateParams
  pure (changes ++ addedParameterChanges actionApiName currentParams candidateParams)

def singleActionMigrationChanges (apiName : String) (current : ActionTypeRow)
    (candidate : Mapping) : Checked (List OntologyMigrationChange) := do
  let target ← requiredStr candidate "target"
  let parameters ← parameterMigrationChanges apiName current candidate
  pure ((if target ≠ current.targetApiName then
    [blockedActionTargetChanged apiName current.targetApiName target] else []) ++ parameters)

def actionMigrationChanges (currentActions : List (String × ActionTypeRow))
    (candidateActions : List (String × Mapping)) : Checked (List OntologyMigrationChange) := do
  let changes ← (Dict.canon currentActions).mapM fun (apiName, current) =>
    match candidateActions.lookup apiName with
    | none => pure [blockedActionRemoved apiName]
    | some candidate => singleActionMigrationChanges apiName current candidate
  pure changes.flatten

/-! ### The plan -/

/-- **Classify a candidate ontology definition** against the active ontology. -/
def buildOntologyMigrationPlan (snapshot : OntologySnapshot) (definition : Mapping) :
    Checked OntologyMigrationPlan := do
  let candidateObjects ← objectDefinitionsByApi definition
  let candidateLinks ← linkDefinitionsByApi definition
  let candidateActions ← actionDefinitionsByApi definition
  let (objects, reindexOperations) ← objectMigrationChanges env snapshot.currentObjects
    snapshot.currentProperties candidateObjects
  let currentInterfaces ← rowsByApi (·.apiName) "duplicate persisted interface apiName"
    snapshot.currentInterfaces
  let interfaces ← interfaceMigrationChanges currentInterfaces definition
  let implementing ← implementsMigrationChanges env snapshot.currentObjects candidateObjects
  let currentFunctions ← rowsByApi (·.apiName) "duplicate persisted function apiName"
    snapshot.currentFunctions
  let functions ← functionMigrationChanges env currentFunctions definition
  let currentLinks ← rowsByApi (·.apiName) "duplicate persisted ontology apiName"
    snapshot.currentLinks
  let links ← linkMigrationChanges env currentLinks candidateLinks
  let currentActions ← rowsByApi (·.apiName) "duplicate persisted action apiName"
    snapshot.currentActions
  let actions ← actionMigrationChanges currentActions candidateActions
  pure ⟨snapshot.sourceOntologyVersionId,
    objects ++ interfaces ++ implementing ++ functions ++ links ++ actions, reindexOperations⟩

end

end FoundryLite.Ontology
