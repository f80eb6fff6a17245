import FoundryLite.Ontology.Definition

/-!
# The changes a migration plan reports

A migration plan is a list of changes, each blocked or only worth a warning, with the reason a
consumer of the ontology is told. There is one constructor for each kind of change; they are
members of two families, `blocked` and `warning`, which fix the status.
-/

namespace FoundryLite.Ontology

inductive ChangeStatus where
  | blocked
  | warning
  deriving DecidableEq

/-- One ontology shape change classified for compatibility evidence. -/
structure OntologyMigrationChange where
  kind : String
  path : String
  status : ChangeStatus
  reason : String
  hasSdkMajorVersionRequirement : Bool
  hasObjectReindexRequirement : Bool
  details : Mapping

/-- A reindex of an object type that its mapping changes call for. -/
structure OntologyReindexOperation where
  objectTypeApiName : String
  reason : String
  changedFields : List String
  reindexKey : String

/-- The compatibility plan for a candidate ontology version. -/
structure OntologyMigrationPlan where
  sourceOntologyVersionId : Option String
  changes : List OntologyMigrationChange
  reindexOperations : List OntologyReindexOperation

def OntologyMigrationPlan.blockingChanges (plan : OntologyMigrationPlan) :
    List OntologyMigrationChange :=
  plan.changes.filter fun change => change.status = .blocked

/-! ### The two families -/

def blocked (kind path reason : String) (hasSdkMajorVersionRequirement : Bool)
    (details : Mapping := []) : OntologyMigrationChange :=
  ⟨kind, path, .blocked, reason, hasSdkMajorVersionRequirement, false, details⟩

def warning (kind path reason : String) (hasObjectReindexRequirement : Bool := false)
    (details : Mapping := []) : OntologyMigrationChange :=
  ⟨kind, path, .warning, reason, false, hasObjectReindexRequirement, details⟩

def optionText : Option String → Json
  | none => .null
  | some value => .str value

/-! ### Object types -/

def blockedObjectRemoved (apiName : String) : OntologyMigrationChange :=
  blocked "object_removed" s!"objectTypes.{apiName}" "removing an object type breaks object APIs"
    true

def blockedPrimaryKeyChanged (apiName previous next : String) : OntologyMigrationChange :=
  blocked "object_primary_key_changed" s!"objectTypes.{apiName}.primaryKey"
    "changing an object primary key requires a new object migration plan" true
    [("previous", .str previous), ("next", .str next)]

def warningObjectReindex (apiName name : String) : OntologyMigrationChange :=
  warning "object_reindex_required" s!"objectTypes.{apiName}.{name}"
    ("object backing changed and the active object index must be rebuilt before serving the " ++
      "new mapping") true

def blockedPropertyRename (objectApiName previous nextName : String) : OntologyMigrationChange :=
  blocked "property_renamed" s!"objectTypes.{objectApiName}.properties.{nextName}"
    "property renames require explicit consumer mapping and SDK versioning" true
    [("renamedFrom", .str previous), ("apiName", .str nextName)]

def blockedPropertyRemoved (objectApiName apiName : String) : OntologyMigrationChange :=
  blocked "property_removed" s!"objectTypes.{objectApiName}.properties.{apiName}"
    "removing a property breaks existing object consumers" true

def blockedPropertyTypeChange (objectApiName apiName previous next : String) :
    OntologyMigrationChange :=
  blocked "property_type_changed" s!"objectTypes.{objectApiName}.properties.{apiName}.type"
    "changing a property type changes the generated SDK contract" true
    [("previous", .str previous), ("next", .str next)]

def warningPropertyDeprecated (objectApiName apiName : String) : OntologyMigrationChange :=
  warning "property_deprecated" s!"objectTypes.{objectApiName}.properties.{apiName}"
    "deprecated property remains readable but consumers should migrate"

def warningPropertyReindex (objectApiName apiName : String) (previousColumn nextColumn : Json) :
    OntologyMigrationChange :=
  warning "property_mapping_changed" s!"objectTypes.{objectApiName}.properties.{apiName}.column"
    "property backing changed and the active object index needs a deterministic rebuild" true
    [("previousColumn", previousColumn), ("nextColumn", nextColumn)]

/-! ### Datasources -/

def warningDatasourceAdded (objectApiName datasourceName : String) : OntologyMigrationChange :=
  warning "object_datasource_added"
    s!"objectTypes.{objectApiName}.backing.datasources.{datasourceName}"
    ("adding a datasource widens the object mapping and the active object index must be " ++
      "rebuilt") true

def blockedDatasourceRemoved (objectApiName datasourceName : String) : OntologyMigrationChange :=
  blocked "object_datasource_removed"
    s!"objectTypes.{objectApiName}.backing.datasources.{datasourceName}"
    "removing a datasource silently nulls every property it backs for existing consumers" true

def blockedDatasourceDatasetChanged (objectApiName datasourceName previous next : String) :
    OntologyMigrationChange :=
  blocked "object_datasource_dataset_changed"
    s!"objectTypes.{objectApiName}.backing.datasources.{datasourceName}.dataset"
    ("changing a datasource's dataset rebinds every property of that segment and requires a " ++
      "migration plan") true
    [("previous", .str previous), ("next", .str next)]

def blockedPropertyDatasourceMoved (objectApiName propertyApiName previous next : String) :
    OntologyMigrationChange :=
  blocked "property_datasource_moved"
    s!"objectTypes.{objectApiName}.properties.{propertyApiName}.datasource"
    ("moving a property between datasources changes which dataset and segment role feed its " ++
      "values") true
    [("previous", .str previous), ("next", .str next)]

def warningDatasourceRequiredRoleChanged (objectApiName datasourceName : String)
    (previous next : Option String) : OntologyMigrationChange :=
  warning "object_datasource_required_role_changed"
    s!"objectTypes.{objectApiName}.backing.datasources.{datasourceName}.requiredRole"
    ("changing a datasource requiredRole re-scopes which callers can read the segment's " ++
      "property values") false
    [("previous", optionText previous), ("next", optionText next)]

/-! ### Interfaces -/

def warningInterfaceAdded (apiName : String) : OntologyMigrationChange :=
  warning "interface_added" s!"interfaces.{apiName}"
    "adding an interface is backward-compatible but changes the polymorphic SDK surface"

def blockedInterfaceRemoved (apiName : String) : OntologyMigrationChange :=
  blocked "interface_removed" s!"interfaces.{apiName}"
    "removing an interface breaks OSDK apps that query or type against it" true

def blockedInterfacePropertyRemoved (interfaceApiName apiName : String) :
    OntologyMigrationChange :=
  blocked "interface_property_removed" s!"interfaces.{interfaceApiName}.properties.{apiName}"
    "removing an interface property breaks consumers reading it across implementing types" true

def warningImplementsAdded (objectApiName interfaceApiName : String) : OntologyMigrationChange :=
  warning "object_implements_added" s!"objectTypes.{objectApiName}.implements.{interfaceApiName}"
    "implementing an interface is backward-compatible but widens interface query results"

def blockedImplementsRemoved (objectApiName interfaceApiName : String) :
    OntologyMigrationChange :=
  blocked "object_implements_removed"
    s!"objectTypes.{objectApiName}.implements.{interfaceApiName}"
    ("dropping an implements declaration removes the type from interface queries OSDK apps " ++
      "depend on") true

/-! ### Functions -/

def warningFunctionAdded (apiName : String) : OntologyMigrationChange :=
  warning "function_added" s!"functionTypes.{apiName}"
    "adding a function is backward-compatible but changes the callable SDK surface"

def blockedFunctionRemoved (apiName : String) : OntologyMigrationChange :=
  blocked "function_removed" s!"functionTypes.{apiName}"
    "removing a function breaks OSDK apps and Logic callers executing it" true

def warningFunctionDefinitionChanged (apiName : String) : OntologyMigrationChange :=
  warning "function_definition_changed" s!"functionTypes.{apiName}"
    "changing a function definition changes execution behavior for existing callers"

/-! ### Links -/

def blockedLinkRemoved (apiName : String) : OntologyMigrationChange :=
  blocked "link_removed" s!"linkTypes.{apiName}" "removing a link type breaks graph traversal APIs"
    true

def endpointDetail (source target : String) : Json :=
  .obj [("from", .str source), ("to", .str target)]

def blockedLinkEndpointChanged (apiName : String) (previous next : String × String) :
    OntologyMigrationChange :=
  blocked "link_endpoint_changed" s!"linkTypes.{apiName}"
    "changing link endpoints changes the graph API contract" true
    [("previous", endpointDetail previous.1 previous.2), ("next", endpointDetail next.1 next.2)]

def blockedLinkCardinalityChanged (apiName : String) : OntologyMigrationChange :=
  blocked "link_cardinality_changed" s!"linkTypes.{apiName}.cardinality"
    "changing link cardinality changes traversal expectations" true

def blockedLinkBackingChanged (apiName : String) (previous nextBacking : Mapping) :
    OntologyMigrationChange :=
  blocked "link_backing_changed" s!"linkTypes.{apiName}.backing"
    "changing link backing keys requires a link migration plan" true
    [("previous", .obj previous), ("next", .obj nextBacking)]

/-! ### Actions -/

def blockedActionRemoved (apiName : String) : OntologyMigrationChange :=
  blocked "action_removed" s!"actionTypes.{apiName}" "removing an action breaks SDK callers" true

def blockedActionTargetChanged (apiName previous nextTarget : String) : OntologyMigrationChange :=
  blocked "action_target_changed" s!"actionTypes.{apiName}.target"
    "changing an action target changes the generated SDK contract" true
    [("previous", .str previous), ("next", .str nextTarget)]

def blockedParameterRemoved (actionApiName apiName : String) : OntologyMigrationChange :=
  blocked "action_parameter_removed" s!"actionTypes.{actionApiName}.parameters.{apiName}"
    "removing an action parameter breaks generated SDK callers" true

def blockedParameterTypeChanged (actionApiName apiName previous next : String) :
    OntologyMigrationChange :=
  blocked "action_parameter_type_changed"
    s!"actionTypes.{actionApiName}.parameters.{apiName}.type"
    "changing an action parameter type requires a generated SDK major version" true
    [("previous", .str previous), ("next", .str next)]

def blockedParameterBecameRequired (actionApiName apiName : String) : OntologyMigrationChange :=
  blocked "action_parameter_became_required"
    s!"actionTypes.{actionApiName}.parameters.{apiName}.required"
    "making an existing optional parameter required breaks old SDK callers" true

def blockedRequiredParameterAdded (actionApiName apiName : String) : OntologyMigrationChange :=
  blocked "required_action_parameter_added" s!"actionTypes.{actionApiName}.parameters.{apiName}"
    "adding a required action parameter requires a generated SDK major version" true

def warningParameterBecameOptional (actionApiName apiName : String) : OntologyMigrationChange :=
  warning "action_parameter_became_optional"
    s!"actionTypes.{actionApiName}.parameters.{apiName}.required"
    ("making an action parameter optional is backward-compatible but should be visible to " ++
      "consumers")

def warningOptionalParameterAdded (actionApiName apiName : String) : OntologyMigrationChange :=
  warning "optional_action_parameter_added" s!"actionTypes.{actionApiName}.parameters.{apiName}"
    "adding an optional parameter is compatible but changes the SDK surface"

end FoundryLite.Ontology
