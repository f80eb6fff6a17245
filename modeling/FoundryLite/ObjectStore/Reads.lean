import FoundryLite.ObjectStore.Writes

/-!
# Reads of the object store, and the merge of source and edit layers

Two lookups of an object matter to the writers. `Store.objectRecord` is the one that actions and
change-data-capture use: the first active row of an api name and an object id, under any index
version and any version of the ontology, deleted or not. `Store.objectTargetForRevert` looks at the
row of one object type id that is filed under the index version `"active"`, whatever its flags.

`about` collects the rows one api name and object id can refer to. Both lookups read nothing
else, so a write that leaves it alone changes none of them.

## Main results

* `objectRecord_eq_some`: what is known of a record that was found.
* `objectRecord_congr`: the lookup reads only `about`.
-/

namespace FoundryLite.ObjectStore

/-! ### Properties of an object type -/

inductive EditPolicy where
  | editOnly
  | editWins
  | conflictRequiresReview
  | sourceWins
  /-- Any other text, or none: no branch of the merge names it. -/
  | other
  deriving DecidableEq

structure PropertyType where
  apiName : String
  editPolicy : EditPolicy
  /-- Whether the property is read from the source dataset. -/
  isDatasetBacked : Bool
  columnName : Option String
  deriving DecidableEq

/-- The rows of the ontology that writers look up. -/
structure Ontology where
  activeObjectType : String → Option ObjectTypeId
  linkType : String → Option LinkTypeRow
  properties : ObjectTypeId → List PropertyType
  /-- A type found by its api name has that api name. -/
  apiName_of_activeObjectType : ∀ {apiName objectType},
    activeObjectType apiName = some objectType → objectType.apiName.val = apiName
  apiName_of_linkType : ∀ {apiName row}, linkType apiName = some row → row.apiName.val = apiName

def mergeProperty (current : PropertyMap) (prop : PropertyType) (base edits : PropertyMap) :
    PropertyMap :=
  let name := prop.apiName
  match prop.editPolicy with
  | .editOnly =>
    match edits.get? name with
    | some value => current.insert name value
    | none => current
  | .editWins | .conflictRequiresReview =>
    current.insert name ((edits.get? name).getD ((base.get? name).getD .null))
  | .sourceWins => current.insert name ((base.get? name).getD ((edits.get? name).getD .null))
  | .other => current.insert name ((base.get? name).getD .null)

/-- The visible properties of an object, from its source layer and its edit overlay. -/
def mergeProperties (properties : List PropertyType) (base edits : PropertyMap) : PropertyMap :=
  properties.foldl (fun current prop => mergeProperty current prop base edits) ∅

/-! ### Lookups -/

/-- What a plan calls an object: tenant, api name of its type, object id. -/
structure ObjectName where
  tenantId : String
  objectType : String
  objectId : String
  deriving DecidableEq

def ObjectRecord.name (record : ObjectRecord) : ObjectName :=
  ⟨record.tenantId, record.objectType.apiName, record.objectId⟩

def ObjectKey.name (key : ObjectKey) : ObjectName :=
  ⟨key.tenantId, key.objectType.apiName, key.objectId⟩

theorem ObjectRecord.name_eq (record : ObjectRecord) : record.name = record.identity.name := rfl

theorem ObjectUpdate.name_apply (update : ObjectUpdate) (n : ℕ) (row : ObjectRecord) :
    ((update n).apply row).name = row.name := by
  rw [ObjectRecord.name_eq, (update n).uq_apply, ObjectRecord.name_eq]

namespace Store

variable {s s' : Store} {name : ObjectName} {record : ObjectRecord}

/-- The rows an object name may mean, in scan order. -/
def about (s : Store) (name : ObjectName) : List ObjectRecord :=
  s.objects.rows.filter fun row => row.name = name

/-- The first active row of an object name, deleted or not. -/
def objectRecord (s : Store) (name : ObjectName) : Option ObjectRecord :=
  s.objects.rows.find? fun row => row.name = name && row.isActive

/-- The row of an object type id filed under the index version `"active"`, whatever its flags. -/
def objectTargetForRevert (s : Store) (tenantId : String) (objectType : ObjectTypeId)
    (objectId : String) : Option ObjectRecord :=
  s.objects.get? ⟨tenantId, objectType, objectId, activeIndexName⟩

/-- The link row filed under the index version `"active"`, whatever its flags. -/
def objectLinkForRevert (s : Store) (ends : LinkEnds) : Option ObjectLink :=
  s.links.get? (ends, activeIndexName)

theorem objectRecord_eq_find?_about :
    s.objectRecord name = (s.about name).find? fun row => row.isActive := by
  simp only [objectRecord, about, List.find?_filter, Bool.decide_and, Bool.decide_eq_true]

theorem objectRecord_eq_some (h : s.objectRecord name = some record) :
    record ∈ s.objects.rows ∧ record.name = name ∧ record.isActive := by
  have hfound := List.find?_some h
  simp only [Bool.and_eq_true, decide_eq_true_eq] at hfound
  exact ⟨List.mem_of_find?_eq_some h, hfound⟩

/-- **The lookup by name reads only the rows of that name.** -/
theorem objectRecord_congr (h : s'.about name = s.about name) :
    s'.objectRecord name = s.objectRecord name := by
  rw [objectRecord_eq_find?_about, objectRecord_eq_find?_about, h]

/-- An update of a row leaves the rows of every other name alone. -/
theorem about_of_update {update : ObjectUpdate} {n : ℕ}
    (hs' : s'.objects = s.objects.updateRow record.id (update n))
    (hrecord : record ∈ s.objects.rows) (hne : record.name ≠ name) :
    s'.about name = s.about name := by
  rw [about, about, hs']
  refine Table.filter_updateRow hrecord (fun row => ?_) (by simpa using hne)
  rw [ObjectUpdate.name_apply]

theorem about_congr (h : s'.objects = s.objects) (name : ObjectName) :
    s'.about name = s.about name := by
  rw [about, about, h]

end Store

end FoundryLite.ObjectStore
