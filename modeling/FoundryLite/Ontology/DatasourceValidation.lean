import FoundryLite.Ontology.Yaml

/-!
# Datasource declarations of an object type

When an ontology is applied, every property that comes from a dataset must name one declared
datasource, its column must exist in the dataset of that datasource, and every dataset must have
the primary key column. What is checked is each property by itself: two properties of different
datasources may name the same column, and so may a property and the primary key.

What is then persisted of the object type is the backing, the datasource of each property, and the
properties themselves.

## Main results

* `ValidatedObjectType.mem_assignments_iff`: the persisted dataset properties are those that were
  checked, each with the datasource and the column it was checked against.
-/

namespace FoundryLite.Ontology.DatasourceValidation

open Except (bind_eq_ok_iff map_eq_ok_iff pure_eq_ok_iff)

/-! ### Checking the declarations -/

section Validation

variable (env : Serialiser)

/-- The columns of a dataset by name, with their descriptions. -/
abbrev DatasetColumns := List (String × Mapping)

/-- Add a property under its name. Names that differ in case only are refused; how a name is folded
is the standard library's. -/
def addPropertyDefinition (casefold : String → String) (propertyDefs : List (String × Mapping))
    (prop : Mapping) : Checked (List (String × Mapping)) := do
  let apiName ← Yaml.requiredStr prop "apiName"
  match propertyDefs.find? fun entry => casefold entry.1 = casefold apiName with
  | none => return propertyDefs ++ [(apiName, prop)]
  | some existing =>
    validationFailed "duplicate property apiName" ([("property", .str apiName)] ++
      if existing.1 = apiName then [] else [("conflictsWith", .str existing.1)])

def propertyDefinitionsByApi (casefold : String → String) (objectDef : Mapping) :
    Checked (List (String × Mapping)) := do
  let properties ← Yaml.mappingSequence objectDef "properties"
  properties.foldlM (addPropertyDefinition casefold) []

def requireUniqueDatasourceNames (objectApiName : String) (segments : Segments) : Checked Unit :=
  segments.toList.zipIdx.forM fun (segment, index) =>
    rejectIf (segment.name ∈ (segments.toList.take index).map DatasourceSegment.name)
      "duplicate datasource name"
      [("objectType", .str objectApiName), ("datasource", .str segment.name)]

/-- An explicit datasource on a property of the edit layer is a dangling declaration. -/
def requireDatasetBackedDatasource (objectApiName propertyApiName : String) (prop : Mapping) :
    Checked Unit :=
  if (prop.lookup "datasource").getD .null = .null then pure ()
  else do
    let source ← Yaml.optionalStr prop "source"
      (some (if (prop.lookup "column").isSome then "dataset" else "edit_layer"))
    rejectIf (source ≠ some "dataset") "datasource requires a dataset-backed property"
      [("objectType", .str objectApiName), ("property", .str propertyApiName)]

/-- A property with the datasource and the column it comes from. -/
structure Assignment where
  propertyApiName : String
  datasource : String
  column : String
  deriving DecidableEq

def propertySegmentAssignment (objectApiName : String) (segments : Segments)
    (entry : String × Mapping) : Checked (Option Assignment) := do
  requireDatasetBackedDatasource objectApiName entry.1 entry.2
  match ← propertyDatasourceName env entry.2 segments with
  | none => return none
  | some name =>
    rejectIf (name ∉ segments.toList.map DatasourceSegment.name)
      "property references unknown datasource"
      [("objectType", .str objectApiName), ("property", .str entry.1), ("datasource", .str name)]
    match ← Yaml.optionalStr entry.2 "column" with
    | none =>
      validationFailed "property column missing"
        [("objectType", .str objectApiName), ("property", .str entry.1)]
    | some column => return some ⟨entry.1, name, column⟩

def propertySegmentAssignments (objectApiName : String) (segments : Segments)
    (propertyDefs : List (String × Mapping)) : Checked (List Assignment) := do
  let assignments ← propertyDefs.mapM (propertySegmentAssignment env objectApiName segments)
  return assignments.filterMap id

def yamlPrimaryKeyColumn (objectDef : Mapping) (propertyDefs : List (String × Mapping)) :
    Checked String := do
  let primaryKey ← Yaml.requiredStr objectDef "primaryKey"
  match propertyDefs.lookup primaryKey with
  | none =>
    let objectApiName ← Yaml.requiredStr objectDef "apiName"
    validationFailed "primary key property missing" [("objectType", .str objectApiName)]
  | some prop =>
    match ← Yaml.optionalStr prop "column" with
    | none => validationFailed "primary key column missing" [("column", .null)]
    | some column => return column

def segmentPrimaryKeyColumn (segment : DatasourceSegment) (defaultColumn : String) : String :=
  segment.primaryKeyColumns.head?.getD defaultColumn

def segmentDetails (details backing : Mapping) (segment : DatasourceSegment) : Mapping :=
  if isMultiDatasourceBacking backing then details ++ [("datasource", .str segment.name)]
  else details

def validateSegmentPrimaryKey (backing : Mapping) (segment : DatasourceSegment)
    (pkColumn : String) (columns : DatasetColumns) : Checked Unit := do
  let segmentPk := segmentPrimaryKeyColumn segment pkColumn
  let details := segmentDetails [("column", .str segmentPk)] backing segment
  match columns.lookup segmentPk with
  | none => validationFailed "primary key column missing" details
  | some column =>
    rejectIf ((column.lookup "nullable").getD .null).isTruthy
      "primary key column must be non-null" details

def validateSegmentPropertyColumns (objectApiName : String) (segment : DatasourceSegment)
    (assignments : List Assignment) (columns : DatasetColumns) : Checked Unit :=
  (assignments.filter fun assignment => assignment.datasource = segment.name).forM fun assignment =>
    rejectIf (columns.lookup assignment.column).isNone "property column missing"
      [("objectType", .str objectApiName), ("property", .str assignment.propertyApiName)]

/-- Check the datasource declarations and the columns of one object type. -/
def validateYamlObjectDatasources (objectDef : Mapping) (propertyDefs : List (String × Mapping))
    (datasetColumnsForRef : String → Checked DatasetColumns) : Checked Unit := do
  let objectApiName ← Yaml.requiredStr objectDef "apiName"
  let backing ← Yaml.objectTypeBacking objectDef
  let segments ← backingDatasources backing
  requireUniqueDatasourceNames objectApiName segments
  let assignments ← propertySegmentAssignments env objectApiName segments propertyDefs
  let pkColumn ← yamlPrimaryKeyColumn objectDef propertyDefs
  segments.toList.forM fun segment => do
    let columns ← datasetColumnsForRef segment.datasetRef
    validateSegmentPrimaryKey backing segment pkColumn columns
    validateSegmentPropertyColumns objectApiName segment assignments columns

end Validation

/-! ### What is persisted -/

structure PropertyTypeRow where
  apiName : String
  source : String
  columnName : Option String
  deriving DecidableEq

structure ObjectTypeRow where
  apiName : String
  primaryKeyProperty : String
  backing : Mapping
  /-- The datasource of every property that has one, when there are several datasources. -/
  propertyDatasources : Option (Dict String String)
  /-- Read back by name. -/
  properties : Dict String PropertyTypeRow

section Import

variable (env : Serialiser)

/-- The datasource of each dataset property, with the default filled in. -/
def resolvedPropertyDatasources (backing : Mapping) (propertyDefs : List (String × Mapping)) :
    Checked (Dict String String) := do
  let segments ← backingDatasources backing
  let resolved ← propertyDefs.mapM fun entry => do
    let name ← propertyDatasourceName env entry.2 segments
    return name.map fun name => (entry.1, name)
  return Dict.ofList (resolved.filterMap id).reverse

/-- A property under its name. -/
def namedProperty (prop : Mapping) : Checked (String × Mapping) := do
  let apiName ← Yaml.requiredStr prop "apiName"
  return (apiName, prop)

def yamlPropertyDatasources (item : Mapping) : Checked (Option (Dict String String)) := do
  let backing ← Yaml.objectTypeBacking item
  if isMultiDatasourceBacking backing then
    let properties ← Yaml.mappingSequence item "properties"
    let propertyDefs ← properties.mapM namedProperty
    some <$> resolvedPropertyDatasources env backing propertyDefs
  else return none

def propertyTypeRow (prop : Mapping) : Checked PropertyTypeRow := do
  let apiName ← Yaml.requiredStr prop "apiName"
  let source ← Yaml.optionalStr prop "source"
    (some (if (prop.lookup "column").isSome then "dataset" else "edit_layer"))
  match source with
  | none => validationFailed "property source must be set" [("property", .str apiName)]
  | some source =>
    let columnName ← Yaml.optionalStr prop "column"
    return { apiName, source, columnName }

def insertPropertyType (rows : Dict String PropertyTypeRow) (prop : Mapping) :
    Checked (Dict String PropertyTypeRow) := do
  let row ← propertyTypeRow prop
  rejectIf (rows.get? row.apiName).isSome "duplicate property apiName"
    [("property", .str row.apiName)]
  return rows.insert row.apiName row

def importPropertiesForObjectType (item : Mapping) : Checked (Dict String PropertyTypeRow) := do
  let properties ← Yaml.mappingSequence item "properties"
  properties.foldlM insertPropertyType ∅

def importObjectType (item : Mapping) : Checked ObjectTypeRow := do
  let apiName ← Yaml.requiredStr item "apiName"
  let primaryKeyProperty ← Yaml.requiredStr item "primaryKey"
  let backing ← Yaml.objectTypeBacking item
  let propertyDatasources ← yamlPropertyDatasources env item
  let properties ← importPropertiesForObjectType item
  return { apiName, primaryKeyProperty, backing, propertyDatasources, properties }

end Import

/-! ### What is persisted is what was checked -/

section Lemmas

variable {env : Serialiser} {casefold : String → String} {objectDef : Mapping}
  {propertyDefs : List (String × Mapping)}

theorem namedProperty_eq_ok_iff {prop : Mapping} {entry : String × Mapping} :
    namedProperty prop = .ok entry ↔
      Yaml.requiredStr prop "apiName" = .ok entry.1 ∧ prop = entry.2 := by
  obtain ⟨apiName, prop'⟩ := entry
  simp only [namedProperty, bind_eq_ok_iff, pure_eq_ok_iff, Prod.mk.injEq]
  grind

/-- The definitions are the properties under their names, no name twice. -/
theorem propertyDefinitionsByApi_eq_ok
    (h : propertyDefinitionsByApi casefold objectDef = .ok propertyDefs) :
    ∃ properties, Yaml.mappingSequence objectDef "properties" = .ok properties ∧
      properties.mapM namedProperty = .ok propertyDefs ∧ (propertyDefs.map Prod.fst).Nodup := by
  rw [propertyDefinitionsByApi, bind_eq_ok_iff] at h
  obtain ⟨properties, hproperties, hfold⟩ := h
  have hrest : ∀ seen : List (String × Mapping), (seen.map Prod.fst).Nodup → ∀ propertyDefs,
      properties.foldlM (addPropertyDefinition casefold) seen = .ok propertyDefs →
      ∃ rest, properties.mapM namedProperty = .ok rest ∧ propertyDefs = seen ++ rest ∧
        (propertyDefs.map Prod.fst).Nodup := by
    clear hproperties hfold
    induction properties with
    | nil =>
      intro seen hseen propertyDefs h
      obtain rfl := pure_eq_ok_iff.mp h
      exact ⟨[], rfl, (List.append_nil seen).symm, hseen⟩
    | cons prop properties ih =>
      intro seen hseen propertyDefs h
      rw [List.foldlM_cons, bind_eq_ok_iff] at h
      obtain ⟨seen', hseen', h⟩ := h
      obtain ⟨apiName, hname, hseen'⟩ := bind_eq_ok_iff.mp hseen'
      cases hfind : seen.find? fun entry => casefold entry.1 = casefold apiName with
      | some existing => simp [hfind] at hseen'
      | none =>
        rw [hfind] at hseen'
        obtain rfl := pure_eq_ok_iff.mp hseen'
        have hnew : ∀ entry ∈ seen, entry.1 ≠ apiName := by
          rintro entry hentry rfl
          have hne := List.find?_eq_none.mp hfind entry hentry
          simp at hne
        obtain ⟨rest, hmap, rfl, hnodup⟩ := ih (seen ++ [(apiName, prop)]) (by
          rw [List.map_append, List.nodup_append]
          refine ⟨hseen, List.nodup_singleton _, ?_⟩
          intro name hmem name' hmem' heq
          obtain ⟨entry, hentry, rfl⟩ := List.mem_map.mp hmem
          exact hnew entry hentry (heq.trans (List.mem_singleton.mp hmem'))) propertyDefs h
        refine ⟨(apiName, prop) :: rest, ?_, List.append_assoc .., hnodup⟩
        rw [List.mapM_eq_ok_iff] at hmap ⊢
        exact .cons (namedProperty_eq_ok_iff.mpr ⟨hname, rfl⟩) hmap
  obtain ⟨rest, hmap, rfl, hnodup⟩ := hrest [] List.nodup_nil propertyDefs hfold
  exact ⟨properties, hproperties, hmap, hnodup⟩

/-- The persisted properties are those of the definition, read back by name. -/
theorem get?_importPropertiesForObjectType {rows : Dict String PropertyTypeRow}
    (h : importPropertiesForObjectType objectDef = .ok rows) :
    ∃ properties, Yaml.mappingSequence objectDef "properties" = .ok properties ∧
      (∀ prop ∈ properties, ∃ row, propertyTypeRow prop = .ok row) ∧
      ∀ apiName row, rows.get? apiName = some row ↔
        ∃ prop ∈ properties, propertyTypeRow prop = .ok row ∧ row.apiName = apiName := by
  rw [importPropertiesForObjectType, bind_eq_ok_iff] at h
  obtain ⟨properties, hproperties, hfold⟩ := h
  have hrest : ∀ seen rows : Dict String PropertyTypeRow,
      properties.foldlM insertPropertyType seen = .ok rows →
      (∀ prop ∈ properties, ∃ row, propertyTypeRow prop = .ok row) ∧
        ∀ apiName row, rows.get? apiName = some row ↔ seen.get? apiName = some row ∨
          ∃ prop ∈ properties, propertyTypeRow prop = .ok row ∧ row.apiName = apiName := by
    clear hproperties hfold
    induction properties with
    | nil =>
      intro seen rows h
      obtain rfl := pure_eq_ok_iff.mp h
      simp
    | cons prop properties ih =>
      intro seen rows h
      rw [List.foldlM_cons, bind_eq_ok_iff] at h
      obtain ⟨seen', hseen', h⟩ := h
      simp only [insertPropertyType, bind_eq_ok_iff, rejectIf_eq_ok_iff,
        pure_eq_ok_iff, Option.not_isSome_iff_eq_none] at hseen'
      obtain ⟨row', hrow', -, hnew, rfl⟩ := hseen'
      obtain ⟨hall, hrows⟩ := ih _ rows h
      refine ⟨List.forall_mem_cons.mpr ⟨⟨row', hrow'⟩, hall⟩, fun apiName row => ?_⟩
      rw [hrows apiName row, Dict.get?_insert, List.exists_mem_cons_iff, hrow',
        Except.ok.injEq]
      split_ifs with hname
      · subst hname
        rw [hnew]
        grind
      · grind
  obtain ⟨hall, hrows⟩ := hrest ∅ rows hfold
  refine ⟨properties, hproperties, hall, fun apiName row => ?_⟩
  rw [hrows apiName row, Dict.get?_empty]
  simp

variable {segments : Segments} {objectApiName : String}

/-- The persisted datasources are those the properties name, with the default filled in. -/
theorem get?_resolvedPropertyDatasources {backing : Mapping} {resolved : Dict String String}
    (hsegments : backingDatasources backing = .ok segments)
    (hnodup : (propertyDefs.map Prod.fst).Nodup)
    (h : resolvedPropertyDatasources env backing propertyDefs = .ok resolved)
    {entry : String × Mapping} (hentry : entry ∈ propertyDefs) :
    ∃ name, propertyDatasourceName env entry.2 segments = .ok name ∧
      resolved.get? entry.1 = name := by
  simp only [resolvedPropertyDatasources, hsegments, bind_eq_ok_iff, Except.ok.injEq,
    exists_eq_left', pure_eq_ok_iff] at h
  obtain ⟨named, hnamed, rfl⟩ := h
  obtain ⟨found, hfound, hname⟩ := List.exists_mem_of_mapM_eq_ok hnamed hentry
  simp only [bind_eq_ok_iff, pure_eq_ok_iff] at hname
  obtain ⟨name, hname, rfl⟩ := hname
  refine ⟨name, hname, ?_⟩
  -- another binding of this name would come from this very property
  have hmem {value : String} (h : (entry.1, value) ∈ (named.filterMap id).reverse) :
      name = some value := by
    obtain ⟨binding, hbinding, hsome⟩ := List.mem_filterMap.mp (List.mem_reverse.mp h)
    obtain ⟨entry', hentry', hname'⟩ := List.exists_mem_of_mem_mapM_eq_ok hnamed hbinding
    simp only [bind_eq_ok_iff, pure_eq_ok_iff] at hname'
    obtain ⟨name', hname', rfl⟩ := hname'
    obtain ⟨value', rfl, hpair⟩ := Option.map_eq_some_iff.mp hsome
    obtain ⟨hfst, rfl⟩ := Prod.mk.inj hpair
    obtain rfl := List.inj_on_of_nodup_map hnodup hentry' hentry hfst
    exact Except.ok.inj (hname.symm.trans hname')
  rw [Dict.get?_ofList]
  cases hlookup : (named.filterMap id).reverse.lookup entry.1 with
  | some value => exact (hmem (Dict.mem_of_lookup_eq_some hlookup)).symm
  | none =>
    cases name with
    | none => rfl
    | some value =>
      have hbinding : (entry.1, value) ∈ (named.filterMap id).reverse :=
        List.mem_reverse.mpr (List.mem_filterMap.mpr ⟨_, hfound, rfl⟩)
      have hne := List.lookup_eq_none_iff.mp hlookup _ hbinding
      simp at hne

theorem propertyTypeRow_eq_ok {prop : Mapping} {row : PropertyTypeRow}
    (h : propertyTypeRow prop = .ok row) :
    Yaml.requiredStr prop "apiName" = .ok row.apiName ∧
      Yaml.optionalStr prop "column" = .ok row.columnName ∧
      (row.source = "dataset" ↔ isDatasetProperty prop) := by
  simp only [propertyTypeRow, bind_eq_ok_iff] at h
  obtain ⟨apiName, hname, source, hsource, h⟩ := h
  cases source with
  | none => simp at h
  | some source =>
    simp only [bind_eq_ok_iff, pure_eq_ok_iff] at h
    obtain ⟨columnName, hcolumn, rfl⟩ := h
    refine ⟨hname, hcolumn, ?_⟩
    rw [Yaml.optionalStr] at hsource
    rw [isDatasetProperty]
    split at hsource
    next hlookup =>
      rw [hlookup]
      obtain rfl := Option.some.inj (pure_eq_ok_iff.mp hsource)
      split_ifs with hcolumn <;> simp [hcolumn]
    next => cases pure_eq_ok_iff.mp hsource
    next hlookup =>
      rw [hlookup]
      obtain rfl := Option.some.inj (pure_eq_ok_iff.mp hsource)
      simp
    next => simp at hsource

theorem propertyDatasourceName_isSome {prop : Mapping} {name : Option String}
    (h : propertyDatasourceName env prop segments = .ok name) :
    name.isSome ↔ isDatasetProperty prop := by
  rw [propertyDatasourceName] at h
  split_ifs at h with hdataset
  · simp only [hdataset, iff_true]
    split at h
    · rw [← pure_eq_ok_iff.mp h]
      rfl
    · rw [← pure_eq_ok_iff.mp h]
      rfl
    · split at h
      · rw [← pure_eq_ok_iff.mp h]
        rfl
      · simp at h
  · simp only [hdataset]
    rw [← pure_eq_ok_iff.mp h]
    simp

/-- The assignment of a checked property. -/
theorem propertySegmentAssignment_eq_ok {entry : String × Mapping} {assignment : Option Assignment}
    (h : propertySegmentAssignment env objectApiName segments entry = .ok assignment)
    {name : Option String} (hname : propertyDatasourceName env entry.2 segments = .ok name) :
    (name = none ∧ assignment = none) ∨ ∃ datasource column, name = some datasource ∧
      Yaml.optionalStr entry.2 "column" = .ok (some column) ∧
      assignment = some ⟨entry.1, datasource, column⟩ := by
  simp only [propertySegmentAssignment, hname, bind_eq_ok_iff, Except.ok.injEq,
    exists_eq_left'] at h
  obtain ⟨-, -, h⟩ := h
  cases name with
  | none => exact .inl ⟨rfl, (pure_eq_ok_iff.mp h).symm⟩
  | some datasource =>
    simp only [bind_eq_ok_iff] at h
    obtain ⟨-, -, column, hcolumn, h⟩ := h
    cases column with
    | none => simp at h
    | some column =>
      exact .inr ⟨datasource, column, rfl, hcolumn, (pure_eq_ok_iff.mp h).symm⟩

end Lemmas

/-- An object type with several datasources that passed the check, and what was persisted of it. -/
structure ValidatedObjectType (env : Serialiser) (casefold : String → String)
    (datasetColumnsForRef : String → Checked DatasetColumns) where
  objectDef : Mapping
  propertyDefs : List (String × Mapping)
  objectType : ObjectTypeRow
  segments : Segments
  assignments : List Assignment
  propertyDefs_eq : propertyDefinitionsByApi casefold objectDef = .ok propertyDefs
  validated : validateYamlObjectDatasources env objectDef propertyDefs datasetColumnsForRef = .ok ()
  imported : importObjectType env objectDef = .ok objectType
  isMulti : isMultiDatasourceBacking objectType.backing
  segments_eq : backingDatasources objectType.backing = .ok segments
  assignments_eq : propertySegmentAssignments env objectType.apiName segments propertyDefs
    = .ok assignments

namespace ValidatedObjectType

variable {env : Serialiser} {casefold : String → String}
  {datasetColumnsForRef : String → Checked DatasetColumns}
  (t : ValidatedObjectType env casefold datasetColumnsForRef)

theorem nodup_propertyDefs : (t.propertyDefs.map Prod.fst).Nodup :=
  (propertyDefinitionsByApi_eq_ok t.propertyDefs_eq).choose_spec.2.2

/-- What an import that went through persisted. -/
theorem exists_imported : ∃ (properties : List Mapping) (resolved : Dict String String),
    properties.mapM namedProperty = .ok t.propertyDefs ∧
      t.objectType.propertyDatasources = some resolved ∧
      resolvedPropertyDatasources env t.objectType.backing t.propertyDefs = .ok resolved ∧
      (∀ prop ∈ properties, ∃ row, propertyTypeRow prop = .ok row) ∧
      ∀ apiName row, t.objectType.properties.get? apiName = some row ↔
        ∃ prop ∈ properties, propertyTypeRow prop = .ok row ∧ row.apiName = apiName := by
  have himported := t.imported
  simp only [importObjectType, bind_eq_ok_iff, pure_eq_ok_iff] at himported
  obtain ⟨apiName, -, primaryKey, -, backing, hbacking, datasources, hdatasources, rows, hrows,
    htype⟩ := himported
  obtain ⟨properties, hproperties, hnamed, -⟩ := propertyDefinitionsByApi_eq_ok t.propertyDefs_eq
  obtain ⟨properties', hproperties', hall, hget⟩ := get?_importPropertiesForObjectType hrows
  obtain rfl := Except.ok.inj (hproperties.symm.trans hproperties')
  have hmulti : isMultiDatasourceBacking backing := by
    have hisMulti := t.isMulti
    rwa [← htype] at hisMulti
  simp only [yamlPropertyDatasources, hbacking, bind_eq_ok_iff, Except.ok.injEq,
    exists_eq_left', hmulti, if_true, hproperties, hnamed, map_eq_ok_iff] at hdatasources
  obtain ⟨resolved, hresolved, rfl⟩ := hdatasources
  refine ⟨properties, resolved, hnamed, ?_, ?_, hall, ?_⟩
  · rw [← htype]
  · rw [← htype]
    exact hresolved
  · rw [← htype]
    exact hget

/-- A property was persisted with its source, its column and the datasource it names. -/
theorem exists_row {entry : String × Mapping} (hentry : entry ∈ t.propertyDefs) :
    ∃ row name, t.objectType.properties.get? entry.1 = some row ∧
      Yaml.optionalStr entry.2 "column" = .ok row.columnName ∧ (row.source = "dataset" ↔ name.isSome) ∧
      propertyDatasourceName env entry.2 t.segments = .ok name ∧
      (t.objectType.propertyDatasources.getD ∅).get? entry.1 = name := by
  obtain ⟨properties, resolved, hnamed, hdatasources, hresolved, hall, hget⟩ := t.exists_imported
  obtain ⟨prop, hprop, hentryProp⟩ := List.exists_mem_of_mem_mapM_eq_ok hnamed hentry
  obtain ⟨hname, rfl⟩ := namedProperty_eq_ok_iff.mp hentryProp
  obtain ⟨row, hrow⟩ := hall _ hprop
  obtain ⟨hrowName, hcolumn, hsource⟩ := propertyTypeRow_eq_ok hrow
  obtain ⟨name, hdatasource, hlookup⟩ :=
    get?_resolvedPropertyDatasources t.segments_eq t.nodup_propertyDefs hresolved hentry
  refine ⟨row, name, (hget _ _).mpr ⟨_, hprop, hrow, ?_⟩, hcolumn, ?_, hdatasource, ?_⟩
  · exact Except.ok.inj (hrowName.symm.trans hname)
  · rw [hsource, propertyDatasourceName_isSome hdatasource]
  · rw [hdatasources, Option.getD_some, hlookup]

/-- Only properties were persisted. -/
theorem mem_propertyDefs_of_get? {apiName : String} {row : PropertyTypeRow}
    (h : t.objectType.properties.get? apiName = some row) :
    ∃ prop, (apiName, prop) ∈ t.propertyDefs := by
  obtain ⟨properties, _, hnamed, -, -, -, hget⟩ := t.exists_imported
  obtain ⟨prop, hprop, hrow, rfl⟩ := (hget _ _).mp h
  obtain ⟨entry, hentry, hentryProp⟩ := List.exists_mem_of_mapM_eq_ok hnamed hprop
  obtain ⟨hname, rfl⟩ := namedProperty_eq_ok_iff.mp hentryProp
  obtain ⟨hrowName, -, -⟩ := propertyTypeRow_eq_ok hrow
  refine ⟨entry.2, ?_⟩
  rw [Except.ok.inj (hrowName.symm.trans hname)]
  exact hentry

/-- **What is persisted is what was checked**: a property is persisted with a datasource and a
column exactly when it was checked with them. -/
theorem mem_assignments_iff (apiName datasource column : String) :
    ⟨apiName, datasource, column⟩ ∈ t.assignments ↔
      ∃ row, t.objectType.properties.get? apiName = some row ∧ row.source = "dataset" ∧
        row.columnName = some column ∧
        ((t.objectType.propertyDatasources.getD ∅).get? apiName).getD t.segments.first.name
          = datasource := by
  have hassignments := t.assignments_eq
  simp only [propertySegmentAssignments, bind_eq_ok_iff, pure_eq_ok_iff]
    at hassignments
  obtain ⟨found, hfound, hassignments⟩ := hassignments
  rw [← hassignments, List.mem_filterMap]
  constructor
  · rintro ⟨assignment, hmem, hsome⟩
    obtain rfl : assignment = some ⟨apiName, datasource, column⟩ := hsome
    obtain ⟨entry, hentry, hassignment⟩ := List.exists_mem_of_mem_mapM_eq_ok hfound hmem
    obtain ⟨row, name, hrow, hcolumn, hsource, hname, hdatasource⟩ := t.exists_row hentry
    rcases propertySegmentAssignment_eq_ok hassignment hname with
      ⟨-, hnone⟩ | ⟨datasource', column', rfl, hcolumn', heq⟩
    · cases hnone
    · obtain ⟨rfl, rfl, rfl⟩ := Assignment.mk.inj (Option.some.inj heq)
      refine ⟨row, hrow, hsource.mpr rfl, Except.ok.inj (hcolumn.symm.trans hcolumn'), ?_⟩
      rw [hdatasource, Option.getD_some]
  · rintro ⟨row, hrow, hsource, hcolumn, hdatasource⟩
    obtain ⟨prop, hentry⟩ := t.mem_propertyDefs_of_get? hrow
    obtain ⟨row', name, hrow', hcolumn', hsource', hname, hdatasource'⟩ := t.exists_row hentry
    obtain rfl := Option.some.inj (hrow.symm.trans hrow')
    obtain ⟨assignment, hmem, hassignment⟩ := List.exists_mem_of_mapM_eq_ok hfound hentry
    obtain ⟨name, rfl⟩ := Option.isSome_iff_exists.mp (hsource'.mp hsource)
    rcases propertySegmentAssignment_eq_ok hassignment hname with
      ⟨hnone, -⟩ | ⟨datasource'', column', heq, hcolumn'', rfl⟩
    · cases hnone
    · obtain rfl := Option.some.inj heq
      rw [hdatasource', Option.getD_some] at hdatasource
      rw [hcolumn', hcolumn, Except.ok.injEq, Option.some.injEq] at hcolumn''
      exact ⟨_, hmem, by rw [hdatasource, hcolumn'']; rfl⟩

end ValidatedObjectType

end FoundryLite.Ontology.DatasourceValidation
