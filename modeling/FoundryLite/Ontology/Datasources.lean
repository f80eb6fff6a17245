import FoundryLite.Ontology.Definition

/-!
# Datasource segments of an object backing

The backing of an object type names one dataset, or several datasources each of which feeds some
of the properties. Either form is normalised to a nonempty list of segments, so that every
consumer reasons about one shape.
-/

namespace FoundryLite.Ontology

def primaryDatasourceName : String := "primary"

structure DatasourceSegment where
  name : String
  datasetRef : String
  primaryKeyColumns : List String
  requiredRole : Option String
  deriving DecidableEq

/-- The segments of a backing: there is a first one. -/
structure Segments where
  first : DatasourceSegment
  rest : List DatasourceSegment

def Segments.toList (segments : Segments) : List DatasourceSegment :=
  segments.first :: segments.rest

/-- The segments by name; of several with one name the last is read. -/
def Segments.byName (segments : Segments) : List (String × DatasourceSegment) :=
  (segments.toList.map fun segment => (segment.name, segment)).reverse

def declaredDatasources (backing : Mapping) : List Json :=
  match backing.lookup "datasources" with
  | some (.arr items) => items
  | _ => []

def isMultiDatasourceBacking (backing : Mapping) : Bool := !(declaredDatasources backing).isEmpty

def nonEmptyString (name : String) : Json → Checked String
  | .str value =>
    if value = "" then validationFailed s!"{name} entries must be non-empty strings"
    else pure value
  | _ => validationFailed s!"{name} entries must be non-empty strings"

def stringTuple (value : Option Json) (name : String) : Checked (List String) :=
  match value with
  | none => pure []
  | some .null => pure []
  | some (.arr items) => items.mapM (nonEmptyString name)
  | some _ => validationFailed s!"{name} must be a list of strings"

/-- A nonempty string field, if it is one. -/
def nonEmptyField (mapping : Mapping) (key : String) : Option String :=
  match mapping.lookup key with
  | some (.str value) => if value = "" then none else some value
  | _ => none

def singleDatasetSegment (backing : Mapping) : Checked DatasourceSegment :=
  match nonEmptyField backing "dataset" with
  | none => validationFailed "object backing must declare a dataset or datasources"
  | some dataset => do
    let columns ← stringTuple (backing.lookup "primaryKeyColumns") "primaryKeyColumns"
    pure ⟨primaryDatasourceName, dataset, columns, none⟩

def segmentRequiredRole (entry : Mapping) (name : String) : Checked (Option String) :=
  match entry.lookup "requiredRole" with
  | none => pure none
  | some .null => pure none
  | some _ =>
    match nonEmptyField entry "requiredRole" with
    | none => validationFailed "datasource requiredRole must be a non-empty string"
        [("datasource", .str name)]
    | some role => pure (some role)

def declaredSegment : Json → Checked DatasourceSegment
  | .obj entry =>
    match nonEmptyField entry "name" with
    | none => validationFailed "datasource name must be a non-empty string"
    | some name =>
      match nonEmptyField entry "dataset" with
      | none =>
        validationFailed "datasource dataset must be a non-empty string" [("datasource", .str name)]
      | some dataset => do
        let requiredRole ← segmentRequiredRole entry name
        let columns ← stringTuple (entry.lookup "primaryKeyColumns") "primaryKeyColumns"
        pure ⟨name, dataset, columns, requiredRole⟩
  | _ => validationFailed "backing datasources entries must be mappings"

/-- The segments of a backing in declaration order; a single dataset is one segment. -/
def backingDatasources (backing : Mapping) : Checked Segments :=
  match declaredDatasources backing with
  | [] => do
    let segment ← singleDatasetSegment backing
    pure ⟨segment, []⟩
  | item :: items => do
    let first ← declaredSegment item
    let rest ← items.mapM declaredSegment
    pure ⟨first, rest⟩

def isDatasetProperty (prop : Mapping) : Bool :=
  match prop.lookup "source" with
  | none => (prop.lookup "column").isSome
  | some .null => (prop.lookup "column").isSome
  | some source => source = .str "dataset"

/-- The segment a property declaration names, none for the edit layer; without a name it is the
first one. -/
def propertyDatasourceName (env : Serialiser) (prop : Mapping) (segments : Segments) :
    Checked (Option String) :=
  if isDatasetProperty prop then
    match prop.lookup "datasource" with
    | none => pure (some segments.first.name)
    | some .null => pure (some segments.first.name)
    | some declared =>
      match nonEmptyField prop "datasource" with
      | some name => pure (some name)
      | none => validationFailed
          ("property datasource must be a single datasource name " ++
            "(row-wise multi-datasource is not supported)")
          [("property", .str (env.str ((prop.lookup "apiName").getD (.str "")))),
            ("datasource", .str (env.str declared))]
  else pure none

end FoundryLite.Ontology
