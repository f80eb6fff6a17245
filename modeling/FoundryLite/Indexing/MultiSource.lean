import FoundryLite.Ontology.DatasourceValidation
import Mathlib.Data.List.Induction

/-!
# Merging the datasources of an object type

An object type with several datasources is indexed from one merged row per primary key. A merged
row is keyed by column name, like the row of a single dataset: the columns of all the segments are
put into one dictionary, then the columns that are mapped to properties, segment after segment, and
last the primary key under its canonical column.

## Main results

* `mergedRow_eq_ok`: what a merged row has in its columns.
-/

namespace FoundryLite.Indexing

open Ontology (backingDatasources)
open Ontology.Yaml (member strings)
open Ontology.DatasourceValidation

/-! ### The plan -/

/-- A source row, keyed by column. -/
abbrev TabularRow := Dict String Json

structure ObjectIndexSourceSegment where
  name : String
  datasetRef : String
  primaryKeyColumn : String
  /-- The columns of the properties that are assigned to this segment. -/
  propertyColumns : List String
  datasetVersionId : String
  deriving DecidableEq

structure ObjectIndexMultiSourcePlan where
  primaryKeyColumn : String
  segments : List ObjectIndexSourceSegment

def canonicalPrimaryKeyColumn (objectType : ObjectTypeRow) : Checked String :=
  match (objectType.properties.get? objectType.primaryKeyProperty).bind
    PropertyTypeRow.columnName with
  | some column => pure column
  | none => validationFailed "object primary key column missing"
      [("objectType", .str objectType.apiName)]

/-- The columns of the dataset properties of one segment; the primary key is in none. -/
def propertyColumns (objectType : ObjectTypeRow) (defaultName segmentName : String) : List String :=
  objectType.properties.entries.filterMap fun (apiName, prop) =>
    let declared := objectType.propertyDatasources.getD ∅
    if prop.source = "dataset" ∧ apiName ≠ objectType.primaryKeyProperty ∧
      (declared.get? apiName).getD defaultName = segmentName
    then prop.columnName
    else none

def zipStrict {α β : Type} (xs : List α) (ys : List β) : Checked (List (α × β)) :=
  if xs.length = ys.length then pure (xs.zip ys)
  else throw (libraryError "zip() arguments have different lengths")

def multiSourcePlan (objectType : ObjectTypeRow) (versionIds : List String) :
    Checked ObjectIndexMultiSourcePlan := do
  let segments ← backingDatasources objectType.backing
  let pkColumn ← canonicalPrimaryKeyColumn objectType
  let versioned ← zipStrict segments.toList versionIds
  return {
    primaryKeyColumn := pkColumn
    segments := versioned.map fun (segment, versionId) =>
      { name := segment.name
        datasetRef := segment.datasetRef
        primaryKeyColumn := segmentPrimaryKeyColumn segment pkColumn
        propertyColumns := propertyColumns objectType segments.first.name segment.name
        datasetVersionId := versionId } }

/-! ### The rows of a segment -/

section Merge

variable (env : Serialiser)

def duplicateValues (values : List String) : List String :=
  (Dict.sortedSet values).filter fun value => 1 < values.count value

def requireUniqueSourceObjectIds (objectTypeApiName : String) (objectIds : List String)
    (sourceDatasetVersionId : Option String) : Checked Unit :=
  let duplicates := duplicateValues objectIds
  rejectIf (duplicates ≠ []) "object source snapshot contains duplicate primary keys"
    ([("objectType", .str objectTypeApiName), ("duplicateObjectIds", strings duplicates)] ++
      member "sourceDatasetVersionId" (sourceDatasetVersionId.map .str))

/-- The text of a primary key; a value that is no scalar cannot be looked up in a set. -/
def primaryKeyText (objectTypeApiName : String) (segment : ObjectIndexSourceSegment)
    (row : TabularRow) : Checked String :=
  let missing : Checked String := validationFailed "object primary key cannot be null"
    [("objectType", .str objectTypeApiName), ("datasource", .str segment.name)]
  match row.get? segment.primaryKeyColumn with
  | none | some .null | some (.str "") => missing
  | some (.arr _) | some (.obj _) => throw (libraryError "unhashable type")
  | some value => pure (env.str value)

def segmentRowsByPk (objectTypeApiName : String) (segment : ObjectIndexSourceSegment)
    (rows : List TabularRow) : Checked (List (String × TabularRow)) := do
  let keyed ← rows.mapM fun row => do
    let pk ← primaryKeyText env objectTypeApiName segment row
    return (pk, row)
  requireUniqueSourceObjectIds objectTypeApiName (keyed.map Prod.fst) segment.datasetVersionId
  return keyed

/-! ### The merge -/

/-- A segment with its rows by primary key. -/
abbrev SegmentRows := ObjectIndexSourceSegment × List (String × TabularRow)

/-- The primary keys of all segments, in the order in which they are first seen. -/
def unionPrimaryKeys (segmentRows : List SegmentRows) : List String :=
  (segmentRows.flatMap fun rows => rows.2.map Prod.fst).foldl
    (fun ordered pk => if pk ∈ ordered then ordered else ordered ++ [pk]) []

/-- The value of a column in a segment, null where the segment has no row for the key. -/
def segmentValue (rows : SegmentRows) (pk column : String) : Json :=
  ((rows.2.lookup pk).bind fun row => row.get? column).getD .null

def rawPrimaryKey (segmentRows : List SegmentRows) (pk : String) : Checked Json :=
  match segmentRows.find? fun rows => (rows.2.lookup pk).isSome with
  | some rows => pure (segmentValue rows pk rows.1.primaryKeyColumn)
  | none => validationFailed "merged primary key vanished from every segment" [("objectId", .str pk)]

def putPropertyColumns (pk : String) (row : TabularRow) (rows : SegmentRows) : TabularRow :=
  rows.1.propertyColumns.foldl (fun row column => row.insert column (segmentValue rows pk column)) row

def mergedRow (primaryKeyColumn : String) (segmentRows : List SegmentRows) (pk : String) :
    Checked TabularRow := do
  let row : TabularRow := segmentRows.foldl (fun row rows =>
    match rows.2.lookup pk with
    | some segmentRow => row.update segmentRow
    | none => row) ∅
  -- property columns come from their own segment, even if another one shares the name
  let row := segmentRows.foldl (putPropertyColumns pk) row
  let raw ← rawPrimaryKey segmentRows pk
  return row.insert primaryKeyColumn raw

/-- Read the rows of every segment and merge them by primary key. -/
def readMergedSourceRows (objectTypeApiName : String) (plan : ObjectIndexMultiSourcePlan)
    (rowsOf : String → List TabularRow) : Checked (List TabularRow) := do
  let segmentRows ← plan.segments.mapM fun segment => do
    let rows ← segmentRowsByPk env objectTypeApiName segment (rowsOf segment.datasetVersionId)
    return (segment, rows)
  (unionPrimaryKeys segmentRows).mapM (mergedRow plan.primaryKeyColumn segmentRows)

/-! ### The keys of the merged rows -/

theorem mem_foldl_firstSeen {pk : String} (keys ordered : List String) :
    pk ∈ keys.foldl (fun ordered pk => if pk ∈ ordered then ordered else ordered ++ [pk]) ordered ↔
      pk ∈ ordered ∨ pk ∈ keys := by
  induction keys generalizing ordered with
  | nil => simp
  | cons key keys ih =>
    rw [List.foldl_cons, ih]
    split_ifs with h
    · rw [List.mem_cons]
      exact ⟨Or.imp_right .inr, fun hpk => hpk.elim .inl fun hpk =>
        hpk.elim (fun heq => .inl (heq ▸ h)) .inr⟩
    · rw [List.mem_append, List.mem_singleton, List.mem_cons, or_assoc]

theorem nodup_foldl_firstSeen (keys : List String) {ordered : List String} (h : ordered.Nodup) :
    (keys.foldl (fun ordered pk => if pk ∈ ordered then ordered else ordered ++ [pk])
      ordered).Nodup := by
  induction keys generalizing ordered with
  | nil => exact h
  | cons key keys ih =>
    rw [List.foldl_cons]
    split_ifs with hkey
    · exact ih h
    · exact ih (List.nodup_append.mpr ⟨h, List.nodup_singleton key, fun a ha b hb hab =>
        hkey (List.mem_singleton.mp hb ▸ hab ▸ ha)⟩)

theorem nodup_unionPrimaryKeys (segmentRows : List SegmentRows) :
    (unionPrimaryKeys segmentRows).Nodup := nodup_foldl_firstSeen _ List.nodup_nil

theorem mem_unionPrimaryKeys {segmentRows : List SegmentRows} {pk : String} :
    pk ∈ unionPrimaryKeys segmentRows ↔ ∃ rows ∈ segmentRows, pk ∈ rows.2.map Prod.fst := by
  rw [unionPrimaryKeys, mem_foldl_firstSeen, List.mem_flatMap]
  simp only [List.not_mem_nil, false_or]

/-! ### The columns of a merged row -/

section MergedRow

variable {segmentRows : List SegmentRows} {pk column primaryKeyColumn : String}
  {row : TabularRow}

theorem get?_putPropertyColumns (rows : SegmentRows) (row : TabularRow) (pk column : String) :
    (putPropertyColumns pk row rows).get? column
      = if column ∈ rows.1.propertyColumns then some (segmentValue rows pk column)
        else row.get? column := by
  rw [putPropertyColumns]
  induction rows.1.propertyColumns using List.reverseRecOn with
  | nil => rfl
  | append_singleton columns last ih =>
    rw [List.foldl_concat, Dict.get?_insert, ih]
    simp only [List.mem_append, List.mem_singleton]
    grind

/-- The last segment that a column is mapped in provides it. -/
theorem get?_foldl_putPropertyColumns (row : TabularRow) {rows : SegmentRows}
    (hlast : segmentRows.reverse.find? (fun rows => column ∈ rows.1.propertyColumns) = some rows) :
    (segmentRows.foldl (putPropertyColumns pk) row).get? column
      = some (segmentValue rows pk column) := by
  induction segmentRows using List.reverseRecOn with
  | nil => simp at hlast
  | append_singleton segmentRows last ih =>
    rw [List.reverse_concat, List.find?_cons] at hlast
    rw [List.foldl_concat, get?_putPropertyColumns]
    by_cases hmem : column ∈ last.1.propertyColumns
    · simp only [hmem, decide_true, Option.some.injEq] at hlast
      rw [if_pos hmem, hlast]
    · simp only [hmem, decide_false] at hlast
      rw [if_neg hmem]
      exact ih hlast

/-- What a merged row has in the canonical key column and in a column of a property. -/
theorem mergedRow_eq_ok (h : mergedRow primaryKeyColumn segmentRows pk = .ok row) :
    (∃ rows ∈ segmentRows, (rows.2.lookup pk).isSome ∧
      row.get? primaryKeyColumn = some (segmentValue rows pk rows.1.primaryKeyColumn)) ∧
    ∀ column rows, column ≠ primaryKeyColumn →
      segmentRows.reverse.find? (fun rows => column ∈ rows.1.propertyColumns) = some rows →
        row.get? column = some (segmentValue rows pk column) := by
  rw [mergedRow, Except.bind_eq_ok_iff] at h
  obtain ⟨raw, hraw, hrow⟩ := h
  obtain rfl := Except.pure_eq_ok_iff.mp hrow
  constructor
  · rw [rawPrimaryKey] at hraw
    cases hfind : segmentRows.find? fun rows => (rows.2.lookup pk).isSome with
    | none => simp [hfind] at hraw
    | some rows =>
      rw [hfind] at hraw
      refine ⟨rows, List.mem_of_find?_eq_some hfind, by
        simpa using List.find?_some hfind, ?_⟩
      rw [Dict.get?_insert, if_pos rfl, Except.pure_eq_ok_iff.mp hraw]
  · intro column rows hne hlast
    rw [Dict.get?_insert, if_neg hne, get?_foldl_putPropertyColumns _ hlast]

end MergedRow

/-! ### The rows of a segment by key -/

section Rows

variable {env} {objectTypeApiName : String} {segment : ObjectIndexSourceSegment}
  {rows : List TabularRow} {keyed : List (String × TabularRow)}

/-- The text of the key of a row, if the row has one. -/
def rowKey (env : Serialiser) (column : String) (row : TabularRow) : Option String :=
  (row.get? column).map env.str

theorem primaryKeyText_eq_ok {row : TabularRow} {pk : String}
    (h : primaryKeyText env objectTypeApiName segment row = .ok pk) :
    ∃ value, row.get? segment.primaryKeyColumn = some value ∧ value ≠ .null ∧
      env.str value = pk := by
  unfold primaryKeyText at h
  dsimp only at h
  split at h
  · simp at h
  · simp at h
  · simp at h
  · cases h
  · cases h
  · rename_i value hnull _ _ _ hget
    exact ⟨value, hget, hnull, Except.pure_eq_ok_iff.mp h⟩

theorem duplicateValues_eq_nil_iff {values : List String} :
    duplicateValues values = [] ↔ values.Nodup := by
  rw [duplicateValues, List.filter_eq_nil_iff, List.nodup_iff_count_le_one]
  simp only [Dict.mem_sortedSet, decide_eq_true_eq, not_lt]
  constructor
  · intro h value
    by_cases hmem : value ∈ values
    · exact h value hmem
    · rw [List.count_eq_zero_of_not_mem hmem]
      exact Nat.zero_le 1
  · exact fun h value _ => h value

theorem segmentRowsByPk_eq_ok_iff :
    segmentRowsByPk env objectTypeApiName segment rows = .ok keyed ↔
      List.Forall₂ (fun row entry =>
        primaryKeyText env objectTypeApiName segment row = .ok entry.1 ∧ row = entry.2) rows keyed ∧
      (keyed.map Prod.fst).Nodup := by
  have hentry (row : TabularRow) (entry : String × TabularRow) :
      (∃ pk, primaryKeyText env objectTypeApiName segment row = .ok pk ∧ (pk, row) = entry) ↔
        primaryKeyText env objectTypeApiName segment row = .ok entry.1 ∧ row = entry.2 := by
    obtain ⟨pk, row'⟩ := entry
    simp only [Prod.mk.injEq]
    grind
  simp only [segmentRowsByPk, requireUniqueSourceObjectIds, Except.bind_eq_ok_iff,
    List.mapM_eq_ok_iff, rejectIf_eq_ok_iff, not_not, duplicateValues_eq_nil_iff,
    Except.pure_eq_ok_iff, exists_const, hentry]
  constructor
  · rintro ⟨keyed, hkeyed, hnodup, rfl⟩
    exact ⟨hkeyed, hnodup⟩
  · rintro ⟨hkeyed, hnodup⟩
    exact ⟨keyed, hkeyed, hnodup, rfl⟩

theorem exists_primaryKeyText
    (h : segmentRowsByPk env objectTypeApiName segment rows = .ok keyed) {row : TabularRow}
    (hrow : row ∈ rows) : ∃ pk, primaryKeyText env objectTypeApiName segment row = .ok pk := by
  rw [segmentRowsByPk, Except.bind_eq_ok_iff] at h
  obtain ⟨keyed', hkeyed, -⟩ := h
  obtain ⟨_, -, hentry⟩ := List.exists_mem_of_mapM_eq_ok hkeyed hrow
  obtain ⟨pk, hpk, -⟩ := Except.bind_eq_ok_iff.mp hentry
  exact ⟨pk, hpk⟩

theorem lookup_isSome_iff_mem_keys {pk : String} :
    (keyed.lookup pk).isSome ↔ pk ∈ keyed.map Prod.fst := by
  rw [List.lookup_isSome_iff, List.mem_map]
  exact exists_congr fun entry => and_congr_right fun _ => by rw [beq_iff_eq, eq_comm]

/-- A key of some segment has a merged row. -/
theorem exists_mergedRow_eq_ok {segmentRows : List SegmentRows} {pk : String}
    (hpk : pk ∈ unionPrimaryKeys segmentRows) (primaryKeyColumn : String) :
    ∃ row, mergedRow primaryKeyColumn segmentRows pk = .ok row := by
  obtain ⟨rows, hrows, hmem⟩ := mem_unionPrimaryKeys.mp hpk
  cases hfind : segmentRows.find? fun rows => (rows.2.lookup pk).isSome with
  | none =>
    have hnone := List.find?_eq_none.mp hfind rows hrows
    exact absurd (lookup_isSome_iff_mem_keys.mpr hmem) hnone
  | some rows =>
    have hraw : rawPrimaryKey segmentRows pk
        = .ok (segmentValue rows pk rows.1.primaryKeyColumn) := by
      rw [rawPrimaryKey, hfind]
      rfl
    exact ⟨_, Except.bind_eq_ok_iff.mpr ⟨_, hraw, rfl⟩⟩

/-- The row of a key is the one whose key column has that text. -/
theorem lookup_segmentRowsByPk
    (h : segmentRowsByPk env objectTypeApiName segment rows = .ok keyed) (pk : String) :
    keyed.lookup pk = rows.find? fun row => rowKey env segment.primaryKeyColumn row = some pk := by
  have hrows := (segmentRowsByPk_eq_ok_iff.mp h).1
  clear h
  induction hrows with
  | nil => rfl
  | @cons row entry rows keyed hentry _ ih =>
    obtain ⟨htext, rfl⟩ := hentry
    obtain ⟨value, hvalue, -, hpk⟩ := primaryKeyText_eq_ok htext
    have hkey : rowKey env segment.primaryKeyColumn entry.2 = some entry.1 := by
      rw [rowKey, hvalue, Option.map_some, hpk]
    rw [List.lookup_cons, List.find?_cons, hkey, ih]
    by_cases heq : pk = entry.1
    · simp [heq]
    · simp [beq_false_of_ne heq, Ne.symm heq]

/-- The keys of the accepted rows are their key texts. -/
theorem mem_keys_segmentRowsByPk
    (h : segmentRowsByPk env objectTypeApiName segment rows = .ok keyed) {pk : String} :
    pk ∈ keyed.map Prod.fst ↔ ∃ row ∈ rows, rowKey env segment.primaryKeyColumn row = some pk := by
  rw [← lookup_isSome_iff_mem_keys, lookup_segmentRowsByPk h, List.find?_isSome]
  simp only [decide_eq_true_eq]

end Rows

end Merge

end FoundryLite.Indexing
