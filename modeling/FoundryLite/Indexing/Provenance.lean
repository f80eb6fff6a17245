import FoundryLite.Indexing.MultiSource
import Mathlib.Data.Option.Basic

/-!
# Where merged values come from

A property of an object type with several datasources belongs to one of them, and its value in a
merged row should be the value that this datasource has in the property's column for the key, and
null when it has no row for the key.

A merged row has one place for each column name. Two properties of different datasources that name
the same column share that place, and so do a property that names the canonical column of the
primary key and the key itself. Nothing in the declarations is refused for it: the value of one of
the two is then taken from the other's datasource. When no two datasources share a column in this
way, unless they read the same rows by the same key, every value comes from its own datasource.

## Main results

* `hasProvenance_iff`: for an object type that passed validation.
-/

namespace FoundryLite.Indexing

open Ontology (Segments)
open Ontology.Yaml (member strings)
open Ontology.DatasourceValidation
open Except (bind_eq_ok_iff pure_eq_ok_iff)

section Plan

variable (env : Serialiser) {objectTypeApiName : String} {plan : ObjectIndexMultiSourcePlan}
  {rowsOf : String → List TabularRow} {merged : List TabularRow}

/-- The value a segment's source rows have in a column for a key, null without a row. -/
def sourceValue (rowsOf : String → List TabularRow) (segment : ObjectIndexSourceSegment)
    (pk column : String) : Json :=
  (((rowsOf segment.datasetVersionId).find? fun row =>
    rowKey env segment.primaryKeyColumn row = some pk).bind fun row => row.get? column).getD .null

/-- The merged rows have the keys of the source rows, each once. -/
structure HasKeys (plan : ObjectIndexMultiSourcePlan) (rowsOf : String → List TabularRow)
    (merged : List TabularRow) : Prop where
  nodup : (merged.map (rowKey env plan.primaryKeyColumn)).Nodup
  mem_iff : ∀ pk, some pk ∈ merged.map (rowKey env plan.primaryKeyColumn) ↔
    ∃ segment ∈ plan.segments, ∃ row ∈ rowsOf segment.datasetVersionId,
      rowKey env segment.primaryKeyColumn row = some pk
  /-- A key is the key of some source row as it stands there. -/
  raw : ∀ row ∈ merged, ∃ segment ∈ plan.segments, ∃ source ∈ rowsOf segment.datasetVersionId,
    ∃ value, value ≠ .null ∧ row.get? plan.primaryKeyColumn = some value ∧
      source.get? segment.primaryKeyColumn = some value

/-- In every merged row the column of a property has the value its segment has for the key. -/
def ValueFrom (plan : ObjectIndexMultiSourcePlan) (rowsOf : String → List TabularRow)
    (merged : List TabularRow) (segment : ObjectIndexSourceSegment) (column : String) : Prop :=
  ∀ row ∈ merged, ∀ pk, rowKey env plan.primaryKeyColumn row = some pk →
    (row.get? column).getD .null = sourceValue env rowsOf segment pk column

/-- The two segments read the same rows by the same key. -/
def SameRows (segment segment' : ObjectIndexSourceSegment) : Prop :=
  segment.datasetVersionId = segment'.datasetVersionId ∧
    segment.primaryKeyColumn = segment'.primaryKeyColumn

/-- No column of a property has a second owner: neither a property of a segment that reads other
rows, nor the primary key. -/
structure ColumnsApart (plan : ObjectIndexMultiSourcePlan) : Prop where
  property : ∀ segment ∈ plan.segments, ∀ segment' ∈ plan.segments, ∀ column,
    column ∈ segment.propertyColumns → column ∈ segment'.propertyColumns → SameRows segment segment'
  key : ∀ segment ∈ plan.segments, plan.primaryKeyColumn ∈ segment.propertyColumns →
    segment.primaryKeyColumn = plan.primaryKeyColumn ∧
      ∀ segment' ∈ plan.segments, SameRows segment segment'

variable {env} {segment segment' : ObjectIndexSourceSegment}

theorem SameRows.symm (h : SameRows segment segment') : SameRows segment' segment :=
  ⟨h.1.symm, h.2.symm⟩

theorem SameRows.trans {segment'' : ObjectIndexSourceSegment} (h : SameRows segment segment')
    (h' : SameRows segment' segment'') : SameRows segment segment'' :=
  ⟨h.1.trans h'.1, h.2.trans h'.2⟩

theorem SameRows.sourceValue_eq (h : SameRows segment segment') (pk column : String) :
    sourceValue env rowsOf segment pk column = sourceValue env rowsOf segment' pk column := by
  rw [sourceValue, sourceValue, h.1, h.2]

/-- A read that goes through has grouped the rows of every segment. -/
theorem readMergedSourceRows_eq_ok
    (h : readMergedSourceRows env objectTypeApiName plan rowsOf = .ok merged) :
    ∃ segmentRows : List SegmentRows, segmentRows.map Prod.fst = plan.segments ∧
      (∀ rows ∈ segmentRows, segmentRowsByPk env objectTypeApiName rows.1
        (rowsOf rows.1.datasetVersionId) = .ok rows.2) ∧
      (unionPrimaryKeys segmentRows).mapM (mergedRow plan.primaryKeyColumn segmentRows)
        = .ok merged := by
  rw [readMergedSourceRows, bind_eq_ok_iff] at h
  obtain ⟨segmentRows, hsegments, hmerged⟩ := h
  refine ⟨segmentRows, ?_, fun rows hrows => ?_, hmerged⟩
  · rw [List.mapM_eq_ok_iff] at hsegments
    clear hmerged
    generalize plan.segments = segments at hsegments
    induction hsegments with
    | nil => rfl
    | cons hhead _ ih =>
      obtain ⟨rows, -, hrows⟩ := bind_eq_ok_iff.mp hhead
      rw [List.map_cons, ih, ← pure_eq_ok_iff.mp hrows]
  · obtain ⟨segment, -, hsegment⟩ := List.exists_mem_of_mem_mapM_eq_ok hsegments hrows
    obtain ⟨keyed, hkeyed, hpair⟩ := bind_eq_ok_iff.mp hsegment
    obtain rfl := pure_eq_ok_iff.mp hpair
    exact hkeyed

/-- A grouped segment gives for a key and a column what its source rows have. -/
theorem segmentValue_eq_sourceValue {rows : SegmentRows}
    (h : segmentRowsByPk env objectTypeApiName rows.1 (rowsOf rows.1.datasetVersionId) = .ok rows.2)
    (pk column : String) :
    segmentValue rows pk column = sourceValue env rowsOf rows.1 pk column := by
  rw [segmentValue, sourceValue, lookup_segmentRowsByPk h]

/-- The key column of a segment holds the key of the row that is found by it. -/
theorem sourceValue_primaryKeyColumn {rows : SegmentRows} {pk : String}
    (h : segmentRowsByPk env objectTypeApiName rows.1 (rowsOf rows.1.datasetVersionId) = .ok rows.2)
    (hpk : (rows.2.lookup pk).isSome) :
    ∃ source ∈ rowsOf rows.1.datasetVersionId,
      source.get? rows.1.primaryKeyColumn
        = some (sourceValue env rowsOf rows.1 pk rows.1.primaryKeyColumn) ∧
      sourceValue env rowsOf rows.1 pk rows.1.primaryKeyColumn ≠ .null ∧
      env.str (sourceValue env rowsOf rows.1 pk rows.1.primaryKeyColumn) = pk := by
  obtain ⟨source, hsource⟩ := Option.isSome_iff_exists.mp hpk
  have hlookup := lookup_segmentRowsByPk h pk
  rw [hsource] at hlookup
  have hmem := List.mem_of_find?_eq_some hlookup.symm
  have hkey : rowKey env rows.1.primaryKeyColumn source = some pk := by
    simpa using List.find?_some hlookup.symm
  -- the row was accepted, so its key is there and is not null
  obtain ⟨_, htext⟩ := exists_primaryKeyText h hmem
  obtain ⟨value, hvalue, hnull, -⟩ := primaryKeyText_eq_ok htext
  have hsv : sourceValue env rowsOf rows.1 pk rows.1.primaryKeyColumn = value := by
    rw [sourceValue, ← hlookup, Option.bind_some, hvalue, Option.getD_some]
  rw [rowKey, hvalue, Option.map_some, Option.some.injEq] at hkey
  rw [hsv]
  exact ⟨source, hmem, hvalue, hnull, hkey⟩

/-- What a read that goes through put into a merged row: a key of some segment under the canonical
column, and under the column of a property what the last segment with this column has. -/
theorem get?_of_mem_merged
    (h : readMergedSourceRows env objectTypeApiName plan rowsOf = .ok merged) {row : TabularRow}
    (hrow : row ∈ merged) {pk : String} (hpk : rowKey env plan.primaryKeyColumn row = some pk) :
    (∃ segment ∈ plan.segments, ∃ source ∈ rowsOf segment.datasetVersionId, ∃ value,
      value ≠ .null ∧ row.get? plan.primaryKeyColumn = some value ∧
        source.get? segment.primaryKeyColumn = some value ∧
        value = sourceValue env rowsOf segment pk segment.primaryKeyColumn) ∧
    ∀ column segment, column ≠ plan.primaryKeyColumn →
      plan.segments.reverse.find? (fun segment => column ∈ segment.propertyColumns)
        = some segment →
      row.get? column = some (sourceValue env rowsOf segment pk column) := by
  obtain ⟨segmentRows, hsegments, hrows, hmerged⟩ := readMergedSourceRows_eq_ok h
  obtain ⟨pk', -, hrowPk⟩ := List.exists_mem_of_mem_mapM_eq_ok hmerged hrow
  obtain ⟨⟨rows, hmem, hpresent, hkey⟩, hcolumns⟩ := mergedRow_eq_ok hrowPk
  obtain ⟨source, hsource, hvalue, hnull, htext⟩ :=
    sourceValue_primaryKeyColumn (hrows rows hmem) hpresent
  rw [segmentValue_eq_sourceValue (hrows rows hmem)] at hkey
  obtain rfl : pk' = pk := by
    rw [rowKey, hkey, Option.map_some, htext] at hpk
    exact Option.some.inj hpk
  refine ⟨⟨rows.1, hsegments ▸ List.mem_map_of_mem hmem, source, hsource, _, hnull, hkey, hvalue,
    rfl⟩, fun column segment hne hlast => ?_⟩
  rw [← hsegments, ← List.map_reverse, List.find?_map, Option.map_eq_some_iff] at hlast
  obtain ⟨owner, howner, rfl⟩ := hlast
  have hownerMem : owner ∈ segmentRows := List.mem_reverse.mp (List.mem_of_find?_eq_some howner)
  rw [hcolumns column owner hne howner, segmentValue_eq_sourceValue (hrows owner hownerMem)]

/-- A merged row has a key. -/
theorem exists_rowKey_of_mem_merged
    (h : readMergedSourceRows env objectTypeApiName plan rowsOf = .ok merged) {row : TabularRow}
    (hrow : row ∈ merged) : ∃ pk, rowKey env plan.primaryKeyColumn row = some pk := by
  obtain ⟨segmentRows, -, -, hmerged⟩ := readMergedSourceRows_eq_ok h
  obtain ⟨pk, -, hrowPk⟩ := List.exists_mem_of_mem_mapM_eq_ok hmerged hrow
  obtain ⟨⟨rows, -, -, hkey⟩, -⟩ := mergedRow_eq_ok hrowPk
  exact ⟨_, by rw [rowKey, hkey]; rfl⟩

/-- The keys of the merged rows are those of the segments, in the order they are first seen. -/
theorem map_rowKey_merged {segmentRows : List SegmentRows}
    (hrows : ∀ rows ∈ segmentRows, segmentRowsByPk env objectTypeApiName rows.1
      (rowsOf rows.1.datasetVersionId) = .ok rows.2)
    {pks : List String} (h : pks.mapM (mergedRow plan.primaryKeyColumn segmentRows) = .ok merged) :
    merged.map (rowKey env plan.primaryKeyColumn) = pks.map some := by
  rw [List.mapM_eq_ok_iff] at h
  induction h with
  | nil => rfl
  | cons hhead _ ih =>
    obtain ⟨⟨rows, hmem, hpresent, hkey⟩, -⟩ := mergedRow_eq_ok hhead
    obtain ⟨-, -, -, -, htext⟩ := sourceValue_primaryKeyColumn (hrows rows hmem) hpresent
    rw [List.map_cons, List.map_cons, ih, rowKey, hkey, Option.map_some,
      segmentValue_eq_sourceValue (hrows rows hmem), htext]

/-- **The keys are never wrong**: one merged row for each key of any segment. -/
theorem hasKeys_readMergedSourceRows
    (h : readMergedSourceRows env objectTypeApiName plan rowsOf = .ok merged) :
    HasKeys env plan rowsOf merged := by
  obtain ⟨segmentRows, hsegments, hrows, hmerged⟩ := readMergedSourceRows_eq_ok h
  have hkeys := map_rowKey_merged hrows hmerged
  refine ⟨?_, fun pk => ?_, fun row hrow => ?_⟩
  · rw [hkeys]
    exact (nodup_unionPrimaryKeys segmentRows).map fun _ _ => Option.some.inj
  · rw [hkeys, List.mem_map_of_injective fun _ _ => Option.some.inj, mem_unionPrimaryKeys,
      ← hsegments]
    constructor
    · rintro ⟨rows, hmem, hpk⟩
      exact ⟨rows.1, List.mem_map_of_mem hmem, (mem_keys_segmentRowsByPk (hrows rows hmem)).mp hpk⟩
    · rintro ⟨segment, hsegment, hpk⟩
      obtain ⟨rows, hmem, rfl⟩ := List.mem_map.mp hsegment
      exact ⟨rows, hmem, (mem_keys_segmentRowsByPk (hrows rows hmem)).mpr hpk⟩
  · obtain ⟨pk, hpk⟩ := exists_rowKey_of_mem_merged h hrow
    obtain ⟨⟨segment, hsegment, source, hsource, value, hnull, hrowKey, hsourceKey, -⟩, -⟩ :=
      get?_of_mem_merged h hrow hpk
    exact ⟨segment, hsegment, source, hsource, value, hnull, hrowKey, hsourceKey⟩

/-! ### Columns apart -/

/-- Some segment is the last one with a column that has an owner. -/
theorem exists_lastOwner {column : String} (hsegment : segment ∈ plan.segments)
    (hcolumn : column ∈ segment.propertyColumns) :
    ∃ owner ∈ plan.segments, column ∈ owner.propertyColumns ∧
      plan.segments.reverse.find? (fun segment => column ∈ segment.propertyColumns)
        = some owner := by
  cases hfind : plan.segments.reverse.find? fun segment => column ∈ segment.propertyColumns with
  | none =>
    have hnone := List.find?_eq_none.mp hfind segment (List.mem_reverse.mpr hsegment)
    simp [hcolumn] at hnone
  | some owner =>
    exact ⟨owner, List.mem_reverse.mp (List.mem_of_find?_eq_some hfind),
      by simpa using List.find?_some hfind, rfl⟩

/-- When columns are apart, every property has its value from its own segment. -/
theorem ColumnsApart.valueFrom (hapart : ColumnsApart plan)
    (h : readMergedSourceRows env objectTypeApiName plan rowsOf = .ok merged)
    (hsegment : segment ∈ plan.segments) {column : String}
    (hcolumn : column ∈ segment.propertyColumns) :
    ValueFrom env plan rowsOf merged segment column := by
  intro row hrow pk hpk
  obtain ⟨⟨keySegment, hkeySegment, -, -, value, -, hkey, -, rfl⟩, hcolumns⟩ :=
    get?_of_mem_merged h hrow hpk
  by_cases hne : column = plan.primaryKeyColumn
  · obtain ⟨hsame, hall⟩ := hapart.key segment hsegment (hne ▸ hcolumn)
    have hrows := hall keySegment hkeySegment
    rw [hne, hkey, Option.getD_some, ← hrows.sourceValue_eq, ← hrows.2, hsame]
  · obtain ⟨owner, howner, hownerColumn, hlast⟩ := exists_lastOwner hsegment hcolumn
    rw [hcolumns column owner hne hlast, Option.getD_some]
    exact (hapart.property owner howner segment hsegment column hownerColumn
      hcolumn).sourceValue_eq pk column

/-! ### Source rows that tell two segments apart -/

theorem primaryKeyText_str {row : TabularRow} {text : String}
    (hkey : row.get? segment.primaryKeyColumn = some (.str text)) (htext : text ≠ "") :
    primaryKeyText env objectTypeApiName segment row = .ok text := by
  unfold primaryKeyText
  rw [hkey]
  simp [htext, Serialiser.str, pure, Except.pure]

/-- A read goes through when every dataset has at most one row, with text keys. -/
theorem exists_readMergedSourceRows_eq_ok (env : Serialiser) (objectTypeApiName : String)
    {plan : ObjectIndexMultiSourcePlan} {rowsOf : String → List TabularRow}
    (hlength : ∀ versionId, (rowsOf versionId).length ≤ 1)
    (hkeys : ∀ segment ∈ plan.segments, ∀ row ∈ rowsOf segment.datasetVersionId,
      ∃ text ≠ "", row.get? segment.primaryKeyColumn = some (.str text)) :
    ∃ merged, readMergedSourceRows env objectTypeApiName plan rowsOf = .ok merged := by
  have hsegment (segment) (hsegment : segment ∈ plan.segments) :
      ∃ rows : SegmentRows, (do
        let rows ← segmentRowsByPk env objectTypeApiName segment (rowsOf segment.datasetVersionId)
        return (segment, rows)) = .ok rows := by
    have hrow (row) (hrow : row ∈ rowsOf segment.datasetVersionId) :
        ∃ entry, (do
          let pk ← primaryKeyText env objectTypeApiName segment row
          return (pk, row)) = Except.ok entry := by
      obtain ⟨text, htext, hkey⟩ := hkeys segment hsegment row hrow
      exact ⟨_, bind_eq_ok_iff.mpr ⟨text, primaryKeyText_str hkey htext, rfl⟩⟩
    obtain ⟨keyed, hkeyed⟩ := List.exists_mapM_eq_ok hrow
    have hnodup : (keyed.map Prod.fst).Nodup := by
      have hlen := (List.mapM_eq_ok_iff.mp hkeyed).length_eq ▸ hlength segment.datasetVersionId
      match keyed, hlen with
      | [], _ => exact List.nodup_nil
      | [entry], _ => exact List.nodup_singleton _
    have hunique : requireUniqueSourceObjectIds objectTypeApiName (keyed.map Prod.fst)
        segment.datasetVersionId = .ok () :=
      rejectIf_eq_ok_iff.mpr (not_not.mpr (duplicateValues_eq_nil_iff.mpr hnodup))
    refine ⟨_, bind_eq_ok_iff.mpr ⟨keyed, ?_, rfl⟩⟩
    exact bind_eq_ok_iff.mpr ⟨keyed, hkeyed,
      bind_eq_ok_iff.mpr ⟨(), hunique, rfl⟩⟩
  obtain ⟨segmentRows, hrows⟩ := List.exists_mapM_eq_ok hsegment
  obtain ⟨merged, hmerged⟩ := List.exists_mapM_eq_ok
    fun pk (hpk : pk ∈ unionPrimaryKeys segmentRows) =>
      exists_mergedRow_eq_ok hpk plan.primaryKeyColumn
  exact ⟨merged, bind_eq_ok_iff.mpr ⟨segmentRows, hrows, hmerged⟩⟩

/-- A source row with the key `x` in one segment and without it in another. -/
def apartRow (plan : ObjectIndexMultiSourcePlan) (segment other : ObjectIndexSourceSegment)
    (column : String) : TabularRow :=
  Dict.ofList ((other.primaryKeyColumn,
    .str (if segment.datasetVersionId = other.datasetVersionId then "y" else "x")) ::
      (column, .str "x") :: plan.segments.map fun segment => (segment.primaryKeyColumn, .str "x"))

/-- The dataset of one segment has the one row, and no other dataset has any. -/
def apartRows (plan : ObjectIndexMultiSourcePlan) (segment other : ObjectIndexSourceSegment)
    (column versionId : String) : List TabularRow :=
  if versionId = segment.datasetVersionId then [apartRow plan segment other column] else []

theorem lookup_map_const {α β γ : Type} [BEq β] [LawfulBEq β] {f : α → β} {v : γ} {l : List α}
    {a : α} (h : a ∈ l) : (l.map fun a => (f a, v)).lookup (f a) = some v := by
  induction l with
  | nil => simp at h
  | cons b l ih =>
    rw [List.map_cons, List.lookup_cons]
    by_cases heq : f a = f b
    · rw [beq_iff_eq.mpr heq]
    · rw [beq_false_of_ne heq]
      exact ih ((List.mem_cons.mp h).resolve_left fun hab => heq (hab ▸ rfl))

theorem get?_apartRow {other : ObjectIndexSourceSegment} {column column' : String}
    (h : column' = other.primaryKeyColumn ∨ column' = column ∨
      ∃ segment ∈ plan.segments, segment.primaryKeyColumn = column') :
    (apartRow plan segment other column).get? column' = some (.str
      (if column' = other.primaryKeyColumn ∧ segment.datasetVersionId = other.datasetVersionId
        then "y" else "x")) := by
  have hkeys : (∃ segment ∈ plan.segments, segment.primaryKeyColumn = column') →
      (plan.segments.map fun segment => (segment.primaryKeyColumn, Json.str "x")).lookup column'
        = some (.str "x") := by
    rintro ⟨segment, hsegment, rfl⟩
    exact lookup_map_const hsegment
  rw [apartRow, Dict.get?_ofList, Dict.lookup_cons_ite, Dict.lookup_cons_ite]
  split_ifs <;> grind

/-- Two segments that do not read the same rows by the same key can be told apart. -/
theorem exists_apart {other : ObjectIndexSourceSegment} (env : Serialiser)
    (objectTypeApiName column : String) (hsegment : segment ∈ plan.segments)
    (h : ¬ SameRows segment other) :
    ∃ rowsOf merged row,
      readMergedSourceRows env objectTypeApiName plan rowsOf = .ok merged ∧ row ∈ merged ∧
        rowKey env plan.primaryKeyColumn row = some "x" ∧
        sourceValue env rowsOf segment "x" column ≠ .null ∧
        ∀ column', sourceValue env rowsOf other "x" column' = .null := by
  let source := apartRow plan segment other column
  let rowsOf := apartRows plan segment other column
  have hrows : rowsOf segment.datasetVersionId = [source] := if_pos rfl
  have hsource : rowKey env segment.primaryKeyColumn source = some "x" := by
    rw [rowKey, get?_apartRow (.inr (.inr ⟨segment, hsegment, rfl⟩)), if_neg fun hsame =>
      h ⟨hsame.2, hsame.1⟩]
    rfl
  obtain ⟨merged, hread⟩ : ∃ merged,
      readMergedSourceRows env objectTypeApiName plan rowsOf = .ok merged := by
    refine exists_readMergedSourceRows_eq_ok env objectTypeApiName (fun versionId => ?_)
      fun segment' hsegment' row hrow => ?_
    · simp only [rowsOf, apartRows]
      split_ifs <;> simp
    · obtain rfl : row = source := by
        simp only [rowsOf, apartRows] at hrow
        split_ifs at hrow
        · exact List.mem_singleton.mp hrow
        · simp at hrow
      refine ⟨_, ?_, get?_apartRow (.inr (.inr ⟨segment', hsegment', rfl⟩))⟩
      split_ifs <;> decide
  obtain ⟨row, hrow, hpk⟩ := List.mem_map.mp (((hasKeys_readMergedSourceRows hread).mem_iff
    "x").mpr ⟨segment, hsegment, source, hrows ▸ List.mem_singleton_self source, hsource⟩)
  refine ⟨rowsOf, merged, row, hread, hrow, hpk, ?_, fun column' => ?_⟩
  · rw [sourceValue, hrows, List.find?_cons_of_pos (by simpa using hsource), Option.bind_some,
      get?_apartRow (.inr (.inl rfl))]
    simp
  · by_cases hversion : other.datasetVersionId = segment.datasetVersionId
    · have hother : rowKey env other.primaryKeyColumn source = some "y" := by
        rw [rowKey, get?_apartRow (.inl rfl), if_pos ⟨rfl, hversion.symm⟩]
        rfl
      rw [sourceValue, hversion, hrows, List.find?_cons_of_neg (by simp [hother])]
      rfl
    · have hnone : rowsOf other.datasetVersionId = [] := if_neg hversion
      rw [sourceValue, hnone]
      rfl

/-- **Values come from their own segments, whatever the source rows**, exactly when no column has
a second owner. -/
theorem forall_valueFrom_iff (env : Serialiser) (objectTypeApiName : String)
    (plan : ObjectIndexMultiSourcePlan) :
    (∀ rowsOf merged, readMergedSourceRows env objectTypeApiName plan rowsOf = .ok merged →
      ∀ segment ∈ plan.segments, ∀ column ∈ segment.propertyColumns,
        ValueFrom env plan rowsOf merged segment column) ↔ ColumnsApart plan := by
  constructor
  · intro h
    have hkey (segment) (hsegment : segment ∈ plan.segments)
        (hcolumn : plan.primaryKeyColumn ∈ segment.propertyColumns) (segment')
        (hsegment' : segment' ∈ plan.segments) : SameRows segment' segment := by
      by_contra hne
      obtain ⟨rowsOf, merged, row, hread, hrow, hpk, -, hnull⟩ :=
        exists_apart env objectTypeApiName plan.primaryKeyColumn hsegment' hne
      have hvalue := h rowsOf merged hread segment hsegment _ hcolumn row hrow "x" hpk
      obtain ⟨⟨_, -, _, -, value, hvalueNull, hget, -⟩, -⟩ := get?_of_mem_merged hread hrow hpk
      rw [hget, Option.getD_some, hnull] at hvalue
      exact hvalueNull hvalue
    have howner (segment) (hsegment : segment ∈ plan.segments) (owner) (column)
        (hne : column ≠ plan.primaryKeyColumn) (hcolumn : column ∈ segment.propertyColumns)
        (hlast : plan.segments.reverse.find? (fun segment => column ∈ segment.propertyColumns)
          = some owner) : SameRows segment owner := by
      by_contra hsame
      obtain ⟨rowsOf, merged, row, hread, hrow, hpk, hnotNull, hnull⟩ :=
        exists_apart env objectTypeApiName column hsegment hsame
      have hvalue := h rowsOf merged hread segment hsegment column hcolumn row hrow "x" hpk
      rw [(get?_of_mem_merged hread hrow hpk).2 column owner hne hlast, Option.getD_some,
        hnull] at hvalue
      exact hnotNull hvalue.symm
    refine ⟨fun segment hsegment segment' hsegment' column hcolumn hcolumn' => ?_,
      fun segment hsegment hcolumn => ⟨?_, fun segment' hsegment' =>
        (hkey segment hsegment hcolumn segment' hsegment').symm⟩⟩
    · by_cases hne : column = plan.primaryKeyColumn
      · exact hkey segment' hsegment' (hne ▸ hcolumn') segment hsegment
      · obtain ⟨owner, -, -, hlast⟩ := exists_lastOwner hsegment hcolumn
        exact (howner segment hsegment owner column hne hcolumn hlast).trans
          (howner segment' hsegment' owner column hne hcolumn' hlast).symm
    · by_contra hne
      have hall := hkey segment hsegment hcolumn
      let source : TabularRow := Dict.ofList
        [(segment.primaryKeyColumn, .str "x"), (plan.primaryKeyColumn, .str "y")]
      have hx : source.get? segment.primaryKeyColumn = some (.str "x") := by
        rw [Dict.get?_ofList, Dict.lookup_cons_ite, if_pos rfl]
      have hy : source.get? plan.primaryKeyColumn = some (.str "y") := by
        rw [Dict.get?_ofList, Dict.lookup_cons_ite, if_neg (Ne.symm hne), Dict.lookup_cons_ite,
          if_pos rfl]
      have hrow : rowKey env segment.primaryKeyColumn source = some "x" := by
        rw [rowKey, hx]
        rfl
      have hvalueOf (column : String) : sourceValue env (fun _ => [source]) segment "x" column
          = (source.get? column).getD .null := by
        rw [sourceValue, List.find?_cons_of_pos (by simpa using hrow), Option.bind_some]
      obtain ⟨merged, hread⟩ : ∃ merged,
          readMergedSourceRows env objectTypeApiName plan (fun _ => [source]) = .ok merged :=
        exists_readMergedSourceRows_eq_ok env objectTypeApiName (fun _ => Nat.le_refl 1)
          fun segment' hsegment' row hrow => ⟨"x", by decide, by
            rw [List.mem_singleton.mp hrow, (hall segment' hsegment').2, hx]⟩
      obtain ⟨row, hrow, hpk⟩ := List.mem_map.mp (((hasKeys_readMergedSourceRows hread).mem_iff
        "x").mpr ⟨segment, hsegment, source, List.mem_singleton_self source, hrow⟩)
      obtain ⟨⟨keySegment, hkeySegment, -, -, value, -, hget, -, hvalue⟩, -⟩ :=
        get?_of_mem_merged hread hrow hpk
      have hown := h _ merged hread segment hsegment _ hcolumn row hrow "x" hpk
      rw [(hall keySegment hkeySegment).sourceValue_eq, (hall keySegment hkeySegment).2, hvalueOf,
        hx, Option.getD_some] at hvalue
      rw [hget, hvalue, hvalueOf, hy, Option.getD_some, Option.getD_some] at hown
      exact absurd (Json.str.inj hown) (by decide)
  · intro hapart rowsOf merged hread segment hsegment column hcolumn
    exact hapart.valueFrom hread hsegment hcolumn

end Plan

/-! ### Validated object types -/

section Validated

variable {env : Serialiser} {casefold : String → String}
  {datasetColumnsForRef : String → Checked DatasetColumns}
  (t : ValidatedObjectType env casefold datasetColumnsForRef)

/-- The columns of a segment in the plan are those that were checked against its datasource. -/
theorem mem_propertyColumns_iff (segmentName column : String) :
    column ∈ propertyColumns t.objectType t.segments.first.name segmentName ↔
      ∃ apiName, apiName ≠ t.objectType.primaryKeyProperty ∧
        ⟨apiName, segmentName, column⟩ ∈ t.assignments := by
  simp only [propertyColumns, List.mem_filterMap, t.mem_assignments_iff, Option.ite_none_right_eq_some,
    Prod.exists, Dict.mem_entries_iff]
  constructor
  · rintro ⟨apiName, row, hrow, ⟨hsource, hne, hdatasource⟩, hcolumn⟩
    exact ⟨apiName, hne, row, hrow, hsource, hcolumn, hdatasource⟩
  · rintro ⟨apiName, hne, row, hrow, hsource, hcolumn, hdatasource⟩
    exact ⟨apiName, row, hrow, ⟨hsource, hne, hdatasource⟩, hcolumn⟩

theorem propertyColumns_of_mem_plan {versionIds : List String} {plan : ObjectIndexMultiSourcePlan}
    (hplan : multiSourcePlan t.objectType versionIds = .ok plan)
    {segment : ObjectIndexSourceSegment} (hsegment : segment ∈ plan.segments) :
    segment.propertyColumns
      = propertyColumns t.objectType t.segments.first.name segment.name := by
  simp only [multiSourcePlan, t.segments_eq, bind_eq_ok_iff, Except.ok.injEq,
    exists_eq_left', pure_eq_ok_iff] at hplan
  obtain ⟨_, -, versioned, -, rfl⟩ := hplan
  obtain ⟨⟨declared, versionId⟩, -, rfl⟩ := List.mem_map.mp hsegment
  rfl

/-- One merged row per key, and in it every property but the key has the value that its own
datasource has in the property's column. -/
structure HasProvenance (plan : ObjectIndexMultiSourcePlan) (rowsOf : String → List TabularRow)
    (merged : List TabularRow) : Prop where
  keys : HasKeys env plan rowsOf merged
  value : ∀ assignment ∈ t.assignments,
    assignment.propertyApiName ≠ t.objectType.primaryKeyProperty →
    ∀ segment ∈ plan.segments, segment.name = assignment.datasource →
      ValueFrom env plan rowsOf merged segment assignment.column

/-- **Provenance of a merge.** For an object type that passed validation, the merged rows are right
whatever the source rows exactly when no column has a second owner. -/
theorem hasProvenance_iff (versionIds : List String) (plan : ObjectIndexMultiSourcePlan)
    (hplan : multiSourcePlan t.objectType versionIds = .ok plan) :
    (∀ rowsOf merged,
      readMergedSourceRows env t.objectType.apiName plan rowsOf = .ok merged →
        HasProvenance t plan rowsOf merged) ↔ ColumnsApart plan := by
  rw [← forall_valueFrom_iff env t.objectType.apiName plan]
  have hcolumns {segment} (hsegment : segment ∈ plan.segments) (column : String) :
      column ∈ segment.propertyColumns ↔ ∃ apiName,
        apiName ≠ t.objectType.primaryKeyProperty ∧
          ⟨apiName, segment.name, column⟩ ∈ t.assignments := by
    rw [propertyColumns_of_mem_plan t hplan hsegment, mem_propertyColumns_iff]
  constructor
  · intro h rowsOf merged hread segment hsegment column hcolumn
    obtain ⟨apiName, hne, hmem⟩ := (hcolumns hsegment column).mp hcolumn
    exact (h rowsOf merged hread).value _ hmem hne segment hsegment rfl
  · intro h rowsOf merged hread
    refine ⟨hasKeys_readMergedSourceRows hread, ?_⟩
    rintro ⟨apiName, datasource, column⟩ hmem hne segment hsegment rfl
    exact h rowsOf merged hread segment hsegment column
      ((hcolumns hsegment column).mpr ⟨apiName, hne, hmem⟩)

end Validated

/-! ### Two object types -/

/-- Orders from an ERP and from finance; `marginColumn` is the column of the finance property. -/
def orderDefinition (marginColumn : String) : Mapping :=
  [("apiName", .str "Order"), ("primaryKey", .str "orderId"),
    ("backing", .obj [("datasources", .arr
      [.obj [("name", .str "erp"), ("dataset", .str "clean.orders")],
        .obj [("name", .str "finance"), ("dataset", .str "clean.finance")]])]),
    ("properties", .arr
      [.obj [("apiName", .str "orderId"), ("type", .str "string"), ("column", .str "order_id")],
        .obj [("apiName", .str "amount"), ("type", .str "float"), ("column", .str "amount")],
        .obj [("apiName", .str "margin"), ("type", .str "float"), ("column", .str marginColumn),
          ("datasource", .str "finance")]])]

/-- Text forms are not needed for text keys. -/
def plainText : Serialiser := ⟨fun _ => "", fun _ => ""⟩

def orderColumns (_datasetRef : String) : Checked DatasetColumns :=
  .ok [("order_id", []), ("amount", []), ("margin", [])]

def orderSegments : Segments :=
  ⟨⟨"erp", "clean.orders", [], none⟩, [⟨"finance", "clean.finance", [], none⟩]⟩

def orderObjectType (marginColumn : String) : ObjectTypeRow where
  apiName := "Order"
  primaryKeyProperty := "orderId"
  backing := [("datasources", .arr
    [.obj [("name", .str "erp"), ("dataset", .str "clean.orders")],
      .obj [("name", .str "finance"), ("dataset", .str "clean.finance")]])]
  propertyDatasources := some (Dict.ofList
    [("orderId", "erp"), ("amount", "erp"), ("margin", "finance")])
  properties := Dict.ofList [("orderId", ⟨"orderId", "dataset", some "order_id"⟩),
    ("amount", ⟨"amount", "dataset", some "amount"⟩),
    ("margin", ⟨"margin", "dataset", some marginColumn⟩)]

def orderPropertyDefs (marginColumn : String) : List (String × Mapping) :=
  [("orderId", [("apiName", .str "orderId"), ("type", .str "string"), ("column", .str "order_id")]),
    ("amount", [("apiName", .str "amount"), ("type", .str "float"), ("column", .str "amount")]),
    ("margin", [("apiName", .str "margin"), ("type", .str "float"), ("column", .str marginColumn),
      ("datasource", .str "finance")])]

def validatedOrder (marginColumn : String)
    (h : validateYamlObjectDatasources plainText (orderDefinition marginColumn)
      (orderPropertyDefs marginColumn) orderColumns = .ok ())
    (himported : importObjectType plainText (orderDefinition marginColumn)
      = .ok (orderObjectType marginColumn)) :
    ValidatedObjectType plainText id orderColumns where
  objectDef := orderDefinition marginColumn
  propertyDefs := orderPropertyDefs marginColumn
  objectType := orderObjectType marginColumn
  segments := orderSegments
  assignments := [⟨"orderId", "erp", "order_id"⟩, ⟨"amount", "erp", "amount"⟩,
    ⟨"margin", "finance", marginColumn⟩]
  propertyDefs_eq := rfl
  validated := h
  imported := himported
  isMulti := rfl
  segments_eq := rfl
  assignments_eq := rfl

/-- The finance property has a column of its own. -/
def ownColumn : ValidatedObjectType plainText id orderColumns := validatedOrder "margin" rfl rfl

/-- The finance property names the column of the ERP property. -/
def sharedColumn : ValidatedObjectType plainText id orderColumns := validatedOrder "amount" rfl rfl

def orderPlan (marginColumn : String) : ObjectIndexMultiSourcePlan where
  primaryKeyColumn := "order_id"
  segments := [⟨"erp", "clean.orders", "order_id", ["amount"], "v1"⟩,
    ⟨"finance", "clean.finance", "order_id", [marginColumn], "v2"⟩]

theorem ownColumn_hasProvenance :
    (∀ rowsOf merged, readMergedSourceRows plainText "Order" (orderPlan "margin") rowsOf
        = .ok merged → HasProvenance ownColumn (orderPlan "margin") rowsOf merged) ↔
      ColumnsApart (orderPlan "margin") :=
  hasProvenance_iff ownColumn ["v1", "v2"] (orderPlan "margin") rfl

/-- One order, with an amount in the ERP and another in finance. -/
def orderRows (versionId : String) : List TabularRow :=
  if versionId = "v1" then [Dict.ofList [("order_id", .str "O-1"), ("amount", .int 100)]]
  else [Dict.ofList [("order_id", .str "O-1"), ("amount", .int 7)]]

/-- The ERP property has the amount of finance. -/
theorem not_hasProvenance_sharedColumn :
    ¬ ∀ merged, readMergedSourceRows plainText "Order" (orderPlan "amount") orderRows
      = .ok merged → HasProvenance sharedColumn (orderPlan "amount") orderRows merged := by
  intro h
  have hread : readMergedSourceRows plainText "Order" (orderPlan "amount") orderRows
      = .ok [Dict.ofList [("order_id", .str "O-1"), ("amount", .int 7)]] := by
    rfl
  have hvalue := (h _ hread).value ⟨"amount", "erp", "amount"⟩ (by decide) (by decide)
    ⟨"erp", "clean.orders", "order_id", ["amount"], "v1"⟩ (by decide) rfl _
    (List.mem_singleton_self _) "O-1" rfl
  exact absurd hvalue (by decide)

end FoundryLite.Indexing
