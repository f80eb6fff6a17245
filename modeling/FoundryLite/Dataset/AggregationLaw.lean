import FoundryLite.Dataset.AggregationFilters

/-!
# The two aggregation engines

Where the database reads the texts of a table as the language does, the two engines agree exactly if
nothing is read by the database only: no filter compares a truth value with one of its texts, no number
is taken from a truth value or from what is not a number, and every column that is named is a plain
identifier.

The groups of both are listed by the tuples of grouping values, in any order: sorting by the texts of the
keys leaves no choice, and the metrics are compared tuple by tuple.

## Main results

* `agree_iff_unconfused`: when the engines agree.
-/

namespace FoundryLite.Dataset

/-! ### Sorting -/

theorem orderedBy_perm {α : Type} (key : α → Dict String Cell) (groups : List α) :
    (orderedBy key groups).Perm groups := List.perm_insertionSort _ _

/-- Groups of different keys have one order. -/
theorem orderedBy_eq_of_perm {α : Type} {key : α → Dict String Cell} {groups groups' : List α}
    (hperm : groups.Perm groups') (hnodup : (groups.map key).Nodup) :
    orderedBy key groups = orderedBy key groups' := by
  have htrans : ∀ groups : List α, (orderedBy key groups).Pairwise
      fun a b => keyText (key a) ≤ keyText (key b) := by
    intro groups
    have : Std.Total fun a b : α => keyText (key a) ≤ keyText (key b) := ⟨fun _ _ => le_total _ _⟩
    have : IsTrans α fun a b => keyText (key a) ≤ keyText (key b) := ⟨fun _ _ _ => le_trans⟩
    exact List.pairwise_insertionSort _ _
  refine List.Perm.eq_of_pairwise (fun a b ha hb hab hba => ?_) (htrans groups) (htrans groups')
    ((orderedBy_perm key groups).trans (hperm.trans (orderedBy_perm key groups').symm))
  exact List.inj_on_of_nodup_map hnodup ((orderedBy_perm key groups).subset ha)
    (hperm.symm.subset ((orderedBy_perm key groups').subset hb)) (keyText_injective (le_antisymm hab hba))

theorem map_orderedBy {α β : Type} {key : α → Dict String Cell} {key' : β → Dict String Cell} (f : α → β)
    (hkey : ∀ a, key' (f a) = key a) (groups : List α) :
    (orderedBy key groups).map f = orderedBy key' (groups.map f) :=
  List.map_insertionSort _ _ f _ fun a _ b _ => by rw [hkey, hkey]

/-! ### Groups by their tuples -/

/-- The key that a tuple of grouping values makes. -/
def tupleKey (groupBy : List String) (tuple : List Cell) : Dict String Cell :=
  Dict.ofList (groupBy.zip tuple)

theorem tupleKey_tupleOf (groupBy : List String) (row : TabularRow) :
    tupleKey groupBy (tupleOf groupBy row) = keyOf row groupBy := (keyOf_eq_zip row groupBy).symm

/-- The tuples of the rows that a plan keeps. -/
def tuples (groupBy : List String) (kept : List TabularRow) : List (List Cell) :=
  (kept.map (tupleOf groupBy)).dedup

theorem mem_tuples {groupBy : List String} {kept : List TabularRow} {tuple : List Cell} :
    tuple ∈ tuples groupBy kept ↔ ∃ row ∈ kept, tupleOf groupBy row = tuple := by
  rw [tuples, List.mem_dedup, List.mem_map]

/-- Different tuples make different keys. -/
theorem nodup_tupleKeys (groupBy : List String) (kept : List TabularRow) :
    ((tuples groupBy kept).map (tupleKey groupBy)).Nodup := by
  refine List.Nodup.map_on (fun tuple htuple tuple' htuple' h => ?_) (List.nodup_dedup _)
  obtain ⟨row, -, rfl⟩ := mem_tuples.mp htuple
  obtain ⟨row', -, rfl⟩ := mem_tuples.mp htuple'
  rw [tupleKey_tupleOf, tupleKey_tupleOf] at h
  exact keyOf_eq_iff.mp h

/-- The rows of a group. -/
def groupMembers (groupBy : List String) (kept : List TabularRow) (tuple : List Cell) : List TabularRow :=
  kept.filter fun row => tupleOf groupBy row = tuple

section

variable (texts : AggregationTexts) (engine : SqlEngine)

/-- A metric of the rows of a group, as running states have it. -/
def pyMetric (metric : DatasetAggregationMetric) (rows : List TabularRow) : MetricValue :=
  if metric.function = .count then .count rows.length
  else aggregate leastOf greatestOf metric.function (numbersOf texts rows (propertyOf metric))

/-- The numbers that the database reads in a column. -/
def castsOf (rows : List TabularRow) (column : String) : List Double :=
  rows.filterMap fun row => castDouble engine (cellOf row column)

/-- A metric of the rows of a group, as the database has it. -/
def sqlMetric (metric : DatasetAggregationMetric) (rows : List TabularRow) : MetricValue :=
  if metric.function = .count then .count rows.length
  else aggregate sqlLeast sqlGreatest metric.function (castsOf engine rows (propertyOf metric))

/-- The group of a tuple, by what its metrics are. -/
def groupOf (plan : DatasetAggregationPlan) (kept : List TabularRow)
    (metricOf : DatasetAggregationMetric → List TabularRow → MetricValue) (tuple : List Cell) :
    DatasetAggregationGroup where
  key := tupleKey plan.groupBy tuple
  metrics := Dict.ofList (plan.metrics.map fun metric =>
    (metric.name, metricOf metric (groupMembers plan.groupBy kept tuple)))

/-- The entry of a tuple among the running states. -/
def entryOf (plan : DatasetAggregationPlan) (kept : List TabularRow) (tuple : List Cell) :
    String × GroupState :=
  (keyText (tupleKey plan.groupBy tuple), (groupMembers plan.groupBy kept tuple).foldl
    (addGroupMetrics texts plan.metrics)
    ⟨tupleKey plan.groupBy tuple, Dict.ofList (plan.metrics.map fun metric => (metric.name, {}))⟩)

/-- **The running states are those of the tuples.** -/
theorem groupRows_perm (plan : DatasetAggregationPlan) (kept : List TabularRow) :
    (groupRows texts plan kept).Perm ((tuples plan.groupBy kept).map (entryOf texts plan kept)) := by
  have hleft : (groupRows texts plan kept).Nodup := List.Nodup.of_map _ (Grouping.nodup_groupFold kept)
  have hright : ((tuples plan.groupBy kept).map (entryOf texts plan kept)).Nodup := by
    refine List.Nodup.of_map Prod.fst ?_
    rw [List.map_map]
    have hkeys := (nodup_tupleKeys plan.groupBy kept).map keyText_injective
    rwa [List.map_map] at hkeys
  refine (List.perm_ext_iff_of_nodup hleft hright).mpr fun entry => ?_
  have hmembers : ∀ row, (kept.filter fun row' => groupKey row' plan.groupBy = groupKey row plan.groupBy) =
      groupMembers plan.groupBy kept (tupleOf plan.groupBy row) := fun row =>
    List.filter_congr fun row' _ => by simp [groupKey_eq_iff]
  have hentry : ∀ row, entryOf texts plan kept (tupleOf plan.groupBy row) =
      (groupKey row plan.groupBy, (groupMembers plan.groupBy kept (tupleOf plan.groupBy row)).foldl
        (addGroupMetrics texts plan.metrics) (newGroup plan row)) := fun row => by
    rw [entryOf, tupleKey_tupleOf]
    rfl
  obtain ⟨text, state⟩ := entry
  rw [groupRows, Grouping.mem_groupFold_iff, List.mem_map]
  constructor
  · rintro ⟨row, hhead, rfl⟩
    obtain ⟨hrow, htext⟩ := List.mem_filter.mp (List.mem_of_head? hhead)
    obtain rfl := of_decide_eq_true htext
    exact ⟨tupleOf plan.groupBy row, mem_tuples.mpr ⟨row, hrow, rfl⟩, by rw [hentry, hmembers]⟩
  · rintro ⟨tuple, htuple, heq⟩
    obtain ⟨row, hrow, rfl⟩ := mem_tuples.mp htuple
    obtain ⟨first, hfirst⟩ : ∃ first, (groupMembers plan.groupBy kept (tupleOf plan.groupBy row)).head? =
        some first := by
      rw [← Option.isSome_iff_exists, List.isSome_head?]
      exact List.ne_nil_of_mem (List.mem_filter.mpr ⟨hrow, by simp⟩)
    have htuple' : tupleOf plan.groupBy first = tupleOf plan.groupBy row :=
      of_decide_eq_true (List.mem_filter.mp (List.mem_of_head? hfirst)).2
    rw [← htuple', hentry, Prod.mk.injEq] at heq
    obtain ⟨rfl, rfl⟩ := heq
    rw [hmembers, htuple']
    exact ⟨first, hfirst, rfl⟩

/-- What is returned for a running state. -/
theorem shapedGroup_entryOf {plan : DatasetAggregationPlan} (hnames : (plan.metrics.map (·.name)).Nodup)
    (kept : List TabularRow) (tuple : List Cell) :
    shapedGroup plan.metrics (entryOf texts plan kept tuple).2 =
      groupOf plan kept (pyMetric texts) tuple := by
  have hmetrics : ∀ metric ∈ plan.metrics,
      metricValue (stateOf (entryOf texts plan kept tuple).2 metric) metric =
        pyMetric texts metric (groupMembers plan.groupBy kept tuple) := by
    intro metric hmetric
    rw [entryOf, stateOf_foldl texts hnames hmetric, stateOf, Dict.get?_ofList,
      Grouping.lookup_map_of_nodup hnames hmetric (f := fun _ => ({} : MetricState)), Option.getD_some,
      metricValue_of_fold, pyMetric]
  rw [shapedGroup, groupOf, DatasetAggregationGroup.mk.injEq]
  refine ⟨by rw [entryOf, key_foldl], congrArg Dict.ofList (List.map_congr_left fun metric hmetric => ?_)⟩
  rw [← hmetrics metric hmetric]
  rfl

theorem metricSql_eq (metric : DatasetAggregationMetric) (rows : List TabularRow) :
    datasetAggregationMetricValue metric (datasetAggregationMetricSql engine metric rows) =
      .ok (sqlMetric engine metric rows) := by
  by_cases hvalues : castsOf engine rows (propertyOf metric) = []
  · have hcasts := hvalues
    rw [castsOf] at hcasts
    cases hfunction : metric.function <;>
      simp [datasetAggregationMetricValue, datasetAggregationMetricSql, sqlMetric, aggregate, hfunction,
        hvalues, hcasts, sqlLeast, sqlGreatest, pure, Except.pure]
  · have hcasts := hvalues
    rw [castsOf] at hcasts
    cases hfunction : metric.function with
    | count => simp [datasetAggregationMetricValue, datasetAggregationMetricSql, sqlMetric, hfunction, pure,
        Except.pure]
    | sum => simp [datasetAggregationMetricValue, datasetAggregationMetricSql, sqlMetric, aggregate,
        hfunction, hcasts, totalOf, castsOf, pure, Except.pure]
    | avg => simp [datasetAggregationMetricValue, datasetAggregationMetricSql, sqlMetric, aggregate,
        hfunction, hcasts, totalOf, castsOf, pure, Except.pure]
    | min =>
      simp only [datasetAggregationMetricSql, sqlMetric, aggregate, hfunction, castsOf, hcasts]
      cases sqlLeast (List.filterMap _ rows) <;>
        simp [datasetAggregationMetricValue, hfunction, pure, Except.pure]
    | max =>
      simp only [datasetAggregationMetricSql, sqlMetric, aggregate, hfunction, castsOf, hcasts]
      cases sqlGreatest (List.filterMap _ rows) <;>
        simp [datasetAggregationMetricValue, hfunction, pure, Except.pure]

theorem mapM_ok {ε α β : Type} {f : α → Except ε β} {g : α → β} (h : ∀ a, f a = .ok (g a)) (l : List α) :
    l.mapM f = .ok (l.map g) :=
  List.mapM_eq_ok_iff.mpr (List.forall₂_map_right_iff.mpr (List.forall₂_same.mpr fun a _ => h a))

theorem datasetAggregationGroup_eq (plan : DatasetAggregationPlan) (kept : List TabularRow)
    (tuple : List Cell) :
    datasetAggregationGroup engine plan (groupMembers plan.groupBy kept tuple) tuple =
      .ok (groupOf plan kept (sqlMetric engine) tuple) := by
  rw [datasetAggregationGroup, mapM_ok (g := fun metric =>
    (metric.name, sqlMetric engine metric (groupMembers plan.groupBy kept tuple)))]
  · rfl
  · intro metric
    rw [metricSql_eq]
    rfl

/-- The tuples that the database fetches: all of them, where the limit allows. -/
theorem fetchedTuples_perm {plan : DatasetAggregationPlan} {kept : List TabularRow} (hkept : kept ≠ []) :
    ∃ arranged : List (List Cell), arranged.Perm (tuples plan.groupBy kept) ∧
      fetchedTuples engine plan kept = arranged.take (plan.groupLimit + 1) := by
  rw [fetchedTuples]
  split_ifs with hgroupBy
  · refine ⟨_, ?_, rfl⟩
    obtain ⟨row, rest, rfl⟩ := List.exists_cons_of_ne_nil hkept
    refine (List.perm_ext_iff_of_nodup (by simp) (List.nodup_dedup _)).mpr fun tuple => ?_
    simp [hgroupBy, tupleOf, eq_comm]
  · exact ⟨_, engine.arrange_perm _, rfl⟩

/-! ### Outcomes -/

/-- The refusal of too many groups. -/
def groupLimitError (details : Mapping) : FoundryLiteError :=
  ⟨.validationFailed, groupLimitMessage, details ++ [("groupLimit", .int datasetAggregationGroupLimit)]⟩

/-- The groups of the kept rows, in order. -/
def groupsOf (plan : DatasetAggregationPlan) (kept : List TabularRow)
    (metricOf : DatasetAggregationMetric → List TabularRow → MetricValue) : List DatasetAggregationGroup :=
  (orderedBy (tupleKey plan.groupBy) (tuples plan.groupBy kept)).map (groupOf plan kept metricOf)

/-- What the language's own engine returns. -/
theorem aggregateDatasetRows_eq {plan : DatasetAggregationPlan}
    (hnames : (plan.metrics.map (·.name)).Nodup) (datasetRef versionId : String)
    {rows kept : List TabularRow} (hkept : rows.filter (matchesFilters texts · plan.filters) = kept) :
    aggregateDatasetRows texts datasetRef versionId rows plan =
      if datasetAggregationGroupLimit < (tuples plan.groupBy kept).length then
        .error (groupLimitError [("datasetRef", .str datasetRef)])
      else .ok (datasetAggregationResult datasetRef versionId ⟨rows.length, kept.length,
        groupsOf plan kept (pyMetric texts), (groupsOf plan kept (pyMetric texts)).length⟩) := by
  have hperm := groupRows_perm texts plan kept
  have hkey : ∀ tuple, ((entryOf texts plan kept tuple).2).key = tupleKey plan.groupBy tuple := fun tuple => by
    rw [entryOf, key_foldl]
  have hshaped : (orderedBy (·.key) ((groupRows texts plan kept).map Prod.snd)).map
      (shapedGroup plan.metrics) = groupsOf plan kept (pyMetric texts) := by
    have hsorted : orderedBy (·.key) ((groupRows texts plan kept).map Prod.snd) =
        (orderedBy (tupleKey plan.groupBy) (tuples plan.groupBy kept)).map
          fun tuple => (entryOf texts plan kept tuple).2 := by
      have hsnd := hperm.map Prod.snd
      rw [List.map_map] at hsnd
      rw [map_orderedBy _ hkey]
      refine (orderedBy_eq_of_perm hsnd.symm ?_).symm
      have hkeys := nodup_tupleKeys plan.groupBy kept
      rw [List.map_map]
      simpa only [Function.comp_def, hkey] using hkeys
    rw [hsorted, List.map_map, groupsOf]
    exact List.map_congr_left fun tuple _ => shapedGroup_entryOf texts hnames kept tuple
  have hlength : (groupRows texts plan kept).length = (tuples plan.groupBy kept).length := by
    rw [hperm.length_eq, List.length_map]
  rw [aggregateDatasetRows]
  simp only [hkept, hlength, hshaped, rejectIf]
  split_ifs with hlimit
  · rfl
  · rfl

/-- What the database returns for the kept rows, where the names are plain. -/
theorem datasetAggregationGroups_eq {plan : DatasetAggregationPlan} {table : Table} {kept : List TabularRow}
    (hkept : table.rows.filter (whereHolds engine plan.filters) = kept) (hne : kept ≠ [])
    (hnames : ∀ column ∈ plan.groupBy ++ metricColumns plan.metrics, isSqlIdentifier column = true)
    (hcolumns : ∀ column ∈ plan.groupBy ++ metricColumns plan.metrics, table.columns.get? column ≠ none) :
    ∃ groups, datasetAggregationGroups engine table plan = .ok groups ∧
      groups.length = min (plan.groupLimit + 1) (tuples plan.groupBy kept).length ∧
      ((tuples plan.groupBy kept).length ≤ plan.groupLimit →
        groups = groupsOf plan kept (sqlMetric engine)) := by
  have hsafe : ∀ names : List String, (∀ name ∈ names, isSqlIdentifier name = true) →
      names.forM sqlIdentifier = .ok () := fun names hall =>
    List.forM_eq_ok_iff.mpr fun name hname => by simp [sqlIdentifier, rejectIf_eq_ok_iff, hall name hname]
  have hbound : (plan.groupBy ++ metricColumns plan.metrics).forM (bindColumn table) = .ok () :=
    List.forM_eq_ok_iff.mpr fun name hname => by simp [bindColumn, hcolumns name hname]
  obtain ⟨arranged, hperm, hfetched⟩ := @fetchedTuples_perm engine plan _ hne
  have hkeys : ∀ tuple, (groupOf plan kept (sqlMetric engine) tuple).key = tupleKey plan.groupBy tuple :=
    fun _ => rfl
  refine ⟨orderedBy (·.key) ((arranged.take (plan.groupLimit + 1)).map (groupOf plan kept (sqlMetric engine))),
    ?_, ?_, fun hlimit => ?_⟩
  · rw [datasetAggregationGroups, hsafe _ fun name hname => hnames name (List.mem_append_left _ hname),
      hsafe _ fun name hname => hnames name (List.mem_append_right _ hname), hbound]
    have hgroups := mapM_ok (datasetAggregationGroup_eq engine plan kept) (arranged.take (plan.groupLimit + 1))
    simp only [groupMembers] at hgroups
    simp only [hkept, hfetched, hgroups]
    rfl
  · rw [(orderedBy_perm _ _).length_eq, List.length_map, List.length_take, hperm.length_eq]
  · rw [List.take_of_length_le (by rw [hperm.length_eq]; omega), groupsOf, map_orderedBy _ hkeys]
    refine (orderedBy_eq_of_perm (hperm.symm.map _) ?_).symm
    rw [List.map_map]
    exact nodup_tupleKeys plan.groupBy kept

end

/-! ### The law -/

/-- The same result, or the same refusal, whose details name the dataset in one engine only. -/
def SameOutcome (datasetRef versionId : String) :
    Checked DatasetAggregationResult → Checked DatasetAggregationComputeResult → Prop
  | .ok result, .ok computed => result = datasetAggregationResult datasetRef versionId computed
  | .error e, .error e' => e.code = e'.code ∧ e.message = e'.message ∧
      e.details = ("datasetRef", .str datasetRef) :: e'.details
  | _, _ => False

/-- The two engines agree on a table: every filter means the same, and they return the same. -/
structure Agree (texts : AggregationTexts) (engine : SqlEngine) (datasetRef versionId : String)
    (table : Table) (plan : DatasetAggregationPlan) : Prop where
  filters : ∀ row ∈ table.rows, ∀ item ∈ plan.filters,
    sqlHolds engine item row = matchesFilter texts row item
  outcome : SameOutcome datasetRef versionId
    (aggregateDatasetRows texts datasetRef versionId table.rows plan)
    (executeDatasetAggregation engine table plan)

/-- What only the database reads as a number does not show in a metric of the cells. -/
def MetricUnconfused (texts : AggregationTexts) (engine : SqlEngine) (function : AggregationFunction)
    (cells : List Cell) : Prop :=
  (∃ cell ∈ cells, ∃ x, castDouble engine cell = some x ∧ (cell.isBool = true ∨ x = .nan)) →
    HidesNan function (cells.filterMap (numericValue texts))

/-- Nothing is read by the database only: in the filters, in the names, and in the metrics of groups that
are not too many. -/
structure Unconfused (texts : AggregationTexts) (engine : SqlEngine) (plan : DatasetAggregationPlan)
    (rows : List TabularRow) : Prop where
  filterNames : ∀ item ∈ plan.filters, isSqlIdentifier item.column = true
  filters : ∀ row ∈ rows, ∀ item ∈ plan.filters, FilterUnconfused engine (cellOf row item.column) item
  names : rows.filter (matchesFilters texts · plan.filters) ≠ [] →
    ∀ column ∈ plan.groupBy ++ metricColumns plan.metrics, isSqlIdentifier column = true
  metrics :
    let kept := rows.filter (matchesFilters texts · plan.filters)
    (tuples plan.groupBy kept).length ≤ datasetAggregationGroupLimit →
      ∀ row ∈ kept, ∀ metric ∈ plan.metrics, metric.function ≠ .count →
        MetricUnconfused texts engine metric.function
          ((groupMembers plan.groupBy kept (tupleOf plan.groupBy row)).map (cellOf · (propertyOf metric)))

section

variable {texts : AggregationTexts} {engine : SqlEngine}

/-- The metric of a typed column is the same to both engines, or not. -/
theorem aggregate_cells_eq_iff {function : AggregationFunction} (hfunction : function ≠ .count)
    {cells : List Cell} {type : ColumnType} (htyped : ∀ cell ∈ cells, type.Holds cell)
    (hblank : ∀ text, Text.strip text = "" → texts.float text = none)
    (hcells : ∀ cell ∈ cells, ∀ text, cell = .str text → engine.tryCastDouble text = texts.float text) :
    aggregate leastOf greatestOf function (cells.filterMap (numericValue texts)) =
        aggregate sqlLeast sqlGreatest function (cells.filterMap (castDouble engine)) ↔
      MetricUnconfused texts engine function cells := by
  by_cases hboolean : type = .boolean
  · -- No number is read in the column, while every truth value is one to the database.
    have hnumbers : cells.filterMap (numericValue texts) = [] := by
      rw [List.filterMap_eq_nil_iff]
      intro cell hcell
      have hholds := htyped cell hcell
      subst hboolean
      cases cell with
      | null => rfl
      | bool b => rfl
      | int n => exact hholds.elim
      | str text => exact hholds.elim
    have hhides : ¬ HidesNan function [] := by
      cases function <;> simp [HidesNan, totalOf]
    have hempty : aggregate leastOf greatestOf function [] = .null := if_pos rfl
    rw [MetricUnconfused, hnumbers, hempty, eq_comm, aggregate_eq_null_iff hfunction,
      List.filterMap_eq_nil_iff]
    constructor
    · rintro hnone ⟨cell, hcell, x, hx, -⟩
      exact absurd hx (by rw [hnone cell hcell]; simp)
    · intro hunconfused cell hcell
      have hholds := htyped cell hcell
      subst hboolean
      cases cell with
      | null => rfl
      | bool b => exact absurd (hunconfused ⟨_, hcell, _, rfl, .inl rfl⟩) hhides
      | int n => exact hholds.elim
      | str text => exact hholds.elim
  · have hbool : ∀ cell ∈ cells, cell.isBool = false := by
      intro cell hcell
      have hholds := htyped cell hcell
      cases cell with
      | bool b => cases type <;> first | exact hholds.elim | exact absurd rfl hboolean
      | null => rfl
      | int n => rfl
      | str text => rfl
    have hnumbers : cells.filterMap (numericValue texts) = proper (cells.filterMap (castDouble engine)) := by
      rw [proper, List.filter_filterMap]
      refine List.filterMap_congr fun cell hcell => ?_
      rw [numericValue_eq hblank (hcells cell hcell), hbool cell hcell]
      rfl
    have hnan : Double.nan ∈ cells.filterMap (castDouble engine) ↔
        ∃ cell ∈ cells, ∃ x, castDouble engine cell = some x ∧ (cell.isBool = true ∨ x = .nan) := by
      rw [List.mem_filterMap]
      constructor
      · rintro ⟨cell, hcell, hx⟩
        exact ⟨cell, hcell, _, hx, .inr rfl⟩
      · rintro ⟨cell, hcell, x, hx, hb | rfl⟩
        · exact absurd hb (by rw [hbool cell hcell]; decide)
        · exact ⟨cell, hcell, hx⟩
    rw [MetricUnconfused, hnumbers, aggregate_proper_eq_iff hfunction, hnan]

theorem filterMap_map_cells {α : Type} (f : Cell → Option α) (rows : List TabularRow) (column : String) :
    (rows.map (cellOf · column)).filterMap f = rows.filterMap fun row => f (cellOf row column) := by
  rw [List.filterMap_map]
  rfl

/-- A metric of a group of a typed table is the same to both engines, or not. -/
theorem pyMetric_eq_iff {plan : DatasetAggregationPlan} {table : Table}
    (hreads : ReadsAlike texts engine plan table.rows)
    (hcolumns : ∀ column ∈ metricColumns plan.metrics, table.columns.get? column ≠ none)
    {metric : DatasetAggregationMetric} (hmetric : metric ∈ plan.metrics) (hfunction : metric.function ≠ .count)
    {rows : List TabularRow} (hrows : rows ⊆ table.rows) :
    pyMetric texts metric rows = sqlMetric engine metric rows ↔
      MetricUnconfused texts engine metric.function (rows.map (cellOf · (propertyOf metric))) := by
  have hcolumn : propertyOf metric ∈ metricColumns plan.metrics :=
    List.mem_map.mpr ⟨metric, List.mem_filter.mpr ⟨hmetric, by simpa using hfunction⟩, rfl⟩
  obtain ⟨type, htype⟩ := Option.ne_none_iff_exists'.mp (hcolumns _ hcolumn)
  rw [pyMetric, sqlMetric, if_neg hfunction, if_neg hfunction, numbersOf, castsOf, ← filterMap_map_cells,
    ← filterMap_map_cells]
  refine @aggregate_cells_eq_iff texts engine _ hfunction _ type (fun cell hcell => ?_) hreads.blank
    fun cell hcell text htext => ?_
  · obtain ⟨row, hrow, rfl⟩ := List.mem_map.mp hcell
    exact table.typed row (hrows hrow) _ type htype
  · obtain ⟨row, hrow, rfl⟩ := List.mem_map.mp hcell
    exact hreads.cells row (hrows hrow) _ (List.mem_append_left _ hcolumn) text htext

/-- The groups are the same if their metrics are. -/
theorem groupsOf_eq_iff {plan : DatasetAggregationPlan} (hnames : (plan.metrics.map (·.name)).Nodup)
    (kept : List TabularRow) (f g : DatasetAggregationMetric → List TabularRow → MetricValue) :
    groupsOf plan kept f = groupsOf plan kept g ↔ ∀ row ∈ kept, ∀ metric ∈ plan.metrics,
      f metric (groupMembers plan.groupBy kept (tupleOf plan.groupBy row)) =
        g metric (groupMembers plan.groupBy kept (tupleOf plan.groupBy row)) := by
  rw [groupsOf, groupsOf, List.map_inj_left]
  constructor
  · intro h row hrow metric hmetric
    have hgroup := h (tupleOf plan.groupBy row)
      ((orderedBy_perm _ _).symm.subset (mem_tuples.mpr ⟨row, hrow, rfl⟩))
    have hget := congrArg (fun group : DatasetAggregationGroup => group.metrics.get? metric.name) hgroup
    simpa [groupOf, Grouping.lookup_map_of_nodup hnames hmetric] using hget
  · intro h tuple htuple
    obtain ⟨row, hrow, rfl⟩ := mem_tuples.mp ((orderedBy_perm _ _).subset htuple)
    rw [groupOf, groupOf, List.map_congr_left fun metric hmetric => by rw [h row hrow metric hmetric]]

theorem forM_eq_error {ε α : Type} {f : α → Except ε Unit} {items : List α} {item : α}
    (hitem : item ∈ items) (h : f item ≠ .ok ()) : ∃ a ∈ items, ∃ e, f a = .error e ∧
      items.forM f = .error e := by
  induction items with
  | nil => cases hitem
  | cons first rest ih =>
    rw [List.forM]
    cases hfirst : f first with
    | error e => exact ⟨first, List.mem_cons_self, e, hfirst, rfl⟩
    | ok u =>
      rcases List.mem_cons.mp hitem with rfl | hrest
      · exact absurd hfirst h
      · obtain ⟨a, ha, e, he, hall⟩ := ih hrest
        exact ⟨a, List.mem_cons_of_mem _ ha, e, he, hall⟩

theorem sqlIdentifier_eq_ok_iff {name : String} {u : Unit} :
    sqlIdentifier name = .ok u ↔ isSqlIdentifier name = true := by
  rw [sqlIdentifier, rejectIf_eq_ok_iff, Bool.not_eq_false]

/-- A name that is no plain identifier is refused, and not because of too many groups. -/
theorem forM_sqlIdentifier_of_unsafe {names : List String} {name : String} (hname : name ∈ names)
    (hplain : isSqlIdentifier name ≠ true) :
    ∃ e, names.forM sqlIdentifier = .error e ∧ e.message ≠ groupLimitMessage := by
  obtain ⟨a, -, e, he, hall⟩ := forM_eq_error hname (sqlIdentifier_eq_ok_iff.not.mpr hplain)
  refine ⟨e, hall, ?_⟩
  rw [sqlIdentifier, rejectIf_eq_error_iff] at he
  rw [he.2]
  have hne : "unsafe SQL identifier" ≠ groupLimitMessage := by decide
  exact hne

/-- What the language's own engine refuses, it refuses for too many groups. -/
theorem not_sameOutcome_of_message {plan : DatasetAggregationPlan}
    (hnames : (plan.metrics.map (·.name)).Nodup) {datasetRef versionId : String} {rows : List TabularRow}
    {e : FoundryLiteError} (he : e.message ≠ groupLimitMessage) : ¬ SameOutcome datasetRef versionId
      (aggregateDatasetRows texts datasetRef versionId rows plan) (.error e) := by
  rw [aggregateDatasetRows_eq texts hnames datasetRef versionId rfl]
  split_ifs with hlimit
  · exact fun h => he h.2.1.symm
  · exact id

/-- The outcomes of a table, once the filters keep the same rows and their names are plain. -/
theorem sameOutcome_iff {plan : DatasetAggregationPlan} {table : Table} {columnTypes : Dict String String}
    (hformed : Formed columnTypes plan)
    (hschema : ∀ column, columnTypes.get? column ≠ none → table.columns.get? column ≠ none)
    (hreads : ReadsAlike texts engine plan table.rows)
    (hfilterNames : ∀ item ∈ plan.filters, isSqlIdentifier item.column = true)
    (hfilters : ∀ row ∈ table.rows, ∀ item ∈ plan.filters,
      sqlHolds engine item row = matchesFilter texts row item)
    {kept : List TabularRow} (hkept : table.rows.filter (matchesFilters texts · plan.filters) = kept)
    (datasetRef versionId : String) :
    SameOutcome datasetRef versionId (aggregateDatasetRows texts datasetRef versionId table.rows plan)
        (executeDatasetAggregation engine table plan) ↔
      (kept ≠ [] → ∀ column ∈ plan.groupBy ++ metricColumns plan.metrics, isSqlIdentifier column = true) ∧
      ((tuples plan.groupBy kept).length ≤ datasetAggregationGroupLimit → ∀ row ∈ kept,
        ∀ metric ∈ plan.metrics, metric.function ≠ .count →
          MetricUnconfused texts engine metric.function
            ((groupMembers plan.groupBy kept (tupleOf plan.groupBy row)).map (cellOf · (propertyOf metric)))) := by
  have hsame : table.rows.filter (whereHolds engine plan.filters) = kept := by
    rw [← hkept]
    refine List.filter_congr fun row hrow => ?_
    rw [whereHolds, matchesFilters]
    rw [Bool.eq_iff_iff, List.all_eq_true, List.all_eq_true]
    exact forall₂_congr fun item hitem => by rw [hfilters row hrow item hitem]
  have hclause : datasetAggregationFilterClause plan.filters = .ok () :=
    List.forM_eq_ok_iff.mpr fun item hitem => sqlIdentifier_eq_ok_iff.mpr (hfilterNames item hitem)
  have hbound : (plan.filters.map (·.column)).forM (bindColumn table) = .ok () := by
    refine List.forM_eq_ok_iff.mpr fun name hname => ?_
    obtain ⟨item, hitem, rfl⟩ := List.mem_map.mp hname
    simp [bindColumn, hschema _ (hformed.filters item hitem)]
  have hexecute : executeDatasetAggregation engine table plan =
      if kept.length = 0 then .ok ⟨table.rows.length, 0, [], 0⟩
      else (do
        let groups ← datasetAggregationGroups engine table plan
        rejectIf (plan.groupLimit < groups.length) groupLimitMessage [("groupLimit", .int plan.groupLimit)]
        return ⟨table.rows.length, kept.length, groups, groups.length⟩) := by
    rw [executeDatasetAggregation, hclause, hbound, hsame]
    rfl
  rw [hexecute, aggregateDatasetRows_eq texts hformed.names datasetRef versionId hkept]
  by_cases hempty : kept = []
  · subst hempty
    simp [SameOutcome, groupsOf, tuples, orderedBy]
  rw [if_neg fun h => hempty (List.length_eq_zero_iff.mp h)]
  by_cases hplain : ∀ column ∈ plan.groupBy ++ metricColumns plan.metrics, isSqlIdentifier column = true
  swap
  · -- The query is not even written.
    obtain ⟨e, hgroups, he⟩ : ∃ e, datasetAggregationGroups engine table plan = .error e ∧
        e.message ≠ groupLimitMessage := by
      rw [datasetAggregationGroups]
      by_cases hgroupBy : ∀ column ∈ plan.groupBy, isSqlIdentifier column = true
      · have hsafe : plan.groupBy.forM sqlIdentifier = .ok () :=
          List.forM_eq_ok_iff.mpr fun name hname => sqlIdentifier_eq_ok_iff.mpr (hgroupBy name hname)
        obtain ⟨name, hname, hname'⟩ : ∃ name ∈ metricColumns plan.metrics, isSqlIdentifier name ≠ true := by
          by_contra hall
          push Not at hall
          exact hplain fun column hcolumn => (List.mem_append.mp hcolumn).elim (hgroupBy column) (hall column)
        obtain ⟨e, he, hmessage⟩ := forM_sqlIdentifier_of_unsafe hname hname'
        exact ⟨e, by rw [hsafe, he]; rfl, hmessage⟩
      · push Not at hgroupBy
        obtain ⟨name, hname, hname'⟩ := hgroupBy
        obtain ⟨e, he, hmessage⟩ := forM_sqlIdentifier_of_unsafe hname hname'
        exact ⟨e, by rw [he]; rfl, hmessage⟩
    have hmessage := @not_sameOutcome_of_message texts plan hformed.names datasetRef versionId table.rows e he
    rw [aggregateDatasetRows_eq texts hformed.names datasetRef versionId hkept] at hmessage
    rw [hgroups]
    exact iff_of_false hmessage fun h => hplain (h.1 hempty)
  have hcolumns : ∀ column ∈ plan.groupBy ++ metricColumns plan.metrics, table.columns.get? column ≠ none :=
    fun column hcolumn => hschema column ((List.mem_append.mp hcolumn).elim (hformed.groupBy column)
      (hformed.metrics column))
  obtain ⟨groups, hgroups, hlength, heq⟩ := datasetAggregationGroups_eq engine hsame hempty hplain hcolumns
  rw [hgroups]
  rw [hformed.limit] at hlength heq ⊢
  by_cases hlimit : datasetAggregationGroupLimit < (tuples plan.groupBy kept).length
  · have hmany : datasetAggregationGroupLimit < groups.length := by omega
    rw [if_pos hlimit]
    have hrefused : SameOutcome datasetRef versionId
        (.error (groupLimitError [("datasetRef", .str datasetRef)])) (.error (groupLimitError [])) :=
      ⟨rfl, rfl, rfl⟩
    have herror : (do
        rejectIf (datasetAggregationGroupLimit < groups.length) groupLimitMessage
          [("groupLimit", .int datasetAggregationGroupLimit)]
        return (⟨table.rows.length, kept.length, groups, groups.length⟩ :
          DatasetAggregationComputeResult)) = Except.error (groupLimitError []) := by
      rw [rejectIf, if_pos hmany]
      rfl
    exact iff_of_true (herror ▸ hrefused) ⟨fun _ => hplain, fun h => absurd h (not_le.mpr hlimit)⟩
  · have hfew : ¬ datasetAggregationGroupLimit < groups.length := by omega
    rw [if_neg hlimit]
    have hok : (do
        rejectIf (datasetAggregationGroupLimit < groups.length) groupLimitMessage
          [("groupLimit", .int datasetAggregationGroupLimit)]
        return (⟨table.rows.length, kept.length, groups, groups.length⟩ :
          DatasetAggregationComputeResult)) =
          Except.ok ⟨table.rows.length, kept.length, groups, groups.length⟩ := by
      rw [rejectIf, if_neg hfew]
      rfl
    have hmetrics : groupsOf plan kept (pyMetric texts) = groups ↔ ∀ row ∈ kept, ∀ metric ∈ plan.metrics,
        metric.function ≠ .count → MetricUnconfused texts engine metric.function
          ((groupMembers plan.groupBy kept (tupleOf plan.groupBy row)).map (cellOf · (propertyOf metric))) := by
      rw [heq (not_lt.mp hlimit), groupsOf_eq_iff hformed.names]
      refine forall₄_congr fun row _ metric hmetric => ?_
      have hmembers : groupMembers plan.groupBy kept (tupleOf plan.groupBy row) ⊆ table.rows := fun row' h =>
        (List.mem_filter.mp (hkept ▸ (List.mem_filter.mp h).1)).1
      by_cases hcount : metric.function = .count
      · simp [pyMetric, sqlMetric, hcount]
      · rw [pyMetric_eq_iff hreads (fun column hcolumn => hcolumns column (List.mem_append_right _ hcolumn))
          hmetric hcount hmembers]
        exact ⟨fun h _ => h, fun h => h hcount⟩
    have houtcome : SameOutcome datasetRef versionId
        (.ok (datasetAggregationResult datasetRef versionId ⟨table.rows.length, kept.length,
          groupsOf plan kept (pyMetric texts), (groupsOf plan kept (pyMetric texts)).length⟩))
        (.ok ⟨table.rows.length, kept.length, groups, groups.length⟩) ↔
          groupsOf plan kept (pyMetric texts) = groups := by
      constructor
      · intro h
        exact congrArg (fun result : DatasetAggregationResult => result.groups) h
      · rintro rfl
        rfl
    have hgoal := houtcome.trans hmetrics
    rw [← hok] at hgoal
    exact hgoal.trans ⟨fun h => ⟨fun _ => hplain, fun _ => h⟩, fun h => h.2 (not_lt.mp hlimit)⟩

end

/-- **The two engines agree exactly if nothing is read by the database only.** -/
theorem agree_iff_unconfused {env : Serialiser} {texts : AggregationTexts} {engine : SqlEngine}
    {datasetRef versionId : String} {schema : Mapping} {maskedColumns : List String} {filters : List Mapping}
    {groupBy : List String} {select : List Mapping} {plan : DatasetAggregationPlan}
    (hplan : buildDatasetAggregationPlan env datasetRef schema maskedColumns filters groupBy select = .ok plan)
    (table : Table)
    (hschema : ∀ types, schemaColumnTypes env schema = .ok types →
      ∀ column, types.get? column ≠ none → table.columns.get? column ≠ none)
    (hreads : ReadsAlike texts engine plan table.rows) :
    Agree texts engine datasetRef versionId table plan ↔ Unconfused texts engine plan table.rows := by
  obtain ⟨types, htypes, hformed⟩ := formed_of_build hplan
  have hfilters : (∀ row ∈ table.rows, ∀ item ∈ plan.filters,
      sqlHolds engine item row = matchesFilter texts row item) ↔
      ∀ row ∈ table.rows, ∀ item ∈ plan.filters, FilterUnconfused engine (cellOf row item.column) item :=
    forall₄_congr fun row hrow item hitem => sqlHolds_eq_iff hreads hrow hitem
  constructor
  · intro h
    have hfilterNames : ∀ item ∈ plan.filters, isSqlIdentifier item.column = true := by
      by_contra hplain
      push Not at hplain
      obtain ⟨item, hitem, hname⟩ := hplain
      obtain ⟨a, -, e, he, hall⟩ := @forM_eq_error _ _ (fun item => sqlIdentifier item.column) _ _ hitem
        (sqlIdentifier_eq_ok_iff.not.mpr hname)
      have hexecute : executeDatasetAggregation engine table plan = .error e := by
        rw [executeDatasetAggregation, datasetAggregationFilterClause, hall]
        rfl
      have houtcome := h.outcome
      rw [hexecute] at houtcome
      have hmessage : "unsafe SQL identifier" ≠ groupLimitMessage := by decide
      refine not_sameOutcome_of_message hformed.names ?_ houtcome
      rw [sqlIdentifier, rejectIf_eq_error_iff] at he
      rw [he.2]
      exact hmessage
    obtain ⟨hnames, hmetrics⟩ := (sameOutcome_iff hformed (hschema types htypes) hreads hfilterNames h.filters
      rfl datasetRef versionId).mp h.outcome
    exact ⟨hfilterNames, hfilters.mp h.filters, hnames, hmetrics⟩
  · intro h
    have hsame := hfilters.mpr h.filters
    exact ⟨hsame, (sameOutcome_iff hformed (hschema types htypes) hreads h.filterNames hsame rfl datasetRef
      versionId).mpr ⟨h.names, h.metrics⟩⟩

/-! ### A table with a truth value -/

def sampleSerialiser : Serialiser := ⟨fun _ => "", fun _ => ""⟩

/-- Texts in which no number is spelled. -/
def sampleTexts : AggregationTexts := ⟨lowerAscii, fun _ => none⟩

def sampleEngine : SqlEngine := ⟨lowerAscii, fun _ => none, id, fun tuples => List.Perm.refl tuples⟩

def sampleSchema : Mapping :=
  [("columns", .arr [.obj [("name", .str "active"), ("type", .str "boolean")]])]

def sampleTable : Table where
  columns := Dict.ofList [("active", .boolean)]
  rows := [Dict.ofList [("active", .bool true)]]
  typed := by
    intro row hrow column type htype
    rw [List.mem_singleton.mp hrow, cellOf, Dict.get?_ofList]
    by_cases hcolumn : column = "active"
    · subst hcolumn
      cases type with
      | boolean => exact trivial
      | integer => exact absurd htype (by decide)
      | string => exact absurd htype (by decide)
    · have hbeq : (column == "active") = false := by simpa using hcolumn
      simp [List.lookup_cons, hbeq, ColumnType.Holds]

/-- A count of the rows whose column has a text. -/
def samplePlan (value : String) : DatasetAggregationPlan :=
  ⟨[], [⟨"count", .count, none⟩], [⟨"active", .eq, value⟩], datasetAggregationGroupLimit⟩

theorem build_samplePlan (value : String) : buildDatasetAggregationPlan sampleSerialiser "raw.flags"
    sampleSchema [] [[("column", .str "active"), ("operator", .str "eq"), ("value", .str value)]] []
    [[("function", .str "count")]] = .ok (samplePlan value) := rfl

theorem readsAlike_samplePlan (value : String) :
    ReadsAlike sampleTexts sampleEngine (samplePlan value) sampleTable.rows where
  blank := fun _ _ => rfl
  targets := fun _ _ _ => rfl
  cells := fun _ _ _ _ _ _ => rfl
  lowerTargets := fun _ _ _ => rfl
  lowerCells := by
    intro item hitem hoperator
    rw [List.mem_singleton.mp hitem] at hoperator
    cases hoperator

theorem sample_columns (types : Dict String String) (htypes : schemaColumnTypes sampleSerialiser sampleSchema =
    .ok types) (column : String) (hcolumn : types.get? column ≠ none) :
    sampleTable.columns.get? column ≠ none := by
  obtain rfl : Dict.ofList [("active", "boolean")] = types := Except.ok.inj htypes
  by_cases hname : column = "active"
  · subst hname
    decide
  · have hbeq : (column == "active") = false := by simpa using hname
    exact absurd (by simp [List.lookup_cons, hbeq]) hcolumn

/-- The engines agree on a text that is no truth value's. -/
theorem agree_iff_unconfused_maybe :
    Agree sampleTexts sampleEngine "raw.flags" "v1" sampleTable (samplePlan "maybe") := by
  refine (agree_iff_unconfused (build_samplePlan "maybe") sampleTable sample_columns
    (readsAlike_samplePlan "maybe")).mpr ⟨?_, ?_, ?_, ?_⟩
  · intro item hitem
    rw [List.mem_singleton.mp hitem]
    decide
  · intro row hrow item hitem
    rw [List.mem_singleton.mp hrow, List.mem_singleton.mp hitem]
    intro b _
    cases b <;> decide
  · intro _ column hcolumn
    cases hcolumn
  · intro kept _ row _ metric hmetric hfunction
    rw [List.mem_singleton.mp hmetric] at hfunction
    exact absurd rfl hfunction

/-- The text of the true value is `True` in one engine and `true` in the other. -/
theorem not_agree_of_true : ∃ plan, buildDatasetAggregationPlan sampleSerialiser "raw.flags"
      sampleSchema [] [[("column", .str "active"), ("operator", .str "eq"), ("value", .str "True")]] []
      [[("function", .str "count")]] = .ok plan ∧
    ReadsAlike sampleTexts sampleEngine plan sampleTable.rows ∧
    ¬ Agree sampleTexts sampleEngine "raw.flags" "v1" sampleTable plan := by
  refine ⟨samplePlan "True", build_samplePlan "True", readsAlike_samplePlan "True", fun h => ?_⟩
  have hsame := h.filters _ List.mem_cons_self _ List.mem_cons_self
  exact absurd hsame (by decide)

end FoundryLite.Dataset
