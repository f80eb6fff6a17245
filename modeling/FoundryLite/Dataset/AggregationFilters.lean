import FoundryLite.Dataset.AggregationGroups

/-!
# The filters of the two engines

A plan that is built names columns of its schema and has metrics of different names. Its filters keep the
same rows in both engines where the database reads texts as the language does (`ReadsAlike`) and nothing
that is compared is read by the database only (`FilterUnconfused`).

## Main results

* `formed_of_build`: what is known of a plan that is built.
* `sqlHolds_eq_iff`: when a filter means the same to both engines.
-/

namespace FoundryLite.Dataset

open Except (bind_eq_ok_iff pure_eq_ok_iff)

/-! ### Plans that are built -/

/-- What is known of a plan that is built. -/
structure Formed (columnTypes : Dict String String) (plan : DatasetAggregationPlan) : Prop where
  names : (plan.metrics.map (·.name)).Nodup
  limit : plan.groupLimit = datasetAggregationGroupLimit
  groupBy : ∀ column ∈ plan.groupBy, columnTypes.get? column ≠ none
  metrics : ∀ column ∈ metricColumns plan.metrics, columnTypes.get? column ≠ none
  filters : ∀ item ∈ plan.filters, columnTypes.get? item.column ≠ none

section

variable {env : Serialiser} {datasetRef : String} {columnTypes : Dict String String}
  {maskedColumns : List String}

theorem requireColumn_eq_ok {column source : String} {u : Unit}
    (h : requireColumn datasetRef columnTypes maskedColumns column source = .ok u) :
    columnTypes.get? column ≠ none := by
  rw [requireColumn, bind_eq_ok_iff] at h
  obtain ⟨_, hreject, -⟩ := h
  exact rejectIf_eq_ok_iff.mp hreject

theorem requireNumericColumn_eq_ok {column source : String} {u : Unit}
    (h : requireNumericColumn datasetRef columnTypes maskedColumns column source = .ok u) :
    columnTypes.get? column ≠ none := by
  rw [requireNumericColumn, bind_eq_ok_iff] at h
  obtain ⟨_, hrequire, -⟩ := h
  exact requireColumn_eq_ok hrequire

theorem metricFromRequest_eq_ok {item : Mapping} {metric : DatasetAggregationMetric}
    (h : metricFromRequest datasetRef columnTypes maskedColumns item = .ok metric)
    (hfunction : metric.function ≠ .count) : columnTypes.get? (propertyOf metric) ≠ none := by
  rw [metricFromRequest, bind_eq_ok_iff] at h
  obtain ⟨function, -, h⟩ := h
  split_ifs at h with hcount
  · simp only [countMetric, bind_eq_ok_iff, pure_eq_ok_iff] at h
    obtain ⟨_, -, rfl⟩ := h
    exact absurd rfl hfunction
  · simp only [metricProperty, bind_eq_ok_iff, pure_eq_ok_iff] at h
    obtain ⟨name, ⟨name', -, _, hnumeric, rfl⟩, rfl⟩ := h
    exact requireNumericColumn_eq_ok hnumeric

theorem filterFromRequest_eq_ok {item : Mapping} {filter : DatasetAggregationFilter}
    (h : filterFromRequest env datasetRef columnTypes maskedColumns item = .ok filter) :
    columnTypes.get? filter.column ≠ none := by
  simp only [filterFromRequest, filterColumn, bind_eq_ok_iff, pure_eq_ok_iff] at h
  obtain ⟨column, ⟨column', -, _, hrequire, rfl⟩, operator, -, h⟩ := h
  have hcolumn := requireColumn_eq_ok hrequire
  split_ifs at h with hnumeric
  · simp only [bind_eq_ok_iff, pure_eq_ok_iff] at h
    obtain ⟨_, -, rfl⟩ := h
    exact hcolumn
  · obtain ⟨_, -, rfl⟩ := h
    exact hcolumn

theorem formed_of_build {schema : Mapping} {filters : List Mapping} {groupBy : List String}
    {select : List Mapping} {plan : DatasetAggregationPlan}
    (h : buildDatasetAggregationPlan env datasetRef schema maskedColumns filters groupBy select = .ok plan) :
    ∃ types, schemaColumnTypes env schema = .ok types ∧ Formed types plan := by
  simp only [buildDatasetAggregationPlan, validatedGroupBy, validatedMetrics, validatedFilters,
    bind_eq_ok_iff, pure_eq_ok_iff, rejectIf_eq_ok_iff] at h
  obtain ⟨types, htypes, groupBy', ⟨_, -, _, -, _, hgroupBy, rfl⟩, metrics,
    ⟨metrics', hmetrics, _, -, _, hnames, rfl⟩, filters', ⟨_, -, hfilters⟩, rfl⟩ := h
  refine ⟨types, htypes, not_not.mp hnames, rfl, fun column hcolumn => ?_, fun column hcolumn => ?_,
    fun item hitem => ?_⟩
  · exact requireColumn_eq_ok (List.forM_eq_ok_iff.mp hgroupBy column hcolumn)
  · obtain ⟨metric, hmetric, rfl⟩ := List.mem_map.mp hcolumn
    obtain ⟨hmetric, hfunction⟩ := List.mem_filter.mp hmetric
    obtain ⟨request, -, hrequest⟩ := List.exists_mem_of_mem_mapM_eq_ok hmetrics hmetric
    exact metricFromRequest_eq_ok hrequest (by simpa using hfunction)
  · obtain ⟨request, -, hrequest⟩ := List.exists_mem_of_mem_mapM_eq_ok hfilters hitem
    exact filterFromRequest_eq_ok hrequest

end

/-! ### Filters -/

def Cell.isBool : Cell → Bool
  | .bool _ => true
  | _ => false

/-- The columns in which numbers are read. -/
def numericColumns (plan : DatasetAggregationPlan) : List String :=
  metricColumns plan.metrics ++ (plan.filters.filter (·.operator.isNumeric)).map (·.column)

/-- The database reads the texts that a plan meets as the language does: it finds the same numbers in
them, and has the same lower-case letters. -/
structure ReadsAlike (texts : AggregationTexts) (engine : SqlEngine) (plan : DatasetAggregationPlan)
    (rows : List TabularRow) : Prop where
  blank : ∀ text, Text.strip text = "" → texts.float text = none
  targets : ∀ item ∈ plan.filters, item.operator.isNumeric = true →
    engine.tryCastDouble item.value = texts.float item.value
  cells : ∀ row ∈ rows, ∀ column ∈ numericColumns plan, ∀ text, cellOf row column = .str text →
    engine.tryCastDouble text = texts.float text
  lowerTargets : ∀ item ∈ plan.filters, item.operator = .contains →
    engine.lower item.value = texts.lower item.value
  lowerCells : ∀ item ∈ plan.filters, item.operator = .contains → ∀ row ∈ rows,
    engine.lower (sqlText (cellOf row item.column)) = texts.lower (cellText (cellOf row item.column))

/-- Nothing in a filter's comparison with a value is read by the database only. -/
def FilterUnconfused (engine : SqlEngine) (cell : Cell) (item : DatasetAggregationFilter) : Prop :=
  match item.operator with
  | .eq | .neq => ∀ b, cell = .bool b → item.value ≠ cellText (.bool b) ∧ item.value ≠ sqlText (.bool b)
  | .contains => True
  | operator => ∀ x y, castDouble engine cell = some x → engine.tryCastDouble item.value = some y →
      sqlCompare x operator y = true → cell.isBool = false ∧ x ≠ .nan ∧ y ≠ .nan

section

variable {texts : AggregationTexts} {engine : SqlEngine}

/-- A text's number, or another value's, is the database's unless it is a truth value's or not a number. -/
theorem numericValue_eq {cell : Cell} (hblank : ∀ text, Text.strip text = "" → texts.float text = none)
    (hcell : ∀ text, cell = .str text → engine.tryCastDouble text = texts.float text) :
    numericValue texts cell =
      if cell.isBool then none else (castDouble engine cell).filter fun x => x ≠ .nan := by
  cases cell with
  | null => rfl
  | int n => simp [numericValue, castDouble, Cell.isBool, Option.filter, Double.ofInt_ne_nan]
  | bool b => rfl
  | str text =>
    rw [numericValue, castDouble, hcell text rfl]
    by_cases hstrip : Text.strip text = ""
    · simp [hstrip, hblank text hstrip, Cell.isBool]
    · simp [hstrip, Cell.isBool]

theorem sqlCompare_eq {x y : Double} (hx : x ≠ .nan) (hy : y ≠ .nan) (operator : AggregationOperator) :
    sqlCompare x operator y = compareNumeric x operator y := by
  cases operator <;>
    simp [sqlCompare, compareNumeric, Double.sqlLess_of_ne_nan, Double.sqlLessEqual_of_ne_nan, hx, hy]

/-- A text comparison goes wrong where a truth value meets one of its texts. -/
theorem text_eq_iff (cell : Cell) (target : String) :
    ((sqlText cell = target ↔ cellText cell = target) ↔
      ∀ b, cell = .bool b → target ≠ cellText (.bool b) ∧ target ≠ sqlText (.bool b)) := by
  cases hcell : cell with
  | null => simp [sqlText, castVarchar, cellText]
  | int n => simp [sqlText, castVarchar, cellText]
  | str text => simp [sqlText, castVarchar, cellText]
  | bool b =>
    have hne : sqlText (.bool b) ≠ cellText (.bool b) := by cases b <;> decide
    constructor
    · rintro h b' hb
      obtain rfl := Cell.bool.inj hb
      exact ⟨fun htarget => hne ((h.mpr htarget.symm).trans htarget),
        fun htarget => hne (htarget.symm.trans (h.mp htarget.symm).symm)⟩
    · intro h
      obtain ⟨hcellText, hsqlText⟩ := h b rfl
      exact ⟨fun htarget => absurd htarget.symm hsqlText, fun htarget => absurd htarget.symm hcellText⟩

theorem matchesNumeric_iff {cell : Cell} {target : String} {operator : AggregationOperator} :
    matchesNumeric texts cell operator target = true ↔ ∃ x y, numericValue texts cell = some x ∧
      numericValue texts (.str target) = some y ∧ compareNumeric x operator y = true := by
  rw [matchesNumeric]
  cases numericValue texts cell <;> cases numericValue texts (.str target) <;> simp

/-- A number of a value is one that the database reads, of no truth value, and a number. -/
theorem numericValue_eq_some_iff {cell : Cell} {x : Double}
    (hblank : ∀ text, Text.strip text = "" → texts.float text = none)
    (hcell : ∀ text, cell = .str text → engine.tryCastDouble text = texts.float text) :
    numericValue texts cell = some x ↔ castDouble engine cell = some x ∧ cell.isBool = false ∧ x ≠ .nan := by
  rw [numericValue_eq hblank hcell]
  cases hbool : cell.isBool with
  | true => simp
  | false =>
    cases castDouble engine cell with
    | none => simp
    | some y =>
      by_cases hy : y = .nan
      · simp only [hy, Option.filter]
        constructor
        · simp
        · rintro ⟨heq, -, hx⟩
          exact absurd (Option.some.inj heq).symm hx
      · simp only [Option.filter, hy, ne_eq, not_false_eq_true, decide_true, if_true, Bool.false_eq_true,
          if_false, Option.some.injEq, true_and]
        exact ⟨fun h => ⟨h, h ▸ hy⟩, And.left⟩

/-- A comparison of numbers goes wrong where it holds of what only the database reads as one. -/
theorem numeric_eq_iff {cell : Cell} {target : String} (operator : AggregationOperator)
    (hblank : ∀ text, Text.strip text = "" → texts.float text = none)
    (hcell : ∀ text, cell = .str text → engine.tryCastDouble text = texts.float text)
    (htarget : engine.tryCastDouble target = texts.float target) :
    (decide ((do
        let left ← castDouble engine cell
        let right ← engine.tryCastDouble target
        return sqlCompare left operator right) = some true) = matchesNumeric texts cell operator target) ↔
      ∀ x y, castDouble engine cell = some x → engine.tryCastDouble target = some y →
        sqlCompare x operator y = true → cell.isBool = false ∧ x ≠ .nan ∧ y ≠ .nan := by
  have hright : ∀ y, numericValue texts (.str target) = some y ↔
      engine.tryCastDouble target = some y ∧ Cell.isBool (.str target) = false ∧ y ≠ .nan := fun y =>
    numericValue_eq_some_iff hblank fun text htext => Cell.str.inj htext ▸ htarget
  rw [Bool.eq_iff_iff, decide_eq_true_iff, matchesNumeric_iff]
  simp only [numericValue_eq_some_iff hblank hcell, hright, Option.bind_eq_bind, Option.bind_eq_some_iff,
    Option.pure_def, Option.some.injEq]
  constructor
  · intro h x y hx hy hcompare
    obtain ⟨x', y', ⟨hx', hbool, hnan⟩, ⟨hy', -, hnan'⟩, -⟩ := h.mp ⟨x, hx, y, hy, hcompare⟩
    obtain rfl := Option.some.inj (hx.symm.trans hx')
    obtain rfl := Option.some.inj (hy.symm.trans hy')
    exact ⟨hbool, hnan, hnan'⟩
  · intro h
    constructor
    · rintro ⟨x, hx, y, hy, hcompare⟩
      obtain ⟨hbool, hnan, hnan'⟩ := h x y hx hy hcompare
      exact ⟨x, y, ⟨hx, hbool, hnan⟩, ⟨hy, rfl, hnan'⟩, sqlCompare_eq hnan hnan' operator ▸ hcompare⟩
    · rintro ⟨x, y, ⟨hx, -, hnan⟩, ⟨hy, -, hnan'⟩, hcompare⟩
      exact ⟨x, hx, y, hy, (sqlCompare_eq hnan hnan' operator).trans hcompare⟩

theorem sqlHolds_eq_iff {plan : DatasetAggregationPlan} {rows : List TabularRow}
    (hreads : ReadsAlike texts engine plan rows) {row : TabularRow} (hrow : row ∈ rows)
    {item : DatasetAggregationFilter} (hitem : item ∈ plan.filters) :
    sqlHolds engine item row = matchesFilter texts row item ↔
      FilterUnconfused engine (cellOf row item.column) item := by
  have hnumeric : item.operator.isNumeric = true →
      ∀ text, cellOf row item.column = .str text → engine.tryCastDouble text = texts.float text :=
    fun h => hreads.cells row hrow _ (List.mem_append_right _
      (List.mem_map.mpr ⟨item, List.mem_filter.mpr ⟨hitem, h⟩, rfl⟩))
  have htarget := hreads.targets item hitem
  cases hoperator : item.operator with
  | eq =>
    simpa [sqlHolds, datasetAggregationFilterSql, matchesFilter, FilterUnconfused, hoperator] using
      text_eq_iff (cellOf row item.column) item.value
  | neq =>
    simpa [sqlHolds, datasetAggregationFilterSql, matchesFilter, FilterUnconfused, hoperator] using
      text_eq_iff (cellOf row item.column) item.value
  | contains =>
    simp [sqlHolds, datasetAggregationFilterSql, matchesFilter, FilterUnconfused, hoperator,
      hreads.lowerTargets item hitem hoperator, hreads.lowerCells item hitem hoperator row hrow]
  | gt =>
    rw [hoperator] at hnumeric htarget
    simpa only [sqlHolds, datasetAggregationFilterSql, matchesFilter, FilterUnconfused, hoperator] using
      numeric_eq_iff .gt hreads.blank (hnumeric rfl) (htarget rfl)
  | gte =>
    rw [hoperator] at hnumeric htarget
    simpa only [sqlHolds, datasetAggregationFilterSql, matchesFilter, FilterUnconfused, hoperator] using
      numeric_eq_iff .gte hreads.blank (hnumeric rfl) (htarget rfl)
  | lt =>
    rw [hoperator] at hnumeric htarget
    simpa only [sqlHolds, datasetAggregationFilterSql, matchesFilter, FilterUnconfused, hoperator] using
      numeric_eq_iff .lt hreads.blank (hnumeric rfl) (htarget rfl)
  | lte =>
    rw [hoperator] at hnumeric htarget
    simpa only [sqlHolds, datasetAggregationFilterSql, matchesFilter, FilterUnconfused, hoperator] using
      numeric_eq_iff .lte hreads.blank (hnumeric rfl) (htarget rfl)

end

end FoundryLite.Dataset
