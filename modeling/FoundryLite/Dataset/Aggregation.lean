import FoundryLite.Dataset.SchemaEvolution
import FoundryLite.Doubles
import FoundryLite.Library.Grouping
import FoundryLite.Library.JsonText
import Mathlib.Data.List.Infix
import Mathlib.Data.List.Sort

/-!
# Aggregating the rows of a dataset

A request filters the rows of a dataset, groups them by at most two columns, and asks for metrics of each
group. The plan that is built from it names columns of the schema only, and none that are masked. A filter
compares texts, in which nothing is `null`, or numbers, which a text may spell. The groups are kept under
the JSON text of their key, and returned in its order; more than a thousand are refused.
-/

namespace FoundryLite.Dataset

/-! ### Rows -/

/-- What a typed column holds. -/
inductive Cell where
  | null
  | int (n : ℤ)
  | str (text : String)
  | bool (b : Bool)
  deriving DecidableEq

abbrev TabularRow := Dict String Cell

/-- `row.get(column)`. -/
def cellOf (row : TabularRow) (column : String) : Cell := (row.get? column).getD .null

/-! ### Plans -/

inductive AggregationFunction where
  | count | sum | avg | min | max
  deriving DecidableEq

inductive AggregationOperator where
  | eq | neq | contains | gt | gte | lt | lte
  deriving DecidableEq

def datasetAggregationFunctions : List (String × AggregationFunction) :=
  [("count", .count), ("sum", .sum), ("avg", .avg), ("min", .min), ("max", .max)]

def datasetAggregationOperators : List (String × AggregationOperator) :=
  [("eq", .eq), ("neq", .neq), ("contains", .contains), ("gt", .gt), ("gte", .gte), ("lt", .lt),
    ("lte", .lte)]

/-- `operator in DATASET_AGGREGATION_NUMERIC_OPERATORS`. -/
def AggregationOperator.isNumeric : AggregationOperator → Bool
  | .gt | .gte | .lt | .lte => true
  | _ => false

def datasetAggregationNumericTypes : List String := ["integer", "long", "float", "number"]

def datasetAggregationGroupLimit : ℕ := 1000

def datasetAggregationMaxGroupBy : ℕ := 2

def datasetAggregationMaxFilters : ℕ := 10

structure DatasetAggregationMetric where
  name : String
  function : AggregationFunction
  property : Option String
  deriving DecidableEq

structure DatasetAggregationFilter where
  column : String
  operator : AggregationOperator
  value : String
  deriving DecidableEq

structure DatasetAggregationPlan where
  groupBy : List String
  metrics : List DatasetAggregationMetric
  filters : List DatasetAggregationFilter
  groupLimit : ℕ

section

variable (env : Serialiser)

/-- The type of each column of the schema. -/
def schemaColumnTypes (schema : Mapping) : Checked (Dict String String) := do
  let columns ← schemaColumnsByName schema
  return Dict.ofList (columns.map fun entry =>
    (entry.1, env.str ((entry.2.lookup "type").getD (.str "string"))))

variable (datasetRef : String) (columnTypes : Dict String String) (maskedColumns : List String)

def requireColumn (column source : String) : Checked Unit := do
  rejectIf (columnTypes.get? column = none) "dataset aggregation references missing column"
    [("datasetRef", .str datasetRef), ("column", .str column), ("source", .str source)]
  if column ∈ maskedColumns then
    throw (permissionDenied "dataset aggregation references masked column"
      [("datasetRef", .str datasetRef), ("column", .str column), ("source", .str source)])

def requireNumericColumn (column source : String) : Checked Unit := do
  requireColumn datasetRef columnTypes maskedColumns column source
  rejectIf (¬ ∃ type ∈ columnTypes.get? column, type ∈ datasetAggregationNumericTypes)
    "dataset aggregation requires a numeric column"
    [("datasetRef", .str datasetRef), ("column", .str column), ("source", .str source)]

def validatedGroupBy (groupBy : List String) : Checked (List String) := do
  rejectIf (datasetAggregationMaxGroupBy < groupBy.length)
    "dataset aggregation supports at most two groupBy columns"
  rejectIf (¬ groupBy.Nodup) "dataset aggregation groupBy columns must be unique"
  groupBy.forM fun name => requireColumn datasetRef columnTypes maskedColumns name "groupBy"
  return groupBy

def metricName (item : Mapping) (default : String) : String :=
  match item.lookup "name" with
  | some (.str name) => if name = "" then default else name
  | _ => default

/-- A member of the request that has to be one of the given names. -/
def oneOf {α : Type} (names : List (String × α)) (value : Option Json) : Option α :=
  match value with
  | some (.str name) => names.lookup name
  | _ => none

def metricFunction (item : Mapping) : Checked AggregationFunction :=
  match oneOf datasetAggregationFunctions (item.lookup "function") with
  | some function => return function
  | none =>
    validationFailed "dataset aggregation metric function must be count, sum, avg, min, or max"
      [("datasetRef", .str datasetRef), ("function", (item.lookup "function").getD .null)]

def countMetric (item : Mapping) : Checked DatasetAggregationMetric := do
  rejectIf ((item.lookup "property").getD .null ≠ .null)
    "dataset aggregation count metric must not name a property"
  return ⟨metricName item "count", .count, none⟩

/-- A member of the request that has to be a text which is not empty. -/
def nonemptyText (value : Option Json) (message : String) : Checked String :=
  match value with
  | some (.str text) => do
    rejectIf (text = "") message
    return text
  | _ => validationFailed message

/-- The name of a function, as it stands in a request. -/
def AggregationFunction.name : AggregationFunction → String
  | .count => "count"
  | .sum => "sum"
  | .avg => "avg"
  | .min => "min"
  | .max => "max"

def metricProperty (item : Mapping) (function : AggregationFunction) : Checked String := do
  let propertyName ← nonemptyText (item.lookup "property") "dataset aggregation metric requires a property"
  requireNumericColumn datasetRef columnTypes maskedColumns propertyName function.name
  return propertyName

def metricFromRequest (item : Mapping) : Checked DatasetAggregationMetric := do
  let function ← metricFunction datasetRef item
  if function = .count then countMetric item
  else do
    let propertyName ← metricProperty datasetRef columnTypes maskedColumns item function
    return ⟨metricName item (function.name ++ "_" ++ propertyName), function, some propertyName⟩

def validatedMetrics (select : List Mapping) : Checked (List DatasetAggregationMetric) := do
  let metrics ← select.mapM (metricFromRequest datasetRef columnTypes maskedColumns)
  rejectIf (metrics = []) "dataset aggregation select must contain at least one metric"
  rejectIf (¬ (metrics.map (·.name)).Nodup) "dataset aggregation metric names must be unique"
  return metrics

def filterColumn (item : Mapping) : Checked String := do
  let column ← nonemptyText (item.lookup "column") "dataset aggregation filter requires a column"
  requireColumn datasetRef columnTypes maskedColumns column "filter"
  return column

def filterOperator (item : Mapping) : Checked AggregationOperator :=
  match oneOf datasetAggregationOperators (item.lookup "operator") with
  | some operator => return operator
  | none =>
    validationFailed "dataset aggregation filter operator is not supported"
      [("datasetRef", .str datasetRef), ("operator", (item.lookup "operator").getD .null)]

def filterFromRequest (item : Mapping) : Checked DatasetAggregationFilter := do
  let column ← filterColumn datasetRef columnTypes maskedColumns item
  let operator ← filterOperator datasetRef item
  if operator.isNumeric then requireNumericColumn datasetRef columnTypes maskedColumns column "filter"
  return ⟨column, operator, env.str ((item.lookup "value").getD (.str ""))⟩

def validatedFilters (filters : List Mapping) : Checked (List DatasetAggregationFilter) := do
  rejectIf (datasetAggregationMaxFilters < filters.length)
    "dataset aggregation supports at most ten filters"
  filters.mapM (filterFromRequest env datasetRef columnTypes maskedColumns)

end

/-- The plan of a request. -/
def buildDatasetAggregationPlan (env : Serialiser) (datasetRef : String) (schema : Mapping)
    (maskedColumns : List String) (filters : List Mapping) (groupBy : List String)
    (select : List Mapping) : Checked DatasetAggregationPlan := do
  let columnTypes ← schemaColumnTypes env schema
  let groupBy ← validatedGroupBy datasetRef columnTypes maskedColumns groupBy
  let metrics ← validatedMetrics datasetRef columnTypes maskedColumns select
  let filters ← validatedFilters env datasetRef columnTypes maskedColumns filters
  return ⟨groupBy, metrics, filters, datasetAggregationGroupLimit⟩

/-! ### Filters -/

/-- The text forms of values, with `str.lower`, and `float` of a text where it is one. -/
structure AggregationTexts where
  lower : String → String
  float : String → Option Double

section

variable (texts : AggregationTexts)

/-- The decimal digits of an integer. -/
def intText (n : ℤ) : String := String.ofList (JsonText.intToken n)

def cellText : Cell → String
  | .null => "null"
  | .int n => intText n
  | .str text => text
  | .bool true => "True"
  | .bool false => "False"

/-- The number that a value is or spells, unless it is not a number. -/
def numericValue : Cell → Option Double
  | .int n => some (Double.ofInt n)
  | .str text =>
    if Text.strip text = "" then none else (texts.float text).filter fun parsed => parsed ≠ .nan
  | _ => none

def compareNumeric (left : Double) (operator : AggregationOperator) (right : Double) : Bool :=
  match operator with
  | .gt => right.less left
  | .gte => right.lessEqual left
  | .lt => left.less right
  | _ => left.lessEqual right

def matchesNumeric (raw : Cell) (operator : AggregationOperator) (target : String) : Bool :=
  match numericValue texts raw, numericValue texts (.str target) with
  | some left, some right => compareNumeric left operator right
  | _, _ => false

/-- `part in text`. -/
def isIn (part text : String) : Bool := decide (part.toList <:+: text.toList)

def matchesFilter (row : TabularRow) (item : DatasetAggregationFilter) : Bool :=
  let raw := cellOf row item.column
  match item.operator with
  | .eq => cellText raw = item.value
  | .neq => cellText raw ≠ item.value
  | .contains => isIn (texts.lower item.value) (texts.lower (cellText raw))
  | operator => matchesNumeric texts raw operator item.value

def matchesFilters (row : TabularRow) (filters : List DatasetAggregationFilter) : Bool :=
  filters.all (matchesFilter texts row)

/-! ### Groups -/

structure MetricState where
  count : ℕ := 0
  total : Double := .finite 0
  minValue : Option Double := none
  maxValue : Option Double := none
  deriving DecidableEq

structure GroupState where
  key : Dict String Cell
  metrics : Dict String MetricState

/-- The part of a row that its group has in common. -/
def keyOf (row : TabularRow) (groupBy : List String) : Dict String Cell :=
  Dict.ofList (groupBy.map fun column => (column, cellOf row column))

/-- A value as a document. -/
def cellDoc : Cell → JsonText.Doc
  | .null => .null
  | .int n => .num (JsonText.intToken n)
  | .str text => .str text
  | .bool b => .bool b

/-- The fields of a key in a JSON text, up to the closing brace. -/
def fieldsText : List (String × Cell) → List Char
  | [] => ['\x7d']
  | [(column, cell)] => JsonText.quote column ++ ':' :: ' ' :: (JsonText.render (cellDoc cell) ++ ['\x7d'])
  | (column, cell) :: fields =>
    JsonText.quote column ++ ':' :: ' ' :: (JsonText.render (cellDoc cell) ++ ',' :: ' ' :: fieldsText fields)

/-- `json.dumps(key, sort_keys=True)`. -/
def keyText (key : Dict String Cell) : String := String.ofList ('\x7b' :: fieldsText key.entries)

def groupKey (row : TabularRow) (groupBy : List String) : String := keyText (keyOf row groupBy)

def newGroup (plan : DatasetAggregationPlan) (row : TabularRow) : GroupState where
  key := keyOf row plan.groupBy
  metrics := Dict.ofList (plan.metrics.map fun metric => (metric.name, {}))

def addNumericMetric (state : MetricState) (value : Cell) : MetricState :=
  match numericValue texts value with
  | none => state
  | some numeric =>
    { count := state.count + 1
      total := state.total.add numeric
      minValue := match state.minValue with
        | none => some numeric
        | some least => some (if numeric.less least then numeric else least)
      maxValue := match state.maxValue with
        | none => some numeric
        | some greatest => some (if greatest.less numeric then numeric else greatest) }

/-- `str(metric["property"])`. -/
def propertyOf (metric : DatasetAggregationMetric) : String := metric.property.getD "None"

def addMetric (metric : DatasetAggregationMetric) (state : MetricState) (row : TabularRow) : MetricState :=
  if metric.function = .count then { state with count := state.count + 1 }
  else addNumericMetric texts state (cellOf row (propertyOf metric))

def addGroupMetrics (metrics : List DatasetAggregationMetric) (group : GroupState) (row : TabularRow) :
    GroupState :=
  { group with
    metrics := metrics.foldl (fun states metric =>
      states.insert metric.name (addMetric texts metric ((states.get? metric.name).getD {}) row))
      group.metrics }

def groupRows (plan : DatasetAggregationPlan) (rows : List TabularRow) : List (String × GroupState) :=
  Grouping.groupFold (groupKey · plan.groupBy) (newGroup plan) (addGroupMetrics texts plan.metrics) rows

/-! ### Results -/

inductive MetricValue where
  | null
  | count (n : ℤ)
  | number (x : Double)
  deriving DecidableEq

def metricValue (state : MetricState) (metric : DatasetAggregationMetric) : MetricValue :=
  let ofOption : Option Double → MetricValue := fun value => value.elim .null .number
  match metric.function with
  | .count => .count state.count
  | function =>
    if state.count = 0 then .null
    else
      match function with
      | .sum => .number state.total
      | .avg => .number (state.total.divide state.count)
      | .min => ofOption state.minValue
      | _ => ofOption state.maxValue

structure DatasetAggregationGroup where
  key : Dict String Cell
  metrics : Dict String MetricValue
  deriving DecidableEq

structure DatasetAggregationComputeResult where
  rowCount : ℕ
  filteredRowCount : ℕ
  groups : List DatasetAggregationGroup
  totalGroups : ℕ
  deriving DecidableEq

structure DatasetAggregationResult extends DatasetAggregationComputeResult where
  datasetRef : String
  versionId : String
  deriving DecidableEq

def datasetAggregationResult (datasetRef versionId : String)
    (computeResult : DatasetAggregationComputeResult) : DatasetAggregationResult :=
  { computeResult with datasetRef, versionId }

/-- Groups in the order of the texts of their keys. -/
def orderedBy {α : Type} (key : α → Dict String Cell) (groups : List α) : List α :=
  groups.insertionSort fun a b => keyText (key a) ≤ keyText (key b)

def shapedGroup (metrics : List DatasetAggregationMetric) (group : GroupState) : DatasetAggregationGroup where
  key := group.key
  metrics := Dict.ofList (metrics.map fun metric =>
    (metric.name, metricValue ((group.metrics.get? metric.name).getD {}) metric))

def groupLimitMessage : String :=
  "dataset aggregation exceeds the group limit; add a filter or group by a lower-cardinality column"

/-- What the plan makes of the rows. -/
def aggregateDatasetRows (datasetRef versionId : String) (rows : List TabularRow)
    (plan : DatasetAggregationPlan) : Checked DatasetAggregationResult := do
  let filteredRows := rows.filter (matchesFilters texts · plan.filters)
  let groups := groupRows texts plan filteredRows
  rejectIf (datasetAggregationGroupLimit < groups.length) groupLimitMessage
    [("datasetRef", .str datasetRef), ("groupLimit", .int datasetAggregationGroupLimit)]
  let shaped := (orderedBy (·.key) (groups.map Prod.snd)).map (shapedGroup plan.metrics)
  return datasetAggregationResult datasetRef versionId
    ⟨rows.length, filteredRows.length, shaped, shaped.length⟩

end

end FoundryLite.Dataset
