import FoundryLite.Dataset.Aggregation
import Mathlib.Data.List.Dedup

/-!
# Aggregating the rows of a dataset in the database

The compute adapter runs a plan as SQL over the dataset's files: a query counts the rows that the filters
keep, another groups them. The text of a value is its `varchar`, in which nothing is coalesced to `null`,
and its number is what a lenient cast makes of it. The groups come back in any order, at most one more
than the plan's limit of them, and are sorted as the other engine sorts them.

A column stands in a query as a quoted name, and only plain identifiers are quoted.
-/

namespace FoundryLite.Dataset

/-! ### Tables -/

inductive ColumnType where
  | integer | string | boolean
  deriving DecidableEq

/-- The values of a column: of its type, or nothing. The integers are those that a double holds. -/
def ColumnType.Holds : ColumnType → Cell → Prop
  | _, .null => True
  | .integer, .int n => |n| < 2 ^ 53
  | .string, .str _ => True
  | .boolean, .bool _ => True
  | _, _ => False

/-- Rows with typed columns. -/
structure Table where
  columns : Dict String ColumnType
  rows : List TabularRow
  typed : ∀ row ∈ rows, ∀ column type, columns.get? column = some type → type.Holds (cellOf row column)

/-- What the database adds to the language: `lower`, a lenient cast of a text to a double, and the order
in which groups are fetched, which is any. -/
structure SqlEngine where
  lower : String → String
  tryCastDouble : String → Option Double
  arrange : List (List Cell) → List (List Cell)
  arrange_perm : ∀ tuples, (arrange tuples).Perm tuples

/-! ### Names -/

/-- `SQL_IDENTIFIER_PATTERN`. -/
def isSqlIdentifier (name : String) : Bool :=
  match name.toList with
  | [] => false
  | c :: rest => (c.isAlpha || c = '_') && rest.all fun d => d.isAlphanum || d = '_'

def sqlIdentifier (name : String) : Checked Unit :=
  rejectIf (isSqlIdentifier name = false) "unsafe SQL identifier" [("identifier", .str name)]

/-- The database finds a column that a query names. -/
def bindColumn (table : Table) (name : String) : Checked Unit :=
  if table.columns.get? name = none then throw (libraryError "BinderException") else pure ()

section

variable (engine : SqlEngine)

/-! ### Filters -/

/-- `try_cast(column as double)`. -/
def castDouble : Cell → Option Double
  | .null => none
  | .int n => some (Double.ofInt n)
  | .str text => engine.tryCastDouble text
  | .bool b => some (.finite (if b then 1 else 0))

/-- `cast(column as varchar)`. -/
def castVarchar : Cell → Option String
  | .null => none
  | .int n => some (intText n)
  | .str text => some text
  | .bool true => some "true"
  | .bool false => some "false"

/-- `coalesce(cast(column as varchar), 'null')`. -/
def sqlText (cell : Cell) : String := (castVarchar cell).getD "null"

def sqlCompare (left : Double) (operator : AggregationOperator) (right : Double) : Bool :=
  match operator with
  | .gt => right.sqlLess left
  | .gte => right.sqlLessEqual left
  | .lt => left.sqlLess right
  | _ => left.sqlLessEqual right

/-- The condition of one filter, which may be null. -/
def datasetAggregationFilterSql (item : DatasetAggregationFilter) (row : TabularRow) : Option Bool :=
  let cell := cellOf row item.column
  match item.operator with
  | .eq => some (sqlText cell = item.value)
  | .neq => some (sqlText cell ≠ item.value)
  | .contains => some (isIn (engine.lower item.value) (engine.lower (sqlText cell)))
  | operator => do
    let left ← castDouble engine cell
    let right ← engine.tryCastDouble item.value
    return sqlCompare left operator right

def sqlHolds (item : DatasetAggregationFilter) (row : TabularRow) : Bool :=
  datasetAggregationFilterSql engine item row = some true

/-- The rows that the `where` clause keeps. -/
def whereHolds (filters : List DatasetAggregationFilter) (row : TabularRow) : Bool :=
  filters.all fun item => sqlHolds engine item row

def datasetAggregationFilterClause (filters : List DatasetAggregationFilter) : Checked Unit :=
  filters.forM fun item => sqlIdentifier item.column

/-! ### Metrics -/

/-- What the database returns for a metric. -/
inductive SqlValue where
  | null
  | bigint (n : ℤ)
  | double (x : Double)

/-- The least of the doubles, as the database orders them. -/
def sqlLeast (values : List Double) : Option Double :=
  values.foldl (fun least x => some (match least with
    | none => x
    | some least => if x.sqlLess least then x else least)) none

def sqlGreatest (values : List Double) : Option Double :=
  values.foldl (fun greatest x => some (match greatest with
    | none => x
    | some greatest => if greatest.sqlLess x then x else greatest)) none

/-- The columns of the metrics that read one. -/
def metricColumns (metrics : List DatasetAggregationMetric) : List String :=
  (metrics.filter fun metric => metric.function ≠ .count).map propertyOf

def datasetAggregationMetricSql (metric : DatasetAggregationMetric) (rows : List TabularRow) : SqlValue :=
  let values := rows.filterMap fun row => castDouble engine (cellOf row (propertyOf metric))
  match metric.function with
  | .count => .bigint rows.length
  | .sum => if values = [] then .null else .double (values.foldl Double.add (.finite 0))
  | .avg => if values = [] then .null else .double ((values.foldl Double.add (.finite 0)).divide values.length)
  | .min => (sqlLeast values).elim .null .double
  | .max => (sqlGreatest values).elim .null .double

def datasetAggregationMetricValue (metric : DatasetAggregationMetric) (value : SqlValue) :
    Checked MetricValue :=
  match value with
  | .null => return .null
  | .bigint n => return if metric.function = .count then .count n else .number (Double.ofInt n)
  | .double x =>
    if metric.function = .count then
      validationFailed "dataset aggregation count returned a non-integer value"
    else return .number x

/-! ### Groups -/

def tupleOf (groupBy : List String) (row : TabularRow) : List Cell := groupBy.map (cellOf row)

/-- The rows of a group, and its key. -/
def datasetAggregationGroup (plan : DatasetAggregationPlan) (rows : List TabularRow) (tuple : List Cell) :
    Checked DatasetAggregationGroup := do
  let metrics ← plan.metrics.mapM fun metric => do
    let value ← datasetAggregationMetricValue metric (datasetAggregationMetricSql engine metric rows)
    return (metric.name, value)
  return ⟨Dict.ofList (plan.groupBy.zip tuple), Dict.ofList metrics⟩

/-- The values of the grouping columns that the query returns, one row a group. Without such columns all
rows are one group. -/
def fetchedTuples (plan : DatasetAggregationPlan) (rows : List TabularRow) : List (List Cell) :=
  (if plan.groupBy = [] then [[]] else engine.arrange (rows.map (tupleOf plan.groupBy)).dedup).take
    (plan.groupLimit + 1)

def datasetAggregationGroups (table : Table) (plan : DatasetAggregationPlan) :
    Checked (List DatasetAggregationGroup) := do
  plan.groupBy.forM sqlIdentifier
  (metricColumns plan.metrics).forM sqlIdentifier
  (plan.groupBy ++ metricColumns plan.metrics).forM (bindColumn table)
  let kept := table.rows.filter (whereHolds engine plan.filters)
  let groups ← (fetchedTuples engine plan kept).mapM fun tuple =>
    datasetAggregationGroup engine plan (kept.filter fun row => tupleOf plan.groupBy row = tuple) tuple
  return orderedBy (·.key) groups

/-- What the plan makes of the table. -/
def executeDatasetAggregation (table : Table) (plan : DatasetAggregationPlan) :
    Checked DatasetAggregationComputeResult := do
  datasetAggregationFilterClause plan.filters
  let rowCount := table.rows.length
  (plan.filters.map (·.column)).forM (bindColumn table)
  let filteredCount := (table.rows.filter (whereHolds engine plan.filters)).length
  if filteredCount = 0 then return ⟨rowCount, 0, [], 0⟩
  let groups ← datasetAggregationGroups engine table plan
  rejectIf (plan.groupLimit < groups.length) groupLimitMessage [("groupLimit", .int plan.groupLimit)]
  return ⟨rowCount, filteredCount, groups, groups.length⟩

end

end FoundryLite.Dataset
