import FoundryLite.ObjectStore.QueryCursor
import FoundryLite.ObjectStore.Store

/-!
# Queries as the database runs them

The repository turns a filter and an order into expressions over the stored rows, and the database
evaluates them. An expression reads a stored property as a value of the type of the property, or
follows a link and reads or aggregates a property of the objects behind it. A value that is not of
the type is null in a filter, and in an order it is the least value there is.

The expressions are those of SQLite. A number of the database is an integer or a fractional number,
and sums and averages are exact here. A stored timestamp is read as its moment: one that overflows
ends the statement in the source.
-/

namespace FoundryLite.ObjectQuery

open ScalarValues

open ObjectStore (ObjectRecord ObjectLink Store PropertyMap ObjectTypeId)

/-! ### Values of the database -/

inductive Cell where
  | null
  | int (n : ℤ)
  | real (q : ℚ)
  | text (s : String)
  deriving DecidableEq

/-- What values are compared as: numbers, by value, come before texts. -/
abbrev SqlKey := ℚ ⊕ₗ String

def numberKey (q : ℚ) : SqlKey := toLex (.inl q)

def textKey (s : String) : SqlKey := toLex (.inr s)

/-- Null compares to nothing. -/
def Cell.key : Cell → Option SqlKey
  | .null => none
  | .int n => some (numberKey n)
  | .real q => some (numberKey q)
  | .text s => some (textKey s)

/-- What the expressions leave to the database and to the standard library. -/
structure SqlEnvironment where
  /-- The compact text of an array or an object. -/
  jsonText : Json → String
  /-- The number that a text begins with, or zero. -/
  leadingReal : String → ℚ
  leadingInteger : String → ℤ
  /-- A value as text. -/
  cellText : Cell → String
  /-- `str.lower`. -/
  lower : String → String
  /-- `timestamp_from_microseconds`. -/
  timestampText : ℤ → Option String

/-- `JSON_EXTRACT` of a member. -/
def jsonExtract (env : SqlEnvironment) : Option Json → Cell
  | none | some .null => .null
  | some (.bool b) => .int (if b then 1 else 0)
  | some (.int n) => .int n
  | some (.float q) => .real q
  | some (.str s) => .text s
  | some value => .text (env.jsonText value)

def castReal (env : SqlEnvironment) : Cell → Cell
  | .null => .null
  | .int n => .real n
  | .real q => .real q
  | .text s => .real (env.leadingReal s)

def castInteger (env : SqlEnvironment) : Cell → Cell
  | .null => .null
  | .int n => .int n
  | .real q => .int (q.num.tdiv q.den)
  | .text s => .int (env.leadingInteger s)

/-! ### Properties -/

inductive DerivedAggregation where
  | count | sum | avg | min | max | approximateCardinality
  deriving DecidableEq

/-- A property that is read through a link: an aggregate over the far side, or its value. -/
structure DerivedProperty where
  linkType : String
  aggregation : Option DerivedAggregation
  targetProperty : String
  dataType : String
  deriving DecidableEq

structure PropertyTypeRow where
  apiName : String
  dataType : String
  /-- Whether the property is read through a link. -/
  derived : Option DerivedProperty
  deriving DecidableEq

/-- The properties of an object type. No two have one name. -/
structure Schema where
  properties : List PropertyTypeRow
  nodup : (properties.map PropertyTypeRow.apiName).Nodup

def Schema.find? (schema : Schema) (name : String) : Option PropertyTypeRow :=
  schema.properties.find? fun row => row.apiName = name

def Schema.dataType? (schema : Schema) (name : String) : Option String :=
  (schema.find? name).map PropertyTypeRow.dataType

def Schema.derived? (schema : Schema) (name : String) : Option DerivedProperty :=
  (schema.find? name).bind PropertyTypeRow.derived

def isNumberType (dataType : String) : Bool := dataType ∈ ["float", "integer", "number"]

/-- `_property_value_expression` of a stored property. -/
def propertyCell (dataType : String) (value : Option Json) : Cell :=
  match dataType with
  | "boolean" => match value with
    | some (.bool b) => .int (if b then 1 else 0)
    | _ => .null
  | "integer" => ((value.bind integerValue).map Cell.int).getD .null
  | "float" | "number" => ((value.bind finiteNumberValue).map Cell.real).getD .null
  | "date" => match value with
    | some (.str s) => if isIsoDate (.str s) then .text s else .null
    | _ => .null
  | "timestamp" => ((value.bind timestampMoment).map Cell.int).getD .null
  | "string" => match value with
    | some (.str s) => .text s
    | _ => .null
  | _ => .null

/-! ### Derived properties -/

/-- The active objects behind the active links of a type that start at an object. -/
def derivedTargets (tables : Store) (linkType : String) (record : ObjectRecord) :
    List ObjectRecord :=
  (tables.links.rows.filter fun link => link.tenantId = record.tenantId ∧
      link.linkType.apiName.val = linkType ∧
      link.linkType.fromObjectType.apiName = record.objectType.apiName ∧
      link.fromObjectId = record.objectId ∧ link.isActive ∧ ¬ link.deleted).flatMap fun link =>
    tables.objects.rows.filter fun target => target.tenantId = link.tenantId ∧
      target.objectType.apiName = link.linkType.toObjectType.apiName ∧
      target.objectId = link.toObjectId ∧ target.isActive ∧ ¬ target.deleted

/-- `_derived_target_value_expression`. -/
def derivedTargetCell (env : SqlEnvironment) (spec : DerivedProperty) (target : ObjectRecord) :
    Cell :=
  let value := jsonExtract env (target.properties.get? spec.targetProperty)
  match spec.aggregation with
  | some .approximateCardinality => value
  | some _ => castReal env value
  | none => match spec.dataType with
    | "integer" => castInteger env value
    | "float" => castReal env value
    | _ => value

def Cell.number? : Cell → Option ℚ
  | .int n => some n
  | .real q => some q
  | _ => none

/-- An aggregate of the values that are not null. -/
def aggregateCells (aggregation : DerivedAggregation) (cells : List Cell) : Cell :=
  let numbers := cells.filterMap Cell.number?
  match aggregation with
  | .count => .int cells.length
  | .approximateCardinality => .int (cells.filterMap Cell.key).dedup.length
  | .sum => if numbers = [] then .null else .real numbers.sum
  | .avg => if numbers = [] then .null else .real (numbers.sum / numbers.length)
  | .min => (numbers.min?.map Cell.real).getD .null
  | .max => (numbers.max?.map Cell.real).getD .null

/-- `_derived_value_expression`. -/
def derivedCell (env : SqlEnvironment) (tables : Store) (spec : DerivedProperty)
    (record : ObjectRecord) : Cell :=
  let targets := derivedTargets tables spec.linkType record
  match spec.aggregation with
  | some .count => .int targets.length
  | some aggregation => aggregateCells aggregation (targets.map (derivedTargetCell env spec))
  | none => ((targets.head?).map (derivedTargetCell env spec)).getD .null

/-- A row with the values of its derived properties. -/
structure QueryRow where
  objectId : String
  objectVersion : ℕ+
  stored : PropertyMap
  derived : List (String × Cell)

def queryRow (env : SqlEnvironment) (tables : Store) (schema : Schema) (record : ObjectRecord) :
    QueryRow where
  objectId := record.objectId
  objectVersion := record.objectVersion
  stored := record.properties
  derived := schema.properties.filterMap fun row =>
    row.derived.map fun spec => (row.apiName, derivedCell env tables spec record)

/-- The value of a derived property of a row. -/
def QueryRow.derivedCell (row : QueryRow) (name : String) : Cell :=
  (row.derived.lookup name).getD .null

/-! ### Filters -/

/-- `_filter_sql_value`. -/
def filterSqlValue (dataType : String) (value : Json) : Option SqlKey :=
  match dataType with
  | "integer" => (integerValue value).map fun n => numberKey n
  | "float" | "number" => (finiteNumberValue value).map numberKey
  | "boolean" => match value with
    | .bool b => some (numberKey (if b then 1 else 0))
    | _ => none
  | "timestamp" => (timestampMoment value).map fun n => numberKey n
  | "date" => match value with
    | .str s => if isIsoDate value then some (textKey s) else none
    | _ => none
  | _ => match value with
    | .str s => some (textKey s)
    | _ => none

/-- An ASCII character as a lower-case one. -/
def asciiLower (s : String) : List Char := s.toList.map Char.toLower

/-- `LIKE` with a text between two wildcards. -/
def likeContains (env : SqlEnvironment) (cell : Cell) (value : String) : Bool :=
  match cell with
  | .null => false
  | cell => decide (asciiLower (env.lower value) <:+: asciiLower (env.cellText cell))

/-- A comparison of a value that is not null. -/
def rangeCondition (op : FilterOperation) (cell : Cell) (value : SqlKey) : Bool :=
  match cell.key, op with
  | some key, .gte => value ≤ key
  | some key, .gt => value < key
  | some key, .lte => key ≤ value
  | some key, .lt => key < value
  | _, _ => false

/-- What the two kinds of properties have in common: ranges and texts. -/
def orderedCondition (env : SqlEnvironment) (dataType : String) (op : FilterOperation)
    (value : Json) (cell : Cell) : Bool :=
  match op, value with
  | .contains, .str s => dataType = "string" && likeContains env cell s
  | .contains, _ => false
  | op, value =>
    if dataType = "boolean" then false
    else match filterSqlValue dataType value with
      | some key => rangeCondition op cell key
      | none => false

/-- `_property_eq_condition`: a null is a member that is null or is not there. -/
def propertyEqCondition (dataType : String) (stored : Option Json) (value : Json) : Bool :=
  if value = .null then stored.getD .null = .null
  else match filterSqlValue dataType value with
    | some key => (propertyCell dataType stored).key = some key
    | none => false

def propertyFilterCondition (env : SqlEnvironment) (dataType : String) (stored : Option Json)
    (op : FilterOperation) (value : Json) : Bool :=
  match op, value with
  | .eq, value => propertyEqCondition dataType stored value
  | .in_, .arr items => items.any (propertyEqCondition dataType stored)
  | .in_, _ => false
  | op, value => orderedCondition env dataType op value (propertyCell dataType stored)

def derivedEqCondition (dataType : String) (cell : Cell) (value : Json) : Bool :=
  if value = .null then cell = .null
  else match filterSqlValue dataType value with
    | some key => cell.key = some key
    | none => false

def derivedFilterCondition (env : SqlEnvironment) (dataType : String) (cell : Cell)
    (op : FilterOperation) (value : Json) : Bool :=
  match op, value with
  | .eq, value => derivedEqCondition dataType cell value
  | .in_, .arr items =>
    items.any fun item => item ≠ .null && derivedEqCondition dataType cell item
  | .in_, _ => false
  | op, value => orderedCondition env dataType op value cell

/-- A comparison of a property, whichever kind it is of. -/
def comparisonCondition (env : SqlEnvironment) (schema : Schema) (row : QueryRow) (name : String)
    (op : FilterOperation) (value : Json) : Bool :=
  match schema.derived? name with
  | some spec => derivedFilterCondition env spec.dataType (row.derivedCell name) op value
  | none => propertyFilterCondition env ((schema.dataType? name).getD "string")
      (row.stored.get? name) op value

mutual

/-- `_filter_condition`. -/
def filterCondition (env : SqlEnvironment) (schema : Schema) (row : QueryRow) : Filter → Bool
  | .and items => allConditions env schema row items
  | .or items => anyCondition env schema row items
  | .property name op value => comparisonCondition env schema row name op value

def allConditions (env : SqlEnvironment) (schema : Schema) (row : QueryRow) : List Filter → Bool
  | [] => true
  | item :: items => filterCondition env schema row item && allConditions env schema row items

def anyCondition (env : SqlEnvironment) (schema : Schema) (row : QueryRow) : List Filter → Bool
  | [] => false
  | item :: items => filterCondition env schema row item || anyCondition env schema row items

end

/-! ### Orders and cursors -/

/-- `-1e308`. -/
def leastNumber : ℚ := (nearestDouble (-10 ^ 308)).getD 0

/-- `_sort_column` of a stored property: a value that is not of the type is the least one. -/
def storedSortKey (dataType : String) (value : Option Json) : SqlKey :=
  let cell := propertyCell dataType value
  match dataType with
  | "integer" => cell.key.getD (numberKey (integerMinValue - 1))
  | "float" | "number" | "timestamp" => cell.key.getD (numberKey leastNumber)
  | "boolean" => numberKey (if cell.key = some (numberKey 1) then 1 else 0)
  | _ => cell.key.getD (textKey "")

/-- `_derived_sort_column`. -/
def derivedSortKey (dataType : String) (cell : Cell) : SqlKey :=
  match dataType with
  | "integer" => cell.key.getD (numberKey (integerMinValue - 1))
  | "float" => cell.key.getD (numberKey leastNumber)
  | "boolean" => numberKey (if cell.key = some (numberKey 1) then 1 else 0)
  | _ => cell.key.getD (textKey "")

def sortKey (schema : Schema) (row : QueryRow) (name : String) : SqlKey :=
  match schema.derived? name with
  | some spec => derivedSortKey spec.dataType (row.derivedCell name)
  | none => storedSortKey ((schema.dataType? name).getD "string") (row.stored.get? name)

/-- The type that a term of an order compares its cursor as. -/
def sortLabel (schema : Schema) (name : String) : String :=
  match schema.derived? name with
  | some spec => spec.dataType
  | none =>
    let dataType := (schema.dataType? name).getD "string"
    if isNumberType dataType ∨ dataType ∈ ["boolean", "timestamp", "date"] then dataType
    else "string"

/-- `_cursor_sql_value`. -/
def cursorKey (label : String) (value : Json) : SqlKey :=
  match label with
  | "float" | "integer" | "number" => (filterSqlValue label value).getD (numberKey leastNumber)
  | "boolean" => numberKey (if value = .bool true then 1 else 0)
  | "timestamp" =>
    ((timestampMoment value).map fun n => numberKey n).getD (numberKey leastNumber)
  | "date" => (filterSqlValue "date" value).getD (textKey "")
  | _ => (filterSqlValue "string" value).getD (textKey "")

/-- A row is behind a position: in the first term that tells them apart, or else by its id. -/
def isBehind : List ObjectSortDirection → List SqlKey × String → List SqlKey × String → Bool
  | .asc :: directions, (key :: keys, id), (key' :: keys', id') =>
    decide (key' < key) || (decide (key = key') && isBehind directions (keys, id) (keys', id'))
  | .desc :: directions, (key :: keys, id), (key' :: keys', id') =>
    decide (key < key') || (decide (key = key') && isBehind directions (keys, id) (keys', id'))
  | _, (_, id), (_, id') => id' < id

/-- Where a row stands in an order. -/
def sortPosition (schema : Schema) (orderBy : List ObjectOrderBy) (row : QueryRow) :
    List SqlKey × String :=
  (orderBy.map fun order => sortKey schema row order.property, row.objectId)

/-- Where a cursor stands in an order. -/
def cursorPosition (schema : Schema) (orderBy : List ObjectOrderBy) (cursor : Position) :
    List SqlKey × String :=
  (List.zipWith (fun order value => cursorKey (sortLabel schema order.property) value) orderBy
    cursor.values, cursor.objectId)

/-- `_cursor_condition`. -/
def cursorCondition (schema : Schema) (orderBy : List ObjectOrderBy) (cursor : Option Position)
    (row : QueryRow) : Bool :=
  match cursor with
  | none => true
  | some cursor => isBehind (orderBy.map ObjectOrderBy.direction)
      (sortPosition schema orderBy row) (cursorPosition schema orderBy cursor)

/-- `ORDER BY` the terms, and then the object id. -/
def orderRows (schema : Schema) (orderBy : List ObjectOrderBy) (rows : List QueryRow) :
    List QueryRow :=
  rows.mergeSort fun row row' => !isBehind (orderBy.map ObjectOrderBy.direction)
    (sortPosition schema orderBy row) (sortPosition schema orderBy row')

/-! ### Pages -/

/-- The objects of a type that a statement reads. -/
structure RecordScope where
  tenantId : String
  objectTypeApiName : String
  objectTypeId : Option ObjectTypeId

/-- `_active_object_conditions`. -/
def RecordScope.holds (scope : RecordScope) (record : ObjectRecord) : Bool :=
  decide (record.tenantId = scope.tenantId ∧
    record.objectType.apiName.val = scope.objectTypeApiName ∧ record.isActive ∧ ¬ record.deleted ∧
      ∀ id ∈ scope.objectTypeId, record.objectType = id)

/-- The rows that a statement reads, with the values of their derived properties. -/
def activeRows (env : SqlEnvironment) (tables : Store) (schema : Schema) (scope : RecordScope) :
    List QueryRow :=
  (tables.objects.rows.filter scope.holds).map (queryRow env tables schema)

def matchesFilter (env : SqlEnvironment) (schema : Schema) (filter : Option Filter)
    (row : QueryRow) : Bool :=
  filter.all (filterCondition env schema row)

/-- `query_active_object_rows` of the rows that the statement reads. -/
def queryRows (env : SqlEnvironment) (schema : Schema) (filter : Option Filter)
    (orderBy : List ObjectOrderBy) (cursor : Option Position) (limit : ℕ) (rows : List QueryRow) :
    List QueryRow :=
  (orderRows schema orderBy (rows.filter fun row =>
    matchesFilter env schema filter row && cursorCondition schema orderBy cursor row)).take limit

/-- The value of a derived property, as the type of its expression has it. -/
def derivedJson (spec : DerivedProperty) : Cell → Json
  | .null => .null
  | .int n =>
    if spec.aggregation = none ∧ spec.dataType = "boolean" then .bool (n ≠ 0) else .int n
  | .real q => .float q
  | .text s => .str s

/-- `_object_row_with_derived`. -/
def objectRowWithDerived (schema : Schema) (row : QueryRow) : ObjectRecordRow where
  objectId := row.objectId
  objectVersion := row.objectVersion
  properties := (row.stored.update (Dict.ofList (schema.properties.filterMap fun property =>
    property.derived.map fun spec =>
      (property.apiName, derivedJson spec (row.derivedCell property.apiName))))).entries

/-! ### Aggregates -/

inductive AggregateFunction where
  | count | sum | avg | min | max
  deriving DecidableEq

structure ObjectAggregationMetric where
  name : String
  function : AggregateFunction
  property : Option String

structure ObjectAggregationGroup where
  key : List (String × Json)
  metrics : List (String × Json)

/-- A property of a row as an expression reads it. -/
def valueCell (schema : Schema) (row : QueryRow) (name : String) : Cell :=
  match schema.derived? name with
  | some _ => row.derivedCell name
  | none => propertyCell ((schema.dataType? name).getD "string") (row.stored.get? name)

/-- `_aggregation_key_value`. -/
def aggregationKeyValue (env : SqlEnvironment) (dataType : String) : Cell → Json
  | .null => .null
  | .int n => match dataType with
    | "boolean" => .bool (n ≠ 0)
    | "float" | "number" => .float n
    | "timestamp" => ((env.timestampText n).map Json.str).getD .null
    | "integer" => .int n
    | _ => .str (env.cellText (.int n))
  | .real q => match dataType with
    | "boolean" => .bool (q ≠ 0)
    | "integer" => .int (q.num.tdiv q.den)
    | "float" | "number" => .float q
    | "timestamp" => .null
    | _ => .str (env.cellText (.real q))
  | .text s => .str s

def aggregateMetric (schema : Schema) (rows : List QueryRow) (metric : ObjectAggregationMetric) :
    Json :=
  let cells := rows.map fun row => valueCell schema row (metric.property.getD "")
  let aggregate := fun aggregation => match aggregateCells aggregation cells with
    | .real q => Json.float q
    | _ => .null
  match metric.function with
  | .count => .int rows.length
  | .sum => aggregate .sum
  | .avg => aggregate .avg
  | .min => aggregate .min
  | .max => aggregate .max

/-- What a row is grouped by. -/
def groupCells (schema : Schema) (groupBy : List String) (row : QueryRow) : List Cell :=
  groupBy.map (valueCell schema row)

/-- A group of rows: the values that it is grouped by, and its metrics. -/
def aggregateGroup (env : SqlEnvironment) (schema : Schema) (groupBy : List String)
    (metrics : List ObjectAggregationMetric) (cells : List Cell) (rows : List QueryRow) :
    ObjectAggregationGroup where
  key := List.zipWith (fun name cell =>
    (name, aggregationKeyValue env ((schema.dataType? name).getD "string") cell)) groupBy cells
  metrics := metrics.map fun metric => (metric.name, aggregateMetric schema rows metric)

/-- `aggregate_active_object_rows` of the rows that the statement reads. Without properties to
group by, all rows are one group. -/
def aggregateRows (env : SqlEnvironment) (schema : Schema) (filter : Option Filter)
    (groupBy : List String) (metrics : List ObjectAggregationMetric) (groupLimit : ℕ)
    (rows : List QueryRow) : List ObjectAggregationGroup :=
  let matched := rows.filter (matchesFilter env schema filter)
  let groups :=
    if groupBy = [] then [([], matched)]
    else (matched.map (groupCells schema groupBy)).dedup.map fun cells =>
      (cells, matched.filter fun row => groupCells schema groupBy row = cells)
  (groups.take groupLimit).map fun group =>
    aggregateGroup env schema groupBy metrics group.1 group.2

end FoundryLite.ObjectQuery
