import FoundryLite.Dataset.SqlAggregation

/-!
# The groups of the two engines

Two rows have the same key text exactly if they have the same key, and exactly if they have the same tuple
of grouping values. What a group's metric is depends on the list of numbers that are read in its rows: one
engine keeps a running state, the other aggregates the list, and the lists differ where a value is read as
a number by one of them only.

## Main results

* `groupKey_eq_iff`: keys are told apart by their texts.
* `metricValue_of_fold`: a running state holds the aggregates of the list.
-/

namespace FoundryLite.Dataset

open JsonText

/-! ### Keys -/

theorem tokens_cellDoc (cell : Cell) : Tokens (cellDoc cell) := by
  cases cell with
  | int n => exact token_intToken n
  | null => trivial
  | str text => trivial
  | bool b => trivial

theorem cellDoc_injective : Function.Injective cellDoc
  | .null, .null, _ => rfl
  | .int _, .int _, h => congrArg Cell.int (intToken_injective (Doc.num.inj h))
  | .str _, .str _, h => congrArg Cell.str (Doc.str.inj h)
  | .bool _, .bool _, h => congrArg Cell.bool (Doc.bool.inj h)

/-- What follows a value in a key text. -/
theorem cell_append_inj {a b : Cell} {c d : Char} {rest rest' : List Char} (hc : isDelimiter c = true)
    (hd : isDelimiter d = true)
    (h : render (cellDoc a) ++ c :: rest = render (cellDoc b) ++ d :: rest') :
    a = b ∧ c = d ∧ rest = rest' := by
  obtain ⟨hdoc, hrest⟩ := render_append_inj (tokens_cellDoc a) (tokens_cellDoc b)
    (by simpa [Delimited] using hc) (by simpa [Delimited] using hd) h
  exact ⟨cellDoc_injective hdoc, (List.cons.inj hrest).1, (List.cons.inj hrest).2⟩

theorem field_append_inj {column column' : String} {a b : Cell} {c d : Char} {rest rest' : List Char}
    (hc : isDelimiter c = true) (hd : isDelimiter d = true)
    (h : quote column ++ ':' :: ' ' :: (render (cellDoc a) ++ c :: rest) =
      quote column' ++ ':' :: ' ' :: (render (cellDoc b) ++ d :: rest')) :
    column = column' ∧ a = b ∧ c = d ∧ rest = rest' := by
  obtain ⟨hcolumn, hcells⟩ := quote_append_inj h
  exact ⟨hcolumn, cell_append_inj hc hd (List.cons.inj (List.cons.inj hcells).2).2⟩

theorem fieldsText_ne (column : String) (rest : List Char) (h : ['\x7d'] = quote column ++ rest) : False :=
  absurd (List.cons.inj h).1 (by decide)

theorem fieldsText_injective : ∀ {fields fields' : List (String × Cell)},
    fieldsText fields = fieldsText fields' → fields = fields'
  | [], [], _ => rfl
  | [], [(column, _)], h => (fieldsText_ne column _ h).elim
  | [], (column, _) :: _ :: _, h => (fieldsText_ne column _ h).elim
  | [(column, _)], [], h => (fieldsText_ne column _ h.symm).elim
  | (column, _) :: _ :: _, [], h => (fieldsText_ne column _ h.symm).elim
  | [(_, _)], [(_, _)], h => by
    obtain ⟨rfl, rfl, -, -⟩ := field_append_inj (by decide) (by decide) h
    rfl
  | [(_, _)], (_, _) :: _ :: _, h =>
    absurd (field_append_inj (by decide) (by decide) h).2.2.1 (by decide)
  | (_, _) :: _ :: _, [(_, _)], h =>
    absurd (field_append_inj (by decide) (by decide) h).2.2.1 (by decide)
  | (_, _) :: field :: fields, (_, _) :: field' :: fields', h => by
    obtain ⟨rfl, rfl, -, hrest⟩ := field_append_inj (by decide) (by decide) h
    rw [fieldsText_injective (List.cons.inj hrest).2]

theorem keyText_injective : Function.Injective keyText := by
  intro key key' h
  have hfields := fieldsText_injective (List.cons.inj (String.ofList_injective h)).2
  exact Dict.ext_get? fun column => by rw [Dict.get?, hfields, Dict.get?]

theorem keyOf_eq_zip (row : TabularRow) (groupBy : List String) :
    keyOf row groupBy = Dict.ofList (groupBy.zip (tupleOf groupBy row)) := by
  rw [keyOf, tupleOf, List.zip_map_right]
  congr 1
  induction groupBy with
  | nil => rfl
  | cons column groupBy ih => simp [ih]

theorem get?_keyOf (row : TabularRow) {groupBy : List String} {column : String} (h : column ∈ groupBy) :
    (keyOf row groupBy).get? column = some (cellOf row column) := by
  rw [keyOf, Dict.get?_ofList, Grouping.lookup_map_self, if_pos h]

theorem keyOf_eq_iff {row row' : TabularRow} {groupBy : List String} :
    keyOf row groupBy = keyOf row' groupBy ↔ tupleOf groupBy row = tupleOf groupBy row' := by
  constructor
  · intro h
    refine List.map_congr_left fun column hcolumn => ?_
    have hget := congrArg (·.get? column) h
    simpa [get?_keyOf _ hcolumn] using hget
  · intro h
    rw [keyOf_eq_zip, h, keyOf_eq_zip]

theorem groupKey_eq_iff {row row' : TabularRow} {groupBy : List String} :
    groupKey row groupBy = groupKey row' groupBy ↔ tupleOf groupBy row = tupleOf groupBy row' := by
  rw [groupKey, groupKey, keyText_injective.eq_iff, keyOf_eq_iff]

/-! ### Running states -/

/-- The least of the numbers, of two equal ones the first. -/
def leastOf (values : List Double) : Option Double :=
  values.foldl (fun least x => some (match least with
    | none => x
    | some least => if x.less least then x else least)) none

def greatestOf (values : List Double) : Option Double :=
  values.foldl (fun greatest x => some (match greatest with
    | none => x
    | some greatest => if greatest.less x then x else greatest)) none

def totalOf (values : List Double) : Double := values.foldl Double.add (.finite 0)

theorem leastOf_append_singleton (values : List Double) (x : Double) : leastOf (values ++ [x]) =
    some (match leastOf values with | none => x | some least => if x.less least then x else least) := by
  simp [leastOf]

theorem greatestOf_append_singleton (values : List Double) (x : Double) : greatestOf (values ++ [x]) =
    some (match greatestOf values with
      | none => x | some greatest => if greatest.less x then x else greatest) := by
  simp [greatestOf]

theorem totalOf_append_singleton (values : List Double) (x : Double) :
    totalOf (values ++ [x]) = (totalOf values).add x := by
  simp [totalOf]

/-- The state after one more number. -/
def addNumber (state : MetricState) (numeric : Double) : MetricState where
  count := state.count + 1
  total := state.total.add numeric
  minValue := match state.minValue with
    | none => some numeric
    | some least => some (if numeric.less least then numeric else least)
  maxValue := match state.maxValue with
    | none => some numeric
    | some greatest => some (if greatest.less numeric then numeric else greatest)

/-- **A running state holds the aggregates of the numbers.** -/
theorem foldl_addNumber (values : List Double) : values.foldl addNumber {} =
    ⟨values.length, totalOf values, leastOf values, greatestOf values⟩ := by
  induction values using List.reverseRecOn with
  | nil => rfl
  | append_singleton values x ih =>
    rw [List.foldl_append, ih, leastOf_append_singleton, greatestOf_append_singleton,
      totalOf_append_singleton, List.length_append]
    cases leastOf values <;> cases greatestOf values <;> rfl

section

variable (texts : AggregationTexts)

/-- The numbers that are read in a column. -/
def numbersOf (rows : List TabularRow) (column : String) : List Double :=
  rows.filterMap fun row => numericValue texts (cellOf row column)

theorem addNumericMetric_eq (state : MetricState) (value : Cell) :
    addNumericMetric texts state value = (numericValue texts value).elim state (addNumber state) := by
  rw [addNumericMetric]
  cases numericValue texts value <;> rfl

theorem foldl_addNumericMetric (rows : List TabularRow) (column : String) :
    rows.foldl (fun state row => addNumericMetric texts state (cellOf row column)) {} =
      (numbersOf texts rows column).foldl addNumber {} := by
  rw [numbersOf, List.foldl_filterMap]
  congr 1
  funext state row
  rw [addNumericMetric_eq]
  cases numericValue texts (cellOf row column) <;> rfl

/-! ### Group states -/

/-- What a group keeps for a metric. -/
def stateOf (group : GroupState) (metric : DatasetAggregationMetric) : MetricState :=
  (group.metrics.get? metric.name).getD {}

/-- The states of the metrics after one more row. -/
def addMetrics (metrics : List DatasetAggregationMetric) (states : Dict String MetricState)
    (row : TabularRow) : Dict String MetricState :=
  metrics.foldl (fun states metric =>
    states.insert metric.name (addMetric texts metric ((states.get? metric.name).getD {}) row)) states

theorem get?_addMetrics_of_notMem {metrics : List DatasetAggregationMetric} {name : String}
    (h : name ∉ metrics.map (·.name)) (states : Dict String MetricState) (row : TabularRow) :
    (addMetrics texts metrics states row).get? name = states.get? name := by
  induction metrics generalizing states with
  | nil => rfl
  | cons metric metrics ih =>
    simp only [List.map_cons, List.mem_cons, not_or] at h
    rw [addMetrics, List.foldl_cons, ← addMetrics, ih h.2, Dict.get?_insert, if_neg h.1]

theorem get?_addMetrics {metrics : List DatasetAggregationMetric} (hnames : (metrics.map (·.name)).Nodup)
    {metric : DatasetAggregationMetric} (hmetric : metric ∈ metrics) (states : Dict String MetricState)
    (row : TabularRow) : (addMetrics texts metrics states row).get? metric.name =
      some (addMetric texts metric ((states.get? metric.name).getD {}) row) := by
  induction metrics generalizing states with
  | nil => cases hmetric
  | cons first metrics ih =>
    obtain ⟨hfirst, hnames⟩ := List.nodup_cons.mp hnames
    rw [addMetrics, List.foldl_cons, ← addMetrics]
    rcases List.mem_cons.mp hmetric with rfl | hmetric
    · rw [get?_addMetrics_of_notMem texts hfirst, Dict.get?_insert, if_pos rfl]
    · have hne : metric.name ≠ first.name := fun h =>
        hfirst (List.mem_map.mpr ⟨metric, hmetric, h⟩)
      rw [ih hnames hmetric, Dict.get?_insert, if_neg hne]

theorem stateOf_foldl {metrics : List DatasetAggregationMetric} (hnames : (metrics.map (·.name)).Nodup)
    {metric : DatasetAggregationMetric} (hmetric : metric ∈ metrics) (rows : List TabularRow)
    (group : GroupState) : stateOf (rows.foldl (addGroupMetrics texts metrics) group) metric =
      rows.foldl (addMetric texts metric) (stateOf group metric) := by
  induction rows generalizing group with
  | nil => rfl
  | cons row rows ih =>
    rw [List.foldl_cons, List.foldl_cons, ih]
    congr 1
    rw [stateOf, addGroupMetrics, ← addMetrics, get?_addMetrics texts hnames hmetric]
    rfl

theorem key_foldl (metrics : List DatasetAggregationMetric) (rows : List TabularRow) (group : GroupState) :
    (rows.foldl (addGroupMetrics texts metrics) group).key = group.key := by
  induction rows generalizing group with
  | nil => rfl
  | cons row rows ih => rw [List.foldl_cons, ih, addGroupMetrics]

/-! ### Aggregates -/

/-- The metric of the numbers that are read, by what is taken for the least and the greatest. -/
def aggregate (least greatest : List Double → Option Double) (function : AggregationFunction)
    (values : List Double) : MetricValue :=
  if values = [] then .null
  else match function with
    | .sum => .number (totalOf values)
    | .avg => .number ((totalOf values).divide values.length)
    | .min => (least values).elim .null .number
    | _ => (greatest values).elim .null .number

/-- The metric of a group, by the numbers that are read in its rows. -/
theorem metricValue_of_fold (metric : DatasetAggregationMetric) (rows : List TabularRow) :
    metricValue (rows.foldl (addMetric texts metric) {}) metric =
      if metric.function = .count then .count rows.length
      else aggregate leastOf greatestOf metric.function (numbersOf texts rows (propertyOf metric)) := by
  by_cases hcount : metric.function = .count
  · have hrows : ∀ state : MetricState,
        (rows.foldl (addMetric texts metric) state).count = state.count + rows.length := by
      induction rows with
      | nil => simp
      | cons row rows ih =>
        intro state
        rw [List.foldl_cons, ih, addMetric, if_pos hcount, List.length_cons]
        exact Nat.add_right_comm _ _ _
    simp [metricValue, hcount, hrows]
  · have hfold : rows.foldl (addMetric texts metric) {} =
        (numbersOf texts rows (propertyOf metric)).foldl addNumber {} := by
      rw [← foldl_addNumericMetric]
      congr 1
      funext state row
      rw [addMetric, if_neg hcount]
    rw [hfold, foldl_addNumber, if_neg hcount]
    cases hfunction : metric.function with
    | count => exact absurd hfunction hcount
    | sum => simp [metricValue, aggregate, hfunction]
    | avg => simp [metricValue, aggregate, hfunction]
    | min => simp [metricValue, aggregate, hfunction]
    | max => simp [metricValue, aggregate, hfunction]

end

/-! ### What is not a number -/

/-- The numbers among doubles. -/
def proper (values : List Double) : List Double := values.filter fun x => x ≠ .nan

theorem proper_append_nan (values : List Double) : proper (values ++ [.nan]) = proper values := by
  simp [proper]

theorem proper_append_of_ne {x : Double} (hx : x ≠ .nan) (values : List Double) :
    proper (values ++ [x]) = proper values ++ [x] := by
  simp [proper, hx]

theorem proper_of_notMem {values : List Double} (h : Double.nan ∉ values) : proper values = values := by
  rw [proper, List.filter_eq_self]
  intro x hx
  simpa using fun hnan : x = .nan => h (hnan ▸ hx)

theorem leastOf_mem {values : List Double} {x : Double} (h : leastOf values = some x) : x ∈ values := by
  induction values using List.reverseRecOn generalizing x with
  | nil => cases h
  | append_singleton values y ih =>
    rw [leastOf_append_singleton, Option.some.injEq] at h
    subst h
    cases hleast : leastOf values with
    | none => simp
    | some least =>
      have hmem := ih hleast
      by_cases hless : y.less least = true <;> simp [hless, hmem]

theorem greatestOf_mem {values : List Double} {x : Double} (h : greatestOf values = some x) :
    x ∈ values := by
  induction values using List.reverseRecOn generalizing x with
  | nil => cases h
  | append_singleton values y ih =>
    rw [greatestOf_append_singleton, Option.some.injEq] at h
    subst h
    cases hgreatest : greatestOf values with
    | none => simp
    | some greatest =>
      have hmem := ih hgreatest
      by_cases hless : greatest.less y = true <;> simp [hless, hmem]

theorem ne_nan_of_mem_proper {values : List Double} {x : Double} (h : x ∈ proper values) : x ≠ .nan := by
  simpa [proper] using (List.mem_filter.mp h).2

/-- What is not a number comes last: it is the least only of doubles none of which is a number. -/
theorem sqlLeast_eq (values : List Double) : sqlLeast values =
    (leastOf (proper values)).or (if values = [] then none else some .nan) := by
  induction values using List.reverseRecOn with
  | nil => rfl
  | append_singleton values x ih =>
    have hstep : sqlLeast (values ++ [x]) = some (match sqlLeast values with
        | none => x
        | some least => if x.sqlLess least then x else least) := by
      rw [sqlLeast, List.foldl_append]
      rfl
    rw [hstep, ih, if_neg (by simp : values ++ [x] ≠ [])]
    cases hleast : leastOf (proper values) with
    | none =>
      by_cases hx : x = .nan
      · subst hx
        rw [proper_append_nan, hleast]
        by_cases hvalues : values = [] <;> simp [hvalues]
      · rw [proper_append_of_ne hx, leastOf_append_singleton, hleast]
        by_cases hvalues : values = [] <;> simp [hvalues, Double.sqlLess_nan hx]
    | some least =>
      have hproper := ne_nan_of_mem_proper (leastOf_mem hleast)
      rw [Option.some_or]
      by_cases hx : x = .nan
      · subst hx
        simp [proper_append_nan, hleast, Double.sqlLess_of_ne_nan hproper]
      · simp [proper_append_of_ne hx, leastOf_append_singleton, hleast, Double.sqlLess_of_ne_nan hproper]

/-- What is not a number is the greatest of doubles among which it is. -/
theorem sqlGreatest_eq (values : List Double) : sqlGreatest values =
    if Double.nan ∈ values then some .nan else greatestOf values := by
  induction values using List.reverseRecOn with
  | nil => rfl
  | append_singleton values x ih =>
    have hstep : sqlGreatest (values ++ [x]) = some (match sqlGreatest values with
        | none => x
        | some greatest => if greatest.sqlLess x then x else greatest) := by
      rw [sqlGreatest, List.foldl_append]
      rfl
    rw [hstep, ih]
    by_cases hx : x = .nan
    · subst hx
      rw [if_pos (by simp : Double.nan ∈ values ++ [.nan])]
      by_cases hvalues : Double.nan ∈ values
      · simp [hvalues]
      · rw [if_neg hvalues]
        cases greatestOf values with
        | none => rfl
        | some greatest =>
          by_cases hgreatest : greatest = .nan
          · simp [hgreatest]
          · simp [Double.sqlLess_nan hgreatest]
    · have hmem : Double.nan ∈ values ++ [x] ↔ Double.nan ∈ values := by simp [Ne.symm hx]
      by_cases hvalues : Double.nan ∈ values
      · simp [hmem, hvalues, Double.sqlLess_of_ne_nan hx]
      · simp [hmem, hvalues, greatestOf_append_singleton, Double.sqlLess_of_ne_nan hx]

theorem totalOf_of_nan_mem {values : List Double} (h : Double.nan ∈ values) : totalOf values = .nan := by
  induction values using List.reverseRecOn with
  | nil => cases h
  | append_singleton values x ih =>
    rw [totalOf_append_singleton]
    rcases List.mem_append.mp h with h | h
    · rw [ih h, Double.nan_add]
    · rw [← List.mem_singleton.mp h, Double.add_nan]

/-- The metrics in which what is not a number does not show, beside the given numbers. -/
def HidesNan (function : AggregationFunction) (numbers : List Double) : Prop :=
  match function with
  | .min => numbers ≠ []
  | .sum | .avg => totalOf numbers = .nan
  | _ => False

theorem aggregate_eq_null_iff {function : AggregationFunction} (hfunction : function ≠ .count)
    {values : List Double} : aggregate sqlLeast sqlGreatest function values = .null ↔ values = [] := by
  by_cases hvalues : values = []
  · simp [aggregate, hvalues]
  · have hleast : sqlLeast values ≠ none := by simp [sqlLeast_eq, hvalues]
    have hgreatest : sqlGreatest values ≠ none := by
      obtain ⟨rest, x, rfl⟩ := (List.eq_nil_or_concat values).resolve_left hvalues
      simp [sqlGreatest]
    obtain ⟨least, hleast⟩ := Option.ne_none_iff_exists'.mp hleast
    obtain ⟨greatest, hgreatest⟩ := Option.ne_none_iff_exists'.mp hgreatest
    cases function with
    | count => exact absurd rfl hfunction
    | sum => simp [aggregate, hvalues]
    | avg => simp [aggregate, hvalues]
    | min => simp [aggregate, hvalues, hleast]
    | max => simp [aggregate, hvalues, hgreatest]

/-- **What is not a number shows in an aggregate, or does not.** -/
theorem aggregate_proper_eq_iff {function : AggregationFunction} (hfunction : function ≠ .count)
    (values : List Double) : aggregate leastOf greatestOf function (proper values) =
      aggregate sqlLeast sqlGreatest function values ↔
    (Double.nan ∈ values → HidesNan function (proper values)) := by
  by_cases hnan : Double.nan ∈ values
  · have hvalues : values ≠ [] := List.ne_nil_of_mem hnan
    have hnandivide : Double.divide .nan values.length = .nan := Double.divide_eq_nan_iff.mpr rfl
    cases function with
    | count => exact absurd rfl hfunction
    | sum =>
      by_cases hproper : proper values = []
      · simp [aggregate, hvalues, hnan, HidesNan, hproper, totalOf]
      · simp [aggregate, hvalues, hnan, HidesNan, hproper, totalOf_of_nan_mem hnan]
    | avg =>
      by_cases hproper : proper values = []
      · simp [aggregate, hvalues, hnan, HidesNan, hproper, totalOf]
      · simp [aggregate, hvalues, hnan, HidesNan, hproper, totalOf_of_nan_mem hnan, hnandivide]
    | min =>
      by_cases hproper : proper values = []
      · simp [aggregate, hvalues, hnan, HidesNan, hproper, sqlLeast_eq, leastOf]
      · obtain ⟨rest, x, hlast⟩ := (List.eq_nil_or_concat (proper values)).resolve_left hproper
        simp [aggregate, hvalues, hnan, HidesNan, hlast, sqlLeast_eq, leastOf_append_singleton]
    | max =>
      by_cases hproper : proper values = []
      · simp [aggregate, hvalues, hnan, HidesNan, hproper, sqlGreatest_eq]
      · cases hgreatest : greatestOf (proper values) with
        | none => simp [aggregate, hvalues, hnan, HidesNan, hproper, sqlGreatest_eq, hgreatest]
        | some greatest =>
          have hne := ne_nan_of_mem_proper (greatestOf_mem hgreatest)
          simp [aggregate, hvalues, hnan, HidesNan, hproper, sqlGreatest_eq, hgreatest, hne]
  · rw [proper_of_notMem hnan]
    refine ⟨fun _ h => absurd h hnan, fun _ => ?_⟩
    have hleast : sqlLeast values = leastOf values := by
      rw [sqlLeast_eq, proper_of_notMem hnan]
      by_cases hvalues : values = []
      · simp [hvalues, leastOf]
      · obtain ⟨rest, x, hlast⟩ := (List.eq_nil_or_concat values).resolve_left hvalues
        simp [hlast, leastOf_append_singleton]
    have hgreatest : sqlGreatest values = greatestOf values := by rw [sqlGreatest_eq, if_neg hnan]
    cases function <;> simp only [aggregate, hleast, hgreatest]

end FoundryLite.Dataset
