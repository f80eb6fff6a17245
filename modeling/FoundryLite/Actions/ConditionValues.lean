import FoundryLite.Actions.DecimalIdentity
import FoundryLite.Actions.RegexGuard
import Mathlib.Data.List.Infix

/-!
# Comparing the values of a condition

The comparison operators of submission criteria and parameter overrides, over decoded JSON values. A
truth value is equal to no number, numbers are equal by what they are, and an operator that does not
apply to its operands is false.

Operands of a decimal type are texts, and a table of its own compares the numbers that they spell. It
agrees with the general table over these numbers but for what it misses: it knows no `containsAny`,
and no lists where it expects a number.

## Main results

* `compareDecimalValues_iff`: exactly where the two tables agree.
-/

namespace FoundryLite.Actions

/-- `COMPARISON_OPERATORS` without `exists`, which compares nothing. -/
inductive Operator where
  | eq
  | neq
  | in
  | notIn
  | lt
  | lte
  | gt
  | gte
  | contains
  | containsAny
  | startsWith
  | matches
  | eachIs
  | eachIsNot
  deriving DecidableEq

/-! ### Equality -/

/-- A finite number. A float is the number that its text spells. -/
def numberOf : Json → Option ℚ
  | .int n => some n
  | .float q => some q
  | _ => none

mutual

/-- `action_condition_values_equal`, of values that are there. The keys of a mapping are distinct. -/
def valuesEqual : Json → Json → Bool
  | .bool b, .bool c => b == c
  | .int n, right => numberOf right = some (n : ℚ)
  | .float q, right => numberOf right = some q
  | .obj fields, .obj fields' => fields.length == fields'.length && fieldsEqual fields fields'
  | .arr items, .arr items' => itemsEqual items items'
  | .str s, .str t => s == t
  | .null, .null => true
  | _, _ => false

def itemsEqual : List Json → List Json → Bool
  | [], [] => true
  | item :: items, item' :: items' => valuesEqual item item' && itemsEqual items items'
  | _, _ => false

def fieldsEqual : List (String × Json) → List (String × Json) → Bool
  | [], _ => true
  | (key, value) :: fields, others =>
    (match others.lookup key with
      | some other => valuesEqual value other
      | none => false) && fieldsEqual fields others

end

/-! ### The operators -/

/-- One order operator, over numbers, moments or texts. -/
def applyOrder {α : Type} [LinearOrder α] (operator : Operator) (left right : α) : Bool :=
  match operator with
  | .lt => left < right
  | .lte => left ≤ right
  | .gt => right < left
  | _ => right ≤ left

section Operators

variable (engine : RegexEngine)

/-- A text that begins with a date and the mark of a time. -/
def looksLikeTimestamp (value : String) : Bool :=
  match value.toList.take 11 with
  | [y₁, y₂, y₃, y₄, '-', m₁, m₂, '-', d₁, d₂, mark] =>
    [y₁, y₂, y₃, y₄, m₁, m₂, d₁, d₂].all engine.isDigit && (mark = 'T' || mark = 't')
  | _ => false

def timestampOrderResult (operator : Operator) (left right : String) : Option Bool :=
  let leftTimestamp := ScalarValues.timestampMoment (.str left)
  let rightTimestamp := ScalarValues.timestampMoment (.str right)
  let hasTimestampShape := looksLikeTimestamp engine left || looksLikeTimestamp engine right
  if leftTimestamp.isNone && rightTimestamp.isNone && !hasTimestampShape then none
  else
    match leftTimestamp, rightTimestamp with
    | some l, some r => some (applyOrder operator l r)
    | _, _ => some false

def orderedCompare (operator : Operator) (left right : Json) : Bool :=
  match numberOf left, numberOf right with
  | some l, some r => applyOrder operator l r
  | _, _ =>
    match left, right with
    | .str l, .str r => (timestampOrderResult engine operator l r).getD (applyOrder operator l r)
    | _, _ => false

def containsValue (container member : Json) : Bool :=
  match container with
  | .str text =>
    match member with
    | .str part => decide (part.toList <:+: text.toList)
    | _ => false
  | .arr items => items.any fun item => valuesEqual item member
  | _ => false

def isCollection : Json → Bool
  | .arr _ => true
  | _ => false

def containsAny (container members : Json) : Bool :=
  match container, members with
  | .arr _, .arr items => items.any fun member => containsValue container member
  | _, _ => false

def eachIs (operator : Operator) (left right : Json) : Bool :=
  match left with
  | .arr members =>
    match operator with
    | .eachIs => members.all fun member => valuesEqual member right
    | _ => members.all fun member => !valuesEqual member right
  | _ => false

def maxRegexInputChars : ℕ := 4096

/-- The pattern must match the whole text, and is checked before it is run. -/
def matchesPattern (left pattern : Json) : Checked Bool :=
  match left, pattern with
  | .str text, .str pattern => do
    if maxRegexInputChars < text.length then return false
    validateSafeRegexPattern engine pattern
    return engine.fullmatch pattern text
  | _, _ => pure false

def startsWith (left right : Json) : Bool :=
  match left, right with
  | .str text, .str start => start.toList.isPrefixOf text.toList
  | _, _ => false

/-- `_COMPARISONS`. -/
def compare (operator : Operator) (left right : Json) : Checked Bool :=
  match operator with
  | .eq => pure (valuesEqual left right)
  | .neq => pure (!valuesEqual left right)
  | .in => pure (isCollection right && containsValue right left)
  | .notIn => pure (isCollection right && !containsValue right left)
  | .lt => pure (orderedCompare engine .lt left right)
  | .lte => pure (orderedCompare engine .lte left right)
  | .gt => pure (orderedCompare engine .gt left right)
  | .gte => pure (orderedCompare engine .gte left right)
  | .contains => pure (containsValue left right)
  | .containsAny => pure (containsAny left right)
  | .startsWith => pure (startsWith left right)
  | .matches => matchesPattern engine left right
  | .eachIs => pure (eachIs .eachIs left right)
  | .eachIsNot => pure (eachIs .eachIsNot left right)

end Operators

/-! ### Decimal operands -/

/-- A text that `Decimal()` refuses, by its exponent too, is no decimal. -/
def conditionDecimal : Json → Option ℚ
  | .str text => if isFiniteDecimal (.str text) then ScalarValues.decimalNumeral text else none
  | _ => none

def decimalCollectionContains (container member : Json) : Bool :=
  match container with
  | .arr items =>
    match conditionDecimal member with
    | none => false
    | some number => items.any fun item => conditionDecimal item = some number
  | _ => false

def eachDecimalIs (operator : Operator) (left right : Json) : Bool :=
  match left with
  | .arr items =>
    match conditionDecimal right with
    | none => false
    | some number =>
      match operator with
      | .eachIs => items.all fun item => conditionDecimal item = some number
      | _ => items.all fun item => !decide (conditionDecimal item = some number)
  | _ => false

def compareDecimalCollectionOperation (operator : Operator) (left right : Json) : Option Bool :=
  match operator with
  | .in => some (decimalCollectionContains right left)
  | .notIn => some (isCollection right && !decimalCollectionContains right left)
  | .contains => some (decimalCollectionContains left right)
  | .eachIs => some (eachDecimalIs .eachIs left right)
  | .eachIsNot => some (eachDecimalIs .eachIsNot left right)
  | _ => none

def compareDecimalScalars (operator : Operator) (left right : Json) : Bool :=
  match conditionDecimal left, conditionDecimal right with
  | some l, some r =>
    match operator with
    | .eq => l = r
    | .neq => l ≠ r
    | .lt => applyOrder .lt l r
    | .lte => applyOrder .lte l r
    | .gt => applyOrder .gt l r
    | .gte => applyOrder .gte l r
    | _ => false
  | _, _ => false

def compareDecimalValues (operator : Operator) (left right : Json) : Bool :=
  (compareDecimalCollectionOperation operator left right).getD
    (compareDecimalScalars operator left right)

/-! ### Decimals as numbers -/

/-- A text that spells a decimal. -/
structure FiniteDecimal where
  text : String
  number : ℚ
  isNumber : conditionDecimal (.str text) = some number

/-- A decimal, or a list of them. -/
inductive DecimalOperand where
  | one (decimal : FiniteDecimal)
  | many (decimals : List FiniteDecimal)

namespace DecimalOperand

/-- The operand as the condition has it. -/
def texts : DecimalOperand → Json
  | one decimal => .str decimal.text
  | many decimals => .arr (decimals.map fun decimal => .str decimal.text)

/-- The operand as the numbers that it spells. -/
def numbers : DecimalOperand → Json
  | one decimal => .float decimal.number
  | many decimals => .arr (decimals.map fun decimal => .float decimal.number)

end DecimalOperand

/-- The comparisons that the decimal table misses. -/
def IsMissed : Operator → DecimalOperand → DecimalOperand → Prop
  | .eq, .many ds, .many es => ds.map (·.number) = es.map (·.number)
  | .neq, .many ds, .many es => ds.map (·.number) ≠ es.map (·.number)
  | .neq, .one _, .many _ => True
  | .neq, .many _, .one _ => True
  | .containsAny, .many ds, .many es => ∃ d ∈ ds, ∃ e ∈ es, d.number = e.number
  | .eachIs, .many ds, .many _ => ds = []
  | .eachIsNot, .many _, .many _ => True
  | _, _, _ => False

/-! ### The two tables compared -/

section Agreement

variable {decimal : FiniteDecimal} {decimals decimals' : List FiniteDecimal}

@[simp]
theorem conditionDecimal_text (decimal : FiniteDecimal) :
    conditionDecimal (.str decimal.text) = some decimal.number := decimal.isNumber

@[simp]
theorem conditionDecimal_arr (items : List Json) : conditionDecimal (.arr items) = none := rfl

@[simp]
theorem valuesEqual_float (p q : ℚ) : valuesEqual (.float p) (.float q) = decide (p = q) := by
  rw [valuesEqual, numberOf]
  simp [eq_comm]

@[simp]
theorem valuesEqual_float_arr (p : ℚ) (items : List Json) :
    valuesEqual (.float p) (.arr items) = false := by
  simp [valuesEqual, numberOf]

@[simp]
theorem valuesEqual_arr_float (p : ℚ) (items : List Json) :
    valuesEqual (.arr items) (.float p) = false := by
  simp [valuesEqual]

theorem itemsEqual_floats (ps qs : List ℚ) :
    itemsEqual (ps.map .float) (qs.map .float) = decide (ps = qs) := by
  induction ps generalizing qs with
  | nil => cases qs <;> simp [itemsEqual]
  | cons p ps ih =>
    cases qs with
    | nil => simp [itemsEqual]
    | cons q qs => simp [itemsEqual, ih, Bool.decide_and]

/-- Two lists of numbers are equal when they are the same numbers in the same order. -/
@[simp]
theorem valuesEqual_numbers (decimals decimals' : List FiniteDecimal) :
    valuesEqual (.arr (decimals.map fun d => .float d.number))
        (.arr (decimals'.map fun d => .float d.number))
      = decide (decimals.map (·.number) = decimals'.map (·.number)) := by
  rw [valuesEqual, ← itemsEqual_floats, List.map_map, List.map_map]
  rfl

end Agreement

/-- **The decimal table agrees with the general one over the numbers exactly where it misses
nothing.** -/
theorem compareDecimalValues_iff (engine : RegexEngine) (operator : Operator)
    (left right : DecimalOperand) :
    compare engine operator left.numbers right.numbers
        = .ok (compareDecimalValues operator left.texts right.texts) ↔
      ¬ IsMissed operator left right := by
  cases operator <;> cases left <;> cases right
  -- Every value of the first list is looked up in the second, and the other way round.
  case containsAny.many.many ds es =>
    simp only [compare, compareDecimalValues, compareDecimalCollectionOperation,
      compareDecimalScalars, DecimalOperand.numbers, DecimalOperand.texts, IsMissed, containsAny,
      containsValue, conditionDecimal_arr, Except.pure_eq_ok_iff, Option.getD_none, not_exists, not_and]
    simp only [List.any_map, List.any_eq_false, Function.comp_def, valuesEqual_float,
      decide_eq_true_eq, Bool.not_eq_true]
    exact ⟨fun h d hd e he => h e he d hd, fun h e he d hd => h d hd e he⟩
  -- No number is equal to a list, so only a list without members is affected.
  case eachIs.many.many ds es =>
    simp only [compare, compareDecimalValues, compareDecimalCollectionOperation,
      DecimalOperand.numbers, DecimalOperand.texts, IsMissed, eachIs, eachDecimalIs,
      conditionDecimal_arr, Except.pure_eq_ok_iff, Option.getD_some]
    cases ds <;> simp
  all_goals
    simp [compare, compareDecimalValues, compareDecimalCollectionOperation, compareDecimalScalars,
      DecimalOperand.numbers, DecimalOperand.texts, IsMissed, orderedCompare, numberOf,
      decimalCollectionContains, eachDecimalIs, eachIs, containsValue, containsAny, isCollection,
      startsWith, matchesPattern, Function.comp_def]

section Examples

/-- The decimal 1, written with a decimal point and without. -/
def oneDecimal : FiniteDecimal := ⟨"1", 1, by decide +kernel⟩

def onePointZero : FiniteDecimal := ⟨"1.0", 1, by decide +kernel⟩

/-- **No list contains any member of another**, not even of itself. -/
theorem not_containsAny_decimals :
    compareDecimalValues .containsAny (DecimalOperand.many [onePointZero]).texts
        (DecimalOperand.many [oneDecimal]).texts = false ∧
      ∀ engine, compare engine .containsAny (DecimalOperand.many [onePointZero]).numbers
        (DecimalOperand.many [oneDecimal]).numbers = .ok true := by
  refine ⟨by decide +kernel, fun engine => ?_⟩
  simp [compare, containsAny, DecimalOperand.numbers, containsValue, oneDecimal, onePointZero]

end Examples

end FoundryLite.Actions
