import FoundryLite.Errors
import FoundryLite.Library.Numeral
import FoundryLite.Library.Calendar

/-!
# The two cron matchers

Managed source syncs and deployed pipelines are both scheduled by five-field cron expressions, but
each scheduler has its own parser and its own matcher. The source scheduler reads lists of `*`,
`*/step` and values, and keeps the values of a field. The pipeline scheduler also reads ranges and
offset steps, and remembers of each field whether its text starts with a star.

`StandardMatch` is the usual meaning of an expression, stated on the texts of its fields and not
through either parser.
-/

namespace FoundryLite.Schedules

open Text Calendar

/-- The five fields of an expression, in the order in which they are written. -/
structure CronFields (α : Type) where
  minute : α
  hour : α
  day : α
  month : α
  weekday : α
  deriving DecidableEq

/-- `_cron_fields` of both schedulers, which differ in how a field is read and in the refusal of an
expression that has not five fields. -/
def cronFieldsWith {α : Type} (cronField : List Char → Int → Int → Checked α)
    (message detail : String) (expression : String) : Checked (CronFields α) :=
  match splitFields expression.toList with
  | [minute, hour, day, month, weekday] => do
    let minute ← cronField minute 0 59
    let hour ← cronField hour 0 23
    let day ← cronField day 1 31
    let month ← cronField month 1 12
    let weekday ← cronField weekday 0 7
    pure ⟨minute, hour, day, month, weekday⟩
  | _ => validationFailed message [(detail, .str expression)]

/-- The weekday as cron counts it: Sunday is 0. -/
def cronWeekday (t : Minute) : Int := (t.weekday + 1) % 7

/-- Membership of a weekday, where 0 and 7 both name Sunday. -/
def weekdayIn (weekday : Int) (values : List Int) : Bool :=
  weekday ∈ values || (weekday == 0 && 7 ∈ values)

/-! ### The source scheduler -/

namespace SourceScheduler

/-- `_optional_int` on a text. -/
def optionalInt (value : List Char) : Checked Int :=
  match parseInt value with
  | some n => pure n
  | none => validationFailed "schedule field must be an integer"
      [("value", .str (String.ofList value))]

def positiveInt (value : List Char) (field : String) : Checked Int := do
  let parsed ← optionalInt value
  rejectIf (parsed ≤ 0) "schedule field must be a positive integer" [("field", .str field)]
  pure parsed

def cronPartValues (part : List Char) (minimum maximum : Int) : Checked (List Int) :=
  if part = ['*'] then pure (intRange minimum (maximum + 1) 1)
  else if ['*', '/'].isPrefixOf part then do
    let step ← positiveInt (part.drop 2) "cronStep"
    pure (intRange minimum (maximum + 1) step)
  else do
    let value ← optionalInt part
    rejectIf (value < minimum ∨ maximum < value) "cron value is outside allowed range"
      [("value", .int value)]
    pure [value]

def cronValues (field : List Char) (minimum maximum : Int) : Checked (List Int) := do
  let values ← (field.splitOn ',').mapM (cronPartValues · minimum maximum)
  pure values.flatten

def cronFields : String → Checked (CronFields (List Int)) :=
  cronFieldsWith cronValues "cron schedule must have five fields" "cron"

def cronMatches (t : Minute) (fields : CronFields (List Int)) : Bool :=
  (t.minute : Int) ∈ fields.minute && (t.hour : Int) ∈ fields.hour &&
    (t.day : Int) ∈ fields.day && (t.month : Int) ∈ fields.month &&
    weekdayIn (cronWeekday t) fields.weekday

end SourceScheduler

/-! ### The pipeline scheduler -/

namespace PipelineScheduler

structure CronField where
  values : List Int
  isStarBased : Bool
  deriving DecidableEq

/-- `int` on a text, refused under the name of the field. -/
def fieldInt (value : List Char) (field : String) : Checked Int :=
  match parseInt value with
  | some n => pure n
  | none => validationFailed "pipeline schedule field must be an integer" [("field", .str field)]

def positiveInt (value : List Char) (field : String) : Checked Int := do
  let parsed ← fieldInt value field
  rejectIf (parsed < 1) "pipeline schedule field must be positive" [("field", .str field)]
  pure parsed

def positiveOrZeroInt (value : List Char) (field : String) : Checked Int := do
  let parsed ← fieldInt value field
  rejectIf (parsed < 0) "pipeline schedule field cannot be negative" [("field", .str field)]
  pure parsed

def boundedInt (value : List Char) (minimum maximum : Int) : Checked Int := do
  let parsed ← positiveOrZeroInt value "cronValue"
  rejectIf (parsed < minimum ∨ maximum < parsed) "cron value is outside allowed range"
    [("value", .int parsed)]
  pure parsed

def cronRange (value : List Char) (minimum maximum : Int) : Checked (Int × Int) :=
  if value = ['*'] then pure (minimum, maximum)
  else match partition '-' value with
    | (startText, some endText) => do
      let start ← boundedInt startText minimum maximum
      let stop ← boundedInt endText minimum maximum
      rejectIf (stop < start) "cron range end precedes start"
        [("value", .str (String.ofList value))]
      pure (start, stop)
    | (_, none) => do
      let item ← boundedInt value minimum maximum
      pure (item, item)

def cronPartValues (part : List Char) (minimum maximum : Int) : Checked (List Int) :=
  match partition '/' part with
  | (base, some stepText) => do
    let step ← positiveInt stepText "cronStep"
    if base ≠ ['*'] ∧ '-' ∉ base then
      let start ← boundedInt base minimum maximum
      pure (intRange start (maximum + 1) step)
    else
      let (start, stop) ← cronRange base minimum maximum
      pure (intRange start (stop + 1) step)
  | (base, none) => do
    let (start, stop) ← cronRange base minimum maximum
    pure (intRange start (stop + 1) 1)

def cronField (value : List Char) (minimum maximum : Int) : Checked CronField := do
  let values ← (value.splitOn ',').mapM (cronPartValues · minimum maximum)
  pure ⟨values.flatten, ['*'].isPrefixOf value⟩

def cronFields : String → Checked (CronFields CronField) :=
  cronFieldsWith cronField "cron pipeline schedule must have five fields" "cronExpression"

def dayMatches (day weekday : CronField) (isDayMatch isWeekdayMatch : Bool) : Bool :=
  if !day.isStarBased && !weekday.isStarBased then isDayMatch || isWeekdayMatch
  else isDayMatch && isWeekdayMatch

/-- `_cron_matches` at a minute of the schedule's own time zone. -/
def cronMatches (t : Minute) (fields : CronFields CronField) : Bool :=
  let baseMatches := (t.minute : Int) ∈ fields.minute.values && (t.hour : Int) ∈ fields.hour.values &&
    (t.month : Int) ∈ fields.month.values
  if !baseMatches then false
  else dayMatches fields.day fields.weekday ((t.day : Int) ∈ fields.day.values)
    (weekdayIn (cronWeekday t) fields.weekday.values)

end PipelineScheduler

/-! ### What an expression means -/

/-- The written forms of one part of a field's list, each with the progression it names: where it
starts, where it stops, and its step. -/
inductive PartForm (minimum maximum : Int) : List Char → Int → Int → Int → Prop
  | every : PartForm minimum maximum ['*'] minimum maximum 1
  | everyStep {stepText : List Char} {step : Int} : parseInt stepText = some step →
      PartForm minimum maximum ('*' :: '/' :: stepText) minimum maximum step
  | value {text : List Char} {v : Int} : '-' ∉ text → parseInt text = some v →
      PartForm minimum maximum text v v 1
  | valueStep {text stepText : List Char} {start step : Int} : '-' ∉ text →
      parseInt text = some start → parseInt stepText = some step →
      PartForm minimum maximum (text ++ '/' :: stepText) start maximum step
  | range {startText stopText : List Char} {start stop : Int} : '-' ∉ startText →
      parseInt startText = some start → parseInt stopText = some stop →
      PartForm minimum maximum (startText ++ '-' :: stopText) start stop 1
  | rangeStep {startText stopText stepText : List Char} {start stop step : Int} :
      '-' ∉ startText → parseInt startText = some start → parseInt stopText = some stop →
      parseInt stepText = some step →
      PartForm minimum maximum (startText ++ '-' :: stopText ++ '/' :: stepText) start stop step

/-- What one part stands for: the values of its progression, which lies between the bounds. -/
def Denotes (minimum maximum : Int) (part : List Char) (v : Int) : Prop :=
  ∃ start stop step, PartForm minimum maximum part start stop step ∧
    minimum ≤ start ∧ stop ≤ maximum ∧ 0 < step ∧ v ≤ stop ∧ ∃ i : Nat, v = start + step * i

/-- What a field stands for: the values of all parts of its list. -/
def FieldDenotes (minimum maximum : Int) (field : List Char) (v : Int) : Prop :=
  ∃ part ∈ field.splitOn ',', Denotes minimum maximum part v

/-- A field restricts its unit of time unless its text starts with a star. -/
def Restricted (field : List Char) : Prop := ¬ ['*'] <+: field

/-- The five field texts of an expression that has five. -/
def FieldTexts (expression : String) (fields : CronFields (List Char)) : Prop :=
  splitFields expression.toList =
    [fields.minute, fields.hour, fields.day, fields.month, fields.weekday]

/-- A weekday field stands for Sunday as 0 or as 7. -/
def WeekdayDenotes (field : List Char) (weekday : Int) : Prop :=
  FieldDenotes 0 7 field weekday ∨ weekday = 0 ∧ FieldDenotes 0 7 field 7

/-- The time of day and the month of the minute are among those of the expression. -/
def TimeMatch (fields : CronFields (List Char)) (t : Minute) : Prop :=
  FieldDenotes 0 59 fields.minute t.minute ∧ FieldDenotes 0 23 fields.hour t.hour ∧
    FieldDenotes 1 12 fields.month t.month

/-- The standard meaning: a restricted day of the month and a restricted day of the week are
alternatives, and otherwise every field has to match. -/
def StandardMatch (fields : CronFields (List Char)) (t : Minute) : Prop :=
  TimeMatch fields t ∧
    (Restricted fields.day ∧ Restricted fields.weekday ∧
        (FieldDenotes 1 31 fields.day t.day ∨ WeekdayDenotes fields.weekday (cronWeekday t)) ∨
      FieldDenotes 1 31 fields.day t.day ∧ WeekdayDenotes fields.weekday (cronWeekday t))

end FoundryLite.Schedules
