import FoundryLite.Schedules.Cron

/-!
# Where the two cron matchers agree

On an expression that both schedulers accept, both parsers read the same values, and they are the
values the expression stands for (`mem_cronValues_iff`, `mem_cronField_iff`). The matchers then
differ in one rule. The pipeline scheduler takes a restricted day of the month and a restricted
day of the week as alternatives, which is the standard; the source scheduler wants both.

## Main results

* `PipelineScheduler.cronMatches_iff`: the pipeline scheduler has the standard meaning.
* `cron_agrees_iff`: the minutes, and the expressions, on which both give the standard answer.
-/

namespace FoundryLite.Schedules

open Text Calendar
open Except (bind_eq_ok_iff pure_eq_ok_iff)

variable {minimum maximum : Int} {part : List Char}

/-! ### One part of a list -/

theorem slash_not_mem {text : List Char} {n : Int} (h : parseInt text = some n) : '/' ∉ text :=
  not_mem_of_parseInt h (by decide) (by decide) (by decide) (by decide) (by decide +kernel)

theorem parseInt_star : parseInt ['*'] = none := by
  decide +kernel

theorem mem_intRange_one {start stop v : Int} :
    v ∈ intRange start (stop + 1) 1 ↔ start ≤ v ∧ v ≤ stop := by
  rw [mem_intRange one_pos]
  constructor
  · rintro ⟨i, rfl, hi⟩
    omega
  · rintro ⟨hstart, hstop⟩
    exact ⟨(v - start).toNat, by omega, by omega⟩

namespace SourceScheduler

theorem optionalInt_eq_ok_iff {text : List Char} {n : Int} :
    optionalInt text = .ok n ↔ parseInt text = some n := by
  rw [optionalInt]
  cases parseInt text with
  | none => simp
  | some m => simp

theorem positiveInt_eq_ok_iff {text : List Char} {field : String} {n : Int} :
    positiveInt text field = .ok n ↔ parseInt text = some n ∧ 0 < n := by
  simp only [positiveInt, bind_eq_ok_iff, optionalInt_eq_ok_iff, rejectIf_eq_ok_iff,
    pure_eq_ok_iff]
  constructor
  · rintro ⟨m, hm, -, hpos, rfl⟩
    exact ⟨hm, not_le.mp hpos⟩
  · rintro ⟨hn, hpos⟩
    exact ⟨n, hn, (), not_le.mpr hpos, rfl⟩

/-- The forms the source scheduler reads: a star, a stepped star, a value. -/
theorem cronPartValues_cases {values : List Int}
    (h : cronPartValues part minimum maximum = .ok values) :
    (part = ['*'] ∧ values = intRange minimum (maximum + 1) 1) ∨
    (∃ stepText step, part = '*' :: '/' :: stepText ∧ parseInt stepText = some step ∧ 0 < step ∧
      values = intRange minimum (maximum + 1) step) ∨
    ∃ v, parseInt part = some v ∧ minimum ≤ v ∧ v ≤ maximum ∧ values = [v] := by
  rw [cronPartValues] at h
  split_ifs at h with hstar hstep
  · exact .inl ⟨hstar, (pure_eq_ok_iff.mp h).symm⟩
  · obtain ⟨stepText, rfl⟩ := List.isPrefixOf_iff_prefix.mp hstep
    simp only [bind_eq_ok_iff, positiveInt_eq_ok_iff, pure_eq_ok_iff] at h
    obtain ⟨step, ⟨hparse, hpos⟩, rfl⟩ := h
    exact .inr (.inl ⟨stepText, step, rfl, hparse, hpos, rfl⟩)
  · simp only [bind_eq_ok_iff, optionalInt_eq_ok_iff, rejectIf_eq_ok_iff,
      pure_eq_ok_iff, not_or, not_lt] at h
    obtain ⟨v, hv, -, ⟨hmin, hmax⟩, rfl⟩ := h
    exact .inr (.inr ⟨v, hv, hmin, hmax, rfl⟩)

end SourceScheduler

namespace PipelineScheduler

theorem fieldInt_eq_ok_iff {text : List Char} {field : String} {n : Int} :
    fieldInt text field = .ok n ↔ parseInt text = some n := by
  rw [fieldInt]
  cases parseInt text with
  | none => simp
  | some m => simp

theorem positiveInt_eq_ok_iff {text : List Char} {field : String} {n : Int} :
    positiveInt text field = .ok n ↔ parseInt text = some n ∧ 0 < n := by
  simp only [positiveInt, bind_eq_ok_iff, fieldInt_eq_ok_iff, rejectIf_eq_ok_iff,
    pure_eq_ok_iff]
  constructor
  · rintro ⟨m, hm, -, hpos, rfl⟩
    exact ⟨hm, by omega⟩
  · rintro ⟨hn, hpos⟩
    exact ⟨n, hn, (), by omega, rfl⟩

/-- A bounded value is never negative, as no field has a negative bound. -/
theorem boundedInt_eq_ok_iff (hminimum : 0 ≤ minimum) {text : List Char} {n : Int} :
    boundedInt text minimum maximum = .ok n ↔
      parseInt text = some n ∧ minimum ≤ n ∧ n ≤ maximum := by
  simp only [boundedInt, positiveOrZeroInt, bind_eq_ok_iff, fieldInt_eq_ok_iff,
    rejectIf_eq_ok_iff, pure_eq_ok_iff, not_or, not_lt]
  constructor
  · rintro ⟨m, ⟨_, hm, -, -, rfl⟩, -, hbounds, rfl⟩
    exact ⟨hm, hbounds⟩
  · rintro ⟨hn, hbounds⟩
    exact ⟨n, ⟨n, hn, (), by omega, rfl⟩, (), hbounds, rfl⟩

/-- What `_cron_range` reads: a star, a range, or a value. -/
theorem cronRange_eq_ok_iff (hminimum : 0 ≤ minimum) {base : List Char} {start stop : Int} :
    cronRange base minimum maximum = .ok (start, stop) ↔
      (base = ['*'] ∧ start = minimum ∧ stop = maximum) ∨
      (∃ startText stopText, base = startText ++ '-' :: stopText ∧ '-' ∉ startText ∧
        parseInt startText = some start ∧ parseInt stopText = some stop ∧ minimum ≤ start ∧
        start ≤ stop ∧ stop ≤ maximum) ∨
      ('-' ∉ base ∧ parseInt base = some start ∧ start = stop ∧ minimum ≤ start ∧
        start ≤ maximum) := by
  rw [cronRange]
  split_ifs with hstar
  · subst hstar
    simp only [pure_eq_ok_iff, Prod.mk.injEq, true_and]
    constructor
    · rintro ⟨rfl, rfl⟩
      exact .inl ⟨rfl, rfl⟩
    · rintro (⟨rfl, rfl⟩ | ⟨_, _, heq, -, hstart, -⟩ | ⟨-, hstart, -⟩)
      · exact ⟨rfl, rfl⟩
      · cases List.singleton_eq_append_iff.mp heq with
        | inl h => simp at h
        | inr h => simp at h
      · simp [parseInt_star] at hstart
  · simp only [hstar, false_and, false_or]
    split
    · rename_i startText stopText hpartition
      obtain ⟨rfl, hminus⟩ := eq_append_of_partition hpartition
      simp only [bind_eq_ok_iff, boundedInt_eq_ok_iff hminimum, rejectIf_eq_ok_iff,
        pure_eq_ok_iff, Prod.mk.injEq, not_lt]
      constructor
      · rintro ⟨_, ⟨hs, hmin, -⟩, _, ⟨he, -, hmax⟩, -, hle, rfl, rfl⟩
        exact .inl ⟨startText, stopText, rfl, hminus, hs, he, hmin, hle, hmax⟩
      · rintro (⟨s, e, heq, hs, hstart, hstop, hmin, hle, hmax⟩ | ⟨hmem, -⟩)
        · have hparts : partition '-' (startText ++ '-' :: stopText) = (s, some e) := by
            rw [heq, partition_append hs]
          rw [hpartition, Prod.mk.injEq, Option.some_inj] at hparts
          obtain ⟨rfl, rfl⟩ := hparts
          exact ⟨start, ⟨hstart, hmin, hle.trans hmax⟩, stop, ⟨hstop, hmin.trans hle, hmax⟩, (),
            hle, rfl, rfl⟩
        · simp at hmem
    · rename_i fst hpartition
      have hminus : '-' ∉ base := not_mem_of_partition hpartition
      simp only [bind_eq_ok_iff, boundedInt_eq_ok_iff hminimum, pure_eq_ok_iff,
        Prod.mk.injEq]
      constructor
      · rintro ⟨_, ⟨hv, hmin, hmax⟩, rfl, rfl⟩
        exact .inr ⟨hminus, hv, rfl, hmin, hmax⟩
      · rintro (⟨_, _, rfl, -⟩ | ⟨-, hv, rfl, hmin, hmax⟩)
        · simp at hminus
        · exact ⟨start, ⟨hv, hmin, hmax⟩, rfl, rfl⟩

theorem cronRange_of_range (hminimum : 0 ≤ minimum) {startText stopText : List Char}
    {start stop a b : Int} (hminus : '-' ∉ startText) (hstart : parseInt startText = some start)
    (hstop : parseInt stopText = some stop)
    (h : cronRange (startText ++ '-' :: stopText) minimum maximum = .ok (a, b)) :
    a = start ∧ b = stop := by
  rcases (cronRange_eq_ok_iff hminimum).mp h with
    ⟨hstar, -⟩ | ⟨s, e, heq, hs, ha, hb, -⟩ | ⟨hmem, -⟩
  · cases List.append_eq_singleton_iff.mp hstar with
    | inl h => simp at h
    | inr h => simp at h
  · have hparts := partition_append hs e
    rw [← heq, partition_append hminus, Prod.mk.injEq, Option.some_inj] at hparts
    obtain ⟨rfl, rfl⟩ := hparts
    exact ⟨by simpa [hstart] using ha.symm, by simpa [hstop] using hb.symm⟩
  · simp at hmem

/-- A negative numeral is refused: what stands before its sign is no numeral. -/
theorem cronPartValues_ne_ok_of_minus (hminimum : 0 ≤ minimum) {v : Int}
    (hparse : parseInt part = some v) (hminus : '-' ∈ part) {values : List Int} :
    cronPartValues part minimum maximum ≠ .ok values := by
  intro h
  rw [cronPartValues, partition_of_not_mem (slash_not_mem hparse)] at h
  simp only [bind_eq_ok_iff, Prod.exists, cronRange_eq_ok_iff hminimum,
    pure_eq_ok_iff] at h
  obtain ⟨a, b, hrange, -⟩ := h
  rcases hrange with ⟨rfl, -⟩ | ⟨s, e, rfl, hs, ha, -⟩ | ⟨hmem, -⟩
  · simp [parseInt_star] at hparse
  · have hnone := parseInt_takeWhile_of_mem_minus hparse hminus
    have htake : (s ++ '-' :: e).takeWhile (· != '-') = s := (Prod.mk.inj (partition_append hs e)).1
    rw [htake, ha] at hnone
    simp at hnone
  · exact hmem hminus

/-- **An accepted part has one of the written forms**, and its values are the progression the form
names. -/
theorem exists_form_of_cronPartValues (hminimum : 0 ≤ minimum) (hle : minimum ≤ maximum)
    {values : List Int} (h : cronPartValues part minimum maximum = .ok values) :
    ∃ start stop step, PartForm minimum maximum part start stop step ∧ minimum ≤ start ∧
      start ≤ stop ∧ stop ≤ maximum ∧ 0 < step ∧ values = intRange start (stop + 1) step := by
  rw [cronPartValues] at h
  split at h
  · rename_i base stepText hpartition
    obtain ⟨rfl, -⟩ := eq_append_of_partition hpartition
    obtain ⟨step, hstep, h⟩ := bind_eq_ok_iff.mp h
    obtain ⟨hparse, hpos⟩ := positiveInt_eq_ok_iff.mp hstep
    split_ifs at h with hbase
    · simp only [bind_eq_ok_iff, boundedInt_eq_ok_iff hminimum,
        pure_eq_ok_iff] at h
      obtain ⟨start, ⟨hstart, hmin, hmax⟩, rfl⟩ := h
      exact ⟨start, maximum, step, .valueStep hbase.2 hstart hparse, hmin, hmax, le_rfl, hpos, rfl⟩
    · obtain ⟨⟨start, stop⟩, hrange, h⟩ := bind_eq_ok_iff.mp h
      obtain rfl := pure_eq_ok_iff.mp h
      rcases (cronRange_eq_ok_iff hminimum).mp hrange with
        ⟨rfl, rfl, rfl⟩ | ⟨s, e, rfl, hs, hstart, hstop, hmin, hse, hmax⟩ | ⟨hminus, hstart, -⟩
      · exact ⟨start, stop, step, .everyStep hparse, le_rfl, hle, le_rfl, hpos, rfl⟩
      · exact ⟨start, stop, step, .rangeStep hs hstart hstop hparse, hmin, hse, hmax, hpos, rfl⟩
      · refine absurd ⟨?_, hminus⟩ hbase
        rintro rfl
        simp [parseInt_star] at hstart
  · rename_i base hpartition
    obtain ⟨⟨start, stop⟩, hrange, h⟩ := bind_eq_ok_iff.mp h
    obtain rfl := pure_eq_ok_iff.mp h
    obtain rfl : base = part := by
      rw [partition_of_not_mem (not_mem_of_partition hpartition)] at hpartition
      exact (Prod.mk.inj hpartition).1.symm
    rcases (cronRange_eq_ok_iff hminimum).mp hrange with
      ⟨rfl, rfl, rfl⟩ | ⟨s, e, rfl, hs, hstart, hstop, hmin, hse, hmax⟩ |
        ⟨hminus, hstart, rfl, hmin, hmax⟩
    · exact ⟨start, stop, 1, .every, le_rfl, hle, le_rfl, one_pos, rfl⟩
    · exact ⟨start, stop, 1, .range hs hstart hstop, hmin, hse, hmax, one_pos, rfl⟩
    · exact ⟨start, start, 1, .value hminus hstart, hmin, le_rfl, hmax, one_pos, rfl⟩


/-- **A part in one of the written forms is read as that form**, when it is accepted. -/
theorem cronPartValues_of_form (hminimum : 0 ≤ minimum) {start stop step : Int}
    (form : PartForm minimum maximum part start stop step) {values : List Int}
    (h : cronPartValues part minimum maximum = .ok values) :
    values = intRange start (stop + 1) step := by
  have hslash : ∀ {startText stopText : List Char} {a b : Int}, parseInt startText = some a →
      parseInt stopText = some b → '/' ∉ startText ++ '-' :: stopText := by
    intro startText stopText a b ha hb
    simp [slash_not_mem ha, slash_not_mem hb]
  rw [cronPartValues] at h
  cases form with
  | every =>
    rw [partition_of_not_mem (by decide)] at h
    simp only [cronRange, if_true, pure_bind, pure_eq_ok_iff] at h
    exact h.symm
  | everyStep hparse =>
    rename_i stepText
    rw [show '*' :: '/' :: stepText = ['*'] ++ '/' :: stepText from rfl,
      partition_append (by decide)] at h
    simp only [bind_eq_ok_iff, positiveInt_eq_ok_iff] at h
    obtain ⟨m, ⟨hm, -⟩, h⟩ := h
    obtain rfl : m = step := by simpa [hm] using hparse
    simp only [cronRange, ne_eq, not_true_eq_false, false_and, if_false, if_true, pure_bind,
      pure_eq_ok_iff] at h
    exact h.symm
  | value hminus hparse =>
    rw [partition_of_not_mem (slash_not_mem hparse)] at h
    simp only [bind_eq_ok_iff, Prod.exists, cronRange_eq_ok_iff hminimum,
      pure_eq_ok_iff] at h
    obtain ⟨a, b, hrange, rfl⟩ := h
    rcases hrange with ⟨rfl, -⟩ | ⟨_, _, rfl, -⟩ | ⟨-, ha, rfl, -⟩
    · simp [parseInt_star] at hparse
    · simp at hminus
    · obtain rfl : a = start := by simpa [ha] using hparse
      rfl
  | valueStep hminus hparse hstep =>
    rename_i text stepText
    rw [partition_append (slash_not_mem hparse)] at h
    have hstar : text ≠ ['*'] := by
      rintro rfl
      simp [parseInt_star] at hparse
    simp only [bind_eq_ok_iff, positiveInt_eq_ok_iff, ne_eq, hstar, not_false_eq_true,
      hminus, and_self, if_true, boundedInt_eq_ok_iff hminimum, pure_eq_ok_iff] at h
    obtain ⟨m, ⟨hm, -⟩, a, ⟨ha, -⟩, rfl⟩ := h
    obtain rfl : m = step := by simpa [hm] using hstep
    obtain rfl : a = start := by simpa [ha] using hparse
    rfl
  | range hminus hstart hstop =>
    rw [partition_of_not_mem (hslash hstart hstop)] at h
    simp only [bind_eq_ok_iff, Prod.exists, pure_eq_ok_iff] at h
    obtain ⟨a, b, hrange, rfl⟩ := h
    obtain ⟨rfl, rfl⟩ := cronRange_of_range hminimum hminus hstart hstop hrange
    rfl
  | rangeStep hminus hstart hstop hstep =>
    rw [partition_append (hslash hstart hstop)] at h
    simp only [bind_eq_ok_iff, positiveInt_eq_ok_iff, ne_eq, List.mem_append, List.mem_cons,
      true_or, or_true, not_true_eq_false, and_false, if_false, Prod.exists,
      pure_eq_ok_iff] at h
    obtain ⟨m, ⟨hm, -⟩, a, b, hrange, rfl⟩ := h
    obtain rfl : m = step := by simpa [hm] using hstep
    obtain ⟨rfl, rfl⟩ := cronRange_of_range hminimum hminus hstart hstop hrange
    rfl

theorem mem_cronPartValues_iff (hminimum : 0 ≤ minimum) (hle : minimum ≤ maximum)
    {values : List Int} (h : cronPartValues part minimum maximum = .ok values) {v : Int} :
    v ∈ values ↔ Denotes minimum maximum part v := by
  constructor
  · intro hv
    obtain ⟨start, stop, step, form, hmin, -, hmax, hpos, rfl⟩ :=
      exists_form_of_cronPartValues hminimum hle h
    obtain ⟨i, hi, hlt⟩ := (mem_intRange hpos).mp hv
    exact ⟨start, stop, step, form, hmin, hmax, hpos, by omega, i, hi⟩
  · rintro ⟨start, stop, step, form, -, -, hpos, hv, i, hi⟩
    rw [cronPartValues_of_form hminimum form h, mem_intRange hpos]
    exact ⟨i, hi, by omega⟩

end PipelineScheduler

/-- A part that both schedulers accept has the same values in both. -/
theorem mem_cronPartValues_congr (hminimum : 0 ≤ minimum) {source pipeline : List Int}
    (hs : SourceScheduler.cronPartValues part minimum maximum = .ok source)
    (hp : PipelineScheduler.cronPartValues part minimum maximum = .ok pipeline) {v : Int} :
    v ∈ source ↔ v ∈ pipeline := by
  rcases SourceScheduler.cronPartValues_cases hs with
    ⟨rfl, rfl⟩ | ⟨stepText, step, rfl, hparse, -, rfl⟩ | ⟨w, hparse, hmin, hmax, rfl⟩
  · rw [PipelineScheduler.cronPartValues_of_form hminimum .every hp]
  · rw [PipelineScheduler.cronPartValues_of_form hminimum (.everyStep hparse) hp]
  · by_cases hminus : '-' ∈ part
    · -- `int` takes a sign in front, but the pipeline scheduler reads it as an empty range start.
      exact absurd hp (PipelineScheduler.cronPartValues_ne_ok_of_minus hminimum hparse hminus)
    · rw [PipelineScheduler.cronPartValues_of_form hminimum (.value hminus hparse) hp,
        mem_intRange_one, List.mem_singleton]
      omega

/-! ### One field -/

/-- The values of a list of parts are those of its parts. -/
theorem mem_flatten_of_mapM {f : List Char → Checked (List Int)} {parts : List (List Char)}
    {values : List (List Int)} (h : parts.mapM f = .ok values) {v : Int} :
    v ∈ values.flatten ↔ ∃ part ∈ parts, ∃ own, f part = .ok own ∧ v ∈ own := by
  rw [List.mem_flatten]
  constructor
  · rintro ⟨own, hown, hv⟩
    obtain ⟨part, hpart, hf⟩ := List.exists_mem_of_mem_mapM_eq_ok h hown
    exact ⟨part, hpart, own, hf, hv⟩
  · rintro ⟨part, hpart, own, hf, hv⟩
    obtain ⟨own', hown', hf'⟩ := List.exists_mem_of_mapM_eq_ok h hpart
    obtain rfl : own = own' := by simpa [hf] using hf'
    exact ⟨own, hown', hv⟩

namespace PipelineScheduler

/-- The pipeline scheduler reads of a field what the field stands for. -/
theorem mem_cronField_iff (hminimum : 0 ≤ minimum) (hle : minimum ≤ maximum) {text : List Char}
    {field : CronField} (h : cronField text minimum maximum = .ok field) {v : Int} :
    v ∈ field.values ↔ FieldDenotes minimum maximum text v := by
  simp only [cronField, bind_eq_ok_iff, pure_eq_ok_iff] at h
  obtain ⟨values, hvalues, rfl⟩ := h
  rw [mem_flatten_of_mapM hvalues, FieldDenotes]
  constructor
  · rintro ⟨part, hpart, own, hown, hv⟩
    exact ⟨part, hpart, (mem_cronPartValues_iff hminimum hle hown).mp hv⟩
  · rintro ⟨part, hpart, hv⟩
    obtain ⟨own, -, hown⟩ := List.exists_mem_of_mapM_eq_ok hvalues hpart
    exact ⟨part, hpart, own, hown, (mem_cronPartValues_iff hminimum hle hown).mpr hv⟩

theorem isStarBased_eq_false_iff {text : List Char} {field : CronField}
    (h : cronField text minimum maximum = .ok field) :
    field.isStarBased = false ↔ Restricted text := by
  simp only [cronField, bind_eq_ok_iff, pure_eq_ok_iff] at h
  obtain ⟨values, -, rfl⟩ := h
  rw [Restricted, ← List.isPrefixOf_iff_prefix, Bool.not_eq_true]

/-- An accepted field has a value. -/
theorem exists_mem_cronField (hminimum : 0 ≤ minimum) (hle : minimum ≤ maximum) {text : List Char}
    {field : CronField} (h : cronField text minimum maximum = .ok field) :
    ∃ v, FieldDenotes minimum maximum text v := by
  simp only [cronField, bind_eq_ok_iff, pure_eq_ok_iff] at h
  obtain ⟨values, hvalues, -⟩ := h
  obtain ⟨part, parts, hparts⟩ := List.exists_cons_of_ne_nil (List.splitOn_ne_nil ',' text)
  have hpart : part ∈ text.splitOn ',' := hparts ▸ List.mem_cons_self
  obtain ⟨own, -, hown⟩ := List.exists_mem_of_mapM_eq_ok hvalues hpart
  obtain ⟨start, stop, step, form, hmin, hse, hmax, hpos, -⟩ :=
    exists_form_of_cronPartValues hminimum hle hown
  exact ⟨start, part, hpart, start, stop, step, form, hmin, hmax, hpos, hse, 0, by simp⟩

end PipelineScheduler

/-- What a field stands for lies between its bounds. -/
theorem FieldDenotes.bounds {text : List Char} {v : Int} (h : FieldDenotes minimum maximum text v) :
    minimum ≤ v ∧ v ≤ maximum := by
  obtain ⟨part, -, start, stop, step, -, hmin, hmax, hpos, hv, i, rfl⟩ := h
  have hstep : 0 ≤ step * i := by positivity
  omega

/-- The source scheduler reads of a field that both accept what the field stands for. -/
theorem SourceScheduler.mem_cronValues_iff (hminimum : 0 ≤ minimum) (hle : minimum ≤ maximum)
    {text : List Char} {values : List Int} {field : PipelineScheduler.CronField}
    (hs : cronValues text minimum maximum = .ok values)
    (hp : PipelineScheduler.cronField text minimum maximum = .ok field) {v : Int} :
    v ∈ values ↔ FieldDenotes minimum maximum text v := by
  rw [← PipelineScheduler.mem_cronField_iff hminimum hle hp]
  simp only [cronValues, bind_eq_ok_iff, pure_eq_ok_iff] at hs
  simp only [PipelineScheduler.cronField, bind_eq_ok_iff, pure_eq_ok_iff] at hp
  obtain ⟨source, hsource, rfl⟩ := hs
  obtain ⟨pipeline, hpipeline, rfl⟩ := hp
  rw [mem_flatten_of_mapM hsource, mem_flatten_of_mapM hpipeline]
  constructor
  · rintro ⟨part, hpart, own, hown, hv⟩
    obtain ⟨other, -, hother⟩ := List.exists_mem_of_mapM_eq_ok hpipeline hpart
    exact ⟨part, hpart, other, hother, (mem_cronPartValues_congr hminimum hown hother).mp hv⟩
  · rintro ⟨part, hpart, other, hother, hv⟩
    obtain ⟨own, -, hown⟩ := List.exists_mem_of_mapM_eq_ok hsource hpart
    exact ⟨part, hpart, own, hown, (mem_cronPartValues_congr hminimum hown hother).mpr hv⟩

/-! ### An expression

An accepted expression has five fields, each read on its own. -/

theorem cronFieldsWith_eq_ok_iff {α : Type} {cronField : List Char → Int → Int → Checked α}
    {message detail expression : String} {fields : CronFields (List Char)} {read : CronFields α}
    (hfields : FieldTexts expression fields) :
    cronFieldsWith cronField message detail expression = .ok read ↔
      cronField fields.minute 0 59 = .ok read.minute ∧ cronField fields.hour 0 23 = .ok read.hour ∧
        cronField fields.day 1 31 = .ok read.day ∧ cronField fields.month 1 12 = .ok read.month ∧
        cronField fields.weekday 0 7 = .ok read.weekday := by
  rw [cronFieldsWith, hfields]
  simp only [bind_eq_ok_iff, pure_eq_ok_iff]
  constructor
  · rintro ⟨_, hminute, _, hhour, _, hday, _, hmonth, _, hweekday, rfl⟩
    exact ⟨hminute, hhour, hday, hmonth, hweekday⟩
  · rintro ⟨hminute, hhour, hday, hmonth, hweekday⟩
    exact ⟨_, hminute, _, hhour, _, hday, _, hmonth, _, hweekday, rfl⟩

theorem weekdayIn_eq_true_iff {weekday : Int} {values : List Int} :
    weekdayIn weekday values = true ↔ weekday ∈ values ∨ weekday = 0 ∧ (7 : Int) ∈ values := by
  simp [weekdayIn]

section

variable {expression : String} {fields : CronFields (List Char)} {source : CronFields (List Int)}
  {pipeline : CronFields PipelineScheduler.CronField}

/-- **The pipeline scheduler gives every accepted expression its standard meaning.** -/
theorem PipelineScheduler.cronMatches_iff (hfields : FieldTexts expression fields)
    (hp : cronFields expression = .ok pipeline) (t : Minute) :
    cronMatches t pipeline = true ↔ StandardMatch fields t := by
  obtain ⟨hminute, hhour, hday, hmonth, hweekday⟩ := (cronFieldsWith_eq_ok_iff hfields).mp hp
  have hdays := isStarBased_eq_false_iff hday
  have hweekdays := isStarBased_eq_false_iff hweekday
  simp only [cronMatches, StandardMatch, TimeMatch, WeekdayDenotes, ← hdays, ← hweekdays,
    ← mem_cronField_iff (by decide) (by decide) hminute,
    ← mem_cronField_iff (by decide) (by decide) hhour,
    ← mem_cronField_iff (by decide) (by decide) hday,
    ← mem_cronField_iff (by decide) (by decide) hmonth,
    ← mem_cronField_iff (by decide) (by decide) hweekday, dayMatches]
  cases pipeline.day.isStarBased with
  | true => simp [weekdayIn_eq_true_iff]; grind
  | false =>
    cases pipeline.weekday.isStarBased with
    | true => simp [weekdayIn_eq_true_iff]; grind
    | false => simp [weekdayIn_eq_true_iff]; grind

/-- The source scheduler asks every field to match, whatever is restricted. -/
theorem SourceScheduler.cronMatches_iff (hfields : FieldTexts expression fields)
    (hs : cronFields expression = .ok source)
    (hp : PipelineScheduler.cronFields expression = .ok pipeline) (t : Minute) :
    cronMatches t source = true ↔ TimeMatch fields t ∧ FieldDenotes 1 31 fields.day t.day ∧
      WeekdayDenotes fields.weekday (cronWeekday t) := by
  obtain ⟨hminute, hhour, hday, hmonth, hweekday⟩ := (cronFieldsWith_eq_ok_iff hfields).mp hs
  obtain ⟨hminute', hhour', hday', hmonth', hweekday'⟩ := (cronFieldsWith_eq_ok_iff hfields).mp hp
  simp only [cronMatches, TimeMatch, WeekdayDenotes,
    ← mem_cronValues_iff (by decide) (by decide) hminute hminute',
    ← mem_cronValues_iff (by decide) (by decide) hhour hhour',
    ← mem_cronValues_iff (by decide) (by decide) hday hday',
    ← mem_cronValues_iff (by decide) (by decide) hmonth hmonth',
    ← mem_cronValues_iff (by decide) (by decide) hweekday hweekday', Bool.and_eq_true,
    decide_eq_true_eq, weekdayIn_eq_true_iff]
  tauto

/-! ### The minutes of an expression -/

/-- Both schedulers give the standard answer at the minute. -/
def Agree (fields : CronFields (List Char)) (source : CronFields (List Int))
    (pipeline : CronFields PipelineScheduler.CronField) (t : Minute) : Prop :=
  (SourceScheduler.cronMatches t source = true ↔ StandardMatch fields t) ∧
    (PipelineScheduler.cronMatches t pipeline = true ↔ StandardMatch fields t)

/-- A minute on which only one of two restricted day fields matches. -/
def OneDayFieldMatches (fields : CronFields (List Char)) (t : Minute) : Prop :=
  Restricted fields.day ∧ Restricted fields.weekday ∧ TimeMatch fields t ∧
    ¬ (FieldDenotes 1 31 fields.day t.day ↔ WeekdayDenotes fields.weekday (cronWeekday t))

/-- The day fields exclude no day: every weekday is listed, and every day of the listed months. -/
def CoversEveryDay (fields : CronFields (List Char)) : Prop :=
  (∀ weekday : Int, 0 ≤ weekday → weekday < 7 → WeekdayDenotes fields.weekday weekday) ∧
    ∀ month day : Nat, FieldDenotes 1 12 fields.month month → 1 ≤ day → day ≤ longestMonth month →
      FieldDenotes 1 31 fields.day day

theorem agree_iff (hfields : FieldTexts expression fields)
    (hs : SourceScheduler.cronFields expression = .ok source)
    (hp : PipelineScheduler.cronFields expression = .ok pipeline) (t : Minute) :
    Agree fields source pipeline t ↔ ¬ OneDayFieldMatches fields t := by
  rw [Agree, SourceScheduler.cronMatches_iff hfields hs hp,
    PipelineScheduler.cronMatches_iff hfields hp, StandardMatch, OneDayFieldMatches]
  by_cases htime : TimeMatch fields t
  · by_cases hday : FieldDenotes 1 31 fields.day t.day
    · by_cases hweekday : WeekdayDenotes fields.weekday (cronWeekday t)
      · simp [htime, hday, hweekday]
      · simp [htime, hday, hweekday]
    · by_cases hweekday : WeekdayDenotes fields.weekday (cronWeekday t)
      · simp [htime, hday, hweekday]
      · simp [htime, hday, hweekday]
  · simp [htime]

/-- A weekday field names some day of the week. -/
theorem exists_weekday (hp : PipelineScheduler.cronFields expression = .ok pipeline)
    (hfields : FieldTexts expression fields) :
    ∃ weekday : Int, 0 ≤ weekday ∧ weekday < 7 ∧ WeekdayDenotes fields.weekday weekday := by
  obtain ⟨-, -, -, -, hweekday⟩ := (cronFieldsWith_eq_ok_iff hfields).mp hp
  obtain ⟨v, hv⟩ := PipelineScheduler.exists_mem_cronField (by decide) (by decide) hweekday
  obtain ⟨hmin, hmax⟩ := hv.bounds
  by_cases hseven : v = 7
  · exact ⟨0, le_rfl, by decide, .inr ⟨rfl, hseven ▸ hv⟩⟩
  · exact ⟨v, hmin, by omega, .inl hv⟩

/-- An accepted expression has an hour and a minute of the day, and a month. -/
theorem exists_time (hp : PipelineScheduler.cronFields expression = .ok pipeline)
    (hfields : FieldTexts expression fields) :
    ∃ minute hour month : Nat, minute < 60 ∧ hour < 24 ∧ (1 ≤ month ∧ month ≤ 12) ∧
      FieldDenotes 0 59 fields.minute minute ∧ FieldDenotes 0 23 fields.hour hour ∧
      FieldDenotes 1 12 fields.month month := by
  obtain ⟨hminute, hhour, -, hmonth, -⟩ := (cronFieldsWith_eq_ok_iff hfields).mp hp
  obtain ⟨a, ha⟩ := PipelineScheduler.exists_mem_cronField (by decide) (by decide) hminute
  obtain ⟨b, hb⟩ := PipelineScheduler.exists_mem_cronField (by decide) (by decide) hhour
  obtain ⟨c, hc⟩ := PipelineScheduler.exists_mem_cronField (by decide) (by decide) hmonth
  obtain ⟨hamin, hamax⟩ := ha.bounds
  obtain ⟨hbmin, hbmax⟩ := hb.bounds
  obtain ⟨hcmin, hcmax⟩ := hc.bounds
  lift a to Nat using hamin
  lift b to Nat using hbmin
  lift c to Nat using by omega
  exact ⟨a, b, c, by omega, by omega, by omega, ha, hb, hc⟩

/-- Two restricted day fields that match on the same days at every minute exclude no day. The first
of a month falls on every weekday in some year, so the weekday field cannot depend on the day. -/
theorem coversEveryDay_of_agree (hfields : FieldTexts expression fields)
    (hp : PipelineScheduler.cronFields expression = .ok pipeline)
    (hsame : ∀ t : Minute, TimeMatch fields t →
      (FieldDenotes 1 31 fields.day t.day ↔ WeekdayDenotes fields.weekday (cronWeekday t))) :
    CoversEveryDay fields := by
  obtain ⟨minute, hour, month, hminute, hhour, hmonth, hmem, hhmem, hmmem⟩ :=
    exists_time hp hfields
  have hfirst : ∀ weekday : Int, 0 ≤ weekday → weekday < 7 →
      (FieldDenotes 1 31 fields.day 1 ↔ WeekdayDenotes fields.weekday weekday) := by
    intro weekday hnonneg hlt
    have hlt' : ((weekday + 6) % 7).toNat < 7 := by omega
    obtain ⟨t, rfl, hday, rfl, rfl, hweekday⟩ := exists_minute_on hmonth hhour hminute hlt'
    have hcron : cronWeekday t = weekday := by
      rw [cronWeekday, hweekday]
      omega
    have h := hsame t ⟨hmem, hhmem, hmmem⟩
    rwa [hday, hcron] at h
  obtain ⟨weekday, hnonneg, hlt, hweekday⟩ := exists_weekday hp hfields
  have hone : FieldDenotes 1 31 fields.day 1 := (hfirst weekday hnonneg hlt).mpr hweekday
  have hall : ∀ weekday : Int, 0 ≤ weekday → weekday < 7 → WeekdayDenotes fields.weekday weekday :=
    fun weekday hnonneg hlt => (hfirst weekday hnonneg hlt).mp hone
  refine ⟨hall, fun month day hmonth hday hle => ?_⟩
  obtain ⟨hmin, hmax⟩ := hmonth.bounds
  have hbounds : 1 ≤ month ∧ month ≤ 12 := by omega
  obtain ⟨t, rfl, rfl, rfl, rfl⟩ := exists_minute_of_day hbounds ⟨hday, hle⟩ hhour hminute
  refine (hsame t ⟨hmem, hhmem, hmonth⟩).mpr (hall _ ?_ ?_)
  · unfold cronWeekday
    omega
  · unfold cronWeekday
    omega

/-- **Both schedulers give the standard answer exactly where no restricted day field is left out.**
At one minute that is so unless both day fields are restricted and just one of them matches. Over
all minutes it is so when a day field starts with a star, or when the day fields exclude no day. -/
theorem cron_agrees_iff (hfields : FieldTexts expression fields)
    (hs : SourceScheduler.cronFields expression = .ok source)
    (hp : PipelineScheduler.cronFields expression = .ok pipeline) :
    (∀ t, Agree fields source pipeline t ↔ ¬ OneDayFieldMatches fields t) ∧
      ((∀ t, Agree fields source pipeline t) ↔
        ¬ Restricted fields.day ∨ ¬ Restricted fields.weekday ∨ CoversEveryDay fields) := by
  refine ⟨agree_iff hfields hs hp, ?_⟩
  simp only [agree_iff hfields hs hp]
  constructor
  · intro h
    by_cases hday : Restricted fields.day
    · by_cases hweekday : Restricted fields.weekday
      · refine .inr (.inr (coversEveryDay_of_agree hfields hp fun t htime => ?_))
        by_contra hdiffer
        exact h t ⟨hday, hweekday, htime, hdiffer⟩
      · exact .inr (.inl hweekday)
    · exact .inl hday
  · rintro (hday | hweekday | ⟨hall, hdays⟩) t ⟨hd, hw, htime, hdiffer⟩
    · exact hday hd
    · exact hweekday hw
    · refine hdiffer (iff_of_true ?_ ?_)
      · exact hdays t.month t.day htime.2.2 t.day_bounds.1
          (t.day_bounds.2.trans (daysInMonth_le_longestMonth _ _))
      · refine hall _ ?_ ?_
        · unfold cronWeekday
          omega
        · unfold cronWeekday
          omega

end

/-- At midnight on the first of every month, the two schedulers agree. -/
theorem agree_firstOfMonth : ∃ source pipeline,
    SourceScheduler.cronFields "0 0 1 * *" = .ok source ∧
      PipelineScheduler.cronFields "0 0 1 * *" = .ok pipeline ∧
      ∀ t, Agree ⟨['0'], ['0'], ['1'], ['*'], ['*']⟩ source pipeline t := by
  have hfields : FieldTexts "0 0 1 * *" ⟨['0'], ['0'], ['1'], ['*'], ['*']⟩ := by
    unfold FieldTexts
    decide +kernel
  have hs : SourceScheduler.cronFields "0 0 1 * *" =
      .ok ⟨[0], [0], [1], intRange 1 13 1, intRange 0 8 1⟩ := by decide +kernel
  have hp : PipelineScheduler.cronFields "0 0 1 * *" =
      .ok ⟨⟨[0], false⟩, ⟨[0], false⟩, ⟨[1], false⟩, ⟨intRange 1 13 1, true⟩,
        ⟨intRange 0 8 1, true⟩⟩ := by decide +kernel
  refine ⟨_, _, hs, hp, (cron_agrees_iff hfields hs hp).2.mpr (.inr (.inl ?_))⟩
  exact not_not.mpr ⟨[], rfl⟩

/-! ### An expression on which they differ

At midnight of every thirteenth and of every Friday, for the pipeline scheduler; at midnight of
every Friday the thirteenth, for the source scheduler. -/

def thirteenthOrFriday : String := "0 0 13 * 5"

/-- Midnight of Tuesday, the thirteenth of January 2026. -/
def tuesdayThirteenth : Minute where
  year := 2026
  month := 1
  day := 13
  hour := 0
  minute := 0
  year_bounds := Minute.year2026
  month_bounds := Minute.january
  day_bounds := by decide
  hour_lt := Minute.hour0
  minute_lt := Minute.minute0

theorem not_cron_agrees : ∃ source pipeline,
    SourceScheduler.cronFields thirteenthOrFriday = .ok source ∧
      PipelineScheduler.cronFields thirteenthOrFriday = .ok pipeline ∧
      SourceScheduler.cronMatches tuesdayThirteenth source = false ∧
      PipelineScheduler.cronMatches tuesdayThirteenth pipeline = true :=
  ⟨⟨[0], [0], [13], intRange 1 13 1, [5]⟩,
    ⟨⟨[0], false⟩, ⟨[0], false⟩, ⟨[13], false⟩, ⟨intRange 1 13 1, true⟩, ⟨[5], false⟩⟩,
    by decide +kernel, by decide +kernel, by decide +kernel, by decide +kernel⟩

end FoundryLite.Schedules
