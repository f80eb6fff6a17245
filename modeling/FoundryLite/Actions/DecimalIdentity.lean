import FoundryLite.Library.DecimalForm
import FoundryLite.Library.JsonText
import FoundryLite.ScalarValues
import FoundryLite.Serialiser

/-!
# The identities of decimals

An enumeration constraint compares values by canonical texts. The text of a number is made of its decimal,
as it was written, with the zeros at the end of its digits taken into the exponent; every zero has one
text. Decimals of any length have the same text exactly if they are the same number.

## Main results

* `decimalText_value`: a decimal is the number that its text spells.
* `decimalIdentity_eq_iff`: decimals have one text exactly if they are one number.
* `enumContains_iff`, `hasDuplicates_iff`: what this means for membership and for duplicates.
* `constraintIdentity_eq_iff`: the law for the accepted values of a numeric parameter.
-/

namespace FoundryLite.Actions

open ScalarValues JsonText

/-! ### Decimals of texts -/

/-- The coefficient that digits with a point make, and how many of them stand behind the point. -/
def decimalMantissa (chars : List Char) : Option (ℕ × ℕ) :=
  let (whole, fraction) := Text.partition '.' chars
  match whole, fraction with
  | [], none => none
  | [], some digits => (digitsOf digits).map fun n => (n, digits.length)
  | whole, none => (digitsOf whole).map fun n => (n, 0)
  | whole, some [] => (digitsOf whole).map fun n => (n, 0)
  | whole, some digits => do
    let n ← digitsOf whole
    let m ← digitsOf digits
    return (n * 10 ^ digits.length + m, digits.length)

/-- The decimal of a text that matches `_DECIMAL_NUMBER_PATTERN`. -/
def decimalText (text : String) : Option Decimal := do
  let (sign, rest) := splitSign text.toList
  let (digits, power) := Text.partition 'e' (rest.map fun c => if c = 'E' then 'e' else c)
  let (coefficient, places) ← decimalMantissa digits
  match power with
  | none => return ⟨decide (sign < 0), coefficient, -(places : ℤ)⟩
  | some power =>
    let (powerSign, powerDigits) := splitSign power
    let exponent ← digitsOf powerDigits
    return ⟨decide (sign < 0), coefficient, powerSign * exponent - places⟩

/-- The decimals that can be built, `MAX_PREC`, `MAX_EMAX` and `MIN_ETINY` of the decimal module. -/
def isExact (d : Decimal) : Bool :=
  let length := (Decimal.digitsOf d.coefficient).length
  length ≤ 999999999999999999 && d.exponent + length - 1 ≤ 999999999999999999 &&
    -1999999999999999997 ≤ d.exponent

/-- `Decimal(text)`, where it raises nothing. -/
def decimalOf (text : String) : Option Decimal := (decimalText text).filter isExact

/-- `is_finite_decimal`. -/
def isFiniteDecimal : Json → Bool
  | .str text => (decimalOf text).isSome
  | _ => false

/-- `Decimal(str(n))`. -/
def intDecimal (n : ℤ) : Decimal := ⟨decide (n < 0), n.natAbs, 0⟩

/-! ### Identities -/

/-- The digits of a coefficient, whose last one comes first, as they are written. -/
def digitChars (digits : List ℕ) : List Char := digits.reverse.map Nat.digitChar

/-- `_decimal_identity`. -/
def decimalIdentity (d : Decimal) : String :=
  let (digits, exponent) := Decimal.dropZeros (Decimal.digitsOf d.coefficient) d.exponent
  if digits.all (· = 0) then "decimal:0"
  else String.ofList ("decimal:".toList ++ (if d.isNegative then '1' else '0') :: ':' ::
    (digitChars digits ++ ':' :: intToken exponent))

/-- The text forms of values, with `json.dumps` of the identities of other values. -/
structure IdentityTexts extends Serialiser where
  jsonIdentity : Json → String

section

variable (texts : IdentityTexts) (dataType : String)

def decimalIdentityTypes : List String := ["integer", "long", "float"]

/-- The decimal of a value that is compared as one. -/
def constraintDecimal (value : Json) : Option Decimal :=
  match value with
  | .str text => if dataType = "decimal" then decimalOf text else none
  | .int n => if dataType ∈ decimalIdentityTypes then some (intDecimal n) else none
  | .float _ => if dataType ∈ decimalIdentityTypes then decimalText (texts.repr value) else none
  | _ => none

def constraintIdentity (value : Json) : String :=
  (constraintDecimal texts dataType value).elim (texts.jsonIdentity value) decimalIdentity

def enumContains (values : List Json) (value : Json) : Bool :=
  values.any fun candidate =>
    constraintIdentity texts dataType candidate = constraintIdentity texts dataType value

/-- Whether `_validate_enum` finds a value twice. -/
def hasDuplicates (values : List Json) : Bool := ¬ (values.map (constraintIdentity texts dataType)).Nodup

/-- The number of a value that a numeric parameter of the type accepts: a text that is a finite decimal, or
a number. A float is the number that its text spells. -/
def acceptedNumber (value : Json) : Option ℚ :=
  match value with
  | .str text => if dataType = "decimal" ∧ isFiniteDecimal value = true then decimalNumeral text else none
  | .int n => if dataType ∈ decimalIdentityTypes then some n else none
  | .float _ => if dataType ∈ decimalIdentityTypes then decimalNumeral (texts.repr value) else none
  | _ => none

end

/-! ### The number of a decimal -/

theorem mantissa_eq (chars : List Char) : mantissa chars =
    (decimalMantissa chars).map fun entry => (entry.1 : ℚ) / 10 ^ entry.2 := by
  rw [mantissa, decimalMantissa]
  obtain ⟨whole, fraction⟩ := Text.partition '.' chars
  cases whole with
  | nil =>
    cases fraction with
    | none => rfl
    | some digits => cases hdigits : digitsOf digits <;> simp [hdigits]
  | cons c whole =>
    cases fraction with
    | none => cases hwhole : digitsOf (c :: whole) <;> simp [hwhole]
    | some digits =>
      cases digits with
      | nil => cases hwhole : digitsOf (c :: whole) <;> simp [hwhole]
      | cons d digits =>
        cases hwhole : digitsOf (c :: whole) with
        | none => simp [hwhole]
        | some n =>
          cases hdigits : digitsOf (d :: digits) with
          | none => simp [hwhole, hdigits]
          | some m =>
            have hten : (10 : ℚ) ^ (d :: digits).length ≠ 0 := pow_ne_zero _ (by norm_num)
            simp only [hwhole, hdigits, Option.bind_eq_bind, Option.bind_some, Option.pure_def,
              Option.map_some, Option.some.injEq]
            push_cast
            field_simp

theorem sign_value (text : List Char) : ((splitSign text).1 : ℚ) =
    if decide ((splitSign text).1 < 0) = true then -1 else 1 := by
  have hcases : (splitSign text).1 = -1 ∨ (splitSign text).1 = 1 := by
    rw [splitSign.eq_def]
    split <;> simp
  rcases hcases with h | h <;> simp [h]

/-- **A decimal is the number that its text spells.** -/
theorem decimalText_value (text : String) : (decimalText text).map Decimal.value = decimalNumeral text := by
  have hten : (10 : ℚ) ≠ 0 := by norm_num
  rw [decimalText, decimalNumeral]
  have hsign := sign_value text.toList
  rcases hsigned : splitSign text.toList with ⟨sign, rest⟩
  rw [hsigned] at hsign
  simp only at hsign ⊢
  obtain ⟨digits, power⟩ := Text.partition 'e' (rest.map fun c => if c = 'E' then 'e' else c)
  simp only
  rw [mantissa_eq]
  cases hmantissa : decimalMantissa digits with
  | none => rfl
  | some entry =>
    obtain ⟨coefficient, places⟩ := entry
    cases power with
    | none =>
      simp only [Option.bind_eq_bind, Option.bind_some, Option.pure_def, Option.map_some, Option.some.injEq,
        Decimal.value, ← hsign]
      rw [zpow_neg, zpow_natCast]
      field_simp
    | some power =>
      rcases hpower : splitSign power with ⟨powerSign, powerDigits⟩
      cases hexponent : digitsOf powerDigits with
      | none => simp [hpower, hexponent]
      | some exponent =>
        simp only [hpower, hexponent, Option.bind_eq_bind, Option.bind_some, Option.pure_def, Option.map_some,
          Option.some.injEq, Decimal.value, ← hsign]
        rw [zpow_sub₀ hten, zpow_natCast]
        field_simp

theorem intDecimal_value (n : ℤ) : (intDecimal n).value = n := by
  rw [intDecimal, Decimal.value]
  rcases lt_or_ge n 0 with hn | hn
  · have habs : (n.natAbs : ℚ) = -n := by
      rw [Nat.cast_natAbs, abs_of_neg hn]
      push_cast
      rfl
    simp [hn, habs]
  · have habs : (n.natAbs : ℚ) = n := by
      rw [Nat.cast_natAbs, abs_of_nonneg hn]
    simp [not_lt.mpr hn, habs]

/-! ### Texts of normal forms -/

/-- The text of a normal form. -/
def formText : Option (Bool × List ℕ × ℤ) → List Char
  | none => ['0']
  | some (isNegative, digits, exponent) =>
    (if isNegative then '1' else '0') :: ':' :: (digitChars digits ++ ':' :: intToken exponent)

theorem all_zero_iff (d : Decimal) :
    (Decimal.dropZeros (Decimal.digitsOf d.coefficient) d.exponent).1.all (· = 0) = true ↔
      d.coefficient = 0 := by
  constructor
  · intro hall
    by_contra hne
    obtain ⟨m, k, hm, -, hdrop⟩ := Decimal.exists_dropZeros d.coefficient hne d.exponent
    rw [hdrop, Decimal.digitsOf_of_not_dvd hm] at hall
    have hhead := List.all_eq_true.mp hall (m % 10) List.mem_cons_self
    exact hm (Nat.dvd_of_mod_eq_zero (by simpa using hhead))
  · intro hzero
    rw [hzero]
    rfl

theorem decimalIdentity_eq (d : Decimal) :
    decimalIdentity d = String.ofList ("decimal:".toList ++ formText d.form) := by
  rw [decimalIdentity, Decimal.form]
  have hall := all_zero_iff d
  by_cases hzero : d.coefficient = 0
  · rw [if_pos hzero]
    simp only [hall.mpr hzero, if_true]
    rfl
  · rw [if_neg hzero]
    have hnot := hall.not.mpr hzero
    simp only [hnot]
    rfl

theorem digitChar_injective :
    ∀ m < 10, ∀ n < 10, Nat.digitChar m = Nat.digitChar n → m = n := by
  decide

theorem map_digitChar_injective : ∀ {digits digits' : List ℕ}, (∀ d ∈ digits, d < 10) →
    (∀ d ∈ digits', d < 10) → digits.map Nat.digitChar = digits'.map Nat.digitChar → digits = digits'
  | [], [], _, _, _ => rfl
  | [], _ :: _, _, _, h => by cases h
  | _ :: _, [], _, _, h => by cases h
  | _ :: _, _ :: _, hlt, hlt', h => by
    obtain ⟨hhead, htail⟩ := List.cons.inj h
    rw [digitChar_injective _ (hlt _ List.mem_cons_self) _ (hlt' _ List.mem_cons_self) hhead,
      map_digitChar_injective (fun d hd => hlt d (List.mem_cons_of_mem _ hd))
        (fun d hd => hlt' d (List.mem_cons_of_mem _ hd)) htail]

theorem digitChar_ne_colon {n : ℕ} (h : n < 10) : Nat.digitChar n ≠ ':' := by
  revert n
  decide

theorem colon_notMem_intToken (n : ℤ) : ':' ∉ intToken n := by
  intro h
  have hdigit : ∀ m : ℕ, ':' ∉ Nat.toDigits 10 m := fun m hmem => absurd (isDigit_of_mem hmem) (by decide)
  cases n with
  | ofNat m => exact hdigit m h
  | negSucc m =>
    rcases List.mem_cons.mp h with heq | h
    · exact absurd heq (by decide)
    · exact hdigit _ h

theorem lt_ten_of_mem {n digit : ℕ} (h : digit ∈ Decimal.digitsOf n) : digit < 10 := by
  rw [Decimal.digitsOf] at h
  split_ifs at h with hn
  · rw [List.mem_singleton.mp h]
    decide
  · exact Nat.digits_lt_base (by decide) h

theorem lt_ten_of_form {d : Decimal} {isNegative : Bool} {digits : List ℕ} {exponent : ℤ}
    (h : d.form = some (isNegative, digits, exponent)) : ∀ digit ∈ digits, digit < 10 := by
  rw [Decimal.form] at h
  split_ifs at h with hzero
  obtain ⟨m, k, -, -, hdrop⟩ := Decimal.exists_dropZeros d.coefficient hzero d.exponent
  rw [hdrop, Option.some.injEq, Prod.mk.injEq, Prod.mk.injEq] at h
  obtain ⟨-, rfl, -⟩ := h
  exact fun digit hdigit => lt_ten_of_mem hdigit

/-- A normal form can be read off its text. -/
theorem formText_injective {d e : Decimal} (h : formText d.form = formText e.form) : d.form = e.form := by
  cases hd : d.form with
  | none =>
    cases he : e.form with
    | none => rfl
    | some form =>
      obtain ⟨isNegative, digits, exponent⟩ := form
      rw [hd, he] at h
      cases (List.cons.inj h).2
  | some form =>
    obtain ⟨isNegative, digits, exponent⟩ := form
    cases he : e.form with
    | none =>
      rw [hd, he] at h
      cases (List.cons.inj h).2
    | some form' =>
      obtain ⟨isNegative', digits', exponent'⟩ := form'
      have hdigits := lt_ten_of_form hd
      have hdigits' := lt_ten_of_form he
      rw [hd, he] at h
      have hsign : isNegative = isNegative' := by
        have hhead := (List.cons.inj h).1
        cases isNegative <;> cases isNegative' <;> first | rfl | exact absurd hhead (by decide)
      have hcolon : ∀ {digits : List ℕ}, (∀ digit ∈ digits, digit < 10) → ':' ∉ digitChars digits := by
        intro digits hlt hmem
        obtain ⟨digit, hdigit, hchar⟩ := List.mem_map.mp hmem
        exact digitChar_ne_colon (hlt digit (List.mem_reverse.mp hdigit)) hchar
      obtain ⟨hchars, -, htoken⟩ := (List.append_cons_inj_of_notMem (hcolon hdigits)
        (colon_notMem_intToken exponent)).mp (List.cons.inj (List.cons.inj h).2).2
      have hreverse := map_digitChar_injective (fun digit hdigit => hdigits digit (List.mem_reverse.mp hdigit))
        (fun digit hdigit => hdigits' digit (List.mem_reverse.mp hdigit)) hchars
      rw [hsign, List.reverse_injective hreverse, intToken_injective htoken]

/-! ### The law -/

/-- **Decimals have one identity exactly if they are one number.** -/
theorem decimalIdentity_eq_iff (d e : Decimal) : decimalIdentity d = decimalIdentity e ↔ d.value = e.value := by
  rw [decimalIdentity_eq, decimalIdentity_eq, ← Decimal.form_eq_iff]
  constructor
  · intro h
    exact formText_injective (List.append_cancel_left (String.ofList_injective h))
  · intro h
    rw [h]

section

variable {texts : IdentityTexts} {dataType : String}

/-- What is compared as a decimal is accepted, and compared by its number. -/
theorem constraintDecimal_value (value : Json) :
    (constraintDecimal texts dataType value).map Decimal.value = acceptedNumber texts dataType value := by
  cases value with
  | str text =>
    rw [constraintDecimal, acceptedNumber, isFiniteDecimal]
    by_cases htype : dataType = "decimal"
    · rw [if_pos htype]
      cases hdecimal : decimalOf text with
      | none => simp
      | some d =>
        have htext : decimalText text = some d := (Option.filter_eq_some_iff.mp hdecimal).1
        rw [if_pos ⟨htype, rfl⟩, ← decimalText_value, htext]
    · rw [if_neg htype, if_neg fun h => htype h.1]
      rfl
  | int n =>
    rw [constraintDecimal, acceptedNumber]
    split_ifs with htype
    · rw [Option.map_some, intDecimal_value]
    · rfl
  | float q =>
    rw [constraintDecimal, acceptedNumber]
    split_ifs with htype
    · exact decimalText_value _
    · rfl
  | null => rfl
  | bool b => rfl
  | arr items => rfl
  | obj fields => rfl

theorem identity_of_accepted {value : Json} {p : ℚ} (h : acceptedNumber texts dataType value = some p) :
    ∃ d : Decimal, d.value = p ∧ constraintIdentity texts dataType value = decimalIdentity d := by
  rw [← constraintDecimal_value, Option.map_eq_some_iff] at h
  obtain ⟨d, hd, hvalue⟩ := h
  exact ⟨d, hvalue, by rw [constraintIdentity, hd, Option.elim_some]⟩

theorem identities_eq_iff {v w : Json} {p q : ℚ} (hv : acceptedNumber texts dataType v = some p)
    (hw : acceptedNumber texts dataType w = some q) :
    constraintIdentity texts dataType v = constraintIdentity texts dataType w ↔ p = q := by
  obtain ⟨d, rfl, hd⟩ := identity_of_accepted hv
  obtain ⟨e, rfl, he⟩ := identity_of_accepted hw
  rw [hd, he, decimalIdentity_eq_iff]

/-- A value is in an enumeration exactly if a number of the enumeration is the same. -/
theorem enumContains_iff {values : List Json} {value : Json} {p : ℚ}
    (hvalues : ∀ candidate ∈ values, (acceptedNumber texts dataType candidate).isSome = true)
    (hvalue : acceptedNumber texts dataType value = some p) : enumContains texts dataType values value = true ↔
      ∃ candidate ∈ values, acceptedNumber texts dataType candidate = some p := by
  rw [enumContains, List.any_eq_true]
  refine exists_congr fun candidate => and_congr_right fun hcandidate => ?_
  obtain ⟨q, hq⟩ := Option.isSome_iff_exists.mp (hvalues candidate hcandidate)
  rw [decide_eq_true_iff, identities_eq_iff hq hvalue, hq, Option.some.injEq]

/-- An enumeration has a duplicate exactly if its numbers are not distinct. -/
theorem hasDuplicates_iff {values : List Json}
    (hvalues : ∀ candidate ∈ values, (acceptedNumber texts dataType candidate).isSome = true) :
    hasDuplicates texts dataType values = true ↔
      ¬ (values.map (acceptedNumber texts dataType)).Nodup := by
  rw [hasDuplicates, decide_eq_true_iff, not_iff_not, List.nodup_iff_pairwise_ne,
    List.nodup_iff_pairwise_ne, List.pairwise_map, List.pairwise_map]
  refine List.Pairwise.iff_of_mem fun {v w} hv hw => ?_
  obtain ⟨p, hp⟩ := Option.isSome_iff_exists.mp (hvalues v hv)
  obtain ⟨q, hq⟩ := Option.isSome_iff_exists.mp (hvalues w hw)
  rw [Ne, identities_eq_iff hp hq, hp, hq, Ne, Option.some.injEq]

end

/-- **The accepted values of a numeric parameter have one identity exactly if they are one number**: so an
enumeration contains the numbers that it spells, and repeats one exactly if it spells it twice. -/
theorem constraintIdentity_eq_iff (texts : IdentityTexts) (dataType : String) :
    (∀ v w p q, acceptedNumber texts dataType v = some p → acceptedNumber texts dataType w = some q →
      (constraintIdentity texts dataType v = constraintIdentity texts dataType w ↔ p = q)) ∧
    ∀ values, (∀ candidate ∈ values, (acceptedNumber texts dataType candidate).isSome = true) →
      (∀ value p, acceptedNumber texts dataType value = some p →
        (enumContains texts dataType values value = true ↔
          ∃ candidate ∈ values, acceptedNumber texts dataType candidate = some p)) ∧
      (hasDuplicates texts dataType values = true ↔
        ¬ (values.map (acceptedNumber texts dataType)).Nodup) :=
  ⟨fun _ _ _ _ => identities_eq_iff, fun _ hvalues =>
    ⟨fun _ _ => enumContains_iff hvalues, hasDuplicates_iff hvalues⟩⟩

def sampleIdentityTexts : IdentityTexts := ⟨⟨fun _ => "", fun _ => ""⟩, fun _ => ""⟩

/-- Two texts of one decimal. -/
theorem constraintIdentity_eq_iff_trailingZero :
    constraintIdentity sampleIdentityTexts "decimal" (.str "1.50") =
      constraintIdentity sampleIdentityTexts "decimal" (.str "+15e-1") :=
  ((constraintIdentity_eq_iff sampleIdentityTexts "decimal").1 _ _ (3 / 2) (3 / 2) (by decide +kernel)
    (by decide +kernel)).mpr rfl

end FoundryLite.Actions
