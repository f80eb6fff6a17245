import FoundryLite.Mcp.JsonSchema

/-!
# What the validator of tool arguments accepts

A schema means what JSON Schema says: each keyword binds the values that it is about, wherever it stands.
The validator differs in two points. An integer is to it what was decoded as one, so that `1.0` is none.
And it reads the keywords on objects and arrays only beside a type. Apart from these it is exact, at any
depth and under any choice.

## Main results

* `accepts_iff_valid`: where every keyword on objects or arrays stands beside a type, the validator accepts
  a value exactly if it is valid, integers being the decoded ones.
* `not_accepts_iff_valid`: it is not exact otherwise.
-/

namespace FoundryLite.Mcp

open Json Actions

/-! ### The meaning of schemas -/

/-- The integers of JSON Schema: the numbers without a fraction. -/
def isIntegral : Json → Bool
  | .int _ => true
  | .float q => q.den = 1
  | _ => false

/-- The values that were decoded as integers. -/
def isDecodedInteger : Json → Bool
  | .int _ => true
  | _ => false

section

variable (isInteger : Json → Bool)

def HasType (value : Json) : SchemaType → Prop
  | .object => ∃ fields, value = .obj fields
  | .array => ∃ items, value = .arr items
  | .string => ∃ text, value = .str text
  | .integer => isInteger value = true
  | .number => ∃ number, numberOf value = some number
  | .boolean => ∃ truth, value = .bool truth
  | .null => value = .null

/-- The keywords that bind values of any kind, texts and numbers. -/
structure KeywordsValid (keywords : Keywords) (value : Json) : Prop where
  type : ∀ type ∈ keywords.type, HasType isInteger value type
  const : ∀ const ∈ keywords.const, Same value const.value
  enum : ∀ allowed ∈ keywords.enum, ∃ item ∈ allowed, Same value item.value
  minLength : ∀ minimum ∈ keywords.minLength, ∀ text, value = .str text → minimum ≤ text.length
  maxLength : ∀ maximum ∈ keywords.maxLength, ∀ text, value = .str text → text.length ≤ maximum
  minimum : ∀ minimum ∈ keywords.minimum, ∀ number, numberOf value = some number → minimum.number ≤ number
  maximum : ∀ maximum ∈ keywords.maximum, ∀ number, numberOf value = some number → number ≤ maximum.number

structure ObjectValid (keywords : Keywords) (names : List String) (fields : List (String × Json)) : Prop where
  required : ∀ name ∈ keywords.required, name ∈ fields.map Prod.fst
  additionalProperties : keywords.additionalProperties = false →
    ∀ name ∈ fields.map Prod.fst, name ∈ names

structure ArrayValid (keywords : Keywords) (items : List Json) : Prop where
  minItems : ∀ minimum ∈ keywords.minItems, minimum ≤ items.length
  maxItems : ∀ maximum ∈ keywords.maxItems, items.length ≤ maximum
  uniqueItems : keywords.uniqueItems = true → items.Pairwise fun a b => ¬ Same a b

mutual

/-- The value is valid under the schema. -/
def Valid (value : Json) : Schema → Prop
  | ⟨keywords, oneOf, properties, items⟩ =>
    KeywordsValid isInteger keywords value ∧ OneOfValid value oneOf ∧
    (∀ fields, value = .obj fields →
      ObjectValid keywords (properties.map Prod.fst) fields ∧ PropertiesValid fields properties) ∧
    ∀ values, value = .arr values → ArrayValid keywords values ∧ ItemsValid values items

def OneOfValid (value : Json) : Option (List Schema) → Prop
  | none => True
  | some choices => ExactlyOne value choices

def ExactlyOne (value : Json) : List Schema → Prop
  | [] => False
  | choice :: choices =>
    Valid value choice ∧ NoneValid value choices ∨ ¬ Valid value choice ∧ ExactlyOne value choices

def NoneValid (value : Json) : List Schema → Prop
  | [] => True
  | choice :: choices => ¬ Valid value choice ∧ NoneValid value choices

def PropertiesValid (fields : List (String × Json)) : List (String × Schema) → Prop
  | [] => True
  | (name, child) :: properties =>
    (∀ value ∈ fields.lookup name, Valid value child) ∧ PropertiesValid fields properties

def ItemsValid (values : List Json) : Option Schema → Prop
  | none => True
  | some child => ∀ value ∈ values, Valid value child

end

end

/-! ### Typed containers -/

/-- The keywords bind no object and no array. -/
structure Keywords.IsOpen (keywords : Keywords) : Prop where
  required : keywords.required = []
  additionalProperties : keywords.additionalProperties = true
  minItems : keywords.minItems = none
  maxItems : keywords.maxItems = none
  uniqueItems : keywords.uniqueItems = false

mutual

/-- A keyword on objects or arrays stands beside a type, in the schema and in the schemas that it holds. -/
def ContainersTyped : Schema → Prop
  | ⟨keywords, oneOf, properties, items⟩ =>
    (keywords.type = none → keywords.IsOpen ∧ properties = [] ∧ items = none) ∧
      OptionalTyped oneOf ∧ PropertiesTyped properties ∧ ItemsTyped items

def OptionalTyped : Option (List Schema) → Prop
  | none => True
  | some choices => ChoicesTyped choices

def ChoicesTyped : List Schema → Prop
  | [] => True
  | choice :: choices => ContainersTyped choice ∧ ChoicesTyped choices

def PropertiesTyped : List (String × Schema) → Prop
  | [] => True
  | (_, child) :: properties => ContainersTyped child ∧ PropertiesTyped properties

def ItemsTyped : Option Schema → Prop
  | none => True
  | some child => ContainersTyped child

end

/-! ### Keywords -/

@[simp]
theorem require_eq_ok_iff {passes : Prop} [Decidable passes] {path reason : String} {u : Unit} :
    require passes path reason = .ok u ↔ passes := by
  rw [require]
  split_ifs with h <;> simp [h]

theorem validateKeyword_eq_ok_iff {α : Type} {keyword : Option α} {validate : α → Validation} {u : Unit} :
    validateKeyword keyword validate = .ok u ↔ ∀ a ∈ keyword, validate a = .ok () := by
  cases keyword <;> simp [validateKeyword]

theorem matchesType_iff {value : Json} {type : SchemaType} :
    matchesType value type = true ↔ HasType isDecodedInteger value type := by
  cases type <;> cases value <;> simp [matchesType, HasType, isDecodedInteger, numberOf]

theorem jsonEqual_iff {a b : Json} (ha : Keyed a) (hb : Keyed b) : jsonEqual a b = true ↔ Same a b :=
  valuesEqual_iff_same a b ha hb

section

variable {keywords : Keywords} {value : Json} {path : String}

theorem validateKeywords_iff (hvalue : Keyed value) :
    (validateType keywords value path = .ok () ∧ validateConst keywords value path = .ok () ∧
      validateEnum keywords value path = .ok () ∧ validateString keywords value path = .ok () ∧
      validateNumericBounds keywords value path = .ok ()) ↔
    KeywordsValid isDecodedInteger keywords value := by
  have htype : validateType keywords value path = .ok () ↔
      ∀ type ∈ keywords.type, HasType isDecodedInteger value type := by
    simp only [validateType, validateKeyword_eq_ok_iff, require_eq_ok_iff, matchesType_iff]
  have hconst : validateConst keywords value path = .ok () ↔
      ∀ const ∈ keywords.const, Same value const.value := by
    simp only [validateConst, validateKeyword_eq_ok_iff, require_eq_ok_iff]
    exact forall₂_congr fun const _ => jsonEqual_iff hvalue const.keyed
  have henum : validateEnum keywords value path = .ok () ↔
      ∀ allowed ∈ keywords.enum, ∃ item ∈ allowed, Same value item.value := by
    simp only [validateEnum, validateKeyword_eq_ok_iff, require_eq_ok_iff, List.any_eq_true]
    exact forall₂_congr fun allowed _ =>
      exists_congr fun item => and_congr_right fun _ => jsonEqual_iff hvalue item.keyed
  have hstring : validateString keywords value path = .ok () ↔
      (∀ minimum ∈ keywords.minLength, ∀ text, value = .str text → minimum ≤ text.length) ∧
        ∀ maximum ∈ keywords.maxLength, ∀ text, value = .str text → text.length ≤ maximum := by
    cases value <;> simp [validateString, validateKeyword_eq_ok_iff]
  have hnumeric : validateNumericBounds keywords value path = .ok () ↔
      (∀ minimum ∈ keywords.minimum, ∀ number, numberOf value = some number → minimum.number ≤ number) ∧
        ∀ maximum ∈ keywords.maximum, ∀ number, numberOf value = some number → number ≤ maximum.number := by
    rw [validateNumericBounds]
    cases numberOf value <;> simp [validateKeyword_eq_ok_iff]
  rw [htype, hconst, henum, hstring, hnumeric]
  constructor
  · rintro ⟨htype, hconst, henum, ⟨hminLength, hmaxLength⟩, hminimum, hmaximum⟩
    exact ⟨htype, hconst, henum, hminLength, hmaxLength, hminimum, hmaximum⟩
  · intro h
    exact ⟨h.type, h.const, h.enum, ⟨h.minLength, h.maxLength⟩, h.minimum, h.maximum⟩

theorem validateObject_iff {fields : List (String × Json)} {names : List String} :
    (validateRequired keywords path fields = .ok () ∧ validateExtras keywords path fields names = .ok ()) ↔
      ObjectValid keywords names fields := by
  have hextras : Dict.sortedSet ((fields.map Prod.fst).filter (· ∉ names)) = [] ↔
      ∀ name ∈ fields.map Prod.fst, name ∈ names := by
    rw [List.eq_nil_iff_forall_not_mem]
    simp only [Dict.mem_sortedSet, List.mem_filter, decide_eq_true_iff, not_and, not_not]
  rw [validateRequired, List.forM_eq_ok_iff, validateExtras, require_eq_ok_iff, hextras,
    ← Bool.not_eq_false, ← imp_iff_not_or]
  simp only [require_eq_ok_iff]
  exact ⟨fun h => ⟨h.1, h.2⟩, fun h => ⟨h.required, h.additionalProperties⟩⟩

/-- No two items are the same document. -/
theorem hasDuplicate_iff {items : List Json} (hitems : KeyedItems items) :
    hasDuplicate items = false ↔ items.Pairwise fun a b => ¬ Same a b := by
  induction items with
  | nil => simp [hasDuplicate]
  | cons item items ih =>
    rw [hasDuplicate, Bool.or_eq_false_iff, ih hitems.2, List.pairwise_cons, List.any_eq_false]
    refine and_congr_left fun _ => forall₂_congr fun later hlater => not_congr ?_
    rw [jsonEqual_iff (hitems.2.of_mem hlater) hitems.1]
    exact ⟨Same.symm, Same.symm⟩

theorem validateArray_iff {items : List Json} (hitems : KeyedItems items) :
    (validateArrayBounds keywords path items = .ok () ∧ validateUniqueItems keywords path items = .ok ()) ↔
      ArrayValid keywords items := by
  simp only [validateArrayBounds, validateUniqueItems, Except.bind_eq_ok_iff, validateKeyword_eq_ok_iff,
    require_eq_ok_iff, hasDuplicate_iff hitems]
  constructor
  · rintro ⟨⟨_, hminItems, hmaxItems⟩, hunique⟩
    exact ⟨hminItems, hmaxItems, hunique⟩
  · exact fun h => ⟨⟨(), h.minItems, h.maxItems⟩, h.uniqueItems⟩

theorem Keywords.IsOpen.objectValid (h : keywords.IsOpen) (names : List String)
    (fields : List (String × Json)) : ObjectValid keywords names fields where
  required := by simp [h.required]
  additionalProperties := by simp [h.additionalProperties]

theorem Keywords.IsOpen.arrayValid (h : keywords.IsOpen) (items : List Json) : ArrayValid keywords items where
  minItems := by simp [h.minItems]
  maxItems := by simp [h.maxItems]
  uniqueItems := by simp [h.uniqueItems]

theorem seq_eq_ok_iff {first second : Validation} :
    (first >>= fun _ => second) = .ok () ↔ first = .ok () ∧ second = .ok () := by
  rw [Except.bind_eq_ok_iff]
  constructor
  · rintro ⟨_, hfirst, hsecond⟩
    exact ⟨hfirst, hsecond⟩
  · rintro ⟨hfirst, hsecond⟩
    exact ⟨(), hfirst, hsecond⟩

/-- A value of the type is an object or an array where the keywords on these are read. -/
theorem validateContainer_iff {names : List String} {onFields : List (String × Json) → Validation}
    {onItems : List Json → Validation} {P : List (String × Json) → Prop} {Q : List Json → Prop}
    (hvalue : Keyed value) (htype : ∀ type ∈ keywords.type, HasType isDecodedInteger value type)
    (hopen : keywords.type = none → keywords.IsOpen ∧ (∀ fields, P fields) ∧ ∀ items, Q items)
    (hfields : ∀ fields, KeyedFields fields → (onFields fields = .ok () ↔ P fields))
    (hitems : ∀ items, KeyedItems items → (onItems items = .ok () ↔ Q items)) :
    validateContainer keywords value path names onFields onItems = .ok () ↔
      (∀ fields, value = .obj fields → ObjectValid keywords names fields ∧ P fields) ∧
        ∀ items, value = .arr items → ArrayValid keywords items ∧ Q items := by
  cases hkeyword : keywords.type with
  | none =>
    obtain ⟨hopen, hP, hQ⟩ := hopen hkeyword
    have hpasses : validateContainer keywords value path names onFields onItems = .ok () := by
      simp [validateContainer, hkeyword]
    exact iff_of_true hpasses ⟨fun fields _ => ⟨hopen.objectValid names fields, hP fields⟩,
      fun items _ => ⟨hopen.arrayValid items, hQ items⟩⟩
  | some type =>
    have hhas := htype type hkeyword
    cases type with
    | object =>
      obtain ⟨fields, rfl⟩ := hhas
      simp only [validateContainer, hkeyword, seq_eq_ok_iff]
      rw [← and_assoc, validateObject_iff, hfields fields hvalue.2]
      simp
    | array =>
      obtain ⟨items, rfl⟩ := hhas
      simp only [validateContainer, hkeyword, seq_eq_ok_iff]
      rw [← and_assoc, validateArray_iff hvalue, hitems items hvalue]
      simp
    | string =>
      obtain ⟨text, rfl⟩ := hhas
      simp [validateContainer, hkeyword]
    | integer => cases value <;> simp [HasType, isDecodedInteger, validateContainer, hkeyword] at hhas ⊢
    | number => cases value <;> simp [HasType, numberOf, validateContainer, hkeyword] at hhas ⊢
    | boolean =>
      obtain ⟨truth, rfl⟩ := hhas
      simp [validateContainer, hkeyword]
    | null =>
      obtain rfl := hhas
      simp [validateContainer, hkeyword]

end

/-! ### Schemas -/

theorem isOk_iff {validation : Validation} : validation.isOk = true ↔ validation = .ok () := by
  cases validation <;> simp [Except.isOk, Except.toBool]

mutual

/-- The validator accepts what is valid, by recursion on the schema. -/
theorem validate_iff : ∀ (schema : Schema) (value : Json) (path : String), ContainersTyped schema →
    Keyed value → (validateMcpJsonSchema value path schema = .ok () ↔ Valid isDecodedInteger value schema)
  | ⟨keywords, oneOf, properties, items⟩, value, path, htyped, hvalue => by
    obtain ⟨hbare, hchoices, hproperties, hitems⟩ := htyped
    have honeOf := validateOneOf_iff oneOf value path hchoices hvalue
    have hfields := fun fields => validateProperties_iff properties fields path hproperties
    have harray := fun values => validateArrayItems_iff items values path hitems
    have hkeywords := @validateKeywords_iff keywords value path hvalue
    have hnone : keywords.type = none → keywords.IsOpen ∧
        (∀ fields, PropertiesValid isDecodedInteger fields properties) ∧
          ∀ values, ItemsValid isDecodedInteger values items := by
      intro htype
      obtain ⟨hopen, rfl, rfl⟩ := hbare htype
      exact ⟨hopen, fun _ => trivial, fun _ => trivial⟩
    rw [validateMcpJsonSchema, Valid, ← honeOf]
    simp only [seq_eq_ok_iff]
    constructor
    · rintro ⟨hone, htype, hconst, henum, hstring, hnumeric, hcontainer⟩
      have hvalid := hkeywords.mp ⟨htype, hconst, henum, hstring, hnumeric⟩
      exact ⟨hvalid, hone, (validateContainer_iff hvalue hvalid.type hnone hfields harray).mp hcontainer⟩
    · rintro ⟨hvalid, hone, hcontainer⟩
      obtain ⟨htype, hconst, henum, hstring, hnumeric⟩ := hkeywords.mpr hvalid
      exact ⟨hone, htype, hconst, henum, hstring, hnumeric,
        (validateContainer_iff hvalue hvalid.type hnone hfields harray).mpr hcontainer⟩

theorem validateOneOf_iff : ∀ (oneOf : Option (List Schema)) (value : Json) (path : String),
    OptionalTyped oneOf → Keyed value →
      (validateOneOf value path oneOf = .ok () ↔ OneOfValid isDecodedInteger value oneOf)
  | none, _, _, _, _ => iff_of_true rfl trivial
  | some choices, value, path, htyped, hvalue => by
    rw [validateOneOf, require_eq_ok_iff, OneOfValid]
    exact (matchCount_iff choices value path htyped hvalue).2

/-- None of the choices matches, or just one. -/
theorem matchCount_iff : ∀ (choices : List Schema) (value : Json) (path : String), ChoicesTyped choices →
    Keyed value → (matchCount value path choices = 0 ↔ NoneValid isDecodedInteger value choices) ∧
      (matchCount value path choices = 1 ↔ ExactlyOne isDecodedInteger value choices)
  | [], _, _, _, _ => ⟨iff_of_true rfl trivial, iff_of_false (by simp [matchCount]) id⟩
  | choice :: choices, value, path, htyped, hvalue => by
    have hchoice := isOk_iff.trans (validate_iff choice value path htyped.1 hvalue)
    obtain ⟨hnone, hone⟩ := matchCount_iff choices value path htyped.2 hvalue
    rw [matchCount, NoneValid, ExactlyOne, ← hchoice, ← hnone, ← hone]
    by_cases hok : (validateMcpJsonSchema value path choice).isOk = true <;> simp [hok]

theorem validateProperties_iff : ∀ (properties : List (String × Schema)) (fields : List (String × Json))
    (path : String), PropertiesTyped properties → KeyedFields fields →
      (validateProperties fields path properties = .ok () ↔
        PropertiesValid isDecodedInteger fields properties)
  | [], _, _, _, _ => iff_of_true rfl trivial
  | (name, child) :: properties, fields, path, htyped, hfields => by
    have hrest := validateProperties_iff properties fields path htyped.2 hfields
    cases hvalue : fields.lookup name with
    | none => simp [validateProperties, PropertiesValid, hvalue, hrest]
    | some value =>
      have hkeyed := hfields.of_mem (Dict.mem_of_lookup_eq_some hvalue)
      have hchild := validate_iff child value (path ++ "." ++ name) htyped.1 hkeyed
      simp only [validateProperties, PropertiesValid, hvalue]
      rw [seq_eq_ok_iff, hchild, hrest]
      simp

theorem validateArrayItems_iff : ∀ (items : Option Schema) (values : List Json) (path : String),
    ItemsTyped items → KeyedItems values →
      (validateArrayItems values path items = .ok () ↔ ItemsValid isDecodedInteger values items)
  | none, _, _, _, _ => iff_of_true rfl trivial
  | some child, values, path, htyped, hvalues => by
    rw [validateArrayItems, List.forM_eq_ok_iff, ItemsValid]
    constructor
    · intro h value hmem
      obtain ⟨index, hindex⟩ := List.mem_iff_getElem?.mp hmem
      exact (validate_iff child value _ htyped (hvalues.of_mem hmem)).mp
        (h (value, index) (List.mem_zipIdx_iff_getElem?.mpr hindex))
    · rintro h ⟨value, index⟩ hentry
      have hmem : value ∈ values := List.mem_iff_getElem?.mpr ⟨index, List.mem_zipIdx_iff_getElem?.mp hentry⟩
      exact (validate_iff child value _ htyped (hvalues.of_mem hmem)).mpr (h value hmem)

end

/-! ### The law -/

/-- **Where every keyword on objects or arrays stands beside a type, the validator accepts a value exactly
if it is valid**, integers being the decoded ones. -/
theorem accepts_iff_valid {schema : Schema} (htyped : ContainersTyped schema) (value : KeyedValue)
    (path : String) : validateMcpJsonSchema value.value path schema = .ok () ↔
      Valid isDecodedInteger value.value schema :=
  validate_iff schema value.value path htyped value.keyed

def integerSchema : Schema := ⟨{ type := some .integer }, none, [], none⟩

/-- A list of integers or an object with one. -/
def choiceSchema : Schema :=
  ⟨{}, some [⟨{ type := some .array }, none, [], some integerSchema⟩,
    ⟨{ type := some .object, required := ["limit"] }, none, [("limit", integerSchema)], none⟩], [], none⟩

theorem accepts_iff_valid_choice : Valid isDecodedInteger (.obj [("limit", .int 2)]) choiceSchema := by
  have hopen : ({} : Keywords).IsOpen := ⟨rfl, rfl, rfl, rfl, rfl⟩
  have htyped : ContainersTyped choiceSchema := by
    simp [choiceSchema, integerSchema, ContainersTyped, OptionalTyped, ChoicesTyped, PropertiesTyped,
      ItemsTyped, hopen]
  exact (accepts_iff_valid htyped ⟨.obj [("limit", .int 2)], by simp [Keyed, KeyedFields]⟩ "$").mp
    (isOk_iff.mp (by decide +kernel))

def namedSchema : Schema := ⟨{ required := ["name"] }, none, [], none⟩

/-- An integral number is refused as no integer; and without a type, a required property may be missing. -/
theorem not_accepts_iff_valid :
    (Valid isIntegral (.float 1) integerSchema ∧ validateMcpJsonSchema (.float 1) "$" integerSchema ≠ .ok ()) ∧
      validateMcpJsonSchema (.obj []) "$" namedSchema = .ok () ∧ ¬ Valid isIntegral (.obj []) namedSchema := by
  have hkeywords : KeywordsValid isIntegral { type := some .integer } (.float 1) := by
    constructor <;> simp [HasType, isIntegral]
  refine ⟨⟨⟨hkeywords, trivial, by simp, by simp⟩, isOk_iff.not.mp (by decide +kernel)⟩, rfl, ?_⟩
  rintro ⟨-, -, hobject, -⟩
  exact absurd ((hobject [] rfl).1.required "name" List.mem_cons_self) List.not_mem_nil

end FoundryLite.Mcp
