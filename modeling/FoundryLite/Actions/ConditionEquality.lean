import FoundryLite.Actions.ConditionValues

/-!
# The equality of condition values

The comparison of two values recurses over lists and mappings, and reads numbers by value. Over values
whose mappings bind no key twice, as decoded ones do not, it is the equality of JSON documents: what it
coerces is the number that an integer or a fractional number is, and nothing else. So it is an
equivalence.

## Main results

* `valuesEqual_iff_same`: two values are equal exactly if they are the same document.
* `valuesEqual_equivalence`: the equality is an equivalence, by value on numbers and on the texts of
  decimals where they are typed, and no truth value is equal to a number.
-/

namespace FoundryLite.Actions

open Json

/-! ### Values -/

mutual

/-- No mapping in the value binds a key twice. -/
def Keyed : Json → Prop
  | .arr items => KeyedItems items
  | .obj fields => (fields.map Prod.fst).Nodup ∧ KeyedFields fields
  | _ => True

def KeyedItems : List Json → Prop
  | [] => True
  | item :: items => Keyed item ∧ KeyedItems items

def KeyedFields : List (String × Json) → Prop
  | [] => True
  | (_, value) :: fields => Keyed value ∧ KeyedFields fields

end

/-- A value as the program has it: its mappings are dictionaries. -/
structure KeyedValue where
  value : Json
  keyed : Keyed value

theorem KeyedFields.of_mem {fields : List (String × Json)} (h : KeyedFields fields) {key : String}
    {value : Json} (hmem : (key, value) ∈ fields) : Keyed value := by
  induction fields with
  | nil => cases hmem
  | cons field fields ih =>
    rcases List.mem_cons.mp hmem with rfl | hmem
    · exact h.1
    · exact ih h.2 hmem

theorem KeyedItems.of_mem {items : List Json} (h : KeyedItems items) {item : Json} (hmem : item ∈ items) :
    Keyed item := by
  induction items with
  | nil => cases hmem
  | cons _ items ih =>
    rcases List.mem_cons.mp hmem with rfl | hmem
    · exact h.1
    · exact ih h.2 hmem

/-! ### Mappings -/

/-- Of two lists of distinct keys, neither longer than the other, one holds the other's keys only if it
holds no more. -/
theorem mem_keys_of_subset {fields others : List (String × Json)} (hnodup : (fields.map Prod.fst).Nodup)
    (hlength : fields.length = others.length)
    (hsubset : ∀ key ∈ fields.map Prod.fst, key ∈ others.map Prod.fst) {key : String}
    (hkey : key ∈ others.map Prod.fst) : key ∈ fields.map Prod.fst := by
  have hsubperm : (fields.map Prod.fst).Subperm (others.map Prod.fst) := List.subperm_of_subset hnodup hsubset
  have hperm := hsubperm.perm_of_length_le (by simp [hlength])
  exact hperm.mem_iff.mpr hkey

theorem mem_keys_iff_lookup {fields : List (String × Json)} {key : String} :
    key ∈ fields.map Prod.fst ↔ ∃ value, fields.lookup key = some value := by
  rw [← Option.isSome_iff_exists, List.lookup_isSome_iff]
  simp

/-- Mappings are the same document exactly if they have as many keys and the members of one are the
same documents as those of the other. -/
theorem same_obj_iff {fields others : List (String × Json)} (hfields : (fields.map Prod.fst).Nodup)
    (hothers : (others.map Prod.fst).Nodup) : Same (.obj fields) (.obj others) ↔
      fields.length = others.length ∧ ∀ key value, (key, value) ∈ fields →
        ∃ other, others.lookup key = some other ∧ Same value other := by
  have hkeys : ∀ {fields others : List (String × Json)},
      (∀ key, (fields.lookup key).map (Json.norm .document) = (others.lookup key).map (Json.norm .document)) →
        ∀ key ∈ fields.map Prod.fst, key ∈ others.map Prod.fst := by
    intro fields others h key hkey
    obtain ⟨value, hvalue⟩ := mem_keys_iff_lookup.mp hkey
    have hlookup := h key
    rw [hvalue, Option.map_some, eq_comm, Option.map_eq_some_iff] at hlookup
    obtain ⟨other, hother, -⟩ := hlookup
    exact mem_keys_iff_lookup.mpr ⟨other, hother⟩
  rw [Same, norm_obj_eq_iff]
  constructor
  · intro h
    have hperm : (fields.map Prod.fst).Perm (others.map Prod.fst) :=
      (List.perm_ext_iff_of_nodup hfields hothers).mpr fun key =>
        ⟨hkeys h key, hkeys (fun key => (h key).symm) key⟩
    refine ⟨by simpa using hperm.length_eq, fun key value hmem => ?_⟩
    have hlookup := h key
    rw [Dict.lookup_eq_some_of_mem hfields hmem, Option.map_some, eq_comm, Option.map_eq_some_iff] at hlookup
    obtain ⟨other, hother, hsame⟩ := hlookup
    exact ⟨other, hother, hsame.symm⟩
  · rintro ⟨hlength, hmembers⟩ key
    cases hvalue : fields.lookup key with
    | some value =>
      obtain ⟨other, hother, hsame⟩ := hmembers key value (Dict.mem_of_lookup_eq_some hvalue)
      rw [hother, Option.map_some, Option.map_some]
      exact congrArg some hsame
    | none =>
      cases hother : others.lookup key with
      | none => rfl
      | some other =>
        have hsubset : ∀ key ∈ fields.map Prod.fst, key ∈ others.map Prod.fst := by
          intro key hkey
          obtain ⟨value, hvalue⟩ := mem_keys_iff_lookup.mp hkey
          obtain ⟨other, hother, -⟩ := hmembers key value (Dict.mem_of_lookup_eq_some hvalue)
          exact mem_keys_iff_lookup.mpr ⟨other, hother⟩
        obtain ⟨value, hvalue'⟩ := mem_keys_iff_lookup.mp
          (mem_keys_of_subset hfields hlength hsubset (mem_keys_iff_lookup.mpr ⟨other, hother⟩))
        rw [hvalue] at hvalue'
        cases hvalue'

/-! ### The comparison -/

/-- A number is equal to what is the same number. -/
theorem numberOf_eq_some_iff {right : Json} {q : ℚ} :
    numberOf right = some q ↔ Same (.float q) right := by
  cases right <;> simp [numberOf, Same, Json.norm, eq_comm]

mutual

/-- **Two values are equal exactly if they are the same document.** -/
theorem valuesEqual_iff_same : ∀ a b : Json, Keyed a → Keyed b → (valuesEqual a b = true ↔ Same a b)
  | .null, b, _, _ => by cases b <;> simp [valuesEqual, Same, Json.norm]
  | .bool _, b, _, _ => by cases b <;> simp [valuesEqual, Same, Json.norm]
  | .str _, b, _, _ => by cases b <;> simp [valuesEqual, Same, Json.norm]
  | .int n, b, _, _ => by
    rw [valuesEqual, decide_eq_true_iff, numberOf_eq_some_iff]
    rfl
  | .float q, b, _, _ => by rw [valuesEqual, decide_eq_true_iff, numberOf_eq_some_iff]
  | .arr items, b, ha, hb => by
    cases b with
    | arr items' =>
      rw [valuesEqual, itemsEqual_iff items items' ha hb, Same, Json.norm, Json.norm, arr.injEq]
    | null => simp [valuesEqual, Same, Json.norm]
    | bool b => simp [valuesEqual, Same, Json.norm]
    | int n => simp [valuesEqual, Same, Json.norm]
    | float q => simp [valuesEqual, Same, Json.norm]
    | str s => simp [valuesEqual, Same, Json.norm]
    | obj fields => simp [valuesEqual, Same, Json.norm]
  | .obj fields, b, ha, hb => by
    cases b with
    | obj others =>
      rw [valuesEqual, Bool.and_eq_true, beq_iff_eq, fieldsEqual_iff fields others ha.2 hb.2,
        same_obj_iff ha.1 hb.1]
    | null => simp [valuesEqual, Same, Json.norm]
    | bool b => simp [valuesEqual, Same, Json.norm]
    | int n => simp [valuesEqual, Same, Json.norm]
    | float q => simp [valuesEqual, Same, Json.norm]
    | str s => simp [valuesEqual, Same, Json.norm]
    | arr items => simp [valuesEqual, Same, Json.norm]

theorem itemsEqual_iff : ∀ items items' : List Json, KeyedItems items → KeyedItems items' →
    (itemsEqual items items' = true ↔ normItems .document items = normItems .document items')
  | [], [], _, _ => by simp [itemsEqual]
  | [], _ :: _, _, _ => by simp [itemsEqual, normItems]
  | _ :: _, [], _, _ => by simp [itemsEqual, normItems]
  | item :: items, item' :: items', h, h' => by
    rw [itemsEqual, Bool.and_eq_true, valuesEqual_iff_same item item' h.1 h'.1,
      itemsEqual_iff items items' h.2 h'.2, normItems, normItems, List.cons.injEq, Same]

theorem fieldsEqual_iff : ∀ fields others : List (String × Json), KeyedFields fields → KeyedFields others →
    (fieldsEqual fields others = true ↔ ∀ key value, (key, value) ∈ fields →
      ∃ other, others.lookup key = some other ∧ Same value other)
  | [], _, _, _ => by simp [fieldsEqual]
  | (key, value) :: fields, others, h, h' => by
    rw [fieldsEqual, Bool.and_eq_true, fieldsEqual_iff fields others h.2 h']
    have hhead : (match others.lookup key with
        | some other => valuesEqual value other
        | none => false) = true ↔ ∃ other, others.lookup key = some other ∧ Same value other := by
      cases hother : others.lookup key with
      | none => simp
      | some other =>
        simp only [Option.some.injEq, exists_eq_left']
        exact valuesEqual_iff_same value other h.1 (h'.of_mem (Dict.mem_of_lookup_eq_some hother))
    refine (and_congr_left' hhead).trans ?_
    constructor
    · rintro ⟨hfirst, hrest⟩ key' value' hmem
      rcases List.mem_cons.mp hmem with heq | hmem
      · obtain ⟨rfl, rfl⟩ := Prod.mk.inj heq
        exact hfirst
      · exact hrest key' value' hmem
    · intro hall
      exact ⟨hall key value List.mem_cons_self, fun key' value' hmem =>
        hall key' value' (List.mem_cons_of_mem _ hmem)⟩

end

/-- **The equality of condition values is an equivalence**, which takes numbers by value, the texts of typed
decimals too, and holds between no truth value and a number. -/
theorem valuesEqual_equivalence :
    (Equivalence fun a b : KeyedValue => valuesEqual a.value b.value = true) ∧
    (∀ a b p q, numberOf a = some p → numberOf b = some q → (valuesEqual a b = true ↔ p = q)) ∧
    (∀ d e : FiniteDecimal, compareDecimalValues .eq (.str d.text) (.str e.text) = true ↔ d.number = e.number) ∧
    ∀ truth a p, numberOf a = some p → valuesEqual (.bool truth) a = false ∧
      valuesEqual a (.bool truth) = false := by
  refine ⟨⟨fun a => ?_, fun {a b} h => ?_, fun {a b c} h h' => ?_⟩, fun a b p q ha hb => ?_, fun d e => ?_,
    fun truth a p ha => ?_⟩
  · exact (valuesEqual_iff_same _ _ a.keyed a.keyed).mpr (Same.refl _)
  · exact (valuesEqual_iff_same _ _ b.keyed a.keyed).mpr
      ((valuesEqual_iff_same _ _ a.keyed b.keyed).mp h).symm
  · exact (valuesEqual_iff_same _ _ a.keyed c.keyed).mpr
      (((valuesEqual_iff_same _ _ a.keyed b.keyed).mp h).trans
        ((valuesEqual_iff_same _ _ b.keyed c.keyed).mp h'))
  · cases a with
    | int n =>
      obtain rfl := Option.some.inj ha
      simp [valuesEqual, hb, eq_comm]
    | float r =>
      obtain rfl := Option.some.inj ha
      simp [valuesEqual, hb, eq_comm]
    | null => cases ha
    | bool b => cases ha
    | str s => cases ha
    | arr items => cases ha
    | obj fields => cases ha
  · simp [compareDecimalValues, compareDecimalCollectionOperation, compareDecimalScalars]
  · cases a with
    | int n => simp [valuesEqual, numberOf]
    | float r => simp [valuesEqual, numberOf]
    | null => cases ha
    | bool b => cases ha
    | str s => cases ha
    | arr items => cases ha
    | obj fields => cases ha

end FoundryLite.Actions
