import FoundryLite.Library.Dict
import Mathlib.Data.String.Basic
import Mathlib.Data.Rat.Defs

/-!
# JSON values, and two equalities on them

A JSON document as a program holds it after decoding: integers and fractional numbers are kept
apart, and an object is an association list read through lookup, so that neither the storage
order of its members nor a shadowed member is part of its meaning.

Two equalities matter and they are not the same one.

* `Json.Same`: the two values are the same JSON document. Numbers compare by value, so `1` and
  `1.0` are the same number, and `true` is not a number.
* `Json.PyEq`: the two values compare equal in a language whose booleans *are* the integers `0`
  and `1`, so that `true` and `1` are equal at every depth.

Both are stated through one normal form, `Json.norm`, with a switch for the reading of numbers
(`Json.Reading`); the third setting keeps numbers as they are written, which is what a serialiser
that sorts keys makes of a value.
Being equality of normal forms they are equivalence relations for free, and on objects they are
memberwise (`Json.norm_obj_eq_iff`).

## Main results

* `Json.PyEq.of_same`: the document equality is the finer one.
* `Json.norm_obj_eq_iff`, `Json.norm_arr_eq_iff`: both are memberwise and itemwise.
-/

/-- A decoded JSON value. -/
inductive Json where
  | null
  | bool (b : Bool)
  | int (n : ℤ)
  | float (q : ℚ)
  | str (s : String)
  | arr (items : List Json)
  | obj (fields : List (String × Json))

namespace Json

/-! ### Decidable syntactic equality -/

mutual

/-- Syntactic equality: same constructors, same storage order. -/
def beq : Json → Json → Bool
  | null, null => true
  | bool a, bool b => a == b
  | int m, int n => m == n
  | float p, float q => p == q
  | str s, str t => s == t
  | arr xs, arr ys => beqItems xs ys
  | obj fs, obj gs => beqFields fs gs
  | _, _ => false

def beqItems : List Json → List Json → Bool
  | [], [] => true
  | x :: xs, y :: ys => beq x y && beqItems xs ys
  | _, _ => false

def beqFields : List (String × Json) → List (String × Json) → Bool
  | [], [] => true
  | (k, v) :: fs, (k', v') :: gs => k == k' && beq v v' && beqFields fs gs
  | _, _ => false

end

mutual

theorem beq_refl : ∀ j : Json, beq j j = true
  | null => rfl
  | bool _ => by simp [beq]
  | int _ => by simp [beq]
  | float _ => by simp [beq]
  | str _ => by simp [beq]
  | arr xs => by simpa [beq] using beqItems_refl xs
  | obj fs => by simpa [beq] using beqFields_refl fs

theorem beqItems_refl : ∀ xs : List Json, beqItems xs xs = true
  | [] => rfl
  | x :: xs => by simp [beqItems, beq_refl x, beqItems_refl xs]

theorem beqFields_refl : ∀ fs : List (String × Json), beqFields fs fs = true
  | [] => rfl
  | (k, v) :: fs => by simp [beqFields, beq_refl v, beqFields_refl fs]

end

mutual

theorem eq_of_beq : ∀ {a b : Json}, beq a b = true → a = b
  | null, b, h => by cases b <;> simp_all [beq]
  | bool _, b, h => by cases b <;> simp_all [beq]
  | int _, b, h => by cases b <;> simp_all [beq]
  | float _, b, h => by cases b <;> simp_all [beq]
  | str _, b, h => by cases b <;> simp_all [beq]
  | arr xs, b, h => by
    cases b with
    | arr ys => exact congrArg arr (eq_of_beqItems (by simpa [beq] using h))
    | _ => simp [beq] at h
  | obj fs, b, h => by
    cases b with
    | obj gs => exact congrArg obj (eq_of_beqFields (by simpa [beq] using h))
    | _ => simp [beq] at h

theorem eq_of_beqItems : ∀ {xs ys : List Json}, beqItems xs ys = true → xs = ys
  | [], [], _ => rfl
  | [], _ :: _, h => by simp [beqItems] at h
  | _ :: _, [], h => by simp [beqItems] at h
  | x :: xs, y :: ys, h => by
    obtain ⟨hx, hxs⟩ : beq x y = true ∧ beqItems xs ys = true := by simpa [beqItems] using h
    rw [eq_of_beq hx, eq_of_beqItems hxs]

theorem eq_of_beqFields : ∀ {fs gs : List (String × Json)}, beqFields fs gs = true → fs = gs
  | [], [], _ => rfl
  | [], _ :: _, h => by simp [beqFields] at h
  | _ :: _, [], h => by simp [beqFields] at h
  | (k, v) :: fs, (k', v') :: gs, h => by
    obtain ⟨⟨hk, hv⟩, hfs⟩ : (k = k' ∧ beq v v' = true) ∧ beqFields fs gs = true := by
      simpa [beqFields] using h
    rw [hk, eq_of_beq hv, eq_of_beqFields hfs]

end

instance : DecidableEq Json := fun a b =>
  decidable_of_iff (beq a b = true) ⟨eq_of_beq, fun h => h ▸ beq_refl a⟩

/-! ### The normal form -/

/-- How the numbers of a value are read. -/
inductive Reading where
  /-- As written: an integer, a fractional number and a boolean are three things. -/
  | text
  /-- By value: `1` and `1.0` are the same number, a boolean is not a number. -/
  | document
  /-- By value, and a boolean is the number `0` or `1`. -/
  | python

mutual

/-- The normal form of a value under a reading of its numbers; objects have increasing keys. -/
def norm (r : Reading) : Json → Json
  | null => null
  | bool b =>
    match r with
    | .python => float (if b then 1 else 0)
    | _ => bool b
  | int n =>
    match r with
    | .text => int n
    | _ => float n
  | float q => float q
  | str s => str s
  | arr items => arr (normItems r items)
  | obj fields => obj (Dict.canon (normFields r fields))

def normItems (r : Reading) : List Json → List Json
  | [] => []
  | x :: xs => norm r x :: normItems r xs

def normFields (r : Reading) : List (String × Json) → List (String × Json)
  | [] => []
  | (k, v) :: fs => (k, norm r v) :: normFields r fs

end

variable {r : Reading}

theorem normItems_eq_map (r : Reading) (xs : List Json) : normItems r xs = xs.map (norm r) := by
  induction xs with
  | nil => rfl
  | cons x xs ih => rw [normItems, ih, List.map_cons]

theorem normFields_eq_map (r : Reading) (fs : List (String × Json)) :
    normFields r fs = fs.map fun e => (e.1, norm r e.2) := by
  induction fs with
  | nil => rfl
  | cons e fs ih => rw [normFields, ih, List.map_cons]

@[simp]
theorem lookup_normFields (r : Reading) (fs : List (String × Json)) (k : String) :
    (normFields r fs).lookup k = (fs.lookup k).map (norm r) := by
  rw [normFields_eq_map, Dict.lookup_map_snd]

/-- Objects have one normal form exactly when their members do, key by key. -/
theorem norm_obj_eq_iff {fs gs : List (String × Json)} : norm r (obj fs) = norm r (obj gs) ↔
    ∀ k, (fs.lookup k).map (norm r) = (gs.lookup k).map (norm r) := by
  simp only [norm, obj.injEq, Dict.canon_eq_canon_iff, lookup_normFields]

/-- Arrays have one normal form exactly when their items do, position by position. -/
theorem norm_arr_eq_iff {xs ys : List Json} :
    norm r (arr xs) = norm r (arr ys) ↔ xs.map (norm r) = ys.map (norm r) := by
  simp only [norm, arr.injEq, normItems_eq_map]

mutual

/-- Reading booleans as numbers may be postponed until after normalising the document. -/
theorem norm_python_norm_document : ∀ j : Json, norm .python (norm .document j) = norm .python j
  | null => rfl
  | bool _ => rfl
  | int _ => rfl
  | float _ => rfl
  | str _ => rfl
  | arr xs => by simp only [norm, normItems_python_document xs]
  | obj fs => by
    refine norm_obj_eq_iff.mpr fun k => ?_
    rw [Dict.lookup_canon, ← lookup_normFields, ← lookup_normFields,
      normFields_python_document fs]

theorem normItems_python_document :
    ∀ xs : List Json, normItems .python (normItems .document xs) = normItems .python xs
  | [] => rfl
  | x :: xs => by simp only [normItems, norm_python_norm_document x, normItems_python_document xs]

theorem normFields_python_document : ∀ fs : List (String × Json),
    normFields .python (normFields .document fs) = normFields .python fs
  | [] => rfl
  | (k, v) :: fs => by
    simp only [normFields, norm_python_norm_document v, normFields_python_document fs]

end

mutual

/-- Normalising the text of a value once is enough. -/
theorem norm_text_norm_text : ∀ j : Json, norm .text (norm .text j) = norm .text j
  | null => rfl
  | bool _ => rfl
  | int _ => rfl
  | float _ => rfl
  | str _ => rfl
  | arr xs => by simp only [norm, normItems_text_text xs]
  | obj fs => by
    refine norm_obj_eq_iff.mpr fun k => ?_
    rw [Dict.lookup_canon, ← lookup_normFields, ← lookup_normFields, normFields_text_text fs]

theorem normItems_text_text :
    ∀ xs : List Json, normItems .text (normItems .text xs) = normItems .text xs
  | [] => rfl
  | x :: xs => by simp only [normItems, norm_text_norm_text x, normItems_text_text xs]

theorem normFields_text_text :
    ∀ fs : List (String × Json), normFields .text (normFields .text fs) = normFields .text fs
  | [] => rfl
  | (k, v) :: fs => by simp only [normFields, norm_text_norm_text v, normFields_text_text fs]

end

/-! ### The two equalities -/

/-- The two values are the same JSON document: numbers by value, booleans apart from numbers,
objects member by member. -/
def Same (a b : Json) : Prop := norm .document a = norm .document b

/-- The two values compare equal when `true` and `false` are the numbers `1` and `0`. -/
def PyEq (a b : Json) : Prop := norm .python a = norm .python b

instance (a b : Json) : Decidable (Same a b) := inferInstanceAs (Decidable (_ = _))

instance (a b : Json) : Decidable (PyEq a b) := inferInstanceAs (Decidable (_ = _))

@[refl]
theorem Same.refl (a : Json) : Same a a := rfl

theorem Same.symm {a b : Json} (h : Same a b) : Same b a := Eq.symm h

theorem Same.trans {a b c : Json} (h : Same a b) (h' : Same b c) : Same a c := Eq.trans h h'

/-- The document equality is the finer one. -/
theorem PyEq.of_same {a b : Json} (h : Same a b) : PyEq a b := by
  rw [PyEq, ← norm_python_norm_document a, ← norm_python_norm_document b,
    show norm .document a = norm .document b from h]

/-- Whether a value counts as true in a condition. -/
def isTruthy : Json → Bool
  | null => false
  | bool value => value
  | int value => value ≠ 0
  | float value => value ≠ 0
  | str value => value ≠ ""
  | arr items => !items.isEmpty
  | obj fields => !fields.isEmpty

example : PyEq (obj [("a", int 1), ("b", null)]) (obj [("b", null), ("a", bool true)]) := by
  decide

end Json
