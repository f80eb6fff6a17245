import Mathlib.Data.List.DropRight

/-!
# Text as the standard library of the source treats it

Whitespace in the sense of Python's `str.isspace` and `str.strip`: the ASCII controls that count
as space, the Unicode separators, and the two information separators that `str.split` knows. And the
replacement of every occurrence of a text, from left to right.
-/

namespace Text

/-- The characters `str.strip` removes. -/
def isSpace (c : Char) : Bool :=
  let n := c.toNat
  (9 ≤ n && n ≤ 13) || (28 ≤ n && n ≤ 32) || n == 0x85 || n == 0xa0 || n == 0x1680 ||
    (0x2000 ≤ n && n ≤ 0x200a) || n == 0x2028 || n == 0x2029 || n == 0x202f || n == 0x205f ||
    n == 0x3000

def stripChars (chars : List Char) : List Char := (chars.dropWhile isSpace).rdropWhile isSpace

/-- `str.strip`. -/
def strip (text : String) : String := String.ofList (stripChars text.toList)

/-- A text that is empty once stripped. -/
def isBlank (text : String) : Bool := text.toList.all isSpace

theorem dropWhile_stripChars (chars : List Char) :
    (stripChars chars).dropWhile isSpace = stripChars chars := by
  rw [List.dropWhile_eq_self_iff]
  intro hpos
  have hkept : stripChars chars <+: chars.dropWhile isSpace := List.rdropWhile_prefix _ _
  rw [hkept.getElem hpos]
  exact List.dropWhile_get_zero_not _ _ (hpos.trans_le hkept.length_le)

@[simp]
theorem stripChars_stripChars (chars : List Char) :
    stripChars (stripChars chars) = stripChars chars := by
  rw [stripChars, dropWhile_stripChars]
  exact List.rdropWhile_idempotent _ _

@[simp]
theorem strip_strip (text : String) : strip (strip text) = strip text := by
  rw [strip, strip, String.toList_ofList, stripChars_stripChars]

/-- Replace every occurrence, and pass over `skipped` characters of the last one first. -/
def replaceFrom (old new : List Char) : ℕ → List Char → List Char
  | _, [] => []
  | skipped + 1, _ :: chars => replaceFrom old new skipped chars
  | 0, c :: chars =>
    if old <+: c :: chars then new ++ replaceFrom old new (old.length - 1) chars
    else c :: replaceFrom old new 0 chars

/-- `str.replace`, for a text that is not empty. -/
def replace (old new chars : List Char) : List Char := replaceFrom old new 0 chars

theorem replaceFrom_length {old new chars : List Char} :
    replaceFrom old new chars.length chars = [] := by
  induction chars with
  | nil => rfl
  | cons c chars ih => exact ih

/-- One occurrence at the end, whose first character occurs nowhere before. -/
theorem replace_append_self {c : Char} {old new before : List Char} (h : c ∉ before) :
    replace (c :: old) new (before ++ c :: old) = before ++ new := by
  induction before with
  | nil =>
    rw [List.nil_append, List.nil_append, replace, replaceFrom, if_pos List.prefix_rfl]
    rw [List.length_cons, Nat.add_sub_cancel, replaceFrom_length, List.append_nil]
  | cons b before ih =>
    obtain ⟨hne, hrest⟩ := List.ne_and_not_mem_of_not_mem_cons h
    have hnot : ¬ c :: old <+: b :: (before ++ c :: old) := fun hinitial =>
      hne (List.cons_prefix_cons.mp hinitial).1
    rw [List.cons_append, List.cons_append, replace, replaceFrom, if_neg hnot]
    exact congrArg (b :: ·) (ih hrest)

end Text
