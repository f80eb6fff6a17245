import FoundryLite.Library.Text
import Mathlib.Data.Nat.Digits.Defs

/-!
# Numerals, fields of a text and arithmetic progressions

How the standard library of the source reads an integer out of a text (`int`), splits a text
(`str.split`, `str.partition`), and counts (`range`). A text is its list of characters here.

What a reader of such texts relies on is which characters a numeral can hold: a sign only in
front, and no separator anywhere (`not_mem_of_parseInt`, `parseInt_eq_none_of_mem_minus`).
-/

namespace Text

/-- `str.split` without a separator: the maximal runs of characters that are not space. -/
def splitFields (chars : List Char) : List (List Char) :=
  (chars.splitOnP isSpace).filter (!·.isEmpty)

/-- `str.partition`: what stands before the first `sep`, and what stands after it. -/
def partition (sep : Char) (chars : List Char) : List Char × Option (List Char) :=
  (chars.takeWhile (· != sep), (chars.dropWhile (· != sep)).tail?)

/-- The digit zero of every script with decimal digits. The other nine digits follow it. -/
def decimalZeros : List Nat :=
  [0x30, 0x660, 0x6f0, 0x7c0, 0x966, 0x9e6, 0xa66, 0xae6, 0xb66, 0xbe6, 0xc66, 0xce6, 0xd66, 0xde6,
   0xe50, 0xed0, 0xf20, 0x1040, 0x1090, 0x17e0, 0x1810, 0x1946, 0x19d0, 0x1a80, 0x1a90, 0x1b50,
   0x1bb0, 0x1c40, 0x1c50, 0xa620, 0xa8d0, 0xa900, 0xa9d0, 0xa9f0, 0xaa50, 0xabf0, 0xff10, 0x104a0,
   0x10d30, 0x11066, 0x110f0, 0x11136, 0x111d0, 0x112f0, 0x11450, 0x114d0, 0x11650, 0x116c0,
   0x11730, 0x118e0, 0x11950, 0x11c50, 0x11d50, 0x11da0, 0x11f50, 0x16a60, 0x16ac0, 0x16b50,
   0x1d7ce, 0x1d7d8, 0x1d7e2, 0x1d7ec, 0x1d7f6, 0x1e140, 0x1e2f0, 0x1e4f0, 0x1e950, 0x1fbf0]

/-- `unicodedata.decimal`. -/
def decimalDigit (c : Char) : Option Nat :=
  (decimalZeros.find? fun digit => digit ≤ c.toNat && c.toNat < digit + 10).map (c.toNat - ·)

/-- The longest numeral `int` reads, in digits. -/
def maxDigits : Nat := 4300

/-- A numeral without a sign: digits, with single underscores between them. -/
def parseNat (chars : List Char) : Option Nat :=
  let groups := chars.splitOn '_'
  let digits := groups.flatten
  if groups.any List.isEmpty || !digits.all (fun c => (decimalDigit c).isSome) then none
  else if maxDigits < digits.length then none
  else some (Nat.ofDigits 10 (digits.filterMap decimalDigit).reverse)

/-- `int` on a text. -/
def parseInt (chars : List Char) : Option Int :=
  match stripChars chars with
  | '-' :: rest => (parseNat rest).map fun n : Nat => -(n : Int)
  | '+' :: rest => (parseNat rest).map fun n : Nat => (n : Int)
  | rest => (parseNat rest).map fun n : Nat => (n : Int)

/-! ### Stripping -/

theorem stripChars_eq_nil {chars : List Char} (h : ∀ c ∈ chars, isSpace c = true) :
    stripChars chars = [] := by
  have hdrop : chars.dropWhile isSpace = [] := List.dropWhile_eq_nil_iff.mpr h
  rw [stripChars, hdrop, List.rdropWhile_nil]

/-- A text is what `str.strip` leaves of it between two runs of space. -/
theorem exists_stripChars (chars : List Char) :
    ∃ before after, chars = before ++ stripChars chars ++ after ∧
      (∀ c ∈ before, isSpace c = true) ∧ ∀ c ∈ after, isSpace c = true := by
  refine ⟨chars.takeWhile isSpace, (chars.dropWhile isSpace).rtakeWhile isSpace, ?_, ?_, ?_⟩
  · rw [stripChars, List.append_assoc, List.rdropWhile_append_rtakeWhile,
      List.takeWhile_append_dropWhile]
  · intro c hc
    exact List.mem_takeWhile_imp hc
  · intro c hc
    exact List.mem_rtakeWhile_imp hc

theorem mem_stripChars {chars : List Char} {c : Char} (hc : c ∈ chars) (hspace : isSpace c = false) :
    c ∈ stripChars chars := by
  obtain ⟨before, after, heq, hbefore, hafter⟩ := exists_stripChars chars
  rw [heq, List.mem_append, List.mem_append] at hc
  rcases hc with (hc | hc) | hc
  · simp [hbefore c hc] at hspace
  · exact hc
  · simp [hafter c hc] at hspace

/-! ### The characters of a numeral -/

/-- Splitting at a separator loses nothing else. -/
theorem mem_flatten_splitOn {chars : List Char} {sep c : Char} (hc : c ∈ chars) (hne : c ≠ sep) :
    c ∈ (chars.splitOn sep).flatten := by
  induction chars with
  | nil => simp at hc
  | cons x xs ih =>
    rw [List.splitOn_cons_eq_if_modifyHead]
    obtain ⟨group, groups, hgroups⟩ := List.exists_cons_of_ne_nil (List.splitOn_ne_nil sep xs)
    rw [hgroups] at ih ⊢
    rcases List.mem_cons.mp hc with rfl | hc
    · simp [hne]
    · have hmem := ih hc
      split
      · simpa using hmem
      · simp only [List.modifyHead_cons, List.flatten_cons, List.cons_append, List.mem_cons]
        exact .inr hmem

theorem decimalDigit_isSome_of_parseNat {chars : List Char} {n : Nat} (h : parseNat chars = some n)
    {c : Char} (hc : c ∈ chars) (hne : c ≠ '_') : (decimalDigit c).isSome := by
  simp only [parseNat] at h
  split at h
  · simp at h
  · rename_i hdigits
    simp only [Bool.or_eq_true, Bool.not_eq_eq_eq_not, Bool.not_true, not_or,
      Bool.not_eq_false, List.all_eq_true] at hdigits
    exact hdigits.2 c (mem_flatten_splitOn hc hne)

@[simp]
theorem parseNat_nil : parseNat [] = none := by
  simp [parseNat]

/-- A numeral is an unsigned one, with at most one sign before it. -/
theorem exists_parseNat_of_parseInt {chars : List Char} {n : Int} (h : parseInt chars = some n) :
    ∃ sign rest m, stripChars chars = sign ++ rest ∧ parseNat rest = some m ∧
      (sign = [] ∨ sign = ['-'] ∨ sign = ['+']) := by
  rw [parseInt] at h
  split at h
  · rename_i rest heq
    obtain ⟨m, hm, -⟩ := Option.map_eq_some_iff.mp h
    exact ⟨['-'], rest, m, heq, hm, .inr (.inl rfl)⟩
  · rename_i rest heq
    obtain ⟨m, hm, -⟩ := Option.map_eq_some_iff.mp h
    exact ⟨['+'], rest, m, heq, hm, .inr (.inr rfl)⟩
  · obtain ⟨m, hm, -⟩ := Option.map_eq_some_iff.mp h
    exact ⟨[], stripChars chars, m, rfl, hm, .inl rfl⟩

/-- **A numeral holds space, signs, underscores and digits, and no other character.** -/
theorem not_mem_of_parseInt {chars : List Char} {n : Int} (h : parseInt chars = some n) {c : Char}
    (hspace : isSpace c = false) (hminus : c ≠ '-') (hplus : c ≠ '+') (hunderscore : c ≠ '_')
    (hdigit : decimalDigit c = none) : c ∉ chars := by
  intro hc
  obtain ⟨sign, rest, m, hstrip, hm, hsign⟩ := exists_parseNat_of_parseInt h
  have hmem := mem_stripChars hc hspace
  rw [hstrip, List.mem_append] at hmem
  rcases hmem with hmem | hmem
  · rcases hsign with rfl | rfl | rfl
    · simp at hmem
    · exact hminus (List.mem_singleton.mp hmem)
    · exact hplus (List.mem_singleton.mp hmem)
  · have hsome := decimalDigit_isSome_of_parseNat hm hmem hunderscore
    simp [hdigit] at hsome

/-- A minus sign stands in front: only space comes before it. -/
theorem parseInt_takeWhile_of_mem_minus {chars : List Char} {n : Int} (h : parseInt chars = some n)
    (hminus : '-' ∈ chars) : parseInt (chars.takeWhile (· != '-')) = none := by
  obtain ⟨sign, rest, m, hstrip, hm, hsign⟩ := exists_parseNat_of_parseInt h
  have hrest : '-' ∉ rest := fun hmem => by
    have hsome := decimalDigit_isSome_of_parseNat hm hmem (by decide)
    simp [show decimalDigit '-' = none by decide] at hsome
  have hmem := mem_stripChars hminus (by decide)
  rw [hstrip, List.mem_append, or_iff_left hrest] at hmem
  obtain rfl : sign = ['-'] := by
    rcases hsign with rfl | rfl | rfl
    · simp at hmem
    · rfl
    · simp at hmem
  obtain ⟨before, after, heq, hbefore, -⟩ := exists_stripChars chars
  have htake : chars.takeWhile (· != '-') = before := by
    rw [heq, hstrip, List.append_assoc, List.takeWhile_append_of_pos]
    · simp
    · intro c hc
      rw [bne_iff_ne]
      rintro rfl
      exact absurd (hbefore '-' hc) (by decide)
  rw [htake, parseInt, stripChars_eq_nil hbefore]
  simp

/-! ### Parts around a separator -/

theorem partition_of_not_mem {sep : Char} {chars : List Char} (h : sep ∉ chars) :
    partition sep chars = (chars, none) := by
  have hpos : ∀ c ∈ chars, (c != sep) = true := fun c hc =>
    bne_iff_ne.mpr fun heq => h (heq ▸ hc)
  have hdrop : chars.dropWhile (· != sep) = [] := List.dropWhile_eq_nil_iff.mpr hpos
  rw [partition, hdrop, List.takeWhile_eq_self_iff.mpr hpos]
  rfl

/-- Where partitioning finds nothing there is no separator. -/
theorem not_mem_of_partition {sep : Char} {chars before : List Char}
    (h : partition sep chars = (before, none)) : sep ∉ chars := by
  intro hmem
  have hdrop : chars.dropWhile (· != sep) = [] := by
    have htail := (Prod.mk.inj h).2
    cases hrest : chars.dropWhile (· != sep) with
    | nil => rfl
    | cons c rest => simp [hrest] at htail
  simpa using List.dropWhile_eq_nil_iff.mp hdrop sep hmem

theorem partition_append {sep : Char} {before : List Char} (h : sep ∉ before)
    (after : List Char) : partition sep (before ++ sep :: after) = (before, some after) := by
  have hpos : ∀ c ∈ before, (c != sep) = true := fun c hc =>
    bne_iff_ne.mpr fun heq => h (heq ▸ hc)
  rw [partition, List.takeWhile_append_of_pos hpos, List.dropWhile_append_of_pos hpos]
  simp

/-- What partitioning finds is a separator between two parts. -/
theorem eq_append_of_partition {sep : Char} {chars before after : List Char}
    (h : partition sep chars = (before, some after)) :
    chars = before ++ sep :: after ∧ sep ∉ before := by
  obtain ⟨hbefore, hafter⟩ := Prod.mk.inj h
  constructor
  · have hsplit : chars.takeWhile (· != sep) ++ chars.dropWhile (· != sep) = chars :=
      List.takeWhile_append_dropWhile
    cases hdrop : chars.dropWhile (· != sep) with
    | nil => simp [hdrop] at hafter
    | cons c rest =>
      have hc : ¬ (c != sep) = true := by
        have hhead := List.head_dropWhile_not (l := chars) (fun c => c != sep) (by simp [hdrop])
        simpa [hdrop] using hhead
      simp only [bne_iff_ne, ne_eq, not_not] at hc
      rw [hdrop, List.tail?_cons, Option.some_inj] at hafter
      rw [← hsplit, hbefore, hdrop, hc, hafter]
  · intro hmem
    rw [← hbefore] at hmem
    simpa using List.mem_takeWhile_imp hmem

end Text

/-! ### Arithmetic progressions -/

/-- `range(start, stop, step)` for a positive step. -/
def intRange (start stop step : Int) : List Int :=
  (List.range ((stop - start + step - 1) / step).toNat).map fun i : Nat =>
    start + step * i

theorem mem_intRange {start stop step v : Int} (hstep : 0 < step) :
    v ∈ intRange start stop step ↔ ∃ i : Nat, v = start + step * i ∧ v < stop := by
  rw [intRange, List.mem_map]
  have hcount : ∀ i : Nat, i < ((stop - start + step - 1) / step).toNat ↔
      start + step * i < stop := by
    intro i
    rw [Int.lt_toNat, ← Int.add_one_le_iff, Int.le_ediv_iff_mul_le hstep, add_mul, mul_comm]
    omega
  constructor
  · rintro ⟨i, hi, rfl⟩
    exact ⟨i, rfl, (hcount i).mp (List.mem_range.mp hi)⟩
  · rintro ⟨i, rfl, hi⟩
    exact ⟨i, List.mem_range.mpr ((hcount i).mpr hi), rfl⟩
