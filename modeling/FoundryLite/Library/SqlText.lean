import FoundryLite.Library.Text
import Mathlib.Data.List.Infix

/-!
# The lexical regions of a text in SQL

Every character of a text in SQL stands in one region: in code, in a string literal, in a quoted
identifier, or in a comment to the end of the line or in a block. A doubled quote closes a literal
and opens it again, so it needs no rule of its own, and a block comment does not nest.

A call is looked for in the regions: a name in code, or a quoted one, then white space and comments,
then a parenthesis in code.

## Main results

* `Sql.closes_of_mem_lexFrom`: a comment block that ends is closed.
-/

namespace Sql

inductive Region where
  | code
  | literal
  | quoted
  | line
  | block
  deriving DecidableEq

/-- Where the reader stands before a character. The two marks of a block are two characters long. -/
inductive Mode where
  | code
  | literal
  | quoted
  | line
  | opening
  | block
  | closing
  deriving DecidableEq

def singleQuote : Char := Char.ofNat 39

def doubleQuote : Char := Char.ofNat 34

/-- A character with the region it stands in. -/
abbrev Lexed := List (Char × Region)

/-- The region of a character, and the mode behind it. A mark takes one look ahead. -/
def step (mode : Mode) (c : Char) (rest : List Char) : Mode × Region :=
  match mode with
  | .code =>
    if c = singleQuote then (.literal, .literal)
    else if c = doubleQuote then (.quoted, .quoted)
    else if c = '-' ∧ rest.head? = some '-' then (.line, .line)
    else if c = '/' ∧ rest.head? = some '*' then (.opening, .block)
    else (.code, .code)
  | .literal => (if c = singleQuote then .code else .literal, .literal)
  | .quoted => (if c = doubleQuote then .code else .quoted, .quoted)
  | .line => if c = '\n' then (.code, .code) else (.line, .line)
  | .opening => (.block, .block)
  | .block => (if c = '*' ∧ rest.head? = some '/' then .closing else .block, .block)
  | .closing => (.code, .block)

def lexFrom : Mode → List Char → Lexed
  | _, [] => []
  | mode, c :: rest => (c, (step mode c rest).2) :: lexFrom (step mode c rest).1 rest

def lex (text : List Char) : Lexed := lexFrom .code text

/-- A line comment begins at two dashes in code. -/
theorem of_step_eq_line {mode : Mode} {c : Char} {rest : List Char}
    (h : (step mode c rest).2 = .line) (hmode : mode ≠ .line) :
    c = '-' ∧ rest.head? = some '-' ∧ (step mode c rest).1 = .line := by
  cases mode <;> grind [step]

/-- Whoever stands in a line comment has read a part of it. -/
theorem step_mode_ne_line {mode : Mode} {c : Char} {rest : List Char}
    (h : (step mode c rest).2 ≠ .line) : (step mode c rest).1 ≠ .line := by
  cases mode <;> grind [step]

theorem ne_line_of_step_eq_block {mode : Mode} {c : Char} {rest : List Char}
    (h : (step mode c rest).2 = .block) : mode ≠ .line := by
  cases mode <;> grind [step]

/-- A block begins at a slash in code. -/
theorem of_step_mode_eq_opening {mode : Mode} {c : Char} {rest : List Char}
    (h : (step mode c rest).1 = .opening) :
    mode = .code ∧ c = '/' ∧ rest.head? = some '*' ∧ (step mode c rest).2 = .block := by
  cases mode <;> grind [step]

/-- The characters themselves. -/
def chars (lexed : Lexed) : List Char := lexed.map Prod.fst

@[simp]
theorem chars_nil : chars [] = [] := rfl

@[simp]
theorem chars_cons (x : Char × Region) (lexed : Lexed) : chars (x :: lexed) = x.1 :: chars lexed :=
  rfl

@[simp]
theorem chars_append (l m : Lexed) : chars (l ++ m) = chars l ++ chars m := List.map_append

/-- Reading a text changes no character of it. -/
@[simp]
theorem chars_lexFrom (mode : Mode) (text : List Char) : chars (lexFrom mode text) = text := by
  induction text generalizing mode with
  | nil => rfl
  | cons c rest ih => rw [lexFrom, chars_cons, ih]

/-- The text holds the mark that closes a block. -/
def Closes (text : List Char) : Prop := ['*', '/'] <:+: text

instance instDecidableCloses (text : List Char) : Decidable (Closes text) :=
  inferInstanceAs (Decidable (_ <:+: _))

/-- **A comment block that anything stands behind is closed.** -/
theorem closes_of_mem_lexFrom {text : List Char} {x : Char × Region}
    (hx : x ∈ lexFrom .block text) (hregion : x.2 ≠ .block) : Closes text := by
  induction text with
  | nil => cases hx
  | cons c rest ih =>
    rw [lexFrom] at hx
    rcases List.mem_cons.mp hx with rfl | hx
    · exact absurd rfl hregion
    · by_cases hclose : c = '*' ∧ rest.head? = some '/'
      · obtain ⟨rfl, hhead⟩ := hclose
        obtain ⟨tail, rfl⟩ := List.head?_eq_some_iff.mp hhead
        exact (List.prefix_append ['*', '/'] tail).isInfix
      · have hblock : (step .block c rest).1 = .block := by simp [step, hclose]
        rw [hblock] at hx
        exact (ih hx).trans (List.suffix_cons c rest).isInfix

/-! ### Calls -/

/-- The characters that names are made of. -/
structure WordClass where
  isWord : Char → Bool
  isWord_letter : ∀ c : Char, c.isAlpha = true → isWord c = true

/-- In a comment of either kind. -/
def Region.isComment : Region → Bool
  | .line | .block => true
  | _ => false

/-- White space and comments. -/
def IsGap (lexed : Lexed) : Prop :=
  ∀ x ∈ lexed, x.2.isComment = true ∨ x.2 = .code ∧ Text.isSpace x.1 = true

/-- A name of the list in code, where no longer name ends, and a parenthesis behind it. -/
structure IsBareCall (w : WordClass) (names : List String) (lexed before : Lexed)
    (name : List Char) (gap after : Lexed) : Prop where
  text : lexed = before ++ (name.map (·, Region.code) ++ (gap ++ ('(', .code) :: after))
  named : ∃ n ∈ names, name.map Char.toLower = n.toList
  starts : ∀ x ∈ before.getLast?, x.2 = .code → w.isWord x.1 = false
  apart : IsGap gap

/-- A quoted identifier that is a name of the list, and a parenthesis behind it. -/
structure IsQuotedCall (names : List String) (lexed before : Lexed) (name : List Char)
    (gap after : Lexed) : Prop where
  text : lexed = before ++ ((doubleQuote, .quoted) :: name.map (·, Region.quoted) ++
    (doubleQuote, .quoted) :: (gap ++ ('(', .code) :: after))
  named : ∃ n ∈ names, name.map Char.toLower = n.toList
  starts : ∀ x ∈ before.getLast?, x.2 ≠ .quoted
  apart : IsGap gap

/-- **A call of one of the names, outside string literals and comments.** -/
def HasCall (w : WordClass) (names : List String) (lexed : Lexed) : Prop :=
  ∃ before name gap after, IsBareCall w names lexed before name gap after ∨
    IsQuotedCall names lexed before name gap after

end Sql
