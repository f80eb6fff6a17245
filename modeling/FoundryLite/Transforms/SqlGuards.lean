import FoundryLite.Errors
import FoundryLite.Library.SqlText
import Mathlib

/-!
# The guard of SQL transforms

A transform in SQL reads its declared inputs and no file of its own. Before its text is run, comments
are taken out of it with two regular expressions, first the blocks and then the lines, and what is left
is searched for a call of a function that reads a raw file.

The expressions know nothing of literals and quoted identifiers, and they put nothing in the place of
a block. So a mark of a comment inside a literal takes text away that is no comment, and a name behind
a block is joined to the word in front of it.

## Main results

* `strip_append`: on a legible text the expressions take away the comments, and nothing else.
* `not_hasCall_of_validate`: in a legible text that is accepted, nothing is called.
-/

namespace FoundryLite.Transforms.SqlGuard

open Sql

/-! ### Taking out comments -/

/-- A block begins here: the expression finds the mark that opens it, and one that closes it. -/
def Opens : List Char → Prop
  | '/' :: '*' :: rest => Closes rest
  | _ => False

instance instDecidableOpens : (text : List Char) → Decidable (Opens text)
  | [] => .isFalse id
  | [_] => .isFalse fun h => by simp [Opens] at h
  | c :: d :: rest =>
    if hmark : c = '/' ∧ d = '*' then
      decidable_of_iff (Closes rest) (by rw [hmark.1, hmark.2, Opens])
    else
      .isFalse fun h => by
        unfold Opens at h
        split at h
        · rename_i heq
          simp_all
        · exact h

/-- What is to be done with the next character. -/
inductive BlockMode where
  | outside
  | opening
  | inside
  | closing

/-- `_BLOCK_COMMENT_PATTERN.sub("", ...)`. -/
def stripBlocks : BlockMode → List Char → List Char
  | _, [] => []
  | .outside, c :: rest =>
    if Opens (c :: rest) then stripBlocks .opening rest else c :: stripBlocks .outside rest
  | .opening, _ :: rest => stripBlocks .inside rest
  | .inside, c :: rest =>
    stripBlocks (if c = '*' ∧ rest.head? = some '/' then .closing else .inside) rest
  | .closing, _ :: rest => stripBlocks .outside rest

inductive LineMode where
  | keep
  | drop

/-- `_LINE_COMMENT_PATTERN.sub("", ...)`: the end of the line stays. -/
def stripLines : LineMode → List Char → List Char
  | _, [] => []
  | .keep, c :: rest =>
    if c = '-' ∧ rest.head? = some '-' then stripLines .drop rest else c :: stripLines .keep rest
  | .drop, c :: rest => if c = '\n' then c :: stripLines .keep rest else stripLines .drop rest

/-- `_strip_sql_comments`. -/
def stripSqlComments (sql : List Char) : List Char := stripLines .keep (stripBlocks .outside sql)

/-! ### The search -/

/-- The names in `_RAW_FILE_FUNCTION_PATTERN`. -/
def rawFileFunctions : List String :=
  ["read_csv", "read_csv_auto", "read_json", "read_json_auto", "read_parquet", "parquet_scan",
    "read_blob"]

/-- A letter of the expression, whatever the case. The long s is an `s` to it. -/
def matchesLetter (letter c : Char) : Bool :=
  c.toLower = letter || letter = 's' && c = Char.ofNat 0x17f

/-- The text a name is found as, and what stands behind it. -/
def nameAt (name text : List Char) : Option (List Char × List Char) :=
  if name.length ≤ text.length ∧ (name.zipWith matchesLetter text).all id then
    some (text.splitAt name.length)
  else none

/-- A name, white space and a parenthesis. -/
def callAt (text : List Char) : Option (List Char) :=
  rawFileFunctions.findSome? fun name =>
    (nameAt name.toList text).bind fun found =>
      if (found.2.dropWhile Text.isSpace).head? = some '(' then some found.1 else none

/-- `_RAW_FILE_FUNCTION_PATTERN.search`: the name of the first call, which begins a word. -/
def search (w : WordClass) : Option Char → List Char → Option (List Char)
  | _, [] => none
  | before, c :: rest =>
    let found := if before.any w.isWord = w.isWord c then none else callAt (c :: rest)
    found.orElse fun _ => search w (some c) rest

/-- `validate_sql_transform_uses_declared_inputs`. -/
def validateSqlTransformUsesDeclaredInputs (w : WordClass) (sql : String) : Checked Unit :=
  match search w none (stripSqlComments sql.toList) with
  | none => pure ()
  | some name =>
    validationFailed "transform SQL must use declared input datasets instead of raw filesystem reads"
      [("function", .str (String.ofList (name.map Char.toLower)))]

/-! ### Legible texts -/

/-- A character with what follows it tells a comment from the rest: no literal, quoted identifier or
line comment holds the marks of a block, no literal or quoted identifier holds that of a line, and no
block stands between two dashes. -/
structure LegibleAt (x : Char × Region) (after : Lexed) : Prop where
  marker : x.2 ≠ .code → x.2 ≠ .block → ¬ Opens (x.1 :: chars after)
  dash : x.1 = '-' → x.2 = .literal ∨ x.2 = .quoted → (chars after).head? ≠ some '-'
  apart : x.1 = '-' → x.2 = .code →
    (chars (after.dropWhile fun y => y.2 = .block)).head? ≠ some '-'

instance instDecidableLegibleAt (x : Char × Region) (after : Lexed) :
    Decidable (LegibleAt x after) :=
  decidable_of_iff
    ((x.2 ≠ .code → x.2 ≠ .block → ¬ Opens (x.1 :: chars after)) ∧
      (x.1 = '-' → x.2 = .literal ∨ x.2 = .quoted → (chars after).head? ≠ some '-') ∧
      (x.1 = '-' → x.2 = .code →
        (chars (after.dropWhile fun y => y.2 = .block)).head? ≠ some '-'))
    ⟨fun h => ⟨h.1, h.2.1, h.2.2⟩, fun h => ⟨h.marker, h.dash, h.apart⟩⟩

/-- The comments can be told from the rest without reading literals. -/
def Legible : Lexed → Prop
  | [] => True
  | x :: after => LegibleAt x after ∧ Legible after

instance instDecidableLegible : (lexed : Lexed) → Decidable (Legible lexed)
  | [] => .isTrue trivial
  | x :: after =>
    haveI := instDecidableLegible after
    inferInstanceAs (Decidable (LegibleAt x after ∧ Legible after))

/-- Where the two expressions stand when the reader is in a mode. -/
def blockMode : Mode → BlockMode
  | .opening => .opening
  | .block => .inside
  | .closing => .closing
  | _ => .outside

def lineMode : Mode → LineMode
  | .line => .drop
  | _ => .keep

theorem lineMode_of_ne {mode : Mode} (h : mode ≠ .line) : lineMode mode = .keep := by
  cases mode <;> first | rfl | exact absurd rfl h

/-- A block that is opened in code, and that the text goes on behind, is found by the expression. -/
theorem opens_of_mem {rest : List Char} {x : Char × Region} (hhead : rest.head? = some '*')
    (hx : x ∈ lexFrom .opening rest) (hregion : x.2 ≠ .block) : Opens ('/' :: rest) := by
  obtain ⟨tail, rfl⟩ := List.head?_eq_some_iff.mp hhead
  rw [lexFrom] at hx
  rcases List.mem_cons.mp hx with rfl | hx
  · exact absurd rfl hregion
  · exact closes_of_mem_lexFrom hx hregion

theorem stripBlocks_of_not_opens {mode after : Mode} {c : Char} {rest : List Char}
    (hmode : blockMode mode = .outside) (hafter : blockMode after = .outside)
    (h : ¬ Opens (c :: rest)) : stripBlocks (blockMode mode) (c :: rest) =
      [c] ++ stripBlocks (blockMode after) rest := by
  rw [hmode, hafter, stripBlocks, if_neg h, List.singleton_append]

theorem not_opens_of_ne {c : Char} {rest : List Char} (h : c ≠ '/') : ¬ Opens (c :: rest) := by
  unfold Opens
  split
  · rename_i heq
    exact absurd (List.cons.inj heq).1 h
  · exact id

theorem not_opens_of_head {c : Char} {rest : List Char} (h : rest.head? ≠ some '*') :
    ¬ Opens (c :: rest) := by
  unfold Opens
  split
  · rename_i heq
    rw [(List.cons.inj heq).2] at h
    exact absurd rfl h
  · exact id

/-- What the reader takes in code for no mark is none to the expression. -/
theorem not_opens_of_code {c : Char} {rest : List Char} (h : (step .code c rest).2 ≠ .block) :
    ¬ Opens (c :: rest) := by
  by_cases hslash : c = '/'
  · subst hslash
    apply not_opens_of_head
    intro hhead
    simp [step, hhead, singleQuote, doubleQuote] at h
  · exact not_opens_of_ne hslash

/-- **The first expression follows the reader**: it keeps a character exactly if it is in no block. -/
theorem stripBlocks_step {mode : Mode} {c : Char} {rest : List Char}
    (hlegible : Legible (lexFrom mode (c :: rest)))
    (hcloses : (step mode c rest).1 = .opening → Opens (c :: rest)) :
    stripBlocks (blockMode mode) (c :: rest) =
      (if (step mode c rest).2 = .block then [] else [c]) ++
        stripBlocks (blockMode (step mode c rest).1) rest := by
  have hmarker : (step mode c rest).2 ≠ .code → (step mode c rest).2 ≠ .block →
      ¬ Opens (c :: rest) := by
    intro hcode hblock
    have h := hlegible.1.marker hcode hblock
    rwa [chars_lexFrom] at h
  cases mode with
  | code =>
    by_cases hopening : (step .code c rest).1 = .opening
    · rw [if_pos (of_step_mode_eq_opening hopening).2.2.2, hopening, List.nil_append]
      change stripBlocks .outside (c :: rest) = stripBlocks .opening rest
      rw [stripBlocks, if_pos (hcloses hopening)]
    · have hmode : blockMode (step .code c rest).1 = .outside ∧ (step .code c rest).2 ≠ .block := by
        unfold step at hopening ⊢
        dsimp only at hopening ⊢
        split_ifs at hopening ⊢ <;> simp_all [blockMode]
      rw [if_neg hmode.2, stripBlocks_of_not_opens rfl hmode.1 (not_opens_of_code hmode.2)]
  | literal =>
    have hmode : blockMode (step .literal c rest).1 = .outside := by
      simp only [step]
      split_ifs <;> rfl
    rw [if_neg (by simp [step]),
      stripBlocks_of_not_opens rfl hmode (hmarker (by simp [step]) (by simp [step]))]
  | quoted =>
    have hmode : blockMode (step .quoted c rest).1 = .outside := by
      simp only [step]
      split_ifs <;> rfl
    rw [if_neg (by simp [step]),
      stripBlocks_of_not_opens rfl hmode (hmarker (by simp [step]) (by simp [step]))]
  | line =>
    have hmode : blockMode (step .line c rest).1 = .outside ∧ (step .line c rest).2 ≠ .block := by
      simp only [step]
      split_ifs <;> simp [blockMode]
    have hnot : ¬ Opens (c :: rest) := by
      by_cases hcode : (step .line c rest).2 = .code
      · apply not_opens_of_ne
        rintro rfl
        simp [step] at hcode
      · exact hmarker hcode hmode.2
    rw [if_neg hmode.2, stripBlocks_of_not_opens rfl hmode.1 hnot]
  | opening => rfl
  | block =>
    simp only [step, blockMode, stripBlocks, if_true, List.nil_append]
    split_ifs <;> rfl
  | closing => rfl

/-- What the first expression leaves in front: the first character in no block. -/
theorem head_stripBlocks {mode : Mode} {text : List Char} (hlegible : Legible (lexFrom mode text))
    (hdash : (stripBlocks (blockMode mode) text).head? = some '-') :
    (chars ((lexFrom mode text).dropWhile fun y => y.2 = .block)).head? = some '-' := by
  induction text generalizing mode with
  | nil => simp [stripBlocks] at hdash
  | cons c rest ih =>
    by_cases hcloses : (step mode c rest).1 = .opening → Opens (c :: rest)
    · rw [stripBlocks_step hlegible hcloses] at hdash
      rw [lexFrom] at hlegible ⊢
      by_cases hblock : (step mode c rest).2 = .block
      · rw [if_pos hblock, List.nil_append] at hdash
        rw [List.dropWhile_cons_of_pos (by simpa using hblock)]
        exact ih hlegible.2 hdash
      · rw [if_neg hblock, List.singleton_append, List.head?_cons] at hdash
        rw [List.dropWhile_cons_of_neg (by simpa using hblock)]
        exact hdash
    · -- A block that is never closed keeps its slash.
      obtain ⟨hopening, hnot⟩ := Classical.not_imp.mp hcloses
      obtain ⟨rfl, rfl, -⟩ := of_step_mode_eq_opening hopening
      rw [@stripBlocks_of_not_opens .code .code _ _ rfl rfl hnot] at hdash
      simp at hdash

/-- A dash that begins no comment does not come to stand in front of another. -/
theorem head_stripBlocks_ne_dash {mode : Mode} {rest : List Char}
    (hlegible : Legible (lexFrom mode ('-' :: rest))) (hblock : (step mode '-' rest).2 ≠ .block)
    (hline : (step mode '-' rest).2 ≠ .line) :
    (stripBlocks (blockMode (step mode '-' rest).1) rest).head? ≠ some '-' := by
  intro hdash
  rw [lexFrom] at hlegible
  have hhead := head_stripBlocks hlegible.2 hdash
  cases hregion : (step mode '-' rest).2 with
  | code => exact hlegible.1.apart rfl hregion hhead
  | line => exact hline hregion
  | block => exact hblock hregion
  | literal | quoted =>
    -- Inside quotes the next character is in no block.
    refine hlegible.1.dash rfl (by simp [hregion]) ?_
    cases rest with
    | nil => simp [lexFrom] at hhead
    | cons d tail =>
      have hnext : (step (step mode '-' (d :: tail)).1 d tail).2 ≠ .block := by
        cases mode <;> simp_all [step, singleQuote, doubleQuote]
        split_ifs at hregion
      rwa [lexFrom, List.dropWhile_cons_of_neg (by simpa using hnext), ← lexFrom] at hhead

/-- Both expressions, where the reader is in a mode. -/
def strip (mode : Mode) (text : List Char) : List Char :=
  stripLines (lineMode mode) (stripBlocks (blockMode mode) text)

/-- **The expressions follow the reader**: of a legible text they keep a character exactly if it is in
no comment. -/
theorem strip_step {mode : Mode} {c : Char} {rest : List Char}
    (hlegible : Legible (lexFrom mode (c :: rest)))
    (hcloses : (step mode c rest).1 = .opening → Opens (c :: rest)) :
    strip mode (c :: rest) =
      (if (step mode c rest).2.isComment then [] else [c]) ++ strip (step mode c rest).1 rest := by
  rw [strip, stripBlocks_step hlegible hcloses, strip]
  by_cases hblock : (step mode c rest).2 = .block
  · have hafter : (step mode c rest).1 ≠ .line := step_mode_ne_line (by simp [hblock])
    rw [if_pos hblock, lineMode_of_ne (ne_line_of_step_eq_block hblock), lineMode_of_ne hafter,
      hblock]
    rfl
  · rw [if_neg hblock, List.singleton_append]
    by_cases hline : mode = .line
    · subst hline
      by_cases hend : c = '\n' <;> simp [step, hend, lineMode, stripLines, Region.isComment]
    · rw [lineMode_of_ne hline, stripLines]
      by_cases hregion : (step mode c rest).2 = .line
      · obtain ⟨rfl, hhead, hafter⟩ := of_step_eq_line hregion hline
        obtain ⟨tail, rfl⟩ := List.head?_eq_some_iff.mp hhead
        have hnot : ¬ Opens ('-' :: tail) := not_opens_of_ne (by decide)
        rw [hafter, hregion, @stripBlocks_of_not_opens .line .line _ _ rfl rfl hnot]
        simp [lineMode, Region.isComment]
      · have hcomment : (step mode c rest).2.isComment = false := by
          cases h : (step mode c rest).2 <;> simp_all [Region.isComment]
        have hdash : ¬ (c = '-' ∧
            (stripBlocks (blockMode (step mode c rest).1) rest).head? = some '-') := by
          rintro ⟨rfl, hdash⟩
          exact head_stripBlocks_ne_dash hlegible hblock hregion hdash
        rw [if_neg hdash, lineMode_of_ne (step_mode_ne_line hregion), hcomment]
        rfl

/-- What a reader who leaves comments out sees. -/
def visible (lexed : Lexed) : List Char := chars (lexed.filter (!·.2.isComment))

@[simp]
theorem visible_append (l m : Lexed) : visible (l ++ m) = visible l ++ visible m := by
  rw [visible, List.filter_append, chars_append]
  rfl

theorem visible_cons (x : Char × Region) (l : Lexed) :
    visible (x :: l) = (if x.2.isComment then [] else [x.1]) ++ visible l := by
  cases h : x.2.isComment <;> simp [visible, h]

/-- **Up to a character in code the expressions take away the comments, and nothing else.** -/
theorem strip_append {mode : Mode} {text : List Char} {l m : Lexed} {x : Char × Region}
    (hlegible : Legible (lexFrom mode text)) (hlex : lexFrom mode text = l ++ x :: m)
    (hcode : x.2 = .code) : ∃ rest, strip mode text = visible l ++ x.1 :: rest := by
  induction l generalizing mode text with
  | nil =>
    cases text with
    | nil => cases hlex
    | cons c rest =>
      have hregion : (step mode c rest).2 = .code := by
        rw [lexFrom, List.nil_append, List.cons.injEq] at hlex
        rw [← hcode, ← hlex.1]
      have hcloses : (step mode c rest).1 = .opening → Opens (c :: rest) := by
        intro hopening
        rw [(of_step_mode_eq_opening hopening).2.2.2] at hregion
        cases hregion
      rw [strip_step hlegible hcloses, hregion]
      rw [lexFrom, List.nil_append, List.cons.injEq] at hlex
      exact ⟨_, by rw [← hlex.1]; rfl⟩
  | cons y l ih =>
    cases text with
    | nil => cases hlex
    | cons c rest =>
      have hcloses : (step mode c rest).1 = .opening → Opens (c :: rest) := by
        intro hopening
        rw [lexFrom, List.cons_append, List.cons.injEq, hopening] at hlex
        obtain ⟨-, rfl, hhead, -⟩ := of_step_mode_eq_opening hopening
        have hmem : x ∈ lexFrom .opening rest := by
          rw [hlex.2]
          exact List.mem_append_right _ List.mem_cons_self
        exact opens_of_mem hhead hmem (by simp [hcode])
      rw [strip_step hlegible hcloses]
      rw [lexFrom] at hlegible
      rw [lexFrom, List.cons_append, List.cons.injEq] at hlex
      obtain ⟨after, hafter⟩ := ih hlegible.2 hlex.2
      refine ⟨after, ?_⟩
      rw [hafter, visible_cons, ← hlex.1, List.append_assoc]

/-! ### What the search finds -/

theorem all_zipWith_matchesLetter (name rest : List Char) :
    ((name.map Char.toLower).zipWith matchesLetter (name ++ rest)).all id = true := by
  induction name with
  | nil => rfl
  | cons c name ih => simp_all [matchesLetter]

theorem callAt_isSome {name spaces rest : List Char}
    (hname : ∃ n ∈ rawFileFunctions, name.map Char.toLower = n.toList)
    (hspaces : ∀ c ∈ spaces, Text.isSpace c = true) :
    (callAt (name ++ (spaces ++ '(' :: rest))).isSome = true := by
  obtain ⟨n, hn, hlower⟩ := hname
  have hlength : n.toList.length = name.length := by rw [← hlower, List.length_map]
  have hfound : nameAt n.toList (name ++ (spaces ++ '(' :: rest)) =
      some (name, spaces ++ '(' :: rest) := by
    have hle : n.toList.length ≤ (name ++ (spaces ++ '(' :: rest)).length := by
      rw [hlength, List.length_append]
      exact Nat.le_add_right _ _
    rw [nameAt, if_pos ⟨hle, by rw [← hlower]; exact all_zipWith_matchesLetter _ _⟩, hlength,
      List.splitAt_eq, List.take_left, List.drop_left]
  have hparenthesis : ((spaces ++ '(' :: rest).dropWhile Text.isSpace).head? = some '(' := by
    rw [List.dropWhile_append_of_pos hspaces, List.dropWhile_cons_of_neg (by decide)]
    rfl
  rw [callAt, List.findSome?_isSome_iff]
  exact ⟨n, hn, by simp [hfound, hparenthesis]⟩

theorem isAlpha_of_toLower {c letter : Char} (h : c.toLower = letter)
    (hletter : letter.isLower = true) : c.isAlpha = true := by
  unfold Char.toLower at h
  split at h
  · rename_i hupper
    rw [Char.isAlpha, Bool.or_eq_true]
    exact .inl (decide_eq_true hupper)
  · simp [Char.isAlpha, h, hletter]

/-- Every name begins with a letter. -/
theorem exists_letter {name : List Char}
    (hname : ∃ n ∈ rawFileFunctions, name.map Char.toLower = n.toList) :
    ∃ c rest, name = c :: rest ∧ c.isAlpha = true := by
  have hletters : ∀ n ∈ rawFileFunctions, (n.toList.head?.any Char.isLower) = true := by
    decide +kernel
  obtain ⟨n, hn, hlower⟩ := hname
  have hhead := hletters n hn
  rw [← hlower] at hhead
  cases name with
  | nil => cases hhead
  | cons c rest => exact ⟨c, rest, rfl, isAlpha_of_toLower rfl hhead⟩

/-- **A call behind no character of a word is found, or another one before it.** -/
theorem search_isSome {w : WordClass} {before : Option Char} {front name spaces rest : List Char}
    (hname : ∃ n ∈ rawFileFunctions, name.map Char.toLower = n.toList)
    (hspaces : ∀ c ∈ spaces, Text.isSpace c = true)
    (hfront : ∀ c ∈ front.getLast?.or before, w.isWord c = false) :
    (search w before (front ++ (name ++ (spaces ++ '(' :: rest)))).isSome = true := by
  induction front generalizing before with
  | nil =>
    have hcall := @callAt_isSome name spaces rest hname hspaces
    obtain ⟨c, tail, rfl, hletter⟩ := exists_letter hname
    have hword : before.any w.isWord = false := by
      cases before with
      | none => rfl
      | some b => exact hfront b rfl
    have hboundary : ¬ before.any w.isWord = w.isWord c := by
      rw [hword, w.isWord_letter c hletter]
      decide
    rw [List.nil_append, List.cons_append, search, if_neg hboundary]
    rw [List.cons_append] at hcall
    obtain ⟨found, hfound⟩ := Option.isSome_iff_exists.mp hcall
    simp [hfound]
  | cons c front ih =>
    have hrest : (search w (some c) (front ++ (name ++ (spaces ++ '(' :: rest)))).isSome = true := by
      apply ih
      intro d hd
      apply hfront d
      rw [List.getLast?_cons]
      cases hlast : front.getLast? <;> simp_all
    rw [List.cons_append, search]
    cases hfound : (if before.any w.isWord = w.isWord c then none
      else callAt (c :: (front ++ (name ++ (spaces ++ '(' :: rest))))) with
    | none => exact hrest
    | some found => rfl

/-! ### The guard -/

theorem validate_eq_ok_iff {w : WordClass} {sql : String} :
    validateSqlTransformUsesDeclaredInputs w sql = .ok () ↔
      search w none (stripSqlComments sql.toList) = none := by
  rw [validateSqlTransformUsesDeclaredInputs]
  cases search w none (stripSqlComments sql.toList) with
  | none => exact ⟨fun _ => rfl, fun _ => rfl⟩
  | some name => simp

theorem visible_name (name : List Char) : visible (name.map (·, Region.code)) = name := by
  induction name with
  | nil => rfl
  | cons c name ih => rw [List.map_cons, visible_cons, ih]; rfl

/-- Of a gap only white space is seen. -/
theorem isSpace_of_mem_visible {gap : Lexed} (h : IsGap gap) {c : Char} (hc : c ∈ visible gap) :
    Text.isSpace c = true := by
  obtain ⟨x, hx, rfl⟩ := List.mem_map.mp hc
  obtain ⟨hmem, hcomment⟩ := List.mem_filter.mp hx
  rcases h x hmem with hin | ⟨-, hspace⟩
  · simp [hin] at hcomment
  · exact hspace

/-- No call of a text hides behind a block that joins it to a word, or behind quotes. -/
structure CallsInSight (w : WordClass) (lexed : Lexed) : Prop where
  apart : ∀ before name gap after, IsBareCall w rawFileFunctions lexed before name gap after →
    ∀ c ∈ (visible before).getLast?, w.isWord c = false
  bare : ∀ before name gap after, ¬ IsQuotedCall rawFileFunctions lexed before name gap after

/-- **In a legible text that is accepted nothing is called**, if no call of it hides behind a block
that joins it to a word, or behind quotes. -/
theorem not_hasCall_of_validate {w : WordClass} {sql : String} (hlegible : Legible (lex sql.toList))
    (hsight : CallsInSight w (lex sql.toList))
    (haccepted : validateSqlTransformUsesDeclaredInputs w sql = .ok ()) :
    ¬ HasCall w rawFileFunctions (lex sql.toList) := by
  rintro ⟨before, name, gap, after, hbare | hquoted⟩
  · rw [validate_eq_ok_iff] at haccepted
    have hlex : lex sql.toList =
        (before ++ (name.map (·, Region.code) ++ gap)) ++ ('(', Region.code) :: after := by
      rw [hbare.text]
      simp only [List.append_assoc]
    obtain ⟨rest, hstrip⟩ := strip_append hlegible hlex rfl
    have hstripped : stripSqlComments sql.toList =
        visible before ++ (name ++ (visible gap ++ '(' :: rest)) := by
      rw [← visible_name name, ← List.append_assoc, ← List.append_assoc]
      exact hstrip.trans (by simp only [visible_append, List.append_assoc, visible_name])
    have hfound := @search_isSome w none (visible before) name (visible gap) rest hbare.named
      (fun _ hc => isSpace_of_mem_visible hbare.apart hc) (fun c hc =>
        hsight.apart before name gap after hbare c (by simpa using hc))
    rw [← hstripped, haccepted] at hfound
    cases hfound
  · exact hsight.bare before name gap after hquoted

/-- Letters, digits and the underscore. -/
def asciiWords : WordClass where
  isWord c := c.isAlphanum || c = '_'
  isWord_letter c h := by simp [Char.isAlphanum, h]

/-- Where no parenthesis stands in code there is no call. -/
theorem callsInSight_of_notMem {w : WordClass} {lexed : Lexed} (h : ('(', Region.code) ∉ lexed) :
    CallsInSight w lexed where
  apart before name gap after hcall := absurd (by rw [hcall.text]; simp) h
  bare before name gap after hcall := h (by rw [hcall.text]; simp)

/-- A call in a comment is not one. -/
theorem not_hasCall_comment :
    ¬ HasCall asciiWords rawFileFunctions (lex "SELECT 1 -- read_csv('x')".toList) :=
  not_hasCall_of_validate (by decide +kernel) (callsInSight_of_notMem (by decide +kernel))
    (by decide +kernel)

/-- The call in `FROM/**/read_csv('x')` is joined to the word in front of it, and the one in
`'/*', read_csv('x'), '*/'` is taken for a part of a comment. -/
theorem validate_hidden_calls :
    (validateSqlTransformUsesDeclaredInputs asciiWords "SELECT * FROM/**/read_csv('x')" = .ok () ∧
        HasCall asciiWords rawFileFunctions (lex "SELECT * FROM/**/read_csv('x')".toList)) ∧
      validateSqlTransformUsesDeclaredInputs asciiWords "SELECT '/*', read_csv('x'), '*/'" = .ok () ∧
        HasCall asciiWords rawFileFunctions (lex "SELECT '/*', read_csv('x'), '*/'".toList) := by
  have hfirst : IsBareCall asciiWords rawFileFunctions
      (lex "SELECT * FROM/**/read_csv('x')".toList)
      ((lex "SELECT * FROM/**/read_csv('x')".toList).take 17) "read_csv".toList []
      ((lex "SELECT * FROM/**/read_csv('x')".toList).drop 26) :=
    ⟨by decide +kernel, by decide +kernel, by decide +kernel, by simp [IsGap]⟩
  have hsecond : IsBareCall asciiWords rawFileFunctions
      (lex "SELECT '/*', read_csv('x'), '*/'".toList)
      ((lex "SELECT '/*', read_csv('x'), '*/'".toList).take 13) "read_csv".toList []
      ((lex "SELECT '/*', read_csv('x'), '*/'".toList).drop 22) :=
    ⟨by decide +kernel, by decide +kernel, by decide +kernel, by simp [IsGap]⟩
  exact ⟨⟨by decide +kernel, _, _, _, _, .inl hfirst⟩,
    by decide +kernel, _, _, _, _, .inl hsecond⟩

end FoundryLite.Transforms.SqlGuard
