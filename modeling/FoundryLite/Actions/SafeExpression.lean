import FoundryLite.Library.QuotedList
import FoundryLite.Serialiser
import Mathlib

/-!
# Membership in a safe expression

An action precondition that is written as an expression compares a property of the object with a text,
or with the members of a list. The list is picked out of the expression by a regular expression and
taken apart by a scanner of its own, which reads quoted and bare members by different rules.

The scanner accepts every text that has a reading as a list of items, and some of these are no lists of
members: a bare item may be empty, and it may hold brackets. Where no item is so, membership is exact.

## Main results

* `inListValues_eq_ok_iff`: what the scanner makes of a list.
* `isExact_iff`: when membership is exact.
-/

namespace FoundryLite.Actions.SafeExpression

open QuotedList

/-- The text that a value is compared by, if it has one: `_comparable_value` leaves other values as they
are, and they equal no text. -/
def comparableValue (env : Serialiser) : Option Json → Option String
  | some (.str value) => some value
  | some (.bool value) => some (if value then "true" else "false")
  | some (.int value) => some (toString value)
  | some (.float value) => some (env.repr (.float value))
  | _ => none

/-! ### The list -/

/-- `_quoted_member`, behind the opening quote: the member and what follows its separator. -/
def quotedMember (expression : String) (quote : Char) (raw : List Char) :
    Checked (List Char × List Char) :=
  match raw.dropWhile (· != quote) with
  | [] => validationFailed "unterminated safe expression literal" [("expression", .str expression)]
  | _ :: behind =>
    match behind.dropWhile Text.isSpace with
    | [] => pure (raw.takeWhile (· != quote), [])
    | c :: next =>
      if c = ',' then pure (raw.takeWhile (· != quote), next)
      else validationFailed "malformed safe expression list" [("expression", .str expression)]

/-- `_bare_member`. -/
def bareMember (expression : String) (raw : List Char) : Checked (List Char × List Char) :=
  if (raw.takeWhile (· != ',')).any isQuote then
    validationFailed "malformed safe expression list" [("expression", .str expression)]
  else pure (Text.stripChars (raw.takeWhile (· != ',')), (raw.dropWhile (· != ',')).drop 1)

/-- The member that begins with a character that is no space. -/
def nextMember (expression : String) (c : Char) (raw : List Char) : Checked (List Char × List Char) :=
  if isQuote c then quotedMember expression c raw else bareMember expression (c :: raw)

/-- The loop of `_in_list_values`. -/
def inListValuesFrom (expression : String) : ℕ → List Char → Checked (List (List Char))
  | 0, _ => pure []
  | fuel + 1, raw =>
    match raw.dropWhile Text.isSpace with
    | [] => pure []
    | c :: rest => do
      let member ← nextMember expression c rest
      let values ← inListValuesFrom expression fuel member.2
      pure (member.1 :: values)

/-- `_in_list_values`: each round reads a character of the list. -/
def inListValues (raw : List Char) (expression : String) : Checked (List (List Char)) :=
  inListValuesFrom expression raw.length raw

/-! ### The expression -/

def isNameStart (c : Char) : Bool := c.isAlpha || c == '_'

def isNameChar (c : Char) : Bool := c.isAlphanum || c == '_'

/-- What follows a text, if the characters begin with it. -/
def behind (text chars : List Char) : Option (List Char) :=
  if text <+: chars then some (chars.drop text.length) else none

/-- `object\.([A-Za-z_][A-Za-z0-9_]*)` of both patterns: the name and what follows it. -/
def objectName (expression : List Char) : Option (List Char × List Char) := do
  let rest ← behind "object.".toList expression
  match rest with
  | [] => none
  | c :: chars =>
    if isNameStart c then some (c :: chars.takeWhile isNameChar, chars.dropWhile isNameChar) else none

/-- `\s+` and a text, and what follows them. -/
def spacedText (text chars : List Char) : Option (List Char) :=
  match chars with
  | [] => none
  | c :: rest => if Text.isSpace c then behind text (rest.dropWhile Text.isSpace) else none

/-- `(.*)]$`: the list ends at the last bracket, which stands at the end of the text or before a last
newline, and has no newline in it. -/
def listBody (chars : List Char) : Option (List Char) :=
  let line := if chars.getLast? = some '\n' then chars.dropLast else chars
  if line.getLast? = some ']' ∧ '\n' ∉ line.dropLast then some line.dropLast else none

/-- `OBJECT_IN_PATTERN.match`. -/
def objectIn (expression : List Char) : Option (List Char × List Char) := do
  let (name, rest) ← objectName expression
  let rest ← spacedText "in".toList rest
  let rest ← spacedText ['['] rest
  let body ← listBody rest
  some (name, body)

/-- `OBJECT_EQ_PATTERN.match`. -/
def objectEq (expression : List Char) : Option (List Char × List Char) := do
  let (name, rest) ← objectName expression
  let rest ← behind "==".toList (rest.dropWhile Text.isSpace)
  let rest ← behind [singleQuote] (rest.dropWhile Text.isSpace)
  match rest.dropWhile (· != singleQuote) with
  | _ :: last =>
    if last = [] ∨ last = ['\n'] then some (name, rest.takeWhile (· != singleQuote)) else none
  | [] => none

/-- `evaluate_safe_expression`. -/
def evaluateSafeExpression (env : Serialiser) (expression : String) (properties : Mapping) :
    Checked Bool :=
  match objectIn expression.toList with
  | some (name, body) => do
    let members ← inListValues body expression
    pure (decide (comparableValue env (properties.lookup (String.ofList name)) ∈
      members.map fun member => some (String.ofList member)))
  | none =>
    match objectEq expression.toList with
    | some (name, text) =>
      pure (decide (comparableValue env (properties.lookup (String.ofList name)) =
        some (String.ofList text)))
    | none => validationFailed "unsupported safe expression" [("expression", .str expression)]

/-! ### What the scanner reads -/

/-- The members that are read off a list: an item behind the last comma that is blank is none. -/
def listed : List Item → List (List Char)
  | [] => []
  | [item] => if item.IsBlank then [] else [item.value]
  | item :: items => item.value :: listed items

section Scanner

variable {expression : String} {raw rest value next : List Char} {c : Char}

theorem eq_of_dropWhile_bne {d : Char} {more : List Char}
    (h : rest.dropWhile (· != c) = d :: more) : d = c := by
  have hstop := List.head?_dropWhile_not (· != c) rest
  rw [h] at hstop
  simpa using hstop

theorem notMem_takeWhile_bne : c ∉ rest.takeWhile (· != c) := by
  intro hmem
  have hne := List.mem_takeWhile_imp hmem
  simp at hne

theorem takeWhile_bne {text more : List Char} (h : c ∉ text) :
    (text ++ c :: more).takeWhile (· != c) = text :=
  takeWhile_stop (fun _ hd => bne_iff_ne.mpr fun heq => h (heq ▸ hd)) (by simp)

theorem dropWhile_bne {text more : List Char} (h : c ∉ text) :
    (text ++ c :: more).dropWhile (· != c) = c :: more :=
  dropWhile_stop (fun _ hd => bne_iff_ne.mpr fun heq => h (heq ▸ hd)) (by simp)

theorem quotedMember_eq_ok_iff :
    quotedMember expression c rest = .ok (value, next) ↔ ∃ after more,
      rest = value ++ c :: (after ++ more) ∧ c ∉ value ∧ (∀ d ∈ after, Text.isSpace d = true) ∧
        (more = [] ∧ next = [] ∨ more = ',' :: next) := by
  constructor
  · intro h
    have hsplit := @List.takeWhile_append_dropWhile _ (· != c) rest
    rw [quotedMember] at h
    cases hclosing : rest.dropWhile (· != c) with
    | nil => simp [hclosing] at h
    | cons d behind =>
      obtain rfl := eq_of_dropWhile_bne hclosing
      have hspace := @List.takeWhile_append_dropWhile _ Text.isSpace behind
      rw [hclosing] at h hsplit
      refine ⟨behind.takeWhile Text.isSpace, behind.dropWhile Text.isSpace, ?_⟩
      rw [hspace]
      have hafter : ∀ e ∈ behind.takeWhile Text.isSpace, Text.isSpace e = true :=
        fun e he => List.mem_takeWhile_imp he
      cases hbehind : behind.dropWhile Text.isSpace with
      | nil =>
        simp only [hbehind, Except.pure_eq_ok_iff, Prod.mk.injEq] at h
        obtain ⟨rfl, rfl⟩ := h
        exact ⟨hsplit.symm, notMem_takeWhile_bne, hafter, .inl ⟨rfl, rfl⟩⟩
      | cons e more =>
        simp only [hbehind] at h
        split_ifs at h with hcomma
        · simp only [Except.pure_eq_ok_iff, Prod.mk.injEq] at h
          obtain ⟨rfl, rfl⟩ := h
          exact ⟨hsplit.symm, notMem_takeWhile_bne, hafter, .inr (by rw [hcomma])⟩
        · simp at h
  · rintro ⟨after, more, rfl, hvalue, hafter, hmore⟩
    have hhead : ∀ d ∈ more.head?, Text.isSpace d = false := by
      rcases hmore with ⟨rfl, -⟩ | rfl
      · simp
      · intro d hd
        rw [← Option.some.inj hd]
        decide
    rw [quotedMember, takeWhile_bne hvalue, dropWhile_bne hvalue]
    simp only [dropWhile_stop hafter hhead]
    rcases hmore with ⟨rfl, rfl⟩ | rfl
    · rfl
    · rfl

theorem bareMember_eq_ok_iff :
    bareMember expression raw = .ok (value, next) ↔ ∃ text, ',' ∉ text ∧
      (∀ d ∈ text, isQuote d = false) ∧ value = Text.stripChars text ∧
        (raw = text ∧ next = [] ∨ raw = text ++ ',' :: next) := by
  constructor
  · intro h
    rw [bareMember] at h
    split_ifs at h with hquote
    · simp at h
    · simp only [Except.pure_eq_ok_iff, Prod.mk.injEq] at h
      obtain ⟨rfl, rfl⟩ := h
      have hsplit := @List.takeWhile_append_dropWhile _ (· != ',') raw
      refine ⟨_, notMem_takeWhile_bne, by simpa using hquote, rfl, ?_⟩
      cases hseparator : raw.dropWhile (· != ',') with
      | nil =>
        rw [hseparator, List.append_nil] at hsplit
        exact .inl ⟨hsplit.symm, rfl⟩
      | cons d more =>
        obtain rfl := eq_of_dropWhile_bne hseparator
        rw [hseparator] at hsplit
        exact .inr hsplit.symm
  · rintro ⟨text, hcomma, hquote, rfl, hraw⟩
    have htake : raw.takeWhile (· != ',') = text ∧ (raw.dropWhile (· != ',')).drop 1 = next := by
      rcases hraw with ⟨rfl, rfl⟩ | rfl
      · have hne : ∀ d ∈ raw, (d != ',') = true := fun d hd =>
          bne_iff_ne.mpr fun heq => hcomma (heq ▸ hd)
        have htake := @takeWhile_stop (· != ',') raw [] hne (by simp)
        have hdrop := @dropWhile_stop (· != ',') raw [] hne (by simp)
        rw [List.append_nil] at htake hdrop
        exact ⟨htake, by rw [hdrop]; rfl⟩
      · exact ⟨takeWhile_bne hcomma, by rw [dropWhile_bne hcomma]; rfl⟩
    have hnone : text.any isQuote = false := by simpa using hquote
    rw [bareMember, htake.1, htake.2, hnone]
    rfl

theorem stripChars_append_left {before text : List Char}
    (h : ∀ d ∈ before, Text.isSpace d = true) :
    Text.stripChars (before ++ text) = Text.stripChars text := by
  rw [Text.stripChars, List.dropWhile_append_of_pos h, Text.stripChars]

/-- **The scanner reads an item**, and the comma behind it. -/
theorem nextMember_eq_ok_iff (h : raw.dropWhile Text.isSpace = c :: rest) :
    nextMember expression c rest = .ok (value, next) ↔ ∃ item : Item, item.IsWritten ∧
      item.value = value ∧ (raw = item.render ∧ next = [] ∧ ¬ item.IsBlank ∨
        raw = item.render ++ ',' :: next) := by
  obtain ⟨before, hbefore, hsplit⟩ : ∃ before, (∀ d ∈ before, Text.isSpace d = true) ∧
      raw = before ++ c :: rest := by
    refine ⟨raw.takeWhile Text.isSpace, fun d hd => List.mem_takeWhile_imp hd, ?_⟩
    rw [← h, List.takeWhile_append_dropWhile]
  have hc : Text.isSpace c = false := by
    have hstop := List.head?_dropWhile_not Text.isSpace raw
    rw [h] at hstop
    exact hstop
  constructor
  · intro hnext
    rw [nextMember] at hnext
    split_ifs at hnext with hquote
    · obtain ⟨after, more, rfl, hvalue, hafter, hmore⟩ := quotedMember_eq_ok_iff.mp hnext
      refine ⟨.quoted before c value after, ⟨hbefore, hquote, hvalue, hafter⟩, rfl, ?_⟩
      rcases hmore with ⟨rfl, rfl⟩ | rfl
      · refine .inl ⟨?_, rfl, id⟩
        rw [Item.render, hsplit, List.append_nil]
      · right
        rw [Item.render, hsplit]
        simp
    · obtain ⟨text, hcomma, htext, rfl, hraw⟩ := bareMember_eq_ok_iff.mp hnext
      refine ⟨.bare (before ++ text), ⟨?_, ?_⟩, stripChars_append_left hbefore, ?_⟩
      · rintro hmem
        rcases List.mem_append.mp hmem with hmem | hmem
        · exact absurd (hbefore _ hmem) (by decide)
        · exact hcomma hmem
      · intro d hd
        rcases List.mem_append.mp hd with hd | hd
        · cases hquoteD : isQuote d with
          | false => rfl
          | true =>
            have hspace := hbefore d hd
            rw [isSpace_of_isQuote hquoteD] at hspace
            cases hspace
        · exact htext d hd
      · rcases hraw with ⟨hraw, rfl⟩ | hraw
        · refine .inl ⟨by rw [Item.render, ← hraw, hsplit], rfl, ?_⟩
          intro hblank
          have hspace := hblank c (List.mem_append_right _ (hraw ▸ List.mem_cons_self))
          rw [hc] at hspace
          cases hspace
        · right
          rw [Item.render, List.append_assoc, ← hraw, hsplit]
  · rintro ⟨item, hwritten, rfl, hraw⟩
    obtain ⟨more, hmore, hend, hnext⟩ : ∃ more, raw = item.render ++ more ∧ Ends more ∧
        (more = [] ∧ next = [] ∨ more = ',' :: next) := by
      rcases hraw with ⟨hraw, hnext, -⟩ | hraw
      · exact ⟨[], by rw [List.append_nil, hraw], .inl rfl, .inl ⟨rfl, hnext⟩⟩
      · exact ⟨',' :: next, hraw, .inr ⟨next, rfl⟩, .inr rfl⟩
    cases item with
    | quoted before quote text after =>
      obtain ⟨hbeforeItem, hquote, htext, hafter⟩ := hwritten
      have hdrop : raw.dropWhile Text.isSpace = quote :: (text ++ quote :: (after ++ more)) := by
        have hrender : raw = before ++ quote :: (text ++ quote :: (after ++ more)) := by
          rw [hmore, Item.render]
          simp
        rw [hrender]
        refine dropWhile_stop hbeforeItem ?_
        intro d hd
        rw [← Option.some.inj hd]
        exact isSpace_of_isQuote hquote
      rw [h] at hdrop
      obtain ⟨rfl, rfl⟩ := List.cons.inj hdrop
      rw [nextMember, if_pos hquote]
      exact quotedMember_eq_ok_iff.mpr ⟨after, more, rfl, htext, hafter, hnext⟩
    | bare text =>
      obtain ⟨hcomma, htext⟩ := hwritten
      have hquote : isQuote c = false := by
        refine isQuote_head_of_bare htext hend c ?_
        have hrender : text ++ more = raw := hmore.symm
        rw [hrender, h]
        rfl
      have hdrop : c :: rest = text.dropWhile Text.isSpace ++ more := by
        rw [← h, hmore, Item.render, dropWhile_isSpace_append hend]
      have hkept : ∀ d ∈ text.dropWhile Text.isSpace, d ∈ text :=
        fun d hd => (List.dropWhile_suffix _).subset hd
      rw [nextMember, if_neg (by simp [hquote]), bareMember_eq_ok_iff]
      refine ⟨text.dropWhile Text.isSpace, fun hmem => hcomma (hkept _ hmem),
        fun d hd => htext d (hkept d hd), ?_, ?_⟩
      · rw [Item.value, Text.stripChars, Text.stripChars, List.dropWhile_idempotent]
      · rcases hnext with ⟨rfl, rfl⟩ | rfl
        · rw [List.append_nil] at hdrop
          exact .inl ⟨hdrop, rfl⟩
        · exact .inr hdrop

theorem listed_cons {item : Item} {items : List Item} (h : items ≠ []) :
    listed (item :: items) = item.value :: listed items := by
  cases items with
  | nil => exact absurd rfl h
  | cons => rfl

theorem reads_blank (h : ∀ d ∈ raw, Text.isSpace d = true) : Reads raw [.bare raw] := by
  refine ⟨List.cons_ne_nil _ _, ?_, rfl⟩
  rintro item hitem
  obtain rfl := List.mem_singleton.mp hitem
  refine ⟨fun hcomma => absurd (h _ hcomma) (by decide), fun d hd => ?_⟩
  cases hquote : isQuote d with
  | false => rfl
  | true =>
    have hspace := h d hd
    rw [isSpace_of_isQuote hquote] at hspace
    cases hspace

theorem inListValuesFrom_nil {fuel : ℕ} : inListValuesFrom expression fuel [] = .ok [] := by
  cases fuel <;> rfl

/-- A blank list has no members. -/
theorem exists_reads_blank_iff (h : ∀ d ∈ raw, Text.isSpace d = true) {values : List (List Char)} :
    (∃ items, Reads raw items ∧ listed items = values) ↔ values = [] := by
  have hlisted : listed [.bare raw] = [] := if_pos h
  constructor
  · rintro ⟨items, hitems, rfl⟩
    rw [reads_unique hitems (reads_blank h), hlisted]
  · rintro rfl
    exact ⟨_, reads_blank h, hlisted⟩

theorem inListValuesFrom_eq_ok_iff {fuel : ℕ} (hfuel : raw.length ≤ fuel)
    {values : List (List Char)} :
    inListValuesFrom expression fuel raw = .ok values ↔
      ∃ items, Reads raw items ∧ listed items = values := by
  induction fuel generalizing raw values with
  | zero =>
    obtain rfl := List.eq_nil_of_length_eq_zero (Nat.le_zero.mp hfuel)
    rw [exists_reads_blank_iff (by simp), inListValuesFrom_nil, Except.ok.injEq, eq_comm]
  | succ fuel ih =>
    rw [inListValuesFrom]
    cases hdrop : raw.dropWhile Text.isSpace with
    | nil =>
      rw [exists_reads_blank_iff (List.dropWhile_eq_nil_iff.mp hdrop), Except.pure_eq_ok_iff, eq_comm]
    | cons c rest =>
      have hnotBlank : ¬ ∀ d ∈ raw, Text.isSpace d = true := by
        intro hblank
        rw [List.dropWhile_eq_nil_iff.mpr hblank] at hdrop
        cases hdrop
      simp only [Except.bind_eq_ok_iff, Except.pure_eq_ok_iff]
      constructor
      · rintro ⟨⟨value, next⟩, hnext, more, hmore, rfl⟩
        obtain ⟨item, hwritten, rfl, ⟨rfl, rfl, hfilled⟩ | rfl⟩ := (nextMember_eq_ok_iff hdrop).mp hnext
        · rw [inListValuesFrom_nil, Except.ok.injEq] at hmore
          subst hmore
          exact ⟨[item], reads_cons.mpr ⟨hwritten, .inl ⟨rfl, rfl⟩⟩, if_neg hfilled⟩
        · have hshort : next.length ≤ fuel := by
            rw [List.length_append, List.length_cons] at hfuel
            omega
          obtain ⟨items, hitems, rfl⟩ := (ih hshort).mp hmore
          exact ⟨item :: items, reads_cons.mpr ⟨hwritten, .inr ⟨next, hitems, rfl⟩⟩,
            listed_cons hitems.ne_nil⟩
      · rintro ⟨items, hitems, rfl⟩
        cases items with
        | nil => exact absurd rfl hitems.ne_nil
        | cons item items =>
          obtain ⟨hwritten, ⟨rfl, rfl⟩ | ⟨next, hmore, rfl⟩⟩ := reads_cons.mp hitems
          · have hfilled : ¬ item.IsBlank := by
              intro hblank
              cases item with
              | quoted => exact hblank
              | bare text => exact hnotBlank hblank
            exact ⟨(item.value, []), (nextMember_eq_ok_iff hdrop).mpr
              ⟨item, hwritten, rfl, .inl ⟨rfl, rfl, hfilled⟩⟩, [], inListValuesFrom_nil,
              (if_neg hfilled).symm⟩
          · have hshort : next.length ≤ fuel := by
              rw [List.length_append, List.length_cons] at hfuel
              omega
            exact ⟨(item.value, next), (nextMember_eq_ok_iff hdrop).mpr
              ⟨item, hwritten, rfl, .inr rfl⟩, listed items, (ih hshort).mpr ⟨items, hmore, rfl⟩,
              (listed_cons hmore.ne_nil).symm⟩

/-- **The scanner reads the texts that are lists of items**, and these only. -/
theorem inListValues_eq_ok_iff {values : List (List Char)} :
    inListValues raw expression = .ok values ↔ ∃ items, Reads raw items ∧ listed items = values :=
  inListValuesFrom_eq_ok_iff le_rfl

end Scanner

/-! ### The form of an expression -/

/-- `object.name in [body]`, as the pattern has it: space on both sides of `in`, and a newline at the end
or none. -/
structure IsMembership (expression name body : List Char) : Prop where
  ne_nil : name ≠ []
  start : ∀ c ∈ name.head?, isNameStart c = true
  chars : ∀ c ∈ name, isNameChar c = true
  line : '\n' ∉ body
  form : ∃ before after last, before ≠ [] ∧ after ≠ [] ∧ (∀ c ∈ before, Text.isSpace c = true) ∧
    (∀ c ∈ after, Text.isSpace c = true) ∧ (last = [] ∨ last = ['\n']) ∧
      expression = "object.".toList ++ (name ++ (before ++ ("in".toList ++ (after ++
        ('[' :: (body ++ ']' :: last))))))

theorem behind_eq_some_iff {text chars rest : List Char} :
    behind text chars = some rest ↔ chars = text ++ rest := by
  rw [behind]
  constructor
  · intro h
    split_ifs at h with hstarts
    obtain ⟨more, rfl⟩ := hstarts
    rw [List.drop_left, Option.some.injEq] at h
    rw [h]
  · rintro rfl
    rw [if_pos (List.prefix_append _ _), List.drop_left]

theorem spacedText_eq_some_iff {text chars rest : List Char}
    (htext : ∀ c ∈ text.head?, Text.isSpace c = false) (hne : text ≠ []) :
    spacedText text chars = some rest ↔ ∃ spaces, spaces ≠ [] ∧
      (∀ c ∈ spaces, Text.isSpace c = true) ∧ chars = spaces ++ (text ++ rest) := by
  constructor
  · intro h
    cases chars with
    | nil => cases h
    | cons c chars =>
      simp only [spacedText] at h
      split_ifs at h with hspace
      refine ⟨c :: chars.takeWhile Text.isSpace, List.cons_ne_nil _ _, ?_, ?_⟩
      · rintro d (_ | ⟨_, hd⟩)
        · exact hspace
        · exact List.mem_takeWhile_imp hd
      · rw [← behind_eq_some_iff.mp h, List.cons_append, List.takeWhile_append_dropWhile]
  · rintro ⟨spaces, hspaces, hall, rfl⟩
    cases spaces with
    | nil => exact absurd rfl hspaces
    | cons c spaces =>
      have hrest : ∀ d ∈ (text ++ rest).head?, Text.isSpace d = false := by
        cases text with
        | nil => exact absurd rfl hne
        | cons d text => exact htext
      have hdrop : (spaces ++ (text ++ rest)).dropWhile Text.isSpace = text ++ rest :=
        dropWhile_stop (fun d hd => hall d (List.mem_cons_of_mem _ hd)) hrest
      simp only [List.cons_append, spacedText, hall c List.mem_cons_self, if_true, hdrop]
      exact behind_eq_some_iff.mpr rfl

theorem listBody_eq_some_iff {chars body : List Char} :
    listBody chars = some body ↔ '\n' ∉ body ∧ ∃ last, (last = [] ∨ last = ['\n']) ∧
      chars = body ++ ']' :: last := by
  have hline : ∀ {line : List Char}, (if line.getLast? = some ']' ∧ '\n' ∉ line.dropLast then
      some line.dropLast else none) = some body ↔ '\n' ∉ body ∧ line = body ++ [']'] := by
    intro line
    constructor
    · intro h
      split_ifs at h with hbracket
      obtain ⟨init, rfl⟩ := List.getLast?_eq_some_iff.mp hbracket.1
      rw [List.dropLast_concat, Option.some.injEq] at h
      rw [List.dropLast_concat] at hbracket
      exact ⟨h ▸ hbracket.2, h ▸ rfl⟩
    · rintro ⟨hbody, rfl⟩
      rw [List.dropLast_concat, if_pos ⟨List.getLast?_concat, hbody⟩]
  simp only [listBody]
  rw [hline]
  refine and_congr_right fun _ => ?_
  constructor
  · intro h
    split_ifs at h with hnewline
    · obtain ⟨init, rfl⟩ := List.getLast?_eq_some_iff.mp hnewline
      rw [List.dropLast_concat] at h
      exact ⟨['\n'], .inr rfl, by rw [h, List.append_assoc]; rfl⟩
    · exact ⟨[], .inl rfl, h⟩
  · rintro ⟨last, rfl | rfl, rfl⟩
    · rw [if_neg (by simp)]
    · have hsplit : body ++ ']' :: ['\n'] = (body ++ [']']) ++ ['\n'] := by simp
      rw [hsplit, List.getLast?_concat, if_pos rfl, List.dropLast_concat]

theorem isNameChar_of_isSpace {c : Char} (h : Text.isSpace c = true) : isNameChar c = false := by
  cases hname : isNameChar c with
  | false => rfl
  | true =>
    have hunderscore : '_'.toNat = 95 := rfl
    simp only [isNameChar, Bool.or_eq_true, beq_iff_eq] at hname
    simp only [Text.isSpace, Bool.or_eq_true, Bool.and_eq_true, decide_eq_true_eq, beq_iff_eq] at h
    rcases hname with hname | rfl
    · simp only [Char.isAlphanum, Char.isAlpha, Char.isUpper, Char.isLower, Char.isDigit,
        Bool.or_eq_true, Bool.and_eq_true, decide_eq_true_eq, UInt32.le_iff_toNat_le, ge_iff_le] at hname
      have hval : c.toNat = c.val.toNat := rfl
      have hA : 'A'.val.toNat = 65 := rfl
      have hZ : 'Z'.val.toNat = 90 := rfl
      have ha : 'a'.val.toNat = 97 := rfl
      have hz : 'z'.val.toNat = 122 := rfl
      have hzero : '0'.val.toNat = 48 := rfl
      have hnine : '9'.val.toNat = 57 := rfl
      omega
    · omega

theorem objectName_eq_some_iff {expression name rest : List Char} :
    objectName expression = some (name, rest) ↔ name ≠ [] ∧
      (∀ c ∈ name.head?, isNameStart c = true) ∧ (∀ c ∈ name, isNameChar c = true) ∧
        (∀ c ∈ rest.head?, isNameChar c = false) ∧
          expression = "object.".toList ++ (name ++ rest) := by
  have hstart : ∀ {c : Char}, isNameStart c = true → isNameChar c = true := by
    intro c h
    simp only [isNameStart, Bool.or_eq_true] at h
    rcases h with h | h
    · simp [isNameChar, Char.isAlphanum, h]
    · simp [isNameChar, h]
  simp only [objectName, Option.bind_eq_bind, Option.bind_eq_some_iff, behind_eq_some_iff]
  constructor
  · rintro ⟨chars, rfl, h⟩
    cases chars with
    | nil => cases h
    | cons c chars =>
      simp only at h
      split_ifs at h with hc
      obtain ⟨rfl, rfl⟩ := Prod.mk.inj (Option.some.inj h)
      refine ⟨List.cons_ne_nil _ _, ?_, ?_, ?_, ?_⟩
      · intro d hd
        rw [← Option.some.inj hd]
        exact hc
      · rintro d (_ | ⟨_, hd⟩)
        · exact hstart hc
        · exact List.mem_takeWhile_imp hd
      · intro d hd
        have hstop := List.head?_dropWhile_not isNameChar chars
        rw [Option.mem_def.mp hd] at hstop
        exact hstop
      · rw [List.cons_append, List.takeWhile_append_dropWhile]
  · rintro ⟨hne, hhead, hchars, hrest, rfl⟩
    cases name with
    | nil => exact absurd rfl hne
    | cons c name =>
      have htail : ∀ d ∈ name, isNameChar d = true := fun d hd => hchars d (List.mem_cons_of_mem _ hd)
      refine ⟨c :: name ++ rest, rfl, ?_⟩
      simp only [List.cons_append, hhead c rfl, if_true, takeWhile_stop htail hrest,
        dropWhile_stop htail hrest]

/-- **What the pattern of a membership matches.** -/
theorem objectIn_eq_some_iff {expression name body : List Char} :
    objectIn expression = some (name, body) ↔ IsMembership expression name body := by
  have hspaced : ∀ {text chars rest : List Char}, text = "in".toList ∨ text = ['['] →
      (spacedText text chars = some rest ↔ ∃ spaces, spaces ≠ [] ∧
        (∀ c ∈ spaces, Text.isSpace c = true) ∧ chars = spaces ++ (text ++ rest)) := by
    rintro text chars rest (rfl | rfl)
    · exact spacedText_eq_some_iff (by simp [Text.isSpace]) (by decide)
    · exact spacedText_eq_some_iff (by simp [Text.isSpace]) (by decide)
  constructor
  · intro h
    simp only [objectIn, Option.bind_eq_bind, Option.bind_eq_some_iff, Prod.exists] at h
    obtain ⟨name', rest, hname, middle, hin, list, hbracket, body', hbody, heq⟩ := h
    obtain ⟨rfl, rfl⟩ := Prod.mk.inj (Option.some.inj heq)
    obtain ⟨hne, hhead, hchars, -, rfl⟩ := objectName_eq_some_iff.mp hname
    obtain ⟨before, hbefore, hbeforeSpace, rfl⟩ := (hspaced (.inl rfl)).mp hin
    obtain ⟨after, hafter, hafterSpace, rfl⟩ := (hspaced (.inr rfl)).mp hbracket
    obtain ⟨hline, last, hlast, rfl⟩ := listBody_eq_some_iff.mp hbody
    exact ⟨hne, hhead, hchars, hline, before, after, last, hbefore, hafter, hbeforeSpace, hafterSpace,
      hlast, rfl⟩
  · rintro ⟨hne, hhead, hchars, hline, before, after, last, hbefore, hafter, hbeforeSpace,
      hafterSpace, hlast, rfl⟩
    simp only [objectIn, Option.bind_eq_bind, Option.bind_eq_some_iff, Prod.exists]
    refine ⟨name, _, objectName_eq_some_iff.mpr ⟨hne, hhead, hchars, ?_, rfl⟩, _,
      (hspaced (.inl rfl)).mpr ⟨before, hbefore, hbeforeSpace, rfl⟩, _,
      (hspaced (.inr rfl)).mpr ⟨after, hafter, hafterSpace, rfl⟩, body,
      listBody_eq_some_iff.mpr ⟨hline, last, hlast, rfl⟩, rfl⟩
    cases before with
    | nil => exact absurd rfl hbefore
    | cons c before =>
      intro d hd
      rw [← Option.some.inj hd]
      exact isNameChar_of_isSpace (hbeforeSpace c List.mem_cons_self)

/-! ### The members that are written -/

/-- A quoted text, or a word without brackets. -/
def IsMember : Item → Prop
  | .quoted _ _ _ _ => True
  | .bare text => (∃ c ∈ text, Text.isSpace c = false) ∧ '[' ∉ text ∧ ']' ∉ text

/-- The members that a list names. -/
inductive Writes : List Char → List (List Char) → Prop where
  | blank {body : List Char} (h : ∀ c ∈ body, Text.isSpace c = true) : Writes body []
  | items {body : List Char} {items : List Item} (h : Reads body items)
      (hmember : ∀ item ∈ items, IsMember item) : Writes body (items.map Item.value)

/-- Wherever the expression has a value, its list names members, and the value says whether the property
is one of them; a property that is missing is none. -/
def IsExact (env : Serialiser) (expression : String) (name body : List Char) : Prop :=
  ∀ (properties : Mapping) (result : Bool),
    evaluateSafeExpression env expression properties = .ok result →
      (∃ members, Writes body members ∧ (result = true ↔ ∃ member ∈ members,
        comparableValue env (properties.lookup (String.ofList name)) = some (String.ofList member))) ∧
      (properties.lookup (String.ofList name) = none → result = false)

/-- An item that is no member: a bare one that is empty, or that has a bracket. -/
def HasStrayItem (body : List Char) : Prop :=
  (∃ c ∈ body, Text.isSpace c = false) ∧ ∃ items, Reads body items ∧ ∃ item ∈ items, ¬ IsMember item

section Membership

variable {env : Serialiser} {expression : String} {name body : List Char}

/-- What a membership is, where the scanner accepts its list. -/
theorem evaluateSafeExpression_eq_ok_iff (h : IsMembership expression.toList name body)
    {properties : Mapping} {result : Bool} :
    evaluateSafeExpression env expression properties = .ok result ↔ ∃ items, Reads body items ∧
      (result = true ↔ ∃ member ∈ listed items,
        comparableValue env (properties.lookup (String.ofList name)) = some (String.ofList member)) := by
  simp only [evaluateSafeExpression, objectIn_eq_some_iff.mpr h, Except.bind_eq_ok_iff,
    inListValues_eq_ok_iff, Except.pure_eq_ok_iff]
  have hmem : ∀ values : List (List Char),
      comparableValue env (properties.lookup (String.ofList name)) ∈
        (values.map fun member => some (String.ofList member)) ↔ ∃ member ∈ values,
          comparableValue env (properties.lookup (String.ofList name)) =
            some (String.ofList member) := by
    intro values
    rw [List.mem_map]
    exact exists_congr fun member => and_congr_right fun _ => eq_comm
  constructor
  · rintro ⟨_, ⟨items, hitems, rfl⟩, rfl⟩
    exact ⟨items, hitems, by rw [decide_eq_true_iff, hmem]⟩
  · rintro ⟨items, hitems, hresult⟩
    refine ⟨_, ⟨items, hitems, rfl⟩, ?_⟩
    rw [Bool.eq_iff_iff, decide_eq_true_iff, hmem, hresult]

/-- The members of a list without stray items are what is read off it. -/
theorem writes_listed {items : List Item} (hitems : Reads body items)
    (h : ¬ HasStrayItem body) : Writes body (listed items) := by
  by_cases hblank : ∀ c ∈ body, Text.isSpace c = true
  · rw [(exists_reads_blank_iff hblank).mp ⟨items, hitems, rfl⟩]
    exact .blank hblank
  · have hmember : ∀ item ∈ items, IsMember item := by
      intro item hitem
      by_contra hnot
      refine h ⟨?_, items, hitems, item, hitem, hnot⟩
      push Not at hblank
      simpa using hblank
    have hlisted : ∀ {items : List Item}, (∀ item ∈ items, IsMember item) →
        listed items = items.map Item.value := by
      intro items hmember
      induction items with
      | nil => rfl
      | cons item items ih =>
        cases items with
        | nil =>
          refine if_neg ?_
          intro hblank
          have hitem := hmember item List.mem_cons_self
          cases item with
          | quoted => exact hblank
          | bare text =>
            obtain ⟨⟨c, hc, hspace⟩, -⟩ := hitem
            rw [hblank c hc] at hspace
            cases hspace
        | cons next items =>
          rw [listed_cons (List.cons_ne_nil _ _), List.map_cons,
            ih fun i hi => hmember i (List.mem_cons_of_mem _ hi)]
    rw [hlisted hmember]
    exact .items hitems hmember

/-- **Membership is exact where the list has no stray items**, and nowhere else. -/
theorem isExact_iff (h : IsMembership expression.toList name body) :
    IsExact env expression name body ↔ ¬ HasStrayItem body := by
  constructor
  · rintro hexact ⟨⟨c, hc, hspace⟩, items, hitems, item, hitem, hstray⟩
    have hvalue : ∃ result, evaluateSafeExpression env expression [] = .ok result := by
      simp only [evaluateSafeExpression_eq_ok_iff h]
      refine ⟨false, items, hitems, ?_⟩
      simp [comparableValue]
    obtain ⟨result, hresult⟩ := hvalue
    obtain ⟨⟨members, hwrites, -⟩, -⟩ := hexact [] result hresult
    cases hwrites with
    | blank hblank =>
      rw [hblank c hc] at hspace
      cases hspace
    | items hother hmember =>
      obtain rfl := reads_unique hother hitems
      exact hstray (hmember item hitem)
  · intro hstray properties result hresult
    obtain ⟨items, hitems, hvalue⟩ := (evaluateSafeExpression_eq_ok_iff h).mp hresult
    refine ⟨⟨listed items, writes_listed hitems hstray, hvalue⟩, ?_⟩
    intro hmissing
    rw [hmissing] at hvalue
    cases result with
    | false => rfl
    | true =>
      obtain ⟨member, -, hmember⟩ := hvalue.mp rfl
      cases hmember

end Membership

/-- Text forms that no example asks for. -/
def noTexts : Serialiser := ⟨fun _ => "", fun _ => ""⟩

theorem isExact_words_iff :
    IsExact noTexts "object.status in [open, on hold]" "status".toList "open, on hold".toList ↔
      ¬ HasStrayItem "open, on hold".toList :=
  isExact_iff (objectIn_eq_some_iff.mp (by decide +kernel))

/-- Nothing is written between the commas, and the empty text is admitted. -/
theorem not_isExact_emptyMember :
    IsMembership "object.status in [open,,held]".toList "status".toList "open,,held".toList ∧
      evaluateSafeExpression noTexts "object.status in [open,,held]" [("status", .str "")] = .ok true ∧
        ¬ IsExact noTexts "object.status in [open,,held]" "status".toList "open,,held".toList := by
  have hvalue : evaluateSafeExpression noTexts "object.status in [open,,held]"
      [("status", .str "")] = .ok true := by decide +kernel
  have hreads : Reads "open,,held".toList [.bare "open".toList, .bare [], .bare "held".toList] := by
    refine ⟨List.cons_ne_nil _ _, ?_, by decide⟩
    simp only [List.mem_cons, List.not_mem_nil, or_false]
    rintro item (rfl | rfl | rfl) <;> simp [Item.IsWritten, isQuote, singleQuote, doubleQuote]
  refine ⟨objectIn_eq_some_iff.mp (by decide +kernel), hvalue, ?_⟩
  intro hexact
  obtain ⟨⟨members, hwrites, -⟩, -⟩ := hexact _ _ hvalue
  generalize hbody : "open,,held".toList = body at hwrites hreads
  cases hwrites with
  | blank hblank =>
    have hspace := hblank 'o' (by rw [← hbody]; decide)
    revert hspace
    decide
  | items hother hmember =>
    obtain rfl := reads_unique hother hreads
    obtain ⟨⟨c, hc, -⟩, -⟩ := hmember (.bare []) (by simp)
    cases hc

end FoundryLite.Actions.SafeExpression
