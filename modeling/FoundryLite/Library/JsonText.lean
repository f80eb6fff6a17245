import FoundryLite.Library.Dict
import Mathlib.Data.String.Basic
import Mathlib.Tactic.IntervalCases

/-!
# The compact text of a JSON document

A document is written without blanks, with every character of a string outside the printable ASCII ones
escaped. Numbers are tokens. The text can be read back, so a document is determined by its text
(`render_injective`): a character's escape is read back by `unescape`, and what follows a value begins
with a delimiter, which no number contains.

## Main results

* `unescape_escape`: an escape can be read off the front of a text.
* `render_append_inj`, `render_injective`: so can a document.
-/

namespace JsonText

/-! ### Escapes -/

def hexDigit (n : ℕ) : Char := Nat.digitChar n

def hexValue (c : Char) : ℕ := if c.toNat < 58 then c.toNat - 48 else c.toNat - 87

theorem hexValue_hexDigit {n : ℕ} (h : n < 16) : hexValue (hexDigit n) = n := by
  interval_cases n <;> rfl

/-- Four digits. -/
def hex4 (n : ℕ) : List Char :=
  [hexDigit (n / 4096 % 16), hexDigit (n / 256 % 16), hexDigit (n / 16 % 16), hexDigit (n % 16)]

def ofHex4 (a b c d : Char) : ℕ := ((hexValue a * 16 + hexValue b) * 16 + hexValue c) * 16 + hexValue d

theorem ofHex4_hex4 {n : ℕ} (h : n < 65536) : ofHex4 (hexDigit (n / 4096 % 16)) (hexDigit (n / 256 % 16))
    (hexDigit (n / 16 % 16)) (hexDigit (n % 16)) = n := by
  rw [ofHex4, hexValue_hexDigit (Nat.mod_lt _ (by decide)), hexValue_hexDigit (Nat.mod_lt _ (by decide)),
    hexValue_hexDigit (Nat.mod_lt _ (by decide)), hexValue_hexDigit (Nat.mod_lt _ (by decide))]
  omega

/-- The characters with an escape of their own, and its letter. -/
def shortEscapes : List (Char × Char) :=
  [('\\', '\\'), ('"', '"'), ('\n', 'n'), ('\r', 'r'), ('\t', 't'), (Char.ofNat 8, 'b'), (Char.ofNat 12, 'f')]

/-- A character in a string. -/
def escape (c : Char) : List Char :=
  match shortEscapes.lookup c with
  | some letter => ['\\', letter]
  | none =>
    if 32 ≤ c.toNat ∧ c.toNat < 127 then [c]
    else if c.toNat < 65536 then '\\' :: 'u' :: hex4 c.toNat
    else '\\' :: 'u' :: (hex4 (55296 + (c.toNat - 65536) / 1024) ++
      '\\' :: 'u' :: hex4 (56320 + (c.toNat - 65536) % 1024))

/-- Read a character off the front of a string's text. -/
def unescape : List Char → Option (Char × List Char)
  | '\\' :: 'u' :: a :: b :: c :: d :: rest =>
    let n := ofHex4 a b c d
    if 55296 ≤ n ∧ n < 57344 then
      match rest with
      | '\\' :: 'u' :: e :: f :: g :: h :: rest =>
        some (Char.ofNat (65536 + (n - 55296) * 1024 + (ofHex4 e f g h - 56320)), rest)
      | _ => none
    else some (Char.ofNat n, rest)
  | '\\' :: letter :: rest =>
    ((shortEscapes.find? fun entry => entry.2 = letter).map Prod.fst).map fun c => (c, rest)
  | '"' :: _ => none
  | c :: rest => some (c, rest)
  | [] => none

theorem not_surrogate (c : Char) : ¬ (55296 ≤ c.toNat ∧ c.toNat < 57344) := by
  have hvalid := c.valid
  simp only [UInt32.isValidChar, Nat.isValidChar] at hvalid
  have htoNat : c.val.toNat = c.toNat := rfl
  omega

theorem lt_of_char (c : Char) : c.toNat < 1114112 := by
  have hvalid := c.valid
  simp only [UInt32.isValidChar, Nat.isValidChar] at hvalid
  have htoNat : c.val.toNat = c.toNat := rfl
  omega

/-- **An escape can be read off the front of a text.** -/
theorem unescape_escape (c : Char) (rest : List Char) : unescape (escape c ++ rest) = some (c, rest) := by
  rw [escape]
  cases hshort : shortEscapes.lookup c with
  | some letter =>
    simp only
    have hcases := Dict.mem_of_lookup_eq_some hshort
    simp only [shortEscapes, List.mem_cons, Prod.mk.injEq, List.not_mem_nil, or_false] at hcases
    rcases hcases with ⟨rfl, rfl⟩ | ⟨rfl, rfl⟩ | ⟨rfl, rfl⟩ | ⟨rfl, rfl⟩ | ⟨rfl, rfl⟩ | ⟨rfl, rfl⟩ | ⟨rfl, rfl⟩
    all_goals rfl
  | none =>
    have hbackslash : c ≠ '\\' := by
      rintro rfl
      simp [shortEscapes] at hshort
    have hquote : c ≠ '"' := by
      rintro rfl
      simp [shortEscapes] at hshort
    simp only
    split_ifs with hplain hsmall
    · rw [List.singleton_append, unescape]
      · simp [hbackslash]
      · simp [hbackslash]
      · simp [hquote]
    · simp only [hex4, List.cons_append, List.nil_append, unescape]
      rw [ofHex4_hex4 hsmall, if_neg (not_surrogate c), Char.ofNat_toNat]
    · have hlt := lt_of_char c
      simp only [hex4, List.cons_append, List.nil_append, unescape]
      rw [ofHex4_hex4 (by omega), ofHex4_hex4 (by omega), if_pos (by omega)]
      have hnumber : 65536 + (55296 + (c.toNat - 65536) / 1024 - 55296) * 1024 +
          (56320 + (c.toNat - 65536) % 1024 - 56320) = c.toNat := by omega
      rw [hnumber, Char.ofNat_toNat]

/-! ### Strings -/

/-- The characters of a string, up to its closing quote. -/
def quoteRest : List Char → List Char
  | [] => ['"']
  | c :: chars => escape c ++ quoteRest chars

def quote (text : String) : List Char := '"' :: quoteRest text.toList

theorem unescape_quote (rest : List Char) : unescape ('"' :: rest) = none := rfl

theorem quoteRest_append_inj {chars chars' rest rest' : List Char}
    (h : quoteRest chars ++ rest = quoteRest chars' ++ rest') : chars = chars' ∧ rest = rest' := by
  induction chars generalizing chars' with
  | nil =>
    cases chars' with
    | nil => exact ⟨rfl, (List.cons.inj h).2⟩
    | cons c' chars' =>
      have hread := congrArg unescape h
      rw [quoteRest, quoteRest, List.append_assoc, unescape_escape, List.singleton_append,
        unescape_quote] at hread
      exact absurd hread (by simp)
  | cons c chars ih =>
    have hread := congrArg unescape h
    rw [quoteRest, List.append_assoc, unescape_escape] at hread
    cases chars' with
    | nil =>
      rw [quoteRest, List.singleton_append, unescape_quote] at hread
      exact absurd hread (by simp)
    | cons c' chars' =>
      rw [quoteRest, List.append_assoc, unescape_escape, Option.some.injEq, Prod.mk.injEq] at hread
      obtain ⟨rfl, hrest⟩ := hread
      obtain ⟨rfl, rfl⟩ := ih hrest
      exact ⟨rfl, rfl⟩

theorem quote_append_inj {text text' : String} {rest rest' : List Char}
    (h : quote text ++ rest = quote text' ++ rest') : text = text' ∧ rest = rest' := by
  obtain ⟨htext, hrest⟩ := quoteRest_append_inj (List.cons.inj h).2
  exact ⟨String.toList_injective htext, hrest⟩

/-! ### Documents -/

/-- A document whose numbers are tokens. -/
inductive Doc
  | null
  | bool (b : Bool)
  | num (token : List Char)
  | str (text : String)
  | arr (items : List Doc)
  | obj (fields : List (String × Doc))

mutual

/-- The text of a document. -/
def render : Doc → List Char
  | .null => ['n', 'u', 'l', 'l']
  | .bool true => ['t', 'r', 'u', 'e']
  | .bool false => ['f', 'a', 'l', 's', 'e']
  | .num token => token
  | .str text => quote text
  | .arr [] => ['[', ']']
  | .arr (item :: items) => '[' :: (render item ++ renderItems items)
  | .obj [] => ['{', '}']
  | .obj ((key, value) :: fields) => '{' :: (quote key ++ ':' :: (render value ++ renderFields fields))

/-- The other items, up to the closing bracket. -/
def renderItems : List Doc → List Char
  | [] => [']']
  | item :: items => ',' :: (render item ++ renderItems items)

/-- The other fields, up to the closing brace. -/
def renderFields : List (String × Doc) → List Char
  | [] => ['}']
  | (key, value) :: fields => ',' :: (quote key ++ ':' :: (render value ++ renderFields fields))

end

/-- What can stand behind a value. -/
def isDelimiter (c : Char) : Bool := c = ',' || c = ']' || c = '}'

/-- What a value that is no number begins with. -/
def isOpening (c : Char) : Bool := c = 'n' || c = 't' || c = 'f' || c = '"' || c = '[' || c = '{'

/-- The text of a number: it begins like no other value and contains no delimiter. -/
structure Token (token : List Char) : Prop where
  begins : ∃ c rest, token = c :: rest ∧ isOpening c = false
  plain : ∀ c ∈ token, isDelimiter c = false

mutual

/-- All numbers of the document are tokens. -/
def Tokens : Doc → Prop
  | .num token => Token token
  | .arr items => ItemTokens items
  | .obj fields => FieldTokens fields
  | _ => True

def ItemTokens : List Doc → Prop
  | [] => True
  | item :: items => Tokens item ∧ ItemTokens items

def FieldTokens : List (String × Doc) → Prop
  | [] => True
  | (_, value) :: fields => Tokens value ∧ FieldTokens fields

end

/-- Nothing, or something that begins with a delimiter. -/
def Delimited (rest : List Char) : Prop := ∀ c ∈ rest.head?, isDelimiter c = true

theorem delimited_renderItems (items : List Doc) (rest : List Char) :
    Delimited (renderItems items ++ rest) := by
  cases items with
  | nil => simp [renderItems, Delimited, isDelimiter]
  | cons item items => simp [renderItems, Delimited, isDelimiter]

theorem delimited_renderFields (fields : List (String × Doc)) (rest : List Char) :
    Delimited (renderFields fields ++ rest) := by
  cases fields with
  | nil => simp [renderFields, Delimited, isDelimiter]
  | cons field fields => simp [renderFields, Delimited, isDelimiter]

/-- Two tokens before delimiters are the same token. -/
theorem token_append_inj {token token' rest rest' : List Char} (htoken : Token token)
    (htoken' : Token token') (hrest : Delimited rest) (hrest' : Delimited rest')
    (h : token ++ rest = token' ++ rest') : token = token' ∧ rest = rest' := by
  have htake : ∀ {xs ys : List Char}, Token xs → Delimited ys →
      (xs ++ ys).takeWhile (fun c => !isDelimiter c) = xs := by
    intro xs ys hxs hys
    rw [List.takeWhile_append_of_pos fun c hc => by simp [hxs.plain c hc]]
    cases ys with
    | nil => simp
    | cons y ys =>
      rw [List.takeWhile_cons_of_neg (by simp [hys y rfl]), List.append_nil]
  have hsame := congrArg (List.takeWhile fun c => !isDelimiter c) h
  rw [htake htoken hrest, htake htoken' hrest'] at hsame
  subst hsame
  exact ⟨rfl, List.append_cancel_left h⟩

/-- What a document that is no number begins with. -/
def opening : Doc → Option Char
  | .null => some 'n'
  | .bool true => some 't'
  | .bool false => some 'f'
  | .num _ => none
  | .str _ => some '"'
  | .arr _ => some '['
  | .obj _ => some '{'

/-- A text begins with what says which kind of document it is. -/
theorem exists_render_eq_cons {a : Doc} (h : Tokens a) : ∃ c rest, render a = c :: rest ∧
    isDelimiter c = false ∧ (if isOpening c then some c else none) = opening a := by
  cases a with
  | null => exact ⟨_, _, rfl, rfl, rfl⟩
  | bool b => cases b <;> exact ⟨_, _, rfl, rfl, rfl⟩
  | num token =>
    have htoken : Token token := h
    obtain ⟨c, rest, rfl, hopening⟩ := htoken.begins
    refine ⟨c, rest, rfl, htoken.plain c List.mem_cons_self, ?_⟩
    simp [hopening, opening]
  | str text => exact ⟨_, _, rfl, rfl, rfl⟩
  | arr items => cases items <;> exact ⟨_, _, rfl, rfl, rfl⟩
  | obj fields => cases fields <;> exact ⟨_, _, rfl, rfl, rfl⟩

theorem opening_eq {a b : Doc} {rest rest' : List Char} (ha : Tokens a) (hb : Tokens b)
    (h : render a ++ rest = render b ++ rest') : opening a = opening b := by
  obtain ⟨c, l, hl, -, hopening⟩ := exists_render_eq_cons ha
  obtain ⟨c', l', hl', -, hopening'⟩ := exists_render_eq_cons hb
  rw [hl, hl'] at h
  rw [← hopening, ← hopening', (List.cons.inj h).1]

/-- No document begins with a delimiter. -/
theorem render_append_ne {a : Doc} (ha : Tokens a) {c : Char} (hc : isDelimiter c = true)
    {rest rest' : List Char} : render a ++ rest ≠ c :: rest' := by
  obtain ⟨c', l, hl, hdelimiter, -⟩ := exists_render_eq_cons ha
  intro h
  rw [hl] at h
  rw [(List.cons.inj h).1, hc] at hdelimiter
  exact Bool.noConfusion hdelimiter

mutual

/-- **A document can be read off the front of a text.** -/
theorem render_append_inj : ∀ {a b : Doc} {rest rest' : List Char}, Tokens a → Tokens b →
    Delimited rest → Delimited rest' → render a ++ rest = render b ++ rest' → a = b ∧ rest = rest'
  | .null, b, rest, rest', ha, hb, hr, hr', h => by
    have hopening := opening_eq ha hb h
    cases b with
    | null => exact ⟨rfl, List.append_cancel_left h⟩
    | bool b => cases b <;> simp [opening] at hopening
    | _ => simp [opening] at hopening
  | .bool true, b, rest, rest', ha, hb, hr, hr', h => by
    have hopening := opening_eq ha hb h
    cases b with
    | bool b =>
      cases b with
      | true => exact ⟨rfl, List.append_cancel_left h⟩
      | false => simp [opening] at hopening
    | _ => simp [opening] at hopening
  | .bool false, b, rest, rest', ha, hb, hr, hr', h => by
    have hopening := opening_eq ha hb h
    cases b with
    | bool b =>
      cases b with
      | true => simp [opening] at hopening
      | false => exact ⟨rfl, List.append_cancel_left h⟩
    | _ => simp [opening] at hopening
  | .num token, b, rest, rest', ha, hb, hr, hr', h => by
    have hopening := opening_eq ha hb h
    cases b with
    | num token' =>
      obtain ⟨rfl, hrest⟩ := token_append_inj ha hb hr hr' h
      exact ⟨rfl, hrest⟩
    | bool b => cases b <;> simp [opening] at hopening
    | _ => simp [opening] at hopening
  | .str text, b, rest, rest', ha, hb, hr, hr', h => by
    have hopening := opening_eq ha hb h
    cases b with
    | str text' =>
      obtain ⟨rfl, hrest⟩ := quote_append_inj h
      exact ⟨rfl, hrest⟩
    | bool b => cases b <;> simp [opening] at hopening
    | _ => simp [opening] at hopening
  | .arr [], b, rest, rest', ha, hb, hr, hr', h => by
    have hopening := opening_eq ha hb h
    cases b with
    | arr items' =>
      cases items' with
      | nil => exact ⟨rfl, List.append_cancel_left h⟩
      | cons item' items' =>
        simp only [render, List.cons_append, List.nil_append, List.append_assoc, List.cons.injEq, true_and] at h
        exact absurd h.symm (render_append_ne hb.1 rfl)
    | bool b => cases b <;> simp [opening] at hopening
    | _ => simp [opening] at hopening
  | .arr (item :: items), b, rest, rest', ha, hb, hr, hr', h => by
    have hopening := opening_eq ha hb h
    cases b with
    | arr items' =>
      cases items' with
      | nil =>
        simp only [render, List.cons_append, List.nil_append, List.append_assoc, List.cons.injEq, true_and] at h
        exact absurd h (render_append_ne ha.1 rfl)
      | cons item' items' =>
        simp only [render, List.cons_append, List.append_assoc, List.cons.injEq, true_and] at h
        obtain ⟨rfl, hitems⟩ := render_append_inj ha.1 hb.1 (delimited_renderItems items rest)
          (delimited_renderItems items' rest') h
        obtain ⟨rfl, hrest⟩ := renderItems_append_inj ha.2 hb.2 hr hr' hitems
        exact ⟨rfl, hrest⟩
    | bool b => cases b <;> simp [opening] at hopening
    | _ => simp [opening] at hopening
  | .obj [], b, rest, rest', ha, hb, hr, hr', h => by
    have hopening := opening_eq ha hb h
    cases b with
    | obj fields' =>
      cases fields' with
      | nil => exact ⟨rfl, List.append_cancel_left h⟩
      | cons field' fields' => simp [render, quote] at h
    | bool b => cases b <;> simp [opening] at hopening
    | _ => simp [opening] at hopening
  | .obj ((key, value) :: fields), b, rest, rest', ha, hb, hr, hr', h => by
    have hopening := opening_eq ha hb h
    cases b with
    | obj fields' =>
      cases fields' with
      | nil => simp [render, quote] at h
      | cons field' fields' =>
        obtain ⟨key', value'⟩ := field'
        simp only [render, List.cons_append, List.append_assoc, List.cons.injEq, true_and] at h
        obtain ⟨rfl, hvalue⟩ := quote_append_inj h
        obtain ⟨rfl, hfields⟩ := render_append_inj ha.1 hb.1 (delimited_renderFields fields rest)
          (delimited_renderFields fields' rest') (List.cons.inj hvalue).2
        obtain ⟨rfl, hrest⟩ := renderFields_append_inj ha.2 hb.2 hr hr' hfields
        exact ⟨rfl, hrest⟩
    | bool b => cases b <;> simp [opening] at hopening
    | _ => simp [opening] at hopening

theorem renderItems_append_inj : ∀ {items items' : List Doc} {rest rest' : List Char},
    ItemTokens items → ItemTokens items' → Delimited rest → Delimited rest' →
    renderItems items ++ rest = renderItems items' ++ rest' → items = items' ∧ rest = rest'
  | [], items', rest, rest', ha, hb, hr, hr', h => by
    cases items' with
    | nil => exact ⟨rfl, List.append_cancel_left h⟩
    | cons item' items' => simp [renderItems] at h
  | item :: items, items', rest, rest', ha, hb, hr, hr', h => by
    cases items' with
    | nil => simp [renderItems] at h
    | cons item' items' =>
      simp only [renderItems, List.cons_append, List.append_assoc, List.cons.injEq, true_and] at h
      obtain ⟨rfl, hitems⟩ := render_append_inj ha.1 hb.1 (delimited_renderItems items rest)
        (delimited_renderItems items' rest') h
      obtain ⟨rfl, hrest⟩ := renderItems_append_inj ha.2 hb.2 hr hr' hitems
      exact ⟨rfl, hrest⟩

theorem renderFields_append_inj : ∀ {fields fields' : List (String × Doc)} {rest rest' : List Char},
    FieldTokens fields → FieldTokens fields' → Delimited rest → Delimited rest' →
    renderFields fields ++ rest = renderFields fields' ++ rest' → fields = fields' ∧ rest = rest'
  | [], fields', rest, rest', ha, hb, hr, hr', h => by
    cases fields' with
    | nil => exact ⟨rfl, List.append_cancel_left h⟩
    | cons field' fields' => simp [renderFields] at h
  | (key, value) :: fields, fields', rest, rest', ha, hb, hr, hr', h => by
    cases fields' with
    | nil => simp [renderFields] at h
    | cons field' fields' =>
      obtain ⟨key', value'⟩ := field'
      simp only [renderFields, List.cons_append, List.append_assoc, List.cons.injEq, true_and] at h
      obtain ⟨rfl, hvalue⟩ := quote_append_inj h
      obtain ⟨rfl, hfields⟩ := render_append_inj ha.1 hb.1 (delimited_renderFields fields rest)
        (delimited_renderFields fields' rest') (List.cons.inj hvalue).2
      obtain ⟨rfl, hrest⟩ := renderFields_append_inj ha.2 hb.2 hr hr' hfields
      exact ⟨rfl, hrest⟩

end

/-- **A document is determined by its text.** -/
theorem render_injective {a b : Doc} (ha : Tokens a) (hb : Tokens b) (h : render a = render b) : a = b :=
  (@render_append_inj a b [] [] ha hb (by simp [Delimited]) (by simp [Delimited]) (by rw [h])).1

/-! ### Integers -/

/-- The token of an integer. -/
def intToken : ℤ → List Char
  | .ofNat n => Nat.toDigits 10 n
  | .negSucc n => '-' :: Nat.toDigits 10 (n + 1)

theorem isDigit_of_mem {n : ℕ} {c : Char} (h : c ∈ Nat.toDigits 10 n) : c.isDigit = true :=
  Nat.isDigit_of_mem_toDigits (by decide) (by decide) h

theorem toDigits_injective {m n : ℕ} (h : Nat.toDigits 10 m = Nat.toDigits 10 n) : m = n := by
  have hread := congrArg (fun digits => Nat.ofDigitChars 10 digits 0) h
  simpa [Nat.ofDigitChars_ten_toDigits] using hread

theorem intToken_injective : Function.Injective intToken := by
  have hminus : ∀ {m n : ℕ} {rest : List Char}, Nat.toDigits 10 m ≠ '-' :: rest := by
    intro m n rest h
    have hdigit := isDigit_of_mem (n := m) (c := '-') (by rw [h]; exact List.mem_cons_self)
    exact absurd hdigit (by decide)
  rintro (m | m) (n | n) h
  · exact congrArg Int.ofNat (toDigits_injective h)
  · exact absurd h (hminus (n := n))
  · exact absurd h.symm (hminus (n := m))
  · rw [Nat.succ_injective (toDigits_injective (List.cons.inj h).2)]

theorem token_of_digits {digits : List Char} (hne : digits ≠ [])
    (hall : ∀ c ∈ digits, c.isDigit = true ∨ c = '-') : Token digits := by
  have hplain : ∀ c : Char, c.isDigit = true ∨ c = '-' → isDelimiter c = false ∧ isOpening c = false := by
    rintro c (hdigit | rfl)
    · simp only [Char.isDigit, Bool.and_eq_true, decide_eq_true_eq] at hdigit
      constructor
      · rw [Bool.eq_false_iff]
        intro h
        simp only [isDelimiter, Bool.or_eq_true, decide_eq_true_eq] at h
        rcases h with (rfl | rfl) | rfl
        all_goals revert hdigit; decide
      · rw [Bool.eq_false_iff]
        intro h
        simp only [isOpening, Bool.or_eq_true, decide_eq_true_eq] at h
        rcases h with ((((rfl | rfl) | rfl) | rfl) | rfl) | rfl
        all_goals revert hdigit; decide
    · exact ⟨rfl, rfl⟩
  obtain ⟨c, rest, rfl⟩ := List.exists_cons_of_ne_nil hne
  exact ⟨⟨c, rest, rfl, (hplain c (hall c List.mem_cons_self)).2⟩, fun d hd => (hplain d (hall d hd)).1⟩

theorem token_intToken (n : ℤ) : Token (intToken n) := by
  cases n with
  | ofNat n =>
    exact token_of_digits Nat.toDigits_ne_nil fun c hc => .inl (isDigit_of_mem hc)
  | negSucc n =>
    refine token_of_digits (List.cons_ne_nil _ _) fun c hc => ?_
    rcases List.mem_cons.mp hc with rfl | hc
    · exact .inr rfl
    · exact .inl (isDigit_of_mem hc)

end JsonText
