import Mathlib.Data.List.TakeDrop
import Mathlib.Data.List.TakeWhile
import Mathlib.Data.Nat.Digits.Defs

/-!
# The grammar of regular expressions

The patterns of a backtracking engine, as far as their structure goes: groups, alternatives, classes
and quantifiers. A class runs to its first bracket that is neither escaped nor its first member, and
an opening brace is a quantifier only where its bounds are well formed, `{,}` and `{,n}` included.
What else an escape spells, a number or a name, is left to the characters behind it, and of the
extensions `(?` only groups without a number are read.

The readers take fuel; `Parses` is the relation they compute, for any amount of it.
-/

namespace Regex

/-! ### Patterns -/

inductive Quantifier where
  | star
  | plus
  | optional
  /-- Two bounds in braces, each of which can be left out. -/
  | counted (lower upper : Option ℕ)
  deriving DecidableEq

def Quantifier.isUnbounded : Quantifier → Bool
  | star => true
  | plus => true
  | optional => false
  | counted _ upper => upper.isNone

/-- The bounds are in order. -/
def Quantifier.isOrdered : Quantifier → Bool
  | counted (some lower) (some upper) => lower ≤ upper
  | _ => true

inductive Node where
  | literal (c : Char)
  | any
  | anchor
  | escape (c : Char)
  /-- A class, its members as they are written. -/
  | charClass (isNegated : Bool) (members : List Char)
  | group (alternatives : List (List Node))
  | repeated (node : Node) (quantifier : Quantifier)

/-! ### A property somewhere in a pattern -/

mutual

/-- The node or one inside it has the property. -/
def Node.has (p : Node → Bool) : Node → Bool
  | .group alternatives => p (.group alternatives) || hasInAlternatives p alternatives
  | .repeated node quantifier => p (.repeated node quantifier) || node.has p
  | node => p node

def hasInSequence (p : Node → Bool) : List Node → Bool
  | [] => false
  | node :: nodes => node.has p || hasInSequence p nodes

def hasInAlternatives (p : Node → Bool) : List (List Node) → Bool
  | [] => false
  | nodes :: alternatives => hasInSequence p nodes || hasInAlternatives p alternatives

end

def Node.isUnboundedRepeat : Node → Bool
  | .repeated _ quantifier => quantifier.isUnbounded
  | _ => false

def Node.isAlternation : Node → Bool
  | .group alternatives => 1 < alternatives.length
  | _ => false

/-! ### Reading -/

def number? (digits : List Char) : Option ℕ :=
  if digits = [] then none
  else some (Nat.ofDigits 10 (digits.map fun c => c.toNat - '0'.toNat).reverse)

/-- The bounds behind an opening brace. -/
def readBounds (text : List Char) : Option (Quantifier × List Char) :=
  let (lower, rest) := text.span Char.isDigit
  match rest with
  | '}' :: rest => if lower = [] then none else some (.counted (number? lower) (number? lower), rest)
  | ',' :: rest =>
    let (upper, rest) := rest.span Char.isDigit
    match rest with
    | '}' :: rest => some (.counted (number? lower) (number? upper), rest)
    | _ => none
  | _ => none

def readQuantifier : List Char → Option (Quantifier × List Char)
  | '*' :: rest => some (.star, rest)
  | '+' :: rest => some (.plus, rest)
  | '?' :: rest => some (.optional, rest)
  | '{' :: rest => readBounds rest
  | _ => none

/-- A quantifier can be made lazy or possessive. -/
def skipMode : List Char → List Char
  | '?' :: rest => rest
  | '+' :: rest => rest
  | rest => rest

def Node.isAnchor : Node → Bool
  | .anchor => true
  | _ => false

/-- An item with the quantifier behind it, if any. -/
def readItem (node : Node) (text : List Char) : Option (Node × List Char) :=
  match readQuantifier text with
  | none => some (node, text)
  | some (quantifier, rest) =>
    if node.isAnchor ∨ ¬ quantifier.isOrdered then none
    else some (.repeated node quantifier, skipMode rest)

/-- The members of a class, up to the bracket that closes it. -/
def readMembers : List Char → Option (List Char × List Char)
  | [] => none
  | ']' :: rest => some ([], rest)
  | '\\' :: c :: rest => (readMembers rest).map fun r => ('\\' :: c :: r.1, r.2)
  | c :: rest => (readMembers rest).map fun r => (c :: r.1, r.2)

/-- A class, behind its opening bracket. A bracket that comes first is a member. -/
def readClass : List Char → Option (Node × List Char)
  | '^' :: ']' :: rest => (readMembers rest).map fun r => (.charClass true (']' :: r.1), r.2)
  | '^' :: rest => (readMembers rest).map fun r => (.charClass true r.1, r.2)
  | ']' :: rest => (readMembers rest).map fun r => (.charClass false (']' :: r.1), r.2)
  | rest => (readMembers rest).map fun r => (.charClass false r.1, r.2)

/-- An item other than a group. -/
def readAtom : List Char → Option (Node × List Char)
  | '\\' :: c :: rest => some (if c ∈ ['A', 'b', 'B', 'Z'] then .anchor else .escape c, rest)
  | '[' :: rest => readClass rest
  | '.' :: rest => some (.any, rest)
  | '^' :: rest => some (.anchor, rest)
  | '$' :: rest => some (.anchor, rest)
  | '{' :: rest => if (readBounds rest).isSome then none else some (.literal '{', rest)
  | c :: rest =>
    if c ∈ ['*', '+', '?', '(', ')', '|', '\\'] then none else some (.literal c, rest)
  | [] => none

/-- What a group holds, behind its opening parenthesis. -/
def groupBody : List Char → Option (List Char)
  | '?' :: ':' :: rest => some rest
  | '?' :: _ => none
  | rest => some rest

def endsSequence : List Char → Bool
  | [] => true
  | '|' :: _ => true
  | ')' :: _ => true
  | _ => false

mutual

def readSequence : ℕ → List Char → Option (List Node × List Char)
  | 0, _ => none
  | fuel + 1, text =>
    if endsSequence text then some ([], text)
    else do
      let (node, rest) ← match text with
        | '(' :: body => readGroup fuel body
        | text => readAtom text
      let (item, rest) ← readItem node rest
      let (items, rest) ← readSequence fuel rest
      return (item :: items, rest)

def readAlternatives : ℕ → List Char → Option (List (List Node) × List Char)
  | 0, _ => none
  | fuel + 1, text => do
    let (nodes, rest) ← readSequence fuel text
    match rest with
    | '|' :: rest => do
      let (alternatives, rest) ← readAlternatives fuel rest
      return (nodes :: alternatives, rest)
    | rest => return ([nodes], rest)

def readGroup : ℕ → List Char → Option (Node × List Char)
  | 0, _ => none
  | fuel + 1, text => do
    let body ← groupBody text
    let (alternatives, rest) ← readAlternatives fuel body
    match rest with
    | ')' :: rest => return (.group alternatives, rest)
    | _ => none

end

/-- The text is the pattern with the given alternatives. -/
def Parses (text : List Char) (alternatives : List (List Node)) : Prop :=
  ∃ fuel, readAlternatives fuel text = some (alternatives, [])

/-! ### What the readers read -/

theorem readBounds_eq_some {text rest : List Char} {quantifier : Quantifier}
    (h : readBounds text = some (quantifier, rest)) :
    ∃ lower, (∀ c ∈ lower, c.isDigit = true) ∧
      (lower ≠ [] ∧ text = lower ++ '}' :: rest ∧
          quantifier = .counted (number? lower) (number? lower) ∨
        ∃ upper, (∀ c ∈ upper, c.isDigit = true) ∧ text = lower ++ ',' :: (upper ++ '}' :: rest) ∧
          quantifier = .counted (number? lower) (number? upper)) := by
  have hdigits : ∀ s : List Char, ∀ c ∈ s.takeWhile Char.isDigit, c.isDigit = true :=
    fun s c hc => List.mem_takeWhile_imp hc
  simp only [readBounds, List.span_eq_takeWhile_dropWhile] at h
  refine ⟨text.takeWhile Char.isDigit, hdigits text, ?_⟩
  have htext := List.takeWhile_append_dropWhile (p := Char.isDigit) (l := text)
  split at h
  · rename_i after heq
    split_ifs at h with hne
    obtain ⟨rfl, rfl⟩ := Prod.mk.inj (Option.some.inj h)
    rw [heq] at htext
    exact .inl ⟨hne, htext.symm, rfl⟩
  · rename_i after heq
    split at h
    · rename_i after' heq'
      obtain ⟨rfl, rfl⟩ := Prod.mk.inj (Option.some.inj h)
      have hafter := List.takeWhile_append_dropWhile (p := Char.isDigit) (l := after)
      rw [heq'] at hafter
      rw [heq, ← hafter] at htext
      exact .inr ⟨after.takeWhile Char.isDigit, hdigits after, htext.symm, rfl⟩
    · cases h
  · cases h

theorem apply_eq_false_of_has {p : Node → Bool} {node : Node} (h : node.has p = false) :
    p node = false := by
  cases node with
  | group alternatives => exact (Bool.or_eq_false_iff.mp h).1
  | repeated node quantifier => exact (Bool.or_eq_false_iff.mp h).1
  | literal c => exact h
  | any => exact h
  | anchor => exact h
  | escape c => exact h
  | charClass isNegated members => exact h

/-- An item is a node, or a node repeated. -/
theorem readItem_eq_some {node item : Node} {text rest : List Char}
    (h : readItem node text = some (item, rest)) :
    item = node ∧ rest = text ∨
      ∃ quantifier after, readQuantifier text = some (quantifier, after) ∧
        item = .repeated node quantifier ∧ rest = skipMode after := by
  unfold readItem at h
  split at h
  · obtain ⟨rfl, rfl⟩ := Prod.mk.inj (Option.some.inj h)
    exact .inl ⟨rfl, rfl⟩
  · rename_i quantifier after heq
    split_ifs at h
    obtain ⟨rfl, rfl⟩ := Prod.mk.inj (Option.some.inj h)
    exact .inr ⟨quantifier, after, heq, rfl, rfl⟩

/-- A reading that takes the whole text, with a property that can be evaluated. -/
theorem exists_parses_of_any {text : List Char} {p : List (List Node) → Bool} (fuel : ℕ)
    (h : (readAlternatives fuel text).any (fun r => r.2.isEmpty && p r.1) = true) :
    ∃ alternatives, Parses text alternatives ∧ p alternatives = true := by
  obtain ⟨⟨alternatives, rest⟩, hread, hp⟩ := Option.any_eq_true _ _ |>.mp h
  obtain ⟨hrest, hp⟩ := Bool.and_eq_true_iff.mp hp
  obtain rfl : rest = [] := List.isEmpty_iff.mp hrest
  exact ⟨alternatives, ⟨fuel, hread⟩, hp⟩

end Regex
