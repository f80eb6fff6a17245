import FoundryLite.Errors
import FoundryLite.Library.RegexSyntax

/-!
# The guard of author patterns

The patterns that authors write into conditions are run by a backtracking engine, so a guard first
refuses what can make it backtrack without bound. It masks escapes and classes, refuses back
references and the extensions of groups, and scans what is left once, with a stack of the groups
that are open: a group that repeats or alternates, itself or inside, must not be repeated.

The scan agrees with the grammar of the engine but for two slips. A bracket that comes first in a
class is a member of it, and the mask closes the class there; and a quantifier without a lower bound
is one, and the scan does not know it.

## Main results

* `not_isRisky_of_validate`: an accepted pattern has no repeated group that repeats or alternates,
  where neither slip is met.
* `risky_accepted`: each slip lets one through.
-/

namespace FoundryLite.Actions

/-- The engine that patterns are run by, and what it takes for a digit. -/
structure RegexEngine where
  compiles : String → Bool
  fullmatch : String → String → Bool
  isDigit : Char → Bool
  isDigit_of_ascii : ∀ c, c.isDigit = true → isDigit c = true
  not_isDigit_comma : isDigit ',' = false
  not_isDigit_brace : isDigit '}' = false

def maxRegexPatternChars : ℕ := 256

/-! ### The mask -/

/-- `_masked_regex_structure`: escapes and classes are masked. -/
def maskedRegexStructure (isEscaped isClass : Bool) : List Char → List Char
  | [] => []
  | character :: rest =>
    if isEscaped then '_' :: maskedRegexStructure false isClass rest
    else if character = '\\' then
      -- A backslash is masked with the character that it escapes.
      (if rest = [] then '\\' else '_') :: maskedRegexStructure true isClass rest
    else if isClass then '_' :: maskedRegexStructure false (character ≠ ']') rest
    else if character = '[' then '_' :: maskedRegexStructure false true rest
    else character :: maskedRegexStructure false false rest

def hasBackreference (isEscaped : Bool) : List Char → Bool
  | [] => false
  | character :: rest =>
    if isEscaped then character ∈ "123456789".toList || hasBackreference false rest
    else hasBackreference (character = '\\') rest

/-- A group that begins with a question mark, other than one without a number. -/
def hasGroupExtension : List Char → Bool
  | [] => false
  | '(' :: rest =>
    (rest.head? = some '?' && rest.tail.head? ≠ some ':') || hasGroupExtension rest
  | _ :: rest => hasGroupExtension rest

/-! ### The scan -/

/-- What was seen of a group so far. -/
structure RegexGroup where
  hasRepeat : Bool
  hasAlternation : Bool
  deriving DecidableEq

/-- What is seen in a group is seen in the group around it. -/
def propagate (group : RegexGroup) : List RegexGroup → List RegexGroup
  | [] => []
  | parent :: stack =>
    ⟨parent.hasRepeat || group.hasRepeat, parent.hasAlternation || group.hasAlternation⟩ :: stack

/-- `_closed_regex_groups`: the groups in the order in which they close, with the text behind each. -/
def closedRegexGroups (previous : Option Char) (stack : List RegexGroup) :
    List Char → List (List Char × RegexGroup)
  | [] => []
  | character :: rest =>
    if character = '?' ∧ previous = some '(' then closedRegexGroups (some character) stack rest
    else if character = '(' then
      closedRegexGroups (some character) (⟨false, false⟩ :: stack) rest
    else
      match stack with
      | [] => closedRegexGroups (some character) [] rest
      | group :: stack =>
        if character = '|' then
          closedRegexGroups (some character) (⟨group.hasRepeat, true⟩ :: stack) rest
        else if character ∈ ['*', '+', '?', '{'] then
          closedRegexGroups (some character) (⟨true, group.hasAlternation⟩ :: stack) rest
        else if character = ')' then
          (rest, group) :: closedRegexGroups (some character) (propagate group stack) rest
        else closedRegexGroups (some character) (group :: stack) rest

variable (engine : RegexEngine)

/-- `_regex_quantifier_at`. -/
def regexQuantifierAt : List Char → Bool
  | [] => false
  | character :: rest =>
    if character ∈ ['*', '+', '?'] then true
    else if character = '{' then
      let (digits, rest) := rest.span engine.isDigit
      if digits = [] then false
      else match rest with
        | '}' :: _ => true
        | ',' :: rest => (rest.dropWhile engine.isDigit).head? = some '}'
        | _ => false
    else false

def hasUnsafeClosedRegexGroup (closedGroups : List (List Char × RegexGroup)) : Bool :=
  closedGroups.any fun (behind, group) =>
    regexQuantifierAt engine behind && (group.hasRepeat || group.hasAlternation)

def regexBacktrackingRisk (pattern : String) : Option String :=
  let masked := maskedRegexStructure false false pattern.toList
  if hasBackreference false pattern.toList then some "backreference"
  else if hasGroupExtension masked then some "lookaround-or-inline-group"
  else if hasUnsafeClosedRegexGroup engine (closedRegexGroups none [] masked) then
    some "repeated-variable-or-alternating-group"
  else none

def validateSafeRegexPattern (pattern : String) : Checked Unit := do
  rejectIf (maxRegexPatternChars < pattern.length) "action condition regex is too long"
    [("operator", .str "matches"), ("maxChars", .int maxRegexPatternChars)]
  rejectIf (engine.compiles pattern = false) "action condition regex is invalid"
    [("operator", .str "matches"), ("pattern", .str pattern)]
  match regexBacktrackingRisk engine pattern with
  | some risk =>
    validationFailed "action condition regex uses an unsafe backtracking construct"
      [("operator", .str "matches"), ("reason", .str risk)]
  | none => pure ()

/-! ### What the mask keeps -/

section Mask

variable {character : Char} {rest : List Char}

theorem masked_of_ne (hescape : character ≠ '\\') (hclass : character ≠ '[') :
    maskedRegexStructure false false (character :: rest)
      = character :: maskedRegexStructure false false rest := by
  simp [maskedRegexStructure, hescape, hclass]

theorem masked_escape (character : Char) (rest : List Char) :
    maskedRegexStructure false false ('\\' :: character :: rest)
      = '_' :: '_' :: maskedRegexStructure false false rest := by
  simp [maskedRegexStructure]

/-- A class is masked up to the bracket that closes it. -/
theorem masked_of_readMembers {text members rest : List Char}
    (h : Regex.readMembers text = some (members, rest)) :
    ∃ n, maskedRegexStructure false true text
      = List.replicate (n + 1) '_' ++ maskedRegexStructure false false rest := by
  induction text using Regex.readMembers.induct generalizing members with
  | case1 => cases h
  | case2 after =>
    rw [Regex.readMembers] at h
    obtain ⟨-, rfl⟩ := Prod.mk.inj (Option.some.inj h)
    exact ⟨0, by simp [maskedRegexStructure]⟩
  | case3 c after ih =>
    rw [Regex.readMembers] at h
    obtain ⟨⟨members', rest'⟩, hafter, heq⟩ := Option.map_eq_some_iff.mp h
    obtain ⟨-, rfl⟩ := Prod.mk.inj heq
    obtain ⟨n, hn⟩ := ih hafter
    refine ⟨n + 2, ?_⟩
    simp [maskedRegexStructure, hn, List.replicate_succ]
  | case4 c after hbracket hescape ih =>
    rw [Regex.readMembers] at h
    · obtain ⟨⟨members', rest'⟩, hafter, heq⟩ := Option.map_eq_some_iff.mp h
      obtain ⟨-, rfl⟩ := Prod.mk.inj heq
      obtain ⟨n, hn⟩ := ih hafter
      have hc : c ≠ '\\' := by
        rintro rfl
        cases after with
        | nil => cases hafter
        | cons d after => exact hescape d after rfl rfl
      refine ⟨n + 1, ?_⟩
      simp [maskedRegexStructure, hc, show c ≠ ']' from hbracket, hn, List.replicate_succ]
    · exact hbracket
    · exact hescape

end Mask

/-! ### What the scan sees -/

section Scan

variable {previous : Option Char} {stack : List RegexGroup} {character : Char} {rest : List Char}

theorem closedRegexGroups_of_not_mem (h : character ∉ ['(', '|', '*', '+', '?', '{', ')']) :
    closedRegexGroups previous stack (character :: rest)
      = closedRegexGroups (some character) stack rest := by
  simp only [List.mem_cons, List.not_mem_nil, or_false, not_or] at h
  obtain ⟨hopen, hbar, hstar, hplus, hoption, hbrace, hclose⟩ := h
  cases stack <;>
    simp [closedRegexGroups, hopen, hbar, hstar, hplus, hoption, hbrace, hclose]

theorem closedRegexGroups_open :
    closedRegexGroups previous stack ('(' :: rest)
      = closedRegexGroups (some '(') (⟨false, false⟩ :: stack) rest := by
  simp [closedRegexGroups]

theorem closedRegexGroups_bar :
    closedRegexGroups previous stack ('|' :: rest)
      = closedRegexGroups (some '|') (propagate ⟨false, true⟩ stack) rest := by
  cases stack <;> simp [closedRegexGroups, propagate]

theorem closedRegexGroups_repeat (h : character ∈ ['*', '+', '?', '{'])
    (hoption : ¬ (character = '?' ∧ previous = some '(')) :
    closedRegexGroups previous stack (character :: rest)
      = closedRegexGroups (some character) (propagate ⟨true, false⟩ stack) rest := by
  have hopen : character ≠ '(' := by
    rintro rfl
    exact absurd h (by decide)
  have hbar : character ≠ '|' := by
    rintro rfl
    exact absurd h (by decide)
  cases stack with
  | nil => simp [closedRegexGroups, propagate, hoption, hopen]
  | cons group stack =>
    rw [closedRegexGroups, if_neg hoption, if_neg hopen]
    simp only [if_neg hbar, if_pos h, propagate, Bool.or_true, Bool.or_false]

theorem closedRegexGroups_close {group : RegexGroup} :
    closedRegexGroups previous (group :: stack) (')' :: rest)
      = (rest, group) :: closedRegexGroups (some ')') (propagate group stack) rest := by
  simp [closedRegexGroups]

theorem closedRegexGroups_underscores (n : ℕ) :
    closedRegexGroups previous stack (List.replicate (n + 1) '_' ++ rest)
      = closedRegexGroups (some '_') stack rest := by
  induction n generalizing previous with
  | zero => exact closedRegexGroups_of_not_mem (by decide)
  | succ n ih =>
    rw [List.replicate_succ, List.cons_append, closedRegexGroups_of_not_mem (by decide), ih]

/-- What is seen in two steps. -/
def RegexGroup.or (group group' : RegexGroup) : RegexGroup :=
  ⟨group.hasRepeat || group'.hasRepeat, group.hasAlternation || group'.hasAlternation⟩

theorem propagate_propagate (group group' : RegexGroup) (stack : List RegexGroup) :
    propagate group' (propagate group stack) = propagate (group.or group') stack := by
  cases stack with
  | nil => rfl
  | cons parent stack => simp [propagate, RegexGroup.or, Bool.or_assoc]

theorem propagate_nothing (stack : List RegexGroup) : propagate ⟨false, false⟩ stack = stack := by
  cases stack <;> simp [propagate]

end Scan

/-! ### The scan and the grammar side by side -/

/-- A repeated group that repeats without bound or alternates, itself or inside. -/
def isRisky : Regex.Node → Bool
  | .repeated (.group alternatives) _ =>
    (Regex.Node.group alternatives).has Regex.Node.isUnboundedRepeat ||
      (Regex.Node.group alternatives).has Regex.Node.isAlternation
  | _ => false

/-- What the scan misreads: a class that begins with a closing bracket, and a group repeated by a
quantifier without a lower bound. -/
def isMisread : Regex.Node → Bool
  | .charClass _ members => members.head? = some ']'
  | .repeated (.group _) (.counted none _) => true
  | _ => false

section Agreement

/-- The scan finds nothing in a masked text. -/
def IsSafe (previous : Option Char) (stack : List RegexGroup) (text : List Char) : Prop :=
  hasUnsafeClosedRegexGroup engine
    (closedRegexGroups previous stack (maskedRegexStructure false false text)) = false

/-- A question mark that comes first is not behind an opening parenthesis. -/
def IsReady (previous : Option Char) (text : List Char) : Prop :=
  previous ≠ some '(' ∨ text.head? ≠ some '?'

/-- From a text to a rest of it the scan sees all repeats and alternations that there are, and they
are in no risky place. -/
def IsScanned (text rest : List Char) (isUnbounded isAlternating isAtRisk : Bool) : Prop :=
  ∀ previous stack, IsReady previous text → IsSafe engine previous stack text →
    isAtRisk = false ∧ ∃ seen previous', (isUnbounded = true → seen.hasRepeat = true) ∧
      (isAlternating = true → seen.hasAlternation = true) ∧ IsReady previous' rest ∧
      IsSafe engine previous' (propagate seen stack) rest

variable {engine} {text middle rest : List Char} {isUnbounded isUnbounded' isAlternating
  isAlternating' isAtRisk isAtRisk' : Bool}

theorem IsScanned.refl (text : List Char) : IsScanned engine text text false false false := by
  intro previous stack hready hsafe
  refine ⟨rfl, ⟨false, false⟩, previous, by simp, by simp, hready, ?_⟩
  rw [propagate_nothing]
  exact hsafe

theorem IsScanned.trans (h : IsScanned engine text middle isUnbounded isAlternating isAtRisk)
    (h' : IsScanned engine middle rest isUnbounded' isAlternating' isAtRisk') :
    IsScanned engine text rest (isUnbounded || isUnbounded') (isAlternating || isAlternating')
      (isAtRisk || isAtRisk') := by
  intro previous stack hready hsafe
  obtain ⟨hrisk, seen, previous₁, hrepeat, halternation, hready₁, hsafe₁⟩ := h _ _ hready hsafe
  obtain ⟨hrisk', seen', previous₂, hrepeat', halternation', hready₂, hsafe₂⟩ := h' _ _ hready₁ hsafe₁
  refine ⟨by rw [hrisk, hrisk']; rfl, seen.or seen', previous₂, fun h => ?_, fun h => ?_, hready₂, ?_⟩
  · rcases Bool.or_eq_true_iff.mp h with h | h
    · simp [RegexGroup.or, hrepeat h]
    · simp [RegexGroup.or, hrepeat' h]
  · rcases Bool.or_eq_true_iff.mp h with h | h
    · simp [RegexGroup.or, halternation h]
    · simp [RegexGroup.or, halternation' h]
  · rw [← propagate_propagate]
    exact hsafe₂

/-- A character that means nothing to the scan. -/
theorem IsScanned.character {character : Char} (hescape : character ≠ '\\')
    (hclass : character ≠ '[') (h : character ∉ ['(', '|', '*', '+', '?', '{', ')']) :
    IsScanned engine (character :: rest) rest false false false := by
  intro previous stack _ hsafe
  rw [IsSafe, masked_of_ne hescape hclass, closedRegexGroups_of_not_mem h] at hsafe
  refine ⟨rfl, ⟨false, false⟩, some character, by simp, by simp, .inl ?_, ?_⟩
  · rintro heq
    obtain rfl := Option.some.inj heq
    exact h (by decide)
  · rw [propagate_nothing]
    exact hsafe

/-- A character that begins a quantifier, or looks like it. -/
theorem IsScanned.repeat {character : Char} (h : character ∈ ['*', '+', '?', '{']) :
    IsScanned engine (character :: rest) rest true false false := by
  intro previous stack hready hsafe
  have hescape : character ≠ '\\' := by
    rintro rfl
    exact absurd h (by decide)
  have hclass : character ≠ '[' := by
    rintro rfl
    exact absurd h (by decide)
  have hoption : ¬ (character = '?' ∧ previous = some '(') := by
    rintro ⟨rfl, rfl⟩
    exact hready.elim (fun h => h rfl) (fun h => h rfl)
  rw [IsSafe, masked_of_ne hescape hclass, closedRegexGroups_repeat h hoption] at hsafe
  refine ⟨rfl, ⟨true, false⟩, some character, by simp, by simp, .inl ?_, hsafe⟩
  rintro heq
  obtain rfl := Option.some.inj heq
  exact absurd h (by decide)

theorem IsScanned.bar : IsScanned engine ('|' :: rest) rest false true false := by
  intro previous stack _ hsafe
  rw [IsSafe, masked_of_ne (by decide) (by decide), closedRegexGroups_bar] at hsafe
  exact ⟨rfl, ⟨false, true⟩, some '|', by simp, by simp, .inl (by decide), hsafe⟩

theorem IsScanned.escape (character : Char) :
    IsScanned engine ('\\' :: character :: rest) rest false false false := by
  intro previous stack _ hsafe
  rw [IsSafe, masked_escape, closedRegexGroups_of_not_mem (by decide),
    closedRegexGroups_of_not_mem (by decide)] at hsafe
  refine ⟨rfl, ⟨false, false⟩, some '_', by simp, by simp, .inl (by decide), ?_⟩
  rw [propagate_nothing]
  exact hsafe

theorem IsScanned.members {members : List Char} (h : Regex.readMembers text = some (members, rest)) :
    ∀ negation ∈ [[], ['^']],
      IsScanned engine ('[' :: (negation ++ text)) rest false false false := by
  intro negation hnegation previous stack _ hsafe
  obtain ⟨n, hn⟩ := masked_of_readMembers h
  have hmasked : ∃ m, maskedRegexStructure false false ('[' :: (negation ++ text))
      = List.replicate (m + 1) '_' ++ maskedRegexStructure false false rest := by
    simp only [List.mem_cons, List.not_mem_nil, or_false] at hnegation
    rcases hnegation with rfl | rfl
    · exact ⟨n + 1, by simp [maskedRegexStructure, hn, List.replicate_succ]⟩
    · exact ⟨n + 2, by simp [maskedRegexStructure, hn, List.replicate_succ]⟩
  obtain ⟨m, hm⟩ := hmasked
  rw [IsSafe, hm, closedRegexGroups_underscores] at hsafe
  refine ⟨rfl, ⟨false, false⟩, some '_', by simp, by simp, .inl (by decide), ?_⟩
  rw [propagate_nothing]
  exact hsafe

theorem IsScanned.weaken (h : IsScanned engine text rest isUnbounded isAlternating isAtRisk)
    (hunbounded : isUnbounded' = true → isUnbounded = true)
    (halternating : isAlternating' = true → isAlternating = true) :
    IsScanned engine text rest isUnbounded' isAlternating' isAtRisk := by
  intro previous stack hready hsafe
  obtain ⟨hrisk, seen, previous', hrepeat, halternation, hready', hsafe'⟩ := h _ _ hready hsafe
  exact ⟨hrisk, seen, previous', fun h => hrepeat (hunbounded h),
    fun h => halternation (halternating h), hready', hsafe'⟩

/-! ### Items -/

/-- A node without nodes inside. -/
def IsPlain (node : Regex.Node) : Prop :=
  node.has Regex.Node.isUnboundedRepeat = false ∧ node.has Regex.Node.isAlternation = false ∧
    node.has isRisky = false ∧ ∀ quantifier, isRisky (.repeated node quantifier) = false

theorem isScanned_of_readClass {node : Regex.Node} (h : Regex.readClass text = some (node, rest))
    (hread : isMisread node = false) :
    IsPlain node ∧ IsScanned engine ('[' :: text) rest false false false := by
  unfold Regex.readClass at h
  split at h
  all_goals
    obtain ⟨⟨members, rest'⟩, hmembers, heq⟩ := Option.map_eq_some_iff.mp h
    obtain ⟨rfl, rfl⟩ := Prod.mk.inj heq
  · simp [isMisread] at hread
  · exact ⟨⟨rfl, rfl, rfl, fun _ => rfl⟩, IsScanned.members hmembers ['^'] (by simp)⟩
  · simp [isMisread] at hread
  · exact ⟨⟨rfl, rfl, rfl, fun _ => rfl⟩, IsScanned.members hmembers [] (by simp)⟩

theorem isScanned_of_readAtom {node : Regex.Node} (h : Regex.readAtom text = some (node, rest))
    (hread : isMisread node = false) :
    IsPlain node ∧ IsScanned engine text rest false false false := by
  unfold Regex.readAtom at h
  split at h
  · obtain ⟨rfl, rfl⟩ := Prod.mk.inj (Option.some.inj h)
    refine ⟨?_, .escape _⟩
    split_ifs
    all_goals exact ⟨rfl, rfl, rfl, fun _ => rfl⟩
  · exact isScanned_of_readClass h hread
  · obtain ⟨rfl, rfl⟩ := Prod.mk.inj (Option.some.inj h)
    exact ⟨⟨rfl, rfl, rfl, fun _ => rfl⟩, .character (by decide) (by decide) (by decide)⟩
  · obtain ⟨rfl, rfl⟩ := Prod.mk.inj (Option.some.inj h)
    exact ⟨⟨rfl, rfl, rfl, fun _ => rfl⟩, .character (by decide) (by decide) (by decide)⟩
  · obtain ⟨rfl, rfl⟩ := Prod.mk.inj (Option.some.inj h)
    exact ⟨⟨rfl, rfl, rfl, fun _ => rfl⟩, .character (by decide) (by decide) (by decide)⟩
  · split_ifs at h
    obtain ⟨rfl, rfl⟩ := Prod.mk.inj (Option.some.inj h)
    exact ⟨⟨rfl, rfl, rfl, fun _ => rfl⟩, (IsScanned.repeat (by decide)).weaken (by simp) (by simp)⟩
  · rename_i c after hescape hclass _ _ _ hbrace
    split_ifs at h with hspecial
    obtain ⟨rfl, rfl⟩ := Prod.mk.inj (Option.some.inj h)
    refine ⟨⟨rfl, rfl, rfl, fun _ => rfl⟩, .character ?_ ?_ ?_⟩
    · rintro rfl
      exact hspecial (by decide)
    · exact hclass
    · simp only [List.mem_cons, List.not_mem_nil, or_false, not_or] at hspecial ⊢
      tauto
  · cases h

/-- Digits mean nothing to the scan. -/
theorem isScanned_digits {digits : List Char} (h : ∀ c ∈ digits, c.isDigit = true) :
    IsScanned engine (digits ++ rest) rest false false false := by
  induction digits with
  | nil => exact .refl rest
  | cons c digits ih =>
    have hc : c.isDigit = true := h c List.mem_cons_self
    refine (IsScanned.character ?_ ?_ ?_).trans (ih fun d hd => h d (List.mem_cons_of_mem _ hd))
    · rintro rfl
      exact absurd hc (by decide)
    · rintro rfl
      exact absurd hc (by decide)
    · intro hmem
      simp only [List.mem_cons, List.not_mem_nil, or_false] at hmem
      rcases hmem with rfl | rfl | rfl | rfl | rfl | rfl | rfl <;> exact absurd hc (by decide)

theorem span_isDigit {digits : List Char} {c : Char} (h : ∀ d ∈ digits, engine.isDigit d = true)
    (hc : engine.isDigit c = false) :
    (digits ++ c :: rest).span engine.isDigit = (digits, c :: rest) := by
  rw [List.span_eq_takeWhile_dropWhile, List.takeWhile_append_of_pos h,
    List.dropWhile_append_of_pos h, List.takeWhile_cons_of_neg (by simp [hc]),
    List.dropWhile_cons_of_neg (by simp [hc]), List.append_nil]

theorem masked_digits {digits : List Char} (h : ∀ c ∈ digits, c.isDigit = true) :
    maskedRegexStructure false false (digits ++ rest)
      = digits ++ maskedRegexStructure false false rest := by
  induction digits with
  | nil => rfl
  | cons c digits ih =>
    have hc : c.isDigit = true := h c List.mem_cons_self
    rw [List.cons_append, masked_of_ne, ih fun d hd => h d (List.mem_cons_of_mem _ hd),
      List.cons_append]
    · rintro rfl
      exact absurd hc (by decide)
    · rintro rfl
      exact absurd hc (by decide)

theorem isScanned_skipMode (text : List Char) :
    IsScanned engine text (Regex.skipMode text) false false false := by
  unfold Regex.skipMode
  split
  · exact (IsScanned.repeat (by decide)).weaken (by simp) (by simp)
  · exact (IsScanned.repeat (by decide)).weaken (by simp) (by simp)
  · exact .refl _

/-- A quantifier is scanned, and recognised where it has a lower bound. -/
theorem isScanned_of_readQuantifier {quantifier : Regex.Quantifier}
    (h : Regex.readQuantifier text = some (quantifier, rest)) :
    IsScanned engine text rest true false false ∧
      ((∀ upper, quantifier ≠ .counted none upper) →
        regexQuantifierAt engine (maskedRegexStructure false false text) = true) := by
  unfold Regex.readQuantifier at h
  split at h
  · obtain ⟨rfl, rfl⟩ := Prod.mk.inj (Option.some.inj h)
    exact ⟨.repeat (by decide), fun _ => by simp [maskedRegexStructure, regexQuantifierAt]⟩
  · obtain ⟨rfl, rfl⟩ := Prod.mk.inj (Option.some.inj h)
    exact ⟨.repeat (by decide), fun _ => by simp [maskedRegexStructure, regexQuantifierAt]⟩
  · obtain ⟨rfl, rfl⟩ := Prod.mk.inj (Option.some.inj h)
    exact ⟨.repeat (by decide), fun _ => by simp [maskedRegexStructure, regexQuantifierAt]⟩
  · obtain ⟨lower, hlower, ⟨hne, rfl, rfl⟩ | ⟨upper, hupper, rfl, rfl⟩⟩ := Regex.readBounds_eq_some h
    · refine ⟨(IsScanned.repeat (by decide)).trans ((isScanned_digits hlower).trans
        (.character (by decide) (by decide) (by decide))), fun _ => ?_⟩
      have hdigits := fun d hd => engine.isDigit_of_ascii d (hlower d hd)
      rw [masked_of_ne (by decide) (by decide), masked_digits hlower,
        masked_of_ne (by decide) (by decide), regexQuantifierAt, if_neg (by decide),
        if_pos rfl, span_isDigit hdigits engine.not_isDigit_brace]
      simp [hne]
    · refine ⟨(IsScanned.repeat (by decide)).trans ((isScanned_digits hlower).trans
        ((IsScanned.character (by decide) (by decide) (by decide)).trans
          ((isScanned_digits hupper).trans
            (.character (by decide) (by decide) (by decide))))), fun hbound => ?_⟩
      have hne : lower ≠ [] := by
        rintro rfl
        exact hbound _ rfl
      have hdigits := fun d hd => engine.isDigit_of_ascii d (hlower d hd)
      have hdigits' := fun d hd => engine.isDigit_of_ascii d (hupper d hd)
      rw [masked_of_ne (by decide) (by decide), masked_digits hlower,
        masked_of_ne (by decide) (by decide), masked_digits hupper,
        masked_of_ne (by decide) (by decide), regexQuantifierAt, if_neg (by decide),
        if_pos rfl, span_isDigit hdigits engine.not_isDigit_comma]
      simp [hne, List.dropWhile_append_of_pos hdigits', engine.not_isDigit_brace]
  · cases h

/-! ### Groups, sequences and alternatives -/

/-- A group is scanned, and one that is repeated has nothing risky in it. -/
def IsGroupScanned (engine : RegexEngine) (body rest : List Char) (node : Regex.Node) : Prop :=
  (∃ alternatives, node = .group alternatives) ∧
    ∀ previous stack, IsSafe engine previous stack ('(' :: body) →
      node.has isRisky = false ∧ ∃ seen previous',
        (node.has Regex.Node.isUnboundedRepeat = true → seen.hasRepeat = true) ∧
        (node.has Regex.Node.isAlternation = true → seen.hasAlternation = true) ∧
        IsReady previous' rest ∧ IsSafe engine previous' (propagate seen stack) rest ∧
        (regexQuantifierAt engine (maskedRegexStructure false false rest) = true →
          seen = ⟨false, false⟩)

def SequenceScanned (engine : RegexEngine) (fuel : ℕ) : Prop :=
  ∀ text nodes rest, Regex.readSequence fuel text = some (nodes, rest) →
    Regex.hasInSequence isMisread nodes = false →
      IsScanned engine text rest (Regex.hasInSequence Regex.Node.isUnboundedRepeat nodes)
        (Regex.hasInSequence Regex.Node.isAlternation nodes) (Regex.hasInSequence isRisky nodes)

def AlternativesScanned (engine : RegexEngine) (fuel : ℕ) : Prop :=
  ∀ text alternatives rest, Regex.readAlternatives fuel text = some (alternatives, rest) →
    Regex.hasInAlternatives isMisread alternatives = false →
      IsScanned engine text rest
        (Regex.hasInAlternatives Regex.Node.isUnboundedRepeat alternatives)
        (Regex.hasInAlternatives Regex.Node.isAlternation alternatives || 1 < alternatives.length)
        (Regex.hasInAlternatives isRisky alternatives)

def GroupScanned (engine : RegexEngine) (fuel : ℕ) : Prop :=
  ∀ body node rest, Regex.readGroup fuel body = some (node, rest) → node.has isMisread = false →
    IsGroupScanned engine body rest node

/-- Behind an opening parenthesis the scan stands at the body of the group. -/
theorem isSafe_groupBody {previous : Option Char} {stack : List RegexGroup} {body inner : List Char}
    (hbody : Regex.groupBody body = some inner) (hsafe : IsSafe engine previous stack ('(' :: body)) :
    ∃ previous', IsReady previous' inner ∧
      IsSafe engine previous' (⟨false, false⟩ :: stack) inner := by
  rw [IsSafe, masked_of_ne (by decide) (by decide), closedRegexGroups_open] at hsafe
  unfold Regex.groupBody at hbody
  split at hbody
  · obtain rfl := Option.some.inj hbody
    rw [masked_of_ne (by decide) (by decide), masked_of_ne (by decide) (by decide),
      closedRegexGroups, if_pos ⟨rfl, rfl⟩, closedRegexGroups_of_not_mem (by decide)] at hsafe
    exact ⟨some ':', .inl (by decide), hsafe⟩
  · cases hbody
  · rename_i hoption
    obtain rfl := Option.some.inj hbody
    refine ⟨some '(', .inr fun hhead => ?_, hsafe⟩
    obtain ⟨after, rfl⟩ := List.head?_eq_some_iff.mp hhead
    exact hoption after rfl

theorem groupScanned_succ {fuel : ℕ} (h : AlternativesScanned engine fuel) :
    GroupScanned engine (fuel + 1) := by
  intro body node rest hread hclean
  simp only [Regex.readGroup, Option.bind_eq_bind, Option.bind_eq_some_iff, Prod.exists] at hread
  obtain ⟨inner, hbody, alternatives, rest', halternatives, hread⟩ := hread
  split at hread
  · obtain ⟨rfl, rfl⟩ := Prod.mk.inj (Option.some.inj hread)
    refine ⟨⟨alternatives, rfl⟩, fun previous stack hsafe => ?_⟩
    rw [Regex.Node.has, Bool.or_eq_false_iff] at hclean
    obtain ⟨previous₁, hready₁, hsafe₁⟩ := isSafe_groupBody hbody hsafe
    obtain ⟨hrisk, seen, previous₂, hrepeat, halternation, -, hsafe₂⟩ :=
      h _ _ _ halternatives hclean.2 _ _ hready₁ hsafe₁
    have hseen : propagate seen (⟨false, false⟩ :: stack) = seen :: stack := by
      simp [propagate]
    rw [IsSafe, masked_of_ne (by decide) (by decide), hseen, closedRegexGroups_close,
      hasUnsafeClosedRegexGroup, List.any_cons, Bool.or_eq_false_iff] at hsafe₂
    refine ⟨?_, seen, some ')', fun hhas => ?_, fun hhas => ?_, .inl (by decide), hsafe₂.2,
      fun hquantifier => ?_⟩
    · rw [Regex.Node.has, hrisk]
      rfl
    · rw [Regex.Node.has] at hhas
      exact hrepeat hhas
    · rw [Regex.Node.has, Bool.or_comm] at hhas
      exact halternation hhas
    · have hnone := hsafe₂.1
      simp only [hquantifier, Bool.true_and, Bool.or_eq_false_iff] at hnone
      obtain ⟨hasRepeat, hasAlternation⟩ := seen
      obtain ⟨rfl, rfl⟩ := hnone
      rfl
  · cases hread

/-- An item that begins with a group. -/
theorem IsGroupScanned.item {body middle : List Char} {node item : Regex.Node}
    (h : IsGroupScanned engine body middle node)
    (hitem : Regex.readItem node middle = some (item, rest)) (hclean : item.has isMisread = false) :
    IsScanned engine ('(' :: body) rest (item.has Regex.Node.isUnboundedRepeat)
      (item.has Regex.Node.isAlternation) (item.has isRisky) := by
  obtain ⟨⟨alternatives, rfl⟩, hscan⟩ := h
  rcases Regex.readItem_eq_some hitem with ⟨rfl, rfl⟩ | ⟨quantifier, after, hquantifier, rfl, rfl⟩
  · intro previous stack _ hsafe
    obtain ⟨hrisk, seen, previous', hrepeat, halternation, hready, hsafe', -⟩ := hscan _ _ hsafe
    exact ⟨hrisk, seen, previous', hrepeat, halternation, hready, hsafe'⟩
  · obtain ⟨hscanned, hknown⟩ := isScanned_of_readQuantifier hquantifier
    have hbound : ∀ upper, quantifier ≠ .counted none upper := by
      rintro upper rfl
      exact absurd (Regex.apply_eq_false_of_has hclean) (by simp [isMisread])
    intro previous stack _ hsafe
    obtain ⟨hrisk, seen, previous', hrepeat, halternation, hready, hsafe', hseen⟩ := hscan _ _ hsafe
    obtain rfl := hseen (hknown hbound)
    have hnorepeat : (Regex.Node.group alternatives).has Regex.Node.isUnboundedRepeat = false :=
      Bool.eq_false_iff.mpr fun h => by simpa using hrepeat h
    have hnoalternation : (Regex.Node.group alternatives).has Regex.Node.isAlternation = false :=
      Bool.eq_false_iff.mpr fun h => by simpa using halternation h
    rw [propagate_nothing] at hsafe'
    have hrest : IsScanned engine middle (Regex.skipMode after) true false false :=
      hscanned.trans (isScanned_skipMode after)
    obtain ⟨-, seen, previous'', hrepeat', -, hready', hsafe''⟩ := hrest _ _ hready hsafe'
    refine ⟨?_, seen, previous'', fun _ => hrepeat' rfl, fun h => ?_, hready', hsafe''⟩
    · rw [Regex.Node.has, hrisk, isRisky, hnorepeat, hnoalternation]
      rfl
    · rw [Regex.Node.has, hnoalternation] at h
      cases h

/-- An item that begins with anything else. -/
theorem isScanned_atom_item {middle : List Char} {node item : Regex.Node}
    (hatom : Regex.readAtom text = some (node, middle))
    (hitem : Regex.readItem node middle = some (item, rest)) (hclean : item.has isMisread = false) :
    IsScanned engine text rest (item.has Regex.Node.isUnboundedRepeat)
      (item.has Regex.Node.isAlternation) (item.has isRisky) := by
  rcases Regex.readItem_eq_some hitem with ⟨rfl, rfl⟩ | ⟨quantifier, after, hquantifier, rfl, rfl⟩
  · obtain ⟨⟨hrepeat, halternation, hrisk, -⟩, hscanned⟩ :=
      isScanned_of_readAtom hatom (Regex.apply_eq_false_of_has hclean)
    rw [hrepeat, halternation, hrisk]
    exact hscanned
  · rw [Regex.Node.has, Bool.or_eq_false_iff] at hclean
    obtain ⟨⟨-, halternation, hrisk, hrepeated⟩, hscanned⟩ :=
      isScanned_of_readAtom hatom (Regex.apply_eq_false_of_has hclean.2)
    have hrest : IsScanned engine text (Regex.skipMode after) true false false :=
      hscanned.trans ((isScanned_of_readQuantifier hquantifier).1.trans (isScanned_skipMode after))
    simp only [Regex.Node.has, halternation, hrisk, hrepeated]
    exact hrest.weaken (by simp) (by simp [Regex.Node.isAlternation])

theorem sequenceScanned_succ {fuel : ℕ} (hsequence : SequenceScanned engine fuel)
    (hgroup : GroupScanned engine fuel) : SequenceScanned engine (fuel + 1) := by
  intro text nodes rest hread hclean
  rw [Regex.readSequence] at hread
  split_ifs at hread with hend
  · obtain ⟨rfl, rfl⟩ := Prod.mk.inj (Option.some.inj hread)
    exact .refl _
  · split at hread
    all_goals
      simp only [Option.bind_eq_bind, Option.bind_eq_some_iff, Prod.exists] at hread
      obtain ⟨node, middle, hnode, item, after, hitem, items, rest', hitems, heq⟩ := hread
      obtain ⟨rfl, rfl⟩ := Prod.mk.inj (Option.some.inj heq)
      rw [Regex.hasInSequence, Bool.or_eq_false_iff] at hclean
      simp only [Regex.hasInSequence]
      refine IsScanned.trans ?_ (hsequence _ _ _ hitems hclean.2)
    · refine (hgroup _ _ _ hnode ?_).item hitem hclean.1
      rcases Regex.readItem_eq_some hitem with ⟨rfl, -⟩ | ⟨quantifier, -, -, rfl, -⟩
      · exact hclean.1
      · exact (Bool.or_eq_false_iff.mp hclean.1).2
    · exact isScanned_atom_item hnode hitem hclean.1

theorem alternativesScanned_succ {fuel : ℕ} (hsequence : SequenceScanned engine fuel)
    (halternatives : AlternativesScanned engine fuel) : AlternativesScanned engine (fuel + 1) := by
  intro text alternatives rest hread hclean
  simp only [Regex.readAlternatives, Option.bind_eq_bind, Option.bind_eq_some_iff,
    Prod.exists] at hread
  obtain ⟨nodes, middle, hnodes, hread⟩ := hread
  split at hread
  · simp only [Option.bind_eq_some_iff, Prod.exists] at hread
    obtain ⟨others, rest', hothers, heq⟩ := hread
    obtain ⟨rfl, rfl⟩ := Prod.mk.inj (Option.some.inj heq)
    rw [Regex.hasInAlternatives, Bool.or_eq_false_iff] at hclean
    have hscanned := (hsequence _ _ _ hnodes hclean.1).trans
      (IsScanned.bar.trans (halternatives _ _ _ hothers hclean.2))
    simp only [Bool.false_or] at hscanned
    exact hscanned.weaken (fun h => h) (by simp)
  · obtain ⟨rfl, rfl⟩ := Prod.mk.inj (Option.some.inj hread)
    rw [Regex.hasInAlternatives, Bool.or_eq_false_iff] at hclean
    simpa [Regex.hasInAlternatives] using hsequence _ _ _ hnodes hclean.1

/-- Whatever the readers read is scanned, by induction on their fuel. -/
theorem scanned_of_read (fuel : ℕ) :
    SequenceScanned engine fuel ∧ AlternativesScanned engine fuel ∧ GroupScanned engine fuel := by
  induction fuel with
  | zero =>
    refine ⟨fun _ _ _ h => ?_, fun _ _ _ h => ?_, fun _ _ _ h => ?_⟩
    · cases h
    · cases h
    · cases h
  | succ fuel ih =>
    obtain ⟨hsequence, halternatives, hgroup⟩ := ih
    exact ⟨sequenceScanned_succ hsequence hgroup, alternativesScanned_succ hsequence halternatives,
      groupScanned_succ halternatives⟩

end Agreement

theorem isSafe_of_validate {pattern : String} (h : validateSafeRegexPattern engine pattern = .ok ()) :
    IsSafe engine none [] pattern.toList := by
  simp only [validateSafeRegexPattern, Except.bind_eq_ok_iff, rejectIf_eq_ok_iff] at h
  obtain ⟨-, -, -, -, h⟩ := h
  split at h
  · cases h
  · rename_i hrisk
    unfold regexBacktrackingRisk at hrisk
    dsimp only at hrisk
    split_ifs at hrisk with _ _ hunsafe
    exact Bool.eq_false_iff.mpr hunsafe

/-- **An accepted pattern repeats no group that repeats without bound or alternates**, where no class
of it begins with a closing bracket and no group of it is repeated without a lower bound. -/
theorem not_isRisky_of_validate {pattern : String} {alternatives : List (List Regex.Node)}
    (hvalid : validateSafeRegexPattern engine pattern = .ok ())
    (hparse : Regex.Parses pattern.toList alternatives)
    (hclean : Regex.hasInAlternatives isMisread alternatives = false) :
    Regex.hasInAlternatives isRisky alternatives = false := by
  obtain ⟨fuel, hread⟩ := hparse
  have hscanned := (@scanned_of_read engine fuel).2.1 _ _ _ hread hclean
  exact (hscanned none [] (.inl (by decide)) (isSafe_of_validate engine hvalid)).1

section Examples

/-- An engine that runs whatever it is given. -/
def lenientEngine : RegexEngine where
  compiles _ := true
  fullmatch _ _ := true
  isDigit := Char.isDigit
  isDigit_of_ascii _ h := h
  not_isDigit_comma := by decide
  not_isDigit_brace := by decide

/-- A year and an optional month. -/
theorem not_isRisky_yearMonth : ∃ alternatives,
    Regex.Parses "[0-9]{4}(?:-[0-9][0-9])?".toList alternatives ∧
      Regex.hasInAlternatives isRisky alternatives = false := by
  obtain ⟨alternatives, hparse, hclean⟩ := @Regex.exists_parses_of_any
    "[0-9]{4}(?:-[0-9][0-9])?".toList (fun a => !Regex.hasInAlternatives isMisread a) 20
    (by decide +kernel)
  exact ⟨alternatives, hparse, not_isRisky_of_validate lenientEngine (by decide +kernel) hparse
    (Bool.not_eq_true' _ |>.mp hclean)⟩

/-- **A quantifier without a lower bound is missed**, and so is the end of a class that begins with a
closing bracket: two patterns that are accepted and repeat a group that repeats. -/
theorem risky_accepted :
    (validateSafeRegexPattern lenientEngine "(a+){,9}" = .ok () ∧ ∃ alternatives,
      Regex.Parses "(a+){,9}".toList alternatives ∧
        Regex.hasInAlternatives isRisky alternatives = true) ∧
    (validateSafeRegexPattern lenientEngine "([]a)]+)+" = .ok () ∧ ∃ alternatives,
      Regex.Parses "([]a)]+)+".toList alternatives ∧
        Regex.hasInAlternatives isRisky alternatives = true) :=
  ⟨⟨by decide +kernel, Regex.exists_parses_of_any 12 (by decide +kernel)⟩,
    by decide +kernel, Regex.exists_parses_of_any 12 (by decide +kernel)⟩

end Examples

end FoundryLite.Actions
