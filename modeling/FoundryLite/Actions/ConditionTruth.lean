import FoundryLite.Actions.Conditions

/-!
# Conditions that know more

A value that was missing is supplied. Unknown goes through every connective as it should, so what was
decided without the value stays decided: no missing value makes a condition true. But all parts of a
condition are evaluated, and a supplied text can be the pattern of a comparison, which is checked only
then: a pattern that the guard refuses stops the evaluation.

## Main results

* `evaluate_supplied`: a decision stays, or a pattern is refused.
-/

namespace FoundryLite.Actions

open Except (bind_eq_error_iff bind_eq_ok_iff map_eq_ok_iff pure_eq_ok_iff)

/-! ### The comparisons of a condition -/

mutual

def ActionCondition.comparisons : ActionCondition → List (Operator × ConditionValue × ConditionValue)
  | .all children => childComparisons children
  | .any children => childComparisons children
  | .not child => child.comparisons
  | .exists _ => []
  | .compare operator left right => [(operator, left, right)]

def childComparisons : List ActionCondition → List (Operator × ConditionValue × ConditionValue)
  | [] => []
  | child :: children => child.comparisons ++ childComparisons children

end

mutual

def ActionCondition.hasExists : ActionCondition → Bool
  | .all children => anyHasExists children
  | .any children => anyHasExists children
  | .not child => child.hasExists
  | .exists _ => true
  | .compare _ _ _ => false

def anyHasExists : List ActionCondition → Bool
  | [] => false
  | child :: children => child.hasExists || anyHasExists children

end

/-! ### Values supplied -/

/-- The second context has the values of the first, and may have more. -/
structure Supplies (context context' : ActionConditionContext) : Prop where
  parameters : ∀ name value, context.parameters.get? name = some value →
    context'.parameters.get? name = some value
  objectProperties : ∀ name value, context.objectProperties.get? name = some value →
    context'.objectProperties.get? name = some value
  actorAttributes : ∀ name value, context.actorAttributes.get? name = some value →
    context'.actorAttributes.get? name = some value
  linkedObjectProperties : ∀ key value, context.linkedObjectProperties.get? key = some value →
    context'.linkedObjectProperties.get? key = some value
  actorUserId : context'.actorUserId = context.actorUserId
  actorGroups : context'.actorGroups = context.actorGroups
  parameterTypes : context'.parameterTypes = context.parameterTypes
  objectPropertyTypes : context'.objectPropertyTypes = context.objectPropertyTypes
  linkedObjectPropertyTypes : context'.linkedObjectPropertyTypes = context.linkedObjectPropertyTypes

section Supplied

variable {engine : RegexEngine} {context context' : ActionConditionContext}

/-- An operand has the value that it had. -/
theorem Supplies.conditionValue (hsupplies : Supplies context context') {source : ConditionValue}
    {operand : ConditionOperand} (h : conditionValue context source = .ok operand) :
    ∃ operand', conditionValue context' source = .ok operand' ∧
      operand'.dataType = operand.dataType ∧
        ∀ value, operand.value = some value → operand'.value = some value := by
  cases source with
  | literal value =>
    obtain rfl := pure_eq_ok_iff.mp h
    exact ⟨_, rfl, rfl, fun _ h => h⟩
  | parameter name =>
    obtain rfl := pure_eq_ok_iff.mp h
    refine ⟨_, rfl, ?_, hsupplies.parameters name⟩
    rw [hsupplies.parameterTypes]
  | objectProperty name =>
    obtain rfl := pure_eq_ok_iff.mp h
    refine ⟨_, rfl, ?_, hsupplies.objectProperties name⟩
    rw [hsupplies.objectPropertyTypes]
  | currentUser userAttribute =>
    obtain rfl := pure_eq_ok_iff.mp h
    refine ⟨_, rfl, rfl, fun value hvalue => ?_⟩
    cases userAttribute with
    | none =>
      rw [← hvalue]
      exact congrArg (fun id => some (Json.str id)) hsupplies.actorUserId
    | some name =>
      simp only [ActionConditionContext.currentUser, hsupplies.actorUserId, hsupplies.actorGroups]
        at hvalue ⊢
      split_ifs at hvalue ⊢
      · exact hvalue
      · exact hvalue
      · exact hsupplies.actorAttributes name value hvalue
  | linkedObjectProperty linkType direction propertyName aggregation =>
    obtain ⟨value, hvalue, heq⟩ := bind_eq_ok_iff.mp h
    obtain rfl := pure_eq_ok_iff.mp heq
    have hvalue' : context'.linkedObjectProperty linkType direction propertyName aggregation
        = .ok value := by
      rw [ActionConditionContext.linkedObjectProperty] at hvalue ⊢
      split at hvalue
      · rename_i found hfound
        rw [hsupplies.linkedObjectProperties _ _ hfound]
        exact hvalue
      · cases hvalue
    refine ⟨_, bind_eq_ok_iff.mpr ⟨value, hvalue', rfl⟩, ?_, fun _ h => h⟩
    rw [hsupplies.linkedObjectPropertyTypes]

/-- Only the guard of patterns stops a comparison of two values. -/
theorem compareOperands_eq_error {operator : Operator} {leftType rightType : Option String}
    {left right : Json} {e : FoundryLiteError}
    (h : compareOperands engine operator leftType rightType left right = .error e) :
    operator = .matches ∧ ∃ pattern, right = .str pattern ∧
      validateSafeRegexPattern engine pattern = .error e := by
  unfold compareOperands at h
  split_ifs at h
  · cases h
  · cases h
  · cases operator
    case «matches» =>
      refine ⟨rfl, ?_⟩
      change matchesPattern engine left right = .error e at h
      unfold matchesPattern at h
      split at h
      · rename_i text pattern
        split_ifs at h
        · cases h
        · rcases bind_eq_error_iff.mp h with h | ⟨_, -, h⟩
          · exact ⟨pattern, rfl, h⟩
          · cases h
      · cases h
    all_goals cases h

/-- A comparison of the condition is stopped at its pattern, which is no literal. -/
def RefusesPattern (engine : RegexEngine) (context : ActionConditionContext)
    (comparisons : List (Operator × ConditionValue × ConditionValue)) (e : FoundryLiteError) : Prop :=
  ∃ left right pattern type, (Operator.matches, left, right) ∈ comparisons ∧
    (∀ value, right ≠ .literal value) ∧
    conditionValue context right = .ok ⟨some (.str pattern), type⟩ ∧
    validateSafeRegexPattern engine pattern = .error e

theorem RefusesPattern.mono {comparisons comparisons' : List (Operator × ConditionValue × ConditionValue)}
    {e : FoundryLiteError} (h : RefusesPattern engine context comparisons e)
    (hsub : comparisons ⊆ comparisons') : RefusesPattern engine context comparisons' e := by
  obtain ⟨left, right, pattern, type, hmem, hrest⟩ := h
  exact ⟨left, right, pattern, type, hsub hmem, hrest⟩

theorem evaluateComparison_of_values {operator : Operator} {left right : ConditionValue}
    {leftOperand rightOperand : ConditionOperand}
    (hleft : conditionValue context left = .ok leftOperand)
    (hright : conditionValue context right = .ok rightOperand) :
    evaluateComparison engine context operator left right
      = compareWhenPresent engine operator leftOperand rightOperand := by
  rw [evaluateComparison, hleft, hright]
  rfl

/-- A comparison that is decided has both values. -/
theorem compareWhenPresent_eq_some {operator : Operator} {left right : ConditionOperand} {b : Bool}
    (h : compareWhenPresent engine operator left right = .ok (some b)) :
    ∃ leftValue rightValue, left.value = some leftValue ∧ right.value = some rightValue := by
  unfold compareWhenPresent at h
  split at h
  · rename_i l r hl hr
    exact ⟨l, r, hl, hr⟩
  · cases h

/-- A comparison that is stopped is stopped at its pattern. -/
theorem compareWhenPresent_eq_error {operator : Operator} {left right : ConditionOperand}
    {e : FoundryLiteError} (h : compareWhenPresent engine operator left right = .error e) :
    operator = .matches ∧ ∃ pattern, right.value = some (.str pattern) ∧
      validateSafeRegexPattern engine pattern = .error e := by
  unfold compareWhenPresent at h
  split at h
  · rename_i l r hl hr
    have herror : compareOperands engine operator left.dataType right.dataType l r = .error e := by
      cases hcompare : compareOperands engine operator left.dataType right.dataType l r with
      | error e' =>
        rw [hcompare] at h
        cases h
        rfl
      | ok b =>
        rw [hcompare] at h
        cases h
    obtain ⟨hoperator, pattern, rfl, hrefused⟩ := compareOperands_eq_error herror
    exact ⟨hoperator, pattern, hr, hrefused⟩
  · cases h

theorem evaluateComparison_supplied (hsupplies : Supplies context context') {operator : Operator}
    {left right : ConditionValue} (hvalid : validateComparison engine operator left right = .ok ())
    {result : Option Bool} (h : evaluateComparison engine context operator left right = .ok result) :
    (∃ result', evaluateComparison engine context' operator left right = .ok result' ∧
        Kleene.Informs result result') ∨
      ∃ e, evaluateComparison engine context' operator left right = .error e ∧
        RefusesPattern engine context' [(operator, left, right)] e := by
  obtain ⟨leftOperand, hleft, h⟩ := bind_eq_ok_iff.mp h
  obtain ⟨rightOperand, hright, h⟩ := bind_eq_ok_iff.mp h
  obtain ⟨leftOperand', hleft', hleftType, hkeepsLeft⟩ := hsupplies.conditionValue hleft
  obtain ⟨rightOperand', hright', hrightType, hkeepsRight⟩ := hsupplies.conditionValue hright
  rw [evaluateComparison_of_values hleft' hright']
  cases hafter : compareWhenPresent engine operator leftOperand' rightOperand' with
  | ok result' =>
    refine .inl ⟨result', rfl, fun b hb => ?_⟩
    subst hb
    -- What was decided was decided by two values, and these are still there.
    obtain ⟨l, r, hl, hr⟩ := compareWhenPresent_eq_some h
    have hsame : compareWhenPresent engine operator leftOperand' rightOperand'
        = compareWhenPresent engine operator leftOperand rightOperand := by
      simp only [compareWhenPresent, hkeepsLeft l hl, hkeepsRight r hr, hl, hr, hleftType,
        hrightType]
    exact Except.ok.inj ((hafter.symm.trans hsame).trans h)
  | error e =>
    obtain ⟨rfl, pattern, hpattern, hrefused⟩ := compareWhenPresent_eq_error hafter
    refine .inr ⟨e, rfl, left, right, pattern, rightOperand'.dataType, List.mem_singleton_self _,
      ?_, ?_, hrefused⟩
    · -- The check has run a literal through the guard before.
      rintro value rfl
      obtain rfl := Except.ok.inj hright'
      obtain rfl : value = .str pattern := Option.some.inj hpattern
      obtain ⟨_, hliteral, _⟩ := bind_eq_ok_iff.mp hvalid
      rw [show validateLiteralRegex engine (.literal (.str pattern))
        = validateSafeRegexPattern engine pattern from rfl, hrefused] at hliteral
      cases hliteral
    · rw [hright', ← hpattern]

mutual

/-- What is decided stays decided, by induction on the condition. -/
theorem evaluate_supplied_of_valid (hsupplies : Supplies context context') :
    ∀ (condition : ActionCondition), condition.validate engine = .ok () →
      condition.hasExists = false → ∀ result, condition.evaluate engine context = .ok result →
        (∃ result', condition.evaluate engine context' = .ok result' ∧
            Kleene.Informs result result') ∨
          ∃ e, condition.evaluate engine context' = .error e ∧
            RefusesPattern engine context' condition.comparisons e
  | .all children => by
    intro hvalid hexists result h
    obtain ⟨_, _, hvalid⟩ := bind_eq_ok_iff.mp hvalid
    obtain ⟨results, hresults, rfl⟩ := map_eq_ok_iff.mp h
    rcases evaluateChildren_supplied hsupplies children hvalid hexists results hresults with
      ⟨results', hresults', hinforms⟩ | ⟨e, herror, hrefused⟩
    · exact .inl ⟨_, map_eq_ok_iff.mpr ⟨results', hresults', rfl⟩, .connect hinforms⟩
    · exact .inr ⟨e, by rw [ActionCondition.evaluate, herror]; rfl, hrefused⟩
  | .any children => by
    intro hvalid hexists result h
    obtain ⟨_, _, hvalid⟩ := bind_eq_ok_iff.mp hvalid
    obtain ⟨results, hresults, rfl⟩ := map_eq_ok_iff.mp h
    rcases evaluateChildren_supplied hsupplies children hvalid hexists results hresults with
      ⟨results', hresults', hinforms⟩ | ⟨e, herror, hrefused⟩
    · exact .inl ⟨_, map_eq_ok_iff.mpr ⟨results', hresults', rfl⟩, .connect hinforms⟩
    · exact .inr ⟨e, by rw [ActionCondition.evaluate, herror]; rfl, hrefused⟩
  | .not child => by
    intro hvalid hexists result h
    obtain ⟨_, _, hvalid⟩ := bind_eq_ok_iff.mp hvalid
    obtain ⟨inner, hinner, rfl⟩ := map_eq_ok_iff.mp h
    rcases evaluate_supplied_of_valid hsupplies child hvalid hexists inner hinner with
      ⟨inner', hinner', hinforms⟩ | ⟨e, herror, hrefused⟩
    · exact .inl ⟨_, map_eq_ok_iff.mpr ⟨inner', hinner', rfl⟩, hinforms.negate⟩
    · exact .inr ⟨e, by rw [ActionCondition.evaluate, herror]; rfl, hrefused⟩
  | .exists _ => fun _ hexists => by cases hexists
  | .compare _ _ _ => fun hvalid _ _ h => evaluateComparison_supplied hsupplies hvalid h

theorem evaluateChildren_supplied (hsupplies : Supplies context context') :
    ∀ (children : List ActionCondition), validateChildren engine children = .ok () →
      anyHasExists children = false →
        ∀ results, evaluateChildren engine context children = .ok results →
          (∃ results', evaluateChildren engine context' children = .ok results' ∧
              List.Forall₂ Kleene.Informs results results') ∨
            ∃ e, evaluateChildren engine context' children = .error e ∧
              RefusesPattern engine context' (childComparisons children) e
  | [] => by
    intro _ _ results h
    obtain rfl := pure_eq_ok_iff.mp h
    exact .inl ⟨[], rfl, .nil⟩
  | child :: children => by
    intro hvalid hexists results h
    obtain ⟨_, hchild, hchildren⟩ := bind_eq_ok_iff.mp hvalid
    obtain ⟨hexists, hexists'⟩ := Bool.or_eq_false_iff.mp hexists
    obtain ⟨result, hresult, h⟩ := bind_eq_ok_iff.mp h
    obtain ⟨rest, hrest, heq⟩ := bind_eq_ok_iff.mp h
    obtain rfl := pure_eq_ok_iff.mp heq
    rcases evaluate_supplied_of_valid hsupplies child hchild hexists result hresult with
      ⟨result', hresult', hinforms⟩ | ⟨e, herror, hrefused⟩
    · rcases evaluateChildren_supplied hsupplies children hchildren hexists' rest hrest with
        ⟨rest', hrest', hinforms'⟩ | ⟨e, herror, hrefused⟩
      · exact .inl ⟨result' :: rest', bind_eq_ok_iff.mpr ⟨result', hresult',
          bind_eq_ok_iff.mpr ⟨rest', hrest', rfl⟩⟩, .cons hinforms hinforms'⟩
      · exact .inr ⟨e, bind_eq_error_iff.mpr (.inr ⟨result', hresult',
          bind_eq_error_iff.mpr (.inl herror)⟩),
          hrefused.mono (List.subset_append_right _ _)⟩
    · exact .inr ⟨e, bind_eq_error_iff.mpr (.inl herror),
        hrefused.mono (List.subset_append_left _ _)⟩

end

theorem validate_of_accepted {condition : Mapping} {read : ActionCondition}
    (h : acceptedCondition engine condition = .ok read) : read.validate engine = .ok () := by
  obtain ⟨read', _, h⟩ := bind_eq_ok_iff.mp h
  obtain ⟨_, hvalid, heq⟩ := bind_eq_ok_iff.mp h
  obtain rfl := pure_eq_ok_iff.mp heq
  exact hvalid

/-- **A decision stays when missing values are supplied, or a supplied pattern is refused**; so no
missing value makes a condition true. -/
theorem evaluate_supplied {condition : Mapping} {read : ActionCondition}
    (haccepted : acceptedCondition engine condition = .ok read) (hexists : read.hasExists = false)
    (hsupplies : Supplies context context') :
    (∀ b, read.evaluate engine context = .ok (some b) →
      read.evaluate engine context' = .ok (some b) ∨
        ∃ e, read.evaluate engine context' = .error e ∧
          RefusesPattern engine context' read.comparisons e) ∧
    (evaluateActionCondition engine context condition = .ok true →
      evaluateActionCondition engine context' condition = .ok true ∨
        ∃ e, evaluateActionCondition engine context' condition = .error e ∧
          RefusesPattern engine context' read.comparisons e) := by
  have hdecided : ∀ b, read.evaluate engine context = .ok (some b) →
      read.evaluate engine context' = .ok (some b) ∨
        ∃ e, read.evaluate engine context' = .error e ∧
          RefusesPattern engine context' read.comparisons e := by
    intro b h
    refine (evaluate_supplied_of_valid hsupplies read (validate_of_accepted haccepted) hexists _
      h).imp_left ?_
    rintro ⟨result', hresult', hinforms⟩
    rw [hresult', hinforms b rfl]
  refine ⟨hdecided, fun h => ?_⟩
  obtain ⟨_, hread, h⟩ := bind_eq_ok_iff.mp h
  obtain rfl := Except.ok.inj (haccepted.symm.trans hread)
  obtain ⟨result, hresult, htrue⟩ := bind_eq_ok_iff.mp h
  obtain rfl : result = some true := by simpa using htrue
  rcases hdecided true hresult with hafter | ⟨e, herror, hrefused⟩
  · exact .inl (bind_eq_ok_iff.mpr ⟨read, haccepted,
      bind_eq_ok_iff.mpr ⟨_, hafter, rfl⟩⟩)
  · exact .inr ⟨e, bind_eq_error_iff.mpr (.inr ⟨read, haccepted,
      bind_eq_error_iff.mpr (.inl herror)⟩), hrefused⟩

end Supplied

section Examples

def literalJson (value : Json) : Json := .obj [("kind", .str "literal"), ("value", value)]

def parameterJson (name : String) : Json :=
  .obj [("kind", .str "parameter"), ("parameter", .str name)]

def comparisonJson (operator : String) (left right : Json) : Json :=
  .obj [("op", .str operator), ("left", left), ("right", right)]

def contextOf (parameters : List (String × Json)) : ActionConditionContext where
  parameters := Dict.ofList parameters
  actorUserId := "ada"
  actorGroups := []

theorem supplies_contextOf {parameters : List (String × Json)} {name : String}
    (value : Json) :
    Supplies (contextOf parameters) (contextOf (parameters ++ [(name, value)])) := by
  refine ⟨fun key found h => ?_, fun _ _ h => h, fun _ _ h => h, fun _ _ h => h, rfl, rfl, rfl, rfl,
    rfl⟩
  rw [contextOf, Dict.get?_ofList] at h ⊢
  rw [List.lookup_append, h]
  rfl

/-- A ticket that is open, or that someone owns. -/
def openOrOwned : Mapping :=
  [("any", .arr [comparisonJson "eq" (parameterJson "status") (literalJson (.str "open")),
    comparisonJson "neq" (parameterJson "owner") (literalJson .null)])]

theorem evaluate_supplied_owner : ∃ read,
    acceptedCondition lenientEngine openOrOwned = .ok read ∧
      read.evaluate lenientEngine (contextOf [("status", .str "open")]) = .ok (some true) ∧
      (read.evaluate lenientEngine (contextOf [("status", .str "open"), ("owner", .str "bob")])
          = .ok (some true) ∨
        ∃ e, read.evaluate lenientEngine
            (contextOf [("status", .str "open"), ("owner", .str "bob")]) = .error e ∧
          RefusesPattern lenientEngine (contextOf [("status", .str "open"), ("owner", .str "bob")])
            read.comparisons e) := by
  obtain ⟨read, haccepted, hexists, hbefore⟩ : ∃ read,
      acceptedCondition lenientEngine openOrOwned = .ok read ∧ read.hasExists = false ∧
        read.evaluate lenientEngine (contextOf [("status", .str "open")]) = .ok (some true) :=
    ⟨_, rfl, rfl, rfl⟩
  exact ⟨read, haccepted, hbefore, (evaluate_supplied haccepted hexists
    (supplies_contextOf (.str "bob"))).1 true hbefore⟩

/-- A comparison that is false, and one whose pattern is a parameter. -/
def guardedPattern : Mapping :=
  [("all", .arr [comparisonJson "eq" (literalJson (.int 1)) (literalJson (.int 2)),
    comparisonJson "matches" (literalJson (.str "a")) (parameterJson "pattern")])]

/-- **A supplied pattern can stop an evaluation** that was decided without it. -/
theorem not_evaluate_supplied_decides : ¬ ∀ (engine : RegexEngine) (condition : Mapping)
    (read : ActionCondition) (context context' : ActionConditionContext) (b : Bool),
    acceptedCondition engine condition = .ok read → read.hasExists = false →
      Supplies context context' → read.evaluate engine context = .ok (some b) →
        read.evaluate engine context' = .ok (some b) := by
  intro h
  have hafter := h lenientEngine guardedPattern _ (contextOf [])
    (contextOf [("pattern", .str "(?=a)")]) false rfl rfl (supplies_contextOf _) rfl
  exact absurd hafter (by decide +kernel)

end Examples

end FoundryLite.Actions
