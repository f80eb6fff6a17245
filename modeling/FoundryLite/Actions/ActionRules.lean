import FoundryLite.Errors

/-!
# The rules of an action

An action type is an ordered list of edit rules, and each value in a rule comes from one of a closed
set of sources. The checks of a definition need no data: rule ids are distinct, a function rule stands
alone, no object is created twice under a literal key, and a rule that reads the output of another
comes after the rule that creates it.

## Main results

* `createdBefore_of_validate`: what a rule of an accepted definition refers to is created before it.
-/

namespace FoundryLite.Actions

/-! ### Values and rules -/

inductive ValueExpression where
  | literal (value : Json)
  | parameter (parameter : String)
  | objectProperty (parameter property : String)
  | priorRuleOutput (ruleId output : String)
  | functionOutput (key : String)
  | currentUser (attributeName : Option String)
  | currentTime (unit : String)
  | generatedId (strategy : String)
  | webhookResponse (field : String)

structure PropertyAssignment where
  property : String
  value : ValueExpression

inductive RuleCardinality where
  | one
  | many
  deriving DecidableEq

structure CreateObjectRule where
  ruleId : String
  objectType : String
  primaryKey : Option ValueExpression
  assignments : List PropertyAssignment

structure ModifyObjectRule where
  ruleId : String
  objectType : String
  target : ValueExpression
  assignments : List PropertyAssignment
  cardinality : RuleCardinality := .one
  shouldCreateIfAbsent : Bool := false

structure DeleteObjectRule where
  ruleId : String
  objectType : String
  target : ValueExpression
  cardinality : RuleCardinality := .one

/-- A rule that creates or deletes a link. -/
structure LinkRule where
  ruleId : String
  linkType : String
  source : ValueExpression
  target : ValueExpression

/-- Delete every concrete link of an interface link constraint. -/
structure ResolvedInterfaceLinkDeleteRule where
  ruleId : String
  concreteLinkTypes : List String
  source : ValueExpression
  target : ValueExpression

structure FunctionEditRule where
  ruleId : String
  functionApiName : String
  functionVersion : String

inductive ActionRule where
  | createObject (rule : CreateObjectRule)
  | modifyObject (rule : ModifyObjectRule)
  | deleteObject (rule : DeleteObjectRule)
  | createLink (rule : LinkRule)
  | deleteLink (rule : LinkRule)
  | deleteInterfaceLinks (rule : ResolvedInterfaceLinkDeleteRule)
  | functionEdit (rule : FunctionEditRule)

/-- `ActionDefinitionV2`. -/
structure ActionDefinition where
  apiName : String
  rules : List ActionRule

namespace ActionRule

def ruleId : ActionRule → String
  | createObject rule => rule.ruleId
  | modifyObject rule => rule.ruleId
  | deleteObject rule => rule.ruleId
  | createLink rule | deleteLink rule => rule.ruleId
  | deleteInterfaceLinks rule => rule.ruleId
  | functionEdit rule => rule.ruleId

/-- `iter_value_expressions`. -/
def valueExpressions : ActionRule → List ValueExpression
  | createObject rule => rule.primaryKey.toList ++ rule.assignments.map PropertyAssignment.value
  | modifyObject rule => rule.target :: rule.assignments.map PropertyAssignment.value
  | deleteObject rule => [rule.target]
  | createLink rule | deleteLink rule => [rule.source, rule.target]
  | deleteInterfaceLinks rule => [rule.source, rule.target]
  | functionEdit _ => []

def isFunction : ActionRule → Bool
  | functionEdit _ => true
  | _ => false

/-- The id of a rule that creates an object. -/
def createdId? : ActionRule → Option String
  | createObject rule => some rule.ruleId
  | _ => none

/-- The link of a rule that creates or deletes one. -/
def link? : ActionRule → Option LinkRule
  | createLink rule | deleteLink rule => some rule
  | _ => none

end ActionRule

/-- The rule whose output an expression reads. -/
def ValueExpression.priorRule? : ValueExpression → Option String
  | priorRuleOutput ruleId _ => some ruleId
  | _ => none

/-- `referenced_prior_rule_ids`. -/
def ActionRule.referencedPriorRuleIds (rule : ActionRule) : List String :=
  rule.valueExpressions.filterMap ValueExpression.priorRule?

/-! ### The checks -/

/-- The object types and literal keys of the objects that are created. -/
def literalPrimaryKeys (rules : List ActionRule) : List (String × String) :=
  rules.filterMap fun
    | .createObject ⟨_, objectType, some (.literal (.str key)), _⟩ =>
      if key = "" then none else some (objectType, key)
    | _ => none

def validateUniqueRuleIds (seen : List String) : List ActionRule → Checked Unit
  | [] => pure ()
  | rule :: rules => do
    rejectIf (rule.ruleId ∈ seen) "duplicate action rule id" [("ruleId", .str rule.ruleId)]
    validateUniqueRuleIds (rule.ruleId :: seen) rules

def validateFunctionExclusivity (rules : List ActionRule) : Checked Unit :=
  rejectIf (rules.any ActionRule.isFunction = true ∧ rules.length ≠ 1)
    "a function rule must be the only rule in the action" [("ruleCount", .int rules.length)]

def validateDoubleCreate (seen : List (String × String)) : List (String × String) → Checked Unit
  | [] => pure ()
  | (objectType, key) :: keys => do
    rejectIf ((objectType, key) ∈ seen) "object created twice in one action"
      [("objectType", .str objectType), ("primaryKey", .str key)]
    validateDoubleCreate ((objectType, key) :: seen) keys

/-- The checks of one reference of a rule. -/
def validateReference (created deleted : List String) (rule : ActionRule) (referenced : String) :
    Checked Unit := do
  rejectIf (referenced ∉ created) "rule references an object before it is created"
    [("ruleId", .str rule.ruleId), ("references", .str referenced)]
  rejectIf (referenced ∈ deleted) "rule references an object after it is deleted"
    [("ruleId", .str rule.ruleId), ("references", .str referenced)]

def validateOrdering (created deleted : List String) : List ActionRule → Checked Unit
  | [] => pure ()
  | rule :: rules => do
    rule.referencedPriorRuleIds.forM (validateReference created deleted rule)
    match rule with
    | .createObject create => validateOrdering (create.ruleId :: created) deleted rules
    | .deleteObject _ =>
      validateOrdering created (rule.referencedPriorRuleIds ++ deleted) rules
    | _ => validateOrdering created deleted rules

def validateActionDefinition (definition : ActionDefinition) : Checked Unit := do
  let rules := definition.rules
  rejectIf (rules = []) "action definition has no rules" [("apiName", .str definition.apiName)]
  validateUniqueRuleIds [] rules
  validateFunctionExclusivity rules
  validateDoubleCreate [] (literalPrimaryKeys rules)
  validateOrdering [] [] rules

/-! ### What the checks say -/

theorem nodup_of_validateUniqueRuleIds {seen : List String} {rules : List ActionRule}
    (h : validateUniqueRuleIds seen rules = .ok ()) :
    (rules.map ActionRule.ruleId).Nodup ∧ ∀ rule ∈ rules, rule.ruleId ∉ seen := by
  induction rules generalizing seen with
  | nil => exact ⟨List.nodup_nil, fun _ hrule => absurd hrule List.not_mem_nil⟩
  | cons rule rules ih =>
    obtain ⟨u, hnew, hrest⟩ := Except.bind_eq_ok_iff.mp h
    obtain ⟨hnodup, hfresh⟩ := ih hrest
    have hapart : rule.ruleId ∉ rules.map ActionRule.ruleId := by
      intro hmem
      obtain ⟨other, hother, hid⟩ := List.mem_map.mp hmem
      exact hfresh other hother (hid ▸ List.mem_cons_self)
    refine ⟨List.nodup_cons.mpr ⟨hapart, hnodup⟩, fun other hother => ?_⟩
    rcases List.mem_cons.mp hother with rfl | hother
    · exact rejectIf_eq_ok_iff.mp hnew
    · exact fun hmem => hfresh other hother (List.mem_cons_of_mem _ hmem)

/-- **The rules of an accepted definition have ids of their own.** -/
theorem nodup_ruleId_of_validate {definition : ActionDefinition}
    (h : validateActionDefinition definition = .ok ()) :
    (definition.rules.map ActionRule.ruleId).Nodup := by
  simp only [validateActionDefinition, Except.bind_eq_ok_iff] at h
  obtain ⟨_, _, _, hunique, _⟩ := h
  exact (nodup_of_validateUniqueRuleIds hunique).1

theorem mem_of_validateOrdering {created deleted : List String} {before after : List ActionRule}
    {rule : ActionRule}
    (h : validateOrdering created deleted (before ++ rule :: after) = .ok ()) {ruleId : String}
    (hrule : ruleId ∈ rule.referencedPriorRuleIds) :
    ruleId ∈ created ∨ ruleId ∈ before.filterMap ActionRule.createdId? := by
  induction before generalizing created deleted with
  | nil =>
    obtain ⟨u, hrefs, -⟩ := Except.bind_eq_ok_iff.mp h
    obtain ⟨_, hcreated, -⟩ := Except.bind_eq_ok_iff.mp (List.forM_eq_ok_iff.mp hrefs ruleId hrule)
    exact .inl (not_not.mp (rejectIf_eq_ok_iff.mp hcreated))
  | cons first before ih =>
    obtain ⟨u, -, hrest⟩ := Except.bind_eq_ok_iff.mp h
    cases first with
    | createObject create =>
      rcases ih hrest with hmem | hmem
      · rcases List.mem_cons.mp hmem with rfl | hmem
        · exact .inr List.mem_cons_self
        · exact .inl hmem
      · exact .inr (List.mem_cons_of_mem _ hmem)
    | modifyObject _ => exact ih hrest
    | deleteObject _ => exact ih hrest
    | createLink _ => exact ih hrest
    | deleteLink _ => exact ih hrest
    | deleteInterfaceLinks _ => exact ih hrest
    | functionEdit _ => exact ih hrest

/-- **What a rule refers to is created before it.** -/
theorem createdBefore_of_validate {definition : ActionDefinition}
    (h : validateActionDefinition definition = .ok ()) {before after : List ActionRule}
    {rule : ActionRule} (hrules : definition.rules = before ++ rule :: after) {ruleId : String}
    (hrule : ruleId ∈ rule.referencedPriorRuleIds) :
    ruleId ∈ before.filterMap ActionRule.createdId? := by
  simp only [validateActionDefinition, Except.bind_eq_ok_iff] at h
  obtain ⟨_, _, _, _, _, _, _, _, hordering⟩ := h
  rw [hrules] at hordering
  exact (mem_of_validateOrdering hordering hrule).resolve_left List.not_mem_nil

end FoundryLite.Actions
