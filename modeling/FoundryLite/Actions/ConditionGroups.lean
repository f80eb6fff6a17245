import FoundryLite.Actions.ConditionTruth

/-!
# Conditions on the groups of a user

A condition may read the groups of its user, and must not be satisfied because the user is in one
group less. The check keeps the groups out of negations and from the two operators that are negative
by name. That is not enough: a list that must be equal to the groups, or that each member of them has
to meet, is met no more when there is one group more.

## Main results

* `isMonotone_iff_isPositive`: the accepted conditions that read the groups in some places only are all
  monotone exactly when these places are positive.
-/

namespace FoundryLite.Actions

/-- Where a comparison reads the groups. -/
inductive GroupUse where
  | exists
  | left (operator : Operator)
  | right (operator : Operator)
  deriving DecidableEq

/-- More groups can make the comparison true and cannot make it false. The operators that never hold of
a list and those that the check refuses are among these. -/
def GroupUse.isPositive : GroupUse → Bool
  | .exists => true
  | .left operator => operator ∉ [Operator.eq, .in, .eachIs, .eachIsNot]
  | .right operator => operator ∉ [Operator.eq, .contains, .eachIs, .eachIsNot]

mutual

def ActionCondition.groupUses : ActionCondition → List GroupUse
  | .all children => childGroupUses children
  | .any children => childGroupUses children
  | .not child => child.groupUses
  | .exists left => if left.isGroupIdentity then [.exists] else []
  | .compare operator left right =>
    (if left.isGroupIdentity then [.left operator] else []) ++
      if right.isGroupIdentity then [.right operator] else []

def childGroupUses : List ActionCondition → List GroupUse
  | [] => []
  | child :: children => child.groupUses ++ childGroupUses children

end

namespace ActionConditionContext

/-- The same context for a user in other groups. -/
def withGroups (context : ActionConditionContext) (groups : List String) :
    ActionConditionContext :=
  { context with actorGroups := groups }

end ActionConditionContext

/-- A user who is in more groups and otherwise the same is not refused what the other is granted. -/
def IsMonotone (engine : RegexEngine) (condition : Mapping) : Prop :=
  ∀ (context : ActionConditionContext) (groups : List String), context.actorGroups ⊆ groups →
    evaluateActionCondition engine context condition = .ok true →
      evaluateActionCondition engine (context.withGroups groups) condition = .ok true

section Groups

variable {engine : RegexEngine} {context : ActionConditionContext} {groups : List String}
  {items items' : List Json} {value : Json}

/-! ### Lists that grow -/

/-- The second comparison holds where the first does. -/
def IsImplied (before after : Checked Bool) : Prop :=
  ∃ b b', before = .ok b ∧ after = .ok b' ∧ (b = true → b' = true)

theorem IsImplied.of_imp {b b' : Bool} (h : b = true → b' = true) :
    IsImplied (pure b) (pure b') := ⟨b, b', rfl, rfl, h⟩

theorem IsImplied.trans {before middle after : Checked Bool} (h : IsImplied before middle)
    (h' : IsImplied middle after) : IsImplied before after := by
  obtain ⟨b, b', hb, hb', himp⟩ := h
  obtain ⟨c, c', hc, hc', himp'⟩ := h'
  obtain rfl := Except.ok.inj (hb'.symm.trans hc)
  exact ⟨b, c', hb, hc', fun h => himp' (himp h)⟩

theorem any_of_subset {p : Json → Bool} (hsub : items ⊆ items') (h : items.any p = true) :
    items'.any p = true := by
  obtain ⟨item, hmem, hp⟩ := List.any_eq_true.mp h
  exact List.any_eq_true.mpr ⟨item, hsub hmem, hp⟩

theorem compareDecimalValues_left (hsub : items ⊆ items') {operator : Operator}
    (hpositive : (GroupUse.left operator).isPositive = true)
    (hrefused : operator ∉ [Operator.neq, .notIn])
    (h : compareDecimalValues operator (.arr items) value = true) :
    compareDecimalValues operator (.arr items') value = true := by
  cases operator
  case «contains» =>
    simp only [compareDecimalValues, compareDecimalCollectionOperation, Option.getD_some,
      decimalCollectionContains] at h ⊢
    split at h
    · cases h
    · exact any_of_subset hsub h
  all_goals first
    | exact absurd hpositive (by decide)
    | exact absurd (by decide) hrefused
    | exact h

/-- A list is no decimal. -/
theorem compareDecimalScalars_arr (operator : Operator) :
    compareDecimalScalars operator value (.arr items) = false := by
  unfold compareDecimalScalars
  cases conditionDecimal value <;> rfl

theorem compareDecimalValues_right (hsub : items ⊆ items') {operator : Operator}
    (hpositive : (GroupUse.right operator).isPositive = true)
    (hrefused : operator ∉ [Operator.neq, .notIn])
    (h : compareDecimalValues operator value (.arr items) = true) :
    compareDecimalValues operator value (.arr items') = true := by
  cases operator
  case «in» =>
    simp only [compareDecimalValues, compareDecimalCollectionOperation, Option.getD_some,
      decimalCollectionContains] at h ⊢
    split at h
    · cases h
    · exact any_of_subset hsub h
  all_goals first
    | exact absurd hpositive (by decide)
    | exact absurd (by decide) hrefused
    | simp [compareDecimalValues, compareDecimalCollectionOperation, compareDecimalScalars_arr] at h

/-- A list on the left grows. -/
theorem compare_left (hsub : items ⊆ items') {operator : Operator}
    (hpositive : (GroupUse.left operator).isPositive = true)
    (hrefused : operator ∉ [Operator.neq, .notIn]) :
    IsImplied (compare engine operator (.arr items) value)
      (compare engine operator (.arr items') value) := by
  cases operator
  case «contains» => exact .of_imp fun h => any_of_subset hsub h
  case containsAny =>
    refine .of_imp fun h => ?_
    unfold containsAny at h ⊢
    split at h
    · rename_i members heq
      obtain ⟨member, hmem, hcontained⟩ := List.any_eq_true.mp h
      exact List.any_eq_true.mpr ⟨member, hmem, any_of_subset hsub hcontained⟩
    · cases h
  all_goals first
    | exact absurd hpositive (by decide)
    | exact absurd (by decide) hrefused
    | exact .of_imp fun h => h

/-- A list on the right grows. -/
theorem compare_right (hsub : items ⊆ items') {operator : Operator}
    (hpositive : (GroupUse.right operator).isPositive = true)
    (hrefused : operator ∉ [Operator.neq, .notIn]) :
    IsImplied (compare engine operator value (.arr items))
      (compare engine operator value (.arr items')) := by
  cases operator
  case «in» => exact .of_imp fun h => any_of_subset hsub h
  case containsAny =>
    refine .of_imp fun h => ?_
    unfold containsAny at h ⊢
    split at h
    · rename_i members heq
      obtain ⟨rfl⟩ := heq
      exact any_of_subset hsub h
    · cases h
  all_goals first
    | exact absurd hpositive (by decide)
    | exact absurd (by decide) hrefused
    | cases value <;> exact .of_imp fun h => h

theorem compareOperands_left (hsub : items ⊆ items') {operator : Operator} {type : Option String}
    (hpositive : (GroupUse.left operator).isPositive = true)
    (hrefused : operator ∉ [Operator.neq, .notIn]) :
    IsImplied (compareOperands engine operator none type (.arr items) value)
      (compareOperands engine operator none type (.arr items') value) := by
  have htypes : ¬ ((none : Option String).isSome ∧ type.isSome ∧ none ≠ type) := by simp
  unfold compareOperands
  rw [if_neg htypes, if_neg htypes]
  by_cases htype : (none : Option String).or type = some "decimal"
  · rw [if_pos htype, if_pos htype]
    exact .of_imp (compareDecimalValues_left hsub hpositive hrefused)
  · rw [if_neg htype, if_neg htype]
    exact compare_left hsub hpositive hrefused

theorem compareOperands_right (hsub : items ⊆ items') {operator : Operator} {type : Option String}
    (hpositive : (GroupUse.right operator).isPositive = true)
    (hrefused : operator ∉ [Operator.neq, .notIn]) :
    IsImplied (compareOperands engine operator type none value (.arr items))
      (compareOperands engine operator type none value (.arr items')) := by
  simp only [compareOperands, Option.isSome_none, Bool.false_eq_true, false_and, and_false,
    if_false, Option.or_none]
  by_cases htype : type = some "decimal"
  · simp only [if_pos htype]
    exact .of_imp (compareDecimalValues_right hsub hpositive hrefused)
  · simp only [if_neg htype]
    exact compare_right hsub hpositive hrefused

/-! ### Operands and comparisons -/

/-- Both evaluations fail alike, or the second is at least as true. -/
def IsTruer (before after : Checked (Option Bool)) : Prop :=
  (∃ result result', before = .ok result ∧ after = .ok result' ∧ Kleene.Raises result result') ∨
    ∃ e, before = .error e ∧ after = .error e

theorem IsTruer.refl (result : Checked (Option Bool)) : IsTruer result result := by
  cases result with
  | ok result => exact .inl ⟨result, result, rfl, rfl, .refl result⟩
  | error e => exact .inr ⟨e, rfl, rfl⟩

theorem IsImplied.grows {before after : Checked Bool} (h : IsImplied before after) :
    IsTruer (some <$> before) (some <$> after) := by
  obtain ⟨b, b', rfl, rfl, himp⟩ := h
  refine .inl ⟨some b, some b', rfl, rfl, fun hb => ?_, fun hb => ?_⟩
  · rw [himp (Option.some.inj hb)]
  · obtain rfl := Option.some.inj hb
    exact congrArg some (Bool.eq_false_iff.mpr fun htrue => by simpa using himp htrue)

theorem conditionValue_withGroups {source : ConditionValue} (h : source.isGroupIdentity = false) :
    conditionValue (context.withGroups groups) source = conditionValue context source := by
  cases source with
  | currentUser userAttribute =>
    cases userAttribute with
    | none => rfl
    | some name =>
      have hname : name ∉ groupAttributes := by simpa [ConditionValue.isGroupIdentity] using h
      simp only [conditionValue, ActionConditionContext.currentUser, if_neg hname]
      rfl
  | literal value => rfl
  | parameter name => rfl
  | objectProperty name => rfl
  | linkedObjectProperty linkType direction propertyName aggregation => rfl

theorem conditionValue_of_isGroupIdentity {source : ConditionValue}
    (h : source.isGroupIdentity = true) :
    conditionValue context source = .ok ⟨some (.arr (context.actorGroups.map .str)), none⟩ := by
  cases source with
  | currentUser userAttribute =>
    cases userAttribute with
    | none => cases h
    | some name =>
      have hname : name ∈ groupAttributes := by simpa [ConditionValue.isGroupIdentity] using h
      have hid : name ≠ "id" := by
        rintro rfl
        exact absurd hname (by decide)
      simp only [conditionValue, ActionConditionContext.currentUser, if_neg hid, if_pos hname]
      rfl
  | literal value => cases h
  | parameter name => cases h
  | objectProperty name => cases h
  | linkedObjectProperty linkType direction propertyName aggregation => cases h

/-- The check refuses the negative operators where the groups are read. -/
theorem not_negative_of_validate {operator : Operator} {left right : ConditionValue}
    (h : validateComparison engine operator left right = .ok ()) :
    ¬ (operator ∈ [Operator.neq, .notIn] ∧
      (left.isGroupIdentity || right.isGroupIdentity) = true) := by
  unfold validateComparison at h
  split_ifs at h
  · obtain ⟨_, _, h⟩ := Except.bind_eq_ok_iff.mp h
    exact rejectIf_eq_ok_iff.mp h
  · exact rejectIf_eq_ok_iff.mp h

/-- A comparison that reads the groups in positive places only. -/
theorem evaluateComparison_grows (hsub : context.actorGroups ⊆ groups) {operator : Operator}
    {left right : ConditionValue} (hvalid : validateComparison engine operator left right = .ok ())
    (hpositive : ∀ use ∈ (ActionCondition.compare operator left right).groupUses,
      use.isPositive = true) :
    IsTruer (evaluateComparison engine context operator left right)
      (evaluateComparison engine (context.withGroups groups) operator left right) := by
  have hitems : context.actorGroups.map Json.str ⊆ groups.map Json.str := List.map_subset _ hsub
  have hrefused := not_negative_of_validate hvalid
  have hgroups : ∀ source : ConditionValue, source.isGroupIdentity = true →
      conditionValue (context.withGroups groups) source
        = .ok ⟨some (.arr (groups.map .str)), none⟩ :=
    fun source h => conditionValue_of_isGroupIdentity h
  by_cases hleft : left.isGroupIdentity = true
  · have hoperator : operator ∉ [Operator.neq, .notIn] :=
      fun hmem => hrefused ⟨hmem, by rw [hleft]; rfl⟩
    have hleftPositive : (GroupUse.left operator).isPositive = true :=
      hpositive _ (by simp [ActionCondition.groupUses, hleft])
    by_cases hright : right.isGroupIdentity = true
    · have hrightPositive : (GroupUse.right operator).isPositive = true :=
        hpositive _ (by simp [ActionCondition.groupUses, hright])
      rw [evaluateComparison_of_values (conditionValue_of_isGroupIdentity hleft)
          (conditionValue_of_isGroupIdentity hright),
        evaluateComparison_of_values (hgroups left hleft) (hgroups right hright)]
      exact ((compareOperands_left hitems hleftPositive hoperator).trans
        (compareOperands_right hitems hrightPositive hoperator)).grows
    · have hsame := @conditionValue_withGroups context groups right (Bool.eq_false_iff.mpr hright)
      cases hvalue : conditionValue context right with
      | error e =>
        refine .inr ⟨e, ?_, ?_⟩
        · rw [evaluateComparison, conditionValue_of_isGroupIdentity hleft, hvalue]
          rfl
        · rw [evaluateComparison, hgroups left hleft, hsame, hvalue]
          rfl
      | ok operand =>
        rw [evaluateComparison_of_values (conditionValue_of_isGroupIdentity hleft) hvalue,
          evaluateComparison_of_values (hgroups left hleft) (hsame.trans hvalue)]
        unfold compareWhenPresent
        cases operand.value with
        | none => exact .refl _
        | some value => exact (compareOperands_left hitems hleftPositive hoperator).grows
  · have hsame := @conditionValue_withGroups context groups left (Bool.eq_false_iff.mpr hleft)
    by_cases hright : right.isGroupIdentity = true
    · have hoperator : operator ∉ [Operator.neq, .notIn] :=
        fun hmem => hrefused ⟨hmem, by rw [hright, Bool.or_true]⟩
      have hrightPositive : (GroupUse.right operator).isPositive = true :=
        hpositive _ (by simp [ActionCondition.groupUses, hright])
      cases hvalue : conditionValue context left with
      | error e =>
        refine .inr ⟨e, ?_, ?_⟩
        · rw [evaluateComparison, hvalue]
          rfl
        · rw [evaluateComparison, hsame, hvalue]
          rfl
      | ok operand =>
        rw [evaluateComparison_of_values hvalue (conditionValue_of_isGroupIdentity hright),
          evaluateComparison_of_values (hsame.trans hvalue) (hgroups right hright)]
        unfold compareWhenPresent
        cases operand.value with
        | none => exact .refl _
        | some value => exact (compareOperands_right hitems hrightPositive hoperator).grows
    · rw [evaluateComparison, evaluateComparison, hsame,
        @conditionValue_withGroups context groups right (Bool.eq_false_iff.mpr hright)]
      exact .refl _

/-! ### Whole conditions -/

mutual

/-- A condition that does not read the groups does not depend on them. -/
theorem evaluate_withGroups : ∀ (condition : ActionCondition),
    condition.usesGroupIdentity = false →
      condition.evaluate engine (context.withGroups groups) = condition.evaluate engine context
  | .all children, h => by
    rw [ActionCondition.evaluate, ActionCondition.evaluate, evaluateChildren_withGroups children h]
  | .any children, h => by
    rw [ActionCondition.evaluate, ActionCondition.evaluate, evaluateChildren_withGroups children h]
  | .not child, h => by
    rw [ActionCondition.evaluate, ActionCondition.evaluate, evaluate_withGroups child h]
  | .exists left, h => by
    rw [ActionCondition.evaluate, ActionCondition.evaluate, conditionValue_withGroups h]
  | .compare operator left right, h => by
    obtain ⟨hleft, hright⟩ := Bool.or_eq_false_iff.mp h
    simp only [ActionCondition.evaluate, evaluateComparison, conditionValue_withGroups hleft,
      conditionValue_withGroups hright]

theorem evaluateChildren_withGroups : ∀ (children : List ActionCondition),
    anyUsesGroupIdentity children = false →
      evaluateChildren engine (context.withGroups groups) children
        = evaluateChildren engine context children
  | [], _ => rfl
  | child :: children, h => by
    obtain ⟨hchild, hchildren⟩ := Bool.or_eq_false_iff.mp h
    rw [evaluateChildren, evaluateChildren, evaluate_withGroups child hchild,
      evaluateChildren_withGroups children hchildren]

end

theorem IsTruer.connect {decisive : Bool} {before after : Checked (List (Option Bool))}
    (h : (∃ results results', before = .ok results ∧ after = .ok results' ∧
        List.Forall₂ Kleene.Raises results results') ∨ ∃ e, before = .error e ∧ after = .error e) :
    IsTruer (Kleene.connect decisive <$> before) (Kleene.connect decisive <$> after) := by
  rcases h with ⟨results, results', rfl, rfl, hraises⟩ | ⟨e, rfl, rfl⟩
  · exact .inl ⟨_, _, rfl, rfl, .connect hraises⟩
  · exact .inr ⟨e, rfl, rfl⟩

mutual

/-- **More groups make a condition truer** where it reads them in positive places only, by induction on
the condition. -/
theorem evaluate_grows (hsub : context.actorGroups ⊆ groups) : ∀ (condition : ActionCondition),
    condition.validate engine = .ok () → (∀ use ∈ condition.groupUses, use.isPositive = true) →
      IsTruer (condition.evaluate engine context)
        (condition.evaluate engine (context.withGroups groups))
  | .all children, hvalid, hpositive => by
    obtain ⟨_, _, hvalid⟩ := Except.bind_eq_ok_iff.mp hvalid
    exact .connect (evaluateChildren_grows hsub children hvalid hpositive)
  | .any children, hvalid, hpositive => by
    obtain ⟨_, _, hvalid⟩ := Except.bind_eq_ok_iff.mp hvalid
    exact .connect (evaluateChildren_grows hsub children hvalid hpositive)
  | .not child, hvalid, _ => by
    -- The check keeps the groups out of a negation.
    obtain ⟨_, hunused, _⟩ := Except.bind_eq_ok_iff.mp hvalid
    have hnone : child.usesGroupIdentity = false :=
      Bool.eq_false_iff.mpr (rejectIf_eq_ok_iff.mp hunused)
    rw [evaluate_withGroups (.not child) hnone]
    exact .refl _
  | .exists left, _, _ => by
    by_cases hleft : left.isGroupIdentity = true
    · have hgroups : conditionValue (context.withGroups groups) left
          = .ok ⟨some (.arr (groups.map .str)), none⟩ := conditionValue_of_isGroupIdentity hleft
      rw [ActionCondition.evaluate, ActionCondition.evaluate,
        conditionValue_of_isGroupIdentity hleft, hgroups]
      refine IsImplied.grows (@IsImplied.of_imp (hasValue (some (.arr (context.actorGroups.map .str))))
        (hasValue (some (.arr (groups.map .str)))) fun h => ?_)
      simp only [hasValue, ne_eq, List.map_eq_nil_iff, decide_not, Bool.not_eq_true',
        decide_eq_false_iff_not] at h ⊢
      rintro rfl
      exact h (List.subset_nil.mp hsub)
    · rw [evaluate_withGroups (.exists left) (Bool.eq_false_iff.mpr hleft)]
      exact .refl _
  | .compare operator left right, hvalid, hpositive =>
    evaluateComparison_grows hsub hvalid hpositive

theorem evaluateChildren_grows (hsub : context.actorGroups ⊆ groups) :
    ∀ (children : List ActionCondition), validateChildren engine children = .ok () →
      (∀ use ∈ childGroupUses children, use.isPositive = true) →
        (∃ results results', evaluateChildren engine context children = .ok results ∧
            evaluateChildren engine (context.withGroups groups) children = .ok results' ∧
            List.Forall₂ Kleene.Raises results results') ∨
          ∃ e, evaluateChildren engine context children = .error e ∧
            evaluateChildren engine (context.withGroups groups) children = .error e
  | [], _, _ => .inl ⟨[], [], rfl, rfl, .nil⟩
  | child :: children, hvalid, hpositive => by
    obtain ⟨_, hchild, hchildren⟩ := Except.bind_eq_ok_iff.mp hvalid
    have hgrows := evaluate_grows hsub child hchild
      fun use hmem => hpositive use (List.mem_append_left _ hmem)
    have hrest := evaluateChildren_grows hsub children hchildren
      fun use hmem => hpositive use (List.mem_append_right _ hmem)
    rw [evaluateChildren, evaluateChildren]
    rcases hgrows with ⟨result, result', hresult, hresult', hraises⟩ | ⟨e, herror, herror'⟩
    · rw [hresult, hresult']
      rcases hrest with ⟨results, results', hresults, hresults', hraises'⟩ | ⟨e, herror, herror'⟩
      · rw [hresults, hresults']
        exact .inl ⟨_, _, rfl, rfl, .cons hraises hraises'⟩
      · rw [herror, herror']
        exact .inr ⟨e, rfl, rfl⟩
    · rw [herror, herror']
      exact .inr ⟨e, rfl, rfl⟩

end

/-- An accepted condition with positive uses only is monotone. -/
theorem isMonotone_of_isPositive {condition : Mapping} {read : ActionCondition}
    (haccepted : acceptedCondition engine condition = .ok read)
    (hpositive : ∀ use ∈ read.groupUses, use.isPositive = true) : IsMonotone engine condition := by
  intro context groups hsub h
  obtain ⟨_, hread, h⟩ := Except.bind_eq_ok_iff.mp h
  obtain rfl := Except.ok.inj (haccepted.symm.trans hread)
  obtain ⟨result, hresult, htrue⟩ := Except.bind_eq_ok_iff.mp h
  obtain rfl : result = some true := by simpa using htrue
  refine Except.bind_eq_ok_iff.mpr ⟨read, haccepted, ?_⟩
  rcases evaluate_grows hsub read (validate_of_accepted haccepted) hpositive with
    ⟨before, after, hbefore, hafter, hraises⟩ | ⟨e, herror, -⟩
  · obtain rfl := Except.ok.inj (hresult.symm.trans hbefore)
    rw [hafter, hraises.1 rfl]
    rfl
  · rw [hresult] at herror
    cases herror

/-! ### Conditions that turn against the user -/

def groupsJson : Json := .obj [("kind", .str "currentUser"), ("attribute", .str "groups")]

/-- A comparison of the groups with a literal. -/
def groupsCompared (operator : String) (isLeft : Bool) (literal : Json) : Mapping :=
  [("op", .str operator), ("left", if isLeft then groupsJson else literalJson literal),
    ("right", if isLeft then literalJson literal else groupsJson)]

theorem not_isMonotone_of_turns {condition : Mapping}
    (h : evaluateActionCondition engine (contextOf []) condition = .ok true)
    (h' : evaluateActionCondition engine ((contextOf []).withGroups ["staff"]) condition
      = .ok false) : ¬ IsMonotone engine condition := by
  intro hmonotone
  have hafter := hmonotone (contextOf []) ["staff"] (List.nil_subset _) h
  exact absurd (h'.symm.trans hafter) (by simp)

/-- Every place that is not positive has a condition that a user without groups satisfies and a user
with one does not. -/
theorem exists_not_isMonotone (engine : RegexEngine) : ∀ use : GroupUse, use.isPositive = false →
    ∃ condition read, acceptedCondition engine condition = .ok read ∧ read.groupUses = [use] ∧
      ¬ IsMonotone engine condition := by
  intro use huse
  cases use with
  | «exists» => cases huse
  | left operator =>
    cases operator
    case eq =>
      exact ⟨groupsCompared "eq" true (.arr []), _, rfl, rfl, not_isMonotone_of_turns rfl rfl⟩
    case «in» =>
      exact ⟨groupsCompared "in" true (.arr [.arr []]), _, rfl, rfl,
        not_isMonotone_of_turns rfl rfl⟩
    case eachIs =>
      exact ⟨groupsCompared "eachIs" true (.str "admin"), _, rfl, rfl,
        not_isMonotone_of_turns rfl rfl⟩
    case eachIsNot =>
      exact ⟨groupsCompared "eachIsNot" true (.str "staff"), _, rfl, rfl,
        not_isMonotone_of_turns rfl rfl⟩
    all_goals exact absurd huse (by decide)
  | right operator =>
    cases operator
    case eq =>
      exact ⟨groupsCompared "eq" false (.arr []), _, rfl, rfl, not_isMonotone_of_turns rfl rfl⟩
    case «contains» =>
      exact ⟨groupsCompared "contains" false (.arr [.arr []]), _, rfl, rfl,
        not_isMonotone_of_turns rfl rfl⟩
    case eachIs =>
      exact ⟨groupsCompared "eachIs" false (.arr [.arr []]), _, rfl, rfl,
        not_isMonotone_of_turns rfl rfl⟩
    case eachIsNot =>
      exact ⟨groupsCompared "eachIsNot" false (.arr [.arr [.str "staff"]]), _, rfl, rfl,
        not_isMonotone_of_turns rfl rfl⟩
    all_goals exact absurd huse (by decide)

/-- **The accepted conditions that read the groups in given places only are all monotone exactly when
these places are positive.** -/
theorem isMonotone_iff_isPositive (engine : RegexEngine) (uses : Set GroupUse) :
    (∀ condition read, acceptedCondition engine condition = .ok read →
        (∀ use ∈ read.groupUses, use ∈ uses) → IsMonotone engine condition) ↔
      ∀ use ∈ uses, use.isPositive = true := by
  constructor
  · intro h use huse
    by_contra hpositive
    obtain ⟨condition, read, haccepted, huses, hturns⟩ :=
      exists_not_isMonotone engine use (Bool.eq_false_iff.mpr hpositive)
    refine hturns (h condition read haccepted fun other hother => ?_)
    rw [huses, List.mem_singleton] at hother
    exact hother ▸ huse
  · intro h condition read haccepted huses
    exact isMonotone_of_isPositive haccepted fun use hmem => h use (huses use hmem)

/-- **Whoever has no group has the right group only.** -/
theorem not_isMonotone_eachIs :
    validateActionCondition lenientEngine (groupsCompared "eachIs" true (.str "admin")) = .ok () ∧
      ¬ IsMonotone lenientEngine (groupsCompared "eachIs" true (.str "admin")) :=
  ⟨by decide +kernel, not_isMonotone_of_turns (by decide +kernel) (by decide +kernel)⟩

end Groups

end FoundryLite.Actions
