import FoundryLite.Actions.ActionRules
import FoundryLite.Actions.PlanManifest

/-!
# Building an edit plan

The builder goes through the rules of a definition in order and turns each into the edits of a plan.
Whatever needs data is asked of a context: the value of an expression, the object a target resolves
to with its version, a fresh id. An object that a rule creates is remembered under the id of the rule,
for the links of later rules.

The builder keeps the versions it read in one dictionary under the object id. The endpoints of a link
are resolved, so that an object that is not visible is refused, but no version of them is kept.

## Main results

* `buildEditPlan_linksResolve`: the links of an accepted definition never miss a created object.
* `readSet_of_buildEditPlan`: what the read set records of the modified and deleted objects.
-/

namespace FoundryLite.Actions

open ObjectStore Transaction

/-! ### The context -/

/-- An existing object, with the version it was read at. -/
structure ObjectRef where
  objectType : String
  objectId : String
  version : ℤ
  deriving DecidableEq

inductive LinkRole where
  | source
  | target

/-- Why a plan was not built: the context refused, or the builder did. -/
inductive PlanError (ε : Type) where
  | context (e : ε)
  | functionRule (ruleId : String)
  | emptyPrimaryKey (ruleId : String)
  | endpointNotCreated (ruleId : String)

/-- What is asked of the context, over its own state. -/
structure PlanResolutionContext (ε σ : Type) where
  evaluate : ValueExpression → Transaction ε σ Json
  resolveExistingObject : String → ValueExpression → Transaction ε σ ObjectRef
  resolveExistingObjectSet : String → ValueExpression → Transaction ε σ (List ObjectRef)
  resolveLinkEndpoint : String → LinkRole → ValueExpression → Transaction ε σ String
  resolveInterfaceLinkDeletes : List String → ValueExpression → ValueExpression →
    Transaction ε σ (List (String × String × String))
  generateObjectId : String → Transaction ε σ String
  operationKey : String → String → String

abbrev Planning (ε σ α : Type) := Transaction (PlanError ε) σ α

/-- A question to the context. -/
def ask {ε σ α : Type} (x : Transaction ε σ α) : Planning ε σ α := fun s =>
  (x s).mapError PlanError.context

/-! ### The builder -/

structure PlanAccumulator where
  creates : List RecordedCreate := []
  modifies : List RecordedModify := []
  deletes : List RecordedDelete := []
  linkCreates : List RecordedLink := []
  linkDeletes : List RecordedLink := []
  readVersions : Dict String ℤ := ∅
  createdIds : Dict String String := ∅

namespace PlanAccumulator

def recordRead (acc : PlanAccumulator) (ref : ObjectRef) : PlanAccumulator :=
  { acc with readVersions := acc.readVersions.insert ref.objectId ref.version }

def toPlan (acc : PlanAccumulator) : RecordedPlan where
  objectsToCreate := acc.creates
  objectsToModify := acc.modifies
  objectsToDelete := acc.deletes
  linksToCreate := acc.linkCreates
  linksToDelete := acc.linkDeletes
  readSetVersions := acc.readVersions

end PlanAccumulator

section Builder

variable {ε σ : Type} (env : Serialiser) (context : PlanResolutionContext ε σ)

/-- A later assignment of a property replaces an earlier one. -/
def resolvedProperties (assignments : List PropertyAssignment) : Planning ε σ PropertyMap := do
  let values ← assignments.mapM fun assignment => do
    return (assignment.property, ← ask (context.evaluate assignment.value))
  return Dict.ofList values.reverse

def allocateObjectId (rule : CreateObjectRule) : Planning ε σ String :=
  match rule.primaryKey with
  | none | some (.generatedId _) => ask (context.generateObjectId rule.ruleId)
  | some expression => do
    let resolved ← ask (context.evaluate expression)
    require (resolved ≠ .null ∧ env.str resolved ≠ "") (.emptyPrimaryKey rule.ruleId)
    return env.str resolved

def planCreate (rule : CreateObjectRule) (acc : PlanAccumulator) :
    Planning ε σ PlanAccumulator := do
  let objectId ← allocateObjectId env context rule
  let properties ← resolvedProperties context rule.assignments
  let create : RecordedCreate :=
    ⟨context.operationKey rule.ruleId objectId, rule.ruleId, rule.objectType, .str objectId,
      properties⟩
  return { acc with
    createdIds := acc.createdIds.insert rule.ruleId objectId
    creates := acc.creates ++ [create] }

def resolveTargets (objectType : String) (cardinality : RuleCardinality)
    (target : ValueExpression) : Planning ε σ (List ObjectRef) :=
  match cardinality with
  | .many => ask (context.resolveExistingObjectSet objectType target)
  | .one => do
    let ref ← ask (context.resolveExistingObject objectType target)
    return [ref]

def planModify (rule : ModifyObjectRule) (acc : PlanAccumulator) :
    Planning ε σ PlanAccumulator := do
  let patch ← resolvedProperties context rule.assignments
  let refs ← resolveTargets context rule.objectType rule.cardinality rule.target
  let modifies := refs.map fun ref : ObjectRef =>
    (⟨context.operationKey rule.ruleId ref.objectId, rule.ruleId, rule.objectType, ref.objectId,
      ref.version, patch, rule.shouldCreateIfAbsent⟩ : RecordedModify)
  let read := refs.foldl PlanAccumulator.recordRead acc
  return { read with modifies := read.modifies ++ modifies }

def planDelete (rule : DeleteObjectRule) (acc : PlanAccumulator) :
    Planning ε σ PlanAccumulator := do
  let refs ← resolveTargets context rule.objectType rule.cardinality rule.target
  let deletes := refs.map fun ref : ObjectRef =>
    (⟨context.operationKey rule.ruleId ref.objectId, rule.ruleId, rule.objectType, ref.objectId,
      ref.version⟩ : RecordedDelete)
  let read := refs.foldl PlanAccumulator.recordRead acc
  return { read with deletes := read.deletes ++ deletes }

def resolveEndpoint (linkType : String) (role : LinkRole) (expression : ValueExpression)
    (acc : PlanAccumulator) : Planning ε σ String :=
  match expression with
  | .priorRuleOutput ruleId _ =>
    requireSome (acc.createdIds.get? ruleId) (.endpointNotCreated ruleId)
  | expression => ask (context.resolveLinkEndpoint linkType role expression)

def resolvedLink (rule : LinkRule) (acc : PlanAccumulator) : Planning ε σ RecordedLink := do
  let source ← resolveEndpoint context rule.linkType .source rule.source acc
  let target ← resolveEndpoint context rule.linkType .target rule.target acc
  return ⟨context.operationKey rule.ruleId s!"{source}->{target}", rule.ruleId, rule.linkType,
    source, target⟩

def planInterfaceLinkDeletes (rule : ResolvedInterfaceLinkDeleteRule) (acc : PlanAccumulator) :
    Planning ε σ PlanAccumulator := do
  let endpoints ← ask
    (context.resolveInterfaceLinkDeletes rule.concreteLinkTypes rule.source rule.target)
  let links := endpoints.map fun endpoint : String × String × String =>
    let (linkType, source, target) := endpoint
    (⟨context.operationKey rule.ruleId s!"{linkType}:{source}->{target}", rule.ruleId, linkType,
      source, target⟩ : RecordedLink)
  return { acc with linkDeletes := acc.linkDeletes ++ links }

def applyRule (acc : PlanAccumulator) : ActionRule → Planning ε σ PlanAccumulator
  | .createObject rule => planCreate env context rule acc
  | .modifyObject rule => planModify context rule acc
  | .deleteObject rule => planDelete context rule acc
  | .createLink rule => do
    let link ← resolvedLink context rule acc
    return { acc with linkCreates := acc.linkCreates ++ [link] }
  | .deleteLink rule => do
    let link ← resolvedLink context rule acc
    return { acc with linkDeletes := acc.linkDeletes ++ [link] }
  | .deleteInterfaceLinks rule => planInterfaceLinkDeletes context rule acc
  | .functionEdit rule => throw (.functionRule rule.ruleId)

def applyRules (acc : PlanAccumulator) : List ActionRule → Planning ε σ PlanAccumulator
  | [] => pure acc
  | rule :: rules => do
    let acc ← applyRule env context acc rule
    applyRules acc rules

def buildEditPlan (definition : ActionDefinition) : Planning ε σ RecordedPlan := do
  let acc ← applyRules env context {} definition.rules
  return acc.toPlan

end Builder

/-! ### What a rule adds -/

section Rules

variable {ε σ : Type} {env : Serialiser} {context : PlanResolutionContext ε σ}
  {acc acc' : PlanAccumulator} {rule : ActionRule} {s s' : σ}

/-- A list with more of a kind behind it. -/
def Grows {α : Type} (P : α → Prop) (l l' : List α) : Prop := ∃ new, l' = l ++ new ∧ ∀ a ∈ new, P a

theorem Grows.refl {α : Type} {P : α → Prop} (l : List α) : Grows P l l :=
  ⟨[], (List.append_nil l).symm, fun _ ha => absurd ha List.not_mem_nil⟩

theorem Grows.concat {α : Type} {P : α → Prop} {l : List α} {a : α} (h : P a) :
    Grows P l (l ++ [a]) := ⟨[a], rfl, fun b hb => by rwa [List.mem_singleton.mp hb]⟩

/-- **What a rule adds** to what was built before it. -/
structure Extends (rule : ActionRule) (acc acc' : PlanAccumulator) : Prop where
  linkCreates : Grows (fun link => link.ruleId = rule.ruleId) acc.linkCreates acc'.linkCreates
  linkDeletes : Grows (fun link => link.ruleId = rule.ruleId) acc.linkDeletes acc'.linkDeletes
  /-- The created object is remembered under the id of its rule. -/
  created : (acc'.creates = acc.creates ∧ acc'.createdIds = acc.createdIds ∧
      rule.createdId? = none) ∨
    ∃ create objectId, acc'.creates = acc.creates ++ [create] ∧
      acc'.createdIds = acc.createdIds.insert create.ruleId objectId ∧
      rule.createdId? = some create.ruleId ∧ create.primaryKey = .str objectId

theorem foldl_recordRead_eq (refs : List ObjectRef) (acc : PlanAccumulator) :
    refs.foldl PlanAccumulator.recordRead acc = { acc with
      readVersions := refs.foldl (fun d ref => d.insert ref.objectId ref.version)
        acc.readVersions } := by
  induction refs generalizing acc with
  | nil => rfl
  | cons ref refs ih =>
    rw [List.foldl_cons, ih]
    rfl

theorem planCreate_eq_ok {rule : CreateObjectRule}
    (h : planCreate env context rule acc s = .ok (acc', s')) :
    ∃ create objectId, create.ruleId = rule.ruleId ∧ create.primaryKey = .str objectId ∧
      acc' = { acc with
        createdIds := acc.createdIds.insert rule.ruleId objectId
        creates := acc.creates ++ [create] } := by
  simp only [planCreate, bind_eq_ok_iff, pure_eq_ok_iff] at h
  obtain ⟨objectId, s₁, -, properties, s₂, -, heq⟩ := h
  obtain ⟨rfl, -⟩ := Prod.mk.inj heq
  exact ⟨_, objectId, rfl, rfl, rfl⟩

theorem planModify_eq_ok {rule : ModifyObjectRule}
    (h : planModify context rule acc s = .ok (acc', s')) :
    ∃ patch refs s₁ s₂, resolveTargets context rule.objectType rule.cardinality rule.target s₁
        = .ok (refs, s₂) ∧
      acc' = { acc with
        modifies := acc.modifies ++ refs.map fun ref =>
          ⟨context.operationKey rule.ruleId ref.objectId, rule.ruleId, rule.objectType,
            ref.objectId, ref.version, patch, rule.shouldCreateIfAbsent⟩
        readVersions := refs.foldl (fun d ref => d.insert ref.objectId ref.version)
          acc.readVersions } := by
  simp only [planModify, bind_eq_ok_iff, pure_eq_ok_iff] at h
  obtain ⟨patch, s₁, -, refs, s₂, hrefs, heq⟩ := h
  obtain ⟨rfl, -⟩ := Prod.mk.inj heq
  refine ⟨patch, refs, s₁, s₂, hrefs, ?_⟩
  rw [foldl_recordRead_eq]

theorem planDelete_eq_ok {rule : DeleteObjectRule}
    (h : planDelete context rule acc s = .ok (acc', s')) :
    ∃ refs s₁ s₂, resolveTargets context rule.objectType rule.cardinality rule.target s₁
        = .ok (refs, s₂) ∧
      acc' = { acc with
        deletes := acc.deletes ++ refs.map fun ref =>
          ⟨context.operationKey rule.ruleId ref.objectId, rule.ruleId, rule.objectType,
            ref.objectId, ref.version⟩
        readVersions := refs.foldl (fun d ref => d.insert ref.objectId ref.version)
          acc.readVersions } := by
  simp only [planDelete, bind_eq_ok_iff, pure_eq_ok_iff] at h
  obtain ⟨refs, s₁, hrefs, heq⟩ := h
  obtain ⟨rfl, -⟩ := Prod.mk.inj heq
  refine ⟨refs, _, s₁, hrefs, ?_⟩
  rw [foldl_recordRead_eq]

/-- Where the object id of an endpoint comes from. -/
def EndpointFrom (createdIds : Dict String String) (expression : ValueExpression)
    (objectId : String) : Prop :=
  ∀ ruleId ∈ expression.priorRule?, createdIds.get? ruleId = some objectId

theorem endpointFrom_of_resolveEndpoint {linkType objectId : String} {role : LinkRole}
    {expression : ValueExpression}
    (h : resolveEndpoint context linkType role expression acc s = .ok (objectId, s')) :
    EndpointFrom acc.createdIds expression objectId := by
  intro ruleId hruleId
  cases expression <;> try cases hruleId
  obtain ⟨created, hget, heq⟩ := requireSome_eq_ok_iff.mp h
  rw [hget, (Prod.mk.inj heq).1]

theorem resolvedLink_eq_ok {rule : LinkRule} {link : RecordedLink}
    (h : resolvedLink context rule acc s = .ok (link, s')) :
    link.ruleId = rule.ruleId ∧ link.linkType = rule.linkType ∧
      EndpointFrom acc.createdIds rule.source link.sourceObjectId ∧
      EndpointFrom acc.createdIds rule.target link.targetObjectId := by
  simp only [resolvedLink, bind_eq_ok_iff, pure_eq_ok_iff] at h
  obtain ⟨source, s₁, hsource, target, s₂, htarget, heq⟩ := h
  obtain ⟨rfl, -⟩ := Prod.mk.inj heq
  exact ⟨rfl, rfl, endpointFrom_of_resolveEndpoint hsource, endpointFrom_of_resolveEndpoint htarget⟩

theorem planInterfaceLinkDeletes_eq_ok {rule : ResolvedInterfaceLinkDeleteRule}
    (h : planInterfaceLinkDeletes context rule acc s = .ok (acc', s')) :
    ∃ new : List RecordedLink, (∀ link ∈ new, link.ruleId = rule.ruleId) ∧
      acc' = { acc with linkDeletes := acc.linkDeletes ++ new } := by
  simp only [planInterfaceLinkDeletes, bind_eq_ok_iff, pure_eq_ok_iff] at h
  obtain ⟨endpoints, s₁, -, heq⟩ := h
  obtain ⟨rfl, -⟩ := Prod.mk.inj heq
  refine ⟨_, fun link hlink => ?_, rfl⟩
  obtain ⟨endpoint, -, rfl⟩ := List.mem_map.mp hlink
  rfl

/-- **One rule.** -/
theorem extends_of_applyRule (h : applyRule env context acc rule s = .ok (acc', s')) :
    Extends rule acc acc' := by
  cases rule with
  | createObject rule =>
    obtain ⟨create, objectId, hid, hkey, rfl⟩ := planCreate_eq_ok h
    refine ⟨.refl _, .refl _, .inr ⟨create, objectId, rfl, ?_, ?_, hkey⟩⟩
    · rw [hid]
    · rw [hid]
      rfl
  | modifyObject rule =>
    obtain ⟨_, _, _, _, -, rfl⟩ := planModify_eq_ok h
    exact ⟨.refl _, .refl _, .inl ⟨rfl, rfl, rfl⟩⟩
  | deleteObject rule =>
    obtain ⟨_, _, _, -, rfl⟩ := planDelete_eq_ok h
    exact ⟨.refl _, .refl _, .inl ⟨rfl, rfl, rfl⟩⟩
  | createLink rule =>
    obtain ⟨link, s₁, hlink, heq⟩ := bind_eq_ok_iff.mp h
    obtain ⟨rfl, -⟩ := Prod.mk.inj (pure_eq_ok_iff.mp heq)
    exact ⟨.concat (resolvedLink_eq_ok hlink).1, .refl _, .inl ⟨rfl, rfl, rfl⟩⟩
  | deleteLink rule =>
    obtain ⟨link, s₁, hlink, heq⟩ := bind_eq_ok_iff.mp h
    obtain ⟨rfl, -⟩ := Prod.mk.inj (pure_eq_ok_iff.mp heq)
    exact ⟨.refl _, .concat (resolvedLink_eq_ok hlink).1, .inl ⟨rfl, rfl, rfl⟩⟩
  | deleteInterfaceLinks rule =>
    obtain ⟨new, hnew, rfl⟩ := planInterfaceLinkDeletes_eq_ok h
    exact ⟨.refl _, ⟨new, rfl, hnew⟩, .inl ⟨rfl, rfl, rfl⟩⟩
  | functionEdit rule => exact (throw_eq_ok_iff.mp h).elim

/-! ### What is remembered -/

/-- What is remembered are the objects created. -/
structure Remembers (rules : List ActionRule) (acc : PlanAccumulator) : Prop where
  ids : acc.creates.map RecordedCreate.ruleId = rules.filterMap ActionRule.createdId?
  created : ∀ ruleId objectId, acc.createdIds.get? ruleId = some objectId →
    ∃ create ∈ acc.creates, create.ruleId = ruleId ∧ create.primaryKey = .str objectId
  known : ∀ create ∈ acc.creates, (acc.createdIds.get? create.ruleId).isSome

theorem Remembers.start : Remembers [] {} where
  ids := rfl
  created _ _ h := by cases h
  known _ h := absurd h List.not_mem_nil

theorem Remembers.concat {rules : List ActionRule} (h : Remembers rules acc)
    (hrule : Extends rule acc acc') : Remembers (rules ++ [rule]) acc' := by
  rcases hrule.created with ⟨hcreates, hids, hnone⟩ |
    ⟨create, objectId, hcreates, hids, hsome, hkey⟩
  · constructor
    · rw [hcreates, h.ids, List.filterMap_append]
      simp [hnone]
    · rw [hcreates, hids]
      exact h.created
    · rw [hcreates, hids]
      exact h.known
  · constructor
    · rw [hcreates, List.map_append, h.ids, List.filterMap_append]
      simp [hsome]
    · intro ruleId id hget
      rw [hids, Dict.get?_insert] at hget
      rw [hcreates]
      split_ifs at hget with hself
      · obtain rfl := Option.some.inj hget
        exact ⟨create, List.mem_append_right _ List.mem_cons_self, hself.symm, hkey⟩
      · obtain ⟨old, hold, hrest⟩ := h.created ruleId id hget
        exact ⟨old, List.mem_append_left _ hold, hrest⟩
    · intro other hother
      rw [hids, Dict.get?_insert]
      split_ifs with hself
      · rfl
      · rw [hcreates, List.mem_append, List.mem_singleton] at hother
        rcases hother with hold | rfl
        · exact h.known other hold
        · exact absurd rfl hself

theorem applyRules_append_eq_ok_iff {before after : List ActionRule} {r : PlanAccumulator × σ} :
    applyRules env context acc (before ++ after) s = .ok r ↔
      ∃ acc₁ s₁, applyRules env context acc before s = .ok (acc₁, s₁) ∧
        applyRules env context acc₁ after s₁ = .ok r := by
  induction before generalizing acc s with
  | nil => simp [applyRules]
  | cons rule before ih =>
    simp only [List.cons_append, applyRules, bind_eq_ok_iff, ih]
    constructor
    · rintro ⟨acc₁, s₁, h₁, acc₂, s₂, h₂, h₃⟩
      exact ⟨acc₂, s₂, ⟨acc₁, s₁, h₁, h₂⟩, h₃⟩
    · rintro ⟨acc₂, s₂, ⟨acc₁, s₁, h₁, h₂⟩, h₃⟩
      exact ⟨acc₁, s₁, h₁, acc₂, s₂, h₂, h₃⟩

theorem remembers_of_applyRules {rules later : List ActionRule} (h : Remembers rules acc)
    (hlater : applyRules env context acc later s = .ok (acc', s')) :
    Remembers (rules ++ later) acc' := by
  induction later generalizing rules acc s with
  | nil =>
    obtain ⟨rfl, -⟩ := Prod.mk.inj (pure_eq_ok_iff.mp hlater)
    rwa [List.append_nil]
  | cons rule later ih =>
    obtain ⟨acc₁, s₁, hrule, hrest⟩ := bind_eq_ok_iff.mp hlater
    have hall := ih (h.concat (extends_of_applyRule hrule)) hrest
    rwa [List.append_assoc] at hall

/-- What is built is kept. -/
theorem prefix_of_applyRules {later : List ActionRule}
    (h : applyRules env context acc later s = .ok (acc', s')) :
    acc.creates <+: acc'.creates ∧
      Grows (fun link => ∃ rule ∈ later, link.ruleId = rule.ruleId) acc.linkCreates
        acc'.linkCreates ∧
      Grows (fun link => ∃ rule ∈ later, link.ruleId = rule.ruleId) acc.linkDeletes
        acc'.linkDeletes := by
  induction later generalizing acc s with
  | nil =>
    obtain ⟨rfl, -⟩ := Prod.mk.inj (pure_eq_ok_iff.mp h)
    exact ⟨List.prefix_rfl, .refl _, .refl _⟩
  | cons rule later ih =>
    obtain ⟨acc₁, s₁, hrule, hrest⟩ := bind_eq_ok_iff.mp h
    obtain ⟨hcreates, ⟨created, hcreated, hlater⟩, deleted, hdeleted, hlater'⟩ := ih hrest
    have hstep := extends_of_applyRule hrule
    obtain ⟨new, hnew, hall⟩ := hstep.linkCreates
    obtain ⟨new', hnew', hall'⟩ := hstep.linkDeletes
    have hmem : ∀ {link : RecordedLink} {l m : List RecordedLink},
        (∀ a ∈ l, a.ruleId = rule.ruleId) → (∀ a ∈ m, ∃ r ∈ later, a.ruleId = r.ruleId) →
        link ∈ l ++ m → ∃ r ∈ rule :: later, link.ruleId = r.ruleId := by
      intro link l m hl hm hlink
      rcases List.mem_append.mp hlink with hlink | hlink
      · exact ⟨rule, List.mem_cons_self, hl link hlink⟩
      · obtain ⟨r, hr, hid⟩ := hm link hlink
        exact ⟨r, List.mem_cons_of_mem _ hr, hid⟩
    refine ⟨?_, ⟨new ++ created, ?_, fun _ => hmem hall hlater⟩,
      ⟨new' ++ deleted, ?_, fun _ => hmem hall' hlater'⟩⟩
    · rcases hstep.created with ⟨heq, -, -⟩ | ⟨create, objectId, heq, -, -, -⟩
      · rwa [heq] at hcreates
      · rw [heq] at hcreates
        exact (List.prefix_append _ _).trans hcreates
    · rw [hcreated, hnew, List.append_assoc]
    · rw [hdeleted, hnew', List.append_assoc]

/-! ### The endpoints of links -/

/-- The builder does not fail for want of a created object. -/
def PlanError.IsElsewhere (e : PlanError ε) : Prop := ∀ ruleId, e ≠ .endpointNotCreated ruleId

theorem refusedOnly_ask {α : Type} (x : Transaction ε σ α) :
    RefusedOnly PlanError.IsElsewhere (ask x) := by
  intro s e h ruleId
  rw [ask] at h
  cases hx : x s with
  | ok r =>
    rw [hx] at h
    cases h
  | error e' =>
    rw [hx] at h
    cases h
    simp

theorem refusedOnly_resolvedProperties (assignments : List PropertyAssignment) :
    RefusedOnly PlanError.IsElsewhere (resolvedProperties context assignments) :=
  (RefusedOnly.mapM (fun _ => (refusedOnly_ask _).bind fun _ => .pure _) _).bind fun _ => .pure _

theorem refusedOnly_resolveTargets (objectType : String) (cardinality : RuleCardinality)
    (target : ValueExpression) :
    RefusedOnly PlanError.IsElsewhere (resolveTargets context objectType cardinality target) := by
  cases cardinality with
  | one => exact (refusedOnly_ask _).bind fun _ => .pure _
  | many => exact refusedOnly_ask _

theorem refusedOnly_allocateObjectId (rule : CreateObjectRule) :
    RefusedOnly PlanError.IsElsewhere (allocateObjectId env context rule) := by
  rw [allocateObjectId]
  split
  · exact refusedOnly_ask _
  · exact refusedOnly_ask _
  · refine (refusedOnly_ask _).bind fun _ => RefusedOnly.bind (.require ?_) fun _ => .pure _
    simp [PlanError.IsElsewhere]

/-- An endpoint is missing only where nothing is remembered under its rule. -/
theorem isElsewhere_of_resolveEndpoint {linkType : String} {role : LinkRole}
    {expression : ValueExpression} {e : PlanError ε}
    (hknown : ∀ ruleId ∈ expression.priorRule?, (acc.createdIds.get? ruleId).isSome)
    (h : resolveEndpoint context linkType role expression acc s = .error e) : e.IsElsewhere := by
  cases hexpression : expression.priorRule? with
  | none =>
    cases expression <;> first | exact refusedOnly_ask _ s e h | cases hexpression
  | some ruleId =>
    cases expression <;> cases hexpression
    obtain ⟨objectId, hget⟩ := Option.isSome_iff_exists.mp (hknown ruleId rfl)
    rw [resolveEndpoint, hget] at h
    cases h

theorem isElsewhere_of_resolvedLink {rule : LinkRule} {e : PlanError ε}
    (hknown : ∀ ruleId ∈ [rule.source, rule.target].filterMap ValueExpression.priorRule?,
      (acc.createdIds.get? ruleId).isSome)
    (h : resolvedLink context rule acc s = .error e) : e.IsElsewhere := by
  have hside : ∀ expression ∈ [rule.source, rule.target], ∀ ruleId ∈ expression.priorRule?,
      (acc.createdIds.get? ruleId).isSome := fun expression hmem ruleId hrule =>
    hknown ruleId (List.mem_filterMap.mpr ⟨expression, hmem, hrule⟩)
  rcases bind_eq_error_iff.mp h with hsource | ⟨source, s₁, -, h⟩
  · exact isElsewhere_of_resolveEndpoint (hside _ (by simp)) hsource
  · rcases bind_eq_error_iff.mp h with htarget | ⟨target, s₂, -, h⟩
    · exact isElsewhere_of_resolveEndpoint (hside _ (by simp)) htarget
    · cases h

/-- **One rule whose references are remembered.** -/
theorem isElsewhere_of_applyRule {e : PlanError ε}
    (hknown : ∀ ruleId ∈ rule.referencedPriorRuleIds, (acc.createdIds.get? ruleId).isSome)
    (h : applyRule env context acc rule s = .error e) : e.IsElsewhere := by
  cases rule with
  | createObject rule =>
    exact ((refusedOnly_allocateObjectId rule).bind fun _ =>
      (refusedOnly_resolvedProperties _).bind fun _ => .pure _) s e h
  | modifyObject rule =>
    exact ((refusedOnly_resolvedProperties _).bind fun _ =>
      (refusedOnly_resolveTargets _ _ _).bind fun _ => .pure _) s e h
  | deleteObject rule =>
    exact ((refusedOnly_resolveTargets _ _ _).bind fun _ => .pure _) s e h
  | createLink rule =>
    rcases bind_eq_error_iff.mp h with hlink | ⟨link, s₁, -, h⟩
    · exact isElsewhere_of_resolvedLink hknown hlink
    · cases h
  | deleteLink rule =>
    rcases bind_eq_error_iff.mp h with hlink | ⟨link, s₁, -, h⟩
    · exact isElsewhere_of_resolvedLink hknown hlink
    · cases h
  | deleteInterfaceLinks rule =>
    exact ((refusedOnly_ask _).bind fun _ => .pure _) s e h
  | functionEdit rule =>
    cases h
    simp [PlanError.IsElsewhere]

/-- A run over the rules that fails does so at one of them. -/
theorem exists_of_applyRules_eq_error {rules : List ActionRule} {e : PlanError ε}
    (h : applyRules env context acc rules s = .error e) :
    ∃ before rule after acc₁ s₁, rules = before ++ rule :: after ∧
      applyRules env context acc before s = .ok (acc₁, s₁) ∧
      applyRule env context acc₁ rule s₁ = .error e := by
  induction rules generalizing acc s with
  | nil => cases h
  | cons rule rules ih =>
    rcases bind_eq_error_iff.mp h with hrule | ⟨acc₁, s₁, hrule, hrest⟩
    · exact ⟨[], rule, rules, acc, s, rfl, rfl, hrule⟩
    · obtain ⟨before, failing, after, acc₂, s₂, rfl, hbefore, hfails⟩ := ih hrest
      exact ⟨rule :: before, failing, after, acc₂, s₂, rfl,
        bind_eq_ok_iff.mpr ⟨acc₁, s₁, hrule, hbefore⟩, hfails⟩

/-- What a rule of an accepted definition refers to is remembered when its turn comes. -/
theorem known_of_validate {definition : ActionDefinition}
    (hvalid : validateActionDefinition definition = .ok ()) {before after : List ActionRule}
    (hrules : definition.rules = before ++ rule :: after)
    (hbefore : applyRules env context {} before s = .ok (acc, s')) {ruleId : String}
    (hrule : ruleId ∈ rule.referencedPriorRuleIds) : (acc.createdIds.get? ruleId).isSome := by
  have hremembers := remembers_of_applyRules .start hbefore
  have hmem := createdBefore_of_validate hvalid hrules hrule
  rw [List.nil_append] at hremembers
  rw [← hremembers.ids] at hmem
  obtain ⟨create, hcreate, rfl⟩ := List.mem_map.mp hmem
  exact hremembers.known create hcreate

/-- An endpoint that reads the output of a rule is the object that this rule, an earlier one, created:
the plan creates no other object under the id of that rule. -/
def EndpointResolved (before : List ActionRule) (plan : RecordedPlan)
    (expression : ValueExpression) (objectId : String) : Prop :=
  ∀ ruleId ∈ expression.priorRule?, ruleId ∈ before.filterMap ActionRule.createdId? ∧
    ∃ create ∈ plan.objectsToCreate, create.ruleId = ruleId ∧ create.primaryKey = .str objectId ∧
      ∀ other ∈ plan.objectsToCreate, other.ruleId = ruleId → other = create

theorem endpointResolved_of_endpointFrom {definition : ActionDefinition}
    (hvalid : validateActionDefinition definition = .ok ()) {before after : List ActionRule}
    (hrules : definition.rules = before ++ rule :: after) {s₁ : σ}
    (hbefore : applyRules env context {} before s = .ok (acc, s₁))
    (hall : applyRules env context acc (rule :: after) s₁ = .ok (acc', s'))
    {expression : ValueExpression} {objectId : String}
    (hexpression : ∀ ruleId ∈ expression.priorRule?, ruleId ∈ rule.referencedPriorRuleIds)
    (hfrom : EndpointFrom acc.createdIds expression objectId) :
    EndpointResolved before acc'.toPlan expression objectId := by
  intro ruleId hrule
  have hremembers := remembers_of_applyRules .start hbefore
  rw [List.nil_append] at hremembers
  obtain ⟨create, hcreate, hid, hkey⟩ := hremembers.created ruleId objectId (hfrom ruleId hrule)
  have hinitial := (prefix_of_applyRules hall).1
  have hids := (remembers_of_applyRules hremembers hall).ids
  have hnodup : (acc'.creates.map RecordedCreate.ruleId).Nodup := by
    rw [hids, ← hrules]
    refine (nodup_ruleId_of_validate hvalid).sublist ?_
    have hsome : ∀ r : ActionRule, r.createdId? = some r.ruleId ∨ r.createdId? = none := by
      intro r
      cases r <;> simp [ActionRule.createdId?, ActionRule.ruleId]
    clear * - hsome
    induction definition.rules with
    | nil => exact .slnil
    | cons r rules ih =>
      rcases hsome r with hr | hr
      · rw [List.filterMap_cons_some hr]
        exact ih.cons_cons _
      · rw [List.filterMap_cons_none hr]
        exact ih.cons _
  refine ⟨createdBefore_of_validate hvalid hrules (hexpression ruleId hrule), create,
    hinitial.subset hcreate, hid, hkey, fun other hother hsame => ?_⟩
  exact List.inj_on_of_nodup_map hnodup hother (hinitial.subset hcreate) (hsame.trans hid.symm)

/-- What the link of one rule is, in the plan of all. -/
theorem links_of_applyRule {link : LinkRule} (hlink : rule.link? = some link)
    (h : applyRule env context acc rule s = .ok (acc', s')) :
    ∃ made, Extends rule acc acc' ∧ made ∈ acc'.linkCreates ++ acc'.linkDeletes ∧
      made.ruleId = link.ruleId ∧ EndpointFrom acc.createdIds link.source made.sourceObjectId ∧
      EndpointFrom acc.createdIds link.target made.targetObjectId ∧
      ∀ other ∈ acc'.linkCreates ++ acc'.linkDeletes,
        other ∈ acc.linkCreates ++ acc.linkDeletes ∨ other = made := by
  have hstep := extends_of_applyRule h
  cases rule <;> cases hlink
  all_goals
    obtain ⟨made, s₁, hmade, heq⟩ := bind_eq_ok_iff.mp h
    obtain ⟨rfl, -⟩ := Prod.mk.inj (pure_eq_ok_iff.mp heq)
    obtain ⟨hid, -, hsource, htarget⟩ := resolvedLink_eq_ok hmade
    refine ⟨made, hstep, by simp, hid, hsource, htarget, fun other hother => ?_⟩
    simp only [List.mem_append, List.mem_singleton] at hother ⊢
    tauto

theorem mem_ruleId_of_mem_links {rules : List ActionRule} {link : RecordedLink}
    (h : applyRules env context {} rules s = .ok (acc, s'))
    (hlink : link ∈ acc.linkCreates ++ acc.linkDeletes) :
    link.ruleId ∈ rules.map ActionRule.ruleId := by
  obtain ⟨-, ⟨created, hcreated, hids⟩, deleted, hdeleted, hids'⟩ := prefix_of_applyRules h
  change acc.linkCreates = [] ++ created at hcreated
  change acc.linkDeletes = [] ++ deleted at hdeleted
  rw [hcreated, hdeleted, List.nil_append, List.nil_append, List.mem_append] at hlink
  obtain ⟨rule, hrule, hid⟩ := hlink.elim (hids link) (hids' link)
  exact hid ▸ List.mem_map_of_mem hrule

/-- **The links of an accepted definition never miss a created object**, and an endpoint that reads
the output of a rule is the object that this rule created in the same plan. -/
theorem buildEditPlan_linksResolve {definition : ActionDefinition}
    (hvalid : validateActionDefinition definition = .ok ()) (s : σ) :
    (∀ e, buildEditPlan env context definition s = .error e → e.IsElsewhere) ∧
      ∀ plan s', buildEditPlan env context definition s = .ok (plan, s') →
        ∀ before rule after link, definition.rules = before ++ rule :: after →
          rule.link? = some link →
            (∃ made ∈ plan.linksToCreate ++ plan.linksToDelete, made.ruleId = link.ruleId) ∧
            ∀ made ∈ plan.linksToCreate ++ plan.linksToDelete, made.ruleId = link.ruleId →
              EndpointResolved before plan link.source made.sourceObjectId ∧
                EndpointResolved before plan link.target made.targetObjectId := by
  constructor
  · intro e h
    rcases bind_eq_error_iff.mp h with hrules | ⟨acc, s₁, -, h⟩
    · obtain ⟨before, rule, after, acc₁, s₁, hsplit, hbefore, hfails⟩ :=
        exists_of_applyRules_eq_error hrules
      exact isElsewhere_of_applyRule (fun ruleId hrule =>
        known_of_validate hvalid hsplit hbefore hrule) hfails
    · cases h
  · intro plan s' h before rule after link hsplit hlink
    obtain ⟨acc', s₁, hrules, heq⟩ := bind_eq_ok_iff.mp h
    obtain ⟨rfl, -⟩ := Prod.mk.inj (pure_eq_ok_iff.mp heq)
    have hnodup := nodup_ruleId_of_validate hvalid
    rw [hsplit, List.map_append, List.map_cons] at hnodup
    rw [hsplit] at hrules
    obtain ⟨acc, s₂, hbefore, hall⟩ := applyRules_append_eq_ok_iff.mp hrules
    obtain ⟨acc₁, s₃, hrule, hafter⟩ := bind_eq_ok_iff.mp hall
    obtain ⟨made, hstep, hmade, hid, hsource, htarget, honly⟩ := links_of_applyRule hlink hrule
    have hruleId : link.ruleId = rule.ruleId := by
      cases rule <;> cases hlink <;> rfl
    have hrefs : ∀ expression ∈ [link.source, link.target], ∀ ruleId ∈ expression.priorRule?,
        ruleId ∈ rule.referencedPriorRuleIds := by
      intro expression hmem ruleId hprior
      cases rule <;> cases hlink
      all_goals exact List.mem_filterMap.mpr ⟨expression, hmem, hprior⟩
    obtain ⟨-, ⟨created, hcreated, hids⟩, deleted, hdeleted, hids'⟩ := prefix_of_applyRules hafter
    refine ⟨⟨made, ?_, hid⟩, fun other hother hsame => ?_⟩
    · change made ∈ acc'.linkCreates ++ acc'.linkDeletes
      rw [hcreated, hdeleted]
      simp only [List.mem_append] at hmade ⊢
      tauto
    -- A link of that rule id comes from no other rule.
    · obtain ⟨hbeforeIds, hafterIds⟩ := List.nodup_middle.mp hnodup |> List.nodup_cons.mp
      rw [List.mem_append, not_or] at hbeforeIds
      have hself : other = made := by
        change other ∈ acc'.linkCreates ++ acc'.linkDeletes at hother
        rw [hcreated, hdeleted] at hother
        have hcases : other ∈ acc₁.linkCreates ++ acc₁.linkDeletes ∨ other ∈ created ∨
            other ∈ deleted := by
          simp only [List.mem_append] at hother ⊢
          tauto
        have hlater : ∀ r ∈ after, other.ruleId ≠ r.ruleId := fun r hr hsameId =>
          hbeforeIds.2 (hruleId ▸ hsame ▸ hsameId ▸ List.mem_map_of_mem hr)
        rcases hcases with hfirst | hlast | hlast
        · rcases honly other hfirst with hold | rfl
          · exact absurd (hruleId ▸ hsame ▸ mem_ruleId_of_mem_links hbefore hold) hbeforeIds.1
          · rfl
        · obtain ⟨r, hr, hsameId⟩ := hids other hlast
          exact absurd hsameId (hlater r hr)
        · obtain ⟨r, hr, hsameId⟩ := hids' other hlast
          exact absurd hsameId (hlater r hr)
      subst hself
      exact ⟨endpointResolved_of_endpointFrom hvalid hsplit hbefore hall (hrefs _ (by simp)) hsource,
        endpointResolved_of_endpointFrom hvalid hsplit hbefore hall (hrefs _ (by simp)) htarget⟩

/-! ### The read set -/

/-- The objects that are modified or deleted, with the versions they are expected at. -/
def PlanAccumulator.targets (acc : PlanAccumulator) : List ObjectRef :=
  acc.modifies.map (fun edit => ⟨edit.objectType, edit.objectId, edit.expectedVersion⟩) ++
    acc.deletes.map fun edit => ⟨edit.objectType, edit.objectId, edit.expectedVersion⟩

/-- The objects that a plan modifies or deletes. -/
def RecordedPlan.targets (plan : RecordedPlan) : List ObjectRef :=
  plan.objectsToModify.map (fun edit => ⟨edit.objectType, edit.objectId, edit.expectedVersion⟩) ++
    plan.objectsToDelete.map fun edit => ⟨edit.objectType, edit.objectId, edit.expectedVersion⟩

/-- The context resolved an object of the type to this id, at this version. -/
def IsRead (context : PlanResolutionContext ε σ) (target : ObjectRef) : Prop :=
  ∃ cardinality expression s refs s', resolveTargets context target.objectType cardinality
      expression s = .ok (refs, s') ∧
    ∃ ref ∈ refs, ref.objectId = target.objectId ∧ ref.version = target.version

/-- The dictionary of versions after some reads. -/
def recordReads (refs : List ObjectRef) (d : Dict String ℤ) : Dict String ℤ :=
  refs.foldl (fun d ref => d.insert ref.objectId ref.version) d

theorem get?_recordReads (refs : List ObjectRef) (d : Dict String ℤ) (objectId : String) :
    (recordReads refs d).get? objectId = d.get? objectId ∨
      ∃ ref ∈ refs, ref.objectId = objectId ∧
        (recordReads refs d).get? objectId = some ref.version := by
  induction refs generalizing d with
  | nil => exact .inl rfl
  | cons ref refs ih =>
    rw [recordReads, List.foldl_cons, ← recordReads]
    rcases ih (d.insert ref.objectId ref.version) with hsame | ⟨later, hlater, hid, hget⟩
    · by_cases hself : objectId = ref.objectId
      · refine .inr ⟨ref, List.mem_cons_self, hself.symm, ?_⟩
        rw [hsame, Dict.get?_insert, if_pos hself]
      · left
        rw [hsame, Dict.get?_insert, if_neg hself]
    · exact .inr ⟨later, List.mem_cons_of_mem _ hlater, hid, hget⟩

theorem isSome_get?_recordReads {refs : List ObjectRef} {d : Dict String ℤ} {objectId : String}
    (h : (d.get? objectId).isSome ∨ ∃ ref ∈ refs, ref.objectId = objectId) :
    ((recordReads refs d).get? objectId).isSome := by
  induction refs generalizing d with
  | nil => exact h.resolve_right (by simp)
  | cons ref refs ih =>
    rw [recordReads, List.foldl_cons, ← recordReads]
    refine ih ?_
    rw [Dict.get?_insert]
    by_cases hself : objectId = ref.objectId
    · rw [if_pos hself]
      exact .inl rfl
    · rw [if_neg hself]
      rcases h with h | ⟨other, hother, hid⟩
      · exact .inl h
      · rcases List.mem_cons.mp hother with rfl | hother
        · exact absurd hid.symm hself
        · exact .inr ⟨other, hother, hid⟩

/-- **What the read set records.** -/
structure ReadsTargets (context : PlanResolutionContext ε σ) (acc : PlanAccumulator) : Prop where
  read : ∀ target ∈ acc.targets, IsRead context target
  recorded : ∀ objectId version, acc.readVersions.get? objectId = some version →
    ∃ target ∈ acc.targets, target.objectId = objectId ∧ target.version = version
  complete : ∀ target ∈ acc.targets, (acc.readVersions.get? target.objectId).isSome

/-- More targets, read together. -/
theorem ReadsTargets.extend {refs : List ObjectRef} {objectType : String}
    (h : ReadsTargets context acc) (hread : ∀ ref ∈ refs,
      IsRead context ⟨objectType, ref.objectId, ref.version⟩)
    (htargets : ∀ target, target ∈ acc'.targets ↔ target ∈ acc.targets ∨
      ∃ ref ∈ refs, ⟨objectType, ref.objectId, ref.version⟩ = target)
    (hversions : acc'.readVersions = recordReads refs acc.readVersions) :
    ReadsTargets context acc' where
  read target htarget := by
    rcases (htargets target).mp htarget with hold | ⟨ref, href, rfl⟩
    · exact h.read target hold
    · exact hread ref href
  recorded objectId version hget := by
    rw [hversions] at hget
    rcases get?_recordReads refs acc.readVersions objectId with hsame | ⟨ref, href, hid, hnew⟩
    · obtain ⟨target, htarget, hrest⟩ := h.recorded objectId version (hsame ▸ hget)
      exact ⟨target, (htargets target).mpr (.inl htarget), hrest⟩
    · exact ⟨_, (htargets _).mpr (.inr ⟨ref, href, rfl⟩), hid,
        Option.some.inj (hnew.symm.trans hget)⟩
  complete target htarget := by
    rw [hversions]
    rcases (htargets target).mp htarget with hold | ⟨ref, href, rfl⟩
    · exact isSome_get?_recordReads (.inl (h.complete target hold))
    · exact isSome_get?_recordReads (.inr ⟨ref, href, rfl⟩)

/-- Targets and reads that stay as they were. -/
theorem ReadsTargets.congr (h : ReadsTargets context acc) (htargets : acc'.targets = acc.targets)
    (hversions : acc'.readVersions = acc.readVersions) : ReadsTargets context acc' := by
  constructor
  · rw [htargets]
    exact h.read
  · rw [htargets, hversions]
    exact h.recorded
  · rw [htargets, hversions]
    exact h.complete

theorem ReadsTargets.applyRule (h : ReadsTargets context acc)
    (hrule : FoundryLite.Actions.applyRule env context acc rule s = .ok (acc', s')) :
    ReadsTargets context acc' := by
  cases rule with
  | createObject rule =>
    obtain ⟨create, objectId, -, -, rfl⟩ := planCreate_eq_ok hrule
    exact h.congr rfl rfl
  | modifyObject rule =>
    obtain ⟨patch, refs, s₁, s₂, hrefs, rfl⟩ := planModify_eq_ok hrule
    refine @ReadsTargets.extend _ _ _ _ _ refs rule.objectType h (fun ref href =>
      ⟨_, _, s₁, refs, s₂, hrefs, ref, href, rfl, rfl⟩) (fun target => ?_) rfl
    rw [PlanAccumulator.targets, List.map_append, List.map_map, List.mem_append, List.mem_append,
      or_right_comm, PlanAccumulator.targets, List.mem_append]
    exact or_congr_right List.mem_map
  | deleteObject rule =>
    obtain ⟨refs, s₁, s₂, hrefs, rfl⟩ := planDelete_eq_ok hrule
    refine @ReadsTargets.extend _ _ _ _ _ refs rule.objectType h (fun ref href =>
      ⟨_, _, s₁, refs, s₂, hrefs, ref, href, rfl, rfl⟩) (fun target => ?_) rfl
    rw [PlanAccumulator.targets, List.map_append, List.map_map, List.mem_append, List.mem_append,
      ← or_assoc, PlanAccumulator.targets, List.mem_append]
    exact or_congr_right List.mem_map
  | createLink rule =>
    obtain ⟨link, s₁, -, heq⟩ := bind_eq_ok_iff.mp hrule
    obtain ⟨rfl, -⟩ := Prod.mk.inj (pure_eq_ok_iff.mp heq)
    exact h.congr rfl rfl
  | deleteLink rule =>
    obtain ⟨link, s₁, -, heq⟩ := bind_eq_ok_iff.mp hrule
    obtain ⟨rfl, -⟩ := Prod.mk.inj (pure_eq_ok_iff.mp heq)
    exact h.congr rfl rfl
  | deleteInterfaceLinks rule =>
    obtain ⟨new, -, rfl⟩ := planInterfaceLinkDeletes_eq_ok hrule
    exact h.congr rfl rfl
  | functionEdit rule => exact (throw_eq_ok_iff.mp hrule).elim

theorem ReadsTargets.applyRules {rules : List ActionRule} (h : ReadsTargets context acc)
    (hrules : FoundryLite.Actions.applyRules env context acc rules s = .ok (acc', s')) :
    ReadsTargets context acc' := by
  induction rules generalizing acc s with
  | nil =>
    obtain ⟨rfl, -⟩ := Prod.mk.inj (pure_eq_ok_iff.mp hrules)
    exact h
  | cons rule rules ih =>
    obtain ⟨acc₁, s₁, hrule, hrest⟩ := bind_eq_ok_iff.mp hrules
    exact ih (h.applyRule hrule) hrest

/-- **What the read set records**: every modified or deleted object was read at the version its edit
carries; the read set has an entry for the ids of these objects and for no other; and where no two of
different types share an id, the entry is a version that an edit of that very object carries, the one
version there is in a plan that the structural checks accept. -/
theorem readSet_of_buildEditPlan {definition : ActionDefinition} {plan : RecordedPlan}
    (h : buildEditPlan env context definition s = .ok (plan, s')) :
    (∀ target ∈ plan.targets, IsRead context target) ∧
      (∀ objectId, (plan.readSetVersions.get? objectId).isSome ↔
        objectId ∈ plan.targets.map ObjectRef.objectId) ∧
      ((∀ target ∈ plan.targets, ∀ other ∈ plan.targets, target.objectId = other.objectId →
          target.objectType = other.objectType) →
        ∀ target ∈ plan.targets, ∃ version,
          plan.readSetVersions.get? target.objectId = some version ∧
            ⟨target.objectType, target.objectId, version⟩ ∈ plan.targets ∧
            (validateEditPlan plan.edits = .ok () → version = target.version)) := by
  obtain ⟨acc, s₁, hrules, heq⟩ := bind_eq_ok_iff.mp h
  obtain ⟨rfl, -⟩ := Prod.mk.inj (pure_eq_ok_iff.mp heq)
  have hstart : ReadsTargets context {} :=
    ⟨fun _ h => absurd h List.not_mem_nil, fun _ _ h => (by cases h),
      fun _ h => absurd h List.not_mem_nil⟩
  have hreads : ReadsTargets context acc := hstart.applyRules hrules
  refine ⟨hreads.read, fun objectId => ⟨fun hget => ?_, fun hmem => ?_⟩, fun hapart target htarget => ?_⟩
  · obtain ⟨version, hversion⟩ := Option.isSome_iff_exists.mp hget
    obtain ⟨target, htarget, rfl, -⟩ := hreads.recorded objectId version hversion
    exact List.mem_map_of_mem htarget
  · obtain ⟨target, htarget, rfl⟩ := List.mem_map.mp hmem
    exact hreads.complete target htarget
  · obtain ⟨version, hversion⟩ := Option.isSome_iff_exists.mp (hreads.complete target htarget)
    obtain ⟨other, hother, hid, rfl⟩ := hreads.recorded _ version hversion
    have hself : (⟨target.objectType, target.objectId, other.version⟩ : ObjectRef) = other := by
      rw [hapart target htarget other hother hid.symm, ← hid]
    refine ⟨other.version, hversion, hself ▸ hother, fun hvalid => ?_⟩
    -- A checked plan touches each object once.
    have hnodup := ValidEditPlan.nodup_targets ⟨_, hvalid⟩
    have hkeys : acc.targets.map (fun ref => (ref.objectType, ref.objectId))
        = acc.toPlan.edits.modified ++ acc.toPlan.edits.deleted := by
      simp only [PlanAccumulator.targets, PlanAccumulator.toPlan, RecordedPlan.edits,
        EditPlan.modified, EditPlan.deleted, List.map_append, List.map_map]
      rfl
    rw [← hkeys] at hnodup
    have hsame := List.inj_on_of_nodup_map hnodup hother htarget
      (Prod.ext (hapart target htarget other hother hid.symm).symm hid)
    rw [hsame]

end Rules

/-! ### Definitions built -/

section Examples

/-- A context that resolves each literal to the object of that id, at version 3. -/
def literalContext : PlanResolutionContext Unit Unit where
  evaluate _ := pure .null
  resolveExistingObject objectType
    | .literal (.str objectId) => pure ⟨objectType, objectId, 3⟩
    | _ => throw ()
  resolveExistingObjectSet _ _ := throw ()
  resolveLinkEndpoint _ _
    | .literal (.str objectId) => pure objectId
    | _ => throw ()
  resolveInterfaceLinkDeletes _ _ _ := throw ()
  generateObjectId ruleId := pure s!"obj_{ruleId}"
  operationKey ruleId discriminator := s!"{ruleId}:{discriminator}"

def plainSerialiser : Serialiser := ⟨fun _ => "", fun _ => ""⟩

/-- Create an object, and link it to one that is there. -/
def linkedDefinition : ActionDefinition where
  apiName := "open"
  rules := [.createObject ⟨"r1", "ticket", none, []⟩,
    .createLink ⟨"r2", "reports", .priorRuleOutput "r1" "id", .literal (.str "1")⟩]

theorem buildEditPlan_linkedDefinition :
    (buildEditPlan plainSerialiser literalContext linkedDefinition ()).isOk = true ∧
      ∀ plan s', buildEditPlan plainSerialiser literalContext linkedDefinition () = .ok (plan, s') →
        ∀ made ∈ plan.linksToCreate ++ plan.linksToDelete, made.ruleId = "r2" →
          EndpointResolved [.createObject ⟨"r1", "ticket", none, []⟩] plan
            (.priorRuleOutput "r1" "id") made.sourceObjectId := by
  refine ⟨by decide, fun plan s' hbuild made hmade hid => ?_⟩
  exact ((buildEditPlan_linksResolve (by decide) ()).2 plan s' hbuild
    [.createObject ⟨"r1", "ticket", none, []⟩] _ [] _ rfl rfl).2 made hmade hid |>.1

/-- Modify one object and delete another. -/
def editingDefinition : ActionDefinition where
  apiName := "close"
  rules := [.modifyObject ⟨"r1", "ticket", .literal (.str "1"), [], .one, false⟩,
    .deleteObject ⟨"r2", "note", .literal (.str "2"), .one⟩]

theorem readSet_editingDefinition : ∃ plan,
    buildEditPlan plainSerialiser literalContext editingDefinition () = .ok (plan, ()) ∧
      plan.targets = [⟨"ticket", "1", 3⟩, ⟨"note", "2", 3⟩] ∧
      ∀ target ∈ plan.targets, ∃ version, plan.readSetVersions.get? target.objectId = some version ∧
        ⟨target.objectType, target.objectId, version⟩ ∈ plan.targets ∧
        (validateEditPlan plan.edits = .ok () → version = target.version) := by
  obtain ⟨plan, hbuild, htargets⟩ : ∃ plan,
      buildEditPlan plainSerialiser literalContext editingDefinition () = .ok (plan, ()) ∧
        plan.targets = [⟨"ticket", "1", 3⟩, ⟨"note", "2", 3⟩] := ⟨_, rfl, by decide⟩
  refine ⟨plan, hbuild, htargets, ?_⟩
  have hreads := readSet_of_buildEditPlan hbuild
  exact hreads.2.2 (by rw [htargets]; decide)

/-- **The linked objects are not recorded**: the endpoint that is there is resolved, and the read set
is empty. -/
theorem not_records_linked : ¬ ∀ (definition : ActionDefinition) (plan : RecordedPlan),
    buildEditPlan plainSerialiser literalContext definition () = .ok (plan, ()) →
      ∀ link ∈ plan.linksToCreate, ∀ create ∈ plan.objectsToCreate,
        create.primaryKey ≠ .str link.targetObjectId →
          (plan.readSetVersions.get? link.targetObjectId).isSome := by
  intro h
  exact absurd (h linkedDefinition _ rfl
    ⟨"r2:obj_r1->1", "r2", "reports", "obj_r1", "1"⟩ (by decide)
    ⟨"r1:obj_r1", "r1", "ticket", .str "obj_r1", ∅⟩ (by decide) (by decide)) (by decide)

end Examples

end FoundryLite.Actions
