import FoundryLite.Actions.PlanManifest
import FoundryLite.Library.DictUnion
import Mathlib.Data.Finset.Card

/-!
# Edit batches of functions

A function of an action computes and writes nothing: it returns a batch of edits, with the versions
of the objects it read. The batches of several invocations are combined into one, which is turned
into the edit plan of the action. Combining puts the edits one after another, unites the versions
read, and refuses two batches that read different versions of one object.

## Main results

* `toEditPlan_eq_ok_iff`: the plan of a batch has exactly the operations of its edits.
* `combine_lossless`: what combining keeps, when it refuses, and that grouping does not matter.
-/

namespace FoundryLite.Actions

open ObjectStore
open Except (bind_eq_error_iff bind_eq_ok_iff pure_eq_ok_iff)

/-- What a function returned. -/
structure OntologyEditBatch where
  edits : List Mapping
  readSetVersions : Dict String ℤ
  provenance : Mapping
  deriving DecidableEq

def ontologyEditBatchEditLimit : ℕ := 10000

def ontologyEditBatchObjectTypeLimit : ℕ := 50

/-! ### Fields of an edit -/

def requiredText (payload : Mapping) (key : String) : Checked String :=
  match payload.lookup key with
  | some (.str value) =>
    if value = "" then validationFailed s!"ontology edit {key} must be a non-empty string"
    else pure value
  | _ => validationFailed s!"ontology edit {key} must be a non-empty string"

def batchRuleId (edit : Mapping) : Checked String :=
  match edit.lookup "ruleId" with
  | none => pure "function:edit"
  | some (.str value) =>
    if value = "" then validationFailed "ontology edit ruleId must be a non-empty string"
    else pure value
  | some _ => validationFailed "ontology edit ruleId must be a non-empty string"

def requiredVersion (edit : Mapping) : Checked ℤ :=
  match edit.lookup "expectedVersion" with
  | some (.int value) =>
    if value < 0 then
      validationFailed "ontology edit expectedVersion must be a non-negative integer"
    else pure value
  | _ => validationFailed "ontology edit expectedVersion must be a non-negative integer"

def optionalMapping (raw : Option Json) (field : String) : Checked Mapping :=
  match raw.getD .null with
  | .null => pure []
  | .obj fields => pure fields
  | _ => validationFailed s!"ontology edit batch {field} must be an object"

def optionalBool (raw : Option Json) (field : String) : Checked Bool :=
  match raw.getD .null with
  | .null => pure false
  | .bool value => pure value
  | _ => validationFailed s!"ontology edit {field} must be a boolean"

/-! ### The plan of a batch -/

structure EditBuckets where
  creates : List RecordedCreate := []
  modifies : List RecordedModify := []
  deletes : List RecordedDelete := []
  linkCreates : List RecordedLink := []
  linkDeletes : List RecordedLink := []

def batchCreate (edit : Mapping) (operationKey : String) : Checked RecordedCreate := do
  let ruleId ← batchRuleId edit
  let objectType ← requiredText edit "objectType"
  let properties ← optionalMapping (edit.lookup "properties") "properties"
  return ⟨operationKey, ruleId, objectType, (edit.lookup "primaryKey").getD .null,
    Dict.ofList properties⟩

def batchModify (edit : Mapping) (operationKey : String) : Checked RecordedModify := do
  let ruleId ← batchRuleId edit
  let objectType ← requiredText edit "objectType"
  let objectId ← requiredText edit "objectId"
  let expectedVersion ← requiredVersion edit
  let patch ← optionalMapping (edit.lookup "patch") "patch"
  let shouldCreateIfAbsent ← optionalBool (edit.lookup "createIfAbsent") "createIfAbsent"
  return ⟨operationKey, ruleId, objectType, objectId, expectedVersion, Dict.ofList patch,
    shouldCreateIfAbsent⟩

def batchDelete (edit : Mapping) (operationKey : String) : Checked RecordedDelete := do
  let ruleId ← batchRuleId edit
  let objectType ← requiredText edit "objectType"
  let objectId ← requiredText edit "objectId"
  let expectedVersion ← requiredVersion edit
  return ⟨operationKey, ruleId, objectType, objectId, expectedVersion⟩

/-- A link to create and a link to delete are read alike. -/
def batchLink (edit : Mapping) (operationKey : String) : Checked RecordedLink := do
  let ruleId ← batchRuleId edit
  let linkType ← requiredText edit "linkType"
  let sourceObjectId ← requiredText edit "sourceObjectId"
  let targetObjectId ← requiredText edit "targetObjectId"
  return ⟨operationKey, ruleId, linkType, sourceObjectId, targetObjectId⟩

def EditBuckets.append (buckets : EditBuckets) (edit : Mapping) (operationKey : String) :
    Checked EditBuckets := do
  let kind ← requiredText edit "kind"
  match kind with
  | "createObject" =>
    let item ← batchCreate edit operationKey
    return { buckets with creates := buckets.creates ++ [item] }
  | "modifyObject" =>
    let item ← batchModify edit operationKey
    return { buckets with modifies := buckets.modifies ++ [item] }
  | "deleteObject" =>
    let item ← batchDelete edit operationKey
    return { buckets with deletes := buckets.deletes ++ [item] }
  | "createLink" =>
    let item ← batchLink edit operationKey
    return { buckets with linkCreates := buckets.linkCreates ++ [item] }
  | "deleteLink" =>
    let item ← batchLink edit operationKey
    return { buckets with linkDeletes := buckets.linkDeletes ++ [item] }
  | _ => validationFailed "unsupported ontology edit batch operation" [("kind", .str kind)]

def EditBuckets.plan (buckets : EditBuckets) (readSetVersions : Dict String ℤ) : RecordedPlan :=
  ⟨buckets.creates, buckets.modifies, buckets.deletes, buckets.linkCreates, buckets.linkDeletes,
    readSetVersions, []⟩

/-- The key of the edit at a position of the batch. -/
def batchOperationKey (keyStart : String) (index : ℕ) : String := s!"{keyStart}:{index}"

def EditBuckets.appendAt (keyStart : String) (buckets : EditBuckets) (entry : Mapping × ℕ) :
    Checked EditBuckets :=
  buckets.append entry.1 (batchOperationKey keyStart entry.2)

def OntologyEditBatch.toEditPlan (batch : OntologyEditBatch) (keyStart : String) :
    Checked RecordedPlan := do
  let buckets : EditBuckets ← batch.edits.zipIdx.foldlM (EditBuckets.appendAt keyStart) {}
  let plan := buckets.plan batch.readSetVersions
  validateEditPlan plan.edits
  return plan

/-! ### Combining -/

def mergeVersion (target : Dict String ℤ) (entry : String × ℤ) : Checked (Dict String ℤ) :=
  match target.get? entry.1 with
  | some existing =>
    if existing ≠ entry.2 then
      validationFailed "ontology edit batches disagree on a read-set version"
        [("object", .str entry.1), ("firstVersion", .int existing), ("nextVersion", .int entry.2)]
    else pure (target.insert entry.1 entry.2)
  | none => pure (target.insert entry.1 entry.2)

def mergeReadSet (target source : Dict String ℤ) : Checked (Dict String ℤ) :=
  source.entries.foldlM mergeVersion target

def editObjectType? (edit : Mapping) : Option String :=
  match edit.lookup "objectType" with
  | some (.str objectType) => some objectType
  | _ => none

def requireEditLimits (edits : List Mapping) : Checked Unit := do
  rejectIf (ontologyEditBatchEditLimit < edits.length) "ontology edit batch edit limit exceeded"
    [("editCount", .int edits.length), ("editLimit", .int ontologyEditBatchEditLimit)]
  let objectTypes := (edits.filterMap editObjectType?).toFinset
  rejectIf (ontologyEditBatchObjectTypeLimit < objectTypes.card)
    "ontology edit batch object type limit exceeded"
    [("objectTypeCount", .int objectTypes.card),
      ("objectTypeLimit", .int ontologyEditBatchObjectTypeLimit)]

/-- The provenance of several batches. -/
def invocations (batches : List OntologyEditBatch) : Mapping :=
  [("invocations", .arr (batches.map fun batch => .obj batch.provenance))]

/-- Make several batches one. -/
def OntologyEditBatch.combine (batches : List OntologyEditBatch) : Checked OntologyEditBatch := do
  rejectIf (batches.isEmpty = true) "at least one ontology edit batch is required"
  let edits := batches.flatMap (·.edits)
  let readSet ← batches.foldlM (fun readSet batch => mergeReadSet readSet batch.readSetVersions) ∅
  requireEditLimits edits
  return ⟨edits, readSet, invocations batches⟩

/-! ### The operations of a plan -/

/-- One edit of a plan. -/
inductive Operation where
  | createObject (item : RecordedCreate)
  | modifyObject (item : RecordedModify)
  | deleteObject (item : RecordedDelete)
  | createLink (item : RecordedLink)
  | deleteLink (item : RecordedLink)

namespace Operation

def operationKey : Operation → String
  | createObject item => item.operationKey
  | modifyObject item => item.operationKey
  | deleteObject item => item.operationKey
  | createLink item => item.operationKey
  | deleteLink item => item.operationKey

/-- The operation is what an edit asks for, under the given key. -/
def IsReadFrom (edit : Mapping) (key : String) : Operation → Prop
  | createObject item =>
    requiredText edit "kind" = .ok "createObject" ∧ batchCreate edit key = .ok item
  | modifyObject item =>
    requiredText edit "kind" = .ok "modifyObject" ∧ batchModify edit key = .ok item
  | deleteObject item =>
    requiredText edit "kind" = .ok "deleteObject" ∧ batchDelete edit key = .ok item
  | createLink item => requiredText edit "kind" = .ok "createLink" ∧ batchLink edit key = .ok item
  | deleteLink item => requiredText edit "kind" = .ok "deleteLink" ∧ batchLink edit key = .ok item

def create? : Operation → Option RecordedCreate
  | createObject item => some item
  | _ => none

def modify? : Operation → Option RecordedModify
  | modifyObject item => some item
  | _ => none

def delete? : Operation → Option RecordedDelete
  | deleteObject item => some item
  | _ => none

def linkCreate? : Operation → Option RecordedLink
  | createLink item => some item
  | _ => none

def linkDelete? : Operation → Option RecordedLink
  | deleteLink item => some item
  | _ => none

end Operation

/-- The plan that has each of the operations once, each kind in the order given. -/
def planOf (operations : List Operation) (readSetVersions : Dict String ℤ) : RecordedPlan where
  objectsToCreate := operations.filterMap Operation.create?
  objectsToModify := operations.filterMap Operation.modify?
  objectsToDelete := operations.filterMap Operation.delete?
  linksToCreate := operations.filterMap Operation.linkCreate?
  linksToDelete := operations.filterMap Operation.linkDelete?
  readSetVersions := readSetVersions

/-! ### What a batch is turned into -/

theorem operationKey_of_isReadFrom {edit : Mapping} {key : String} {operation : Operation}
    (h : operation.IsReadFrom edit key) : operation.operationKey = key := by
  cases operation with
  | createObject item =>
    simp only [Operation.IsReadFrom, batchCreate, bind_eq_ok_iff, pure_eq_ok_iff] at h
    obtain ⟨-, _, -, _, -, _, -, rfl⟩ := h
    rfl
  | modifyObject item =>
    simp only [Operation.IsReadFrom, batchModify, bind_eq_ok_iff, pure_eq_ok_iff] at h
    obtain ⟨-, _, -, _, -, _, -, _, -, _, -, _, -, rfl⟩ := h
    rfl
  | deleteObject item =>
    simp only [Operation.IsReadFrom, batchDelete, bind_eq_ok_iff, pure_eq_ok_iff] at h
    obtain ⟨-, _, -, _, -, _, -, _, -, rfl⟩ := h
    rfl
  | createLink item =>
    simp only [Operation.IsReadFrom, batchLink, bind_eq_ok_iff, pure_eq_ok_iff] at h
    obtain ⟨-, _, -, _, -, _, -, _, -, rfl⟩ := h
    rfl
  | deleteLink item =>
    simp only [Operation.IsReadFrom, batchLink, bind_eq_ok_iff, pure_eq_ok_iff] at h
    obtain ⟨-, _, -, _, -, _, -, _, -, rfl⟩ := h
    rfl

/-- Put an operation into the bucket of its kind. -/
def EditBuckets.add (buckets : EditBuckets) : Operation → EditBuckets
  | .createObject item => { buckets with creates := buckets.creates ++ [item] }
  | .modifyObject item => { buckets with modifies := buckets.modifies ++ [item] }
  | .deleteObject item => { buckets with deletes := buckets.deletes ++ [item] }
  | .createLink item => { buckets with linkCreates := buckets.linkCreates ++ [item] }
  | .deleteLink item => { buckets with linkDeletes := buckets.linkDeletes ++ [item] }

/-- An edit is read as one operation, or refused. -/
theorem append_eq_ok_iff {buckets buckets' : EditBuckets} {edit : Mapping} {key : String} :
    buckets.append edit key = .ok buckets' ↔
      ∃ operation : Operation, operation.IsReadFrom edit key ∧ buckets' = buckets.add operation := by
  rw [EditBuckets.append, bind_eq_ok_iff]
  constructor
  · rintro ⟨kind, hkind, h⟩
    split at h
    · obtain ⟨item, hitem, heq⟩ := bind_eq_ok_iff.mp h
      exact ⟨.createObject item, ⟨hkind, hitem⟩, (pure_eq_ok_iff.mp heq).symm⟩
    · obtain ⟨item, hitem, heq⟩ := bind_eq_ok_iff.mp h
      exact ⟨.modifyObject item, ⟨hkind, hitem⟩, (pure_eq_ok_iff.mp heq).symm⟩
    · obtain ⟨item, hitem, heq⟩ := bind_eq_ok_iff.mp h
      exact ⟨.deleteObject item, ⟨hkind, hitem⟩, (pure_eq_ok_iff.mp heq).symm⟩
    · obtain ⟨item, hitem, heq⟩ := bind_eq_ok_iff.mp h
      exact ⟨.createLink item, ⟨hkind, hitem⟩, (pure_eq_ok_iff.mp heq).symm⟩
    · obtain ⟨item, hitem, heq⟩ := bind_eq_ok_iff.mp h
      exact ⟨.deleteLink item, ⟨hkind, hitem⟩, (pure_eq_ok_iff.mp heq).symm⟩
    · cases h
  · rintro ⟨operation, hread, rfl⟩
    cases operation
    all_goals
      obtain ⟨hkind, hitem⟩ := hread
      exact ⟨_, hkind, bind_eq_ok_iff.mpr ⟨_, hitem, rfl⟩⟩

theorem foldlM_appendAt_eq_ok_iff {keyStart : String} {edits : List (Mapping × ℕ)}
    {buckets buckets' : EditBuckets} :
    edits.foldlM (EditBuckets.appendAt keyStart) buckets = .ok buckets' ↔
      ∃ operations, List.Forall₂ (fun entry operation =>
          Operation.IsReadFrom entry.1 (batchOperationKey keyStart entry.2) operation)
          edits operations ∧
        buckets' = operations.foldl EditBuckets.add buckets := by
  induction edits generalizing buckets with
  | nil =>
    rw [List.foldlM_nil, pure_eq_ok_iff]
    constructor
    · rintro rfl
      exact ⟨[], .nil, rfl⟩
    · rintro ⟨_, ⟨⟩, rfl⟩
      rfl
  | cons entry edits ih =>
    rw [List.foldlM_cons, bind_eq_ok_iff]
    constructor
    · rintro ⟨next, hnext, hrest⟩
      obtain ⟨operation, hread, rfl⟩ := append_eq_ok_iff.mp hnext
      obtain ⟨operations, hreads, rfl⟩ := ih.mp hrest
      exact ⟨operation :: operations, .cons hread hreads, rfl⟩
    · rintro ⟨_, hreads, rfl⟩
      cases hreads with
      | cons hread hreads =>
        exact ⟨_, append_eq_ok_iff.mpr ⟨_, hread, rfl⟩, ih.mpr ⟨_, hreads, rfl⟩⟩

theorem plan_foldl_add (operations : List Operation) (buckets : EditBuckets)
    (readSetVersions : Dict String ℤ) :
    (operations.foldl EditBuckets.add buckets).plan readSetVersions =
      ⟨buckets.creates ++ operations.filterMap Operation.create?,
        buckets.modifies ++ operations.filterMap Operation.modify?,
        buckets.deletes ++ operations.filterMap Operation.delete?,
        buckets.linkCreates ++ operations.filterMap Operation.linkCreate?,
        buckets.linkDeletes ++ operations.filterMap Operation.linkDelete?, readSetVersions, []⟩ := by
  induction operations generalizing buckets with
  | nil => simp [EditBuckets.plan]
  | cons operation operations ih =>
    rw [List.foldl_cons, ih]
    cases operation <;>
      simp [EditBuckets.add, List.filterMap_cons, Operation.create?, Operation.modify?,
        Operation.delete?, Operation.linkCreate?, Operation.linkDelete?]

/-- **The plan of a batch has exactly the operations of its edits**, and is one that the structural
checks accept. -/
theorem toEditPlan_eq_ok_iff {batch : OntologyEditBatch} {keyStart : String} {plan : RecordedPlan} :
    batch.toEditPlan keyStart = .ok plan ↔
      ∃ operations, List.Forall₂ (fun entry operation =>
          Operation.IsReadFrom entry.1 (batchOperationKey keyStart entry.2) operation)
          batch.edits.zipIdx operations ∧
        plan = planOf operations batch.readSetVersions ∧ validateEditPlan plan.edits = .ok () := by
  have hplan : ∀ operations : List Operation,
      (operations.foldl EditBuckets.add {}).plan batch.readSetVersions
        = planOf operations batch.readSetVersions :=
    fun operations => plan_foldl_add operations {} batch.readSetVersions
  simp only [OntologyEditBatch.toEditPlan, bind_eq_ok_iff, foldlM_appendAt_eq_ok_iff,
    pure_eq_ok_iff]
  constructor
  · rintro ⟨_, ⟨operations, hreads, rfl⟩, _, hvalid, rfl⟩
    exact ⟨operations, hreads, hplan operations, hvalid⟩
  · rintro ⟨operations, hreads, rfl, hvalid⟩
    refine ⟨_, ⟨operations, hreads, rfl⟩, (), ?_, hplan operations⟩
    rw [hplan operations]
    exact hvalid

/-! ### Keys -/

theorem batchOperationKey_injective {keyStart : String} {i j : ℕ}
    (h : batchOperationKey keyStart i = batchOperationKey keyStart j) : i = j := by
  have hrepr : i.repr = j.repr := by
    have hlist := congrArg String.toList h
    simp only [batchOperationKey, toString, String.toList_append] at hlist
    exact String.toList_inj.mp (List.append_cancel_left hlist)
  have hdigits := congrArg String.toList hrepr
  rw [Nat.toList_repr, Nat.toList_repr] at hdigits
  rw [← Nat.ofDigitChars_toDigits (b := 10) (n := i) (by decide) (by decide), hdigits,
    Nat.ofDigitChars_toDigits (by decide) (by decide)]

/-- The keys of the operations read from a batch are those of their positions. -/
theorem map_operationKey_of_forall₂ {keyStart : String} {edits : List (Mapping × ℕ)}
    {operations : List Operation}
    (h : List.Forall₂ (fun entry operation =>
      Operation.IsReadFrom entry.1 (batchOperationKey keyStart entry.2) operation)
      edits operations) :
    operations.map Operation.operationKey
      = edits.map fun entry => batchOperationKey keyStart entry.2 := by
  induction h with
  | nil => rfl
  | cons hread _ ih => rw [List.map_cons, List.map_cons, ih, operationKey_of_isReadFrom hread]

/-- The keys of a plan are those of its operations. -/
theorem allOperationKeys_planOf (operations : List Operation) (readSetVersions : Dict String ℤ) :
    ((planOf operations readSetVersions).edits.allOperationKeys).Perm
      (operations.map Operation.operationKey) := by
  rw [List.perm_iff_count]
  intro key
  simp only [planOf, RecordedPlan.edits, EditPlan.allOperationKeys, List.map_map, List.count_append]
  induction operations with
  | nil => rfl
  | cons operation operations ih =>
    cases operation
    all_goals
      simp only [List.filterMap_cons, Operation.create?, Operation.modify?, Operation.delete?,
        Operation.linkCreate?, Operation.linkDelete?, List.map_cons, List.count_cons,
        Operation.operationKey, Function.comp_apply] at ih ⊢
      omega

/-- **The operations of a plan made from a batch have distinct keys.** -/
theorem nodup_operationKey_of_forall₂ {keyStart : String} {edits : List Mapping}
    {operations : List Operation}
    (h : List.Forall₂ (fun entry operation =>
      Operation.IsReadFrom entry.1 (batchOperationKey keyStart entry.2) operation)
      edits.zipIdx operations) : (operations.map Operation.operationKey).Nodup := by
  have hkeys : (edits.zipIdx.map fun entry => batchOperationKey keyStart entry.2)
      = (List.range edits.length).map (batchOperationKey keyStart) := by
    rw [List.range_eq_range', ← List.zipIdx_map_snd 0 edits, List.map_map]
    rfl
  rw [map_operationKey_of_forall₂ h, hkeys]
  exact List.nodup_range.map fun _ _ => batchOperationKey_injective

/-! ### Versions read -/

/-- The one binding of an entry. -/
def bindingOf (entry : String × ℤ) : Dict String ℤ := Dict.ofList [entry]

theorem get?_bindingOf {entry : String × ℤ} {key : String} {version : ℤ} :
    (bindingOf entry).get? key = some version ↔ entry = (key, version) := by
  obtain ⟨k, v⟩ := entry
  rw [bindingOf, Dict.get?_ofList, Dict.lookup_cons_ite]
  by_cases hk : key = k
  · simp [hk]
  · simp [hk, Ne.symm hk]

theorem mergeVersion_eq_ok_iff (target : Dict String ℤ) (entry : String × ℤ)
    (merged : Dict String ℤ) :
    mergeVersion target entry = .ok merged ↔ merged.IsUnion [target, bindingOf entry] := by
  obtain ⟨key, version⟩ := entry
  have hunion : (∀ existing, target.get? key = some existing → existing = version) →
      (target.insert key version).IsUnion [target, bindingOf (key, version)] := by
    intro hsame k v
    simp only [List.mem_cons, exists_eq_or_imp, List.not_mem_nil, or_false, exists_eq_left,
      get?_bindingOf, Dict.get?_insert, Prod.mk.injEq]
    by_cases hk : k = key
    · subst hk
      rw [if_pos rfl]
      constructor
      · intro h
        exact .inr ⟨rfl, Option.some.inj h⟩
      · rintro (h | ⟨-, rfl⟩)
        · rw [hsame v h]
        · rfl
    · simp [hk, Ne.symm hk]
  constructor
  · intro h
    rw [mergeVersion] at h
    split at h
    · rename_i existing hexisting
      split_ifs at h with hne
      · cases h
      · obtain rfl := pure_eq_ok_iff.mp h
        refine hunion fun other hother => ?_
        rw [hexisting] at hother
        obtain rfl := Option.some.inj hother
        exact not_ne_iff.mp hne
    · rename_i hnone
      obtain rfl := pure_eq_ok_iff.mp h
      exact hunion fun other hother => absurd (hnone.symm.trans hother) (by simp)
  · intro h
    have hsame : ∀ existing, target.get? key = some existing → existing = version :=
      fun existing hexisting => h.agree (by simp) (by simp) hexisting (get?_bindingOf.mpr rfl)
    have hmerged := h.unique (hunion hsame)
    rw [mergeVersion]
    split
    · rename_i existing hexisting
      rw [if_neg (not_ne_iff.mpr (hsame existing hexisting)), hmerged]
      rfl
    · rw [hmerged]
      rfl

theorem isUnion_map_bindingOf {target source merged : Dict String ℤ} :
    merged.IsUnion (target :: source.entries.map bindingOf) ↔ merged.IsUnion [target, source] := by
  refine forall_congr' fun k => forall_congr' fun v => iff_congr Iff.rfl ?_
  simp only [List.mem_cons, exists_eq_or_imp, List.not_mem_nil, or_false, exists_eq_left,
    List.mem_map, exists_exists_and_eq_and, get?_bindingOf, exists_eq_right, Dict.mem_entries_iff]

theorem mergeReadSet_eq_ok_iff (target source merged : Dict String ℤ) :
    mergeReadSet target source = .ok merged ↔ merged.IsUnion [target, source] := by
  rw [mergeReadSet, Dict.foldlM_eq_ok_iff_isUnion mergeVersion_eq_ok_iff, isUnion_map_bindingOf]

theorem foldlM_mergeReadSet_eq_ok_iff {batches : List OntologyEditBatch}
    {readSet : Dict String ℤ} :
    batches.foldlM (fun readSet batch => mergeReadSet readSet batch.readSetVersions) ∅
        = .ok readSet ↔
      readSet.IsUnion (batches.map (·.readSetVersions)) := by
  have hstep : ∀ (d : Dict String ℤ) (batch : OntologyEditBatch) (e : Dict String ℤ),
      mergeReadSet d batch.readSetVersions = .ok e ↔ e.IsUnion [d, batch.readSetVersions] :=
    fun d batch e => mergeReadSet_eq_ok_iff d batch.readSetVersions e
  rw [Dict.foldlM_eq_ok_iff_isUnion hstep, Dict.IsUnion.empty_cons]

/-! ### Batches combined -/

/-- As many edits, and as many object types, as one batch may have. -/
def IsWithinLimits (edits : List Mapping) : Prop :=
  edits.length ≤ ontologyEditBatchEditLimit ∧
    (edits.filterMap editObjectType?).toFinset.card ≤ ontologyEditBatchObjectTypeLimit

theorem IsWithinLimits.mono {edits edits' : List Mapping} (h : IsWithinLimits edits')
    (hsub : edits.Sublist edits') : IsWithinLimits edits := by
  refine ⟨hsub.length_le.trans h.1, le_trans (Finset.card_le_card fun objectType hmem => ?_) h.2⟩
  exact List.mem_toFinset.mpr ((hsub.filterMap _).subset (List.mem_toFinset.mp hmem))

theorem requireEditLimits_eq_ok_iff {edits : List Mapping} :
    requireEditLimits edits = .ok () ↔ IsWithinLimits edits := by
  simp only [requireEditLimits, bind_eq_ok_iff, rejectIf_eq_ok_iff, not_lt, IsWithinLimits]
  constructor
  · rintro ⟨_, hcount, htypes⟩
    exact ⟨hcount, htypes⟩
  · rintro ⟨hcount, htypes⟩
    exact ⟨(), hcount, htypes⟩

namespace OntologyEditBatch

/-- **When batches combine, and into what.** -/
theorem combine_eq_ok_iff {batches : List OntologyEditBatch} {batch : OntologyEditBatch} :
    combine batches = .ok batch ↔
      batches ≠ [] ∧ IsWithinLimits batch.edits ∧ batch.edits = batches.flatMap (·.edits) ∧
        batch.readSetVersions.IsUnion (batches.map (·.readSetVersions)) ∧
        batch.provenance = invocations batches := by
  simp only [combine, bind_eq_ok_iff, rejectIf_eq_ok_iff, List.isEmpty_iff,
    foldlM_mergeReadSet_eq_ok_iff, pure_eq_ok_iff]
  constructor
  · rintro ⟨_, hne, readSet, hunion, _, hlimits, rfl⟩
    exact ⟨hne, requireEditLimits_eq_ok_iff.mp hlimits, rfl, hunion, rfl⟩
  · obtain ⟨edits, readSet, provenance⟩ := batch
    rintro ⟨hne, hlimits, hedits, hunion, hprovenance⟩
    obtain rfl := hedits
    obtain rfl := hprovenance
    exact ⟨(), hne, readSet, hunion, (), requireEditLimits_eq_ok_iff.mpr hlimits, rfl⟩

end OntologyEditBatch

/-- The error raised for two batches that read different versions of one object. -/
def IsReadSetConflict (e : FoundryLiteError) : Prop :=
  e.message = "ontology edit batches disagree on a read-set version"

theorem isReadSetConflict_of_mergeVersion {target : Dict String ℤ} {entry : String × ℤ}
    {e : FoundryLiteError} (h : mergeVersion target entry = .error e) : IsReadSetConflict e := by
  rw [mergeVersion] at h
  split at h
  · split_ifs at h
    · cases h
      rfl
    · cases h
  · cases h

theorem not_isReadSetConflict_of_requireEditLimits {edits : List Mapping} {e : FoundryLiteError}
    (h : requireEditLimits edits = .error e) : ¬ IsReadSetConflict e := by
  rcases bind_eq_error_iff.mp h with hcount | ⟨-, -, htypes⟩
  · obtain ⟨-, rfl⟩ := rejectIf_eq_error_iff.mp hcount
    simp [IsReadSetConflict]
  · obtain ⟨-, rfl⟩ := rejectIf_eq_error_iff.mp htypes
    simp [IsReadSetConflict]

namespace OntologyEditBatch

/-- **A conflict is raised exactly when two batches read different versions of one object.** -/
theorem combine_conflict_iff {batches : List OntologyEditBatch} :
    (∃ e, combine batches = .error e ∧ IsReadSetConflict e) ↔
      ∃ first ∈ batches, ∃ second ∈ batches, ∃ objectId v w,
        first.readSetVersions.get? objectId = some v ∧
          second.readSetVersions.get? objectId = some w ∧ v ≠ w := by
  constructor
  · rintro ⟨e, h, hconflict⟩
    by_contra hagree
    -- Batches that agree have a union, and only the other refusals are left.
    obtain ⟨readSet, hunion⟩ := Dict.exists_isUnion_iff.mpr
      (show ∀ a ∈ batches.map (·.readSetVersions), ∀ b ∈ batches.map (·.readSetVersions),
          ∀ k v w, a.get? k = some v → b.get? k = some w → v = w by
        intro a ha b hb k v w hv hw
        obtain ⟨first, hfirst, rfl⟩ := List.mem_map.mp ha
        obtain ⟨second, hsecond, rfl⟩ := List.mem_map.mp hb
        by_contra hne
        exact hagree ⟨first, hfirst, second, hsecond, k, v, w, hv, hw, hne⟩)
    rcases bind_eq_error_iff.mp h with hempty | ⟨_, -, h⟩
    · obtain ⟨-, rfl⟩ := rejectIf_eq_error_iff.mp hempty
      exact absurd hconflict (by simp [IsReadSetConflict])
    rcases bind_eq_error_iff.mp h with hmerge | ⟨readSet', -, h⟩
    · rw [foldlM_mergeReadSet_eq_ok_iff.mpr hunion] at hmerge
      cases hmerge
    rcases bind_eq_error_iff.mp h with hlimits | ⟨_, -, h⟩
    · exact not_isReadSetConflict_of_requireEditLimits hlimits hconflict
    · cases h
  · rintro ⟨first, hfirst, second, hsecond, objectId, v, w, hv, hw, hne⟩
    have hempty : ¬ batches.isEmpty = true := by
      rw [List.isEmpty_iff]
      exact List.ne_nil_of_mem hfirst
    cases hmerge : batches.foldlM
        (fun readSet batch => mergeReadSet readSet batch.readSetVersions) ∅ with
    | ok readSet =>
      have hunion := foldlM_mergeReadSet_eq_ok_iff.mp hmerge
      exact absurd (hunion.agree (List.mem_map_of_mem hfirst) (List.mem_map_of_mem hsecond) hv hw)
        hne
    | error e =>
      obtain ⟨target, batch, hstep⟩ := List.exists_of_foldlM_eq_error hmerge
      obtain ⟨target', entry, hentry⟩ := List.exists_of_foldlM_eq_error hstep
      refine ⟨e, ?_, isReadSetConflict_of_mergeVersion hentry⟩
      rw [combine, rejectIf, if_neg hempty]
      exact bind_eq_error_iff.mpr (.inr ⟨(), rfl,
        bind_eq_error_iff.mpr (.inl hmerge)⟩)

end OntologyEditBatch

namespace OntologyEditBatch

/-! ### Combining by groups -/

variable {groups : List (List OntologyEditBatch)} {parts : List OntologyEditBatch}

theorem flatMap_edits_of_forall₂
    (h : List.Forall₂ (fun group part => combine group = .ok part) groups parts) :
    parts.flatMap (·.edits) = groups.flatten.flatMap (·.edits) := by
  induction h with
  | nil => rfl
  | cons hpart _ ih =>
    rw [List.flatMap_cons, List.flatten_cons, List.flatMap_append, ih,
      (combine_eq_ok_iff.mp hpart).2.2.1]

theorem isUnion_of_forall₂
    (h : List.Forall₂ (fun group part => combine group = .ok part) groups parts)
    {readSet : Dict String ℤ} :
    readSet.IsUnion (parts.map (·.readSetVersions)) ↔
      readSet.IsUnion (groups.flatten.map (·.readSetVersions)) := by
  have hgroups : List.Forall₂ Dict.IsUnion (parts.map (·.readSetVersions))
      (groups.map fun group => group.map (·.readSetVersions)) := by
    induction h with
    | nil => exact .nil
    | cons hpart _ ih => exact .cons (combine_eq_ok_iff.mp hpart).2.2.2.1 ih
  rw [List.map_flatten]
  exact Dict.IsUnion.flatten hgroups

/-- Where all batches combine, those of each group do. -/
theorem exists_combine_of_flatten {batch : OntologyEditBatch}
    (h : combine groups.flatten = .ok batch) {group : List OntologyEditBatch} (hmem : group ∈ groups)
    (hne : group ≠ []) : ∃ part, combine group = .ok part := by
  obtain ⟨-, hlimits, hedits, hunion, -⟩ := combine_eq_ok_iff.mp h
  have hsub : group.Sublist groups.flatten := List.sublist_flatten_of_mem hmem
  obtain ⟨readSet, hread⟩ := Dict.exists_isUnion_iff.mpr
    (show ∀ a ∈ group.map (·.readSetVersions), ∀ b ∈ group.map (·.readSetVersions),
        ∀ k v w, a.get? k = some v → b.get? k = some w → v = w from
      fun a ha b hb k v w => hunion.agree ((hsub.map _).subset ha) ((hsub.map _).subset hb))
  have hpart : IsWithinLimits (group.flatMap (·.edits)) := by
    refine (hedits ▸ hlimits).mono ?_
    obtain ⟨before, after, rfl⟩ := List.append_of_mem hmem
    rw [List.flatten_append, List.flatten_cons, List.flatMap_append, List.flatMap_append]
    exact (List.sublist_append_left _ _).trans (List.sublist_append_right _ _)
  exact ⟨⟨_, readSet, invocations group⟩,
    combine_eq_ok_iff.mpr ⟨hne, hpart, rfl, hread, rfl⟩⟩

/-- **Combining is associative**: batches combine by groups exactly when they combine at once, into
the same edits and the same versions. -/
theorem combine_flatten_iff (hne : ∀ group ∈ groups, group ≠ []) {edits : List Mapping}
    {readSet : Dict String ℤ} :
    (∃ batch, combine groups.flatten = .ok batch ∧ batch.edits = edits ∧
        batch.readSetVersions = readSet) ↔
      ∃ parts batch, groups.mapM combine = .ok parts ∧ combine parts = .ok batch ∧
        batch.edits = edits ∧ batch.readSetVersions = readSet := by
  constructor
  · rintro ⟨batch, h, rfl, rfl⟩
    obtain ⟨parts, hmapM⟩ := List.exists_mapM_eq_ok fun group hmem =>
      exists_combine_of_flatten h hmem (hne group hmem)
    have hparts := List.mapM_eq_ok_iff.mp hmapM
    obtain ⟨hflat, hlimits, hedits, hunion, -⟩ := combine_eq_ok_iff.mp h
    have hpartsne : parts ≠ [] := by
      rintro rfl
      cases hparts
      exact hflat rfl
    refine ⟨parts, ⟨batch.edits, batch.readSetVersions, invocations parts⟩, hmapM, combine_eq_ok_iff.mpr
      ⟨hpartsne, hlimits, ?_, (isUnion_of_forall₂ hparts).mpr hunion, rfl⟩, rfl, rfl⟩
    rw [flatMap_edits_of_forall₂ hparts]
    exact hedits
  · rintro ⟨parts, batch, hmapM, h, rfl, rfl⟩
    have hparts := List.mapM_eq_ok_iff.mp hmapM
    obtain ⟨hpartsne, hlimits, hedits, hunion, -⟩ := combine_eq_ok_iff.mp h
    have hflat : groups.flatten ≠ [] := by
      intro hnil
      cases hparts with
      | nil => exact hpartsne rfl
      | cons hpart _ =>
        exact hne _ List.mem_cons_self (List.flatten_eq_nil_iff.mp hnil _ List.mem_cons_self)
    refine ⟨⟨batch.edits, batch.readSetVersions, invocations _⟩, combine_eq_ok_iff.mpr
      ⟨hflat, hlimits, ?_, (isUnion_of_forall₂ hparts).mp hunion, rfl⟩, rfl, rfl⟩
    rw [← flatMap_edits_of_forall₂ hparts]
    exact hedits

/-- **The order of the batches does not matter** to whether they combine, nor to the versions; the edits
are the same in another order. -/
theorem combine_perm {batches' : List OntologyEditBatch} {batch : OntologyEditBatch}
    (h : batches.Perm batches') (hcombine : combine batches = .ok batch) :
    ∃ batch', combine batches' = .ok batch' ∧ batch'.readSetVersions = batch.readSetVersions ∧
      batch.edits.Perm batch'.edits := by
  obtain ⟨hne, hlimits, hedits, hunion, -⟩ := combine_eq_ok_iff.mp hcombine
  have hperm : batch.edits.Perm (batches'.flatMap (·.edits)) := hedits ▸ h.flatMap_right _
  have htypes := List.toFinset_eq_of_perm _ _ (hperm.filterMap editObjectType?)
  refine ⟨⟨_, batch.readSetVersions, invocations batches'⟩, combine_eq_ok_iff.mpr
    ⟨?_, ⟨hperm.length_eq ▸ hlimits.1, htypes ▸ hlimits.2⟩, rfl, fun k v => ?_, rfl⟩, rfl, hperm⟩
  · rintro rfl
    exact hne h.eq_nil
  · rw [hunion k v]
    exact exists_congr fun _ => and_congr_left' (h.map _).mem_iff

/-- **Combining loses nothing.** The plan of the combined batch has the operations of all edits, each
once and in order under a key of its own; two batches that read different versions of one object are
refused as such, and no others are; and grouping changes neither the edits nor the versions. -/
theorem combine_lossless (batches : List OntologyEditBatch) :
    (∀ batch keyStart plan, combine batches = .ok batch → batch.toEditPlan keyStart = .ok plan →
      ∃ operations, List.Forall₂ (fun entry operation =>
          Operation.IsReadFrom entry.1 (batchOperationKey keyStart entry.2) operation)
          (batches.flatMap (·.edits)).zipIdx operations ∧
        plan = planOf operations batch.readSetVersions ∧
        plan.edits.allOperationKeys.Perm (operations.map Operation.operationKey) ∧
        plan.edits.allOperationKeys.Nodup) ∧
    ((∃ e, combine batches = .error e ∧ IsReadSetConflict e) ↔
      ∃ first ∈ batches, ∃ second ∈ batches, ∃ objectId v w,
        first.readSetVersions.get? objectId = some v ∧
          second.readSetVersions.get? objectId = some w ∧ v ≠ w) ∧
    ∀ groups : List (List OntologyEditBatch), groups.flatten = batches →
      (∀ group ∈ groups, group ≠ []) → ∀ edits readSet,
        ((∃ batch, combine batches = .ok batch ∧ batch.edits = edits ∧
            batch.readSetVersions = readSet) ↔
          ∃ parts batch, groups.mapM combine = .ok parts ∧ combine parts = .ok batch ∧
            batch.edits = edits ∧ batch.readSetVersions = readSet) := by
  refine ⟨fun batch keyStart plan hcombine hplan => ?_, combine_conflict_iff, ?_⟩
  · obtain ⟨operations, hreads, rfl, -⟩ := toEditPlan_eq_ok_iff.mp hplan
    rw [(combine_eq_ok_iff.mp hcombine).2.2.1] at hreads
    have hperm := allOperationKeys_planOf operations batch.readSetVersions
    exact ⟨operations, hreads, rfl, hperm,
      hperm.nodup_iff.mpr (nodup_operationKey_of_forall₂ hreads)⟩
  · rintro groups rfl hne edits readSet
    exact combine_flatten_iff hne

section Examples

/-- A function that closes a ticket, of which it read version 3. -/
def closesTicket : OntologyEditBatch where
  edits := [[("kind", .str "modifyObject"), ("objectType", .str "ticket"), ("objectId", .str "1"),
    ("expectedVersion", .int 3), ("patch", .obj [("status", .str "closed")])]]
  readSetVersions := Dict.ofList [("1", 3)]
  provenance := [("function", .str "close")]

/-- A function that opens a new one, and read the same version of the other. -/
def opensTicket : OntologyEditBatch where
  edits := [[("kind", .str "createObject"), ("objectType", .str "ticket")]]
  readSetVersions := Dict.ofList [("1", 3)]
  provenance := [("function", .str "open")]

theorem combine_perm_tickets : ∃ batch, combine [opensTicket, closesTicket] = .ok batch ∧
    batch.readSetVersions = Dict.ofList [("1", 3)] := by
  have hcombine : combine [closesTicket, opensTicket] = .ok _ := rfl
  obtain ⟨batch, hswapped, hversions, -⟩ := combine_perm (.swap _ _ _) hcombine
  exact ⟨batch, hswapped, hversions⟩

theorem combine_lossless_tickets :
    ∃ batch plan, combine [closesTicket, opensTicket] = .ok batch ∧
      batch.toEditPlan "fn" = .ok plan ∧ plan.edits.allOperationKeys = ["fn:1", "fn:0"] ∧
      plan.edits.allOperationKeys.Nodup := by
  obtain ⟨batch, plan, hcombine, hplan, hkeys⟩ : ∃ batch plan,
      combine [closesTicket, opensTicket] = .ok batch ∧ batch.toEditPlan "fn" = .ok plan ∧
        plan.edits.allOperationKeys = ["fn:1", "fn:0"] :=
    ⟨_, _, rfl, rfl, by decide⟩
  obtain ⟨-, -, -, -, hnodup⟩ :=
    (combine_lossless [closesTicket, opensTicket]).1 batch "fn" plan hcombine hplan
  exact ⟨batch, plan, hcombine, hplan, hkeys, hnodup⟩

/-- **The provenance tells the grouping.** -/
theorem not_combine_assoc : ¬ ∀ first second third left leftAll right rightAll : OntologyEditBatch,
    combine [first, second] = .ok left → combine [left, third] = .ok leftAll →
      combine [second, third] = .ok right → combine [first, right] = .ok rightAll →
        leftAll = rightAll := by
  intro h
  have hsame := h closesTicket opensTicket opensTicket _ _ _ _ rfl rfl rfl rfl
  exact absurd (congrArg provenance hsame) (by decide)

end Examples

end OntologyEditBatch

end FoundryLite.Actions
