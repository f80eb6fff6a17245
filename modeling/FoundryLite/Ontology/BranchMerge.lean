import FoundryLite.Errors
import Mathlib.Data.List.Induction
import Mathlib.Data.Prod.Lex

/-!
# Merging an ontology branch onto main

A branch of an ontology is rebased onto the current main definition resource by resource. Three
definitions (the recorded base, the branch, and main) are read into maps of resources, each
resource is classified by how the branch and main changed it, and a resource both changed with
different outcomes is a conflict that needs a resolution.

Whether a resource changed is decided by the language's equality on decoded values, in which
`true` equals `1`. A change that this equality does not see is not made: a branch that only turns a
`1` into `true` has not changed the resource, and main's value is kept.

## Main results

* `parseResourceMap_definitionFromResourceMap`: a written definition is read back as it was.
* `get?_mergeBranchOntoMain`: the merged value of a resource.
* `mergeLaw_iff`: the merge obeys the law exactly at the resources of `EqualityAgrees`.
-/

namespace FoundryLite.Ontology

/-! ### Resource maps -/

inductive ResourceKind where
  | objectType
  | linkType
  | actionType
  | interface
  | functionType
  deriving DecidableEq

namespace ResourceKind

def text : ResourceKind → String
  | objectType => "objectType"
  | linkType => "linkType"
  | actionType => "actionType"
  | interface => "interface"
  | functionType => "functionType"

def sectionName : ResourceKind → String
  | objectType => "objectTypes"
  | linkType => "linkTypes"
  | actionType => "actionTypes"
  | interface => "interfaces"
  | functionType => "functionTypes"

def all : List ResourceKind := [objectType, linkType, actionType, interface, functionType]

/-- A definition has these sections even when they are empty. -/
def IsAlwaysPresent (kind : ResourceKind) : Prop :=
  kind = objectType ∨ kind = linkType ∨ kind = actionType

instance (kind : ResourceKind) : Decidable kind.IsAlwaysPresent :=
  inferInstanceAs (Decidable (_ ∨ _))

theorem mem_all (kind : ResourceKind) : kind ∈ all := by cases kind <;> decide

theorem text_injective : Function.Injective text := by
  intro kind kind' h
  cases kind <;> cases kind' <;> first | rfl | exact absurd h (by decide)

theorem sectionName_injective : Function.Injective sectionName := by
  intro kind kind' h
  cases kind <;> cases kind' <;> first | rfl | exact absurd h (by decide)

end ResourceKind

/-- The pair of texts that a key is given, stored and ordered as. -/
@[ext]
structure KeyTexts where
  kind : String
  apiName : String

instance : LinearOrder KeyTexts :=
  LinearOrder.lift' (fun texts => toLex (texts.kind, texts.apiName)) fun texts texts' h => by
    obtain ⟨hkind, hname⟩ := Prod.mk.inj (toLex.injective h)
    exact KeyTexts.ext hkind hname

structure ResourceKey where
  kind : ResourceKind
  apiName : String

def ResourceKey.texts (key : ResourceKey) : KeyTexts := ⟨key.kind.text, key.apiName⟩

theorem ResourceKey.texts_injective : Function.Injective ResourceKey.texts := by
  rintro ⟨kind, apiName⟩ ⟨kind', apiName'⟩ h
  obtain ⟨hkind, hname⟩ := KeyTexts.mk.inj h
  rw [ResourceKey.mk.injEq]
  exact ⟨ResourceKind.text_injective hkind, hname⟩

instance : LinearOrder ResourceKey := LinearOrder.lift' ResourceKey.texts ResourceKey.texts_injective

/-- The resource that an item of a section is, in the form a JSON round trip leaves it. -/
def readResource? (kind : ResourceKind) (item : Json) : Option (ResourceKey × Json) :=
  match item with
  | .obj fields =>
    match fields.lookup "apiName" with
    | some (.str apiName) => some (⟨kind, apiName⟩, item.norm .text)
    | _ => none
  | _ => none

/-- Resources in normal form, each under its own kind and name. -/
structure ResourceMap where
  toDict : Dict ResourceKey Json
  isResource : ∀ key value, toDict.get? key = some value →
    readResource? key.kind value = some (key, value)

namespace ResourceMap

def get? (resources : ResourceMap) (key : ResourceKey) : Option Json := resources.toDict.get? key

theorem ext_get? {resources resources' : ResourceMap}
    (h : ∀ key, resources.get? key = resources'.get? key) : resources = resources' := by
  have hdict := Dict.ext_get? h
  cases resources
  cases resources'
  simpa using hdict

end ResourceMap

theorem readResource?_idem {kind : ResourceKind} {item value : Json} {key : ResourceKey}
    (h : readResource? kind item = some (key, value)) :
    key.kind = kind ∧ readResource? key.kind value = some (key, value) := by
  cases item with
  | obj fields =>
    cases hname : fields.lookup "apiName" with
    | none => simp [readResource?, hname] at h
    | some name =>
      cases name with
      | str apiName =>
        simp only [readResource?, hname, Option.some.injEq, Prod.mk.injEq] at h
        obtain ⟨rfl, rfl⟩ := h
        refine ⟨rfl, ?_⟩
        have hread : (Dict.canon (Json.normFields .text fields)).lookup "apiName"
            = some (.str apiName) := by
          rw [Dict.lookup_canon, Json.lookup_normFields, hname]
          rfl
        have hidem := Json.norm_text_norm_text (.obj fields)
        rw [Json.norm] at hidem ⊢
        simp only [readResource?, hread, hidem]
      | _ => simp [readResource?, hname] at h
  | _ => simp [readResource?] at h

/-! ### Reading a definition -/

def sectionItems (definition : Mapping) (kind : ResourceKind) : List Json :=
  match definition.lookup kind.sectionName with
  | some (.arr items) => items
  | _ => []

def readResources (definition : Mapping) : List (ResourceKey × Json) :=
  ResourceKind.all.flatMap fun kind => (sectionItems definition kind).filterMap (readResource? kind)

theorem isResource_of_mem_readResources {definition : Mapping} {key : ResourceKey} {value : Json}
    (h : (key, value) ∈ readResources definition) :
    readResource? key.kind value = some (key, value) := by
  obtain ⟨kind, -, hitems⟩ := List.mem_flatMap.mp h
  obtain ⟨item, -, hitem⟩ := List.mem_filterMap.mp hitems
  exact (readResource?_idem hitem).2

/-- The resources of a loaded document; of two with one name the later is kept. -/
def parseResourceMap (loaded : Json) : ResourceMap :=
  let definition : Mapping := match loaded with
    | .obj fields => fields
    | _ => []
  { toDict := Dict.ofList (readResources definition).reverse
    isResource := fun key value h => by
      rw [Dict.get?_ofList] at h
      exact isResource_of_mem_readResources
        (List.mem_reverse.mp (Dict.mem_of_lookup_eq_some h)) }

/-! ### The three-way difference -/

inductive ResourceChange where
  | added
  | modified
  | removed
  | unchanged
  deriving DecidableEq

def ResourceChange.text : ResourceChange → String
  | added => "added"
  | modified => "modified"
  | removed => "removed"
  | unchanged => "unchanged"

/-- Both absent, or both present with one normal form under a reading of numbers. -/
def EqualAs (r : Json.Reading) (a b : Option Json) : Prop := a.map (Json.norm r) = b.map (Json.norm r)

instance (r : Json.Reading) (a b : Option Json) : Decidable (EqualAs r a b) :=
  inferInstanceAs (Decidable (_ = _))

def changeFor : Option Json → Option Json → ResourceChange
  | none, none => .unchanged
  | none, some _ => .added
  | some _, none => .removed
  | some baseValue, some otherValue =>
    if baseValue.PyEq otherValue then .unchanged else .modified

def isConflicting (branchChange mainChange : ResourceChange) (branchValue mainValue : Option Json) :
    Bool :=
  if branchChange = .unchanged ∨ mainChange = .unchanged then false
  -- both sides changed the resource: identical outcomes converge silently
  else !decide (EqualAs .python branchValue mainValue)

structure BranchResourceDiff where
  key : ResourceKey
  branchChange : ResourceChange
  mainChange : ResourceChange
  hasConflict : Bool

structure BranchDiffResult where
  resources : List BranchResourceDiff
  conflicts : List BranchResourceDiff

/-- How branch and main changed one resource. -/
def classify (base branch main : ResourceMap) (key : ResourceKey) : BranchResourceDiff :=
  let branchChange := changeFor (base.get? key) (branch.get? key)
  let mainChange := changeFor (base.get? key) (main.get? key)
  { key
    branchChange
    mainChange
    hasConflict := isConflicting branchChange mainChange (branch.get? key) (main.get? key) }

def evaluateBranchDiff (base branch main : ResourceMap) : BranchDiffResult :=
  let keys := Dict.sortedSet (base.toDict.keys ++ branch.toDict.keys ++ main.toDict.keys)
  let resources := (keys.map (classify base branch main)).filter fun entry =>
    !(entry.branchChange = .unchanged && entry.mainChange = .unchanged)
  { resources, conflicts := resources.filter BranchResourceDiff.hasConflict }

/-! ### Resolutions -/

inductive ConflictResolution where
  | main
  | branch
  deriving DecidableEq

/-- Resolutions are given by the texts of a key, which need not be those of a resource. -/
abbrev Resolutions := Dict KeyTexts ConflictResolution

def unresolvedConflicts (diff : BranchDiffResult) (resolutions : Resolutions) :
    List BranchResourceDiff :=
  diff.conflicts.filter fun entry => resolutions.get? entry.key.texts = none

def unknownResolutions (diff : BranchDiffResult) (resolutions : Resolutions) :
    List KeyTexts :=
  resolutions.keys.filter fun key => key ∉ diff.conflicts.map fun entry => entry.key.texts

/-! ### The merge -/

/-- The map with the branch's value of a resource, or without the resource if it has none there. -/
def ResourceMap.take (resources branch : ResourceMap) (key : ResourceKey) : ResourceMap where
  toDict :=
    match branch.get? key with
    | none => resources.toDict.erase key
    | some value => resources.toDict.insert key value
  isResource := by
    intro key' value h
    cases hbranch : branch.get? key with
    | none =>
      rw [hbranch] at h
      simp only [Dict.get?_erase] at h
      split_ifs at h
      exact resources.isResource key' value h
    | some branchValue =>
      rw [hbranch] at h
      rcases Dict.insert_eq_some h with ⟨hkey, rfl⟩ | ⟨-, h⟩
      · rw [hkey]
        exact branch.isResource key branchValue hbranch
      · exact resources.isResource key' value h

/-- Whether main's value of a changed resource stays. -/
def keepsMain (resolutions : Resolutions) (entry : BranchResourceDiff) : Bool :=
  entry.branchChange = .unchanged ||
    entry.hasConflict && resolutions.get? entry.key.texts = some .main

def mergeBranchOntoMain (branch main : ResourceMap) (diff : BranchDiffResult)
    (resolutions : Resolutions) : ResourceMap :=
  diff.resources.foldl (fun merged entry =>
    if keepsMain resolutions entry then merged else merged.take branch entry.key) main

def definitionFromResourceMap (resources : ResourceMap) : Mapping :=
  ResourceKind.all.filterMap fun kind =>
    let items := (resources.toDict.entries.filter fun e => e.1.kind = kind).map Prod.snd
    if items ≠ [] ∨ kind.IsAlwaysPresent then some (kind.sectionName, .arr items) else none

def BranchResourceDiff.json (entry : BranchResourceDiff) : Json :=
  .obj [("kind", .str entry.key.kind.text), ("apiName", .str entry.key.apiName),
    ("branchChange", .str entry.branchChange.text), ("mainChange", .str entry.mainChange.text),
    ("hasConflict", .bool entry.hasConflict)]

/-- The merged definition; every conflict must be resolved, and nothing else may be. -/
def mergedContent (branchId : String) (base branch main : ResourceMap)
    (resolutions : Resolutions) : Checked Mapping := do
  let diff := evaluateBranchDiff base branch main
  let unresolved := unresolvedConflicts diff resolutions
  rejectIf (unresolved ≠ []) "every rebase conflict needs a resolution"
    [("branch_id", .str branchId),
      ("unresolvedConflicts", .arr (unresolved.map BranchResourceDiff.json))]
  let unknown := unknownResolutions diff resolutions
  rejectIf (unknown ≠ []) "rebase resolutions reference resources that are not in conflict"
    [("branch_id", .str branchId), ("unknownResolutions",
      .arr (unknown.map fun texts => .arr [.str texts.kind, .str texts.apiName]))]
  return definitionFromResourceMap (mergeBranchOntoMain branch main diff resolutions)

/-! ### A written definition is read back -/

section RoundTrip

variable {resources : ResourceMap}

theorem lookup_filterMap {α β γ : Type} [DecidableEq α] [BEq β] [LawfulBEq β] {name : α → β}
    (hname : Function.Injective name) (p : α → Prop) [DecidablePred p] (value : α → γ) (l : List α)
    (a : α) : (l.filterMap fun x => if p x then some (name x, value x) else none).lookup (name a)
      = if a ∈ l ∧ p a then some (value a) else none := by
  induction l with
  | nil => simp
  | cons x l ih =>
    rw [List.filterMap_cons]
    by_cases hx : p x
    · by_cases hax : a = x
      · simp [hx, hax]
      · have hne : (name a == name x) = false := beq_false_of_ne fun h => hax (hname h)
        simp [hx, List.lookup_cons, hne, ih, hax]
    · have hax : p a → a ≠ x := fun ha h => hx (h ▸ ha)
      simp only [if_neg hx, ih, List.mem_cons]
      split_ifs <;> grind

theorem sectionItems_definitionFromResourceMap (kind : ResourceKind) :
    sectionItems (definitionFromResourceMap resources) kind
      = (resources.toDict.entries.filter fun e => e.1.kind = kind).map Prod.snd := by
  rw [sectionItems, definitionFromResourceMap, lookup_filterMap ResourceKind.sectionName_injective]
  split_ifs with h
  · rfl
  · have hitems := fun hne => h ⟨kind.mem_all, .inl hne⟩
    exact (not_not.mp hitems).symm

/-- The resources read from a written definition are those that were written. -/
theorem mem_readResources_definitionFromResourceMap {e : ResourceKey × Json} :
    e ∈ readResources (definitionFromResourceMap resources) ↔ e ∈ resources.toDict.entries := by
  rw [readResources, List.mem_flatMap]
  simp only [sectionItems_definitionFromResourceMap, List.mem_filterMap, List.mem_map,
    List.mem_filter, decide_eq_true_eq]
  have hread : ∀ e ∈ resources.toDict.entries, readResource? e.1.kind e.2 = some e := fun e he =>
    resources.isResource e.1 e.2 (Dict.mem_entries_iff.mp he)
  constructor
  · rintro ⟨kind, -, item, ⟨written, ⟨hwritten, rfl⟩, rfl⟩, hitem⟩
    rw [hread written hwritten] at hitem
    exact Option.some.inj hitem ▸ hwritten
  · intro he
    exact ⟨e.1.kind, e.1.kind.mem_all, e.2, ⟨e, ⟨he, rfl⟩, rfl⟩, hread e he⟩

/-- **Round trip**: a map written as a definition is read back as it was. -/
theorem parseResourceMap_definitionFromResourceMap (resources : ResourceMap) :
    parseResourceMap (.obj (definitionFromResourceMap resources)) = resources := by
  refine ResourceMap.ext_get? fun key => Option.ext fun value => ?_
  have hmem {v : Json} : (key, v) ∈ (readResources (definitionFromResourceMap resources)).reverse ↔
      (key, v) ∈ resources.toDict.entries := by
    rw [List.mem_reverse, mem_readResources_definitionFromResourceMap]
  change (Dict.ofList _).get? key = some value ↔ resources.toDict.get? key = some value
  rw [Dict.get?_ofList, ← Dict.mem_entries_iff]
  constructor
  · intro h
    exact hmem.mp (Dict.mem_of_lookup_eq_some h)
  · intro h
    cases hlookup : (readResources (definitionFromResourceMap resources)).reverse.lookup key with
    | none =>
      have hne := List.lookup_eq_none_iff.mp hlookup _ (hmem.mpr h)
      simp at hne
    | some value' =>
      have hvalue' := hmem.mp (Dict.mem_of_lookup_eq_some hlookup)
      rw [← Dict.mem_entries_iff.mp h, ← Dict.mem_entries_iff.mp hvalue']

end RoundTrip

/-! ### The merged value of a resource -/

section Merge

variable {base branch main : ResourceMap} {key : ResourceKey} {resolutions : Resolutions}

theorem changeFor_eq_unchanged_iff {a b : Option Json} :
    changeFor a b = .unchanged ↔ EqualAs .python a b := by
  cases a with
  | none => cases b <;> simp [changeFor, EqualAs]
  | some a =>
    cases b with
    | none => simp [changeFor, EqualAs]
    | some b =>
      have hequal : EqualAs .python (some a) (some b) ↔ a.PyEq b := Option.some_inj
      rw [changeFor, hequal]
      split_ifs with h <;> simp [h]

/-- Both sides changed a resource, and not in the same way. -/
def IsConflict (base branch main : Option Json) : Prop :=
  ¬ EqualAs .python base branch ∧ ¬ EqualAs .python base main ∧ ¬ EqualAs .python branch main

instance (base branch main : Option Json) : Decidable (IsConflict base branch main) :=
  inferInstanceAs (Decidable (_ ∧ _))

theorem isConflicting_iff {b r m : Option Json} :
    isConflicting (changeFor b r) (changeFor b m) r m ↔ IsConflict b r m := by
  rw [isConflicting, IsConflict]
  simp only [changeFor_eq_unchanged_iff]
  split_ifs with h
  · rw [iff_false_left (by decide)]
    tauto
  · rw [Bool.not_eq_true', decide_eq_false_iff_not]
    tauto

/-- A resource is in the difference unless both sides left it alone. -/
theorem mem_resources_iff {entry : BranchResourceDiff} :
    entry ∈ (evaluateBranchDiff base branch main).resources ↔
      entry = classify base branch main entry.key ∧
        ¬ (entry.branchChange = .unchanged ∧ entry.mainChange = .unchanged) := by
  rw [evaluateBranchDiff, List.mem_filter, List.mem_map]
  simp only [Bool.not_eq_true', Bool.and_eq_false_iff, decide_eq_false_iff_not, Dict.mem_sortedSet]
  constructor
  · rintro ⟨⟨key, -, rfl⟩, hchanged⟩
    exact ⟨rfl, not_and_or.mpr hchanged⟩
  · rintro ⟨hentry, hchanged⟩
    refine ⟨⟨entry.key, ?_, hentry.symm⟩, not_and_or.mp hchanged⟩
    by_contra hnone
    simp only [List.mem_append, Dict.mem_keys_iff, not_or, Option.not_isSome_iff_eq_none] at hnone
    obtain ⟨⟨hbase, hbranch⟩, hmain⟩ := hnone
    rw [hentry] at hchanged
    simp [classify, ResourceMap.get?, hbase, hbranch, hmain, changeFor] at hchanged

theorem exists_mem_conflicts_iff :
    (∃ entry ∈ (evaluateBranchDiff base branch main).conflicts, entry.key = key) ↔
      IsConflict (base.get? key) (branch.get? key) (main.get? key) := by
  have hmem {entry} : entry ∈ (evaluateBranchDiff base branch main).conflicts ↔
      entry ∈ (evaluateBranchDiff base branch main).resources ∧ entry.hasConflict := List.mem_filter
  simp only [hmem, mem_resources_iff]
  constructor
  · rintro ⟨entry, ⟨⟨hentry, -⟩, hconflict⟩, rfl⟩
    rw [hentry] at hconflict
    exact isConflicting_iff.mp hconflict
  · intro h
    refine ⟨classify base branch main key, ⟨⟨rfl, fun hunchanged => ?_⟩, ?_⟩, rfl⟩
    · exact h.1 (changeFor_eq_unchanged_iff.mp hunchanged.1)
    · exact isConflicting_iff.mpr h

theorem get?_take (resources branch : ResourceMap) (key key' : ResourceKey) :
    (resources.take branch key).get? key'
      = if key' = key then branch.get? key else resources.get? key' := by
  change Dict.get? (match branch.get? key with
    | none => resources.toDict.erase key
    | some value => resources.toDict.insert key value) key' = _
  cases branch.get? key with
  | none => exact Dict.get?_erase ..
  | some value => exact Dict.get?_insert ..

/-- The branch's value is taken where some entry of the loop takes it. -/
theorem get?_foldl_take (resolutions : Resolutions) (branch main : ResourceMap)
    (entries : List BranchResourceDiff) (key : ResourceKey) :
    (entries.foldl (fun merged entry =>
      if keepsMain resolutions entry then merged else merged.take branch entry.key) main).get? key
      = if ∃ entry ∈ entries, entry.key = key ∧ ¬ keepsMain resolutions entry then branch.get? key
        else main.get? key := by
  induction entries using List.reverseRecOn with
  | nil => simp
  | append_singleton entries entry ih =>
    have hsplit : (∃ e ∈ entries ++ [entry], e.key = key ∧ ¬ keepsMain resolutions e) ↔
        (∃ e ∈ entries, e.key = key ∧ ¬ keepsMain resolutions e) ∨
          entry.key = key ∧ ¬ keepsMain resolutions entry := by
      simp only [List.mem_append, List.mem_singleton, or_and_right, exists_or, exists_eq_left]
    rw [List.foldl_concat]
    by_cases hkeeps : keepsMain resolutions entry
    · rw [if_pos hkeeps, ih]
      simp only [hsplit, hkeeps, not_true, and_false, or_false]
    · rw [if_neg hkeeps, get?_take, ih]
      simp only [hsplit, hkeeps]
      grind

/-- The value that the merge selects. -/
def selected (base branch main : Option Json) (resolution : Option ConflictResolution) :
    Option Json :=
  if EqualAs .python base branch ∨ IsConflict base branch main ∧ resolution = some .main then main
  else branch

/-- **The merged value of a resource.** -/
theorem get?_mergeBranchOntoMain (base branch main : ResourceMap) (resolutions : Resolutions)
    (key : ResourceKey) :
    (mergeBranchOntoMain branch main (evaluateBranchDiff base branch main) resolutions).get? key
      = selected (base.get? key) (branch.get? key) (main.get? key)
          (resolutions.get? key.texts) := by
  have hkeeps : keepsMain resolutions (classify base branch main key) ↔
      EqualAs .python (base.get? key) (branch.get? key) ∨
        IsConflict (base.get? key) (branch.get? key) (main.get? key) ∧
          resolutions.get? key.texts = some .main := by
    rw [keepsMain, Bool.or_eq_true, Bool.and_eq_true, decide_eq_true_iff, decide_eq_true_iff]
    exact or_congr changeFor_eq_unchanged_iff (and_congr_left' isConflicting_iff)
  have htakes : (∃ entry ∈ (evaluateBranchDiff base branch main).resources, entry.key = key ∧
      ¬ keepsMain resolutions entry) ↔
        ¬ keepsMain resolutions (classify base branch main key) := by
    simp only [mem_resources_iff]
    constructor
    · rintro ⟨entry, ⟨hentry, -⟩, rfl, htakes⟩
      rwa [← hentry]
    · intro htakes
      refine ⟨classify base branch main key, ⟨rfl, fun hunchanged => htakes ?_⟩, rfl, htakes⟩
      exact hkeeps.mpr (.inl (changeFor_eq_unchanged_iff.mp hunchanged.1))
  rw [mergeBranchOntoMain, get?_foldl_take, selected]
  simp only [htakes, hkeeps, ite_not]

/-- A merge goes through when exactly the conflicts are resolved. -/
theorem mergedContent_eq_ok_iff {branchId : String} {definition : Mapping} :
    mergedContent branchId base branch main resolutions = .ok definition ↔
      (∀ entry ∈ (evaluateBranchDiff base branch main).conflicts,
        (resolutions.get? entry.key.texts).isSome) ∧
      (∀ texts, (resolutions.get? texts).isSome →
        ∃ entry ∈ (evaluateBranchDiff base branch main).conflicts, entry.key.texts = texts) ∧
      definition = definitionFromResourceMap
        (mergeBranchOntoMain branch main (evaluateBranchDiff base branch main) resolutions) := by
  simp only [mergedContent, Except.bind_eq_ok_iff, rejectIf_eq_ok_iff]
  simp only [not_not, Except.pure_eq_ok_iff, exists_const, unresolvedConflicts, unknownResolutions,
    List.filter_eq_nil_iff, decide_eq_true_eq, Dict.mem_keys_iff, List.mem_map,
    Option.isSome_iff_ne_none, eq_comm (a := definition)]

end Merge

/-! ### The merge law -/

section Law

/-- What a merge owes to a resource, as JSON documents. -/
structure KeyLaw (base branch main result : Option Json) (resolution : Option ConflictResolution) :
    Prop where
  of_branch_unchanged : EqualAs .document base branch → EqualAs .document result main
  of_main_unchanged : EqualAs .document base main → EqualAs .document result branch
  of_same_change : EqualAs .document branch main → EqualAs .document result branch
  of_conflict : ¬ EqualAs .document base branch → ¬ EqualAs .document base main →
    ¬ EqualAs .document branch main → ∃ side, resolution = some side ∧
      EqualAs .document result (match side with | .main => main | .branch => branch)

/-- When the merge of these definitions goes through, it owes the law to every resource. -/
def MergeLaw (branchId : String) (base branch main : ResourceMap) (resolutions : Resolutions) :
    Prop :=
  ∀ definition, mergedContent branchId base branch main resolutions = .ok definition → ∀ key,
    KeyLaw (base.get? key) (branch.get? key) (main.get? key)
      ((parseResourceMap (.obj definition)).get? key) (resolutions.get? key.texts)

/-- The language's equality takes no side where the documents do not. -/
structure EqualityAgrees (base branch main : Option Json) : Prop where
  of_branch_unchanged : EqualAs .python base branch →
    EqualAs .document base branch ∨ EqualAs .document branch main
  of_main_unchanged : ¬ EqualAs .python base branch → EqualAs .python base main →
    EqualAs .document base main
  of_same_change : ¬ EqualAs .python base branch → ¬ EqualAs .python base main →
    EqualAs .python branch main → EqualAs .document branch main

variable {base branch main : Option Json} {resolution : Option ConflictResolution}

theorem EqualAs.python_of_document {a b : Option Json} (h : EqualAs .document a b) :
    EqualAs .python a b := by
  cases a with
  | none => cases b <;> simp_all [EqualAs]
  | some a =>
    cases b with
    | none => simp [EqualAs] at h
    | some b => exact congrArg some (Json.PyEq.of_same (Option.some.inj h))

/-- The value that the merge selects obeys the law exactly where the equalities agree. -/
theorem keyLaw_selected_iff (hresolved : resolution.isSome ↔ IsConflict base branch main) :
    KeyLaw base branch main (selected base branch main resolution) resolution ↔
      EqualityAgrees base branch main := by
  have hbr : EqualAs .document base branch → EqualAs .python base branch :=
    EqualAs.python_of_document
  have hbm : EqualAs .document base main → EqualAs .python base main := EqualAs.python_of_document
  have hrm : EqualAs .document branch main → EqualAs .python branch main :=
    EqualAs.python_of_document
  constructor
  · intro h
    -- a resource that is no conflict has no resolution, so two of its versions are one document
    have hconflict (hne₁ : ¬ EqualAs .document base branch) (hne₂ : ¬ EqualAs .document base main)
        (hne₃ : ¬ EqualAs .document branch main) : IsConflict base branch main := by
      obtain ⟨side, hside, -⟩ := h.of_conflict hne₁ hne₂ hne₃
      exact hresolved.mp (by rw [hside]; rfl)
    refine ⟨fun hp => ?_, fun hp hp' => ?_, fun hp hp' hp'' => ?_⟩
    · by_contra hne
      obtain ⟨hne₁, hne₃⟩ := not_or.mp hne
      have hmain := h.of_main_unchanged
      rw [selected, if_pos (.inl hp)] at hmain
      exact (hconflict hne₁ (fun hm => hne₃ (hmain hm).symm) hne₃).1 hp
    · by_contra hne
      refine (hconflict (mt hbr hp) hne fun hsame => hp ?_).2.1 hp'
      exact hp'.trans (hrm hsame).symm
    · by_contra hne
      exact (hconflict (mt hbr hp) (mt hbm hp') hne).2.2 hp''
  · intro h
    by_cases hp : EqualAs .python base branch
    · rw [selected, if_pos (.inl hp)]
      refine ⟨fun _ => rfl, fun hmain => ?_, Eq.symm, fun hne₁ _ hne₃ => ?_⟩
      · rcases h.of_branch_unchanged hp with hsame | hsame
        · exact hmain.symm.trans hsame
        · exact hsame.symm
      · exact absurd (h.of_branch_unchanged hp) (not_or.mpr ⟨hne₁, hne₃⟩)
    · by_cases hconflict : IsConflict base branch main
      · obtain ⟨side, rfl⟩ := Option.isSome_iff_exists.mp (hresolved.mpr hconflict)
        refine ⟨fun hd => absurd (hbr hd) hp, fun hd => absurd (hbm hd) hconflict.2.1,
          fun hd => absurd (hrm hd) hconflict.2.2, fun _ _ _ => ⟨side, rfl, ?_⟩⟩
        cases side with
        | main => rw [selected, if_pos (.inr ⟨hconflict, rfl⟩)]; rfl
        | branch => rw [selected, if_neg (by simp [hp])]; rfl
      · rw [selected, if_neg (not_or.mpr ⟨hp, fun hc => hconflict hc.1⟩)]
        refine ⟨fun hd => absurd (hbr hd) hp, fun _ => rfl, fun _ => rfl, fun _ hne₂ hne₃ => ?_⟩
        by_cases hp' : EqualAs .python base main
        · exact absurd (h.of_main_unchanged hp hp') hne₂
        · refine absurd (h.of_same_change hp hp' ?_) hne₃
          by_contra hp''
          exact hconflict ⟨hp, hp', hp''⟩

end Law

/-! ### When the merge obeys the law -/

section Main

variable {base branch main : ResourceMap} {resolutions : Resolutions} {branchId : String}

/-- After a merge a resource is resolved exactly when it was a conflict. -/
theorem isSome_resolution_iff {definition : Mapping} {key : ResourceKey}
    (h : mergedContent branchId base branch main resolutions = .ok definition) :
    (resolutions.get? key.texts).isSome ↔
      IsConflict (base.get? key) (branch.get? key) (main.get? key) := by
  obtain ⟨hresolved, hknown, -⟩ := mergedContent_eq_ok_iff.mp h
  rw [← exists_mem_conflicts_iff]
  constructor
  · intro hsome
    obtain ⟨entry, hentry, htexts⟩ := hknown _ hsome
    exact ⟨entry, hentry, ResourceKey.texts_injective htexts⟩
  · rintro ⟨entry, hentry, rfl⟩
    exact hresolved entry hentry

/-- What a merge that goes through makes of a resource. -/
theorem get?_mergedContent {definition : Mapping}
    (h : mergedContent branchId base branch main resolutions = .ok definition)
    (key : ResourceKey) : (parseResourceMap (.obj definition)).get? key
      = selected (base.get? key) (branch.get? key) (main.get? key)
          (resolutions.get? key.texts) := by
  obtain ⟨-, -, rfl⟩ := mergedContent_eq_ok_iff.mp h
  rw [parseResourceMap_definitionFromResourceMap, get?_mergeBranchOntoMain]

/-- Resolving every conflict for main lets a merge go through. -/
theorem exists_mergedContent_eq_ok (branchId : String) (base branch main : ResourceMap) :
    ∃ resolutions definition, mergedContent branchId base branch main resolutions = .ok definition := by
  let conflicts := (evaluateBranchDiff base branch main).conflicts
  let bindings := conflicts.map fun entry => (entry.key.texts, ConflictResolution.main)
  have hlookup {texts} : ((Dict.ofList bindings).get? texts).isSome ↔
      ∃ entry ∈ conflicts, entry.key.texts = texts := by
    rw [Dict.get?_ofList, List.lookup_isSome_iff]
    simp only [bindings, List.mem_map, exists_exists_and_eq_and, beq_iff_eq]
    exact exists_congr fun entry => and_congr_right fun _ => eq_comm
  refine ⟨Dict.ofList bindings, _, mergedContent_eq_ok_iff.mpr ⟨fun entry hentry => ?_,
    fun texts => hlookup.mp, rfl⟩⟩
  exact hlookup.mpr ⟨entry, hentry, rfl⟩

/-- **The merge law holds of three definitions**, whatever the resolutions, exactly when the
language's equality agrees with the documents at each resource. -/
theorem mergeLaw_iff (branchId : String) (base branch main : ResourceMap) :
    (∀ resolutions, MergeLaw branchId base branch main resolutions) ↔
      ∀ key, EqualityAgrees (base.get? key) (branch.get? key) (main.get? key) := by
  constructor
  · intro h key
    obtain ⟨resolutions, definition, hmerged⟩ :=
      exists_mergedContent_eq_ok branchId base branch main
    have hlaw := h resolutions definition hmerged key
    rw [get?_mergedContent hmerged] at hlaw
    exact (keyLaw_selected_iff (isSome_resolution_iff hmerged)).mp hlaw
  · intro h resolutions definition hmerged key
    rw [get?_mergedContent hmerged]
    exact (keyLaw_selected_iff (isSome_resolution_iff hmerged)).mpr (h key)

end Main

/-! ### A change the merge does not see -/

/-- An object type whose row policy compares a property with a literal. -/
def ticketDefinition (literal : Json) : Json :=
  .obj [("objectTypes", .arr [.obj [("apiName", .str "Ticket"), ("rowPolicy",
    .obj [("op", .str "eq"), ("property", .str "flag"), ("value", literal)])]]),
    ("linkTypes", .arr []), ("actionTypes", .arr [])]

/-- The branch turns `1` into `true`, main is as it was, and the merge keeps main's value. -/
theorem not_mergeLaw_ticket : ¬ MergeLaw "branch" (parseResourceMap (ticketDefinition (.int 1)))
    (parseResourceMap (ticketDefinition (.bool true)))
    (parseResourceMap (ticketDefinition (.int 1))) ∅ := by
  intro h
  have hmerged : mergedContent "branch" (parseResourceMap (ticketDefinition (.int 1)))
      (parseResourceMap (ticketDefinition (.bool true)))
      (parseResourceMap (ticketDefinition (.int 1))) ∅ =
    .ok (definitionFromResourceMap (parseResourceMap (ticketDefinition (.int 1)))) := by
    rfl
  have hlaw := h _ hmerged ⟨.objectType, "Ticket"⟩
  rw [parseResourceMap_definitionFromResourceMap] at hlaw
  exact absurd (hlaw.of_main_unchanged rfl) (by decide)

end FoundryLite.Ontology
