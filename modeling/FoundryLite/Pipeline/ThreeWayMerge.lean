import FoundryLite.Library.Json

/-!
# The three-way merge of pipeline graphs

When a pipeline branch is rebased, its graph (`ours`) and the latest published graph (`theirs`)
are merged against the graph the branch started from (`base`). The merge is a walk over the three
documents in step: at every position it looks at three values, each of which may be absent, and
takes one of them whole, descends into the members or the identified items of all three, or
reports a conflict.

The deletion sentinel of the source is compared by identity and is equal to nothing but itself, so
an absent value is `none` here and the three values of a position are `Option Json`s. Values are
compared with Python's `==` (`Json.PyEq`), under which `True == 1`.

## Main results

* `isKeyedListPath_iff`: the two positions whose lists are merged by item id.
* `Position.merged_of_takesWhole`, `merged_mapping`, `merged_keyedList`, `merged_unmergeable`: the
  four things the walk can do at a position, and `Position.walk_induction` along them.
* `Position.field_merged`, `Position.keyedList_merged`: what the merged containers hold.
-/

namespace FoundryLite.Pipeline

/-! ### Positions -/

/-- A step of the walk: into a member of an object, or to an identified item of a list. -/
inductive PathStep where
  | field (key : String)
  | item (id : String)
  deriving DecidableEq

/-- A position of a document: the steps that lead to it from the root. -/
abbrev MergePath := List PathStep

/-- The text a step adds to the path of its parent. -/
def PathStep.text : PathStep → String
  | .field key => "." ++ key
  | .item id => "[" ++ id ++ "]"

/-- The path text the source carries along the walk. -/
def pathText (path : MergePath) : String :=
  path.foldl (fun text step => text ++ step.text) "$"

/-- The lists merged item by item are the two at the top of the document. -/
def isKeyedListPath (path : MergePath) : Bool :=
  pathText path == "$.nodes" || pathText path == "$.edges"

inductive MergeConflictKind where
  | documentShape
  | concurrentChange
  | missingItemIdentity
  deriving DecidableEq

/-- A conflict where the walk meets it. -/
structure MergeConflict where
  path : MergePath
  kind : MergeConflictKind
  deriving DecidableEq

/-- A conflict as it is reported: the position as text. -/
structure PipelineGraphMergeConflict where
  path : String
  kind : MergeConflictKind
  deriving DecidableEq

structure PipelineGraphMergeResult where
  graph : Json
  conflicts : List PipelineGraphMergeConflict

/-- What the walk makes of one position: the merged value, absent where nothing is left, and the
conflicts met there and below, in the order in which they are met. -/
structure Merged where
  value : Option Json
  conflicts : List MergeConflict

/-! ### Reading the three values -/

/-- Python's `==` on possibly absent values. -/
def pyEqual (a b : Option Json) : Bool := a.map (Json.norm .python) = b.map (Json.norm .python)

/-- The string id of a list item. -/
def itemId : Json → Option String
  | .obj fields =>
    match fields.lookup "id" with
    | some (.str id) => some id
    | _ => none
  | _ => none

/-- The items of a list by id. Items are assigned in order, so that of several items with one id
the last is read; an item without a string id makes the list unreadable. -/
def keyedItems : Option Json → Option (List (String × Json))
  | none => some []
  | some (.arr items) => (items.mapM fun item => (itemId item).map (·, item)).map List.reverse
  | some _ => none

def mappingOrEmpty : Option Json → List (String × Json)
  | some (.obj fields) => fields
  | _ => []

def isMapping : Option Json → Bool
  | some (.obj _) => true
  | _ => false

def isList : Option Json → Bool
  | some (.arr _) => true
  | _ => false

def areMappings (base ours theirs : Option Json) : Bool :=
  (base.isNone || isMapping base) && isMapping ours && isMapping theirs

def areLists (base ours theirs : Option Json) : Bool :=
  (base.isNone || isList base) && isList ours && isList theirs

/-- All keys of the three dictionaries, each once, in increasing order. -/
def mergedKeys (base ours theirs : List (String × Json)) : List String :=
  (Dict.canon (base ++ ours ++ theirs)).map Prod.fst

/-! ### The walk -/

/-- Merge three dictionaries key by key; `mergeChild` is the walk at a key. -/
def mergeMapping (base ours theirs : List (String × Json)) (mergeChild : String → Merged) :
    Merged where
  value := some (.obj ((mergedKeys base ours theirs).filterMap fun key =>
    (mergeChild key).value.map (key, ·)))
  conflicts := (mergedKeys base ours theirs).flatMap fun key => (mergeChild key).conflicts

/-- Merge three lists of identified items id by id; `mergeChild` is the walk at an id. -/
def mergeKeyedList (base ours theirs : List (String × Json)) (mergeChild : String → Merged) :
    Merged where
  value := some (.arr ((mergedKeys base ours theirs).filterMap fun id => (mergeChild id).value))
  conflicts := (mergedKeys base ours theirs).flatMap fun id => (mergeChild id).conflicts

theorem sizeOf_lookup_mappingOrEmpty_lt {v : Option Json} (h : isMapping v) (k : String) :
    sizeOf ((mappingOrEmpty v).lookup k) < sizeOf v := by
  match v, h with
  | some (.obj fields), _ =>
    simp only [mappingOrEmpty]
    cases hk : fields.lookup k with
    | none => simp only [Option.some.sizeOf_spec, Option.none.sizeOf_spec, Json.obj.sizeOf_spec]; omega
    | some w =>
      have := Dict.sizeOf_lookup_lt hk
      simp only [Option.some.sizeOf_spec, Json.obj.sizeOf_spec]
      omega

theorem mem_of_mapM_lookup {items : List Json} {keyed : List (String × Json)}
    (h : (items.mapM fun item => (itemId item).map (·, item)) = some keyed) {e : String × Json}
    (he : e ∈ keyed) : e.2 ∈ items ∧ itemId e.2 = some e.1 := by
  induction items generalizing keyed with
  | nil =>
    obtain rfl : [] = keyed := by simpa using h
    simp at he
  | cons x items ih =>
    obtain ⟨id, hid, rest, hrest, rfl⟩ : ∃ id, itemId x = some id ∧ ∃ rest,
        (items.mapM fun item => (itemId item).map (·, item)) = some rest ∧
          (id, x) :: rest = keyed := by
      simpa [List.mapM_cons, Option.bind_eq_some_iff] using h
    rcases List.mem_cons.mp he with rfl | he
    · exact ⟨List.mem_cons_self, hid⟩
    · obtain ⟨hmem, heq⟩ := ih hrest he
      exact ⟨List.mem_cons_of_mem _ hmem, heq⟩

/-- An item read by id is an item of the list, and carries that id. -/
theorem mem_of_lookup_keyedItems {v : Option Json} {keyed : List (String × Json)}
    (h : keyedItems v = some keyed) {id : String} {item : Json}
    (hid : keyed.lookup id = some item) :
    itemId item = some id ∧ ∃ items, v = some (.arr items) ∧ item ∈ items := by
  match v, h with
  | none, h =>
    obtain rfl : [] = keyed := by simpa [keyedItems] using h
    simp at hid
  | some (.arr items), h =>
    obtain ⟨pairs, hpairs, rfl⟩ : ∃ pairs,
        (items.mapM fun item => (itemId item).map (·, item)) = some pairs ∧
          pairs.reverse = keyed := by simpa [keyedItems] using h
    obtain ⟨l₁, l₂, hl, -⟩ := List.lookup_eq_some_iff.mp hid
    have hmem : (id, item) ∈ pairs := List.mem_reverse.mp (by simp [hl])
    obtain ⟨hin, hitem⟩ := mem_of_mapM_lookup hpairs hmem
    exact ⟨hitem, items, rfl, hin⟩

theorem sizeOf_lookup_keyedItems_lt {v : Option Json} {keyed : List (String × Json)}
    (h : keyedItems v = some keyed) (hl : isList v) (id : String) :
    sizeOf (keyed.lookup id) < sizeOf v := by
  cases hid : keyed.lookup id with
  | none =>
    match v, hl with
    | some (.arr _), _ =>
      simp only [Option.some.sizeOf_spec, Option.none.sizeOf_spec, Json.arr.sizeOf_spec]; omega
  | some item =>
    obtain ⟨-, items, rfl, hmem⟩ := mem_of_lookup_keyedItems h hid
    have := List.sizeOf_lt_of_mem hmem
    simp only [Option.some.sizeOf_spec, Json.arr.sizeOf_spec]
    omega

/-- The walk from one position down. -/
def mergeValue (base ours theirs : Option Json) (path : MergePath) : Merged :=
  if pyEqual ours theirs then ⟨ours, []⟩
  else if pyEqual ours base then ⟨theirs, []⟩
  else if pyEqual theirs base then ⟨ours, []⟩
  else if hm : areMappings base ours theirs then
    mergeMapping (mappingOrEmpty base) (mappingOrEmpty ours) (mappingOrEmpty theirs) fun key =>
      mergeValue ((mappingOrEmpty base).lookup key) ((mappingOrEmpty ours).lookup key)
        ((mappingOrEmpty theirs).lookup key) (path ++ [.field key])
  else if _hl : isKeyedListPath path && areLists base ours theirs then
    match keyedItems base, ho : keyedItems ours, keyedItems theirs with
    | some baseItems, some oursItems, some theirsItems =>
      mergeKeyedList baseItems oursItems theirsItems fun id =>
        mergeValue (baseItems.lookup id) (oursItems.lookup id) (theirsItems.lookup id)
          (path ++ [.item id])
    | _, _, _ => ⟨ours, [⟨path, .missingItemIdentity⟩]⟩
  else ⟨ours, [⟨path, .concurrentChange⟩]⟩
termination_by sizeOf ours
decreasing_by
  · simp only [areMappings, Bool.and_eq_true] at hm
    exact sizeOf_lookup_mappingOrEmpty_lt hm.1.2 key
  · simp only [areLists, Bool.and_eq_true] at _hl
    exact sizeOf_lookup_keyedItems_lt ho _hl.2.1.2 id

/-- Keep the first of several conflicts with one path text and kind. -/
def dedupeConflicts (conflicts : List PipelineGraphMergeConflict) :
    List PipelineGraphMergeConflict :=
  conflicts.foldl (fun result conflict =>
    if conflict ∈ result then result else result ++ [conflict]) []

def MergeConflict.report (conflict : MergeConflict) : PipelineGraphMergeConflict :=
  ⟨pathText conflict.path, conflict.kind⟩

/-- **Merge `ours` and `theirs` against `base`.** -/
def mergePipelineGraphs (base ours theirs : Json) : PipelineGraphMergeResult :=
  let merged := mergeValue (some base) (some ours) (some theirs) []
  match merged.value with
  | some (.obj fields) =>
    ⟨.obj fields, dedupeConflicts (merged.conflicts.map MergeConflict.report)⟩
  | _ => ⟨ours, dedupeConflicts
      ((merged.conflicts ++ [(⟨[], .documentShape⟩ : MergeConflict)]).map MergeConflict.report)⟩

/-! ### Path texts -/

theorem toList_pathText (path : MergePath) :
    (pathText path).toList = '$' :: path.flatMap fun step => step.text.toList := by
  have hfold : ∀ text : String, (path.foldl (fun text step => text ++ step.text) text).toList =
      text.toList ++ path.flatMap fun step => step.text.toList := by
    induction path with
    | nil => simp
    | cons step path ih =>
      intro text
      rw [List.foldl_cons, ih, String.toList_append, List.flatMap_cons, List.append_assoc]
  exact hfold "$"

/-- A path text with no separator after its first step is the text of a path of one step. -/
private theorem eq_singleton_of_flatMap_eq {name : String} (h₁ : '.' ∉ name.toList)
    (h₂ : '[' ∉ name.toList) {path : MergePath}
    (h : (path.flatMap fun step => step.text.toList) = '.' :: name.toList) :
    path = [.field name] := by
  match path with
  | [] => simp at h
  | .item id :: rest => simp [PathStep.text] at h
  | .field key :: rest =>
    have hrest : rest = [] := by
      match rest with
      | [] => rfl
      | .field k :: _ =>
        refine absurd ?_ h₁
        simp only [PathStep.text, List.flatMap_cons, String.toList_append] at h
        have := (List.cons.inj h).2
        rw [← this]
        simp
      | .item k :: _ =>
        refine absurd ?_ h₂
        simp only [PathStep.text, List.flatMap_cons, String.toList_append] at h
        have := (List.cons.inj h).2
        rw [← this]
        simp
    subst hrest
    have hkey : key.toList = name.toList := by simpa [PathStep.text] using h
    rw [String.toList_injective hkey]

/-- The lists merged by id are the `nodes` and the `edges` of the document, and no others. -/
theorem isKeyedListPath_iff {path : MergePath} :
    isKeyedListPath path ↔ path = [.field "nodes"] ∨ path = [.field "edges"] := by
  have htext : ∀ name : String, '.' ∉ name.toList → '[' ∉ name.toList →
      (pathText path = "$." ++ name ↔ path = [.field name]) := by
    intro name h₁ h₂
    constructor
    · intro h
      have := congrArg String.toList h
      rw [toList_pathText, String.toList_append] at this
      exact eq_singleton_of_flatMap_eq h₁ h₂ (List.cons.inj this).2
    · rintro rfl
      exact String.toList_injective (by simp [toList_pathText, PathStep.text])
  rw [isKeyedListPath, Bool.or_eq_true, beq_iff_eq, beq_iff_eq,
    ← htext "nodes" (by decide) (by decide), ← htext "edges" (by decide) (by decide)]
  rfl

/-! ### What the walk does at a position

At every position exactly one of four things happens: a side is taken whole, three mappings are
merged key by key, three lists are merged id by id, or a conflict is reported. -/

/-- The member of a mapping, absent for anything that is not a mapping. -/
def field (key : String) (value : Option Json) : Option Json := (mappingOrEmpty value).lookup key

/-- The item a keyed list is read to hold for an id. -/
def item (id : String) (value : Option Json) : Option Json :=
  ((keyedItems value).getD []).lookup id

/-- What the walk sees at one position: the path, and the three values found there. -/
structure Position where
  path : MergePath
  base : Option Json
  ours : Option Json
  theirs : Option Json

namespace Position

/-- What the walk makes of the position. -/
def merged (x : Position) : Merged := mergeValue x.base x.ours x.theirs x.path

/-- The position of a member. -/
def field (key : String) (x : Position) : Position :=
  ⟨x.path ++ [.field key], Pipeline.field key x.base, Pipeline.field key x.ours,
    Pipeline.field key x.theirs⟩

/-- The position of an identified item. -/
def item (id : String) (x : Position) : Position :=
  ⟨x.path ++ [.item id], Pipeline.item id x.base, Pipeline.item id x.ours,
    Pipeline.item id x.theirs⟩

/-- The side Python's `==` makes the walk take whole, if it does. -/
def takesWhole (x : Position) : Option (Option Json) :=
  if pyEqual x.ours x.theirs then some x.ours
  else if pyEqual x.ours x.base then some x.theirs
  else if pyEqual x.theirs x.base then some x.ours
  else none

/-- The three values are mappings, that of the base possibly absent. -/
abbrev AreMappings (x : Position) : Prop := areMappings x.base x.ours x.theirs

/-- The three values are lists that are merged by item id. -/
def AreKeyedLists (x : Position) : Prop :=
  isKeyedListPath x.path ∧ areLists x.base x.ours x.theirs ∧
    (keyedItems x.base).isSome ∧ (keyedItems x.ours).isSome ∧ (keyedItems x.theirs).isSome

variable {x : Position} {side : Option Json}

/-- Nothing is taken whole exactly when the three values are pairwise unequal. -/
theorem takesWhole_eq_none_iff : x.takesWhole = none ↔
    ¬pyEqual x.ours x.theirs ∧ ¬pyEqual x.ours x.base ∧ ¬pyEqual x.theirs x.base := by
  rw [takesWhole]
  split_ifs <;> simp_all

theorem takesWhole_of_ours_eq_theirs (h : x.ours = x.theirs) : x.takesWhole = some x.ours := by
  rw [takesWhole, if_pos (by simp [pyEqual, h])]

theorem side_eq_of_takesWhole (h : x.takesWhole = some side) :
    side = x.ours ∨ side = x.theirs := by
  rw [takesWhole] at h
  split_ifs at h <;> simp_all

theorem merged_of_takesWhole (h : x.takesWhole = some side) : x.merged = ⟨side, []⟩ := by
  rw [takesWhole] at h
  rw [merged, mergeValue]
  split_ifs at h with h₁ h₂ h₃
  · obtain rfl := Option.some.inj h
    rw [if_pos h₁]
  · obtain rfl := Option.some.inj h
    rw [if_neg h₁, if_pos h₂]
  · obtain rfl := Option.some.inj h
    rw [if_neg h₁, if_neg h₂, if_pos h₃]

theorem merged_of_absent (ho : x.ours = none) (ht : x.theirs = none) :
    x.merged = ⟨none, []⟩ := by
  rw [merged_of_takesWhole (takesWhole_of_ours_eq_theirs (ho.trans ht.symm)), ho]

theorem merged_mapping (h : x.takesWhole = none) (hm : x.AreMappings) : x.merged =
    mergeMapping (mappingOrEmpty x.base) (mappingOrEmpty x.ours) (mappingOrEmpty x.theirs)
      fun key => (x.field key).merged := by
  obtain ⟨h₁, h₂, h₃⟩ := takesWhole_eq_none_iff.mp h
  rw [merged, mergeValue, if_neg h₁, if_neg h₂, if_neg h₃, dif_pos hm]
  rfl

theorem not_areMappings_of_areKeyedLists (h : x.AreKeyedLists) : ¬x.AreMappings := by
  intro hm
  obtain ⟨-, hl, -⟩ := h
  simp only [AreMappings, areLists, areMappings, Bool.and_eq_true] at hl hm
  cases ho : x.ours with
  | none => simp [ho, isMapping] at hm
  | some j => cases j <;> simp_all [isMapping, isList]

theorem merged_keyedList (h : x.takesWhole = none) (hl : x.AreKeyedLists) : x.merged =
    mergeKeyedList ((keyedItems x.base).getD []) ((keyedItems x.ours).getD [])
      ((keyedItems x.theirs).getD []) fun id => (x.item id).merged := by
  obtain ⟨h₁, h₂, h₃⟩ := takesWhole_eq_none_iff.mp h
  have hm := not_areMappings_of_areKeyedLists hl
  obtain ⟨hp, hl, hb, ho, ht⟩ := hl
  obtain ⟨b, hb⟩ := Option.isSome_iff_exists.mp hb
  obtain ⟨o, ho⟩ := Option.isSome_iff_exists.mp ho
  obtain ⟨t, ht⟩ := Option.isSome_iff_exists.mp ht
  rw [merged, mergeValue, if_neg h₁, if_neg h₂, if_neg h₃, dif_neg hm,
    dif_pos (by simpa using ⟨hp, hl⟩)]
  split
  · simp_all [item, Pipeline.item, merged]
  · simp_all

/-- The kind of conflict a position without a mergeable container is reported with. -/
def unmergeableKind (x : Position) : MergeConflictKind :=
  if isKeyedListPath x.path && areLists x.base x.ours x.theirs then .missingItemIdentity
  else .concurrentChange

theorem merged_unmergeable (h : x.takesWhole = none) (hm : ¬x.AreMappings)
    (hl : ¬x.AreKeyedLists) : x.merged = ⟨x.ours, [⟨x.path, x.unmergeableKind⟩]⟩ := by
  obtain ⟨h₁, h₂, h₃⟩ := takesWhole_eq_none_iff.mp h
  rw [merged, mergeValue, if_neg h₁, if_neg h₂, if_neg h₃, dif_neg hm, unmergeableKind]
  split_ifs with hlists
  · split
    · simp_all [AreKeyedLists]
    · rfl
  · rfl

/-- **Induction along the walk**, with one case for each thing it does at a position. -/
theorem walk_induction {motive : Position → Prop}
    (whole : ∀ x side, takesWhole x = some side → motive x)
    (mapping : ∀ x, takesWhole x = none → AreMappings x → (∀ key, motive (field key x)) →
      motive x)
    (keyedList : ∀ x, takesWhole x = none → AreKeyedLists x → (∀ id, motive (item id x)) →
      motive x)
    (unmergeable : ∀ x, takesWhole x = none → ¬AreMappings x → ¬AreKeyedLists x → motive x)
    (x : Position) : motive x := by
  obtain ⟨p, b, o, t⟩ := x
  induction b, o, t, p using mergeValue.induct with
  | case1 b o t p h₁ => exact whole ⟨p, b, o, t⟩ o (by rw [takesWhole, if_pos h₁])
  | case2 b o t p h₁ h₂ =>
    exact whole ⟨p, b, o, t⟩ t (by rw [takesWhole, if_neg h₁, if_pos h₂])
  | case3 b o t p h₁ h₂ h₃ =>
    exact whole ⟨p, b, o, t⟩ o (by rw [takesWhole, if_neg h₁, if_neg h₂, if_pos h₃])
  | case4 b o t p h₁ h₂ h₃ hm ih =>
    exact mapping ⟨p, b, o, t⟩ (takesWhole_eq_none_iff.mpr ⟨h₁, h₂, h₃⟩) hm ih
  | case5 b o t p h₁ h₂ h₃ hm hl bs os ts ho ht hb ih =>
    refine keyedList ⟨p, b, o, t⟩ (takesWhole_eq_none_iff.mpr ⟨h₁, h₂, h₃⟩) ?_ fun id => ?_
    · simp_all [AreKeyedLists]
    · simpa [item, Pipeline.item, hb, ho, ht] using ih id
  | case6 b o t p h₁ h₂ h₃ hm hl hkeyed =>
    refine unmergeable ⟨p, b, o, t⟩ (takesWhole_eq_none_iff.mpr ⟨h₁, h₂, h₃⟩) hm ?_
    rintro ⟨-, -, hb, ho, ht⟩
    obtain ⟨bs, hb⟩ := Option.isSome_iff_exists.mp hb
    obtain ⟨os, ho⟩ := Option.isSome_iff_exists.mp ho
    obtain ⟨ts, ht⟩ := Option.isSome_iff_exists.mp ht
    exact hkeyed bs os ts hb ho ht
  | case7 b o t p h₁ h₂ h₃ hm hl =>
    refine unmergeable ⟨p, b, o, t⟩ (takesWhole_eq_none_iff.mpr ⟨h₁, h₂, h₃⟩) hm ?_
    rintro ⟨hp, hlists, -⟩
    exact hl (by simpa using ⟨hp, hlists⟩)

end Position

/-! ### The contents of merged containers -/

theorem mem_mergedKeys {b o t : List (String × Json)} {k : String} :
    k ∈ mergedKeys b o t ↔ b.lookup k ≠ none ∨ o.lookup k ≠ none ∨ t.lookup k ≠ none := by
  have hkeys : k ∈ mergedKeys b o t ↔ ((Dict.canon (b ++ o ++ t)).lookup k).isSome := by
    rw [mergedKeys, List.lookup_isSome_iff, List.mem_map]
    exact exists_congr fun e => and_congr_right fun _ => by rw [beq_iff_eq, eq_comm]
  rw [hkeys, Dict.lookup_canon, List.lookup_append, List.lookup_append]
  cases b.lookup k <;> cases o.lookup k <;> cases t.lookup k <;> simp

theorem nodup_mergedKeys (b o t : List (String × Json)) : (mergedKeys b o t).Nodup := by
  rw [mergedKeys, List.nodup_iff_pairwise_ne, List.pairwise_map]
  exact (Dict.sorted_canon _).imp fun h => h.ne

theorem lookup_filterMap_key {β : Type*} (f : String → Option β) (keys : List String)
    (k : String) : (keys.filterMap fun key => (f key).map (key, ·)).lookup k =
      if k ∈ keys then f k else none := by
  induction keys with
  | nil => rfl
  | cons key keys ih =>
    cases hf : f key with
    | none =>
      rw [List.filterMap_cons_none (by simp [hf]), ih]
      by_cases hk : k = key
      · subst hk
        simp [hf]
      · simp [hk]
    | some v =>
      rw [List.filterMap_cons_some (b := (key, v)) (by simp [hf]), Dict.lookup_cons_ite, ih]
      by_cases hk : k = key
      · subst hk
        simp [hf]
      · simp [hk]

/-- The items of a list that carry an id, in list order. -/
def itemsWithId (id : String) (items : List Json) : List Json :=
  items.filter fun item => itemId item = some id

def listItems : Option Json → List Json
  | some (.arr items) => items
  | _ => []

theorem mapM_itemId_isSome_iff {items : List Json} :
    (items.mapM fun item => (itemId item).map (·, item)).isSome ↔
      ∀ item ∈ items, (itemId item).isSome := by
  induction items with
  | nil => simp
  | cons x items ih =>
    cases hx : itemId x with
    | none => simp [hx]
    | some id =>
      rw [List.forall_mem_cons, ← ih]
      cases hrest : items.mapM fun item => (itemId item).map (·, item) <;> simp [hx, hrest]

theorem lookup_reverse_mapM {items : List Json} {keyed : List (String × Json)}
    (h : (items.mapM fun item => (itemId item).map (·, item)) = some keyed) (id : String) :
    keyed.reverse.lookup id = (itemsWithId id items).getLast? := by
  induction items generalizing keyed with
  | nil =>
    obtain rfl : [] = keyed := by simpa using h
    rfl
  | cons x items ih =>
    obtain ⟨k, hk, rest, hrest, rfl⟩ : ∃ k, itemId x = some k ∧ ∃ rest,
        (items.mapM fun item => (itemId item).map (·, item)) = some rest ∧
          (k, x) :: rest = keyed := by
      simpa [List.mapM_cons, Option.bind_eq_some_iff] using h
    have hcons : itemsWithId id (x :: items) =
        if k = id then x :: itemsWithId id items else itemsWithId id items := by
      simp [itemsWithId, List.filter_cons, hk]
    rw [List.reverse_cons, List.lookup_append, ih hrest, hcons, Dict.lookup_cons_ite]
    by_cases hid : k = id
    · rw [if_pos hid.symm, if_pos hid, List.getLast?_cons]
      cases (itemsWithId id items).getLast? <;> rfl
    · rw [if_neg (Ne.symm hid), if_neg hid, List.lookup_nil, Option.or_none]

/-- The item read for an id is the last one that carries it. -/
theorem item_eq_getLast? {value : Option Json} (h : (keyedItems value).isSome) (id : String) :
    item id value = (itemsWithId id (listItems value)).getLast? := by
  match value with
  | none => rfl
  | some (.arr items) =>
    obtain ⟨keyed, hkeyed⟩ := Option.isSome_iff_exists.mp h
    obtain ⟨pairs, hpairs, rfl⟩ : ∃ pairs,
        (items.mapM fun item => (itemId item).map (·, item)) = some pairs ∧
          pairs.reverse = keyed := by simpa [keyedItems] using hkeyed
    rw [item, hkeyed, Option.getD_some, lookup_reverse_mapM hpairs, listItems]

theorem itemId_of_item {value : Option Json} {id : String} {j : Json}
    (h : item id value = some j) : itemId j = some id := by
  rw [item] at h
  cases hk : keyedItems value with
  | none => simp [hk] at h
  | some keyed => exact (mem_of_lookup_keyedItems hk (by simpa [hk] using h)).1

theorem itemId_eq_some_iff {j : Json} {id : String} :
    itemId j = some id ↔ isMapping (some j) ∧ field "id" (some j) = some (.str id) := by
  match j with
  | .obj fields =>
    simp only [itemId, isMapping, field, mappingOrEmpty, true_and]
    split <;> simp_all
  | .null | .bool _ | .int _ | .float _ | .str _ | .arr _ => simp [itemId, isMapping]

theorem itemsWithId_filterMap {f : String → Option Json}
    (hf : ∀ id j, f id = some j → itemId j = some id) {ids : List String} (hids : ids.Nodup)
    (id : String) : itemsWithId id (ids.filterMap f) = if id ∈ ids then (f id).toList else [] := by
  induction ids with
  | nil => rfl
  | cons k ids ih =>
    obtain ⟨hk, hids⟩ := List.nodup_cons.mp hids
    cases hfk : f k with
    | none =>
      rw [List.filterMap_cons_none hfk, ih hids]
      by_cases hid : id = k
      · subst hid
        simp [hk, hfk]
      · simp [hid]
    | some j =>
      rw [List.filterMap_cons_some hfk, itemsWithId, List.filter_cons, ← itemsWithId, ih hids,
        hf k j hfk]
      by_cases hid : id = k
      · subst hid
        simp [hk, hfk]
      · simp [hid, Ne.symm hid]

namespace Position

variable {x : Position}

/-- **A merged mapping holds at each key what the walk makes of that key.** -/
theorem field_merged (h : x.takesWhole = none) (hm : x.AreMappings) (key : String) :
    Pipeline.field key x.merged.value = (x.field key).merged.value := by
  rw [merged_mapping h hm, mergeMapping]
  simp only [Pipeline.field, mappingOrEmpty]
  rw [lookup_filterMap_key]
  split_ifs with hk
  · rfl
  · rw [mem_mergedKeys] at hk
    push Not at hk
    rw [merged_of_absent hk.2.1 hk.2.2]

theorem isMapping_merged (h : x.takesWhole = none) (hm : x.AreMappings) :
    isMapping x.merged.value := by
  rw [merged_mapping h hm]
  rfl

/-- Merging items that carry an id gives an item that carries it. -/
theorem itemId_merged {id : String} (ho : ∀ j, x.ours = some j → itemId j = some id)
    (ht : ∀ j, x.theirs = some j → itemId j = some id) {j : Json}
    (hj : x.merged.value = some j) : itemId j = some id := by
  cases h : x.takesWhole with
  | some side =>
    rw [merged_of_takesWhole h] at hj
    rcases side_eq_of_takesWhole h with rfl | rfl
    · exact ho j hj
    · exact ht j hj
  | none =>
    by_cases hm : x.AreMappings
    · have hmap : isMapping x.ours ∧ isMapping x.theirs := by
        simp only [AreMappings, areMappings, Bool.and_eq_true] at hm
        exact ⟨hm.1.2, hm.2⟩
      obtain ⟨o, hox⟩ : ∃ o, x.ours = some o := by cases hox : x.ours <;> simp_all [isMapping]
      obtain ⟨t, htx⟩ : ∃ t, x.theirs = some t := by
        cases htx : x.theirs <;> simp_all [isMapping]
      have hido : (x.field "id").ours = some (.str id) := by
        rw [field, hox]
        exact (itemId_eq_some_iff.mp (ho o hox)).2
      have hidt : (x.field "id").theirs = some (.str id) := by
        rw [field, htx]
        exact (itemId_eq_some_iff.mp (ht t htx)).2
      refine itemId_eq_some_iff.mpr ⟨hj ▸ isMapping_merged h hm, ?_⟩
      rw [← hj, field_merged h hm,
        merged_of_takesWhole (takesWhole_of_ours_eq_theirs (hido.trans hidt.symm)), hido]
    · by_cases hl : x.AreKeyedLists
      · obtain ⟨-, hlist, -⟩ := hl
        simp only [areLists, Bool.and_eq_true] at hlist
        cases hox : x.ours with
        | none => simp [hox, isList] at hlist
        | some o =>
          have := ho o hox
          cases o <;> simp_all [itemId, isList]
      · rw [merged_unmergeable h hm hl] at hj
        exact ho j hj

/-- **A merged list holds for each id the one item the walk makes of that id.** -/
theorem keyedList_merged (h : x.takesWhole = none) (hl : x.AreKeyedLists) :
    ∃ items, x.merged.value = some (.arr items) ∧ (∀ item ∈ items, (itemId item).isSome) ∧
      ∀ id, itemsWithId id items = (x.item id).merged.value.toList := by
  rw [merged_keyedList h hl, mergeKeyedList]
  have hf : ∀ id j, (x.item id).merged.value = some j → itemId j = some id := fun id j hj =>
    itemId_merged (fun _ => itemId_of_item) (fun _ => itemId_of_item) hj
  refine ⟨_, rfl, fun y hy => ?_, fun id => ?_⟩
  · obtain ⟨id, -, hy⟩ := List.mem_filterMap.mp hy
    rw [hf id y hy, Option.isSome_some]
  · rw [itemsWithId_filterMap hf (nodup_mergedKeys _ _ _)]
    split_ifs with hid
    · rfl
    · rw [mem_mergedKeys] at hid
      push Not at hid
      rw [merged_of_absent hid.2.1 hid.2.2]
      rfl

end Position

/-! ### The reported result -/

theorem mem_dedupeConflicts {conflict : PipelineGraphMergeConflict}
    {conflicts : List PipelineGraphMergeConflict} :
    conflict ∈ dedupeConflicts conflicts ↔ conflict ∈ conflicts := by
  have hfold : ∀ seen : List PipelineGraphMergeConflict,
      conflict ∈ conflicts.foldl (fun result c => if c ∈ result then result else result ++ [c])
        seen ↔ conflict ∈ seen ∨ conflict ∈ conflicts := by
    induction conflicts with
    | nil => simp
    | cons c cs ih =>
      intro seen
      rw [List.foldl_cons, ih, List.mem_cons]
      split_ifs with hc <;> grind
  rw [dedupeConflicts, hfold]
  simp

theorem dedupeConflicts_eq_nil_iff {conflicts : List PipelineGraphMergeConflict} :
    dedupeConflicts conflicts = [] ↔ conflicts = [] := by
  simp only [List.eq_nil_iff_forall_not_mem, mem_dedupeConflicts]

/-- Merging three objects gives an object, so that the document shape is never at fault. -/
theorem mergePipelineGraphs_obj (base ours theirs : List (String × Json)) :
    let merged := Position.merged ⟨[], some (.obj base), some (.obj ours), some (.obj theirs)⟩
    some (mergePipelineGraphs (.obj base) (.obj ours) (.obj theirs)).graph = merged.value ∧
      isMapping merged.value ∧
      (mergePipelineGraphs (.obj base) (.obj ours) (.obj theirs)).conflicts =
        dedupeConflicts (merged.conflicts.map MergeConflict.report) := by
  intro merged
  have hmap : isMapping merged.value := by
    cases h : Position.takesWhole ⟨[], some (.obj base), some (.obj ours), some (.obj theirs)⟩ with
    | some side =>
      rw [show merged = _ from Position.merged_of_takesWhole h]
      rcases Position.side_eq_of_takesWhole h with rfl | rfl <;> rfl
    | none => exact Position.isMapping_merged h rfl
  obtain ⟨fields, hfields⟩ : ∃ fields, merged.value = some (.obj fields) := by
    cases hv : merged.value with
    | none => simp [hv, isMapping] at hmap
    | some v => cases v <;> simp_all [isMapping]
  have hgraph : mergePipelineGraphs (.obj base) (.obj ours) (.obj theirs) =
      ⟨.obj fields, dedupeConflicts (merged.conflicts.map MergeConflict.report)⟩ := by
    rw [mergePipelineGraphs]
    simp only [show (mergeValue (some (.obj base)) (some (.obj ours)) (some (.obj theirs))
      []).value = some (.obj fields) from hfields]
    rfl
  rw [hgraph]
  exact ⟨hfields.symm, hmap, rfl⟩

end FoundryLite.Pipeline
