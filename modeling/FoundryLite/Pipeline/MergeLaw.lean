import FoundryLite.Pipeline.ThreeWayMerge

/-!
# What a three-way merge owes both sides

A merge loses no update when, unless it reports a conflict, every change one side made survives
in the merged document, and when every place both sides changed to different values is reported.
Here "changed" means changed *as JSON*: `true` and `1` are different values. This is stated over
the three documents alone (`Clash`, `Resolved`), with no reference to how the merge is computed.

The code compares with Python's `==` and reads lists by id, and both are coarser than the
document: `true == 1`, and of several items with one id only the last is read. The law therefore
fails, and the question is exactly when. The answer is `KeepsUpdates`, a condition on the leaves of
the three documents: below a position where Python's `==` makes the merge take one side whole, no
leaf has three different values, and (unless some leaf has, which is reported) where the values that
`==` takes for equal are not, the third value is one of them.

## Main results

* `reports_iff`, `resolved_iff`: each half of the law, position by position.
* `losesNoUpdate_iff`: a merge loses no update exactly when `KeepsUpdates` holds.
* `keepsUpdates_of_comparesAsJson`: it holds where `==` compares as JSON does and no list repeats an id.
-/

namespace FoundryLite.Pipeline

/-- The same JSON value, or absent on both sides. -/
def Same (a b : Option Json) : Prop := a.map (Json.norm .document) = b.map (Json.norm .document)

instance (a b : Option Json) : Decidable (Same a b) := inferInstanceAs (Decidable (_ = _))

theorem Same.rfl {a : Option Json} : Same a a := Eq.refl _

theorem Same.pyEqual {a b : Option Json} (h : Same a b) : pyEqual a b := by
  have hnorm : ∀ v : Option Json,
      v.map (Json.norm .python) = (v.map (Json.norm .document)).map (Json.norm .python) := fun v => by
    cases v <;> simp [Json.norm_python_norm_document]
  simpa [Pipeline.pyEqual] using by rw [hnorm a, hnorm b, show _ = _ from h]

/-! ### Entries of a list with repeated ids -/

/-- What a document holds for an item id: nothing, the item, or, where several items carry the
id, all of them. -/
def entryOf : List Json → Option Json
  | [] => none
  | [x] => some x
  | items => some (.arr items)

def entry (id : String) (value : Option Json) : Option Json :=
  entryOf (itemsWithId id (listItems value))

namespace Position

/-- The position of an id in three lists, with everything the lists hold for it. -/
def entry (id : String) (x : Position) : Position :=
  ⟨x.path ++ [.item id], Pipeline.entry id x.base, Pipeline.entry id x.ours,
    Pipeline.entry id x.theirs⟩

/-- Some of the three lists holds several items with the id. -/
def Repeated (id : String) (x : Position) : Prop :=
  ∃ value ∈ [x.base, x.ours, x.theirs], 2 ≤ (itemsWithId id (listItems value)).length

/-- Both sides changed the value, and not to the same one. -/
def BothChanged (x : Position) : Prop :=
  ¬Same x.ours x.base ∧ ¬Same x.theirs x.base ∧ ¬Same x.ours x.theirs

instance (x : Position) : Decidable x.BothChanged := inferInstanceAs (Decidable (_ ∧ _))

end Position

open Position

/-! ### The law -/

/-- **The positions that must be reported.** Both sides changed the value there to different JSON
values, and it is not a container whose members can be settled one by one. -/
inductive Clash : Position → MergePath → Prop
  | here {x : Position} : x.BothChanged → ¬x.AreMappings → ¬x.AreKeyedLists → Clash x x.path
  | field {x : Position} {path : MergePath} (key : String) : x.BothChanged → x.AreMappings →
      Clash (x.field key) path → Clash x path
  | item {x : Position} {path : MergePath} (id : String) : x.BothChanged → x.AreKeyedLists →
      Clash (x.entry id) path → Clash x path

/-- **The merged values that lose nothing.** Where one side is unchanged, or both agree, the value
is that of the other side; a container both sides changed is settled member by member, and a
place both sides changed to different values has no such value. -/
inductive Resolved : Position → Option Json → Prop
  | takeTheirs {x : Position} {merged : Option Json} :
      Same x.ours x.base → Same merged x.theirs → Resolved x merged
  | takeOurs {x : Position} {merged : Option Json} :
      Same x.theirs x.base ∨ Same x.ours x.theirs → Same merged x.ours → Resolved x merged
  | mapping {x : Position} {merged : Option Json} : x.BothChanged → x.AreMappings →
      isMapping merged → (∀ key, Resolved (x.field key) (Pipeline.field key merged)) →
      Resolved x merged
  | keyedList {x : Position} {merged : Option Json} : x.BothChanged → x.AreKeyedLists →
      (keyedItems merged).isSome → isList merged →
      (∀ id, Resolved (x.entry id) (Pipeline.entry id merged)) → Resolved x merged

/-- The walk reports a conflict at a path. -/
def Reports (x : Position) (path : MergePath) : Prop :=
  ∃ conflict ∈ x.merged.conflicts, conflict.path = path

/-- **No update is lost** in a merge: without a conflict the result resolves the three documents,
and a position both sides changed to different values is reported. -/
def LosesNoUpdate (base ours theirs : Json) : Prop :=
  ((mergePipelineGraphs base ours theirs).conflicts = [] →
    Resolved ⟨[], some base, some ours, some theirs⟩
      (some (mergePipelineGraphs base ours theirs).graph)) ∧
  ∀ path, Clash ⟨[], some base, some ours, some theirs⟩ path →
    Reports ⟨[], some base, some ours, some theirs⟩ path

/-! ### The positions the merge visits -/

/-- The positions visited from a starting position, through the ids of keyed lists that `follow`
admits. -/
inductive Walks (follow : String → Position → Prop) : Position → Position → Prop
  | here {x : Position} : Walks follow x x
  | field {x y : Position} (key : String) : x.takesWhole = none → x.AreMappings →
      Walks follow (x.field key) y → Walks follow x y
  | item {x y : Position} (id : String) : x.takesWhole = none → x.AreKeyedLists → follow id x →
      Walks follow (x.item id) y → Walks follow x y

/-- A position visited through items whose ids no list repeats. -/
def Reaches (x y : Position) : Prop := Walks (fun id z => ¬z.Repeated id) x y

/-- **The leaves below a position**: what is not a container of all three documents that is settled
member by member. -/
inductive Leaf : Position → Position → Prop
  | here {x : Position} : ¬x.AreMappings → ¬x.AreKeyedLists → Leaf x x
  | field {x z : Position} (key : String) : x.AreMappings → Leaf (x.field key) z → Leaf x z
  | item {x z : Position} (id : String) : x.AreKeyedLists → Leaf (x.entry id) z → Leaf x z

/-- Below a side that is taken whole no leaf was changed by both sides to different values, and an id
that a list repeats and both sides changed differently is deleted by one of them. -/
def ReportsHere (x : Position) : Prop :=
  (x.takesWhole ≠ none → ∀ z, Leaf x z → ¬z.BothChanged) ∧
  (x.takesWhole = none → x.AreKeyedLists → ∀ id, x.Repeated id → (x.entry id).BothChanged →
    (x.item id).takesWhole = none ∧ ¬(x.item id).AreMappings)

/-- **What Python's `==` takes for equal is the same JSON** at each leaf, or else the third value is
the same as one of the two. -/
structure LeavesAgree (x : Position) : Prop where
  sides : pyEqual x.ours x.theirs → ∀ z, Leaf x z → Same z.ours z.theirs ∨ Same z.theirs z.base
  ours : ¬pyEqual x.ours x.theirs → pyEqual x.ours x.base →
    ∀ z, Leaf x z → Same z.ours z.theirs ∨ Same z.ours z.base
  theirs : ¬pyEqual x.ours x.theirs → ¬pyEqual x.ours x.base → pyEqual x.theirs x.base →
    ∀ z, Leaf x z → Same z.ours z.theirs ∨ Same z.theirs z.base

/-- One item stands for all that a side holds for an id, where the other side changed nothing. -/
def StandsFor (item : Option Json) (x : Position) : Prop :=
  Same x.ours x.base ∧ Same item x.theirs ∨
    (Same x.theirs x.base ∨ Same x.ours x.theirs) ∧ Same item x.ours

/-- The leaves below a side that is taken whole agree, and so does the item that is read for an id
that a list repeats. -/
def KeepsHere (x : Position) : Prop :=
  LeavesAgree x ∧
  (x.takesWhole = none → x.AreKeyedLists → ∀ id, x.Repeated id → ∀ side,
    (x.item id).takesWhole = some side → StandsFor side (x.entry id))

/-- **The exact condition on three documents under which their merge loses no update.** -/
def KeepsUpdates (x : Position) : Prop :=
  (∀ y, Reaches x y → ReportsHere y) ∧
  ((∀ z, Leaf x z → ¬z.BothChanged) → ∀ y, Reaches x y → KeepsHere y)

/-! ### The sides exchanged -/

theorem pyEqual_comm (a b : Option Json) : pyEqual a b = pyEqual b a := by
  simp only [pyEqual, eq_comm]

theorem pyEqual_trans {a b c : Option Json} (h : pyEqual a b) (h' : pyEqual b c) :
    pyEqual a c := by
  simp only [pyEqual, decide_eq_true_eq] at *
  exact h.trans h'

namespace Position

/-- The position with the two sides exchanged. -/
def swap (x : Position) : Position := ⟨x.path, x.base, x.theirs, x.ours⟩

variable {x : Position}

theorem areMappings_swap_iff : x.swap.AreMappings ↔ x.AreMappings := by
  simp only [AreMappings, swap, areMappings, Bool.and_eq_true]
  tauto

theorem areLists_swap : areLists x.base x.theirs x.ours = areLists x.base x.ours x.theirs := by
  simp only [areLists, Bool.and_assoc, Bool.and_comm (isList x.ours)]

theorem areKeyedLists_swap_iff : x.swap.AreKeyedLists ↔ x.AreKeyedLists := by
  simp only [AreKeyedLists, swap, areLists_swap]
  tauto

end Position

/-! ### Reading repeated ids -/

theorem itemId_of_mem_itemsWithId {id : String} {items : List Json} {x : Json}
    (h : x ∈ itemsWithId id items) : itemId x = some id := by
  simpa using (List.mem_filter.mp h).2

private theorem exists_obj_of_itemId {x : Json} {id : String} (h : itemId x = some id) :
    ∃ fields, x = .obj fields := by
  cases x with
  | obj fields => exact ⟨fields, rfl⟩
  | _ => simp [itemId] at h

/-- What two lists hold for an id is the same JSON only if it is the same item by item. -/
theorem map_norm_eq_of_same_entryOf {id : String} {xs ys : List Json}
    (hx : ∀ x ∈ xs, itemId x = some id) (hy : ∀ y ∈ ys, itemId y = some id)
    (h : Same (entryOf xs) (entryOf ys)) :
    xs.map (Json.norm .document) = ys.map (Json.norm .document) := by
  match xs, ys with
  | [], [] => rfl
  | [], [_] | [], _ :: _ :: _ | [_], [] | _ :: _ :: _, [] => simp [Same, entryOf] at h
  | [x], [y] => simpa [Same, entryOf] using h
  | [x], _ :: _ :: _ =>
    obtain ⟨fields, rfl⟩ := exists_obj_of_itemId (hx x List.mem_cons_self)
    simp [Same, entryOf, Json.norm] at h
  | _ :: _ :: _, [y] =>
    obtain ⟨fields, rfl⟩ := exists_obj_of_itemId (hy y List.mem_cons_self)
    simp [Same, entryOf, Json.norm] at h
  | x :: x' :: xs, y :: y' :: ys =>
    exact Json.norm_arr_eq_iff.mp (by simpa [Same, entryOf] using h)

theorem Same.item {v w : Option Json} {id : String} (hv : (keyedItems v).isSome)
    (hw : (keyedItems w).isSome) (h : Same (entry id v) (entry id w)) :
    Same (item id v) (item id w) := by
  have hmap := map_norm_eq_of_same_entryOf (fun _ => itemId_of_mem_itemsWithId)
    (fun _ => itemId_of_mem_itemsWithId) h
  rw [Same, item_eq_getLast? hv, item_eq_getLast? hw, ← List.getLast?_map, hmap,
    List.getLast?_map]

theorem entry_eq_item {v : Option Json} {id : String} (hv : (keyedItems v).isSome)
    (h : ¬2 ≤ (itemsWithId id (listItems v)).length) : entry id v = item id v := by
  rw [item_eq_getLast? hv, entry]
  match itemsWithId id (listItems v), h with
  | [], _ => rfl
  | [x], _ => rfl
  | x :: y :: l, h => simp at h

theorem isArr_entry {v : Option Json} {id : String}
    (h : 2 ≤ (itemsWithId id (listItems v)).length) :
    ∃ items, entry id v = some (.arr items) := by
  rw [entry]
  match itemsWithId id (listItems v), h with
  | x :: y :: l, _ => exact ⟨_, rfl⟩

theorem not_isKeyedListPath_item {path : MergePath} {id : String} :
    ¬isKeyedListPath (path ++ [.item id]) := by
  rw [isKeyedListPath_iff]
  rintro (h | h) <;> simpa using congrArg List.getLast? h

namespace Position

variable {x : Position} {id : String}

/-- What is not taken whole was changed by both sides, differently. -/
theorem bothChanged_of_takesWhole (h : x.takesWhole = none) : x.BothChanged := by
  obtain ⟨h₁, h₂, h₃⟩ := takesWhole_eq_none_iff.mp h
  exact ⟨fun hs => h₂ hs.pyEqual, fun hs => h₃ hs.pyEqual, fun hs => h₁ hs.pyEqual⟩

theorem entry_eq_item (hl : x.AreKeyedLists) (h : ¬x.Repeated id) : x.entry id = x.item id := by
  obtain ⟨-, -, hb, ho, ht⟩ := hl
  simp only [Repeated, List.mem_cons, List.not_mem_nil, or_false, not_exists, not_and] at h
  rw [entry, item, Pipeline.entry_eq_item hb (h _ (.inl rfl)),
    Pipeline.entry_eq_item ho (h _ (.inr (.inl rfl))),
    Pipeline.entry_eq_item ht (h _ (.inr (.inr rfl)))]

/-- If the items read for an id are not taken whole, both sides changed what is held for it. -/
theorem bothChanged_entry (hl : x.AreKeyedLists) (h : (x.item id).takesWhole = none) :
    (x.entry id).BothChanged := by
  obtain ⟨-, -, hb, ho, ht⟩ := hl
  obtain ⟨h₁, h₂, h₃⟩ := bothChanged_of_takesWhole h
  exact ⟨fun hs => h₁ (hs.item ho hb), fun hs => h₂ (hs.item ht hb), fun hs => h₃ (hs.item ho ht)⟩

theorem not_areMappings_entry (h : x.Repeated id) : ¬(x.entry id).AreMappings := by
  obtain ⟨v, hv, hlen⟩ := h
  obtain ⟨items, hitems⟩ := isArr_entry hlen
  simp only [List.mem_cons, List.not_mem_nil, or_false] at hv
  rcases hv with rfl | rfl | rfl <;> simp [AreMappings, areMappings, entry, hitems, isMapping]

theorem not_areKeyedLists_entry : ¬(x.entry id).AreKeyedLists := fun h =>
  not_isKeyedListPath_item h.1

theorem not_areKeyedLists_item : ¬(x.item id).AreKeyedLists := fun h =>
  not_isKeyedListPath_item h.1

end Position

/-! ### Reading the law at a position -/

section

variable {x y : Position} {path : MergePath} {merged : Option Json}

theorem clash_iff_of_unmergeable (h : x.BothChanged) (hm : ¬x.AreMappings)
    (hl : ¬x.AreKeyedLists) : Clash x path ↔ path = x.path := by
  constructor
  · rintro (⟨-, -, -⟩ | ⟨-, -, hm', -⟩ | ⟨-, -, hl', -⟩)
    · rfl
    · exact absurd hm' hm
    · exact absurd hl' hl
  · rintro rfl
    exact .here h hm hl

theorem clash_mapping_iff (h : x.BothChanged) (hm : x.AreMappings) :
    Clash x path ↔ ∃ key, Clash (x.field key) path := by
  constructor
  · rintro (⟨-, hm', -⟩ | ⟨key, -, -, hc⟩ | ⟨-, -, hl, -⟩)
    · exact absurd hm hm'
    · exact ⟨key, hc⟩
    · exact absurd hm (not_areMappings_of_areKeyedLists hl)
  · rintro ⟨key, hc⟩
    exact .field key h hm hc

theorem clash_keyedList_iff (h : x.BothChanged) (hl : x.AreKeyedLists) :
    Clash x path ↔ ∃ id, Clash (x.entry id) path := by
  constructor
  · rintro (⟨-, -, hl'⟩ | ⟨-, -, hm, -⟩ | ⟨id, -, -, hc⟩)
    · exact absurd hl hl'
    · exact absurd hm (not_areMappings_of_areKeyedLists hl)
    · exact ⟨id, hc⟩
  · rintro ⟨id, hc⟩
    exact .item id h hl hc

theorem Clash.bothChanged (h : Clash x path) : x.BothChanged := by
  cases h with
  | here h | field _ h | item _ h => exact h

theorem resolved_mapping_iff (h : x.BothChanged) (hm : x.AreMappings) : Resolved x merged ↔
    isMapping merged ∧ ∀ key, Resolved (x.field key) (field key merged) := by
  obtain ⟨h₁, h₂, h₃⟩ := h
  constructor
  · rintro (⟨hs, -⟩ | ⟨hs | hs, -⟩ | ⟨-, -, hmap, hall⟩ | ⟨-, hl, -⟩)
    · exact absurd hs h₁
    · exact absurd hs h₂
    · exact absurd hs h₃
    · exact ⟨hmap, hall⟩
    · exact absurd hm (not_areMappings_of_areKeyedLists hl)
  · rintro ⟨hmap, hall⟩
    exact .mapping ⟨h₁, h₂, h₃⟩ hm hmap hall

theorem resolved_keyedList_iff (h : x.BothChanged) (hl : x.AreKeyedLists) : Resolved x merged ↔
    (keyedItems merged).isSome ∧ isList merged ∧
      ∀ id, Resolved (x.entry id) (entry id merged) := by
  obtain ⟨h₁, h₂, h₃⟩ := h
  constructor
  · rintro (⟨hs, -⟩ | ⟨hs | hs, -⟩ | ⟨-, hm, -⟩ | ⟨-, -, hk, hlist, hall⟩)
    · exact absurd hs h₁
    · exact absurd hs h₂
    · exact absurd hs h₃
    · exact absurd hm (not_areMappings_of_areKeyedLists hl)
    · exact ⟨hk, hlist, hall⟩
  · rintro ⟨hk, hlist, hall⟩
    exact .keyedList ⟨h₁, h₂, h₃⟩ hl hk hlist hall

/-! ### The law at the leaves -/

theorem field_map_norm (r : Json.Reading) (key : String) (v : Option Json) :
    field key (v.map (Json.norm r)) = (field key v).map (Json.norm r) := by
  match v with
  | some (.obj fields) =>
    simp only [field, mappingOrEmpty, Option.map_some, Json.norm, Dict.lookup_canon,
      Json.lookup_normFields]
  | none | some .null | some (.float _) | some (.str _) | some (.arr _) => rfl
  | some (.bool _) | some (.int _) => cases r <;> rfl

theorem itemId_norm (r : Json.Reading) (j : Json) : itemId (Json.norm r j) = itemId j := by
  cases j with
  | obj fields =>
    simp only [itemId, Json.norm, Dict.lookup_canon, Json.lookup_normFields]
    cases fields.lookup "id" with
    | none => rfl
    | some value => cases value <;> cases r <;> rfl
  | null | float _ | str _ | arr _ => rfl
  | bool _ | int _ => cases r <;> rfl

theorem itemsWithId_map_norm (r : Json.Reading) (id : String) (items : List Json) :
    itemsWithId id (items.map (Json.norm r)) = (itemsWithId id items).map (Json.norm r) := by
  rw [itemsWithId, List.filter_map]
  simp only [Function.comp_def, itemId_norm, itemsWithId]

theorem entryOf_map_norm (r : Json.Reading) (items : List Json) :
    entryOf (items.map (Json.norm r)) = (entryOf items).map (Json.norm r) := by
  match items with
  | [] | [_] => rfl
  | _ :: _ :: _ => simp [entryOf, Json.norm, Json.normItems_eq_map]

theorem entry_map_norm (r : Json.Reading) (id : String) (v : Option Json) :
    entry id (v.map (Json.norm r)) = (entry id v).map (Json.norm r) := by
  have hitems : listItems (v.map (Json.norm r)) = (listItems v).map (Json.norm r) := by
    match v with
    | some (.arr items) => simp [listItems, Json.norm, Json.normItems_eq_map]
    | none | some .null | some (.float _) | some (.str _) | some (.obj _) => rfl
    | some (.bool _) | some (.int _) => cases r <;> rfl
  rw [entry, entry, hitems, itemsWithId_map_norm, entryOf_map_norm]

theorem Same.field {v w : Option Json} (h : Same v w) (key : String) :
    Same (field key v) (field key w) := by
  rw [Same, ← field_map_norm, ← field_map_norm, show _ = _ from h]

theorem Same.entry {v w : Option Json} (h : Same v w) (id : String) :
    Same (entry id v) (entry id w) := by
  rw [Same, ← entry_map_norm, ← entry_map_norm, show _ = _ from h]

theorem pyEqual_field {v w : Option Json} (h : pyEqual v w) (key : String) :
    pyEqual (field key v) (field key w) := by
  rw [pyEqual, decide_eq_true_eq] at h ⊢
  rw [← field_map_norm, ← field_map_norm, h]

theorem exists_obj_of_isMapping {v : Option Json} (h : isMapping v) :
    ∃ fields, v = some (.obj fields) := by
  match v, h with
  | some (.obj fields), _ => exact ⟨fields, rfl⟩

/-- Mappings are the same JSON exactly when their members are. -/
theorem same_mapping_iff {v w : Option Json} (hv : isMapping v) (hw : isMapping w) :
    Same v w ↔ ∀ key, Same (field key v) (field key w) := by
  obtain ⟨fs, rfl⟩ := exists_obj_of_isMapping hv
  obtain ⟨gs, rfl⟩ := exists_obj_of_isMapping hw
  simp only [Same, Option.map_some, Option.some.injEq, Json.norm_obj_eq_iff, field,
    mappingOrEmpty]

/-- Lists of one order of ids are the same when they hold the same for each id. -/
theorem map_norm_eq_of_itemsWithId {xs ys : List Json} (hids : xs.map itemId = ys.map itemId)
    (hsome : ∀ x ∈ xs, (itemId x).isSome)
    (h : ∀ id, (itemsWithId id xs).map (Json.norm .document) =
      (itemsWithId id ys).map (Json.norm .document)) :
    xs.map (Json.norm .document) = ys.map (Json.norm .document) := by
  induction xs generalizing ys with
  | nil =>
    obtain rfl := List.map_eq_nil_iff.mp hids.symm
    rfl
  | cons x xs ih =>
    cases ys with
    | nil => simp at hids
    | cons y ys =>
      obtain ⟨hid, hids⟩ := List.cons.inj hids
      obtain ⟨hx, hsome⟩ := List.forall_mem_cons.mp hsome
      obtain ⟨k, hk⟩ := Option.isSome_iff_exists.mp hx
      have hcons : ∀ id, itemsWithId id (x :: xs) =
          if k = id then x :: itemsWithId id xs else itemsWithId id xs := fun id => by
        simp [itemsWithId, List.filter_cons, hk]
      have hcons' : ∀ id, itemsWithId id (y :: ys) =
          if k = id then y :: itemsWithId id ys else itemsWithId id ys := fun id => by
        simp [itemsWithId, List.filter_cons, ← hid, hk]
      have hhead := h k
      rw [hcons, hcons', if_pos rfl, if_pos rfl] at hhead
      obtain ⟨hxy, -⟩ := List.cons.inj hhead
      rw [List.map_cons, List.map_cons, hxy, ih hids hsome fun id => ?_]
      have hid' := h id
      rw [hcons, hcons'] at hid'
      split_ifs at hid'
      · exact (List.cons.inj hid').2
      · exact hid'

/-- Lists that Python finds equal are the same when they hold the same for each id. -/
theorem same_of_entries {v w : Option Json} (hv : isList v) (hw : isList w)
    (hkeyed : (keyedItems v).isSome) (hpy : pyEqual v w)
    (h : ∀ id, Same (entry id v) (entry id w)) : Same v w := by
  match v, hv, w, hw with
  | some (.arr xs), _, some (.arr ys), _ =>
    rw [pyEqual, decide_eq_true_eq, Option.map_some, Option.map_some, Option.some.injEq,
      Json.norm_arr_eq_iff] at hpy
    have hids : xs.map itemId = ys.map itemId := by
      simpa [List.map_map, Function.comp_def, itemId_norm] using congrArg (List.map itemId) hpy
    refine congrArg some (Json.norm_arr_eq_iff.mpr (map_norm_eq_of_itemsWithId hids ?_ fun id => ?_))
    · refine mapM_itemId_isSome_iff.mp ?_
      simpa [keyedItems] using hkeyed
    · exact map_norm_eq_of_same_entryOf (fun _ => itemId_of_mem_itemsWithId)
        (fun _ => itemId_of_mem_itemsWithId) (h id)

theorem length_path_of_areKeyedLists (h : x.AreKeyedLists) : x.path.length = 1 := by
  rcases isKeyedListPath_iff.mp h.1 with hpath | hpath <;> rw [hpath] <;> rfl

/-- **Induction towards the leaves.** -/
theorem leaf_induction {motive : Position → Prop}
    (leaf : ∀ x, ¬AreMappings x → ¬AreKeyedLists x → motive x)
    (mapping : ∀ x, AreMappings x → (∀ key, motive (Position.field key x)) → motive x)
    (keyedList : ∀ x, AreKeyedLists x → (∀ id, motive (Position.entry id x)) → motive x)
    (x : Position) : motive x := by
  by_cases hm : x.AreMappings
  · exact mapping x hm fun key => leaf_induction leaf mapping keyedList (x.field key)
  · by_cases hl : x.AreKeyedLists
    · exact keyedList x hl fun id => leaf_induction leaf mapping keyedList (x.entry id)
    · exact leaf x hm hl
termination_by (2 - x.path.length, sizeOf x.ours)
decreasing_by
  · have hours : isMapping x.ours := by
      simp only [AreMappings, areMappings, Bool.and_eq_true] at hm
      exact hm.1.2
    have hsize := sizeOf_lookup_mappingOrEmpty_lt hours key
    rcases Nat.lt_or_ge x.path.length 2 with hlt | hge
    · refine Prod.Lex.left _ _ ?_
      simp only [Position.field, List.length_append, List.length_singleton]
      omega
    · have hpath : 2 - (x.field key).path.length = 2 - x.path.length := by
        simp only [Position.field, List.length_append, List.length_singleton]
        omega
      rw [hpath]
      exact Prod.Lex.right _ hsize
  · refine Prod.Lex.left _ _ ?_
    have hlength := length_path_of_areKeyedLists hl
    simp only [Position.entry, List.length_append, List.length_singleton]
    omega

/-! #### Clashes at leaves -/

theorem bothChanged_of_field {key : String} (h : (x.field key).BothChanged) : x.BothChanged :=
  ⟨fun hs => h.1 (hs.field key), fun hs => h.2.1 (hs.field key), fun hs => h.2.2 (hs.field key)⟩

theorem bothChanged_of_entry {id : String} (h : (x.entry id).BothChanged) : x.BothChanged :=
  ⟨fun hs => h.1 (hs.entry id), fun hs => h.2.1 (hs.entry id), fun hs => h.2.2 (hs.entry id)⟩

theorem clash_of_leaf (hleaf : Leaf x y) (h : y.BothChanged) : Clash x y.path := by
  induction hleaf with
  | here hm hl => exact .here h hm hl
  | field key hm _ ih =>
    have hclash := ih h
    exact .field key (bothChanged_of_field hclash.bothChanged) hm hclash
  | item id hl _ ih =>
    have hclash := ih h
    exact .item id (bothChanged_of_entry hclash.bothChanged) hl hclash

theorem exists_leaf_of_clash (h : Clash x path) : ∃ z, Leaf x z ∧ z.BothChanged := by
  induction h with
  | here h hm hl => exact ⟨_, .here hm hl, h⟩
  | field key _ hm _ ih =>
    obtain ⟨z, hleaf, hz⟩ := ih
    exact ⟨z, .field key hm hleaf, hz⟩
  | item id _ hl _ ih =>
    obtain ⟨z, hleaf, hz⟩ := ih
    exact ⟨z, .item id hl hleaf, hz⟩

/-- Nothing clashes when no leaf was changed by both sides to different values. -/
theorem forall_not_clash_iff : (∀ path, ¬Clash x path) ↔ ∀ z, Leaf x z → ¬z.BothChanged := by
  constructor
  · exact fun h z hleaf hz => h _ (clash_of_leaf hleaf hz)
  · intro h path hclash
    obtain ⟨z, hleaf, hz⟩ := exists_leaf_of_clash hclash
    exact h z hleaf hz

/-! #### Values that lose nothing at leaves -/

theorem Resolved.field (h : Resolved x merged) (hm : x.AreMappings) (key : String) :
    Resolved (x.field key) (Pipeline.field key merged) := by
  cases h with
  | takeTheirs hs hmerged => exact .takeTheirs (hs.field key) (hmerged.field key)
  | takeOurs hs hmerged =>
    exact .takeOurs (hs.imp (Same.field · key) (Same.field · key)) (hmerged.field key)
  | mapping _ _ _ hall => exact hall key
  | keyedList _ hl => exact absurd hm (not_areMappings_of_areKeyedLists hl)

theorem Resolved.entry (h : Resolved x merged) (hl : x.AreKeyedLists) (id : String) :
    Resolved (x.entry id) (Pipeline.entry id merged) := by
  cases h with
  | takeTheirs hs hmerged => exact .takeTheirs (hs.entry id) (hmerged.entry id)
  | takeOurs hs hmerged =>
    exact .takeOurs (hs.imp (Same.entry · id) (Same.entry · id)) (hmerged.entry id)
  | mapping _ hm => exact absurd hm (not_areMappings_of_areKeyedLists hl)
  | keyedList _ _ _ _ hall => exact hall id

theorem resolved_leaf_iff (hm : ¬x.AreMappings) (hl : ¬x.AreKeyedLists) :
    Resolved x merged ↔ StandsFor merged x := by
  constructor
  · rintro (⟨hs, hmerged⟩ | ⟨hs, hmerged⟩ | ⟨-, hm', -⟩ | ⟨-, hl', -⟩)
    · exact .inl ⟨hs, hmerged⟩
    · exact .inr ⟨hs, hmerged⟩
    · exact absurd hm' hm
    · exact absurd hl' hl
  · rintro (⟨hs, hmerged⟩ | ⟨hs, hmerged⟩)
    · exact .takeTheirs hs hmerged
    · exact .takeOurs hs hmerged

theorem Resolved.same_theirs (h : Resolved x merged) (hs : Same x.ours x.base) :
    Same merged x.theirs := by
  cases h with
  | takeTheirs _ hmerged => exact hmerged
  | takeOurs ht hmerged =>
    rcases ht with ht | ht
    · exact hmerged.trans (hs.trans (Eq.symm ht))
    · exact hmerged.trans ht
  | mapping hboth | keyedList hboth => exact absurd hs hboth.1

theorem leaf_of_resolved (hleaf : Leaf x y) (h : Resolved x x.ours) :
    Same y.ours y.theirs ∨ Same y.theirs y.base := by
  induction hleaf with
  | here hm hl =>
    rcases (resolved_leaf_iff hm hl).mp h with ⟨-, hs⟩ | ⟨hs, -⟩
    · exact .inl hs
    · exact hs.symm
  | field key hm _ ih => exact ih (h.field hm key)
  | item id hl _ ih => exact ih (h.entry hl id)

/-- Where Python finds `theirs` equal to one of the other two, `ours` loses nothing when the leaves
agree. The equality fixes the order of a list. -/
theorem resolved_of_leaves
    (hpy : 1 < x.path.length ∨ pyEqual x.ours x.theirs ∨ pyEqual x.theirs x.base)
    (h : ∀ z, Leaf x z → Same z.ours z.theirs ∨ Same z.theirs z.base) : Resolved x x.ours := by
  induction x using leaf_induction with
  | leaf x hm hl => exact .takeOurs (h x (.here hm hl)).symm .rfl
  | mapping x hm ih =>
    have hfields : ∀ key, Resolved (x.field key) (x.field key).ours := by
      refine fun key => ih key ?_ fun z hz => h z (.field key hm hz)
      refine hpy.imp (fun hlength => ?_) (.imp (pyEqual_field · key) (pyEqual_field · key))
      rw [Position.field, List.length_append]
      omega
    simp only [AreMappings, areMappings, Bool.and_eq_true] at hm
    by_cases hours : Same x.ours x.base
    · have hsame : Same x.ours x.theirs := (same_mapping_iff hm.1.2 hm.2).mpr fun key =>
        (hfields key).same_theirs (hours.field key)
      exact .takeOurs (.inr hsame) .rfl
    · by_cases htheirs : Same x.theirs x.base ∨ Same x.ours x.theirs
      · exact .takeOurs htheirs .rfl
      · push Not at htheirs
        exact .mapping ⟨hours, htheirs⟩ (by simp [AreMappings, areMappings, hm]) hm.1.2 hfields
  | keyedList x hl ih =>
    have hlength := length_path_of_areKeyedLists hl
    have hentries : ∀ id, Resolved (x.entry id) (x.entry id).ours := by
      refine fun id => ih id (.inl ?_) fun z hz => h z (.item id hl hz)
      simp [Position.entry, hlength]
    obtain ⟨-, hlists, -, hkeyed, -⟩ := id hl
    simp only [areLists, Bool.and_eq_true] at hlists
    by_cases hours : Same x.ours x.base
    · have heq : pyEqual x.ours x.theirs := by
        rcases hpy with hlong | hpy | hpy
        · omega
        · exact hpy
        · rw [pyEqual_comm] at hpy
          exact pyEqual_trans hours.pyEqual hpy
      have hsame : Same x.ours x.theirs := same_of_entries hlists.1.2 hlists.2 hkeyed heq fun id =>
        (hentries id).same_theirs (hours.entry id)
      exact .takeOurs (.inr hsame) .rfl
    · by_cases htheirs : Same x.theirs x.base ∨ Same x.ours x.theirs
      · exact .takeOurs htheirs .rfl
      · push Not at htheirs
        exact .keyedList ⟨hours, htheirs⟩ hl hkeyed hlists.1.2 hentries

/-- `ours` loses nothing exactly when each leaf of `theirs` is as in `ours` or in the base. -/
theorem resolved_ours_iff (hpy : pyEqual x.ours x.theirs ∨ pyEqual x.theirs x.base) :
    Resolved x x.ours ↔ ∀ z, Leaf x z → Same z.ours z.theirs ∨ Same z.theirs z.base :=
  ⟨fun h _ hz => leaf_of_resolved hz h, resolved_of_leaves (.inr hpy)⟩

theorem Leaf.swap (h : Leaf x y) : Leaf x.swap y.swap := by
  induction h with
  | here hm hl => exact .here (mt areMappings_swap_iff.mp hm) (mt areKeyedLists_swap_iff.mp hl)
  | field key hm _ ih => exact .field key (areMappings_swap_iff.mpr hm) ih
  | item id hl _ ih => exact .item id (areKeyedLists_swap_iff.mpr hl) ih

theorem Resolved.swap (h : Resolved x merged) : Resolved x.swap merged := by
  induction h with
  | takeTheirs hs hmerged => exact .takeOurs (.inl hs) hmerged
  | takeOurs hs hmerged =>
    rcases hs with hs | hs
    · exact .takeTheirs hs hmerged
    · exact .takeOurs (.inr (Eq.symm hs)) (hmerged.trans hs)
  | mapping hboth hm hmerged _ ih =>
    exact .mapping ⟨hboth.2.1, hboth.1, fun hs => hboth.2.2 (Eq.symm hs)⟩
      (areMappings_swap_iff.mpr hm) hmerged ih
  | keyedList hboth hl hkeyed hlist _ ih =>
    exact .keyedList ⟨hboth.2.1, hboth.1, fun hs => hboth.2.2 (Eq.symm hs)⟩
      (areKeyedLists_swap_iff.mpr hl) hkeyed hlist ih

theorem resolved_theirs_iff (hpy : pyEqual x.ours x.base) :
    Resolved x x.theirs ↔ ∀ z, Leaf x z → Same z.ours z.theirs ∨ Same z.ours z.base := by
  have hswap : Resolved x x.theirs ↔ Resolved x.swap x.swap.ours := ⟨.swap, .swap⟩
  rw [hswap, resolved_ours_iff (.inr hpy)]
  constructor
  · exact fun h z hz => (h z.swap hz.swap).imp_left Eq.symm
  · exact fun h z hz => (h z.swap hz.swap).imp_left Eq.symm

/-- **A side that is taken whole loses nothing exactly when the leaves agree.** -/
theorem resolved_whole_iff {side : Option Json} (h : x.takesWhole = some side) :
    Resolved x side ↔ LeavesAgree x := by
  rw [takesWhole] at h
  split_ifs at h with hsides hours htheirs
  · obtain rfl := Option.some.inj h
    rw [resolved_ours_iff (.inl hsides)]
    exact ⟨fun h => ⟨fun _ => h, fun hn => absurd hsides hn, fun hn => absurd hsides hn⟩,
      fun h => h.sides hsides⟩
  · obtain rfl := Option.some.inj h
    rw [resolved_theirs_iff hours]
    exact ⟨fun h => ⟨fun hs => absurd hs hsides, fun _ _ => h, fun _ hn => absurd hours hn⟩,
      fun h => h.ours hsides hours⟩
  · obtain rfl := Option.some.inj h
    rw [resolved_ours_iff (.inr htheirs)]
    exact ⟨fun h => ⟨fun hs => absurd hs hsides, fun _ hs => absurd hs hours, fun _ _ _ => h⟩,
      fun h => h.theirs hsides hours htheirs⟩

theorem leavesAgree_of_takesWhole (h : x.takesWhole = none) : LeavesAgree x := by
  obtain ⟨h₁, h₂, h₃⟩ := takesWhole_eq_none_iff.mp h
  exact ⟨fun hs => absurd hs h₁, fun _ hs => absurd hs h₂, fun _ _ hs => absurd hs h₃⟩

/-! ### Reading the walk at a position -/

theorem not_reports_of_takesWhole {side : Option Json} (h : x.takesWhole = some side) :
    ¬Reports x path := by
  rw [Reports, merged_of_takesWhole h]
  simp

theorem reports_mapping_iff (h : x.takesWhole = none) (hm : x.AreMappings) :
    Reports x path ↔ ∃ key, Reports (x.field key) path := by
  simp only [Reports, merged_mapping h hm, mergeMapping, List.mem_flatMap]
  constructor
  · rintro ⟨c, ⟨key, -, hc⟩, hp⟩
    exact ⟨key, c, hc, hp⟩
  · rintro ⟨key, c, hc, hp⟩
    refine ⟨c, ⟨key, ?_, hc⟩, hp⟩
    rw [mem_mergedKeys]
    by_contra hk
    push Not at hk
    simp [merged_of_absent (x := x.field key) hk.2.1 hk.2.2] at hc

theorem reports_keyedList_iff (h : x.takesWhole = none) (hl : x.AreKeyedLists) :
    Reports x path ↔ ∃ id, Reports (x.item id) path := by
  simp only [Reports, merged_keyedList h hl, mergeKeyedList, List.mem_flatMap]
  constructor
  · rintro ⟨c, ⟨id, -, hc⟩, hp⟩
    exact ⟨id, c, hc, hp⟩
  · rintro ⟨id, c, hc, hp⟩
    refine ⟨c, ⟨id, ?_, hc⟩, hp⟩
    rw [mem_mergedKeys]
    by_contra hk
    push Not at hk
    simp [merged_of_absent (x := x.item id) hk.2.1 hk.2.2] at hc

theorem reports_unmergeable_iff (h : x.takesWhole = none) (hm : ¬x.AreMappings)
    (hl : ¬x.AreKeyedLists) : Reports x path ↔ path = x.path := by
  rw [Reports, merged_unmergeable h hm hl]
  simp [eq_comm]

/-- The walk reports nothing above the position it is at. -/
theorem prefix_of_reports (h : Reports x path) : x.path <+: path := by
  induction x using walk_induction with
  | whole x side hw => exact absurd h (not_reports_of_takesWhole hw)
  | mapping x hw hm ih =>
    obtain ⟨key, hk⟩ := (reports_mapping_iff hw hm).mp h
    exact (List.prefix_append _ _).trans (ih key hk)
  | keyedList x hw hl ih =>
    obtain ⟨id, hid⟩ := (reports_keyedList_iff hw hl).mp h
    exact (List.prefix_append _ _).trans (ih id hid)
  | unmergeable x hw hm hl =>
    obtain rfl := (reports_unmergeable_iff hw hm hl).mp h
    exact List.prefix_rfl

theorem prefix_of_clash (h : Clash x path) : x.path <+: path := by
  induction h with
  | here => exact List.prefix_rfl
  | field _ _ _ _ ih | item _ _ _ _ ih => exact (List.prefix_append _ _).trans ih

/-- Paths below different steps are different. -/
theorem step_eq_of_prefixes {p q : MergePath} {s s' : PathStep} (h : p ++ [s] <+: q)
    (h' : p ++ [s'] <+: q) : s = s' := by
  have := (List.prefix_of_prefix_length_le h h' (by simp)).eq_of_length (by simp)
  simpa using this

theorem walks_whole_iff {follow : String → Position → Prop} {side : Option Json}
    (h : x.takesWhole = some side) : Walks follow x y ↔ y = x := by
  constructor
  · rintro (_ | ⟨-, hn, -⟩ | ⟨-, hn, -⟩)
    · rfl
    · simp [h] at hn
    · simp [h] at hn
  · rintro rfl
    exact .here

theorem walks_mapping_iff {follow : String → Position → Prop} (h : x.takesWhole = none)
    (hm : x.AreMappings) : Walks follow x y ↔ y = x ∨ ∃ key, Walks follow (x.field key) y := by
  constructor
  · rintro (_ | ⟨key, -, -, hy⟩ | ⟨-, -, hl, -⟩)
    · exact .inl rfl
    · exact .inr ⟨key, hy⟩
    · exact absurd hm (not_areMappings_of_areKeyedLists hl)
  · rintro (rfl | ⟨key, hy⟩)
    · exact .here
    · exact .field key h hm hy

theorem walks_keyedList_iff {follow : String → Position → Prop} (h : x.takesWhole = none)
    (hl : x.AreKeyedLists) :
    Walks follow x y ↔ y = x ∨ ∃ id, follow id x ∧ Walks follow (x.item id) y := by
  constructor
  · rintro (_ | ⟨-, -, hm, -⟩ | ⟨id, -, -, hf, hy⟩)
    · exact .inl rfl
    · exact absurd hm (not_areMappings_of_areKeyedLists hl)
    · exact .inr ⟨id, hf, hy⟩
  · rintro (rfl | ⟨id, hf, hy⟩)
    · exact .here
    · exact .item id h hl hf hy

theorem walks_unmergeable_iff {follow : String → Position → Prop} (hm : ¬x.AreMappings)
    (hl : ¬x.AreKeyedLists) : Walks follow x y ↔ y = x := by
  constructor
  · rintro (_ | ⟨-, -, hm', -⟩ | ⟨-, -, hl', -⟩)
    · rfl
    · exact absurd hm' hm
    · exact absurd hl' hl
  · rintro rfl
    exact .here

end

/-! ### The two halves of the law -/

variable {x : Position}

/-- **The walk reports nothing that is not a clash**: if nothing clashes there is no conflict. -/
theorem conflicts_eq_nil (h : ∀ path, ¬Clash x path) : x.merged.conflicts = [] := by
  suffices hnone : ∀ path, ¬Reports x path by
    by_contra hne
    obtain ⟨c, hc⟩ := List.exists_mem_of_ne_nil _ hne
    exact hnone c.path ⟨c, hc, rfl⟩
  induction x using walk_induction with
  | whole x side hw => exact fun path => not_reports_of_takesWhole hw
  | mapping x hw hm ih =>
    intro path hr
    obtain ⟨key, hk⟩ := (reports_mapping_iff hw hm).mp hr
    exact ih key (fun p hc => h p (.field key (bothChanged_of_takesWhole hw) hm hc)) path hk
  | keyedList x hw hl ih =>
    intro path hr
    obtain ⟨id, hid⟩ := (reports_keyedList_iff hw hl).mp hr
    have hentry : ∀ p, ¬Clash (x.entry id) p := fun p hc =>
      h p (.item id (bothChanged_of_takesWhole hw) hl hc)
    by_cases hrep : x.Repeated id
    · -- Lists that repeat the id cannot both have changed what they hold for it.
      have hwhole : (x.item id).takesWhole ≠ none := fun hn => hentry _
        (.here (bothChanged_entry hl hn) (not_areMappings_entry hrep) not_areKeyedLists_entry)
      obtain ⟨side, hside⟩ := Option.ne_none_iff_exists'.mp hwhole
      exact not_reports_of_takesWhole hside hid
    · rw [Position.entry_eq_item hl hrep] at hentry
      exact ih id hentry path hid
  | unmergeable x hw hm hl =>
    exact absurd (.here (bothChanged_of_takesWhole hw) hm hl) (h x.path)

/-- Only a position itself is reported for an id that some list repeats. -/
theorem forall_clash_entry_reports_iff {id : String} (hrep : x.Repeated id) :
    (∀ path, Clash (x.entry id) path → Reports (x.item id) path) ↔
      ((x.entry id).BothChanged → (x.item id).takesWhole = none ∧ ¬(x.item id).AreMappings) := by
  have hclash : ∀ path, Clash (x.entry id) path ↔
      (x.entry id).BothChanged ∧ path = (x.item id).path := by
    refine fun path => ⟨fun hc => ⟨hc.bothChanged, ?_⟩, ?_⟩
    · exact (clash_iff_of_unmergeable hc.bothChanged (not_areMappings_entry hrep)
        not_areKeyedLists_entry).mp hc
    · rintro ⟨hboth, rfl⟩
      exact .here hboth (not_areMappings_entry hrep) not_areKeyedLists_entry
  simp only [hclash, and_imp, forall_eq_apply_imp_iff]
  refine forall_congr' fun _ => ?_
  constructor
  · intro hr
    have hn : (x.item id).takesWhole = none :=
      Option.eq_none_iff_forall_ne_some.mpr fun side hs => not_reports_of_takesWhole hs hr
    refine ⟨hn, fun hm => ?_⟩
    obtain ⟨key, hk⟩ := (reports_mapping_iff hn hm).mp hr
    have := (prefix_of_reports hk).length_le
    simp [Position.field] at this
  · rintro ⟨hn, hm⟩
    exact (reports_unmergeable_iff hn hm not_areKeyedLists_item).mpr rfl

/-- Where the children of a position lie on different paths, everything is reported if and only if
it is reported child by child. -/
theorem forall_exists_child_iff {α : Type} {p : MergePath} (step : α → PathStep)
    (hstep : Function.Injective step) {C R : α → MergePath → Prop}
    (hC : ∀ a q, C a q → p ++ [step a] <+: q) (hR : ∀ a q, R a q → p ++ [step a] <+: q) :
    (∀ q, (∃ a, C a q) → ∃ a, R a q) ↔ ∀ a q, C a q → R a q := by
  constructor
  · intro h a q hc
    obtain ⟨b, hr⟩ := h q ⟨a, hc⟩
    have hab : a = b := hstep (step_eq_of_prefixes (hC a q hc) (hR b q hr))
    exact hab ▸ hr
  · rintro h q ⟨a, hc⟩
    exact ⟨a, h a q hc⟩

theorem reportsHere_mapping (h : x.takesWhole = none) (hm : x.AreMappings) : ReportsHere x :=
  ⟨fun hs => absurd h hs, fun _ hl => absurd hm (not_areMappings_of_areKeyedLists hl)⟩

theorem keepsHere_mapping (h : x.takesWhole = none) (hm : x.AreMappings) : KeepsHere x :=
  ⟨leavesAgree_of_takesWhole h, fun _ hl => absurd hm (not_areMappings_of_areKeyedLists hl)⟩

/-- **Every clash is reported exactly if it is at every position reached.** -/
theorem reports_iff :
    (∀ path, Clash x path → Reports x path) ↔ ∀ y, Reaches x y → ReportsHere y := by
  induction x using walk_induction with
  | whole x side hw =>
    simp only [Reaches, walks_whole_iff hw, forall_eq, ReportsHere]
    constructor
    · intro h
      exact ⟨fun _ => forall_not_clash_iff.mp fun path hc => not_reports_of_takesWhole hw (h path hc),
        fun hn => by simp [hn] at hw⟩
    · rintro ⟨h, -⟩ path hc
      exact absurd hc (forall_not_clash_iff.mpr (h (by simp [hw])) path)
  | mapping x hw hm ih =>
    have hboth := bothChanged_of_takesWhole hw
    simp only [clash_mapping_iff hboth hm, reports_mapping_iff hw hm]
    rw [forall_exists_child_iff PathStep.field (fun _ _ h => PathStep.field.inj h)
      (fun _ _ => prefix_of_clash) (fun _ _ => prefix_of_reports), forall_congr' ih]
    constructor
    · intro h y hy
      rcases (walks_mapping_iff hw hm).mp hy with rfl | ⟨key, hy⟩
      · exact reportsHere_mapping hw hm
      · exact h key y hy
    · exact fun h key y hy => h y ((walks_mapping_iff hw hm).mpr (.inr ⟨key, hy⟩))
  | keyedList x hw hl ih =>
    have hboth := bothChanged_of_takesWhole hw
    simp only [clash_keyedList_iff hboth hl, reports_keyedList_iff hw hl]
    rw [forall_exists_child_iff PathStep.item (fun _ _ h => PathStep.item.inj h)
      (fun _ _ => prefix_of_clash) (fun _ _ => prefix_of_reports)]
    constructor
    · intro h y hy
      rcases (walks_keyedList_iff hw hl).mp hy with rfl | ⟨id, hrep, hy⟩
      · exact ⟨fun hs => absurd hw hs, fun _ _ id hrep =>
          (forall_clash_entry_reports_iff hrep).mp (h id)⟩
      · have hid := h id
        rw [Position.entry_eq_item hl hrep] at hid
        exact (ih id).mp hid y hy
    · intro h id
      by_cases hrep : x.Repeated id
      · exact (forall_clash_entry_reports_iff hrep).mpr ((h x .here).2 hw hl id hrep)
      · rw [Position.entry_eq_item hl hrep]
        exact (ih id).mpr fun y hy =>
          h y ((walks_keyedList_iff hw hl).mpr (.inr ⟨id, hrep, hy⟩))
  | unmergeable x hw hm hl =>
    simp only [Reaches, walks_unmergeable_iff hm hl, forall_eq, reports_unmergeable_iff hw hm hl,
      clash_iff_of_unmergeable (bothChanged_of_takesWhole hw) hm hl, imp_self, implies_true,
      true_iff]
    exact ⟨fun hs => absurd hw hs, fun _ hl' => absurd hl' hl⟩

theorem entry_of_itemsWithId_eq_toList {v w : Option Json} {id : String}
    (h : itemsWithId id (listItems v) = w.toList) : entry id v = w := by
  rw [entry, h]
  cases w <;> rfl

/-- **If nothing clashes, the merged value resolves the position exactly if the leaves agree below
every side that is taken whole at a position reached.** -/
theorem resolved_iff (h : ∀ path, ¬Clash x path) :
    Resolved x x.merged.value ↔ ∀ y, Reaches x y → KeepsHere y := by
  induction x using walk_induction with
  | whole x side hw =>
    simp only [Reaches, walks_whole_iff hw, forall_eq, KeepsHere, hw, merged_of_takesWhole hw,
      resolved_whole_iff hw]
    simp
  | mapping x hw hm ih =>
    have hboth := bothChanged_of_takesWhole hw
    simp only [clash_mapping_iff hboth hm, not_exists] at h
    rw [resolved_mapping_iff hboth hm, and_iff_right (isMapping_merged hw hm)]
    simp only [field_merged hw hm]
    rw [forall_congr' fun key => ih key fun path => h path key]
    constructor
    · intro h y hy
      rcases (walks_mapping_iff hw hm).mp hy with rfl | ⟨key, hy⟩
      · exact keepsHere_mapping hw hm
      · exact h key y hy
    · exact fun h key y hy => h y ((walks_mapping_iff hw hm).mpr (.inr ⟨key, hy⟩))
  | keyedList x hw hl ih =>
    have hboth := bothChanged_of_takesWhole hw
    simp only [clash_keyedList_iff hboth hl, not_exists] at h
    obtain ⟨items, hvalue, hids, hentry⟩ := keyedList_merged hw hl
    have hkeyed : (keyedItems x.merged.value).isSome := by
      rw [hvalue, keyedItems, Option.isSome_map]
      exact mapM_itemId_isSome_iff.mpr hids
    have hlist : isList x.merged.value := by rw [hvalue]; rfl
    rw [resolved_keyedList_iff hboth hl, and_iff_right hkeyed, and_iff_right hlist]
    have hread : ∀ id, entry id x.merged.value = (x.item id).merged.value := fun id =>
      entry_of_itemsWithId_eq_toList (by rw [hvalue]; exact hentry id)
    simp only [hread]
    have hrepeated : ∀ id, x.Repeated id →
        (Resolved (x.entry id) (x.item id).merged.value ↔ ∀ side,
          (x.item id).takesWhole = some side → StandsFor side (x.entry id)) := by
      intro id hrep
      have hwhole : (x.item id).takesWhole ≠ none := fun hn => h _ id
        (.here (bothChanged_entry hl hn) (not_areMappings_entry hrep) not_areKeyedLists_entry)
      obtain ⟨side, hside⟩ := Option.ne_none_iff_exists'.mp hwhole
      rw [merged_of_takesWhole hside, hside,
        resolved_leaf_iff (not_areMappings_entry hrep) not_areKeyedLists_entry]
      simp
    constructor
    · intro hall y hy
      rcases (walks_keyedList_iff hw hl).mp hy with rfl | ⟨id, hrep, hy⟩
      · exact ⟨leavesAgree_of_takesWhole hw, fun _ _ id hrep => (hrepeated id hrep).mp (hall id)⟩
      · have hid := hall id
        have hnone := fun path => h path id
        rw [Position.entry_eq_item hl hrep] at hid hnone
        exact (ih id hnone).mp hid y hy
    · intro hall id
      by_cases hrep : x.Repeated id
      · exact (hrepeated id hrep).mpr ((hall x .here).2 hw hl id hrep)
      · have hnone := fun path => h path id
        rw [Position.entry_eq_item hl hrep] at hnone ⊢
        exact (ih id hnone).mpr fun y hy =>
          hall y ((walks_keyedList_iff hw hl).mpr (.inr ⟨id, hrep, hy⟩))
  | unmergeable x hw hm hl =>
    exact absurd (.here (bothChanged_of_takesWhole hw) hm hl) (h x.path)

/-! ### When a merge loses no update -/

/-- **A merge of three graphs loses no update exactly when `KeepsUpdates` holds of them.** -/
theorem losesNoUpdate_iff (base ours theirs : List (String × Json)) :
    LosesNoUpdate (.obj base) (.obj ours) (.obj theirs) ↔
      KeepsUpdates ⟨[], some (.obj base), some (.obj ours), some (.obj theirs)⟩ := by
  obtain ⟨hgraph, -, hconflicts⟩ := mergePipelineGraphs_obj base ours theirs
  rw [LosesNoUpdate, KeepsUpdates, hgraph, hconflicts, dedupeConflicts_eq_nil_iff,
    List.map_eq_nil_iff, ← forall_not_clash_iff]
  constructor
  · rintro ⟨hresolved, hreports⟩
    exact ⟨reports_iff.mp hreports, fun hnone =>
      (resolved_iff hnone).mp (hresolved (conflicts_eq_nil hnone))⟩
  · rintro ⟨hreports, hkeeps⟩
    have hreported := reports_iff.mpr hreports
    refine ⟨fun hnil => ?_, hreported⟩
    -- Without a conflict nothing clashes, for every clash is reported.
    have hnone : ∀ path, ¬Clash ⟨[], some (.obj base), some (.obj ours), some (.obj theirs)⟩
        path := by
      intro path hc
      obtain ⟨c, hc, -⟩ := hreported path hc
      simp [hnil] at hc
    exact (resolved_iff hnone).mpr (hkeeps hnone)

/-- Where Python finds two of three values equal, they are the same JSON. -/
structure ComparesAsJson (x : Position) : Prop where
  sides : pyEqual x.ours x.theirs → Same x.ours x.theirs
  ours : pyEqual x.ours x.base → Same x.ours x.base
  theirs : pyEqual x.theirs x.base → Same x.theirs x.base

/-- Values that are the same are the same at each leaf. -/
theorem Leaf.same {x z : Position} (h : Leaf x z) :
    (Same x.ours x.theirs → Same z.ours z.theirs) ∧ (Same x.ours x.base → Same z.ours z.base) ∧
      (Same x.theirs x.base → Same z.theirs z.base) := by
  induction h with
  | here => exact ⟨id, id, id⟩
  | field key _ _ ih =>
    obtain ⟨hsides, hours, htheirs⟩ := ih
    exact ⟨fun h => hsides (h.field key), fun h => hours (h.field key),
      fun h => htheirs (h.field key)⟩
  | item id _ _ ih =>
    obtain ⟨hsides, hours, htheirs⟩ := ih
    exact ⟨fun h => hsides (h.entry id), fun h => hours (h.entry id),
      fun h => htheirs (h.entry id)⟩

/-- **A merge of graphs that Python compares as JSON does, and whose lists repeat no id, loses no
update.** -/
theorem keepsUpdates_of_comparesAsJson {x : Position}
    (h : ∀ y, Reaches x y → ComparesAsJson y ∧ ∀ id, ¬y.Repeated id) : KeepsUpdates x := by
  constructor
  · intro y hy
    obtain ⟨hjson, hrep⟩ := h y hy
    refine ⟨fun hw z hz hboth => hw (takesWhole_eq_none_iff.mpr ⟨?_, ?_, ?_⟩),
      fun _ _ id hrepeated => absurd hrepeated (hrep id)⟩
    · exact fun hpy => hboth.2.2 (hz.same.1 (hjson.sides hpy))
    · exact fun hpy => hboth.1 (hz.same.2.1 (hjson.ours hpy))
    · exact fun hpy => hboth.2.1 (hz.same.2.2 (hjson.theirs hpy))
  · intro _ y hy
    obtain ⟨hjson, hrep⟩ := h y hy
    refine ⟨⟨fun hpy z hz => .inl (hz.same.1 (hjson.sides hpy)),
      fun _ hpy z hz => .inr (hz.same.2.1 (hjson.ours hpy)),
      fun _ _ hpy z hz => .inr (hz.same.2.2 (hjson.theirs hpy))⟩,
      fun _ _ id hrepeated => absurd hrepeated (hrep id)⟩

/-- A graph document whose layout holds one setting. -/
def layoutGraph (locked : Json) : List (String × Json) :=
  [("schemaVersion", .int 2), ("nodes", .arr []), ("edges", .arr []),
    ("layout", .obj [("locked", locked)]), ("outputContract", .obj []), ("tests", .arr []),
    ("schedule", .null)]

/-- Against a base of `1`, `ours` sets `true` and `theirs` sets `2`: the change to `true` is taken
for no change, and is overwritten without a conflict. -/
theorem not_losesNoUpdate_layout : ¬LosesNoUpdate (.obj (layoutGraph (.int 1)))
    (.obj (layoutGraph (.bool true))) (.obj (layoutGraph (.int 2))) := by
  rintro ⟨-, hreports⟩
  have hclash : Clash ⟨[], some (.obj (layoutGraph (.int 1))),
      some (.obj (layoutGraph (.bool true))), some (.obj (layoutGraph (.int 2)))⟩
      [.field "layout", .field "locked"] :=
    .field "layout" (by decide) rfl <| .field "locked" (by decide) rfl <|
      .here (by decide) (by decide) fun h => absurd h.1 (by decide)
  have hwhole : takesWhole ⟨[], some (.obj (layoutGraph (.int 1))),
      some (.obj (layoutGraph (.bool true))), some (.obj (layoutGraph (.int 2)))⟩ =
      some (some (.obj (layoutGraph (.int 2)))) := by decide
  exact not_reports_of_takesWhole hwhole (hreports _ hclash)

end FoundryLite.Pipeline
