import FoundryLite.Pipeline.MergeLaw
import Mathlib.Data.List.Perm.Basic

/-!
# Exchanging the two sides of a merge

The conflicts of a merge do not depend on which side is called `ours`: the walk visits the same
positions and meets the same conflicts (`conflicts_swap`). The merged document does. Where
Python's `==` finds the two sides equal the walk takes `ours`, and values that are equal to Python
need not be the same JSON. Without a conflict these positions are the only source of asymmetry, so
that the merged documents agree, up to the order of nodes and edges, exactly when the two sides
agree at each of them (`merged_swap_iff`).

## Main results

* `conflicts_swap`: the same conflicts, in the same order.
* `merged_swap_iff`: when the two merged values agree.
* `isSymmetric_iff`: the merge of three graphs is symmetric exactly when `SidesAgree` holds.
-/

namespace FoundryLite.Pipeline

open Position

/-- The items of two lists are the same JSON values in some order. -/
def SameItems (v w : Option Json) : Prop :=
  isList v ∧ isList w ∧
    ((listItems v).map (Json.norm .document)).Perm ((listItems w).map (Json.norm .document))

/-- The same JSON at a position, up to the order of the nodes and of the edges. -/
def SameUpToOrder (path : MergePath) (v w : Option Json) : Prop :=
  Same v w ∨ (isKeyedListPath path ∧ SameItems v w) ∨
    (path = [] ∧ isMapping v ∧ isMapping w ∧ ∀ key, Same (field key v) (field key w) ∨
      (isKeyedListPath [.field key] ∧ SameItems (field key v) (field key w)))

/-- Exchanging the two sides of a merge exchanges nothing in what it reports, and without a
conflict gives the same graph up to the order of nodes and edges. -/
def IsSymmetric (base ours theirs : Json) : Prop :=
  (mergePipelineGraphs base theirs ours).conflicts =
      (mergePipelineGraphs base ours theirs).conflicts ∧
    ((mergePipelineGraphs base ours theirs).conflicts = [] →
      SameUpToOrder [] (some (mergePipelineGraphs base ours theirs).graph)
        (some (mergePipelineGraphs base theirs ours).graph))

/-- Every position the walk visits. -/
def Visits (x y : Position) : Prop := Walks (fun _ _ => True) x y

/-- The three values are pairwise unequal and cannot be merged member by member. -/
def Unmergeable (x : Position) : Prop :=
  x.takesWhole = none ∧ ¬x.AreMappings ∧ ¬x.AreKeyedLists

/-- **The exact condition for symmetry**: some position visited cannot be merged, or wherever the
two sides are equal to Python they are the same JSON, up to the order of nodes and edges. -/
def SidesAgree (x : Position) : Prop :=
  (∃ y, Visits x y ∧ Unmergeable y) ∨
    ∀ y, Visits x y → pyEqual y.ours y.theirs → SameUpToOrder y.path y.ours y.theirs

/-! ### The walk with the sides exchanged -/

namespace Position

variable {x : Position}

theorem takesWhole_swap_eq_none_iff : x.swap.takesWhole = none ↔ x.takesWhole = none := by
  rw [takesWhole_eq_none_iff, takesWhole_eq_none_iff, swap, pyEqual_comm x.theirs x.ours]
  tauto

theorem unmergeableKind_swap : x.swap.unmergeableKind = x.unmergeableKind := by
  simp only [unmergeableKind, swap, areLists_swap]

end Position

theorem mergedKeys_swap (b o t : List (String × Json)) :
    mergedKeys b t o = mergedKeys b o t := by
  have hsorted : ∀ b o t : List (String × Json), (mergedKeys b o t).Pairwise (· < ·) :=
    fun b o t => List.pairwise_map.mpr (Dict.sorted_canon _)
  refine List.Perm.eq_of_pairwise (fun a b _ _ h h' => (lt_asymm h h').elim) (hsorted b t o)
    (hsorted b o t) ?_
  rw [List.perm_ext_iff_of_nodup (nodup_mergedKeys _ _ _) (nodup_mergedKeys _ _ _)]
  intro k
  simp only [mem_mergedKeys]
  tauto

/-- **Exchanging the sides changes no conflict.** -/
theorem conflicts_swap (x : Position) : x.swap.merged.conflicts = x.merged.conflicts := by
  induction x using walk_induction with
  | whole x side hw =>
    have hn : x.swap.takesWhole ≠ none := fun hn => by
      simp [takesWhole_swap_eq_none_iff.mp hn] at hw
    obtain ⟨side', hside⟩ := Option.ne_none_iff_exists'.mp hn
    rw [merged_of_takesWhole hw, merged_of_takesWhole hside]
  | mapping x hw hm ih =>
    rw [merged_mapping hw hm, merged_mapping (takesWhole_swap_eq_none_iff.mpr hw)
      (areMappings_swap_iff.mpr hm)]
    simp only [mergeMapping, swap, mergedKeys_swap]
    exact congrArg (List.flatMap · _) (funext ih)
  | keyedList x hw hl ih =>
    rw [merged_keyedList hw hl, merged_keyedList (takesWhole_swap_eq_none_iff.mpr hw)
      (areKeyedLists_swap_iff.mpr hl)]
    simp only [mergeKeyedList, swap, mergedKeys_swap]
    exact congrArg (List.flatMap · _) (funext ih)
  | unmergeable x hw hm hl =>
    rw [merged_unmergeable hw hm hl, merged_unmergeable (takesWhole_swap_eq_none_iff.mpr hw)
      (mt areMappings_swap_iff.mp hm) (mt areKeyedLists_swap_iff.mp hl), unmergeableKind_swap]
    rfl

/-- A conflict is reported exactly if a position visited cannot be merged. -/
theorem conflicts_ne_nil_iff {x : Position} :
    x.merged.conflicts ≠ [] ↔ ∃ y, Visits x y ∧ Unmergeable y := by
  have hreports : ∀ x : Position, x.merged.conflicts ≠ [] ↔ ∃ path, Reports x path :=
    fun x => ⟨fun h => (List.exists_mem_of_ne_nil _ h).elim fun c hc => ⟨c.path, c, hc, rfl⟩,
      fun ⟨_, _, hc, _⟩ => List.ne_nil_of_mem hc⟩
  rw [hreports]
  induction x using walk_induction with
  | whole x side hw =>
    simp [not_reports_of_takesWhole hw, Visits, walks_whole_iff hw, Unmergeable, hw]
  | mapping x hw hm ih =>
    have hx : ¬Unmergeable x := fun h => h.2.1 hm
    simp only [reports_mapping_iff hw hm, Visits, walks_mapping_iff hw hm, or_and_right, exists_or,
      exists_eq_left, hx, false_or] at ih ⊢
    rw [exists_comm, exists_congr ih]
    grind
  | keyedList x hw hl ih =>
    have hx : ¬Unmergeable x := fun h => h.2.2 hl
    simp only [reports_keyedList_iff hw hl, Visits, walks_keyedList_iff hw hl, or_and_right,
      exists_or, exists_eq_left, hx, false_or, true_and] at ih ⊢
    rw [exists_comm, exists_congr ih]
    grind
  | unmergeable x hw hm hl =>
    simpa [reports_unmergeable_iff hw hm hl, Visits, walks_unmergeable_iff hm hl, Unmergeable, hw,
      hl] using hm

/-! ### Equality up to order -/

theorem SameUpToOrder.of_same {path : MergePath} {v w : Option Json} (h : Same v w) :
    SameUpToOrder path v w := .inl h

theorem not_isKeyedListPath_nil : ¬isKeyedListPath [] := by
  simp [isKeyedListPath_iff]

theorem not_isKeyedListPath_append {path : MergePath} (h : path ≠ []) (step : PathStep) :
    ¬isKeyedListPath (path ++ [step]) := by
  rw [isKeyedListPath_iff]
  rintro (hp | hp) <;> exact h (by simpa using congrArg List.length hp)

private theorem not_sameItems_of_isMapping {v w : Option Json} (hv : isMapping v) : ¬SameItems v w := by
  obtain ⟨fs, rfl⟩ := exists_obj_of_isMapping hv
  exact fun h => by simpa [isList] using h.1

/-- Below a member of the document the order of nodes and edges plays no role. -/
theorem sameUpToOrder_iff_same {path : MergePath} (h : ¬isKeyedListPath path) (hne : path ≠ [])
    {v w : Option Json} : SameUpToOrder path v w ↔ Same v w := by
  simp [SameUpToOrder, h, hne]

theorem sameUpToOrder_mapping_iff {path : MergePath} {v w : Option Json} (hv : isMapping v)
    (hw : isMapping w) : SameUpToOrder path v w ↔
      ∀ key, SameUpToOrder (path ++ [.field key]) (field key v) (field key w) := by
  have hitems : ¬SameItems v w := not_sameItems_of_isMapping hv
  by_cases hp : path = []
  · subst hp
    simp only [SameUpToOrder, same_mapping_iff hv hw, hitems, hv, hw, List.nil_append]
    simp only [List.cons_ne_nil, false_and, or_false, and_false, false_or, true_and]
    exact ⟨fun h => h.elim (fun h key => .inl (h key)) id, .inr⟩
  · simp only [sameUpToOrder_iff_same (not_isKeyedListPath_append hp _) (by simp : _ ++ [_] ≠ [])]
    rw [← same_mapping_iff hv hw]
    simp [SameUpToOrder, hp, hitems]

theorem Same.toList {v w : Option Json} :
    v.toList.map (Json.norm .document) = w.toList.map (Json.norm .document) ↔ Same v w := by
  cases v <;> cases w <;> simp [Same]

/-- Lists that hold at most one item for each id are the same up to order exactly when they hold
the same item for each id. -/
theorem perm_iff_same_items {xs ys : List Json} {f g : String → Option Json}
    (hxs : ∀ x ∈ xs, (itemId x).isSome) (hys : ∀ y ∈ ys, (itemId y).isSome)
    (hf : ∀ id, itemsWithId id xs = (f id).toList) (hg : ∀ id, itemsWithId id ys = (g id).toList) :
    (xs.map (Json.norm .document)).Perm (ys.map (Json.norm .document)) ↔ ∀ id, Same (f id) (g id) := by
  have hfilter : ∀ id, itemsWithId id (xs.map (Json.norm .document)) =
      (f id).toList.map (Json.norm .document) := fun id => by rw [itemsWithId_map_norm, hf]
  have hfilter' : ∀ id, itemsWithId id (ys.map (Json.norm .document)) =
      (g id).toList.map (Json.norm .document) := fun id => by rw [itemsWithId_map_norm, hg]
  constructor
  · intro h id
    have hperm := h.filter fun item => itemId item = some id
    rw [← itemsWithId, ← itemsWithId, hfilter, hfilter'] at hperm
    refine Same.toList.mp ?_
    cases hfid : f id with
    | none => simpa [hfid] using hperm
    | some x => simpa [hfid] using hperm
  · intro h
    refine List.perm_iff_count.mpr fun j => ?_
    cases hj : itemId j with
    | none =>
      have hcount : ∀ {l : List Json}, (∀ x ∈ l, (itemId x).isSome) →
          (l.map (Json.norm .document)).count j = 0 := by
        intro l hl
        refine List.count_eq_zero.mpr fun hmem => ?_
        obtain ⟨x, hx, rfl⟩ := List.mem_map.mp hmem
        rw [itemId_norm] at hj
        simpa [hj] using hl x hx
      rw [hcount hxs, hcount hys]
    | some id =>
      have hcount : ∀ l : List Json, l.count j = (itemsWithId id l).count j := fun l =>
        (List.count_filter (by simpa using hj)).symm
      rw [hcount, hcount (ys.map _), hfilter, hfilter', Same.toList.mpr (h id)]

/-! ### The merged values -/

/-- **Without a conflict the two merged values agree exactly when the two sides do** at every
position visited where Python finds them equal. -/
theorem merged_swap_iff {x : Position} (hnil : x.merged.conflicts = []) :
    SameUpToOrder x.path x.merged.value x.swap.merged.value ↔
      ∀ y, Visits x y → pyEqual y.ours y.theirs → SameUpToOrder y.path y.ours y.theirs := by
  have hnone : ¬∃ y, Visits x y ∧ Unmergeable y := fun h => conflicts_ne_nil_iff.mpr h hnil
  clear hnil
  induction x using walk_induction with
  | whole x side hw =>
    simp only [Visits, walks_whole_iff hw, forall_eq, merged_of_takesWhole hw]
    rw [takesWhole] at hw
    split_ifs at hw with h₁ h₂ h₃
    · obtain rfl := Option.some.inj hw
      have hswap : x.swap.takesWhole = some x.theirs := by
        rw [takesWhole, if_pos (by simpa [swap, pyEqual_comm] using h₁)]
        rfl
      rw [merged_of_takesWhole hswap, iff_true_intro h₁, true_imp_iff]
    · obtain rfl := Option.some.inj hw
      -- The exchanged walk finds that what it calls theirs is unchanged.
      have hswap : x.swap.takesWhole = some x.theirs := by
        have h₁' : ¬pyEqual x.theirs x.ours := by rwa [pyEqual_comm]
        have h₃' : ¬pyEqual x.theirs x.base := fun h =>
          h₁ (pyEqual_trans h₂ (by rwa [pyEqual_comm]))
        rw [takesWhole, swap, if_neg h₁', if_neg h₃', if_pos h₂]
      rw [merged_of_takesWhole hswap]
      exact iff_of_true (.of_same .rfl) fun h => absurd h h₁
    · obtain rfl := Option.some.inj hw
      have hswap : x.swap.takesWhole = some x.ours := by
        have h₁' : ¬pyEqual x.theirs x.ours := by rwa [pyEqual_comm]
        rw [takesWhole, swap, if_neg h₁', if_pos h₃]
      rw [merged_of_takesWhole hswap]
      exact iff_of_true (.of_same .rfl) fun h => absurd h h₁
  | mapping x hw hm ih =>
    have hw' := takesWhole_swap_eq_none_iff.mpr hw
    have hm' := areMappings_swap_iff.mpr hm
    have hne : ¬pyEqual x.ours x.theirs := (takesWhole_eq_none_iff.mp hw).1
    have hchild : ∀ key, ¬∃ y, Visits (x.field key) y ∧ Unmergeable y := by
      rintro key ⟨y, hy, hu⟩
      exact hnone ⟨y, (walks_mapping_iff hw hm).mpr (.inr ⟨key, hy⟩), hu⟩
    rw [sameUpToOrder_mapping_iff (isMapping_merged hw hm) (isMapping_merged hw' hm')]
    simp only [field_merged hw hm, field_merged hw' hm']
    have hall : (∀ key, SameUpToOrder (x.path ++ [.field key]) (x.field key).merged.value
        (x.swap.field key).merged.value) ↔ ∀ key y, Visits (x.field key) y →
          pyEqual y.ours y.theirs → SameUpToOrder y.path y.ours y.theirs :=
      forall_congr' fun key => ih key (hchild key)
    rw [hall]
    constructor
    · intro h y hy hyeq
      rcases (walks_mapping_iff hw hm).mp hy with rfl | ⟨key, hy⟩
      · exact absurd hyeq hne
      · exact h key y hy hyeq
    · exact fun h key y hy => h y ((walks_mapping_iff hw hm).mpr (.inr ⟨key, hy⟩))
  | keyedList x hw hl ih =>
    have hw' := takesWhole_swap_eq_none_iff.mpr hw
    have hl' := areKeyedLists_swap_iff.mpr hl
    have hne : ¬pyEqual x.ours x.theirs := (takesWhole_eq_none_iff.mp hw).1
    have hchild : ∀ id, ¬∃ y, Visits (x.item id) y ∧ Unmergeable y := by
      rintro id ⟨y, hy, hu⟩
      exact hnone ⟨y, (walks_keyedList_iff hw hl).mpr (.inr ⟨id, trivial, hy⟩), hu⟩
    obtain ⟨xs, hxs, hxid, hxitem⟩ := keyedList_merged hw hl
    obtain ⟨ys, hys, hyid, hyitem⟩ := keyedList_merged hw' hl'
    have hperm := perm_iff_same_items hxid hyid hxitem hyitem
    have hlists : SameUpToOrder x.path x.merged.value x.swap.merged.value ↔
        ∀ id, Same (x.item id).merged.value (x.swap.item id).merged.value := by
      rw [← hperm, hxs, hys]
      have hpath : x.path ≠ [] := fun h => not_isKeyedListPath_nil (h ▸ hl.1)
      simp only [SameUpToOrder, SameItems, hpath, hl.1, isList, listItems, false_and, or_false,
        true_and]
      exact ⟨fun h => h.elim (fun h => .of_eq (Json.norm_arr_eq_iff.mp (by simpa [Same] using h)))
        id, .inr⟩
    rw [hlists]
    have hitem : ∀ id, Same (x.item id).merged.value (x.swap.item id).merged.value ↔
        ∀ y, Visits (x.item id) y → pyEqual y.ours y.theirs →
          SameUpToOrder y.path y.ours y.theirs := fun id =>
      (sameUpToOrder_iff_same not_isKeyedListPath_item (by simp)).symm.trans (ih id (hchild id))
    rw [forall_congr' hitem]
    constructor
    · intro h y hy hyeq
      rcases (walks_keyedList_iff hw hl).mp hy with rfl | ⟨id, -, hy⟩
      · exact absurd hyeq hne
      · exact h id y hy hyeq
    · exact fun h id y hy => h y ((walks_keyedList_iff hw hl).mpr (.inr ⟨id, trivial, hy⟩))
  | unmergeable x hw hm hl => exact absurd ⟨x, .here, hw, hm, hl⟩ hnone

/-- **The merge of three graphs is symmetric exactly when `SidesAgree` holds of them.** -/
theorem isSymmetric_iff (base ours theirs : List (String × Json)) :
    IsSymmetric (.obj base) (.obj ours) (.obj theirs) ↔
      SidesAgree ⟨[], some (.obj base), some (.obj ours), some (.obj theirs)⟩ := by
  obtain ⟨hgraph, -, hconflicts⟩ := mergePipelineGraphs_obj base ours theirs
  obtain ⟨hgraph', -, hconflicts'⟩ := mergePipelineGraphs_obj base theirs ours
  have hswap := conflicts_swap ⟨[], some (.obj base), some (.obj ours), some (.obj theirs)⟩
  rw [IsSymmetric, SidesAgree, hgraph, hgraph', hconflicts, hconflicts',
    dedupeConflicts_eq_nil_iff, List.map_eq_nil_iff, ← conflicts_ne_nil_iff]
  have hsame : dedupeConflicts (List.map MergeConflict.report
      (Position.merged ⟨[], some (.obj base), some (.obj theirs), some (.obj ours)⟩).conflicts) =
      dedupeConflicts (List.map MergeConflict.report
        (Position.merged ⟨[], some (.obj base), some (.obj ours), some (.obj theirs)⟩).conflicts) :=
    congrArg (fun c => dedupeConflicts (List.map MergeConflict.report c)) hswap
  rw [hsame, eq_self, true_and]
  constructor
  · intro h
    by_cases hnil : (Position.merged ⟨[], some (.obj base), some (.obj ours),
        some (.obj theirs)⟩).conflicts = []
    · exact .inr ((merged_swap_iff hnil).mp (h hnil))
    · exact .inl hnil
  · rintro (hne | h) hnil
    · exact absurd hnil hne
    · exact (merged_swap_iff hnil).mpr h

/-- Against a base of `2`, the sides `1` and `true` are equal to Python: each order of the sides
merges to its own `ours`. -/
theorem not_isSymmetric_layout : ¬IsSymmetric (.obj (layoutGraph (.int 2)))
    (.obj (layoutGraph (.int 1))) (.obj (layoutGraph (.bool true))) := by
  rintro ⟨-, h⟩
  obtain ⟨hgraph, -, hconflicts⟩ := mergePipelineGraphs_obj (layoutGraph (.int 2))
    (layoutGraph (.int 1)) (layoutGraph (.bool true))
  obtain ⟨hgraph', -, -⟩ := mergePipelineGraphs_obj (layoutGraph (.int 2))
    (layoutGraph (.bool true)) (layoutGraph (.int 1))
  have hwhole : takesWhole ⟨[], some (.obj (layoutGraph (.int 2))),
      some (.obj (layoutGraph (.int 1))), some (.obj (layoutGraph (.bool true)))⟩ =
      some (some (.obj (layoutGraph (.int 1)))) := by decide
  have hwhole' : takesWhole ⟨[], some (.obj (layoutGraph (.int 2))),
      some (.obj (layoutGraph (.bool true))), some (.obj (layoutGraph (.int 1)))⟩ =
      some (some (.obj (layoutGraph (.bool true)))) := by decide
  rw [hgraph, hgraph', hconflicts, merged_of_takesWhole hwhole, merged_of_takesWhole hwhole'] at h
  rcases h rfl with h | ⟨h, -⟩ | ⟨-, -, -, h⟩
  · exact absurd h (by decide)
  · exact absurd h (by decide)
  · rcases h "layout" with h | ⟨h, -⟩
    · exact absurd h (by decide)
    · exact absurd h (by decide)

end FoundryLite.Pipeline
