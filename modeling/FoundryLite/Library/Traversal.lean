import Mathlib.Data.Set.Card

/-!
# Sets reached along a chain of relations

A traversal follows one relation after the other: what it reaches is the image of a set along the
chain. `search` computes it, a list of distinct elements for each set, and gives up where one of
these gets longer than a limit.

What is searched is what the lists of successors hold. Where these leave successors out, the search
cannot tell, and `Reached` of the smaller relation is what it computes.

## Main results

* `search_eq_some`: what a search finds is what is reached, each once.
* `search_isSome_iff`: it gives up exactly where some set on the way exceeds the limit.
-/

namespace Traversal

variable {H α : Type}

/-! ### Chains -/

/-- One step along each relation leads from the one element to the other. -/
def Along (R : H → α → α → Prop) : List H → α → α → Prop
  | [], x, y => x = y
  | hop :: hops, x, y => ∃ z, R hop x z ∧ Along R hops z y

/-- What is reached from a set along a chain. -/
def Reached (R : H → α → α → Prop) (start : Set α) (hops : List H) : Set α :=
  {y | ∃ x ∈ start, Along R hops x y}

variable {R S : H → α → α → Prop} {start : Set α} {hop : H} {hops : List H} {x y : α} {limit : ℕ}

theorem reached_nil : Reached R start [] = start := by
  ext y
  simp [Reached, Along]

theorem mem_reached_singleton : y ∈ Reached R start [hop] ↔ ∃ x ∈ start, R hop x y := by
  simp [Reached, Along]

theorem reached_cons :
    Reached R start (hop :: hops) = Reached R (Reached R start [hop]) hops := by
  ext y
  constructor
  · rintro ⟨x, hx, z, hxz, hzy⟩
    exact ⟨z, mem_reached_singleton.mpr ⟨x, hx, hxz⟩, hzy⟩
  · rintro ⟨z, hz, hzy⟩
    obtain ⟨x, hx, hxz⟩ := mem_reached_singleton.mp hz
    exact ⟨x, hx, z, hxz, hzy⟩

theorem Along.mono (hRS : ∀ hop ∈ hops, ∀ x y, R hop x y → S hop x y) (h : Along R hops x y) :
    Along S hops x y := by
  induction hops generalizing x with
  | nil => exact h
  | cons hop hops ih =>
    obtain ⟨z, hxz, hzy⟩ := h
    exact ⟨z, hRS hop List.mem_cons_self x z hxz,
      ih (fun hop hmem => hRS hop (List.mem_cons_of_mem _ hmem)) hzy⟩

/-- What a smaller relation reaches, the larger one does. -/
theorem reached_mono (hRS : ∀ hop ∈ hops, ∀ x y, R hop x y → S hop x y) :
    Reached R start hops ⊆ Reached S start hops := by
  rintro y ⟨x, hx, hxy⟩
  exact ⟨x, hx, hxy.mono hRS⟩

/-- No set on the way has more elements than the limit. -/
def Fits (R : H → α → α → Prop) (limit : ℕ) : Set α → List H → Prop
  | _, [] => True
  | start, hop :: hops => (Reached R start [hop]).encard ≤ limit ∧
      Fits R limit (Reached R start [hop]) hops

/-! ### Distinct elements -/

variable [DecidableEq α]

/-- The distinct elements of a list in front of those that were seen, where there are not too
many. -/
def boundedDistinct (limit : ℕ) : List α → List α → Option (List α)
  | seen, [] => some seen.reverse
  | seen, x :: xs =>
    if x ∈ seen then boundedDistinct limit seen xs
    else if limit < (x :: seen).length then none
    else boundedDistinct limit (x :: seen) xs

theorem boundedDistinct_eq_some {seen xs ys : List α}
    (h : boundedDistinct limit seen xs = some ys) (hseen : seen.Nodup) :
    ys.Nodup ∧ ∀ y, y ∈ ys ↔ y ∈ seen ∨ y ∈ xs := by
  induction xs generalizing seen with
  | nil =>
    obtain rfl := Option.some.inj h
    exact ⟨List.nodup_reverse.mpr hseen, by simp⟩
  | cons x xs ih =>
    rw [boundedDistinct] at h
    split_ifs at h with hmem
    · obtain ⟨hnodup, hys⟩ := ih h hseen
      refine ⟨hnodup, fun y => (hys y).trans ?_⟩
      rw [List.mem_cons, or_left_comm]
      exact ⟨.inr, fun hy => hy.elim (fun hyx => .inl (hyx ▸ hmem)) id⟩
    · obtain ⟨hnodup, hys⟩ := ih h (List.nodup_cons.mpr ⟨hmem, hseen⟩)
      refine ⟨hnodup, fun y => (hys y).trans ?_⟩
      rw [List.mem_cons, List.mem_cons, or_assoc, or_left_comm]

theorem encard_mem_of_nodup {xs : List α} (h : xs.Nodup) :
    {x | x ∈ xs}.encard = xs.length := by
  rw [← List.coe_toFinset, Set.encard_coe_eq_coe_finsetCard, List.toFinset_card_of_nodup h]

theorem boundedDistinct_isSome_iff {seen xs : List α} (hseen : seen.Nodup)
    (hlength : seen.length ≤ limit) :
    (boundedDistinct limit seen xs).isSome ↔ {y | y ∈ seen ∨ y ∈ xs}.encard ≤ limit := by
  induction xs generalizing seen with
  | nil => simp [boundedDistinct, encard_mem_of_nodup hseen, hlength]
  | cons x xs ih =>
    rw [boundedDistinct]
    split_ifs with hmem hlong
    · rw [ih hseen hlength]
      have hset : {y | y ∈ seen ∨ y ∈ x :: xs} = {y | y ∈ seen ∨ y ∈ xs} := by
        ext y
        rw [Set.mem_ofPred_eq, Set.mem_ofPred_eq, List.mem_cons, or_left_comm]
        exact ⟨fun hy => hy.elim (fun hyx => .inl (hyx ▸ hmem)) id, .inr⟩
      rw [hset]
    · refine iff_of_false (by simp) fun hle => ?_
      -- What was seen and the next element are already too many.
      have hsubset : {y | y ∈ x :: seen} ⊆ {y | y ∈ seen ∨ y ∈ x :: xs} := by
        intro y hy
        rcases List.mem_cons.mp hy with rfl | hy
        · exact .inr List.mem_cons_self
        · exact .inl hy
      have hcard := (Set.encard_le_encard hsubset).trans hle
      rw [encard_mem_of_nodup (List.nodup_cons.mpr ⟨hmem, hseen⟩)] at hcard
      exact absurd (Nat.cast_le.mp hcard) (Nat.not_le_of_lt hlong)
    · rw [ih (List.nodup_cons.mpr ⟨hmem, hseen⟩) (Nat.le_of_not_lt hlong)]
      have hset : {y | y ∈ x :: seen ∨ y ∈ xs} = {y | y ∈ seen ∨ y ∈ x :: xs} := by
        ext y
        simp only [Set.mem_ofPred_eq, List.mem_cons, or_assoc, or_left_comm]
      rw [hset]

theorem nodup_eraseDups (xs : List α) : xs.eraseDups.Nodup := by
  induction h : xs.length using Nat.strongRecOn generalizing xs with
  | ind n ih =>
    cases xs with
    | nil => simp
    | cons x xs =>
      subst h
      rw [List.eraseDups_cons, List.nodup_cons, List.mem_eraseDups]
      exact ⟨by simp, ih _ (Nat.lt_succ_of_le (List.length_filter_le _ _)) _ rfl⟩

/-! ### The search -/

/-- The sets on the way as lists of distinct elements, where none is too long. -/
def search (expand : H → α → List α) (limit : ℕ) : List H → List α → Option (List α)
  | [], xs => some xs
  | hop :: hops, xs =>
    (boundedDistinct limit [] (xs.flatMap (expand hop))).bind (search expand limit hops)

variable {expand : H → α → List α}

omit [DecidableEq α] in
theorem reached_singleton_flatMap {xs : List α} :
    {y | y ∈ xs.flatMap (expand hop)} =
      Reached (fun hop x y => y ∈ expand hop x) {x | x ∈ xs} [hop] := by
  ext y
  rw [mem_reached_singleton]
  exact List.mem_flatMap

/-- **A search finds what is reached, and each element once.** -/
theorem search_eq_some {xs ys : List α} (h : search expand limit hops xs = some ys)
    (hxs : xs.Nodup) :
    ys.Nodup ∧ ∀ y, y ∈ ys ↔ y ∈ Reached (fun hop x y => y ∈ expand hop x) {x | x ∈ xs} hops := by
  induction hops generalizing xs with
  | nil =>
    obtain rfl := Option.some.inj h
    rw [reached_nil]
    exact ⟨hxs, fun y => Iff.rfl⟩
  | cons hop hops ih =>
    obtain ⟨zs, hzs, hys⟩ := Option.bind_eq_some_iff.mp h
    obtain ⟨hnodup, hmem⟩ := boundedDistinct_eq_some hzs List.nodup_nil
    have hset : {z | z ∈ zs} = Reached (fun hop x y => y ∈ expand hop x) {x | x ∈ xs} [hop] := by
      rw [← reached_singleton_flatMap]
      ext z
      simpa using hmem z
    rw [reached_cons, ← hset]
    exact ih hys hnodup

/-- **A search gives up exactly where some set on the way has too many elements.** -/
theorem search_isSome_iff {xs : List α} :
    (search expand limit hops xs).isSome ↔
      Fits (fun hop x y => y ∈ expand hop x) limit {x | x ∈ xs} hops := by
  induction hops generalizing xs with
  | nil => simp [search, Fits]
  | cons hop hops ih =>
    rw [Fits, ← reached_singleton_flatMap, search]
    have hfirst : (boundedDistinct limit [] (xs.flatMap (expand hop))).isSome ↔ _ :=
      boundedDistinct_isSome_iff List.nodup_nil (Nat.zero_le _)
    simp only [List.not_mem_nil, false_or] at hfirst
    cases hzs : boundedDistinct limit [] (xs.flatMap (expand hop)) with
    | none =>
      rw [hzs] at hfirst
      exact iff_of_false (by simp) fun hfits => absurd (hfirst.mpr hfits.1) (by simp)
    | some zs =>
      rw [hzs] at hfirst
      obtain ⟨-, hmem⟩ := boundedDistinct_eq_some hzs List.nodup_nil
      have hset : {z | z ∈ zs} = {z | z ∈ xs.flatMap (expand hop)} := by
        ext z
        simpa using hmem z
      rw [Option.bind_some, ih, hset]
      exact (and_iff_right (hfirst.mp rfl)).symm

end Traversal
