import FoundryLite.Library.Dict
import Mathlib.Data.List.Induction

/-!
# Grouping by a key

Rows are folded into one state for each key, in a list of the keys in the order in which they are met. A
key's state is the fold of the rows that have it, from what the first of them starts with
(`lookup_groupFold`).
-/

namespace Grouping

variable {ρ κ σ : Type} [LinearOrder κ]

/-- Change what is kept for a key, which is `start` if there is nothing yet. -/
def addTo (k : κ) (start : σ) (change : σ → σ) : List (κ × σ) → List (κ × σ)
  | [] => [(k, change start)]
  | (k', s) :: groups =>
    if k = k' then (k', change s) :: groups else (k', s) :: addTo k start change groups

/-- The state of each key. -/
def groupFold (key : ρ → κ) (start : ρ → σ) (add : σ → ρ → σ) (rows : List ρ) : List (κ × σ) :=
  rows.foldl (fun groups row => addTo (key row) (start row) (add · row) groups) []

theorem lookup_addTo (k : κ) (start : σ) (change : σ → σ) (groups : List (κ × σ)) (k' : κ) :
    (addTo k start change groups).lookup k' =
      if k' = k then some (change ((groups.lookup k).getD start)) else groups.lookup k' := by
  induction groups with
  | nil => simp [addTo, Dict.lookup_cons_ite]
  | cons group groups ih =>
    rw [addTo]
    split_ifs with hhead hk hk
    · simp [Dict.lookup_cons_ite, hk, hhead]
    · have hne : k' ≠ group.1 := hhead ▸ hk
      simp [Dict.lookup_cons_ite, hne]
    · rw [Dict.lookup_cons_ite, ih, if_pos hk, if_neg (hk ▸ hhead), Dict.lookup_cons_ite, if_neg hhead]
    · simp [Dict.lookup_cons_ite, ih, hk]

theorem keys_addTo (k : κ) (start : σ) (change : σ → σ) (groups : List (κ × σ)) :
    (addTo k start change groups).map Prod.fst =
      if k ∈ groups.map Prod.fst then groups.map Prod.fst else groups.map Prod.fst ++ [k] := by
  induction groups with
  | nil => simp [addTo]
  | cons group groups ih =>
    rw [addTo]
    by_cases hhead : k = group.1
    · simp [hhead]
    · rw [if_neg hhead, List.map_cons, ih, List.map_cons]
      by_cases hk : k ∈ groups.map Prod.fst
      · rw [if_pos hk, if_pos (List.mem_cons_of_mem _ hk)]
      · rw [if_neg hk, if_neg (by simp only [List.mem_cons, not_or]; exact ⟨hhead, hk⟩), List.cons_append]

variable {key : ρ → κ} {start : ρ → σ} {add : σ → ρ → σ}

theorem groupFold_append_singleton (rows : List ρ) (row : ρ) :
    groupFold key start add (rows ++ [row]) =
      addTo (key row) (start row) (add · row) (groupFold key start add rows) := by
  simp [groupFold]

theorem nodup_groupFold (rows : List ρ) : ((groupFold key start add rows).map Prod.fst).Nodup := by
  induction rows using List.reverseRecOn with
  | nil => exact List.nodup_nil
  | append_singleton rows row ih =>
    rw [groupFold_append_singleton, keys_addTo]
    split_ifs with h
    · exact ih
    · exact List.nodup_append.mpr ⟨ih, by simp, fun k hk k' hk' => by
        rintro rfl
        exact h (List.mem_singleton.mp hk' ▸ hk)⟩

/-- **A key's state is the fold of its rows.** -/
theorem lookup_groupFold (rows : List ρ) (k : κ) : (groupFold key start add rows).lookup k =
    ((rows.filter fun row => key row = k).head?).map fun row =>
      (rows.filter fun row => key row = k).foldl add (start row) := by
  induction rows using List.reverseRecOn with
  | nil => rfl
  | append_singleton rows row ih =>
    rw [groupFold_append_singleton, lookup_addTo, List.filter_append]
    by_cases hk : k = key row
    · subst hk
      rw [if_pos rfl, ih, List.filter_cons_of_pos (by simp), List.filter_nil]
      cases hrows : rows.filter fun row' => key row' = key row with
      | nil => simp
      | cons first rest => simp
    · rw [if_neg hk, List.filter_cons_of_neg (by simpa using Ne.symm hk), List.filter_nil, List.append_nil,
        ih]

/-- The states, as members of the list: there is one for each row's key. -/
theorem mem_groupFold_iff {rows : List ρ} {k : κ} {s : σ} : (k, s) ∈ groupFold key start add rows ↔
    ∃ row, (rows.filter fun row => key row = k).head? = some row ∧
      (rows.filter fun row => key row = k).foldl add (start row) = s := by
  have hmem : (k, s) ∈ groupFold key start add rows ↔
      (groupFold key start add rows).lookup k = some s :=
    ⟨Dict.lookup_eq_some_of_mem (nodup_groupFold rows), Dict.mem_of_lookup_eq_some⟩
  rw [hmem, lookup_groupFold, Option.map_eq_some_iff]

/-! ### Lists of bindings that a function makes -/

theorem lookup_map_self {β : Type} (f : κ → β) (keys : List κ) (k : κ) :
    (keys.map fun k' => (k', f k')).lookup k = if k ∈ keys then some (f k) else none := by
  induction keys with
  | nil => rfl
  | cons k' keys ih =>
    rw [List.map_cons, Dict.lookup_cons_ite, ih]
    by_cases h : k = k' <;> simp [h]

theorem lookup_map_of_nodup {α β : Type} {name : α → κ} {f : α → β} {items : List α}
    (h : (items.map name).Nodup) {item : α} (hitem : item ∈ items) :
    (items.map fun item => (name item, f item)).lookup (name item) = some (f item) :=
  Dict.lookup_eq_some_of_mem (by simpa [List.map_map, Function.comp_def] using h)
    (List.mem_map.mpr ⟨item, hitem, rfl⟩)

end Grouping
