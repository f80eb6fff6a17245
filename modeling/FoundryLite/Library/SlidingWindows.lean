import Mathlib.Data.List.Range
import Mathlib.Order.Lattice

/-!
# Windows over a row of items

A row of items is covered by windows of one size, each of which begins a fixed step behind the one
before. The loop that makes them ends with the first window that gets to the end of the row
(`takeThrough`), whichever way that is asked.

## Main results

* `takeThrough_starts`: where the loop ends.
* `windows_tile`: the windows cover the row, and each overlaps the next in size minus step items.
-/

namespace SlidingWindows

/-- The elements up to the first one with a property, which is the last one kept: a loop that appends
and then breaks. -/
def takeThrough {α : Type*} (stop : α → Bool) : List α → List α
  | [] => []
  | a :: l => a :: if stop a then [] else takeThrough stop l

theorem takeThrough_congr {α : Type*} {stop halt : α → Bool} {l : List α}
    (h : ∀ a ∈ l, stop a = halt a) : takeThrough stop l = takeThrough halt l := by
  induction l with
  | nil => rfl
  | cons a l ih =>
    rw [takeThrough, takeThrough, h a List.mem_cons_self,
      ih fun b hb => h b (List.mem_cons_of_mem _ hb)]

theorem takeThrough_map {α β : Type*} {stop : β → Bool} (f : α → β) (l : List α) :
    takeThrough stop (l.map f) = (takeThrough (stop ∘ f) l).map f := by
  induction l with
  | nil => rfl
  | cons a l ih =>
    rw [List.map_cons, takeThrough, takeThrough, List.map_cons, ih]
    by_cases hstop : stop (f a)
    · simp [hstop]
    · simp [hstop]

/-- A loop over the first numbers ends at the first one with the property. -/
theorem takeThrough_range {stop : ℕ → Bool} {k m : ℕ} (hk : stop k = true)
    (hbefore : ∀ i < k, stop i = false) (hlt : k < m) :
    takeThrough stop (List.range m) = List.range (k + 1) := by
  induction m generalizing stop k with
  | zero => exact absurd hlt (Nat.not_lt_zero k)
  | succ m ih =>
    rw [List.range_succ_eq_map, takeThrough]
    cases k with
    | zero => simp [hk]
    | succ k =>
      have hrest := @ih (stop ∘ Nat.succ) k hk (fun i hi => hbefore (i + 1) (Nat.succ_lt_succ hi))
        (Nat.lt_of_succ_lt_succ hlt)
      rw [if_neg (by simp [hbefore 0 (Nat.succ_pos k)]), takeThrough_map, hrest,
        ← List.range_succ_eq_map]

/-- The number of the first window that gets to the end of the row. -/
def lastWindow (n size step : ℕ) : ℕ := (n - size + (step - 1)) / step

theorem le_mul_add_iff {n size step k : ℕ} (hstep : 0 < step) :
    n ≤ k * step + size ↔ lastWindow n size step ≤ k := by
  have hdiv : lastWindow n size step ≤ k ↔ n - size + (step - 1) < (k + 1) * step := by
    rw [lastWindow, ← Nat.lt_succ_iff, Nat.div_lt_iff_lt_mul hstep]
  rw [hdiv, Nat.succ_mul]
  omega

/-- The windows, from item to item. -/
def windows (n size step : ℕ) : List (ℕ × ℕ) :=
  if n = 0 then []
  else (List.range (lastWindow n size step + 1)).map fun k => (k * step, min (k * step + size) n)

/-- `range(0, n, step)`: where windows can begin. -/
def starts (n step : ℕ) : List ℕ := (List.range ((n + (step - 1)) / step)).map (· * step)

/-- **The loop ends with the last window**, which begins before the end of the row. -/
theorem takeThrough_starts {n size step : ℕ} (hpos : 0 < n) (hstep : 0 < step) (hle : step ≤ size) :
    takeThrough (fun start => decide (n ≤ start + size)) (starts n step) =
      (List.range (lastWindow n size step + 1)).map (· * step) := by
  rw [starts, takeThrough_map]
  congr 1
  refine takeThrough_range ?_ ?_ ?_
  · exact decide_eq_true ((le_mul_add_iff hstep).mpr le_rfl)
  · intro i hi
    exact decide_eq_false fun hend => Nat.not_le_of_lt hi ((le_mul_add_iff hstep).mp hend)
  · rw [Nat.lt_div_iff_mul_lt hstep]
    cases hlast : lastWindow n size step with
    | zero =>
      rw [Nat.zero_mul]
      omega
    | succ k =>
      have hnot : ¬ n ≤ k * step + size := by
        rw [le_mul_add_iff hstep, hlast]
        exact Nat.not_succ_le_self k
      rw [Nat.succ_mul]
      omega

/-- Windows that cover a row of `n` items. -/
structure Tiles (n size overlap : ℕ) (windows : List (ℕ × ℕ)) : Prop where
  within : ∀ w ∈ windows, w.1 < w.2 ∧ w.2 ≤ n
  short : ∀ w ∈ windows, w.2 - w.1 ≤ size
  covers : ∀ i < n, ∃ w ∈ windows, w.1 ≤ i ∧ i < w.2
  /-- The next window begins behind the beginning and `overlap` items before the end, and goes on
  further. -/
  consecutive : windows.IsChain fun w next => w.1 < next.1 ∧ next.1 + overlap = w.2 ∧ w.2 < next.2

/-- **The windows tile the row.** -/
theorem windows_tile {n size step overlap : ℕ} (hstep : 0 < step) (hsize : step + overlap = size) :
    Tiles n size overlap (windows n size step) := by
  by_cases hn : n = 0
  · subst hn
    rw [windows, if_pos rfl]
    exact ⟨by simp, by simp, by simp, .nil⟩
  · rw [windows, if_neg hn]
    have hbefore : ∀ k, k < lastWindow n size step → k * step + size < n := by
      intro k hk
      by_contra hnot
      exact Nat.not_le_of_lt hk ((le_mul_add_iff hstep).mp (Nat.le_of_not_lt hnot))
    have hstart : ∀ k, k < lastWindow n size step + 1 → k * step < n := by
      intro k hk
      cases k with
      | zero =>
        rw [Nat.zero_mul]
        omega
      | succ k =>
        have hlt := hbefore k (by omega)
        rw [Nat.succ_mul]
        omega
    refine ⟨?_, ?_, ?_, ?_⟩
    · simp only [List.mem_map, List.mem_range]
      rintro w ⟨k, hk, rfl⟩
      have hlt := hstart k hk
      simp only
      omega
    · simp only [List.mem_map, List.mem_range]
      rintro w ⟨k, hk, rfl⟩
      simp only
      omega
    · intro i hi
      -- The window in whose step the item lies, or the last one.
      refine ⟨_, List.mem_map_of_mem (List.mem_range.mpr
        (Nat.lt_succ_of_le (Nat.min_le_left (lastWindow n size step) (i / step)))), ?_⟩
      rcases Nat.le_total (lastWindow n size step) (i / step) with hle | hle
      · rw [min_eq_left hle]
        have hend := (le_mul_add_iff hstep).mpr (le_refl (lastWindow n size step))
        have hfirst : lastWindow n size step * step ≤ i :=
          (Nat.le_div_iff_mul_le hstep).mp hle
        simp only
        omega
      · rw [min_eq_right hle]
        have hlow := Nat.div_mul_le_self i step
        have hhigh := Nat.lt_div_mul_add hstep (a := i)
        simp only
        omega
    · rw [List.isChain_map, List.isChain_range]
      intro k hk
      have hlt := hbefore k (by omega)
      have hnext := hstart (k + 1) (by omega)
      rw [Nat.succ_mul] at hnext ⊢
      simp only
      omega

end SlidingWindows
