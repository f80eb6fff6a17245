import Mathlib.Data.List.Pairwise

/-!
# Runs of keyed writes

A map from keys to values is changed by a list of operations, each of which acts on one key: what
it does there is a relation `R` between the operation, the value it found and the value it left.
`Runs` says that the list describes a run from one map to another.

When the keys of the operations are pairwise different, every operation found its value as it was at
the beginning and left it as it is at the end (`Runs.of_pairwise`), in whatever order they came.
That the keys are different often follows from the operations themselves: a property of a value
that no operation on its key destroys is still there when a later operation comes, so an operation
that needs it gone cannot come later (`Runs.pairwise_ne`).

## Main results

* `WriteLog.Runs.apply_of_forall_ne`: keys that are not written keep their value.
* `WriteLog.Runs.exists_of_mem`: a property that is never lost holds of what an operation finds.
* `WriteLog.Runs.pairwise_ne`: operations that exclude each other have different keys.
* `WriteLog.Runs.of_pairwise`: with distinct keys, the two ends of the run are related at each key.
-/

namespace WriteLog

variable {κ ρ ω : Type*} [DecidableEq κ] {R : ω → ρ → ρ → Prop} {key : ω → κ} {m m' : κ → ρ}
  {log : List ω} {w : ω} {k : κ}

/-- An operation acts on its own key and leaves every other key alone. -/
def ActsAt (R : ω → ρ → ρ → Prop) (key : ω → κ) (w : ω) (m m' : κ → ρ) : Prop :=
  ∃ a, R w (m (key w)) a ∧ m' = Function.update m (key w) a

theorem ActsAt.apply_of_ne (h : ActsAt R key w m m') (hk : k ≠ key w) : m' k = m k := by
  obtain ⟨a, -, rfl⟩ := h
  exact Function.update_of_ne hk a m

theorem ActsAt.rel (h : ActsAt R key w m m') : R w (m (key w)) (m' (key w)) := by
  obtain ⟨a, ha, rfl⟩ := h
  rwa [Function.update_self]

/-- The operations describe a run from `m` to `m'`. -/
def Runs (R : ω → ρ → ρ → Prop) (key : ω → κ) : (κ → ρ) → List ω → (κ → ρ) → Prop
  | m, [], m' => m' = m
  | m, w :: log, m' => ∃ m₁, ActsAt R key w m m₁ ∧ Runs R key m₁ log m'

/-- A key that is not written keeps its value. -/
theorem Runs.apply_of_forall_ne (h : Runs R key m log m') (hk : ∀ w ∈ log, k ≠ key w) :
    m' k = m k := by
  induction log generalizing m with
  | nil => exact congrFun h k
  | cons w log ih =>
    obtain ⟨m₁, hact, hrest⟩ := h
    rw [ih hrest fun w' hw' => hk w' (List.mem_cons_of_mem w hw'),
      hact.apply_of_ne (hk w List.mem_cons_self)]

/-- A property of the value at a key, once it holds and when no operation on that key destroys it,
holds of what each operation on that key finds. -/
theorem Runs.exists_of_mem {P : ρ → Prop} (h : Runs R key m log m') (hm : P (m k))
    (hP : ∀ w ∈ log, key w = k → ∀ a b, R w a b → P a → P b) (hw : w ∈ log) (hk : key w = k) :
    ∃ a b, P a ∧ R w a b := by
  induction log generalizing m with
  | nil => simp at hw
  | cons w' log ih =>
    obtain ⟨m₁, hact, hrest⟩ := h
    rcases List.mem_cons.mp hw with rfl | hw
    · subst hk
      exact ⟨_, _, hm, hact.rel⟩
    · refine ih hrest ?_ (fun v hv => hP v (List.mem_cons_of_mem w' hv)) hw
      by_cases hkey : k = key w'
      · subst hkey
        exact hP w' List.mem_cons_self rfl _ _ hact.rel hm
      · rwa [hact.apply_of_ne hkey]

/-- An operation that needs `P` not to hold never follows one that leaves `P` at the same key. -/
theorem Runs.pairwise_ne {P : ρ → Prop} {p q : ω → Prop} (h : Runs R key m log m')
    (hleaves : ∀ w ∈ log, p w → ∀ a b, R w a b → P b)
    (hP : ∀ w ∈ log, p w → ∀ v ∈ log, key v = key w → ∀ a b, R v a b → P a → P b)
    (hfinds : ∀ w ∈ log, q w → ∀ a b, R w a b → ¬ P a) :
    log.Pairwise fun w v => p w → q v → key w ≠ key v := by
  induction log generalizing m with
  | nil => exact List.Pairwise.nil
  | cons w log ih =>
    obtain ⟨m₁, hact, hrest⟩ := h
    have hmem : ∀ {v}, v ∈ log → v ∈ w :: log := fun hv => List.mem_cons_of_mem w hv
    refine List.pairwise_cons.mpr ⟨fun v hv hw hq hkey => ?_, ih hrest
      (fun v hv => hleaves v (hmem hv))
      (fun v hv hpv u hu => hP v (hmem hv) hpv u (hmem hu)) (fun v hv => hfinds v (hmem hv))⟩
    obtain ⟨a, b, ha, hab⟩ := hrest.exists_of_mem
      (hleaves w List.mem_cons_self hw _ _ hact.rel)
      (fun u hu => hP w List.mem_cons_self hw u (hmem hu)) hv hkey.symm
    exact hfinds v (hmem hv) hq a b hab ha

/-- **With distinct keys, the run relates its two ends at every key it writes.** -/
theorem Runs.of_pairwise (h : Runs R key m log m')
    (hlog : log.Pairwise fun w w' => key w ≠ key w') (hw : w ∈ log) :
    R w (m (key w)) (m' (key w)) := by
  induction log generalizing m with
  | nil => simp at hw
  | cons w' log ih =>
    obtain ⟨m₁, hact, hrest⟩ := h
    obtain ⟨hhead, htail⟩ := List.pairwise_cons.mp hlog
    rcases List.mem_cons.mp hw with rfl | hw
    · rw [hrest.apply_of_forall_ne hhead]
      exact hact.rel
    · rw [← hact.apply_of_ne (hhead w hw).symm]
      exact ih hrest htail hw

end WriteLog
