import Mathlib.Data.List.Forall2

/-!
# Computations that may fail

Rules for reading a successful run of a program in `Except` backwards: a bind that succeeded ran
both of its parts, and a traversal that succeeded ran its function on every element. They let a
statement about a result be traced to the inputs without unfolding the monad.

## Main results

* `Except.bind_eq_ok_iff`, `Except.map_eq_ok_iff`: a sequence succeeds when its parts do.
* `List.mapM_eq_ok_iff`: a traversal succeeds when it does elementwise.
* `Except.bind_eq_error_iff`, `List.exists_of_foldlM_eq_error`: where a failure comes from.
-/

namespace Except

variable {ε α β : Type}

@[simp]
theorem bind_eq_ok_iff {x : Except ε α} {f : α → Except ε β} {b : β} :
    x >>= f = .ok b ↔ ∃ a, x = .ok a ∧ f a = .ok b := by
  cases x with
  | error e => simp [bind, Except.bind]
  | ok a => simp [bind, Except.bind]

/-- A sequence fails where one of its parts does. -/
theorem bind_eq_error_iff {x : Except ε α} {f : α → Except ε β} {e : ε} :
    x >>= f = .error e ↔ x = .error e ∨ ∃ a, x = .ok a ∧ f a = .error e := by
  cases x with
  | error e' => simp [bind, Except.bind]
  | ok a => simp [bind, Except.bind]

@[simp]
theorem map_eq_ok_iff {x : Except ε α} {f : α → β} {b : β} :
    f <$> x = .ok b ↔ ∃ a, x = .ok a ∧ f a = b := by
  cases x with
  | error e => simp [Functor.map, Except.map]
  | ok a => simp [Functor.map, Except.map]

@[simp]
theorem pure_eq_ok_iff {a b : α} : (pure a : Except ε α) = .ok b ↔ a = b := by
  simp [pure, Except.pure]

@[simp]
theorem throw_eq_ok_iff {e : ε} {a : α} : (throw e : Except ε α) = .ok a ↔ False := by
  simp [throw, throwThe, MonadExceptOf.throw]

end Except

namespace List

variable {ε α β : Type}

/-- A traversal succeeds exactly when its function does on every element, in order. -/
theorem mapM_eq_ok_iff {f : α → Except ε β} {xs : List α} {ys : List β} :
    xs.mapM f = .ok ys ↔ Forall₂ (fun x y => f x = .ok y) xs ys := by
  induction xs generalizing ys with
  | nil => simp [pure, Except.pure, eq_comm]
  | cons x xs ih =>
    rw [List.mapM_cons, Except.bind_eq_ok_iff, forall₂_cons_left_iff]
    simp only [Except.bind_eq_ok_iff, Except.pure_eq_ok_iff, ih]
    constructor
    · rintro ⟨y, hy, ys', hys, rfl⟩
      exact ⟨y, ys', hy, hys, rfl⟩
    · rintro ⟨y, ys', hy, hys, rfl⟩
      exact ⟨y, hy, ys', hys, rfl⟩

/-- A traversal succeeds when its function does on every element. -/
theorem exists_mapM_eq_ok {f : α → Except ε β} {xs : List α} (h : ∀ x ∈ xs, ∃ y, f x = .ok y) :
    ∃ ys, xs.mapM f = .ok ys := by
  simp only [mapM_eq_ok_iff]
  induction xs with
  | nil => exact ⟨[], .nil⟩
  | cons x xs ih =>
    obtain ⟨⟨y, hy⟩, hxs⟩ := forall_mem_cons.mp h
    obtain ⟨ys, hys⟩ := ih hxs
    exact ⟨y :: ys, .cons hy hys⟩

/-- A traversal for its effects succeeds exactly when it does on every element. -/
theorem forM_eq_ok_iff {f : α → Except ε Unit} {xs : List α} {u : Unit} :
    xs.forM f = .ok u ↔ ∀ x ∈ xs, f x = .ok () := by
  induction xs with
  | nil => simp [pure, Except.pure]
  | cons x xs ih =>
    rw [List.forM, Except.bind_eq_ok_iff, forall_mem_cons, ← ih]
    exact ⟨fun ⟨_, hx, hxs⟩ => ⟨hx, hxs⟩, fun ⟨hx, hxs⟩ => ⟨(), hx, hxs⟩⟩

/-- A fold fails at one of its steps. -/
theorem exists_of_foldlM_eq_error {step : β → α → Except ε β} {xs : List α} {b : β} {e : ε}
    (h : xs.foldlM step b = .error e) : ∃ b' x, step b' x = .error e := by
  induction xs generalizing b with
  | nil => cases h
  | cons x xs ih =>
    rcases Except.bind_eq_error_iff.mp h with hx | ⟨b', -, hxs⟩
    · exact ⟨b, x, hx⟩
    · exact ih hxs

/-- What a successful traversal returns for an element is among its results. -/
theorem exists_mem_of_mapM_eq_ok {f : α → Except ε β} {xs : List α} {ys : List β}
    (h : xs.mapM f = .ok ys) {x : α} (hx : x ∈ xs) : ∃ y ∈ ys, f x = .ok y := by
  rw [mapM_eq_ok_iff] at h
  induction h with
  | nil => simp at hx
  | cons hab _ ih =>
    rcases mem_cons.mp hx with rfl | hx
    · exact ⟨_, mem_cons_self, hab⟩
    · obtain ⟨y, hy, hxy⟩ := ih hx
      exact ⟨y, mem_cons_of_mem _ hy, hxy⟩

/-- Every result of a successful traversal is returned for some element. -/
theorem exists_mem_of_mem_mapM_eq_ok {f : α → Except ε β} {xs : List α} {ys : List β}
    (h : xs.mapM f = .ok ys) {y : β} (hy : y ∈ ys) : ∃ x ∈ xs, f x = .ok y := by
  rw [mapM_eq_ok_iff] at h
  induction h with
  | nil => simp at hy
  | cons hab _ ih =>
    rcases mem_cons.mp hy with rfl | hy
    · exact ⟨_, mem_cons_self, hab⟩
    · obtain ⟨x, hx, hxy⟩ := ih hy
      exact ⟨x, mem_cons_of_mem _ hx, hxy⟩

end List
