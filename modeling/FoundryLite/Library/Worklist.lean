import Mathlib.Data.List.Nodup
import Mathlib.Data.List.Perm.Subperm

/-!
# Closing a set with a stack

What is reached from some elements along their successors, found with a stack of elements whose
successors are still to be looked at. `close` takes the last one off the stack, and puts on it those
of its successors that were not seen before.

What was seen is at every moment what is on the stack and what was taken off it (`Inv.perm`), so the
loop ends after as many rounds as there are elements, and what was seen then is closed.

## Main results

* `close_eq_some`: the loop ends, and what it has seen is what is reached, each once.
-/

namespace Worklist

open Relation

variable {α : Type} [DecidableEq α] (next : α → List α)

/-- What was seen, and the stack with its top in front. -/
structure State (α : Type) where
  seen : List α
  stack : List α

/-- Look at one successor. -/
def meet (s : State α) (b : α) : State α :=
  if b ∈ s.seen then s else ⟨s.seen ++ [b], b :: s.stack⟩

/-- The loop; `none` when it is given too few rounds. -/
def close : ℕ → State α → Option (List α)
  | _, ⟨seen, []⟩ => some seen
  | 0, ⟨_, _ :: _⟩ => none
  | rounds + 1, ⟨seen, a :: stack⟩ => close rounds ((next a).foldl meet ⟨seen, stack⟩)

/-- The second is a successor of the first. -/
def Succ (a b : α) : Prop := b ∈ next a

/-- What holds in every round: `done` was taken off the stack, and of its elements only the
successors to come in `later` may not have been seen. -/
structure Inv (start done later : List α) (s : State α) : Prop where
  nodup : s.seen.Nodup
  perm : s.seen.Perm (done ++ s.stack)
  starts : ∀ a ∈ start, a ∈ s.seen
  reached : ∀ b ∈ s.seen, ∃ a ∈ start, ReflTransGen (Succ next) a b
  closed : ∀ a ∈ done, ∀ b ∈ next a, b ∈ s.seen ∨ b ∈ later

variable {next} {start done later : List α} {s : State α}

omit [DecidableEq α] in
theorem inv_start (hstart : start.Nodup) {stack : List α} (hstack : stack.Perm start) :
    Inv next start [] [] ⟨start, stack⟩ where
  nodup := hstart
  perm := hstack.symm
  starts _ ha := ha
  reached b hb := ⟨b, hb, .refl⟩
  closed _ ha := absurd ha List.not_mem_nil

/-- **One successor is looked at.** -/
theorem Inv.meet {b : α} (h : Inv next start done (b :: later) s)
    (hb : ∃ a ∈ start, ReflTransGen (Succ next) a b) : Inv next start done later (meet s b) := by
  rw [Worklist.meet]
  split_ifs with hseen
  · refine ⟨h.nodup, h.perm, h.starts, h.reached, fun a ha b' hb' => ?_⟩
    rcases h.closed a ha b' hb' with hmem | hmem
    · exact .inl hmem
    · rcases List.mem_cons.mp hmem with rfl | hmem
      · exact .inl hseen
      · exact .inr hmem
  · refine ⟨?_, ?_, fun a ha => List.mem_append_left _ (h.starts a ha), fun c hc => ?_,
      fun a ha b' hb' => ?_⟩
    · rw [← List.concat_eq_append]
      exact List.Nodup.concat hseen h.nodup
    · refine (h.perm.append_right [b]).trans ?_
      rw [List.append_assoc]
      exact (List.perm_append_singleton b s.stack).append_left done
    · rcases List.mem_append.mp hc with hc | hc
      · exact h.reached c hc
      · rwa [List.mem_singleton.mp hc]
    · rcases h.closed a ha b' hb' with hmem | hmem
      · exact .inl (List.mem_append_left _ hmem)
      · rcases List.mem_cons.mp hmem with rfl | hmem
        · exact .inl (List.mem_append_right _ (List.mem_singleton_self _))
        · exact .inr hmem

theorem Inv.foldl_meet (h : Inv next start done later s)
    (hlater : ∀ b ∈ later, ∃ a ∈ start, ReflTransGen (Succ next) a b) :
    Inv next start done [] (later.foldl Worklist.meet s) := by
  induction later generalizing s with
  | nil => exact h
  | cons b later ih =>
    obtain ⟨hb, hrest⟩ := List.forall_mem_cons.mp hlater
    exact ih (h.meet hb) hrest

/-- **One element is taken off the stack.** -/
theorem Inv.pop {a : α} {seen stack : List α} (h : Inv next start done [] ⟨seen, a :: stack⟩) :
    Inv next start (done ++ [a]) [] ((next a).foldl Worklist.meet ⟨seen, stack⟩) := by
  have hmem : a ∈ seen := h.perm.mem_iff.mpr (by simp)
  obtain ⟨b, hb, hpath⟩ := h.reached a hmem
  refine Inv.foldl_meet ⟨h.nodup, ?_, h.starts, h.reached, fun c hc d hd => ?_⟩
    fun c hc => ⟨b, hb, hpath.tail hc⟩
  · rw [List.append_assoc]
    exact h.perm
  · rcases List.mem_append.mp hc with hc | hc
    · exact .inl ((h.closed c hc d hd).resolve_right List.not_mem_nil)
    · exact .inr (List.mem_singleton.mp hc ▸ hd)

omit [DecidableEq α] in
/-- A closed set that holds the start holds what is reached. -/
theorem mem_of_reached {seen : List α} (hstart : ∀ a ∈ start, a ∈ seen)
    (hclosed : ∀ a ∈ seen, ∀ b ∈ next a, b ∈ seen) {a b : α} (ha : a ∈ start)
    (h : ReflTransGen (Succ next) a b) : b ∈ seen := by
  induction h with
  | refl => exact hstart a ha
  | tail _ hbc ih => exact hclosed _ ih _ hbc

omit [DecidableEq α] in
/-- With an empty stack, what was seen is what is reached. -/
theorem Inv.mem_iff {seen : List α} (h : Inv next start done [] ⟨seen, []⟩) (b : α) :
    b ∈ seen ↔ ∃ a ∈ start, ReflTransGen (Succ next) a b := by
  refine ⟨h.reached b, fun ⟨a, ha, hpath⟩ => mem_of_reached h.starts (fun c hc d hd => ?_) ha hpath⟩
  have hdone : c ∈ done := by simpa using h.perm.mem_iff.mp hc
  exact (h.closed c hdone d hd).resolve_right List.not_mem_nil

theorem Inv.close {all : List α} (hall : ∀ b, (∃ a ∈ start, ReflTransGen (Succ next) a b) → b ∈ all)
    (rounds : ℕ) (h : Inv next start done [] s) (hrounds : all.length ≤ rounds + done.length) :
    ∃ seen, Worklist.close next rounds s = some seen ∧ seen.Nodup ∧
      ∀ b, b ∈ seen ↔ ∃ a ∈ start, ReflTransGen (Succ next) a b := by
  induction rounds generalizing done s with
  | zero =>
    obtain ⟨seen, stack⟩ := s
    cases stack with
    | nil => exact ⟨seen, rfl, h.nodup, h.mem_iff⟩
    | cons a stack =>
      -- As many elements are done as there are, and one more is on the stack.
      have hlength := h.perm.length_eq
      have hle := (List.subperm_of_subset h.nodup fun b hb => hall b (h.reached b hb)).length_le
      simp only [List.length_append, List.length_cons] at hlength hle
      omega
  | succ rounds ih =>
    obtain ⟨seen, stack⟩ := s
    cases stack with
    | nil => exact ⟨seen, rfl, h.nodup, h.mem_iff⟩
    | cons a stack =>
      refine ih h.pop ?_
      rw [List.length_append, List.length_singleton]
      omega

/-- **What is reached, each once**: the loop ends when it is given as many rounds as there are
elements that may be reached. -/
theorem close_eq_some {all stack : List α} (hstart : start.Nodup) (hstack : stack.Perm start)
    (hall : ∀ b, (∃ a ∈ start, ReflTransGen (Succ next) a b) → b ∈ all) {rounds : ℕ}
    (hrounds : all.length ≤ rounds) :
    ∃ seen, close next rounds ⟨start, stack⟩ = some seen ∧ seen.Nodup ∧
      ∀ b, b ∈ seen ↔ ∃ a ∈ start, ReflTransGen (Succ next) a b :=
  (inv_start hstart hstack).close hall rounds (by simpa using hrounds)

end Worklist
