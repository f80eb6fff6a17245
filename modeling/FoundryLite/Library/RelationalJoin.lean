import Mathlib.Data.List.Perm.Basic
import Mathlib.Data.List.Flatten

/-!
# Relational joins of lists

A join of two lists of rows is said here by what its rows were built from: a left row together with
a right row that it matches, a left row that matches nothing, or a right row that nothing matches.
The four kinds of join differ only in which of the rows without a match they keep.

`Join.outer_nested` reads a join off a loop over the left rows. `Join.map_outer_perm_iff` compares
two matchings: one that never matches the rows of two marked sets (rows whose key is missing, say),
and one that matches all of them with each other and is otherwise the same.

## Main results

* `Join.outer_nested`: the nested loop is the join, up to order.
* `Join.map_outer_perm_iff`: exactly when matching the marked rows with each other does not show.
-/

variable {α β γ : Type*}

/-- What a row of a join was built from. -/
inductive Pairing (α β : Type*) where
  | both (a : α) (b : β)
  | left (a : α)
  | right (b : β)

namespace Join

variable (on : α → β → Bool) (keepLeft keepRight : Bool) (l : List α) (r : List β)

def matched : List (Pairing α β) := l.flatMap fun a => (r.filter (on a)).map (Pairing.both a)

/-- The left rows that match nothing. -/
def loneLeft : List α := l.filter fun a => !r.any (on a)

/-- The right rows that nothing matches. -/
def loneRight : List β := r.filter fun b => !l.any fun a => on a b

/-- The rows of a side without a match, if they are kept. -/
def kept {δ : Type*} (keep : Bool) (rows : List δ) : List δ := if keep then rows else []

/-- The join that keeps the rows without a match of the chosen sides. -/
def outer : List (Pairing α β) :=
  matched on l r ++ ((kept keepLeft (loneLeft on l r)).map Pairing.left ++
    (kept keepRight (loneRight on l r)).map Pairing.right)

/-- The loop over the left rows, padding a left row without a match where it stands. -/
def nested : List (Pairing α β) :=
  (l.flatMap fun a => (r.filter (on a)).map (Pairing.both a) ++
    if (r.filter (on a)).isEmpty && keepLeft then [Pairing.left a] else []) ++
  (kept keepRight (loneRight on l r)).map Pairing.right

variable {on keepLeft keepRight l r}

@[simp]
theorem kept_nil {δ : Type*} (keep : Bool) : kept keep ([] : List δ) = [] := by
  cases keep <;> rfl

theorem kept_append {δ : Type*} (keep : Bool) (rows rows' : List δ) :
    kept keep (rows ++ rows') = kept keep rows ++ kept keep rows' := by
  cases keep <;> rfl

theorem isEmpty_filter {δ : Type*} (p : δ → Bool) (rows : List δ) :
    (rows.filter p).isEmpty = !rows.any p := by
  induction rows with
  | nil => rfl
  | cons row rows ih => cases h : p row <;> simp [h, ih]

theorem flatMap_pad : (l.flatMap fun a =>
      if (r.filter (on a)).isEmpty && keepLeft then [Pairing.left a] else []) =
    (kept keepLeft (loneLeft on l r)).map (Pairing.left : α → Pairing α β) := by
  induction l with
  | nil => simp [loneLeft]
  | cons a l ih =>
    rw [List.flatMap_cons, ih, isEmpty_filter, loneLeft, loneLeft, List.filter_cons]
    cases keepLeft <;> cases r.any (on a) <;> simp [kept]

/-- **The nested loop is the join**, up to order. -/
theorem outer_nested : (nested on keepLeft keepRight l r).Perm (outer on keepLeft keepRight l r) := by
  rw [nested, outer, ← flatMap_pad, ← List.append_assoc]
  exact (List.flatMap_append_perm l _ _).symm.append_right _

/-! ### Matching the marked rows -/

/-- `loose` matches every row marked by `p` with every row marked by `q`, which `on` never does, and
is otherwise `on`. -/
structure IsLoosened (on loose : α → β → Bool) (p : α → Bool) (q : β → Bool) : Prop where
  loose_iff : ∀ a b, loose a b = (on a b || p a && q b)
  left : ∀ a b, on a b = true → p a = false
  right : ∀ a b, on a b = true → q b = false

variable {loose : α → β → Bool} {p : α → Bool} {q : β → Bool}

/-- The marked rows, all matched with each other. -/
def markedPairs (p : α → Bool) (q : β → Bool) (l : List α) (r : List β) : List (Pairing α β) :=
  (l.filter p).flatMap fun a => (r.filter q).map (Pairing.both a)

/-- The marked rows, none of them matched. -/
def markedLone (keepLeft keepRight : Bool) (p : α → Bool) (q : β → Bool) (l : List α)
    (r : List β) : List (Pairing α β) :=
  (kept keepLeft (l.filter p)).map Pairing.left ++ (kept keepRight (r.filter q)).map Pairing.right

/-- Swapping the two sides. -/
theorem IsLoosened.swap (h : IsLoosened on loose p q) :
    IsLoosened (fun b a => on a b) (fun b a => loose a b) q p where
  loose_iff b a := by rw [h.loose_iff, Bool.and_comm]
  left b a := h.right a b
  right b a := h.left a b

/-- One left row has the matches it had, and the marked rows if it is marked. -/
theorem IsLoosened.filter_eq (h : IsLoosened on loose p q) (a : α) (r : List β) :
    r.filter (loose a) = r.filter (on a) ++ if p a then r.filter q else [] := by
  cases hp : p a with
  | false =>
    have heq : loose a = on a := funext fun b => by rw [h.loose_iff, hp]; simp
    simp [heq]
  | true =>
    have hnone : r.filter (on a) = [] := by
      refine List.filter_eq_nil_iff.mpr fun b _ hon => ?_
      rw [h.left a b hon] at hp
      exact Bool.noConfusion hp
    have heq : loose a = q := funext fun b => by
      rw [h.loose_iff, hp]
      cases hon : on a b with
      | false => simp
      | true => rw [h.left a b hon] at hp; exact Bool.noConfusion hp
    simp [hnone, heq]

theorem flatMap_marked (f : α → List γ) (l : List α) :
    (l.flatMap fun a => if p a then f a else []) = (l.filter p).flatMap f := by
  induction l with
  | nil => rfl
  | cons a l ih => cases h : p a <;> simp [h, ih]

/-- The matches are those there were and the marked pairs. -/
theorem IsLoosened.matched_perm (h : IsLoosened on loose p q) (l : List α) (r : List β) :
    (matched loose l r).Perm (matched on l r ++ markedPairs p q l r) := by
  have heq : (fun a => (r.filter (loose a)).map (Pairing.both a)) = fun a =>
      (r.filter (on a)).map (Pairing.both a) ++
        if p a then (r.filter q).map (Pairing.both a) else [] := by
    funext a
    rw [h.filter_eq, List.map_append]
    cases p a <;> rfl
  rw [matched, heq, markedPairs, ← flatMap_marked]
  exact (List.flatMap_append_perm l _ _).symm

theorem IsLoosened.any_eq (h : IsLoosened on loose p q) (a : α) (r : List β) :
    r.any (loose a) = (r.any (on a) || p a && r.any q) := by
  have heq : loose a = fun b => on a b || p a && q b := funext (h.loose_iff a)
  rw [heq]
  induction r with
  | nil => simp
  | cons b r ih =>
    rw [List.any_cons, ih, List.any_cons, List.any_cons]
    cases on a b <;> cases r.any (on a) <;> cases p a <;> simp

/-- The left rows that match nothing are those that still do, and the marked rows if there is a
marked row on the other side. -/
theorem IsLoosened.loneLeft_perm (h : IsLoosened on loose p q) (l : List α) (r : List β) :
    (loneLeft on l r).Perm (loneLeft loose l r ++ kept (r.any q) (l.filter p)) := by
  induction l with
  | nil => simp [loneLeft]
  | cons a l ih =>
    have hany := h.any_eq a r
    have hleft : p a = true → r.any (on a) = false := fun hp => by
      refine List.any_eq_false.mpr fun b _ hon => ?_
      rw [h.left a b hon] at hp
      exact Bool.noConfusion hp
    simp only [loneLeft] at ih ⊢
    cases hp : p a with
    | false =>
      rw [hp, Bool.false_and, Bool.or_false] at hany
      rw [List.filter_cons, List.filter_cons, List.filter_cons, hany, hp]
      cases r.any (on a) with
      | true => exact ih
      | false => exact ih.cons a
    | true =>
      rw [hp, Bool.true_and, hleft hp, Bool.false_or] at hany
      rw [List.filter_cons, List.filter_cons, List.filter_cons, hany, hp, hleft hp]
      cases hq : r.any q with
      | true =>
        rw [hq] at ih
        exact (ih.cons a).trans List.perm_middle.symm
      | false =>
        rw [hq] at ih
        exact ih.cons a

theorem IsLoosened.loneRight_perm (h : IsLoosened on loose p q) (l : List α) (r : List β) :
    (loneRight on l r).Perm (loneRight loose l r ++ kept (l.any p) (r.filter q)) :=
  h.swap.loneLeft_perm r l

/-- The marked rows are in the two joins in the same way, row by row as `f` reads them: there is no
marked row on one of the sides, or the pairs of them are the rows of them that are kept. -/
def MarkedAgree (f : Pairing α β → γ) (keepLeft keepRight : Bool) (p : α → Bool) (q : β → Bool)
    (l : List α) (r : List β) : Prop :=
  l.any p = true → r.any q = true →
    ((markedPairs p q l r).map f).Perm ((markedLone keepLeft keepRight p q l r).map f)

theorem Perm.kept {δ : Type*} {rows rows' : List δ} (keep : Bool) (h : rows.Perm rows') :
    (kept keep rows).Perm (kept keep rows') := by
  cases keep with
  | true => exact h
  | false => exact .refl _

theorem append_rotate (xs ys zs us vs : List γ) :
    (xs ++ ((ys ++ zs) ++ (us ++ vs))).Perm ((xs ++ (ys ++ us)) ++ (zs ++ vs)) := by
  rw [List.append_assoc xs, List.append_assoc ys, List.append_assoc ys]
  refine .append_left xs (.append_left ys ?_)
  rw [← List.append_assoc, ← List.append_assoc]
  exact List.perm_append_comm.append_right vs

/-- The rows the two joins have in common. -/
def shared (on loose : α → β → Bool) (keepLeft keepRight : Bool) (l : List α) (r : List β) :
    List (Pairing α β) :=
  matched on l r ++ ((kept keepLeft (loneLeft loose l r)).map Pairing.left ++
    (kept keepRight (loneRight loose l r)).map Pairing.right)

theorem IsLoosened.outer_loose_perm (h : IsLoosened on loose p q) :
    (outer loose keepLeft keepRight l r).Perm
      (shared on loose keepLeft keepRight l r ++ markedPairs p q l r) := by
  refine ((h.matched_perm l r).append_right _).trans ?_
  rw [shared, List.append_assoc, List.append_assoc]
  exact List.perm_append_comm.append_left _

theorem IsLoosened.outer_perm (h : IsLoosened on loose p q) :
    (outer on keepLeft keepRight l r).Perm (shared on loose keepLeft keepRight l r ++
      ((kept keepLeft (kept (r.any q) (l.filter p))).map Pairing.left ++
        (kept keepRight (kept (l.any p) (r.filter q))).map Pairing.right)) := by
  have hleft := (Perm.kept keepLeft (h.loneLeft_perm l r)).map (Pairing.left : α → Pairing α β)
  have hright := (Perm.kept keepRight (h.loneRight_perm l r)).map (Pairing.right : β → Pairing α β)
  rw [kept_append, List.map_append] at hleft hright
  exact ((hleft.append hright).append_left _).trans (append_rotate _ _ _ _ _)

theorem perm_congr {xs xs' ys ys' : List γ} (hx : xs.Perm xs') (hy : ys.Perm ys') :
    xs.Perm ys ↔ xs'.Perm ys' :=
  ⟨fun h => (hx.symm.trans h).trans hy, fun h => (hx.trans h).trans hy.symm⟩

/-- **Matching the marked rows does not show** exactly when they agree. -/
theorem IsLoosened.map_outer_perm_iff (h : IsLoosened on loose p q) (f : Pairing α β → γ) :
    ((outer loose keepLeft keepRight l r).map f).Perm ((outer on keepLeft keepRight l r).map f) ↔
      MarkedAgree f keepLeft keepRight p q l r := by
  rw [perm_congr (h.outer_loose_perm.map f) (h.outer_perm.map f), List.map_append, List.map_append,
    List.perm_append_left_iff, MarkedAgree]
  cases hp : l.any p with
  | false =>
    have hnil : l.filter p = [] := List.filter_eq_nil_iff.mpr (by simpa using hp)
    simp [markedPairs, hnil, kept]
  | true =>
    cases hq : r.any q with
    | false =>
      have hnil : r.filter q = [] := List.filter_eq_nil_iff.mpr (by simpa using hq)
      simp [markedPairs, hnil, kept]
    | true => simp [markedLone, kept]

/-- Without a marked row on one of the sides nothing is to be seen. -/
theorem MarkedAgree.of_any_eq_false {f : Pairing α β → γ}
    (h : l.any p = false ∨ r.any q = false) : MarkedAgree f keepLeft keepRight p q l r := by
  intro hp hq
  rcases h with h | h
  · rw [h] at hp
    exact Bool.noConfusion hp
  · rw [h] at hq
    exact Bool.noConfusion hq

/-- A join that keeps no row without a match shows every pair of marked rows. -/
theorem markedAgree_inner_iff {f : Pairing α β → γ} :
    MarkedAgree f false false p q l r ↔ l.any p = false ∨ r.any q = false := by
  refine ⟨fun h => ?_, MarkedAgree.of_any_eq_false⟩
  by_contra! hboth
  obtain ⟨hp, hq⟩ := hboth
  have hperm := h (by simpa using hp) (by simpa using hq)
  obtain ⟨a, ha, hpa⟩ := List.any_eq_true.mp (by simpa using hp)
  obtain ⟨b, hb, hqb⟩ := List.any_eq_true.mp (by simpa using hq)
  have hmem : Pairing.both a b ∈ markedPairs p q l r :=
    List.mem_flatMap.mpr ⟨a, List.mem_filter.mpr ⟨ha, hpa⟩,
      List.mem_map.mpr ⟨b, List.mem_filter.mpr ⟨hb, hqb⟩, rfl⟩⟩
  have hnone := hperm.mem_iff.mp (List.mem_map_of_mem hmem)
  simp [markedLone, kept] at hnone

end Join
