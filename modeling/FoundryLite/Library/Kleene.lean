import Mathlib.Data.List.Forall2

/-!
# Three-valued logic

A truth value that may be unknown is an `Option Bool`. The connectives look at all their parts: one
part that decides, `false` in a conjunction and `true` in a disjunction, decides the whole, and short
of that one unknown part leaves the whole unknown.

There are two orders. To know more is to have decided what was unknown; to be truer is to be further
from `false` than before, with unknown in between. The connectives are monotone in both, and negation
in the first.

## Main results

* `Kleene.Informs.connect`, `Kleene.Raises.connect`: the connectives are monotone.
-/

namespace Kleene

/-- A conjunction where `false` decides, a disjunction where `true` does. -/
def connect (decisive : Bool) (parts : List (Option Bool)) : Option Bool :=
  if some decisive ∈ parts then some decisive
  else if none ∈ parts then none
  else some !decisive

def negate : Option Bool → Option Bool
  | none => none
  | some b => some !b

/-- What is decided stays. -/
def Informs (before after : Option Bool) : Prop := ∀ b, before = some b → after = some b

/-- What is true stays so, and what becomes false was false. -/
def Raises (before after : Option Bool) : Prop :=
  (before = some true → after = some true) ∧ (after = some false → before = some false)

variable {before after : Option Bool} {parts parts' : List (Option Bool)}

theorem Raises.refl (value : Option Bool) : Raises value value := ⟨fun h => h, fun h => h⟩

theorem Informs.negate (h : Informs before after) : Informs (negate before) (negate after) := by
  intro b hb
  cases before with
  | none => cases hb
  | some c => rw [h c rfl]; exact hb

theorem connect_eq_decisive_iff {decisive : Bool} :
    connect decisive parts = some decisive ↔ some decisive ∈ parts := by
  unfold connect
  split_ifs with hdecisive hnone
  · simp [hdecisive]
  · simp [hdecisive]
  · simp [hdecisive]

theorem connect_eq_not_decisive_iff {decisive : Bool} :
    connect decisive parts = some (!decisive) ↔ ∀ part ∈ parts, part = some !decisive := by
  unfold connect
  split_ifs with hdecisive hnone
  · refine iff_of_false (by simp) fun h => ?_
    exact absurd (Option.some.inj (h _ hdecisive)) (by simp)
  · refine iff_of_false (by simp) fun h => ?_
    cases h _ hnone
  · refine iff_of_true rfl fun part hpart => ?_
    cases part with
    | none => exact absurd hpart hnone
    | some b =>
      have hne : b ≠ decisive := fun heq => hdecisive (heq ▸ hpart)
      rw [Bool.eq_not_of_ne hne]

/-- **Knowing more of the parts, one knows more of the whole.** -/
theorem Informs.connect {decisive : Bool} (h : List.Forall₂ Informs parts parts') :
    Informs (connect decisive parts) (connect decisive parts') := by
  intro b hb
  by_cases hdecisive : b = decisive
  · subst hdecisive
    rw [connect_eq_decisive_iff] at hb ⊢
    induction h with
    | nil => cases hb
    | cons hpart _ ih =>
      rcases List.mem_cons.mp hb with heq | hmem
      · exact List.mem_cons.mpr (.inl (hpart _ heq.symm).symm)
      · exact List.mem_cons_of_mem _ (ih hmem)
  · obtain rfl := Bool.eq_not_of_ne hdecisive
    rw [connect_eq_not_decisive_iff] at hb ⊢
    induction h with
    | nil => exact hb
    | cons hpart _ ih =>
      rw [List.forall_mem_cons] at hb ⊢
      exact ⟨hpart _ hb.1, ih hb.2⟩

theorem mem_of_raises {b : Bool} (h : List.Forall₂ (fun part part' => part = some b → part' = some b)
    parts parts') (hmem : some b ∈ parts) : some b ∈ parts' := by
  induction h with
  | nil => exact hmem
  | cons hpart _ ih =>
    rcases List.mem_cons.mp hmem with heq | hmem
    · exact List.mem_cons.mpr (.inl (hpart heq.symm).symm)
    · exact List.mem_cons_of_mem _ (ih hmem)

theorem forall_of_raises {b : Bool}
    (h : List.Forall₂ (fun part part' => part = some b → part' = some b) parts parts')
    (hall : ∀ part ∈ parts, part = some b) : ∀ part ∈ parts', part = some b := by
  induction h with
  | nil => exact hall
  | cons hpart _ ih =>
    rw [List.forall_mem_cons] at hall ⊢
    exact ⟨hpart hall.1, ih hall.2⟩

/-- **Truer parts make a truer whole.** -/
theorem Raises.connect {decisive : Bool} (h : List.Forall₂ Raises parts parts') :
    Raises (connect decisive parts) (connect decisive parts') := by
  have htrue := h.imp fun _ _ hpart => hpart.1
  have hfalse := (h.flip).imp fun _ _ hpart => hpart.2
  cases decisive with
  | true =>
    refine ⟨fun hbefore => ?_, fun hafter => ?_⟩
    · rw [connect_eq_decisive_iff] at hbefore ⊢
      exact mem_of_raises htrue hbefore
    · exact connect_eq_not_decisive_iff.mpr
        (forall_of_raises hfalse (connect_eq_not_decisive_iff.mp hafter))
  | false =>
    refine ⟨fun hbefore => ?_, fun hafter => ?_⟩
    · exact connect_eq_not_decisive_iff.mpr
        (forall_of_raises htrue (connect_eq_not_decisive_iff.mp hbefore))
    · rw [connect_eq_decisive_iff] at hafter ⊢
      exact mem_of_raises hfalse hafter

end Kleene
