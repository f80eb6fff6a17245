import Mathlib.Data.Set.Finite.Basic
import Mathlib.Order.WellFounded

/-!
# Acyclic parent relations

A relation between nodes and their parents in which no node is its own ancestor. Giving one node a
new parent keeps this exactly as long as the node is not among the new parent's ancestors, the
parent itself included (`Acyclic.redirect`). Of finitely many nodes one has no parent among them
(`Acyclic.exists_minimal`).
-/

namespace Relation

variable {α : Type*} {r r' : α → α → Prop} {n p a b : α}

/-- No node is its own ancestor. -/
def Acyclic (r : α → α → Prop) : Prop := ∀ a, ¬ TransGen r a a

theorem Acyclic.mono (h : Acyclic r) (hsub : ∀ a b, r' a b → r a b) : Acyclic r' :=
  fun a ha => h a (TransGen.mono hsub a a ha)

theorem acyclic_of_forall_not (h : ∀ a b, ¬ r a b) : Acyclic r := by
  intro a ha
  obtain ⟨b, hb, -⟩ := TransGen.head'_iff.mp ha
  exact h a b hb

/-- A relation along which a number grows is acyclic. -/
theorem acyclic_of_lt {f : α → Nat} (h : ∀ a b, r a b → f a < f b) : Acyclic r := by
  intro a ha
  have hlt : ∀ b, TransGen r a b → f a < f b := by
    intro b hab
    induction hab with
    | single hab => exact h _ _ hab
    | tail _ hbc ih => exact Nat.lt_trans ih (h _ _ hbc)
  exact Nat.lt_irrefl _ (hlt a ha)

/-- **Some member of a finite nonempty set is reached from no member of it.** -/
theorem Acyclic.exists_minimal (h : Acyclic r) {s : Finset α} (hs : s.Nonempty) :
    ∃ a ∈ s, ∀ b ∈ s, ¬ r b a := by
  let reaches : s → s → Prop := fun b a => TransGen r b a
  have htrans : IsTrans s reaches := ⟨fun _ _ _ hab hbc => TransGen.trans hab hbc⟩
  have hirrefl : Std.Irrefl reaches := ⟨fun a haa => h a haa⟩
  have hwf : WellFounded reaches := Finite.wellFounded_of_trans_of_irrefl reaches
  obtain ⟨a, ha⟩ := hs
  obtain ⟨least, -, hleast⟩ := hwf.has_min Set.univ ⟨⟨a, ha⟩, trivial⟩
  exact ⟨least, least.2, fun b hb hba => hleast ⟨b, hb⟩ trivial (TransGen.single hba)⟩

/-- A path after a redirection is an old path, or passes once from the node to its new parent. -/
theorem transGen_redirect (hsub : ∀ a b, r' a b → r a b ∨ a = n ∧ b = p)
    (hp : ¬ ReflTransGen r p n) (h : TransGen r' a b) :
    TransGen r a b ∨ ReflTransGen r a n ∧ ReflTransGen r p b := by
  induction h with
  | single hab =>
    rcases hsub _ _ hab with hab | ⟨rfl, rfl⟩
    · exact .inl (.single hab)
    · exact .inr ⟨.refl, .refl⟩
  | tail _ hbc ih =>
    rcases hsub _ _ hbc with hbc | ⟨rfl, rfl⟩
    · rcases ih with hab | ⟨hn, hpb⟩
      · exact .inl (hab.tail hbc)
      · exact .inr ⟨hn, hpb.tail hbc⟩
    · rcases ih with hab | ⟨-, hpb⟩
      · exact .inr ⟨hab.to_reflTransGen, .refl⟩
      · exact absurd hpb hp

/-- **A node may be given a new parent that is not among its descendants.** -/
theorem Acyclic.redirect (h : Acyclic r) (hsub : ∀ a b, r' a b → r a b ∨ a = n ∧ b = p)
    (hp : ¬ ReflTransGen r p n) : Acyclic r' := by
  intro a ha
  rcases transGen_redirect hsub hp ha with haa | ⟨hn, hpa⟩
  · exact h a haa
  · exact hp (hpa.trans hn)

end Relation
