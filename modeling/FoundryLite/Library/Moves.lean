import FoundryLite.Library.Table

/-!
# Rows that move along a relation

What a write does to a table can be said row by row: every row has a successor that it is related
to, and every row succeeds one that was there, or one that was added. A property of rows that the
relation keeps is then kept by the table.

## Main results

* `Table.Moves`, with `refl`, `modify`, `insert?` and `trans`.
-/

namespace Table

variable {ρ ι κ : Type*} {pk : ρ → ι} {uq : ρ → κ} {t t' t'' : Table pk uq} {P : ρ → ρ → Prop}
  {new : Option ρ} {r : ρ}

/-- Every row of `t` has a successor in `t'`, and every row of `t'` succeeds one of `t` or the new
one, whose primary key was free. -/
structure Moves (P : ρ → ρ → Prop) (new : Option ρ) (t t' : Table pk uq) : Prop where
  kept : ∀ r ∈ t.rows, ∃ r' ∈ t'.rows, P r r'
  added : ∀ r, new = some r → ∃ r' ∈ t'.rows, P r r'
  origin : ∀ r' ∈ t'.rows, (∃ r ∈ t.rows, P r r') ∨ ∃ r, new = some r ∧ P r r'
  fresh : ∀ r, new = some r → ∀ x ∈ t.rows, pk x ≠ pk r

theorem Moves.refl_of_mem (hrefl : ∀ r ∈ t.rows, P r r) : Moves P none t t :=
  ⟨fun r hr => ⟨r, hr, hrefl r hr⟩, nofun, fun r hr => .inl ⟨r, hr, hrefl r hr⟩, nofun⟩

theorem Moves.refl (hrefl : ∀ r, P r r) : Moves P none t t := .refl_of_mem fun r _ => hrefl r

/-- An update of some rows moves all if it moves these. -/
theorem Moves.modify_of_mem {p : ρ → Bool} {u : Update pk uq} (hrefl : ∀ r ∈ t.rows, P r r)
    (hP : ∀ r ∈ t.rows, p r → P r (u.apply r)) : Moves P none t (t.modify p u) := by
  have hstep : ∀ r ∈ t.rows, P r (if p r then u.apply r else r) := by
    intro r hr
    split_ifs with hp
    · exact hP r hr hp
    · exact hrefl r hr
  refine ⟨fun r hr => ⟨_, List.mem_map_of_mem hr, hstep r hr⟩, nofun, fun r' hr' => ?_, nofun⟩
  obtain ⟨r, hr, rfl⟩ := List.mem_map.mp hr'
  exact .inl ⟨r, hr, hstep r hr⟩

theorem Moves.modify {p : ρ → Bool} {u : Update pk uq} (hrefl : ∀ r, P r r)
    (hP : ∀ r, P r (u.apply r)) : Moves P none t (t.modify p u) :=
  .modify_of_mem (fun r _ => hrefl r) fun r _ _ => hP r

theorem Moves.updateRow [DecidableEq ι] {i : ι} {u : Update pk uq} (hrefl : ∀ r, P r r)
    (hP : ∀ r, P r (u.apply r)) : Moves P none t (t.updateRow i u) := .modify hrefl hP

theorem Moves.updateRow_of_mem [DecidableEq ι] {i : ι} {u : Update pk uq}
    (hrefl : ∀ r ∈ t.rows, P r r) (hP : ∀ r ∈ t.rows, pk r = i → P r (u.apply r)) :
    Moves P none t (t.updateRow i u) :=
  .modify_of_mem hrefl fun r hr hi => hP r hr (by simpa using hi)

theorem Moves.insert?_of_mem [DecidableEq ι] [DecidableEq κ] (hrefl : ∀ r ∈ t.rows, P r r)
    (hr : P r r) (h : t.insert? r = some t') : Moves P (some r) t t' := by
  have hrows := rows_of_insert?_eq_some h
  refine ⟨fun x hx => ⟨x, by simp [hrows, hx], hrefl x hx⟩, fun x hx => ?_, fun x hx => ?_,
    fun x hx y hy heq => ?_⟩
  · obtain rfl := Option.some.inj hx
    exact ⟨r, by simp [hrows], hr⟩
  · rw [hrows, List.mem_append, List.mem_singleton] at hx
    rcases hx with hx | rfl
    · exact .inl ⟨x, hx, hrefl x hx⟩
    · exact .inr ⟨x, rfl, hr⟩
  · obtain rfl := Option.some.inj hx
    have hfree := (insert?_isSome_iff.mp (by rw [h]; rfl)).1
    exact hfree (heq ▸ List.mem_map_of_mem hy)

theorem Moves.insert? [DecidableEq ι] [DecidableEq κ] (hrefl : ∀ r, P r r)
    (h : t.insert? r = some t') : Moves P (some r) t t' :=
  .insert?_of_mem (fun x _ => hrefl x) (hrefl r) h

theorem Moves.trans (htrans : ∀ a b c, P a b → P b c → P a c) (h : Moves P new t t')
    (h' : Moves P none t' t'') : Moves P new t t'' := by
  refine ⟨fun r hr => ?_, fun r hr => ?_, fun r'' hr'' => ?_, h.fresh⟩
  · obtain ⟨r', hr', hP⟩ := h.kept r hr
    obtain ⟨r'', hr'', hP'⟩ := h'.kept r' hr'
    exact ⟨r'', hr'', htrans _ _ _ hP hP'⟩
  · obtain ⟨r', hr', hP⟩ := h.added r hr
    obtain ⟨r'', hr'', hP'⟩ := h'.kept r' hr'
    exact ⟨r'', hr'', htrans _ _ _ hP hP'⟩
  · rcases h'.origin r'' hr'' with ⟨r', hr', hP'⟩ | ⟨_, hnone, -⟩
    · rcases h.origin r' hr' with ⟨r, hr, hP⟩ | ⟨r, hnew, hP⟩
      · exact .inl ⟨r, hr, htrans _ _ _ hP hP'⟩
      · exact .inr ⟨r, hnew, htrans _ _ _ hP hP'⟩
    · simp at hnone

end Table
