import FoundryLite.Library.Dict
import FoundryLite.Library.Fallible

/-!
# Unions of dictionaries

Dictionaries that never bind one key to two values have a union, the dictionary with the bindings of
all of them. It depends on neither the order nor the grouping of the sources.

## Main results

* `Dict.exists_isUnion_iff`: there is a union exactly when no two sources disagree.
* `Dict.IsUnion.flatten`: uniting the unions of groups is uniting all.
* `Dict.foldlM_eq_ok_iff_isUnion`: a fold that unites source after source builds the union.
-/

namespace Dict

variable {κ β : Type} [LinearOrder κ] {d e : Dict κ β} {k : κ}

/-- The bindings of `d` are those of the sources; so no two sources bind a key differently. -/
def IsUnion (d : Dict κ β) (sources : List (Dict κ β)) : Prop :=
  ∀ k v, d.get? k = some v ↔ ∃ source ∈ sources, source.get? k = some v

namespace IsUnion

variable {sources rest : List (Dict κ β)} {source : Dict κ β}

theorem unique (hd : IsUnion d sources) (he : IsUnion e sources) : d = e := by
  refine ext_get? fun k => Option.ext fun v => ?_
  rw [hd k v, he k v]

/-- No two sources of a union bind a key differently. -/
theorem agree (h : IsUnion d sources) {a b : Dict κ β} (ha : a ∈ sources) (hb : b ∈ sources)
    {v w : β} (hv : a.get? k = some v) (hw : b.get? k = some w) : v = w := by
  have hdv := (h k v).mpr ⟨a, ha, hv⟩
  have hdw := (h k w).mpr ⟨b, hb, hw⟩
  exact Option.some.inj (hdv.symm.trans hdw)

theorem singleton (d : Dict κ β) : IsUnion d [d] := by
  intro k v
  simp

/-- An empty source adds nothing. -/
theorem empty_cons : IsUnion d (∅ :: sources) ↔ IsUnion d sources := by
  refine forall_congr' fun k => forall_congr' fun v => ?_
  simp only [List.mem_cons, exists_eq_or_imp, get?_empty, reduceCtorEq, false_or]

/-- The first two sources can be united first. -/
theorem cons_cons (h : IsUnion e [d, source]) {u : Dict κ β} :
    IsUnion u (e :: rest) ↔ IsUnion u (d :: source :: rest) := by
  refine forall_congr' fun k => forall_congr' fun v => ?_
  simp only [List.mem_cons, exists_eq_or_imp, h k v, List.not_mem_nil, or_false, exists_eq_left,
    or_assoc]

/-- Two sources of a union have a union of their own. -/
theorem exists_pair (h : IsUnion e (d :: source :: rest)) :
    IsUnion (d.update source) [d, source] := by
  intro k v
  rw [get?_update, Option.or_eq_some_iff]
  simp only [List.mem_cons, exists_eq_or_imp, List.not_mem_nil, or_false, exists_eq_left]
  constructor
  · rintro (hsource | ⟨-, hd⟩)
    · exact .inr hsource
    · exact .inl hd
  · rintro (hd | hsource)
    · cases hk : source.get? k with
      | none => exact .inr ⟨rfl, hd⟩
      | some w =>
        rw [h.agree (by simp) (by simp) hk hd]
        exact .inl rfl
    · exact .inl hsource

/-- **Uniting by groups, and then uniting the unions, is uniting all.** -/
theorem flatten {parts : List (Dict κ β)} {groups : List (List (Dict κ β))}
    (h : List.Forall₂ IsUnion parts groups) : IsUnion d parts ↔ IsUnion d groups.flatten := by
  refine forall_congr' fun k => forall_congr' fun v => iff_congr Iff.rfl ?_
  induction h with
  | nil => simp
  | @cons part group parts groups hpart _ ih =>
    simp only [List.mem_cons, List.flatten_cons, List.mem_append, or_and_right, exists_or, ih,
      exists_eq_left, hpart k v]

end IsUnion

/-- **Sources have a union exactly when no two of them bind a key differently.** -/
theorem exists_isUnion_iff {sources : List (Dict κ β)} :
    (∃ d : Dict κ β, d.IsUnion sources) ↔
      ∀ a ∈ sources, ∀ b ∈ sources, ∀ k v w, a.get? k = some v → b.get? k = some w → v = w := by
  constructor
  · rintro ⟨d, h⟩ a ha b hb k v w hv hw
    exact h.agree ha hb hv hw
  · intro hagree
    refine ⟨ofList (sources.flatMap entries), fun k v => ?_⟩
    rw [get?_ofList]
    constructor
    · intro h
      obtain ⟨source, hsource, hmem⟩ := List.mem_flatMap.mp (mem_of_lookup_eq_some h)
      exact ⟨source, hsource, mem_entries_iff.mp hmem⟩
    · rintro ⟨source, hsource, hv⟩
      have hmem := List.mem_flatMap.mpr ⟨source, hsource, mem_entries_iff.mpr hv⟩
      have hsome : ((sources.flatMap entries).lookup k).isSome :=
        List.lookup_isSome_iff.mpr ⟨_, hmem, by simp⟩
      obtain ⟨w, hw⟩ := Option.isSome_iff_exists.mp hsome
      obtain ⟨other, hother, hentry⟩ := List.mem_flatMap.mp (mem_of_lookup_eq_some hw)
      rw [hw, hagree other hother source hsource k w v (mem_entries_iff.mp hentry) hv]

/-- A fold whose step unites one more source builds the union of all. -/
theorem foldlM_eq_ok_iff_isUnion {ε α : Type} {step : Dict κ β → α → Except ε (Dict κ β)}
    {bindings : α → Dict κ β}
    (hstep : ∀ d x e, step d x = .ok e ↔ IsUnion e [d, bindings x]) {xs : List α} :
    xs.foldlM step d = .ok e ↔ IsUnion e (d :: xs.map bindings) := by
  induction xs generalizing d with
  | nil =>
    rw [List.foldlM_nil, Except.pure_eq_ok_iff]
    exact ⟨fun h => h ▸ .singleton d, fun h => (IsUnion.singleton d).unique h⟩
  | cons x xs ih =>
    rw [List.foldlM_cons, Except.bind_eq_ok_iff, List.map_cons]
    constructor
    · rintro ⟨d', hd', h⟩
      exact ((hstep d x d').mp hd').cons_cons.mp (ih.mp h)
    · intro h
      exact ⟨_, (hstep d x _).mpr h.exists_pair, ih.mpr (h.exists_pair.cons_cons.mpr h)⟩

end Dict
