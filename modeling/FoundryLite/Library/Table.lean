import Mathlib.Data.List.Nodup

/-!
# Tables with a primary key and a unique key

A table is a list of rows in which neither the primary key nor the unique key repeats. The two
constraints are fields of the structure, so every operation either keeps them or refuses, which is
what a database does: inserting a row whose key is taken is refused (`Table.insert?`), and an
update changes rows in place without touching their keys (`Table.modify`).

The order of the rows is the order in which a scan meets them. It is arbitrary but stable: an
update keeps it and an insertion appends. A lookup by anything other than a key takes the first
match of a scan.

## Main results

* `Table.get?_insert?`, `Table.get?_modify`: what each write does to the lookup by unique key.
* `Table.find?_insert?`, `Table.filter_updateRow`: what each write does to a scan.
* `Table.insert?_isSome_iff`: an insertion is refused exactly when one of the keys is taken.
-/

/-- Rows with a primary key `pk` and a unique key `uq`. -/
structure Table {ρ ι κ : Type*} (pk : ρ → ι) (uq : ρ → κ) where
  /-- The rows, in scan order. -/
  rows : List ρ
  /-- No two rows share a primary key. -/
  nodup_pk : (rows.map pk).Nodup
  /-- No two rows share a unique key. -/
  nodup_uq : (rows.map uq).Nodup

namespace Table

variable {ρ ι κ : Type*} {pk : ρ → ι} {uq : ρ → κ} {t t' : Table pk uq} {r r' : ρ} {k : κ}

@[ext]
theorem ext (h : t.rows = t'.rows) : t = t' := by
  cases t
  cases t'
  simpa using h

instance : EmptyCollection (Table pk uq) := ⟨⟨[], List.nodup_nil, List.nodup_nil⟩⟩

@[simp]
theorem rows_empty : (∅ : Table pk uq).rows = [] := rfl

theorem eq_of_pk_eq (hr : r ∈ t.rows) (hr' : r' ∈ t.rows) (h : pk r = pk r') : r = r' :=
  List.inj_on_of_nodup_map t.nodup_pk hr hr' h

theorem eq_of_uq_eq (hr : r ∈ t.rows) (hr' : r' ∈ t.rows) (h : uq r = uq r') : r = r' :=
  List.inj_on_of_nodup_map t.nodup_uq hr hr' h

/-- A property that singles out one stored row holds of exactly one row. -/
theorem countP_eq_one [DecidableEq ρ] {p : ρ → Bool} (hr : r ∈ t.rows) (hp : p r)
    (hunique : ∀ x, p x → pk x = pk r) : t.rows.countP p = 1 := by
  rw [← List.count_eq_one_of_mem t.nodup_pk.of_map hr, List.count]
  refine List.countP_congr fun x hx => ⟨fun hpx => ?_, fun hxr => ?_⟩
  · simpa using eq_of_pk_eq hx hr (hunique x hpx)
  · rw [beq_iff_eq.mp hxr]
    exact hp

/-- A scan finds the only row it could find. -/
theorem find?_eq_some_of_forall {p : ρ → Bool} (hr : r ∈ t.rows) (hp : p r)
    (h : ∀ x ∈ t.rows, p x → x = r) : t.rows.find? p = some r := by
  cases hfind : t.rows.find? p with
  | none => exact absurd hp (by simpa using List.find?_eq_none.mp hfind r hr)
  | some x => rw [h x (List.mem_of_find?_eq_some hfind) (List.find?_some hfind)]

/-! ### Lookup by the unique key -/

section Lookup

variable [DecidableEq κ]

/-- The row with a given unique key. -/
def get? (t : Table pk uq) (k : κ) : Option ρ := t.rows.find? fun r => uq r = k

theorem get?_eq_some_iff : t.get? k = some r ↔ r ∈ t.rows ∧ uq r = k := by
  constructor
  · intro h
    exact ⟨List.mem_of_find?_eq_some h, by simpa using List.find?_some h⟩
  · rintro ⟨hr, hk⟩
    cases hfind : t.get? k with
    | none =>
      have hne := List.find?_eq_none.mp hfind r hr
      simp [hk] at hne
    | some r' =>
      have hmem : r' ∈ t.rows := List.mem_of_find?_eq_some hfind
      have hkey : uq r' = k := by simpa using List.find?_some hfind
      rw [eq_of_uq_eq hmem hr (hkey.trans hk.symm)]

theorem get?_eq_none_iff : t.get? k = none ↔ ∀ r ∈ t.rows, uq r ≠ k := by
  simp [get?]

theorem get?_uq_of_mem (h : r ∈ t.rows) : t.get? (uq r) = some r := get?_eq_some_iff.mpr ⟨h, rfl⟩

end Lookup

/-! ### Updates in place -/

/-- A change of a row that keeps both keys. -/
structure Update {ρ ι κ : Type*} (pk : ρ → ι) (uq : ρ → κ) where
  apply : ρ → ρ
  pk_apply : ∀ r, pk (apply r) = pk r
  uq_apply : ∀ r, uq (apply r) = uq r

/-- Apply an update to every row that satisfies `p`, in place. -/
def modify (t : Table pk uq) (p : ρ → Bool) (u : Update pk uq) : Table pk uq where
  rows := t.rows.map fun r => if p r then u.apply r else r
  nodup_pk := by
    rw [List.map_map]
    convert t.nodup_pk using 2
    funext r
    rw [Function.comp_apply]
    split_ifs
    · exact u.pk_apply r
    · rfl
  nodup_uq := by
    rw [List.map_map]
    convert t.nodup_uq using 2
    funext r
    rw [Function.comp_apply]
    split_ifs
    · exact u.uq_apply r
    · rfl

/-- Apply an update to the row with a given primary key. -/
def updateRow [DecidableEq ι] (t : Table pk uq) (i : ι) (u : Update pk uq) : Table pk uq :=
  t.modify (fun r => pk r = i) u

section Modify

variable {p : ρ → Bool} {u : Update pk uq}

@[simp]
theorem rows_modify : (t.modify p u).rows = t.rows.map fun r => if p r then u.apply r else r := rfl

theorem get?_modify [DecidableEq κ] :
    (t.modify p u).get? k = (t.get? k).map fun r => if p r then u.apply r else r := by
  have hcomp : ((fun r => decide (uq r = k)) ∘ fun r => if p r then u.apply r else r)
      = fun r => decide (uq r = k) := by
    funext r
    rw [Function.comp_apply]
    split_ifs
    · rw [u.uq_apply]
    · rfl
  rw [get?, get?, rows_modify, List.find?_map, hcomp]

/-- A scan for rows that an update neither starts nor ends at does not see the update. -/
theorem find?_modify_of_forall {p : ρ → Bool} {q : ρ → Bool}
    (h : ∀ r ∈ t.rows, p r → q r = false ∧ q (u.apply r) = false) :
    (t.modify p u).rows.find? q = t.rows.find? q := by
  rw [rows_modify]
  generalize t.rows = rows at h
  induction rows with
  | nil => rfl
  | cons r rows ih =>
    obtain ⟨hr, hrows⟩ := List.forall_mem_cons.mp h
    rw [List.map_cons, List.find?_cons, List.find?_cons, ih hrows]
    split_ifs with hp
    · rw [(hr hp).1, (hr hp).2]
    · rfl

variable [DecidableEq ι]

theorem rows_updateRow {i : ι} :
    (t.updateRow i u).rows = t.rows.map fun r => if pk r = i then u.apply r else r := by
  simp only [updateRow, rows_modify, decide_eq_true_eq]

/-- Updating the row that holds a key changes the lookup of that key and of no other. -/
theorem get?_updateRow [DecidableEq κ] (hr : r ∈ t.rows) (k : κ) :
    (t.updateRow (pk r) u).get? k = if k = uq r then some (u.apply r) else t.get? k := by
  rw [updateRow, get?_modify]
  split_ifs with hkey
  · rw [hkey, get?_uq_of_mem hr]
    simp
  · cases hget : t.get? k with
    | none => rfl
    | some r' =>
      obtain ⟨hr', hk⟩ := get?_eq_some_iff.mp hget
      have hne : pk r' ≠ pk r := by
        intro heq
        rw [eq_of_pk_eq hr' hr heq] at hk
        exact hkey hk.symm
      simp [hne]

/-- Updating a row leaves a selection that the row is not in, and cannot enter, as it was. -/
theorem filter_updateRow {q : ρ → Bool} (hr : r ∈ t.rows) (hq : ∀ x, q (u.apply x) = q x)
    (hqr : q r = false) : (t.updateRow (pk r) u).rows.filter q = t.rows.filter q := by
  rw [rows_updateRow, List.filter_map]
  have hcomp : (q ∘ fun x => if pk x = pk r then u.apply x else x) = q := by
    funext x
    rw [Function.comp_apply]
    split_ifs
    · exact hq x
    · rfl
  rw [hcomp]
  refine (List.map_congr_left fun x hx => ?_).trans (List.map_id _)
  obtain ⟨hmem, hqx⟩ := List.mem_filter.mp hx
  have hne : pk x ≠ pk r := by
    intro heq
    rw [eq_of_pk_eq hmem hr heq, hqr] at hqx
    exact Bool.false_ne_true hqx
  simp [hne]

end Modify

/-! ### Insertion -/

section Insert

variable [DecidableEq ι] [DecidableEq κ]

/-- Append a row, unless one of its keys is taken. -/
def insert? (t : Table pk uq) (r : ρ) : Option (Table pk uq) :=
  if h : pk r ∉ t.rows.map pk ∧ uq r ∉ t.rows.map uq then
    some
      { rows := t.rows ++ [r]
        nodup_pk := by
          rw [List.map_append, List.nodup_append]
          exact ⟨t.nodup_pk, by simp, by
            rintro a ha b hb rfl
            exact h.1 (by simpa [List.mem_singleton.mp hb] using ha)⟩
        nodup_uq := by
          rw [List.map_append, List.nodup_append]
          exact ⟨t.nodup_uq, by simp, by
            rintro a ha b hb rfl
            exact h.2 (by simpa [List.mem_singleton.mp hb] using ha)⟩ }
  else none

theorem insert?_isSome_iff :
    (t.insert? r).isSome ↔ pk r ∉ t.rows.map pk ∧ uq r ∉ t.rows.map uq := by
  rw [insert?]
  split_ifs with h
  · exact iff_of_true rfl h
  · exact iff_of_false Bool.false_ne_true h

theorem rows_of_insert?_eq_some (h : t.insert? r = some t') : t'.rows = t.rows ++ [r] := by
  rw [insert?] at h
  split_ifs at h
  exact congrArg Table.rows (Option.some.inj h).symm

theorem find?_insert? {q : ρ → Bool} (h : t.insert? r = some t') :
    t'.rows.find? q = (t.rows.find? q).or (if q r then some r else none) := by
  rw [rows_of_insert?_eq_some h, List.find?_append]
  by_cases hq : q r <;> simp [hq]

/-- An inserted row had no predecessor under its unique key. -/
theorem get?_of_insert?_eq_some (h : t.insert? r = some t') : t.get? (uq r) = none := by
  have hfresh := (insert?_isSome_iff.mp (by rw [h]; rfl)).2
  rw [get?_eq_none_iff]
  intro r' hr' hkey
  exact hfresh (hkey ▸ List.mem_map_of_mem hr')

theorem get?_insert? (h : t.insert? r = some t') :
    t'.get? k = if k = uq r then some r else t.get? k := by
  have hfind := find?_insert? (q := fun r => uq r = k) h
  rw [get?, hfind]
  split_ifs with hr hk hk
  · have hnone := get?_of_insert?_eq_some h
    rw [← hk, get?] at hnone
    rw [hnone, Option.none_or]
  · exact absurd (by simpa using hr : uq r = k).symm hk
  · exact absurd (by simpa using hk.symm) hr
  · rw [Option.or_none]
    rfl

end Insert

/-! ### Deletion -/

/-- Drop the rows that satisfy `p`. -/
def deleteWhere (t : Table pk uq) (p : ρ → Bool) : Table pk uq where
  rows := t.rows.filter fun r => !p r
  nodup_pk := t.nodup_pk.sublist ((t.rows.filter_sublist).map pk)
  nodup_uq := t.nodup_uq.sublist ((t.rows.filter_sublist).map uq)

/-- A deletion changes the lookup of the keys whose rows it drops. -/
theorem get?_deleteWhere [DecidableEq κ] {p : ρ → Bool} :
    (t.deleteWhere p).get? k = (t.get? k).filter fun r => !p r := by
  cases hget : t.get? k with
  | none =>
    rw [Option.filter_none, get?_eq_none_iff]
    exact fun r hr => get?_eq_none_iff.mp hget r (List.mem_of_mem_filter hr)
  | some r =>
    obtain ⟨hr, hkey⟩ := get?_eq_some_iff.mp hget
    by_cases hp : p r
    · rw [Option.filter_some_neg (by simp [hp]), get?_eq_none_iff]
      intro r' hr' hkey'
      obtain ⟨hmem, hkept⟩ := List.mem_filter.mp hr'
      rw [eq_of_uq_eq hmem hr (hkey'.trans hkey.symm), hp] at hkept
      exact Bool.false_ne_true hkept
    · rw [Option.filter_some_pos (by simp [hp])]
      exact get?_eq_some_iff.mpr ⟨List.mem_filter.mpr ⟨hr, by simp [hp]⟩, hkey⟩

end Table
