import Mathlib.Data.List.Basic
import Mathlib.Order.Lattice

/-!
# Dictionaries as association lists

A dictionary with keys in a linear order, read through `List.lookup`: the first binding of a key
is the binding. Two association lists are the same dictionary when every lookup agrees, whatever
the order in which their bindings are stored and however many shadowed bindings they carry.

`canon` picks the representative with strictly increasing keys. It is what makes "the same
dictionary" a plain equality: `canon l = canon m` exactly when `l` and `m` agree on every key
(`canon_eq_canon_iff`). `Dict` bundles a representative with the proof that its keys increase, so
that equality of `Dict`s is extensional (`Dict.ext_get?`) and no statement about dictionaries has
to mention the storage order.

## Main definitions

* `Dict.insertEntry`, `Dict.canon`: sorted insertion and the canonical representative.
* `Dict`: a dictionary in canonical form.
* `Dict.get?`, `Dict.ofList`: lookup and construction.
* `Dict.insert`, `Dict.erase`, `Dict.without`, `Dict.update`: binding, unbinding, and the
  right-biased union.
* `Dict.mapWithKey`: changing the values.

## Main results

* `Dict.lookup_canon`: passing to the representative changes no lookup.
* `Dict.canon_eq_canon_iff`: representatives agree exactly when all lookups do.
* `Dict.ext_get?`: a `Dict` is determined by its lookups.
-/

/-- A finite dictionary, stored with strictly increasing keys. -/
structure Dict (κ β : Type*) [LinearOrder κ] where
  /-- The bindings, in key order. -/
  entries : List (κ × β)
  /-- The keys are strictly increasing: no key is bound twice. -/
  sorted : entries.Pairwise fun a b => a.1 < b.1

namespace Dict

variable {κ β γ : Type*} [LinearOrder κ]

theorem lookup_cons_ite (e : κ × β) (l : List (κ × β)) (a : κ) :
    (e :: l).lookup a = if a = e.1 then some e.2 else l.lookup a := by
  rw [List.lookup_cons]
  by_cases h : a = e.1
  · rw [beq_iff_eq.mpr h, if_pos h]
  · rw [beq_eq_false_iff_ne.mpr h, if_neg h]

/-! ### Sorted insertion -/

/-- Bind `k` to `v` in a key-sorted list, replacing a binding of `k` that is already there. -/
def insertEntry (k : κ) (v : β) : List (κ × β) → List (κ × β)
  | [] => [(k, v)]
  | (k', v') :: l =>
    if k < k' then (k, v) :: (k', v') :: l
    else if k = k' then (k, v) :: l
    else (k', v') :: insertEntry k v l

theorem lookup_insertEntry (k a : κ) (v : β) (l : List (κ × β)) :
    (insertEntry k v l).lookup a = if a = k then some v else l.lookup a := by
  induction l with
  | nil => rw [insertEntry, lookup_cons_ite]
  | cons e l ih =>
    obtain ⟨k', v'⟩ := e
    rw [insertEntry]
    split_ifs with h₁ h₂ <;> simp only [lookup_cons_ite, ih] <;> grind

/-- Inserting brings in no key other than the one inserted. -/
theorem forall_keys_insertEntry {p : κ → Prop} {k : κ} {v : β} {l : List (κ × β)} (hk : p k)
    (hl : ∀ e ∈ l, p e.1) : ∀ e ∈ insertEntry k v l, p e.1 := by
  induction l with
  | nil => simpa [insertEntry] using hk
  | cons e l ih =>
    obtain ⟨k', v'⟩ := e
    have hk' : p k' := hl _ List.mem_cons_self
    have hl' : ∀ e ∈ l, p e.1 := fun e he => hl e (List.mem_cons_of_mem _ he)
    rw [insertEntry]
    split_ifs with h₁ h₂
    · simpa [hk] using hl
    · simpa [hk] using hl'
    · simpa [hk'] using ih hl'

theorem sorted_insertEntry {k : κ} {v : β} {l : List (κ × β)}
    (hl : l.Pairwise fun a b => a.1 < b.1) :
    (insertEntry k v l).Pairwise fun a b => a.1 < b.1 := by
  induction l with
  | nil => simp [insertEntry]
  | cons e l ih =>
    obtain ⟨k', v'⟩ := e
    obtain ⟨hhead, htail⟩ := List.pairwise_cons.mp hl
    rw [insertEntry]
    split_ifs with h₁ h₂
    · refine List.pairwise_cons.mpr ⟨fun e he => ?_, hl⟩
      rcases List.mem_cons.mp he with rfl | he
      · exact h₁
      · exact h₁.trans (hhead e he)
    · subst h₂
      exact List.pairwise_cons.mpr ⟨hhead, htail⟩
    · have hlt : k' < k := lt_of_le_of_ne (not_lt.mp h₁) (Ne.symm h₂)
      exact List.pairwise_cons.mpr ⟨forall_keys_insertEntry hlt hhead, ih htail⟩

/-! ### The canonical representative -/

/-- The key-sorted list with the same lookups: of several bindings of a key the first one is
kept. -/
def canon : List (κ × β) → List (κ × β)
  | [] => []
  | (k, v) :: l => insertEntry k v (canon l)

@[simp]
theorem lookup_canon (l : List (κ × β)) (a : κ) : (canon l).lookup a = l.lookup a := by
  induction l with
  | nil => rfl
  | cons e l ih =>
    rw [canon, lookup_insertEntry, ih, lookup_cons_ite]

theorem sorted_canon (l : List (κ × β)) : (canon l).Pairwise fun a b => a.1 < b.1 := by
  induction l with
  | nil => exact List.Pairwise.nil
  | cons e l ih => exact sorted_insertEntry ih

/-- No binding below the head of a sorted list has the head's key. -/
theorem lookup_eq_none_of_forall_lt {k : κ} {l : List (κ × β)} (h : ∀ e ∈ l, k < e.1) :
    l.lookup k = none := by
  rw [List.lookup_eq_none_iff]
  intro e he
  simpa using (h e he).ne

/-- **A key-sorted list is determined by its lookups.** -/
theorem eq_of_lookup_eq {l m : List (κ × β)} (hl : l.Pairwise fun a b => a.1 < b.1)
    (hm : m.Pairwise fun a b => a.1 < b.1) (h : ∀ k, l.lookup k = m.lookup k) : l = m := by
  induction l generalizing m with
  | nil =>
    cases m with
    | nil => rfl
    | cons e m => simpa [lookup_cons_ite] using h e.1
  | cons e l ih =>
    obtain ⟨hel, hl⟩ := List.pairwise_cons.mp hl
    cases m with
    | nil => simpa [lookup_cons_ite] using h e.1
    | cons f m =>
      obtain ⟨hfm, htail⟩ := List.pairwise_cons.mp hm
      have hkey : e.1 = f.1 := by
        rcases lt_trichotomy e.1 f.1 with hlt | heq | hgt
        · have hnone : ((f.1, f.2) :: m).lookup e.1 = none :=
            lookup_eq_none_of_forall_lt fun g hg => by
              rcases List.mem_cons.mp hg with rfl | hg
              · exact hlt
              · exact hlt.trans (hfm g hg)
          have := (h e.1).symm.trans (List.lookup_cons_self (b := e.2))
          simp [hnone] at this
        · exact heq
        · have hnone : ((e.1, e.2) :: l).lookup f.1 = none :=
            lookup_eq_none_of_forall_lt fun g hg => by
              rcases List.mem_cons.mp hg with rfl | hg
              · exact hgt
              · exact hgt.trans (hel g hg)
          have := (h f.1).trans (List.lookup_cons_self (b := f.2))
          simp [hnone] at this
      have hval : e.2 = f.2 := by
        have := h e.1
        rw [lookup_cons_ite, lookup_cons_ite, if_pos rfl, if_pos hkey] at this
        exact Option.some.inj this
      obtain rfl : e = f := Prod.ext hkey hval
      refine congrArg (e :: ·) (ih hl htail fun k => ?_)
      by_cases hk : k = e.1
      · rw [hk, lookup_eq_none_of_forall_lt hel, lookup_eq_none_of_forall_lt hfm]
      · simpa [lookup_cons_ite, hk] using h k

/-- **Two association lists are the same dictionary exactly when all their lookups agree.** -/
theorem canon_eq_canon_iff {l m : List (κ × β)} :
    canon l = canon m ↔ ∀ k, l.lookup k = m.lookup k := by
  refine ⟨fun h k => ?_, fun h => ?_⟩
  · rw [← lookup_canon l, h, lookup_canon]
  · exact eq_of_lookup_eq (sorted_canon l) (sorted_canon m) fun k => by simpa using h k

/-- Mapping the values of an association list maps its lookups. -/
theorem lookup_map_snd (f : β → γ) (l : List (κ × β)) (k : κ) :
    (l.map fun e => (e.1, f e.2)).lookup k = (l.lookup k).map f := by
  induction l with
  | nil => rfl
  | cons e l ih => by_cases h : k = e.1 <;> simp [lookup_cons_ite, h, ih]

/-- Mapping each value with its key maps the lookups of the key. -/
theorem lookup_map_mk (f : κ → β → γ) (l : List (κ × β)) (k : κ) :
    (l.map fun e => (e.1, f e.1 e.2)).lookup k = (l.lookup k).map (f k) := by
  induction l with
  | nil => rfl
  | cons e l ih => by_cases h : k = e.1 <;> simp [lookup_cons_ite, h, ih]

/-- A value that is looked up is smaller than the list that holds it. -/
theorem sizeOf_lookup_lt [SizeOf κ] [SizeOf β] {l : List (κ × β)} {k : κ} {v : β}
    (h : l.lookup k = some v) : sizeOf v < sizeOf l := by
  induction l with
  | nil => simp at h
  | cons e l ih =>
    obtain ⟨k', v'⟩ := e
    rw [lookup_cons_ite] at h
    split_ifs at h with hk
    · obtain rfl := Option.some.inj h
      simp only [List.cons.sizeOf_spec, Prod.mk.sizeOf_spec]
      omega
    · have := ih h
      simp only [List.cons.sizeOf_spec]
      omega

/-! ### Sets of keys -/

/-- The distinct elements of a list in increasing order. -/
def sortedSet (keys : List κ) : List κ := (canon (keys.map fun key => (key, ()))).map Prod.fst

@[simp]
theorem mem_sortedSet {keys : List κ} {k : κ} : k ∈ sortedSet keys ↔ k ∈ keys := by
  have hlookup :
      k ∈ sortedSet keys ↔ ((canon (keys.map fun key => (key, ()))).lookup k).isSome := by
    rw [sortedSet, List.lookup_isSome_iff, List.mem_map]
    exact exists_congr fun e => and_congr_right fun _ => by rw [beq_iff_eq, eq_comm]
  rw [hlookup, lookup_canon, List.lookup_isSome_iff]
  simp

/-! ### Lists of bindings without repetition -/

/-- In a list without repeated keys every binding is the one that is looked up. -/
theorem lookup_eq_some_of_mem {l : List (κ × β)} (hl : (l.map Prod.fst).Nodup) {k : κ} {v : β}
    (h : (k, v) ∈ l) : l.lookup k = some v := by
  induction l with
  | nil => simp at h
  | cons e l ih =>
    obtain ⟨he, hl⟩ := List.nodup_cons.mp hl
    rw [lookup_cons_ite]
    rcases List.mem_cons.mp h with rfl | h
    · rw [if_pos rfl]
    · rw [if_neg fun hk => he (List.mem_map.mpr ⟨(k, v), h, hk⟩), ih hl h]

theorem mem_of_lookup_eq_some {l : List (κ × β)} {k : κ} {v : β} (h : l.lookup k = some v) :
    (k, v) ∈ l := by
  obtain ⟨l₁, l₂, rfl, -⟩ := List.lookup_eq_some_iff.mp h
  simp

theorem mem_iff_lookup_eq_some_of_sorted {l : List (κ × β)}
    (hl : l.Pairwise fun a b => a.1 < b.1) {k : κ} {v : β} : (k, v) ∈ l ↔ l.lookup k = some v := by
  have hnodup : (l.map Prod.fst).Nodup := by
    rw [List.nodup_iff_pairwise_ne, List.pairwise_map]
    exact hl.imp fun h => h.ne
  exact ⟨lookup_eq_some_of_mem hnodup, mem_of_lookup_eq_some⟩

/-- Sorting loses no binding that can be looked up. -/
theorem mem_canon_iff {l : List (κ × β)} {k : κ} {v : β} :
    (k, v) ∈ canon l ↔ l.lookup k = some v := by
  rw [← lookup_canon l]
  exact mem_iff_lookup_eq_some_of_sorted (sorted_canon l)

/-! ### Dictionaries -/

/-- The binding of a key. -/
def get? (d : Dict κ β) (k : κ) : Option β := d.entries.lookup k

/-- The dictionary of an association list. -/
def ofList (l : List (κ × β)) : Dict κ β := ⟨canon l, sorted_canon l⟩

instance : EmptyCollection (Dict κ β) := ⟨⟨[], List.Pairwise.nil⟩⟩

instance : Inhabited (Dict κ β) := ⟨∅⟩

instance [DecidableEq β] : DecidableEq (Dict κ β) := fun d e =>
  decidable_of_iff (d.entries = e.entries) (by cases d; cases e; simp)

/-- The bound keys. -/
def keys (d : Dict κ β) : List κ := d.entries.map Prod.fst

/-- Bind one key. -/
def insert (d : Dict κ β) (k : κ) (v : β) : Dict κ β := ofList ((k, v) :: d.entries)

/-- Unbind one key. -/
def erase (d : Dict κ β) (k : κ) : Dict κ β := ofList (d.entries.filter fun e => e.1 ≠ k)

/-- Unbind several keys. -/
def without (d : Dict κ β) (ks : List κ) : Dict κ β :=
  ofList (d.entries.filter fun e => decide (e.1 ∉ ks))

/-- The bindings of `e`, and those of `d` where `e` has none. -/
def update (d e : Dict κ β) : Dict κ β := ofList (e.entries ++ d.entries)

/-- Change each value, with its key in hand. -/
def mapWithKey (f : κ → β → γ) (d : Dict κ β) : Dict κ γ where
  entries := d.entries.map fun e => (e.1, f e.1 e.2)
  sorted := List.pairwise_map.mpr d.sorted

variable {d e : Dict κ β} {k a : κ}

/-- **A dictionary is determined by its lookups.** -/
@[ext]
theorem ext_get? (h : ∀ k, d.get? k = e.get? k) : d = e := by
  have hentries : d.entries = e.entries := eq_of_lookup_eq d.sorted e.sorted h
  cases d
  cases e
  simpa using hentries

theorem mem_entries_iff {v : β} : (k, v) ∈ d.entries ↔ d.get? k = some v :=
  mem_iff_lookup_eq_some_of_sorted d.sorted

@[simp]
theorem get?_ofList (l : List (κ × β)) (k : κ) : (ofList l).get? k = l.lookup k := lookup_canon l k

@[simp]
theorem get?_empty (k : κ) : (∅ : Dict κ β).get? k = none := rfl

theorem get?_insert (d : Dict κ β) (k a : κ) (v : β) :
    (d.insert k v).get? a = if a = k then some v else d.get? a := by
  rw [insert, get?_ofList, lookup_cons_ite]
  rfl

theorem insert_eq_some {d : Dict κ β} {k a : κ} {v b : β} (h : (d.insert k v).get? a = some b) :
    a = k ∧ v = b ∨ a ≠ k ∧ d.get? a = some b := by
  rw [get?_insert] at h
  split_ifs at h with ha
  · exact .inl ⟨ha, Option.some.inj h⟩
  · exact .inr ⟨ha, h⟩

theorem lookup_filter_fst (p : κ → Bool) (l : List (κ × β)) (k : κ) :
    (l.filter fun e => p e.1).lookup k = if p k then l.lookup k else none := by
  induction l with
  | nil => simp
  | cons e l ih =>
    by_cases he : p e.1
    · rw [List.filter_cons_of_pos (by simpa using he), lookup_cons_ite, lookup_cons_ite, ih]
      by_cases hk : k = e.1
      · rw [if_pos hk, if_pos hk, hk, if_pos he]
      · rw [if_neg hk, if_neg hk]
    · rw [List.filter_cons_of_neg (by simpa using he), ih, lookup_cons_ite]
      by_cases hk : k = e.1
      · rw [hk, if_neg he, if_neg he]
      · rw [if_neg hk]

theorem get?_erase (d : Dict κ β) (k a : κ) :
    (d.erase k).get? a = if a = k then none else d.get? a := by
  rw [erase, get?_ofList, lookup_filter_fst fun b => decide (b ≠ k)]
  by_cases ha : a = k <;> simp [ha, get?]

theorem get?_without (d : Dict κ β) (ks : List κ) (k : κ) :
    (d.without ks).get? k = if k ∈ ks then none else d.get? k := by
  rw [without, get?_ofList, lookup_filter_fst fun a => decide (a ∉ ks)]
  by_cases hk : k ∈ ks <;> simp [hk, get?]

theorem get?_update (d e : Dict κ β) (k : κ) : (d.update e).get? k = (e.get? k).or (d.get? k) := by
  rw [update, get?_ofList, List.lookup_append]
  rfl

@[simp]
theorem get?_mapWithKey (f : κ → β → γ) (d : Dict κ β) (k : κ) :
    (d.mapWithKey f).get? k = (d.get? k).map (f k) := lookup_map_mk f d.entries k

/-- Changing values commutes with the union. -/
theorem mapWithKey_update (f : κ → β → γ) (d e : Dict κ β) :
    (d.update e).mapWithKey f = (d.mapWithKey f).update (e.mapWithKey f) := by
  refine ext_get? fun k => ?_
  rw [get?_mapWithKey, get?_update, get?_update, get?_mapWithKey, get?_mapWithKey]
  cases e.get? k <;> rfl

theorem mapWithKey_ofList (f : κ → β → γ) (l : List (κ × β)) :
    (ofList l).mapWithKey f = ofList (l.map fun e => (e.1, f e.1 e.2)) := by
  refine ext_get? fun k => ?_
  rw [get?_mapWithKey, get?_ofList, get?_ofList, lookup_map_mk]

theorem mem_keys_iff : k ∈ d.keys ↔ (d.get? k).isSome := by
  rw [keys, get?, List.lookup_isSome_iff, List.mem_map]
  exact exists_congr fun e => and_congr_right fun _ => by rw [beq_iff_eq, eq_comm]

/-- The binding of the greatest key. -/
def last? (d : Dict κ β) : Option (κ × β) := d.entries.getLast?

theorem get?_of_last? {v : β} (h : d.last? = some (k, v)) : d.get? k = some v :=
  mem_entries_iff.mp (List.mem_of_getLast? h)

theorem le_of_last? {v : β} (h : d.last? = some (k, v)) (ha : (d.get? a).isSome) : a ≤ k := by
  obtain ⟨w, hw⟩ := Option.isSome_iff_exists.mp ha
  obtain ⟨earlier, hentries⟩ := List.getLast?_eq_some_iff.mp h
  have hsorted := d.sorted
  rw [hentries, List.pairwise_append] at hsorted
  have hmem := mem_entries_iff.mpr hw
  rw [hentries, List.mem_append, List.mem_singleton, Prod.mk.injEq] at hmem
  rcases hmem with hmem | ⟨rfl, -⟩
  · exact (hsorted.2.2 _ hmem _ List.mem_cons_self).le
  · exact le_rfl

/-- **The last binding is that of the greatest key.** -/
theorem last?_eq_some_iff {v : β} :
    d.last? = some (k, v) ↔ d.get? k = some v ∧ ∀ a, (d.get? a).isSome → a ≤ k := by
  refine ⟨fun h => ⟨get?_of_last? h, fun a => le_of_last? h⟩, fun ⟨hk, hmax⟩ => ?_⟩
  cases hlast : d.last? with
  | none =>
    have hmem := mem_entries_iff.mpr hk
    rw [List.getLast?_eq_none_iff.mp hlast] at hmem
    exact absurd hmem (by simp)
  | some e =>
    obtain ⟨a, w⟩ := e
    have hw := get?_of_last? hlast
    have hle := le_of_last? hlast (Option.isSome_of_eq_some hk)
    obtain rfl := le_antisymm hle (hmax a (Option.isSome_of_eq_some hw))
    rw [Option.some.inj (hk.symm.trans hw)]

theorem last?_eq_none_iff : d.last? = none ↔ ∀ a, d.get? a = none := by
  constructor
  · intro h a
    by_contra hsome
    obtain ⟨v, hv⟩ := Option.ne_none_iff_exists'.mp hsome
    have hmem := mem_entries_iff.mpr hv
    rw [List.getLast?_eq_none_iff.mp h] at hmem
    exact absurd hmem (by simp)
  · intro h
    cases hlast : d.last? with
    | none => rfl
    | some e => exact absurd (get?_of_last? (k := e.1) (v := e.2) hlast) (by simp [h])

end Dict
