import FoundryLite.Serialiser
import Mathlib.Data.List.Nodup

/-!
# Reading ontology definitions

A candidate ontology arrives as a decoded document, and every rule about it begins by reading
fields of mappings with a type in mind. The readers below are shared by the migration rules; each
of them either returns a value of the type it promises or refuses the document.

## Main results

* `mem_of_lookup_rowsByKey`, `exists_lookup_rowsByKey`: the index and the rows are the same
  collection.
-/

namespace FoundryLite.Ontology

/-! ### Field readers -/

def asMapping : Json → Checked Mapping
  | .obj fields => pure fields
  | _ => validationFailed "expected mapping"

def optionalStr (mapping : Mapping) (key : String) (default : Option String := none) :
    Checked (Option String) :=
  match mapping.lookup key with
  | none => pure default
  | some .null => pure none
  | some (.str value) => pure (some value)
  | some _ => validationFailed s!"{key} must be a string"

def requiredStr (mapping : Mapping) (key : String) : Checked String := do
  match ← optionalStr mapping key with
  | none => validationFailed s!"{key} must be set"
  | some value => if value = "" then validationFailed s!"{key} must be set" else pure value

def optionalBool (mapping : Mapping) (key : String) (isDefaultValue : Bool) : Checked Bool :=
  match mapping.lookup key with
  | none => pure isDefaultValue
  | some (.bool value) => pure value
  | some _ => validationFailed s!"{key} must be a boolean"

def mappingSequence (mapping : Mapping) (key : String) : Checked (List Mapping) :=
  match mapping.lookup key with
  | none => pure []
  | some .null => pure []
  | some (.arr items) => items.mapM asMapping
  | some _ => validationFailed s!"{key} must be a list"

/-! ### Indexing rows by name -/

/-- Index rows by a name, refusing a name that occurs twice. -/
def rowsByKey {α : Type} (name : α → Checked String) (duplicate : String → Checked Unit)
    (rows : List α) : Checked (List (String × α)) :=
  rows.foldlM (fun result row => do
    let apiName ← name row
    if (result.lookup apiName).isSome then duplicate apiName
    pure (result ++ [(apiName, row)])) []

/-- Index the entries of a definition by their `apiName`. -/
def yamlRowsByApi (rows : List Mapping) (message detailKey : String) :
    Checked (List (String × Mapping)) :=
  rowsByKey (fun row => requiredStr row "apiName")
    (fun apiName => validationFailed message [(detailKey, .str apiName)]) rows

section

variable {α : Type} {name : α → Checked String} {duplicate : String → Checked Unit}
  {rows : List α} {byName : List (String × α)}

/-- What an index under construction holds: the rows seen, each under its name, no name twice. -/
private def Indexes (name : α → Checked String) (seen : List α) (result : List (String × α)) :
    Prop :=
  (result.map Prod.fst).Nodup ∧ result.map Prod.snd = seen ∧
    ∀ e ∈ result, name e.2 = .ok e.1

private theorem indexes_rowsByKey (hdup : ∀ apiName u, duplicate apiName ≠ .ok u)
    (h : rowsByKey name duplicate rows = .ok byName) : Indexes name rows byName := by
  suffices hfold : ∀ (rows : List α) (seen : List α) (start : List (String × α)),
      Indexes name seen start → rows.foldlM (fun result row => do
        let apiName ← name row
        if (result.lookup apiName).isSome then duplicate apiName
        pure (result ++ [(apiName, row)])) start = .ok byName →
      Indexes name (seen ++ rows) byName by
    simpa using hfold rows [] [] ⟨by simp, rfl, by simp⟩ h
  intro rows
  induction rows with
  | nil =>
    intro seen start hstart h
    obtain rfl : start = byName := by simpa [pure, Except.pure] using h
    simpa using hstart
  | cons row rows ih =>
    intro seen start hstart h
    obtain ⟨hnodup, hsnd, hname⟩ := hstart
    rw [List.foldlM_cons, Except.bind_eq_ok_iff] at h
    obtain ⟨next, hnext, h⟩ := h
    obtain ⟨apiName, hrow, hnext⟩ := Except.bind_eq_ok_iff.mp hnext
    have hnew : start.lookup apiName = none ∧ start ++ [(apiName, row)] = next := by
      split_ifs at hnext with hseen
      · obtain ⟨u, hu, -⟩ := Except.bind_eq_ok_iff.mp hnext
        exact absurd hu (hdup apiName u)
      · exact ⟨Option.not_isSome_iff_eq_none.mp hseen, by simpa using hnext⟩
    obtain ⟨hfresh, rfl⟩ := hnew
    rw [show seen ++ row :: rows = (seen ++ [row]) ++ rows by simp]
    refine ih (seen ++ [row]) _ ⟨?_, by simp [hsnd], ?_⟩ h
    · rw [List.map_append, List.nodup_append]
      refine ⟨hnodup, by simp, fun a ha b hb => ?_⟩
      obtain rfl : b = apiName := by simpa using hb
      rintro rfl
      obtain ⟨e, he, rfl⟩ := List.mem_map.mp ha
      have := List.lookup_eq_none_iff.mp hfresh e he
      simp at this
    · intro e he
      rcases List.mem_append.mp he with he | he
      · exact hname e he
      · obtain rfl : e = (apiName, row) := by simpa using he
        exact hrow

theorem nodup_rowsByKey (hdup : ∀ apiName u, duplicate apiName ≠ .ok u)
    (h : rowsByKey name duplicate rows = .ok byName) : (byName.map Prod.fst).Nodup :=
  (indexes_rowsByKey hdup h).1

/-- An indexed row is one of the rows, under its name. -/
theorem mem_of_lookup_rowsByKey (hdup : ∀ apiName u, duplicate apiName ≠ .ok u)
    (h : rowsByKey name duplicate rows = .ok byName) {apiName : String} {row : α}
    (hrow : byName.lookup apiName = some row) : row ∈ rows ∧ name row = .ok apiName := by
  obtain ⟨-, hsnd, hname⟩ := indexes_rowsByKey hdup h
  have hmem := Dict.mem_of_lookup_eq_some hrow
  exact ⟨hsnd ▸ List.mem_map_of_mem hmem, hname _ hmem⟩

/-- Every row is indexed, under its name. -/
theorem exists_lookup_rowsByKey (hdup : ∀ apiName u, duplicate apiName ≠ .ok u)
    (h : rowsByKey name duplicate rows = .ok byName) {row : α} (hrow : row ∈ rows) :
    ∃ apiName, name row = .ok apiName ∧ byName.lookup apiName = some row := by
  obtain ⟨hnodup, hsnd, hname⟩ := indexes_rowsByKey hdup h
  rw [← hsnd] at hrow
  obtain ⟨⟨apiName, _⟩, he, rfl⟩ := List.mem_map.mp hrow
  exact ⟨apiName, hname _ he, Dict.lookup_eq_some_of_mem hnodup he⟩

end

end FoundryLite.Ontology
