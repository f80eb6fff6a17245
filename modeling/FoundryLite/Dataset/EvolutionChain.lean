import FoundryLite.Dataset.SchemaEvolution

/-!
# Chains of schemas

The compatibility of two schemas is not transitive: a column of type `null` is compatible with every
type, so that two steps which are compatible each may lead from one concrete type to another that is
not (`not_sound_of_planned`). The check is never made of such steps. A candidate is resolved against the
schema before it, and in what is stored a column is of type `null` only if it never had another
(`columnType_resolvedColumn`). Of the schemas that are stored one after the other, the last therefore
is a sound evolution of the first (`soundEvolution_of_commits`).
-/

namespace FoundryLite.Dataset

open Except (bind_eq_ok_iff)

/-! ### Text -/

theorem val_toLower_of_upper {c : Char} (h : c.val ≥ 'A'.val ∧ c.val ≤ 'Z'.val) :
    c.toLower.val = c.val + ('a'.val - 'A'.val) :=
  congrArg Char.val (dif_pos h)

theorem toLower_of_not_upper {c : Char} (h : ¬ (c.val ≥ 'A'.val ∧ c.val ≤ 'Z'.val)) :
    c.toLower = c :=
  dif_neg h

theorem toLower_toLower (c : Char) : c.toLower.toLower = c.toLower := by
  by_cases h : c.val ≥ 'A'.val ∧ c.val ≤ 'Z'.val
  · refine toLower_of_not_upper ?_
    rintro ⟨-, hle⟩
    rw [val_toLower_of_upper h] at hle
    have h₁ := UInt32.le_iff_toNat_le.mp h.1
    have h₂ := UInt32.le_iff_toNat_le.mp h.2
    have h₃ := UInt32.le_iff_toNat_le.mp hle
    rw [UInt32.toNat_add] at h₃
    have hA : 'A'.val.toNat = 65 := rfl
    have hZ : 'Z'.val.toNat = 90 := rfl
    have hshift : ('a'.val - 'A'.val).toNat = 32 := rfl
    omega
  · rw [toLower_of_not_upper h, toLower_of_not_upper h]

theorem lowerAscii_lowerAscii (text : String) : lowerAscii (lowerAscii text) = lowerAscii text := by
  have htwice : Char.toLower ∘ Char.toLower = Char.toLower := funext toLower_toLower
  simp [lowerAscii, htwice]

/-! ### Columns by name -/

theorem lookup_setItem {β : Type} {key k : String} {value : β} {l : List (String × β)} :
    (setItem key value l).lookup k = if k = key then some value else l.lookup k := by
  induction l with
  | nil => rw [setItem, Dict.lookup_cons_ite]
  | cons entry l ih =>
    obtain ⟨k', v⟩ := entry
    rw [setItem]
    split_ifs with h₁ h₂ <;> simp only [Dict.lookup_cons_ite, ih] <;> grind

theorem setItem_of_not_mem {β : Type} {key : String} {value : β} {l : List (String × β)}
    (h : key ∉ l.map Prod.fst) : setItem key value l = l ++ [(key, value)] := by
  induction l with
  | nil => rfl
  | cons entry l ih =>
    obtain ⟨k, v⟩ := entry
    rw [List.map_cons, List.mem_cons, not_or] at h
    rw [setItem, if_neg (Ne.symm h.1), ih h.2, List.cons_append]

theorem map_fst_setItem {β : Type} {key : String} {value : β} {l : List (String × β)}
    (h : key ∈ l.map Prod.fst) : (setItem key value l).map Prod.fst = l.map Prod.fst := by
  induction l with
  | nil => simp at h
  | cons entry l ih =>
    obtain ⟨k, v⟩ := entry
    rw [setItem]
    split_ifs with hk
    · rw [List.map_cons, List.map_cons, hk]
    · rw [List.map_cons, List.mem_cons] at h
      rw [List.map_cons, List.map_cons, ih (h.resolve_left (Ne.symm hk))]

theorem mem_setItem {β : Type} {key : String} {value : β} {l : List (String × β)}
    {entry : String × β} (h : entry ∈ setItem key value l) : entry = (key, value) ∨ entry ∈ l := by
  induction l with
  | nil => exact .inl (List.mem_singleton.mp h)
  | cons first l ih =>
    obtain ⟨k, v⟩ := first
    rw [setItem] at h
    split_ifs at h with hk
    · rcases List.mem_cons.mp h with rfl | h
      · exact .inl rfl
      · exact .inr (List.mem_cons_of_mem _ h)
    · rcases List.mem_cons.mp h with rfl | h
      · exact .inr List.mem_cons_self
      · exact (ih h).imp_right (List.mem_cons_of_mem _)

/-- Each column is filed once, under its name. -/
structure WellNamed (columns : ColumnsByName) : Prop where
  nodup : (columns.map Prod.fst).Nodup
  name : ∀ entry ∈ columns, entry.2.lookup "name" = some (.str entry.1) ∧ entry.1 ≠ ""

theorem WellNamed.setItem {columns : ColumnsByName} {name : String} {column : SchemaColumn}
    (h : WellNamed columns) (hname : column.lookup "name" = some (.str name)) (hne : name ≠ "") :
    WellNamed (setItem name column columns) := by
  refine ⟨?_, fun entry hentry => ?_⟩
  · by_cases hmem : name ∈ columns.map Prod.fst
    · rw [map_fst_setItem hmem]
      exact h.nodup
    · rw [setItem_of_not_mem hmem, List.map_append, List.nodup_append]
      refine ⟨h.nodup, by simp, ?_⟩
      rintro a ha b hb rfl
      obtain rfl : a = name := List.mem_singleton.mp hb
      exact hmem ha
  · rcases mem_setItem hentry with rfl | hentry
    · exact ⟨hname, hne⟩
    · exact h.name entry hentry

theorem columnName_eq_ok {column : SchemaColumn} {index : ℕ} {name : String}
    (h : columnName column index = .ok name) :
    column.lookup "name" = some (.str name) ∧ name ≠ "" := by
  rw [columnName] at h
  split at h
  · rename_i name' hname
    obtain ⟨u, hreject, hpure⟩ := bind_eq_ok_iff.mp h
    obtain rfl := Except.ok.inj hpure
    exact ⟨hname, rejectIf_eq_ok_iff.mp hreject⟩
  · simp at h

theorem addColumn_eq_ok {columns columns' : ColumnsByName} {entry : Json × ℕ}
    (h : addColumn columns entry = .ok columns') :
    ∃ name column, column.lookup "name" = some (.str name) ∧ name ≠ "" ∧
      columns' = setItem name column columns := by
  obtain ⟨column, hcolumn, h⟩ := bind_eq_ok_iff.mp h
  obtain ⟨name, hname, h⟩ := bind_eq_ok_iff.mp h
  obtain ⟨hlookup, hne⟩ := columnName_eq_ok hname
  exact ⟨name, column, hlookup, hne, (Except.ok.inj h).symm⟩

theorem wellNamed_of_foldlM {entries : List (Json × ℕ)} {columns columns' : ColumnsByName}
    (hcolumns : WellNamed columns) (h : entries.foldlM addColumn columns = .ok columns') :
    WellNamed columns' := by
  induction entries generalizing columns with
  | nil =>
    obtain rfl := Except.ok.inj h
    exact hcolumns
  | cons entry entries ih =>
    rw [List.foldlM_cons] at h
    obtain ⟨next, hadd, h⟩ := bind_eq_ok_iff.mp h
    obtain ⟨name, column, hname, hne, rfl⟩ := addColumn_eq_ok hadd
    exact ih (hcolumns.setItem hname hne) h

theorem schemaColumnsByName_eq_ok {schema : Mapping} {columns : ColumnsByName}
    (h : schemaColumnsByName schema = .ok columns) : WellNamed columns := by
  rw [schemaColumnsByName] at h
  split at h
  · exact wellNamed_of_foldlM ⟨by simp, by simp⟩ h
  · simp at h

/-- A list of columns that are well named is read back as it is. -/
theorem foldlM_addColumn_map_obj {columns seen : ColumnsByName} {k : ℕ}
    (h : WellNamed (seen ++ columns)) :
    ((columns.map fun entry => Json.obj entry.2).zipIdx k).foldlM addColumn seen =
      .ok (seen ++ columns) := by
  induction columns generalizing seen k with
  | nil => simp [pure, Except.pure]
  | cons entry columns ih =>
    obtain ⟨name, column⟩ := entry
    obtain ⟨hname, hne⟩ := h.name (name, column) (by simp)
    have hfresh : name ∉ seen.map Prod.fst := by
      intro hmem
      have hnodup := h.nodup
      rw [List.map_append, List.nodup_append] at hnodup
      exact hnodup.2.2 name hmem name (by simp) rfl
    have hadd : addColumn seen (Json.obj column, k) = .ok (seen ++ [(name, column)]) := by
      rw [← setItem_of_not_mem hfresh]
      simp [addColumn, schemaColumn, columnName, hname, rejectIf, hne, bind, Except.bind, pure,
        Except.pure]
    rw [List.map_cons, List.zipIdx_cons, List.foldlM_cons, hadd]
    have happend : seen ++ (name, column) :: columns = (seen ++ [(name, column)]) ++ columns := by
      rw [List.append_assoc, List.singleton_append]
    rw [happend] at h ⊢
    exact ih h

/-! ### Resolved types -/

variable {env : TextForms} {currentSchema nextSchema schema : Mapping} {primaryKey : List String}

theorem lowerAscii_alias : ∀ entry ∈ typeAliases, lowerAscii entry.2 = entry.2 ∧
    entry.2.toList.all (fun c => c.toNat < 128) = true ∧
      (typeAliases.lookup entry.2).getD entry.2 = entry.2 := by
  decide

/-- A logical type is its own logical type. -/
theorem columnType_setItem {column previous : SchemaColumn} :
    columnType env (setItem "type" (.str (columnType env previous)) column) =
      columnType env previous := by
  have hnormal : ∀ type, (typeAliases.lookup (env.lower ((typeAliases.lookup (env.lower type)).getD
      (env.lower type)))).getD (env.lower ((typeAliases.lookup (env.lower type)).getD
        (env.lower type))) = (typeAliases.lookup (env.lower type)).getD (env.lower type) := by
    intro type
    cases halias : typeAliases.lookup (env.lower type) with
    | none => rw [Option.getD_none, env.lower_lower, halias, Option.getD_none]
    | some logical =>
      obtain ⟨hlower, hascii, hlogical⟩ :=
        lowerAscii_alias _ (Dict.mem_of_lookup_eq_some halias)
      rw [Option.getD_some, env.lower_ascii logical hascii, hlower, hlogical]
  rw [columnType, lookup_setItem, if_pos rfl, Option.getD_some]
  exact hnormal _

/-- **A column that had a type is not resolved to `null`.** -/
theorem columnType_resolvedColumn {current : ColumnsByName} {name : String}
    {column previous : SchemaColumn} (hprevious : current.lookup name = some previous)
    (hnull : columnType env (resolvedColumn env current name column) = "null") :
    columnType env previous = "null" := by
  simp only [resolvedColumn, hprevious] at hnull
  split_ifs at hnull with hcase
  · rwa [columnType_setItem] at hnull
  · by_contra hne
    exact hcase ⟨hnull, hne⟩

theorem resolvedColumn_resolvedColumn {current : ColumnsByName} {name : String}
    {column : SchemaColumn} :
    resolvedColumn env current name (resolvedColumn env current name column) =
      resolvedColumn env current name column := by
  cases hprevious : current.lookup name with
  | none => simp only [resolvedColumn, hprevious]
  | some previous =>
    have hcase : ¬ (columnType env (resolvedColumn env current name column) = "null" ∧
        columnType env previous ≠ "null") :=
      fun h => h.2 (columnType_resolvedColumn hprevious h.1)
    rw [resolvedColumn, hprevious]
    exact if_neg hcase

theorem lookup_name_resolvedColumn {current : ColumnsByName} {name : String}
    {column : SchemaColumn} :
    (resolvedColumn env current name column).lookup "name" = column.lookup "name" := by
  rw [resolvedColumn]
  split
  · rfl
  · split_ifs
    · rw [lookup_setItem, if_neg (by decide)]
    · rfl

/-- The columns with their null types resolved. -/
def resolvedColumns (env : TextForms) (current next : ColumnsByName) : ColumnsByName :=
  next.map fun entry => (entry.1, resolvedColumn env current entry.1 entry.2)

theorem WellNamed.resolved {current next : ColumnsByName} (h : WellNamed next) :
    WellNamed (resolvedColumns env current next) := by
  refine ⟨?_, fun entry hentry => ?_⟩
  · rw [resolvedColumns, List.map_map]
    exact h.nodup
  · obtain ⟨entry, hmem, rfl⟩ := List.mem_map.mp hentry
    rw [lookup_name_resolvedColumn]
    exact h.name entry hmem

theorem resolveInferredNullTypes_eq_ok
    (h : resolveInferredNullTypes env currentSchema nextSchema = .ok schema) :
    ∃ current next, schemaColumnsByName currentSchema = .ok current ∧
      schemaColumnsByName nextSchema = .ok next ∧
      schemaColumnsByName schema = .ok (resolvedColumns env current next) ∧
      schemaPrimaryKey env schema = schemaPrimaryKey env nextSchema := by
  obtain ⟨current, hcurrent, h⟩ := bind_eq_ok_iff.mp h
  obtain ⟨next, hnext, h⟩ := bind_eq_ok_iff.mp h
  obtain rfl := Except.ok.inj h
  refine ⟨current, next, hcurrent, hnext, ?_, ?_⟩
  · have hnamed : WellNamed ([] ++ resolvedColumns env current next) :=
      (schemaColumnsByName_eq_ok hnext).resolved
    have hread := foldlM_addColumn_map_obj (k := 0) hnamed
    rw [schemaColumnsByName, lookup_setItem, if_pos rfl]
    rwa [resolvedColumns, List.map_map, ← resolvedColumns] at hread
  · rw [schemaPrimaryKey, lookup_setItem, if_neg (by decide), schemaPrimaryKey]

/-! ### One step -/

/-- The plan from one schema to another has no blocked change. -/
def Unblocked (env : TextForms) (primaryKey : List String) (currentSchema nextSchema : Mapping) :
    Prop :=
  ∃ plan, planSchemaEvolution env currentSchema nextSchema primaryKey = .ok plan ∧
    plan.failure = none

theorem failure_eq_none_iff {plan : SchemaEvolutionPlan} :
    plan.failure = none ↔ ∀ change ∈ plan.changes, change.status ≠ .blocked := by
  rw [SchemaEvolutionPlan.failure, SchemaEvolutionPlan.blockingChanges]
  split_ifs with h
  · refine iff_of_true rfl fun change hmem hblocked => ?_
    exact absurd hblocked (by simpa using List.filter_eq_nil_iff.mp h change hmem)
  · refine iff_of_false (by simp) fun hall => h ?_
    exact List.filter_eq_nil_iff.mpr fun change hmem => by simpa using hall change hmem

theorem mem_sortedColumns {columns : ColumnsByName} {name : String} {column : SchemaColumn} :
    (name, column) ∈ sortedColumns columns ↔ columns.lookup name = some column := by
  rw [sortedColumns, Dict.mem_entries_iff, Dict.get?_ofList]

/-- What a plan without a blocked change says of the columns. -/
structure Evolves (env : TextForms) (current next : ColumnsByName) : Prop where
  present : ∀ name column, current.lookup name = some column → (next.lookup name).isSome
  types : ∀ name column column', current.lookup name = some column →
    next.lookup name = some column' →
      columnType env column = columnType env column' ∨ columnType env column = "null" ∨
        columnType env column' = "null" ∨
          isTypeWidening (columnType env column) (columnType env column') = true
  nullable : ∀ name column column', current.lookup name = some column →
    next.lookup name = some column' → nullable column = true → nullable column' = true

theorem unblocked_eq_ok (h : Unblocked env primaryKey currentSchema nextSchema) :
    ∃ current next, schemaColumnsByName currentSchema = .ok current ∧
      schemaColumnsByName nextSchema = .ok next ∧ Evolves env current next ∧
        schemaPrimaryKey env nextSchema = schemaPrimaryKey env currentSchema := by
  obtain ⟨plan, hplan, hfailure⟩ := h
  obtain ⟨current, hcurrent, hplan⟩ := bind_eq_ok_iff.mp hplan
  obtain ⟨next, hnext, hplan⟩ := bind_eq_ok_iff.mp hplan
  obtain rfl := Except.ok.inj hplan
  have hall := failure_eq_none_iff.mp hfailure
  simp only [List.mem_append] at hall
  have hchanged : ∀ name column column' change, current.lookup name = some column →
      next.lookup name = some column' →
        change ∈ columnTypeChanges env name column column' ++
          columnNullabilityChanges env name column column' → change.status ≠ .blocked := by
    intro name column column' change hcolumn hcolumn' hmem
    refine hall change (.inl (.inr ?_))
    refine List.mem_flatMap.mpr ⟨(name, column), mem_sortedColumns.mpr hcolumn, ?_⟩
    simp only [hcolumn']
    exact List.mem_append_left _ hmem
  refine ⟨current, next, hcurrent, hnext, ⟨?_, ?_, ?_⟩, ?_⟩
  · intro name column hcolumn
    by_contra hnone
    rw [Option.not_isSome_iff_eq_none] at hnone
    refine hall _ (.inl (.inl (.inl (List.mem_map_of_mem (List.mem_filter.mpr
      ⟨mem_sortedColumns.mpr hcolumn, ?_⟩))))) rfl
    rw [hnone]
    rfl
  · intro name column column' hcolumn hcolumn'
    by_contra hnot
    obtain ⟨hne, hnull, hnull', hwidening⟩ := by simpa only [not_or] using hnot
    have hblocked : ∃ change ∈ columnTypeChanges env name column column', change.status = .blocked := by
      rw [columnTypeChanges, if_neg hne, if_neg hnull, if_neg hnull', if_neg hwidening]
      exact ⟨_, List.mem_singleton_self _, rfl⟩
    obtain ⟨change, hmem, hblocked⟩ := hblocked
    exact hchanged name column column' change hcolumn hcolumn' (List.mem_append_left _ hmem) hblocked
  · intro name column column' hcolumn hcolumn' hnullable
    by_contra hnot
    rw [Bool.not_eq_true] at hnot
    have hblocked : ∃ change ∈ columnNullabilityChanges env name column column',
        change.status = .blocked := by
      rw [columnNullabilityChanges, if_pos ⟨hnullable, hnot⟩]
      exact ⟨_, List.mem_singleton_self _, rfl⟩
    obtain ⟨change, hmem, hblocked⟩ := hblocked
    exact hchanged name column column' change hcolumn hcolumn' (List.mem_append_right _ hmem) hblocked
  · by_contra hne
    have hblocked : ∃ change ∈ primaryKeyChanges env currentSchema nextSchema next primaryKey,
        change.status = .blocked := by
      rw [primaryKeyChanges, if_neg (Ne.symm hne)]
      exact ⟨_, List.mem_append_right _ (List.mem_singleton_self _), rfl⟩
    obtain ⟨change, hmem, hblocked⟩ := hblocked
    exact hall change (.inr hmem) hblocked

/-! ### Chains -/

/-- A type is reached by widening only, or from `null`. -/
def TypeReaches (type type' : String) : Prop :=
  Relation.ReflTransGen (fun a b => isTypeWidening a b = true) type type' ∨ type = "null"

/-- No column is lost, tightened or given another type than by widening, and the primary key is the
same. -/
structure SoundEvolution (env : TextForms) (first last : Mapping) : Prop where
  columns : ∀ firstColumns, schemaColumnsByName first = .ok firstColumns →
    ∃ lastColumns, schemaColumnsByName last = .ok lastColumns ∧
      ∀ name column, firstColumns.lookup name = some column →
        ∃ column', lastColumns.lookup name = some column' ∧
          TypeReaches (columnType env column) (columnType env column') ∧
          (nullable column = true → nullable column' = true)
  primaryKey : schemaPrimaryKey env last = schemaPrimaryKey env first

theorem TypeReaches.eq_or_isTypeWidening {type type' : String} (h : TypeReaches type type') :
    type = type' ∨ type = "null" ∨ ∃ middle, isTypeWidening middle type' = true := by
  rcases h with h | hnull
  · rcases Relation.ReflTransGen.cases_tail h with heq | ⟨middle, -, hwidening⟩
    · exact .inl heq.symm
    · exact .inr (.inr ⟨middle, hwidening⟩)
  · exact .inr (.inl hnull)

theorem TypeReaches.refl (type : String) : TypeReaches type type := .inl .refl

/-- A type without a rank is not widened to. -/
theorem not_isTypeWidening {type type' : String} (h : numericWideningRank.lookup type' = none) :
    isTypeWidening type type' ≠ true := by
  rw [isTypeWidening, h]
  split <;> simp_all

/-- A type that is not `null` is not widened to it. -/
theorem TypeReaches.trans {a b c : String} (h : TypeReaches a b) (h' : TypeReaches b c) :
    TypeReaches a c := by
  rcases h with h | hnull
  · rcases h' with h' | hnull
    · exact .inl (h.trans h')
    · subst hnull
      rcases TypeReaches.eq_or_isTypeWidening (.inl h) with rfl | hnull | ⟨middle, hwidening⟩
      · exact .inr rfl
      · exact .inr hnull
      · exact absurd hwidening (not_isTypeWidening (by decide))
  · exact .inr hnull

theorem SoundEvolution.refl : SoundEvolution env schema schema :=
  ⟨fun columns hcolumns => ⟨columns, hcolumns, fun _ column hcolumn =>
    ⟨column, hcolumn, .refl _, id⟩⟩, rfl⟩

theorem SoundEvolution.trans {first middle last : Mapping} (h : SoundEvolution env first middle)
    (h' : SoundEvolution env middle last) : SoundEvolution env first last := by
  refine ⟨fun firstColumns hfirst => ?_, h'.primaryKey.trans h.primaryKey⟩
  obtain ⟨middleColumns, hmiddle, hcolumns⟩ := h.columns firstColumns hfirst
  obtain ⟨lastColumns, hlast, hcolumns'⟩ := h'.columns middleColumns hmiddle
  refine ⟨lastColumns, hlast, fun name column hcolumn => ?_⟩
  obtain ⟨column', hcolumn', htype, hnullable⟩ := hcolumns name column hcolumn
  obtain ⟨column'', hcolumn'', htype', hnullable'⟩ := hcolumns' name column' hcolumn'
  exact ⟨column'', hcolumn'', htype.trans htype', hnullable' ∘ hnullable⟩

/-- A schema is stored for a candidate, on top of the schema before it. -/
def Commits (env : TextForms) (primaryKey : List String) (currentSchema schema : Mapping) : Prop :=
  ∃ candidate, validateCandidate env currentSchema candidate primaryKey = .ok (schema, none)

theorem lookup_resolvedColumns {current next : ColumnsByName} {name : String} :
    (resolvedColumns env current next).lookup name =
      (next.lookup name).map (resolvedColumn env current name) := by
  induction next with
  | nil => rfl
  | cons entry next ih =>
    rw [resolvedColumns] at ih ⊢
    rw [List.map_cons, Dict.lookup_cons_ite, Dict.lookup_cons_ite, ih]
    split_ifs with h
    · rw [h, Option.map_some]
    · rfl

/-- **What is stored on top of a schema is a sound evolution of it.** -/
theorem soundEvolution_of_commit (h : Commits env primaryKey currentSchema schema) :
    SoundEvolution env currentSchema schema := by
  obtain ⟨candidate, h⟩ := h
  obtain ⟨stored, hstored, h⟩ := bind_eq_ok_iff.mp h
  obtain ⟨resolved, hresolved, h⟩ := bind_eq_ok_iff.mp h
  obtain ⟨plan, hplan, h⟩ := bind_eq_ok_iff.mp h
  obtain ⟨rfl, hfailure⟩ := Prod.mk.inj (Except.ok.inj h)
  obtain ⟨current, next, hcurrent, -, hcolumns, -⟩ := resolveInferredNullTypes_eq_ok hstored
  obtain ⟨current', next', hcurrent', hnext', hcolumns', hkey⟩ :=
    resolveInferredNullTypes_eq_ok hresolved
  obtain ⟨current'', next'', hcurrent'', hnext'', hevolves, hkey'⟩ :=
    unblocked_eq_ok ⟨plan, hplan, hfailure⟩
  obtain rfl := Except.ok.inj (hcurrent.symm.trans hcurrent')
  obtain rfl := Except.ok.inj (hcurrent.symm.trans hcurrent'')
  obtain rfl := Except.ok.inj (hcolumns.symm.trans hnext')
  obtain rfl := Except.ok.inj (hcolumns'.symm.trans hnext'')
  -- to resolve the columns once more changes nothing
  have hsame : ∀ name, (resolvedColumns env current (resolvedColumns env current next)).lookup name =
      (resolvedColumns env current next).lookup name := by
    intro name
    rw [lookup_resolvedColumns, lookup_resolvedColumns, Option.map_map]
    exact congrArg (Option.map · _) (funext fun _ => resolvedColumn_resolvedColumn)
  refine ⟨fun columns hfirst => ⟨_, hcolumns, fun name column hcolumn => ?_⟩,
    hkey.symm.trans hkey'⟩
  obtain rfl := Except.ok.inj (hcurrent.symm.trans hfirst)
  obtain ⟨column', hcolumn'⟩ := Option.isSome_iff_exists.mp (hevolves.present name column hcolumn)
  refine ⟨column', (hsame name).symm.trans hcolumn', ?_,
    hevolves.nullable name column column' hcolumn hcolumn'⟩
  rcases hevolves.types name column column' hcolumn hcolumn' with heq | hnull | hnull' | hwidening
  · rw [heq]
    exact .refl _
  · exact .inr hnull
  · refine .inr ?_
    rw [lookup_resolvedColumns, Option.map_eq_some_iff] at hcolumn'
    obtain ⟨candidateColumn, -, rfl⟩ := hcolumn'
    exact columnType_resolvedColumn hcolumn hnull'
  · exact .inl (.single hwidening)

/-- **Of schemas that are stored one after the other, the last is a sound evolution of the
first.** -/
theorem soundEvolution_of_commits {first last : Mapping}
    (h : Relation.ReflTransGen (Commits env primaryKey) first last) :
    SoundEvolution env first last := by
  induction h with
  | refl => exact .refl
  | tail _ hcommit ih => exact ih.trans (soundEvolution_of_commit hcommit)

/-! ### Steps that are planned only -/

section Planned

/-- A text form in which only ASCII is lowered. -/
def asciiForms : TextForms where
  repr _ := ""
  digest _ := ""
  lower := lowerAscii
  lower_ascii _ _ := rfl
  lower_lower := lowerAscii_lowerAscii

def amountSchema (type : String) : Mapping :=
  [("columns", .arr
      [.obj [("name", .str "order_id"), ("type", .str "string"), ("nullable", .bool false)],
        .obj [("name", .str "amount"), ("type", .str type)]]),
    ("primary_key", .arr [.str "order_id"])]

/-- **Planned on its own, a step to `null` and a step from it lead from one type to any other.** -/
theorem not_sound_of_planned :
    Unblocked asciiForms ["order_id"] (amountSchema "integer") (amountSchema "null") ∧
      Unblocked asciiForms ["order_id"] (amountSchema "null") (amountSchema "string") ∧
      ¬ SoundEvolution asciiForms (amountSchema "integer") (amountSchema "string") := by
  refine ⟨⟨_, rfl, rfl⟩, ⟨_, rfl, rfl⟩, fun h => ?_⟩
  obtain ⟨lastColumns, hlast, hcolumns⟩ := h.columns _ rfl
  obtain rfl := Except.ok.inj hlast
  obtain ⟨column', hcolumn', htype, -⟩ := hcolumns "amount" _ rfl
  obtain rfl := Option.some.inj hcolumn'
  rcases htype.eq_or_isTypeWidening with heq | hnull | ⟨middle, hwidening⟩
  · exact absurd heq (by decide)
  · exact absurd hnull (by decide)
  · exact absurd hwidening (not_isTypeWidening (by decide))

theorem soundEvolution_widened :
    SoundEvolution asciiForms (amountSchema "integer") (amountSchema "long") := by
  have hnull : Commits asciiForms ["order_id"] (amountSchema "integer") (amountSchema "integer") :=
    ⟨amountSchema "null", rfl⟩
  have hwidened : Commits asciiForms ["order_id"] (amountSchema "integer") (amountSchema "long") :=
    ⟨amountSchema "long", rfl⟩
  exact soundEvolution_of_commits ((Relation.ReflTransGen.single hnull).tail hwidened)

end Planned

end FoundryLite.Dataset
