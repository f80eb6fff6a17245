import FoundryLite.Ontology.Migration

/-!
# What an unblocked migration preserves

A plan without a blocked change promises the consumers of the active ontology that everything they
use is still there. `OntologyPreserved` spells the promise out, resource kind by resource kind,
over the candidate document itself rather than over the planner's indexes: every object type with
its primary key, its properties and their types; every interface it implements; every link type
with its endpoints, cardinality and backing; every action type with its target and parameters, and
no parameter that became required; every function type, and every interface with its properties.

Two things are *not* promised. A function may change its definition, which is only a warning. And
the value types of the properties of an interface are not looked at.

## Main results

* `ontologyPreserved_of_unblocked`: a plan without a blocked change keeps the promise.
* `function_definition_change_not_blocked`: a changed function definition is not blocked.
-/

namespace FoundryLite.Ontology

open Except (bind_eq_ok_iff pure_eq_ok_iff)

/-! ### The promise -/

/-- A section of a document declares an entry under a name. -/
def Declares (definition : Mapping) (section_ apiName : String) (entry : Mapping) : Prop :=
  ∃ rows, mappingSequence definition section_ = .ok rows ∧ entry ∈ rows ∧
    requiredStr entry "apiName" = .ok apiName

structure ObjectPreserved (env : Serialiser) (current : ObjectTypeRow)
    (currentProperties : List PropertyTypeRow) (candidate : Mapping) : Prop where
  primaryKey : requiredStr candidate "primaryKey" = .ok current.primaryKeyProperty
  properties : ∀ prop ∈ currentProperties, ∃ entry,
    Declares candidate "properties" prop.apiName entry ∧
      requiredStr entry "type" = .ok prop.dataType
  implementing : ∃ config names candidateNames, asMapping current.config = .ok config ∧
    stringItems env (config.lookup "implements") = .ok names ∧
    stringItems env (candidate.lookup "implements") = .ok candidateNames ∧
    ∀ name ∈ names, name ∈ candidateNames

structure LinkPreserved (current : LinkTypeRow) (candidate : Mapping) : Prop where
  source : requiredStr candidate "from" = .ok current.fromApiName
  target : requiredStr candidate "to" = .ok current.toApiName
  cardinality : optionalStr candidate "cardinality" (some "many_to_one") =
    .ok (some current.cardinality)
  backing : ∃ backing candidateBacking, asMapping current.backing = .ok backing ∧
    linkTypeBacking candidate = .ok candidateBacking ∧
    Json.norm .text (.obj backing) = Json.norm .text (.obj candidateBacking)

structure ActionPreserved (current : ActionTypeRow) (candidate : Mapping) : Prop where
  target : requiredStr candidate "target" = .ok current.targetApiName
  parameters : ∃ currentRows, currentActionParameters current = .ok currentRows ∧
    (∀ parameter ∈ currentRows, ∃ apiName type entry,
      requiredStr parameter "apiName" = .ok apiName ∧ requiredStr parameter "type" = .ok type ∧
      Declares candidate "parameters" apiName entry ∧ requiredStr entry "type" = .ok type ∧
      (parameterRequired entry → parameterRequired parameter)) ∧
    ∀ apiName entry, Declares candidate "parameters" apiName entry → parameterRequired entry →
      ∃ parameter ∈ currentRows, requiredStr parameter "apiName" = .ok apiName

/-- Every property of the interface is still declared. -/
def InterfacePreserved (current : InterfaceTypeRow) (candidate : Mapping) : Prop :=
  ∃ names, interfaceRowPropertyNames current = .ok names ∧
    ∀ name ∈ names, ∃ entry, Declares candidate "properties" name entry

/-- **What the consumers of the active ontology keep.** -/
structure OntologyPreserved (env : Serialiser) (snapshot : OntologySnapshot)
    (definition : Mapping) : Prop where
  objects : ∀ apiName current, snapshot.currentObjects.entries.lookup apiName = some current →
    ∃ candidate, Declares definition "objectTypes" apiName candidate ∧
      ObjectPreserved env current (snapshot.currentProperties apiName) candidate
  links : ∀ current ∈ snapshot.currentLinks, ∃ candidate,
    Declares definition "linkTypes" current.apiName candidate ∧ LinkPreserved current candidate
  actions : ∀ current ∈ snapshot.currentActions, ∃ candidate,
    Declares definition "actionTypes" current.apiName candidate ∧
      ActionPreserved current candidate
  functions : ∀ current ∈ snapshot.currentFunctions, ∃ candidate,
    Declares definition "functionTypes" current.apiName candidate
  interfaces : ∀ current ∈ snapshot.currentInterfaces, ∃ candidate,
    Declares definition "interfaces" current.apiName candidate ∧
      InterfacePreserved current candidate

/-- The text of the backing of an active link type is no other mapping's digest. -/
def LinkDigestsDistinct (env : Serialiser) (snapshot : OntologySnapshot) : Prop :=
  ∀ current ∈ snapshot.currentLinks, ∀ backing : Mapping, current.backing = .obj backing →
    ∀ other : Mapping,
      env.jsonHash [("value", .obj backing)] = env.jsonHash [("value", .obj other)] →
      Json.norm .text (.obj backing) = Json.norm .text (.obj other)

/-! ### Changes without a blocked one -/

def Unblocked (changes : List OntologyMigrationChange) : Prop :=
  ∀ change ∈ changes, change.status ≠ .blocked

theorem unblocked_of_blockingChanges {plan : OntologyMigrationPlan}
    (h : plan.blockingChanges = []) : Unblocked plan.changes := by
  intro change hchange hstatus
  have hmem : change ∈ plan.blockingChanges :=
    List.mem_filter.mpr ⟨hchange, by simpa using hstatus⟩
  simp [h] at hmem

@[simp]
theorem unblocked_append {xs ys : List OntologyMigrationChange} :
    Unblocked (xs ++ ys) ↔ Unblocked xs ∧ Unblocked ys := by
  simp only [Unblocked, List.mem_append, or_imp, forall_and]

theorem Unblocked.of_flatten {parts : List (List OntologyMigrationChange)}
    (h : Unblocked parts.flatten) {part : List OntologyMigrationChange} (hpart : part ∈ parts) :
    Unblocked part :=
  fun change hchange => h change (List.mem_flatten.mpr ⟨part, hpart, hchange⟩)

theorem not_unblocked_singleton {change : OntologyMigrationChange} (h : change.status = .blocked) :
    ¬Unblocked [change] :=
  fun hu => hu change List.mem_cons_self h

/-- A change that would be blocked is not made. -/
theorem not_of_unblocked_ite {p : Prop} [Decidable p] {change : OntologyMigrationChange}
    (hstatus : change.status = .blocked) (h : Unblocked (if p then [change] else [])) : ¬p := by
  intro hp
  rw [if_pos hp] at h
  exact not_unblocked_singleton hstatus h

/-- A family of changes that would be blocked is empty. -/
theorem eq_nil_of_unblocked_map {α : Type} {f : α → OntologyMigrationChange} {xs : List α}
    (hstatus : ∀ x, (f x).status = .blocked) (h : Unblocked (xs.map f)) : xs = [] := by
  cases xs with
  | nil => rfl
  | cons x xs => exact absurd (hstatus x) (h (f x) (by simp))

/-! ### Indexes and documents -/

theorem declares_of_lookup {definition : Mapping} {section_ message detailKey apiName : String}
    {byApi : List (String × Mapping)} {entry : Mapping}
    (h : definitionsByApi definition section_ message detailKey = .ok byApi)
    (hentry : byApi.lookup apiName = some entry) : Declares definition section_ apiName entry := by
  simp only [definitionsByApi, yamlRowsByApi, bind_eq_ok_iff] at h
  obtain ⟨rows, hrows, h⟩ := h
  obtain ⟨hmem, hname⟩ := mem_of_lookup_rowsByKey (by simp) h hentry
  exact ⟨rows, hrows, hmem, hname⟩

theorem nodup_definitionsByApi {definition : Mapping} {section_ message detailKey : String}
    {byApi : List (String × Mapping)}
    (h : definitionsByApi definition section_ message detailKey = .ok byApi) :
    (byApi.map Prod.fst).Nodup := by
  simp only [definitionsByApi, yamlRowsByApi, bind_eq_ok_iff] at h
  obtain ⟨rows, -, h⟩ := h
  exact nodup_rowsByKey (by simp) h

theorem declares_of_mem {definition : Mapping} {section_ message detailKey apiName : String}
    {byApi : List (String × Mapping)} {entry : Mapping}
    (h : definitionsByApi definition section_ message detailKey = .ok byApi)
    (hentry : (apiName, entry) ∈ byApi) : Declares definition section_ apiName entry :=
  declares_of_lookup h (Dict.lookup_eq_some_of_mem (nodup_definitionsByApi h) hentry)

theorem lookup_rowsByApi {α : Type} {apiName : α → String} {message : String} {rows : List α}
    {byApi : List (String × α)} (h : rowsByApi apiName message rows = .ok byApi) {row : α}
    (hrow : row ∈ rows) : byApi.lookup (apiName row) = some row := by
  obtain ⟨name, hname, hlookup⟩ := exists_lookup_rowsByKey (by simp) h hrow
  obtain rfl : apiName row = name := by simpa using hname
  exact hlookup

/-- **What happens to one current row.** If no change of a section is blocked, then a current row
has a candidate of its name, and the changes of the two are not blocked either. -/
theorem unblocked_of_section {α : Type} {current : List (String × α)}
    {candidates : List (String × Mapping)} (removed : String → OntologyMigrationChange)
    (hremoved : ∀ apiName, (removed apiName).status = .blocked)
    (single : String → α → Mapping → Checked (List OntologyMigrationChange))
    {parts : List (List OntologyMigrationChange)}
    (h : current.mapM (fun (apiName, row) =>
      match candidates.lookup apiName with
      | none => pure [removed apiName]
      | some candidate => single apiName row candidate) = .ok parts)
    (hparts : Unblocked parts.flatten) {apiName : String} {row : α}
    (hrow : (apiName, row) ∈ current) :
    ∃ candidate changes, candidates.lookup apiName = some candidate ∧
      single apiName row candidate = .ok changes ∧ Unblocked changes := by
  obtain ⟨part, hpart, heq⟩ := List.exists_mem_of_mapM_eq_ok h hrow
  have hun := hparts.of_flatten hpart
  cases hc : candidates.lookup apiName with
  | none =>
    obtain rfl : [removed apiName] = part := by simpa [hc] using heq
    exact absurd hun (not_unblocked_singleton (hremoved apiName))
  | some candidate => exact ⟨candidate, part, rfl, by simpa [hc] using heq, hun⟩

/-! ### Links and actions -/

section

variable {env : Serialiser} {apiName : String} {candidate : Mapping}
  {changes : List OntologyMigrationChange}

theorem linkPreserved_of_unblocked {current : LinkTypeRow}
    (h : singleLinkMigrationChanges env apiName current candidate = .ok changes)
    (hun : Unblocked changes)
    (hdigest : ∀ backing : Mapping, current.backing = .obj backing → ∀ other : Mapping,
      env.jsonHash [("value", .obj backing)] = env.jsonHash [("value", .obj other)] →
      Json.norm .text (.obj backing) = Json.norm .text (.obj other)) :
    LinkPreserved current candidate := by
  simp only [singleLinkMigrationChanges, bind_eq_ok_iff, pure_eq_ok_iff] at h
  obtain ⟨endpoints, hends, cardinality, hcard, backing, hback, candidateBacking, hcback, rfl⟩ := h
  simp only [unblocked_append] at hun
  obtain ⟨⟨hends', hcard'⟩, hback'⟩ := hun
  have hnone : endpoints = none := by
    simpa using eq_nil_of_unblocked_map (fun _ => rfl) hends'
  subst hnone
  obtain ⟨source, hsource, hends⟩ := bind_eq_ok_iff.mp hends
  split_ifs at hends with hne
  · simp at hends
  · obtain ⟨target, htarget, hends⟩ := bind_eq_ok_iff.mp hends
    have hsame : source = current.fromApiName := not_not.mp hne
    have hsame' : target = current.toApiName := by simpa using hends
    have hkept : cardinality = some current.cardinality :=
      not_not.mp (not_of_unblocked_ite rfl hcard')
    have hobj : current.backing = .obj backing := by
      cases hb : current.backing <;> simp_all [asMapping]
    refine ⟨hsame ▸ hsource, hsame' ▸ htarget, hkept ▸ hcard, backing, candidateBacking, hback,
      hcback, hdigest backing hobj candidateBacking ?_⟩
    simpa [mappingChanged] using not_of_unblocked_ite rfl hback'

theorem parameterDefinitions_lookup {rows : List Mapping} {byApi : List (String × Mapping)}
    (h : parameterDefinitionsByApi rows = .ok byApi) {row : Mapping} (hrow : row ∈ rows) :
    ∃ name, requiredStr row "apiName" = .ok name ∧ byApi.lookup name = some row :=
  exists_lookup_rowsByKey (by simp) h hrow

theorem mem_of_parameterDefinitions_lookup {rows : List Mapping}
    {byApi : List (String × Mapping)} (h : parameterDefinitionsByApi rows = .ok byApi)
    {name : String} {row : Mapping} (hrow : byApi.lookup name = some row) :
    row ∈ rows ∧ requiredStr row "apiName" = .ok name :=
  mem_of_lookup_rowsByKey (by simp) h hrow

theorem actionPreserved_of_unblocked {current : ActionTypeRow}
    (h : singleActionMigrationChanges apiName current candidate = .ok changes)
    (hun : Unblocked changes) : ActionPreserved current candidate := by
  simp only [singleActionMigrationChanges, parameterMigrationChanges,
    removedOrChangedParameterChanges, bind_eq_ok_iff, pure_eq_ok_iff] at h
  obtain ⟨target, htarget, _, ⟨currentRows, hcurrent, currentParams, hcparams, candidateRows,
    hcandidate, candidateParams, hparams, _, ⟨parts, hparts, rfl⟩, rfl⟩, rfl⟩ := h
  simp only [unblocked_append] at hun
  obtain ⟨htarget', hchanged, hadded⟩ := hun
  have hkept : target = current.targetApiName := not_not.mp (not_of_unblocked_ite rfl htarget')
  refine ⟨hkept ▸ htarget, currentRows, hcurrent, fun parameter hmem => ?_, ?_⟩
  · obtain ⟨name, hname, hlookup⟩ := parameterDefinitions_lookup hcparams hmem
    obtain ⟨entry, single, hentry, hsingle, hunsingle⟩ :=
      unblocked_of_section (blockedParameterRemoved apiName) (fun _ => rfl)
        (changedParameterChanges apiName) hparts hchanged (Dict.mem_canon_iff.mpr hlookup)
    simp only [changedParameterChanges, bind_eq_ok_iff, pure_eq_ok_iff] at hsingle
    obtain ⟨next, hnext, previous, hprevious, rfl⟩ := hsingle
    simp only [unblocked_append] at hunsingle
    obtain ⟨⟨htype, hrequired⟩, -⟩ := hunsingle
    have hsame : next = previous := not_not.mp (not_of_unblocked_ite rfl htype)
    have hnotnew := not_of_unblocked_ite rfl hrequired
    obtain ⟨hmem', hname'⟩ := mem_of_parameterDefinitions_lookup hparams hentry
    refine ⟨name, previous, entry, hname, hprevious, ⟨candidateRows, hcandidate, hmem', hname'⟩,
      hsame ▸ hnext, fun hreq => ?_⟩
    by_contra hold
    exact hnotnew (by simp [hreq, hold])
  · rintro name entry ⟨rows, hrows, hmem, hname⟩ hreq
    obtain rfl : candidateRows = rows := Except.ok.inj (hcandidate.symm.trans hrows)
    obtain ⟨name', hname', hlookup⟩ := parameterDefinitions_lookup hparams hmem
    obtain rfl : name = name' := Except.ok.inj (hname.symm.trans hname')
    by_contra hnew
    have hfresh : currentParams.lookup name = none := by
      refine Option.eq_none_iff_forall_ne_some.mpr fun parameter hp => hnew ?_
      obtain ⟨hpmem, hpname⟩ := mem_of_parameterDefinitions_lookup hcparams hp
      exact ⟨parameter, hpmem, hpname⟩
    refine hadded (blockedRequiredParameterAdded apiName name) ?_ rfl
    exact List.mem_flatMap.mpr ⟨(name, entry), Dict.mem_canon_iff.mpr hlookup,
      by simp [hfresh, hreq]⟩

/-! ### Interfaces -/

theorem interfacePreserved_of_unblocked {current : InterfaceTypeRow}
    (h : singleInterfaceMigrationChanges apiName current candidate = .ok changes)
    (hun : Unblocked changes) : InterfacePreserved current candidate := by
  simp only [singleInterfaceMigrationChanges, bind_eq_ok_iff, pure_eq_ok_iff] at h
  obtain ⟨rows, hrows, candidateNames, hcandidate, names, hnames, rfl⟩ := h
  refine ⟨names, hnames, fun name hname => ?_⟩
  have hkept : name ∈ candidateNames := by
    have hnil := eq_nil_of_unblocked_map (fun _ => rfl) hun
    simpa using List.filter_eq_nil_iff.mp hnil name hname
  obtain ⟨entry, hentry, hapi⟩ := List.exists_mem_of_mem_mapM_eq_ok hcandidate hkept
  exact ⟨entry, rows, hrows, hentry, hapi⟩

theorem implements_of_unblocked {current : ObjectTypeRow}
    (h : singleImplementsMigrationChanges env apiName current candidate = .ok changes)
    (hun : Unblocked changes) : ∃ config names candidateNames,
      asMapping current.config = .ok config ∧
      stringItems env (config.lookup "implements") = .ok names ∧
      stringItems env (candidate.lookup "implements") = .ok candidateNames ∧
      ∀ name ∈ names, name ∈ candidateNames := by
  simp only [singleImplementsMigrationChanges, bind_eq_ok_iff, pure_eq_ok_iff] at h
  obtain ⟨config, hconfig, names, hnames, candidateNames, hcandidate, rfl⟩ := h
  refine ⟨config, names, candidateNames, hconfig, hnames, hcandidate, fun name hname => ?_⟩
  have hnil := eq_nil_of_unblocked_map (fun _ => rfl) (unblocked_append.mp hun).1
  simpa using List.filter_eq_nil_iff.mp hnil name (Dict.mem_sortedSet.mpr hname)

/-! ### Object types -/

theorem lookup_propertyByApi {rows : List PropertyTypeRow} (h : (rows.map (·.apiName)).Nodup)
    {prop : PropertyTypeRow} (hprop : prop ∈ rows) :
    (propertyByApi rows).lookup prop.apiName = some prop := by
  refine Dict.lookup_eq_some_of_mem ?_ ?_
  · rw [propertyByApi, List.map_reverse, List.nodup_reverse, List.map_map]
    exact h
  · exact List.mem_reverse.mpr (List.mem_map.mpr ⟨prop, hprop, rfl⟩)

/-- No candidate property declares to be renamed. -/
theorem propertyRenameSources_eq_nil {candidateProperties : List (String × Mapping)}
    {sources : List String} (h : propertyRenameSources candidateProperties = .ok sources)
    (hnone : ∀ e ∈ candidateProperties, renameSource e.2 = .ok none) : sources = [] := by
  simp only [propertyRenameSources, bind_eq_ok_iff, pure_eq_ok_iff] at h
  obtain ⟨found, hfound, rfl⟩ := h
  refine List.filterMap_eq_nil_iff.mpr fun source hsource => ?_
  obtain ⟨e, he, hes⟩ := List.exists_mem_of_mem_mapM_eq_ok hfound hsource
  exact Except.ok.inj (hes.symm.trans (hnone e he))

theorem properties_of_unblocked {currentProperties : List PropertyTypeRow}
    (hunique : (currentProperties.map (·.apiName)).Nodup) {fields : List String}
    (h : propertyMigrationChanges env apiName currentProperties candidate = .ok (changes, fields))
    (hun : Unblocked changes) : ∀ prop ∈ currentProperties, ∃ entry,
      Declares candidate "properties" prop.apiName entry ∧
        requiredStr entry "type" = .ok prop.dataType := by
  simp only [propertyMigrationChanges, bind_eq_ok_iff, pure_eq_ok_iff,
    Prod.mk.injEq] at h
  obtain ⟨candidateProperties, hcandidate, sources, hsources, parts, hparts, rfl, rfl⟩ := h
  obtain ⟨hremoved, hchanged⟩ := unblocked_append.mp hun
  -- What one candidate property contributes is not blocked.
  have hentry : ∀ name entry, candidateProperties.lookup name = some entry →
      ∃ part, candidatePropertyChanges env apiName name
        ((propertyByApi currentProperties).lookup name) entry = .ok part ∧ Unblocked part := by
    intro name entry hlookup
    obtain ⟨⟨part, extra⟩, hmem, heq⟩ :=
      List.exists_mem_of_mapM_eq_ok hparts (Dict.mem_canon_iff.mpr hlookup)
    simp only [bind_eq_ok_iff, pure_eq_ok_iff] at heq
    obtain ⟨part', hpart, _, -, heq⟩ := heq
    obtain rfl : part' = part := (Prod.mk.inj heq).1
    exact ⟨part', hpart, fun c hc => hchanged c (List.mem_flatMap.mpr ⟨_, hmem, hc⟩)⟩
  have hrename : ∀ e ∈ candidateProperties, renameSource e.2 = .ok none := by
    intro e he
    have hlookup : candidateProperties.lookup e.1 = some e.2 :=
      Dict.lookup_eq_some_of_mem (nodup_definitionsByApi hcandidate) he
    obtain ⟨part, hpart, hunpart⟩ := hentry e.1 e.2 hlookup
    simp only [candidatePropertyChanges, bind_eq_ok_iff] at hpart
    obtain ⟨source, hsource, hpart⟩ := hpart
    have hnil : source = none := by
      have : Unblocked (source.toList.map fun previous =>
          blockedPropertyRename apiName previous e.1) := by
        cases hcur : (propertyByApi currentProperties).lookup e.1 with
        | none =>
          simp only [hcur, pure_eq_ok_iff] at hpart
          exact hpart ▸ hunpart
        | some current =>
          simp only [hcur, bind_eq_ok_iff, pure_eq_ok_iff] at hpart
          obtain ⟨_, -, _, -, _, -, rfl⟩ := hpart
          simp only [unblocked_append] at hunpart
          exact hunpart.1.1.1
      simpa using eq_nil_of_unblocked_map (fun _ => rfl) this
    exact hnil ▸ hsource
  obtain rfl := propertyRenameSources_eq_nil hsources hrename
  intro prop hprop
  have hkept : candidateProperties.lookup prop.apiName ≠ none := by
    have hnil := eq_nil_of_unblocked_map (fun _ => rfl) hremoved
    simpa using List.filter_eq_nil_iff.mp hnil prop hprop
  obtain ⟨entry, hlookup⟩ := Option.ne_none_iff_exists'.mp hkept
  obtain ⟨part, hpart, hunpart⟩ := hentry prop.apiName entry hlookup
  rw [lookup_propertyByApi hunique hprop] at hpart
  simp only [candidatePropertyChanges, bind_eq_ok_iff, pure_eq_ok_iff] at hpart
  obtain ⟨_, -, type, htype, _, -, _, -, rfl⟩ := hpart
  simp only [unblocked_append] at hunpart
  have hsame : type = prop.dataType := not_not.mp (not_of_unblocked_ite rfl hunpart.1.1.2)
  exact ⟨entry, declares_of_lookup hcandidate hlookup, hsame ▸ htype⟩

theorem objectShape_of_unblocked {current : ObjectTypeRow}
    {currentProperties : List PropertyTypeRow}
    (hunique : (currentProperties.map (·.apiName)).Nodup)
    {operation : Option OntologyReindexOperation}
    (h : singleObjectMigrationChanges env apiName current currentProperties candidate =
      .ok (changes, operation)) (hun : Unblocked changes) :
    requiredStr candidate "primaryKey" = .ok current.primaryKeyProperty ∧
      ∀ prop ∈ currentProperties, ∃ entry, Declares candidate "properties" prop.apiName entry ∧
        requiredStr entry "type" = .ok prop.dataType := by
  simp only [singleObjectMigrationChanges, objectShapeChanges, bind_eq_ok_iff,
    pure_eq_ok_iff, Prod.mk.injEq] at h
  obtain ⟨_, ⟨primaryKey, hkey, _, -, _, -, rfl⟩, _, -, _, -, ⟨properties, fields⟩, hproperties,
    _, -, _, -, rfl, rfl⟩ := h
  simp only [unblocked_append] at hun
  obtain ⟨⟨⟨hkey', -⟩, -⟩, hproperties'⟩ := hun
  have hsame : primaryKey = current.primaryKeyProperty :=
    not_not.mp (not_of_unblocked_ite rfl hkey')
  exact ⟨hsame ▸ hkey, properties_of_unblocked hunique hproperties hproperties'⟩

end

/-! ### The promise is kept -/

/-- **Migration soundness.** A plan without a blocked change preserves what the consumers of the
active ontology use. -/
theorem ontologyPreserved_of_unblocked (env : Serialiser) (snapshot : OntologySnapshot)
    (definition : Mapping) (plan : OntologyMigrationPlan)
    (hdigest : LinkDigestsDistinct env snapshot)
    (h : buildOntologyMigrationPlan env snapshot definition = .ok plan)
    (hplan : plan.blockingChanges = []) : OntologyPreserved env snapshot definition := by
  have hun := unblocked_of_blockingChanges hplan
  simp only [buildOntologyMigrationPlan, objectMigrationChanges, interfaceMigrationChanges,
    implementsMigrationChanges, functionMigrationChanges, linkMigrationChanges,
    actionMigrationChanges, bind_eq_ok_iff, pure_eq_ok_iff] at h
  obtain ⟨candidateObjects, hobjs, candidateLinks, hlinks, candidateActions, hactions,
    ⟨objects, reindex⟩, ⟨objectParts, hobjectParts, hobjects⟩, currentInterfaces, hcinterfaces,
    _, ⟨candidateInterfaces, hinterfaces, interfaceParts, hinterfaceParts, rfl⟩,
    _, ⟨implementParts, himplementParts, rfl⟩, currentFunctions, hcfunctions,
    _, ⟨rawFunctions, hfunctions, candidateFunctions, hnormalized, functionParts, hfunctionParts,
      rfl⟩, currentLinks, hclinks, _, ⟨linkParts, hlinkParts, rfl⟩, currentActions, hcactions,
    _, ⟨actionParts, hactionParts, rfl⟩, rfl⟩ := h
  obtain ⟨rfl, -⟩ := Prod.mk.inj hobjects
  simp only [unblocked_append] at hun
  obtain ⟨⟨⟨⟨⟨hunobjects, huninterfaces, -⟩, hunimplements⟩, hunfunctions, -⟩, hunlinks⟩,
    hunactions⟩ := hun
  refine ⟨?_, ?_, ?_, ?_, ?_⟩
  · intro apiName current hcurrent
    have hmem := Dict.mem_of_lookup_eq_some hcurrent
    obtain ⟨⟨part, operation⟩, hpart, heq⟩ := List.exists_mem_of_mapM_eq_ok hobjectParts hmem
    have hunpart : Unblocked part := fun c hc =>
      hunobjects c (List.mem_flatMap.mpr ⟨_, hpart, hc⟩)
    cases hc : candidateObjects.lookup apiName with
    | none =>
      obtain ⟨rfl, -⟩ : [blockedObjectRemoved apiName] = part ∧ none = operation := by
        simpa [hc] using heq
      exact absurd hunpart (not_unblocked_singleton rfl)
    | some candidate =>
      simp only [hc] at heq
      obtain ⟨hkey, hproperties⟩ :=
        objectShape_of_unblocked (snapshot.uniqueProperties apiName) heq hunpart
      obtain ⟨part', hpart', heq'⟩ := List.exists_mem_of_mapM_eq_ok himplementParts hmem
      simp only [hc] at heq'
      exact ⟨candidate, declares_of_lookup hobjs hc, hkey, hproperties,
        implements_of_unblocked heq' (hunimplements.of_flatten hpart')⟩
  · intro current hcurrent
    obtain ⟨candidate, changes, hcandidate, hsingle, hchanges⟩ :=
      unblocked_of_section blockedLinkRemoved (fun _ => rfl) (singleLinkMigrationChanges env)
        hlinkParts hunlinks (Dict.mem_canon_iff.mpr (lookup_rowsByApi hclinks hcurrent))
    exact ⟨candidate, declares_of_lookup hlinks hcandidate,
      linkPreserved_of_unblocked hsingle hchanges (hdigest current hcurrent)⟩
  · intro current hcurrent
    obtain ⟨candidate, changes, hcandidate, hsingle, hchanges⟩ :=
      unblocked_of_section blockedActionRemoved (fun _ => rfl) singleActionMigrationChanges
        hactionParts hunactions (Dict.mem_canon_iff.mpr (lookup_rowsByApi hcactions hcurrent))
    exact ⟨candidate, declares_of_lookup hactions hcandidate,
      actionPreserved_of_unblocked hsingle hchanges⟩
  · intro current hcurrent
    obtain ⟨candidate, changes, hcandidate, -⟩ :=
      unblocked_of_section blockedFunctionRemoved (fun _ => rfl)
        (functionDefinitionChanges env) hfunctionParts hunfunctions
        (Dict.mem_canon_iff.mpr (lookup_rowsByApi hcfunctions hcurrent))
    obtain ⟨⟨name, item⟩, hitem, heq⟩ := List.exists_mem_of_mem_mapM_eq_ok hnormalized
      (Dict.mem_of_lookup_eq_some hcandidate)
    simp only [bind_eq_ok_iff, pure_eq_ok_iff, Prod.mk.injEq] at heq
    obtain ⟨_, -, rfl, -⟩ := heq
    exact ⟨item, declares_of_mem hfunctions hitem⟩
  · intro current hcurrent
    obtain ⟨candidate, changes, hcandidate, hsingle, hchanges⟩ :=
      unblocked_of_section blockedInterfaceRemoved (fun _ => rfl) singleInterfaceMigrationChanges
        hinterfaceParts huninterfaces (Dict.mem_canon_iff.mpr (lookup_rowsByApi hcinterfaces hcurrent))
    exact ⟨candidate, declares_of_lookup hinterfaces hcandidate,
      interfacePreserved_of_unblocked hsingle hchanges⟩

/-! ### A function may change its definition

One ontology with one resource of each kind, and a candidate that differs from it in the source of
its function only. -/

def sampleFunction (source : String) : Mapping :=
  [("apiName", .str "score"), ("displayName", .str "score"), ("version", .str "v1"),
    ("runtime", .str "python"), ("inputs", .arr []),
    ("output", .obj [("type", .str "integer")]),
    ("definition", .obj [("source", .str source), ("entrypoint", .str "compute")]),
    ("timeoutSeconds", .int 60)]

def sampleObjectBacking : Mapping := [("dataset", .str "raw.orders")]

def sampleLinkBacking : Mapping :=
  [("dataset", .str "raw.orders"), ("fromKey", .str "id"), ("toKey", .str "customer")]

def sampleSnapshot : OntologySnapshot where
  sourceOntologyVersionId := some "v1"
  currentObjects := ⟨[("Order", ⟨"id", .obj sampleObjectBacking, .obj []⟩)], by simp⟩
  currentProperties := fun _ => [⟨"id", "string", "dataset", some "id"⟩]
  currentLinks := [⟨"customer", "Order", "Order", "many_to_one", .obj sampleLinkBacking⟩]
  currentActions := [⟨"approve", "Order", .obj [("parameters",
    .arr [.obj [("apiName", .str "note"), ("type", .str "string")]])]⟩]
  currentInterfaces := [⟨"Dated", .obj [("properties", .arr [.obj [("apiName", .str "at")]])]⟩]
  currentFunctions := [⟨"score", .obj (sampleFunction "return 1")⟩]
  uniqueProperties := by simp

def sampleDefinition (source : String) : Mapping :=
  [("objectTypes", .arr [.obj [("apiName", .str "Order"), ("primaryKey", .str "id"),
      ("dataset", .str "raw.orders"), ("properties", .arr [.obj [("apiName", .str "id"),
        ("type", .str "string"), ("column", .str "id")]])]]),
    ("linkTypes", .arr [.obj [("apiName", .str "customer"), ("from", .str "Order"),
      ("to", .str "Order"), ("backing", .obj sampleLinkBacking)]]),
    ("actionTypes", .arr [.obj [("apiName", .str "approve"), ("target", .str "Order"),
      ("parameters", .arr [.obj [("apiName", .str "note"), ("type", .str "string")]])]]),
    ("interfaces", .arr [.obj [("apiName", .str "Dated"),
      ("properties", .arr [.obj [("apiName", .str "at")]])]]),
    ("functionTypes", .arr [.obj (sampleFunction source)])]

/-- A digest that tells the values of the sample apart. -/
def sampleSerialiser : Serialiser where
  repr := fun _ => ""
  digest := fun value =>
    if value = Json.norm .text (.obj [("value", .obj sampleLinkBacking)]) then "1f"
    else if value = Json.norm .text (.obj [("value", .obj sampleObjectBacking)]) then "2e"
    else if value = Json.norm .text (.obj [("value", .obj (sampleFunction "return 1"))]) then "3d"
    else "4c"

theorem sample_plan : buildOntologyMigrationPlan sampleSerialiser sampleSnapshot
    (sampleDefinition "return 2") =
      .ok ⟨some "v1", [warningFunctionDefinitionChanged "score"], []⟩ := by
  rfl

theorem sample_linkDigestsDistinct : LinkDigestsDistinct sampleSerialiser sampleSnapshot := by
  intro current hcurrent backing hbacking other heq
  obtain rfl : current = _ := by simpa [sampleSnapshot] using hcurrent
  obtain rfl : sampleLinkBacking = backing := by simpa using hbacking
  have hdigest : sampleSerialiser.jsonHash [("value", .obj sampleLinkBacking)] = "1f" := rfl
  rw [hdigest] at heq
  have hvalue : Json.norm .text (.obj [("value", .obj other)]) =
      Json.norm .text (.obj [("value", .obj sampleLinkBacking)]) := by
    by_contra hne
    simp only [Serialiser.jsonHash, sampleSerialiser, if_neg hne] at heq
    split_ifs at heq <;> simp at heq
  have := Json.norm_obj_eq_iff.mp hvalue "value"
  exact (Option.some.inj (by simpa using this)).symm

/-- The function is declared under its name with the definition it has. -/
def FunctionUnchanged (current : FunctionTypeRow) (candidate : Mapping) : Prop :=
  ∃ definition normalized, asMapping current.definition = .ok definition ∧
    FunctionTypes.normalizedFunctionDefinition candidate = .ok normalized ∧
    Json.norm .text (.obj definition) = Json.norm .text (.obj normalized)

/-- **A changed function definition is not blocked**: the sample plan has no blocked change, and
its function is not what it was. -/
theorem function_definition_change_not_blocked :
    ∃ plan, buildOntologyMigrationPlan sampleSerialiser sampleSnapshot
        (sampleDefinition "return 2") = .ok plan ∧ plan.blockingChanges = [] ∧
      ∃ current ∈ sampleSnapshot.currentFunctions, ∀ candidate,
        Declares (sampleDefinition "return 2") "functionTypes" current.apiName candidate →
          ¬FunctionUnchanged current candidate := by
  refine ⟨_, sample_plan, rfl, _, List.mem_cons_self, ?_⟩
  rintro candidate ⟨rows, hrows, hmem, -⟩ ⟨definition, normalized, hdefinition, hnormalized, heq⟩
  obtain rfl : [sampleFunction "return 2"] = rows := Except.ok.inj (Eq.trans (by rfl) hrows)
  obtain rfl : candidate = sampleFunction "return 2" := by simpa using hmem
  obtain rfl : sampleFunction "return 1" = definition :=
    Except.ok.inj (Eq.trans (by rfl) hdefinition)
  obtain rfl : sampleFunction "return 2" = normalized :=
    Except.ok.inj (Eq.trans (by rfl) hnormalized)
  exact absurd heq (by decide)

/-- The promise is kept for the sample. -/
theorem sample_ontologyPreserved :
    OntologyPreserved sampleSerialiser sampleSnapshot (sampleDefinition "return 2") :=
  ontologyPreserved_of_unblocked _ _ _ _ sample_linkDigestsDistinct sample_plan rfl

end FoundryLite.Ontology
