import FoundryLite.ObjectStore.MaskedRows

/-!
# What masked values influence

The masked values of the rows of an object type influence no answer about it, so what is left is
where a row comes from. A derived property is a value of the row that was read from the objects
behind a link, and nothing compares the property that it reads with the masks of the caller for the
type of those objects.

## Main results

* `activeRows_blank`: a store without its masked values has the rows without their masked values,
  unless an unmasked derived property reads a masked one.
* `not_hidesMasked_of_readsMasked`: such a property tells two values of the masked one apart.
* `masked_values_hidden_iff`: masked values influence no answer exactly when there is none.
-/

namespace FoundryLite.ObjectQuery

open ObjectStore (Store IndexedStore ObjectTypeId LinkTypeRow ObjectRecord ObjectLink PropertyMap)

variable {κ : Type}

/-! ### Stores without their masked values -/

/-- A record without its masked values, in the layers that its properties are merged from too. The
hash of its source row goes with them. -/
def blankRecord (masks : String → List String) (record : ObjectRecord) : ObjectRecord :=
  let blank := Dict.mapWithKey (blankValue (masks record.objectType.apiName))
  { record with
    properties := blank record.properties, baseProperties := blank record.baseProperties
    editProperties := blank record.editProperties, sourceHash := none }

def blankUpdate (masks : String → List String) : Table.Update ObjectRecord.id ObjectRecord.identity
    where
  apply := blankRecord masks
  pk_apply _ := rfl
  uq_apply _ := rfl

def blankTables (masks : String → List String) (tables : Store) : Store :=
  { tables with objects := tables.objects.modify (fun _ => true) (blankUpdate masks) }

/-- Two stores that differ only in the values of masked properties. -/
structure SameUnmasked (masks : String → List String) (s t : IndexedStore) : Prop where
  objects : (blankTables masks s.tables).objects = (blankTables masks t.tables).objects
  links : s.tables.links = t.tables.links
  indexPointers : s.indexPointers = t.indexPointers

section Blank

variable {sql : SqlEnvironment} {masks : String → List String} {tables : Store}

theorem rows_blankTables : (blankTables masks tables).objects.rows =
    tables.objects.rows.map (blankRecord masks) := by
  rw [blankTables, Table.rows_modify]
  exact List.map_congr_left fun record _ => if_pos rfl

theorem derivedTargets_blank (linkType : String) (record : ObjectRecord) :
    derivedTargets (blankTables masks tables) linkType (blankRecord masks record) =
      (derivedTargets tables linkType record).map (blankRecord masks) := by
  unfold derivedTargets
  rw [rows_blankTables, List.map_flatMap]
  refine List.flatMap_congr fun link _ => ?_
  rw [List.filter_map]
  rfl

/-- What an object behind a link is of. -/
theorem exists_link_of_mem_derivedTargets {linkType : String} {record target : ObjectRecord}
    (h : target ∈ derivedTargets tables linkType record) : ∃ link ∈ tables.links.rows,
      link.linkType.apiName.val = linkType ∧
        link.linkType.fromObjectType.apiName = record.objectType.apiName ∧
          target.objectType.apiName = link.linkType.toObjectType.apiName := by
  obtain ⟨link, hlink, htarget⟩ := List.mem_flatMap.mp h
  simp only [List.mem_filter, decide_eq_true_eq] at hlink htarget
  exact ⟨link, hlink.1, hlink.2.2.1, hlink.2.2.2.1, htarget.2.2.1⟩

theorem derivedTargetCell_blank {spec : DerivedProperty} {target : ObjectRecord}
    (h : spec.targetProperty ∉ masks target.objectType.apiName) :
    derivedTargetCell sql spec (blankRecord masks target) = derivedTargetCell sql spec target := by
  have hvalue : (blankRecord masks target).properties.get? spec.targetProperty =
      target.properties.get? spec.targetProperty := by
    have hid : blankValue (masks target.objectType.apiName) spec.targetProperty = id :=
      funext fun value => if_neg h
    rw [blankRecord, Dict.get?_mapWithKey, hid, Option.map_id]
    rfl
  unfold derivedTargetCell
  rw [hvalue]

/-- A derived property that counts, or whose target is not masked, does not see masked values. -/
theorem derivedCell_blank {spec : DerivedProperty} {record : ObjectRecord}
    (h : spec.aggregation ≠ some .count → ∀ link ∈ tables.links.rows,
      link.linkType.apiName.val = spec.linkType →
        link.linkType.fromObjectType.apiName = record.objectType.apiName →
          spec.targetProperty ∉ masks link.linkType.toObjectType.apiName) :
    derivedCell sql (blankTables masks tables) spec (blankRecord masks record) =
      derivedCell sql tables spec record := by
  unfold derivedCell
  rw [derivedTargets_blank]
  by_cases hcount : spec.aggregation = some .count
  · simp [hcount]
  · have hcells : ((derivedTargets tables spec.linkType record).map (blankRecord masks)).map
        (derivedTargetCell sql spec) =
          (derivedTargets tables spec.linkType record).map (derivedTargetCell sql spec) := by
      rw [List.map_map]
      refine List.map_congr_left fun target htarget => ?_
      obtain ⟨link, hlink, hname, hfrom, hto⟩ := exists_link_of_mem_derivedTargets htarget
      exact derivedTargetCell_blank (hto ▸ h hcount link hlink hname hfrom)
    have hhead : (((derivedTargets tables spec.linkType record).map
        (blankRecord masks)).head?.map (derivedTargetCell sql spec)) =
          (derivedTargets tables spec.linkType record).head?.map (derivedTargetCell sql spec) := by
      rw [← List.head?_map, ← List.head?_map, hcells]
    simp only [hcells, hhead]
    split
    next hsome => exact absurd hsome hcount
    next => rfl
    next => rfl

/-- **The rows of a store without masked values are its rows without masked values**, unless an
unmasked derived property of their type reads a masked one. -/
theorem activeRows_blank {schema : Schema} {scope : RecordScope} {masked : List String}
    (hmasked : masks scope.objectTypeApiName = masked)
    (h : ∀ property ∈ schema.properties, property.apiName ∉ masked →
      ∀ spec, property.derived = some spec → spec.aggregation ≠ some .count →
        ∀ link ∈ tables.links.rows, link.linkType.apiName.val = spec.linkType →
          link.linkType.fromObjectType.apiName.val = scope.objectTypeApiName →
            spec.targetProperty ∉ masks link.linkType.toObjectType.apiName) :
    (activeRows sql (blankTables masks tables) schema scope).map (QueryRow.hide masked) =
      (activeRows sql tables schema scope).map (QueryRow.hide masked) := by
  unfold activeRows
  rw [rows_blankTables, List.filter_map, List.map_map, List.map_map, List.map_map]
  refine List.map_congr_left fun record hrecord => ?_
  obtain ⟨-, hholds⟩ := List.mem_filter.mp hrecord
  simp only [Function.comp_apply, RecordScope.holds, decide_eq_true_eq] at hholds
  have hname : record.objectType.apiName.val = scope.objectTypeApiName := hholds.2.1
  have hstored : ((blankRecord masks record).properties.mapWithKey (blankValue masked)) =
      record.properties.mapWithKey (blankValue masked) := by
    refine Dict.ext_get? fun name => ?_
    rw [blankRecord, hname, hmasked, Dict.get?_mapWithKey, Dict.get?_mapWithKey, Option.map_map]
    refine Option.map_congr fun value _ => ?_
    unfold blankValue
    simp only [Function.comp_apply]
    split_ifs <;> rfl
  have hderived : ((queryRow sql (blankTables masks tables) schema
      (blankRecord masks record)).hide masked).derived =
        ((queryRow sql tables schema record).hide masked).derived := by
    simp only [QueryRow.hide, queryRow, List.map_filterMap, Option.map_map]
    refine List.filterMap_congr fun property hproperty => Option.map_congr fun spec hspec => ?_
    simp only [Function.comp_apply]
    by_cases hmem : property.apiName ∈ masked
    · simp [hmem]
    · rw [derivedCell_blank fun hcount link hlink hlinkName hfrom =>
        h property hproperty hmem spec hspec hcount link hlink hlinkName
          ((congrArg Subtype.val hfrom).trans hname)]
  simp only [Function.comp_apply]
  exact congrArg₂ (QueryRow.mk record.objectId record.objectVersion) hstored hderived

/-- The index version of an object type does not depend on property values. -/
theorem activeIndexVersion_blank (store : IndexedStore) (tenantId : String)
    (objectType : ObjectTypeId) :
    activeIndexVersion { store with tables := blankTables masks store.tables } tenantId objectType =
      activeIndexVersion store tenantId objectType := by
  unfold activeIndexVersion
  cases store.indexPointers tenantId objectType with
  | some version => rfl
  | none =>
    simp only [rows_blankTables, List.filter_map]
    have hsorted := List.map_mergeSort (f := blankRecord masks)
      (r := fun a b : ObjectRecord => decide (b.updatedAt < a.updatedAt ∨
        (a.updatedAt = b.updatedAt ∧ a.indexVersion ≤ b.indexVersion)))
      (s := fun a b : ObjectRecord => decide (b.updatedAt < a.updatedAt ∨
        (a.updatedAt = b.updatedAt ∧ a.indexVersion ≤ b.indexVersion)))
      (l := store.tables.objects.rows.filter fun row =>
        decide (row.tenantId = tenantId ∧ row.objectType = objectType ∧ row.isActive))
      fun a _ b _ => rfl
    have hfilter : (store.tables.objects.rows.filter ((fun row : ObjectRecord =>
        decide (row.tenantId = tenantId ∧ row.objectType = objectType ∧ row.isActive)) ∘
          blankRecord masks)) = store.tables.objects.rows.filter fun row =>
            decide (row.tenantId = tenantId ∧ row.objectType = objectType ∧ row.isActive) := rfl
    rw [hfilter, ← hsorted, List.head?_map, Option.map_map]
    rfl

end Blank

/-! ### Refused requests -/

section Refused

variable {server : Server κ} {ctx : RequestContext} {objectType : String}

/-- A type that is not there, or policies that are refused, refuse every request alike. -/
def Server.Refuses (server : Server κ) (ctx : RequestContext) (objectType : String) : Prop :=
  (∃ e, server.requireRead ctx objectType = .error e) ∨
    (∃ e, server.activeObjectType ctx objectType = .error e) ∨
      ∃ e, server.maskedPropertyNames ctx objectType = .error e

theorem validateQueryShape_of_error {e : FoundryLiteError} {filter : Option Mapping}
    {orderBy : List ObjectOrderBy} {type : ServedObjectType}
    (htype : server.activeObjectType ctx objectType = .ok type)
    (h : server.maskedPropertyNames ctx objectType = .error e) :
    server.validateQueryShape ctx objectType filter orderBy = .error e := by
  simp only [Deployment.validateQueryShape, htype, h, bind, Except.bind]

theorem queryReadable_of_refuses {request : ObjectQueryRequest κ} {readable readable' : Readable}
    (h : server.Refuses request.ctx request.objectTypeApiName) (now issuedAt : ℤ) :
    server.queryReadable readable' request now issuedAt =
      server.queryReadable readable request now issuedAt := by
  unfold Server.queryReadable queryObjects queryScope
  rcases h with ⟨e, he⟩ | ⟨e, he⟩ | ⟨e, he⟩
  · simp only [he, bind, Except.bind]
  · simp only [Server.world, he, bind, Except.bind]
    cases server.requireRead request.ctx request.objectTypeApiName <;>
      cases queryLimit request.limit <;> cases request.orderBy.mapM normalizedOrderItem <;>
        cases validateFilter request.filter <;> rfl
  · cases htype : server.activeObjectType request.ctx request.objectTypeApiName with
    | error e' =>
      simp only [Server.world, htype, bind, Except.bind]
      cases server.requireRead request.ctx request.objectTypeApiName <;>
        cases queryLimit request.limit <;> cases request.orderBy.mapM normalizedOrderItem <;>
          cases validateFilter request.filter <;> rfl
    | ok type =>
      simp only [Server.world, htype, validateQueryShape_of_error htype he, bind, Except.bind, pure,
        Except.pure]
      cases server.requireRead request.ctx request.objectTypeApiName <;>
        cases queryLimit request.limit <;> cases request.orderBy.mapM normalizedOrderItem <;>
          cases validateFilter request.filter <;> rfl

theorem aggregateReadable_of_refuses {request : AggregationRequest} {readable readable' : Readable}
    (h : server.Refuses request.ctx request.objectTypeApiName) :
    server.aggregateReadable readable' request = server.aggregateReadable readable request := by
  unfold Server.aggregateReadable
  rcases h with ⟨e, he⟩ | ⟨e, he⟩ | ⟨e, he⟩
  · simp only [he, bind, Except.bind]
  · simp only [he, bind, Except.bind]
  · cases htype : server.activeObjectType request.ctx request.objectTypeApiName with
    | error e' => rfl
    | ok type => simp only [validateQueryShape_of_error htype he, bind, Except.bind]

end Refused

/-! ### Masked values are hidden -/

/-- The masked properties of each object type, for a caller whose policies are not refused. -/
def Deployment.masks (deployment : Deployment) (ctx : RequestContext) (objectType : String) :
    List String :=
  match deployment.maskedPropertyNames ctx objectType with
  | .ok names => names
  | .error _ => []

/-- An unmasked derived property of the type reads a property that is masked for the caller behind
its link. A count reads none. -/
def Deployment.ReadsMasked (deployment : Deployment) (ctx : RequestContext) (objectType : String) :
    Prop :=
  ∃ type, deployment.activeObjectType ctx objectType = .ok type ∧
    ∃ property ∈ type.schema.properties, property.apiName ∉ deployment.masks ctx objectType ∧
      ∃ spec, property.derived = some spec ∧ spec.aggregation ≠ some .count ∧
        ∃ link ∈ deployment.linkTypes, link.apiName.val = spec.linkType ∧
          link.fromObjectType.apiName.val = objectType ∧
            spec.targetProperty ∈ deployment.masks ctx link.toObjectType.apiName

/-- The links of a store are of the link types of the deployment. -/
def Deployment.Holds (deployment : Deployment) (store : IndexedStore) : Prop :=
  ∀ link ∈ store.tables.links.rows, link.linkType ∈ deployment.linkTypes

/-- A caller gets the same answers about an object type from two stores that differ only in the
values of properties that are masked for the caller. -/
def Server.HidesMasked (server : Server κ) (ctx : RequestContext) (objectType : String) : Prop :=
  ∀ s t : IndexedStore, server.Holds s → server.Holds t → SameUnmasked (server.masks ctx) s t →
    (∀ request : ObjectQueryRequest κ, request.ctx = ctx →
      request.objectTypeApiName = objectType → ∀ now issuedAt,
        server.queryObjects s request now issuedAt = server.queryObjects t request now issuedAt) ∧
    ∀ request : AggregationRequest, request.ctx = ctx → request.objectTypeApiName = objectType →
      server.aggregateObjects s request = server.aggregateObjects t request

/-- What a caller's request reads of the store without its masked values. -/
def Server.blankReadable (server : Server κ) (ctx : RequestContext) (store : IndexedStore)
    (masked : List String) : Readable where
  indexVersion type := activeIndexVersion
    { store with tables := blankTables (server.masks ctx) store.tables } ctx.tenantId type.id
  rows type := (activeRows server.sql (blankTables (server.masks ctx) store.tables) type.schema
    (type.recordScope ctx.tenantId)).map (QueryRow.hide masked)

theorem blankReadable_congr {server : Server κ} {ctx : RequestContext} {s t : IndexedStore}
    (h : SameUnmasked (server.masks ctx) s t) (masked : List String) :
    server.blankReadable ctx s masked = server.blankReadable ctx t masked := by
  unfold Server.blankReadable activeIndexVersion activeRows queryRow derivedCell derivedTargets
  simp only [h.objects, h.indexPointers]
  simp only [blankTables, h.links]

theorem apiName_of_activeObjectType {deployment : Deployment} {ctx : RequestContext}
    {objectType : String} {type : ServedObjectType}
    (htype : deployment.activeObjectType ctx objectType = .ok type) :
    type.id.apiName.val = objectType := by
  unfold Deployment.activeObjectType at htype
  split at htype
  next found hfound =>
    obtain rfl := Except.pure_eq_ok_iff.mp htype
    simpa using List.find?_some hfound
  next => simp at htype

/-- What is read of a store hides to what is read of it without masked values. -/
theorem hides_blankReadable {server : Server κ} {ctx : RequestContext} {store : IndexedStore}
    {objectType : String} {masked : List String} {type : ServedObjectType}
    (hholds : server.Holds store) (htype : server.activeObjectType ctx objectType = .ok type)
    (hmasked : server.maskedPropertyNames ctx objectType = .ok masked)
    (h : ¬ server.ReadsMasked ctx objectType) :
    (server.readable ctx store).Hides masked type (server.blankReadable ctx store masked) := by
  have hmasks : server.masks ctx objectType = masked := by
    simp only [Deployment.masks, hmasked]
  have hname := apiName_of_activeObjectType htype
  refine ⟨activeIndexVersion_blank store ctx.tenantId type.id, ?_⟩
  refine activeRows_blank (by rw [ServedObjectType.recordScope, hname, hmasks]) ?_
  intro property hproperty hmem spec hspec hcount link hlink hlinkName hfrom htarget
  exact h ⟨type, htype, property, hproperty, hmasks ▸ hmem, spec, hspec, hcount, link.linkType,
    hholds link hlink, hlinkName, hfrom.trans hname, htarget⟩

/-- Where no derived property reads a masked one, masked values reach no answer. -/
theorem hidesMasked_of_not_readsMasked {server : Server κ} {ctx : RequestContext}
    {objectType : String} (hpolicies : server.HasNoRowPolicies ctx objectType)
    (h : server.requireRead ctx objectType = .ok () → ¬ server.ReadsMasked ctx objectType) :
    server.HidesMasked ctx objectType := by
  intro s t hs ht hsame
  by_cases hrefuses : server.Refuses ctx objectType
  · constructor
    · rintro request rfl rfl now issuedAt
      exact queryReadable_of_refuses hrefuses now issuedAt
    · rintro request rfl rfl
      exact aggregateReadable_of_refuses hrefuses
  · obtain ⟨hread, hactive, hnames⟩ : server.requireRead ctx objectType = .ok () ∧
        (∃ type, server.activeObjectType ctx objectType = .ok type) ∧
          ∃ masked, server.maskedPropertyNames ctx objectType = .ok masked := by
      simp only [Server.Refuses, not_or] at hrefuses
      refine ⟨?_, ?_, ?_⟩
      · cases hread : server.requireRead ctx objectType with
        | error e => exact absurd ⟨e, hread⟩ hrefuses.1
        | ok u => rfl
      · cases hactive : server.activeObjectType ctx objectType with
        | error e => exact absurd ⟨e, hactive⟩ hrefuses.2.1
        | ok type => exact ⟨type, rfl⟩
      · cases hnames : server.maskedPropertyNames ctx objectType with
        | error e => exact absurd ⟨e, hnames⟩ hrefuses.2.2
        | ok masked => exact ⟨masked, rfl⟩
    obtain ⟨type, htype⟩ := hactive
    obtain ⟨masked, hmasked⟩ := hnames
    have hhides_s := hides_blankReadable hs htype hmasked (h hread)
    have hhides_t := hides_blankReadable ht htype hmasked (h hread)
    rw [← blankReadable_congr hsame masked] at hhides_t
    constructor
    · rintro request rfl rfl now issuedAt
      exact (Server.queryReadable_hide hmasked htype hpolicies hhides_s now issuedAt).symm.trans
        (Server.queryReadable_hide hmasked htype hpolicies hhides_t now issuedAt)
    · rintro request rfl rfl
      exact (Server.aggregateReadable_hide hmasked htype hpolicies hhides_s).symm.trans
        (Server.aggregateReadable_hide hmasked htype hpolicies hhides_t)

/-! ### Two stores that tell a masked value -/

/-- An active object that was written once. -/
def plainRecord (tenantId : String) (objectType : ObjectTypeId) (objectId : String)
    (properties : PropertyMap) : ObjectRecord where
  id := objectId
  tenantId := tenantId
  objectType := objectType
  objectId := objectId
  indexVersion := "active"
  isActive := true
  properties := properties
  baseProperties := ∅
  editProperties := ∅
  propertyVersions := ∅
  sourceDatasetVersionId := none
  sourceHash := none
  objectVersion := 1
  objectChangeSequence := 1
  deleted := false
  deletionReason := none
  createdAt := ""
  updatedAt := ""

def plainLink (tenantId : String) (linkType : LinkTypeRow) : ObjectLink where
  id := "link"
  tenantId := tenantId
  linkType := linkType
  fromObjectId := "a"
  toObjectId := "b"
  indexVersion := "active"
  isActive := true
  properties := ∅
  sourceDatasetVersionId := none
  linkVersion := 1
  deleted := false
  deletionReason := none
  updatedAt := ""

/-- An object of a type that is linked to another one, which holds one value. -/
def linkedTables (tenantId : String) (objectType : ObjectTypeId) (linkType : LinkTypeRow)
    (name : String) (value : Json) : Store :=
  { Store.empty with
    objects :=
      { rows := [plainRecord tenantId objectType "a" ∅,
          plainRecord tenantId linkType.toObjectType "b" (Dict.ofList [(name, value)])]
        nodup_pk := by simp [plainRecord]
        nodup_uq := by simp [plainRecord, ObjectRecord.identity] }
    links :=
      { rows := [plainLink tenantId linkType]
        nodup_pk := List.nodup_singleton _
        nodup_uq := List.nodup_singleton _ } }

def linkedStore (tenantId : String) (objectType : ObjectTypeId) (linkType : LinkTypeRow)
    (name : String) (value : Json) : IndexedStore :=
  { IndexedStore.empty with tables := linkedTables tenantId objectType linkType name value }

section Telling

variable {tenantId name : String} {objectType : ObjectTypeId} {linkType : LinkTypeRow}

theorem sameUnmasked_linkedStore {masks : String → List String}
    (h : name ∈ masks linkType.toObjectType.apiName) (v w : Json) :
    SameUnmasked masks (linkedStore tenantId objectType linkType name v)
      (linkedStore tenantId objectType linkType name w) := by
  refine ⟨Table.ext ?_, rfl, rfl⟩
  have hblank : ∀ value : Json, (Dict.ofList [(name, value)]).mapWithKey
      (blankValue (masks linkType.toObjectType.apiName)) = Dict.ofList [(name, .null)] := by
    intro value
    rw [Dict.mapWithKey_ofList]
    simp [blankValue, h]
  rw [rows_blankTables, rows_blankTables]
  simp [linkedStore, linkedTables, blankRecord, plainRecord, hblank]

theorem derivedTargets_linkedTables {value : Json}
    (hfrom : linkType.fromObjectType.apiName = objectType.apiName) :
    derivedTargets (linkedTables tenantId objectType linkType name value) linkType.apiName.val
      (plainRecord tenantId objectType "a" ∅) =
        [plainRecord tenantId linkType.toObjectType "b" (Dict.ofList [(name, value)])] := by
  simp [derivedTargets, linkedTables, plainRecord, plainLink, hfrom]

/-- A derived property that does not count tells a null from a value. -/
theorem derivedJson_linkedTables_ne {sql : SqlEnvironment} {spec : DerivedProperty}
    (hlink : linkType.apiName.val = spec.linkType)
    (hfrom : linkType.fromObjectType.apiName = objectType.apiName)
    (hcount : spec.aggregation ≠ some .count) :
    derivedJson spec (derivedCell sql (linkedTables tenantId objectType linkType
        spec.targetProperty .null) spec (plainRecord tenantId objectType "a" ∅)) ≠
      derivedJson spec (derivedCell sql (linkedTables tenantId objectType linkType
        spec.targetProperty (.bool true)) spec (plainRecord tenantId objectType "a" ∅)) := by
  have htarget : ∀ value : Json, (plainRecord tenantId linkType.toObjectType "b"
      (Dict.ofList [(spec.targetProperty, value)])).properties.get? spec.targetProperty =
        some value := by
    intro value
    simp [plainRecord]
  unfold derivedCell
  rw [← hlink, derivedTargets_linkedTables hfrom, derivedTargets_linkedTables hfrom]
  cases haggregation : spec.aggregation with
  | none =>
    simp only [List.head?_cons, Option.map_some, Option.getD_some, derivedTargetCell, htarget,
      haggregation, jsonExtract]
    split <;> simp [castInteger, castReal, derivedJson, haggregation] <;> split_ifs <;> simp
  | some aggregation =>
    cases aggregation with
    | count => exact absurd haggregation hcount
    | approximateCardinality =>
      have hnull : [Cell.null].filterMap Cell.key = [] := rfl
      have hone : [numberKey 1].dedup = [numberKey 1] := List.dedup_eq_self.mpr (List.nodup_singleton _)
      simp [derivedTargetCell, htarget, haggregation, jsonExtract, aggregateCells, Cell.key,
        derivedJson, hnull, hone, List.dedup_nil]
    | _ =>
      have hnull : [Cell.null].filterMap Cell.number? = [] := rfl
      simp [derivedTargetCell, htarget, haggregation, jsonExtract, aggregateCells, castReal,
        Cell.number?, derivedJson, hnull]

end Telling

section TellingPage

variable {server : Server κ} {ctx : RequestContext} {objectType : String}
  {type : ServedObjectType} {masked : List String}

/-- Every object of a type, in the order of their ids. -/
def everyObject (ctx : RequestContext) (objectType : String) : ObjectQueryRequest κ :=
  { ctx, objectTypeApiName := objectType, filter := none, orderBy := [], limit := 500
    cursor := none }

/-- A request without a filter and an order is answered with all rows, when they fit a page. -/
theorem queryReadable_everyObject {readable : Readable}
    (hread : server.requireRead ctx objectType = .ok ())
    (htype : server.activeObjectType ctx objectType = .ok type)
    (hmasked : server.maskedPropertyNames ctx objectType = .ok masked)
    (hpolicies : type.rowPolicies = []) (hlength : (readable.rows type).length ≤ 500)
    (now issuedAt : ℤ) :
    server.queryReadable readable (everyObject ctx objectType) now issuedAt =
      .ok ((orderRows type.schema [] (readable.rows type)).map fun row =>
        server.objectQueryItem ctx objectType (objectRowWithDerived type.schema row), none) := by
  have hscope : queryScope (server.world ctx readable) (everyObject (κ := κ) ctx objectType) =
      .ok (some ⟨ctx.tenantId, ctx.actorUserId, objectType, none, [],
        readable.indexVersion type⟩) := by
    simp [queryScope, everyObject, Server.world, Deployment.validateQueryShape, htype, hmasked,
      validateFilter, validateQueryProperties, requestFilter, hpolicies,
      RowPolicyScope.hidesAllRows, scopedFilter, List.forM, bind, Except.bind, pure, Except.pure]
  have hrows : queryRows server.sql type.schema none [] none 501 (readable.rows type) =
      orderRows type.schema [] (readable.rows type) := by
    have hall : ((readable.rows type).filter fun row => matchesFilter server.sql type.schema none row
        && cursorCondition type.schema [] none row) = readable.rows type :=
      List.filter_eq_self.mpr fun _ _ => rfl
    rw [queryRows, hall]
    refine List.take_of_length_le ?_
    rw [orderRows, List.length_mergeSort]
    omega
  have hshort : ((orderRows type.schema [] (readable.rows type)).map
      (objectRowWithDerived type.schema)).length ≤ 500 := by
    rw [List.length_map, orderRows, List.length_mergeSort]
    exact hlength
  unfold Server.queryReadable queryObjects
  simp only [everyObject] at hscope ⊢
  rw [hread, hscope]
  simp only [queryLimit, rejectIf, objectQueryMaxLimit, decodeObjectQueryCursor, Server.world,
    htype, requestFilter, bind, Except.bind, pure, Except.pure, Option.getD_none]
  norm_num
  rw [show Int.toNat 500 = 500 from rfl, hrows, List.take_of_length_le (by exact hshort)]
  simp [nextCursor, pure, Except.pure]

theorem maskValue_of_not_mem (hmasked : server.maskedPropertyNames ctx objectType = .ok masked)
    {name : String} (h : name ∉ masked) (value : Json) :
    maskValue (server.policyRows ctx.tenantId) ctx.roles objectType name value = value := by
  unfold Deployment.maskedPropertyNames maskedPropertyNames at hmasked
  split at hmasked
  next hadmin => simp [maskValue, classificationMaskedNames, segmentMaskedNames, hadmin]
  next =>
    simp only [Except.bind_eq_ok_iff, Except.pure_eq_ok_iff] at hmasked
    obtain ⟨-, -, rfl⟩ := hmasked
    rw [List.mem_append, not_or] at h
    simp [maskValue, h.1, h.2]

/-- A caller who has a mask is refused by no policy. -/
theorem exists_maskedPropertyNames {name other : String} (h : name ∈ server.masks ctx other) :
    ∃ names, server.maskedPropertyNames ctx objectType = .ok names := by
  unfold Deployment.masks at h
  split at h
  next names hnames =>
    unfold Deployment.maskedPropertyNames maskedPropertyNames at hnames ⊢
    split
    next => exact ⟨[], rfl⟩
    next hadmin =>
      simp only [if_neg hadmin, Except.bind_eq_ok_iff] at hnames
      obtain ⟨u, hu, -⟩ := hnames
      simp only [hu]
      exact ⟨_, rfl⟩
  next => simp at h

/-- The derived properties of a row are those of the schema. -/
theorem lookup_filterMap_derived {β : Type} (schema : Schema)
    (f : PropertyTypeRow → DerivedProperty → β) {property : PropertyTypeRow}
    {spec : DerivedProperty} (hproperty : property ∈ schema.properties)
    (hspec : property.derived = some spec) :
    (schema.properties.filterMap fun row =>
      row.derived.map fun spec => (row.apiName, f row spec)).lookup property.apiName =
        some (f property spec) := by
  refine Dict.lookup_eq_some_of_mem ?_ (List.mem_filterMap.mpr ⟨property, hproperty, by simp [hspec]⟩)
  have hsublist : ((schema.properties.filterMap fun row =>
      row.derived.map fun spec => (row.apiName, f row spec)).map Prod.fst).Sublist
        (schema.properties.map PropertyTypeRow.apiName) := by
    rw [List.map_filterMap, ← List.filterMap_eq_map]
    induction schema.properties with
    | nil => exact .slnil
    | cons row rows ih =>
      cases hrow : row.derived with
      | none => simpa [List.filterMap_cons, hrow] using ih.cons row.apiName
      | some spec => simpa [List.filterMap_cons, hrow] using ih
  exact schema.nodup.sublist hsublist

theorem activeRows_linkedTables {linkType : LinkTypeRow} {name : String} {value : Json}
    (sql : SqlEnvironment) (type : ServedObjectType) (tenantId : String) :
    ∃ rest, activeRows sql (linkedTables tenantId type.id linkType name value) type.schema
        (type.recordScope tenantId) =
          queryRow sql (linkedTables tenantId type.id linkType name value) type.schema
            (plainRecord tenantId type.id "a" ∅) :: rest ∧
      (orderRows type.schema [] (activeRows sql
        (linkedTables tenantId type.id linkType name value) type.schema
          (type.recordScope tenantId)) = activeRows sql
            (linkedTables tenantId type.id linkType name value) type.schema
              (type.recordScope tenantId)) ∧ rest.length ≤ 1 := by
  have hholds : (type.recordScope tenantId).holds (plainRecord tenantId type.id "a" ∅) = true := by
    simp only [RecordScope.holds, ServedObjectType.recordScope, plainRecord]
    split_ifs <;> simp
  unfold activeRows
  simp only [linkedTables, List.filter_cons_of_pos hholds, List.map_cons]
  refine ⟨_, rfl, ?_, ?_⟩
  · refine List.mergeSort_of_pairwise ?_
    rw [List.pairwise_cons]
    cases hsecond : (type.recordScope tenantId).holds
        (plainRecord tenantId linkType.toObjectType "b" (Dict.ofList [(name, value)])) with
    | true =>
      rw [List.filter_cons_of_pos hsecond]
      simp only [List.filter_nil, List.map_cons, List.map_nil, List.mem_singleton, forall_eq,
        List.pairwise_singleton, and_true]
      show (!decide ("b" < "a")) = true
      decide
    | false =>
      rw [List.filter_cons_of_neg (by simp [hsecond])]
      simp
  · rw [List.length_map]
    exact List.length_filter_le _ _

/-- A derived property that reads a masked one tells two of its values apart. -/
theorem not_hidesMasked_of_readsMasked (hpolicies : server.HasNoRowPolicies ctx objectType)
    (hread : server.requireRead ctx objectType = .ok ()) (h : server.ReadsMasked ctx objectType) :
    ¬ server.HidesMasked ctx objectType := by
  obtain ⟨type, htype, property, hproperty, hunmasked, spec, hspec, hcount, link, hlink, hlinkName,
    hfrom, htarget⟩ := h
  obtain ⟨masked, hmasked⟩ := @exists_maskedPropertyNames _ _ _ objectType _ _ htarget
  have hname := apiName_of_activeObjectType htype
  have hmasks : server.masks ctx objectType = masked := by
    simp only [Deployment.masks, hmasked]
  have hvisible : property.apiName ∉ masked := hmasks ▸ hunmasked
  have htypes : link.fromObjectType.apiName = type.id.apiName :=
    Subtype.ext (hfrom.trans hname.symm)
  let store := linkedStore ctx.tenantId type.id link spec.targetProperty
  have hholds : ∀ value, server.Holds (store value) := by
    intro value found hfound
    rw [List.mem_singleton.mp hfound]
    exact hlink
  -- The first object of the page has the value that was read through its link.
  have hpage : ∀ value, ∃ items rest, server.queryObjects (store value)
      (everyObject ctx objectType) 0 0 = .ok (items :: rest, none) ∧
        items.properties.lookup property.apiName = some (derivedJson spec (derivedCell server.sql
          (store value).tables spec (plainRecord ctx.tenantId type.id "a" ∅))) := by
    intro value
    obtain ⟨rest, hrows, hsorted, hlength⟩ :=
      @activeRows_linkedTables link spec.targetProperty value
        server.sql type ctx.tenantId
    have hshort : ((server.readable ctx (store value)).rows type).length ≤ 500 := by
      rw [Server.readable]
      simp only [store, linkedStore, hrows, List.length_cons]
      omega
    have hquery := queryReadable_everyObject hread htype hmasked (hpolicies type htype) hshort 0 0
    simp only [Server.readable, store, linkedStore] at hquery
    rw [hsorted, hrows, List.map_cons] at hquery
    refine ⟨_, _, hquery, ?_⟩
    simp only [Deployment.objectQueryItem, maskProperties]
    rw [Dict.lookup_map_mk, show (objectRowWithDerived type.schema _).properties.lookup
      property.apiName = Dict.get? _ property.apiName from rfl, Dict.get?_update, Dict.get?_ofList,
      lookup_filterMap_derived type.schema (fun row spec => derivedJson spec
        (QueryRow.derivedCell _ row.apiName)) hproperty hspec, Option.some_or, Option.map_some,
      maskValue_of_not_mem hmasked hvisible]
    simp only [QueryRow.derivedCell, queryRow]
    rw [lookup_filterMap_derived type.schema (fun _ spec => derivedCell server.sql _ spec _)
      hproperty hspec]
    rfl
  intro hhides
  obtain ⟨item, rest, hitem, hvalue⟩ := hpage .null
  obtain ⟨item', rest', hitem', hvalue'⟩ := hpage (.bool true)
  have hsame := (hhides _ _ (hholds .null) (hholds (.bool true))
    (sameUnmasked_linkedStore htarget .null (.bool true))).1 (everyObject ctx objectType) rfl rfl 0 0
  rw [hitem, hitem'] at hsame
  simp only [Except.ok.injEq, Prod.mk.injEq, List.cons.injEq, and_true] at hsame
  rw [hsame.1, hvalue'] at hvalue
  exact derivedJson_linkedTables_ne hlinkName htypes hcount (Option.some.inj hvalue).symm

end TellingPage

/-- **Masked values influence no answer exactly when no derived property reads one.** An object
type without row policies answers a caller alike from any two stores that differ only in values
that are masked for the caller, unless the caller may read the type and an unmasked derived
property of it, other than a count, reads a property that is masked behind its link. -/
theorem masked_values_hidden_iff (server : Server κ) (ctx : RequestContext) (objectType : String)
    (hpolicies : server.HasNoRowPolicies ctx objectType) : server.HidesMasked ctx objectType ↔
      (server.requireRead ctx objectType = .ok () → ¬ server.ReadsMasked ctx objectType) := by
  constructor
  · intro hhides hread hreads
    exact not_hidesMasked_of_readsMasked hpolicies hread hreads hhides
  · exact hidesMasked_of_not_readsMasked hpolicies

/-! ### A salary behind a link -/

def orderTypeId : ObjectTypeId := ⟨⟨"otype_order", by decide⟩, ⟨"Order", by decide⟩⟩

def employeeTypeId : ObjectTypeId := ⟨⟨"otype_employee", by decide⟩, ⟨"Employee", by decide⟩⟩

def assignedTo : LinkTypeRow :=
  ⟨⟨"ltype_assigned", by decide⟩, ⟨"AssignedTo", by decide⟩, orderTypeId, employeeTypeId⟩

def assigneeSalary : PropertyTypeRow :=
  ⟨"assigneeSalary", "float", some ⟨"AssignedTo", none, "salary", "float"⟩⟩

def orderServed : ServedObjectType where
  id := orderTypeId
  schema := ⟨[⟨"name", "string", none⟩, assigneeSalary], by decide⟩
  rowPolicies := []
  isScoped := false

def employeeServed : ServedObjectType where
  id := employeeTypeId
  schema := ⟨[⟨"salary", "float", none⟩], by decide⟩
  rowPolicies := []
  isScoped := false

/-- Orders show the salary of the employee they are assigned to. The salary itself is classified. -/
def salaryServer : Server Json where
  objectTypes _ := [orderServed, employeeServed]
  policyRows _ := [⟨"Employee", "salary", some "pii", none⟩]
  linkTypes := [assignedTo]
  requireRead ctx _ := if "viewer" ∈ ctx.roles then pure () else throw (permissionDenied "denied")
  cursors :=
    { hmac := fun _ _ => "", sha256 := fun _ => "", encodeToken := id, decodeToken := some
      signingKeys := [("local-default", "foundry-lite-object-query-cursor-v1")]
      currentKeyId := "local-default", cursorTtlSeconds := 900 }
  sql :=
    { jsonText := fun _ => "", leadingReal := fun _ => 0, leadingInteger := fun _ => 0
      cellText := fun _ => "", lower := String.toLower, timestampText := fun _ => none }

def viewer : RequestContext := ⟨"acme", "vera", ["viewer"]⟩

/-- An employee has no derived property, and the salary reaches no answer about employees. -/
theorem hidesMasked_employee : salaryServer.HidesMasked viewer "Employee" := by
  refine (masked_values_hidden_iff salaryServer viewer "Employee" ?_).mpr ?_
  · intro type htype
    obtain rfl : employeeServed = type := Except.ok.inj htype
    rfl
  · rintro - ⟨type, htype, property, hproperty, -, spec, hspec, -⟩
    obtain rfl : employeeServed = type := Except.ok.inj htype
    rw [List.mem_singleton.mp hproperty] at hspec
    exact absurd hspec (by simp)

/-- A viewer reads the masked salary off the orders. -/
theorem not_hidesMasked : ¬ ∀ (server : Server Json) (ctx : RequestContext) (objectType : String),
    server.HasNoRowPolicies ctx objectType → server.HidesMasked ctx objectType := by
  intro hall
  have hpolicies : salaryServer.HasNoRowPolicies viewer "Order" := by
    intro type htype
    obtain rfl : orderServed = type := Except.ok.inj htype
    rfl
  have hreads : salaryServer.ReadsMasked viewer "Order" :=
    ⟨orderServed, rfl, assigneeSalary, .tail _ (.head _), by decide, _, rfl, by decide, assignedTo,
      .head _, rfl, rfl, by decide⟩
  exact not_hidesMasked_of_readsMasked hpolicies rfl hreads (hall _ _ _ hpolicies)

end FoundryLite.ObjectQuery
