import FoundryLite.ObjectStore.MaskedQueries

/-!
# Requests over rows without masked values

A request reads the rows of its object type. Every place where a stored value can reach an answer
refuses a masked property or hides its value: filters and orders are validated, groups and metrics
are planned, and items are masked when the page is read. So the answer is the same when the masked
values of the rows are blanked before the request is run.

## Main results

* `queryRows_hide`, `aggregateRows_hide`: the statements of the repository commute with blanking.
* `Server.queryReadable_hide`, `Server.aggregateReadable_hide`: blanked rows give the same answers.
-/

namespace FoundryLite.ObjectQuery

open ObjectStore (Store IndexedStore ObjectTypeId LinkTypeRow ObjectRecord ObjectLink PropertyMap)
open Except (bind_eq_ok_iff pure_eq_ok_iff)

variable {κ : Type}

/-! ### Blanked values -/

/-- A value, unless its name is masked. -/
def blankValue (masked : List String) (name : String) (value : Json) : Json :=
  if name ∈ masked then .null else value

/-- A row without its masked values. -/
def QueryRow.hide (masked : List String) (row : QueryRow) : QueryRow where
  objectId := row.objectId
  objectVersion := row.objectVersion
  stored := row.stored.mapWithKey (blankValue masked)
  derived := row.derived.map fun entry =>
    (entry.1, if entry.1 ∈ masked then .null else entry.2)

/-- A fetched row without its masked values. -/
def ObjectRecordRow.blank (masked : List String) (row : ObjectRecordRow) : ObjectRecordRow where
  objectId := row.objectId
  objectVersion := row.objectVersion
  properties := row.properties.map fun entry => (entry.1, blankValue masked entry.1 entry.2)

section Row

variable {sql : SqlEnvironment} {schema : Schema} {masked : List String} {row : QueryRow}

theorem stored_hide {name : String} (h : name ∉ masked) :
    (row.hide masked).stored.get? name = row.stored.get? name := by
  have hid : blankValue masked name = id := funext fun value => if_neg h
  rw [QueryRow.hide, Dict.get?_mapWithKey, hid, Option.map_id]
  rfl

theorem derivedCell_hide {name : String} (h : name ∉ masked) :
    (row.hide masked).derivedCell name = row.derivedCell name := by
  have hlookup := Dict.lookup_map_mk
    (fun name cell => if name ∈ masked then Cell.null else cell) row.derived name
  rw [QueryRow.derivedCell, QueryRow.derivedCell, QueryRow.hide, hlookup]
  simp [h]

theorem derivedCell_hide_of_mem {name : String} (h : name ∈ masked) :
    (row.hide masked).derivedCell name = .null := by
  have hlookup := Dict.lookup_map_mk
    (fun name cell => if name ∈ masked then Cell.null else cell) row.derived name
  rw [QueryRow.derivedCell, QueryRow.hide, hlookup]
  cases row.derived.lookup name <;> simp [h]

theorem comparisonCondition_hide {name : String} (h : name ∉ masked) (op : FilterOperation)
    (value : Json) : comparisonCondition sql schema (row.hide masked) name op value =
      comparisonCondition sql schema row name op value := by
  unfold comparisonCondition
  rw [stored_hide h, derivedCell_hide h]

mutual

/-- A filter that compares no masked property does not see them. -/
theorem filterCondition_hide : ∀ filter : Filter, (∀ name ∈ filter.properties, name ∉ masked) →
    filterCondition sql schema (row.hide masked) filter = filterCondition sql schema row filter
  | .and items, h => by
    rw [filterCondition, filterCondition, allConditions_hide items (by simpa [Filter.properties])]
  | .or items, h => by
    rw [filterCondition, filterCondition, anyCondition_hide items (by simpa [Filter.properties])]
  | .property name op value, h => by
    rw [filterCondition, filterCondition, comparisonCondition_hide (h name (by
      simp [Filter.properties]))]

theorem allConditions_hide : ∀ items : List Filter,
    (∀ name ∈ filterProperties items, name ∉ masked) →
      allConditions sql schema (row.hide masked) items = allConditions sql schema row items
  | [], _ => rfl
  | item :: items, h => by
    rw [filterProperties, List.forall_mem_append] at h
    rw [allConditions, allConditions, filterCondition_hide item h.1, allConditions_hide items h.2]

theorem anyCondition_hide : ∀ items : List Filter,
    (∀ name ∈ filterProperties items, name ∉ masked) →
      anyCondition sql schema (row.hide masked) items = anyCondition sql schema row items
  | [], _ => rfl
  | item :: items, h => by
    rw [filterProperties, List.forall_mem_append] at h
    rw [anyCondition, anyCondition, filterCondition_hide item h.1, anyCondition_hide items h.2]

end

theorem sortKey_hide {name : String} (h : name ∉ masked) :
    sortKey schema (row.hide masked) name = sortKey schema row name := by
  unfold sortKey
  rw [stored_hide h, derivedCell_hide h]

theorem valueCell_hide {name : String} (h : name ∉ masked) :
    valueCell schema (row.hide masked) name = valueCell schema row name := by
  unfold valueCell
  rw [stored_hide h, derivedCell_hide h]

theorem sortPosition_hide {orderBy : List ObjectOrderBy}
    (h : ∀ order ∈ orderBy, order.property ∉ masked) :
    sortPosition schema orderBy (row.hide masked) = sortPosition schema orderBy row := by
  refine Prod.ext (List.map_congr_left fun order horder => ?_) rfl
  exact sortKey_hide (h order horder)

/-- Fetching a blanked row is blanking the fetched row. -/
theorem objectRowWithDerived_hide :
    objectRowWithDerived schema (row.hide masked) = (objectRowWithDerived schema row).blank masked := by
  have hderived : Dict.ofList (schema.properties.filterMap fun property =>
      property.derived.map fun spec => (property.apiName,
        derivedJson spec ((row.hide masked).derivedCell property.apiName))) =
      (Dict.ofList (schema.properties.filterMap fun property =>
        property.derived.map fun spec => (property.apiName,
          derivedJson spec (row.derivedCell property.apiName)))).mapWithKey (blankValue masked) := by
    rw [Dict.mapWithKey_ofList, List.map_filterMap]
    refine congrArg Dict.ofList (List.filterMap_congr fun property _ => ?_)
    rw [Option.map_map]
    refine Option.map_congr fun spec _ => ?_
    by_cases hname : property.apiName ∈ masked
    · simp [derivedCell_hide_of_mem hname, blankValue, hname, derivedJson]
    · simp [derivedCell_hide hname, blankValue, hname]
  unfold objectRowWithDerived ObjectRecordRow.blank
  rw [hderived]
  congr 1
  rw [QueryRow.hide, ← Dict.mapWithKey_update]
  rfl

end Row

/-! ### Pages of blanked rows -/

section Page

variable {sql : SqlEnvironment} {schema : Schema} {masked : List String} {rows : List QueryRow}

theorem matchesFilter_hide {filter : Option Filter}
    (h : ∀ f ∈ filter, ∀ name ∈ f.properties, name ∉ masked) (row : QueryRow) :
    matchesFilter sql schema filter (row.hide masked) = matchesFilter sql schema filter row := by
  cases filter with
  | none => rfl
  | some f => exact filterCondition_hide f (h f rfl)

/-- **A page is read from the rows without their masked values.** -/
theorem queryRows_hide {filter : Option Filter} {orderBy : List ObjectOrderBy}
    (hfilter : ∀ f ∈ filter, ∀ name ∈ f.properties, name ∉ masked)
    (horder : ∀ order ∈ orderBy, order.property ∉ masked) (cursor : Option Position) (limit : ℕ) :
    queryRows sql schema filter orderBy cursor limit (rows.map (QueryRow.hide masked)) =
      (queryRows sql schema filter orderBy cursor limit rows).map (QueryRow.hide masked) := by
  have hcursor : ∀ row : QueryRow, cursorCondition schema orderBy cursor (row.hide masked) =
      cursorCondition schema orderBy cursor row := by
    intro row
    unfold cursorCondition
    rw [sortPosition_hide horder]
  have hmatched : (rows.map (QueryRow.hide masked)).filter (fun row =>
      matchesFilter sql schema filter row && cursorCondition schema orderBy cursor row) =
        (rows.filter fun row => matchesFilter sql schema filter row &&
          cursorCondition schema orderBy cursor row).map (QueryRow.hide masked) := by
    rw [List.filter_map]
    refine congrArg _ (List.filter_congr fun row _ => ?_)
    rw [Function.comp_apply, matchesFilter_hide hfilter, hcursor]
  unfold queryRows
  rw [hmatched, List.map_take, orderRows, orderRows]
  refine congrArg _ (List.map_mergeSort fun a _ b _ => ?_).symm
  rw [sortPosition_hide horder, sortPosition_hide horder]

/-- A metric reads no masked property. -/
def ObjectAggregationMetric.Avoids (metric : ObjectAggregationMetric) (masked : List String) :
    Prop :=
  metric.function = .count ∨ ∃ name, metric.property = some name ∧ name ∉ masked

theorem aggregateMetric_hide {metric : ObjectAggregationMetric} (h : metric.Avoids masked) :
    aggregateMetric schema (rows.map (QueryRow.hide masked)) metric =
      aggregateMetric schema rows metric := by
  rcases h with hcount | ⟨name, hname, hmasked⟩
  · simp [aggregateMetric, hcount]
  · have hcells : (rows.map (QueryRow.hide masked)).map (fun row => valueCell schema row name) =
        rows.map fun row => valueCell schema row name := by
      rw [List.map_map]
      exact List.map_congr_left fun row _ => valueCell_hide hmasked
    simp only [aggregateMetric, hname, Option.getD_some, hcells, List.length_map]

theorem groupCells_hide {groupBy : List String} (h : ∀ name ∈ groupBy, name ∉ masked)
    (row : QueryRow) :
    groupCells schema groupBy (row.hide masked) = groupCells schema groupBy row :=
  List.map_congr_left fun name hname => valueCell_hide (h name hname)

theorem aggregateGroup_hide {groupBy : List String} {metrics : List ObjectAggregationMetric}
    (h : ∀ metric ∈ metrics, metric.Avoids masked) (cells : List Cell) (rows : List QueryRow) :
    aggregateGroup sql schema groupBy metrics cells (rows.map (QueryRow.hide masked)) =
      aggregateGroup sql schema groupBy metrics cells rows := by
  unfold aggregateGroup
  congr 1
  exact List.map_congr_left fun metric hmetric => by rw [aggregateMetric_hide (h metric hmetric)]

/-- **A rollup is computed from the rows without their masked values.** -/
theorem aggregateRows_hide {filter : Option Filter} {groupBy : List String}
    {metrics : List ObjectAggregationMetric}
    (hfilter : ∀ f ∈ filter, ∀ name ∈ f.properties, name ∉ masked)
    (hgroup : ∀ name ∈ groupBy, name ∉ masked)
    (hmetrics : ∀ metric ∈ metrics, metric.Avoids masked) (limit : ℕ) :
    aggregateRows sql schema filter groupBy metrics limit (rows.map (QueryRow.hide masked)) =
      aggregateRows sql schema filter groupBy metrics limit rows := by
  have hmatched : (rows.map (QueryRow.hide masked)).filter (matchesFilter sql schema filter) =
      (rows.filter (matchesFilter sql schema filter)).map (QueryRow.hide masked) := by
    rw [List.filter_map]
    refine congrArg _ (List.filter_congr fun row _ => ?_)
    rw [Function.comp_apply, matchesFilter_hide hfilter]
  unfold aggregateRows
  rw [hmatched]
  generalize rows.filter (matchesFilter sql schema filter) = matched
  by_cases hempty : groupBy = []
  · simp only [hempty, if_true]
    rw [show [(([] : List Cell), matched.map (QueryRow.hide masked))] =
        [([], matched)].map fun group => (group.1, group.2.map (QueryRow.hide masked)) from rfl,
      ← List.map_take, List.map_map]
    exact List.map_congr_left fun group _ => aggregateGroup_hide hmetrics group.1 group.2
  · have hcells : (matched.map (QueryRow.hide masked)).map (groupCells schema groupBy) =
        matched.map (groupCells schema groupBy) := by
      rw [List.map_map]
      exact List.map_congr_left fun row _ => groupCells_hide hgroup row
    have hgroups : ((matched.map (groupCells schema groupBy)).dedup.map fun cells =>
        (cells, (matched.map (QueryRow.hide masked)).filter fun row =>
          groupCells schema groupBy row = cells)) =
        ((matched.map (groupCells schema groupBy)).dedup.map fun cells =>
          (cells, matched.filter fun row => groupCells schema groupBy row = cells)).map
            fun group => (group.1, group.2.map (QueryRow.hide masked)) := by
      rw [List.map_map]
      refine List.map_congr_left fun cells _ => ?_
      have hfiltered : (matched.map (QueryRow.hide masked)).filter (fun row =>
          groupCells schema groupBy row = cells) =
            (matched.filter fun row => groupCells schema groupBy row = cells).map
              (QueryRow.hide masked) := by
        rw [List.filter_map]
        refine congrArg _ (List.filter_congr fun row _ => ?_)
        rw [Function.comp_apply, groupCells_hide hgroup]
      rw [hfiltered]
      rfl
    simp only [hempty, if_false]
    rw [hcells, hgroups, ← List.map_take, List.map_map]
    exact List.map_congr_left fun group _ => aggregateGroup_hide hmetrics group.1 group.2

end Page

/-! ### What a request is validated for -/

section Validation

variable {schema : Schema} {masked : List String}

theorem not_mem_of_validateQueryProperty {source name : String} {u : Unit}
    (h : validateQueryProperty schema masked source name = .ok u) : name ∉ masked := by
  simp only [validateQueryProperty, bind_eq_ok_iff, rejectIf_eq_ok_iff] at h
  exact h.choose_spec.2

/-- What the shape of a request that is accepted says of its filter and of its order. -/
theorem avoids_of_validateQueryProperties {filter : Option Mapping} {orderBy : List ObjectOrderBy}
    {u : Unit} (h : validateQueryProperties schema masked filter orderBy = .ok u) :
    (∀ order ∈ orderBy, order.property ∉ masked) ∧
      ∀ parsed, requestFilter filter = .ok parsed →
        ∀ f ∈ parsed, ∀ name ∈ f.properties, name ∉ masked := by
  simp only [validateQueryProperties, bind_eq_ok_iff, List.forM_eq_ok_iff] at h
  obtain ⟨-, horder, parsed, hparsed, h⟩ := h
  refine ⟨fun order hmem => not_mem_of_validateQueryProperty (horder order hmem), ?_⟩
  rintro parsed' hparsed' f hf name hname
  obtain rfl : parsed = parsed' := Except.ok.inj (hparsed.symm.trans hparsed')
  obtain rfl := Option.mem_def.mp hf
  simp only [bind_eq_ok_iff, List.forM_eq_ok_iff] at h
  obtain ⟨-, hnames, -⟩ := h
  exact not_mem_of_validateQueryProperty (hnames name hname)

theorem not_mem_of_requireAggregationProperty {objectType source name : String} {u : Unit}
    (h : requireAggregationProperty objectType schema masked source name = .ok u) :
    name ∉ masked := by
  simp only [requireAggregationProperty, bind_eq_ok_iff] at h
  obtain ⟨-, -, h⟩ := h
  intro hmem
  simp [hmem] at h

theorem avoids_of_metricFromRequest {objectType : String} {item : Mapping}
    {metric : ObjectAggregationMetric}
    (h : metricFromRequest objectType schema masked item = .ok metric) : metric.Avoids masked := by
  unfold metricFromRequest at h
  split at h
  next text htext =>
    split at h
    next hcount =>
      simp only [countMetric, bind_eq_ok_iff, pure_eq_ok_iff] at h
      obtain ⟨-, -, rfl⟩ := h
      exact .inl rfl
    next function hfunction =>
      unfold propertyMetric at h
      split at h
      next name hname =>
        simp only [bind_eq_ok_iff, pure_eq_ok_iff] at h
        obtain ⟨-, -, _, hrequired, -, -, rfl⟩ := h
        exact .inr ⟨name, rfl, not_mem_of_requireAggregationProperty hrequired⟩
      next => simp at h
    next => simp at h
  next => simp at h

/-- A plan names no masked property. -/
theorem avoids_of_buildAggregationPlan {objectType : String} {groupBy : List String}
    {select : List Mapping} {plan : ObjectAggregationPlan}
    (h : buildAggregationPlan objectType schema masked groupBy select = .ok plan) :
    (∀ name ∈ plan.groupBy, name ∉ masked) ∧ ∀ metric ∈ plan.metrics, metric.Avoids masked := by
  simp only [buildAggregationPlan, validatedGroupBy, validatedMetrics, bind_eq_ok_iff,
    pure_eq_ok_iff, List.forM_eq_ok_iff] at h
  obtain ⟨names, ⟨-, -, -, -, -, hnames, rfl⟩, metrics, ⟨-, -, found, hfound, -, -, rfl⟩, rfl⟩ := h
  refine ⟨fun name hname => not_mem_of_requireAggregationProperty (hnames name hname), ?_⟩
  intro metric hmetric
  obtain ⟨item, -, hitem⟩ := List.exists_mem_of_mem_mapM_eq_ok hfound hmetric
  exact avoids_of_metricFromRequest hitem

end Validation

/-! ### Requests over blanked rows -/

/-- The same is read of an object type, without the masked values. -/
structure Readable.Hides (masked : List String) (type : ServedObjectType)
    (readable hidden : Readable) : Prop where
  indexVersion : hidden.indexVersion type = readable.indexVersion type
  rows : hidden.rows type = (readable.rows type).map (QueryRow.hide masked)

/-- Nothing of a caller's object type is hidden row by row. -/
def Deployment.HasNoRowPolicies (deployment : Deployment) (ctx : RequestContext)
    (objectType : String) : Prop :=
  ∀ type, deployment.activeObjectType ctx objectType = .ok type → type.rowPolicies = []

section Requests

variable {server : Server κ} {readable hidden : Readable} {masked : List String}

/-- The masks of a caller hide what a blanked row has lost. -/
theorem objectQueryItem_blank {ctx : RequestContext} {objectType : String}
    (hmasked : server.maskedPropertyNames ctx objectType = .ok masked) (row : ObjectRecordRow) :
    server.objectQueryItem ctx objectType (row.blank masked) =
      server.objectQueryItem ctx objectType row := by
  have hvalue : ∀ (name : String) (value : Json),
      maskValue (server.policyRows ctx.tenantId) ctx.roles objectType name
        (blankValue masked name value) =
          maskValue (server.policyRows ctx.tenantId) ctx.roles objectType name value := by
    intro name value
    unfold Deployment.maskedPropertyNames maskedPropertyNames at hmasked
    split at hmasked
    next =>
      obtain rfl := pure_eq_ok_iff.mp hmasked
      simp [blankValue]
    next =>
      simp only [bind_eq_ok_iff, pure_eq_ok_iff] at hmasked
      obtain ⟨-, -, rfl⟩ := hmasked
      unfold maskValue blankValue
      simp only [List.mem_append]
      split_ifs <;> simp_all
  unfold Deployment.objectQueryItem ObjectRecordRow.blank maskProperties
  rw [List.map_map]
  congr 1
  exact List.map_congr_left fun entry _ => by rw [Function.comp_apply, hvalue]

theorem lookup_blank {row : ObjectRecordRow} {name : String} (h : name ∉ masked) :
    (row.blank masked).properties.lookup name = row.properties.lookup name := by
  have hid : blankValue masked name = id := funext fun value => if_neg h
  rw [ObjectRecordRow.blank, Dict.lookup_map_mk, hid, Option.map_id]
  rfl

theorem encode_blank {env : CursorEnvironment κ} {row : ObjectRecordRow} {scope : Scope}
    (h : ∀ order ∈ scope.orderBy, order.property ∉ masked) (now : ℤ) :
    encodeObjectQueryCursor env (row.blank masked) scope now =
      encodeObjectQueryCursor env row scope now := by
  have hvalues : (scope.orderBy.map fun order =>
      ((row.blank masked).properties.lookup order.property).getD .null) =
        scope.orderBy.map fun order => (row.properties.lookup order.property).getD .null :=
    List.map_congr_left fun order horder => by rw [lookup_blank (h order horder)]
  unfold encodeObjectQueryCursor
  congr 1
  unfold issueOf
  simp only [hvalues]
  rfl

theorem nextCursor_blank {env : CursorEnvironment κ} {records page : List ObjectRecordRow}
    {scope : Scope} (h : ∀ order ∈ scope.orderBy, order.property ∉ masked) (now : ℤ) :
    nextCursor env (records.map (ObjectRecordRow.blank masked))
      (page.map (ObjectRecordRow.blank masked)) scope now =
        nextCursor env records page scope now := by
  unfold nextCursor
  rw [List.length_map, List.length_map, List.getLast?_map]
  split_ifs
  · rfl
  · cases page.getLast? with
    | none => rfl
    | some row => exact congrArg (some <$> ·) (encode_blank h now)

/-- The scope of an accepted request avoids the masked properties. -/
theorem avoids_of_queryScope {request : ObjectQueryRequest κ} {scope : Scope}
    {type : ServedObjectType}
    (hmasked : server.maskedPropertyNames request.ctx request.objectTypeApiName = .ok masked)
    (htype : server.activeObjectType request.ctx request.objectTypeApiName = .ok type)
    (hpolicies : server.HasNoRowPolicies request.ctx request.objectTypeApiName)
    (hscope : queryScope (server.world request.ctx readable) request = .ok (some scope)) :
    scope.objectTypeApiName = request.objectTypeApiName ∧
      (∀ order ∈ scope.orderBy, order.property ∉ masked) ∧
        ∀ parsed, requestFilter scope.filter = .ok parsed →
          ∀ f ∈ parsed, ∀ name ∈ f.properties, name ∉ masked := by
  simp only [queryScope, Server.world, htype, bind_eq_ok_iff, pure_eq_ok_iff,
    Deployment.validateQueryShape] at hscope
  obtain ⟨orderBy, _, _, _, found, ⟨type', htype', rfl⟩, _, ⟨type'', htype'', names, hnames, hvalid⟩,
    hscope⟩ := hscope
  obtain rfl := Except.ok.inj htype'
  obtain rfl := Except.ok.inj htype''
  obtain rfl : names = masked := Except.ok.inj (hnames.symm.trans hmasked)
  obtain ⟨horder, hfilter⟩ := avoids_of_validateQueryProperties hvalid
  rw [hpolicies _ htype] at hscope
  obtain ⟨visible, hvisible, hscope⟩ := hscope
  obtain rfl := Except.ok.inj ((rowPolicyScope_nil _ _).symm.trans hvisible)
  simp only [RowPolicyScope.hidesAllRows, Bool.not_true, Bool.false_and, Bool.false_eq_true,
    if_false, pure_eq_ok_iff, Option.some.injEq] at hscope
  obtain rfl := hscope
  exact ⟨rfl, horder, hfilter⟩

/-- A page of blanked rows is the blanked page, with the same cursor behind it. -/
theorem queryObjects_hide {request : ObjectQueryRequest κ} {type : ServedObjectType}
    (hmasked : server.maskedPropertyNames request.ctx request.objectTypeApiName = .ok masked)
    (htype : server.activeObjectType request.ctx request.objectTypeApiName = .ok type)
    (hpolicies : server.HasNoRowPolicies request.ctx request.objectTypeApiName)
    (hhides : readable.Hides masked type hidden) (env : CursorEnvironment κ) (now issuedAt : ℤ) :
    queryObjects env (server.world request.ctx hidden) request now issuedAt =
      (fun result => (result.1.map (ObjectRecordRow.blank masked), result.2)) <$>
        queryObjects env (server.world request.ctx readable) request now issuedAt := by
  have hsame : queryScope (server.world request.ctx hidden) request =
      queryScope (server.world request.ctx readable) request := by
    simp only [queryScope, Server.world, htype, bind, Except.bind, pure, Except.pure,
      hhides.indexVersion]
  unfold queryObjects
  rw [hsame]
  cases queryLimit request.limit with
  | error e => rfl
  | ok limit =>
    cases hscope : queryScope (server.world request.ctx readable) request with
    | error e => rfl
    | ok found =>
      cases found with
      | none => rfl
      | some scope =>
        obtain ⟨hname, horder, hfilter⟩ := avoids_of_queryScope hmasked htype hpolicies hscope
        simp only [bind, Except.bind]
        cases decodeObjectQueryCursor env request.cursor scope now with
        | error e => rfl
        | ok position =>
          simp only [Server.world, hname, htype, bind, Except.bind]
          cases hparsed : requestFilter scope.filter with
          | error e => rfl
          | ok parsed =>
            have hrows : ((queryRows server.sql type.schema parsed scope.orderBy position
                (limit + 1) (hidden.rows type)).map (objectRowWithDerived type.schema)) =
                ((queryRows server.sql type.schema parsed scope.orderBy position (limit + 1)
                  (readable.rows type)).map (objectRowWithDerived type.schema)).map
                    (ObjectRecordRow.blank masked) := by
              rw [hhides.rows, queryRows_hide (hfilter parsed hparsed) horder, List.map_map,
                List.map_map]
              exact List.map_congr_left fun row _ => objectRowWithDerived_hide
            simp only [pure, Except.pure, hrows, ← List.map_take]
            rw [nextCursor_blank horder]
            cases nextCursor env _ _ scope issuedAt with
            | error e => rfl
            | ok next => rfl

/-- **The masked values of the rows influence no page.** -/
theorem Server.queryReadable_hide {request : ObjectQueryRequest κ} {type : ServedObjectType}
    (hmasked : server.maskedPropertyNames request.ctx request.objectTypeApiName = .ok masked)
    (htype : server.activeObjectType request.ctx request.objectTypeApiName = .ok type)
    (hpolicies : server.HasNoRowPolicies request.ctx request.objectTypeApiName)
    (hhides : readable.Hides masked type hidden) (now issuedAt : ℤ) :
    server.queryReadable hidden request now issuedAt =
      server.queryReadable readable request now issuedAt := by
  unfold Server.queryReadable
  rw [queryObjects_hide hmasked htype hpolicies hhides]
  cases server.requireRead request.ctx request.objectTypeApiName with
  | error e => rfl
  | ok u =>
    cases ObjectQuery.queryObjects server.cursors (server.world request.ctx readable) request now
        issuedAt with
    | error e => rfl
    | ok result =>
      have hitems : (result.1.map (ObjectRecordRow.blank masked)).map
          (server.objectQueryItem request.ctx request.objectTypeApiName) =
            result.1.map (server.objectQueryItem request.ctx request.objectTypeApiName) := by
        rw [List.map_map]
        exact List.map_congr_left fun row _ => objectQueryItem_blank hmasked row
      simp only [bind, Except.bind, Functor.map, Except.map, hitems]

/-- **The masked values of the rows influence no rollup.** -/
theorem Server.aggregateReadable_hide {request : AggregationRequest} {type : ServedObjectType}
    (hmasked : server.maskedPropertyNames request.ctx request.objectTypeApiName = .ok masked)
    (htype : server.activeObjectType request.ctx request.objectTypeApiName = .ok type)
    (hpolicies : server.HasNoRowPolicies request.ctx request.objectTypeApiName)
    (hhides : readable.Hides masked type hidden) : server.aggregateReadable hidden request =
      server.aggregateReadable readable request := by
  unfold Server.aggregateReadable
  cases server.requireRead request.ctx request.objectTypeApiName with
  | error e => rfl
  | ok u =>
    cases validateFilter request.filter with
    | error e => rfl
    | ok u =>
      cases hshape : server.validateQueryShape request.ctx request.objectTypeApiName
          request.filter [] with
      | error e => simp only [htype, bind, Except.bind]
      | ok u =>
        simp only [htype, hmasked, bind, Except.bind]
        cases hplan : buildAggregationPlan request.objectTypeApiName type.schema masked
            request.groupBy request.select with
        | error e => rfl
        | ok plan =>
          obtain ⟨hgroup, hmetrics⟩ := avoids_of_buildAggregationPlan hplan
          simp only [Deployment.validateQueryShape, htype, hmasked, bind, Except.bind] at hshape
          obtain ⟨-, hfilter⟩ := avoids_of_validateQueryProperties hshape
          simp only [Server.visibleGroups, hpolicies type htype, rowPolicyScope_nil,
            RowPolicyScope.hidesAllRows, Bool.not_true, Bool.false_and, Bool.false_eq_true,
            if_false, scopedFilter, bind, Except.bind]
          cases hparsed : requestFilter request.filter with
          | error e => rfl
          | ok parsed =>
            simp only [pure, Except.pure]
            rw [hhides.rows, aggregateRows_hide (hfilter parsed hparsed) hgroup hmetrics]

end Requests

end FoundryLite.ObjectQuery
