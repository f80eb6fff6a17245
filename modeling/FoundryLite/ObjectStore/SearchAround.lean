import FoundryLite.Errors
import FoundryLite.Library.Traversal

/-!
# Search-around

A search-around starts from the objects of a type that pass a filter and follows a chain of links,
each from either of its ends. Every hop reads the links of one object after the other, and gives up
where the distinct objects behind it are too many. Of the objects that the last hop leads to, those
are returned that are there and that the caller may see.

The links of an object are read up to `MAX_LINK_FANOUT`, in the order of the ids at their far ends.
-/

namespace FoundryLite.SearchAround

open Traversal

def maxLinkFanout : ℕ := 1000

def maxSearchAroundHops : ℕ := 3

def searchAroundResultLimit : ℕ := 100000

/-! ### What is stored -/

/-- A row of `object_links`. -/
structure LinkRow where
  linkTypeApiName : String
  fromApiName : String
  fromObjectId : String
  toApiName : String
  toObjectId : String
  isActive : Bool
  deleted : Bool
  deriving DecidableEq

structure LinkType where
  fromApiName : String
  toApiName : String
  deriving DecidableEq

/-- A row of `object_records`. -/
structure ObjectRecord (P : Type) where
  objectTypeApiName : String
  objectId : String
  isActive : Bool
  deleted : Bool
  properties : P

structure Database (P : Type) where
  links : List LinkRow
  records : List (ObjectRecord P)
  /-- The order of texts by which rows are sorted. -/
  textLe : String → String → Bool
  /-- Whether a statement can have a list of that many values. -/
  takesList : ℕ → Bool

/-- What the search asks of the ontology, of the policies, and of the query of the source. -/
structure Caller (P : Type) where
  linkTypes : String → Option LinkType
  mayReadLink : String → Bool
  /-- `_active_object_type` and `row_policy_scope` of the type, with `row_visible` of the scope. -/
  rowScope : String → Checked (P → Checked Bool)
  sourceIds : String → Mapping → Checked (List String)

variable {P : Type}

/-! ### Reads -/

def activeLinksFrom (db : Database P) (linkType fromApi fromId : String) (limit : ℕ) :
    List LinkRow :=
  let rows := db.links.filter fun row =>
    row.linkTypeApiName = linkType && row.isActive && row.fromApiName = fromApi &&
      row.fromObjectId = fromId && !row.deleted
  (rows.mergeSort fun x y => db.textLe x.toObjectId y.toObjectId).take limit

def activeLinksTo (db : Database P) (linkType toApi toId : String) (limit : ℕ) : List LinkRow :=
  let rows := db.links.filter fun row =>
    row.linkTypeApiName = linkType && row.isActive && row.toApiName = toApi &&
      row.toObjectId = toId && !row.deleted
  (rows.mergeSort fun x y => db.textLe x.fromObjectId y.fromObjectId).take limit

def activeObjectRecordsByIds (db : Database P) (objectType : String) (ids : List String) :
    Checked (List (ObjectRecord P)) :=
  if ids = [] then pure []
  else if db.takesList ids.length then
    pure (db.records.filter fun row =>
      row.objectTypeApiName = objectType && ids.contains row.objectId && row.isActive &&
        !row.deleted)
  else throw (databaseError "too many values in a list")

/-! ### The definition -/

/-- `searchAround.from`: the type of the source and the filter on it. -/
def searchAroundSource (searchAround : Mapping) : Checked (String × Mapping) :=
  match searchAround.lookup "from" with
  | some (.obj source) =>
    match source.lookup "objectType" with
    | some (.str sourceType) => do
      rejectIf (sourceType = "") "searchAround from requires an objectType"
      let filter := (source.lookup "filter").getD .null
      match if filter.isTruthy then filter else .obj [] with
      | .obj filterAst => pure (sourceType, filterAst)
      | _ => validationFailed "searchAround from filter must be an object"
    | _ => validationFailed "searchAround from requires an objectType"
  | _ => validationFailed "searchAround requires a from set"

def searchAroundHops (searchAround : Mapping) : Checked (List Mapping) :=
  match searchAround.lookup "hops" with
  | some (.arr hops) => do
    rejectIf (hops = []) "searchAround requires at least one hop"
    rejectIf (maxSearchAroundHops < hops.length) "search-around chain is too long"
      [("hops", .int hops.length), ("maxHops", .int maxSearchAroundHops)]
    hops.mapM fun
      | .obj hop => pure hop
      | _ => validationFailed "searchAround hop must be an object"
  | _ => validationFailed "searchAround requires at least one hop"

def searchAroundParts : Json → Checked (String × Mapping × List Mapping)
  | .obj searchAround => do
    let (sourceType, filterAst) ← searchAroundSource searchAround
    let hops ← searchAroundHops searchAround
    pure (sourceType, filterAst, hops)
  | _ => validationFailed "searchAround must be an object"

/-- The name of the link type of a hop. -/
def hopLink (index : ℕ) (hop : Mapping) : Checked String :=
  match hop.lookup "link" with
  | some (.str linkApi) => do
    rejectIf (linkApi = "") "search-around hop requires a link type" [("hop", .int index)]
    pure linkApi
  | _ => validationFailed "search-around hop requires a link type" [("hop", .int index)]

def requireSearchAroundLinkReads (caller : Caller P) (hops : List Mapping) : Checked Unit :=
  hops.zipIdx.forM fun (hop, index) => do
    let linkApi ← hopLink index hop
    if caller.mayReadLink linkApi then pure ()
    else throw (permissionDenied "link read scope required")

/-! ### The chain of hops -/

def validatedSearchAroundHops (caller : Caller P) (hops : List Mapping) :
    Checked (List (String × LinkType)) := do
  rejectIf (hops = []) "search-around requires at least one link hop"
  rejectIf (maxSearchAroundHops < hops.length) "search-around chain is too long"
    [("hops", .int hops.length), ("maxHops", .int maxSearchAroundHops)]
  hops.zipIdx.mapM fun (hop, index) => do
    let linkApi ← hopLink index hop
    match caller.linkTypes linkApi with
    | some linkType => pure (linkApi, linkType)
    | none => validationFailed "search-around link type not found" [("linkType", .str linkApi)]

/-- The opposite side of a link. -/
def searchAroundNextObjectType (linkType : LinkType) (currentType : String) : Checked String :=
  if linkType.fromApiName = currentType then pure linkType.toApiName
  else if linkType.toApiName = currentType then pure linkType.fromApiName
  else validationFailed "search-around link does not touch the current object type"
    [("expected", .str currentType), ("from", .str linkType.fromApiName),
      ("to", .str linkType.toApiName)]

/-- A hop, with the type of the objects that it starts from and the end that they are at. -/
structure Leg where
  linkApi : String
  currentType : String
  isOutgoing : Bool
  deriving DecidableEq

def searchAroundLinkTargets (db : Database P) (leg : Leg) (objectId : String) : List String :=
  if leg.isOutgoing then
    (activeLinksFrom db leg.linkApi leg.currentType objectId maxLinkFanout).map LinkRow.toObjectId
  else
    (activeLinksTo db leg.linkApi leg.currentType objectId maxLinkFanout).map LinkRow.fromObjectId

def searchAroundHop (db : Database P) (current : String × List String)
    (hop : String × LinkType) : Checked (String × List String) := do
  let nextType ← searchAroundNextObjectType hop.2 current.1
  let leg : Leg := ⟨hop.1, current.1, decide (hop.2.fromApiName = current.1)⟩
  match boundedDistinct searchAroundResultLimit []
      (current.2.flatMap (searchAroundLinkTargets db leg)) with
  | some objectIds => pure (nextType, objectIds)
  | none =>
    validationFailed "search-around result exceeds the object set limit"
      [("linkType", .str hop.1), ("limit", .int searchAroundResultLimit)]

def resolveSearchAroundObjectIds (db : Database P) (caller : Caller P) (fromType : String)
    (fromIds : List String) (hops : List Mapping) : Checked (String × List String) := do
  let resolved ← validatedSearchAroundHops caller hops
  resolved.foldlM (searchAroundHop db) (fromType, fromIds.eraseDups)

/-! ### The search -/

/-- The record that is read for an object, the last one where there are several. -/
def recordOf (records : List (ObjectRecord P)) (objectId : String) : Option (ObjectRecord P) :=
  records.reverse.find? fun record => record.objectId = objectId

def memberVisible (records : List (ObjectRecord P)) (rowVisible : P → Checked Bool)
    (objectId : String) : Checked Bool :=
  match recordOf records objectId with
  | some record => rowVisible record.properties
  | none => pure false

/-- The first object of which it cannot be said whether it is visible ends the search. -/
def visibleIds (isVisible : String → Checked Bool) : List String → Checked (List String)
  | [] => pure []
  | objectId :: objectIds => do
    let included ← isVisible objectId
    let rest ← visibleIds isVisible objectIds
    pure (if included then objectId :: rest else rest)

def visibleSearchAroundMembers (db : Database P) (caller : Caller P) (objectType : String)
    (objectIds : List String) : Checked (List String) := do
  let records ← activeObjectRecordsByIds db objectType objectIds
  let rowVisible ← caller.rowScope objectType
  visibleIds (memberVisible records rowVisible) objectIds

def searchAroundObjectSetMembers (db : Database P) (caller : Caller P) (objectType : String)
    (definition : Json) : Checked (List String) := do
  let (sourceType, filterAst, hops) ← searchAroundParts definition
  let sourceIds ← caller.sourceIds sourceType filterAst
  requireSearchAroundLinkReads caller hops
  let (resolvedType, objectIds) ←
    resolveSearchAroundObjectIds db caller sourceType sourceIds hops
  rejectIf (resolvedType ≠ objectType)
    "search-around result type does not match the stored object type"
    [("declared", .str objectType), ("resolved", .str resolvedType)]
  visibleSearchAroundMembers db caller objectType objectIds

/-! ### What the links lead to -/

/-- The chain of hops from a type, and the type it ends at. -/
def legs (currentType : String) : List (String × LinkType) → Checked (String × List Leg)
  | [] => pure (currentType, [])
  | (linkApi, linkType) :: hops => do
    let nextType ← searchAroundNextObjectType linkType currentType
    let (resolvedType, rest) ← legs nextType hops
    pure (resolvedType, ⟨linkApi, currentType, decide (linkType.fromApiName = currentType)⟩ :: rest)

/-- Where a search starts from and the chain it follows, if its definition is accepted. -/
def question (caller : Caller P) (objectType : String) (definition : Json) :
    Checked (List String × List Leg) := do
  let (sourceType, filterAst, hops) ← searchAroundParts definition
  let sourceIds ← caller.sourceIds sourceType filterAst
  requireSearchAroundLinkReads caller hops
  let resolved ← validatedSearchAroundHops caller hops
  let (resolvedType, route) ← legs sourceType resolved
  rejectIf (resolvedType ≠ objectType)
    "search-around result type does not match the stored object type"
    [("declared", .str objectType), ("resolved", .str resolvedType)]
  pure (sourceIds, route)

/-- An active link leads from the one object to the other. -/
def Follows (db : Database P) (leg : Leg) (x y : String) : Prop :=
  ∃ row ∈ db.links, row.linkTypeApiName = leg.linkApi ∧ row.isActive = true ∧
    row.deleted = false ∧
      if leg.isOutgoing then
        row.fromApiName = leg.currentType ∧ row.fromObjectId = x ∧ row.toObjectId = y
      else row.toApiName = leg.currentType ∧ row.toObjectId = x ∧ row.fromObjectId = y

def activeRecords (db : Database P) (objectType : String) : List (ObjectRecord P) :=
  db.records.filter fun row => row.objectTypeApiName = objectType && row.isActive && !row.deleted

/-- An object is there, and the caller may see it. -/
def IsVisible (db : Database P) (caller : Caller P) (objectType objectId : String) : Prop :=
  ∃ rowVisible, caller.rowScope objectType = .ok rowVisible ∧
    memberVisible (activeRecords db objectType) rowVisible objectId = .ok true

/-- What a search returns is what the links lead to from its source and the caller may see, each
object once. -/
def SearchesExactly (db : Database P) (caller : Caller P) (objectType : String)
    (definition : Json) : Prop :=
  ∀ ids, searchAroundObjectSetMembers db caller objectType definition = .ok ids →
    ∃ start route, question caller objectType definition = .ok (start, route) ∧ ids.Nodup ∧
      ∀ y, y ∈ ids ↔ IsVisible db caller objectType y ∧
        y ∈ Reached (Follows db) {x | x ∈ start} route

end FoundryLite.SearchAround
