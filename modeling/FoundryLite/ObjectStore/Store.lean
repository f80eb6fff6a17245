import FoundryLite.Library.Table
import FoundryLite.Library.Transaction
import FoundryLite.Serialiser
import Mathlib.Data.PNat.Basic

/-!
# The object store

The tables that hold objects, links and the edits actions made to them, and the transactions that
read and write them. Everything that writes to the store (action commits, reverts, index rebuilds,
change-data-capture batches) is a transaction over one `Store`.

An object is stored once for each index version it is filed under. Two flags decide what a reader
sees: a row is visible when it is active and not deleted (`ObjectRecord.isVisible`). The unique key
of a row, `ObjectRecord.identity`, mentions neither flag, so a row that nobody sees still occupies
its key.

Names and row ids of the ontology are never empty, which `Name` carries. A row of the ontology is
referred to by its id, and the id determines the row, so an `ObjectTypeId` holds the id together
with the api name of its row; the columns of the source that repeat the api name beside the id are
read off it.

## Main definitions

* `ObjectRecord`, `ObjectLink`, `ObjectEdit`, `ActionRun`, `ActionLogEntry`: the rows.
* `Store`, `IndexedStore`: the tables, and the tables with the bookkeeping of the indexers.
* `Tx`: a transaction.
* `Environment`: the clock and the id source, which may return anything.
-/

namespace FoundryLite.ObjectStore

instance neZeroOne : NeZero 1 := ⟨Nat.one_ne_zero⟩

instance lawfulBEqPair : LawfulBEq (String × String) := inferInstance

/-! ### Ontology rows -/

/-- A name or row id of the ontology: the ontology refuses an empty one. -/
abbrev Name := { s : String // s ≠ "" }

/-- The id of an object type row, with the api name of that row. Each published version of the
ontology has its own row, and so its own id, for an api name. -/
structure ObjectTypeId where
  id : Name
  apiName : Name
  deriving DecidableEq

structure LinkTypeRow where
  id : Name
  apiName : Name
  fromObjectType : ObjectTypeId
  toObjectType : ObjectTypeId
  deriving DecidableEq

/-- A dictionary of properties. -/
abbrev PropertyMap := Dict String Json

/-! ### Objects -/

structure ObjectRecord where
  id : String
  tenantId : String
  objectType : ObjectTypeId
  objectId : String
  indexVersion : String
  isActive : Bool
  properties : PropertyMap
  baseProperties : PropertyMap
  editProperties : PropertyMap
  propertyVersions : PropertyMap
  sourceDatasetVersionId : Option String
  sourceHash : Option String
  objectVersion : ℕ+
  objectChangeSequence : ℕ
  deleted : Bool
  deletionReason : Option String
  createdAt : String
  updatedAt : String
  deriving DecidableEq

/-- The unique key of an object row: tenant, object type, object id and index version. -/
structure ObjectKey where
  tenantId : String
  objectType : ObjectTypeId
  objectId : String
  indexVersion : String
  deriving DecidableEq

namespace ObjectRecord

def identity (record : ObjectRecord) : ObjectKey :=
  ⟨record.tenantId, record.objectType, record.objectId, record.indexVersion⟩

/-- What a reader of objects may see: active, and not deleted. -/
def isVisible (record : ObjectRecord) : Bool := record.isActive && !record.deleted

end ObjectRecord

/-! ### Links -/

structure ObjectLink where
  id : String
  tenantId : String
  linkType : LinkTypeRow
  fromObjectId : String
  toObjectId : String
  indexVersion : String
  isActive : Bool
  properties : PropertyMap
  sourceDatasetVersionId : Option String
  linkVersion : ℕ
  deleted : Bool
  deletionReason : Option String
  updatedAt : String
  deriving DecidableEq

/-- The ends of a link, whatever index version it is filed under. -/
structure LinkEnds where
  tenantId : String
  linkType : LinkTypeRow
  fromObjectId : String
  toObjectId : String
  deriving DecidableEq

namespace ObjectLink

def ends (link : ObjectLink) : LinkEnds :=
  ⟨link.tenantId, link.linkType, link.fromObjectId, link.toObjectId⟩

/-- The unique key of a link row: its ends and its index version. -/
def identity (link : ObjectLink) : LinkEnds × String := (link.ends, link.indexVersion)

def isVisible (link : ObjectLink) : Bool := link.isActive && !link.deleted

end ObjectLink

/-! ### Edits and runs -/

inductive EditOperation where
  | createObject
  | setProperty
  | deleteObject
  | createLink
  | deleteLink
  deriving DecidableEq

/-- The kind of an edit row: an edit an action made, or the inverse a revert made of one. -/
inductive EditType where
  | edit (operation : EditOperation)
  | revert (original : EditType)
  deriving DecidableEq

/-- What an edit overlay held under a key before a patch. -/
structure PriorValue where
  wasPresent : Bool
  value : Json
  deriving DecidableEq

/-- The inverse-operation evidence stored with an edit. -/
inductive RevertPayload where
  | setProperty (committedObjectVersion : ℕ+) (properties : Dict String PriorValue)
  | createObject (committedObjectVersion : ℕ+)
  | deleteObject (committedObjectVersion : ℕ+)
  | createLink (linkType : LinkTypeRow) (fromObjectId toObjectId : String) (expectedActive : Bool)
  | deleteLink (linkType : LinkTypeRow) (fromObjectId toObjectId : String) (expectedActive : Bool)
  deriving DecidableEq

structure ObjectEdit where
  id : String
  tenantId : String
  actionRunId : String
  objectType : ObjectTypeId
  objectId : String
  editType : EditType
  patch : PropertyMap
  previousValues : PropertyMap
  actorUserId : String
  idempotencyKey : String
  createdAt : String
  revertPayload : Option RevertPayload
  deriving DecidableEq

inductive ActionRunStatus where
  | received
  | externalPending
  | queued
  | running
  | commitPending
  | cancelling
  | cancelled
  | succeeded
  | failed
  | conflict
  | retryable
  | outcomeUnknown
  | compensationRequired
  | reconciled
  deriving DecidableEq

/-- The statuses a compare-and-set may leave, and the one it reaches. -/
structure StatusTransition where
  fromStatuses : List ActionRunStatus
  toStatus : ActionRunStatus

def actionRunSucceeded : StatusTransition := ⟨[.received, .externalPending], .succeeded⟩

def actionRunAsyncSucceeded : StatusTransition := ⟨[.commitPending], .succeeded⟩

structure ActionRun where
  id : String
  tenantId : String
  actorUserId : String
  status : ActionRunStatus
  completedAt : Option String
  deriving DecidableEq

inductive RevertStatus where
  | eligible
  | notAllowed
  | reverted
  deriving DecidableEq

structure ActionLogEntry where
  tenantId : String
  actionRunId : String
  status : ActionRunStatus
  revertAllowed : Bool
  revertStatus : RevertStatus
  revertedByRunId : Option String
  deriving DecidableEq

/-! ### The store -/

structure Store where
  objects : Table ObjectRecord.id ObjectRecord.identity
  links : Table ObjectLink.id ObjectLink.identity
  /-- The immutable version history: one snapshot for each object write. -/
  objectVersions : List ObjectRecord
  edits : List ObjectEdit
  actionRuns : List ActionRun
  actionLogs : List ActionLogEntry
  /-- The last object change sequence of each tenant. -/
  changeCounters : String → ℕ
  /-- How often the clock and the id source have been read. -/
  ticks : ℕ

/-- The store before anything was written. -/
def Store.empty : Store where
  objects := ∅
  links := ∅
  objectVersions := []
  edits := []
  actionRuns := []
  actionLogs := []
  changeCounters := fun _ => 0
  ticks := 0

/-- A transaction over the store. -/
abbrev Tx (α : Type) := Transaction FoundryLiteError Store α

/-- The store with the bookkeeping of the indexers, which no action reads or writes. -/
structure IndexedStore where
  tables : Store
  /-- The active index version of a tenant's object type, where one has been switched to. -/
  indexPointers : String → ObjectTypeId → Option String
  /-- The stored source-row hashes of a tenant's object type, by object id. -/
  rowHashes : String → ObjectTypeId → Dict String String

def IndexedStore.empty : IndexedStore where
  tables := Store.empty
  indexPointers := fun _ _ => none
  rowHashes := fun _ _ => ∅

/-- The clock, the source of new ids, and the text forms of values. Nothing is assumed of what
they return: two readings of the clock may be equal or out of order. -/
structure Environment extends Serialiser where
  nowAt : ℕ → String
  newIdAt : ℕ → String

structure RequestContext where
  tenantId : String
  actorUserId : String

/-- One tick of the environment. -/
def tick : Tx ℕ := do
  let store ← get
  set { store with ticks := store.ticks + 1 }
  return store.ticks

def now (env : Environment) : Tx String := env.nowAt <$> tick

def newId (env : Environment) (kind : String) : Tx String :=
  (fun n => kind ++ "_" ++ env.newIdAt n) <$> tick

/-- Go on, or refuse with an error. -/
def demand (holds : Bool) (error : FoundryLiteError) : Tx Unit :=
  if holds then pure () else throw error

/-- The value that is there, or refuse with an error. -/
def demandSome {α : Type} (value? : Option α) (error : FoundryLiteError) : Tx α :=
  match value? with
  | some value => pure value
  | none => throw error

@[simp]
theorem demand_eq_ok_iff {holds : Bool} {error : FoundryLiteError} {s : Store} {r : Unit × Store} :
    demand holds error s = .ok r ↔ holds ∧ ((), s) = r := by
  cases holds <;> simp [demand]

@[simp]
theorem demandSome_eq_ok_iff {α : Type} {value? : Option α} {error : FoundryLiteError} {s : Store}
    {r : α × Store} :
    demandSome value? error s = .ok r ↔ ∃ value, value? = some value ∧ (value, s) = r := by
  cases value? <;> simp [demandSome]

end FoundryLite.ObjectStore
