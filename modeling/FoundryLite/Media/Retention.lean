import FoundryLite.Library.Runs

/-!
# Retention of media versions

A version that is marked for retention is purged by a sweep, unless it is under legal hold or a
reference to it is bound to a property of an object. The sweep reads its candidates once, with their
holds, looks for bindings before each purge, deletes the row of the version, and then its bytes,
which are outside the database. Rows that it has deleted are gone for others when its transaction
is committed, and are back when it is rolled back.

A reference is bound to a version that was read as committed, in the transaction that writes the
binding; a reference to an attachment also locks the row of the version.

Database transactions read what is committed, statement by statement. A row that one of them has
deleted or locked is written by no other until it ends.
-/

namespace FoundryLite.Media.Retention

/-! ### Rows -/

/-- A row of `media_item_versions`. -/
structure MediaItemVersion where
  mediaItemVersionId : String
  blobKey : String
  isCommitted : Bool
  retentionMarkedAt : Option ℕ
  hasLegalHold : Bool
  deriving DecidableEq

/-- A property of an object, which a reference is bound to. -/
structure Holder where
  holderType : String
  holderId : String
  propertyName : String
  deriving DecidableEq

structure MediaReferenceBinding where
  holder : Holder
  mediaItemVersionId : String
  deriving DecidableEq

/-- A purge that was committed: the version as it was, and whether a binding referred to it. -/
structure Purge where
  version : MediaItemVersion
  isBound : Bool
  deriving DecidableEq

/-- Versions whose bytes are there, and bindings. -/
structure Store where
  versions : List MediaItemVersion
  bindings : List MediaReferenceBinding
  hasBlob : String → Bool
  stored : ∀ version ∈ versions, hasBlob version.blobKey = true

/-! ### What is under way -/

/-- What a sweep does next. -/
inductive SweepStep where
  | look
  /-- The version was not held, and no binding referred to it. -/
  | purge (version : MediaItemVersion)
  | deleteBlob (blobKey : String)
  deriving DecidableEq

structure Sweep where
  /-- The versions left, as they were when the sweep began. -/
  candidates : List MediaItemVersion
  step : SweepStep
  /-- The versions whose rows it has deleted, and the bytes. -/
  purged : List String
  blobs : List String
  deriving DecidableEq

inductive Binding where
  /-- `MediaBindingService.bind`, which has found a binding of the holder or not. -/
  | bind (binding : MediaReferenceBinding) (isRebind : Bool)
  /-- `bind_action_media_references`, with the attachments left to reserve. -/
  | edits (removed : List Holder) (references : List MediaReferenceBinding)
      (attachments : List String)
  deriving DecidableEq

/-- A database transaction. -/
inductive Job where
  | sweep (sweep : Sweep)
  | binding (binding : Binding)
  deriving DecidableEq

structure State (W : Type) where
  versions : List MediaItemVersion
  bindings : List MediaReferenceBinding
  hasBlob : String → Bool
  jobs : W → Option Job
  /-- Who has deleted or locked the row of a version. -/
  locks : String → Option W
  purges : List Purge

variable {W : Type} [DecidableEq W]

def State.initial (store : Store) : State W where
  versions := store.versions
  bindings := store.bindings
  hasBlob := store.hasBlob
  jobs _ := none
  locks _ := none
  purges := []

def State.setJob (s : State W) (w : W) (job : Job) : State W :=
  { s with jobs := Function.update s.jobs w (some job) }

/-- The transaction of a job ends. -/
def State.endJob (s : State W) (w : W) : State W :=
  { s with
    jobs := Function.update s.jobs w none
    locks := fun id => if s.locks id = some w then none else s.locks id }

/-! ### Statements -/

/-- `fetch_retention_marked_versions`. -/
def retentionMarkedVersions (versions : List MediaItemVersion) (cutoff : ℕ) :
    List MediaItemVersion :=
  versions.filter fun version => version.retentionMarkedAt.any fun markedAt => markedAt ≤ cutoff

/-- `has_reference_binding`. -/
def hasReferenceBinding (bindings : List MediaReferenceBinding) (id : String) : Bool :=
  bindings.any fun binding => binding.mediaItemVersionId = id

/-- `mark_versions_for_retention`. -/
def markForRetention (ids : List String) (markedAt : ℕ) (version : MediaItemVersion) :
    MediaItemVersion :=
  if version.mediaItemVersionId ∈ ids then { version with retentionMarkedAt := some markedAt }
  else version

/-- `set_version_legal_hold`. -/
def setLegalHold (id : String) (hasLegalHold : Bool) (version : MediaItemVersion) :
    MediaItemVersion :=
  if version.mediaItemVersionId = id then { version with hasLegalHold := hasLegalHold }
  else version

/-- A version as `_require_committed_version` and `_versions` want it. -/
def isCommittedVersion (versions : List MediaItemVersion) (id : String) : Bool :=
  versions.any fun version => decide (version.mediaItemVersionId = id) && version.isCommitted

/-- The versions that bindings are written to. -/
def Binding.targets : Binding → List String
  | .bind binding _ => [binding.mediaItemVersionId]
  | .edits _ references _ => references.map MediaReferenceBinding.mediaItemVersionId

/-- The bindings behind a transaction, where their holders are distinct. -/
def Binding.write (bindings : List MediaReferenceBinding) :
    Binding → Option (List MediaReferenceBinding)
  | .bind binding false =>
    if bindings.any fun other => other.holder = binding.holder then none
    else some (bindings ++ [binding])
  | .bind binding true =>
    some (bindings.map fun other => if other.holder = binding.holder then binding else other)
  | .edits removed references [] =>
    let kept := bindings.filter fun other => other.holder ∉ removed
    if ((kept ++ references).map MediaReferenceBinding.holder).Nodup then some (kept ++ references)
    else none
  | .edits _ _ (_ :: _) => none

/-! ### Steps -/

inductive Event (W : Type) where
  | markForRetention (ids : List String) (markedAt : ℕ)
  | setLegalHold (id : String) (hasLegalHold : Bool)
  | beginSweep (w : W) (cutoff : ℕ)
  | sweepOne (w : W)
  | purgeVersion (w : W)
  | deleteBlob (w : W)
  | finishSweep (w : W)
  | checkBind (w : W) (binding : MediaReferenceBinding)
  | checkEdits (w : W) (removed : List Holder) (references : List MediaReferenceBinding)
      (attachments : List String)
  | reserve (w : W)
  | writeBindings (w : W)
  /-- An exception or a crash: the transaction is rolled back. -/
  | rollBack (w : W)
  deriving DecidableEq

/-- What is left behind when a sweep is committed. -/
def finishSweep (s : State W) (w : W) (sweep : Sweep) : State W :=
  { s.endJob w with
    versions := s.versions.filter fun version => version.mediaItemVersionId ∉ sweep.purged
    purges := s.purges ++
      (s.versions.filter fun version => version.mediaItemVersionId ∈ sweep.purged).map
        fun version => ⟨version, hasReferenceBinding s.bindings version.mediaItemVersionId⟩ }

/-- What an event does, where it can happen. -/
def next (s : State W) : Event W → Option (State W)
  | .markForRetention ids markedAt =>
    if ids.any fun id => s.locks id ≠ none then none
    else some { s with versions := s.versions.map (markForRetention ids markedAt) }
  | .setLegalHold id hasLegalHold =>
    if s.locks id ≠ none then none
    else some { s with versions := s.versions.map (setLegalHold id hasLegalHold) }
  | .beginSweep w cutoff =>
    if s.jobs w ≠ none then none
    else some (s.setJob w (.sweep ⟨retentionMarkedVersions s.versions cutoff, .look, [], []⟩))
  | .sweepOne w =>
    match s.jobs w with
    | some (.sweep ⟨version :: candidates, .look, purged, blobs⟩) =>
      if version.hasLegalHold || hasReferenceBinding s.bindings version.mediaItemVersionId then
        some (s.setJob w (.sweep ⟨candidates, .look, purged, blobs⟩))
      else some (s.setJob w (.sweep ⟨candidates, .purge version, purged, blobs⟩))
    | _ => none
  | .purgeVersion w =>
    match s.jobs w with
    | some (.sweep ⟨candidates, .purge version, purged, blobs⟩) =>
      if s.locks version.mediaItemVersionId ∉ [none, some w] then none
      else if s.versions.any fun other =>
          other.mediaItemVersionId = version.mediaItemVersionId then
        some { s.setJob w (.sweep ⟨candidates, .deleteBlob version.blobKey,
            version.mediaItemVersionId :: purged, blobs⟩) with
          locks := Function.update s.locks version.mediaItemVersionId (some w) }
      else
        -- Another sweep has purged it: no row is deleted, and the sweep goes on.
        some (s.setJob w (.sweep ⟨candidates, .deleteBlob version.blobKey, purged, blobs⟩))
    | _ => none
  | .deleteBlob w =>
    match s.jobs w with
    | some (.sweep ⟨candidates, .deleteBlob blobKey, purged, blobs⟩) =>
      some { s.setJob w (.sweep ⟨candidates, .look, purged, blobKey :: blobs⟩) with
        hasBlob := Function.update s.hasBlob blobKey false }
    | _ => none
  | .finishSweep w =>
    match s.jobs w with
    | some (.sweep ⟨[], .look, purged, blobs⟩) => some (finishSweep s w ⟨[], .look, purged, blobs⟩)
    | _ => none
  | .checkBind w binding =>
    if s.jobs w ≠ none then none
    else if isCommittedVersion s.versions binding.mediaItemVersionId then
      some (s.setJob w (.binding (.bind binding
        (s.bindings.any fun other => other.holder = binding.holder))))
    else none
  | .checkEdits w removed references attachments =>
    if s.jobs w ≠ none then none
    else if references.all fun binding => isCommittedVersion s.versions binding.mediaItemVersionId then
      some (s.setJob w (.binding (.edits removed references attachments)))
    else none
  | .reserve w =>
    match s.jobs w with
    | some (.binding (.edits removed references (id :: attachments))) =>
      if s.locks id ∉ [none, some w] then none
      else if s.versions.any fun version => version.mediaItemVersionId = id then
        some { s.setJob w (.binding (.edits removed references attachments)) with
          locks := Function.update s.locks id (some w) }
      else none
    | _ => none
  | .writeBindings w =>
    match s.jobs w with
    | some (.binding binding) =>
      (binding.write s.bindings).map fun bindings => { s.endJob w with bindings := bindings }
    | _ => none
  | .rollBack w => some (s.endJob w)

end FoundryLite.Media.Retention
