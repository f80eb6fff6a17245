import FoundryLite.Library.Runs
import FoundryLite.Runtime.StatusCas
import Mathlib.Data.List.MinMax

/-!
# Media transactions

Versions of media items are uploaded into an open media transaction. The bytes land under the object
key of the upload session, outside the database; the row of the version is inserted behind them, in
a transaction that reads once more whether the media transaction is open. When the upload fails
after its bytes were written, it deletes them.

A commit moves the staged versions of the media transaction, makes the latest of each item its head,
and moves the media transaction last, all in one database transaction. What was staged into a
transaction that is not open any more is unreachable, and a sweep deletes its bytes.

Database transactions read what is committed, statement by statement. What one of them has written
is locked until it ends.
-/

namespace FoundryLite.Media

open FoundryLite.Runtime

/-! ### Rows -/

inductive MediaTransactionStatus where
  | isOpen | committed | aborted
  deriving DecidableEq

inductive MediaVersionStatus where
  | staged | committed
  deriving DecidableEq

def mediaVersionCommitted : StatusTransition MediaVersionStatus := ⟨[.staged], .committed⟩

/-- A row of `media_item_versions`. What was measured of the bytes is their hash. -/
structure MediaItemVersion where
  mediaItemVersionId : ℕ
  mediaItemId : String
  mediaTransactionId : String
  versionNumber : ℕ
  blobKey : String
  contentHash : String
  status : MediaVersionStatus
  createdAt : ℕ
  deriving DecidableEq

/-- `cas_status_update_many` on versions: those it applies to. -/
def commitVersion (ids : List ℕ) (version : MediaItemVersion) : MediaItemVersion :=
  (casStatusUpdate mediaVersionCommitted version.status
    (decide (version.mediaItemVersionId ∈ ids)) fun status => { version with status }).getD version

/-! ### What is under way -/

/-- An upload session, with the transaction and the item it is for. -/
structure UploadSession where
  mediaTransactionId : String
  mediaItemId : String
  stagedObjectKey : String
  deriving DecidableEq

/-- How far a completion of an upload session is. -/
inductive UploadPhase where
  /-- The transaction was read as open. -/
  | checked
  | written
  | completed (contentHash : String)
  /-- It was read as open in the transaction that inserts the version. -/
  | reserved (contentHash : String)
  deriving DecidableEq

structure Upload where
  session : UploadSession
  phase : UploadPhase
  deriving DecidableEq

/-- How far a commit is, and what its transaction has written. -/
inductive CommitPhase where
  | begun
  /-- The versions that it moved. -/
  | marked (ids : List ℕ)
  /-- The versions that are left to become heads, the head that it read of the first one's item, and
  the heads it has set. -/
  | advancing (ids : List ℕ) (rest : List MediaItemVersion) (current : Option (Option ℕ))
      (heads : List (String × ℕ))
  deriving DecidableEq

structure Commit where
  mediaTransactionId : String
  phase : CommitPhase
  deriving DecidableEq

structure State (W : Type) where
  transactions : String → Option MediaTransactionStatus
  versions : List MediaItemVersion
  /-- The head of each item. -/
  heads : String → Option ℕ
  /-- The hash of the bytes under each object key. -/
  blobs : String → Option String
  uploads : W → Option Upload
  commits : W → Option Commit
  /-- The commits that have written a version, or the head of an item, and are under way. -/
  versionLocks : ℕ → Option W
  itemLocks : String → Option W
  /-- The object keys that a sweep has left to delete. -/
  sweeps : W → List String

variable {W : Type} [DecidableEq W]

def State.initial : State W where
  transactions _ := none
  versions := []
  heads _ := none
  blobs _ := none
  uploads _ := none
  commits _ := none
  versionLocks _ := none
  itemLocks _ := none
  sweeps _ := []

def State.setUpload (s : State W) (w : W) (upload : Option Upload) : State W :=
  { s with uploads := Function.update s.uploads w upload }

def State.setCommit (s : State W) (w : W) (commit : Commit) : State W :=
  { s with commits := Function.update s.commits w (some commit) }

def release {ι : Type} (locks : ι → Option W) (w : W) (i : ι) : Option W :=
  if locks i = some w then none else locks i

/-- A commit ends: what it has locked is free. -/
def State.endCommit (s : State W) (w : W) : State W :=
  { s with
    commits := Function.update s.commits w none
    versionLocks := release s.versionLocks w
    itemLocks := release s.itemLocks w }

def State.setBlob (s : State W) (key : String) (contentHash : Option String) : State W :=
  { s with blobs := Function.update s.blobs key contentHash }

/-! ### Statements -/

/-- `next_version_number`. -/
def nextVersionNumber (s : State W) (itemId : String) : ℕ :=
  ((s.versions.filter fun version => version.mediaItemId = itemId).map
    MediaItemVersion.versionNumber).foldr max 0 + 1

/-- `insert_version`, where no version with the same bytes under the same key is there. -/
def insertVersion (s : State W) (session : UploadSession) (contentHash : String) (now : ℕ) :
    State W :=
  if s.versions.any fun version => version.contentHash = contentHash &&
      version.blobKey = session.stagedObjectKey then s
  else { s with
    versions := s.versions ++ [⟨s.versions.length, session.mediaItemId, session.mediaTransactionId,
      nextVersionNumber s session.mediaItemId, session.stagedObjectKey, contentHash, .staged, now⟩] }

/-- The versions of a transaction, as it sees those that it has moved. -/
def transactionVersions (s : State W) (transactionId : String) (ids : List ℕ) :
    List MediaItemVersion :=
  (s.versions.filter fun version => version.mediaTransactionId = transactionId).map
    (commitVersion ids)

/-- `_latest_version_by_item`. -/
def latestVersionByItem (committed : List MediaItemVersion) : List MediaItemVersion :=
  committed.foldl (fun latest version =>
    match latest.find? fun other => other.mediaItemId = version.mediaItemId with
    | none => latest ++ [version]
    | some current =>
      if current.versionNumber < version.versionNumber then
        latest.map fun other => if other.mediaItemId = version.mediaItemId then version else other
      else latest) []

/-- `fetch_unreachable_staged_versions`. -/
def unreachableStagedVersions (s : State W) (olderThan : ℕ) : List MediaItemVersion :=
  s.versions.filter fun version => decide (version.status = .staged) &&
    decide (version.createdAt < olderThan) &&
      decide (s.transactions version.mediaTransactionId ≠ some .isOpen)

/-! ### Steps -/

inductive Event (W : Type) where
  | openTransaction (transactionId : String)
  | checkUpload (w : W) (session : UploadSession)
  | writeStaged (w : W) (contentHash : String)
  | completeStaged (w : W)
  | reserve (w : W)
  | insert (w : W) (now : ℕ)
  /-- An exception behind the write. -/
  | failUpload (w : W)
  | dropUpload (w : W)
  | beginCommit (w : W) (transactionId : String)
  | markVersions (w : W)
  | selectVersions (w : W)
  | readHead (w : W)
  | casHead (w : W)
  | finishCommit (w : W)
  | dropCommit (w : W)
  | abort (transactionId : String)
  | beginSweep (w : W) (olderThan : ℕ)
  | sweepBlob (w : W)
  | dropSweep (w : W)
  deriving DecidableEq

/-- The staged versions of a transaction, which a commit moves. -/
def stagedIds (s : State W) (transactionId : String) : List ℕ :=
  (s.versions.filter fun version => decide (version.mediaTransactionId = transactionId) &&
    decide (version.status = .staged)).map MediaItemVersion.mediaItemVersionId

/-- What a commit leaves behind. -/
def finishCommit (s : State W) (w : W) (transactionId : String) (ids : List ℕ)
    (heads : List (String × ℕ)) : State W :=
  { s.endCommit w with
    transactions := Function.update s.transactions transactionId (some .committed)
    versions := s.versions.map (commitVersion ids)
    heads := fun itemId => (heads.lookup itemId).or (s.heads itemId) }

/-- What an event does, where it can happen. -/
def next (s : State W) : Event W → Option (State W)
  | .openTransaction transactionId =>
    if s.transactions transactionId = none then
      some { s with
        transactions := Function.update s.transactions transactionId (some .isOpen) }
    else some s
  | .checkUpload w session =>
    if s.uploads w ≠ none then none
    else if s.transactions session.mediaTransactionId = some .isOpen then
      some (s.setUpload w (some ⟨session, .checked⟩))
    else some s
  | .writeStaged w contentHash =>
    match s.uploads w with
    | some ⟨session, .checked⟩ =>
      some ((s.setBlob session.stagedObjectKey (some contentHash)).setUpload w
        (some ⟨session, .written⟩))
    | _ => none
  | .completeStaged w =>
    match s.uploads w with
    | some ⟨session, .written⟩ =>
      (s.blobs session.stagedObjectKey).map fun contentHash =>
        s.setUpload w (some ⟨session, .completed contentHash⟩)
    | _ => none
  | .reserve w =>
    match s.uploads w with
    | some ⟨session, .completed contentHash⟩ =>
      if s.transactions session.mediaTransactionId = some .isOpen then
        some (s.setUpload w (some ⟨session, .reserved contentHash⟩))
      else none
    | _ => none
  | .insert w now =>
    match s.uploads w with
    | some ⟨session, .reserved contentHash⟩ =>
      if s.itemLocks session.mediaItemId ≠ none then none
      else some ((insertVersion s session contentHash now).setUpload w none)
    | _ => none
  | .failUpload w =>
    match s.uploads w with
    | some ⟨session, phase⟩ =>
      if phase = .checked then none
      else some ((s.setBlob session.stagedObjectKey none).setUpload w none)
    | none => none
  | .dropUpload w => some (s.setUpload w none)
  | .beginCommit w transactionId =>
    if s.commits w ≠ none then none
    else if s.transactions transactionId = some .isOpen then
      some (s.setCommit w ⟨transactionId, .begun⟩)
    else some s
  | .markVersions w =>
    match s.commits w with
    | some ⟨transactionId, .begun⟩ =>
      let ids := stagedIds s transactionId
      if ids.any fun id => s.versionLocks id ≠ none then none
      else some { s.setCommit w ⟨transactionId, .marked ids⟩ with
        versionLocks := fun id => if id ∈ ids then some w else s.versionLocks id }
    | _ => none
  | .selectVersions w =>
    match s.commits w with
    | some ⟨transactionId, .marked ids⟩ =>
      let latest := latestVersionByItem (transactionVersions s transactionId ids)
      some (s.setCommit w ⟨transactionId, .advancing ids latest none []⟩)
    | _ => none
  | .readHead w =>
    match s.commits w with
    | some ⟨transactionId, .advancing ids (version :: rest) none heads⟩ =>
      some (s.setCommit w ⟨transactionId,
        .advancing ids (version :: rest) (some (s.heads version.mediaItemId)) heads⟩)
    | _ => none
  | .casHead w =>
    match s.commits w with
    | some ⟨transactionId, .advancing ids (version :: rest) (some current) heads⟩ =>
      if s.itemLocks version.mediaItemId ≠ none then none
      else if s.heads version.mediaItemId = current then
        let won := (version.mediaItemId, version.mediaItemVersionId)
        some { s.setCommit w ⟨transactionId, .advancing ids rest none (won :: heads)⟩ with
          itemLocks := Function.update s.itemLocks version.mediaItemId (some w) }
      else some (s.setCommit w ⟨transactionId, .advancing ids rest none heads⟩)
    | _ => none
  | .finishCommit w =>
    match s.commits w with
    | some ⟨transactionId, .advancing ids [] none heads⟩ =>
      -- The transaction is moved, or was committed by someone else.
      if s.transactions transactionId ∈ [some MediaTransactionStatus.isOpen, some .committed] then
        some (finishCommit s w transactionId ids heads)
      else some (s.endCommit w)
    | _ => none
  | .dropCommit w => some (s.endCommit w)
  | .abort transactionId =>
    if s.transactions transactionId = some .isOpen then
      some { s with
        transactions := Function.update s.transactions transactionId (some .aborted) }
    else some s
  | .beginSweep w olderThan =>
    if s.sweeps w ≠ [] then none
    else some { s with
      sweeps := Function.update s.sweeps w
        ((unreachableStagedVersions s olderThan).map MediaItemVersion.blobKey) }
  | .sweepBlob w =>
    match s.sweeps w with
    | [] => none
    | key :: keys =>
      some { s.setBlob key none with sweeps := Function.update s.sweeps w keys }
  | .dropSweep w => some { s with sweeps := Function.update s.sweeps w [] }

end FoundryLite.Media
