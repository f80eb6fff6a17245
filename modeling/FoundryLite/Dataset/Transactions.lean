import FoundryLite.Library.Table
import FoundryLite.Library.Transaction
import FoundryLite.Errors
import Mathlib.Data.List.MinMax

/-!
# Dataset transactions

A dataset grows by transactions. One is opened against the version that is latest at that time, its
files are staged, and it is finalised (or aborted) later. Finalising takes the lock of the dataset
row, so commits happen one after another; it allocates the next version number and records the
version. A SNAPSHOT replaces the dataset, and is refused when its base is no longer the latest
version. An APPEND adds to it, and its base is not looked at again.

The outcome of the quality checks of a commit is part of the request: a commit may be refused for
reasons that are none of the transaction protocol's business.

## Main results

* `openDatasetTransaction_eq_ok`, `finalizeRequest_eq_ok`: what a success did to the tables.
-/

namespace FoundryLite.Dataset

open Transaction

/-! ### Tables -/

inductive TxType where
  | snapshot
  | append
  deriving DecidableEq

inductive TxStatus where
  | opened
  | aborting
  | committed
  | aborted
  deriving DecidableEq

def TxStatus.text : TxStatus → String
  | opened => "OPEN"
  | aborting => "ABORTING"
  | committed => "COMMITTED"
  | aborted => "ABORTED"

structure TransactionRow where
  id : String
  tenantId : String
  datasetId : String
  branch : String
  txType : TxType
  status : TxStatus
  /-- The latest version when the transaction was opened. -/
  baseVersionId : Option String
  committedVersionId : Option String
  deriving DecidableEq

structure VersionRow where
  id : String
  tenantId : String
  datasetId : String
  branch : String
  versionNumber : ℕ
  transactionId : String
  /-- The files of the committed manifest. -/
  files : List String
  deriving DecidableEq

/-- The unique key of a version: no number is given twice on a branch. -/
def VersionRow.number (version : VersionRow) : String × String × ℕ :=
  (version.datasetId, version.branch, version.versionNumber)

structure Store where
  transactions : Table TransactionRow.id TransactionRow.id
  versions : Table VersionRow.id VersionRow.number

def Store.empty : Store := ⟨∅, ∅⟩

abbrev Tx (α : Type) := Transaction FoundryLiteError Store α

/-! ### Reads -/

namespace Store

variable (s : Store)

def latestVersionByDatasetId (datasetId : String) : Option VersionRow :=
  (s.versions.rows.filter fun version => version.datasetId = datasetId).argmax
    VersionRow.versionNumber

def nextVersionNumber (datasetId : String) : ℕ :=
  ((s.versions.rows.filter fun version => version.datasetId = datasetId).map
    VersionRow.versionNumber).foldr max 0 + 1

def versionById (versionId : String) : Option VersionRow :=
  s.versions.rows.find? fun version => version.id = versionId

def transactionById (transactionId : String) : Option TransactionRow :=
  s.transactions.get? transactionId

def committedTransactionByVersion (tenantId versionId : String) : Option TransactionRow :=
  s.transactions.rows.find? fun tx =>
    tx.tenantId = tenantId && tx.committedVersionId = some versionId && tx.status = .committed

end Store

/-! ### Opening -/

/-- The dataset and the branch that a transaction works on. -/
structure Target where
  tenantId : String
  datasetId : String
  branch : String
  deriving DecidableEq

def VersionRow.target (version : VersionRow) : Target :=
  ⟨version.tenantId, version.datasetId, version.branch⟩

def TransactionRow.target (tx : TransactionRow) : Target := ⟨tx.tenantId, tx.datasetId, tx.branch⟩

def openRow (target : Target) (txType : TxType) (txId : String) (base : Option String) :
    TransactionRow where
  id := txId
  tenantId := target.tenantId
  datasetId := target.datasetId
  branch := target.branch
  txType
  status := .opened
  baseVersionId := base
  committedVersionId := none

/-- Open a transaction against the latest version; the id is a new one. -/
def openDatasetTransaction (target : Target) (txType : TxType) (txId : String) : Tx String := do
  let store ← get
  let latest := store.latestVersionByDatasetId target.datasetId
  let row := openRow target txType txId (latest.map VersionRow.id)
  let transactions ← Transaction.requireSome (store.transactions.insert? row)
    (databaseError "UNIQUE constraint failed: dataset_transactions.id")
  set { store with transactions }
  return txId

/-! ### Finalising -/

structure FinalizationRequest where
  target : Target
  transactionId : String
  /-- The new version id, and the staged files. -/
  versionId : String
  stagedFiles : List String
  /-- Whether the quality checks and the schema accept the candidate. -/
  isAccepted : Bool

def requireOpenTransaction (transactionId : String) : Tx TransactionRow := do
  let store ← get
  let tx ← Transaction.requireSome (store.transactionById transactionId)
    (notFound "dataset transaction not found" [("transaction_id", .str transactionId)])
  Transaction.require (tx.status = .opened)
    (conflictDetected "dataset transaction is not open"
      [("transaction_id", .str transactionId), ("status", .str tx.status.text)])
  return tx

def optionalText (value : Option String) : Json := value.elim .null .str

/-- A SNAPSHOT is refused when its base is not the latest version; an APPEND is not checked. -/
def ensureSnapshotBaseCurrent (tx : TransactionRow) : Tx Unit :=
  match tx.txType with
  | .append => pure ()
  | .snapshot => do
    let store ← get
    let currentBaseVersionId := (store.latestVersionByDatasetId tx.datasetId).map VersionRow.id
    Transaction.require (currentBaseVersionId = tx.baseVersionId)
      (conflictDetected "dataset transaction base version is stale"
        [("transaction_id", .str tx.id), ("dataset_id", .str tx.datasetId),
          ("expected_base_version_id", optionalText tx.baseVersionId),
          ("current_base_version_id", optionalText currentBaseVersionId)])

def versionRecord (request : FinalizationRequest) (branch : String) (versionNumber : ℕ) :
    VersionRow where
  id := request.versionId
  tenantId := request.target.tenantId
  datasetId := request.target.datasetId
  branch
  versionNumber
  transactionId := request.transactionId
  files := request.stagedFiles

def insertVersion (record : VersionRow) : Tx Unit := do
  let store ← get
  let versions ← Transaction.requireSome (store.versions.insert? record)
    (conflictDetected "dataset version already exists" [("version_id", .str record.id)])
  set { store with versions }

/-- A compare-and-set on the status of a transaction. -/
def casStatusUpdate (tenantId transactionId : String) (fromStatuses : List TxStatus)
    (update : Table.Update TransactionRow.id TransactionRow.id) : Tx Bool := do
  let store ← get
  let hit := fun tx : TransactionRow =>
    tx.tenantId = tenantId && tx.id = transactionId && tx.status ∈ fromStatuses
  set { store with transactions := store.transactions.modify hit update }
  return store.transactions.rows.countP hit = 1

def commitUpdate (versionId : String) : Table.Update TransactionRow.id TransactionRow.id where
  apply tx := { tx with status := .committed, committedVersionId := some versionId }
  pk_apply _ := rfl
  uq_apply _ := rfl

def commitOpenDatasetTransaction (tenantId transactionId versionId : String) : Tx Unit := do
  let committed ← casStatusUpdate tenantId transactionId [.opened] (commitUpdate versionId)
  Transaction.require committed (conflictDetected "dataset transaction commit lost its OPEN state"
    [("transaction_id", .str transactionId), ("version_id", .str versionId)])

/-- Finalise an open transaction, under the lock of the dataset row. -/
def finalizeRequest (request : FinalizationRequest) : Tx VersionRow := do
  let tx ← requireOpenTransaction request.transactionId
  ensureSnapshotBaseCurrent tx
  Transaction.require request.isAccepted (conflictDetected "dataset checks failed")
  let store ← get
  let record := versionRecord request tx.branch (store.nextVersionNumber request.target.datasetId)
  insertVersion record
  commitOpenDatasetTransaction request.target.tenantId request.transactionId request.versionId
  return record

/-! ### Aborting -/

def statusUpdate (status : TxStatus) : Table.Update TransactionRow.id TransactionRow.id where
  apply tx := { tx with status }
  pk_apply _ := rfl
  uq_apply _ := rfl

def abortTransaction (tenantId transactionId : String) : Tx Bool :=
  casStatusUpdate tenantId transactionId [.opened, .aborting] (statusUpdate .aborted)

/-- Recovery claims a transaction that was left open before it aborts it. -/
def claimStaleOpenTransaction (tenantId transactionId : String) : Tx Bool :=
  casStatusUpdate tenantId transactionId [.opened] (statusUpdate .aborting)

/-! ### What a success did -/

variable {s s' : Store} {target : Target} {txType : TxType} {txId : String}

theorem openDatasetTransaction_eq_ok {id : String}
    (h : openDatasetTransaction target txType txId s = .ok (id, s')) :
    s'.versions = s.versions ∧ s.transactions.insert?
      (openRow target txType txId ((s.latestVersionByDatasetId target.datasetId).map VersionRow.id))
        = some s'.transactions := by
  simp only [openDatasetTransaction, bind_eq_ok_iff, get_eq_ok_iff,
    requireSome_eq_ok_iff, set_eq_ok_iff, pure_eq_ok_iff,
    Prod.mk.injEq] at h
  obtain ⟨store, s₁, ⟨rfl, rfl⟩, _, s₂, ⟨transactions, hinsert, rfl, rfl⟩, -, s₃, ⟨-, rfl⟩, -, rfl⟩ :=
    h
  exact ⟨rfl, hinsert⟩

theorem casStatusUpdate_eq_ok {tenantId : String} {fromStatuses : List TxStatus} {updated : Bool}
    {update : Table.Update TransactionRow.id TransactionRow.id}
    (h : casStatusUpdate tenantId txId fromStatuses update s = .ok (updated, s')) :
    s'.versions = s.versions ∧
      s'.transactions = s.transactions.modify
        (fun tx => tx.tenantId = tenantId && tx.id = txId && tx.status ∈ fromStatuses) update := by
  simp only [casStatusUpdate, bind_eq_ok_iff, get_eq_ok_iff,
    set_eq_ok_iff, pure_eq_ok_iff, Prod.mk.injEq] at h
  obtain ⟨store, s₁, ⟨rfl, rfl⟩, -, s₂, ⟨-, rfl⟩, -, rfl⟩ := h
  exact ⟨rfl, rfl⟩

theorem casStatusUpdate_eq_true {tenantId : String} {fromStatuses : List TxStatus}
    {update : Table.Update TransactionRow.id TransactionRow.id}
    (h : casStatusUpdate tenantId txId fromStatuses update s = .ok (true, s')) :
    ∃ tx ∈ s.transactions.rows, tx.id = txId ∧ tx.tenantId = tenantId ∧ tx.status ∈ fromStatuses ∧
      s'.versions = s.versions ∧ s'.transactions = s.transactions.updateRow txId update := by
  obtain ⟨hversions, htransactions⟩ := casStatusUpdate_eq_ok h
  simp only [casStatusUpdate, bind_eq_ok_iff, get_eq_ok_iff,
    set_eq_ok_iff, pure_eq_ok_iff, Prod.mk.injEq] at h
  obtain ⟨store, s₁, ⟨rfl, rfl⟩, -, s₂, ⟨-, rfl⟩, hcount, -⟩ := h
  have hpos := (decide_eq_true_eq.mp hcount).symm ▸ Nat.one_pos
  obtain ⟨tx, htx, hhit⟩ := List.countP_pos_iff.mp hpos
  simp only [Bool.and_eq_true, decide_eq_true_eq] at hhit
  obtain ⟨⟨htenant, hid⟩, hstatus⟩ := hhit
  refine ⟨tx, htx, hid, htenant, hstatus, hversions, ?_⟩
  rw [htransactions]
  -- the id alone selects the row that passed the guard
  refine Table.ext ?_
  simp only [Table.rows_modify, Table.rows_updateRow]
  refine List.map_congr_left fun x hx => ?_
  by_cases hxid : x.id = txId
  · obtain rfl : x = tx := Table.eq_of_pk_eq hx htx (hxid.trans hid.symm)
    simp [htenant, hxid, hstatus]
  · simp [hxid]

/-- A SNAPSHOT that passes the check has the latest version for its base. -/
theorem ensureSnapshotBaseCurrent_eq_ok {tx : TransactionRow} {u : Unit}
    (h : ensureSnapshotBaseCurrent tx s = .ok (u, s')) :
    s' = s ∧ (tx.txType = .snapshot →
      tx.baseVersionId = (s.latestVersionByDatasetId tx.datasetId).map VersionRow.id) := by
  cases htype : tx.txType with
  | append =>
    simp only [ensureSnapshotBaseCurrent, htype, pure_eq_ok_iff, Prod.mk.injEq] at h
    exact ⟨h.2.symm, fun hsnapshot => by cases hsnapshot⟩
  | snapshot =>
    simp only [ensureSnapshotBaseCurrent, htype, bind_eq_ok_iff,
      get_eq_ok_iff, require_eq_ok_iff, decide_eq_true_eq,
      Prod.mk.injEq] at h
    obtain ⟨store, s₁, ⟨rfl, rfl⟩, hbase, -, rfl⟩ := h
    exact ⟨rfl, fun _ => hbase.symm⟩

/-- **A successful commit** recorded a version under the next number for a transaction that was
open, and that is committed now. -/
theorem finalizeRequest_eq_ok {request : FinalizationRequest} {version : VersionRow}
    (h : finalizeRequest request s = .ok (version, s')) :
    request.isAccepted ∧ ∃ tx ∈ s.transactions.rows, tx.id = request.transactionId ∧
      tx.status = .opened ∧ tx.tenantId = request.target.tenantId ∧
      (tx.txType = .snapshot →
        tx.baseVersionId = (s.latestVersionByDatasetId tx.datasetId).map VersionRow.id) ∧
      version = versionRecord request tx.branch (s.nextVersionNumber request.target.datasetId) ∧
      s.versions.insert? version = some s'.versions ∧
      s'.transactions = s.transactions.updateRow tx.id (commitUpdate request.versionId) := by
  simp only [finalizeRequest, requireOpenTransaction, insertVersion, commitOpenDatasetTransaction,
    bind_eq_ok_iff, get_eq_ok_iff, requireSome_eq_ok_iff,
    require_eq_ok_iff, set_eq_ok_iff, pure_eq_ok_iff,
    decide_eq_true_eq, Prod.mk.injEq] at h
  obtain ⟨_, s₁, ⟨store, s₂, ⟨rfl, rfl⟩, _, s₃, ⟨tx, hfound, rfl, rfl⟩, -, s₄, ⟨hopen, -, rfl⟩, rfl,
    rfl⟩, u, s₅, hbase, -, s₆, ⟨haccepted, -, rfl⟩, store, s₇, ⟨rfl, rfl⟩, -, s₈, ⟨store, s₉, ⟨rfl, rfl⟩, _,
    s₁₀, ⟨versions, hinsert, rfl, rfl⟩, -, rfl⟩, -, s₁₁, ⟨committed, s₁₂, hcas, rfl, -, rfl⟩, rfl, rfl⟩ :=
    h
  obtain ⟨rfl, hsnapshot⟩ := ensureSnapshotBaseCurrent_eq_ok hbase
  obtain ⟨htx, hid⟩ := Table.get?_eq_some_iff.mp hfound
  obtain ⟨row, hrow, hrowId, htenant, -, hversions, htransactions⟩ := casStatusUpdate_eq_true hcas
  obtain rfl : row = tx := Table.eq_of_pk_eq hrow htx (hrowId.trans hid.symm)
  refine ⟨haccepted, row, htx, hid, hopen, htenant, hsnapshot, rfl, ?_, ?_⟩
  · rw [hversions]
    exact hinsert
  · rw [htransactions, hid]

end FoundryLite.Dataset
