import FoundryLite.Dataset.Transactions

/-!
# The current view of a dataset

The files of a dataset version are not stored with it. They are found again by walking back from
the version: an APPEND stands on the version that was latest when its transaction was opened, and
its files come after those of that version; a SNAPSHOT stands on nothing.

Nothing checks, when an APPEND is committed, that the version it stands on is still the latest
one. Two APPENDs opened side by side stand on the same version, and the view of the second leaves
out the files of the first. When every APPEND is committed on the latest version, the versions form
a chain and the view is what the commits put there.

## Main results

* `run_versionNumbers`: the committed version numbers are 1, 2, …, in commit order, in every run.
* `Ledger.currentViewFiles`: the view of the newest version, when every APPEND is committed on the
  latest version.
-/

namespace FoundryLite.Dataset

/-! ### The walk -/

def ensureSameDatasetView (target ancestor : VersionRow) : Except FoundryLiteError Unit :=
  if ancestor.target = target.target then pure ()
  else throw (invariantViolation "dataset APPEND ancestry crosses a dataset boundary"
    [("version_id", .str target.id), ("ancestor_version_id", .str ancestor.id)])

def Store.requireVersionById (s : Store) (versionId : String) :
    Except FoundryLiteError VersionRow :=
  match s.versionById versionId with
  | some version => pure version
  | none => throw (notFound "dataset version not found" [("version_id", .str versionId)])

/-- The version that an APPEND stands on; anything else ends the walk. -/
def Store.ancestorId (s : Store) (current : VersionRow) : Option String := do
  let tx ← s.committedTransactionByVersion current.tenantId current.id
  match tx.txType with
  | .append => tx.baseVersionId
  | .snapshot => none

/-- Walk back from `current`, and return the versions passed, oldest first. -/
def walkBack (s : Store) (version : VersionRow) :
    ℕ → List String → VersionRow → Except FoundryLiteError (List VersionRow)
  | fuel + 1, seen, current =>
    if current.id ∈ seen then
      throw (invariantViolation "dataset version ancestry contains a cycle"
        [("version_id", .str version.id)])
    else match s.ancestorId current with
      | none => pure [current]
      | some baseVersionId => do
        let base ← s.requireVersionById baseVersionId
        ensureSameDatasetView version base
        let chain ← walkBack s version fuel (current.id :: seen) base
        return chain ++ [current]
  -- more steps than there are versions repeat one of them
  | 0, _, _ => throw (invariantViolation "dataset version ancestry contains a cycle"
      [("version_id", .str version.id)])

def currentViewVersions (s : Store) (version : VersionRow) :
    Except FoundryLiteError (List VersionRow) :=
  walkBack s version (s.versions.rows.length + 2) [] version

def currentViewFiles (s : Store) (version : VersionRow) :
    Except FoundryLiteError (List String) := do
  let versions ← currentViewVersions s version
  return versions.flatMap VersionRow.files

/-! ### Runs -/

/-- What can happen to the transactions of a branch. The ids are the new ones a call draws. -/
inductive Call where
  | openTransaction (txType : TxType) (txId : String)
  | commit (txId versionId : String) (stagedFiles : List String) (isAccepted : Bool)
  | abort (txId : String)
  | claimStale (txId : String)

/-- A successful commit. -/
structure Commit where
  txType : TxType
  version : VersionRow
  deriving DecidableEq

/-- One call, and what it adds to the history of successful commits. -/
def step (target : Target) : Store × List Commit → Call → Store × List Commit
  | (s, history), .openTransaction txType txId =>
    (((openDatasetTransaction target txType txId).attempt s).2, history)
  | (s, history), .commit txId versionId stagedFiles isAccepted =>
    let request : FinalizationRequest := ⟨target, txId, versionId, stagedFiles, isAccepted⟩
    match s.transactionById txId, (finalizeRequest request).attempt s with
    | some tx, (.ok version, s') => (s', history ++ [⟨tx.txType, version⟩])
    | _, (_, s') => (s', history)
  | (s, history), .abort txId => (((abortTransaction target.tenantId txId).attempt s).2, history)
  | (s, history), .claimStale txId =>
    (((claimStaleOpenTransaction target.tenantId txId).attempt s).2, history)

/-- Calls on one branch, one after another, from an empty dataset. -/
def run (target : Target) (calls : List Call) : Store × List Commit :=
  calls.foldl (step target) (Store.empty, [])

/-- The files after a history of commits: those of the last SNAPSHOT, and of the APPENDs since. -/
def filesAfter (history : List Commit) : List String :=
  history.foldl (fun files commit =>
    match commit.txType with
    | .snapshot => commit.version.files
    | .append => files ++ commit.version.files) []

/-- Whether an APPEND that this call commits stands on the latest version. -/
def CommitsOnLatest (s : Store) : Call → Prop
  | .commit txId _ _ isAccepted => isAccepted → ∀ tx, s.transactionById txId = some tx →
      tx.status = .opened → tx.txType = .append →
      tx.baseVersionId = (s.latestVersionByDatasetId tx.datasetId).map VersionRow.id
  | _ => True

/-! ### The tables of a run -/

/-- What holds of the tables after any run: the versions are the commits, numbered from 1, and a
committed transaction says which version it made. -/
structure Ledger (target : Target) (s : Store) (history : List Commit) : Prop where
  versions : s.versions.rows = history.map Commit.version
  numbers : s.versions.rows.map VersionRow.versionNumber = List.range' 1 history.length
  target_transaction : ∀ tx ∈ s.transactions.rows, tx.target = target
  target_version : ∀ version ∈ s.versions.rows, version.target = target
  made : ∀ tx ∈ s.transactions.rows, ∀ versionId, tx.committedVersionId = some versionId →
    versionId ∈ s.versions.rows.map VersionRow.id
  recorded : ∀ commit ∈ history, ∃ tx,
    s.committedTransactionByVersion target.tenantId commit.version.id = some tx ∧
      tx.txType = commit.txType

section Ledger

variable {target : Target} {s s' : Store} {history : List Commit}

theorem Ledger.empty : Ledger target Store.empty [] where
  versions := rfl
  numbers := rfl
  target_transaction tx htx := by simp [Store.empty] at htx
  target_version version hversion := by simp [Store.empty] at hversion
  made tx htx := by simp [Store.empty] at htx
  recorded commit hcommit := by simp at hcommit

theorem argmax_eq_getLast? {α : Type} {f : α → ℕ} {l : List α} (h : (l.map f).Pairwise (· < ·)) :
    l.argmax f = l.getLast? := by
  induction l using List.reverseRecOn with
  | nil => rfl
  | append_singleton l a ih =>
    rw [List.map_append, List.pairwise_append] at h
    obtain ⟨hl, -, hlast⟩ := h
    rw [List.argmax_concat, ih hl, List.getLast?_concat]
    cases hlast? : l.getLast? with
    | none => rfl
    | some b =>
      have hb : f b < f a := hlast _ (List.mem_map_of_mem (List.mem_of_getLast? hlast?)) _ (by simp)
      simp [hb]

theorem foldr_max_range' (a n : ℕ) : (List.range' 1 n).foldr max a = max n a := by
  induction n generalizing a with
  | zero => simp
  | succ n ih =>
    rw [List.range'_concat, List.foldr_append, List.foldr_cons, List.foldr_nil, ih]
    omega

theorem Ledger.filter_versions (h : Ledger target s history) :
    (s.versions.rows.filter fun version => version.datasetId = target.datasetId)
      = s.versions.rows := by
  refine List.filter_eq_self.mpr fun version hversion => ?_
  rw [← h.target_version version hversion]
  exact decide_eq_true rfl

/-- The latest version is the last committed one. -/
theorem Ledger.latestVersion (h : Ledger target s history) :
    s.latestVersionByDatasetId target.datasetId = history.getLast?.map Commit.version := by
  rw [Store.latestVersionByDatasetId, h.filter_versions, argmax_eq_getLast?, h.versions,
    List.getLast?_map]
  rw [h.numbers]
  exact List.pairwise_lt_range'

theorem Ledger.nextVersionNumber (h : Ledger target s history) :
    s.nextVersionNumber target.datasetId = history.length + 1 := by
  rw [Store.nextVersionNumber, h.filter_versions, h.numbers, foldr_max_range', Nat.max_zero]

/-! ### What the calls do to the tables -/

/-- Opening a transaction is not seen by a scan for committed ones. -/
theorem committedTransactionByVersion_open {txType : TxType} {txId id : String}
    (h : openDatasetTransaction target txType txId s = .ok (id, s')) (tenantId versionId : String) :
    s'.committedTransactionByVersion tenantId versionId
      = s.committedTransactionByVersion tenantId versionId := by
  obtain ⟨-, hinsert⟩ := openDatasetTransaction_eq_ok h
  rw [Store.committedTransactionByVersion, Table.find?_insert? hinsert]
  simp [Store.committedTransactionByVersion, openRow]

theorem Ledger.open {txType : TxType} {txId id : String} (h : Ledger target s history)
    (hopen : openDatasetTransaction target txType txId s = .ok (id, s')) :
    Ledger target s' history := by
  obtain ⟨hversions, hinsert⟩ := openDatasetTransaction_eq_ok hopen
  have hrows := Table.rows_of_insert?_eq_some hinsert
  refine ⟨hversions ▸ h.versions, hversions ▸ h.numbers, ?_, hversions ▸ h.target_version, ?_, ?_⟩
  · rw [hrows]
    intro tx htx
    rcases List.mem_append.mp htx with htx | htx
    · exact h.target_transaction tx htx
    · rw [List.mem_singleton.mp htx]
      rfl
  · rw [hrows, hversions]
    intro tx htx versionId hmade
    rcases List.mem_append.mp htx with htx | htx
    · exact h.made tx htx versionId hmade
    · rw [List.mem_singleton.mp htx] at hmade
      cases hmade
  · intro commit hcommit
    rw [committedTransactionByVersion_open hopen]
    exact h.recorded commit hcommit

/-- A transaction that is not committed can change status without a scan for committed ones
seeing it. -/
theorem committedTransactionByVersion_statusUpdate {tenantId txId : String} {status : TxStatus}
    {fromStatuses : List TxStatus} {updated : Bool} (hstatus : status ≠ .committed)
    (hfrom : .committed ∉ fromStatuses)
    (h : casStatusUpdate tenantId txId fromStatuses (statusUpdate status) s = .ok (updated, s'))
    (tenant versionId : String) : s'.committedTransactionByVersion tenant versionId
      = s.committedTransactionByVersion tenant versionId := by
  rw [Store.committedTransactionByVersion, (casStatusUpdate_eq_ok h).2]
  refine Table.find?_modify_of_forall fun tx htx hhit => ?_
  have hne : tx.status ≠ .committed := by
    rintro heq
    simp only [heq, Bool.and_eq_true, decide_eq_true_eq] at hhit
    exact hfrom hhit.2
  simp [hne, statusUpdate, hstatus]

theorem Ledger.statusUpdate {tenantId txId : String} {status : TxStatus}
    {fromStatuses : List TxStatus} {updated : Bool} (h : Ledger target s history)
    (hstatus : status ≠ .committed) (hfrom : .committed ∉ fromStatuses)
    (hcas : casStatusUpdate tenantId txId fromStatuses (Dataset.statusUpdate status) s
      = .ok (updated, s')) : Ledger target s' history := by
  obtain ⟨hversions, htransactions⟩ := casStatusUpdate_eq_ok hcas
  refine ⟨hversions ▸ h.versions, hversions ▸ h.numbers, ?_, hversions ▸ h.target_version, ?_, ?_⟩
  · rw [htransactions, Table.rows_modify, List.forall_mem_map]
    intro tx htx
    split_ifs
    · exact h.target_transaction tx htx
    · exact h.target_transaction tx htx
  · rw [htransactions, hversions, Table.rows_modify, List.forall_mem_map]
    intro tx htx versionId hmade
    split_ifs at hmade
    · exact h.made tx htx versionId hmade
    · exact h.made tx htx versionId hmade
  · intro commit hcommit
    rw [committedTransactionByVersion_statusUpdate hstatus hfrom hcas]
    exact h.recorded commit hcommit

/-- A commit is seen by the scan for the version it made, and by no other. -/
theorem committedTransactionByVersion_commit {tx : TransactionRow} {versionId : String}
    (htx : tx ∈ s.transactions.rows) (hopened : tx.status = .opened)
    (hnew : ∀ tx ∈ s.transactions.rows, tx.committedVersionId ≠ some versionId)
    (htransactions : s'.transactions = s.transactions.updateRow tx.id (commitUpdate versionId))
    (versionId' : String) : s'.committedTransactionByVersion tx.tenantId versionId'
      = if versionId' = versionId then some ((commitUpdate versionId).apply tx)
        else s.committedTransactionByVersion tx.tenantId versionId' := by
  rw [Store.committedTransactionByVersion, htransactions]
  split_ifs with hid
  · refine Table.find?_eq_some_of_forall ?_ (by simp [commitUpdate, hid]) ?_
    · rw [Table.rows_updateRow]
      exact List.mem_map.mpr ⟨tx, htx, if_pos rfl⟩
    · rw [Table.rows_updateRow, List.forall_mem_map]
      intro row hrow hhit
      split_ifs at hhit ⊢ with hrowId
      · rw [Table.eq_of_pk_eq hrow htx hrowId]
      · simp only [Bool.and_eq_true, decide_eq_true_eq, hid] at hhit
        exact absurd hhit.1.2 (hnew row hrow)
  · refine Table.find?_modify_of_forall fun row hrow hhit => ?_
    rw [Table.eq_of_pk_eq hrow htx (of_decide_eq_true hhit)]
    simp [hopened, commitUpdate, Ne.symm hid]

/-- What a successful commit of `tx` changed. -/
structure Committed (target : Target) (s s' : Store) (tx : TransactionRow) (version : VersionRow) :
    Prop where
  opened : tx.status = .opened
  base_of_snapshot : tx.txType = .snapshot →
    tx.baseVersionId = (s.latestVersionByDatasetId target.datasetId).map VersionRow.id
  datasetId : tx.datasetId = target.datasetId
  target_version : version.target = target
  fresh : version.id ∉ s.versions.rows.map VersionRow.id
  number : version.versionNumber = s.nextVersionNumber target.datasetId
  versions : s'.versions.rows = s.versions.rows ++ [version]
  transactions : s'.transactions = s.transactions.updateRow tx.id (commitUpdate version.id)
  scan : ∀ versionId, s'.committedTransactionByVersion target.tenantId versionId
    = if versionId = version.id then some ((commitUpdate version.id).apply tx)
      else s.committedTransactionByVersion target.tenantId versionId

variable {version : VersionRow} {tx : TransactionRow}

theorem Ledger.committed {request : FinalizationRequest} (h : Ledger target s history)
    (htarget : request.target = target) (htx : s.transactionById request.transactionId = some tx)
    (hcommit : finalizeRequest request s = .ok (version, s')) :
    Committed target s s' tx version := by
  obtain ⟨-, row, hrow, hrowId, hopened, -, hsnapshot, rfl, hinsert, htransactions⟩ :=
    finalizeRequest_eq_ok hcommit
  obtain ⟨hmem, hid⟩ := Table.get?_eq_some_iff.mp htx
  obtain rfl : row = tx := Table.eq_of_pk_eq hrow hmem (hrowId.trans hid.symm)
  have hrowTarget := h.target_transaction row hrow
  have hdataset : row.datasetId = target.datasetId := congrArg Target.datasetId hrowTarget
  have hfresh := (Table.insert?_isSome_iff.mp (by rw [hinsert]; rfl)).1
  have hnew : ∀ tx ∈ s.transactions.rows, tx.committedVersionId ≠ some request.versionId :=
    fun tx htx hmade => hfresh (h.made tx htx _ hmade)
  have hscan := committedTransactionByVersion_commit hrow hopened hnew htransactions
  rw [show row.tenantId = target.tenantId from congrArg Target.tenantId hrowTarget] at hscan
  rw [hdataset] at hsnapshot
  subst htarget
  exact
    { opened := hopened
      base_of_snapshot := hsnapshot
      datasetId := hdataset
      target_version := by
        rw [VersionRow.target, versionRecord,
          show row.branch = request.target.branch from congrArg Target.branch hrowTarget]
      fresh := hfresh
      number := rfl
      versions := Table.rows_of_insert?_eq_some hinsert
      transactions := htransactions
      scan := hscan }

/-- A transaction that the ledger has is not the one a commit made. -/
theorem Ledger.id_ne (h : Ledger target s history) (hcommit : Committed target s s' tx version)
    {commit : Commit} (hmem : commit ∈ history) : commit.version.id ≠ version.id := by
  intro heq
  refine hcommit.fresh (heq ▸ List.mem_map_of_mem ?_)
  rw [h.versions]
  exact List.mem_map_of_mem hmem

theorem Ledger.append (h : Ledger target s history)
    (hcommit : Committed target s s' tx version) :
    Ledger target s' (history ++ [⟨tx.txType, version⟩]) where
  versions := by
    rw [hcommit.versions, h.versions, List.map_append]
    rfl
  numbers := by
    rw [hcommit.versions, List.map_append, h.numbers, List.length_append, List.length_singleton,
      List.range'_concat, List.map_singleton, hcommit.number, h.nextVersionNumber]
    simp [Nat.add_comm]
  target_transaction := by
    rw [hcommit.transactions, Table.rows_updateRow, List.forall_mem_map]
    intro row hrow
    split_ifs
    · exact h.target_transaction row hrow
    · exact h.target_transaction row hrow
  target_version := by
    rw [hcommit.versions]
    intro row hrow
    rcases List.mem_append.mp hrow with hrow | hrow
    · exact h.target_version row hrow
    · rw [List.mem_singleton.mp hrow, hcommit.target_version]
  made := by
    rw [hcommit.transactions, hcommit.versions, Table.rows_updateRow, List.forall_mem_map,
      List.map_append]
    intro row hrow versionId hmade
    split_ifs at hmade with hid
    · rw [← Option.some.inj hmade]
      exact List.mem_append_right _ (List.mem_singleton_self _)
    · exact List.mem_append_left _ (h.made row hrow versionId hmade)
  recorded := by
    intro commit hmem
    rcases List.mem_append.mp hmem with hmem | hmem
    · rw [hcommit.scan, if_neg (h.id_ne hcommit hmem)]
      exact h.recorded commit hmem
    · rw [List.mem_singleton.mp hmem, hcommit.scan, if_pos rfl]
      exact ⟨_, rfl, rfl⟩

/-- A call either leaves history and committed transactions alone, or commits a transaction. -/
theorem Ledger.step_cases (h : Ledger target s history) (call : Call) :
    (∃ s', step target (s, history) call = (s', history) ∧ Ledger target s' history ∧
      ∀ tenantId versionId, s'.committedTransactionByVersion tenantId versionId
        = s.committedTransactionByVersion tenantId versionId) ∨
    ∃ txId versionId stagedFiles tx version s', call = .commit txId versionId stagedFiles true ∧
      s.transactionById txId = some tx ∧ Committed target s s' tx version ∧
      step target (s, history) call = (s', history ++ [⟨tx.txType, version⟩]) := by
  have hsame : (∃ s', (s, history) = (s', history) ∧ Ledger target s' history ∧
      ∀ tenantId versionId, s'.committedTransactionByVersion tenantId versionId
        = s.committedTransactionByVersion tenantId versionId) := ⟨s, rfl, h, fun _ _ => rfl⟩
  cases call with
  | openTransaction txType txId =>
    refine .inl ?_
    cases hopen : openDatasetTransaction target txType txId s with
    | ok r =>
      simp only [step, Transaction.attempt_of_ok hopen]
      exact ⟨r.2, rfl, h.open hopen, committedTransactionByVersion_open hopen⟩
    | error e =>
      simp only [step, Transaction.attempt_of_error hopen]
      exact hsame
  | commit txId versionId stagedFiles isAccepted =>
    cases hcommit : finalizeRequest ⟨target, txId, versionId, stagedFiles, isAccepted⟩ s with
    | error e =>
      refine .inl ?_
      simp only [step, Transaction.attempt_of_error hcommit]
      cases s.transactionById txId <;> exact hsame
    | ok r =>
      obtain ⟨haccepted, row, hrow, hid, -⟩ := finalizeRequest_eq_ok hcommit
      have htx : s.transactionById txId = some row := Table.get?_eq_some_iff.mpr ⟨hrow, hid⟩
      refine .inr ⟨txId, versionId, stagedFiles, row, r.1, r.2, ?_, htx,
        h.committed rfl htx hcommit, ?_⟩
      · rw [show isAccepted = true from haccepted]
      · simp only [step, Transaction.attempt_of_ok hcommit, htx]
  | abort txId =>
    refine .inl ?_
    cases hcas : abortTransaction target.tenantId txId s with
    | ok r =>
      simp only [step, Transaction.attempt_of_ok hcas]
      exact ⟨r.2, rfl, h.statusUpdate (by decide) (by decide) hcas,
        committedTransactionByVersion_statusUpdate (by decide) (by decide) hcas⟩
    | error e =>
      simp only [step, Transaction.attempt_of_error hcas]
      exact hsame
  | claimStale txId =>
    refine .inl ?_
    cases hcas : claimStaleOpenTransaction target.tenantId txId s with
    | ok r =>
      simp only [step, Transaction.attempt_of_ok hcas]
      exact ⟨r.2, rfl, h.statusUpdate (by decide) (by decide) hcas,
        committedTransactionByVersion_statusUpdate (by decide) (by decide) hcas⟩
    | error e =>
      simp only [step, Transaction.attempt_of_error hcas]
      exact hsame

/-- Every call keeps the ledger. -/
theorem Ledger.step (h : Ledger target s history) (call : Call) :
    Ledger target (step target (s, history) call).1 (step target (s, history) call).2 := by
  rcases h.step_cases call with
    ⟨s', hstep, hledger, -⟩ | ⟨_, _, _, tx, version, s', -, -, hcommit, hstep⟩
  · rw [hstep]
    exact hledger
  · rw [hstep]
    exact h.append hcommit

theorem Ledger.run (target : Target) (calls : List Call) :
    Ledger target (run target calls).1 (run target calls).2 := by
  induction calls using List.reverseRecOn with
  | nil => exact Ledger.empty
  | append_singleton calls call ih =>
    rw [Dataset.run, List.foldl_concat]
    exact ih.step call

end Ledger

/-! ### The walk along a history -/

section Walk

variable {target : Target} {s s' : Store} {history : List Commit} {version : VersionRow}

@[simp]
theorem filesAfter_concat (commit : Commit) : filesAfter (history ++ [commit])
    = match commit.txType with
      | .snapshot => commit.version.files
      | .append => filesAfter history ++ commit.version.files := by
  simp [filesAfter]

/-- Every APPEND of a history, newest first, stands on the commit before it. -/
def Linked (target : Target) (s : Store) : List Commit → Prop
  | [] => True
  | commit :: older => (commit.txType = .append → ∀ tx,
      s.committedTransactionByVersion target.tenantId commit.version.id = some tx →
        tx.baseVersionId = older.head?.map fun commit => commit.version.id) ∧
      Linked target s older

theorem Linked.of_scan_eq {commits : List Commit} (h : Linked target s commits)
    (hscan : ∀ commit ∈ commits,
      s'.committedTransactionByVersion target.tenantId commit.version.id
        = s.committedTransactionByVersion target.tenantId commit.version.id) :
    Linked target s' commits := by
  induction commits with
  | nil => trivial
  | cons commit older ih =>
    obtain ⟨hcommit, holder⟩ := List.forall_mem_cons.mp hscan
    refine ⟨fun happend tx htx => h.1 happend tx ?_, ih h.2 holder⟩
    rw [← hcommit]
    exact htx

theorem Ledger.requireVersionById (h : Ledger target s history) {commit : Commit}
    (hmem : commit ∈ history) : s.requireVersionById commit.version.id = .ok commit.version := by
  have hrow : commit.version ∈ s.versions.rows := by
    rw [h.versions]
    exact List.mem_map_of_mem hmem
  have hfind : s.versionById commit.version.id = some commit.version :=
    Table.find?_eq_some_of_forall hrow (decide_eq_true rfl) fun x hx hid =>
      Table.eq_of_pk_eq hx hrow (of_decide_eq_true hid)
  rw [Store.requireVersionById, hfind]
  rfl

theorem Ledger.commit_target (h : Ledger target s history) {commit : Commit}
    (hmem : commit ∈ history) : commit.version.target = target := by
  refine h.target_version _ ?_
  rw [h.versions]
  exact List.mem_map_of_mem hmem

theorem Ledger.ancestorId_of_snapshot (h : Ledger target s history) {commit : Commit}
    (hmem : commit ∈ history) (hsnapshot : commit.txType = .snapshot) :
    s.ancestorId commit.version = none := by
  obtain ⟨tx, hscan, htype⟩ := h.recorded commit hmem
  have htenant : commit.version.tenantId = target.tenantId :=
    congrArg Target.tenantId (h.commit_target hmem)
  rw [Store.ancestorId, htenant, hscan]
  simp [htype, hsnapshot]

theorem Ledger.ancestorId_of_append (h : Ledger target s history) {commit : Commit}
    {older : List Commit} (hmem : commit ∈ history) (hlinked : Linked target s (commit :: older))
    (happend : commit.txType = .append) :
    s.ancestorId commit.version = older.head?.map fun commit => commit.version.id := by
  obtain ⟨tx, hscan, htype⟩ := h.recorded commit hmem
  have htenant : commit.version.tenantId = target.tenantId :=
    congrArg Target.tenantId (h.commit_target hmem)
  rw [← hlinked.1 happend tx hscan, Store.ancestorId, htenant, hscan]
  simp [htype, happend]

/-- Along linked commits the walk collects what they left in the dataset. The induction is on the
commits still ahead; none of them has been seen, because no two versions share an id. -/
theorem Ledger.walkBack (h : Ledger target s history) (hversion : version.target = target)
    {commit : Commit} {older : List Commit} (hmem : ∀ c ∈ commit :: older, c ∈ history)
    (hnodup : ((commit :: older).map fun c => c.version.id).Nodup)
    (hlinked : Linked target s (commit :: older)) (fuel : ℕ) (hfuel : older.length < fuel)
    (seen : List String) (hseen : ∀ c ∈ commit :: older, c.version.id ∉ seen) :
    ∃ chain, walkBack s version fuel seen commit.version = .ok chain ∧
      chain.flatMap VersionRow.files = filesAfter (commit :: older).reverse := by
  induction older generalizing commit fuel seen with
  | nil =>
    obtain ⟨fuel, rfl⟩ := Nat.exists_eq_add_of_lt hfuel
    have hcommit := hmem commit List.mem_cons_self
    have hnone : s.ancestorId commit.version = none := by
      cases htype : commit.txType with
      | snapshot => exact h.ancestorId_of_snapshot hcommit htype
      | append => exact h.ancestorId_of_append hcommit hlinked htype
    refine ⟨[commit.version], ?_, ?_⟩
    · rw [Dataset.walkBack, if_neg (hseen commit List.mem_cons_self), hnone]
      rfl
    · cases htype : commit.txType <;> simp [filesAfter, htype]
  | cons next older ih =>
    obtain ⟨fuel, rfl⟩ : ∃ n, fuel = n + 1 := ⟨fuel - 1, by omega⟩
    have hcommit := hmem commit List.mem_cons_self
    have hnext := hmem next (List.mem_cons_of_mem _ List.mem_cons_self)
    have hfirst := hseen commit List.mem_cons_self
    rw [List.reverse_cons, filesAfter_concat]
    cases htype : commit.txType with
    | snapshot =>
      refine ⟨[commit.version], ?_, by simp⟩
      rw [Dataset.walkBack, if_neg hfirst, h.ancestorId_of_snapshot hcommit htype]
      rfl
    | append =>
      obtain ⟨hne, htail⟩ := List.nodup_cons.mp hnodup
      have hahead : ∀ c ∈ next :: older, c.version.id ∉ commit.version.id :: seen := by
        intro c hc hin
        rcases List.mem_cons.mp hin with heq | hin
        · exact hne (List.mem_map.mpr ⟨c, hc, heq⟩)
        · exact hseen c (List.mem_cons_of_mem _ hc) hin
      have hsame : ensureSameDatasetView version next.version = .ok () := by
        rw [ensureSameDatasetView, h.commit_target hnext, hversion, if_pos rfl]
        rfl
      obtain ⟨chain, hchain, hfiles⟩ := ih (fun c hc => hmem c (List.mem_cons_of_mem _ hc)) htail
        hlinked.2 fuel (Nat.lt_of_succ_lt_succ hfuel) _ hahead
      refine ⟨chain ++ [commit.version], ?_, ?_⟩
      · rw [Dataset.walkBack, if_neg hfirst, h.ancestorId_of_append hcommit hlinked htype]
        refine Except.bind_eq_ok_iff.mpr ⟨_, h.requireVersionById hnext, ?_⟩
        refine Except.bind_eq_ok_iff.mpr ⟨(), hsame, ?_⟩
        exact Except.bind_eq_ok_iff.mpr ⟨chain, hchain, rfl⟩
      · rw [List.flatMap_append, hfiles]
        simp

/-- The view of the newest of linked commits is what they left in the dataset. -/
theorem Ledger.currentViewFiles (h : Ledger target s history)
    (hlinked : Linked target s history.reverse) {newest : Commit}
    (hnewest : history.getLast? = some newest) :
    currentViewFiles s newest.version = .ok (filesAfter history) := by
  obtain ⟨older, hhistory⟩ := List.getLast?_eq_some_iff.mp hnewest
  have hreverse : history.reverse = newest :: older.reverse := by
    rw [hhistory, List.reverse_concat]
  have hmem : newest ∈ history := List.mem_of_getLast? hnewest
  have hnodup : (history.map fun c => c.version.id).Nodup := by
    have hpk := s.versions.nodup_pk
    rwa [h.versions, List.map_map] at hpk
  have hlength : s.versions.rows.length = older.length + 1 := by
    rw [h.versions, List.length_map, hhistory, List.length_append, List.length_singleton]
  obtain ⟨chain, hchain, hfiles⟩ := h.walkBack (h.commit_target hmem)
    (fun c hc => List.mem_reverse.mp (hreverse ▸ hc))
    (by rw [← hreverse, List.map_reverse, List.nodup_reverse]; exact hnodup)
    (hreverse ▸ hlinked) (s.versions.rows.length + 2) (by rw [List.length_reverse]; omega)
    [] (fun c hc => List.not_mem_nil)
  rw [← hreverse, List.reverse_reverse] at hfiles
  rw [Dataset.currentViewFiles, currentViewVersions, hchain, ← hfiles]
  rfl

end Walk

/-! ### Main results -/

section Run

variable {target : Target}

/-- A call that commits on the latest version keeps the history linked. -/
theorem Ledger.linked_step {s : Store} {history : List Commit} (h : Ledger target s history)
    (hlinked : Linked target s history.reverse) (call : Call) (hlatest : CommitsOnLatest s call) :
    Linked target (Dataset.step target (s, history) call).1
      (Dataset.step target (s, history) call).2.reverse := by
  rcases h.step_cases call with
    ⟨s', hstep, -, hscan⟩ | ⟨txId, _, _, tx, version, s', rfl, htx, hcommit, hstep⟩
  · rw [hstep]
    exact hlinked.of_scan_eq fun commit _ => hscan _ _
  · rw [hstep, List.reverse_concat]
    refine ⟨fun happend row hrow => ?_, ?_⟩
    · rw [hcommit.scan, if_pos rfl] at hrow
      obtain rfl := Option.some.inj hrow
      have hbase := hlatest rfl tx htx hcommit.opened happend
      rw [hcommit.datasetId, h.latestVersion] at hbase
      rw [List.head?_reverse]
      exact hbase.trans (Option.map_map ..)
    · refine hlinked.of_scan_eq fun commit hmem => ?_
      rw [hcommit.scan, if_neg (h.id_ne hcommit (List.mem_reverse.mp hmem))]

/-- Whether every APPEND that the calls commit stands on the version that is latest by then. -/
def CommitsOnLatestThroughout (target : Target) : Store × List Commit → List Call → Prop
  | _, [] => True
  | state, call :: calls =>
    CommitsOnLatest state.1 call ∧ CommitsOnLatestThroughout target (step target state call) calls

theorem Ledger.linked_foldl {calls : List Call} {s : Store} {history : List Commit}
    (h : Ledger target s history) (hlinked : Linked target s history.reverse)
    (hlatest : CommitsOnLatestThroughout target (s, history) calls) :
    Linked target (calls.foldl (Dataset.step target) (s, history)).1
      (calls.foldl (Dataset.step target) (s, history)).2.reverse := by
  induction calls generalizing s history with
  | nil => exact hlinked
  | cons call calls ih =>
    obtain ⟨hcall, hcalls⟩ := hlatest
    exact ih (h.step call) (h.linked_step hlinked call hcall) hcalls

/-- The version numbers of the commits are 1, 2, …, in commit order. -/
theorem run_versionNumbers (target : Target) (calls : List Call) :
    (run target calls).2.map (fun commit => commit.version.versionNumber)
      = List.range' 1 (run target calls).2.length := by
  have hledger := Ledger.run target calls
  have hnumbers := hledger.numbers
  rwa [hledger.versions, List.map_map] at hnumbers

/-- No APPEND is lost: the committed version numbers are 1, 2, …, in commit order, and the view of
the newest version is what the commits left in the dataset. -/
def AppendsKept (s : Store) (history : List Commit) : Prop :=
  history.map (fun commit => commit.version.versionNumber) = List.range' 1 history.length ∧
    ∀ newest, history.getLast? = some newest →
      currentViewFiles s newest.version = .ok (filesAfter history)

/-- **No APPEND is lost** in a run that commits every APPEND on the latest version. -/
theorem appendsKept_run (target : Target) (calls : List Call)
    (h : CommitsOnLatestThroughout target (Store.empty, []) calls) :
    AppendsKept (run target calls).1 (run target calls).2 :=
  ⟨run_versionNumbers target calls, fun _ hnewest =>
    (Ledger.run target calls).currentViewFiles (Ledger.empty.linked_foldl trivial h) hnewest⟩

/-- **The latest version is the one that was committed last**, in whatever order transactions are
opened, committed and aborted, and every version was made by a committed transaction of its kind. -/
theorem latestVersion_run (target : Target) (calls : List Call) :
    (run target calls).1.latestVersionByDatasetId target.datasetId
        = (run target calls).2.getLast?.map Commit.version ∧
      ∀ commit ∈ (run target calls).2, ∃ tx, (run target calls).1.committedTransactionByVersion
        target.tenantId commit.version.id = some tx ∧ tx.txType = commit.txType :=
  have hledger := Ledger.run target calls
  ⟨hledger.latestVersion, hledger.recorded⟩

end Run

/-! ### Two runs -/

def main : Target := ⟨"tenant", "sales", "main"⟩

/-- A SNAPSHOT, and an APPEND opened after it. -/
def appendAfterSnapshot : List Call :=
  [.openTransaction .snapshot "t1", .commit "t1" "v1" ["base"] true,
    .openTransaction .append "t2", .commit "t2" "v2" ["more"] true]

theorem appendAfterSnapshot_kept :
    AppendsKept (run main appendAfterSnapshot).1 (run main appendAfterSnapshot).2 := by
  refine appendsKept_run main appendAfterSnapshot ?_
  refine ⟨trivial, fun _ tx htx _ happend => ?_, trivial, fun _ tx htx _ happend => ?_, trivial⟩
  · obtain rfl : openRow main .snapshot "t1" none = tx := Option.some.inj (by rw [← htx]; decide)
    cases happend
  · obtain rfl : openRow main .append "t2" (some "v1") = tx :=
      Option.some.inj (by rw [← htx]; decide)
    decide

/-- A SNAPSHOT, and two APPENDs that are both opened before either is committed. -/
def appendsSideBySide : List Call :=
  [.openTransaction .snapshot "t1", .commit "t1" "v1" ["base"] true,
    .openTransaction .append "t2", .openTransaction .append "t3",
    .commit "t2" "v2" ["first"] true, .commit "t3" "v3" ["second"] true]

/-- The second APPEND stands on the SNAPSHOT, and its view leaves out the first. -/
theorem not_appendsKept_sideBySide :
    ¬ AppendsKept (run main appendsSideBySide).1 (run main appendsSideBySide).2 := by
  intro h
  have hview := h.2 ⟨.append, ⟨"v3", "tenant", "sales", "main", 3, "t3", ["second"]⟩⟩ (by decide)
  exact absurd (congrArg Except.toOption hview) (by decide)

end FoundryLite.Dataset
