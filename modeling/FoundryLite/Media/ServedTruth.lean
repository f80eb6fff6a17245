import FoundryLite.Library.Dict
import FoundryLite.Media.Transactions
import Mathlib.Data.String.Basic

/-!
# What media transactions serve

A version is committed together with its transaction, by a statement that has found it staged. What
is staged behind that statement, or written over the bytes of a committed version, is not seen by
it, and a head is moved to the latest version of the transaction that is committed last, whichever
version that is.

## Main results

* `latest_latestVersionByItem`: the version that becomes the head of an item.
* `truthful_of_run`: runs whose steps meet the condition serve the truth.
* `not_truthful`: two transactions are committed in the other order.
-/

namespace FoundryLite.Media

open FoundryLite.Runtime

open Runs

variable {W : Type} {s t : State W} {e : Event W}

/-! ### The property -/

/-- Versions, heads and bytes are what the committed transactions say. -/
structure Truthful (s : State W) : Prop where
  committed_iff : ∀ version ∈ s.versions, version.status = .committed ↔
    s.transactions version.mediaTransactionId = some .committed
  numbers : ∀ version ∈ s.versions, ∀ other ∈ s.versions,
    version.mediaItemId = other.mediaItemId → version.versionNumber = other.versionNumber →
      version = other
  /-- A head is a committed version. -/
  head : ∀ itemId id, s.heads itemId = some id → ∃ version ∈ s.versions,
    version.mediaItemVersionId = id ∧ version.mediaItemId = itemId ∧ version.status = .committed
  /-- No committed version is newer than the head, and there is one. -/
  newest : ∀ version ∈ s.versions, version.status = .committed → ∃ head ∈ s.versions,
    s.heads version.mediaItemId = some head.mediaItemVersionId ∧
      version.versionNumber ≤ head.versionNumber
  blobs : ∀ version ∈ s.versions, version.status = .committed →
    s.blobs version.blobKey = some version.contentHash

/-! ### The condition -/

/-- Whether a committed version is stored under an object key. -/
def IsServed (s : State W) (key : String) (version : MediaItemVersion) : Prop :=
  version ∈ s.versions ∧ version.status = .committed ∧ version.blobKey = key

/-- What a commit can leave behind: it has moved all versions of its transaction, their bytes are
there, it has not lost a head to an older version, and has taken none from a newer one. -/
structure CanFinish (s : State W) (transactionId : String) (ids : List ℕ)
    (heads : List (String × ℕ)) : Prop where
  moved : ∀ version ∈ s.versions, version.mediaTransactionId = transactionId →
    version.status = .committed ∨ version.mediaItemVersionId ∈ ids
  blobs : ∀ version ∈ s.versions, version.mediaItemVersionId ∈ ids →
    s.blobs version.blobKey = some version.contentHash
  lost : ∀ version ∈ s.versions, version.mediaItemVersionId ∈ ids →
    heads.lookup version.mediaItemId = none → ∃ head ∈ s.versions,
      s.heads version.mediaItemId = some head.mediaItemVersionId ∧
        version.versionNumber ≤ head.versionNumber
  won : ∀ version ∈ s.versions, version.status = .committed → ∀ head ∈ s.versions,
    heads.lookup version.mediaItemId = some head.mediaItemVersionId →
      version.versionNumber ≤ head.versionNumber

/-- What is inserted belongs to a transaction that is not committed, the bytes of a committed
version stay, and a commit finishes where it can. -/
def Permitted (s : State W) : Event W → Prop
  | .writeStaged w contentHash => ∀ session, s.uploads w = some ⟨session, .checked⟩ →
      ∀ version, IsServed s session.stagedObjectKey version → version.contentHash = contentHash
  | .insert w _ => ∀ session contentHash, s.uploads w = some ⟨session, .reserved contentHash⟩ →
      s.transactions session.mediaTransactionId ≠ some .committed
  | .failUpload w => ∀ session phase, s.uploads w = some ⟨session, phase⟩ →
      ∀ version, ¬ IsServed s session.stagedObjectKey version
  | .finishCommit w => ∀ transactionId ids heads,
      s.commits w = some ⟨transactionId, .advancing ids [] none heads⟩ →
        s.transactions transactionId ∈ [some MediaTransactionStatus.isOpen, some .committed] →
          CanFinish s transactionId ids heads
  | .sweepBlob w => ∀ key ∈ (s.sweeps w).head?, ∀ version, ¬ IsServed s key version
  | _ => True

/-! ### The versions of a commit -/

/-- A version of the transaction, with none of the item newer among those that were moved. -/
def IsLatest (versions : List MediaItemVersion) (transactionId : String) (ids : List ℕ)
    (itemId : String) (id : ℕ) : Prop :=
  ∃ version ∈ versions, version.mediaItemVersionId = id ∧ version.mediaItemId = itemId ∧
    version.mediaTransactionId = transactionId ∧ ∀ other ∈ versions,
      other.mediaItemVersionId ∈ ids → other.mediaItemId = itemId →
        other.versionNumber ≤ version.versionNumber

def AreOf (versions : List MediaItemVersion) (transactionId : String) (ids : List ℕ) : Prop :=
  ∀ id ∈ ids, ∃ version ∈ versions, version.mediaItemVersionId = id ∧
    version.mediaTransactionId = transactionId

/-- What a commit has in hand fits the versions that are there. -/
def Fits (versions : List MediaItemVersion) (commit : Commit) : Prop :=
  match commit.phase with
  | .begun => True
  | .marked ids => AreOf versions commit.mediaTransactionId ids
  | .advancing ids rest _ heads => AreOf versions commit.mediaTransactionId ids ∧
      (∀ version ∈ rest, IsLatest versions commit.mediaTransactionId ids version.mediaItemId
        version.mediaItemVersionId) ∧
      ∀ head ∈ heads, IsLatest versions commit.mediaTransactionId ids head.1 head.2

section

variable {ids : List ℕ} {version : MediaItemVersion}

theorem commitVersion_eq (ids : List ℕ) (version : MediaItemVersion) :
    commitVersion ids version = if version.status = .staged ∧ version.mediaItemVersionId ∈ ids then
      { version with status := .committed } else version := by
  unfold commitVersion casStatusUpdate mediaVersionCommitted
  by_cases hstatus : version.status = .staged <;>
    by_cases hid : version.mediaItemVersionId ∈ ids <;> simp [hstatus, hid]

@[simp] theorem commitVersion_mediaItemVersionId :
    (commitVersion ids version).mediaItemVersionId = version.mediaItemVersionId := by
  rw [commitVersion_eq]
  split_ifs <;> rfl

@[simp] theorem commitVersion_mediaItemId :
    (commitVersion ids version).mediaItemId = version.mediaItemId := by
  rw [commitVersion_eq]
  split_ifs <;> rfl

@[simp] theorem commitVersion_mediaTransactionId :
    (commitVersion ids version).mediaTransactionId = version.mediaTransactionId := by
  rw [commitVersion_eq]
  split_ifs <;> rfl

@[simp] theorem commitVersion_versionNumber :
    (commitVersion ids version).versionNumber = version.versionNumber := by
  rw [commitVersion_eq]
  split_ifs <;> rfl

@[simp] theorem commitVersion_blobKey :
    (commitVersion ids version).blobKey = version.blobKey := by
  rw [commitVersion_eq]
  split_ifs <;> rfl

@[simp] theorem commitVersion_contentHash :
    (commitVersion ids version).contentHash = version.contentHash := by
  rw [commitVersion_eq]
  split_ifs <;> rfl

@[simp] theorem status_commitVersion : (commitVersion ids version).status = .committed ↔
    version.status = .committed ∨ version.mediaItemVersionId ∈ ids := by
  rw [commitVersion_eq]
  cases hstatus : version.status <;> simp [hstatus]
  split_ifs <;> simp_all

end

/-! ### The latest version of each item -/

/-- What `_latest_version_by_item` finds among versions. -/
structure Latest (committed latest : List MediaItemVersion) : Prop where
  mem : ∀ version ∈ latest, version ∈ committed
  newest : ∀ version ∈ latest, ∀ other ∈ committed, other.mediaItemId = version.mediaItemId →
    other.versionNumber ≤ version.versionNumber
  covers : ∀ version ∈ committed, ∃ other ∈ latest, other.mediaItemId = version.mediaItemId

theorem latest_latestVersionByItem (committed : List MediaItemVersion) :
    Latest committed (latestVersionByItem committed) := by
  induction committed using List.reverseRecOn with
  | nil => exact ⟨by simp [latestVersionByItem], by simp, by simp⟩
  | append_singleton committed version ih =>
    rw [latestVersionByItem, List.foldl_append, ← latestVersionByItem]
    simp only [List.foldl_cons, List.foldl_nil]
    split
    next hfind =>
      have hnone := List.find?_eq_none.mp hfind
      have hnew : ∀ other ∈ committed, other.mediaItemId ≠ version.mediaItemId := by
        intro other hother heq
        obtain ⟨found, hfound, hitem⟩ := ih.covers other hother
        exact hnone found hfound (by simp [hitem, heq])
      refine ⟨?_, ?_, ?_⟩
      · simp only [List.mem_append, List.mem_singleton]
        rintro other (hother | rfl)
        · exact .inl (ih.mem other hother)
        · exact .inr rfl
      · simp only [List.mem_append, List.mem_singleton]
        rintro found (hfound | rfl) other (hother | rfl) hitem
        · exact ih.newest found hfound other hother hitem
        · exact absurd hitem.symm (hnew found (ih.mem found hfound))
        · exact absurd hitem (hnew other hother)
        · exact le_rfl
      · simp only [List.mem_append, List.mem_singleton]
        rintro other (hother | rfl)
        · obtain ⟨found, hfound, hitem⟩ := ih.covers other hother
          exact ⟨found, .inl hfound, hitem⟩
        · exact ⟨other, .inr rfl, rfl⟩
    next current hfind =>
      have hmem := List.mem_of_find?_eq_some hfind
      have hcurrent : current.mediaItemId = version.mediaItemId := by
        simpa using List.find?_some hfind
      -- No version of the item is newer than the current one.
      have hmost : ∀ other ∈ committed, other.mediaItemId = version.mediaItemId →
          other.versionNumber ≤ current.versionNumber := fun other hother hitem =>
        ih.newest current hmem other hother (hitem.trans hcurrent.symm)
      split_ifs with hlt
      · refine ⟨?_, ?_, ?_⟩
        · simp only [List.mem_map, List.mem_append, List.mem_singleton]
          rintro _ ⟨found, hfound, rfl⟩
          split_ifs
          · exact .inr rfl
          · exact .inl (ih.mem found hfound)
        · simp only [List.mem_map, List.mem_append, List.mem_singleton]
          rintro _ ⟨found, hfound, rfl⟩ other hother hitem
          split_ifs at hitem ⊢ with hsame
          · rcases hother with hother | rfl
            · exact (hmost other hother hitem).trans hlt.le
            · exact le_rfl
          · rcases hother with hother | rfl
            · exact ih.newest found hfound other hother hitem
            · exact absurd hitem.symm hsame
        · simp only [List.mem_append, List.mem_singleton]
          intro other hother
          by_cases hitem : other.mediaItemId = version.mediaItemId
          · exact ⟨version, List.mem_map.mpr ⟨current, hmem, if_pos hcurrent⟩, hitem.symm⟩
          · rcases hother with hother | rfl
            · obtain ⟨found, hfound, hfounditem⟩ := ih.covers other hother
              exact ⟨found, List.mem_map.mpr ⟨found, hfound, if_neg (hfounditem ▸ hitem)⟩,
                hfounditem⟩
            · exact absurd rfl hitem
      · refine ⟨?_, ?_, ?_⟩
        · intro found hfound
          exact List.mem_append_left _ (ih.mem found hfound)
        · simp only [List.mem_append, List.mem_singleton]
          rintro found hfound other (hother | rfl) hitem
          · exact ih.newest found hfound other hother hitem
          · have hle := ih.newest found hfound current (ih.mem current hmem) (hcurrent.trans hitem)
            omega
        · simp only [List.mem_append, List.mem_singleton]
          rintro other (hother | rfl)
          · exact ih.covers other hother
          · exact ⟨current, hmem, hcurrent⟩

/-! ### Commits fit the versions -/

variable {versions : List MediaItemVersion} {transactionId : String} {ids : List ℕ}
  {commit : Commit}

theorem AreOf.append {version : MediaItemVersion} (h : AreOf versions transactionId ids) :
    AreOf (versions ++ [version]) transactionId ids := by
  intro id hid
  obtain ⟨found, hmem, hfound⟩ := h id hid
  exact ⟨found, List.mem_append_left _ hmem, hfound⟩

theorem AreOf.map {moved : List ℕ} (h : AreOf versions transactionId ids) :
    AreOf (versions.map (commitVersion moved)) transactionId ids := by
  intro id hid
  obtain ⟨found, hmem, hfound⟩ := h id hid
  exact ⟨_, List.mem_map_of_mem hmem, by simpa using hfound⟩

theorem IsLatest.append {version : MediaItemVersion} {itemId : String} {id : ℕ}
    (hnew : version.mediaItemVersionId ∉ ids) (h : IsLatest versions transactionId ids itemId id) :
    IsLatest (versions ++ [version]) transactionId ids itemId id := by
  obtain ⟨found, hmem, hid, hitem, htransaction, hnewest⟩ := h
  refine ⟨found, List.mem_append_left _ hmem, hid, hitem, htransaction, ?_⟩
  simp only [List.mem_append, List.mem_singleton]
  rintro other (hother | rfl) hmoved hsame
  · exact hnewest other hother hmoved hsame
  · exact absurd hmoved hnew

theorem IsLatest.map {moved : List ℕ} {itemId : String} {id : ℕ}
    (h : IsLatest versions transactionId ids itemId id) :
    IsLatest (versions.map (commitVersion moved)) transactionId ids itemId id := by
  obtain ⟨found, hmem, hid, hitem, htransaction, hnewest⟩ := h
  refine ⟨_, List.mem_map_of_mem hmem, by simpa, by simpa, by simpa, ?_⟩
  simp only [List.mem_map]
  rintro _ ⟨other, hother, rfl⟩ hmoved hsame
  simpa using hnewest other hother (by simpa using hmoved) (by simpa using hsame)

theorem Fits.append {version : MediaItemVersion}
    (hnew : ∀ other ∈ versions, other.mediaItemVersionId ≠ version.mediaItemVersionId)
    (h : Fits versions commit) : Fits (versions ++ [version]) commit := by
  have hnot : ∀ {ids}, AreOf versions commit.mediaTransactionId ids →
      version.mediaItemVersionId ∉ ids := by
    intro ids hare hid
    obtain ⟨other, hmem, heq, -⟩ := hare _ hid
    exact hnew other hmem heq
  obtain ⟨transactionId, phase⟩ := commit
  cases phase with
  | begun => trivial
  | marked ids => exact AreOf.append h
  | advancing ids rest current heads =>
    obtain ⟨hids, hrest, hheads⟩ := h
    exact ⟨hids.append, fun found hfound => (hrest found hfound).append (hnot hids),
      fun head hhead => (hheads head hhead).append (hnot hids)⟩

theorem Fits.map {moved : List ℕ} (h : Fits versions commit) :
    Fits (versions.map (commitVersion moved)) commit := by
  obtain ⟨transactionId, phase⟩ := commit
  cases phase with
  | begun => trivial
  | marked ids => exact AreOf.map h
  | advancing ids rest current heads =>
    obtain ⟨hids, hrest, hheads⟩ := h
    exact ⟨hids.map, fun found hfound => (hrest found hfound).map,
      fun head hhead => (hheads head hhead).map⟩

theorem areOf_stagedIds : AreOf s.versions transactionId (stagedIds s transactionId) := by
  intro id hid
  obtain ⟨version, hversion, rfl⟩ := List.mem_map.mp hid
  obtain ⟨hmem, hstaged⟩ := List.mem_filter.mp hversion
  exact ⟨version, hmem, rfl, of_decide_eq_true (Bool.and_eq_true_iff.mp hstaged).1⟩

/-- The versions that are selected to become heads. -/
theorem fits_selected (hids : AreOf s.versions transactionId ids)
    (hdistinct : ∀ version ∈ s.versions, ∀ other ∈ s.versions,
      version.mediaItemVersionId = other.mediaItemVersionId → version = other) :
    Fits s.versions ⟨transactionId, .advancing ids
      (latestVersionByItem (transactionVersions s transactionId ids)) none []⟩ := by
  have hlatest := latest_latestVersionByItem (transactionVersions s transactionId ids)
  refine ⟨hids, fun version hversion => ?_, by simp⟩
  obtain ⟨found, hfound, rfl⟩ := List.mem_map.mp (hlatest.mem version hversion)
  obtain ⟨hmem, htransaction⟩ := List.mem_filter.mp hfound
  refine ⟨found, hmem, by simp, by simp, of_decide_eq_true htransaction, ?_⟩
  intro other hother hmoved hitem
  obtain ⟨owner, howner, hid, hof⟩ := hids _ hmoved
  obtain rfl := hdistinct owner howner other hother hid
  have hselected : commitVersion ids owner ∈ transactionVersions s transactionId ids :=
    List.mem_map_of_mem (List.mem_filter.mpr ⟨howner, decide_eq_true hof⟩)
  simpa using hlatest.newest _ hversion _ hselected (by simpa using hitem)

/-! ### The invariant -/

structure Inv (s : State W) : Prop where
  truthful : Truthful s
  ids_lt : ∀ version ∈ s.versions, version.mediaItemVersionId < s.versions.length
  distinct : ∀ version ∈ s.versions, ∀ other ∈ s.versions,
    version.mediaItemVersionId = other.mediaItemVersionId → version = other
  commits : ∀ w commit, s.commits w = some commit → Fits s.versions commit

theorem inv_initial : Inv (State.initial : State W) := by
  refine ⟨⟨?_, ?_, ?_, ?_, ?_⟩, ?_, ?_, ?_⟩ <;> simp [State.initial]

/-- What leaves the versions and the heads alone, no transaction committed, and the bytes of
committed versions. -/
theorem Inv.frame (h : Inv s) (hversions : t.versions = s.versions) (hheads : t.heads = s.heads)
    (htransactions : ∀ id, t.transactions id = some .committed ↔ s.transactions id = some .committed)
    (hblobs : ∀ version ∈ s.versions, version.status = .committed →
      t.blobs version.blobKey = s.blobs version.blobKey)
    (hcommits : ∀ w commit, t.commits w = some commit → Fits s.versions commit) : Inv t := by
  refine ⟨⟨?_, ?_, ?_, ?_, ?_⟩, ?_, ?_, ?_⟩
  · intro version hmem
    rw [htransactions]
    exact h.truthful.committed_iff version (hversions ▸ hmem)
  · rw [hversions]
    exact h.truthful.numbers
  · rw [hversions, hheads]
    exact h.truthful.head
  · rw [hversions, hheads]
    exact h.truthful.newest
  · intro version hmem hstatus
    rw [hversions] at hmem
    rw [hblobs version hmem hstatus]
    exact h.truthful.blobs version hmem hstatus
  · rw [hversions]
    exact h.ids_lt
  · rw [hversions]
    exact h.distinct
  · rw [hversions]
    exact hcommits

theorem commits_setCommit [DecidableEq W] {w w' : W} {c c' : Commit}
    (h : Function.update s.commits w (some c) w' = some c') :
    c' = c ∨ s.commits w' = some c' :=
  (update_eq_some h).imp (fun hnew => (Option.some.inj hnew.2).symm) And.right

/-- A commit goes on, with something that fits. -/
theorem Inv.setCommit [DecidableEq W] {w : W} (h : Inv s) (hfits : Fits s.versions commit)
    {versionLocks : ℕ → Option W} {itemLocks : String → Option W} :
    Inv { s.setCommit w commit with versionLocks := versionLocks, itemLocks := itemLocks } := by
  refine h.frame rfl rfl (fun _ => Iff.rfl) (fun _ _ _ => rfl) fun w' c hc => ?_
  rcases commits_setCommit hc with rfl | hc
  · exact hfits
  · exact h.commits w' c hc

theorem Inv.endCommit [DecidableEq W] {w : W} (h : Inv s) : Inv (s.endCommit w) :=
  h.frame rfl rfl (fun _ => Iff.rfl) (fun _ _ _ => rfl) fun w' c hc =>
    h.commits w' c (update_none_eq_some hc)

/-- A transaction is opened or aborted. -/
theorem Inv.transaction (h : Inv s) {status : MediaTransactionStatus}
    (hold : s.transactions transactionId ≠ some .committed) (hnew : status ≠ .committed) :
    Inv { s with transactions := Function.update s.transactions transactionId (some status) } := by
  refine h.frame rfl rfl (fun id => ?_) (fun _ _ _ => rfl) h.commits
  by_cases hid : id = transactionId
  · subst hid
    simp [hold, hnew]
  · simp [hid]

/-- Bytes are written or deleted. -/
theorem Inv.setBlob (h : Inv s) {key : String} {contentHash : Option String}
    (hserved : ∀ version, IsServed s key version → some version.contentHash = contentHash) :
    Inv (s.setBlob key contentHash) := by
  refine h.frame rfl rfl (fun _ => Iff.rfl) (fun version hmem hstatus => ?_) h.commits
  by_cases hkey : version.blobKey = key
  · have hhash := hserved version ⟨hmem, hstatus, hkey⟩
    rw [h.truthful.blobs version hmem hstatus, hhash, hkey]
    simp [State.setBlob]
  · simp [State.setBlob, hkey]

theorem Inv.setUpload [DecidableEq W] {w : W} {upload : Option Upload} (h : Inv s) :
    Inv (s.setUpload w upload) :=
  h.frame rfl rfl (fun _ => Iff.rfl) (fun _ _ _ => rfl) h.commits

/-! ### Insertions and commits -/

theorem versionNumber_lt_nextVersionNumber {version : MediaItemVersion}
    (hmem : version ∈ s.versions) :
    version.versionNumber < nextVersionNumber s version.mediaItemId := by
  have hfound : version ∈ s.versions.filter fun other =>
      other.mediaItemId = version.mediaItemId := List.mem_filter.mpr ⟨hmem, by simp⟩
  exact Nat.lt_succ_of_le (List.le_max_of_le' 0 (List.mem_map_of_mem hfound) le_rfl)

theorem Inv.insertVersion {session : UploadSession} {contentHash : String} {now : ℕ} (h : Inv s)
    (hopen : s.transactions session.mediaTransactionId ≠ some .committed) :
    Inv (insertVersion s session contentHash now) := by
  unfold Media.insertVersion
  split_ifs
  · exact h
  set version : MediaItemVersion := ⟨s.versions.length, session.mediaItemId,
    session.mediaTransactionId, nextVersionNumber s session.mediaItemId, session.stagedObjectKey,
    contentHash, .staged, now⟩ with hversion
  have hid : ∀ other ∈ s.versions, other.mediaItemVersionId ≠ version.mediaItemVersionId :=
    fun other hother => (h.ids_lt other hother).ne
  have hnumber : ∀ other ∈ s.versions, other.mediaItemId = version.mediaItemId →
      other.versionNumber ≠ version.versionNumber := by
    intro other hother hitem
    have hlt := versionNumber_lt_nextVersionNumber hother
    rw [hitem] at hlt
    exact hlt.ne
  have hmem : ∀ {other}, other ∈ s.versions ++ [version] → other ∈ s.versions ∨ other = version := by
    simp
  refine ⟨⟨?_, ?_, ?_, ?_, ?_⟩, ?_, ?_, ?_⟩
  · intro other hother
    rcases hmem hother with hother | rfl
    · exact h.truthful.committed_iff other hother
    · simpa using hopen
  · intro other hother other' hother' hitem hsame
    rcases hmem hother with hother | rfl <;> rcases hmem hother' with hother' | rfl
    · exact h.truthful.numbers other hother other' hother' hitem hsame
    · exact absurd hsame (hnumber other hother hitem)
    · exact absurd hsame.symm (hnumber other' hother' hitem.symm)
    · rfl
  · intro itemId id hhead
    obtain ⟨other, hother, hof⟩ := h.truthful.head itemId id hhead
    exact ⟨other, List.mem_append_left _ hother, hof⟩
  · intro other hother hstatus
    rcases hmem hother with hother | rfl
    · obtain ⟨head, hhead, hof⟩ := h.truthful.newest other hother hstatus
      exact ⟨head, List.mem_append_left _ hhead, hof⟩
    · simp at hstatus
  · intro other hother hstatus
    rcases hmem hother with hother | rfl
    · exact h.truthful.blobs other hother hstatus
    · simp at hstatus
  · intro other hother
    rw [List.length_append, List.length_singleton]
    rcases hmem hother with hother | rfl
    · exact (h.ids_lt other hother).trans (Nat.lt_succ_self _)
    · exact Nat.lt_succ_self _
  · intro other hother other' hother' hsame
    rcases hmem hother with hother | rfl <;> rcases hmem hother' with hother' | rfl
    · exact h.distinct other hother other' hother' hsame
    · exact absurd hsame (hid other hother)
    · exact absurd hsame.symm (hid other' hother')
    · rfl
  · exact fun w commit hcommit => (h.commits w commit hcommit).append hid

/-- **What a commit leaves behind where it can finish.** -/
theorem Inv.finishCommit [DecidableEq W] {w : W} {heads : List (String × ℕ)} (h : Inv s)
    (hcommit : s.commits w = some ⟨transactionId, .advancing ids [] none heads⟩)
    (hcan : CanFinish s transactionId ids heads) :
    Inv (finishCommit s w transactionId ids heads) := by
  obtain ⟨hids, -, hheads⟩ := h.commits w _ hcommit
  have hof : ∀ version ∈ s.versions, version.mediaItemVersionId ∈ ids →
      version.mediaTransactionId = transactionId := by
    intro version hmem hmoved
    obtain ⟨owner, howner, heq, htransaction⟩ := hids _ hmoved
    rwa [← h.distinct owner howner version hmem heq]
  have hcommitted : ∀ version ∈ s.versions, version.mediaTransactionId = transactionId →
      (commitVersion ids version).status = .committed := fun version hmem htransaction =>
    status_commitVersion.mpr (hcan.moved version hmem htransaction)
  refine ⟨⟨?_, ?_, ?_, ?_, ?_⟩, ?_, ?_, ?_⟩
  · simp only [Media.finishCommit, List.forall_mem_map, commitVersion_mediaTransactionId]
    intro version hmem
    by_cases htransaction : version.mediaTransactionId = transactionId
    · simp [hcommitted version hmem htransaction, htransaction]
    · rw [status_commitVersion, Function.update_of_ne htransaction,
        ← h.truthful.committed_iff version hmem]
      exact or_iff_left fun hmoved => htransaction (hof version hmem hmoved)
  · simp only [Media.finishCommit, List.forall_mem_map, commitVersion_mediaItemId,
      commitVersion_versionNumber]
    intro version hmem other hother hitem hsame
    rw [h.truthful.numbers version hmem other hother hitem hsame]
  · intro itemId id hhead
    rcases Option.or_eq_some_iff.mp hhead with hwon | ⟨-, hold⟩
    · obtain ⟨version, hmem, hid, hitem, htransaction, -⟩ :=
        hheads _ (Dict.mem_of_lookup_eq_some hwon)
      exact ⟨_, List.mem_map_of_mem hmem, by simpa using hid, by simpa using hitem,
        hcommitted version hmem htransaction⟩
    · obtain ⟨version, hmem, hid, hitem, hstatus⟩ := h.truthful.head itemId id hold
      exact ⟨_, List.mem_map_of_mem hmem, by simpa using hid, by simpa using hitem,
        status_commitVersion.mpr (.inl hstatus)⟩
  · simp only [Media.finishCommit, List.forall_mem_map, commitVersion_mediaItemId,
      commitVersion_versionNumber]
    intro version hmem hstatus
    have hnew : ∃ head ∈ s.versions, (heads.lookup version.mediaItemId).or
        (s.heads version.mediaItemId) = some head.mediaItemVersionId ∧
          version.versionNumber ≤ head.versionNumber := by
      cases hlookup : heads.lookup version.mediaItemId with
      | some id =>
        obtain ⟨head, hhead, hid, -, -, hnewest⟩ := hheads _ (Dict.mem_of_lookup_eq_some hlookup)
        refine ⟨head, hhead, by simp [hid], ?_⟩
        rcases status_commitVersion.mp hstatus with hstatus | hmoved
        · exact hcan.won version hmem hstatus head hhead (by rw [hlookup, hid])
        · exact hnewest version hmem hmoved rfl
      | none =>
        rcases status_commitVersion.mp hstatus with hstatus | hmoved
        · exact h.truthful.newest version hmem hstatus
        · exact hcan.lost version hmem hmoved hlookup
    obtain ⟨head, hhead, hof⟩ := hnew
    exact ⟨_, List.mem_map_of_mem hhead, by simpa using hof⟩
  · simp only [Media.finishCommit, List.forall_mem_map, commitVersion_blobKey,
      commitVersion_contentHash]
    intro version hmem hstatus
    rcases status_commitVersion.mp hstatus with hstatus | hmoved
    · exact h.truthful.blobs version hmem hstatus
    · exact hcan.blobs version hmem hmoved
  · simpa [Media.finishCommit] using h.ids_lt
  · simp only [Media.finishCommit, List.forall_mem_map, commitVersion_mediaItemVersionId]
    intro version hmem other hother hsame
    rw [h.distinct version hmem other hother hsame]
  · exact fun w' c hc => (h.commits w' c (update_none_eq_some hc)).map

/-! ### Runs -/

/-- **A step that meets the condition keeps the invariant.** -/
theorem inv_of_next [DecidableEq W] (h : Inv s) (hpermitted : Permitted s e)
    (hnext : next s e = some t) :
    Inv t := by
  cases e with
  | openTransaction transactionId =>
    simp only [next] at hnext
    split_ifs at hnext with hnone <;> obtain rfl := Option.some.inj hnext
    · exact h.transaction (by simp [hnone]) (by decide)
    · exact h
  | checkUpload w session =>
    simp only [next] at hnext
    split_ifs at hnext <;> obtain rfl := Option.some.inj hnext
    · exact h.setUpload
    · exact h
  | writeStaged w contentHash =>
    simp only [next] at hnext
    split at hnext
    next session hupload =>
      obtain rfl := Option.some.inj hnext
      refine (h.setBlob fun version hserved => ?_).setUpload
      rw [hpermitted session hupload version hserved]
    next => exact absurd hnext (by simp)
  | completeStaged w =>
    simp only [next] at hnext
    split at hnext
    next session hupload =>
      obtain ⟨contentHash, -, rfl⟩ := Option.map_eq_some_iff.mp hnext
      exact h.setUpload
    next => exact absurd hnext (by simp)
  | reserve w =>
    simp only [next] at hnext
    split at hnext
    next session contentHash hupload =>
      obtain ⟨-, ⟨⟩⟩ := Option.ite_none_right_eq_some.mp hnext
      exact h.setUpload
    next => exact absurd hnext (by simp)
  | insert w now =>
    simp only [next] at hnext
    split at hnext
    next session contentHash hupload =>
      obtain ⟨-, ⟨⟩⟩ := Option.ite_none_left_eq_some.mp hnext
      exact (h.insertVersion (hpermitted session contentHash hupload)).setUpload
    next => exact absurd hnext (by simp)
  | failUpload w =>
    simp only [next] at hnext
    split at hnext
    next session phase hupload =>
      obtain ⟨-, ⟨⟩⟩ := Option.ite_none_left_eq_some.mp hnext
      exact (h.setBlob fun version hserved =>
        absurd hserved (hpermitted session phase hupload version)).setUpload
    next => exact absurd hnext (by simp)
  | dropUpload w =>
    obtain rfl := Option.some.inj hnext
    exact h.setUpload
  | beginCommit w transactionId =>
    simp only [next] at hnext
    split_ifs at hnext <;> obtain rfl := Option.some.inj hnext
    · refine h.setCommit ?_
      exact trivial
    · exact h
  | markVersions w =>
    simp only [next] at hnext
    split at hnext
    next transactionId hcommit =>
      obtain ⟨-, ⟨⟩⟩ := Option.ite_none_left_eq_some.mp hnext
      refine h.setCommit ?_
      exact areOf_stagedIds
    next => exact absurd hnext (by simp)
  | selectVersions w =>
    simp only [next] at hnext
    split at hnext
    next transactionId ids hcommit =>
      obtain rfl := Option.some.inj hnext
      exact h.setCommit (fits_selected (h.commits w _ hcommit) h.distinct)
    next => exact absurd hnext (by simp)
  | readHead w =>
    simp only [next] at hnext
    split at hnext
    next transactionId ids version rest heads hcommit =>
      obtain rfl := Option.some.inj hnext
      obtain ⟨hids, hrest, hheads⟩ := h.commits w _ hcommit
      refine h.setCommit ?_
      exact ⟨hids, hrest, hheads⟩
    next => exact absurd hnext (by simp)
  | casHead w =>
    simp only [next] at hnext
    split at hnext
    next transactionId ids version rest current heads hcommit =>
      obtain ⟨hids, hrest, hheads⟩ := h.commits w _ hcommit
      obtain ⟨hversion, hrest⟩ := List.forall_mem_cons.mp hrest
      split_ifs at hnext <;> obtain rfl := Option.some.inj hnext
      · refine h.setCommit ?_
        exact ⟨hids, hrest, List.forall_mem_cons.mpr ⟨hversion, hheads⟩⟩
      · refine h.setCommit ?_
        exact ⟨hids, hrest, hheads⟩
    next => exact absurd hnext (by simp)
  | finishCommit w =>
    simp only [next] at hnext
    split at hnext
    next transactionId ids heads hcommit =>
      split_ifs at hnext with hmoved <;> obtain rfl := Option.some.inj hnext
      · exact h.finishCommit hcommit (hpermitted transactionId ids heads hcommit hmoved)
      · exact h.endCommit
    next => exact absurd hnext (by simp)
  | dropCommit w =>
    obtain rfl := Option.some.inj hnext
    exact h.endCommit
  | abort transactionId =>
    simp only [next] at hnext
    split_ifs at hnext with hopen <;> obtain rfl := Option.some.inj hnext
    · exact h.transaction (by simp [hopen]) (by decide)
    · exact h
  | beginSweep w olderThan =>
    obtain ⟨-, ⟨⟩⟩ := Option.ite_none_left_eq_some.mp hnext
    exact h.frame rfl rfl (fun _ => Iff.rfl) (fun _ _ _ => rfl) h.commits
  | sweepBlob w =>
    simp only [next] at hnext
    split at hnext
    next => exact absurd hnext (by simp)
    next key keys hkeys =>
      obtain rfl := Option.some.inj hnext
      have hblob : Inv (s.setBlob key none) := h.setBlob fun version hserved =>
        absurd hserved (hpermitted key (by simp [hkeys]) version)
      exact hblob.frame rfl rfl (fun _ => Iff.rfl) (fun _ _ _ => rfl) hblob.commits
  | dropSweep w =>
    obtain rfl := Option.some.inj hnext
    exact h.frame rfl rfl (fun _ => Iff.rfl) (fun _ _ _ => rfl) h.commits

/-- **Media transactions serve the truth in every run whose steps meet the condition.** -/
theorem truthful_of_run [DecidableEq W] {history : List (Event W)}
    (h : Run next Permitted (State.initial : State W) history s) : Truthful s :=
  (h.invariant inv_initial fun _ _ _ hpermitted hnext hinv =>
    inv_of_next hinv hpermitted hnext).truthful

/-! ### Two versions of an item -/

instance instDecidableCanFinish {heads : List (String × ℕ)} :
    Decidable (CanFinish s transactionId ids heads) :=
  decidable_of_iff
    ((∀ version ∈ s.versions, version.mediaTransactionId = transactionId →
      version.status = .committed ∨ version.mediaItemVersionId ∈ ids) ∧
    (∀ version ∈ s.versions, version.mediaItemVersionId ∈ ids →
      s.blobs version.blobKey = some version.contentHash) ∧
    (∀ version ∈ s.versions, version.mediaItemVersionId ∈ ids →
      heads.lookup version.mediaItemId = none → ∃ head ∈ s.versions,
        s.heads version.mediaItemId = some head.mediaItemVersionId ∧
          version.versionNumber ≤ head.versionNumber) ∧
    ∀ version ∈ s.versions, version.status = .committed → ∀ head ∈ s.versions,
      heads.lookup version.mediaItemId = some head.mediaItemVersionId →
        version.versionNumber ≤ head.versionNumber)
    ⟨fun ⟨hmoved, hblobs, hlost, hwon⟩ => ⟨hmoved, hblobs, hlost, hwon⟩,
      fun h => ⟨h.moved, h.blobs, h.lost, h.won⟩⟩

def isServed (s : State W) (key : String) : Bool :=
  s.versions.any fun version => decide (version.status = .committed ∧ version.blobKey = key)

/-- Whether no upload meets the bytes of a committed version, and a commit finishes where it can. -/
def isCareful (s : State W) : Event W → Bool
  | .writeStaged w _ => (s.uploads w).all fun upload => !isServed s upload.session.stagedObjectKey
  | .insert w _ => (s.uploads w).all fun upload =>
    decide (s.transactions upload.session.mediaTransactionId ≠ some .committed)
  | .failUpload w => (s.uploads w).all fun upload => !isServed s upload.session.stagedObjectKey
  | .finishCommit w =>
    match s.commits w with
    | some ⟨transactionId, .advancing ids [] none heads⟩ =>
      decide (CanFinish s transactionId ids heads)
    | _ => true
  | .sweepBlob w => (s.sweeps w).head?.all fun key => !isServed s key
  | _ => true

theorem isServed_of_served {key : String} {version : MediaItemVersion}
    (h : IsServed s key version) : isServed s key = true := by
  obtain ⟨hmem, hof⟩ := h
  exact List.any_eq_true.mpr ⟨version, hmem, decide_eq_true hof⟩

theorem permitted_of_isCareful (h : isCareful s e = true) : Permitted s e := by
  cases e with
  | writeStaged w contentHash =>
    intro session hupload version hserved
    simp [isCareful, hupload, isServed_of_served hserved] at h
  | insert w now =>
    intro session contentHash hupload
    simpa [isCareful, hupload] using h
  | failUpload w =>
    intro session phase hupload version hserved
    simp [isCareful, hupload, isServed_of_served hserved] at h
  | finishCommit w =>
    intro transactionId ids heads hcommit _
    simpa [isCareful, hcommit] using h
  | sweepBlob w =>
    intro key hkey version hserved
    simp [isCareful, Option.mem_def.mp hkey, isServed_of_served hserved] at h
  | _ => trivial

/-- The upload of a version of an item, newest event first. -/
def uploadEvents (transactionId key contentHash : String) : List (Event Unit) :=
  [.insert () 0, .reserve (), .completeStaged (), .writeStaged () contentHash,
    .checkUpload () ⟨transactionId, "item", key⟩, .openTransaction transactionId]

def commitEvents (transactionId : String) : List (Event Unit) :=
  [.finishCommit (), .casHead (), .readHead (), .selectVersions (), .markVersions (),
    .beginCommit () transactionId]

/-- Two versions of an item, committed in order. -/
def inOrder : List (Event Unit) :=
  commitEvents "second" ++ commitEvents "first" ++ uploadEvents "second" "b" "y" ++
    uploadEvents "first" "a" "x"

theorem truthful_inOrder : ∃ s, Run next Permitted State.initial inOrder s ∧
    s.heads "item" = some 1 ∧ Truthful s := by
  obtain ⟨s, hreplay, hhead⟩ := exists_replay_of_any (show (replay (guarded next isCareful)
    State.initial inOrder).any (fun s => decide (s.heads "item" = some 1)) = true by decide +kernel)
  have hrun := run_of_replay_guarded (fun _ _ => permitted_of_isCareful) hreplay
  exact ⟨s, hrun, of_decide_eq_true hhead, truthful_of_run hrun⟩

/-- The first version is committed behind the second, and becomes the head. -/
theorem not_truthful : ¬ ∀ (history : List (Event Unit)) (s : State Unit),
    Run next Always State.initial history s → Truthful s := by
  intro h
  obtain ⟨s, hreplay, hbad⟩ := exists_replay_of_any (show (replay next (State.initial : State Unit)
    (commitEvents "first" ++ commitEvents "second" ++
      uploadEvents "second" "b" "y" ++ uploadEvents "first" "a" "x")).any
        (fun s => decide (s.heads "item" = some 0) && s.versions.any fun version =>
          decide (version.status = .committed ∧ version.mediaItemId = "item" ∧
            ∀ head ∈ s.versions, head.mediaItemVersionId = 0 →
              head.versionNumber < version.versionNumber)) = true by decide +kernel)
  obtain ⟨hhead, hnewer⟩ := Bool.and_eq_true_iff.mp hbad
  obtain ⟨version, hmem, hversion⟩ := List.any_eq_true.mp hnewer
  obtain ⟨hstatus, hitem, hnewer⟩ := of_decide_eq_true hversion
  obtain ⟨head, hfound, hof, hle⟩ :=
    (h _ s (run_always_iff.mpr hreplay)).newest version hmem hstatus
  rw [hitem, of_decide_eq_true hhead] at hof
  exact absurd (hnewer head hfound (Option.some.inj hof).symm) (not_lt.mpr hle)

end FoundryLite.Media
