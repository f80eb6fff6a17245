import FoundryLite.ObjectStore.Store

/-!
# Writes to objects and links

The write statements of the action repository. Each object write allocates the next change
sequence of its tenant, touches at most one row, and appends a snapshot of that row to the version
history.

Updates are compare-and-set: the row is found by its id and changed only when its version is the
one the writer expects (`conditionalObjectUpdate`). Soft deletion, restoration and the update of an
edited object are that one statement with different guards and values. Creation refuses an occupied
key and says so; creating a link revives a link row that is already there.

## Main results

* `conditionalObjectUpdate_eq_true`: a successful update hit exactly one row, at the expected
  version, and changed that row only.
* `createObjectRecordWrite_eq_true`: a successful creation found its key free.
* `createObjectLinkWrite_eq_ok`, `softDeleteObjectLinkWrite_eq_ok`: which link rows are visible
  after a link write.
-/

namespace FoundryLite.ObjectStore

open Transaction

/-! ### Change sequences and snapshots -/

/-- Allocate the next change sequence of a tenant. -/
def nextObjectChangeSequence (tenantId : String) : Tx ℕ := do
  let store ← get
  let next := store.changeCounters tenantId + 1
  set { store with changeCounters := Function.update store.changeCounters tenantId next }
  return next

/-- Append the current state of an object row to the version history. -/
def snapshotObjectRecordVersion (tenantId recordId : String) : Tx Unit := do
  let store ← get
  match store.objects.rows.find? fun row => row.tenantId = tenantId ∧ row.id = recordId with
  | none => throw (databaseError "No row was found when one was required")
  | some row => set { store with objectVersions := store.objectVersions ++ [row] }

/-- Nothing but counters and the version history differs. -/
structure SameRows (s s' : Store) : Prop where
  objects : s'.objects = s.objects
  links : s'.links = s.links
  edits : s'.edits = s.edits

theorem SameRows.refl (s : Store) : SameRows s s := ⟨rfl, rfl, rfl⟩

theorem SameRows.trans {s t u : Store} (h : SameRows s t) (h' : SameRows t u) : SameRows s u :=
  ⟨h'.objects.trans h.objects, h'.links.trans h.links, h'.edits.trans h.edits⟩

variable {s s' : Store}

theorem sameRows_of_tick {n : ℕ} (h : tick s = .ok (n, s')) : SameRows s s' := by
  simp only [tick, bind_eq_ok_iff, get_eq_ok_iff,
    set_eq_ok_iff, pure_eq_ok_iff, Prod.mk.injEq] at h
  obtain ⟨store, s₁, ⟨rfl, rfl⟩, -, s₂, ⟨-, rfl⟩, -, rfl⟩ := h
  exact ⟨rfl, rfl, rfl⟩

theorem sameRows_of_now {env : Environment} {time : String} (h : now env s = .ok (time, s')) :
    SameRows s s' := by
  obtain ⟨n, s₁, htick, heq⟩ := map_eq_ok_iff.mp h
  obtain ⟨-, rfl⟩ := Prod.mk.inj heq
  exact sameRows_of_tick htick

theorem sameRows_of_newId {env : Environment} {kind id : String}
    (h : newId env kind s = .ok (id, s')) : SameRows s s' := by
  obtain ⟨n, s₁, htick, heq⟩ := map_eq_ok_iff.mp h
  obtain ⟨-, rfl⟩ := Prod.mk.inj heq
  exact sameRows_of_tick htick

theorem sameRows_of_nextObjectChangeSequence {tenantId : String} {n : ℕ}
    (h : nextObjectChangeSequence tenantId s = .ok (n, s')) : SameRows s s' := by
  simp only [nextObjectChangeSequence, bind_eq_ok_iff, get_eq_ok_iff,
    set_eq_ok_iff, pure_eq_ok_iff, Prod.mk.injEq] at h
  obtain ⟨store, s₁, ⟨rfl, rfl⟩, -, s₂, ⟨-, rfl⟩, -, rfl⟩ := h
  exact ⟨rfl, rfl, rfl⟩

theorem sameRows_of_snapshotObjectRecordVersion {tenantId recordId : String} {u : Unit}
    (h : snapshotObjectRecordVersion tenantId recordId s = .ok (u, s')) : SameRows s s' := by
  simp only [snapshotObjectRecordVersion, bind_eq_ok_iff,
    get_eq_ok_iff, Prod.mk.injEq] at h
  obtain ⟨store, s₁, ⟨rfl, rfl⟩, h⟩ := h
  cases hfind : s.objects.rows.find? fun row => row.tenantId = tenantId ∧ row.id = recordId with
  | none =>
    rw [hfind] at h
    simp at h
  | some row =>
    rw [hfind] at h
    simp only [set_eq_ok_iff, Prod.mk.injEq] at h
    obtain ⟨-, rfl⟩ := h
    exact ⟨rfl, rfl, rfl⟩

/-! ### Compare-and-set on one object row -/

/-- The values an update writes, given the allocated change sequence. They never include a key. -/
abbrev ObjectUpdate := ℕ → Table.Update ObjectRecord.id ObjectRecord.identity

/-- Update the row with a given id, provided the guard holds of it; say whether a row was hit. -/
def conditionalObjectUpdate (tenantId recordId : String) (guard : ObjectRecord → Bool)
    (update : ObjectUpdate) : Tx Bool := do
  let sequence ← nextObjectChangeSequence tenantId
  let store ← get
  let hit := fun row : ObjectRecord => row.tenantId = tenantId && row.id = recordId && guard row
  set { store with objects := store.objects.modify hit (update sequence) }
  if store.objects.rows.countP hit ≠ 1 then return false
  snapshotObjectRecordVersion tenantId recordId
  return true

/-- **A successful compare-and-set changes exactly one row**: the row with the given id, which
passed the guard. -/
theorem conditionalObjectUpdate_eq_true {tenantId recordId : String} {guard : ObjectRecord → Bool}
    {update : ObjectUpdate} (h : conditionalObjectUpdate tenantId recordId guard update s
      = .ok (true, s')) :
    ∃ n, ∃ row ∈ s.objects.rows, row.id = recordId ∧ row.tenantId = tenantId ∧ guard row ∧
      s'.objects = s.objects.updateRow recordId (update n) ∧ s'.links = s.links ∧ s'.edits = s.edits := by
  simp only [conditionalObjectUpdate, bind_eq_ok_iff, get_eq_ok_iff,
    set_eq_ok_iff, Prod.mk.injEq] at h
  obtain ⟨n, s₁, hseq, store, s₂, ⟨rfl, rfl⟩, -, s₃, ⟨-, rfl⟩, h⟩ := h
  have hsame := sameRows_of_nextObjectChangeSequence hseq
  split_ifs at h with hcount
  · simp at h
  rw [not_not] at hcount
  simp only [bind_eq_ok_iff, pure_eq_ok_iff, Prod.mk.injEq] at h
  obtain ⟨u, s₄, hsnap, -, rfl⟩ := h
  have hafter := sameRows_of_snapshotObjectRecordVersion hsnap
  obtain ⟨row, hrow, hhit⟩ := List.countP_pos_iff.mp (hcount.symm ▸ Nat.one_pos)
  simp only [Bool.and_eq_true, decide_eq_true_eq] at hhit
  obtain ⟨⟨htenant, hid⟩, hguard⟩ := hhit
  rw [hsame.objects] at hrow
  refine ⟨n, row, hrow, hid, htenant, hguard, ?_, hafter.links.trans hsame.links,
    hafter.edits.trans hsame.edits⟩
  rw [hafter.objects]
  -- the id alone selects the row that passed the guard
  refine Table.ext ?_
  simp only [Table.rows_modify, Table.rows_updateRow, hsame.objects]
  refine List.map_congr_left fun x hx => ?_
  by_cases hxid : x.id = recordId
  · obtain rfl : x = row := Table.eq_of_pk_eq hx hrow (hxid.trans hid.symm)
    simp [htenant, hxid, hguard]
  · simp [hxid]

theorem now_eq (env : Environment) (s : Store) :
    now env s = .ok (env.nowAt s.ticks, { s with ticks := s.ticks + 1 }) := rfl

theorem newId_eq (env : Environment) (kind : String) (s : Store) :
    newId env kind s
      = .ok (kind ++ "_" ++ env.newIdAt s.ticks, { s with ticks := s.ticks + 1 }) := rfl

theorem exists_snapshotObjectRecordVersion {row : ObjectRecord} (hrow : row ∈ s.objects.rows) :
    ∃ s', snapshotObjectRecordVersion row.tenantId row.id s = .ok ((), s') := by
  have hfound : (s.objects.rows.find? fun x => x.tenantId = row.tenantId ∧ x.id = row.id).isSome :=
    List.find?_isSome.mpr ⟨row, hrow, by simp⟩
  obtain ⟨x, hx⟩ := Option.isSome_iff_exists.mp hfound
  refine ⟨{ s with objectVersions := s.objectVersions ++ [x] }, ?_⟩
  simp only [snapshotObjectRecordVersion, bind_eq_ok_iff, get_eq_ok_iff,
    Prod.mk.injEq]
  refine ⟨s, s, ⟨rfl, rfl⟩, ?_⟩
  rw [hx]
  rfl

/-- A compare-and-set on a stored row that passes the guard succeeds. -/
theorem exists_conditionalObjectUpdate {row : ObjectRecord} {guard : ObjectRecord → Bool}
    (update : ObjectUpdate) (hrow : row ∈ s.objects.rows) (hguard : guard row) :
    ∃ s', conditionalObjectUpdate row.tenantId row.id guard update s = .ok (true, s') := by
  let hit := fun x : ObjectRecord => x.tenantId = row.tenantId && x.id = row.id && guard x
  have hcount : s.objects.rows.countP hit = 1 :=
    Table.countP_eq_one hrow (by simp [hit, hguard]) fun x hx => by
      simp only [hit, Bool.and_eq_true, decide_eq_true_eq] at hx
      exact hx.1.2
  let n := s.changeCounters row.tenantId + 1
  let s₁ : Store :=
    { s with
      changeCounters := Function.update s.changeCounters row.tenantId n
      objects := s.objects.modify hit (update n) }
  have hrow₁ : (update n).apply row ∈ s₁.objects.rows :=
    List.mem_map.mpr ⟨row, hrow, if_pos (by simp [hit, hguard])⟩
  have htenant : ((update n).apply row).tenantId = row.tenantId :=
    congrArg ObjectKey.tenantId ((update n).uq_apply row)
  obtain ⟨s', hsnap⟩ := exists_snapshotObjectRecordVersion hrow₁
  rw [htenant, (update n).pk_apply] at hsnap
  refine ⟨s', ?_⟩
  change (if s.objects.rows.countP hit ≠ 1 then pure false else do
    snapshotObjectRecordVersion row.tenantId row.id
    return true : Tx Bool) s₁ = .ok (true, s')
  rw [if_neg (not_not.mpr hcount)]
  simp only [bind_eq_ok_iff, pure_eq_ok_iff]
  exact ⟨(), s', hsnap, rfl⟩

structure ObjectDeleteWrite where
  objectRecordId : String
  tenantId : String
  expectedObjectVersion : ℕ
  deletionReason : String
  updatedAt : String

def softDeletion (write : ObjectDeleteWrite) : ObjectUpdate := fun sequence => {
  apply row :=
    { row with
      deleted := true
      isActive := false
      deletionReason := some write.deletionReason
      objectVersion := write.expectedObjectVersion.succPNat
      objectChangeSequence := sequence
      updatedAt := write.updatedAt }
  pk_apply _ := rfl
  uq_apply _ := rfl }

/-- Move an object into the soft-deleted state. -/
def softDeleteObjectWrite (write : ObjectDeleteWrite) : Tx Bool :=
  conditionalObjectUpdate write.tenantId write.objectRecordId
    (fun row => (row.objectVersion : ℕ) = write.expectedObjectVersion) (softDeletion write)

structure ObjectRestoreWrite where
  objectRecordId : String
  tenantId : String
  expectedObjectVersion : ℕ
  updatedAt : String

def restoration (write : ObjectRestoreWrite) : ObjectUpdate := fun sequence => {
  apply row :=
    { row with
      deleted := false
      isActive := true
      deletionReason := none
      objectVersion := write.expectedObjectVersion.succPNat
      objectChangeSequence := sequence
      updatedAt := write.updatedAt }
  pk_apply _ := rfl
  uq_apply _ := rfl }

/-- Move a soft-deleted object back to the active state. -/
def restoreObjectWrite (write : ObjectRestoreWrite) : Tx Bool :=
  conditionalObjectUpdate write.tenantId write.objectRecordId
    (fun row => (row.objectVersion : ℕ) = write.expectedObjectVersion && row.deleted)
    (restoration write)

structure ObjectTargetUpdate where
  objectRecordId : String
  tenantId : String
  expectedObjectVersion : ℕ
  editProperties : PropertyMap
  properties : PropertyMap
  nextObjectVersion : ℕ+
  updatedAt : String

def targetUpdate (write : ObjectTargetUpdate) : ObjectUpdate := fun sequence => {
  apply row :=
    { row with
      editProperties := write.editProperties
      properties := write.properties
      objectVersion := write.nextObjectVersion
      objectChangeSequence := sequence
      updatedAt := write.updatedAt }
  pk_apply _ := rfl
  uq_apply _ := rfl }

def updateObjectTarget (write : ObjectTargetUpdate) : Tx Bool :=
  conditionalObjectUpdate write.tenantId write.objectRecordId
    (fun row => (row.objectVersion : ℕ) = write.expectedObjectVersion) (targetUpdate write)

/-! ### Creating an object -/

structure ObjectCreateWrite where
  objectRecordId : String
  tenantId : String
  objectType : ObjectTypeId
  objectId : String
  properties : PropertyMap
  createdAt : String

/-- The index version that action-created rows are filed under. -/
def activeIndexName : String := "active"

def objectCreateValues (write : ObjectCreateWrite) (changeSequence : ℕ) : ObjectRecord where
  id := write.objectRecordId
  tenantId := write.tenantId
  objectType := write.objectType
  objectId := write.objectId
  indexVersion := activeIndexName
  isActive := true
  properties := write.properties
  baseProperties := ∅
  editProperties := write.properties
  propertyVersions := Dict.ofList (write.properties.keys.map fun name => (name, .int 1))
  sourceDatasetVersionId := none
  sourceHash := none
  objectVersion := 1
  objectChangeSequence := changeSequence
  deleted := false
  deletionReason := none
  createdAt := write.createdAt
  updatedAt := write.createdAt

/-- Insert an action-created object; `false` if its key is taken. -/
def createObjectRecordWrite (write : ObjectCreateWrite) : Tx Bool := do
  let sequence ← nextObjectChangeSequence write.tenantId
  let store ← get
  let row := objectCreateValues write sequence
  if (store.objects.get? row.identity).isSome then return false
  match store.objects.insert? row with
  | none => throw (databaseError "UNIQUE constraint failed: object_records.id")
  | some objects =>
    set { store with objects }
    snapshotObjectRecordVersion write.tenantId write.objectRecordId
    return true

theorem createObjectRecordWrite_eq_true {write : ObjectCreateWrite}
    (h : createObjectRecordWrite write s = .ok (true, s')) :
    ∃ n, s.objects.insert? (objectCreateValues write n) = some s'.objects ∧
      s'.links = s.links ∧ s'.edits = s.edits := by
  simp only [createObjectRecordWrite, bind_eq_ok_iff, get_eq_ok_iff,
    Prod.mk.injEq] at h
  obtain ⟨n, s₁, hseq, store, s₂, ⟨rfl, rfl⟩, h⟩ := h
  have hsame := sameRows_of_nextObjectChangeSequence hseq
  split_ifs at h with hfree
  · simp at h
  cases hinsert : s₁.objects.insert? (objectCreateValues write n) with
  | none =>
    rw [hinsert] at h
    simp at h
  | some objects =>
    rw [hinsert] at h
    simp only [bind_eq_ok_iff, set_eq_ok_iff,
      pure_eq_ok_iff, Prod.mk.injEq] at h
    obtain ⟨-, s₃, ⟨-, rfl⟩, u, s₄, hsnap, -, rfl⟩ := h
    have hafter := sameRows_of_snapshotObjectRecordVersion hsnap
    refine ⟨n, ?_, hafter.links.trans hsame.links, hafter.edits.trans hsame.edits⟩
    rw [hafter.objects, ← hsame.objects]
    exact hinsert

/-! ### Links -/

structure ObjectLinkWrite where
  linkRecordId : String
  tenantId : String
  linkType : LinkTypeRow
  fromObjectId : String
  toObjectId : String
  updatedAt : String

def ObjectLinkWrite.ends (write : ObjectLinkWrite) : LinkEnds :=
  ⟨write.tenantId, write.linkType, write.fromObjectId, write.toObjectId⟩

def objectLinkValues (write : ObjectLinkWrite) : ObjectLink where
  id := write.linkRecordId
  tenantId := write.tenantId
  linkType := write.linkType
  fromObjectId := write.fromObjectId
  toObjectId := write.toObjectId
  indexVersion := activeIndexName
  isActive := true
  properties := ∅
  sourceDatasetVersionId := none
  linkVersion := 1
  deleted := false
  deletionReason := none
  updatedAt := write.updatedAt

/-- What an upsert does to the link row it finds in place. -/
def reactivation (updatedAt : String) : Table.Update ObjectLink.id ObjectLink.identity where
  apply row :=
    { row with
      isActive := true
      deleted := false
      deletionReason := none
      linkVersion := row.linkVersion + 1
      updatedAt }
  pk_apply _ := rfl
  uq_apply _ := rfl

/-- Create the link, or revive the row that already occupies its key. -/
def createObjectLinkWrite (write : ObjectLinkWrite) : Tx Unit := do
  let store ← get
  let row := objectLinkValues write
  match store.links.get? row.identity with
  | some _ =>
    set { store with
      links := store.links.modify (fun link => link.identity = row.identity)
        (reactivation write.updatedAt) }
  | none => match store.links.insert? row with
    | none => throw (databaseError "UNIQUE constraint failed: object_links.id")
    | some links => set { store with links }

structure ObjectLinkDeleteWrite where
  tenantId : String
  linkType : LinkTypeRow
  fromObjectId : String
  toObjectId : String
  deletionReason : String
  updatedAt : String

def ObjectLinkDeleteWrite.ends (write : ObjectLinkDeleteWrite) : LinkEnds :=
  ⟨write.tenantId, write.linkType, write.fromObjectId, write.toObjectId⟩

/-- What soft deletion does to a link row. -/
def linkDeletion (deletionReason updatedAt : String) :
    Table.Update ObjectLink.id ObjectLink.identity where
  apply row :=
    { row with
      isActive := false
      deleted := true
      deletionReason := some deletionReason
      linkVersion := row.linkVersion + 1
      updatedAt }
  pk_apply _ := rfl
  uq_apply _ := rfl

/-- Soft-delete the visible rows of a link, under every index version; `false` if there was
none. -/
def softDeleteObjectLinkWrite (write : ObjectLinkDeleteWrite) : Tx Bool := do
  let store ← get
  let hit := fun link : ObjectLink => link.ends = write.ends && link.isVisible
  set { store with
    links := store.links.modify hit (linkDeletion write.deletionReason write.updatedAt) }
  return decide (1 ≤ store.links.rows.countP hit)

/-- Whether the link row under a key is visible. -/
def Store.isLinkVisible (s : Store) (key : LinkEnds × String) : Bool :=
  (s.links.get? key).any ObjectLink.isVisible

theorem Store.isLinkVisible_congr (h : s'.links = s.links) (key : LinkEnds × String) :
    s'.isLinkVisible key = s.isLinkVisible key := by
  rw [isLinkVisible, isLinkVisible, h]

/-- Whether a link row is stored under a key, visible or not. -/
def Store.hasLink (s : Store) (key : LinkEnds × String) : Bool := (s.links.get? key).isSome

/-- No link row is dropped. -/
def Store.KeepsLinks (s s' : Store) : Prop := ∀ key, s.hasLink key = true → s'.hasLink key = true

theorem Store.KeepsLinks.of_links_eq (h : s'.links = s.links) : s.KeepsLinks s' := by
  intro key hkey
  rwa [hasLink, h]

theorem Store.KeepsLinks.trans {t : Store} (h : s.KeepsLinks t) (h' : t.KeepsLinks s') :
    s.KeepsLinks s' := fun key hkey => h' key (h key hkey)

theorem Store.hasLink_of_isLinkVisible {key : LinkEnds × String}
    (h : s.isLinkVisible key = true) : s.hasLink key = true := by
  obtain ⟨row, hrow, -⟩ := Option.any_eq_true _ _ |>.mp h
  rw [hasLink, hrow]
  rfl

/-- **Creating a link makes its row under `"active"` visible**, whatever it was before, and
touches nothing else. -/
theorem createObjectLinkWrite_eq_ok {write : ObjectLinkWrite} {u : Unit}
    (h : createObjectLinkWrite write s = .ok (u, s')) :
    s'.objects = s.objects ∧ s'.edits = s.edits ∧ s.KeepsLinks s' ∧
      ∀ key, s'.isLinkVisible key
        = if key = (write.ends, activeIndexName) then true else s.isLinkVisible key := by
  simp only [createObjectLinkWrite, bind_eq_ok_iff, get_eq_ok_iff,
    Prod.mk.injEq] at h
  obtain ⟨store, s₁, ⟨rfl, rfl⟩, h⟩ := h
  have hidentity : (objectLinkValues write).identity = (write.ends, activeIndexName) := rfl
  cases hget : s.links.get? (objectLinkValues write).identity with
  | some row =>
    rw [hget] at h
    simp only [set_eq_ok_iff, Prod.mk.injEq] at h
    obtain ⟨-, rfl⟩ := h
    refine ⟨rfl, rfl, fun key hkey => ?_, fun key => ?_⟩
    · rw [Store.hasLink, Table.get?_modify, Option.isSome_map]
      exact hkey
    rw [Store.isLinkVisible, Store.isLinkVisible, Table.get?_modify, ← hidentity]
    split_ifs with hkey
    · rw [hkey, hget]
      simp [(Table.get?_eq_some_iff.mp hget).2, reactivation, ObjectLink.isVisible]
    · cases hrow : s.links.get? key with
      | none => rfl
      | some row =>
        have hne : row.identity ≠ (objectLinkValues write).identity := by
          rw [(Table.get?_eq_some_iff.mp hrow).2]
          exact hkey
        simp [hne]
  | none =>
    rw [hget] at h
    cases hinsert : s.links.insert? (objectLinkValues write) with
    | none =>
      rw [hinsert] at h
      simp at h
    | some links =>
      rw [hinsert] at h
      simp only [set_eq_ok_iff, Prod.mk.injEq] at h
      obtain ⟨-, rfl⟩ := h
      refine ⟨rfl, rfl, fun key hkey => ?_, fun key => ?_⟩
      · rw [Store.hasLink, Table.get?_insert? hinsert]
        split_ifs
        · rfl
        · exact hkey
      rw [Store.isLinkVisible, Store.isLinkVisible, Table.get?_insert? hinsert, ← hidentity]
      split_ifs
      · rfl
      · rfl

/-- **Deleting a link hides its rows under every index version**; it succeeds exactly when one of
them was visible. -/
theorem softDeleteObjectLinkWrite_eq_ok {write : ObjectLinkDeleteWrite} {isDeleted : Bool}
    (h : softDeleteObjectLinkWrite write s = .ok (isDeleted, s')) :
    s'.objects = s.objects ∧ s'.edits = s.edits ∧ s.KeepsLinks s' ∧
      (isDeleted = true ↔ ∃ version, s.isLinkVisible (write.ends, version) = true) ∧
      ∀ key, s'.isLinkVisible key = if key.1 = write.ends then false else s.isLinkVisible key := by
  simp only [softDeleteObjectLinkWrite, bind_eq_ok_iff, get_eq_ok_iff,
    set_eq_ok_iff, pure_eq_ok_iff, Prod.mk.injEq] at h
  obtain ⟨store, s₁, ⟨rfl, rfl⟩, -, s₂, ⟨-, rfl⟩, rfl, rfl⟩ := h
  refine ⟨rfl, rfl, fun key hkey => ?_, ?_, fun key => ?_⟩
  · rw [Store.hasLink, Table.get?_modify, Option.isSome_map]
    exact hkey
  · rw [decide_eq_true_eq, Nat.one_le_iff_ne_zero, ← Nat.pos_iff_ne_zero, List.countP_pos_iff]
    constructor
    · rintro ⟨row, hrow, hhit⟩
      simp only [Bool.and_eq_true, decide_eq_true_eq] at hhit
      refine ⟨row.indexVersion, ?_⟩
      rw [Store.isLinkVisible, ← hhit.1]
      change ((s.links.get? row.identity).any ObjectLink.isVisible) = true
      rw [Table.get?_uq_of_mem hrow]
      exact hhit.2
    · rintro ⟨version, hvisible⟩
      obtain ⟨row, hget, hrow⟩ := Option.any_eq_true _ _ |>.mp hvisible
      obtain ⟨hmem, hidentity⟩ := Table.get?_eq_some_iff.mp hget
      refine ⟨row, hmem, ?_⟩
      have hends : row.ends = write.ends := congrArg Prod.fst hidentity
      simp [hends, hrow]
  · rw [Store.isLinkVisible, Store.isLinkVisible, Table.get?_modify]
    cases hget : s.links.get? key with
    | none => simp
    | some row =>
      have hends : row.ends = key.1 :=
        congrArg Prod.fst (Table.get?_eq_some_iff.mp hget).2
      by_cases hkey : key.1 = write.ends
      · have hhidden : ((linkDeletion write.deletionReason write.updatedAt).apply row).isVisible
            = false := rfl
        by_cases hvisible : row.isVisible
        · simp [hends, hkey, hvisible, hhidden]
        · simp [hkey, hvisible]
      · simp [hends, hkey]

/-- An upsert of a link whose row under `"active"` is stored succeeds. -/
theorem exists_createObjectLinkWrite {write : ObjectLinkWrite}
    (h : s.hasLink (write.ends, activeIndexName) = true) :
    ∃ s', createObjectLinkWrite write s = .ok ((), s') := by
  obtain ⟨row, hrow⟩ := Option.isSome_iff_exists.mp h
  have hget : s.links.get? (objectLinkValues write).identity = some row := hrow
  refine ⟨{ s with
    links := s.links.modify (fun link => link.identity = (objectLinkValues write).identity)
      (reactivation write.updatedAt) }, ?_⟩
  simp only [createObjectLinkWrite, bind_eq_ok_iff, get_eq_ok_iff,
    Prod.mk.injEq]
  refine ⟨s, s, ⟨rfl, rfl⟩, ?_⟩
  rw [hget]
  rfl

theorem exists_softDeleteObjectLinkWrite (write : ObjectLinkDeleteWrite) (s : Store) :
    ∃ isDeleted s', softDeleteObjectLinkWrite write s = .ok (isDeleted, s') := ⟨_, _, rfl⟩

/-! ### Edit rows -/

def insertObjectEdit (record : ObjectEdit) : Tx Unit :=
  modify fun store => { store with edits := store.edits ++ [record] }

end FoundryLite.ObjectStore
