import FoundryLite.Security.Erasure
import Mathlib.Data.Fintype.EquivFin

/-!
# What an erasure certificate is backed by

A certificate should be issued exactly if the receipts match the actions of the manifest one to one, and
each has the status that its action requires. The receipts that match are always certified.

Of the receipts that are certified, those match that are of the tenant of the manifest, unless the
manifest has an action more than once: the check finds the last receipt of such an action each time it
looks for one, and another receipt can make up the number. The audit action, which every manifest has, can
double that of a resource which was named once.

## Main results

* `exists_certificate_iff`: when there is a certificate.
* `certificate_exact_iff`: for which receipts the certificate is exact.
-/

namespace FoundryLite.Security.Erasure

/-! ### The actions of a manifest -/

/-- The status that the receipt of a resource must have. -/
def requiredStatus : ResourceType → ReceiptStatus
  | .backupSnapshot | .datasetRow | .materializationRow => .deferred
  | _ => .applied

theorem expectedStatus_actionForResource {request : ErasureRequest} {subjectHash : String}
    {policy : ErasureRetentionPolicy} {resource : ErasureResourceRef} :
    (actionForResource request subjectHash policy resource).expectedStatus =
        requiredStatus resource.resourceType ∧
      (actionForResource request subjectHash policy resource).resource = resource := by
  rw [actionForResource]
  cases hresource : resource.resourceType <;> exact ⟨rfl, rfl⟩

/-- The action is of the tenant, and requires the status that its resource does. -/
def IsProper (tenantId : String) (action : ErasureManifestAction) : Prop :=
  action.resource.tenantId = tenantId ∧
    action.expectedStatus = requiredStatus action.resource.resourceType

theorem tenantId_of_resourcesForRequest {request : ErasureRequest}
    {resolutions : List ErasureResolution} {resources : List ErasureResourceRef}
    (h : resourcesForRequest request resolutions = .ok resources) :
    ∀ ref ∈ resources, ref.tenantId = request.tenantId := by
  simp only [resourcesForRequest, Except.bind_eq_ok_iff, Except.pure_eq_ok_iff] at h
  obtain ⟨found, hfound, rfl⟩ := h
  intro ref href
  rw [List.mem_insertionSort, List.mem_flatten] at href
  obtain ⟨group, hgroup, href⟩ := href
  obtain ⟨resolution, -, hresolution⟩ := List.exists_mem_of_mem_mapM_eq_ok hfound hgroup
  split_ifs at hresolution with hsame
  rw [Except.pure_eq_ok_iff] at hresolution
  subst hresolution
  rw [resolution.sameTenant ref href]
  exact hsame.1

/-- **The actions of a manifest are proper ones of its tenant.** -/
theorem isProper_of_manifest {tokens : Tokens} {request : ErasureRequest}
    {resolutions : List ErasureResolution} {policy : ErasureRetentionPolicy}
    {manifest : ErasureManifest}
    (h : buildErasureManifest tokens request resolutions policy = .ok manifest) :
    ∀ action ∈ manifest.actions, IsProper manifest.tenantId action := by
  simp only [buildErasureManifest, Except.bind_eq_ok_iff, Except.pure_eq_ok_iff] at h
  obtain ⟨resources, hresources, subjectHash, -, rfl⟩ := h
  intro action haction
  simp only [List.mem_insertionSort, List.mem_append, List.mem_map, List.mem_singleton] at haction
  rcases haction with ⟨resource, hresource, rfl⟩ | rfl
  · obtain ⟨hstatus, hkept⟩ := @expectedStatus_actionForResource request subjectHash policy resource
    rw [IsProper, hstatus, hkept]
    exact ⟨tenantId_of_resourcesForRequest hresources resource hresource, rfl⟩
  · exact ⟨rfl, rfl⟩

/-! ### When there is a certificate -/

section Certificates

variable {tokens : Tokens} {manifest : ErasureManifest} {actions : List ErasureManifestAction}
  {receipts : List ErasureActionReceipt} {certifiedAt certifiedBy tenantId : String}

/-- The last receipt of every action has the status that it requires, and there are as many receipts as
actions. -/
structure Covers (actions : List ErasureManifestAction) (receipts : List ErasureActionReceipt) :
    Prop where
  last : ∀ action ∈ actions, ∃ receipt, receiptByKey receipts action.key = some receipt ∧
    receipt.status = action.expectedStatus
  length : receipts.length = actions.length

/-- Sorting leaves the receipts of one key in their order. -/
theorem receiptByKey_insertionSort (key : Key) :
    receiptByKey (receipts.insertionSort fun a b => a.key.texts ≤ b.key.texts) key =
      receiptByKey receipts key := by
  have hsame : (receipts.filter fun receipt => receipt.key = key).Pairwise
      fun a b => a.key.texts ≤ b.key.texts := by
    refine List.pairwise_of_forall_mem_list fun a ha b hb => ?_
    have haKey : a.key = key := by simpa using (List.mem_filter.mp ha).2
    have hbKey : b.key = key := by simpa using (List.mem_filter.mp hb).2
    rw [haKey, hbKey]
  have hsub := (List.sublist_insertionSort hsame List.filter_sublist).filter
    fun receipt => decide (receipt.key = key)
  rw [List.filter_filter, List.filter_congr fun _ _ => Bool.and_self _] at hsub
  have hlength : (receipts.filter fun receipt => decide (receipt.key = key)).length =
      ((receipts.insertionSort fun a b => a.key.texts ≤ b.key.texts).filter
        fun receipt => decide (receipt.key = key)).length :=
    ((List.perm_insertionSort _ receipts).filter _).length_eq.symm
  rw [receiptByKey, receiptByKey, hsub.eq_of_length hlength]

theorem validateReceiptStatus_eq_ok_iff {action : ErasureManifestAction}
    {receipt : ErasureActionReceipt} {u : Unit} :
    validateReceiptStatus action receipt = .ok u ↔ receipt.status = action.expectedStatus := by
  rw [validateReceiptStatus]
  split_ifs with hstatus
  · simp [hstatus]
  · simp [not_not.mp hstatus]

theorem validateAction_eq_ok_iff {action : ErasureManifestAction} {u : Unit} :
    validateAction receipts action = .ok u ↔ ∃ receipt,
      receiptByKey receipts action.key = some receipt ∧ receipt.status = action.expectedStatus := by
  rw [validateAction]
  cases hreceipt : receiptByKey receipts action.key with
  | none => simp
  | some receipt => simp only [validateReceiptStatus_eq_ok_iff, Option.some.injEq, exists_eq_left']

theorem validateActionReceipts_eq_ok_iff {u : Unit} :
    validateActionReceipts actions receipts = .ok u ↔ Covers actions receipts := by
  simp only [validateActionReceipts, Except.bind_eq_ok_iff, List.forM_eq_ok_iff,
    validateAction_eq_ok_iff]
  constructor
  · rintro ⟨_, hlast, hlength⟩
    split_ifs at hlength with hne
    exact ⟨hlast, not_not.mp hne⟩
  · intro hcovers
    exact ⟨(), hcovers.last, by rw [if_neg (not_not.mpr hcovers.length)]; rfl⟩

/-- **There is a certificate** where the last receipts cover the actions. -/
theorem exists_certificate_iff : (∃ certificate, buildErasureCertificate tokens manifest receipts
    certifiedAt certifiedBy = .ok certificate) ↔ Covers manifest.actions receipts := by
  have hcovers : Covers manifest.actions
      (receipts.insertionSort fun a b => a.key.texts ≤ b.key.texts) ↔
        Covers manifest.actions receipts := by
    constructor
    · intro h
      refine ⟨fun action haction => ?_, (List.length_insertionSort _ _).symm.trans h.length⟩
      rw [← receiptByKey_insertionSort]
      exact h.last action haction
    · intro h
      refine ⟨fun action haction => ?_, (List.length_insertionSort _ _).trans h.length⟩
      rw [receiptByKey_insertionSort]
      exact h.last action haction
  simp only [buildErasureCertificate, Except.bind_eq_ok_iff, validateActionReceipts_eq_ok_iff, hcovers,
    Except.pure_eq_ok_iff]
  constructor
  · rintro ⟨_, _, h, -⟩
    exact h
  · exact fun h => ⟨_, (), h, rfl⟩

/-! ### When it is exact -/

/-- What the receipt is for, with its status. -/
def ErasureActionReceipt.entry (receipt : ErasureActionReceipt) :
    (ActionType × ErasureResourceRef) × ReceiptStatus :=
  ((receipt.actionType, receipt.resource), receipt.status)

/-- What the action is, with the status that it requires. -/
def ErasureManifestAction.entry (action : ErasureManifestAction) :
    (ActionType × ErasureResourceRef) × ReceiptStatus :=
  ((action.actionType, action.resource), action.expectedStatus)

/-- The receipts are those of the actions, one to one, and each has the status that its action
requires. -/
def Matches (actions : List ErasureManifestAction) (receipts : List ErasureActionReceipt) : Prop :=
  (receipts.map ErasureActionReceipt.entry).Perm (actions.map ErasureManifestAction.entry)

/-- An action that the manifest has more than once has as many receipts, each with its status. -/
def DoubledBalanced (actions : List ErasureManifestAction) (receipts : List ErasureActionReceipt) :
    Prop :=
  ∀ action ∈ actions, 2 ≤ (actions.map ErasureManifestAction.key).count action.key →
    (receipts.map ErasureActionReceipt.key).count action.key =
        (actions.map ErasureManifestAction.key).count action.key ∧
      ∀ receipt ∈ receipts, receipt.key = action.key → receipt.status = action.expectedStatus

/-- The key of an entry, which is what is left of it without tenant and status. -/
def entryKey (entry : (ActionType × ErasureResourceRef) × ReceiptStatus) : Key :=
  receiptKey entry.1.1 entry.1.2

theorem Matches.perm_keys (h : Matches actions receipts) :
    (receipts.map ErasureActionReceipt.key).Perm (actions.map ErasureManifestAction.key) := by
  have hkeys := h.map entryKey
  rw [List.map_map, List.map_map] at hkeys
  exact hkeys

theorem receiptByKey_mem {key : Key} {receipt : ErasureActionReceipt}
    (h : receiptByKey receipts key = some receipt) : receipt ∈ receipts ∧ receipt.key = key := by
  have hmem := List.mem_filter.mp (List.mem_of_getLast? h)
  exact ⟨hmem.1, by simpa using hmem.2⟩

theorem exists_receiptByKey {key : Key} (h : key ∈ receipts.map ErasureActionReceipt.key) :
    ∃ receipt, receiptByKey receipts key = some receipt := by
  obtain ⟨receipt, hreceipt, hkey⟩ := List.mem_map.mp h
  have hne : (receipts.filter fun receipt => receipt.key = key) ≠ [] :=
    List.ne_nil_of_mem (List.mem_filter.mpr ⟨hreceipt, by simpa using hkey⟩)
  exact ⟨_, List.getLast?_eq_some_getLast hne⟩

/-- A receipt that matches is of the tenant, and has the status that its resource requires. -/
theorem Matches.of_mem (h : Matches actions receipts)
    (hproper : ∀ action ∈ actions, IsProper tenantId action) {receipt : ErasureActionReceipt}
    (hreceipt : receipt ∈ receipts) : receipt.resource.tenantId = tenantId ∧
      receipt.status = requiredStatus receipt.resource.resourceType := by
  obtain ⟨action, haction, hentry⟩ :=
    List.mem_map.mp (h.subset (List.mem_map_of_mem hreceipt))
  obtain ⟨⟨hactionType, hresource⟩, hstatus⟩ := Prod.mk.inj hentry |>.imp_left Prod.mk.inj
  rw [← hresource, ← hstatus]
  exact hproper action haction

/-- **Receipts that match are certified.** -/
theorem Matches.covers (h : Matches actions receipts)
    (hproper : ∀ action ∈ actions, IsProper tenantId action) : Covers actions receipts := by
  refine ⟨fun action haction => ?_, by simpa using h.length_eq⟩
  obtain ⟨receipt, hreceipt⟩ := exists_receiptByKey
    (h.perm_keys.symm.subset (List.mem_map_of_mem haction))
  obtain ⟨hmem, hkey⟩ := receiptByKey_mem hreceipt
  refine ⟨receipt, hreceipt, ?_⟩
  rw [(h.of_mem hproper hmem).2, (hproper action haction).2]
  exact congrArg (fun key : Key => requiredStatus key.resourceType) hkey

/-- The keys of the receipts are those of the actions, where the doubled ones are balanced: each action
has a receipt, and no number is left for another one. -/
theorem Covers.perm_keys (h : Covers actions receipts)
    (hbalanced : DoubledBalanced actions receipts) :
    (receipts.map ErasureActionReceipt.key).Perm (actions.map ErasureManifestAction.key) := by
  have hsub : (actions.map ErasureManifestAction.key).Subperm
      (receipts.map ErasureActionReceipt.key) := by
    rw [List.subperm_ext_iff]
    intro key hkey
    obtain ⟨action, haction, rfl⟩ := List.mem_map.mp hkey
    by_cases htwice : 2 ≤ (actions.map ErasureManifestAction.key).count action.key
    · exact (hbalanced action haction htwice).1.ge
    · obtain ⟨receipt, hreceipt, -⟩ := h.last action haction
      obtain ⟨hmem, hsame⟩ := receiptByKey_mem hreceipt
      have hpos : 0 < (receipts.map ErasureActionReceipt.key).count action.key :=
        List.count_pos_iff.mpr (List.mem_map.mpr ⟨receipt, hmem, hsame⟩)
      omega
  refine (hsub.perm_of_length_le ?_).symm
  rw [List.length_map, List.length_map, h.length]

/-- The status of each receipt is the one that its resource requires. -/
theorem Covers.status (h : Covers actions receipts) (hbalanced : DoubledBalanced actions receipts)
    (hproper : ∀ action ∈ actions, IsProper tenantId action) {receipt : ErasureActionReceipt}
    (hreceipt : receipt ∈ receipts) :
    receipt.status = requiredStatus receipt.resource.resourceType := by
  have hperm := h.perm_keys hbalanced
  obtain ⟨action, haction, hkey⟩ :=
    List.mem_map.mp (hperm.subset (List.mem_map_of_mem hreceipt))
  have hrequired : action.expectedStatus = requiredStatus receipt.resource.resourceType := by
    rw [(hproper action haction).2]
    exact congrArg (fun key : Key => requiredStatus key.resourceType) hkey
  rw [← hrequired]
  by_cases htwice : 2 ≤ (actions.map ErasureManifestAction.key).count action.key
  · exact (hbalanced action haction htwice).2 receipt hreceipt hkey.symm
  · -- The last receipt of the key is the only one.
    obtain ⟨last, hlast, hstatus⟩ := h.last action haction
    obtain ⟨hmem, hsame⟩ := receiptByKey_mem hlast
    have hone : (receipts.filter fun receipt => receipt.key = action.key).length ≤ 1 := by
      have hcount := hperm.count_eq action.key
      rw [List.count_eq_countP, List.countP_map, List.countP_eq_length_filter] at hcount
      have hfilter : (receipts.filter fun receipt => decide (receipt.key = action.key)) =
          receipts.filter ((· == action.key) ∘ ErasureActionReceipt.key) :=
        List.filter_congr fun _ _ => rfl
      rw [hfilter]
      omega
    have hin : receipt ∈ receipts.filter fun receipt => receipt.key = action.key :=
      List.mem_filter.mpr ⟨hreceipt, by simpa using hkey.symm⟩
    have hlastIn : last ∈ receipts.filter fun receipt => receipt.key = action.key :=
      List.mem_filter.mpr ⟨hmem, by simpa using hsame⟩
    obtain rfl : receipt = last := by
      cases hfilter : receipts.filter fun receipt => receipt.key = action.key with
      | nil => simp [hfilter] at hin
      | cons first rest =>
        rw [hfilter] at hone hin hlastIn
        obtain rfl := List.eq_nil_of_length_eq_zero (Nat.le_zero.mp (Nat.le_of_succ_le_succ hone))
        rw [List.mem_singleton.mp hin, List.mem_singleton.mp hlastIn]
    exact hstatus

/-- An entry of a tenant, from its key. -/
def entryOf (tenantId : String) (key : Key) : (ActionType × ErasureResourceRef) × ReceiptStatus :=
  ((key.actionType, ⟨tenantId, key.resourceType, key.resourceId, key.surface⟩),
    requiredStatus key.resourceType)

/-- **Receipts that are certified match** where they are of the tenant and doubled actions are
balanced. -/
theorem Covers.isMatch (h : Covers actions receipts) (hbalanced : DoubledBalanced actions receipts)
    (hproper : ∀ action ∈ actions, IsProper tenantId action)
    (htenant : ∀ receipt ∈ receipts, receipt.resource.tenantId = tenantId) :
    Matches actions receipts := by
  have hreceipts : receipts.map ErasureActionReceipt.entry =
      (receipts.map ErasureActionReceipt.key).map (entryOf tenantId) := by
    rw [List.map_map]
    refine List.map_congr_left fun receipt hreceipt => ?_
    rw [ErasureActionReceipt.entry, h.status hbalanced hproper hreceipt, Function.comp_apply, entryOf,
      ← htenant receipt hreceipt]
    rfl
  have hactions : actions.map ErasureManifestAction.entry =
      (actions.map ErasureManifestAction.key).map (entryOf tenantId) := by
    rw [List.map_map]
    refine List.map_congr_left fun action haction => ?_
    rw [ErasureManifestAction.entry, (hproper action haction).2, Function.comp_apply, entryOf,
      ← (hproper action haction).1]
    rfl
  rw [Matches, hreceipts, hactions]
  exact (h.perm_keys hbalanced).map _

theorem Matches.doubledBalanced (h : Matches actions receipts)
    (hproper : ∀ action ∈ actions, IsProper tenantId action) : DoubledBalanced actions receipts := by
  intro action haction _
  refine ⟨h.perm_keys.count_eq _, fun receipt hreceipt hkey => ?_⟩
  rw [(h.of_mem hproper hreceipt).2, (hproper action haction).2]
  exact congrArg (fun key : Key => requiredStatus key.resourceType) hkey

/-! ### Manifests with doubled actions -/

theorem exists_doubled (h : ¬ (actions.map ErasureManifestAction.key).Nodup) :
    ∃ action rest, actions.Perm (action :: rest) ∧
      action.key ∈ rest.map ErasureManifestAction.key := by
  induction actions with
  | nil => simp at h
  | cons action actions ih =>
    by_cases hkey : action.key ∈ actions.map ErasureManifestAction.key
    · exact ⟨action, actions, .refl _, hkey⟩
    · obtain ⟨doubled, rest, hperm, hmem⟩ := ih fun hnodup => h (List.nodup_cons.mpr ⟨hkey, hnodup⟩)
      exact ⟨doubled, action :: rest, (hperm.cons action).trans (.swap doubled action rest),
        List.mem_cons_of_mem _ hmem⟩

/-- The receipt that an action asks for. -/
def ErasureManifestAction.receipt (action : ErasureManifestAction) : ErasureActionReceipt :=
  ⟨action.actionType, action.resource, action.expectedStatus, "", []⟩

/-- **A doubled action leaves room for a stranger**: receipts of the tenant that are certified and do not
match. -/
theorem exists_covers_not_matches (hproper : ∀ action ∈ actions, IsProper tenantId action)
    (h : ¬ (actions.map ErasureManifestAction.key).Nodup) : ∃ receipts,
      (∀ receipt ∈ receipts, receipt.resource.tenantId = tenantId) ∧
        Covers actions receipts ∧ ¬ Matches actions receipts := by
  obtain ⟨doubled, rest, hperm, hdoubled⟩ := exists_doubled h
  have hrest : ∀ action ∈ rest, action ∈ actions := fun action haction =>
    hperm.symm.subset (List.mem_cons_of_mem _ haction)
  obtain ⟨resourceId, hfresh⟩ := Infinite.exists_notMem_finset
    (actions.map fun action => action.resource.resourceId).toFinset
  set stranger : ErasureActionReceipt :=
    ⟨doubled.actionType, { doubled.resource with resourceId }, .applied, "", []⟩ with hstranger
  have hstrange : ∀ action ∈ actions, stranger.key ≠ action.key := by
    intro action haction hkey
    refine hfresh (List.mem_toFinset.mpr (List.mem_map.mpr ⟨action, haction, ?_⟩))
    exact (congrArg Key.resourceId hkey).symm
  refine ⟨stranger :: rest.map ErasureManifestAction.receipt, fun receipt hreceipt => ?_,
    ⟨fun action haction => ?_, by simp [hperm.length_eq]⟩, fun hmatches => ?_⟩
  · rcases List.mem_cons.mp hreceipt with rfl | hreceipt
    · exact (hproper doubled (hperm.symm.subset List.mem_cons_self)).1
    · obtain ⟨action, haction, rfl⟩ := List.mem_map.mp hreceipt
      exact (hproper action (hrest action haction)).1
  · -- Every key is among those of the others, and a receipt of theirs has the status it requires.
    have hkey : action.key ∈ rest.map ErasureManifestAction.key := by
      rcases List.mem_cons.mp (hperm.subset haction) with rfl | hmem
      · exact hdoubled
      · exact List.mem_map_of_mem hmem
    obtain ⟨other, hother, hsame⟩ := List.mem_map.mp hkey
    have hkeyed : action.key ∈ (stranger :: rest.map ErasureManifestAction.receipt).map
        ErasureActionReceipt.key := List.mem_map.mpr ⟨other.receipt,
      List.mem_cons_of_mem _ (List.mem_map_of_mem hother), hsame⟩
    obtain ⟨receipt, hreceipt⟩ := exists_receiptByKey hkeyed
    refine ⟨receipt, hreceipt, ?_⟩
    obtain ⟨hmem, hfound⟩ := receiptByKey_mem hreceipt
    rcases List.mem_cons.mp hmem with rfl | hmem
    · exact absurd hfound (hstrange action haction)
    · obtain ⟨third, hthird, rfl⟩ := List.mem_map.mp hmem
      rw [(hproper action haction).2]
      refine (hproper third (hrest third hthird)).2.trans ?_
      exact congrArg (fun key : Key => requiredStatus key.resourceType) hfound
  · have hmem := hmatches.perm_keys.subset (List.mem_map_of_mem List.mem_cons_self)
    obtain ⟨action, haction, hkey⟩ := List.mem_map.mp hmem
    exact hstrange action haction hkey.symm

end Certificates

/-- The receipts show what is wrong: their number, an action without a receipt under its key, or one whose
last receipt has another status than it requires. -/
def IsUnanswered (actions : List ErasureManifestAction) (receipts : List ErasureActionReceipt) : Prop :=
  receipts.length ≠ actions.length ∨ ∃ action ∈ actions, ∀ receipt,
    (receipts.filter fun receipt => receipt.key = action.key).getLast? = some receipt →
      receipt.status ≠ action.expectedStatus

theorem isUnanswered_iff {actions : List ErasureManifestAction} {receipts : List ErasureActionReceipt} :
    IsUnanswered actions receipts ↔ ¬ Covers actions receipts := by
  constructor
  · rintro (hlength | ⟨action, haction, hlast⟩) hcovers
    · exact hlength hcovers.length
    · obtain ⟨receipt, hreceipt, hstatus⟩ := hcovers.last action haction
      exact hlast receipt hreceipt hstatus
  · intro hnot
    by_contra hanswered
    simp only [IsUnanswered, not_or, not_not, not_exists, not_and, not_forall] at hanswered
    obtain ⟨hlength, hlast⟩ := hanswered
    refine hnot ⟨fun action haction => ?_, hlength⟩
    obtain ⟨receipt, hreceipt, hstatus⟩ := hlast action haction
    exact ⟨receipt, hreceipt, hstatus⟩

/-- **A certificate is exact unless it is given for a receipt of another tenant or for an action that the
manifest has more than once**; and it is exact for all receipts of the tenant exactly if the manifest has
no action more than once. -/
theorem certificate_exact_iff {tokens : Tokens} {request : ErasureRequest}
    {resolutions : List ErasureResolution} {policy : ErasureRetentionPolicy}
    {manifest : ErasureManifest}
    (h : buildErasureManifest tokens request resolutions policy = .ok manifest)
    (certifiedAt certifiedBy : String) :
    (∀ receipts, ((∃ certificate, buildErasureCertificate tokens manifest receipts certifiedAt
        certifiedBy = .ok certificate) ↔ Matches manifest.actions receipts) ↔
      IsUnanswered manifest.actions receipts ∨
        (∀ receipt ∈ receipts, receipt.resource.tenantId = manifest.tenantId) ∧
          DoubledBalanced manifest.actions receipts) ∧
    ((∀ receipts : List ErasureActionReceipt,
        (∀ receipt ∈ receipts, receipt.resource.tenantId = manifest.tenantId) →
          ((∃ certificate, buildErasureCertificate tokens manifest receipts certifiedAt
            certifiedBy = .ok certificate) ↔ Matches manifest.actions receipts)) ↔
      (manifest.actions.map ErasureManifestAction.key).Nodup) := by
  have hproper := isProper_of_manifest h
  simp only [exists_certificate_iff, isUnanswered_iff]
  have hexact : ∀ receipts, (∀ receipt ∈ receipts, receipt.resource.tenantId = manifest.tenantId) →
      DoubledBalanced manifest.actions receipts →
        (Covers manifest.actions receipts ↔ Matches manifest.actions receipts) :=
    fun receipts htenant hbalanced => ⟨fun hcovers => hcovers.isMatch hbalanced hproper htenant,
      fun hmatches => hmatches.covers hproper⟩
  refine ⟨fun receipts => ⟨fun hsame => ?_, ?_⟩, fun hall => ?_, fun hnodup receipts htenant => ?_⟩
  · rw [or_iff_not_imp_left, not_not]
    intro hcovers
    have hmatches := hsame.mp hcovers
    exact ⟨fun receipt hreceipt => (hmatches.of_mem hproper hreceipt).1,
      hmatches.doubledBalanced hproper⟩
  · rintro (hnot | ⟨htenant, hbalanced⟩)
    · exact iff_of_false hnot fun hmatches => hnot (hmatches.covers hproper)
    · exact hexact receipts htenant hbalanced
  · by_contra hdoubled
    obtain ⟨receipts, htenant, hcovers, hnot⟩ := exists_covers_not_matches hproper hdoubled
    exact hnot ((hall receipts htenant).mp hcovers)
  · refine hexact receipts htenant fun action haction htwice => ?_
    have hone := List.nodup_iff_count_le_one.mp hnodup action.key
    omega

/-! ### Two receipts too few -/

def tokens : Tokens := ⟨fun _ _ keyId => keyId, fun _ => ""⟩

def request : ErasureRequest :=
  ⟨"t1", "r1", "email", .str "a@b", "operator", "k1", "request", "2026-01-01", "secret", "key"⟩

def policy : ErasureRetentionPolicy := ⟨"2027-01-01", "kms", "legal_obligation", []⟩

/-- An object of the subject that was found twice. -/
def objectRef (tenantId : String) : ErasureResourceRef := ⟨tenantId, .objectRecord, "o1", "objects"⟩

def foundTwice : ErasureResolution where
  request := request
  resources := [objectRef "t1", objectRef "t1"]
  sameTenant := by decide

def receiptOf (actionType : ActionType) (resource : ErasureResourceRef) : ErasureActionReceipt :=
  ⟨actionType, resource, .applied, "2026-01-02", []⟩

def auditReceipt : ErasureActionReceipt :=
  receiptOf .minimizeAuditEvidence ⟨"t1", .auditEvent, "r1", "audit_events"⟩

/-- Receipts of the manifest, with a stranger in the place of the second one. -/
def strangeReceipts : List ErasureActionReceipt :=
  [auditReceipt, receiptOf .tombstoneObject (objectRef "t1"),
    receiptOf .tombstoneObject ⟨"t1", .objectRecord, "stranger", "objects"⟩]

/-- Receipts of the manifest, of another tenant. -/
def foreignReceipts : List ErasureActionReceipt :=
  [auditReceipt, receiptOf .tombstoneObject (objectRef "t2"),
    receiptOf .tombstoneObject (objectRef "t2")]

/-- A stranger is certified, and is of the tenant: the object was found twice. -/
theorem certificate_exact_found : ∃ manifest,
    buildErasureManifest tokens request [foundTwice] policy = .ok manifest ∧
      (((∃ certificate, buildErasureCertificate tokens manifest strangeReceipts "" "" =
          .ok certificate) ↔ Matches manifest.actions strangeReceipts) ↔
        IsUnanswered manifest.actions strangeReceipts ∨
          (∀ receipt ∈ strangeReceipts, receipt.resource.tenantId = manifest.tenantId) ∧
            DoubledBalanced manifest.actions strangeReceipts) := by
  cases h : buildErasureManifest tokens request [foundTwice] policy with
  | error e =>
    have hok : (buildErasureManifest tokens request [foundTwice] policy).toOption.isSome = true := by
      decide +kernel
    simp [h, Except.toOption] at hok
  | ok manifest => exact ⟨manifest, rfl, (certificate_exact_iff h "" "").1 strangeReceipts⟩

/-- The entries of its actions. -/
def foundEntries : List ((ActionType × ErasureResourceRef) × ReceiptStatus) :=
  [((.minimizeAuditEvidence, ⟨"t1", .auditEvent, "r1", "audit_events"⟩), .applied),
    ((.tombstoneObject, objectRef "t1"), .applied), ((.tombstoneObject, objectRef "t1"), .applied)]

/-- A stranger is certified in the place of a resource that was found twice, and so is another
tenant. -/
theorem certificate_strangers : ∃ manifest,
    buildErasureManifest tokens request [foundTwice] policy = .ok manifest ∧
      ∀ receipts ∈ [strangeReceipts, foreignReceipts],
        (∃ certificate, buildErasureCertificate tokens manifest receipts "" "" = .ok certificate) ∧
          ¬ Matches manifest.actions receipts := by
  have hentries : ((buildErasureManifest tokens request [foundTwice] policy).toOption.map
      fun manifest => manifest.actions.map ErasureManifestAction.entry) = some foundEntries := by
    decide +kernel
  have hcertified : ∀ receipts ∈ [strangeReceipts, foreignReceipts],
      ((buildErasureManifest tokens request [foundTwice] policy).bind fun manifest =>
        buildErasureCertificate tokens manifest receipts "" "").toOption.isSome = true := by
    decide +kernel
  have hstrange : ∀ receipts ∈ [strangeReceipts, foreignReceipts],
      ∃ entry ∈ receipts.map ErasureActionReceipt.entry, entry ∉ foundEntries := by
    decide +kernel
  cases h : buildErasureManifest tokens request [foundTwice] policy with
  | error e => simp [h, Except.toOption] at hentries
  | ok manifest =>
    refine ⟨manifest, rfl, fun receipts hreceipts => ⟨?_, fun hmatches => ?_⟩⟩
    · have hok := hcertified receipts hreceipts
      rw [h] at hok
      cases hcertificate : buildErasureCertificate tokens manifest receipts "" "" with
      | error e => simp [Except.bind, hcertificate, Except.toOption] at hok
      | ok certificate => exact ⟨certificate, rfl⟩
    · obtain ⟨entry, hmem, hnot⟩ := hstrange receipts hreceipts
      have hfound : manifest.actions.map ErasureManifestAction.entry = foundEntries := by
        simpa [h, Except.toOption] using hentries
      rw [Matches, hfound] at hmatches
      exact hnot (hmatches.subset hmem)

end FoundryLite.Security.Erasure
