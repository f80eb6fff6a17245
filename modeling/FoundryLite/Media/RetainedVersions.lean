import FoundryLite.Media.Retention

/-!
# Retained versions

A purge looks at a hold as it was when the sweep began, and at the bindings as they were before it
deletes the row of the version. Neither reads what is locked, so both can change before the purge is
committed; and bytes that are deleted are not back when the sweep is rolled back.

## Main results

* `retained_of_run`: runs whose steps meet the condition purge no version that is held or bound.
* `not_retained`: a hold is placed behind the back of a sweep.
-/

namespace FoundryLite.Media.Retention

open Runs

variable {W : Type} {s t : State W} {e : Event W} {store : Store}

/-! ### The property -/

/-- What is purged was neither held nor bound when the purge was committed, no binding refers to it,
and the bytes of a version are there, unless a sweep under way is purging it. -/
structure Retained (s : State W) : Prop where
  purges : ∀ purge ∈ s.purges, purge.version.hasLegalHold = false ∧ purge.isBound = false
  bindings : ∀ binding ∈ s.bindings, ∀ purge ∈ s.purges,
    binding.mediaItemVersionId ≠ purge.version.mediaItemVersionId
  blobs : ∀ version ∈ s.versions, (∀ w sweep, s.jobs w = some (.sweep sweep) →
    version.mediaItemVersionId ∉ sweep.purged) → s.hasBlob version.blobKey = true

/-! ### The condition -/

/-- The versions a sweep has found unbound, and does not look at again. -/
def Sweep.claimed (sweep : Sweep) : List String :=
  match sweep.step with
  | .purge version => version.mediaItemVersionId :: sweep.purged
  | _ => sweep.purged

/-- A version is not held when its row is deleted, a binding is written to versions that are there
and that no sweep has found unbound, bytes are deleted which belong to no other version, and no
sweep is rolled back that has deleted the bytes of a version. -/
def Permitted (s : State W) : Event W → Prop
  | .purgeVersion w => ∀ candidates version purged blobs,
      s.jobs w = some (.sweep ⟨candidates, .purge version, purged, blobs⟩) →
        ∀ other ∈ s.versions, other.mediaItemVersionId = version.mediaItemVersionId →
          other.hasLegalHold = false
  | .deleteBlob w => ∀ candidates blobKey purged blobs,
      s.jobs w = some (.sweep ⟨candidates, .deleteBlob blobKey, purged, blobs⟩) →
        ∀ other ∈ s.versions, other.blobKey = blobKey → other.mediaItemVersionId ∈ purged
  | .writeBindings w => ∀ binding, s.jobs w = some (.binding binding) → ∀ id ∈ binding.targets,
      (∃ version ∈ s.versions, version.mediaItemVersionId = id) ∧
        ∀ w' sweep, s.jobs w' = some (.sweep sweep) → id ∉ sweep.claimed
  | .rollBack w => ∀ sweep, s.jobs w = some (.sweep sweep) → ∀ version ∈ s.versions,
      version.mediaItemVersionId ∈ sweep.purged → version.blobKey ∉ sweep.blobs
  | _ => True

/-! ### The invariant -/

/-- What a sweep has deleted is locked, and neither held nor bound. -/
structure Fits (s : State W) (w : W) (sweep : Sweep) : Prop where
  locked : ∀ id ∈ sweep.purged, s.locks id = some w
  unheld : ∀ version ∈ s.versions, version.mediaItemVersionId ∈ sweep.purged →
    version.hasLegalHold = false
  unbound : ∀ id ∈ sweep.claimed, ∀ binding ∈ s.bindings, binding.mediaItemVersionId ≠ id

structure Inv (s : State W) : Prop where
  purges : ∀ purge ∈ s.purges, purge.version.hasLegalHold = false ∧ purge.isBound = false
  bindings : ∀ binding ∈ s.bindings, ∀ purge ∈ s.purges,
    binding.mediaItemVersionId ≠ purge.version.mediaItemVersionId
  gone : ∀ version ∈ s.versions, ∀ purge ∈ s.purges,
    version.mediaItemVersionId ≠ purge.version.mediaItemVersionId
  sweeps : ∀ w sweep, s.jobs w = some (.sweep sweep) → Fits s w sweep
  /-- Bytes that are not there were deleted by a sweep, which has deleted the row. -/
  blobs : ∀ version ∈ s.versions, s.hasBlob version.blobKey = true ∨ ∃ w sweep,
    s.jobs w = some (.sweep sweep) ∧ version.mediaItemVersionId ∈ sweep.purged ∧
      version.blobKey ∈ sweep.blobs

theorem Inv.retained (h : Inv s) : Retained s where
  purges := h.purges
  bindings := h.bindings
  blobs version hmem hnone := by
    rcases h.blobs version hmem with hblob | ⟨w, sweep, hjob, hpurged, -⟩
    · exact hblob
    · exact absurd hpurged (hnone w sweep hjob)

theorem inv_initial : Inv (State.initial store : State W) where
  purges := by simp [State.initial]
  bindings := by simp [State.initial]
  gone := by simp [State.initial]
  sweeps := by simp [State.initial]
  blobs version hmem := .inl (store.stored version hmem)

theorem Sweep.purged_subset_claimed {sweep : Sweep} {id : String} (h : id ∈ sweep.purged) :
    id ∈ sweep.claimed := by
  unfold Sweep.claimed
  split
  · exact List.mem_cons_of_mem _ h
  · exact h

/-! ### Jobs -/

/-- A job goes on: it locks what is free, and a sweep keeps what it has deleted. -/
theorem Inv.setJob [DecidableEq W] {w : W} {job : Job} {locks : String → Option W} (h : Inv s)
    (hlocks : ∀ id w', s.locks id = some w' → locks id = some w')
    (hfits : ∀ sweep, job = .sweep sweep →
      Fits { s.setJob w job with locks := locks } w sweep)
    (hkeeps : ∀ old, s.jobs w = some (.sweep old) → ∃ sweep, job = .sweep sweep ∧
      old.purged ⊆ sweep.purged ∧ old.blobs ⊆ sweep.blobs) :
    Inv { s.setJob w job with locks := locks } where
  purges := h.purges
  bindings := h.bindings
  gone := h.gone
  sweeps w' sweep hjob := by
    rcases update_eq_some hjob with ⟨rfl, hnew⟩ | ⟨-, hold⟩
    · exact hfits sweep (Option.some.inj hnew)
    · obtain ⟨hlocked, hunheld, hunbound⟩ := h.sweeps w' sweep hold
      exact ⟨fun id hid => hlocks id w' (hlocked id hid), hunheld, hunbound⟩
  blobs version hmem := by
    rcases h.blobs version hmem with hblob | ⟨w', sweep, hjob, hpurged, hblobs⟩
    · exact .inl hblob
    · refine .inr ?_
      by_cases hw : w' = w
      · subst hw
        obtain ⟨new, rfl, hsub, hsubBlobs⟩ := hkeeps sweep hjob
        exact ⟨w', new, by simp [State.setJob], hsub hpurged, hsubBlobs hblobs⟩
      · exact ⟨w', sweep, by simpa [State.setJob, hw] using hjob, hpurged, hblobs⟩

/-- A job ends, and leaves no version behind without its bytes. -/
theorem Inv.endJob [DecidableEq W] {w : W} (h : Inv s)
    (hkept : ∀ sweep, s.jobs w = some (.sweep sweep) →
    ∀ version ∈ s.versions, version.mediaItemVersionId ∈ sweep.purged →
      version.blobKey ∉ sweep.blobs) : Inv (s.endJob w) where
  purges := h.purges
  bindings := h.bindings
  gone := h.gone
  sweeps w' sweep hjob := by
    rcases update_eq_some hjob with ⟨-, hnew⟩ | ⟨hw, hold⟩
    · simp at hnew
    · obtain ⟨hlocked, hunheld, hunbound⟩ := h.sweeps w' sweep hold
      refine ⟨fun id hid => ?_, hunheld, hunbound⟩
      simp [State.endJob, hlocked id hid, hw]
  blobs version hmem := by
    rcases h.blobs version hmem with hblob | ⟨w', sweep, hjob, hpurged, hblobs⟩
    · exact .inl hblob
    · have hw : w' ≠ w := by
        rintro rfl
        exact hkept sweep hjob version hmem hpurged hblobs
      exact .inr ⟨w', sweep, by simpa [State.endJob, hw] using hjob, hpurged, hblobs⟩

/-! ### Marks and holds -/

/-- Versions keep their identity and their bytes, and no hold is placed on what a sweep has
deleted. -/
theorem Inv.map {f : MediaItemVersion → MediaItemVersion} (h : Inv s)
    (hid : ∀ version, (f version).mediaItemVersionId = version.mediaItemVersionId)
    (hkey : ∀ version, (f version).blobKey = version.blobKey)
    (hfree : ∀ version, s.locks version.mediaItemVersionId ≠ none →
      (f version).hasLegalHold = version.hasLegalHold) :
    Inv { s with versions := s.versions.map f } where
  purges := h.purges
  bindings := h.bindings
  gone := by
    simp only [List.forall_mem_map, hid]
    exact h.gone
  sweeps w sweep hjob := by
    obtain ⟨hlocked, hunheld, hunbound⟩ := h.sweeps w sweep hjob
    refine ⟨hlocked, ?_, hunbound⟩
    simp only [List.forall_mem_map, hid]
    intro version hmem hpurged
    rw [hfree version (by simp [hlocked _ hpurged])]
    exact hunheld version hmem hpurged
  blobs := by
    simp only [List.forall_mem_map, hid, hkey]
    exact h.blobs

theorem inv_markForRetention {ids : List String} {markedAt : ℕ} (h : Inv s) :
    Inv { s with versions := s.versions.map (markForRetention ids markedAt) } := by
  refine h.map (fun version => ?_) (fun version => ?_) (fun version _ => ?_) <;>
    · unfold markForRetention
      split_ifs <;> rfl

theorem inv_setLegalHold {id : String} {hasLegalHold : Bool} (h : Inv s)
    (hlock : s.locks id = none) :
    Inv { s with versions := s.versions.map (setLegalHold id hasLegalHold) } := by
  refine h.map (fun version => ?_) (fun version => ?_) (fun version hlocked => ?_)
  · unfold setLegalHold
    split_ifs <;> rfl
  · unfold setLegalHold
    split_ifs <;> rfl
  · rw [setLegalHold, if_neg]
    rintro rfl
    exact hlocked hlock

/-! ### Bindings -/

theorem not_hasReferenceBinding {bindings : List MediaReferenceBinding} {id : String}
    (h : hasReferenceBinding bindings id = false) :
    ∀ binding ∈ bindings, binding.mediaItemVersionId ≠ id := by
  simpa [hasReferenceBinding] using h

variable [DecidableEq W]

theorem hasReferenceBinding_eq_false {bindings : List MediaReferenceBinding} {id : String}
    (h : ∀ binding ∈ bindings, binding.mediaItemVersionId ≠ id) :
    hasReferenceBinding bindings id = false := by
  simpa [hasReferenceBinding] using h

/-- What is bound behind a transaction was bound before, or is what it binds. -/
theorem Binding.mem_write {binding : Binding} {bindings written : List MediaReferenceBinding}
    (h : binding.write bindings = some written) :
    ∀ other ∈ written, other ∈ bindings ∨ other.mediaItemVersionId ∈ binding.targets := by
  intro other hmem
  cases binding with
  | bind new isRebind =>
    cases isRebind with
    | false =>
      obtain ⟨-, ⟨⟩⟩ := Option.ite_none_left_eq_some.mp h
      rcases List.mem_append.mp hmem with hmem | hmem
      · exact .inl hmem
      · exact .inr (by simp [Binding.targets, List.mem_singleton.mp hmem])
    | true =>
      obtain rfl := Option.some.inj h
      obtain ⟨old, hold, rfl⟩ := List.mem_map.mp hmem
      split_ifs
      · exact .inr (by simp [Binding.targets])
      · exact .inl hold
  | edits removed references attachments =>
    cases attachments with
    | nil =>
      obtain ⟨-, ⟨⟩⟩ := Option.ite_none_right_eq_some.mp h
      rcases List.mem_append.mp hmem with hmem | hmem
      · exact .inl (List.mem_of_mem_filter hmem)
      · exact .inr (List.mem_map_of_mem hmem)
    | cons id attachments => simp [Binding.write] at h

theorem inv_writeBindings {w : W} {binding : Binding} {written : List MediaReferenceBinding}
    (h : Inv s) (hjob : s.jobs w = some (.binding binding))
    (hpermitted : ∀ id ∈ binding.targets, (∃ version ∈ s.versions, version.mediaItemVersionId = id) ∧
      ∀ w' sweep, s.jobs w' = some (.sweep sweep) → id ∉ sweep.claimed)
    (hwritten : binding.write s.bindings = some written) :
    Inv { s.endJob w with bindings := written } := by
  have hended : Inv (s.endJob w) := h.endJob fun sweep hsweep => by simp [hjob] at hsweep
  have hmem := Binding.mem_write hwritten
  refine ⟨hended.purges, ?_, hended.gone, fun w' sweep hsweep => ?_, hended.blobs⟩
  · intro other hother purge hpurge
    rcases hmem other hother with hold | hnew
    · exact h.bindings other hold purge hpurge
    · obtain ⟨⟨version, hversion, hid⟩, -⟩ := hpermitted _ hnew
      exact hid ▸ h.gone version hversion purge hpurge
  · obtain ⟨hlocked, hunheld, hunbound⟩ := hended.sweeps w' sweep hsweep
    refine ⟨hlocked, hunheld, fun id hid other hother => ?_⟩
    rcases hmem other hother with hold | hnew
    · exact hunbound id hid other hold
    · rintro rfl
      rcases update_eq_some hsweep with ⟨-, hnone⟩ | ⟨-, hsweep⟩
      · simp at hnone
      · exact (hpermitted _ hnew).2 w' sweep hsweep hid

/-! ### Sweeps -/

theorem inv_deleteBlob {w : W} {candidates : List MediaItemVersion} {blobKey : String}
    {purged blobs : List String} (h : Inv s)
    (hjob : s.jobs w = some (.sweep ⟨candidates, .deleteBlob blobKey, purged, blobs⟩))
    (hown : ∀ other ∈ s.versions, other.blobKey = blobKey → other.mediaItemVersionId ∈ purged) :
    Inv { s.setJob w (.sweep ⟨candidates, .look, purged, blobKey :: blobs⟩) with
      hasBlob := Function.update s.hasBlob blobKey false } := by
  have hgoes : Inv { s.setJob w (.sweep ⟨candidates, .look, purged, blobKey :: blobs⟩) with
      locks := s.locks } := by
    refine h.setJob (fun _ _ hlock => hlock) ?_ ?_
    · rintro _ ⟨⟩
      obtain ⟨hlocked, hunheld, hunbound⟩ := h.sweeps w _ hjob
      exact ⟨hlocked, hunheld, hunbound⟩
    · intro old hold
      obtain ⟨⟩ := hjob.symm.trans hold
      exact ⟨_, rfl, List.Subset.refl _, List.subset_cons_self _ _⟩
  refine ⟨hgoes.purges, hgoes.bindings, hgoes.gone, fun w' sweep hsweep => ?_, ?_⟩
  · obtain ⟨hlocked, hunheld, hunbound⟩ := hgoes.sweeps w' sweep hsweep
    exact ⟨hlocked, hunheld, hunbound⟩
  · intro version hmem
    by_cases hkey : version.blobKey = blobKey
    · exact .inr ⟨w, ⟨candidates, .look, purged, blobKey :: blobs⟩, by simp [State.setJob],
        hown version hmem hkey, by simp [hkey]⟩
    · rcases hgoes.blobs version hmem with hblob | hgone
      · exact .inl (by simpa [hkey, State.setJob] using hblob)
      · exact .inr hgone

theorem inv_finishSweep {w : W} {sweep : Sweep} (h : Inv s)
    (hjob : s.jobs w = some (.sweep sweep)) : Inv (finishSweep s w sweep) := by
  obtain ⟨hlocked, hunheld, hunbound⟩ := h.sweeps w sweep hjob
  have hpurge : ∀ purge ∈ (finishSweep s w sweep).purges, purge ∈ s.purges ∨
      ∃ version ∈ s.versions, version.mediaItemVersionId ∈ sweep.purged ∧ purge =
        ⟨version, hasReferenceBinding s.bindings version.mediaItemVersionId⟩ := by
    intro purge hpurge
    rcases List.mem_append.mp hpurge with hold | hnew
    · exact .inl hold
    · obtain ⟨version, hversion, rfl⟩ := List.mem_map.mp hnew
      obtain ⟨hmem, hpurged⟩ := List.mem_filter.mp hversion
      exact .inr ⟨version, hmem, of_decide_eq_true hpurged, rfl⟩
  have hleft : ∀ version ∈ (finishSweep s w sweep).versions,
      version ∈ s.versions ∧ version.mediaItemVersionId ∉ sweep.purged := by
    intro version hversion
    obtain ⟨hmem, hkept⟩ := List.mem_filter.mp hversion
    exact ⟨hmem, of_decide_eq_true hkept⟩
  refine ⟨?_, ?_, ?_, fun w' other hsweep => ?_, ?_⟩
  · intro purge hmem
    rcases hpurge purge hmem with hold | ⟨version, hversion, hpurged, rfl⟩
    · exact h.purges purge hold
    · exact ⟨hunheld version hversion hpurged, hasReferenceBinding_eq_false
        (hunbound _ (Sweep.purged_subset_claimed hpurged))⟩
  · intro binding hbinding purge hmem
    rcases hpurge purge hmem with hold | ⟨version, hversion, hpurged, rfl⟩
    · exact h.bindings binding hbinding purge hold
    · exact hunbound _ (Sweep.purged_subset_claimed hpurged) binding hbinding
  · intro version hversion purge hmem
    obtain ⟨hthere, hkept⟩ := hleft version hversion
    rcases hpurge purge hmem with hold | ⟨other, -, hpurged, rfl⟩
    · exact h.gone version hthere purge hold
    · exact fun hid => hkept (hid ▸ hpurged)
  · rcases update_eq_some hsweep with ⟨-, hnone⟩ | ⟨hw, hold⟩
    · simp at hnone
    · obtain ⟨hlocked', hunheld', hunbound'⟩ := h.sweeps w' other hold
      refine ⟨fun id hid => ?_, fun version hversion hpurged => ?_, hunbound'⟩
      · simp [finishSweep, State.endJob, hlocked' id hid, hw]
      · exact hunheld' version (hleft version hversion).1 hpurged
  · intro version hversion
    obtain ⟨hthere, hkept⟩ := hleft version hversion
    rcases h.blobs version hthere with hblob | ⟨w', other, hother, hpurged, hblobs⟩
    · exact .inl hblob
    · have hw : w' ≠ w := by
        rintro rfl
        obtain ⟨⟩ := hjob.symm.trans hother
        exact hkept hpurged
      exact .inr ⟨w', other, by simpa [finishSweep, State.endJob, hw] using hother, hpurged, hblobs⟩

/-! ### Runs -/

/-- **A step that meets the condition keeps the invariant.** -/
theorem inv_of_next (h : Inv s) (hpermitted : Permitted s e) (hnext : next s e = some t) :
    Inv t := by
  cases e with
  | markForRetention ids markedAt =>
    obtain ⟨-, ⟨⟩⟩ := Option.ite_none_left_eq_some.mp hnext
    exact inv_markForRetention h
  | setLegalHold id hasLegalHold =>
    obtain ⟨hlock, ⟨⟩⟩ := Option.ite_none_left_eq_some.mp hnext
    exact inv_setLegalHold h (not_not.mp hlock)
  | beginSweep w cutoff =>
    obtain ⟨hidle, ⟨⟩⟩ := Option.ite_none_left_eq_some.mp hnext
    refine h.setJob (fun _ _ hlock => hlock) ?_ fun old hold => ?_
    · rintro _ ⟨⟩
      exact ⟨by simp, by simp, by simp [Sweep.claimed]⟩
    · exact absurd (by simp [hold]) hidle
  | sweepOne w =>
    simp only [next] at hnext
    split at hnext
    next version candidates purged blobs hjob =>
      obtain ⟨hlocked, hunheld, hunbound⟩ := h.sweeps w _ hjob
      have hkeeps : ∀ {sweep : Sweep}, sweep.purged = purged → sweep.blobs = blobs →
          ∀ old, s.jobs w = some (.sweep old) → ∃ sweep', Job.sweep sweep = .sweep sweep' ∧
            old.purged ⊆ sweep'.purged ∧ old.blobs ⊆ sweep'.blobs := by
        rintro sweep rfl rfl old hold
        obtain ⟨⟩ := hjob.symm.trans hold
        exact ⟨sweep, rfl, List.Subset.refl _, List.Subset.refl _⟩
      split_ifs at hnext with hskip <;> obtain rfl := Option.some.inj hnext
      · refine h.setJob (fun _ _ hlock => hlock) ?_ (hkeeps rfl rfl)
        rintro _ ⟨⟩
        exact ⟨hlocked, hunheld, hunbound⟩
      · obtain ⟨-, hfree⟩ := Bool.or_eq_false_iff.mp (Bool.eq_false_iff.mpr hskip)
        refine h.setJob (fun _ _ hlock => hlock) ?_ (hkeeps rfl rfl)
        rintro _ ⟨⟩
        exact ⟨hlocked, hunheld,
          List.forall_mem_cons.mpr ⟨not_hasReferenceBinding hfree, hunbound⟩⟩
    next => exact absurd hnext (by simp)
  | purgeVersion w =>
    simp only [next] at hnext
    split at hnext
    next candidates version purged blobs hjob =>
      obtain ⟨hlocked, hunheld, hunbound⟩ := h.sweeps w _ hjob
      obtain ⟨hfree, hnext⟩ := Option.ite_none_left_eq_some.mp hnext
      split_ifs at hnext with hthere <;> obtain rfl := Option.some.inj hnext
      · refine h.setJob (fun id w' hlock => ?_) ?_ fun old hold => ?_
        · by_cases hid : id = version.mediaItemVersionId
          · subst hid
            simpa [hlock, eq_comm] using hfree
          · simpa [hid] using hlock
        · rintro _ ⟨⟩
          refine ⟨List.forall_mem_cons.mpr ⟨by simp, fun id hid => ?_⟩, fun other hmem hpurged => ?_,
            hunbound⟩
          · by_cases hsame : id = version.mediaItemVersionId
            · simp [hsame]
            · simpa [hsame] using hlocked id hid
          · rcases List.mem_cons.mp hpurged with hsame | hold
            · exact hpermitted candidates version purged blobs hjob other hmem hsame
            · exact hunheld other hmem hold
        · obtain ⟨⟩ := hjob.symm.trans hold
          exact ⟨_, rfl, List.subset_cons_self _ _, List.Subset.refl _⟩
      · refine h.setJob (fun _ _ hlock => hlock) ?_ fun old hold => ?_
        · rintro _ ⟨⟩
          exact ⟨hlocked, hunheld, fun id hid => hunbound id (List.mem_cons_of_mem _ hid)⟩
        · obtain ⟨⟩ := hjob.symm.trans hold
          exact ⟨_, rfl, List.Subset.refl _, List.Subset.refl _⟩
    next => exact absurd hnext (by simp)
  | deleteBlob w =>
    simp only [next] at hnext
    split at hnext
    next candidates blobKey purged blobs hjob =>
      obtain rfl := Option.some.inj hnext
      exact inv_deleteBlob h hjob (hpermitted candidates blobKey purged blobs hjob)
    next => exact absurd hnext (by simp)
  | finishSweep w =>
    simp only [next] at hnext
    split at hnext
    next purged blobs hjob =>
      obtain rfl := Option.some.inj hnext
      exact inv_finishSweep h hjob
    next => exact absurd hnext (by simp)
  | checkBind w binding =>
    simp only [next] at hnext
    split_ifs at hnext with hidle hcommitted
    obtain rfl := Option.some.inj hnext
    refine h.setJob (fun _ _ hlock => hlock) (by simp) fun old hold => ?_
    exact absurd (by simp [hold]) hidle
  | checkEdits w removed references attachments =>
    simp only [next] at hnext
    split_ifs at hnext with hidle hcommitted
    obtain rfl := Option.some.inj hnext
    refine h.setJob (fun _ _ hlock => hlock) (by simp) fun old hold => ?_
    exact absurd (by simp [hold]) hidle
  | reserve w =>
    simp only [next] at hnext
    split at hnext
    next removed references id attachments hjob =>
      obtain ⟨hfree, hnext⟩ := Option.ite_none_left_eq_some.mp hnext
      obtain ⟨-, ⟨⟩⟩ := Option.ite_none_right_eq_some.mp hnext
      refine h.setJob (fun id' w' hlock => ?_) (by simp) fun old hold => ?_
      · by_cases hid : id' = id
        · subst hid
          simpa [hlock, eq_comm] using hfree
        · simpa [hid] using hlock
      · simp [hjob] at hold
    next => exact absurd hnext (by simp)
  | writeBindings w =>
    simp only [next] at hnext
    split at hnext
    next binding hjob =>
      obtain ⟨written, hwritten, rfl⟩ := Option.map_eq_some_iff.mp hnext
      exact inv_writeBindings h hjob (hpermitted binding hjob) hwritten
    next => exact absurd hnext (by simp)
  | rollBack w =>
    obtain rfl := Option.some.inj hnext
    exact h.endJob hpermitted

/-- **Retention purges no version that is held or bound, in every run whose steps meet the
condition.** -/
theorem retained_of_run {history : List (Event W)}
    (h : Run next Permitted (State.initial store : State W) history s) : Retained s :=
  (h.invariant inv_initial fun _ _ _ hpermitted hnext hinv =>
    inv_of_next hinv hpermitted hnext).retained

/-! ### Sweeps of two versions -/

/-- Whether no version is held when one is purged, and what is deleted and bound is a version's
own. -/
def isCareful (s : State Unit) : Event Unit → Bool
  | .purgeVersion _ => s.versions.all fun version => !version.hasLegalHold
  | .deleteBlob w =>
    match s.jobs w with
    | some (.sweep ⟨_, .deleteBlob blobKey, purged, _⟩) => s.versions.all fun version =>
      decide (version.blobKey = blobKey → version.mediaItemVersionId ∈ purged)
    | _ => true
  | .writeBindings w =>
    match s.jobs w with
    | some (.binding binding) => binding.targets.all fun id =>
      s.versions.any fun version => decide (version.mediaItemVersionId = id)
    | _ => true
  | .rollBack _ => false
  | _ => true

theorem permitted_of_isCareful {s : State Unit} {e : Event Unit} (h : isCareful s e = true) :
    Permitted s e := by
  cases e with
  | purgeVersion w =>
    intro candidates version purged blobs hjob other hmem hid
    simpa using List.all_eq_true.mp h other hmem
  | deleteBlob w =>
    intro candidates blobKey purged blobs hjob other hmem
    simp only [isCareful, hjob] at h
    exact of_decide_eq_true (List.all_eq_true.mp h other hmem)
  | writeBindings w =>
    intro binding hjob id hid
    simp only [isCareful, hjob] at h
    obtain ⟨version, hmem, hversion⟩ := List.any_eq_true.mp (List.all_eq_true.mp h id hid)
    refine ⟨⟨version, hmem, of_decide_eq_true hversion⟩, fun w' sweep hsweep => ?_⟩
    simp [hjob] at hsweep
  | rollBack w => simp [isCareful] at h
  | _ => trivial

/-- Two versions that are marked, of which the second is bound. -/
def markedStore : Store where
  versions := [⟨"first", "a", true, some 1, false⟩, ⟨"second", "b", true, some 1, false⟩]
  bindings := [⟨⟨"Person", "p1", "photo"⟩, "second"⟩]
  hasBlob _ := true
  stored _ _ := rfl

/-- The first version is purged, and the second bound once more. -/
def boundHistory : List (Event Unit) :=
  [.writeBindings (), .checkBind () ⟨⟨"Person", "p2", "photo"⟩, "second"⟩, .finishSweep (),
    .sweepOne (), .deleteBlob (), .purgeVersion (), .sweepOne (), .beginSweep () 2]

theorem retained_bound : ∃ s, Run next Permitted (State.initial markedStore) boundHistory s ∧
    s.purges.length = 1 ∧ s.bindings.length = 2 ∧ Retained s := by
  obtain ⟨s, hreplay, hlengths⟩ := exists_replay_of_any (show (replay (guarded next isCareful)
    (State.initial markedStore) boundHistory).any
      (fun s => decide (s.purges.length = 1 ∧ s.bindings.length = 2)) = true by decide +kernel)
  obtain ⟨hpurges, hbindings⟩ := of_decide_eq_true hlengths
  have hrun := run_of_replay_guarded (fun _ _ => permitted_of_isCareful) hreplay
  exact ⟨s, hrun, hpurges, hbindings, retained_of_run hrun⟩

/-- A hold is placed on a version behind the back of a sweep that has read it. -/
theorem not_retained : ¬ ∀ (store : Store) (history : List (Event Unit)) (s : State Unit),
    Run next Always (State.initial store) history s → Retained s := by
  intro h
  obtain ⟨s, hreplay, hbad⟩ := exists_replay_of_any (show (replay next
    (State.initial markedStore : State Unit) [.finishSweep (), .sweepOne (), .deleteBlob (),
      .purgeVersion (), .sweepOne (), .setLegalHold "first" true, .beginSweep () 2]).any
        (fun s => s.purges.any fun purge => purge.version.hasLegalHold) = true by decide +kernel)
  obtain ⟨purge, hmem, hheld⟩ := List.any_eq_true.mp hbad
  have hfree := ((h _ _ s (run_always_iff.mpr hreplay)).purges purge hmem).1
  simp [hheld] at hfree

end FoundryLite.Media.Retention
