import FoundryLite.Library.Moves
import FoundryLite.Ontology.Proposals

/-!
# What the requests of a proposal do

Each transaction is described by what it may do to a row (`RowMove`), to the receipts and the
activations (`Logged`), and to what its request holds (`CallOk`). A proposal that was decided keeps
its text and its decision; one whose execution was claimed stays approved, and one that is rejected
stays so. An activation leaves a receipt in the same transaction, so there is one for each proposal
at most.

## Main results

* `StoreStep.ok`: what holds of the rows, the receipts and the activations is kept.
* `transaction_spec`: every event does what its specification says.
* `Invariant.next`: every event keeps the invariant.
-/

namespace FoundryLite.Proposals

open Runs Transaction

variable {ω : Type} {env : Environment ω} {store store' : Store ω} {row row' : Proposal}

/-! ### One row -/

/-- The execution of the proposal was claimed. -/
def ExecutionStatus.isStarted : ExecutionStatus → Bool
  | .executing | .executed | .failed => true
  | .pendingReview | .withdrawn => false

/-- What the columns of a row say about each other. -/
structure RowOk (env : Environment ω) (row : Proposal) : Prop where
  fingerprint : row.proposalFingerprint = env.yamlFingerprint row.actionProposal.yamlText
  pending : row.status = .pending → row.executionStatus = .pendingReview
  withdrawn : row.executionStatus = .withdrawn → row.status = .rejected
  started : row.executionStatus.isStarted → row.status = .approved

/-- A decided proposal keeps its text and its decision, and a rejected or started one its status. -/
structure ProposalMove (row row' : Proposal) : Prop where
  id : row'.id = row.id
  text : row.status ≠ .pending → row'.actionProposal = row.actionProposal
  decision : row.status ≠ .pending → row'.decision = row.decision
  decided : row.status ≠ .pending → row'.status ≠ .pending
  rejected : row.status = .rejected → row'.status = .rejected
  started : row.executionStatus.isStarted → row'.executionStatus.isStarted

theorem ProposalMove.refl (row : Proposal) : ProposalMove row row :=
  ⟨rfl, fun _ => rfl, fun _ => rfl, fun h => h, fun h => h, fun h => h⟩

/-- The approval that a transaction stores, if it does. -/
abbrev Approving := Option (DecideRequest × DecisionPlan)

/-- What a transaction may do to a row, given the receipts there are in the end. -/
structure RowMove (env : Environment ω) (receipts : String → Option Receipt)
    (approving : Approving) (row row' : Proposal) : Prop where
  move : ProposalMove row row'
  ok : RowOk env row'
  executed : row'.executionStatus = .executed →
    row.executionStatus = .executed ∨ (receipts (activationKey row.id)).isSome
  approved : row'.status = .approved → row.status = .approved ∨
    ∃ request plan, approving = some (request, plan) ∧ row.id = request.proposalId ∧
      row'.actionProposal = row.actionProposal ∧ row'.decision = some (decisionRecord request plan)

theorem RowMove.refl {receipts : String → Option Receipt} {approving : Approving}
    (h : RowOk env row) : RowMove env receipts approving row row :=
  ⟨.refl row, h, .inl, .inl⟩

/-- A row that an update does not apply to is left alone. -/
theorem rowMove_when {receipts : String → Option Receipt} {approving : Approving}
    {guard : Proposal → Bool} {values : Update} (h : RowOk env row)
    (hmove : guard row → RowMove env receipts approving row (values.apply row)) :
    RowMove env receipts approving row ((values.when guard).apply row) := by
  simp only [Update.when]
  split_ifs with hguard
  · exact hmove hguard
  · exact .refl h

section Updates

variable {receipts : String → Option Receipt} {approving : Approving}

theorem rowMove_assign {assignee key : String} (h : RowOk env row) :
    RowMove env receipts approving row ((assignValues assignee key).apply row) :=
  ⟨⟨rfl, fun _ => rfl, fun _ => rfl, fun h => h, fun h => h, fun h => h⟩,
    ⟨h.fingerprint, h.pending, h.withdrawn, h.started⟩, .inl, .inl⟩

theorem rowMove_decision {request : DecideRequest} {plan : DecisionPlan} (h : RowOk env row)
    (hpending : row.status = .pending) (hid : row.id = request.proposalId)
    (happroving : request.decision = .approved → approving = some (request, plan)) :
    RowMove env receipts approving row
      ((decisionValues (decisionRecord request plan)).apply row) := by
  have hstatus : ((decisionValues (decisionRecord request plan)).apply row).status =
      request.decision.status := rfl
  have hexec : row.executionStatus = .pendingReview := h.pending hpending
  refine ⟨⟨rfl, fun _ => rfl, absurd hpending, absurd hpending, ?_, fun h => h⟩, ?_, .inl, ?_⟩
  · intro hrejected
    simp [hpending] at hrejected
  · refine ⟨h.fingerprint, fun _ => hexec, fun hwithdrawn => ?_, fun hstarted => ?_⟩
    · simp [decisionValues, hexec] at hwithdrawn
    · simp [decisionValues, hexec, ExecutionStatus.isStarted] at hstarted
  · rw [hstatus]
    intro happroved
    have hdecision : request.decision = .approved := by
      cases hd : request.decision <;> simp [hd, Decision.status] at happroved ⊢
    exact .inr ⟨request, plan, happroving hdecision, hid, rfl, rfl⟩

theorem rowMove_content {claimText : String} {content : ActionProposal} {revision : ℕ × String}
    (h : RowOk env row) (hpending : row.status = .pending) :
    RowMove env receipts approving row
      ((contentValues (env.yamlFingerprint content.yamlText) claimText content revision).apply
        row) :=
  ⟨⟨rfl, absurd hpending, absurd hpending, absurd hpending, fun h => h, fun h => h⟩,
    ⟨rfl, h.pending, h.withdrawn, h.started⟩, .inl, .inl⟩

theorem rowMove_withdrawal {withdrawal : Option String × String} (h : RowOk env row)
    (hpending : row.executionStatus = .pendingReview) :
    RowMove env receipts approving row ((withdrawalValues withdrawal).apply row) := by
  have hstarted : row.executionStatus.isStarted = true → False := by
    simp [hpending, ExecutionStatus.isStarted]
  refine ⟨⟨rfl, fun _ => rfl, fun _ => rfl, fun _ => ?_, fun _ => rfl, fun h => (hstarted h).elim⟩,
    ⟨h.fingerprint, ?_, fun _ => rfl, ?_⟩, ?_, ?_⟩ <;>
    simp [withdrawalValues, proposalWithdrawn, ExecutionStatus.isStarted]

theorem rowMove_started (h : RowOk env row) (happroved : row.status = .approved) :
    RowMove env receipts approving row (startedValues.apply row) := by
  refine ⟨⟨rfl, fun _ => rfl, fun _ => rfl, fun h => h, fun h => h, fun _ => rfl⟩,
    ⟨h.fingerprint, ?_, ?_, fun _ => happroved⟩, ?_, .inl⟩ <;>
    simp [startedValues, happroved]

theorem rowMove_succeeded {applied : AppliedVersion} (h : RowOk env row)
    (happroved : row.status = .approved) (hreceipt : (receipts (activationKey row.id)).isSome) :
    RowMove env receipts approving row ((succeededValues applied).apply row) := by
  refine ⟨⟨rfl, fun _ => rfl, fun _ => rfl, fun h => h, fun h => h, fun _ => rfl⟩,
    ⟨h.fingerprint, ?_, ?_, fun _ => happroved⟩, fun _ => .inr hreceipt, .inl⟩ <;>
    simp [succeededValues, happroved]

theorem rowMove_failed {error : String} (h : RowOk env row)
    (hexecuting : row.executionStatus = .executing) :
    RowMove env receipts approving row ((failedValues error).apply row) := by
  have happroved : row.status = .approved := h.started (by rw [hexecuting]; rfl)
  refine ⟨⟨rfl, fun _ => rfl, fun _ => rfl, fun h => h, fun h => h, fun _ => rfl⟩,
    ⟨h.fingerprint, ?_, ?_, fun _ => happroved⟩, ?_, .inl⟩ <;>
    simp [failedValues, happroved]

end Updates

/-! ### What a transaction does -/

/-- The proposal is stored with this text, and its execution was claimed. -/
def StartedWith (store : Store ω) (proposalId yamlText : String) : Prop :=
  ∃ row ∈ store.proposals.rows, row.id = proposalId ∧ row.executionStatus.isStarted = true ∧
    row.actionProposal.yamlText = yamlText

/-- An activation and its receipt are written together, and only if there was no receipt. -/
inductive Logged (store store' : Store ω) : Prop
  | same (hreceipts : store'.receipts = store.receipts)
      (hactivations : store'.activations = store.activations)
  | activated (proposalId yamlText : String) (receipt : Receipt)
      (hstarted : StartedWith store proposalId yamlText)
      (hfresh : store.receipts (activationKey proposalId) = none)
      (hreceipts : store'.receipts =
        Function.update store.receipts (activationKey proposalId) (some receipt))
      (hactivations : store'.activations = ⟨proposalId, yamlText⟩ :: store.activations)

def Approving.toApprovals (approving : Approving) : List Approval :=
  approving.toList.map fun stored => ⟨stored.1.proposalId, stored.1.expectedFingerprint⟩

/-- What a transaction may do to the rows of a tenant. -/
structure StoreStep (env : Environment ω) (approving : Approving) (store store' : Store ω) :
    Prop where
  proposals : ∃ new, Table.Moves (RowMove env store'.receipts approving) new store.proposals
    store'.proposals ∧ ∀ row, new = some row → RowOk env row ∧ row.status = .pending
  logged : Logged store store'
  approvals : store'.approvals = approving.toApprovals ++ store.approvals
  pending : ∀ request plan, approving = some (request, plan) →
    ∃ row ∈ store.proposals.rows, row.id = request.proposalId ∧ row.status = .pending ∧
      ∃ row' ∈ store'.proposals.rows, row'.id = row.id ∧ row'.status ≠ .pending ∧
        row'.actionProposal = row.actionProposal

/-- What every transaction keeps. -/
structure StoreOk (env : Environment ω) (store : Store ω) : Prop where
  rows : ∀ row ∈ store.proposals.rows, RowOk env row
  activated : ∀ a ∈ store.activations, StartedWith store a.proposalId a.yamlText
  receipted : ∀ a ∈ store.activations, (store.receipts (activationKey a.proposalId)).isSome
  nodup : (store.activations.map Activation.proposalId).Nodup
  logged : ∀ proposalId, (store.receipts (activationKey proposalId)).isSome →
    ∃ a ∈ store.activations, a.proposalId = proposalId
  executed : ∀ row ∈ store.proposals.rows, row.executionStatus = .executed →
    (store.receipts (activationKey row.id)).isSome

theorem eq_of_activationKey_eq {a b : String} (h : activationKey a = activationKey b) : a = b :=
  (String.append_right_inj "ontology.activation:").mp ((String.append_left_inj ":execute").mp h)

section Steps

variable {approving : Approving}

theorem StoreStep.refl (h : StoreOk env store) : StoreStep env none store store :=
  ⟨⟨none, .refl_of_mem fun row hrow => .refl (h.rows row hrow), by simp⟩, .same rfl rfl, rfl,
    by simp⟩

theorem StartedWith.step {proposalId yamlText : String} (hok : StoreOk env store)
    (h : StartedWith store proposalId yamlText) (hstep : StoreStep env approving store store') :
    StartedWith store' proposalId yamlText := by
  obtain ⟨row, hrow, hid, hstarted, htext⟩ := h
  obtain ⟨new, hmoves, -⟩ := hstep.proposals
  obtain ⟨row', hrow', hmove, -⟩ := hmoves.kept row hrow
  have hdecided : row.status ≠ .pending := by
    rw [(hok.rows row hrow).started hstarted]
    simp
  exact ⟨row', hrow', hmove.id.trans hid, hmove.started hstarted,
    (congrArg ActionProposal.yamlText (hmove.text hdecided)).trans htext⟩

/-- A receipt is not taken back. -/
theorem receipts_of_step {key : String} (h : (store.receipts key).isSome)
    (hstep : StoreStep env approving store store') : (store'.receipts key).isSome := by
  rcases hstep.logged with ⟨hreceipts, -⟩ | ⟨proposalId, -, receipt, -, -, hreceipts, -⟩
  · rwa [hreceipts]
  · rw [hreceipts, Function.update_apply]
    split_ifs
    · rfl
    · exact h

/-- An activation is not taken back. -/
theorem activations_of_step {activation : Activation} (h : activation ∈ store.activations)
    (hstep : StoreStep env approving store store') : activation ∈ store'.activations := by
  rcases hstep.logged with ⟨-, hactivations⟩ | ⟨proposalId, text, receipt, -, -, -, hactivations⟩
  · rwa [hactivations]
  · rw [hactivations]
    exact List.mem_cons_of_mem _ h

/-- **What holds of the rows, the receipts and the activations is kept.** -/
theorem StoreStep.ok (h : StoreOk env store) (hstep : StoreStep env approving store store') :
    StoreOk env store' := by
  obtain ⟨new, hmoves, hnew⟩ := hstep.proposals
  have hreceipt : ∀ key, (store.receipts key).isSome → (store'.receipts key).isSome :=
    fun _ hsome => receipts_of_step hsome hstep
  have hactivated : ∀ a ∈ store.activations, StartedWith store' a.proposalId a.yamlText :=
    fun a ha => (h.activated a ha).step h hstep
  have hexecuted : ∀ row' ∈ store'.proposals.rows, row'.executionStatus = .executed →
      (store'.receipts (activationKey row'.id)).isSome := by
    intro row' hrow' hexec
    rcases hmoves.origin row' hrow' with ⟨row, hrow, hmove⟩ | ⟨row, heq, hmove⟩
    · rw [hmove.move.id]
      exact (hmove.executed hexec).elim (fun hbefore => hreceipt _ (h.executed row hrow hbefore)) id
    · rw [hmove.move.id]
      refine (hmove.executed hexec).elim (fun hbefore => ?_) id
      obtain ⟨hok, hpending⟩ := hnew row heq
      exact absurd (hbefore.symm.trans (hok.pending hpending)) (by simp)
  have hrows : ∀ row' ∈ store'.proposals.rows, RowOk env row' := by
    intro row' hrow'
    rcases hmoves.origin row' hrow' with ⟨row, hrow, hmove⟩ | ⟨row, heq, hmove⟩
    · exact hmove.ok
    · exact hmove.ok
  rcases hstep.logged with ⟨hsame, hlog⟩ | ⟨proposalId, text, receipt, hstarted, hfresh, hput, hlog⟩
  · refine ⟨hrows, ?_, ?_, ?_, ?_, hexecuted⟩
    · rwa [hlog]
    · rw [hlog]
      exact fun a ha => hreceipt _ (h.receipted a ha)
    · rw [hlog]
      exact h.nodup
    · rw [hlog, hsame]
      exact h.logged
  · refine ⟨hrows, ?_, ?_, ?_, fun key hkey => ?_, hexecuted⟩
    · rw [hlog, List.forall_mem_cons]
      exact ⟨hstarted.step h hstep, hactivated⟩
    · rw [hlog, List.forall_mem_cons]
      exact ⟨by simp [hput], fun a ha => hreceipt _ (h.receipted a ha)⟩
    · rw [hlog, List.map_cons, List.nodup_cons]
      refine ⟨fun hmem => ?_, h.nodup⟩
      obtain ⟨a, ha, heq⟩ := List.mem_map.mp hmem
      have hbefore := h.receipted a ha
      rw [heq, hfresh] at hbefore
      simp at hbefore
    · rw [hput, Function.update_apply] at hkey
      rw [hlog]
      by_cases heq : activationKey key = activationKey proposalId
      · exact ⟨_, List.mem_cons_self, (eq_of_activationKey_eq heq).symm⟩
      · rw [if_neg heq] at hkey
        obtain ⟨a, ha, hid⟩ := h.logged key hkey
        exact ⟨a, List.mem_cons_of_mem _ ha, hid⟩

/-! ### Conditional updates -/

section Guarded

variable {proposalId : String} {guard : Proposal → Bool} {values : Update}
  {result : Option Proposal}

theorem guardedUpdate_eq_ok
    (h : guardedUpdate proposalId guard values store = .ok (result, store')) :
    store' = { store with
      proposals := store.proposals.updateRow proposalId (values.when guard) } ∧
    (∀ after, result = some after → after ∈ store'.proposals.rows ∧
      ∃ row ∈ store.proposals.rows, row.id = proposalId ∧ guard row = true ∧
        values.apply row = after) ∧
    (result = none → ∀ row ∈ store.proposals.rows, row.id = proposalId → guard row = false) := by
  simp only [guardedUpdate, bind_eq_ok_iff, get_eq_ok_iff,
    modify_eq_ok_iff, pure_eq_ok_iff, Prod.mk.injEq] at h
  obtain ⟨_, _, ⟨rfl, rfl⟩, _, _, ⟨-, rfl⟩, rfl, rfl⟩ := h
  refine ⟨rfl, fun after hafter => ?_, fun hnone row hrow hid => ?_⟩
  · obtain ⟨row, hfind, rfl⟩ := Option.map_eq_some_iff.mp hafter
    have hmeets := List.find?_some hfind
    simp only [Bool.and_eq_true, decide_eq_true_eq] at hmeets
    have hmem := List.mem_of_find?_eq_some hfind
    refine ⟨?_, row, hmem, hmeets.1, hmeets.2, rfl⟩
    rw [Table.rows_updateRow]
    refine List.mem_map.mpr ⟨row, hmem, ?_⟩
    rw [if_pos hmeets.1, Update.when]
    exact if_pos hmeets.2
  · simpa [hid] using List.find?_eq_none.mp (Option.map_eq_none_iff.mp hnone) row hrow

theorem moves_guardedUpdate (hok : StoreOk env store)
    (hmove : ∀ row ∈ store.proposals.rows, row.id = proposalId → guard row →
      RowMove env store.receipts approving row (values.apply row)) :
    Table.Moves (RowMove env store.receipts approving) none store.proposals
      (store.proposals.updateRow proposalId (values.when guard)) :=
  .updateRow_of_mem (fun row hrow => .refl (hok.rows row hrow)) fun row hrow hid =>
    rowMove_when (hok.rows row hrow) (hmove row hrow hid)

theorem storeStep_guardedUpdate (hok : StoreOk env store)
    (h : guardedUpdate proposalId guard values store = .ok (result, store'))
    (hmove : ∀ row ∈ store.proposals.rows, row.id = proposalId → guard row →
      RowMove env store.receipts none row (values.apply row)) :
    StoreStep env none store store' := by
  obtain ⟨rfl, -⟩ := guardedUpdate_eq_ok h
  exact ⟨⟨none, moves_guardedUpdate hok hmove, by simp⟩, .same rfl rfl, rfl, by simp⟩

end Guarded

section Transactions

variable {proposalId actorUserId : String}

theorem requireProposalRow_eq_ok (h : requireProposalRow proposalId store = .ok (row, store')) :
    store = store' ∧ row ∈ store.proposals.rows ∧ row.id = proposalId := by
  simp only [requireProposalRow, bind_eq_ok_iff, get_eq_ok_iff,
    requireSome_eq_ok_iff, Prod.mk.injEq] at h
  obtain ⟨_, _, ⟨rfl, rfl⟩, _, hfind, rfl, rfl⟩ := h
  exact ⟨rfl, List.mem_of_find?_eq_some hfind, by simpa using List.find?_some hfind⟩

theorem storeStep_assignReviewer {request : AssignRequest} {u : Unit} (hok : StoreOk env store)
    (h : assignReviewer env request store = .ok (u, store')) : StoreStep env none store store' := by
  simp only [assignReviewer, bind_eq_ok_iff, lift_eq_ok_iff,
    Prod.mk.injEq] at h
  obtain ⟨_, _, ⟨_, -, -, rfl⟩, before, _, hrow, _, _, ⟨_, -, -, rfl⟩, h⟩ := h
  obtain ⟨rfl, -, -⟩ := requireProposalRow_eq_ok hrow
  split_ifs at h with hreplay
  · obtain ⟨-, rfl⟩ := Prod.mk.inj (pure_eq_ok_iff.mp h)
    exact .refl hok
  · simp only [bind_eq_ok_iff, require_eq_ok_iff, Prod.mk.injEq] at h
    obtain ⟨after, _, hassign, -, -, rfl⟩ := h
    exact storeStep_guardedUpdate hok hassign fun row hrow _ _ => rowMove_assign (hok.rows row hrow)

theorem storeStep_withdrawProposal {request : WithdrawRequest} {u : Unit} (hok : StoreOk env store)
    (h : withdrawProposal request store = .ok (u, store')) : StoreStep env none store store' := by
  simp only [withdrawProposal, bind_eq_ok_iff, require_eq_ok_iff,
    Prod.mk.injEq] at h
  obtain ⟨before, _, hrow, _, _, ⟨-, -, rfl⟩, h⟩ := h
  obtain ⟨rfl, -, -⟩ := requireProposalRow_eq_ok hrow
  split_ifs at h with hreplay
  · obtain ⟨-, rfl⟩ := Prod.mk.inj (pure_eq_ok_iff.mp h)
    exact .refl hok
  · simp only [bind_eq_ok_iff, require_eq_ok_iff, Prod.mk.injEq] at h
    obtain ⟨after, _, hwithdraw, -, -, rfl⟩ := h
    refine storeStep_guardedUpdate hok hwithdraw fun row hrow _ hguard => ?_
    simp only [Bool.and_eq_true, decide_eq_true_eq] at hguard
    exact rowMove_withdrawal (hok.rows row hrow) hguard.2

theorem storeStep_submitProposal {request : SubmitRequest} {validation : ValidationResult}
    {token id : String} (hok : StoreOk env store)
    (h : submitProposal env request validation token store = .ok (id, store')) :
    StoreStep env none store store' := by
  simp only [submitProposal, bind_eq_ok_iff, get_eq_ok_iff,
    Prod.mk.injEq] at h
  obtain ⟨_, _, ⟨rfl, rfl⟩, h⟩ := h
  cases hkey : store.proposals.get?
      (proposalRecord env request validation token).createdIdempotencyKey with
  | some existing =>
    simp only [hkey, bind_eq_ok_iff, lift_eq_ok_iff,
      pure_eq_ok_iff, Prod.mk.injEq] at h
    obtain ⟨_, _, ⟨_, -, -, rfl⟩, -, rfl⟩ := h
    exact .refl hok
  | none =>
    simp only [hkey, bind_eq_ok_iff, get_eq_ok_iff,
      requireSome_eq_ok_iff, modify_eq_ok_iff, pure_eq_ok_iff,
      Prod.mk.injEq] at h
    obtain ⟨_, _, ⟨rfl, rfl⟩, proposals, _, ⟨_, hinsert, rfl, rfl⟩, _, _, ⟨-, rfl⟩, -, rfl⟩ := h
    have hrecord : RowOk env (proposalRecord env request validation token) :=
      ⟨rfl, fun _ => rfl, by simp [proposalRecord],
        by simp [proposalRecord, ExecutionStatus.isStarted]⟩
    refine ⟨⟨_, .insert?_of_mem (fun row hrow => .refl (hok.rows row hrow)) (.refl hrecord) hinsert,
      fun row hnew => ?_⟩, .same rfl rfl, rfl, by simp⟩
    obtain rfl := Option.some.inj hnew
    exact ⟨hrecord, rfl⟩

@[simp]
theorem refuseUnless_eq_ok_iff {holds : Bool} {error : FoundryLiteError} {u : Unit} :
    refuseUnless holds error = .ok u ↔ holds = true := by
  cases holds <;> simp [refuseUnless]

theorem requireFingerprintMatch_eq_ok {fingerprint : String} {u : Unit}
    (h : requireFingerprintMatch row fingerprint = .ok u) :
    row.proposalFingerprint = fingerprint := by
  simp only [requireFingerprintMatch, Except.bind_eq_ok_iff, refuseUnless_eq_ok_iff,
    decide_eq_true_eq] at h
  exact h.choose_spec.2

/-- The row that a decision reads has the fingerprint that the request names. -/
theorem readDecidable_eq_ok {request : DecideRequest} {read : Option Proposal}
    (h : readDecidable env request store = .ok (read, store')) :
    store' = store ∧ ∀ row, read = some row →
      row ∈ store.proposals.rows ∧ row.proposalFingerprint = request.expectedFingerprint := by
  simp only [readDecidable, bind_eq_ok_iff, lift_eq_ok_iff,
    Prod.mk.injEq] at h
  obtain ⟨row, _, hrow, _, _, ⟨_, hmatch, -, rfl⟩, _, _, ⟨_, -, -, rfl⟩, isReplay, _,
    ⟨_, -, -, rfl⟩, h⟩ := h
  obtain ⟨rfl, hmem, -⟩ := requireProposalRow_eq_ok hrow
  cases isReplay with
  | true =>
    obtain ⟨rfl, rfl⟩ := Prod.mk.inj (pure_eq_ok_iff.mp h)
    exact ⟨rfl, by simp⟩
  | false =>
    simp only [Bool.false_eq_true, if_false, bind_eq_ok_iff,
      lift_eq_ok_iff, pure_eq_ok_iff, Prod.mk.injEq] at h
    obtain ⟨_, _, ⟨_, -, -, rfl⟩, rfl, rfl⟩ := h
    refine ⟨rfl, fun row' hread => ?_⟩
    obtain rfl := Option.some.inj hread
    exact ⟨hmem, requireFingerprintMatch_eq_ok hmatch⟩

/-- The plan was computed from this text, against some ontology. -/
def PlannedFrom (env : Environment ω) (yamlText : String) (plan : DecisionPlan) : Prop :=
  ∃ ontology validation, env.validateYamlText ontology yamlText = .ok validation ∧
    plan = .plan validation.migrationPlan

theorem decisionTimePlan_eq_ok {decision : Decision} {plan : DecisionPlan}
    (h : decisionTimePlan env row decision store = .ok (plan, store')) :
    store' = store ∧
      (decision = .approved → PlannedFrom env row.actionProposal.yamlText plan) := by
  simp only [decisionTimePlan, bind_eq_ok_iff, get_eq_ok_iff,
    Prod.mk.injEq] at h
  obtain ⟨_, _, ⟨rfl, rfl⟩, h⟩ := h
  cases hvalidate : env.validateYamlText store.ontology row.actionProposal.yamlText with
  | error error =>
    simp only [hvalidate] at h
    split_ifs at h with hdecision
    · simp [lift_eq_ok_iff] at h
    · obtain ⟨rfl, rfl⟩ := Prod.mk.inj (pure_eq_ok_iff.mp h)
      exact ⟨rfl, fun happroved => absurd happroved hdecision⟩
  | ok validation =>
    simp only [hvalidate, bind_eq_ok_iff, lift_eq_ok_iff,
      pure_eq_ok_iff, Prod.mk.injEq] at h
    obtain ⟨_, _, ⟨_, -, -, rfl⟩, rfl, rfl⟩ := h
    exact ⟨rfl, fun _ => ⟨_, validation, hvalidate, rfl⟩⟩

theorem storeStep_storeDecision {request : DecideRequest} {plan : DecisionPlan} {u : Unit}
    (hok : StoreOk env store) (h : storeDecision env request plan store = .ok (u, store')) :
    ∃ approving, StoreStep env approving store store' ∧
      ∀ x, approving = some x → x = (request, plan) ∧ request.decision = .approved := by
  simp only [storeDecision, bind_eq_ok_iff, lift_eq_ok_iff,
    Prod.mk.injEq] at h
  obtain ⟨before, _, hrow, _, _, ⟨_, -, -, rfl⟩, after, decided, hdecide, h⟩ := h
  obtain ⟨rfl, -, -⟩ := requireProposalRow_eq_ok hrow
  have hmoves : ∀ approving : Approving,
      (request.decision = .approved → approving = some (request, plan)) →
      ∀ row ∈ store.proposals.rows, row.id = request.proposalId →
        decide (row.status ∈ (reviewDecided request.decision).fromStatuses) = true →
        RowMove env store.receipts approving row
          ((decisionValues (decisionRecord request plan)).apply row) := by
    intro approving happroving row hrow hid hpending
    exact rowMove_decision (hok.rows row hrow)
      (List.mem_singleton.mp (of_decide_eq_true hpending)) hid happroving
  cases after with
  | some after =>
    obtain ⟨rfl, hafter, -⟩ := guardedUpdate_eq_ok hdecide
    obtain ⟨hafter, row, hrow, hid, hguard, rfl⟩ := hafter after rfl
    simp only [decide_eq_true_eq] at hguard
    have hpending : row.status = .pending := List.mem_singleton.mp hguard
    simp only at h
    split_ifs at h with hdecision
    · obtain ⟨-, rfl⟩ := Prod.mk.inj (modify_eq_ok_iff.mp h)
      refine ⟨some (request, plan), ⟨⟨none, moves_guardedUpdate hok fun row hrow hid hguard =>
        hmoves _ (fun _ => rfl) row hrow hid hguard, by simp⟩, .same rfl rfl, rfl,
        ?_⟩, ?_⟩
      · rintro _ _ ⟨⟩
        refine ⟨row, hrow, hid, hpending, _, hafter, rfl, ?_, rfl⟩
        simp [decisionValues, reviewDecided, decisionRecord, hdecision, Decision.status]
      · rintro x ⟨⟩
        exact ⟨rfl, hdecision⟩
    · obtain ⟨-, rfl⟩ := Prod.mk.inj (pure_eq_ok_iff.mp h)
      exact ⟨none, ⟨⟨none, moves_guardedUpdate hok fun row hrow hid hguard =>
        hmoves _ (absurd · hdecision) row hrow hid hguard, by simp⟩, .same rfl rfl,
        rfl, by simp⟩, by simp⟩
  | none =>
    simp only [bind_eq_ok_iff, lift_eq_ok_iff,
      require_eq_ok_iff, Prod.mk.injEq] at h
    obtain ⟨isReplay, _, ⟨_, -, -, rfl⟩, -, -, rfl⟩ := h
    obtain ⟨rfl, -, hnone⟩ := guardedUpdate_eq_ok hdecide
    exact ⟨none, ⟨⟨none, moves_guardedUpdate hok fun row hrow hid hguard =>
      absurd hguard (by simp [hnone rfl row hrow hid]), by simp⟩, .same rfl rfl, rfl, by simp⟩,
      by simp⟩

theorem guardUpdateOrReplay_eq_ok {request : UpdateRequest} {isReplay : Bool}
    (h : guardUpdateOrReplay env request store = .ok (isReplay, store')) : store = store' := by
  simp only [guardUpdateOrReplay, bind_eq_ok_iff, lift_eq_ok_iff,
    require_eq_ok_iff, Prod.mk.injEq] at h
  obtain ⟨_, _, ⟨_, -, -, rfl⟩, _, _, ⟨-, -, rfl⟩, row, _, hrow, _, _, ⟨-, -, rfl⟩, _, _,
    ⟨_, -, -, rfl⟩, h⟩ := h
  obtain ⟨rfl, -, -⟩ := requireProposalRow_eq_ok hrow
  split_ifs at h
  · exact (Prod.mk.inj (pure_eq_ok_iff.mp h)).2
  · simp only [bind_eq_ok_iff, lift_eq_ok_iff,
      pure_eq_ok_iff, Prod.mk.injEq] at h
    obtain ⟨_, _, ⟨_, -, -, rfl⟩, -, rfl⟩ := h
    rfl

theorem storeStep_storeRevision {request : UpdateRequest} {validation : ValidationResult}
    {u : Unit} (hok : StoreOk env store)
    (h : storeRevision env request validation store = .ok (u, store')) :
    StoreStep env none store store' := by
  simp only [storeRevision, bind_eq_ok_iff] at h
  obtain ⟨before, _, hrow, after, _, hupdate, h⟩ := h
  obtain ⟨rfl, -, -⟩ := requireProposalRow_eq_ok hrow
  have hstep := storeStep_guardedUpdate hok hupdate fun row hrow _ hguard => by
    simp only [Bool.and_eq_true, decide_eq_true_eq] at hguard
    exact rowMove_content (hok.rows row hrow) hguard.1.1
  cases after with
  | some after =>
    obtain ⟨-, rfl⟩ := Prod.mk.inj (pure_eq_ok_iff.mp h)
    exact hstep
  | none =>
    simp only at h
    split_ifs at h
    · obtain ⟨-, rfl⟩ := Prod.mk.inj (pure_eq_ok_iff.mp h)
      exact hstep
    · simp [bind_eq_ok_iff, throw_eq_ok_iff] at h

theorem replayActivation_eq_ok {fingerprint : String} {result : ApplyResult}
    (h : replayActivation store proposalId fingerprint = .ok (some result)) :
    (store.receipts (activationKey proposalId)).isSome := by
  cases hreceipt : store.receipts (activationKey proposalId) with
  | none => simp [replayActivation, hreceipt] at h
  | some receipt => rfl

theorem receipts_eq_none_of_replayActivation {fingerprint : String}
    (h : replayActivation store proposalId fingerprint = .ok none) :
    store.receipts (activationKey proposalId) = none := by
  cases hreceipt : store.receipts (activationKey proposalId) with
  | none => rfl
  | some receipt => simp [replayActivation, hreceipt] at h

/-- A success is recorded of a proposal that has a receipt. -/
theorem storeStep_storeExecutionSuccess {result : ApplyResult} {u : Unit} (hok : StoreOk env store)
    (hreceipt : (store.receipts (activationKey proposalId)).isSome)
    (h : storeExecutionSuccess proposalId actorUserId result store = .ok (u, store')) :
    StoreStep env none store store' := by
  simp only [storeExecutionSuccess, bind_eq_ok_iff] at h
  obtain ⟨before, _, hrow, after, _, hupdate, h⟩ := h
  obtain ⟨rfl, -, -⟩ := requireProposalRow_eq_ok hrow
  have hstep := storeStep_guardedUpdate hok hupdate fun row hrow hid hguard => by
    simp only [Bool.and_eq_true, decide_eq_true_eq] at hguard
    exact rowMove_succeeded (hok.rows row hrow) hguard.1 (hid ▸ hreceipt)
  cases after with
  | some after =>
    obtain ⟨-, rfl⟩ := Prod.mk.inj (pure_eq_ok_iff.mp h)
    exact hstep
  | none =>
    obtain ⟨-, heq⟩ := require_eq_ok_iff.mp h
    obtain ⟨-, rfl⟩ := Prod.mk.inj heq
    exact hstep

theorem storeStep_reconcileExecutingProposal {isRecovered : Bool} (hok : StoreOk env store)
    (h : reconcileExecutingProposal env row actorUserId store = .ok (isRecovered, store')) :
    StoreStep env none store store' := by
  simp only [reconcileExecutingProposal, bind_eq_ok_iff, lift_eq_ok_iff,
    get_eq_ok_iff, Prod.mk.injEq] at h
  obtain ⟨_, _, ⟨fingerprint, -, rfl, rfl⟩, _, _, ⟨rfl, rfl⟩, _, _, ⟨found, hreplay, rfl, rfl⟩, h⟩ :=
    h
  cases found with
  | none =>
    obtain ⟨-, rfl⟩ := Prod.mk.inj (pure_eq_ok_iff.mp h)
    exact .refl hok
  | some result =>
    simp only [bind_eq_ok_iff, pure_eq_ok_iff, Prod.mk.injEq] at h
    obtain ⟨_, _, hsuccess, -, rfl⟩ := h
    exact storeStep_storeExecutionSuccess hok (replayActivation_eq_ok hreplay) hsuccess

theorem storeStep_finishExecution {result : ApplyResult} {u : Unit} (hok : StoreOk env store)
    (hreceipt : (store.receipts (activationKey proposalId)).isSome)
    (h : finishExecution proposalId actorUserId result store = .ok (u, store')) :
    StoreStep env none store store' := by
  simp only [finishExecution, bind_eq_ok_iff] at h
  obtain ⟨current, _, hrow, h⟩ := h
  obtain ⟨rfl, -, hid⟩ := requireProposalRow_eq_ok hrow
  split_ifs at h
  · obtain ⟨-, rfl⟩ := Prod.mk.inj (pure_eq_ok_iff.mp h)
    exact .refl hok
  · exact storeStep_storeExecutionSuccess hok (hid ▸ hreceipt) h

theorem storeStep_recordExecutionFailure {error : String} {u : Unit} (hok : StoreOk env store)
    (h : recordExecutionFailure env proposalId error store = .ok (u, store')) :
    StoreStep env none store store' := by
  simp only [recordExecutionFailure, bind_eq_ok_iff, pure_eq_ok_iff,
    Prod.mk.injEq] at h
  obtain ⟨after, _, hupdate, -, rfl⟩ := h
  exact storeStep_guardedUpdate hok hupdate fun row hrow _ hguard =>
    rowMove_failed (hok.rows row hrow) (of_decide_eq_true hguard)

/-- The text that a claim returns is the text of a proposal whose execution was claimed. -/
theorem claimNewExecution_eq_ok {yamlText : String} (hok : StoreOk env store)
    (h : claimNewExecution row store = .ok (yamlText, store')) :
    StoreStep env none store store' ∧ StartedWith store' row.id yamlText := by
  simp only [claimNewExecution, bind_eq_ok_iff, require_eq_ok_iff,
    requireSome_eq_ok_iff, pure_eq_ok_iff, Prod.mk.injEq] at h
  obtain ⟨_, _, ⟨-, -, rfl⟩, _, _, hupdate, _, _, ⟨claimed, rfl, rfl, rfl⟩, rfl, rfl⟩ := h
  have hstep := storeStep_guardedUpdate hok hupdate fun row hrow _ hguard => by
    simp only [Bool.and_eq_true, decide_eq_true_eq] at hguard
    exact rowMove_started (hok.rows row hrow) hguard.1
  obtain ⟨hmem, old, -, hid, -, rfl⟩ := (guardedUpdate_eq_ok hupdate).2.1 claimed rfl
  exact ⟨hstep, _, hmem, hid, rfl, rfl⟩

theorem claimExecution_eq_ok {request : ExecuteRequest} {text : Option String}
    (hok : StoreOk env store) (h : claimExecution env request store = .ok (text, store')) :
    StoreStep env none store store' ∧
      ∀ yamlText, text = some yamlText → StartedWith store' request.proposalId yamlText := by
  simp only [claimExecution, bind_eq_ok_iff, lift_eq_ok_iff,
    Prod.mk.injEq] at h
  obtain ⟨row, _, hrow, _, _, ⟨_, -, -, rfl⟩, _, _, ⟨_, -, -, rfl⟩, h⟩ := h
  obtain ⟨rfl, hmem, hid⟩ := requireProposalRow_eq_ok hrow
  split_ifs at h with hexecuted hexecuting
  · obtain ⟨rfl, rfl⟩ := Prod.mk.inj (pure_eq_ok_iff.mp h)
    exact ⟨.refl hok, by simp⟩
  · obtain ⟨isRecovered, after, hreconcile, h⟩ := bind_eq_ok_iff.mp h
    have hstep := storeStep_reconcileExecutingProposal hok hreconcile
    have hstarted : StartedWith store request.proposalId row.actionProposal.yamlText :=
      ⟨row, hmem, hid, by rw [hexecuting]; rfl, rfl⟩
    split_ifs at h
    all_goals
      obtain ⟨rfl, rfl⟩ := Prod.mk.inj (pure_eq_ok_iff.mp h)
      refine ⟨hstep, ?_⟩
      simp [hstarted.step hok hstep]
  · obtain ⟨yamlText, after, hclaim, heq⟩ := map_eq_ok_iff.mp h
    obtain ⟨rfl, rfl⟩ := Prod.mk.inj heq
    obtain ⟨hstep, hstarted⟩ := claimNewExecution_eq_ok hok hclaim
    refine ⟨hstep, fun yamlText' htext => ?_⟩
    obtain rfl := Option.some.inj htext
    exact hid ▸ hstarted

/-- An activation finds a receipt, or leaves one. -/
theorem applyOntologyTextOnce_eq_ok {yamlText : String} {result : ApplyResult}
    (hok : StoreOk env store) (hstarted : StartedWith store proposalId yamlText)
    (h : applyOntologyTextOnce env proposalId yamlText store = .ok (result, store')) :
    StoreStep env none store store' ∧ (store'.receipts (activationKey proposalId)).isSome := by
  simp only [applyOntologyTextOnce, bind_eq_ok_iff, lift_eq_ok_iff,
    get_eq_ok_iff, Prod.mk.injEq] at h
  obtain ⟨_, _, ⟨fingerprint, -, rfl, rfl⟩, _, _, ⟨rfl, rfl⟩, _, _, ⟨found, hreplay, rfl, rfl⟩,
    h⟩ := h
  cases found with
  | some replayed =>
    obtain ⟨-, rfl⟩ := Prod.mk.inj (pure_eq_ok_iff.mp h)
    exact ⟨.refl hok, replayActivation_eq_ok hreplay⟩
  | none =>
    simp only [bind_eq_ok_iff, lift_eq_ok_iff, get_eq_ok_iff,
      modify_eq_ok_iff, pure_eq_ok_iff, Prod.mk.injEq] at h
    obtain ⟨_, _, ⟨rfl, rfl⟩, _, _, ⟨applied, -, rfl, rfl⟩, _, _, ⟨-, rfl⟩, -, rfl⟩ := h
    exact ⟨⟨⟨none, .refl_of_mem fun row hrow => .refl (hok.rows row hrow), by simp⟩,
      .activated proposalId yamlText _ hstarted (receipts_eq_none_of_replayActivation hreplay) rfl
        rfl, rfl, by simp⟩, by simp⟩

end Transactions

/-! ### Requests -/

/-- What a request holds from its earlier transactions. -/
def CallOk (env : Environment ω) (store : Store ω) : Call → Prop
  | .planning request row =>
    request.expectedFingerprint = env.yamlFingerprint row.actionProposal.yamlText
  | .deciding request row plan =>
    request.expectedFingerprint = env.yamlFingerprint row.actionProposal.yamlText ∧
      (request.decision = .approved → PlannedFrom env row.actionProposal.yamlText plan)
  | .applying proposalId _ yamlText => StartedWith store proposalId yamlText
  | .finishing proposalId _ _ => (store.receipts (activationKey proposalId)).isSome
  | _ => True

theorem CallOk.step {call : Call} (hok : StoreOk env store) (h : CallOk env store call)
    (hstep : StoreStep env approving store store') : CallOk env store' call := by
  cases call with
  | planning request row => exact h
  | deciding request row plan => exact h
  | applying proposalId actorUserId yamlText => exact StartedWith.step hok h hstep
  | finishing proposalId actorUserId result => exact receipts_of_step h hstep
  | submitting request validation => trivial
  | validating request => trivial
  | revising request validation => trivial
  | recovering proposalId actorUserId error => trivial
  | failing proposalId error => trivial

/-- What the transaction of an event does: it keeps what holds of the rows, and the request holds in
the end what its next transaction relies on. An approval is stored by the third transaction of a
decision only. -/
def EventSpec (env : Environment ω) (e : Event ω) (call value : Option Call)
    (store store' : Store ω) : Prop :=
  ∃ approving, StoreStep env approving store store' ∧
    (∀ c, value = some c → CallOk env store' c) ∧
    ∀ request plan, approving = some (request, plan) →
      ∃ row, e = .storeDecision ∧ call = some (.deciding request row plan) ∧
        request.decision = .approved

theorem EventSpec.of_step {e : Event ω} {call value : Option Call}
    (hstep : StoreStep env none store store') (hvalue : ∀ c, value = some c → CallOk env store' c) :
    EventSpec env e call value store store' :=
  ⟨none, hstep, hvalue, by simp⟩

/-- A transaction that ends its request. -/
theorem EventSpec.of_end {α : Type} {tx : Tx ω α} {e : Event ω} {call value : Option Call}
    (hrun : ((fun _ => none) <$> tx : Tx ω (Option Call)) store = .ok (value, store'))
    (hspec : ∀ a, tx store = .ok (a, store') → StoreStep env none store store') :
    EventSpec env e call value store store' := by
  obtain ⟨a, _, htx, heq⟩ := map_eq_ok_iff.mp hrun
  obtain ⟨rfl, rfl⟩ := Prod.mk.inj heq
  exact .of_step (hspec a htx) (by simp)

theorem validateYamlText_eq_ok {yamlText : String} {validation : ValidationResult}
    (h : validateYamlText env yamlText store = .ok (validation, store')) : store = store' := by
  simp only [validateYamlText, bind_eq_ok_iff, get_eq_ok_iff,
    lift_eq_ok_iff, Prod.mk.injEq] at h
  obtain ⟨_, _, ⟨rfl, rfl⟩, _, -, -, rfl⟩ := h
  rfl

theorem validateSubmission_eq_ok {request : SubmitRequest} {validation : ValidationResult}
    (h : validateSubmission env request store = .ok (validation, store')) : store = store' := by
  simp only [validateSubmission, bind_eq_ok_iff, lift_eq_ok_iff,
    Prod.mk.injEq] at h
  obtain ⟨_, _, ⟨_, -, -, rfl⟩, _, _, ⟨_, -, -, rfl⟩, h⟩ := h
  exact validateYamlText_eq_ok h

/-- **Every event does what its specification says.** -/
theorem transaction_spec {e : Event ω} {call value : Option Call} {tx : Tx ω (Option Call)}
    (hok : StoreOk env store) (hcall : ∀ c, call = some c → CallOk env store c)
    (htx : transaction env e call = some tx) (hrun : tx store = .ok (value, store')) :
    EventSpec env e call value store store' := by
  unfold transaction at htx
  split at htx
  all_goals first
    | (obtain rfl := Option.some.inj htx)
    | (cases htx)
  · rename_i request
    simp only [map_eq_ok_iff, Prod.mk.injEq] at hrun
    obtain ⟨_, _, ⟨validation, _, hvalidate, rfl, rfl⟩, rfl, rfl⟩ := hrun
    obtain rfl := validateSubmission_eq_ok hvalidate
    refine .of_step (.refl hok) ?_
    rintro _ ⟨⟩
    trivial
  · exact .of_end hrun fun _ h => storeStep_submitProposal hok h
  · exact .of_end hrun fun _ h => storeStep_assignReviewer hok h
  · exact .of_end hrun fun _ h => storeStep_withdrawProposal hok h
  · rename_i request
    simp only [map_eq_ok_iff, Prod.mk.injEq] at hrun
    obtain ⟨read, _, hread, rfl, rfl⟩ := hrun
    obtain ⟨rfl, hrow⟩ := readDecidable_eq_ok hread
    refine .of_step (.refl hok) fun c hc => ?_
    obtain ⟨row, rfl, rfl⟩ := Option.map_eq_some_iff.mp hc
    obtain ⟨hmem, hfingerprint⟩ := hrow row rfl
    exact hfingerprint.symm.trans (hok.rows row hmem).fingerprint
  · rename_i request row
    simp only [map_eq_ok_iff, Prod.mk.injEq] at hrun
    obtain ⟨_, _, ⟨plan, _, hplan, rfl, rfl⟩, rfl, rfl⟩ := hrun
    obtain ⟨rfl, hplanned⟩ := decisionTimePlan_eq_ok hplan
    refine .of_step (.refl hok) ?_
    rintro _ ⟨⟩
    exact ⟨hcall _ rfl, hplanned⟩
  · rename_i request row plan
    simp only [map_eq_ok_iff, Prod.mk.injEq] at hrun
    obtain ⟨_, _, hstore, rfl, rfl⟩ := hrun
    obtain ⟨approving, hstep, happroving⟩ := storeStep_storeDecision hok hstore
    refine ⟨approving, hstep, by simp, fun request' plan' heq => ?_⟩
    obtain ⟨hpair, hdecision⟩ := happroving _ heq
    obtain ⟨rfl, rfl⟩ := Prod.mk.inj hpair
    exact ⟨row, rfl, rfl, hdecision⟩
  · rename_i request
    simp only [map_eq_ok_iff, Prod.mk.injEq] at hrun
    obtain ⟨isReplay, _, hguard, rfl, rfl⟩ := hrun
    obtain rfl := guardUpdateOrReplay_eq_ok hguard
    refine .of_step (.refl hok) fun c hc => ?_
    cases isReplay <;> simp at hc
    subst hc
    trivial
  · simp only [map_eq_ok_iff, Prod.mk.injEq] at hrun
    obtain ⟨_, _, ⟨validation, _, hvalidate, rfl, rfl⟩, rfl, rfl⟩ := hrun
    obtain rfl := validateYamlText_eq_ok hvalidate
    refine .of_step (.refl hok) ?_
    rintro _ ⟨⟩
    trivial
  · exact .of_end hrun fun _ h => storeStep_storeRevision hok h
  · rename_i request
    simp only [map_eq_ok_iff, Prod.mk.injEq] at hrun
    obtain ⟨text, _, hclaim, rfl, rfl⟩ := hrun
    obtain ⟨hstep, hstarted⟩ := claimExecution_eq_ok hok hclaim
    refine .of_step hstep fun c hc => ?_
    obtain ⟨yamlText, rfl, rfl⟩ := Option.map_eq_some_iff.mp hc
    exact hstarted yamlText rfl
  · rename_i proposalId actorUserId yamlText
    cases happly : applyOntologyTextOnce env proposalId yamlText store with
    | ok applied =>
      simp only [happly, Except.ok.injEq, Prod.mk.injEq] at hrun
      obtain ⟨rfl, rfl⟩ := hrun
      obtain ⟨hstep, hreceipt⟩ := applyOntologyTextOnce_eq_ok hok (hcall _ rfl) happly
      refine .of_step hstep ?_
      rintro _ ⟨⟩
      exact hreceipt
    | error error =>
      simp only [happly, Except.ok.injEq, Prod.mk.injEq] at hrun
      obtain ⟨rfl, rfl⟩ := hrun
      refine .of_step (.refl hok) ?_
      rintro _ ⟨⟩
      trivial
  · obtain ⟨rfl, rfl⟩ := Prod.mk.inj (pure_eq_ok_iff.mp hrun)
    refine .of_step (.refl hok) ?_
    rintro _ ⟨⟩
    trivial
  · obtain ⟨rfl, rfl⟩ := Prod.mk.inj (pure_eq_ok_iff.mp hrun)
    refine .of_step (.refl hok) ?_
    rintro _ ⟨⟩
    trivial
  · exact .of_end hrun fun _ h => storeStep_finishExecution hok (hcall _ rfl) h
  · simp only [bind_eq_ok_iff, pure_eq_ok_iff, Prod.mk.injEq] at hrun
    obtain ⟨row, _, hrow, isRecovered, _, hreconcile, rfl, rfl⟩ := hrun
    obtain ⟨rfl, -, -⟩ := requireProposalRow_eq_ok hrow
    refine .of_step (storeStep_reconcileExecutingProposal hok hreconcile) fun c hc => ?_
    cases isRecovered <;> simp at hc
    subst hc
    trivial
  · exact .of_end hrun fun _ h => storeStep_recordExecutionFailure hok h
  · refine .of_end hrun fun _ h => ?_
    obtain ⟨-, rfl⟩ := Prod.mk.inj (modify_eq_ok_iff.mp h)
    exact ⟨⟨none, .refl_of_mem fun row hrow => .refl (hok.rows row hrow), by simp⟩, .same rfl rfl,
      rfl, by simp⟩
  · obtain ⟨rfl, rfl⟩ := Prod.mk.inj (pure_eq_ok_iff.mp hrun)
    exact .of_step (.refl hok) (by simp)

end Steps

/-! ### Runs -/

section Runs

variable {s t : State ω} {e : ℕ × Event ω} {approving : Approving}

/-- What every event keeps. -/
structure Invariant (env : Environment ω) (s : State ω) : Prop where
  store : StoreOk env s.store
  calls : ∀ call c, s.calls call = some c → CallOk env s.store c

theorem Invariant.initial (ontology : ω) : Invariant env (.initial ontology) := by
  refine ⟨⟨?_, ?_, ?_, ?_, ?_, ?_⟩, ?_⟩ <;> simp [State.initial]

theorem next_spec (hinv : Invariant env s) (h : next env s e = some t) :
    ∃ value, EventSpec env e.2 (s.calls e.1) value s.store t.store ∧
      t.calls = Function.update s.calls e.1 value := by
  obtain ⟨tx, htx, rfl⟩ := Option.map_eq_some_iff.mp h
  cases hrun : tx s.store with
  | ok result =>
    obtain ⟨value, store'⟩ := result
    simp only [State.transact, hrun]
    exact ⟨value, transaction_spec hinv.store (hinv.calls e.1) htx hrun, rfl⟩
  | error error =>
    simp only [State.transact, hrun]
    exact ⟨none, .of_step (.refl hinv.store) (by simp), rfl⟩

/-- **Every event keeps the invariant.** -/
theorem Invariant.next (hinv : Invariant env s) (h : next env s e = some t) : Invariant env t := by
  obtain ⟨value, ⟨approving, hstep, hvalue, -⟩, hcalls⟩ := next_spec hinv h
  refine ⟨hstep.ok hinv.store, fun call c hc => ?_⟩
  rw [hcalls, Function.update_apply] at hc
  split_ifs at hc
  · exact hvalue c hc
  · exact (hinv.calls call c hc).step hinv.store hstep

/-- What another component does to the proposals keeps the invariant. -/
theorem Invariant.of_step {store : Store ω} (hinv : Invariant env s)
    (hstep : StoreStep env approving s.store store) : Invariant env ⟨store, s.calls⟩ :=
  ⟨hstep.ok hinv.store, fun call c hc => (hinv.calls call c hc).step hinv.store hstep⟩

theorem Invariant.of_reaches {C : State ω → ℕ × Event ω → Prop} (hinv : Invariant env s)
    (h : Reaches (Proposals.next env) C s t) : Invariant env t :=
  h.invariant hinv fun _ _ _ _ hnext hinv => hinv.next hnext

end Runs

end FoundryLite.Proposals
