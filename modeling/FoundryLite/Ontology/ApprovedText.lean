import FoundryLite.Ontology.ProposalSteps

/-!
# The text that was approved

A proposal that was decided keeps its text, so the text that is activated is the one it had when its
approval was stored, and a proposal that is recorded rejected or withdrawn is never activated.

What the reviewer had read is another matter. A revision that is stored after a decision read the
proposal, and before it is stored, is approved with it: the fingerprint that the reviewer named and
the plan that is stored are those of the text before (`not_approvedText`). As long as no approval is
stored of a text that has changed since it was read (`ApprovesTextRead`), what is activated is what
was approved.

## Main results

* `ApprovalsOk.next`: an approval of the text that was read keeps what the approvals say.
* `approved_text_of_run`: in every run, what is activated is what was approved.
* `not_approvedText`: a revision that is approved unseen.
-/

namespace FoundryLite.Proposals

open Runs

variable {ω : Type} {env : Environment ω} {store store' : Store ω} {s t : State ω}
  {e : ℕ × Event ω} {approving : Approving}

/-! ### What is approved -/

/-- The approval of a proposal is stored, with a plan of its text. -/
def ApprovedWith (env : Environment ω) (store : Store ω) (row : Proposal) : Prop :=
  (∃ approval ∈ store.approvals, approval.proposalId = row.id) ∧
    ∃ record, row.decision = some record ∧
      PlannedFrom env row.actionProposal.yamlText record.migrationPlan

/-- What the approvals say about the rows. -/
structure ApprovalsOk (env : Environment ω) (store : Store ω) : Prop where
  rows : ∀ row ∈ store.proposals.rows, row.status = .approved → ApprovedWith env store row
  approvals : ∀ approval ∈ store.approvals, ∃ row ∈ store.proposals.rows,
    row.id = approval.proposalId ∧ row.status ≠ .pending ∧
      approval.expectedFingerprint = env.yamlFingerprint row.actionProposal.yamlText

/-- The decision to approve that is stored was made of the text that the proposal still has. -/
def ApprovesTextRead (s : State ω) (e : ℕ × Event ω) : Prop :=
  match e.2, s.calls e.1 with
  | .storeDecision, some (.deciding request row _) =>
    request.decision = .approved → ∀ stored ∈ s.store.proposals.rows,
      stored.id = request.proposalId → stored.status = .pending →
        stored.actionProposal.yamlText = row.actionProposal.yamlText
  | _, _ => True

instance (s : State ω) (e : ℕ × Event ω) : Decidable (ApprovesTextRead s e) := by
  unfold ApprovesTextRead
  split <;> infer_instance

/-- An approval of a text that the proposal has, with a plan of that text, keeps what the approvals
say. -/
theorem ApprovalsOk.step (h : ApprovalsOk env store)
    (hstep : StoreStep env approving store store')
    (happroving : ∀ request plan, approving = some (request, plan) → ∃ yamlText,
      request.expectedFingerprint = env.yamlFingerprint yamlText ∧ PlannedFrom env yamlText plan ∧
        ∀ stored ∈ store.proposals.rows, stored.id = request.proposalId →
          stored.status = .pending → stored.actionProposal.yamlText = yamlText) :
    ApprovalsOk env store' := by
  obtain ⟨new, hmoves, hnew⟩ := hstep.proposals
  have hgrows : ∀ approval ∈ store.approvals, approval ∈ store'.approvals := by
    intro approval hmem
    rw [hstep.approvals]
    exact List.mem_append_right _ hmem
  refine ⟨fun row' hrow' happroved => ?_, fun approval happroval => ?_⟩
  · rcases hmoves.origin row' hrow' with ⟨row, hrow, hmove⟩ | ⟨row, heq, hmove⟩
    · rcases hmove.approved happroved with hbefore | ⟨request, plan, heq, hid, htext, hdecision⟩
      · obtain ⟨⟨approval, hmem, happroval⟩, record, hrecord, hplanned⟩ := h.rows row hrow hbefore
        have hdecided : row.status ≠ .pending := by simp [hbefore]
        refine ⟨⟨approval, hgrows _ hmem, happroval.trans hmove.move.id.symm⟩, record,
          (hmove.move.decision hdecided).trans hrecord, ?_⟩
        rwa [hmove.move.text hdecided]
      · obtain ⟨yamlText, -, hplanned, hstored⟩ := happroving request plan heq
        obtain ⟨pending, hmem, hpid, hpending, -⟩ := hstep.pending request plan heq
        obtain rfl := store.proposals.eq_of_pk_eq hmem hrow (hpid.trans hid.symm)
        refine ⟨⟨⟨request.proposalId, request.expectedFingerprint⟩, ?_, ?_⟩, _, hdecision, ?_⟩
        · simp [hstep.approvals, Approving.toApprovals, heq]
        · exact (hmove.move.id.trans hid).symm
        · rw [htext, hstored pending hmem hpid hpending]
          exact hplanned
    · obtain ⟨-, hpending⟩ := hnew row heq
      rcases hmove.approved happroved with hbefore | ⟨request, plan, hsome, hid, -, -⟩
      · simp [hpending] at hbefore
      · obtain ⟨stored, hmem, hpid, -, -⟩ := hstep.pending request plan hsome
        exact absurd (hpid.trans hid.symm) (hmoves.fresh row heq stored hmem)
  · rw [hstep.approvals, List.mem_append] at happroval
    rcases happroval with hfirst | hbefore
    · simp only [Approving.toApprovals, List.mem_map, Option.mem_toList] at hfirst
      obtain ⟨⟨request, plan⟩, heq, rfl⟩ := hfirst
      obtain ⟨yamlText, hfingerprint, -, hstored⟩ := happroving request plan heq
      obtain ⟨row, hmem, hid, hpending, row', hrow', hid', hdecided, htext⟩ :=
        hstep.pending request plan heq
      refine ⟨row', hrow', hid'.trans hid, hdecided, ?_⟩
      rw [htext, hstored row hmem hid hpending]
      exact hfingerprint
    · obtain ⟨row, hrow, hid, hdecided, hfingerprint⟩ := h.approvals approval hbefore
      obtain ⟨row', hrow', hmove⟩ := hmoves.kept row hrow
      refine ⟨row', hrow', hmove.move.id.trans hid, hmove.move.decided hdecided, ?_⟩
      rwa [hmove.move.text hdecided]

theorem ApprovalsOk.next (hinv : Invariant env s) (h : ApprovalsOk env s.store)
    (hread : ApprovesTextRead s e) (hnext : next env s e = some t) : ApprovalsOk env t.store := by
  obtain ⟨value, ⟨approving, hstep, -, happroving⟩, -⟩ := next_spec hinv hnext
  refine h.step hstep fun request plan heq => ?_
  obtain ⟨row, hevent, hcall, hdecision⟩ := happroving request plan heq
  obtain ⟨hfingerprint, hplanned⟩ : CallOk env s.store (.deciding request row plan) :=
    hinv.calls e.1 _ hcall
  refine ⟨row.actionProposal.yamlText, hfingerprint, hplanned hdecision, ?_⟩
  simp only [ApprovesTextRead, hevent, hcall] at hread
  exact hread hdecision

/-- The proposal is approved, every request that approved it named the fingerprint of the text that
was activated, and the plan that is stored is one of that text. -/
def CoveredBy (env : Environment ω) (store : Store ω) (activation : Activation) : Prop :=
  ∃ row ∈ store.proposals.rows, row.id = activation.proposalId ∧ row.status = .approved ∧
    (∃ approval ∈ store.approvals, approval.proposalId = activation.proposalId) ∧
    (∀ approval ∈ store.approvals, approval.proposalId = activation.proposalId →
      approval.expectedFingerprint = env.yamlFingerprint activation.yamlText) ∧
    ∃ record, row.decision = some record ∧
      PlannedFrom env activation.yamlText record.migrationPlan

/-- What was activated for proposals is what was approved. -/
def ApprovedText (env : Environment ω) (store : Store ω) : Prop :=
  ∀ activation ∈ store.activations, CoveredBy env store activation

theorem approvedText_of_invariant (hinv : Invariant env s) (h : ApprovalsOk env s.store) :
    ApprovedText env s.store := by
  intro activation hactivation
  obtain ⟨row, hrow, hid, hstarted, htext⟩ := hinv.store.activated activation hactivation
  have happroved := (hinv.store.rows row hrow).started hstarted
  obtain ⟨⟨approval, hmem, happroval⟩, record, hrecord, hplanned⟩ := h.rows row hrow happroved
  refine ⟨row, hrow, hid, happroved, ⟨approval, hmem, happroval.trans hid⟩, ?_, record, hrecord,
    htext ▸ hplanned⟩
  intro approval' hmem' hid'
  obtain ⟨row', hrow', hid'', -, hfingerprint⟩ := h.approvals approval' hmem'
  obtain rfl := s.store.proposals.eq_of_pk_eq hrow' hrow (hid''.trans (hid'.trans hid.symm))
  rw [hfingerprint, htext]

/-- The proposal is recorded rejected. -/
def Rejected (store : Store ω) (proposalId : String) : Prop :=
  ∃ row ∈ store.proposals.rows, row.id = proposalId ∧ row.status = .rejected

theorem Rejected.next {proposalId : String} (hinv : Invariant env s)
    (h : Rejected s.store proposalId) (hnext : next env s e = some t) :
    Rejected t.store proposalId := by
  obtain ⟨row, hrow, hid, hrejected⟩ := h
  obtain ⟨value, ⟨approving, hstep, -⟩, -⟩ := next_spec hinv hnext
  obtain ⟨new, hmoves, -⟩ := hstep.proposals
  obtain ⟨row', hrow', hmove⟩ := hmoves.kept row hrow
  exact ⟨row', hrow', hmove.move.id.trans hid, hmove.move.rejected hrejected⟩

theorem Rejected.not_activated {proposalId : String} (hinv : Invariant env s)
    (h : Rejected s.store proposalId) :
    proposalId ∉ s.store.activations.map Activation.proposalId := by
  intro hmem
  obtain ⟨activation, hactivation, rfl⟩ := List.mem_map.mp hmem
  obtain ⟨row, hrow, hid, hstarted, -⟩ := hinv.store.activated activation hactivation
  obtain ⟨row', hrow', hid', hrejected⟩ := h
  obtain rfl := s.store.proposals.eq_of_pk_eq hrow hrow' (hid.trans hid'.symm)
  have happroved := (hinv.store.rows row hrow).started hstarted
  simp [hrejected] at happroved

/-- **Approval covers the text that is activated**, in every run in which what is approved is the
text that was read. A proposal is activated at most once, and one that is recorded rejected or
withdrawn is not activated before or after. -/
theorem approved_text_of_run {ontology : ω}
    (h : Reaches (next env) ApprovesTextRead (.initial ontology) s) :
    ApprovedText env s.store ∧ (s.store.activations.map Activation.proposalId).Nodup ∧
      ∀ t, Reaches (next env) ApprovesTextRead s t → ∀ row ∈ s.store.proposals.rows,
        row.status = .rejected ∨ row.executionStatus = .withdrawn →
          row.id ∉ t.store.activations.map Activation.proposalId := by
  have hinv : Invariant env s := Invariant.of_reaches (.initial ontology) h
  have happrovals : Invariant env s ∧ ApprovalsOk env s.store := by
    refine h.invariant (P := fun s => Invariant env s ∧ ApprovalsOk env s.store) ?_ ?_
    · exact ⟨.initial ontology, by simp [State.initial], by simp [State.initial]⟩
    · exact fun _ _ _ hread hnext h => ⟨h.1.next hnext, h.2.next h.1 hread hnext⟩
  refine ⟨approvedText_of_invariant hinv happrovals.2, hinv.store.nodup, ?_⟩
  intro t ht row hrow hclosed
  have hrejected : Rejected s.store row.id :=
    ⟨row, hrow, rfl, hclosed.elim id (hinv.store.rows row hrow).withdrawn⟩
  have hlater : Invariant env t ∧ Rejected t.store row.id :=
    ht.invariant (P := fun t => Invariant env t ∧ Rejected t.store row.id) ⟨hinv, hrejected⟩
      fun _ _ _ _ hnext h => ⟨h.1.next hnext, h.2.next h.1 hnext⟩
  exact hlater.2.not_activated hlater.1

/-- **In every run**, also where a revision is approved unseen, what is activated is the text that an
approved proposal still has, and a proposal that is recorded executed was activated once. -/
theorem activated_once_of_run {ontology : ω} (h : Reaches (next env) Always (.initial ontology) s) :
    (∀ activation ∈ s.store.activations, ∃ row ∈ s.store.proposals.rows,
      row.id = activation.proposalId ∧ row.status = .approved ∧
        row.actionProposal.yamlText = activation.yamlText) ∧
      ∀ row ∈ s.store.proposals.rows, row.executionStatus = .executed →
        ∃! activation, activation ∈ s.store.activations ∧ activation.proposalId = row.id := by
  have hstore : StoreOk env s.store := (Invariant.of_reaches (.initial ontology) h).store
  refine ⟨fun activation hactivation => ?_, fun row hrow hexecuted => ?_⟩
  · obtain ⟨row, hrow, hid, hstarted, htext⟩ := hstore.activated activation hactivation
    exact ⟨row, hrow, hid, (hstore.rows row hrow).started hstarted, htext⟩
  · obtain ⟨activation, hmem, hid⟩ := hstore.logged row.id (hstore.executed row hrow hexecuted)
    exact ⟨activation, ⟨hmem, hid⟩, fun other hother =>
      List.inj_on_of_nodup_map hstore.nodup hother.1 hmem (hother.2.trans hid.symm)⟩

/-! ### A revision that is approved unseen -/

def plainValidation : ValidationResult := ⟨⟨none, [], []⟩, 0, 0, 0⟩

/-- Every text is valid, and activating it succeeds. -/
def plainEnvironment : Environment Unit where
  yamlFingerprint := ("sha256:" ++ ·)
  validateYamlText _ _ := pure plainValidation
  definitionFingerprint := pure
  applyLoadedOntology _ _ := pure (⟨"ont_1", 1, plainValidation.migrationPlan⟩, ())
  scrubErrorText := id
  isProtected := false

def submission : SubmitRequest := ⟨"alice", "Orders", none, "a", "key-1"⟩

def assignment : AssignRequest := ⟨"ontprop_1", "bob", false⟩

def approval : DecideRequest := ⟨"ontprop_1", "bob", .approved, "sha256:a", none⟩

def lateRevision : UpdateRequest := ⟨"ontprop_1", "alice", "b", "sha256:a", none, none⟩

/-- The revision of call 1 is stored between the transactions of the decision of call 0, newest
event first. -/
def approvedUnseen : List (ℕ × Event Unit) :=
  [(0, .finishExecution), (0, .applyOnce),
    (0, .claimExecution ⟨"ontprop_1", "bob", "sha256:b"⟩), (0, .storeDecision),
    (1, .storeRevision), (1, .validateUpdate), (1, .guardUpdate lateRevision), (0, .planDecision),
    (0, .readDecidable approval), (0, .assign assignment), (0, .submit "1"),
    (0, .validateSubmission submission)]

/-- A text was activated that no request to approve the proposal named. -/
def activatesUnnamed (s : State Unit) : Bool :=
  s.store.activations.any fun activation => s.store.approvals.any fun approval =>
    approval.proposalId = activation.proposalId &&
      approval.expectedFingerprint ≠ plainEnvironment.yamlFingerprint activation.yamlText

theorem activatesUnnamed_approvedUnseen :
    (replay (next plainEnvironment) (.initial ()) approvedUnseen).any activatesUnnamed = true := by
  decide +kernel

/-- **A text can be activated that its reviewer did not name**: the decision of the text before is
stored of the text that has replaced it. -/
theorem not_approvedText : ¬ ∀ (env : Environment Unit) (ontology : Unit) (s : State Unit),
    Reaches (next env) Always (.initial ontology) s → ApprovedText env s.store := by
  intro hall
  obtain ⟨s, hreplay, hcheck⟩ := exists_replay_of_any activatesUnnamed_approvedUnseen
  simp only [activatesUnnamed, List.any_eq_true, Bool.and_eq_true, decide_eq_true_eq] at hcheck
  obtain ⟨activation, hactivation, approval, happroval, hid, hunnamed⟩ := hcheck
  obtain ⟨-, -, -, -, -, hnamed, -⟩ := hall plainEnvironment () s
    ⟨approvedUnseen, run_always_iff.mpr hreplay⟩ activation hactivation
  exact hunnamed (hnamed approval happroval hid)

theorem activated_once_approvedUnseen :
    ∃ s, Run (next plainEnvironment) Always (.initial ()) approvedUnseen s ∧
      activatesUnnamed s = true ∧
      (∀ activation ∈ s.store.activations, ∃ row ∈ s.store.proposals.rows,
        row.id = activation.proposalId ∧ row.status = .approved ∧
          row.actionProposal.yamlText = activation.yamlText) ∧
      ∃ row ∈ s.store.proposals.rows, row.executionStatus = .executed ∧
        ∃! activation, activation ∈ s.store.activations ∧ activation.proposalId = row.id := by
  obtain ⟨s, hreplay, hcheck⟩ := exists_replay_of_any (show (replay (next plainEnvironment)
    (.initial ()) approvedUnseen).any (fun s => activatesUnnamed s &&
      s.store.proposals.rows.any fun row => decide (row.executionStatus = .executed)) = true by
    decide +kernel)
  simp only [Bool.and_eq_true, List.any_eq_true, decide_eq_true_eq] at hcheck
  obtain ⟨hunnamed, row, hrow, hexecuted⟩ := hcheck
  have hrun := run_always_iff.mpr hreplay
  obtain ⟨hactivated, honce⟩ := activated_once_of_run ⟨approvedUnseen, hrun⟩
  exact ⟨s, hrun, hunnamed, hactivated, row, hrow, hexecuted, honce row hrow hexecuted⟩

/-! ### A run in which nothing is revised in between -/

/-- The revision comes first, newest event first. -/
def approvedSeen : List (ℕ × Event Unit) :=
  [(0, .finishExecution), (0, .applyOnce),
    (0, .claimExecution ⟨"ontprop_1", "bob", "sha256:b"⟩), (0, .storeDecision),
    (0, .planDecision), (0, .readDecidable { approval with expectedFingerprint := "sha256:b" }),
    (1, .storeRevision), (1, .validateUpdate), (1, .guardUpdate lateRevision),
    (0, .assign assignment), (0, .submit "1"), (0, .validateSubmission submission)]

theorem replay_approvedSeen :
    (replay (guarded (next plainEnvironment) fun s e => decide (ApprovesTextRead s e))
      (.initial ()) approvedSeen).any (fun s => s.store.activations.any fun activation =>
        activation.proposalId = "ontprop_1" && activation.yamlText = "b") = true := by
  decide +kernel

/-- A revised text is approved and activated. -/
theorem approved_text_revised :
    ∃ s, Run (next plainEnvironment) ApprovesTextRead (.initial ()) approvedSeen s ∧
    (∃ activation ∈ s.store.activations, activation.yamlText = "b" ∧
      CoveredBy plainEnvironment s.store activation) ∧
      (s.store.activations.map Activation.proposalId).Nodup := by
  obtain ⟨s, hreplay, hcheck⟩ := exists_replay_of_any replay_approvedSeen
  have hrun : Run (next plainEnvironment) ApprovesTextRead (.initial ()) approvedSeen s :=
    run_of_replay_guarded (fun _ _ => of_decide_eq_true) hreplay
  simp only [List.any_eq_true, Bool.and_eq_true, decide_eq_true_eq] at hcheck
  obtain ⟨activation, hactivation, -, htext⟩ := hcheck
  obtain ⟨hcovered, honce, -⟩ := approved_text_of_run ⟨_, hrun⟩
  exact ⟨s, hrun, ⟨activation, hactivation, htext, hcovered activation hactivation⟩, honce⟩

end FoundryLite.Proposals
