import FoundryLite.Ontology.Branches
import FoundryLite.Ontology.ProposalSteps

/-!
# What a branch is merged with

Everything that is written on a branch is conditional on its being open, so a branch that was merged
or abandoned does not change any more. A branch is marked merged when a proposal that it named was
applied, and the text of an applied proposal is the one that was activated.

That this is the content of the branch is not looked at. A branch may be edited, or its proposal
revised, after the proposal was submitted, and is marked merged all the same, with an edit that was
never activated (`not_mergedOwnContent`). As long as a branch is only marked merged while it names
the proposal that was read, and has its text (`MergesProposedText`), no edit is lost.

## Main results

* `branchStep_of_transaction`: what each transaction does to the branches and the proposals.
* `MergedOwnContent.next`: a merge under the condition is of the content of the branch.
* `merged_content_of_run`: in every run, a merged branch has the text that was activated.
* `not_mergedOwnContent`: an edit that a merge drops.
-/

namespace FoundryLite.Branches

open Runs Transaction

variable {ω : Type} {env : Environment ω} {store store' : Store ω} {row row' : Branch}

/-! ### One row -/

/-- A branch that is not open does not change, and only this merge makes a branch merged. -/
structure BranchMove (merging : Option String) (row row' : Branch) : Prop where
  id : row'.id = row.id
  closed : row.status ≠ .open → row' = row
  merged : row'.status = .merged → row.status = .merged ∨ merging = some row.id ∧
    row'.contentYamlText = row.contentYamlText ∧ row'.mergedProposalId = row.mergedProposalId

theorem BranchMove.refl {merging : Option String} (row : Branch) : BranchMove merging row row :=
  ⟨rfl, fun _ => rfl, .inl⟩

section Updates

variable {merging : Option String} {guard : Branch → Bool} {values : Update}

/-- An update of open branches that leaves their status alone. -/
theorem branchMove_when (hguard : guard row = true → row.status = .open)
    (hstatus : (values.apply row).status = row.status) :
    BranchMove merging row ((values.when guard).apply row) := by
  simp only [Update.when]
  split_ifs with happlies
  · have hopen := hguard happlies
    refine ⟨values.pk_apply row, absurd hopen, fun hmerged => ?_⟩
    simp [hstatus, hopen] at hmerged
  · exact .refl row

theorem branchMove_abandoned :
    BranchMove merging row
      (((statusValues branchAbandoned none).when fun row =>
        row.status ∈ branchAbandoned.fromStatuses).apply row) := by
  simp only [Update.when]
  split_ifs with happlies
  · have hopen : row.status = .open := by simpa [branchAbandoned] using happlies
    refine ⟨rfl, absurd hopen, ?_⟩
    simp [statusValues, branchAbandoned]
  · exact .refl row

theorem branchMove_merged {mergedVersionNumber : Option ℤ}
    (hmerging : merging = some row.id) :
    BranchMove merging row
      (((statusValues branchMerged mergedVersionNumber).when fun row =>
        row.status ∈ branchMerged.fromStatuses).apply row) := by
  simp only [Update.when]
  split_ifs with happlies
  · have hopen : row.status = .open := by simpa [branchMerged] using happlies
    exact ⟨rfl, absurd hopen, fun _ => .inr ⟨hmerging, rfl, rfl⟩⟩
  · exact .refl row

end Updates

/-! ### What a transaction does -/

/-- What a transaction may do to the rows of a tenant. -/
structure StoreStep (env : Environment ω) (merging : Option String) (store store' : Store ω) :
    Prop where
  branches : ∃ new, Table.Moves (BranchMove merging) new store.branches store'.branches ∧
    ∀ row, new = some row → row.status = .open ∧ merging = none
  proposals : ∃ approving, Proposals.StoreStep env.toEnvironment approving store.proposals
    store'.proposals

section Transactions

variable {merging : Option String} {branchId : String}

theorem StoreStep.refl (hok : Proposals.StoreOk env.toEnvironment store.proposals) :
    StoreStep env merging store store :=
  ⟨⟨none, .refl BranchMove.refl, by simp⟩, none, .refl hok⟩

theorem StoreStep.of_branches {branches : Table Branch.id Branch.id} {new : Option Branch}
    (hok : Proposals.StoreOk env.toEnvironment store.proposals)
    (hmoves : Table.Moves (BranchMove merging) new store.branches branches)
    (hnew : ∀ row, new = some row → row.status = .open ∧ merging = none) :
    StoreStep env merging store { store with branches } :=
  ⟨⟨new, hmoves, hnew⟩, none, .refl hok⟩

theorem StoreStep.of_proposals {proposals : Proposals.Store ω} {approving : Proposals.Approving}
    (hstep : Proposals.StoreStep env.toEnvironment approving store.proposals proposals) :
    StoreStep env merging store { store with proposals } :=
  ⟨⟨none, .refl BranchMove.refl, by simp⟩, approving, hstep⟩

theorem guardedUpdate_eq_ok {guard : Branch → Bool} {values : Update} {applies : Bool}
    (h : guardedUpdate branchId guard values store = .ok (applies, store')) :
    store' = { store with branches := store.branches.updateRow branchId (values.when guard) } := by
  simp only [guardedUpdate, bind_eq_ok_iff, get_eq_ok_iff,
    modify_eq_ok_iff, pure_eq_ok_iff, Prod.mk.injEq] at h
  obtain ⟨_, _, ⟨rfl, rfl⟩, _, _, ⟨-, rfl⟩, -, rfl⟩ := h
  rfl

theorem storeStep_guardedUpdate {guard : Branch → Bool} {values : Update} {applies : Bool}
    (hok : Proposals.StoreOk env.toEnvironment store.proposals)
    (h : guardedUpdate branchId guard values store = .ok (applies, store'))
    (hmove : ∀ row, row.id = branchId → BranchMove merging row ((values.when guard).apply row)) :
    StoreStep env merging store store' := by
  obtain rfl := guardedUpdate_eq_ok h
  exact .of_branches hok
    (.updateRow_of_mem (fun row _ => .refl row) fun row _ hid => hmove row hid) (by simp)

theorem requireBranchRow_eq_ok (h : requireBranchRow branchId store = .ok (row, store')) :
    store = store' := by
  simp only [requireBranchRow, bind_eq_ok_iff, get_eq_ok_iff,
    requireSome_eq_ok_iff, Prod.mk.injEq] at h
  obtain ⟨_, _, ⟨rfl, rfl⟩, _, -, -, rfl⟩ := h
  rfl

theorem requireActiveSnapshot_eq_ok {snapshot : ActiveOntologySnapshot}
    (h : requireActiveSnapshot env store = .ok (snapshot, store')) : store = store' := by
  simp only [requireActiveSnapshot, bind_eq_ok_iff, get_eq_ok_iff,
    requireSome_eq_ok_iff, Prod.mk.injEq] at h
  obtain ⟨_, _, ⟨rfl, rfl⟩, _, -, -, rfl⟩ := h
  rfl

theorem storeStep_createBranch {request : CreateRequest} {token : String} {u : Unit}
    (hok : Proposals.StoreOk env.toEnvironment store.proposals)
    (h : createBranch env request token store = .ok (u, store')) :
    StoreStep env none store store' := by
  simp only [createBranch, bind_eq_ok_iff, lift_eq_ok_iff,
    get_eq_ok_iff, Prod.mk.injEq] at h
  obtain ⟨_, _, ⟨_, -, -, rfl⟩, _, _, ⟨_, -, -, rfl⟩, snapshot, _, hsnapshot, _, _, ⟨rfl, rfl⟩,
    h⟩ := h
  obtain rfl := requireActiveSnapshot_eq_ok hsnapshot
  cases hexisting : store.branches.rows.find? fun row =>
      row.name = (branchRecord env request snapshot token).name && row.status = .open with
  | some existing =>
    simp only [hexisting, require_eq_ok_iff, Prod.mk.injEq] at h
    obtain ⟨-, -, rfl⟩ := h
    exact .refl hok
  | none =>
    simp only [hexisting, bind_eq_ok_iff, get_eq_ok_iff,
      requireSome_eq_ok_iff, modify_eq_ok_iff, Prod.mk.injEq] at h
    obtain ⟨_, _, ⟨rfl, rfl⟩, branches, _, ⟨_, hinsert, rfl, rfl⟩, -, rfl⟩ := h
    refine .of_branches hok (.insert? BranchMove.refl hinsert) fun row hnew => ?_
    obtain rfl := Option.some.inj hnew
    exact ⟨rfl, rfl⟩

theorem updateReplay_eq_ok {request : ContentRequest} {isReplay : Bool}
    (h : updateReplay env request store = .ok (isReplay, store')) : store = store' := by
  simp only [updateReplay, bind_eq_ok_iff, lift_eq_ok_iff,
    pure_eq_ok_iff, Prod.mk.injEq] at h
  obtain ⟨_, _, ⟨_, -, -, rfl⟩, row, _, hrow, _, _, ⟨_, -, -, rfl⟩, -, rfl⟩ := h
  exact requireBranchRow_eq_ok hrow

theorem storeStep_storeContent {request : ContentRequest} {u : Unit}
    (hok : Proposals.StoreOk env.toEnvironment store.proposals)
    (h : storeContent env request store = .ok (u, store')) : StoreStep env merging store store' := by
  simp only [storeContent, bind_eq_ok_iff] at h
  obtain ⟨before, _, hrow, isUpdated, _, hupdate, h⟩ := h
  obtain rfl := requireBranchRow_eq_ok hrow
  split_ifs at h with hupdated
  · obtain ⟨-, rfl⟩ := Prod.mk.inj (pure_eq_ok_iff.mp h)
    refine storeStep_guardedUpdate hok hupdate fun row _ => branchMove_when (fun hguard => ?_) rfl
    exact (by simpa using hguard : row.status = .open ∧ _).1
  · simp [bind_eq_ok_iff, throw_eq_ok_iff] at h

theorem storeStep_abandonBranch {u : Unit}
    (hok : Proposals.StoreOk env.toEnvironment store.proposals)
    (h : abandonBranch branchId store = .ok (u, store')) : StoreStep env merging store store' := by
  simp only [abandonBranch, bind_eq_ok_iff] at h
  obtain ⟨before, _, hrow, h⟩ := h
  obtain rfl := requireBranchRow_eq_ok hrow
  split_ifs at h with habandoned
  · obtain ⟨-, rfl⟩ := Prod.mk.inj (pure_eq_ok_iff.mp h)
    exact .refl hok
  · simp only [bind_eq_ok_iff, require_eq_ok_iff, Prod.mk.injEq] at h
    obtain ⟨isUpdated, _, hupdate, -, -, rfl⟩ := h
    exact storeStep_guardedUpdate hok hupdate fun row _ => branchMove_abandoned

theorem readRebase_eq_ok {request : RebaseRequest} {read : ActiveOntologySnapshot × String}
    (h : readRebase env request store = .ok (read, store')) : store = store' := by
  simp only [readRebase, bind_eq_ok_iff, lift_eq_ok_iff,
    require_eq_ok_iff, pure_eq_ok_iff, Prod.mk.injEq] at h
  obtain ⟨row, _, hrow, _, _, ⟨_, -, -, rfl⟩, _, _, ⟨_, -, -, rfl⟩, snapshot, _, hsnapshot, _, _,
    ⟨-, -, rfl⟩, _, _, ⟨_, -, -, rfl⟩, -, rfl⟩ := h
  exact (requireBranchRow_eq_ok hrow).trans (requireActiveSnapshot_eq_ok hsnapshot)

theorem storeStep_storeRebase {request : RebaseRequest} {snapshot : ActiveOntologySnapshot}
    {yamlText : String} {u : Unit} (hok : Proposals.StoreOk env.toEnvironment store.proposals)
    (h : storeRebase env request snapshot yamlText store = .ok (u, store')) :
    StoreStep env merging store store' := by
  simp only [storeRebase, bind_eq_ok_iff] at h
  obtain ⟨before, _, hrow, isUpdated, _, hupdate, h⟩ := h
  obtain rfl := requireBranchRow_eq_ok hrow
  split_ifs at h with hupdated
  · obtain ⟨-, rfl⟩ := Prod.mk.inj (pure_eq_ok_iff.mp h)
    refine storeStep_guardedUpdate hok hupdate fun row _ => branchMove_when (fun hguard => ?_) rfl
    exact (by simpa using hguard : row.status = .open ∧ _).1
  · simp [bind_eq_ok_iff, throw_eq_ok_iff] at h

theorem readProposing_eq_ok {request : ProposeRequest}
    (h : readProposing env request store = .ok (row, store')) : store = store' := by
  simp only [readProposing, bind_eq_ok_iff, lift_eq_ok_iff,
    require_eq_ok_iff, pure_eq_ok_iff, Prod.mk.injEq] at h
  obtain ⟨_, _, ⟨_, -, -, rfl⟩, _, _, ⟨_, -, -, rfl⟩, _, _, hrow, _, _, ⟨_, -, -, rfl⟩, snapshot, _,
    hsnapshot, _, _, ⟨-, -, rfl⟩, rfl, rfl⟩ := h
  exact (requireBranchRow_eq_ok hrow).trans (requireActiveSnapshot_eq_ok hsnapshot)

theorem storeStep_storeProposal {proposalId : String} {u : Unit}
    (hok : Proposals.StoreOk env.toEnvironment store.proposals)
    (h : storeProposal branchId proposalId store = .ok (u, store')) :
    StoreStep env merging store store' := by
  simp only [storeProposal, bind_eq_ok_iff] at h
  obtain ⟨before, _, hrow, isUpdated, _, hupdate, h⟩ := h
  obtain rfl := requireBranchRow_eq_ok hrow
  split_ifs at h with hupdated
  · obtain ⟨-, rfl⟩ := Prod.mk.inj (pure_eq_ok_iff.mp h)
    exact storeStep_guardedUpdate hok hupdate fun row _ => branchMove_when of_decide_eq_true rfl
  · simp [bind_eq_ok_iff, throw_eq_ok_iff] at h

/-- A version number is read of a proposal that was activated. -/
theorem appliedVersionNumber_eq_ok {proposalId : String} {number : Option ℤ}
    (hok : Proposals.StoreOk env.toEnvironment store.proposals)
    (h : appliedVersionNumber proposalId store = .ok (number, store')) :
    store = store' ∧ (number.isSome →
      ∃ activation ∈ store.proposals.activations, activation.proposalId = proposalId) := by
  simp only [appliedVersionNumber, bind_eq_ok_iff, get_eq_ok_iff,
    pure_eq_ok_iff, Prod.mk.injEq] at h
  obtain ⟨_, _, ⟨rfl, rfl⟩, rfl, rfl⟩ := h
  refine ⟨rfl, fun hsome => ?_⟩
  obtain ⟨number, hnumber⟩ := Option.isSome_iff_exists.mp hsome
  obtain ⟨proposal, hfilter, -⟩ := Option.bind_eq_some_iff.mp hnumber
  obtain ⟨hfind, happlied⟩ := Option.filter_eq_some_iff.mp hfilter
  have hid : proposal.id = proposalId := by simpa using List.find?_some hfind
  have hexecuted : proposal.executionStatus = .executed := by
    simp only [Proposals.proposalStatus] at happlied
    grind
  have hreceipt := hok.executed proposal (List.mem_of_find?_eq_some hfind) hexecuted
  exact hid ▸ hok.logged proposal.id hreceipt

theorem storeStep_recordMerge {mergedVersionNumber : ℤ} {u : Unit}
    (hok : Proposals.StoreOk env.toEnvironment store.proposals)
    (h : recordMerge branchId mergedVersionNumber store = .ok (u, store')) :
    StoreStep env (some branchId) store store' := by
  simp only [recordMerge, bind_eq_ok_iff, pure_eq_ok_iff,
    Prod.mk.injEq] at h
  obtain ⟨applies, _, hupdate, -, rfl⟩ := h
  exact storeStep_guardedUpdate hok hupdate fun row hid => branchMove_merged (hid ▸ rfl)

end Transactions

/-! ### Requests -/

/-- A request that is about to record a merge has read a proposal that was activated. -/
def CallOk (store : Store ω) : Call → Prop
  | .merging _ proposalId _ =>
    ∃ activation ∈ store.proposals.activations, activation.proposalId = proposalId
  | _ => True

theorem CallOk.step {merging : Option String} {call : Call} (h : CallOk store call)
    (hstep : StoreStep env merging store store') : CallOk store' call := by
  cases call with
  | merging branchId proposalId number =>
    obtain ⟨activation, hactivation, hid⟩ := h
    obtain ⟨approving, hproposals⟩ := hstep.proposals
    exact ⟨activation, Proposals.activations_of_step hactivation hproposals, hid⟩
  | _ => trivial

/-- What the transaction of an event does. A merge is recorded by the last transaction of a request
that has read an applied proposal. -/
def EventSpec (env : Environment ω) (event : BranchEvent) (call value : Option Call)
    (store store' : Store ω) : Prop :=
  ∃ merging, StoreStep env merging store store' ∧ (∀ c, value = some c → CallOk store' c) ∧
    ∀ branchId, merging = some branchId → ∃ proposalId number, event = .recordMerge ∧
      call = some (.merging branchId proposalId number)

theorem EventSpec.of_step {event : BranchEvent} {call value : Option Call}
    (hstep : StoreStep env none store store') (hvalue : ∀ c, value = some c → CallOk store' c) :
    EventSpec env event call value store store' :=
  ⟨none, hstep, hvalue, by simp⟩

/-- A transaction that ends its request. -/
theorem EventSpec.of_end {α : Type} {tx : Tx ω α} {event : BranchEvent} {call value : Option Call}
    (hrun : ((fun _ => none) <$> tx : Tx ω (Option Call)) store = .ok (value, store'))
    (hspec : ∀ a, tx store = .ok (a, store') → StoreStep env none store store') :
    EventSpec env event call value store store' := by
  obtain ⟨a, _, htx, heq⟩ := map_eq_ok_iff.mp hrun
  obtain ⟨rfl, rfl⟩ := Prod.mk.inj heq
  exact .of_step (hspec a htx) (by simp)

/-- A transaction that only reads, and goes on with a request that relies on nothing. -/
theorem EventSpec.of_read {α : Type} {tx : Tx ω α} {f : α → Option Call} {event : BranchEvent}
    {call value : Option Call} (hok : Proposals.StoreOk env.toEnvironment store.proposals)
    (hrun : (f <$> tx : Tx ω (Option Call)) store = .ok (value, store'))
    (hread : ∀ a, tx store = .ok (a, store') → store = store')
    (hf : ∀ a c, f a = some c → CallOk store c) : EventSpec env event call value store store' := by
  obtain ⟨a, _, htx, heq⟩ := map_eq_ok_iff.mp hrun
  obtain ⟨rfl, rfl⟩ := Prod.mk.inj heq
  obtain rfl := hread a htx
  exact .of_step (.refl hok) (hf a)

/-- A transaction of the proposals that only reads. -/
theorem onProposals_eq_ok_of_read {α : Type} {x : Proposals.Tx ω α} {a : α}
    (h : onProposals x store = .ok (a, store'))
    (hread : ∀ proposals, x store.proposals = .ok (a, proposals) →
      store.proposals = proposals) : store = store' := by
  obtain ⟨proposals, hx, rfl⟩ := zoom_eq_ok_iff.mp h
  rw [← hread proposals hx]

/-- **Every event does what its specification says.** -/
theorem branchStep_of_transaction {event : BranchEvent} {call value : Option Call}
    {tx : Tx ω (Option Call)} (hok : Proposals.StoreOk env.toEnvironment store.proposals)
    (htx : transaction env event call = some tx) (hrun : tx store = .ok (value, store')) :
    EventSpec env event call value store store' := by
  unfold transaction at htx
  split at htx
  all_goals first
    | (obtain rfl := Option.some.inj htx)
    | (cases htx)
  · exact .of_end hrun fun _ h => storeStep_createBranch hok h
  · refine .of_read hok hrun (fun _ h => updateReplay_eq_ok h) fun isReplay c hc => ?_
    cases isReplay <;> simp at hc
    subst hc
    trivial
  · refine .of_read hok hrun (fun _ h => onProposals_eq_ok_of_read h fun _ hx =>
      Proposals.validateYamlText_eq_ok hx) ?_
    rintro _ _ ⟨⟩
    trivial
  · exact .of_end hrun fun _ h => storeStep_storeContent hok h
  · refine .of_read hok hrun (fun _ h => readRebase_eq_ok h) ?_
    rintro _ _ ⟨⟩
    trivial
  · refine .of_read hok hrun (fun _ h => onProposals_eq_ok_of_read h fun _ hx =>
      Proposals.validateYamlText_eq_ok hx) ?_
    rintro _ _ ⟨⟩
    trivial
  · exact .of_end hrun fun _ h => storeStep_storeRebase hok h
  · simp only [map_eq_ok_iff, Prod.mk.injEq] at hrun
    obtain ⟨_, _, ⟨row, _, hread, rfl, rfl⟩, rfl, rfl⟩ := hrun
    obtain rfl := readProposing_eq_ok hread
    refine .of_step (.refl hok) ?_
    rintro _ ⟨⟩
    trivial
  · refine .of_read hok hrun (fun _ h => ?_) fun isReplay c hc => ?_
    · simp only [proposeReplay, bind_eq_ok_iff, get_eq_ok_iff,
        pure_eq_ok_iff, Prod.mk.injEq] at h
      obtain ⟨_, _, ⟨rfl, rfl⟩, -, rfl⟩ := h
      rfl
    · cases isReplay <;> simp at hc
      subst hc
      trivial
  · simp only [map_eq_ok_iff, Prod.mk.injEq] at hrun
    obtain ⟨_, _, ⟨validation, _, hvalidate, rfl, rfl⟩, rfl, rfl⟩ := hrun
    obtain rfl := onProposals_eq_ok_of_read hvalidate fun _ hx =>
      Proposals.validateSubmission_eq_ok hx
    refine .of_step (.refl hok) ?_
    rintro _ ⟨⟩
    trivial
  · simp only [map_eq_ok_iff, Prod.mk.injEq] at hrun
    obtain ⟨_, _, ⟨proposalId, _, hsubmit, rfl, rfl⟩, rfl, rfl⟩ := hrun
    obtain ⟨proposals, hx, rfl⟩ := zoom_eq_ok_iff.mp hsubmit
    refine .of_step (.of_proposals (Proposals.storeStep_submitProposal hok hx)) ?_
    rintro _ ⟨⟩
    trivial
  · exact .of_end hrun fun _ h => storeStep_storeProposal hok h
  · exact .of_end hrun fun _ h => storeStep_abandonBranch hok h
  · refine .of_read hok hrun (fun _ h => ?_) fun proposalId c hc => ?_
    · simp only [readMerging, bind_eq_ok_iff, get_eq_ok_iff,
        pure_eq_ok_iff, Prod.mk.injEq] at h
      obtain ⟨_, _, ⟨rfl, rfl⟩, -, rfl⟩ := h
      rfl
    · obtain ⟨proposalId, -, rfl⟩ := Option.map_eq_some_iff.mp hc
      trivial
  · simp only [map_eq_ok_iff, Prod.mk.injEq] at hrun
    obtain ⟨number, _, hread, rfl, rfl⟩ := hrun
    obtain ⟨rfl, hactivated⟩ := appliedVersionNumber_eq_ok hok hread
    refine .of_step (.refl hok) fun c hc => ?_
    obtain ⟨number, rfl, rfl⟩ := Option.map_eq_some_iff.mp hc
    exact hactivated rfl
  · rename_i branchId proposalId number
    simp only [map_eq_ok_iff, Prod.mk.injEq] at hrun
    obtain ⟨_, _, hmerge, rfl, rfl⟩ := hrun
    refine ⟨some branchId, storeStep_recordMerge hok hmerge, by simp, ?_⟩
    rintro _ ⟨⟩
    exact ⟨proposalId, number, rfl, rfl⟩
  · obtain ⟨rfl, rfl⟩ := Prod.mk.inj (pure_eq_ok_iff.mp hrun)
    exact .of_step (.refl hok) (by simp)

/-! ### Runs -/

section Runs

variable {s t : State ω} {e : Event ω}

/-- What every event keeps. -/
structure Invariant (env : Environment ω) (s : State ω) : Prop where
  proposals : Proposals.Invariant env.toEnvironment s.proposals
  calls : ∀ call c, s.calls call = some c → CallOk s.store c

theorem Invariant.initial (ontology : ω) : Invariant env (.initial ontology) :=
  ⟨.initial ontology, by simp [State.initial]⟩

/-- **What an event does**, and that it keeps the invariant. -/
theorem next_spec (hinv : Invariant env s) (h : next env s e = some t) :
    Invariant env t ∧ ∃ merging, StoreStep env merging s.store t.store ∧
      ∀ branchId, merging = some branchId → ∃ call proposalId number,
        e = .branch call .recordMerge ∧ s.calls call = some (.merging branchId proposalId number) := by
  cases e with
  | branch call event =>
    obtain ⟨tx, htx, rfl⟩ := Option.map_eq_some_iff.mp h
    have hspec : ∃ value store', EventSpec env event (s.calls call) value s.store store' ∧
        s.transact call tx = { s with store := store' }.setCall call value := by
      cases hrun : tx s.store with
      | ok result =>
        exact ⟨result.1, result.2, branchStep_of_transaction hinv.proposals.store htx hrun,
          by simp [State.transact, hrun]⟩
      | error error =>
        exact ⟨none, s.store, .of_step (.refl hinv.proposals.store) (by simp),
          by simp [State.transact, hrun]⟩
    obtain ⟨value, store', ⟨merging, hstep, hvalue, hmerging⟩, htransact⟩ := hspec
    rw [htransact]
    refine ⟨⟨?_, fun call' c hc => ?_⟩, merging, hstep, fun branchId hid => ?_⟩
    · obtain ⟨approving, hproposals⟩ := hstep.proposals
      exact hinv.proposals.of_step hproposals
    · simp only [State.setCall, Function.update_apply] at hc
      split_ifs at hc
      · exact hvalue c hc
      · exact (hinv.calls call' c hc).step hstep
    · obtain ⟨proposalId, number, rfl, hcall⟩ := hmerging branchId hid
      exact ⟨call, proposalId, number, rfl, hcall⟩
  | proposal call event =>
    obtain ⟨proposals, hnext, rfl⟩ := Option.map_eq_some_iff.mp h
    obtain ⟨value, ⟨approving, hstep, -⟩, -⟩ := Proposals.next_spec hinv.proposals hnext
    have hstore : StoreStep env none s.store (s.setProposals proposals).store := .of_proposals hstep
    exact ⟨⟨hinv.proposals.next hnext, fun call c hc => (hinv.calls call c hc).step hstore⟩, none,
      hstore, by simp⟩

theorem Invariant.next (hinv : Invariant env s) (h : next env s e = some t) : Invariant env t :=
  (next_spec hinv h).1

/-- A merged branch has the text that was activated for the proposal it names. -/
def MergedOwnContent (store : Store ω) : Prop :=
  ∀ row ∈ store.branches.rows, row.status = .merged →
    ∃ activation ∈ store.proposals.activations, row.mergedProposalId = some activation.proposalId ∧
      activation.yamlText = row.contentYamlText

/-- The branch that is about to be marked merged names the proposal that was read, and has its
text. -/
def MergesProposedText (s : State ω) : Event ω → Prop
  | .branch call .recordMerge =>
    match s.calls call with
    | some (.merging branchId proposalId _) =>
      ∀ row ∈ s.store.branches.rows, row.id = branchId → row.status = .open →
        row.mergedProposalId = some proposalId ∧
          ∀ proposal ∈ s.store.proposals.proposals.rows, proposal.id = proposalId →
            proposal.actionProposal.yamlText = row.contentYamlText
    | _ => True
  | _ => True

instance (s : State ω) (e : Event ω) : Decidable (MergesProposedText s e) := by
  unfold MergesProposedText
  split
  · split <;> infer_instance
  · infer_instance

/-- A merge that the condition holds of is of the text that was activated. -/
theorem MergedOwnContent.next (hinv : Invariant env s) (h : MergedOwnContent s.store)
    (hmerges : MergesProposedText s e) (hnext : next env s e = some t) :
    MergedOwnContent t.store := by
  obtain ⟨-, merging, hstep, hmerging⟩ := next_spec hinv hnext
  obtain ⟨approving, hproposals⟩ := hstep.proposals
  obtain ⟨new, hmoves, hnew⟩ := hstep.branches
  intro row' hrow' hmerged
  rcases hmoves.origin row' hrow' with ⟨row, hrow, hmove⟩ | ⟨row, heq, hmove⟩
  · rcases hmove.merged hmerged with hbefore | ⟨hid, hcontent, hproposal⟩
    · obtain rfl := hmove.closed (by simp [hbefore])
      obtain ⟨activation, hactivation, hnames, htext⟩ := h row' hrow hmerged
      exact ⟨activation, Proposals.activations_of_step hactivation hproposals, hnames, htext⟩
    · by_cases hopen : row.status = .open
      · obtain ⟨call, proposalId, number, rfl, hcall⟩ := hmerging row.id hid
        obtain ⟨activation, hactivation, rfl⟩ : CallOk s.store (.merging row.id proposalId number) :=
          hinv.calls call _ hcall
        simp only [MergesProposedText, hcall] at hmerges
        obtain ⟨hnames, htext⟩ := hmerges row hrow rfl hopen
        obtain ⟨proposal, hmem, hpid, -, hactivated⟩ :=
          hinv.proposals.store.activated activation hactivation
        refine ⟨activation, Proposals.activations_of_step hactivation hproposals, ?_, ?_⟩
        · rw [hproposal, hnames]
        · rw [hcontent, ← hactivated, htext proposal hmem hpid]
      · obtain rfl := hmove.closed hopen
        obtain ⟨activation, hactivation, hnames, htext⟩ := h row' hrow hmerged
        exact ⟨activation, Proposals.activations_of_step hactivation hproposals, hnames, htext⟩
  · obtain ⟨hopen, hnone⟩ := hnew row heq
    rcases hmove.merged hmerged with hbefore | ⟨hid, -⟩
    · simp [hopen] at hbefore
    · simp [hnone] at hid

/-- A branch that is not open stays as it is. -/
theorem mem_branches_of_next (hinv : Invariant env s) (hrow : row ∈ s.store.branches.rows)
    (hclosed : row.status ≠ .open) (hnext : next env s e = some t) :
    row ∈ t.store.branches.rows := by
  obtain ⟨-, merging, hstep, -⟩ := next_spec hinv hnext
  obtain ⟨new, hmoves, -⟩ := hstep.branches
  obtain ⟨row', hrow', hmove⟩ := hmoves.kept row hrow
  exact hmove.closed hclosed ▸ hrow'

/-- **A branch is merged by its own content**, in every run in which a branch is only marked merged
while it names the proposal that was read and has its text; and a branch that was merged or
abandoned does not change any more. -/
theorem merged_content_of_run {ontology : ω}
    (h : Reaches (next env) MergesProposedText (.initial ontology) s) :
    MergedOwnContent s.store ∧ ∀ t, Reaches (next env) MergesProposedText s t →
      ∀ row ∈ s.store.branches.rows, row.status ≠ .open → row ∈ t.store.branches.rows := by
  have hinv : Invariant env s ∧ MergedOwnContent s.store := by
    refine h.invariant (P := fun s => Invariant env s ∧ MergedOwnContent s.store) ?_ ?_
    · exact ⟨.initial ontology, by simp [MergedOwnContent, State.initial]⟩
    · exact fun _ _ _ hmerges hnext h => ⟨h.1.next hnext, h.2.next h.1 hmerges hnext⟩
  refine ⟨hinv.2, fun t ht row hrow hclosed => ?_⟩
  have hlater : Invariant env t ∧ row ∈ t.store.branches.rows :=
    ht.invariant (P := fun t => Invariant env t ∧ row ∈ t.store.branches.rows) ⟨hinv.1, hrow⟩
      fun _ _ _ _ hnext h => ⟨h.1.next hnext, mem_branches_of_next h.1 h.2 hclosed hnext⟩
  exact hlater.2

/-- **A branch that was merged or abandoned does not change any more**, in every run. -/
theorem closed_for_good {ontology : ω} (h : Reaches (next env) Always (.initial ontology) s)
    (hlater : Reaches (next env) Always s t) (hrow : row ∈ s.store.branches.rows)
    (hclosed : row.status ≠ .open) : row ∈ t.store.branches.rows := by
  have hinv : Invariant env s :=
    h.invariant (.initial ontology) fun _ _ _ _ hnext hinv => hinv.next hnext
  have hkept : Invariant env t ∧ row ∈ t.store.branches.rows :=
    hlater.invariant (P := fun t => Invariant env t ∧ row ∈ t.store.branches.rows) ⟨hinv, hrow⟩
      fun _ _ _ _ hnext h => ⟨h.1.next hnext, mem_branches_of_next h.1 h.2 hclosed hnext⟩
  exact hkept.2

end Runs

/-! ### A merge with an edit, and a merge that drops one -/

def plainValidation : Proposals.ValidationResult := ⟨⟨none, [], []⟩, 0, 0, 0⟩

/-- Every text is valid, and activating it succeeds. -/
def plainEnvironment : Environment Unit where
  yamlFingerprint := ("sha256:" ++ ·)
  validateYamlText _ _ := pure plainValidation
  definitionFingerprint := pure
  applyLoadedOntology _ _ := pure (⟨"ont_1", 1, plainValidation.migrationPlan⟩, ())
  scrubErrorText := id
  isProtected := false
  activeOntologySnapshot _ := some ⟨"ont_0", 0, "base"⟩
  mergedContent _ branch _ _ := pure branch
  descriptionWithDiff _ _ := "changes"

/-- Newest event first, as all of these. -/
def creating : List (Event Unit) := [.branch 0 (.create ⟨"alice", "feature", "key-0"⟩ "1")]

def editing : List (Event Unit) :=
  [.branch 0 .storeContent, .branch 0 .validateContent,
    .branch 0 (.updateReplay ⟨"ontbranch_1", "edited", "sha256:base"⟩)]

def proposing : List (Event Unit) :=
  [.branch 0 .storeProposal, .branch 0 (.submitProposal "1"), .branch 0 .validateProposal,
    .branch 0 .proposeReplay,
    .branch 0 (.readProposing ⟨"ontbranch_1", "alice", "Feature", "key-1", none⟩)]

/-- The proposal is approved and activated, by its fingerprint. -/
def activating (fingerprint : String) : List (Event Unit) :=
  [.proposal 0 .finishExecution, .proposal 0 .applyOnce,
    .proposal 0 (.claimExecution ⟨"ontprop_1", "bob", fingerprint⟩), .proposal 0 .storeDecision,
    .proposal 0 .planDecision,
    .proposal 0 (.readDecidable ⟨"ontprop_1", "bob", .approved, fingerprint, none⟩),
    .proposal 0 (.assign ⟨"ontprop_1", "bob", false⟩)]

def reconciling : List (Event Unit) :=
  [.branch 0 .recordMerge, .branch 0 .readApplied, .branch 0 (.readMerging "ontbranch_1")]

theorem replay_editedBefore :
    (replay (guarded (next plainEnvironment) fun s e => decide (MergesProposedText s e))
      (.initial ()) (reconciling ++ activating "sha256:edited" ++ proposing ++ editing ++ creating)).any
      (fun s => s.store.branches.rows.any fun row =>
        row.status = .merged && row.contentYamlText = "edited") = true := by
  decide +kernel

/-- An edit is merged and activated. -/
theorem merged_content_edited : ∃ s : State Unit, ∃ row ∈ s.store.branches.rows,
    row.contentYamlText = "edited" ∧ ∃ activation ∈ s.store.proposals.activations,
      row.mergedProposalId = some activation.proposalId ∧ activation.yamlText = "edited" := by
  obtain ⟨s, hreplay, hcheck⟩ := exists_replay_of_any replay_editedBefore
  have hrun : Reaches (next plainEnvironment) MergesProposedText (.initial ()) s :=
    ⟨_, run_of_replay_guarded (fun _ _ => of_decide_eq_true) hreplay⟩
  simp only [List.any_eq_true, Bool.and_eq_true, decide_eq_true_eq] at hcheck
  obtain ⟨row, hrow, hmerged, hcontent⟩ := hcheck
  obtain ⟨activation, hactivation, hnames, htext⟩ := (merged_content_of_run hrun).1 row hrow hmerged
  exact ⟨s, row, hrow, hcontent, activation, hactivation, hnames, htext.trans hcontent⟩

/-- A merged branch has a text that was not activated. -/
def dropsContent (s : State Unit) : Bool :=
  s.store.branches.rows.any fun row => row.status = .merged &&
    s.store.proposals.activations.all fun activation => activation.yamlText ≠ row.contentYamlText

theorem dropsContent_editedAfter :
    (replay (next plainEnvironment) (.initial ())
      (reconciling ++ activating "sha256:base" ++ editing ++ proposing ++ creating)).any
      dropsContent = true := by
  decide +kernel

/-- **A branch can be merged without an edit that was made on it**, after it was proposed. -/
theorem not_mergedOwnContent : ¬ ∀ (env : Environment Unit) (ontology : Unit) (s : State Unit),
    Reaches (next env) Always (.initial ontology) s → MergedOwnContent s.store := by
  intro hall
  obtain ⟨s, hreplay, hcheck⟩ := exists_replay_of_any dropsContent_editedAfter
  simp only [dropsContent, List.any_eq_true, Bool.and_eq_true, decide_eq_true_eq,
    List.all_eq_true] at hcheck
  obtain ⟨row, hrow, hmerged, hdrops⟩ := hcheck
  obtain ⟨activation, hactivation, -, htext⟩ := hall plainEnvironment () s
    ⟨_, run_always_iff.mpr hreplay⟩ row hrow hmerged
  exact hdrops activation hactivation htext

/-- The branch is edited, and abandoned. -/
theorem closed_abandoned : ∃ s : State Unit, ∃ row ∈ s.store.branches.rows,
    row.contentYamlText = "edited" ∧ ∀ t, Reaches (next plainEnvironment) Always s t →
      row ∈ t.store.branches.rows := by
  obtain ⟨s, hreplay, hcheck⟩ := exists_replay_of_any
    (show (replay (next plainEnvironment) (.initial ())
      (.branch 0 (.abandonBranch "ontbranch_1") :: editing ++ creating)).any (fun s =>
        s.store.branches.rows.any fun row =>
          row.contentYamlText = "edited" && row.status ≠ .open) = true by decide +kernel)
  simp only [List.any_eq_true, Bool.and_eq_true, decide_eq_true_eq] at hcheck
  obtain ⟨row, hrow, hcontent, hclosed⟩ := hcheck
  have hrun : Reaches (next plainEnvironment) Always (.initial ()) s :=
    ⟨_, run_always_iff.mpr hreplay⟩
  exact ⟨s, row, hrow, hcontent, fun t ht => closed_for_good hrun ht hrow hclosed⟩

end FoundryLite.Branches
