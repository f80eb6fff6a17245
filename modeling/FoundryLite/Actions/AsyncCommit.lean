import FoundryLite.Actions.AsyncRuns

/-!
# A run commits its plan once

Two things keep a plan from being committed twice, and they are independent of each other. The row of
the run leaves `running` in the transaction that applies the edits, for `succeeded`, which no
transition leaves again; so there is one such transaction, and the run is `succeeded` exactly if there
was. The lock on the attempt keeps a worker out whose lease was superseded: an attempt is running only
if no other was made after it (`RunningLatest`).
-/

namespace FoundryLite.Actions

open ObjectStore Transaction Runs

namespace AsyncRuns

/-! ### Attempts -/

/-- An attempt that is running is the last that was made. -/
def RunningLatest (attempts : StepAttempts) : Prop :=
  ∀ n a, attempts.get? n = some a → a.status = .running → ∀ m, (attempts.get? m).isSome → m ≤ n

theorem runningLatest_empty : RunningLatest ∅ := fun n a ha => by simp at ha

theorem RunningLatest.insert_same {attempts : StepAttempts} {n : ℕ} {a a' : StepAttempt}
    (h : RunningLatest attempts) (ha : attempts.get? n = some a)
    (hstatus : a'.status = .running → a.status = .running) :
    RunningLatest (attempts.insert n a') := by
  have hsome : ∀ m, ((attempts.insert n a').get? m).isSome → (attempts.get? m).isSome := by
    intro m hm
    rw [Dict.get?_insert] at hm
    split_ifs at hm with heq
    · rw [heq, ha]
      rfl
    · exact hm
  intro k b hb hrunning m hm
  rcases Dict.insert_eq_some hb with ⟨hk, rfl⟩ | ⟨-, hb⟩
  · rw [hk]
    exact h n a ha (hstatus hrunning) m (hsome m hm)
  · exact h k b hb hrunning m (hsome m hm)

/-- A new attempt, where none is running. -/
theorem runningLatest_insert_next {attempts : StepAttempts} {n : ℕ} {a' : StepAttempt}
    (hnone : ∀ m a, attempts.get? m = some a → a.status ≠ .running)
    (hlast : ∀ m, (attempts.get? m).isSome → m ≤ n) : RunningLatest (attempts.insert n a') := by
  intro k b hb hrunning m hm
  rw [Dict.get?_insert] at hb
  split_ifs at hb with hk
  · rw [Dict.get?_insert] at hm
    split_ifs at hm with hm'
    · omega
    · rw [hk]
      exact hlast m hm
  · exact absurd hrunning (hnone k b hb)

theorem status_markLost {lostAt : String} {attempt : StepAttempt} :
    (markLost lostAt attempt).status ≠ .running := by
  rw [markLost]
  by_cases hrunning : attempt.status = .running
  · simp [Runtime.casStatusUpdate, actionAttemptLost, hrunning]
  · simp [Runtime.casStatusUpdate, actionAttemptLost, hrunning]

theorem RunningLatest.claimStep {attempts attempts' : StepAttempts} {claim : StepAttemptClaim}
    {step step' : RunStep} {lease : AttemptLease} (h : RunningLatest attempts)
    (hclaim : claimStep claim step attempts = some (lease, step', attempts')) :
    RunningLatest attempts' := by
  obtain ⟨-, hclaim⟩ := Option.ite_none_right_eq_some.mp hclaim
  cases hlast : attempts.last? with
  | none =>
    rw [hlast] at hclaim
    obtain ⟨⟩ := hclaim
    have hnone := Dict.last?_eq_none_iff.mp hlast
    exact runningLatest_insert_next (fun m a ha => by simp [hnone] at ha)
      (fun m hm => by simp [hnone] at hm)
  | some latest =>
    obtain ⟨n, latest⟩ := latest
    rw [hlast] at hclaim
    obtain ⟨-, ⟨⟩⟩ := Option.ite_none_right_eq_some.mp hclaim
    obtain ⟨hn, hmax⟩ := Dict.last?_eq_some_iff.mp hlast
    refine runningLatest_insert_next (fun m a ha hrunning => ?_) (fun m hm => ?_)
    · rcases Dict.insert_eq_some ha with ⟨-, rfl⟩ | ⟨hm, ha⟩
      · exact status_markLost hrunning
      · exact hm (le_antisymm (hmax m (Option.isSome_of_eq_some ha))
          (h m a ha hrunning n (Option.isSome_of_eq_some hn)))
    · rw [Dict.get?_insert] at hm
      split_ifs at hm with heq
      · omega
      · exact (hmax m hm).trans (Nat.le_succ n)

theorem RunningLatest.completeAttempt {attempts attempts' : StepAttempts} {lease : AttemptLease}
    {completion : AttemptCompletion} {completedAt : String} {step step' : RunStep}
    (h : RunningLatest attempts)
    (hcomplete : completeAttempt lease completion completedAt step attempts =
      some (step', attempts')) : RunningLatest attempts' := by
  obtain ⟨a, ha, hcomplete⟩ := Option.bind_eq_some_iff.mp hcomplete
  obtain ⟨a', hupdate, ⟨⟩⟩ := Option.bind_eq_some_iff.mp hcomplete
  obtain ⟨-, -, rfl⟩ := Runtime.casStatusUpdate_eq_some_iff.mp hupdate
  refine h.insert_same ha fun hrunning => ?_
  cases houtcome : completion.outcome <;>
    simp [houtcome, AttemptOutcome.attemptTransition] at hrunning

theorem RunningLatest.heartbeatAttempt {attempts attempts' : StepAttempts} {lease : AttemptLease}
    {leaseExpiresAt heartbeatAt : String} (h : RunningLatest attempts)
    (hbeat : heartbeatAttempt lease leaseExpiresAt heartbeatAt attempts = some attempts') :
    RunningLatest attempts' := by
  obtain ⟨a, ha, hbeat⟩ := Option.bind_eq_some_iff.mp hbeat
  obtain ⟨⟨hstatus, -⟩, ⟨⟩⟩ := Option.ite_none_right_eq_some.mp hbeat
  exact h.insert_same ha fun _ => hstatus

/-! ### What the transactions do -/

section

variable {ctx : RequestContext} {planned : PlannedRun} {s t : State} {lease : AttemptLease}
  {changedAt : String}

theorem onStore_eq_ok_iff {α : Type} {x : Tx α} {a : α} :
    onStore x s = .ok (a, t) ↔ ∃ store, x s.store = .ok (a, store) ∧ { s with store } = t :=
  zoom_eq_ok_iff

theorem effect_eq_some_iff {x : AsyncTx Unit} : effect x s = some t ↔ x s = .ok ((), t) := by
  rw [effect]
  cases x s with
  | ok r =>
    obtain ⟨u, t'⟩ := r
    simp
  | error e => simp

theorem transitionRun_eq_ok {transition : StatusTransition} {updated : Bool} {store store' : Store}
    {run : ActionRun}
    (h : transitionRun ctx planned transition changedAt store = .ok (updated, store'))
    (hrun : runsOf ctx planned.id store = [run]) :
    (updated = true ↔ run.status ∈ transition.fromStatuses) ∧ store'.edits = store.edits ∧
      runsOf ctx planned.id store' = [if run.status ∈ transition.fromStatuses then
        transitionedRun transition changedAt run else run] := by
  obtain ⟨store₁, s₁, hget, h⟩ := bind_eq_ok_iff.mp h
  obtain ⟨rfl, rfl⟩ := Prod.mk.inj (get_eq_ok_iff.mp hget)
  obtain ⟨u, s₁, hset, hpure⟩ := bind_eq_ok_iff.mp h
  obtain ⟨-, rfl⟩ := Prod.mk.inj (set_eq_ok_iff.mp hset)
  obtain ⟨rfl, rfl⟩ := Prod.mk.inj (pure_eq_ok_iff.mp hpure)
  refine ⟨?_, rfl, ?_⟩
  · rw [countP_and_of_singleton (q := fun run => decide (run.status ∈ transition.fromStatuses)) hrun]
    by_cases hmem : run.status ∈ transition.fromStatuses <;> simp [hmem]
  · have hmap := filter_map_ite_of_singleton
      (q := fun run => decide (run.status ∈ transition.fromStatuses))
      (f := transitionedRun transition changedAt) hrun fun _ => rfl
    simp only [decide_eq_true_eq] at hmap
    exact hmap

/-- The row of the run may have moved, but neither to `succeeded` nor away from it. -/
structure KeepsOutcome (ctx : RequestContext) (planned : PlannedRun) (s t : State) : Prop where
  edits : t.edits ctx planned = s.edits ctx planned
  runs : ∀ run, s.runs ctx planned = [run] → ∃ run', t.runs ctx planned = [run'] ∧
    (run'.status = .succeeded ↔ run.status = .succeeded)

theorem KeepsOutcome.of_store_eq (h : t.store = s.store) : KeepsOutcome ctx planned s t := by
  have hedits : t.edits ctx planned = s.edits ctx planned := by rw [State.edits, State.edits, h]
  have hruns : t.runs ctx planned = s.runs ctx planned := by rw [State.runs, State.runs, h]
  exact ⟨hedits, fun run hrun => ⟨run, hruns.trans hrun, Iff.rfl⟩⟩

/-- What every transition does but those of a commit. -/
theorem KeepsOutcome.of_transitionRun {transition : StatusTransition} {updated : Bool}
    (h : transitionRun ctx planned transition changedAt s.store = .ok (updated, t.store))
    (hfrom : .succeeded ∉ transition.fromStatuses) (hto : transition.toStatus ≠ .succeeded)
    (hone : ∃ run, s.runs ctx planned = [run]) : KeepsOutcome ctx planned s t := by
  obtain ⟨run, hone⟩ := hone
  obtain ⟨-, hedits, hruns⟩ := transitionRun_eq_ok h hone
  refine ⟨by rw [State.edits, State.edits, editsOf, hedits]; rfl, fun run' hrun' => ?_⟩
  obtain rfl := List.singleton_inj.mp (hone.symm.trans hrun')
  refine ⟨_, hruns, ?_⟩
  split_ifs with hmem
  · refine iff_of_false hto fun hsucceeded => hfrom ?_
    rwa [hsucceeded] at hmem
  · rfl

theorem requireActionAttemptOwner_eq_ok {u : Unit}
    (h : requireActionAttemptOwner lease changedAt s = .ok (u, t)) :
    t = s ∧ ∃ a, s.attempts.get? lease.attemptNumber = some a ∧ a.status = .running ∧
      lease.matchesRow a = true ∧ changedAt ≤ a.leaseExpiresAt := by
  obtain ⟨s₁, s₂, hget, h⟩ := bind_eq_ok_iff.mp h
  obtain ⟨rfl, rfl⟩ := Prod.mk.inj (get_eq_ok_iff.mp hget)
  obtain ⟨owner, s₃, howner, h⟩ := bind_eq_ok_iff.mp h
  obtain ⟨a, hlock, heq⟩ := requireSome_eq_ok_iff.mp howner
  obtain ⟨-, rfl⟩ := Prod.mk.inj heq
  obtain ⟨-, rfl⟩ := Prod.mk.inj (pure_eq_ok_iff.mp h)
  obtain ⟨a, ha, hlock⟩ := Option.bind_eq_some_iff.mp hlock
  obtain ⟨⟨hrunning, hmatches, hlease⟩, ⟨⟩⟩ := Option.ite_none_right_eq_some.mp hlock
  exact ⟨rfl, _, ha, hrunning, hmatches, hlease⟩

theorem completeActionAttempt_eq_ok {completion : AttemptCompletion} {u : Unit}
    (h : completeActionAttempt lease completion changedAt s = .ok (u, t)) :
    ∃ step attempts, completeAttempt lease completion changedAt s.step s.attempts =
      some (step, attempts) ∧ t = { s with step, attempts } := by
  obtain ⟨s₁, s₂, hget, h⟩ := bind_eq_ok_iff.mp h
  obtain ⟨rfl, rfl⟩ := Prod.mk.inj (get_eq_ok_iff.mp hget)
  obtain ⟨⟨step, attempts⟩, s₃, hsome, hset⟩ := bind_eq_ok_iff.mp h
  obtain ⟨completed, hcomplete, heq⟩ := requireSome_eq_ok_iff.mp hsome
  obtain ⟨rfl, rfl⟩ := Prod.mk.inj heq
  obtain ⟨-, rfl⟩ := Prod.mk.inj (set_eq_ok_iff.mp hset)
  exact ⟨step, attempts, hcomplete, rfl⟩

/-- What every transaction does but a commit. -/
structure Uncommitting (ctx : RequestContext) (planned : PlannedRun) (s t : State) : Prop where
  keeps : KeepsOutcome ctx planned s t
  latest : RunningLatest s.attempts → RunningLatest t.attempts

/-- There is one row of the run, under its id. -/
def OneRun (ctx : RequestContext) (planned : PlannedRun) (s : State) : Prop :=
  ∃ run, s.runs ctx planned = [run]

theorem uncommitting_claimRun {claim : StepAttemptClaim} (hone : OneRun ctx planned s)
    (h : claimRun ctx planned claim s = .ok ((), t)) : Uncommitting ctx planned s t := by
  obtain ⟨s₁, s₂, hget, h⟩ := bind_eq_ok_iff.mp h
  obtain ⟨rfl, rfl⟩ := Prod.mk.inj (get_eq_ok_iff.mp hget)
  obtain ⟨⟨lease, step, attempts⟩, s₃, hsome, h⟩ := bind_eq_ok_iff.mp h
  obtain ⟨claimed, hclaim, heq⟩ := requireSome_eq_ok_iff.mp hsome
  obtain ⟨rfl, rfl⟩ := Prod.mk.inj heq
  obtain ⟨u, s₄, hset, h⟩ := bind_eq_ok_iff.mp h
  obtain ⟨-, rfl⟩ := Prod.mk.inj (set_eq_ok_iff.mp hset)
  obtain ⟨updated, s₅, htransition, h⟩ := bind_eq_ok_iff.mp h
  obtain ⟨-, rfl⟩ := Prod.mk.inj (pure_eq_ok_iff.mp h)
  obtain ⟨store, hstore, rfl⟩ := onStore_eq_ok_iff.mp htransition
  exact ⟨.of_transitionRun hstore (by decide) (by decide) hone, fun hlatest => hlatest.claimStep hclaim⟩

theorem uncommitting_cancelClaimed (hone : OneRun ctx planned s)
    (h : cancelClaimed ctx planned lease changedAt s = .ok ((), t)) :
    Uncommitting ctx planned s t := by
  obtain ⟨u, s₁, howner, hrest⟩ := bind_eq_ok_iff.mp h
  obtain ⟨rfl, -⟩ := requireActionAttemptOwner_eq_ok howner
  obtain ⟨u, s₂, hcomplete, h⟩ := bind_eq_ok_iff.mp hrest
  obtain ⟨step, attempts, hdone, rfl⟩ := completeActionAttempt_eq_ok hcomplete
  obtain ⟨updated, s₃, htransition, h⟩ := bind_eq_ok_iff.mp h
  obtain ⟨-, heq⟩ := require_eq_ok_iff.mp h
  obtain ⟨-, rfl⟩ := Prod.mk.inj heq
  obtain ⟨store, hstore, rfl⟩ := onStore_eq_ok_iff.mp htransition
  exact ⟨.of_transitionRun hstore (by decide) (by decide) hone,
    fun hlatest => hlatest.completeAttempt hdone⟩

theorem TerminalFailure.transition_ne_succeeded {failure : TerminalFailure} :
    .succeeded ∉ failure.transition.fromStatuses ∧ failure.transition.toStatus ≠ .succeeded := by
  cases failure <;> decide

theorem uncommitting_persistFailure {failure : TerminalFailure} {errorKind : String}
    {retryAt : Option String} (hone : OneRun ctx planned s)
    (h : persistFailure ctx planned lease failure errorKind retryAt changedAt s = .ok ((), t)) :
    Uncommitting ctx planned s t := by
  obtain ⟨u, s₁, howner, hrest⟩ := bind_eq_ok_iff.mp h
  obtain ⟨rfl, -⟩ := requireActionAttemptOwner_eq_ok howner
  obtain ⟨u, s₂, hcomplete, h⟩ := bind_eq_ok_iff.mp hrest
  obtain ⟨step, attempts, hdone, rfl⟩ := completeActionAttempt_eq_ok hcomplete
  cases retryAt with
  | some retryAt =>
    obtain ⟨-, rfl⟩ := Prod.mk.inj (pure_eq_ok_iff.mp h)
    exact ⟨.of_store_eq rfl, fun hlatest => hlatest.completeAttempt hdone⟩
  | none =>
    obtain ⟨updated, s₃, htransition, h⟩ := bind_eq_ok_iff.mp h
    obtain ⟨-, rfl⟩ := Prod.mk.inj (pure_eq_ok_iff.mp h)
    obtain ⟨store, hstore, rfl⟩ := onStore_eq_ok_iff.mp htransition
    obtain ⟨hfrom, hto⟩ := failure.transition_ne_succeeded
    exact ⟨.of_transitionRun hstore hfrom hto hone, fun hlatest => hlatest.completeAttempt hdone⟩

theorem uncommitting_finalizeCancellation {claim? : Option StepAttemptClaim}
    (hone : OneRun ctx planned s)
    (h : finalizeCancellation ctx planned claim? changedAt s = .ok ((), t)) :
    Uncommitting ctx planned s t := by
  cases claim? with
  | none =>
    obtain ⟨updated, s₁, htransition, h⟩ := bind_eq_ok_iff.mp h
    obtain ⟨-, rfl⟩ := Prod.mk.inj (pure_eq_ok_iff.mp h)
    obtain ⟨store, hstore, rfl⟩ := onStore_eq_ok_iff.mp htransition
    exact ⟨.of_transitionRun hstore (by decide) (by decide) hone, id⟩
  | some claim =>
    obtain ⟨s₁, s₂, hget, h⟩ := bind_eq_ok_iff.mp h
    obtain ⟨rfl, rfl⟩ := Prod.mk.inj (get_eq_ok_iff.mp hget)
    obtain ⟨⟨lease, step, attempts⟩, s₃, hsome, h⟩ := bind_eq_ok_iff.mp h
    obtain ⟨claimed, hclaim, heq⟩ := requireSome_eq_ok_iff.mp hsome
    obtain ⟨rfl, rfl⟩ := Prod.mk.inj heq
    obtain ⟨u, s₄, hset, h⟩ := bind_eq_ok_iff.mp h
    obtain ⟨-, rfl⟩ := Prod.mk.inj (set_eq_ok_iff.mp hset)
    obtain ⟨u, s₅, hcomplete, h⟩ := bind_eq_ok_iff.mp h
    obtain ⟨step, attempts, hdone, rfl⟩ := completeActionAttempt_eq_ok hcomplete
    obtain ⟨updated, s₆, htransition, h⟩ := bind_eq_ok_iff.mp h
    obtain ⟨-, rfl⟩ := Prod.mk.inj (pure_eq_ok_iff.mp h)
    obtain ⟨store, hstore, rfl⟩ := onStore_eq_ok_iff.mp htransition
    exact ⟨.of_transitionRun hstore (by decide) (by decide) hone,
      fun hlatest => (hlatest.claimStep hclaim).completeAttempt hdone⟩

theorem uncommitting_requestCancel {request : CancelRequest} (hone : OneRun ctx planned s)
    (h : requestCancel ctx planned request changedAt s = .ok ((), t)) :
    Uncommitting ctx planned s t := by
  obtain ⟨s₁, s₂, hget, h⟩ := bind_eq_ok_iff.mp h
  obtain ⟨rfl, rfl⟩ := Prod.mk.inj (get_eq_ok_iff.mp hget)
  obtain ⟨u, s₃, hrequire, h⟩ := bind_eq_ok_iff.mp h
  obtain ⟨-, heq⟩ := require_eq_ok_iff.mp hrequire
  obtain ⟨-, rfl⟩ := Prod.mk.inj heq
  obtain ⟨updated, s₄, htransition, h⟩ := bind_eq_ok_iff.mp h
  obtain ⟨store, hstore, rfl⟩ := onStore_eq_ok_iff.mp htransition
  obtain ⟨u, s₅, hrequire, h⟩ := bind_eq_ok_iff.mp h
  obtain ⟨-, heq⟩ := require_eq_ok_iff.mp hrequire
  obtain ⟨-, rfl⟩ := Prod.mk.inj heq
  obtain ⟨-, rfl⟩ := Prod.mk.inj (modify_eq_ok_iff.mp h)
  exact ⟨.of_transitionRun hstore (by decide) (by decide) hone, id⟩

/-- What a commit does: the owner of the attempt moves the run from another status to `succeeded`, and
an edit is logged for each edit of the plan. -/
structure Commits (ctx : RequestContext) (planned : PlannedRun) (lease : AttemptLease)
    (call : CommitCall) (s t : State) : Prop where
  owner : ∃ a, s.attempts.get? lease.attemptNumber = some a ∧ a.status = .running ∧
    lease.matchesRow a = true
  runs : ∀ run, s.runs ctx planned = [run] → run.status ≠ .succeeded ∧
    ∃ run', t.runs ctx planned = [run'] ∧ run'.status = .succeeded
  edits : ∃ rows, t.edits ctx planned = s.edits ctx planned ++ rows ∧
    rows.length = call.plan.plannedEdits.length
  latest : RunningLatest s.attempts → RunningLatest t.attempts

theorem commits_commitRun {call : CommitCall} (hone : OneRun ctx planned s)
    (h : commitRun ctx planned lease call changedAt s = .ok ((), t)) :
    Commits ctx planned lease call s t := by
  obtain ⟨run, hrun⟩ := hone
  obtain ⟨u, s₁, howner, hrest⟩ := bind_eq_ok_iff.mp h
  obtain ⟨rfl, a, ha, hrunning, hmatches, -⟩ := requireActionAttemptOwner_eq_ok howner
  obtain ⟨u, s₂, hvalid, hrest⟩ := bind_eq_ok_iff.mp hrest
  obtain ⟨valid, -, heq⟩ := lift_eq_ok_iff.mp hvalid
  obtain ⟨-, rfl⟩ := Prod.mk.inj heq
  obtain ⟨u, s₃, hpending, hrest⟩ := bind_eq_ok_iff.mp hrest
  obtain ⟨updated, s₄, htransition, hrequire⟩ := bind_eq_ok_iff.mp hpending
  obtain ⟨hupdated, heq⟩ := require_eq_ok_iff.mp hrequire
  obtain ⟨-, rfl⟩ := Prod.mk.inj heq
  obtain ⟨pendingStore, hpendingStore, rfl⟩ := onStore_eq_ok_iff.mp htransition
  obtain ⟨result, s₅, hplan, hcomplete⟩ := bind_eq_ok_iff.mp hrest
  obtain ⟨store, hcommit, rfl⟩ := onStore_eq_ok_iff.mp hplan
  obtain ⟨step, attempts, hdone, rfl⟩ := completeActionAttempt_eq_ok hcomplete
  -- the run is `commit_pending` only between these two transitions
  obtain ⟨hiff, hpendingEdits, hpendingRuns⟩ := transitionRun_eq_ok hpendingStore hrun
  have hstatus : run.status = .running := List.mem_singleton.mp (hiff.mp hupdated)
  obtain ⟨-, completedAt, hruns⟩ := commitPlan_runsOf hcommit hpendingRuns
  obtain ⟨rows, hedits, hlength⟩ := commitPlan_editsOf hcommit
  refine ⟨⟨a, ha, hrunning, hmatches⟩, fun run' hrun' => ?_, ⟨rows, ?_, hlength⟩,
    fun hlatest => hlatest.completeAttempt hdone⟩
  · obtain rfl := List.singleton_inj.mp (hrun.symm.trans hrun')
    exact ⟨by simp [hstatus], _, hruns, rfl⟩
  · have hsame : editsOf ctx planned.id pendingStore = s₁.edits ctx planned := by
      rw [editsOf, hpendingEdits]
      rfl
    exact hedits.trans (by rw [hsame])

def Event.isCommit : Event → Bool
  | .commit _ _ _ => true
  | _ => false

theorem step_of_next {e : Event} (hone : OneRun ctx planned s)
    (h : next ctx planned s e = some t) :
    (∃ lease call changedAt, e = .commit lease call changedAt ∧
        Commits ctx planned lease call s t) ∨
      e.isCommit = false ∧ Uncommitting ctx planned s t := by
  cases e with
  | claim claim => exact .inr ⟨rfl, uncommitting_claimRun hone (effect_eq_some_iff.mp h)⟩
  | heartbeat lease leaseExpiresAt heartbeatAt =>
    obtain ⟨attempts, hbeat, rfl⟩ := Option.map_eq_some_iff.mp h
    exact .inr ⟨rfl, .of_store_eq rfl, fun hlatest => hlatest.heartbeatAttempt hbeat⟩
  | commit lease call changedAt =>
    exact .inl ⟨lease, call, changedAt, rfl, commits_commitRun hone (effect_eq_some_iff.mp h)⟩
  | cancelClaimed lease changedAt =>
    obtain ⟨-, h⟩ := Option.ite_none_right_eq_some.mp h
    exact .inr ⟨rfl, uncommitting_cancelClaimed hone (effect_eq_some_iff.mp h)⟩
  | fail lease failure errorKind retryAt changedAt =>
    exact .inr ⟨rfl, uncommitting_persistFailure hone (effect_eq_some_iff.mp h)⟩
  | finalizeCancellation claim? changedAt =>
    obtain ⟨-, h⟩ := Option.ite_none_right_eq_some.mp h
    exact .inr ⟨rfl, uncommitting_finalizeCancellation hone (effect_eq_some_iff.mp h)⟩
  | requestCancel request requestedAt =>
    exact .inr ⟨rfl, uncommitting_requestCancel hone (effect_eq_some_iff.mp h)⟩
  | other store =>
    obtain ⟨⟨hruns, hedits⟩, ⟨⟩⟩ := Option.ite_none_right_eq_some.mp h
    exact .inr ⟨rfl, ⟨hedits, fun run hrun => ⟨run, hruns.trans hrun, Iff.rfl⟩⟩, id⟩

/-! ### Whole runs -/

/-- What the history says of the run and of its edits. -/
inductive Ledger (ctx : RequestContext) (planned : PlannedRun) (s₀ : State) (s : State) :
    List Event → Prop
  | uncommitted {history : List Event} {run : ActionRun} : history.filter Event.isCommit = [] →
      s.runs ctx planned = [run] → run.status ≠ .succeeded →
      s.edits ctx planned = s₀.edits ctx planned → Ledger ctx planned s₀ s history
  | committed {history : List Event} {run : ActionRun} {lease : AttemptLease} {call : CommitCall}
      {changedAt : String} {rows : List ObjectEdit} :
      history.filter Event.isCommit = [.commit lease call changedAt] →
      s.runs ctx planned = [run] → run.status = .succeeded →
      s.edits ctx planned = s₀.edits ctx planned ++ rows →
      rows.length = call.plan.plannedEdits.length → Ledger ctx planned s₀ s history

variable {s₀ : State} {history : List Event}

theorem Ledger.oneRun (h : Ledger ctx planned s₀ s history) : OneRun ctx planned s := by
  cases h with
  | uncommitted hcommits hrun hstatus hedits => exact ⟨_, hrun⟩
  | committed hcommits hrun hstatus hedits hlength => exact ⟨_, hrun⟩

theorem Ledger.step {e : Event} (h : Ledger ctx planned s₀ s history)
    (hnext : next ctx planned s e = some t) : Ledger ctx planned s₀ t (e :: history) := by
  rcases step_of_next h.oneRun hnext with ⟨lease, call, changedAt, rfl, hcommit⟩ | ⟨hcommit, hstep⟩
  · cases h with
    | uncommitted hcommits hrun hstatus hedits =>
      obtain ⟨-, run', hrun', hstatus'⟩ := hcommit.runs _ hrun
      obtain ⟨rows, hrows, hlength⟩ := hcommit.edits
      have hfilter : (Event.commit lease call changedAt :: history).filter Event.isCommit =
          [.commit lease call changedAt] := by rw [List.filter_cons_of_pos rfl, hcommits]
      exact .committed hfilter hrun' hstatus' (hrows.trans (by rw [hedits])) hlength
    | committed hcommits hrun hstatus hedits hlength =>
      exact absurd hstatus (hcommit.runs _ hrun).1
  · have hfilter : (e :: history).filter Event.isCommit = history.filter Event.isCommit :=
      List.filter_cons_of_neg (by simp [hcommit])
    cases h with
    | uncommitted hcommits hrun hstatus hedits =>
      obtain ⟨run', hrun', hiff⟩ := hstep.keeps.runs _ hrun
      exact .uncommitted (hfilter.trans hcommits) hrun' (fun h => hstatus (hiff.mp h))
        (hstep.keeps.edits.trans hedits)
    | committed hcommits hrun hstatus hedits hlength =>
      obtain ⟨run', hrun', hiff⟩ := hstep.keeps.runs _ hrun
      exact .committed (hfilter.trans hcommits) hrun' (hiff.mpr hstatus)
        (hstep.keeps.edits.trans hedits) hlength

theorem RunningLatest.step {e : Event} (h : RunningLatest s.attempts)
    (hone : OneRun ctx planned s) (hnext : next ctx planned s e = some t) :
    RunningLatest t.attempts := by
  rcases step_of_next hone hnext with ⟨lease, call, changedAt, rfl, hcommit⟩ | ⟨hcommit, hstep⟩
  · exact hcommit.latest h
  · exact hstep.latest h

theorem insertRun_eq_some {store : Store} (h : insertRun ctx planned store = some s₀) :
    s₀.runs ctx planned = [queuedRun ctx planned] ∧ s₀.attempts = ∅ := by
  obtain ⟨hfree, ⟨⟩⟩ := Option.ite_none_right_eq_some.mp h
  refine ⟨?_, rfl⟩
  rw [State.runs, runsOf, List.filter_append]
  exact (congrArg (· ++ _) hfree).trans (by simp [queuedRun])

theorem ledger_of_run {store : Store} (h₀ : insertRun ctx planned store = some s₀)
    (h : Run (next ctx planned) Always s₀ history s) :
    Ledger ctx planned s₀ s history ∧ RunningLatest s.attempts := by
  obtain ⟨hrun, hattempts⟩ := insertRun_eq_some h₀
  refine h.invariant_history
    (P := fun history s => Ledger ctx planned s₀ s history ∧ RunningLatest s.attempts)
    ⟨.uncommitted rfl hrun (by simp [queuedRun]) rfl, by rw [hattempts]; exact runningLatest_empty⟩ ?_
  rintro history s e t - hnext ⟨hledger, hlatest⟩
  exact ⟨hledger.step hnext, hlatest.step hledger.oneRun hnext⟩

/-- The status of the run. -/
def State.status? (ctx : RequestContext) (planned : PlannedRun) (s : State) :
    Option ActionRunStatus := (s.runs ctx planned).head?.map ActionRun.status

/-- Another attempt was made after the one of this lease. -/
def Superseded (s : State) (lease : AttemptLease) : Prop :=
  ∃ n, lease.attemptNumber < n ∧ (s.attempts.get? n).isSome

/-- A run commits its plan once, and says so. -/
structure CommittedOnce (ctx : RequestContext) (planned : PlannedRun) (s₀ : State)
    (history : List Event) (s : State) : Prop where
  at_most_once : (history.filter Event.isCommit).length ≤ 1
  succeeded_iff : s.status? ctx planned = some .succeeded ↔ ∃ e ∈ history, e.isCommit = true
  edits_of_commit : ∀ lease call changedAt, .commit lease call changedAt ∈ history →
    ∃ rows, s.edits ctx planned = s₀.edits ctx planned ++ rows ∧
      rows.length = call.plan.plannedEdits.length
  edits_of_ne_succeeded : s.status? ctx planned ≠ some .succeeded →
    s.edits ctx planned = s₀.edits ctx planned
  cancelled : s.status? ctx planned = some .cancelled → ∀ e ∈ history, e.isCommit = false
  not_superseded : ∀ lease call changedAt t, Superseded s lease →
    next ctx planned s (.commit lease call changedAt) ≠ some t

theorem not_commits_of_superseded {call : CommitCall} (hlatest : RunningLatest s.attempts)
    (h : Commits ctx planned lease call s t) : ¬ Superseded s lease := by
  rintro ⟨n, hlt, hsome⟩
  obtain ⟨a, ha, hrunning, -⟩ := h.owner
  have hle := hlatest _ a ha hrunning n hsome
  omega

/-- **The plan of a run is committed in at most one transaction, the run is `succeeded` exactly if
there was one, and a worker whose lease was superseded never commits.** -/
theorem committedOnce_of_run {store : Store} (h₀ : insertRun ctx planned store = some s₀)
    (h : Run (next ctx planned) Always s₀ history s) :
    CommittedOnce ctx planned s₀ history s := by
  obtain ⟨hledger, hlatest⟩ := ledger_of_run h₀ h
  have hsuperseded : ∀ lease call changedAt t, Superseded s lease →
      next ctx planned s (.commit lease call changedAt) ≠ some t := by
    intro lease call changedAt t hlease hnext
    have hcommit := commits_commitRun hledger.oneRun (effect_eq_some_iff.mp hnext)
    exact not_commits_of_superseded hlatest hcommit hlease
  cases hledger with
  | @uncommitted run hcommits hrun hstatus hedits =>
    have hnone : ∀ e ∈ history, e.isCommit = false := fun e he => by
      simpa using List.filter_eq_nil_iff.mp hcommits e he
    refine ⟨by simp [hcommits], iff_of_false ?_ ?_, ?_, fun _ => hedits, fun _ => hnone, hsuperseded⟩
    · simpa [State.status?, hrun] using hstatus
    · rintro ⟨e, he, hcommit⟩
      simp [hnone e he] at hcommit
    · intro lease call changedAt hmem
      exact absurd (hnone _ hmem) (by simp [Event.isCommit])
  | @committed run lease call changedAt rows hcommits hrun hstatus hedits hlength =>
    have hmem : .commit lease call changedAt ∈ history.filter Event.isCommit := by simp [hcommits]
    have hstatus? : s.status? ctx planned = some .succeeded := by simp [State.status?, hrun, hstatus]
    refine ⟨by simp [hcommits], iff_of_true hstatus? ⟨_, (List.mem_filter.mp hmem)⟩, ?_,
      fun hne => absurd hstatus? hne, fun hcancelled => ?_, hsuperseded⟩
    · intro lease' call' changedAt' hmem'
      have hfilter : .commit lease' call' changedAt' ∈ history.filter Event.isCommit :=
        List.mem_filter.mpr ⟨hmem', rfl⟩
      rw [hcommits, List.mem_singleton] at hfilter
      obtain ⟨-, rfl, -⟩ := Event.commit.inj hfilter
      exact ⟨rows, hedits, hlength⟩
    · rw [hstatus?] at hcancelled
      exact absurd hcancelled (by decide)

/-- **One attempt is running at a time**, and it is the last that was made. -/
theorem runningLatest_of_run {store : Store} (h₀ : insertRun ctx planned store = some s₀)
    (h : Run (next ctx planned) Always s₀ history s) : RunningLatest s.attempts :=
  (ledger_of_run h₀ h).2

end

/-! ### A takeover -/

section Takeover

def botContext : RequestContext := ⟨"acme", "bot"⟩

def openTicketRun : PlannedRun := ⟨"run-7", "open-ticket-v1", "sha256:7"⟩

def newTicketTypeId : ObjectTypeId := ⟨⟨"ticket-v7", by decide⟩, ⟨"Ticket7", by decide⟩⟩

theorem apiName_of_newTicketType {apiName : String} {objectType : ObjectTypeId}
    (h : (if apiName = "Ticket7" then some newTicketTypeId else none) = some objectType) :
    objectType.apiName.val = apiName := by
  obtain ⟨rfl, ⟨⟩⟩ := Option.ite_none_right_eq_some.mp h
  rfl

theorem apiName_of_missing_linkType {apiName : String} {linkType : LinkTypeRow}
    (h : none = some linkType) : linkType.apiName.val = apiName := by simp at h

def newTicketOntology : Ontology where
  activeObjectType apiName := if apiName = "Ticket7" then some newTicketTypeId else none
  linkType _ := none
  properties _ := []
  apiName_of_activeObjectType := @apiName_of_newTicketType
  apiName_of_linkType := @apiName_of_missing_linkType

def openTicketCall : CommitCall where
  env :=
    { repr := fun _ => "", digest := fun _ => "", nowAt := fun _ => "10:07", newIdAt := fun _ => "7" }
  ontology := newTicketOntology
  plan := { objectsToCreate := [⟨"op-7", "Ticket7", .str "T-7", ∅⟩] }
  policy := ⟨true⟩
  contractFingerprint := "sha256:7"
  activeActionTypeId := .ok "open-ticket-v1"
  authorization := .ok ()

/-- A worker loses its lease, and the worker that took over commits. -/
def takeoverHistory : List Event :=
  [.commit ⟨2, "worker-2", "lease-2", 2⟩ openTicketCall "10:07",
    .claim ⟨"worker-2", "lease-2", "10:12", "10:06", false⟩,
    .claim ⟨"worker-1", "lease-1", "10:05", "10:00", false⟩]

/-- The state that the takeover leads to, with the one it began in. -/
def takenOver : Option (State × State) :=
  (insertRun botContext openTicketRun Store.empty).bind fun s₀ =>
    (replay (next botContext openTicketRun) s₀ takeoverHistory).map fun s => (s₀, s)

theorem committedOnce_takeoverHistory :
    ∃ s₀ s, s.status? botContext openTicketRun = some .succeeded ∧
      Superseded s ⟨1, "worker-1", "lease-1", 1⟩ ∧
      CommittedOnce botContext openTicketRun s₀ takeoverHistory s := by
  have hends : takenOver.any (fun p => decide (p.2.status? botContext openTicketRun =
      some .succeeded) && (p.2.attempts.get? 2).isSome) = true := by decide +kernel
  cases htaken : takenOver with
  | none =>
    rw [htaken] at hends
    nomatch hends
  | some p =>
    rw [htaken, Option.any_some, Bool.and_eq_true, decide_eq_true_eq] at hends
    rw [takenOver, Option.bind_eq_some_iff] at htaken
    obtain ⟨s₀, h₀, htaken⟩ := htaken
    rw [Option.map_eq_some_iff] at htaken
    obtain ⟨s, hreplay, rfl⟩ := htaken
    exact ⟨s₀, s, hends.1, ⟨2, by decide, hends.2⟩,
      committedOnce_of_run h₀ (run_always_iff.mpr hreplay)⟩

theorem runningLatest_takeoverHistory :
    ∃ s : State, (s.attempts.get? 2).isSome ∧ RunningLatest s.attempts := by
  have hlatest := runningLatest_of_run
    (show insertRun botContext openTicketRun Store.empty = some _ from rfl)
    (run_always_iff.mpr (show replay _ _ takeoverHistory.tail = some _ from rfl))
  exact ⟨_, rfl, hlatest⟩

end Takeover

end AsyncRuns

end FoundryLite.Actions
