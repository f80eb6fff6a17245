import FoundryLite.Pipeline.NodeAttempts

/-!
# Attempts of a node are fenced

An outcome moves the node only if the node is at that attempt (`updateNodeAfterAttempt`), but the
scheduling of a retry moves it whatever attempt it is at. A retry that comes late, for an attempt
that failed before the one that is running, takes the running node to `RETRY_WAIT`; the attempt then
succeeds and the node does not, and is claimed once more (`not_fenced`).

`RetriesLatest` excludes just that. Under it the row of the node and the row of its latest attempt
agree at any time (`Agrees`), and the attempts before it are neither running nor succeeded.
-/

namespace FoundryLite.Pipeline

open FoundryLite.Runtime Runs

namespace NodeAttempts

/-! ### What an event does -/

theorem updateAttempt_eq_some_iff {attempts attempts' : NodeAttempts} {n : ℕ}
    {update : NodeAttempt → Option NodeAttempt} :
    updateAttempt attempts n update = some attempts' ↔
      ∃ a a', attempts.get? n = some a ∧ update a = some a' ∧ attempts' = attempts.insert n a' := by
  simp only [updateAttempt, Option.bind_eq_bind, Option.bind_eq_some_iff, Option.pure_def,
    Option.some.injEq]
  constructor
  · rintro ⟨a, ha, a', ha', rfl⟩
    exact ⟨a, a', ha, ha', rfl⟩
  · rintro ⟨a, a', ha, ha', rfl⟩
    exact ⟨a, ha, a', ha', rfl⟩

/-- The attempts of which the last was lost if it was running. -/
def LostLatest (attempts : NodeAttempts) (n : ℕ) (latest : NodeAttempt) (attempts' : NodeAttempts) :
    Prop :=
  latest.status ≠ .running ∧ attempts' = attempts ∨
    ∃ lost : NodeAttempt, lost.status = .lost ∧ lost.fencingToken = latest.fencingToken ∧
      attempts' = attempts.insert n lost

/-- What an event does. -/
inductive Step (s : State) : Event → State → Prop
  | claimFirst {token : String} {claim : NodeAttemptClaim} {node : NodeRun} :
      requireActive token s.run = true → s.attempts.last? = none →
      s.node.status ∈ [NodeRunStatus.pending, .ready, .running, .retryWait] →
      node.status = .running → node.attemptCount = 1 →
      Step s (.claim token claim) ⟨s.run, node, s.attempts.insert 1 (claimedAttempt claim 1)⟩
  | claimNext {token : String} {claim : NodeAttemptClaim} {node : NodeRun} {n : ℕ}
      {latest : NodeAttempt} {attempts : NodeAttempts} :
      requireActive token s.run = true → s.attempts.last? = some (n, latest) →
      s.node.status ∈ [NodeRunStatus.pending, .ready, .running, .retryWait] →
      LostLatest s.attempts n latest attempts → node.status = .running → node.attemptCount = n + 1 →
      Step s (.claim token claim)
        ⟨s.run, node, attempts.insert (n + 1) (claimedAttempt claim (latest.fencingToken + 1))⟩
  | heartbeat {lease : AttemptLease} {leaseExpiresAt heartbeatAt : String} {a a' : NodeAttempt} :
      s.attempts.get? lease.attemptNumber = some a → a'.status = a.status →
      a'.fencingToken = a.fencingToken →
      Step s (.heartbeat lease leaseExpiresAt heartbeatAt)
        ⟨s.run, s.node, s.attempts.insert lease.attemptNumber a'⟩
  | complete {token : String} {lease : AttemptLease} {outcome : AttemptOutcome}
      {errorKind : Option String} {completedAt : String} {a a' : NodeAttempt} :
      requireActive token s.run = true → s.attempts.get? lease.attemptNumber = some a →
      a.status = .running → a'.status = outcome.attemptTransition.toStatus →
      a'.fencingToken = a.fencingToken →
      Step s (.complete token lease outcome errorKind completedAt)
        ⟨s.run, updateNodeAfterAttempt lease.attemptNumber outcome completedAt s.node,
          s.attempts.insert lease.attemptNumber a'⟩
  | scheduleRetry {n fencingToken : ℕ} {retryAt errorKind : String} {a a' : NodeAttempt}
      {node : NodeRun} :
      s.attempts.get? n = some a → a.status = .failed → a'.status = .failed →
      a'.fencingToken = a.fencingToken → node.attemptCount = s.node.attemptCount →
      (s.node.status ∈ [NodeRunStatus.running, .failed] ∧ node.status = .retryWait ∨
        s.node.status ∉ [NodeRunStatus.running, .failed] ∧ node = s.node) →
      Step s (.scheduleRetry n fencingToken retryAt errorKind) ⟨s.run, node, s.attempts.insert n a'⟩
  | cancelNode {workerId externalExecutionId completedAt : String} {n : ℕ} {a a' : NodeAttempt}
      {node : NodeRun} :
      s.node.status = .running → s.attempts.last? = some (n, a) → a'.status = .cancelled →
      a'.fencingToken = a.fencingToken → node.status = .cancelled → node.attemptCount = s.node.attemptCount →
      Step s (.cancelNode workerId externalExecutionId completedAt)
        ⟨s.run, node, s.attempts.insert n a'⟩
  | claimRun {token expiresAt heartbeatAt : String} {run : PipelineRun} :
      ¬ wasCancelling s.run →
      Step s (.claimRun token expiresAt heartbeatAt) { s with run }
  | cancelRun {completedAt : String} {run : PipelineRun} {node : NodeRun} :
      wasCancelling run → node.attemptCount = s.node.attemptCount →
      node.status = .cancelled ∧ s.node.status ≠ .succeeded ∨
        node.status = s.node.status ∧ s.node.status ≠ .running →
      Step s (.cancelRun completedAt) ⟨run, node, s.attempts⟩
  | endRun {transition : StatusTransition PipelineRunStatus} {run : PipelineRun} :
      wasCancelling run → Step s (.endRun transition) { s with run }

variable {s t : State} {e : Event}

theorem not_wasCancelling_of_requireActive {token : String} {run : PipelineRun}
    (h : requireActive token run = true) : ¬ wasCancelling run := by
  rw [requireActive, Bool.and_eq_true, decide_eq_true_eq] at h
  have hstatus : run.status = .running ∨ run.status = .executing := by simpa using h.1
  rcases hstatus with hstatus | hstatus <;> simp [wasCancelling, hstatus]

theorem getD_casStatusUpdate (transition : StatusTransition NodeRunStatus) (node : NodeRun)
    (conditions : Bool) (values : NodeRunStatus → NodeRun) :
    (node.status ∈ transition.fromStatuses ∧ conditions = true ∧
        (casStatusUpdate transition node.status conditions values).getD node =
          values transition.toStatus) ∨
      (¬ (node.status ∈ transition.fromStatuses ∧ conditions = true) ∧
        (casStatusUpdate transition node.status conditions values).getD node = node) := by
  by_cases hmatches : node.status ∈ transition.fromStatuses ∧ conditions = true
  · exact .inl ⟨hmatches.1, hmatches.2, by simp [casStatusUpdate, hmatches]⟩
  · exact .inr ⟨hmatches, by simp only [casStatusUpdate, if_neg hmatches, Option.getD_none]⟩

theorem lostLatest_updateAttempt {attempts : NodeAttempts} {n : ℕ} {latest : NodeAttempt}
    {lostAt : String} (h : attempts.get? n = some latest) :
    LostLatest attempts n latest
      ((updateAttempt attempts n (markAttemptLost lostAt)).getD attempts) := by
  cases hupdate : updateAttempt attempts n (markAttemptLost lostAt) with
  | none =>
    refine .inl ⟨fun hrunning => ?_, rfl⟩
    have hlost : ∃ lost, markAttemptLost lostAt latest = some lost :=
      ⟨_, casStatusUpdate_eq_some_iff.mpr ⟨by simp [hrunning, nodeAttemptLost], rfl, rfl⟩⟩
    obtain ⟨lost, hlost⟩ := hlost
    rw [updateAttempt_eq_some_iff.mpr ⟨latest, lost, h, hlost, rfl⟩] at hupdate
    exact absurd hupdate (by simp)
  | some attempts' =>
    obtain ⟨a, lost, ha, hlost, rfl⟩ := updateAttempt_eq_some_iff.mp hupdate
    obtain rfl := Option.some.inj (h.symm.trans ha)
    obtain ⟨-, -, hlost⟩ := casStatusUpdate_eq_some_iff.mp hlost
    exact .inr ⟨lost, by rw [← hlost]; rfl, by rw [← hlost], rfl⟩

theorem step_of_next (h : next s e = some t) : Step s e t := by
  cases e with
  | claim token claim =>
    obtain ⟨hactive, h⟩ := Option.ite_none_right_eq_some.mp h
    obtain ⟨⟨node, attempts⟩, hclaim, rfl⟩ := Option.map_eq_some_iff.mp h
    obtain ⟨hstatus, hclaim⟩ := Option.ite_none_right_eq_some.mp hclaim
    obtain ⟨⟨n, fencingToken, attempts⟩, hnext, hclaim⟩ := Option.bind_eq_some_iff.mp hclaim
    obtain ⟨node, hnode, ⟨⟩⟩ := Option.bind_eq_some_iff.mp hclaim
    obtain ⟨-, -, rfl⟩ := casStatusUpdate_eq_some_iff.mp hnode
    rw [nextAttemptCoordinates] at hnext
    cases hlast : s.attempts.last? with
    | none =>
      simp only [hlast] at hnext
      obtain ⟨⟩ := hnext
      exact .claimFirst hactive hlast hstatus rfl rfl
    | some latest =>
      obtain ⟨latestNumber, latest⟩ := latest
      simp only [hlast] at hnext
      obtain ⟨-, ⟨⟩⟩ := Option.ite_none_right_eq_some.mp hnext
      exact .claimNext hactive hlast hstatus
        (lostLatest_updateAttempt (Dict.get?_of_last? hlast)) rfl rfl
  | heartbeat lease leaseExpiresAt heartbeatAt =>
    obtain ⟨attempts, hupdate, rfl⟩ := Option.map_eq_some_iff.mp h
    obtain ⟨a, a', ha, ha', rfl⟩ := updateAttempt_eq_some_iff.mp hupdate
    obtain ⟨-, ⟨⟩⟩ := Option.ite_none_right_eq_some.mp ha'
    exact .heartbeat ha rfl rfl
  | complete token lease outcome errorKind completedAt =>
    obtain ⟨hactive, h⟩ := Option.ite_none_right_eq_some.mp h
    obtain ⟨⟨node, attempts⟩, hterminal, rfl⟩ := Option.map_eq_some_iff.mp h
    obtain ⟨attempts, hupdate, ⟨⟩⟩ := Option.bind_eq_some_iff.mp hterminal
    obtain ⟨a, a', ha, ha', rfl⟩ := updateAttempt_eq_some_iff.mp hupdate
    obtain ⟨hstatus, -, rfl⟩ := casStatusUpdate_eq_some_iff.mp ha'
    refine .complete hactive ha ?_ rfl rfl
    cases outcome <;> simpa [AttemptOutcome.attemptTransition, nodeAttemptSucceeded,
      nodeAttemptFailed] using hstatus
  | scheduleRetry n fencingToken retryAt errorKind =>
    obtain ⟨⟨node, attempts⟩, hretry, rfl⟩ := Option.map_eq_some_iff.mp h
    obtain ⟨attempts, hupdate, ⟨⟩⟩ := Option.bind_eq_some_iff.mp hretry
    obtain ⟨a, a', ha, ha', rfl⟩ := updateAttempt_eq_some_iff.mp hupdate
    obtain ⟨⟨-, hfailed⟩, ⟨⟩⟩ := Option.ite_none_right_eq_some.mp ha'
    rcases getD_casStatusUpdate nodeRunRetryWait s.node true
      fun status => { s.node with status, completedAt := none }
      with ⟨hmem, -, hnode⟩ | ⟨hmem, hnode⟩
    · exact .scheduleRetry ha hfailed hfailed rfl (by rw [hnode]) (.inl ⟨hmem, by rw [hnode]; rfl⟩)
    · exact .scheduleRetry ha hfailed hfailed rfl (by rw [hnode])
        (.inr ⟨fun hmem' => hmem ⟨hmem', rfl⟩, hnode⟩)
  | cancelNode workerId externalExecutionId completedAt =>
    obtain ⟨-, h⟩ := Option.ite_none_right_eq_some.mp h
    obtain ⟨⟨node, attempts⟩, hcancel, rfl⟩ := Option.map_eq_some_iff.mp h
    obtain ⟨hrunning, hcancel⟩ := Option.ite_none_right_eq_some.mp hcancel
    obtain ⟨⟨n, latest⟩, hlast, hcancel⟩ := Option.bind_eq_some_iff.mp hcancel
    obtain ⟨attempts, hupdate, ⟨⟩⟩ := Option.bind_eq_some_iff.mp hcancel
    obtain ⟨a, a', ha, ha', rfl⟩ := updateAttempt_eq_some_iff.mp hupdate
    obtain rfl := Option.some.inj ((Dict.get?_of_last? hlast).symm.trans ha)
    obtain ⟨-, ha'⟩ := Option.ite_none_right_eq_some.mp ha'
    obtain ⟨-, -, rfl⟩ := casStatusUpdate_eq_some_iff.mp ha'
    have hnode : Pipeline.cancelNode completedAt s.node =
        { s.node with status := .cancelled, completedAt := some completedAt } := by
      simp [Pipeline.cancelNode, casStatusUpdate, nodeRunCancelled, hrunning]
    exact .cancelNode hrunning hlast rfl rfl (by rw [hnode]) (by rw [hnode])
  | claimRun token expiresAt heartbeatAt =>
    obtain ⟨run, hclaim, rfl⟩ := Option.map_eq_some_iff.mp h
    rw [claimRunExecution] at hclaim
    obtain ⟨hstatus, -⟩ := casStatusUpdate_eq_some_iff.mp hclaim
    refine .claimRun fun hcancelling => ?_
    cases hrun : s.run.status <;>
      simp [wasCancelling, pipelineRunRunning, hrun] at hcancelling hstatus
  | cancelRun completedAt =>
    obtain ⟨run, hcancel, rfl⟩ := Option.map_eq_some_iff.mp h
    obtain ⟨-, -, rfl⟩ := casStatusUpdate_eq_some_iff.mp hcancel
    rcases getD_casStatusUpdate nodeRunCancelled s.node true
      fun status => { s.node with status, completedAt := some completedAt }
      with ⟨hmem, -, hnode⟩ | ⟨hmem, hnode⟩
    · refine .cancelRun (by simp [wasCancelling, pipelineRunCancelling])
        (by rw [Pipeline.cancelNode, hnode]) (.inl ⟨by rw [Pipeline.cancelNode, hnode]; rfl, ?_⟩)
      intro hsucceeded
      simp [nodeRunCancelled, hsucceeded] at hmem
    · refine .cancelRun (by simp [wasCancelling, pipelineRunCancelling])
        (by rw [Pipeline.cancelNode, hnode]) (.inr ⟨by rw [Pipeline.cancelNode, hnode], ?_⟩)
      intro hrunning
      simp [nodeRunCancelled, hrunning] at hmem
  | endRun transition =>
    obtain ⟨htransition, h⟩ := Option.ite_none_right_eq_some.mp h
    obtain ⟨run, hend, rfl⟩ := Option.map_eq_some_iff.mp h
    obtain ⟨-, -, rfl⟩ := casStatusUpdate_eq_some_iff.mp hend
    refine .endRun ?_
    simp only [runTerminalTransitions, List.mem_cons, List.not_mem_nil, or_false] at htransition
    rcases htransition with rfl | rfl | rfl | rfl | rfl | rfl | rfl <;> simp [wasCancelling]

/-! ### The attempts are numbered -/

/-- The attempts are those from `1` to the count of the node, each with its number for a token. -/
structure Numbered (attempts : NodeAttempts) (count : ℕ) : Prop where
  isSome_iff : ∀ n, (attempts.get? n).isSome ↔ 1 ≤ n ∧ n ≤ count
  fencingToken_eq : ∀ n a, attempts.get? n = some a → a.fencingToken = n

theorem numbered_empty : Numbered ∅ 0 :=
  ⟨fun n => by simp only [Dict.get?_empty]; simp; omega, fun n a ha => by simp at ha⟩

theorem Numbered.insert_same {attempts : NodeAttempts} {count n : ℕ} {a a' : NodeAttempt}
    (h : Numbered attempts count) (ha : attempts.get? n = some a)
    (htoken : a'.fencingToken = a.fencingToken) : Numbered (attempts.insert n a') count := by
  refine ⟨fun m => ?_, fun m b hb => ?_⟩
  · rw [Dict.get?_insert, ← h.isSome_iff m]
    split_ifs with hm
    · rw [hm, ha]
      simp
    · rfl
  · rcases Dict.insert_eq_some hb with ⟨hm, rfl⟩ | ⟨-, hb⟩
    · rw [htoken, hm, h.fencingToken_eq n a ha]
    · exact h.fencingToken_eq m b hb

theorem Numbered.insert_next {attempts : NodeAttempts} {count : ℕ} {a : NodeAttempt}
    (h : Numbered attempts count) (htoken : a.fencingToken = count + 1) :
    Numbered (attempts.insert (count + 1) a) (count + 1) := by
  refine ⟨fun m => ?_, fun m b hb => ?_⟩
  · rw [Dict.get?_insert]
    split_ifs with hm
    · simp [hm]
    · rw [h.isSome_iff m]
      omega
  · rcases Dict.insert_eq_some hb with ⟨hm, rfl⟩ | ⟨-, hb⟩
    · rw [htoken, hm]
    · exact h.fencingToken_eq m b hb

theorem Numbered.count_eq_zero {attempts : NodeAttempts} {count : ℕ} (h : Numbered attempts count)
    (hlast : attempts.last? = none) : count = 0 := by
  by_contra hcount
  have hone := (h.isSome_iff 1).mpr ⟨le_rfl, by omega⟩
  rw [Dict.last?_eq_none_iff.mp hlast 1] at hone
  exact absurd hone (by simp)

theorem Numbered.count_eq {attempts : NodeAttempts} {count n : ℕ} {a : NodeAttempt}
    (h : Numbered attempts count) (hlast : attempts.last? = some (n, a)) : n = count := by
  obtain ⟨hn, hmax⟩ := Dict.last?_eq_some_iff.mp hlast
  obtain ⟨hone, hle⟩ := (h.isSome_iff n).mp (Option.isSome_of_eq_some hn)
  exact le_antisymm hle (hmax count ((h.isSome_iff count).mpr ⟨by omega, le_rfl⟩))

theorem Numbered.lost {attempts attempts' : NodeAttempts} {count n : ℕ} {latest : NodeAttempt}
    (h : Numbered attempts count) (hlast : attempts.last? = some (n, latest))
    (hlost : LostLatest attempts n latest attempts') : Numbered attempts' count := by
  rcases hlost with ⟨-, rfl⟩ | ⟨lost, -, htoken, rfl⟩
  · exact h
  · exact h.insert_same (Dict.get?_of_last? hlast) htoken

/-- The attempt is the latest at the node. -/
def IsLatest (s : State) (n : ℕ) : Prop := ∃ a, s.attempts.last? = some (n, a)

theorem Numbered.isLatest_count {n : ℕ} {a : NodeAttempt} {s : State}
    (h : Numbered s.attempts s.node.attemptCount) (ha : s.attempts.get? n = some a)
    (hn : n = s.node.attemptCount) : IsLatest s n := by
  refine ⟨a, Dict.last?_eq_some_iff.mpr ⟨ha, fun m hm => ?_⟩⟩
  rw [hn]
  exact ((h.isSome_iff m).mp hm).2

theorem updateNodeAfterAttempt_attemptCount {n : ℕ} {outcome : AttemptOutcome}
    {completedAt : String} {node : NodeRun} :
    (updateNodeAfterAttempt n outcome completedAt node).attemptCount = node.attemptCount := by
  rcases getD_casStatusUpdate outcome.nodeTransition node (decide (node.attemptCount = n))
    fun status => { node with status, completedAt := some completedAt }
    with ⟨-, -, hnode⟩ | ⟨-, hnode⟩ <;> rw [updateNodeAfterAttempt, hnode]

theorem Step.numbered (h : Step s e t) (hs : Numbered s.attempts s.node.attemptCount) :
    Numbered t.attempts t.node.attemptCount := by
  cases h with
  | @claimFirst token claim node hactive hlast hclaimable hstatus hcount =>
    have hzero := hs.count_eq_zero hlast
    rw [hzero] at hs
    simp only [hcount]
    exact hs.insert_next rfl
  | @claimNext token claim node n latest attempts hactive hlast hclaimable hlost hstatus hcount =>
    have htoken := hs.fencingToken_eq n latest (Dict.get?_of_last? hlast)
    obtain rfl := hs.count_eq hlast
    simp only [hcount]
    exact (hs.lost hlast hlost).insert_next (by rw [claimedAttempt, htoken])
  | heartbeat ha hstatus htoken => exact hs.insert_same ha htoken
  | complete hactive ha hrunning hstatus htoken =>
    simp only [updateNodeAfterAttempt_attemptCount]
    exact hs.insert_same ha htoken
  | scheduleRetry ha hfailed hfailed' htoken hcount hnode =>
    simp only [hcount]
    exact hs.insert_same ha htoken
  | cancelNode hrunning hlast hcancelled htoken hstatus hcount =>
    simp only [hcount]
    exact hs.insert_same (Dict.get?_of_last? hlast) htoken
  | claimRun hrun => exact hs
  | cancelRun hrun hcount hnode => simpa only [hcount] using hs
  | endRun hrun => exact hs

/-! ### The node and its latest attempt -/

/-- The retry of an attempt moves the node only if it is the latest. -/
def RetriesLatest (s : State) : Event → Prop
  | .scheduleRetry n _ _ _ =>
    s.node.status ∈ [NodeRunStatus.running, .failed] → IsLatest s n
  | _ => True

/-- What the attempts say of the node. A node whose run is being cancelled may be cancelled while
its attempt is still running. -/
structure Agrees (s : State) : Prop where
  earlier : ∀ n a, s.attempts.get? n = some a → n ≠ s.node.attemptCount →
    a.status ≠ .running ∧ a.status ≠ .succeeded
  running : ∀ a, s.attempts.get? s.node.attemptCount = some a → a.status = .running →
    s.node.status = .running ∨ wasCancelling s.run
  succeeded : ∀ a, s.attempts.get? s.node.attemptCount = some a → a.status = .succeeded →
    s.node.status = .succeeded

structure Inv (s : State) : Prop where
  numbered : Numbered s.attempts s.node.attemptCount
  agrees : Agrees s

theorem Inv.initial (run : PipelineRun) : Inv (.initial run) :=
  ⟨numbered_empty, ⟨fun n a ha => by simp [State.initial] at ha,
    fun a ha => by simp [State.initial] at ha, fun a ha => by simp [State.initial] at ha⟩⟩

theorem Agrees.eq_count (h : Agrees s) {n : ℕ} {a : NodeAttempt} (ha : s.attempts.get? n = some a)
    (hstatus : a.status = .running ∨ a.status = .succeeded) : n = s.node.attemptCount := by
  by_contra hn
  obtain ⟨hrunning, hsucceeded⟩ := h.earlier n a ha hn
  exact hstatus.elim hrunning hsucceeded

theorem Agrees.node_succeeded (h : Agrees s) {n : ℕ} {a : NodeAttempt}
    (ha : s.attempts.get? n = some a) (hstatus : a.status = .succeeded) :
    s.node.status = .succeeded := by
  obtain rfl := h.eq_count ha (.inr hstatus)
  exact h.succeeded a ha hstatus

/-- A change of the latest attempt, and of the node and the run with it. -/
theorem Agrees.insert_count (h : Agrees s) {a' : NodeAttempt} {node : NodeRun} {run : PipelineRun}
    (hcount : node.attemptCount = s.node.attemptCount)
    (hrunning : a'.status = .running → node.status = .running ∨ wasCancelling run)
    (hsucceeded : a'.status = .succeeded → node.status = .succeeded) :
    Agrees ⟨run, node, s.attempts.insert s.node.attemptCount a'⟩ := by
  refine ⟨fun n a ha hn => ?_, fun a ha => ?_, fun a ha => ?_⟩
  · simp only [hcount] at hn
    simp only [Dict.get?_insert, if_neg hn] at ha
    exact h.earlier n a ha hn
  · simp only [hcount, Dict.get?_insert, if_true] at ha
    obtain rfl := Option.some.inj ha
    exact hrunning
  · simp only [hcount, Dict.get?_insert, if_true] at ha
    obtain rfl := Option.some.inj ha
    exact hsucceeded

/-- A change of an earlier attempt that leaves the node alone. -/
theorem Agrees.insert_earlier (h : Agrees s) {n : ℕ} {a' : NodeAttempt}
    (hn : n ≠ s.node.attemptCount) (hstatus : a'.status ≠ .running ∧ a'.status ≠ .succeeded) :
    Agrees ⟨s.run, s.node, s.attempts.insert n a'⟩ := by
  refine ⟨fun m a ha hm => ?_, fun a ha => ?_, fun a ha => ?_⟩
  · rcases Dict.insert_eq_some ha with ⟨-, rfl⟩ | ⟨-, ha⟩
    · exact hstatus
    · exact h.earlier m a ha hm
  · simp only [Dict.get?_insert, if_neg hn.symm] at ha
    exact h.running a ha
  · simp only [Dict.get?_insert, if_neg hn.symm] at ha
    exact h.succeeded a ha

/-- A claim: no attempt before it is running, or succeeded. -/
theorem agrees_claimed {run : PipelineRun} {node : NodeRun} {attempts : NodeAttempts}
    {claim : NodeAttemptClaim} {fencingToken : ℕ} (hrunning : node.status = .running)
    (hearlier : ∀ n a, attempts.get? n = some a → a.status ≠ .running ∧ a.status ≠ .succeeded) :
    Agrees ⟨run, node, attempts.insert node.attemptCount (claimedAttempt claim fencingToken)⟩ := by
  refine ⟨fun n a ha hn => ?_, fun a _ _ => .inl hrunning, fun a ha hstatus => ?_⟩
  · simp only [Dict.get?_insert, if_neg hn] at ha
    exact hearlier n a ha
  · simp only [Dict.get?_insert, if_true] at ha
    obtain rfl := Option.some.inj ha
    exact absurd hstatus (by simp [claimedAttempt])

/-- No attempt is left running, or succeeded, where the node can be claimed. -/
theorem Inv.idle_of_lost (h : Inv s) {n : ℕ} {latest : NodeAttempt} {attempts : NodeAttempts}
    (hlast : s.attempts.last? = some (n, latest)) (hnode : s.node.status ≠ .succeeded)
    (hlost : LostLatest s.attempts n latest attempts) (m : ℕ) (a : NodeAttempt)
    (ha : attempts.get? m = some a) : a.status ≠ .running ∧ a.status ≠ .succeeded := by
  obtain rfl := h.numbered.count_eq hlast
  rcases hlost with ⟨hlatest, rfl⟩ | ⟨lost, hstatus, -, rfl⟩
  · by_cases hm : m = s.node.attemptCount
    · subst hm
      obtain rfl := Option.some.inj ((Dict.get?_of_last? hlast).symm.trans ha)
      exact ⟨hlatest, fun hsucceeded => hnode (h.agrees.succeeded latest ha hsucceeded)⟩
    · exact h.agrees.earlier m a ha hm
  · rcases Dict.insert_eq_some ha with ⟨-, rfl⟩ | ⟨hm, ha⟩
    · simp [hstatus]
    · exact h.agrees.earlier m a ha hm

theorem updateNodeAfterAttempt_of_running {outcome : AttemptOutcome} {completedAt : String}
    {node : NodeRun} (h : node.status = .running) :
    (updateNodeAfterAttempt node.attemptCount outcome completedAt node).status =
      outcome.nodeTransition.toStatus := by
  cases outcome <;> simp [updateNodeAfterAttempt, AttemptOutcome.nodeTransition, casStatusUpdate,
    nodeRunSucceeded, nodeRunFailed, h]

theorem Step.agrees (h : Step s e t) (hC : RetriesLatest s e) (hs : Inv s) : Agrees t := by
  cases h with
  | @claimFirst token claim node hactive hlast hclaimable hstatus hcount =>
    rw [← hcount]
    refine agrees_claimed hstatus fun n a ha => ?_
    rw [Dict.last?_eq_none_iff.mp hlast n] at ha
    exact absurd ha (by simp)
  | @claimNext token claim node n latest attempts hactive hlast hclaimable hlost hstatus hcount =>
    rw [← hcount]
    refine agrees_claimed hstatus (hs.idle_of_lost hlast (fun hsucceeded => ?_) hlost)
    simp [hsucceeded] at hclaimable
  | @heartbeat lease leaseExpiresAt heartbeatAt a a' ha hstatus htoken =>
    by_cases hn : lease.attemptNumber = s.node.attemptCount
    · rw [hn] at ha ⊢
      exact hs.agrees.insert_count rfl (fun h => hs.agrees.running a ha (hstatus ▸ h))
        (fun h => hs.agrees.succeeded a ha (hstatus ▸ h))
    · exact hs.agrees.insert_earlier hn (hstatus ▸ hs.agrees.earlier _ a ha hn)
  | @complete token lease outcome errorKind completedAt a a' hactive ha hrunning hstatus htoken =>
    have hn := hs.agrees.eq_count ha (.inl hrunning)
    rw [hn] at ha ⊢
    have hnode := (hs.agrees.running a ha hrunning).resolve_right
      (not_wasCancelling_of_requireActive hactive)
    refine hs.agrees.insert_count updateNodeAfterAttempt_attemptCount ?_ ?_
    · intro h
      cases outcome <;> simp [hstatus, AttemptOutcome.attemptTransition, nodeAttemptSucceeded,
        nodeAttemptFailed] at h
    · intro h
      rw [updateNodeAfterAttempt_of_running hnode]
      cases outcome with
      | succeeded => rfl
      | failed =>
        simp [hstatus, AttemptOutcome.attemptTransition, nodeAttemptFailed] at h
  | @scheduleRetry n fencingToken retryAt errorKind a a' node ha hfailed hfailed' htoken hcount
      hnode =>
    by_cases hn : n = s.node.attemptCount
    · rw [hn]
      exact hs.agrees.insert_count hcount (by simp [hfailed']) (by simp [hfailed'])
    · rcases hnode with ⟨hmem, -⟩ | ⟨-, rfl⟩
      · obtain ⟨latest, hlast⟩ := hC hmem
        exact absurd (hs.numbered.count_eq hlast) hn
      · exact hs.agrees.insert_earlier hn (by simp [hfailed'])
  | @cancelNode workerId externalExecutionId completedAt n a a' node hrunning hlast hcancelled htoken
      hstatus hcount =>
    obtain rfl := hs.numbered.count_eq hlast
    exact hs.agrees.insert_count hcount (by simp [hcancelled]) (by simp [hcancelled])
  | claimRun hrun =>
    exact ⟨hs.agrees.earlier, fun a ha h => .inl ((hs.agrees.running a ha h).resolve_right hrun),
      hs.agrees.succeeded⟩
  | @cancelRun completedAt run node hrun hcount hnode =>
    refine ⟨by simpa only [hcount] using hs.agrees.earlier, fun _ _ _ => .inr hrun, fun a ha h => ?_⟩
    simp only [hcount] at ha
    have hsucceeded := hs.agrees.succeeded a ha h
    rcases hnode with ⟨-, hne⟩ | ⟨heq, -⟩
    · exact absurd hsucceeded hne
    · exact heq.trans hsucceeded
  | endRun hrun =>
    exact ⟨hs.agrees.earlier, fun _ _ _ => .inr hrun, hs.agrees.succeeded⟩

theorem Inv.step (hs : Inv s) (hC : RetriesLatest s e) (h : next s e = some t) : Inv t :=
  ⟨(step_of_next h).numbered hs.numbered, (step_of_next h).agrees hC hs⟩

theorem inv_of_run {run : PipelineRun} {history : List Event}
    (h : Run next RetriesLatest (.initial run) history s) : Inv s :=
  h.invariant (Inv.initial run) fun _ _ _ hC hnext hs => hs.step hC hnext

/-! ### Whole runs -/

/-- The attempt whose outcome, or whose retry, an event reports. -/
def Event.reportedAttempt? : Event → Option ℕ
  | .complete _ lease _ _ _ => some lease.attemptNumber
  | .scheduleRetry n _ _ _ => some n
  | _ => none

/-- Only what is reported of the latest attempt changes the node. -/
def StepFenced (s : State) (e : Event) (t : State) : Prop :=
  ∀ n, e.reportedAttempt? = some n → t.node.status ≠ s.node.status → IsLatest s n

/-- The attempts at a node are fenced: in this state, and in what can follow it under the
condition. -/
structure Fenced (C : State → Event → Prop) (s : State) : Prop where
  at_most_one : ∀ m n a b, s.attempts.get? m = some a → s.attempts.get? n = some b →
    a.status = .running → b.status = .running → m = n
  fencingToken_lt : ∀ m n a b, s.attempts.get? m = some a → s.attempts.get? n = some b → m < n →
    a.fencingToken < b.fencingToken
  node_succeeded : ∀ n a, s.attempts.get? n = some a → a.status = .succeeded →
    s.node.status = .succeeded
  not_claimed : ∀ n a, s.attempts.get? n = some a → a.status = .succeeded →
    ∀ later t, Run next C s later t → ∀ token claim, .claim token claim ∉ later

theorem updateNodeAfterAttempt_of_not_running {n : ℕ} {outcome : AttemptOutcome}
    {completedAt : String} {node : NodeRun} (h : node.status ≠ .running) :
    updateNodeAfterAttempt n outcome completedAt node = node := by
  cases outcome <;> simp [updateNodeAfterAttempt, AttemptOutcome.nodeTransition, casStatusUpdate,
    nodeRunSucceeded, nodeRunFailed, h]

/-- A node that succeeded stays so, whatever happens. -/
theorem Step.node_succeeded (h : Step s e t) (hs : s.node.status = .succeeded) :
    t.node.status = .succeeded := by
  cases h with
  | claimFirst hactive hlast hclaimable hstatus hcount => simp [hs] at hclaimable
  | claimNext hactive hlast hclaimable hlost hstatus hcount => simp [hs] at hclaimable
  | complete hactive ha hrunning hstatus htoken =>
    rw [updateNodeAfterAttempt_of_not_running (by simp [hs])]
    exact hs
  | scheduleRetry ha hfailed hfailed' htoken hcount hnode =>
    rcases hnode with ⟨hmem, -⟩ | ⟨-, rfl⟩
    · simp [hs] at hmem
    · exact hs
  | cancelNode hrunning hlast hcancelled htoken hstatus hcount =>
    exact absurd (hs.symm.trans hrunning) (by decide)
  | cancelRun hrun hcount hnode =>
    rcases hnode with ⟨-, hne⟩ | ⟨heq, -⟩
    · exact absurd hs hne
    · exact heq.trans hs
  | heartbeat ha hstatus htoken => exact hs
  | claimRun hrun => exact hs
  | endRun hrun => exact hs

theorem next_claim_of_node_succeeded {token : String} {claim : NodeAttemptClaim}
    (hs : s.node.status = .succeeded) : next s (.claim token claim) ≠ some t := by
  intro hnext
  cases step_of_next hnext with
  | claimFirst hactive hlast hclaimable hstatus hcount => simp [hs] at hclaimable
  | claimNext hactive hlast hclaimable hlost hstatus hcount => simp [hs] at hclaimable

theorem Inv.fenced {C : State → Event → Prop} (h : Inv s) : Fenced C s where
  at_most_one m n a b ha hb hma hnb :=
    (h.agrees.eq_count ha (.inl hma)).trans (h.agrees.eq_count hb (.inl hnb)).symm
  fencingToken_lt m n a b ha hb hlt := by
    rwa [h.numbered.fencingToken_eq m a ha, h.numbered.fencingToken_eq n b hb]
  node_succeeded n a ha hstatus := h.agrees.node_succeeded ha hstatus
  not_claimed n a ha hstatus later t hrun token claim :=
    hrun.not_mem (P := fun s => s.node.status = .succeeded) (h.agrees.node_succeeded ha hstatus)
      (fun _ _ _ _ hnext hs => (step_of_next hnext).node_succeeded hs)
      (fun _ _ hs => next_claim_of_node_succeeded hs)

/-- **A step moves the node for the latest attempt only if and only if it meets the condition.** -/
theorem stepFenced_iff (hs : Inv s) (h : Step s e t) : StepFenced s e t ↔ RetriesLatest s e := by
  cases h with
  | @complete token lease outcome errorKind completedAt a a' hactive ha hrunning hstatus htoken =>
    refine iff_of_true (fun n hn _ => ?_) trivial
    obtain rfl := Option.some.inj hn
    exact hs.numbered.isLatest_count ha (hs.agrees.eq_count ha (.inl hrunning))
  | @scheduleRetry n fencingToken retryAt errorKind a a' node ha hfailed hfailed' htoken hcount
      hnode =>
    constructor
    · intro hfenced hmem
      rcases hnode with ⟨-, hwait⟩ | ⟨hnot, -⟩
      · refine hfenced n rfl fun heq => ?_
        rw [← heq, hwait] at hmem
        exact absurd hmem (by decide)
      · exact absurd hmem hnot
    · intro hlatest m hm hchange
      obtain rfl := Option.some.inj hm
      rcases hnode with ⟨hmem, -⟩ | ⟨-, rfl⟩
      · exact hlatest hmem
      · exact absurd rfl hchange
  | claimFirst | claimNext | heartbeat | cancelNode | claimRun | cancelRun | endRun =>
    exact iff_of_true (fun n hn => absurd hn (by simp [Event.reportedAttempt?])) trivial

/-- **The attempts are fenced in a run whose steps meet the condition, and the first step that does
not meet it changes the node for an attempt that is not the latest.** -/
theorem fenced_of_run {run : PipelineRun} {history : List Event}
    (h : Run next RetriesLatest (.initial run) history s) :
    Fenced RetriesLatest s ∧
      ∀ e t, next s e = some t → (StepFenced s e t ↔ RetriesLatest s e) := by
  have hs := inv_of_run h
  exact ⟨hs.fenced, fun e t hnext => stepFenced_iff hs (step_of_next hnext)⟩

/-- **In every run**, also where a retry comes late, the attempts are numbered and a node that has
succeeded stays so and is not claimed again. -/
theorem succeeded_for_good {run : PipelineRun} {history : List Event}
    (h : Run next Always (.initial run) history s) : Numbered s.attempts s.node.attemptCount ∧
      (s.node.status = .succeeded → ∀ later t, Run next Always s later t →
        t.node.status = .succeeded ∧ ∀ token claim, .claim token claim ∉ later) := by
  have hstays : ∀ (s : State) e t, Always s e → next s e = some t →
      s.node.status = .succeeded → t.node.status = .succeeded :=
    fun _ _ _ _ hnext hs => (step_of_next hnext).node_succeeded hs
  refine ⟨h.invariant (P := fun s => Numbered s.attempts s.node.attemptCount) numbered_empty
    fun _ _ _ _ hnext hs => (step_of_next hnext).numbered hs, fun hs later t hlater => ?_⟩
  exact ⟨hlater.invariant hs hstays, fun _ _ => hlater.not_mem
    (P := fun s => s.node.status = .succeeded) hs hstays fun _ _ hs => next_claim_of_node_succeeded hs⟩

/-! ### A retry that comes late -/

section LateRetry

/-- A run that a worker executes under a token. -/
def executingRun : PipelineRun := ⟨.executing, some "run-token", some "00:10:00"⟩

def workerClaim (workerId leaseToken heartbeatAt leaseExpiresAt : String) : NodeAttemptClaim :=
  ⟨workerId, leaseToken, leaseExpiresAt, heartbeatAt, none⟩

/-- The first attempt failed, its retry was scheduled and the second attempt began. -/
def retriedHistory : List Event :=
  [.claim "run-token" (workerClaim "worker-2" "lease-2" "00:00:03" "00:01:03"),
    .scheduleRetry 1 1 "00:00:03" "transient",
    .complete "run-token" ⟨1, "worker-1", "lease-1", 1⟩ .failed (some "transient") "00:00:02",
    .claim "run-token" (workerClaim "worker-1" "lease-1" "00:00:01" "00:01:01")]

def completion : Event :=
  .complete "run-token" ⟨2, "worker-2", "lease-2", 2⟩ .succeeded none "00:00:05"

/-- The retry of the first attempt is scheduled once more, before the second attempt succeeds. -/
def lateRetryHistory : List Event :=
  [completion, .scheduleRetry 1 1 "00:00:04" "transient"] ++ retriedHistory

/-- **An attempt succeeded and its node did not: the node is claimed once more.** -/
theorem not_fenced :
    ∃ s, Run next Always (.initial executingRun) lateRetryHistory s ∧
      (∃ a, s.attempts.get? 2 = some a ∧ a.status = .succeeded) ∧ s.node.status = .retryWait ∧
      (next s (.claim "run-token" (workerClaim "worker-3" "lease-3" "00:00:06" "00:01:06"))).isSome ∧
      ¬ Fenced Always s := by
  refine ⟨_, run_always_iff.mpr rfl, ⟨_, rfl, rfl⟩, rfl, by decide, fun h => ?_⟩
  exact absurd (h.node_succeeded 2 _ rfl rfl) (by decide)

/-- The attempts of the late retry are numbered, and without it the node succeeds for good. -/
theorem succeeded_for_good_lateRetry :
    (∃ s, Run next Always (.initial executingRun) lateRetryHistory s ∧ s.node.status = .retryWait ∧
      Numbered s.attempts s.node.attemptCount) ∧
    ∃ s, Run next Always (.initial executingRun) (completion :: retriedHistory) s ∧
      s.node.status = .succeeded ∧ ∀ later t, Run next Always s later t →
        t.node.status = .succeeded ∧ ∀ token claim, .claim token claim ∉ later := by
  have hlate : Run next Always (.initial executingRun) lateRetryHistory _ := run_always_iff.mpr rfl
  have hrun : Run next Always (.initial executingRun) (completion :: retriedHistory) _ :=
    run_always_iff.mpr rfl
  exact ⟨⟨_, hlate, rfl, (succeeded_for_good hlate).1⟩, _, hrun, rfl, (succeeded_for_good hrun).2 rfl⟩

theorem fenced_retriedHistory : ∃ s, Run next RetriesLatest (.initial executingRun) retriedHistory s ∧
    s.node.attemptCount = 2 ∧ Fenced RetriesLatest s ∧
      ∀ e t, next s e = some t → (StepFenced s e t ↔ RetriesLatest s e) := by
  have hfailed : Run next RetriesLatest (.initial executingRun) (retriedHistory.drop 2) _ :=
    ((Run.start).step trivial rfl).step trivial rfl
  have hretried : Run next RetriesLatest (.initial executingRun) (retriedHistory.drop 1) _ :=
    hfailed.step (fun _ => ⟨_, rfl⟩) rfl
  have hclaimed : Run next RetriesLatest (.initial executingRun) retriedHistory _ :=
    hretried.step trivial rfl
  exact ⟨_, hclaimed, rfl, fenced_of_run hclaimed⟩

end LateRetry

end NodeAttempts

end FoundryLite.Pipeline
