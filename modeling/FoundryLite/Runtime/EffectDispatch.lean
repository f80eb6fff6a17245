import FoundryLite.Runtime.EffectReceipts

/-!
# Effects are dispatched at most once while their outcome is unknown

A dispatch starts when `start_dispatch` commits, which is at once the last point at which a
cancellation can win; the call of the executor that follows belongs to that dispatch. Between the
starts of two dispatches the first of them was recorded in `retry_wait` by the worker it belongs to,
or an operator retried a dead letter (`Released`).

The reason is the fence. While a dispatch is in the row, the worker that holds the fence is either
the one that started it or one that took over and saw it, and the latter can only record that the
outcome is unknown. A claim moves the fence on, and a worker behind the fence changes nothing.
-/

namespace FoundryLite.Runtime

open Runs

/-! ### What the statements do -/

theorem claimReceipt_eq_some {claim : EffectClaim} {row row' : EffectReceipt}
    (h : claimReceipt claim row = some row') :
    isClaimable row claim.claimedAt claim.isReconciliation = true ∧
      row' = { row with
        status := .delivering, attemptCount := row.attemptCount + 1
        workerId := some claim.workerId, leaseToken := some claim.leaseToken
        leaseExpiresAt := some claim.leaseExpiresAt, fencingToken := row.fencingToken + 1
        retryAt := none } := by
  obtain ⟨hclaimable, hcas⟩ := Option.ite_none_right_eq_some.mp h
  obtain ⟨-, -, rfl⟩ := casStatusUpdate_eq_some_iff.mp hcas
  exact ⟨hclaimable, rfl⟩

theorem startDispatch_eq_some {lease : EffectLease} {startedAt : String} {row row' : EffectReceipt}
    (h : startDispatch lease startedAt row = some row') :
    row.status = .delivering ∧ lease.Matches row ∧ row.cancelRequestedAt = none ∧
      row.dispatchStartedAt = none ∧ row' = { row with dispatchStartedAt := some startedAt } := by
  obtain ⟨⟨hstatus, hmatches, hcancel, hdispatch⟩, ⟨⟩⟩ := Option.ite_none_right_eq_some.mp h
  exact ⟨hstatus, hmatches, hcancel, hdispatch, rfl⟩

/-- A request marks a dispatch that is under way, and otherwise cancels the receipt. -/
theorem requestCancel_eq_some {reason : Option String} {requestedAt : String}
    {row row' : EffectReceipt} (h : requestCancel reason requestedAt row = some row') :
    ¬ row.status.IsTerminal ∧
      ((row.status = .delivering ∧ row.dispatchStartedAt.isSome ∧
          row' = { row with cancelRequestedAt := some requestedAt, cancelReason := reason }) ∨
        row' = { row with
          status := .cancelled, cancelRequestedAt := some requestedAt, cancelReason := reason
          workerId := none, leaseToken := none, leaseExpiresAt := none
          fencingToken := row.fencingToken + 1, completedAt := some requestedAt }) := by
  obtain ⟨hterminal, h⟩ := Option.ite_none_left_eq_some.mp h
  refine ⟨hterminal, ?_⟩
  split_ifs at h with hdispatch
  · obtain rfl := Option.some.inj h
    exact .inl ⟨hdispatch.1, hdispatch.2, rfl⟩
  · obtain ⟨-, -, rfl⟩ := casStatusUpdate_eq_some_iff.mp h
    exact .inr rfl

theorem retryReceipt_eq_some {requestedAt : String} {row row' : EffectReceipt}
    (h : retryReceipt requestedAt row = some row') :
    row.phase = .afterCommit ∧ row.status = .deadLetter ∧ row' = { row with
      status := .retryWait, maxAttempts := row.attemptCount + 1, retryAt := some requestedAt
      workerId := none, leaseToken := none, leaseExpiresAt := none, dispatchStartedAt := none
      completedAt := none } := by
  obtain ⟨hphase, hcas⟩ := Option.ite_none_left_eq_some.mp h
  obtain ⟨hstatus, -, rfl⟩ := casStatusUpdate_eq_some_iff.mp hcas
  exact ⟨not_not.mp hphase, List.mem_singleton.mp hstatus, rfl⟩

/-- A reconciliation settles an unknown outcome and leaves the dispatch and the lease alone. -/
theorem reconcileReceipt_eq_some {resolution : EffectResolution} {evidence : Json}
    {externalId : Option String} {reconciledAt : String} {row row' : EffectReceipt}
    (h : reconcileReceipt resolution evidence externalId reconciledAt row = some row') :
    row.status = .outcomeUnknown ∧ ∃ status outcome, status ∈ [.succeeded, .deadLetter] ∧
      row' = { row with status, outcome, completedAt := some reconciledAt } := by
  cases resolution with
  | confirmedDelivered =>
    simp only [reconcileReceipt] at h
    obtain ⟨hstatus, -, rfl⟩ := casStatusUpdate_eq_some_iff.mp h
    exact ⟨List.mem_singleton.mp hstatus, .succeeded, _, by simp, rfl⟩
  | confirmedNotDelivered =>
    simp only [reconcileReceipt] at h
    obtain ⟨hstatus, -, rfl⟩ := casStatusUpdate_eq_some_iff.mp h
    exact ⟨List.mem_singleton.mp hstatus, .deadLetter, _, by simp, rfl⟩

theorem terminalTransition_toStatus {status : EffectStatus} {transition : StatusTransition EffectStatus}
    (h : terminalTransition status = some transition) :
    transition.toStatus = status ∧ status ≠ .delivering := by
  cases status <;> simp only [terminalTransition, reduceCtorEq, Option.some.injEq] at h <;>
    subst h <;> exact ⟨rfl, by simp⟩

theorem completeReceipt_eq_some {lease : EffectLease} {status : EffectStatus}
    {outcome : EffectOutcome} {retryAt : Option String} {completedAt : String}
    {row row' : EffectReceipt}
    (h : completeReceipt lease status outcome retryAt completedAt row = some row') :
    lease.Matches row ∧ (∃ expiresAt, row.leaseExpiresAt = some expiresAt ∧ completedAt ≤ expiresAt) ∧
      status ≠ .delivering ∧ row' = { row with
        status, outcome, retryAt
        dispatchStartedAt := if status = .retryWait then none else row.dispatchStartedAt
        completedAt := if status = .retryWait then none else some completedAt } := by
  obtain ⟨transition, htransition, hcas⟩ := Option.bind_eq_some_iff.mp h
  obtain ⟨-, hcurrent, rfl⟩ := casStatusUpdate_eq_some_iff.mp hcas
  obtain ⟨rfl, hdelivering⟩ := terminalTransition_toStatus htransition
  rw [Bool.and_eq_true, decide_eq_true_eq, Option.any_eq_true] at hcurrent
  obtain ⟨hmatches, expiresAt, hlease, hle⟩ := hcurrent
  exact ⟨hmatches, ⟨expiresAt, hlease, of_decide_eq_true hle⟩, hdelivering, rfl⟩

namespace Effects

/-- What an event does. -/
inductive Step (s : State) : Event → State → Prop
  | claim {call : ℕ} {claim : EffectClaim} {seen : Option String} {row : EffectReceipt} :
      s.deliveries call = none → claimReceipt claim s.receipt = some row →
      (claim.isReconciliation = true → s.receipt.phase = .beforeCommit) →
      Step s (.claim call claim seen)
        ⟨row, Function.update s.deliveries call (some (claimedDelivery claim seen row))⟩
  | giveUp {call : ℕ} {ending : Ending} {d : Delivery} :
      s.deliveries call = some d → mayGiveUp s.receipt.phase d ending = true →
      Step s (.giveUp call ending) (s.setStage call d (.ended ending))
  | startDispatch {call : ℕ} {startedAt : String} {d : Delivery} {row : EffectReceipt} :
      s.deliveries call = some d → d.stage = .claimed → d.dispatchStartedAt = none →
      Runtime.startDispatch d.lease startedAt s.receipt = some row →
      Step s (.startDispatch call startedAt) { s.setStage call d .dispatched with receipt := row }
  | execute {call : ℕ} {d : Delivery} :
      s.deliveries call = some d → d.stage = .dispatched →
      Step s (.execute call) (s.setStage call d .executing)
  | executorEnds {call : ℕ} {ending : Ending} {d : Delivery} :
      s.deliveries call = some d → d.stage = .executing →
      Step s (.executorEnds call ending) (s.setStage call d (.ended ending))
  | decide {call : ℕ} {retryAt : String} {d : Delivery} {ending : Ending} {status : EffectStatus}
      {retry : Option String} :
      s.deliveries call = some d → d.stage = .ended ending →
      endingStatus s.receipt.phase d s.receipt.cancelRequestedAt.isSome ending = status →
      (if status = .retryWait then some retryAt else none) = retry →
      Step s (.decide call retryAt) (s.setStage call d (.recording status retry))
  | complete {call : ℕ} {status : EffectStatus} {outcome : EffectOutcome} {completedAt : String}
      {d : Delivery} {retryAt : Option String} {row : EffectReceipt} :
      s.deliveries call = some d → d.stage = .recording status retryAt →
      completeReceipt d.lease status outcome retryAt completedAt s.receipt = some row →
      Step s (.complete call status outcome completedAt)
        { s.setStage call d .done with receipt := row }
  | requestCancel {reason : Option String} {requestedAt : String} {row : EffectReceipt} :
      s.receipt.phase = .afterCommit → Runtime.requestCancel reason requestedAt s.receipt = some row →
      Step s (.requestCancel reason requestedAt) { s with receipt := row }
  | retry {requestedAt : String} {row : EffectReceipt} :
      retryReceipt requestedAt s.receipt = some row →
      Step s (.retry requestedAt) { s with receipt := row }
  | reconcile {resolution : EffectResolution} {evidence : Json} {externalId : Option String}
      {reconciledAt : String} {row : EffectReceipt} :
      reconcileReceipt resolution evidence externalId reconciledAt s.receipt = some row →
      Step s (.reconcile resolution evidence externalId reconciledAt) { s with receipt := row }

variable {s t : State} {e : Event}

theorem step_of_next (hnext : next s e = some t) : Step s e t := by
  cases e with
  | claim call claim seen =>
    obtain ⟨⟨hfree, hreconciliation⟩, hclaim⟩ := Option.ite_none_right_eq_some.mp hnext
    obtain ⟨row, hrow, ht⟩ := Option.bind_eq_some_iff.mp hclaim
    obtain rfl := Option.some.inj ht
    exact .claim (Option.isNone_iff_eq_none.mp hfree) hrow hreconciliation
  | giveUp call ending =>
    obtain ⟨d, hd, hnext⟩ := Option.bind_eq_some_iff.mp hnext
    obtain ⟨hgive, ⟨⟩⟩ := Option.ite_none_right_eq_some.mp hnext
    exact .giveUp hd hgive
  | startDispatch call startedAt =>
    obtain ⟨d, hd, hnext⟩ := Option.bind_eq_some_iff.mp hnext
    obtain ⟨⟨hstage, hseen⟩, hstart⟩ := Option.ite_none_right_eq_some.mp hnext
    obtain ⟨row, hrow, ht⟩ := Option.bind_eq_some_iff.mp hstart
    obtain rfl := Option.some.inj ht
    exact .startDispatch hd hstage hseen hrow
  | execute call =>
    obtain ⟨d, hd, hnext⟩ := Option.bind_eq_some_iff.mp hnext
    obtain ⟨hstage, ⟨⟩⟩ := Option.ite_none_right_eq_some.mp hnext
    exact .execute hd hstage
  | executorEnds call ending =>
    obtain ⟨d, hd, hnext⟩ := Option.bind_eq_some_iff.mp hnext
    obtain ⟨hstage, ⟨⟩⟩ := Option.ite_none_right_eq_some.mp hnext
    exact .executorEnds hd hstage
  | decide call retryAt =>
    obtain ⟨d, hd, hnext⟩ := Option.bind_eq_some_iff.mp hnext
    split at hnext
    next ending hstage =>
      obtain rfl := Option.some.inj hnext
      exact .decide hd hstage rfl rfl
    next => exact absurd hnext (by simp)
  | complete call status outcome completedAt =>
    obtain ⟨d, hd, hnext⟩ := Option.bind_eq_some_iff.mp hnext
    split at hnext
    next recorded retryAt hstage =>
      obtain ⟨rfl, hcomplete⟩ := Option.ite_none_right_eq_some.mp hnext
      obtain ⟨row, hrow, ht⟩ := Option.bind_eq_some_iff.mp hcomplete
      obtain rfl := Option.some.inj ht
      exact .complete hd hstage hrow
    next => exact absurd hnext (by simp)
  | requestCancel reason requestedAt =>
    obtain ⟨hphase, hnext⟩ := Option.ite_none_right_eq_some.mp hnext
    obtain ⟨row, hrow, rfl⟩ := Option.map_eq_some_iff.mp hnext
    exact .requestCancel hphase hrow
  | retry requestedAt =>
    obtain ⟨row, hrow, rfl⟩ := Option.map_eq_some_iff.mp hnext
    exact .retry hrow
  | reconcile resolution evidence externalId reconciledAt =>
    obtain ⟨row, hrow, rfl⟩ := Option.map_eq_some_iff.mp hnext
    exact .reconcile hrow

/-! ### The invariant of a state -/

/-- What a worker may be about to do, in view of the dispatch that it saw. -/
def StageAgrees (phase : EffectPhase) (d : Delivery) : Prop :=
  match d.stage with
  | .claimed | .done => True
  | .dispatched | .executing => d.dispatchStartedAt = none
  | .ended ending => ending = .ambiguous ∨ d.dispatchStartedAt = none
  | .recording status _ =>
    status = .retryWait → d.dispatchStartedAt = none ∧ phase = .afterCommit

/-- No two claims have the same fence, and a worker that saw a dispatch leaves it alone. -/
structure Invariant (s : State) : Prop where
  fence_le : ∀ call d, s.deliveries call = some d → d.lease.fencingToken ≤ s.receipt.fencingToken
  fence_inj : ∀ call call' d d', s.deliveries call = some d → s.deliveries call' = some d' →
    d.lease.fencingToken = d'.lease.fencingToken → call = call'
  stage : ∀ call d, s.deliveries call = some d → StageAgrees s.receipt.phase d

/-- The deliveries that a step leaves: the new one of a claim, or those that were there, each with
its lease and with the dispatch that it saw. -/
theorem deliveries_cases {deliveries : ℕ → Option Delivery} {call call' : ℕ} {d d' : Delivery}
    (h : Function.update deliveries call (some d) call' = some d') :
    call' = call ∧ d' = d ∨ call' ≠ call ∧ deliveries call' = some d' :=
  (update_eq_some h).imp_left fun hnew => ⟨hnew.1, (Option.some.inj hnew.2).symm⟩

theorem Invariant.initial (phase : EffectPhase) (maxAttempts : ℕ) :
    Invariant (.initial phase maxAttempts) where
  fence_le call d hd := by simp [State.initial] at hd
  fence_inj call call' d d' hd := by simp [State.initial] at hd
  stage call d hd := by simp [State.initial] at hd

/-- A worker goes on to another stage, and the row keeps its phase and its fence. -/
theorem Invariant.setStage {call : ℕ} {d : Delivery} {stage : Stage} {row : EffectReceipt}
    (h : Invariant s) (hd : s.deliveries call = some d)
    (hfence : row.fencingToken = s.receipt.fencingToken) (hphase : row.phase = s.receipt.phase)
    (hstage : StageAgrees s.receipt.phase { d with stage }) :
    Invariant { s.setStage call d stage with receipt := row } where
  fence_le call' d' hd' := by
    rw [hfence]
    rcases deliveries_cases hd' with ⟨-, rfl⟩ | ⟨-, hd'⟩
    · exact h.fence_le call d hd
    · exact h.fence_le call' d' hd'
  fence_inj call₁ call₂ d₁ d₂ hd₁ hd₂ hsame := by
    rcases deliveries_cases hd₁ with ⟨rfl, rfl⟩ | ⟨-, hbefore₁⟩ <;>
      rcases deliveries_cases hd₂ with ⟨rfl, rfl⟩ | ⟨-, hbefore₂⟩
    · rfl
    · exact h.fence_inj _ _ _ _ hd hbefore₂ hsame
    · exact h.fence_inj _ _ _ _ hbefore₁ hd hsame
    · exact h.fence_inj _ _ _ _ hbefore₁ hbefore₂ hsame
  stage call' d' hd' := by
    rw [hphase]
    rcases deliveries_cases hd' with ⟨-, rfl⟩ | ⟨-, hd'⟩
    · exact hstage
    · exact h.stage call' d' hd'

/-- An operator changes the row, and keeps its phase and moves its fence no lower. -/
theorem Invariant.operate {row : EffectReceipt} (h : Invariant s)
    (hfence : s.receipt.fencingToken ≤ row.fencingToken) (hphase : row.phase = s.receipt.phase) :
    Invariant { s with receipt := row } where
  fence_le call d hd := (h.fence_le call d hd).trans hfence
  fence_inj := h.fence_inj
  stage := by simpa only [hphase] using h.stage

theorem Invariant.claim {call : ℕ} {d : Delivery} {row : EffectReceipt} (h : Invariant s)
    (hfence : row.fencingToken = s.receipt.fencingToken + 1)
    (hphase : row.phase = s.receipt.phase) (hlease : d.lease.fencingToken = row.fencingToken)
    (hstage : d.stage = .claimed) :
    Invariant ⟨row, Function.update s.deliveries call (some d)⟩ where
  fence_le call' d' hd' := by
    rcases deliveries_cases hd' with ⟨-, rfl⟩ | ⟨-, hd'⟩
    · exact hlease.le
    · rw [hfence]
      exact (h.fence_le call' d' hd').trans (Nat.le_succ _)
  fence_inj call₁ call₂ d₁ d₂ hd₁ hd₂ hsame := by
    -- the fences that were there are below the new one
    rcases deliveries_cases hd₁ with ⟨rfl, rfl⟩ | ⟨-, hbefore₁⟩ <;>
      rcases deliveries_cases hd₂ with ⟨rfl, rfl⟩ | ⟨-, hbefore₂⟩
    · rfl
    · have hle := h.fence_le _ _ hbefore₂
      omega
    · have hle := h.fence_le _ _ hbefore₁
      omega
    · exact h.fence_inj _ _ _ _ hbefore₁ hbefore₂ hsame
  stage call' d' hd' := by
    rcases deliveries_cases hd' with ⟨-, rfl⟩ | ⟨-, hd'⟩
    · simp [StageAgrees, hstage]
    · rw [hphase]
      exact h.stage call' d' hd'

theorem stageAgrees_giveUp {phase : EffectPhase} {d : Delivery} {ending : Ending}
    (h : mayGiveUp phase d ending = true) : StageAgrees phase { d with stage := .ended ending } := by
  rw [mayGiveUp] at h
  split at h
  · split_ifs at h with hseen
    · exact .inl (of_decide_eq_true h)
    · exact .inr (by simpa using hseen)
  · rw [Bool.and_eq_true] at h
    exact .inl (of_decide_eq_true h.2)
  · exact absurd h (by simp)

/-- Only a failure after the commit is recorded for a retry. -/
theorem stageAgrees_decide {phase : EffectPhase} {d : Delivery} {ending : Ending}
    {isCancelRequested : Bool} {retryAt : Option String} (h : StageAgrees phase d)
    (hstage : d.stage = .ended ending) :
    StageAgrees phase { d with
      stage := .recording (endingStatus phase d isCancelRequested ending) retryAt } := by
  intro hretry
  simp only [StageAgrees, hstage] at h
  cases ending with
  | success => simp [endingStatus] at hretry
  | ambiguous => simp [endingStatus] at hretry
  | failure isRetryable =>
    refine ⟨by simpa using h, ?_⟩
    cases phase with
    | afterCommit => rfl
    | beforeCommit => simp [endingStatus] at hretry

theorem Invariant.step (h : Invariant s) (hstep : Step s e t) : Invariant t := by
  cases hstep with
  | claim hfree hrow _ =>
    obtain ⟨-, rfl⟩ := claimReceipt_eq_some hrow
    exact h.claim rfl rfl rfl rfl
  | giveUp hd hgive => exact h.setStage hd rfl rfl (stageAgrees_giveUp hgive)
  | startDispatch hd _ hseen hrow =>
    obtain ⟨-, -, -, -, rfl⟩ := startDispatch_eq_some hrow
    exact h.setStage hd rfl rfl hseen
  | execute hd hstage =>
    have hagrees := h.stage _ _ hd
    simp only [StageAgrees, hstage] at hagrees
    exact h.setStage hd rfl rfl hagrees
  | executorEnds hd hstage =>
    have hagrees := h.stage _ _ hd
    simp only [StageAgrees, hstage] at hagrees
    exact h.setStage hd rfl rfl (.inr hagrees)
  | decide hd hstage hstatus _ =>
    subst hstatus
    exact h.setStage hd rfl rfl (stageAgrees_decide (h.stage _ _ hd) hstage)
  | complete hd _ hrow =>
    obtain ⟨-, -, -, rfl⟩ := completeReceipt_eq_some hrow
    exact h.setStage hd rfl rfl trivial
  | requestCancel _ hrow =>
    rcases (requestCancel_eq_some hrow).2 with ⟨-, -, rfl⟩ | rfl
    · exact h.operate le_rfl rfl
    · exact h.operate (Nat.le_succ _) rfl
  | retry hrow =>
    obtain ⟨-, -, rfl⟩ := retryReceipt_eq_some hrow
    exact h.operate le_rfl rfl
  | reconcile hrow =>
    obtain ⟨-, _, _, -, rfl⟩ := reconcileReceipt_eq_some hrow
    exact h.operate le_rfl rfl

theorem Invariant.of_run {history : List Event} {phase : EffectPhase} {maxAttempts : ℕ}
    (h : Run next Always (.initial phase maxAttempts) history s) : Invariant s :=
  h.invariant (.initial phase maxAttempts) fun _ _ _ _ hnext hinv => hinv.step (step_of_next hnext)

/-! ### Dispatches in a history -/

/-- The dispatch of a worker ended in `retry_wait`, or an operator retried a dead letter. -/
def Released (call : ℕ) (history : List Event) : Prop :=
  (∃ outcome completedAt, Event.complete call .retryWait outcome completedAt ∈ history) ∨
    ∃ requestedAt, Event.retry requestedAt ∈ history

theorem Released.mono {call : ℕ} {history history' : List Event} (hsub : history ⊆ history')
    (h : Released call history) : Released call history' := by
  rcases h with ⟨outcome, completedAt, h⟩ | ⟨requestedAt, h⟩
  · exact .inl ⟨outcome, completedAt, hsub h⟩
  · exact .inr ⟨requestedAt, hsub h⟩

/-- The worker that started the last dispatch. -/
def lastDispatch (history : List Event) : Option ℕ :=
  history.findSome? fun
    | .startDispatch call _ => some call
    | _ => none

theorem lastDispatch_append (later earlier : List Event) :
    lastDispatch (later ++ earlier) = (lastDispatch later).or (lastDispatch earlier) :=
  List.findSome?_append

/-- The event does not start a dispatch. -/
def Event.IsNoStart (e : Event) : Prop := ∀ call startedAt, e ≠ .startDispatch call startedAt

theorem lastDispatch_cons_of_isNoStart {history : List Event} (h : e.IsNoStart) :
    lastDispatch (e :: history) = lastDispatch history := by
  cases e with
  | startDispatch call startedAt => exact absurd rfl (h call startedAt)
  | _ => rfl

/-- Every dispatch in the history was released, but for the last one while the row shows it. -/
def DispatchesReleased (history : List Event) (row : EffectReceipt) : Prop :=
  ∀ later call startedAt earlier, history = later ++ .startDispatch call startedAt :: earlier →
    Released call later ∨ row.dispatchStartedAt.isSome ∧ lastDispatch later = none

theorem DispatchesReleased.cons {history : List Event} {row row' : EffectReceipt}
    (h : DispatchesReleased history row) (he : e.IsNoStart)
    (hkept : ∀ call, row.dispatchStartedAt.isSome → lastDispatch history = some call →
      Released call [e] ∨ row'.dispatchStartedAt.isSome) :
    DispatchesReleased (e :: history) row' := by
  intro later call startedAt earlier heq
  obtain ⟨rfl, hstart⟩ | ⟨later, rfl, rfl⟩ := List.cons_eq_append_iff.mp heq
  · obtain ⟨rfl, -⟩ := List.cons.inj hstart
    exact absurd rfl (he call startedAt)
  · rcases h later call startedAt earlier rfl with hreleased | ⟨hdispatch, hlast⟩
    · exact .inl (hreleased.mono (List.subset_cons_self e later))
    · have hcall : lastDispatch (later ++ .startDispatch call startedAt :: earlier) = some call := by
        rw [lastDispatch_append, hlast]
        rfl
      rcases hkept call hdispatch hcall with hreleased | hdispatch'
      · exact .inl (hreleased.mono (by simp))
      · exact .inr ⟨hdispatch', (lastDispatch_cons_of_isNoStart he).trans hlast⟩

/-- What a state and its history have in common. -/
structure HistoryInvariant (history : List Event) (s : State) : Prop where
  state : Invariant s
  released : DispatchesReleased history s.receipt
  /-- The worker that holds the fence and saw no dispatch started the one in the row. -/
  dispatcher : ∀ call d, s.deliveries call = some d →
    d.lease.fencingToken = s.receipt.fencingToken → d.dispatchStartedAt = none →
    s.receipt.phase = .afterCommit → s.receipt.dispatchStartedAt.isSome →
    lastDispatch history = some call
  /-- The executor is called once for a dispatch that was started. -/
  started : ∀ call d, s.deliveries call = some d → d.stage = .dispatched →
    ∃ startedAt, Event.startDispatch call startedAt ∈ history
  notExecuted : ∀ call, (∀ d, s.deliveries call = some d → d.stage = .claimed ∨ d.stage = .dispatched) →
    Event.execute call ∉ history

namespace HistoryInvariant

variable {history : List Event}

theorem initial (phase : EffectPhase) (maxAttempts : ℕ) :
    HistoryInvariant [] (.initial phase maxAttempts) where
  state := .initial phase maxAttempts
  released later call startedAt earlier h := by simp at h
  dispatcher call d hd := by simp [State.initial] at hd
  started call d hd := by simp [State.initial] at hd
  notExecuted call h := by simp

/-- A worker goes on to another stage without starting a dispatch. -/
theorem setStage {call : ℕ} {d : Delivery} {stage : Stage} {row : EffectReceipt}
    (h : HistoryInvariant history s) (hd : s.deliveries call = some d)
    (hinv : Invariant { s.setStage call d stage with receipt := row }) (he : e.IsNoStart)
    (hfence : row.fencingToken = s.receipt.fencingToken) (hphase : row.phase = s.receipt.phase)
    (hdispatch : row.dispatchStartedAt.isSome → s.receipt.dispatchStartedAt.isSome)
    (hkept : ∀ c, s.receipt.dispatchStartedAt.isSome → lastDispatch history = some c →
      Released c [e] ∨ row.dispatchStartedAt.isSome)
    (hstage : stage ≠ .claimed ∧ stage ≠ .dispatched) (hexecute : ∀ c, e = .execute c → c = call) :
    HistoryInvariant (e :: history) { s.setStage call d stage with receipt := row } where
  state := hinv
  released := h.released.cons he hkept
  dispatcher c d' hd' hholder hseen hafter hsome := by
    rw [lastDispatch_cons_of_isNoStart he]
    simp only [hfence] at hholder
    simp only [hphase] at hafter
    rcases deliveries_cases hd' with ⟨rfl, rfl⟩ | ⟨-, hbefore⟩
    · exact h.dispatcher c d hd hholder hseen hafter (hdispatch hsome)
    · exact h.dispatcher c d' hbefore hholder hseen hafter (hdispatch hsome)
  started c d' hd' hstarted := by
    rcases deliveries_cases hd' with ⟨-, rfl⟩ | ⟨-, hbefore⟩
    · exact absurd hstarted hstage.2
    · obtain ⟨startedAt, hmem⟩ := h.started c d' hbefore hstarted
      exact ⟨startedAt, List.mem_cons_of_mem e hmem⟩
  notExecuted c hc := by
    have hne : c ≠ call := by
      rintro rfl
      rcases hc { d with stage } (by simp [State.setStage]) with hclaimed | hdispatched
      · exact hstage.1 hclaimed
      · exact hstage.2 hdispatched
    rw [List.mem_cons, not_or]
    refine ⟨fun he => hne (hexecute c he.symm), h.notExecuted c fun d' hd' => hc d' ?_⟩
    simpa only [State.setStage, Function.update_of_ne hne] using hd'

/-- An operator changes the row. -/
theorem operate {row : EffectReceipt} (h : HistoryInvariant history s)
    (hinv : Invariant { s with receipt := row }) (he : e.IsNoStart) (hexecute : ∀ c, e ≠ .execute c)
    (hkept : ∀ c, s.receipt.dispatchStartedAt.isSome → lastDispatch history = some c →
      Released c [e] ∨ row.dispatchStartedAt.isSome)
    (hphase : row.phase = s.receipt.phase)
    (hdispatch : row.dispatchStartedAt.isSome → s.receipt.dispatchStartedAt.isSome ∧
      (row.fencingToken = s.receipt.fencingToken ∨
        row.fencingToken = s.receipt.fencingToken + 1)) :
    HistoryInvariant (e :: history) { s with receipt := row } where
  state := hinv
  released := h.released.cons he hkept
  dispatcher c d hd hholder hseen hafter hsome := by
    rw [lastDispatch_cons_of_isNoStart he]
    simp only [hphase] at hafter
    obtain ⟨hbefore, hfence | hfence⟩ := hdispatch hsome
    · exact h.dispatcher c d hd (hholder.trans hfence) hseen hafter hbefore
    · -- no worker holds the fence that the operator moved on
      have hle := h.state.fence_le c d hd
      have hholder' : d.lease.fencingToken = s.receipt.fencingToken + 1 := hholder.trans hfence
      omega
  started c d hd hstarted := by
    obtain ⟨startedAt, hmem⟩ := h.started c d hd hstarted
    exact ⟨startedAt, List.mem_cons_of_mem e hmem⟩
  notExecuted c hc := by
    rw [List.mem_cons, not_or]
    exact ⟨fun he => hexecute c he.symm, h.notExecuted c hc⟩

theorem claim {call : ℕ} {c : EffectClaim} {seen : Option String} {row : EffectReceipt}
    (h : HistoryInvariant history s) (hfree : s.deliveries call = none)
    (hrow : claimReceipt c s.receipt = some row)
    (hinv : Invariant ⟨row, Function.update s.deliveries call (some (claimedDelivery c seen row))⟩) :
    HistoryInvariant (.claim call c seen :: history)
      ⟨row, Function.update s.deliveries call (some (claimedDelivery c seen row))⟩ where
  state := hinv
  released := by
    obtain ⟨-, rfl⟩ := claimReceipt_eq_some hrow
    exact h.released.cons (by simp [Event.IsNoStart]) fun _ hdispatch _ => .inr hdispatch
  dispatcher c' d hd hholder hseen hafter hsome := by
    obtain ⟨-, rfl⟩ := claimReceipt_eq_some hrow
    rcases deliveries_cases hd with ⟨-, rfl⟩ | ⟨-, hbefore⟩
    · -- the worker saw the dispatch in the row that it claimed
      simp only at hafter
      simp only [claimedDelivery, hafter, if_true] at hseen
      simp [hseen] at hsome
    · have hle := h.state.fence_le c' d hbefore
      simp only at hholder
      omega
  started c' d hd hstarted := by
    rcases deliveries_cases hd with ⟨-, rfl⟩ | ⟨-, hbefore⟩
    · simp [claimedDelivery] at hstarted
    · obtain ⟨startedAt, hmem⟩ := h.started c' d hbefore hstarted
      exact ⟨startedAt, List.mem_cons_of_mem _ hmem⟩
  notExecuted c' hc := by
    rw [List.mem_cons, not_or]
    refine ⟨by simp, h.notExecuted c' fun d hd => hc d ?_⟩
    have hne : c' ≠ call := by
      rintro rfl
      simp [hfree] at hd
    simpa only [Function.update_of_ne hne] using hd

theorem startDispatch {call : ℕ} {startedAt : String} {d : Delivery} {row : EffectReceipt}
    (h : HistoryInvariant history s) (hd : s.deliveries call = some d) (hstage : d.stage = .claimed)
    (hrow : Runtime.startDispatch d.lease startedAt s.receipt = some row)
    (hinv : Invariant { s.setStage call d .dispatched with receipt := row }) :
    HistoryInvariant (.startDispatch call startedAt :: history)
      { s.setStage call d .dispatched with receipt := row } where
  state := hinv
  released := by
    obtain ⟨-, -, -, hnone, rfl⟩ := startDispatch_eq_some hrow
    intro later call' startedAt' earlier heq
    obtain ⟨rfl, -⟩ | ⟨later, rfl, rfl⟩ := List.cons_eq_append_iff.mp heq
    · exact .inr ⟨rfl, rfl⟩
    · rcases h.released later call' startedAt' earlier rfl with hreleased | ⟨hsome, -⟩
      · exact .inl (hreleased.mono (List.subset_cons_self _ later))
      · simp [hnone] at hsome
  dispatcher c d' hd' hholder hseen hafter hsome := by
    obtain ⟨-, ⟨-, -, hfence⟩, -, -, rfl⟩ := startDispatch_eq_some hrow
    rcases deliveries_cases hd' with ⟨rfl, -⟩ | ⟨hne, hbefore⟩
    · rfl
    · exact absurd (h.state.fence_inj _ _ _ _ hbefore hd (hholder.trans hfence)) hne
  started c d' hd' hstarted := by
    rcases deliveries_cases hd' with ⟨rfl, -⟩ | ⟨-, hbefore⟩
    · exact ⟨startedAt, List.mem_cons_self⟩
    · obtain ⟨startedAt', hmem⟩ := h.started c d' hbefore hstarted
      exact ⟨startedAt', List.mem_cons_of_mem _ hmem⟩
  notExecuted c hc := by
    rw [List.mem_cons, not_or]
    refine ⟨by simp, h.notExecuted c fun d' hd' => ?_⟩
    by_cases hcall : c = call
    · subst hcall
      obtain rfl := Option.some.inj (hd.symm.trans hd')
      exact .inl hstage
    · exact hc d' (by simpa only [State.setStage, Function.update_of_ne hcall] using hd')

/-- Recording the end of the last dispatch in `retry_wait` releases it. -/
theorem released_complete {call : ℕ} {d : Delivery} {status : EffectStatus} {retryAt : Option String}
    {outcome : EffectOutcome} {completedAt : String} {row : EffectReceipt}
    (h : HistoryInvariant history s) (hd : s.deliveries call = some d)
    (hstage : d.stage = .recording status retryAt)
    (hrow : completeReceipt d.lease status outcome retryAt completedAt s.receipt = some row) (c : ℕ)
    (hsome : s.receipt.dispatchStartedAt.isSome) (hlast : lastDispatch history = some c) :
    Released c [.complete call status outcome completedAt] ∨ row.dispatchStartedAt.isSome := by
  obtain ⟨⟨-, -, hfence⟩, -, -, rfl⟩ := completeReceipt_eq_some hrow
  by_cases hretry : status = .retryWait
  · subst hretry
    have hagrees := h.state.stage call d hd
    simp only [StageAgrees, hstage] at hagrees
    obtain ⟨hseen, hafter⟩ := hagrees trivial
    have hcall := h.dispatcher call d hd hfence.symm hseen hafter hsome
    obtain rfl := Option.some.inj (hcall.symm.trans hlast)
    exact .inl (.inl ⟨outcome, completedAt, List.mem_singleton_self _⟩)
  · exact .inr (by simpa [hretry] using hsome)

theorem next (h : HistoryInvariant history s) (hnext : Effects.next s e = some t) :
    HistoryInvariant (e :: history) t := by
  have hstep := step_of_next hnext
  have hinv := h.state.step hstep
  cases hstep with
  | claim hfree hrow _ => exact h.claim hfree hrow hinv
  | giveUp hd _ =>
    exact h.setStage hd hinv (by simp [Event.IsNoStart]) rfl rfl id (fun _ hsome _ => .inr hsome)
      (by simp) (by simp)
  | startDispatch hd hstage _ hrow => exact h.startDispatch hd hstage hrow hinv
  | execute hd _ =>
    exact h.setStage hd hinv (by simp [Event.IsNoStart]) rfl rfl id (fun _ hsome _ => .inr hsome)
      (by simp) (by simp)
  | executorEnds hd _ =>
    exact h.setStage hd hinv (by simp [Event.IsNoStart]) rfl rfl id (fun _ hsome _ => .inr hsome)
      (by simp) (by simp)
  | decide hd _ _ _ =>
    exact h.setStage hd hinv (by simp [Event.IsNoStart]) rfl rfl id (fun _ hsome _ => .inr hsome)
      (by simp) (by simp)
  | complete hd hstage hrow =>
    have hreleased := h.released_complete hd hstage hrow
    obtain ⟨-, -, -, rfl⟩ := completeReceipt_eq_some hrow
    refine h.setStage hd hinv (by simp [Event.IsNoStart]) rfl rfl (fun hsome => ?_) hreleased
      (by simp) (by simp)
    simp only at hsome
    split_ifs at hsome with hretry
    · exact absurd hsome (by simp)
    · exact hsome
  | requestCancel _ hrow =>
    rcases (requestCancel_eq_some hrow).2 with ⟨-, -, rfl⟩ | rfl
    · exact h.operate hinv (by simp [Event.IsNoStart]) (by simp) (fun _ hsome _ => .inr hsome) rfl
        fun hsome => ⟨hsome, .inl rfl⟩
    · exact h.operate hinv (by simp [Event.IsNoStart]) (by simp) (fun _ hsome _ => .inr hsome) rfl
        fun hsome => ⟨hsome, .inr rfl⟩
  | @retry requestedAt _ hrow =>
    obtain ⟨-, -, rfl⟩ := retryReceipt_eq_some hrow
    exact h.operate hinv (by simp [Event.IsNoStart]) (by simp)
      (fun _ _ _ => .inl (.inr ⟨requestedAt, List.mem_singleton_self _⟩)) rfl (by simp)
  | reconcile hrow =>
    obtain ⟨-, _, _, -, rfl⟩ := reconcileReceipt_eq_some hrow
    exact h.operate hinv (by simp [Event.IsNoStart]) (by simp) (fun _ hsome _ => .inr hsome) rfl
      fun hsome => ⟨hsome, .inl rfl⟩

theorem of_run {phase : EffectPhase} {maxAttempts : ℕ}
    (h : Run Effects.next Always (.initial phase maxAttempts) history s) :
    HistoryInvariant history s :=
  h.invariant_history (initial phase maxAttempts) fun _ _ _ _ _ hnext hinv => hinv.next hnext

end HistoryInvariant

/-! ### What a worker that comes late can do -/

/-- A worker keeps its lease, and the fence in the row does not go back. -/
theorem Step.kept (hstep : Step s e t) {call : ℕ} {d : Delivery} (hd : s.deliveries call = some d) :
    (∃ d', t.deliveries call = some d' ∧ d'.lease = d.lease) ∧
      s.receipt.fencingToken ≤ t.receipt.fencingToken := by
  have hstage : ∀ {c : ℕ} {d₀ : Delivery} {stage : Stage}, s.deliveries c = some d₀ →
      ∃ d', (s.setStage c d₀ stage).deliveries call = some d' ∧ d'.lease = d.lease := by
    intro c d₀ stage hc
    by_cases hcall : call = c
    · subst hcall
      obtain rfl := Option.some.inj (hc.symm.trans hd)
      exact ⟨{ d₀ with stage }, by simp [State.setStage], rfl⟩
    · exact ⟨d, by simpa only [State.setStage, Function.update_of_ne hcall] using hd, rfl⟩
  cases hstep with
  | @claim c _ _ _ hfree hrow _ =>
    obtain ⟨-, rfl⟩ := claimReceipt_eq_some hrow
    have hcall : call ≠ c := by
      rintro rfl
      simp [hfree] at hd
    exact ⟨⟨d, by simpa only [Function.update_of_ne hcall] using hd, rfl⟩, Nat.le_succ _⟩
  | giveUp hc _ => exact ⟨hstage hc, le_rfl⟩
  | startDispatch hc _ _ hrow =>
    obtain ⟨-, -, -, -, rfl⟩ := startDispatch_eq_some hrow
    exact ⟨hstage hc, le_rfl⟩
  | execute hc _ => exact ⟨hstage hc, le_rfl⟩
  | executorEnds hc _ => exact ⟨hstage hc, le_rfl⟩
  | decide hc _ _ _ => exact ⟨hstage hc, le_rfl⟩
  | complete hc _ hrow =>
    obtain ⟨-, -, -, rfl⟩ := completeReceipt_eq_some hrow
    exact ⟨hstage hc, le_rfl⟩
  | requestCancel _ hrow =>
    rcases (requestCancel_eq_some hrow).2 with ⟨-, -, rfl⟩ | rfl
    · exact ⟨⟨d, hd, rfl⟩, le_rfl⟩
    · exact ⟨⟨d, hd, rfl⟩, Nat.le_succ _⟩
  | retry hrow =>
    obtain ⟨-, -, rfl⟩ := retryReceipt_eq_some hrow
    exact ⟨⟨d, hd, rfl⟩, le_rfl⟩
  | reconcile hrow =>
    obtain ⟨-, _, _, -, rfl⟩ := reconcileReceipt_eq_some hrow
    exact ⟨⟨d, hd, rfl⟩, le_rfl⟩

/-- Under one fence a dispatch stays in the row for as long as the receipt is being delivered. -/
theorem Step.dispatch_kept (hstep : Step s e t)
    (hfence : t.receipt.fencingToken = s.receipt.fencingToken)
    (hbefore : s.receipt.status = .delivering → s.receipt.dispatchStartedAt.isSome)
    (hstatus : t.receipt.status = .delivering) : t.receipt.dispatchStartedAt.isSome := by
  cases hstep with
  | claim _ hrow _ =>
    obtain ⟨-, rfl⟩ := claimReceipt_eq_some hrow
    simp at hfence
  | giveUp _ _ => exact hbefore hstatus
  | startDispatch _ _ _ hrow =>
    obtain ⟨-, -, -, -, rfl⟩ := startDispatch_eq_some hrow
    rfl
  | execute _ _ => exact hbefore hstatus
  | executorEnds _ _ => exact hbefore hstatus
  | decide _ _ _ _ => exact hbefore hstatus
  | complete _ _ hrow =>
    obtain ⟨-, -, hne, rfl⟩ := completeReceipt_eq_some hrow
    exact absurd hstatus hne
  | requestCancel _ hrow =>
    rcases (requestCancel_eq_some hrow).2 with ⟨-, hsome, rfl⟩ | rfl
    · exact hsome
    · simp at hstatus
  | retry hrow =>
    obtain ⟨-, -, rfl⟩ := retryReceipt_eq_some hrow
    simp at hstatus
  | reconcile hrow =>
    obtain ⟨-, status, _, hmem, rfl⟩ := reconcileReceipt_eq_some hrow
    simp only at hstatus
    subst hstatus
    simp at hmem

/-- A worker that took over a dispatch, or that lost its fence. -/
def IsLocked (call : ℕ) (s : State) : Prop :=
  ∃ d, s.deliveries call = some d ∧ d.lease.fencingToken ≤ s.receipt.fencingToken ∧
    (d.lease.fencingToken = s.receipt.fencingToken → s.receipt.status = .delivering →
      s.receipt.dispatchStartedAt.isSome)

theorem IsLocked.step {call : ℕ} (h : IsLocked call s) (hstep : Step s e t) : IsLocked call t := by
  obtain ⟨d, hd, hle, hdispatch⟩ := h
  obtain ⟨⟨d', hd', hlease⟩, hmono⟩ := hstep.kept hd
  refine ⟨d', hd', hlease ▸ hle.trans hmono, fun hfence hstatus => ?_⟩
  have hsame : t.receipt.fencingToken = s.receipt.fencingToken := by
    rw [hlease] at hfence
    omega
  exact hstep.dispatch_kept hsame (hdispatch (by rw [← hlease, hfence, hsame])) hstatus

theorem IsLocked.startDispatch_ne {call : ℕ} {startedAt : String} (h : IsLocked call s) :
    next s (.startDispatch call startedAt) ≠ some t := by
  intro hnext
  obtain ⟨d, hd, -, hdispatch⟩ := h
  cases step_of_next hnext with
  | startDispatch hd' _ _ hrow =>
    obtain rfl := Option.some.inj (hd.symm.trans hd')
    obtain ⟨hstatus, ⟨-, -, hfence⟩, -, hnone, -⟩ := startDispatch_eq_some hrow
    have hsome := hdispatch hfence.symm hstatus
    simp [hnone] at hsome

/-- The worker has called the executor. -/
def HasExecuted (call : ℕ) (s : State) : Prop :=
  ∃ d, s.deliveries call = some d ∧ d.stage ≠ .claimed ∧ d.stage ≠ .dispatched

theorem HasExecuted.step {call : ℕ} (h : HasExecuted call s) (hstep : Step s e t) :
    HasExecuted call t := by
  obtain ⟨d, hd, hclaimed, hdispatched⟩ := h
  have hstage : ∀ {c : ℕ} {d₀ : Delivery} {stage : Stage} {row : EffectReceipt},
      s.deliveries c = some d₀ → (c = call → stage ≠ .claimed ∧ stage ≠ .dispatched) →
      HasExecuted call { s.setStage c d₀ stage with receipt := row } := by
    intro c d₀ stage row hc hne
    by_cases hcall : call = c
    · subst hcall
      exact ⟨{ d₀ with stage }, by simp [State.setStage], hne rfl⟩
    · exact ⟨d, by simpa only [State.setStage, Function.update_of_ne hcall] using hd, hclaimed,
        hdispatched⟩
  cases hstep with
  | @claim c _ _ _ hfree _ _ =>
    have hcall : call ≠ c := by
      rintro rfl
      simp [hfree] at hd
    exact ⟨d, by simpa only [Function.update_of_ne hcall] using hd, hclaimed, hdispatched⟩
  | giveUp hc _ => exact hstage hc (by simp)
  | startDispatch hc hbefore _ _ =>
    refine hstage hc fun heq => ?_
    subst heq
    obtain rfl := Option.some.inj (hc.symm.trans hd)
    exact absurd hbefore hclaimed
  | execute hc _ => exact hstage hc (by simp)
  | executorEnds hc _ => exact hstage hc (by simp)
  | decide hc _ _ _ => exact hstage hc (by simp)
  | complete hc _ _ => exact hstage hc (by simp)
  | requestCancel _ _ => exact ⟨d, hd, hclaimed, hdispatched⟩
  | retry _ => exact ⟨d, hd, hclaimed, hdispatched⟩
  | reconcile _ => exact ⟨d, hd, hclaimed, hdispatched⟩

theorem HasExecuted.execute_ne {call : ℕ} (h : HasExecuted call s) :
    next s (.execute call) ≠ some t := by
  intro hnext
  obtain ⟨d, hd, -, hdispatched⟩ := h
  cases step_of_next hnext with
  | execute hd' hstage =>
    obtain rfl := Option.some.inj (hd.symm.trans hd')
    exact hdispatched hstage

/-- A request to cancel stays in the row. -/
theorem Step.cancelRequested (hstep : Step s e t) (h : s.receipt.cancelRequestedAt.isSome) :
    t.receipt.cancelRequestedAt.isSome := by
  cases hstep with
  | claim _ hrow _ =>
    obtain ⟨-, rfl⟩ := claimReceipt_eq_some hrow
    exact h
  | giveUp _ _ => exact h
  | startDispatch _ _ _ hrow =>
    obtain ⟨-, -, -, -, rfl⟩ := startDispatch_eq_some hrow
    exact h
  | execute _ _ => exact h
  | executorEnds _ _ => exact h
  | decide _ _ _ _ => exact h
  | complete _ _ hrow =>
    obtain ⟨-, -, -, rfl⟩ := completeReceipt_eq_some hrow
    exact h
  | requestCancel _ hrow =>
    rcases (requestCancel_eq_some hrow).2 with ⟨-, -, rfl⟩ | rfl <;> rfl
  | retry hrow =>
    obtain ⟨-, -, rfl⟩ := retryReceipt_eq_some hrow
    exact h
  | reconcile hrow =>
    obtain ⟨-, _, _, -, rfl⟩ := reconcileReceipt_eq_some hrow
    exact h

/-! ### Who writes an outcome -/

/-- The worker of the last claim, whose lease is the one in the row. -/
structure IsHolder (s : State) (call : ℕ) : Prop where
  delivery : ∃ d, s.deliveries call = some d ∧ d.lease.Matches s.receipt
  unique : ∀ call' d', s.deliveries call' = some d' →
    d'.lease.fencingToken = s.receipt.fencingToken → call' = call

/-- A step writes the outcome of a delivery. -/
def WritesOutcome (s t : State) : Prop :=
  t.receipt.outcome ≠ s.receipt.outcome ∨
    s.receipt.status = .delivering ∧ t.receipt.status ∈
      [EffectStatus.succeeded, .retryWait, .deadLetter, .outcomeUnknown]

theorem not_writesOutcome (houtcome : t.receipt.outcome = s.receipt.outcome)
    (hstatus : s.receipt.status = .delivering → t.receipt.status ∉
      [EffectStatus.succeeded, .retryWait, .deadLetter, .outcomeUnknown]) : ¬ WritesOutcome s t := by
  rintro (hne | ⟨hdelivering, hmem⟩)
  · exact hne houtcome
  · exact hstatus hdelivering hmem

/-- A worker writes an outcome under its unexpired lease, and an operator one that is unknown. -/
theorem writesOutcome_cases (h : Invariant s) (hstep : Step s e t) (hwrites : WritesOutcome s t) :
    (∃ call status outcome completedAt, e = .complete call status outcome completedAt ∧
      IsHolder s call ∧ ∃ expiresAt, s.receipt.leaseExpiresAt = some expiresAt ∧
        completedAt ≤ expiresAt) ∨
    s.receipt.status = .outcomeUnknown ∧
      ∃ resolution evidence externalId reconciledAt,
        e = .reconcile resolution evidence externalId reconciledAt := by
  cases hstep with
  | claim _ hrow _ =>
    obtain ⟨-, rfl⟩ := claimReceipt_eq_some hrow
    exact absurd hwrites (not_writesOutcome rfl (by simp))
  | giveUp _ _ => exact absurd hwrites (not_writesOutcome rfl (by simp +contextual [State.setStage]))
  | startDispatch _ _ _ hrow =>
    obtain ⟨hdelivering, -, -, -, rfl⟩ := startDispatch_eq_some hrow
    exact absurd hwrites (not_writesOutcome rfl (by simp [hdelivering]))
  | execute _ _ => exact absurd hwrites (not_writesOutcome rfl (by simp +contextual [State.setStage]))
  | executorEnds _ _ => exact absurd hwrites (not_writesOutcome rfl (by simp +contextual [State.setStage]))
  | decide _ _ _ _ => exact absurd hwrites (not_writesOutcome rfl (by simp +contextual [State.setStage]))
  | @complete call status outcome completedAt d _ _ hd _ hrow =>
    obtain ⟨hmatches, hlease, -, -⟩ := completeReceipt_eq_some hrow
    refine .inl ⟨call, status, outcome, completedAt, rfl, ⟨⟨d, hd, hmatches⟩, ?_⟩, hlease⟩
    exact fun call' d' hd' hfence => h.fence_inj _ _ _ _ hd' hd (hfence.trans hmatches.2.2)
  | requestCancel _ hrow =>
    rcases (requestCancel_eq_some hrow).2 with ⟨hdelivering, -, rfl⟩ | rfl
    · exact absurd hwrites (not_writesOutcome rfl (by simp [hdelivering]))
    · exact absurd hwrites (not_writesOutcome rfl (by simp))
  | retry hrow =>
    obtain ⟨-, hdead, rfl⟩ := retryReceipt_eq_some hrow
    exact absurd hwrites (not_writesOutcome rfl (by simp [hdead]))
  | reconcile hrow =>
    obtain ⟨hunknown, -⟩ := reconcileReceipt_eq_some hrow
    exact .inr ⟨hunknown, _, _, _, _, rfl⟩

/-! ### At most one dispatch -/

/-- What holds of the dispatches of an effect after a history. -/
structure DispatchSafe (phase : EffectPhase) (maxAttempts : ℕ) (history : List Event) (s : State) :
    Prop where
  /-- Between the starts of two dispatches the first one was released. -/
  released : ∀ later call' startedAt' between call startedAt earlier,
    history = later ++ .startDispatch call' startedAt' ::
      (between ++ .startDispatch call startedAt :: earlier) → Released call between
  /-- The executor is called only by a worker that started a dispatch, and once. -/
  executed : ∀ later call earlier, history = later ++ .execute call :: earlier →
    (∃ startedAt, Event.startDispatch call startedAt ∈ earlier) ∧ Event.execute call ∉ later ∧
      Event.execute call ∉ earlier
  /-- A worker that takes a receipt over whose dispatch had started does not start another. -/
  takeover : ∀ later call claim seen earlier u, history = later ++ .claim call claim seen :: earlier →
    Run next Always (.initial phase maxAttempts) earlier u → u.receipt.dispatchStartedAt.isSome →
      ∀ startedAt, Event.startDispatch call startedAt ∉ later
  /-- After an accepted cancellation no dispatch is started. -/
  cancelled : ∀ later reason requestedAt earlier,
    history = later ++ .requestCancel reason requestedAt :: earlier →
      ∀ call startedAt, Event.startDispatch call startedAt ∉ later
  /-- Only the holder of the fence writes an outcome, other than an operator that settles one that
  is unknown. -/
  holder : ∀ e t, next s e = some t → WritesOutcome s t →
    (∃ call status outcome completedAt, e = .complete call status outcome completedAt ∧
      IsHolder s call ∧ ∃ expiresAt, s.receipt.leaseExpiresAt = some expiresAt ∧
        completedAt ≤ expiresAt) ∨
    s.receipt.status = .outcomeUnknown ∧
      ∃ resolution evidence externalId reconciledAt,
        e = .reconcile resolution evidence externalId reconciledAt

variable {phase : EffectPhase} {maxAttempts : ℕ} {history : List Event}

/-- **Effects are dispatched at most once while their outcome is unknown.** -/
theorem dispatchSafe_of_run (hrun : Run next Always (.initial phase maxAttempts) history s) :
    DispatchSafe phase maxAttempts history s where
  released later call' startedAt' between call startedAt earlier hhistory := by
    subst hhistory
    obtain ⟨v, hv, -⟩ := run_append_iff.mp hrun
    obtain ⟨u, hu, -, hnext⟩ := run_cons_iff.mp hv
    cases step_of_next hnext with
    | startDispatch _ _ _ hrow =>
      obtain ⟨-, -, -, hnone, -⟩ := startDispatch_eq_some hrow
      rcases (HistoryInvariant.of_run hu).released between call startedAt earlier rfl with
        hreleased | ⟨hsome, -⟩
      · exact hreleased
      · simp [hnone] at hsome
  executed later call earlier hhistory := by
    subst hhistory
    obtain ⟨v, hv, hlater⟩ := run_append_iff.mp hrun
    obtain ⟨u, hu, -, hnext⟩ := run_cons_iff.mp hv
    have hinv := HistoryInvariant.of_run hu
    have hnever : ∀ {d : Delivery}, u.deliveries call = some d → d.stage = .dispatched →
        Event.execute call ∉ earlier := fun hd hstage => hinv.notExecuted call fun d' hd' => by
      obtain rfl := Option.some.inj (hd.symm.trans hd')
      exact .inr hstage
    cases step_of_next hnext with
    | execute hd hstage =>
      refine ⟨hinv.started call _ hd hstage, ?_, hnever hd hstage⟩
      refine hlater.not_mem (P := HasExecuted call) ⟨_, Function.update_self .., by simp⟩ ?_ ?_
      · exact fun _ _ _ _ hnext hP => hP.step (step_of_next hnext)
      · exact fun _ _ hP => hP.execute_ne
  takeover later call claim seen earlier u hhistory hu hsome startedAt := by
    subst hhistory
    obtain ⟨v, hv, hlater⟩ := run_append_iff.mp hrun
    obtain ⟨u', hu', -, hnext⟩ := run_cons_iff.mp hv
    obtain rfl := run_unique hu hu'
    refine hlater.not_mem (P := IsLocked call) ?_ (fun _ _ _ _ hnext hP => hP.step (step_of_next hnext))
      fun _ _ hP => hP.startDispatch_ne
    cases step_of_next hnext with
    | claim _ hrow _ =>
      obtain ⟨-, rfl⟩ := claimReceipt_eq_some hrow
      exact ⟨_, Function.update_self .., le_rfl, fun _ _ => hsome⟩
  cancelled later reason requestedAt earlier hhistory call startedAt := by
    subst hhistory
    obtain ⟨v, hv, hlater⟩ := run_append_iff.mp hrun
    obtain ⟨u, -, -, hnext⟩ := run_cons_iff.mp hv
    refine hlater.not_mem (P := fun s => s.receipt.cancelRequestedAt.isSome) ?_
      (fun _ _ _ _ hnext hP => (step_of_next hnext).cancelRequested hP) ?_
    · cases step_of_next hnext with
      | requestCancel _ hrow => rcases (requestCancel_eq_some hrow).2 with ⟨-, -, rfl⟩ | rfl <;> rfl
    · intro u t hsome hnext
      cases step_of_next hnext with
      | startDispatch _ _ _ hrow =>
        obtain ⟨-, -, hnone, -, -⟩ := startDispatch_eq_some hrow
        simp [hnone] at hsome
  holder e t hnext hwrites := writesOutcome_cases (.of_run hrun) (step_of_next hnext) hwrites

/-! ### A dispatch after a known failure -/

section Retry

def deliveryClaim (worker token claimedAt leaseExpiresAt : String) : EffectClaim :=
  ⟨worker, token, leaseExpiresAt, claimedAt, false⟩

/-- The first worker's call of the executor fails in a way that may be retried, and the second
worker dispatches again. -/
def retriedHistory : List Event :=
  [.execute 2, .startDispatch 2 "00:00:06",
    .claim 2 (deliveryClaim "worker-2" "lease-2" "00:00:05" "00:00:35") none,
    .complete 1 .retryWait ⟨none, none, none⟩ "00:00:02", .decide 1 "00:00:03",
    .executorEnds 1 (.failure true), .execute 1, .startDispatch 1 "00:00:01",
    .claim 1 (deliveryClaim "worker-1" "lease-1" "00:00:00" "00:00:30") none]

theorem dispatchSafe_retriedHistory :
    ∃ s, s.receipt.dispatchStartedAt = some "00:00:06" ∧
      DispatchSafe .afterCommit 3 retriedHistory s :=
  ⟨_, rfl, dispatchSafe_of_run (run_always_iff.mpr rfl)⟩

end Retry

end Effects

end FoundryLite.Runtime
