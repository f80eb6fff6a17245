import FoundryLite.Runtime.EffectDispatch

/-!
# Which receipts a worker can still pick up

A receipt that is not terminal waits for a worker: its attempt to come, or its lease to expire. Two
steps of the code leave one that waits for ever. The claim of the last attempt leaves a receipt in
delivery that no worker may claim when that worker does not come back, although the query of due
receipts means to include expired leases; and a retry of a receipt whose cancellation was requested
leaves one whose dispatch is refused at every claim.

`KeepsClaimable` excludes exactly these two. It is a condition on a step and the row before it, and
in the states that it leads to a step strands the receipt if and only if it does not meet it
(`notStranded_iff`).
-/

namespace FoundryLite.Runtime

open Runs

/-! ### Waiting for a worker -/

/-- The worker of a claim, whose request is authorized, can start its dispatch, or it saw one in the
row and can record that the outcome is unknown. -/
def CanProceed (lease : EffectLease) (now : String) (row : EffectReceipt) : Prop :=
  (startDispatch lease now row).isSome ∨
    row.dispatchStartedAt.isSome ∧
      (completeReceipt lease .outcomeUnknown ⟨none, none, none⟩ none now row).isSome

/-- At some later time a delivery worker can claim the receipt and proceed, if nothing else happens
to it until then. -/
def NotStranded (row : EffectReceipt) : Prop :=
  row.phase = .afterCommit → ¬ row.status.IsTerminal →
    ∀ now, ∃ later, now ≤ later ∧ ∀ workerId leaseToken leaseExpiresAt, later ≤ leaseExpiresAt →
      ∃ claimed, claimReceipt ⟨workerId, leaseToken, leaseExpiresAt, later, false⟩ row = some claimed ∧
        CanProceed ⟨workerId, leaseToken, claimed.fencingToken⟩ later claimed

/-- What holds of the row at any time. -/
structure RowInvariant (row : EffectReceipt) : Prop where
  retryAt : row.status = .retryWait → row.retryAt.isSome
  lease : row.status = .delivering → row.leaseExpiresAt.isSome
  dispatch : row.dispatchStartedAt.isSome → row.status ≠ .pending ∧ row.status ≠ .retryWait

/-- An attempt is left, and no cancellation is requested, but for a dispatch under way. -/
def Waits (row : EffectReceipt) : Prop :=
  ¬ row.status.IsTerminal → row.attemptCount < row.maxAttempts ∧
    (row.cancelRequestedAt.isSome → row.dispatchStartedAt.isSome)

/-- There is always a later time. -/
theorem exists_lt_time (time : String) : ∃ later, time < later := by
  refine ⟨time ++ "0", ?_⟩
  rw [String.lt_iff_toList_lt, String.toList_append]
  generalize time.toList = text
  induction text with
  | nil => decide
  | cons c text ih => exact List.Lex.cons ih

theorem status_cases {row : EffectReceipt} (h : ¬ row.status.IsTerminal) :
    row.status = .pending ∨ row.status = .retryWait ∨ row.status = .delivering := by
  cases hstatus : row.status <;> simp_all [EffectStatus.IsTerminal]

/-- Without an attempt left a receipt is never claimable. -/
theorem isClaimable_of_le {row : EffectReceipt} (h : row.maxAttempts ≤ row.attemptCount)
    {claimedAt : String} : isClaimable row claimedAt false = false :=
  if_pos ⟨h, rfl⟩

/-- A receipt with an attempt left comes to be claimable. -/
theorem exists_isClaimable {row : EffectReceipt} (h : RowInvariant row)
    (hterminal : ¬ row.status.IsTerminal) (hattempt : row.attemptCount < row.maxAttempts)
    (now : String) : ∃ later, now ≤ later ∧ isClaimable row later false = true := by
  rcases status_cases hterminal with hstatus | hstatus | hstatus
  · exact ⟨now, le_rfl, by simp [isClaimable, hattempt, hstatus]⟩
  · obtain ⟨retryAt, hretry⟩ := Option.isSome_iff_exists.mp (h.retryAt hstatus)
    exact ⟨max now retryAt, le_max_left _ _, by simp [isClaimable, hattempt, hstatus, hretry]⟩
  · obtain ⟨expiresAt, hlease⟩ := Option.isSome_iff_exists.mp (h.lease hstatus)
    obtain ⟨later, hlater⟩ := exists_lt_time (max now expiresAt)
    obtain ⟨hnow, hexpired⟩ := max_lt_iff.mp hlater
    refine ⟨later, hnow.le, ?_⟩
    simp only [isClaimable, not_le.mpr hattempt, hstatus, hlease, Option.any_some]
    exact decide_eq_true hexpired

theorem exists_claimReceipt {claim : EffectClaim} {row : EffectReceipt}
    (h : isClaimable row claim.claimedAt claim.isReconciliation = true)
    (hterminal : ¬ row.status.IsTerminal) : ∃ claimed, claimReceipt claim row = some claimed := by
  refine ⟨_, (if_pos h).trans (casStatusUpdate_eq_some_iff.mpr ⟨?_, rfl, rfl⟩)⟩
  rcases status_cases hterminal with hstatus | hstatus | hstatus <;>
    simp [hstatus, actionEffectDelivering]

/-- The holder of an unexpired lease can record that the outcome is unknown. -/
theorem isSome_completeReceipt {lease : EffectLease} {row : EffectReceipt} {now expiresAt : String}
    (hstatus : row.status = .delivering) (hmatches : lease.Matches row)
    (hlease : row.leaseExpiresAt = some expiresAt) (hnow : now ≤ expiresAt)
    (outcome : EffectOutcome) :
    (completeReceipt lease .outcomeUnknown outcome none now row).isSome := by
  have hcurrent : (decide (lease.Matches row) &&
      row.leaseExpiresAt.any fun leaseExpiresAt => decide (now ≤ leaseExpiresAt)) = true := by
    rw [hlease, Option.any_some, Bool.and_eq_true]
    exact ⟨decide_eq_true hmatches, decide_eq_true hnow⟩
  have hfrom : row.status ∈ actionEffectOutcomeUnknown.fromStatuses := by
    rw [hstatus]
    exact List.mem_singleton_self _
  simp only [completeReceipt, terminalTransition, Option.bind_eq_bind, Option.bind_some,
    casStatusUpdate]
  rw [if_pos ⟨hfrom, hcurrent⟩]
  rfl

/-- What a worker can do with the row that its claim returned. -/
theorem canProceed_iff {workerId leaseToken leaseExpiresAt later : String} {row claimed : EffectReceipt}
    (hlease : later ≤ leaseExpiresAt)
    (hclaim : claimReceipt ⟨workerId, leaseToken, leaseExpiresAt, later, false⟩ row = some claimed) :
    CanProceed ⟨workerId, leaseToken, claimed.fencingToken⟩ later claimed ↔
      (row.cancelRequestedAt.isSome → row.dispatchStartedAt.isSome) := by
  obtain ⟨-, rfl⟩ := claimReceipt_eq_some hclaim
  constructor
  · rintro (hstart | ⟨hdispatch, -⟩) hcancel
    · obtain ⟨started, hstart⟩ := Option.isSome_iff_exists.mp hstart
      have hnone : row.cancelRequestedAt = none := (startDispatch_eq_some hstart).2.2.1
      exact absurd hcancel (by simp [hnone])
    · exact hdispatch
  · intro hcancel
    by_cases hdispatch : row.dispatchStartedAt.isSome
    · exact .inr ⟨hdispatch, isSome_completeReceipt rfl ⟨rfl, rfl, rfl⟩ rfl hlease _⟩
    · have hnotRequested : row.cancelRequestedAt = none := by
        simpa using fun h => hdispatch (hcancel h)
      have hnotStarted : row.dispatchStartedAt = none := by simpa using hdispatch
      exact .inl (Option.isSome_iff_exists.mpr
        ⟨_, if_pos ⟨rfl, ⟨rfl, rfl, rfl⟩, hnotRequested, hnotStarted⟩⟩)

theorem notStranded_iff_waits {row : EffectReceipt} (h : RowInvariant row) :
    NotStranded row ↔ (row.phase = .afterCommit → Waits row) := by
  constructor
  · intro hstranded hafter hterminal
    obtain ⟨later, -, hclaim⟩ := hstranded hafter hterminal ""
    obtain ⟨claimed, hclaimed, hproceed⟩ := hclaim "" "" later le_rfl
    refine ⟨?_, (canProceed_iff le_rfl hclaimed).mp hproceed⟩
    obtain ⟨hclaimable, -⟩ := claimReceipt_eq_some hclaimed
    by_contra hnone
    rw [isClaimable_of_le (not_lt.mp hnone)] at hclaimable
    exact absurd hclaimable (by simp)
  · intro hwaits hafter hterminal now
    obtain ⟨hattempt, hcancel⟩ := hwaits hafter hterminal
    obtain ⟨later, hnow, hclaimable⟩ := exists_isClaimable h hterminal hattempt now
    refine ⟨later, hnow, fun workerId leaseToken leaseExpiresAt hlease => ?_⟩
    obtain ⟨claimed, hclaimed⟩ := @exists_claimReceipt
      ⟨workerId, leaseToken, leaseExpiresAt, later, false⟩ row hclaimable hterminal
    exact ⟨claimed, hclaimed, (canProceed_iff hlease hclaimed).mpr hcancel⟩

namespace Effects

variable {s t : State} {e : Event}

/-! ### The condition -/

/-- What keeps a receipt with the workers: the claims leave an attempt, and what waits for a retry
was not asked to be cancelled. -/
def KeepsClaimable (s : State) (e : Event) : Prop :=
  s.receipt.phase = .afterCommit →
    match e with
    | .claim _ _ _ => s.receipt.attemptCount + 1 < s.receipt.maxAttempts
    | .complete _ .retryWait _ _ => s.receipt.cancelRequestedAt = none
    | .retry _ => s.receipt.cancelRequestedAt = none
    | _ => True

/-- What holds of a state at any time: what is recorded for a retry has a time for it. -/
structure RowsInvariant (s : State) : Prop where
  row : RowInvariant s.receipt
  recording : ∀ call d retryAt, s.deliveries call = some d →
    d.stage = .recording .retryWait retryAt → retryAt.isSome

theorem RowsInvariant.initial (phase : EffectPhase) (maxAttempts : ℕ) :
    RowsInvariant (.initial phase maxAttempts) where
  row := ⟨by simp [State.initial, insertedReceipt], by simp [State.initial, insertedReceipt],
    by simp [State.initial, insertedReceipt]⟩
  recording call d retryAt hd := by simp [State.initial] at hd

theorem RowsInvariant.setStage {call : ℕ} {d : Delivery} {stage : Stage} {row : EffectReceipt}
    (h : RowsInvariant s) (hrow : RowInvariant row)
    (hstage : ∀ retryAt, stage = .recording .retryWait retryAt → retryAt.isSome) :
    RowsInvariant { s.setStage call d stage with receipt := row } where
  row := hrow
  recording call' d' retryAt hd' hrecording := by
    rcases deliveries_cases hd' with ⟨-, rfl⟩ | ⟨-, hbefore⟩
    · exact hstage retryAt hrecording
    · exact h.recording call' d' retryAt hbefore hrecording

theorem RowsInvariant.step (h : RowsInvariant s) (hstep : Step s e t) : RowsInvariant t := by
  cases hstep with
  | claim _ hrow _ =>
    obtain ⟨-, rfl⟩ := claimReceipt_eq_some hrow
    refine ⟨⟨by simp, by simp, by simp⟩, fun call' d' retryAt hd' hrecording => ?_⟩
    rcases deliveries_cases hd' with ⟨-, rfl⟩ | ⟨-, hbefore⟩
    · simp [claimedDelivery] at hrecording
    · exact h.recording call' d' retryAt hbefore hrecording
  | giveUp _ _ => exact h.setStage h.row (by simp)
  | startDispatch _ _ _ hrow =>
    obtain ⟨hdelivering, -, -, -, rfl⟩ := startDispatch_eq_some hrow
    exact h.setStage ⟨h.row.retryAt, h.row.lease, by simp [hdelivering]⟩ (by simp)
  | execute _ _ => exact h.setStage h.row (by simp)
  | executorEnds _ _ => exact h.setStage h.row (by simp)
  | decide _ _ _ hretry =>
    refine h.setStage h.row fun retryAt hstage => ?_
    obtain ⟨rfl, rfl⟩ := Stage.recording.inj hstage
    rw [← hretry]
    rfl
  | @complete _ status _ _ d _ _ hd hstage hrow =>
    obtain ⟨-, -, hne, rfl⟩ := completeReceipt_eq_some hrow
    refine h.setStage ⟨fun hretry => ?_, fun hdelivering => absurd hdelivering hne, ?_⟩ (by simp)
    · obtain rfl : status = .retryWait := hretry
      exact h.recording _ d _ hd hstage
    · intro hdispatch
      by_cases hretry : status = .retryWait
      · simp [hretry] at hdispatch
      · refine ⟨fun hpending => ?_, hretry⟩
        obtain rfl : status = .pending := hpending
        simp [completeReceipt, terminalTransition] at hrow
  | requestCancel _ hrow =>
    rcases (requestCancel_eq_some hrow).2 with ⟨hdelivering, -, rfl⟩ | rfl
    · exact ⟨⟨h.row.retryAt, h.row.lease, h.row.dispatch⟩, h.recording⟩
    · exact ⟨⟨by simp, by simp, by simp⟩, h.recording⟩
  | retry hrow =>
    obtain ⟨-, -, rfl⟩ := retryReceipt_eq_some hrow
    exact ⟨⟨by simp, by simp, by simp⟩, h.recording⟩
  | reconcile hrow =>
    obtain ⟨-, status, _, hstatus, rfl⟩ := reconcileReceipt_eq_some hrow
    have hcases : status = .succeeded ∨ status = .deadLetter := by simpa using hstatus
    refine ⟨⟨fun hretry => ?_, fun hdelivering => ?_, fun _ => ?_⟩, h.recording⟩ <;>
      rcases hcases with rfl | rfl <;> simp_all

theorem not_isTerminal_of_isClaimable {row : EffectReceipt} {claimedAt : String}
    {isReconciliation : Bool} (h : isClaimable row claimedAt isReconciliation = true) :
    ¬ row.status.IsTerminal := by
  intro hterminal
  cases hstatus : row.status <;> simp_all [EffectStatus.IsTerminal, isClaimable]

/-- A status that a worker records is a terminal one, or a retry is due. -/
theorem isTerminal_of_completeReceipt {lease : EffectLease} {status : EffectStatus}
    {outcome : EffectOutcome} {retryAt : Option String} {completedAt : String}
    {row row' : EffectReceipt}
    (h : completeReceipt lease status outcome retryAt completedAt row = some row')
    (hretry : status ≠ .retryWait) : row'.status.IsTerminal := by
  obtain ⟨-, -, hdelivering, rfl⟩ := completeReceipt_eq_some h
  cases status with
  | pending => simp [completeReceipt, terminalTransition] at h
  | retryWait => exact absurd rfl hretry
  | delivering => exact absurd rfl hdelivering
  | succeeded | deadLetter | outcomeUnknown | cancelled => simp [EffectStatus.IsTerminal]

/-- What is recorded for a retry was being delivered. -/
theorem status_of_completeReceipt {lease : EffectLease} {status : EffectStatus}
    {outcome : EffectOutcome} {retryAt : Option String} {completedAt : String}
    {row row' : EffectReceipt}
    (h : completeReceipt lease status outcome retryAt completedAt row = some row')
    (hretry : status = .retryWait) : row.status = .delivering := by
  subst hretry
  simp only [completeReceipt, terminalTransition, Option.bind_eq_bind, Option.bind_some] at h
  exact List.mem_singleton.mp (casStatusUpdate_eq_some_iff.mp h).1

/-- **A step leaves a receipt to the workers if and only if it meets the condition.** -/
theorem waits_iff_keepsClaimable (hwaits : s.receipt.phase = .afterCommit → Waits s.receipt)
    (hstep : Step s e t) :
    (t.receipt.phase = .afterCommit → Waits t.receipt) ↔ KeepsClaimable s e := by
  cases hstep with
  | claim _ hrow _ =>
    obtain ⟨hclaimable, rfl⟩ := claimReceipt_eq_some hrow
    have hterminal := not_isTerminal_of_isClaimable hclaimable
    refine forall_congr' fun hafter => ⟨fun hnext => ?_, fun hattempt _ => ⟨hattempt, ?_⟩⟩
    · exact (hnext (by simp [EffectStatus.IsTerminal])).1
    · exact (hwaits hafter hterminal).2
  | giveUp _ _ => exact iff_of_true hwaits fun _ => trivial
  | startDispatch _ _ _ hrow =>
    obtain ⟨-, -, hcancel, -, rfl⟩ := startDispatch_eq_some hrow
    refine iff_of_true (fun hafter hterminal => ⟨(hwaits hafter hterminal).1, ?_⟩) fun _ => trivial
    exact fun _ => rfl
  | execute _ _ => exact iff_of_true hwaits fun _ => trivial
  | executorEnds _ _ => exact iff_of_true hwaits fun _ => trivial
  | decide _ _ _ _ => exact iff_of_true hwaits fun _ => trivial
  | @complete _ status _ _ _ _ _ _ _ hrow =>
    by_cases hretry : status = .retryWait
    · have hdelivering := status_of_completeReceipt hrow hretry
      obtain ⟨-, -, -, rfl⟩ := completeReceipt_eq_some hrow
      subst hretry
      refine forall_congr' fun hafter => ⟨fun hnext => ?_, fun hcancel _ => ⟨?_, ?_⟩⟩
      · have hcancel := (hnext (by simp [EffectStatus.IsTerminal])).2
        simpa using hcancel
      · exact (hwaits hafter (by simp [hdelivering, EffectStatus.IsTerminal])).1
      · simp [show s.receipt.cancelRequestedAt = none from hcancel]
    · have hterminal := isTerminal_of_completeReceipt hrow hretry
      refine iff_of_true (fun _ hnot => absurd hterminal hnot) fun _ => ?_
      cases status with
      | retryWait => exact absurd rfl hretry
      | _ => trivial
  | requestCancel _ hrow =>
    obtain ⟨hterminal, hcases⟩ := requestCancel_eq_some hrow
    refine iff_of_true (fun hafter hnot => ?_) fun _ => trivial
    rcases hcases with ⟨-, hdispatch, rfl⟩ | rfl
    · exact ⟨(hwaits hafter hterminal).1, fun _ => hdispatch⟩
    · exact absurd (by simp [EffectStatus.IsTerminal]) hnot
  | retry hrow =>
    obtain ⟨-, -, rfl⟩ := retryReceipt_eq_some hrow
    refine forall_congr' fun _ => ⟨fun hnext => ?_, fun hcancel _ => ⟨Nat.lt_succ_self _, ?_⟩⟩
    · have hcancel := (hnext (by simp [EffectStatus.IsTerminal])).2
      simpa using hcancel
    · simp [show s.receipt.cancelRequestedAt = none from hcancel]
  | reconcile hrow =>
    obtain ⟨-, status, _, hstatus, rfl⟩ := reconcileReceipt_eq_some hrow
    refine iff_of_true (fun _ hnot => absurd ?_ hnot) fun _ => trivial
    have hcases : status = .succeeded ∨ status = .deadLetter := by simpa using hstatus
    rcases hcases with rfl | rfl <;> simp [EffectStatus.IsTerminal]

/-! ### Whole runs -/

variable {phase : EffectPhase} {maxAttempts : ℕ} {history : List Event}

theorem waits_of_run (hmax : 0 < maxAttempts)
    (hrun : Run next KeepsClaimable (.initial phase maxAttempts) history s) :
    RowsInvariant s ∧ (s.receipt.phase = .afterCommit → Waits s.receipt) := by
  refine hrun.invariant (P := fun s => RowsInvariant s ∧
    (s.receipt.phase = .afterCommit → Waits s.receipt))
    ⟨.initial phase maxAttempts, fun _ _ => ⟨hmax, by simp [State.initial, insertedReceipt]⟩⟩ ?_
  rintro u e v hkeeps hnext ⟨hrow, hwaits⟩
  have hstep := step_of_next hnext
  exact ⟨hrow.step hstep, (waits_iff_keepsClaimable hwaits hstep).mpr hkeeps⟩

/-- **No receipt is stranded in a run whose steps meet the condition, and the first step that does
not meet it strands one.** -/
theorem notStranded_iff (hmax : 0 < maxAttempts)
    (hrun : Run next KeepsClaimable (.initial phase maxAttempts) history s) :
    NotStranded s.receipt ∧
      ∀ e t, next s e = some t → (NotStranded t.receipt ↔ KeepsClaimable s e) := by
  obtain ⟨hrow, hwaits⟩ := waits_of_run hmax hrun
  refine ⟨(notStranded_iff_waits hrow.row).mpr hwaits, fun e t hnext => ?_⟩
  have hstep := step_of_next hnext
  exact (notStranded_iff_waits (hrow.step hstep).row).trans (waits_iff_keepsClaimable hwaits hstep)

/-- **In every run** the times that a row waits for are there, and whether it is stranded can be
read off it. -/
theorem notStranded_iff_waits_of_run (hrun : Run next Always (.initial phase maxAttempts) history s) :
    RowInvariant s.receipt ∧
      (NotStranded s.receipt ↔ (s.receipt.phase = .afterCommit → Waits s.receipt)) := by
  have hrow : RowInvariant s.receipt := (hrun.invariant (RowsInvariant.initial phase maxAttempts)
    fun _ _ _ _ hnext hrow => hrow.step (step_of_next hnext)).row
  exact ⟨hrow, notStranded_iff_waits hrow⟩

/-! ### The last attempt -/

section LastAttempt

/-- A worker claims an effect with a single attempt, and crashes. -/
def lastAttemptHistory : List Event :=
  [.claim 1 (deliveryClaim "worker-1" "lease-1" "00:00:00" "00:00:30") none]

/-- **A receipt whose last attempt was claimed is in delivery for ever.** -/
theorem not_notStranded :
    ∃ s, Run next Always (.initial .afterCommit 1) lastAttemptHistory s ∧
      s.receipt.status = .delivering ∧ ¬ NotStranded s.receipt := by
  refine ⟨_, run_always_iff.mpr rfl, rfl, fun h => ?_⟩
  obtain ⟨later, -, hclaim⟩ := h rfl (by decide) "00:00:30"
  obtain ⟨claimed, hclaimed, -⟩ := hclaim "worker-2" "lease-2" later le_rfl
  have hclaimable := (claimReceipt_eq_some hclaimed).1
  exact Bool.false_ne_true ((isClaimable_of_le le_rfl).symm.trans hclaimable)

theorem notStranded_iff_waits_claimed : ∃ s : State, s.receipt.status = .delivering ∧
    (NotStranded s.receipt ↔ (s.receipt.phase = .afterCommit → Waits s.receipt)) := by
  have hrun : Run next Always (.initial .afterCommit 1) lastAttemptHistory _ := run_always_iff.mpr rfl
  exact ⟨_, rfl, (notStranded_iff_waits_of_run hrun).2⟩

theorem notStranded_dispatched :
    ∃ s, s.receipt.dispatchStartedAt = some "00:00:01" ∧ NotStranded s.receipt ∧
      ∀ e t, next s e = some t → (NotStranded t.receipt ↔ KeepsClaimable s e) := by
  have hclaimed : Run next KeepsClaimable (.initial .afterCommit 3) lastAttemptHistory _ :=
    (Run.start).step (fun _ => by decide) rfl
  have hdispatched := hclaimed.step (e := .startDispatch 1 "00:00:01") (fun _ => trivial) rfl
  exact ⟨_, rfl, notStranded_iff (by decide) hdispatched⟩

end LastAttempt

end Effects

end FoundryLite.Runtime
