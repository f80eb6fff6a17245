import FoundryLite.Aip.ReleaseRuns
import Mathlib.Data.List.Nodup

/-!
# Truthful release runs

The number of the attempt fences what is written of a run, and receipts are consumed by conditional
updates. That nothing was committed is read off the type of one error. The attempt that a recovery
takes over from may have committed before the one that fails, or may commit after it.

A first attempt starts from nothing, and a retry from a failure that says that nothing was committed
or is under way. No other attempt runs beside either before a recovery takes over, so that an error
of its own operation speaks for the run (`Evident`).

## Main results

* `inv_of_next`: what every run keeps, whatever is written of its errors.
* `releaseTruthful_of_run`: runs tell the truth if no operation that has committed is refused, and no
  recovered attempt is failed for a refusal.
* `not_releaseTruthful`: the attempt after one that has committed is refused.
-/

namespace FoundryLite.Aip.Release

open Runs
open FoundryLite.Runtime (casStatusUpdate casStatusUpdate_eq_some_iff)
open FoundryLite.Aip.Confirmation (AiRunStatus aiRunSucceeded aiRunFailed)

variable {W B O : Type}
variable {s t : State W B O} {e : Event W B O} {w : W}

/-! ### The property -/

/-- The worker holds the attempt that the run is at. -/
def State.Holds (s : State W B O) (w : W) : Prop :=
  ∃ run, s.run = some run ∧ ∃ start ∈ s.starts, start.worker = w ∧
    start.attempt = run.recoveryAttempt

/-- The operation of no worker can commit. -/
def State.IsQuiet (s : State W B O) : Prop :=
  ∀ w attempt, s.jobs w ≠ some (.executing attempt)

structure Truthful [DecidableEq W] [DecidableEq B] [DecidableEq O] (s : State W B O) : Prop where
  startedOnce : (s.starts.map Start.attempt).Nodup
  /-- The status is changed by the holder of the attempt that is current then. -/
  holder : ∀ e t, next s e = some t → t.run.map ActionRun.status ≠ s.run.map ActionRun.status →
    ∃ w, e.worker = some w ∧ t.Holds w
  distinct : (s.starts.filterMap Start.receiptId).Nodup
  confirmed : ∀ start ∈ s.starts, start.kind ≠ .recovery → ∃ run receiptId receipt,
    s.run = some run ∧ start.receiptId = some receiptId ∧ s.receipts receiptId = some receipt ∧
      receipt.binding = run.binding ∧ receipt.status = .succeeded
  succeeded : ∀ run, s.run = some run → run.status = .succeeded →
    ∃ output, run.toolCall = some output ∧ output ∈ s.commits.map Prod.snd
  notCommitted : ∀ run, s.run = some run → run.status = .failed →
    run.isKnownNotCommitted = true → s.commits = [] ∧ s.IsQuiet

/-! ### The condition -/

/-- An operation that has committed does not come back with an error that is taken as not committed,
and such an error is not written for an attempt that has taken over a stale run. -/
def Permitted (s : State W B O) : Event W B O → Prop
  | .return w (.error true) => ∀ attempt, s.jobs w = some (.executing attempt) →
      attempt ∉ s.commits.map Prod.fst
  | .fail w => ∀ attempt, s.jobs w = some (.returned attempt (.error true)) →
      ∀ start ∈ s.starts, start.attempt = attempt → start.kind ≠ .recovery
  | _ => True

/-! ### Calls -/

theorem ActionRun.recover_eq_some [DecidableEq B] {run recovered : ActionRun B O} {binding : B}
    {now : ℕ} (h : run.recover binding now = some recovered) :
    run.status = .running ∧ recovered.status = .running ∧ recovered.binding = run.binding ∧
      recovered.recoveryAttempt = run.recoveryAttempt + 1 := by
  obtain ⟨⟨-, hstatus, -⟩, hrecovered⟩ := Option.ite_none_right_eq_some.mp h
  obtain rfl := Option.some.inj hrecovered
  exact ⟨hstatus, hstatus, rfl, rfl⟩

theorem ActionRun.retryFailed_eq_some [DecidableEq B] {run reopened : ActionRun B O} {binding : B}
    {now : ℕ} (h : run.retryFailed binding now = some reopened) :
    (run.binding = binding ∧ run.status = .failed ∧ run.isKnownNotCommitted = true) ∧
      reopened.status = .running ∧ reopened.binding = run.binding ∧
      reopened.recoveryAttempt = run.recoveryAttempt + 1 := by
  obtain ⟨hsafe, hmoved⟩ := Option.ite_none_right_eq_some.mp h
  obtain ⟨-, -, rfl⟩ := casStatusUpdate_eq_some_iff.mp hmoved
  exact ⟨of_decide_eq_true hsafe, rfl, rfl, rfl⟩

theorem ActionRun.complete_eq_some [DecidableEq O] {run completed : ActionRun B O} {attempt : ℕ}
    {output : O} (h : run.complete attempt output = some completed) :
    run.recoveryAttempt = attempt ∧ completed.status = .succeeded ∧
      completed.binding = run.binding ∧ completed.recoveryAttempt = run.recoveryAttempt ∧
      completed.toolCall = some output := by
  obtain ⟨⟨hattempt, -⟩, hmoved⟩ := Option.ite_none_right_eq_some.mp h
  obtain ⟨-, -, rfl⟩ := casStatusUpdate_eq_some_iff.mp hmoved
  exact ⟨hattempt, rfl, rfl, rfl, rfl⟩

theorem ActionRun.fail_eq_some_iff {run failed : ActionRun B O} {attempt : ℕ} {isKnown : Bool} :
    run.fail attempt isKnown = some failed ↔ run.status = .running ∧
      run.recoveryAttempt = attempt ∧
        failed = { run with status := .failed, isKnownNotCommitted := isKnown } := by
  constructor
  · intro h
    obtain ⟨⟨hstatus, hattempt⟩, hmoved⟩ := Option.ite_none_right_eq_some.mp h
    obtain ⟨-, -, rfl⟩ := casStatusUpdate_eq_some_iff.mp hmoved
    exact ⟨hstatus, hattempt, rfl⟩
  · rintro ⟨hstatus, hattempt, rfl⟩
    refine Option.ite_none_right_eq_some.mpr ⟨⟨hstatus, hattempt⟩, ?_⟩
    exact casStatusUpdate_eq_some_iff.mpr ⟨by simp [hstatus, aiRunFailed], rfl, rfl⟩

/-- A receipt is ended as it was issued, and nothing else is written. -/
theorem endReceipt_eq_some {receiptId : ℕ} {receipt : Receipt B}
    (h : s.endReceipt receiptId receipt = some t) :
    t = s.setReceipt receiptId ⟨receipt.binding, .succeeded, receipt.expiresAt⟩ := by
  obtain ⟨ended, hended, rfl⟩ := Option.map_eq_some_iff.mp h
  obtain ⟨-, -, rfl⟩ := casStatusUpdate_eq_some_iff.mp hended
  rfl

theorem consumeReceipt_eq_some [DecidableEq B] {receiptId : ℕ} {binding : B} {now : ℕ}
    (h : consumeReceipt s receiptId binding now = some t) :
    ∃ receipt, s.receipts receiptId = some receipt ∧ receipt.status = .running ∧
      t = s.setReceipt receiptId ⟨binding, .succeeded, receipt.expiresAt⟩ := by
  obtain ⟨receipt, hreceipt, hused⟩ := Option.bind_eq_some_iff.mp h
  obtain ⟨husable, hended⟩ := Option.ite_none_right_eq_some.mp hused
  obtain ⟨rfl, hstatus, -⟩ := of_decide_eq_true husable
  exact ⟨receipt, hreceipt, hstatus, endReceipt_eq_some hended⟩

/-! ### The invariant -/

structure Inv (s : State W B O) : Prop where
  startedOnce : (s.starts.map Start.attempt).Nodup
  /-- No attempt was started after the current one. -/
  started : ∀ start ∈ s.starts, ∃ run, s.run = some run ∧ start.attempt ≤ run.recoveryAttempt
  jobs : ∀ w job, s.jobs w = some job →
    ∃ start ∈ s.starts, start.worker = w ∧ start.attempt = job.attempt
  drawn : ∀ receiptId receipt, s.receipts receiptId = some receipt → receiptId < s.drawn
  distinct : (s.starts.filterMap Start.receiptId).Nodup
  confirmed : ∀ start ∈ s.starts, start.kind ≠ .recovery → start.receiptId ≠ none
  consumed : ∀ start ∈ s.starts, ∀ receiptId, start.receiptId = some receiptId →
    ∃ run receipt, s.run = some run ∧ s.receipts receiptId = some receipt ∧
      receipt.binding = run.binding ∧ receipt.status = .succeeded
  returned : ∀ w attempt output, s.jobs w = some (.returned attempt (.output output)) →
    output ∈ s.commits.map Prod.snd
  committed : ∀ commit ∈ s.commits, ∃ start ∈ s.starts, start.attempt = commit.1
  succeeded : ∀ run, s.run = some run → run.status = .succeeded →
    ∃ output, run.toolCall = some output ∧ output ∈ s.commits.map Prod.snd

theorem inv_initial : Inv (State.initial : State W B O) where
  startedOnce := by simp [State.initial]
  started := by simp [State.initial]
  jobs := by simp [State.initial]
  drawn := by simp [State.initial]
  distinct := by simp [State.initial]
  confirmed := by simp [State.initial]
  consumed := by simp [State.initial]
  returned := by simp [State.initial]
  committed := by simp [State.initial]
  succeeded := by simp [State.initial]

/-! ### Jobs -/

/-- A worker goes on with the attempt that it has started, or is done with it. -/
theorem Inv.setJob [DecidableEq W] {job : Option (Job O)} (h : Inv s)
    (hjob : ∀ job', job = some job' →
      ∃ start ∈ s.starts, start.worker = w ∧ start.attempt = job'.attempt)
    (hreturned : ∀ attempt output, job = some (.returned attempt (.output output)) →
      output ∈ s.commits.map Prod.snd) :
    Inv (s.setJob w job) where
  startedOnce := h.startedOnce
  started := h.started
  jobs w' job' hjob' := by
    rcases update_eq_some hjob' with ⟨rfl, hnew⟩ | ⟨-, hold⟩
    · exact hjob job' hnew
    · exact h.jobs w' job' hold
  drawn := h.drawn
  distinct := h.distinct
  confirmed := h.confirmed
  consumed := h.consumed
  returned w' attempt output hjob' := by
    rcases update_eq_some hjob' with ⟨rfl, hnew⟩ | ⟨-, hold⟩
    · exact hreturned attempt output hnew
    · exact h.returned w' attempt output hold
  committed := h.committed
  succeeded := h.succeeded

theorem Inv.endJob [DecidableEq W] (h : Inv s) : Inv (s.setJob w none) :=
  h.setJob (by simp) (by simp)

/-! ### Receipts -/

/-- Receipts are drawn and ended: those that were consumed stay as they are. -/
theorem Inv.receipts {preparation : Option (Preparation B)} {receipts : ℕ → Option (Receipt B)}
    {drawn : ℕ} (h : Inv s)
    (hdrawn : ∀ receiptId receipt, receipts receiptId = some receipt → receiptId < drawn)
    (hkept : ∀ receiptId receipt, s.receipts receiptId = some receipt →
      receipt.status = .succeeded → receipts receiptId = some receipt) :
    Inv { s with preparation := preparation, receipts := receipts, drawn := drawn } where
  startedOnce := h.startedOnce
  started := h.started
  jobs := h.jobs
  drawn := hdrawn
  distinct := h.distinct
  confirmed := h.confirmed
  consumed start hstart receiptId hid := by
    obtain ⟨run, receipt, hrun, hreceipt, hbinding, hstatus⟩ :=
      h.consumed start hstart receiptId hid
    exact ⟨run, receipt, hrun, hkept receiptId receipt hreceipt hstatus, hbinding, hstatus⟩
  returned := h.returned
  committed := h.committed
  succeeded := h.succeeded

theorem receipts_setReceipt {receiptId : ℕ} {receipt : Receipt B} :
    (s.setReceipt receiptId receipt).receipts receiptId = some receipt :=
  Function.update_self ..

/-- A receipt that was not consumed is ended. -/
theorem Inv.setReceipt {receiptId : ℕ} {receipt ended : Receipt B} (h : Inv s)
    (hreceipt : s.receipts receiptId = some receipt) (hstatus : receipt.status = .running) :
    Inv (s.setReceipt receiptId ended) := by
  refine h.receipts (fun receiptId' receipt' hnew => ?_) fun receiptId' receipt' hold hdone => ?_
  · by_cases hid : receiptId' = receiptId
    · exact hid ▸ h.drawn receiptId receipt hreceipt
    · exact h.drawn receiptId' receipt' (by simpa [hid] using hnew)
  · have hid : receiptId' ≠ receiptId := by
      rintro rfl
      obtain rfl := Option.some.inj (hreceipt.symm.trans hold)
      simp [hstatus] at hdone
    simpa [hid] using hold

theorem Inv.issue {binding : B} {now : ℕ} (h : Inv s) : Inv (s.issue binding now) := by
  refine h.receipts (fun receiptId receipt hnew => ?_) fun receiptId receipt hold _ => ?_
  · by_cases hid : receiptId = s.drawn
    · exact hid ▸ Nat.lt_succ_self _
    · exact Nat.lt_succ_of_lt (h.drawn receiptId receipt (by simpa [hid] using hnew))
  · have hid : receiptId ≠ s.drawn := Nat.ne_of_lt (h.drawn receiptId receipt hold)
    simpa [hid] using hold

theorem Inv.prepare [DecidableEq B] {binding : B} {now : ℕ} (h : Inv s)
    (hnext : prepare s binding now = some t) :
    Inv t := by
  unfold Release.prepare at hnext
  split at hnext
  · obtain rfl := Option.some.inj hnext
    exact h.issue
  · obtain ⟨receipt, hreceipt, hnext⟩ := Option.bind_eq_some_iff.mp hnext
    split at hnext
    · simp at hnext
    · split at hnext
      next hstatus =>
        obtain ⟨revoked, hrevoked, hissued⟩ := Option.bind_eq_some_iff.mp hnext
        obtain rfl := Option.some.inj hissued
        obtain rfl := endReceipt_eq_some hrevoked
        exact (h.setReceipt hreceipt hstatus).issue
      next =>
        obtain ⟨-, hissued⟩ := Option.ite_none_right_eq_some.mp hnext
        obtain rfl := Option.some.inj hissued
        exact h.issue

/-- A receipt that can be consumed was not consumed for an attempt. -/
theorem Inv.receiptId_notMem {receiptId : ℕ} {receipt : Receipt B} (h : Inv s)
    (hreceipt : s.receipts receiptId = some receipt) (hstatus : receipt.status = .running) :
    receiptId ∉ s.starts.filterMap Start.receiptId := by
  intro hmem
  obtain ⟨start, hstart, hid⟩ := List.mem_filterMap.mp hmem
  obtain ⟨-, consumed, -, hconsumed, -, hdone⟩ := h.consumed start hstart receiptId hid
  obtain rfl := Option.some.inj (hreceipt.symm.trans hconsumed)
  simp [hstatus] at hdone

/-! ### Attempts -/

/-- **The next attempt is started**, by a transaction that has consumed its receipt. -/
theorem Inv.start [DecidableEq W] {run : ActionRun B O} {kind : StartKind} {receiptId : Option ℕ}
    (h : Inv s) (hrun : ∀ old, s.run = some old →
      run.binding = old.binding ∧ old.recoveryAttempt < run.recoveryAttempt)
    (hstatus : run.status = .running) (hkind : kind ≠ .recovery → receiptId ≠ none)
    (hreceipt : ∀ id, receiptId = some id → id ∉ s.starts.filterMap Start.receiptId ∧
      ∃ receipt, s.receipts id = some receipt ∧ receipt.binding = run.binding ∧
        receipt.status = .succeeded) :
    Inv (s.start w run kind receiptId) where
  startedOnce := by
    refine List.nodup_cons.mpr ⟨fun hmem => ?_, h.startedOnce⟩
    obtain ⟨start, hstart, hattempt⟩ := List.mem_map.mp hmem
    obtain ⟨old, hold, hle⟩ := h.started start hstart
    exact absurd hattempt (Nat.ne_of_lt (Nat.lt_of_le_of_lt hle (hrun old hold).2))
  started start hstart := by
    refine ⟨run, rfl, ?_⟩
    rcases List.mem_cons.mp hstart with rfl | hstart
    · exact Nat.le_refl _
    · obtain ⟨old, hold, hle⟩ := h.started start hstart
      exact Nat.le_of_lt (Nat.lt_of_le_of_lt hle (hrun old hold).2)
  jobs w' job hjob := by
    rcases update_eq_some hjob with ⟨rfl, hnew⟩ | ⟨-, hold⟩
    · obtain rfl := Option.some.inj hnew
      exact ⟨_, List.mem_cons_self, rfl, rfl⟩
    · obtain ⟨start, hstart, hholds⟩ := h.jobs w' job hold
      exact ⟨start, List.mem_cons_of_mem _ hstart, hholds⟩
  drawn := h.drawn
  distinct := by
    show (List.filterMap Start.receiptId (_ :: s.starts)).Nodup
    cases receiptId with
    | none => simpa using h.distinct
    | some id => simpa using ⟨by simpa using (hreceipt id rfl).1, h.distinct⟩
  confirmed start hstart := by
    rcases List.mem_cons.mp hstart with rfl | hstart
    · exact hkind
    · exact h.confirmed start hstart
  consumed start hstart id hid := by
    rcases List.mem_cons.mp hstart with rfl | hstart
    · obtain ⟨-, receipt, hfound, hbinding, hdone⟩ := hreceipt id hid
      exact ⟨run, receipt, rfl, hfound, hbinding, hdone⟩
    · obtain ⟨old, receipt, hold, hfound, hbinding, hdone⟩ := h.consumed start hstart id hid
      exact ⟨run, receipt, rfl, hfound, hbinding.trans (hrun old hold).1.symm, hdone⟩
  returned w' attempt output hjob := by
    rcases update_eq_some hjob with ⟨-, hnew⟩ | ⟨-, hold⟩
    · simp at hnew
    · exact h.returned w' attempt output hold
  committed commit hcommit := by
    obtain ⟨start, hstart, hattempt⟩ := h.committed commit hcommit
    exact ⟨start, List.mem_cons_of_mem _ hstart, hattempt⟩
  succeeded run' hrun' hsucceeded := by
    obtain rfl := Option.some.inj hrun'
    simp [hstatus] at hsucceeded

/-- The holder of the current attempt writes the status of the run. -/
theorem Inv.setRun {run run' : ActionRun B O} (h : Inv s) (hrun : s.run = some run)
    (hbinding : run'.binding = run.binding)
    (hattempt : run'.recoveryAttempt = run.recoveryAttempt)
    (hsucceeded : run'.status = .succeeded →
      ∃ output, run'.toolCall = some output ∧ output ∈ s.commits.map Prod.snd) :
    Inv (s.setRun run') where
  startedOnce := h.startedOnce
  started start hstart := by
    obtain ⟨old, hold, hle⟩ := h.started start hstart
    obtain rfl := Option.some.inj (hrun.symm.trans hold)
    exact ⟨run', rfl, hattempt ▸ hle⟩
  jobs := h.jobs
  drawn := h.drawn
  distinct := h.distinct
  confirmed := h.confirmed
  consumed start hstart id hid := by
    obtain ⟨old, receipt, hold, hfound, holdBinding, hdone⟩ := h.consumed start hstart id hid
    obtain rfl := Option.some.inj (hrun.symm.trans hold)
    exact ⟨run', receipt, rfl, hfound, holdBinding.trans hbinding.symm, hdone⟩
  returned := h.returned
  committed := h.committed
  succeeded run'' hrun'' := by
    obtain rfl := Option.some.inj hrun''
    exact hsucceeded

/-- A mutation is committed by an operation that is under way. -/
theorem Inv.commit {attempt : ℕ} {output : O} (h : Inv s)
    (hjob : s.jobs w = some (.executing attempt)) :
    Inv { s with commits := (attempt, output) :: s.commits } where
  startedOnce := h.startedOnce
  started := h.started
  jobs := h.jobs
  drawn := h.drawn
  distinct := h.distinct
  confirmed := h.confirmed
  consumed := h.consumed
  returned w' attempt' output' hjob' :=
    List.mem_cons_of_mem _ (h.returned w' attempt' output' hjob')
  committed commit hcommit := by
    rcases List.mem_cons.mp hcommit with rfl | hcommit
    · obtain ⟨start, hstart, -, hattempt⟩ := h.jobs w _ hjob
      exact ⟨start, hstart, hattempt⟩
    · exact h.committed commit hcommit
  succeeded run hrun hsucceeded := by
    obtain ⟨result, hresult, hmem⟩ := h.succeeded run hrun hsucceeded
    exact ⟨result, hresult, List.mem_cons_of_mem _ hmem⟩

/-! ### Steps -/

section Steps

variable [DecidableEq W] [DecidableEq B] [DecidableEq O]

theorem Inv.claim {binding : B} {receiptId now : ℕ} (h : Inv s)
    (hnext : next s (.claim w binding receiptId now) = some t) : Inv t := by
  obtain ⟨hfree, hnext⟩ := Option.ite_none_left_eq_some.mp hnext
  obtain ⟨consumed, hconsumed, rfl⟩ := Option.map_eq_some_iff.mp hnext
  obtain ⟨receipt, hreceipt, hstatus, rfl⟩ := consumeReceipt_eq_some hconsumed
  have hnone : s.run = none := by
    by_contra hsome
    exact hfree (.inr hsome)
  refine (h.setReceipt hreceipt hstatus).start ?_ rfl (by simp) ?_
  · intro old hold
    exact absurd (hnone.symm.trans hold) (by simp)
  · rintro id ⟨⟩
    exact ⟨h.receiptId_notMem hreceipt hstatus, _, receipts_setReceipt, rfl, rfl⟩

theorem Inv.recover {binding : B} {now : ℕ} (h : Inv s)
    (hnext : next s (.recover w binding now) = some t) : Inv t := by
  obtain ⟨-, hnext⟩ := Option.ite_none_left_eq_some.mp hnext
  obtain ⟨recovered, hrecovered, rfl⟩ := Option.map_eq_some_iff.mp hnext
  obtain ⟨run, hrun, hrecovered⟩ := Option.bind_eq_some_iff.mp hrecovered
  obtain ⟨-, hrunning, hbinding, hattempt⟩ := ActionRun.recover_eq_some hrecovered
  refine h.start ?_ hrunning (by simp) (by simp)
  intro old hold
  obtain rfl := Option.some.inj (hrun.symm.trans hold)
  exact ⟨hbinding, by omega⟩

theorem Inv.retryFailed {binding : B} {receiptId now : ℕ} (h : Inv s)
    (hnext : next s (.retryFailed w binding receiptId now) = some t) : Inv t := by
  obtain ⟨-, hnext⟩ := Option.ite_none_left_eq_some.mp hnext
  obtain ⟨reopened, hreopened, hnext⟩ := Option.bind_eq_some_iff.mp hnext
  obtain ⟨consumed, hconsumed, hstarted⟩ := Option.bind_eq_some_iff.mp hnext
  obtain rfl := Option.some.inj hstarted
  obtain ⟨run, hrun, hreopened⟩ := Option.bind_eq_some_iff.mp hreopened
  obtain ⟨⟨hsame, -, -⟩, hrunning, hbinding, hattempt⟩ := ActionRun.retryFailed_eq_some hreopened
  obtain ⟨receipt, hreceipt, hstatus, rfl⟩ := consumeReceipt_eq_some hconsumed
  refine (h.setReceipt hreceipt hstatus).start ?_ hrunning (by simp) ?_
  · intro old hold
    obtain rfl := Option.some.inj (hrun.symm.trans hold)
    exact ⟨hbinding, by omega⟩
  · rintro id ⟨⟩
    exact ⟨h.receiptId_notMem hreceipt hstatus, _, receipts_setReceipt,
      hsame.symm.trans hbinding.symm, rfl⟩

theorem Inv.return {outcome : Outcome O} (h : Inv s)
    (hnext : next s (.return w outcome) = some t) : Inv t := by
  simp only [next] at hnext
  split at hnext
  next attempt output hjob =>
    obtain ⟨hmem, hreturned⟩ := Option.ite_none_right_eq_some.mp hnext
    obtain rfl := Option.some.inj hreturned
    refine h.setJob (fun job hjob' => ?_) fun _ _ heq => ?_
    · obtain rfl := Option.some.inj hjob'
      obtain ⟨start, hstart, hholds⟩ := h.jobs w _ hjob
      exact ⟨start, hstart, hholds⟩
    · simp only [Option.some.injEq, Job.returned.injEq, Outcome.output.injEq] at heq
      exact heq.2 ▸ hmem
  next _ attempt hjob hnot =>
    obtain rfl := Option.some.inj hnext
    refine h.setJob (fun job hjob' => ?_) fun _ result heq => ?_
    · obtain rfl := Option.some.inj hjob'
      obtain ⟨start, hstart, hholds⟩ := h.jobs w _ hjob
      exact ⟨start, hstart, hholds⟩
    · simp only [Option.some.injEq, Job.returned.injEq] at heq
      exact absurd heq.2 (hnot result)
  next => simp at hnext

theorem Inv.complete (h : Inv s) (hnext : next s (.complete w) = some t) : Inv t := by
  simp only [next] at hnext
  split at hnext
  next attempt output hjob =>
    split at hnext
    next completed hcompleted =>
      obtain rfl := Option.some.inj hnext
      obtain ⟨run, hrun, hcompleted⟩ := Option.bind_eq_some_iff.mp hcompleted
      obtain ⟨-, -, hbinding, hattempt, hresult⟩ := ActionRun.complete_eq_some hcompleted
      refine (h.setRun hrun hbinding hattempt fun _ => ?_).endJob
      exact ⟨output, hresult, h.returned w attempt output hjob⟩
    next =>
      obtain rfl := Option.some.inj hnext
      exact h.endJob
  next => simp at hnext

theorem Inv.fail (h : Inv s) (hnext : next s (.fail w) = some t) : Inv t := by
  simp only [next] at hnext
  split at hnext
  next attempt isKnown hjob =>
    split at hnext
    next failed hfailed =>
      obtain rfl := Option.some.inj hnext
      obtain ⟨run, hrun, hfailed⟩ := Option.bind_eq_some_iff.mp hfailed
      obtain ⟨-, -, rfl⟩ := ActionRun.fail_eq_some_iff.mp hfailed
      have hset :
          Inv (s.setRun { run with status := .failed, isKnownNotCommitted := isKnown }) :=
        h.setRun hrun rfl rfl fun hdone => by simp at hdone
      exact hset.endJob
    next =>
      obtain rfl := Option.some.inj hnext
      exact h.endJob
  next => simp at hnext

theorem inv_of_next (h : Inv s) (hnext : next s e = some t) : Inv t := by
  cases e with
  | prepare binding now => exact h.prepare hnext
  | claim w binding receiptId now => exact h.claim hnext
  | recover w binding now => exact h.recover hnext
  | retryFailed w binding receiptId now => exact h.retryFailed hnext
  | commit w output =>
    simp only [next] at hnext
    split at hnext
    next attempt hjob =>
      obtain rfl := Option.some.inj hnext
      exact h.commit hjob
    next => simp at hnext
  | «return» w outcome => exact h.return hnext
  | complete w => exact h.complete hnext
  | fail w => exact h.fail hnext
  | defer w =>
    simp only [next] at hnext
    split at hnext
    next =>
      obtain rfl := Option.some.inj hnext
      exact h.endJob
    next => simp at hnext
  | die w =>
    obtain rfl := Option.some.inj hnext
    exact h.endJob

end Steps

/-! ### Who writes the status -/

theorem holds_start [DecidableEq W] {run : ActionRun B O} {kind : StartKind}
    {receiptId : Option ℕ} :
    (s.start w run kind receiptId).Holds w :=
  ⟨run, rfl, _, List.mem_cons_self, rfl, rfl⟩

/-- The attempt of a worker is that of the run that it writes. -/
theorem Inv.holds_setRun [DecidableEq W] {run run' : ActionRun B O} {job : Job O} (h : Inv s)
    (hjob : s.jobs w = some job) (hcurrent : run.recoveryAttempt = job.attempt)
    (hattempt : run'.recoveryAttempt = run.recoveryAttempt) :
    ((s.setRun run').setJob w none).Holds w := by
  obtain ⟨start, hstart, hworker, hstarted⟩ := h.jobs w job hjob
  exact ⟨run', rfl, start, hstart, hworker, hstarted.trans (hcurrent.symm.trans hattempt.symm)⟩

/-- Preparing an action issues receipts, and leaves the rest alone. -/
theorem rest_of_prepare [DecidableEq B] {binding : B} {now : ℕ}
    (hnext : prepare s binding now = some t) :
    t.run = s.run ∧ t.jobs = s.jobs ∧ t.commits = s.commits ∧ t.starts = s.starts := by
  unfold Release.prepare at hnext
  split at hnext
  · obtain rfl := Option.some.inj hnext
    exact ⟨rfl, rfl, rfl, rfl⟩
  · obtain ⟨receipt, -, hnext⟩ := Option.bind_eq_some_iff.mp hnext
    split at hnext
    · simp at hnext
    · split at hnext
      · obtain ⟨revoked, hrevoked, hissued⟩ := Option.bind_eq_some_iff.mp hnext
        obtain rfl := Option.some.inj hissued
        obtain rfl := endReceipt_eq_some hrevoked
        exact ⟨rfl, rfl, rfl, rfl⟩
      · obtain ⟨-, hissued⟩ := Option.ite_none_right_eq_some.mp hnext
        obtain rfl := Option.some.inj hissued
        exact ⟨rfl, rfl, rfl, rfl⟩

/-- **The status is written by the holder of the attempt that is current.** -/
theorem Inv.holder [DecidableEq W] [DecidableEq B] [DecidableEq O] (h : Inv s)
    (hnext : next s e = some t)
    (hchange : t.run.map ActionRun.status ≠ s.run.map ActionRun.status) :
    ∃ w, e.worker = some w ∧ t.Holds w := by
  cases e with
  | prepare binding now => exact absurd (by rw [(rest_of_prepare hnext).1]) hchange
  | claim w binding receiptId now =>
    obtain ⟨-, hnext⟩ := Option.ite_none_left_eq_some.mp hnext
    obtain ⟨consumed, -, rfl⟩ := Option.map_eq_some_iff.mp hnext
    exact ⟨w, rfl, holds_start⟩
  | recover w binding now =>
    obtain ⟨-, hnext⟩ := Option.ite_none_left_eq_some.mp hnext
    obtain ⟨recovered, -, rfl⟩ := Option.map_eq_some_iff.mp hnext
    exact ⟨w, rfl, holds_start⟩
  | retryFailed w binding receiptId now =>
    obtain ⟨-, hnext⟩ := Option.ite_none_left_eq_some.mp hnext
    obtain ⟨reopened, -, hnext⟩ := Option.bind_eq_some_iff.mp hnext
    obtain ⟨consumed, -, hstarted⟩ := Option.bind_eq_some_iff.mp hnext
    obtain rfl := Option.some.inj hstarted
    exact ⟨w, rfl, holds_start⟩
  | commit w output =>
    simp only [next] at hnext
    split at hnext
    · obtain rfl := Option.some.inj hnext
      exact absurd rfl hchange
    · simp at hnext
  | «return» w outcome =>
    simp only [next] at hnext
    split at hnext
    · obtain ⟨-, hreturned⟩ := Option.ite_none_right_eq_some.mp hnext
      obtain rfl := Option.some.inj hreturned
      exact absurd rfl hchange
    · obtain rfl := Option.some.inj hnext
      exact absurd rfl hchange
    · simp at hnext
  | complete w =>
    refine ⟨w, rfl, ?_⟩
    simp only [next] at hnext
    split at hnext
    next attempt output hjob =>
      split at hnext
      next completed hcompleted =>
        obtain rfl := Option.some.inj hnext
        obtain ⟨run, -, hcompleted⟩ := Option.bind_eq_some_iff.mp hcompleted
        obtain ⟨hcurrent, -, -, hattempt, -⟩ := ActionRun.complete_eq_some hcompleted
        exact h.holds_setRun hjob hcurrent hattempt
      next =>
        obtain rfl := Option.some.inj hnext
        exact absurd rfl hchange
    next => simp at hnext
  | fail w =>
    refine ⟨w, rfl, ?_⟩
    simp only [next] at hnext
    split at hnext
    next attempt isKnown hjob =>
      split at hnext
      next failed hfailed =>
        obtain rfl := Option.some.inj hnext
        obtain ⟨run, -, hfailed⟩ := Option.bind_eq_some_iff.mp hfailed
        obtain ⟨-, hcurrent, rfl⟩ := ActionRun.fail_eq_some_iff.mp hfailed
        exact h.holds_setRun hjob hcurrent rfl
      next =>
        obtain rfl := Option.some.inj hnext
        exact absurd rfl hchange
    next => simp at hnext
  | defer w =>
    simp only [next] at hnext
    split at hnext
    · obtain rfl := Option.some.inj hnext
      exact absurd rfl hchange
    · simp at hnext
  | die w =>
    obtain rfl := Option.some.inj hnext
    exact absurd rfl hchange

/-! ### The evidence of a failure -/

/-- **An error speaks for its run.** While an attempt that has not taken over a stale run is the
current one, nothing was committed and nothing is under way but its own operation. -/
structure Evident (s : State W B O) : Prop where
  notCommitted : ∀ run, s.run = some run → run.status = .failed →
    run.isKnownNotCommitted = true → s.commits = [] ∧ s.IsQuiet
  alone : ∀ run, s.run = some run → run.status = .running → ∀ start ∈ s.starts,
    start.attempt = run.recoveryAttempt → start.kind ≠ .recovery →
      (∀ attempt ∈ s.commits.map Prod.fst, attempt = start.attempt) ∧
        ∀ w attempt, s.jobs w = some (.executing attempt) → attempt = start.attempt
  refused : ∀ w attempt, s.jobs w = some (.returned attempt (.error true)) →
    attempt ∉ s.commits.map Prod.fst

theorem evident_initial : Evident (State.initial : State W B O) where
  notCommitted := by simp [State.initial]
  alone := by simp [State.initial]
  refused := by simp [State.initial]

/-- One worker is at an attempt. -/
theorem Inv.worker_eq {w' : W} {job job' : Job O} (h : Inv s) (hjob : s.jobs w = some job)
    (hjob' : s.jobs w' = some job') (hattempt : job.attempt = job'.attempt) : w = w' := by
  obtain ⟨start, hstart, rfl, hstarted⟩ := h.jobs w job hjob
  obtain ⟨start', hstart', rfl, hstarted'⟩ := h.jobs w' job' hjob'
  have hsame : start = start' := List.inj_on_of_nodup_map h.startedOnce hstart hstart'
    (hstarted.trans (hattempt.trans hstarted'.symm))
  rw [hsame]

/-- Before the first attempt nothing is committed or under way. -/
theorem Inv.idle_of_run_none (h : Inv s) (hnone : s.run = none) : s.commits = [] ∧ s.IsQuiet := by
  have hstarts : ∀ start ∈ s.starts, False := fun start hstart => by
    obtain ⟨run, hrun, -⟩ := h.started start hstart
    simp [hnone] at hrun
  constructor
  · refine List.eq_nil_iff_forall_not_mem.mpr fun commit hcommit => ?_
    obtain ⟨start, hstart, -⟩ := h.committed commit hcommit
    exact hstarts start hstart
  · intro w attempt hjob
    obtain ⟨start, hstart, -⟩ := h.jobs w _ hjob
    exact hstarts start hstart

theorem Evident.setJob [DecidableEq W] {job : Option (Job O)} (h : Evident s)
    (hquiet : ∀ attempt, job ≠ some (.executing attempt))
    (hrefused : ∀ attempt, job = some (.returned attempt (.error true)) →
      attempt ∉ s.commits.map Prod.fst) : Evident (s.setJob w job) where
  notCommitted run hrun hfailed hknown := by
    obtain ⟨hcommits, hidle⟩ := h.notCommitted run hrun hfailed hknown
    refine ⟨hcommits, fun w' attempt hjob => ?_⟩
    rcases update_eq_some hjob with ⟨rfl, hnew⟩ | ⟨-, hold⟩
    · exact hquiet attempt hnew
    · exact hidle w' attempt hold
  alone run hrun hrunning start hstart hattempt hkind := by
    obtain ⟨hcommits, hjobs⟩ := h.alone run hrun hrunning start hstart hattempt hkind
    refine ⟨hcommits, fun w' attempt hjob => ?_⟩
    rcases update_eq_some hjob with ⟨rfl, hnew⟩ | ⟨-, hold⟩
    · exact absurd hnew (hquiet attempt)
    · exact hjobs w' attempt hold
  refused w' attempt hjob := by
    rcases update_eq_some hjob with ⟨rfl, hnew⟩ | ⟨-, hold⟩
    · exact hrefused attempt hnew
    · exact h.refused w' attempt hold

theorem Evident.endJob [DecidableEq W] (h : Evident s) : Evident (s.setJob w none) :=
  h.setJob (by simp) (by simp)

/-- The run is not running any more. -/
theorem Evident.setRun {run : ActionRun B O} (h : Evident s) (hstatus : run.status ≠ .running)
    (hfailed : run.status = .failed → run.isKnownNotCommitted = true →
      s.commits = [] ∧ s.IsQuiet) : Evident (s.setRun run) where
  notCommitted run' hrun' := by
    obtain rfl := Option.some.inj hrun'
    exact hfailed
  alone run' hrun' hrunning := by
    obtain rfl := Option.some.inj hrun'
    exact absurd hrunning hstatus
  refused := h.refused

/-- An attempt that takes nothing over starts where nothing is committed or under way. -/
theorem Evident.start [DecidableEq W] {run : ActionRun B O} {kind : StartKind}
    {receiptId : Option ℕ} (h : Evident s) (hinv : Inv s)
    (hrun : ∀ old, s.run = some old → old.recoveryAttempt < run.recoveryAttempt)
    (hstatus : run.status = .running) (hidle : kind ≠ .recovery → s.commits = [] ∧ s.IsQuiet) :
    Evident (s.start w run kind receiptId) where
  notCommitted run' hrun' hfailed := by
    obtain rfl := Option.some.inj hrun'
    simp [hstatus] at hfailed
  alone run' hrun' _ start hstart hattempt hkind := by
    obtain rfl := Option.some.inj hrun'
    rcases List.mem_cons.mp hstart with rfl | hstart
    · obtain ⟨hcommits, hquiet⟩ := hidle hkind
      refine ⟨by simp [State.start, hcommits], fun w' attempt hjob => ?_⟩
      rcases update_eq_some hjob with ⟨rfl, hnew⟩ | ⟨-, hold⟩
      · exact (Job.executing.inj (Option.some.inj hnew)).symm
      · exact absurd hold (hquiet w' attempt)
    · obtain ⟨old, hold, hle⟩ := hinv.started start hstart
      exact absurd hattempt (Nat.ne_of_lt (Nat.lt_of_le_of_lt hle (hrun old hold)))
  refused w' attempt hjob := by
    rcases update_eq_some hjob with ⟨-, hnew⟩ | ⟨-, hold⟩
    · simp at hnew
    · exact h.refused w' attempt hold

theorem Evident.setReceipt {receiptId : ℕ} {receipt : Receipt B} [DecidableEq ℕ] (h : Evident s) :
    Evident (s.setReceipt receiptId receipt) :=
  ⟨h.notCommitted, h.alone, h.refused⟩

theorem Evident.commit {attempt : ℕ} {output : O} (h : Evident s) (hinv : Inv s)
    (hjob : s.jobs w = some (.executing attempt)) :
    Evident { s with commits := (attempt, output) :: s.commits } where
  notCommitted run hrun hfailed hknown := by
    obtain ⟨-, hidle⟩ := h.notCommitted run hrun hfailed hknown
    exact absurd hjob (hidle w attempt)
  alone run hrun hrunning start hstart hattempt hkind := by
    obtain ⟨hcommits, hjobs⟩ := h.alone run hrun hrunning start hstart hattempt hkind
    exact ⟨List.forall_mem_cons.mpr ⟨hjobs w attempt hjob, hcommits⟩, hjobs⟩
  refused w' attempt' hreturned := by
    refine fun hmem => (List.mem_cons.mp hmem).elim (fun hattempt => ?_) (h.refused w' attempt' hreturned)
    obtain rfl := hinv.worker_eq hreturned hjob hattempt
    simp [hjob] at hreturned

theorem Evident.prepare [DecidableEq B] {binding : B} {now : ℕ} (h : Evident s)
    (hnext : Release.prepare s binding now = some t) : Evident t := by
  obtain ⟨hrun, hjobs, hcommits, hstarts⟩ := rest_of_prepare hnext
  refine ⟨?_, ?_, ?_⟩
  · simpa only [State.IsQuiet, hrun, hjobs, hcommits] using h.notCommitted
  · simpa only [hrun, hjobs, hcommits, hstarts] using h.alone
  · simpa only [hjobs, hcommits] using h.refused

variable [DecidableEq W] [DecidableEq B] [DecidableEq O]

/-- **A refusal of an attempt that has taken nothing over says that nothing was committed.** -/
theorem Evident.fail (h : Evident s) (hinv : Inv s)
    (hpermitted : Permitted s (.fail w : Event W B O)) (hnext : next s (.fail w) = some t) :
    Evident t := by
  simp only [next] at hnext
  split at hnext
  next attempt isKnown hjob =>
    split at hnext
    next failed hfailed =>
      obtain rfl := Option.some.inj hnext
      obtain ⟨run, hrun, hfailed⟩ := Option.bind_eq_some_iff.mp hfailed
      obtain ⟨hrunning, hattempt, rfl⟩ := ActionRun.fail_eq_some_iff.mp hfailed
      refine (h.setRun (by simp) fun _ hknown => ?_).endJob
      obtain rfl : isKnown = true := hknown
      obtain ⟨start, hstart, -, hstarted⟩ := hinv.jobs w _ hjob
      obtain ⟨hcommits, hjobs⟩ := h.alone run hrun hrunning start hstart
        (hstarted.trans hattempt.symm) (hpermitted attempt hjob start hstart hstarted)
      constructor
      · refine List.eq_nil_iff_forall_not_mem.mpr fun commit hcommit => ?_
        have hmem := List.mem_map_of_mem (f := Prod.fst) hcommit
        rw [(hcommits _ hmem).trans hstarted] at hmem
        exact h.refused w attempt hjob hmem
      · intro w' attempt' hexecuting
        obtain rfl := hinv.worker_eq hexecuting hjob ((hjobs w' attempt' hexecuting).trans hstarted)
        simp [hjob] at hexecuting
    next =>
      obtain rfl := Option.some.inj hnext
      exact h.endJob
  next => simp at hnext

theorem evident_of_next (h : Evident s) (hinv : Inv s) (hpermitted : Permitted s e)
    (hnext : next s e = some t) : Evident t := by
  cases e with
  | prepare binding now => exact h.prepare hnext
  | claim w binding receiptId now =>
    obtain ⟨hfree, hnext⟩ := Option.ite_none_left_eq_some.mp hnext
    obtain ⟨consumed, hconsumed, rfl⟩ := Option.map_eq_some_iff.mp hnext
    obtain ⟨receipt, hreceipt, hstatus, rfl⟩ := consumeReceipt_eq_some hconsumed
    have hnone : s.run = none := by
      by_contra hsome
      exact hfree (.inr hsome)
    refine h.setReceipt.start (hinv.setReceipt hreceipt hstatus) ?_ rfl fun _ =>
      hinv.idle_of_run_none hnone
    intro old hold
    exact absurd (hnone.symm.trans hold) (by simp)
  | recover w binding now =>
    obtain ⟨-, hnext⟩ := Option.ite_none_left_eq_some.mp hnext
    obtain ⟨recovered, hrecovered, rfl⟩ := Option.map_eq_some_iff.mp hnext
    obtain ⟨run, hrun, hrecovered⟩ := Option.bind_eq_some_iff.mp hrecovered
    obtain ⟨-, hrunning, -, hattempt⟩ := ActionRun.recover_eq_some hrecovered
    refine h.start hinv ?_ hrunning (by simp)
    intro old hold
    obtain rfl := Option.some.inj (hrun.symm.trans hold)
    omega
  | retryFailed w binding receiptId now =>
    obtain ⟨-, hnext⟩ := Option.ite_none_left_eq_some.mp hnext
    obtain ⟨reopened, hreopened, hnext⟩ := Option.bind_eq_some_iff.mp hnext
    obtain ⟨consumed, hconsumed, hstarted⟩ := Option.bind_eq_some_iff.mp hnext
    obtain rfl := Option.some.inj hstarted
    obtain ⟨run, hrun, hreopened⟩ := Option.bind_eq_some_iff.mp hreopened
    obtain ⟨⟨-, hfailed, hknown⟩, hrunning, -, hattempt⟩ := ActionRun.retryFailed_eq_some hreopened
    obtain ⟨receipt, hreceipt, hstatus, rfl⟩ := consumeReceipt_eq_some hconsumed
    refine h.setReceipt.start (hinv.setReceipt hreceipt hstatus) ?_ hrunning fun _ =>
      h.notCommitted run hrun hfailed hknown
    intro old hold
    obtain rfl := Option.some.inj (hrun.symm.trans hold)
    omega
  | commit w output =>
    simp only [next] at hnext
    split at hnext
    next attempt hjob =>
      obtain rfl := Option.some.inj hnext
      exact h.commit hinv hjob
    next => simp at hnext
  | «return» w outcome =>
    simp only [next] at hnext
    split at hnext
    next attempt output hjob =>
      obtain ⟨-, hreturned⟩ := Option.ite_none_right_eq_some.mp hnext
      obtain rfl := Option.some.inj hreturned
      exact h.setJob (by simp) (by simp)
    next attempt hjob hnot =>
      obtain rfl := Option.some.inj hnext
      refine h.setJob (by simp) fun attempt' hreturned => ?_
      obtain ⟨rfl, rfl⟩ := Job.returned.inj (Option.some.inj hreturned)
      exact hpermitted attempt hjob
    next => simp at hnext
  | complete w =>
    simp only [next] at hnext
    split at hnext
    next attempt output hjob =>
      split at hnext
      next completed hcompleted =>
        obtain rfl := Option.some.inj hnext
        obtain ⟨run, -, hcompleted⟩ := Option.bind_eq_some_iff.mp hcompleted
        obtain ⟨-, hstatus, -⟩ := ActionRun.complete_eq_some hcompleted
        exact (h.setRun (by simp [hstatus]) (by simp [hstatus])).endJob
      next =>
        obtain rfl := Option.some.inj hnext
        exact h.endJob
    next => simp at hnext
  | fail w => exact h.fail hinv hpermitted hnext
  | defer w =>
    simp only [next] at hnext
    split at hnext
    next =>
      obtain rfl := Option.some.inj hnext
      exact h.endJob
    next => simp at hnext
  | die w =>
    obtain rfl := Option.some.inj hnext
    exact h.endJob

theorem Inv.truthful (h : Inv s) (hevident : Evident s) : Truthful s where
  startedOnce := h.startedOnce
  holder _ _ := h.holder
  distinct := h.distinct
  confirmed start hstart hkind := by
    obtain ⟨receiptId, hid⟩ := Option.ne_none_iff_exists'.mp (h.confirmed start hstart hkind)
    obtain ⟨run, receipt, hrun, hreceipt, hbinding, hstatus⟩ :=
      h.consumed start hstart receiptId hid
    exact ⟨run, receiptId, receipt, hrun, hid, hreceipt, hbinding, hstatus⟩
  succeeded := h.succeeded
  notCommitted := hevident.notCommitted

/-- **Release runs tell the truth in every run whose steps meet the condition.** -/
theorem releaseTruthful_of_run {history : List (Event W B O)}
    (h : Run next Permitted (State.initial : State W B O) history s) : Truthful s := by
  have hboth : Inv s ∧ Evident s := h.invariant (P := fun s => Inv s ∧ Evident s)
    ⟨inv_initial, evident_initial⟩ fun _ _ _ hpermitted hnext hboth =>
      ⟨inv_of_next hboth.1 hnext, evident_of_next hboth.2 hboth.1 hpermitted hnext⟩
  exact hboth.1.truthful hboth.2

/-! ### Runs of two workers -/

/-- Whether an operation that is refused has committed nothing, and has taken nothing over. -/
def isCareful (s : State Bool String String) : Event Bool String String → Bool
  | .return w (.error true) =>
    match s.jobs w with
    | some (.executing attempt) => decide (attempt ∉ s.commits.map Prod.fst)
    | _ => true
  | .fail w =>
    match s.jobs w with
    | some (.returned attempt (.error true)) =>
      s.starts.all fun start => decide (start.attempt = attempt → start.kind ≠ .recovery)
    | _ => true
  | _ => true

theorem permitted_of_isCareful {s : State Bool String String} {e : Event Bool String String}
    (h : isCareful s e = true) : Permitted s e := by
  cases e with
  | «return» w outcome =>
    cases outcome with
    | error isKnown =>
      cases isKnown with
      | true =>
        intro attempt hjob
        simpa [isCareful, hjob] using h
      | false => trivial
    | _ => trivial
  | fail w =>
    intro attempt hjob start hstart
    simp only [isCareful, hjob, List.all_eq_true] at h
    exact of_decide_eq_true (h start hstart)
  | _ => trivial

/-- An attempt is refused and tried again with a receipt of its own. The worker of the retry dies
after it has committed, and the recovery finds the result. -/
def retriedHistory : List (Event Bool String String) :=
  [.complete true, .return true (.output "assigned"), .recover true "assign" 80, .die true,
    .commit true "assigned", .retryFailed true "assign" 1 40, .prepare "assign" 30, .fail false,
    .return false (.error true), .claim false "assign" 0 10, .prepare "assign" 0]

theorem truthful_retried : ∃ s, Run next Permitted State.initial retriedHistory s ∧
    s.starts.length = 3 ∧ s.commits = [(1, "assigned")] ∧ Truthful s := by
  obtain ⟨s, hreplay, hend⟩ := exists_replay_of_any (show (replay (guarded next isCareful)
    State.initial retriedHistory).any
      (fun s => decide (s.starts.length = 3 ∧ s.commits = [(1, "assigned")])) = true by
    decide +kernel)
  obtain ⟨hstarts, hcommits⟩ := of_decide_eq_true hend
  have hrun := run_of_replay_guarded (fun _ _ => permitted_of_isCareful) hreplay
  exact ⟨s, hrun, hstarts, hcommits, releaseTruthful_of_run hrun⟩

/-- The first attempt commits and its worker dies, and the next attempt is refused. -/
theorem not_releaseTruthful : ¬ ∀ (history : List (Event Bool String String))
    (s : State Bool String String), Run next Always State.initial history s → Truthful s := by
  intro h
  obtain ⟨s, hreplay, hbad⟩ := exists_replay_of_any (show (replay next
    (State.initial : State Bool String String) [.fail true, .return true (.error true),
      .recover true "assign" 40, .die false, .commit false "assigned", .claim false "assign" 0 10,
      .prepare "assign" 0]).any
        (fun s => decide (s.commits ≠ []) && s.run.any fun run =>
          decide (run.status = .failed ∧ run.isKnownNotCommitted = true)) = true by decide +kernel)
  obtain ⟨hcommits, hany⟩ := Bool.and_eq_true_iff.mp hbad
  obtain ⟨run, hrun, hfailed⟩ := (Option.any_eq_true _ _).mp hany
  obtain ⟨hstatus, hknown⟩ := of_decide_eq_true hfailed
  have hnone := (h _ s (run_always_iff.mpr hreplay)).notCommitted run hrun hstatus hknown
  exact of_decide_eq_true hcommits hnone.1

end FoundryLite.Aip.Release
