import FoundryLite.Aip.ReleaseDeliveries
import Mathlib.Data.List.Nodup

/-!
# The ledger of release deliveries

The conditional updates write each outcome once, and one request dispatches. What is settled is
decided on a lookup and a clock that were read at different moments: a merge is absent at once when
it is not there, a deployment when the settle window is over after the lookup. A deployment is taken
for a delivery's own by its commit and the time it was created.

A call takes effect before the settle window of its dispatch is over, so that a lookup which begins
after it finds whatever the call has done. The deployments that were created since a dispatch are of
that delivery, or of nobody, where the deployments of one commit are claimed one after another.

## Main results

* `deliveriesConsistent_of_run`: runs whose steps meet the condition do not contradict the provider.
* `not_deliveriesConsistent`: a merge under way is settled as absent.
-/

namespace FoundryLite.Aip.Delivery

open Runs
open FoundryLite.Runtime (casStatusUpdate casStatusUpdate_eq_some_iff)

variable {W D K : Type}
variable {s t : State W D K} {e : Event W D K} {w : W} {d : D} {row : Record K}

/-! ### The property -/

/-- The outcomes written of a delivery, newest first. -/
def State.written [DecidableEq D] (s : State W D K) (d : D) : List DeliveryStatus :=
  (s.outcomes.filter fun outcome => outcome.1 = d).map Prod.snd

/-- One outcome, or one that settles an ambiguous one. -/
def IsWrittenOnce : List DeliveryStatus → Prop
  | [] => True
  | [_] => True
  | [settled, first] => first = .ambiguous ∧ settled ≠ .ambiguous
  | _ => False

/-- Absent, or failed before acceptance. -/
def Record.IsRefused (row : Record K) : Prop :=
  row.status = .absent ∨ row.status = .failed ∧ row.providerResourceId = none

/-- The mutation of the delivery took effect. -/
def State.Effected (s : State W D K) (d : D) : Prop :=
  ∃ resource ∈ s.resources, resource.owner = some d

structure Consistent [DecidableEq D] (s : State W D K) : Prop where
  dispatchedOnce : s.dispatches.Nodup
  writtenOnce : ∀ d, IsWrittenOnce (s.written d)
  refused : ∀ d row, s.rows d = some row → row.IsRefused → ¬ s.Effected d
  results : ∀ d d' row row' id, s.rows d = some row → s.rows d' = some row' →
    row.operation = .applicationDeploy → row'.operation = .applicationDeploy →
      row.providerResourceId = some id → row'.providerResourceId = some id → d = d'

/-! ### The condition -/

/-- The call of the delivery was dispatched, or is about to be. -/
def State.IsCalled (s : State W D K) (d : D) : Prop :=
  d ∈ s.dispatches ∨ ∃ w row, s.jobs w = some (.claimed d row)

/-- The row is as it was when it was read. -/
def State.IsFenced (s : State W D K) (d : D) (row : Record K) : Prop :=
  ∃ current, s.rows d = some current ∧ current.status = row.status ∧
    current.executionAttempt = row.executionAttempt

/-- The delivery was claimed, and what came of it is not known. -/
def Record.IsOpen (row : Record K) : Prop :=
  row.status = .dispatching ∨ row.status = .ambiguous

/-- No other deployment of this service and commit is open, and their results were there before. -/
def State.IsAlone (s : State W D K) (d : D) (target : K) (now : ℕ) : Prop :=
  ∀ d' row', s.rows d' = some row' → row'.operation = .applicationDeploy → row'.target = target →
    d' ≠ d → ¬ row'.IsOpen ∧ ∀ resource ∈ s.resources,
      row'.providerResourceId = some resource.id → resource.createdAt < now

/-- The deployments of one service and commit are claimed one after another. A delivery is settled
as absent on a lookup that began when the settle window was over, unless its call was refused or
there is nobody to make it. -/
def Permitted (s : State W D K) : Event W D K → Prop
  | .claim w now => ∀ d row, s.jobs w = some (.resuming d row) →
      row.operation = .applicationDeploy → s.IsAlone d row.target now
  | .settle w _ => ∀ d row observedAt, s.jobs w = some (.found d row .nothing observedAt) →
      s.IsFenced d row → row.operation = .sourceMerge ∨ isSettledWindow row s.clock = true →
        isSettledWindow row observedAt = true ∨ d ∈ s.refused ∨ ¬ s.IsCalled d
  | _ => True

/-! ### The invariants -/

/-- What was written of a row with this status. -/
def DeliveryStatus.IsWritten (status : DeliveryStatus) (written : List DeliveryStatus) : Prop :=
  match status with
  | .prepared | .dispatching => written = []
  | .ambiguous => written = [.ambiguous]
  | .landed | .absent | .failed => written = [status] ∨ written = [status, .ambiguous]

/-- A row as it was read, of the row that is there. -/
structure Record.Before (row current : Record K) : Prop where
  operation : current.operation = row.operation
  target : current.target = row.target
  priorResourceId : current.priorResourceId = row.priorResourceId
  claimed : row.status ≠ .prepared →
    current.status ≠ .prepared ∧ current.dispatchStartedAt = row.dispatchStartedAt

def State.Has (s : State W D K) (d : D) (row : Record K) : Prop :=
  ∃ current, s.rows d = some current ∧ row.Before current

/-- The resource is what the row asks for, and was created since the dispatch. -/
def Record.IsFor (row : Record K) (resource : Resource D K) : Prop :=
  resource.operation = row.operation ∧ resource.target = row.target ∧
    ∃ startedAt, row.dispatchStartedAt = some startedAt ∧ startedAt ≤ resource.createdAt

/-- What a request holds, of what is there. -/
def Job.Fits (s : State W D K) : Job D K → Prop
  | .resuming d row => s.Has d row
  | .claimed d row | .calling d row => row.status = .dispatching ∧ s.Has d row
  | .answered d row answer => row.status = .dispatching ∧ s.Has d row ∧
    (answer = .rejected ∨ answer = .absent → d ∈ s.refused) ∧
      ∀ id state, answer = .accepted id state →
        ∃ resource ∈ s.resources, resource.id = id ∧ resource.owner = some d
  | .looking d row observedAt => row.IsOpen ∧ s.Has d row ∧ observedAt ≤ s.clock
  | .found d row (.resource id) observedAt => row.IsOpen ∧ s.Has d row ∧ observedAt ≤ s.clock ∧
    (row.operation = .applicationDeploy →
      ∃ resource ∈ s.resources, resource.id = id ∧ row.IsFor resource)
  | .found d row .nothing observedAt => row.IsOpen ∧ s.Has d row ∧ observedAt ≤ s.clock ∧
    (isSettledWindow row observedAt = true → ¬ s.Effected d)

/-- What holds in every run. -/
structure Inv [DecidableEq D] (s : State W D K) : Prop where
  dispatchedOnce : s.dispatches.Nodup
  /-- The deliveries that were claimed are not prepared. -/
  called : ∀ d, s.IsCalled d → ∃ row, s.rows d = some row ∧ row.status ≠ .prepared
  claims : ∀ w d row, s.jobs w = some (.claimed d row) → d ∉ s.dispatches ∧
    ∀ w' row', s.jobs w' = some (.claimed d row') → w' = w
  jobs : ∀ w job, s.jobs w = some job → job.Fits s
  refusals : ∀ d ∈ s.refused, ¬ s.Effected d
  unwritten : ∀ d, s.rows d = none → s.written d = []
  written : ∀ d row, s.rows d = some row → row.status.IsWritten (s.written d)
  ids : (s.resources.map Resource.id).Nodup
  numbered : ∀ resource ∈ s.resources, resource.id < s.resources.length
  started : ∀ d row, s.rows d = some row → row.priorResourceId = none ∧
    ∀ startedAt, row.dispatchStartedAt = some startedAt → startedAt ≤ s.clock
  /-- A call has its effect after it was dispatched, and before the settle window is over. -/
  effects : ∀ d, ∀ resource ∈ s.resources, resource.owner = some d → d ∈ s.dispatches ∧
    ∃ row, s.rows d = some row ∧ row.IsFor resource ∧ isOpenWindow row resource.createdAt = true
  recorded : ∀ d row id, s.rows d = some row → row.operation = .applicationDeploy →
    row.providerResourceId = some id → ∃ resource ∈ s.resources, resource.id = id ∧
      resource.target = row.target

/-- The call of the delivery, with this row, can have no effect any more. -/
def State.IsPast (s : State W D K) (d : D) (row : Record K) : Prop :=
  isSettledWindow row s.clock = true ∨ d ∈ s.refused ∨ ¬ s.IsCalled d

/-- What holds where the steps meet the condition. -/
structure Accounted (s : State W D K) : Prop where
  refused : ∀ d row, s.rows d = some row → row.IsRefused → ¬ s.Effected d ∧ s.IsPast d row
  alone : ∀ d row startedAt, s.rows d = some row → row.operation = .applicationDeploy →
    row.IsOpen → row.dispatchStartedAt = some startedAt → s.IsAlone d row.target startedAt
  results : ∀ d d' row row' id, s.rows d = some row → s.rows d' = some row' →
    row.operation = .applicationDeploy → row'.operation = .applicationDeploy →
      row.providerResourceId = some id → row'.providerResourceId = some id → d = d'

theorem inv_initial [DecidableEq D] : Inv (State.initial : State W D K) where
  dispatchedOnce := List.nodup_nil
  called d hcalled := by simp [State.IsCalled, State.initial] at hcalled
  claims := by simp [State.initial]
  jobs := by simp [State.initial]
  refusals := by simp [State.initial]
  unwritten d _ := rfl
  written := by simp [State.initial]
  ids := List.nodup_nil
  numbered := by simp [State.initial]
  started := by simp [State.initial]
  effects := by simp [State.initial]
  recorded := by simp [State.initial]

theorem DeliveryStatus.IsWritten.once {status : DeliveryStatus} {written : List DeliveryStatus}
    (h : status.IsWritten written) : IsWrittenOnce written := by
  cases status with
  | prepared | dispatching | ambiguous =>
    obtain rfl := h
    trivial
  | landed | absent | failed =>
    rcases h with rfl | rfl
    · trivial
    · exact ⟨rfl, by simp⟩

theorem Inv.writtenOnce [DecidableEq D] (h : Inv s) (d : D) : IsWrittenOnce (s.written d) := by
  cases hrow : s.rows d with
  | none => simp [h.unwritten d hrow, IsWrittenOnce]
  | some row => exact (h.written d row hrow).once

theorem Inv.consistent [DecidableEq D] (h : Inv s) (haccounted : Accounted s) : Consistent s where
  dispatchedOnce := h.dispatchedOnce
  writtenOnce := h.writtenOnce
  refused d row hrow hrefused := (haccounted.refused d row hrow hrefused).1
  results := haccounted.results

/-! ### The settle window -/

theorem of_canTakeEffect [DecidableEq D] [DecidableEq K] (h : s.canTakeEffect d = true) :
    ∃ row, s.rows d = some row ∧
    isOpenWindow row s.clock = true ∧ d ∉ s.refused := by
  unfold State.canTakeEffect at h
  cases hrow : s.rows d with
  | none => simp [hrow] at h
  | some row =>
    simp only [hrow, Bool.and_eq_true, decide_eq_true_eq] at h
    exact ⟨row, rfl, h.1.1.1, h.1.1.2⟩

theorem Record.IsOpen.ne_prepared (h : row.IsOpen) : row.status ≠ .prepared := by
  rcases h with h | h <;> simp [h]

theorem Record.Before.refl (row : Record K) : row.Before row :=
  ⟨rfl, rfl, rfl, fun h => ⟨h, rfl⟩⟩

theorem Record.Before.trans {row' row'' : Record K} (h : row.Before row') (h' : row'.Before row'') :
    row.Before row'' where
  operation := h'.operation.trans h.operation
  target := h'.target.trans h.target
  priorResourceId := h'.priorResourceId.trans h.priorResourceId
  claimed hclaimed := by
    obtain ⟨hrow', hstarted⟩ := h.claimed hclaimed
    exact (h'.claimed hrow').imp_right fun hstarted' => hstarted'.trans hstarted

/-- The window is open before the times at which it is over. -/
theorem lt_of_isOpenWindow {now later : ℕ} (hopen : isOpenWindow row now = true)
    (hsettled : isSettledWindow row later = true) : now < later := by
  obtain ⟨startedAt, hstarted, hlt⟩ := (Option.any_eq_true _ _).mp hopen
  obtain ⟨startedAt', hstarted', hle⟩ := (Option.any_eq_true _ _).mp hsettled
  obtain rfl := Option.some.inj (hstarted.symm.trans hstarted')
  exact Nat.lt_of_lt_of_le (of_decide_eq_true hlt) (of_decide_eq_true hle)

theorem isSettledWindow_mono {current : Record K} {now later : ℕ}
    (hstarted : current.dispatchStartedAt = row.dispatchStartedAt) (hle : now ≤ later)
    (h : isSettledWindow row now = true) : isSettledWindow current later = true := by
  obtain ⟨startedAt, hat, hover⟩ := (Option.any_eq_true _ _).mp h
  exact (Option.any_eq_true _ _).mpr ⟨startedAt, hstarted.trans hat,
    decide_eq_true (Nat.le_trans (of_decide_eq_true hover) hle)⟩

theorem isOpenWindow_congr {row' : Record K} {now : ℕ}
    (h : row'.dispatchStartedAt = row.dispatchStartedAt) :
    isOpenWindow row' now = isOpenWindow row now := by
  simp only [isOpenWindow, h]

/-- The row that is there goes on from what was read of it. -/
theorem State.Has.before {current : Record K} (h : s.Has d row)
    (hcurrent : s.rows d = some current) : row.Before current := by
  obtain ⟨current', hcurrent', hbefore⟩ := h
  obtain rfl := Option.some.inj (hcurrent.symm.trans hcurrent')
  exact hbefore

/-- Nothing takes effect any more when the window is over. -/
theorem not_canTakeEffect_of_settled [DecidableEq D] [DecidableEq K] {observedAt : ℕ}
    (hrow : s.Has d row) (hopen : row.IsOpen)
    (hsettled : isSettledWindow row observedAt = true) (hle : observedAt ≤ s.clock) :
    ¬ s.canTakeEffect d = true := by
  intro hcan
  obtain ⟨current, hcurrent, hwindow, -⟩ := of_canTakeEffect hcan
  have hbefore := hrow.before hcurrent
  rw [isOpenWindow_congr (hbefore.claimed hopen.ne_prepared).2] at hwindow
  exact absurd (lt_of_isOpenWindow hwindow hsettled) (Nat.not_lt.mpr hle)

/-! ### Lookups -/

/-- A resource is of a row that was read as much as of the row that is there. -/
theorem Record.Before.isFor_iff {current : Record K} {resource : Resource D K}
    (h : row.Before current) (hclaimed : row.status ≠ .prepared) :
    current.IsFor resource ↔ row.IsFor resource := by
  simp only [Record.IsFor, h.operation, h.target, (h.claimed hclaimed).2]

variable [DecidableEq D] [DecidableEq K]

/-- **A lookup that begins when the settle window is over finds what the call has done.** -/
theorem Inv.lookup_ne_nothing {observedAt : ℕ} (h : Inv s) (hrow : s.Has d row) (hopen : row.IsOpen)
    (hsettled : isSettledWindow row observedAt = true) (heffect : s.Effected d) :
    lookup row s.resources observedAt ≠ some .nothing := by
  obtain ⟨resource, hmem, howner⟩ := heffect
  obtain ⟨-, current, hcurrent, hfor, hwindow⟩ := h.effects d resource hmem howner
  have hbefore := hrow.before hcurrent
  obtain ⟨hoperation, htarget, startedAt, hstarted, hle⟩ :=
    (hbefore.isFor_iff hopen.ne_prepared).mp hfor
  have hprior : row.priorResourceId = none :=
    hbefore.priorResourceId.symm.trans (h.started d current hcurrent).1
  rw [isOpenWindow_congr (hbefore.claimed hopen.ne_prepared).2] at hwindow
  have hbound := lt_of_isOpenWindow hwindow hsettled
  unfold lookup
  cases hdo : row.operation with
  | sourceMerge =>
    cases hfind : s.resources.find? fun resource =>
        decide (resource.operation = .sourceMerge ∧ resource.target = row.target) with
    | none =>
      have hnot := List.find?_eq_none.mp hfind resource hmem
      exact absurd (decide_eq_true ⟨hoperation.trans hdo, htarget⟩) hnot
    | some found => simp
  | applicationDeploy =>
    have hcandidate : resource ∈ candidates row s.resources observedAt := by
      simp only [candidates, hstarted, List.mem_filter, Bool.and_eq_true, decide_eq_true_eq,
        matchesDelivery]
      exact ⟨hmem, ⟨hoperation.trans hdo, htarget, by simp [hprior]⟩, hle, Nat.le_of_lt hbound⟩
    cases hcandidates : candidates row s.resources observedAt with
    | nil => simp [hcandidates] at hcandidate
    | cons first rest => cases rest <;> simp

omit [DecidableEq D] in
/-- The deployment that a lookup finds is of the commit, and was created since the dispatch. -/
theorem isFor_of_lookup {resources : List (Resource D K)} {observedAt id : ℕ}
    (hdeploy : row.operation = .applicationDeploy)
    (h : lookup row resources observedAt = some (.resource id)) :
    ∃ resource ∈ resources, resource.id = id ∧ row.IsFor resource := by
  unfold lookup at h
  simp only [hdeploy] at h
  cases hcandidates : candidates row resources observedAt with
  | nil => simp [hcandidates] at h
  | cons resource rest =>
    cases rest with
    | cons => simp [hcandidates] at h
    | nil =>
      simp only [hcandidates, Option.some.injEq, Finding.resource.injEq] at h
      have hmem : resource ∈ candidates row resources observedAt := by simp [hcandidates]
      unfold candidates at hmem
      cases hstarted : row.dispatchStartedAt with
      | none => simp [hstarted] at hmem
      | some startedAt =>
        simp only [hstarted, List.mem_filter, Bool.and_eq_true, decide_eq_true_eq,
          matchesDelivery] at hmem
        obtain ⟨hmem, ⟨hoperation, htarget, -⟩, hle, -⟩ := hmem
        exact ⟨resource, hmem, h, hoperation.trans hdeploy.symm, htarget, startedAt, hstarted, hle⟩

/-! ### Jobs -/

/-- What every step keeps. -/
structure Keeps (s t : State W D K) : Prop where
  rows : ∀ d row, s.rows d = some row → t.Has d row
  clock : s.clock ≤ t.clock
  refused : s.refused ⊆ t.refused
  resources : s.resources ⊆ t.resources
  effects : ∀ d, t.Effected d → s.Effected d ∨ d ∈ s.dispatches ∧ s.canTakeEffect d = true

theorem Keeps.of_rows (hrows : ∀ d row, s.rows d = some row → t.Has d row)
    (hclock : s.clock ≤ t.clock) (hrefused : s.refused ⊆ t.refused)
    (hresources : t.resources = s.resources) : Keeps s t where
  rows := hrows
  clock := hclock
  refused := hrefused
  resources := hresources ▸ List.Subset.refl _
  effects d heffect := .inl (by simpa only [State.Effected, hresources] using heffect)

omit [DecidableEq D] [DecidableEq K] in
theorem has_of_rows (hrows : t.rows = s.rows) (d : D) (row : Record K)
    (hrow : s.rows d = some row) : t.Has d row :=
  ⟨row, hrows ▸ hrow, .refl row⟩

theorem State.Has.mono (h : s.Has d row) (hkeeps : Keeps s t) : t.Has d row := by
  obtain ⟨current, hcurrent, hbefore⟩ := h
  obtain ⟨current', hcurrent', hbefore'⟩ := hkeeps.rows d current hcurrent
  exact ⟨current', hcurrent', hbefore.trans hbefore'⟩

theorem Job.Fits.mono {job : Job D K} (h : job.Fits s) (hkeeps : Keeps s t) : job.Fits t := by
  cases job with
  | resuming d row => exact State.Has.mono h hkeeps
  | claimed d row => exact ⟨h.1, h.2.mono hkeeps⟩
  | calling d row => exact ⟨h.1, h.2.mono hkeeps⟩
  | answered d row answer =>
    obtain ⟨hstatus, hrow, hrefused, haccepted⟩ := h
    refine ⟨hstatus, hrow.mono hkeeps, fun hanswer => hkeeps.refused (hrefused hanswer), ?_⟩
    intro id state hanswer
    obtain ⟨resource, hmem, hid⟩ := haccepted id state hanswer
    exact ⟨resource, hkeeps.resources hmem, hid⟩
  | looking d row observedAt => exact ⟨h.1, h.2.1.mono hkeeps, Nat.le_trans h.2.2 hkeeps.clock⟩
  | found d row finding observedAt =>
    cases finding with
    | resource id =>
      obtain ⟨hopen, hrow, hle, hfound⟩ := h
      refine ⟨hopen, hrow.mono hkeeps, Nat.le_trans hle hkeeps.clock, fun hdeploy => ?_⟩
      obtain ⟨resource, hmem, hfor⟩ := hfound hdeploy
      exact ⟨resource, hkeeps.resources hmem, hfor⟩
    | nothing =>
      obtain ⟨hopen, hrow, hle, hnothing⟩ := h
      refine ⟨hopen, hrow.mono hkeeps, Nat.le_trans hle hkeeps.clock, fun hsettled heffect => ?_⟩
      -- The window was over at the lookup, so that nothing has taken effect since.
      rcases hkeeps.effects d heffect with hold | ⟨-, hcan⟩
      · exact hnothing hsettled hold
      · exact not_canTakeEffect_of_settled hrow hopen hsettled hle hcan

/-- What is past stays so, and without an effect. -/
theorem Keeps.absent {row' : Record K} (hkeeps : Keeps s t) (hrow : s.rows d = some row)
    (hcalled : t.IsCalled d → s.IsCalled d)
    (hstarted : row'.dispatchStartedAt = row.dispatchStartedAt)
    (h : ¬ s.Effected d ∧ s.IsPast d row) : ¬ t.Effected d ∧ t.IsPast d row' := by
  obtain ⟨hnone, hpast⟩ := h
  refine ⟨fun heffect => ?_, hpast.imp (isSettledWindow_mono hstarted hkeeps.clock)
    (.imp (fun hmem => hkeeps.refused hmem) fun hnot hnow => hnot (hcalled hnow))⟩
  obtain ⟨hdispatched, hcan⟩ := (hkeeps.effects d heffect).resolve_left hnone
  obtain ⟨current, hcurrent, hwindow, hrefused⟩ := of_canTakeEffect hcan
  obtain rfl := Option.some.inj (hrow.symm.trans hcurrent)
  rcases hpast with hsettled | hmem | hnot
  · exact Nat.lt_irrefl _ (lt_of_isOpenWindow hwindow hsettled)
  · exact hrefused hmem
  · exact hnot (.inl hdispatched)

theorem Keeps.called (hkeeps : Keeps s t) (h : Inv s) (hcalled : s.IsCalled d) :
    ∃ row, t.rows d = some row ∧ row.status ≠ .prepared := by
  obtain ⟨row, hrow, hnot⟩ := h.called d hcalled
  obtain ⟨current, hcurrent, hbefore⟩ := hkeeps.rows d row hrow
  exact ⟨current, hcurrent, (hbefore.claimed hnot).1⟩

theorem Keeps.effect (hkeeps : Keeps s t) (h : Inv s) {resource : Resource D K}
    (hmem : resource ∈ s.resources) (howner : resource.owner = some d) : d ∈ s.dispatches ∧
      ∃ row, t.rows d = some row ∧ row.IsFor resource ∧
        isOpenWindow row resource.createdAt = true := by
  obtain ⟨hdispatched, row, hrow, hfor, hwindow⟩ := h.effects d resource hmem howner
  obtain ⟨row', hrow', hnot⟩ := h.called d (.inl hdispatched)
  obtain rfl := Option.some.inj (hrow.symm.trans hrow')
  obtain ⟨current, hcurrent, hbefore⟩ := hkeeps.rows d row hrow
  refine ⟨hdispatched, current, hcurrent, (hbefore.isFor_iff hnot).mpr hfor, ?_⟩
  rwa [isOpenWindow_congr (hbefore.claimed hnot).2]

omit [DecidableEq D] [DecidableEq K] in
theorem isCalled_of_setJob [DecidableEq W] {job : Option (Job D K)}
    (hjob : ∀ d row, job ≠ some (.claimed d row)) (h : (s.setJob w job).IsCalled d) :
    s.IsCalled d := by
  rcases h with hmem | ⟨w', row, hclaimed⟩
  · exact .inl hmem
  · rcases update_eq_some hclaimed with ⟨-, hnew⟩ | ⟨-, hold⟩
    · exact absurd hnew (hjob d row)
    · exact .inr ⟨w', row, hold⟩

theorem keeps_setJob [DecidableEq W] {job : Option (Job D K)} : Keeps s (s.setJob w job) :=
  .of_rows (has_of_rows rfl) (Nat.le_refl _) (fun _ => id) rfl

/-- A request goes on, or ends, without a claim. -/
theorem Inv.setJob [DecidableEq W] {job : Option (Job D K)} (h : Inv s)
    (hjob : ∀ d row, job ≠ some (.claimed d row)) (hfits : ∀ job', job = some job' → job'.Fits s) :
    Inv (s.setJob w job) :=
  { h with
    called := fun d hcalled => h.called d (isCalled_of_setJob hjob hcalled)
    claims := fun w' d row hclaimed => by
      rcases update_eq_some hclaimed with ⟨-, hnew⟩ | ⟨-, hold⟩
      · exact absurd hnew (hjob d row)
      · obtain ⟨hmem, hone⟩ := h.claims w' d row hold
        refine ⟨hmem, fun w'' row' hother => ?_⟩
        rcases update_eq_some hother with ⟨-, hnew⟩ | ⟨-, hold'⟩
        · exact absurd hnew (hjob d row')
        · exact hone w'' row' hold'
    jobs := fun w' job' hjob' => by
      rcases update_eq_some hjob' with ⟨-, hnew⟩ | ⟨-, hold⟩
      · exact (hfits job' hnew).mono keeps_setJob
      · exact (h.jobs w' job' hold).mono keeps_setJob }

theorem Inv.endJob [DecidableEq W] (h : Inv s) : Inv (s.setJob w none) :=
  h.setJob (by simp) (by simp)

/-- What leaves the rows and the provider's resources alone, and calls nothing. -/
theorem Accounted.of_same (h : Accounted s) (hkeeps : Keeps s t) (hrows : t.rows = s.rows)
    (hresources : t.resources = s.resources)
    (hcalled : ∀ d, t.IsCalled d → s.IsCalled d) : Accounted t where
  refused d row hrow hrefused := by
    rw [hrows] at hrow
    exact hkeeps.absent hrow (hcalled d) rfl (h.refused d row hrow hrefused)
  alone d row startedAt hrow hdeploy hopen hstarted := by
    have hold := h.alone d row startedAt (hrows ▸ hrow) hdeploy hopen hstarted
    simpa only [State.IsAlone, hrows, hresources] using hold
  results d d' row row' id hrow hrow' := h.results d d' row row' id (hrows ▸ hrow) (hrows ▸ hrow')

theorem Accounted.setJob [DecidableEq W] {job : Option (Job D K)} (h : Accounted s)
    (hjob : ∀ d row, job ≠ some (.claimed d row)) : Accounted (s.setJob w job) :=
  h.of_same keeps_setJob rfl rfl fun _ => isCalled_of_setJob hjob

theorem Accounted.endJob [DecidableEq W] (h : Accounted s) : Accounted (s.setJob w none) :=
  h.setJob (by simp)

/-! ### The provider -/

theorem keeps_tick {elapsed : ℕ} : Keeps s { s with clock := s.clock + elapsed } :=
  .of_rows (has_of_rows rfl) (Nat.le_add_right ..) (fun _ => id) rfl

theorem Inv.tick {elapsed : ℕ} (h : Inv s) : Inv { s with clock := s.clock + elapsed } :=
  { h with
    jobs := fun w job hjob => (h.jobs w job hjob).mono keeps_tick
    started := fun d row hrow => (h.started d row hrow).imp_right fun hle startedAt hstarted =>
      Nat.le_add_right_of_le (hle startedAt hstarted) }

theorem Accounted.tick {elapsed : ℕ} (h : Accounted s) :
    Accounted { s with clock := s.clock + elapsed } :=
  h.of_same keeps_tick rfl rfl fun _ => id

/-- Who owns a new resource of this kind: a call that can still take effect, or nobody. -/
def State.CanOwn (s : State W D K) (operation : Operation) (target : K) (owner : Option D) : Prop :=
  ∀ d, owner = some d → d ∈ s.dispatches ∧ s.canTakeEffect d = true ∧
    ∃ row, s.rows d = some row ∧ row.operation = operation ∧ row.target = target

omit [DecidableEq D] [DecidableEq K] in
theorem effected_create {operation : Operation} {target : K} {owner : Option D}
    (h : (s.create operation target owner).Effected d) : s.Effected d ∨ owner = some d := by
  obtain ⟨resource, hmem, hresource⟩ := h
  rcases List.mem_cons.mp hmem with rfl | hmem
  · exact .inr hresource
  · exact .inl ⟨resource, hmem, hresource⟩

theorem keeps_create {operation : Operation} {target : K} {owner : Option D}
    (howner : s.CanOwn operation target owner) : Keeps s (s.create operation target owner) where
  rows := has_of_rows rfl
  clock := Nat.le_refl _
  refused _ := id
  resources := List.subset_cons_self _ _
  effects d heffect := (effected_create heffect).imp_right fun hd =>
    ⟨(howner d hd).1, (howner d hd).2.1⟩

theorem Inv.create {operation : Operation} {target : K} {owner : Option D} (h : Inv s)
    (howner : s.CanOwn operation target owner) : Inv (s.create operation target owner) :=
  { h with
    jobs := fun w job hjob => (h.jobs w job hjob).mono (keeps_create howner)
    refusals := fun d hd heffect => by
      rcases effected_create heffect with hold | hnew
      · exact h.refusals d hd hold
      · obtain ⟨row, -, -, hnot⟩ := of_canTakeEffect (howner d hnew).2.1
        exact hnot hd
    ids := by
      refine List.nodup_cons.mpr ⟨fun hmem => ?_, h.ids⟩
      obtain ⟨resource, hresource, hid⟩ := List.mem_map.mp hmem
      exact absurd (h.numbered resource hresource) (hid ▸ Nat.lt_irrefl _)
    numbered := fun resource hmem => by
      rcases List.mem_cons.mp hmem with rfl | hmem
      · exact Nat.lt_succ_self _
      · exact Nat.lt_succ_of_lt (h.numbered resource hmem)
    effects := fun d resource hmem hresource => by
      rcases List.mem_cons.mp hmem with rfl | hmem
      · obtain ⟨hdispatched, hcan, row, hrow, hoperation, htarget⟩ := howner d hresource
        obtain ⟨row', hrow', hwindow, -⟩ := of_canTakeEffect hcan
        obtain rfl := Option.some.inj (hrow.symm.trans hrow')
        obtain ⟨startedAt, hstarted, -⟩ := (Option.any_eq_true _ _).mp hwindow
        exact ⟨hdispatched, row, hrow, ⟨hoperation.symm, htarget.symm, startedAt, hstarted,
          (h.started d row hrow).2 startedAt hstarted⟩, hwindow⟩
      · exact h.effects d resource hmem hresource
    recorded := fun d row id hrow hdeploy hid => by
      obtain ⟨resource, hmem, hresource⟩ := h.recorded d row id hrow hdeploy hid
      exact ⟨resource, List.mem_cons_of_mem _ hmem, hresource⟩ }

/-- The provider has a new resource, which is no effect of a delivery that is refused, and no
result yet. -/
theorem Accounted.create {operation : Operation} {target : K} {owner : Option D} (h : Accounted s)
    (hinv : Inv s) (howner : s.CanOwn operation target owner) :
    Accounted (s.create operation target owner) where
  refused d row hrow hrefused :=
    (keeps_create howner).absent hrow id rfl (h.refused d row hrow hrefused)
  alone d row startedAt hrow hdeploy hopen hstarted d' row' hrow' hdeploy' htarget hd := by
    obtain ⟨hclosed, hbefore⟩ :=
      h.alone d row startedAt hrow hdeploy hopen hstarted d' row' hrow' hdeploy' htarget hd
    refine ⟨hclosed, fun resource hmem hid => ?_⟩
    rcases List.mem_cons.mp hmem with rfl | hmem
    · obtain ⟨resource, hresource, hsame, -⟩ := hinv.recorded d' row' _ hrow' hdeploy' hid
      exact absurd (hinv.numbered resource hresource) (hsame ▸ Nat.lt_irrefl _)
    · exact hbefore resource hmem hid
  results := h.results

theorem keeps_refuse {answer : Answer} : Keeps s (s.refuse d answer) := by
  cases answer with
  | accepted | outcomeUnknown =>
    exact .of_rows (has_of_rows rfl) (Nat.le_refl _) (fun _ => id) rfl
  | rejected | absent =>
    exact .of_rows (has_of_rows rfl) (Nat.le_refl _) (List.subset_cons_self _ _) rfl

/-- A call that had no effect is refused. -/
theorem Inv.refuse {answer : Answer} (h : Inv s) (htrue : s.isTrueAnswer d answer = true) :
    Inv (s.refuse d answer) := by
  have hjobs : ∀ w job, s.jobs w = some job → job.Fits (s.refuse d answer) :=
    fun w job hjob => (h.jobs w job hjob).mono keeps_refuse
  cases answer with
  | accepted id state => exact h
  | outcomeUnknown => exact h
  | rejected | absent =>
    refine { h with jobs := hjobs, refusals := fun d' hd' heffect => ?_ }
    rcases List.mem_cons.mp hd' with rfl | hd'
    · obtain ⟨resource, hmem, howner⟩ := heffect
      exact of_decide_eq_true (List.all_eq_true.mp htrue resource hmem) howner
    · exact h.refusals d' hd' heffect

theorem Accounted.refuse {answer : Answer} (h : Accounted s) : Accounted (s.refuse d answer) := by
  have hkeeps : Keeps s (s.refuse d answer) := keeps_refuse
  cases answer with
  | accepted | outcomeUnknown => exact h
  | rejected | absent => exact h.of_same hkeeps rfl rfl fun _ => id

/-! ### Rows -/

omit [DecidableEq K] in
theorem rows_update {d' : D} {row' : Record K}
    (h : Function.update s.rows d (some row) d' = some row') :
    d' = d ∧ row = row' ∨ d' ≠ d ∧ s.rows d' = some row' :=
  (update_eq_some h).imp_left fun hnew => ⟨hnew.1, Option.some.inj hnew.2⟩

omit [DecidableEq K] in
/-- A row is written over by one that goes on from it. -/
theorem has_of_update (hrows : t.rows = Function.update s.rows d (some row))
    (hbefore : ∀ current, s.rows d = some current → current.Before row) (d' : D) (row' : Record K)
    (hrow' : s.rows d' = some row') : t.Has d' row' := by
  by_cases hd : d' = d
  · subst hd
    exact ⟨row, by simp [hrows], hbefore row' hrow'⟩
  · exact ⟨row', by simpa [hrows, hd] using hrow', .refl row'⟩

/-- One row is written. Where it is open it is alone, and where another is open it is not, and its
result is older. -/
theorem Accounted.of_update (h : Accounted s) (hkeeps : Keeps s t)
    (hrows : t.rows = Function.update s.rows d (some row)) (hresources : t.resources = s.resources)
    (hcalled : ∀ d', d' ≠ d → t.IsCalled d' → s.IsCalled d')
    (hrefused : row.IsRefused → ¬ t.Effected d ∧ t.IsPast d row)
    (halone : ∀ startedAt, row.operation = .applicationDeploy → row.IsOpen →
      row.dispatchStartedAt = some startedAt → s.IsAlone d row.target startedAt)
    (hother : ∀ d' row' startedAt, d' ≠ d → s.rows d' = some row' →
      row'.operation = .applicationDeploy → row'.IsOpen → s.IsAlone d' row'.target startedAt →
        row.operation = .applicationDeploy → row.target = row'.target →
          ¬ row.IsOpen ∧ ∀ resource ∈ s.resources,
            row.providerResourceId = some resource.id → resource.createdAt < startedAt)
    (hresult : ∀ d' row' id, d' ≠ d → s.rows d' = some row' →
      row'.operation = .applicationDeploy → row.operation = .applicationDeploy →
        row'.providerResourceId = some id → row.providerResourceId ≠ some id) : Accounted t where
  refused d' row' hrow hnot := by
    rw [hrows] at hrow
    rcases rows_update hrow with ⟨rfl, rfl⟩ | ⟨hd, hold⟩
    · exact hrefused hnot
    · exact hkeeps.absent hold (hcalled d' hd) rfl (h.refused d' row' hold hnot)
  alone d₁ row₁ startedAt hrow₁ hdeploy₁ hopen hstarted d₂ row₂ hrow₂ hdeploy₂ htarget hd := by
    rw [hrows] at hrow₁ hrow₂
    rw [hresources]
    rcases rows_update hrow₁ with ⟨rfl, rfl⟩ | ⟨hd₁, hold₁⟩
    · exact halone startedAt hdeploy₁ hopen hstarted d₂ row₂ ((rows_update hrow₂).resolve_left
        fun heq => hd heq.1).2 hdeploy₂ htarget hd
    · have hold := h.alone d₁ row₁ startedAt hold₁ hdeploy₁ hopen hstarted
      rcases rows_update hrow₂ with ⟨rfl, rfl⟩ | ⟨-, hold₂⟩
      · exact hother d₁ row₁ startedAt hd₁ hold₁ hdeploy₁ hopen hold hdeploy₂ htarget
      · exact hold d₂ row₂ hold₂ hdeploy₂ htarget hd
  results d₁ d₂ row₁ row₂ id hrow₁ hrow₂ hdeploy₁ hdeploy₂ hid₁ hid₂ := by
    rw [hrows] at hrow₁ hrow₂
    rcases rows_update hrow₁ with ⟨rfl, rfl⟩ | ⟨hd₁, hold₁⟩
    · rcases rows_update hrow₂ with ⟨rfl, -⟩ | ⟨hd₂, hold₂⟩
      · rfl
      · exact absurd hid₁ (hresult d₂ row₂ id hd₂ hold₂ hdeploy₂ hdeploy₁ hid₂)
    · rcases rows_update hrow₂ with ⟨rfl, rfl⟩ | ⟨-, hold₂⟩
      · exact absurd hid₂ (hresult d₁ row₁ id hd₁ hold₁ hdeploy₁ hdeploy₂ hid₁)
      · exact h.results d₁ d₂ row₁ row₂ id hold₁ hold₂ hdeploy₁ hdeploy₂ hid₁ hid₂

theorem keeps_prepare {operation : Operation} {target : K} (hfree : s.rows d = none) :
    Keeps s (s.setRow d (prepareRecord operation target)) :=
  .of_rows (has_of_update rfl (by simp [hfree])) (Nat.le_refl _) (fun _ => id) rfl

/-- A delivery is prepared under an identifier of its own. -/
theorem Inv.prepare {operation : Operation} {target : K} (h : Inv s) (hfree : s.rows d = none) :
    Inv (s.setRow d (prepareRecord operation target)) :=
  { h with
    called := fun _ hcalled => (keeps_prepare hfree).called h hcalled
    jobs := fun w job hjob => (h.jobs w job hjob).mono (keeps_prepare hfree)
    unwritten := fun d' hnone => by
      by_cases hd : d' = d
      · exact hd ▸ h.unwritten d hfree
      · exact h.unwritten d' (by simpa [State.setRow, hd] using hnone)
    written := fun d' row hrow => by
      rcases rows_update hrow with ⟨rfl, rfl⟩ | ⟨-, hold⟩
      · exact h.unwritten d' hfree
      · exact h.written d' row hold
    started := fun d' row hrow => by
      rcases rows_update hrow with ⟨-, rfl⟩ | ⟨-, hold⟩
      · simp [prepareRecord]
      · exact h.started d' row hold
    effects := fun _ _ hmem howner => (keeps_prepare hfree).effect h hmem howner
    recorded := fun d' row id hrow hdeploy hid => by
      rcases rows_update hrow with ⟨-, rfl⟩ | ⟨-, hold⟩
      · simp [prepareRecord] at hid
      · exact h.recorded d' row id hold hdeploy hid }

theorem Accounted.prepare {operation : Operation} {target : K} (h : Accounted s)
    (hfree : s.rows d = none) : Accounted (s.setRow d (prepareRecord operation target)) :=
  h.of_update (keeps_prepare hfree) rfl rfl (fun _ _ => id)
    (by simp [Record.IsRefused, prepareRecord]) (by simp [Record.IsOpen, prepareRecord])
    (by simp [Record.IsOpen, prepareRecord]) (by simp [prepareRecord])

/-! ### Claims -/

/-- The row of a delivery as a claim leaves it. -/
def Record.claim (row : Record K) (attempt now : ℕ) : Record K :=
  ⟨row.operation, row.target, row.priorResourceId, .dispatching, attempt, some now,
    row.providerResourceId⟩

def State.claim [DecidableEq W] (s : State W D K) (w : W) (d : D) (row : Record K)
    (attempt now : ℕ) : State W D K :=
  (s.setRow d (row.claim attempt now)).setJob w (some (.claimed d (row.claim attempt now)))

omit [DecidableEq K] in
theorem isCalled_claim [DecidableEq W] {d' : D} {attempt now : ℕ}
    (h : (s.claim w d row attempt now).IsCalled d') : d' = d ∨ s.IsCalled d' := by
  rcases h with hmem | ⟨w', row', hjob⟩
  · exact .inr (.inl hmem)
  · rcases update_eq_some hjob with ⟨-, hnew⟩ | ⟨-, hold⟩
    · simp only [Option.some.injEq, Job.claimed.injEq] at hnew
      exact .inl hnew.1.symm
    · exact .inr (.inr ⟨w', row', hold⟩)

omit [DecidableEq K] in
theorem Inv.not_isCalled (h : Inv s) (hrow : s.rows d = some row)
    (hstatus : row.status = .prepared) : ¬ s.IsCalled d := by
  intro hcalled
  obtain ⟨row', hrow', hnot⟩ := h.called d hcalled
  obtain rfl := Option.some.inj (hrow.symm.trans hrow')
  exact hnot hstatus

theorem keeps_claim [DecidableEq W] {attempt now : ℕ} (hrow : s.rows d = some row)
    (hstatus : row.status = .prepared) : Keeps s (s.claim w d row attempt now) := by
  have hrows : (s.claim w d row attempt now).rows =
      Function.update s.rows d (some (row.claim attempt now)) := rfl
  refine .of_rows (has_of_update hrows fun current hcurrent => ?_) (Nat.le_refl _) (fun _ => id) rfl
  obtain rfl := Option.some.inj (hrow.symm.trans hcurrent)
  exact ⟨rfl, rfl, rfl, fun hnot => absurd hstatus hnot⟩

/-- A prepared delivery is claimed by one request. -/
theorem Inv.claim [DecidableEq W] {current : Record K} {attempt now : ℕ} (h : Inv s)
    (hcurrent : s.rows d = some current) (hstatus : current.status = .prepared)
    (hnow : now ≤ s.clock) : Inv (s.claim w d current attempt now) := by
  have huncalled := h.not_isCalled hcurrent hstatus
  have hkeeps : Keeps s (s.claim w d current attempt now) := keeps_claim hcurrent hstatus
  have hrows : (s.claim w d current attempt now).rows =
      Function.update s.rows d (some (current.claim attempt now)) := rfl
  refine { h with
    called := fun d' hcalled => ?_
    claims := fun w' d' row hjob => ?_
    jobs := fun w' job hjob => ?_
    unwritten := fun d' hnone => ?_
    written := fun d' row hrow => ?_
    started := fun d' row hrow => ?_
    effects := fun _ _ hmem howner => hkeeps.effect h hmem howner
    recorded := fun d' row id hrow hdeploy hid => ?_ }
  · by_cases hd : d' = d
    · exact ⟨_, by rw [hrows, hd, Function.update_self], by simp [Record.claim]⟩
    · exact hkeeps.called h ((isCalled_claim hcalled).resolve_left hd)
  · rcases update_eq_some hjob with ⟨rfl, hnew⟩ | ⟨-, hold⟩
    · simp only [Option.some.injEq, Job.claimed.injEq] at hnew
      obtain ⟨rfl, -⟩ := hnew
      refine ⟨fun hmem => huncalled (.inl hmem), fun w'' row' hother => ?_⟩
      rcases update_eq_some hother with ⟨hw, -⟩ | ⟨-, hold'⟩
      · exact hw
      · exact absurd (.inr ⟨w'', row', hold'⟩) huncalled
    · obtain ⟨hmem, hone⟩ := h.claims w' d' row hold
      refine ⟨hmem, fun w'' row' hother => ?_⟩
      rcases update_eq_some hother with ⟨-, hnew⟩ | ⟨-, hold'⟩
      · simp only [Option.some.injEq, Job.claimed.injEq] at hnew
        obtain ⟨rfl, -⟩ := hnew
        exact absurd (.inr ⟨w', row, hold⟩) huncalled
      · exact hone w'' row' hold'
  · rcases update_eq_some hjob with ⟨-, hnew⟩ | ⟨-, hold⟩
    · obtain rfl := Option.some.inj hnew
      exact ⟨rfl, _, by rw [hrows, Function.update_self], .refl _⟩
    · exact (h.jobs w' job hold).mono hkeeps
  · have hd : d' ≠ d := by
      rintro rfl
      simp [hrows] at hnone
    exact h.unwritten d' (by simpa [hrows, hd] using hnone)
  · rcases rows_update hrow with ⟨rfl, rfl⟩ | ⟨-, hold⟩
    · have hwritten := h.written d' current hcurrent
      rw [hstatus] at hwritten
      exact hwritten
    · exact h.written d' row hold
  · rcases rows_update hrow with ⟨rfl, rfl⟩ | ⟨-, hold⟩
    · refine ⟨(h.started d' current hcurrent).1, fun startedAt hstarted => ?_⟩
      obtain rfl := Option.some.inj hstarted
      exact hnow
    · exact h.started d' row hold
  · rcases rows_update hrow with ⟨rfl, rfl⟩ | ⟨-, hold⟩
    · exact h.recorded d' current id hcurrent hdeploy hid
    · exact h.recorded d' row id hold hdeploy hid

/-- A deployment is claimed when no other of its service and commit is open. -/
theorem Accounted.claim [DecidableEq W] {current : Record K} {attempt now : ℕ} (h : Accounted s)
    (hcurrent : s.rows d = some current) (hstatus : current.status = .prepared)
    (halone : current.operation = .applicationDeploy → s.IsAlone d current.target now) :
    Accounted (s.claim w d current attempt now) := by
  refine h.of_update (keeps_claim hcurrent hstatus) rfl rfl
    (fun d' hd hcalled => (isCalled_claim hcalled).resolve_left hd)
    (by simp [Record.IsRefused, Record.claim]) (fun startedAt hdeploy _ hstarted => ?_)
    (fun d' row' _ hd hrow' hdeploy' hopen _ hdeploy htarget => ?_)
    fun d' row' id hd hrow' hdeploy' hdeploy hid' hid => ?_
  · obtain rfl := Option.some.inj hstarted
    exact halone hdeploy
  · exact absurd hopen (halone hdeploy d' row' hrow' hdeploy' htarget.symm hd).1
  · exact hd (h.results d' d row' current id hrow' hcurrent hdeploy' hdeploy hid' hid)

/-! ### Dispatches -/

def State.dispatch [DecidableEq W] (s : State W D K) (w : W) (d : D) (row : Record K) :
    State W D K :=
  { s.setJob w (some (.calling d row)) with dispatches := d :: s.dispatches }

omit [DecidableEq D] [DecidableEq K] in
theorem isCalled_dispatch [DecidableEq W] {d' : D} (hjob : s.jobs w = some (.claimed d row))
    (h : (s.dispatch w d row).IsCalled d') : s.IsCalled d' := by
  rcases h with hmem | ⟨w', row', hclaimed⟩
  · rcases List.mem_cons.mp hmem with rfl | hmem
    · exact .inr ⟨w, row, hjob⟩
    · exact .inl hmem
  · rcases update_eq_some hclaimed with ⟨-, hnew⟩ | ⟨-, hold⟩
    · simp at hnew
    · exact .inr ⟨w', row', hold⟩

theorem keeps_dispatch [DecidableEq W] : Keeps s (s.dispatch w d row) :=
  .of_rows (has_of_rows rfl) (Nat.le_refl _) (fun _ => id) rfl

/-- The request that has claimed a delivery dispatches it. -/
theorem Inv.dispatch [DecidableEq W] (h : Inv s) (hjob : s.jobs w = some (.claimed d row)) :
    Inv (s.dispatch w d row) := by
  obtain ⟨hmem, hone⟩ := h.claims w d row hjob
  refine { h with
    dispatchedOnce := List.nodup_cons.mpr ⟨hmem, h.dispatchedOnce⟩
    called := fun d' hcalled => h.called d' (isCalled_dispatch hjob hcalled)
    claims := fun w' d' row' hclaimed => ?_
    jobs := fun w' job hjob' => ?_
    effects := fun d' resource hresource howner => ?_ }
  · rcases update_eq_some hclaimed with ⟨-, hnew⟩ | ⟨hw, hold⟩
    · simp at hnew
    · obtain ⟨hmem', hone'⟩ := h.claims w' d' row' hold
      refine ⟨fun hcons => ?_, fun w'' row'' hother => ?_⟩
      · rcases List.mem_cons.mp hcons with rfl | hmem''
        · exact hw (hone w' row' hold)
        · exact hmem' hmem''
      · rcases update_eq_some hother with ⟨-, hnew⟩ | ⟨-, hold'⟩
        · simp at hnew
        · exact hone' w'' row'' hold'
  · rcases update_eq_some hjob' with ⟨-, hnew⟩ | ⟨-, hold⟩
    · obtain rfl := Option.some.inj hnew
      have hfits : Job.Fits s (.claimed d row) := h.jobs w _ hjob
      exact ⟨hfits.1, hfits.2.mono keeps_dispatch⟩
    · exact (h.jobs w' job hold).mono keeps_dispatch
  · obtain ⟨hdispatched, hrow⟩ := h.effects d' resource hresource howner
    exact ⟨List.mem_cons_of_mem _ hdispatched, hrow⟩

theorem Accounted.dispatch [DecidableEq W] (h : Accounted s)
    (hjob : s.jobs w = some (.claimed d row)) : Accounted (s.dispatch w d row) :=
  h.of_same keeps_dispatch rfl rfl fun _ => isCalled_dispatch hjob

/-! ### Outcomes -/

/-- The row of a delivery as an outcome leaves it. -/
def Record.outcome (row : Record K) (status : DeliveryStatus) (providerResourceId : Option ℕ) :
    Record K :=
  ⟨row.operation, row.target, row.priorResourceId, status, row.executionAttempt,
    row.dispatchStartedAt, providerResourceId⟩

def State.record (s : State W D K) (d : D) (row : Record K) (status : DeliveryStatus)
    (providerResourceId : Option ℕ) : State W D K :=
  { s.setRow d (row.outcome status providerResourceId) with
    outcomes := (d, status) :: s.outcomes }

omit [DecidableEq K] in
theorem writeOutcome_eq_some_iff {status : DeliveryStatus} {providerResourceId : Option ℕ} :
    s.writeOutcome d row status providerResourceId = some t ↔ ∃ current,
      s.rows d = some current ∧ current.status = row.status ∧
        current.executionAttempt = row.executionAttempt ∧
          t = s.record d current status providerResourceId := by
  simp only [State.writeOutcome, Option.bind_eq_bind, Option.bind_eq_some_iff,
    casStatusUpdate_eq_some_iff, List.mem_singleton, decide_eq_true_eq]
  constructor
  · rintro ⟨current, hcurrent, updated, ⟨hstatus, hattempt, rfl⟩, ht⟩
    exact ⟨current, hcurrent, hstatus, hattempt, (Option.some.inj ht).symm⟩
  · rintro ⟨current, hcurrent, hstatus, hattempt, rfl⟩
    exact ⟨current, hcurrent, _, ⟨hstatus, hattempt, rfl⟩, rfl⟩

omit [DecidableEq K] in
theorem written_record_self {current : Record K} {status : DeliveryStatus}
    {providerResourceId : Option ℕ} :
    (s.record d current status providerResourceId).written d = status :: s.written d := by
  simp [State.written, State.record]

omit [DecidableEq K] in
theorem written_record_of_ne {d' : D} {current : Record K} {status : DeliveryStatus}
    {providerResourceId : Option ℕ} (h : d' ≠ d) :
    (s.record d current status providerResourceId).written d' = s.written d' := by
  simp [State.written, State.record, h.symm]

theorem keeps_record {current : Record K} {status : DeliveryStatus} {providerResourceId : Option ℕ}
    (hcurrent : s.rows d = some current) (hstatus : status ≠ .prepared) :
    Keeps s (s.record d current status providerResourceId) := by
  refine .of_rows (has_of_update rfl fun row hrow => ?_) (Nat.le_refl _) (fun _ => id) rfl
  obtain rfl := Option.some.inj (hcurrent.symm.trans hrow)
  exact ⟨rfl, rfl, rfl, fun _ => ⟨hstatus, rfl⟩⟩

/-- **An outcome is written** of a delivery that has none, or an ambiguous one. -/
theorem Inv.record {current : Record K} {status : DeliveryStatus} {providerResourceId : Option ℕ}
    (h : Inv s) (hcurrent : s.rows d = some current)
    (hopen : current.status = .dispatching ∨ current.status = .ambiguous ∧ status ≠ .ambiguous)
    (hstatus : status ≠ .prepared ∧ status ≠ .dispatching)
    (hresult : ∀ id, providerResourceId = some id → current.operation = .applicationDeploy →
      ∃ resource ∈ s.resources, resource.id = id ∧ current.IsFor resource) :
    Inv (s.record d current status providerResourceId) := by
  have hkeeps : Keeps s (s.record d current status providerResourceId) :=
    keeps_record hcurrent hstatus.1
  refine { h with
    called := fun _ hcalled => hkeeps.called h hcalled
    jobs := fun w job hjob => (h.jobs w job hjob).mono hkeeps
    unwritten := fun d' hnone => ?_
    written := fun d' row hrow => ?_
    started := fun d' row hrow => ?_
    effects := fun _ _ hmem howner => hkeeps.effect h hmem howner
    recorded := fun d' row id hrow hdeploy hid => ?_ }
  · have hd : d' ≠ d := by
      rintro rfl
      simp [State.record, State.setRow] at hnone
    rw [written_record_of_ne hd]
    exact h.unwritten d' (by simpa [State.record, State.setRow, hd] using hnone)
  · rcases rows_update hrow with ⟨rfl, rfl⟩ | ⟨hd, hold⟩
    · rw [written_record_self]
      have hwritten := h.written d' current hcurrent
      rcases hopen with hdispatching | ⟨hambiguous, hsettled⟩
      · rw [hdispatching] at hwritten
        rw [show s.written d' = [] from hwritten]
        cases status <;> simp_all [DeliveryStatus.IsWritten, Record.outcome]
      · rw [hambiguous] at hwritten
        rw [show s.written d' = [.ambiguous] from hwritten]
        cases status <;> simp_all [DeliveryStatus.IsWritten, Record.outcome]
    · rw [written_record_of_ne hd]
      exact h.written d' row hold
  · rcases rows_update hrow with ⟨rfl, rfl⟩ | ⟨-, hold⟩
    · exact h.started d' current hcurrent
    · exact h.started d' row hold
  · rcases rows_update hrow with ⟨rfl, rfl⟩ | ⟨-, hold⟩
    · obtain ⟨resource, hmem, hsame, -, htarget, -⟩ := hresult id hid hdeploy
      exact ⟨resource, hmem, hsame, htarget⟩
    · exact h.recorded d' row id hold hdeploy hid

omit [DecidableEq K] in
/-- A result that was created since the dispatch is nobody else's. -/
theorem Accounted.eq_of_result {current row' : Record K} {d' : D} {id : ℕ} (h : Accounted s)
    (hinv : Inv s) (hcurrent : s.rows d = some current) (hopen : current.IsOpen)
    (hdeploy : current.operation = .applicationDeploy)
    (hresult : ∃ resource ∈ s.resources, resource.id = id ∧ current.IsFor resource)
    (hrow' : s.rows d' = some row') (hdeploy' : row'.operation = .applicationDeploy)
    (hid' : row'.providerResourceId = some id) : d' = d := by
  by_contra hd
  obtain ⟨resource, hmem, rfl, -, htarget, startedAt, hstarted, hle⟩ := hresult
  obtain ⟨resource', hmem', hid, htarget'⟩ := hinv.recorded d' row' _ hrow' hdeploy' hid'
  obtain rfl := List.inj_on_of_nodup_map hinv.ids hmem' hmem hid
  obtain ⟨-, hbefore⟩ := h.alone d current startedAt hcurrent hdeploy hopen hstarted d' row' hrow'
    hdeploy' (htarget'.symm.trans htarget) hd
  exact absurd (hbefore resource' hmem hid') (Nat.not_lt.mpr hle)

theorem Accounted.record {current : Record K} {status : DeliveryStatus}
    {providerResourceId : Option ℕ} (h : Accounted s) (hinv : Inv s)
    (hcurrent : s.rows d = some current) (hopen : current.IsOpen) (hstatus : status ≠ .prepared)
    (hrefused : (current.outcome status providerResourceId).IsRefused →
      ¬ s.Effected d ∧ s.IsPast d current)
    (hresult : ∀ id, providerResourceId = some id → current.operation = .applicationDeploy →
      ∃ resource ∈ s.resources, resource.id = id ∧ current.IsFor resource) :
    Accounted (s.record d current status providerResourceId) := by
  have hkeeps : Keeps s (s.record d current status providerResourceId) :=
    keeps_record hcurrent hstatus
  refine h.of_update hkeeps rfl rfl (fun _ _ => id)
    (fun hnot => hkeeps.absent hcurrent id rfl (hrefused hnot))
    (fun startedAt hdeploy _ => h.alone d current startedAt hcurrent hdeploy hopen)
    (fun d' row' startedAt hd _ _ _ hold hdeploy htarget => ?_)
    fun d' row' id hd hrow' hdeploy' hdeploy hid' hid => ?_
  · -- The row that is written was open, and the other one alone.
    exact absurd hopen (hold d current hcurrent hdeploy htarget hd.symm).1
  · exact hd (h.eq_of_result hinv hcurrent hopen hdeploy (hresult id hid hdeploy) hrow' hdeploy'
      hid')

/-! ### Completion -/

omit [DecidableEq K] in
theorem receiptStatus_open (row : Record K) (state : ReceiptState) :
    receiptStatus row state ≠ .prepared ∧ receiptStatus row state ≠ .dispatching ∧
      receiptStatus row state ≠ .absent := by
  unfold receiptStatus
  cases row.operation <;> cases state <;> simp

omit [DecidableEq K] in
theorem completion_open (row : Record K) (answer : Answer) :
    (completion row answer).1 ≠ .prepared ∧ (completion row answer).1 ≠ .dispatching := by
  cases answer with
  | accepted id state =>
    simp only [completion]
    split
    · simp
    · exact ⟨(receiptStatus_open row state).1, (receiptStatus_open row state).2.1⟩
  | _ => simp [completion]

omit [DecidableEq K] in
/-- Only a call that was refused is completed as such. -/
theorem answer_of_refused {current : Record K} {answer : Answer}
    (h : (current.outcome (completion row answer).1 (completion row answer).2).IsRefused) :
    answer = .rejected ∨ answer = .absent := by
  cases answer with
  | accepted id state =>
    simp only [completion] at h
    split at h
    · simp [Record.IsRefused, Record.outcome] at h
    · rcases h with habsent | ⟨-, hnone⟩
      · exact absurd habsent (receiptStatus_open row state).2.2
      · simp [Record.outcome] at hnone
  | rejected => exact .inl rfl
  | absent => exact .inr rfl
  | outcomeUnknown => simp [completion, Record.IsRefused, Record.outcome] at h

omit [DecidableEq K] in
/-- The result of a completion is that of the answer, which was not there before. -/
theorem answer_of_result {answer : Answer} {id : ℕ} (h : (completion row answer).2 = some id)
    (hoperation : row.operation = .applicationDeploy) :
    ∃ state, answer = .accepted id state ∧ row.priorResourceId ≠ some id := by
  cases answer with
  | accepted id' state =>
    simp only [completion] at h
    split at h
    · simp at h
    next hprior =>
      obtain rfl := Option.some.inj h
      exact ⟨state, rfl, fun hsame => hprior ⟨hoperation, hsame⟩⟩
  | _ => simp [completion] at h

theorem kept_complete [DecidableEq W] (h : Inv s) (hnext : next s (.complete w) = some t) :
    Inv t ∧ (Accounted s → Accounted t) := by
  simp only [next] at hnext
  split at hnext
  next d row answer hjob =>
    split at hnext
    next completed hcompleted =>
      obtain rfl := Option.some.inj hnext
      have hfits : Job.Fits s (.answered d row answer) := h.jobs w _ hjob
      obtain ⟨hdispatching, hrow, hrefusal, haccepted⟩ := hfits
      obtain ⟨current, hcurrent, hstatus, -, rfl⟩ := writeOutcome_eq_some_iff.mp hcompleted
      have hbefore := hrow.before hcurrent
      -- An accepted call has created its own deployment.
      have hresult : ∀ id, (completion row answer).2 = some id →
          current.operation = .applicationDeploy →
            ∃ resource ∈ s.resources, resource.id = id ∧ current.IsFor resource := by
        intro id hid hdeploy
        obtain ⟨state, rfl, -⟩ := answer_of_result hid (hbefore.operation.symm.trans hdeploy)
        obtain ⟨resource, hmem, hsame, howner⟩ := haccepted id state rfl
        obtain ⟨-, row', hrow', hfor, -⟩ := h.effects d resource hmem howner
        obtain rfl := Option.some.inj (hcurrent.symm.trans hrow')
        exact ⟨resource, hmem, hsame, hfor⟩
      have hopen := hstatus.trans hdispatching
      refine ⟨(h.record hcurrent (.inl hopen) (completion_open row answer) hresult).endJob,
        fun haccounted => (haccounted.record h hcurrent (.inl hopen) (completion_open row answer).1
          (fun hrefused => ?_) hresult).endJob⟩
      have hmem := hrefusal (answer_of_refused hrefused)
      exact ⟨h.refusals d hmem, .inr (.inl hmem)⟩
    next =>
      obtain rfl := Option.some.inj hnext
      exact ⟨h.endJob, Accounted.endJob⟩
  next => simp at hnext

/-! ### Settlement -/

omit [DecidableEq K] in
/-- A row is settled by the resource that was found, or as absent where nothing was and the window
is over, or it is a merge. -/
theorem settlement_eq_some_iff {finding : Finding} {state : ReceiptState} {now : ℕ}
    {outcome : DeliveryStatus × Option ℕ} :
    settlement row finding state now = some outcome ↔
      (∃ id, finding = .resource id ∧ receiptStatus row state ≠ .ambiguous ∧
        outcome = (receiptStatus row state, some id)) ∨
      (finding = .nothing ∧ (row.operation = .sourceMerge ∨ isSettledWindow row now = true) ∧
        outcome = (.absent, none)) := by
  cases finding with
  | nothing =>
    simp only [settlement, Option.ite_none_right_eq_some, Option.some.injEq]
    constructor
    · rintro ⟨hover, rfl⟩
      exact .inr ⟨trivial, hover, rfl⟩
    · rintro (⟨_, ⟨⟩, -⟩ | ⟨-, hover, rfl⟩)
      exact ⟨hover, rfl⟩
  | resource id =>
    simp only [settlement, Option.ite_none_left_eq_some, Option.some.injEq]
    constructor
    · rintro ⟨hconclusive, rfl⟩
      exact .inl ⟨id, rfl, hconclusive, rfl⟩
    · rintro (⟨_, ⟨⟩, hconclusive, rfl⟩ | ⟨⟨⟩, -⟩)
      exact ⟨hconclusive, rfl⟩

omit [DecidableEq K] in
/-- **What is settled as absent is absent, and stays so.** -/
theorem Inv.absent {current : Record K} {observedAt : ℕ} (h : Inv s)
    (hfits : Job.Fits s (.found d row .nothing observedAt)) (hcurrent : s.rows d = some current)
    (hallowed : isSettledWindow row observedAt = true ∨ d ∈ s.refused ∨ ¬ s.IsCalled d) :
    ¬ s.Effected d ∧ s.IsPast d current := by
  obtain ⟨hopen, hrow, hle, hnothing⟩ := hfits
  have hbefore := hrow.before hcurrent
  rcases hallowed with hsettled | hrefused | huncalled
  · exact ⟨hnothing hsettled,
      .inl (isSettledWindow_mono (hbefore.claimed hopen.ne_prepared).2 hle hsettled)⟩
  · exact ⟨h.refusals d hrefused, .inr (.inl hrefused)⟩
  · refine ⟨?_, .inr (.inr huncalled)⟩
    rintro ⟨resource, hmem, howner⟩
    exact huncalled (.inl (h.effects d resource hmem howner).1)

theorem kept_settle [DecidableEq W] {state : ReceiptState} (h : Inv s)
    (hnext : next s (.settle w state) = some t) :
    Inv t ∧ (Permitted s (.settle w state : Event W D K) → Accounted s → Accounted t) := by
  simp only [next] at hnext
  split at hnext
  next d row finding observedAt hjob =>
    split at hnext
    next settled hsettled =>
      obtain rfl := Option.some.inj hnext
      obtain ⟨outcome, houtcome, hwritten⟩ := Option.bind_eq_some_iff.mp hsettled
      obtain ⟨current, hcurrent, hstatus, hattempt, rfl⟩ := writeOutcome_eq_some_iff.mp hwritten
      rcases settlement_eq_some_iff.mp houtcome with
        ⟨id, rfl, hconclusive, rfl⟩ | ⟨rfl, hover, rfl⟩
      · have hfits : Job.Fits s (.found d row (.resource id) observedAt) := h.jobs w _ hjob
        obtain ⟨hopen, hrow, -, hfound⟩ := hfits
        have hbefore := hrow.before hcurrent
        have hresult : ∀ id', some id = some id' → current.operation = .applicationDeploy →
            ∃ resource ∈ s.resources, resource.id = id' ∧ current.IsFor resource := by
          intro id' hid hdeploy
          obtain rfl := Option.some.inj hid
          obtain ⟨resource, hmem, hsame, hfor⟩ := hfound (hbefore.operation.symm.trans hdeploy)
          exact ⟨resource, hmem, hsame, (hbefore.isFor_iff hopen.ne_prepared).mpr hfor⟩
        obtain ⟨hprepared, hdispatching, habsent⟩ := receiptStatus_open row state
        have hcurrentOpen : current.IsOpen := hopen.imp hstatus.trans hstatus.trans
        refine ⟨(h.record hcurrent ?_ ⟨hprepared, hdispatching⟩ hresult).endJob,
          fun _ haccounted => (haccounted.record h hcurrent hcurrentOpen hprepared
            (fun hrefused => ?_) hresult).endJob⟩
        · exact hcurrentOpen.imp_right fun hambiguous => ⟨hambiguous, hconclusive⟩
        · rcases hrefused with hnot | ⟨-, hnone⟩
          · exact absurd hnot habsent
          · simp [Record.outcome] at hnone
      · have hfits : Job.Fits s (.found d row .nothing observedAt) := h.jobs w _ hjob
        have hcurrentOpen : current.IsOpen := hfits.1.imp hstatus.trans hstatus.trans
        refine ⟨(h.record hcurrent ?_ (by simp) (by simp)).endJob, fun hpermitted haccounted => ?_⟩
        · exact hcurrentOpen.imp_right fun hambiguous => ⟨hambiguous, by simp⟩
        · have hallowed := hpermitted d row observedAt hjob ⟨current, hcurrent, hstatus, hattempt⟩
            hover
          exact (haccounted.record h hcurrent hcurrentOpen (by simp)
            (fun _ => h.absent hfits hcurrent hallowed) (by simp)).endJob
    next =>
      obtain rfl := Option.some.inj hnext
      exact ⟨h.endJob, fun _ => Accounted.endJob⟩
  next => simp at hnext

/-! ### Steps -/

theorem kept_claim [DecidableEq W] {now : ℕ} (h : Inv s) (hnext : next s (.claim w now) = some t) :
    Inv t ∧ (Permitted s (.claim w now : Event W D K) → Accounted s → Accounted t) := by
  simp only [next] at hnext
  split at hnext
  next d row hjob =>
    obtain ⟨hguard, hnext⟩ := Option.ite_none_left_eq_some.mp hnext
    obtain ⟨-, hnow⟩ := not_or.mp hguard
    obtain ⟨current, hcurrent, hnext⟩ := Option.bind_eq_some_iff.mp hnext
    obtain ⟨claimed, hclaimed, hclaim⟩ := Option.bind_eq_some_iff.mp hnext
    obtain rfl := Option.some.inj hclaim
    obtain ⟨hprepared, -, rfl⟩ := casStatusUpdate_eq_some_iff.mp hclaimed
    refine ⟨h.claim hcurrent (List.mem_singleton.mp hprepared) (Nat.not_lt.mp hnow),
      fun hpermitted haccounted => haccounted.claim hcurrent (List.mem_singleton.mp hprepared)
        fun hdeploy => ?_⟩
    have hrow : s.Has d row := h.jobs w _ hjob
    have hbefore := hrow.before hcurrent
    rw [hbefore.target]
    exact hpermitted d row hjob (hbefore.operation.symm.trans hdeploy)
  next => simp at hnext

theorem kept_lookup [DecidableEq W] (h : Inv s) (hnext : next s (.lookup w) = some t) :
    Inv t ∧ (Accounted s → Accounted t) := by
  simp only [next] at hnext
  split at hnext
  next d row observedAt hjob =>
    obtain rfl := Option.some.inj hnext
    have hclaimed : ∀ d' row', (lookup row s.resources observedAt).map
        (fun finding => Job.found d row finding observedAt) ≠ some (.claimed d' row') := by
      intro d' row'
      cases lookup row s.resources observedAt <;> simp
    refine ⟨h.setJob hclaimed fun job hjob' => ?_, fun haccounted => haccounted.setJob hclaimed⟩
    obtain ⟨finding, hfinding, rfl⟩ := Option.map_eq_some_iff.mp hjob'
    have hfits : Job.Fits s (.looking d row observedAt) := h.jobs w _ hjob
    obtain ⟨hopen, hrow, hle⟩ := hfits
    cases finding with
    | resource id => exact ⟨hopen, hrow, hle, fun hdeploy => isFor_of_lookup hdeploy hfinding⟩
    | nothing =>
      exact ⟨hopen, hrow, hle, fun hsettled heffect =>
        h.lookup_ne_nothing hrow hopen hsettled heffect hfinding⟩
  next => simp at hnext

theorem kept_answer [DecidableEq W] {answer : Answer} (h : Inv s)
    (hnext : next s (.answer w answer) = some t) : Inv t ∧ (Accounted s → Accounted t) := by
  simp only [next] at hnext
  split at hnext
  next d row hjob =>
    obtain ⟨htrue, hanswered⟩ := Option.ite_none_right_eq_some.mp hnext
    obtain rfl := Option.some.inj hanswered
    refine ⟨(h.refuse htrue).setJob (by simp) fun job hjob' => ?_,
      fun haccounted => haccounted.refuse.setJob (by simp)⟩
    obtain rfl := Option.some.inj hjob'
    have hfits : Job.Fits s (.calling d row) := h.jobs w _ hjob
    obtain ⟨hdispatching, hrow⟩ := hfits
    refine ⟨hdispatching, hrow.mono keeps_refuse, ?_, ?_⟩
    · rintro (rfl | rfl)
      · exact List.mem_cons_self
      · exact List.mem_cons_self
    · rintro id state rfl
      obtain ⟨resource, hmem, hresource⟩ := List.any_eq_true.mp htrue
      exact ⟨resource, hmem, of_decide_eq_true hresource⟩
  next => simp at hnext

/-- **What a step keeps**: in every run, and where it meets the condition. -/
theorem kept_of_next [DecidableEq W] (h : Inv s) (hnext : next s e = some t) :
    Inv t ∧ (Permitted s e → Accounted s → Accounted t) := by
  cases e with
  | tick elapsed =>
    obtain rfl := Option.some.inj hnext
    exact ⟨h.tick, fun _ => Accounted.tick⟩
  | prepare d operation target =>
    obtain ⟨hfree, hprepared⟩ := Option.ite_none_left_eq_some.mp hnext
    obtain rfl := Option.some.inj hprepared
    exact ⟨h.prepare (not_not.mp hfree), fun _ haccounted => haccounted.prepare (not_not.mp hfree)⟩
  | resume w d =>
    obtain ⟨-, hnext⟩ := Option.ite_none_left_eq_some.mp hnext
    obtain ⟨row, hrow, rfl⟩ := Option.map_eq_some_iff.mp hnext
    refine ⟨h.setJob (by simp) fun job hjob => ?_, fun _ haccounted => haccounted.setJob (by simp)⟩
    obtain rfl := Option.some.inj hjob
    exact ⟨row, hrow, .refl row⟩
  | claim w now => exact kept_claim h hnext
  | dispatch w =>
    simp only [next] at hnext
    split at hnext
    next d row hjob =>
      obtain rfl := Option.some.inj hnext
      exact ⟨h.dispatch hjob, fun _ haccounted => haccounted.dispatch hjob⟩
    next => simp at hnext
  | takeEffect d =>
    obtain ⟨⟨hmem, hcan⟩, hnext⟩ := Option.ite_none_right_eq_some.mp hnext
    obtain ⟨row, hrow, rfl⟩ := Option.map_eq_some_iff.mp hnext
    have howner : s.CanOwn row.operation row.target (some d) := by
      intro d' hd'
      obtain rfl := Option.some.inj hd'
      exact ⟨hmem, hcan, row, hrow, rfl, rfl⟩
    exact ⟨h.create howner, fun _ haccounted => haccounted.create h howner⟩
  | foreign operation target =>
    obtain ⟨-, hnext⟩ := Option.ite_none_left_eq_some.mp hnext
    obtain rfl := Option.some.inj hnext
    have howner : s.CanOwn operation target none := by simp [State.CanOwn]
    exact ⟨h.create howner, fun _ haccounted => haccounted.create h howner⟩
  | answer w answer => exact (kept_answer h hnext).imp_right fun haccounted _ => haccounted
  | complete w => exact (kept_complete h hnext).imp_right fun haccounted _ => haccounted
  | observe w =>
    simp only [next] at hnext
    split at hnext
    next d row hjob =>
      obtain ⟨hopen, hobserved⟩ := Option.ite_none_right_eq_some.mp hnext
      obtain rfl := Option.some.inj hobserved
      refine ⟨h.setJob (by simp) fun job hjob' => ?_,
        fun _ haccounted => haccounted.setJob (by simp)⟩
      obtain rfl := Option.some.inj hjob'
      have hfits : Job.Fits s (.resuming d row) := h.jobs w _ hjob
      exact ⟨hopen, hfits, Nat.le_refl _⟩
    next => simp at hnext
  | lookup w => exact (kept_lookup h hnext).imp_right fun haccounted _ => haccounted
  | settle w state => exact kept_settle h hnext
  | drop w =>
    obtain rfl := Option.some.inj hnext
    exact ⟨h.endJob, fun _ => Accounted.endJob⟩

/-- In every run a delivery is dispatched once, and its outcome written once. -/
theorem dispatchedOnce_of_run [DecidableEq W] {history : List (Event W D K)}
    (h : Run next Always (State.initial : State W D K) history s) :
    s.dispatches.Nodup ∧ ∀ d, IsWrittenOnce (s.written d) := by
  have hinv : Inv s := h.invariant inv_initial fun _ _ _ _ hnext hinv => (kept_of_next hinv hnext).1
  exact ⟨hinv.dispatchedOnce, hinv.writtenOnce⟩

/-- Whether no other deployment of the service and commit is in the way, and what is settled as
absent was looked up when the window was over. -/
def isCareful (s : State Bool Bool String) : Event Bool Bool String → Bool
  | .claim w now =>
    match s.jobs w with
    | some (.resuming d row) => [false, true].all fun d' => (s.rows d').all fun row' =>
      decide (d' = d ∨ row'.target ≠ row.target) ||
        (decide (row'.status ≠ .dispatching ∧ row'.status ≠ .ambiguous) &&
          s.resources.all fun resource =>
            decide (row'.providerResourceId = some resource.id → resource.createdAt < now))
    | _ => true
  | .settle w _ =>
    match s.jobs w with
    | some (.found _ row .nothing observedAt) => isSettledWindow row observedAt
    | _ => true
  | _ => true

theorem permitted_of_isCareful {s : State Bool Bool String} {e : Event Bool Bool String}
    (h : isCareful s e = true) : Permitted s e := by
  cases e with
  | claim w now =>
    intro d row hjob hdeploy d' row' hrow' hdeploy' htarget hd
    simp only [isCareful, hjob] at h
    have hall := List.all_eq_true.mp h d' (by cases d' <;> simp)
    simp only [hrow', Option.all_some, hd, htarget, ne_eq, not_true_eq_false, or_self, decide_false,
      Bool.false_or, Bool.and_eq_true, decide_eq_true_eq, List.all_eq_true] at hall
    obtain ⟨hclosed, hbefore⟩ := hall
    exact ⟨fun hopen => hopen.elim hclosed.1 hclosed.2, hbefore⟩
  | settle w state =>
    intro d row observedAt hjob _ _
    simp only [isCareful, hjob] at h
    exact .inl h
  | _ => trivial

end FoundryLite.Aip.Delivery
