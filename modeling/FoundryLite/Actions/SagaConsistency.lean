import FoundryLite.Actions.ExternalSaga

/-!
# Remote and local outcomes agree

The local mutation is committed with the status of the run, by an update that finds the run pending
or unknown. So it is committed once, and the run says so. That the run is not failed when the
external write has landed is another matter: a sweep takes any pending run, that of a request that is
still at work among them, and an answer that the write is absent is about the moment of the lookup.
It stays true when no request was at work then (`Settled`).

## Main results

* `Step`, `step_of_next`: what an event does to the run, the mutation and the external system.
* `consistent_of_run`: runs are consistent whose sweeps find a write absent only while no request is at
  work on it.
* `not_consistent`: the write lands behind the back of a sweep.
-/

namespace FoundryLite.Actions.ExternalSaga

open FoundryLite.Runtime

open Runs

open ObjectStore (ActionRunStatus)

variable {W : Type} {expectedVersion : ℕ} {s t : State W} {e : Event W}

/-! ### The condition and the property -/

/-- No write is under way, and none is still to be sent. -/
def State.IsIdle (s : State W) : Prop :=
  s.isUnderWay = false ∧ ∀ w, s.requests w ≠ some .prepared

/-- A sweep that finds the write absent has looked it up while no request was at work on it. -/
def Permitted (s : State W) : Event W → Prop
  | .lookup _ .absent => s.IsIdle
  | _ => True

def mutated : List (Option ActionRunStatus) := [some .succeeded, some .reconciled]

/-- What becomes of a run that was pending. -/
def pastPending : List (Option ActionRunStatus) :=
  [some .externalPending, some .succeeded, some .reconciled, some .failed, some .outcomeUnknown,
    some .compensationRequired]

/-- The mutation is committed once, the run says so, and it is not failed when the external write
has landed. -/
structure Consistent (s : State W) : Prop where
  once : s.mutations ≤ 1
  mutated_iff : s.status ∈ mutated ↔ s.mutations ≠ 0
  landed : s.hasLanded = true → s.status ∈ [some ActionRunStatus.externalPending, some .succeeded,
    some .reconciled, some .outcomeUnknown, some .compensationRequired]

/-- What holds in every state, but that the run is not failed. -/
structure Inv (s : State W) : Prop where
  received : s.status ≠ some .received
  mutations : s.mutations = if s.status ∈ mutated then 1 else 0
  landed : s.hasLanded = true → s.status ∈ pastPending
  underWay : s.isUnderWay = true → s.status ∈ pastPending
  requests : ∀ w, s.requests w ≠ none → s.status ∈ pastPending
  sweeps : ∀ w, s.sweeps w ≠ none → s.status ∈ pastPending

theorem Inv.consistent (h : Inv s) (hnot : s.hasLanded = true → s.status ≠ some .failed) :
    Consistent s := by
  refine ⟨?_, ?_, fun hlanded => ?_⟩
  · rw [h.mutations]
    split_ifs <;> simp
  · rw [h.mutations]
    split_ifs with hmutated <;> simp [hmutated]
  · have hpast := h.landed hlanded
    simp only [pastPending, List.mem_cons, List.not_mem_nil, or_false] at hpast ⊢
    have := hnot hlanded
    tauto

/-- A sweep was answered that the write is absent. -/
def State.FoundAbsent (s : State W) (w : W) : Prop :=
  s.sweeps w = some (.looked .absent) ∨ s.sweeps w = some (.recovering .absent)

/-- The write has not landed, and cannot land any more. -/
def State.IsOver (s : State W) : Prop := s.hasLanded = false ∧ s.IsIdle

/-- **An answer that the write is absent stays true**, and a run is failed for it alone. -/
structure Settled (s : State W) : Prop where
  absent : ∀ w, s.FoundAbsent w → s.IsOver
  failed : s.status = some .failed → s.IsOver

/-! ### What an event does -/

/-- Nothing is sent or lands, no sweep finds the write absent, and the run is not failed but for a
sweep that has. -/
structure Calm (s t : State W) : Prop where
  landed : t.hasLanded = s.hasLanded
  underWay : t.isUnderWay = s.isUnderWay
  prepared : ∀ w, t.requests w = some .prepared → s.requests w = some .prepared
  absent : ∀ w, t.FoundAbsent w → s.FoundAbsent w
  failed : t.status = some .failed → s.status = some .failed ∨ ∃ w, s.FoundAbsent w
  requests : ∀ w, t.requests w ≠ none → ∃ w', s.requests w' ≠ none
  sweeps : ∀ w, t.sweeps w ≠ none → s.status = some .externalPending ∨ ∃ w', s.sweeps w' ≠ none

/-- What an event does to the run, the mutation and the external system. -/
inductive Step [DecidableEq W] (s : State W) : Event W → State W → Prop
  | quiet {e : Event W} {t : State W} (hstatus : t.status = s.status)
      (hmutations : t.mutations = s.mutations) (hcalm : Calm s t) : Step s e t
  | prepared {e : Event W} {t : State W} (hstatus : s.status = none)
      (hpending : t.status = some .externalPending) (hmutations : t.mutations = s.mutations)
      (hsweeps : t.sweeps = s.sweeps) : Step s e t
  | refused {e : Event W} {t : State W} (hstatus : s.status = none)
      (hrefused : ∃ refusal : Refusal, t.status = some refusal.transition.toStatus)
      (hmutations : t.mutations = s.mutations) (hunderWay : t.isUnderWay = s.isUnderWay)
      (hlanded : t.hasLanded = s.hasLanded) (hrequests : t.requests = s.requests)
      (hsweeps : t.sweeps = s.sweeps) : Step s e t
  | dispatched {w : W} (hrequest : s.requests w = some .prepared) :
      Step s (.dispatch w) { s.setRequest w (some .writing) with isUnderWay := true }
  | landed (hunderWay : s.isUnderWay = true) :
      Step s .land { s with isUnderWay := false, hasLanded := true }
  | lost : Step s .lose { s with isUnderWay := false }
  | absent {w : W} (hsweep : s.sweeps w ≠ none) (hlanded : s.hasLanded = false) :
      Step s (.lookup w .absent) (s.setSweep w (some (.looked .absent)))
  /-- The run is resolved without the mutation. -/
  | moved {e : Event W} {t : State W} (hpending : s.status = some .externalPending)
      (hstatus : t.status ∈ [some ActionRunStatus.failed, some .outcomeUnknown,
        some .compensationRequired])
      (hmutations : t.mutations = s.mutations) (hcalm : Calm s t) : Step s e t
  /-- The mutation is committed. -/
  | committed {e : Event W} {t : State W}
      (hpending : s.status ∈ [some ActionRunStatus.externalPending, some .outcomeUnknown,
        some .compensationRequired])
      (hstatus : t.status ∈ mutated) (hmutations : t.mutations = s.mutations + 1)
      (hcalm : Calm s t) : Step s e t

/-- The run was pending once, and so it stays. -/
theorem Inv.of_pastPending (hreceived : t.status ≠ some .received)
    (hmutations : t.mutations = if t.status ∈ mutated then 1 else 0)
    (hpast : t.status ∈ pastPending) : Inv t :=
  ⟨hreceived, hmutations, fun _ => hpast, fun _ => hpast, fun _ _ => hpast, fun _ _ => hpast⟩

theorem Step.inv [DecidableEq W] (hstep : Step s e t) (h : Inv s) : Inv t := by
  cases hstep with
  | quiet hstatus hmutations hcalm =>
    refine ⟨?_, ?_, ?_, ?_, fun w hw => ?_, fun w hw => ?_⟩
    · rw [hstatus]; exact h.received
    · rw [hstatus, hmutations]; exact h.mutations
    · rw [hstatus, hcalm.landed]; exact h.landed
    · rw [hstatus, hcalm.underWay]; exact h.underWay
    · obtain ⟨w', hw'⟩ := hcalm.requests w hw
      rw [hstatus]
      exact h.requests w' hw'
    · rw [hstatus]
      rcases hcalm.sweeps w hw with hpending | ⟨w', hw'⟩
      · simp [hpending, pastPending]
      · exact h.sweeps w' hw'
  | prepared hstatus hpending hmutations hsweeps =>
    have hzero : s.mutations = 0 := by rw [h.mutations, hstatus]; simp [mutated]
    refine .of_pastPending (by simp [hpending]) ?_ (by simp [hpending, pastPending])
    simp [hmutations, hzero, hpending, mutated]
  | refused hstatus hrefused hmutations hunderWay hlanded hrequests hsweeps =>
    obtain ⟨refusal, hrefused⟩ := hrefused
    have hzero : s.mutations = 0 := by rw [h.mutations, hstatus]; simp [mutated]
    have hnone : s.status ∉ pastPending := by simp [hstatus, pastPending]
    refine ⟨?_, ?_, fun hland => ?_, fun hunder => ?_, fun w hw => ?_, fun w hw => ?_⟩
    · rw [hrefused]
      cases refusal <;> exact fun hreceived => absurd hreceived (by decide)
    · rw [hmutations, hzero, hrefused]
      cases refusal <;> rfl
    · exact absurd (h.landed (hlanded ▸ hland)) hnone
    · exact absurd (h.underWay (hunderWay ▸ hunder)) hnone
    · exact absurd (h.requests w (hrequests ▸ hw)) hnone
    · exact absurd (h.sweeps w (hsweeps ▸ hw)) hnone
  | @dispatched w hrequest =>
    exact .of_pastPending h.received h.mutations (h.requests w (by simp [hrequest]))
  | landed hunderWay => exact .of_pastPending h.received h.mutations (h.underWay hunderWay)
  | lost => exact ⟨h.received, h.mutations, h.landed, by simp, h.requests, h.sweeps⟩
  | @absent w hsweep hlanded =>
    exact .of_pastPending h.received h.mutations (h.sweeps w hsweep)
  | moved hpending hstatus hmutations hcalm =>
    have hzero : s.mutations = 0 := by rw [h.mutations, hpending]; simp [mutated]
    refine .of_pastPending ?_ ?_ ?_
    · intro hreceived
      simp [hreceived] at hstatus
    · rw [hmutations, hzero, if_neg]
      intro hmutated
      simp only [mutated, List.mem_cons, List.not_mem_nil, or_false] at hstatus hmutated
      rcases hmutated with hmutated | hmutated <;> simp [hmutated] at hstatus
    · simp only [pastPending, List.mem_cons, List.not_mem_nil, or_false] at hstatus ⊢
      tauto
  | committed hpending hstatus hmutations hcalm =>
    have hzero : s.mutations = 0 := by
      rw [h.mutations, if_neg]
      intro hmutated
      simp only [mutated, List.mem_cons, List.not_mem_nil, or_false] at hpending hmutated
      rcases hmutated with hmutated | hmutated <;> simp [hmutated] at hpending
    refine .of_pastPending ?_ (by rw [hmutations, hzero, if_pos hstatus]) ?_
    · intro hreceived
      simp [hreceived, mutated] at hstatus
    · simp only [mutated, pastPending, List.mem_cons, List.not_mem_nil, or_false] at hstatus ⊢
      tauto

/-! ### What an absent write is -/

theorem State.IsOver.calm (hover : s.IsOver) (h : Calm s t) : t.IsOver := by
  obtain ⟨hlanded, hunderWay, hrequests⟩ := hover
  exact ⟨h.landed.trans hlanded, h.underWay.trans hunderWay,
    fun w hw => hrequests w (h.prepared w hw)⟩

theorem Settled.calm (h : Settled s) (hcalm : Calm s t) : Settled t where
  absent w hw := (h.absent w (hcalm.absent w hw)).calm hcalm
  failed hfailed := by
    rcases hcalm.failed hfailed with hfailed | ⟨w, hw⟩
    · exact (h.failed hfailed).calm hcalm
    · exact (h.absent w hw).calm hcalm

/-- Before the run there is no write. -/
theorem Inv.isOver (h : Inv s) (hstatus : s.status = none) : s.IsOver := by
  have hnone : s.status ∉ pastPending := by simp [hstatus, pastPending]
  refine ⟨Bool.eq_false_iff.mpr fun hlanded => hnone (h.landed hlanded),
    Bool.eq_false_iff.mpr fun hunder => hnone (h.underWay hunder), fun w hw => ?_⟩
  exact hnone (h.requests w (by simp [hw]))

theorem Settled.step [DecidableEq W] (h : Settled s) (hinv : Inv s) (hpermitted : Permitted s e)
    (hstep : Step s e t) : Settled t := by
  cases hstep with
  | quiet hstatus hmutations hcalm | moved hpending hstatus hmutations hcalm
  | committed hpending hstatus hmutations hcalm => exact h.calm hcalm
  | prepared hstatus hpending hmutations hsweeps =>
    refine ⟨fun w hw => ?_, by simp [hpending]⟩
    have hnone : s.sweeps w ≠ none := by
      rw [← hsweeps]
      rcases hw with hw | hw <;> simp [hw]
    exact absurd (hinv.sweeps w hnone) (by simp [hstatus, pastPending])
  | refused hstatus hrefused hmutations hunderWay hlanded hrequests hsweeps =>
    have hover : t.IsOver := by
      have hover := hinv.isOver hstatus
      rwa [State.IsOver, State.IsIdle, ← hunderWay, ← hlanded, ← hrequests] at hover
    exact ⟨fun _ _ => hover, fun _ => hover⟩
  | @dispatched w hrequest =>
    exact ⟨fun w' hw' => absurd hrequest ((h.absent w' hw').2.2 w),
      fun hfailed => absurd hrequest ((h.failed hfailed).2.2 w)⟩
  | landed hunderWay =>
    exact ⟨fun w hw => absurd hunderWay (by simp [(h.absent w hw).2.1]),
      fun hfailed => absurd hunderWay (by simp [(h.failed hfailed).2.1])⟩
  | lost =>
    exact ⟨fun w hw => ⟨(h.absent w hw).1, rfl, (h.absent w hw).2.2⟩,
      fun hfailed => ⟨(h.failed hfailed).1, rfl, (h.failed hfailed).2.2⟩⟩
  | absent hsweep hlanded =>
    have hover : s.IsOver := ⟨hlanded, hpermitted⟩
    exact ⟨fun _ _ => hover, fun _ => hover⟩

/-! ### Every event is a step -/

theorem move_eq_some_iff {transition : RunTransition} : s.move transition = some t ↔
    ∃ status ∈ transition.fromStatuses, s.status = some status ∧
      { s with status := some transition.toStatus } = t := by
  simp only [State.move, Option.map_eq_some_iff, Option.bind_eq_some_iff,
    casStatusUpdate_eq_some_iff]
  constructor
  · rintro ⟨_, ⟨status, hstatus, hmem, -, rfl⟩, rfl⟩
    exact ⟨status, hmem, hstatus, rfl⟩
  · rintro ⟨status, hmem, hstatus, rfl⟩
    exact ⟨_, ⟨status, hstatus, hmem, trivial, rfl⟩, rfl⟩

/-- What is moved from a pending run was pending, once it was prepared. -/
theorem pending_of_move {transition : RunTransition}
    (hfrom : transition.fromStatuses = [.received, .externalPending])
    (hreceived : s.status ≠ some .received) (h : s.move transition = some t) :
    s.status = some .externalPending ∧ { s with status := some transition.toStatus } = t := by
  obtain ⟨status, hmem, hstatus, heq⟩ := move_eq_some_iff.mp h
  rw [hfrom] at hmem
  rcases List.mem_pair.mp hmem with rfl | rfl
  · exact absurd hstatus hreceived
  · exact ⟨hstatus, heq⟩

theorem commit_eq_some {isAllowed : Bool} {transition : RunTransition}
    (h : s.commit expectedVersion isAllowed transition = some t) :
    ∃ status ∈ transition.fromStatuses, s.status = some status ∧
      { s with status := some transition.toStatus, target := some (expectedVersion + 1),
               mutations := s.mutations + 1 } = t := by
  unfold State.commit at h
  split_ifs at h
  obtain ⟨moved, hmoved, rfl⟩ := Option.map_eq_some_iff.mp h
  obtain ⟨status, hmem, hstatus, rfl⟩ := move_eq_some_iff.mp hmoved
  exact ⟨status, hmem, hstatus, rfl⟩

theorem requests_setRequest_eq_some [DecidableEq W] {w w' : W} {phase : Option RequestPhase}
    {found : RequestPhase} (h : (s.setRequest w phase).requests w' = some found) :
    w' = w ∧ phase = some found ∨ s.requests w' = some found :=
  (update_eq_some h).imp_right And.right

/-- What leaves the external system and the sweeps alone, and prepares no request. -/
theorem Calm.of_requests (hlanded : t.hasLanded = s.hasLanded)
    (hunderWay : t.isUnderWay = s.isUnderWay) (hsweeps : t.sweeps = s.sweeps)
    (hprepared : ∀ w, t.requests w = some .prepared → s.requests w = some .prepared)
    (hrequests : ∀ w, t.requests w ≠ none → ∃ w', s.requests w' ≠ none)
    (hfailed : t.status = some .failed → s.status = some .failed ∨ ∃ w, s.FoundAbsent w) :
    Calm s t where
  landed := hlanded
  underWay := hunderWay
  prepared := hprepared
  absent w hw := by rwa [State.FoundAbsent, hsweeps] at hw
  failed := hfailed
  requests := hrequests
  sweeps w hw := .inr ⟨w, hsweeps ▸ hw⟩

variable [DecidableEq W]

/-- A request goes on, or ends. -/
theorem calm_setRequest {w : W} {phase : Option RequestPhase} (hphase : phase ≠ some .prepared)
    (hw : phase ≠ none → s.requests w ≠ none) : Calm s (s.setRequest w phase) := by
  refine .of_requests rfl rfl rfl (fun w' hw' => ?_) (fun w' hw' => ?_) .inl
  · rcases requests_setRequest_eq_some hw' with ⟨-, hnew⟩ | hold
    · exact absurd hnew hphase
    · exact hold
  · obtain ⟨found, hfound⟩ := Option.ne_none_iff_exists'.mp hw'
    rcases requests_setRequest_eq_some hfound with ⟨-, hnew⟩ | hold
    · exact ⟨w, hw (by simp [hnew])⟩
    · exact ⟨w', by simp [hold]⟩

theorem step_setRequest {w : W} {phase : Option RequestPhase} (hphase : phase ≠ some .prepared)
    (hw : phase ≠ none → s.requests w ≠ none) : Step s e (s.setRequest w phase) :=
  .quiet rfl rfl (calm_setRequest hphase hw)

/-- A sweep goes on with what it has found, or ends. -/
theorem step_setSweep {w : W} {phase : Option SweepPhase}
    (habsent : phase = some (.looked .absent) ∨ phase = some (.recovering .absent) →
      s.FoundAbsent w)
    (hw : phase ≠ none → s.status = some .externalPending ∨ s.sweeps w ≠ none) :
    Step s e (s.setSweep w phase) := by
  refine .quiet rfl rfl ⟨rfl, rfl, fun _ => id, fun w' hw' => ?_, .inl, fun w' hw' => ⟨w', hw'⟩,
    fun w' hw' => ?_⟩
  · by_cases heq : w' = w
    · subst heq
      exact habsent (by simpa [State.FoundAbsent, State.setSweep] using hw')
    · simpa [State.FoundAbsent, State.setSweep, heq] using hw'
  · by_cases heq : w' = w
    · subst heq
      exact (hw (by simpa [State.setSweep] using hw')).imp_right fun hsweep => ⟨w', hsweep⟩
    · exact .inr ⟨w', by simpa [State.setSweep, heq] using hw'⟩

/-- What leaves the run, the external system, the requests and the sweeps alone. -/
theorem step_same (hstatus : t.status = s.status) (hmutations : t.mutations = s.mutations)
    (hlanded : t.hasLanded = s.hasLanded) (hunderWay : t.isUnderWay = s.isUnderWay)
    (hrequests : t.requests = s.requests) (hsweeps : t.sweeps = s.sweeps) : Step s e t :=
  .quiet hstatus hmutations (.of_requests hlanded hunderWay hsweeps
    (fun _ hw => hrequests ▸ hw) (fun w hw => ⟨w, hrequests ▸ hw⟩)
    fun hfailed => .inl (hstatus ▸ hfailed))

theorem step_finish {w : W} {isAllowed : Bool} {receipt : Receipt}
    (hreceived : s.status ≠ some .received) (hw : s.requests w ≠ none) :
    Step s e (finish expectedVersion s w isAllowed receipt) := by
  cases receipt with
  | ambiguous =>
    rw [finish]
    cases hmove : s.move actionRunOutcomeUnknown with
    | none => exact step_setRequest (by simp) (by simp)
    | some moved =>
      obtain ⟨hpending, rfl⟩ := pending_of_move rfl hreceived hmove
      have hcalm : Calm s (s.setRequest w none) := calm_setRequest (by simp) (by simp)
      exact .moved hpending (by simp [State.record, State.setRequest, actionRunOutcomeUnknown]) rfl
        (.of_requests rfl rfl rfl hcalm.prepared hcalm.requests
          (by simp [State.record, State.setRequest, actionRunOutcomeUnknown]))
  | landed =>
    rw [finish]
    cases hcommit : s.commit expectedVersion isAllowed actionRunSucceeded with
    | none => exact step_setRequest (by simp) fun _ => hw
    | some committed =>
      obtain ⟨status, hmem, hstatus, rfl⟩ := commit_eq_some hcommit
      have hpending : status = .externalPending := by
        rcases List.mem_pair.mp hmem with rfl | rfl
        · exact absurd hstatus hreceived
        · rfl
      have hcalm : Calm s (s.setRequest w none) := calm_setRequest (by simp) (by simp)
      exact .committed (by simp [hstatus, hpending])
        (by simp [State.record, State.setRequest, actionRunSucceeded, mutated]) rfl
        (.of_requests rfl rfl rfl hcalm.prepared hcalm.requests
          (by simp [State.record, State.setRequest, actionRunSucceeded]))

omit [DecidableEq W] in
/-- A sweep that ends, and what it has written of the run. -/
theorem calm_sweepEnded {w : W} [DecidableEq W] (hlanded : t.hasLanded = s.hasLanded)
    (hunderWay : t.isUnderWay = s.isUnderWay) (hrequests : t.requests = s.requests)
    (hsweeps : t.sweeps = Function.update s.sweeps w none)
    (hfailed : t.status = some .failed → s.status = some .failed ∨ ∃ w, s.FoundAbsent w) :
    Calm s t := by
  have hold : ∀ w' phase, t.sweeps w' = some phase → s.sweeps w' = some phase := by
    intro w' phase hphase
    by_cases hw : w' = w
    · subst hw
      simp [hsweeps] at hphase
    · simpa [hsweeps, hw] using hphase
  refine ⟨hlanded, hunderWay, fun w' hw' => hrequests ▸ hw', fun w' hw' => ?_, hfailed,
    fun w' hw' => ⟨w', hrequests ▸ hw'⟩, fun w' hw' => ?_⟩
  · exact hw'.imp (hold w' _) (hold w' _)
  · obtain ⟨phase, hphase⟩ := Option.ne_none_iff_exists'.mp hw'
    exact .inr ⟨w', by simp [hold w' phase hphase]⟩

theorem step_finishRecovery {w : W} {isAllowed : Bool} {outcome : RemoteOutcome}
    (hreceived : s.status ≠ some .received) (hw : s.sweeps w = some (.recovering outcome)) :
    Step s e (finishRecovery expectedVersion s w isAllowed outcome) := by
  have hended : Step s e (s.setSweep w none) := step_setSweep (by simp) (by simp)
  cases outcome with
  | landed =>
    rw [finishRecovery]
    cases hcommit : s.commit expectedVersion isAllowed actionRunSucceeded with
    | none => exact hended
    | some committed =>
      obtain ⟨status, hmem, hstatus, rfl⟩ := commit_eq_some hcommit
      have hpending : status = .externalPending := by
        rcases List.mem_pair.mp hmem with rfl | rfl
        · exact absurd hstatus hreceived
        · rfl
      exact .committed (by simp [hstatus, hpending])
        (by simp [State.record, State.setSweep, actionRunSucceeded, mutated]) rfl
        (calm_sweepEnded rfl rfl rfl rfl
          (by simp [State.record, State.setSweep, actionRunSucceeded]))
  | absent =>
    rw [finishRecovery]
    cases hmove : s.move actionRunFailed with
    | none => exact hended
    | some moved =>
      obtain ⟨hpending, rfl⟩ := pending_of_move rfl hreceived hmove
      exact .moved hpending (by simp [State.record, State.setSweep, actionRunFailed]) rfl
        (calm_sweepEnded rfl rfl rfl rfl fun _ => .inr ⟨w, .inr hw⟩)
  | ambiguous =>
    rw [finishRecovery]
    cases hmove : s.move actionRunOutcomeUnknown with
    | none => exact hended
    | some moved =>
      obtain ⟨hpending, rfl⟩ := pending_of_move rfl hreceived hmove
      exact .moved hpending (by simp [State.record, State.setSweep, actionRunOutcomeUnknown]) rfl
        (calm_sweepEnded rfl rfl rfl rfl
          (by simp [State.record, State.setSweep, actionRunOutcomeUnknown]))

theorem step_finishReconcile {w : W} {isAllowed : Bool} {writeback : ℕ} :
    Step s e (finishReconcile expectedVersion s w isAllowed writeback) := by
  unfold finishReconcile
  dsimp only
  split
  next committed hmarked =>
    simp only [Option.bind_eq_bind, Option.bind_eq_some_iff] at hmarked
    obtain ⟨status, -, marked, -, hcommit⟩ := hmarked
    obtain ⟨found, hmem, hstatus, rfl⟩ := commit_eq_some hcommit
    refine .committed ?_ (by simp [State.setOperator, actionRunReconciled, mutated]) rfl
      (.of_requests rfl rfl rfl (fun _ => id) (fun w' hw' => ⟨w', hw'⟩)
        (by simp [State.setOperator, actionRunReconciled]))
    rcases List.mem_pair.mp hmem with rfl | rfl
    · simp [show s.status = _ from hstatus]
    · simp [show s.status = _ from hstatus]
  next => exact step_same rfl rfl rfl rfl rfl rfl

theorem step_prepare {w : W} {refusal : Option Refusal}
    (h : next expectedVersion s (.prepare w refusal) = some t) :
    Step s (.prepare w refusal) t := by
  simp only [next] at h
  split_ifs at h with hbusy hthere
  · obtain rfl := Option.some.inj h
    exact step_same rfl rfl rfl rfl rfl rfl
  · have hnone : s.status = none := not_not.mp hthere
    cases refusal with
    | none =>
      obtain ⟨moved, hmoved, rfl⟩ := Option.map_eq_some_iff.mp h
      obtain ⟨status, -, -, rfl⟩ := move_eq_some_iff.mp hmoved
      exact .prepared hnone rfl rfl rfl
    | some refusal =>
      obtain ⟨moved, hmoved, rfl⟩ := Option.map_eq_some_iff.mp h
      obtain ⟨status, -, -, rfl⟩ := move_eq_some_iff.mp hmoved
      exact .refused hnone ⟨refusal, rfl⟩ rfl rfl rfl rfl rfl

theorem step_of_next (hreceived : s.status ≠ some .received)
    (h : next expectedVersion s e = some t) : Step s e t := by
  cases e with
  | prepare w refusal => exact step_prepare h
  | dispatch w =>
    obtain ⟨hw, ⟨⟩⟩ := Option.ite_none_right_eq_some.mp h
    exact .dispatched hw
  | land =>
    obtain ⟨hunderWay, ⟨⟩⟩ := Option.ite_none_right_eq_some.mp h
    exact .landed hunderWay
  | lose =>
    obtain ⟨-, ⟨⟩⟩ := Option.ite_none_right_eq_some.mp h
    exact .lost
  | answer w receipt =>
    obtain ⟨⟨hw, -⟩, ⟨⟩⟩ := Option.ite_none_right_eq_some.mp h
    exact step_setRequest (by simp) fun _ => by simp [hw]
  | resolve w =>
    simp only [next] at h
    split at h
    next receipt hw =>
      obtain rfl := Option.some.inj h
      exact step_setRequest (by simp) fun _ => by simp [hw]
    next => exact absurd h (by simp)
  | finish w isAllowed =>
    simp only [next] at h
    split at h
    next receipt hw =>
      obtain rfl := Option.some.inj h
      exact step_finish hreceived (by simp [hw])
    next => exact absurd h (by simp)
  | compensate w =>
    obtain ⟨hw, ⟨⟩⟩ := Option.ite_none_right_eq_some.mp h
    exact step_setRequest (by simp) fun _ => by simp [hw]
  | finishCompensation w =>
    obtain ⟨hw, h⟩ := Option.ite_none_right_eq_some.mp h
    cases hmove : s.move actionRunCompensationRequired with
    | none =>
      obtain rfl : s.setRequest w none = t := by simpa [hmove] using h
      exact step_setRequest (by simp) (by simp)
    | some moved =>
      obtain ⟨hpending, rfl⟩ := pending_of_move rfl hreceived hmove
      simp only [hmove, Option.some.injEq] at h
      subst h
      have hcalm : Calm s (s.setRequest w none) := calm_setRequest (by simp) (by simp)
      exact .moved hpending
        (by simp [State.record, State.setRequest, actionRunCompensationRequired]) rfl
        (.of_requests rfl rfl rfl hcalm.prepared hcalm.requests
          (by simp [State.record, State.setRequest, actionRunCompensationRequired]))
  | dropRequest w =>
    obtain rfl := Option.some.inj h
    exact step_setRequest (by simp) (by simp)
  | list w =>
    obtain ⟨⟨-, hpending⟩, ⟨⟩⟩ := Option.ite_none_right_eq_some.mp h
    exact step_setSweep (by simp) fun _ => .inl hpending
  | lookup w outcome =>
    obtain ⟨⟨hw, -, hlanded⟩, ⟨⟩⟩ := Option.ite_none_right_eq_some.mp h
    cases outcome with
    | absent => exact .absent (by simp [hw]) (hlanded rfl)
    | landed | ambiguous => exact step_setSweep (by simp) fun _ => .inr (by simp [hw])
  | recover w =>
    simp only [next] at h
    split at h
    next outcome hw =>
      obtain rfl := Option.some.inj h
      refine step_setSweep (fun habsent => .inl ?_) fun _ => .inr (by simp [hw])
      split_ifs at habsent <;> simp_all
    next => exact absurd h (by simp)
  | finishRecovery w isAllowed =>
    simp only [next] at h
    split at h
    next outcome hw =>
      obtain rfl := Option.some.inj h
      exact step_finishRecovery hreceived hw
    next => exact absurd h (by simp)
  | dropSweep w =>
    obtain rfl := Option.some.inj h
    exact step_setSweep (by simp) (by simp)
  | reconcile w writeback =>
    obtain ⟨-, ⟨⟩⟩ := Option.ite_none_right_eq_some.mp h
    exact step_same rfl rfl rfl rfl rfl rfl
  | finishReconcile w isAllowed =>
    obtain ⟨writeback, -, rfl⟩ := Option.map_eq_some_iff.mp h
    exact step_finishReconcile
  | dropOperator w =>
    obtain rfl := Option.some.inj h
    exact step_same rfl rfl rfl rfl rfl rfl
  | edit target =>
    obtain rfl := Option.some.inj h
    exact step_same rfl rfl rfl rfl rfl rfl

/-! ### Runs -/

omit [DecidableEq W] in
theorem inv_initial {target : Option ℕ} : Inv (State.initial target : State W) where
  received := by simp [State.initial]
  mutations := by simp [State.initial, mutated]
  landed h := absurd h (by simp [State.initial])
  underWay h := absurd h (by simp [State.initial])
  requests _ h := absurd rfl h
  sweeps _ h := absurd rfl h

/-- **Runs are consistent** whose sweeps look a write up only while no request is at work on it, at
least where they find it absent. -/
theorem consistent_of_run {target : Option ℕ} {history : List (Event W)}
    (h : Run (next expectedVersion) Permitted (State.initial target) history s) : Consistent s := by
  have hinv : Inv s ∧ Settled s := by
    refine h.invariant (P := fun s => Inv s ∧ Settled s) ⟨inv_initial, ?_, ?_⟩ ?_
    · rintro w (hw | hw) <;> simp [State.initial] at hw
    · simp [State.initial]
    · rintro s e t hpermitted hnext ⟨hinv, hsettled⟩
      have hstep := step_of_next hinv.received hnext
      exact ⟨hstep.inv hinv, hsettled.step hinv hpermitted hstep⟩
  refine hinv.1.consistent fun hlanded hfailed => ?_
  simp [(hinv.2.failed hfailed).1] at hlanded

/-- **In every run**, also where the write lands behind the back of a sweep, the mutation is committed
once if the run says so and not at all otherwise, and the write lands only for a run that was pending. -/
theorem mutations_eq_of_run {target : Option ℕ} {history : List (Event W)}
    (h : Run (next expectedVersion) Always (State.initial target) history s) :
    (s.mutations = if s.status ∈ mutated then 1 else 0) ∧
      (s.hasLanded = true → s.status ∈ pastPending) := by
  have hinv : Inv s := h.invariant inv_initial fun _ _ _ _ hnext hinv =>
    (step_of_next hinv.received hnext).inv hinv
  exact ⟨hinv.mutations, hinv.landed⟩

/-- Whether a sweep finds the write of the one request absent while it is at work. -/
def isIdleLookup (s : State Unit) : Event Unit → Bool
  | .lookup _ .absent => !s.isUnderWay && decide (s.requests () ≠ some .prepared)
  | _ => true

theorem permitted_of_isIdleLookup {s : State Unit} {e : Event Unit} (h : isIdleLookup s e = true) :
    Permitted s e := by
  cases e with
  | lookup w outcome =>
    cases outcome with
    | absent =>
      obtain ⟨hunderWay, hrequest⟩ := Bool.and_eq_true_iff.mp h
      exact ⟨by simpa using hunderWay, fun _ => of_decide_eq_true hrequest⟩
    | landed | ambiguous => trivial
  | _ => trivial

/-- The external write lands before the run is resolved. -/
def appliedHistory : List (Event Unit) :=
  [.finish () true, .resolve (), .answer () .landed, .land, .dispatch (), .prepare () none]

/-- The external write is lost with its request, and a sweep fails the run. -/
def lostHistory : List (Event Unit) :=
  [.finishRecovery () true, .recover (), .lookup () .absent, .list (), .lose, .dropRequest (),
    .dispatch (), .prepare () none]

theorem consistent_applied :
    (∃ s, Run (next 1) Permitted (State.initial (some 1)) appliedHistory s ∧
      s.status = some .succeeded ∧ s.hasLanded = true ∧ Consistent s) ∧
    ∃ s, Run (next 1) Permitted (State.initial (some 1)) lostHistory s ∧
      s.status = some .failed ∧ Consistent s := by
  constructor
  · obtain ⟨s, hreplay, happlied⟩ := exists_replay_of_any (show (replay
      (guarded (next 1) isIdleLookup) (State.initial (some 1)) appliedHistory).any
        (fun s => decide (s.status = some .succeeded) && s.hasLanded) = true by decide +kernel)
    obtain ⟨hstatus, hlanded⟩ := Bool.and_eq_true_iff.mp happlied
    have hrun := run_of_replay_guarded (fun _ _ => permitted_of_isIdleLookup) hreplay
    exact ⟨s, hrun, of_decide_eq_true hstatus, hlanded, consistent_of_run hrun⟩
  · obtain ⟨s, hreplay, hfailed⟩ := exists_replay_of_any (show (replay
      (guarded (next 1) isIdleLookup) (State.initial (some 1)) lostHistory).any
        (fun s => decide (s.status = some .failed)) = true by decide +kernel)
    have hrun := run_of_replay_guarded (fun _ _ => permitted_of_isIdleLookup) hreplay
    exact ⟨s, hrun, of_decide_eq_true hfailed, consistent_of_run hrun⟩

theorem mutations_eq_swept : ∃ s : State Bool, s.hasLanded = true ∧ s.status = some .failed ∧
    s.mutations = 0 := by
  have hrun : Run (next 1) Always (State.initial (some 1) : State Bool) [.land,
      .finishRecovery true true, .recover true, .lookup true .absent, .list true, .dispatch false,
      .prepare false none] _ := run_always_iff.mpr rfl
  exact ⟨_, rfl, rfl, (mutations_eq_of_run hrun).1⟩

/-- The write lands behind the back of a sweep that found it absent. -/
theorem not_consistent : ¬ ∀ (expectedVersion : ℕ) (target : Option ℕ)
    (history : List (Event Bool)) (s : State Bool),
    Run (next expectedVersion) Always (State.initial target) history s → Consistent s := by
  intro h
  obtain ⟨s, hreplay, hbad⟩ := exists_replay_of_any (show (replay (next 1)
    (State.initial (some 1) : State Bool) [.land, .finishRecovery true true, .recover true,
      .lookup true .absent, .list true, .dispatch false, .prepare false none]).any
        (fun s => s.hasLanded && decide (s.status = some .failed)) = true by decide +kernel)
  obtain ⟨hlanded, hfailed⟩ := Bool.and_eq_true_iff.mp hbad
  have hmem := (h _ _ _ s (run_always_iff.mpr hreplay)).landed hlanded
  simp [of_decide_eq_true hfailed] at hmem

end FoundryLite.Actions.ExternalSaga
