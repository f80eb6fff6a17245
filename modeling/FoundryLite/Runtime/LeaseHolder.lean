import FoundryLite.Runtime.WorkflowLease

/-!
# A workflow run has one lease holder

A claim decides on the row as it read it, and its update re-checks only that the status is one of
all seven. Of two workers that read the same expired lease both are therefore told that the lease
is theirs (`not_singleHolder`): the release next to it says why such a check has to be repeated in
the update, and is fenced on owner and token.

`KeepsHolder` is what keeps the lease with one worker. The update of a claim has to find a row that
its worker may still claim, and the status of a running run is changed by others only when its
lease has expired, since a run that has ended may be claimed at once. In every run whose steps all
meet it, at most one worker holds an unexpired lease, and no claim succeeds while another worker
does (`singleHolder_of_reaches`). That a release takes effect for the token in the row alone needs
no condition.
-/

namespace FoundryLite.Runtime

open Runs

/-! ### Small lemmas about the row -/

@[simp]
theorem workflowLease_leaseRecord (lease : WorkflowLease) (output : Dict String Json)
    (attempts : ℕ) (startedAt : Option String) :
    workflowLease (leaseRecord lease output attempts startedAt) = some lease.fields := by
  simp [workflowLease, leaseRecord, Dict.get?_insert]

theorem workflowLease_congr {row row' : WorkflowRun} (h : row.output = row'.output) :
    workflowLease row = workflowLease row' := by
  rw [workflowLease, workflowLease, h]

variable {lease : WorkflowLease} {row row' : WorkflowRun} {worker : String}

@[simp]
theorem lookup_ownerId : lease.fields.lookup "ownerId" = some (.str lease.ownerId) := rfl

@[simp]
theorem lookup_leaseToken : lease.fields.lookup "leaseToken" = some (.str lease.leaseToken) := rfl

@[simp]
theorem lookup_leaseExpiresAt :
    lease.fields.lookup "leaseExpiresAt" = some (.str lease.leaseExpiresAt) := rfl

/-- Who may claim a running run: the worker that holds its lease, and anyone once it has expired. -/
theorem workflowLeaseClaimable_of_running {now : String} (hstatus : row.status = .running)
    (hlease : workflowLease row = some lease.fields) :
    workflowLeaseClaimable row worker now = true ↔
      lease.ownerId = worker ∨ lease.leaseExpiresAt ≤ now := by
  by_cases howner : lease.ownerId = worker
  · simp [workflowLeaseClaimable, hstatus, hlease, howner]
  · simp [workflowLeaseClaimable, hstatus, hlease, howner]

theorem workflowLeaseMatches_iff {token : String} (hlease : workflowLease row = some lease.fields) :
    workflowLeaseMatches row worker token = true ↔
      lease.ownerId = worker ∧ lease.leaseToken = token := by
  simp [workflowLeaseMatches, hlease]

theorem claimRow_eq_some {record read : WorkflowRun} (h : claimRow record read row worker = some row') :
    row'.status = .running ∧ row'.output = record.output := by
  obtain ⟨-, -, rfl⟩ := casStatusUpdate_eq_some_iff.mp h
  exact ⟨rfl, rfl⟩

/-- A release is made for the owner and the token in the row. -/
theorem releaseRow_eq_some {call : LeaseRelease} (h : releaseRow call row = some row') :
    workflowLeaseMatches row call.leaseOwnerId call.leaseToken = true :=
  (casStatusUpdate_eq_some_iff.mp h).2.1

/-! ### The condition -/

/-- The lease in the row, if there is one, has expired. -/
def LeaseHasExpired (row : WorkflowRun) (now : String) : Prop :=
  ∀ lease, workflowLease row = some lease →
    ∃ expiresAt, lease.lookup "leaseExpiresAt" = some (.str expiresAt) ∧ expiresAt ≤ now

/-- What keeps the lease with one worker. -/
def KeepsHolder (s : LeaseState) : Event → Prop
  -- the update finds a row that the worker may claim at the time it gave
  | .finishClaim call => ∀ pending row, s.claims call = some pending → s.row = some row →
      workflowLeaseClaimable row pending.lease.ownerId pending.now = true
  -- a running run is ended by others when nobody holds its lease any more
  | .updateStatus _ => ∀ row, s.row = some row → row.status = .running → LeaseHasExpired row s.now
  | _ => True

/-! ### The invariant -/

/-- An unexpired lease that a worker holds is the one in the row of a running run. -/
structure HolderInvariant (s : LeaseState) : Prop where
  held : ∀ worker lease, s.held worker = some lease → s.now < lease.leaseExpiresAt →
    lease.ownerId = worker ∧
      ∃ row, s.row = some row ∧ row.status = .running ∧ workflowLease row = some lease.fields
  claims : ∀ call pending, s.claims call = some pending → pending.now ≤ s.now ∧
    workflowLease pending.record = some pending.lease.fields

namespace HolderInvariant

variable {s t : LeaseState}

theorem initial (now : String) (row : Option WorkflowRun) :
    HolderInvariant (.initial now row) where
  held worker lease h := by simp [LeaseState.initial] at h
  claims call pending h := by simp [LeaseState.initial] at h

/-- One worker holds an unexpired lease at a time. -/
theorem holder_unique (h : HolderInvariant s) {worker worker' : String} (hw : IsHeldBy s worker)
    (hw' : IsHeldBy s worker') : worker = worker' := by
  obtain ⟨lease, hheld, hlive⟩ := hw
  obtain ⟨lease', hheld', hlive'⟩ := hw'
  obtain ⟨rfl, row, hrow, -, hlease⟩ := h.held _ _ hheld hlive
  obtain ⟨rfl, row', hrow', -, hlease'⟩ := h.held _ _ hheld' hlive'
  obtain rfl := Option.some.inj (hrow.symm.trans hrow')
  have hfields := Option.some.inj (hlease.symm.trans hlease')
  have howner := congrArg (List.lookup "ownerId") hfields
  simpa using howner

/-- Another worker's unexpired lease is not claimable. -/
theorem owner_eq_of_claimable (h : HolderInvariant s) (hrow : s.row = some row) {now : String}
    (hnow : now ≤ s.now) (hclaimable : workflowLeaseClaimable row worker now = true)
    {worker' : String} (hw' : IsHeldBy s worker') : worker' = worker := by
  obtain ⟨lease, hheld, hlive⟩ := hw'
  obtain ⟨rfl, row', hrow', hstatus, hlease⟩ := h.held _ _ hheld hlive
  obtain rfl := Option.some.inj (hrow.symm.trans hrow')
  rcases (workflowLeaseClaimable_of_running hstatus hlease).mp hclaimable with howner | hexpired
  · exact howner
  · exact absurd (hexpired.trans hnow) (not_le.mpr hlive)

/-- A lease is granted while no other worker holds one. -/
theorem grant (h : HolderInvariant s) (hothers : ∀ w, IsHeldBy s w → w = lease.ownerId)
    (hstatus : row.status = .running) (hlease : workflowLease row = some lease.fields) :
    HolderInvariant (s.grant lease row) where
  held worker lease' hheld hlive := by
    rcases update_eq_some hheld with ⟨hworker, hnew⟩ | ⟨hworker, hold⟩
    · obtain rfl := Option.some.inj hnew
      exact ⟨hworker.symm, row, rfl, hstatus, hlease⟩
    · exact absurd (hothers worker ⟨lease', hold, hlive⟩) hworker
  claims := h.claims

/-- The invariant is about the row, the clock, the leases and the claims that are under way. -/
theorem congr (h : HolderInvariant s) (hnow : t.now = s.now) (hrow : t.row = s.row)
    (hheld : t.held = s.held)
    (hclaims : ∀ call pending, t.claims call = some pending → s.claims call = some pending) :
    HolderInvariant t where
  held := by simpa only [hnow, hrow, hheld] using h.held
  claims call pending hcall := by
    rw [hnow]
    exact h.claims call pending (hclaims call pending hcall)

theorem claim {call : ℕ} {record : WorkflowRun} (h : HolderInvariant s)
    (hstatus : record.status = .running) (hlease : workflowLease record = some lease.fields) :
    HolderInvariant (s.claim call lease record) := by
  rw [LeaseState.claim]
  split
  next hrow =>
    refine h.grant (fun w hw => ?_) hstatus hlease
    obtain ⟨lease', hheld, hlive⟩ := hw
    obtain ⟨-, row, hrow', -⟩ := h.held _ _ hheld hlive
    rw [hrow] at hrow'
    exact absurd hrow' (by simp)
  next row hrow =>
    split_ifs
    · refine ⟨h.held, fun call' pending hcall => ?_⟩
      rcases update_eq_some hcall with ⟨-, hnew⟩ | ⟨-, hold⟩
      · obtain rfl := Option.some.inj hnew
        exact ⟨le_rfl, hlease⟩
      · exact h.claims call' pending hold
    · exact h

theorem finishClaim {call : ℕ} {pending : PendingClaim} (h : HolderInvariant s)
    (hcall : s.claims call = some pending) (hcondition : KeepsHolder s (.finishClaim call)) :
    HolderInvariant (s.finishClaim call pending) := by
  obtain ⟨hnow, hlease⟩ := h.claims _ _ hcall
  have h' : HolderInvariant { s with claims := Function.update s.claims call none } :=
    h.congr rfl rfl rfl fun _ _ => update_none_eq_some
  simp only [LeaseState.finishClaim]
  split
  next => exact h'
  next row hrow =>
    obtain ⟨old, hold, hclaim⟩ := Option.bind_eq_some_iff.mp hrow
    obtain ⟨hstatus, houtput⟩ := claimRow_eq_some hclaim
    refine h'.grant (fun w hw => ?_) hstatus ((workflowLease_congr houtput).trans hlease)
    exact h.owner_eq_of_claimable hold hnow (hcondition pending old hcall hold) hw

theorem release {call : ℕ} {values : LeaseRelease} (h : HolderInvariant s) :
    HolderInvariant (s.release call values) := by
  rw [LeaseState.release]
  split
  · exact h
  · split_ifs
    · exact h.congr rfl rfl rfl fun _ _ hcall => hcall
    · exact h

theorem finishRelease {call : ℕ} {values : LeaseRelease} (h : HolderInvariant s) :
    HolderInvariant (s.finishRelease call values) := by
  simp only [LeaseState.finishRelease]
  split
  next => exact h.congr rfl rfl rfl fun _ _ hcall => hcall
  next row hrow =>
    obtain ⟨old, hold, hrelease⟩ := Option.bind_eq_some_iff.mp hrow
    have hmatches := releaseRow_eq_some hrelease
    refine ⟨fun worker lease hheld hlive => absurd hmatches ?_, h.claims⟩
    -- whoever still holds an unexpired lease holds the one in the row, which is not the released one
    have hstill : s.held worker = some lease ∧
        (worker = values.leaseOwnerId → lease.leaseToken ≠ values.leaseToken) := by
      by_cases hworker : worker = values.leaseOwnerId
      · subst hworker
        simpa [Option.filter_eq_some_iff] using hheld
      · simp only [Function.update_of_ne hworker] at hheld
        exact ⟨hheld, fun heq => absurd heq hworker⟩
    obtain ⟨rfl, row', hrow', -, hlease⟩ := h.held _ _ hstill.1 hlive
    obtain rfl := Option.some.inj (hold.symm.trans hrow')
    rw [workflowLeaseMatches_iff hlease]
    exact fun hsame => hstill.2 hsame.1 hsame.2

theorem updateStatus {call : StatusUpdate} (h : HolderInvariant s)
    (hcondition : KeepsHolder s (.updateStatus call)) : HolderInvariant (s.updateStatus call) := by
  rw [LeaseState.updateStatus]
  split
  next => exact h
  next row hrow =>
    obtain ⟨old, hold, -⟩ := Option.bind_eq_some_iff.mp hrow
    refine ⟨fun worker lease hheld hlive => ?_, h.claims⟩
    obtain ⟨-, row', hrow', hstatus, hlease⟩ := h.held _ _ hheld hlive
    obtain rfl := Option.some.inj (hold.symm.trans hrow')
    obtain ⟨expiresAt, hexpires, hexpired⟩ := hcondition _ hold hstatus _ hlease
    obtain rfl : lease.leaseExpiresAt = expiresAt := by simpa using hexpires
    exact absurd hexpired (not_le.mpr hlive)

/-- **Every step that meets the condition keeps the invariant.** -/
theorem next {e : Event} (h : HolderInvariant s) (hcondition : KeepsHolder s e)
    (hnext : Runtime.next s e = some t) : HolderInvariant t := by
  cases e with
  | tick now =>
    obtain ⟨hle, ⟨⟩⟩ := Option.ite_none_right_eq_some.mp hnext
    exact ⟨fun worker lease hheld hlive => h.held worker lease hheld (hle.trans_lt hlive),
      fun call pending hcall => (h.claims call pending hcall).imp_left fun hnow => hnow.trans hle⟩
  | claim call lease output attempts startedAt =>
    obtain ⟨-, ⟨⟩⟩ := Option.ite_none_right_eq_some.mp hnext
    exact h.claim rfl (workflowLease_leaseRecord lease output attempts startedAt)
  | finishClaim call =>
    obtain ⟨pending, hcall, rfl⟩ := Option.map_eq_some_iff.mp hnext
    exact h.finishClaim hcall hcondition
  | release call values =>
    obtain ⟨-, ⟨⟩⟩ := Option.ite_none_right_eq_some.mp hnext
    exact h.release
  | finishRelease call =>
    obtain ⟨values, -, rfl⟩ := Option.map_eq_some_iff.mp hnext
    exact h.finishRelease
  | updateStatus call =>
    obtain rfl := Option.some.inj hnext
    exact h.updateStatus hcondition

theorem of_reaches {now : String} {row : Option WorkflowRun}
    (h : Reaches Runtime.next KeepsHolder (.initial now row) s) : HolderInvariant s :=
  h.invariant (initial now row) fun _ _ _ hcondition hnext h => h.next hcondition hnext

end HolderInvariant

/-! ### One holder -/

/-- The lease that a step returns to the worker of a claim. -/
def granted (s : LeaseState) : Event → Option WorkflowLease
  | .claim _ lease _ _ _ => if s.row = none then some lease else none
  | .finishClaim call => do
    let pending ← s.claims call
    let row ← s.row
    let _ ← claimRow pending.record pending.read row pending.lease.ownerId
    return pending.lease
  | _ => none

/-- What a run of the lease has to satisfy, in a state and for a step that is taken there. -/
structure SingleHolder (s : LeaseState) (e : Event) (t : LeaseState) : Prop where
  /-- At most one worker at a time holds an unexpired lease that a claim returned to it. -/
  unique : ∀ worker worker', IsHeldBy s worker → IsHeldBy s worker' → worker = worker'
  unique_after : ∀ worker worker', IsHeldBy t worker → IsHeldBy t worker' → worker = worker'
  /-- A claim does not succeed while another worker holds an unexpired lease. -/
  claim : ∀ lease, granted s e = some lease → ∀ worker, IsHeldBy s worker → worker = lease.ownerId
  /-- A release takes effect for the holder of the token in the row only. -/
  release : ∀ call values row, e = .finishRelease call → s.releases call = some values →
    s.row = some row → t.row ≠ s.row →
      workflowLeaseMatches row values.leaseOwnerId values.leaseToken = true

/-- **At most one worker holds the lease**, in every run whose steps all meet the condition. -/
theorem singleHolder_of_reaches {now : String} {row : Option WorkflowRun} {s t : LeaseState}
    {e : Event} (h : Reaches next KeepsHolder (.initial now row) s) (hcondition : KeepsHolder s e)
    (hnext : next s e = some t) : SingleHolder s e t := by
  have hs := HolderInvariant.of_reaches h
  have ht := hs.next hcondition hnext
  refine ⟨fun _ _ => hs.holder_unique, fun _ _ => ht.holder_unique, fun lease hgranted worker hw => ?_,
    ?_⟩
  · cases e with
    | claim call lease' output attempts startedAt =>
      obtain ⟨hrow, -⟩ := Option.ite_none_right_eq_some.mp hgranted
      obtain ⟨held, hheld, hlive⟩ := hw
      obtain ⟨-, row, hrow', -⟩ := hs.held _ _ hheld hlive
      rw [hrow] at hrow'
      exact absurd hrow' (by simp)
    | finishClaim call =>
      simp only [granted, Option.bind_eq_bind, Option.bind_eq_some_iff, Option.pure_def,
        Option.some.injEq] at hgranted
      obtain ⟨pending, hcall, row, hrow, -, -, rfl⟩ := hgranted
      exact hs.owner_eq_of_claimable hrow (hs.claims _ _ hcall).1
        (hcondition pending row hcall hrow) hw
    | _ => simp [granted] at hgranted
  · rintro call values row rfl hcall hrow hchanged
    obtain ⟨values', hcall', rfl⟩ := Option.map_eq_some_iff.mp hnext
    obtain rfl := Option.some.inj (hcall.symm.trans hcall')
    cases hrelease : releaseRow values row with
    | some row' => exact releaseRow_eq_some hrelease
    | none => simp [LeaseState.finishRelease, hrow, hrelease] at hchanged

/-! ### Two workers that read the same expired lease -/

section Takeover

/-- A claim by one of the workers of an archive, for a minute. -/
def archiveClaim (call : ℕ) (ownerId leaseToken now leaseExpiresAt : String) : Event :=
  .claim call ⟨ownerId, leaseToken, leaseExpiresAt, now⟩ ∅ 1 (some now)

/-- Worker 1 claims and does not come back. -/
def abandonedClaim : Event := archiveClaim 1 "worker-1" "lease-1" "00:00:00" "00:01:00"

def secondClaim : Event := archiveClaim 2 "worker-2" "lease-2" "00:01:01" "00:02:01"

def thirdClaim : Event := archiveClaim 3 "worker-3" "lease-3" "00:01:01" "00:02:01"

/-- Workers 2 and 3 read the expired lease of worker 1, and worker 2 updates. -/
def takeoverHistory : List Event :=
  [.finishClaim 2, thirdClaim, secondClaim, .tick "00:01:01", abandonedClaim]

/-- **Both takeovers of an expired lease succeed.** -/
theorem not_singleHolder :
    ∃ s t, Run next Always (.initial "00:00:00" none) takeoverHistory s ∧
      next s (.finishClaim 3) = some t ∧ ¬ SingleHolder s (.finishClaim 3) t := by
  refine ⟨_, _, run_always_iff.mpr rfl, rfl, fun h => ?_⟩
  have hsame := h.unique_after "worker-2" "worker-3" ⟨_, rfl, by decide⟩ ⟨_, rfl, by decide⟩
  exact absurd hsame (by decide)

/-- A worker that takes an expired lease over alone has it to itself. -/
theorem singleHolder_takeover :
    ∃ s t, next s (.finishClaim 2) = some t ∧ IsHeldBy t "worker-2" ∧
      SingleHolder s (.finishClaim 2) t := by
  have hstart : Reaches next KeepsHolder (.initial "00:00:00" none) (.initial "00:00:00" none) :=
    .start
  have hreaches := ((hstart.step (e := abandonedClaim) trivial rfl).step (e := Event.tick "00:01:01")
    trivial rfl).step (e := secondClaim) trivial rfl
  refine ⟨_, _, rfl, ⟨_, rfl, by decide⟩, singleHolder_of_reaches hreaches ?_ rfl⟩
  rintro pending row ⟨⟩ ⟨⟩
  decide

end Takeover

end FoundryLite.Runtime
