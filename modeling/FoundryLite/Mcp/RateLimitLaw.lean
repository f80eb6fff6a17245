import FoundryLite.Library.Fallible
import FoundryLite.Mcp.RateLimiter

/-!
# The limit, and the clocks that break it

A window admits its first `limit` calls and no other, as long as its counter is there. A server whose
clock is ahead deletes the counter of a window in which another server still counts, and the window
starts over: that is harmless until the calls before and after are more than the limit.

`bounded_iff_kept` says so of every run: while the calls each find the counter they need (`Kept`), the
limit is a bound, and the first call that does not find it breaks the bound. Calls in time find it.
-/

namespace FoundryLite.Mcp.RateLimiter

open Runs

/-! ### The law -/

/-- A limit and a window for each scope. -/
structure Policy where
  limit : McpRateLimitScope → ℤ
  windowSeconds : McpRateLimitScope → ℤ
  limit_pos : ∀ scope, 0 < limit scope
  windowSeconds_pos : ∀ scope, 0 < windowSeconds scope

/-- The request is made under the policy. -/
structure Policy.Governs (policy : Policy) (request : McpRateLimitRequest) : Prop where
  limit : request.limit = policy.limit request.limitScope
  windowSeconds : request.windowSeconds = policy.windowSeconds request.limitScope

/-- The calls that count in a window. -/
def callsIn (window : WindowIdentity) (calls : List Call) : List Call :=
  calls.filter fun call => identityOf call.request = window

/-- Every call is decided by how many calls its own window has had before it. -/
def DecidedAlone (policy : Policy) (calls : List Call) : Prop :=
  ∀ call earlier, (call :: earlier) <:+ calls →
    (call.decision.isAllowed = true ↔
      ((callsIn (identityOf call.request) earlier).length : ℤ) < policy.limit call.request.limitScope)

/-- The rate limit is a true bound. -/
structure Bounded (policy : Policy) (s : State) : Prop where
  alone : DecidedAlone policy s.calls
  atMost : ∀ window, ((callsIn window s.calls).countP (·.decision.isAllowed) : ℤ) ≤
    policy.limit window.limitScope
  /-- Every call behind the last one that is allowed is denied. -/
  afterwards : ∀ call earlier, (call :: earlier) <:+ s.calls →
    policy.limit call.request.limitScope ≤
      (callsIn (identityOf call.request) earlier).countP (·.decision.isAllowed) →
    call.decision.isAllowed = false
  evidence : ∀ row ∈ s.windows.rows,
    row.deniedCount = (callsIn row.identity s.calls).countP (!·.decision.isAllowed)

/-- The call deleted the counter of the window. -/
def Call.Prunes (call : Call) (window : WindowIdentity) : Prop :=
  ∃ row ∈ call.pruned, row.identity = window

instance (call : Call) (window : WindowIdentity) : Decidable (call.Prunes window) :=
  inferInstanceAs (Decidable (∃ row ∈ call.pruned, row.identity = window))

/-- No call so far has deleted the counter of the call's window, or the window has not had its calls
yet. -/
def Kept (s : State) (attempt : Attempt) : Prop :=
  ((callsIn (identityOf attempt.request) s.calls).length : ℤ) < attempt.request.limit ∨
    ∀ call ∈ s.calls, ¬ call.Prunes (identityOf attempt.request)

/-! ### What follows from deciding each window alone -/

section Alone

variable {policy : Policy} {calls earlier : List Call} {call : Call} {window : WindowIdentity}

theorem decidedAlone_cons : DecidedAlone policy (call :: earlier) ↔
    (call.decision.isAllowed = true ↔
      ((callsIn (identityOf call.request) earlier).length : ℤ) < policy.limit call.request.limitScope) ∧
    DecidedAlone policy earlier := by
  constructor
  · exact fun h => ⟨h call earlier List.suffix_rfl, fun c rest hsuffix =>
      h c rest (hsuffix.trans (List.suffix_cons call earlier))⟩
  · rintro ⟨hcall, hearlier⟩ c rest hsuffix
    rcases List.suffix_cons_iff.mp hsuffix with heq | hsuffix
    · obtain ⟨rfl, rfl⟩ := List.cons.inj heq
      exact hcall
    · exact hearlier c rest hsuffix

theorem callsIn_cons : callsIn window (call :: earlier) =
    if identityOf call.request = window then call :: callsIn window earlier
    else callsIn window earlier := by
  rw [callsIn, List.filter_cons]
  simp only [decide_eq_true_eq]
  rfl

/-- As many calls of a window are allowed as there are, up to the limit. -/
theorem DecidedAlone.countP_allowed (h : DecidedAlone policy calls) (window : WindowIdentity) :
    ((callsIn window calls).countP (·.decision.isAllowed) : ℤ) =
      min ((callsIn window calls).length : ℤ) (policy.limit window.limitScope) := by
  have hpos := policy.limit_pos window.limitScope
  induction calls with
  | nil => simp [callsIn, hpos.le]
  | cons call earlier ih =>
    obtain ⟨hcall, hearlier⟩ := decidedAlone_cons.mp h
    have hcount := ih hearlier
    rw [callsIn_cons]
    split_ifs with hwindow
    · have hscope : call.request.limitScope = window.limitScope :=
        congrArg WindowIdentity.limitScope hwindow
      rw [hwindow, hscope] at hcall
      rw [List.countP_cons, List.length_cons]
      by_cases hallowed : call.decision.isAllowed = true
      · have hlt := hcall.mp hallowed
        rw [if_pos hallowed]
        push_cast
        omega
      · have hle := mt hcall.mpr hallowed
        rw [if_neg hallowed]
        push_cast
        omega
    · exact hcount

/-- A window that has not had more calls than the limit has denied none. -/
theorem DecidedAlone.countP_denied (h : DecidedAlone policy calls)
    (hle : ((callsIn window calls).length : ℤ) ≤ policy.limit window.limitScope) :
    (callsIn window calls).countP (!·.decision.isAllowed) = 0 := by
  have hallowed := h.countP_allowed window
  have htotal := List.length_eq_countP_add_countP (fun c : Call => c.decision.isAllowed)
    (l := callsIn window calls)
  simp only [Bool.not_eq_true, Bool.decide_eq_false] at htotal
  omega

end Alone

/-! ### What a counter knows -/

/-- The calls in a window since its counter was last deleted. -/
def liveCalls (window : WindowIdentity) : List Call → List Call
  | [] => []
  | call :: earlier =>
    (if identityOf call.request = window then [call] else []) ++
      if call.Prunes window then [] else liveCalls window earlier

theorem liveCalls_sublist (window : WindowIdentity) (calls : List Call) :
    (liveCalls window calls).Sublist (callsIn window calls) := by
  induction calls with
  | nil => exact List.nil_sublist _
  | cons call earlier ih =>
    have hrest : (if call.Prunes window then [] else liveCalls window earlier).Sublist
        (callsIn window earlier) := by
      split_ifs
      · exact List.nil_sublist _
      · exact ih
    rw [liveCalls, callsIn_cons]
    split_ifs with hwindow hprunes hprunes
    · exact (List.nil_sublist _).cons_cons call
    · exact ih.cons_cons call
    · exact List.nil_sublist _
    · exact ih

/-- A counter that was never deleted knows of every call. -/
theorem liveCalls_eq {window : WindowIdentity} {calls : List Call}
    (h : ∀ call ∈ calls, ¬ call.Prunes window) : liveCalls window calls = callsIn window calls := by
  induction calls with
  | nil => rfl
  | cons call earlier ih =>
    obtain ⟨hcall, hearlier⟩ := List.forall_mem_cons.mp h
    rw [liveCalls, callsIn_cons, if_neg hcall, ih hearlier]
    split_ifs
    · rfl
    · rfl

/-- The counters hold the calls they know of. -/
structure Counts (policy : Policy) (s : State) : Prop where
  none : ∀ window, s.windows.get? window = none → liveCalls window s.calls = []
  some : ∀ window row, s.windows.get? window = some row →
    liveCalls window s.calls ≠ [] ∧ row.requestCount = (liveCalls window s.calls).length ∧
      row.deniedCount = (liveCalls window s.calls).countP (!·.decision.isAllowed) ∧
      row.windowExpiresAtEpoch = window.windowStartedAtEpoch + policy.windowSeconds window.limitScope

section Step

variable {policy : Policy} {s t : State} {attempt : Attempt} {window : WindowIdentity}

/-- The row that a call leaves in its window. -/
def written (windows : Windows) (attempt : Attempt) : RateLimitWindow :=
  ((windows.get? (identityOf attempt.request)).map (conflictUpdates attempt.request).apply).getD
    (insertValues attempt.request attempt.candidateEvidenceId)

theorem upsert_eq_ok {windows windows' : Windows} {row : RateLimitWindow}
    (h : upsert windows attempt.request attempt.candidateEvidenceId = .ok (windows', row)) :
    row = written windows attempt ∧ ∀ window, windows'.get? window =
      if window = identityOf attempt.request then some row else windows.get? window := by
  rw [upsert] at h
  cases hget : windows.get? (identityOf attempt.request) with
  | some found =>
    simp only [hget, Except.ok.injEq, Prod.mk.injEq] at h
    obtain ⟨rfl, rfl⟩ := h
    obtain ⟨hmem, hkey⟩ := Table.get?_eq_some_iff.mp hget
    refine ⟨by rw [written, hget]; rfl, fun window => ?_⟩
    rw [Table.get?_updateRow hmem, hkey]
  | none =>
    simp only [hget] at h
    cases hinsert : windows.insert? (insertValues attempt.request attempt.candidateEvidenceId) with
    | none => simp [hinsert] at h
    | some inserted =>
      simp only [hinsert, Except.ok.injEq, Prod.mk.injEq] at h
      obtain ⟨rfl, rfl⟩ := h
      exact ⟨by rw [written, hget]; rfl, fun window => Table.get?_insert? hinsert⟩

/-- A counter that a call deletes belongs to a window of its tenant that has expired by its clock. -/
theorem expired_of_mem {windows : Windows} {row : RateLimitWindow} (hrow : row ∈ windows.rows)
    (h : row.id ∈ expiredIds windows attempt.request) :
    row.identity.tenantId = attempt.request.tenantId ∧
      row.windowExpiresAtEpoch ≤ windowStart attempt.request := by
  obtain ⟨row', hrow', hid⟩ := List.mem_map.mp h
  have hsorted := List.mem_of_mem_take hrow'
  rw [List.mem_insertionSort, List.mem_filter] at hsorted
  obtain ⟨hmem, hexpired⟩ := hsorted
  rw [← Table.eq_of_pk_eq hmem hrow hid]
  exact of_decide_eq_true hexpired

/-- **What a call does.** -/
theorem next_spec (h : next s attempt = some t) : ∃ call, t.calls = call :: s.calls ∧
    call.request = attempt.request ∧
    (call.decision.isAllowed = true ↔
      ((written (pruneExpired s.windows attempt.request) attempt).requestCount : ℤ) ≤
        attempt.request.limit) ∧
    (∀ window, call.Prunes window ↔ ∃ row, s.windows.get? window = some row ∧
      row.id ∈ expiredIds s.windows attempt.request) ∧
    (∀ window, (pruneExpired s.windows attempt.request).get? window =
      if call.Prunes window then none else s.windows.get? window) ∧
    ∀ window, t.windows.get? window = if window = identityOf attempt.request then
        some (written (pruneExpired s.windows attempt.request) attempt)
      else if call.Prunes window then none else s.windows.get? window := by
  rw [next] at h
  cases hconsume : consume s.windows attempt.request attempt.candidateEvidenceId with
  | error failure => simp [hconsume] at h
  | ok result =>
    obtain ⟨windows, decision⟩ := result
    simp only [hconsume, Option.some.injEq] at h
    subst h
    simp only [consume, Except.bind_eq_ok_iff, Except.pure_eq_ok_iff, Prod.mk.injEq] at hconsume
    obtain ⟨-, -, ⟨windows', row⟩, hupsert, rfl, rfl⟩ := hconsume
    obtain ⟨rfl, hget⟩ := upsert_eq_ok hupsert
    have hprunes : ∀ window, (∃ row ∈ s.windows.rows.filter fun row =>
          row.id ∈ expiredIds s.windows attempt.request, row.identity = window) ↔
        ∃ row, s.windows.get? window = some row ∧ row.id ∈ expiredIds s.windows attempt.request := by
      intro window
      simp only [List.mem_filter, decide_eq_true_eq, Table.get?_eq_some_iff]
      constructor
      · rintro ⟨row, ⟨hrow, hid⟩, hkey⟩
        exact ⟨row, ⟨hrow, hkey⟩, hid⟩
      · rintro ⟨row, ⟨hrow, hkey⟩, hid⟩
        exact ⟨row, ⟨hrow, hid⟩, hkey⟩
    have hpruned : ∀ window, (pruneExpired s.windows attempt.request).get? window =
        if ∃ row, s.windows.get? window = some row ∧ row.id ∈ expiredIds s.windows attempt.request
        then none else s.windows.get? window := by
      intro window
      rw [pruneExpired, Table.get?_deleteWhere]
      cases hrow : s.windows.get? window with
      | none => simp
      | some row =>
        by_cases hid : row.id ∈ expiredIds s.windows attempt.request
        · simp [hid]
        · simp [hid]
    refine ⟨_, rfl, rfl, ?_, hprunes, fun window => ?_, fun window => ?_⟩
    · simp [decisionOf]
    · rw [hpruned]
      simp only [Call.Prunes, hprunes]
    · rw [hget, hpruned]
      simp only [Call.Prunes, hprunes]

/-- No call deletes the counter it needs. -/
theorem not_prunes_self (hcounts : Counts policy s) {row : RateLimitWindow}
    (hget : s.windows.get? (identityOf attempt.request) = some row) :
    row.id ∉ expiredIds s.windows attempt.request := by
  intro hid
  obtain ⟨-, hexpired⟩ := expired_of_mem (Table.get?_eq_some_iff.mp hget).1 hid
  obtain ⟨-, -, -, hexpiry⟩ := hcounts.some _ row hget
  have hpos := policy.windowSeconds_pos attempt.request.limitScope
  rw [hexpiry] at hexpired
  simp only [identityOf] at hexpired
  omega

/-- The row that a call leaves counts the calls that its counter knew of, and the call. -/
theorem written_spec {windows : Windows} (hcounts : Counts policy s) (hgov : policy.Governs attempt.request)
    (hget : windows.get? (identityOf attempt.request) = s.windows.get? (identityOf attempt.request)) :
    (written windows attempt).requestCount =
        (liveCalls (identityOf attempt.request) s.calls).length + 1 ∧
      (written windows attempt).deniedCount =
        (liveCalls (identityOf attempt.request) s.calls).countP (!·.decision.isAllowed) +
          (if attempt.request.limit ≤ (liveCalls (identityOf attempt.request) s.calls).length
            then 1 else 0) ∧
      (written windows attempt).windowExpiresAtEpoch =
        windowStart attempt.request + policy.windowSeconds attempt.request.limitScope := by
  rw [written, hget]
  cases hrow : s.windows.get? (identityOf attempt.request) with
  | none =>
    have hlimit := policy.limit_pos attempt.request.limitScope
    rw [← hgov.limit] at hlimit
    rw [hcounts.none _ hrow, Option.map_none, Option.getD_none]
    refine ⟨rfl, ?_, ?_⟩
    · simp only [List.length_nil, Nat.cast_zero, if_neg (not_le.mpr hlimit)]
      rfl
    · simp only [insertValues, windowExpiry, hgov.windowSeconds]
  | some row =>
    obtain ⟨-, hcount, hdenied, hexpiry⟩ := hcounts.some _ row hrow
    rw [Option.map_some, Option.getD_some]
    refine ⟨?_, ?_, hexpiry⟩
    · simp only [conflictUpdates, hcount]
    · simp only [conflictUpdates, hcount, hdenied]

/-- Everything that holds of a run whose calls each find the counter they need. -/
structure Inv (policy : Policy) (s : State) : Prop where
  counts : Counts policy s
  shorter : ∀ window, (∃ call ∈ s.calls, call.Prunes window) →
    (liveCalls window s.calls).length < (callsIn window s.calls).length
  restarted : ∀ window, (∃ call ∈ s.calls, call.Prunes window) → liveCalls window s.calls ≠ [] →
    ((callsIn window s.calls).length : ℤ) ≤ policy.limit window.limitScope
  alone : DecidedAlone policy s.calls

theorem Inv.start : Inv policy {} := by
  refine ⟨⟨fun _ _ => rfl, ?_⟩, by simp, by simp, ?_⟩
  · intro window row hrow
    exact absurd (Table.get?_eq_some_iff.mp hrow).1 List.not_mem_nil
  · intro call earlier hsuffix
    exact absurd (List.suffix_nil.mp hsuffix) (List.cons_ne_nil _ _)

/-- Where the law holds, the counters say how many calls were denied. -/
theorem Inv.bounded (h : Inv policy s) : Bounded policy s := by
  refine ⟨h.alone, fun window => ?_, fun call earlier hsuffix hle => ?_, fun row hrow => ?_⟩
  · rw [h.alone.countP_allowed window]
    exact min_le_right _ _
  · have hlength := List.countP_le_length (p := fun c : Call => c.decision.isAllowed)
      (l := callsIn (identityOf call.request) earlier)
    rw [← Bool.not_eq_true, h.alone call earlier hsuffix]
    omega
  · obtain ⟨hne, -, hdenied, -⟩ := h.counts.some _ row (Table.get?_uq_of_mem hrow)
    rw [hdenied]
    by_cases hpruned : ∃ call ∈ s.calls, call.Prunes row.identity
    · -- The window started over, and has not had more calls than the limit.
      have hnone := h.alone.countP_denied (h.restarted _ hpruned hne)
      have hle := (liveCalls_sublist row.identity s.calls).countP_le (p := (!·.decision.isAllowed))
      omega
    · push Not at hpruned
      rw [liveCalls_eq hpruned]

/-- **A call is decided right exactly if it finds the counter it needs**, and then the invariant goes
on. -/
theorem Inv.next (hinv : Inv policy s) (hgov : policy.Governs attempt.request)
    (h : next s attempt = some t) :
    (DecidedAlone policy t.calls ↔ Kept s attempt) ∧ (Kept s attempt → Inv policy t) := by
  obtain ⟨call, hcalls, hrequest, hallowed, hprunes, hpruned, hget⟩ := next_spec h
  have hself : ¬ call.Prunes (identityOf attempt.request) := by
    rw [hprunes]
    rintro ⟨row, hrow, hid⟩
    exact not_prunes_self hinv.counts hrow hid
  obtain ⟨hcount, hdenied, hexpiry⟩ := written_spec hinv.counts hgov ((hpruned _).trans (if_neg hself))
  have hle := (liveCalls_sublist (identityOf attempt.request) s.calls).length_le
  rw [hcount] at hallowed
  push_cast at hallowed
  have hdecided : DecidedAlone policy t.calls ↔ Kept s attempt := by
    rw [hcalls, decidedAlone_cons, and_iff_left hinv.alone, hrequest, hallowed, ← hgov.limit, Kept]
    by_cases hlost : ∃ c ∈ s.calls, c.Prunes (identityOf attempt.request)
    · have hshorter := hinv.shorter _ hlost
      have hrestarted := hinv.restarted _ hlost
      have hnot : ¬ ∀ c ∈ s.calls, ¬ c.Prunes (identityOf attempt.request) := by
        push Not
        exact hlost
      have hlimit := policy.limit_pos attempt.request.limitScope
      rw [or_iff_left hnot, hgov.limit]
      -- The counter counts fewer calls than the limit, whatever the window has had.
      have hlive : ((liveCalls (identityOf attempt.request) s.calls).length : ℤ) + 1 ≤
          policy.limit attempt.request.limitScope := by
        by_cases hnil : liveCalls (identityOf attempt.request) s.calls = []
        · rw [hnil]
          exact hlimit
        · have htotal : _ ≤ policy.limit attempt.request.limitScope := hrestarted hnil
          omega
      rw [iff_true_left hlive]
    · push Not at hlost
      rw [liveCalls_eq hlost, iff_true_right (Or.inr hlost)]
      exact Int.add_one_le_iff
  have hlive : ∀ window, liveCalls window t.calls =
      (if identityOf attempt.request = window then [call] else []) ++
        if call.Prunes window then [] else liveCalls window s.calls := by
    intro window
    rw [hcalls, liveCalls, hrequest]
  have hall : ∀ window, callsIn window t.calls =
      if identityOf attempt.request = window then call :: callsIn window s.calls
      else callsIn window s.calls := by
    intro window
    rw [hcalls, callsIn_cons, hrequest]
  have hlost : ∀ window, (∃ c ∈ t.calls, c.Prunes window) ↔
      call.Prunes window ∨ ∃ c ∈ s.calls, c.Prunes window := by
    intro window
    rw [hcalls, List.exists_mem_cons_iff]
  refine ⟨hdecided, fun hkept => ⟨⟨fun window hnone => ?_, fun window row hrow => ?_⟩,
    fun window hwindow => ?_, fun window hwindow hne => ?_, hdecided.mpr hkept⟩⟩
  · rw [hget] at hnone
    split_ifs at hnone with hkey hpruned
    · rw [hlive, if_neg (Ne.symm hkey), if_pos hpruned, List.nil_append]
    · rw [hlive, if_neg (Ne.symm hkey), if_neg hpruned, List.nil_append]
      exact hinv.counts.none _ hnone
  · rw [hget] at hrow
    split_ifs at hrow with hkey hpruned
    · obtain rfl := Option.some.inj hrow
      rw [hlive, hkey, if_pos rfl, if_neg hself]
      refine ⟨List.cons_ne_nil _ _, hcount, ?_, hexpiry⟩
      rw [hdenied, List.singleton_append, List.countP_cons]
      congr 1
      by_cases hfull : attempt.request.limit ≤
          ((liveCalls (identityOf attempt.request) s.calls).length : ℤ)
      · have hdeny : call.decision.isAllowed ≠ true := by
          rw [Ne, hallowed]
          omega
        rw [if_pos hfull, if_pos (by simpa using hdeny)]
      · have hallow : call.decision.isAllowed = true := by
          rw [hallowed]
          omega
        rw [if_neg hfull, if_neg (by simpa using hallow)]
    · rw [hlive, if_neg (Ne.symm hkey), if_neg hpruned, List.nil_append]
      exact hinv.counts.some _ row hrow
  · rw [hlost] at hwindow
    by_cases hnow : call.Prunes window
    · -- The deleted counter had counted a call.
      have hkey : identityOf attempt.request ≠ window := fun hkey => hself (hkey ▸ hnow)
      obtain ⟨row, hrow, -⟩ := (hprunes window).mp hnow
      have hne := (hinv.counts.some _ row hrow).1
      rw [hlive, hall, if_neg hkey, if_neg hkey, if_pos hnow]
      exact (List.length_pos_iff.mpr hne).trans_le (liveCalls_sublist window s.calls).length_le
    · have hshorter := hinv.shorter _ (hwindow.resolve_left hnow)
      rw [hlive, hall, if_neg hnow]
      split_ifs
      · simpa using hshorter
      · simpa using hshorter
  · rw [hlost] at hwindow
    by_cases hnow : call.Prunes window
    · have hkey : identityOf attempt.request ≠ window := fun hkey => hself (hkey ▸ hnow)
      rw [hlive, if_neg hkey, if_pos hnow] at hne
      exact absurd rfl hne
    · have hbefore := hwindow.resolve_left hnow
      rw [hall]
      rw [hlive, if_neg hnow] at hne
      split_ifs at hne ⊢ with hkey
      · subst hkey
        have hroom := hkept.resolve_right fun hnone => by
          obtain ⟨c, hc, hcp⟩ := hbefore
          exact hnone c hc hcp
        rw [hgov.limit] at hroom
        rw [List.length_cons]
        push_cast
        exact Int.add_one_le_iff.mpr hroom
      · exact hinv.restarted _ hbefore hne

end Step

/-! ### Every run -/

/-- **A run whose calls each find the counter they need stays within the limit, and the first call that
does not find it breaks the law.** -/
theorem bounded_iff_kept (policy : Policy) {history : List Attempt} {s : State}
    (h : Run next (fun s attempt => policy.Governs attempt.request ∧ Kept s attempt) {} history s) :
    Bounded policy s ∧ ∀ attempt t, policy.Governs attempt.request → next s attempt = some t →
      (Bounded policy t ↔ Kept s attempt) := by
  have hinv : Inv policy s := by
    refine h.invariant Inv.start ?_
    rintro s attempt t ⟨hgov, hkept⟩ hnext hinv
    exact (hinv.next hgov hnext).2 hkept
  refine ⟨hinv.bounded, fun attempt t hgov hnext => ?_⟩
  obtain ⟨hdecided, hgoes⟩ := hinv.next hgov hnext
  exact ⟨fun hbounded => hdecided.mp hbounded.alone, fun hkept => (hgoes hkept).bounded⟩

/-! ### Calls in time -/

/-- No call of the tenant was observed behind the window of this one. -/
def InTime (s : State) (attempt : Attempt) : Prop :=
  ∀ call ∈ s.calls, call.request.tenantId = attempt.request.tenantId →
    windowStart call.request < windowExpiry attempt.request

/-- The counters that were deleted had expired for a call of their tenant. -/
def PrunesExpired (policy : Policy) (s : State) : Prop :=
  ∀ call ∈ s.calls, ∀ window, call.Prunes window → window.tenantId = call.request.tenantId ∧
    window.windowStartedAtEpoch + policy.windowSeconds window.limitScope ≤ windowStart call.request

section InTime

variable {policy : Policy} {s t : State} {attempt : Attempt}

theorem PrunesExpired.next (h : PrunesExpired policy s) (hcounts : Counts policy s)
    (hnext : next s attempt = some t) : PrunesExpired policy t := by
  obtain ⟨call, hcalls, hrequest, -, hprunes, -⟩ := next_spec hnext
  rw [PrunesExpired, hcalls]
  refine List.forall_mem_cons.mpr ⟨fun window hwindow => ?_, h⟩
  obtain ⟨row, hget, hid⟩ := (hprunes window).mp hwindow
  obtain ⟨hrow, rfl⟩ := Table.get?_eq_some_iff.mp hget
  obtain ⟨htenant, hexpired⟩ := expired_of_mem hrow hid
  obtain ⟨-, -, -, hexpiry⟩ := hcounts.some _ row hget
  rw [hrequest]
  exact ⟨htenant, hexpiry ▸ hexpired⟩

theorem PrunesExpired.kept (h : PrunesExpired policy s) (hgov : policy.Governs attempt.request)
    (htime : InTime s attempt) : Kept s attempt := by
  refine .inr fun call hcall hprunes => ?_
  obtain ⟨htenant, hle⟩ := h call hcall _ hprunes
  have hlt := htime call hcall htenant.symm
  rw [windowExpiry, hgov.windowSeconds] at hlt
  exact absurd hle (not_le.mpr hlt)

/-- **Calls that are made in time find the counters they need.** -/
theorem run_kept_of_inTime {history : List Attempt}
    (h : Run next (fun s attempt => policy.Governs attempt.request ∧ InTime s attempt) {} history s) :
    Run next (fun s attempt => policy.Governs attempt.request ∧ Kept s attempt) {} history s := by
  have hboth : Run next (fun s attempt => policy.Governs attempt.request ∧ Kept s attempt) {} history
      s ∧ Inv policy s ∧ PrunesExpired policy s := by
    induction h with
    | start => exact ⟨.start, Inv.start, by simp [PrunesExpired]⟩
    | step _ hC hnext ih =>
      obtain ⟨hrun, hinv, hexpired⟩ := ih
      have hkept := hexpired.kept hC.1 hC.2
      exact ⟨hrun.step ⟨hC.1, hkept⟩ hnext, (hinv.next hC.1 hnext).2 hkept,
        hexpired.next hinv.counts hnext⟩
  exact hboth.1

/-- Times that do not decrease are in time. -/
theorem inTime_of_le (hgov : policy.Governs attempt.request)
    (hle : ∀ call ∈ s.calls, policy.Governs call.request ∧
      call.request.observedAtEpoch ≤ attempt.request.observedAtEpoch) : InTime s attempt := by
  intro call hcall _
  obtain ⟨hgov', hobserved⟩ := hle call hcall
  have hpos : (0 : ℚ) < call.request.windowSeconds := by
    rw [hgov'.windowSeconds]
    exact_mod_cast policy.windowSeconds_pos _
  have hpos' : (0 : ℚ) < attempt.request.windowSeconds := by
    rw [hgov.windowSeconds]
    exact_mod_cast policy.windowSeconds_pos _
  have hstart : (windowStart call.request : ℚ) ≤ call.request.observedAtEpoch := by
    rw [windowStart, Int.cast_mul]
    exact (le_div_iff₀ hpos).mp (Int.floor_le _)
  have hexpiry : attempt.request.observedAtEpoch < windowExpiry attempt.request := by
    rw [windowExpiry, windowStart, Int.cast_add, Int.cast_mul, ← add_one_mul]
    exact (div_lt_iff₀ hpos').mp (Int.lt_floor_add_one _)
  exact_mod_cast (hstart.trans hobserved).trans_lt hexpiry

end InTime

instance {policy : Policy} {request : McpRateLimitRequest} : Decidable (policy.Governs request) :=
  decidable_of_iff (request.limit = policy.limit request.limitScope ∧
      request.windowSeconds = policy.windowSeconds request.limitScope)
    ⟨fun h => ⟨h.1, h.2⟩, fun h => ⟨h.limit, h.windowSeconds⟩⟩

instance {s : State} {attempt : Attempt} : Decidable (Kept s attempt) :=
  inferInstanceAs (Decidable (_ ∨ _))

/-- One call in a minute. -/
def onePerMinute : Policy := ⟨fun _ => 1, fun _ => 60, fun _ => by decide, fun _ => by decide⟩

/-- A call of the actor, at this time by the server's clock. -/
def attemptAt (actorUserId candidateEvidenceId : String) (observedAtEpoch : ℚ) : Attempt :=
  ⟨⟨"tenant-a", .builder, "app-a", "client-a", actorUserId, .endpoint, 1, 60, "req", observedAtEpoch, ""⟩,
    candidateEvidenceId⟩

/-- A second call within the minute is denied. -/
theorem bounded_iff_kept_two : ∃ s, Run next
      (fun s attempt => onePerMinute.Governs attempt.request ∧ Kept s attempt) {}
      [attemptAt "actor-a" "second" 30, attemptAt "actor-a" "first" 1] s ∧
    Bounded onePerMinute s ∧ s.calls.map (·.decision.isAllowed) = [false, true] := by
  have hany : (replay (guarded next fun s attempt =>
      decide (onePerMinute.Governs attempt.request ∧ Kept s attempt)) {}
      [attemptAt "actor-a" "second" 30, attemptAt "actor-a" "first" 1]).any
        (fun s => s.calls.map (·.decision.isAllowed) = [false, true]) = true := by decide +kernel
  obtain ⟨s, hreplay, hcalls⟩ := exists_replay_of_any hany
  have hrun := run_of_replay_guarded (fun _ _ => of_decide_eq_true) hreplay
  exact ⟨s, hrun, (bounded_iff_kept onePerMinute hrun).1, of_decide_eq_true hcalls⟩

/-- The minute after a call begins on one server, another actor calls there, and the first actor calls
again on a server where the minute is not over: both calls in the one minute are allowed. -/
theorem not_bounded_of_clocks_apart : ∃ s, Run next
      (fun _ attempt => onePerMinute.Governs attempt.request) {}
      [attemptAt "actor-a" "third" 59, attemptAt "actor-b" "second" 60, attemptAt "actor-a" "first" 1] s ∧
    ¬ Bounded onePerMinute s := by
  have hany : (replay (guarded next fun _ attempt => decide (onePerMinute.Governs attempt.request)) {}
      [attemptAt "actor-a" "third" 59, attemptAt "actor-b" "second" 60, attemptAt "actor-a" "first" 1]).any
        (fun s => (callsIn (identityOf (attemptAt "actor-a" "" 1).request) s.calls).countP
          (·.decision.isAllowed) = 2) = true := by decide +kernel
  obtain ⟨s, hreplay, hcalls⟩ := exists_replay_of_any hany
  refine ⟨s, run_of_replay_guarded (fun _ _ => of_decide_eq_true) hreplay, fun hbounded => ?_⟩
  have hle := hbounded.atMost (identityOf (attemptAt "actor-a" "" 1).request)
  rw [of_decide_eq_true hcalls] at hle
  exact absurd hle (by decide)

end FoundryLite.Mcp.RateLimiter
