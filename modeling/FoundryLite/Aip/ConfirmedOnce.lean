import FoundryLite.Aip.Confirmations

/-!
# A confirmation is executed once

What decides is written under a condition on its status: a challenge is approved once, a token is
consumed or revoked once, a receipt is consumed once. Replacing the token of a challenge revokes the
one that the challenge named when it was read, and two calls that read the same token do not both
revoke it. Where the challenge named none there is nothing to revoke, and nothing that keeps two
calls apart.

## Main results

* `Ledger`, `Extends`: the rows of challenges and tokens, and what every event leaves alone.
* `confirmedOnce_of_run`: runs whose steps meet the condition confirm once, and the first step that
  does not meet it does not.
* `not_confirmedOnce`: two calls issue a token for a challenge that had none.
-/

namespace FoundryLite.Aip.Confirmation

open FoundryLite.Runtime (StatusTransition casStatusUpdate casStatusUpdate_eq_some_iff)

open Runs

section

variable {W : Type} {permits : RequestContext → String → Bool} {s t : State W}
  {e : Event W}

/-! ### The property -/

/-- A token of the challenge with this fingerprint. -/
def TokenOf (s : State W) (fingerprint : RequestBinding) (n : ℕ) (token : ExecutionRun) : Prop :=
  s.runs (.widgetToken n) = some token ∧ ∃ binding expiresAt,
    token.budget = .widgetToken binding expiresAt ∧ binding.challengeId = .challenge fingerprint

def ReceiptOf (s : State W) (fingerprint : RequestBinding) (n : ℕ) (receipt : ExecutionRun) : Prop :=
  s.runs (.receipt n) = some receipt ∧ ∃ approvedBy binding expiresAt,
    receipt.budget = .receipt (.challenge fingerprint) approvedBy binding expiresAt

/-- An execution that consumed a receipt is what was approved, but for the session. -/
def IsApproved (s : State W) (receiptId executionId : RunId) : Prop :=
  ∃ receipt fingerprint approvedBy approved expiresAt challenge challengeExpiresAt execution binding,
    s.runs receiptId = some receipt ∧
    receipt.budget = .receipt (.challenge fingerprint) approvedBy approved expiresAt ∧
    s.runs (.challenge fingerprint) = some challenge ∧ challenge.status = .succeeded ∧
    challenge.budget = .challenge approved challengeExpiresAt ∧
    s.runs executionId = some execution ∧ execution.budget = .execution binding ∧
    approved = binding.asRecordedSession approved

structure ConfirmedOnce (s : State W) : Prop where
  receipts : ∀ fingerprint n n' receipt receipt', ReceiptOf s fingerprint n receipt →
    ReceiptOf s fingerprint n' receipt' → n = n'
  /-- At most one token of a challenge is active. -/
  tokens : ∀ fingerprint n n' token token', TokenOf s fingerprint n token →
    TokenOf s fingerprint n' token' → token.status = .running → token'.status = .running → n = n'
  /-- The token that approved a challenge was consumed, and none was issued after it. -/
  approvals : ∀ fingerprint challenge receiptId expiresAt approvedBy tokenId,
    s.runs (.challenge fingerprint) = some challenge →
    challenge.usage = some (.approved receiptId expiresAt approvedBy (some tokenId)) →
      ∃ n token, tokenId = .widgetToken n ∧ TokenOf s fingerprint n token ∧
        token.usage = some .widgetTokenConsumed ∧ ∀ m token', TokenOf s fingerprint m token' → m ≤ n
  consumptions : ∀ receiptId executionId executionId', (receiptId, executionId) ∈ s.consumptions →
    (receiptId, executionId') ∈ s.consumptions → executionId = executionId'
  approved : ∀ receiptId executionId, (receiptId, executionId) ∈ s.consumptions →
    IsApproved s receiptId executionId

/-- A call that found no token of the challenge still finds none when it issues one. -/
def Permitted (s : State W) : Event W → Prop
  | .rotate w => ∀ ctx binding challenge now,
      s.jobs w = some (.replay ctx binding challenge now) → challenge.widgetTokenId = none →
        ∀ run, s.runs (.challenge binding.executionFingerprint) = some run →
          run.status = .started → run.widgetTokenId = none
  | _ => True

/-! ### Rows are kept -/

/-- A row keeps what it is, and is left alone once it has succeeded. -/
structure Keeps (run run' : ExecutionRun) : Prop where
  budget : run'.budget = run.budget
  tenantId : run'.tenantId = run.tenantId
  actorUserId : run'.actorUserId = run.actorUserId
  succeeded : run.status = .succeeded → run' = run

structure Extends (s t : State W) : Prop where
  keeps : ∀ id run, s.runs id = some run → ∃ run', t.runs id = some run' ∧ Keeps run run'
  drawn : s.drawn ≤ t.drawn

theorem Keeps.refl (run : ExecutionRun) : Keeps run run := ⟨rfl, rfl, rfl, fun _ => rfl⟩

theorem Keeps.trans {run run' run'' : ExecutionRun} (h : Keeps run run') (h' : Keeps run' run'') :
    Keeps run run'' := by
  refine ⟨h'.budget.trans h.budget, h'.tenantId.trans h.tenantId,
    h'.actorUserId.trans h.actorUserId, fun hsucceeded => ?_⟩
  obtain rfl := h.succeeded hsucceeded
  exact h'.succeeded hsucceeded

theorem Extends.trans {u : State W} (h : Extends s t) (h' : Extends t u) : Extends s u := by
  refine ⟨fun id run hrun => ?_, Nat.le_trans h.drawn h'.drawn⟩
  obtain ⟨run', hrun', hkeeps⟩ := h.keeps id run hrun
  obtain ⟨run'', hrun'', hkeeps'⟩ := h'.keeps id run' hrun'
  exact ⟨run'', hrun'', hkeeps.trans hkeeps'⟩

theorem extends_of_runs (hruns : t.runs = s.runs) (hdrawn : s.drawn ≤ t.drawn) : Extends s t :=
  ⟨fun _ run hrun => ⟨run, hruns ▸ hrun, .refl run⟩, hdrawn⟩

@[simp] theorem runs_insert {id id' : RunId} {run : ExecutionRun} :
    (s.insert id run).runs id' = if id' = id then some run else s.runs id' := by
  simp [State.insert, Function.update_apply]

@[simp] theorem drawn_insert {id : RunId} {run : ExecutionRun} :
    (s.insert id run).drawn = s.drawn := rfl

@[simp] theorem runs_draw {id : RunId} : s.draw.runs id = s.runs id := rfl

@[simp] theorem drawn_draw : s.draw.drawn = s.drawn + 1 := rfl

theorem extends_draw : Extends s s.draw := extends_of_runs rfl (Nat.le_succ _)

theorem extends_insert {id : RunId} {run : ExecutionRun} (hfree : s.runs id = none) :
    Extends s (s.insert id run) := by
  refine ⟨fun id' run' hrun' => ⟨run', ?_, .refl run'⟩, Nat.le_refl _⟩
  have hne : id' ≠ id := by
    rintro rfl
    simp [hfree] at hrun'
  simp [hne, hrun']

theorem move_eq_some_iff {tenantId : String} {id : RunId} {transition : StatusTransition AiRunStatus}
    {usage : Usage} : s.move tenantId id transition usage = some t ↔
      ∃ run, s.runs id = some run ∧ run.tenantId = tenantId ∧
        run.status ∈ transition.fromStatuses ∧
        s.insert id { run with status := transition.toStatus, usage := some usage } = t := by
  simp only [State.move, State.find, Option.bind_eq_bind, Option.bind_eq_some_iff,
    Option.filter_eq_some_iff, casStatusUpdate_eq_some_iff, Option.pure_def, Option.some.injEq,
    decide_eq_true_eq]
  constructor
  · rintro ⟨run, ⟨hrun, htenant⟩, _, ⟨hstatus, -, rfl⟩, rfl⟩
    exact ⟨run, hrun, htenant, hstatus, rfl⟩
  · rintro ⟨run, hrun, htenant, hstatus, rfl⟩
    exact ⟨run, ⟨hrun, htenant⟩, _, ⟨hstatus, trivial, rfl⟩, rfl⟩

theorem extends_move {tenantId : String} {id : RunId} {transition : StatusTransition AiRunStatus}
    {usage : Usage} (hfrom : AiRunStatus.succeeded ∉ transition.fromStatuses)
    (h : s.move tenantId id transition usage = some t) : Extends s t := by
  obtain ⟨run, hrun, -, hstatus, rfl⟩ := move_eq_some_iff.mp h
  refine ⟨fun id' run' hrun' => ?_, Nat.le_refl _⟩
  by_cases hid : id' = id
  · subst hid
    obtain rfl := Option.some.inj (hrun.symm.trans hrun')
    have hkeeps : Keeps run { run with status := transition.toStatus, usage := some usage } :=
      ⟨rfl, rfl, rfl, fun hsucceeded => absurd (hsucceeded ▸ hstatus) hfrom⟩
    exact ⟨_, by rw [runs_insert, if_pos rfl], hkeeps⟩
  · exact ⟨run', by rw [runs_insert, if_neg hid, hrun'], .refl run'⟩

theorem TokenOf.extend {fingerprint : RequestBinding} {n : ℕ} {token : ExecutionRun}
    (h : TokenOf s fingerprint n token) (hext : Extends s t) :
    ∃ token', TokenOf t fingerprint n token' := by
  obtain ⟨hrun, binding, expiresAt, hbudget, hchallenge⟩ := h
  obtain ⟨token', htoken', hkeeps⟩ := hext.keeps _ _ hrun
  exact ⟨token', htoken', binding, expiresAt, hkeeps.budget.trans hbudget, hchallenge⟩

/-! ### Challenges and their tokens -/

/-- A challenge that waits for approval: it names its last token, the only one that is active. -/
def IsWaiting (s : State W) (fingerprint : RequestBinding) (run : ExecutionRun) : Prop :=
  run.status = .started ∧ ((run.usage = none ∧ ∀ n token, ¬ TokenOf s fingerprint n token) ∨
    ∃ n token, run.usage = some (.widgetTokenActive (.widgetToken n)) ∧
      TokenOf s fingerprint n token ∧ token.status = .running ∧
        ∀ m token', TokenOf s fingerprint m token' → m ≤ n)

/-- The token that approved a challenge. -/
def HasApproved (s : State W) (fingerprint : RequestBinding) (tokenId : RunId) : Prop :=
  ∃ n token, tokenId = .widgetToken n ∧ TokenOf s fingerprint n token ∧
    token.usage = some .widgetTokenConsumed ∧ token.status = .succeeded ∧
      ∀ m token', TokenOf s fingerprint m token' → m ≤ n

def WasApproved (s : State W) (fingerprint : RequestBinding) (run : ExecutionRun) : Prop :=
  run.status = .succeeded ∧ ∃ n expiresAt approvedBy tokenId,
    run.usage = some (.approved (.receipt n) expiresAt approvedBy tokenId) ∧
      ∀ id, tokenId = some id → HasApproved s fingerprint id

structure Ledger (s : State W) : Prop where
  challenges : ∀ fingerprint run, s.runs (.challenge fingerprint) = some run →
    (∃ binding expiresAt, run.budget = .challenge binding expiresAt ∧
      binding.executionFingerprint = fingerprint) ∧
      (IsWaiting s fingerprint run ∨ WasApproved s fingerprint run)
  tokens : ∀ n token, s.runs (.widgetToken n) = some token → n < s.drawn ∧
    token.status ≠ .started ∧ ∃ fingerprint challenge, TokenOf s fingerprint n token ∧
      s.runs (.challenge fingerprint) = some challenge
  running : ∀ fingerprint n n' token token', TokenOf s fingerprint n token →
    TokenOf s fingerprint n' token' → token.status = .running → token'.status = .running → n = n'

/-- Other challenges and tokens are what they were. -/
theorem tokenOf_congr (hsame : ∀ n, t.runs (.widgetToken n) = s.runs (.widgetToken n))
    {fingerprint : RequestBinding} {n : ℕ} {token : ExecutionRun} :
    TokenOf t fingerprint n token ↔ TokenOf s fingerprint n token := by
  simp [TokenOf, hsame]

theorem tokenOf_insertChallenge {fingerprint fingerprint' : RequestBinding} {n : ℕ}
    {run token : ExecutionRun} :
    TokenOf (s.insert (.challenge fingerprint) run) fingerprint' n token ↔
      TokenOf s fingerprint' n token := tokenOf_congr (by simp)

theorem IsWaiting.congr {fingerprint : RequestBinding} {run : ExecutionRun}
    (htokens : ∀ n token, TokenOf t fingerprint n token ↔ TokenOf s fingerprint n token)
    (h : IsWaiting s fingerprint run) : IsWaiting t fingerprint run := by
  simpa only [IsWaiting, htokens] using h

theorem WasApproved.congr {fingerprint : RequestBinding} {run : ExecutionRun}
    (htokens : ∀ n token, TokenOf t fingerprint n token ↔ TokenOf s fingerprint n token)
    (h : WasApproved s fingerprint run) : WasApproved t fingerprint run := by
  simpa only [WasApproved, HasApproved, htokens] using h

/-- What leaves challenges and tokens alone. -/
theorem Ledger.congr (h : Ledger s)
    (hchallenges : ∀ fingerprint, t.runs (.challenge fingerprint) = s.runs (.challenge fingerprint))
    (htokens : ∀ n, t.runs (.widgetToken n) = s.runs (.widgetToken n)) (hdrawn : s.drawn ≤ t.drawn) :
    Ledger t := by
  have hof : ∀ fingerprint n token,
      TokenOf t fingerprint n token ↔ TokenOf s fingerprint n token :=
    fun _ _ _ => tokenOf_congr htokens
  refine ⟨fun fingerprint run hrun => ?_, fun n token htoken => ?_, ?_⟩
  · obtain ⟨hbudget, hstage⟩ := h.challenges fingerprint run (hchallenges _ ▸ hrun)
    exact ⟨hbudget, hstage.imp (.congr (hof _)) (.congr (hof _))⟩
  · obtain ⟨hlt, hstatus, fingerprint, challenge, htokenOf, hchallenge⟩ :=
      h.tokens n token (htokens n ▸ htoken)
    exact ⟨Nat.lt_of_lt_of_le hlt hdrawn, hstatus, fingerprint, challenge, (hof _ _ _).mpr htokenOf,
      (hchallenges _).trans hchallenge⟩
  · simp only [hof]
    exact h.running

/-- The ledger, but for what one challenge says. -/
structure LedgerBut (s : State W) (fingerprint : RequestBinding) : Prop where
  challenges : ∀ fingerprint' run, s.runs (.challenge fingerprint') = some run →
    fingerprint' ≠ fingerprint →
      (∃ binding expiresAt, run.budget = .challenge binding expiresAt ∧
        binding.executionFingerprint = fingerprint') ∧
        (IsWaiting s fingerprint' run ∨ WasApproved s fingerprint' run)
  tokens : ∀ n token, s.runs (.widgetToken n) = some token → n < s.drawn ∧
    token.status ≠ .started ∧ ∃ fingerprint' challenge, TokenOf s fingerprint' n token ∧
      s.runs (.challenge fingerprint') = some challenge
  running : ∀ fingerprint' n n' token token', TokenOf s fingerprint' n token →
    TokenOf s fingerprint' n' token' → token.status = .running → token'.status = .running → n = n'

theorem Ledger.but (h : Ledger s) (fingerprint : RequestBinding) : LedgerBut s fingerprint :=
  ⟨fun fingerprint' run hrun _ => h.challenges fingerprint' run hrun, h.tokens, h.running⟩

theorem tokenOf_insert {fingerprint fingerprint' : RequestBinding} {n m : ℕ}
    {token token' : ExecutionRun} {binding : WidgetApprovalBinding} {expiresAt : ℕ}
    (hbudget : token.budget = .widgetToken binding expiresAt)
    (hof : binding.challengeId = .challenge fingerprint) :
    TokenOf (s.insert (.widgetToken n) token) fingerprint' m token' ↔
      (m = n ∧ fingerprint' = fingerprint ∧ token' = token) ∨
        (m ≠ n ∧ TokenOf s fingerprint' m token') := by
  rw [TokenOf, runs_insert]
  by_cases hm : m = n
  · subst hm
    simp only [if_pos, Option.some.injEq, ne_eq, not_true_eq_false, false_and, or_false, true_and]
    constructor
    · rintro ⟨rfl, binding', expiresAt', hbudget', hof'⟩
      obtain ⟨rfl, -⟩ := Budget.widgetToken.inj (hbudget.symm.trans hbudget')
      exact ⟨RunId.challenge.inj (hof'.symm.trans hof), rfl⟩
    · rintro ⟨rfl, rfl⟩
      exact ⟨rfl, binding, expiresAt, hbudget, hof⟩
  · have hne : RunId.widgetToken m ≠ .widgetToken n := fun heq => hm (RunId.widgetToken.inj heq)
    simp only [if_neg hne, hm, false_and, false_or, ne_eq, not_false_eq_true, true_and, TokenOf]

/-- A token of the challenge is issued, revoked or consumed. -/
theorem LedgerBut.insertToken {fingerprint : RequestBinding} {n : ℕ} {token : ExecutionRun}
    {binding : WidgetApprovalBinding} {expiresAt : ℕ} (h : LedgerBut s fingerprint)
    (hbudget : token.budget = .widgetToken binding expiresAt)
    (hof : binding.challengeId = .challenge fingerprint)
    (hold : ∀ old, s.runs (.widgetToken n) = some old → TokenOf s fingerprint n old)
    (hchallenge : ∃ challenge, s.runs (.challenge fingerprint) = some challenge)
    (hn : n < s.drawn) (hstatus : token.status ≠ .started)
    (hrunning : token.status = .running → ∀ m token', TokenOf s fingerprint m token' → m ≠ n →
      token'.status ≠ .running) :
    LedgerBut (s.insert (.widgetToken n) token) fingerprint := by
  have htokens : ∀ {fingerprint' m token'},
      TokenOf (s.insert (.widgetToken n) token) fingerprint' m token' ↔
        (m = n ∧ fingerprint' = fingerprint ∧ token' = token) ∨
          (m ≠ n ∧ TokenOf s fingerprint' m token') := tokenOf_insert hbudget hof
  -- Tokens of other challenges are those they had.
  have hother : ∀ fingerprint', fingerprint' ≠ fingerprint → ∀ m token',
      TokenOf (s.insert (.widgetToken n) token) fingerprint' m token' ↔
        TokenOf s fingerprint' m token' := by
    intro fingerprint' hne m token'
    rw [htokens]
    constructor
    · rintro (⟨-, heq, -⟩ | ⟨-, htoken⟩)
      · exact absurd heq hne
      · exact htoken
    · intro htoken
      refine .inr ⟨?_, htoken⟩
      rintro rfl
      obtain ⟨hrun, binding', expiresAt', hbudget', hof'⟩ := htoken
      obtain ⟨-, binding'', expiresAt'', hbudget'', hof''⟩ := hold _ hrun
      obtain ⟨rfl, -⟩ := Budget.widgetToken.inj (hbudget'.symm.trans hbudget'')
      exact hne (RunId.challenge.inj (hof'.symm.trans hof''))
  refine ⟨fun fingerprint' run hrun hne => ?_, fun m token' htoken => ?_, ?_⟩
  · obtain ⟨hrunBudget, hstage⟩ := h.challenges fingerprint' run (by simpa using hrun) hne
    exact ⟨hrunBudget, hstage.imp (.congr (hother _ hne)) (.congr (hother _ hne))⟩
  · have hchallenges : ∀ fingerprint',
        (s.insert (.widgetToken n) token).runs (.challenge fingerprint') =
          s.runs (.challenge fingerprint') := by simp
    by_cases hm : m = n
    · subst hm
      obtain rfl : token = token' := by simpa using htoken
      obtain ⟨challenge, hthere⟩ := hchallenge
      exact ⟨hn, hstatus, fingerprint, challenge, htokens.mpr (.inl ⟨rfl, rfl, rfl⟩),
        (hchallenges _).trans hthere⟩
    · have hrun : s.runs (.widgetToken m) = some token' := by simpa [hm] using htoken
      obtain ⟨hlt, hnot, fingerprint', challenge, htokenOf, hthere⟩ := h.tokens m token' hrun
      exact ⟨hlt, hnot, fingerprint', challenge,
        htokens.mpr (.inr ⟨hm, htokenOf⟩), (hchallenges _).trans hthere⟩
  · intro fingerprint' m m' token₁ token₂ htoken₁ htoken₂ hrun₁ hrun₂
    rcases htokens.mp htoken₁ with ⟨rfl, rfl, rfl⟩ | ⟨hm, hold₁⟩ <;>
      rcases htokens.mp htoken₂ with ⟨rfl, hsame, rfl⟩ | ⟨hm', hold₂⟩
    · rfl
    · exact absurd hrun₂ (hrunning hrun₁ m' token₂ hold₂ hm')
    · exact absurd hrun₁ (hrunning hrun₂ m token₁ (hsame ▸ hold₁) hm)
    · exact h.running fingerprint' m m' token₁ token₂ hold₁ hold₂ hrun₁ hrun₂

/-- What the challenge says is said again. -/
theorem LedgerBut.insertChallenge {fingerprint binding : RequestBinding} {expiresAt : ℕ}
    {run : ExecutionRun} (h : LedgerBut s fingerprint)
    (hbudget : run.budget = .challenge binding expiresAt)
    (hfingerprint : binding.executionFingerprint = fingerprint)
    (hstage : IsWaiting s fingerprint run ∨ WasApproved s fingerprint run) :
    Ledger (s.insert (.challenge fingerprint) run) := by
  have hof : ∀ fingerprint' n token,
      TokenOf (s.insert (.challenge fingerprint) run) fingerprint' n token ↔
        TokenOf s fingerprint' n token := fun _ _ _ => tokenOf_insertChallenge
  refine ⟨fun fingerprint' run' hrun => ?_, fun n token htoken => ?_, ?_⟩
  · by_cases hsame : fingerprint' = fingerprint
    · subst hsame
      obtain rfl : run = run' := by simpa using hrun
      exact ⟨⟨binding, expiresAt, hbudget, hfingerprint⟩,
        hstage.imp (.congr (hof _)) (.congr (hof _))⟩
    · obtain ⟨hrunBudget, hstage'⟩ :=
        h.challenges fingerprint' run' (by simpa [hsame] using hrun) hsame
      exact ⟨hrunBudget, hstage'.imp (.congr (hof _)) (.congr (hof _))⟩
  · obtain ⟨hlt, hnot, fingerprint', challenge, htokenOf, hthere⟩ :=
      h.tokens n token (by simpa using htoken)
    refine ⟨hlt, hnot, fingerprint', ?_⟩
    by_cases hsame : fingerprint' = fingerprint
    · exact ⟨run, (hof _ _ _).mpr htokenOf, by simp [hsame]⟩
    · exact ⟨challenge, (hof _ _ _).mpr htokenOf, by simpa [hsame] using hthere⟩
  · simp only [hof]
    exact h.running

/-! ### What the calls write -/

/-- What a call on a challenge leaves alone. -/
structure Frame (s t : State W) : Prop where
  kept : Extends s t
  jobs : t.jobs = s.jobs
  consumptions : t.consumptions = s.consumptions

theorem Frame.trans {u : State W} (h : Frame s t) (h' : Frame t u) : Frame s u :=
  ⟨h.kept.trans h'.kept, h'.jobs.trans h.jobs, h'.consumptions.trans h.consumptions⟩

theorem frame_move {tenantId : String} {id : RunId} {transition : StatusTransition AiRunStatus}
    {usage : Usage} (hfrom : AiRunStatus.succeeded ∉ transition.fromStatuses)
    (h : s.move tenantId id transition usage = some t) : Frame s t := by
  refine ⟨extends_move hfrom h, ?_, ?_⟩ <;>
    · obtain ⟨run, -, -, -, rfl⟩ := move_eq_some_iff.mp h
      rfl

theorem LedgerBut.no_token {fingerprint : RequestBinding} (h : LedgerBut s fingerprint) :
    s.runs (.widgetToken s.drawn) = none := by
  cases hrun : s.runs (.widgetToken s.drawn) with
  | none => rfl
  | some token => exact absurd (h.tokens _ _ hrun).1 (Nat.lt_irrefl _)

theorem LedgerBut.draw {fingerprint : RequestBinding} (h : LedgerBut s fingerprint) :
    LedgerBut s.draw fingerprint :=
  ⟨h.challenges, fun n token htoken =>
    have ⟨hlt, hrest⟩ := h.tokens n token htoken
    ⟨Nat.lt_succ_of_lt hlt, hrest⟩, h.running⟩

/-- A token is issued where none is active. -/
theorem ledger_issue {fingerprint binding : RequestBinding} {ctx : RequestContext} {now : ℕ}
    (h : LedgerBut s fingerprint)
    (hbudget : ∀ run, s.runs (.challenge fingerprint) = some run → ∃ recorded expiresAt,
      run.budget = .challenge recorded expiresAt ∧ recorded.executionFingerprint = fingerprint)
    (hunused : ∀ n token, TokenOf s fingerprint n token → token.status ≠ .running)
    (hissue : issueAndBindToken s ctx binding (.challenge fingerprint) now = some t) :
    Ledger t := by
  obtain ⟨run, hrun, -, -, rfl⟩ := move_eq_some_iff.mp hissue
  have hthere : s.runs (.challenge fingerprint) = some run := by simpa using hrun
  obtain ⟨recorded, recordedExpiry, hrecorded, hfingerprint⟩ := hbudget run hthere
  have hfree := h.no_token
  set token : ExecutionRun := ⟨ctx.tenantId, ctx.actorUserId, .running, .widgetToken
    (widgetApprovalBinding ctx binding (.challenge fingerprint) (some binding.origin))
    (expiresAt now), none⟩ with htoken
  have htokens : ∀ {m token'}, TokenOf (s.draw.insert (.widgetToken s.drawn) token) fingerprint m
      token' ↔ _ := tokenOf_insert rfl rfl
  have hbut : LedgerBut (s.draw.insert (.widgetToken s.drawn) token) fingerprint :=
    h.draw.insertToken rfl rfl (by simp [hfree]) ⟨run, hthere⟩ (Nat.lt_succ_self _) (by simp [htoken])
      fun _ m token' htoken' _ => hunused m token' htoken'
  refine hbut.insertChallenge hrecorded hfingerprint (.inl ⟨rfl, .inr ⟨s.drawn, token, rfl,
    htokens.mpr (.inl ⟨rfl, rfl, rfl⟩), rfl, fun m token' htoken' => ?_⟩⟩)
  rcases htokens.mp htoken' with ⟨rfl, -, -⟩ | ⟨-, hold⟩
  · exact Nat.le_refl _
  · exact Nat.le_of_lt (h.tokens m token' hold.1).1

/-- The tokens that a read of a challenge names are tokens of the challenge. -/
def NamesTokens (s : State W) (fingerprint : RequestBinding) (challenge : ExecutionRun) : Prop :=
  ∀ id, challenge.widgetTokenId = some id →
    ∃ n token, id = .widgetToken n ∧ TokenOf s fingerprint n token

/-- The token of a challenge is moved out of the way. -/
theorem ledgerBut_moveToken {fingerprint : RequestBinding} {tenantId : String} {n : ℕ}
    {token : ExecutionRun} {usage : Usage} (h : Ledger s) (htoken : TokenOf s fingerprint n token)
    (hmove : s.move tenantId (.widgetToken n) aiRunSucceeded usage = some t) :
    LedgerBut t fingerprint ∧ token.status = .running ∧
      ∀ m token', TokenOf t fingerprint m token' ↔
        (m = n ∧ token' = { token with status := .succeeded, usage := some usage }) ∨
          (m ≠ n ∧ TokenOf s fingerprint m token') := by
  obtain ⟨run, hrun, -, hstatus, rfl⟩ := move_eq_some_iff.mp hmove
  obtain rfl := Option.some.inj (hrun.symm.trans htoken.1)
  obtain ⟨-, binding, expiresAt, hbudget, hof⟩ := htoken
  obtain ⟨-, hnot, fingerprint', challenge, htokenOf, hchallenge⟩ := h.tokens n run hrun
  obtain ⟨-, binding', expiresAt', hbudget', hof'⟩ := htokenOf
  obtain ⟨rfl, -⟩ := Budget.widgetToken.inj (hbudget.symm.trans hbudget')
  obtain rfl := RunId.challenge.inj (hof.symm.trans hof')
  refine ⟨?_, ?_, fun m token' => ?_⟩
  · refine (h.but fingerprint).insertToken hbudget hof (fun old hold => ?_) ⟨challenge, hchallenge⟩
      (h.tokens n run hrun).1 (by simp [aiRunSucceeded]) (by simp [aiRunSucceeded])
    obtain rfl := Option.some.inj (hrun.symm.trans hold)
    exact ⟨hrun, binding, expiresAt, hbudget, hof⟩
  · rcases List.mem_pair.mp hstatus with hstarted | hrunning
    · exact absurd hstarted hnot
    · exact hrunning
  · refine Iff.trans (tokenOf_insert (by exact hbudget) hof) ?_
    simp [aiRunSucceeded]

theorem frame_revoke {ctx : RequestContext} {challenge : ExecutionRun}
    (h : revokeActive s ctx challenge = some t) : Frame s t := by
  unfold revokeActive at h
  split at h
  · obtain rfl := Option.some.inj h
    exact ⟨extends_of_runs rfl (Nat.le_refl _), rfl, rfl⟩
  · exact frame_move (by simp [aiRunSucceeded]) h

/-- After the token that was read is revoked, none is active, if one was read. -/
theorem ledgerBut_revoke {fingerprint : RequestBinding} {ctx : RequestContext}
    {challenge : ExecutionRun} (h : Ledger s) (hnames : NamesTokens s fingerprint challenge)
    (hrevoke : revokeActive s ctx challenge = some t) : LedgerBut t fingerprint ∧
      ∀ m token, TokenOf t fingerprint m token → token.status = .running →
        challenge.widgetTokenId = none ∧ TokenOf s fingerprint m token := by
  unfold revokeActive at hrevoke
  split at hrevoke
  next hnone =>
    obtain rfl := Option.some.inj hrevoke
    exact ⟨h.but fingerprint, fun m token htoken _ => ⟨hnone, htoken⟩⟩
  next id hid =>
    obtain ⟨n, token, rfl, htoken⟩ := hnames id hid
    obtain ⟨hbut, hrunning, htokens⟩ := ledgerBut_moveToken h htoken hrevoke
    refine ⟨hbut, fun m token' htoken' hrunning' => ?_⟩
    rcases (htokens m token').mp htoken' with ⟨-, rfl⟩ | ⟨hm, hold⟩
    · simp at hrunning'
    · exact absurd (h.running fingerprint m n token' token hold htoken hrunning' hrunning) hm

theorem approveChallenge_eq_some_iff {ctx : RequestContext} {challengeId : RunId}
    {binding : RequestBinding} {tokenId : Option RunId} {now : ℕ} :
    approveChallenge s ctx challengeId binding tokenId now = some t ↔
      ∃ run, s.runs challengeId = some run ∧ run.tenantId = ctx.tenantId ∧
        run.status ∈ [AiRunStatus.started, .running] ∧
        ((s.insert challengeId { run with
          status := .succeeded
          usage := some (.approved (.receipt s.drawn) (expiresAt now) ctx.actorUserId
            tokenId) }).draw.insert (.receipt s.drawn) ⟨ctx.tenantId, binding.actorUserId, .running,
              .receipt challengeId ctx.actorUserId binding (expiresAt now), none⟩) = t := by
  simp only [approveChallenge, Option.bind_eq_bind, Option.bind_eq_some_iff, move_eq_some_iff,
    Option.pure_def, Option.some.injEq]
  constructor
  · rintro ⟨_, ⟨run, hrun, htenant, hstatus, rfl⟩, rfl⟩
    exact ⟨run, hrun, htenant, hstatus, rfl⟩
  · rintro ⟨run, hrun, htenant, hstatus, rfl⟩
    exact ⟨_, ⟨run, hrun, htenant, hstatus, rfl⟩, rfl⟩

/-- A challenge is approved. -/
theorem ledger_approve {fingerprint binding : RequestBinding} {ctx : RequestContext}
    {tokenId : Option RunId} {now : ℕ} (h : LedgerBut s fingerprint)
    (hbudget : ∀ run, s.runs (.challenge fingerprint) = some run → ∃ recorded expiresAt,
      run.budget = .challenge recorded expiresAt ∧ recorded.executionFingerprint = fingerprint)
    (htoken : ∀ id, tokenId = some id → HasApproved s fingerprint id)
    (happrove : approveChallenge s ctx (.challenge fingerprint) binding tokenId now = some t) :
    Ledger t := by
  obtain ⟨run, hrun, -, -, rfl⟩ := approveChallenge_eq_some_iff.mp happrove
  obtain ⟨recorded, recordedExpiry, hrecorded, hfingerprint⟩ := hbudget run hrun
  set approved : ExecutionRun := { run with
    status := .succeeded
    usage := some (.approved (.receipt s.drawn) (expiresAt now) ctx.actorUserId tokenId) }
  have hstage : WasApproved s fingerprint approved :=
    ⟨rfl, s.drawn, expiresAt now, ctx.actorUserId, tokenId, rfl, htoken⟩
  have hledger : Ledger (s.insert (.challenge fingerprint) approved) :=
    h.insertChallenge hrecorded hfingerprint (.inr hstage)
  exact hledger.congr (by simp) (by simp) (Nat.le_succ _)

theorem runs_of_move {tenantId : String} {id id' : RunId}
    {transition : StatusTransition AiRunStatus} {usage : Usage} (hne : id' ≠ id)
    (h : s.move tenantId id transition usage = some t) : t.runs id' = s.runs id' := by
  obtain ⟨run, -, -, -, rfl⟩ := move_eq_some_iff.mp h
  simp [hne]

theorem frame_issue {fingerprint binding : RequestBinding} {ctx : RequestContext} {now : ℕ}
    (hfree : s.runs (.widgetToken s.drawn) = none)
    (hissue : issueAndBindToken s ctx binding (.challenge fingerprint) now = some t) : Frame s t := by
  refine Frame.trans ⟨extends_draw.trans (extends_insert (by simpa using hfree)), rfl, rfl⟩
    (frame_move (by simp [aiRunChallengeRefreshed]) hissue)

/-- Tokens and challenges are the only rows that are written. -/
theorem runs_of_issue {fingerprint binding : RequestBinding} {ctx : RequestContext} {now : ℕ}
    (hissue : issueAndBindToken s ctx binding (.challenge fingerprint) now = some t) {id : RunId}
    (hchallenge : id ≠ .challenge fingerprint) (htoken : id ≠ .widgetToken s.drawn) :
    t.runs id = s.runs id := by
  rw [runs_of_move hchallenge hissue]
  simp [htoken]

theorem runs_of_revoke {fingerprint : RequestBinding} {ctx : RequestContext}
    {challenge : ExecutionRun} (hnames : NamesTokens s fingerprint challenge)
    (hrevoke : revokeActive s ctx challenge = some t) {id : RunId}
    (hid : ∀ n, id ≠ .widgetToken n) : t.runs id = s.runs id := by
  unfold revokeActive at hrevoke
  split at hrevoke
  next => exact congrArg (fun u => u.runs id) (Option.some.inj hrevoke).symm
  next tokenId htokenId =>
    obtain ⟨n, -, rfl, -⟩ := hnames tokenId htokenId
    exact runs_of_move (hid n) hrevoke

/-! ### The invariant -/

/-- A receipt is what an approved challenge says. -/
def ReceiptFits (s : State W) (n : ℕ) (receipt : ExecutionRun) : Prop :=
  ∃ fingerprint approvedBy binding expiresAt challenge challengeExpiresAt receiptExpiresAt approver
    tokenId, receipt.budget = .receipt (.challenge fingerprint) approvedBy binding expiresAt ∧
    s.runs (.challenge fingerprint) = some challenge ∧
    challenge.budget = .challenge binding challengeExpiresAt ∧ challenge.status = .succeeded ∧
    challenge.usage = some (.approved (.receipt n) receiptExpiresAt approver tokenId)

/-- What a call has read of a challenge. -/
def ReadFrom (s : State W) (id : RunId) (challenge : ExecutionRun) : Prop :=
  ∃ run, s.runs id = some run ∧ run.budget = challenge.budget ∧ run.tenantId = challenge.tenantId ∧
    ∀ fingerprint, id = .challenge fingerprint → NamesTokens s fingerprint challenge

def JobFits (s : State W) : Job → Prop
  | .replay _ binding challenge _ =>
    ReadFrom s (.challenge binding.executionFingerprint) challenge
  | .approveWidget _ _ id _ _ challenge _ => ReadFrom s id challenge
  | .approve ctx _ id challenge _ => ReadFrom s id challenge ∧ challenge.tenantId = ctx.tenantId

structure Inv (s : State W) : Prop where
  ledger : Ledger s
  receipts : ∀ n receipt, s.runs (.receipt n) = some receipt → n < s.drawn ∧ ReceiptFits s n receipt
  executions : ∀ fingerprint run, s.runs (.execution fingerprint) = some run →
    ∃ binding, run.budget = .execution binding
  consumed : ∀ receiptId executionId, (receiptId, executionId) ∈ s.consumptions →
    IsApproved s receiptId executionId ∧
      ∃ receipt, s.runs receiptId = some receipt ∧ receipt.status = .succeeded
  once : ∀ receiptId executionId executionId', (receiptId, executionId) ∈ s.consumptions →
    (receiptId, executionId') ∈ s.consumptions → executionId = executionId'
  jobs : ∀ w job, s.jobs w = some job → JobFits s job

theorem inv_initial : Inv (State.initial : State W) := by
  refine ⟨⟨?_, ?_, ?_⟩, ?_, ?_, ?_, ?_, ?_⟩ <;> simp [State.initial, TokenOf]

theorem Inv.confirmedOnce (h : Inv s) : ConfirmedOnce s := by
  refine ⟨?_, h.ledger.running, ?_, h.once, fun receiptId executionId hmem =>
    (h.consumed receiptId executionId hmem).1⟩
  · rintro fingerprint n n' receipt receipt' ⟨hrun, _, _, _, hbudget⟩ ⟨hrun', _, _, _, hbudget'⟩
    obtain ⟨-, _, _, _, _, challenge, _, _, _, _, hfits, hchallenge, -, -, husage⟩ :=
      h.receipts n receipt hrun
    obtain ⟨-, _, _, _, _, challenge', _, _, _, _, hfits', hchallenge', -, -, husage'⟩ :=
      h.receipts n' receipt' hrun'
    obtain ⟨heq, -, -, -⟩ := Budget.receipt.inj (hbudget.symm.trans hfits)
    obtain ⟨heq', -, -, -⟩ := Budget.receipt.inj (hbudget'.symm.trans hfits')
    rw [← heq] at hchallenge
    rw [← heq'] at hchallenge'
    obtain rfl := Option.some.inj (hchallenge.symm.trans hchallenge')
    obtain ⟨hsame, -, -, -⟩ := Usage.approved.inj (Option.some.inj (husage.symm.trans husage'))
    exact RunId.receipt.inj hsame
  · intro fingerprint challenge receiptId expiresAt approvedBy tokenId hrun husage
    rcases (h.ledger.challenges fingerprint challenge hrun).2 with ⟨-, hwaiting⟩ | ⟨-, happroved⟩
    · rcases hwaiting with ⟨hnone, -⟩ | ⟨_, _, hactive, -⟩
      · simp [husage] at hnone
      · simp [husage] at hactive
    · obtain ⟨_, _, _, tokenId', husage', htoken⟩ := happroved
      obtain ⟨-, -, -, rfl⟩ := Usage.approved.inj (Option.some.inj (husage.symm.trans husage'))
      obtain ⟨n, token, hid, htokenOf, hconsumed, -, hlast⟩ := htoken tokenId rfl
      exact ⟨n, token, hid, htokenOf, hconsumed, hlast⟩

/-! ### What is kept -/

theorem NamesTokens.extend {fingerprint : RequestBinding} {challenge : ExecutionRun}
    (h : NamesTokens s fingerprint challenge) (hext : Extends s t) :
    NamesTokens t fingerprint challenge := by
  intro id hid
  obtain ⟨n, token, rfl, htoken⟩ := h id hid
  obtain ⟨token', htoken'⟩ := htoken.extend hext
  exact ⟨n, token', rfl, htoken'⟩

theorem ReadFrom.extend {id : RunId} {challenge : ExecutionRun} (h : ReadFrom s id challenge)
    (hext : Extends s t) : ReadFrom t id challenge := by
  obtain ⟨run, hrun, hbudget, htenant, hnames⟩ := h
  obtain ⟨run', hrun', hkeeps⟩ := hext.keeps id run hrun
  exact ⟨run', hrun', hkeeps.budget.trans hbudget, hkeeps.tenantId.trans htenant,
    fun fingerprint hid => (hnames fingerprint hid).extend hext⟩

theorem JobFits.extend {job : Job} (h : JobFits s job) (hext : Extends s t) : JobFits t job := by
  cases job with
  | replay ctx binding challenge now => exact ReadFrom.extend h hext
  | approveWidget ctx applicationId id secret origin challenge now => exact ReadFrom.extend h hext
  | approve ctx applicationId id challenge now => exact ⟨ReadFrom.extend h.1 hext, h.2⟩

theorem ReceiptFits.extend {n : ℕ} {receipt receipt' : ExecutionRun} (h : ReceiptFits s n receipt)
    (hbudget : receipt'.budget = receipt.budget) (hext : Extends s t) :
    ReceiptFits t n receipt' := by
  obtain ⟨fingerprint, approvedBy, binding, expiresAt, challenge, challengeExpiresAt,
    receiptExpiresAt, approver, tokenId, hfits, hchallenge, hof, hsucceeded, husage⟩ := h
  obtain ⟨challenge', hchallenge', hkeeps⟩ := hext.keeps _ _ hchallenge
  obtain rfl := hkeeps.succeeded hsucceeded
  exact ⟨fingerprint, approvedBy, binding, expiresAt, challenge', challengeExpiresAt,
    receiptExpiresAt, approver, tokenId, hbudget.trans hfits, hchallenge', hof, hsucceeded, husage⟩

theorem IsApproved.extend {receiptId executionId : RunId} (h : IsApproved s receiptId executionId)
    (hext : Extends s t) : IsApproved t receiptId executionId := by
  obtain ⟨receipt, fingerprint, approvedBy, approved, expiresAt, challenge, challengeExpiresAt,
    execution, binding, hreceipt, hfits, hchallenge, hsucceeded, hof, hexecution, hexecuted,
    hsame⟩ := h
  obtain ⟨receipt', hreceipt', hkeeps⟩ := hext.keeps _ _ hreceipt
  obtain ⟨challenge', hchallenge', hkeepsChallenge⟩ := hext.keeps _ _ hchallenge
  obtain ⟨execution', hexecution', hkeepsExecution⟩ := hext.keeps _ _ hexecution
  obtain rfl := hkeepsChallenge.succeeded hsucceeded
  exact ⟨receipt', fingerprint, approvedBy, approved, expiresAt, challenge', challengeExpiresAt,
    execution', binding, hreceipt', hkeeps.budget.trans hfits, hchallenge', hsucceeded, hof,
    hexecution', hkeepsExecution.budget.trans hexecuted, hsame⟩

/-- What consumes no receipt. -/
theorem Inv.extend (h : Inv s) (hext : Extends s t) (hledger : Ledger t)
    (hreceipts : ∀ n receipt, t.runs (.receipt n) = some receipt →
      s.runs (.receipt n) ≠ none ∨ n < t.drawn ∧ ReceiptFits t n receipt)
    (hexecutions : ∀ fingerprint run, t.runs (.execution fingerprint) = some run →
      s.runs (.execution fingerprint) ≠ none ∨ ∃ binding, run.budget = .execution binding)
    (hconsumptions : t.consumptions = s.consumptions)
    (hjobs : ∀ w job, t.jobs w = some job → s.jobs w = some job ∨ JobFits t job) : Inv t := by
  refine ⟨hledger, fun n receipt hrun => ?_, fun fingerprint run hrun => ?_,
    fun receiptId executionId hmem => ?_, ?_, fun w job hjob => ?_⟩
  · rcases hreceipts n receipt hrun with hold | hnew
    · obtain ⟨old, hold⟩ := Option.ne_none_iff_exists'.mp hold
      obtain ⟨hlt, hfits⟩ := h.receipts n old hold
      obtain ⟨receipt', hrun', hkeeps⟩ := hext.keeps _ _ hold
      obtain rfl := Option.some.inj (hrun.symm.trans hrun')
      exact ⟨Nat.lt_of_lt_of_le hlt hext.drawn, hfits.extend hkeeps.budget hext⟩
    · exact hnew
  · rcases hexecutions fingerprint run hrun with hold | hnew
    · obtain ⟨old, hold⟩ := Option.ne_none_iff_exists'.mp hold
      obtain ⟨binding, hbudget⟩ := h.executions fingerprint old hold
      obtain ⟨run', hrun', hkeeps⟩ := hext.keeps _ _ hold
      obtain rfl := Option.some.inj (hrun.symm.trans hrun')
      exact ⟨binding, hkeeps.budget.trans hbudget⟩
    · exact hnew
  · obtain ⟨happroved, receipt, hreceipt, hsucceeded⟩ :=
      h.consumed receiptId executionId (hconsumptions ▸ hmem)
    obtain ⟨receipt', hreceipt', hkeeps⟩ := hext.keeps _ _ hreceipt
    obtain rfl := hkeeps.succeeded hsucceeded
    exact ⟨happroved.extend hext, receipt', hreceipt', hsucceeded⟩
  · rw [hconsumptions]
    exact h.once
  · rcases hjobs w job hjob with hold | hnew
    · exact (h.jobs w job hold).extend hext
    · exact hnew

/-- What leaves receipts and executions alone. -/
theorem Inv.of_frame (h : Inv s) (hframe : Frame s t) (hledger : Ledger t)
    (hreceipts : ∀ n, t.runs (.receipt n) = s.runs (.receipt n))
    (hexecutions : ∀ fingerprint,
      t.runs (.execution fingerprint) = s.runs (.execution fingerprint)) : Inv t :=
  h.extend hframe.kept hledger (fun n receipt hrun => .inl (by simp [← hreceipts, hrun]))
    (fun fingerprint run hrun => .inl (by simp [← hexecutions, hrun])) hframe.consumptions
    fun w job hjob => .inl (hframe.jobs ▸ hjob)

/-! ### Steps -/

theorem Inv.eq_challenge {id : RunId} {run : ExecutionRun} {binding : RequestBinding}
    {expiresAt : ℕ} (h : Inv s) (hrun : s.runs id = some run)
    (hbudget : run.budget = .challenge binding expiresAt) :
    id = .challenge binding.executionFingerprint := by
  cases id with
  | challenge fingerprint =>
    obtain ⟨⟨recorded, _, hrecorded, rfl⟩, -⟩ := h.ledger.challenges fingerprint run hrun
    obtain ⟨rfl, -⟩ := Budget.challenge.inj (hbudget.symm.trans hrecorded)
    rfl
  | widgetToken n =>
    obtain ⟨-, -, _, _, ⟨-, _, _, htoken, -⟩, -⟩ := h.ledger.tokens n run hrun
    simp [hbudget] at htoken
  | receipt n =>
    obtain ⟨-, _, _, _, _, _, _, _, _, _, hreceipt, -⟩ := h.receipts n run hrun
    simp [hbudget] at hreceipt
  | execution fingerprint =>
    obtain ⟨_, hexecution⟩ := h.executions fingerprint run hrun
    simp [hbudget] at hexecution

theorem budget_of_challengeBinding {challenge : ExecutionRun} {applicationId : String} {now : ℕ}
    {binding : RequestBinding} (h : challengeBinding challenge applicationId now = some binding) :
    ∃ expiresAt, challenge.budget = .challenge binding expiresAt := by
  unfold challengeBinding at h
  split at h
  next recorded expiresAt hbudget =>
    split_ifs at h
    obtain rfl := Option.some.inj h
    exact ⟨expiresAt, hbudget⟩
  next => exact absurd h (by simp)

theorem Ledger.budget {fingerprint : RequestBinding} (h : Ledger s) :
    ∀ run, s.runs (.challenge fingerprint) = some run → ∃ recorded expiresAt,
      run.budget = .challenge recorded expiresAt ∧ recorded.executionFingerprint = fingerprint :=
  fun run hrun => (h.challenges fingerprint run hrun).1

/-- A challenge that is not there has no tokens. -/
theorem Ledger.tokenless (h : Ledger s) {fingerprint : RequestBinding}
    (hnone : s.runs (.challenge fingerprint) = none) (n : ℕ) (token : ExecutionRun) :
    ¬ TokenOf s fingerprint n token := by
  intro htoken
  obtain ⟨-, -, fingerprint', challenge, htoken', hchallenge⟩ := h.tokens n token htoken.1
  obtain ⟨-, _, _, hof, hid⟩ := htoken
  obtain ⟨-, _, _, hof', hid'⟩ := htoken'
  obtain ⟨rfl, -⟩ := Budget.widgetToken.inj (hof.symm.trans hof')
  rw [← hid', hid, hnone] at hchallenge
  simp at hchallenge

/-- A new challenge, which has no token yet. -/
theorem ledger_newChallenge {binding : RequestBinding} {run : ExecutionRun} {expiresAt : ℕ}
    (h : Ledger s) (hnone : s.runs (.challenge binding.executionFingerprint) = none)
    (hbudget : run.budget = .challenge binding expiresAt) (hstatus : run.status = .started)
    (husage : run.usage = none) :
    Ledger (s.insert (.challenge binding.executionFingerprint) run) := by
  exact (h.but _).insertChallenge hbudget rfl (.inl ⟨hstatus, .inl ⟨husage, h.tokenless hnone⟩⟩)

theorem Inv.newChallenge {binding : RequestBinding} {run : ExecutionRun} {expiresAt : ℕ}
    (h : Inv s) (hnone : s.runs (.challenge binding.executionFingerprint) = none)
    (hbudget : run.budget = .challenge binding expiresAt) (hstatus : run.status = .started)
    (husage : run.usage = none) :
    Inv (s.insert (.challenge binding.executionFingerprint) run) :=
  h.of_frame ⟨extends_insert hnone, rfl, rfl⟩
    (ledger_newChallenge h.ledger hnone hbudget hstatus husage) (by simp) (by simp)

/-- A challenge that has no active token gets one. -/
theorem Inv.issue {fingerprint binding : RequestBinding} {ctx : RequestContext} {now : ℕ}
    (h : Inv s) (hunused : ∀ n token, TokenOf s fingerprint n token → token.status ≠ .running)
    (hissue : issueAndBindToken s ctx binding (.challenge fingerprint) now = some t) : Inv t := by
  exact h.of_frame (frame_issue (h.ledger.but fingerprint).no_token hissue)
    (ledger_issue (h.ledger.but _) h.ledger.budget hunused hissue)
    (fun _ => runs_of_issue hissue (by simp) (by simp))
    fun _ => runs_of_issue hissue (by simp) (by simp)

variable [DecidableEq W] in
theorem Inv.setJob {w : W} {job : Option Job} (h : Inv s)
    (hfits : ∀ job', job = some job' → JobFits s job') : Inv (s.setJob w job) := by
  have hext : Extends s (s.setJob w job) := extends_of_runs rfl (Nat.le_refl _)
  refine h.extend hext (h.ledger.congr (fun _ => rfl) (fun _ => rfl) (Nat.le_refl _))
    (fun n receipt hrun => .inl ?_) (fun fingerprint run hrun => .inl ?_) rfl
    fun w' job' hjob => ?_
  · simp [show s.runs (.receipt n) = some receipt from hrun]
  · simp [show s.runs (.execution fingerprint) = some run from hrun]
  · rcases update_eq_some hjob with ⟨-, hnew⟩ | ⟨-, hold⟩
    · exact .inr ((hfits job' hnew).extend hext)
    · exact .inl hold

theorem Inv.names (h : Inv s) {id : RunId} {run : ExecutionRun} (hrun : s.runs id = some run)
    {fingerprint : RequestBinding} (hid : id = .challenge fingerprint) :
    NamesTokens s fingerprint run := by
  subst hid
  intro tokenId htokenId
  obtain ⟨usage, husage, hof⟩ := Option.bind_eq_some_iff.mp htokenId
  rcases (h.ledger.challenges fingerprint run hrun).2 with ⟨-, hwaiting⟩ | ⟨-, happroved⟩
  · rcases hwaiting with ⟨hnone, -⟩ | ⟨n, token, hactive, htoken, -⟩
    · simp [hnone] at husage
    · obtain rfl := Option.some.inj (hactive.symm.trans husage)
      exact ⟨n, token, (Option.some.inj hof).symm, htoken⟩
  · obtain ⟨_, _, _, tokenId', husage', htoken⟩ := happroved
    obtain rfl := Option.some.inj (husage'.symm.trans husage)
    obtain ⟨n, token, hid, htokenOf, -⟩ := htoken tokenId hof
    exact ⟨n, token, hid, htokenOf⟩

theorem Inv.readFrom (h : Inv s) {id : RunId} {run : ExecutionRun} (hrun : s.runs id = some run) :
    ReadFrom s id run :=
  ⟨run, hrun, rfl, rfl, fun _ hid => h.names hrun hid⟩

/-- The challenge of a waiting call names the token that is active. -/
theorem Ledger.waiting (h : Ledger s) {fingerprint : RequestBinding} {run : ExecutionRun}
    (hrun : s.runs (.challenge fingerprint) = some run)
    (hstatus : run.status ∈ [AiRunStatus.started, .running]) : IsWaiting s fingerprint run := by
  rcases (h.challenges fingerprint run hrun).2 with hwaiting | ⟨hsucceeded, -⟩
  · exact hwaiting
  · simp [hsucceeded] at hstatus

/-- **A token is replaced**, where what was read still holds of the challenge. -/
theorem Inv.rotate {binding : RequestBinding} {ctx : RequestContext} {challenge : ExecutionRun}
    {now : ℕ} {revoked : State W} (h : Inv s)
    (hread : ReadFrom s (.challenge binding.executionFingerprint) challenge)
    (hnone : challenge.widgetTokenId = none →
      ∀ run, s.runs (.challenge binding.executionFingerprint) = some run →
        run.status = .started → run.widgetTokenId = none)
    (hrevoke : revokeActive s ctx challenge = some revoked)
    (hissue : issueAndBindToken revoked ctx binding (.challenge binding.executionFingerprint) now =
      some t) : Inv t := by
  obtain ⟨-, -, -, -, hnames⟩ := hread
  have hnames := hnames _ rfl
  obtain ⟨hbut, hrunning⟩ := ledgerBut_revoke h.ledger hnames hrevoke
  have hrevoked := frame_revoke hrevoke
  have hissued := frame_issue hbut.no_token hissue
  have hchallenge : ∀ fingerprint, revoked.runs (.challenge fingerprint) =
      s.runs (.challenge fingerprint) := fun _ => runs_of_revoke hnames hrevoke (by simp)
  have hunused : ∀ n token, TokenOf revoked binding.executionFingerprint n token →
      token.status ≠ .running := by
    intro n token htoken hactive
    obtain ⟨hnot, htokenOf⟩ := hrunning n token htoken hactive
    obtain ⟨run, hrun, -, hstatus, -⟩ := move_eq_some_iff.mp hissue
    have hthere : s.runs (.challenge binding.executionFingerprint) = some run := by
      rw [← hchallenge]
      simpa using hrun
    have hstarted : run.status = .started := by simpa [aiRunChallengeRefreshed] using hstatus
    have hname := hnone hnot run hthere hstarted
    rcases (h.ledger.waiting hthere (by simp [hstarted])).2 with ⟨-, hempty⟩ | ⟨_, _, husage, -⟩
    · exact hempty n token htokenOf
    · simp [ExecutionRun.widgetTokenId, husage, Usage.widgetTokenId] at hname
  have hledger : Ledger t := by
    refine ledger_issue hbut (fun run hrun => ?_) hunused hissue
    exact h.ledger.budget run (hchallenge _ ▸ hrun)
  have hruns : ∀ {id}, (∀ fingerprint, id ≠ .challenge fingerprint) →
      (∀ n, id ≠ .widgetToken n) → t.runs id = s.runs id := fun hne htoken =>
    (runs_of_issue hissue (hne _) (htoken _)).trans (runs_of_revoke hnames hrevoke htoken)
  exact h.of_frame (hrevoked.trans hissued) hledger (fun _ => hruns (by simp) (by simp))
    fun _ => hruns (by simp) (by simp)

theorem frame_approve {ctx : RequestContext} {challengeId : RunId} {binding : RequestBinding}
    {tokenId : Option RunId} {now : ℕ} (hfree : s.runs (.receipt s.drawn) = none)
    (hid : challengeId ≠ .receipt s.drawn)
    (happrove : approveChallenge s ctx challengeId binding tokenId now = some t) : Frame s t := by
  obtain ⟨run, hrun, htenant, hstatus, rfl⟩ := approveChallenge_eq_some_iff.mp happrove
  have hmoved : Frame s (s.insert challengeId { run with
      status := .succeeded
      usage := some (.approved (.receipt s.drawn) (expiresAt now) ctx.actorUserId tokenId) }) :=
    frame_move (by simp [aiRunSucceeded])
      (move_eq_some_iff.mpr ⟨run, hrun, htenant, hstatus, rfl⟩ :
        s.move ctx.tenantId challengeId aiRunSucceeded _ = some _)
  refine hmoved.trans ⟨extends_draw.trans (extends_insert ?_), rfl, rfl⟩
  simpa [hid.symm] using hfree

theorem Inv.no_receipt (h : Inv s) : s.runs (.receipt s.drawn) = none := by
  cases hrun : s.runs (.receipt s.drawn) with
  | none => rfl
  | some receipt => exact absurd (h.receipts _ _ hrun).1 (Nat.lt_irrefl _)

/-- **A challenge is approved**, behind what was written on its tokens. -/
theorem Inv.approve {binding : RequestBinding} {ctx : RequestContext} {challenge : ExecutionRun}
    {challengeExpiresAt now : ℕ} {tokenId : Option RunId} {moved : State W} (h : Inv s)
    (hread : ReadFrom s (.challenge binding.executionFingerprint) challenge)
    (hbudget : challenge.budget = .challenge binding challengeExpiresAt)
    (hmoved : Frame s moved) (hbut : LedgerBut moved binding.executionFingerprint)
    (hdrawn : moved.drawn = s.drawn)
    (hruns : ∀ {id}, (∀ n, id ≠ .widgetToken n) → moved.runs id = s.runs id)
    (htoken : ∀ id, tokenId = some id → HasApproved moved binding.executionFingerprint id)
    (happrove : approveChallenge moved ctx (.challenge binding.executionFingerprint) binding tokenId
      now = some t) : Inv t := by
  have hfree : moved.runs (.receipt moved.drawn) = none := by
    rw [hruns (by simp), hdrawn]
    exact h.no_receipt
  have hframe := hmoved.trans (frame_approve hfree (by simp) happrove)
  have hledger : Ledger t := by
    refine ledger_approve hbut (fun run hrun => ?_) htoken happrove
    rw [hruns (by simp)] at hrun
    exact h.ledger.budget run hrun
  obtain ⟨run, hrun, -, -, rfl⟩ := approveChallenge_eq_some_iff.mp happrove
  refine h.extend hframe.kept hledger (fun n receipt hreceipt => ?_)
    (fun fingerprint execution hexecution => .inl ?_) hframe.consumptions fun w job hjob => .inl (hframe.jobs ▸ hjob)
  · by_cases hn : n = moved.drawn
    · subst hn
      refine .inr ⟨Nat.lt_succ_self _, ?_⟩
      obtain ⟨run', hrun', hsame, -, -⟩ := hread
      obtain rfl : run = run' := by
        rw [hruns (by simp), hrun'] at hrun
        exact (Option.some.inj hrun).symm
      obtain rfl := (by simpa using hreceipt : _ = receipt)
      exact ⟨binding.executionFingerprint, ctx.actorUserId, binding, expiresAt now, { run with
          status := .succeeded
          usage := some (.approved (.receipt moved.drawn) (expiresAt now) ctx.actorUserId tokenId) },
        challengeExpiresAt, expiresAt now, ctx.actorUserId, tokenId, rfl, by simp,
        hsame.trans hbudget, rfl, rfl⟩
    · refine .inl ?_
      have hold : moved.runs (.receipt n) = some receipt := by simpa [hn] using hreceipt
      rw [hruns (by simp)] at hold
      simp [hold]
  · have hold : moved.runs (.execution fingerprint) = some execution := by simpa using hexecution
    rw [hruns (by simp)] at hold
    simp [hold]

theorem find_eq_some_iff {tenantId : String} {id : RunId} {run : ExecutionRun} :
    s.find tenantId id = some run ↔ s.runs id = some run ∧ run.tenantId = tenantId := by
  simp [State.find, Option.filter_eq_some_iff]

theorem of_isUsableToken {token : ExecutionRun} {binding : WidgetApprovalBinding} {now : ℕ}
    (h : isUsableToken token binding now = true) :
    ∃ expiresAt, token.budget = .widgetToken binding expiresAt := by
  unfold isUsableToken at h
  split at h
  next recorded expiresAt hbudget =>
    obtain ⟨-, rfl, -⟩ := of_decide_eq_true h
    exact ⟨expiresAt, hbudget⟩
  next => simp at h

/-- **A widget approves** with the last token of the challenge. -/
theorem Inv.approveWidget {ctx : RequestContext} {applicationId : String} {challengeId : RunId}
    {secret now : ℕ} {origin : Option String} {challenge token : ExecutionRun}
    {binding : RequestBinding} {consumed : State W} (h : Inv s)
    (hread : ReadFrom s challengeId challenge)
    (hbinding : challengeBinding challenge applicationId now = some binding)
    (htoken : s.runs (.widgetToken secret) = some token)
    (husable : isUsableToken token (widgetApprovalBinding ctx binding challengeId origin) now = true)
    (hconsume : s.move ctx.tenantId (.widgetToken secret) aiRunSucceeded .widgetTokenConsumed =
      some consumed)
    (happrove : approveChallenge consumed ctx challengeId binding (some (.widgetToken secret)) now =
      some t) : Inv t := by
  obtain ⟨challengeExpiresAt, hbudget⟩ := budget_of_challengeBinding hbinding
  obtain rfl : challengeId = .challenge binding.executionFingerprint := by
    obtain ⟨run, hrun, hsame, -⟩ := hread
    exact h.eq_challenge hrun (hsame.trans hbudget)
  obtain ⟨expiresAt, htokenBudget⟩ := of_isUsableToken husable
  have htokenOf : TokenOf s binding.executionFingerprint secret token :=
    ⟨htoken, _, expiresAt, htokenBudget, rfl⟩
  obtain ⟨hbut, hrunning, htokens⟩ := ledgerBut_moveToken h.ledger htokenOf hconsume
  have hruns : ∀ {id}, (∀ n, id ≠ .widgetToken n) → consumed.runs id = s.runs id :=
    fun hid => runs_of_move (hid secret) hconsume
  -- The challenge waits, and names the only token that is active.
  have hlast : ∀ m token', TokenOf s binding.executionFingerprint m token' → m ≤ secret := by
    obtain ⟨run, hrun, -, hstatus, -⟩ := approveChallenge_eq_some_iff.mp happrove
    rw [hruns (by simp)] at hrun
    rcases (h.ledger.waiting hrun hstatus).2 with ⟨-, hempty⟩ | ⟨n, active, -, hactive, hrun', hle⟩
    · exact absurd htokenOf (hempty secret token)
    · obtain rfl := h.ledger.running _ _ _ _ _ htokenOf hactive hrunning hrun'
      exact hle
  have hdrawn : consumed.drawn = s.drawn := by
    obtain ⟨_, -, -, -, rfl⟩ := move_eq_some_iff.mp hconsume
    rfl
  refine h.approve hread hbudget (frame_move (by simp [aiRunSucceeded]) hconsume) hbut hdrawn hruns
    ?_ happrove
  rintro _ ⟨⟩
  refine ⟨secret, _, rfl, (htokens secret _).mpr (.inl ⟨rfl, rfl⟩), rfl, rfl, fun m token' hm => ?_⟩
  rcases (htokens m token').mp hm with ⟨rfl, -⟩ | ⟨-, hold⟩
  · exact Nat.le_refl _
  · exact hlast m token' hold

theorem drawn_of_revoke {ctx : RequestContext} {challenge : ExecutionRun}
    (h : revokeActive s ctx challenge = some t) : t.drawn = s.drawn := by
  unfold revokeActive at h
  split at h
  · rw [← Option.some.inj h]
  · obtain ⟨_, -, -, -, rfl⟩ := move_eq_some_iff.mp h
    rfl

/-- A challenge that was approved keeps its approval when a token is revoked. -/
theorem HasApproved.revoke {fingerprint : RequestBinding} {ctx : RequestContext}
    {challenge : ExecutionRun} {tokenId : RunId} (h : HasApproved s fingerprint tokenId)
    (hledger : Ledger s) (hnames : NamesTokens s fingerprint challenge)
    (hrevoke : revokeActive s ctx challenge = some t) : HasApproved t fingerprint tokenId := by
  obtain ⟨n, token, rfl, htoken, hconsumed, hsucceeded, hlast⟩ := h
  unfold revokeActive at hrevoke
  split at hrevoke
  next =>
    obtain rfl := Option.some.inj hrevoke
    exact ⟨n, token, rfl, htoken, hconsumed, hsucceeded, hlast⟩
  next id hid =>
    obtain ⟨m, active, rfl, hactive⟩ := hnames id hid
    obtain ⟨-, hrunning, htokens⟩ := ledgerBut_moveToken hledger hactive hrevoke
    have hne : n ≠ m := by
      rintro rfl
      obtain rfl := Option.some.inj (htoken.1.symm.trans hactive.1)
      simp [hsucceeded] at hrunning
    refine ⟨n, token, rfl, (htokens n token).mpr (.inr ⟨hne, htoken⟩), hconsumed, hsucceeded,
      fun m' token' hm => ?_⟩
    rcases (htokens m' token').mp hm with ⟨rfl, -⟩ | ⟨-, hold⟩
    · exact hlast m' active hactive
    · exact hlast m' token' hold

/-- The token of a challenge that is approved already is revoked, and nothing else. -/
theorem Inv.revokeOnly {binding : RequestBinding} {ctx : RequestContext} {challenge : ExecutionRun}
    {now : ℕ} (h : Inv s) (hread : ReadFrom s (.challenge binding.executionFingerprint) challenge)
    (htenant : challenge.tenantId = ctx.tenantId)
    (hrevoke : revokeActive s ctx challenge = some t)
    (hnot : approveChallenge t ctx (.challenge binding.executionFingerprint) binding none now = none) :
    Inv t := by
  obtain ⟨run, hrun, -, hsame, hnames⟩ := hread
  have hnames := hnames _ rfl
  have hframe := frame_revoke hrevoke
  obtain ⟨hbut, -⟩ := ledgerBut_revoke h.ledger hnames hrevoke
  have hruns : ∀ {id}, (∀ n, id ≠ .widgetToken n) → t.runs id = s.runs id :=
    runs_of_revoke hnames hrevoke
  have hthere : t.runs (.challenge binding.executionFingerprint) = some run := by
    rw [hruns (by simp), hrun]
  have happroved : WasApproved s binding.executionFingerprint run := by
    rcases (h.ledger.challenges _ run hrun).2 with ⟨hstarted, -⟩ | happroved
    · have hsome : ∃ u, approveChallenge t ctx (.challenge binding.executionFingerprint) binding none
          now = some u :=
        ⟨_, approveChallenge_eq_some_iff.mpr
          ⟨run, hthere, hsame.trans htenant, by simp [hstarted], rfl⟩⟩
      simp [hnot] at hsome
    · exact happroved
  obtain ⟨hsucceeded, n, expiresAt, approvedBy, tokenId, husage, htoken⟩ := happroved
  have hstage : WasApproved t binding.executionFingerprint run :=
    ⟨hsucceeded, n, expiresAt, approvedBy, tokenId, husage,
      fun id hid => (htoken id hid).revoke h.ledger hnames hrevoke⟩
  have hledger : Ledger t := by
    refine ⟨fun fingerprint run' hrun' => ?_, hbut.tokens, hbut.running⟩
    by_cases hfingerprint : fingerprint = binding.executionFingerprint
    · subst hfingerprint
      obtain rfl := Option.some.inj (hthere.symm.trans hrun')
      exact ⟨h.ledger.budget run hrun, .inr hstage⟩
    · exact hbut.challenges fingerprint run' hrun' hfingerprint
  exact h.of_frame hframe hledger (fun _ => hruns (by simp)) fun _ => hruns (by simp)

theorem of_isUsableReceipt {receipt : ExecutionRun} {binding : RequestBinding} {now : ℕ}
    (h : isUsableReceipt receipt binding now = true) :
    ∃ challengeId approvedBy approved expiresAt,
      receipt.budget = .receipt challengeId approvedBy approved expiresAt ∧
        receipt.status = .running ∧ approved = binding.asRecordedSession approved := by
  unfold isUsableReceipt at h
  split at h
  next challengeId approvedBy approved expiresAt hbudget =>
    obtain ⟨hstatus, -, hsame, -⟩ := of_decide_eq_true h
    exact ⟨challengeId, approvedBy, approved, expiresAt, hbudget, hstatus, hsame⟩
  next => simp at h

/-- An execution that is there is moved. -/
theorem Inv.moveExecution {tenantId : String} {fingerprint : RequestBinding} {usage : Usage}
    {transition : StatusTransition AiRunStatus} (h : Inv s)
    (hfrom : AiRunStatus.succeeded ∉ transition.fromStatuses)
    (hmove : s.move tenantId (.execution fingerprint) transition usage = some t) : Inv t := by
  have hframe := frame_move hfrom hmove
  refine h.extend hframe.kept (h.ledger.congr (fun _ => runs_of_move (by simp) hmove)
    (fun _ => runs_of_move (by simp) hmove) hframe.kept.drawn) (fun n receipt hrun => .inl ?_)
    (fun fingerprint' run hrun => .inl ?_) hframe.consumptions
    fun w job hjob => .inl (hframe.jobs ▸ hjob)
  · rw [runs_of_move (by simp) hmove] at hrun
    simp [hrun]
  · by_cases hsame : fingerprint' = fingerprint
    · obtain ⟨old, hthere, -⟩ := move_eq_some_iff.mp hmove
      simp [hsame, hthere]
    · rw [runs_of_move (by simp [hsame]) hmove] at hrun
      simp [hrun]

theorem Inv.eq_receipt {id challengeId : RunId} {run : ExecutionRun} {approvedBy : String}
    {binding : RequestBinding} {expiresAt : ℕ} (h : Inv s) (hrun : s.runs id = some run)
    (hbudget : run.budget = .receipt challengeId approvedBy binding expiresAt) :
    ∃ n, id = .receipt n := by
  cases id with
  | challenge fingerprint =>
    obtain ⟨⟨_, _, hchallenge, -⟩, -⟩ := h.ledger.challenges fingerprint run hrun
    simp [hbudget] at hchallenge
  | widgetToken n =>
    obtain ⟨-, -, _, _, ⟨-, _, _, htoken, -⟩, -⟩ := h.ledger.tokens n run hrun
    simp [hbudget] at htoken
  | receipt n => exact ⟨n, rfl⟩
  | execution fingerprint =>
    obtain ⟨_, hexecution⟩ := h.executions fingerprint run hrun
    simp [hbudget] at hexecution

/-- **A receipt is consumed** by the execution that was approved. -/
theorem Inv.seed {ctx : RequestContext} {binding : RequestBinding} {receiptId : RunId} {now : ℕ}
    (h : Inv s) (hnew : s.runs (.execution binding.executionFingerprint) = none)
    (hconsume : consume (s.insert (.execution binding.executionFingerprint)
      ⟨ctx.tenantId, ctx.actorUserId, .running, .execution binding, none⟩) ctx receiptId
        (.execution binding.executionFingerprint) binding now = some t) : Inv t := by
  simp only [consume, Option.bind_eq_bind, Option.bind_eq_some_iff, find_eq_some_iff] at hconsume
  obtain ⟨receipt, ⟨hreceipt, -⟩, hconsume⟩ := hconsume
  obtain ⟨husable, moved, hmove, ht⟩ : isUsableReceipt receipt binding now = true ∧ ∃ moved, _ ∧ _ := by
    split_ifs at hconsume with husable
    obtain ⟨moved, hmove, ht⟩ := Option.bind_eq_some_iff.mp hconsume
    exact ⟨husable, moved, hmove, ht⟩
  obtain rfl := Option.some.inj ht
  obtain ⟨challengeId, approvedBy, approved, expiresAt, hbudget, hrunning, hsame⟩ :=
    of_isUsableReceipt husable
  have hne : receiptId ≠ .execution binding.executionFingerprint := by
    rintro rfl
    obtain rfl := (by simpa using hreceipt : _ = receipt)
    simp at hbudget
  have hthere : s.runs receiptId = some receipt := by simpa [hne] using hreceipt
  obtain ⟨n, rfl⟩ := h.eq_receipt hthere hbudget
  have hext : Extends s moved :=
    (extends_insert hnew).trans (extends_move (by simp [aiRunSucceeded]) hmove)
  have hruns : ∀ {id}, id ≠ .receipt n → id ≠ .execution binding.executionFingerprint →
      moved.runs id = s.runs id := by
    intro id hreceipt hexecution
    rw [runs_of_move hreceipt hmove]
    simp [hexecution]
  have hconsumptions : moved.consumptions = s.consumptions :=
    (frame_move (by simp [aiRunSucceeded]) hmove).consumptions
  have hexecuted : moved.runs (.execution binding.executionFingerprint) =
      some ⟨ctx.tenantId, ctx.actorUserId, .running, .execution binding, none⟩ := by
    rw [runs_of_move (by simp) hmove]
    simp
  have hmoved : Inv moved := by
    refine h.extend hext (h.ledger.congr (fun _ => hruns (by simp) (by simp))
      (fun _ => hruns (by simp) (by simp)) hext.drawn) (fun m receipt' hrun => .inl ?_)
      (fun fingerprint run hrun => ?_) hconsumptions fun w job hjob => .inl ?_
    · by_cases hm : m = n
      · simp [hm, hthere]
      · rw [hruns (by simp [hm]) (by simp)] at hrun
        simp [hrun]
    · by_cases hsame' : fingerprint = binding.executionFingerprint
      · subst hsame'
        obtain rfl := Option.some.inj (hexecuted.symm.trans hrun)
        exact .inr ⟨binding, rfl⟩
      · rw [hruns (by simp) (by simp [hsame'])] at hrun
        exact .inl (by simp [hrun])
    · exact (frame_move (by simp [aiRunSucceeded]) hmove).jobs ▸ hjob
  obtain ⟨run, hrun, -, -, hmovedEq⟩ := move_eq_some_iff.mp hmove
  have hconsumed : ∃ receipt', moved.runs (.receipt n) = some receipt' ∧
      receipt'.status = .succeeded := by
    rw [← hmovedEq]
    exact ⟨_, by simp; rfl, rfl⟩
  have happroved : IsApproved moved (.receipt n) (.execution binding.executionFingerprint) := by
    obtain ⟨receipt', hreceipt', hkeeps⟩ := hext.keeps _ _ hthere
    obtain ⟨-, fingerprint, approvedBy', approved', expiresAt', challenge, challengeExpiresAt, _, _,
      _, hfits, hchallenge, hof, hsucceeded, -⟩ := hmoved.receipts n receipt' hreceipt'
    obtain ⟨-, -, rfl, -⟩ := Budget.receipt.inj ((hkeeps.budget.trans hbudget).symm.trans hfits)
    exact ⟨receipt', fingerprint, approvedBy', approved, expiresAt', challenge, challengeExpiresAt,
      _, binding, hreceipt', hfits, hchallenge, hsucceeded, hof, hexecuted, rfl, hsame⟩
  -- The receipt was running, so nothing had consumed it.
  have hunconsumed : ∀ executionId, (RunId.receipt n, executionId) ∉ moved.consumptions := by
    intro executionId hmem
    obtain ⟨-, receipt', hreceipt', hsucceeded⟩ := h.consumed _ _ (hconsumptions ▸ hmem)
    obtain rfl := Option.some.inj (hthere.symm.trans hreceipt')
    simp [hrunning] at hsucceeded
  have hlog : Extends moved { moved with consumptions := (.receipt n,
      .execution binding.executionFingerprint) :: moved.consumptions } :=
    extends_of_runs rfl (Nat.le_refl _)
  refine ⟨hmoved.ledger.congr (fun _ => rfl) (fun _ => rfl) (Nat.le_refl _),
    fun m receipt' hrun => ?_, hmoved.executions, fun r x hmem => ?_, fun r x x' hx hx' => ?_,
    fun w job hjob => (hmoved.jobs w job hjob).extend hlog⟩
  · obtain ⟨hlt, hfits⟩ := hmoved.receipts m receipt' hrun
    exact ⟨hlt, hfits.extend rfl hlog⟩
  · rcases List.mem_cons.mp hmem with heq | hold
    · obtain ⟨rfl, rfl⟩ := Prod.mk.inj heq
      exact ⟨happroved.extend hlog, hconsumed⟩
    · obtain ⟨hof, hreceipt'⟩ := hmoved.consumed r x hold
      exact ⟨hof.extend hlog, hreceipt'⟩
  · rcases List.mem_cons.mp hx with heq | hold <;> rcases List.mem_cons.mp hx' with heq' | hold'
    · rw [(Prod.mk.inj heq).2, (Prod.mk.inj heq').2]
    · exact absurd ((Prod.mk.inj heq).1 ▸ hold') (hunconsumed x')
    · exact absurd ((Prod.mk.inj heq').1 ▸ hold) (hunconsumed x)
    · exact hmoved.once r x x' hold hold'

end

variable {W : Type} [DecidableEq W] {permits : RequestContext → String → Bool} {s t : State W}
  {e : Event W}

/-- **A step that meets the condition keeps the invariant.** -/
theorem inv_of_next (h : Inv s) (hpermitted : Permitted s e) (hnext : next permits s e = some t) :
    Inv t := by
  cases e with
  | challenge w ctx call now =>
    simp only [next] at hnext
    obtain ⟨-, hnext⟩ := Option.ite_none_left_eq_some.mp hnext
    split at hnext
    next hnone =>
      have hnew : Inv (s.insert (.challenge (requestBinding ctx call).executionFingerprint)
          ⟨ctx.tenantId, (requestBinding ctx call).actorUserId, .started,
            .challenge (requestBinding ctx call) (expiresAt now), none⟩) :=
        h.newChallenge hnone rfl rfl rfl
      split_ifs at hnext with hissues
      · refine hnew.issue (fun n token htoken => ?_) hnext
        exact absurd (tokenOf_insertChallenge.mp htoken) (h.ledger.tokenless hnone n token)
      · obtain rfl := Option.some.inj hnext
        exact hnew
    next challenge hchallenge =>
      split_ifs at hnext with hreplay <;> obtain rfl := Option.some.inj hnext
      · refine h.setJob ?_
        rintro _ ⟨⟩
        exact h.readFrom hchallenge
      · exact h
  | rotate w =>
    simp only [next] at hnext
    split at hnext
    next ctx binding challenge now hjob =>
      simp only [Option.bind_eq_bind, Option.bind_eq_some_iff, Option.pure_def,
        Option.some.injEq] at hnext
      obtain ⟨revoked, hrevoke, issued, hissue, rfl⟩ := hnext
      exact (h.rotate (h.jobs w _ hjob) (hpermitted ctx binding challenge now hjob) hrevoke
        hissue).setJob (by simp)
    next => exact absurd hnext (by simp)
  | readWidget w ctx applicationId challengeId secret origin now =>
    obtain ⟨-, hnext⟩ := Option.ite_none_left_eq_some.mp hnext
    obtain ⟨challenge, hfind, rfl⟩ := Option.map_eq_some_iff.mp hnext
    refine h.setJob ?_
    rintro _ ⟨⟩
    exact h.readFrom (find_eq_some_iff.mp hfind).1
  | approveWidget w =>
    simp only [next] at hnext
    split at hnext
    next ctx applicationId challengeId secret origin challenge now hjob =>
      simp only [Option.bind_eq_bind, Option.bind_eq_some_iff] at hnext
      obtain ⟨binding, hbinding, hnext⟩ := hnext
      split_ifs at hnext with hallowed hrecovery hother
      simp only [Option.bind_eq_some_iff, find_eq_some_iff] at hnext
      obtain ⟨token, ⟨htoken, -⟩, hnext⟩ := hnext
      split_ifs at hnext with husable
      simp only [Option.bind_eq_some_iff, Option.pure_def, Option.some.injEq] at hnext
      obtain ⟨consumed, hconsume, approved, happrove, rfl⟩ := hnext
      exact (h.approveWidget (h.jobs w _ hjob) hbinding htoken husable hconsume happrove).setJob
        (by simp)
    next => exact absurd hnext (by simp)
  | read w ctx applicationId challengeId now =>
    obtain ⟨-, hnext⟩ := Option.ite_none_left_eq_some.mp hnext
    obtain ⟨challenge, hfind, rfl⟩ := Option.map_eq_some_iff.mp hnext
    obtain ⟨hrun, htenant⟩ := find_eq_some_iff.mp hfind
    refine h.setJob ?_
    rintro _ ⟨⟩
    exact ⟨h.readFrom hrun, htenant⟩
  | approve w =>
    simp only [next] at hnext
    split at hnext
    next ctx applicationId challengeId challenge now hjob =>
      simp only [Option.bind_eq_bind, Option.bind_eq_some_iff] at hnext
      obtain ⟨binding, hbinding, hnext⟩ := hnext
      split_ifs at hnext with hallowed happroved
      obtain ⟨revoked, hrevoke, hnext⟩ := Option.bind_eq_some_iff.mp hnext
      obtain ⟨hread, htenant⟩ := h.jobs w _ hjob
      obtain ⟨challengeExpiresAt, hbudget⟩ := budget_of_challengeBinding hbinding
      obtain rfl : challengeId = .challenge binding.executionFingerprint := by
        obtain ⟨run, hrun, hsame, -⟩ := hread
        exact h.eq_challenge hrun (hsame.trans hbudget)
      split at hnext
      next approved happrove =>
        obtain rfl := Option.some.inj hnext
        obtain ⟨-, -, -, -, hnames⟩ := id hread
        have hbut := (ledgerBut_revoke h.ledger (hnames _ rfl) hrevoke).1
        exact (h.approve hread hbudget (frame_revoke hrevoke) hbut (drawn_of_revoke hrevoke)
          (runs_of_revoke (hnames _ rfl) hrevoke) (by simp) happrove).setJob (by simp)
      next hnone =>
        obtain ⟨-, ⟨⟩⟩ := Option.ite_none_right_eq_some.mp hnext
        exact (h.revokeOnly hread htenant hrevoke hnone).setJob (by simp)
    next => exact absurd hnext (by simp)
  | seed ctx call receiptId now =>
    simp only [next] at hnext
    obtain ⟨hnew, hconsume⟩ := Option.ite_none_left_eq_some.mp hnext
    exact h.seed (not_not.mp (not_or.mp hnew).2) hconsume
  | complete ctx fingerprint => exact h.moveExecution (by simp [aiRunSucceeded]) hnext
  | fail ctx fingerprint => exact h.moveExecution (by simp [aiRunFailed]) hnext
  | drop w =>
    obtain rfl := Option.some.inj hnext
    exact h.setJob (by simp)

omit [DecidableEq W] in
/-- A token that is issued is active, beside those that are there. -/
theorem tokenOf_issue {fingerprint binding : RequestBinding} {ctx : RequestContext} {now : ℕ}
    (hissue : issueAndBindToken s ctx binding (.challenge fingerprint) now = some t) :
    ∃ token, TokenOf t fingerprint s.drawn token ∧ token.status = .running ∧
      ∀ m token', m ≠ s.drawn → TokenOf s fingerprint m token' → TokenOf t fingerprint m token' := by
  obtain ⟨run, hrun, -, -, rfl⟩ := move_eq_some_iff.mp hissue
  set token : ExecutionRun := ⟨ctx.tenantId, ctx.actorUserId, .running, .widgetToken
    (widgetApprovalBinding ctx binding (.challenge fingerprint) (some binding.origin))
    (expiresAt now), none⟩
  have hinserted : ∀ {m token'}, TokenOf (s.draw.insert (.widgetToken s.drawn) token) fingerprint m
      token' ↔ _ := tokenOf_insert rfl rfl
  refine ⟨token, tokenOf_insertChallenge.mpr (hinserted.mpr (.inl ⟨rfl, rfl, rfl⟩)), rfl, ?_⟩
  intro m token' hm htoken
  exact tokenOf_insertChallenge.mpr (hinserted.mpr (.inr ⟨hm, htoken⟩))

/-- **A step confirms once exactly when it meets the condition.** -/
theorem confirmedOnce_iff (h : Inv s) (hnext : next permits s e = some t) :
    ConfirmedOnce t ↔ Permitted s e := by
  refine ⟨fun hconfirmed => ?_, fun hpermitted => (inv_of_next h hpermitted hnext).confirmedOnce⟩
  cases e with
  | rotate w =>
    intro ctx binding challenge now hjob hnone run hrun hstarted
    by_contra hnamed
    simp only [next, hjob, Option.bind_eq_bind, Option.bind_eq_some_iff, Option.pure_def,
      Option.some.injEq] at hnext
    obtain ⟨revoked, hrevoke, issued, hissue, rfl⟩ := hnext
    obtain rfl : s = revoked := by simpa [revokeActive, hnone] using hrevoke
    -- The token that the challenge names stays active beside the new one.
    rcases (h.ledger.waiting hrun (by simp [hstarted])).2 with
      ⟨husage, -⟩ | ⟨n, token, -, htoken, hactive, -⟩
    · simp [ExecutionRun.widgetTokenId, husage] at hnamed
    · have hlt := (h.ledger.tokens n token htoken.1).1
      obtain ⟨issuedToken, hissued, hrunning, hkept⟩ := tokenOf_issue hissue
      have hsame := hconfirmed.tokens binding.executionFingerprint n s.drawn token issuedToken
        (hkept n token (Nat.ne_of_lt hlt) htoken) hissued hactive hrunning
      exact Nat.lt_irrefl _ (hsame ▸ hlt)
  | _ => trivial

/-! ### Runs -/

/-- **In every run whose steps meet the condition a confirmation authorises one execution of what was
approved**, and a step behind it goes on like this exactly when it meets the condition too. -/
theorem confirmedOnce_of_run {history : List (Event W)}
    (h : Run (next permits) Permitted (State.initial : State W) history s) :
    ConfirmedOnce s ∧ ∀ e t, next permits s e = some t → (ConfirmedOnce t ↔ Permitted s e) := by
  have hinv : Inv s := h.invariant inv_initial fun _ _ _ hpermitted hnext hinv =>
    inv_of_next hinv hpermitted hnext
  exact ⟨hinv.confirmedOnce, fun e t => confirmedOnce_iff hinv⟩

/-- Whether an event replaces a token that was named. -/
def isNamed (s : State Unit) : Event Unit → Bool
  | .rotate w =>
    match s.jobs w with
    | some (.replay _ _ challenge _) => challenge.widgetTokenId.isSome
    | _ => true
  | _ => true

theorem permitted_of_isNamed {s : State Unit} {e : Event Unit} (h : isNamed s e = true) :
    Permitted s e := by
  cases e with
  | rotate w =>
    intro ctx binding challenge now hjob hnone
    simp [isNamed, hjob, hnone] at h
  | _ => trivial

def human : RequestContext :=
  ⟨"t1", "alice", some "app", some "client", some "session", ["builder"], ["builder:write"]⟩

def createDataset (sessionId : String) : ToolCall :=
  ⟨"app", sessionId, "create_dataset", "build", "workspace", "hash", "dataset:write", none⟩

def createDatasetFingerprint : RequestBinding :=
  (requestBinding human (createDataset "")).executionFingerprint

/-- A token is replaced, approves its challenge, and the receipt is used from another session. -/
def rotatedHistory : List (Event Unit) :=
  [.seed human (createDataset "second") (.receipt 2) 20, .approveWidget (),
    .readWidget () human "app" (.challenge createDatasetFingerprint) 1 none 10, .rotate (),
    .challenge () human (createDataset "first") 5, .challenge () human (createDataset "first") 0]

theorem confirmedOnce_rotated :
    ∃ s, Run (next fun _ _ => true) Permitted State.initial rotatedHistory s ∧
      s.consumptions.length = 1 ∧ ConfirmedOnce s ∧
      ∀ e t, next (fun _ _ => true) s e = some t → (ConfirmedOnce t ↔ Permitted s e) := by
  obtain ⟨s, hreplay, hlength⟩ := exists_replay_of_any (show (replay
    (guarded (next fun _ _ => true) isNamed) State.initial rotatedHistory).any
      (fun s => decide (s.consumptions.length = 1)) = true by decide +kernel)
  have hrun := run_of_replay_guarded (fun _ _ => permitted_of_isNamed) hreplay
  exact ⟨s, hrun, of_decide_eq_true hlength, confirmedOnce_of_run hrun⟩

/-- Two calls that find a challenge without a token each issue one. -/
theorem not_confirmedOnce : ¬ ∀ (permits : RequestContext → String → Bool)
    (history : List (Event Bool)) (s : State Bool),
    Run (next permits) Always State.initial history s → ConfirmedOnce s := by
  intro h
  obtain ⟨s, hreplay, hbad⟩ := exists_replay_of_any (show (replay (next fun _ _ => true)
    (State.initial : State Bool) [.rotate true, .rotate false,
      .challenge true human (createDataset "first") 2,
      .challenge false human (createDataset "first") 1,
      .challenge false { human with roles := ["osdk_service_principal"] } (createDataset "first")
        0]).any (fun s => [0, 1].all fun n => (s.runs (.widgetToken n)).any fun token =>
          isUsableToken token (widgetApprovalBinding human (requestBinding human
            (createDataset "first")) (.challenge createDatasetFingerprint)
            (requestBinding human (createDataset "first")).origin) 0) = true by decide +kernel)
  have htoken : ∀ n ∈ [0, 1], ∃ token, TokenOf s createDatasetFingerprint n token ∧
      token.status = .running := by
    intro n hn
    obtain ⟨token, hrun, husable⟩ := (Option.any_eq_true _ _).mp (List.all_eq_true.mp hbad n hn)
    obtain ⟨expiresAt, hbudget⟩ := of_isUsableToken husable
    simp only [isUsableToken, hbudget, decide_eq_true_eq] at husable
    exact ⟨token, ⟨hrun, _, expiresAt, hbudget, rfl⟩, husable.2.2.1⟩
  obtain ⟨token, htokenOf, hrunning⟩ := htoken 0 (by simp)
  obtain ⟨token', htokenOf', hrunning'⟩ := htoken 1 (by simp)
  exact absurd ((h _ _ s (run_always_iff.mpr hreplay)).tokens _ _ _ _ _ htokenOf htokenOf' hrunning
    hrunning') (by decide)

end FoundryLite.Aip.Confirmation
