import FoundryLite.Library.Moves
import FoundryLite.OAuth.Sessions

/-!
# Refresh families

A code is exchanged once and a refresh token is rotated once, since both are conditional updates of
the row, and each rotation replaces the one active token of its session. What an access token may do
comes from the session's row, which keeps its roles and scopes.

The status of the session is not a condition of anything that a refresh writes. A refresh that has
read its session is stopped only by its token: the reuse of a rotated token revokes every token of
the session, but a revocation revokes the token it was given, and the deactivation of a client none
(`not_stopsIssuing`). As long as no such refresh keeps an active token (`StopsRefreshes`), a session
that has ended issues nothing more.

## Main results

* `Invariant.next`: what every step keeps.
* `families_safe_of_run`: in every run, the families are safe, and a session that has ended issues
  nothing more if every revocation stops the refreshes in flight.
* `not_stopsIssuing`: a refresh that commits after its client was deactivated.
-/

namespace FoundryLite.OAuth

open Runs Transaction

/-! ### What a step does to the rows -/

/-- A code stays consumed. -/
def CodeMove (row row' : AuthorizationCode) : Prop :=
  row'.id = row.id ∧ (row.consumedAt.isSome → row'.consumedAt.isSome)

/-- A session keeps what it grants, and does not become active. -/
structure SessionMove (row row' : Session) : Prop where
  id : row'.id = row.id
  appId : row'.appId = row.appId
  clientId : row'.clientId = row.clientId
  roles : row'.roles = row.roles
  scopes : row'.scopes = row.scopes
  status : row'.status = .active → row.status = .active

/-- A refresh token keeps its session, and does not become active. -/
structure TokenMove (row row' : RefreshToken) : Prop where
  id : row'.id = row.id
  sessionId : row'.sessionId = row.sessionId
  status : row'.status = .active → row.status = .active

theorem CodeMove.refl (row : AuthorizationCode) : CodeMove row row := ⟨rfl, id⟩

theorem SessionMove.refl (row : Session) : SessionMove row row :=
  ⟨rfl, rfl, rfl, rfl, rfl, fun h => h⟩

theorem TokenMove.refl (row : RefreshToken) : TokenMove row row := ⟨rfl, rfl, fun h => h⟩

theorem TokenMove.trans (a b c : RefreshToken) (h : TokenMove a b) (h' : TokenMove b c) :
    TokenMove a c :=
  ⟨h'.id.trans h.id, h'.sessionId.trans h.sessionId, h.status ∘ h'.status⟩

section Updates

variable {at_ replacement : String} {token : RefreshToken} {session : Session}

theorem status_rotateUpdate : ((rotateUpdate replacement at_).apply token).status ≠ .active := by
  cases h : token.status <;> simp [rotateUpdate, Runtime.casStatusUpdate, refreshRotated, h]

theorem status_revokeTokenUpdate : ((revokeTokenUpdate at_).apply token).status ≠ .active := by
  cases h : token.status <;> simp [revokeTokenUpdate, Runtime.casStatusUpdate, refreshRevoked, h]

theorem tokenMove_rotateUpdate : TokenMove token ((rotateUpdate replacement at_).apply token) := by
  refine ⟨(rotateUpdate replacement at_).pk_apply token, ?_, fun h => absurd h status_rotateUpdate⟩
  cases h : token.status <;> simp [rotateUpdate, Runtime.casStatusUpdate, refreshRotated, h]

theorem tokenMove_revokeTokenUpdate : TokenMove token ((revokeTokenUpdate at_).apply token) := by
  refine ⟨(revokeTokenUpdate at_).pk_apply token, ?_, fun h => absurd h status_revokeTokenUpdate⟩
  cases h : token.status <;> simp [revokeTokenUpdate, Runtime.casStatusUpdate, refreshRevoked, h]

theorem codeMove_consumeUpdate {code : AuthorizationCode} :
    CodeMove code ((consumeUpdate at_).apply code) := ⟨rfl, fun _ => rfl⟩

theorem sessionMove_revokeSessionUpdate :
    SessionMove session ((revokeSessionUpdate at_).apply session) := by
  cases h : session.status <;>
    constructor <;> simp [revokeSessionUpdate, Runtime.casStatusUpdate, sessionRevoked, h]

theorem sessionMove_compromiseUpdate :
    SessionMove session ((compromiseUpdate at_).apply session) := by
  cases h : session.status <;>
    constructor <;> simp [compromiseUpdate, Runtime.casStatusUpdate, sessionCompromised, h]

theorem status_revokeSessionUpdate :
    ((revokeSessionUpdate at_).apply session).status ≠ .active := by
  cases h : session.status <;>
    simp [revokeSessionUpdate, Runtime.casStatusUpdate, sessionRevoked, h]

theorem status_compromiseUpdate : ((compromiseUpdate at_).apply session).status ≠ .active := by
  cases h : session.status <;>
    simp [compromiseUpdate, Runtime.casStatusUpdate, sessionCompromised, h]

theorem sessionMove_refreshedUpdate :
    SessionMove session ((refreshedUpdate at_).apply session) :=
  ⟨rfl, rfl, rfl, rfl, rfl, fun h => h⟩

end Updates

/-- What a step may do to the rows, apart from adding this session and this token. -/
structure DatabaseStep (newSession : Option Session) (newToken : Option RefreshToken)
    (db db' : Database) : Prop where
  codes : ∃ newCode, Table.Moves CodeMove newCode db.codes db'.codes
  sessions : Table.Moves SessionMove newSession db.sessions db'.sessions
  tokens : Table.Moves TokenMove newToken db.tokens db'.tokens

variable {env : Environment} {db db' : Database} {newSession : Option Session}
  {newToken : Option RefreshToken}

theorem DatabaseStep.refl (db : Database) : DatabaseStep none none db db :=
  ⟨⟨none, .refl CodeMove.refl⟩, .refl SessionMove.refl, .refl TokenMove.refl⟩

/-! ### The writes -/

theorem databaseStep_revoke {tokenId sessionId revokedAt : String} :
    DatabaseStep none none db (revoke tokenId sessionId revokedAt db) :=
  ⟨⟨none, .refl CodeMove.refl⟩,
    .updateRow SessionMove.refl fun _ => sessionMove_revokeSessionUpdate,
    .updateRow TokenMove.refl fun _ => tokenMove_revokeTokenUpdate⟩

theorem databaseStep_compromise {sessionId compromisedAt : String} :
    DatabaseStep none none db (compromiseRefreshTokenFamily sessionId compromisedAt db) :=
  ⟨⟨none, .refl CodeMove.refl⟩,
    .updateRow SessionMove.refl fun _ => sessionMove_compromiseUpdate,
    .modify TokenMove.refl fun _ => tokenMove_revokeTokenUpdate⟩

theorem databaseStep_revokeClient {appId clientId revokedAt : String} :
    DatabaseStep none none db (revokeActiveSessionsForClient appId clientId revokedAt db) :=
  ⟨⟨none, .refl CodeMove.refl⟩,
    .modify SessionMove.refl fun _ => sessionMove_revokeSessionUpdate, .refl TokenMove.refl⟩

theorem databaseStep_authorize (env : Environment) (db : Database) (client : Option Client)
    (resourceScopes : List String) (request : AuthorizeRequest) :
    DatabaseStep none none db
        ((OAuth.authorize env client resourceScopes request).attempt db).2 ∧
      ((OAuth.authorize env client resourceScopes request).attempt db).2.sessions = db.sessions ∧
      ((OAuth.authorize env client resourceScopes request).attempt db).2.tokens = db.tokens := by
  cases hrun : OAuth.authorize env client resourceScopes request db with
  | error err =>
    rw [attempt_of_error hrun]
    exact ⟨.refl db, rfl, rfl⟩
  | ok result =>
    obtain ⟨u, db'⟩ := result
    rw [attempt_of_ok hrun]
    simp only [OAuth.authorize, requireActiveClient, requireResource, authorizedScopes,
      bind_eq_ok_iff, get_eq_ok_iff, require_eq_ok_iff,
      requireSome_eq_ok_iff, modify_eq_ok_iff, pure_eq_ok_iff,
      Prod.mk.injEq] at hrun
    obtain ⟨_, _, ⟨_, _, ⟨_, -, rfl, rfl⟩, _, _, ⟨-, -, rfl⟩, _, _, ⟨-, -, rfl⟩, rfl, rfl⟩, _, _,
      ⟨-, -, rfl⟩, _, _, ⟨_, _, ⟨-, -, rfl⟩, rfl, rfl⟩, _, _, ⟨rfl, rfl⟩, codes, _,
      ⟨_, hinsert, rfl, rfl⟩, -, rfl⟩ := hrun
    exact ⟨⟨⟨_, .insert? CodeMove.refl hinsert⟩, .refl SessionMove.refl, .refl TokenMove.refl⟩,
      rfl, rfl⟩

/-! ### What the rows say -/

/-- The code was consumed, or the refresh token is not active any more. -/
def Spent (db : Database) : Source → Prop
  | .code id => ∃ row ∈ db.codes.rows, row.id = id ∧ row.consumedAt.isSome
  | .token id => ∃ row ∈ db.tokens.rows, row.id = id ∧ row.status ≠ .active

def TokenActive (db : Database) (id : String) : Prop :=
  ∃ row ∈ db.tokens.rows, row.id = id ∧ row.status = .active

def SessionActive (db : Database) (id : String) : Prop :=
  ∃ row ∈ db.sessions.rows, row.id = id ∧ row.status = .active

/-- A token that was read is stored, whatever became of its status. -/
def KnownToken (db : Database) (token : RefreshToken) : Prop :=
  ∃ row ∈ db.tokens.rows, row.id = token.id ∧ row.sessionId = token.sessionId

/-- A session that was read is stored, whatever became of its status. -/
def KnownSession (db : Database) (session : Session) : Prop :=
  ∃ row ∈ db.sessions.rows, row.id = session.id ∧ row.appId = session.appId ∧
    row.clientId = session.clientId ∧ row.roles = session.roles ∧ row.scopes = session.scopes

/-- An access token grants no more than the session it is for. -/
def Bounded (db : Database) (issue : Issue) : Prop :=
  ∃ row ∈ db.sessions.rows, row.id = issue.sessionId ∧ issue.roles ⊆ row.roles ∧
    issue.scopes = row.scopes

/-- What a call has read is still there. -/
def CallOk (db : Database) : Call → Prop
  | .usingToken _ token => KnownToken db token
  | .usingSession _ token session =>
    KnownToken db token ∧ session.id = token.sessionId ∧ KnownSession db session
  | .compromising sessionId => ∃ row ∈ db.sessions.rows, row.id = sessionId
  | .exchanging _ => True

section Steps

variable {token : RefreshToken} {session : Session}

theorem Spent.step {source : Source} (h : Spent db source)
    (hstep : DatabaseStep newSession newToken db db') : Spent db' source := by
  cases source with
  | code id =>
    obtain ⟨row, hrow, hid, hconsumed⟩ := h
    obtain ⟨newCode, hcodes⟩ := hstep.codes
    obtain ⟨row', hrow', hid', hconsumed'⟩ := hcodes.kept row hrow
    exact ⟨row', hrow', hid'.trans hid, hconsumed' hconsumed⟩
  | token id =>
    obtain ⟨row, hrow, hid, hstatus⟩ := h
    obtain ⟨row', hrow', hmove⟩ := hstep.tokens.kept row hrow
    exact ⟨row', hrow', hmove.id.trans hid, hstatus ∘ hmove.status⟩

theorem KnownToken.step (h : KnownToken db token)
    (hstep : DatabaseStep newSession newToken db db') : KnownToken db' token := by
  obtain ⟨row, hrow, hid, hsession⟩ := h
  obtain ⟨row', hrow', hmove⟩ := hstep.tokens.kept row hrow
  exact ⟨row', hrow', hmove.id.trans hid, hmove.sessionId.trans hsession⟩

theorem KnownSession.step (h : KnownSession db session)
    (hstep : DatabaseStep newSession newToken db db') : KnownSession db' session := by
  obtain ⟨row, hrow, hid, happ, hclient, hroles, hscopes⟩ := h
  obtain ⟨row', hrow', hmove⟩ := hstep.sessions.kept row hrow
  exact ⟨row', hrow', hmove.id.trans hid, hmove.appId.trans happ, hmove.clientId.trans hclient,
    hmove.roles.trans hroles, hmove.scopes.trans hscopes⟩

theorem Bounded.step {issue : Issue} (h : Bounded db issue)
    (hstep : DatabaseStep newSession newToken db db') : Bounded db' issue := by
  obtain ⟨row, hrow, hid, hroles, hscopes⟩ := h
  obtain ⟨row', hrow', hmove⟩ := hstep.sessions.kept row hrow
  exact ⟨row', hrow', hmove.id.trans hid, hmove.roles ▸ hroles, hscopes.trans hmove.scopes.symm⟩

theorem CallOk.step {call : Call} (h : CallOk db call)
    (hstep : DatabaseStep newSession newToken db db') : CallOk db' call := by
  cases call with
  | exchanging code => trivial
  | usingToken purpose token => exact KnownToken.step h hstep
  | usingSession purpose token session => exact ⟨h.1.step hstep, h.2.1, h.2.2.step hstep⟩
  | compromising sessionId =>
    obtain ⟨row, hrow, hid⟩ := h
    obtain ⟨row', hrow', hmove⟩ := hstep.sessions.kept row hrow
    exact ⟨row', hrow', hmove.id.trans hid⟩

/-- A token that was read does not become active. -/
theorem tokenActive_of_step (hknown : KnownToken db token) (h : TokenActive db' token.id)
    (hstep : DatabaseStep newSession newToken db db') : TokenActive db token.id := by
  obtain ⟨row', hrow', hid', hactive⟩ := h
  rcases hstep.tokens.origin row' hrow' with ⟨row, hrow, hmove⟩ | ⟨new, hnew, hmove⟩
  · exact ⟨row, hrow, hmove.id.symm.trans hid', hmove.status hactive⟩
  · obtain ⟨row, hrow, hid, -⟩ := hknown
    exact absurd (hid.trans (hid'.symm.trans hmove.id)) (hstep.tokens.fresh new hnew row hrow)

/-- The session is stored and not active. -/
def Ended (db : Database) (id : String) : Prop :=
  ∃ row ∈ db.sessions.rows, row.id = id ∧ row.status ≠ .active

/-- A session that has ended does not become active. -/
theorem Ended.step {id : String} (h : Ended db id)
    (hstep : DatabaseStep newSession newToken db db') : Ended db' id := by
  obtain ⟨row, hrow, hid, hended⟩ := h
  obtain ⟨row', hrow', hmove⟩ := hstep.sessions.kept row hrow
  exact ⟨row', hrow', hmove.id.trans hid, hended ∘ hmove.status⟩

theorem not_sessionActive_of_ended {id : String} (h : Ended db id) : ¬ SessionActive db id := by
  rintro ⟨row', hrow', hid', hactive⟩
  obtain ⟨row, hrow, hid, hended⟩ := h
  obtain rfl := db.sessions.eq_of_pk_eq hrow' hrow (hid'.trans hid.symm)
  exact hended hactive

end Steps

/-! ### The writes that issue -/

theorem createSession_eq_ok_iff {row : Session} {u : Unit} :
    createSession row db = .ok (u, db') ↔
      ∃ sessions, db.sessions.insert? row = some sessions ∧ { db with sessions } = db' := by
  simp [createSession, bind_eq_ok_iff, get_eq_ok_iff, requireSome_eq_ok_iff, modify_eq_ok_iff]

theorem createRefreshToken_eq_ok_iff {row : RefreshToken} {u : Unit} :
    createRefreshToken row db = .ok (u, db') ↔
      ∃ tokens, db.tokens.insert? row = some tokens ∧ { db with tokens } = db' := by
  simp [createRefreshToken, bind_eq_ok_iff, get_eq_ok_iff, requireSome_eq_ok_iff, modify_eq_ok_iff]

/-- **What an exchange had read and wrote.** -/
theorem exchange_eq_ok {client : Option Client} {code : AuthorizationCode}
    {request : ExchangeRequest} {issue : Issue}
    (h : exchange env client code request db = .ok (issue, db')) :
    ∃ session token, token.sessionId = session.id ∧
      DatabaseStep (some session) (some token) db db' ∧
      (∃ row ∈ db.codes.rows, row.id = code.id ∧ row.consumedAt = none) ∧
      Spent db' (.code code.id) ∧ (∀ id, SessionActive db id → SessionActive db' id) ∧
      issue = ⟨.code code.id, session.id, token.id, session.roles, session.scopes⟩ := by
  simp only [exchange, requireActiveClient, validateCodeExchange, requireResource,
    createSession_eq_ok_iff, createRefreshToken_eq_ok_iff, consumeCodeOnce, bind_eq_ok_iff,
    get_eq_ok_iff, require_eq_ok_iff, requireSome_eq_ok_iff, modify_eq_ok_iff, pure_eq_ok_iff,
    Prod.mk.injEq] at h
  obtain ⟨client, _, ⟨_, _, ⟨_, -, rfl, rfl⟩, _, _, ⟨-, -, rfl⟩, _, _, ⟨-, -, rfl⟩, rfl, rfl⟩, _, _,
    ⟨_, _, ⟨-, -, rfl⟩, -, -, rfl⟩, _, _, ⟨-, -, rfl⟩, _, _, ⟨sessions, hsession, rfl⟩, _, _,
    ⟨tokens, htoken, rfl⟩, _, _, ⟨_, _, ⟨rfl, rfl⟩, _, _, ⟨hunused, -, rfl⟩, -, rfl⟩, rfl, rfl⟩ := h
  obtain ⟨row, hrow, hmeant⟩ := List.any_eq_true.mp hunused
  have hmeant' := hmeant
  simp only [Bool.and_eq_true, decide_eq_true_eq, Option.isNone_iff_eq_none] at hmeant'
  refine ⟨_, _, rfl, ⟨⟨none, .modify CodeMove.refl fun _ => codeMove_consumeUpdate⟩,
    .insert? SessionMove.refl hsession, .insert? TokenMove.refl htoken⟩, ⟨row, hrow, hmeant'⟩,
    ⟨_, List.mem_map_of_mem hrow, ?_⟩, ?_, rfl⟩
  · rw [if_pos hmeant]
    exact ⟨hmeant'.1, rfl⟩
  · rintro id ⟨old, hold, hid⟩
    exact ⟨old, by simp [Table.rows_of_insert?_eq_some hsession, hold], hid⟩

/-- **What a refresh had read and wrote.** -/
theorem mint_eq_ok {token : RefreshToken} {session : Session} {request : RefreshRequest}
    {issue : Issue} (h : mint env token session request db = .ok (issue, db')) :
    ∃ new, new.sessionId = session.id ∧ DatabaseStep none (some new) db db' ∧
      (TokenActive db token.id ∨ new.id = token.id) ∧
      (∀ row ∈ db'.tokens.rows, row.id = token.id → row.status ≠ .active) ∧
      (∀ id, SessionActive db id → SessionActive db' id) ∧
      issue = ⟨.token token.id, session.id, new.id, claimedRoles session request,
        session.scopes⟩ := by
  simp only [mint, requireResource, createRefreshToken_eq_ok_iff, rotateRefreshOnce, bind_eq_ok_iff,
    get_eq_ok_iff, require_eq_ok_iff, modify_eq_ok_iff, pure_eq_ok_iff, Prod.mk.injEq] at h
  obtain ⟨_, _, ⟨-, -, rfl⟩, _, _, ⟨-, -, rfl⟩, _, _, ⟨tokens, htoken, rfl⟩, _, _,
    ⟨_, _, ⟨rfl, rfl⟩, _, _, ⟨hactive, -, rfl⟩, -, rfl⟩, rfl, rfl⟩ := h
  obtain ⟨row, hrow, hmeant⟩ := List.any_eq_true.mp hactive
  simp only [refreshRotated, List.mem_singleton, Bool.and_eq_true, decide_eq_true_eq] at hmeant
  refine ⟨_, rfl, ⟨⟨none, .refl CodeMove.refl⟩,
    .updateRow SessionMove.refl fun _ => sessionMove_refreshedUpdate,
    (Table.Moves.insert? TokenMove.refl htoken).trans TokenMove.trans
      (.updateRow TokenMove.refl fun _ => tokenMove_rotateUpdate)⟩, ?_, ?_, ?_, rfl⟩
  · rw [Table.rows_of_insert?_eq_some htoken, List.mem_append, List.mem_singleton] at hrow
    rcases hrow with hrow | rfl
    · exact .inl ⟨row, hrow, hmeant⟩
    · exact .inr hmeant.1
  · intro row' hrow' hid
    obtain ⟨old, -, rfl⟩ := List.mem_map.mp hrow'
    split_ifs at hid ⊢ with hit
    · exact status_rotateUpdate
    · exact absurd hid (by simpa using hit)
  · rintro id ⟨old, hold, hid, hstatus⟩
    refine ⟨_, List.mem_map_of_mem hold, ?_⟩
    split_ifs
    · exact ⟨hid, hstatus⟩
    · exact ⟨hid, hstatus⟩

/-! ### The invariant -/

/-- What holds in every run. -/
structure Invariant (s : State) : Prop where
  token_session : ∀ token ∈ s.db.tokens.rows, ∃ session ∈ s.db.sessions.rows,
    session.id = token.sessionId
  one_active : ∀ token ∈ s.db.tokens.rows, ∀ token' ∈ s.db.tokens.rows,
    token.sessionId = token'.sessionId → token.status = .active → token'.status = .active →
      token.id = token'.id
  spent : ∀ issue ∈ s.issued, Spent s.db issue.source
  sources : (s.issued.map Issue.source).Nodup
  bounded : ∀ issue ∈ s.issued, Bounded s.db issue
  calls : ∀ call value, s.calls call = some value → CallOk s.db value

theorem Invariant.initial : Invariant .initial := by
  constructor <;> simp [State.initial]

/-- Every call of `t` is one of `s`, or has just read its rows. -/
def CallsFrom (s t : State) : Prop :=
  ∀ call value, t.calls call = some value → s.calls call = some value ∨
    t.db = s.db ∧ CallOk s.db value ∧
      ∀ purpose token session, value = .usingSession purpose token session →
        SessionActive s.db session.id

variable {s t : State} {issue : Issue}

/-- A call that ends leaves the others. -/
theorem callsFrom_none {call : ℕ} (h : t.calls = s.calls) : CallsFrom s (t.setCall call none) := by
  intro call' value hvalue
  rw [State.calls_setCall, h] at hvalue
  split_ifs at hvalue
  exact .inl hvalue

theorem callsFrom_setCall {call : ℕ} {value? : Option Call}
    (h : ∀ value, value? = some value → CallOk s.db value ∧
      ∀ purpose token session, value = .usingSession purpose token session →
        SessionActive s.db session.id) : CallsFrom s (s.setCall call value?) := by
  intro call' value hvalue
  rw [State.calls_setCall] at hvalue
  split_ifs at hvalue
  · exact .inr ⟨rfl, h value hvalue⟩
  · exact .inl hvalue

theorem Invariant.calls_of_step (h : Invariant s) (hcalls : CallsFrom s t)
    (hstep : DatabaseStep newSession newToken s.db t.db) {call : ℕ} {value : Call}
    (hvalue : t.calls call = some value) : CallOk t.db value := by
  rcases hcalls call value hvalue with hold | ⟨hdb, hok, -⟩
  · exact (h.calls call value hold).step hstep
  · rwa [hdb]

/-- **A step that issues nothing keeps the invariant.** -/
theorem Invariant.quiet (h : Invariant s) (hissued : t.issued = s.issued)
    (hstep : DatabaseStep none none s.db t.db) (hcalls : CallsFrom s t) : Invariant t where
  token_session token htoken := by
    rcases hstep.tokens.origin token htoken with ⟨old, hold, hmove⟩ | ⟨_, hnone, -⟩
    · obtain ⟨session, hsession, hid⟩ := h.token_session old hold
      obtain ⟨session', hsession', hmove'⟩ := hstep.sessions.kept session hsession
      exact ⟨session', hsession', by rw [hmove'.id, hid, hmove.sessionId]⟩
    · exact absurd hnone (by simp)
  one_active token htoken token' htoken' heq hactive hactive' := by
    rcases hstep.tokens.origin token htoken with ⟨old, hold, hmove⟩ | ⟨_, hnone, -⟩
    · rcases hstep.tokens.origin token' htoken' with ⟨old', hold', hmove'⟩ | ⟨_, hnone, -⟩
      · rw [hmove.id, hmove'.id]
        exact h.one_active old hold old' hold' (by rw [← hmove.sessionId, heq, hmove'.sessionId])
          (hmove.status hactive) (hmove'.status hactive')
      · exact absurd hnone (by simp)
    · exact absurd hnone (by simp)
  spent issue hissue := (h.spent issue (hissued ▸ hissue)).step hstep
  sources := by
    rw [hissued]
    exact h.sources
  bounded issue hissue := (h.bounded issue (hissued ▸ hissue)).step hstep
  calls _ _ hvalue := h.calls_of_step hcalls hstep hvalue

/-- A token of a step is an old one, or the one that it added. -/
theorem DatabaseStep.token_cases {new token : RefreshToken} {db db' : Database}
    (hstep : DatabaseStep newSession (some new) db db') (htoken : token ∈ db'.tokens.rows) :
    (∃ old ∈ db.tokens.rows, TokenMove old token) ∨ TokenMove new token := by
  rcases hstep.tokens.origin token htoken with hold | ⟨_, hnew, hmove⟩
  · exact .inl hold
  · exact .inr (Option.some.inj hnew ▸ hmove)

/-- Tokens are one active token of each session still, if no old token of the session of the new one
is active. -/
theorem one_active_of_step {new : RefreshToken} (h : Invariant s)
    (hstep : DatabaseStep newSession (some new) s.db t.db)
    (hother : ∀ old ∈ s.db.tokens.rows, old.sessionId = new.sessionId →
      ∀ token ∈ t.db.tokens.rows, TokenMove old token → token.status ≠ .active) :
    ∀ token ∈ t.db.tokens.rows, ∀ token' ∈ t.db.tokens.rows, token.sessionId = token'.sessionId →
      token.status = .active → token'.status = .active → token.id = token'.id := by
  intro token htoken token' htoken' heq hactive hactive'
  rcases hstep.token_cases htoken with ⟨old, hold, hmove⟩ | hmove
  · rcases hstep.token_cases htoken' with ⟨old', hold', hmove'⟩ | hmove'
    · rw [hmove.id, hmove'.id]
      exact h.one_active old hold old' hold' (by rw [← hmove.sessionId, heq, hmove'.sessionId])
        (hmove.status hactive) (hmove'.status hactive')
    · have hsession : old.sessionId = new.sessionId := by
        rw [← hmove.sessionId, heq, hmove'.sessionId]
      exact absurd hactive (hother old hold hsession token htoken hmove)
  · rcases hstep.token_cases htoken' with ⟨old', hold', hmove'⟩ | hmove'
    · have hsession : old'.sessionId = new.sessionId := by
        rw [← hmove'.sessionId, ← heq, hmove.sessionId]
      exact absurd hactive' (hother old' hold' hsession token' htoken' hmove')
    · rw [hmove.id, hmove'.id]

/-- The parts of the invariant that a step that issues keeps alike, whatever it issues for. -/
theorem Invariant.issuing {new : RefreshToken} (h : Invariant s)
    (hissued : t.issued = issue :: s.issued)
    (hstep : DatabaseStep newSession (some new) s.db t.db) (hcalls : CallsFrom s t)
    (hsession : ∃ session ∈ t.db.sessions.rows, session.id = new.sessionId)
    (hother : ∀ old ∈ s.db.tokens.rows, old.sessionId = new.sessionId →
      ∀ token ∈ t.db.tokens.rows, TokenMove old token → token.status ≠ .active)
    (hunspent : ¬ Spent s.db issue.source) (hspent : Spent t.db issue.source)
    (hbounded : Bounded t.db issue) : Invariant t where
  token_session token htoken := by
    rcases hstep.token_cases htoken with ⟨old, hold, hmove⟩ | hmove
    · obtain ⟨session, hsession, hid⟩ := h.token_session old hold
      obtain ⟨session', hsession', hmove'⟩ := hstep.sessions.kept session hsession
      exact ⟨session', hsession', by rw [hmove'.id, hid, hmove.sessionId]⟩
    · rwa [hmove.sessionId]
  one_active := one_active_of_step h hstep hother
  spent issue' hissue' := by
    rcases List.mem_cons.mp (hissued ▸ hissue') with rfl | hold
    · exact hspent
    · exact (h.spent issue' hold).step hstep
  sources := by
    rw [hissued, List.map_cons, List.nodup_cons]
    refine ⟨fun hmem => ?_, h.sources⟩
    obtain ⟨issue', hissue', hsource⟩ := List.mem_map.mp hmem
    exact hunspent (hsource ▸ h.spent issue' hissue')
  bounded issue' hissue' := by
    rcases List.mem_cons.mp (hissued ▸ hissue') with rfl | hold
    · exact hbounded
    · exact (h.bounded issue' hold).step hstep
  calls _ _ hvalue := h.calls_of_step hcalls hstep hvalue

/-- **An exchange keeps the invariant**: the session is new, so no token is of it. -/
theorem Invariant.exchange {client : Option Client} {code : AuthorizationCode}
    {request : ExchangeRequest} (h : Invariant s)
    (hok : OAuth.exchange env client code request s.db = .ok (issue, t.db))
    (hissued : t.issued = issue :: s.issued) (hcalls : CallsFrom s t) : Invariant t := by
  obtain ⟨session, token, hsession, hstep, ⟨row, hrow, hid, hunused⟩, hspent, -, rfl⟩ :=
    exchange_eq_ok hok
  obtain ⟨added, hadded, hmove⟩ := hstep.sessions.added session rfl
  refine h.issuing hissued hstep hcalls ⟨added, hadded, by rw [hmove.id, hsession]⟩ ?_ ?_ hspent
    ⟨added, hadded, hmove.id, by rw [hmove.roles]; exact fun _ hrole => hrole, hmove.scopes.symm⟩
  · intro old hold heq
    obtain ⟨session', hsession', hid'⟩ := h.token_session old hold
    exact absurd (by rw [hid', heq, hsession]) (hstep.sessions.fresh session rfl session' hsession')
  · rintro ⟨row', hrow', hid', hconsumed⟩
    obtain rfl := s.db.codes.eq_of_pk_eq hrow' hrow (hid'.trans hid.symm)
    rw [hunused] at hconsumed
    exact absurd hconsumed (by simp)

theorem claimedRoles_subset {session : Session} {request : RefreshRequest} :
    claimedRoles session request ⊆ session.roles := by
  unfold claimedRoles reevaluatedRoles
  split_ifs
  · exact List.filter_subset_self _
  · exact fun _ hrole => hrole

/-- A refresh that succeeds finds its token active. -/
theorem tokenActive_of_mint {token : RefreshToken} {session : Session} {request : RefreshRequest}
    (hknown : KnownToken db token) (hok : mint env token session request db = .ok (issue, db')) :
    TokenActive db token.id := by
  obtain ⟨new, -, hstep, hactive, -⟩ := mint_eq_ok hok
  rcases hactive with hactive | hid
  · exact hactive
  · obtain ⟨row, hrow, hrow_id, -⟩ := hknown
    exact absurd (hrow_id.trans hid.symm) (hstep.tokens.fresh new rfl row hrow)

/-- **A refresh keeps the invariant**: its token was the active one of the session. -/
theorem Invariant.mint {token : RefreshToken} {session : Session} {request : RefreshRequest}
    (h : Invariant s) (hcall : CallOk s.db (.usingSession .refresh token session))
    (hok : OAuth.mint env token session request s.db = .ok (issue, t.db))
    (hissued : t.issued = issue :: s.issued) (hcalls : CallsFrom s t) : Invariant t := by
  obtain ⟨hknown, hid, rowS, hrowS, hidS, -, -, hroles, hscopes⟩ := hcall
  obtain ⟨row, hrow, hrow_id, hactive⟩ := tokenActive_of_mint hknown hok
  obtain ⟨new, hnew, hstep, -, hrotated, -, rfl⟩ := mint_eq_ok hok
  obtain ⟨row', hrow', hmove⟩ := hstep.sessions.kept rowS hrowS
  obtain ⟨known, hknown_mem, hknown_id, hknown_session⟩ := hknown
  obtain rfl := s.db.tokens.eq_of_pk_eq hknown_mem hrow (hknown_id.trans hrow_id.symm)
  refine h.issuing hissued hstep hcalls ⟨row', hrow', by rw [hmove.id, hidS, hnew]⟩ ?_ ?_ ?_ ?_
  · intro old hold heq token' htoken' hmove' hactive'
    have hsame : old.id = known.id := h.one_active old hold known hrow
      (by rw [heq, hnew, hid, hknown_session]) (hmove'.status hactive') hactive
    exact hrotated token' htoken' (by rw [hmove'.id, hsame, hrow_id]) hactive'
  · rintro ⟨spent, hspent, hspent_id, hstatus⟩
    obtain rfl := s.db.tokens.eq_of_pk_eq hspent hrow (hspent_id.trans hrow_id.symm)
    exact hstatus hactive
  · obtain ⟨rotated, hrotated_mem, hmove'⟩ := hstep.tokens.kept known hrow
    have hrotated_id : rotated.id = token.id := hmove'.id.trans hrow_id
    exact ⟨rotated, hrotated_mem, hrotated_id, hrotated rotated hrotated_mem hrotated_id⟩
  · refine ⟨row', hrow', hmove.id.trans hidS, ?_, (hmove.scopes.trans hscopes).symm⟩
    rw [hmove.roles, hroles]
    exact claimedRoles_subset

/-! ### Refreshes that are in flight -/

/-- The event ends no session that a refresh has read and still holds an active token for, but that
the event itself takes. -/
def StopsRefreshes (s : State) : Event → Prop
  | .revoke call _ =>
    ∀ token session, s.calls call = some (.usingSession .revoke token session) →
      ∀ call' token' session', s.calls call' = some (.usingSession .refresh token' session') →
        session'.id = session.id → TokenActive s.db token'.id → token'.id = token.id
  | .revokeClient appId clientId _ =>
    ∀ call token session, s.calls call = some (.usingSession .refresh token session) →
      session.appId = appId → session.clientId = clientId → ¬ TokenActive s.db token.id
  | _ => True

/-- A refresh whose token is active still has an active session still. -/
def Held (s : State) : Prop :=
  ∀ call token session, s.calls call = some (.usingSession .refresh token session) →
    TokenActive s.db token.id → SessionActive s.db session.id

/-- The refreshes whose token is left active are left their session. -/
def LeavesRefreshes (s t : State) : Prop :=
  ∀ call token session, s.calls call = some (.usingSession .refresh token session) →
    TokenActive t.db token.id → SessionActive s.db session.id → SessionActive t.db session.id

theorem LeavesRefreshes.of_eq (h : t.db.sessions = s.db.sessions) : LeavesRefreshes s t := by
  rintro _ _ session _ _ hactive
  rwa [SessionActive, h]

theorem Held.step (h : Held s) (hinv : Invariant s)
    (hstep : DatabaseStep newSession newToken s.db t.db) (hcalls : CallsFrom s t)
    (hleaves : LeavesRefreshes s t) : Held t := by
  intro call token session hcall hactive
  rcases hcalls call _ hcall with hold | ⟨hdb, -, hsession⟩
  · have hbefore := tokenActive_of_step (hinv.calls call _ hold).1 hactive hstep
    exact hleaves call token session hold hactive (h call token session hold hbefore)
  · rw [hdb]
    exact hsession _ _ _ rfl

section Ends

variable {at_ : String} {session : Session}

/-- A row that an update does not meet is as it was. -/
theorem sessionActive_modify {p : Session → Bool} {u : Table.Update Session.id Session.id}
    {sessions : Table Session.id Session.id} {row : Session} (hrow : row ∈ sessions.rows)
    (hp : p row = false) : row ∈ (sessions.modify p u).rows :=
  List.mem_map.mpr ⟨row, hrow, by simp [hp]⟩

/-- No token that an update of all tokens of a kind revokes is active. -/
theorem not_tokenActive_modify {p : RefreshToken → Bool} {codes : Table _ AuthorizationCode.codeHash}
    {sessions : Table _ Session.id} {tokens : Table _ RefreshToken.tokenHash} {token : RefreshToken}
    (htoken : token ∈ tokens.rows) (hp : p token) :
    ¬ TokenActive ⟨codes, sessions, tokens.modify p (revokeTokenUpdate at_)⟩ token.id := by
  rintro ⟨row', hrow', hid, hactive⟩
  obtain ⟨row, hrow, rfl⟩ := List.mem_map.mp hrow'
  have hid' : row.id = token.id := by
    rw [← hid]
    split_ifs
    · exact ((revokeTokenUpdate at_).pk_apply row).symm
    · rfl
  obtain rfl := tokens.eq_of_pk_eq hrow htoken hid'
  rw [if_pos hp] at hactive
  exact status_revokeTokenUpdate hactive

end Ends

theorem leavesRefreshes_revoke (hinv : Invariant s) {call : ℕ} {token : RefreshToken}
    {session : Session} {revokedAt : String}
    (hcall : s.calls call = some (.usingSession .revoke token session))
    (hstops : StopsRefreshes s (.revoke call revokedAt)) :
    LeavesRefreshes s
      ({ s with db := OAuth.revoke token.id session.id revokedAt s.db }.setCall call none) := by
  intro call' token' session' hcall' hactive ⟨row, hrow, hid, hstatus⟩
  by_cases hsame : session'.id = session.id
  · have hok := hinv.calls call' _ hcall'
    have hbefore := tokenActive_of_step hok.1 hactive databaseStep_revoke
    obtain ⟨known, hknown, hknown_id, -⟩ := hok.1
    have htoken := hstops _ _ hcall call' token' session' hcall' hsame hbefore
    exact absurd (hknown_id ▸ hactive)
      (not_tokenActive_modify hknown (by simp [hknown_id, htoken]))
  · exact ⟨row, sessionActive_modify hrow (by simp [hid, hsame]), hid, hstatus⟩

theorem leavesRefreshes_compromise (hinv : Invariant s) {call : ℕ}
    {sessionId compromisedAt : String} :
    LeavesRefreshes s ({ s with
      db := compromiseRefreshTokenFamily sessionId compromisedAt s.db }.setCall call none) := by
  intro call' token' session' hcall' hactive ⟨row, hrow, hid, hstatus⟩
  by_cases hsame : session'.id = sessionId
  · obtain ⟨⟨known, hknown, hknown_id, hknown_session⟩, hsession, -⟩ := hinv.calls call' _ hcall'
    exact absurd (hknown_id ▸ hactive)
      (not_tokenActive_modify hknown (by simp [hknown_session, ← hsession, hsame]))
  · exact ⟨row, sessionActive_modify hrow (by simp [hid, hsame]), hid, hstatus⟩

theorem leavesRefreshes_revokeClient (hinv : Invariant s) {appId clientId revokedAt : String}
    (hstops : StopsRefreshes s (.revokeClient appId clientId revokedAt)) :
    LeavesRefreshes s
      { s with db := revokeActiveSessionsForClient appId clientId revokedAt s.db } := by
  intro call' token' session' hcall' hactive ⟨row, hrow, hid, hstatus⟩
  obtain ⟨hknown, -, known, hknown_mem, hknown_id, happ, hclient, -⟩ := hinv.calls call' _ hcall'
  obtain rfl := s.db.sessions.eq_of_pk_eq hrow hknown_mem (hid.trans hknown_id.symm)
  by_cases hsame : row.appId = appId ∧ row.clientId = clientId
  · have hbefore := tokenActive_of_step hknown hactive databaseStep_revokeClient
    exact absurd hbefore (hstops call' token' session' hcall' (happ ▸ hsame.1) (hclient ▸ hsame.2))
  · exact ⟨row, sessionActive_modify hrow (by simpa using hsame), hid, hstatus⟩

/-! ### A step -/

/-- What a step does that issues nothing. -/
structure QuietStep (e : Event) (s t : State) : Prop where
  issued : t.issued = s.issued
  db : DatabaseStep none none s.db t.db
  calls : CallsFrom s t
  leaves : StopsRefreshes s e → LeavesRefreshes s t

theorem QuietStep.of_reads {e : Event} (hdb : t.db = s.db) (hissued : t.issued = s.issued)
    (hcalls : CallsFrom s t) : QuietStep e s t where
  issued := hissued
  db := hdb ▸ .refl s.db
  calls := hcalls
  leaves _ := .of_eq (congrArg Database.sessions hdb)

/-- A call that reads rows and goes on with what is stored. -/
theorem QuietStep.of_setCall {e : Event} {call : ℕ} {value? : Option Call}
    (ht : t = s.setCall call value?)
    (h : ∀ value, value? = some value → CallOk s.db value ∧
      ∀ purpose token session, value = .usingSession purpose token session →
        SessionActive s.db session.id) : QuietStep e s t := by
  subst ht
  exact .of_reads rfl rfl (callsFrom_setCall h)

theorem quietStep_readCode {call : ℕ} {rawCode now : String} {resource : Option String}
    (hnext : next env s (.readCode call rawCode resource now) = some t) :
    QuietStep (.readCode call rawCode resource now) s t := by
  refine .of_setCall (Option.some.inj hnext).symm fun value hvalue => ?_
  obtain ⟨code, -, rfl⟩ := Option.map_eq_some_iff.mp hvalue
  exact ⟨trivial, fun _ _ _ h => absurd h (by simp)⟩

theorem quietStep_readToken (hinv : Invariant s) {call : ℕ} {purpose : Purpose} {rawToken now : String}
    {resource : Option String}
    (hnext : next env s (.readToken call purpose rawToken resource now) = some t) :
    QuietStep (.readToken call purpose rawToken resource now) s t := by
  refine .of_setCall (Option.some.inj hnext).symm fun value hvalue => ?_
  obtain ⟨token, hread, hvalue⟩ := Option.bind_eq_some_iff.mp hvalue
  have hmem : token ∈ s.db.tokens.rows := by
    obtain ⟨-, hget⟩ := Option.ite_none_right_eq_some.mp hread
    exact (Table.get?_eq_some_iff.mp hget).1
  split_ifs at hvalue
  · obtain rfl := Option.some.inj hvalue
    exact ⟨hinv.token_session token hmem, fun _ _ _ h => absurd h (by simp)⟩
  · obtain rfl := Option.some.inj hvalue
    exact ⟨⟨token, hmem, rfl, rfl⟩, fun _ _ _ h => absurd h (by simp)⟩

theorem quietStep_readSession (hinv : Invariant s) {call : ℕ} {now : String}
    (hnext : next env s (.readSession call now) = some t) :
    QuietStep (.readSession call now) s t := by
  simp only [next] at hnext
  cases hcall : s.calls call with
  | none => simp [hcall] at hnext
  | some value =>
    cases value with
    | usingToken purpose token =>
      simp only [hcall] at hnext
      obtain rfl := Option.some.inj hnext
      refine .of_reads rfl rfl (callsFrom_setCall fun value hvalue => ?_)
      obtain ⟨session, hread, rfl⟩ := Option.map_eq_some_iff.mp hvalue
      obtain ⟨hget, hactive⟩ := Option.filter_eq_some_iff.mp hread
      obtain ⟨hmem, hid⟩ := Table.get?_eq_some_iff.mp hget
      refine ⟨⟨hinv.calls call _ hcall, hid, session, hmem, rfl, rfl, rfl, rfl, rfl⟩, ?_⟩
      rintro _ _ _ ⟨⟩
      simp only [Bool.and_eq_true, decide_eq_true_eq] at hactive
      exact ⟨session, hmem, rfl, hactive.1⟩
    | exchanging code => simp [hcall] at hnext
    | usingSession purpose token session => simp [hcall] at hnext
    | compromising sessionId => simp [hcall] at hnext

/-- **What a step does**: it issues nothing, or is an exchange or a refresh that succeeds. -/
theorem next_cases {e : Event} (hinv : Invariant s) (hnext : next env s e = some t) :
    QuietStep e s t ∨
    (∃ client code request issue,
      OAuth.exchange env client code request s.db = .ok (issue, t.db) ∧
      t.issued = issue :: s.issued ∧ CallsFrom s t) ∨
    ∃ call token session request issue,
      s.calls call = some (.usingSession .refresh token session) ∧
      OAuth.mint env token session request s.db = .ok (issue, t.db) ∧
      t.issued = issue :: s.issued ∧ CallsFrom s t := by
  cases e with
  | authorize client resourceScopes request =>
    obtain rfl := Option.some.inj hnext
    obtain ⟨hstep, hsessions, -⟩ := databaseStep_authorize env s.db client resourceScopes request
    exact .inl ⟨rfl, hstep, fun _ _ h => .inl h, fun _ => .of_eq hsessions⟩
  | readCode call rawCode resource now => exact .inl (quietStep_readCode hnext)
  | readToken call purpose rawToken resource now => exact .inl (quietStep_readToken hinv hnext)
  | readSession call now => exact .inl (quietStep_readSession hinv hnext)
  | abandon call =>
    obtain rfl := Option.some.inj hnext
    exact .inl (.of_reads rfl rfl (callsFrom_none rfl))
  | exchange call client request =>
    simp only [next] at hnext
    split at hnext
    · next code hcall =>
      obtain rfl := Option.some.inj hnext
      cases hrun : OAuth.exchange env client code request s.db with
      | error err => exact .inl (.of_reads rfl rfl (callsFrom_none rfl))
      | ok result =>
        exact .inr (.inl ⟨client, code, request, result.1, hrun, rfl, callsFrom_none rfl⟩)
    · exact absurd hnext (by simp)
  | mint call request =>
    simp only [next] at hnext
    split at hnext
    · next token session hcall =>
      obtain rfl := Option.some.inj hnext
      cases hrun : OAuth.mint env token session request s.db with
      | error err => exact .inl (.of_reads rfl rfl (callsFrom_none rfl))
      | ok result =>
        exact .inr (.inr ⟨call, token, session, request, result.1, hcall, hrun, rfl,
          callsFrom_none rfl⟩)
    · exact absurd hnext (by simp)
  | revoke call revokedAt =>
    simp only [next] at hnext
    split at hnext
    · next token session hcall =>
      obtain rfl := Option.some.inj hnext
      exact .inl ⟨rfl, databaseStep_revoke, callsFrom_none rfl,
        fun hstops => leavesRefreshes_revoke hinv hcall hstops⟩
    · exact absurd hnext (by simp)
  | compromise call compromisedAt =>
    simp only [next] at hnext
    split at hnext
    · obtain rfl := Option.some.inj hnext
      exact .inl ⟨rfl, databaseStep_compromise, callsFrom_none rfl,
        fun _ => leavesRefreshes_compromise hinv⟩
    · exact absurd hnext (by simp)
  | revokeClient appId clientId revokedAt =>
    obtain rfl := Option.some.inj hnext
    exact .inl ⟨rfl, databaseStep_revokeClient, fun _ _ h => .inl h,
      leavesRefreshes_revokeClient hinv⟩

theorem Invariant.next {e : Event} (h : Invariant s) (hnext : OAuth.next env s e = some t) :
    Invariant t := by
  rcases next_cases h hnext with hquiet | ⟨_, _, _, _, hok, hissued, hcalls⟩ |
    ⟨call, _, _, _, _, hcall, hok, hissued, hcalls⟩
  · exact h.quiet hquiet.issued hquiet.db hquiet.calls
  · exact h.exchange hok hissued hcalls
  · exact h.mint (h.calls call _ hcall) hok hissued hcalls

theorem Held.next {e : Event} (h : Held s) (hinv : Invariant s) (hstops : StopsRefreshes s e)
    (hnext : OAuth.next env s e = some t) : Held t := by
  rcases next_cases hinv hnext with hquiet | ⟨_, _, _, _, hok, -, hcalls⟩ |
    ⟨_, _, _, _, _, -, hok, -, hcalls⟩
  · exact h.step hinv hquiet.db hquiet.calls (hquiet.leaves hstops)
  · obtain ⟨_, _, -, hstep, -, -, hsessions, -⟩ := exchange_eq_ok hok
    exact h.step hinv hstep hcalls fun _ _ session _ _ hactive => hsessions session.id hactive
  · obtain ⟨_, -, hstep, -, -, hsessions, -⟩ := mint_eq_ok hok
    exact h.step hinv hstep hcalls fun _ _ session _ _ hactive => hsessions session.id hactive

/-! ### Sessions that have ended -/

/-- The event revokes the session, or finds that one of its rotated tokens was used again. -/
def Ends (s : State) (sessionId : String) : Event → Prop
  | .revoke call _ =>
    ∃ token session, s.calls call = some (.usingSession .revoke token session) ∧
      session.id = sessionId
  | .compromise call _ => s.calls call = some (.compromising sessionId)
  | .revokeClient appId clientId _ =>
    ∃ row ∈ s.db.sessions.rows, row.id = sessionId ∧ row.appId = appId ∧ row.clientId = clientId
  | _ => False

theorem ended_modify {p : Session → Bool} {u : Table.Update Session.id Session.id} {row : Session}
    {codes : Table _ AuthorizationCode.codeHash} {sessions : Table _ Session.id}
    {tokens : Table _ RefreshToken.tokenHash} (hrow : row ∈ sessions.rows) (hp : p row)
    (hu : (u.apply row).status ≠ .active) : Ended ⟨codes, sessions.modify p u, tokens⟩ row.id :=
  ⟨u.apply row, List.mem_map.mpr ⟨row, hrow, if_pos hp⟩, u.pk_apply row, hu⟩

theorem ended_of_ends {e : Event} {sessionId : String} (hinv : Invariant s)
    (hends : Ends s sessionId e) (hnext : next env s e = some t) : Ended t.db sessionId := by
  cases e with
  | revoke call revokedAt =>
    obtain ⟨token, session, hcall, rfl⟩ := hends
    simp only [next, hcall, Option.some.injEq] at hnext
    subst hnext
    obtain ⟨-, -, row, hrow, hid, -⟩ := hinv.calls call _ hcall
    rw [← hid]
    exact ended_modify hrow (by simp) status_revokeSessionUpdate
  | compromise call compromisedAt =>
    simp only [next, show s.calls call = some (.compromising sessionId) from hends,
      Option.some.injEq] at hnext
    subst hnext
    obtain ⟨row, hrow, rfl⟩ := hinv.calls call _ hends
    exact ended_modify hrow (by simp) status_compromiseUpdate
  | revokeClient appId clientId revokedAt =>
    obtain ⟨row, hrow, rfl, happ, hclient⟩ := hends
    obtain rfl := Option.some.inj hnext
    exact ended_modify hrow (by simp [happ, hclient]) status_revokeSessionUpdate
  | authorize client resourceScopes request => exact hends.elim
  | readCode call rawCode resource now => exact hends.elim
  | readToken call purpose rawToken resource now => exact hends.elim
  | readSession call now => exact hends.elim
  | exchange call client request => exact hends.elim
  | mint call request => exact hends.elim
  | abandon call => exact hends.elim

/-- The access tokens that were issued for a session. -/
def State.issuedFor (s : State) (sessionId : String) : List Issue :=
  s.issued.filter fun issue => issue.sessionId = sessionId

theorem issuedFor_cons {sessionId : String} (hissued : t.issued = issue :: s.issued)
    (hother : issue.sessionId ≠ sessionId) : t.issuedFor sessionId = s.issuedFor sessionId := by
  rw [State.issuedFor, hissued, List.filter_cons_of_neg (by simpa using hother)]
  rfl

/-- **A session that has ended stays so and issues nothing**: an exchange issues for a session that
is new, and a refresh has an active token, whose session is active. -/
theorem ended_next {e : Event} {sessionId : String} (hinv : Invariant s) (hheld : Held s)
    (hended : Ended s.db sessionId) (hnext : next env s e = some t) :
    Ended t.db sessionId ∧ t.issuedFor sessionId = s.issuedFor sessionId := by
  rcases next_cases hinv hnext with hquiet | ⟨_, _, _, _, hok, hissued, -⟩ |
    ⟨call, token, session, _, _, hcall, hok, hissued, -⟩
  · refine ⟨hended.step hquiet.db, ?_⟩
    rw [State.issuedFor, hquiet.issued]
    rfl
  · obtain ⟨session, _, -, hstep, -, -, -, rfl⟩ := exchange_eq_ok hok
    refine ⟨hended.step hstep, issuedFor_cons hissued ?_⟩
    obtain ⟨row, hrow, rfl, -⟩ := hended
    exact fun heq => hstep.sessions.fresh session rfl row hrow heq.symm
  · have hactive := tokenActive_of_mint (hinv.calls call _ hcall).1 hok
    obtain ⟨_, -, hstep, -, -, -, rfl⟩ := mint_eq_ok hok
    refine ⟨hended.step hstep, issuedFor_cons hissued ?_⟩
    rintro rfl
    exact not_sessionActive_of_ended hended (hheld call token session hcall hactive)

/-! ### Runs -/

theorem Held.initial : Held .initial := by
  intro call token session hcall
  simp [State.initial] at hcall

theorem held_of_run {history : List Event} (h : Run (next env) StopsRefreshes s history t)
    (hinv : Invariant s) (hs : Held s) : Invariant t ∧ Held t :=
  h.invariant (P := fun s => Invariant s ∧ Held s) ⟨hinv, hs⟩ fun _ _ _ hC hnext hboth =>
    ⟨hboth.1.next hnext, hboth.2.next hboth.1 hC hnext⟩

theorem ended_of_run {history : List Event} {sessionId : String}
    (h : Run (next env) StopsRefreshes s history t) (hinv : Invariant s) (hheld : Held s)
    (hended : Ended s.db sessionId) :
    Ended t.db sessionId ∧ t.issuedFor sessionId = s.issuedFor sessionId := by
  induction h with
  | start => exact ⟨hended, rfl⟩
  | step hrun hC hnext ih =>
    obtain ⟨hinv', hheld'⟩ := held_of_run hrun hinv hheld
    obtain ⟨hended', hissued⟩ := ended_next hinv' hheld' ih.1 hnext
    exact ⟨hended', hissued.trans ih.2⟩

/-- Every code was exchanged and every refresh token rotated for one access token at most, no
session has two active refresh tokens, and no access token grants more than its session. -/
structure FamilySafe (s : State) : Prop where
  sources : (s.issued.map Issue.source).Nodup
  one_active : ∀ token ∈ s.db.tokens.rows, ∀ token' ∈ s.db.tokens.rows,
    token.sessionId = token'.sessionId → token.status = .active → token'.status = .active →
      token = token'
  bounded : ∀ issue ∈ s.issued, Bounded s.db issue

theorem Invariant.familySafe (h : Invariant s) : FamilySafe s where
  sources := h.sources
  one_active token htoken token' htoken' heq hactive hactive' :=
    s.db.tokens.eq_of_pk_eq htoken htoken'
      (h.one_active token htoken token' htoken' heq hactive hactive')
  bounded := h.bounded

/-- **Refresh families are safe**: in every run of which each revocation stops the refreshes in
flight, families are safe, and from the event that ends a session on, the session issues nothing. -/
theorem families_safe_of_run {history : List Event}
    (h : Run (next env) StopsRefreshes .initial history s) :
    FamilySafe s ∧ ∀ e t sessionId, StopsRefreshes s e → next env s e = some t →
      Ends s sessionId e → ∀ later u, Run (next env) StopsRefreshes t later u →
        u.issuedFor sessionId = t.issuedFor sessionId := by
  obtain ⟨hinv, hheld⟩ := held_of_run h .initial .initial
  refine ⟨hinv.familySafe, fun e t sessionId hC hnext hends later u hlater => ?_⟩
  have hended := ended_of_ends hinv hends hnext
  exact (ended_of_run hlater (hinv.next hnext) (hheld.next hinv hC hnext) hended).2

/-- **In every run**, also where a revocation comes too late, families are safe, and what was
exchanged or rotated stays spent. -/
theorem familySafe_of_run {history : List Event} (h : Run (next env) Always .initial history s) :
    FamilySafe s ∧ ∀ issue ∈ s.issued, Spent s.db issue.source := by
  have hinv : Invariant s := h.invariant .initial fun _ _ _ _ hnext hinv => hinv.next hnext
  exact ⟨hinv.familySafe, hinv.spent⟩

/-! ### Runs of one client -/

/-- Secrets are hashed to themselves, and nothing expires. -/
def plainEnvironment : Environment where
  hashSecret secret := secret
  fingerprint resource := resource
  isExpired _ _ := false
  expiresAt now _ := now
  pkceMatches _ challenge verifier := challenge = verifier

def ordersClient : Client :=
  ⟨"app-orders", "client-orders", ["https://orders.example/callback"], ["objects:read"], none⟩

/-- A user authorises the client, which exchanges the code; newest event first. -/
def signedIn : List Event :=
  [.exchange 0 (some ordersClient) ⟨"client-orders", "https://orders.example/callback",
     "verifier", none, "2026-01-01T00:00:01Z", "session-1", "token-0", "secret-0"⟩,
   .readCode 0 "code" none "2026-01-01T00:00:01Z",
   .authorize (some ordersClient) ["objects:read"] ⟨⟨"user-1", ["viewer"]⟩,
     "https://orders.example/callback", "verifier", "plain", [], none, "2026-01-01T00:00:00Z",
     "code-1", "code"⟩]

def refreshWith (tokenId rawToken : String) : RefreshRequest :=
  ⟨⟨"user-1", ["viewer"]⟩, none, none, false, "2026-01-01T00:00:03Z", tokenId, rawToken⟩

/-- A refresh with the first token, a second use of it, and a refresh with the second token that
has read its session. -/
def reused : List Event :=
  [.readSession 2 "2026-01-01T00:00:04Z",
   .readToken 2 .refresh "secret-1" none "2026-01-01T00:00:04Z",
   .readToken 1 .refresh "secret-0" none "2026-01-01T00:00:04Z",
   .mint 0 (refreshWith "token-1" "secret-1"),
   .readSession 0 "2026-01-01T00:00:02Z",
   .readToken 0 .refresh "secret-0" none "2026-01-01T00:00:02Z"] ++ signedIn

def reuseFound : Event := .compromise 1 "2026-01-01T00:00:05Z"

/-- The refresh in flight tries to write. -/
def refreshesNext : List Event := [.mint 2 (refreshWith "token-2" "secret-2")]

/-- An event that is neither a revocation nor the deactivation of a client. -/
def isOther : Event → Bool
  | .revoke _ _ => false
  | .revokeClient _ _ _ => false
  | _ => true

theorem stopsRefreshes_of_isOther (s : State) (e : Event) (h : isOther e = true) :
    StopsRefreshes s e := by
  cases e <;> simp_all [isOther, StopsRefreshes]

/-- A check of what a history leads to, of what an event then does, and of where a later history
leads. -/
def goesOn (history : List Event) (e : Event) (later : List Event)
    (p : State → State → State → Bool) : Bool :=
  (Runs.replay (guarded (next plainEnvironment) fun _ => isOther) .initial history).any fun s =>
    (next plainEnvironment s e).any fun t =>
      (Runs.replay (guarded (next plainEnvironment) fun _ => isOther) t later).any (p s t)

theorem exists_run_of_goesOn {history later : List Event} {e : Event}
    {p : State → State → State → Bool} (h : goesOn history e later p = true) :
    ∃ s t u, Run (next plainEnvironment) StopsRefreshes .initial history s ∧
      next plainEnvironment s e = some t ∧ Run (next plainEnvironment) StopsRefreshes t later u ∧
      p s t u = true := by
  obtain ⟨s, hs, h⟩ := exists_replay_of_any h
  obtain ⟨t, ht, h⟩ := (Option.any_eq_true _ _).mp h
  obtain ⟨u, hu, h⟩ := exists_replay_of_any h
  exact ⟨s, t, u, run_of_replay_guarded stopsRefreshes_of_isOther hs, ht,
    run_of_replay_guarded stopsRefreshes_of_isOther hu, h⟩

def isCompromising (s : State) (call : ℕ) (sessionId : String) : Bool :=
  match s.calls call with
  | some (.compromising id) => id = sessionId
  | _ => false

theorem goesOn_reused :
    goesOn reused reuseFound refreshesNext (fun s _ _ => isCompromising s 1 "session-1") = true := by
  decide +kernel

/-- The reuse of the first token stops the refresh in flight. -/
theorem families_safe_reused : ∃ s t u,
    Run (next plainEnvironment) StopsRefreshes .initial reused s ∧
      next plainEnvironment s reuseFound = some t ∧
      Run (next plainEnvironment) StopsRefreshes t refreshesNext u ∧ FamilySafe s ∧
      u.issuedFor "session-1" = t.issuedFor "session-1" := by
  obtain ⟨s, t, u, hs, ht, hu, hcall⟩ := exists_run_of_goesOn goesOn_reused
  have hends : Ends s "session-1" reuseFound := by
    unfold isCompromising at hcall
    split at hcall
    · next id hid =>
      obtain rfl : id = "session-1" := by simpa using hcall
      exact hid
    · exact absurd hcall (by simp)
  obtain ⟨hsafe, hissues⟩ := families_safe_of_run hs
  exact ⟨s, t, u, hs, ht, hu, hsafe, hissues _ t _ (stopsRefreshes_of_isOther s reuseFound rfl) ht hends _ u hu⟩

/-- A refresh that has read its session. -/
def refreshing : List Event :=
  [.readSession 1 "2026-01-01T00:00:02Z",
   .readToken 1 .refresh "secret-0" none "2026-01-01T00:00:02Z"] ++ signedIn

def clientDeactivated : Event := .revokeClient "app-orders" "client-orders" "2026-01-01T00:00:03Z"

def refreshCommits : List Event := [.mint 1 (refreshWith "token-1" "secret-1")]

theorem goesOn_refreshing :
    goesOn refreshing clientDeactivated refreshCommits (fun s t u =>
      (s.db.sessions.rows.any fun row => row.id = "session-1" && row.appId = "app-orders" &&
        row.clientId = "client-orders") &&
      u.issuedFor "session-1" ≠ t.issuedFor "session-1") = true := by
  decide +kernel

/-- **A session may issue after it was revoked**: the deactivation of its client does not stop a
refresh that has read the session before. -/
theorem not_stopsIssuing : ¬ ∀ env history s e t sessionId later u,
    Run (next env) Always .initial history s → next env s e = some t → Ends s sessionId e →
      Run (next env) Always t later u → u.issuedFor sessionId = t.issuedFor sessionId := by
  intro hall
  obtain ⟨s, t, u, hs, ht, hu, hcheck⟩ := exists_run_of_goesOn goesOn_refreshing
  simp only [Bool.and_eq_true, List.any_eq_true, decide_eq_true_eq] at hcheck
  obtain ⟨⟨row, hrow, ⟨hid, happ⟩, hclient⟩, hissues⟩ := hcheck
  exact hissues (hall plainEnvironment refreshing s clientDeactivated t "session-1" refreshCommits u
    (hs.mono fun _ _ _ => trivial) ht ⟨row, hrow, hid, happ, hclient⟩
    (hu.mono fun _ _ _ => trivial))

/-- The session that issues after its revocation is safe all the same. -/
theorem familySafe_refreshing : ∃ s t u : State, next plainEnvironment s clientDeactivated = some t ∧
    u.issuedFor "session-1" ≠ t.issuedFor "session-1" ∧ FamilySafe u := by
  obtain ⟨s, t, u, hs, ht, hu, hcheck⟩ := exists_run_of_goesOn goesOn_refreshing
  have hafter : Run (next plainEnvironment) Always .initial (clientDeactivated :: refreshing) t :=
    (hs.mono fun _ _ _ => trivial).step trivial ht
  have hrun := run_append_iff.mpr ⟨t, hafter, hu.mono fun _ _ _ => trivial⟩
  exact ⟨s, t, u, ht, of_decide_eq_true (Bool.and_eq_true_iff.mp hcheck).2,
    (familySafe_of_run hrun).1⟩

end FoundryLite.OAuth
