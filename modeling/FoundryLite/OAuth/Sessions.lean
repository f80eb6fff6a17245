import FoundryLite.Library.Runs
import FoundryLite.Library.Table
import FoundryLite.Library.Transaction
import FoundryLite.Errors
import FoundryLite.Runtime.StatusCas

/-!
# OAuth sessions

A client authorises a user and gets a code, exchanges the code for a session with a refresh token,
and trades the refresh token for a new one each time it needs an access token. A session ends when
it is revoked, by one of its refresh tokens or with its client, or when a refresh token that was
traded already is used again.

Codes, sessions and refresh tokens are rows of their own. A call reads the row of its code or token,
then the row of the session, and writes in the same database transaction, which sees what others
commit in between. What it writes on the code and on the token is conditional: the code has to be
unused still, the token active. What it writes on the session is not.
-/

namespace FoundryLite.OAuth

open FoundryLite.Runtime (StatusTransition casStatusUpdate)

/-! ### Rows -/

structure AuthorizationCode where
  id : String
  codeHash : String
  appId : String
  clientId : String
  actorUserId : String
  roles : List String
  redirectUri : String
  codeChallenge : String
  codeChallengeMethod : String
  scopes : List String
  expiresAt : String
  consumedAt : Option String
  createdAt : String
  deriving DecidableEq

inductive SessionStatus where
  | active | revoked | compromised
  deriving DecidableEq

structure Session where
  id : String
  appId : String
  clientId : String
  actorUserId : String
  roles : List String
  scopes : List String
  status : SessionStatus
  createdAt : String
  lastRefreshedAt : Option String
  expiresAt : String
  revokedAt : Option String
  compromisedAt : Option String
  compromiseReason : Option String
  deriving DecidableEq

inductive RefreshStatus where
  | active | rotated | revoked
  deriving DecidableEq

structure RefreshToken where
  id : String
  sessionId : String
  tokenHash : String
  status : RefreshStatus
  expiresAt : String
  replacedByTokenId : Option String
  createdAt : String
  usedAt : Option String
  revokedAt : Option String
  deriving DecidableEq

/-- The rows of one tenant, by which every lookup is qualified. -/
structure Database where
  codes : Table AuthorizationCode.id AuthorizationCode.codeHash
  sessions : Table Session.id Session.id
  tokens : Table RefreshToken.id RefreshToken.tokenHash

abbrev Tx (α : Type) := Transaction FoundryLiteError Database α

def refreshRevoked : StatusTransition RefreshStatus := ⟨[.active, .rotated], .revoked⟩

def refreshRotated : StatusTransition RefreshStatus := ⟨[.active], .rotated⟩

def sessionCompromised : StatusTransition SessionStatus := ⟨[.active], .compromised⟩

def sessionRevoked : StatusTransition SessionStatus := ⟨[.active], .revoked⟩

/-- What the rules leave to the standard library. -/
structure Environment where
  hashSecret : String → String
  /-- The SHA-256 digest of a resource, in hexadecimal. -/
  fingerprint : String → String
  isExpired : String → String → Bool
  expiresAt : String → ℤ → String
  pkceMatches : String → String → String → Bool

/-! ### Conditional updates -/

def rotateUpdate (replacementTokenId usedAt : String) :
    Table.Update RefreshToken.id RefreshToken.tokenHash where
  apply row := (casStatusUpdate refreshRotated row.status true fun status =>
    { row with status, replacedByTokenId := some replacementTokenId
               usedAt := some usedAt }).getD row
  pk_apply row := by
    unfold casStatusUpdate
    split_ifs <;> rfl
  uq_apply row := by
    unfold casStatusUpdate
    split_ifs <;> rfl

def revokeTokenUpdate (revokedAt : String) :
    Table.Update RefreshToken.id RefreshToken.tokenHash where
  apply row := (casStatusUpdate refreshRevoked row.status true fun status =>
    { row with status, revokedAt := some revokedAt }).getD row
  pk_apply row := by
    unfold casStatusUpdate
    split_ifs <;> rfl
  uq_apply row := by
    unfold casStatusUpdate
    split_ifs <;> rfl

def revokeSessionUpdate (revokedAt : String) : Table.Update Session.id Session.id where
  apply row := (casStatusUpdate sessionRevoked row.status true fun status =>
    { row with status, revokedAt := some revokedAt }).getD row
  pk_apply row := by
    unfold casStatusUpdate
    split_ifs <;> rfl
  uq_apply row := by
    unfold casStatusUpdate
    split_ifs <;> rfl

def compromiseUpdate (compromisedAt : String) : Table.Update Session.id Session.id where
  apply row := (casStatusUpdate sessionCompromised row.status true fun status =>
    { row with status, compromisedAt := some compromisedAt
               compromiseReason := some "rotated_refresh_token_reuse" }).getD row
  pk_apply row := by
    unfold casStatusUpdate
    split_ifs <;> rfl
  uq_apply row := by
    unfold casStatusUpdate
    split_ifs <;> rfl

/-- `update_session_refresh`: the status is not looked at. -/
def refreshedUpdate (refreshedAt : String) : Table.Update Session.id Session.id where
  apply row := { row with lastRefreshedAt := some refreshedAt }
  pk_apply _ := rfl
  uq_apply _ := rfl

def consumeUpdate (consumedAt : String) :
    Table.Update AuthorizationCode.id AuthorizationCode.codeHash where
  apply row := { row with consumedAt := some consumedAt }
  pk_apply _ := rfl
  uq_apply _ := rfl

/-! ### Authorising -/

structure RequestContext where
  actorUserId : String
  roles : List String

/-- A client as the application tables answer it, when it and its application are active. -/
structure Client where
  appId : String
  clientId : String
  redirectUris : List String
  allowedScopes : List String
  refreshTokenTtlSeconds : Option ℤ

/-- `_refresh_ttl`. -/
def refreshTtl (ttl : Option ℤ) : ℤ :=
  match ttl with
  | some value => if 0 < value then value else 2592000
  | none => 2592000

def integrityError : FoundryLiteError := databaseError "IntegrityError"

/-- `_require_active_client`. -/
def requireActiveClient (client : Option Client) (redirectUri : String) : Tx Client := do
  let client ← Transaction.requireSome client (permissionDenied "OSDK OAuth client is not active")
  Transaction.require (client.redirectUris ≠ [])
    (permissionDenied "OSDK OAuth client has no registered redirect URIs")
  Transaction.require (redirectUri ∈ client.redirectUris)
    (permissionDenied "OSDK OAuth redirect URI is not registered")
  pure client

/-- `_require_resource_application`, and the check of a session that is like it. -/
def requireResource (expected : Option String) (actual message : String) : Tx Unit :=
  Transaction.require (expected.all fun value => value = actual) (permissionDenied message)

/-- `_authorized_scopes`, with the scopes of the application in sorted order. -/
def authorizedScopes (client : Client) (resourceScopes requestedScopes : List String) :
    Tx (List String) := do
  let clientScopes :=
    if (client.allowedScopes.filter fun scope => scope ≠ "") = [] then resourceScopes
    else client.allowedScopes.filter fun scope => scope ≠ ""
  let requested := if requestedScopes = [] then Dict.sortedSet clientScopes else requestedScopes
  Transaction.require
    (requested.all fun scope => scope ∈ clientScopes && scope ∈ resourceScopes)
    (permissionDenied "OSDK OAuth requested scope is not granted")
  pure requested

structure AuthorizeRequest where
  ctx : RequestContext
  redirectUri : String
  codeChallenge : String
  codeChallengeMethod : String
  scopes : List String
  resourceApplicationId : Option String
  now : String
  /-- The code and its identifier, which are drawn. -/
  codeId : String
  rawCode : String

def authorize (env : Environment) (client : Option Client) (resourceScopes : List String)
    (request : AuthorizeRequest) : Tx Unit := do
  let client ← requireActiveClient client request.redirectUri
  requireResource request.resourceApplicationId client.appId
    "OSDK OAuth resource does not match client"
  let scopes ← authorizedScopes client resourceScopes request.scopes
  let row : AuthorizationCode :=
    { id := request.codeId, codeHash := env.hashSecret request.rawCode, appId := client.appId
      clientId := client.clientId, actorUserId := request.ctx.actorUserId
      roles := request.ctx.roles, redirectUri := request.redirectUri
      codeChallenge := request.codeChallenge, codeChallengeMethod := request.codeChallengeMethod
      scopes, expiresAt := env.expiresAt request.now 300, consumedAt := none
      createdAt := request.now }
  let codes ← Transaction.requireSome ((← get).codes.insert? row) integrityError
  modify fun db => { db with codes }

/-! ### What was issued -/

/-- What an access token was issued for. -/
inductive Source where
  | code (id : String)
  | token (id : String)
  deriving DecidableEq

/-- An access token, by the claims that matter here, and the refresh token beside it. -/
structure Issue where
  source : Source
  sessionId : String
  refreshTokenId : String
  roles : List String
  scopes : List String
  deriving DecidableEq

/-! ### Exchanging a code -/

/-- `authorization_code_matches_resource` and `refresh_token_matches_resource`: a secret that was
drawn for a resource names it after this start. -/
def matchesResource (env : Environment) (start secret : String) (resource : Option String) : Bool :=
  if start.toList.isPrefixOf secret.toList then
    resource.any fun value =>
      String.ofList ((secret.toList.drop start.length).take 64) = env.fingerprint value
  else resource.isNone

/-- `_exchangeable_code`. -/
def exchangeableCode (env : Environment) (db : Database) (rawCode now : String) :
    Option AuthorizationCode :=
  (db.codes.get? (env.hashSecret rawCode)).filter fun row =>
    row.consumedAt.isNone && !env.isExpired row.expiresAt now

structure ExchangeRequest where
  clientId : String
  redirectUri : String
  codeVerifier : String
  resourceApplicationId : Option String
  now : String
  /-- The session, the refresh token and its identifier, which are drawn. -/
  sessionId : String
  tokenId : String
  rawToken : String

def validateCodeExchange (env : Environment) (row : AuthorizationCode)
    (request : ExchangeRequest) : Tx Unit := do
  Transaction.require (row.clientId = request.clientId && row.redirectUri = request.redirectUri)
    (permissionDenied "OSDK OAuth authorization code does not match client")
  Transaction.require (env.pkceMatches row.codeChallengeMethod row.codeChallenge request.codeVerifier)
    (permissionDenied "OSDK OAuth PKCE verification failed")

def sessionRow (env : Environment) (code : AuthorizationCode) (client : Client)
    (sessionId now : String) : Session :=
  { id := sessionId, appId := code.appId, clientId := code.clientId
    actorUserId := code.actorUserId, roles := code.roles, scopes := code.scopes
    status := .active, createdAt := now, lastRefreshedAt := none
    expiresAt := env.expiresAt now (refreshTtl client.refreshTokenTtlSeconds), revokedAt := none
    compromisedAt := none, compromiseReason := none }

def createSession (row : Session) : Tx Unit := do
  let sessions ← Transaction.requireSome ((← get).sessions.insert? row) integrityError
  modify fun db => { db with sessions }

def tokenRow (env : Environment) (sessionId : String) (ttl : Option ℤ)
    (now tokenId rawToken : String) : RefreshToken :=
  { id := tokenId, sessionId, tokenHash := env.hashSecret rawToken, status := .active
    expiresAt := env.expiresAt now (refreshTtl ttl), replacedByTokenId := none, createdAt := now
    usedAt := none, revokedAt := none }

def createRefreshToken (row : RefreshToken) : Tx Unit := do
  let tokens ← Transaction.requireSome ((← get).tokens.insert? row) integrityError
  modify fun db => { db with tokens }

/-- `_consume_code_once`. -/
def consumeCodeOnce (codeId consumedAt : String) : Tx Unit := do
  let db ← get
  let isUnused := fun row : AuthorizationCode => row.id = codeId && row.consumedAt.isNone
  Transaction.require (db.codes.rows.any isUnused)
    (conflictDetected "OSDK OAuth authorization code was already consumed")
  modify fun db => { db with codes := db.codes.modify isUnused (consumeUpdate consumedAt) }

/-- The exchange of a code that was read before. -/
def exchange (env : Environment) (client : Option Client) (code : AuthorizationCode)
    (request : ExchangeRequest) : Tx Issue := do
  let client ← requireActiveClient client request.redirectUri
  validateCodeExchange env code request
  requireResource request.resourceApplicationId client.appId
    "OSDK OAuth resource does not match client"
  let session := sessionRow env code client request.sessionId request.now
  createSession session
  createRefreshToken (tokenRow env session.id client.refreshTokenTtlSeconds request.now
    request.tokenId request.rawToken)
  consumeCodeOnce code.id request.now
  pure ⟨.code code.id, session.id, request.tokenId, session.roles, session.scopes⟩

/-! ### Refreshing -/

def refreshTokenByHash (env : Environment) (db : Database) (rawToken : String) :
    Option RefreshToken :=
  db.tokens.get? (env.hashSecret rawToken)

/-- `_refresh_token_for_use`: an active token that has not expired. -/
def isUsable (env : Environment) (row : RefreshToken) (now : String) : Bool :=
  row.status = .active && !env.isExpired row.expiresAt now

/-- `_require_session`. -/
def requireSession (env : Environment) (db : Database) (sessionId now : String) : Option Session :=
  (db.sessions.get? sessionId).filter fun row =>
    row.status = .active && !env.isExpired row.expiresAt now

structure RefreshRequest where
  ctx : RequestContext
  clientId : Option String
  resourceApplicationId : Option String
  shouldReevaluateRoles : Bool
  now : String
  /-- The new refresh token and its identifier, which are drawn. -/
  tokenId : String
  rawToken : String

/-- `_rotate_refresh_once`. -/
def rotateRefreshOnce (tokenId replacementTokenId sessionId usedAt : String) : Tx Unit := do
  let db ← get
  Transaction.require
    (db.tokens.rows.any fun row => row.id = tokenId && row.status ∈ refreshRotated.fromStatuses)
    (conflictDetected "OSDK OAuth refresh token was already rotated")
  modify fun db => { db with
    tokens := db.tokens.updateRow tokenId (rotateUpdate replacementTokenId usedAt)
    sessions := db.sessions.updateRow sessionId (refreshedUpdate usedAt) }

/-- `_reevaluated_roles`: those of the session that the caller still has. -/
def reevaluatedRoles (session : Session) (ctx : RequestContext) : List String :=
  session.roles.filter (· ∈ ctx.roles)

/-- The roles of the access token. -/
def claimedRoles (session : Session) (request : RefreshRequest) : List String :=
  if request.shouldReevaluateRoles then reevaluatedRoles session request.ctx else session.roles

/-- The rest of a refresh that has read its token and its session. -/
def mint (env : Environment) (token : RefreshToken) (session : Session)
    (request : RefreshRequest) : Tx Issue := do
  requireResource request.clientId session.clientId "OSDK OAuth resource does not match session"
  requireResource request.resourceApplicationId session.appId
    "OSDK OAuth resource does not match session"
  createRefreshToken (tokenRow env session.id none request.now request.tokenId request.rawToken)
  rotateRefreshOnce token.id request.tokenId session.id request.now
  pure ⟨.token token.id, session.id, request.tokenId, claimedRoles session request, session.scopes⟩

/-! ### Ending a session -/

/-- The rest of a revocation that has read its token and its session. -/
def revoke (tokenId sessionId revokedAt : String) (db : Database) : Database :=
  { db with
    tokens := db.tokens.updateRow tokenId (revokeTokenUpdate revokedAt)
    sessions := db.sessions.updateRow sessionId (revokeSessionUpdate revokedAt) }

def compromiseRefreshTokenFamily (sessionId compromisedAt : String) (db : Database) : Database :=
  { db with
    sessions := db.sessions.updateRow sessionId (compromiseUpdate compromisedAt)
    tokens := db.tokens.modify (fun row => row.sessionId = sessionId)
      (revokeTokenUpdate compromisedAt) }

/-- The deactivation of a client. Refresh tokens are left as they are. -/
def revokeActiveSessionsForClient (appId clientId revokedAt : String) (db : Database) : Database :=
  { db with
    sessions := db.sessions.modify (fun row => row.appId = appId && row.clientId = clientId)
      (revokeSessionUpdate revokedAt) }

/-! ### Calls -/

/-- What a refresh token is used for. -/
inductive Purpose where
  | refresh | revoke
  deriving DecidableEq

/-- A call that has read some rows and has yet to write. -/
inductive Call where
  | exchanging (code : AuthorizationCode)
  | usingToken (purpose : Purpose) (token : RefreshToken)
  | usingSession (purpose : Purpose) (token : RefreshToken) (session : Session)
  /-- The token had been rotated. -/
  | compromising (sessionId : String)

structure State where
  db : Database
  calls : ℕ → Option Call
  /-- The access tokens that were issued, newest first. -/
  issued : List Issue

def State.initial : State := ⟨⟨∅, ∅, ∅⟩, fun _ => none, []⟩

inductive Event where
  | authorize (client : Option Client) (resourceScopes : List String) (request : AuthorizeRequest)
  | readCode (call : ℕ) (rawCode : String) (resource : Option String) (now : String)
  | exchange (call : ℕ) (client : Option Client) (request : ExchangeRequest)
  | readToken (call : ℕ) (purpose : Purpose) (rawToken : String) (resource : Option String)
      (now : String)
  | readSession (call : ℕ) (now : String)
  | mint (call : ℕ) (request : RefreshRequest)
  | revoke (call : ℕ) (revokedAt : String)
  | compromise (call : ℕ) (compromisedAt : String)
  | revokeClient (appId clientId revokedAt : String)
  /-- The call ends without writing. -/
  | abandon (call : ℕ)

def State.setCall (s : State) (call : ℕ) (value : Option Call) : State :=
  { s with calls := Function.update s.calls call value }

@[simp]
theorem State.calls_setCall (s : State) (call call' : ℕ) (value : Option Call) :
    (s.setCall call value).calls call' = if call' = call then value else s.calls call' :=
  Function.update_apply ..

/-- A database transaction that issues an access token, or is rolled back. -/
def State.issue (s : State) (result : Except FoundryLiteError (Issue × Database)) : State :=
  match result with
  | .ok (issue, db) => { s with db, issued := issue :: s.issued }
  | .error _ => s

def next (env : Environment) (s : State) : Event → Option State
  | .authorize client resourceScopes request =>
    some { s with db := ((OAuth.authorize env client resourceScopes request).attempt s.db).2 }
  | .readCode call rawCode resource now =>
    let code := if matchesResource env "oauth_code_resource_" rawCode resource then
      exchangeableCode env s.db rawCode now else none
    some (s.setCall call (code.map .exchanging))
  | .exchange call client request =>
    match s.calls call with
    | some (.exchanging code) =>
      some ((s.issue (OAuth.exchange env client code request s.db)).setCall call none)
    | _ => none
  | .readToken call purpose rawToken resource now =>
    let isMatch := purpose = .revoke || matchesResource env "refresh_resource_" rawToken resource
    let token := if isMatch then refreshTokenByHash env s.db rawToken else none
    some (s.setCall call (token.bind fun row =>
      if row.status = .rotated then some (.compromising row.sessionId)
      else if isUsable env row now then some (.usingToken purpose row) else none))
  | .readSession call now =>
    match s.calls call with
    | some (.usingToken purpose token) =>
      some (s.setCall call ((requireSession env s.db token.sessionId now).map
        (.usingSession purpose token)))
    | _ => none
  | .mint call request =>
    match s.calls call with
    | some (.usingSession .refresh token session) =>
      some ((s.issue (OAuth.mint env token session request s.db)).setCall call none)
    | _ => none
  | .revoke call revokedAt =>
    match s.calls call with
    | some (.usingSession .revoke token session) =>
      some ({ s with db := OAuth.revoke token.id session.id revokedAt s.db }.setCall call none)
    | _ => none
  | .compromise call compromisedAt =>
    match s.calls call with
    | some (.compromising sessionId) =>
      some ({ s with
        db := compromiseRefreshTokenFamily sessionId compromisedAt s.db }.setCall call none)
    | _ => none
  | .revokeClient appId clientId revokedAt =>
    some { s with db := revokeActiveSessionsForClient appId clientId revokedAt s.db }
  | .abandon call => some (s.setCall call none)

end FoundryLite.OAuth
