import EdgionCenter.Admin.Router
import EdgionCenter.Auth.Oidc
import EdgionCenter.Lib.Interaction
import EdgionCenter.Proxy.Forward

/-! The two layers in front of the admin API: authentication and authorization. -/
namespace EdgionCenter

open Interaction

inductive AuthProvider
  | oidc
  | localAuth
  deriving DecidableEq

structure UnifiedAuthClaims where
  provider : AuthProvider
  sub : Option String
  iss : Option String
  groups : List String
  claims : Value

structure LocalAuthClaims where
  sub : String
  iat : Nat
  exp : Nat

section Claims

/-- `try_oidc_validation` after the library accepted the token. -/
def oidcClaims (groupsClaim : String) (claims : Oidc.OidcClaims) :
    Except String UnifiedAuthClaims := do
  let unified ← Oidc.unifiedClaims groupsClaim claims
  return ⟨.oidc, some unified.sub, some unified.iss, unified.groups, unified.claims⟩

/-- `try_local_validation` after the token was decoded. -/
def localClaims (claims : LocalAuthClaims) : UnifiedAuthClaims where
  provider := .localAuth
  sub := some claims.sub
  iss := none
  groups := []
  claims := .object [("exp", .number (.ofNat claims.exp)),
    ("iat", .number (.ofNat claims.iat)), ("sub", .string claims.sub)]

end Claims

section Paths

def publicProbePaths : List String := ["/health", "/ready", "/metrics"]

def publicAuthEndpoints : List String :=
  ["/api/v1/auth/login", "/api/v1/auth/logout", "/api/v1/auth/status"]

def publicDiscoveryEndpoints : List String := ["/api/v1/server-info"]

def isSkipAllowlisted (path : String) : Bool :=
  path ∈ publicProbePaths || startsWith path "/api/v1/auth/"

end Paths

/-- The configuration of a provider; `fault` is what its other checks object to. -/
structure ProviderConfig where
  enabled : Bool
  fault : Option String
  skipPaths : List String
  groupsClaim : String

def ProviderConfig.validate (config : ProviderConfig) : Option String :=
  if !config.enabled then none
  else match config.fault with
    | some error => some error
    | none =>
      if config.skipPaths.all isSkipAllowlisted then none
      else some ("skip_paths entries must be exactly /health, /ready, /metrics, or start with " ++
        "/api/v1/auth/")

/-- `oidc` is the group claim of the OIDC provider, if there is one. The local provider may be
installed later, so a request asks for it. -/
structure UnifiedAuthState where
  oidc : Option String
  skipPaths : List String

/-- The skip paths of an enabled provider whose configuration is valid. -/
def providerSkipPaths (section_ : String) (config : Option ProviderConfig) :
    Except String (List String) :=
  match config with
  | none => .ok []
  | some config =>
    if config.enabled then
      match config.validate with
      | some error => .error ("invalid [" ++ section_ ++ "] config: " ++ error)
      | none => .ok config.skipPaths
    else .ok []

/-- The local provider is part of some builds only. -/
def localSkipPaths (passwordAuth : Bool) (config : Option ProviderConfig) :
    Except String (List String) :=
  if passwordAuth then providerSkipPaths "local_auth" config
  else if config.any (·.enabled) then
    .error "local authentication requires the password-auth build feature"
  else .ok []

def UnifiedAuthState.fromConfigs (passwordAuth : Bool) (oidc localAuth : Option ProviderConfig) :
    Except String UnifiedAuthState := do
  let oidcPaths ← providerSkipPaths "auth" oidc
  let localPaths ← localSkipPaths passwordAuth localAuth
  return {
    oidc := (oidc.filter (·.enabled)).map (·.groupsClaim)
    skipPaths := publicProbePaths ++ publicDiscoveryEndpoints ++ oidcPaths ++ localPaths }

inductive ActionOperation
  | list
  | get
  | create
  | update
  | delete
  | execute
  deriving DecidableEq

structure AuthzAction where
  permission : String
  controllerId : Option String
  operation : Option ActionOperation
  requestPath : Option String
  requestVerb : Option String
  deriving DecidableEq

structure Principal where
  subject : String
  provider : String
  issuer : Option String
  groups : List String
  deriving DecidableEq

structure Decision where
  allowed : Bool
  reason : Option String
  deriving DecidableEq

/-- A request; `header` gives the first value of a header that is text. -/
structure AdminRequest where
  method : Method
  path : String
  header : String → Option String
  authBypass : Bool

namespace AdminRequest

def bearerToken (request : AdminRequest) : Option String :=
  (request.header "authorization").bind fun value =>
    if 7 < value.toList.length ∧ asciiLower (String.ofList (value.toList.take 7)) = "bearer " then
      some (String.ofList (value.toList.drop 7))
    else none

def cookieToken (request : AdminRequest) : Option String :=
  (request.header "cookie").bind fun value =>
    (value.toList.splitOn ';').findSome? fun part =>
      (stripStart (trim (String.ofList part)) "edgion_token=").filter (· ≠ "")

def token (request : AdminRequest) : Option String := request.bearerToken <|> request.cookieToken

end AdminRequest

/-- What a layer answers itself, or the answer of a handler. -/
structure HttpResponse where
  status : StatusCode
  body : Value

/-- What the layers ask: the providers, the authorizer and at last the handler. -/
inductive GateCall
  | loadLocal
  | validateOidc (token : String)
  | decodeLocal (secret token : String)
  | authorize (principal : Principal) (action : AuthzAction)
  | grantedPermissions (principal : Principal) (candidates : List String)
  | handle (handler : Handler) (params : List String) (permissions : Option (List String))

@[reducible] def GateCall.Reply : GateCall → Type
  | loadLocal => Option String
  | validateOidc _ => Except String Oidc.OidcClaims
  | decodeLocal .. => Except String LocalAuthClaims
  | authorize .. => CoreResult Decision
  | grantedPermissions .. => CoreResult (Option (List String))
  | handle .. => HttpResponse

abbrev GateRun := Interaction GateCall GateCall.Reply

section Responses

def statusUnauthorized : StatusCode := 401
def statusForbidden : StatusCode := 403
def methodNotAllowed : StatusCode := 405

def initializingResponse : HttpResponse :=
  ⟨serviceUnavailable, errorBody "authentication subsystem initializing, retry later"⟩

def authErrorResponse (message : String) : HttpResponse :=
  ⟨statusUnauthorized, .object [("error", .string message)]⟩

def forbiddenResponse (required : String) : HttpResponse :=
  ⟨statusForbidden, .object [("error", .string "forbidden: missing permission"),
    ("required_permission", .string required), ("success", .bool false)]⟩

def authorizationUnavailableResponse : HttpResponse :=
  ⟨serviceUnavailable, errorBody "authorization service unavailable"⟩

def invalidPrincipalResponse : HttpResponse :=
  ⟨statusUnauthorized, errorBody "invalid authenticated principal"⟩

end Responses

section Authentication

variable (next : Option UnifiedAuthClaims → GateRun HttpResponse)

/-- The local provider, tried last. -/
def tryLocal (snapshot : Option String) (token : String) : GateRun HttpResponse :=
  match snapshot with
  | none => return authErrorResponse "Authentication failed"
  | some secret => do
    let reply ← ask (GateCall.decodeLocal secret token)
    match reply with
    | .ok claims => next (some (localClaims claims))
    | .error _ => return authErrorResponse "Authentication failed"

def tryProviders (oidc snapshot : Option String) (token : String) : GateRun HttpResponse :=
  match oidc with
  | none => tryLocal next snapshot token
  | some groupsClaim => do
    let reply ← ask (GateCall.validateOidc token)
    match reply >>= oidcClaims groupsClaim with
    | .ok claims => next (some claims)
    | .error _ => tryLocal next snapshot token

def unifiedAuthMiddleware (state : UnifiedAuthState) (request : AdminRequest) :
    GateRun HttpResponse :=
  if request.path ∈ state.skipPaths then next none
  else if request.path ∈ publicAuthEndpoints then next none
  else if request.authBypass then next none
  else do
    let snapshot ← ask GateCall.loadLocal
    if state.oidc.isNone ∧ snapshot.isNone then return initializingResponse
    else match request.token with
      | none => return authErrorResponse "Missing credentials"
      | some token => tryProviders next state.oidc snapshot token

end Authentication

section Authorization

def actionOperation (m : Method) (path : String) : ActionOperation :=
  if m.isRead then
    if path = "/api/v1/controllers" ∨ path = "/api/v1/clusters" ∨
        path = "/api/v1/center/admin/controllers" ∨
        path = "/api/v1/center/cloud/provider-accounts" then .list
    else .get
  else if m = .delete then .delete
  else if m = .patch ∨ m = .put then .update
  else if endsWith path "/reload" ∨ endsWith path "/refresh" ∨ endsWith path "/sync" ∨
      endsWith path "/failover" ∨ startsWith path "/api/v1/proxy/" then .execute
  else .create

/-- The raw controller id in a path. -/
def encodedControllerId (path : String) : Option String :=
  ((stripStart path "/api/v1/center/admin/controllers/" <|>
    stripStart path "/api/v1/controllers/").bind fun suffix => (segments suffix).head?).filter
      (· ≠ "")

def decodedControllerId (id : String) : Option String :=
  (percentDecodeStr id).bind fun decoded =>
    (Identifier.new "controller" (replaceTilde decoded)).toOption.map (·.value)

def requestAction (permission : String) (m : Method) (path : String)
    (controllerId : Option String) : AuthzAction where
  permission := permission
  controllerId := controllerId
  operation := some (actionOperation m path)
  requestPath := some path
  requestVerb := some (if m = .head then "get" else asciiLower m.asStr)

/-- Nothing if the path names a controller that cannot be. -/
def actionForRequest (permission : String) (m : Method) (path : String) : Option AuthzAction :=
  match encodedControllerId path with
  | none => some (requestAction permission m path none)
  | some id => (decodedControllerId id).map fun id => requestAction permission m path (some id)

def UnifiedAuthClaims.principal (claims : UnifiedAuthClaims) : Option Principal :=
  claims.sub.map fun subject =>
    ⟨subject, match claims.provider with | .oidc => "oidc" | .localAuth => "local", claims.iss,
      claims.groups⟩

def credentialAction : AuthzAction where
  permission := Catalog.providerCredentialsUse
  controllerId := none
  operation := some .get
  requestPath := some ("/permissions/" ++ Catalog.providerCredentialsUse)
  requestVerb := some "get"

def unmappedAction (request : AdminRequest) : AuthzAction where
  permission := unmappedBusinessRoute
  controllerId := none
  operation := some .execute
  requestPath := some request.path
  requestVerb := some (asciiLower request.method.asStr)

def needsCredentials (request : AdminRequest) : Bool :=
  (request.method = .post || request.method = .put) &&
    Catalog.underSegment request.path "/api/v1/center/cloud/provider-accounts"

/-- Goes on if the authorizer allows the action. -/
def authorized (principal : Principal) (action : AuthzAction) (required : String)
    (next : GateRun HttpResponse) : GateRun HttpResponse := do
  let reply ← ask (GateCall.authorize principal action)
  match reply with
  | .ok decision => if decision.allowed then next else return forbiddenResponse required
  | .error _ => return authorizationUnavailableResponse

variable (next : Option (List String) → GateRun HttpResponse)

/-- The permissions that the identity endpoint reports. -/
def reportPermissions (request : AdminRequest) (principal : Principal) : GateRun HttpResponse :=
  if request.path = "/api/v1/auth/me" then do
    let reply ← ask (GateCall.grantedPermissions principal Catalog.allKeys)
    match reply with
    | .ok (some allowed) => next (some allowed)
    | .ok none => next (some [])
    | .error _ => return authorizationUnavailableResponse
  else next (some [])

def enforce (request : AdminRequest) (principal : Principal) : GateRun HttpResponse :=
  match Catalog.routePermission request.method request.path with
  | some key =>
    match actionForRequest key request.method request.path with
    | none => return forbiddenResponse "<invalid-controller-id>"
    | some action => authorized principal action key <|
        if needsCredentials request then
          authorized principal credentialAction Catalog.providerCredentialsUse <|
            next (some [key, Catalog.providerCredentialsUse])
        else next (some [key])
  | none =>
    if Catalog.isBusinessPath request.path then
      authorized principal (unmappedAction request) unmappedBusinessRoute <|
        reportPermissions next request principal
    else reportPermissions next request principal

def authzMiddleware (request : AdminRequest) (claims : Option UnifiedAuthClaims) :
    GateRun HttpResponse :=
  match claims with
  | none => next none
  | some claims =>
    match claims.principal with
    | none => return invalidPrincipalResponse
    | some principal => enforce next request principal

end Authorization

section Compose

/-- The routes whose path is that of the request. -/
def matching (mounts : List Mount) (request : AdminRequest) : List Mount :=
  mounts.filter fun mount => (matchPath mount.path request.path).isSome

/-- The route of a request; the parameters are decoded on extraction. -/
def serve (mounts : List Mount) (request : AdminRequest) (permissions : Option (List String)) :
    GateRun HttpResponse :=
  match (matching mounts request).find? fun mount => mount.methods.accepts request.method with
  | some mount =>
    match (matchPath mount.path request.path).bind fun raw => raw.mapM percentDecodeStr with
    | some params => ask (GateCall.handle mount.handler params permissions)
    | none => return ⟨badRequest, .string "Invalid URL: Invalid UTF-8 in path"⟩
  | none =>
    return ⟨if (matching mounts request).isEmpty then statusNotFound else methodNotAllowed, .null⟩

def composeAdminRoutes (business : List Mount) (passwordAuth localAuthIntent : Bool)
    (auth : UnifiedAuthState) (request : AdminRequest) : GateRun HttpResponse :=
  unifiedAuthMiddleware
    (authzMiddleware (serve (business ++ authRoutes passwordAuth localAuthIntent) request) request)
    auth request

end Compose

/-- The controller that a handler acts on, where it acts on one that its path names. -/
def Handler.actsOn : Handler → List String → Option String
  | reloadController, [id] => some (replaceTilde id)
  | deleteAdminController, [id] =>
    (Identifier.new "controller" (replaceTilde id)).toOption.map (·.value)
  | _, _ => none

end EdgionCenter
