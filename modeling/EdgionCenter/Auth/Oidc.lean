import EdgionCenter.Lib.Base64
import EdgionCenter.Lib.Interaction
import EdgionCenter.Text

/-! The validation of bearer tokens with the keys of an OpenID provider, which are fetched when they
are needed and then cached. -/
namespace EdgionCenter.Oidc

open Fallible Interaction

/-! ### Policy and state -/

structure JoseHeader where
  alg : String
  kid : Option String
  deriving DecidableEq

/-- What the `openidconnect` and `serde_json` crates do: they read the JSON of a token, and verify a
signature with a key. `base64Error` is the text of an error of the base64 decoder. -/
class Jose (Key : Type) where
  keyId : Key → Option String
  verifySignature : Key → String → List UInt8 → List UInt8 → Except String Unit
  header : List UInt8 → Except String JoseHeader
  payload : List UInt8 → Except String Value
  base64Error : String → String

/-- The issuer is a URL, and the durations are in nanoseconds. -/
structure OidcProvider where
  issuerUrl : String
  ttl : Nat
  minRefreshInterval : Nat
  audiences : List String
  issuers : List String
  allowedAlgorithms : List String
  clockSkewSeconds : UInt64
  issuerUrl_ne : issuerUrl ≠ ""

structure AuthMiddlewareState where
  provider : OidcProvider
  groupsClaim : String

structure CachedKeys (Key : Type) where
  jwks : List Key
  issuer : String
  fetchedAt : Nat

/-- The time since the epoch as the operating system counts it. -/
structure UnixTime where
  secs : UInt64
  bound : secs.toNat < 9223372036854775808

/-- What a validation asks of the provider's state, of the network and of the clocks. The cache is
read together with the monotonic clock; a fetch is started, and then awaited. -/
inductive OidcCall (Key : Type)
  | cached
  | lockFetch
  | unlockFetch
  | discover
  | discovered
  | store (jwks : List Key) (issuer : String)
  | systemTime

@[reducible] def OidcCall.Reply {Key : Type} : OidcCall Key → Type
  | cached => Option (CachedKeys Key) × Nat
  | discovered => Except String (List Key × String)
  | systemTime => Option UnixTime
  | lockFetch | unlockFetch | discover | store .. => Unit

abbrev OidcRun (Key : Type) := Interaction (OidcCall Key) OidcCall.Reply

namespace OidcRun

variable {Key : Type}

def cached : OidcRun Key (Option (CachedKeys Key) × Nat) := ask OidcCall.cached
def lockFetch : OidcRun Key Unit := ask OidcCall.lockFetch
def unlockFetch : OidcRun Key Unit := ask OidcCall.unlockFetch
def discover : OidcRun Key Unit := ask OidcCall.discover
def discovered : OidcRun Key (Except String (List Key × String)) := ask OidcCall.discovered
def store (jwks : List Key) (issuer : String) : OidcRun Key Unit := ask (OidcCall.store jwks issuer)
def systemTime : OidcRun Key (Option UnixTime) := ask OidcCall.systemTime

end OidcRun

/-! ### Keys -/

section Keys

variable {Key : Type} (p : OidcProvider)

/-- `fetched_at.elapsed() < min_refresh_interval`. -/
def recentlyFetched (cached : Option (CachedKeys Key)) (now : Nat) : Bool :=
  match cached with
  | some keys => now - keys.fetchedAt < p.minRefreshInterval
  | none => false

def expired (cached : Option (CachedKeys Key)) (now : Nat) : Bool :=
  match cached with
  | some keys => p.ttl ≤ now - keys.fetchedAt
  | none => true

def cacheKeys : Except String (List Key × String) → OidcRun Key (Except String Unit)
  | .error e => return .error ("OIDC discovery/JWKS fetch failed: " ++ e)
  | .ok ([], _) => return .error "OIDC JWKS contains no keys"
  | .ok (key :: jwks, issuer) => do
    OidcRun.store (key :: jwks) issuer
    return .ok ()

def fetchKeys : OidcRun Key (Except String Unit) := do
  OidcRun.discover
  let metadata ← OidcRun.discovered
  cacheKeys metadata

/-- What is done while the lock is held. -/
def fetchUnlessRecent : OidcRun Key (Except String Unit) := do
  let cached ← OidcRun.cached
  if recentlyFetched p cached.1 cached.2 then return .ok () else fetchKeys

def fetchAndCache : OidcRun Key (Except String Unit) := do
  OidcRun.lockFetch
  let result ← fetchUnlessRecent p
  OidcRun.unlockFetch
  return result

def currentKeys : OidcRun Key (Except String (List Key × String)) := do
  let cached ← OidcRun.cached
  return match cached.1 with
    | some keys => .ok (keys.jwks, keys.issuer)
    | none => .error "OIDC JWKS unavailable"

/-- A failed refresh leaves a stale cache in use. -/
def keysAfter : Except String Unit → OidcRun Key (Except String (List Key × String))
  | .ok _ => currentKeys
  | .error e => do
    let cached ← OidcRun.cached
    if cached.1.isNone then return .error e else currentKeys

def refreshedKeys : OidcRun Key (Except String (List Key × String)) := do
  let result ← fetchAndCache p
  keysAfter result

def keys (force : Bool) : OidcRun Key (Except String (List Key × String)) :=
  if force then refreshedKeys p
  else do
    let cached ← OidcRun.cached
    if expired p cached.1 cached.2 then refreshedKeys p else currentKeys

end Keys

/-! ### Tokens -/

section Tokens

def defaultAllowedAlgs : List String := ["RS256", "RS384", "RS512", "ES256", "ES384"]

/-- The names that `CoreJwsSigningAlgorithm` is read from. -/
def jwsSigningAlgorithms : List String :=
  ["HS256", "HS384", "HS512", "RS256", "RS384", "RS512", "ES256", "ES384", "ES512", "PS256",
    "PS384", "PS512", "EdDSA", "none"]

def OidcProvider.allowed (p : OidcProvider) : List String :=
  if p.allowedAlgorithms = [] then defaultAllowedAlgs else p.allowedAlgorithms

def checkAlgorithm (p : OidcProvider) (alg : String) : Except String Unit := do
  require (eqIgnoreAsciiCase alg "none" = false) "alg=none is not allowed"
  require (p.allowed.any (fun a => eqIgnoreAsciiCase a alg) = true)
    ("algorithm " ++ alg ++ " not allowed")
  require (alg ∈ jwsSigningAlgorithms) ("unsupported alg: " ++ alg)

inductive VerifyError
  | kidNotFound
  | message (text : String)
  deriving DecidableEq

def VerifyError.text : VerifyError → String
  | .kidNotFound => "Unknown signing key"
  | .message text => text

variable {Key : Type} [Jose Key]

/-- Whether a key may have signed a token of that `kid`. -/
def keyMatches (kid : Option String) (key : Key) : Bool :=
  match Jose.keyId key, kid with
  | some keyKid, some jwtKid => keyKid == jwtKid
  | _, none => true
  | none, some _ => false

/-- The loop over the candidates, which keeps the last error. -/
def verifyWithAny (alg : String) (message signature : List UInt8) :
    List Key → String → Except VerifyError Unit
  | [], lastError => .error (.message lastError)
  | key :: rest, _ =>
    match Jose.verifySignature key alg message signature with
    | .ok _ => .ok ()
    | .error e =>
      verifyWithAny alg message signature rest ("signature verification failed: " ++ e)

def verifyWithJwks (jwks : List Key) (alg : String) (kid : Option String)
    (message signature : List UInt8) : Except VerifyError Unit :=
  if jwks.filter (keyMatches kid) = [] then .error .kidNotFound
  else verifyWithAny alg message signature (jwks.filter (keyMatches kid))
    "signature verification failed"

/-- The three segments of a compact token. -/
structure Segments where
  header : String
  payload : String
  signature : String
  deriving DecidableEq

def Segments.signingInput (parts : Segments) : List UInt8 :=
  utf8Bytes (parts.header ++ "." ++ parts.payload)

def splitToken (token : String) : Except String Segments :=
  match token.toList.splitOn '.' with
  | [header, payload, signature] =>
    .ok ⟨String.ofList header, String.ofList payload, String.ofList signature⟩
  | _ => .error "malformed JWT: expected 3 segments"

variable (Key) in
def decodeSegment (error segment : String) : Except String (List UInt8) :=
  match Base64.decode segment.toList with
  | some bytes => .ok bytes
  | none => .error (error ++ Jose.base64Error Key segment)

variable (Key) in
def readHeader (segment : String) : Except String JoseHeader := do
  let bytes ← decodeSegment Key "Invalid token header: " segment
  (Jose.header Key bytes).mapError ("Invalid token header: " ++ ·)

variable (Key) in
def readPayload (segment : String) : Except String Value := do
  let bytes ← decodeSegment Key "Invalid token payload: " segment
  (Jose.payload Key bytes).mapError ("Invalid token payload: " ++ ·)

end Tokens

/-! ### Claims -/

section Claims

/-- `str::parse` of an `i64`. -/
def parseI64 : List Char → Option Int64
  | '-' :: digits =>
    (Decimal.parseDigits 9223372036854775809 digits).map fun n : Nat => Int64.ofInt (-n)
  | '+' :: digits | digits =>
    (Decimal.parseDigits 9223372036854775808 digits).map fun n : Nat => Int64.ofInt n

/-- `Value::as_i64`. -/
def asI64 : Value → Option Int64
  | .number n => parseI64 n.text.toList
  | _ => none

def extractAudiences (claims : Value) : List String :=
  match claims.get "aud" with
  | some (.string s) => [s]
  | some (.array items) => items.filterMap Value.asStr
  | _ => []

def claimStr (claims : Value) (name : String) : Option String := (claims.get name).bind Value.asStr

def claimI64 (claims : Value) (name : String) : Option Int64 := (claims.get name).bind asI64

variable (p : OidcProvider) (claims : Value)

def OidcProvider.leeway : Int64 := p.clockSkewSeconds.toInt64

/-- The sum wraps around, as in a release build. -/
def checkExp (now : Int64) : Except String Unit :=
  match claimI64 claims "exp" with
  | some exp => require (¬ exp + p.leeway < now) "token expired"
  | none => .error "token missing exp"

def checkNbf (now : Int64) : Except String Unit :=
  match claimI64 claims "nbf" with
  | some nbf => require (¬ now < nbf - p.leeway) "token not yet valid (nbf)"
  | none => .ok ()

def checkAud : Except String Unit :=
  if p.audiences = [] then .ok ()
  else require (∃ a ∈ extractAudiences claims, a ∈ p.audiences) "token audience not allowed"

def issuerIs (claims : Value) (ok : String → Bool) : Bool :=
  match claimStr claims "iss" with
  | some iss => ok iss
  | none => false

def checkIss (discoveryIssuer : String) : Except String Unit :=
  if p.issuers ≠ [] then
    require (issuerIs claims (fun iss => p.issuers.contains iss) = true) "token issuer not allowed"
  else if discoveryIssuer ≠ "" then
    require (issuerIs claims (· == discoveryIssuer) = true) "token issuer does not match provider"
  else .ok ()

def validateClaims (discoveryIssuer : String) (time : Option UnixTime) : Except String Unit :=
  match time with
  | none => .error "system clock before unix epoch"
  | some now => do
    checkExp p claims now.secs.toInt64
    checkNbf p claims now.secs.toInt64
    checkAud p claims
    checkIss p claims discoveryIssuer

end Claims

/-! ### Validation -/

structure OidcClaims where
  sub : Option String
  iss : Option String
  claims : Value

structure UnifiedAuthClaims where
  sub : String
  iss : String
  groups : List String
  claims : Value

section Validate

variable {Key : Type} [Jose Key] (p : OidcProvider)

/-- The keys and the issuer that came with them. After a miss of the `kid` the keys are refreshed
once. -/
def verifyOrRefresh (header : JoseHeader) (message signature : List UInt8)
    (discovery : List Key × String) : ExceptT String (OidcRun Key) String :=
  match verifyWithJwks discovery.1 header.alg header.kid message signature with
  | .ok _ => return discovery.2
  | .error .kidNotFound => do
    let refreshed ← ExceptT.mk (keys p true)
    liftM ((verifyWithJwks refreshed.1 header.alg header.kid message signature).mapError
      VerifyError.text)
    return refreshed.2
  | .error (.message text) => throw text

def OidcClaims.of (claims : Value) : OidcClaims :=
  ⟨claimStr claims "sub", claimStr claims "iss", claims⟩

def validate (token : String) : ExceptT String (OidcRun Key) OidcClaims := do
  let parts ← liftM (splitToken token)
  let header ← liftM (readHeader Key parts.header)
  liftM (checkAlgorithm p header.alg)
  let discovery ← ExceptT.mk (keys p false)
  let signature ← liftM (decodeSegment Key "Invalid signature encoding: " parts.signature)
  let issuer ← verifyOrRefresh p header parts.signingInput signature discovery
  let claims ← liftM (readPayload Key parts.payload)
  let now ← liftM (OidcRun.systemTime : OidcRun Key (Option UnixTime))
  liftM (validateClaims p claims issuer now)
  return OidcClaims.of claims

end Validate

def validatedIdentityClaim (name : String) (value : Option String) (maxBytes : Nat) :
    Except String String :=
  match value with
  | none => .error ("OIDC token is missing " ++ debugStr name ++ " claim")
  | some value => do
    require (value ≠ "" ∧ utf8Len value.toList ≤ maxBytes ∧ value.toList.any isControl = false)
      ("OIDC token contains invalid " ++ debugStr name ++ " claim")
    return value

def readGroup (claimName : String) (value : Value) : Except String String :=
  match value.asStr with
  | none => .error ("OIDC group claim " ++ debugStr claimName ++ " must contain only strings")
  | some group => do
    require (group ≠ "" ∧ utf8Len group.toList ≤ 256 ∧ group.toList.any isControl = false)
      ("OIDC group claim " ++ debugStr claimName ++ " contains an invalid group")
    return group

def extractValidatedGroups (claims : Value) (claimName : String) : Except String (List String) :=
  match claims.get claimName with
  | none => .ok []
  | some value =>
    match value.asArray with
    | none => .error ("OIDC group claim " ++ debugStr claimName ++ " must be an array of strings")
    | some values => do
      require (values.length ≤ 256)
        ("OIDC group claim " ++ debugStr claimName ++ " exceeds 256 entries")
      let groups ← values.mapM (readGroup claimName)
      return groups.eraseDups

def unifiedClaims (groupsClaim : String) (claims : OidcClaims) :
    Except String UnifiedAuthClaims := do
  let subject ← validatedIdentityClaim "sub" claims.sub 255
  let issuer ← validatedIdentityClaim "iss" claims.iss 2048
  let groups ← extractValidatedGroups claims.claims groupsClaim
  return ⟨subject, issuer, groups, claims.claims⟩

def tryOidcValidation {Key : Type} [Jose Key] (state : AuthMiddlewareState) (token : String) :
    ExceptT String (OidcRun Key) UnifiedAuthClaims := do
  let claims ← validate state.provider token
  liftM (unifiedClaims state.groupsClaim claims)

end EdgionCenter.Oidc
