import EdgionCenter.Directory.Controller
import EdgionCenter.Federation.Session

/-! What a replica does with a proxied request: the checks before it is put on a controller's
stream, here or on the replica that owns the controller, and how failures are reported. -/
namespace EdgionCenter

abbrev StatusCode := Nat

def badRequest : StatusCode := 400
def statusNotFound : StatusCode := 404
def badGateway : StatusCode := 502
def serviceUnavailable : StatusCode := 503
def gatewayTimeout : StatusCode := 504

/-- The body of an answer that reports an error. -/
def errorBody (error : String) : Value :=
  .object [("error", .string error), ("success", .bool false)]

/-- `tonic::Code`. -/
inductive Code
  | ok
  | cancelled
  | unknown
  | invalidArgument
  | deadlineExceeded
  | notFound
  | alreadyExists
  | permissionDenied
  | resourceExhausted
  | failedPrecondition
  | aborted
  | outOfRange
  | unimplemented
  | internal
  | unavailable
  | dataLoss
  | unauthenticated
  deriving DecidableEq

structure Status where
  code : Code
  message : String
  deriving DecidableEq

structure ForwardHttpOperation where
  method : String
  path : String
  headers : List (String × String)
  body : List UInt8
  deriving DecidableEq

structure HttpProxyResponse where
  status : Nat
  headers : List (String × String)
  body : List UInt8
  deriving DecidableEq

def HttpProxyResponse.isSuccess (response : HttpProxyResponse) : Bool :=
  200 ≤ response.status && response.status < 300

section Headers

def deniedHeaders : List String :=
  ["authorization", "cookie", "connection", "keep-alive", "proxy-authenticate",
    "proxy-authorization", "te", "trailer", "transfer-encoding", "upgrade", "host"]

/-- The headers that a `connection` header names. -/
def nominatedHeaders (headers : List (String × String)) : List String :=
  ((headers.filter fun h => asciiLower h.1 = "connection").flatMap fun h =>
    (h.2.toList.splitOn ',').map fun name => asciiLower (trim (String.ofList name))).filter
      (· ≠ "")

def sanitizeHeaders (headers : List (String × String)) : List (String × String) :=
  headers.filter fun h => !deniedHeaders.contains (asciiLower h.1) &&
    !(nominatedHeaders headers).contains (asciiLower h.1)

def ForwardHttpOperation.sanitized (operation : ForwardHttpOperation) : ForwardHttpOperation :=
  { operation with headers := sanitizeHeaders operation.headers }

theorem nominatedHeaders_sanitizeHeaders (headers : List (String × String)) :
    nominatedHeaders (sanitizeHeaders headers) = [] := by
  have hnone : (sanitizeHeaders headers).filter (fun h => asciiLower h.1 = "connection") = [] := by
    rw [List.filter_eq_nil_iff]
    intro h hh hc
    simp only [sanitizeHeaders, List.mem_filter, Bool.and_eq_true, decide_eq_true_eq] at hh hc
    simp [hc, deniedHeaders] at hh
  simp [nominatedHeaders, hnone]

/-- The replicas on the way sanitize again, which changes nothing. -/
theorem sanitizeHeaders_sanitizeHeaders (headers : List (String × String)) :
    sanitizeHeaders (sanitizeHeaders headers) = sanitizeHeaders headers := by
  rw [sanitizeHeaders, nominatedHeaders_sanitizeHeaders, List.filter_eq_self]
  intro h hh
  simp only [sanitizeHeaders, List.mem_filter, Bool.and_eq_true] at hh
  simpa using hh.2.1

theorem sanitized_sanitized (operation : ForwardHttpOperation) :
    operation.sanitized.sanitized = operation.sanitized := by
  simp [ForwardHttpOperation.sanitized, sanitizeHeaders_sanitizeHeaders]

end Headers

inductive ForwardErrorKind
  | staleOwnership
  | unavailable
  | deadline
  | rejected
  deriving DecidableEq

structure ForwardError where
  kind : ForwardErrorKind
  message : String
  deriving DecidableEq

def statusKind : Code → ForwardErrorKind
  | .failedPrecondition | .notFound => .staleOwnership
  | .deadlineExceeded => .deadline
  | .unavailable => .unavailable
  | _ => .rejected

def fromStatus (status : Status) : ForwardError := ⟨statusKind status.code, status.message⟩

def proxyError (error : ForwardError) : StatusCode × String :=
  (match error.kind with
    | .deadline => gatewayTimeout
    | .staleOwnership | .unavailable => serviceUnavailable
    | .rejected => badGateway, error.message)

structure ControllerOwnerRoute where
  holder : String
  endpoint : String
  ownershipFence : OwnershipFence
  deriving DecidableEq

structure OwnershipTarget where
  holder : String
  fencingToken : String
  fencingEpoch : Nat
  deriving DecidableEq

/-- The request between replicas; the operation in it is encoded on the wire. -/
structure ForwardHttpRequest where
  controllerId : String
  target : Option OwnershipTarget
  hopCount : Nat
  request : ForwardHttpOperation
  deriving DecidableEq

def forwardRequest (route : ControllerOwnerRoute) (controllerId : String)
    (operation : ForwardHttpOperation) : ForwardHttpRequest where
  controllerId := controllerId
  target := some ⟨route.holder, route.ownershipFence.token, route.ownershipFence.epoch⟩
  hopCount := 1
  request := operation.sanitized

inductive ValidationError
  | draining
  | hop
  | missingTarget
  | wrongTarget
  | invalidFence
  | missingPeer
  | invalidPeer
  | deniedPeer
  | requestTooLarge
  deriving DecidableEq

def ValidationError.status : ValidationError → Status
  | .draining => ⟨.unavailable, "replica is draining"⟩
  | .hop => ⟨.failedPrecondition, "internal forwarding is exactly one hop"⟩
  | .missingTarget => ⟨.invalidArgument, "ownership target is required"⟩
  | .wrongTarget => ⟨.failedPrecondition, "target replica changed"⟩
  | .invalidFence => ⟨.invalidArgument, "invalid ownership fence"⟩
  | .missingPeer => ⟨.unauthenticated, "internal client certificate is required"⟩
  | .invalidPeer => ⟨.permissionDenied, "internal client identity is invalid"⟩
  | .deniedPeer => ⟨.permissionDenied, "internal client identity is not authorized"⟩
  | .requestTooLarge => ⟨.resourceExhausted, "internal forwarding request exceeds limit"⟩

inductive FencedProxyError
  | staleOwnership
  | dispatch (status : StatusCode) (message : String)
  deriving DecidableEq

def proxyDispatchStatus : FencedProxyError → Status
  | .staleOwnership => ⟨.failedPrecondition, "controller ownership is stale"⟩
  | .dispatch _ _ => ⟨.unavailable, "controller dispatch result is uncertain"⟩

/-- `forwarding` is the holder name of this replica where replicas forward to each other. -/
structure ProxyForwarder where
  timeoutSecs : Nat
  forwarding : Option String
  deriving DecidableEq

structure InternalForwardingService where
  proxy : ProxyForwarder
  localHolder : String
  maxRequestBytes : Nat
  maxResponseBytes : Nat
  expectedPeerSpiffeId : String
  deriving DecidableEq

/-- The certificate a peer showed. -/
inductive PeerIdentity
  | missing
  | invalid
  | spiffe (id : String)
  deriving DecidableEq

namespace InternalForwardingService

variable (service : InternalForwardingService)

def validatePeer : PeerIdentity → Except ValidationError Unit
  | .missing => .error .missingPeer
  | .invalid => .error .invalidPeer
  | .spiffe actual =>
    if actual ≠ service.expectedPeerSpiffeId then .error .deniedPeer else .ok ()

def validateRequestSize (encodedLen : Nat) : Except ValidationError Unit :=
  if service.maxRequestBytes < encodedLen then .error .requestTooLarge else .ok ()

def validateTarget (accepting : Bool) (hopCount : Nat) (target : Option OwnershipTarget) :
    Except ValidationError OwnershipFence :=
  if !accepting then .error .draining
  else if hopCount ≠ 1 then .error .hop
  else
    match target with
    | none => .error .missingTarget
    | some target =>
      if target.holder ≠ service.localHolder then .error .wrongTarget
      else if target.fencingToken = "" ∨ target.fencingEpoch = 0 then .error .invalidFence
      else .ok ⟨target.fencingToken, target.fencingEpoch⟩

/-- What `forward_http` checks before it looks at the registry: the peer, the size as encoded, the
target, whether the operation decodes, and the size of its body. -/
def validate (peer : PeerIdentity) (encodedLen : Nat) (accepting decodes : Bool)
    (request : ForwardHttpRequest) : Except Status OwnershipFence :=
  match service.validatePeer peer with
  | .error e => .error e.status
  | .ok () =>
    match service.validateRequestSize encodedLen with
    | .error e => .error e.status
    | .ok () =>
      match service.validateTarget accepting request.hopCount request.target with
      | .error e => .error e.status
      | .ok fence =>
        if !decodes then .error ⟨.invalidArgument, "proxy request is invalid"⟩
        else if service.maxRequestBytes < request.request.body.length then
          .error ⟨.resourceExhausted, "proxy request exceeds limit"⟩
        else .ok fence

/-- The session of `forward_fenced_local`. -/
def fencedSession (fence : OwnershipFence) :
    Option SessionView → Except FencedProxyError SessionView
  | none => .error .staleOwnership
  | some view =>
    if view.matchesOwnership service.localHolder fence then .ok view else .error .staleOwnership

/-- The answer of `forward_http` to what its dispatch ended in. -/
def answer : Except (StatusCode × String) HttpProxyResponse → Except Status HttpProxyResponse
  | .error (status, message) => .error (proxyDispatchStatus (.dispatch status message))
  | .ok response =>
    if service.maxResponseBytes < response.body.length then
      .error ⟨.resourceExhausted, "proxy response exceeds limit"⟩
    else .ok response

end InternalForwardingService

namespace ProxyForwarder

variable (p : ProxyForwarder)

def timedOut : StatusCode × String :=
  (gatewayTimeout, "Proxy request timed out after " ++ toString p.timeoutSecs ++ "s")

def localSessionIsDispatchable : Option SessionView → Bool
  | none => false
  | some view => view.streamTx && (p.forwarding.isNone || view.ownership.any (·.valid))

end ProxyForwarder

def offlineError (controllerId : String) : StatusCode × String :=
  (serviceUnavailable, "Controller " ++ controllerId ++ " is offline")

def notFoundError (controllerId : String) : StatusCode × String :=
  (statusNotFound, "Controller " ++ controllerId ++ " not found or offline")

/-- Whether a located route is tried: not when nothing is found, when it leads back here, or when it
is the one that was stale before. -/
def chooseRoute (localHolder controllerId : String) (previous : Option ControllerOwnerRoute) :
    CoreResult (Option ControllerOwnerRoute) →
      Except (StatusCode × String) ControllerOwnerRoute
  | .error e => .error (serviceUnavailable, e.display)
  | .ok none => .error (notFoundError controllerId)
  | .ok (some route) =>
    if route.holder = localHolder then
      .error (serviceUnavailable,
        "Controller " ++ controllerId ++ " ownership is stale on this replica")
    else if previous = some route then
      .error (serviceUnavailable, "Controller " ++ controllerId ++ " ownership did not advance")
    else .ok route

end EdgionCenter
