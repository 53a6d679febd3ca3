import EdgionCenter.Lib.Run
import EdgionCenter.Proxy.Forward

/-! One call of `forward`, the RPCs it makes and the handlers that serve them, step by step. What
the registries, the locator, the streams and the network do is chosen anew at every step. -/
namespace EdgionCenter

section Dispatch

/-- What `dispatch_to_session` waits for. -/
inductive DispatchEvent
  | cancelled
  | accepted
  | closed
  | elapsed
  | dropped
  | responded (response : HttpProxyResponse)
  deriving DecidableEq

/-- The two places where `dispatch_to_session` waits, and its result. -/
inductive DispatchPhase
  | sending
  | waiting
  | done (result : Except (StatusCode × String) HttpProxyResponse)
  deriving DecidableEq

namespace ProxyForwarder

variable (p : ProxyForwarder) (controllerId : String)

def dispatchToSession (view : SessionView) : DispatchPhase :=
  if view.streamTx then .sending else .done (.error (offlineError controllerId))

def onDispatch : DispatchPhase → DispatchEvent → Option DispatchPhase
  | .sending, .cancelled => some (.done (.error (offlineError controllerId)))
  | .sending, .accepted => some .waiting
  | .sending, .closed =>
    some (.done (.error (badGateway, "Failed to send proxy request: stream closed")))
  | .waiting, .cancelled =>
    some (.done (.error (badGateway,
      "Controller " ++ controllerId ++ " disconnected while proxy result was pending")))
  | .waiting, .elapsed => some (.done (.error p.timedOut))
  | .waiting, .dropped => some (.done (.error (badGateway, "Proxy response channel dropped")))
  | .waiting, .responded response => some (.done (.ok response))
  | _, _ => none

end ProxyForwarder

end Dispatch

section Caller

/-- `for attempt in 0..2`. -/
inductive Attempt
  | first
  | second
  deriving DecidableEq

inductive ForwardPhase
  | checking
  | looking
  | dispatching (phase : DispatchPhase)
  | locating (attempt : Attempt) (previous : Option ControllerOwnerRoute)
  | connecting (attempt : Attempt) (route : ControllerOwnerRoute)
  | calling (attempt : Attempt) (route : ControllerOwnerRoute)
  | returned (result : Except (StatusCode × String) HttpProxyResponse)
  deriving DecidableEq

namespace ProxyForwarder

variable (p : ProxyForwarder) (controllerId : String)

def afterCheck (view : Option SessionView) : ForwardPhase :=
  if p.localSessionIsDispatchable view then .looking
  else
    match p.forwarding with
    | none => .looking
    | some _ =>
      match Identifier.new "controller" controllerId with
      | .error e => .returned (.error (badRequest, e.display))
      | .ok _ => .locating .first none

def forwardLocal : Option SessionView → ForwardPhase
  | none => .returned (.error (notFoundError controllerId))
  | some view => .dispatching (dispatchToSession controllerId view)

end ProxyForwarder

def afterLocate (localHolder controllerId : String) (attempt : Attempt)
    (previous : Option ControllerOwnerRoute)
    (found : CoreResult (Option ControllerOwnerRoute)) : ForwardPhase :=
  match chooseRoute localHolder controllerId previous found with
  | .error e => .returned (.error e)
  | .ok route => .connecting attempt route

/-- Only the first attempt is repeated, and only when the ownership was stale. -/
def afterError (attempt : Attempt) (route : ControllerOwnerRoute) (error : ForwardError) :
    ForwardPhase :=
  if attempt = .first ∧ error.kind = .staleOwnership then .locating .second (some route)
  else .returned (.error (proxyError error))

/-- `undecodable` is the error of a payload that does not decode. -/
def afterReply (attempt : Attempt) (route : ControllerOwnerRoute) (undecodable : Option String) :
    Except Status HttpProxyResponse → ForwardPhase
  | .error status => afterError attempt route (fromStatus status)
  | .ok response =>
    match undecodable with
    | some message => afterError attempt route ⟨.rejected, message⟩
    | none => .returned (.ok response)

end Caller

section Handler

/-- An RPC on its way, in the handler of a replica, and on its way back. It is `gone` once the reply
was read or the connection lost. -/
inductive RpcPhase
  | sent (request : ForwardHttpRequest)
  | looking (service : InternalForwardingService) (request : ForwardHttpRequest)
      (fence : OwnershipFence)
  | dispatching (service : InternalForwardingService) (request : ForwardHttpRequest)
      (phase : DispatchPhase)
  | answered (reply : Except Status HttpProxyResponse)
  | gone
  deriving DecidableEq

namespace InternalForwardingService

variable (service : InternalForwardingService)

def accept (peer : PeerIdentity) (encodedLen : Nat) (accepting decodes : Bool)
    (request : ForwardHttpRequest) : RpcPhase :=
  match service.validate peer encodedLen accepting decodes request with
  | .error status => .answered (.error status)
  | .ok fence => .looking service request fence

def forwardFencedLocal (request : ForwardHttpRequest) (fence : OwnershipFence)
    (view : Option SessionView) : RpcPhase :=
  match service.fencedSession fence view with
  | .error e => .answered (.error (proxyDispatchStatus e))
  | .ok view =>
    .dispatching service request (ProxyForwarder.dispatchToSession request.controllerId view)

end InternalForwardingService

end Handler

/-- Who put a message on a stream: the replica that was called, or a handler. -/
inductive DispatchSource
  | caller
  | handler (attempt : Attempt)
  deriving DecidableEq

/-- A message `HttpProxy` put on the stream of a controller. -/
structure HttpProxyMessage where
  source : DispatchSource
  controllerId : String
  operation : ForwardHttpOperation
  deriving DecidableEq

structure ProxyCall where
  caller : ForwardPhase
  rpc : Attempt → Option RpcPhase
  enqueued : List HttpProxyMessage

namespace ProxyCall

def start : ProxyCall := ⟨.checking, fun _ => none, []⟩

@[simps -fullyApplied]
def setCaller (s : ProxyCall) (phase : ForwardPhase) : ProxyCall := { s with caller := phase }

@[simps -fullyApplied]
def setRpc (s : ProxyCall) (attempt : Attempt) (phase : RpcPhase) : ProxyCall :=
  { s with rpc := Function.update s.rpc attempt (some phase) }

@[simps -fullyApplied]
def dispatched (s : ProxyCall) (e : DispatchEvent) (message : HttpProxyMessage) : ProxyCall :=
  { s with enqueued := if e = .accepted then s.enqueued ++ [message] else s.enqueued }

end ProxyCall

inductive ProxyEvent
  | check (view : Option SessionView)
  | look (view : Option SessionView)
  | dispatch (e : DispatchEvent)
  | finish
  | locate (found : CoreResult (Option ControllerOwnerRoute))
  | connectFailed (message : String)
  | send
  | reply (undecodable : Option String)
  | broken (status : Status)
  | elapse
  | accept (attempt : Attempt) (service : InternalForwardingService)
  | handlerLook (attempt : Attempt) (view : Option SessionView)
  | handlerDispatch (attempt : Attempt) (e : DispatchEvent)
  | handlerFinish (attempt : Attempt)
  | drop (attempt : Attempt)

section Steps

variable (p : ProxyForwarder) (controllerId : String) (operation : ForwardHttpOperation)

inductive CallerStep : ProxyCall → ProxyEvent → ProxyCall → Prop
  | check {s : ProxyCall} (h : s.caller = .checking) (view : Option SessionView) :
      CallerStep s (.check view) (s.setCaller (p.afterCheck controllerId view))
  | look {s : ProxyCall} (h : s.caller = .looking) (view : Option SessionView) :
      CallerStep s (.look view) (s.setCaller (ProxyForwarder.forwardLocal controllerId view))
  | dispatch {s : ProxyCall} (h : s.caller = .dispatching d)
      (hd : p.onDispatch controllerId d e = some d') :
      CallerStep s (.dispatch e)
        ((s.dispatched e ⟨.caller, controllerId, operation.sanitized⟩).setCaller (.dispatching d'))
  | finish {s : ProxyCall} (h : s.caller = .dispatching (.done r)) :
      CallerStep s .finish (s.setCaller (.returned r))
  | locate {s : ProxyCall} (h : s.caller = .locating attempt previous) (hp : p.forwarding = some localHolder)
      (found : CoreResult (Option ControllerOwnerRoute)) :
      CallerStep s (.locate found)
        (s.setCaller (afterLocate localHolder controllerId attempt previous found))
  | connectFailed {s : ProxyCall} (h : s.caller = .connecting attempt route) (message : String) :
      CallerStep s (.connectFailed message)
        (s.setCaller (afterError attempt route ⟨.unavailable, message⟩))
  | send {s : ProxyCall} (h : s.caller = .connecting attempt route) :
      CallerStep s .send
        ((s.setRpc attempt
          (.sent (forwardRequest route controllerId operation.sanitized))).setCaller
            (.calling attempt route))
  | reply {s : ProxyCall} (h : s.caller = .calling attempt route) (hr : s.rpc attempt = some (.answered r)) (undecodable : Option String) :
      CallerStep s (.reply undecodable)
        ((s.setRpc attempt .gone).setCaller (afterReply attempt route undecodable r))
  -- The transport reports a failure of its own; the handler may still be running.
  | broken {s : ProxyCall} (h : s.caller = .calling attempt route) (hf : status.code ≠ .failedPrecondition) (hn : status.code ≠ .notFound) :
      CallerStep s (.broken status) (s.setCaller (afterError attempt route (fromStatus status)))
  -- The timeout around the whole call.
  | elapse {s : ProxyCall} (h : ∀ r, s.caller ≠ .returned r) :
      CallerStep s .elapse (s.setCaller (.returned (.error p.timedOut)))

inductive HandlerStep : ProxyCall → ProxyEvent → ProxyCall → Prop
  -- An endpoint may lead to any replica.
  | accept {s : ProxyCall} (h : s.rpc attempt = some (.sent request)) (service : InternalForwardingService)
      (peer : PeerIdentity) (encodedLen : Nat) (accepting decodes : Bool) :
      HandlerStep s (.accept attempt service)
        (s.setRpc attempt (service.accept peer encodedLen accepting decodes request))
  | look {s : ProxyCall} (h : s.rpc attempt = some (.looking service request fence)) (view : Option SessionView) :
      HandlerStep s (.handlerLook attempt view)
        (s.setRpc attempt (service.forwardFencedLocal request fence view))
  | dispatch {s : ProxyCall} (h : s.rpc attempt = some (.dispatching service request d)) (hd : service.proxy.onDispatch request.controllerId d e = some d') :
      HandlerStep s (.handlerDispatch attempt e)
        ((s.dispatched e
          ⟨.handler attempt, request.controllerId, request.request.sanitized⟩).setRpc attempt
            (.dispatching service request d'))
  | finish {s : ProxyCall} (h : s.rpc attempt = some (.dispatching service request (.done r))) :
      HandlerStep s (.handlerFinish attempt) (s.setRpc attempt (.answered (service.answer r)))
  -- The connection is lost, or the handler dropped with it.
  | drop {s : ProxyCall} (h : s.rpc attempt ≠ none) :
      HandlerStep s (.drop attempt) (s.setRpc attempt .gone)

/-- The call and the handlers of its RPCs, interleaved. -/
inductive ProxyStep : ProxyCall → ProxyEvent → ProxyCall → Prop
  | caller {s t : ProxyCall} (h : CallerStep p controllerId operation s a t) :
      ProxyStep s a t
  | handler {s t : ProxyCall} (h : HandlerStep s a t) : ProxyStep s a t

end Steps

end EdgionCenter
