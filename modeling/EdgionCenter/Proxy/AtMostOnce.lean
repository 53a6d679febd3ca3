import EdgionCenter.Proxy.Protocol

/-! A forwarded request is put on a controller's stream at most once. The right to do so is passed
from the call to a handler and, with a reply that reports stale ownership, back. -/
namespace EdgionCenter

open ProxyCall Transition

variable {p : ProxyForwarder} {controllerId : String} {operation : ForwardHttpOperation}
  {s t : ProxyCall} {a : ProxyEvent} {xs : List ProxyEvent}

section Permits

def DispatchPhase.permits : DispatchPhase → Nat
  | .sending => 1
  | .waiting | .done _ => 0

def ForwardPhase.permits : ForwardPhase → Nat
  | .checking | .looking | .locating _ _ | .connecting _ _ => 1
  | .dispatching phase => phase.permits
  | .calling _ _ | .returned _ => 0

/-- Only a stale reply makes the caller go on. -/
def replyPermits : Except Status HttpProxyResponse → Nat
  | .error status => if statusKind status.code = .staleOwnership then 1 else 0
  | .ok _ => 0

def RpcPhase.permits : RpcPhase → Nat
  | .sent _ | .looking _ _ _ => 1
  | .dispatching _ _ phase => phase.permits
  | .answered reply => replyPermits reply
  | .gone => 0

/-- The permits held by the two RPCs. -/
def rpcPermits (rpc : Attempt → Option RpcPhase) : Nat :=
  (rpc .first).elim 0 RpcPhase.permits + (rpc .second).elim 0 RpcPhase.permits

/-- The messages put on streams and those that may still be. -/
def ProxyCall.permits (s : ProxyCall) : Nat :=
  s.caller.permits + rpcPermits s.rpc + s.enqueued.length

variable {rpc : Attempt → Option RpcPhase} {attempt : Attempt}

theorem rpcPermits_update {old : Option RpcPhase} (new : Option RpcPhase) (h : rpc attempt = old) :
    rpcPermits (Function.update rpc attempt new) + old.elim 0 RpcPhase.permits =
      rpcPermits rpc + new.elim 0 RpcPhase.permits := by
  subst h
  cases attempt with
  | first =>
    simp [rpcPermits]
    omega
  | second =>
    simp [rpcPermits]
    omega

theorem rpcPermits_update_le {old new : RpcPhase} (h : rpc attempt = some old)
    (hle : new.permits ≤ old.permits) :
    rpcPermits (Function.update rpc attempt (some new)) ≤ rpcPermits rpc := by
  have := rpcPermits_update (some new) h
  simp only [Option.elim_some] at this
  omega

theorem permits_le_rpcPermits {phase : RpcPhase} (h : rpc attempt = some phase) :
    phase.permits ≤ rpcPermits rpc := by
  cases attempt with
  | first | second => simp [rpcPermits, h]

theorem DispatchPhase.permits_le_one (d : DispatchPhase) : d.permits ≤ 1 := by
  cases d <;> simp [DispatchPhase.permits]

theorem replyPermits_le_one (r : Except Status HttpProxyResponse) : replyPermits r ≤ 1 := by
  unfold replyPermits
  split
  · split <;> omega
  · omega

theorem ForwardPhase.permits_le_one (c : ForwardPhase) : c.permits ≤ 1 := by
  cases c <;> simp [ForwardPhase.permits, DispatchPhase.permits_le_one]

theorem RpcPhase.permits_le_one (r : RpcPhase) : r.permits ≤ 1 := by
  cases r <;> simp [RpcPhase.permits, DispatchPhase.permits_le_one, replyPermits_le_one]

end Permits

section Step

/-- A message on the stream uses up the permit, and no dispatch gets it back. -/
theorem onDispatch_permits {d d' : DispatchPhase} {e : DispatchEvent}
    (h : p.onDispatch controllerId d e = some d') :
    d'.permits + (if e = .accepted then 1 else 0) ≤ d.permits := by
  unfold ProxyForwarder.onDispatch at h
  split at h <;> simp_all [DispatchPhase.permits]
  all_goals subst h; simp

/-- What happened to a message that may be on a stream is never reported as stale ownership. -/
theorem answer_permits (service : InternalForwardingService)
    (r : Except (StatusCode × String) HttpProxyResponse) : replyPermits (service.answer r) = 0 := by
  unfold InternalForwardingService.answer
  split
  · simp [replyPermits, proxyDispatchStatus, statusKind]
  · split <;> simp [replyPermits, statusKind]

theorem afterError_permits (attempt : Attempt) (route : ControllerOwnerRoute) (error : ForwardError) :
    (afterError attempt route error).permits ≤
      if error.kind = .staleOwnership then 1 else 0 := by
  unfold afterError
  split <;> simp_all [ForwardPhase.permits]

theorem afterReply_permits (attempt : Attempt) (route : ControllerOwnerRoute)
    (undecodable : Option String) (r : Except Status HttpProxyResponse) :
    (afterReply attempt route undecodable r).permits ≤ replyPermits r := by
  cases r with
  | error status => exact afterError_permits attempt route (fromStatus status)
  | ok response =>
    cases undecodable with
    | some message => exact afterError_permits attempt route ⟨.rejected, message⟩
    | none => simp [afterReply, ForwardPhase.permits]

theorem statusKind_ne_stale {code : Code} (hf : code ≠ .failedPrecondition)
    (hn : code ≠ .notFound) : statusKind code ≠ .staleOwnership := by
  cases code <;> simp_all [statusKind]

@[simp] theorem dispatched_length (s : ProxyCall) (e : DispatchEvent) (m : HttpProxyMessage) :
    (s.dispatched e m).enqueued.length = s.enqueued.length + if e = .accepted then 1 else 0 := by
  by_cases h : e = .accepted <;> simp [h]

theorem setCaller_permits {c : ForwardPhase} (h : c.permits ≤ s.caller.permits) :
    (s.setCaller c).permits ≤ s.permits := by
  simp only [ProxyCall.permits, setCaller_caller, setCaller_rpc,
    setCaller_enqueued]
  omega

theorem setRpc_permits {attempt : Attempt} {old new : RpcPhase} (h : s.rpc attempt = some old)
    (hle : new.permits ≤ old.permits) : (s.setRpc attempt new).permits ≤ s.permits := by
  have := rpcPermits_update_le h hle
  simp only [ProxyCall.permits, setRpc_caller, setRpc_rpc,
    setRpc_enqueued]
  omega

theorem CallerStep.permits (h : CallerStep p controllerId operation s a t) :
    t.permits ≤ s.permits := by
  cases h with
  | check h view | look h view =>
    exact setCaller_permits (by rw [h]; exact ForwardPhase.permits_le_one _)
  | @dispatch d e d' _ h hd =>
    have := onDispatch_permits hd
    simp only [ProxyCall.permits, h, setCaller_caller, setCaller_rpc,
      setCaller_enqueued, dispatched_length, dispatched_rpc,
      ForwardPhase.permits]
    omega
  | finish h => exact setCaller_permits (by simp [ForwardPhase.permits])
  | locate h hp found => exact setCaller_permits (by rw [h]; exact ForwardPhase.permits_le_one _)
  | connectFailed h message =>
    exact setCaller_permits ((afterError_permits _ _ _).trans (by simp))
  | @send attempt route _ h =>
    -- The permit goes from the caller to the RPC.
    have := rpcPermits_update
      (some (.sent (forwardRequest route controllerId operation.sanitized)))
      (rfl : s.rpc attempt = _)
    simp only [ProxyCall.permits, h, setCaller_caller, setCaller_rpc,
      setCaller_enqueued, setRpc_rpc, setRpc_enqueued,
      ForwardPhase.permits, Option.elim_some, RpcPhase.permits] at this ⊢
    omega
  | @reply attempt route r _ h hr undecodable =>
    -- It comes back with a stale reply only.
    have hback := afterReply_permits attempt route undecodable r
    have := rpcPermits_update (some .gone) hr
    simp only [ProxyCall.permits, setCaller_caller, setCaller_rpc,
      setCaller_enqueued, setRpc_rpc, setRpc_enqueued,
      Option.elim_some, RpcPhase.permits] at this ⊢
    omega
  | @broken attempt route status _ h hf hn =>
    have hk : (fromStatus status).kind ≠ .staleOwnership := statusKind_ne_stale hf hn
    exact setCaller_permits ((afterError_permits _ _ _).trans (by simp [hk]))
  | elapse h => exact setCaller_permits (by simp [ForwardPhase.permits])

theorem HandlerStep.permits (h : HandlerStep s a t) : t.permits ≤ s.permits := by
  cases h with
  | accept h service peer encodedLen accepting decodes =>
    exact setRpc_permits h (RpcPhase.permits_le_one _)
  | look h view => exact setRpc_permits h (RpcPhase.permits_le_one _)
  | @dispatch attempt service request d e d' _ h hd =>
    have hle := onDispatch_permits hd
    have := rpcPermits_update (some (.dispatching service request d')) h
    simp only [ProxyCall.permits, setRpc_caller, setRpc_rpc,
      setRpc_enqueued, dispatched_length, dispatched_rpc,
      dispatched_caller, Option.elim_some, RpcPhase.permits] at this ⊢
    omega
  | @finish attempt service request r _ h =>
    exact setRpc_permits h (by simp [RpcPhase.permits, answer_permits])
  | @drop attempt _ h =>
    obtain ⟨old, ho⟩ := Option.ne_none_iff_exists'.mp h
    exact setRpc_permits ho (Nat.zero_le _)

theorem ProxyStep.permits (h : ProxyStep p controllerId operation s a t) :
    t.permits ≤ s.permits := by
  cases h with
  | caller h | handler h => exact h.permits

end Step

section Attempts

/-- The RPC of that attempt is still to be made. -/
def ForwardPhase.Before (attempt : Attempt) : ForwardPhase → Prop
  | .checking | .looking => True
  | .locating b _ | .connecting b _ => b = .first ∨ attempt = .second
  | .calling b _ => b = .first ∧ attempt = .second
  | .dispatching _ | .returned _ => False

def ForwardPhase.OnSecond : ForwardPhase → Prop
  | .locating b _ | .connecting b _ | .calling b _ => b = .second
  | .checking | .looking | .dispatching _ | .returned _ => False

/-- A second remote attempt is under way or was made. -/
def ProxyCall.SecondAttempt (s : ProxyCall) : Prop := s.caller.OnSecond ∨ s.rpc .second ≠ none

structure ProxyCall.Attempted (s : ProxyCall) : Prop where
  before : ∀ attempt, s.caller.Before attempt → s.rpc attempt = none
  second : s.SecondAttempt →
    s.rpc .first = some .gone ∧ ∀ m ∈ s.enqueued, m.source ≠ .handler .first

theorem ProxyCall.start_attempted : start.Attempted where
  before _ _ := rfl
  second h := by simp [SecondAttempt, start, ForwardPhase.OnSecond] at h

theorem ProxyCall.Attempted.setCaller {c : ForwardPhase} (hs : s.Attempted)
    (hb : ∀ attempt, c.Before attempt → s.caller.Before attempt)
    (h2 : c.OnSecond → s.caller.OnSecond) : (s.setCaller c).Attempted where
  before attempt h := hs.before attempt (hb attempt h)
  second h := hs.second (h.imp_left h2)

theorem ProxyCall.Attempted.returned {r : Except (StatusCode × String) HttpProxyResponse}
    (hs : s.Attempted) : (s.setCaller (.returned r)).Attempted :=
  hs.setCaller (fun _ => False.elim) False.elim

variable {attempt : Attempt}

/-- A handler that is still at work belongs to the attempt the call has come to. -/
theorem ProxyCall.Attempted.setRpc {old new : RpcPhase} (hs : s.Attempted)
    (h : s.rpc attempt = some old) (hold : old = .gone → new = .gone) :
    (s.setRpc attempt new).Attempted where
  before b hb := by
    have hnone := hs.before b hb
    have hne : b ≠ attempt := by rintro rfl; simp [h] at hnone
    simpa [hne] using hnone
  second h2 := by
    have h2' : s.SecondAttempt := by
      refine h2.imp_right fun hsome => ?_
      by_cases hb : attempt = .second
      · simp [← hb, h]
      · simpa [Ne.symm hb] using hsome
    obtain ⟨hgone, hm⟩ := hs.second h2'
    refine ⟨?_, hm⟩
    by_cases hb : attempt = .first
    · subst hb
      simp [hold (Option.some.inj (h.symm.trans hgone))]
    · simpa [Ne.symm hb] using hgone

theorem ProxyCall.Attempted.dispatched {e : DispatchEvent} {m : HttpProxyMessage} (hs : s.Attempted)
    (hm : s.SecondAttempt → m.source ≠ .handler .first) : (s.dispatched e m).Attempted where
  before := hs.before
  second h := by
    obtain ⟨hgone, hms⟩ := hs.second h
    refine ⟨hgone, fun m' hm' => ?_⟩
    by_cases he : e = .accepted
    · simp only [dispatched_enqueued, he, if_true, List.mem_append, List.mem_singleton] at hm'
      rcases hm' with hm' | rfl
      · exact hms m' hm'
      · exact hm h
    · exact hms m' (by simpa [he] using hm')

/-- A stale reply is only given while nothing is on a stream. -/
theorem enqueued_eq_nil_of_stale {status : Status} (hs : s.permits ≤ 1)
    (h : s.rpc attempt = some (.answered (.error status)))
    (hk : statusKind status.code = .staleOwnership) : s.enqueued = [] := by
  have := permits_le_rpcPermits h
  simp only [RpcPhase.permits, replyPermits, hk, if_true] at this
  unfold ProxyCall.permits at hs
  exact List.eq_nil_of_length_eq_zero (by omega)

variable {route : ControllerOwnerRoute}

theorem afterError_eq_returned {error : ForwardError}
    (h : attempt = .first → error.kind ≠ .staleOwnership) :
    afterError attempt route error = .returned (.error (proxyError error)) :=
  if_neg fun hk => h hk.1 hk.2

/-- The caller gives up on a reply, or it was the stale reply to the first attempt. -/
theorem afterReply_cases (attempt : Attempt) (route : ControllerOwnerRoute)
    (undecodable : Option String) (r : Except Status HttpProxyResponse) :
    (∃ result, afterReply attempt route undecodable r = .returned result) ∨
      attempt = .first ∧ afterReply attempt route undecodable r = .locating .second (some route) ∧
        ∃ status, r = .error status ∧ statusKind status.code = .staleOwnership := by
  cases r with
  | error status =>
    by_cases h : attempt = .first ∧ (fromStatus status).kind = .staleOwnership
    · exact .inr ⟨h.1, if_pos h, status, rfl, h.2⟩
    · exact .inl ⟨_, if_neg h⟩
  | ok response =>
    cases undecodable with
    | some message => exact .inl ⟨_, afterError_eq_returned (by simp)⟩
    | none => exact .inl ⟨_, rfl⟩

theorem ProxyCall.Attempted.send {request : ForwardHttpRequest} (hs : s.Attempted)
    (h : s.caller = .connecting attempt route) :
    ((s.setRpc attempt (.sent request)).setCaller (.calling attempt route)).Attempted := by
  have hfresh : ∀ b, attempt = .first ∨ b = .second → s.rpc b = none := fun b hb =>
    hs.before b (by simpa [h, ForwardPhase.Before] using hb)
  constructor
  · intro b hb
    obtain ⟨rfl, rfl⟩ : attempt = .first ∧ b = .second := hb
    simpa using hfresh .second (.inl rfl)
  · intro h2
    cases attempt with
    | first => simp [SecondAttempt, ForwardPhase.OnSecond, hfresh .second (.inl rfl)] at h2
    | second => simpa using hs.second (.inl (by simp [h, ForwardPhase.OnSecond]))

theorem ProxyCall.Attempted.reply {r : Except Status HttpProxyResponse}
    {undecodable : Option String} (hs : s.Attempted) (hp : s.permits ≤ 1)
    (h : s.caller = .calling attempt route) (hr : s.rpc attempt = some (.answered r)) :
    ((s.setRpc attempt .gone).setCaller (afterReply attempt route undecodable r)).Attempted := by
  rcases afterReply_cases attempt route undecodable r with
    ⟨result, hc⟩ | ⟨rfl, hc, status, rfl, hk⟩
  · rw [hc]
    exact (hs.setRpc hr (fun _ => rfl)).returned
  · -- Nothing is on a stream, and the first handler has gone.
    rw [hc]
    have hfresh : s.rpc .second = none := hs.before .second (by simp [h, ForwardPhase.Before])
    constructor
    · intro b hb
      obtain rfl : b = .second := by simpa [ForwardPhase.Before] using hb
      simpa using hfresh
    · simp [enqueued_eq_nil_of_stale hp hr hk]

theorem CallerStep.attempted (h : CallerStep p controllerId operation s a t) (hp : s.permits ≤ 1)
    (hs : s.Attempted) : t.Attempted := by
  cases h with
  | check h view =>
    apply hs.setCaller
    · intro attempt _
      simp [h, ForwardPhase.Before]
    · unfold ProxyForwarder.afterCheck
      repeat' split
      all_goals simp [ForwardPhase.OnSecond]
  | look h view =>
    cases view with
    | none => exact hs.returned
    | some view => exact hs.setCaller (fun _ => False.elim) False.elim
  | dispatch h hd =>
    exact (hs.dispatched (by simp)).setCaller (fun _ => False.elim) False.elim
  | finish h => exact hs.returned
  | @locate attempt previous localHolder _ h hp found =>
    unfold afterLocate
    split
    · exact hs.returned
    · exact hs.setCaller (by simp [h, ForwardPhase.Before]) (by simp [h, ForwardPhase.OnSecond])
  | connectFailed h message =>
    rw [afterError_eq_returned (by simp)]
    exact hs.returned
  | send h => exact hs.send h
  | reply h hr undecodable => exact hs.reply hp h hr
  | broken h hf hn =>
    rw [afterError_eq_returned fun _ => statusKind_ne_stale hf hn]
    exact hs.returned
  | elapse h => exact hs.returned

theorem HandlerStep.attempted (h : HandlerStep s a t) (hs : s.Attempted) : t.Attempted := by
  cases h with
  | accept h service peer encodedLen accepting decodes | look h view => exact hs.setRpc h nofun
  | @dispatch attempt service request d e d' _ h hd =>
    have hm : s.SecondAttempt → DispatchSource.handler attempt ≠ .handler .first := by
      rintro h2 heq
      cases heq
      exact nomatch h.symm.trans (hs.second h2).1
    exact (hs.dispatched hm).setRpc h nofun
  | finish h => exact hs.setRpc h nofun
  | drop h =>
    obtain ⟨old, ho⟩ := Option.ne_none_iff_exists'.mp h
    exact hs.setRpc ho fun _ => rfl

theorem run_attempted (h : Run (ProxyStep p controllerId operation) .start xs s) :
    s.permits ≤ 1 ∧ s.Attempted := by
  refine h.invariant (P := fun s => s.permits ≤ 1 ∧ s.Attempted) ?_
    ⟨le_rfl, start_attempted⟩
  rintro s a t ⟨hp, hs⟩ hst
  refine ⟨hst.permits.trans hp, ?_⟩
  cases hst with
  | caller h => exact h.attempted hp hs
  | handler h => exact h.attempted hs

/-- However the replicas, the locator and the network behave. -/
theorem forward_dispatches_at_most_once (h : Run (ProxyStep p controllerId operation) .start xs s) :
    s.enqueued.length ≤ 1 ∧
      (s.SecondAttempt → ∀ m ∈ s.enqueued, m.source ≠ .handler .first) := by
  obtain ⟨hp, hs⟩ := run_attempted h
  unfold ProxyCall.permits at hp
  exact ⟨by omega, fun h2 => (hs.second h2).2⟩

/-- The owner moves from one replica to another while the request is on its way to the first. -/
def movedRoute (holder token : String) (epoch : Nat) : ControllerOwnerRoute :=
  ⟨holder, "https://" ++ holder ++ ":12252", ⟨token, epoch⟩⟩

def movedService (holder : String) : InternalForwardingService :=
  ⟨⟨30, some holder⟩, holder, 1024, 1024, "spiffe://edgion/center"⟩

def getHealth : ForwardHttpOperation := ⟨"GET", "/health", [("Host", "center")], []⟩

theorem moved_run : ∃ s : ProxyCall,
    Run (ProxyStep ⟨30, some "center-a"⟩ "edge-1" getHealth) .start
      [.check none, .locate (.ok (some (movedRoute "center-b" "t1" 1))), .send,
        .accept .first (movedService "center-b"), .handlerLook .first none, .reply none,
        .locate (.ok (some (movedRoute "center-c" "t2" 2))), .send,
        .accept .second (movedService "center-c"),
        .handlerLook .second (some ⟨7, true, some ⟨"center-c", ⟨"t2", 2⟩, true⟩⟩),
        .handlerDispatch .second .accepted, .handlerDispatch .second (.responded ⟨200, [], []⟩),
        .handlerFinish .second, .reply none] s ∧
      s.SecondAttempt ∧ s.caller = .returned (.ok ⟨200, [], []⟩) ∧
      s.enqueued = [⟨.handler .second, "edge-1", ⟨"GET", "/health", [], []⟩⟩] :=
  ⟨_, .step (.caller (.check rfl _)) <|
    .step (.caller (.locate (by exact rfl) rfl _)) <|
    .step (.caller (.send (by exact rfl))) <|
    .step (.handler (.accept (by exact rfl) _ (.spiffe "spiffe://edgion/center") 64 true true)) <|
    .step (.handler (.look (by exact rfl) _)) <|
    .step (.caller (.reply (by exact rfl) (by exact rfl) _)) <|
    .step (.caller (.locate (by exact rfl) rfl _)) <|
    .step (.caller (.send (by exact rfl))) <|
    .step (.handler (.accept (by exact rfl) _ (.spiffe "spiffe://edgion/center") 64 true true)) <|
    .step (.handler (.look (by exact rfl) _)) <|
    .step (.handler (.dispatch (by exact rfl) (by exact rfl))) <|
    .step (.handler (.dispatch (by exact rfl) (by exact rfl))) <|
    .step (.handler (.finish (by exact rfl))) <|
    .step (.caller (.reply (by exact rfl) (by exact rfl) _)) (.refl _),
    .inr (by simp), rfl, rfl⟩

theorem forward_dispatches_at_most_once_moved : ∃ (xs : List ProxyEvent) (s : ProxyCall),
    Run (ProxyStep ⟨30, some "center-a"⟩ "edge-1" getHealth) .start xs s ∧
      s.SecondAttempt ∧ s.enqueued ≠ [] ∧ s.enqueued.length ≤ 1 ∧
      ∀ m ∈ s.enqueued, m.source ≠ .handler .first := by
  obtain ⟨s, hrun, h2, -, hm⟩ := moved_run
  obtain ⟨hlen, hsource⟩ := forward_dispatches_at_most_once hrun
  exact ⟨_, s, hrun, h2, by simp [hm], hlen, hsource h2⟩

end Attempts

section Content

def RpcPhase.request : RpcPhase → Option ForwardHttpRequest
  | .sent request | .looking _ request _ | .dispatching _ request _ => some request
  | .answered _ | .gone => none

/-- Requests and messages are those of the call, with the headers sanitized. -/
structure ProxyCall.Carries (controllerId : String) (operation : ForwardHttpOperation)
    (s : ProxyCall) : Prop where
  requests : ∀ attempt phase, s.rpc attempt = some phase → ∀ r ∈ phase.request,
    r.controllerId = controllerId ∧ r.request = operation.sanitized
  messages : ∀ m ∈ s.enqueued,
    m.controllerId = controllerId ∧ m.operation = operation.sanitized

theorem ProxyCall.Carries.setCaller {c : ForwardPhase} (hs : s.Carries controllerId operation) :
    (s.setCaller c).Carries controllerId operation := ⟨hs.requests, hs.messages⟩

theorem ProxyCall.Carries.setRpc {attempt : Attempt} {new : RpcPhase}
    (hs : s.Carries controllerId operation) (hnew : ∀ r ∈ new.request,
      r.controllerId = controllerId ∧ r.request = operation.sanitized) :
    (s.setRpc attempt new).Carries controllerId operation where
  requests b phase hb := by
    by_cases h : b = attempt
    · subst h
      obtain rfl : new = phase := by simpa using hb
      exact hnew
    · exact hs.requests b phase (by simpa [h] using hb)
  messages := hs.messages

theorem ProxyCall.Carries.dispatched {e : DispatchEvent} {m : HttpProxyMessage}
    (hs : s.Carries controllerId operation)
    (hm : m.controllerId = controllerId ∧ m.operation = operation.sanitized) :
    (s.dispatched e m).Carries controllerId operation where
  requests := hs.requests
  messages m' hm' := by
    by_cases he : e = .accepted
    · simp only [dispatched_enqueued, he, if_true, List.mem_append, List.mem_singleton] at hm'
      rcases hm' with hm' | rfl
      · exact hs.messages m' hm'
      · exact hm
    · exact hs.messages m' (by simpa [he] using hm')

theorem CallerStep.carries (h : CallerStep p controllerId operation s a t)
    (hs : s.Carries controllerId operation) : t.Carries controllerId operation := by
  cases h with
  | dispatch h hd => exact (hs.dispatched ⟨rfl, rfl⟩).setCaller
  | send h =>
    exact (hs.setRpc (by simp [RpcPhase.request, forwardRequest, sanitized_sanitized])).setCaller
  | reply h hr undecodable => exact (hs.setRpc (by simp [RpcPhase.request])).setCaller
  | _ => exact hs.setCaller

theorem accept_request (service : InternalForwardingService) (peer : PeerIdentity)
    (encodedLen : Nat) (accepting decodes : Bool) (request : ForwardHttpRequest) :
    ∀ r ∈ (service.accept peer encodedLen accepting decodes request).request, r = request := by
  unfold InternalForwardingService.accept
  split <;> simp [RpcPhase.request]

theorem forwardFencedLocal_request (service : InternalForwardingService)
    (request : ForwardHttpRequest) (fence : OwnershipFence) (view : Option SessionView) :
    ∀ r ∈ (service.forwardFencedLocal request fence view).request, r = request := by
  unfold InternalForwardingService.forwardFencedLocal
  split <;> simp [RpcPhase.request]

theorem HandlerStep.carries (h : HandlerStep s a t) (hs : s.Carries controllerId operation) :
    t.Carries controllerId operation := by
  cases h with
  | accept h service peer encodedLen accepting decodes =>
    refine hs.setRpc fun r hr => ?_
    rw [accept_request service peer encodedLen accepting decodes _ r hr]
    exact hs.requests _ _ h _ rfl
  | look h view =>
    refine hs.setRpc fun r hr => ?_
    rw [forwardFencedLocal_request _ _ _ view r hr]
    exact hs.requests _ _ h _ rfl
  | @dispatch attempt service request d e d' _ h hd =>
    have hr := hs.requests _ _ h request rfl
    refine (hs.dispatched ⟨hr.1, ?_⟩).setRpc (by simpa [RpcPhase.request] using hr)
    rw [hr.2, sanitized_sanitized]
  | finish h | drop h => exact hs.setRpc (by simp [RpcPhase.request])

/-- Whichever replica puts the request on a stream, it is the same for the controller. -/
theorem run_carries (h : Run (ProxyStep p controllerId operation) .start xs s) :
    s.Carries controllerId operation := by
  refine h.invariant (P := fun s => s.Carries controllerId operation) ?_ ⟨nofun, nofun⟩
  intro s a t hs hst
  cases hst with
  | caller h | handler h => exact h.carries hs

/-- The headers of a request that may leave the replica with it. -/
def ForwardHttpOperation.Passes (operation request : ForwardHttpOperation) : Prop :=
  ∀ h ∈ request.headers, h ∈ operation.headers ∧ asciiLower h.1 ∉ deniedHeaders ∧
    asciiLower h.1 ∉ nominatedHeaders operation.headers

theorem passes_sanitized (operation : ForwardHttpOperation) :
    operation.Passes operation.sanitized := by
  intro h hh
  simpa [ForwardHttpOperation.sanitized, sanitizeHeaders] using hh

/-- Neither a controller nor another replica is ever handed a credential of the client, or a header
for one hop. -/
theorem denied_headers_stay (h : Run (ProxyStep p controllerId operation) .start xs s) :
    (∀ m ∈ s.enqueued, operation.Passes m.operation) ∧ ∀ attempt phase,
      s.rpc attempt = some phase → ∀ r ∈ phase.request, operation.Passes r.request := by
  have hcarries := run_carries h
  constructor
  · intro m hm
    rw [(hcarries.messages m hm).2]
    exact passes_sanitized operation
  · intro attempt phase hphase r hr
    rw [(hcarries.requests attempt phase hphase r hr).2]
    exact passes_sanitized operation

/-- The request is forwarded to the new owner without its `Host` header. -/
theorem denied_headers_stay_moved : ∃ (xs : List ProxyEvent) (s : ProxyCall),
    Run (ProxyStep ⟨30, some "center-a"⟩ "edge-1" getHealth) .start xs s ∧
      getHealth.headers = [("Host", "center")] ∧ (∃ m ∈ s.enqueued, m.operation.headers = []) ∧
      ∀ m ∈ s.enqueued, getHealth.Passes m.operation := by
  obtain ⟨s, hrun, -, -, hm⟩ := moved_run
  exact ⟨_, s, hrun, rfl, by simp [hm], (denied_headers_stay hrun).1⟩

end Content

end EdgionCenter
