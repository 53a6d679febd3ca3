import EdgionCenter.Proxy.AtMostOnce

/-! What becomes of a forwarded request once it is on a controller's stream: the controller carries
it out or refuses it, at any time. A call may give up before it knows. -/
namespace EdgionCenter

open ProxyCall Transition

/-- A call with what the controller did with its messages, by their source: `true` if it carried
the request out. -/
structure Delivery where
  call : ProxyCall
  verdict : DispatchSource → Option Bool

inductive DeliveryEvent
  | proxy (a : ProxyEvent)
  | execute (source : DispatchSource) (applied : Bool)

namespace Delivery

def start : Delivery := ⟨.start, fun _ => none⟩

def Applied (s : Delivery) : Prop := ∃ source, s.verdict source = some true

/-- A response comes after the verdict, and only a request that was not carried out is answered
with anything but success. -/
def Answers (s : Delivery) : ProxyEvent → Prop
  | .dispatch (.responded response) =>
    ∃ applied, s.verdict .caller = some applied ∧ (applied = true → response.isSuccess = true)
  | .handlerDispatch attempt (.responded response) =>
    ∃ applied, s.verdict (.handler attempt) = some applied ∧
      (applied = true → response.isSuccess = true)
  | _ => True

end Delivery

/-- Nothing goes wrong on the way once the request may be on a stream: no cancellation, timeout or
dropped channel while its answer is awaited, no oversized or undecodable answer, and no failure of
the connection or timeout of the whole call while a handler is at work. -/
def ProxyCall.Unbroken (s : ProxyCall) : ProxyEvent → Prop
  | .dispatch e => s.caller = .dispatching .waiting → ∃ response, e = .responded response
  | .handlerDispatch attempt e => ∀ service request,
    s.rpc attempt = some (.dispatching service request .waiting) →
      ∃ response, e = .responded response
  | .handlerFinish attempt => ∀ service request response,
    s.rpc attempt = some (.dispatching service request (.done (.ok response))) →
      response.body.length ≤ service.maxResponseBytes
  | .reply undecodable => undecodable = none
  | .broken _ | .elapse => s.enqueued = [] ∧ rpcPermits s.rpc = 0
  | _ => True

def Delivery.Unbroken (s : Delivery) : DeliveryEvent → Prop
  | .proxy a => s.call.Unbroken a
  | .execute _ _ => True

section Steps

variable (p : ProxyForwarder) (controllerId : String) (operation : ForwardHttpOperation)

inductive DeliveryStep : Delivery → DeliveryEvent → Delivery → Prop
  | proxy {s : Delivery} (h : ProxyStep p controllerId operation s.call a t) (hr : s.Answers a) :
      DeliveryStep s (.proxy a) { s with call := t }
  | execute {s : Delivery} (hm : m ∈ s.call.enqueued)
      (hn : s.verdict m.source = none) (applied : Bool) :
      DeliveryStep s (.execute m.source applied)
        { s with verdict := Function.update s.verdict m.source (some applied) }

end Steps

section Spent

/-- The call has failed, or is about to report that it has. -/
def ForwardPhase.Fails : ForwardPhase → Prop
  | .dispatching (.done (.error _)) | .returned (.error _) => True
  | _ => False

/-- The RPC has failed for good; a stale answer lets the call go on. -/
def RpcPhase.Fails : RpcPhase → Prop
  | .dispatching _ _ (.done (.error _)) => True
  | .answered (.error status) => statusKind status.code ≠ .staleOwnership
  | _ => False

def ForwardPhase.Gives (response : HttpProxyResponse) : ForwardPhase → Prop
  | .dispatching (.done (.ok r)) | .returned (.ok r) => r = response
  | _ => False

def RpcPhase.Gives (response : HttpProxyResponse) : RpcPhase → Prop
  | .dispatching _ _ (.done (.ok r)) | .answered (.ok r) => r = response
  | _ => False

/-- Some part of the call has this response. -/
def ProxyCall.Gives (s : ProxyCall) (response : HttpProxyResponse) : Prop :=
  s.caller.Gives response ∨ ∃ attempt phase, s.rpc attempt = some phase ∧ phase.Gives response

theorem ForwardPhase.Fails.permits {c : ForwardPhase} (h : c.Fails) : c.permits = 0 := by
  rcases c with _ | _ | (_ | _ | _) | _ | _ | _ | _ <;>
    first | rfl | exact h.elim

theorem RpcPhase.Fails.permits {r : RpcPhase} (h : r.Fails) : r.permits = 0 := by
  rcases r with _ | _ | ⟨_, _, _ | _ | _⟩ | (status | response) | _
  · exact h.elim
  · exact h.elim
  · exact h.elim
  · exact h.elim
  · rfl
  · exact if_neg h
  · rfl
  · rfl

end Spent

/-- A request that failed has not been put on a stream and will not be. -/
structure ProxyCall.Spent (s : ProxyCall) : Prop where
  once : s.permits ≤ 1
  caller : s.caller.Fails → s.permits = 0
  rpc : ∀ attempt phase, s.rpc attempt = some phase → phase.Fails → s.permits = 0

section Step

variable {p : ProxyForwarder} {controllerId : String} {operation : ForwardHttpOperation}
  {s t : ProxyCall} {a : ProxyEvent}

theorem ProxyCall.start_spent : start.Spent where
  once := by simp [start, permits, ForwardPhase.permits, rpcPermits]
  caller h := h.elim
  rpc attempt phase h := by simp [start] at h

variable {c : ForwardPhase} {attempt : Attempt} {new old : RpcPhase} {e : DispatchEvent}

/-- The permit of a caller that ends without a message is gone. -/
theorem setCaller_permits_zero (hs : s.permits ≤ 1) (hold : s.caller.permits = 1)
    (hnew : c.permits = 0) : (s.setCaller c).permits = 0 := by
  simp only [ProxyCall.permits, setCaller_caller, setCaller_rpc,
    setCaller_enqueued] at hs ⊢
  omega

theorem setRpc_permits_zero (hs : s.permits ≤ 1) (h : s.rpc attempt = some old)
    (hold : old.permits = 1) (hnew : new.permits = 0) : (s.setRpc attempt new).permits = 0 := by
  have := rpcPermits_update (some new) h
  simp only [ProxyCall.permits, setRpc_caller, setRpc_rpc,
    setRpc_enqueued, Option.elim_some, hold, hnew] at hs this ⊢
  omega

/-- Permits are only ever used up, so it is enough to look at what newly failed. -/
theorem ProxyCall.Spent.of_le (hs : s.Spent) (hle : t.permits ≤ s.permits)
    (hc : t.caller.Fails → s.caller.Fails ∨ t.permits = 0)
    (hr : ∀ attempt phase, t.rpc attempt = some phase → phase.Fails →
      s.rpc attempt = some phase ∨ t.permits = 0) : t.Spent := by
  refine ⟨hle.trans hs.once, fun hf => ?_, fun attempt phase h hf => ?_⟩
  · rcases hc hf with hold | hzero
    · have := hs.caller hold
      omega
    · exact hzero
  · rcases hr attempt phase h hf with hold | hzero
    · have := hs.rpc attempt phase hold hf
      omega
    · exact hzero

theorem ProxyCall.Spent.setCaller (hs : s.Spent) (hle : c.permits ≤ s.caller.permits)
    (hc : c.Fails → s.caller.Fails ∨ s.caller.permits = 1) : (s.setCaller c).Spent :=
  hs.of_le (setCaller_permits hle)
    (fun hf => (hc hf).imp_right fun hold => setCaller_permits_zero hs.once hold hf.permits)
    fun _ _ h _ => .inl h

theorem rpc_setRpc {b : Attempt} {phase : RpcPhase} (h : (s.setRpc attempt new).rpc b = some phase) :
    s.rpc b = some phase ∨ b = attempt ∧ new = phase := by
  by_cases hb : b = attempt
  · subst hb
    exact .inr ⟨rfl, by simpa using h⟩
  · exact .inl (by simpa [hb] using h)

theorem ProxyCall.Spent.setRpc (hs : s.Spent) (h : s.rpc attempt = some old)
    (hle : new.permits ≤ old.permits) (hr : new.Fails → s.permits = 0 ∨ old.permits = 1) :
    (s.setRpc attempt new).Spent := by
  have hmono := setRpc_permits h hle
  refine hs.of_le hmono .inl fun b phase hb hf => ?_
  rcases rpc_setRpc hb with hold | ⟨rfl, rfl⟩
  · exact .inl hold
  · refine .inr ?_
    rcases hr hf with hzero | hone
    · omega
    · exact setRpc_permits_zero hs.once h hone hf.permits

/-- What a dispatch comes to: it fails before the message is on the stream, or awaits the answer. -/
theorem onDispatch_cases {d d' : DispatchPhase} (h : p.onDispatch controllerId d e = some d')
    (hok : d = .waiting → ∃ response, e = .responded response) :
    (d = .sending ∧ e ≠ .accepted ∧ ∃ error, d' = .done (.error error)) ∨
      (d = .sending ∧ e = .accepted ∧ d' = .waiting) ∨
      ∃ response, d = .waiting ∧ e = .responded response ∧ d' = .done (.ok response) := by
  cases d with
  | sending =>
    cases e <;> simp [ProxyForwarder.onDispatch] at h <;> subst h <;> simp
  | waiting =>
    obtain ⟨response, rfl⟩ := hok rfl
    simp only [ProxyForwarder.onDispatch, Option.some.injEq] at h
    exact .inr (.inr ⟨response, rfl, rfl, h.symm⟩)
  | done r => cases e <;> simp [ProxyForwarder.onDispatch] at h

theorem dispatched_of_ne {m : HttpProxyMessage} (h : e ≠ .accepted) : s.dispatched e m = s := by
  simp [ProxyCall.dispatched, h]

theorem CallerStep.spent (h : CallerStep p controllerId operation s a t) (hs : s.Spent)
    (hok : s.Unbroken a) : t.Spent := by
  have hle := h.permits
  have hone : ∀ {c d}, s.caller = c → c.permits = 1 → (s.setCaller d).Spent := by
    rintro c d rfl hc
    exact hs.setCaller (by rw [hc]; exact ForwardPhase.permits_le_one _) fun _ => .inr hc
  have hzero : ∀ {c : ForwardPhase}, c.permits = 0 → s.enqueued = [] ∧ rpcPermits s.rpc = 0 →
      (s.setCaller c).permits = 0 := by
    intro c hc hn
    simp [ProxyCall.permits, hc, hn]
  cases h with
  | check h view | look h view => exact hone h rfl
  | @dispatch d e d' _ h hd =>
    have hwait : d = .waiting → ∃ response, e = .responded response := by
      rintro rfl
      exact hok h
    rcases onDispatch_cases hd hwait with
      ⟨rfl, he, error, rfl⟩ | ⟨rfl, rfl, rfl⟩ | ⟨r, rfl, rfl, rfl⟩
    · rw [dispatched_of_ne he]
      exact hone h rfl
    · exact hs.of_le hle (fun hf => hf.elim) fun _ _ h _ => .inl h
    · rw [dispatched_of_ne (by simp)]
      exact hs.setCaller (Nat.zero_le _) fun hf => hf.elim
  | @finish r _ h =>
    refine hs.setCaller (by simp [ForwardPhase.permits]) fun hf => .inl ?_
    rw [h]
    cases r with
    | error e => trivial
    | ok response => exact hf.elim
  | locate h hp found | connectFailed h message => exact hone h rfl
  | @send attempt route _ h =>
    refine hs.of_le hle (fun hf => hf.elim) fun b phase hb hf => ?_
    rcases rpc_setRpc hb with hold | ⟨rfl, rfl⟩
    · exact .inl hold
    · exact hf.elim
  | @reply attempt route r _ h hr undecodable =>
    obtain rfl : undecodable = none := hok
    refine hs.of_le hle (fun hf => .inr ?_) fun b phase hb hf => ?_
    · cases r with
      | ok response => exact hf.elim
      | error status =>
        by_cases hk : statusKind status.code = .staleOwnership
        · -- The permit that came back is lost with the second attempt.
          have hstale : RpcPhase.permits (.answered (.error status)) = 1 := if_pos hk
          have hnone : RpcPhase.permits .gone = 0 := rfl
          have hgone := setRpc_permits_zero hs.once hr hstale hnone
          have hcaller := hf.permits
          simp only [ProxyCall.permits, setCaller_caller, setCaller_rpc,
            setCaller_enqueued] at hgone hcaller ⊢
          omega
        · have := hs.rpc attempt _ hr hk
          omega
    · rcases rpc_setRpc hb with hold | ⟨rfl, rfl⟩
      · exact .inl hold
      · exact hf.elim
  | @broken attempt route status _ h hf hn =>
    have hk : (fromStatus status).kind ≠ .staleOwnership := statusKind_ne_stale hf hn
    have hp : (afterError attempt route (fromStatus status)).permits = 0 := by
      have := afterError_permits attempt route (fromStatus status)
      simpa [hk] using this
    exact hs.of_le hle (fun _ => .inr (hzero hp hok)) fun _ _ h _ => .inl h
  | elapse h => exact hs.of_le hle (fun _ => .inr (hzero rfl hok)) fun _ _ h _ => .inl h

theorem HandlerStep.spent (h : HandlerStep s a t) (hs : s.Spent) (hok : s.Unbroken a) :
    t.Spent := by
  have hle := h.permits
  cases h with
  | accept h service peer encodedLen accepting decodes =>
    exact hs.setRpc h (RpcPhase.permits_le_one _) fun _ => .inr rfl
  | look h view => exact hs.setRpc h (RpcPhase.permits_le_one _) fun _ => .inr rfl
  | @dispatch attempt service request d e d' _ h hd =>
    have hwait : d = .waiting → ∃ response, e = .responded response := by
      rintro rfl
      exact hok service request h
    rcases onDispatch_cases hd hwait with
      ⟨rfl, he, error, rfl⟩ | ⟨rfl, rfl, rfl⟩ | ⟨r, rfl, rfl, rfl⟩
    · rw [dispatched_of_ne he]
      exact hs.setRpc h (Nat.zero_le _) fun _ => .inr rfl
    · refine hs.of_le hle .inl fun b phase hb hf => ?_
      rcases rpc_setRpc hb with hold | ⟨rfl, rfl⟩
      · exact .inl hold
      · exact hf.elim
    · rw [dispatched_of_ne (by simp)]
      exact hs.setRpc h (Nat.zero_le _) fun hf => hf.elim
  | @finish attempt service request r _ h =>
    refine hs.setRpc h (by simp [RpcPhase.permits, answer_permits]) fun hf => .inl ?_
    cases r with
    | error e => exact hs.rpc attempt _ h trivial
    | ok response =>
      have hsize := hok service request response h
      rw [InternalForwardingService.answer, if_neg (by omega)] at hf
      exact hf.elim
  | @drop attempt _ h =>
    obtain ⟨old, ho⟩ := Option.ne_none_iff_exists'.mp h
    exact hs.setRpc ho (Nat.zero_le _) fun hf => hf.elim

theorem ProxyStep.spent (h : ProxyStep p controllerId operation s a t) (hs : s.Spent)
    (hok : s.Unbroken a) : t.Spent := by
  cases h with
  | caller h | handler h => exact h.spent hs hok

end Step

section Gives

variable {p : ProxyForwarder} {controllerId : String} {operation : ForwardHttpOperation}
  {s t : ProxyCall} {a : ProxyEvent} {response : HttpProxyResponse} {view : Option SessionView}
  {attempt : Attempt} {phase : RpcPhase} {request : ForwardHttpRequest}
  {service : InternalForwardingService}

theorem afterCheck_gives : ¬ (p.afterCheck controllerId view).Gives response := by
  unfold ProxyForwarder.afterCheck
  split
  · exact id
  · split
    · exact id
    · split <;> exact id

theorem forwardLocal_gives : ¬ (ProxyForwarder.forwardLocal controllerId view).Gives response := by
  cases view with
  | none => exact id
  | some view => cases h : view.streamTx <;> simp [ProxyForwarder.forwardLocal,
      ProxyForwarder.dispatchToSession, h, ForwardPhase.Gives]

theorem afterError_gives {route : ControllerOwnerRoute} {error : ForwardError} :
    ¬ (afterError attempt route error).Gives response := by
  unfold afterError
  split <;> exact id

theorem afterLocate_gives {localHolder : String} {previous : Option ControllerOwnerRoute}
    {found : CoreResult (Option ControllerOwnerRoute)} :
    ¬ (afterLocate localHolder controllerId attempt previous found).Gives response := by
  unfold afterLocate
  split <;> exact id

theorem CallerStep.gives (h : CallerStep p controllerId operation s a t)
    (hg : t.caller.Gives response) : s.Gives response ∨ a = .dispatch (.responded response) := by
  cases h with
  | check h view => exact absurd hg afterCheck_gives
  | look h view => exact absurd hg forwardLocal_gives
  | @dispatch d e d' _ h hd =>
    refine .inr ?_
    cases d <;> cases e <;> simp [ProxyForwarder.onDispatch] at hd <;> subst hd <;>
      simp_all [ForwardPhase.Gives]
  | @finish r _ h =>
    refine .inl (.inl ?_)
    rw [h]
    cases r with
    | error e => exact hg.elim
    | ok r => exact hg
  | locate h hp found => exact absurd hg afterLocate_gives
  | connectFailed h message => exact absurd hg afterError_gives
  | send h => exact hg.elim
  | @reply attempt route r _ h hr undecodable =>
    refine .inl (.inr ⟨attempt, _, hr, ?_⟩)
    cases r with
    | error status => exact absurd hg afterError_gives
    | ok r =>
      cases undecodable with
      | some message => exact absurd hg afterError_gives
      | none => exact hg
  | broken h hf hn => exact absurd hg afterError_gives
  | elapse h => exact hg.elim

/-- The RPCs of a call are only sent and forgotten by it. -/
theorem CallerStep.rpc_gives (h : CallerStep p controllerId operation s a t)
    (hr : t.rpc attempt = some phase) (hg : phase.Gives response) : s.rpc attempt = some phase := by
  cases h with
  | send h | reply h hrpc undecodable =>
    rcases rpc_setRpc hr with hold | ⟨rfl, rfl⟩
    · exact hold
    · exact hg.elim
  | _ => exact hr

theorem accept_gives {peer : PeerIdentity} {encodedLen : Nat} {accepting decodes : Bool} :
    ¬ (service.accept peer encodedLen accepting decodes request).Gives response := by
  unfold InternalForwardingService.accept
  split <;> exact id

theorem forwardFencedLocal_gives {fence : OwnershipFence} :
    ¬ (service.forwardFencedLocal request fence view).Gives response := by
  unfold InternalForwardingService.forwardFencedLocal
  split
  · exact id
  · unfold ProxyForwarder.dispatchToSession
    split <;> exact id

theorem HandlerStep.gives (h : HandlerStep s a t) (hr : t.rpc attempt = some phase)
    (hg : phase.Gives response) :
    s.Gives response ∨ a = .handlerDispatch attempt (.responded response) := by
  have hold : ∀ {phase}, s.rpc attempt = some phase → phase.Gives response → s.Gives response :=
    fun h hg => .inr ⟨attempt, _, h, hg⟩
  cases h with
  | accept h service peer encodedLen accepting decodes =>
    rcases rpc_setRpc hr with hr | ⟨rfl, rfl⟩
    · exact .inl (hold hr hg)
    · exact absurd hg accept_gives
  | look h view =>
    rcases rpc_setRpc hr with hr | ⟨rfl, rfl⟩
    · exact .inl (hold hr hg)
    · exact absurd hg forwardFencedLocal_gives
  | @dispatch b service request d e d' _ h hd =>
    rcases rpc_setRpc hr with hr | ⟨rfl, rfl⟩
    · exact .inl (hold hr hg)
    · refine .inr ?_
      cases d <;> cases e <;> simp [ProxyForwarder.onDispatch] at hd <;> subst hd <;>
        simp_all [RpcPhase.Gives]
  | @finish b service request r _ h =>
    rcases rpc_setRpc hr with hr | ⟨rfl, rfl⟩
    · exact .inl (hold hr hg)
    · refine .inl (hold h ?_)
      cases r with
      | error e => exact hg.elim
      | ok r =>
        by_cases hsize : service.maxResponseBytes < r.body.length
        · simp [InternalForwardingService.answer, hsize, RpcPhase.Gives] at hg
        · simpa [InternalForwardingService.answer, hsize, RpcPhase.Gives] using hg
  | drop h =>
    rcases rpc_setRpc hr with hr | ⟨rfl, rfl⟩
    · exact .inl (hold hr hg)
    · exact hg.elim

/-- A response is the answer to a dispatch. -/
theorem ProxyStep.gives (h : ProxyStep p controllerId operation s a t) (hg : t.Gives response) :
    s.Gives response ∨ a = .dispatch (.responded response) ∨
      ∃ attempt, a = .handlerDispatch attempt (.responded response) := by
  cases h with
  | caller h =>
    rcases hg with hg | ⟨attempt, phase, hr, hg⟩
    · exact (h.gives hg).imp_right .inl
    · exact .inl (.inr ⟨attempt, phase, h.rpc_gives hr hg, hg⟩)
  | handler h =>
    rcases hg with hg | ⟨attempt, phase, hr, hg⟩
    · refine .inl (.inl ?_)
      cases h <;> exact hg
    · exact (h.gives hr hg).imp_right fun ha => .inr ⟨attempt, ha⟩

theorem ProxyStep.enqueued_subset (h : ProxyStep p controllerId operation s a t) :
    s.enqueued ⊆ t.enqueued := by
  have hsub : ∀ {e m}, s.enqueued ⊆ (s.dispatched e m).enqueued := by
    intro e m x hx
    by_cases he : e = .accepted <;> simp [he, hx]
  cases h with
  | caller h =>
    cases h with
    | dispatch h hd => exact hsub
    | _ => exact List.Subset.refl _
  | handler h =>
    cases h with
    | dispatch h hd => exact hsub
    | _ => exact List.Subset.refl _

/-- Nothing happens to a call that has returned. -/
theorem ProxyStep.returned {result : Except (StatusCode × String) HttpProxyResponse}
    (h : ProxyStep p controllerId operation s a t) (hr : s.caller = .returned result) :
    t.caller = .returned result := by
  cases h with
  | caller h =>
    cases h with
    | elapse h => exact absurd hr (h result)
    | check h | look h | dispatch h | finish h | locate h | connectFailed h | send h | reply h
    | broken h =>
      rw [hr] at h
      cases h
  | handler h => cases h <;> exact hr

end Gives

namespace Delivery

variable {p : ProxyForwarder} {controllerId : String} {operation : ForwardHttpOperation}
  {s t : Delivery} {a : DeliveryEvent}

def Refused (s : Delivery) : Prop :=
  ∃ m ∈ s.call.enqueued, s.verdict m.source = some false

/-- Verdicts are on messages, and bad news is about a request that was not carried out. -/
structure Sound (s : Delivery) : Prop where
  spent : s.call.Spent
  sent : ∀ source applied, s.verdict source = some applied →
    ∃ m ∈ s.call.enqueued, m.source = source
  gives : ∀ response, s.call.Gives response → response.isSuccess = false → s.Refused

theorem start_sound : start.Sound where
  spent := start_spent
  sent _ _ h := by cases h
  gives response hg := by
    rcases hg with hg | ⟨attempt, phase, hr, -⟩
    · exact hg.elim
    · cases hr

theorem Sound.refused_of_verdict (hs : s.Sound) {source : DispatchSource} {applied : Bool}
    {response : HttpProxyResponse} (hv : s.verdict source = some applied)
    (ha : applied = true → response.isSuccess = true) (hr : response.isSuccess = false) :
    s.Refused := by
  obtain ⟨m, hm, rfl⟩ := hs.sent source applied hv
  cases applied with
  | true => simp [ha rfl] at hr
  | false => exact ⟨m, hm, hv⟩

theorem sound_step (h : DeliveryStep p controllerId operation s a t) (hs : s.Sound)
    (hok : s.Unbroken a) : t.Sound := by
  cases h with
  | @proxy a t _ h hr =>
    have hsub := h.enqueued_subset
    have hkeep : s.Refused → Refused { s with call := t } := fun ⟨m, hm, hv⟩ => ⟨m, hsub hm, hv⟩
    refine ⟨h.spent hs.spent hok, fun source applied hv => ?_, fun response hg hfail => hkeep ?_⟩
    · obtain ⟨m, hm, hsrc⟩ := hs.sent source applied hv
      exact ⟨m, hsub hm, hsrc⟩
    · rcases h.gives hg with hold | rfl | ⟨attempt, rfl⟩
      · exact hs.gives response hold hfail
      · obtain ⟨applied, hv, ha⟩ := hr
        exact hs.refused_of_verdict hv ha hfail
      · obtain ⟨applied, hv, ha⟩ := hr
        exact hs.refused_of_verdict hv ha hfail
  | @execute m _ hm hn applied =>
    refine ⟨hs.spent, fun source b hv => ?_, fun response hg hfail => ?_⟩
    · by_cases hsrc : source = m.source
      · exact ⟨m, hm, hsrc.symm⟩
      · exact hs.sent source b (by simpa [hsrc] using hv)
    · obtain ⟨m', hm', hv'⟩ := hs.gives response hg hfail
      have hne : m'.source ≠ m.source := by
        intro he
        rw [he, hn] at hv'
        cases hv'
      exact ⟨m', hm', by simpa [hne] using hv'⟩

/-- The call has returned an error, or an answer that is not a success. -/
def Negative (result : Except (StatusCode × String) HttpProxyResponse) : Prop :=
  ∀ response, result = .ok response → response.isSuccess = false

theorem Sound.not_applied {result : Except (StatusCode × String) HttpProxyResponse} (hs : s.Sound)
    (hr : s.call.caller = .returned result) (hneg : Negative result) : ¬ s.Applied := by
  rintro ⟨source, hv⟩
  obtain ⟨m, hm, rfl⟩ := hs.sent source true hv
  cases result with
  | error e =>
    have hzero := hs.spent.caller (by rw [hr]; trivial)
    have hnil : s.call.enqueued = [] := by
      unfold ProxyCall.permits at hzero
      exact List.eq_nil_of_length_eq_zero (by omega)
    rw [hnil] at hm
    cases hm
  | ok response =>
    obtain ⟨m', hm', hv'⟩ := hs.gives response (.inl (by rw [hr]; rfl)) (hneg response rfl)
    have honce := hs.spent.once
    unfold ProxyCall.permits at honce
    obtain ⟨x, hx⟩ : ∃ x, s.call.enqueued = [x] := by
      refine List.length_eq_one_iff.mp ?_
      have := List.length_pos_of_mem hm
      omega
    rw [hx, List.mem_singleton] at hm hm'
    subst hm hm'
    rw [hv] at hv'
    cases hv'

end Delivery

end EdgionCenter
