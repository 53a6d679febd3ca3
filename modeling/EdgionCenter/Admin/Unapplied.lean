import EdgionCenter.Admin.Convergence
import EdgionCenter.Admin.Reload
import EdgionCenter.Proxy.Delivery

/-! What a failed write or reload says about the controller: whether its request may still be
carried out. -/
namespace EdgionCenter

open Delivery Interaction Transition

/-- The request that a call has sent through the proxy. -/
structure Errand where
  controllerId : String
  operation : ForwardHttpOperation
  delivery : Delivery

section Shared

variable (p : ProxyForwarder) (Ok : Delivery → DeliveryEvent → Prop)

/-- Handlers and the controller go on while the call does something else, or has returned. -/
inductive ErrandOthers : Option Errand → Option Errand → Prop
  | deliver {e : Errand} (h : Guarded (DeliveryStep p e.controllerId e.operation) Ok e.delivery a s) :
      ErrandOthers (some e) (some { e with delivery := s })

/-- A dispatch is served when the proxy returns; whatever else is asked is answered in any way. -/
inductive ErrandServe : Option Errand → (c : AdminCall) → c.Reply → Option Errand → Prop
  | dispatch {controllerId : String} (hrun : Run (Guarded (DeliveryStep p controllerId operation) Ok) .start xs s)
      (hr : s.call.caller = .returned result) :
      ErrandServe none (.dispatch controllerId operation) result
        (some ⟨controllerId, operation, s⟩)
  | other {w : Option Errand} (hc : ∀ controllerId operation, c ≠ .dispatch controllerId operation) :
      ErrandServe w c reply w

def errandShared : Shared AdminCall AdminCall.Reply (Option Errand) :=
  ⟨ErrandOthers p Ok, ErrandServe p Ok⟩

end Shared

/-- The request was not carried out. -/
def Unapplied (w : Option Errand) : Prop := ∀ e, w = some e → ¬ e.delivery.Applied

section Ensures

variable {p : ProxyForwarder} {w w' : Option Errand}

/-- The proxy has returned `result`, and only what is sound can follow. -/
def Answered (result : Except (StatusCode × String) HttpProxyResponse) (w : Option Errand) : Prop :=
  ∃ e, w = some e ∧ e.delivery.Sound ∧ e.delivery.call.caller = .returned result

variable {result : Except (StatusCode × String) HttpProxyResponse}

theorem Answered.unapplied (h : Answered result w) (hneg : Negative result) : Unapplied w := by
  obtain ⟨e, rfl, hs, hr⟩ := h
  intro e' he
  cases he
  exact hs.not_applied hr hneg

theorem stable_none : Stable (errandShared p Unbroken) (· = none) := by
  rintro w w' ⟨_⟩ h
  cases h

theorem stable_returned (result : Except (StatusCode × String) HttpProxyResponse) :
    Stable (errandShared p Unbroken) (Answered result) := by
  rintro w w' hw ⟨e, rfl, hs, hr⟩
  cases hw with
  | deliver h =>
    refine ⟨_, rfl, Delivery.sound_step h.1 hs h.2, ?_⟩
    cases h.1 with
    | proxy hstep _ => exact hstep.returned hr
    | execute _ _ _ => exact hr

variable {controllerId : String} {operation : ForwardHttpOperation} {c : AdminCall}

theorem serve_dispatch (h : ErrandServe p Unbroken w (.dispatch controllerId operation) result w') :
    Answered result w' := by
  cases h with
  | dispatch hrun hr =>
    exact ⟨_, rfl, hrun.invariant (fun _ _ _ hs hst => Delivery.sound_step hst.1 hs hst.2)
      Delivery.start_sound, hr⟩
  | other hc => exact absurd rfl (hc _ _)

theorem serve_other {reply : c.Reply}
    (hc : ∀ controllerId operation, c ≠ .dispatch controllerId operation)
    (h : ErrandServe p Unbroken w c reply w') : w = w' := by
  cases h with
  | dispatch => exact absurd rfl (hc _ _)
  | other => rfl

variable {α : Type} {post : Option Errand → α → Prop}

/-- A call before the dispatch leaves nothing behind. -/
theorem ensures_before {f : c.Reply → AdminRun α}
    (hc : ∀ controllerId operation, c ≠ .dispatch controllerId operation)
    (h : ∀ reply, Ensures (errandShared p Unbroken) (fun _ => True) (f reply) post none) :
    Ensures (errandShared p Unbroken) (fun _ => True) (ask c >>= f) post none := by
  refine ensures_ask stable_none rfl (fun _ _ => trivial) fun w hw reply w' hs => ?_
  subst hw
  obtain rfl := serve_other hc hs
  exact h reply

theorem ensures_dispatch {f : Except (StatusCode × String) HttpProxyResponse → AdminRun α}
    (h : ∀ result w, Answered result w →
      Ensures (errandShared p Unbroken) (fun _ => True) (f result) post w) :
    Ensures (errandShared p Unbroken) (fun _ => True)
      (AdminRun.dispatch controllerId operation >>= f) post none := by
  refine ensures_ask stable_none rfl (fun _ _ => trivial) fun w hw result w' hs => ?_
  exact h result w' (serve_dispatch hs)

variable {a : α}

/-- Nothing was sent, so nothing will be carried out. -/
theorem ensures_nothing (h : post none a) :
    Ensures (errandShared p Unbroken) (fun _ => True) (ret a) post none := by
  refine ensures_ret stable_none rfl (fun _ _ => trivial) ?_
  rintro w rfl
  exact h

theorem ensures_returned (hw : Answered result w) (hneg : Negative result)
    (h : ∀ w, Unapplied w → post w a) :
    Ensures (errandShared p Unbroken) (fun _ => True) (ret a) post w :=
  ensures_ret (stable_returned result) hw (fun _ _ => trivial) fun w hr => h w (hr.unapplied hneg)

end Ensures

section Write

variable [Wire] {p : ProxyForwarder} {controllerId ns name : String}
  {mutate : Value → Except String Value} {predicate : Value → Bool}

/-- The outcomes documented as nothing applied. -/
def OutcomeState.Void (state : OutcomeState) : Prop := state = .failed ∨ state = .conflict

def NotVoid (outcome : WriteOutcome) : Prop := ¬ outcome.state.Void

variable {outcome : WriteOutcome} {precondition : String}

omit [Wire] in
theorem judge_notVoid {elapsed : Nat} {seen : Option Value}
    (h : judge controllerId predicate precondition elapsed seen = some outcome) :
    NotVoid outcome := by
  cases seen with
  | none => cases h
  | some observed =>
    simp only [judge] at h
    split at h
    · obtain rfl := Option.some.inj h
      split <;> rintro (hs | hs) <;> cases hs
    · cases h

omit [Wire] in
theorem poll_returns (precondition : String) (elapsed : Nat) :
    Returns NotVoid (poll controllerId ns name predicate precondition elapsed) := by
  fun_induction poll controllerId ns name predicate precondition elapsed with
  | case1 elapsed ih =>
    refine returns_ask fun late => returns_ask fun seen => ?_
    cases hj : judge controllerId predicate precondition
        (elapsed + convergencePollInterval + late) seen with
    | some outcome => exact judge_notVoid hj
    | none =>
      by_cases hb : convergenceBudget ≤ elapsed + convergencePollInterval + late
      · simp only [hb, ↓reduceDIte]
        rintro (hs | hs) <;> cases hs
      · simp only [hb, ↓reduceDIte]
        exact ih late hb

theorem refusal_negative {result : Except (StatusCode × String) HttpProxyResponse}
    (h : refusal controllerId precondition result = some outcome) : Negative result := by
  rintro response rfl
  simp only [refusal] at h
  split at h
  next hs => simp [HttpProxyResponse.isSuccess, hs]
  next =>
    split at h
    · cases h
    next hs => simpa using hs

/-- What a void outcome of a write says. -/
def VoidUnapplied (w : Option Errand) (outcome : WriteOutcome) : Prop :=
  outcome.state.Void → Unapplied w

omit [Wire] in
theorem unapplied_none : Unapplied none := fun _ h => by cases h

theorem ensures_sendWrite_void {body : List UInt8} :
    Ensures (errandShared p Unbroken) (fun _ => True)
      (sendWrite controllerId ns name predicate precondition body) VoidUnapplied none := by
  refine ensures_dispatch fun result w hw => ?_
  cases hr : refusal controllerId precondition result with
  | some outcome => exact ensures_returned hw (refusal_negative hr) fun _ hu _ => hu
  | none =>
    refine Returns.ensures (Q := NotVoid) ?_ (fun _ => trivial) fun _ _ hn hv => absurd hv hn
    refine returns_ask fun held => ?_
    cases held with
    | true => exact poll_returns precondition 0
    | false => rintro (hs | hs) <;> cases hs

theorem ensures_writeBack_void {document : Value} {viaFallbackRead : Bool} :
    Ensures (errandShared p Unbroken) (fun _ => True)
      (writeBack controllerId ns name mutate predicate document viaFallbackRead) VoidUnapplied
      none := by
  have hnothing : ∀ outcome : WriteOutcome, Ensures (errandShared p Unbroken)
      (fun _ => True) (ret outcome) VoidUnapplied none := fun outcome =>
    ensures_nothing fun _ => unapplied_none
  unfold writeBack
  split
  · exact hnothing _
  · split
    · exact hnothing _
    · split
      · exact hnothing _
      · split
        · exact hnothing _
        · exact ensures_sendWrite_void

theorem ensures_writeConfigData_void : Ensures (errandShared p Unbroken) (fun _ => True)
      (writeConfigData controllerId ns name mutate predicate) VoidUnapplied none := by
  refine ensures_before (by simp) fun cached => ?_
  cases cached with
  | some cached => exact ensures_writeBack_void
  | none =>
    refine ensures_before (by simp) fun held => ?_
    cases held with
    | true => exact ensures_nothing fun _ => unapplied_none
    | false =>
      refine ensures_before (by simp) fun reply => ?_
      cases hd : fallbackDocument reply with
      | error reason => exact ensures_nothing fun _ => unapplied_none
      | ok document => exact ensures_writeBack_void

end Write

section Reload

variable [Wire] {p : ProxyForwarder} {controllerId : String}

/-- A reload that was refused, or of which it is said that it never reached the controller. -/
def ReloadVoid (result : Except (StatusCode × String) ReloadOutcome) : Prop :=
  ∀ outcome, result = .ok outcome → outcome.state.Void

omit [Wire] in
theorem awaitReload_returns (baseline : String) (elapsed : Nat) :
    Returns (fun outcome => ¬ outcome.state.Void) (awaitReload controllerId baseline elapsed) := by
  fun_induction awaitReload controllerId baseline elapsed with
  | case1 elapsed ih =>
    refine returns_ask fun observed => returns_ask fun passed => ?_
    cases hobs : observed.filter fun id => id ≠ baseline with
    | some observed => rintro (hs | hs) <;> cases hs
    | none =>
      by_cases hb : reloadBudget ≤ elapsed + passed
      · simp only [hb, ↓reduceDIte]
        rintro (hs | hs) <;> cases hs
      · simp only [hb, ↓reduceDIte]
        exact returns_ask fun late => ih passed hb late

omit [Wire] in
theorem observeReload_returns (baseline : Option String) :
    Returns (fun outcome => ¬ outcome.state.Void) (observeReload controllerId baseline) := by
  refine returns_ask fun held => ?_
  cases held with
  | false => rintro (hs | hs) <;> cases hs
  | true =>
    cases baseline with
    | none => rintro (hs | hs) <;> cases hs
    | some baseline => exact awaitReload_returns baseline 0

theorem reloadRefusal_negative {outcome : ReloadOutcome} {response : HttpProxyResponse}
    (h : reloadRefusal controllerId response = some outcome) : Negative (.ok response) := by
  intro r hr
  obtain rfl := Except.ok.inj hr
  simp only [reloadRefusal] at h
  split at h
  next hs => simp [HttpProxyResponse.isSuccess, hs]
  next =>
    split at h
    next hs => simp [HttpProxyResponse.isSuccess, hs]
    next =>
      split at h
      · cases h
      next hs => simpa using hs

theorem ensures_reloadController_void :
    Ensures (errandShared p Unbroken) (fun _ => True) (reloadController controllerId)
      (fun w result => ReloadVoid result → Unapplied w) none := by
  refine ensures_before (by simp) fun baseline => ensures_dispatch fun result w hw => ?_
  cases result with
  | error e => exact ensures_returned hw (fun _ h => by cases h) fun _ hu _ => hu
  | ok response =>
    cases hr : reloadRefusal controllerId response with
    | some outcome =>
      simp only [hr]
      exact ensures_returned hw (reloadRefusal_negative hr) fun _ hu _ => hu
    | none =>
      simp only [hr]
      refine Returns.ensures (Q := fun result => ¬ ReloadVoid result) ?_ (fun _ => trivial)
        fun _ _ hn hv => absurd hv hn
      exact returns_bind (observeReload_returns baseline) fun outcome ho hv => ho (hv outcome rfl)

end Reload

section Unapplied

variable [Wire]

/-- If nothing breaks once a request may be on a stream, a write that is reported as failed or
conflicting, and a reload that is refused or reported as an error, is never carried out. -/
theorem void_never_applied (p : ProxyForwarder) (controllerId ns name : String)
    (mutate : Value → Except String Value) (predicate : Value → Bool) :
    (∀ w outcome, Relation.ReflTransGen (Step (errandShared p Delivery.Unbroken))
        (writeConfigData controllerId ns name mutate predicate, none) (ret outcome, w) →
      outcome.state.Void → Unapplied w) ∧
    ∀ w result, Relation.ReflTransGen (Step (errandShared p Delivery.Unbroken))
        (reloadController controllerId, none) (ret result, w) →
      ReloadVoid result → Unapplied w :=
  ⟨fun _ _ hrun => (ensures_writeConfigData_void.of_run hrun).of_ret,
    fun _ _ hrun => (ensures_reloadController_void.of_run hrun).of_ret⟩

end Unapplied

section Runs

/-- A replica on its own, with a session of the controller. -/
def soleProxy : ProxyForwarder := ⟨25, none⟩

def localView : SessionView := ⟨0, true, none⟩

def conflictResponse : HttpProxyResponse := ⟨409, [], []⟩

variable (controllerId : String) (operation : ForwardHttpOperation)

/-- The controller refuses the request. -/
theorem refused_delivery_run : ∃ xs s,
    Run (Guarded (DeliveryStep soleProxy controllerId operation) Unbroken) .start xs s ∧
      s.call.caller = .returned (.ok conflictResponse) := by
  let message : HttpProxyMessage := ⟨.caller, controllerId, operation.sanitized⟩
  refine ⟨_, _, .step ⟨.proxy (.caller (.check rfl (some localView))) trivial, trivial⟩ <|
    .step ⟨.proxy (.caller (.look rfl (some localView))) trivial, trivial⟩ <|
    .step ⟨.proxy (.caller (.dispatch (d := .sending) (e := .accepted) rfl rfl)) trivial,
      fun h => by cases h⟩ <|
    .step ⟨.execute (m := message) (by simp [message]) rfl false, trivial⟩ <|
    .step ⟨.proxy (.caller (.dispatch (d := .waiting) (e := .responded conflictResponse) rfl rfl))
      ⟨false, by simp [message], by simp⟩, fun _ => ⟨_, rfl⟩⟩ <|
    .step ⟨.proxy (.caller (.finish (r := .ok conflictResponse) rfl)) trivial, trivial⟩ <| .refl _,
    rfl⟩

/-- The proxy stops waiting for an answer, and the controller carries the request out. -/
theorem late_delivery_run : ∃ xs s t,
    Run (DeliveryStep soleProxy controllerId operation) .start xs s ∧
      s.call.caller = .returned (.error soleProxy.timedOut) ∧
      DeliveryStep soleProxy controllerId operation s (.execute .caller true) t ∧ t.Applied := by
  let message : HttpProxyMessage := ⟨.caller, controllerId, operation.sanitized⟩
  refine ⟨_, _, _, .step (.proxy (.caller (.check rfl (some localView))) trivial) <|
    .step (.proxy (.caller (.look rfl (some localView))) trivial) <|
    .step (.proxy (.caller (.dispatch (d := .sending) (e := .accepted) rfl rfl)) trivial) <|
    .step (.proxy (.caller (.dispatch (d := .waiting) (e := .elapsed) rfl rfl)) trivial) <|
    .step (.proxy (.caller (.finish (r := .error soleProxy.timedOut) rfl)) trivial) <| .refl _,
    rfl, .execute (m := message) (by simp [message]) rfl true, ⟨.caller, by simp [message]⟩⟩

/-- The document that is read before a write. -/
def disabledDocument : Value := enabledDocument "1" false

def flagsWrite : ForwardHttpOperation := writeRequest "shop" "flags" "1" []

/-- A write and a reload that the controller answers with a conflict. -/
theorem conflict_unapplied :
    (∃ w outcome, Relation.ReflTransGen (Step (errandShared soleProxy Delivery.Unbroken))
        (@writeConfigData plainWire "edge-1" "shop" "flags" enable isEnabled, none)
        (ret outcome, w) ∧ w ≠ none ∧ outcome.state = .conflict ∧ Unapplied w) ∧
      ∃ w outcome, Relation.ReflTransGen (Step (errandShared soleProxy Delivery.Unbroken))
        (@reloadController plainWire "edge-1", none) (ret (.ok outcome), w) ∧
        outcome.state = .conflict ∧ Unapplied w := by
  let _ := plainWire
  have hvoid := void_never_applied soleProxy "edge-1" "shop" "flags" enable isEnabled
  constructor
  · obtain ⟨xs, s, hrun, hr⟩ := refused_delivery_run "edge-1" flagsWrite
    have hwrite : Relation.ReflTransGen (Step (errandShared soleProxy Delivery.Unbroken))
        (writeConfigData "edge-1" "shop" "flags" enable isEnabled, none)
        (ret ⟨"edge-1", .conflict, some ("CAS precondition " ++ "1" ++ " no longer matched: " ++
          responseDetail []), none, none⟩, some ⟨"edge-1", flagsWrite, s⟩) := by
      refine .head (Step.ask (r := some disabledDocument) (ErrandServe.other (by simp))) ?_
      exact .head (Step.ask (ErrandServe.dispatch hrun hr)) .refl
    exact ⟨_, _, hwrite, by simp, rfl, hvoid.1 _ _ hwrite (.inr rfl)⟩
  · obtain ⟨xs, s, hrun, hr⟩ := refused_delivery_run "edge-1" reloadRequest
    have hreload : Relation.ReflTransGen (Step (errandShared soleProxy Delivery.Unbroken))
        (reloadController "edge-1", none)
        (ret (.ok (notLeaderOutcome "edge-1" [])), some ⟨"edge-1", reloadRequest, s⟩) := by
      refine .head (Step.ask (r := none) (ErrandServe.other (by simp))) ?_
      exact .head (Step.ask (ErrandServe.dispatch hrun hr)) .refl
    refine ⟨_, _, hreload, rfl, hvoid.2 _ _ hreload fun outcome ho => ?_⟩
    cases ho
    exact .inr rfl

/-- A write that times out after it was put on the stream is reported as failed, and is carried out
then. -/
theorem failed_write_applied : ∃ w outcome,
    Relation.ReflTransGen (Step (errandShared soleProxy fun _ _ => True))
      (@writeConfigData plainWire "edge-1" "shop" "flags" enable isEnabled, none)
      (ret outcome, w) ∧
    outcome.state = .failed ∧ ¬ Unapplied w := by
  let _ := plainWire
  obtain ⟨xs, s, t, hrun, hr, hexec, happlied⟩ :=
    late_delivery_run "edge-1" flagsWrite
  have hguarded : Run (Guarded (DeliveryStep soleProxy "edge-1" flagsWrite) fun _ _ => True) _ xs s :=
    hrun.mono fun h => ⟨h, trivial⟩
  refine ⟨some ⟨"edge-1", flagsWrite, t⟩, .failed "edge-1" ("write dispatch failed (" ++
    toString gatewayTimeout ++ "): " ++ soleProxy.timedOut.2), ?_, rfl,
    fun hu => hu _ rfl happlied⟩
  refine .head (Step.ask (r := some disabledDocument) (ErrandServe.other (by simp))) ?_
  refine .head (Step.ask (ErrandServe.dispatch hguarded hr)) ?_
  refine .head (Step.others ?_) .refl
  exact ErrandOthers.deliver (e := ⟨"edge-1", flagsWrite, s⟩) ⟨hexec, trivial⟩

end Runs

end EdgionCenter
