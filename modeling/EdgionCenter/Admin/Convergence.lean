import EdgionCenter.Admin.ConfigData

/-! What the outcome of a write says about the controller's document, while other writers change it
and the controller's session moves between replicas. -/
namespace EdgionCenter

open Interaction

/-- One document of a controller through its versions, and what one replica sees of it. An instant
is the number of changes so far. `synced` is the instant of the cache's `sync_version`, if it has one;
`session` is the instant at which the session came to the replica, if the replica holds it. The other
fields record what the call did. -/
structure ConfigWorld where
  history : Nat → Option Value
  now : Nat
  cache : Option Value
  synced : Option Nat
  session : Option Nat
  read : Option Value
  fetched : Bool
  sent : List ForwardHttpOperation
  committed : Option Nat

namespace ConfigWorld

variable (w : ConfigWorld)

/-- The controller gives every document it stores a version of its own. -/
def Fresh (document : Value) : Prop :=
  ∃ v, resourceVersion document = some v ∧
    ∀ i ≤ w.now, ∀ d, w.history i = some d → resourceVersion d ≠ some v

@[simps] def store (document : Option Value) : ConfigWorld :=
  { w with
    history := Function.update w.history (w.now + 1) document
    now := w.now + 1 }

@[simps] def record (operation : ForwardHttpOperation) : ConfigWorld :=
  { w with sent := operation :: w.sent }

end ConfigWorld

def ForwardHttpOperation.IfMatch (operation : ForwardHttpOperation) (version : String) : Prop :=
  ("if-match", "\"" ++ version ++ "\"") ∈ operation.headers

/-- Other writers, the watch stream in its order, and the session coming and going. The watch of a new
session resumes from the version of the cache that was kept; a cache without a version starts with a
list that is no older than the session. -/
inductive ConfigOthers : ConfigWorld → ConfigWorld → Prop
  | write {w : ConfigWorld} (h : ∀ d, document = some d → w.Fresh d) :
      ConfigOthers w (w.store document)
  | batch {w : ConfigWorld} (h : w.session = some began)
      (hi : w.synced.getD began ≤ i) (hn : i ≤ w.now) :
      ConfigOthers w { w with cache := w.history i, synced := some i }
  | lose {w : ConfigWorld} : ConfigOthers w { w with session := none }
  | gain {w : ConfigWorld} : ConfigOthers w { w with session := some w.now }

section Served

variable [Wire]

/-- How the replica and the controller serve the calls. A write commits only on the version it
names; its answer may get lost. -/
inductive ConfigServe : ConfigWorld → (c : AdminCall) → c.Reply → ConfigWorld → Prop
  | rawDocument {w : ConfigWorld} :
      ConfigServe w (.rawDocument controllerId key) w.cache
        { w with read := if w.sent = [] then w.cache else w.read }
  | localSessionIsDispatchable {w : ConfigWorld} :
      ConfigServe w (.localSessionIsDispatchable controllerId) w.session.isSome w
  | fetch {w : ConfigWorld} (h : ∀ d, fallbackDocument reply = .ok d → w.history w.now = some d) :
      ConfigServe w (.fetch controllerId operation) reply
        { w with read := (fallbackDocument reply).toOption, fetched := true }
  | refused {w : ConfigWorld} (h : ∀ response, reply = .ok response → response.isSuccess = false) :
      ConfigServe w (.dispatch controllerId operation) reply (w.record operation)
  | committed {w : ConfigWorld} (hc : w.history w.now = some current)
      (hv : resourceVersion current = some version) (hm : operation.IfMatch version)
      (hd : w.Fresh document) (reply : Except (StatusCode × String) HttpProxyResponse) :
      ConfigServe w (.dispatch controllerId operation) reply
        { (w.record operation).store (some document) with committed := some (w.now + 1) }
  | sleep {w : ConfigWorld} (late : Nat) : ConfigServe w .sleep late w

def configShared : Shared AdminCall AdminCall.Reply ConfigWorld := ⟨ConfigOthers, ConfigServe⟩

namespace ConfigWorld

/-- The call begins: it has done nothing yet, the cache is what the watch has shown up to its version,
and the current document if the session is held. -/
structure Begins (w : ConfigWorld) : Prop where
  read : w.read = none
  fetched : w.fetched = false
  sent : w.sent = []
  committed : w.committed = none
  unfed : w.synced = none → w.cache = none
  shows : ∀ i, w.synced = some i → w.cache = w.history i
  current : ∀ began, w.session = some began → w.cache = w.history w.now

/-- The cache has shown everything up to the current document, or the replica was never fed and does
not hold the session. -/
def Fed (w : ConfigWorld) : Prop :=
  w.synced = some w.now ∨ w.synced = none ∧ w.session = none

/-- A call that had to fetch the document does not find the session here after its write, and what a
write stores satisfies the predicate. -/
def Expected (predicate : Value → Bool) (w : ConfigWorld) : AdminCall → ConfigWorld → Prop
  | .localSessionIsDispatchable _, _ => w.fetched = true → w.sent ≠ [] → w.session = none
  | .dispatch .., w' => ∀ p d, w'.committed = some p → w'.history p = some d → predicate d = true
  | _, _ => True

end ConfigWorld

section Truthful

variable (ns name : String) (mutate : Value → Except String Value) (predicate : Value → Bool)

/-- At most one write was sent, on the version of the document that was read. -/
def OneWrite (w : ConfigWorld) : Prop :=
  w.sent = [] ∨ ∃ document version mutated body, w.read = some document ∧
    resourceVersion document = some version ∧ mutate document = .ok mutated ∧
    Wire.toVec (stripStatus mutated) = .ok body ∧
    w.sent = [writeRequest ns name version body]

/-- What the outcome of a call that began at instant `start` stands for. -/
structure Truthful (start : Nat) (w : ConfigWorld) (outcome : WriteOutcome) : Prop where
  converged : outcome.state = .converged →
    ∃ i d, start ≤ i ∧ i ≤ w.now ∧ w.history i = some d ∧ predicate d = true
  superseded : outcome.state = .superseded →
    ∃ p, w.committed = some p ∧ ∃ i d, p < i ∧ i ≤ w.now ∧ w.history i = some d ∧
      predicate d = false

end Truthful

namespace ConfigWorld

variable {w w' : ConfigWorld} {start i r : Nat} {d : Value}

/-- The past is not rewritten, and nobody else acts for the call. -/
structure Extends (w w' : ConfigWorld) : Prop where
  now : w.now ≤ w'.now
  history : ∀ i ≤ w.now, w'.history i = w.history i
  read : w'.read = w.read
  fetched : w'.fetched = w.fetched
  sent : w'.sent = w.sent
  committed : w'.committed = w.committed

/-- Since the call began, every instant has its own version. -/
structure Versioned (start : Nat) (w : ConfigWorld) : Prop where
  began : start ≤ w.now
  distinct : ∀ i j d d', start ≤ i → i ≤ w.now → start ≤ j → j ≤ w.now →
    w.history i = some d → w.history j = some d' → resourceVersion d = resourceVersion d' → i = j

/-- The cache shows an instant no earlier than `i`. -/
def Seen (i : Nat) (w : ConfigWorld) : Prop :=
  ∃ c, i ≤ c ∧ c ≤ w.now ∧ w.cache = w.history c ∧ w.synced = some c

/-- The replica was never fed, and what comes first is no older than the call. -/
def Unfed (start : Nat) (w : ConfigWorld) : Prop :=
  w.cache = none ∧ w.synced = none ∧ ∀ began, w.session = some began → start ≤ began

omit [Wire]

variable {document : Option Value}

theorem store_history_of_le (hi : i ≤ w.now) : (w.store document).history i = w.history i := by
  simp [show i ≠ w.now + 1 by omega]

theorem versioned_store (h : w.Versioned start) (hd : ∀ d, document = some d → w.Fresh d) :
    (w.store document).Versioned start := by
  have hold : ∀ {i}, i ≤ w.now + 1 → i ≠ w.now + 1 → i ≤ w.now := by omega
  have hfresh : ∀ {i d d'}, i ≤ w.now → w.history i = some d → document = some d' →
      resourceVersion d ≠ resourceVersion d' := by
    intro i d d' hi hid hd' he
    obtain ⟨v, hv, hnew⟩ := hd d' hd'
    exact hnew i hi d hid (he.trans hv)
  refine ⟨Nat.le_succ_of_le h.began, fun i j d d' hi hin hj hjn hid hjd he => ?_⟩
  by_cases hie : i = w.now + 1
  · by_cases hje : j = w.now + 1
    · rw [hie, hje]
    · rw [store_history_of_le (hold hjn hje)] at hjd
      rw [store_history, hie, Function.update_self] at hid
      exact absurd he.symm (hfresh (hold hjn hje) hjd hid)
  · rw [store_history_of_le (hold hin hie)] at hid
    by_cases hje : j = w.now + 1
    · rw [store_history, hje, Function.update_self] at hjd
      exact absurd he (hfresh (hold hin hie) hid hjd)
    · rw [store_history_of_le (hold hjn hje)] at hjd
      exact h.distinct i j d d' hi (hold hin hie) hj (hold hjn hje) hid hjd he

end ConfigWorld

open ConfigWorld

section Others

variable {w w' : ConfigWorld} {start i : Nat}

omit [Wire]

theorem ConfigOthers.extends (h : ConfigOthers w w') : w.Extends w' := by
  cases h with
  | write h =>
    exact ⟨Nat.le_succ _, fun i hi => store_history_of_le hi, rfl, rfl, rfl, rfl⟩
  | batch h hi hn | lose | gain => exact ⟨Nat.le_refl _, fun _ _ => rfl, rfl, rfl, rfl, rfl⟩

theorem ConfigOthers.versioned (h : ConfigOthers w w') (hw : w.Versioned start) :
    w'.Versioned start := by
  cases h with
  | write h => exact versioned_store hw h
  | batch h hi hn | lose | gain => exact ⟨hw.began, hw.distinct⟩

theorem ConfigOthers.seen (h : ConfigOthers w w') (hs : w.Seen i) : w'.Seen i := by
  obtain ⟨c, hic, hcn, hcache, hsynced⟩ := hs
  cases h with
  | write h =>
    exact ⟨c, hic, Nat.le_succ_of_le hcn, hcache.trans (store_history_of_le hcn).symm, hsynced⟩
  | @batch began j _ h hj hn =>
    rw [hsynced] at hj
    exact ⟨j, hic.trans hj, hn, rfl, rfl⟩
  | lose | gain => exact ⟨c, hic, hcn, hcache, hsynced⟩

theorem ConfigOthers.unfed (h : ConfigOthers w w') (hw : w.Versioned start) (hs : w.Unfed start) :
    w'.Seen start ∨ w'.Unfed start := by
  obtain ⟨hcache, hsynced, hbegan⟩ := hs
  cases h with
  | write h => exact .inr ⟨hcache, hsynced, hbegan⟩
  | @batch began j _ h hj hn =>
    rw [hsynced] at hj
    exact .inl ⟨j, (hbegan began h).trans hj, hn, rfl, rfl⟩
  | lose => exact .inr ⟨hcache, hsynced, fun began hb => by cases hb⟩
  | gain =>
    refine .inr ⟨hcache, hsynced, fun began hb => ?_⟩
    obtain rfl : w.now = began := Option.some.inj hb
    exact hw.began

end Others

section Assertions

variable (ns name : String) (mutate : Value → Except String Value) (predicate : Value → Bool)
  (start : Nat)

/-- Nothing was read yet. -/
structure NotRead (w : ConfigWorld) : Prop where
  versioned : w.Versioned start
  sent : w.sent = []
  fetched : w.fetched = false
  fed : w.Seen start ∨ w.Unfed start

/-- The document of instant `r` was read. -/
structure HasRead (r : Nat) (d : Value) (w : ConfigWorld) : Prop where
  versioned : w.Versioned start
  sent : w.sent = []
  read : w.read = some d
  since : start ≤ r
  before : r ≤ w.now
  document : w.history r = some d
  seen : w.fetched = false → w.Seen r

/-- The write is on record, with the document it replaces. -/
structure HasSent (w : ConfigWorld) (d : Value) (version : String) (body : List UInt8) : Prop where
  read : w.read = some d
  precondition : resourceVersion d = some version
  rendered : ∃ mutated, mutate d = .ok mutated ∧ Wire.toVec (stripStatus mutated) = .ok body
  sent : w.sent = [writeRequest ns name version body]

/-- The write replaced the document of instant `r`, by one that satisfies the predicate. -/
structure HasWritten (r : Nat) (d : Value) (version : String) (body : List UInt8)
    (w : ConfigWorld) : Prop where
  sending : HasSent ns name mutate w d version body
  versioned : w.Versioned start
  since : start ≤ r
  before : r + 1 ≤ w.now
  document : w.history r = some d
  committed : w.committed = some (r + 1)
  effective : ∀ own, w.history (r + 1) = some own → predicate own = true
  seen : w.fetched = false → w.Seen r

variable {ns name mutate predicate start} {r : Nat} {d : Value} {version : String}
  {body : List UInt8} {w w' : ConfigWorld}

omit [Wire] in
theorem notRead_of_others (ho : ConfigOthers w w') (h : NotRead start w) : NotRead start w' := by
  have hx := ho.extends
  refine ⟨ho.versioned h.versioned, hx.sent.trans h.sent, hx.fetched.trans h.fetched, ?_⟩
  rcases h.fed with hs | hu
  · exact .inl (ho.seen hs)
  · exact ho.unfed h.versioned hu

omit [Wire] in
theorem hasRead_of_others (ho : ConfigOthers w w') (h : HasRead start r d w) :
    HasRead start r d w' := by
  have hx := ho.extends
  exact ⟨ho.versioned h.versioned, hx.sent.trans h.sent, hx.read.trans h.read, h.since,
    h.before.trans hx.now, (hx.history r h.before).trans h.document,
    fun hf => ho.seen (h.seen (hx.fetched.symm.trans hf))⟩

theorem hasSent_of_others (ho : ConfigOthers w w') (h : HasSent ns name mutate w d version body) :
    HasSent ns name mutate w' d version body := by
  have hx := ho.extends
  exact ⟨hx.read.trans h.read, h.precondition, h.rendered, hx.sent.trans h.sent⟩

theorem hasWritten_of_others (ho : ConfigOthers w w')
    (h : HasWritten ns name mutate predicate start r d version body w) :
    HasWritten ns name mutate predicate start r d version body w' := by
  have hx := ho.extends
  exact ⟨hasSent_of_others ho h.sending, ho.versioned h.versioned, h.since, h.before.trans hx.now,
    (hx.history r (by have := h.before; omega)).trans h.document, hx.committed.trans h.committed,
    fun own hown => h.effective own ((hx.history _ h.before).symm.trans hown),
    fun hf => ho.seen (h.seen (hx.fetched.symm.trans hf))⟩

theorem HasSent.oneWrite (h : HasSent ns name mutate w d version body) :
    OneWrite ns name mutate w := by
  obtain ⟨mutated, hm, hb⟩ := h.rendered
  exact .inr ⟨d, version, mutated, body, h.read, h.precondition, hm, hb, h.sent⟩

end Assertions

section Calls

variable {ns name controllerId : String} {mutate : Value → Except String Value}
  {predicate : Value → Bool} {start r : Nat} {d : Value} {version : String} {body : List UInt8}
  {w w' : ConfigWorld} {outcome : WriteOutcome}
  {reply : Except (StatusCode × String) HttpProxyResponse}

omit [Wire] in
/-- The outcomes that say nothing about the document. -/
theorem truthful_of_state (hc : outcome.state ≠ .converged)
    (hs : outcome.state ≠ .superseded) : Truthful predicate start w outcome :=
  ⟨fun h => absurd h hc, fun h => absurd h hs⟩

/-- What is seen after the write with another version was stored by it, or later if the predicate does
not hold of it. -/
theorem truthful_judge {elapsed : Nat}
    (h : HasWritten ns name mutate predicate start r d version body w) (hf : w.fetched = false)
    (hj : judge controllerId predicate version elapsed w.cache = some outcome) :
    Truthful predicate start w outcome := by
  obtain ⟨c, hrc, hcn, hcache, -⟩ := h.seen hf
  cases hw : w.cache with
  | none => simp [judge, hw] at hj
  | some observed =>
    rw [hw] at hcache
    by_cases hv : resourceVersion observed = some version
    · simp [judge, hw, hv] at hj
    have hlater : r + 1 ≤ c := by
      have hne : r ≠ c := by
        rintro rfl
        rw [h.document] at hcache
        cases hcache
        exact hv h.sending.precondition
      omega
    have hsince : start ≤ c := h.since.trans hrc
    simp only [judge, hw, ne_eq, hv, not_false_eq_true, ↓reduceIte, Option.some.injEq] at hj
    cases hp : predicate observed with
    | true =>
      simp only [hp, ↓reduceIte] at hj
      subst hj
      exact ⟨fun _ => ⟨c, observed, hsince, hcn, hcache.symm, hp⟩, fun hs => by cases hs⟩
    | false =>
      simp only [hp, Bool.false_eq_true, ↓reduceIte] at hj
      subst hj
      refine ⟨fun hs => (by cases hs), fun _ => ⟨r + 1, h.committed, c, observed, ?_, hcn,
        hcache.symm, hp⟩⟩
      refine Nat.lt_of_le_of_ne hlater ?_
      rintro rfl
      have hown := h.effective observed hcache.symm
      rw [hp] at hown
      cases hown

variable {Ok : ConfigWorld → AdminCall → ConfigWorld → Prop}

theorem stable_of_others {I : ConfigWorld → Prop}
    (h : ∀ {w w'}, ConfigOthers w w' → I w → I w') : Stable (configShared.restrict Ok) I :=
  fun _ _ ho hI => h ho hI

omit [Wire] in
theorem truthful_of_others (ho : ConfigOthers w w')
    (h : Truthful predicate start w outcome) : Truthful predicate start w' outcome := by
  have hx := ho.extends
  refine ⟨fun hc => ?_, fun hs => ?_⟩
  · obtain ⟨i, d, hi, hn, hd, hp⟩ := h.converged hc
    exact ⟨i, d, hi, hn.trans hx.now, (hx.history i hn).trans hd, hp⟩
  · obtain ⟨p, hcommit, i, d, hi, hn, hd, hp⟩ := h.superseded hs
    exact ⟨p, hx.committed.trans hcommit, i, d, hi, hn.trans hx.now, (hx.history i hn).trans hd, hp⟩

/-- A truthful outcome stays so. -/
theorem ensures_truthful (h : HasSent ns name mutate w d version body)
    (ht : Truthful predicate start w outcome) :
    Ensures (configShared.restrict Ok) (OneWrite ns name mutate) (ret outcome)
      (Truthful predicate start) w :=
  ensures_ret (I := fun w => HasSent ns name mutate w d version body ∧
      Truthful predicate start w outcome)
    (stable_of_others fun ho h => ⟨hasSent_of_others ho h.1, truthful_of_others ho h.2⟩) ⟨h, ht⟩
    (fun _ h => h.1.oneWrite) fun _ h => h.2

/-- An outcome that says nothing, once the write is on record. -/
theorem ensures_sent (hc : outcome.state ≠ .converged) (hs : outcome.state ≠ .superseded)
    (h : HasSent ns name mutate w d version body) :
    Ensures (configShared.restrict Ok) (OneWrite ns name mutate) (ret outcome)
      (Truthful predicate start) w :=
  ensures_truthful h (truthful_of_state hc hs)

theorem serve_sleep {late : Nat} (h : ConfigServe w .sleep late w') : w = w' := by
  cases h
  rfl

variable {key : String} {seen : Option Value}

theorem serve_rawDocument (h : ConfigServe w (.rawDocument controllerId key) seen w') :
    w.cache = seen ∧ { w with read := if w.sent = [] then w.cache else w.read } = w' := by
  cases h
  exact ⟨rfl, rfl⟩

theorem serve_rawDocument_of_sent (hs : w.sent ≠ [])
    (h : ConfigServe w (.rawDocument controllerId key) seen w') : w.cache = seen ∧ w = w' := by
  obtain ⟨hc, rfl⟩ := serve_rawDocument h
  exact ⟨hc, by rw [if_neg hs]⟩

theorem serve_localSessionIsDispatchable {held : Bool}
    (h : ConfigServe w (.localSessionIsDispatchable controllerId) held w') :
    w.session.isSome = held ∧ w = w' := by
  cases h
  exact ⟨rfl, rfl⟩

theorem serve_fetch {operation : ForwardHttpOperation}
    (h : ConfigServe w (.fetch controllerId operation) reply w') :
    (∀ d, fallbackDocument reply = .ok d → w.history w.now = some d) ∧
      { w with read := (fallbackDocument reply).toOption, fetched := true } = w' := by
  cases h with
  | fetch h => exact ⟨h, rfl⟩

theorem ensures_poll (elapsed : Nat)
    (h : HasWritten ns name mutate predicate start r d version body w) (hf : w.fetched = false) :
    Ensures (configShared.restrict Ok) (OneWrite ns name mutate)
      (poll controllerId ns name predicate version elapsed) (Truthful predicate start) w := by
  -- The induction is on the budget that is left.
  fun_induction poll controllerId ns name predicate version elapsed generalizing w with
  | case1 elapsed ih =>
    have hstable : Stable (configShared.restrict Ok) fun w =>
        HasWritten ns name mutate predicate start r d version body w ∧ w.fetched = false :=
      stable_of_others fun ho h => ⟨hasWritten_of_others ho h.1, ho.extends.fetched.trans h.2⟩
    refine ensures_ask hstable ⟨h, hf⟩ (fun _ h => h.1.sending.oneWrite) fun w hw late _ hs => ?_
    obtain rfl := serve_sleep hs.1
    refine ensures_ask hstable hw (fun _ h => h.1.sending.oneWrite) fun w hw seen _ hs => ?_
    obtain ⟨rfl, rfl⟩ := serve_rawDocument_of_sent (by simp [hw.1.sending.sent]) hs.1
    cases hj : judge controllerId predicate version (elapsed + convergencePollInterval + late)
        w.cache with
    | some outcome => exact ensures_truthful hw.1.sending (truthful_judge hw.1 hw.2 hj)
    | none =>
      by_cases hb : convergenceBudget ≤ elapsed + convergencePollInterval + late
      · simp only [hb, ↓reduceDIte]
        exact ensures_sent (by simp [timedOut]) (by simp [timedOut]) hw.1.sending
      · simp only [hb, ↓reduceDIte]
        exact ih late hb hw.1 hw.2

/-- The document that is replaced is the one that was read: no other instant has its version. -/
theorem hasWritten_of_commit {current document : Value} (h : HasRead start r d w)
    (hb : ∃ mutated, mutate d = .ok mutated ∧ Wire.toVec (stripStatus mutated) = .ok body)
    (hv : resourceVersion d = some version) (hc : w.history w.now = some current)
    (hcv : resourceVersion current = some version) (hd : w.Fresh document)
    (hp : predicate document = true) : HasWritten ns name mutate predicate start r d version body
      { (w.record (writeRequest ns name version body)).store (some document) with
        committed := some (w.now + 1) } := by
  have hr : r = w.now := h.versioned.distinct r w.now d current h.since h.before
    h.versioned.began (Nat.le_refl _) h.document hc (hv.trans hcv.symm)
  have hrecord : (w.record (writeRequest ns name version body)).Versioned start :=
    ⟨h.versioned.began, h.versioned.distinct⟩
  have hfresh : ∀ x, some document = some x → w.Fresh x := by
    intro x hx
    cases hx
    exact hd
  have hstore := versioned_store hrecord hfresh
  refine ⟨⟨h.read, hv, hb, by simp [h.sent]⟩, ⟨hstore.began, hstore.distinct⟩,
    h.since, by simp [hr], ?_, by simp [hr], fun own hown => ?_, fun hf => ?_⟩
  · exact (store_history_of_le h.before).trans h.document
  · obtain rfl : document = own := by simpa [hr] using hown
    exact hp
  · obtain ⟨c, hrc, hcn, hcache, hsynced⟩ := h.seen hf
    exact ⟨c, hrc, Nat.le_succ_of_le hcn,
      hcache.trans (store_history_of_le (w := w.record _) hcn).symm, hsynced⟩

theorem refusal_state (h : refusal controllerId version reply = some outcome) :
    outcome.state = .failed ∨ outcome.state = .conflict := by
  rcases reply with ⟨status, message⟩ | response
  · cases h
    exact .inl rfl
  · simp only [refusal] at h
    split at h
    · cases h
      exact .inr rfl
    · split at h
      · cases h
      · cases h
        exact .inl rfl

theorem refusal_of_not_success (h : ∀ response, reply = .ok response → response.isSuccess = false) :
    refusal controllerId version reply ≠ none := by
  rcases reply with ⟨status, message⟩ | response
  · simp [refusal]
  · have hs := h response rfl
    by_cases hc : response.status = 409 <;> simp [refusal, hc, hs]

theorem ensures_refused (hr : refusal controllerId version reply = some outcome)
    (h : HasSent ns name mutate w d version body) :
    Ensures (configShared.restrict Ok) (OneWrite ns name mutate) (ret outcome)
      (Truthful predicate start) w := by
  have hstate := refusal_state hr
  refine ensures_sent ?_ ?_ h <;> rcases hstate with hs | hs <;> simp [hs]

/-- An accepted write is watched only if the document came from the local cache. -/
theorem ensures_accepted (h : HasWritten ns name mutate predicate start r d version body w) :
    Ensures (configShared.restrict (Expected predicate)) (OneWrite ns name mutate)
      (AdminRun.localSessionIsDispatchable controllerId >>= fun held =>
        if held then poll controllerId ns name predicate version 0
        else return acceptedElsewhere controllerId)
      (Truthful predicate start) w := by
  refine ensures_ask (stable_of_others hasWritten_of_others) h (fun _ h => h.sending.oneWrite)
    fun w hw held _ hs => ?_
  obtain ⟨rfl, rfl⟩ := serve_localSessionIsDispatchable hs.1
  cases hsession : w.session with
  | none =>
    exact ensures_sent (by simp [acceptedElsewhere]) (by simp [acceptedElsewhere]) hw.sending
  | some shown =>
    have hf : w.fetched = false := by
      by_contra hf
      have hnone := hs.2 (by simpa using hf) (by simp [hw.sending.sent])
      rw [hsession] at hnone
      cases hnone
    exact ensures_poll 0 hw hf

omit [Wire] in
theorem eq_of_ifMatch {other : String} (h : (writeRequest ns name version body).IfMatch other) :
    version = other := by
  simp [ForwardHttpOperation.IfMatch, writeRequest] at h
  exact h.symm

theorem ensures_sendWrite (h : HasRead start r d w) (hv : resourceVersion d = some version)
    (hb : ∃ mutated, mutate d = .ok mutated ∧ Wire.toVec (stripStatus mutated) = .ok body) :
    Ensures (configShared.restrict (Expected predicate)) (OneWrite ns name mutate)
      (sendWrite controllerId ns name predicate version body) (Truthful predicate start) w := by
  refine ensures_ask (stable_of_others hasRead_of_others) h (fun _ h => .inl h.sent)
    fun w hw reply w' hs => ?_
  obtain ⟨hs, hexpected⟩ := hs
  cases hs with
  | refused hr =>
    have hsent : HasSent ns name mutate (w.record (writeRequest ns name version body)) d version
        body := ⟨hw.read, hv, hb, by simp [hw.sent]⟩
    cases hrefusal : refusal controllerId version reply with
    | none => exact absurd hrefusal (refusal_of_not_success hr)
    | some outcome => exact ensures_refused hrefusal hsent
  | committed hc hcv hm hd _ =>
    obtain rfl := eq_of_ifMatch hm
    have hwritten : HasWritten ns name mutate predicate start r d _ body _ :=
      hasWritten_of_commit hw hb hv hc hcv hd (hexpected _ _ rfl (Function.update_self ..))
    cases hrefusal : refusal controllerId _ reply with
    | none => exact ensures_accepted hwritten
    | some outcome => exact ensures_refused hrefusal hwritten.sending

theorem ensures_writeBack {viaFallbackRead : Bool} (h : HasRead start r d w) :
    Ensures (configShared.restrict (Expected predicate)) (OneWrite ns name mutate)
      (writeBack controllerId ns name mutate predicate d viaFallbackRead)
      (Truthful predicate start) w := by
  have hquiet : ∀ outcome : WriteOutcome, Truthful predicate start w outcome →
      Ensures (configShared.restrict (Expected predicate)) (OneWrite ns name mutate) (ret outcome)
        (Truthful predicate start) w := fun outcome ht =>
    ensures_ret (I := fun w => HasRead start r d w ∧ Truthful predicate start w outcome)
      (stable_of_others fun ho h => ⟨hasRead_of_others ho h.1, truthful_of_others ho h.2⟩) ⟨h, ht⟩
      (fun _ h => .inl h.1.sent) fun _ h => h.2
  have hfailed : ∀ reason, Truthful predicate start w (.failed controllerId reason) := fun reason =>
    truthful_of_state (by simp [WriteOutcome.failed]) (by simp [WriteOutcome.failed])
  unfold writeBack
  cases hv : resourceVersion d with
  | none => exact hquiet _ (hfailed _)
  | some version =>
    cases hp : predicate d with
    | true =>
      simp only [↓reduceIte]
      exact hquiet _ ⟨fun _ => ⟨r, d, h.since, h.before, h.document, hp⟩, fun hs => by cases hs⟩
    | false =>
      simp only [Bool.false_eq_true, ↓reduceIte]
      cases hm : mutate d with
      | error error => exact hquiet _ (hfailed _)
      | ok mutated =>
        cases hb : Wire.toVec (stripStatus mutated) with
        | error error =>
          simp only [hb]
          exact hquiet _ (hfailed _)
        | ok body =>
          simp only [hb]
          exact ensures_sendWrite h hv ⟨mutated, hm, hb⟩

theorem ensures_writeConfigData (h : NotRead start w) :
    Ensures (configShared.restrict (Expected predicate)) (OneWrite ns name mutate)
      (writeConfigData controllerId ns name mutate predicate) (Truthful predicate start) w := by
  have hstable : Stable (configShared.restrict (Expected predicate)) (NotRead start) :=
    stable_of_others notRead_of_others
  have hinv : ∀ w, NotRead start w → OneWrite ns name mutate w := fun _ h => .inl h.sent
  have hfailed : ∀ w reason, NotRead start w → Ensures (configShared.restrict (Expected predicate))
      (OneWrite ns name mutate) (ret (.failed controllerId reason)) (Truthful predicate start) w :=
    fun w reason hw => ensures_ret hstable hw hinv fun _ _ =>
      truthful_of_state (by simp [WriteOutcome.failed]) (by simp [WriteOutcome.failed])
  refine ensures_ask hstable h hinv fun w hw cached _ hs => ?_
  obtain ⟨hcached, rfl⟩ := serve_rawDocument hs.1
  rw [if_pos hw.sent]
  cases cached with
  | some d =>
    rcases hw.fed with ⟨c, hc, hn, hcache, hsynced⟩ | hu
    · rw [hcached] at hcache ⊢
      exact ensures_writeBack (r := c) ⟨⟨hw.versioned.began, hw.versioned.distinct⟩, hw.sent, rfl,
        hc, hn, hcache.symm, fun _ => ⟨c, Nat.le_refl _, hn, hcache, hsynced⟩⟩
    · rw [hu.1] at hcached
      cases hcached
  | none =>
    have hw' : NotRead start { w with read := w.cache } :=
      ⟨⟨hw.versioned.began, hw.versioned.distinct⟩, hw.sent, hw.fetched, hw.fed⟩
    refine ensures_ask hstable hw' hinv fun w hw held _ hs => ?_
    obtain ⟨-, rfl⟩ := serve_localSessionIsDispatchable hs.1
    cases held with
    | true => exact hfailed w _ hw
    | false =>
      refine ensures_ask hstable hw hinv fun w hw reply _ hs => ?_
      obtain ⟨hdoc, rfl⟩ := serve_fetch hs.1
      cases hread : fallbackDocument reply with
      | error reason =>
        refine ensures_ret (I := fun w => w.sent = [])
          (stable_of_others fun ho h => ho.extends.sent.trans h) hw.sent (fun _ h => .inl h)
          fun _ _ => ?_
        exact truthful_of_state (by simp [WriteOutcome.failed]) (by simp [WriteOutcome.failed])
      | ok d =>
        exact ensures_writeBack (r := w.now) ⟨⟨hw.versioned.began, hw.versioned.distinct⟩, hw.sent,
          rfl, hw.versioned.began, Nat.le_refl _, hdoc d hread, fun hf => by cases hf⟩

/-- If the cache is up to date when the call begins, or the replica has neither a cache nor the
session; if a call that fetched the document does not get the session before its write is answered;
and if the write establishes the predicate: then `converged` and `superseded` are true, and at most one
write is sent, on the version of the document it replaces. -/
theorem writeConfigData_truthful {w₀ w : ConfigWorld} {program : AdminRun WriteOutcome}
    (hbegin : w₀.Begins) (hfed : w₀.Fed)
    (hrun : Relation.ReflTransGen (Step (configShared.restrict (ConfigWorld.Expected predicate)))
      (writeConfigData controllerId ns name mutate predicate, w₀) (program, w)) :
    OneWrite ns name mutate w ∧
      ∀ outcome, program = ret outcome → Truthful predicate w₀.now w outcome := by
  have hstart : NotRead w₀.now w₀ := by
    refine ⟨⟨Nat.le_refl _, fun i j d d' hi hin hj hjn _ _ _ => by omega⟩, hbegin.sent,
      hbegin.fetched, ?_⟩
    rcases hfed with hsynced | ⟨hsynced, hsession⟩
    · exact .inl ⟨w₀.now, Nat.le_refl _, Nat.le_refl _, hbegin.shows _ hsynced, hsynced⟩
    · refine .inr ⟨hbegin.unfed hsynced, hsynced, fun began hb => ?_⟩
      rw [hsession] at hb
      cases hb
  have hleft := (ensures_writeConfigData hstart).of_run hrun
  refine ⟨hleft.now, ?_⟩
  rintro outcome rfl
  exact hleft.of_ret

end Calls

end Served

section Runs

/-- A codec of no consequence. -/
@[reducible] def plainWire : Wire where
  fromSlice := fun _ => .error "not JSON"
  toVec := fun _ => .ok []
  fromUtf8Lossy := fun _ => ""
  displayStatus := toString

def enabledDocument (version : String) (enabled : Bool) : Value :=
  .object [("metadata", .object [("resourceVersion", .string version)]),
    ("spec", .object [("enabled", .bool enabled)])]

def isEnabled (document : Value) : Bool :=
  match document.pointer ["spec", "enabled"] with
  | some (.bool enabled) => enabled
  | _ => false

def enable (_ : Value) : Except String Value := .ok (enabledDocument "1" true)

/-- The replica lost the session while the document was enabled; it has been disabled since. -/
def leftBehind : ConfigWorld where
  history := fun i => some (if i = 0 then enabledDocument "1" true else enabledDocument "2" false)
  now := 1
  cache := some (enabledDocument "1" true)
  synced := some 0
  session := none
  read := none
  fetched := false
  sent := []
  committed := none

/-- A document that a former session left in the cache passes for the current one. -/
theorem stale_cache_converges : ∃ w outcome, leftBehind.Begins ∧
    Relation.ReflTransGen (Step (@configShared plainWire))
      (@writeConfigData plainWire "edge-1" "shop" "flags" enable isEnabled, leftBehind)
      (ret outcome, w) ∧
    outcome.state = .converged ∧ ¬ Truthful isEnabled leftBehind.now w outcome := by
  let _ := plainWire
  refine ⟨{ leftBehind with read := leftBehind.cache }, .converged "edge-1" 0,
    ⟨rfl, rfl, rfl, rfl, fun h => (by cases h), fun _ h => (by cases h; rfl), fun _ h => by cases h⟩,
    .head (Step.ask ConfigServe.rawDocument) .refl, rfl, fun ht => ?_⟩
  obtain ⟨i, d, hi, -, hd, hp⟩ := ht.converged rfl
  have hne : i ≠ 0 := by
    change 1 ≤ i at hi
    omega
  simp only [leftBehind, hne, ↓reduceIte, Option.some.injEq] at hd
  subst hd
  cases hp

/-- The session is held, and has shown the document, which is disabled. -/
def upToDate : ConfigWorld where
  history := fun _ => some (enabledDocument "1" false)
  now := 0
  cache := some (enabledDocument "1" false)
  synced := some 0
  session := some 0
  read := none
  fetched := false
  sent := []
  committed := none

def okResponse : HttpProxyResponse := ⟨200, [], []⟩

/-- The document is enabled, the watch shows it, and the call says so. -/
theorem enabled_converges : ∃ w outcome, upToDate.Begins ∧ upToDate.Fed ∧
    Relation.ReflTransGen (Step ((@configShared plainWire).restrict (ConfigWorld.Expected isEnabled)))
      (@writeConfigData plainWire "edge-1" "shop" "flags" enable isEnabled, upToDate)
      (ret outcome, w) ∧
    outcome.state = .converged ∧ w.sent ≠ [] ∧ Truthful isEnabled upToDate.now w outcome := by
  let _ := plainWire
  let read : ConfigWorld := { upToDate with read := upToDate.cache }
  let operation := writeRequest "shop" "flags" "1" []
  let written : ConfigWorld :=
    { (read.record operation).store (some (enabledDocument "2" true)) with committed := some 1 }
  let seen : ConfigWorld := { written with cache := written.history 1, synced := some 1 }
  have hbegin : upToDate.Begins :=
    ⟨rfl, rfl, rfl, rfl, fun h => (by cases h), fun _ _ => rfl, fun _ _ => rfl⟩
  have hfed : upToDate.Fed := .inl rfl
  have hfresh : read.Fresh (enabledDocument "2" true) := by
    refine ⟨"2", rfl, fun i _ d hd hv => ?_⟩
    cases hd
    exact absurd hv (by decide)
  have hrun : Relation.ReflTransGen (Step (configShared.restrict (ConfigWorld.Expected isEnabled)))
      (writeConfigData "edge-1" "shop" "flags" enable isEnabled, upToDate)
      (ret (.converged "edge-1" 500), seen) := by
    refine .head (Step.ask ⟨ConfigServe.rawDocument, trivial⟩) ?_
    refine .head (Step.ask ⟨ConfigServe.committed rfl rfl
      (by simp [ForwardHttpOperation.IfMatch, writeRequest]) hfresh (.ok okResponse), ?_⟩) ?_
    · rintro p d hp hd
      cases hp
      cases hd
      rfl
    refine .head (Step.ask ⟨ConfigServe.localSessionIsDispatchable, fun hf => by cases hf⟩) ?_
    change Relation.ReflTransGen _ (poll "edge-1" "shop" "flags" isEnabled "1" 0, written) _
    rw [poll]
    refine .head (Step.ask ⟨ConfigServe.sleep 0, trivial⟩) ?_
    refine .head (.others (ConfigOthers.batch (i := 1) rfl (by decide) (by decide))) ?_
    exact .head (Step.ask ⟨ConfigServe.rawDocument, trivial⟩) .refl
  refine ⟨_, _, hbegin, hfed, hrun, rfl, by simp [seen, written], ?_⟩
  exact (writeConfigData_truthful hbegin hfed hrun).2 _ rfl

end Runs

end EdgionCenter
