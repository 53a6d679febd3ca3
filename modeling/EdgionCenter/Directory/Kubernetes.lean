import EdgionCenter.Directory.Controller

/-! The Kubernetes controller directory: one resource per controller, whose spec is written through
the resource and whose status through the status subresource. An operation runs without another
writer in between, but the API server may answer any of its requests with an error. -/
namespace EdgionCenter

structure EdgionControllerSpec where
  controllerId : String
  cluster : String
  environments : List String
  tags : List String
  deriving DecidableEq

inductive EdgionControllerPhase
  | online
  | offline
  | stale
  deriving DecidableEq

/-- `lastSeenTime` is a date-time of whole milliseconds. -/
structure EdgionControllerStatus where
  phase : EdgionControllerPhase
  sessionId : Option String
  cluster : String
  environments : List String
  tags : List String
  connectedReplica : Option String
  ownershipToken : Option String
  ownershipEpoch : Nat
  syncVersion : Option Nat
  watchServerId : Option String
  resourceCount : Option Nat
  resourceCountsByKind : Option (List (String × Nat))
  statsUpdatedUnixMs : Option Int
  watchUpdatedUnixMs : Option Int
  lastSeenTime : Int
  observedAtUnixMs : Int
  evicted : Bool
  observedGeneration : Option Int
  deriving DecidableEq

structure EdgionController where
  name : String
  generation : Option Int
  spec : EdgionControllerSpec
  status : Option EdgionControllerStatus
  deriving DecidableEq

inductive ResourceError
  | conflict
  | other (message : String)
  deriving DecidableEq

/-- How the API server answers a request. A `lost` answer is to a request that was carried out. -/
inductive Answer
  | ok
  | conflict
  | refused (message : String)
  | lost (message : String)
  deriving DecidableEq

/-- Once `answers` are used up, requests are carried out and answered. -/
structure Resources where
  stored : String → Option EdgionController
  answers : List Answer

namespace Resources

variable (s : Resources)

/-- A request that returns `value` and leaves `stored`. -/
def request {α : Type} (value : α) (stored : String → Option EdgionController) :
    Except ResourceError α × Resources :=
  match s.answers with
  | [] => (.ok value, ⟨stored, []⟩)
  | .ok :: answers => (.ok value, ⟨stored, answers⟩)
  | .conflict :: answers => (.error .conflict, ⟨s.stored, answers⟩)
  | .refused message :: answers => (.error (.other message), ⟨s.stored, answers⟩)
  | .lost message :: answers => (.error (.other message), ⟨stored, answers⟩)

def get (name : String) : Except ResourceError (Option EdgionController) × Resources :=
  s.request (s.stored name) s.stored

/-- The status of a new resource is dropped. -/
def create (resource : EdgionController) : Except ResourceError EdgionController × Resources :=
  match s.stored resource.name with
  | some _ => (.error .conflict, s)
  | none =>
    let created := { resource with generation := some 1, status := none }
    s.request created (Function.update s.stored resource.name (some created))

/-- The status is left as it is, and a changed spec is a new generation. -/
def replace (name : String) (resource : EdgionController) :
    Except ResourceError EdgionController × Resources :=
  match s.stored name with
  | none => (.error (.other "not found"), s)
  | some current =>
    let replaced :=
      { current with
        spec := resource.spec
        generation :=
          if resource.spec = current.spec then current.generation
          else current.generation.map (· + 1) }
    s.request replaced (Function.update s.stored name (some replaced))

/-- Everything but the status is left as it is. -/
def replaceStatus (name : String) (resource : EdgionController) :
    Except ResourceError EdgionController × Resources :=
  match s.stored name with
  | none => (.error (.other "not found"), s)
  | some current =>
    let replaced := { current with status := resource.status }
    s.request replaced (Function.update s.stored name (some replaced))

end Resources

/-- The letters and digits of an id in lower case, with one dash for what stands between them; at
most fifty characters, last one first. -/
def resourceStem : List Char → List Char → Bool → List Char
  | [], stem, _ => stem
  | c :: rest, stem, previousDash =>
    let mapped := if c.isAlphanum then c.toLower else '-'
    if mapped = '-' ∧ (previousDash ∨ stem = []) then resourceStem rest stem previousDash
    else if stem.length + 1 = 50 then mapped :: stem
    else resourceStem rest (mapped :: stem) (mapped = '-')

/-- `digest` stands for SHA-256 in hexadecimal, and `inRange` for the milliseconds that chrono takes
for a date. -/
structure KubernetesControllerDirectory where
  digest : String → String
  inRange : Int → Bool

namespace KubernetesControllerDirectory

def maxConflictRetries : Nat := 8

def adapterError : ResourceError → CoreError
  | .conflict => .conflict "Kubernetes resourceVersion conflict"
  | .other message => .adapter message

def collision (resource : EdgionController) (id : ControllerId) : CoreError :=
  .conflict ("Kubernetes name collision: " ++ resource.name ++ " maps both " ++
    debugStr resource.spec.controllerId ++ " and " ++ debugStr id.value)

def verifyIdentity (resource : EdgionController) (id : ControllerId) : CoreResult Unit :=
  if resource.spec.controllerId = id.value then .ok () else .error (collision resource id)

def projectionConflicted (id : ControllerId) : CoreError :=
  .conflict ("controller projection for " ++ id.value ++ " remained conflicted after " ++
    toString maxConflictRetries ++ " attempts")

def evictionConflicted (id : ControllerId) : CoreError :=
  .conflict ("controller eviction for " ++ id.value ++ " remained conflicted after " ++
    toString maxConflictRetries ++ " attempts")

def staleRegistration (id : ControllerId) : CoreError :=
  .conflict ("stale controller registration revision for " ++ id.value)

def getOrCreate (name : String) (spec : EdgionControllerSpec) (s : Resources) :
    Except ResourceError EdgionController × Resources :=
  match s.get name with
  | (.error e, s) => (.error e, s)
  | (.ok (some existing), s) =>
    if existing.spec.controllerId ≠ spec.controllerId then (.ok existing, s)
    else if existing.spec ≠ spec then s.replace name { existing with spec := spec }
    else (.ok existing, s)
  | (.ok none, s) => s.create ⟨name, none, spec, none⟩

/-- What an operation makes of the status it finds; `none` leaves it alone. -/
abbrev StatusTransition :=
  Option EdgionControllerStatus → Option Int → Option EdgionControllerStatus

/-- A round of `replace_status_with_retry`; `none` goes on to the next. -/
def projectionRound (name : String) (id : ControllerId) (spec : EdgionControllerSpec)
    (transition : StatusTransition) (s : Resources) : Option (CoreResult Bool) × Resources :=
  match getOrCreate name spec s with
  | (.error .conflict, s) => (none, s)
  | (.error e, s) => (some (.error (adapterError e)), s)
  | (.ok resource, s) =>
    match verifyIdentity resource id with
    | .error e => (some (.error e), s)
    | .ok () =>
      match transition resource.status resource.generation with
      | none => (some (.ok false), s)
      | some status =>
        match s.replaceStatus name { resource with status := some status } with
        | (.ok _, s) => (some (.ok true), s)
        | (.error .conflict, s) => (none, s)
        | (.error e, s) => (some (.error (adapterError e)), s)

/-- Rounds until one ends the call; `exhausted` is the error when all have conflicted. -/
def retry {α : Type} (exhausted : CoreError) (round : Resources → Option (CoreResult α) × Resources) :
    Nat → Resources → CoreResult α × Resources
  | 0, s => (.error exhausted, s)
  | n + 1, s =>
    match round s with
    | (some result, s) => (result, s)
    | (none, s) => retry exhausted round n s

/-- Whether a status is as new as a registration. -/
def isStale (registration : ControllerRegistration) (status : EdgionControllerStatus) : Bool :=
  match registration.ownershipFence with
  | some fence => fence.epoch ≤ status.ownershipEpoch
  | none => 0 < status.ownershipEpoch || registration.observedAtUnixMs ≤ status.observedAtUnixMs

def upsertTransition (registration : ControllerRegistration) (lastSeenTime : Int) :
    StatusTransition :=
  fun current generation =>
    if current.any (isStale registration) then none
    else some
      { phase := .online
        sessionId := some registration.sessionId.value
        cluster := registration.cluster
        environments := registration.environments
        tags := registration.tags
        connectedReplica := registration.connectedReplica
        ownershipToken := registration.ownershipFence.map OwnershipFence.token
        ownershipEpoch := registration.ownershipFence.elim 0 OwnershipFence.epoch
        syncVersion := none
        watchServerId := none
        resourceCount := none
        resourceCountsByKind := none
        statsUpdatedUnixMs := none
        watchUpdatedUnixMs := none
        lastSeenTime := lastSeenTime
        observedAtUnixMs := registration.observedAtUnixMs
        evicted := false
        observedGeneration := generation }

/-- Whether an offline mark of a session comes too late for a status, or is not about it. -/
def isNotCurrent (observedSession : SessionId) (ownershipFence : Option OwnershipFence)
    (observedAtUnixMs : Int) (status : EdgionControllerStatus) : Bool :=
  if status.evicted then true
  else
    match ownershipFence with
    | some fence =>
      if status.ownershipEpoch < fence.epoch then false
      else if status.ownershipEpoch = fence.epoch then
        status.sessionId != some observedSession.value ||
          status.ownershipToken != some fence.token
      else true
    | none => 0 < status.ownershipEpoch || status.sessionId != some observedSession.value ||
        observedAtUnixMs < status.observedAtUnixMs

def offlineTransition (observedSession : SessionId) (ownershipFence : Option OwnershipFence)
    (observedAtUnixMs lastSeenTime : Int) : StatusTransition :=
  fun current generation =>
    if current.any (isNotCurrent observedSession ownershipFence observedAtUnixMs) then none
    else some
      { phase := .offline
        sessionId := some observedSession.value
        cluster := current.elim "" (·.cluster)
        environments := current.elim [] (·.environments)
        tags := current.elim [] (·.tags)
        connectedReplica := none
        ownershipToken := ownershipFence.map OwnershipFence.token
        ownershipEpoch := ownershipFence.elim 0 OwnershipFence.epoch
        syncVersion := current.bind (·.syncVersion)
        watchServerId := current.bind (·.watchServerId)
        resourceCount := current.bind (·.resourceCount)
        resourceCountsByKind := current.bind (·.resourceCountsByKind)
        statsUpdatedUnixMs := current.bind (·.statsUpdatedUnixMs)
        watchUpdatedUnixMs := current.bind (·.watchUpdatedUnixMs)
        lastSeenTime := lastSeenTime
        observedAtUnixMs :=
          current.elim observedAtUnixMs fun status => max status.observedAtUnixMs observedAtUnixMs
        evicted := false
        observedGeneration := generation }

/-- Whether a status is that of the session an observation is about. -/
def isObserved (observation : ControllerRuntimeObservation) (status : EdgionControllerStatus) :
    Bool :=
  if status.evicted || status.phase != .online ||
      status.sessionId != some observation.sessionId.value then false
  else
    match observation.ownershipFence with
    | some fence =>
      status.ownershipEpoch = fence.epoch && status.ownershipToken == some fence.token
    | none => status.ownershipEpoch = 0

def runtimeTransition (observation : ControllerRuntimeObservation) (observedTime : Int) :
    StatusTransition
  | none, _ => none
  | some current, generation =>
    if isObserved observation current then
      let newer := decide (current.observedAtUnixMs < observation.observedAtUnixMs)
      some
        { current with
          syncVersion := observation.syncVersion <|> current.syncVersion
          watchServerId := observation.watchServerId <|> current.watchServerId
          resourceCount := observation.resourceCount <|> current.resourceCount
          resourceCountsByKind := observation.resourceCountsByKind <|> current.resourceCountsByKind
          statsUpdatedUnixMs := observation.statsUpdatedUnixMs <|> current.statsUpdatedUnixMs
          watchUpdatedUnixMs := observation.watchUpdatedUnixMs <|> current.watchUpdatedUnixMs
          observedAtUnixMs :=
            if newer then observation.observedAtUnixMs else current.observedAtUnixMs
          lastSeenTime := if newer then observedTime else current.lastSeenTime
          observedGeneration := generation }
    else none

/-- What an eviction leaves of a status. -/
def evictStatus (status : EdgionControllerStatus) : EdgionControllerStatus :=
  { status with evicted := true, phase := .offline, sessionId := none, connectedReplica := none }

def alreadyAbsent : EvictionResult := ⟨.alreadyAbsent, none⟩

def storedFence (status : EdgionControllerStatus) : Option OwnershipFence :=
  if 0 < status.ownershipEpoch then status.ownershipToken.map fun token =>
    ⟨token, status.ownershipEpoch⟩
  else none

/-- The write of an eviction round, for the session it found. -/
def hideStatus (name : String) (resource : EdgionController) (status : EdgionControllerStatus)
    (session : Option SessionId) (s : Resources) : Option (CoreResult EvictionResult) × Resources :=
  match s.replaceStatus name { resource with status := some (evictStatus status) } with
  | (.ok _, s) =>
    (some (.ok ⟨.evicted, some ⟨session, status.connectedReplica, storedFence status⟩⟩), s)
  | (.error .conflict, s) => (none, s)
  | (.error e, s) => (some (.error (adapterError e)), s)

/-- A round of `evict`; here an error of the first request ends the call, even a conflict. -/
def evictionRound (name : String) (id : ControllerId) (s : Resources) :
    Option (CoreResult EvictionResult) × Resources :=
  match s.get name with
  | (.error e, s) => (some (.error (adapterError e)), s)
  | (.ok none, s) => (some (.ok alreadyAbsent), s)
  | (.ok (some resource), s) =>
    match verifyIdentity resource id with
    | .error e => (some (.error e), s)
    | .ok () =>
      match resource.status with
      | none => (some (.ok alreadyAbsent), s)
      | some status =>
        if status.evicted then (some (.ok alreadyAbsent), s)
        else match storedSession status.sessionId with
          | .error e => (some (.error e), s)
          | .ok session => hideStatus name resource status session s

def recordPhase : EdgionControllerPhase → ControllerPhase
  | .online => .online
  | .offline => .offline
  | .stale => .stale

/-- What `list` shows of a resource, if anything. -/
def record (resource : EdgionController) : CoreResult (Option ControllerRecord) :=
  match resource.status with
  | none => .ok none
  | some status =>
    if status.evicted then .ok none
    else do
      let controllerId ← Identifier.new "controller" resource.spec.controllerId
      let online := status.phase == .online
      let currentSessionId ← shownSession online status.sessionId
      return some
        { controllerId := controllerId
          currentSessionId := currentSessionId
          cluster := status.cluster
          environments := status.environments
          tags := status.tags
          connectedReplica := if online then status.connectedReplica else none
          ownershipFence := if online then storedFence status else none
          syncVersion := status.syncVersion
          watchServerId := status.watchServerId
          resourceCount := status.resourceCount
          resourceCountsByKind := status.resourceCountsByKind
          statsUpdatedUnixMs := status.statsUpdatedUnixMs
          watchUpdatedUnixMs := status.watchUpdatedUnixMs
          phase := recordPhase status.phase
          lastSeenUnixMs := status.observedAtUnixMs }

theorem online_of_record {resource : EdgionController} {r : ControllerRecord}
    {session : SessionId} (h : record resource = .ok (some r)) (hs : r.ShowsOnline session) :
    ∃ status, resource.status = some status ∧ status.evicted = false ∧ status.phase = .online ∧
      status.sessionId = some session.value := by
  unfold record at h
  cases hstatus : resource.status with
  | none =>
    rw [hstatus] at h
    cases h
  | some status =>
    rw [hstatus] at h
    simp only at h
    by_cases hevicted : status.evicted = true
    · rw [if_pos hevicted] at h
      cases h
    · rw [if_neg hevicted] at h
      obtain ⟨id, -, h⟩ := bind_eq_ok_iff.mp h
      obtain ⟨current, hcurrent, h⟩ := bind_eq_ok_iff.mp h
      cases h
      obtain ⟨hphase, rfl⟩ := hs
      cases honline : status.phase with
      | online =>
        rw [honline] at hcurrent
        exact ⟨status, rfl, by simpa using hevicted, honline, value_of_storedSession hcurrent⟩
      | offline | stale => simp [recordPhase, honline] at hphase

variable (d : KubernetesControllerDirectory)

def controllerResourceName (controllerId : String) : String :=
  let stem := ((resourceStem controllerId.toList [] false).dropWhile (· = '-')).reverse
  let stem := if stem = [] then "controller" else String.ofList stem
  stem ++ "-" ++ String.ofList ((d.digest controllerId).toList.take 12)

def timeFromMillis (unixMs : Int) : CoreResult Int :=
  if d.inRange unixMs then .ok unixMs
  else .error (.adapter ("observed timestamp " ++ toString unixMs ++ " is outside RFC3339 range"))

def replaceStatusWithRetry (id : ControllerId) (spec : EdgionControllerSpec)
    (transition : StatusTransition) (s : Resources) : CoreResult Bool × Resources :=
  retry (projectionConflicted id)
    (projectionRound (d.controllerResourceName id.value) id spec transition) maxConflictRetries s

def upsertRegistration (registration : ControllerRegistration) (s : Resources) :
    CoreResult Unit × Resources :=
  match d.timeFromMillis registration.observedAtUnixMs with
  | .error e => (.error e, s)
  | .ok lastSeenTime =>
    let spec : EdgionControllerSpec :=
      ⟨registration.controllerId.value, registration.cluster, registration.environments,
        registration.tags⟩
    match d.replaceStatusWithRetry registration.controllerId spec
        (upsertTransition registration lastSeenTime) s with
    | (.error e, s) => (.error e, s)
    | (.ok true, s) => (.ok (), s)
    | (.ok false, s) => (.error (staleRegistration registration.controllerId), s)

def markOffline (id : ControllerId) (observedSession : SessionId)
    (ownershipFence : Option OwnershipFence) (observedAtUnixMs : Int) (s : Resources) :
    CoreResult OfflineOutcome × Resources :=
  match d.timeFromMillis observedAtUnixMs with
  | .error e => (.error e, s)
  | .ok lastSeenTime =>
    match d.replaceStatusWithRetry id ⟨id.value, "", [], []⟩
        (offlineTransition observedSession ownershipFence observedAtUnixMs lastSeenTime) s with
    | (.error e, s) => (.error e, s)
    | (.ok true, s) => (.ok .marked, s)
    | (.ok false, s) => (.ok .notCurrent, s)

def projectRuntime (observation : ControllerRuntimeObservation) (s : Resources) :
    CoreResult Bool × Resources :=
  match d.timeFromMillis observation.observedAtUnixMs with
  | .error e => (.error e, s)
  | .ok observedTime =>
    d.replaceStatusWithRetry observation.controllerId ⟨observation.controllerId.value, "", [], []⟩
      (runtimeTransition observation observedTime) s

def evict (id : ControllerId) (s : Resources) : CoreResult EvictionResult × Resources :=
  retry (evictionConflicted id) (evictionRound (d.controllerResourceName id.value) id)
    maxConflictRetries s

def run : DirectoryOp → Resources → CoreResult DirectoryReply × Resources
  | .upsertRegistration registration, s =>
    let (result, s) := d.upsertRegistration registration s
    (result.map fun _ => .registered, s)
  | .markOffline id session fence observedAt, s =>
    let (result, s) := d.markOffline id session fence observedAt s
    (result.map .offline, s)
  | .projectRuntime observation, s =>
    let (result, s) := d.projectRuntime observation s
    (result.map .projected, s)
  | .evict id, s =>
    let (result, s) := d.evict id s
    (result.map .evicted, s)

/-- For the examples: a digest that tells nothing apart, and no limit on times. -/
def exampleDirectory : KubernetesControllerDirectory := ⟨fun _ => "0123456789ab", fun _ => true⟩

end KubernetesControllerDirectory

end EdgionCenter
