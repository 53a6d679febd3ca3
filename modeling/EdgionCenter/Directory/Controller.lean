import EdgionCenter.Core
import EdgionCenter.Text

/-! The platform-neutral controller directory: what its callers hand in and get back. -/
namespace EdgionCenter

def isIdentifier (value : String) : Bool := trim value != "" && !value.toList.any isControl

structure Identifier (kind : String) where
  value : String
  valid : isIdentifier value = true
  deriving DecidableEq

abbrev ControllerId := Identifier "controller"
abbrev SessionId := Identifier "session"

def Identifier.new (kind value : String) : CoreResult (Identifier kind) :=
  if h : isIdentifier value = true then .ok ⟨value, h⟩ else .error (.invalidIdentifier kind value)

/-- `session_id.map(SessionId::new).transpose()`. -/
def storedSession : Option String → CoreResult (Option SessionId)
  | none => .ok none
  | some value => (Identifier.new "session" value).map some

/-- The session that `list` names; that of a controller not online is hidden. -/
def shownSession (online : Bool) (stored : Option String) : CoreResult (Option SessionId) :=
  if online then storedSession stored else .ok none

variable {kind : String} {α β : Type} {a : Identifier kind} {b : β} {x : CoreResult α}

theorem Identifier.ext {b : Identifier kind} (h : a.value = b.value) : a = b := by
  cases a
  cases b
  cases h
  rfl

theorem value_of_new {value : String} (h : Identifier.new kind value = .ok a) :
    a.value = value := by
  unfold Identifier.new at h
  split at h <;> cases h
  rfl

theorem value_of_storedSession {stored : Option String} {session : SessionId}
    (h : storedSession stored = .ok (some session)) : stored = some session.value := by
  cases stored with
  | none => cases h
  | some value =>
    simp only [storedSession] at h
    cases hn : Identifier.new "session" value with
    | error e =>
      rw [hn] at h
      cases h
    | ok a =>
      rw [hn] at h
      cases h
      rw [value_of_new hn]

theorem bind_eq_ok_iff {f : α → CoreResult β} :
    (x >>= f) = .ok b ↔ ∃ a, x = .ok a ∧ f a = .ok b := by
  cases x <;> simp [bind, Except.bind]

theorem map_eq_ok_iff {f : α → β} : x.map f = .ok b ↔ ∃ a, x = .ok a ∧ f a = b := by
  cases x <;> simp [Except.map]

/-- A controller for the examples. -/
def edge1 : ControllerId := ⟨"edge-1", by decide⟩

def newSession : SessionId := ⟨"new", by decide⟩

structure ControllerRegistration where
  controllerId : ControllerId
  sessionId : SessionId
  cluster : String
  environments : List String
  tags : List String
  connectedReplica : Option String
  ownershipFence : Option OwnershipFence
  observedAtUnixMs : Int
  deriving DecidableEq

inductive ControllerPhase
  | online
  | offline
  | stale
  deriving DecidableEq

structure ControllerRecord where
  controllerId : ControllerId
  currentSessionId : Option SessionId
  cluster : String
  environments : List String
  tags : List String
  connectedReplica : Option String
  ownershipFence : Option OwnershipFence
  syncVersion : Option Nat
  watchServerId : Option String
  resourceCount : Option Nat
  resourceCountsByKind : Option (List (String × Nat))
  statsUpdatedUnixMs : Option Int
  watchUpdatedUnixMs : Option Int
  phase : ControllerPhase
  lastSeenUnixMs : Int
  deriving DecidableEq

/-- The record shows the session online. -/
def ControllerRecord.ShowsOnline (record : ControllerRecord) (session : SessionId) : Prop :=
  record.phase = .online ∧ record.currentSessionId = some session

structure ControllerRuntimeObservation where
  controllerId : ControllerId
  sessionId : SessionId
  ownershipFence : Option OwnershipFence
  syncVersion : Option Nat
  watchServerId : Option String
  resourceCount : Option Nat
  resourceCountsByKind : Option (List (String × Nat))
  statsUpdatedUnixMs : Option Int
  watchUpdatedUnixMs : Option Int
  observedAtUnixMs : Int
  deriving DecidableEq

inductive EvictionOutcome
  | evicted
  | alreadyAbsent
  deriving DecidableEq

structure EvictionTarget where
  sessionId : Option SessionId
  connectedReplica : Option String
  ownershipFence : Option OwnershipFence
  deriving DecidableEq

structure EvictionResult where
  outcome : EvictionOutcome
  target : Option EvictionTarget
  deriving DecidableEq

inductive OfflineOutcome
  | marked
  | notCurrent
  deriving DecidableEq

/-- The writing operations of `ControllerDirectory`. -/
inductive DirectoryOp
  | upsertRegistration (registration : ControllerRegistration)
  | markOffline (id : ControllerId) (observedSession : SessionId)
      (ownershipFence : Option OwnershipFence) (observedAtUnixMs : Int)
  | projectRuntime (observation : ControllerRuntimeObservation)
  | evict (id : ControllerId)
  deriving DecidableEq

def DirectoryOp.controllerId : DirectoryOp → ControllerId
  | .upsertRegistration registration => registration.controllerId
  | .markOffline id .. => id
  | .projectRuntime observation => observation.controllerId
  | .evict id => id

inductive DirectoryReply
  | registered
  | offline (outcome : OfflineOutcome)
  | projected (changed : Bool)
  | evicted (result : EvictionResult)
  deriving DecidableEq

end EdgionCenter
