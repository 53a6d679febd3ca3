import EdgionCenter.Directory.Controller
import EdgionCenter.Lib.Register

/-! Sessions of a controller as the directory is told about them. -/
namespace EdgionCenter

open Register

/-- The SQL adapter orders sessions by `observedAt`, the Kubernetes adapter by the epoch of their
fence. -/
structure Session where
  id : SessionId
  observedAt : Int
  fence : OwnershipFence
  deriving DecidableEq

variable (c : ControllerId) (x : Session)

/-- A registration or an offline mark of the session, at its time of observation. -/
def Session.SqlOp : DirectoryOp → Prop
  | .upsertRegistration r =>
    r.controllerId = c ∧ r.sessionId = x.id ∧ r.observedAtUnixMs = x.observedAt
  | .markOffline id session _ observedAt =>
    id = c ∧ session = x.id ∧ observedAt = x.observedAt
  | _ => False

/-- A registration or an offline mark of the session, under its fence. -/
def Session.FencedOp : DirectoryOp → Prop
  | .upsertRegistration r =>
    r.controllerId = c ∧ r.sessionId = x.id ∧ r.ownershipFence = some x.fence
  | .markOffline id session fence _ => id = c ∧ session = x.id ∧ fence = some x.fence
  | _ => False

namespace DirectoryOp

def isOffline : DirectoryOp → Bool
  | .markOffline .. => true
  | _ => false

/-- Registrations and offline marks speak for a session. -/
def isSessionWrite : DirectoryOp → Bool
  | .upsertRegistration _ | .markOffline .. => true
  | _ => false

def observedAt : DirectoryOp → Int
  | .upsertRegistration registration => registration.observedAtUnixMs
  | .markOffline _ _ _ observedAt => observedAt
  | .projectRuntime observation => observation.observedAtUnixMs
  | .evict _ => 0

/-- What the operation writes to a register of times. -/
def sqlWrite (op : DirectoryOp) : Write Int := .of op.isOffline op.observedAt

def fence : DirectoryOp → Option OwnershipFence
  | .upsertRegistration registration => registration.ownershipFence
  | .markOffline _ _ fence _ => fence
  | .projectRuntime observation => observation.ownershipFence
  | .evict _ => none

def epoch (op : DirectoryOp) : Nat := op.fence.elim 0 OwnershipFence.epoch

/-- What the operation writes to a register of epochs. -/
def fencedWrite (op : DirectoryOp) : Write Nat := .of op.isOffline op.epoch

end DirectoryOp

variable {c x} {op : DirectoryOp}

theorem Session.SqlOp.observedAt (h : x.SqlOp c op) : op.observedAt = x.observedAt := by
  cases op with
  | upsertRegistration r | markOffline id session fence observedAt => exact h.2.2
  | _ => exact h.elim

theorem Session.FencedOp.epoch (h : x.FencedOp c op) : op.epoch = x.fence.epoch := by
  cases op with
  | upsertRegistration r => simp [DirectoryOp.epoch, DirectoryOp.fence, h.2.2]
  | markOffline id session fence observedAt =>
    simp [DirectoryOp.epoch, DirectoryOp.fence, h.2.2]
  | _ => exact h.elim

end EdgionCenter
