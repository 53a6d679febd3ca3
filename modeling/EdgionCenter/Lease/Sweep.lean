import EdgionCenter.Directory.Kubernetes
import EdgionCenter.Lease.Exclusion
import EdgionCenter.Proxy.Forward

/-! The directory sweep of the Kubernetes binary. A replica that finds no route to the owner of an
online controller takes the owner's Lease over, projects the controller offline and gives the Lease
back. -/
namespace EdgionCenter

open Versioned Transition

section Locator

structure Pod where
  uid : Option String
  deletionTimestamp : Option Int
  phase : Option String
  podIp : Option String
  deriving DecidableEq

namespace OwnerLocator

/-- The fence that an active Lease has to carry. -/
def activeFence (lease : Lease) : CoreResult OwnershipFence :=
  match lease.token.filter (· ≠ "") with
  | none => .error (.conflict "active Controller Lease omitted fencing token")
  | some token =>
    match lease.annotation epochAnnotation with
    | none => .error (.conflict "active Controller Lease omitted fencing epoch")
    | some text =>
      match parseU64 text with
      | none => .error (.conflict "active Controller Lease has invalid fencing epoch")
      | some 0 => .error (.conflict "active Controller Lease has zero fencing epoch")
      | some (epoch + 1) => .ok ⟨token, epoch + 1⟩

/-- The locator watches versions for itself, beside the coordinator. -/
def activeOwner (observation : Option LeaseObservation) (lease : Object Lease)
    (expectedRole : String) (now : Nat) :
    CoreResult (Option (String × OwnershipFence)) × Option LeaseObservation :=
  match lease.value.annotations with
  | none => (.error (.conflict "managed Controller Lease omitted annotations"), observation)
  | some annotations =>
    if annotations.get? roleAnnotation ≠ some expectedRole then
      (.error (.conflict "Controller Lease role annotation did not match its name"), observation)
    else
      let holder := (lease.value.spec.bind (·.holderIdentity)).filter (· ≠ "")
      let duration := (lease.value.spec.bind (·.leaseDurationSeconds)).filter (0 < ·)
      match holder, duration with
      | some holder, some duration =>
        let observedAt := match observation with
          | some (seen, at_) => if seen = lease.version then at_ else now
          | none => now
        let observation := some (lease.version, observedAt)
        if duration.toNat * 10 ^ 9 ≤ now - observedAt then (.ok none, observation)
        else ((activeFence lease.value).map fun fence => some (holder, fence), observation)
      | _, _ => (.ok none, observation)

def parseHolder (holder : String) : CoreResult (String × String) :=
  match holder.toList.splitOn '/' with
  | [podName, podUid] =>
    if podName ≠ [] ∧ podUid ≠ [] then .ok (String.ofList podName, String.ofList podUid)
    else .error (.conflict "Controller Lease holder must be podName/podUID")
  | _ => .error (.conflict "Controller Lease holder must be podName/podUID")

def podIp (pod : Pod) (expectedUid : String) : Option String :=
  if pod.uid ≠ some expectedUid ∨ pod.deletionTimestamp.isSome = true ∨
      pod.phase ≠ some "Running" then none
  else pod.podIp.filter (· ≠ "")

def endpoint (internalPort : Nat) (podIp : String) : String :=
  if ':' ∈ podIp.toList then "https://[" ++ podIp ++ "]:" ++ toString internalPort
  else "https://" ++ podIp ++ ":" ++ toString internalPort

/-- `locate` with the Lease it read, and what the Pods are when it asks for one. -/
def locate (internalPort : Nat) (role : CoordinationRole) (observation : Option LeaseObservation)
    (now : Nat) (lease : Option (Object Lease)) (pods : String → Option Pod) :
    CoreResult (Option ControllerOwnerRoute) × Option LeaseObservation :=
  match lease with
  | none => (.ok none, observation)
  | some lease =>
    match activeOwner observation lease (roleKey role) now with
    | (.error e, observation) => (.error e, observation)
    | (.ok none, observation) => (.ok none, observation)
    | (.ok (some (holder, fence)), observation) =>
      match parseHolder holder with
      | .error e => (.error e, observation)
      | .ok (podName, podUid) =>
        match (pods podName).bind (podIp · podUid) with
        | none => (.ok none, observation)
        | some ip => (.ok (some ⟨holder, endpoint internalPort ip, fence⟩), observation)

end OwnerLocator

end Locator

/-- The replicas of one controller with its directory. Some calls are those of sweeps, the others
those of sessions. -/
structure Installation extends Deployment where
  controllerId : ControllerId
  owner : role = .controllerOwner controllerId.value
  directory : KubernetesControllerDirectory
  internalPort : Nat
  sweeps : Nat → Bool

/-- How far the sweep is with the controller; from `acquire` on, the phase of its Lease call tells. -/
inductive SweepStage
  | idle
  | listed (record : ControllerRecord)
  | looked (record : ControllerRecord) (lease : Option (Object Lease))
  | unrouted (record : ControllerRecord)
  | reconciling (session : SessionId)
  | done

/-- `writtenAt` is when the stored Lease was written, and `renewedAt` when the Lease was last acquired
or renewed for a session. No step reads them. -/
structure Sweeps where
  fleet : Fleet
  located : Nat → Option LeaseObservation
  directory : Resources
  stage : Nat → SweepStage
  writtenAt : Nat
  renewedAt : Nat → Option Nat

/-- Whether the operation puts off the expiry of the Lease. -/
def LeaseOp.prolongs : LeaseOp → Bool
  | .acquire | .renew _ => true
  | .release _ => false

/-- The call whose write an action is, if it is one. -/
def OwnerAction.written (s : Fleet) : OwnerAction → Option (Nat × LeaseOp)
  | .commit i =>
    match s.phase i with
    | .calling op _ => some (i, op)
    | _ => none
  | .late i op => some (i, op)
  | _ => none

/-- The actions that sweeps do not take. -/
def OwnerAction.session : OwnerAction → Option Nat
  | .start i | .register i => some i
  | _ => none

namespace Sweeps

variable (D : Installation) (s : Sweeps)

def setStage (k : Nat) (stage : SweepStage) : Sweeps :=
  { s with stage := Function.update s.stage k stage }

/-- An action of the replicas leaves `fleet`. -/
def took (a : OwnerAction) (fleet : Fleet) : Sweeps :=
  match a.written s.fleet with
  | none => { s with fleet := fleet }
  | some (i, op) =>
    { s with
      fleet := fleet
      writtenAt := s.fleet.time
      renewedAt := if op.prolongs && !D.sweeps i then
        Function.update s.renewedAt i (some s.fleet.time) else s.renewedAt }

/-- `mark_offline` of a session under the fence of a leadership. -/
def projection (session : SessionId) (l : Leadership) (observedAt : Int) (answers : List Answer) :
    Resources :=
  (D.directory.markOffline D.controllerId session (some l.fence) observedAt
    ⟨s.directory.stored, answers⟩).2

end Sweeps

inductive SweepAction
  | owner (a : OwnerAction)
  | directory (op : DirectoryOp)
  | list (k : Nat)
  | look (k : Nat)
  | locate (k : Nat)
  | reconcile (k : Nat)
  | project (k : Nat) (observedAt : Int) (answers : List Answer)

section Steps

variable (D : Installation)

/-- The sweeps between the actions of the sessions. Pods are whatever they are when they are asked
for, and the directory is written by others as well. -/
inductive SweepStep : Sweeps → SweepAction → Sweeps → Prop
  | owner {s : Sweeps} :
    OwnerStep D.toDeployment s.fleet a fleet → (∀ i, a.session = some i → D.sweeps i = false) →
    SweepStep s (.owner a) (s.took D a fleet)
  | directory {s : Sweeps} (op : DirectoryOp) (answers : List Answer) :
    SweepStep s (.directory op)
      { s with directory := (D.directory.run op ⟨s.directory.stored, answers⟩).2 }
  | list {s : Sweeps} : D.sweeps k = true → s.stage k = .idle →
    s.directory.stored name = some resource →
    KubernetesControllerDirectory.record resource = .ok (some record) →
    record.controllerId = D.controllerId → record.phase = .online →
    SweepStep s (.list k) (s.setStage k (.listed record))
  | look {s : Sweeps} : s.stage k = .listed record →
    SweepStep s (.look k) (s.setStage k (.looked record s.fleet.server.stored))
  | locate {s : Sweeps} (pods : String → Option Pod) :
    s.stage k = .looked record lease →
    OwnerLocator.locate D.internalPort D.role (s.located (D.home k)) (s.fleet.clock D.toDeployment k)
      lease pods = (result, observation) →
    SweepStep s (.locate k)
      { s.setStage k (if result = .ok none then .unrouted record else .done) with
        located := Function.update s.located (D.home k) observation }
  -- A record without a session needs nothing.
  | reconcile {s : Sweeps} (wall : Int) (token : String) : s.stage k = .unrouted record →
    record.currentSessionId = some session → s.fleet.phase k = .idle →
    SweepStep s (.reconcile k)
      { s.setStage k (.reconciling session) with
        fleet := s.fleet.setPhase k (.calling .acquire
          (.reading maxConflictRetries (s.fleet.clock D.toDeployment k) wall token)) }
  -- Whatever comes of the projection, the Lease is given back next.
  | project {s : Sweeps} (observedAt : Int)
    (answers : List Answer) : s.stage k = .reconciling session → s.fleet.phase k = .acquired l →
    SweepStep s (.project k observedAt answers)
      { s.setStage k .done with
        directory := s.projection D session l observedAt answers
        fleet := s.fleet.setPhase k (.leaving l) }

end Steps

namespace Sweeps

variable (D : Installation) (s : Sweeps)

/-- The flag of the session is set, and its Lease was renewed within its duration. -/
def Recent (i : Nat) : Prop :=
  s.fleet.valid i = true ∧
    ∃ t, s.renewedAt i = some t ∧ s.fleet.time < t + (D.replica (D.home i)).leaseDuration

def LiveOwner (i : Nat) : Prop := s.fleet.registry (D.home i) = some i ∧ s.Recent D i

/-- An action by which a sweep writes the Lease, or projects the controller offline. -/
inductive SweepWrites : SweepAction → Prop
  | lease {a : OwnerAction} : a.written s.fleet = some (k, op) →
    D.sweeps k = true → SweepWrites (.owner a)
  | projection {k : Nat} : s.stage k = .reconciling session → s.fleet.phase k = .acquired l →
    (s.projection D session l observedAt answers).stored ≠ s.directory.stored →
    SweepWrites (.project k observedAt answers)

end Sweeps

end EdgionCenter
