import EdgionCenter.Admin.ConfigData
import EdgionCenter.Lib.Interleaving
import EdgionCenter.Watch.MetaDataStore

/-! The endpoints for region route overrides: the failover of one region on every controller, and
the copy of one controller's document to others. -/
namespace EdgionCenter

open Interaction

/-! ### Equality of documents -/

mutual

/-- `PartialEq` of `serde_json::Value`; members are kept in key order. -/
def Value.eq : Value → Value → Bool
  | .null, .null => true
  | .bool a, .bool b => a == b
  | .number m, .number n => m == n
  | .string s, .string t => s == t
  | .array xs, .array ys => Value.eqItems xs ys
  | .object ms, .object ns => Value.eqMembers ms ns
  | _, _ => false

def Value.eqItems : List Value → List Value → Bool
  | [], [] => true
  | x :: xs, y :: ys => x.eq y && Value.eqItems xs ys
  | _, _ => false

def Value.eqMembers : List (String × Value) → List (String × Value) → Bool
  | [], [] => true
  | (k, x) :: ms, (l, y) :: ns => k == l && x.eq y && Value.eqMembers ms ns
  | _, _ => false

end

/-! ### Requests and answers -/

structure FailoverRequest where
  ns : String
  name : String
  regionName : String
  failoverTo : String
  deriving DecidableEq

structure OverrideSyncRequest where
  ns : String
  name : String
  sourceControllerId : String
  targetControllerIds : List String
  deriving DecidableEq

structure CenterRegionRouteOverrideView where
  ns : String
  name : String
  controllers : Map Value

/-- A status and a JSON body. -/
abbrev JsonResponse := StatusCode × Value

def unprocessableEntity : StatusCode := 422

/-- What the handlers ask of the replica before they write. -/
inductive RegionCall
  | onlineControllerIds
  | listRegionRouteOverrides
  | rawDocument (controllerId key : String)

@[reducible] def RegionCall.Reply : RegionCall → Type
  | onlineControllerIds => Except String (List String)
  | listRegionRouteOverrides => List CenterRegionRouteOverrideView
  | rawDocument .. => Option Value

abbrev RegionRun := Interaction RegionCall RegionCall.Reply

namespace RegionRun

def onlineControllerIds : RegionRun (Except String (List String)) :=
  ask RegionCall.onlineControllerIds

def listRegionRouteOverrides : RegionRun (List CenterRegionRouteOverrideView) :=
  ask RegionCall.listRegionRouteOverrides

def rawDocument (controllerId key : String) : RegionRun (Option Value) :=
  ask (RegionCall.rawDocument controllerId key)

end RegionRun

/-- The writes that `join_all` runs side by side. -/
structure WriteJob where
  targets : List String
  ns : String
  name : String
  mutate : Value → Except String Value
  predicate : Value → Bool

def WriteJob.programs [Wire] (job : WriteJob) : List (AdminRun WriteOutcome) :=
  job.targets.map fun controllerId =>
    writeConfigData controllerId job.ns job.name job.mutate job.predicate

/-- Without any online controller the request fails. -/
def requireOnline : Except String (List String) → Except JsonResponse (List String)
  | .ok online =>
    if online = [] then .error (serviceUnavailable, errorBody "no online controllers")
    else .ok online
  | .error error => .error (serviceUnavailable, errorBody error)

def onlineControllers : ExceptT JsonResponse RegionRun (List String) := do
  let online ← liftM RegionRun.onlineControllerIds
  liftM (requireOnline online)

/-! ### Failover -/

def regionOverrideType : String := "RegionRouteOverride"

def configDataTypeIs (document : Value) (expected : String) : Bool :=
  ConfigTyped.configType document == some expected

def regionsPointer : List String := ["spec", "data", "config", "regions"]

def regionIndex (document : Value) (regionName : String) : Option Nat := do
  let regions ← (← document.pointer regionsPointer).asArray
  regions.findIdx? fun region => (region.get "name").bind Value.asStr == some regionName

/-- `failoverTo` of the region at an index. -/
def regionFailover (document : Value) (index : Nat) : Option Value := do
  let regions ← (← document.pointer regionsPointer).asArray
  (← regions[index]?).get "failoverTo"

/-- The empty name stands for no failover. -/
def failoverValueMatches (value : Option Value) (failoverTo : String) : Bool :=
  if failoverTo = "" then
    match value with
    | none | some .null => true
    | _ => false
  else value.bind Value.asStr == some failoverTo

def regionFailoverMatches (document : Value) (regionName failoverTo : String) : Bool :=
  match regionIndex document regionName with
  | none => false
  | some index => failoverValueMatches (regionFailover document index) failoverTo

def setFailoverTo (failoverTo : String) : Value → Value
  | .object fields =>
    if failoverTo = "" then .object (Value.removeMember "failoverTo" fields)
    else .object (Value.insertMember "failoverTo" (.string failoverTo) fields)
  | region => region

def setItem (index : Nat) (f : Value → Value) : Value → Value
  | .array items => .array (items.modify index f)
  | value => value

def setRegionFailoverTo (document : Value) (regionName failoverTo : String) : Except String Value :=
  match regionIndex document regionName with
  | none => .error ("region '" ++ regionName ++
      "' was not found under /spec/data/config/regions")
  | some index =>
    .ok (document.modify regionsPointer (setItem index (setFailoverTo failoverTo)))

def failoverMutate (req : FailoverRequest) (expectedType : String) (document : Value) :
    Except String Value :=
  if configDataTypeIs document expectedType then
    setRegionFailoverTo document req.regionName req.failoverTo
  else .error ("document is not a " ++ expectedType ++ ": spec.data.type is " ++
    (ConfigTyped.configType document).getD "absent")

def failoverPredicate (req : FailoverRequest) (expectedType : String) (document : Value) : Bool :=
  configDataTypeIs document expectedType &&
    regionFailoverMatches document req.regionName req.failoverTo

def directOverrideFailover (req : FailoverRequest) (expectedType : String) :
    ExceptT JsonResponse RegionRun WriteJob := do
  let online ← onlineControllers
  return ⟨online, req.ns, req.name, failoverMutate req expectedType,
    failoverPredicate req expectedType⟩

/-! ### Sync -/

def replaceSpecData (sourceData document : Value) : Except String Value :=
  match document with
  | .object members =>
    match members.lookup "spec" with
    | some (.object spec) =>
      .ok (.object (Value.insertMember "spec" (.object (Value.insertMember "data" sourceData spec))
        members))
    | _ => .error "target resource is missing spec"
  | _ => .error "target resource is missing spec"

def syncPredicate (sourceData document : Value) : Bool :=
  match document.pointer ["spec", "data"] with
  | some data => data.eq sourceData
  | none => false

/-- Without given targets, all other online controllers. -/
def syncTargets (req : OverrideSyncRequest) (online : List String) : List String :=
  if req.targetControllerIds = [] then online.filter (· ≠ req.sourceControllerId)
  else (req.targetControllerIds.filter (· ≠ req.sourceControllerId)).eraseDups

def findRow (rows : List CenterRegionRouteOverrideView) (ns name : String) :
    Option CenterRegionRouteOverrideView :=
  rows.find? fun row => row.ns = ns ∧ row.name = name

/-- An answer instead of what is missing. -/
def orAnswer {α : Type} (value : Option α) (status : StatusCode) (error : String) :
    Except JsonResponse α :=
  match value with
  | some a => .ok a
  | none => .error (status, errorBody error)

/-- The checks on the row and the targets. -/
def chooseTargets (req : OverrideSyncRequest) (online : List String)
    (rows : List CenterRegionRouteOverrideView) : Except JsonResponse (List String) := do
  let row ← orAnswer (findRow rows req.ns req.name) statusNotFound "override not found"
  Fallible.require (req.sourceControllerId ∈ row.controllers)
    (badRequest, errorBody "source Controller does not have this override")
  Fallible.require (syncTargets req online ≠ [] ∧ ∀ id ∈ syncTargets req online, id ∈ online)
    (badRequest, errorBody "targets must be online Controllers other than the source")
  return syncTargets req online

/-- The data to copy, from the source's own cache. -/
def sourceData (document : Option Value) : Except JsonResponse Value := do
  let source ← orAnswer document badGateway "source document is not in the local watch cache"
  orAnswer (source.pointer ["spec", "data"]) unprocessableEntity
    "source document is missing spec.data"

def syncWatchedOverride (req : OverrideSyncRequest) : ExceptT JsonResponse RegionRun WriteJob := do
  let online ← onlineControllers
  let rows ← liftM RegionRun.listRegionRouteOverrides
  let targets ← liftM (chooseTargets req online rows)
  let document ← liftM
    (RegionRun.rawDocument req.sourceControllerId (req.ns ++ "/" ++ req.name))
  let data ← liftM (sourceData document)
  return ⟨targets, req.ns, req.name, replaceSpecData data, syncPredicate data⟩

/-! ### Both endpoints -/

inductive RegionRequest
  | failover (req : FailoverRequest)
  | sync (req : OverrideSyncRequest)
  deriving DecidableEq

namespace RegionRequest

def ns : RegionRequest → String
  | failover req => req.ns
  | sync req => req.ns

def name : RegionRequest → String
  | failover req => req.name
  | sync req => req.name

/-- The handler up to its writes. -/
def prepare : RegionRequest → ExceptT JsonResponse RegionRun WriteJob
  | failover req => directOverrideFailover req regionOverrideType
  | sync req => syncWatchedOverride req

end RegionRequest

end EdgionCenter
