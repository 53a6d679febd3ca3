import EdgionCenter.Lib.Interference
import EdgionCenter.Proxy.Forward

/-! The write core for configuration documents: read, write under a version precondition, and
watch the local cache for the outcome. -/
namespace EdgionCenter

open Interaction

/-- `serde_json` and the texts of the HTTP library. -/
class Wire where
  fromSlice : List UInt8 → Except String Value
  toVec : Value → Except String (List UInt8)
  fromUtf8Lossy : List UInt8 → String
  displayStatus : StatusCode → String

inductive OutcomeState
  | converged
  | superseded
  | accepted
  | conflict
  | failed
  | unknown
  deriving DecidableEq

structure WriteOutcome where
  controllerId : String
  state : OutcomeState
  reason : Option String
  observed : Option Value
  convergenceMs : Option Nat

namespace WriteOutcome

variable (controllerId : String)

def failed (reason : String) : WriteOutcome :=
  ⟨controllerId, .failed, some reason, none, none⟩

def converged (convergenceMs : Nat) : WriteOutcome :=
  ⟨controllerId, .converged, none, none, some convergenceMs⟩

def superseded (observed : Value) (convergenceMs : Nat) : WriteOutcome :=
  ⟨controllerId, .superseded, some "overwritten after the write landed", some observed,
    some convergenceMs⟩

end WriteOutcome

/-- What the write core asks of the replica: its watch cache, its registry, the proxy and the
clock. -/
inductive AdminCall
  | rawDocument (controllerId key : String)
  | cachedServerId (controllerId : String)
  | localSessionIsDispatchable (controllerId : String)
  | fetch (controllerId : String) (request : ForwardHttpOperation)
  | dispatch (controllerId : String) (request : ForwardHttpOperation)
  | sleep
  | clock

/-- A sleep tells by how much it was longer than asked for, the clock how much time has passed
besides. -/
@[reducible] def AdminCall.Reply : AdminCall → Type
  | rawDocument .. => Option Value
  | cachedServerId _ => Option String
  | localSessionIsDispatchable _ => Bool
  | fetch .. | dispatch .. => Except (StatusCode × String) HttpProxyResponse
  | sleep | clock => Nat

abbrev AdminRun := Interaction AdminCall AdminCall.Reply

namespace AdminRun

def rawDocument (controllerId key : String) : AdminRun (Option Value) :=
  ask (AdminCall.rawDocument controllerId key)

def cachedServerId (controllerId : String) : AdminRun (Option String) :=
  ask (AdminCall.cachedServerId controllerId)

def localSessionIsDispatchable (controllerId : String) : AdminRun Bool :=
  ask (AdminCall.localSessionIsDispatchable controllerId)

def fetch (controllerId : String) (request : ForwardHttpOperation) :
    AdminRun (Except (StatusCode × String) HttpProxyResponse) :=
  ask (AdminCall.fetch controllerId request)

def dispatch (controllerId : String) (request : ForwardHttpOperation) :
    AdminRun (Except (StatusCode × String) HttpProxyResponse) :=
  ask (AdminCall.dispatch controllerId request)

def sleep : AdminRun Nat := ask AdminCall.sleep

def clock : AdminRun Nat := ask AdminCall.clock

end AdminRun

section WriteConfigData

/-- `CONVERGENCE_POLL_INTERVAL` and `CONVERGENCE_BUDGET` in milliseconds. -/
def convergencePollInterval : Nat := 500
def convergenceBudget : Nat := 10000

def resourceVersion (document : Value) : Option String :=
  (document.pointer ["metadata", "resourceVersion"]).bind Value.asStr

def configDataPath (ns name : String) : String :=
  "/api/v1/namespaced/edgionconfigdata/" ++ ns ++ "/" ++ name

/-- The part of a document that the controller computes is not written back. -/
def stripStatus : Value → Value
  | .object members =>
    let fields := Value.removeMember "status" members
    match fields.lookup "spec" with
    | some (.object spec) =>
      .object (Value.insertMember "spec" (.object (Value.removeMember "currentStatus" spec)) fields)
    | _ => .object fields
  | document => document

variable [Wire]

def responseDetail (body : List UInt8) : String :=
  String.ofList ((Wire.fromUtf8Lossy body).toList.take 500)

variable (controllerId ns name : String) (mutate : Value → Except String Value)
  (predicate : Value → Bool)

def readRequest : ForwardHttpOperation := ⟨"GET", configDataPath ns name, [], []⟩

def writeRequest (precondition : String) (body : List UInt8) : ForwardHttpOperation where
  method := "PUT"
  path := configDataPath ns name
  headers :=
    [("content-type", "application/json"), ("if-match", "\"" ++ precondition ++ "\"")]
  body := body

/-- The document that the fallback read found, or why there is none. -/
def fallbackDocument (reply : Except (StatusCode × String) HttpProxyResponse) :
    Except String Value :=
  match reply with
  | .ok response =>
    if response.isSuccess then
      match Wire.fromSlice response.body with
      | .ok document => .ok document
      | .error error => .error
          ("not in the local watch cache; fallback read returned an unparseable body: " ++ error)
    else .error ("not in the local watch cache; fallback read returned status " ++
      toString response.status ++ ": " ++ responseDetail response.body)
  | .error (status, message) => .error ("not in the local watch cache; fallback read failed (" ++
      Wire.displayStatus status ++ "): " ++ message)

def timedOut (lastSeenAbsent : Bool) : WriteOutcome where
  controllerId := controllerId
  state := .unknown
  reason := some (if lastSeenAbsent then
      "no local convergence observed within " ++ toString (convergenceBudget / 1000) ++
        "s; the document was last seen absent from the local watch cache"
    else "no local convergence observed within " ++ toString (convergenceBudget / 1000) ++ "s")
  observed := none
  convergenceMs := none

/-- What one look at the cache decides, if anything. -/
def judge (precondition : String) (elapsed : Nat) : Option Value → Option WriteOutcome
  | some observed =>
    if resourceVersion observed ≠ some precondition then
      some (if predicate observed then .converged controllerId elapsed
        else .superseded controllerId observed elapsed)
    else none
  | none => none

/-- The poll loop. A sleep lasts at least its interval, so the budget is used up in the end. -/
def poll (precondition : String) (elapsed : Nat) : AdminRun WriteOutcome := do
  let late ← AdminRun.sleep
  let seen ← AdminRun.rawDocument controllerId (ns ++ "/" ++ name)
  match judge controllerId predicate precondition (elapsed + convergencePollInterval + late)
    seen with
  | some outcome => return outcome
  | none =>
    if _h : convergenceBudget ≤ elapsed + convergencePollInterval + late then
      return timedOut controllerId seen.isNone
    else poll precondition (elapsed + convergencePollInterval + late)
termination_by convergenceBudget - elapsed
decreasing_by
  simp only [convergencePollInterval] at _h ⊢
  omega

/-- What the answer to the write says, unless it was accepted. -/
def refusal (precondition : String) (reply : Except (StatusCode × String) HttpProxyResponse) :
    Option WriteOutcome :=
  match reply with
  | .error (status, message) => some (.failed controllerId
      ("write dispatch failed (" ++ Wire.displayStatus status ++ "): " ++ message))
  | .ok response =>
    if response.status = 409 then
      some ⟨controllerId, .conflict, some ("CAS precondition " ++ precondition ++
        " no longer matched: " ++ responseDetail response.body), none, none⟩
    else if response.isSuccess then none
    else some (.failed controllerId ("write returned status " ++ toString response.status ++ ": " ++
      responseDetail response.body))

def acceptedElsewhere : WriteOutcome where
  controllerId := controllerId
  state := .accepted
  reason := some ("this replica does not hold the Controller session; convergence cannot be " ++
    "observed here")
  observed := none
  convergenceMs := none

/-- The write of `body` under the precondition, and what follows it. -/
def sendWrite (precondition : String) (body : List UInt8) : AdminRun WriteOutcome := do
  let reply ← AdminRun.dispatch controllerId (writeRequest ns name precondition body)
  match refusal controllerId precondition reply with
  | some outcome => return outcome
  | none =>
    let held ← AdminRun.localSessionIsDispatchable controllerId
    if held then poll controllerId ns name predicate precondition 0
    else return acceptedElsewhere controllerId

/-- Everything after the document was read. -/
def writeBack (cached : Value) (viaFallbackRead : Bool) : AdminRun WriteOutcome :=
  match resourceVersion cached with
  | none => return .failed controllerId (if viaFallbackRead then
      "fallback read document has no resourceVersion" else "document has no resourceVersion")
  | some precondition =>
    if predicate cached then return .converged controllerId 0
    else match mutate cached with
      | .error error => return .failed controllerId error
      | .ok document =>
        match Wire.toVec (stripStatus document) with
        | .error error => return .failed controllerId ("failed to serialize document: " ++ error)
        | .ok body => sendWrite controllerId ns name predicate precondition body

def writeConfigData : AdminRun WriteOutcome := do
  let cached ← AdminRun.rawDocument controllerId (ns ++ "/" ++ name)
  match cached with
  | some cached => writeBack controllerId ns name mutate predicate cached false
  | none =>
    let held ← AdminRun.localSessionIsDispatchable controllerId
    if held then return .failed controllerId "not in the local watch cache"
    else
      let reply ← AdminRun.fetch controllerId (readRequest ns name)
      match fallbackDocument reply with
      | .error reason => return .failed controllerId reason
      | .ok document => writeBack controllerId ns name mutate predicate document true

end WriteConfigData

end EdgionCenter
