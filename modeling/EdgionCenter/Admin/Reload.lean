import EdgionCenter.Admin.ConfigData

/-! The reload of a controller: dispatched through the proxy, and observed by the server id that the
watch stream brings. -/
namespace EdgionCenter

open Interaction

structure ReloadOutcome where
  controllerId : String
  state : OutcomeState
  reason : Option String
  serverId : Option String
  convergenceMs : Option Nat
  retryAfterSecs : Option Nat
  leader : Option String
  deriving DecidableEq

namespace ReloadOutcome

variable (controllerId : String) (state : OutcomeState)

def new : ReloadOutcome := ⟨controllerId, state, none, none, none, none, none⟩

def withReason (reason : String) : ReloadOutcome :=
  { new controllerId state with reason := some reason }

end ReloadOutcome

def reloadPollInterval : Nat := 500
def reloadBudget : Nat := 20000

def reloadRequest : ForwardHttpOperation := ⟨"POST", "/api/v1/reload", [], []⟩

def retryAfterSecs (headers : List (String × String)) : Option Nat :=
  (headers.find? fun h => asciiLower h.1 = "retry-after").bind fun h => parseU64 (trim h.2)

section Reload

variable [Wire] (controllerId : String)

def notLeaderOutcome (body : List UInt8) : ReloadOutcome :=
  { ReloadOutcome.withReason controllerId .conflict
      "this Controller replica is a follower and refused the reload" with
    leader := ((((Wire.fromSlice body).toOption).bind fun value => value.get "leader").bind
      Value.asStr).filter fun leader => !leader.isEmpty }

/-- What the answer to the reload says, unless it was accepted. -/
def reloadRefusal (response : HttpProxyResponse) : Option ReloadOutcome :=
  if response.status = 409 then some (notLeaderOutcome controllerId response.body)
  else if response.status = 503 then
    some { ReloadOutcome.withReason controllerId .failed
        ("the Controller refused the reload as temporarily unavailable: " ++
          responseDetail response.body) with
      retryAfterSecs := some ((retryAfterSecs response.headers).getD 5) }
  else if response.isSuccess then none
  else some (.withReason controllerId .failed ("reload returned status " ++
    toString response.status ++ ": " ++ responseDetail response.body))

/-- The id is looked at before the time, and both before the first sleep. -/
def awaitReload (baseline : String) (elapsed : Nat) : AdminRun ReloadOutcome := do
  let observed ← AdminRun.cachedServerId controllerId
  let passed ← AdminRun.clock
  match observed.filter fun id => id ≠ baseline with
  | some observed => return { ReloadOutcome.new controllerId .converged with
      convergenceMs := some (elapsed + passed), serverId := some observed }
  | none =>
    if _h : reloadBudget ≤ elapsed + passed then
      return .withReason controllerId .unknown
        ("reload was dispatched, but no new server_id was observed within " ++
          toString (reloadBudget / 1000) ++ "s; the Controller may still be restarting")
    else do
      let late ← AdminRun.sleep
      awaitReload baseline (elapsed + passed + reloadPollInterval + late)
termination_by reloadBudget - elapsed
decreasing_by
  simp only [reloadPollInterval] at _h ⊢
  omega

/-- What follows a reload that was accepted. -/
def observeReload (baseline : Option String) : AdminRun ReloadOutcome := do
  let held ← AdminRun.localSessionIsDispatchable controllerId
  if held then
    match baseline with
    | none =>
      return .withReason controllerId .accepted
        "no cached server_id to compare against; reload completion cannot be observed here"
    | some baseline => awaitReload controllerId baseline 0
  else return .withReason controllerId .accepted ("this replica does not hold the Controller " ++
    "session; reload completion cannot be observed here")

def reloadController : AdminRun (Except (StatusCode × String) ReloadOutcome) := do
  let baseline ← AdminRun.cachedServerId controllerId
  let reply ← AdminRun.dispatch controllerId reloadRequest
  match reply with
  | .error e => return .error e
  | .ok response =>
    match reloadRefusal controllerId response with
    | some outcome => return .ok outcome
    | none => do
      let outcome ← observeReload controllerId baseline
      return .ok outcome

end Reload

end EdgionCenter
