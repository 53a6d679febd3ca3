import EdgionCenter.Account.SqlStore

/-! Provider accounts as Kubernetes objects. The API server refuses a write whose resource version is
not the current one, and counts the generation up when the spec changes. -/
namespace EdgionCenter.Account

open Fallible Function Linearizable Transition

structure EdgionProviderAccountSpec where
  contractVersion : Int
  accountId : String
  desiredGeneration : Int
  desiredJson : String
  deriving DecidableEq

/-- The object with the metadata that is read. -/
structure EdgionProviderAccount where
  name : String
  generation : Option Int
  resourceVersion : Nat
  spec : EdgionProviderAccountSpec
  deriving DecidableEq

inductive ResourceError
  | conflict
  | notFound
  | other
  deriving DecidableEq

/-- What the API server keeps of one name, and the next resource version. -/
structure AccountServer where
  object : Option EdgionProviderAccount
  version : Nat

namespace AccountServer

def create (server : AccountServer) (body : EdgionProviderAccount) :
    AccountServer × Except ResourceError EdgionProviderAccount :=
  match server.object with
  | some _ => (server, .error .conflict)
  | none =>
    let created := { body with generation := some 1, resourceVersion := server.version }
    (⟨some created, server.version + 1⟩, .ok created)

def replace (server : AccountServer) (body : EdgionProviderAccount) :
    AccountServer × Except ResourceError EdgionProviderAccount :=
  match server.object with
  | none => (server, .error .notFound)
  | some current =>
    if body.resourceVersion = current.resourceVersion then
      let stored := { body with
        generation := if body.spec = current.spec then current.generation
          else current.generation.map (· + 1)
        resourceVersion := server.version }
      (⟨some stored, server.version + 1⟩, .ok stored)
    else (server, .error .conflict)

/-- A write of another client that leaves the spec alone. -/
def touch (server : AccountServer) : AccountServer where
  object := server.object.map fun current => { current with resourceVersion := server.version }
  version := server.version + 1

end AccountServer

/-- The name of an account's object, from a digest of its identifier. -/
class AccountNames where
  resourceName : CloudResourceId → String

def maxConflictRetries : Nat := 8

inductive KubePhase
  | idle
  | begun (op : AccountOp)
  /-- The object was there already. -/
  | conflicted
  /-- The account is to be read, with the attempts left. -/
  | looping (expected : Nat) (desired : ProviderAccountDesired) (left : Nat)
  /-- The account was read at the expected generation; the body of the write. -/
  | loaded (expected : Nat) (desired : ProviderAccountDesired) (left : Nat)
    (resource : EdgionProviderAccount)
  | done (out : CoreResult AccountResult)
  | returned

structure KubeAccounts (I : Type) where
  server : AccountServer
  phase : I → KubePhase

section Statements

variable [DesiredJson] [AccountNames] (id : CloudResourceId)

def adapterError : ResourceError → CoreError
  | .conflict => .conflict "Kubernetes resourceVersion conflict"
  | .notFound => .adapter "Kubernetes provider account was not found"
  | .other => .adapter "Kubernetes provider account request failed"

def providerAccountResourceName (id : CloudResourceId) : CoreResult String := do
  id.validate
  return AccountNames.resourceName id

def EdgionProviderAccountSpec.new (desiredGeneration : Nat) (desired : ProviderAccountDesired) :
    Except String EdgionProviderAccountSpec :=
  if desiredGeneration ≤ maxProviderAccountGeneration then
    .ok ⟨1, id.value, desiredGeneration, DesiredJson.toString desired⟩
  else .error "provider account generation exceeds Kubernetes range"

def EdgionProviderAccountSpec.toCore (spec : EdgionProviderAccountSpec) :
    Except String ProviderAccount := do
  require (spec.contractVersion = 1) "unsupported provider account CRD contract version"
  let accountId ← (CloudResourceId.new spec.accountId).mapError CoreError.display
  require (0 ≤ spec.desiredGeneration) "provider account CRD has a non-positive generation"
  let desired ← orElse "provider account CRD contains invalid desired state"
    (DesiredJson.fromStr spec.desiredJson)
  require (DesiredJson.toString desired = spec.desiredJson)
    "provider account CRD desired state is not the canonical secret-free shape"
  (providerAccountFromDesired accountId spec.desiredGeneration.toNat desired).mapError
    CoreError.display

def verifyId (resource : EdgionProviderAccount) (expected : CloudResourceId) : CoreResult Unit := do
  require (resource.spec.accountId = expected.value)
    (.adapter "provider account CRD name collision")
  let expectedName ← providerAccountResourceName expected
  require (resource.name = expectedName)
    (.adapter "provider account CRD name does not match its account identity")

/-- `KubernetesProviderAccountStore::core`. -/
def coreAccount (resource : EdgionProviderAccount) : CoreResult ProviderAccount := do
  let generation ← resource.generation.elim
    (.error (.adapter "provider account CRD omitted metadata.generation")) .ok
  require (generation = resource.spec.desiredGeneration)
    (.adapter "provider account CRD generation does not match desired generation")
  let account ← resource.spec.toCore.mapError fun message =>
    .adapter ("invalid provider account CRD: " ++ message)
  verifyId resource account.metadata.id
  orElse (.adapter "provider account CRD contains invalid stored state")
    (validateStoredProviderAccount account)
  return account

/-- An object that the server returned for the account. -/
def readAccount (resource : EdgionProviderAccount) : CoreResult ProviderAccount := do
  verifyId resource id
  coreAccount resource

/-- The object that `create` posts. The server assigns generation and version. -/
def newResource (desired : ProviderAccountDesired) : CoreResult EdgionProviderAccount := do
  id.validate
  desired.validate
  let name ← providerAccountResourceName id
  let spec ← (EdgionProviderAccountSpec.new id 1 desired).mapError .conflict
  return ⟨name, none, 0, spec⟩

def createAccount (server : AccountServer) (desired : ProviderAccountDesired) :
    AccountServer × KubePhase :=
  match newResource id desired with
  | .error e => (server, .done (.error e))
  | .ok resource =>
    match server.create resource with
    | (server', .ok created) =>
      (server', .done (AccountResult.created <$> readAccount id created))
    | (server', .error .conflict) => (server', .conflicted)
    | (server', .error e) => (server', .done (.error (adapterError e)))

/-- The read after a create that found the object there. -/
def existingAccount (server : AccountServer) : CoreResult AccountResult :=
  match server.object with
  | none => .error (.conflict "provider account create conflicted with a disappearing resource")
  | some existing => (fun _ => AccountResult.alreadyExists) <$> readAccount id existing

def getAccountObject (server : AccountServer) : CoreResult AccountResult := do
  id.validate
  match server.object with
  | none => return .got none
  | some resource => (fun account => AccountResult.got (some account)) <$> readAccount id resource

/-- The read of an attempt, and what is checked before its write. -/
def loadAccount (server : AccountServer) (expected : Nat) (desired : ProviderAccountDesired)
    (left : Nat) : KubePhase :=
  match server.object with
  | none => .done (.ok .notFound)
  | some resource =>
    match readAccount id resource with
    | .error e => .done (.error e)
    | .ok current =>
      if current.metadata.generation ≠ expected then
        .done (.ok (.generationMismatch current.metadata.generation))
      else
        match EdgionProviderAccountSpec.new id (expected + 1) desired with
        | .error message => .done (.error (.conflict message))
        | .ok spec => .loaded expected desired left { resource with spec := spec }

/-- What `replace_if_generation` checks before its attempts. -/
def checkReplace (expected : Nat) (desired : ProviderAccountDesired) : CoreResult Unit := do
  id.validate
  desired.validate
  require (expected ≠ 0 ∧ expected < maxProviderAccountGeneration)
    (.conflict "provider account expected generation is outside the persistence range")

/-- The attempts after one that conflicted. -/
def retryReplace (expected : Nat) (desired : ProviderAccountDesired) (left : Nat) : KubePhase :=
  if left - 1 = 0 then
    .done (.error (.conflict "Kubernetes provider account update remained contended"))
  else .looping expected desired (left - 1)

def replaceAccount (server : AccountServer) (expected : Nat) (desired : ProviderAccountDesired)
    (left : Nat) (resource : EdgionProviderAccount) : AccountServer × KubePhase :=
  match server.replace resource with
  | (server', .ok stored) =>
    (server', .done (AccountResult.stored <$> readAccount id stored))
  | (server', .error .conflict) => (server', retryReplace expected desired left)
  | (server', .error .notFound) => (server', .done (.ok .notFound))
  | (server', .error e) => (server', .done (.error (adapterError e)))

/-- A call up to the end of its next request. -/
def kubeRequest (server : AccountServer) : KubePhase → Option (AccountServer × KubePhase)
  | .begun (.create desired) => some (createAccount id server desired)
  | .begun .get => some (server, .done (getAccountObject id server))
  | .begun (.replace expected desired) =>
    match checkReplace id expected desired with
    | .error e => some (server, .done (.error e))
    | .ok () => some (server, loadAccount id server expected desired maxConflictRetries)
  | .conflicted => some (server, .done (existingAccount id server))
  | .looping expected desired left => some (server, loadAccount id server expected desired left)
  | .loaded expected desired left resource =>
    some (replaceAccount id server expected desired left resource)
  | .idle | .done _ | .returned => none

end Statements

section Steps

variable [DesiredJson] [AccountNames] (id : CloudResourceId) {I : Type} [DecidableEq I]

def KubeAccounts.setPhase (s : KubeAccounts I) (i : I) (phase : KubePhase) : KubeAccounts I :=
  { s with phase := update s.phase i phase }

inductive KubeAccountStep : KubeAccounts I → AccountLabel I → KubeAccounts I → Prop
  | call {s : KubeAccounts I} {i : I} (op : AccountOp) : s.phase i = .idle →
    KubeAccountStep s (.call i op) (s.setPhase i (.begun op))
  | run {s : KubeAccounts I} {i : I} {server : AccountServer} {phase : KubePhase} :
    kubeRequest id s.server (s.phase i) = some (server, phase) →
    KubeAccountStep s (.run i) ⟨server, update s.phase i phase⟩
  | broken {s : KubeAccounts I} {i : I} {server : AccountServer} {phase : KubePhase}
    (carriedOut : Bool) : kubeRequest id s.server (s.phase i) = some (server, phase) →
    KubeAccountStep s (.broken i carriedOut)
      ⟨if carriedOut then server else s.server,
        update s.phase i (.done (.error (adapterError .other)))⟩
  | ret {s : KubeAccounts I} {i : I} {out : CoreResult AccountResult} :
    s.phase i = .done out → KubeAccountStep s (.ret i out) (s.setPhase i .returned)
  | touch {s : KubeAccounts I} : KubeAccountStep s .touch { s with server := s.server.touch }

/-- No object, and no call yet. -/
def KubeAccounts.empty : KubeAccounts I := ⟨⟨none, 1⟩, fun _ => .idle⟩

end Steps

section Objects

variable [DesiredJson] [AccountNames] {id : CloudResourceId} {desired : ProviderAccountDesired}
  {generation : Nat}

/-- The object of an account at a resource version. -/
def objectOf (id : CloudResourceId) (generation : Nat) (desired : ProviderAccountDesired)
    (version : Nat) : EdgionProviderAccount where
  name := AccountNames.resourceName id
  generation := some generation
  resourceVersion := version
  spec := ⟨1, id.value, generation, DesiredJson.toString desired⟩

theorem verifyId_objectOf (h : Storable id generation desired) (version : Nat) :
    verifyId (objectOf id generation desired version) id = .ok () := by
  simp [verifyId, objectOf, providerAccountResourceName, h.id]

theorem coreAccount_objectOf (h : Storable id generation desired) (version : Nat) :
    coreAccount (objectOf id generation desired version) = .ok (accountOf id generation desired) := by
  have hnew : CloudResourceId.new id.value = .ok id := by
    have hid := h.id
    simp only [CloudResourceId.validate, map_eq_ok, CloudResourceId.new] at hid ⊢
    split at hid <;> simp_all
  have hcore : (objectOf id generation desired version).spec.toCore =
      .ok (accountOf id generation desired) := by
    have hmade := providerAccountFromDesired_eq_ok.mpr ⟨h, rfl⟩
    simp [EdgionProviderAccountSpec.toCore, objectOf, hnew, DesiredJson.fromStr_toString, hmade]
  have hverify := verifyId_objectOf h version
  simp only [coreAccount, hcore]
  simp [objectOf, h.validateStored] at hverify ⊢
  exact hverify

@[simp] theorem readAccount_objectOf (h : Storable id generation desired) (version : Nat) :
    readAccount id (objectOf id generation desired version) =
      .ok (accountOf id generation desired) := by
  simp [readAccount, verifyId_objectOf h version, coreAccount_objectOf h version]

omit [AccountNames] in
theorem newSpec_eq (hbounded : generation ≤ maxProviderAccountGeneration) :
    EdgionProviderAccountSpec.new id generation desired =
      .ok ⟨1, id.value, generation, DesiredJson.toString desired⟩ := by
  simp [EdgionProviderAccountSpec.new, hbounded]

end Objects

section Refinement

variable [DesiredJson] [AccountNames] {id : CloudResourceId} {server server' : AccountServer}
  {account : Option ProviderAccount} {phase phase' : KubePhase}
  {status : Status AccountOp AccountResult}

/-- The server holds the account, below the next version. -/
inductive ServerFor (id : CloudResourceId) : AccountServer → Option ProviderAccount → Prop
  | absent {next : Nat} : ServerFor id ⟨none, next⟩ none
  | present {generation version next : Nat} {desired : ProviderAccountDesired} :
    Storable id generation desired → version < next →
    ServerFor id ⟨some (objectOf id generation desired version), next⟩
      (some (accountOf id generation desired))

/-- Whatever was written since has a version of its own. -/
structure Advances (server server' : AccountServer) : Prop where
  version : server.version ≤ server'.version
  kept : server.object.isSome → server'.object.isSome
  fresh : ∀ current ∈ server'.object,
    current ∈ server.object ∨ server.version ≤ current.resourceVersion

/-- How far a call is, at the server and at the register. -/
inductive KubePhaseFor (id : CloudResourceId) (server : AccountServer) :
    KubePhase → Status AccountOp AccountResult → Prop
  | idle : KubePhaseFor id server .idle .idle
  | begun {op : AccountOp} : KubePhaseFor id server (.begun op) (.pending op)
  | conflicted {desired : ProviderAccountDesired} : server.object.isSome →
    KubePhaseFor id server .conflicted (.decided (.create desired) .alreadyExists)
  | looping {expected left : Nat} {desired : ProviderAccountDesired} :
    Storable id (expected + 1) desired →
    KubePhaseFor id server (.looping expected desired left) (.pending (.replace expected desired))
  | loaded {expected left : Nat} {desired : ProviderAccountDesired}
    {resource : EdgionProviderAccount} : Storable id (expected + 1) desired →
    resource.name = AccountNames.resourceName id →
    resource.spec = ⟨1, id.value, (expected + 1 : Nat), DesiredJson.toString desired⟩ →
    resource.resourceVersion < server.version →
    (∀ current ∈ server.object, resource.resourceVersion = current.resourceVersion →
      current.generation = some (expected : Int)) →
    KubePhaseFor id server (.loaded expected desired left resource)
      (.pending (.replace expected desired))
  | decided {op : AccountOp} {res : AccountResult} :
    KubePhaseFor id server (.done (.ok res)) (.decided op res)
  | failed {op : AccountOp} {e : CoreError} :
    KubePhaseFor id server (.done (.error e)) (.pending op)
  | lost {op : AccountOp} {res : AccountResult} {e : CoreError} : ¬ e.IsConflict →
    KubePhaseFor id server (.done (.error e)) (.decided op res)
  | returned : KubePhaseFor id server .returned .returned

/-- A call that was read at a version no write can have is as far as it was. -/
theorem KubePhaseFor.mono (hadvances : Advances server server')
    (h : KubePhaseFor id server phase status) : KubePhaseFor id server' phase status := by
  cases h with
  | conflicted hsome => exact .conflicted (hadvances.kept hsome)
  | @loaded _ _ _ resource hstorable hname hspec hversion hread =>
    refine .loaded hstorable hname hspec (hversion.trans_le hadvances.version) ?_
    intro current hcurrent hsame
    rcases hadvances.fresh current hcurrent with hold | hfresh
    · exact hread current hold hsame
    · omega
  | idle => exact .idle
  | begun => exact .begun
  | looping hstorable => exact .looping hstorable
  | decided => exact .decided
  | failed => exact .failed
  | lost hlost => exact .lost hlost
  | returned => exact .returned

/-- What a request does to server and call, and to the register if it decides the call. -/
inductive Requested (id : CloudResourceId) (server : AccountServer)
    (account : Option ProviderAccount) (status : Status AccountOp AccountResult) :
    AccountServer → KubePhase → Prop
  | stays {phase : KubePhase} : KubePhaseFor id server phase status →
    Requested id server account status server phase
  | decides {server' : AccountServer} {op : AccountOp} : status = .pending op →
    Advances server server' → ServerFor id server' ((accountRegister id).apply account op).1 →
    Requested id server account status server'
      (.done (.ok ((accountRegister id).apply account op).2))
  | found {desired : ProviderAccountDesired} : status = .pending (.create desired) →
    account.isSome → server.object.isSome →
    Requested id server account status server .conflicted

omit [DesiredJson] [AccountNames] in
/-- A write puts an object of the next version in place. -/
theorem advances_write (server : AccountServer) (object : EdgionProviderAccount) : Advances server
      ⟨some { object with resourceVersion := server.version }, server.version + 1⟩ where
  version := Nat.le_succ _
  kept _ := rfl
  fresh current hcurrent := by
    cases hcurrent
    exact .inr le_rfl

variable {desired : ProviderAccountDesired} {resource : EdgionProviderAccount} {expected left : Nat}

theorem newResource_eq_ok (h : newResource id desired = .ok resource) : Storable id 1 desired ∧
      resource = ⟨AccountNames.resourceName id, none, 0,
        ⟨1, id.value, 1, DesiredJson.toString desired⟩⟩ := by
  have hone : 1 ≤ maxProviderAccountGeneration := by decide
  simp only [newResource, providerAccountResourceName, newSpec_eq hone, bind_eq_ok, exists_unit,
    pure_eq_ok] at h
  obtain ⟨hid, hdesired, name, ⟨_, rfl⟩, spec, hspec, rfl⟩ := h
  rw [mapError_eq_ok, Except.ok.injEq] at hspec
  exact ⟨⟨hid, hdesired, by decide, hone⟩, by rw [← hspec]; rfl⟩

theorem createAccount_requested (h : ServerFor id server account) (desired : ProviderAccountDesired) :
    Requested id server account (.pending (.create desired)) (createAccount id server desired).1
      (createAccount id server desired).2 := by
  unfold createAccount
  cases hresource : newResource id desired with
  | error e => exact .stays .failed
  | ok resource =>
    obtain ⟨hstorable, rfl⟩ := newResource_eq_ok hresource
    cases h with
    | present hstored hversion => exact .found rfl rfl rfl
    | @absent next =>
      change Requested id _ _ _ _
        (.done (AccountResult.created <$> readAccount id (objectOf id 1 desired next)))
      rw [readAccount_objectOf hstorable]
      exact .decides rfl (advances_write ⟨none, next⟩ (objectOf id 1 desired next))
        (.present hstorable (Nat.lt_succ_self next))

omit [DesiredJson] [AccountNames] in
theorem advances_refl (server : AccountServer) : Advances server server :=
  ⟨le_rfl, fun h => h, fun _ => .inl⟩

/-- A request that decides a call and changes nothing. -/
theorem requested_read {op : AccountOp} {res : AccountResult} (h : ServerFor id server account)
    (happly : (accountRegister id).apply account op = (account, res)) :
    Requested id server account (.pending op) server (.done (.ok res)) := by
  have hdecides : Requested id server account (.pending op) server
      (.done (.ok ((accountRegister id).apply account op).2)) :=
    .decides rfl (advances_refl server) (by rw [happly]; exact h)
  rwa [happly] at hdecides

theorem getAccountObject_requested (h : ServerFor id server account) :
    Requested id server account (.pending .get) server (.done (getAccountObject id server)) := by
  cases hid : id.validate with
  | error e =>
    simp only [getAccountObject, hid]
    exact .stays .failed
  | ok u =>
    have hout : getAccountObject id server = .ok (.got account) := by
      cases h with
      | absent => simp [getAccountObject, hid]
      | present hstored hversion => simp [getAccountObject, hid, readAccount_objectOf hstored]
    rw [hout]
    exact requested_read h (by cases account <;> rfl)

theorem loadAccount_requested (h : ServerFor id server account)
    (hnew : Storable id (expected + 1) desired) :
    Requested id server account (.pending (.replace expected desired)) server
      (loadAccount id server expected desired left) := by
  unfold loadAccount
  cases h with
  | absent => exact requested_read .absent rfl
  | @present generation version next stored hstored hversion =>
    simp only [readAccount_objectOf hstored, newSpec_eq hnew.bounded]
    split
    · next hne =>
      refine requested_read (.present hstored hversion) ?_
      simp only [accountRegister]
      rw [if_neg hne]
    · next heq =>
      obtain rfl : generation = expected := not_not.mp heq
      refine .stays (.loaded hnew rfl rfl hversion ?_)
      intro current hcurrent _
      cases hcurrent
      rfl

theorem existingAccount_requested (h : ServerFor id server account) (hsome : server.object.isSome) :
    Requested id server account (.decided (.create desired) .alreadyExists) server
      (.done (existingAccount id server)) := by
  cases h with
  | absent => cases hsome
  | present hstored hversion =>
    simp only [existingAccount, readAccount_objectOf hstored]
    exact .stays .decided

/-- A write at the current version stores the object at the next generation. -/
theorem replace_current {generation version next : Nat} {stored : ProviderAccountDesired}
    (hname : resource.name = AccountNames.resourceName id) (hspec : resource.spec =
      ⟨1, id.value, (generation + 1 : Nat), DesiredJson.toString desired⟩)
    (hsame : resource.resourceVersion = version) :
    (AccountServer.mk (some (objectOf id generation stored version)) next).replace resource =
      (⟨some (objectOf id (generation + 1) desired next), next + 1⟩,
        .ok (objectOf id (generation + 1) desired next)) := by
  obtain ⟨name, oldGeneration, resourceVersion, spec⟩ := resource
  subst hname hspec hsame
  simp [AccountServer.replace, objectOf]

theorem replaceAccount_requested (h : ServerFor id server account)
    (hphase : KubePhaseFor id server (.loaded expected desired left resource)
      (.pending (.replace expected desired))) :
    Requested id server account (.pending (.replace expected desired))
      (replaceAccount id server expected desired left resource).1
      (replaceAccount id server expected desired left resource).2 := by
  cases hphase with
  | loaded hnew hname hspec hversion hread =>
    unfold replaceAccount
    cases h with
    | absent => exact requested_read .absent rfl
    | @present generation version next stored hstored hlt =>
      by_cases hsame : resource.resourceVersion = version
      · -- the version is the one that was read, so the generation is the expected one
        obtain rfl : generation = expected := by
          have := hread _ rfl hsame
          simp only [objectOf, Option.some.injEq] at this
          omega
        rw [replace_current hname hspec hsame]
        have happly : (accountRegister id).apply (some (accountOf id generation stored))
            (.replace generation desired) = (some (accountOf id (generation + 1) desired),
              .stored (accountOf id (generation + 1) desired)) := by
          simp [accountRegister, accountOf]
        have hdecides : Requested id _ _ (.pending (.replace generation desired)) _
            (.done (.ok ((accountRegister id).apply (some (accountOf id generation stored))
              (.replace generation desired)).2)) :=
          .decides rfl
            (advances_write ⟨some (objectOf id generation stored version), next⟩
              (objectOf id (generation + 1) desired next))
            (by rw [happly]; exact .present hnew (Nat.lt_succ_self next))
        rw [happly] at hdecides
        simp only [readAccount_objectOf hnew]
        exact hdecides
      · have hconflict : (AccountServer.mk (some (objectOf id generation stored version)) next).replace
            resource = (⟨some (objectOf id generation stored version), next⟩, .error .conflict) := by
          simp [AccountServer.replace, objectOf, hsame]
        simp only [hconflict, retryReplace]
        split
        · exact .stays .failed
        · exact .stays (.looping hnew)

omit [AccountNames] in
theorem checkReplace_eq_ok (h : checkReplace id expected desired = .ok ()) :
    Storable id (expected + 1) desired := by
  simp only [checkReplace, bind_eq_ok, exists_unit, require_eq_ok] at h
  exact ⟨h.1, h.2.1, by omega, by omega⟩

theorem kubeRequest_requested (h : ServerFor id server account)
    (hphase : KubePhaseFor id server phase status)
    (hrequest : kubeRequest id server phase = some (server', phase')) :
    Requested id server account status server' phase' := by
  cases hphase with
  | @begun op =>
    cases op with
    | create desired =>
      obtain ⟨rfl, rfl⟩ := Prod.mk.inj (Option.some.inj hrequest)
      exact createAccount_requested h desired
    | get =>
      obtain ⟨rfl, rfl⟩ := Prod.mk.inj (Option.some.inj hrequest)
      exact getAccountObject_requested h
    | replace expected desired =>
      simp only [kubeRequest] at hrequest
      cases hcheck : checkReplace id expected desired with
      | error e =>
        rw [hcheck] at hrequest
        obtain ⟨rfl, rfl⟩ := Prod.mk.inj (Option.some.inj hrequest)
        exact .stays .failed
      | ok u =>
        rw [hcheck] at hrequest
        obtain ⟨rfl, rfl⟩ := Prod.mk.inj (Option.some.inj hrequest)
        exact loadAccount_requested h (checkReplace_eq_ok hcheck)
  | conflicted hsome =>
    obtain ⟨rfl, rfl⟩ := Prod.mk.inj (Option.some.inj hrequest)
    exact existingAccount_requested h hsome
  | looping hnew =>
    obtain ⟨rfl, rfl⟩ := Prod.mk.inj (Option.some.inj hrequest)
    exact loadAccount_requested h hnew
  | loaded hnew hname hspec hversion hread =>
    obtain ⟨rfl, rfl⟩ := Prod.mk.inj (Option.some.inj hrequest)
    exact replaceAccount_requested h (.loaded hnew hname hspec hversion hread)
  | idle | decided | failed | lost | returned => cases hrequest

variable {I : Type} [DecidableEq I]

structure KubeFor (id : CloudResourceId) (c : KubeAccounts I)
    (s : State I AccountOp AccountResult) : Prop where
  server : ServerFor id c.server ((accountRegister id).after s.order)
  phase : ∀ i, KubePhaseFor id c.server (c.phase i) (s.status i)

omit [DecidableEq I] in
theorem kubeFor_empty : KubeFor id (KubeAccounts.empty : KubeAccounts I) State.init :=
  ⟨.absent, fun _ => .idle⟩

variable {i : I} {c : KubeAccounts I} {s : State I AccountOp AccountResult}

theorem KubePhaseFor.update {phases : I → KubePhase} {statuses : I → Status AccountOp AccountResult}
    (h : ∀ i, KubePhaseFor id server (phases i) (statuses i))
    (hi : KubePhaseFor id server phase status) (j : I) :
    KubePhaseFor id server (update phases i phase j)
      (update statuses i status j) := by
  by_cases hj : j = i
  · subst hj
    simpa using hi
  · simpa [hj] using h j

/-- A request of one call, and the other calls at what it left. -/
theorem KubeFor.update {order : List (Entry I AccountOp AccountResult)} (h : KubeFor id c s)
    (hadvances : Advances c.server server')
    (hserver : ServerFor id server' ((accountRegister id).after order))
    (hi : KubePhaseFor id server' phase status) : KubeFor id ⟨server', update c.phase i phase⟩
      ⟨order, update s.status i status⟩ :=
  ⟨hserver, KubePhaseFor.update (fun j => (h.phase j).mono hadvances) hi⟩

theorem KubeFor.setPhase (h : KubeFor id c s) (hi : KubePhaseFor id c.server phase status) :
    KubeFor id (c.setPhase i phase) (s.setStatus i status) :=
  h.update (advances_refl c.server) h.server hi

/-- The register takes part in a request that decides the call, and in no other. -/
theorem Requested.matched (hfor : KubeFor id c s)
    (h : Requested id c.server ((accountRegister id).after s.order) (s.status i) server' phase) :
    ∃ as order status, Run (Step (accountRegister id) CoreError.IsConflict) s as
        ⟨order, update s.status i status⟩ ∧ as.reduceOption = [] ∧
      ServerFor id server' ((accountRegister id).after order) ∧ Advances c.server server' ∧
      KubePhaseFor id server' phase status ∧
      (status = s.status i ∨ ∃ op res, status = .decided op res) := by
  cases h with
  | stays hphase =>
    refine ⟨[], s.order, s.status i, ?_, rfl, hfor.server, advances_refl _, hphase, .inl rfl⟩
    rw [update_eq_self]
    exact .refl s
  | decides hpending hadvances hserver =>
    refine ⟨_, _, _, .step (.commit hpending) (.refl _), rfl, ?_, hadvances, .decided,
      .inr ⟨_, _, rfl⟩⟩
    rw [Object.after_concat]
    exact hserver
  | @found desired hpending hsome hobject =>
    have happly : (accountRegister id).apply ((accountRegister id).after s.order) (.create desired) =
        ((accountRegister id).after s.order, .alreadyExists) := by
      obtain ⟨account, haccount⟩ := Option.isSome_iff_exists.mp hsome
      rw [haccount]
      rfl
    refine ⟨_, _, _, .step (.commit hpending) (.refl _), rfl, ?_, advances_refl _, ?_,
      .inr ⟨_, _, rfl⟩⟩
    · rw [Object.after_concat, happly]
      exact hfor.server
    · rw [happly]
      exact .conflicted hobject

/-- A call that has a request to make can fail at it. -/
theorem KubePhaseFor.broken {result : AccountServer × KubePhase}
    (h : KubePhaseFor id server phase status) (hrequest : kubeRequest id server phase = some result) :
    KubePhaseFor id server' (.done (.error (adapterError .other))) status := by
  cases h with
  | begun => exact .failed
  | conflicted => exact .lost (not_isConflict_adapter _)
  | looping | loaded => exact .failed
  | idle | decided | failed | lost | returned => cases hrequest

omit [DesiredJson] [AccountNames] in
theorem advances_touch (server : AccountServer) : Advances server server.touch where
  version := Nat.le_succ _
  kept h := by simpa [AccountServer.touch] using h
  fresh current hcurrent := by
    simp only [AccountServer.touch, Option.mem_def, Option.map_eq_some_iff] at hcurrent
    obtain ⟨_, _, rfl⟩ := hcurrent
    exact .inr le_rfl

theorem ServerFor.touch (h : ServerFor id server account) : ServerFor id server.touch account := by
  cases h with
  | absent => exact .absent
  | @present _ _ next _ hstorable _ => exact .present hstorable (Nat.lt_succ_self next)

/-- The store refines the register in every run. -/
theorem kube_refines : Refines (accountRegister id) CoreError.IsConflict (KubeAccountStep id)
    AccountLabel.see (KubeFor id : KubeAccounts I → State I AccountOp AccountResult → Prop) := by
  rintro c a c' s hfor hstep
  cases hstep with
  | @call i op hidle =>
    have hi := hfor.phase i
    rw [hidle] at hi
    generalize hy : s.status i = y at hi
    cases hi
    exact ⟨_, _, .step (.call op hy) (.refl _), hfor.setPhase .begun, rfl⟩
  | @run i server phase hrequest =>
    obtain ⟨as, order, status, hrun, hsilent, hserver, hadvances, hphase, _⟩ :=
      (kubeRequest_requested hfor.server (hfor.phase i) hrequest).matched hfor
    exact ⟨as, _, hrun, hfor.update hadvances hserver hphase, hsilent⟩
  | @broken i server phase carriedOut hrequest =>
    cases carriedOut with
    | false =>
      have hsame := hfor.setPhase (i := i) ((hfor.phase i).broken hrequest)
      rw [State.setStatus, update_eq_self] at hsame
      exact ⟨[], s, .refl s, hsame, rfl⟩
    | true =>
      obtain ⟨as, order, status, hrun, hsilent, hserver, hadvances, _, hstatus⟩ :=
        (kubeRequest_requested hfor.server (hfor.phase i) hrequest).matched hfor
      refine ⟨as, _, hrun, hfor.update hadvances hserver ?_, hsilent⟩
      rcases hstatus with rfl | ⟨op, res, rfl⟩
      · exact (hfor.phase i).broken hrequest
      · exact .lost (not_isConflict_adapter _)
  | @ret i out hdone =>
    have hi := hfor.phase i
    rw [hdone] at hi
    generalize hy : s.status i = y at hi
    cases hi with
    | decided => exact ⟨_, _, .step (.ret hy) (.refl _), hfor.setPhase .returned, rfl⟩
    | failed => exact ⟨_, _, .step (.fail _ hy) (.refl _), hfor.setPhase .returned, rfl⟩
    | lost hlost => exact ⟨_, _, .step (.lose _ hlost hy) (.refl _), hfor.setPhase .returned, rfl⟩
  | touch =>
    exact ⟨[], s, .refl s, ⟨hfor.server.touch, fun i => (hfor.phase i).mono (advances_touch _)⟩, rfl⟩

end Refinement

end EdgionCenter.Account
