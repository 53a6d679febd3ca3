import EdgionCenter.Cloudflare.PutRequest
import EdgionCenter.Cloudflare.Writer

/-! The Cloudflare write service: who may write is checked before the request goes out and again
after it came back. -/
namespace EdgionCenter.Cloudflare

open Fallible Interaction

variable [Platform]

/-- What the mounted credential resolver returns. -/
structure ResolvedCredential where
  bytes : List UInt8
  revision : String
  deriving DecidableEq

/-- What the service waits for: its permits, the account store, the credential resolver, the client
for a token, and the provider. -/
inductive ServiceCall
  | acquireAccount (accountId : CloudResourceId)
  | acquireGlobal
  | getAccount (accountId : CloudResourceId)
  | resolveCredential (accountId : CloudResourceId) (credentialRef : CredentialRef)
  | buildApi (token : String)
  | cloudflare (c : CloudflareCall)

/-- Errors of the store, the resolver and the semaphores are not told apart. -/
@[reducible] def ServiceCall.Reply : ServiceCall → Type
  | acquireAccount _ | acquireGlobal | buildApi _ => Option Unit
  | getAccount _ => Option (Option ProviderAccount)
  | resolveCredential .. => Option ResolvedCredential
  | cloudflare c => CloudflareApiResult c

abbrev ServiceRun := Interaction ServiceCall ServiceCall.Reply

abbrev ServiceIo := ExceptT CloudflareDnsAdminError ServiceRun

section Calls

/-- The reply to a call, or the error that stands for its failure. -/
def expect {T : Type} (e : CloudflareDnsAdminError) : Option T → Except CloudflareDnsAdminError T
  | some a => .ok a
  | none => .error e

def check (p : Prop) [Decidable p] (e : CloudflareDnsAdminError) : ServiceIo Unit :=
  liftM (require p e)

def orFail {ε T : Type} (e : CloudflareDnsAdminError) (x : Except ε T) : ServiceIo T :=
  liftM (orElse e x)

/-- Waits for the reply to a call. -/
def await (c : ServiceCall) : ServiceIo c.Reply := liftM (ask c : ServiceRun c.Reply)

def acquireAccount (accountId : CloudResourceId) : ServiceIo Unit := do
  let reply : Option Unit ← await (.acquireAccount accountId)
  expect .unavailable reply

def acquireGlobal : ServiceIo Unit := do
  let reply : Option Unit ← await .acquireGlobal
  expect .unavailable reply

def buildApi (token : String) : ServiceIo Unit := do
  let reply : Option Unit ← await (.buildApi token)
  expect .unavailable reply

def mapProviderError (e : NormalizedProviderError) : CloudflareDnsAdminError :=
  match e.category with
  | .validation => .invalidRequest
  | .notFound => .notFound
  | .conflict => .conflict
  | .unknownOutcome => .unknownOutcome
  | _ => .unavailable

/-- Reads through the provider's API. -/
def provider {T : Type} (p : CloudflareIo T) : ServiceIo T :=
  ExceptT.adapt mapProviderError (ExceptT.mk (p.run.lift ServiceCall.cloudflare))

/-- `DispatchTrackingApi`: the result of API code, and whether it has sent a request that changes
anything. -/
def track {T : Type} : Interaction CloudflareCall CloudflareApiResult T → Bool → ServiceRun (T × Bool)
  | .ret a, dispatched => .ret (a, dispatched)
  | .call c next, dispatched =>
    .call (.cloudflare c) fun reply => track (next reply) (dispatched || c.mutating)

end Calls

section Authority

structure RequestAuthority where
  account : ProviderAccount
  tokenRevision : String

def validateAccount (requestedAccountId : CloudResourceId) (account : ProviderAccount) :
    Except CloudflareDnsAdminError Unit :=
  require (account.metadata.id = requestedAccountId ∧
      account.metadata.managementPolicy = .managed ∧ account.spec.provider = .cloudflare ∧
      account.spec.scope.any ProviderAccountScope.isCloudflare = true ∧
      account.spec.credentialSource.isStaticSecret = true)
    .invalidRequest

/-- The token and its revision. -/
def resolveToken (account : ProviderAccount) : ServiceIo (String × String) :=
  match account.spec.credentialSource with
  | .staticSecret credentialRef => do
    let reply : Option ResolvedCredential ←
      await (.resolveCredential account.metadata.id credentialRef)
    let resolved ← expect .unavailable reply
    let token ← expect .unavailable (fromUtf8 resolved.bytes)
    check (validText 4096 token = true) .unavailable
    return (token, resolved.revision)
  | _ => throw .invalidRequest

def getAccount (accountId : CloudResourceId) : ServiceIo (Option ProviderAccount) := do
  let reply : Option (Option ProviderAccount) ← await (.getAccount accountId)
  expect .unavailable reply

def prepare (accountId : CloudResourceId) (instanceId : Nat) :
    ServiceIo (CloudflareDnsSyncWriter × RequestAuthority) := do
  let found ← getAccount accountId
  let account ← expect .notFound found
  validateAccount accountId account
  let (token, tokenRevision) ← resolveToken account
  buildApi token
  let writer ← orFail .unavailable
    (CloudflareDnsSyncWriter.new account.metadata.id account.spec instanceId)
  return (writer, ⟨account, tokenRevision⟩)

/-- The account and the credential are what they were. -/
def recheckAuthority (authority : RequestAuthority) : ServiceIo Unit := do
  let current ← getAccount authority.account.metadata.id
  check (current = some authority.account) .unavailable
  let (_, revision) ← resolveToken authority.account
  check (revision = authority.tokenRevision) .unavailable
  let final ← getAccount authority.account.metadata.id
  check (final = some authority.account) .unavailable

/-- `authority_is_current`, with the error for when it is not. -/
def requireAuthority (authority : RequestAuthority) (e : CloudflareDnsAdminError) : ServiceIo Unit :=
  (recheckAuthority authority).adapt fun _ => e

/-- What every write starts with: its permits, a writer for the account, and a first check that the
authority is current. -/
def startWrite (accountId : CloudResourceId) (instanceId : Nat) :
    ServiceIo (CloudflareDnsSyncWriter × RequestAuthority) := do
  acquireAccount accountId
  acquireGlobal
  let (writer, authority) ← prepare accountId instanceId
  requireAuthority authority .unavailable
  return (writer, authority)

end Authority

section Operations

structure CloudflareRecordSetDeleteRequest where
  expectedRevision : DnsRecordRevision

def observeExactZone (writer : CloudflareDnsSyncWriter) (accountId : CloudResourceId)
    (zoneId : DnsZoneId) : ServiceIo DnsZoneRef := do
  let found ← provider (writer.observeZone zoneId)
  let observed ← expect .notFound found
  check (observed.zone.providerAccountId = accountId ∧ observed.zone.zoneId = zoneId ∧
      observed.zone.provider = .cloudflare ∧ observed.zone.visibility = .publicZone)
    .invalidProviderObservation
  return observed.zone

def rejectSoaRecordSet (key : DnsRecordSetKey) : ServiceIo Unit :=
  check (key.recordType ≠ .soa) .invalidRequest

def rejectApexNsRecordSet (zone : DnsZoneRef) (key : DnsRecordSetKey) : ServiceIo Unit :=
  check (¬ (key.owner.value = zone.apex.value ∧ key.recordType = .ns)) .invalidRequest

def putChange (request : CloudflareRecordSetPutRequest) (desired : ProviderDnsRecordSet)
    (previous : Option ObservedDnsRecordSet) : Except CloudflareDnsAdminError DnsRecordChange :=
  match request.guard, previous with
  | .mustNotExist, none => .ok (.create desired .mustNotExist)
  | .mustNotExist, some _ => .error .conflict
  | .matchRevision revision, some previous =>
    if previous.revision = revision then .ok (.replace previous desired (.matchObserved revision))
    else .error .conflict
  | .matchRevision _, none => .error .notFound

/-- What becomes of the outcome of a write once it is back. Whether the request had gone out decides
which error a change of the authority is. -/
def finishWrite {T U : Type} (authority : RequestAuthority) (outcome : DnsProviderResult T × Bool)
    (sent unsent : T → Except CloudflareDnsAdminError U) : ServiceIo U := do
  requireAuthority authority (if outcome.2 then .unknownOutcome else .unavailable)
  match outcome.1 with
  | .error e => throw (mapProviderError e)
  | .ok result => if outcome.2 then sent result else unsent result

variable [Sha256 (List CloudflareRecord)]

/-- The projection of what is there after a put, which must name the caller it was put for. -/
def putResult (remoteCallerAlias : Option String) :
    CloudflareDnsSyncRecordOutcome → Except CloudflareDnsAdminError CloudflareRecordSetDto
  | .present observed => do
    let dto ← orElse .unknownOutcome (mapRecord observed)
    require (∀ callerAlias ∈ remoteCallerAlias, dto.control = .remote callerAlias) .unknownOutcome
    return dto
  | .deleted => .error .unknownOutcome

def putRecordSetInner (accountId : CloudResourceId) (zoneId : DnsZoneId)
    (key : CloudflareRecordSetKey) (request : CloudflareRecordSetPutRequest)
    (remoteCallerAlias : Option String) (instanceId : Nat) : ServiceIo CloudflareRecordSetDto := do
  rejectSoaRecordSet key.core
  let (writer, authority) ← startWrite accountId instanceId
  let zone ← observeExactZone writer accountId zoneId
  rejectApexNsRecordSet zone key.core
  let desired ← orFail .invalidRequest (request.desiredRecordSet key remoteCallerAlias)
  let previous ← provider (writer.observeRecordSet zone desired.key)
  let change ← putChange request desired previous
  requireAuthority authority .unavailable
  let outcome ← liftM (track (writer.applyRecordChange zone change).run false)
  finishWrite authority outcome (putResult remoteCallerAlias) fun _ => .error .unknownOutcome

def deletedResult : CloudflareDnsSyncRecordOutcome → Except CloudflareDnsAdminError Unit
  | .deleted => .ok ()
  | .present _ => .error .unknownOutcome

def deleteRecordSet (accountId : CloudResourceId) (zoneId : DnsZoneId)
    (key : CloudflareRecordSetKey) (request : CloudflareRecordSetDeleteRequest)
    (instanceId : Nat) : ServiceIo Unit := do
  rejectSoaRecordSet key.core
  let (writer, authority) ← startWrite accountId instanceId
  let zone ← observeExactZone writer accountId zoneId
  rejectApexNsRecordSet zone key.core
  let found ← provider (writer.observeRecordSet zone key.core)
  let previous ← expect .notFound found
  check (previous.revision = request.expectedRevision) .conflict
  let change := .delete previous (.matchObserved request.expectedRevision)
  requireAuthority authority .unavailable
  let outcome ← liftM (track (writer.applyRecordChange zone change).run false)
  finishWrite authority outcome deletedResult fun _ => .error .unknownOutcome

end Operations

section Quiet

variable {T U : Type}

/-- The calls that do not go to the provider. -/
def ServiceCall.internal : ServiceCall → Bool
  | cloudflare _ => false
  | _ => true

/-- The calls that change something at the provider. -/
def ServiceCall.mutating : ServiceCall → Bool
  | cloudflare c => c.mutating
  | _ => false

/-- Code that does not call the provider. -/
def Internal (p : ServiceIo T) : Prop := Only (fun c => c.internal = true) p.run

/-- Code that changes nothing at the provider. -/
def Quiet (p : ServiceIo T) : Prop := Only (fun c => c.mutating = false) p.run

variable {f : T → ServiceIo U} {p : ServiceIo T}

theorem Internal.bind (h : Internal p) (hf : ∀ a, Internal (f a)) : Internal (p >>= f) :=
  only_run_bind h hf

theorem internal_lift (x : Except CloudflareDnsAdminError T) : Internal (liftM x : ServiceIo T) :=
  only_run_lift

theorem internal_await {c : ServiceCall} (h : c.internal = true) : Internal (await c) :=
  only_run_liftM ⟨h, fun _ => trivial⟩

theorem Internal.quiet (h : Internal p) : Quiet p := by
  refine h.mono ?_
  intro c hc
  cases c <;> first | rfl | cases hc

theorem Quiet.bind (h : Quiet p) (hf : ∀ a, Quiet (f a)) : Quiet (p >>= f) :=
  only_run_bind h hf

theorem internal_getAccount (accountId : CloudResourceId) : Internal (getAccount accountId) :=
  (internal_await rfl).bind fun _ => internal_lift _

theorem internal_resolveToken (account : ProviderAccount) : Internal (resolveToken account) := by
  unfold resolveToken
  split
  · exact (internal_await rfl).bind fun _ => (internal_lift _).bind fun _ =>
      (internal_lift _).bind fun _ => (internal_lift _).bind fun _ => internal_lift (.ok _)
  · exact internal_lift (.error _)

theorem internal_requireAuthority (authority : RequestAuthority) (e : CloudflareDnsAdminError) :
    Internal (requireAuthority authority e) := by
  apply only_run_adapt
  exact (internal_getAccount _).bind fun _ => (internal_lift _).bind fun _ =>
    (internal_resolveToken _).bind fun _ => (internal_lift _).bind fun _ =>
    (internal_getAccount _).bind fun _ => internal_lift _

theorem internal_prepare (accountId : CloudResourceId) (instanceId : Nat) :
    Internal (prepare accountId instanceId) :=
  (internal_getAccount _).bind fun _ => (internal_lift _).bind fun _ => (internal_lift _).bind fun _ =>
    (internal_resolveToken _).bind fun _ =>
    ((internal_await rfl).bind fun _ => internal_lift _).bind fun _ =>
    (internal_lift _).bind fun _ => internal_lift (.ok _)

theorem internal_startWrite (accountId : CloudResourceId) (instanceId : Nat) :
    Internal (startWrite accountId instanceId) :=
  ((internal_await rfl).bind fun _ => internal_lift _).bind fun _ =>
    ((internal_await rfl).bind fun _ => internal_lift _).bind fun _ =>
    (internal_prepare _ _).bind fun _ => (internal_requireAuthority _ _).bind fun _ =>
    internal_lift (.ok _)

theorem internal_finishWrite (authority : RequestAuthority)
    (outcome : DnsProviderResult T × Bool) (sent unsent : T → Except CloudflareDnsAdminError U) :
    Internal (finishWrite authority outcome sent unsent) := by
  refine (internal_requireAuthority _ _).bind fun _ => ?_
  cases outcome.1 with
  | error e => exact internal_lift (.error _)
  | ok result =>
    dsimp only
    split
    · exact internal_lift _
    · exact internal_lift _

theorem quiet_provider {p : CloudflareIo T} (h : Reads p) : Quiet (provider p) := by
  apply only_run_adapt
  apply Only.lift (P := fun c : ServiceCall => c.mutating = false)
  exact h

theorem quiet_observeExactZone (writer : CloudflareDnsSyncWriter) (accountId : CloudResourceId)
    (zoneId : DnsZoneId) : Quiet (observeExactZone writer accountId zoneId) :=
  (quiet_provider (reads_observeZone _)).bind fun _ => (internal_lift _).quiet.bind fun _ =>
    (internal_lift _).quiet.bind fun _ => (internal_lift (.ok _)).quiet

end Quiet

section Once

variable {T U : Type}

/-- Code that changes something at the provider at most once, whatever it is answered and wherever
it is cut off. -/
def ChangesOnce (p : ServiceIo T) : Prop := Once (fun c => c.mutating = false) p.run

variable {dispatched : Bool} {p : Interaction CloudflareCall CloudflareApiResult T}

theorem only_track (h : Only (fun c => c.mutating = false) p) :
    Only (fun c : ServiceCall => c.mutating = false) (track p dispatched) := by
  induction p generalizing dispatched with
  | ret a => trivial
  | call c next ih => exact ⟨h.1, fun r => ih r (h.2 r)⟩

theorem once_track (h : Once (fun c => c.mutating = false) p) :
    Once (fun c : ServiceCall => c.mutating = false) (track p dispatched) := by
  induction p generalizing dispatched with
  | ret a => trivial
  | call c next ih => exact fun r => ⟨ih r (h r).1, (h r).2.imp_right only_track⟩

/-- What every write ends with. -/
theorem changesOnce_dispatch {authority : RequestAuthority} {p : CloudflareIo T}
    {sent unsent : T → Except CloudflareDnsAdminError U}
    (h : Once (fun c => c.mutating = false) p.run) : ChangesOnce (do
      requireAuthority authority .unavailable
      let outcome ← liftM (track p.run false)
      finishWrite authority outcome sent unsent) := by
  refine once_run_bind (internal_requireAuthority _ _).quiet fun _ => Once.run_bind ?_ fun outcome =>
    (internal_finishWrite ..).quiet
  exact once_bind (once_track h) (fun _ => trivial) (.inr fun _ => trivial)

/-- What every write of a record set starts with. -/
theorem changesOnce_prepared {accountId : CloudResourceId} {zoneId : DnsZoneId} {instanceId : Nat}
    {key : DnsRecordSetKey} {f : CloudflareDnsSyncWriter × RequestAuthority → DnsZoneRef → ServiceIo T}
    (hf : ∀ prepared zone, ChangesOnce (f prepared zone)) :
    ChangesOnce (do
      rejectSoaRecordSet key
      let prepared ← startWrite accountId instanceId
      let zone ← observeExactZone prepared.1 accountId zoneId
      rejectApexNsRecordSet zone key
      f prepared zone) :=
  once_run_bind (internal_lift _).quiet fun _ => once_run_bind (internal_startWrite ..).quiet fun _ =>
    once_run_bind (quiet_observeExactZone ..) fun _ => once_run_bind (internal_lift _).quiet fun _ =>
    hf _ _

variable [Sha256 (List CloudflareRecord)]

/-- A record set is written with at most one request that changes anything, which is not sent
again. -/
theorem record_sets_written_once (accountId : CloudResourceId) (zoneId : DnsZoneId)
    (key : CloudflareRecordSetKey) (instanceId : Nat) : (∀ request callerAlias,
      ChangesOnce (putRecordSetInner accountId zoneId key request callerAlias instanceId)) ∧
    ∀ request, ChangesOnce (deleteRecordSet accountId zoneId key request instanceId) := by
  constructor
  · intro request callerAlias
    refine changesOnce_prepared fun _ zone => once_run_bind (internal_lift _).quiet fun _ => ?_
    exact once_run_bind (quiet_provider (reads_observeRecordSet zone _)) fun _ =>
      once_run_bind (internal_lift _).quiet fun _ => changesOnce_dispatch (once_applyRecordChange ..)
  · intro request
    refine changesOnce_prepared fun _ zone =>
      once_run_bind (quiet_provider (reads_observeRecordSet zone _)) fun _ => ?_
    exact once_run_bind (internal_lift _).quiet fun _ => once_run_bind (internal_lift _).quiet fun _ =>
      changesOnce_dispatch (once_applyRecordChange ..)

end Once

end EdgionCenter.Cloudflare
