import EdgionCenter.Cloudflare.Api

/-! `CloudflareDnsSyncWriter`: at most one provider request that changes anything, and no retry. -/
namespace EdgionCenter.Cloudflare

open Fallible Interaction

variable [Platform]

structure CloudflareDnsSyncWriter where
  centerAccountId : CloudResourceId
  cloudflareAccountId : String
  /-- The identity of the writer, which `Arc::ptr_eq` compares. -/
  instanceId : Nat
  deriving DecidableEq

inductive CloudflareDnsSyncRecordOutcome
  | present (observed : ObservedDnsRecordSet)
  | deleted

namespace CloudflareDnsSyncWriter

def new (centerAccountId : CloudResourceId) (account : ProviderAccountSpec) (instanceId : Nat) :
    DnsProviderResult CloudflareDnsSyncWriter := do
  orElse (validation "invalid_provider_account_id") centerAccountId.validate
  orElse (validation "invalid_provider_account") account.validate
  require (account.provider = .cloudflare) (validation "cloudflare_provider_required")
  match account.scope with
  | none => .error (validation "cloudflare_account_scope_required")
  | some (.aws _) => .error (validation "cloudflare_account_scope_mismatch")
  | some (.cloudflare accountId) =>
    require (validCloudflareIdentifier accountId = true) (validation "invalid_cloudflare_account_id")
    return ⟨centerAccountId, accountId, instanceId⟩

variable (writer : CloudflareDnsSyncWriter)

def mapZoneInventory (zone : CloudflareZone) : DnsProviderResult ObservedCloudflareZone :=
  mapZoneInventoryForAccount writer.centerAccountId writer.cloudflareAccountId zone

def observeZone (zoneId : DnsZoneId) : CloudflareIo (Option ObservedCloudflareZone) := do
  orElse (validation "invalid_cloudflare_zone_id") zoneId.validate
  require (validCloudflareIdentifier zoneId.value = true) (validation "invalid_cloudflare_zone_id")
  let zone : Option CloudflareZone ← api (.getZone zoneId.value)
  match zone with
  | none => return none
  | some zone =>
    let observed ← writer.mapZoneInventory zone
    return some observed

def found {T : Type} (value : Option T) (code : String) : DnsProviderResult T :=
  match value with
  | some a => .ok a
  | none => .error (notFound code)

def validateZoneRef (zone : DnsZoneRef) : DnsProviderResult Unit := do
  orElse (validation "invalid_zone") zone.validate
  require (zone.provider = .cloudflare ∧ zone.providerAccountId = writer.centerAccountId ∧
      zone.visibility = .publicZone ∧ validCloudflareIdentifier zone.zoneId.value = true)
    (validation "cloudflare_zone_scope_mismatch")

variable [Sha256 (List CloudflareRecord)]

def allRecords (zone : DnsZoneRef) : CloudflareIo (List ObservedDnsRecordSet) := do
  writer.validateZoneRef zone
  let observed : Option CloudflareZone ← api (.getZone zone.zoneId.value)
  let providerZone ← found observed "cloudflare_zone_not_found"
  let observedZone ← mapZoneForAccount writer.centerAccountId writer.cloudflareAccountId providerZone
  require (observedZone.zone = zone) (validation "cloudflare_zone_identity_mismatch")
  let records ← listAllRecords zone.zoneId.value
  aggregateRecords zone records

def observeRecordSet (zone : DnsZoneRef) (key : DnsRecordSetKey) :
    CloudflareIo (Option ObservedDnsRecordSet) := do
  orElse (validation "invalid_record_key") key.validate
  let records ← writer.allRecords zone
  return records.find? fun record => record.recordSet.key = key

/-- What the observation after a change has to show. -/
def settle (expected : Option ProviderDnsRecordSet) (observed : Option ObservedDnsRecordSet) :
    DnsProviderResult CloudflareDnsSyncRecordOutcome :=
  let mismatch := .error (unknownOutcome "cloudflare_record_post_observation_mismatch")
  match expected, observed with
  | some expected, some observed =>
    if observed.recordSet = expected then .ok (.present observed) else mismatch
  | none, none => .ok .deleted
  | _, _ => mismatch

def applyRecordChange (zone : DnsZoneRef) (change : DnsRecordChange) :
    CloudflareIo CloudflareDnsSyncRecordOutcome := do
  writer.validateZoneRef zone
  orElse (validation "invalid_dns_changes") (validateDnsChanges zone [change])
  let current ← writer.allRecords zone
  let request ← planBatch current [change]
  let result : CloudflareBatchResult ← api (.batchRecords zone.zoneId.value request)
  validateBatchResult zone [change] request result
  let observed ← (writer.observeRecordSet zone change.key).adapt fun _ =>
    unknownOutcome "cloudflare_record_post_observation_failed"
  settle change.desiredRecordSet observed

end CloudflareDnsSyncWriter

section Reads

variable {writer : CloudflareDnsSyncWriter}

theorem reads_observeZone (zoneId : DnsZoneId) : Reads (writer.observeZone zoneId) := by
  refine (reads_lift _).bind fun _ => (reads_lift _).bind fun _ => (reads_api rfl).bind ?_
  rintro (_ | zone)
  · exact reads_lift (.ok none)
  · exact (reads_lift _).bind fun observed => reads_lift (.ok (some observed))

variable [Sha256 (List CloudflareRecord)]

theorem reads_allRecords (zone : DnsZoneRef) : Reads (writer.allRecords zone) := by
  refine (reads_lift _).bind fun _ => (reads_api rfl).bind fun _ => (reads_lift _).bind fun _ =>
    (reads_lift _).bind fun _ => (reads_lift _).bind fun _ => ?_
  exact (reads_listAllRecords _).bind fun _ => reads_lift _

theorem reads_observeRecordSet (zone : DnsZoneRef) (key : DnsRecordSetKey) :
    Reads (writer.observeRecordSet zone key) :=
  (reads_lift _).bind fun _ => (reads_allRecords zone).bind fun _ => reads_lift (.ok _)

theorem once_applyRecordChange (zone : DnsZoneRef) (change : DnsRecordChange) :
    Once (fun c => c.mutating = false) (writer.applyRecordChange zone change).run := by
  refine once_run_bind (reads_lift _) fun _ => once_run_bind (reads_lift _) fun _ =>
    once_run_bind (reads_allRecords zone) fun _ => once_run_bind (reads_lift _) fun request => ?_
  have hbatch : Once (fun c => c.mutating = false)
      (api (.batchRecords zone.zoneId.value request)).run := fun _ => ⟨trivial, .inr trivial⟩
  exact hbatch.run_bind fun _ => (reads_lift _).bind fun _ =>
    Reads.bind (only_run_adapt (reads_observeRecordSet zone _)) fun _ => reads_lift _

end Reads

end EdgionCenter.Cloudflare
