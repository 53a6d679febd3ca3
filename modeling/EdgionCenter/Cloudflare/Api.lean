import EdgionCenter.Cloud.ZoneLifecycle
import EdgionCenter.Cloudflare.Batch
import EdgionCenter.Cloudflare.Listing
import EdgionCenter.Lib.Interaction

/-! The calls of the `CloudflareApi` trait, and the reads of a zone that its users share. -/
namespace EdgionCenter.Cloudflare

open Fallible Interaction

variable [Platform]

structure CloudflareZone where
  id : String
  accountId : String
  name : String
  kind : CloudflareZoneKind
  status : CloudflareZoneStatus
  nameServers : Finset AbsoluteDnsName
  modifiedOn : Option String
  deriving DecidableEq

structure CloudflareCreateZoneRequest where
  accountId : String
  name : String
  kind : CloudflareZoneKind
  deriving DecidableEq

structure CloudflareDeleteZoneAck where
  id : String
  deriving DecidableEq

inductive CloudflareDnssecStatus
  | active
  | pending
  | disabled
  | pendingDisabled
  | error
  deriving DecidableEq

structure CloudflareDnssecDs where
  keyTag : UInt16
  algorithm : UInt8
  digestType : UInt8
  digest : String
  deriving DecidableEq

structure CloudflareDnssec where
  status : CloudflareDnssecStatus
  ds : Option CloudflareDnssecDs
  modifiedOn : Option String
  deriving DecidableEq

structure CloudflarePage (T : Type) where
  items : List T
  page : Nat
  totalPages : Nat

inductive CloudflareCall
  | createZone (request : CloudflareCreateZoneRequest)
  | getZone (zoneId : String)
  | deleteZone (zoneId : String)
  | getDnssec (zoneId : String)
  | patchDnssec (zoneId : String) (desired : DnssecDesiredState)
  | listZones (accountId : String) (page perPage : Nat)
  | listRecords (zoneId : String) (page perPage : Nat)
  | batchRecords (zoneId : String) (request : CloudflareBatchRequest)

namespace CloudflareCall

@[reducible] def Reply : CloudflareCall → Type
  | createZone _ => CloudflareZone
  | getZone _ => Option CloudflareZone
  | deleteZone _ => CloudflareDeleteZoneAck
  | getDnssec _ => Option CloudflareDnssec
  | patchDnssec .. => CloudflareDnssec
  | listZones .. => CloudflarePage CloudflareZone
  | listRecords .. => CloudflarePage CloudflareRecord
  | batchRecords .. => CloudflareBatchResult

/-- The calls that change something at the provider. -/
def mutating : CloudflareCall → Bool
  | createZone _ | deleteZone _ | patchDnssec .. | batchRecords .. => true
  | _ => false

end CloudflareCall

abbrev CloudflareApiResult (c : CloudflareCall) := DnsProviderResult c.Reply

/-- Code that calls the API. -/
abbrev CloudflareIo := ExceptT NormalizedProviderError (Interaction CloudflareCall CloudflareApiResult)

/-- One call. -/
def api (c : CloudflareCall) : CloudflareIo c.Reply := attempt c

section Zones

structure ObservedDnsZone where
  zone : DnsZoneRef
  revision : Option DnsRecordRevision
  deriving DecidableEq

def CloudflareZoneKind.visibility : CloudflareZoneKind → ZoneVisibility
  | .full | .partialSetup | .secondary => .publicZone
  | .internal => .privateZone

def zoneRevision : Option String → DnsProviderResult (Option DnsRecordRevision)
  | none => .ok none
  | some modifiedOn => do
    let revision ← orElse (validation "invalid_zone_revision") (OpaqueId.new _ _ modifiedOn)
    return some revision

def mapZoneForAccount (centerAccountId : CloudResourceId) (cloudflareAccountId : String)
    (zone : CloudflareZone) : DnsProviderResult ObservedDnsZone := do
  require (zone.accountId = cloudflareAccountId) (validation "cloudflare_zone_account_mismatch")
  let zoneId ← orElse (validation "invalid_zone_id") (OpaqueId.new _ _ zone.id)
  let apex ← orElse (validation "invalid_zone_name") (AbsoluteDnsName.new zone.name)
  let revision ← zoneRevision zone.modifiedOn
  return ⟨⟨centerAccountId, .cloudflare, zoneId, apex, zone.kind.visibility⟩, revision⟩

def mapZoneInventoryForAccount (centerAccountId : CloudResourceId) (cloudflareAccountId : String)
    (zone : CloudflareZone) : DnsProviderResult ObservedCloudflareZone := do
  require (validCloudflareIdentifier zone.id = true) (validation "invalid_cloudflare_zone_id")
  require (validCloudflareIdentifier zone.accountId = true)
    (validation "invalid_cloudflare_zone_account_id")
  let observed ← mapZoneForAccount centerAccountId cloudflareAccountId zone
  return ⟨observed.zone, zone.kind, zone.status, zone.nameServers, observed.revision⟩

end Zones

section Pages

def validateProviderPage {T : Type} (requested perPage : Nat) (page : CloudflarePage T) :
    DnsProviderResult Unit :=
  require (page.page = requested ∧ (page.totalPages = 0 → requested = 1 ∧ page.items = []) ∧
      (page.totalPages ≠ 0 → page.page ≤ page.totalPages) ∧ page.items.length ≤ perPage)
    (validation "invalid_cloudflare_provider_page")

def maxRecordProviderPages : Nat := 20
def providerPageSize : Nat := 5000
def maxInventoryRecords : Nat := 100000

/-- The checks on one page of a zone's records, given those of the pages before it. -/
def nextRecords (page : Nat) (expected : Option Nat) (records : List CloudflareRecord)
    (result : CloudflarePage CloudflareRecord) : DnsProviderResult (List CloudflareRecord) := do
  validateProviderPage page providerPageSize result
  require (result.totalPages ≤ maxRecordProviderPages)
    (validation "cloudflare_record_pagination_limit")
  require (∀ total ∈ expected, total = result.totalPages)
    (validation "cloudflare_total_pages_changed")
  require (records.length + result.items.length ≤ maxInventoryRecords)
    (validation "cloudflare_record_inventory_limit")
  return records ++ result.items

/-- The loop over the pages of a zone's records, with what happens when it runs out. -/
def scanRecords (exhausted : List CloudflareRecord → CloudflareIo (List CloudflareRecord))
    (zoneId : String) :
    Nat → Nat → Option Nat → List CloudflareRecord → CloudflareIo (List CloudflareRecord)
  | 0, _, _, records => exhausted records
  | remaining + 1, page, expected, records => do
    let result : CloudflarePage CloudflareRecord ←
      api (.listRecords zoneId page providerPageSize)
    let records ← nextRecords page expected records result
    if result.totalPages ≤ page then return records
    else scanRecords exhausted zoneId remaining (page + 1) (some result.totalPages) records

/-- All records of a zone. -/
def listAllRecords (zoneId : String) : CloudflareIo (List CloudflareRecord) :=
  scanRecords (fun _ => throw (validation "cloudflare_record_pagination_limit")) zoneId
    maxRecordProviderPages 1 none []

end Pages

section Reads

variable {T U : Type}

/-- Code that changes nothing at the provider. -/
def Reads (p : CloudflareIo T) : Prop := Only (fun c => c.mutating = false) p.run

theorem reads_api {c : CloudflareCall} (h : c.mutating = false) : Reads (api c) :=
  ⟨h, fun _ => trivial⟩

theorem Reads.bind {p : CloudflareIo T} {f : T → CloudflareIo U} (h : Reads p)
    (hf : ∀ a, Reads (f a)) : Reads (p >>= f) :=
  only_run_bind h hf

theorem reads_lift (x : DnsProviderResult T) : Reads (liftM x : CloudflareIo T) :=
  only_run_lift

theorem reads_scanRecords {exhausted : List CloudflareRecord → CloudflareIo (List CloudflareRecord)}
    (h : ∀ records, Reads (exhausted records)) (zoneId : String) (remaining page : Nat)
    (expected : Option Nat) (records : List CloudflareRecord) :
    Reads (scanRecords exhausted zoneId remaining page expected records) := by
  induction remaining generalizing page expected records with
  | zero => exact h records
  | succ remaining ih =>
    refine (reads_api rfl).bind fun result => (reads_lift _).bind fun records => ?_
    split
    · exact reads_lift (.ok records)
    · exact ih _ _ _

theorem reads_listAllRecords (zoneId : String) : Reads (listAllRecords zoneId) :=
  reads_scanRecords (fun _ => reads_lift (.error _)) ..

end Reads

end EdgionCenter.Cloudflare
