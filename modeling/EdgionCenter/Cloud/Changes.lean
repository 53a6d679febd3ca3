import EdgionCenter.Cloud.RecordSet

/-! Changes of record sets and what a batch of them must satisfy before it is planned. -/
namespace EdgionCenter

open Fallible

inductive Route53RoutingFamily
  | simple
  | weighted
  | failover
  | latency
  | geolocation
  | multivalue
  deriving DecidableEq

structure Route53GroupState where
  family : Route53RoutingFamily
  explicitTtl : Option Nat
  uniqueMembers : Finset String
  memberCount : Nat

/-- `Debug` of the role. -/
def Route53FailoverRole.name : Route53FailoverRole → String
  | .primary => "Primary"
  | .secondary => "Secondary"

/-- The family of a routing policy, and what tells its members apart. -/
def Route53RoutingPolicy.family : Route53RoutingPolicy → Route53RoutingFamily × Option String
  | .weighted _ => (.weighted, none)
  | .failover role => (.failover, some role.name)
  | .latency region => (.latency, some region)
  | .geolocation location => (.geolocation, some location.identity)
  | .multivalue => (.multivalue, none)

def DnsTtl.explicit : DnsTtl → Option Nat
  | .seconds n => some n
  | _ => none

variable [Platform]

inductive DnsMutationGuard
  | mustNotExist
  | matchObserved (revision : DnsRecordRevision)

inductive DnsRecordChange
  | create (recordSet : ProviderDnsRecordSet) (guard : DnsMutationGuard)
  | replace (previous : ObservedDnsRecordSet) (desired : ProviderDnsRecordSet)
      (guard : DnsMutationGuard)
  | delete (previous : ObservedDnsRecordSet) (guard : DnsMutationGuard)

def DnsMutationGuard.validate : DnsMutationGuard → CoreResult Unit
  | .mustNotExist => .ok ()
  | .matchObserved revision => revision.validate

def requireExactGuard (guard : DnsMutationGuard) (expected : DnsRecordRevision) : CoreResult Unit :=
  let mismatch := .error
    (.conflict "DNS replacement and deletion require the exact observed revision")
  match guard with
  | .matchObserved revision => if revision = expected then .ok () else mismatch
  | .mustNotExist => mismatch

namespace DnsRecordChange

def key : DnsRecordChange → DnsRecordSetKey
  | create recordSet _ => recordSet.key
  | replace _ desired _ => desired.key
  | delete previous _ => previous.recordSet.key

def desiredRecordSet : DnsRecordChange → Option ProviderDnsRecordSet
  | create recordSet _ => some recordSet
  | replace _ desired _ => some desired
  | delete _ _ => none

/-- The record set that a change takes away. -/
def previousRecordSet : DnsRecordChange → Option ObservedDnsRecordSet
  | create _ _ => none
  | replace previous _ _ => some previous
  | delete previous _ => some previous

def validate (zone : DnsZoneRef) : DnsRecordChange → CoreResult Unit
  | create recordSet guard => do
    recordSet.validate zone
    guard.validate
    match guard with
    | .mustNotExist => pure ()
    | .matchObserved _ => .error (.conflict "DNS create requires a must-not-exist guard")
  | replace previous desired guard => do
    previous.validate
    desired.validate zone
    guard.validate
    require (previous.zone = zone ∧ previous.recordSet.key = desired.key)
      (.conflict "DNS replacement must preserve zone and record identity")
    requireExactGuard guard previous.revision
  | delete previous guard => do
    previous.validate
    guard.validate
    require (previous.zone = zone) (.conflict "DNS deletion targets a different zone")
    requireExactGuard guard previous.revision

end DnsRecordChange

/-- The record sets that a list of changes is to leave behind. -/
def desiredRecordSets (changes : List DnsRecordChange) : List ProviderDnsRecordSet :=
  changes.filterMap DnsRecordChange.desiredRecordSet

theorem key_of_desiredRecordSet {change : DnsRecordChange} {rs : ProviderDnsRecordSet}
    (h : change.desiredRecordSet = some rs) : change.key = rs.key := by
  cases change <;> cases h <;> rfl

section Groups

/-- A `BTreeMap` by owner and type. -/
abbrev Route53Groups := DnsOwnerName × ProviderDnsRecordType → Option Route53GroupState

def ProviderDnsRecordSet.routingFamily (rs : ProviderDnsRecordSet) :
    Route53RoutingFamily × Option String :=
  match rs.extension with
  | some (.route53 _ (some policy) _) => policy.family
  | _ => (.simple, none)

/-- One more member of a group: the state it leaves, unless it does not fit in. -/
def Route53GroupState.join (state : Route53GroupState) (family : Route53RoutingFamily)
    (explicitTtl : Option Nat) (uniqueMember : Option String) : CoreResult Route53GroupState := do
  require (state.family = family)
    (.conflict "Route 53 record sets cannot mix routing families")
  require (∀ ttl ∈ explicitTtl, ∀ existing ∈ state.explicitTtl, existing = ttl)
    (.conflict "Edgion Route 53 routing groups require a consistent explicit TTL")
  let memberCount := state.memberCount + 1
  require (state.family = .weighted → memberCount ≤ 100)
    (.conflict "Route 53 weighted routing groups cannot exceed 100 members")
  require (∀ member ∈ uniqueMember, member ∉ state.uniqueMembers)
    (.conflict "Route 53 routing group contains a duplicate selector")
  return {
    family := state.family
    explicitTtl := state.explicitTtl <|> explicitTtl
    uniqueMembers := match uniqueMember with
      | some member => insert member state.uniqueMembers
      | none => state.uniqueMembers
    memberCount := memberCount }

def validateRoute53GroupMember (groups : Route53Groups) (rs : ProviderDnsRecordSet) :
    CoreResult Route53Groups := do
  let (family, uniqueMember) := rs.routingFamily
  let explicitTtl := rs.ttl.explicit
  let group := (rs.key.owner, rs.key.recordType)
  let state := (groups group).getD ⟨family, explicitTtl, ∅, 0⟩
  let joined ← state.join family explicitTtl uniqueMember
  return Function.update groups group (some joined)

end Groups

section Batch

/-- The variables of the loop in `validate_dns_changes`. -/
structure ChangeScan where
  keys : List DnsRecordSetKey := []
  ownersAndTypes : List (DnsOwnerName × Bool) := []
  groups : Route53Groups := fun _ => none

def ChangeScan.step (zone : DnsZoneRef) (scan : ChangeScan) (change : DnsRecordChange) :
    CoreResult ChangeScan := do
  change.validate zone
  require (¬ (change.key.owner.value = zone.apex.value ∧
      (change.key.recordType = .ns ∨ change.key.recordType = .soa)))
    (.conflict "apex SOA and delegation NS changes require the zone lifecycle contract")
  require (change.key ∉ scan.keys)
    (.conflict "DNS change batch contains a duplicate record identity")
  let ownersAndTypes := match change.desiredRecordSet with
    | some rs => (rs.key.owner, rs.key.recordType = .cname) :: scan.ownersAndTypes
    | none => scan.ownersAndTypes
  let groups ← match zone.provider, change.desiredRecordSet with
    | .aws, some rs => validateRoute53GroupMember scan.groups rs
    | _, _ => .ok scan.groups
  return ⟨change.key :: scan.keys, ownersAndTypes, groups⟩

def validateDnsChanges (zone : DnsZoneRef) (changes : List DnsRecordChange) : CoreResult Unit := do
  zone.validate
  require (changes ≠ [] ∧ changes.length ≤ 1000) (.conflict "DNS change batch size is invalid")
  let scan ← changes.foldlM (ChangeScan.step zone) {}
  require (∀ entry ∈ scan.ownersAndTypes, entry.2 = true →
      (entry.1, false) ∉ scan.ownersAndTypes)
    (.conflict "CNAME cannot coexist with another record type in one batch")

end Batch

end EdgionCenter
