import EdgionCenter.Cloud.Token
import EdgionCenter.Cloudflare.Aggregate

/-! The admin API's view of a Cloudflare record set, and the checks on it. -/
namespace EdgionCenter.Cloudflare

open Fallible

inductive CloudflareDnsAdminError
  | invalidRequest
  | notFound
  | conflict
  | unknownOutcome
  | unavailable
  | restartRequired
  | invalidProviderObservation
  deriving DecidableEq

inductive CloudflareRecordType
  | a
  | aaaa
  | cname
  | txt
  | mx
  | srv
  | caa
  | ns
  | soa
  deriving DecidableEq

def CloudflareRecordType.core : CloudflareRecordType → ProviderDnsRecordType
  | .a => .a
  | .aaaa => .aaaa
  | .cname => .cname
  | .txt => .txt
  | .mx => .mx
  | .srv => .srv
  | .caa => .caa
  | .ns => .ns
  | .soa => .soa

def mapRecordType : ProviderDnsRecordType → CloudflareRecordType
  | .a => .a
  | .aaaa => .aaaa
  | .cname => .cname
  | .txt => .txt
  | .mx => .mx
  | .srv => .srv
  | .caa => .caa
  | .ns => .ns
  | .soa => .soa

@[simp] theorem mapRecordType_core (t : CloudflareRecordType) : mapRecordType t.core = t := by
  cases t <;> rfl

@[simp] theorem core_mapRecordType (t : ProviderDnsRecordType) : (mapRecordType t).core = t := by
  cases t <;> rfl

inductive CloudflareRecordTtlDto
  | automatic
  | seconds (seconds : Nat)
  deriving DecidableEq

def CloudflareRecordTtlDto.core : CloudflareRecordTtlDto → DnsTtl
  | .automatic => .automatic
  | .seconds n => .seconds n

/-- Where a record set says it is written from. -/
inductive CloudflareRecordControlDto
  | manual
  | remote (callerAlias : String)
  | invalidRemoteMarker
  deriving DecidableEq

section Tags

def reservedTagPrefix : String := "edgion-center-"
def remoteControlTagName : String := "edgion-center-remote"
def remoteCallerAliasLen : Nat := 43

def isReservedCloudflareRecordTag (tag : String) : Bool :=
  startsWith (asciiLower (((splitOnce ':' tag).map Prod.fst).getD tag)) reservedTagPrefix

def validRemoteCallerAlias (value : String) : Bool :=
  utf8Len value.toList == remoteCallerAliasLen &&
    value.toList.all fun c => c.isAlphanum || c == '-' || c == '_'

/-- The variables of the loop in `split_cloudflare_record_tags`. -/
structure TagSplit where
  tags : List String := []
  remoteAlias : Option String := none
  invalidMarker : Bool := false
  deriving DecidableEq

def TagSplit.step (split : TagSplit) (tag : String) : TagSplit :=
  match splitOnce ':' tag with
  | none =>
    if isReservedCloudflareRecordTag tag then { split with invalidMarker := true }
    else { split with tags := split.tags ++ [tag] }
  | some (name, value) =>
    if startsWith (asciiLower name) reservedTagPrefix = false then
      { split with tags := split.tags ++ [tag] }
    else if name ≠ remoteControlTagName ∨ validRemoteCallerAlias value = false then
      { split with invalidMarker := true }
    else
      { split with
        remoteAlias := some value
        invalidMarker := split.invalidMarker || split.remoteAlias.isSome }

def TagSplit.control (split : TagSplit) : CloudflareRecordControlDto :=
  if split.invalidMarker then .invalidRemoteMarker
  else match split.remoteAlias with
    | some callerAlias => .remote callerAlias
    | none => .manual

/-- `split_cloudflare_record_tags`, which never fails. -/
def splitCloudflareRecordTags (raw : Finset String) : List String × CloudflareRecordControlDto :=
  let split := (inOrder raw).foldl TagSplit.step {}
  (split.tags, split.control)

theorem TagSplit.step_tags (split : TagSplit) (tag : String) :
    (split.step tag).tags =
      split.tags ++ [tag].filter fun t => !isReservedCloudflareRecordTag t := by
  unfold TagSplit.step
  split
  · split <;> simp_all
  · rename_i name value hsplit
    have hres : isReservedCloudflareRecordTag tag =
        startsWith (asciiLower name) reservedTagPrefix := by
      simp [isReservedCloudflareRecordTag, hsplit]
    split
    · simp_all
    · split <;> simp_all

variable {split : TagSplit}

theorem TagSplit.step_remoteAlias (tag : String)
    (h : ∀ callerAlias ∈ split.remoteAlias, validRemoteCallerAlias callerAlias = true) :
    ∀ callerAlias ∈ (split.step tag).remoteAlias, validRemoteCallerAlias callerAlias = true := by
  unfold TagSplit.step
  split
  · split <;> exact h
  · rename_i name value hsplit
    split
    · exact h
    · split
      · exact h
      · rename_i hok
        simp only [not_or, Bool.not_eq_false] at hok
        intro callerAlias hc
        cases hc
        exact hok.2

theorem TagSplit.foldl_tags (tags : List String) (split : TagSplit) :
    (tags.foldl TagSplit.step split).tags =
      split.tags ++ tags.filter fun t => !isReservedCloudflareRecordTag t := by
  induction tags generalizing split with
  | nil => simp
  | cons tag tags ih =>
    rw [List.foldl_cons, ih, TagSplit.step_tags, List.append_assoc, ← List.filter_append]
    rfl

theorem TagSplit.foldl_remoteAlias (tags : List String)
    (h : ∀ callerAlias ∈ split.remoteAlias, validRemoteCallerAlias callerAlias = true) :
    ∀ callerAlias ∈ (tags.foldl TagSplit.step split).remoteAlias,
      validRemoteCallerAlias callerAlias = true := by
  induction tags generalizing split with
  | nil => exact h
  | cons tag tags ih => exact ih (TagSplit.step_remoteAlias tag h)

/-- The tags that are shown are those that are not reserved. -/
theorem splitCloudflareRecordTags_fst (raw : Finset String) :
    (splitCloudflareRecordTags raw).1 =
      raw.sort.filter fun t => !isReservedCloudflareRecordTag t := by
  simp [splitCloudflareRecordTags, TagSplit.foldl_tags]

theorem splitCloudflareRecordTags_remote {raw : Finset String} {callerAlias : String}
    (h : (splitCloudflareRecordTags raw).2 = .remote callerAlias) :
    validRemoteCallerAlias callerAlias = true := by
  simp only [splitCloudflareRecordTags, TagSplit.control] at h
  split at h
  · cases h
  · split at h
    · rename_i shown hshown
      cases h
      have hnone : ∀ name ∈ ({} : TagSplit).remoteAlias, validRemoteCallerAlias name = true := by
        intro name hname
        cases hname
      exact TagSplit.foldl_remoteAlias raw.sort hnone callerAlias hshown
    · cases h

end Tags

structure CloudflareOctetsDto where
  base64 : String
  deriving DecidableEq

def CloudflareOctetsDto.decode (octets : CloudflareOctetsDto) : CoreResult (List UInt8) :=
  match decodeBase64 octets.base64 with
  | none => .error (.conflict "Cloudflare DNS octets are not valid base64url")
  | some decoded =>
    if EdgionCenter.base64 decoded = octets.base64 then .ok decoded
    else .error (.conflict "Cloudflare DNS octets are not canonical base64url")

def octets (value : List UInt8) : CloudflareOctetsDto := ⟨base64 value⟩

@[simp] theorem decode_octets (value : List UInt8) : (octets value).decode = .ok value := by
  simp [CloudflareOctetsDto.decode, octets, decodeBase64_base64]

variable [Platform]

section Values

inductive CloudflareRecordValueDto
  | a (address : Ipv4Addr)
  | aaaa (address : Ipv6Addr)
  | cname (target : AbsoluteDnsName)
  | txt (segments : List CloudflareOctetsDto)
  | mx (preference : UInt16) (exchange : AbsoluteDnsName)
  | srv (priority weight port : UInt16) (target : AbsoluteDnsName)
  | caa (flags : UInt8) (tag : CaaTag) (value : CloudflareOctetsDto)
  | ns (target : AbsoluteDnsName)
  | soa (primaryNameServer responsibleMailbox : AbsoluteDnsName)
      (serial refresh retry expire minimum : UInt32)
  deriving DecidableEq

def CloudflareRecordValueDto.core :
    CloudflareRecordValueDto → CoreResult DnsRecordSetValue
  | .a address => .ok (.a address)
  | .aaaa address => .ok (.aaaa address)
  | .cname target => .ok (.cname target)
  | .txt segments => do
    let texts ← segments.mapM fun segment => segment.decode >>= DnsCharacterString.new
    let value ← DnsTxtValue.new texts
    return .txt value
  | .mx preference exchange => .ok (.mx preference exchange)
  | .srv priority weight port target => .ok (.srv priority weight port target)
  | .caa flags tag value => do
    let decoded ← value.decode
    let text ← DnsCharacterString.new decoded
    return .caa flags tag text
  | .ns target => .ok (.ns target)
  | .soa primaryNameServer responsibleMailbox serial refresh retry expire minimum =>
    .ok (.soa primaryNameServer responsibleMailbox serial refresh retry expire minimum)

/-- `map_record_value`, which never fails. -/
def mapRecordValue : DnsRecordSetValue → CloudflareRecordValueDto
  | .a address => .a address
  | .aaaa address => .aaaa address
  | .cname target => .cname target
  | .txt value => .txt (value.segments.map fun segment => octets segment.bytes)
  | .mx preference exchange => .mx preference exchange
  | .srv priority weight port target => .srv priority weight port target
  | .caa flags tag value => .caa flags tag (octets value.bytes)
  | .ns target => .ns target
  | .soa primaryNameServer responsibleMailbox serial refresh retry expire minimum =>
    .soa primaryNameServer responsibleMailbox serial refresh retry expire minimum

/-- No value is lost in the projection. -/
theorem core_mapRecordValue (v : DnsRecordSetValue) : (mapRecordValue v).core = .ok v := by
  cases v with
  | txt value =>
    have hsegments : (value.segments.map fun segment => octets segment.bytes).mapM
        (fun segment => segment.decode >>= DnsCharacterString.new) = .ok value.segments := by
      rw [mapM_eq_ok, List.forall₂_map_left_iff, List.forall₂_same]
      intro segment _
      simp [DnsCharacterString.new_bytes]
    simp [mapRecordValue, CloudflareRecordValueDto.core, hsegments, DnsTxtValue.new_segments]
  | caa flags tag value =>
    simp [mapRecordValue, CloudflareRecordValueDto.core, DnsCharacterString.new_bytes]
  | _ => rfl

theorem core_mapM_mapRecordValue (values : List DnsRecordSetValue) :
    (values.map mapRecordValue).mapM CloudflareRecordValueDto.core = .ok values := by
  rw [mapM_eq_ok, List.forall₂_map_left_iff, List.forall₂_same]
  intro v _
  exact core_mapRecordValue v

end Values

structure CloudflareRecordSetDto where
  providerAccountId : CloudResourceId
  zoneId : DnsZoneId
  zoneApex : AbsoluteDnsName
  zoneVisibility : ZoneVisibility
  owner : DnsOwnerName
  recordType : CloudflareRecordType
  ttl : CloudflareRecordTtlDto
  values : List CloudflareRecordValueDto
  proxy : Option CloudflareProxyOptions
  cnameFlattening : CloudflareCnameFlattening
  comment : Option String
  tags : List String
  control : CloudflareRecordControlDto
  providerObjectIds : List DnsRecordObjectId
  revision : DnsRecordRevision
  deriving DecidableEq

def validateCloudflareZoneId (zoneId : DnsZoneId) : CoreResult Unit := do
  zoneId.validate
  require (validCloudflareIdentifier zoneId.value = true)
    (.invalidIdentifier "Cloudflare zone ID" zoneId.value)

namespace CloudflareRecordSetDto

variable (dto : CloudflareRecordSetDto)

def zone : DnsZoneRef :=
  ⟨dto.providerAccountId, .cloudflare, dto.zoneId, dto.zoneApex, dto.zoneVisibility⟩

/-- Something that is shown asks for an extension. -/
def AsksExtension (tags : Finset String) : Prop :=
  dto.recordType.core.proxiable = true ∨ dto.comment.isSome = true ∨ tags ≠ ∅ ∨
    dto.cnameFlattening ≠ .providerDefault

instance (tags : Finset String) : Decidable (dto.AsksExtension tags) :=
  inferInstanceAs (Decidable (_ ∨ _))

def extension (tags : Finset String) : CoreResult (Option DnsRecordExtension) :=
  if dto.AsksExtension tags then
    .ok (some (.cloudflare dto.proxy dto.cnameFlattening dto.comment tags))
  else do
    require (dto.proxy = none) (.conflict "Cloudflare proxy state is invalid for this RRset")
    return none

variable {tags : Finset String}

variable {dto} in
theorem extension_of_asks (h : dto.AsksExtension tags) : dto.extension tags =
      .ok (some (.cloudflare dto.proxy dto.cnameFlattening dto.comment tags)) := by
  rw [extension, if_pos h]

variable {dto} in
theorem extension_of_not_asks (h : ¬ dto.AsksExtension tags) (hproxy : dto.proxy = none)
    {rebuilt : Option DnsRecordExtension} : dto.extension tags = .ok rebuilt ↔ rebuilt = none := by
  rw [extension, if_neg h]
  simp only [bind_eq_ok, exists_unit, require_eq_ok, hproxy, true_and, pure_eq_ok]
  exact eq_comm

def controlShown : Bool :=
  match dto.control with
  | .remote callerAlias => validRemoteCallerAlias callerAlias
  | _ => true

def validate : CoreResult Unit := do
  dto.providerAccountId.validate
  validateCloudflareZoneId dto.zoneId
  dto.revision.validate
  let values ← dto.values.mapM CloudflareRecordValueDto.core
  require (values.toFinset.card = dto.values.length)
    (.conflict "Cloudflare RRset contains duplicate values")
  require (dto.ttl.core.inCloudflareRange = true)
    (.conflict "Cloudflare RRset TTL is outside the provider range")
  let tags := dto.tags.toFinset
  require (tags.card = dto.tags.length) (.conflict "Cloudflare RRset contains duplicate tags")
  require ((∀ tag ∈ tags, isReservedCloudflareRecordTag tag = false) ∧ dto.controlShown = true)
    (.conflict "Cloudflare RRset control projection is invalid")
  let objectIds := dto.providerObjectIds.toFinset
  require (objectIds.card = dto.providerObjectIds.length ∧ objectIds ≠ ∅)
    (.conflict "Cloudflare RRset object IDs are invalid")
  require (∀ id ∈ objectIds, validCloudflareIdentifier id.value = true)
    (.conflict "Cloudflare RRset contains an invalid provider object ID")
  let extension ← dto.extension tags
  let recordSet : ProviderDnsRecordSet :=
    ⟨⟨dto.owner, dto.recordType.core, .simple⟩, dto.ttl.core, values.toFinset, extension⟩
  recordSet.validate dto.zone

end CloudflareRecordSetDto

section MapRecord

def mapTtl : DnsTtl → Except CloudflareDnsAdminError CloudflareRecordTtlDto
  | .automatic => .ok .automatic
  | .seconds n => .ok (.seconds n)
  | .inherited => .error .invalidProviderObservation

structure MappedExtension where
  proxy : Option CloudflareProxyOptions
  cnameFlattening : CloudflareCnameFlattening
  comment : Option String
  tags : Finset String
  deriving DecidableEq

def mapExtension : Option DnsRecordExtension → Except CloudflareDnsAdminError MappedExtension
  | some (.cloudflare proxy cnameFlattening comment tags) =>
    .ok ⟨proxy, cnameFlattening, comment, tags⟩
  | none => .ok ⟨none, .providerDefault, none, ∅⟩
  | some (.route53 ..) => .error .invalidProviderObservation

def isCloudflareExtension : Option DnsRecordExtension → Bool
  | some (.cloudflare ..) => true
  | _ => false

/-- The projection that `map_record` builds once its checks have passed. -/
def recordSetDto (observed : ObservedDnsRecordSet) (ttl : CloudflareRecordTtlDto)
    (extension : MappedExtension) : CloudflareRecordSetDto where
  providerAccountId := observed.zone.providerAccountId
  zoneId := observed.zone.zoneId
  zoneApex := observed.zone.apex
  zoneVisibility := observed.zone.visibility
  owner := observed.recordSet.key.owner
  recordType := mapRecordType observed.recordSet.key.recordType
  ttl := ttl
  values := (inOrder observed.recordSet.values).map mapRecordValue
  proxy := extension.proxy
  cnameFlattening := extension.cnameFlattening
  comment := extension.comment
  tags := (splitCloudflareRecordTags extension.tags).1
  control := (splitCloudflareRecordTags extension.tags).2
  providerObjectIds := inOrder observed.providerObjectIds
  revision := observed.revision

/-- `map_record` of the admin service. -/
def mapRecord (observed : ObservedDnsRecordSet) :
    Except CloudflareDnsAdminError CloudflareRecordSetDto := do
  orElse .invalidProviderObservation observed.validate
  require (observed.zone.provider = .cloudflare ∧
      validCloudflareIdentifier observed.zone.zoneId.value = true ∧
      observed.recordSet.key.routing = .simple ∧ observed.providerObjectIds ≠ ∅ ∧
      ∀ id ∈ observed.providerObjectIds, validCloudflareIdentifier id.value = true)
    .invalidProviderObservation
  require (observed.recordSet.key.recordType.proxiable = true →
      isCloudflareExtension observed.recordSet.extension = true)
    .invalidProviderObservation
  let ttl ← mapTtl observed.recordSet.ttl
  let extension ← mapExtension observed.recordSet.extension
  return recordSetDto observed ttl extension

end MapRecord

end EdgionCenter.Cloudflare
