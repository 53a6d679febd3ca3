import EdgionCenter.Cloud.Name
import Mathlib.Data.Finset.Sort
import Mathlib.Data.Prod.Lex
import Mathlib.Data.String.Basic

/-! Provider-neutral DNS record sets and what makes one valid in a zone. A `BTreeSet` is a `Finset`. -/
namespace EdgionCenter

open Fallible

/-- Iterating over a `BTreeSet`. -/
abbrev inOrder {α : Type} [LinearOrder α] (values : Finset α) : List α := values.sort

section Text

/-- `validate_text`. -/
def validText (maxLen : Nat) (value : String) : Bool :=
  value ≠ "" && utf8Len value.toList ≤ maxLen && trim value = value && !value.toList.any isControl

def validateText (value kind : String) (maxLen : Nat) : CoreResult Unit :=
  require (validText maxLen value = true) (.conflict (kind ++ " is invalid"))

/-- Printable ASCII other than the blank. -/
def isGraphic (c : Char) : Bool := 33 ≤ c.toNat && c.toNat ≤ 126

theorem utf8Len_of_graphic {cs : List Char} (h : ∀ c ∈ cs, isGraphic c = true) :
    utf8Len cs = cs.length := by
  apply utf8Len_of_ascii
  intro c hc
  have hgraphic := h c hc
  simp only [isGraphic, Bool.and_eq_true, decide_eq_true_eq] at hgraphic
  omega

theorem isWhitespace_of_graphic {c : Char} (hlow : 33 ≤ c.toNat) (hhigh : c.toNat ≤ 126) :
    isWhitespace c = false := by
  rw [← Bool.not_eq_true]
  simp only [isWhitespace, List.contains_eq_mem, List.mem_cons, List.not_mem_nil, or_false,
    Bool.or_eq_true, Bool.and_eq_true, decide_eq_true_eq]
  omega

theorem trim_of_graphic {s : String} (h : ∀ c ∈ s.toList, isGraphic c = true) : trim s = s := by
  have hspace : ∀ c, isGraphic c = true → isWhitespace c = false := by
    intro c hc
    simp only [isGraphic, Bool.and_eq_true, decide_eq_true_eq] at hc
    exact isWhitespace_of_graphic hc.1 hc.2
  have hdrop : ∀ cs : List Char, (∀ c ∈ cs, isGraphic c = true) →
      cs.dropWhile isWhitespace = cs := by
    intro cs hcs
    cases cs with
    | nil => rfl
    | cons c cs => simp [hspace c (hcs c (by simp))]
  unfold trim
  rw [hdrop _ h, hdrop _ (by simpa using h), List.reverse_reverse, String.ofList_toList]

theorem validText_of_graphic {maxLen : Nat} {s : String} (hne : s ≠ "")
    (hlen : s.toList.length ≤ maxLen) (h : ∀ c ∈ s.toList, isGraphic c = true) :
    validText maxLen s = true := by
  have hcontrol : s.toList.any isControl = false := by
    rw [List.any_eq_false]
    intro c hc
    have := h c hc
    simp only [isGraphic, isControl, Bool.and_eq_true, Bool.or_eq_true, decide_eq_true_eq] at this ⊢
    omega
  simp [validText, hne, utf8Len_of_graphic h, hlen, trim_of_graphic h, hcontrol]

/-- The identifiers that `opaque_id!` declares. -/
structure OpaqueId (kind : String) (maxLen : Nat) where
  value : String
  valid : validText maxLen value = true

namespace OpaqueId

variable {kind : String} {maxLen : Nat}

def new (kind : String) (maxLen : Nat) (value : String) : CoreResult (OpaqueId kind maxLen) :=
  if h : validText maxLen value = true then .ok ⟨value, h⟩
  else .error (.conflict (kind ++ " is invalid"))

def validate (id : OpaqueId kind maxLen) : CoreResult Unit :=
  (fun _ => ()) <$> new kind maxLen id.value

theorem new_eq_ok {value : String} {id : OpaqueId kind maxLen} :
    new kind maxLen value = .ok id ↔ id.value = value := by
  unfold new
  by_cases h : validText maxLen value = true
  · rw [dif_pos h]
    constructor
    · intro he
      cases he
      rfl
    · intro he
      cases id
      subst he
      rfl
  · rw [dif_neg h]
    constructor
    · intro he
      cases he
    · intro he
      exact absurd (he ▸ id.valid) h

@[simp] theorem validate_eq (id : OpaqueId kind maxLen) : id.validate = .ok () := by
  unfold validate
  rw [new_eq_ok.mpr rfl]
  rfl

def validateOptional : Option (OpaqueId kind maxLen) → CoreResult Unit
  | some id => id.validate
  | none => .ok ()

@[simp] theorem validateOptional_eq (id : Option (OpaqueId kind maxLen)) :
    validateOptional id = .ok () := by
  cases id <;> simp [validateOptional]

theorem value_injective : Function.Injective (value : OpaqueId kind maxLen → String) := by
  rintro ⟨a, _⟩ ⟨b, _⟩ h
  cases h
  rfl

instance : LinearOrder (OpaqueId kind maxLen) := LinearOrder.lift' value value_injective

end OpaqueId

abbrev DnsZoneId := OpaqueId "DNS zone ID" 512
abbrev DnsRecordObjectId := OpaqueId "DNS record object ID" 512
abbrev DnsRecordRevision := OpaqueId "DNS record revision" 512
abbrev DnsPageToken := OpaqueId "DNS page token" 4096
abbrev Route53HealthCheckId := OpaqueId "Route 53 health check ID" 64

/-- Deserialising does not check it, so it is checked where it is used. -/
@[ext]
structure CloudResourceId where
  value : String
  deriving DecidableEq

def CloudResourceId.new (value : String) : CoreResult CloudResourceId :=
  if validText 512 value then .ok ⟨value⟩ else .error (.invalidIdentifier "cloud resource" value)

def CloudResourceId.validate (id : CloudResourceId) : CoreResult Unit :=
  (fun _ => ()) <$> CloudResourceId.new id.value

end Text

/-- SHA-256 of the JSON form of a value, in lowercase hexadecimal. -/
class Sha256 (α : Type) where
  hex : α → String
  hex_length : ∀ a, (hex a).toList.length = 64
  hex_digits : ∀ a, ∀ c ∈ (hex a).toList, c.isDigit = true ∨ 'a' ≤ c ∧ c ≤ 'f'

/-- `format!("sha256:{:x}", ..)`. -/
def sha256Revision {α : Type} [Sha256 α] (a : α) : String := "sha256:" ++ Sha256.hex a

/-- A digest that is the same for every value. -/
@[reducible] def zeroDigest (α : Type) : Sha256 α where
  hex _ := String.ofList (List.replicate 64 '0')
  hex_length _ := by simp
  hex_digits _ c hc := by
    rw [String.toList_ofList] at hc
    obtain rfl := List.eq_of_mem_replicate hc
    decide

theorem isGraphic_of_hex {c : Char} (h : c.isDigit = true ∨ 'a' ≤ c ∧ c ≤ 'f') :
    isGraphic c = true := by
  simp only [Char.isDigit, ge_iff_le, Bool.and_eq_true, decide_eq_true_eq, Char.le_def,
    UInt32.le_iff_toNat_le] at h
  simp only [isGraphic, Bool.and_eq_true, decide_eq_true_eq]
  change (48 ≤ c.toNat ∧ c.toNat ≤ 57) ∨ 97 ≤ c.toNat ∧ c.toNat ≤ 102 at h
  omega

theorem validText_sha256Revision {α : Type} [Sha256 α] (a : α) :
    validText 512 (sha256Revision a) = true := by
  have hlist : (sha256Revision a).toList = "sha256:".toList ++ (Sha256.hex a).toList :=
    String.toList_append
  apply validText_of_graphic
  · intro he
    rw [he] at hlist
    simp at hlist
  · rw [hlist, List.length_append, Sha256.hex_length]
    decide
  · intro c hc
    rw [hlist, List.mem_append] at hc
    rcases hc with hc | hc
    · have hall : "sha256:".toList.all isGraphic = true := by decide
      exact List.all_eq_true.mp hall c hc
    · exact isGraphic_of_hex (Sha256.hex_digits a c hc)

section Errors

inductive ProviderErrorCategory
  | authentication
  | authorization
  | quota
  | conflict
  | validation
  | notFound
  | transient
  | throttled
  | unknownOutcome
  deriving DecidableEq

structure NormalizedProviderError where
  category : ProviderErrorCategory
  code : String
  message : String
  retryAfterMs : Option Nat
  providerRequestId : Option String
  deriving DecidableEq

abbrev DnsProviderResult := Except NormalizedProviderError

end Errors

section Octets

structure DnsCharacterString where
  bytes : List UInt8
  bounded : bytes.length ≤ 255
  deriving DecidableEq

def DnsCharacterString.new (bytes : List UInt8) : CoreResult DnsCharacterString :=
  if h : bytes.length ≤ 255 then .ok ⟨bytes, h⟩
  else .error (.conflict "DNS character-string cannot exceed 255 octets")

def DnsTxtValue.fits (segments : List DnsCharacterString) : Bool :=
  segments ≠ [] && segments.length ≤ 64 &&
    (segments.map fun segment => segment.bytes.length).sum ≤ 4096

structure DnsTxtValue where
  segments : List DnsCharacterString
  bounded : DnsTxtValue.fits segments = true
  deriving DecidableEq

def DnsTxtValue.new (segments : List DnsCharacterString) : CoreResult DnsTxtValue :=
  if h : DnsTxtValue.fits segments = true then .ok ⟨segments, h⟩
  else .error (.conflict "DNS TXT value is too large")

/-- A lowercase tag. -/
def CaaTag.isTag (value : String) : Bool :=
  value ≠ "" && utf8Len value.toList ≤ 15 && value.toList.head?.any Char.isAlphanum &&
    value.toList.getLast?.any Char.isAlphanum &&
    value.toList.all fun c => c.isAlphanum || c == '-'

structure CaaTag where
  value : String
  valid : CaaTag.isTag value = true
  lower : asciiLower value = value
  deriving DecidableEq

def CaaTag.new (value : String) : CoreResult CaaTag :=
  if h : CaaTag.isTag (asciiLower value) = true then
    .ok ⟨asciiLower value, h, asciiLower_asciiLower value⟩
  else .error (.conflict "CAA tag is invalid")

theorem DnsCharacterString.new_bytes (s : DnsCharacterString) : new s.bytes = .ok s := by
  simp [new, s.bounded]

theorem DnsTxtValue.new_segments (v : DnsTxtValue) : new v.segments = .ok v := by
  simp [new, v.bounded]

theorem DnsTxtValue.segments_ne_nil (v : DnsTxtValue) : v.segments ≠ [] := by
  intro he
  have hb := v.bounded
  simp [fits, he] at hb

theorem CaaTag.new_value (t : CaaTag) : new t.value = .ok t := by
  cases t with
  | mk value valid lower => simp [new, lower, valid]

/-- `DnsTxtValue::validate`. -/
def DnsTxtValue.validate (v : DnsTxtValue) : CoreResult Unit := do
  let _ ← v.segments.mapM fun segment => DnsCharacterString.new segment.bytes
  let _ ← DnsTxtValue.new v.segments

/-- `CaaTag::validate`. -/
def CaaTag.validate (t : CaaTag) : CoreResult Unit := do
  let again ← CaaTag.new t.value
  require (again = t) (.conflict "CAA tag is not canonical")

end Octets

inductive ProviderDnsRecordType
  | a
  | aaaa
  | cname
  | txt
  | mx
  | srv
  | caa
  | ns
  | soa
  deriving DecidableEq

inductive CloudProvider
  | cloudflare
  | aws
  deriving DecidableEq

inductive ZoneVisibility
  | publicZone
  | privateZone
  deriving DecidableEq

inductive DnsTtl
  | automatic
  | inherited
  | seconds (seconds : Nat)
  deriving DecidableEq

inductive CloudflareProxyOptions
  | dnsOnly
  | proxied
  deriving DecidableEq

inductive CloudflareCnameFlattening
  | providerDefault
  | flatten
  | doNotFlatten
  deriving DecidableEq

inductive DnsRoutingIdentity
  | simple
  | route53 (setIdentifier : String)
  deriving DecidableEq

inductive Route53FailoverRole
  | primary
  | secondary
  deriving DecidableEq

inductive Route53GeoLocation
  | default
  | continent (code : String)
  | country (code : String)
  | usSubdivision (code : String)
  deriving DecidableEq

inductive Route53RoutingPolicy
  | weighted (weight : UInt8)
  | failover (role : Route53FailoverRole)
  | latency (region : String)
  | geolocation (location : Route53GeoLocation)
  | multivalue
  deriving DecidableEq

/-- The types Cloudflare can proxy. -/
def ProviderDnsRecordType.proxiable : ProviderDnsRecordType → Bool
  | .a | .aaaa | .cname => true
  | _ => false

/-- The position in the declaration, by which `derive(Ord)` compares. -/
def ProviderDnsRecordType.index : ProviderDnsRecordType → Nat
  | .a => 0
  | .aaaa => 1
  | .cname => 2
  | .txt => 3
  | .mx => 4
  | .srv => 5
  | .caa => 6
  | .ns => 7
  | .soa => 8

theorem ProviderDnsRecordType.index_injective : Function.Injective index := by
  intro t t' h
  cases t <;> cases t' <;> first | rfl | cases h

/-- The range of TTLs Cloudflare takes. -/
def DnsTtl.inCloudflareRange : DnsTtl → Bool
  | .seconds n => 30 ≤ n && n ≤ 86400
  | _ => true

def continents : List String := ["AF", "AN", "AS", "EU", "OC", "NA", "SA"]

def Route53GeoLocation.validate (location : Route53GeoLocation) : CoreResult Unit :=
  let invalid := .error (.conflict "Route 53 geolocation selector is invalid")
  match location with
  | .default => .ok ()
  | .continent code => if code ∈ continents then .ok () else invalid
  | .country code | .usSubdivision code =>
    if utf8Len code.toList = 2 ∧ code.toList.all Char.isUpper then .ok () else invalid

def Route53GeoLocation.identity : Route53GeoLocation → String
  | .default => "default"
  | .continent code => "continent:" ++ code
  | .country code => "country:" ++ code
  | .usSubdivision code => "us-subdivision:" ++ code

def Route53RoutingPolicy.validate : Route53RoutingPolicy → CoreResult Unit
  | .latency region => validateText region "Route 53 latency region" 64
  | .geolocation location => location.validate
  | _ => .ok ()

/-- Routing policies that send a query to one of several answers. -/
def Route53RoutingPolicy.singleValued : Route53RoutingPolicy → Bool
  | .weighted _ | .latency _ => true
  | _ => false

def Route53RoutingPolicy.isFailover : Route53RoutingPolicy → Bool
  | .failover _ => true
  | _ => false

/-- A set identifier comes with a policy; a set without either needs another reason for an
extension. -/
def DnsRoutingIdentity.agrees (routing : DnsRoutingIdentity) (policy : Option Route53RoutingPolicy)
    (extended : Bool) : Bool :=
  match routing, policy with
  | .simple, none => extended
  | .route53 _, some _ => true
  | _, _ => false

section SortKeys

theorem toNat_chars_injective : Function.Injective fun s : String => s.toList.map Char.toNat := by
  intro s t h
  have hinj : Function.Injective Char.toNat := fun _ _ => Char.toNat_inj.mp
  exact String.toList_inj.mp (List.map_injective_iff.mpr hinj h)

theorem CaaTag.eq_of_chars {t t' : CaaTag}
    (h : t.value.toList.map Char.toNat = t'.value.toList.map Char.toNat) : t = t' := by
  have he : t.value = t'.value := toNat_chars_injective h
  cases t
  cases t'
  cases he
  rfl

theorem DnsCharacterString.eq_of_bytes {s s' : DnsCharacterString}
    (h : s.bytes.map UInt8.toNat = s'.bytes.map UInt8.toNat) : s = s' := by
  have hinj : Function.Injective UInt8.toNat := fun _ _ => UInt8.toNat_inj.mp
  have he := List.map_injective_iff.mpr hinj h
  cases s
  cases s'
  cases he
  rfl

theorem DnsTxtValue.eq_of_bytes {v v' : DnsTxtValue}
    (h : v.segments.map (fun s => s.bytes.map UInt8.toNat) =
      v'.segments.map fun s => s.bytes.map UInt8.toNat) : v = v' := by
  have he := List.map_injective_iff.mpr (fun _ _ => DnsCharacterString.eq_of_bytes) h
  cases v
  cases v'
  cases he
  rfl

end SortKeys

variable [Platform]

theorem AbsoluteDnsName.eq_of_chars {n n' : AbsoluteDnsName}
    (h : n.value.toList.map Char.toNat = n'.value.toList.map Char.toNat) : n = n' := by
  have he : n.value = n'.value := toNat_chars_injective h
  cases n
  cases n'
  cases he
  rfl

theorem AbsoluteDnsName.value_injective :
    Function.Injective (value : AbsoluteDnsName → String) := by
  intro n n' h
  exact eq_of_chars (by rw [h])

instance : LinearOrder AbsoluteDnsName :=
  LinearOrder.lift' AbsoluteDnsName.value AbsoluteDnsName.value_injective

structure DnsZoneRef where
  providerAccountId : CloudResourceId
  provider : CloudProvider
  zoneId : DnsZoneId
  apex : AbsoluteDnsName
  visibility : ZoneVisibility
  deriving DecidableEq

def DnsZoneRef.validate (zone : DnsZoneRef) : CoreResult Unit := do
  zone.providerAccountId.validate
  zone.zoneId.validate

inductive DnsRecordSetValue
  | a (address : Ipv4Addr)
  | aaaa (address : Ipv6Addr)
  | cname (target : AbsoluteDnsName)
  | txt (value : DnsTxtValue)
  | mx (preference : UInt16) (exchange : AbsoluteDnsName)
  | srv (priority weight port : UInt16) (target : AbsoluteDnsName)
  | caa (flags : UInt8) (tag : CaaTag) (value : DnsCharacterString)
  | ns (target : AbsoluteDnsName)
  | soa (primaryNameServer responsibleMailbox : AbsoluteDnsName)
      (serial refresh retry expire minimum : UInt32)

namespace DnsRecordSetValue

def recordType : DnsRecordSetValue → ProviderDnsRecordType
  | .a .. => .a
  | .aaaa .. => .aaaa
  | .cname .. => .cname
  | .txt .. => .txt
  | .mx .. => .mx
  | .srv .. => .srv
  | .caa .. => .caa
  | .ns .. => .ns
  | .soa .. => .soa

def validate : DnsRecordSetValue → CoreResult Unit
  | .txt value => value.validate
  | .caa _ tag value => do
    tag.validate
    let _ ← DnsCharacterString.new value.bytes
  | _ => .ok ()

/-- The fields in the order in which `derive(Ord)` compares them. -/
def fields : DnsRecordSetValue → List (List Nat)
  | .a address => [[address.toNat]]
  | .aaaa address => [[address.toNat]]
  | .cname target => [target.value.toList.map Char.toNat]
  | .txt value => value.segments.map fun segment => segment.bytes.map UInt8.toNat
  | .mx preference exchange => [[preference.toNat], exchange.value.toList.map Char.toNat]
  | .srv priority weight port target =>
    [[priority.toNat], [weight.toNat], [port.toNat], target.value.toList.map Char.toNat]
  | .caa flags tag value =>
    [[flags.toNat], tag.value.toList.map Char.toNat, value.bytes.map UInt8.toNat]
  | .ns target => [target.value.toList.map Char.toNat]
  | .soa primaryNameServer responsibleMailbox serial refresh retry expire minimum =>
    [primaryNameServer.value.toList.map Char.toNat, responsibleMailbox.value.toList.map Char.toNat,
      [serial.toNat], [refresh.toNat], [retry.toNat], [expire.toNat], [minimum.toNat]]

def sortKey (v : DnsRecordSetValue) : Nat ×ₗ List (List Nat) := toLex (v.recordType.index, v.fields)

theorem sortKey_injective : Function.Injective sortKey := by
  intro v w h
  have htype : v.recordType.index = w.recordType.index := congrArg (fun k => (ofLex k).1) h
  have hfields : v.fields = w.fields := congrArg (fun k => (ofLex k).2) h
  cases v <;> cases w <;> try cases htype
  all_goals simp only [fields, List.cons.injEq, and_true] at hfields
  case a.a => rw [BitVec.eq_of_toNat_eq hfields]
  case aaaa.aaaa => rw [BitVec.eq_of_toNat_eq hfields]
  case cname.cname => rw [AbsoluteDnsName.eq_of_chars hfields]
  case txt.txt => rw [DnsTxtValue.eq_of_bytes hfields]
  case mx.mx => rw [UInt16.toNat_inj.mp hfields.1, AbsoluteDnsName.eq_of_chars hfields.2]
  case srv.srv =>
    rw [UInt16.toNat_inj.mp hfields.1, UInt16.toNat_inj.mp hfields.2.1,
      UInt16.toNat_inj.mp hfields.2.2.1, AbsoluteDnsName.eq_of_chars hfields.2.2.2]
  case caa.caa =>
    rw [UInt8.toNat_inj.mp hfields.1, CaaTag.eq_of_chars hfields.2.1,
      DnsCharacterString.eq_of_bytes hfields.2.2]
  case ns.ns => rw [AbsoluteDnsName.eq_of_chars hfields]
  case soa.soa =>
    obtain ⟨h1, h2, h3, h4, h5, h6, h7⟩ := hfields
    rw [AbsoluteDnsName.eq_of_chars h1, AbsoluteDnsName.eq_of_chars h2, UInt32.toNat_inj.mp h3,
      UInt32.toNat_inj.mp h4, UInt32.toNat_inj.mp h5, UInt32.toNat_inj.mp h6, UInt32.toNat_inj.mp h7]

instance : LinearOrder DnsRecordSetValue := LinearOrder.lift' sortKey sortKey_injective

end DnsRecordSetValue

structure DnsRecordSetKey where
  owner : DnsOwnerName
  recordType : ProviderDnsRecordType
  routing : DnsRoutingIdentity

namespace DnsRecordSetKey

def validate (key : DnsRecordSetKey) : CoreResult Unit :=
  match key.routing with
  | .simple => .ok ()
  | .route53 setIdentifier => validateText setIdentifier "Route 53 set identifier" 128

def sortKey (key : DnsRecordSetKey) : String ×ₗ Nat ×ₗ List String :=
  toLex (key.owner.value, toLex (key.recordType.index, match key.routing with
    | .simple => []
    | .route53 setIdentifier => [setIdentifier]))

theorem sortKey_injective : Function.Injective sortKey := by
  rintro ⟨⟨a, ha⟩, t, r⟩ ⟨⟨b, hb⟩, t', r'⟩ h
  have howner : a = b := congrArg (fun k => (ofLex k).1) h
  have htype : t.index = t'.index := congrArg (fun k => (ofLex (ofLex k).2).1) h
  have hrouting := congrArg (fun k => (ofLex (ofLex k).2).2) h
  subst howner
  obtain rfl := ProviderDnsRecordType.index_injective htype
  cases r <;> cases r' <;> simp_all [sortKey]

theorem ext_of_simple {key key' : DnsRecordSetKey} (h : key.routing = .simple)
    (h' : key'.routing = .simple) (howner : key.owner.value = key'.owner.value)
    (htype : key.recordType = key'.recordType) : key = key' := by
  apply sortKey_injective
  simp only [sortKey, h, h', howner, htype]

instance : LinearOrder DnsRecordSetKey := LinearOrder.lift' sortKey sortKey_injective

end DnsRecordSetKey

structure Route53AliasTarget where
  targetZoneId : DnsZoneId
  target : AbsoluteDnsName
  evaluateTargetHealth : Bool
  deriving DecidableEq

inductive DnsRecordExtension
  | cloudflare (proxy : Option CloudflareProxyOptions)
      (cnameFlattening : CloudflareCnameFlattening) (comment : Option String)
      (tags : Finset String)
  | route53 (aliasTarget : Option Route53AliasTarget) (routingPolicy : Option Route53RoutingPolicy)
      (healthCheckId : Option Route53HealthCheckId)
  deriving DecidableEq

structure ProviderDnsRecordSet where
  key : DnsRecordSetKey
  ttl : DnsTtl
  values : Finset DnsRecordSetValue
  extension : Option DnsRecordExtension
  deriving DecidableEq

section Tags

omit [Platform]

def validCloudflareTag (tag : String) : Bool :=
  tag ≠ "" && tag.length ≤ 133 && !tag.toList.any isControl &&
    match splitOnce ':' tag with
    | none => false
    | some (name, value) =>
      name ≠ "" && name.length ≤ 32 && value.length ≤ 100 && name.toList.all isOwnerChar

/-- The name of a tag, by which tags are told apart. -/
def tagName (tag : String) : String := asciiLower (((splitOnce ':' tag).map Prod.fst).getD tag)

def validCloudflareTags (tags : Finset String) : Bool :=
  tags.card ≤ 20 && decide (∀ tag ∈ tags, validCloudflareTag tag = true) &&
    (tags.image tagName).card = tags.card

def validCloudflareComment (comment : Option String) : Bool :=
  match comment with
  | none => true
  | some value => value.length ≤ 500 && !value.toList.any isControl

end Tags

namespace ProviderDnsRecordSet

variable (rs : ProviderDnsRecordSet) (zone : DnsZoneRef)

def isRoute53Alias : Bool :=
  match rs.extension with
  | some (.route53 (some _) _ _) => true
  | _ => false

def validateTtl : CoreResult Unit :=
  match rs.ttl with
  | .seconds seconds => require (seconds ≤ 2147483647) (.conflict "DNS TTL is invalid")
  | _ => .ok ()

def validateValues : CoreResult Unit := do
  if rs.isRoute53Alias then
    require (rs.values = ∅ ∧ rs.ttl = .inherited ∧ rs.key.recordType ≠ .ns ∧
        rs.key.recordType ≠ .soa)
      (.conflict "provider alias values, type, or TTL are invalid")
  else
    require (rs.values ≠ ∅ ∧ rs.ttl ≠ .inherited)
      (.conflict "ordinary DNS record sets require values and a TTL")
    require (∀ value ∈ rs.values, value.recordType = rs.key.recordType)
      (.conflict "DNS record value does not match its record type")
    let _ ← (inOrder rs.values).mapM DnsRecordSetValue.validate
    require (rs.key.recordType = .cname → rs.values.card = 1)
      (.conflict "CNAME record sets require exactly one value")
    require (rs.key.recordType = .soa → rs.values.card = 1)
      (.conflict "SOA record sets require exactly one value")

def validateCloudflare (proxy : Option CloudflareProxyOptions)
    (cnameFlattening : CloudflareCnameFlattening) (comment : Option String) (tags : Finset String) :
    CoreResult Unit := do
  require (zone.provider = .cloudflare ∧ rs.key.routing = .simple ∧ rs.ttl ≠ .inherited ∧
      rs.key.recordType.proxiable = proxy.isSome ∧ rs.key.recordType ≠ .soa)
    (.conflict "Cloudflare proxy options are invalid for this record set")
  require (proxy = some .proxied → rs.ttl = .automatic)
    (.conflict "proxied Cloudflare records require automatic TTL")
  require (rs.ttl.inCloudflareRange = true)
    (.conflict "Cloudflare DNS TTL is outside the provider range")
  require (rs.key.recordType ≠ .cname → cnameFlattening = .providerDefault)
    (.conflict "Cloudflare CNAME flattening applies only to CNAME records")
  require (proxy = some .proxied → cnameFlattening = .providerDefault)
    (.conflict "proxied Cloudflare CNAME records cannot override flattening")
  require (rs.key.recordType = .cname → rs.key.owner.value = zone.apex.value →
      cnameFlattening ≠ .doNotFlatten)
    (.conflict "Cloudflare zone-apex CNAME records are always flattened")
  require (validCloudflareComment comment = true ∧ validCloudflareTags tags = true)
    (.conflict "Cloudflare DNS record metadata is invalid")

def validateRoute53 (aliasTarget : Option Route53AliasTarget)
    (routingPolicy : Option Route53RoutingPolicy) (healthCheckId : Option Route53HealthCheckId) :
    CoreResult Unit := do
  require (zone.provider = .aws) (.conflict "Route 53 extension requires an AWS provider account")
  match aliasTarget with
  | some target => target.targetZoneId.validate
  | none => pure ()
  OpaqueId.validateOptional healthCheckId
  match routingPolicy with
  | some policy => policy.validate
  | none => pure ()
  require (rs.key.routing.agrees routingPolicy (aliasTarget.isSome || healthCheckId.isSome) = true)
    (.conflict "Route 53 routing identity, policy, and alias are inconsistent")
  require (routingPolicy.isSome → rs.key.recordType ≠ .ns ∧ rs.key.recordType ≠ .soa)
    (.conflict "Route 53 routed records cannot use NS or SOA")
  require (routingPolicy = some .multivalue →
      aliasTarget = none ∧ rs.key.recordType ≠ .cname ∧ rs.key.recordType ≠ .ns ∧
        rs.key.recordType ≠ .soa)
    (.conflict "Route 53 multivalue record type or alias is unsupported")
  require (routingPolicy.any Route53RoutingPolicy.singleValued = true → aliasTarget = none →
      rs.values.card = 1)
    (.conflict "Route 53 weighted and latency records require one value")
  require (routingPolicy.any Route53RoutingPolicy.isFailover = true →
      aliasTarget.all Route53AliasTarget.evaluateTargetHealth = true)
    (.conflict "Route 53 failover aliases must evaluate target health")

def validatePortable : CoreResult Unit := do
  require (zone.provider = .cloudflare → rs.key.recordType.proxiable = false)
    (.conflict "Cloudflare proxiable records require explicit DNS-only or proxied intent")
  require (rs.ttl ≠ .automatic)
    (.conflict "automatic DNS TTL requires an explicit provider extension")
  require (rs.key.recordType = .cname → rs.key.owner.value ≠ zone.apex.value)
    (.conflict "portable CNAME records cannot target the zone apex")
  require (rs.key.routing = .simple)
    (.conflict "Route 53 routing identity requires a typed routing policy")

def validateExtension : CoreResult Unit :=
  match rs.extension with
  | some (.cloudflare proxy cnameFlattening comment tags) =>
    rs.validateCloudflare zone proxy cnameFlattening comment tags
  | some (.route53 aliasTarget routingPolicy healthCheckId) =>
    rs.validateRoute53 zone aliasTarget routingPolicy healthCheckId
  | none => rs.validatePortable zone

def validate : CoreResult Unit := do
  zone.validate
  rs.key.validate
  require (rs.key.owner.isWithin zone.apex = true)
    (.conflict "DNS record owner is outside the managed zone")
  rs.validateTtl
  require (zone.provider = .aws →
      ¬ (rs.key.recordType = .ns ∧ startsWith rs.key.owner.value "*." = true) ∧
      ¬ (rs.key.recordType = .cname ∧ rs.key.owner.value = zone.apex.value))
    (.conflict "Route 53 wildcard NS and zone-apex CNAME records are unsupported")
  rs.validateValues
  rs.validateExtension zone

variable {rs zone}

/-- The extension is checked apart from the rest, unless it makes the set an alias. -/
theorem validate_withExtension (h : rs.validate zone = .ok ()) (hrs : rs.isRoute53Alias = false)
    {extension : Option DnsRecordExtension}
    (hext : ({ rs with extension } : ProviderDnsRecordSet).isRoute53Alias = false) :
    ({ rs with extension } : ProviderDnsRecordSet).validate zone = .ok () ↔
      ({ rs with extension } : ProviderDnsRecordSet).validateExtension zone = .ok () := by
  have hvalues : ({ rs with extension } : ProviderDnsRecordSet).validateValues =
      rs.validateValues := by
    simp only [validateValues, hrs, hext]
  simp only [validate, validateTtl, hvalues, bind_eq_ok, exists_unit] at h ⊢
  tauto

end ProviderDnsRecordSet

/-- A valid record set of a Cloudflare zone. -/
structure InCloudflare (zone : DnsZoneRef) (rs : ProviderDnsRecordSet) : Prop where
  provider : zone.provider = .cloudflare
  valid : rs.validate zone = .ok ()

namespace InCloudflare

open ProviderDnsRecordSet

variable {zone : DnsZoneRef} {rs : ProviderDnsRecordSet}

theorem extension (h : InCloudflare zone rs) : rs.validateExtension zone = .ok () := by
  have hvalid := h.valid
  simp only [ProviderDnsRecordSet.validate, bind_eq_ok, exists_unit] at hvalid
  exact hvalid.2.2.2.2.2.2

/-- No set of a Cloudflare zone is an alias or has a Route 53 extension. -/
theorem not_route53 (h : InCloudflare zone rs) {target policy healthCheck} :
    rs.extension ≠ some (.route53 target policy healthCheck) := by
  intro he
  have hext := h.extension
  simp [validateExtension, he, validateRoute53, h.provider] at hext

theorem not_alias (h : InCloudflare zone rs) : rs.isRoute53Alias = false := by
  unfold isRoute53Alias
  split
  · rename_i he
    exact absurd he h.not_route53
  · rfl

theorem routing (h : InCloudflare zone rs) : rs.key.routing = .simple := by
  have hext := h.extension
  unfold validateExtension at hext
  split at hext
  · simp only [validateCloudflare, bind_eq_ok, exists_unit, require_eq_ok] at hext
    exact hext.1.2.1
  · rename_i he
    exact absurd he h.not_route53
  · simp only [validatePortable, bind_eq_ok, exists_unit, require_eq_ok] at hext
    exact hext.2.2.2

/-- The values of a valid set are of its type, and there is one. -/
theorem values (h : InCloudflare zone rs) : rs.values ≠ ∅ ∧ rs.ttl ≠ .inherited ∧
      ∀ value ∈ rs.values, value.recordType = rs.key.recordType := by
  have hvalid := h.valid
  simp only [ProviderDnsRecordSet.validate, validateValues, h.not_alias,
    bind_eq_ok, exists_unit, require_eq_ok, Bool.false_eq_true, if_false] at hvalid
  exact ⟨hvalid.2.2.2.2.2.1.1.1, hvalid.2.2.2.2.2.1.1.2, hvalid.2.2.2.2.2.1.2.1⟩

theorem within (h : InCloudflare zone rs) : rs.key.owner.isWithin zone.apex = true := by
  have hvalid := h.valid
  simp only [ProviderDnsRecordSet.validate, bind_eq_ok, exists_unit, require_eq_ok] at hvalid
  exact hvalid.2.2.1

end InCloudflare

structure ObservedDnsRecordSet where
  zone : DnsZoneRef
  recordSet : ProviderDnsRecordSet
  providerObjectIds : Finset DnsRecordObjectId
  revision : DnsRecordRevision
  deriving DecidableEq

def ObservedDnsRecordSet.validate (observed : ObservedDnsRecordSet) : CoreResult Unit := do
  observed.recordSet.validate observed.zone
  observed.revision.validate
  let _ ← (inOrder observed.providerObjectIds).mapM OpaqueId.validate

theorem ObservedDnsRecordSet.validate_eq_ok {observed : ObservedDnsRecordSet} :
    observed.validate = .ok () ↔ observed.recordSet.validate observed.zone = .ok () := by
  have hids : ∀ ids : List DnsRecordObjectId,
      ids.mapM OpaqueId.validate = .ok (ids.map fun _ => ()) := by
    intro ids
    rw [mapM_eq_ok, List.forall₂_map_right_iff, List.forall₂_same]
    intro id _
    exact id.validate_eq
  simp [validate, hids]

end EdgionCenter
