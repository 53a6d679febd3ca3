import EdgionCenter.Cloud.RecordSet
import EdgionCenter.Lib.Decimal

/-! Raw Route 53 record sets: how they are read as provider-neutral ones, and rendered again. -/
namespace EdgionCenter.Route53

open Fallible

section Errors

def providerError (category : ProviderErrorCategory) (code : String) : NormalizedProviderError :=
  ⟨category, code, "Route 53 DNS adapter rejected the request", none, none⟩

def validation (code : String) : NormalizedProviderError := providerError .validation code

/-- `value.ok_or_else(|| validation(code))`. -/
def present {T : Type} (value : Option T) (code : String) : DnsProviderResult T :=
  match value with
  | some a => .ok a
  | none => .error (validation code)

@[simp] theorem present_eq_ok {T : Type} {value : Option T} {code : String} {a : T} :
    present value code = .ok a ↔ value = some a := by
  cases value <;> simp [present]

end Errors

section Data

structure Route53AliasTargetData where
  hostedZoneId : String
  dnsName : String
  evaluateTargetHealth : Bool
  deriving DecidableEq

structure Route53GeoLocationData where
  continentCode : Option String
  countryCode : Option String
  subdivisionCode : Option String
  deriving DecidableEq

structure Route53RecordSet where
  name : String
  recordType : String
  ttl : Option Nat := none
  resourceRecords : List String := []
  aliasTarget : Option Route53AliasTargetData := none
  setIdentifier : Option String := none
  weight : Option UInt8 := none
  failover : Option String := none
  region : Option String := none
  geolocation : Option Route53GeoLocationData := none
  multivalueAnswer : Option Bool := none
  healthCheckId : Option String := none
  trafficPolicyInstanceId : Option String := none
  hasCidrRoutingConfig : Bool := false
  hasGeoproximityLocation : Bool := false
  deriving DecidableEq

def latencyRegions : List String :=
  ["us-east-1", "us-east-2", "us-west-1", "us-west-2", "ca-central-1", "eu-west-1", "eu-west-2",
   "eu-west-3", "eu-central-1", "eu-central-2", "ap-southeast-1", "ap-southeast-2",
   "ap-southeast-3", "ap-northeast-1", "ap-northeast-2", "ap-northeast-3", "eu-north-1",
   "sa-east-1", "cn-north-1", "cn-northwest-1", "ap-east-1", "me-south-1", "me-central-1",
   "ap-south-1", "ap-south-2", "af-south-1", "eu-south-1", "eu-south-2", "ap-southeast-4",
   "il-central-1", "ca-west-1", "ap-southeast-5", "mx-central-1", "ap-southeast-7",
   "us-gov-east-1", "us-gov-west-1", "ap-east-2", "ap-southeast-6"]

def iso3166Alpha2 : String :=
  "ADAEAFAGAIALAMAOAQARASATAUAWAXAZ" ++ "BABBBDBEBFBGBHBIBJBLBMBNBOBQBRBSBTBVBWBYBZ" ++
    "CACCCDCFCGCHCICKCLCMCNCOCRCUCVCWCXCYCZ" ++ "DEDJDKDMDODZ" ++ "ECEEEGEHERESET" ++
    "FIFJFKFMFOFR" ++ "GAGBGDGEGFGGGHGIGLGMGNGPGQGRGSGTGUGWGY" ++ "HKHMHNHRHTHU" ++
    "IDIEILIMINIOIQIRISIT" ++ "JEJMJOJP" ++ "KEKGKHKIKMKNKPKRKWKYKZ" ++
    "LALBLCLILKLRLSLTLULVLY" ++ "MAMCMDMEMFMGMHMKMLMMMNMOMPMQMRMSMTMUMVMWMXMYMZ" ++
    "NANCNENFNGNINLNONPNRNUNZ" ++ "OM" ++ "PAPEPFPGPHPKPLPMPNPRPSPTPWPY" ++ "QA" ++
    "RERORSRURW" ++ "SASBSCSDSESGSHSISJSKSLSMSNSOSRSSSTSVSXSYSZ" ++
    "TCTDTFTGTHTJTKTLTMTNTOTRTTTVTWTZ" ++ "UAUGUMUSUYUZ" ++ "VAVCVEVGVIVNVU" ++ "WFWS" ++
    "YEYT" ++ "ZAZMZW"

def usSubdivisions : String :=
  "AKALAZARCACOCTDEFLGAHIIDILINIAKSKYLAMEMDMAMIMNMSMOMT" ++
    "NENVNHNJNMNYNCNDOHOKORPARISCSDTNTXUTVTVAWAWVWIWY" ++ "ASDCFMGUMHMPRPVIAAAEAP"

/-- The two-letter codes of a catalog. -/
def chunks : List Char → List (List Char)
  | a :: b :: rest => [a, b] :: chunks rest
  | _ => []

def catalogContains (catalog code : String) : Bool :=
  utf8Len code.toList = 2 && (chunks catalog.toList).contains code.toList

end Data

section Octets

/-- `parse_octal_escape`. -/
def parseOctalEscape (a b c : UInt8) : Option UInt8 :=
  let isOctal := fun d : UInt8 => 48 ≤ d && d ≤ 55
  let value := (a.toNat - 48) * 64 + (b.toNat - 48) * 8 + (c.toNat - 48)
  if isOctal a && isOctal b && isOctal c && value < 256 then some (UInt8.ofNat value) else none

/-- The loop of `decode_domain_presentation`. -/
def decodeEscapes : List UInt8 → Option (List UInt8)
  | [] => some []
  | 92 :: a :: b :: c :: rest => do
    let octet ← parseOctalEscape a b c
    let decoded ← decodeEscapes rest
    return octet :: decoded
  | 92 :: _ => none
  | byte :: rest => do
    let decoded ← decodeEscapes rest
    return byte :: decoded

def decodeDomainPresentation (value : String) : DnsProviderResult String := do
  let decoded ← present (decodeEscapes (utf8Bytes value)) "invalid_route53_domain_escape"
  present (fromUtf8 decoded) "unsupported_route53_domain_encoding"

/-- The loops of `parse_character_strings`: between strings, or in one with its octets so far. -/
def characterStrings : Option (List UInt8) → List UInt8 →
    DnsProviderResult (List DnsCharacterString)
  | none, [] => .ok []
  | none, byte :: rest =>
    if isAsciiSpace byte then characterStrings none rest
    else if byte = 34 then characterStrings (some []) rest
    else .error (validation "invalid_route53_character_string")
  | some _, [] => .error (validation "invalid_route53_character_string")
  | some segment, 34 :: rest => do
    let string ← orElse (validation "invalid_route53_character_string")
      (DnsCharacterString.new segment)
    let strings ← characterStrings none rest
    return string :: strings
  | some segment, 92 :: a :: b :: c :: rest =>
    if isAsciiDigit a then do
      let octet ← present (parseOctalEscape a b c) "invalid_route53_character_string"
      characterStrings (some (segment ++ [octet])) rest
    else characterStrings (some (segment ++ [a])) (b :: c :: rest)
  | some segment, 92 :: a :: rest =>
    if isAsciiDigit a then .error (validation "invalid_route53_character_string")
    else characterStrings (some (segment ++ [a])) rest
  | some _, [92] => .error (validation "invalid_route53_character_string")
  | some segment, byte :: rest => characterStrings (some (segment ++ [byte])) rest

def parseCharacterStrings (value : String) : DnsProviderResult DnsTxtValue := do
  let segments ← characterStrings none (utf8Bytes value)
  orElse (validation "invalid_route53_character_string") (DnsTxtValue.new segments)

/-- One octet between quotes. -/
def renderOctet (b : UInt8) : List Char :=
  if b = 34 ∨ b = 92 then ['\\', Char.ofNat b.toNat]
  else if 32 ≤ b ∧ b ≤ 126 then [Char.ofNat b.toNat]
  else ['\\', Nat.digitChar (b.toNat / 64), Nat.digitChar (b.toNat / 8 % 8),
    Nat.digitChar (b.toNat % 8)]

def renderCharacterString (value : List UInt8) : List Char :=
  '"' :: (value.flatMap renderOctet ++ ['"'])

end Octets

section Fields

/-- `char::is_ascii_whitespace`. -/
def isAsciiBlank (c : Char) : Bool := c.toNat < 128 && isAsciiSpace (UInt8.ofNat c.toNat)

/-- `fields`: the words of a value, which must be as many as expected. -/
def fields (value : String) (count : Nat) (code : String) : DnsProviderResult (List String) := do
  let words := Decimal.words isAsciiBlank value.toList
  require (words.length = count) (validation code)
  return words.map String.ofList

def parseUnsigned (bound : Nat) (value code : String) : DnsProviderResult Nat :=
  present (Decimal.parse bound value.toList) code

def parseU8 (value code : String) : DnsProviderResult UInt8 :=
  UInt8.ofNat <$> parseUnsigned 256 value code

def parseU16 (value code : String) : DnsProviderResult UInt16 :=
  UInt16.ofNat <$> parseUnsigned 65536 value code

def parseU32 (value code : String) : DnsProviderResult UInt32 :=
  UInt32.ofNat <$> parseUnsigned 4294967296 value code

def takePresentationField (value : List Char) : Option (List Char × List Char) :=
  let value := value.dropWhile isWhitespace
  if value.any isWhitespace && (value.takeWhile fun c => !isWhitespace c) ≠ [] then
    some (value.takeWhile fun c => !isWhitespace c,
      (value.dropWhile fun c => !isWhitespace c).dropWhile isWhitespace)
  else none

end Fields

/-- `normalize_zone_id`. -/
def normalizeZoneId (value : String) : DnsProviderResult String :=
  let start := "/hostedzone/"
  let normalized := if startsWith value start then value.toList.drop start.length else value.toList
  if normalized ≠ [] ∧ normalized.length ≤ 32 ∧ normalized.head? = some 'Z' ∧
      normalized.all (fun c => c.isUpper || c.isDigit) = true ∧
      startsWith value "/hostedzone//" = false then
    .ok (String.ofList normalized)
  else .error (validation "invalid_route53_zone_id")

theorem zoneId_of_normalizeZoneId {raw id : String} (h : normalizeZoneId raw = .ok id) :
    id.toList.length ≤ 32 ∧ id.toList.head? = some 'Z' ∧
      ∀ c ∈ id.toList, c.isUpper = true ∨ c.isDigit = true := by
  simp only [normalizeZoneId] at h
  generalize (if startsWith raw "/hostedzone/" = true then
    raw.toList.drop "/hostedzone/".length else raw.toList) = normalized at h
  split at h
  · next hvalid =>
    cases h
    rw [String.toList_ofList]
    exact ⟨hvalid.2.1, hvalid.2.2.1, by simpa using hvalid.2.2.2.1⟩
  · cases h

/-- SHA-256 of the JSON form of a value, in URL-safe base64 without padding. -/
class Sha256Base64 (α : Type) where
  text : α → String
  text_length : ∀ a, (text a).toList.length = 43
  text_chars : ∀ a, ∀ c ∈ (text a).toList, c.isAlphanum = true ∨ c = '-' ∨ c = '_'

/-- A digest that is the same for every value. -/
@[reducible] def sameDigest (α : Type) : Sha256Base64 α where
  text _ := String.ofList (List.replicate 43 'A')
  text_length _ := by simp
  text_chars _ c hc := by
    rw [String.toList_ofList] at hc
    rw [List.eq_of_mem_replicate hc]
    decide

variable [Platform]

section Values

def absoluteName (value code : String) : DnsProviderResult AbsoluteDnsName := do
  let decoded ← decodeDomainPresentation value
  orElse (validation code) (AbsoluteDnsName.new decoded)

def parseCaa (value : String) : DnsProviderResult DnsRecordSetValue := do
  let invalid := "invalid_route53_caa_value"
  let (flags, remaining) ← present (takePresentationField value.toList) invalid
  let (tag, presentation) ← present (takePresentationField remaining) invalid
  let flags ← parseU8 (String.ofList flags) invalid
  let tag ← orElse (validation invalid) (CaaTag.new (String.ofList tag))
  let strings ← parseCharacterStrings (String.ofList presentation)
  match strings.segments with
  | [segment] => return .caa flags tag segment
  | _ => .error (validation invalid)

def parseValue (recordType : ProviderDnsRecordType) (value : String) :
    DnsProviderResult DnsRecordSetValue :=
  match recordType with
  | .a => do
    let address ← present (parseIpv4 value) "invalid_route53_a_value"
    return .a address
  | .aaaa => do
    let address ← present (parseIpv6 value) "invalid_route53_aaaa_value"
    return .aaaa address
  | .cname => do
    let target ← absoluteName value "invalid_route53_cname_value"
    return .cname target
  | .txt => do
    let strings ← parseCharacterStrings value
    return .txt strings
  | .mx => do
    let invalid := "invalid_route53_mx_value"
    match ← fields value 2 invalid with
    | [preference, exchange] => do
      let preference ← parseU16 preference invalid
      let exchange ← absoluteName exchange invalid
      return .mx preference exchange
    | _ => .error (validation invalid)
  | .srv => do
    let invalid := "invalid_route53_srv_value"
    match ← fields value 4 invalid with
    | [priority, weight, port, target] => do
      let priority ← parseU16 priority invalid
      let weight ← parseU16 weight invalid
      let port ← parseU16 port invalid
      let target ← absoluteName target invalid
      return .srv priority weight port target
    | _ => .error (validation invalid)
  | .caa => parseCaa value
  | .ns => do
    let target ← absoluteName value "invalid_route53_ns_value"
    return .ns target
  | .soa => do
    let invalid := "invalid_route53_soa_value"
    match ← fields value 7 invalid with
    | [primary, mailbox, serial, refresh, retry, expire, minimum] => do
      let primary ← absoluteName primary invalid
      let mailbox ← absoluteName mailbox invalid
      let serial ← parseU32 serial invalid
      let refresh ← parseU32 refresh invalid
      let retry ← parseU32 retry invalid
      let expire ← parseU32 expire invalid
      let minimum ← parseU32 minimum invalid
      return .soa primary mailbox serial refresh retry expire minimum
    | _ => .error (validation invalid)

/-- The words of a rendered value, with a blank between them. -/
def joinWords (words : List (List Char)) : String := String.ofList ([' '].intercalate words)

def renderValue : DnsRecordSetValue → String
  | .a address => showIpv4 address
  | .aaaa address => showIpv6 address
  | .cname target => target.fqdn
  | .ns target => target.fqdn
  | .txt value => joinWords (value.segments.map fun segment => renderCharacterString segment.bytes)
  | .mx preference exchange => joinWords [Decimal.text preference.toNat, exchange.fqdn.toList]
  | .srv priority weight port target =>
    joinWords [Decimal.text priority.toNat, Decimal.text weight.toNat, Decimal.text port.toNat,
      target.fqdn.toList]
  | .caa flags tag value =>
    joinWords [Decimal.text flags.toNat, tag.value.toList, renderCharacterString value.bytes]
  | .soa primary mailbox serial refresh retry expire minimum =>
    joinWords [primary.fqdn.toList, mailbox.fqdn.toList, Decimal.text serial.toNat,
      Decimal.text refresh.toNat, Decimal.text retry.toNat, Decimal.text expire.toNat,
      Decimal.text minimum.toNat]

end Values

section Map

def mapRecordType (value : String) : DnsProviderResult ProviderDnsRecordType :=
  match value with
  | "A" => .ok .a
  | "AAAA" => .ok .aaaa
  | "CNAME" => .ok .cname
  | "TXT" => .ok .txt
  | "MX" => .ok .mx
  | "SRV" => .ok .srv
  | "CAA" => .ok .caa
  | "NS" => .ok .ns
  | "SOA" => .ok .soa
  | _ => .error (validation "unsupported_route53_record_type")

def mapGeolocation (value : Route53GeoLocationData) : DnsProviderResult Route53GeoLocation :=
  let invalid := .error (validation "invalid_route53_geolocation")
  match value.continentCode, value.countryCode, value.subdivisionCode with
  | some code, none, none => if code ∈ continents then .ok (.continent code) else invalid
  | none, some country, none =>
    if country = "*" then .ok .default
    else if catalogContains iso3166Alpha2 country then .ok (.country country)
    else invalid
  | none, some country, some code =>
    if country = "US" ∧ catalogContains usSubdivisions code = true then .ok (.usSubdivision code)
    else invalid
  | _, _, _ => invalid

def failoverPolicy : Option String → DnsProviderResult (List Route53RoutingPolicy)
  | none => .ok []
  | some "PRIMARY" => .ok [.failover .primary]
  | some "SECONDARY" => .ok [.failover .secondary]
  | some _ => .error (validation "unsupported_route53_failover_role")

def latencyPolicy : Option String → DnsProviderResult (List Route53RoutingPolicy)
  | none => .ok []
  | some region =>
    if region ∈ latencyRegions then .ok [.latency region]
    else .error (validation "unsupported_route53_latency_region")

def geolocationPolicy :
    Option Route53GeoLocationData → DnsProviderResult (List Route53RoutingPolicy)
  | none => .ok []
  | some location => do
    let location ← mapGeolocation location
    return [.geolocation location]

/-- The policies a record set names, of which there may be one. -/
def routingPolicies (record : Route53RecordSet) :
    DnsProviderResult (List Route53RoutingPolicy) := do
  let weighted := (record.weight.map Route53RoutingPolicy.weighted).toList
  let failover ← failoverPolicy record.failover
  let latency ← latencyPolicy record.region
  let geolocation ← geolocationPolicy record.geolocation
  let multivalue := if record.multivalueAnswer = some true then [.multivalue] else []
  return weighted ++ failover ++ latency ++ geolocation ++ multivalue

def mapRouting (record : Route53RecordSet) :
    DnsProviderResult (DnsRoutingIdentity × Option Route53RoutingPolicy) := do
  let policies ← routingPolicies record
  require (policies.length ≤ 1) (validation "multiple_route53_routing_policies")
  match record.setIdentifier, policies.getLast? with
  | none, none => return (.simple, none)
  | some identifier, some policy => return (.route53 identifier, some policy)
  | _, _ => .error (validation "invalid_route53_routing_identity")

def mapAliasTarget : Option Route53AliasTargetData → DnsProviderResult (Option Route53AliasTarget)
  | none => .ok none
  | some target => do
    let id ← normalizeZoneId target.hostedZoneId
    let zoneId ← orElse (validation "invalid_route53_alias_zone_id") (OpaqueId.new _ _ id)
    let name ← absoluteName target.dnsName "invalid_route53_alias_target"
    return some ⟨zoneId, name, target.evaluateTargetHealth⟩

def mapHealthCheckId : Option String → DnsProviderResult (Option Route53HealthCheckId)
  | none => .ok none
  | some value => do
    let id ← orElse (validation "invalid_route53_health_check_id") (OpaqueId.new _ _ value)
    return some id

/-- An alias has neither TTL nor values. -/
def mapValues (recordType : ProviderDnsRecordType) (record : Route53RecordSet) :
    DnsProviderResult (DnsTtl × Finset DnsRecordSetValue) :=
  if record.aliasTarget.isSome then do
    require (record.ttl = none ∧ record.resourceRecords = [])
      (validation "invalid_route53_alias_shape")
    return (.inherited, ∅)
  else do
    let ttl ← present record.ttl "missing_route53_record_ttl"
    require (record.resourceRecords ≠ []) (validation "missing_route53_record_values")
    let values ← record.resourceRecords.mapM (parseValue recordType)
    return (.seconds ttl, values.toFinset)

def routeExtension (aliasTarget : Option Route53AliasTarget)
    (routingPolicy : Option Route53RoutingPolicy) (healthCheckId : Option Route53HealthCheckId) :
    Option DnsRecordExtension :=
  if aliasTarget.isSome || routingPolicy.isSome || healthCheckId.isSome then
    some (.route53 aliasTarget routingPolicy healthCheckId)
  else none

variable [Sha256Base64 ProviderDnsRecordSet] (zone : DnsZoneRef)

def canonicalRevision (recordSet : ProviderDnsRecordSet) : DnsProviderResult DnsRecordRevision :=
  orElse (validation "invalid_route53_record_revision")
    (OpaqueId.new _ _ ("sha256:" ++ Sha256Base64.text recordSet))

def mapRecordSet (record : Route53RecordSet) :
    DnsProviderResult (ProviderDnsRecordSet × DnsRecordRevision) := do
  require (record.trafficPolicyInstanceId = none)
    (validation "route53_traffic_policy_record_unsupported")
  require (record.hasCidrRoutingConfig = false) (validation "route53_cidr_routing_unsupported")
  require (record.hasGeoproximityLocation = false)
    (validation "route53_geoproximity_routing_unsupported")
  let recordType ← mapRecordType record.recordType
  let name ← decodeDomainPresentation record.name
  let owner ← orElse (validation "invalid_route53_record_name") (DnsOwnerName.new name)
  let (routing, routingPolicy) ← mapRouting record
  let aliasTarget ← mapAliasTarget record.aliasTarget
  let healthCheckId ← mapHealthCheckId record.healthCheckId
  let (ttl, values) ← mapValues recordType record
  let mapped : ProviderDnsRecordSet :=
    ⟨⟨owner, recordType, routing⟩, ttl, values,
      routeExtension aliasTarget routingPolicy healthCheckId⟩
  orElse (validation "invalid_route53_record_set") (mapped.validate zone)
  let revision ← canonicalRevision mapped
  return (mapped, revision)

end Map

section Render

def renderRecordType : ProviderDnsRecordType → String
  | .a => "A"
  | .aaaa => "AAAA"
  | .cname => "CNAME"
  | .txt => "TXT"
  | .mx => "MX"
  | .srv => "SRV"
  | .caa => "CAA"
  | .ns => "NS"
  | .soa => "SOA"

def renderGeolocation : Route53GeoLocation → Route53GeoLocationData
  | .default => ⟨none, some "*", none⟩
  | .continent code => ⟨some code, none, none⟩
  | .country code => ⟨none, some code, none⟩
  | .usSubdivision code => ⟨none, some "US", some code⟩

def renderFailoverRole : Route53FailoverRole → String
  | .primary => "PRIMARY"
  | .secondary => "SECONDARY"

def renderPolicy (record : Route53RecordSet) : Option Route53RoutingPolicy → Route53RecordSet
  | some (.weighted weight) => { record with weight := some weight }
  | some (.failover role) => { record with failover := some (renderFailoverRole role) }
  | some (.latency region) => { record with region := some region }
  | some (.geolocation location) =>
    { record with geolocation := some (renderGeolocation location) }
  | some .multivalue => { record with multivalueAnswer := some true }
  | none => record

def renderSetIdentifier : DnsRoutingIdentity → Option String
  | .route53 setIdentifier => some setIdentifier
  | .simple => none

def renderAliasTarget (target : Route53AliasTarget) : Route53AliasTargetData :=
  ⟨target.targetZoneId.value, target.target.fqdn, target.evaluateTargetHealth⟩

def renderExtension (record : Route53RecordSet) (routing : DnsRoutingIdentity) :
    Option DnsRecordExtension → DnsProviderResult Route53RecordSet
  | some (.route53 aliasTarget routingPolicy healthCheckId) =>
    .ok (renderPolicy { record with
      aliasTarget := aliasTarget.map renderAliasTarget
      healthCheckId := healthCheckId.map OpaqueId.value
      setIdentifier := renderSetIdentifier routing } routingPolicy)
  | none => .ok record
  | some (.cloudflare ..) => .error (validation "invalid_route53_record_extension")

def renderValues (rs : ProviderDnsRecordSet) (record : Route53RecordSet) :
    DnsProviderResult Route53RecordSet :=
  if record.aliasTarget.isSome then do
    require (rs.ttl = .inherited ∧ rs.values = ∅) (validation "invalid_route53_alias_shape")
    return record
  else
    match rs.ttl with
    | .seconds ttl =>
      .ok { record with ttl := some ttl, resourceRecords := (inOrder rs.values).map renderValue }
    | _ => .error (validation "invalid_route53_record_ttl")

/-- The record set that is rendered, before it is read again. -/
def renderDraft (rs : ProviderDnsRecordSet) : DnsProviderResult Route53RecordSet := do
  let record : Route53RecordSet :=
    { name := rs.key.owner.fqdn, recordType := renderRecordType rs.key.recordType }
  let record ← renderExtension record rs.key.routing rs.extension
  renderValues rs record

variable [Sha256Base64 ProviderDnsRecordSet] (zone : DnsZoneRef)

def renderRecordSet (rs : ProviderDnsRecordSet) : DnsProviderResult Route53RecordSet := do
  orElse (validation "invalid_route53_record_set") (rs.validate zone)
  let rendered ← renderDraft rs
  let (roundTrip, _) ← mapRecordSet zone rendered
  require (roundTrip = rs) (validation "route53_record_render_not_lossless")
  return rendered

end Render

end EdgionCenter.Route53
