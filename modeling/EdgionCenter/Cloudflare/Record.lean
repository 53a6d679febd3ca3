import EdgionCenter.Cloud.RecordSet

/-! Cloudflare's DNS records and how its HTTP responses are read. -/
namespace EdgionCenter

namespace Cloudflare

open Fallible

/-- Thirty-two lowercase hexadecimal digits. -/
def validCloudflareIdentifier (value : String) : Bool :=
  utf8Len value.toList == 32 && value.toList.all fun c => c.isDigit || ('a' ≤ c && c ≤ 'f')

section Errors

def providerError (category : ProviderErrorCategory) (code : String) : NormalizedProviderError :=
  ⟨category, code, "Cloudflare DNS adapter rejected the request", none, none⟩

def validation (code : String) : NormalizedProviderError := providerError .validation code
def conflict (code : String) : NormalizedProviderError := providerError .conflict code
def notFound (code : String) : NormalizedProviderError := providerError .notFound code
def unknownOutcome (code : String) : NormalizedProviderError := providerError .unknownOutcome code

/-- `malformed` of the HTTP layer. -/
def malformed (code : String) : NormalizedProviderError :=
  ⟨.validation, code, "Cloudflare API request failed", none, none⟩

end Errors

section Txt

/-- Where the scan of a TXT content is: between segments, in one, or right after one. -/
inductive TxtScan
  | gap
  | inside (segment : List UInt8)
  | closed
  deriving DecidableEq

/-- The value of a three-digit decimal escape. -/
def escapeValue (a b c : UInt8) : Nat :=
  (a.toNat - 48) * 100 + (b.toNat - 48) * 10 + (c.toNat - 48)

/-- One more byte of the open segment. -/
def pushByte (segment : List UInt8) (byte : UInt8) : DnsProviderResult (List UInt8) :=
  if segment.length < 255 then .ok (segment ++ [byte])
  else .error (malformed "invalid_cloudflare_txt_segment_length")

/-- The loops of `txt_value`, one byte or one escape at a time. -/
def txtSegments : TxtScan → List UInt8 →
    DnsProviderResult (List DnsCharacterString)
  | .gap, [] | .closed, [] => .ok []
  | .inside _, [] => .error (malformed "invalid_cloudflare_txt_content")
  | .gap, byte :: rest =>
    if isAsciiSpace byte then txtSegments .gap rest
    else if byte = 34 then txtSegments (.inside []) rest
    else .error (malformed "invalid_cloudflare_txt_content")
  | .closed, byte :: rest =>
    if isAsciiSpace byte then txtSegments .gap rest
    else .error (malformed "invalid_cloudflare_txt_content")
  | .inside segment, 34 :: rest => do
    let text ← orElse (malformed "invalid_cloudflare_txt_segment") (DnsCharacterString.new segment)
    let texts ← txtSegments .closed rest
    return text :: texts
  | .inside segment, 92 :: a :: b :: c :: rest =>
    if isAsciiDigit a && isAsciiDigit b && isAsciiDigit c then
      if escapeValue a b c ≤ 255 then do
        let segment ← pushByte segment (UInt8.ofNat (escapeValue a b c))
        txtSegments (.inside segment) rest
      else .error (malformed "invalid_cloudflare_txt_numeric_escape")
    else do
      let segment ← pushByte segment a
      txtSegments (.inside segment) (b :: c :: rest)
  | .inside segment, 92 :: a :: rest => do
    let segment ← pushByte segment a
    txtSegments (.inside segment) rest
  | .inside _, [92] => .error (malformed "invalid_cloudflare_txt_content")
  | .inside segment, byte :: rest =>
    if isAsciiControl byte then .error (malformed "invalid_cloudflare_txt_content")
    else do
      let segment ← pushByte segment byte
      txtSegments (.inside segment) rest

def txtValue (value : String) : DnsProviderResult DnsTxtValue := do
  let segments ← txtSegments .gap (utf8Bytes value)
  orElse (malformed "invalid_cloudflare_txt_content") (DnsTxtValue.new segments)

end Txt

section Data

/-- `value.ok_or_else(|| malformed(code))`. -/
def present {α : Type} (value : Option α) (code : String) : DnsProviderResult α :=
  match value with
  | some a => .ok a
  | none => .error (malformed code)

@[simp] theorem present_eq_ok {α : Type} {value : Option α} {code : String} {a : α} :
    present value code = .ok a ↔ value = some a := by
  cases value <;> simp [present]

def requiredContent (value : Option String) : DnsProviderResult String :=
  present value "missing_cloudflare_record_content"

def dataNat (data : Option Value) (field : String) (bound : Nat) : Option Nat :=
  ((data.bind fun value => value.get field).bind Value.asU64).filter fun n => decide (n < bound)

def dataU16 (data : Option Value) (field : String) : Option UInt16 :=
  (dataNat data field 65536).map UInt16.ofNat

def requiredDataU16 (data : Option Value) (field code : String) : DnsProviderResult UInt16 :=
  present (dataU16 data field) code

def requiredDataU8 (data : Option Value) (field code : String) : DnsProviderResult UInt8 :=
  present ((dataNat data field 256).map UInt8.ofNat) code

def requiredDataStr (data : Option Value) (field code : String) : DnsProviderResult String :=
  present ((data.bind fun value => value.get field).bind Value.asStr) code

end Data

variable [Platform]

structure CloudflareRecord where
  id : String
  name : String
  ttl : Nat
  value : DnsRecordSetValue
  proxied : Option Bool
  proxiable : Bool
  flattenCname : Option Bool
  ipv4Only : Bool
  ipv6Only : Bool
  privateRouting : Bool
  comment : Option String
  tags : Finset String
  modifiedOn : Option String
  deriving DecidableEq

structure RawSettings where
  ipv4Only : Bool := false
  ipv6Only : Bool := false
  flattenCname : Option Bool := none
  deriving DecidableEq

/-- A record of a response, as `serde` has read it. -/
structure RawRecord where
  id : String
  name : String
  kind : String
  ttl : Nat
  content : Option String
  data : Option Value
  priority : Option UInt16
  proxied : Option Bool
  proxiable : Bool
  settings : Option RawSettings
  privateRouting : Bool
  comment : Option String
  tags : List String
  modifiedOn : Option String

def absoluteName (value code : String) : DnsProviderResult AbsoluteDnsName :=
  orElse (malformed code) (AbsoluteDnsName.new value)

/-- The value of a record, by the name of its type. -/
def RawRecord.value (record : RawRecord) : DnsProviderResult DnsRecordSetValue :=
  match record.kind with
  | "A" => do
    let content ← requiredContent record.content
    let address ← present (parseIpv4 content) "invalid_cloudflare_a_content"
    return .a address
  | "AAAA" => do
    let content ← requiredContent record.content
    let address ← present (parseIpv6 content) "invalid_cloudflare_aaaa_content"
    return .aaaa address
  | "CNAME" => do
    let content ← requiredContent record.content
    let target ← absoluteName content "invalid_cloudflare_cname_content"
    return .cname target
  | "NS" => do
    let content ← requiredContent record.content
    let target ← absoluteName content "invalid_cloudflare_ns_content"
    return .ns target
  | "TXT" => do
    let content ← requiredContent record.content
    let value ← txtValue content
    return .txt value
  | "MX" => do
    let preference ← present (record.priority <|> dataU16 record.data "priority")
      "missing_cloudflare_mx_priority"
    let content ← requiredContent record.content
    let exchange ← absoluteName content "invalid_cloudflare_mx_content"
    return .mx preference exchange
  | "SRV" => do
    let priority ← requiredDataU16 record.data "priority" "missing_cloudflare_srv_priority"
    let weight ← requiredDataU16 record.data "weight" "missing_cloudflare_srv_weight"
    let port ← requiredDataU16 record.data "port" "missing_cloudflare_srv_port"
    let host ← requiredDataStr record.data "target" "missing_cloudflare_srv_target"
    let target ← absoluteName host "invalid_cloudflare_srv_target"
    return .srv priority weight port target
  | "CAA" => do
    let flags ← requiredDataU8 record.data "flags" "missing_cloudflare_caa_flags"
    let name ← requiredDataStr record.data "tag" "missing_cloudflare_caa_tag"
    let tag ← orElse (malformed "invalid_cloudflare_caa_tag") (CaaTag.new name)
    let text ← requiredDataStr record.data "value" "missing_cloudflare_caa_value"
    let value ← orElse (malformed "invalid_cloudflare_caa_value")
      (DnsCharacterString.new (utf8Bytes text))
    return .caa flags tag value
  | _ => .error (malformed "unsupported_cloudflare_record_type")

/-- `map_record` of the HTTP layer. -/
def RawRecord.mapRecord (record : RawRecord) : DnsProviderResult CloudflareRecord := do
  let value ← record.value
  let settings := record.settings.getD {}
  require record.tags.Nodup (malformed "duplicate_cloudflare_record_tag")
  return {
    id := record.id
    name := record.name
    ttl := record.ttl
    value := value
    proxied := record.proxied
    proxiable := record.proxiable
    flattenCname := settings.flattenCname
    ipv4Only := settings.ipv4Only
    ipv6Only := settings.ipv6Only
    privateRouting := record.privateRouting
    comment := record.comment
    tags := record.tags.toFinset
    modifiedOn := record.modifiedOn }

end Cloudflare

end EdgionCenter
