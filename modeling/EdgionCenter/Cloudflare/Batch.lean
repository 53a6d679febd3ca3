import EdgionCenter.Cloud.Changes
import EdgionCenter.Cloudflare.Aggregate

/-! Planning one batch request for a list of changes, and checking its result. -/
namespace EdgionCenter.Cloudflare

open Fallible

section RenderTxt

/-- A decimal digit. -/
def digitChar (n : Nat) : Char := Char.ofNat (48 + n)

/-- One byte of a quoted segment. -/
def renderByte (b : UInt8) : List Char :=
  if b = 34 ∨ b = 92 then ['\\', Char.ofNat b.toNat]
  else if 32 ≤ b ∧ b ≤ 126 then [Char.ofNat b.toNat]
  else ['\\', digitChar (b.toNat / 100), digitChar (b.toNat / 10 % 10), digitChar (b.toNat % 10)]

def renderSegment (segment : DnsCharacterString) : List Char :=
  '"' :: (segment.bytes.flatMap renderByte ++ ['"'])

def renderTxt (value : DnsTxtValue) : String :=
  String.ofList ([' '].intercalate (value.segments.map renderSegment))

end RenderTxt

variable [Platform]

structure CloudflareBatchSettings where
  flattenCname : Option Bool
  deriving DecidableEq

/-- A record to be posted. -/
structure CloudflareBatchRecord where
  kind : String
  name : String
  ttl : Nat
  content : Option String
  data : Option Value
  priority : Option UInt16
  proxied : Option Bool
  settings : Option CloudflareBatchSettings
  comment : Option String
  tags : Finset String

/-- The patches and puts of a request are always empty. -/
structure CloudflareBatchRequest where
  deletes : List String
  posts : List CloudflareBatchRecord

structure CloudflareBatchResult where
  deletes : List CloudflareRecord
  posts : List CloudflareRecord

section Render

structure RenderedValue where
  kind : String
  content : Option String
  data : Option Value
  priority : Option UInt16

def renderedContent (kind content : String) : RenderedValue := ⟨kind, some content, none, none⟩

/-- A number of a `serde_json::json!` literal. -/
def jsonNat (n : Nat) : Value := .number (.ofNat n)

def renderValue : DnsRecordSetValue → DnsProviderResult RenderedValue
  | .a address => .ok (renderedContent "A" (showIpv4 address))
  | .aaaa address => .ok (renderedContent "AAAA" (showIpv6 address))
  | .cname target => .ok (renderedContent "CNAME" target.value)
  | .txt value => .ok (renderedContent "TXT" (renderTxt value))
  | .mx preference exchange => .ok {
      kind := "MX"
      content := some exchange.value
      data := some (.object [("priority", jsonNat preference.toNat),
        ("target", .string exchange.value)])
      priority := some preference }
  | .srv priority weight port target => .ok {
      kind := "SRV"
      content := none
      data := some (.object [("priority", jsonNat priority.toNat),
        ("weight", jsonNat weight.toNat), ("port", jsonNat port.toNat),
        ("target", .string target.value)])
      priority := none }
  | .caa flags tag value =>
    match fromUtf8 value.bytes with
    | none => .error (validation "cloudflare_caa_value_not_utf8")
    | some text => .ok {
        kind := "CAA"
        content := none
        data := some (.object [("flags", jsonNat flags.toNat), ("tag", .string tag.value),
          ("value", .string text)])
        priority := none }
  | .ns target => .ok (renderedContent "NS" target.value)
  | .soa .. => .error (validation "cloudflare_soa_mutation_unsupported")

/-- What the records of a set have in common in a request. -/
structure RenderedExtension where
  proxied : Option Bool
  settings : Option CloudflareBatchSettings
  comment : Option String
  tags : Finset String

def flattenCname : CloudflareCnameFlattening → Option Bool
  | .providerDefault => none
  | .flatten => some true
  | .doNotFlatten => some false

def renderExtension : Option DnsRecordExtension → DnsProviderResult RenderedExtension
  | some (.cloudflare proxy flattening comment tags) =>
    .ok ⟨proxy.map fun value => value = .proxied,
      (flattenCname flattening).map fun value => ⟨some value⟩, comment, tags⟩
  | none => .ok ⟨none, none, none, ∅⟩
  | some (.route53 ..) => .error (validation "invalid_cloudflare_record_extension")

def renderTtl : DnsTtl → DnsProviderResult Nat
  | .automatic => .ok 1
  | .seconds n => .ok n
  | .inherited => .error (validation "invalid_cloudflare_record_ttl")

def renderRecord (owner : DnsOwnerName) (ttl : Nat) (extension : RenderedExtension)
    (value : DnsRecordSetValue) : DnsProviderResult CloudflareBatchRecord := do
  let rendered ← renderValue value
  return {
    kind := rendered.kind
    name := owner.value
    ttl := ttl
    content := rendered.content
    data := rendered.data
    priority := rendered.priority
    proxied := extension.proxied
    settings := extension.settings
    comment := extension.comment
    tags := extension.tags }

def renderRecordSet (rs : ProviderDnsRecordSet) :
    DnsProviderResult (List CloudflareBatchRecord) := do
  let extension ← renderExtension rs.extension
  let ttl ← renderTtl rs.ttl
  (inOrder rs.values).mapM (renderRecord rs.key.owner ttl extension)

end Render

section Plan

variable (current : List ObservedDnsRecordSet)

/-- `BTreeMap::get` of the inventory by key: of two entries the later one counts. -/
def currentOf (key : DnsRecordSetKey) : Option ObservedDnsRecordSet :=
  (current.filter fun record => record.recordSet.key = key).getLast?

def collectDeleteIds (record : ObservedDnsRecordSet) (ids : Finset String) :
    DnsProviderResult (Finset String) := do
  require (record.providerObjectIds ≠ ∅) (validation "missing_cloudflare_record_object_ids")
  require (∀ id ∈ record.providerObjectIds,
      validCloudflareIdentifier id.value = true ∧ id.value ∉ ids)
    (validation "invalid_cloudflare_record_object_id")
  return ids ∪ record.providerObjectIds.image OpaqueId.value

/-- The variables of the loop in `plan_batch`. -/
structure BatchPlan where
  deleteIds : Finset String := ∅
  posts : List CloudflareBatchRecord := []

def BatchPlan.step (plan : BatchPlan) : DnsRecordChange → DnsProviderResult BatchPlan
  | .create recordSet _ => do
    require ((currentOf current recordSet.key).isNone = true)
      (conflict "cloudflare_create_guard_conflict")
    let posts ← renderRecordSet recordSet
    return { plan with posts := plan.posts ++ posts }
  | .replace previous desired _ => do
    require (currentOf current desired.key = some previous)
      (conflict "cloudflare_replace_guard_conflict")
    let deleteIds ← collectDeleteIds previous plan.deleteIds
    let posts ← renderRecordSet desired
    return ⟨deleteIds, plan.posts ++ posts⟩
  | .delete previous _ => do
    require (currentOf current previous.recordSet.key = some previous)
      (conflict "cloudflare_delete_guard_conflict")
    let deleteIds ← collectDeleteIds previous plan.deleteIds
    return { plan with deleteIds }

def planBatch (changes : List DnsRecordChange) : DnsProviderResult CloudflareBatchRequest := do
  let plan ← changes.foldlM (BatchPlan.step current) {}
  require (plan.deleteIds.card + plan.posts.length ≤ 10000)
    (validation "cloudflare_batch_operation_limit")
  require (plan.deleteIds ≠ ∅ ∨ plan.posts ≠ []) (validation "empty_cloudflare_batch")
  return ⟨inOrder plan.deleteIds, plan.posts⟩

end Plan

section Result

/-- A list of record sets as a `BTreeMap` by key. -/
def recordSetOf (sets : List ProviderDnsRecordSet) (key : DnsRecordSetKey) :
    Option ProviderDnsRecordSet :=
  (sets.filter fun rs => rs.key = key).getLast?

def sameByKey (actual expected : List ProviderDnsRecordSet) : Bool :=
  (actual ++ expected).all fun rs => recordSetOf actual rs.key = recordSetOf expected rs.key

variable [Sha256 (List CloudflareRecord)]

def validateBatchResult (zone : DnsZoneRef) (changes : List DnsRecordChange)
    (request : CloudflareBatchRequest) (result : CloudflareBatchResult) :
    DnsProviderResult Unit := do
  let expectedDeleted := request.deletes.toFinset
  let actualDeleted := (result.deletes.map CloudflareRecord.id).toFinset
  require (result.deletes.length = expectedDeleted.card ∧ actualDeleted = expectedDeleted)
    (unknownOutcome "cloudflare_batch_delete_result_mismatch")
  require (result.posts.length = request.posts.length ∧
      ∀ record ∈ result.posts, validCloudflareIdentifier record.id = true)
    (unknownOutcome "cloudflare_batch_post_result_mismatch")
  let observed ← orElse (unknownOutcome "cloudflare_batch_post_result_invalid")
    (aggregateRecords zone result.posts)
  require (sameByKey (observed.map ObservedDnsRecordSet.recordSet) (desiredRecordSets changes) = true)
    (unknownOutcome "cloudflare_batch_post_result_mismatch")

end Result

end EdgionCenter.Cloudflare
