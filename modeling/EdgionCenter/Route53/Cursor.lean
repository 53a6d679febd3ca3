import EdgionCenter.Cloud.Page
import EdgionCenter.Cloud.Token
import EdgionCenter.Route53.Record

/-! The signed tokens of the Route 53 adapter, and the pages of its inventories. -/
namespace EdgionCenter.Route53

open Fallible JsonText Paging

/-! ### Tokens -/

inductive TokenDomain
  | inventoryCursor
  | mutationReceipt
  | lifecycle
  deriving DecidableEq

def TokenDomain.separator : TokenDomain → List UInt8
  | .inventoryCursor => utf8 "edgion-center/route53/inventory-cursor/v1".toList ++ [0]
  | .mutationReceipt => utf8 "edgion-center/route53/mutation-receipt/v1".toList ++ [0]
  | .lifecycle => utf8 "edgion-center/route53/lifecycle-token/v1".toList ++ [0]

section Tokens

variable {Key α : Type} [Hmac Key] [Serialize α] {key key' : Key} {domain : TokenDomain}
  {value value' : α}

def signToken (value : α) (key : Key) (domain : TokenDomain) : String :=
  base64 (authenticate key domain.separator (Serialize.toVec value))

variable [Deserialize α]

def verifyToken (α : Type) [Serialize α] [Deserialize α] (text : String) (key : Key)
    (domain : TokenDomain) : DnsProviderResult α := do
  let authenticated ← present (decodeBase64 text) "invalid_route53_token"
  require (32 < authenticated.length) (validation "invalid_route53_token")
  require (verifySignature key domain.separator (splitSignature authenticated).1
    (splitSignature authenticated).2 = true) (validation "invalid_route53_token")
  present (Deserialize.fromSlice (splitSignature authenticated).1) "invalid_route53_token"

/-- A token is read with the key it was signed with, and with no other. -/
theorem verifyToken_signToken (hkeys : KeySeparating Key) (hne : Serialize.toVec value ≠ []) :
    verifyToken α (signToken value key domain) key' domain = .ok value' ↔
      key' = key ∧ value' = value := by
  have hlength : 32 < (authenticate key domain.separator (Serialize.toVec value)).length := by
    rw [length_authenticate]
    have := List.length_pos_iff.mpr hne
    omega
  simp only [verifyToken, signToken, decodeBase64_base64, bind_eq_ok, present_eq_ok,
    Option.some.injEq, require_eq_ok, exists_unit, verifySignature_eq_true]
  constructor
  · rintro ⟨_, rfl, -, hmac, hread⟩
    rw [splitSignature_authenticate] at hmac hread
    rw [Deserialize.fromSlice_toVec, Option.some.injEq] at hread
    exact ⟨hkeys _ _ _ hmac, hread.symm⟩
  · rintro ⟨rfl, rfl⟩
    refine ⟨_, rfl, hlength, ?_, ?_⟩
    · rw [splitSignature_authenticate]
    · rw [splitSignature_authenticate, Deserialize.fromSlice_toVec]

end Tokens

/-! ### Cursors -/

inductive CursorMethod
  | zones
  | records (zoneId : String)
  deriving DecidableEq

structure CursorScope where
  centerAccountId : String
  awsAccountId : String
  method : CursorMethod
  deriving DecidableEq

structure CursorToken where
  version : UInt8
  scope : CursorScope
  offset : UInt64
  inventoryDigest : String
  deriving DecidableEq

namespace CursorMethod

def name : CursorMethod → String
  | .zones => "zones"
  | .records _ => "records"

def zoneJson : CursorMethod → List Char
  | .zones => []
  | .records zoneId => ",\"zone_id\":".toList ++ string zoneId.toList

def json (method : CursorMethod) : List Char :=
  "\x7b\"type\":".toList ++ string method.name.toList ++ method.zoneJson ++ ['\x7d']

theorem zoneJson_records (zoneId : String) :
    (records zoneId).zoneJson = ",\"zone_id\":".toList ++ string zoneId.toList := rfl

end CursorMethod

def CursorScope.json (scope : CursorScope) : List Char :=
  "\x7b\"centerAccountId\":".toList ++ string scope.centerAccountId.toList ++
    ",\"awsAccountId\":".toList ++ string scope.awsAccountId.toList ++
    ",\"method\":".toList ++ scope.method.json ++ ['\x7d']

def CursorToken.json (token : CursorToken) : List Char :=
  "\x7b\"version\":".toList ++ number ',' token.version.toNat ++
    "\"scope\":".toList ++ token.scope.json ++
    ",\"offset\":".toList ++ number ',' token.offset.toNat ++
    "\"inventoryDigest\":".toList ++ string token.inventoryDigest.toList ++ ['\x7d']

instance serializeCursorToken : Serialize CursorToken := ⟨fun token => utf8 token.json⟩

theorem CursorMethod.json_delimits : Delimits CursorMethod.json := by
  intro a b r s h
  unfold json at h
  simp only [List.append_assoc] at h
  obtain ⟨hname, h⟩ := string_delimits.after h
  rw [String.toList_inj] at hname
  cases a with
  | zones =>
    cases b with
    | zones => exact ⟨rfl, List.append_cancel_left h⟩
    | records _ => simp [name] at hname
  | records zoneId =>
    cases b with
    | zones => simp [name] at hname
    | records zoneId' =>
      rw [zoneJson_records, zoneJson_records, List.append_assoc, List.append_assoc] at h
      obtain ⟨hzone, htail⟩ := string_delimits.after h
      obtain rfl : zoneId = zoneId' := String.toList_inj.mp hzone
      exact ⟨rfl, List.append_cancel_left htail⟩

theorem CursorScope.json_delimits : Delimits CursorScope.json := by
  intro a b r s h
  unfold json at h
  simp only [List.append_assoc] at h
  obtain ⟨hcenter, h⟩ := string_delimits.after h
  obtain ⟨haws, h⟩ := string_delimits.after h
  obtain ⟨hmethod, htail⟩ := CursorMethod.json_delimits.after h
  refine ⟨?_, List.append_cancel_left htail⟩
  cases a
  cases b
  simp only [String.toList_inj] at hcenter haws
  simp_all

/-- A cursor can be told from its text. -/
theorem CursorToken.json_injective : Function.Injective CursorToken.json := by
  intro a b h
  unfold json at h
  simp only [List.append_assoc] at h
  obtain ⟨hversion, h⟩ := (number_delimits rfl).after h
  obtain ⟨hscope, h⟩ := CursorScope.json_delimits.after h
  obtain ⟨hoffset, h⟩ := (number_delimits rfl).after h
  obtain ⟨hdigest, -⟩ := string_delimits.after h
  cases a
  cases b
  simp only [UInt8.toNat_inj, UInt64.toNat_inj, String.toList_inj] at *
  simp [*]

theorem CursorToken.toVec_ne_nil (token : CursorToken) : Serialize.toVec token ≠ [] := by
  change utf8 token.json ≠ []
  intro h
  have hnil : utf8 token.json = utf8 [] := h
  have hempty := utf8_injective hnil
  unfold CursorToken.json at hempty
  simp at hempty

section Pages

variable {Key T : Type} [Hmac Key] [Sha256Base64 (List T)] [Deserialize CursorToken]

/-- Where the page starts. -/
def cursorOffset (items : List T) (scope : CursorScope) (key : Key) :
    Option DnsPageToken → DnsProviderResult Nat
  | some token => do
    let decoded ← orElse (validation "invalid_route53_page_token")
      (verifyToken CursorToken token.value key .inventoryCursor)
    require (decoded.version = 1 ∧ decoded.scope = scope ∧ decoded.offset.toNat < items.length)
      (validation "invalid_route53_page_token")
    require (decoded.inventoryDigest = Sha256Base64.text items)
      (validation "route53_inventory_changed")
    return decoded.offset.toNat
  | none => .ok 0

/-- `usize::saturating_add`, up to the end of the items. -/
def pageEnd (items : List T) (offset : Nat) (limit : UInt16) : Nat :=
  min (min (offset + limit.toNat) (UInt64.size - 1)) items.length

def nextToken (items : List T) (scope : CursorScope) (key : Key) (stop : Nat) :
    DnsProviderResult (Option DnsPageToken) :=
  if stop < items.length then
    some <$> orElse (validation "route53_page_token_encoding_failed") (OpaqueId.new _ _
      (signToken (⟨1, scope, UInt64.ofNat stop, Sha256Base64.text items⟩ : CursorToken) key
        .inventoryCursor))
  else .ok none

def paginate (items : List T) (page : DnsPageRequest) (scope : CursorScope) (key : Key) :
    DnsProviderResult (DnsPage T) := do
  let offset ← cursorOffset items scope key page.token
  let next ← nextToken items scope key (pageEnd items offset page.limit)
  orElse (validation "invalid_route53_page")
    ((⟨(items.drop offset).take (pageEnd items offset page.limit - offset), next⟩ :
      DnsPage T).validate page.limit fun _ => .ok ())
  return ⟨(items.drop offset).take (pageEnd items offset page.limit - offset), next⟩

end Pages

/-! ### The list methods -/

variable [Platform]

/-- What a list method is asked for. -/
inductive Listing
  | zones (account : CloudResourceId)
  | records (zone : DnsZoneRef)

def Listing.method : Listing → CursorMethod
  | .zones _ => .zones
  | .records zone => .records zone.zoneId.value

/-- `ProviderAccountSpec::validate` has checked the account of AWS. -/
structure Route53DnsAdapter (Key : Type) where
  centerAccountId : CloudResourceId
  awsAccountId : String
  cursorKey : Key
  valid : utf8Len awsAccountId.toList = 12 ∧ awsAccountId.toList.all Char.isDigit = true

namespace Route53DnsAdapter

variable {Key T : Type} [Hmac Key] [Sha256Base64 (List T)] [Deserialize CursorToken]

def scope (adapter : Route53DnsAdapter Key) (method : CursorMethod) : CursorScope :=
  ⟨adapter.centerAccountId.value, adapter.awsAccountId, method⟩

def validateZoneRef (adapter : Route53DnsAdapter Key) (zone : DnsZoneRef) :
    DnsProviderResult Unit := do
  orElse (validation "invalid_zone") zone.validate
  require (zone.provider = .aws ∧ zone.providerAccountId = adapter.centerAccountId ∧
    zone.visibility = .publicZone) (validation "route53_zone_scope_mismatch")
  let normalized ← normalizeZoneId zone.zoneId.value
  require (normalized = zone.zoneId.value) (validation "route53_zone_scope_mismatch")

/-- `list_zones` and `list_record_sets`, where `items` is the inventory that the provider is read
for. -/
def list (adapter : Route53DnsAdapter Key) (listing : Listing) (items : List T)
    (page : DnsPageRequest) : DnsProviderResult (DnsPage T) :=
  match listing with
  | .zones account => do
    orElse (validation "invalid_account") account.validate
    orElse (validation "invalid_page") page.validate
    require (account = adapter.centerAccountId) (validation "route53_account_scope_mismatch")
    paginate items page (adapter.scope .zones) adapter.cursorKey
  | .records zone => do
    adapter.validateZoneRef zone
    orElse (validation "invalid_page") page.validate
    paginate items page (adapter.scope (.records zone.zoneId.value)) adapter.cursorKey

end Route53DnsAdapter

end EdgionCenter.Route53
