import EdgionCenter.Cloud.Page
import EdgionCenter.Cloud.Token
import EdgionCenter.Cloudflare.Record

/-! The pages of Cloudflare's inventories and the cursors between them. -/
namespace EdgionCenter.Cloudflare

open Fallible JsonText Serialize

section Arithmetic

variable {a b c : UInt64}

/-- `u64::checked_add`. -/
def checkedAdd (a b : UInt64) : Option UInt64 :=
  if a.toNat + b.toNat < UInt64.size then some (a + b) else none

/-- `u64::checked_sub`. -/
def checkedSub (a b : UInt64) : Option UInt64 := if b ≤ a then some (a - b) else none

/-- `u64::try_from`. -/
def toU64 (n : Nat) : Option UInt64 := if n < UInt64.size then some (UInt64.ofNat n) else none

variable {n : Nat}

@[simp] theorem checkedAdd_eq_some : checkedAdd a b = some c ↔ a.toNat + b.toNat = c.toNat := by
  unfold checkedAdd
  split_ifs with h
  · rw [Option.some.injEq, ← UInt64.toNat_inj, UInt64.toNat_add, Nat.mod_eq_of_lt h]
  · have := c.toNat_lt
    simp only [false_iff]
    intro heq
    exact h (heq ▸ this)

@[simp] theorem toU64_eq_some : toU64 n = some c ↔ n = c.toNat := by
  unfold toU64
  split_ifs with h
  · rw [Option.some.injEq, ← UInt64.toNat_inj, UInt64.toNat_ofNat_of_lt' h]
  · have := c.toNat_lt
    simp only [false_iff]
    intro heq
    exact h (heq ▸ this)

end Arithmetic

/-! ### Cursors -/

inductive CursorScope
  | dnsZones (centerScope externalScope : String)
  | cloudflareZones (centerScope externalScope : String)
  | records (centerScope externalScope zoneScope : String)
  deriving DecidableEq

namespace CursorScope

def method : CursorScope → String
  | .dnsZones .. => "dns_zones"
  | .cloudflareZones .. => "cloudflare_zones"
  | .records .. => "records"

def centerScope : CursorScope → String
  | .dnsZones center _ | .cloudflareZones center _ | .records center .. => center

def externalScope : CursorScope → String
  | .dnsZones _ external | .cloudflareZones _ external | .records _ external _ => external

/-- The members after the first three. -/
def zoneJson : CursorScope → List Char
  | .records _ _ zone => ",\"zone_scope\":".toList ++ string zone.toList
  | _ => []

def json (scope : CursorScope) : List Char :=
  "\x7b\"method\":".toList ++ string scope.method.toList ++
    ",\"center_scope\":".toList ++ string scope.centerScope.toList ++
    ",\"external_scope\":".toList ++ string scope.externalScope.toList ++
    scope.zoneJson ++ ['\x7d']

end CursorScope

structure Cursor where
  version : UInt8
  scope : CursorScope
  offset : UInt64
  limit : UInt16
  inventoryTag : String
  issuedAt : UInt64
  expiresAt : UInt64
  deriving DecidableEq

def Cursor.json (cursor : Cursor) : List Char :=
  "\x7b\"version\":".toList ++ number ',' cursor.version.toNat ++
    "\"scope\":".toList ++ cursor.scope.json ++
    ",\"offset\":".toList ++ number ',' cursor.offset.toNat ++
    "\"limit\":".toList ++ number ',' cursor.limit.toNat ++
    "\"inventory_tag\":".toList ++ string cursor.inventoryTag.toList ++
    ",\"issued_at\":".toList ++ number ',' cursor.issuedAt.toNat ++
    "\"expires_at\":".toList ++ number '\x7d' cursor.expiresAt.toNat

instance serializeCursor : Serialize Cursor := ⟨fun cursor => utf8 cursor.json⟩

theorem CursorScope.zoneJson_records (center external zone : String) :
    (records center external zone).zoneJson =
      ",\"zone_scope\":".toList ++ string zone.toList := rfl

theorem CursorScope.json_delimits : Delimits CursorScope.json := by
  intro a b r s h
  unfold json at h
  simp only [List.append_assoc] at h
  obtain ⟨hmethod, h⟩ := string_delimits.after h
  obtain ⟨hcenter, h⟩ := string_delimits.after h
  obtain ⟨hexternal, h⟩ := string_delimits.after h
  rw [String.toList_inj] at hmethod hcenter hexternal
  cases a with
  | dnsZones center external =>
    cases b with
    | dnsZones center' external' =>
      obtain rfl : center = center' := hcenter
      obtain rfl : external = external' := hexternal
      exact ⟨rfl, List.append_cancel_left h⟩
    | _ => simp [method] at hmethod
  | cloudflareZones center external =>
    cases b with
    | cloudflareZones center' external' =>
      obtain rfl : center = center' := hcenter
      obtain rfl : external = external' := hexternal
      exact ⟨rfl, List.append_cancel_left h⟩
    | _ => simp [method] at hmethod
  | records center external zone =>
    cases b with
    | records center' external' zone' =>
      obtain rfl : center = center' := hcenter
      obtain rfl : external = external' := hexternal
      rw [zoneJson_records, zoneJson_records, List.append_assoc, List.append_assoc] at h
      obtain ⟨hzone, htail⟩ := string_delimits.after h
      obtain rfl : zone = zone' := String.toList_inj.mp hzone
      exact ⟨rfl, List.append_cancel_left htail⟩
    | _ => simp [method] at hmethod

/-- A cursor can be told from its text. -/
theorem Cursor.json_injective : Function.Injective Cursor.json := by
  intro a b h
  unfold json at h
  simp only [List.append_assoc] at h
  obtain ⟨hversion, h⟩ := (number_delimits rfl).after h
  obtain ⟨hscope, h⟩ := CursorScope.json_delimits.after h
  obtain ⟨hoffset, h⟩ := (number_delimits rfl).after h
  obtain ⟨hlimit, h⟩ := (number_delimits rfl).after h
  obtain ⟨htag, h⟩ := string_delimits.after h
  obtain ⟨hissued, h⟩ := (number_delimits rfl).after h
  have hexpires := (number_delimits rfl).injective (List.append_cancel_left h)
  cases a
  cases b
  simp only [UInt8.toNat_inj, UInt16.toNat_inj, UInt64.toNat_inj, String.toList_inj] at *
  simp [*]

section Keys

variable {Key : Type}

def maxCursorTtlSecs : UInt64 := 3600
def maxCursorClockSkewSecs : UInt64 := 300

/-- `with_clock` checks what the last field says. -/
structure CloudflareCursorKeyRing (Key : Type) where
  active : Key
  fallback : Option Key
  ttlSecs : UInt64
  clockSkewSecs : UInt64
  valid : (ttlSecs ≠ 0 ∧ ttlSecs ≤ maxCursorTtlSecs ∧ clockSkewSecs ≤ maxCursorClockSkewSecs ∧
    clockSkewSecs < ttlSecs) ∧ fallback ≠ some active

inductive CursorVerificationKey
  | active
  | fallback
  deriving DecidableEq

structure VerifiedCursor where
  cursor : Cursor
  key : CursorVerificationKey

def cursorScopeMessage (domain value : String) : List UInt8 :=
  utf8 "edgion-cloudflare-cursor-scope-v2".toList ++ [0] ++ utf8 domain.toList ++ [0] ++
    utf8 value.toList

variable [Hmac Key]

def cursorScopeTag (key : Key) (domain value : String) : String :=
  base64 (Hmac.mac key (cursorScopeMessage domain value))

/-- The key that the signature was made with, the active one first. -/
def CloudflareCursorKeyRing.verifying (keys : CloudflareCursorKeyRing Key)
    (payload signature : List UInt8) : Option (Key × CursorVerificationKey) :=
  if verifySignature keys.active [] payload signature then some (keys.active, .active)
  else
    (keys.fallback.filter (verifySignature · [] payload signature)).map (·, .fallback)

def validateCursorTime (cursor : Cursor) (keys : CloudflareCursorKeyRing Key) (now : UInt64) :
    DnsProviderResult Unit := do
  let lifetime ← present (checkedSub cursor.expiresAt cursor.issuedAt)
    "invalid_cloudflare_cursor_time"
  require (lifetime ≠ 0 ∧ lifetime ≤ keys.ttlSecs) (validation "invalid_cloudflare_cursor_time")
  let latestIssuedAt ← present (checkedAdd now keys.clockSkewSecs)
    "invalid_cloudflare_cursor_time"
  require (cursor.issuedAt ≤ latestIssuedAt) (validation "cloudflare_cursor_not_yet_valid")
  let latestValidAt ← present (checkedAdd cursor.expiresAt keys.clockSkewSecs)
    "invalid_cloudflare_cursor_time"
  require (now ≤ latestValidAt) (validation "cloudflare_cursor_expired")

variable [Deserialize Cursor]

def verifyCursor (limit : UInt16) (keys : CloudflareCursorKeyRing Key) (now : UInt64)
    (scope : Key → CursorScope) (token : DnsPageToken) : DnsProviderResult VerifiedCursor := do
  let authenticated ← present (decodeBase64 token.value) "invalid_cloudflare_cursor"
  require (32 ≤ authenticated.length) (validation "invalid_cloudflare_cursor")
  let key ← present
    (keys.verifying (splitSignature authenticated).1 (splitSignature authenticated).2)
    "invalid_cloudflare_cursor_signature"
  let cursor ← present (Deserialize.fromSlice (splitSignature authenticated).1)
    "invalid_cloudflare_cursor"
  require (cursor.version = 4) (validation "unsupported_cloudflare_cursor_version")
  require (cursor.scope = scope key.1) (validation "cloudflare_cursor_scope_mismatch")
  require (cursor.limit = limit) (validation "cloudflare_cursor_page_size_mismatch")
  require (cursor.offset ≠ 0 ∧ cursor.inventoryTag ≠ "")
    (validation "invalid_cloudflare_cursor_offset")
  validateCursorTime cursor keys now
  return ⟨cursor, key.2⟩

def decodeCursor (request : DnsPageRequest) (keys : CloudflareCursorKeyRing Key) (now : UInt64)
    (scope : Key → CursorScope) : DnsProviderResult (Option VerifiedCursor) :=
  match request.token with
  | none => .ok none
  | some token => some <$> verifyCursor request.limit keys now scope token

end Keys

/-! ### Pages -/

section Pages

variable {Key T : Type} [Hmac Key] [Serialize (List T)]

def maxInventoryTagBytes : Nat := 64 * 1024 * 1024

def inventoryMessage (items : List T) : List UInt8 :=
  utf8 "edgion-cloudflare-inventory-v3".toList ++ [0] ++ toVec items

def inventoryTag (items : List T) (key : Key) : DnsProviderResult String := do
  require ((toVec items).length ≤ maxInventoryTagBytes)
    (validation "cloudflare_inventory_serialization_limit")
  return base64 (Hmac.mac key (inventoryMessage items))

/-- The key that the cursor was verified with, or the active one without a cursor. -/
def verificationKey (keys : CloudflareCursorKeyRing Key) :
    Option CursorVerificationKey → DnsProviderResult Key
  | some .fallback => present keys.fallback "cloudflare_cursor_scope_mismatch"
  | some .active | none => .ok keys.active

def cursorOffset (verifiedInventoryTag : String) : Option VerifiedCursor → DnsProviderResult Nat
  | some verified => do
    require (verified.cursor.inventoryTag = verifiedInventoryTag)
      (validation "cloudflare_inventory_changed")
    return verified.cursor.offset.toNat
  | none => .ok 0

/-- The tag under the active key; it is computed again where another key has verified. -/
def activeInventoryTag (items : List T) (keys : CloudflareCursorKeyRing Key)
    (verifiedInventoryTag : String) : Option CursorVerificationKey → DnsProviderResult String
  | some .fallback => inventoryTag items keys.active
  | some .active | none => .ok verifiedInventoryTag

/-- The token for the items from `stop` on, if there are any. -/
def nextToken (items : List T) (limit : UInt16) (scope : Key → CursorScope)
    (keys : CloudflareCursorKeyRing Key) (now : UInt64) (verifiedInventoryTag : String)
    (key : Option CursorVerificationKey) (stop : Nat) : DnsProviderResult (Option DnsPageToken) :=
  if stop < items.length then do
    let expiresAt ← present (checkedAdd now keys.ttlSecs) "cloudflare_cursor_encoding_failed"
    let tag ← activeInventoryTag items keys verifiedInventoryTag key
    let offset ← present (toU64 stop) "cloudflare_cursor_encoding_failed"
    some <$> orElse (validation "cloudflare_cursor_encoding_failed") (OpaqueId.new _ _
      (base64 (authenticate keys.active []
        (toVec (⟨4, scope keys.active, offset, limit, tag, now, expiresAt⟩ : Cursor)))))
  else .ok none

/-- The page from an offset on. -/
def pageFrom (items : List T) (limit : UInt16) (scope : Key → CursorScope)
    (keys : CloudflareCursorKeyRing Key) (now : UInt64) (verifiedInventoryTag : String)
    (key : Option CursorVerificationKey) (offset : Nat) : DnsProviderResult (DnsPage T) := do
  let next ← nextToken items limit scope keys now verifiedInventoryTag key
    (min (offset + limit.toNat) items.length)
  return ⟨(items.drop offset).take (min (offset + limit.toNat) items.length - offset), next⟩

def paginate (items : List T) (request : DnsPageRequest) (scope : Key → CursorScope)
    (keys : CloudflareCursorKeyRing Key) (cursor : Option VerifiedCursor) (now : UInt64) :
    DnsProviderResult (DnsPage T) := do
  let key ← verificationKey keys (cursor.map (·.key))
  let verifiedInventoryTag ← inventoryTag items key
  let offset ← cursorOffset verifiedInventoryTag cursor
  require (offset ≤ items.length) (validation "invalid_cloudflare_cursor_offset")
  -- `usize::checked_add`
  require (offset + request.limit.toNat < UInt64.size)
    (validation "invalid_cloudflare_cursor_offset")
  pageFrom items request.limit scope keys now verifiedInventoryTag (cursor.map (·.key)) offset

end Pages

section Specifications

variable {Key T : Type} [Hmac Key] [Serialize (List T)] {keys : CloudflareCursorKeyRing Key}
  {key : Key} {cursor : Cursor} {now : UInt64} {limit : UInt16} {scope : Key → CursorScope}
  {token : DnsPageToken} {payload : List UInt8} {items : List T} {tag : String}
  {verification : Option CursorVerificationKey} {stop : Nat}

/-- Under separate keys a signature verifies with the key it was made with. -/
theorem verifying_eq_some (hkeys : KeySeparating Key) {found : Key × CursorVerificationKey} :
    keys.verifying payload (Hmac.mac key payload) = some found ↔
      found = (key, .active) ∧ keys.active = key ∨
        found = (key, .fallback) ∧ keys.fallback = some key := by
  have hverify : ∀ other : Key, verifySignature other [] payload (Hmac.mac key payload) = true ↔
      other = key := by
    intro other
    rw [verifySignature_eq_true, List.nil_append]
    exact ⟨hkeys other key payload, fun h => by rw [h]⟩
  unfold CloudflareCursorKeyRing.verifying
  by_cases hactive : keys.active = key
  · have hne : keys.fallback ≠ some key := hactive ▸ keys.valid.2
    rw [if_pos ((hverify _).mpr hactive), hactive]
    simp [hne, eq_comm]
  · rw [if_neg (fun h => hactive ((hverify _).mp h))]
    simp only [Option.map_eq_some_iff, Option.filter_eq_some_iff, hverify]
    constructor
    · rintro ⟨_, ⟨hfallback, rfl⟩, rfl⟩
      exact .inr ⟨rfl, hfallback⟩
    · rintro (⟨-, hsame⟩ | ⟨rfl, hfallback⟩)
      · exact absurd hsame hactive
      · exact ⟨key, ⟨hfallback, rfl⟩, rfl⟩

variable [Deserialize Cursor]

/-- What becomes of a token that was issued with a cursor and a key. -/
theorem verifyCursor_issued {verified : VerifiedCursor}
    (htoken : token.value = base64 (authenticate key [] (toVec cursor))) :
    verifyCursor limit keys now scope token = .ok verified ↔
      ∃ found, keys.verifying (toVec cursor) (Hmac.mac key (toVec cursor)) =
          some found ∧
        cursor.version = 4 ∧ cursor.scope = scope found.1 ∧ cursor.limit = limit ∧
        (cursor.offset ≠ 0 ∧ cursor.inventoryTag ≠ "") ∧
        validateCursorTime cursor keys now = .ok () ∧ verified = ⟨cursor, found.2⟩ := by
  simp only [verifyCursor, htoken, decodeBase64_base64, bind_eq_ok, present_eq_ok,
    Option.some.injEq, require_eq_ok, exists_unit, pure_eq_ok]
  constructor
  · rintro ⟨_, rfl, -, found, hfound, read, hread, hrest⟩
    rw [splitSignature_authenticate, List.nil_append] at hfound
    rw [splitSignature_authenticate, Deserialize.fromSlice_toVec, Option.some.injEq] at hread
    obtain ⟨hversion, hscope, hlimit, hoffset, htime, hverified⟩ := hread ▸ hrest
    exact ⟨found, hfound, hversion, hscope, hlimit, hoffset, htime, hverified.symm⟩
  · rintro ⟨found, hfound, hversion, hscope, hlimit, hoffset, htime, rfl⟩
    refine ⟨_, rfl, by simp, found, ?_, cursor, ?_, hversion, hscope, hlimit, hoffset, htime, rfl⟩
    · rw [splitSignature_authenticate, List.nil_append]
      exact hfound
    · rw [splitSignature_authenticate, Deserialize.fromSlice_toVec]

omit [Deserialize Cursor]

/-- The tag of an inventory that is not too large. -/
def tagOf (items : List T) (key : Key) : String := base64 (Hmac.mac key (inventoryMessage items))

theorem inventoryTag_eq_ok : inventoryTag items key = .ok tag ↔
    (toVec items).length ≤ maxInventoryTagBytes ∧ tagOf items key = tag := by
  simp [inventoryTag, tagOf]

/-- The key of a verified cursor. -/
def CloudflareCursorKeyRing.keyOf (keys : CloudflareCursorKeyRing Key) :
    Option CursorVerificationKey → Option Key
  | some .fallback => keys.fallback
  | some .active | none => some keys.active

omit [Hmac Key] in
theorem verificationKey_eq_ok :
    verificationKey keys verification = .ok key ↔ keys.keyOf verification = some key := by
  rcases verification with _ | _ | _ <;> simp [verificationKey, CloudflareCursorKeyRing.keyOf]

/-- A token for the items from `stop` on, signed with the active key. -/
def Issued (items : List T) (limit : UInt16) (scope : Key → CursorScope)
    (keys : CloudflareCursorKeyRing Key) (now : UInt64) (stop : Nat) (token : DnsPageToken) :
    Prop :=
  ∃ cursor : Cursor, token.value = base64 (authenticate keys.active [] (toVec cursor)) ∧
    cursor.version = 4 ∧ cursor.scope = scope keys.active ∧ cursor.offset.toNat = stop ∧
    cursor.limit = limit ∧ cursor.inventoryTag = tagOf items keys.active ∧
    cursor.issuedAt = now ∧ cursor.expiresAt.toNat = now.toNat + keys.ttlSecs.toNat

theorem activeInventoryTag_eq_ok {active : String}
    (hsize : (toVec items).length ≤ maxInventoryTagBytes)
    (hkey : keys.keyOf verification = some key) :
    activeInventoryTag items keys (tagOf items key) verification = .ok active ↔
      tagOf items keys.active = active := by
  rcases verification with _ | _ | _
  · cases hkey
    simp [activeInventoryTag]
  · cases hkey
    simp [activeInventoryTag]
  · simp [activeInventoryTag, inventoryTag_eq_ok, hsize]

theorem nextToken_eq_some (hsize : (toVec items).length ≤ maxInventoryTagBytes)
    (hkey : keys.keyOf verification = some key) :
    nextToken items limit scope keys now (tagOf items key) verification stop = .ok (some token) ↔
      stop < items.length ∧ Issued items limit scope keys now stop token := by
  unfold nextToken
  split_ifs with hstop
  · simp only [bind_eq_ok, present_eq_ok, checkedAdd_eq_some, toU64_eq_some, map_eq_ok,
      orElse_eq_ok, OpaqueId.new_eq_ok, activeInventoryTag_eq_ok hsize hkey, Option.some.injEq]
    constructor
    · rintro ⟨expiresAt, hexpires, _, rfl, offset, hoffset, _, hvalue, rfl⟩
      exact ⟨hstop, _, hvalue, rfl, rfl, hoffset.symm, rfl, rfl, rfl, hexpires.symm⟩
    · rintro ⟨-, cursor, hvalue, hversion, hscope, hoffset, hlimit, htag, hissued, hexpires⟩
      refine ⟨cursor.expiresAt, ?_, _, rfl, cursor.offset, hoffset.symm, token, ?_, rfl⟩
      · rw [← hissued] at hexpires
        rw [← hissued, hexpires]
      · rw [hvalue, ← hversion, ← hscope, ← hlimit, ← htag, ← hissued]
  · simp [hstop]

/-- Where a page starts: at the beginning, or where a cursor for the same inventory says. -/
def StartsAt (items : List T) (key : Key) (offset : Nat) : Option VerifiedCursor → Prop
  | none => offset = 0
  | some verified =>
    verified.cursor.inventoryTag = tagOf items key ∧ verified.cursor.offset.toNat = offset

theorem cursorOffset_eq_ok {offset : Nat} {cursor : Option VerifiedCursor} :
    cursorOffset (tagOf items key) cursor = .ok offset ↔ StartsAt items key offset cursor := by
  cases cursor with
  | none => simp [cursorOffset, StartsAt, eq_comm]
  | some verified => simp [cursorOffset, StartsAt]

theorem paginate_eq_ok {request : DnsPageRequest} {cursor : Option VerifiedCursor}
    {page : DnsPage T} : paginate items request scope keys cursor now = .ok page ↔
      (toVec items).length ≤ maxInventoryTagBytes ∧
      ∃ key offset, keys.keyOf (cursor.map (·.key)) = some key ∧
        StartsAt items key offset cursor ∧ offset ≤ items.length ∧
        offset + request.limit.toNat < UInt64.size ∧
        nextToken items request.limit scope keys now (tagOf items key) (cursor.map (·.key))
          (min (offset + request.limit.toNat) items.length) = .ok page.next ∧
        page.items = (items.drop offset).take request.limit.toNat := by
  have htake : ∀ offset, (items.drop offset).take
      (min (offset + request.limit.toNat) items.length - offset) =
        (items.drop offset).take request.limit.toNat := by
    intro offset
    rw [List.take_eq_take_iff, List.length_drop]
    omega
  simp only [paginate, pageFrom, bind_eq_ok, pure_eq_ok, verificationKey_eq_ok,
    inventoryTag_eq_ok, require_eq_ok, exists_unit, htake]
  constructor
  · rintro ⟨key, hkey, _, ⟨hsize, rfl⟩, offset, hoffset, hle, hlt, next, hnext, rfl⟩
    exact ⟨hsize, key, offset, hkey, cursorOffset_eq_ok.mp hoffset, hle, hlt, hnext, rfl⟩
  · rintro ⟨hsize, key, offset, hkey, hoffset, hle, hlt, hnext, hitems⟩
    refine ⟨key, hkey, _, ⟨hsize, rfl⟩, offset, cursorOffset_eq_ok.mpr hoffset, hle, hlt, page.next,
      hnext, ?_⟩
    rw [← hitems]

end Specifications

/-! ### The list methods -/

variable [Platform]

/-- What a list method is asked for. -/
inductive Listing
  | dnsZones (account : CloudResourceId)
  | cloudflareZones (account : CloudResourceId)
  | records (zone : DnsZoneRef)
  deriving DecidableEq

structure CloudflareDnsAdapter (Key : Type) where
  centerAccountId : CloudResourceId
  cloudflareAccountId : String
  cursorKeys : CloudflareCursorKeyRing Key

namespace CloudflareDnsAdapter

variable {Key T : Type} [Hmac Key] [Serialize (List T)] [Deserialize Cursor]

def validateZoneRef (adapter : CloudflareDnsAdapter Key) (zone : DnsZoneRef) :
    DnsProviderResult Unit := do
  orElse (validation "invalid_zone") zone.validate
  require (zone.provider = .cloudflare ∧ zone.providerAccountId = adapter.centerAccountId)
    (validation "cloudflare_zone_scope_mismatch")

/-- The checks of a list method on what it is asked for. -/
def validateListing (adapter : CloudflareDnsAdapter Key) : Listing → DnsProviderResult Unit
  | .dnsZones account | .cloudflareZones account =>
    require (account = adapter.centerAccountId) (validation "cloudflare_account_scope_mismatch")
  | .records zone => adapter.validateZoneRef zone

def centerTag (adapter : CloudflareDnsAdapter Key) (key : Key) : String :=
  cursorScopeTag key "center-account" adapter.centerAccountId.value

def externalTag (adapter : CloudflareDnsAdapter Key) (key : Key) : String :=
  cursorScopeTag key "native-account" adapter.cloudflareAccountId

def scope (adapter : CloudflareDnsAdapter Key) (listing : Listing) (key : Key) : CursorScope :=
  match listing with
  | .dnsZones _ => .dnsZones (adapter.centerTag key) (adapter.externalTag key)
  | .cloudflareZones _ => .cloudflareZones (adapter.centerTag key) (adapter.externalTag key)
  | .records zone =>
    .records (adapter.centerTag key) (adapter.externalTag key)
      (cursorScopeTag key "zone" zone.zoneId.value)

/-- `list_zones`, `list_zone_inventory` and `list_record_sets`, where `items` is the inventory that
the provider is read for. -/
def list (adapter : CloudflareDnsAdapter Key) (listing : Listing) (items : List T) (now : UInt64)
    (request : DnsPageRequest) : DnsProviderResult (DnsPage T) := do
  orElse (validation "invalid_page") request.validate
  adapter.validateListing listing
  let cursor ← decodeCursor request adapter.cursorKeys now (adapter.scope listing)
  paginate items request (adapter.scope listing) adapter.cursorKeys cursor now

theorem list_eq_ok {adapter : CloudflareDnsAdapter Key} {listing : Listing} {items : List T}
    {now : UInt64} {request : DnsPageRequest} {page : DnsPage T} :
    adapter.list listing items now request = .ok page ↔
      (request.limit ≠ 0 ∧ request.limit ≤ maxPageSize) ∧ adapter.validateListing listing = .ok () ∧
      ∃ cursor, decodeCursor request adapter.cursorKeys now (adapter.scope listing) = .ok cursor ∧
        paginate items request (adapter.scope listing) adapter.cursorKeys cursor now =
          .ok page := by
  simp only [list, bind_eq_ok, orElse_eq_ok, exists_unit, DnsPageRequest.validate_eq_ok]

end CloudflareDnsAdapter

end EdgionCenter.Cloudflare
