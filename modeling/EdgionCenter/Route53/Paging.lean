import EdgionCenter.Route53.Cursor

/-! Following the page tokens of the Route 53 adapter. -/
namespace EdgionCenter.Route53

open Fallible JsonText Paging

section Pages

variable {Key T : Type} [Hmac Key] [Sha256Base64 (List T)] {items : List T} {scope : CursorScope}
  {key : Key} {stop : Nat} {token : DnsPageToken}

/-- A token for the items from `stop` on. -/
def Issued (items : List T) (scope : CursorScope) (key : Key) (stop : Nat)
    (token : DnsPageToken) : Prop :=
  token.value = signToken
    (⟨1, scope, UInt64.ofNat stop, Sha256Base64.text items⟩ : CursorToken) key .inventoryCursor

omit [Sha256Base64 (List T)] in
theorem pageEnd_eq (hvec : items.length < vecBound) (offset : Nat) (limit : UInt16) :
    pageEnd items offset limit = min (offset + limit.toNat) items.length := by
  have hbig : 9223372036854775808 ≤ UInt64.size - 1 := by decide
  unfold pageEnd vecBound at *
  omega

theorem nextToken_eq_some : nextToken items scope key stop = .ok (some token) ↔
    stop < items.length ∧ Issued items scope key stop token := by
  unfold nextToken Issued
  split_ifs with hstop
  · simp only [map_eq_ok, orElse_eq_ok, OpaqueId.new_eq_ok, Option.some.injEq]
    constructor
    · rintro ⟨_, hvalue, rfl⟩
      exact ⟨hstop, hvalue⟩
    · rintro ⟨-, hvalue⟩
      exact ⟨token, hvalue, rfl⟩
  · simp [hstop]

variable {c : Char}

/-- The parts of a scope are not too long for a token. -/
structure Fits (scope : CursorScope) : Prop where
  center : utf8Len (string scope.centerAccountId.toList) ≤ 1026
  aws : utf8Len (string scope.awsAccountId.toList) ≤ 26
  method : utf8Len scope.method.json ≤ 200

variable [Deserialize CursorToken]

/-- Where a page starts: at the beginning, or where a token for the same inventory says. -/
def StartsAt (items : List T) (scope : CursorScope) (key : Key) (offset : Nat) :
    Option DnsPageToken → Prop
  | none => offset = 0
  | some token => offset < items.length ∧ Issued items scope key offset token

theorem paginate_eq_ok {request : DnsPageRequest} {page : DnsPage T}
    (hvec : items.length < vecBound) : paginate items request scope key = .ok page ↔
      (request.limit ≠ 0 ∧ request.limit ≤ maxPageSize) ∧
      ∃ offset, cursorOffset items scope key request.token = .ok offset ∧
        nextToken items scope key (min (offset + request.limit.toNat) items.length) =
          .ok page.next ∧
        page.items = (items.drop offset).take request.limit.toNat := by
  have htake : ∀ offset, (items.drop offset).take
      (min (offset + request.limit.toNat) items.length - offset) =
        (items.drop offset).take request.limit.toNat := by
    intro offset
    rw [List.take_eq_take_iff, List.length_drop]
    omega
  simp only [paginate, bind_eq_ok, orElse_eq_ok, exists_unit, pure_eq_ok, DnsPage.validate_eq_ok,
    pageEnd_eq hvec, htake]
  constructor
  · rintro ⟨offset, hoffset, next, hnext, ⟨hzero, hmax, -⟩, rfl⟩
    exact ⟨⟨hzero, hmax⟩, offset, hoffset, hnext, rfl⟩
  · rintro ⟨⟨hzero, hmax⟩, offset, hoffset, hnext, hitems⟩
    refine ⟨offset, hoffset, page.next, hnext, ⟨hzero, hmax, ?_⟩, ?_⟩
    · rw [List.length_take]
      exact min_le_left _ _
    · rw [← hitems]

end Pages

namespace Route53DnsAdapter

variable {Key T : Type} [Platform] [Hmac Key] [Sha256Base64 (List T)]
  {adapter adapter' : Route53DnsAdapter Key} {listing listing' : Listing} {items : List T}

/-- The adapter takes requests of this kind. -/
def Admits (adapter : Route53DnsAdapter Key) : Listing → Prop
  | .zones account => account.validate = .ok () ∧ account = adapter.centerAccountId
  | .records zone => adapter.validateZoneRef zone = .ok ()

variable [Deserialize CursorToken] {page : DnsPage T} {request : DnsPageRequest}

theorem list_eq_ok : adapter.list listing items request = .ok page ↔
      adapter.Admits listing ∧ (request.limit ≠ 0 ∧ request.limit ≤ maxPageSize) ∧
        paginate items request (adapter.scope listing.method) adapter.cursorKey = .ok page := by
  cases listing with
  | zones account =>
    simp only [list, bind_eq_ok, orElse_eq_ok, require_eq_ok, exists_unit,
      DnsPageRequest.validate_eq_ok]
    constructor
    · rintro ⟨hvalid, hlimit, hcenter, hpage⟩
      exact ⟨⟨hvalid, hcenter⟩, hlimit, hpage⟩
    · rintro ⟨⟨hvalid, hcenter⟩, hlimit, hpage⟩
      exact ⟨hvalid, hlimit, hcenter, hpage⟩
  | records zone =>
    simp only [list, bind_eq_ok, orElse_eq_ok, exists_unit, DnsPageRequest.validate_eq_ok]
    exact Iff.rfl

/-- A token that a page came with, and that is accepted with another request. -/
theorem accepted_token {T' : Type} [Sha256Base64 (List T')] (hkeys : KeySeparating Key)
    {items' : List T'} {request' : DnsPageRequest} {page' : DnsPage T'} {token : DnsPageToken}
    (hvec : items.length < vecBound) (hvec' : items'.length < vecBound)
    (h : adapter.list listing items request = .ok page) (hnext : page.next = some token)
    (htoken : request'.token = some token) (h' : adapter'.list listing' items' request' = .ok page') :
    adapter.scope listing.method = adapter'.scope listing'.method ∧
      Sha256Base64.text items = Sha256Base64.text items' := by
  obtain ⟨-, -, hpage⟩ := list_eq_ok.mp h
  obtain ⟨-, offset, -, hissue, -⟩ := (paginate_eq_ok hvec).mp hpage
  rw [hnext] at hissue
  obtain ⟨-, hvalue⟩ := nextToken_eq_some.mp hissue
  obtain ⟨-, -, hpage'⟩ := list_eq_ok.mp h'
  obtain ⟨-, offset', hoffset, -⟩ := (paginate_eq_ok hvec').mp hpage'
  rw [htoken] at hoffset
  simp only [cursorOffset, bind_eq_ok, orElse_eq_ok, require_eq_ok, exists_unit] at hoffset
  obtain ⟨decoded, hdecoded, ⟨-, hscope, -⟩, hdigest, -⟩ := hoffset
  rw [hvalue] at hdecoded
  obtain ⟨-, rfl⟩ := (verifyToken_signToken hkeys (CursorToken.toVec_ne_nil _)).mp hdecoded
  exact ⟨hscope, hdigest⟩

end Route53DnsAdapter

end EdgionCenter.Route53
