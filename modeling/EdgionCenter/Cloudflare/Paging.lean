import EdgionCenter.Cloudflare.Cursor

/-! Following the cursors of Cloudflare's inventories, over changes of keys and replicas. -/
namespace EdgionCenter.Cloudflare

open Fallible Paging

section Clocks

variable {Key : Type}

end Clocks

namespace CloudflareDnsAdapter

variable {Key T : Type} [Platform] [Hmac Key] [Serialize (List T)]

variable {adapter adapter' : CloudflareDnsAdapter Key} {listing listing' : Listing} {key : Key}
  {center : CloudResourceId} {external : String} {items : List T} {limit : UInt16}
  {now now' : UInt64} {offset : Nat} {token : DnsPageToken} {request : DnsPageRequest}

variable [Deserialize Cursor]

/-! ### Following the tokens -/

/-- A token that a page came with, and that is accepted with another request. -/
theorem accepted_token {T' : Type} [Serialize (List T')] (hkeys : KeySeparating Key)
    {items' : List T'} {request' : DnsPageRequest} {page : DnsPage T} {page' : DnsPage T'}
    (h : adapter.list listing items now request = .ok page) (hnext : page.next = some token)
    (htoken : request'.token = some token)
    (h' : adapter'.list listing' items' now' request' = .ok page') :
    request'.limit = request.limit ∧
      adapter.scope listing adapter.cursorKeys.active =
        adapter'.scope listing' adapter.cursorKeys.active ∧
      tagOf items adapter.cursorKeys.active = tagOf items' adapter.cursorKeys.active := by
  obtain ⟨-, -, cursor₀, -, hpage⟩ := list_eq_ok.mp h
  obtain ⟨hsize, key, offset, hkey, -, -, -, hissue, -⟩ := paginate_eq_ok.mp hpage
  rw [hnext] at hissue
  obtain ⟨-, cursor, hvalue, -, hscope, -, hlimit, htag, -⟩ :=
    (nextToken_eq_some hsize hkey).mp hissue
  obtain ⟨-, -, cursor', hdecode, hpage'⟩ := list_eq_ok.mp h'
  simp only [decodeCursor, htoken, map_eq_ok] at hdecode
  obtain ⟨verified, hverified, rfl⟩ := hdecode
  obtain ⟨found, hfound, -, hscope', hlimit', -, -, rfl⟩ :=
    (verifyCursor_issued hvalue).mp hverified
  obtain ⟨-, key', offset', hkey', hstart, -⟩ := paginate_eq_ok.mp hpage'
  obtain ⟨rfl, hactive⟩ | ⟨rfl, hfallback⟩ := (verifying_eq_some hkeys).mp hfound
  · obtain rfl : key' = adapter.cursorKeys.active := by
      rw [← hactive]
      exact (Option.some.inj hkey').symm
    exact ⟨hlimit'.symm.trans hlimit, hscope.symm.trans hscope', htag.symm.trans hstart.1⟩
  · obtain rfl : key' = adapter.cursorKeys.active :=
      Option.some.inj (hkey'.symm.trans hfallback)
    exact ⟨hlimit'.symm.trans hlimit, hscope.symm.trans hscope', htag.symm.trans hstart.1⟩

end CloudflareDnsAdapter

end EdgionCenter.Cloudflare
