import EdgionCenter.Cloud.RecordSet
import EdgionCenter.Lib.Base64
import EdgionCenter.Lib.Paging

/-! Pages of a provider's inventory, and what their tokens are made of. -/
namespace EdgionCenter

open Fallible

structure DnsPageRequest where
  limit : UInt16
  token : Option DnsPageToken

def maxPageSize : UInt16 := 1000

def DnsPageRequest.validate (request : DnsPageRequest) : CoreResult Unit := do
  require (request.limit ≠ 0 ∧ request.limit ≤ maxPageSize) (.conflict "DNS page size is invalid")
  OpaqueId.validateOptional request.token

/-- The lengths that a `Vec` can have are below this. -/
def vecBound : Nat := 9223372036854775808

structure DnsPage (T : Type) where
  items : List T
  next : Option DnsPageToken

def DnsPage.validate {T : Type} (page : DnsPage T) (requestedLimit : UInt16)
    (validateItem : T → CoreResult Unit) : CoreResult Unit := do
  require (requestedLimit ≠ 0 ∧ requestedLimit ≤ maxPageSize ∧
    page.items.length ≤ requestedLimit.toNat) (.conflict "DNS response page size is invalid")
  OpaqueId.validateOptional page.next
  page.items.forM validateItem

/-- A page as a traversal sees it. -/
def DnsPage.parts {T : Type} (page : DnsPage T) : List T × Option DnsPageToken :=
  (page.items, page.next)

theorem DnsPageRequest.validate_eq_ok {request : DnsPageRequest} :
    request.validate = .ok () ↔ request.limit ≠ 0 ∧ request.limit ≤ maxPageSize := by
  simp [validate]

theorem DnsPage.validate_eq_ok {T : Type} {page : DnsPage T} {limit : UInt16} :
    page.validate limit (fun _ => .ok ()) = .ok () ↔
      limit ≠ 0 ∧ limit ≤ maxPageSize ∧ page.items.length ≤ limit.toNat := by
  have hitems : ∀ items : List T,
      items.forM (fun _ => (.ok () : CoreResult Unit)) = .ok () := by
    intro items
    induction items with
    | nil => rfl
    | cons _ _ ih => exact ih
  simp [validate, hitems]

end EdgionCenter
