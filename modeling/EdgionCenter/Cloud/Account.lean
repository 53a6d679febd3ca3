import EdgionCenter.Cloud.RecordSet

/-! Provider accounts: where a provider is reached, and with which credentials. -/
namespace EdgionCenter

open Fallible

inductive ManagementPolicy
  | managed
  | observeOnly
  deriving DecidableEq

inductive DeletionPolicy
  | retain
  | deleteExternal
  deriving DecidableEq

/-- A stable alias that a secret resolver knows. -/
structure CredentialRef where
  value : String
  deriving DecidableEq

inductive CredentialSource
  | staticSecret (credentialRef : CredentialRef)
  | ambient
  | federated (subjectTokenRef : Option CredentialRef) (targetPrincipal : String)
      (audience : Option String)
  | assumeIdentity (baseCredentialRef : Option CredentialRef) (targetPrincipal : String)
      (externalIdRef : Option CredentialRef)
  deriving DecidableEq

def validatePrincipal (principal : String) : CoreResult Unit :=
  require (trim principal ≠ "" ∧ trim principal = principal ∧ principal.toList.any isControl = false)
    (.conflict "credential target principal is invalid")

def CredentialSource.validate : CredentialSource → CoreResult Unit
  | .staticSecret _ | .ambient => .ok ()
  | .federated _ targetPrincipal audience => do
    validatePrincipal targetPrincipal
    require (∀ value ∈ audience, trim value ≠ "")
      (.conflict "federated credential audience must not be empty")
  | .assumeIdentity _ targetPrincipal _ => validatePrincipal targetPrincipal

def CredentialSource.isStaticSecret : CredentialSource → Bool
  | .staticSecret _ => true
  | _ => false

inductive ProviderAccountScope
  | cloudflare (accountId : String)
  | aws (accountId : String)
  deriving DecidableEq

def ProviderAccountScope.isCloudflare : ProviderAccountScope → Bool
  | .cloudflare _ => true
  | .aws _ => false

/-- Thirty-two lowercase hexadecimal digits, as `valid_cloudflare_identifier` has it. -/
def ProviderAccountScope.isHex32 (value : String) : Bool :=
  utf8Len value.toList == 32 && value.toList.all fun c => c.isDigit || ('a' ≤ c && c ≤ 'f')

def ProviderAccountScope.validateFor (scope : ProviderAccountScope) (provider : CloudProvider) :
    CoreResult Unit :=
  match scope with
  | .cloudflare accountId =>
    require (provider = .cloudflare ∧ isHex32 accountId = true)
      (.conflict "Cloudflare account ID is invalid")
  | .aws accountId =>
    require (provider = .aws ∧ utf8Len accountId.toList = 12 ∧ accountId.toList.all Char.isDigit = true)
      (.conflict "AWS account ID is invalid")

structure ProviderAccountSpec where
  provider : CloudProvider
  scope : Option ProviderAccountScope
  credentialSource : CredentialSource
  deriving DecidableEq

def ProviderAccountSpec.validate (spec : ProviderAccountSpec) : CoreResult Unit := do
  spec.credentialSource.validate
  match spec.scope with
  | some scope => scope.validateFor spec.provider
  | none => pure ()

structure CloudResourceMetadata where
  id : CloudResourceId
  displayName : String
  owner : Option String
  labels : List (String × String)
  generation : Nat
  managementPolicy : ManagementPolicy
  deletionPolicy : DeletionPolicy
  deriving DecidableEq

/-- The account as its store returns it. The store only keeps accounts whose status is empty, so the
status is left out. -/
structure ProviderAccount where
  metadata : CloudResourceMetadata
  spec : ProviderAccountSpec
  deriving DecidableEq

end EdgionCenter
