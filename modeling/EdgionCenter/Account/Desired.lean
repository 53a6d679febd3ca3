import EdgionCenter.Cloud.Account
import EdgionCenter.Lib.Linearizable

/-! What is stored of a provider account, and the register that a store of it is to be. -/
namespace EdgionCenter

open Fallible

section Desired

/-- The largest `i64`. -/
def maxProviderAccountGeneration : Nat := 9223372036854775807

structure ProviderAccountDesired where
  displayName : String
  owner : Option String
  labels : List (String × String)
  managementPolicy : ManagementPolicy
  deletionPolicy : DeletionPolicy
  spec : ProviderAccountSpec
  deriving DecidableEq

/-- `serde_json` at the desired state. What was written is read back. -/
class DesiredJson where
  toString : ProviderAccountDesired → String
  fromStr : String → Except String ProviderAccountDesired
  fromStr_toString : ∀ desired, fromStr (toString desired) = .ok desired

/-- No text is longer than `usize::MAX`. -/
def CredentialRef.validate (ref : CredentialRef) : CoreResult Unit :=
  require (validText (utf8Len ref.value.toList) ref.value = true)
    (.invalidIdentifier "credential reference" ref.value)

def CredentialSource.credentialRefs : CredentialSource → List CredentialRef
  | .staticSecret credentialRef => [credentialRef]
  | .ambient => []
  | .federated subjectTokenRef _ _ => subjectTokenRef.toList
  | .assumeIdentity baseCredentialRef _ externalIdRef =>
    baseCredentialRef.toList ++ externalIdRef.toList

/-- `validate_text` of the desired state, which lets some texts be empty. -/
def validateDesiredText (value kind : String) (maxBytes : Nat) (allowEmpty : Bool) :
    CoreResult Unit :=
  require ((allowEmpty = true ∨ value ≠ "") ∧ utf8Len value.toList ≤ maxBytes ∧ trim value = value ∧
    value.toList.any isControl = false) (.conflict (kind ++ " is invalid"))

def validateOwner : Option String → CoreResult Unit
  | some owner => validateDesiredText owner "provider account owner" 256 false
  | none => .ok ()

def validateLabel (label : String × String) : CoreResult Unit := do
  validateDesiredText label.1 "provider account label key" 128 false
  validateDesiredText label.2 "provider account label value" 256 true

def validateCredentialRef (ref : CredentialRef) : CoreResult Unit := do
  ref.validate
  require (utf8Len ref.value.toList ≤ 512)
    (.conflict "provider account credential reference is too long")

variable [DesiredJson]

def ProviderAccountDesired.validate (desired : ProviderAccountDesired) : CoreResult Unit := do
  validateDesiredText desired.displayName "provider account display name" 256 false
  validateOwner desired.owner
  require (desired.labels.length ≤ 64) (.conflict "provider account has too many labels")
  let _ ← desired.labels.mapM validateLabel
  require (desired.deletionPolicy = .retain)
    (.conflict "provider account deletion policy must retain the provider account")
  desired.spec.validate
  let _ ← desired.spec.credentialSource.credentialRefs.mapM validateCredentialRef
  require (utf8Len (DesiredJson.toString desired).toList ≤ 65536)
    (.conflict "provider account desired state exceeds its persistence limit")

/-- The account with a desired state at a generation. -/
def accountOf (id : CloudResourceId) (generation : Nat) (desired : ProviderAccountDesired) :
    ProviderAccount where
  metadata := ⟨id, desired.displayName, desired.owner, desired.labels, generation,
    desired.managementPolicy, desired.deletionPolicy⟩
  spec := desired.spec

def ProviderAccountDesired.fromAccount (account : ProviderAccount) : ProviderAccountDesired where
  displayName := account.metadata.displayName
  owner := account.metadata.owner
  labels := account.metadata.labels
  managementPolicy := account.metadata.managementPolicy
  deletionPolicy := account.metadata.deletionPolicy
  spec := account.spec

/-- The status is empty, which is valid at every positive generation. -/
def validateProviderAccount (account : ProviderAccount) : CoreResult Unit := do
  require (trim account.metadata.displayName ≠ "" ∧ account.metadata.generation ≠ 0)
    (.conflict ("provider account " ++ account.metadata.id.value ++ " has invalid metadata"))
  account.spec.validate

def validateStoredProviderAccount (account : ProviderAccount) : CoreResult Unit := do
  account.metadata.id.validate
  require (account.metadata.generation ≠ 0 ∧
    account.metadata.generation ≤ maxProviderAccountGeneration)
    (.conflict "stored provider account generation is outside the persistence range")
  (ProviderAccountDesired.fromAccount account).validate
  validateProviderAccount account

def providerAccountFromDesired (id : CloudResourceId) (generation : Nat)
    (desired : ProviderAccountDesired) : CoreResult ProviderAccount := do
  id.validate
  desired.validate
  require (generation ≠ 0 ∧ generation ≤ maxProviderAccountGeneration)
    (.conflict "provider account generation is outside the persistence range")
  let account := accountOf id generation desired
  validateStoredProviderAccount account
  return account

variable {id : CloudResourceId} {generation : Nat} {desired : ProviderAccountDesired}

omit [DesiredJson] in
@[simp] theorem fromAccount_accountOf :
    ProviderAccountDesired.fromAccount (accountOf id generation desired) = desired := rfl

/-- What an account can be stored as. -/
structure Storable (id : CloudResourceId) (generation : Nat) (desired : ProviderAccountDesired) :
    Prop where
  id : id.validate = .ok ()
  desired : desired.validate = .ok ()
  positive : generation ≠ 0
  bounded : generation ≤ maxProviderAccountGeneration

theorem Storable.validateStored (h : Storable id generation desired) :
    validateStoredProviderAccount (accountOf id generation desired) = .ok () := by
  have hparts := h.desired
  simp only [ProviderAccountDesired.validate, validateDesiredText, bind_eq_ok, require_eq_ok,
    exists_unit] at hparts
  obtain ⟨⟨hname, _, htrim, _⟩, _, _, _, _, _, hspec, _⟩ := hparts
  have hname : trim desired.displayName ≠ "" := by simpa [htrim] using hname
  simp only [validateStoredProviderAccount, validateProviderAccount, fromAccount_accountOf,
    h.desired]
  simp [accountOf, h.id, hname, h.positive, hspec, h.bounded]

/-- An account is made of a desired state exactly if it can be stored. -/
theorem providerAccountFromDesired_eq_ok {account : ProviderAccount} :
    providerAccountFromDesired id generation desired = .ok account ↔
      Storable id generation desired ∧ account = accountOf id generation desired := by
  constructor
  · intro h
    simp only [providerAccountFromDesired, bind_eq_ok, exists_unit, require_eq_ok, pure_eq_ok] at h
    obtain ⟨hid, hdesired, ⟨hpositive, hbounded⟩, _, rfl⟩ := h
    exact ⟨⟨hid, hdesired, hpositive, hbounded⟩, rfl⟩
  · rintro ⟨h, rfl⟩
    simp [providerAccountFromDesired, h.id, h.desired, h.positive, h.bounded, h.validateStored]

end Desired

section Register

open Linearizable

inductive AccountOp
  | create (desired : ProviderAccountDesired)
  | get
  | replace (expected : Nat) (desired : ProviderAccountDesired)

/-- What a call reports. The two result types of the source are one type here, with the result of
`get`. -/
inductive AccountResult
  | created (account : ProviderAccount)
  | alreadyExists
  | got (account : Option ProviderAccount)
  | stored (account : ProviderAccount)
  | notFound
  | generationMismatch (actualGeneration : Nat)
  deriving DecidableEq

/-- The register that starts absent, is created at generation one, and is replaced at the generation
it has. -/
def accountRegister (id : CloudResourceId) :
    Object (Option ProviderAccount) AccountOp AccountResult where
  init := none
  apply
    | none, .create desired =>
      (some (accountOf id 1 desired), .created (accountOf id 1 desired))
    | some account, .create _ => (some account, .alreadyExists)
    | stored, .get => (stored, .got stored)
    | none, .replace _ _ => (none, .notFound)
    | some account, .replace expected desired =>
      if account.metadata.generation = expected then
        (some (accountOf id (expected + 1) desired), .stored (accountOf id (expected + 1) desired))
      else (some account, .generationMismatch account.metadata.generation)

/-- The callers of a store and the statements it runs for them. -/
inductive AccountLabel (I : Type)
  | call (i : I) (op : AccountOp)
  /-- The next statement of the call. -/
  | run (i : I)
  /-- The connection breaks at the next statement, which was carried out or not. -/
  | broken (i : I) (carriedOut : Bool)
  | ret (i : I) (out : CoreResult AccountResult)
  /-- Another client writes something else of the object. -/
  | touch

def AccountLabel.see {I : Type} :
    AccountLabel I → Option (Action I AccountOp AccountResult CoreError)
  | .call i op => some (.call i op)
  | .ret i out => some (.ret i out)
  | .run _ | .broken _ _ | .touch => none

/-- A conflict is the report that nothing was changed. -/
def CoreError.IsConflict (e : CoreError) : Prop := ∃ message, e = .conflict message

end Register

end EdgionCenter
