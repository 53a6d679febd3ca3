import EdgionCenter.Text
import Mathlib.Data.Finset.Card

/-! Types shared by the runtime and its adapters. -/
namespace EdgionCenter

/-- A `HashMap` or `BTreeMap` with string keys, up to its contents; where code iterates over a
`HashMap`, the order is a separate argument. -/
abbrev Map (T : Type) := Std.ExtTreeMap String T

inductive CoreError
  | invalidIdentifier (kind value : String)
  | conflict (message : String)
  | notFound (message : String)
  | unsupported (capability : String)
  | adapter (message : String)
  deriving DecidableEq

/-- `Display`. -/
def CoreError.display : CoreError → String
  | .invalidIdentifier kind value => "invalid " ++ kind ++ " identifier: " ++ debugStr value
  | .conflict message => "conflict: " ++ message
  | .notFound message => "not found: " ++ message
  | .unsupported capability => "unsupported capability: " ++ capability
  | .adapter message => "adapter error: " ++ message

abbrev CoreResult := Except CoreError

structure OwnershipFence where
  token : String
  epoch : Nat
  deriving DecidableEq

inductive CoordinationRole
  | controllerOwner (id : String)
  | maintenance (name : String)
  deriving DecidableEq

structure Leadership where
  role : CoordinationRole
  holder : String
  fencingToken : String
  fencingEpoch : Nat
  validForMillis : Nat
  deriving DecidableEq

/-- The fence a session registers under. -/
def Leadership.fence (l : Leadership) : OwnershipFence := ⟨l.fencingToken, l.fencingEpoch⟩

inductive RenewalOutcome
  | renewed (leadership : Leadership)
  | lost
  deriving DecidableEq

inductive ReleaseOutcome
  | released
  | lost
  deriving DecidableEq

namespace Authz

/-- An authenticated identity. -/
structure Principal where
  subject : String
  provider : String
  issuer : Option String
  groups : List String
  deriving DecidableEq

inductive ActionOperation
  | list
  | get
  | create
  | update
  | delete
  | execute
  deriving DecidableEq

structure Action where
  permission : String
  controllerId : Option String
  operation : Option ActionOperation
  requestPath : Option String
  requestVerb : Option String
  deriving DecidableEq

/-- The outcome of an authorization. -/
structure Decision where
  allowed : Bool
  reason : Option String
  deriving DecidableEq

def Decision.allow : Decision := ⟨true, none⟩

def Decision.deny (reason : String) : Decision := ⟨false, some reason⟩

end Authz

end EdgionCenter
