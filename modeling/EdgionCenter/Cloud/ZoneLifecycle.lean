import EdgionCenter.Cloud.Account

/-! The lifecycle of a managed zone: what is observed of its DNSSEC. -/
namespace EdgionCenter

open Fallible

/-- The identifiers that the lifecycle's `opaque_id!` declares. -/
structure LifecycleId (kind : String) where
  value : String
  valid : validText 1024 value = true
  deriving DecidableEq

def LifecycleId.new (kind value : String) : CoreResult (LifecycleId kind) :=
  if h : validText 1024 value = true then .ok ⟨value, h⟩
  else .error (.invalidIdentifier kind value)

abbrev ZoneLifecycleRevision := LifecycleId "zone lifecycle revision"

section Dnssec

inductive DnssecDesiredState
  | disabled
  | enabled
  deriving DecidableEq

structure DnssecDsRecord where
  keyTag : UInt16
  algorithm : UInt8
  digestType : UInt8
  digest : String
  deriving DecidableEq

/-- The length of a digest, by its type. -/
def dsDigestLength (digestType : UInt8) : Option Nat :=
  if digestType = 1 then some 40
  else if digestType = 2 then some 64
  else if digestType = 4 then some 96
  else none

def isUpperHex (c : Char) : Bool := c.isDigit || ('A' ≤ c && c ≤ 'F')

def DnssecDsRecord.validate (record : DnssecDsRecord) : CoreResult Unit :=
  match dsDigestLength record.digestType with
  | none => .error (.conflict "DNSSEC DS digest type is unsupported")
  | some length =>
    require (utf8Len record.digest.toList = length ∧ record.digest.toList.all isUpperHex = true)
      (.conflict "DNSSEC DS digest must be upper-case hexadecimal")

inductive DnssecProviderState
  | unsupported
  | disabled
  | enabling
  | awaitingDs
  | active
  | disabling
  | awaitingDsRemoval
  | failed
  | unknown
  deriving DecidableEq

inductive DnssecExternalAction
  | publishDs (records : List DnssecDsRecord)
  | removeDs (keyTags : Finset UInt16)
  | waitForProviderActivation
  | none
  deriving DecidableEq

structure DnssecObservation where
  state : DnssecProviderState
  dsRecords : List DnssecDsRecord
  externalAction : DnssecExternalAction
  providerDetail : Option String
  deriving DecidableEq

end Dnssec

end EdgionCenter
