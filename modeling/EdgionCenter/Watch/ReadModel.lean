import EdgionCenter.Lib.Sorting
import EdgionCenter.Text
import EdgionCenter.Watch.Cache
import Mathlib.Data.Prod.Lex
import Mathlib.Data.String.Basic

/-! What the watch caches show to the read endpoints: rows without the configuration of any type
that is not known to hold no secrets. -/
namespace EdgionCenter

open Sorting

/-- The types whose configuration is shown. -/
def configPassthroughTypes : List String :=
  ["IpList", "KeyList", "Selector", "RegionRouteOverride", "ProxyProtocolTrust", "WafPolicy"]

structure ConfigDataEntry where
  controllerId : String
  ns : String
  name : String
  configType : String
  doc : Value

/-- A key without a slash is a name without a namespace. -/
def splitKey (key : String) : String × String := (splitOnce '/' key).getD ("", key)

def removeConfig : Value → Value
  | .object data => .object (Value.removeMember "config" data)
  | data => data

def redact (value : Value) (configType : String) : Value :=
  if configType ∈ configPassthroughTypes then value
  else value.modify ["spec", "data"] removeConfig

def buildEntry (controllerId key : String) (value : Value) : ConfigDataEntry where
  controllerId := controllerId
  ns := (splitKey key).1
  name := (splitKey key).2
  configType := CacheState.typeLabel value
  doc := redact value (CacheState.typeLabel value)

/-- No filter takes every type. -/
def ConfigDataEntry.Matches (typeFilter : Option String) (entry : ConfigDataEntry) : Prop :=
  ∀ wanted ∈ typeFilter, entry.configType = wanted

instance ConfigDataEntry.decidableMatches (typeFilter : Option String) :
    DecidablePred (ConfigDataEntry.Matches typeFilter) := fun entry =>
  inferInstanceAs (Decidable (∀ wanted ∈ typeFilter, entry.configType = wanted))

/-- The rows of one cache; `snapshot` lists its entries in the order of iteration. -/
def listEntries (controllerId : String) (typeFilter : Option String)
    (snapshot : List (String × Value)) : List ConfigDataEntry :=
  sortOn (fun entry : ConfigDataEntry => toLex (entry.ns, entry.name))
    ((snapshot.map fun e => buildEntry controllerId e.1 e.2).filter (·.Matches typeFilter))

/-- The rows of all caches. -/
def listAll (typeFilter : Option String) (caches : List (String × List (String × Value))) :
    List ConfigDataEntry :=
  sortOn (fun entry : ConfigDataEntry => toLex (entry.ns, toLex (entry.name, entry.controllerId)))
    (caches.flatMap fun cache => listEntries cache.1 typeFilter cache.2)

structure CacheStatus where
  syncVersion : Nat
  serverId : String
  revision : Nat
  stale : Bool
  overflowed : Bool
  lastAppliedUnixMs : Option Nat
  entryCount : Nat
  deriving DecidableEq

def CacheState.status {T : Type} (s : CacheState T) : CacheStatus where
  syncVersion := s.syncVersion
  serverId := s.serverId
  revision := s.revision
  stale := s.stale
  overflowed := s.overflowed
  lastAppliedUnixMs := s.lastAppliedUnixMs
  entryCount := s.data.size

end EdgionCenter
