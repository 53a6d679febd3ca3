import EdgionCenter.Core
import EdgionCenter.Json

/-! One controller's watch cache: whole-batch application with a capacity check before it. -/
namespace EdgionCenter

inductive EventType
  | update
  | delete
  | add
  deriving DecidableEq

structure WatchEventSimple (T : Type) where
  eventType : EventType
  key : String
  data : T

inductive ApplyResult
  | applied
  | overflow
  deriving DecidableEq

class ConfigTyped (T : Type) where
  configType : T → Option String

/-- `/spec/data/type` of a document. -/
instance : ConfigTyped Value where
  configType value := (value.pointer ["spec", "data", "type"]).bind Value.asStr

def maxEntriesPerController : Nat := 10000

structure ChangeSummary where
  controllerId : String
  revision : Nat
  changedTypes : Finset String
  eventUnixMs : Nat
  deriving DecidableEq

structure CacheState (T : Type) where
  data : Map T
  syncVersion : Nat
  serverId : String
  revision : Nat
  stale : Bool
  overflowed : Bool
  lastAppliedUnixMs : Option Nat

/-- The handler call a batch makes once the lock on the state is released. -/
inductive HandlerCall (T : Type)
  | fullSet (data : Map T)
  | partialUpdate (add update remove : Map T)

/-- What a batch leaves: the state, the returned result, and what it sent on. -/
structure Outcome (T : Type) where
  state : CacheState T
  result : ApplyResult
  call : Option (HandlerCall T)
  summary : Option ChangeSummary

/-- What an event makes of the keys. -/
def projectKey {T : Type} (keys : Finset String) (e : WatchEventSimple T) : Finset String :=
  match e.eventType with
  | .add | .update => insert e.key keys
  | .delete => keys.erase e.key

namespace CacheState

variable {T : Type}

def new : CacheState T where
  data := ∅
  syncVersion := 0
  serverId := ""
  revision := 0
  stale := false
  overflowed := false
  lastAppliedUnixMs := none

def setStale (s : CacheState T) : CacheState T := { s with stale := true }

/-- The state of a batch refused for its size: contents and version stay. -/
def reject (s : CacheState T) : Outcome T where
  state := { s with overflowed := true, stale := true }
  result := .overflow
  call := none
  summary := none

/-- The bookkeeping both kinds of applied batch share. -/
def commit (s : CacheState T) (data : Map T) (syncVersion : Nat) (serverId : String) (now : Nat) :
    CacheState T where
  data := data
  syncVersion := syncVersion
  serverId := serverId
  revision := s.revision + 1
  stale := false
  overflowed := false
  lastAppliedUnixMs := some now

variable [ConfigTyped T]

def typeLabel (value : T) : String := (ConfigTyped.configType value).getD "Unknown"

def replaceAll (s : CacheState T) (controllerId : String) (items : List (String × T))
    (syncVersion : Nat) (serverId : String) (now : Nat) : Outcome T :=
  if maxEntriesPerController < items.length then s.reject
  else
    let newData := Std.ExtTreeMap.ofList items
    let state := s.commit newData syncVersion serverId now
    { state
      result := .applied
      call := some (.fullSet newData)
      summary := some
        { controllerId
          revision := state.revision
          changedTypes := ((s.data.values ++ newData.values).map typeLabel).toFinset
          eventUnixMs := now } }

/-- The maps the event loop of `apply_events` fills while it changes the data in place. -/
structure Sorted (T : Type) where
  data : Map T
  add : Map T
  update : Map T
  remove : Map T
  changedTypes : Finset String

def applyEvent (b : Sorted T) (e : WatchEventSimple T) : Sorted T :=
  match e.eventType with
  | .add =>
    { b with
      data := b.data.insert e.key e.data
      add := b.add.insert e.key e.data
      changedTypes := insert (typeLabel e.data) b.changedTypes }
  | .update =>
    { b with
      data := b.data.insert e.key e.data
      update := b.update.insert e.key e.data
      changedTypes := insert (typeLabel e.data) b.changedTypes }
  | .delete =>
    match b.data[e.key]? with
    | some old =>
      { b with
        data := b.data.erase e.key
        remove := b.remove.insert e.key old
        changedTypes := insert (typeLabel old) b.changedTypes }
    | none => b

omit [ConfigTyped T] in
/-- The number of entries the batch would leave, from the keys alone. -/
def projectedLen (s : CacheState T) (events : List (WatchEventSimple T)) : Nat :=
  (events.foldl projectKey s.data.keys.toFinset).card

def sortEvents (s : CacheState T) (events : List (WatchEventSimple T)) : Sorted T :=
  events.foldl applyEvent ⟨s.data, ∅, ∅, ∅, ∅⟩

def applyEvents (s : CacheState T) (controllerId : String) (events : List (WatchEventSimple T))
    (syncVersion : Nat) (serverId : String) (now : Nat) : Outcome T :=
  if maxEntriesPerController < s.projectedLen events then s.reject
  else
    let b := s.sortEvents events
    let state := s.commit b.data syncVersion serverId now
    { state
      result := .applied
      call := some (.partialUpdate b.add b.update b.remove)
      summary := some
        { controllerId
          revision := state.revision
          changedTypes := b.changedTypes
          eventUnixMs := now } }

end CacheState

/-- What a watch response does to the cache: a list, a batch of events, or a refusal. -/
inductive CacheWrite (T : Type)
  | replaceAll (items : List (String × T)) (syncVersion : Nat) (serverId : String) (now : Nat)
  | applyEvents (events : List (WatchEventSimple T)) (syncVersion : Nat) (serverId : String)
      (now : Nat)
  | setStale

def CacheWrite.apply {T : Type} [ConfigTyped T] (controllerId : String) (state : CacheState T) :
    CacheWrite T → CacheState T
  | .replaceAll items version server now =>
    (state.replaceAll controllerId items version server now).state
  | .applyEvents events version server now =>
    (state.applyEvents controllerId events version server now).state
  | .setStale => state.setStale

end EdgionCenter
