import EdgionCenter.Watch.MetaDataStore

/-! How a federation session handles the watch responses of its controller. Deserialising is a
parameter; what the handlers check of a deserialised batch is not. -/
namespace EdgionCenter

/-- `serde_json` at the types the handlers read; a raw body stays text until it is asked for. -/
structure Serde where
  list : ByteArray → Option (List Value)
  events : String → Option (List (String × String))
  value : String → Option Value

structure FedWatchRequest where
  requestId : String
  kind : String
  fromVersion : Nat
  deriving DecidableEq

structure FedWatchListResponse where
  requestId : String
  data : ByteArray
  syncVersion : Nat
  serverId : String

structure FedWatchEventResponse where
  requestId : String
  data : String
  syncVersion : Nat
  serverId : String
  error : String
  deriving DecidableEq

inductive WatchOutcome
  | applied
  | skipped
  | parseError
  | reWatch
  | backoffReWatch
  | terminal
  | overflow
  deriving DecidableEq

structure FedWatchState where
  kind : String
  requestId : String
  serverId : Option String
  consecutiveErrors : Nat
  terminated : Bool
  deriving DecidableEq

def edgionConfigData : String := "EdgionConfigData"

def initialWatchRequest (requestId : String) (fromVersion : Nat) : FedWatchRequest :=
  ⟨requestId, edgionConfigData, fromVersion⟩

namespace FedWatchState

def new (kind requestId : String) (serverId : Option String) : FedWatchState :=
  ⟨kind, requestId, serverId, 0, false⟩

/-- The state the stream loop starts with, over what the cache kept from earlier sessions. -/
def ofCache (requestId : String) (cache : CacheState Value) : FedWatchState :=
  new edgionConfigData requestId (if cache.serverId.isEmpty then none else some cache.serverId)

/-- `newId` is the generated request id. The server id is kept. -/
def reWatch (w : FedWatchState) (newId : String) : FedWatchState × FedWatchRequest :=
  ({ w with requestId := newId, consecutiveErrors := 0 }, ⟨newId, w.kind, 0⟩)

def terminate (w : FedWatchState) : FedWatchState := { w with terminated := true }

/-- What both handlers record of an applied response. -/
def accept (w : FedWatchState) (serverId : String) : FedWatchState :=
  { w with serverId := some serverId, consecutiveErrors := 0 }

/-- A response of another server instance than the one last accepted. -/
def serverChanged (w : FedWatchState) (serverId : String) : Bool :=
  match w.serverId with
  | none => false
  | some expected => expected ≠ serverId

theorem serverChanged_eq_false {w : FedWatchState} {serverId : String} :
    w.serverChanged serverId = false ↔ w.serverId = none ∨ w.serverId = some serverId := by
  unfold serverChanged
  cases w.serverId <;> simp

end FedWatchState

/-- What the key loop of `apply_watch_list` has gathered. -/
structure KeyedItems where
  keyed : List (String × Value)
  seenKeys : List String
  keylessCount : Nat
  duplicateCount : Nat

namespace KeyedItems

def empty : KeyedItems := ⟨[], [], 0, 0⟩

def push (b : KeyedItems) (item : Value) : KeyedItems :=
  match resourceKey item with
  | none => { b with keylessCount := b.keylessCount + 1 }
  | some key =>
    { b with
      keyed := b.keyed ++ [(key, item)]
      seenKeys := key :: b.seenKeys
      duplicateCount := if key ∈ b.seenKeys then b.duplicateCount + 1 else b.duplicateCount }

end KeyedItems

def EventType.ofWord : String → Option EventType
  | "add" => some .add
  | "update" => some .update
  | "delete" => some .delete
  | _ => none

/-- What the event loop of `apply_watch_event` has gathered. -/
structure ClassifiedEvents where
  events : List (WatchEventSimple Value)
  unknownTypeCount : Nat
  keylessCount : Nat
  bodyParseErrorCount : Nat

namespace ClassifiedEvents

def empty : ClassifiedEvents := ⟨[], 0, 0, 0⟩

def push (serde : Serde) (b : ClassifiedEvents) (raw : String × String) : ClassifiedEvents :=
  match EventType.ofWord raw.1 with
  | none => { b with unknownTypeCount := b.unknownTypeCount + 1 }
  | some eventType =>
    match serde.value raw.2 with
    | none => { b with bodyParseErrorCount := b.bodyParseErrorCount + 1 }
    | some item =>
      match resourceKey item with
      | none => { b with keylessCount := b.keylessCount + 1 }
      | some key => { b with events := b.events ++ [⟨eventType, key, item⟩] }

end ClassifiedEvents

section Handlers

variable (serde : Serde)

/-- The keyed items of a list response, unless it is malformed in any part. -/
def readList (data : ByteArray) : Option (List (String × Value)) :=
  match serde.list data with
  | none => none
  | some items =>
    let b := items.foldl KeyedItems.push .empty
    if b.keylessCount > 0 ∨ b.duplicateCount > 0 then none else some b.keyed

/-- The keyed events of an event response, unless it is malformed in any part. -/
def readEvents (data : String) : Option (List (WatchEventSimple Value)) :=
  match serde.events data with
  | none => none
  | some raws =>
    let b := raws.foldl (ClassifiedEvents.push serde) .empty
    if b.unknownTypeCount > 0 ∨ b.keylessCount > 0 ∨ b.bodyParseErrorCount > 0 then none
    else some b.events

/-- What a handler returns and leaves. -/
structure Handling where
  outcome : WatchOutcome
  watch : FedWatchState
  cache : CacheState Value

def applyWatchList (cid : String) (cache : CacheState Value) (watch : FedWatchState)
    (resp : FedWatchListResponse) (now : Nat) : Handling :=
  if resp.requestId ≠ watch.requestId then ⟨.skipped, watch, cache⟩
  else if watch.terminated then ⟨.skipped, watch, cache⟩
  else
    match readList serde resp.data with
    | none => ⟨.parseError, watch, cache⟩
    | some keyed =>
      let o := cache.replaceAll cid keyed resp.syncVersion resp.serverId now
      match o.result with
      | .overflow => ⟨.overflow, watch.terminate, o.state⟩
      | .applied => ⟨.applied, watch.accept resp.serverId, o.state⟩

def applyWatchEvent (cid : String) (cache : CacheState Value) (watch : FedWatchState)
    (resp : FedWatchEventResponse) (now : Nat) : Handling :=
  if resp.requestId ≠ watch.requestId then ⟨.skipped, watch, cache⟩
  else if watch.terminated then ⟨.skipped, watch, cache⟩
  else if resp.error ≠ "" then
    if resp.error = "Forbidden" then ⟨.terminal, watch.terminate, cache.setStale⟩
    else
      ⟨.backoffReWatch, { watch with consecutiveErrors := watch.consecutiveErrors + 1 }, cache⟩
  else if watch.serverChanged resp.serverId then ⟨.reWatch, watch, cache⟩
  else
    match readEvents serde resp.data with
    | none => ⟨.parseError, watch, cache⟩
    | some events =>
      if cache.syncVersion > 0 ∧ resp.syncVersion ≤ cache.syncVersion then
        ⟨.reWatch, watch, cache⟩
      else if events.isEmpty then ⟨.applied, watch.accept resp.serverId, cache⟩
      else
        let o := cache.applyEvents cid events resp.syncVersion resp.serverId now
        match o.result with
        | .overflow => ⟨.overflow, watch.terminate, o.state⟩
        | .applied => ⟨.applied, watch.accept resp.serverId, o.state⟩

/-- Where the stream loop goes on after a response was handled. -/
inductive WatchPhase
  | listening
  | backingOff
  | reWatching
  | stopped
  deriving DecidableEq

def afterList : WatchOutcome → WatchPhase
  | .parseError => .backingOff
  | _ => .listening

def afterEvent : WatchOutcome → WatchPhase
  | .backoffReWatch | .parseError => .backingOff
  | .reWatch => .reWatching
  | _ => .listening

/-- A frame of the controller that the watch arms of the loop take. -/
inductive WatchFrame
  | list (resp : FedWatchListResponse)
  | event (resp : FedWatchEventResponse)

def WatchFrame.requestId : WatchFrame → String
  | .list resp => resp.requestId
  | .event resp => resp.requestId

def handleFrame (cid : String) (cache : CacheState Value) (watch : FedWatchState) (now : Nat) :
    WatchFrame → Handling
  | .list resp => applyWatchList serde cid cache watch resp now
  | .event resp => applyWatchEvent serde cid cache watch resp now

def afterFrame (outcome : WatchOutcome) : WatchFrame → WatchPhase
  | .list _ => afterList outcome
  | .event _ => afterEvent outcome

end Handlers

section Reading

variable {serde : Serde} {entries : List (String × Value)} {events : List (WatchEventSimple Value)}
  {raws : List (String × String)}

/-- The items of a batch whose keys are given, in the order of the batch. -/
theorem foldl_push_keyed (b : KeyedItems) (hk : ∀ e ∈ entries, resourceKey e.2 = some e.1)
    (hd : (entries.map Prod.fst).Nodup) (hs : ∀ e ∈ entries, e.1 ∉ b.seenKeys) :
    (entries.map Prod.snd).foldl KeyedItems.push b =
      { b with
        keyed := b.keyed ++ entries
        seenKeys := (entries.map Prod.fst).reverse ++ b.seenKeys } := by
  induction entries generalizing b with
  | nil => simp
  | cons e entries ih =>
    obtain ⟨key, item⟩ := e
    rw [List.map_cons, List.nodup_cons] at hd
    have hkey : resourceKey item = some key := hk (key, item) (by simp)
    have hnew : key ∉ b.seenKeys := hs (key, item) (by simp)
    have hpush : b.push item =
        { b with keyed := b.keyed ++ [(key, item)], seenKeys := key :: b.seenKeys } := by
      simp [KeyedItems.push, hkey, hnew]
    rw [List.map_cons, List.foldl_cons, hpush, ih]
    · simp
    · intro e he
      exact hk e (by simp [he])
    · exact hd.2
    · intro e he hmem
      rcases List.mem_cons.mp hmem with rfl | hmem
      · exact hd.1 (List.mem_map.mpr ⟨e, he, rfl⟩)
      · exact hs e (by simp [he]) hmem

/-- A list of documents with keys of their own is read as it is. -/
theorem readList_of_keyed {data : ByteArray} (h : serde.list data = some (entries.map Prod.snd))
    (hk : ∀ e ∈ entries, resourceKey e.2 = some e.1) (hd : (entries.map Prod.fst).Nodup) :
    readList serde data = some entries := by
  unfold readList
  rw [h]
  have hfold := foldl_push_keyed .empty hk hd (by simp [KeyedItems.empty])
  simp only [hfold]
  simp [KeyedItems.empty]

def EventType.word : EventType → String
  | .add => "add"
  | .update => "update"
  | .delete => "delete"

theorem EventType.ofWord_word (t : EventType) : ofWord t.word = some t := by
  cases t <;> rfl

/-- A raw event as a controller writes it. -/
def Serde.Encodes (serde : Serde) (raw : String × String) (e : WatchEventSimple Value) : Prop :=
  raw.1 = e.eventType.word ∧ serde.value raw.2 = some e.data

theorem push_of_encodes {raw : String × String} {e : WatchEventSimple Value} (b : ClassifiedEvents)
    (h : serde.Encodes raw e) (hk : resourceKey e.data = some e.key) :
    b.push serde raw = { b with events := b.events ++ [e] } := by
  simp [ClassifiedEvents.push, h.1, h.2, hk, EventType.ofWord_word]

theorem foldl_push_events (b : ClassifiedEvents) (h : List.Forall₂ serde.Encodes raws events)
    (hk : ∀ e ∈ events, resourceKey e.data = some e.key) :
    raws.foldl (ClassifiedEvents.push serde) b = { b with events := b.events ++ events } := by
  induction h generalizing b with
  | nil => simp
  | cons he _ ih =>
    rw [List.foldl_cons, push_of_encodes b he (hk _ (by simp)), ih]
    · simp
    · intro e hmem
      exact hk e (by simp [hmem])

/-- A batch of well-formed events is read as it is. -/
theorem readEvents_of_encodes {data : String} (h : serde.events data = some raws)
    (he : List.Forall₂ serde.Encodes raws events)
    (hk : ∀ e ∈ events, resourceKey e.data = some e.key) : readEvents serde data = some events := by
  unfold readEvents
  rw [h]
  have hfold := foldl_push_events .empty he hk
  simp only [hfold]
  simp [ClassifiedEvents.empty]

end Reading

section Handling

variable {serde : Serde} {cid : String} {cache : CacheState Value} {watch : FedWatchState}
  {now : Nat} {frame : WatchFrame} {resp : FedWatchEventResponse}

theorem handleFrame_of_ne (h : frame.requestId ≠ watch.requestId) :
    handleFrame serde cid cache watch now frame = ⟨.skipped, watch, cache⟩ := by
  cases frame with
  | list resp | event resp => exact if_pos h

theorem handleFrame_of_terminated (h : watch.terminated = true) :
    handleFrame serde cid cache watch now frame = ⟨.skipped, watch, cache⟩ := by
  cases frame <;> simp [handleFrame, applyWatchList, applyWatchEvent, h]

theorem afterFrame_skipped (frame : WatchFrame) : afterFrame .skipped frame = .listening := by
  cases frame <;> rfl

theorem applyWatchList_of_read {resp : FedWatchListResponse} {keyed : List (String × Value)}
    (hid : resp.requestId = watch.requestId) (hlive : watch.terminated = false)
    (hread : readList serde resp.data = some keyed) :
    applyWatchList serde cid cache watch resp now =
      if maxEntriesPerController < keyed.length then
        ⟨.overflow, watch.terminate, cache.reject.state⟩
      else
        ⟨.applied, watch.accept resp.serverId,
          cache.commit (Std.ExtTreeMap.ofList keyed) resp.syncVersion resp.serverId now⟩ := by
  by_cases h : maxEntriesPerController < keyed.length
  · simp [applyWatchList, hid, hlive, hread, CacheState.replaceAll, CacheState.reject, h]
  · simp [applyWatchList, hid, hlive, hread, CacheState.replaceAll, h]

theorem applyWatchEvent_of_read {events : List (WatchEventSimple Value)}
    (hid : resp.requestId = watch.requestId) (hlive : watch.terminated = false)
    (herror : resp.error = "") (hserver : watch.serverChanged resp.serverId = false)
    (hread : readEvents serde resp.data = some events) :
    applyWatchEvent serde cid cache watch resp now =
      if cache.syncVersion > 0 ∧ resp.syncVersion ≤ cache.syncVersion then
        ⟨.reWatch, watch, cache⟩
      else if events.isEmpty then ⟨.applied, watch.accept resp.serverId, cache⟩
      else if maxEntriesPerController < cache.projectedLen events then
        ⟨.overflow, watch.terminate, cache.reject.state⟩
      else
        ⟨.applied, watch.accept resp.serverId,
          cache.commit (cache.sortEvents events).data resp.syncVersion resp.serverId now⟩ := by
  by_cases h : maxEntriesPerController < cache.projectedLen events
  · simp [applyWatchEvent, hid, hlive, herror, hserver, hread, CacheState.applyEvents,
      CacheState.reject, h]
  · simp [applyWatchEvent, hid, hlive, herror, hserver, hread, CacheState.applyEvents, h]

theorem applyWatchEvent_of_server_ne (hid : resp.requestId = watch.requestId)
    (hlive : watch.terminated = false) (herror : resp.error = "")
    (hserver : watch.serverChanged resp.serverId = true) :
    applyWatchEvent serde cid cache watch resp now = ⟨.reWatch, watch, cache⟩ := by
  simp [applyWatchEvent, hid, hlive, herror, hserver]

end Handling

end EdgionCenter
