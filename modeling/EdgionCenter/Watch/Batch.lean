import EdgionCenter.Watch.Events
import EdgionCenter.Watch.Protocol

/-! What a batch leaves in the cache: a bounded fold of its events, and the version it reports. -/
namespace EdgionCenter

variable {T : Type}

section Fold

variable {key : String} {data : Map T} {e : WatchEventSimple T}
  {events : List (WatchEventSimple T)}

def foldEvents (data : Map T) (events : List (WatchEventSimple T)) : Map T :=
  events.foldl foldEvent data

theorem mem_toFinset_keys : key ∈ data.keys.toFinset ↔ key ∈ data := by
  rw [List.mem_toFinset, Std.ExtTreeMap.mem_keys]

theorem projectKey_keys : projectKey data.keys.toFinset e = (foldEvent data e).keys.toFinset := by
  ext key
  rw [mem_toFinset_keys]
  unfold projectKey foldEvent
  cases e.eventType with
  | add | update =>
    simp only [Finset.mem_insert, mem_toFinset_keys, Std.ExtTreeMap.mem_insert,
      Std.LawfulEqCmp.compare_eq_iff_eq]
    rw [eq_comm]
  | delete =>
    simp only [Finset.mem_erase, mem_toFinset_keys, Std.ExtTreeMap.mem_erase, ne_eq,
      Std.LawfulEqCmp.compare_eq_iff_eq]
    rw [eq_comm]

theorem foldl_projectKey :
    events.foldl projectKey data.keys.toFinset = (foldEvents data events).keys.toFinset := by
  induction events generalizing data with
  | nil => rfl
  | cons e events ih =>
    rw [List.foldl_cons, projectKey_keys, ih]
    rfl

theorem card_keys : data.keys.toFinset.card = data.size := by
  rw [List.toFinset_card_of_nodup data.nodup_keys, Std.ExtTreeMap.length_keys]

/-- The keys alone tell how many entries the fold leaves. -/
theorem projectedLen_eq (s : CacheState T) :
    s.projectedLen events = (foldEvents s.data events).size := by
  rw [← card_keys, ← foldl_projectKey]
  rfl

end Fold

section Bounded

open CacheState

variable [ConfigTyped T] {data : Map T} {events : List (WatchEventSimple T)} {label : String}

theorem applyEvent_foldEvent (b : Sorted T) (e : WatchEventSimple T) :
    (applyEvent b e).data = foldEvent b.data e := by
  ext1 key
  rw [applyEvent_data]
  unfold foldEvent
  cases e.eventType with
  | add | update => simp [Std.ExtTreeMap.getElem?_insert]
  | delete => simp [Std.ExtTreeMap.getElem?_erase]

theorem foldl_applyEvent_data (b : Sorted T) :
    (events.foldl applyEvent b).data = foldEvents b.data events := by
  induction events generalizing b with
  | nil => rfl
  | cons e events ih =>
    rw [List.foldl_cons, ih, applyEvent_foldEvent]
    rfl

theorem sortEvents_fold (s : CacheState T) :
    (s.sortEvents events).data = foldEvents s.data events :=
  foldl_applyEvent_data _

/-- The label is that of an inserted document, or of one that was there when it was deleted. -/
inductive Touched (data : Map T) (events : List (WatchEventSimple T)) (label : String) : Prop
  | inserted (e : WatchEventSimple T) : e ∈ events → e.eventType ≠ .delete →
    typeLabel e.data = label → Touched data events label
  | removed (front : List (WatchEventSimple T)) (e : WatchEventSimple T)
    (back : List (WatchEventSimple T)) (old : T) : events = front ++ e :: back →
    e.eventType = .delete → (foldEvents data front)[e.key]? = some old → typeLabel old = label →
    Touched data events label

theorem touched_nil : ¬ Touched data [] label := by
  rintro (⟨_, he, _, _⟩ | ⟨_, _, _, _, he, _, _, _⟩)
  · cases he
  · simp at he

/-- What one event touches. -/
def TouchedBy (data : Map T) (e : WatchEventSimple T) (label : String) : Prop :=
  (e.eventType ≠ .delete ∧ typeLabel e.data = label) ∨
    (e.eventType = .delete ∧ ∃ old, data[e.key]? = some old ∧ typeLabel old = label)

/-- What the first event touches, and then the others. -/
theorem touched_cons {e : WatchEventSimple T} : Touched data (e :: events) label ↔
      TouchedBy data e label ∨ Touched (foldEvent data e) events label := by
  constructor
  · rintro (⟨d, hd, htype, hlabel⟩ | ⟨front, d, back, old, heq, htype, hold, hlabel⟩)
    · rcases List.mem_cons.mp hd with rfl | hd
      · exact .inl (.inl ⟨htype, hlabel⟩)
      · exact .inr (.inserted d hd htype hlabel)
    · cases front with
      | nil =>
        cases heq
        exact .inl (.inr ⟨htype, old, hold, hlabel⟩)
      | cons f front =>
        cases heq
        exact .inr (.removed front d back old rfl htype hold hlabel)
  · rintro ((⟨htype, hlabel⟩ | ⟨htype, old, hold, hlabel⟩) | h)
    · exact .inserted e (by simp) htype hlabel
    · exact .removed [] e events old rfl htype hold hlabel
    · cases h with
      | inserted d hd htype hlabel => exact .inserted d (by simp [hd]) htype hlabel
      | removed front d back old heq htype hold hlabel =>
        exact .removed (e :: front) d back old (by rw [heq, List.cons_append]) htype hold hlabel

theorem mem_changedTypes_applyEvent (b : Sorted T) (e : WatchEventSimple T) :
    label ∈ (applyEvent b e).changedTypes ↔ label ∈ b.changedTypes ∨ TouchedBy b.data e label := by
  unfold applyEvent TouchedBy
  cases htype : e.eventType with
  | add | update => simp [or_comm, eq_comm]
  | delete => cases hold : b.data[e.key]? <;> simp [or_comm, eq_comm]

theorem mem_changedTypes (b : Sorted T) : label ∈ (events.foldl applyEvent b).changedTypes ↔
      label ∈ b.changedTypes ∨ Touched b.data events label := by
  induction events generalizing b with
  | nil => simp [touched_nil]
  | cons e events ih =>
    rw [List.foldl_cons, ih, mem_changedTypes_applyEvent, applyEvent_foldEvent, or_assoc,
      ← touched_cons]

/-- What a batch leaves: its fold, or the refusal of a fold that does not fit. -/
structure BoundedFold (s : CacheState T) (events : List (WatchEventSimple T)) (o : Outcome T) :
    Prop where
  overflow_iff : o.result = .overflow ↔ maxEntriesPerController < (foldEvents s.data events).size
  refused : o.result = .overflow →
    o.state = { s with stale := true, overflowed := true } ∧ o.summary = none
  applied : o.result = .applied →
    o.state.data = foldEvents s.data events ∧ o.state.revision = s.revision + 1 ∧
      ∃ summary, o.summary = some summary ∧ summary.revision = o.state.revision ∧
        ∀ label, label ∈ summary.changedTypes ↔ Touched s.data events label

theorem boundedFold_applyEvents (s : CacheState T) (cid : String)
    (events : List (WatchEventSimple T)) (syncVersion : Nat) (serverId : String) (now : Nat) :
    BoundedFold s events (s.applyEvents cid events syncVersion serverId now) := by
  unfold applyEvents
  rw [projectedLen_eq]
  split
  · next hover =>
    exact ⟨by simp [reject, hover], fun _ => ⟨rfl, rfl⟩, fun happlied => by cases happlied⟩
  · next hfits =>
    refine ⟨by simpa using hfits, fun hover => (by cases hover), fun _ => ⟨sortEvents_fold s, rfl, _, rfl, rfl, ?_⟩⟩
    intro label
    simpa [sortEvents] using mem_changedTypes ⟨s.data, ∅, ∅, ∅, ∅⟩

/-- The cache of a controller after some calls. -/
def CacheState.after (cid : String) (calls : List (CacheWrite T)) : CacheState T :=
  calls.foldl (CacheWrite.apply cid) new

omit [ConfigTyped T] in
theorem size_ofList_le (items : List (String × T)) :
    (Std.ExtTreeMap.ofList items : Map T).size ≤ items.length :=
  Std.ExtTreeMap.size_ofList_le

theorem size_apply_le {cid : String} {s : CacheState T} {call : CacheWrite T}
    (h : s.data.size ≤ maxEntriesPerController) :
    (call.apply cid s).data.size ≤ maxEntriesPerController := by
  cases call with
  | setStale => exact h
  | replaceAll items syncVersion serverId now =>
    change (s.replaceAll cid items syncVersion serverId now).state.data.size ≤ _
    unfold replaceAll
    split
    · exact h
    · next hfits =>
      have := size_ofList_le items
      simp only [commit]
      omega
  | applyEvents events syncVersion serverId now =>
    change (s.applyEvents cid events syncVersion serverId now).state.data.size ≤ _
    have hfold := boundedFold_applyEvents s cid events syncVersion serverId now
    cases hresult : (s.applyEvents cid events syncVersion serverId now).result with
    | overflow =>
      rw [(hfold.refused hresult).1]
      exact h
    | applied =>
      have hfits := hfold.overflow_iff
      rw [hresult] at hfits
      rw [(hfold.applied hresult).1]
      simpa using hfits

theorem size_after_le (cid : String) (calls : List (CacheWrite T)) :
    (after cid calls).data.size ≤ maxEntriesPerController := by
  have hrun : ∀ s : CacheState T, s.data.size ≤ maxEntriesPerController →
      (calls.foldl (CacheWrite.apply cid) s).data.size ≤ maxEntriesPerController := by
    induction calls with
    | nil => exact fun s h => h
    | cons call calls ih => exact fun s h => ih _ (size_apply_le h)
  exact hrun new (by simp [new])

/-- The cache never holds more than its capacity, and every batch is a bounded fold. -/
theorem batch_bounded_fold (cid : String) (calls : List (CacheWrite T)) :
    (after cid calls).data.size ≤ maxEntriesPerController ∧
      ∀ events syncVersion serverId now, BoundedFold (after cid calls) events
        ((after cid calls).applyEvents cid events syncVersion serverId now) :=
  ⟨size_after_le cid calls, fun _ _ _ _ => boundedFold_applyEvents _ _ _ _ _ _⟩

end Bounded

section Applied

variable {serde : Serde} {cid : String} {cache : CacheState Value} {watch : FedWatchState}
  {now : Nat} {frame : WatchFrame}

/-- The version and server that the loop reports once a frame is applied. -/
def WatchFrame.syncVersion : WatchFrame → Nat
  | .list resp => resp.syncVersion
  | .event resp => resp.syncVersion

def WatchFrame.serverId : WatchFrame → String
  | .list resp => resp.serverId
  | .event resp => resp.serverId

/-- The cache is at the version of the frame. -/
def WatchFrame.ShownBy (frame : WatchFrame) (cache : CacheState Value) : Prop :=
  cache.syncVersion = frame.syncVersion ∧ cache.serverId = frame.serverId ∧
    cache.stale = false ∧ cache.overflowed = false

/-- An event response that lists no event. -/
def WatchFrame.Empty (serde : Serde) : WatchFrame → Prop
  | .list _ => False
  | .event resp => readEvents serde resp.data = some []

theorem shown_of_applyWatchList {resp : FedWatchListResponse}
    (h : (applyWatchList serde cid cache watch resp now).outcome = .applied) :
    (WatchFrame.list resp).ShownBy (applyWatchList serde cid cache watch resp now).cache := by
  by_cases hid : resp.requestId = watch.requestId
  · cases hlive : watch.terminated with
    | true => simp [applyWatchList, hid, hlive] at h
    | false =>
      cases hread : readList serde resp.data with
      | none => simp [applyWatchList, hid, hlive, hread] at h
      | some keyed =>
        rw [applyWatchList_of_read hid hlive hread] at h ⊢
        split at h
        · cases h
        · next hfits =>
          rw [if_neg hfits]
          exact ⟨rfl, rfl, rfl, rfl⟩
  · simp [applyWatchList, hid] at h

/-- An applied event response was read, and its events were committed if there were any. -/
theorem applied_event_cases {resp : FedWatchEventResponse}
    (h : (applyWatchEvent serde cid cache watch resp now).outcome = .applied) :
    ∃ events, readEvents serde resp.data = some events ∧
      (applyWatchEvent serde cid cache watch resp now).cache =
        if events.isEmpty then cache
        else cache.commit (cache.sortEvents events).data resp.syncVersion resp.serverId now := by
  by_cases hid : resp.requestId = watch.requestId
  · cases hlive : watch.terminated with
    | true => simp [applyWatchEvent, hid, hlive] at h
    | false =>
      by_cases herror : resp.error = ""
      · cases hserver : watch.serverChanged resp.serverId with
        | true => simp [applyWatchEvent_of_server_ne hid hlive herror hserver] at h
        | false =>
          cases hread : readEvents serde resp.data with
          | none => simp [applyWatchEvent, hid, hlive, herror, hserver, hread] at h
          | some events =>
            refine ⟨events, rfl, ?_⟩
            rw [applyWatchEvent_of_read hid hlive herror hserver hread] at h ⊢
            grind
      · by_cases hforbidden : resp.error = "Forbidden"
        · simp [applyWatchEvent, hid, hlive, hforbidden] at h
        · simp [applyWatchEvent, hid, hlive, herror, hforbidden] at h
  · simp [applyWatchEvent, hid] at h

/-- An applied frame is shown by the cache, unless it was an event response without events that
found the cache at another version. -/
theorem applied_shown_iff (h : (handleFrame serde cid cache watch now frame).outcome = .applied) :
    frame.ShownBy (handleFrame serde cid cache watch now frame).cache ↔
      ¬ frame.Empty serde ∨ frame.ShownBy cache := by
  cases frame with
  | list resp =>
    have hempty : ¬ (WatchFrame.list resp).Empty serde := id
    exact ⟨fun _ => .inl hempty, fun _ => shown_of_applyWatchList h⟩
  | event resp =>
    obtain ⟨events, hread, hcache⟩ := applied_event_cases h
    have hempty : (WatchFrame.event resp).Empty serde ↔ events = [] := by
      rw [WatchFrame.Empty, hread, Option.some_inj]
    rw [handleFrame, hcache, hempty]
    cases events with
    | nil => simp
    | cons e events =>
      simp only [List.isEmpty_cons, Bool.false_eq_true, if_false, reduceCtorEq, not_false_eq_true,
        true_or, iff_true]
      exact ⟨rfl, rfl, rfl, rfl⟩

/-- The JSON text of an empty list. -/
def emptyText : String := "[]"

/-- Reads that text and no other. -/
def emptySerde : Serde where
  list data := if data.data = emptyText.toUTF8.data then some [] else none
  events text := if text = emptyText then some [] else none
  value _ := none

/-- The cache of a controller that was offline, at version five. -/
def offlineCache : CacheState Value :=
  { CacheState.new with syncVersion := 5, serverId := "s", stale := true }

def offlineWatch : FedWatchState := FedWatchState.ofCache "req-1" offlineCache

def emptyEvents : FedWatchEventResponse := ⟨"req-1", emptyText, 6, "s", ""⟩

/-- Version six is reported as applied, and the cache stays at version five and stale. -/
theorem emptyEvents_not_shown :
    (handleFrame emptySerde "ctrl-1" offlineCache offlineWatch 7 (.event emptyEvents)).outcome =
        .applied ∧
      ¬ (WatchFrame.event emptyEvents).ShownBy
        (handleFrame emptySerde "ctrl-1" offlineCache offlineWatch 7 (.event emptyEvents)).cache := by
  refine ⟨rfl, ?_⟩
  rintro ⟨hversion, -⟩
  exact absurd hversion (by decide)

def emptyList : FedWatchListResponse := ⟨"req-1", emptyText.toUTF8, 6, "s"⟩

theorem emptyList_shown :
    (handleFrame emptySerde "ctrl-1" offlineCache offlineWatch 7 (.list emptyList)).outcome =
        .applied ∧
      (WatchFrame.list emptyList).ShownBy
        (handleFrame emptySerde "ctrl-1" offlineCache offlineWatch 7 (.list emptyList)).cache :=
  ⟨rfl, (applied_shown_iff rfl).mpr (.inl id)⟩

end Applied

end EdgionCenter
