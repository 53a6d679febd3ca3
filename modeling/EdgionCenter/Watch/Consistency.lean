import EdgionCenter.Watch.History
import EdgionCenter.Watch.Protocol

/-! The watch protocol between a controller and one session of the center: frames in flight,
restarts, superseded requests and malformed batches. -/
namespace EdgionCenter

open Function Transition

/-- A cache that no batch was ever applied to. -/
structure CacheState.Unapplied (c : CacheState Value) : Prop where
  data : c.data = ∅
  syncVersion : c.syncVersion = 0
  serverId : c.serverId = ""
  lastAppliedUnixMs : c.lastAppliedUnixMs = none

/-- The cache holds the documents of one server instance at one version, and names both. -/
def WatchedController.Holds (C : WatchedController) (c : CacheState Value) : Prop :=
  ∃ i, C.id i = c.serverId ∧ c.data = C.history i c.syncVersion

def WatchedController.Consistent (C : WatchedController) (c : CacheState Value) : Prop :=
  c.Unapplied ∨ C.Holds c

section Frames

variable (serde : Serde) (C : WatchedController)

structure IsSnapshot (i v : Nat) (resp : FedWatchListResponse) : Prop where
  serverId : resp.serverId = C.id i
  syncVersion : resp.syncVersion = v
  content : ∃ entries : List (String × Value), entries.Perm (C.history i v).toList ∧
    serde.list resp.data = some (entries.map Prod.snd)

structure IsBatch (i a b : Nat) (resp : FedWatchEventResponse) : Prop where
  error : resp.error = ""
  serverId : resp.serverId = C.id i
  syncVersion : resp.syncVersion = b
  ordered : a ≤ b
  content : ∃ raws, serde.events resp.data = some raws ∧
    List.Forall₂ serde.Encodes raws (C.events i a b)

/-- A frame that reports an error or that cannot be read. -/
def Faulty : WatchFrame → Prop
  | .list resp => readList serde resp.data = none
  | .event resp => resp.error ≠ "" ∨ readEvents serde resp.data = none

/-- The version a stream of instance `i` goes on from: where the instance left it, or the version
that was asked for. -/
def resumeAt (fromVersion : Nat) (position : Option (Nat × Nat)) (i : Nat) : Nat :=
  match position with
  | none => fromVersion
  | some (j, v) => if j = i then v else fromVersion

/-- The frames of one request take its stream from one position to another. Nothing is known of a
stream once it carried a faulty frame. -/
inductive Leads (request : String) (fromVersion : Nat) :
    Option (Nat × Nat) → List WatchFrame → Option (Nat × Nat) → Prop
  | nil (p : Option (Nat × Nat)) : Leads request fromVersion p [] p
  | other {p q frame frames} (h : frame.requestId ≠ request)
      (rest : Leads request fromVersion p frames q) : Leads request fromVersion p (frame :: frames) q
  | list {p q resp frames i v} (hid : resp.requestId = request) (h : IsSnapshot serde C i v resp)
      (rest : Leads request fromVersion (some (i, v)) frames q) :
      Leads request fromVersion p (.list resp :: frames) q
  | events {p q resp frames i b} (hid : resp.requestId = request)
      (h : IsBatch serde C i (resumeAt fromVersion p i) b resp)
      (rest : Leads request fromVersion (some (i, b)) frames q) :
      Leads request fromVersion p (.event resp :: frames) q
  | faulty {p q frame frames} (hid : frame.requestId = request) (h : Faulty serde frame) :
      Leads request fromVersion p (frame :: frames) q

end Frames

/-- `asked` holds the version of every request sent so far, `position` the instance and version up to
which the controller has answered a request, `wire` the frames the center has not taken yet. -/
structure WatchSystem where
  current : Nat
  asked : String → Option Nat
  position : String → Option (Nat × Nat)
  wire : List WatchFrame
  watch : FedWatchState
  cache : CacheState Value
  phase : WatchPhase

inductive WatchAction
  | restart
  | send (frame : WatchFrame)
  | handle (now : Nat)
  | reWatch (newId : String)
  | stop

namespace WatchSystem

variable (s : WatchSystem)

def send (frame : WatchFrame) (position : Option (Nat × Nat)) : WatchSystem :=
  { s with
    position := update s.position frame.requestId position
    wire := s.wire ++ [frame] }

def handled (frame : WatchFrame) (rest : List WatchFrame) (h : Handling) : WatchSystem :=
  { s with
    wire := rest
    watch := h.watch
    cache := h.cache
    phase := afterFrame h.outcome frame }

/-- Nothing so far carries this id. -/
structure Fresh (newId : String) : Prop where
  asked : s.asked newId = none
  position : s.position newId = none
  wire : ∀ frame ∈ s.wire, frame.requestId ≠ newId

def reWatched (newId : String) : WatchSystem :=
  let (watch, request) := s.watch.reWatch newId
  { s with
    asked := update s.asked request.requestId (some request.fromVersion)
    watch
    phase := .listening }

end WatchSystem

/-- The controller answers any request it was ever sent, with a snapshot or by going on with the
stream, or it sends a faulty frame. The loop may be left at any time. -/
inductive WatchStep (serde : Serde) (C : WatchedController) (cid : String) :
    WatchSystem → WatchAction → WatchSystem → Prop
  | restart (s : WatchSystem) :
      WatchStep serde C cid s .restart { s with current := s.current + 1 }
  | list {s : WatchSystem} (ha : s.asked resp.requestId = some f) (h : IsSnapshot serde C s.current v resp) :
      WatchStep serde C cid s (.send (.list resp)) (s.send (.list resp) (some (s.current, v)))
  | events {s : WatchSystem} (ha : s.asked resp.requestId = some f)
      (h : IsBatch serde C s.current (resumeAt f (s.position resp.requestId) s.current) b resp) :
      WatchStep serde C cid s (.send (.event resp)) (s.send (.event resp) (some (s.current, b)))
  | faulty {s : WatchSystem} (p : Option (Nat × Nat))
      (h : Faulty serde frame) : WatchStep serde C cid s (.send frame) (s.send frame p)
  | handle {s : WatchSystem} (now : Nat)
      (hp : s.phase = .listening) (hw : s.wire = frame :: rest) :
      WatchStep serde C cid s (.handle now)
        (s.handled frame rest (handleFrame serde cid s.cache s.watch now frame))
  | reWatch {s : WatchSystem} (hp : s.phase = .reWatching ∨ s.phase = .backingOff) (hf : s.Fresh newId) :
      WatchStep serde C cid s (.reWatch newId) (s.reWatched newId)
  | stop (s : WatchSystem) : WatchStep serde C cid s .stop { s with phase := .stopped }

def WatchSystem.firstRequest (s : WatchSystem) : FedWatchRequest :=
  initialWatchRequest s.watch.requestId s.cache.syncVersion

/-- A session begins: the cache is new or was left consistent, and one request is under way. -/
structure WatchStart (C : WatchedController) (s : WatchSystem) : Prop where
  cache : C.Consistent s.cache
  watch : s.watch = FedWatchState.ofCache s.watch.requestId s.cache
  asked : s.asked s.firstRequest.requestId = some s.firstRequest.fromVersion
  position : s.position = fun _ => none
  wire : s.wire = []
  phase : s.phase = .listening

section Leads

variable {serde : Serde} {C : WatchedController} {request : String} {f : Nat}
  {p q q' : Option (Nat × Nat)} {frames : List WatchFrame}

/-- A frame put last on the wire extends the stream of its request. -/
theorem Leads.append {frame : WatchFrame} (h : Leads serde C request f p frames q)
    (hlast : Leads serde C request f q [frame] q') :
    Leads serde C request f p (frames ++ [frame]) q' := by
  induction h with
  | nil => exact hlast
  | other hne _ ih => exact .other hne (ih hlast)
  | list hid hs _ ih => exact .list hid hs (ih hlast)
  | events hid hb _ ih => exact .events hid hb (ih hlast)
  | faulty hid hf => exact .faulty hid hf

theorem leads_of_other (h : ∀ frame ∈ frames, frame.requestId ≠ request) :
    Leads serde C request f p frames p := by
  induction frames with
  | nil => exact .nil p
  | cons frame frames ih =>
    apply Leads.other (h frame (by simp))
    exact ih fun fr hfr => h fr (by simp [hfr])

end Leads

section Cache

variable {C : WatchedController} {c c' : CacheState Value}

/-- Consistency only looks at what a rejected batch leaves alone. -/
theorem consistent_of_same (h : C.Consistent c) (hd : c'.data = c.data)
    (hv : c'.syncVersion = c.syncVersion) (hs : c'.serverId = c.serverId)
    (hl : c'.lastAppliedUnixMs = c.lastAppliedUnixMs) : C.Consistent c' := by
  rcases h with h | ⟨i, hi, hdata⟩
  · exact .inl ⟨hd.trans h.data, hv.trans h.syncVersion, hs.trans h.serverId,
      hl.trans h.lastAppliedUnixMs⟩
  · exact .inr ⟨i, hi.trans hs.symm, by rw [hd, hv, hdata]⟩

theorem ofList_snapshot {i v : Nat} {entries : List (String × Value)}
    (h : entries.Perm (C.history i v).toList) : Std.ExtTreeMap.ofList entries = C.history i v := by
  apply Std.ExtTreeMap.ext_getElem?
  intro key
  have hd := Entries.nodup_keys_of_perm h
  ext d
  rw [← Entries.mem_iff_of_perm h]
  constructor
  · exact Entries.mem_of_getElem?_ofList hd
  · exact Entries.getElem?_ofList_of_mem hd

end Cache

section Invariant

variable {serde : Serde} {C : WatchedController} {cid : String} {s t : WatchSystem}

/-- No change is missing between the cache and the place where a stream goes on, for any instance
whose frames would be accepted. -/
def Follows (C : WatchedController) (w : FedWatchState) (c : CacheState Value)
    (start : Nat → Nat) : Prop :=
  ∀ i, w.serverChanged (C.id i) = false → C.events i c.syncVersion (start i) = []

structure WatchInv (serde : Serde) (C : WatchedController) (s : WatchSystem) : Prop where
  consistent : C.Consistent s.cache
  server : s.cache.Unapplied ∨ s.watch.serverId = some s.cache.serverId
  pending : s.phase = .reWatching ∨ s.phase = .backingOff → s.watch.terminated = false
  stream : s.watch.terminated = false → s.phase = .listening →
    ∃ f p, s.asked s.watch.requestId = some f ∧
      Leads serde C s.watch.requestId f p s.wire (s.position s.watch.requestId) ∧
      Follows C s.watch s.cache (resumeAt f p)

variable {i b f : Nat} {a : WatchAction}

theorem serverChanged_accept (w : FedWatchState) {j : Nat}
    (h : (w.accept (C.id i)).serverChanged (C.id j) = false) : j = i := by
  rcases FedWatchState.serverChanged_eq_false.mp h with hn | hs
  · cases hn
  · exact C.id_injective (Option.some.inj hs).symm

theorem resumeAt_self (f i v : Nat) : resumeAt f (some (i, v)) i = v := by
  simp [resumeAt]

/-- A stream that stands at the version of the cache, for the instance just accepted. -/
theorem follows_accept (w : FedWatchState) {c : CacheState Value}
    (h : C.events i c.syncVersion b = []) :
    Follows C (w.accept (C.id i)) c (resumeAt f (some (i, b))) := by
  intro j hj
  obtain rfl := serverChanged_accept w hj
  rw [resumeAt_self]
  exact h

theorem WatchInv.server_of_accepted (h : WatchInv serde C s)
    (hi : s.watch.serverChanged (C.id i) = false) :
    s.cache.Unapplied ∨ s.cache.serverId = C.id i := by
  rcases h.server with hu | hs
  · exact .inl hu
  · right
    rw [FedWatchState.serverChanged_eq_false, hs] at hi
    simpa using hi

/-- The cache holds what any accepted instance has at its version: before the first batch that is
nothing. -/
theorem WatchInv.data_of_accepted (h : WatchInv serde C s)
    (hi : s.watch.serverChanged (C.id i) = false) :
    s.cache.data = C.history i s.cache.syncVersion := by
  rcases h.consistent with hu | ⟨j, hj, hdata⟩
  · rw [hu.data, hu.syncVersion]
    rfl
  · rcases h.server_of_accepted hi with hu | hs
    · rw [hu.data, hu.syncVersion]
      rfl
    · rw [← C.id_injective (hj.trans hs)]
      exact hdata

theorem WatchInv.of_start (h : WatchStart C s) : WatchInv serde C s := by
  refine ⟨h.cache, ?_, ?_, ?_⟩
  · rcases h.cache with hu | ⟨i, hi, -⟩
    · exact .inl hu
    · right
      have hne : s.cache.serverId ≠ "" := hi ▸ C.id_ne_empty i
      rw [h.watch]
      simp [FedWatchState.ofCache, FedWatchState.new, hne]
  · rw [h.phase]
    simp
  · intro _ _
    refine ⟨s.cache.syncVersion, none, h.asked, ?_, ?_⟩
    · rw [h.wire, h.position]
      exact .nil none
    · intro i _
      exact C.events_of_le (Nat.le_refl _)

/-- After a handler asked for a new request. -/
theorem WatchInv.of_pending (h : WatchInv serde C s) (hc : t.cache = s.cache)
    (hs : t.watch.serverId = s.watch.serverId) (hl : t.watch.terminated = false)
    (hp : t.phase ≠ .listening) : WatchInv serde C t := by
  refine ⟨hc ▸ h.consistent, ?_, fun _ => hl, fun _ hlisten => absurd hlisten hp⟩
  rw [hc, hs]
  exact h.server

/-- After a handler stopped the watch: the contents of the cache are as before. -/
theorem WatchInv.of_terminated (h : WatchInv serde C s) (hd : t.cache.data = s.cache.data)
    (hv : t.cache.syncVersion = s.cache.syncVersion) (hs : t.cache.serverId = s.cache.serverId)
    (hl : t.cache.lastAppliedUnixMs = s.cache.lastAppliedUnixMs)
    (hw : t.watch.serverId = s.watch.serverId) (ht : t.watch.terminated = true)
    (hp : t.phase = .listening) : WatchInv serde C t := by
  refine ⟨consistent_of_same h.consistent hd hv hs hl, ?_, ?_, ?_⟩
  · rw [hw, hs]
    rcases h.server with hu | hsome
    · exact .inl ⟨hd.trans hu.data, hv.trans hu.syncVersion, hs.trans hu.serverId,
        hl.trans hu.lastAppliedUnixMs⟩
    · exact .inr hsome
  · rw [hp]
    simp
  · rw [ht]
    simp

/-- After a response of instance `i` was accepted, whether or not it changed the cache. -/
theorem WatchInv.of_accepted (hc : C.Consistent t.cache)
    (hserver : t.cache.Unapplied ∨ t.cache.serverId = C.id i) (w : FedWatchState)
    (hw : t.watch = w.accept (C.id i)) (hp : t.phase = .listening)
    (ha : t.asked t.watch.requestId = some f)
    (hl : Leads serde C t.watch.requestId f (some (i, b)) t.wire (t.position t.watch.requestId))
    (hb : C.events i t.cache.syncVersion b = []) : WatchInv serde C t := by
  refine ⟨hc, ?_, ?_, ?_⟩
  · rcases hserver with hu | hi
    · exact .inl hu
    · right
      rw [hw, hi]
      rfl
  · rw [hp]
    simp
  · intro _ _
    refine ⟨f, some (i, b), ha, hl, ?_⟩
    rw [hw]
    exact follows_accept w hb

/-- A frame put on the wire, as the stream of its own request sees it. -/
theorem WatchInv.send (h : WatchInv serde C s) {frame : WatchFrame} {p : Option (Nat × Nat)}
    (hlead : ∀ f, s.asked frame.requestId = some f →
      Leads serde C frame.requestId f (s.position frame.requestId) [frame] p) :
    WatchInv serde C (s.send frame p) := by
  refine ⟨h.consistent, h.server, h.pending, ?_⟩
  intro hlive hlisten
  obtain ⟨f, q, ha, hl, hfollow⟩ := h.stream hlive hlisten
  refine ⟨f, q, ha, ?_, hfollow⟩
  apply hl.append
  change Leads serde C s.watch.requestId f _ [frame]
    (update s.position frame.requestId p s.watch.requestId)
  by_cases hid : frame.requestId = s.watch.requestId
  · rw [← hid, update_self]
    exact hlead f (hid ▸ ha)
  · rw [update_of_ne (Ne.symm hid)]
    exact .other hid (.nil _)

theorem WatchInv.reWatched (h : WatchInv serde C s) {newId : String}
    (hp : s.phase = .reWatching ∨ s.phase = .backingOff) (hf : s.Fresh newId) :
    WatchInv serde C (s.reWatched newId) := by
  refine ⟨h.consistent, h.server, ?_, ?_⟩
  · intro _
    exact h.pending hp
  · intro _ _
    refine ⟨0, none, update_self .., ?_, ?_⟩
    · change Leads serde C newId 0 none s.wire (s.position newId)
      rw [hf.position]
      exact leads_of_other hf.wire
    · intro i _
      exact C.events_of_le (Nat.zero_le _)

section Handle

variable {frame : WatchFrame} {rest : List WatchFrame} {now f i : Nat} {p q : Option (Nat × Nat)}

theorem WatchInv.handleList (h : WatchInv serde C s) {resp : FedWatchListResponse} {v : Nat}
    (hlive : s.watch.terminated = false) (ha : s.asked s.watch.requestId = some f)
    (hid : resp.requestId = s.watch.requestId) (hs : IsSnapshot serde C i v resp)
    (hl : Leads serde C s.watch.requestId f (some (i, v)) rest (s.position s.watch.requestId)) :
    WatchInv serde C (s.handled (.list resp) rest
      (handleFrame serde cid s.cache s.watch now (.list resp))) := by
  obtain ⟨entries, hperm, hdata⟩ := hs.content
  have hkeyed : ∀ e ∈ entries, resourceKey e.2 = some e.1 := by
    rintro ⟨k, d⟩ he
    exact C.resourceKey_of_history ((Entries.mem_iff_of_perm hperm).mp he)
  have hread := readList_of_keyed hdata hkeyed (Entries.nodup_keys_of_perm hperm)
  rw [handleFrame, applyWatchList_of_read hid hlive hread]
  split
  · exact of_terminated h rfl rfl rfl rfl rfl rfl rfl
  · rw [hs.serverId, hs.syncVersion, ofList_snapshot hperm]
    exact of_accepted (.inr ⟨i, rfl, rfl⟩) (.inr rfl) s.watch rfl rfl ha hl
      (C.events_of_le (Nat.le_refl _))

theorem WatchInv.handleEvents (h : WatchInv serde C s) {resp : FedWatchEventResponse} {b : Nat}
    (hlive : s.watch.terminated = false) (ha : s.asked s.watch.requestId = some f)
    (hid : resp.requestId = s.watch.requestId) (hb : IsBatch serde C i (resumeAt f p i) b resp)
    (hfollow : Follows C s.watch s.cache (resumeAt f p))
    (hl : Leads serde C s.watch.requestId f (some (i, b)) rest (s.position s.watch.requestId)) :
    WatchInv serde C (s.handled (.event resp) rest
      (handleFrame serde cid s.cache s.watch now (.event resp))) := by
  by_cases hserver : s.watch.serverChanged resp.serverId
  · rw [handleFrame, applyWatchEvent_of_server_ne hid hlive hb.error hserver]
    exact of_pending h rfl rfl hlive (by simp [WatchSystem.handled, afterFrame, afterEvent])
  · rw [Bool.not_eq_true] at hserver
    obtain ⟨raws, hraws, hencodes⟩ := hb.content
    have hread := readEvents_of_encodes hraws hencodes fun e he => C.keyed_of_mem_events he
    rw [handleFrame, applyWatchEvent_of_read hid hlive hb.error hserver hread]
    rw [hb.serverId] at hserver
    have hgap := hfollow i hserver
    have hold := h.data_of_accepted hserver
    split
    · exact of_pending h rfl rfl hlive (by simp [WatchSystem.handled, afterFrame, afterEvent])
    · rename_i hversion
      rw [hb.syncVersion] at hversion
      have hle : s.cache.syncVersion ≤ b := by omega
      split
      · rename_i hempty
        rw [List.isEmpty_iff] at hempty
        rw [hb.serverId]
        exact of_accepted h.consistent (h.server_of_accepted hserver) s.watch rfl rfl ha hl
          (C.events_eq_nil_trans hgap hempty hb.ordered)
      · split
        · exact of_terminated h rfl rfl rfl rfl rfl rfl rfl
        · rw [hb.serverId, hb.syncVersion]
          refine of_accepted (.inr ⟨i, rfl, ?_⟩) (.inr rfl) s.watch rfl rfl ha hl
            (C.events_of_le (Nat.le_refl _))
          apply Std.ExtTreeMap.ext_getElem?
          intro key
          have hnew : (s.cache.sortEvents (C.events i (resumeAt f p i) b)).data[key]? =
              finalDoc key (C.events i (resumeAt f p i) b) s.cache.data[key]? := sortEvents_data _
          change (s.cache.sortEvents _).data[key]? = (C.history i b)[key]?
          rw [hnew, hold, ← C.history_replay hgap hb.ordered hle]

/-- A faulty frame of the current request stops the watch or asks for a new request. -/
theorem WatchInv.handleFaulty (h : WatchInv serde C s) (hlive : s.watch.terminated = false)
    (hid : frame.requestId = s.watch.requestId) (hf : Faulty serde frame) :
    WatchInv serde C (s.handled frame rest (handleFrame serde cid s.cache s.watch now frame)) := by
  cases frame with
  | list resp =>
    have hh : handleFrame serde cid s.cache s.watch now (.list resp) =
        ⟨.parseError, s.watch, s.cache⟩ := by
      simp only [Faulty] at hf
      simp only [WatchFrame.requestId] at hid
      simp [handleFrame, applyWatchList, hid, hlive, hf]
    rw [hh]
    exact of_pending h rfl rfl hlive (by simp [WatchSystem.handled, afterFrame, afterList])
  | event resp =>
    change resp.requestId = s.watch.requestId at hid
    by_cases herror : resp.error = ""
    · by_cases hserver : s.watch.serverChanged resp.serverId
      · rw [handleFrame, applyWatchEvent_of_server_ne hid hlive herror hserver]
        exact of_pending h rfl rfl hlive
          (by simp [WatchSystem.handled, afterFrame, afterEvent])
      · have hread : readEvents serde resp.data = none := hf.resolve_left (not_not.mpr herror)
        have hh : handleFrame serde cid s.cache s.watch now (.event resp) =
            ⟨.parseError, s.watch, s.cache⟩ := by
          simp [handleFrame, applyWatchEvent, hid, hlive, herror, hserver, hread]
        rw [hh]
        exact of_pending h rfl rfl hlive
          (by simp [WatchSystem.handled, afterFrame, afterEvent])
    · by_cases hforbidden : resp.error = "Forbidden"
      · have hh : handleFrame serde cid s.cache s.watch now (.event resp) =
            ⟨.terminal, s.watch.terminate, s.cache.setStale⟩ := by
          simp [handleFrame, applyWatchEvent, hid, hlive, hforbidden]
        rw [hh]
        exact of_terminated h rfl rfl rfl rfl rfl rfl rfl
      · have hh : handleFrame serde cid s.cache s.watch now (.event resp) =
            ⟨.backoffReWatch,
              { s.watch with consecutiveErrors := s.watch.consecutiveErrors + 1 }, s.cache⟩ := by
          simp [handleFrame, applyWatchEvent, hid, hlive, herror, hforbidden]
        rw [hh]
        exact of_pending h rfl rfl hlive
          (by simp [WatchSystem.handled, afterFrame, afterEvent])

theorem WatchInv.handle (h : WatchInv serde C s) (hp : s.phase = .listening)
    (hw : s.wire = frame :: rest) :
    WatchInv serde C (s.handled frame rest (handleFrame serde cid s.cache s.watch now frame)) := by
  by_cases ht : s.watch.terminated
  · rw [handleFrame_of_terminated ht]
    exact of_terminated h rfl rfl rfl rfl rfl ht (afterFrame_skipped frame)
  · rw [Bool.not_eq_true] at ht
    obtain ⟨f, p, ha, hl, hfollow⟩ := h.stream ht hp
    rw [hw] at hl
    cases hl with
    | other hne hl =>
      rw [handleFrame_of_ne hne]
      refine ⟨h.consistent, h.server, fun _ => ht, fun _ _ => ⟨f, p, ha, hl, hfollow⟩⟩
    | list hid hs hl => exact h.handleList ht ha hid hs hl
    | events hid hb hl => exact h.handleEvents ht ha hid hb hfollow hl
    | faulty hid hf => exact h.handleFaulty ht hid hf

end Handle

theorem WatchInv.step (h : WatchInv serde C s) (hs : WatchStep serde C cid s a t) :
    WatchInv serde C t := by
  cases hs with
  | restart => exact ⟨h.consistent, h.server, h.pending, h.stream⟩
  | list _ hsnap =>
    apply h.send
    intro f _
    exact .list rfl hsnap (.nil _)
  | events ha hb =>
    apply h.send
    intro f ha'
    obtain rfl := Option.some.inj (ha.symm.trans ha')
    exact .events rfl hb (.nil _)
  | faulty p hf =>
    apply h.send
    intro f _
    exact .faulty rfl hf
  | handle now hp hw => exact h.handle hp hw
  | reWatch hp hf => exact h.reWatched hp hf
  | stop => exact ⟨h.consistent, h.server, by simp, by simp⟩

/-- A terminated watch leaves the cache as it is and is never asked again. -/
def Halted (cache : CacheState Value) (s : WatchSystem) : Prop :=
  s.watch.terminated = true ∧ s.cache = cache ∧ s.phase ≠ .reWatching ∧ s.phase ≠ .backingOff

theorem halted_step {cache : CacheState Value} (h : Halted cache s)
    (hs : WatchStep serde C cid s a t) : Halted cache t := by
  obtain ⟨ht, hc, hr, hb⟩ := h
  cases hs with
  | @handle frame rest _ now hp hw =>
    rw [handleFrame_of_terminated ht]
    refine ⟨ht, hc, ?_, ?_⟩ <;> simp [WatchSystem.handled, afterFrame_skipped]
  | reWatch hp _ => exact absurd hp (by simp [hr, hb])
  | stop => exact ⟨ht, hc, by simp, by simp⟩
  | _ => exact ⟨ht, hc, hr, hb⟩

end Invariant

/-- In every run of a session the cache is unapplied or holds one instance's documents at its
version; a terminated watch never changes it again, and a new request is never made for it. -/
theorem watch_consistent {serde : Serde} {C : WatchedController} {cid : String} {s₀ s : WatchSystem}
    {xs : List WatchAction} (h₀ : WatchStart C s₀) (h : Run (WatchStep serde C cid) s₀ xs s) :
    C.Consistent s.cache ∧
      (s.watch.terminated = true → ∀ ys t, Run (WatchStep serde C cid) s ys t →
        t.cache = s.cache) ∧
      ∀ newId t, WatchStep serde C cid s (.reWatch newId) t → s.watch.terminated = false := by
  have hinv : WatchInv serde C s := h.invariant (fun _ _ _ => WatchInv.step) (WatchInv.of_start h₀)
  refine ⟨hinv.consistent, ?_, ?_⟩
  · intro ht ys t hrun
    have hidle : Halted s.cache s := by
      refine ⟨ht, rfl, ?_, ?_⟩
      · intro hp
        simp [hinv.pending (.inl hp)] at ht
      · intro hp
        simp [hinv.pending (.inr hp)] at ht
    have hend : Halted s.cache t := hrun.invariant (fun _ _ _ => halted_step) hidle
    exact hend.2.1
  · intro newId t hs
    cases hs with
    | reWatch hp _ => exact hinv.pending hp

/-- Every instance adds one override at version 1. -/
def steadyController : WatchedController where
  id i := String.ofList (List.replicate (i + 1) 's')
  id_injective i j h := by simpa using congrArg String.length h
  id_ne_empty i h := by simpa using congrArg String.length h
  log _ v := if v = 1 then ⟨[⟨.add, "shop/shared", sharedOverride⟩], by simp [sharedOverride_key]⟩
    else ⟨[], by simp⟩

/-- The JSON text of the list of the first instance at version 1. -/
def steadyText : String :=
  "[\x7b\"metadata\":\x7b\"name\":\"shared\",\"namespace\":\"shop\"\x7d," ++
    "\"spec\":\x7b\"data\":\x7b\"type\":\"RegionRouteOverride\"\x7d\x7d\x7d]"

/-- Reads that text and no other. -/
def steadySerde : Serde where
  list data := if data.data = steadyText.toUTF8.data then some [sharedOverride] else none
  events _ := none
  value _ := none

def steadyStart : WatchSystem where
  current := 0
  asked := update (fun _ => none) "req-1" (some 0)
  position _ := none
  wire := []
  watch := FedWatchState.ofCache "req-1" CacheState.new
  cache := CacheState.new
  phase := .listening

def steadyList : FedWatchListResponse := ⟨"req-1", steadyText.toUTF8, 1, "s"⟩

def forbidden : FedWatchEventResponse := ⟨"req-1", "", 0, "", "Forbidden"⟩

theorem steadyStart_isStart : WatchStart steadyController steadyStart where
  cache := .inl ⟨rfl, rfl, rfl, rfl⟩
  watch := rfl
  asked := by rfl
  position := rfl
  wire := rfl
  phase := rfl

/-- A snapshot, and then the end of the watch. -/
theorem watch_consistent_forbidden : ∃ s, WatchStart steadyController steadyStart ∧
      Run (WatchStep steadySerde steadyController "ctrl-1") steadyStart
        [.send (.list steadyList), .send (.event forbidden), .handle 5, .handle 6] s ∧
      steadyController.Consistent s.cache ∧
      (s.watch.terminated = true →
        ∀ ys t, Run (WatchStep steadySerde steadyController "ctrl-1") s ys t →
          t.cache = s.cache) ∧
      ∀ newId t, WatchStep steadySerde steadyController "ctrl-1" s (.reWatch newId) t →
        s.watch.terminated = false := by
  have hlist : (steadyController.history 0 1).toList = [("shop/shared", sharedOverride)] := by
    rfl
  have htext : steadySerde.list steadyList.data =
      some ((steadyController.history 0 1).toList.map Prod.snd) := by
    simp [hlist, steadySerde, steadyList]
  have hsnap : IsSnapshot steadySerde steadyController 0 1 steadyList :=
    ⟨rfl, rfl, _, .refl _, htext⟩
  have hkeyed : ∀ e ∈ (steadyController.history 0 1).toList, resourceKey e.2 = some e.1 := by
    rintro ⟨k, d⟩ he
    exact steadyController.resourceKey_of_history ((Entries.mem_iff_of_perm (.refl _)).mp he)
  have hread : readList steadySerde steadyList.data = some (steadyController.history 0 1).toList :=
    readList_of_keyed htext hkeyed (Entries.nodup_keys_of_perm (.refl _))
  -- the list is read, so the loop goes on listening for the second frame
  have hlisten : afterList (applyWatchList steadySerde "ctrl-1" steadyStart.cache steadyStart.watch
      steadyList 5).outcome = .listening := by
    rw [applyWatchList_of_read rfl rfl hread]
    split <;> rfl
  have hrun : Run (WatchStep steadySerde steadyController "ctrl-1") steadyStart
      [.send (.list steadyList), .send (.event forbidden), .handle 5, .handle 6] _ :=
    .step (.list (f := 0) (v := 1) (by rfl) hsnap) <|
    .step (.faulty none (.inl (by decide))) <|
    .step (.handle 5 rfl rfl) <| .step (.handle 6 hlisten rfl) (.refl _)
  exact ⟨_, steadyStart_isStart, hrun, watch_consistent steadyStart_isStart hrun⟩

end EdgionCenter
