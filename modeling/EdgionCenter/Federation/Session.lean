import EdgionCenter.Watch.Cache

/-! The sessions of one controller on one replica. Every step is a single operation on the registry,
the aggregator, the watch caches or a session's flag and token; sessions are numbered by connection.
-/
namespace EdgionCenter

open Function

/-- The registry entry of the controller; `offlineSince` only says whether it is set. -/
structure ControllerSession where
  sessionId : Nat
  streamTx : Bool
  offlineSince : Bool
  deriving DecidableEq

/-- The aggregator's entry; `owner` is the session that wrote it last. -/
structure ControllerSnapshot where
  owner : Nat
  offlineSince : Bool
  deriving DecidableEq

/-- The controller's watch cache; `owner` is the session that opened it last, and `object` tells
it from a cache that was removed before. -/
structure WatchCache where
  object : Nat
  owner : Nat
  state : CacheState Value

/-- Where a `sync` call stands: the phase names what it does next. -/
inductive SyncPhase
  | connecting
  | acquiring
  | registering
  | informing
  | projecting
  | unlisting
  | releasing
  | ended
  | serving
  deriving DecidableEq

inductive Check
  | ownershipValid
  | notCancelled
  | currentSession
  deriving DecidableEq

inductive OnFailure
  | stop
  | skip
  deriving DecidableEq

/-- What a session checks, in this order, before it acts on a message. -/
def messageChecks : List (Check × OnFailure) :=
  [(.ownershipValid, .stop), (.notCancelled, .stop), (.currentSession, .stop),
    (.ownershipValid, .skip), (.notCancelled, .skip),
    (.ownershipValid, .skip), (.notCancelled, .skip), (.ownershipValid, .skip)]

/-- Where a message loop stands; the `cleaning` phases are the steps of `mark_offline_all`. -/
inductive LoopPhase
  | absent
  | selecting
  | polling
  | checking (left : List (Check × OnFailure))
  | backoff
  | cleaning
  | cleaningAggregator
  | cleaningCache
  | exited
  deriving DecidableEq

inductive MaintainerPhase
  | absent
  | waiting (l : Leadership)
  | cancelling (l : Leadership)
  | revoking (l : Leadership)
  | releasing (l : Leadership)
  | finished
  deriving DecidableEq

/-- An eviction carries the holder and fence it was checked against, if it was fenced. -/
abbrev FencedTarget := Option (String × OwnershipFence)

inductive EvictionPhase
  | idle
  | removingSession (target : FencedTarget)
  | removingSnapshot (target : FencedTarget)
  | removingCache (target : FencedTarget)
  deriving DecidableEq

structure SessionOwnership where
  holder : String
  fence : OwnershipFence
  valid : Bool
  deriving DecidableEq

structure SessionView where
  sessionId : Nat
  streamTx : Bool
  ownership : Option SessionOwnership
  deriving DecidableEq

def SessionView.matchesOwnership (view : SessionView) (holder : String) (fence : OwnershipFence) :
    Bool :=
  match view.ownership with
  | some o => o.valid && o.holder == holder && o.fence == fence
  | none => false

/-- `released` records the leaderships handed to `coordinator.release`, newest first; no step reads
it. -/
structure Center where
  registry : Option ControllerSession
  aggregator : Option ControllerSnapshot
  watchCache : Option WatchCache
  cancelled : Nat → Bool
  valid : Nat → Bool
  ownership : Nat → Option Leadership
  pmCache : Nat → Nat
  sync : Nat → SyncPhase
  loop : Nat → LoopPhase
  maintainer : Nat → MaintainerPhase
  evictor : Nat → EvictionPhase
  released : List Leadership

namespace Center

variable (s : Center) (i : Nat)

def start : Center where
  registry := none
  aggregator := none
  watchCache := none
  cancelled := fun _ => false
  valid := fun _ => true
  ownership := fun _ => none
  pmCache := fun _ => 0
  sync := fun _ => .connecting
  loop := fun _ => .absent
  maintainer := fun _ => .absent
  evictor := fun _ => .idle
  released := []

@[simps] def setSync (phase : SyncPhase) : Center :=
  { s with sync := update s.sync i phase }

@[simps] def setLoop (phase : LoopPhase) : Center :=
  { s with loop := update s.loop i phase }

@[simps] def setMaintainer (phase : MaintainerPhase) : Center :=
  { s with maintainer := update s.maintainer i phase }

@[simps] def setEvictor (phase : EvictionPhase) : Center :=
  { s with evictor := update s.evictor i phase }

@[simps] def cancel : Center := { s with cancelled := update s.cancelled i true }

@[simps] def invalidate : Center := { s with valid := update s.valid i false }

/-- A session's validity flag, read through a registry view. -/
def sessionOwnership : Option SessionOwnership :=
  (s.ownership i).map fun l => ⟨l.holder, l.fence, s.valid i⟩

def isOnline (e : ControllerSession) : Bool := e.streamTx && !s.cancelled e.sessionId

/-- `online_controller_ids` lists the controller. -/
def Online : Prop := ∃ e, s.registry = some e ∧ s.isOnline e = true

def getSession : Option SessionView :=
  s.registry.map fun e => ⟨e.sessionId, s.isOnline e, s.sessionOwnership e.sessionId⟩

def isCurrentSession : Bool :=
  match s.registry with
  | some e => e.sessionId == i
  | none => false

/-- The registered session, if it holds a Lease. -/
def ownedSession : Option Nat :=
  s.registry.bind fun e => (s.ownership e.sessionId).map fun _ => e.sessionId

/-- Revokes and cancels the registered session before the Lease is acquired anew. -/
@[simps] def fenceOwnedSession : Center :=
  { s with
    valid := match s.ownedSession with
      | some i => update s.valid i false
      | none => s.valid
    cancelled := match s.ownedSession with
      | some i => update s.cancelled i true
      | none => s.cancelled }

/-- Installs the session; one it finds with a stream is cancelled. -/
@[simps] def register : Center :=
  { s with
    registry := some ⟨i, true, false⟩
    cancelled := match s.registry with
      | some e => if e.streamTx then update s.cancelled e.sessionId true else s.cancelled
      | none => s.cancelled }

/-- What `mark_offline` returns: whether it is this session that goes offline now. -/
def marksOffline : Bool :=
  match s.registry with
  | some e => e.sessionId == i && !e.offlineSince
  | none => false

@[simps] def sessionMarkOffline : Center :=
  { s with
    registry := if s.marksOffline i then some ⟨i, false, true⟩ else s.registry
    cancelled := if s.marksOffline i then update s.cancelled i true else s.cancelled }

@[simps] def removeSession : Center :=
  { s with
    registry := none
    valid := match s.registry with
      | some e => update s.valid e.sessionId false
      | none => s.valid
    cancelled := match s.registry with
      | some e => update s.cancelled e.sessionId true
      | none => s.cancelled }

@[simps] def setControllerInfo : Center := { s with aggregator := some ⟨i, false⟩ }

@[simps] def snapshotMarkOffline : Center :=
  { s with aggregator := s.aggregator.map fun a => { a with offlineSince := true } }

@[simps] def removeSnapshot : Center := { s with aggregator := none }

/-- The cache survives reconnects; a missing one is created, and then is not stale. -/
@[simps] def getOrCreate : Center :=
  { s with
    watchCache := match s.watchCache with
      | some c => some { c with owner := i }
      | none => some ⟨i, i, CacheState.new⟩
    pmCache := update s.pmCache i (match s.watchCache with
      | some c => c.object
      | none => i) }

/-- A session writes to the cache it opened, whether or not that is still the registered one. -/
@[simps] def writeCache (controllerId : String) (w : CacheWrite Value) : Center :=
  { s with
    watchCache := s.watchCache.map fun c =>
      if c.object = s.pmCache i then { c with state := w.apply controllerId c.state } else c }

@[simps] def cacheMarkOffline : Center :=
  { s with watchCache := s.watchCache.map fun c => { c with state := c.state.setStale } }

@[simps] def removeController : Center := { s with watchCache := none }

@[simps] def release (l : Leadership) : Center := { s with released := l :: s.released }

def passes : Check → Bool
  | .ownershipValid => s.valid i
  | .notCancelled => !s.cancelled i
  | .currentSession => s.isCurrentSession i

variable {s i}

/-- The registry call of a disconnect takes effect only for the current session, and once. -/
theorem marksOffline_eq_false (h : s.marksOffline i = false) {e : ControllerSession}
    (he : s.registry = some e) (ho : e.offlineSince = false) : e.sessionId ≠ i := by
  simpa [marksOffline, he, ho] using h

theorem isCurrentSession_of_marksOffline (h : s.marksOffline i = true) :
    s.isCurrentSession i = true := by
  cases hr : s.registry <;> simp_all [marksOffline, isCurrentSession]

/-- Going offline leaves the session registered. -/
theorem isCurrentSession_sessionMarkOffline (k : Nat) :
    (s.sessionMarkOffline i).isCurrentSession k = s.isCurrentSession k := by
  cases hm : s.marksOffline i with
  | false => simp [isCurrentSession, hm]
  | true =>
    have hc := isCurrentSession_of_marksOffline hm
    cases hr : s.registry <;> simp_all [isCurrentSession]

end Center

/-- Names a step, for conditions on runs. -/
inductive Action
  | fence (i : Nat)
  | unowned (i : Nat)
  | acquired (i : Nat) (l : Leadership)
  | refused (i : Nat)
  | register (i : Nat)
  | inform (i : Nat)
  | projectionFailed (i : Nat)
  | unlist (i : Nat)
  | giveUp (i : Nat)
  | serve (i : Nat)
  | renewed (i : Nat)
  | lose (i : Nat)
  | loseCancel (i : Nat)
  | notice (i : Nat)
  | revoke (i : Nat)
  | release (i : Nat)
  | heartbeat (i : Nat)
  | select (i : Nat)
  | poll (i : Nat)
  | pass (i : Nat)
  | stop (i : Nat)
  | skip (i : Nat)
  | handle (i : Nat)
  | write (i : Nat) (w : CacheWrite Value)
  | backoff (i : Nat)
  | resume (i : Nat)
  | quit (i : Nat)
  | clean (i : Nat)
  | cleanAggregator (i : Nat)
  | cleanCache (i : Nat)
  | evict (k : Nat) (target : FencedTarget)
  | removeSession (k : Nat)
  | removeSnapshot (k : Nat)
  | removeCache (k : Nat)

section Steps

variable (controllerId : String) (coordinated : Bool)

/-- The registration part of a `sync` call. A projection that is not configured succeeds. -/
inductive SyncStep : Center → Action → Center → Prop
  | fence {s : Center} (h : s.sync i = .connecting) (hc : coordinated = true) :
      SyncStep s (.fence i) (s.fenceOwnedSession.setSync i .acquiring)
  | unowned {s : Center} (h : s.sync i = .connecting) (hc : coordinated = false) :
      SyncStep s (.unowned i) (s.setSync i .registering)
  -- No two acquires of a role return the same epoch.
  | acquired {s : Center} (h : s.sync i = .acquiring) (l : Leadership)
      (hl : ∀ j l', s.ownership j = some l' → l'.fencingEpoch ≠ l.fencingEpoch) :
      SyncStep s (.acquired i l)
        ({ s with ownership := update s.ownership i (some l) }.setSync i .registering)
  | refused {s : Center} (h : s.sync i = .acquiring) :
      SyncStep s (.refused i) (s.setSync i .ended)
  | register {s : Center} (h : s.sync i = .registering) :
      SyncStep s (.register i) ((s.register i).setSync i .informing)
  | inform {s : Center} (h : s.sync i = .informing) :
      SyncStep s (.inform i) ((s.setControllerInfo i).setSync i .projecting)
  -- The result of the registry call is ignored here.
  | projectionFailed {s : Center} (h : s.sync i = .projecting) :
      SyncStep s (.projectionFailed i) ((s.sessionMarkOffline i).setSync i .unlisting)
  | unlist {s : Center} (h : s.sync i = .unlisting) :
      SyncStep s (.unlist i) (s.snapshotMarkOffline.setSync i .releasing)
  | giveUp {s : Center} (h : s.sync i = .releasing) :
      SyncStep s (.giveUp i)
        ({ s with released := (s.ownership i).toList ++ s.released }.setSync i .ended)
  | serve {s : Center} (h : s.sync i = .projecting) :
      SyncStep s (.serve i)
        ((((s.getOrCreate i).setMaintainer i
          (match s.ownership i with | some l => .waiting l | none => .absent)).setLoop i
          .selecting).setSync i .serving)

/-- `maintain_ownership`. A renewal keeps holder and fence; one that fails changes nothing. -/
inductive MaintainerStep : Center → Action → Center → Prop
  | renewed {s : Center} (h : s.maintainer i = .waiting l)
      (l' : Leadership) (hh : l'.holder = l.holder) (hf : l'.fence = l.fence) :
      MaintainerStep s (.renewed i) (s.setMaintainer i (.waiting l'))
  -- Lost, expired, or without a representable deadline.
  | lose {s : Center} (h : s.maintainer i = .waiting l) :
      MaintainerStep s (.lose i) ((s.invalidate i).setMaintainer i (.cancelling l))
  -- The first deadline overflowing returns without the last store.
  | loseCancel {s : Center} (h : s.maintainer i = .cancelling l)
      (early : Bool) :
      MaintainerStep s (.loseCancel i)
        ((s.cancel i).setMaintainer i (if early then .releasing l else .revoking l))
  | notice {s : Center} (h : s.maintainer i = .waiting l)
      (hc : s.cancelled i = true) :
      MaintainerStep s (.notice i) (s.setMaintainer i (.revoking l))
  | revoke {s : Center} (h : s.maintainer i = .revoking l) :
      MaintainerStep s (.revoke i) ((s.invalidate i).setMaintainer i (.releasing l))
  | release {s : Center} (h : s.maintainer i = .releasing l) :
      MaintainerStep s (.release i) ((s.release l).setMaintainer i .finished)

/-- The heartbeat and the message loop of a session. -/
inductive LoopStep : Center → Action → Center → Prop
  | heartbeat {s : Center} (h : s.loop i ≠ .absent) :
      LoopStep s (.heartbeat i) (s.cancel i)
  -- The token is looked at first; a message may still win against a later cancellation.
  | select {s : Center} (h : s.loop i = .selecting) :
      LoopStep s (.select i) (s.setLoop i (if s.cancelled i then .cleaning else .polling))
  | idle {s : Center} (h : s.loop i = .polling) :
      LoopStep s (.poll i) (s.setLoop i .selecting)
  | closed {s : Center} (h : s.loop i = .polling) :
      LoopStep s (.poll i) (s.setLoop i .cleaning)
  | received {s : Center} (h : s.loop i = .polling) :
      LoopStep s (.poll i) (s.setLoop i (.checking messageChecks))
  | pass {s : Center} (h : s.loop i = .checking ((c, f) :: left)) (hc : s.passes i c = true) :
      LoopStep s (.pass i) (s.setLoop i (.checking left))
  -- A superseded session leaves without cleaning up.
  | stop {s : Center} (h : s.loop i = .checking ((c, .stop) :: left)) (hc : s.passes i c = false) :
      LoopStep s (.stop i) (s.setLoop i .exited)
  | skip {s : Center} (h : s.loop i = .checking ((c, .skip) :: left)) (hc : s.passes i c = false) :
      LoopStep s (.skip i) (s.setLoop i .selecting)
  | handle {s : Center} (h : s.loop i = .checking []) :
      LoopStep s (.handle i) (s.setLoop i .selecting)
  | write {s : Center} (h : s.loop i = .checking []) (w : CacheWrite Value) :
      LoopStep s (.write i w) ((s.writeCache i controllerId w).setLoop i .selecting)
  | backoff {s : Center} (h : s.loop i = .checking []) :
      LoopStep s (.backoff i) (s.setLoop i .backoff)
  | resume {s : Center} (h : s.loop i = .backoff) :
      LoopStep s (.resume i) (s.setLoop i .selecting)
  -- Cancelled, or the outbound channel closed, during the backoff.
  | quit {s : Center} (h : s.loop i = .backoff) :
      LoopStep s (.quit i) (s.setLoop i .exited)
  | clean {s : Center} (h : s.loop i = .cleaning) :
      LoopStep s (.clean i) ((s.sessionMarkOffline i).setLoop i
        (if s.marksOffline i then .cleaningAggregator else .exited))
  | cleanAggregator {s : Center} (h : s.loop i = .cleaningAggregator) :
      LoopStep s (.cleanAggregator i) (s.snapshotMarkOffline.setLoop i .cleaningCache)
  | cleanCache {s : Center} (h : s.loop i = .cleaningCache) :
      LoopStep s (.cleanCache i) (s.cacheMarkOffline.setLoop i .exited)

/-- `evict_fenced` and `evict_unfenced`: one look at the registry, then three removals by id. -/
inductive EvictStep : Center → Action → Center → Prop
  | fenced {s : Center} (h : s.evictor k = .idle) (hv : s.getSession = some view) (hm : view.matchesOwnership holder fence = true) :
      EvictStep s (.evict k (some (holder, fence)))
        (s.setEvictor k (.removingSession (some (holder, fence))))
  | unfenced {s : Center} (h : s.evictor k = .idle) :
      EvictStep s (.evict k none) (s.setEvictor k (.removingSession none))
  | removeSession {s : Center} (h : s.evictor k = .removingSession target) :
      EvictStep s (.removeSession k) (s.removeSession.setEvictor k (.removingSnapshot target))
  | removeSnapshot {s : Center} (h : s.evictor k = .removingSnapshot target) :
      EvictStep s (.removeSnapshot k) (s.removeSnapshot.setEvictor k (.removingCache target))
  | removeCache {s : Center} (h : s.evictor k = .removingCache target) :
      EvictStep s (.removeCache k) (s.removeController.setEvictor k .idle)

/-- What the sessions of the controller do by themselves. -/
inductive SessionStep : Center → Action → Center → Prop
  | sync {s t : Center} (h : SyncStep coordinated s a t) : SessionStep s a t
  | maintainer {s t : Center} (h : MaintainerStep s a t) : SessionStep s a t
  | loop {s t : Center} (h : LoopStep controllerId s a t) : SessionStep s a t

/-- The sessions together with evictions. -/
inductive CenterStep : Center → Action → Center → Prop
  | session {s t : Center} (h : SessionStep controllerId coordinated s a t) :
      CenterStep s a t
  | evict {s t : Center} (h : EvictStep s a t) : CenterStep s a t

end Steps

section Staged

variable {controllerId : String} {coordinated : Bool} {s t : Center} {a : Action} {i : Nat}

/-- Only a session that is being served has a message loop or a maintainer. -/
def Center.Staged (s : Center) : Prop :=
  ∀ i, s.sync i ≠ .serving → s.loop i = .absent ∧ s.maintainer i = .absent

theorem Center.start_staged : start.Staged := fun _ _ => ⟨rfl, rfl⟩

theorem SyncStep.staged (h : SyncStep coordinated s a t) (hs : s.Staged) : t.Staged := by
  intro k hk
  cases h with
  | @serve i _ h =>
    by_cases hki : k = i
    · simp [hki] at hk
    · simpa [hki] using hs k (by simpa [hki] using hk)
  | @fence i _ h _ | @unowned i _ h _ | @acquired i _ h _ _ | @refused i _ h | @register i _ h | @inform i _ h
  | @projectionFailed i _ h | @unlist i _ h | @giveUp i _ h =>
    by_cases hki : k = i
    · exact hs k (by simp [hki, h])
    · exact hs k (by simpa [hki] using hk)

theorem MaintainerStep.staged (h : MaintainerStep s a t) (hs : s.Staged) : t.Staged := by
  intro k hk
  cases h with
  | @renewed i l _ h _ _ _ | @lose i l _ h | @loseCancel i l _ h _ | @notice i l _ h _ | @revoke i l _ h
  | @release i l _ h =>
    obtain ⟨hl, hm⟩ := hs k hk
    have hki : k ≠ i := by
      rintro rfl
      simp [hm] at h
    exact ⟨hl, by simpa [hki] using hm⟩

theorem LoopStep.loop_absent (h : LoopStep controllerId s a t) (hi : s.loop i = .absent) :
    t.loop i = .absent := by
  cases h <;> simp_all [update] <;> grind

theorem LoopStep.sync_eq (h : LoopStep controllerId s a t) : t.sync = s.sync := by
  cases h <;> rfl

theorem LoopStep.maintainer_eq (h : LoopStep controllerId s a t) : t.maintainer = s.maintainer := by
  cases h <;> rfl

theorem SessionStep.staged (h : SessionStep controllerId coordinated s a t) (hs : s.Staged) :
    t.Staged := by
  cases h with
  | sync h | maintainer h => exact h.staged hs
  | loop h =>
    intro k hk
    rw [h.sync_eq] at hk
    exact ⟨h.loop_absent (hs k hk).1, h.maintainer_eq ▸ (hs k hk).2⟩

theorem EvictStep.staged (h : EvictStep s a t) (hs : s.Staged) : t.Staged := by
  cases h <;> exact hs

theorem CenterStep.staged (h : CenterStep controllerId coordinated s a t) (hs : s.Staged) :
    t.Staged := by
  cases h with
  | session h | evict h => exact h.staged hs

/-- A session has no Lease before its acquire has returned. -/
def Center.Early (s : Center) : Prop :=
  ∀ i, s.sync i = .connecting ∨ s.sync i = .acquiring → s.ownership i = none

theorem Center.start_early : start.Early := fun _ _ => rfl

theorem CenterStep.early (h : CenterStep controllerId coordinated s a t) (hs : s.Early) :
    t.Early := by
  intro k hk
  cases h with
  | session h =>
    cases h with
    | sync h =>
      cases h with
      | @fence i _ h _ | @unowned i _ h _ | @acquired i _ h _ _ | @refused i _ h | @register i _ h
      | @inform i _ h | @projectionFailed i _ h | @unlist i _ h | @giveUp i _ h | @serve i _ h =>
        have hs := hs k
        by_cases hki : k = i <;> simp_all
    | maintainer h | loop h => cases h <;> exact hs k hk
  | evict h => cases h <;> exact hs k hk

/-- A session keeps the Lease it acquired. -/
theorem CenterStep.ownership_of_some {l : Leadership}
    (h : CenterStep controllerId coordinated s a t) (hs : s.Early)
    (hl : s.ownership i = some l) : t.ownership i = some l := by
  cases h with
  | session h =>
    cases h with
    | sync h =>
      cases h with
      | @acquired j _ h _ _ =>
        have hij : i ≠ j := by
          rintro rfl
          simp [hs i (.inr h)] at hl
        simpa [hij] using hl
      | _ => exact hl
    | maintainer h | loop h => cases h <;> exact hl
  | evict h => cases h <;> exact hl

end Staged

/-- Two Leases a replica acquires for a controller, one after the other. -/
def firstLease : Leadership where
  role := .controllerOwner "edge-1"
  holder := "center-a"
  fencingToken := "t0"
  fencingEpoch := 1
  validForMillis := 15000

def secondLease : Leadership := { firstLease with fencingToken := "t1", fencingEpoch := 2 }

end EdgionCenter
