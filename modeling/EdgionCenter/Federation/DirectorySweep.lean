import EdgionCenter.Federation.Session
import EdgionCenter.Watch.Mirror

/-! The directory sweep of a replica among the sessions of all its controllers, their projections
and watch batches, and the evictions. The sweep acts on the controllers its list did not show. -/
namespace EdgionCenter

open Transition Overrides

namespace Overrides

variable {map : Overrides} {cid key : String} {ids : Finset String}

def retainControllers (map : Overrides) (controllerIds : Finset String) : Overrides :=
  map.filterMap fun _ controllers =>
    let rest := controllers.filter fun id _ => decide (id ∈ controllerIds)
    if rest.isEmpty then none else some rest

theorem row_retainControllers :
    row (map.retainControllers ids) cid key = if cid ∈ ids then row map cid key else none := by
  simp only [row, retainControllers, Std.ExtTreeMap.getElem?_filterMap, Option.pbind_eq_bind]
  cases map[key]? with
  | none => simp
  | some controllers =>
    have hrest : (controllers.filter fun id _ => decide (id ∈ ids))[cid]? =
        if cid ∈ ids then controllers[cid]? else none := by
      rw [Std.ExtTreeMap.getElem?_filter']
      by_cases hc : cid ∈ ids <;> cases controllers[cid]? <;> simp [Option.filter, hc]
    by_cases he : (controllers.filter fun id _ => decide (id ∈ ids)).isEmpty
    · rw [Std.ExtTreeMap.isEmpty_iff.mp he] at hrest
      simp [he, ← hrest]
    · simp [he, hrest]

end Overrides

/-- The call is registered and its directory projection is under way or has succeeded. -/
def SyncPhase.Boarded : SyncPhase → Prop
  | .informing | .projecting | .serving => True
  | _ => False

namespace Center

variable (s : Center)

/-- The registered session is not cancelled, and is completing its projection or has completed
it. -/
def Present : Prop :=
  ∃ e, s.registry = some e ∧ s.cancelled e.sessionId = false ∧ (s.sync e.sessionId).Boarded

/-- A registered session keeps its stream until its projection has failed or it is cleaned up. -/
def Streaming : Prop :=
  ∀ e, s.registry = some e → e.streamTx = true →
    e.offlineSince = false ∧ (s.sync e.sessionId).Boarded

end Center

section Center

variable {controllerId : String} {coordinated : Bool} {s t : Center} {a : Action}

theorem Center.Streaming.present (h : s.Streaming) (ho : s.Online) : s.Present := by
  obtain ⟨e, he, hon⟩ := ho
  rw [Center.isOnline, Bool.and_eq_true, Bool.not_eq_true'] at hon
  exact ⟨e, he, hon.2, (h e he hon.1).2⟩

theorem Center.start_streaming : Center.start.Streaming := by
  intro e he
  cases he

theorem Center.Streaming.congr (h : s.Streaming) (hr : t.registry = s.registry)
    (hp : t.sync = s.sync) : t.Streaming := by
  intro e he hx
  rw [hr] at he
  rw [hp]
  exact h e he hx

/-- Whoever still has a stream after a `mark_offline` is another session. -/
theorem Center.registry_of_sessionMarkOffline {i : Nat} {e : ControllerSession}
    (he : (s.sessionMarkOffline i).registry = some e) (hx : e.streamTx = true) :
    s.registry = some e ∧ (e.offlineSince = false → e.sessionId ≠ i) := by
  cases hm : s.marksOffline i with
  | true =>
    simp only [sessionMarkOffline_registry, hm, ↓reduceIte, Option.some.injEq] at he
    subst he
    cases hx
  | false =>
    simp only [sessionMarkOffline_registry, hm, Bool.false_eq_true, ↓reduceIte] at he
    exact ⟨he, Center.marksOffline_eq_false hm he⟩

theorem SyncStep.streaming (h : SyncStep coordinated s a t) (hs : s.Streaming) : t.Streaming := by
  intro e he hx
  cases h with
  | @register i _ h =>
    obtain rfl : (⟨i, true, false⟩ : ControllerSession) = e := Option.some.inj he
    exact ⟨rfl, by simp [SyncPhase.Boarded]⟩
  | @projectionFailed i _ h =>
    obtain ⟨he, hne⟩ := Center.registry_of_sessionMarkOffline he hx
    obtain ⟨ho, hp⟩ := hs e he hx
    exact ⟨ho, by simpa [hne ho] using hp⟩
  | @fence i _ h _ | @unowned i _ h _ | @acquired i _ h _ _ | @refused i _ h | @inform i _ h | @unlist i _ h
  | @giveUp i _ h | @serve i _ h =>
    obtain ⟨ho, hp⟩ := hs e he hx
    refine ⟨ho, ?_⟩
    by_cases hi : e.sessionId = i
    · simp_all [SyncPhase.Boarded]
    · simpa [hi] using hp

theorem CenterStep.streaming (h : CenterStep controllerId coordinated s a t) (hs : s.Streaming) :
    t.Streaming := by
  cases h with
  | session h =>
    cases h with
    | sync h => exact h.streaming hs
    | maintainer h => cases h <;> exact hs.congr rfl rfl
    | loop h =>
      cases h with
      | @clean i _ h =>
        intro e he hx
        exact hs e (Center.registry_of_sessionMarkOffline he hx).1 hx
      | _ => exact hs.congr rfl rfl
  | evict h =>
    cases h with
    | removeSession h =>
      intro e he
      cases he
    | _ => exact hs.congr rfl rfl

/-- What a step may do to a controller without making it present. -/
structure Center.Recedes (s t : Center) : Prop where
  registered : ∀ e, t.registry = some e → ∃ e', s.registry = some e' ∧ e'.sessionId = e.sessionId
  cancelled : ∀ i, s.cancelled i = true → t.cancelled i = true
  boarded : ∀ i, (t.sync i).Boarded → (s.sync i).Boarded

theorem Center.Recedes.present (h : s.Recedes t) (ht : t.Present) : s.Present := by
  obtain ⟨e, he, hc, hp⟩ := ht
  obtain ⟨e', he', hid⟩ := h.registered e he
  refine ⟨e', he', ?_, ?_⟩
  · rw [hid]
    by_contra hn
    simp [h.cancelled _ (by simpa using hn)] at hc
  · rw [hid]
    exact h.boarded _ hp

theorem Center.Recedes.of_eq (hr : t.registry = s.registry)
    (hc : ∀ i, s.cancelled i = true → t.cancelled i = true) (hp : t.sync = s.sync) : s.Recedes t :=
  ⟨fun e he => ⟨e, hr ▸ he, rfl⟩, hc, fun _ h => hp ▸ h⟩

variable (s) in
theorem Center.recedes_sessionMarkOffline (i : Nat) : s.Recedes (s.sessionMarkOffline i) := by
  refine ⟨fun e he => ?_, fun k hk => ?_, fun _ h => h⟩
  · cases hm : s.marksOffline i with
    | false => exact ⟨e, by simpa [hm] using he, rfl⟩
    | true =>
      have hcur := Center.isCurrentSession_of_marksOffline hm
      cases hr : s.registry <;> simp_all [Center.isCurrentSession]
      rw [← he]
  · by_cases hm : s.marksOffline i <;> by_cases hki : k = i <;> simp [hm, hk, hki]
    rw [← hki, hk]

theorem Center.recedes_fenceOwnedSession : s.Recedes s.fenceOwnedSession := by
  refine .of_eq rfl (fun k hk => ?_) rfl
  cases ho : s.ownedSession with
  | none => simpa [ho] using hk
  | some j => by_cases hj : k = j <;> simp [ho, hj, hk]

variable (s) in
theorem Center.recedes_removeSession : s.Recedes s.removeSession := by
  refine ⟨fun e he => (by cases he), fun k hk => ?_, fun _ hp => hp⟩
  cases hreg : s.registry with
  | none => simpa [hreg] using hk
  | some e => by_cases hke : k = e.sessionId <;> simp [hreg, hke, hk]

theorem Center.Recedes.setSync {i : Nat} {phase : SyncPhase} (h : s.Recedes t)
    (hp : phase.Boarded → (s.sync i).Boarded) : s.Recedes (t.setSync i phase) := by
  refine ⟨h.registered, h.cancelled, fun k hk => ?_⟩
  by_cases hki : k = i
  · subst hki
    exact hp (by simpa using hk)
  · exact h.boarded k (by simpa [hki] using hk)

theorem SyncStep.recedes (h : SyncStep coordinated s a t) (hr : ∀ i, a ≠ .register i) :
    s.Recedes t := by
  cases h with
  | fence h _ => exact Center.recedes_fenceOwnedSession.setSync (by simp [SyncPhase.Boarded])
  | @register i _ h => exact absurd rfl (hr i)
  | projectionFailed h =>
    exact (s.recedes_sessionMarkOffline _).setSync (by simp [SyncPhase.Boarded])
  | @unowned i _ h _ | @acquired i _ h _ _ | @refused i _ h | @inform i _ h | @unlist i _ h
  | @giveUp i _ h | @serve i _ h =>
    refine Center.Recedes.setSync (.of_eq rfl (fun _ hk => hk) rfl) ?_
    simp [SyncPhase.Boarded, h]

/-- Only a registration makes a controller present. -/
theorem CenterStep.recedes (h : CenterStep controllerId coordinated s a t)
    (hr : ∀ i, a ≠ .register i) : s.Recedes t := by
  have hcancel : ∀ {i k : Nat}, s.cancelled k = true → (s.cancel i).cancelled k = true := by
    intro i k hk
    by_cases hki : k = i <;> simp [hki, hk]
  cases h with
  | session h =>
    cases h with
    | sync h => exact h.recedes hr
    | maintainer h =>
      cases h with
      | loseCancel h early => exact .of_eq rfl (fun _ => hcancel) rfl
      | _ => exact .of_eq rfl (fun _ hk => hk) rfl
    | loop h =>
      cases h with
      | heartbeat h => exact .of_eq rfl (fun _ => hcancel) rfl
      | @clean i _ h =>
        obtain ⟨hr, hc, hp⟩ := s.recedes_sessionMarkOffline i
        exact ⟨hr, hc, hp⟩
      | _ => exact .of_eq rfl (fun _ hk => hk) rfl
  | evict h =>
    cases h with
    | removeSession h =>
      obtain ⟨hr, hc, hp⟩ := s.recedes_removeSession
      exact ⟨hr, hc, hp⟩
    | _ => exact .of_eq rfl (fun _ hk => hk) rfl

end Center

/-- The handler call a batch makes. -/
def CacheWrite.call (controllerId : String) (state : CacheState Value) :
    CacheWrite Value → Option (HandlerCall Value)
  | .replaceAll items version server now =>
    (state.replaceAll controllerId items version server now).call
  | .applyEvents events version server now =>
    (state.applyEvents controllerId events version server now).call
  | .setStale => none

/-- Where the sweep stands in an iteration; `visible` holds the controllers it was shown. -/
inductive SweepPhase
  | waiting
  | listed (visible : Finset String)
  | pruned (visible : Finset String)
  | evicting (visible : Finset String) (left : List String)
  | removingSnapshot (visible : Finset String) (target : String) (left : List String)
  | removingCache (visible : Finset String) (target : String) (left : List String)
  | removingRows (visible : Finset String) (target : String) (left : List String)

def SweepPhase.visible : SweepPhase → Option (Finset String)
  | .waiting => none
  | .listed visible | .pruned visible | .evicting visible _ | .removingSnapshot visible _ _
  | .removingCache visible _ _ | .removingRows visible _ _ => some visible

/-- The controller an eviction has begun with. -/
def SweepPhase.target : SweepPhase → Option String
  | .removingSnapshot _ target _ | .removingCache _ target _ | .removingRows _ target _ => some target
  | _ => none

/-- `pending` holds the handler call of a batch whose cache lock is released, and `removals` counts the
evictions that have removed the cache and not yet told the handler; `directory` is the set of
controllers a list shows. -/
structure Replica where
  centers : String → Center
  projected : String → Nat → Bool
  pending : String → Nat → Option (HandlerCall Value)
  removals : String → Nat
  store : Overrides
  directory : Finset String
  sweep : SweepPhase

namespace Replica

variable (s : Replica) (c : String) (i : Nat)

/-- A replica starts without sessions or rows; the directory outlives it. -/
def start (directory : Finset String) : Replica where
  centers := fun _ => .start
  projected := fun _ _ => false
  pending := fun _ _ => none
  removals := fun _ => 0
  store := ∅
  directory := directory
  sweep := .waiting

@[simps] def setCenter (center : Center) : Replica :=
  { s with centers := Function.update s.centers c center }

@[simps] def setPending (call : Option (HandlerCall Value)) : Replica :=
  { s with pending := Function.update s.pending c (Function.update (s.pending c) i call) }

@[simps] def setRemovals (n : Nat) : Replica :=
  { s with removals := Function.update s.removals c n }

@[simps] def project : Replica :=
  { s with
    projected := Function.update s.projected c (Function.update (s.projected c) i true)
    directory := insert c s.directory }

@[simps] def setSweep (phase : SweepPhase) : Replica := { s with sweep := phase }

end Replica

inductive ReplicaAction
  | session (c : String) (a : Action)
  | handle (c : String) (i : Nat)
  | removed (c : String)
  | project (c : String) (i : Nat)
  | record (c : String)
  | forget (c : String)
  | list
  | prune
  | online
  | keep
  | removeSession
  | removeSnapshot
  | removeCache
  | removeRows
  | finish

section Steps

variable (coordinated kubernetes : Bool)

/-- What happens next to the sweep. -/
inductive LiveStep : Replica → ReplicaAction → Replica → Prop
  -- A session is served once its projection has returned.
  | session {s : Replica} (h : CenterStep c coordinated (s.centers c) a center) (hw : ∀ i w, a ≠ .write i w)
      (he : ∀ k, a ≠ .removeCache k) (hp : ∀ i, a = .serve i → s.projected c i = true) :
      LiveStep s (.session c a) (s.setCenter c center)
  -- A cache that was removed still calls the handler, with data of its own.
  | write {s : Replica} (h : CenterStep c coordinated (s.centers c) (.write i w) center)
      (hn : s.pending c i = none) (call : Option (HandlerCall Value))
      (hc : ∀ cache, (s.centers c).watchCache = some cache →
        cache.object = (s.centers c).pmCache i → call = w.call c cache.state) :
      LiveStep s (.session c (.write i w)) ((s.setCenter c center).setPending c i call)
  | handle {s : Replica} (h : s.pending c i = some call) (hs : Handled c s.store call store) :
      LiveStep s (.handle c i) ({ s with store := store }.setPending c i none)
  -- `remove_controller`: the cache, and then the rows.
  | evictCache {s : Replica} (h : CenterStep c coordinated (s.centers c) (.removeCache k) center) :
      LiveStep s (.session c (.removeCache k))
        ((s.setCenter c center).setRemovals c (s.removals c + 1))
  | removed {s : Replica} (h : s.removals c = n + 1) :
      LiveStep s (.removed c)
        ({ s with store := s.store.removeControllerFromOverrideMap c }.setRemovals c n)
  | project {s : Replica} (h : (s.centers c).sync i = .projecting) :
      LiveStep s (.project c i) (s.project c i)
  -- The directory is shared: other replicas project and evict too.
  | record {s : Replica} (c : String) :
      LiveStep s (.record c) { s with directory := insert c s.directory }
  | forget {s : Replica} (c : String) :
      LiveStep s (.forget c) { s with directory := s.directory.erase c }

/-- One iteration of the sweep; a list that fails leaves everything as it is. -/
inductive IterationStep : Replica → ReplicaAction → Replica → Prop
  | list {s : Replica} (h : s.sweep = .waiting) :
      IterationStep s .list (s.setSweep (.listed s.directory))
  | prune {s : Replica} (h : s.sweep = .listed visible) :
      IterationStep s .prune
        ({ s with store := s.store.retainControllers visible }.setSweep
          (if kubernetes then .pruned visible else .waiting))
  | online {s : Replica} (h : s.sweep = .pruned visible)
      (ids : List String) (hids : ∀ c, c ∈ ids ↔ (s.centers c).Online) :
      IterationStep s .online (s.setSweep (.evicting visible ids))
  | keep {s : Replica} (h : s.sweep = .evicting visible (c :: left)) (hc : c ∈ visible) :
      IterationStep s .keep (s.setSweep (.evicting visible left))
  | removeSession {s : Replica} (h : s.sweep = .evicting visible (c :: left)) (hc : c ∉ visible) :
      IterationStep s .removeSession
        ((s.setCenter c (s.centers c).removeSession).setSweep (.removingSnapshot visible c left))
  | removeSnapshot {s : Replica} (h : s.sweep = .removingSnapshot visible c left) :
      IterationStep s .removeSnapshot
        ((s.setCenter c (s.centers c).removeSnapshot).setSweep (.removingCache visible c left))
  | removeCache {s : Replica} (h : s.sweep = .removingCache visible c left) :
      IterationStep s .removeCache
        ((s.setCenter c (s.centers c).removeController).setSweep (.removingRows visible c left))
  | removeRows {s : Replica} (h : s.sweep = .removingRows visible c left) :
      IterationStep s .removeRows
        ({ s with store := s.store.removeControllerFromOverrideMap c }.setSweep
          (.evicting visible left))
  | finish {s : Replica} (h : s.sweep = .evicting visible []) :
      IterationStep s .finish (s.setSweep .waiting)

inductive ReplicaStep : Replica → ReplicaAction → Replica → Prop
  | live {s t : Replica} (h : LiveStep coordinated s a t) : ReplicaStep s a t
  | iteration {s t : Replica} (h : IterationStep kubernetes s a t) :
      ReplicaStep s a t

end Steps

namespace Replica

/-- A row of the controller or its registered session is gone. -/
def Removes (c : String) (s t : Replica) : Prop :=
  (∃ key d, row s.store c key = some d ∧ row t.store c key ≠ some d) ∨
    ∃ e, (s.centers c).registry = some e ∧ (t.centers c).registry ≠ some e

/-- The controller's rows are the projected documents of its watch cache. -/
def Mirrored (s : Replica) (c : String) : Prop :=
  ∀ cache, (s.centers c).watchCache = some cache → Mirrors c ⟨cache.state, s.store⟩

/-- The list is made when it shows every controller that is present here, and until the iteration
is over no other controller registers here or appears in the directory. -/
def Settled (s : Replica) : ReplicaAction → Prop
  | .list => ∀ c, (s.centers c).Present → c ∈ s.directory
  | .session c (.register _) | .project c _ | .record c =>
    ∀ visible, s.sweep.visible = some visible → c ∈ visible
  | _ => True

/-- Whatever the iteration was not shown is absent, and stays so. -/
structure Sparing (s : Replica) : Prop where
  streaming : ∀ c, (s.centers c).Streaming
  hidden : ∀ visible, s.sweep.visible = some visible → ∀ c, c ∉ visible →
    c ∉ s.directory ∧ ¬ (s.centers c).Present
  target : ∀ visible c, s.sweep.visible = some visible → s.sweep.target = some c → c ∉ visible

end Replica

section Sparing

variable {coordinated kubernetes : Bool} {s t : Replica} {a : ReplicaAction} {c : String}
  {center : Center}

theorem Replica.start_sparing (directory : Finset String) : (start directory).Sparing where
  streaming := fun _ => Center.start_streaming
  hidden := fun _ h => by cases h
  target := fun _ _ h => by cases h

theorem Replica.Sparing.setCenter (h : s.Sparing) (hs : center.Streaming)
    (hp : center.Present → (s.centers c).Present ∨
      ∀ visible, s.sweep.visible = some visible → c ∈ visible) :
    (s.setCenter c center).Sparing := by
  refine ⟨fun k => ?_, fun visible hv k hk => ?_, h.target⟩
  · by_cases hkc : k = c
    · subst hkc
      simpa using hs
    · simpa [hkc] using h.streaming k
  · obtain ⟨hd, hn⟩ := h.hidden visible hv k hk
    refine ⟨hd, fun hpres => ?_⟩
    by_cases hkc : k = c
    · subst hkc
      rcases hp (by simpa using hpres) with hold | hvis
      · exact hn hold
      · exact hk (hvis visible hv)
    · exact hn (by simpa [hkc] using hpres)

/-- Records may come and go, as long as none appears that the iteration was not shown. -/
theorem Replica.Sparing.setDirectory {directory : Finset String} (h : s.Sparing)
    (hd : ∀ visible, s.sweep.visible = some visible → ∀ k ∈ directory,
      k ∈ s.directory ∨ k ∈ visible) : { s with directory := directory }.Sparing := by
  refine ⟨h.streaming, fun visible hv k hk => ⟨fun hmem => ?_, (h.hidden visible hv k hk).2⟩,
    h.target⟩
  rcases hd visible hv k hmem with hold | hvis
  · exact (h.hidden visible hv k hk).1 hold
  · exact hk hvis

theorem Replica.Sparing.insert (h : s.Sparing)
    (hc : ∀ visible, s.sweep.visible = some visible → c ∈ visible) :
    { s with directory := insert c s.directory }.Sparing := by
  refine h.setDirectory fun visible hv k hk => ?_
  rcases Finset.mem_insert.mp hk with rfl | hk
  · exact .inr (hc visible hv)
  · exact .inl hk

theorem LiveStep.sparing (h : LiveStep coordinated s a t) (hs : s.Sparing) (hok : s.Settled a) :
    t.Sparing := by
  cases h with
  | @session c a center _ h _ _ _ =>
    refine hs.setCenter (h.streaming (hs.streaming c)) fun hp => ?_
    by_cases hr : ∀ i, a ≠ .register i
    · exact .inl ((h.recedes hr).present hp)
    · obtain ⟨i, hi⟩ := not_forall.mp hr
      obtain rfl := not_not.mp hi
      exact .inr hok
  | @write c i w center _ h _ _ _ =>
    have hc := hs.setCenter (h.streaming (hs.streaming c)) fun hp =>
      .inl ((h.recedes (by simp)).present hp)
    exact ⟨hc.streaming, hc.hidden, hc.target⟩
  | @evictCache c k center _ h =>
    have hc := hs.setCenter (h.streaming (hs.streaming c)) fun hp =>
      .inl ((h.recedes (by simp)).present hp)
    exact ⟨hc.streaming, hc.hidden, hc.target⟩
  | handle _ _ | removed _ => exact ⟨hs.streaming, hs.hidden, hs.target⟩
  | project _ =>
    have hd := hs.insert hok
    exact ⟨hd.streaming, hd.hidden, hd.target⟩
  | record c => exact hs.insert hok
  | forget c => exact hs.setDirectory fun _ _ k hk => .inl (Finset.mem_of_mem_erase hk)

variable {phase : SweepPhase}

/-- The sweep moves on within its iteration, or ends it. -/
theorem Replica.Sparing.setSweep (h : s.Sparing)
    (hv : ∀ visible, phase.visible = some visible → s.sweep.visible = some visible)
    (ht : ∀ visible c, phase.visible = some visible → phase.target = some c → c ∉ visible) :
    (s.setSweep phase).Sparing :=
  ⟨h.streaming, fun visible hp => h.hidden visible (hv visible hp), ht⟩

/-- The eviction goes on with its controller. -/
theorem Replica.Sparing.setTarget {visible : Finset String} (h : s.Sparing)
    (hstreaming : center.Streaming) (hrecedes : (s.centers c).Recedes center)
    (hv : s.sweep.visible = some visible) (ht : s.sweep.target = some c)
    (hv' : phase.visible = some visible) (ht' : phase.target = some c) :
    ((s.setCenter c center).setSweep phase).Sparing := by
  refine (h.setCenter hstreaming fun hp => .inl (hrecedes.present hp)).setSweep
    (fun v hphase => ?_) (fun v k hphase hk => ?_)
  · rw [Replica.setCenter_sweep, hv, ← hv', hphase]
  · rw [hv'] at hphase
    rw [ht'] at hk
    cases hphase
    cases hk
    exact h.target visible c hv ht

theorem IterationStep.sparing (h : IterationStep kubernetes s a t) (hs : s.Sparing)
    (hok : s.Settled a) : t.Sparing := by
  cases h with
  | list h =>
    refine ⟨hs.streaming, fun visible hv c hc => ?_, fun _ _ _ ht => by cases ht⟩
    obtain rfl : s.directory = visible := Option.some.inj hv
    exact ⟨hc, fun hp => hc (hok c hp)⟩
  | @prune visible _ h =>
    have hp : { s with store := s.store.retainControllers visible }.Sparing :=
      ⟨hs.streaming, hs.hidden, hs.target⟩
    cases kubernetes with
    | false => exact hp.setSweep (fun _ hv => by cases hv) (fun _ _ hv => by cases hv)
    | true =>
      refine hp.setSweep (fun v hv => ?_) (fun _ _ _ ht => by cases ht)
      rw [h]
      exact hv
  | online h _ _ | keep h _ =>
    refine hs.setSweep (fun v hv => ?_) (fun _ _ _ ht => by cases ht)
    rw [h]
    exact hv
  | finish h => exact hs.setSweep (fun _ hv => by cases hv) (fun _ _ hv => by cases hv)
  | @removeSession visible c left _ h hc =>
    have hcenter := hs.setCenter (c := c) (fun e he => by cases he)
      fun hp => .inl ((s.centers c).recedes_removeSession.present hp)
    refine hcenter.setSweep (fun v hv => ?_) (fun v k hv hk => ?_)
    · rw [Replica.setCenter_sweep, h]
      exact hv
    · cases hv
      cases hk
      exact hc
  | @removeSnapshot visible c left _ h =>
    exact hs.setTarget ((hs.streaming c).congr rfl rfl) (.of_eq rfl (fun _ hk => hk) rfl)
      (by rw [h]; rfl) (by rw [h]; rfl) rfl rfl
  | @removeCache visible c left _ h =>
    exact hs.setTarget ((hs.streaming c).congr rfl rfl) (.of_eq rfl (fun _ hk => hk) rfl)
      (by rw [h]; rfl) (by rw [h]; rfl) rfl rfl
  | @removeRows visible c left _ h =>
    have hrows : { s with store := s.store.removeControllerFromOverrideMap c }.Sparing :=
      ⟨hs.streaming, hs.hidden, hs.target⟩
    refine hrows.setSweep (fun v hv => ?_) (fun _ _ _ ht => by cases ht)
    rw [h]
    exact hv

theorem ReplicaStep.sparing (h : ReplicaStep coordinated kubernetes s a t) (hs : s.Sparing)
    (hok : s.Settled a) : t.Sparing := by
  cases h with
  | live h | iteration h => exact h.sparing hs hok

theorem Replica.Sparing.ne_target {visible : Finset String} {target : String} (hs : s.Sparing)
    (hc : ∀ visible, s.sweep.visible = some visible → c ∈ visible)
    (hv : s.sweep.visible = some visible) (ht : s.sweep.target = some target) : c ≠ target := by
  rintro rfl
  exact hs.target visible c hv ht (hc visible hv)

/-- The controllers a step of the sweep may touch. -/
theorem IterationStep.untouched (h : IterationStep kubernetes s a t) (hs : s.Sparing)
    (hc : ∀ visible, s.sweep.visible = some visible → c ∈ visible) :
    t.centers c = s.centers c ∧ ∀ key, row t.store c key = row s.store c key := by
  cases h with
  | @prune visible _ h =>
    refine ⟨rfl, fun key => ?_⟩
    have hmem := hc visible (by rw [h]; rfl)
    exact row_retainControllers.trans (if_pos hmem)
  | @removeSession visible target left _ h ht =>
    have hne : c ≠ target := by
      rintro rfl
      exact ht (hc visible (by rw [h]; rfl))
    exact ⟨by simp [hne], fun _ => rfl⟩
  | @removeSnapshot visible target left _ h | @removeCache visible target left _ h =>
    have hne : c ≠ target := hs.ne_target hc (by rw [h]; rfl) (by rw [h]; rfl)
    exact ⟨by simp [hne], fun _ => rfl⟩
  | @removeRows visible target left _ h =>
    have hne : c ≠ target := hs.ne_target hc (by rw [h]; rfl) (by rw [h]; rfl)
    exact ⟨rfl, fun _ => row_removeControllerFromOverrideMap.trans (if_neg hne.symm)⟩
  | list h | online h _ _ | keep h _ | finish h => exact ⟨rfl, fun _ => rfl⟩

/-- Whoever is present or recorded was shown to the iteration. -/
theorem Replica.Sparing.visible (hs : s.Sparing) (hc : c ∈ s.directory ∨ (s.centers c).Present) :
    ∀ visible, s.sweep.visible = some visible → c ∈ visible := by
  intro visible hv
  by_contra hn
  obtain ⟨hd, hp⟩ := hs.hidden visible hv c hn
  rcases hc with hc | hc
  · exact hd hc
  · exact hp hc

/-- If the list shows every controller present on the replica and no other one registers or appears
in the directory before the iteration ends, then the sweep removes only what is neither recorded
nor present, and leaves every online controller's cache and rows as they are. -/
theorem directorySweep_spares_present {directory : Finset String} {as : List ReplicaAction}
    (hrun : Run (Guarded (ReplicaStep coordinated kubernetes) Replica.Settled)
      (Replica.start directory) as s) (h : IterationStep kubernetes s a t) (c : String) :
    (Replica.Removes c s t → c ∉ s.directory ∧ ¬ (s.centers c).Present) ∧
      ((s.centers c).Online → t.centers c = s.centers c ∧ (s.Mirrored c ↔ t.Mirrored c)) := by
  have hs : s.Sparing :=
    hrun.invariant (fun _ _ _ hs hst => hst.1.sparing hs hst.2) (Replica.start_sparing directory)
  constructor
  · intro hrem
    rw [← not_or]
    intro hc
    obtain ⟨hcenter, hrow⟩ := h.untouched hs (hs.visible hc)
    rcases hrem with ⟨key, d, hd, hne⟩ | ⟨e, he, hne⟩
    · exact hne ((hrow key).trans hd)
    · exact hne (hcenter ▸ he)
  · intro ho
    obtain ⟨hcenter, hrow⟩ := h.untouched hs (hs.visible (.inr ((hs.streaming c).present ho)))
    refine ⟨hcenter, ?_⟩
    simp only [Replica.Mirrored, Mirrors, hcenter, hrow]

end Sparing

section Runs

variable {kubernetes : Bool} {s : Replica} {c : String} {center center' : Center}
  {Ok : Replica → ReplicaAction → Prop}

/-- Steps of a session alone that the replica takes as they are. -/
def Action.plain : Action → Bool
  | .write _ _ | .serve _ | .removeCache _ => false
  | _ => true

theorem session_run {as : List Action} (h : Run (CenterStep c false) center as center')
    (hc : s.centers c = center) (hplain : ∀ a ∈ as, a.plain = true)
    (hok : ∀ t a, t.sweep = s.sweep → a ≠ .list → Ok t a) :
    Run (Guarded (ReplicaStep false kubernetes) Ok) s (as.map (.session c))
      (s.setCenter c center') := by
  induction h generalizing s with
  | refl center =>
    have he : s.setCenter c center = s := by simp [Replica.setCenter, ← hc]
    rw [he]
    exact .refl s
  | @step center mid last a as hstep _ ih =>
    subst hc
    have hw : ∀ i w, a ≠ .write i w := by
      rintro i w rfl
      cases hplain _ List.mem_cons_self
    have he : ∀ k, a ≠ .removeCache k := by
      rintro k rfl
      cases hplain _ List.mem_cons_self
    have hs : ∀ i, a = .serve i → s.projected c i = true := by
      rintro i rfl
      cases hplain _ List.mem_cons_self
    refine .step ⟨.live (.session hstep hw he hs), hok s _ rfl (by simp)⟩ ?_
    have hrest := ih (s := s.setCenter c mid) (by simp) (fun b hb => hplain b (by simp [hb]))
      hok
    simpa [Replica.setCenter] using hrest

/-- The center of a controller whose projection is under way. -/
def boardingCenter : Center :=
  ((((Center.start.setSync 0 .registering).register 0).setSync 0 .informing).setControllerInfo
    0).setSync 0 .projecting

def servingCenter : Center :=
  (((boardingCenter.getOrCreate 0).setMaintainer 0 .absent).setLoop 0 .selecting).setSync 0 .serving

/-- The message that is about to be handled is the first list. -/
def receivingCenter : Center := servingCenter.setLoop 0 (.checking [])

theorem boarding_run :
    Run (CenterStep "edge-1" false) .start [.unowned 0, .register 0, .inform 0] boardingCenter :=
  .step (.session (.sync (.unowned rfl rfl))) <| .step (.session (.sync (.register rfl))) <|
    .step (.session (.sync (.inform rfl))) <| .refl _

theorem setLoop_setLoop (i : Nat) (p q : LoopPhase) :
    (center.setLoop i p).setLoop i q = center.setLoop i q := by
  simp [Center.setLoop]

theorem passing_run {i : Nat} {left : List (Check × OnFailure)}
    (h : ∀ x ∈ left, center.passes i x.1 = true) :
    Run (CenterStep c false) (center.setLoop i (.checking left))
      (List.replicate left.length (.pass i)) (center.setLoop i (.checking [])) := by
  induction left with
  | nil => exact .refl _
  | cons x left ih =>
    obtain ⟨check, onFailure⟩ := x
    have hpass : (center.setLoop i (.checking ((check, onFailure) :: left))).passes i check =
        true := by
      have hx := h _ List.mem_cons_self
      cases check <;> exact hx
    refine .step (.session (.loop (.pass (Function.update_self ..) hpass))) ?_
    rw [setLoop_setLoop]
    exact ih fun y hy => h y (List.mem_cons_of_mem _ hy)

theorem receiving_run : Run (CenterStep "edge-1" false) servingCenter
    ([.select 0, .poll 0] ++ List.replicate 8 (.pass 0)) receivingCenter := by
  refine .step (.session (.loop (.select rfl))) <| .step (.session (.loop (.received rfl))) ?_
  rw [setLoop_setLoop]
  have hpass : ∀ x ∈ messageChecks, servingCenter.passes 0 x.1 = true := by decide
  exact passing_run hpass

def firstList : CacheWrite Value := .replaceAll sharedListing.items 7 "server-1" 0

/-- A controller connects, is projected and has its first list applied. -/
def connectActions : List ReplicaAction :=
  [Action.unowned 0, .register 0, .inform 0].map (.session "edge-1") ++
    ([.project "edge-1" 0, .session "edge-1" (.serve 0)] ++
    (([Action.select 0, .poll 0] ++ List.replicate 8 (Action.pass 0)).map (.session "edge-1") ++
    [.session "edge-1" (.write 0 firstList), .handle "edge-1" 0]))

/-- What a controller that has connected leaves behind. -/
structure Connected (s t : Replica) : Prop where
  sweep : t.sweep = s.sweep
  directory : t.directory = insert "edge-1" s.directory
  center : t.centers "edge-1" =
    (receivingCenter.writeCache 0 "edge-1" firstList).setLoop 0 .selecting
  others : ∀ c, c ≠ "edge-1" → t.centers c = s.centers c
  mirrors : Mirrors "edge-1" ⟨firstList.apply "edge-1" CacheState.new, t.store⟩

theorem connect_run (hcenter : s.centers "edge-1" = .start)
    (hpending : s.pending "edge-1" = fun _ => none)
    (hok : ∀ t a, t.sweep = s.sweep → a ≠ .list → Ok t a) :
    ∃ t, Run (Guarded (ReplicaStep false kubernetes) Ok) s connectActions t ∧ Connected s t := by
  let boarding := s.setCenter "edge-1" boardingCenter
  let serving := (boarding.project "edge-1" 0).setCenter "edge-1" servingCenter
  let receiving := serving.setCenter "edge-1" receivingCenter
  have hboard : Run (Guarded (ReplicaStep false kubernetes) Ok) s _ boarding :=
    session_run boarding_run hcenter (by decide) hok
  have hproject : LiveStep false boarding (.project "edge-1" 0) (boarding.project "edge-1" 0) :=
    .project (by simp [boarding, boardingCenter])
  have hserve : LiveStep false (boarding.project "edge-1" 0) (.session "edge-1" (.serve 0))
      serving := by
    refine .session (.session (.sync ?_)) (by simp) (by simp) fun i hi => ?_
    · have hc : (boarding.project "edge-1" 0).centers "edge-1" = boardingCenter := by
        simp [boarding]
      rw [hc]
      exact .serve rfl
    · cases hi
      simp
  have hreceive : Run (Guarded (ReplicaStep false kubernetes) Ok) serving _ receiving :=
    session_run receiving_run (by simp [serving]) (by decide) hok
  have hcreceive : receiving.centers "edge-1" = receivingCenter := by simp [receiving]
  have hwrite : LiveStep false receiving (.session "edge-1" (.write 0 firstList)) _ :=
    .write (.session (.loop (.write (by rw [hcreceive]; rfl) firstList)))
      (by simp [receiving, serving, boarding, hpending]) (firstList.call "edge-1" CacheState.new)
      (by
        rw [hcreceive]
        rintro cache ⟨⟩ -
        rfl)
  refine ⟨_, hboard.append (.step ⟨.live hproject, hok _ _ rfl (by simp)⟩ <|
    .step ⟨.live hserve, hok _ _ rfl (by simp)⟩ <| hreceive.append <|
    .step ⟨.live hwrite, hok _ _ rfl (by simp)⟩ <|
    .step ⟨.live (.handle (by simp; rfl) (.fullSet (.refl _))), hok _ _ rfl (by simp)⟩ <|
    .refl _), ?_⟩
  refine ⟨rfl, rfl, by simp [hcreceive], fun c hc => ?_, fun key => ?_⟩
  · simp [receiving, serving, boarding, hc]
  · exact row_fullSet (l := sharedListing) (.refl _) (by simp [sharedListing, sharedOverride_tidy])

variable {t : Replica}

theorem Connected.row (h : Connected s t) :
    row t.store "edge-1" "shop/shared" = some sharedOverride := by
  have hp : Projected sharedOverride := by decide
  have hdata : (firstList.apply "edge-1" CacheState.new).data["shop/shared"]? =
      some sharedOverride := by rfl
  rw [h.mirrors, hdata]
  simp [project, hp]

theorem Connected.cache (h : Connected s t) : (t.centers "edge-1").watchCache =
    some ⟨0, 0, firstList.apply "edge-1" CacheState.new⟩ := by
  rw [h.center]
  rfl

theorem row_prune_hidden {visible : Finset String} {key : String} (hc : c ∉ visible) :
    row (s.store.retainControllers visible) c key = none := by
  rw [row_retainControllers, if_neg hc]

/-- The controller connects after the list: its rows are pruned although it is recorded, online and
mirrored, and nothing writes them again before the next change of the object. -/
theorem stale_list_prunes_online : ∃ as s t, Run (ReplicaStep false false) (Replica.start ∅) as s ∧
    IterationStep false s .prune t ∧ "edge-1" ∈ s.directory ∧ (s.centers "edge-1").Present ∧
    (s.centers "edge-1").Online ∧ s.Mirrored "edge-1" ∧ Replica.Removes "edge-1" s t ∧
    ¬ t.Mirrored "edge-1" := by
  let listed := (Replica.start ∅).setSweep (.listed ∅)
  obtain ⟨s, hrun, hs⟩ : ∃ s, Run (Guarded (ReplicaStep false false) fun _ _ => True) listed
      connectActions s ∧ Connected listed s := connect_run rfl rfl fun _ _ _ _ => trivial
  have hlist : IterationStep false (Replica.start ∅) .list listed := .list rfl
  have hprune : IterationStep false s .prune _ := .prune hs.sweep
  have hnone : Overrides.row (s.store.retainControllers ∅) "edge-1" "shop/shared" = none :=
    row_prune_hidden (by simp)
  refine ⟨_, s, _, .step (.iteration hlist) (hrun.mono fun h => h.1), hprune, ?_, ?_, ?_, ?_, ?_,
    ?_⟩
  · simp [hs.directory]
  · rw [hs.center]
    exact ⟨⟨0, true, false⟩, rfl, rfl, trivial⟩
  · rw [hs.center]
    exact ⟨⟨0, true, false⟩, rfl, rfl⟩
  · intro cache hcache
    rw [hs.cache] at hcache
    cases hcache
    exact hs.mirrors
  · exact .inl ⟨"shop/shared", sharedOverride, hs.row, by simp [hnone]⟩
  · intro hm
    have hrow := hm _ hs.cache "shop/shared"
    rw [← hs.mirrors "shop/shared", hs.row] at hrow
    simp [hnone] at hrow

/-- The connected controller's heartbeat runs out. -/
theorem disconnected_run : ∃ center, Run (CenterStep "edge-1" false)
    ((receivingCenter.writeCache 0 "edge-1" firstList).setLoop 0 .selecting)
    [.heartbeat 0, .select 0, .clean 0] center ∧ ¬ center.Present := by
  refine ⟨_, .step (.session (.loop (.heartbeat (by simp)))) <|
    .step (.session (.loop (.select rfl))) <| .step (.session (.loop (.clean rfl))) <| .refl _, ?_⟩
  rintro ⟨e, he, hc, -⟩
  obtain rfl : (⟨0, false, true⟩ : ControllerSession) = e := Option.some.inj he
  cases hc

theorem not_present_start : ¬ Center.start.Present := by
  rintro ⟨e, he, -⟩
  cases he

/-- A controller that went offline and was evicted loses its rows. -/
theorem evicted_controller_pruned : ∃ as s t,
    Run (Guarded (ReplicaStep false false) Replica.Settled) (Replica.start ∅) as s ∧
      IterationStep false s .prune t ∧ Replica.Removes "edge-1" s t ∧ "edge-1" ∉ s.directory ∧
      ¬ (s.centers "edge-1").Present := by
  have hok : ∀ (s : Replica) a, s.sweep = .waiting → a ≠ .list → s.Settled a := by
    intro s a hs ha
    cases a with
    | list => exact absurd rfl ha
    | session c a =>
      cases a with
      | register i => simp [Replica.Settled, hs, SweepPhase.visible]
      | _ => trivial
    | project c i | record c => simp [Replica.Settled, hs, SweepPhase.visible]
    | _ => trivial
  obtain ⟨s, hrun, hs⟩ : ∃ s, Run (Guarded (ReplicaStep false false) Replica.Settled) (.start ∅)
      connectActions s ∧ Connected (.start ∅) s := connect_run rfl rfl hok
  obtain ⟨center, hcenter, hgone⟩ := disconnected_run
  have hoffline : Run (Guarded (ReplicaStep false false) Replica.Settled) s _ _ :=
    session_run hcenter hs.center (by decide) (by rw [hs.sweep]; exact hok)
  let offline := s.setCenter "edge-1" center
  let evicted := { offline with directory := offline.directory.erase "edge-1" }
  have habsent : ∀ c, ¬ (evicted.centers c).Present := by
    intro c
    by_cases hc : c = "edge-1"
    · simpa [evicted, offline, hc] using hgone
    · have hstart : evicted.centers c = .start := by
        simp [evicted, offline, hc, hs.others c hc, Replica.start]
      rw [hstart]
      exact not_present_start
  have hwait : evicted.sweep = .waiting := hs.sweep
  have hforget : ReplicaStep false false offline (.forget "edge-1") evicted := .live (.forget _)
  have hlist : ReplicaStep false false evicted .list
      (evicted.setSweep (.listed evicted.directory)) :=
    .iteration (.list hwait)
  have hrun := hrun.append <| hoffline.append <| .step ⟨hforget, trivial⟩ <|
    .step ⟨hlist, fun c hc => absurd hc (habsent c)⟩ <| .refl _
  have hprune : IterationStep false (evicted.setSweep (.listed evicted.directory)) .prune _ :=
    .prune rfl
  have hnone : Overrides.row (s.store.retainControllers evicted.directory) "edge-1" "shop/shared" =
      none := row_prune_hidden (by simp [evicted])
  suffices hremoves : Replica.Removes "edge-1" _ _ from ⟨_, _, _, hrun, hprune, hremoves,
    (directorySweep_spares_present hrun hprune "edge-1").1 hremoves⟩
  exact .inl ⟨"shop/shared", sharedOverride, hs.row, fun h => by cases hnone.symm.trans h⟩

end Runs

end EdgionCenter
