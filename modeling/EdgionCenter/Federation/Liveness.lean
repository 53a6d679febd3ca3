import EdgionCenter.Federation.Session
import EdgionCenter.Lib.Run

/-! Registry, aggregator and watch cache as views of one fact: whether the controller is online. -/
namespace EdgionCenter

open Transition

variable {controllerId : String} {coordinated : Bool} {s t : Center} {a : Action} {i : Nat}

namespace Center

def aggregatorOnline (s : Center) : Prop := ∃ a, s.aggregator = some a ∧ a.offlineSince = false

/-- The registry entry is marked offline. -/
def MarkedOffline (s : Center) : Prop := ∃ e, s.registry = some e ∧ e.offlineSince = true

def CacheStale (s : Center) : Prop := ∀ c, s.watchCache = some c → c.state.stale = true

/-- No registration or cleanup is under way, and no cancelled session still has its loop. -/
structure Quiescent (s : Center) : Prop where
  sync : ∀ i, s.sync i = .connecting ∨ s.sync i = .ended ∨ s.sync i = .serving
  loop : ∀ i, s.loop i ≠ .cleaning ∧ s.loop i ≠ .cleaningAggregator ∧ s.loop i ≠ .cleaningCache
  exited : ∀ i, s.cancelled i = true → s.loop i = .absent ∨ s.loop i = .exited

/-- The three views agree. -/
def Agree (s : Center) : Prop :=
  (s.aggregatorOnline ↔ s.Online) ∧ (¬ s.Online → s.CacheStale)

/-- The orders of steps that keep the views in line: nobody writes for a controller that is marked
offline; a loop leaves without cleaning up only after a takeover; the aggregator is told of a
disconnect while the registry still shows it, or before the next session announces itself; and a
projection fails under a current session only if the cache is stale anyway. -/
def InOrder (s : Center) : Action → Prop
  | .inform _ | .write _ _ => ¬ s.MarkedOffline
  | .serve _ => s.watchCache = none → ¬ s.MarkedOffline
  | .stop i | .quit i => s.isCurrentSession i = false
  | .unlist _ | .cleanAggregator _ =>
    s.MarkedOffline ∨ ∃ e, s.registry = some e ∧ s.sync e.sessionId = .informing
  | .projectionFailed i => s.isCurrentSession i = true → s.CacheStale
  | _ => True

end Center

/-- The loop has yet to reach the registry call of its cleanup. -/
def LoopPhase.Running : LoopPhase → Prop
  | .selecting | .polling | .checking _ | .backoff | .cleaning => True
  | _ => False

namespace Center

/-- Somebody is about to tell the aggregator of a disconnect. -/
def Unlisting (s : Center) : Prop := ∃ k, s.sync k = .unlisting ∨ s.loop k = .cleaningAggregator

/-- Somebody is about to mark the cache stale. -/
def Staling (s : Center) : Prop :=
  ∃ k, s.loop k = .cleaningAggregator ∨ s.loop k = .cleaningCache

/-- The session will still be cleaned up after, or will fail to register. -/
def Attended (s : Center) (i : Nat) : Prop :=
  s.sync i = .informing ∨ s.sync i = .projecting ∨ (s.loop i).Running

/-- What holds in every state, not only in quiescent ones. -/
structure Agreeing (s : Center) : Prop where
  empty : s.registry = none → s.aggregator = none ∧ s.watchCache = none
  stream : ∀ e, s.registry = some e → e.streamTx = !e.offlineSince
  listed : s.MarkedOffline → s.aggregatorOnline → s.Unlisting
  stale : s.MarkedOffline → s.CacheStale ∨ s.Staling
  announced : ∀ e, s.registry = some e → e.offlineSince = false →
    s.aggregatorOnline ∨ s.sync e.sessionId = .informing
  attended : ∀ e, s.registry = some e → e.offlineSince = false → s.Attended e.sessionId

theorem start_agreeing : start.Agreeing := by
  constructor <;> simp [start, MarkedOffline]

theorem Quiescent.not_unlisting (hq : s.Quiescent) : ¬ s.Unlisting := by
  rintro ⟨k, hk | hk⟩
  · rcases hq.sync k with h | h | h <;> simp [h] at hk
  · exact (hq.loop k).2.1 hk

theorem Quiescent.not_staling (hq : s.Quiescent) : ¬ s.Staling := by
  rintro ⟨k, hk | hk⟩
  · exact (hq.loop k).2.1 hk
  · exact (hq.loop k).2.2 hk

/-- An entry that is not marked offline has a live loop, so it is not cancelled. -/
theorem Agreeing.isOnline (h : s.Agreeing) (hq : s.Quiescent) {e : ControllerSession}
    (he : s.registry = some e) (ho : e.offlineSince = false) : s.isOnline e = true := by
  have hrun : (s.loop e.sessionId).Running := by
    rcases h.attended e he ho with hs | hs | hs
    · rcases hq.sync e.sessionId with h | h | h <;> simp [h] at hs
    · rcases hq.sync e.sessionId with h | h | h <;> simp [h] at hs
    · exact hs
  have hcancel : s.cancelled e.sessionId = false := by
    by_contra hc
    rcases hq.exited e.sessionId (by simpa using hc) with hl | hl <;>
      simp [hl, LoopPhase.Running] at hrun
  simp [Center.isOnline, h.stream e he, ho, hcancel]

theorem Agreeing.agree (h : s.Agreeing) (hq : s.Quiescent) : s.Agree := by
  constructor
  · constructor
    · intro ha
      cases hr : s.registry with
      | none =>
        obtain ⟨a, ha, -⟩ := ha
        simp [(h.empty hr).1] at ha
      | some e =>
        have ho : e.offlineSince = false := by
          by_contra ho
          exact hq.not_unlisting (h.listed ⟨e, hr, by simpa using ho⟩ ha)
        exact ⟨e, hr, h.isOnline hq hr ho⟩
    · rintro ⟨e, he, ho⟩
      have hoff : e.offlineSince = false := by
        have := h.stream e he
        simp_all [Center.isOnline]
      rcases h.announced e he hoff with ha | hs
      · exact ha
      · rcases hq.sync e.sessionId with h | h | h <;> simp [h] at hs
  · intro hno c hc
    cases hr : s.registry with
    | none => simp [(h.empty hr).2] at hc
    | some e =>
      have ho : e.offlineSince = true := by
        by_contra ho
        exact hno ⟨e, hr, h.isOnline hq hr (by simpa using ho)⟩
      rcases h.stale ⟨e, hr, ho⟩ with hs | hs
      · exact hs c hc
      · exact absurd hs hq.not_staling

/-- A step that leaves registry and aggregator alone keeps the invariant if it keeps what is under
way. -/
theorem Agreeing.moved (h : s.Agreeing) (hr : t.registry = s.registry)
    (ha : t.aggregator = s.aggregator)
    (hc : s.registry = none → s.watchCache = none → t.watchCache = none)
    (hun : s.aggregatorOnline → s.Unlisting → t.Unlisting)
    (hst : s.MarkedOffline → s.CacheStale ∨ s.Staling → t.CacheStale ∨ t.Staling)
    (hinf : ∀ i, s.sync i = .informing → t.sync i = .informing)
    (hatt : ∀ e, s.registry = some e → e.offlineSince = false →
      s.Attended e.sessionId → t.Attended e.sessionId) : t.Agreeing := by
  have hmark : t.MarkedOffline ↔ s.MarkedOffline := by simp [MarkedOffline, hr]
  have honline : t.aggregatorOnline ↔ s.aggregatorOnline := by simp [aggregatorOnline, ha]
  refine ⟨?_, ?_, ?_, ?_, ?_, ?_⟩
  · rw [hr, ha]
    exact fun hn => ⟨(h.empty hn).1, hc hn (h.empty hn).2⟩
  · rw [hr]
    exact h.stream
  · rw [hmark, honline]
    exact fun hm ho => hun ho (h.listed hm ho)
  · rw [hmark]
    exact fun hm => hst hm (h.stale hm)
  · rw [hr, honline]
    exact fun e he ho => (h.announced e he ho).imp_right (hinf _)
  · rw [hr]
    exact fun e he ho => hatt e he ho (h.attended e he ho)

theorem Agreeing.congr (h : s.Agreeing) (hr : t.registry = s.registry)
    (ha : t.aggregator = s.aggregator) (hc : t.watchCache = s.watchCache) (hs : t.sync = s.sync)
    (hl : t.loop = s.loop) : t.Agreeing := by
  refine h.moved hr ha ?_ ?_ ?_ ?_ ?_ <;>
    simp +contextual [Unlisting, Staling, Attended, CacheStale, hs, hl, hc]

variable {k : Nat} {phase : LoopPhase}

theorem sync_setSync_of_ne {phase p : SyncPhase} (hp : s.sync i ≠ p) (hk : s.sync k = p) :
    (s.setSync i phase).sync k = p := by
  have hki : k ≠ i := by
    rintro rfl
    exact hp hk
  simpa [setSync, hki] using hk

theorem loop_setLoop_of_ne {p : LoopPhase} (hp : s.loop i ≠ p) (hk : s.loop k = p) :
    (s.setLoop i phase).loop k = p := by
  have hki : k ≠ i := by
    rintro rfl
    exact hp hk
  simpa [setLoop, hki] using hk

theorem Agreeing.setSync {phase : SyncPhase} (h : s.Agreeing) (hi : s.sync i ≠ .informing)
    (hp : s.sync i ≠ .projecting) (hu : s.sync i = .unlisting → ¬ s.aggregatorOnline) :
    (s.setSync i phase).Agreeing := by
  refine h.moved rfl rfl (fun _ => id) ?_ (fun _ => id) (fun k => sync_setSync_of_ne hi) ?_
  · rintro ha ⟨k, hk | hk⟩
    · exact ⟨k, .inl (sync_setSync_of_ne (fun hi => hu hi ha) hk)⟩
    · exact ⟨k, .inr hk⟩
  · intro e _ _ hk
    rcases hk with hk | hk | hk
    · exact .inl (sync_setSync_of_ne hi hk)
    · exact .inr (.inl (sync_setSync_of_ne hp hk))
    · exact .inr (.inr hk)

theorem attended_setLoop (h : s.Attended k) (hp : phase.Running ∨ k ≠ i ∨ ¬ (s.loop i).Running) :
    (s.setLoop i phase).Attended k := by
  rcases h with hk | hk | hk
  · exact .inl hk
  · exact .inr (.inl hk)
  · by_cases hki : k = i
    · subst hki
      exact .inr (.inr (by simpa [setLoop, hk] using hp))
    · exact .inr (.inr (by simpa [setLoop, hki] using hk))

theorem Agreeing.setLoop (h : s.Agreeing) (ha : s.loop i ≠ .cleaningAggregator)
    (hc : s.loop i ≠ .cleaningCache)
    (hp : phase.Running ∨ ∀ e, s.registry = some e → e.offlineSince = false → e.sessionId ≠ i) :
    (s.setLoop i phase).Agreeing := by
  refine h.moved rfl rfl (fun _ => id) ?_ ?_ (fun _ => id) ?_
  · rintro - ⟨k, hk | hk⟩
    · exact ⟨k, .inl hk⟩
    · exact ⟨k, .inr (loop_setLoop_of_ne ha hk)⟩
  · rintro - (hs | ⟨k, hk | hk⟩)
    · exact .inl hs
    · exact .inr ⟨k, .inl (loop_setLoop_of_ne ha hk)⟩
    · exact .inr ⟨k, .inr (loop_setLoop_of_ne hc hk)⟩
  · intro e he ho hk
    exact attended_setLoop hk (hp.imp_right fun hp => .inl (hp e he ho))

/-- A registration starts the agreement afresh. -/
theorem register_agreeing : ((s.register i).setSync i .informing).Agreeing := by
  have hs : ((s.register i).setSync i .informing).sync i = .informing := by simp
  refine ⟨by simp, by simp, by simp [MarkedOffline], by simp [MarkedOffline], ?_, ?_⟩
  · intro e he _
    cases he
    exact .inr hs
  · intro e he _
    cases he
    exact .inl hs

theorem inform_agreeing (h : s.Agreeing) (hr : s.registry ≠ none) (hm : ¬ s.MarkedOffline) :
    ((s.setControllerInfo i).setSync i .projecting).Agreeing := by
  refine ⟨fun hn => absurd hn hr, h.stream, fun hm' => absurd hm' hm, fun hm' => absurd hm' hm,
    fun e he ho => .inl ⟨_, rfl, rfl⟩, ?_⟩
  intro e he ho
  by_cases hei : e.sessionId = i
  · exact .inr (.inl (by simp [Center.setSync, hei]))
  · rcases h.attended e he ho with hk | hk | hk
    · exact .inl (by simpa [Center.setSync, setControllerInfo, hei] using hk)
    · exact .inr (.inl (by simpa [Center.setSync, setControllerInfo, hei] using hk))
    · exact .inr (.inr hk)

theorem snapshotMarkOffline_offline : ¬ s.snapshotMarkOffline.aggregatorOnline := by
  rintro ⟨a, ha, ho⟩
  cases hs : s.aggregator <;> simp [snapshotMarkOffline, hs] at ha
  simp [← ha] at ho

/-- The aggregator may be told of a disconnect while the registry shows it, or while the current
session has yet to announce itself. -/
theorem snapshotMarkOffline_agreeing (h : s.Agreeing)
    (hm : s.MarkedOffline ∨ ∃ e, s.registry = some e ∧ s.sync e.sessionId = .informing) :
    s.snapshotMarkOffline.Agreeing := by
  refine ⟨?_, h.stream, fun _ ho => absurd ho snapshotMarkOffline_offline, h.stale, ?_, h.attended⟩
  · intro hn
    simpa [snapshotMarkOffline] using h.empty hn
  · intro e he ho
    rcases hm with ⟨e', he', ho'⟩ | ⟨e', he', hs⟩
    · rw [Option.some.inj (he.symm.trans he')] at ho
      simp [ho'] at ho
    · rw [Option.some.inj (he.symm.trans he')]
      exact .inr hs

theorem unlist_agreeing (h : s.Agreeing) (hs : s.sync i = .unlisting)
    (hm : s.MarkedOffline ∨ ∃ e, s.registry = some e ∧ s.sync e.sessionId = .informing) :
    (s.snapshotMarkOffline.setSync i .releasing).Agreeing := by
  exact (snapshotMarkOffline_agreeing h hm).setSync (by simp [hs]) (by simp [hs])
    fun _ => snapshotMarkOffline_offline

theorem cleanAggregator_agreeing (h : s.Agreeing) (hl : s.loop i = .cleaningAggregator)
    (hm : s.MarkedOffline ∨ ∃ e, s.registry = some e ∧ s.sync e.sessionId = .informing) :
    (s.snapshotMarkOffline.setLoop i .cleaningCache).Agreeing := by
  have hrun : ¬ (s.snapshotMarkOffline.loop i).Running := by
    simp [snapshotMarkOffline, hl, LoopPhase.Running]
  refine (snapshotMarkOffline_agreeing h hm).moved rfl rfl (fun _ => id)
    (fun ho => absurd ho snapshotMarkOffline_offline) ?_ (fun _ => id) ?_
  · intro _ _
    exact .inr ⟨i, .inr (by simp [Center.setLoop])⟩
  · intro e _ _ hk
    exact attended_setLoop hk (.inr (.inr hrun))

theorem cleanCache_agreeing (h : s.Agreeing) (hl : s.loop i = .cleaningCache) :
    (s.cacheMarkOffline.setLoop i .exited).Agreeing := by
  have hrun : ¬ (s.loop i).Running := by simp [hl, LoopPhase.Running]
  refine h.moved rfl rfl ?_ ?_ ?_ (fun _ => id) ?_
  · intro _ hc
    simp [Center.setLoop, cacheMarkOffline, hc]
  · rintro - ⟨k, hk | hk⟩
    · exact ⟨k, .inl hk⟩
    · exact ⟨k, .inr (loop_setLoop_of_ne (by simp [cacheMarkOffline, hl]) hk)⟩
  · intro _ _
    left
    intro c hc
    cases hs : s.watchCache <;> simp [Center.setLoop, cacheMarkOffline, hs] at hc
    simp [← hc, CacheState.setStale]
  · intro e _ _ hk
    exact attended_setLoop hk (.inr (.inr hrun))

/-- Marking the current session offline is in line once the other two calls are under way. -/
theorem markOffline_agreeing (hr : t.registry = some ⟨i, false, true⟩) (hun : t.Unlisting)
    (hst : t.CacheStale ∨ t.Staling) : t.Agreeing := by
  refine ⟨by simp [hr], by simp [hr], fun _ _ => hun, fun _ => hst, ?_, ?_⟩ <;>
  · intro e he ho
    rw [hr] at he
    cases he
    simp at ho

theorem projectionFailed_agreeing (h : s.Agreeing) (hs : s.sync i = .projecting)
    (hc : s.isCurrentSession i = true → s.CacheStale) :
    ((s.sessionMarkOffline i).setSync i .unlisting).Agreeing := by
  have hun : ((s.sessionMarkOffline i).setSync i .unlisting).Unlisting := ⟨i, .inl (by simp)⟩
  cases hm : s.marksOffline i with
  | true =>
    exact markOffline_agreeing (i := i) (by simp [hm]) hun
      (.inl (hc (isCurrentSession_of_marksOffline hm)))
  | false =>
    refine h.moved (by simp [hm]) rfl (fun _ => id) (fun _ _ => hun) (fun _ => id) ?_ ?_
    · exact fun k => sync_setSync_of_ne (by simp [hs])
    · intro e her ho hk
      have hei := marksOffline_eq_false hm her ho
      rcases hk with hk | hk | hk
      · exact .inl (by simpa [hei] using hk)
      · exact .inr (.inl (by simpa [hei] using hk))
      · exact .inr (.inr hk)

theorem clean_agreeing (h : s.Agreeing) (hl : s.loop i = .cleaning) :
    ((s.sessionMarkOffline i).setLoop i
      (if s.marksOffline i then .cleaningAggregator else .exited)).Agreeing := by
  cases hm : s.marksOffline i with
  | true =>
    exact markOffline_agreeing (i := i) (by simp [hm]) ⟨i, .inr (by simp)⟩
      (.inr ⟨i, .inl (by simp)⟩)
  | false =>
    have h' : (s.sessionMarkOffline i).Agreeing := h.congr (by simp [hm]) rfl rfl rfl rfl
    refine h'.setLoop (by simp [hl]) (by simp [hl]) (.inr ?_)
    intro e he ho
    exact marksOffline_eq_false hm (by simpa [hm] using he) ho

theorem write_agreeing {w : CacheWrite Value} (h : s.Agreeing) (hm : ¬ s.MarkedOffline) :
    (s.writeCache i controllerId w).Agreeing := by
  refine h.moved rfl rfl ?_ (fun _ => id) (fun hm' => absurd hm' hm) (fun _ => id)
    (fun _ _ _ => id)
  intro _ hc
  simp [writeCache, hc]

theorem serve_agreeing {phase : MaintainerPhase} (h : s.Agreeing) (hs : s.sync i = .projecting)
    (hl : s.loop i = .absent) (hr : s.registry ≠ none)
    (hm : s.watchCache = none → ¬ s.MarkedOffline) :
    ((((s.getOrCreate i).setMaintainer i phase).setLoop i .selecting).setSync i
      .serving).Agreeing := by
  refine h.moved rfl rfl (fun hn => absurd hn hr) ?_ ?_ ?_ ?_
  · rintro - ⟨k, hk | hk⟩
    · exact ⟨k, .inl (sync_setSync_of_ne (by simp [hs]) hk)⟩
    · exact ⟨k, .inr (loop_setLoop_of_ne (by simp [hl]) hk)⟩
  · rintro hmark (hst | ⟨k, hk | hk⟩)
    · left
      intro c hc
      cases hw : s.watchCache with
      | none => exact absurd hmark (hm hw)
      | some c' =>
        have he : { c' with owner := i } = c := by simpa [hw] using hc
        rw [← he]
        exact hst c' hw
    · exact .inr ⟨k, .inl (loop_setLoop_of_ne (by simp [hl]) hk)⟩
    · exact .inr ⟨k, .inr (loop_setLoop_of_ne (by simp [hl]) hk)⟩
  · exact fun k => sync_setSync_of_ne (by simp [hs])
  · intro e _ _ hk
    by_cases hei : e.sessionId = i
    · exact .inr (.inr (by simp [hei, LoopPhase.Running]))
    · rcases hk with hk | hk | hk
      · exact .inl (by simpa [hei] using hk)
      · exact .inr (.inl (by simpa [hei] using hk))
      · exact .inr (.inr (by simpa [hei] using hk))

/-- A session that is registering finds its own entry, or a newer one. -/
def Registered (s : Center) : Prop :=
  s.registry = none → ∀ i, s.sync i ≠ .informing ∧ s.sync i ≠ .projecting

end Center

open Center

theorem SyncStep.agreeing (h : SyncStep coordinated s a t) (hs : s.Agreeing) (hst : s.Staged)
    (hr : s.Registered) (hok : s.InOrder a) : t.Agreeing := by
  cases h with
  | fence h _ =>
    exact (hs.congr (t := s.fenceOwnedSession) rfl rfl rfl rfl rfl).setSync (by simp [h])
      (by simp [h]) (by simp [h])
  | unowned h _ => exact hs.setSync (by simp [h]) (by simp [h]) (by simp [h])
  | @acquired i _ h l _ =>
    exact (hs.congr (t := { s with ownership := Function.update s.ownership i (some l) })
      rfl rfl rfl rfl rfl).setSync (by simp [h]) (by simp [h]) (by simp [h])
  | refused h => exact hs.setSync (by simp [h]) (by simp [h]) (by simp [h])
  | register h => exact register_agreeing
  | @inform i _ h => exact inform_agreeing hs (fun hn => (hr hn i).1 h) hok
  | projectionFailed h => exact projectionFailed_agreeing hs h hok
  | unlist h => exact unlist_agreeing hs h hok
  | @giveUp i _ h =>
    exact (hs.congr (t := { s with released := (s.ownership i).toList ++ s.released })
      rfl rfl rfl rfl rfl).setSync (by simp [h]) (by simp [h]) (by simp [h])
  | @serve i _ h =>
    exact serve_agreeing hs h (hst i (by simp [h])).1 (fun hn => (hr hn i).2 h) hok

theorem MaintainerStep.agreeing (h : MaintainerStep s a t) (hs : s.Agreeing) : t.Agreeing := by
  cases h <;> exact hs.congr rfl rfl rfl rfl rfl

theorem LoopStep.agreeing (h : LoopStep controllerId s a t) (hs : s.Agreeing) (hok : s.InOrder a) :
    t.Agreeing := by
  have hcur : ∀ {i}, s.isCurrentSession i = false →
      ∀ e, s.registry = some e → e.offlineSince = false → e.sessionId ≠ i := by
    intro i hi e he _
    simpa [isCurrentSession, he] using hi
  cases h with
  | heartbeat h => exact hs.congr rfl rfl rfl rfl rfl
  | @select i _ h =>
    refine hs.setLoop (by simp [h]) (by simp [h]) (.inl ?_)
    split <;> trivial
  | idle h | closed h | received h | pass h _ | skip h _ | handle h | backoff h | resume h =>
    exact hs.setLoop (by simp [h]) (by simp [h]) (.inl trivial)
  | stop h _ | quit h => exact hs.setLoop (by simp [h]) (by simp [h]) (.inr (hcur hok))
  | write h w =>
    exact (write_agreeing hs hok).setLoop (by simp [h]) (by simp [h]) (.inl trivial)
  | clean h => exact clean_agreeing hs h
  | cleanAggregator h => exact cleanAggregator_agreeing hs h hok
  | cleanCache h => exact cleanCache_agreeing hs h

theorem SyncStep.registered (h : SyncStep coordinated s a t) (hr : s.Registered) :
    t.Registered := by
  intro hn k
  cases h with
  | register h => simp at hn
  | @inform i _ h => exact absurd h (hr hn i).1
  | @projectionFailed i _ h =>
    have hn' : s.registry = none := by
      cases hm : s.marksOffline i <;> simp_all
    exact absurd h (hr hn' i).2
  | @fence i _ h _ | @unowned i _ h _ | @acquired i _ h _ _ | @refused i _ h | @unlist i _ h | @giveUp i _ h
  | @serve i _ h =>
    have hk := hr hn k
    by_cases hki : k = i <;> simp_all

theorem SessionStep.registered (h : SessionStep controllerId coordinated s a t)
    (hr : s.Registered) : t.Registered := by
  cases h with
  | sync h => exact h.registered hr
  | maintainer h => cases h <;> exact hr
  | loop h =>
    intro hn
    rw [h.sync_eq]
    refine hr ?_
    cases h with
    | @clean i _ _ => cases hm : s.marksOffline i <;> simp_all
    | _ => exact hn

/-- The invariant with the facts about phases it rests on. -/
structure Center.Aligned (s : Center) : Prop where
  agreeing : s.Agreeing
  staged : s.Staged
  registered : s.Registered

theorem SessionStep.aligned (h : SessionStep controllerId coordinated s a t) (hs : s.Aligned)
    (hok : s.InOrder a) : t.Aligned := by
  refine ⟨?_, h.staged hs.staged, h.registered hs.registered⟩
  cases h with
  | sync h => exact h.agreeing hs.agreeing hs.staged hs.registered hok
  | maintainer h => exact h.agreeing hs.agreeing
  | loop h => exact h.agreeing hs.agreeing hok

theorem Center.start_aligned : start.Aligned :=
  ⟨start_agreeing, start_staged, by simp [Registered, start]⟩

/-- A session connects, loses its heartbeat and is cleaned up after. -/
theorem disconnect_run :
    ∃ s : Center, Run (Guarded (SessionStep "edge-1" false) InOrder) Center.start
        [.unowned 0, .register 0, .inform 0, .serve 0, .heartbeat 0, .select 0, .clean 0,
          .cleanAggregator 0, .cleanCache 0] s ∧ s.Quiescent ∧ s.MarkedOffline := by
  refine ⟨_, .step ⟨.sync (.unowned rfl rfl), trivial⟩ <| .step ⟨.sync (.register rfl), trivial⟩ <|
    .step ⟨.sync (.inform rfl), by simp [InOrder, MarkedOffline]⟩ <|
    .step ⟨.sync (.serve rfl), by simp [InOrder, MarkedOffline]⟩ <|
    .step ⟨.loop (.heartbeat (by simp)), trivial⟩ <| .step ⟨.loop (.select rfl), trivial⟩ <|
    .step ⟨.loop (.clean rfl), trivial⟩ <|
    .step ⟨.loop (.cleanAggregator rfl), .inl ⟨⟨0, false, true⟩, rfl, rfl⟩⟩ <|
    .step ⟨.loop (.cleanCache rfl), trivial⟩ <| .refl _,
    ⟨fun i => ?_, fun i => ?_, fun i => ?_⟩, ⟨0, false, true⟩, rfl, rfl⟩ <;>
  by_cases hi : i = 0 <;> simp [hi, Center.start]

/-- If every step meets the order conditions, the views agree whenever the replica is quiescent. -/
theorem agree_of_inOrder_run {as : List Action} (hq : s.Quiescent)
    (h : Run (Guarded (SessionStep controllerId coordinated) InOrder) Center.start as s) :
    s.Agree := by
  have hs : s.Aligned := h.invariant (fun _ _ _ hs hst => hst.1.aligned hs hst.2) start_aligned
  exact hs.agreeing.agree hq

theorem agree_of_inOrder_run_disconnect :
    ∃ s : Center, Run (Guarded (SessionStep "edge-1" false) InOrder) Center.start
        [.unowned 0, .register 0, .inform 0, .serve 0, .heartbeat 0, .select 0, .clean 0,
          .cleanAggregator 0, .cleanCache 0] s ∧ s.MarkedOffline ∧ s.Agree := by
  obtain ⟨s, h, hq, hm⟩ := disconnect_run
  exact ⟨s, h, hm, agree_of_inOrder_run hq h⟩

/-- The projection of a superseded session fails: its cleanup takes the aggregator offline although
the newer session is online. -/
theorem late_projection_failure_disagrees :
    ∃ s : Center, Run (SessionStep "edge-1" false) Center.start
        [.unowned 0, .register 0, .inform 0, .unowned 1, .register 1, .inform 1, .serve 1,
          .projectionFailed 0, .unlist 0, .giveUp 0] s ∧ s.Quiescent ∧ ¬ s.Agree := by
  refine ⟨_, .step (.sync (.unowned rfl rfl)) <| .step (.sync (.register rfl)) <|
    .step (.sync (.inform rfl)) <| .step (.sync (.unowned rfl rfl)) <|
    .step (.sync (.register rfl)) <| .step (.sync (.inform rfl)) <| .step (.sync (.serve rfl)) <|
    .step (.sync (.projectionFailed rfl)) <| .step (.sync (.unlist rfl)) <|
    .step (.sync (.giveUp rfl)) <| .refl _, ⟨fun i => ?_, fun i => ?_, fun i => ?_⟩, ?_⟩
  case refine_4 =>
    rintro ⟨hiff, -⟩
    obtain ⟨a, ha, ho⟩ := hiff.mpr ⟨⟨1, true, false⟩, rfl, rfl⟩
    cases ha
    cases ho
  all_goals
    rcases i with _ | _ | i <;> simp [Center.start, marksOffline]

end EdgionCenter
