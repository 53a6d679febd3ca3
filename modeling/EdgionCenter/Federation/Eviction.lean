import EdgionCenter.Federation.Session
import EdgionCenter.Lib.Run

/-! What a fenced eviction removes, and whose it is. -/
namespace EdgionCenter

open Transition

variable {controllerId : String} {coordinated : Bool} {s t : Center} {a : Action} {i : Nat}

/-- The eviction has been checked against this fence and has yet to remove the session. -/
def EvictionPhase.SessionAhead (fence : OwnershipFence) : EvictionPhase → Prop
  | .removingSession (some (_, f)) => f = fence
  | _ => False

def EvictionPhase.SnapshotAhead (fence : OwnershipFence) : EvictionPhase → Prop
  | .removingSession (some (_, f)) | .removingSnapshot (some (_, f)) => f = fence
  | _ => False

def EvictionPhase.CacheAhead (fence : OwnershipFence) : EvictionPhase → Prop
  | .removingSession (some (_, f)) | .removingSnapshot (some (_, f))
  | .removingCache (some (_, f)) => f = fence
  | _ => False

namespace Center

/-- The session was registered under this fence. -/
def Belongs (s : Center) (fence : OwnershipFence) (i : Nat) : Prop :=
  ∃ l, s.ownership i = some l ∧ l.fence = fence

/-- What each fenced eviction is about to remove belongs to its fence. -/
structure EvictsOwn (s : Center) : Prop where
  session : ∀ k holder fence, s.evictor k = .removingSession (some (holder, fence)) →
    ∀ e, s.registry = some e → s.Belongs fence e.sessionId
  snapshot : ∀ k holder fence, s.evictor k = .removingSnapshot (some (holder, fence)) →
    ∀ a, s.aggregator = some a → s.Belongs fence a.owner
  cache : ∀ k holder fence, s.evictor k = .removingCache (some (holder, fence)) →
    ∀ c, s.watchCache = some c → s.Belongs fence c.owner

/-- A session of another fence writes none of the three views while a fenced eviction still has
that view ahead of it, and an eviction starts only if the read models show the fence it checks. -/
def Undisturbed (s : Center) : Action → Prop
  | .register i => ∀ k fence, (s.evictor k).SessionAhead fence → s.Belongs fence i
  | .inform i => ∀ k fence, (s.evictor k).SnapshotAhead fence → s.Belongs fence i
  | .serve i => ∀ k fence, (s.evictor k).CacheAhead fence → s.Belongs fence i
  | .evict _ (some (_, fence)) => (∀ a, s.aggregator = some a → s.Belongs fence a.owner) ∧
    ∀ c, s.watchCache = some c → s.Belongs fence c.owner
  | _ => True

/-- Everything an eviction has ahead of it belongs to its fence, not only the next removal. -/
structure Targeted (s : Center) : Prop where
  session : ∀ k fence, (s.evictor k).SessionAhead fence →
    ∀ e, s.registry = some e → s.Belongs fence e.sessionId
  snapshot : ∀ k fence, (s.evictor k).SnapshotAhead fence →
    ∀ a, s.aggregator = some a → s.Belongs fence a.owner
  cache : ∀ k fence, (s.evictor k).CacheAhead fence →
    ∀ c, s.watchCache = some c → s.Belongs fence c.owner

theorem start_targeted : start.Targeted := by
  constructor <;> simp [start]

theorem Targeted.evictsOwn (h : s.Targeted) : s.EvictsOwn := by
  refine ⟨?_, ?_, ?_⟩ <;> intro k holder fence hk
  · exact h.session k fence (by simp [hk, EvictionPhase.SessionAhead])
  · exact h.snapshot k fence (by simp [hk, EvictionPhase.SnapshotAhead])
  · exact h.cache k fence (by simp [hk, EvictionPhase.CacheAhead])

theorem kept {α β : Type} {x : Option α} {f : α → β} {Q : α → Prop} (y : α) (h : x = some y) :
    (∃ y', x = some y' ∧ f y' = f y) ∨ Q y := .inl ⟨y, h, rfl⟩

/-- A step keeps the targets if each view it writes is written for the fence ahead. -/
theorem Targeted.moved (h : s.Targeted) (hb : ∀ f i, s.Belongs f i → t.Belongs f i)
    (hev : t.evictor = s.evictor)
    (hr : ∀ e, t.registry = some e → (∃ e', s.registry = some e' ∧ e'.sessionId = e.sessionId) ∨
      ∀ k f, (s.evictor k).SessionAhead f → s.Belongs f e.sessionId)
    (ha : ∀ a, t.aggregator = some a → (∃ a', s.aggregator = some a' ∧ a'.owner = a.owner) ∨
      ∀ k f, (s.evictor k).SnapshotAhead f → s.Belongs f a.owner)
    (hc : ∀ c, t.watchCache = some c → (∃ c', s.watchCache = some c' ∧ c'.owner = c.owner) ∨
      ∀ k f, (s.evictor k).CacheAhead f → s.Belongs f c.owner) : t.Targeted := by
  refine ⟨?_, ?_, ?_⟩ <;> rw [hev]
  · intro k f hk e he
    rcases hr e he with ⟨e', he', heq⟩ | hr
    · exact hb _ _ (heq ▸ h.session k f hk e' he')
    · exact hb _ _ (hr k f hk)
  · intro k f hk a he
    rcases ha a he with ⟨a', he', heq⟩ | ha
    · exact hb _ _ (heq ▸ h.snapshot k f hk a' he')
    · exact hb _ _ (ha k f hk)
  · intro k f hk c he
    rcases hc c he with ⟨c', he', heq⟩ | hc
    · exact hb _ _ (heq ▸ h.cache k f hk c' he')
    · exact hb _ _ (hc k f hk)

theorem sessionId_sessionMarkOffline {e : ControllerSession}
    (h : (s.sessionMarkOffline i).registry = some e) :
    ∃ e', s.registry = some e' ∧ e'.sessionId = e.sessionId := by
  have hcur : (s.sessionMarkOffline i).isCurrentSession e.sessionId = true := by
    unfold isCurrentSession
    simp only [h, beq_self_eq_true]
  rw [isCurrentSession_sessionMarkOffline] at hcur
  cases hr : s.registry <;> simp_all [isCurrentSession]

end Center

open Center

theorem CenterStep.belongs {f : OwnershipFence} (h : CenterStep controllerId coordinated s a t)
    (he : s.Early) (hb : s.Belongs f i) : t.Belongs f i := by
  obtain ⟨l, hl, hf⟩ := hb
  exact ⟨l, h.ownership_of_some he hl, hf⟩

theorem SyncStep.targeted (h : SyncStep coordinated s a t)
    (hb : ∀ f i, s.Belongs f i → t.Belongs f i) (hs : s.Targeted) (hok : s.Undisturbed a) :
    t.Targeted := by
  cases h with
  | register h =>
    refine hs.moved hb rfl ?_ kept kept
    intro e he
    cases he
    exact .inr hok
  | inform h =>
    refine hs.moved hb rfl kept ?_ kept
    intro a ha
    cases ha
    exact .inr hok
  | projectionFailed h =>
    exact hs.moved hb rfl (fun e he => .inl (sessionId_sessionMarkOffline he)) kept kept
  | unlist h =>
    refine hs.moved hb rfl kept ?_ kept
    intro a ha
    obtain ⟨a', ha', rfl⟩ := Option.map_eq_some_iff.mp ha
    exact .inl ⟨a', ha', rfl⟩
  | @serve i _ h =>
    refine hs.moved hb rfl kept kept ?_
    intro c hc
    have howner : c.owner = i := by
      cases hw : s.watchCache <;> simp [hw] at hc <;> simp [← hc]
    exact .inr (howner ▸ hok)
  | _ => exact hs.moved hb rfl kept kept kept

theorem LoopStep.targeted (h : LoopStep controllerId s a t)
    (hb : ∀ f i, s.Belongs f i → t.Belongs f i) (hs : s.Targeted) : t.Targeted := by
  cases h with
  | write h w =>
    refine hs.moved hb rfl kept kept ?_
    intro c hc
    obtain ⟨c', hc', rfl⟩ := Option.map_eq_some_iff.mp hc
    refine .inl ⟨c', hc', ?_⟩
    split <;> rfl
  | clean h => exact hs.moved hb rfl (fun e he => .inl (sessionId_sessionMarkOffline he)) kept kept
  | cleanAggregator h =>
    refine hs.moved hb rfl kept ?_ kept
    intro a ha
    obtain ⟨a', ha', rfl⟩ := Option.map_eq_some_iff.mp ha
    exact .inl ⟨a', ha', rfl⟩
  | cleanCache h =>
    refine hs.moved hb rfl kept kept ?_
    intro c hc
    obtain ⟨c', hc', rfl⟩ := Option.map_eq_some_iff.mp hc
    exact .inl ⟨c', hc', rfl⟩
  | _ => exact hs.moved hb rfl kept kept kept

/-- An eviction moves on: it needs its own targets right, and the others keep theirs. -/
theorem evictor_targeted {k : Nat} {phase : EvictionPhase} (h : s.Targeted)
    (ho : t.ownership = s.ownership) (he : t.evictor = Function.update s.evictor k phase)
    (hr : t.registry = s.registry ∨ t.registry = none)
    (ha : t.aggregator = s.aggregator ∨ t.aggregator = none)
    (hc : t.watchCache = s.watchCache ∨ t.watchCache = none)
    (hs : ∀ f, phase.SessionAhead f → ∀ e, s.registry = some e → s.Belongs f e.sessionId)
    (hsn : ∀ f, phase.SnapshotAhead f → ∀ a, s.aggregator = some a → s.Belongs f a.owner)
    (hca : ∀ f, phase.CacheAhead f → ∀ c, s.watchCache = some c → s.Belongs f c.owner) :
    t.Targeted := by
  have hb : ∀ f i, t.Belongs f i ↔ s.Belongs f i := by simp [Belongs, ho]
  have hev : ∀ {P : EvictionPhase → Prop} {Q : Prop}, (∀ j, P (s.evictor j) → Q) → (P phase → Q) →
      ∀ j, P (t.evictor j) → Q := by
    intro P Q hold hnew j hj
    by_cases hjk : j = k
    · exact hnew (by simpa [he, hjk] using hj)
    · exact hold j (by simpa [he, hjk] using hj)
  refine ⟨?_, ?_, ?_⟩ <;> intro j f hj x hx <;> rw [hb]
  · rcases hr with hr | hr <;> rw [hr] at hx
    · exact hev (P := (·.SessionAhead f)) (fun j hj => h.session j f hj x hx)
        (fun hp => hs f hp x hx) j hj
    · cases hx
  · rcases ha with ha | ha <;> rw [ha] at hx
    · exact hev (P := (·.SnapshotAhead f)) (fun j hj => h.snapshot j f hj x hx)
        (fun hp => hsn f hp x hx) j hj
    · cases hx
  · rcases hc with hc | hc <;> rw [hc] at hx
    · exact hev (P := (·.CacheAhead f)) (fun j hj => h.cache j f hj x hx)
        (fun hp => hca f hp x hx) j hj
    · cases hx

theorem belongs_of_matchesOwnership {view : SessionView} {holder : String} {fence : OwnershipFence}
    {e : ControllerSession} (hv : s.getSession = some view)
    (hm : view.matchesOwnership holder fence = true) (he : s.registry = some e) :
    s.Belongs fence e.sessionId := by
  obtain ⟨e', he', rfl⟩ := Option.map_eq_some_iff.mp hv
  obtain rfl := Option.some.inj (he'.symm.trans he)
  cases ho : s.ownership e'.sessionId with
  | none => simp [SessionView.matchesOwnership, sessionOwnership, ho] at hm
  | some l => exact ⟨l, ho, by simp_all [SessionView.matchesOwnership, sessionOwnership]⟩

theorem EvictStep.targeted (h : EvictStep s a t) (hs : s.Targeted) (hok : s.Undisturbed a) :
    t.Targeted := by
  cases h with
  | fenced h hv hm =>
    refine evictor_targeted hs rfl rfl (.inl rfl) (.inl rfl) (.inl rfl) ?_ ?_ ?_
    · rintro f rfl e he
      exact belongs_of_matchesOwnership hv hm he
    · rintro f rfl
      exact hok.1
    · rintro f rfl
      exact hok.2
  | unfenced h =>
    exact evictor_targeted hs rfl rfl (.inl rfl) (.inl rfl) (.inl rfl) (fun _ => False.elim)
      (fun _ => False.elim) (fun _ => False.elim)
  | @removeSession k target _ h =>
    refine evictor_targeted hs rfl rfl (.inr rfl) (.inl rfl) (.inl rfl) (fun _ => False.elim) ?_ ?_
    · exact fun f hf => hs.snapshot k f (by rw [h]; cases target <;> exact hf)
    · exact fun f hf => hs.cache k f (by rw [h]; cases target <;> exact hf)
  | @removeSnapshot k target _ h =>
    refine evictor_targeted hs rfl rfl (.inl rfl) (.inr rfl) (.inl rfl) (fun _ => False.elim)
      (fun _ => False.elim) ?_
    exact fun f hf => hs.cache k f (by rw [h]; cases target <;> exact hf)
  | removeCache h =>
    exact evictor_targeted hs rfl rfl (.inl rfl) (.inl rfl) (.inr rfl) (fun _ => False.elim)
      (fun _ => False.elim) (fun _ => False.elim)

theorem CenterStep.targeted (h : CenterStep controllerId coordinated s a t) (he : s.Early)
    (hs : s.Targeted) (hok : s.Undisturbed a) : t.Targeted := by
  have hb : ∀ f i, s.Belongs f i → t.Belongs f i := fun f i => h.belongs he
  cases h with
  | session h =>
    cases h with
    | sync h => exact h.targeted hb hs hok
    | maintainer h => cases h <;> exact hs.moved hb rfl kept kept kept
    | loop h => exact h.targeted hb hs
  | evict h => exact h.targeted hs hok

/-- A session is served, and its eviction passes the check. -/
theorem checked_eviction_run :
    ∃ s, Run (Guarded (CenterStep "edge-1" true) Undisturbed) Center.start
        [.fence 0, .acquired 0 firstLease, .register 0, .inform 0, .serve 0,
          .evict 0 (some ("center-a", firstLease.fence))] s ∧
      s.registry = some ⟨0, true, false⟩ ∧
      s.evictor 0 = .removingSession (some ("center-a", firstLease.fence)) := by
  have hown : Center.Belongs ({ Center.start with
      ownership := Function.update Center.start.ownership 0 (some firstLease) })
      firstLease.fence 0 := ⟨firstLease, rfl, rfl⟩
  refine ⟨_, .step ⟨.session (.sync (.fence rfl rfl)), trivial⟩ <|
    .step ⟨.session (.sync (.acquired rfl firstLease (by simp [Center.start]))), trivial⟩ <|
    .step ⟨.session (.sync (.register rfl)), fun _ _ => False.elim⟩ <|
    .step ⟨.session (.sync (.inform rfl)), fun _ _ => False.elim⟩ <|
    .step ⟨.session (.sync (.serve rfl)), fun _ _ => False.elim⟩ <|
    .step ⟨.evict (.fenced rfl rfl (by decide)), ?_, ?_⟩ <| .refl _, rfl, rfl⟩
  · rintro a ⟨⟩
    exact hown
  · rintro c ⟨⟩
    exact hown

/-- In an undisturbed run, whatever a fenced eviction is about to remove belongs to its fence. -/
theorem evictsOwn_of_undisturbed_run {as : List Action}
    (h : Run (Guarded (CenterStep controllerId coordinated) Undisturbed) Center.start as s) :
    s.EvictsOwn := by
  have hs : s.Targeted ∧ s.Early :=
    h.invariant (P := fun s => s.Targeted ∧ s.Early)
      (fun _ _ _ hs hst => ⟨hst.1.targeted hs.2 hs.1 hst.2, hst.1.early hs.2⟩)
      ⟨start_targeted, start_early⟩
  exact hs.1.evictsOwn

theorem evictsOwn_of_undisturbed_run_checked :
    ∃ s, Run (Guarded (CenterStep "edge-1" true) Undisturbed) Center.start
        [.fence 0, .acquired 0 firstLease, .register 0, .inform 0, .serve 0,
          .evict 0 (some ("center-a", firstLease.fence))] s ∧
      s.Belongs firstLease.fence 0 := by
  obtain ⟨s, h, hr, he⟩ := checked_eviction_run
  exact ⟨s, h, (evictsOwn_of_undisturbed_run h).session 0 _ _ he _ hr⟩

/-- The controller reconnects between the check and the removal: the eviction of the first fence
cancels the session of the second. -/
theorem reconnect_evicted : ∃ s t, Run (CenterStep "edge-1" true) Center.start
        [.fence 0, .acquired 0 firstLease, .register 0, .inform 0, .serve 0,
          .evict 0 (some ("center-a", firstLease.fence)), .fence 1, .acquired 1 secondLease,
          .register 1] s ∧
      ¬ s.EvictsOwn ∧ CenterStep "edge-1" true s (.removeSession 0) t ∧
      s.cancelled 1 = false ∧ t.cancelled 1 = true := by
  refine ⟨_, _, .step (.session (.sync (.fence rfl rfl))) <|
    .step (.session (.sync (.acquired rfl firstLease (by simp [Center.start])))) <|
    .step (.session (.sync (.register rfl))) <| .step (.session (.sync (.inform rfl))) <|
    .step (.session (.sync (.serve rfl))) <| .step (.evict (.fenced rfl rfl (by decide))) <|
    .step (.session (.sync (.fence rfl rfl))) <|
    .step (.session (.sync (.acquired rfl secondLease ?_))) <|
    .step (.session (.sync (.register rfl))) <| .refl _, ?_, .evict (.removeSession rfl), rfl, rfl⟩
  · intro j l' hj
    by_cases hj0 : j = 0
    · subst hj0
      cases hj
      decide
    · simp [hj0, Center.start] at hj
  · intro h
    obtain ⟨l, hl, hf⟩ := h.session 0 "center-a" firstLease.fence rfl ⟨1, true, false⟩ rfl
    cases hl
    revert hf
    decide

end EdgionCenter
