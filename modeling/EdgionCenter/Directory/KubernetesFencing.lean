import EdgionCenter.Directory.Retry
import EdgionCenter.Directory.Sessions

/-! The status of a controller as a register fenced by the ownership epoch. -/
namespace EdgionCenter

open Function Register

namespace KubernetesControllerDirectory

variable {d : KubernetesControllerDirectory} {c : ControllerId} {name : String}
  {spec : EdgionControllerSpec} {p : EdgionController} {s t : Resources}
  {base f : String → Option EdgionController} {transition : StatusTransition}
  {result : CoreResult Bool} {current : Option EdgionControllerStatus}
  {generation : Option Int}

/-- The status held for a controller. Another controller's resource under its name does not
count. -/
def statusOf (d : KubernetesControllerDirectory) (c : ControllerId)
    (stored : String → Option EdgionController) : Option EdgionControllerStatus :=
  (stored (d.controllerResourceName c.value)).bind fun r =>
    if r.spec.controllerId = c.value then r.status else none

/-- The status after a transition that may leave it alone. -/
def applied (transition : StatusTransition) (current : Option EdgionControllerStatus)
    (generation : Option Int) : Option EdgionControllerStatus :=
  (transition current generation).or current

theorem statusOf_update {r : EdgionController} (hname : d.controllerResourceName c.value = name)
    (hid : r.spec.controllerId = c.value) :
    d.statusOf c (update base name (some r)) = r.status := by
  simp [statusOf, hname, hid]

theorem statusOf_prepared (hname : d.controllerResourceName c.value = name)
    (hspec : spec.controllerId = c.value) (hp : prepared name spec (base name) = p) :
    d.statusOf c (update base name (some p)) = d.statusOf c base := by
  subst hp
  cases hv : base name with
  | none => simp [statusOf, hname, prepared, hspec, hv]
  | some r =>
    by_cases hid : r.spec.controllerId = c.value
    · have hp : (prepared name spec (some r)).spec.controllerId = c.value := by
        by_cases hs : r.spec = spec <;> simp [prepared, hid, hspec, hs]
      rw [statusOf_update hname hp, prepared_status, statusOf, hname, hv]
      simp [hid]
    · simp [statusOf, hname, prepared, hspec, hid, hv]

/-- The transition was applied to the status, or the operation failed and may not have done so. -/
def Applies {α : Type} (d : KubernetesControllerDirectory) (c : ControllerId)
    (transition : StatusTransition) (base f : String → Option EdgionController)
    (result : CoreResult α) : Prop :=
  (∃ generation, d.statusOf c f = applied transition (d.statusOf c base) generation) ∨
    d.statusOf c f = d.statusOf c base ∧ ∃ e, result = .error e

theorem Projected.statusOf (h : Projected base name c transition (base name) p result f)
    (hname : d.controllerResourceName c.value = name) (hspec : spec.controllerId = c.value)
    (hp : prepared name spec (base name) = p) : d.Applies c transition base f result := by
  have hbase := statusOf_prepared hname hspec hp
  have hcurrent (hid : p.spec.controllerId = c.value) : d.statusOf c base = p.status := by
    rw [← hbase, statusOf_update hname hid]
  have happlied {status : EdgionControllerStatus} (hid : p.spec.controllerId = c.value)
      (htr : transition p.status p.generation = some status) :
      d.statusOf c (update base name (some { p with status := some status })) =
        applied transition (d.statusOf c base) p.generation := by
    rw [hcurrent hid, applied, htr]
    simp [KubernetesControllerDirectory.statusOf, hname, hid]
  cases h with
  | accepted hid htr => exact .inl ⟨p.generation, happlied hid htr⟩
  | rejected hid htr =>
    refine .inl ⟨p.generation, ?_⟩
    rw [hbase, hcurrent hid, applied, htr]
    rfl
  | collided => exact .inr ⟨hbase, _, rfl⟩
  | failed he hv =>
    rcases hv with rfl | rfl | ⟨hid, status, htr, rfl⟩
    · exact .inr ⟨by rw [update_eq_self], _, rfl⟩
    · exact .inr ⟨hbase, _, rfl⟩
    · exact .inl ⟨p.generation, happlied hid htr⟩

/-- A projection is accepted only where its transition has something to write. -/
theorem Projected.transition_ne_none
    (h : Projected base name c transition (base name) p (.ok true) f)
    (hname : d.controllerResourceName c.value = name) (hspec : spec.controllerId = c.value)
    (hp : prepared name spec (base name) = p) :
    ∃ generation, transition (d.statusOf c base) generation ≠ none := by
  obtain ⟨hid, status, htr, -⟩ := h.of_accepted
  refine ⟨p.generation, ?_⟩
  rw [← statusOf_prepared hname hspec hp, statusOf_update hname hid, htr]
  simp

/-- The epoch in force and whether it is offline. -/
def statusView : Option EdgionControllerStatus → State Nat
  | none => ⊥
  | some status => held status.ownershipEpoch (status.phase != .online)

variable {ι : Type} {S : ι → Session} {i : ι}

/-- The status is that of session `i`, or of its eviction. -/
def StatusOf (S : ι → Session) (i : ι) (status : EdgionControllerStatus) : Prop :=
  status.ownershipEpoch = (S i).fence.epoch ∧ status.ownershipToken = some (S i).fence.token ∧
    (status.evicted = false ∧ status.sessionId = some (S i).id.value ∨
      status.evicted = true ∧ status.phase = .offline)

def StatusInv (S : ι → Session) (current : Option EdgionControllerStatus) : Prop :=
  ∀ status, current = some status → ∃ i, StatusOf S i status

theorem statusInv_some {status : EdgionControllerStatus} (h : StatusOf S i status) :
    StatusInv S (some status) := by
  rintro _ ⟨⟩
  exact ⟨i, h⟩

section Transitions

variable {registration : ControllerRegistration} {observation : ControllerRuntimeObservation}
  {observedAt time : Int}

/-- What a registration that is not stale leaves. -/
theorem upsert_fresh (time : Int) (generation : Option Int)
    (hid : registration.sessionId = (S i).id)
    (hfence : registration.ownershipFence = some (S i).fence)
    (hfresh : current.any (isStale registration) = false) :
    ∃ status, applied (upsertTransition registration time) current generation = some status ∧
      StatusOf S i status ∧ status.phase = .online := by
  refine ⟨_, by rw [applied, upsertTransition, if_neg (by simp [hfresh])]; rfl, ?_, rfl⟩
  exact ⟨by simp [hfence], by simp [hfence], .inl ⟨rfl, by simp [hid]⟩⟩

/-- A registration publishes its epoch. -/
theorem upsert_applied (hid : registration.sessionId = (S i).id)
    (hfence : registration.ownershipFence = some (S i).fence) (hs : StatusInv S current) :
    StatusInv S (applied (upsertTransition registration time) current generation) ∧
      statusView (applied (upsertTransition registration time) current generation) =
        write (statusView current) (.publish (S i).fence.epoch) := by
  cases hstale : current.any (isStale registration) with
  | false =>
    obtain ⟨status, happ, hof, hphase⟩ := upsert_fresh time generation hid hfence hstale
    rw [happ]
    refine ⟨statusInv_some hof, ?_⟩
    rw [statusView, hof.1, hphase]
    cases current with
    | none => exact write_bot_publish.symm
    | some old =>
      have hlt : old.ownershipEpoch < (S i).fence.epoch := by
        simpa [isStale, hfence] using hstale
      rw [statusView, write_publish, if_pos hlt]
      rfl
  | true =>
    have happ : applied (upsertTransition registration time) current generation = current := by
      simp [applied, upsertTransition, hstale]
    rw [happ]
    refine ⟨hs, ?_⟩
    cases current with
    | none => simp at hstale
    | some old =>
      have hle : (S i).fence.epoch ≤ old.ownershipEpoch := by
        simpa [isStale, hfence] using hstale
      rw [statusView, write_publish, if_neg (not_lt.mpr hle)]

/-- What an offline mark that is current leaves. -/
theorem offline_fresh (observedAt time : Int) (generation : Option Int)
    (hfresh : current.any (isNotCurrent (S i).id (some (S i).fence) observedAt) = false) :
    ∃ status, applied (offlineTransition (S i).id (some (S i).fence) observedAt time) current
      generation = some status ∧ StatusOf S i status ∧ status.phase = .offline :=
  ⟨_, by rw [applied, offlineTransition, if_neg (by simp [hfresh])]; rfl,
    ⟨rfl, rfl, .inl ⟨rfl, rfl⟩⟩, rfl⟩

/-- An offline mark retires its epoch, unless it finds the eviction of an older session. -/
theorem offline_applied (hepochs : Injective fun i => (S i).fence.epoch) (hs : StatusInv S current)
    (hfence : ∀ status, current = some status → status.evicted = true →
      (S i).fence.epoch ≤ status.ownershipEpoch) :
    StatusInv S (applied (offlineTransition (S i).id (some (S i).fence) observedAt time) current
      generation) ∧
      statusView (applied (offlineTransition (S i).id (some (S i).fence) observedAt time) current
        generation) = write (statusView current) (.retire (S i).fence.epoch) := by
  cases hcurrent : current.any (isNotCurrent (S i).id (some (S i).fence) observedAt) with
  | false =>
    obtain ⟨status, happ, hof, hphase⟩ := offline_fresh observedAt time generation hcurrent
    rw [happ]
    refine ⟨statusInv_some hof, ?_⟩
    rw [statusView, hof.1, hphase]
    cases current with
    | none => exact write_bot_retire.symm
    | some old =>
      have hle : old.ownershipEpoch ≤ (S i).fence.epoch := by
        by_contra hlt
        have hne : ¬ old.ownershipEpoch < (S i).fence.epoch := by omega
        have hne' : old.ownershipEpoch ≠ (S i).fence.epoch := by omega
        simp [isNotCurrent, hne, hne'] at hcurrent
      rw [statusView, write_retire, if_pos hle]
      rfl
  | true =>
    have happ : applied (offlineTransition (S i).id (some (S i).fence) observedAt time) current
        generation = current := by
      simp [applied, offlineTransition, hcurrent]
    rw [happ]
    refine ⟨hs, ?_⟩
    cases current with
    | none => simp at hcurrent
    | some old =>
      obtain ⟨j, hepoch, htoken, hkind⟩ := hs old rfl
      rw [statusView, write_retire]
      split_ifs with hle
      · rcases hkind with ⟨hevicted, hsession⟩ | ⟨hevicted, hphase⟩
        · -- A live status of this epoch is the session's own, for which the mark is current.
          have hlt : ¬ old.ownershipEpoch < (S i).fence.epoch := by
            intro hlt
            simp [isNotCurrent, hevicted, hlt] at hcurrent
          obtain rfl : j = i := hepochs (show (S j).fence.epoch = (S i).fence.epoch by omega)
          simp [isNotCurrent, hevicted, hepoch, hsession, htoken] at hcurrent
        · have hge := hfence old rfl hevicted
          rw [hphase, le_antisymm hle hge]
          rfl
      · rfl

/-- A runtime projection leaves the revision alone. -/
theorem runtime_applied (hs : StatusInv S current) :
    StatusInv S (applied (runtimeTransition observation time) current generation) ∧
      statusView (applied (runtimeTransition observation time) current generation) =
        statusView current := by
  cases current with
  | none => exact ⟨hs, rfl⟩
  | some old =>
    cases hobs : isObserved observation old with
    | false =>
      have happ :
          applied (runtimeTransition observation time) (some old) generation = some old := by
        simp [applied, runtimeTransition, hobs]
      rw [happ]
      exact ⟨hs, rfl⟩
    | true =>
      obtain ⟨j, hof⟩ := hs old rfl
      simp only [applied, runtimeTransition, hobs, if_true, Option.or_some]
      exact ⟨statusInv_some (i := j) hof, rfl⟩

theorem evictStatus_of {status : EdgionControllerStatus} (h : StatusOf S i status) :
    StatusOf S i (evictStatus status) :=
  ⟨h.1, h.2.1, .inr ⟨rfl, rfl⟩⟩

end Transitions

section Undisturbed

/-- Nothing but the controller's own resource is under its name. -/
def Own (d : KubernetesControllerDirectory) (c : ControllerId)
    (stored : String → Option EdgionController) : Prop :=
  ∀ r, stored (d.controllerResourceName c.value) = some r → r.spec.controllerId = c.value

/-- Where the API server answers every request, a projection applies its transition. -/
theorem undisturbed_statusOf (transition : StatusTransition) (hspec : spec.controllerId = c.value)
    (hs : s.answers = []) (hown : d.Own c s.stored)
    (ht : (d.replaceStatusWithRetry c spec transition s).2 = t) :
    t.answers = [] ∧ d.Own c t.stored ∧
      ∃ generation, d.statusOf c t.stored =
        applied transition (d.statusOf c s.stored) generation := by
  have hid : (prepared (d.controllerResourceName c.value) spec
      (s.stored (d.controllerResourceName c.value))).spec.controllerId = c.value := by
    cases hv : s.stored (d.controllerResourceName c.value) with
    | none => exact hspec
    | some r =>
      have hr := hown r hv
      by_cases h : r.spec = spec <;> simp [prepared, hr, hspec, h]
  have hrun := d.replaceStatusWithRetry_undisturbed transition rfl rfl hs hid
  have hout := d.replaceStatusWithRetry_projected c spec transition s rfl rfl
  subst ht
  refine ⟨?_, ?_, (hout.statusOf rfl hspec rfl).resolve_right ?_⟩
  · rw [hrun]
    split <;> rfl
  · rw [hrun]
    intro r hr
    split at hr
    · simp only [update_self, Option.some.injEq] at hr
      rw [← hr, hid]
    · simp only [update_self, Option.some.injEq] at hr
      rw [← hr]
      exact hid
  · rintro ⟨-, e, he⟩
    rw [hrun] at he
    split at he <;> cases he

/-- The directory between operations on the sessions of a controller, none of them evicted. -/
structure Settled (d : KubernetesControllerDirectory) (c : ControllerId) (S : ι → Session)
    (s : Resources) : Prop where
  answers : s.answers = []
  own : d.Own c s.stored
  inv : StatusInv S (d.statusOf c s.stored)
  kept : ∀ status, d.statusOf c s.stored = some status → status.evicted = false

theorem applied_kept (h : ∀ status, current = some status → status.evicted = false)
    (htr : ∀ status, transition current generation = some status → status.evicted = false) :
    ∀ status, applied transition current generation = some status → status.evicted = false := by
  intro status hs
  cases hnew : transition current generation with
  | none =>
    rw [applied, hnew] at hs
    exact h status hs
  | some new =>
    rw [applied, hnew] at hs
    cases hs
    exact htr _ hnew

/-- The operations of sessions act on the status as on a register of epochs. -/
theorem fencedOp_status {op : DirectoryOp} (hepochs : Injective fun i => (S i).fence.epoch)
    (hop : (S i).FencedOp c op) (hrange : d.inRange op.observedAt = true) (hs : d.Settled c S s) :
    d.Settled c S (d.run op s).2 ∧ statusView (d.statusOf c (d.run op s).2.stored) =
      write (statusView (d.statusOf c s.stored)) op.fencedWrite := by
  cases op with
  | upsertRegistration r =>
    obtain ⟨rfl, hid, hfence⟩ := hop
    rw [run_upsertRegistration d hrange]
    obtain ⟨hanswers, hown, generation, happ⟩ := undisturbed_statusOf (s := s)
      (upsertTransition r r.observedAtUnixMs) (rfl : (registrationSpec r).controllerId = _)
      hs.answers hs.own rfl
    obtain ⟨hinv, hview⟩ := upsert_applied hid hfence hs.inv
    refine ⟨⟨hanswers, hown, ?_, ?_⟩, ?_⟩
    · rw [happ]
      exact hinv
    · rw [happ]
      refine applied_kept hs.kept fun status hnew => ?_
      rw [upsertTransition] at hnew
      split at hnew <;> cases hnew
      rfl
    · rw [happ, hview]
      simp [DirectoryOp.fencedWrite, DirectoryOp.isOffline, DirectoryOp.epoch, DirectoryOp.fence,
        hfence, Write.of]
  | markOffline id session fence observedAt =>
    obtain ⟨rfl, rfl, rfl⟩ := hop
    rw [run_markOffline d (show d.inRange observedAt = true from hrange)]
    obtain ⟨hanswers, hown, generation, happ⟩ := undisturbed_statusOf (s := s)
      (offlineTransition (S i).id (some (S i).fence) observedAt observedAt)
      (rfl : (bareSpec id).controllerId = _) hs.answers hs.own rfl
    obtain ⟨hinv, hview⟩ := offline_applied hepochs hs.inv
      fun status hst hev => absurd hev (by simp [hs.kept status hst])
    refine ⟨⟨hanswers, hown, ?_, ?_⟩, ?_⟩
    · rw [happ]
      exact hinv
    · rw [happ]
      refine applied_kept hs.kept fun status hnew => ?_
      rw [offlineTransition] at hnew
      split at hnew <;> cases hnew
      rfl
    · rw [happ, hview]
      rfl
  | _ => exact hop.elim

end Undisturbed

section Own

variable {session : SessionId} {fence : Option OwnershipFence} {observedAt : Int}

theorem upsert_statusOf (r : ControllerRegistration) (s : Resources) :
    d.Applies r.controllerId (upsertTransition r r.observedAtUnixMs) s.stored
      (d.run (.upsertRegistration r) s).2.stored (d.run (.upsertRegistration r) s).1 := by
  cases hr : d.inRange r.observedAtUnixMs with
  | false => simp [Applies, run, upsertRegistration, timeFromMillis, hr, Except.map]
  | true =>
    have hout := d.replaceStatusWithRetry_projected r.controllerId (registrationSpec r)
      (upsertTransition r r.observedAtUnixMs) s rfl rfl
    rw [run_upsertRegistration d hr]
    refine (hout.statusOf rfl rfl rfl).imp_right ?_
    rintro ⟨hstatus, e, he⟩
    exact ⟨hstatus, e, by simp [he]⟩

theorem offline_statusOf (c : ControllerId) (s : Resources) :
    d.Applies c (offlineTransition session fence observedAt observedAt) s.stored
      (d.run (.markOffline c session fence observedAt) s).2.stored
      (d.run (.markOffline c session fence observedAt) s).1 := by
  cases hr : d.inRange observedAt with
  | false => simp [Applies, run, markOffline, timeFromMillis, hr, Except.map]
  | true =>
    have hout := d.replaceStatusWithRetry_projected c (bareSpec c)
      (offlineTransition session fence observedAt observedAt) s rfl rfl
    rw [run_markOffline d hr]
    refine (hout.statusOf rfl rfl rfl).imp_right ?_
    rintro ⟨hstatus, e, he⟩
    exact ⟨hstatus, e, by simp [he, Except.map]⟩

theorem runtime_statusOf (o : ControllerRuntimeObservation) (s : Resources) :
    (∃ generation, d.statusOf o.controllerId (d.run (.projectRuntime o) s).2.stored =
      applied (runtimeTransition o o.observedAtUnixMs) (d.statusOf o.controllerId s.stored)
        generation) ∨
      d.statusOf o.controllerId (d.run (.projectRuntime o) s).2.stored =
        d.statusOf o.controllerId s.stored := by
  cases hr : d.inRange o.observedAtUnixMs with
  | false => exact .inr (by rw [run_projectRuntime_out_of_range hr])
  | true =>
    have hout := d.replaceStatusWithRetry_projected o.controllerId (bareSpec o.controllerId)
      (runtimeTransition o o.observedAtUnixMs) s rfl rfl
    rw [run_projectRuntime d hr]
    exact (hout.statusOf rfl rfl rfl).imp_right And.left

theorem evict_statusOf (c : ControllerId) (s : Resources) :
    d.statusOf c (d.run (.evict c) s).2.stored = d.statusOf c s.stored ∨
      ∃ status, d.statusOf c s.stored = some status ∧
        d.statusOf c (d.run (.evict c) s).2.stored = some (evictStatus status) := by
  rcases d.evict_evicts c s with h | ⟨r, status, hr, hid, hstatus, -, h⟩
  · exact .inl (congrArg (d.statusOf c) h)
  · refine .inr ⟨status, by simp [statusOf, hr, hid, hstatus], ?_⟩
    refine (congrArg (d.statusOf c) h).trans ?_
    simp [statusOf, hid]

end Own

section Monotone

variable {c' : ControllerId} {stored : String → Option EdgionController} {op : DirectoryOp}
  {observedAt time : Int} {r : EdgionController} {v : Option EdgionController}

/-- A resource of another controller under the same name shows nothing of this one. -/
theorem statusOf_update_other (hr : r.spec.controllerId ≠ c.value)
    (hbase : ∀ r, base name = some r → r.spec.controllerId ≠ c.value) :
    d.statusOf c (update base name (some r)) = d.statusOf c base := by
  by_cases hname : d.controllerResourceName c.value = name
  · subst hname
    cases hv : base (d.controllerResourceName c.value) with
    | none => simp [statusOf, hr, hv]
    | some r' => simp [statusOf, hr, hv, hbase r' hv]
  · simp [statusOf, hname]

theorem ne_value (hne : c' ≠ c) : c'.value ≠ c.value := fun h => hne (Identifier.ext h)

/-- A resource of this controller is not prepared anew for another. -/
theorem prepared_own (hne : c' ≠ c) (hspec : spec.controllerId = c'.value) (hv : v = some r)
    (hid : r.spec.controllerId = c.value) : prepared name spec v = r := by
  subst hv
  simp [prepared, hid, hspec, (ne_value hne).symm]

/-- What is prepared for another controller does not become this one's. -/
theorem prepared_other (hne : c' ≠ c) (hspec : spec.controllerId = c'.value)
    (hv : ∀ r, v = some r → r.spec.controllerId ≠ c.value) :
    (prepared name spec v).spec.controllerId ≠ c.value := by
  cases v with
  | none =>
    rw [prepared, hspec]
    exact ne_value hne
  | some r =>
    simp only [prepared]
    split_ifs
    · exact hv r rfl
    · rw [hspec]
      exact ne_value hne
    · exact hv r rfl

theorem Projected.statusOf_other (hne : c' ≠ c) (hspec : spec.controllerId = c'.value)
    (h : Projected base name c' transition (base name) p result f)
    (hp : prepared name spec (base name) = p) : d.statusOf c f = d.statusOf c base := by
  -- If this controller's resource is there, the other one only ever sees the collision.
  by_cases hown : ∃ r, base name = some r ∧ r.spec.controllerId = c.value
  · obtain ⟨r, hr, hid⟩ := hown
    have hpr : p = r := hp ▸ prepared_own hne hspec hr hid
    have hother : p.spec.controllerId ≠ c'.value := by
      rw [hpr, hid]
      exact (ne_value hne).symm
    have hsame : update base name (some p) = base := by
      rw [hpr, ← hr, update_eq_self]
    cases h with
    | accepted hid' | rejected hid' => exact absurd hid' hother
    | collided => rw [hsame]
    | failed he hv =>
      rcases hv with rfl | rfl | ⟨hid', -⟩
      · rw [update_eq_self]
      · rw [hsame]
      · exact absurd hid' hother
  · have hbase : ∀ r, base name = some r → r.spec.controllerId ≠ c.value :=
      fun r hr hid => hown ⟨r, hr, hid⟩
    have hpid : p.spec.controllerId ≠ c.value := hp ▸ prepared_other hne hspec hbase
    cases h with
    | accepted | rejected | collided => exact statusOf_update_other hpid hbase
    | failed he hv =>
      rcases hv with rfl | rfl | ⟨-, status, -, rfl⟩
      · rw [update_eq_self]
      · exact statusOf_update_other hpid hbase
      · exact statusOf_update_other hpid hbase

/-- An operation on another controller leaves the status alone. -/
theorem run_statusOf_other (hne : op.controllerId ≠ c) :
    d.statusOf c (d.run op s).2.stored = d.statusOf c s.stored := by
  cases op with
  | upsertRegistration r =>
    cases hr : d.inRange r.observedAtUnixMs with
    | false => rw [run_upsertRegistration_out_of_range hr]
    | true =>
      rw [run_upsertRegistration d hr]
      exact (d.replaceStatusWithRetry_projected _ _ _ s rfl rfl).statusOf_other hne rfl rfl
  | markOffline id session fence observedAt =>
    cases hr : d.inRange observedAt with
    | false => rw [run_markOffline_out_of_range hr]
    | true =>
      rw [run_markOffline d hr]
      exact (d.replaceStatusWithRetry_projected _ _ _ s rfl rfl).statusOf_other hne rfl rfl
  | projectRuntime observation =>
    cases hr : d.inRange observation.observedAtUnixMs with
    | false => rw [run_projectRuntime_out_of_range hr]
    | true =>
      rw [run_projectRuntime d hr]
      exact (d.replaceStatusWithRetry_projected _ _ _ s rfl rfl).statusOf_other hne rfl rfl
  | evict id =>
    rcases d.evict_evicts id s with h | ⟨r, status, hr, hid, -, -, h⟩
    · exact congrArg (d.statusOf c) h
    · refine (congrArg (d.statusOf c) h).trans (statusOf_update_other ?_ ?_)
      · rw [hid]
        exact ne_value hne
      · rintro r' hr'
        rw [hr] at hr'
        cases hr'
        rw [hid]
        exact ne_value hne

end Monotone

end KubernetesControllerDirectory

end EdgionCenter
