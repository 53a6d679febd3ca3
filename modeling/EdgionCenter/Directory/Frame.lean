import EdgionCenter.Directory.Retry

/-! What the operations of the Kubernetes directory change besides the status. -/
namespace EdgionCenter

namespace KubernetesControllerDirectory

variable {d : KubernetesControllerDirectory} {name : String} {spec : EdgionControllerSpec}
  {v : Option EdgionController} {p : EdgionController} {s : Resources} {id : ControllerId}
  {transition : StatusTransition}

/-- `get_or_create` writes unless it finds another controller's resource or its own spec. -/
theorem some_prepared_eq_iff : some (prepared name spec v) = v ↔
    ∃ r, v = some r ∧ (r.spec.controllerId ≠ spec.controllerId ∨ r.spec = spec) := by
  cases v with
  | none => simp
  | some r =>
    simp only [prepared, Option.some.injEq, exists_eq_left']
    split_ifs with hid hspec
    · simp [hid]
    · refine ⟨fun h => .inr ?_, fun h => absurd h (not_or.mpr ⟨hid, hspec⟩)⟩
      exact (congrArg EdgionController.spec h).symm
    · simp [not_not.mp hspec]

theorem prepared_spec (h : some (prepared name spec v) ≠ v) :
    (prepared name spec v).spec = spec := by
  cases v with
  | none => rfl
  | some r =>
    simp only [prepared] at h ⊢
    split_ifs at h ⊢ with hid hspec
    · exact absurd rfl h
    · rfl
    · exact absurd rfl h

theorem spec_eq_of_fields {a b : EdgionControllerSpec} (hid : a.controllerId = b.controllerId)
    (hc : a.cluster = b.cluster) (he : a.environments = b.environments) (ht : a.tags = b.tags) :
    a = b := by
  cases a
  cases b
  simp_all

/-- A projection writes nothing when it is rejected, and keeps the spec of an existing resource when
it is accepted. -/
structure Frames (d : KubernetesControllerDirectory) (id : ControllerId)
    (spec : EdgionControllerSpec) (transition : StatusTransition) (keeps : Prop) (s : Resources) :
    Prop where
  rejected : (d.replaceStatusWithRetry id spec transition s).1 = .ok false →
    (d.replaceStatusWithRetry id spec transition s).2.stored = s.stored
  accepted : keeps → (d.replaceStatusWithRetry id spec transition s).1 = .ok true →
    ∀ r, s.stored (d.controllerResourceName id.value) = some r →
      ∃ r', (d.replaceStatusWithRetry id spec transition s).2.stored
        (d.controllerResourceName id.value) = some r' ∧ r'.spec.cluster = r.spec.cluster ∧
          r'.spec.environments = r.spec.environments ∧ r'.spec.tags = r.spec.tags

variable {keeps : Prop} {stored : String → Option EdgionController}

theorem frames_of (hname : d.controllerResourceName id.value = name)
    (hp : prepared name spec (s.stored name) = p) (h : some p = s.stored name ∨
      transition p.status p.generation ≠ none ∧ (keeps → s.stored name = none)) :
    Frames d id spec transition keeps s := by
  have hout := d.replaceStatusWithRetry_projected id spec transition s hname hp
  refine ⟨fun hr => ?_, fun hk hr r hv => ?_⟩
  · rw [hr] at hout
    obtain ⟨htr, hstored⟩ := hout.of_rejected
    rcases h with h | h
    · rw [hstored, h, Function.update_eq_self]
    · exact absurd htr h.1
  · rw [hr] at hout
    obtain ⟨-, status, -, hstored⟩ := hout.of_accepted
    rw [hname] at hv ⊢
    rcases h with h | ⟨-, h⟩
    · cases h.trans hv
      exact ⟨{ p with status := some status }, by simp [hstored], rfl, rfl, rfl⟩
    · simp [h hk] at hv

theorem of_frames (hname : d.controllerResourceName id.value = name)
    (hspec : spec.controllerId = id.value) (hp : prepared name spec (s.stored name) = p)
    (hs : s.answers = []) (h : Frames d id spec transition keeps s) : some p = s.stored name ∨
      transition p.status p.generation ≠ none ∧ (keeps → s.stored name = none) := by
  by_contra hnot
  obtain ⟨hne, hbad⟩ := not_or.mp hnot
  have hpspec : p.spec = spec := by
    subst hp
    exact prepared_spec hne
  have hrun := d.replaceStatusWithRetry_undisturbed transition hname hp hs
    (by rw [hpspec, hspec])
  cases htr : transition p.status p.generation with
  | none =>
    rw [htr] at hrun
    have hsame := h.rejected (by rw [hrun])
    rw [hrun] at hsame
    exact hne (by rw [← hsame]; simp)
  | some status =>
    rw [htr] at hrun hbad
    obtain ⟨hk, hv⟩ : keeps ∧ s.stored name ≠ none := by simpa using hbad
    obtain ⟨r, hr⟩ := Option.ne_none_iff_exists'.mp hv
    obtain ⟨r', hr', hc, he, ht⟩ := h.accepted hk (by rw [hrun]) r (by rw [hname, hr])
    rw [hrun, hname] at hr'
    obtain rfl : { p with status := some status } = r' := by simpa using hr'
    refine hne ?_
    rw [← hp, some_prepared_eq_iff]
    refine ⟨r, hr, or_iff_not_imp_left.mpr fun hid => ?_⟩
    simp only [hpspec] at hc he ht
    exact spec_eq_of_fields (not_not.mp hid) hc.symm he.symm ht.symm

/-- The exact condition under which a projection respects its frame, whatever is answered. -/
theorem frames_iff (hname : d.controllerResourceName id.value = name)
    (hspec : spec.controllerId = id.value) (hp : prepared name spec (stored name) = p) :
    (∀ answers, Frames d id spec transition keeps ⟨stored, answers⟩) ↔
      some p = stored name ∨
        transition p.status p.generation ≠ none ∧ (keeps → stored name = none) :=
  ⟨fun h => of_frames hname hspec hp rfl (h []), fun h _ => frames_of hname hp h⟩

/-- The operation was rejected as stale. -/
def Rejected : DirectoryOp → CoreResult DirectoryReply → Prop
  | .upsertRegistration registration, result =>
    result = .error (staleRegistration registration.controllerId)
  | .markOffline .., result => result = .ok (.offline .notCurrent)
  | .projectRuntime _, result => result = .ok (.projected false)
  | .evict _, _ => False

/-- An accepted operation that is not to touch the spec. -/
def StatusAccepted : DirectoryOp → CoreResult DirectoryReply → Prop
  | .markOffline .., result => result = .ok (.offline .marked)
  | .projectRuntime _, result => result = .ok (.projected true)
  | _, _ => False

variable (d) in
/-- What the operation leaves when it is rejected, and what it leaves of the spec. -/
structure KeepsFrame (op : DirectoryOp) (s : Resources) : Prop where
  rejected : Rejected op (d.run op s).1 → (d.run op s).2.stored = s.stored
  accepted : StatusAccepted op (d.run op s).1 →
    ∀ r, s.stored (d.controllerResourceName op.controllerId.value) = some r →
      ∃ r', (d.run op s).2.stored (d.controllerResourceName op.controllerId.value) = some r' ∧
        r'.spec.cluster = r.spec.cluster ∧ r'.spec.environments = r.spec.environments ∧
          r'.spec.tags = r.spec.tags

variable (d) in
/-- The operation finds nothing to write before it decides: its time is out of range, or another
controller's resource or its own spec is stored, or it will not be rejected. -/
def Harmless : DirectoryOp → Option EdgionController → Prop
  | .upsertRegistration _, none => True
  | .upsertRegistration registration, some r =>
    d.inRange registration.observedAtUnixMs = false ∨
      r.spec.controllerId ≠ registration.controllerId.value ∨
      r.spec = registrationSpec registration ∨
      r.status.any (isStale registration) = false
  | .markOffline .., none => True
  | .markOffline id _ _ observedAt, some r =>
    d.inRange observedAt = false ∨ r.spec.controllerId ≠ id.value ∨ r.spec = bareSpec id
  | .projectRuntime observation, none => d.inRange observation.observedAtUnixMs = false
  | .projectRuntime observation, some r =>
    d.inRange observation.observedAtUnixMs = false ∨
      r.spec.controllerId ≠ observation.controllerId.value ∨
      r.spec = bareSpec observation.controllerId
  | .evict _, _ => True

def conflictHead : CoreError → Option Char
  | .conflict message => message.toList.head?
  | _ => none

/-- The error of a stale registration is none of those the projection itself ends in. -/
theorem Projected.ne_stale {base f : String → Option EdgionController} {e : CoreError}
    {id' : ControllerId} (h : Projected base name id transition v p (.error e) f) :
    e ≠ staleRegistration id' := by
  intro he
  have hhead := congrArg conflictHead he
  cases h with
  | collided => simp [conflictHead, staleRegistration, collision] at hhead
  | failed hf =>
    rcases hf with ⟨message, rfl⟩ | rfl
    · simp [staleRegistration] at he
    · simp [conflictHead, staleRegistration, projectionConflicted] at hhead

variable {registration : ControllerRegistration}

theorem upsert_rejected_iff (h : d.inRange registration.observedAtUnixMs = true) :
    Rejected (.upsertRegistration registration) (d.run (.upsertRegistration registration) s).1 ↔
      (d.replaceStatusWithRetry registration.controllerId (registrationSpec registration)
        (upsertTransition registration registration.observedAtUnixMs) s).1 = .ok false := by
  have hout := d.replaceStatusWithRetry_projected registration.controllerId
    (registrationSpec registration)
    (upsertTransition registration registration.observedAtUnixMs) s rfl rfl
  rw [run_upsertRegistration d h]
  generalize d.replaceStatusWithRetry registration.controllerId (registrationSpec registration)
    (upsertTransition registration registration.observedAtUnixMs) s = projected at hout ⊢
  obtain ⟨e | changed, t⟩ := projected
  · simpa [Rejected] using hout.ne_stale
  · cases changed <;> simp [Rejected]

variable {op : DirectoryOp} {generation : Option Int} {time : Int}

theorem keepsFrame_of_unchanged (h : (d.run op s).2 = s) : d.KeepsFrame op s :=
  ⟨fun _ => by rw [h], fun _ r hr => ⟨r, by rw [h, hr], rfl, rfl, rfl⟩⟩

theorem keepsFrame_iff_frames (hid : op.controllerId = id)
    (hstate : (d.run op s).2 = (d.replaceStatusWithRetry id spec transition s).2)
    (hrejected : Rejected op (d.run op s).1 ↔
      (d.replaceStatusWithRetry id spec transition s).1 = .ok false)
    (haccepted : StatusAccepted op (d.run op s).1 ↔
      keeps ∧ (d.replaceStatusWithRetry id spec transition s).1 = .ok true) :
    d.KeepsFrame op s ↔ Frames d id spec transition keeps s := by
  subst hid
  refine ⟨fun h => ⟨fun hr => ?_, fun hk hr => ?_⟩, fun h => ⟨fun hr => ?_, fun ha => ?_⟩⟩
  · rw [← hstate]
    exact h.rejected (hrejected.mpr hr)
  · rw [← hstate]
    exact h.accepted (haccepted.mpr ⟨hk, hr⟩)
  · rw [hstate]
    exact h.rejected (hrejected.mp hr)
  · rw [hstate]
    exact h.accepted (haccepted.mp ha).1 (haccepted.mp ha).2

variable {session : SessionId} {fence : Option OwnershipFence} {observedAt : Int}
  {observation : ControllerRuntimeObservation}

theorem keepsFrame_upsertRegistration (h : d.inRange registration.observedAtUnixMs = true) :
    d.KeepsFrame (.upsertRegistration registration) s ↔
      Frames d registration.controllerId (registrationSpec registration)
        (upsertTransition registration registration.observedAtUnixMs) False s :=
  keepsFrame_iff_frames rfl (by rw [run_upsertRegistration d h]) (upsert_rejected_iff h)
    (by simp [StatusAccepted])

theorem keepsFrame_markOffline (h : d.inRange observedAt = true) :
    d.KeepsFrame (.markOffline id session fence observedAt) s ↔
      Frames d id (bareSpec id) (offlineTransition session fence observedAt observedAt) True s := by
  refine keepsFrame_iff_frames rfl (by rw [run_markOffline d h]) ?_ ?_
  · rw [run_markOffline d h]
    simp [Rejected, map_eq_ok_iff]
  · rw [run_markOffline d h]
    simp [StatusAccepted, map_eq_ok_iff]

theorem keepsFrame_projectRuntime (h : d.inRange observation.observedAtUnixMs = true) :
    d.KeepsFrame (.projectRuntime observation) s ↔
      Frames d observation.controllerId (bareSpec observation.controllerId)
        (runtimeTransition observation observation.observedAtUnixMs) True s := by
  refine keepsFrame_iff_frames rfl (by rw [run_projectRuntime d h]) ?_ ?_
  · rw [run_projectRuntime d h]
    simp [Rejected, map_eq_ok_iff]
  · rw [run_projectRuntime d h]
    simp [StatusAccepted, map_eq_ok_iff]

theorem upsertTransition_eq_none_iff {current : Option EdgionControllerStatus} :
    upsertTransition registration time current generation = none ↔
      current.any (isStale registration) = true := by
  simp [upsertTransition]

theorem offlineTransition_none :
    offlineTransition session fence observedAt time none generation ≠ none := by
  simp [offlineTransition]

variable (d stored) in
/-- A rejected operation leaves the resources as they were, and an accepted offline mark or runtime
projection leaves the spec, exactly when nothing is to be written before the decision. -/
theorem keepsFrame_iff_harmless (op : DirectoryOp) :
    (∀ answers, d.KeepsFrame op ⟨stored, answers⟩) ↔
      d.Harmless op (stored (d.controllerResourceName op.controllerId.value)) := by
  cases op with
  | upsertRegistration registration =>
    cases hr : d.inRange registration.observedAtUnixMs with
    | false =>
      refine ⟨fun _ => ?_, fun _ _ => keepsFrame_of_unchanged
        (run_upsertRegistration_out_of_range hr)⟩
      simp only [DirectoryOp.controllerId]
      cases stored (d.controllerResourceName registration.controllerId.value) <;>
        simp [Harmless, hr]
    | true =>
      simp only [keepsFrame_upsertRegistration hr, DirectoryOp.controllerId]
      rw [frames_iff rfl rfl rfl, some_prepared_eq_iff, prepared_status, Ne,
        upsertTransition_eq_none_iff]
      cases stored (d.controllerResourceName registration.controllerId.value) with
      | none => simp [Harmless]
      | some r => simp [Harmless, hr, registrationSpec, or_assoc]
  | markOffline id session fence observedAt =>
    cases hr : d.inRange observedAt with
    | false =>
      refine ⟨fun _ => ?_, fun _ _ => keepsFrame_of_unchanged (run_markOffline_out_of_range hr)⟩
      simp only [DirectoryOp.controllerId]
      cases stored (d.controllerResourceName id.value) <;> simp [Harmless, hr]
    | true =>
      simp only [keepsFrame_markOffline hr, DirectoryOp.controllerId]
      rw [frames_iff rfl rfl rfl, some_prepared_eq_iff, prepared_status]
      cases stored (d.controllerResourceName id.value) with
      | none => simp [Harmless, offlineTransition_none]
      | some r => simp [Harmless, hr, bareSpec]
  | projectRuntime observation =>
    cases hr : d.inRange observation.observedAtUnixMs with
    | false =>
      refine ⟨fun _ => ?_, fun _ _ => keepsFrame_of_unchanged (run_projectRuntime_out_of_range hr)⟩
      simp only [DirectoryOp.controllerId]
      cases stored (d.controllerResourceName observation.controllerId.value) <;>
        simp [Harmless, hr]
    | true =>
      simp only [keepsFrame_projectRuntime hr, DirectoryOp.controllerId]
      rw [frames_iff rfl rfl rfl, some_prepared_eq_iff, prepared_status]
      cases stored (d.controllerResourceName observation.controllerId.value) with
      | none => simp [Harmless, hr, runtimeTransition]
      | some r => simp [Harmless, hr, bareSpec]
  | evict id => exact ⟨fun _ => by simp [Harmless], fun _ _ => ⟨False.elim, False.elim⟩⟩

/-- Session `new`, registered under epoch 5 with its cluster. -/
def edgeResource : EdgionController where
  name := exampleDirectory.controllerResourceName "edge-1"
  generation := some 1
  spec := ⟨"edge-1", "prod", ["eu"], ["blue"]⟩
  status := upsertTransition
    { controllerId := edge1
      sessionId := newSession
      cluster := "prod"
      environments := ["eu"]
      tags := ["blue"]
      connectedReplica := some "center-0"
      ownershipFence := some ⟨"t5", 5⟩
      observedAtUnixMs := 100 } 100 none (some 1)

/-- The offline mark of an older session is turned down after it has emptied the spec. -/
theorem stale_offline_empties_spec :
    let op := DirectoryOp.markOffline edge1 ⟨"old", by decide⟩ (some ⟨"t3", 3⟩) 200
    let s : Resources := ⟨fun _ => some edgeResource, []⟩
    Rejected op (exampleDirectory.run op s).1 ∧
      ∃ r, (exampleDirectory.run op s).2.stored edgeResource.name = some r ∧
        r.spec = ⟨"edge-1", "", [], []⟩ ∧ r.spec ≠ edgeResource.spec :=
  ⟨rfl, _, rfl, rfl, by decide⟩

end KubernetesControllerDirectory

end EdgionCenter
