import EdgionCenter.Directory.Kubernetes

/-! What the conflict loops of the Kubernetes directory can do to the stored resources, whatever the
API server answers. -/
namespace EdgionCenter

open Function

namespace Resources

variable {s t : Resources} {name : String} {stored : String → Option EdgionController}

/-- A request is carried out and answered, or answered with an error; after a conflict it was not
carried out. -/
theorem request_cases {α : Type} {value : α} {r : Except ResourceError α}
    (h : s.request value stored = (r, t)) : r = .ok value ∧ t.stored = stored ∨
      ∃ e, r = .error e ∧ (t.stored = s.stored ∨ t.stored = stored ∧ e ≠ .conflict) := by
  unfold request at h
  split at h <;> cases h
  · exact .inl ⟨rfl, rfl⟩
  · exact .inl ⟨rfl, rfl⟩
  · exact .inr ⟨_, rfl, .inl rfl⟩
  · exact .inr ⟨_, rfl, .inl rfl⟩
  · exact .inr ⟨_, rfl, .inr ⟨rfl, nofun⟩⟩

theorem get_cases {r : Except ResourceError (Option EdgionController)} (h : s.get name = (r, t)) :
    t.stored = s.stored ∧ (r = .ok (s.stored name) ∨ ∃ e, r = .error e) := by
  rcases request_cases h with ⟨rfl, ht⟩ | ⟨e, rfl, ht | ⟨ht, -⟩⟩
  · exact ⟨ht, .inl rfl⟩
  · exact ⟨ht, .inr ⟨e, rfl⟩⟩
  · exact ⟨ht, .inr ⟨e, rfl⟩⟩

theorem replaceStatus_cases {r : Except ResourceError EdgionController} {c c' : EdgionController}
    (hs : s.stored name = some c) (h : s.replaceStatus name c' = (r, t)) : (∃ c, r = .ok c) ∧
        t.stored = update s.stored name (some { c with status := c'.status })
      ∨ ∃ e, r = .error e ∧ (t.stored = s.stored ∨
        t.stored = update s.stored name (some { c with status := c'.status }) ∧
          e ≠ .conflict) := by
  simp only [replaceStatus, hs] at h
  rcases request_cases h with ⟨rfl, ht⟩ | hr
  · exact .inl ⟨⟨_, rfl⟩, ht⟩
  · exact .inr hr

end Resources

namespace KubernetesControllerDirectory

section Retry

variable {α : Type} {exhausted : CoreError}
  {round : Resources → Option (CoreResult α) × Resources}

/-- What a round keeps while it goes on, and brings about when it ends, a call brings about. -/
theorem retry_rule {P : Resources → Prop} {Q : CoreResult α → Resources → Prop}
    (hnext : ∀ s t, P s → round s = (none, t) → P t)
    (hdone : ∀ s t r, P s → round s = (some r, t) → Q r t)
    (hend : ∀ s, P s → Q (.error exhausted) s) (n : Nat) :
    ∀ s, P s → Q (retry exhausted round n s).1 (retry exhausted round n s).2 := by
  induction n with
  | zero => exact hend
  | succ n ih =>
    intro s hs
    rcases h : round s with ⟨_ | r, t⟩
    · simp only [retry, h]
      exact ih t (hnext s t hs h)
    · simp only [retry, h]
      exact hdone s t r hs h

end Retry

variable {name : String} {spec : EdgionControllerSpec} {v : Option EdgionController}
  {p : EdgionController} {base : String → Option EdgionController} {s t : Resources}
  {id : ControllerId} {transition : StatusTransition}

/-- The resource that `get_or_create` makes of what is stored. -/
def prepared (name : String) (spec : EdgionControllerSpec) :
    Option EdgionController → EdgionController
  | none => ⟨name, some 1, spec, none⟩
  | some r =>
    if r.spec.controllerId ≠ spec.controllerId then r
    else if r.spec ≠ spec then { r with spec := spec, generation := r.generation.map (· + 1) }
    else r

theorem prepared_prepared :
    prepared name spec (some (prepared name spec v)) = prepared name spec v := by
  cases v with
  | none => simp [prepared]
  | some r =>
    by_cases hid : r.spec.controllerId = spec.controllerId
    · by_cases hs : r.spec = spec <;> simp [prepared, hid, hs]
    · simp [prepared, hid]

/-- `get_or_create` never touches the status. -/
theorem prepared_status : (prepared name spec v).status = v.bind (·.status) := by
  cases v with
  | none => rfl
  | some r => simp only [prepared]; split_ifs <;> rfl

theorem getOrCreate_cases {r : Except ResourceError EdgionController}
    (hs : s.stored = update base name v) (hp : prepared name spec v = p)
    (h : getOrCreate name spec s = (r, t)) : r = .ok p ∧ t.stored = update base name (some p) ∨
      ∃ e, r = .error e ∧
        (t.stored = s.stored ∨ t.stored = update base name (some p)) := by
  have hv : s.stored name = v := by simp [hs]
  unfold getOrCreate at h
  rcases hget : s.get name with ⟨r', s'⟩
  obtain ⟨hs', rfl | ⟨e, rfl⟩⟩ := Resources.get_cases hget
  · rw [hget, hv] at h
    cases v with
    | none =>
      simp only [Resources.create, hs', hv] at h
      simp only [prepared] at hp
      rcases Resources.request_cases h with ⟨rfl, ht⟩ | ⟨e, rfl, ht⟩
      · exact .inl ⟨by rw [← hp], by rw [ht, hs, ← hp]; simp⟩
      · refine .inr ⟨e, rfl, ht.imp (·.trans hs') fun ⟨ht, _⟩ => ?_⟩
        rw [ht, hs, ← hp]
        simp
    | some existing =>
      simp only at h
      split_ifs at h with hid hspec
      · cases h
        refine .inl ⟨?_, by rw [hs', hs, ← hp]; simp [prepared, hid]⟩
        rw [← hp]
        simp [prepared, hid]
      · simp only [Resources.replace, hs', hv, if_neg (Ne.symm hspec)] at h
        simp only [prepared, if_neg hid, if_pos hspec] at hp
        rcases Resources.request_cases h with ⟨rfl, ht⟩ | ⟨e, rfl, ht⟩
        · exact .inl ⟨by rw [← hp], by rw [ht, hs, ← hp]; simp⟩
        · refine .inr ⟨e, rfl, ht.imp (·.trans hs') fun ⟨ht, _⟩ => ?_⟩
          rw [ht, hs, ← hp]
          simp
      · cases h
        refine .inl ⟨?_, by rw [hs', hs, ← hp]; simp [prepared, hid, hspec]⟩
        rw [← hp]
        simp [prepared, hid, hspec]
  · rw [hget] at h
    cases h
    exact .inr ⟨e, rfl, .inl hs'⟩

/-- How a projection can end, where `base` is stored at first, with `v` under the name, and `p` is
what `get_or_create` makes of it. -/
inductive Projected (base : String → Option EdgionController) (name : String) (id : ControllerId)
    (transition : StatusTransition) (v : Option EdgionController) (p : EdgionController) :
    CoreResult Bool → (String → Option EdgionController) → Prop
  | accepted {status : EdgionControllerStatus} (hid : p.spec.controllerId = id.value)
      (h : transition p.status p.generation = some status) :
      Projected base name id transition v p (.ok true)
        (update base name (some { p with status := some status }))
  | rejected (hid : p.spec.controllerId = id.value)
      (h : transition p.status p.generation = none) :
      Projected base name id transition v p (.ok false) (update base name (some p))
  | collided (hid : p.spec.controllerId ≠ id.value) :
      Projected base name id transition v p (.error (collision p id))
        (update base name (some p))
  | failed {e : CoreError} {v' : Option EdgionController}
      (he : (∃ message, e = .adapter message) ∨ e = projectionConflicted id)
      (hv : v' = v ∨ v' = some p ∨ p.spec.controllerId = id.value ∧ ∃ status,
        transition p.status p.generation = some status ∧
          v' = some { p with status := some status }) :
      Projected base name id transition v p (.error e) (update base name v')

variable {f : String → Option EdgionController} {r : Option (CoreResult EvictionResult)}

theorem Projected.of_rejected (h : Projected base name id transition v p (.ok false) f) :
    transition p.status p.generation = none ∧ f = update base name (some p) := by
  cases h with
  | rejected hid h => exact ⟨h, rfl⟩

theorem Projected.of_accepted (h : Projected base name id transition v p (.ok true) f) :
    p.spec.controllerId = id.value ∧ ∃ status, transition p.status p.generation = some status ∧
      f = update base name (some { p with status := some status }) := by
  cases h with
  | accepted hid h => exact ⟨hid, _, h, rfl⟩

/-- While it goes on, a projection has changed nothing or only prepared the resource. -/
def Pending (base : String → Option EdgionController) (name : String)
    (v : Option EdgionController) (p : EdgionController) (s : Resources) : Prop :=
  s.stored = update base name v ∨ s.stored = update base name (some p)

theorem Pending.getOrCreate {r : Except ResourceError EdgionController}
    (hs : Pending base name v p s) (hp : prepared name spec v = p)
    (h : getOrCreate name spec s = (r, t)) : r = .ok p ∧ t.stored = update base name (some p) ∨
      ∃ e, r = .error e ∧ Pending base name v p t := by
  rcases hs with hs | hs
  · refine (getOrCreate_cases hs hp h).imp_right ?_
    rintro ⟨e, rfl, ht⟩
    exact ⟨e, rfl, ht.imp_left (·.trans hs)⟩
  · refine (getOrCreate_cases hs (by rw [← hp, prepared_prepared]) h).imp_right ?_
    rintro ⟨e, rfl, ht⟩
    exact ⟨e, rfl, .inr (ht.elim (·.trans hs) id)⟩

theorem Pending.projected {e : CoreError} (hs : Pending base name v p s)
    (he : (∃ message, e = .adapter message) ∨ e = projectionConflicted id) :
    Projected base name id transition v p (.error e) s.stored := by
  rcases hs with hs | hs <;> rw [hs]
  · exact .failed he (.inl rfl)
  · exact .failed he (.inr (.inl rfl))

theorem Pending.round {r : Option (CoreResult Bool)} (hs : Pending base name v p s)
    (hp : prepared name spec v = p) (h : projectionRound name id spec transition s = (r, t)) :
    r = none ∧ Pending base name v p t ∨
      ∃ result, r = some result ∧ Projected base name id transition v p result t.stored := by
  unfold projectionRound at h
  rcases hget : KubernetesControllerDirectory.getOrCreate name spec s with ⟨r', s'⟩
  rw [hget] at h
  rcases hs.getOrCreate hp hget with ⟨rfl, hs'⟩ | ⟨e, rfl, hs'⟩
  · have hstored : s'.stored name = some p := by simp [hs']
    by_cases hid : p.spec.controllerId = id.value
    · simp only [verifyIdentity, if_pos hid] at h
      cases htr : transition p.status p.generation with
      | none =>
        simp only [htr] at h
        cases h
        exact .inr ⟨_, rfl, hs' ▸ .rejected hid htr⟩
      | some status =>
        simp only [htr] at h
        rcases hrep : s'.replaceStatus name { p with status := some status } with ⟨r'', s''⟩
        rw [hrep] at h
        rcases Resources.replaceStatus_cases hstored hrep with ⟨⟨c, rfl⟩, hs''⟩ | ⟨e, rfl, hs''⟩
        · cases h
          refine .inr ⟨_, rfl, ?_⟩
          rw [hs'', hs', update_idem]
          exact .accepted hid htr
        · cases e with
          | conflict =>
            cases h
            exact .inl ⟨rfl, .inr (hs''.elim (·.trans hs') fun hs'' => absurd rfl hs''.2)⟩
          | other message =>
            cases h
            refine .inr ⟨_, rfl, ?_⟩
            rcases hs'' with hs'' | ⟨hs'', -⟩
            · rw [hs'', hs']
              exact .failed (.inl ⟨message, rfl⟩) (.inr (.inl rfl))
            · rw [hs'', hs', update_idem]
              exact .failed (.inl ⟨message, rfl⟩) (.inr (.inr ⟨hid, status, htr, rfl⟩))
    · simp only [verifyIdentity, if_neg hid] at h
      cases h
      exact .inr ⟨_, rfl, hs' ▸ .collided hid⟩
  · cases e with
    | conflict =>
      cases h
      exact .inl ⟨rfl, hs'⟩
    | other message =>
      cases h
      exact .inr ⟨_, rfl, hs'.projected (.inl ⟨message, rfl⟩)⟩

theorem getOrCreate_undisturbed (hp : prepared name spec (s.stored name) = p) (hs : s.answers = []) :
    getOrCreate name spec s = (.ok p, ⟨update s.stored name (some p), []⟩) := by
  obtain ⟨stored, answers⟩ := s
  obtain rfl : answers = [] := hs
  cases hv : stored name with
  | none =>
    simp only [hv, prepared] at hp
    simp [getOrCreate, Resources.get, Resources.create, Resources.request, hv, hp]
  | some r =>
    have hsame : update stored name (some r) = stored := by rw [← hv]; simp
    simp only [hv, prepared] at hp
    simp only [getOrCreate, Resources.get, Resources.request, hv]
    split_ifs at hp ⊢ with hid hspec
    · rw [← hp, hsame]
    · simp [Resources.replace, Resources.request, hv, Ne.symm hspec, hp]
    · rw [← hp, hsame]

variable (d : KubernetesControllerDirectory)

/-- Whatever the API server answers, a projection ends in one of four ways. -/
theorem replaceStatusWithRetry_projected (id : ControllerId) (spec : EdgionControllerSpec)
    (transition : StatusTransition) (s : Resources)
    (hname : d.controllerResourceName id.value = name) (hp : prepared name spec (s.stored name) = p) :
    Projected s.stored name id transition (s.stored name) p
      (d.replaceStatusWithRetry id spec transition s).1
      (d.replaceStatusWithRetry id spec transition s).2.stored := by
  rw [replaceStatusWithRetry, hname]
  refine retry_rule (P := Pending s.stored name (s.stored name) p)
    (Q := fun r t => Projected s.stored name id transition (s.stored name) p r t.stored)
    ?_ ?_ ?_ _ s ?_
  · intro u t hu h
    rcases hu.round hp h with ⟨-, ht⟩ | ⟨_, hr, -⟩
    · exact ht
    · cases hr
  · intro u t r hu h
    rcases hu.round hp h with ⟨hr, -⟩ | ⟨_, hr, ht⟩
    · cases hr
    · cases hr
      exact ht
  · exact fun u hu => hu.projected (.inr rfl)
  · exact .inl (update_eq_self _ _).symm

/-- Without errors the first round ends it. -/
theorem replaceStatusWithRetry_undisturbed (transition : StatusTransition)
    (hname : d.controllerResourceName id.value = name) (hp : prepared name spec (s.stored name) = p)
    (hs : s.answers = []) (hid : p.spec.controllerId = id.value) :
    d.replaceStatusWithRetry id spec transition s =
      match transition p.status p.generation with
      | none => (.ok false, ⟨update s.stored name (some p), []⟩)
      | some status =>
        (.ok true,
          ⟨update s.stored name (some { p with status := some status }), []⟩) := by
  rw [replaceStatusWithRetry, hname, maxConflictRetries, retry, projectionRound,
    getOrCreate_undisturbed hp hs]
  simp only [verifyIdentity, if_pos hid]
  cases transition p.status p.generation with
  | none => rfl
  | some status => simp [Resources.replaceStatus, Resources.request]

/-- An eviction does nothing, or hides a status of its own controller. -/
def Evicts (base : String → Option EdgionController) (name : String) (id : ControllerId)
    (f : String → Option EdgionController) : Prop :=
  f = base ∨ ∃ r status, base name = some r ∧ r.spec.controllerId = id.value ∧
    r.status = some status ∧ status.evicted = false ∧
      f = update base name (some { r with status := some (evictStatus status) })

theorem hideStatus_evicts {resource : EdgionController} {status : EdgionControllerStatus}
    {session : Option SessionId} (hv : s.stored name = some resource)
    (hid : resource.spec.controllerId = id.value) (hstatus : resource.status = some status)
    (hev : status.evicted = false) (h : hideStatus name resource status session s = (r, t)) :
    r = none ∧ t.stored = s.stored ∨ (∃ x, r = some x) ∧ Evicts s.stored name id t.stored := by
  have hevicts {t : Resources} (ht : t.stored = update s.stored name
      (some { resource with status := some (evictStatus status) })) :
      Evicts s.stored name id t.stored :=
    .inr ⟨resource, status, hv, hid, hstatus, hev, ht⟩
  unfold hideStatus at h
  rcases hrep : s.replaceStatus name { resource with status := some (evictStatus status) } with
    ⟨r', s'⟩
  rw [hrep] at h
  rcases Resources.replaceStatus_cases hv hrep with ⟨⟨c, rfl⟩, hs'⟩ | ⟨e, rfl, hs'⟩
  · cases h
    exact .inr ⟨⟨_, rfl⟩, hevicts hs'⟩
  · cases e with
    | conflict =>
      cases h
      exact .inl ⟨rfl, hs'.resolve_right fun hs' => hs'.2 rfl⟩
    | other message =>
      cases h
      exact .inr ⟨⟨_, rfl⟩, hs'.elim .inl fun hs' => hevicts hs'.1⟩

theorem evictionRound_evicts (h : evictionRound name id s = (r, t)) :
    r = none ∧ t.stored = s.stored ∨ (∃ x, r = some x) ∧ Evicts s.stored name id t.stored := by
  unfold evictionRound at h
  rcases hget : s.get name with ⟨got, s'⟩
  rw [hget] at h
  obtain ⟨hs', hgot⟩ := Resources.get_cases hget
  have hnothing (hr : ∃ x, (some x, s') = (r, t)) :
      r = none ∧ t.stored = s.stored ∨ (∃ x, r = some x) ∧ Evicts s.stored name id t.stored := by
    obtain ⟨x, hr⟩ := hr
    cases hr
    exact .inr ⟨⟨x, rfl⟩, .inl hs'⟩
  rcases hgot with rfl | ⟨e, rfl⟩
  · cases hv : s.stored name with
    | none =>
      rw [hv] at h
      exact hnothing ⟨_, h⟩
    | some resource =>
      rw [hv] at h
      by_cases hid : resource.spec.controllerId = id.value
      · simp only [verifyIdentity, if_pos hid] at h
        cases hstatus : resource.status with
        | none =>
          simp only [hstatus] at h
          exact hnothing ⟨_, h⟩
        | some status =>
          simp only [hstatus] at h
          split_ifs at h with hev
          · exact hnothing ⟨_, h⟩
          · cases hsession : storedSession status.sessionId with
            | error e =>
              simp only [hsession] at h
              exact hnothing ⟨_, h⟩
            | ok session =>
              simp only [hsession] at h
              rw [← hs'] at hv ⊢
              exact hideStatus_evicts hv hid hstatus (by simpa using hev) h
      · simp only [verifyIdentity, if_neg hid] at h
        exact hnothing ⟨_, h⟩
  · exact hnothing ⟨_, h⟩

theorem evict_evicts (id : ControllerId) (s : Resources) :
    Evicts s.stored (d.controllerResourceName id.value) id (d.evict id s).2.stored := by
  refine retry_rule (P := fun u => u.stored = s.stored)
    (Q := fun _ t => Evicts s.stored (d.controllerResourceName id.value) id t.stored) ?_ ?_ ?_ _ s
    rfl
  · intro u t hu h
    rcases evictionRound_evicts h with ⟨-, ht⟩ | ⟨⟨_, hr⟩, -⟩
    · exact ht.trans hu
    · cases hr
  · intro u t r hu h
    rcases evictionRound_evicts h with ⟨hr, -⟩ | ⟨-, ht⟩
    · cases hr
    · exact hu ▸ ht
  · exact fun u hu => .inl hu

/-- The spec a registration is projected with. -/
def registrationSpec (registration : ControllerRegistration) : EdgionControllerSpec :=
  ⟨registration.controllerId.value, registration.cluster, registration.environments,
    registration.tags⟩

/-- The spec of the operations that know nothing but the id. -/
def bareSpec (id : ControllerId) : EdgionControllerSpec := ⟨id.value, "", [], []⟩

variable {registration : ControllerRegistration} {session : SessionId}
  {fence : Option OwnershipFence} {observedAt : Int} {observation : ControllerRuntimeObservation}

theorem run_upsertRegistration (h : d.inRange registration.observedAtUnixMs = true) :
    d.run (.upsertRegistration registration) s =
      let projected := d.replaceStatusWithRetry registration.controllerId
        (registrationSpec registration)
        (upsertTransition registration registration.observedAtUnixMs) s
      (match projected.1 with
        | .ok true => .ok .registered
        | .ok false => .error (staleRegistration registration.controllerId)
        | .error e => .error e, projected.2) := by
  simp only [run, upsertRegistration, timeFromMillis, h, if_true]
  rcases hl : d.replaceStatusWithRetry registration.controllerId (registrationSpec registration)
    (upsertTransition registration registration.observedAtUnixMs) s with ⟨_ | _ | _, t⟩ <;>
  · rw [registrationSpec] at hl
    rw [hl]
    rfl

theorem run_markOffline (h : d.inRange observedAt = true) :
    d.run (.markOffline id session fence observedAt) s =
      let projected := d.replaceStatusWithRetry id (bareSpec id)
        (offlineTransition session fence observedAt observedAt) s
      (projected.1.map fun changed => .offline (if changed then .marked else .notCurrent),
        projected.2) := by
  simp only [run, markOffline, timeFromMillis, h, if_true]
  rcases hl : d.replaceStatusWithRetry id (bareSpec id)
    (offlineTransition session fence observedAt observedAt) s with ⟨_ | _ | _, t⟩ <;>
  · rw [bareSpec] at hl
    rw [hl]
    rfl

theorem run_projectRuntime (h : d.inRange observation.observedAtUnixMs = true) :
    d.run (.projectRuntime observation) s =
      let projected := d.replaceStatusWithRetry observation.controllerId
        (bareSpec observation.controllerId)
        (runtimeTransition observation observation.observedAtUnixMs) s
      (projected.1.map .projected, projected.2) := by
  simp only [run, projectRuntime, timeFromMillis, h, if_true]
  rfl

variable {d}

/-- An operation whose time is out of range does nothing. -/
theorem run_upsertRegistration_out_of_range (h : d.inRange registration.observedAtUnixMs = false) :
    (d.run (.upsertRegistration registration) s).2 = s := by
  simp [run, upsertRegistration, timeFromMillis, h]

theorem run_markOffline_out_of_range (h : d.inRange observedAt = false) :
    (d.run (.markOffline id session fence observedAt) s).2 = s := by
  simp [run, markOffline, timeFromMillis, h]

theorem run_projectRuntime_out_of_range (h : d.inRange observation.observedAtUnixMs = false) :
    (d.run (.projectRuntime observation) s).2 = s := by
  simp [run, projectRuntime, timeFromMillis, h]

end KubernetesControllerDirectory

end EdgionCenter
