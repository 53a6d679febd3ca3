import EdgionCenter.Directory.Projection

/-! When a finished offline mark keeps the registration of its session out for good. -/
namespace EdgionCenter

open Function Register

variable {ι : Type} {S : ι → Session} {i : ι} {c : ControllerId}

section Sql

variable {backend : Backend} {ops : List (DirectoryOp × Int)} {stored : Option ControllerRow}

theorem replay_row_mono (hrevs : Injective fun i => (S i).observedAt)
    (hids : Injective fun i => backend.key (S i).id.value)
    (hops : ∀ o ∈ ops, o.1.isSessionWrite = true → ∃ i, (S i).SqlOp c o.1) (hs : RowInv S stored) :
    RowInv S (backend.replay stored ops) ∧
      rowView stored ≤ rowView (backend.replay stored ops) := by
  induction ops generalizing stored with
  | nil => exact ⟨hs, le_rfl⟩
  | cons o ops ih =>
    obtain ⟨hinv, hle⟩ := run_row_mono hrevs hids (hops o (by simp)) hs
    obtain ⟨hinv', hle'⟩ := ih (fun o' ho' => hops o' (by simp [ho'])) hinv
    exact ⟨hinv', hle.trans hle'⟩

/-- The registration of a session is refused, and the session is not shown online. -/
def Backend.KeepsOut (backend : Backend) (c : ControllerId) (x : Session)
    (stored : Option ControllerRow) : Prop :=
  (∀ r now, x.SqlOp c (.upsertRegistration r) →
    backend.run now (.upsertRegistration r) stored = (.error (staleRevision c), stored)) ∧
  ∀ row record, stored = some row → rowRecord c.value row = .ok (some record) →
    ¬ record.ShowsOnline x.id

theorem keepsOut_row (hids : Injective fun i => backend.key (S i).id.value) (hs : RowInv S stored)
    (h : held (S i).observedAt true ≤ rowView stored) : backend.KeepsOut c (S i) stored := by
  refine ⟨?_, ?_⟩
  · rintro r now ⟨rfl, -, hrev⟩
    exact register_refused (hrev ▸ h)
  · rintro row record rfl hrecord
    exact not_shown_row hids hs h hrecord

end Sql

namespace KubernetesControllerDirectory

variable {d : KubernetesControllerDirectory} {s : Resources} {op : DirectoryOp}
  {current : Option EdgionControllerStatus} {generation : Option Int} {observedAt time : Int}

/-- The offline mark finds no eviction of an older session. -/
def FindsNoOlderEviction (current : Option EdgionControllerStatus) (x : Session) : Prop :=
  ∀ status, current = some status → status.evicted = true → x.fence.epoch ≤ status.ownershipEpoch

theorem offline_mono (hepochs : Injective fun i => (S i).fence.epoch) (hs : StatusInv S current) :
    StatusInv S (applied (offlineTransition (S i).id (some (S i).fence) observedAt time) current
      generation) ∧
      statusView current ≤ statusView (applied (offlineTransition (S i).id (some (S i).fence)
        observedAt time) current generation) := by
  by_cases hfence : FindsNoOlderEviction current (S i)
  · obtain ⟨hinv, hview⟩ := offline_applied hepochs hs hfence
    exact ⟨hinv, hview ▸ le_write _ _⟩
  · obtain ⟨status, rfl, hev, -⟩ : ∃ status, current = some status ∧ status.evicted = true ∧
        ¬ (S i).fence.epoch ≤ status.ownershipEpoch := by
      simpa [FindsNoOlderEviction] using hfence
    have happ : applied (offlineTransition (S i).id (some (S i).fence) observedAt time)
        (some status) generation = some status := by
      simp [applied, offlineTransition, isNotCurrent, hev]
    rw [happ]
    exact ⟨hs, le_rfl⟩

/-- No operation takes a status back to an older epoch, or online again at the same one. -/
theorem run_status_mono (hepochs : Injective fun i => (S i).fence.epoch)
    (hop : op.controllerId = c → op.isSessionWrite = true → ∃ i, (S i).FencedOp c op)
    (hs : StatusInv S (d.statusOf c s.stored)) : StatusInv S (d.statusOf c (d.run op s).2.stored) ∧
      statusView (d.statusOf c s.stored) ≤ statusView (d.statusOf c (d.run op s).2.stored) := by
  by_cases hc : op.controllerId = c
  swap
  · rw [run_statusOf_other hc]
    exact ⟨hs, le_rfl⟩
  cases op with
  | upsertRegistration r =>
    obtain ⟨i, rfl, hid, hfence⟩ := hop hc rfl
    rcases upsert_statusOf (d := d) r s with ⟨generation, h⟩ | ⟨h, -⟩
    · rw [h]
      obtain ⟨hinv, hview⟩ := upsert_applied hid hfence hs
      exact ⟨hinv, hview ▸ le_write _ _⟩
    · rw [h]
      exact ⟨hs, le_rfl⟩
  | markOffline id session fence observedAt =>
    obtain ⟨i, rfl, rfl, rfl⟩ := hop hc rfl
    rcases offline_statusOf (d := d) id s with ⟨generation, h⟩ | ⟨h, -⟩
    · rw [h]
      exact offline_mono hepochs hs
    · rw [h]
      exact ⟨hs, le_rfl⟩
  | projectRuntime observation =>
    subst hc
    rcases runtime_statusOf (d := d) observation s with ⟨generation, h⟩ | h
    · rw [DirectoryOp.controllerId, h]
      obtain ⟨hinv, hview⟩ := runtime_applied hs
      exact ⟨hinv, hview.ge⟩
    · rw [DirectoryOp.controllerId, h]
      exact ⟨hs, le_rfl⟩
  | evict id =>
    subst hc
    rcases evict_statusOf (d := d) id s with h | ⟨status, hstatus, h⟩
    · rw [DirectoryOp.controllerId, h]
      exact ⟨hs, le_rfl⟩
    · obtain ⟨i, hof⟩ := hs status hstatus
      rw [DirectoryOp.controllerId, h, hstatus]
      exact ⟨statusInv_some (evictStatus_of hof), held_le_held.mpr (.inr ⟨rfl, Bool.le_true _⟩)⟩

/-- The resources after operations, each with the answers the API server has for it. -/
def replayAnswered (d : KubernetesControllerDirectory) (stored : String → Option EdgionController)
    (ops : List (DirectoryOp × List Answer)) : String → Option EdgionController :=
  ops.foldl (fun stored o => (d.run o.1 ⟨stored, o.2⟩).2.stored) stored

variable {ops : List (DirectoryOp × List Answer)} {stored : String → Option EdgionController}

theorem replay_status_mono (hepochs : Injective fun i => (S i).fence.epoch)
    (hops : ∀ o ∈ ops, o.1.controllerId = c → o.1.isSessionWrite = true →
      ∃ i, (S i).FencedOp c o.1) (hs : StatusInv S (d.statusOf c stored)) :
    StatusInv S (d.statusOf c (d.replayAnswered stored ops)) ∧
      statusView (d.statusOf c stored) ≤
        statusView (d.statusOf c (d.replayAnswered stored ops)) := by
  induction ops generalizing stored with
  | nil => exact ⟨hs, le_rfl⟩
  | cons o ops ih =>
    obtain ⟨hinv, hle⟩ := run_status_mono (s := ⟨stored, o.2⟩) hepochs (hops o (by simp)) hs
    obtain ⟨hinv', hle'⟩ := ih (fun o' ho' => hops o' (by simp [ho'])) hinv
    exact ⟨hinv', hle.trans hle'⟩

variable {answers : List Answer}

/-- A finished offline mark that found no eviction of an older session retires its epoch. -/
theorem retired_of_finished {outcome : OfflineOutcome}
    (hepochs : Injective fun i => (S i).fence.epoch) (hs : StatusInv S (d.statusOf c stored))
    (hfence : FindsNoOlderEviction (d.statusOf c stored) (S i))
    (h : (d.run (.markOffline c (S i).id (some (S i).fence) observedAt) ⟨stored, answers⟩).1 =
      .ok (.offline outcome)) : held (S i).fence.epoch true ≤ statusView (d.statusOf c
      (d.run (.markOffline c (S i).id (some (S i).fence) observedAt)
        ⟨stored, answers⟩).2.stored) := by
  rcases offline_statusOf (d := d) c ⟨stored, answers⟩ with ⟨generation, happ⟩ | ⟨-, e, he⟩
  · rw [happ, (offline_applied hepochs hs hfence).2]
    exact held_le_write_retire _
  · rw [he] at h
    cases h

/-- A registration below the status is refused, and changes nothing of it. -/
theorem upsert_refused {r : ControllerRegistration} (hr : (S i).FencedOp c (.upsertRegistration r))
    (h : held (S i).fence.epoch true ≤ statusView (d.statusOf c stored)) :
    (∃ e, (d.run (.upsertRegistration r) ⟨stored, answers⟩).1 = .error e) ∧
      d.statusOf c (d.run (.upsertRegistration r) ⟨stored, answers⟩).2.stored =
        d.statusOf c stored := by
  obtain ⟨rfl, -, hfence⟩ := hr
  have hnone : ∀ generation, upsertTransition r r.observedAtUnixMs
      (d.statusOf r.controllerId stored) generation = none := by
    intro generation
    cases hv : d.statusOf r.controllerId stored with
    | none =>
      rw [hv] at h
      exact absurd h (WithBot.not_coe_le_bot _)
    | some status =>
      rw [hv] at h
      have hle : (S i).fence.epoch ≤ status.ownershipEpoch := by
        rcases held_le_held.mp h with hlt | ⟨heq, -⟩ <;> omega
      simp [upsertTransition, isStale, hfence, hle]
  refine ⟨?_, ?_⟩
  · cases hr : d.inRange r.observedAtUnixMs with
    | false => simp [run, upsertRegistration, timeFromMillis, hr, Except.map]
    | true =>
      have hout := d.replaceStatusWithRetry_projected r.controllerId (registrationSpec r)
        (upsertTransition r r.observedAtUnixMs) ⟨stored, answers⟩ rfl rfl
      rw [run_upsertRegistration d hr]
      generalize d.replaceStatusWithRetry r.controllerId (registrationSpec r)
        (upsertTransition r r.observedAtUnixMs) ⟨stored, answers⟩ = projected at hout ⊢
      obtain ⟨e | _ | _, t⟩ := projected
      · exact ⟨e, rfl⟩
      · exact ⟨_, rfl⟩
      · obtain ⟨generation, hne⟩ := hout.transition_ne_none rfl rfl rfl
        exact absurd (hnone generation) hne
  · rcases upsert_statusOf (d := d) r ⟨stored, answers⟩ with ⟨generation, happ⟩ | ⟨hsame, -⟩
    · rw [happ, applied, hnone]
      rfl
    · exact hsame

/-- A status above the retired epoch of a session does not show it online. -/
theorem not_shown_status {r : EdgionController} {shown : ControllerRecord}
    (hids : Injective fun i => (S i).id) (hs : StatusInv S (d.statusOf c stored))
    (h : held (S i).fence.epoch true ≤ statusView (d.statusOf c stored))
    (hr : stored (d.controllerResourceName c.value) = some r) (hid : r.spec.controllerId = c.value)
    (hrecord : record r = .ok (some shown)) : ¬ shown.ShowsOnline (S i).id := by
  intro hshown
  obtain ⟨status, hstatus, hevicted, hphase, hsession⟩ := online_of_record hrecord hshown
  have hof : d.statusOf c stored = some status := by simp [statusOf, hr, hid, hstatus]
  obtain ⟨j, hepoch, -, ⟨-, hname⟩ | ⟨hev, -⟩⟩ := hs status hof
  · rw [hname, Option.some.injEq] at hsession
    obtain rfl : j = i := hids (Identifier.ext hsession)
    rw [hof, statusView, hepoch, hphase] at h
    rcases held_le_held.mp h with hlt | ⟨-, hle⟩
    · exact absurd hlt (lt_irrefl _)
    · exact absurd hle (by decide)
  · simp [hev] at hevicted

/-- The registration of a session fails, and the session is not shown online. -/
def KeepsOut (d : KubernetesControllerDirectory) (c : ControllerId) (x : Session)
    (stored : String → Option EdgionController) : Prop :=
  (∀ r answers, x.FencedOp c (.upsertRegistration r) →
    (∃ e, (d.run (.upsertRegistration r) ⟨stored, answers⟩).1 = .error e) ∧
      d.statusOf c (d.run (.upsertRegistration r) ⟨stored, answers⟩).2.stored =
        d.statusOf c stored) ∧
  ∀ r shown, stored (d.controllerResourceName c.value) = some r →
    r.spec.controllerId = c.value → record r = .ok (some shown) → ¬ shown.ShowsOnline x.id

theorem keepsOut_status (hids : Injective fun i => (S i).id)
    (hs : StatusInv S (d.statusOf c stored))
    (h : held (S i).fence.epoch true ≤ statusView (d.statusOf c stored)) :
    d.KeepsOut c (S i) stored :=
  ⟨fun _ _ hr => upsert_refused hr h,
    fun _ _ hr hid hrecord => not_shown_status hids hs h hr hid hrecord⟩

end KubernetesControllerDirectory

open KubernetesControllerDirectory

/-- Once the offline mark of a session is finished, its registration is kept out, whatever comes in
between: always with SQL, and with Kubernetes if the mark did not find the eviction of an older
session. -/
theorem offline_fences_registration (c : ControllerId) (S : ι → Session) (i : ι) :
    (∀ (backend : Backend) (before after : List (DirectoryOp × Int)) (now : Int)
        (fence : Option OwnershipFence) (outcome : OfflineOutcome) (marked : Option ControllerRow),
      (Function.Injective fun i => (S i).observedAt) →
      (Function.Injective fun i => backend.key (S i).id.value) →
      (∀ o ∈ before ++ after, o.1.isSessionWrite = true → ∃ i, (S i).SqlOp c o.1) →
      backend.run now (.markOffline c (S i).id fence (S i).observedAt)
        (backend.replay none before) = (.ok (.offline outcome), marked) →
      backend.KeepsOut c (S i) (backend.replay marked after)) ∧
    ∀ (d : KubernetesControllerDirectory) (before after : List (DirectoryOp × List Answer))
        (observedAt : Int) (answers : List Answer) (outcome : OfflineOutcome) (marked : Resources),
      (Function.Injective fun i => (S i).fence.epoch) → (Function.Injective fun i => (S i).id) →
      (∀ o ∈ before ++ after, o.1.controllerId = c → o.1.isSessionWrite = true →
        ∃ i, (S i).FencedOp c o.1) →
      FindsNoOlderEviction (d.statusOf c (d.replayAnswered (fun _ => none) before)) (S i) →
      d.run (.markOffline c (S i).id (some (S i).fence) observedAt)
        ⟨d.replayAnswered (fun _ => none) before, answers⟩ = (.ok (.offline outcome), marked) →
      d.KeepsOut c (S i) (d.replayAnswered marked.stored after) := by
  constructor
  · intro backend before after now fence outcome marked hrevs hids hops hmarked
    obtain ⟨hinv, -⟩ := replay_row_mono hrevs hids
      (fun o ho => hops o (List.mem_append_left _ ho)) (nofun : RowInv S none)
    have hop : (S i).SqlOp c (.markOffline c (S i).id fence (S i).observedAt) := ⟨rfl, rfl, rfl⟩
    obtain ⟨hinv₁, hview⟩ := sqlOp_row hrevs hids hop hinv
    rw [hmarked] at hinv₁ hview
    obtain ⟨hinv₂, hle⟩ := replay_row_mono hrevs hids
      (fun o ho => hops o (List.mem_append_right _ ho)) hinv₁
    refine keepsOut_row hids hinv₂ (le_trans ?_ hle)
    rw [hview]
    exact held_le_write_retire _
  · intro d before after observedAt answers outcome marked hepochs hids hops hfence hmarked
    have hempty : StatusInv S (d.statusOf c fun _ => none) := by simp [StatusInv, statusOf]
    obtain ⟨hinv, -⟩ := replay_status_mono hepochs
      (fun o ho => hops o (List.mem_append_left _ ho)) hempty
    have hretired := retired_of_finished hepochs hinv hfence (congrArg Prod.fst hmarked)
    have hop : (S i).FencedOp c (.markOffline c (S i).id (some (S i).fence) observedAt) :=
      ⟨rfl, rfl, rfl⟩
    have hinv₁ := (run_status_mono (s := ⟨d.replayAnswered (fun _ => none) before, answers⟩)
      hepochs (fun _ _ => ⟨i, hop⟩) hinv).1
    rw [hmarked] at hretired hinv₁
    obtain ⟨hinv₂, hle⟩ := replay_status_mono hepochs
      (fun o ho => hops o (List.mem_append_right _ ho)) hinv₁
    exact keepsOut_status hids hinv₂ (hretired.trans hle)

/-- The old session is registered and evicted before the offline mark (SQL); it is registered
(Kubernetes). -/
theorem offline_fences_registration_replaced :
    (∃ marked, Backend.sqlite.run 0 (offlineOf (twoSessions true))
        (Backend.sqlite.replay none [(registrationOf (twoSessions false), 0), (.evict edge1, 0)]) =
          (.ok (.offline .notCurrent), marked) ∧
        Backend.sqlite.KeepsOut edge1 (twoSessions true) (Backend.sqlite.replay marked [])) ∧
    ∃ marked, exampleDirectory.run (offlineOf (twoSessions true))
        ⟨exampleDirectory.replayAnswered (fun _ => none)
          [(registrationOf (twoSessions false), [.conflict])], []⟩ =
          (.ok (.offline .marked), marked) ∧
        exampleDirectory.KeepsOut edge1 (twoSessions true)
          (exampleDirectory.replayAnswered marked.stored []) := by
  refine ⟨⟨_, rfl, ?_⟩, ⟨_, rfl, ?_⟩⟩
  · refine (offline_fences_registration edge1 twoSessions true).1 .sqlite
      [(registrationOf (twoSessions false), 0), (.evict edge1, 0)] [] 0
      (some (twoSessions true).fence) .notCurrent _
      (by decide) (by decide) ?_ rfl
    simp [registrationOf, Session.SqlOp, DirectoryOp.isSessionWrite]
  · refine (offline_fences_registration edge1 twoSessions true).2 exampleDirectory
      [(registrationOf (twoSessions false), [.conflict])] [] 200 [] .marked _
      (by decide) (by decide) ?_ ?_ rfl
    · simp [registrationOf, Session.FencedOp]
    · rintro status ⟨⟩ hev
      cases hev

/-- The offline mark of a session is turned down because an older one was evicted; its registration,
which comes late, is then taken. -/
theorem offline_after_eviction_not_fenced :
    ∃ marked, exampleDirectory.run (offlineOf (twoSessions true))
        ⟨exampleDirectory.replayAnswered (fun _ => none)
          [(registrationOf (twoSessions false), []), (.evict edge1, [])], []⟩ =
        (.ok (.offline .notCurrent), marked) ∧
      (exampleDirectory.run (registrationOf (twoSessions true)) marked).1 = .ok .registered :=
  ⟨_, rfl, rfl⟩

end EdgionCenter
