import EdgionCenter.Federation.Session
import EdgionCenter.Lib.Run

/-! When a Lease is released, no registered session may still claim it. -/
namespace EdgionCenter

open Center MaintainerPhase Transition

variable {controllerId : String} {coordinated : Bool} {s t : Center} {a : Action} {i : Nat}
  {l : Leadership}

namespace Center

/-- No view of the registry matches a leadership that has been handed back. -/
def Revoked (s : Center) : Prop :=
  ∀ l ∈ s.released, ∀ view, s.getSession = some view →
    view.matchesOwnership l.holder l.fence = false

/-- A failed registration gives its Lease back only once the registry holds another session, or the
session's flag is cleared. -/
def RevokedFirst (s : Center) : Action → Prop
  | .giveUp i => s.isCurrentSession i = false ∨ s.valid i = false
  | _ => True

/-- The session has called `register` already. -/
def Past (s : Center) (i : Nat) : Prop :=
  s.sync i ≠ .connecting ∧ s.sync i ≠ .acquiring ∧ s.sync i ≠ .registering

/-- The session will never again be registered with a valid flag. -/
def Dead (s : Center) (i : Nat) : Prop :=
  s.Past i ∧ (s.valid i = false ∨ s.isCurrentSession i = false)

/-- The leadership `l` is what session `i` acquired, perhaps renewed. -/
def Owns (s : Center) (i : Nat) (l : Leadership) : Prop :=
  ∃ l', s.ownership i = some l' ∧ l'.holder = l.holder ∧ l'.fence = l.fence

end Center

/-- The leadership a maintainer is looking after. -/
def MaintainerPhase.leadership : MaintainerPhase → Option Leadership
  | .waiting l | .cancelling l | .revoking l | .releasing l => some l
  | _ => none

/-- The maintainer has cleared the flag. -/
def MaintainerPhase.Cleared : MaintainerPhase → Prop
  | .cancelling _ | .releasing _ => True
  | _ => False

namespace Center

structure Accounted (s : Center) : Prop where
  distinct : ∀ i j l l', s.ownership i = some l → s.ownership j = some l' →
    l.fencingEpoch = l'.fencingEpoch → i = j
  held : ∀ i l, (s.maintainer i).leadership = some l → s.Owns i l
  cleared : ∀ i, (s.maintainer i).Cleared → s.valid i = false
  dead : ∀ l ∈ s.released, ∃ i, s.Owns i l ∧ s.Dead i

theorem start_accounted : start.Accounted := by
  constructor <;> simp [start, leadership, Cleared]

theorem Accounted.revoked (h : s.Accounted) : s.Revoked := by
  intro l hl view hv
  obtain ⟨i, ⟨l', hl', hh, hf⟩, hpast, hdead⟩ := h.dead l hl
  obtain ⟨e, he, rfl⟩ := Option.map_eq_some_iff.mp hv
  by_contra hm
  cases ho : s.ownership e.sessionId with
  | none => simp [SessionView.matchesOwnership, sessionOwnership, ho] at hm
  | some l'' =>
    simp only [SessionView.matchesOwnership, sessionOwnership, ho, Option.map_some,
      Bool.not_eq_false, Bool.and_eq_true, beq_iff_eq] at hm
    obtain ⟨⟨hvalid, -⟩, hfence⟩ := hm
    have hepoch : l''.fencingEpoch = l'.fencingEpoch :=
      congrArg OwnershipFence.epoch (hfence.trans hf.symm)
    obtain rfl := h.distinct _ _ _ _ ho hl' hepoch
    rcases hdead with hd | hd
    · simp [hd] at hvalid
    · simp [isCurrentSession, he] at hd

/-- Nothing revives a session: flags are only ever cleared, and a session registers once. -/
structure Fades (s t : Center) : Prop where
  valid : ∀ i, s.valid i = false → t.valid i = false
  past : ∀ i, s.Past i → t.Past i
  current : ∀ i, s.Past i → s.isCurrentSession i = false → t.isCurrentSession i = false

theorem Dead.mono (h : s.Dead i) (hf : Fades s t) : t.Dead i :=
  ⟨hf.past i h.1, h.2.imp (hf.valid i) (hf.current i h.1)⟩

/-- A step without an acquire keeps the accounts if whatever it releases is dead. -/
theorem Accounted.moved (h : s.Accounted) (hf : Fades s t) (ho : t.ownership = s.ownership)
    (hm : ∀ i l, (t.maintainer i).leadership = some l → s.Owns i l)
    (hc : ∀ i, (t.maintainer i).Cleared → t.valid i = false)
    (hr : ∀ l ∈ t.released, l ∈ s.released ∨ ∃ i, s.Owns i l ∧ t.Dead i) : t.Accounted := by
  have howns : ∀ i l, t.Owns i l ↔ s.Owns i l := by simp [Owns, ho]
  refine ⟨ho ▸ h.distinct, ?_, hc, ?_⟩
  · exact fun i l hl => (howns i l).mpr (hm i l hl)
  · intro l hl
    rcases hr l hl with hl | ⟨i, hi, hd⟩
    · obtain ⟨i, hi, hd⟩ := h.dead l hl
      exact ⟨i, (howns i l).mpr hi, hd.mono hf⟩
    · exact ⟨i, (howns i l).mpr hi, hd⟩

end Center

theorem SyncStep.fades (h : SyncStep coordinated s a t) : Fades s t := by
  constructor
  · intro k hk
    cases h with
    | fence h _ =>
      cases ho : s.ownedSession with
      | none => simpa [ho] using hk
      | some j => by_cases hj : k = j <;> simp [ho, hj, hk]
    | _ => exact hk
  · intro k hk
    cases h with
    | @fence i _ h _ | @unowned i _ h _ | @acquired i _ h _ _ | @refused i _ h | @register i _ h
    | @inform i _ h | @projectionFailed i _ h | @unlist i _ h | @giveUp i _ h | @serve i _ h =>
      by_cases hki : k = i
      · subst hki
        simp_all [Past]
      · simpa [Past, hki] using hk
  · intro k hp hk
    cases h with
    | @register i _ h =>
      have hki : i ≠ k := by
        rintro rfl
        exact hp.2.2 h
      simp [isCurrentSession, hki]
    | projectionFailed h => exact (isCurrentSession_sessionMarkOffline k).trans hk
    | _ => exact hk

theorem acquired_accounted (h : s.Accounted) (hnone : s.ownership i = none)
    (hl : ∀ j l', s.ownership j = some l' → l'.fencingEpoch ≠ l.fencingEpoch)
    (hf : Fades s ({ s with ownership := Function.update s.ownership i (some l) }.setSync i
      .registering)) : ({ s with ownership := Function.update s.ownership i (some l) }.setSync i
      .registering).Accounted := by
  have howns : ∀ {k l'}, s.Owns k l' →
      ({ s with ownership := Function.update s.ownership i (some l) }.setSync i
        .registering).Owns k l' := by
    rintro k l' ⟨l'', hl'', heq⟩
    have hki : k ≠ i := by
      rintro rfl
      simp [hnone] at hl''
    exact ⟨l'', by simpa [hki] using hl'', heq⟩
  refine ⟨?_, fun k l' hk => howns (h.held k l' hk), h.cleared, ?_⟩
  · intro j k lj lk hj hk he
    by_cases hji : j = i <;> by_cases hki : k = i
    · exact hji.trans hki.symm
    · obtain rfl : l = lj := by simpa [hji] using hj
      exact absurd he.symm (hl k lk (by simpa [hki] using hk))
    · obtain rfl : l = lk := by simpa [hki] using hk
      exact absurd he (hl j lj (by simpa [hji] using hj))
    · exact h.distinct j k lj lk (by simpa [hji] using hj) (by simpa [hki] using hk) he
  · intro l' hl'
    obtain ⟨k, hk, hd⟩ := h.dead l' hl'
    exact ⟨k, howns hk, hd.mono hf⟩

theorem SyncStep.accounted (h : SyncStep coordinated s a t) (hs : s.Accounted) (he : s.Early)
    (hok : s.RevokedFirst a) : t.Accounted := by
  have hf := h.fades
  have hcl : ∀ i, (s.maintainer i).Cleared → t.valid i = false := fun i hi =>
    hf.valid i (hs.cleared i hi)
  cases h with
  | @acquired i _ h l hl => exact acquired_accounted hs (he i (.inr h)) hl hf
  | @giveUp i _ h =>
    refine hs.moved hf rfl hs.held hcl ?_
    intro l hl
    simp only [setSync_released, List.mem_append, Option.mem_toList] at hl
    refine hl.symm.imp_right fun hl => ⟨i, ⟨l, hl, rfl, rfl⟩, ?_⟩
    exact ⟨hf.past i (by simp [Past, h]), hok.symm⟩
  | @serve i _ h =>
    refine hs.moved hf rfl ?_ ?_ fun l hl => .inl hl
    · intro k l hk
      by_cases hki : k = i
      · subst hki
        cases ho : s.ownership k with
        | none => simp [ho, leadership] at hk
        | some l' =>
          obtain rfl : l' = l := by simpa [ho, leadership] using hk
          exact ⟨l', ho, rfl, rfl⟩
      · exact hs.held k l (by simpa [hki] using hk)
    · intro k hk
      by_cases hki : k = i
      · subst hki
        cases ho : s.ownership k <;> simp [ho, Cleared] at hk
      · exact hs.cleared k (by simpa [hki] using hk)
  | _ => exact hs.moved hf rfl hs.held hcl fun l hl => .inl hl

/-- A maintainer moves on; its flag is cleared first if it is about to release. -/
theorem maintainer_accounted {phase : MaintainerPhase} (h : s.Accounted) (hst : s.Staged)
    (hm : s.maintainer i ≠ .absent) (hv : ∀ k, s.valid k = false → t.valid k = false)
    (ho : t.ownership = s.ownership) (hreg : t.registry = s.registry) (hs : t.sync = s.sync)
    (ht : t.maintainer = Function.update s.maintainer i phase)
    (hp : ∀ l, phase.leadership = some l → s.Owns i l) (hc : phase.Cleared → t.valid i = false)
    (hr : ∀ l ∈ t.released, l ∈ s.released ∨ s.Owns i l ∧ s.valid i = false) : t.Accounted := by
  have hserving : s.sync i = .serving := by
    by_contra hne
    exact hm (hst i hne).2
  have hf : Fades s t := by
    refine ⟨hv, ?_, ?_⟩
    · intro k hk
      simpa [Past, hs] using hk
    · intro k _ hk
      simpa [isCurrentSession, hreg] using hk
  refine h.moved hf ho ?_ ?_ ?_
  · intro k l hk
    by_cases hki : k = i
    · subst hki
      exact hp l (by simpa [ht] using hk)
    · exact h.held k l (by simpa [ht, hki] using hk)
  · intro k hk
    by_cases hki : k = i
    · subst hki
      exact hc (by simpa [ht] using hk)
    · exact hv k (h.cleared k (by simpa [ht, hki] using hk))
  · intro l hl
    rcases hr l hl with hl' | ⟨howns, hval⟩
    · exact .inl hl'
    · exact .inr ⟨i, howns, by simp [Past, hs, hserving], .inl (hv i hval)⟩

theorem MaintainerStep.accounted (h : MaintainerStep s a t) (hs : s.Accounted) (hst : s.Staged) :
    t.Accounted := by
  have hclear : ∀ i k, s.valid k = false → (s.invalidate i).valid k = false := by
    intro i k hk
    by_cases hki : k = i <;> simp [hki, hk]
  cases h with
  | @renewed i l _ h l' hh hf =>
    refine maintainer_accounted hs hst (i := i) (by simp [h]) (fun _ => id) rfl rfl rfl rfl ?_
      False.elim fun l hl => .inl hl
    intro l'' hl''
    obtain ⟨o, ho, hh', hf'⟩ := hs.held i l (by simp [h, leadership])
    cases hl''
    exact ⟨o, ho, hh'.trans hh.symm, hf'.trans hf.symm⟩
  | @lose i l _ h =>
    refine maintainer_accounted hs hst (i := i) (by simp [h]) (hclear i) rfl rfl rfl rfl ?_
      (fun _ => by simp) fun l hl => .inl hl
    exact fun l' hl' => hs.held i l' (by simpa [h, leadership] using hl')
  | @loseCancel i l _ h early =>
    have hval := hs.cleared i (by simp [h, Cleared])
    refine maintainer_accounted hs hst (i := i) (by simp [h]) (fun _ => id) rfl rfl rfl rfl ?_
      (fun _ => hval) fun l hl => .inl hl
    intro l' hl'
    refine hs.held i l' ?_
    cases early <;> simpa [h, leadership] using hl'
  | @notice i l _ h hc =>
    refine maintainer_accounted hs hst (i := i) (by simp [h]) (fun _ => id) rfl rfl rfl rfl ?_
      False.elim fun l hl => .inl hl
    exact fun l' hl' => hs.held i l' (by simpa [h, leadership] using hl')
  | @revoke i l _ h =>
    refine maintainer_accounted hs hst (i := i) (by simp [h]) (hclear i) rfl rfl rfl rfl ?_
      (fun _ => by simp) fun l hl => .inl hl
    exact fun l' hl' => hs.held i l' (by simpa [h, leadership] using hl')
  | @release i l _ h =>
    refine maintainer_accounted hs hst (i := i) (by simp [h]) (fun _ => id) rfl rfl rfl rfl
      (by simp [leadership]) False.elim ?_
    intro l' hl'
    rcases List.mem_cons.mp hl' with rfl | hl'
    · right
      exact ⟨hs.held i l' (by simp [h, leadership]),
        hs.cleared i (by simp [h, Cleared])⟩
    · exact .inl hl'

/-- Steps that only cancel, look at messages or write the read models change nothing here. -/
theorem accounted_congr (h : s.Accounted) (ho : t.ownership = s.ownership)
    (hv : ∀ k, s.valid k = false → t.valid k = false) (hs : t.sync = s.sync)
    (hm : t.maintainer = s.maintainer) (hr : t.released = s.released)
    (hc : ∀ k, s.isCurrentSession k = false → t.isCurrentSession k = false) : t.Accounted := by
  refine h.moved ⟨hv, ?_, fun k _ => hc k⟩ ho (by simpa [hm] using h.held) ?_
    (by simp +contextual [hr])
  · intro k hk
    simpa [Past, hs] using hk
  · intro k hk
    exact hv k (h.cleared k (by simpa [hm] using hk))

theorem LoopStep.accounted (h : LoopStep controllerId s a t) (hs : s.Accounted) : t.Accounted := by
  cases h with
  | clean h =>
    refine accounted_congr hs rfl (fun _ => id) rfl rfl rfl fun k hk => ?_
    exact (isCurrentSession_sessionMarkOffline k).trans hk
  | _ => exact accounted_congr hs rfl (fun _ => id) rfl rfl rfl fun _ => id

theorem EvictStep.accounted (h : EvictStep s a t) (hs : s.Accounted) : t.Accounted := by
  cases h with
  | removeSession h =>
    refine accounted_congr hs rfl ?_ rfl rfl rfl fun k _ => rfl
    intro k hk
    cases hr : s.registry with
    | none => simpa [hr] using hk
    | some e => by_cases hke : k = e.sessionId <;> simp [hr, hke, hk]
  | _ => exact accounted_congr hs rfl (fun _ => id) rfl rfl rfl fun _ => id

theorem CenterStep.accounted (h : CenterStep controllerId coordinated s a t) (hs : s.Accounted)
    (hst : s.Staged) (he : s.Early) (hok : s.RevokedFirst a) : t.Accounted := by
  cases h with
  | session h =>
    cases h with
    | sync h => exact h.accounted hs he hok
    | maintainer h => exact h.accounted hs hst
    | loop h => exact h.accounted hs
  | evict h => exact h.accounted hs

/-- A session is cancelled, and its maintainer clears the flag and releases. -/
theorem cancelled_session_run :
    ∃ s, Run (Guarded (CenterStep "edge-1" true) RevokedFirst) Center.start
        [.fence 0, .acquired 0 firstLease, .register 0, .inform 0, .serve 0, .heartbeat 0,
          .notice 0, .revoke 0, .release 0] s ∧ s.released = [firstLease] ∧
      s.getSession = some ⟨0, false, some ⟨"center-a", firstLease.fence, false⟩⟩ := by
  refine ⟨_, .step ⟨.session (.sync (.fence rfl rfl)), trivial⟩ <|
    .step ⟨.session (.sync (.acquired rfl firstLease (by simp [Center.start]))), trivial⟩ <|
    .step ⟨.session (.sync (.register rfl)), trivial⟩ <|
    .step ⟨.session (.sync (.inform rfl)), trivial⟩ <|
    .step ⟨.session (.sync (.serve rfl)), trivial⟩ <|
    .step ⟨.session (.loop (.heartbeat (by simp))), trivial⟩ <|
    .step ⟨.session (.maintainer (.notice (l := firstLease) rfl rfl)), trivial⟩ <|
    .step ⟨.session (.maintainer (.revoke (l := firstLease) rfl)), trivial⟩ <|
    .step ⟨.session (.maintainer (.release (l := firstLease) rfl)), trivial⟩ <| .refl _, rfl, rfl⟩

/-- If every failed registration revokes before it gives up, every release in the run finds the
ownership revoked, and it stays so. -/
theorem revoked_of_revokedFirst_run {as : List Action}
    (h : Run (Guarded (CenterStep controllerId coordinated) RevokedFirst) Center.start as s) :
    s.Revoked := by
  have hs : s.Accounted ∧ s.Staged ∧ s.Early :=
    h.invariant (P := fun s => s.Accounted ∧ s.Staged ∧ s.Early)
      (fun _ _ _ hs hst => ⟨hst.1.accounted hs.1 hs.2.1 hs.2.2 hst.2, hst.1.staged hs.2.1,
        hst.1.early hs.2.2⟩)
      ⟨start_accounted, start_staged, start_early⟩
  exact hs.1.revoked

theorem revoked_of_revokedFirst_run_cancelled :
    ∃ s, Run (Guarded (CenterStep "edge-1" true) RevokedFirst) Center.start
        [.fence 0, .acquired 0 firstLease, .register 0, .inform 0, .serve 0, .heartbeat 0,
          .notice 0, .revoke 0, .release 0] s ∧ s.released = [firstLease] ∧ s.Revoked := by
  obtain ⟨s, h, hr, -⟩ := cancelled_session_run
  exact ⟨s, h, hr, revoked_of_revokedFirst_run h⟩

/-- A failed projection gives the Lease back while the session it leaves in the registry, though
offline, still claims it. -/
theorem failed_projection_not_revoked : ∃ s, Run (CenterStep "edge-1" true) Center.start
        [.fence 0, .acquired 0 firstLease, .register 0, .inform 0, .projectionFailed 0, .unlist 0,
          .giveUp 0] s ∧ ¬ s.Revoked := by
  refine ⟨_, .step (.session (.sync (.fence rfl rfl))) <|
    .step (.session (.sync (.acquired rfl firstLease (by simp [Center.start])))) <|
    .step (.session (.sync (.register rfl))) <| .step (.session (.sync (.inform rfl))) <|
    .step (.session (.sync (.projectionFailed rfl))) <| .step (.session (.sync (.unlist rfl))) <|
    .step (.session (.sync (.giveUp rfl))) <| .refl _, ?_⟩
  intro h
  have hview := h firstLease (by decide) ⟨0, false, some ⟨"center-a", firstLease.fence, true⟩⟩ rfl
  revert hview
  decide

end EdgionCenter
