import EdgionCenter.Lease.Exclusive

/-! At most one live owner: every step of a punctual run keeps the invariant. -/
namespace EdgionCenter

open OwnerPhase Transition Versioned

namespace Fleet

variable {D : Deployment} {s t : Fleet} {i j : Nat} {op : LeaseOp} {left now : Nat} {wall : Int}
  {token : String} {got : Option (Object Lease)} {obs : Option LeaseObservation} {w : Write Lease}
  {r : Returned}

/-- A session that has left is not potent. -/
theorem Exclusive.not_potent (h : s.Exclusive D) (hm : ¬ (s.phase i).Maintained)
    (ha : ¬ (s.phase i).Awaiting) : ¬ s.Potent D i := by
  rintro ⟨hv, haw | ⟨d, hd, -⟩⟩
  · exact ha haw
  · rcases h.settled i hm with hs | hs
    · simp [hs] at hv
    · simp [hs] at hd

theorem potent_congr (hph : t.phase j = s.phase j) (hv : t.valid = s.valid)
    (hd : t.deadline = s.deadline) (ht : t.time = s.time) : t.Potent D j ↔ s.Potent D j := by
  simp [Potent, clock, hph, hv, hd, ht]

theorem late_exclusive (h : s.Exclusive D) (hw : (i, op, w) ∈ s.orphans) (ha : s.server.Accepts w)
    (hok : s.Punctual D (.late i op)) : (s.put w.value).Exclusive D := by
  have hsent := h.orphaned i op w hw
  refine h.written hsent ha rfl rfl rfl rfl rfl rfl (fun j hj => .inl hj) ?_
    (fun j op call hc => .inl hc) (fun _ => id) (fun _ => id) fun _ _ => id
  rintro l rfl j hj
  have hj' : s.Potent D j := hj
  have hphase := h.released i l w hw
  by_cases hji : j = i
  · subst hji
    exact h.not_potent (by simp [hphase, Maintained])
      (by simp [hphase, Awaiting]) hj'
  · exact hok j hji (h.home_of_accepts hsent ha hj') hj'

theorem commit_exclusive (h : s.Exclusive D) (hp : s.phase i = .calling op (.writing left w r))
    (ha : s.server.Accepts w) (hok : s.Punctual D (.commit i)) :
    ((s.put w.value).setPhase i (.calling op (.replied r))).Exclusive D := by
  obtain ⟨hsent, hnone⟩ : s.Sent D i op w ∧ ∀ l, op = .release l → r.leadership = none :=
    h.calls i op _ hp
  have hother : ∀ j, j ≠ i → ((s.put w.value).setPhase i (.calling op (.replied r))).phase j =
      s.phase j := by
    intro j hji
    simp [hji]
  refine h.written hsent ha rfl rfl rfl rfl rfl rfl ?_ ?_ ?_ ?_ ?_ ?_
  · intro j hj
    by_cases hji : j = i
    · exact .inr hji
    · exact .inl ((potent_congr (hother j hji) rfl rfl rfl).mp hj)
  · rintro l rfl j hj
    by_cases hji : j = i
    · subst hji
      have hnot := h.not_potent (i := j) (by simp [hp, Maintained])
        (by simp [hp, Awaiting])
      refine hnot ⟨hj.1, hj.2.imp_left fun haw => ?_⟩
      simp [Awaiting, hnone l rfl] at haw
    · have hj' := (potent_congr (hother j hji) rfl rfl rfl).mp hj
      exact hok l left w r hp j hji (h.home_of_accepts hsent ha hj') hj'
  · intro j op' call hc
    by_cases hji : j = i
    · subst hji
      refine .inr ⟨r, ?_⟩
      simp at hc
      exact hc.2.symm
    · exact .inl (hother j hji ▸ hc)
  · intro j hj
    have hji : j ≠ i := by
      rintro rfl
      simp [hp] at hj
    rwa [hother j hji]
  · intro j hj
    by_cases hji : j = i
    · subst hji
      rw [hp] at hj
      cases op <;> simp_all [Maintained]
    · rwa [hother j hji]
  · intro j r' hr'
    by_cases hji : j = i
    · subst hji
      simpa [hp, OwnerPhase.result] using hr'
    · rwa [hother j hji] at hr'

theorem heldBy_acquiredLease {r e : Nat} {key : String} {current : Option Lease} :
    D.HeldBy r ((D.replica r).acquiredLease key current wall token e) :=
  ⟨_, rfl, rfl, rfl⟩

variable {o : Object Lease} {l : Leadership} {v : Lease} {call : CallPhase} {p : OwnerPhase}
  {round : Round Returned}

/-- What a renew or a release has read names its replica, so nobody else has potent sessions while
it is current. -/
theorem Exclusive.home_of_holder (h : s.Exclusive D) (ho : s.server.stored = some o)
    (hh : o.value.holder = some (D.replica (D.home i)).holder) (hj : s.Potent D j) :
    D.home j = D.home i := by
  obtain ⟨o', ho', hheld⟩ := h.held j hj
  rw [ho] at ho'
  cases ho'
  rw [hheld.holder_eq] at hh
  exact D.holder_injective (Option.some.inj hh)

/-- A contender that finds the Lease of another replica expired has outwaited its deadlines. -/
theorem Exclusive.home_of_inactive (h : s.Exclusive D) (ho : s.server.stored = some o)
    (hnow : now ≤ s.clock D i)
    (ha : (Coordinator.isActive (s.observations (D.home i)) o now).1 = false) (hj : s.Potent D j) :
    D.home j = D.home i := by
  by_contra hne
  obtain ⟨o', ho', hheld⟩ := h.held j hj
  rw [ho] at ho'
  cases ho'
  obtain ⟨t₀, hobs, helapsed⟩ := hheld.elapsed ha
  obtain ⟨haw, hset⟩ := h.observed _ _ t₀ o hobs ho rfl j hne hj
  rcases hj.2 with haw' | ⟨d, hd, hlt⟩
  · exact haw haw'
  · have h₁ := hset d hd
    have h₂ := h.spans j d hd
    simp only [clock, Deadline.expiry] at hnow hlt
    omega

theorem acquire_sent (left : Nat) (h : s.Exclusive D) (hnow : now ≤ s.clock D i)
    (hsaw : ∀ o, got = some o → s.server.Saw o)
    (hr : (D.replica (D.home i)).acquireRound D.role (s.observations (D.home i)) now wall token
      got = (obs, .write w l)) : s.CallSound D i .acquire (.writing left w (.acquired l)) ∧
      l.validForMillis * 10 ^ 6 ≤ (D.replica (D.home i)).leaseDuration := by
  rcases Coordinator.acquireRound_write hr with
    ⟨-, rfl, rfl⟩ | ⟨o, e, hgot, -, -, hfree, rfl, rfl⟩
  · exact ⟨⟨⟨fun _ => heldBy_acquiredLease, by simp⟩, by simp⟩, Coordinator.leadership_validFor⟩
  · have ho := hsaw o hgot
    refine ⟨⟨⟨fun _ => heldBy_acquiredLease, ?_⟩, by simp⟩, Coordinator.leadership_validFor⟩
    rintro n v ⟨⟩
    refine ⟨ho.1, fun o' ho' hv j hj => ?_⟩
    obtain rfl := ho.2 o' ho' hv
    rcases hfree with hfree | hfree
    · exact h.home_of_inactive ho' hnow hfree hj
    · exact h.home_of_holder ho' hfree hj

/-- A renew or release that found itself the owner. -/
theorem keep_sent (h : s.Exclusive D) (hsaw : s.server.Saw o)
    (hh : o.value.holder = some (D.replica (D.home i)).holder)
    (hv : (∀ l, op ≠ .release l) → D.HeldBy (D.home i) v) :
    s.Sent D i op (.replace o.version v) := by
  refine ⟨hv, ?_⟩
  rintro n v ⟨⟩
  refine ⟨hsaw.1, fun o' ho' hv j hj => ?_⟩
  obtain rfl := hsaw.2 o' ho' hv
  exact h.home_of_holder ho' hh hj

theorem heldBy_renewed {r : Nat} {lease : Lease} (hh : lease.holder = some (D.replica r).holder)
    (hs : v.spec = some { lease.spec.getD .default with
      renewTime := some wall, leaseDurationSeconds := some (D.replica r).durationSeconds }) :
    D.HeldBy r v := by
  obtain ⟨spec, hspec, hholder⟩ := Option.bind_eq_some_iff.mp hh
  exact ⟨_, hs, by simpa [hspec] using hholder, rfl⟩

/-- The write of a round is sound, and so is the leadership it is to return. -/
theorem round_sent (left : Nat) (h : s.Exclusive D) (hnow : now ≤ s.clock D i)
    (hsaw : ∀ o, got = some o → s.server.Saw o)
    (hr : (D.replica (D.home i)).round D.role op (s.observations (D.home i)) now wall token got =
      (obs, .write w r)) : s.CallSound D i op (.writing left w r) ∧ ∀ l, r.leadership = some l →
      l.validForMillis * 10 ^ 6 ≤ (D.replica (D.home i)).leaseDuration := by
  cases op with
  | acquire =>
    obtain ⟨l, hl, rfl⟩ := Round.map_eq_write (Prod.ext_iff.1 hr).2
    obtain ⟨hs, hv⟩ := acquire_sent left h hnow hsaw (Prod.ext rfl hl)
    refine ⟨hs, ?_⟩
    rintro l' ⟨⟩
    exact hv
  | renew l =>
    obtain ⟨x, hx, rfl⟩ := Round.map_eq_write (Prod.ext_iff.1 hr).2
    obtain ⟨o, v, hgot, howns, rfl, -, hspec, rfl⟩ := Coordinator.renewRound_write hx
    have hh := (Coordinator.epoch_of_owns howns).1
    refine ⟨⟨keep_sent h (hsaw o hgot) hh fun _ => heldBy_renewed hh hspec, by simp⟩, ?_⟩
    rintro l' ⟨⟩
    exact Coordinator.leadership_validFor
  | release l =>
    obtain ⟨x, hx, rfl⟩ := Round.map_eq_write (Prod.ext_iff.1 hr).2
    obtain ⟨o, v, hgot, howns, rfl, -, -, rfl⟩ := Coordinator.releaseRound_write hx
    have hh := (Coordinator.epoch_of_owns howns).1
    exact ⟨⟨keep_sent h (hsaw o hgot) hh fun hne => absurd rfl (hne l), fun _ _ => rfl⟩,
      by simp [Returned.leadership]⟩

theorem fallback_not_awaiting (op : LeaseOp) : ¬ op.fallback.Awaiting := by
  cases op <;> exact id

theorem fallback_result (op : LeaseOp) : op.fallback.result = none := by
  cases op <;> rfl

/-- A call of a session that fails, or goes on, leaves a maintained session maintained. -/
theorem Exclusive.settled_of_calling (h : s.Exclusive D) (hp : s.phase i = .calling op call)
    (hm : ∀ l, op = .renew l → p.Maintained) (hn : ¬ p.Maintained) :
    s.valid i = false ∨ s.deadline i = none := by
  refine h.settled i ?_
  rw [hp]
  cases op with
  | renew l => exact fun _ => hn (hm l rfl)
  | _ => exact id

theorem decide_observation (h : s.Exclusive D)
    (hp : s.phase i = .calling op (.read left now wall token got))
    (hr : (D.replica (D.home i)).round D.role op (s.observations (D.home i)) now wall token got =
      (obs, round)) (hok : s.Punctual D (.decide i)) (v t₀ : Nat) (ho : obs = some (v, t₀)) :
    s.observations (D.home i) = some (v, t₀) ∨
      v < s.server.next ∧ ∀ o, s.server.stored = some o → o.version = v →
        s.SettledBy D (D.home i) t₀ := by
  rcases round_observation hr with hsame | ⟨o, rfl, rfl, hfirst, hnew⟩
  · exact .inl (hsame.trans ho)
  · obtain ⟨rfl, rfl⟩ : o.version = v ∧ now = t₀ := by
      simpa using hnew.trans ho
    have hsaw : s.server.Saw o := (h.calls i _ _ hp).2 o rfl
    refine .inr ⟨hsaw.1, fun o' ho' hv => ?_⟩
    obtain rfl := hsaw.2 o' ho' hv
    exact hok left now wall token o' hp ho' hfirst

theorem decide_exclusive (h : s.Exclusive D)
    (hp : s.phase i = .calling op (.read left now wall token got))
    (hr : (D.replica (D.home i)).round D.role op (s.observations (D.home i)) now wall token got =
      (obs, round)) (hok : s.Punctual D (.decide i)) :
    ((s.observe D i obs).setPhase i (round.ownerPhase op left)).Exclusive D := by
  obtain ⟨hnow, hsaw⟩ : now ≤ s.clock D i ∧ ∀ o, got = some o → s.server.Saw o := h.calls i _ _ hp
  refine h.moved (by simp [hp]) rfl rfl rfl (fun _ => id) (fun _ _ => rfl) (.inl rfl) ?_ ?_ ?_
    (fun _ _ _ hw => .inl hw) ?_ ?_ (h.spans i)
  · intro haw
    cases round with
    | fail e => exact absurd haw (fallback_not_awaiting op)
    | finish r =>
      obtain ⟨l, hl⟩ := Option.ne_none_iff_exists'.mp haw
      exact absurd (Returned.success_of_leadership hl) (not_success_of_round hr)
    | write w r => exact False.elim haw
  · intro r v t₀ ho
    by_cases hri : r = D.home i
    · subst hri
      exact decide_observation h hp hr hok v t₀ (by simpa using ho)
    · exact .inl (by simpa [hri] using ho)
  · intro op' call hc
    cases round with
    | fail e => cases op <;> simp [Round.ownerPhase, LeaseOp.fallback] at hc
    | finish r =>
      cases hc
      trivial
    | write w r =>
      cases hc
      exact (round_sent left h hnow hsaw hr).1
  · refine h.settled_of_calling hp ?_
    rintro l rfl
    cases round <;> trivial
  · intro r l hres hl
    cases round with
    | fail e => simp [Round.ownerPhase, fallback_result] at hres
    | finish r' =>
      cases hres
      exact absurd (Returned.success_of_leadership hl) (not_success_of_round hr)
    | write w r' =>
      cases hres
      exact (round_sent left h hnow hsaw hr).2 l hl

/-- Setting the deadline is what a session with its reply was awaited for. -/
theorem arm_exclusive (h : s.Exclusive D) (haw : (s.phase i).Awaiting)
    (hres : ∃ r, (s.phase i).result = some r ∧ r.leadership = some l) :
    ((s.arm D i l).setPhase i (.holding l)).Exclusive D := by
  obtain ⟨r, hr, hl⟩ := hres
  have hne : s.phase i ≠ .ended := fun he => by simp [he, Awaiting] at haw
  refine h.moved hne rfl rfl rfl (fun _ => id) ?_ (.inr haw) False.elim (fun _ _ _ => .inl)
    (by simp) (fun _ _ _ hw => .inl hw) (fun hm => absurd trivial hm)
    (by simp [OwnerPhase.result]) ?_
  · intro j hj
    simp [hj]
  · intro d hd
    have hd' : (⟨s.clock D i, l.validForMillis * 10 ^ 6⟩ : Deadline) = d := by simpa using hd
    rw [← hd']
    exact h.lasting i r l hr hl

/-- A session moves between phases without a deadline or a write in them. -/
theorem phase_exclusive (h : s.Exclusive D) (hne : s.phase i ≠ .ended)
    (haw : p.Awaiting → (s.phase i).Awaiting)
    (hcall : ∀ op call, p = .calling op call → s.CallSound D i op call)
    (hset : ¬ p.Maintained → s.valid i = false ∨ s.deadline i = none)
    (hlast : ∀ r l, p.result = some r → r.leadership = some l →
      l.validForMillis * 10 ^ 6 ≤ (D.replica (D.home i)).leaseDuration) :
    (s.setPhase i p).Exclusive D :=
  h.moved hne rfl rfl rfl (fun _ => id) (fun _ _ => rfl) (.inl rfl) haw (fun _ _ _ => .inl) hcall
    (fun _ _ _ hw => .inl hw) hset hlast (h.spans i)

/-- A call that is given up leaves its write to the server. -/
theorem abandon_exclusive (h : s.Exclusive D) (hp : s.phase i = .calling op call) :
    (({ s with orphans := call.pending.toList.map (i, op, ·) ++ s.orphans } : Fleet).setPhase i
      op.fallback).Exclusive D := by
  refine h.moved (by simp [hp]) rfl rfl rfl (fun _ => id) (fun _ _ => rfl) (.inl rfl)
    (fun haw => absurd haw (fallback_not_awaiting op)) (fun _ _ _ => .inl) ?_ ?_ ?_
    (by simp [fallback_result]) (h.spans i)
  · intro op' call' hc
    cases op <;> simp [LeaseOp.fallback] at hc
  · intro k op' w hw
    rcases List.mem_append.mp hw with hw | hw
    · obtain ⟨w', hw', heq⟩ := List.mem_map.mp hw
      cases heq
      refine .inr ⟨rfl, ?_, ?_⟩
      · cases call with
        | writing left v r =>
          obtain rfl : v = w := by simpa [CallPhase.pending, eq_comm] using hw'
          exact (h.calls i op _ hp).1
        | _ => simp [CallPhase.pending] at hw'
      · rintro l rfl
        rfl
    · exact .inl hw
  · refine h.settled_of_calling hp ?_
    rintro l rfl
    trivial

theorem valid_of_invalidate {k : Nat} (h : (s.invalidate k).valid j = true) : s.valid j = true := by
  by_cases hjk : j = k
  · simp [hjk] at h
  · simpa [hjk] using h

/-- Clearing a flag only takes sessions out. -/
theorem invalidate_exclusive (h : s.Exclusive D) (k : Nat) : (s.invalidate k).Exclusive D := by
  have q : Quiet D s (s.invalidate k) :=
    ⟨rfl, le_rfl, fun j hj => ⟨valid_of_invalidate hj.1, hj.2⟩, fun _ => id, fun _ => .inl rfl⟩
  refine h.quiet q (fun r v t₀ => .inl) (fun i op call => .inl) h.orphaned h.released ?_ h.lasting
    h.spans
  intro j hj
  refine (h.settled j hj).imp_left fun hv => ?_
  by_contra hv'
  simp [valid_of_invalidate (by simpa using hv')] at hv

/-- The session that is fenced before an acquire loses its flag. -/
theorem fence_exclusive (h : s.Exclusive D) (i : Nat) : (s.fence D i).Exclusive D := by
  cases hr : s.registry (D.home i) with
  | none => simpa [fence, hr] using h
  | some j => simpa [fence, hr, Fleet.invalidate] using invalidate_exclusive h j

/-- A write that lost its race is prepared anew, or given up. -/
theorem conflict_exclusive (hs : s.Exclusive D)
    (h : s.phase i = .calling op (.writing (left + 1) w r)) (wall : Int) (token : String) :
    (s.setPhase i (if left = 0 then op.fallback
      else .calling op (.reading left (s.clock D i) wall token))).Exclusive D := by
  refine phase_exclusive hs (by simp [h]) ?_ ?_ ?_ ?_
  · intro haw
    split at haw
    · exact absurd haw (fallback_not_awaiting op)
    · exact False.elim haw
  · intro op' call hc
    split at hc
    · cases op <;> simp [LeaseOp.fallback] at hc
    · cases hc
      exact le_rfl
  · refine hs.settled_of_calling h ?_
    rintro l rfl
    split <;> trivial
  · intro r' l hr'
    split at hr'
    · simp [fallback_result] at hr'
    · simp [OwnerPhase.result] at hr'

theorem tick_exclusive (h : s.Exclusive D) (delay : Nat) :
    ({ s with time := s.time + delay } : Fleet).Exclusive D := by
  have q : Quiet D s { s with time := s.time + delay } := by
    refine ⟨rfl, Nat.le_add_right _ _, ?_, fun _ => id, fun _ => .inl rfl⟩
    rintro j ⟨hv, hj⟩
    refine ⟨hv, hj.imp_right ?_⟩
    rintro ⟨d, hd, hlt⟩
    simp only [clock] at hlt ⊢
    exact ⟨d, hd, by omega⟩
  exact h.quiet q (fun r v t₀ => .inl) (fun i op call => .inl) h.orphaned h.released h.settled
    h.lasting h.spans

end Fleet

open Fleet

variable {D : Deployment} {t : Fleet}

theorem OwnerStep.exclusive {s : Fleet} {a : OwnerAction} (h : OwnerStep D s a t)
    (hs : s.Exclusive D) (hok : s.Punctual D a) : t.Exclusive D := by
  cases h with
  | tick delay => exact tick_exclusive hs delay
  | @start i _ h wall token =>
    have hf := fence_exclusive hs i
    refine phase_exclusive hf (by simp [h]) False.elim ?_ ?_ (by simp [OwnerPhase.result])
    · rintro op call ⟨⟩
      exact le_rfl
    · intro _
      exact hf.settled i (by simp [h, Maintained])
  | @get i op left now wall token _ h =>
    refine phase_exclusive hs (by simp [h]) False.elim ?_ ?_ (by simp [OwnerPhase.result])
    · rintro op call ⟨⟩
      exact ⟨hs.calls i _ _ h, fun o ho => Server.saw_of_get ho⟩
    · exact hs.settled_of_calling h fun l hl => by rw [hl]; trivial
  | decide h hr => exact decide_exclusive hs h hr hok
  | commit h ha => exact commit_exclusive hs h ha hok
  | conflict h ha wall token => exact conflict_exclusive hs h wall token
  | @replyAcquired i l _ h =>
    refine phase_exclusive hs (by simp [h]) (fun _ => by simp [h, Awaiting,
      Returned.leadership]) (by simp) (hs.settled_of_calling h (by simp)) ?_
    rintro r l' ⟨⟩ hl'
    exact hs.lasting i _ l' (by simp [h, OwnerPhase.result]) hl'
  | @replyRenewed i l l' _ h =>
    exact arm_exclusive hs (by simp [h, Awaiting, Returned.leadership])
      ⟨.renewal (.renewed l'), by simp [h, OwnerPhase.result], rfl⟩
  | @replyLost i l _ h =>
    exact phase_exclusive (invalidate_exclusive hs i) (by simp [h]) False.elim (by simp)
      (fun _ => .inl (by simp)) (by simp [OwnerPhase.result])
  | @replyReleased i l r _ h =>
    exact phase_exclusive hs (by simp [h]) False.elim (by simp)
      (hs.settled_of_calling h (by simp)) (by simp [OwnerPhase.result])
  | abandon h => exact abandon_exclusive hs h
  | late h ha => exact late_exclusive hs h ha hok
  | @register i l _ h =>
    refine hs.moved (by simp [h]) rfl rfl rfl (fun _ => id) (fun _ _ => rfl) (.inl rfl)
      (fun _ => by simp [h, Awaiting]) (fun _ _ _ => .inl) (by simp)
      (fun _ _ _ hw => .inl hw) (fun _ => hs.settled i (by simp [h, Maintained])) ?_
      (hs.spans i)
    intro r l' hr hl
    exact hs.lasting i r l' (by simpa [h, OwnerPhase.result] using hr) hl
  | @arm i l _ h =>
    exact arm_exclusive hs (by simp [h, Awaiting])
      ⟨.acquired l, by simp [h, OwnerPhase.result], rfl⟩
  | @giveUp i l _ h =>
    exact phase_exclusive hs (by simp [h]) False.elim (by simp)
      (fun _ => hs.settled i (by simp [h, Maintained])) (by simp [OwnerPhase.result])
  | @renew i l d _ h hd ht wall token =>
    refine phase_exclusive hs (by simp [h]) False.elim ?_ (fun hm => absurd trivial hm)
      (by simp [OwnerPhase.result])
    rintro op call ⟨⟩
    exact le_rfl
  | @revoke i l _ h =>
    exact phase_exclusive (invalidate_exclusive hs i) (by simp [h]) False.elim (by simp)
      (fun _ => .inl (by simp)) (by simp [OwnerPhase.result])
  | evict i => exact invalidate_exclusive hs i
  | @release i l _ h wall token =>
    refine phase_exclusive hs (by simp [h]) False.elim ?_
      (fun _ => hs.settled i (by simp [h, Maintained])) (by simp [OwnerPhase.result])
    rintro op call ⟨⟩
    exact le_rfl

/-- No call has started and no deadline is set; the Lease may be anybody's. -/
structure Fleet.Fresh (s : Fleet) : Prop where
  phase : ∀ i, s.phase i = .idle
  observations : ∀ r, s.observations r = none
  deadline : ∀ i, s.deadline i = none
  orphans : s.orphans = []

theorem Fleet.Fresh.exclusive {s : Fleet} (h : s.Fresh) : s.Exclusive D := by
  have hpotent : ∀ i, ¬ s.Potent D i := by
    rintro i ⟨-, hi⟩
    simp [h.phase, h.deadline, Awaiting] at hi
  exact
    { held := fun i hi => absurd hi (hpotent i)
      observed := by simp [h.observations]
      bounded := by simp [h.observations]
      calls := by simp [h.phase]
      orphaned := by simp [h.orphans]
      released := by simp [h.orphans]
      settled := fun i _ => .inr (h.deadline i)
      lasting := by simp [h.phase, OwnerPhase.result]
      spans := by simp [h.deadline] }

theorem exclusive_run {s : Fleet} {xs : List OwnerAction}
    (h : Run (Guarded (OwnerStep D) fun s a => s.Punctual D a) s xs t) (hs : s.Exclusive D) :
    t.Exclusive D :=
  h.invariant (fun _ _ _ hs hst => hst.1.exclusive hs hst.2) hs

variable {i : Nat}

theorem Fleet.valid_of_fence {s : Fleet} {j : Nat} (h : (s.fence D i).valid j = true) :
    s.valid j = true := by
  cases hr : s.registry (D.home i) with
  | none => simpa [hr] using h
  | some k =>
    refine valid_of_invalidate (k := k) ?_
    simpa [hr] using h

/-- Session 0 runs on replica 0 and the others on replica 1, both with Leases of five seconds. -/
def twoCenters : Deployment where
  replica r := ⟨String.ofList (List.replicate (r + 1) 'c'), 5 * 10 ^ 9⟩
  home i := if i = 0 then 0 else 1
  offset _ := 0
  role := .controllerOwner "edge-1"
  seconds _ := 5
  holder_injective := by
    intro r r' h
    have hl := congrArg List.length (String.ofList_injective h)
    simpa using hl
  holder_nonempty := by
    intro r h
    have hl := congrArg String.toList h
    simp at hl
  whole _ := rfl
  long _ := by decide

def freshFleet : Fleet where
  time := 0
  server := .empty
  observations _ := none
  registry _ := none
  phase _ := .idle
  valid _ := true
  deadline _ := none
  orphans := []

theorem freshFleet_fresh : freshFleet.Fresh := ⟨fun _ => rfl, fun _ => rfl, fun _ => rfl, rfl⟩

theorem OwnerStep.decided {s : Fleet} {op : LeaseOp} {left now : Nat} {wall : Int} {token : String}
    {got : Option (Object Lease)} (h : s.phase i = .calling op (.read left now wall token got)) :
    OwnerStep D s (.decide i)
      ((s.observe D i ((D.replica (D.home i)).round D.role op (s.observations (D.home i)) now wall
        token got).1).setPhase i (((D.replica (D.home i)).round D.role op
          (s.observations (D.home i)) now wall token got).2.ownerPhase op left)) :=
  .decide h rfl

/-- The owner's deadline is set when the contender first looks at the Lease; five seconds later the
contender takes over. -/
theorem takeover_run : ∃ xs t, t.Live twoCenters 2 ∧
    Run (Guarded (OwnerStep twoCenters) fun s a => s.Punctual twoCenters a) freshFleet xs t := by
  refine ⟨[.start 0, .get 0, .decide 0, .commit 0, .reply 0, .register 0, .arm 0, .start 1, .get 1,
    .decide 1, .tick (5 * 10 ^ 9), .start 2, .get 2, .decide 2, .commit 2, .reply 2, .register 2,
    .arm 2], _, ?_, .step ⟨.start rfl 0 "t0", trivial⟩ <| .step ⟨.get rfl, trivial⟩ <|
    .step ⟨.decided rfl, ?_⟩ <| .step ⟨.commit rfl rfl, ?_⟩ <|
    .step ⟨.replyAcquired rfl, trivial⟩ <| .step ⟨.register rfl, trivial⟩ <|
    .step ⟨.arm rfl, trivial⟩ <| .step ⟨.start rfl 0 "t1", trivial⟩ <|
    .step ⟨.get rfl, trivial⟩ <| .step ⟨.decided rfl, ?_⟩ <| .step ⟨.tick _, trivial⟩ <|
    .step ⟨.start rfl 0 "t2", trivial⟩ <| .step ⟨.get rfl, trivial⟩ <|
    .step ⟨.decided rfl, ?_⟩ <| .step ⟨.commit rfl (by exact ⟨_, rfl, rfl⟩), ?_⟩ <|
    .step ⟨.replyAcquired rfl, trivial⟩ <| .step ⟨.register rfl, trivial⟩ <|
    .step ⟨.arm rfl, trivial⟩ <| .refl _⟩
  · exact ⟨rfl, rfl, _, rfl, by decide⟩
  · rintro _ _ _ _ o ⟨⟩
  · rintro l _ _ _ ⟨⟩
  · rintro _ _ _ _ o ⟨⟩ _ _ j hj _
    -- only session 0 runs on the other replica, and it holds its deadline since time 0
    obtain rfl : j = 0 := by
      by_contra hne
      simp [twoCenters, hne] at hj
    exact ⟨id, by rintro d ⟨⟩; exact le_rfl⟩
  · rintro _ _ _ _ o ⟨⟩ _ hfirst
    exact absurd rfl (hfirst 0)
  · rintro l _ _ _ ⟨⟩

/-- Punctual contenders and releases keep every two live sessions on one replica. -/
theorem atMostOneOwner_of_punctual_run {D : Deployment} {s t : Fleet} {xs : List OwnerAction}
    (hs : s.Fresh) (h : Run (Guarded (OwnerStep D) fun s a => s.Punctual D a) s xs t) :
    t.AtMostOneOwner D :=
  (exclusive_run h hs.exclusive).atMostOneOwner

theorem atMostOneOwner_of_punctual_run_takeover :
    ∃ t : Fleet, t.Live twoCenters 2 ∧ t.AtMostOneOwner twoCenters := by
  obtain ⟨_, t, hlive, h⟩ := takeover_run
  exact ⟨t, hlive, atMostOneOwner_of_punctual_run freshFleet_fresh h⟩

/-- The contender looks at the Lease while the owner's reply is on its way, and takes it over five
seconds later; the owner set its deadline in between. -/
theorem early_observation_two_owners : ∃ xs t, freshFleet.Fresh ∧
    Run (OwnerStep twoCenters) freshFleet xs t ∧ ¬ t.AtMostOneOwner twoCenters := by
  refine ⟨[.start 0, .get 0, .decide 0, .commit 0, .start 1, .get 1, .decide 1, .reply 0,
    .register 0, .tick (3 * 10 ^ 9), .arm 0, .tick (2 * 10 ^ 9), .start 2, .get 2, .decide 2,
    .commit 2, .reply 2, .register 2, .arm 2], _, freshFleet_fresh,
    .step (.start rfl 0 "t0") <| .step (.get rfl) <| .step (.decided rfl) <|
    .step (.commit rfl rfl) <| .step (.start rfl 0 "t1") <| .step (.get rfl) <|
    .step (.decided rfl) <| .step (.replyAcquired rfl) <| .step (.register rfl) <|
    .step (.tick _) <| .step (.arm rfl) <| .step (.tick _) <| .step (.start rfl 0 "t2") <|
    .step (.get rfl) <| .step (.decided rfl) <| .step (.commit rfl (by exact ⟨_, rfl, rfl⟩)) <|
    .step (.replyAcquired rfl) <| .step (.register rfl) <| .step (.arm rfl) <| .refl _, ?_⟩
  intro h
  exact absurd (h 0 2 ⟨rfl, rfl, _, rfl, by decide⟩ ⟨rfl, rfl, _, rfl, by decide⟩) (by decide)

end EdgionCenter
