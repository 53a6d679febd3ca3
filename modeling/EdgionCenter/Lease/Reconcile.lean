import EdgionCenter.Lease.Displacement

/-! Reconciling an expired owner displaces no live one, in every run whose steps are considerate. -/
namespace EdgionCenter

open Versioned Transition

namespace Sweeps

variable {D : Installation} {s t : Sweeps} {i j : Nat} {acquirer : Nat → Option Nat} {op : LeaseOp}
  {o : Object Lease} {left now : Nat} {wall : Int} {token : String} {got : Option (Object Lease)}
  {obs : Option LeaseObservation}

section Decide

theorem Spared.home_of_holder (h : s.Spared D acquirer) (ho : s.fleet.server.stored = some o)
    (hh : o.value.holder = some (D.replica (D.home i)).holder) (hj : s.Recent D j) :
    D.home j = D.home i := by
  obtain ⟨o', ho', hheld⟩ := h.held j hj
  rw [ho] at ho'
  cases ho'
  rw [hheld.holder_eq] at hh
  exact D.holder_injective (Option.some.inj hh)

/-- A Lease whose version has been watched for its duration was not renewed within it. -/
theorem Spared.none_of_inactive (h : s.Spared D acquirer) (ho : s.fleet.server.stored = some o)
    (hnow : now ≤ s.fleet.clock D.toDeployment i)
    (ha : (Coordinator.isActive (s.fleet.observations (D.home i)) o now).1 = false) :
    ¬ s.Recent D j := by
  intro hj
  obtain ⟨o', ho', hheld⟩ := h.held j hj
  rw [ho] at ho'
  cases ho'
  obtain ⟨t₀, hobs, helapsed⟩ := hheld.elapsed ha
  have hwatched := h.observed _ _ t₀ o hobs ho rfl
  obtain ⟨_, u, hu, hlt⟩ := hj
  have hsince := h.since j u hu
  simp only [Fleet.clock] at hnow
  omega

theorem decide_observation {round : Round Returned} (h : s.Spared D acquirer)
    (hp : s.fleet.phase i = .calling op (.read left now wall token got))
    (hr : (D.replica (D.home i)).round D.role op (s.fleet.observations (D.home i)) now wall token
      got = (obs, round)) (hok : s.Considerate D (.owner (.decide i))) (v t₀ : Nat)
    (ho : obs = some (v, t₀)) :
    s.fleet.observations (D.home i) = some (v, t₀) ∨ v < s.fleet.server.next ∧
      ∀ o, s.fleet.server.stored = some o → o.version = v →
        s.writtenAt + D.offset (D.home i) ≤ t₀ := by
  rcases round_observation hr with hsame | ⟨o, rfl, rfl, hfirst, hnew⟩
  · exact .inl (hsame.trans ho)
  · obtain ⟨rfl, rfl⟩ : o.version = v ∧ now = t₀ := by
      simpa using hnew.trans ho
    have hsaw : s.fleet.server.Saw o := (h.calls i _ _ hp).2 o rfl
    refine .inr ⟨hsaw.1, fun o' ho' hv => ?_⟩
    obtain rfl := hsaw.2 o' ho' hv
    exact (hok left now wall token o' hp ho').1 hfirst

variable {w : Write Lease}

/-- What an acquire has read tells who can be in force when its write is taken. -/
theorem acquire_own {l : Leadership} (h : s.Spared D acquirer)
    (hp : s.fleet.phase i = .calling .acquire (.read left now wall token got))
    (hr : (D.replica (D.home i)).acquireRound D.role (s.fleet.observations (D.home i)) now wall
      token got = (obs, .write w l)) (hok : s.Considerate D (.owner (.decide i))) :
    D.HeldBy (D.home i) w.value ∧ ∀ n v, w = .replace n v → n < s.fleet.server.next ∧
      ∀ o, s.fleet.server.stored = some o → o.version = n → ∀ j, s.Recent D j →
        D.home j = D.home i ∧ D.sweeps i = false := by
  obtain ⟨hnow, hsaw⟩ := h.calls i _ _ hp
  rcases Coordinator.acquireRound_write hr with
    ⟨_, rfl, rfl⟩ | ⟨o, e, hgot, _, _, hfree, rfl, rfl⟩
  · exact ⟨Fleet.heldBy_acquiredLease, by simp⟩
  · have ho := hsaw o hgot
    refine ⟨Fleet.heldBy_acquiredLease, ?_⟩
    rintro n v ⟨⟩
    refine ⟨ho.1, fun o' ho' hv j hj => ?_⟩
    obtain rfl := ho.2 o' ho' hv
    rcases hfree with hinactive | hself
    · exact absurd hj (h.none_of_inactive ho' hnow hinactive)
    · refine ⟨h.home_of_holder ho' hself hj, ?_⟩
      by_contra hsweep
      have hinactive := (hok left now wall token o' (by rw [hp, hgot]) ho').2 (by simpa using hsweep)
        hself
      exact h.none_of_inactive ho' hnow hinactive hj

/-- A renew or release that found itself the owner. -/
theorem keep_own {v : Lease} (h : s.Spared D acquirer) (hsaw : s.fleet.server.Saw o)
    (hh : o.value.holder = some (D.replica (D.home i)).holder) (hop : op ≠ .acquire) :
    ∀ n v', Write.replace o.version v = .replace n v' → n < s.fleet.server.next ∧
      ∀ o, s.fleet.server.stored = some o → o.version = n → ∀ j, s.Recent D j →
        D.home j = D.home i ∧ (op = .acquire → D.sweeps i = false) := by
  rintro n v' ⟨⟩
  refine ⟨hsaw.1, fun o' ho' hv j hj => ⟨?_, fun h => absurd h hop⟩⟩
  obtain rfl := hsaw.2 o' ho' hv
  exact h.home_of_holder ho' hh hj

/-- The write of a round is sound. -/
theorem round_sound {r : Returned} (h : s.Spared D acquirer)
    (hp : s.fleet.phase i = .calling op (.read left now wall token got))
    (hr : (D.replica (D.home i)).round D.role op (s.fleet.observations (D.home i)) now wall token
      got = (obs, .write w r)) (hok : s.Considerate D (.owner (.decide i))) :
    s.CallSound D i op (.writing left w r) := by
  obtain ⟨hnow, hsaw⟩ : now ≤ s.fleet.clock D.toDeployment i ∧
    ∀ o, got = some o → s.fleet.server.Saw o := h.calls i _ _ hp
  have hprepared : Prepared s.fleet.server op w r := prepared_of_round hsaw hr
  cases op with
  | acquire =>
    obtain ⟨l, hl, rfl⟩ := Round.map_eq_write (Prod.ext_iff.1 hr).2
    obtain ⟨hheld, hown⟩ := acquire_own h hp (Prod.ext rfl hl) hok
    refine ⟨⟨fun _ => hheld, ⟨_, hprepared⟩, ?_⟩, hprepared, by simp⟩
    intro n v hw
    obtain ⟨hlt, hsole⟩ := hown n v hw
    exact ⟨hlt, fun o ho hv j hj => ⟨(hsole o ho hv j hj).1, fun _ => (hsole o ho hv j hj).2⟩⟩
  | renew l =>
    obtain ⟨x, hx, rfl⟩ := Round.map_eq_write (Prod.ext_iff.1 hr).2
    obtain ⟨o, v, hgot, howns, rfl, _, hspec, rfl⟩ := Coordinator.renewRound_write hx
    have hh := (Coordinator.epoch_of_owns howns).1
    refine ⟨⟨fun _ => Fleet.heldBy_renewed hh hspec, ⟨_, hprepared⟩,
      keep_own h (hsaw o hgot) hh (by simp)⟩, hprepared, ?_⟩
    rintro l₁ l₂ ⟨⟩ ⟨⟩
    rfl
  | release l =>
    obtain ⟨x, hx, rfl⟩ := Round.map_eq_write (Prod.ext_iff.1 hr).2
    obtain ⟨o, v, hgot, howns, rfl, _, _, rfl⟩ := Coordinator.releaseRound_write hx
    have hh := (Coordinator.epoch_of_owns howns).1
    exact ⟨⟨fun hprolongs => (by cases hprolongs), ⟨_, hprepared⟩,
      keep_own h (hsaw o hgot) hh (by simp)⟩, hprepared, by simp⟩

end Decide

section Steps

variable {fleet : Fleet} {p : OwnerPhase} {call : CallPhase} {w : Write Lease} {r : Returned}

theorem still_of_fleet (hserver : fleet.server = s.fleet.server) (htime : s.fleet.time ≤ fleet.time)
    (hvalid : ∀ j, fleet.valid j = true → s.fleet.valid j = true) :
    Still s { s with fleet := fleet } :=
  ⟨hserver, htime, rfl, rfl, hvalid⟩

/-- A call goes on without a write, and the other calls stay as they are. -/
theorem Spared.advance (h : s.Spared D acquirer) (hserver : fleet.server = s.fleet.server)
    (htime : fleet.time = s.fleet.time)
    (hvalid : ∀ j, fleet.valid j = true → s.fleet.valid j = true)
    (hobs : fleet.observations = s.fleet.observations) (horph : fleet.orphans = s.fleet.orphans)
    (hph : fleet.phase = Function.update s.fleet.phase i p)
    (hcall : ∀ op call, p = .calling op call → s.CallSound D i op call)
    (hcarries : ∀ e, p.Carries e → (s.fleet.phase i).Carries e) :
    ({ s with fleet := fleet } : Sweeps).Spared D acquirer := by
  refine h.moved (still_of_fleet hserver htime.ge hvalid) hph ?_ hcall ?_ hcarries
  · intro r v t₀ ho
    rw [← hobs]
    exact .inl ho
  · intro k op w hw
    rw [← horph]
    exact .inl hw

variable {e : Nat} {a : OwnerAction}

theorem carries_fallback (he : op.fallback.Carries e) (hp : s.fleet.phase i = .calling op call) :
    (s.fleet.phase i).Carries e := by
  rw [hp]
  cases op with
  | acquire => exact False.elim he
  | renew l => exact .inl ⟨l, rfl, he⟩
  | release l => exact False.elim he

/-- A call that is not answered yet carries what its operation does. -/
theorem carries_calling {call' : CallPhase} (hcall : ∀ r, call' ≠ .replied r)
    (he : (OwnerPhase.calling op call').Carries e) (hp : s.fleet.phase i = .calling op call) :
    (s.fleet.phase i).Carries e := by
  rw [hp]
  rcases he with he | ⟨r, _, heq, _⟩
  · exact .inl he
  · exact absurd heq (hcall r)

theorem decide_spared {round : Round Returned} (h : s.Spared D acquirer)
    (hp : s.fleet.phase i = .calling op (.read left now wall token got))
    (hr : (D.replica (D.home i)).round D.role op (s.fleet.observations (D.home i)) now wall token
      got = (obs, round)) (hok : s.Considerate D (.owner (.decide i))) : ({ s with
      fleet := (s.fleet.observe D.toDeployment i obs).setPhase i
        (round.ownerPhase op left) } : Sweeps).Spared D acquirer := by
  refine h.moved (still_of_fleet rfl le_rfl fun _ => id) rfl ?_ ?_ (fun _ _ _ => .inl) ?_
  · intro r v t₀ ho
    by_cases hri : r = D.home i
    · subst hri
      exact decide_observation h hp hr hok v t₀ (by simpa using ho)
    · exact .inl (by simpa [hri] using ho)
  · intro op' call hc
    cases round with
    | fail e => cases op <;> simp [Round.ownerPhase, LeaseOp.fallback] at hc
    | finish r =>
      cases hc
      trivial
    | write w r =>
      cases hc
      exact round_sound h hp hr hok
  · intro e he
    cases round with
    | fail e => exact carries_fallback he hp
    | finish r =>
      rw [hp]
      rcases he with he | ⟨r', l, heq, hl, _⟩
      · exact .inl he
      · cases heq
        exact absurd (Returned.success_of_leadership hl) (not_success_of_round hr)
    | write w r => exact carries_calling (by simp) he hp

/-- A call that is given up leaves its write to the server. -/
theorem abandon_spared (h : s.Spared D acquirer) (hp : s.fleet.phase i = .calling op call) :
    ({ s with
      fleet := ({ s.fleet with
        orphans := call.pending.toList.map (i, op, ·) ++ s.fleet.orphans } : Fleet).setPhase i
          op.fallback } : Sweeps).Spared D acquirer := by
  refine h.moved (still_of_fleet rfl le_rfl fun _ => id) rfl (fun _ _ _ => .inl) ?_ ?_
    fun e he => carries_fallback he hp
  · intro op' call' hc
    cases op <;> simp [LeaseOp.fallback] at hc
  · intro k op' w hw
    rcases List.mem_append.mp hw with hw | hw
    · obtain ⟨w', hw', heq⟩ := List.mem_map.mp hw
      cases heq
      cases call with
      | writing left v r =>
        obtain rfl : v = w := by simpa [CallPhase.pending, eq_comm] using hw'
        exact .inr ⟨rfl, left, r, hp⟩
      | reading | read | replied => simp [CallPhase.pending] at hw'
    · exact .inl hw

theorem took_fleet : (s.took D a fleet).fleet = fleet := by
  unfold took
  split <;> rfl

/-- The server takes a write, and no call but `i` moves. -/
theorem takes_of_put {p : Nat → OwnerPhase} (ha : a.written s.fleet = some (i, op))
    (haccepts : s.fleet.server.Accepts w) :
    Takes D s (s.took D a { s.fleet.put w.value with phase := p }) i op w where
  accepts := haccepts
  server := by simp [took_fleet]
  time := by simp [took_fleet]
  observations := by rw [took_fleet]; rfl
  orphans := by rw [took_fleet]; rfl
  valid := by rw [took_fleet]; rfl
  writtenAt := by simp [took, ha]
  renewedAt := by simp [took, ha]

/-- The epoch of a reply is the one just given, or that of the leadership renewed. -/
theorem holds_replied {l : Leadership} {before after : Nat} (hmoves : op.Moves r before after)
    (hrenewed : ∀ l l', op = .renew l → r.leadership = some l' → l'.fencingEpoch = l.fencingEpoch)
    (hcarried : ∀ l, op.Carries l → s.Holds i l.fencingEpoch) (hl : r.leadership = some l) :
    s.Holds i l.fencingEpoch ∨ i = i ∧ op = .acquire ∧ l.fencingEpoch = after := by
  cases op with
  | acquire =>
    obtain ⟨_, l', rfl, hepoch⟩ := hmoves
    cases hl
    exact .inr ⟨rfl, rfl, hepoch⟩
  | renew l₀ =>
    rw [hrenewed l₀ l rfl hl]
    exact .inl (hcarried l₀ rfl)
  | release l₀ =>
    obtain ⟨_, _, rfl⟩ := hmoves
    cases hl

theorem commit_spared (h : s.Spared D acquirer)
    (hp : s.fleet.phase i = .calling op (.writing left w r)) (ha : s.fleet.server.Accepts w)
    (hok : s.Considerate D (.owner (.commit i))) :
    ∃ acquirer', (s.took D (.commit i) ((s.fleet.put w.value).setPhase i
      (.calling op (.replied r)))).Spared D acquirer' := by
  obtain ⟨hsent, hprepared, hrenewed⟩ := h.calls i _ _ hp
  have hwritten : (OwnerAction.commit i).written s.fleet = some (i, op) := by
    simp [OwnerAction.written, hp]
  have q := takes_of_put (D := D) (p := Function.update s.fleet.phase i (.calling op (.replied r)))
    hwritten ha
  have hcarried : ∀ l, op.Carries l → s.Holds i l.fencingEpoch := by
    intro l hl
    exact .inl (by rw [hp]; exact .inl ⟨l, hl, rfl⟩)
  refine ⟨_, h.written q hsent ?_ hcarried ?_ ?_⟩
  · rintro l rfl
    exact hok i l hwritten
  · intro j op' call hc
    rw [took_fleet] at hc
    by_cases hji : j = i
    · subst hji
      refine .inr ⟨r, ?_⟩
      simp at hc
      exact hc.2.symm
    · exact .inl (by simpa [hji] using hc)
  · intro j e he
    have hmoves := hprepared.moves ha
    rw [← q.server] at hmoves
    rcases he with he | he
    · rw [took_fleet] at he
      by_cases hji : j = i
      · subst hji
        simp only [Fleet.setPhase_phase, Function.update_self] at he
        rcases he with ⟨l, hl, rfl⟩ | ⟨r', l, heq, hl, rfl⟩
        · exact .inl (hcarried l hl)
        · cases heq
          exact holds_replied hmoves hrenewed hcarried hl
      · exact .inl (.inl (by simpa [hji] using he))
    · rw [took_fleet] at he
      exact .inl (.inr he)

theorem late_spared (h : s.Spared D acquirer) (hw : (i, op, w) ∈ s.fleet.orphans)
    (ha : s.fleet.server.Accepts w) (hok : s.Considerate D (.owner (.late i op))) :
    ∃ acquirer', (s.took D (.late i op) (s.fleet.put w.value)).Spared D acquirer' := by
  have hsent := h.orphaned i op w hw
  have q : Takes D s (s.took D (.late i op) (s.fleet.put w.value)) i op w :=
    takes_of_put (p := s.fleet.phase) rfl ha
  refine ⟨_, h.written q hsent ?_ ?_ ?_ ?_⟩
  · rintro l rfl
    exact hok i l rfl
  · exact fun l hl => .inr ⟨op, w, l, hw, hl, rfl⟩
  · intro j op' call hc
    rw [took_fleet] at hc
    exact .inl hc
  · intro j e he
    rw [Holds, took_fleet] at he
    exact .inl he

theorem tick_spared (h : s.Spared D acquirer) (delay : Nat) : ({ s with
      fleet := { s.fleet with time := s.fleet.time + delay } } : Sweeps).Spared D acquirer :=
  h.still (still_of_fleet rfl (Nat.le_add_right _ _) fun _ => id) (fun _ _ _ => .inl)
    (fun _ _ _ => .inl) h.orphaned fun _ _ => id

theorem evict_spared (h : s.Spared D acquirer) (k : Nat) :
    ({ s with fleet := s.fleet.invalidate k } : Sweeps).Spared D acquirer :=
  h.still (still_of_fleet rfl le_rfl fun _ => Fleet.valid_of_invalidate) (fun _ _ _ => .inl)
    (fun _ _ _ => .inl) h.orphaned fun _ _ => id

end Steps

/-- Every step of the replicas keeps the invariant. -/
theorem owner_spared {a : OwnerAction} {fleet : Fleet} (h : s.Spared D acquirer)
    (hstep : OwnerStep D.toDeployment s.fleet a fleet) (hok : s.Considerate D (.owner a)) :
    ∃ acquirer', (s.took D a fleet).Spared D acquirer' := by
  cases hstep with
  | commit hp ha => exact commit_spared h hp ha hok
  | late hw ha => exact late_spared h hw ha hok
  | tick delay => exact ⟨acquirer, tick_spared h delay⟩
  | @start i _ hp wall token =>
    refine ⟨acquirer, h.advance rfl rfl (fun _ => Fleet.valid_of_fence) rfl rfl rfl ?_ ?_⟩
    · rintro op call ⟨⟩
      exact le_rfl
    · rintro e (⟨l, hl, _⟩ | ⟨r, _, heq, _⟩)
      · exact False.elim hl
      · cases heq
  | @get i op left now wall token _ hp =>
    refine ⟨acquirer, h.advance rfl rfl (fun _ => id) rfl rfl rfl ?_ ?_⟩
    · rintro op call ⟨⟩
      exact ⟨h.calls i _ _ hp, fun o ho => Server.saw_of_get ho⟩
    · exact fun e he => carries_calling (by simp) he hp
  | decide hp hr => exact ⟨acquirer, decide_spared h hp hr hok⟩
  | @conflict i op left w r _ hp ha wall token =>
    refine ⟨acquirer, h.advance rfl rfl (fun _ => id) rfl rfl rfl ?_ ?_⟩
    · intro op' call hc
      split at hc
      · cases op <;> simp [LeaseOp.fallback] at hc
      · cases hc
        exact le_rfl
    · intro e he
      split at he
      · exact carries_fallback he hp
      · exact carries_calling (by simp) he hp
  | @replyAcquired i l _ hp =>
    refine ⟨acquirer, h.advance rfl rfl (fun _ => id) rfl rfl rfl (by simp) ?_⟩
    rintro e rfl
    rw [hp]
    exact .inr ⟨_, l, rfl, rfl, rfl⟩
  | @replyRenewed i l l' _ hp =>
    refine ⟨acquirer, h.advance rfl rfl (fun _ => id) rfl rfl rfl (by simp) ?_⟩
    rintro e rfl
    rw [hp]
    exact .inr ⟨_, l', rfl, rfl, rfl⟩
  | @replyLost i l _ hp =>
    refine ⟨acquirer, h.advance rfl rfl (fun _ => Fleet.valid_of_invalidate) rfl rfl rfl (by simp) ?_⟩
    rintro e rfl
    rw [hp]
    exact .inl ⟨l, rfl, rfl⟩
  | @replyReleased i l r _ hp =>
    exact ⟨acquirer, h.advance rfl rfl (fun _ => id) rfl rfl rfl (by simp) fun _ => False.elim⟩
  | abandon hp => exact ⟨acquirer, abandon_spared h hp⟩
  | @register i l _ hp =>
    refine ⟨acquirer, h.advance rfl rfl (fun _ => id) rfl rfl rfl (by simp) ?_⟩
    rintro e rfl
    rw [hp]
    rfl
  | @arm i l _ hp =>
    refine ⟨acquirer, h.advance rfl rfl (fun _ => id) rfl rfl rfl (by simp) ?_⟩
    rintro e rfl
    rw [hp]
    rfl
  | @giveUp i l _ hp =>
    refine ⟨acquirer, h.advance rfl rfl (fun _ => id) rfl rfl rfl (by simp) ?_⟩
    rintro e rfl
    rw [hp]
    rfl
  | @renew i l d _ hp hd ht wall token =>
    refine ⟨acquirer, h.advance rfl rfl (fun _ => id) rfl rfl rfl ?_ ?_⟩
    · rintro op call ⟨⟩
      exact le_rfl
    · rintro e (⟨_, rfl, rfl⟩ | ⟨r, _, heq, _⟩)
      · rw [hp]
        rfl
      · cases heq
  | @revoke i l _ hp =>
    refine ⟨acquirer, h.advance rfl rfl (fun _ => Fleet.valid_of_invalidate) rfl rfl rfl (by simp) ?_⟩
    rintro e rfl
    rw [hp]
    rfl
  | evict i => exact ⟨acquirer, evict_spared h i⟩
  | @release i l _ hp wall token =>
    refine ⟨acquirer, h.advance rfl rfl (fun _ => id) rfl rfl rfl ?_ ?_⟩
    · rintro op call ⟨⟩
      exact le_rfl
    · rintro e (⟨_, rfl, rfl⟩ | ⟨r, _, heq, _⟩)
      · rw [hp]
        rfl
      · cases heq

/-- The invariant is about the replicas and the two times. -/
theorem Spared.congr (h : s.Spared D acquirer) (hfleet : t.fleet = s.fleet)
    (hwritten : t.writtenAt = s.writtenAt) (hrenewed : t.renewedAt = s.renewedAt) :
    t.Spared D acquirer := by
  have q : Still s t := ⟨by rw [hfleet], by rw [hfleet], hwritten, hrenewed, by rw [hfleet]; simp⟩
  refine h.still q ?_ ?_ ?_ ?_
  · rw [hfleet]
    exact fun _ _ _ => .inl
  · rw [hfleet]
    exact fun _ _ _ => .inl
  · rw [hfleet]
    exact h.orphaned
  · intro i e
    rw [Holds, Holds, hfleet]
    exact id

/-- Only sweeps are under way. -/
def Staged (D : Installation) (s : Sweeps) : Prop := ∀ k, s.stage k ≠ .idle → D.sweeps k = true

theorem Staged.setStage {k : Nat} {stage : SweepStage} (h : s.Staged D) (hk : D.sweeps k = true) :
    (s.setStage k stage).Staged D := by
  intro j hj
  by_cases hjk : j = k
  · subst hjk
    exact hk
  · exact h j (by simpa [Sweeps.setStage, hjk] using hj)

end Sweeps

open Sweeps

section Runs

variable {D : Installation} {s t u : Sweeps} {a : SweepAction} {acquirer : Nat → Option Nat}
  {xs : List SweepAction}

theorem SweepStep.staged (hstep : SweepStep D s a t) (h : s.Staged D) : t.Staged D := by
  have hsweep : ∀ {k stage}, s.stage k = stage → stage ≠ .idle → D.sweeps k = true := by
    rintro k stage rfl hne
    exact h k hne
  cases hstep with
  | @owner a fleet _ _ =>
    intro k hk
    refine h k ?_
    unfold Sweeps.took at hk
    split at hk <;> exact hk
  | directory op answers => exact h
  | list hk => exact h.setStage hk
  | look hstage | locate pods hstage | reconcile wall token hstage
  | project observedAt answers hstage => exact h.setStage (hsweep hstage (by simp))

theorem SweepStep.spared (hstep : SweepStep D s a t) (h : s.Spared D acquirer)
    (hok : s.Considerate D a) : ∃ acquirer', t.Spared D acquirer' := by
  cases hstep with
  | owner hstep => exact owner_spared h hstep hok
  | directory op answers | list | look | locate => exact ⟨acquirer, h.congr rfl rfl rfl⟩
  | @reconcile k record session _ wall token hstage hsession hp =>
    have hcalled : ({ s with
        fleet := s.fleet.setPhase k (.calling .acquire
          (.reading maxConflictRetries (s.fleet.clock D.toDeployment k) wall token)) } :
        Sweeps).Spared D acquirer := by
      refine h.advance rfl rfl (fun _ => id) rfl rfl rfl ?_ ?_
      · rintro op call ⟨⟩
        exact le_rfl
      · rintro e (⟨l, hl, _⟩ | ⟨r, _, heq, _⟩)
        · exact False.elim hl
        · cases heq
    exact ⟨acquirer, hcalled.congr rfl rfl rfl⟩
  | @project k session l _ observedAt answers hstage hp =>
    have hleaving : ({ s with fleet := s.fleet.setPhase k (.leaving l) } : Sweeps).Spared D
        acquirer := by
      refine h.advance rfl rfl (fun _ => id) rfl rfl rfl (by simp) ?_
      rintro e rfl
      rw [hp]
      rfl
    exact ⟨acquirer, hleaving.congr rfl rfl rfl⟩

/-- No call has started, and the Lease may be anybody's. -/
structure Sweeps.Fresh (s : Sweeps) : Prop where
  fleet : s.fleet.Fresh
  stage : ∀ k, s.stage k = .idle
  renewedAt : ∀ i, s.renewedAt i = none
  writtenAt : s.writtenAt ≤ s.fleet.time

theorem Sweeps.Fresh.spared (h : s.Fresh) : s.Spared D fun _ => none := by
  have hnone : ∀ i, ¬ s.Recent D i := by
    rintro i ⟨_, t, ht, _⟩
    simp [h.renewedAt] at ht
  have hholds : ∀ i e, ¬ s.Holds i e := by
    rintro i e (he | ⟨op, w, l, hw, _⟩)
    · rw [h.fleet.phase] at he
      exact he
    · simp [h.fleet.orphans] at hw
  exact {
    held := fun i hi => absurd hi (hnone i)
    since := by simp [h.renewedAt]
    past := h.writtenAt
    observed := by simp [h.fleet.observations]
    bounded := by simp [h.fleet.observations]
    calls := by simp [h.fleet.phase]
    orphaned := by simp [h.fleet.orphans]
    known := fun i e he => absurd he (hholds i e)
    claimed := fun k e _ he => absurd he (hholds k e) }

theorem spared_run (hs : s.Fresh)
    (h : Run (Guarded (SweepStep D) fun s a => s.Considerate D a) s xs t) :
    t.Staged D ∧ ∃ acquirer, t.Spared D acquirer := by
  refine h.invariant (P := fun s => s.Staged D ∧ ∃ acquirer, s.Spared D acquirer) ?_
    ⟨fun k hk => absurd (hs.stage k) hk, _, hs.spared⟩
  rintro s a t ⟨hstaged, acquirer, hspared⟩ ⟨hstep, hok⟩
  exact ⟨hstep.staged hstaged, hstep.spared hspared hok⟩

/-- A write of a sweep that the server takes finds no session in force. -/
theorem Sweeps.Spared.none_of_sweep {k j : Nat} {op : LeaseOp} {w : Write Lease}
    (h : s.Spared D acquirer) (hs : s.Sent D k op w) (ha : s.fleet.server.Accepts w)
    (hk : D.sweeps k = true) (hcarried : ∀ l, op.Carries l → s.Holds k l.fencingEpoch) :
    ¬ s.Recent D j := by
  intro hj
  obtain ⟨r, hr⟩ := hs.prepared
  have hmoves := hr.moves ha
  cases op with
  | acquire => simp [(h.own_of_accepts hs ha hj).2 rfl] at hk
  | renew l | release l => exact h.claimed k _ hk (hcarried l rfl) (hmoves.carries rfl).symm j hj

/-- In a considerate run a sweep writes the Lease, or projects the controller offline, only when no
replica has a live owner. -/
theorem sweep_spares_live_owner (hs : s.Fresh)
    (h : Run (Guarded (SweepStep D) fun s a => s.Considerate D a) s xs t)
    (hstep : SweepStep D t a u) (hok : t.Considerate D a) (hw : t.SweepWrites D a) (i : Nat) :
    ¬ t.LiveOwner D i := by
  intro hlive
  obtain ⟨hstaged, acquirer, hspared⟩ := spared_run hs h
  have hrecent := hlive.recent
  cases hw with
  | @lease k op a hwritten hk =>
    cases hstep with
    | owner hstep _ =>
      cases hstep with
      | @commit j op' left w r _ hp ha =>
        obtain ⟨rfl, rfl⟩ : j = k ∧ op' = op := by simpa [OwnerAction.written, hp] using hwritten
        refine hspared.none_of_sweep (hspared.calls j _ _ hp).1 ha hk ?_ hrecent
        intro l hl
        exact .inl (by rw [hp]; exact .inl ⟨l, hl, rfl⟩)
      | @late j op' w _ hw ha =>
        obtain ⟨rfl, rfl⟩ : j = k ∧ op' = op := by simpa [OwnerAction.written] using hwritten
        exact hspared.none_of_sweep (hspared.orphaned j _ w hw) ha hk
          (fun l hl => .inr ⟨_, w, l, hw, hl, rfl⟩) hrecent
      | _ => cases hwritten
  | @projection session l observedAt answers k hstage hp hchanged =>
    obtain ⟨o, ho, howns⟩ := hok session l hp hchanged
    have hepoch : committedEpoch t.fleet.server = l.fencingEpoch := by
      simp [committedEpoch, ho, (Coordinator.epoch_of_owns howns).2.2, Except.toOption]
    refine hspared.claimed k _ (hstaged k (by simp [hstage])) (.inl ?_) hepoch i hrecent
    rw [hp]
    rfl

end Runs

section Own

/-- Session 0 and sweep 1 run on replica 0, and further sweeps on replica 1. -/
def sweptCenters : Installation where
  replica r := ⟨String.ofList (List.replicate (r + 1) 'c' ++ ['/', 'u']), 5 * 10 ^ 9⟩
  home i := if i < 2 then 0 else 1
  offset _ := 0
  role := .controllerOwner "edge-1"
  seconds _ := 5
  holder_injective := by
    intro r r' h
    have hl := congrArg List.length (String.ofList_injective h)
    simpa using hl
  holder_nonempty := by
    intro r h
    have hl := congrArg String.toList h
    simp at hl
  whole _ := rfl
  long _ := Nat.le_add_left 3 2
  controllerId := edge1
  owner := rfl
  directory := KubernetesControllerDirectory.exampleDirectory
  internalPort := 8443
  sweeps k := k != 0

def sweptFleet : Sweeps where
  fleet := freshFleet
  located _ := none
  directory := ⟨fun _ => none, []⟩
  stage _ := .idle
  writtenAt := 0
  renewedAt _ := none

def sweptRegistration : ControllerRegistration :=
  ⟨edge1, newSession, "edge", [], [], some "c/u", some ⟨"t0", 1⟩, 1⟩

def sweptResource : EdgionController where
  name := KubernetesControllerDirectory.exampleDirectory.controllerResourceName edge1.value
  generation := some 1
  spec := ⟨"edge-1", "edge", [], []⟩
  status := KubernetesControllerDirectory.upsertTransition sweptRegistration 1 none (some 1)

def sweptRecord : ControllerRecord where
  controllerId := edge1
  currentSessionId := some newSession
  cluster := "edge"
  environments := []
  tags := []
  connectedReplica := some "c/u"
  ownershipFence := some ⟨"t0", 1⟩
  syncVersion := none
  watchServerId := none
  resourceCount := none
  resourceCountsByKind := none
  statsUpdatedUnixMs := none
  watchUpdatedUnixMs := none
  phase := .online
  lastSeenUnixMs := 1

variable {D : Installation} {s : Sweeps}

theorem SweepStep.listed {k : Nat} (resource : EdgionController) (record : ControllerRecord)
    (hk : D.sweeps k = true) (hstage : s.stage k = .idle)
    (hstored : s.directory.stored resource.name = some resource)
    (hrecord : KubernetesControllerDirectory.record resource = .ok (some record))
    (hid : record.controllerId = D.controllerId) (hphase : record.phase = .online) :
    SweepStep D s (.list k) (s.setStage k (.listed record)) :=
  .list hk hstage hstored hrecord hid hphase

theorem sweptFleet_fresh : sweptFleet.Fresh :=
  ⟨freshFleet_fresh, fun _ => rfl, fun _ => rfl, le_rfl⟩

theorem SweepStep.decided {i : Nat} {op : LeaseOp} {left now : Nat} {wall : Int} {token : String}
    {got : Option (Object Lease)}
    (h : s.fleet.phase i = .calling op (.read left now wall token got)) :
    SweepStep D s (.owner (.decide i)) (s.took D (.decide i)
      ((s.fleet.observe D.toDeployment i ((D.replica (D.home i)).round D.role op
        (s.fleet.observations (D.home i)) now wall token got).1).setPhase i
          (((D.replica (D.home i)).round D.role op
            (s.fleet.observations (D.home i)) now wall token got).2.ownerPhase op left))) :=
  .owner (.decide h rfl) (by simp [OwnerAction.session])

variable {a : OwnerAction} {fleet : Fleet}

theorem SweepStep.ownerStep (h : OwnerStep D.toDeployment s.fleet a fleet) (ha : a.session = none) :
    SweepStep D s (.owner a) (s.took D a fleet) :=
  .owner h (by simp [ha])

theorem SweepStep.sessionStep (i : Nat) (h : OwnerStep D.toDeployment s.fleet a fleet)
    (ha : a.session = some i) (hi : D.sweeps i = false) :
    SweepStep D s (.owner a) (s.took D a fleet) := by
  refine .owner h fun j hj => ?_
  obtain rfl : i = j := by simpa [ha] using hj
  exact hi

/-- A step of the replicas that neither decides nor writes. -/
theorem considerate_silent (hdecide : ∀ i, a ≠ .decide i) (hwritten : a.written s.fleet = none) :
    s.Considerate D (.owner a) := by
  cases a with
  | decide i => exact absurd rfl (hdecide i)
  | _ => exact fun i l h => absurd (h.symm.trans hwritten) (by simp)

/-- The owner is gone, and has left its Lease and an online controller behind. -/
def desertedFleet : Sweeps :=
  { sweptFleet with
    fleet := freshFleet.put ((sweptCenters.replica 0).acquiredLease (roleKey sweptCenters.role) none
      0 "t0" 1)
    directory := ⟨fun _ => some sweptResource, []⟩ }

theorem desertedFleet_fresh : desertedFleet.Fresh :=
  ⟨⟨fun _ => rfl, fun _ => rfl, fun _ => rfl, rfl⟩, fun _ => rfl, fun _ => rfl, le_rfl⟩

/-- The sweep of replica 1 finds the Lease of the owner unchanged for its duration. -/
theorem expired_run : ∃ xs t u, Run (Guarded (SweepStep sweptCenters)
      fun s a => s.Considerate sweptCenters a) desertedFleet xs t ∧
    SweepStep sweptCenters t (.owner (.commit 3)) u ∧
    t.Considerate sweptCenters (.owner (.commit 3)) ∧
    t.SweepWrites sweptCenters (.owner (.commit 3)) := by
  refine ⟨[.list 2, .look 2, .locate 2, .reconcile 2, .owner (.get 2), .owner (.decide 2),
    .owner (.tick (5 * 10 ^ 9)), .list 3, .look 3, .locate 3, .reconcile 3, .owner (.get 3),
    .owner (.decide 3)], _, _,
    .step ⟨.listed sweptResource sweptRecord rfl rfl rfl rfl rfl rfl, trivial⟩ <|
    .step ⟨.look rfl, trivial⟩ <| .step ⟨.locate (fun _ => none) rfl rfl, trivial⟩ <|
    .step ⟨.reconcile 0 "t2" rfl (by exact rfl) rfl, trivial⟩ <|
    .step ⟨.ownerStep (.get rfl) rfl, considerate_silent (by simp) rfl⟩ <|
    .step ⟨.decided rfl, ?_⟩ <|
    .step ⟨.ownerStep (.tick (5 * 10 ^ 9)) rfl, considerate_silent (by simp) rfl⟩ <|
    .step ⟨.listed sweptResource sweptRecord rfl rfl rfl rfl rfl rfl, trivial⟩ <|
    .step ⟨.look rfl, trivial⟩ <| .step ⟨.locate (fun _ => none) rfl rfl, trivial⟩ <|
    .step ⟨.reconcile 0 "t3" (by exact rfl) (by exact rfl) rfl, trivial⟩ <|
    .step ⟨.ownerStep (.get (by exact rfl)) rfl, considerate_silent (by simp) rfl⟩ <|
    .step ⟨.decided (by exact rfl), ?_⟩ <| .refl _,
    .ownerStep (.commit rfl (by exact ⟨_, rfl, rfl⟩)) rfl, ?_, .lease rfl rfl⟩
  · intro left now wall token o hp ho
    cases hp
    exact ⟨fun _ => le_rfl, fun _ hh => absurd hh (by decide)⟩
  · intro left now wall token o hp ho
    cases hp
    exact ⟨fun hfirst => absurd rfl (hfirst 0), fun _ hh => absurd hh (by decide)⟩
  · intro i l h
    cases h

theorem expired_owner_reconciled : ∃ t : Sweeps,
    t.SweepWrites sweptCenters (.owner (.commit 3)) ∧ ∀ i, ¬ t.LiveOwner sweptCenters i := by
  obtain ⟨_, t, _, hrun, hstep, hok, hwrites⟩ := expired_run
  exact ⟨t, hwrites, sweep_spares_live_owner desertedFleet_fresh hrun hstep hok hwrites⟩

/-- The Pod of the owner is gone from the API while the owner is live; the sweep of its own replica
takes the Lease from it. -/
theorem own_sweep_displaces : ∃ xs t a u, sweptFleet.Fresh ∧
    Run (SweepStep sweptCenters) sweptFleet xs t ∧ SweepStep sweptCenters t a u ∧
      t.SweepWrites sweptCenters a ∧ t.LiveOwner sweptCenters 0 := by
  refine ⟨[.owner (.start 0), .owner (.get 0), .owner (.decide 0), .owner (.commit 0),
    .owner (.reply 0), .owner (.register 0), .owner (.arm 0),
    .directory (.upsertRegistration sweptRegistration), .list 1, .look 1, .locate 1, .reconcile 1,
    .owner (.get 1), .owner (.decide 1)], _, .owner (.commit 1), _, sweptFleet_fresh,
    .step (.sessionStep 0 (.start rfl 0 "t0") rfl rfl) <| .step (.ownerStep (.get rfl) rfl) <|
    .step (.decided rfl) <| .step (.ownerStep (.commit rfl rfl) rfl) <|
    .step (.ownerStep (.replyAcquired rfl) rfl) <|
    .step (.sessionStep 0 (.register rfl) rfl rfl) <| .step (.ownerStep (.arm rfl) rfl) <|
    .step (.directory _ []) <|
    .step (.listed sweptResource sweptRecord rfl rfl rfl rfl rfl rfl) <| .step (.look rfl) <|
    .step (.locate (fun _ => none) rfl rfl) <|
    .step (.reconcile 0 "t1" rfl (by exact rfl) rfl) <|
    .step (.ownerStep (.get rfl) rfl) <| .step (.decided rfl) <| .refl _,
    .ownerStep (.commit rfl ⟨_, rfl, rfl⟩) rfl, .lease rfl rfl, ?_⟩
  exact ⟨rfl, rfl, _, rfl, by decide⟩

end Own

end EdgionCenter
