import EdgionCenter.Lease.Sweep

/-! When a sweep displaces no live owner: the invariant, and what it asks of steps with and without a
write. -/
namespace EdgionCenter

open Versioned Transition

/-- The fencing epochs that a phase carries. -/
def OwnerPhase.Carries : OwnerPhase → Nat → Prop
  | .calling op call, e => (∃ l, op.Carries l ∧ l.fencingEpoch = e) ∨
      ∃ r l, call = .replied r ∧ r.leadership = some l ∧ l.fencingEpoch = e
  | .acquired l, e | .registered l, e | .holding l, e | .leaving l, e => l.fencingEpoch = e
  | .idle, _ | .ended, _ => False

namespace Sweeps

variable (D : Installation) (s : Sweeps)

/-- A contender starts to wait for a version only from a sample taken since it was written. A sweep
does not make use of being the holder itself while the Lease is active. A session gives the Lease back
only when its replica has no session with its flag set and its Lease renewed within its duration. A
sweep projects only while the Lease is still its own. -/
def Considerate : SweepAction → Prop
  | .owner (.decide i) => ∀ left now wall token o,
    s.fleet.phase i = .calling .acquire (.read left now wall token (some o)) →
    s.fleet.server.stored = some o →
    ((∀ t₀, s.fleet.observations (D.home i) ≠ some (o.version, t₀)) →
      s.writtenAt + D.offset (D.home i) ≤ now) ∧
    (D.sweeps i = true → o.value.holder = some (D.replica (D.home i)).holder →
      (Coordinator.isActive (s.fleet.observations (D.home i)) o now).1 = false)
  | .owner a => ∀ i l, a.written s.fleet = some (i, .release l) → D.sweeps i = false →
    ∀ j, D.home j = D.home i → ¬ s.Recent D j
  | .project k observedAt answers => ∀ session l, s.fleet.phase k = .acquired l →
    (s.projection D session l observedAt answers).stored ≠ s.directory.stored →
    ∃ o, s.fleet.server.stored = some o ∧ (D.replica (D.home k)).owns o.value l = .ok true
  | _ => True

/-- Epochs of which the call may make use, now or by a write that it has given up on. -/
def Holds (i e : Nat) : Prop :=
  (s.fleet.phase i).Carries e ∨
    ∃ op w l, (i, op, w) ∈ s.fleet.orphans ∧ op.Carries l ∧ l.fencingEpoch = e

/-- A write on its way: if the server takes it, the sessions in force are of its own replica, and
there are none if it is an acquire of a sweep. -/
structure Sent (i : Nat) (op : LeaseOp) (w : Write Lease) : Prop where
  heldBy : op.prolongs = true → D.HeldBy (D.home i) w.value
  prepared : ∃ r, Prepared s.fleet.server op w r
  own : ∀ n v, w = .replace n v → n < s.fleet.server.next ∧
    ∀ o, s.fleet.server.stored = some o → o.version = n → ∀ j, s.Recent D j →
      D.home j = D.home i ∧ (op = .acquire → D.sweeps i = false)

def CallSound (i : Nat) (op : LeaseOp) : CallPhase → Prop
  | .reading _ now _ _ => now ≤ s.fleet.clock D.toDeployment i
  | .read _ now _ _ got => now ≤ s.fleet.clock D.toDeployment i ∧
      ∀ o, got = some o → s.fleet.server.Saw o
  | .writing _ w r => s.Sent D i op w ∧ Prepared s.fleet.server op w r ∧
      ∀ l l', op = .renew l → r.leadership = some l' → l'.fencingEpoch = l.fencingEpoch
  | .replied _ => True

/-- `acquirer` tells who was given each epoch. -/
structure Spared (acquirer : Nat → Option Nat) : Prop where
  held : ∀ i, s.Recent D i → ∃ o, s.fleet.server.stored = some o ∧ D.HeldBy (D.home i) o.value
  since : ∀ i t, s.renewedAt i = some t → t ≤ s.writtenAt
  past : s.writtenAt ≤ s.fleet.time
  observed : ∀ r v t₀ o, s.fleet.observations r = some (v, t₀) →
    s.fleet.server.stored = some o → o.version = v → s.writtenAt + D.offset r ≤ t₀
  bounded : ∀ r v t₀, s.fleet.observations r = some (v, t₀) → v < s.fleet.server.next
  calls : ∀ i op call, s.fleet.phase i = .calling op call → s.CallSound D i op call
  orphaned : ∀ i op w, (i, op, w) ∈ s.fleet.orphans → s.Sent D i op w
  known : ∀ i e, s.Holds i e → acquirer e = some i ∧ e ≤ committedEpoch s.fleet.server
  claimed : ∀ k e, D.sweeps k = true → s.Holds k e → committedEpoch s.fleet.server = e →
    ∀ j, ¬ s.Recent D j

variable {D s} {t : Sweeps} {i j : Nat} {acquirer : Nat → Option Nat} {op : LeaseOp}
  {w : Write Lease} {call : CallPhase}

theorem LiveOwner.recent (h : s.LiveOwner D i) : s.Recent D i := h.2

/-- A step without a write. -/
structure Still (s t : Sweeps) : Prop where
  server : t.fleet.server = s.fleet.server
  time : s.fleet.time ≤ t.fleet.time
  writtenAt : t.writtenAt = s.writtenAt
  renewedAt : t.renewedAt = s.renewedAt
  valid : ∀ j, t.fleet.valid j = true → s.fleet.valid j = true

theorem Recent.still (q : Still s t) (h : t.Recent D j) : s.Recent D j := by
  obtain ⟨hv, u, hu, hlt⟩ := h
  rw [q.renewedAt] at hu
  have htime := q.time
  exact ⟨q.valid j hv, u, hu, by omega⟩

theorem Sent.still (q : Still s t) (h : s.Sent D i op w) : t.Sent D i op w := by
  refine ⟨h.heldBy, by rw [q.server]; exact h.prepared, fun n v hw => ?_⟩
  rw [q.server]
  obtain ⟨hlt, hown⟩ := h.own n v hw
  exact ⟨hlt, fun o ho hv j hj => hown o ho hv j (hj.still q)⟩

theorem CallSound.still (q : Still s t) (h : s.CallSound D i op call) : t.CallSound D i op call := by
  have hclock : s.fleet.clock D.toDeployment i ≤ t.fleet.clock D.toDeployment i :=
    Nat.add_le_add_right q.time _
  cases call with
  | reading left now wall token => exact h.trans hclock
  | read left now wall token got => exact ⟨h.1.trans hclock, by rw [q.server]; exact h.2⟩
  | writing left w r => exact ⟨h.1.still q, by rw [q.server]; exact h.2.1, h.2.2⟩
  | replied r => trivial

theorem Spared.still (h : s.Spared D acquirer) (q : Still s t)
    (hobs : ∀ r v t₀, t.fleet.observations r = some (v, t₀) →
      s.fleet.observations r = some (v, t₀) ∨ v < s.fleet.server.next ∧
        ∀ o, s.fleet.server.stored = some o → o.version = v → s.writtenAt + D.offset r ≤ t₀)
    (hcalls : ∀ i op call, t.fleet.phase i = .calling op call →
      s.fleet.phase i = .calling op call ∨ t.CallSound D i op call)
    (horph : ∀ i op w, (i, op, w) ∈ t.fleet.orphans → s.Sent D i op w)
    (hholds : ∀ i e, t.Holds i e → s.Holds i e) : t.Spared D acquirer where
  held i hi := by
    rw [q.server]
    exact h.held i (hi.still q)
  since := by
    rw [q.renewedAt, q.writtenAt]
    exact h.since
  past := by
    rw [q.writtenAt]
    exact h.past.trans q.time
  observed r v t₀ o ho hs hv := by
    rw [q.server] at hs
    rw [q.writtenAt]
    rcases hobs r v t₀ ho with ho | ⟨_, hnew⟩
    · exact h.observed r v t₀ o ho hs hv
    · exact hnew o hs hv
  bounded r v t₀ ho := by
    rw [q.server]
    rcases hobs r v t₀ ho with ho | ⟨hlt, _⟩
    · exact h.bounded r v t₀ ho
    · exact hlt
  calls i op call hc := by
    rcases hcalls i op call hc with hc | hc
    · exact (h.calls i op call hc).still q
    · exact hc
  orphaned i op w hw := (horph i op w hw).still q
  known i e he := by
    rw [q.server]
    exact h.known i e (hholds i e he)
  claimed k e hk he hcommitted j hj := by
    rw [q.server] at hcommitted
    exact h.claimed k e hk (hholds k e he) hcommitted j (hj.still q)

/-- A step without a write in which only call `i` moves. -/
theorem Spared.moved {p : OwnerPhase} (h : s.Spared D acquirer) (q : Still s t)
    (hph : t.fleet.phase = Function.update s.fleet.phase i p)
    (hobs : ∀ r v t₀, t.fleet.observations r = some (v, t₀) →
      s.fleet.observations r = some (v, t₀) ∨ v < s.fleet.server.next ∧
        ∀ o, s.fleet.server.stored = some o → o.version = v → s.writtenAt + D.offset r ≤ t₀)
    (hcall : ∀ op call, p = .calling op call → s.CallSound D i op call)
    (horph : ∀ k op w, (k, op, w) ∈ t.fleet.orphans →
      (k, op, w) ∈ s.fleet.orphans ∨ k = i ∧ ∃ left r, s.fleet.phase i = .calling op (.writing left w r))
    (hcarries : ∀ e, p.Carries e → (s.fleet.phase i).Carries e) : t.Spared D acquirer := by
  have hself : t.fleet.phase i = p := by simp [hph]
  have hother : ∀ j, j ≠ i → t.fleet.phase j = s.fleet.phase j := by
    intro j hj
    simp [hph, hj]
  refine h.still q hobs ?_ ?_ ?_
  · intro j op call hc
    by_cases hji : j = i
    · subst hji
      exact .inr ((hcall op call (hself ▸ hc)).still q)
    · exact .inl (hother j hji ▸ hc)
  · intro k op w hw
    rcases horph k op w hw with hw | ⟨rfl, left, r, hp⟩
    · exact h.orphaned k op w hw
    · exact (h.calls k op _ hp).1
  · intro j e he
    rcases he with he | ⟨op, w, l, hw, hl, rfl⟩
    · by_cases hji : j = i
      · subst hji
        exact .inl (hcarries e (hself ▸ he))
      · exact .inl (hother j hji ▸ he)
    · rcases horph j op w hw with hw | ⟨rfl, left, r, hp⟩
      · exact .inr ⟨op, w, l, hw, hl, rfl⟩
      · exact .inl (by rw [hp]; exact .inl ⟨l, hl, rfl⟩)

section Written

variable {r : Returned}

/-- Once a write on its way is taken, the sessions in force are its own replica's. -/
theorem Spared.own_of_accepts (h : s.Spared D acquirer) (hs : s.Sent D i op w)
    (ha : s.fleet.server.Accepts w) (hj : s.Recent D j) :
    D.home j = D.home i ∧ (op = .acquire → D.sweeps i = false) := by
  cases w with
  | create v =>
    obtain ⟨o, ho, _⟩ := h.held j hj
    have hnone : s.fleet.server.stored = none := ha
    simp [hnone] at ho
  | replace n v =>
    obtain ⟨o, ho, hv⟩ := ha
    exact (hs.own n v rfl).2 o ho hv j hj

/-- What the server taking a write of call `i` leaves. -/
structure Takes (D : Installation) (s t : Sweeps) (i : Nat) (op : LeaseOp) (w : Write Lease) :
    Prop where
  accepts : s.fleet.server.Accepts w
  server : t.fleet.server = s.fleet.server.put w.value
  time : t.fleet.time = s.fleet.time
  observations : t.fleet.observations = s.fleet.observations
  orphans : t.fleet.orphans = s.fleet.orphans
  valid : t.fleet.valid = s.fleet.valid
  writtenAt : t.writtenAt = s.fleet.time
  renewedAt : t.renewedAt = if op.prolongs && !D.sweeps i then
    Function.update s.renewedAt i (some s.fleet.time) else s.renewedAt

/-- Only the session for which the Lease is prolonged comes into force. -/
theorem Takes.recent (q : Takes D s t i op w) (hj : t.Recent D j) :
    s.Recent D j ∨ j = i ∧ op.prolongs = true ∧ D.sweeps i = false := by
  obtain ⟨hv, u, hu, hlt⟩ := hj
  rw [q.valid] at hv
  rw [q.time] at hlt
  rw [q.renewedAt] at hu
  split at hu
  · next hrenews =>
    by_cases hji : j = i
    · exact .inr ⟨hji, by simpa using hrenews⟩
    · exact .inl ⟨hv, u, by simpa [hji] using hu, hlt⟩
  · exact .inl ⟨hv, u, hu, hlt⟩

variable {k e : Nat} {op' : LeaseOp} {w' : Write Lease}

theorem Sent.takes (q : Takes D s t k op' w') (h : s.Sent D i op w) : t.Sent D i op w := by
  obtain ⟨r, hr⟩ := h.prepared
  refine ⟨h.heldBy, ⟨r, by rw [q.server]; exact hr.put⟩, fun n v hw => ?_⟩
  obtain ⟨hlt, _⟩ := h.own n v hw
  rw [q.server]
  refine ⟨Nat.lt_succ_of_lt hlt, ?_⟩
  rintro o ⟨⟩ hv
  exact absurd hv (Nat.ne_of_gt hlt)

theorem CallSound.takes (q : Takes D s t k op' w') (h : s.CallSound D i op call) :
    t.CallSound D i op call := by
  cases call with
  | reading left now wall token => simpa [CallSound, Fleet.clock, q.time] using h
  | read left now wall token got =>
    refine ⟨by simpa [Fleet.clock, q.time] using h.1, fun o ho => ?_⟩
    rw [q.server]
    exact (h.2 o ho).put
  | writing left w r => exact ⟨h.1.takes q, by rw [q.server]; exact h.2.1.put, h.2.2⟩
  | replied r => trivial

/-- A Lease is given back when no session is in force: the sessions see to it themselves, and a sweep
whose fence is still the Lease's has displaced nobody. -/
theorem Spared.none_of_release {l : Leadership} (h : s.Spared D acquirer) (hs : s.Sent D i (.release l) w)
    (ha : s.fleet.server.Accepts w)
    (hrelease : D.sweeps i = false → ∀ j, D.home j = D.home i → ¬ s.Recent D j)
    (hholds : s.Holds i l.fencingEpoch) : ¬ s.Recent D j := by
  intro hj
  obtain ⟨r, hr⟩ := hs.prepared
  have hepoch : l.fencingEpoch = committedEpoch s.fleet.server := (hr.moves ha).carries rfl
  cases hsweep : D.sweeps i with
  | false => exact hrelease hsweep j (h.own_of_accepts hs ha hj).1 hj
  | true => exact h.claimed i _ hsweep hholds hepoch.symm j hj

/-- Who is given the epochs after a write. -/
def givenBy (acquirer : Nat → Option Nat) (i : Nat) (op : LeaseOp) (epoch : Nat) :
    Nat → Option Nat :=
  match op with
  | .acquire => Function.update acquirer epoch (some i)
  | _ => acquirer

/-- An epoch that is held is not given again. -/
theorem Spared.known_written {after : Nat} (h : s.Spared D acquirer)
    (hmoves : op.Moves r (committedEpoch s.fleet.server) after)
    (hholds : s.Holds j e ∨ j = i ∧ op = .acquire ∧ e = after) :
    givenBy acquirer i op after e = some j ∧ e ≤ after := by
  rcases hholds with hholds | ⟨rfl, rfl, rfl⟩
  · obtain ⟨hgiven, hle⟩ := h.known j e hholds
    refine ⟨?_, hle.trans hmoves.le⟩
    cases op with
    | acquire =>
      have hafter := hmoves.1
      have hne : e ≠ after := by omega
      simpa [givenBy, hne] using hgiven
    | renew l | release l => exact hgiven
  · exact ⟨Function.update_self .., le_rfl⟩

/-- While the Lease carries the fence of a sweep, no session comes into force. -/
theorem Spared.claimed_written (h : s.Spared D acquirer) (q : Takes D s t i op w)
    (hs : s.Sent D i op w)
    (hmoves : op.Moves r (committedEpoch s.fleet.server) (committedEpoch t.fleet.server))
    (hcarried : ∀ l, op.Carries l → s.Holds i l.fencingEpoch) (hk : D.sweeps k = true)
    (hholds : s.Holds k e ∨ k = i ∧ op = .acquire ∧ e = committedEpoch t.fleet.server)
    (hcommitted : committedEpoch t.fleet.server = e) : ¬ t.Recent D j := by
  intro hj
  rcases hholds with hholds | ⟨rfl, rfl, _⟩
  · obtain ⟨hgiven, hle⟩ := h.known k e hholds
    cases op with
    | acquire =>
      have hafter := hmoves.1
      omega
    | renew l =>
      have hsame := hmoves.1
      rcases q.recent hj with hj | ⟨rfl, _, hsession⟩
      · exact h.claimed k e hk hholds (by omega) j hj
      · -- the session holds the epoch of the sweep, which only one call can
        have hown := (h.known j _ (hcarried l rfl)).1
        have hepoch : l.fencingEpoch = e := by
          have := hmoves.carries (l := l) rfl
          omega
        rw [hepoch, hgiven] at hown
        cases hown
        simp [hk] at hsession
    | release l =>
      have hsame := hmoves.1
      rcases q.recent hj with hj | ⟨_, hprolongs, _⟩
      · exact h.claimed k e hk hholds (by omega) j hj
      · cases hprolongs
  · rcases q.recent hj with hj | ⟨_, _, hsession⟩
    · simp [(h.own_of_accepts hs q.accepts hj).2 rfl] at hk
    · simp [hsession] at hk

theorem Spared.written (h : s.Spared D acquirer) (q : Takes D s t i op w) (hs : s.Sent D i op w)
    (hrelease : ∀ l, op = .release l → D.sweeps i = false →
      ∀ j, D.home j = D.home i → ¬ s.Recent D j)
    (hcarried : ∀ l, op.Carries l → s.Holds i l.fencingEpoch)
    (hcalls : ∀ j op call, t.fleet.phase j = .calling op call →
      s.fleet.phase j = .calling op call ∨ ∃ r, call = .replied r)
    (hholds : ∀ j e, t.Holds j e → s.Holds j e ∨
      j = i ∧ op = .acquire ∧ e = committedEpoch t.fleet.server) :
    t.Spared D (givenBy acquirer i op (committedEpoch t.fleet.server)) := by
  obtain ⟨r, hr⟩ := hs.prepared
  have hmoves : op.Moves r (committedEpoch s.fleet.server) (committedEpoch t.fleet.server) := by
    rw [q.server]
    exact hr.moves q.accepts
  exact {
    held := by
      intro j hj
      have hhome : D.home j = D.home i := by
        rcases q.recent hj with hj | ⟨rfl, _⟩
        · exact (h.own_of_accepts hs q.accepts hj).1
        · rfl
      refine ⟨_, by rw [q.server]; rfl, ?_⟩
      rw [hhome]
      apply hs.heldBy
      cases op with
      | acquire => rfl
      | renew l => rfl
      | release l =>
        rcases q.recent hj with hj | ⟨_, hprolongs, _⟩
        · exact absurd hj (h.none_of_release hs q.accepts (hrelease l rfl) (hcarried l rfl))
        · exact hprolongs
    since := by
      intro j u hu
      rw [q.writtenAt]
      rw [q.renewedAt] at hu
      have hbefore : s.renewedAt j = some u → u ≤ s.fleet.time := fun hu =>
        (h.since j u hu).trans h.past
      split at hu
      · by_cases hji : j = i
        · subst hji
          obtain rfl : s.fleet.time = u := by simpa using hu
          exact le_rfl
        · exact hbefore (by simpa [hji] using hu)
      · exact hbefore hu
    past := by rw [q.writtenAt, q.time]
    observed := by
      intro r v t₀ o ho hst hv
      rw [q.observations] at ho
      rw [q.server] at hst
      cases hst
      exact absurd hv (Nat.ne_of_gt (h.bounded r v t₀ ho))
    bounded := by
      intro r v t₀ ho
      rw [q.observations] at ho
      rw [q.server]
      exact Nat.lt_succ_of_lt (h.bounded r v t₀ ho)
    calls := by
      intro j op' call hc
      rcases hcalls j op' call hc with hc | ⟨r, rfl⟩
      · exact (h.calls j op' call hc).takes q
      · trivial
    orphaned := by
      intro j op' w' hw
      rw [q.orphans] at hw
      exact (h.orphaned j op' w' hw).takes q
    known := by
      intro j e he
      exact h.known_written hmoves (hholds j e he)
    claimed := by
      intro k e hk he hcommitted j
      exact h.claimed_written q hs hmoves hcarried hk (hholds k e he) hcommitted }

end Written

end Sweeps

end EdgionCenter
