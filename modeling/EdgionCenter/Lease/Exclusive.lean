import EdgionCenter.Lease.Owner

/-! What keeps two replicas from both taking themselves for the owner: the invariant, and what it
asks of steps with and without a write. -/
namespace EdgionCenter

open Versioned Transition

/-- The Lease names the replica and carries its duration. -/
def Deployment.HeldBy (D : Deployment) (r : Nat) (lease : Lease) : Prop :=
  ∃ spec, lease.spec = some spec ∧ spec.holderIdentity = some (D.replica r).holder ∧
    spec.leaseDurationSeconds = some (D.replica r).durationSeconds

theorem Deployment.HeldBy.holder_eq {D : Deployment} {r : Nat} {lease : Lease}
    (h : D.HeldBy r lease) : lease.holder = some (D.replica r).holder := by
  obtain ⟨spec, hs, hh, _⟩ := h
  simp [Lease.holder, hs, hh]

/-- A Lease that is found expired has been watched for the duration of its replica. -/
theorem Deployment.HeldBy.elapsed {D : Deployment} {r : Nat} {o : Object Lease}
    {obs : Option LeaseObservation} {now : Nat} (h : D.HeldBy r o.value)
    (ha : (Coordinator.isActive obs o now).1 = false) :
    ∃ t₀, obs = some (o.version, t₀) ∧ t₀ + (D.replica r).leaseDuration ≤ now := by
  obtain ⟨spec, hs, hholder, hdur⟩ := h
  have hsec : (D.replica r).durationSeconds = (D.seconds r : Int) := by
    simp [Coordinator.durationSeconds, D.whole]
  have hlong := D.long r
  rw [D.whole]
  exact Coordinator.elapsed_of_isActive hs hholder (D.holder_nonempty _)
    (hdur.trans (congrArg some hsec)) (by omega) ha

/-- The leadership in a result. -/
def Returned.leadership : Returned → Option Leadership
  | .acquired l | .renewal (.renewed l) => some l
  | _ => none

theorem Returned.success_of_leadership {r : Returned} {l : Leadership}
    (h : r.leadership = some l) : r.Success := by
  cases r with
  | acquired => trivial
  | renewal outcome => cases outcome <;> simp_all [leadership, Success]
  | release | failed => simp [leadership] at h

/-- The session's write is in, but the deadline that follows from it is not set yet. -/
def OwnerPhase.Awaiting : OwnerPhase → Prop
  | .calling _ (.replied r) => r.leadership ≠ none
  | .acquired _ | .registered _ => True
  | _ => False

/-- The result a call is to bring home, or has brought. -/
def OwnerPhase.result : OwnerPhase → Option Returned
  | .calling _ (.writing _ _ r) | .calling _ (.replied r) => some r
  | .acquired l | .registered l => some (.acquired l)
  | _ => none

/-- A session in this phase has, or is extending, a deadline. -/
def OwnerPhase.Maintained : OwnerPhase → Prop
  | .holding _ | .calling (.renew _) _ => True
  | _ => False

namespace Fleet

variable (D : Deployment) (s : Fleet)

/-- The session is live, or may be once its reply is acted upon. -/
def Potent (i : Nat) : Prop :=
  s.valid i = true ∧
    ((s.phase i).Awaiting ∨ ∃ d, s.deadline i = some d ∧ s.clock D i < d.expiry)

/-- Nothing of another replica's is in the way of a wait that starts at `now` on replica `r`: all
its replies are acted upon, and its deadlines were set by then. -/
def SettledBy (r now : Nat) : Prop :=
  ∀ j, D.home j ≠ r → s.Potent D j → ¬ (s.phase j).Awaiting ∧
    ∀ d, s.deadline j = some d → d.setAt + D.offset r ≤ now + D.offset (D.home j)

/-- A contender starts to wait for a version only from a sample by which every deadline of another
replica was set, with no reply to it under way; and a Lease is given back only when its replica has
no other session that owns it or is about to. -/
def Punctual : OwnerAction → Prop
  | .decide i => ∀ left now wall token o,
    s.phase i = .calling .acquire (.read left now wall token (some o)) → s.server.stored = some o →
    (∀ t₀, s.observations (D.home i) ≠ some (o.version, t₀)) → s.SettledBy D (D.home i) now
  | .commit i => ∀ l left w r, s.phase i = .calling (.release l) (.writing left w r) →
    ∀ j, j ≠ i → D.home j = D.home i → ¬ s.Potent D j
  | .late i (.release _) => ∀ j, j ≠ i → D.home j = D.home i → ¬ s.Potent D j
  | _ => True

/-- A write on its way: if the server takes it, only its own replica has potent sessions. -/
def Sent (i : Nat) (op : LeaseOp) (w : Write Lease) : Prop :=
  ((∀ l, op ≠ .release l) → D.HeldBy (D.home i) w.value) ∧
    ∀ n v, w = .replace n v → n < s.server.next ∧ ∀ o, s.server.stored = some o → o.version = n →
      ∀ j, s.Potent D j → D.home j = D.home i

def CallSound (i : Nat) (op : LeaseOp) : CallPhase → Prop
  | .reading _ now _ _ => now ≤ s.clock D i
  | .read _ now _ _ got => now ≤ s.clock D i ∧ ∀ o, got = some o → s.server.Saw o
  | .writing _ w r => s.Sent D i op w ∧ ∀ l, op = .release l → r.leadership = none
  | .replied _ => True

structure Exclusive : Prop where
  held : ∀ i, s.Potent D i → ∃ o, s.server.stored = some o ∧ D.HeldBy (D.home i) o.value
  observed : ∀ r v t₀ o, s.observations r = some (v, t₀) → s.server.stored = some o →
    o.version = v → s.SettledBy D r t₀
  bounded : ∀ r v t₀, s.observations r = some (v, t₀) → v < s.server.next
  calls : ∀ i op call, s.phase i = .calling op call → s.CallSound D i op call
  orphaned : ∀ i op w, (i, op, w) ∈ s.orphans → s.Sent D i op w
  released : ∀ i l w, (i, .release l, w) ∈ s.orphans → s.phase i = .ended
  settled : ∀ i, ¬ (s.phase i).Maintained → s.valid i = false ∨ s.deadline i = none
  lasting : ∀ i r l, (s.phase i).result = some r → r.leadership = some l →
    l.validForMillis * 10 ^ 6 ≤ (D.replica (D.home i)).leaseDuration
  spans : ∀ i d, s.deadline i = some d → d.validFor ≤ (D.replica (D.home i)).leaseDuration

variable {D s} {t : Fleet} {i j : Nat}

theorem Live.potent (h : s.Live D i) : s.Potent D i := ⟨h.2.1, .inr h.2.2⟩

variable {r : Nat} {w : Write Lease} {call : CallPhase} {p : OwnerPhase} {v : Lease}

theorem heldBy_unique {r' : Nat} {lease : Lease} (h : D.HeldBy r lease) (h' : D.HeldBy r' lease) :
    r = r' := by
  obtain ⟨spec, hs, hh, -⟩ := h
  obtain ⟨spec', hs', hh', -⟩ := h'
  rw [hs] at hs'
  cases hs'
  rw [hh] at hh'
  exact D.holder_injective (Option.some.inj hh')

/-- Potent sessions all run on the replica the Lease names. -/
theorem Exclusive.home_eq (h : s.Exclusive D) (hi : s.Potent D i) (hj : s.Potent D j) :
    D.home i = D.home j := by
  obtain ⟨o, ho, hh⟩ := h.held i hi
  obtain ⟨o', ho', hh'⟩ := h.held j hj
  rw [ho] at ho'
  cases ho'
  exact heldBy_unique hh hh'

theorem Exclusive.atMostOneOwner (h : s.Exclusive D) : s.AtMostOneOwner D :=
  fun _ _ hi hj => h.home_eq hi.potent hj.potent

/-- A step without a write: no session becomes potent, and the deadline of a potent one changes only
when its reply is acted upon. -/
structure Quiet (D : Deployment) (s t : Fleet) : Prop where
  server : t.server = s.server
  time : s.time ≤ t.time
  potent : ∀ j, t.Potent D j → s.Potent D j
  awaiting : ∀ j, (t.phase j).Awaiting → (s.phase j).Awaiting
  deadline : ∀ j, t.deadline j = s.deadline j ∨ (s.phase j).Awaiting

theorem SettledBy.quiet {now : Nat} (h : s.SettledBy D r now) (q : Quiet D s t) :
    t.SettledBy D r now := by
  intro j hr hj
  obtain ⟨haw, hd⟩ := h j hr (q.potent j hj)
  refine ⟨fun ha => haw (q.awaiting j ha), ?_⟩
  rcases q.deadline j with he | ha
  · rw [he]
    exact hd
  · exact absurd ha haw

variable {op : LeaseOp}

theorem Sent.quiet (h : s.Sent D i op w) (q : Quiet D s t) : t.Sent D i op w := by
  refine ⟨h.1, fun n v hw => ?_⟩
  rw [q.server]
  obtain ⟨hlt, hown⟩ := h.2 n v hw
  exact ⟨hlt, fun o ho hv j hj => hown o ho hv j (q.potent j hj)⟩

theorem CallSound.quiet (h : s.CallSound D i op call) (q : Quiet D s t) :
    t.CallSound D i op call := by
  have hclock : s.clock D i ≤ t.clock D i := Nat.add_le_add_right q.time _
  cases call with
  | reading left now wall token => exact h.trans hclock
  | read left now wall token got => exact ⟨h.1.trans hclock, by rw [q.server]; exact h.2⟩
  | writing left w r => exact ⟨h.1.quiet q, h.2⟩
  | replied r => trivial

theorem Exclusive.quiet (h : s.Exclusive D) (q : Quiet D s t)
    (hobs : ∀ r v t₀, t.observations r = some (v, t₀) → s.observations r = some (v, t₀) ∨
      v < s.server.next ∧ ∀ o, s.server.stored = some o → o.version = v → s.SettledBy D r t₀)
    (hcalls : ∀ i op call, t.phase i = .calling op call →
      s.phase i = .calling op call ∨ t.CallSound D i op call)
    (horph : ∀ i op w, (i, op, w) ∈ t.orphans → s.Sent D i op w)
    (hrel : ∀ i l w, (i, .release l, w) ∈ t.orphans → t.phase i = .ended)
    (hset : ∀ i, ¬ (t.phase i).Maintained → t.valid i = false ∨ t.deadline i = none)
    (hlast : ∀ i r l, (t.phase i).result = some r → r.leadership = some l →
      l.validForMillis * 10 ^ 6 ≤ (D.replica (D.home i)).leaseDuration)
    (hspan : ∀ i d, t.deadline i = some d →
      d.validFor ≤ (D.replica (D.home i)).leaseDuration) : t.Exclusive D := by
  refine ⟨?_, ?_, ?_, ?_, ?_, hrel, hset, hlast, hspan⟩
  · intro i hi
    rw [q.server]
    exact h.held i (q.potent i hi)
  · intro r v t₀ o ho hs hv
    rw [q.server] at hs
    rcases hobs r v t₀ ho with ho | ⟨-, hnew⟩
    · exact (h.observed r v t₀ o ho hs hv).quiet q
    · exact (hnew o hs hv).quiet q
  · intro r v t₀ ho
    rw [q.server]
    rcases hobs r v t₀ ho with ho | ⟨hlt, -⟩
    · exact h.bounded r v t₀ ho
    · exact hlt
  · intro i op call hc
    rcases hcalls i op call hc with hc | hc
    · exact (h.calls i op call hc).quiet q
    · exact hc
  · exact fun i op w hw => (horph i op w hw).quiet q

theorem Quiet.of_moved (hserver : t.server = s.server) (htime : t.time = s.time)
    (hph : t.phase = Function.update s.phase i p)
    (hvalid : ∀ j, t.valid j = true → s.valid j = true)
    (hdl : ∀ j, j ≠ i → t.deadline j = s.deadline j)
    (hdi : t.deadline i = s.deadline i ∨ (s.phase i).Awaiting)
    (haw : p.Awaiting → (s.phase i).Awaiting) : Quiet D s t := by
  have hclock : ∀ j, t.clock D j = s.clock D j := by simp [clock, htime]
  refine ⟨hserver, htime.ge, ?_, ?_, ?_⟩
  · rintro j ⟨hv, hj⟩
    refine ⟨hvalid j hv, ?_⟩
    rw [hclock] at hj
    by_cases hji : j = i
    · subst hji
      rcases hdi with hd | ha
      · exact hj.imp (fun h => haw (by simpa [hph] using h)) (by rw [hd]; exact id)
      · exact .inl ha
    · rw [hdl j hji] at hj
      exact hj.imp_left (by simp [hph, hji])
  · intro j hj
    by_cases hji : j = i
    · subst hji
      exact haw (by simpa [hph] using hj)
    · simpa [hph, hji] using hj
  · intro j
    by_cases hji : j = i
    · subst hji
      exact hdi
    · exact .inl (hdl j hji)

/-- The same for a step in which only session `i` moves. -/
theorem Exclusive.moved (h : s.Exclusive D) (hne : s.phase i ≠ .ended)
    (hserver : t.server = s.server) (htime : t.time = s.time)
    (hph : t.phase = Function.update s.phase i p)
    (hvalid : ∀ j, t.valid j = true → s.valid j = true)
    (hdl : ∀ j, j ≠ i → t.deadline j = s.deadline j)
    (hdi : t.deadline i = s.deadline i ∨ (s.phase i).Awaiting)
    (haw : p.Awaiting → (s.phase i).Awaiting)
    (hobs : ∀ r v t₀, t.observations r = some (v, t₀) → s.observations r = some (v, t₀) ∨
      v < s.server.next ∧ ∀ o, s.server.stored = some o → o.version = v → s.SettledBy D r t₀)
    (hcall : ∀ op call, p = .calling op call → s.CallSound D i op call)
    (horph : ∀ k op w, (k, op, w) ∈ t.orphans → (k, op, w) ∈ s.orphans ∨
      k = i ∧ s.Sent D i op w ∧ ∀ l, op = .release l → p = .ended)
    (hset : ¬ p.Maintained → t.valid i = false ∨ t.deadline i = none)
    (hlast : ∀ r l, p.result = some r → r.leadership = some l →
      l.validForMillis * 10 ^ 6 ≤ (D.replica (D.home i)).leaseDuration)
    (hspan : ∀ d, t.deadline i = some d → d.validFor ≤ (D.replica (D.home i)).leaseDuration) :
    t.Exclusive D := by
  have hphase : ∀ j, j ≠ i → t.phase j = s.phase j := by
    intro j hj
    simp [hph, hj]
  have hphase_self : t.phase i = p := by simp [hph]
  have q : Quiet D s t := .of_moved hserver htime hph hvalid hdl hdi haw
  refine h.quiet q hobs ?_ ?_ ?_ ?_ ?_ ?_
  · intro j op call hc
    by_cases hji : j = i
    · subst hji
      exact .inr ((hcall op call (hphase_self ▸ hc)).quiet q)
    · exact .inl (hphase j hji ▸ hc)
  · intro k op w hw
    rcases horph k op w hw with hw | ⟨rfl, hs, -⟩
    · exact h.orphaned k op w hw
    · exact hs
  · intro k l w hw
    rcases horph k _ w hw with hw | ⟨rfl, -, hp⟩
    · have hk := h.released k l w hw
      have hki : k ≠ i := by
        rintro rfl
        exact hne hk
      rw [hphase k hki, hk]
    · rw [hphase_self, hp l rfl]
  · intro j hj
    by_cases hji : j = i
    · subst hji
      exact hset (hphase_self ▸ hj)
    · rw [hdl j hji]
      refine (h.settled j (hphase j hji ▸ hj)).imp_left fun hv => ?_
      by_contra hv'
      simp [hvalid j (by simpa using hv')] at hv
  · intro j r l hr hl
    by_cases hji : j = i
    · subst hji
      exact hlast r l (hphase_self ▸ hr) hl
    · exact h.lasting j r l (hphase j hji ▸ hr) hl
  · intro j d hd
    by_cases hji : j = i
    · subst hji
      exact hspan d hd
    · exact h.spans j d (hdl j hji ▸ hd)

/-- Once a write on its way is taken, the potent sessions are its own replica's. -/
theorem Exclusive.home_of_accepts (h : s.Exclusive D) (hs : s.Sent D i op w)
    (ha : s.server.Accepts w) (hj : s.Potent D j) : D.home j = D.home i := by
  cases w with
  | create v =>
    obtain ⟨o, ho, -⟩ := h.held j hj
    have hnone : s.server.stored = none := ha
    simp [hnone] at ho
  | replace n v =>
    obtain ⟨o, ho, hv⟩ := ha
    exact (hs.2 n v rfl).2 o ho hv j hj

theorem Sent.put (h : s.Sent D i op w) (ht : t.server = s.server.put v) : t.Sent D i op w := by
  refine ⟨h.1, fun n v' hw => ?_⟩
  obtain ⟨hlt, -⟩ := h.2 n v' hw
  rw [ht]
  refine ⟨Nat.lt_succ_of_lt hlt, ?_⟩
  rintro o ⟨⟩ hv
  exact absurd hv (Nat.ne_of_gt hlt)

theorem CallSound.put (h : s.CallSound D i op call) (hserver : t.server = s.server.put v)
    (htime : t.time = s.time) : t.CallSound D i op call := by
  cases call with
  | reading left now wall token => simpa [CallSound, clock, htime] using h
  | read left now wall token got =>
    refine ⟨by simpa [clock, htime] using h.1, fun o ho => ?_⟩
    rw [hserver]
    exact (h.2 o ho).put
  | writing left w r => exact ⟨h.1.put hserver, h.2⟩
  | replied r => trivial

/-- The server takes a write of session `i`. -/
theorem Exclusive.written (h : s.Exclusive D) (hs : s.Sent D i op w) (ha : s.server.Accepts w)
    (hserver : t.server = s.server.put w.value) (htime : t.time = s.time)
    (hobs : t.observations = s.observations) (horph : t.orphans = s.orphans)
    (hvalid : t.valid = s.valid) (hdl : t.deadline = s.deadline)
    (hpot : ∀ j, t.Potent D j → s.Potent D j ∨ j = i)
    (hrelease : ∀ l, op = .release l → ∀ j, ¬ t.Potent D j)
    (hcalls : ∀ j op call, t.phase j = .calling op call →
      s.phase j = .calling op call ∨ ∃ r, call = .replied r)
    (hrel : ∀ j, s.phase j = .ended → t.phase j = .ended)
    (hset : ∀ j, (s.phase j).Maintained → (t.phase j).Maintained)
    (hlast : ∀ j r, (t.phase j).result = some r → (s.phase j).result = some r) : t.Exclusive D := by
  have hhome : ∀ j, t.Potent D j → D.home j = D.home i := by
    intro j hj
    rcases hpot j hj with hj | rfl
    · exact h.home_of_accepts hs ha hj
    · rfl
  refine ⟨?_, ?_, ?_, ?_, ?_, ?_, ?_, ?_, ?_⟩
  · intro j hj
    refine ⟨_, by rw [hserver]; rfl, ?_⟩
    rw [hhome j hj]
    exact hs.1 fun l hl => hrelease l hl j hj
  · intro r v t₀ o ho hst hv
    rw [hobs] at ho
    rw [hserver] at hst
    cases hst
    exact absurd hv (Nat.ne_of_gt (h.bounded r v t₀ ho))
  · intro r v t₀ ho
    rw [hobs] at ho
    rw [hserver]
    exact Nat.lt_succ_of_lt (h.bounded r v t₀ ho)
  · intro j op' call hc
    rcases hcalls j op' call hc with hc | ⟨r, rfl⟩
    · exact (h.calls j op' call hc).put hserver htime
    · trivial
  · intro j op' w' hw
    rw [horph] at hw
    exact (h.orphaned j op' w' hw).put hserver
  · intro j l w' hw
    rw [horph] at hw
    exact hrel j (h.released j l w' hw)
  · intro j hj
    rw [hvalid, hdl]
    exact h.settled j fun hm => hj (hset j hm)
  · intro j r l hr
    exact h.lasting j r l (hlast j r hr)
  · rw [hdl]
    exact h.spans

end Fleet

end EdgionCenter
