import EdgionCenter.Lease.Coordinator
import EdgionCenter.Lib.Run
import Mathlib.Data.List.Pairwise

/-! Concurrent coordinator calls on one Lease, interleaved at single API calls. -/
namespace EdgionCenter

open Coordinator Function Transition Versioned

inductive LeaseOp
  | acquire
  | renew (l : Leadership)
  | release (l : Leadership)
  deriving DecidableEq

/-- The leadership a renew or a release carries. -/
def LeaseOp.Carries : LeaseOp → Leadership → Prop
  | .acquire, _ => False
  | .renew l, l' => l = l'
  | .release l, l' => l = l'

inductive Returned
  | acquired (l : Leadership)
  | renewal (outcome : RenewalOutcome)
  | release (outcome : ReleaseOutcome)
  | failed (error : CoreError)
  deriving DecidableEq

/-- The call has told its caller that it holds, still holds, or has given up the role. -/
def Returned.Success : Returned → Prop
  | .acquired _ | .renewal (.renewed _) | .release .released => True
  | _ => False

def Round.map {ρ σ : Type} (f : ρ → σ) : Round ρ → Round σ
  | .fail e => .fail e
  | .finish r => .finish (f r)
  | .write w r => .write w (f r)

/-- One round of any of the three loops. -/
def Coordinator.round (c : Coordinator) (role : CoordinationRole) (op : LeaseOp)
    (observation : Option LeaseObservation) (now : Nat) (wall : Int) (token : String)
    (got : Option (Object Lease)) : Option LeaseObservation × Round Returned :=
  match op with
  | .acquire =>
    ((c.acquireRound role observation now wall token got).1,
      (c.acquireRound role observation now wall token got).2.map .acquired)
  | .renew l => (observation, (c.renewRound l wall got).map .renewal)
  | .release l => (observation, (c.releaseRound l wall got).map .release)

/-- The error of a loop that conflicted in every round. -/
def LeaseOp.exhausted (role : CoordinationRole) : LeaseOp → CoreError
  | .acquire => .conflict ("coordination role " ++ debugStr (roleKey role) ++
      " remained conflicted after " ++ toString maxConflictRetries ++ " attempts")
  | .renew _ => .conflict ("coordination role " ++ debugStr (roleKey role) ++
      " renewal remained conflicted")
  | .release _ => .conflict ("coordination role " ++ debugStr (roleKey role) ++
      " release remained conflicted")

/-- `left` counts the rounds still allowed, the present one included. -/
inductive Phase
  | reading (left now : Nat) (wall : Int) (token : String)
  | writing (left : Nat) (w : Write Lease) (result : Returned)
  | done (result : Returned)

structure Call where
  coordinator : Nat
  op : LeaseOp
  phase : Phase

/-- A committed write, with the fencing epoch before and after it. -/
structure Commit where
  call : Nat
  op : LeaseOp
  before : Nat
  after : Nat

/-- The Lease, what each coordinator remembers of it, the calls, and the writes so far, newest
first. The log is only an observation: no step reads it. -/
structure Leases where
  server : Server Lease
  observations : Nat → Option LeaseObservation
  calls : Nat → Option Call
  log : List Commit

/-- The committed fencing epoch; 0 while there is no Lease, or none with an epoch. -/
def committedEpoch (server : Server Lease) : Nat :=
  match server.stored with
  | none => 0
  | some o => o.value.epoch.toOption.getD 0

namespace Leases

def setCall (s : Leases) (i : Nat) (call : Call) : Leases :=
  { s with calls := update s.calls i (some call) }

/-- The server takes the write of call `i`. -/
def commit (s : Leases) (i : Nat) (op : LeaseOp) (v : Lease) : Leases :=
  { s with
    server := s.server.put v
    log := ⟨i, op, committedEpoch s.server, committedEpoch (s.server.put v)⟩ :: s.log }

def observe (s : Leases) (c : Nat) (observation : Option LeaseObservation) : Leases :=
  { s with observations := update s.observations c observation }

end Leases

/-- How a call goes on after a round. -/
def Round.phase (left : Nat) : Round Returned → Phase
  | .fail e => .done (.failed e)
  | .finish r => .done r
  | .write w r => .writing left w r

section System

variable (coordinators : Nat → Coordinator) (role : CoordinationRole)

/-- The steps of the calls; the label is the call. Beside the answers of a server that works, a
call may fail on any request, and the reply to an accepted write may get lost. -/
inductive LeaseStep : Leases → Nat → Leases → Prop
  | start {s : Leases} {i : Nat} (h : s.calls i = none) (c : Nat) (op : LeaseOp)
      (hrole : ∀ l, op.Carries l → l.role = role) (now : Nat) (wall : Int) (token : String) :
      LeaseStep s i (s.setCall i ⟨c, op, .reading maxConflictRetries now wall token⟩)
  | get {s : Leases} {i c : Nat} {op : LeaseOp} {left now : Nat} {wall : Int} {token : String}
      (h : s.calls i = some ⟨c, op, .reading left now wall token⟩)
      {observation : Option LeaseObservation} {round : Round Returned}
      (hr : (coordinators c).round role op (s.observations c) now wall token s.server.stored =
        (observation, round)) :
      LeaseStep s i ((s.observe c observation).setCall i ⟨c, op, round.phase left⟩)
  | accept {s : Leases} {i c : Nat} {op : LeaseOp} {left : Nat} {w : Write Lease} {r : Returned}
      (h : s.calls i = some ⟨c, op, .writing left w r⟩) (ha : s.server.Accepts w) :
      LeaseStep s i ((s.commit i op w.value).setCall i ⟨c, op, .done r⟩)
  | conflict {s : Leases} {i c : Nat} {op : LeaseOp} {left : Nat} {w : Write Lease} {r : Returned}
      (h : s.calls i = some ⟨c, op, .writing (left + 1) w r⟩) (ha : ¬ s.server.Accepts w)
      (now : Nat) (wall : Int) (token : String) :
      LeaseStep s i (s.setCall i ⟨c, op,
        if left = 0 then .done (.failed (op.exhausted role)) else .reading left now wall token⟩)
  | replyLost {s : Leases} {i c : Nat} {op : LeaseOp} {left : Nat} {w : Write Lease} {r : Returned}
      (h : s.calls i = some ⟨c, op, .writing left w r⟩) (ha : s.server.Accepts w)
      (message : String) :
      LeaseStep s i ((s.commit i op w.value).setCall i ⟨c, op, .done (.failed (.adapter message))⟩)
  | error {s : Leases} {i c : Nat} {op : LeaseOp} {phase : Phase}
      (h : s.calls i = some ⟨c, op, phase⟩) (hp : ∀ r, phase ≠ .done r) (message : String) :
      LeaseStep s i (s.setCall i ⟨c, op, .done (.failed (.adapter message))⟩)

end System

section Invariant

variable {coordinators : Nat → Coordinator} {role : CoordinationRole} {s t u : Leases} {i : Nat}
  {xs ys : List Nat} {server : Server Lease} {op : LeaseOp} {w : Write Lease} {r : Returned}
  {c : Coordinator} {obs obs' : Option LeaseObservation} {now : Nat} {wall : Int} {token : String}
  {got : Option (Object Lease)}

/-- How an operation moves the fencing epoch when its write is taken, and what it then returns. -/
def LeaseOp.Moves (op : LeaseOp) (r : Returned) (before after : Nat) : Prop :=
  match op with
  | .acquire => after = before + 1 ∧ ∃ l, r = .acquired l ∧ l.fencingEpoch = after
  | .renew l => after = before ∧ l.fencingEpoch = before ∧ ∃ l', r = .renewal (.renewed l')
  | .release l => after = before ∧ l.fencingEpoch = before ∧ r = .release .released

variable {after before : Nat} {l : Leadership} {ρ σ : Type} {v : Lease} {e' : Commit} {result : σ}
  {round : Round ρ} {f : ρ → σ}

theorem LeaseOp.Moves.le (h : op.Moves r before after) : before ≤ after := by
  cases op <;> simp only [LeaseOp.Moves] at h <;> omega

theorem LeaseOp.Moves.carries (h : op.Moves r before after) (hc : op.Carries l) :
    l.fencingEpoch = before := by
  cases op <;> simp_all [LeaseOp.Moves, LeaseOp.Carries]

/-- The write was computed from an epoch that is the current one whenever the write is taken. -/
def Prepared (server : Server Lease) (op : LeaseOp) (w : Write Lease) (r : Returned) : Prop :=
  ∃ before after, op.Moves r before after ∧ w.value.epoch = .ok after ∧
    match w with
    | .create _ => before = 0
    | .replace n _ => ∃ o, o.version = n ∧ server.Saw o ∧ o.value.epoch = .ok before

theorem Round.map_eq_write (h : round.map f = .write w result) :
    ∃ x, round = .write w x ∧ result = f x := by
  cases round <;> simp_all [Round.map]

theorem Round.map_eq_finish (h : round.map f = .finish result) :
    ∃ x, round = .finish x ∧ result = f x := by
  cases round <;> simp_all [Round.map]

/-- A replace that keeps the epoch of a Lease owned under `l`. -/
theorem prepared_keep {o : Object Lease} (hm : op.Moves r l.fencingEpoch l.fencingEpoch)
    (hsaw : server.Saw o) (howns : c.owns o.value l = .ok true) (hv : v.epoch = o.value.epoch) :
    Prepared server op (.replace o.version v) r := by
  have he := (epoch_of_owns howns).2.2
  exact ⟨_, _, hm, hv.trans he, o, rfl, hsaw, he⟩

/-- A round writes what follows from the Lease it read. -/
theorem prepared_of_round (hsaw : ∀ o, got = some o → server.Saw o)
    (h : c.round role op obs now wall token got = (obs', .write w r)) : Prepared server op w r := by
  cases op with
  | acquire =>
    obtain ⟨l, hl, rfl⟩ := Round.map_eq_write (Prod.ext_iff.1 h).2
    rcases acquireRound_write (Prod.ext rfl hl) with
      ⟨hnone, rfl, rfl⟩ | ⟨o, e, ho, he, hlt, -, rfl, rfl⟩
    · exact ⟨0, 1, ⟨rfl, _, rfl, rfl⟩, epoch_acquiredLease (by decide), rfl⟩
    · exact ⟨e, e + 1, ⟨rfl, _, rfl, rfl⟩, epoch_acquiredLease hlt,
        o, rfl, hsaw o ho, he⟩
  | renew l =>
    obtain ⟨x, hx, rfl⟩ := Round.map_eq_write (Prod.ext_iff.1 h).2
    obtain ⟨o, v, ho, howns, rfl, hann, -, rfl⟩ := renewRound_write hx
    exact prepared_keep ⟨rfl, rfl, _, rfl⟩ (hsaw o ho) howns
      (Lease.epoch_congr (by simp [Lease.annotation, hann]))
  | release l =>
    obtain ⟨x, hx, rfl⟩ := Round.map_eq_write (Prod.ext_iff.1 h).2
    obtain ⟨o, v, ho, howns, rfl, hann, -, rfl⟩ := releaseRound_write hx
    refine prepared_keep ⟨rfl, rfl, rfl⟩ (hsaw o ho) howns (Lease.epoch_congr ?_)
    cases ha : o.value.annotations <;>
      simp [Lease.annotation, hann, ha, Std.ExtTreeMap.getElem?_erase, tokenAnnotation,
        epochAnnotation]

/-- A round that ends without a write does not end in success. -/
theorem not_success_of_round (h : c.round role op obs now wall token got = (obs', .finish r)) :
    ¬ r.Success := by
  cases op with
  | acquire =>
    obtain ⟨l, hl, -⟩ := Round.map_eq_finish (Prod.ext_iff.1 h).2
    exact absurd hl acquireRound_ne_finish
  | renew l =>
    obtain ⟨x, hx, rfl⟩ := Round.map_eq_finish (Prod.ext_iff.1 h).2
    simp [renewRound_finish hx, Returned.Success]
  | release l =>
    obtain ⟨x, hx, rfl⟩ := Round.map_eq_finish (Prod.ext_iff.1 h).2
    simp [releaseRound_finish hx, Returned.Success]

/-- A round goes on with what was observed, or starts to watch the version it has read. -/
theorem round_observation {round : Round Returned}
    (h : c.round role op obs now wall token got = (obs', round)) :
    obs = obs' ∨ ∃ o, op = .acquire ∧ got = some o ∧ (∀ t₀, obs ≠ some (o.version, t₀)) ∧
      some (o.version, now) = obs' := by
  have hobs := (Prod.ext_iff.1 h).1
  cases op with
  | acquire =>
    refine (acquireRound_observation hobs).imp_right ?_
    rintro ⟨o, hgot, hfirst, hnew⟩
    exact ⟨o, rfl, hgot, hfirst, hnew⟩
  | renew l | release l => exact .inl hobs

theorem Prepared.put (h : Prepared server op w r) : Prepared (server.put v) op w r := by
  obtain ⟨before, after, hm, he, hr⟩ := h
  refine ⟨before, after, hm, he, ?_⟩
  cases w with
  | create v => exact hr
  | replace n v =>
    obtain ⟨o, hn, ho, hb⟩ := hr
    exact ⟨o, hn, ho.put, hb⟩

theorem Prepared.moves (h : Prepared server op w r) (ha : server.Accepts w) :
    op.Moves r (committedEpoch server) (committedEpoch (server.put w.value)) := by
  obtain ⟨before, after, hm, he, hr⟩ := h
  have hafter : committedEpoch (server.put w.value) = after := by
    simp [committedEpoch, Server.put, he, Except.toOption]
  have hbefore : committedEpoch server = before := by
    cases w with
    | create v =>
      have hnone : server.stored = none := ha
      simpa [committedEpoch, hnone] using hr.symm
    | replace n v =>
      obtain ⟨o, rfl, ho, hb⟩ := hr
      simp [committedEpoch, ho.stored_of_accepts ha, hb, Except.toOption]
  rw [hafter, hbefore]
  exact hm

/-- A write in flight is prepared, and a success is in the log under its call. -/
def Leases.Justified (s : Leases) (i : Nat) (call : Call) : Prop :=
  match call.phase with
  | .reading .. => True
  | .writing _ w r => Prepared s.server call.op w r
  | .done r =>
    r.Success → ∃ e ∈ s.log, e.call = i ∧ e.op = call.op ∧ call.op.Moves r e.before e.after

structure Leases.Inv (s : Leases) : Prop where
  justified : ∀ i call, s.calls i = some call → s.Justified i call
  moves : ∀ e ∈ s.log, ∃ r, e.op.Moves r e.before e.after
  below : ∀ e ∈ s.log, e.after ≤ committedEpoch s.server
  ordered : s.log.Pairwise fun later earlier => earlier.after ≤ later.before
  finished : ∀ e ∈ s.log, ∃ c r, s.calls e.call = some ⟨c, e.op, .done r⟩

/-- A call that has not returned. -/
def Leases.Open (s : Leases) (i : Nat) : Prop := ∀ c op r, s.calls i ≠ some ⟨c, op, .done r⟩

/-- What a step that commits nothing may turn its call into. -/
def Phase.Idle (server : Server Lease) (op : LeaseOp) : Phase → Prop
  | .reading .. => True
  | .writing _ w r => Prepared server op w r
  | .done r => ¬ r.Success

/-- A step either leaves the Lease alone, or commits the write its call has prepared. -/
theorem LeaseStep.effect (h : LeaseStep coordinators role s i t) : s.Open i ∧
    ((t.server = s.server ∧ t.log = s.log ∧ ∃ call : Call,
        t.calls = update s.calls i (some call) ∧ call.phase.Idle s.server call.op) ∨
      ∃ c op left w r r', s.calls i = some ⟨c, op, .writing left w r⟩ ∧ s.server.Accepts w ∧
        t.server = s.server.put w.value ∧
        t.log = ⟨i, op, committedEpoch s.server, committedEpoch t.server⟩ :: s.log ∧
        t.calls = update s.calls i (some ⟨c, op, .done r'⟩) ∧
        (r' = r ∨ ¬ r'.Success)) := by
  cases h with
  | start h c op hrole now wall token =>
    exact ⟨by simp [Leases.Open, h], .inl ⟨rfl, rfl, _, rfl, trivial⟩⟩
  | @get c op left now wall token h observation round hr =>
    refine ⟨by simp [Leases.Open, h], .inl ⟨rfl, rfl, _, rfl, ?_⟩⟩
    cases round with
    | fail e => exact id
    | finish r => exact not_success_of_round hr
    | write w r => exact prepared_of_round (fun _ => Server.saw_of_get) hr
  | accept h ha =>
    exact ⟨by simp [Leases.Open, h], .inr ⟨_, _, _, _, _, _, h, ha, rfl, rfl, rfl, .inl rfl⟩⟩
  | @conflict c op left w r h ha now wall token =>
    refine ⟨by simp [Leases.Open, h], .inl ⟨rfl, rfl, _, rfl, ?_⟩⟩
    by_cases hl : left = 0 <;> simp [hl, Phase.Idle, Returned.Success]
  | replyLost h ha message =>
    exact ⟨by simp [Leases.Open, h], .inr ⟨_, _, _, _, _, _, h, ha, rfl, rfl, rfl, .inr id⟩⟩
  | error h hp message =>
    refine ⟨?_, .inl ⟨rfl, rfl, _, rfl, id⟩⟩
    intro c op r he
    exact hp r (by simp_all)

variable {call : Call} {e : Commit}

theorem Leases.Justified.quiet (h : s.Justified i call) (hs : t.server = s.server)
    (hl : t.log = s.log) : t.Justified i call := by
  simpa only [Leases.Justified, hs, hl] using h

theorem Leases.Justified.committed (h : s.Justified i call) (hs : t.server = s.server.put v)
    (hl : t.log = e :: s.log) : t.Justified i call := by
  obtain ⟨c, op, phase⟩ := call
  cases phase with
  | reading => trivial
  | writing left w r =>
    have hp : Prepared s.server op w r := h
    show Prepared t.server op w r
    rw [hs]
    exact hp.put
  | done r =>
    intro hr
    obtain ⟨e, he, h'⟩ := h hr
    exact ⟨e, by simp [hl, he], h'⟩

theorem inv_step (hi : s.Inv) (h : LeaseStep coordinators role s i t) : t.Inv := by
  obtain ⟨hopen, ⟨hs, hl, call, hc, hidle⟩ | ⟨c, op, left, w, r, r', hw, ha, hs, hl, hc, hr⟩⟩ :=
    h.effect
  · refine ⟨?_, hl ▸ hi.moves, hl ▸ hs ▸ hi.below, hl ▸ hi.ordered, ?_⟩
    · intro j call' hj
      by_cases hij : j = i
      · subst hij
        obtain rfl : call = call' := by simpa [hc] using hj
        obtain ⟨c, op, phase⟩ := call
        cases phase with
        | reading => trivial
        | writing left w r =>
          show Prepared t.server op w r
          rw [hs]
          exact hidle
        | done r => exact fun hr => absurd hr hidle
      · exact (hi.justified j call' (by simpa [hc, hij] using hj)).quiet hs hl
    · intro e he
      obtain ⟨c, r, hd⟩ := hi.finished e (hl ▸ he)
      have : e.call ≠ i := fun hei => hopen _ _ _ (hei ▸ hd)
      exact ⟨c, r, by simpa [hc, this] using hd⟩
  · have hm : op.Moves r (committedEpoch s.server) (committedEpoch t.server) := by
      rw [hs]
      exact Prepared.moves (hi.justified i _ hw) ha
    refine ⟨?_, ?_, ?_, ?_, ?_⟩
    · intro j call' hj
      by_cases hij : j = i
      · subst hij
        obtain rfl : (⟨c, op, .done r'⟩ : Call) = call' := by simpa [hc] using hj
        intro hsucc
        rcases hr with rfl | hr
        · exact ⟨_, hl ▸ List.mem_cons_self .., rfl, rfl, hm⟩
        · exact absurd hsucc hr
      · exact (hi.justified j call' (by simpa [hc, hij] using hj)).committed hs hl
    · rw [hl, List.forall_mem_cons]
      exact ⟨⟨r, hm⟩, hi.moves⟩
    · rw [hl, List.forall_mem_cons]
      exact ⟨le_rfl, fun e he => (hi.below e he).trans hm.le⟩
    · rw [hl, List.pairwise_cons]
      exact ⟨hi.below, hi.ordered⟩
    · rw [hl, List.forall_mem_cons]
      refine ⟨⟨c, r', by simp [hc]⟩, ?_⟩
      intro e he
      obtain ⟨c', r'', hd⟩ := hi.finished e he
      have : e.call ≠ i := fun hei => hopen _ _ _ (hei ▸ hd)
      exact ⟨c', r'', by simpa [hc, this] using hd⟩

theorem inv_run (h : Run (LeaseStep coordinators role) s xs t) (hi : s.Inv) : t.Inv :=
  h.invariant (fun _ _ _ => inv_step) hi

/-- Before any call: the Lease may hold anything, or be absent. -/
structure Leases.Fresh (s : Leases) : Prop where
  calls : ∀ i, s.calls i = none
  log : s.log = []

theorem Leases.Fresh.inv (h : s.Fresh) : s.Inv := by
  constructor <;> simp [h.log, h.calls]

theorem log_run (h : Run (LeaseStep coordinators role) s xs t) : ∃ new, t.log = new ++ s.log := by
  refine h.related (R := fun s t : Leases => ∃ new, t.log = new ++ s.log) (fun _ => ⟨[], rfl⟩) ?_ ?_
  · rintro s t u ⟨new, ht⟩ ⟨new', hu⟩
    exact ⟨new' ++ new, by simp [hu, ht]⟩
  · intro s i t hst
    obtain ⟨-, ⟨-, hl, -⟩ | ⟨_, _, _, _, _, _, -, -, -, hl, -⟩⟩ := hst.effect
    · exact ⟨[], hl⟩
    · exact ⟨[_], hl⟩

/-- A call that has returned stays as it is. -/
theorem done_run {c : Nat} (h : Run (LeaseStep coordinators role) s xs t)
    (hd : s.calls i = some ⟨c, op, .done r⟩) : t.calls i = some ⟨c, op, .done r⟩ := by
  refine h.invariant (P := fun s : Leases => s.calls i = some ⟨c, op, .done r⟩) ?_ hd
  intro s j t hs hst
  obtain ⟨hopen, ⟨-, -, _, hc, -⟩ | ⟨_, _, _, _, _, _, -, -, -, -, hc, -⟩⟩ := hst.effect <;>
  · have hij : i ≠ j := fun hij => hopen _ _ _ (hij ▸ hs)
    simpa [hc, hij] using hs

/-- What a single committed write does to the epoch. -/
theorem epoch_step (hi : s.Inv) (h : LeaseStep coordinators role s i t) :
    (t.log = s.log ∧ t.server = s.server) ∨
    ∃ op, t.log = ⟨i, op, committedEpoch s.server, committedEpoch t.server⟩ :: s.log ∧
      (op = .acquire → committedEpoch s.server < committedEpoch t.server) ∧
      (op ≠ .acquire → committedEpoch t.server = committedEpoch s.server) := by
  obtain ⟨-, ⟨hs, hl, -⟩ | ⟨c, op, left, w, r, r', hw, ha, hs, hl, -⟩⟩ := h.effect
  · exact .inl ⟨hl, hs⟩
  · have hm : op.Moves r (committedEpoch s.server) (committedEpoch t.server) := by
      rw [hs]
      exact Prepared.moves (hi.justified i _ hw) ha
    refine .inr ⟨op, hl, ?_, ?_⟩
    · rintro rfl
      have := hm.1
      omega
    · intro hop
      cases op with
      | acquire => exact absurd rfl hop
      | renew l | release l => exact hm.1

theorem Leases.Inv.before_or_after (hi : s.Inv) (he : e ∈ s.log) (he' : e' ∈ s.log) (hne : e ≠ e') :
    e.after ≤ e'.before ∨ e'.after ≤ e.before := by
  have : Std.Symm fun a b : Commit => a.after ≤ b.before ∨ b.after ≤ a.before :=
    ⟨fun _ _ => Or.symm⟩
  have hp : s.log.Pairwise fun a b => a.after ≤ b.before ∨ b.after ≤ a.before :=
    hi.ordered.imp Or.inr
  exact hp.forall he he' hne

/-- Two calls that both got the role got it under different epochs. -/
theorem acquired_ne {j ci cj : Nat} {li lj : Leadership} (hi : s.Inv) (hij : i ≠ j)
    (h : s.calls i = some ⟨ci, .acquire, .done (.acquired li)⟩)
    (h' : s.calls j = some ⟨cj, .acquire, .done (.acquired lj)⟩) :
    li.fencingEpoch ≠ lj.fencingEpoch := by
  obtain ⟨e, he, rfl, -, hm, _, hl, heq⟩ := hi.justified _ _ h trivial
  obtain ⟨e', he', rfl, -, hm', _, hl', heq'⟩ := hi.justified _ _ h' trivial
  cases hl
  cases hl'
  have hne : e ≠ e' := fun h => hij (congrArg _ h)
  rcases hi.before_or_after he he' hne with h | h <;> omega

/-- No write made since an epoch was committed carries a smaller one. -/
theorem carried_ge {new : List Commit} (hi : s.Inv) (hl : s.log = new ++ t.log) (he : e ∈ t.log)
    (he' : e' ∈ new) (hc : e'.op.Carries l) : e.after ≤ l.fencingEpoch := by
  obtain ⟨r, hm⟩ := hi.moves e' (by simp [hl, he'])
  have ho := hi.ordered
  rw [hl, List.pairwise_append] at ho
  have := ho.2.2 e' he' e he
  rwa [hm.carries hc]

variable (coordinators role s op now wall token) in
/-- A call that nobody interferes with gets its write through. -/
theorem undisturbed_run (i n : Nat) (hc : s.calls i = none)
    (hrole : ∀ l, op.Carries l → l.role = role)
    (hr : (coordinators n).round role op (s.observations n) now wall token s.server.stored =
      (obs, .write w r)) (ha : s.server.Accepts w) :
    ∃ t, Run (LeaseStep coordinators role) s [i, i, i] t ∧ t.server = s.server.put w.value ∧
      t.log = ⟨i, op, committedEpoch s.server, committedEpoch (s.server.put w.value)⟩ :: s.log ∧
      t.calls = update s.calls i (some ⟨n, op, .done r⟩) ∧
      t.observations = update s.observations n obs := by
  let s₁ := s.setCall i ⟨n, op, .reading maxConflictRetries now wall token⟩
  let s₂ := (s₁.observe n obs).setCall i ⟨n, op, .writing maxConflictRetries w r⟩
  let s₃ := (s₂.commit i op w.value).setCall i ⟨n, op, .done r⟩
  have h₁ : LeaseStep coordinators role s i s₁ := .start hc n op hrole now wall token
  have h₂ : LeaseStep coordinators role s₁ i s₂ :=
    LeaseStep.get (s := s₁) (update_self ..) hr
  have h₃ : LeaseStep coordinators role s₂ i s₃ := .accept (update_self ..) ha
  refine ⟨s₃, .step h₁ (.step h₂ (.step h₃ (.refl s₃))), rfl, rfl, ?_, rfl⟩
  simp [s₁, s₂, s₃, Leases.setCall, Leases.observe, Leases.commit]

def centerA : Coordinator := ⟨"center-a", 15 * 10 ^ 9⟩

def emptyLeases : Leases where
  server := .empty
  observations := fun _ => none
  calls := fun _ => none
  log := []

/-- A replica acquires and, after a reconnect, acquires again: epochs 1 and 2. -/
theorem reacquire_run : ∃ t, Run (LeaseStep (fun _ => centerA) (.controllerOwner "edge-1"))
    emptyLeases [0, 0, 0, 1, 1, 1] t ∧ t.log = [⟨1, .acquire, 1, 2⟩, ⟨0, .acquire, 0, 1⟩] := by
  obtain ⟨s, h, hs, hl, hc, ho⟩ := undisturbed_run (fun _ => centerA) (.controllerOwner "edge-1")
    emptyLeases .acquire 0 0 "t0" 0 0 rfl (by simp [LeaseOp.Carries]) rfl rfl
  obtain ⟨t, h', -, hl', -⟩ := undisturbed_run (fun _ => centerA) (.controllerOwner "edge-1")
    s .acquire 0 0 "t1" 1 0 (by simp [hc, emptyLeases]) (by simp [LeaseOp.Carries])
    (by rw [hs, ho]; rfl) (by rw [hs]; exact ⟨_, rfl, rfl⟩)
  refine ⟨t, h.append h', ?_⟩
  rw [hl', hl, hs]
  rfl

/-- Every committed acquire raises the epoch and every other committed write keeps it; successful
acquires have distinct epochs; and once an epoch is committed, no renew or release that carries a
smaller one writes or succeeds any more. -/
theorem lease_fencing (h0 : s.Fresh) (h : Run (LeaseStep coordinators role) s xs t) :
    (∀ i u, LeaseStep coordinators role t i u →
      (u.log = t.log ∧ u.server = t.server) ∨
      ∃ op, u.log = ⟨i, op, committedEpoch t.server, committedEpoch u.server⟩ :: t.log ∧
        (op = .acquire → committedEpoch t.server < committedEpoch u.server) ∧
        (op ≠ .acquire → committedEpoch u.server = committedEpoch t.server)) ∧
    (∀ i j ci cj li lj, i ≠ j → t.calls i = some ⟨ci, .acquire, .done (.acquired li)⟩ →
      t.calls j = some ⟨cj, .acquire, .done (.acquired lj)⟩ →
      li.fencingEpoch ≠ lj.fencingEpoch) ∧
    ∀ e ∈ t.log, e.op = .acquire → ∀ ys u, Run (LeaseStep coordinators role) t ys u →
      ∃ new, u.log = new ++ t.log ∧ ∀ l, l.fencingEpoch < e.after →
        (∀ e' ∈ new, ¬ e'.op.Carries l) ∧
        ∀ i c op r, op.Carries l → r.Success → u.calls i = some ⟨c, op, .done r⟩ →
          t.calls i = some ⟨c, op, .done r⟩ := by
  have ht := inv_run h h0.inv
  refine ⟨fun i u hu => epoch_step ht hu, fun _ _ _ _ _ _ => acquired_ne ht, ?_⟩
  intro e he _ ys u hu
  have hiu := inv_run hu ht
  obtain ⟨new, hnew⟩ := log_run hu
  refine ⟨new, hnew, fun l hlt => ⟨?_, ?_⟩⟩
  · intro e' he' hc
    exact absurd (carried_ge hiu hnew he he' hc) (by omega)
  · intro i c op r hc hr hd
    obtain ⟨e', he', rfl, rfl, -⟩ := hiu.justified _ _ hd hr
    rw [hnew, List.mem_append] at he'
    rcases he' with he' | he'
    · exact absurd (carried_ge hiu hnew he he' hc) (by omega)
    · obtain ⟨c', r', hd'⟩ := ht.finished e' he'
      rw [hd', ← done_run hu hd', hd]

theorem lease_fencing_reacquire : ∃ t, t.log = [⟨1, .acquire, 1, 2⟩, ⟨0, .acquire, 0, 1⟩] ∧
    ∀ ys u, Run (LeaseStep (fun _ => centerA) (.controllerOwner "edge-1")) t ys u →
      ∃ new, u.log = new ++ t.log ∧ ∀ l : Leadership, l.fencingEpoch < 2 →
        ∀ e' ∈ new, ¬ e'.op.Carries l := by
  obtain ⟨t, h, hl⟩ := reacquire_run
  refine ⟨t, hl, fun ys u hu => ?_⟩
  obtain ⟨new, hnew, hstale⟩ := (lease_fencing ⟨fun _ => rfl, rfl⟩ h).2.2 ⟨1, .acquire, 1, 2⟩
    (by simp [hl]) rfl ys u hu
  exact ⟨new, hnew, fun l hlt => (hstale l hlt).1⟩

end Invariant

end EdgionCenter
