import EdgionCenter.Lease.Fencing

/-! Replicas that own a controller through one Lease, on a global clock. Requests and replies take
any time: a call samples its clock, its GET is served, it decides, its write is taken, and its reply
is acted upon, each at its own moment. -/
namespace EdgionCenter

open Function Versioned

/-- The replicas, where each session runs, and how the monotonic clocks differ. Holders are told
apart by their identity. Durations are configured in whole seconds, and `validate_config` asks for
at least three and for a holder that is not empty. -/
structure Deployment where
  replica : Nat → Coordinator
  home : Nat → Nat
  offset : Nat → Nat
  role : CoordinationRole
  seconds : Nat → Nat
  holder_injective : Injective fun r => (replica r).holder
  holder_nonempty : ∀ r, (replica r).holder ≠ ""
  whole : ∀ r, (replica r).leaseDuration = seconds r * 10 ^ 9
  long : ∀ r, 3 ≤ seconds r

/-- A call in progress; `now` is the clock sample the round started with. -/
inductive CallPhase
  | reading (left now : Nat) (wall : Int) (token : String)
  | read (left now : Nat) (wall : Int) (token : String) (got : Option (Object Lease))
  | writing (left : Nat) (w : Write Lease) (result : Returned)
  | replied (result : Returned)

/-- Where the ownership of a session stands. -/
inductive OwnerPhase
  | idle
  | calling (op : LeaseOp) (call : CallPhase)
  | acquired (l : Leadership)
  | registered (l : Leadership)
  | holding (l : Leadership)
  | leaving (l : Leadership)
  | ended

/-- A deadline of `maintain_ownership`, on the replica's own clock. -/
structure Deadline where
  setAt : Nat
  validFor : Nat
  deriving DecidableEq

def Deadline.expiry (d : Deadline) : Nat := d.setAt + d.validFor

/-- What a failed or timed out call leaves its session with. -/
def LeaseOp.fallback : LeaseOp → OwnerPhase
  | .acquire => .ended
  | .renew l => .holding l
  | .release _ => .ended

/-- How a session goes on after a round. -/
def Round.ownerPhase (op : LeaseOp) (left : Nat) : Round Returned → OwnerPhase
  | .fail _ => op.fallback
  | .finish r => .calling op (.replied r)
  | .write w r => .calling op (.writing left w r)

/-- `orphans` are writes whose callers have given up on them; the server may still take one. -/
structure Fleet where
  time : Nat
  server : Server Lease
  observations : Nat → Option LeaseObservation
  registry : Nat → Option Nat
  phase : Nat → OwnerPhase
  valid : Nat → Bool
  deadline : Nat → Option Deadline
  orphans : List (Nat × LeaseOp × Write Lease)

namespace Fleet

variable (D : Deployment) (s : Fleet) (i : Nat)

/-- The clock of the replica on which session `i` runs. -/
def clock : Nat := s.time + D.offset (D.home i)

@[simps] def setPhase (phase : OwnerPhase) : Fleet :=
  { s with phase := update s.phase i phase }

@[simps] def invalidate : Fleet := { s with valid := update s.valid i false }

@[simps] def put (v : Lease) : Fleet := { s with server := s.server.put v }

@[simps] def observe (observation : Option LeaseObservation) : Fleet :=
  { s with observations := update s.observations (D.home i) observation }

/-- `maintain_ownership` starts counting from now. -/
@[simps] def arm (l : Leadership) : Fleet :=
  { s with
    deadline := update s.deadline i (some ⟨s.clock D i, l.validForMillis * 10 ^ 6⟩) }

/-- `fence_owned_session`, on the replica of session `i`. -/
@[simps] def fence : Fleet :=
  { s with
    valid := match s.registry (D.home i) with
      | some j => update s.valid j false
      | none => s.valid }

@[simps] def register : Fleet :=
  { s with registry := update s.registry (D.home i) (some i) }

/-- A registered session with its flag set and its deadline ahead. -/
def Live : Prop :=
  s.registry (D.home i) = some i ∧ s.valid i = true ∧
    ∃ d, s.deadline i = some d ∧ s.clock D i < d.expiry

def AtMostOneOwner : Prop := ∀ i j, s.Live D i → s.Live D j → D.home i = D.home j

end Fleet

/-- The write a call leaves behind when it gives up. -/
def CallPhase.pending : CallPhase → Option (Write Lease)
  | .writing _ w _ => some w
  | _ => none

inductive OwnerAction
  | tick (delay : Nat)
  | start (i : Nat)
  | get (i : Nat)
  | decide (i : Nat)
  | commit (i : Nat)
  | conflict (i : Nat)
  | reply (i : Nat)
  | abandon (i : Nat)
  | late (i : Nat) (op : LeaseOp)
  | register (i : Nat)
  | arm (i : Nat)
  | giveUp (i : Nat)
  | renew (i : Nat)
  | revoke (i : Nat)
  | evict (i : Nat)
  | release (i : Nat)

section Steps

variable (D : Deployment)

inductive OwnerStep : Fleet → OwnerAction → Fleet → Prop
  | tick {s : Fleet} (delay : Nat) :
      OwnerStep s (.tick delay) { s with time := s.time + delay }
  | start {s : Fleet} (h : s.phase i = .idle) (wall : Int) (token : String) :
      OwnerStep s (.start i) ((s.fence D i).setPhase i
        (.calling .acquire (.reading maxConflictRetries (s.clock D i) wall token)))
  | get {s : Fleet} (h : s.phase i = .calling op (.reading left now wall token)) :
      OwnerStep s (.get i)
        (s.setPhase i (.calling op (.read left now wall token s.server.stored)))
  | decide {s : Fleet} {round : Round Returned}
      (h : s.phase i = .calling op (.read left now wall token got))
      (hr : (D.replica (D.home i)).round D.role op (s.observations (D.home i)) now wall token got =
        (observation, round)) :
      OwnerStep s (.decide i) ((s.observe D i observation).setPhase i (round.ownerPhase op left))
  | commit {s : Fleet} (h : s.phase i = .calling op (.writing left w r)) (ha : s.server.Accepts w) :
      OwnerStep s (.commit i) ((s.put w.value).setPhase i (.calling op (.replied r)))
  | conflict {s : Fleet} (h : s.phase i = .calling op (.writing (left + 1) w r)) (ha : ¬ s.server.Accepts w)
      (wall : Int) (token : String) :
      OwnerStep s (.conflict i) (s.setPhase i
        (if left = 0 then op.fallback
          else .calling op (.reading left (s.clock D i) wall token)))
  | replyAcquired {s : Fleet} (h : s.phase i = .calling .acquire (.replied (.acquired l))) :
      OwnerStep s (.reply i) (s.setPhase i (.acquired l))
  | replyRenewed {s : Fleet} (h : s.phase i = .calling (.renew l) (.replied (.renewal (.renewed l')))) :
      OwnerStep s (.reply i) ((s.arm D i l').setPhase i (.holding l'))
  | replyLost {s : Fleet} (h : s.phase i = .calling (.renew l) (.replied (.renewal .lost))) :
      OwnerStep s (.reply i) ((s.invalidate i).setPhase i (.leaving l))
  | replyReleased {s : Fleet} (h : s.phase i = .calling (.release l) (.replied r)) :
      OwnerStep s (.reply i) (s.setPhase i .ended)
  -- An error, or a timeout at any point; a write on its way is not called back.
  | abandon {s : Fleet} (h : s.phase i = .calling op call) :
      OwnerStep s (.abandon i) ({ s with
        orphans := call.pending.toList.map (i, op, ·) ++ s.orphans }.setPhase i op.fallback)
  | late {s : Fleet} (h : (i, op, w) ∈ s.orphans)
      (ha : s.server.Accepts w) :
      OwnerStep s (.late i op) (s.put w.value)
  | register {s : Fleet} (h : s.phase i = .acquired l) :
      OwnerStep s (.register i) ((s.register D i).setPhase i (.registered l))
  | arm {s : Fleet} (h : s.phase i = .registered l) :
      OwnerStep s (.arm i) ((s.arm D i l).setPhase i (.holding l))
  -- The projection of the registration failed.
  | giveUp {s : Fleet} (h : s.phase i = .registered l) :
      OwnerStep s (.giveUp i) (s.setPhase i (.leaving l))
  | renew {s : Fleet} (h : s.phase i = .holding l)
      (hd : s.deadline i = some d) (ht : s.clock D i < d.expiry) (wall : Int) (token : String) :
      OwnerStep s (.renew i) (s.setPhase i
        (.calling (.renew l) (.reading maxConflictRetries (s.clock D i) wall token)))
  -- Expired or cancelled.
  | revoke {s : Fleet} (h : s.phase i = .holding l) :
      OwnerStep s (.revoke i) ((s.invalidate i).setPhase i (.leaving l))
  -- An eviction clears the flag from outside.
  | evict {s : Fleet} (i : Nat) : OwnerStep s (.evict i) (s.invalidate i)
  | release {s : Fleet} (h : s.phase i = .leaving l) (wall : Int)
      (token : String) :
      OwnerStep s (.release i) (s.setPhase i
        (.calling (.release l) (.reading maxConflictRetries (s.clock D i) wall token)))

end Steps

end EdgionCenter
