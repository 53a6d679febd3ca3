import EdgionCenter.Core
import EdgionCenter.Lib.Versioned
import EdgionCenter.Text

/-! The Kubernetes Lease coordinator: what each round of `acquire`, `renew` and `release` does with
the Lease it read. The conflict loop around the rounds is the calls' own. -/
namespace EdgionCenter

open Versioned

structure LeaseSpec where
  holderIdentity : Option String
  leaseDurationSeconds : Option Int
  acquireTime : Option Int
  renewTime : Option Int
  leaseTransitions : Option Int
  deriving DecidableEq

def LeaseSpec.default : LeaseSpec := ⟨none, none, none, none, none⟩

structure Lease where
  annotations : Option (Map String)
  spec : Option LeaseSpec

def roleAnnotation : String := "center.edgion.io/coordination-role"
def tokenAnnotation : String := "center.edgion.io/fencing-token"
def epochAnnotation : String := "center.edgion.io/fencing-epoch"
def maxConflictRetries : Nat := 8

def roleKey : CoordinationRole → String
  | .controllerOwner id => "controller-owner:" ++ id
  | .maintenance name => "maintenance:" ++ name

namespace Lease

def annotation (lease : Lease) (name : String) : Option String :=
  lease.annotations.bind fun annotations => annotations[name]?

def holder (lease : Lease) : Option String := lease.spec.bind (·.holderIdentity)

def token (lease : Lease) : Option String := lease.annotation tokenAnnotation

def epoch (lease : Lease) : CoreResult Nat :=
  match lease.annotation epochAnnotation with
  | none => .ok 0
  | some text =>
    match parseU64 text with
    | some n => .ok n
    | none => .error (.conflict "Kubernetes Lease has invalid fencing epoch")

def verifyRole (lease : Lease) (key : String) : CoreResult Unit :=
  match lease.annotation roleAnnotation with
  | some stored =>
    if stored = key then .ok ()
    else .error (.conflict
      ("Kubernetes Lease name collision between " ++ debugStr stored ++ " and " ++ debugStr key))
  | none =>
    .error (.conflict "managed Kubernetes Lease omitted coordination role annotation")

end Lease

/-- How one round of a conflict loop ends: in an error, in a result without a write, or in a write
and the result to return once the server takes it. -/
inductive Round (ρ : Type)
  | fail (error : CoreError)
  | finish (result : ρ)
  | write (w : Write Lease) (result : ρ)

/-- Durations are in nanoseconds. -/
structure Coordinator where
  holder : String
  leaseDuration : Nat
  deriving DecidableEq

/-- The version a contender has been watching, and since when on its monotonic clock. -/
abbrev LeaseObservation := Nat × Nat

namespace Coordinator

variable (c : Coordinator)

def durationSeconds : Int := (c.leaseDuration / 10 ^ 9 : Nat)

def leadership (role : CoordinationRole) (token : String) (epoch : Nat) : Leadership where
  role := role
  holder := c.holder
  fencingToken := token
  fencingEpoch := epoch
  validForMillis := c.leaseDuration / 10 ^ 6

/-- Whether the Lease still counts as held, and the observation kept for the next look at it. A
version seen for the first time starts a full duration of waiting. -/
def isActive (observation : Option LeaseObservation) (lease : Object Lease) (now : Nat) :
    Bool × Option LeaseObservation :=
  match lease.value.spec with
  | none => (false, observation)
  | some spec =>
    if (spec.holderIdentity.getD "").isEmpty then (false, observation)
    else
      let duration := spec.leaseDurationSeconds.getD 0
      if duration ≤ 0 then (false, observation)
      else
        let observedAt := match observation with
          | some (seen, at_) => if seen = lease.version then at_ else now
          | none => now
        (decide (now - observedAt < duration.toNat * 10 ^ 9), some (lease.version, observedAt))

/-- The Lease an acquire writes over what it read. -/
def acquiredLease (key : String) (current : Option Lease) (now : Int) (token : String)
    (epoch : Nat) : Lease :=
  let annotations := (current.bind (·.annotations)).getD ∅
  let spec := current.bind (·.spec)
  let moved := match spec.bind (·.holderIdentity) with
    | some previous => if previous ≠ c.holder then 1 else 0
    | none => 0
  { annotations := some (((annotations.insert roleAnnotation key).insert tokenAnnotation
      token).insert epochAnnotation (toString epoch))
    spec := some
      { holderIdentity := some c.holder
        leaseDurationSeconds := some c.durationSeconds
        acquireTime := some now
        renewTime := some now
        leaseTransitions := some (min (((spec.bind (·.leaseTransitions)).getD 0) + moved)
          (2 ^ 31 - 1)) } }

/-- `now`, `wall` and `token` are taken before the Lease is read. -/
def acquireRound (role : CoordinationRole) (observation : Option LeaseObservation) (now : Nat)
    (wall : Int) (token : String) (got : Option (Object Lease)) :
    Option LeaseObservation × Round Leadership :=
  let key := roleKey role
  match got with
  | some current =>
    match current.value.verifyRole key with
    | .error e => (observation, .fail e)
    | .ok () =>
      let (active, observation) := isActive observation current now
      if active ∧ current.value.holder ≠ some c.holder then
        (observation, .fail (.conflict
          ("coordination role " ++ debugStr key ++ " is held by another replica")))
      else
        match current.value.epoch with
        | .error e => (observation, .fail e)
        | .ok epoch =>
          if epoch + 1 < 2 ^ 64 then
            (observation, .write
              (.replace current.version
                (c.acquiredLease key (some current.value) wall token (epoch + 1)))
              (c.leadership role token (epoch + 1)))
          else (observation, .fail (.conflict "Kubernetes fencing epoch exhausted"))
  | none =>
    (observation,
      .write (.create (c.acquiredLease key none wall token 1)) (c.leadership role token 1))

/-- The checks stop at the first that fails, so a foreign Lease is never asked for its epoch. -/
def owns (lease : Lease) (l : Leadership) : CoreResult Bool :=
  if lease.holder = some c.holder ∧ lease.token = some l.fencingToken then
    lease.epoch.map fun epoch => decide (epoch = l.fencingEpoch)
  else .ok false

def renewRound (l : Leadership) (wall : Int) (got : Option (Object Lease)) : Round RenewalOutcome :=
  match got with
  | none => .finish .lost
  | some current =>
    match current.value.verifyRole (roleKey l.role), c.owns current.value l with
    | .error e, _ => .fail e
    | .ok (), .error e => .fail e
    | .ok (), .ok false => .finish .lost
    | .ok (), .ok true =>
      let spec := current.value.spec.getD .default
      .write
        (.replace current.version
          { current.value with
            spec := some { spec with
              renewTime := some wall
              leaseDurationSeconds := some c.durationSeconds } })
        (.renewed (c.leadership l.role l.fencingToken l.fencingEpoch))

/-- A release gives up the holder and the token; the epoch stays. -/
def releaseRound (l : Leadership) (wall : Int) (got : Option (Object Lease)) :
    Round ReleaseOutcome :=
  match got with
  | none => .finish .lost
  | some current =>
    match current.value.verifyRole (roleKey l.role), c.owns current.value l with
    | .error e, _ => .fail e
    | .ok (), .error e => .fail e
    | .ok (), .ok false => .finish .lost
    | .ok (), .ok true =>
      let spec := current.value.spec.getD .default
      .write
        (.replace current.version
          { annotations := some ((current.value.annotations.getD ∅).erase tokenAnnotation)
            spec := some { spec with holderIdentity := none, renewTime := some wall } })
        .released

end Coordinator

theorem parseU64_repr {n : Nat} (h : n < 2 ^ 64) : parseU64 n.repr = some n := by
  have hd : ∀ c ∈ Nat.toDigits 10 n, c.isDigit := fun c hc =>
    Nat.isDigit_of_mem_toDigits (by decide) (by decide) hc
  have hplus : ∀ rest, Nat.toDigits 10 n ≠ '+' :: rest := by
    intro rest he
    have := hd '+' (by simp [he])
    contradiction
  unfold parseU64
  rw [Nat.toList_repr]
  split
  · exact absurd ‹_› (hplus _)
  · have hall : (Nat.toDigits 10 n).all Char.isDigit := List.all_eq_true.mpr hd
    simp only [hall, Nat.ofDigitChars_ten_toDigits, h, ne_eq, Nat.toDigits_ne_nil,
      not_false_eq_true, and_self, ↓reduceIte]

namespace Coordinator

variable {c : Coordinator} {key token : String} {current : Option Lease} {now wall : Int} {e : Nat}
  {l : Leadership} {w : Write Lease} {got : Option (Object Lease)}

theorem epoch_acquiredLease (h : e < 2 ^ 64) :
    (c.acquiredLease key current now token e).epoch = .ok e := by
  simp [Lease.epoch, Lease.annotation, acquiredLease, parseU64_repr h]

theorem epoch_of_owns {lease : Lease} (h : c.owns lease l = .ok true) :
    lease.holder = some c.holder ∧ lease.token = some l.fencingToken ∧
      lease.epoch = .ok l.fencingEpoch := by
  unfold owns at h
  split at h
  · rename_i hc
    cases he : lease.epoch with
    | error e => simp [he, Except.map] at h
    | ok n => simp_all [Except.map]
  · cases h

variable {role : CoordinationRole} {obs obs' : Option LeaseObservation} {r : RenewalOutcome}

/-- What an acquire is about to write, as a function of what it read. -/
theorem acquireRound_write {now : Nat}
    (h : c.acquireRound role obs now wall token got = (obs', .write w l)) :
    (got = none ∧ w = .create (c.acquiredLease (roleKey role) none wall token 1) ∧
      l = c.leadership role token 1) ∨
    ∃ o e, got = some o ∧ o.value.epoch = .ok e ∧ e + 1 < 2 ^ 64 ∧
      ((isActive obs o now).1 = false ∨ o.value.holder = some c.holder) ∧
      w = .replace o.version (c.acquiredLease (roleKey role) (some o.value) wall token (e + 1)) ∧
      l = c.leadership role token (e + 1) := by
  unfold acquireRound at h
  cases got with
  | none => simp_all
  | some o =>
    simp only at h
    split at h
    · simp at h
    · split at h
      · simp at h
      · rename_i hactive
        split at h
        · simp at h
        · rename_i e he
          split at h
          · rename_i hlt
            simp only [Prod.mk.injEq, Round.write.injEq] at h
            refine .inr ⟨o, e, rfl, he, hlt, ?_, h.2.1.symm, h.2.2.symm⟩
            by_cases ha : (isActive obs o now).1 = false
            · exact .inl ha
            · right
              by_contra hh
              exact hactive ⟨by simpa using ha, hh⟩
          · simp at h

/-- Looking at a Lease keeps the observation of its version, or starts one. -/
theorem isActive_observation (obs : Option LeaseObservation) (o : Object Lease) (now : Nat) :
    (isActive obs o now).2 = obs ∨
      (∀ t₀, obs ≠ some (o.version, t₀)) ∧ (isActive obs o now).2 = some (o.version, now) := by
  unfold isActive
  split
  · exact .inl rfl
  · split
    · exact .inl rfl
    · simp only
      split
      · exact .inl rfl
      · cases obs with
        | none => exact .inr ⟨by simp, rfl⟩
        | some seen =>
          obtain ⟨v, t₀⟩ := seen
          by_cases hv : v = o.version
          · exact .inl (by simp [hv])
          · exact .inr ⟨by simp [hv], by simp [hv]⟩

theorem acquireRound_observation {now : Nat}
    (h : (c.acquireRound role obs now wall token got).1 = obs') :
    obs = obs' ∨ ∃ o, got = some o ∧ (∀ t₀, obs ≠ some (o.version, t₀)) ∧
      some (o.version, now) = obs' := by
  cases got with
  | none => exact .inl h
  | some o =>
    cases hv : o.value.verifyRole (roleKey role) with
    | error e => exact .inl (by simpa [acquireRound, hv] using h)
    | ok =>
      have hfst : (c.acquireRound role obs now wall token (some o)).1 = (isActive obs o now).2 := by
        simp only [acquireRound, hv]
        repeat' split
        all_goals rfl
      rw [← h, hfst]
      rcases isActive_observation obs o now with hsame | ⟨hfirst, hnew⟩
      · exact .inl hsame.symm
      · exact .inr ⟨o, rfl, hfirst, hnew.symm⟩

/-- A Lease in force counts as held unless its version has been watched for the whole duration. -/
theorem elapsed_of_isActive {o : Object Lease} {now : Nat} {spec : LeaseSpec} {holder : String}
    {seconds : Nat} (hs : o.value.spec = some spec) (hh : spec.holderIdentity = some holder)
    (hne : holder ≠ "") (hd : spec.leaseDurationSeconds = some (seconds : Int)) (hpos : 0 < seconds)
    (ha : (isActive obs o now).1 = false) :
    ∃ t₀, obs = some (o.version, t₀) ∧ t₀ + seconds * 10 ^ 9 ≤ now := by
  have hempty : holder.isEmpty = false := by simpa [String.isEmpty_iff] using hne
  have hdur : ¬ (seconds : Int) ≤ 0 := by omega
  simp only [isActive, hs, hh, hd, Option.getD_some, hempty, hdur, Bool.false_eq_true, ↓reduceIte,
    Int.toNat_natCast, decide_eq_false_iff_not, Nat.not_lt] at ha
  cases obs with
  | none =>
    simp only [Nat.sub_self] at ha
    omega
  | some seen =>
    obtain ⟨v, t₀⟩ := seen
    by_cases hv : v = o.version
    · simp only [hv, ↓reduceIte] at ha
      exact ⟨t₀, by rw [hv], by omega⟩
    · simp only [hv, ↓reduceIte, Nat.sub_self] at ha
      omega

theorem leadership_validFor :
    (c.leadership role token e).validForMillis * 10 ^ 6 ≤ c.leaseDuration :=
  Nat.div_mul_le_self _ _

theorem renewRound_write (h : c.renewRound l wall got = .write w r) :
    ∃ o v, got = some o ∧ c.owns o.value l = .ok true ∧ w = .replace o.version v ∧
      v.annotations = o.value.annotations ∧
      v.spec = some { o.value.spec.getD .default with
        renewTime := some wall, leaseDurationSeconds := some c.durationSeconds } ∧
      r = .renewed (c.leadership l.role l.fencingToken l.fencingEpoch) := by
  unfold renewRound at h
  cases got with
  | none => simp at h
  | some o =>
    simp only at h
    split at h <;> simp only [reduceCtorEq, Round.write.injEq] at h
    rename_i ho
    exact ⟨o, _, rfl, ho, h.1.symm, rfl, rfl, h.2.symm⟩

theorem releaseRound_write {r : ReleaseOutcome} (h : c.releaseRound l wall got = .write w r) :
    ∃ o v, got = some o ∧ c.owns o.value l = .ok true ∧ w = .replace o.version v ∧
      v.annotations = some ((o.value.annotations.getD ∅).erase tokenAnnotation) ∧
      v.spec = some { o.value.spec.getD .default with
        holderIdentity := none, renewTime := some wall } ∧
      r = .released := by
  unfold releaseRound at h
  cases got with
  | none => simp at h
  | some o =>
    simp only at h
    split at h <;> simp only [reduceCtorEq, Round.write.injEq] at h
    rename_i ho
    exact ⟨o, _, rfl, ho, h.1.symm, rfl, rfl, h.2.symm⟩

theorem acquireRound_ne_finish
    {now : Nat} : (c.acquireRound role obs now wall token got).2 ≠ .finish l := by
  cases got with
  | none => simp [acquireRound]
  | some o =>
    cases hv : o.value.verifyRole (roleKey role) with
    | error e => simp [acquireRound, hv]
    | ok =>
      simp only [acquireRound, hv]
      repeat' split
      all_goals simp

theorem renewRound_finish (h : c.renewRound l wall got = .finish r) : r = .lost := by
  unfold renewRound at h
  cases got with
  | none => simp_all
  | some o =>
    simp only at h
    split at h <;> simp_all

theorem releaseRound_finish {r : ReleaseOutcome} (h : c.releaseRound l wall got = .finish r) :
    r = .lost := by
  unfold releaseRound at h
  cases got with
  | none => simp_all
  | some o =>
    simp only at h
    split at h <;> simp_all

end Coordinator

theorem Lease.epoch_congr {a b : Lease}
    (h : a.annotation epochAnnotation = b.annotation epochAnnotation) : a.epoch = b.epoch := by
  simp [Lease.epoch, h]

end EdgionCenter
