import EdgionCenter.Lib.Run
import EdgionCenter.Directory.Controller
import Mathlib.Data.String.Basic
import Mathlib.Order.Bounds.Defs

/-!
The runtime projector: what the sessions of one controller observe is coalesced in a slot, which
a worker projects into the directory. The slot map is behind one lock, so each critical section
is a step; a step of another controller touches neither this slot nor its worker.
-/
namespace EdgionCenter

/-- The session and the fence that a slot's observation belongs to. -/
def ControllerRuntimeObservation.source (o : ControllerRuntimeObservation) :
    SessionId × Option OwnershipFence :=
  (o.sessionId, o.ownershipFence)

namespace RuntimeProjector

structure RuntimeProjectionSlot where
  observation : ControllerRuntimeObservation
  generation : UInt64
  deriving DecidableEq

/-- A field that the newer observation leaves out keeps its value. -/
def merge (old new : ControllerRuntimeObservation) : ControllerRuntimeObservation :=
  { old with
    syncVersion := new.syncVersion.or old.syncVersion
    watchServerId := new.watchServerId.or old.watchServerId
    resourceCount := new.resourceCount.or old.resourceCount
    resourceCountsByKind := new.resourceCountsByKind.or old.resourceCountsByKind
    statsUpdatedUnixMs := new.statsUpdatedUnixMs.or old.statsUpdatedUnixMs
    watchUpdatedUnixMs := new.watchUpdatedUnixMs.or old.watchUpdatedUnixMs
    observedAtUnixMs := max old.observedAtUnixMs new.observedAtUnixMs }

def coalesce (old new : ControllerRuntimeObservation) : ControllerRuntimeObservation :=
  if old.source = new.source then merge old new else new

/-- `wrapping_add` is the addition of `UInt64`. -/
def RuntimeProjectionSlot.submit (slot : RuntimeProjectionSlot)
    (observation : ControllerRuntimeObservation) : RuntimeProjectionSlot :=
  ⟨coalesce slot.observation observation, slot.generation + 1⟩

/-- Where a worker is in its loop. -/
inductive Worker
  /-- Its slot is inserted and the lock released; `submit` has yet to spawn the task. -/
  | spawning
  | reading
  | projecting (observation : ControllerRuntimeObservation) (generation : UInt64)
  /-- The directory answered `Ok`, and the generation has yet to be checked. -/
  | checking (generation : UInt64)
  | backingOff
  deriving DecidableEq

/-- `projected` and `submitted` are history: the last observation that was projected with
success, and what was submitted since the slot was last inserted. -/
structure Shared where
  slot : Option RuntimeProjectionSlot
  projected : Option ControllerRuntimeObservation
  submitted : List ControllerRuntimeObservation
  deriving DecidableEq

structure Projector extends Shared where
  workers : List Worker
  deriving DecidableEq

def Projector.new : Projector := ⟨⟨none, none, []⟩, []⟩

def Projector.submit (s : Projector) (observation : ControllerRuntimeObservation) : Projector :=
  match s.slot with
  | some slot =>
    { s with slot := some (slot.submit observation), submitted := s.submitted ++ [observation] }
  | none =>
    { s with
      slot := some ⟨observation, 0⟩
      submitted := [observation]
      workers := s.workers ++ [.spawning] }

/-- One step of a worker, which is gone afterwards if it returns; `succeeds` is what becomes of
a projection (an error and a timeout are treated alike). -/
def Worker.step (succeeds : Bool) (s : Shared) : Worker → Shared × Option Worker
  | .spawning => (s, some .reading)
  | .reading => (s, s.slot.map fun slot => .projecting slot.observation slot.generation)
  | .projecting observation generation =>
    if succeeds then ({ s with projected := some observation }, some (.checking generation))
    else (s, some .backingOff)
  | .checking generation =>
    if s.slot.any (·.generation == generation) then ({ s with slot := none }, none)
    else (s, some .reading)
  | .backingOff => (s, some .reading)

inductive Action
  | submit (observation : ControllerRuntimeObservation)
  | work (succeeds : Bool)

/-- Any submission may come at any time, and any worker may take its next step. -/
inductive Step : Projector → Action → Projector → Prop
  | submit {s : Projector} (observation : ControllerRuntimeObservation) :
      Step s (.submit observation) (s.submit observation)
  | work {s : Projector} {before after : List Worker} {worker : Worker} (succeeds : Bool)
      (hworker : s.workers = before ++ worker :: after) :
      Step s (.work succeeds)
        ⟨(worker.step succeeds s.toShared).1,
          before ++ (worker.step succeeds s.toShared).2.toList ++ after⟩

def Action.observation? : Action → Option ControllerRuntimeObservation
  | .submit observation => some observation
  | .work _ => none

/-- Everything that was submitted, in this order. -/
def submissions (actions : List Action) : List ControllerRuntimeObservation :=
  actions.filterMap Action.observation?

open Transition

variable {s t : Projector} {actions : List Action} {xs : List ControllerRuntimeObservation}
  {o x : ControllerRuntimeObservation}

/-! ### What a slot holds -/

/-- The observation of a slot after these submissions to it. -/
def coalesceAll (xs : List ControllerRuntimeObservation) : Option ControllerRuntimeObservation :=
  xs.foldl (fun slot new => some (slot.elim new fun old => coalesce old new)) none

theorem coalesceAll_concat (xs : List ControllerRuntimeObservation)
    (x : ControllerRuntimeObservation) :
    coalesceAll (xs ++ [x]) = some ((coalesceAll xs).elim x fun old => coalesce old x) := by
  rw [coalesceAll, List.foldl_append]
  rfl

theorem coalesce_source (old new : ControllerRuntimeObservation) :
    (coalesce old new).source = new.source := by
  unfold coalesce
  split
  · next h => exact h
  · rfl

/-- A slot belongs to the session and the fence submitted last. -/
theorem source_of_coalesceAll (h : coalesceAll (xs ++ [x]) = some o) : o.source = x.source := by
  rw [coalesceAll_concat] at h
  cases hold : coalesceAll xs with
  | none =>
    rw [hold] at h
    cases h
    rfl
  | some old =>
    rw [hold] at h
    cases h
    exact coalesce_source old x

/-! ### What should be projected -/

/-- The submissions of a session under a fence. -/
def submittedBy (source : SessionId × Option OwnershipFence)
    (xs : List ControllerRuntimeObservation) : List ControllerRuntimeObservation :=
  xs.filter (·.source = source)

/-- The value of a field in the last of the submissions that give one. -/
def lastGiven {α : Type} (field : ControllerRuntimeObservation → Option α)
    (xs : List ControllerRuntimeObservation) : Option α :=
  xs.reverse.findSome? field

/-- The observation speaks for the source of the last submission, with the last value of each
field that this source gave and its latest time. -/
structure Carries (o : ControllerRuntimeObservation) (xs : List ControllerRuntimeObservation) :
    Prop where
  source : (xs.getLast?.map (·.source)) = some o.source
  syncVersion : o.syncVersion = lastGiven (·.syncVersion) (submittedBy o.source xs)
  watchServerId : o.watchServerId = lastGiven (·.watchServerId) (submittedBy o.source xs)
  resourceCount : o.resourceCount = lastGiven (·.resourceCount) (submittedBy o.source xs)
  resourceCountsByKind :
    o.resourceCountsByKind = lastGiven (·.resourceCountsByKind) (submittedBy o.source xs)
  statsUpdatedUnixMs :
    o.statsUpdatedUnixMs = lastGiven (·.statsUpdatedUnixMs) (submittedBy o.source xs)
  watchUpdatedUnixMs :
    o.watchUpdatedUnixMs = lastGiven (·.watchUpdatedUnixMs) (submittedBy o.source xs)
  observedAtUnixMs :
    IsGreatest {time | ∃ x ∈ submittedBy o.source xs, x.observedAtUnixMs = time} o.observedAtUnixMs

/-- No session submits after a newer one; `≤` is the order in which sessions begin. -/
def SessionsInOrder [LinearOrder SessionId] (xs : List ControllerRuntimeObservation) : Prop :=
  xs.Pairwise fun a b => a.sessionId ≤ b.sessionId

/-- A session submits under the fence it registered with. -/
def OneFence (xs : List ControllerRuntimeObservation) : Prop :=
  ∀ a ∈ xs, ∀ b ∈ xs, a.sessionId = b.sessionId → a.ownershipFence = b.ownershipFence

instance decidableOneFence (xs : List ControllerRuntimeObservation) : Decidable (OneFence xs) :=
  inferInstanceAs (Decidable (∀ a ∈ xs, ∀ b ∈ xs, _ → _))

/-- A source that was left is not taken up again. -/
def NoReturn (xs : List ControllerRuntimeObservation) : Prop :=
  ∀ ys x last, ys ++ [x] <+: xs → ys.getLast? = some last → last.source ≠ x.source →
    submittedBy x.source ys = []

theorem OneFence.source_eq {a b : ControllerRuntimeObservation} (h : OneFence xs) (ha : a ∈ xs)
    (hb : b ∈ xs) (hab : a.sessionId = b.sessionId) : a.source = b.source :=
  Prod.ext hab (h a ha b hb hab)

-- what the callers keep: sessions submit in the order they begin, each under its own fence
theorem noReturn [LinearOrder SessionId] (horder : SessionsInOrder xs) (hfence : OneFence xs) :
    NoReturn xs := by
  intro ys x last hpre hlast hne
  have hmem : ∀ y ∈ ys ++ [x], y ∈ xs := fun y hy => hpre.subset hy
  have hpairs : (ys ++ [x]).Pairwise fun a b => a.sessionId ≤ b.sessionId :=
    horder.sublist hpre.sublist
  obtain ⟨zs, rfl⟩ := List.getLast?_eq_some_iff.mp hlast
  rw [submittedBy, List.filter_eq_nil_iff]
  intro y hy hyx
  -- the last session before `x` lies between two submissions of the same session
  have hsame : y.source = x.source := of_decide_eq_true hyx
  have hylast : y.sessionId ≤ last.sessionId := by
    rcases List.mem_append.mp hy with hzs | hone
    · have := (List.pairwise_append.mp (List.pairwise_append.mp hpairs).1).2.2
      exact this y hzs last (List.mem_singleton_self last)
    · rw [List.mem_singleton.mp hone]
  have hlastx : last.sessionId ≤ x.sessionId :=
    (List.pairwise_append.mp hpairs).2.2 last (by simp) x (List.mem_singleton_self x)
  have hsession : y.sessionId = x.sessionId := congrArg Prod.fst hsame
  have heq : last.sessionId = x.sessionId := le_antisymm hlastx (hsession ▸ hylast)
  exact hne (hfence.source_eq (hmem last (by simp)) (hmem x (by simp)) heq)

theorem NoReturn.of_prefix {ys : List ControllerRuntimeObservation} (h : NoReturn xs)
    (hpre : ys <+: xs) : NoReturn ys :=
  fun zs x last hzs => h zs x last (hzs.trans hpre)

@[simp] theorem submittedBy_concat (source : SessionId × Option OwnershipFence) :
    submittedBy source (xs ++ [x]) =
      submittedBy source xs ++ if x.source = source then [x] else [] := by
  rw [submittedBy, List.filter_append, List.filter_singleton]
  simp [submittedBy]

variable {α : Type} {succeeds : Bool}

@[simp] theorem lastGiven_concat (field : ControllerRuntimeObservation → Option α) :
    lastGiven field (xs ++ [x]) = (field x).or (lastGiven field xs) := by
  rw [lastGiven, List.reverse_concat, List.findSome?_cons]
  cases field x <;> rfl

/-- What a slot coalesces of a quantity is what the submissions of its last source amount to. -/
theorem coalesceAll_amounts {value : ControllerRuntimeObservation → α}
    {P : α → List ControllerRuntimeObservation → Prop} (hone : ∀ x, P (value x) [x])
    (hmerge : ∀ old new ys, P (value old) ys → P (value (merge old new)) (ys ++ [new]))
    (hreturn : NoReturn xs) (h : coalesceAll xs = some o) :
    P (value o) (submittedBy o.source xs) := by
  induction xs using List.reverseRecOn generalizing o with
  | nil => cases h
  | append_singleton xs x ih =>
    have hsource := source_of_coalesceAll h
    rw [coalesceAll_concat] at h
    rw [hsource, submittedBy_concat, if_pos rfl]
    cases hold : coalesceAll xs with
    | none =>
      have hnil : xs = [] := by
        cases xs using List.reverseRecOn with
        | nil => rfl
        | append_singleton ys y =>
          rw [coalesceAll_concat] at hold
          cases hold
      rw [hold] at h
      cases h
      subst hnil
      exact hone x
    | some old =>
      rw [hold] at h
      cases h
      have hbefore := ih (hreturn.of_prefix (List.prefix_append xs [x])) hold
      cases xs using List.reverseRecOn with
      | nil => cases hold
      | append_singleton ys y =>
        have hlast := source_of_coalesceAll hold
        change P (value (coalesce old x)) _
        unfold coalesce
        split
        · next hsame =>
          rw [hsame] at hbefore
          exact hmerge old x _ hbefore
        · next hother =>
          have hnone := hreturn (ys ++ [y]) x y (List.prefix_refl _) (by simp) (hlast ▸ hother)
          rw [hnone, List.nil_append]
          exact hone x

theorem coalesceAll_field (field : ControllerRuntimeObservation → Option α)
    (hfield : ∀ old new, field (merge old new) = (field new).or (field old)) (hreturn : NoReturn xs)
    (h : coalesceAll xs = some o) : field o = lastGiven field (submittedBy o.source xs) := by
  apply coalesceAll_amounts (P := fun v ys => v = lastGiven field ys) _ _ hreturn h
  · intro x
    have hone : lastGiven field ([] ++ [x]) = (field x).or none := lastGiven_concat field
    rw [List.nil_append, Option.or_none] at hone
    exact hone.symm
  · intro old new ys hys
    rw [hfield, lastGiven_concat, hys]

theorem coalesceAll_time (hreturn : NoReturn xs) (h : coalesceAll xs = some o) :
    IsGreatest {time | ∃ x ∈ submittedBy o.source xs, x.observedAtUnixMs = time}
      o.observedAtUnixMs := by
  apply coalesceAll_amounts
    (P := fun v ys => IsGreatest {time | ∃ x ∈ ys, x.observedAtUnixMs = time} v) _ _ hreturn h
  · intro x
    refine ⟨⟨x, List.mem_singleton_self x, rfl⟩, ?_⟩
    rintro _ ⟨y, hy, rfl⟩
    rw [List.mem_singleton.mp hy]
  · rintro old new ys ⟨⟨y, hy, hyold⟩, hbound⟩
    constructor
    · rcases max_choice old.observedAtUnixMs new.observedAtUnixMs with hmax | hmax
      · exact ⟨y, by simp [hy], hyold.trans hmax.symm⟩
      · exact ⟨new, by simp, hmax.symm⟩
    · rintro _ ⟨z, hz, rfl⟩
      rcases List.mem_append.mp hz with hz | hz
      · exact (hbound ⟨z, hz, rfl⟩).trans (le_max_left _ _)
      · rw [List.mem_singleton.mp hz]
        exact le_max_right _ _

theorem carries_of_coalesceAll (hreturn : NoReturn xs) (h : coalesceAll xs = some o) :
    Carries o xs where
  source := by
    cases xs using List.reverseRecOn with
    | nil => cases h
    | append_singleton xs x => simp [source_of_coalesceAll h]
  syncVersion := coalesceAll_field (·.syncVersion) (fun _ _ => rfl) hreturn h
  watchServerId := coalesceAll_field (·.watchServerId) (fun _ _ => rfl) hreturn h
  resourceCount := coalesceAll_field (·.resourceCount) (fun _ _ => rfl) hreturn h
  resourceCountsByKind := coalesceAll_field (·.resourceCountsByKind) (fun _ _ => rfl) hreturn h
  statsUpdatedUnixMs := coalesceAll_field (·.statsUpdatedUnixMs) (fun _ _ => rfl) hreturn h
  watchUpdatedUnixMs := coalesceAll_field (·.watchUpdatedUnixMs) (fun _ _ => rfl) hreturn h
  observedAtUnixMs := coalesceAll_time hreturn h

/-! ### Slots and workers -/

/-- The observation and the generation of a slot at some time since it was inserted. -/
def Snapshot (xs : List ControllerRuntimeObservation) (o : ControllerRuntimeObservation)
    (generation : UInt64) : Prop :=
  ∃ n ≤ xs.length, generation + 1 = UInt64.ofNat n ∧ coalesceAll (xs.take n) = some o

/-- What a worker knows of the slot it serves. -/
def Worker.Knows (s : Shared) : Worker → Prop
  | .projecting observation generation => Snapshot s.submitted observation generation
  | .checking generation => ∃ o, s.projected = some o ∧ Snapshot s.submitted o generation
  | _ => True

/-- The slot sums up what was submitted since it was inserted. -/
structure Holds (s : Shared) (slot : RuntimeProjectionSlot) : Prop where
  observation : coalesceAll s.submitted = some slot.observation
  generation : slot.generation + 1 = UInt64.ofNat s.submitted.length

/-- No slot and no worker, or a slot and the one worker that serves it. -/
inductive Served (s : Projector) : Prop
  | idle (hslot : s.slot = none) (hworkers : s.workers = [])
  | busy {slot : RuntimeProjectionSlot} {worker : Worker} (hslot : s.slot = some slot)
      (hworkers : s.workers = [worker]) (hholds : Holds s.toShared slot)
      (hknows : worker.Knows s.toShared)

theorem Snapshot.concat {generation : UInt64} (h : Snapshot xs o generation)
    (x : ControllerRuntimeObservation) : Snapshot (xs ++ [x]) o generation := by
  obtain ⟨n, hn, hgeneration, htake⟩ := h
  refine ⟨n, by simp; omega, hgeneration, ?_⟩
  rw [List.take_append_of_le_length hn]
  exact htake

variable {slot : RuntimeProjectionSlot} {worker : Worker}

theorem Holds.snapshot {s : Shared} (h : Holds s slot) :
    Snapshot s.submitted slot.observation slot.generation :=
  ⟨s.submitted.length, le_rfl, h.generation, by rw [List.take_length, h.observation]⟩

/-- Of fewer than 2^64 submissions, a snapshot with the slot's generation has seen them all. -/
theorem Holds.coalesceAll_of_snapshot {s : Shared} (h : Holds s slot)
    (hcount : s.submitted.length < UInt64.size) (hsnapshot : Snapshot s.submitted o slot.generation) :
    coalesceAll s.submitted = some o := by
  obtain ⟨n, hn, hgeneration, htake⟩ := hsnapshot
  have hsame : UInt64.ofNat n = UInt64.ofNat s.submitted.length :=
    hgeneration.symm.trans h.generation
  have hlength : n = s.submitted.length := by
    have := congrArg UInt64.toNat hsame
    rwa [UInt64.toNat_ofNat_of_lt' (hn.trans_lt hcount), UInt64.toNat_ofNat_of_lt' hcount] at this
  rwa [hlength, List.take_length] at htake

theorem Served.submit (h : Served s) (x : ControllerRuntimeObservation) : Served (s.submit x) := by
  unfold Projector.submit
  cases h with
  | idle hslot hworkers =>
    rw [hslot]
    exact @Served.busy _ ⟨x, 0⟩ .spawning rfl (by rw [hworkers]; rfl) ⟨rfl, rfl⟩ trivial
  | @busy slot worker hslot hworkers hholds hknows =>
    rw [hslot]
    refine .busy rfl hworkers ⟨?_, ?_⟩ ?_
    · rw [coalesceAll_concat, hholds.observation]
      rfl
    · simp [RuntimeProjectionSlot.submit, hholds.generation, UInt64.ofNat_add]
    · cases worker with
      | projecting observation generation => exact Snapshot.concat hknows x
      | checking generation =>
        obtain ⟨o, hprojected, hsnapshot⟩ := hknows
        exact ⟨o, hprojected, hsnapshot.concat x⟩
      | _ => trivial

/-- The one worker's step keeps its slot served, or ends with the slot removed. -/
theorem Served.work (succeeds : Bool) (hslot : s.slot = some slot) (hholds : Holds s.toShared slot)
    (hknows : worker.Knows s.toShared) :
    Served ⟨(worker.step succeeds s.toShared).1, (worker.step succeeds s.toShared).2.toList⟩ := by
  cases worker with
  | spawning | backingOff => exact .busy hslot rfl hholds trivial
  | reading =>
    refine @Served.busy _ slot (.projecting slot.observation slot.generation) hslot ?_ hholds ?_
    · simp [Worker.step, hslot]
    · exact hholds.snapshot
  | projecting observation generation =>
    cases succeeds with
    | true => exact .busy hslot rfl ⟨hholds.observation, hholds.generation⟩ ⟨_, rfl, hknows⟩
    | false => exact .busy hslot rfl hholds trivial
  | checking generation =>
    simp only [Worker.step]
    split
    · exact .idle rfl rfl
    · exact .busy hslot rfl hholds trivial

theorem not_work_of_idle (hworkers : s.workers = []) : ¬ Step s (.work succeeds) t := by
  intro hstep
  cases hstep with
  | work _ hworker => simp [hworkers] at hworker

theorem work_alone (hworkers : s.workers = [worker]) (hstep : Step s (.work succeeds) t) :
    t = ⟨(worker.step succeeds s.toShared).1, (worker.step succeeds s.toShared).2.toList⟩ := by
  cases hstep with
  | @work before after moved _ hworker =>
    rw [hworkers] at hworker
    cases before with
    | nil =>
      cases hworker
      simp
    | cons _ _ => simp at hworker

theorem served_step (s : Projector) (a : Action) (t : Projector) (h : Served s)
    (hstep : Step s a t) : Served t := by
  cases a with
  | submit x =>
    cases hstep
    exact h.submit x
  | work succeeds =>
    cases h with
    | idle _ hworkers => exact absurd hstep (not_work_of_idle hworkers)
    | busy hslot hworkers hholds hknows =>
      rw [work_alone hworkers hstep]
      exact Served.work succeeds hslot hholds hknows

theorem served_run (h : Run Step Projector.new actions s) : Served s :=
  h.invariant served_step (.idle rfl rfl)

/-- A slot's submissions are the last ones of the run. -/
theorem submitted_suffix (h : Run Step s actions t) :
    t.submitted <:+ s.submitted ++ submissions actions := by
  induction h with
  | refl => simp [submissions]
  | @step s t u a xs hstep _ ih =>
    refine ih.trans ?_
    cases hstep with
    | submit x =>
      have hsubmissions : submissions (.submit x :: xs) = [x] ++ submissions xs := rfl
      rw [hsubmissions, ← List.append_assoc]
      unfold Projector.submit
      split
      · exact List.suffix_refl _
      · rw [List.append_assoc]
        exact List.suffix_append _ _
    | @work before after worker succeeds hworker =>
      have hkept : (worker.step succeeds s.toShared).1.submitted = s.submitted := by
        cases worker <;> simp only [Worker.step]
        all_goals split <;> rfl
      change (worker.step succeeds s.toShared).1.submitted ++ _ <:+ _
      rw [hkept]
      exact List.suffix_refl _

/-- A worker that removes its slot has projected all that was submitted to it. -/
theorem projected_of_removed (h : Served s) (hcount : s.submitted.length < UInt64.size)
    (hstep : Step s (.work succeeds) t) (hsome : s.slot ≠ none) (hremoved : t.slot = none) :
    t.projected = coalesceAll s.submitted := by
  cases h with
  | idle hslot _ => exact absurd hslot hsome
  | @busy slot worker hslot hworkers hholds hknows =>
    rw [work_alone hworkers hstep] at hremoved ⊢
    cases worker with
    | checking generation =>
      obtain ⟨o, hprojected, hsnapshot⟩ := hknows
      simp only [Worker.step, hslot, Option.any_some, beq_iff_eq] at hremoved ⊢
      split at hremoved
      · next hgeneration =>
        subst hgeneration
        rw [if_pos rfl, hholds.coalesceAll_of_snapshot hcount hsnapshot]
        exact hprojected
      · cases hslot.symm.trans hremoved
    | projecting observation generation =>
      cases succeeds <;> cases hslot.symm.trans hremoved
    | _ => cases hslot.symm.trans hremoved

theorem Served.slot_iff (h : Served s) :
    (s.slot ≠ none ↔ s.workers.length = 1) ∧ (s.slot = none ↔ s.workers = []) := by
  cases h with
  | idle hslot hworkers | busy hslot hworkers _ _ => simp [hslot, hworkers]

/-- Whatever the interleaving: a slot has exactly one worker, and when the worker removes it, the
directory was given all that the last source submitted to it, unless that source came back to the
slot after another. -/
theorem projector_loses_nothing (hrun : Run Step Projector.new actions s)
    (hcount : (submissions actions).length < UInt64.size) (hreturn : NoReturn s.submitted) :
    ((s.slot ≠ none ↔ s.workers.length = 1) ∧ (s.slot = none ↔ s.workers = [])) ∧
      ∀ succeeds t, Step s (.work succeeds) t → s.slot ≠ none → t.slot = none →
        ∃ o, t.projected = some o ∧ Carries o s.submitted := by
  have hserved := served_run hrun
  refine ⟨hserved.slot_iff, ?_⟩
  intro succeeds t hstep hsome hremoved
  have hsuffix : s.submitted <:+ submissions actions := submitted_suffix hrun
  have hprojected := projected_of_removed hserved (hsuffix.length_le.trans_lt hcount) hstep hsome
    hremoved
  cases hserved with
  | idle hslot _ => exact absurd hslot hsome
  | @busy slot _ _ _ hholds _ =>
    rw [hholds.observation] at hprojected
    exact ⟨slot.observation, hprojected, carries_of_coalesceAll hreturn hholds.observation⟩

section Example

/-- An observation of one session under a fence, with no field given. -/
def observed (fence : OwnershipFence) (time : Int) : ControllerRuntimeObservation :=
  ⟨edge1, newSession, some fence, none, none, none, none, none, none, time⟩

def versioned : ControllerRuntimeObservation :=
  { observed ⟨"first", 1⟩ 10 with syncVersion := some 5 }

def counted : ControllerRuntimeObservation :=
  { observed ⟨"first", 1⟩ 7 with resourceCount := some 3 }

/-- The next step of the first worker. -/
def Projector.work (s : Projector) (succeeds : Bool) : Projector :=
  match s.workers with
  | [] => s
  | worker :: rest =>
    ⟨(worker.step succeeds s.toShared).1, (worker.step succeeds s.toShared).2.toList ++ rest⟩

theorem Step.first {succeeds : Bool} {worker : Worker} {rest : List Worker}
    (h : s.workers = worker :: rest) : Step s (.work succeeds) (s.work succeeds) := by
  unfold Projector.work
  rw [h]
  exact @Step.work s [] rest worker succeeds h

/-- The counts come while the version is being projected. -/
def racing : Projector :=
  (((((((Projector.new.submit versioned).work true).work true).submit counted).work true).work
    true).work true).work true

/-- The generation tells the worker to go round once more, and then to remove the slot. -/
theorem projector_loses_nothing_racing : (racing.work true).slot = none ∧
      ∃ o, (racing.work true).projected = some o ∧ Carries o [versioned, counted] := by
  let _ : LinearOrder SessionId :=
    LinearOrder.lift' (fun session : SessionId => session.value) fun _ _ => Identifier.ext
  have hrun : Run Step Projector.new
      [.submit versioned, .work true, .work true, .submit counted, .work true, .work true,
        .work true, .work true] racing :=
    .step (.submit versioned) <| .step (.first rfl) <| .step (.first rfl) <|
      .step (.submit counted) <| .step (.first rfl) <| .step (.first rfl) <|
      .step (.first rfl) <| .step (.first rfl) <| .refl _
  have hreturn : NoReturn racing.submitted :=
    noReturn (List.pairwise_pair.mpr (le_refl newSession)) (by decide)
  have hcarries := (projector_loses_nothing hrun (by decide) hreturn).2
  exact ⟨rfl, hcarries true _ (.first rfl) (by decide) rfl⟩

/-- The session goes over to another fence and comes back to the first. -/
def returning : Projector :=
  ((((((Projector.new.submit versioned).submit (observed ⟨"second", 2⟩ 11)).submit
    (observed ⟨"first", 1⟩ 12)).work true).work true).work true)

/-- A session that returns to a fence it left loses the version that it gave under it. -/
theorem fence_return_loses : ∃ actions s t, Run Step Projector.new actions s ∧
      (submissions actions).length < UInt64.size ∧
      (∀ _ : LinearOrder SessionId, SessionsInOrder (submissions actions)) ∧
      Step s (.work true) t ∧ s.slot ≠ none ∧ t.slot = none ∧
      ¬ ∃ o, t.projected = some o ∧ Carries o s.submitted := by
  refine ⟨[.submit versioned, .submit (observed ⟨"second", 2⟩ 11),
    .submit (observed ⟨"first", 1⟩ 12), .work true, .work true, .work true], returning,
    returning.work true, ?_, by decide, ?_, .first rfl, by decide, rfl, ?_⟩
  · exact .step (.submit _) <| .step (.submit _) <| .step (.submit _) <| .step (.first rfl) <|
      .step (.first rfl) <| .step (.first rfl) <| .refl _
  · intro _
    change List.Pairwise _ [versioned, observed ⟨"second", 2⟩ 11, observed ⟨"first", 1⟩ 12]
    simp [versioned, observed]
  · rintro ⟨o, hprojected, hcarries⟩
    obtain rfl : observed ⟨"first", 1⟩ 12 = o := Option.some.inj hprojected
    exact absurd hcarries.syncVersion (by decide)

end Example

end RuntimeProjector
end EdgionCenter
