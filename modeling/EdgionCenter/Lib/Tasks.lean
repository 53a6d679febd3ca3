import EdgionCenter.Lib.Interaction
import EdgionCenter.Lib.Run
import Mathlib.Data.Option.Basic

/-! Any number of tasks that run one program each against a shared world, step by step and in any
order, and that may be cancelled while they wait. -/
namespace Tasks

open Interaction Transition Function

variable {C : Type} {R : C → Type} {Req α W σ : Type}

/-- The steps of a world: it serves a call of a task, drops what a task held when it returned or
was cancelled at a call, or moves on its own. -/
structure Host (C : Type) (R : C → Type) (α W : Type) where
  serve : Nat → W → (c : C) → R c → W → Prop
  finish : Nat → W → α → W → Prop
  cancel : Nat → W → C → W → Prop
  env : W → W → Prop

/-- The same world, in which only some replies and some cancellations occur. -/
def Host.restrict (H : Host C R α W) (okReply : (c : C) → R c → Prop) (okCancel : C → Prop) :
    Host C R α W where
  serve i w c r w' := H.serve i w c r w' ∧ okReply c r
  finish := H.finish
  cancel i w c w' := H.cancel i w c w' ∧ okCancel c
  env := H.env

structure Task (C : Type) (R : C → Type) (Req α : Type) where
  request : Req
  rest : Interaction C R α

structure State (C : Type) (R : C → Type) (Req α W : Type) where
  world : W
  tasks : Nat → Option (Task C R Req α)

def State.start (w : W) : State C R Req α W := ⟨w, fun _ => none⟩

def State.setTask (s : State C R Req α W) (i : Nat) (task : Option (Task C R Req α)) (w : W) :
    State C R Req α W :=
  ⟨w, update s.tasks i task⟩

inductive Label (C : Type) (R : C → Type) (Req α : Type)
  | spawn (i : Nat) (request : Req)
  | serve (i : Nat) (c : C) (r : R c)
  | finish (i : Nat) (a : α)
  | cancel (i : Nat) (c : C)
  | env

inductive Step (H : Host C R α W) (program : Req → Interaction C R α) :
    State C R Req α W → Label C R Req α → State C R Req α W → Prop
  | spawn {s : State C R Req α W} {i : Nat} (request : Req) (h : s.tasks i = none) :
    Step H program s (.spawn i request) (s.setTask i (some ⟨request, program request⟩) s.world)
  | serve {s : State C R Req α W} {i : Nat} {request : Req} {c : C} {next : R c → Interaction C R α}
      {r : R c} {w : W} (h : s.tasks i = some ⟨request, call c next⟩)
      (hs : H.serve i s.world c r w) :
    Step H program s (.serve i c r) (s.setTask i (some ⟨request, next r⟩) w)
  | finish {s : State C R Req α W} {i : Nat} {request : Req} {a : α} {w : W}
      (h : s.tasks i = some ⟨request, ret a⟩) (hs : H.finish i s.world a w) :
    Step H program s (.finish i a) (s.setTask i none w)
  | cancel {s : State C R Req α W} {i : Nat} {request : Req} {c : C} {next : R c → Interaction C R α}
      {w : W} (h : s.tasks i = some ⟨request, call c next⟩) (hs : H.cancel i s.world c w) :
    Step H program s (.cancel i c) (s.setTask i none w)
  | env {s : State C R Req α W} {w : W} (hs : H.env s.world w) :
    Step H program s .env { s with world := w }

/-- The step makes no reply and no cancellation but the given ones. -/
def Label.Admits (okReply : (c : C) → R c → Prop) (okCancel : C → Prop) : Label C R Req α → Prop
  | .serve _ c r => okReply c r
  | .cancel _ c => okCancel c
  | _ => True

theorem run_restrict {H : Host C R α W} {program : Req → Interaction C R α}
    {okReply : (c : C) → R c → Prop} {okCancel : C → Prop} {s t : State C R Req α W}
    {labels : List (Label C R Req α)} (h : Run (Step H program) s labels t)
    (hlabels : ∀ label ∈ labels, label.Admits okReply okCancel) :
    Run (Step (H.restrict okReply okCancel) program) s labels t := by
  induction h with
  | refl => exact .refl _
  | @step s t u label labels hstep _ ih =>
    have hlabel := hlabels label List.mem_cons_self
    refine .step ?_ (ih fun l hl => hlabels l (List.mem_cons_of_mem _ hl))
    cases hstep with
    | spawn request h => exact .spawn request h
    | serve h hs => exact .serve h ⟨hs, hlabel⟩
    | finish h hs => exact .finish h hs
    | cancel h hs => exact .cancel h ⟨hs, hlabel⟩
    | env hs => exact .env hs

/-- What is kept if every task makes only the calls its own monitor allows: an invariant of the
world and of the monitors' states. -/
structure Protocol (H : Host C R α W) (M : Monitor C R σ) (start : Req → σ)
    (post : Req → σ → α → Prop) (inv : W → (Nat → Option σ) → Prop) : Prop where
  spawn : ∀ {w states i} (request : Req), inv w states → states i = none →
    inv w (update states i (some (start request)))
  serve : ∀ {w states i s c r w'}, inv w states → states i = some s → M.guard s c →
    H.serve i w c r w' → M.rely s c r ∧ inv w' (update states i (some (M.step s c r)))
  finish : ∀ {w states i s request a w'}, inv w states → states i = some s → post request s a →
    H.finish i w a w' → inv w' (update states i none)
  cancel : ∀ {w states i s c w'}, inv w states → states i = some s → M.guard s c →
    H.cancel i w c w' → inv w' (update states i none)
  env : ∀ {w states w'}, inv w states → H.env w w' → inv w' states

/-- The invariant holds, and each task keeps to its monitor from where it is. -/
def Tracked (M : Monitor C R σ) (post : Req → σ → α → Prop) (inv : W → (Nat → Option σ) → Prop)
    (s : State C R Req α W) : Prop :=
  ∃ states, inv s.world states ∧ ∀ i, Option.Rel
    (fun task state => Holds M task.rest (post task.request) state) (s.tasks i) (states i)

section Rules

variable {H : Host C R α W} {program : Req → Interaction C R α} {M : Monitor C R σ}
  {start : Req → σ} {post : Req → σ → α → Prop} {inv : W → (Nat → Option σ) → Prop}
  {s t : State C R Req α W} {i : Nat} {state : Option σ} {rel : Task C R Req α → σ → Prop}
  {task : Option (Task C R Req α)}

theorem rel_update {T : Type} {rel : T → σ → Prop} {tasks : Nat → Option T}
    {states : Nat → Option σ} (h : ∀ i, Option.Rel rel (tasks i) (states i)) {task : Option T}
    (hi : Option.Rel rel task state) (j : Nat) :
    Option.Rel rel (update tasks i task j) (update states i state j) := by
  by_cases hj : j = i
  · subst hj
    simpa only [update_self] using hi
  · simpa only [update_of_ne hj] using h j

theorem exists_state {t : Task C R Req α} (h : Option.Rel rel task state) (ht : task = some t) :
    ∃ s, state = some s ∧ rel t s := by
  subst ht
  cases h with
  | some h => exact ⟨_, rfl, h⟩

theorem eq_none_of_rel (h : Option.Rel rel task state) (ht : task = none) : state = none := by
  subst ht
  cases h
  rfl

theorem Protocol.step (hP : Protocol H M start post inv)
    (hprogram : ∀ request, Holds M (program request) (post request) (start request))
    (h : Tracked M post inv s) {label : Label C R Req α} (hs : Step H program s label t) :
    Tracked M post inv t := by
  obtain ⟨states, hinv, hrel⟩ := h
  cases hs with
  | spawn request hnone =>
    have hfree := eq_none_of_rel (hrel _) hnone
    exact ⟨_, hP.spawn request hinv hfree, rel_update hrel (.some (hprogram request))⟩
  | serve htask hserve =>
    obtain ⟨state, hstate, hholds⟩ := exists_state (hrel _) htask
    obtain ⟨hrely, hkept⟩ := hP.serve hinv hstate hholds.1 hserve
    exact ⟨_, hkept, rel_update hrel (.some (hholds.2 _ hrely))⟩
  | finish htask hfinish =>
    obtain ⟨state, hstate, hholds⟩ := exists_state (hrel _) htask
    exact ⟨_, hP.finish hinv hstate hholds hfinish, rel_update hrel .none⟩
  | cancel htask hcancel =>
    obtain ⟨state, hstate, hholds⟩ := exists_state (hrel _) htask
    exact ⟨_, hP.cancel hinv hstate hholds.1 hcancel, rel_update hrel .none⟩
  | env henv => exact ⟨states, hP.env hinv henv, hrel⟩

/-- Programs that keep to their monitors keep the invariant in every run. -/
theorem Protocol.run (hP : Protocol H M start post inv)
    (hprogram : ∀ request, Holds M (program request) (post request) (start request))
    {w : W} (hinit : inv w fun _ => none) {labels : List (Label C R Req α)}
    (h : Run (Step H program) (.start w) labels s) : Tracked M post inv s :=
  h.invariant (fun _ _ _ ht hs => hP.step hprogram ht hs) ⟨_, hinit, fun _ => .none⟩

theorem Tracked.ret {request : Req} {a : α} (h : Tracked M post inv s)
    (hi : s.tasks i = some ⟨request, ret a⟩) :
    ∃ states state, inv s.world states ∧ states i = some state ∧ post request state a := by
  obtain ⟨states, hinv, hrel⟩ := h
  obtain ⟨state, hstate, hholds⟩ := exists_state (hrel i) hi
  exact ⟨states, state, hinv, hstate, hholds⟩

end Rules

/-! ### Runs of one task -/

/-- The calls of one task, served while the others rest. -/
inductive Proceeds (H : Host C R α W) (i : Nat) {β : Type} :
    Interaction C R β → W → List (Sigma R) → Interaction C R β → W → Prop
  | refl {p : Interaction C R β} {w : W} : Proceeds H i p w [] p w
  | serve {c : C} {next : R c → Interaction C R β} {r : R c} {w w' w'' : W}
      {log : List (Sigma R)} {q : Interaction C R β} (hs : H.serve i w c r w')
      (h : Proceeds H i (next r) w' log q w'') :
      Proceeds H i (call c next) w (⟨c, r⟩ :: log) q w''

section Proceeds

variable {H : Host C R α W} {i : Nat} {β γ : Type} {w w' w'' : W} {log log' : List (Sigma R)}

theorem Proceeds.bind {p : Interaction C R β} {b : β} {f : β → Interaction C R γ}
    {q : Interaction C R γ} (h : Proceeds H i p w log (ret b) w')
    (hf : Proceeds H i (f b) w' log' q w'') : Proceeds H i (p >>= f) w (log ++ log') q w'' := by
  generalize hr : ret b = r at h
  induction h with
  | refl =>
    subst hr
    exact hf
  | serve hs _ ih => exact .serve hs (ih hf hr)

variable {program : Req → Interaction C R α} {request : Req}

theorem Proceeds.steps {tasks : Nat → Option (Task C R Req α)} {p q : Interaction C R α}
    (h : Proceeds H i p w log q w') : Run (Step H program) ⟨w, update tasks i (some ⟨request, p⟩)⟩
      (log.map fun entry => .serve i entry.1 entry.2)
      ⟨w', update tasks i (some ⟨request, q⟩)⟩ := by
  induction h with
  | refl => exact .refl _
  | @serve c next r w w₁ w₂ log q hs _ ih =>
    have hstep : Step H program ⟨w, update tasks i (some ⟨request, Interaction.call c next⟩)⟩
        (.serve i c r) _ := .serve (update_self ..) hs
    rw [State.setTask, update_idem] at hstep
    exact .step hstep ih

/-- A task from its start to its end, as a run. -/
theorem Proceeds.run {a : α} {s : State C R Req α W}
    (h : Proceeds H i (program request) s.world log (ret a) w) (hfree : s.tasks i = none)
    (hfinish : H.finish i w a w') : Run (Step H program) s
      (.spawn i request :: (log.map (fun entry => .serve i entry.1 entry.2) ++ [.finish i a]))
      ⟨w', s.tasks⟩ := by
  have hlast : Step H program ⟨w, update s.tasks i (some ⟨request, ret a⟩)⟩ (.finish i a)
      ⟨w', s.tasks⟩ := by
    have hstep : Step H program ⟨w, update s.tasks i (some ⟨request, ret a⟩)⟩ (.finish i a) _ :=
      .finish (update_self ..) hfinish
    rwa [State.setTask, update_idem, ← hfree, update_eq_self] at hstep
  exact .step (.spawn request hfree) (h.steps.append (.step hlast (.refl _)))

end Proceeds

/-! ### Mutual exclusion -/

/-- The lock belongs to the task whose state says that it holds it. -/
def Exclusive (holds : σ → Prop) (lock : Option Nat) (states : Nat → Option σ) : Prop :=
  ∀ i, lock = some i ↔ ∃ s, states i = some s ∧ holds s

section Exclusive

variable {holds : σ → Prop} {lock lock' : Option Nat} {states : Nat → Option σ} {i j : Nat} {s : σ}

theorem Exclusive.eq {t : σ} (h : Exclusive holds lock states) (hi : states i = some s)
    (hs : holds s) (hj : states j = some t) (ht : holds t) : i = j :=
  Option.some.inj (((h i).mpr ⟨s, hi, hs⟩).symm.trans ((h j).mpr ⟨t, hj, ht⟩))

theorem Exclusive.holds_iff (h : Exclusive holds lock states) (hi : states i = some s) :
    lock = some i ↔ holds s := by
  rw [h i]
  constructor
  · rintro ⟨t, ht, hholds⟩
    rw [hi, Option.some.injEq] at ht
    rwa [ht]
  · exact fun hs => ⟨s, hi, hs⟩

/-- A step of one task, which may take the lock if it is free and may give back its own. -/
theorem Exclusive.update {state : Option σ} (h : Exclusive holds lock states)
    (hself : lock' = some i ↔ ∃ s, state = some s ∧ holds s)
    (hothers : ∀ j, j ≠ i → (lock' = some j ↔ lock = some j)) :
    Exclusive holds lock' (update states i state) := by
  intro j
  by_cases hj : j = i
  · subst hj
    rw [update_self, hself]
  · rw [update_of_ne hj, hothers j hj, h j]

end Exclusive

end Tasks
