import Mathlib.Data.List.Basic

/-! Finite labelled runs of a step relation, and the rules that lift a step fact to a run. -/
namespace Transition

variable {S A : Type*} {Step : S → A → S → Prop} {s t u : S} {a : A} {xs ys : List A}

/-- The labels are the steps taken, first step first. -/
inductive Run (Step : S → A → S → Prop) : S → List A → S → Prop
  | refl (s : S) : Run Step s [] s
  | step {s t u : S} {a : A} {xs : List A} :
      Step s a t → Run Step t xs u → Run Step s (a :: xs) u

/-- The same relation, restricted to steps whose label is admitted in their source state. -/
def Guarded (Step : S → A → S → Prop) (Ok : S → A → Prop) (s : S) (a : A) (t : S) : Prop :=
  Step s a t ∧ Ok s a

theorem Run.append (h : Run Step s xs t) (k : Run Step t ys u) : Run Step s (xs ++ ys) u := by
  induction h with
  | refl => exact k
  | step hs _ ih => exact .step hs (ih k)

theorem Run.mono {Step' : S → A → S → Prop} (hsub : ∀ {s a t}, Step s a t → Step' s a t)
    (h : Run Step s xs t) : Run Step' s xs t := by
  induction h with
  | refl => exact .refl _
  | step hs _ ih => exact .step (hsub hs) ih

/-- A property kept by every step is kept by every run. -/
theorem Run.invariant {P : S → Prop} (hstep : ∀ s a t, P s → Step s a t → P t)
    (h : Run Step s xs t) (hs : P s) : P t := by
  induction h with
  | refl => exact hs
  | step hst _ ih => exact ih (hstep _ _ _ hs hst)

/-- A preorder respected by every step relates the two ends of every run. -/
theorem Run.related {R : S → S → Prop} (hrefl : ∀ s, R s s)
    (htrans : ∀ {s t u}, R s t → R t u → R s u) (hstep : ∀ {s a t}, Step s a t → R s t)
    (h : Run Step s xs t) : R s t := by
  induction h with
  | refl => exact hrefl _
  | step hs _ ih => exact htrans (hstep hs) ih

end Transition
