import EdgionCenter.Lib.Interaction

/-! Programs that call a world which others change as well, between any two of their calls. -/
namespace Interaction

open Relation

variable {C : Type} {R : C → Type} {α β W : Type}

/-- What others may do to the world, and how it serves a call. -/
structure Shared (C : Type) (R : C → Type) (W : Type) where
  others : W → W → Prop
  serve : W → (c : C) → R c → W → Prop

/-- The calls are served only where a condition on the world before and after holds. -/
def Shared.restrict (E : Shared C R W) (Ok : W → C → W → Prop) : Shared C R W where
  others := E.others
  serve w c r w' := E.serve w c r w' ∧ Ok w c w'

variable (E : Shared C R W)

inductive Step : Interaction C R α × W → Interaction C R α × W → Prop
  | others {p : Interaction C R α} {w w' : W} (h : E.others w w') : Step (p, w) (p, w')
  | serve {c : C} {next : R c → Interaction C R α} {w w' : W} {r : R c} (h : E.serve w c r w') :
      Step (call c next, w) (next r, w')

variable {E} in
theorem Step.ask {c : C} {f : R c → Interaction C R α} {w w' : W} {r : R c}
    (h : E.serve w c r w') : Step E (ask c >>= f, w) (f r, w') :=
  .serve h

/-- Whatever others do meanwhile, the invariant holds along the way and the program returns only
what the postcondition allows. -/
def Ensures (inv : W → Prop) : Interaction C R α → (W → α → Prop) → W → Prop
  | ret a, post, w => ∀ w', ReflTransGen E.others w w' → inv w' ∧ post w' a
  | call c next, post, w => ∀ w', ReflTransGen E.others w w' →
      inv w' ∧ ∀ r w'', E.serve w' c r w'' → Ensures inv (next r) post w''

variable {E} {inv : W → Prop} {p : Interaction C R α} {post : W → α → Prop} {w w' : W}

theorem Ensures.others (h : Ensures E inv p post w) (hw : ReflTransGen E.others w w') :
    Ensures E inv p post w' := by
  cases p with
  | ret a | call c next => exact fun v hv => h v (hw.trans hv)

theorem Ensures.now (h : Ensures E inv p post w) : inv w := by
  cases p with
  | ret a | call c next => exact (h w .refl).1

variable {q : Interaction C R α}

theorem Ensures.step (h : Ensures E inv p post w) (hs : Step E (p, w) (q, w')) :
    Ensures E inv q post w' := by
  cases hs with
  | others hw => exact h.others (.single hw)
  | serve hs => exact (h _ .refl).2 _ _ hs

/-- What a program ensures holds of what is left of it. -/
theorem Ensures.of_run (h : Ensures E inv p post w) (hr : ReflTransGen (Step E) (p, w) (q, w')) :
    Ensures E inv q post w' := by
  generalize hx : (p, w) = x at hr
  generalize hy : (q, w') = y at hr
  induction hr using ReflTransGen.head_induction_on generalizing p w with
  | refl =>
    obtain ⟨rfl, rfl⟩ := Prod.mk.inj (hx.trans hy.symm)
    exact h
  | @head x z hxz _ ih =>
    subst hx
    obtain ⟨q, v⟩ := z
    exact ih (h.step hxz) rfl

theorem Ensures.of_ret {a : α} (h : Ensures E inv (ret a) post w) : post w a := (h w .refl).2

theorem Returns.ensures {Q : α → Prop} (h : Returns Q p) (hinv : ∀ w, inv w)
    (hpost : ∀ w a, Q a → post w a) : Ensures E inv p post w := by
  induction p generalizing w with
  | ret a => exact fun w' _ => ⟨hinv w', hpost w' a h⟩
  | call c next ih => exact fun w' _ => ⟨hinv w', fun r w'' _ => ih r (h r)⟩

section Stable

/-- An assertion that nobody else invalidates. -/
def Stable (E : Shared C R W) (I : W → Prop) : Prop := ∀ w w', E.others w w' → I w → I w'

variable {I : W → Prop}

theorem Stable.of_others (h : Stable E I) (hI : I w) (hw : ReflTransGen E.others w w') : I w' := by
  induction hw with
  | refl => exact hI
  | tail _ hstep ih => exact h _ _ hstep ih

theorem ensures_ret {a : α} (hs : Stable E I) (hI : I w) (hinv : ∀ w, I w → inv w)
    (h : ∀ w, I w → post w a) : Ensures E inv (ret a) post w := by
  intro w' hw
  have hI' := hs.of_others hI hw
  exact ⟨hinv w' hI', h w' hI'⟩

theorem ensures_ask {c : C} {f : R c → Interaction C R α} (hs : Stable E I) (hI : I w)
    (hinv : ∀ w, I w → inv w)
    (h : ∀ w, I w → ∀ r w', E.serve w c r w' → Ensures E inv (f r) post w') :
    Ensures E inv (ask c >>= f) post w := by
  intro v hv
  have hI' := hs.of_others hI hv
  exact ⟨hinv v hI', fun r w' hserve => h v hI' r w' hserve⟩

end Stable

end Interaction
