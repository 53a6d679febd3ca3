import Mathlib.Data.List.Induction
import Mathlib.Data.List.Perm.Basic

/-! Taking apart fallible computations that succeeded. -/
namespace Fallible

variable {ε α β ε' : Type} {f : α → Except ε β} {xs : List α} {a : α} {b : β} {x : Except ε α}
  {e : ε} {ys : List β}

@[simp] theorem ok_bind : (Except.ok a >>= f) = f a := rfl

@[simp] theorem bind_eq_ok : x >>= f = .ok b ↔ ∃ a, x = .ok a ∧ f a = .ok b := by
  cases x with
  | error e | ok a => simp [bind, Except.bind]

/-- A check has one result. -/
@[simp] theorem exists_unit {p : Unit → Prop} : (∃ u, p u) ↔ p () :=
  ⟨fun ⟨_, h⟩ => h, fun h => ⟨(), h⟩⟩

@[simp] theorem map_eq_ok {f : α → β} : f <$> x = .ok b ↔ ∃ a, x = .ok a ∧ f a = b := by
  cases x with
  | error e | ok a => simp [Functor.map, Except.map]

@[simp] theorem pure_eq_ok {b : α} : (pure a : Except ε α) = .ok b ↔ a = b := by
  simp [pure, Except.pure]

@[simp] theorem toOption_eq_some : x.toOption = some a ↔ x = .ok a := by
  cases x <;> simp [Except.toOption]

/-- `Result::map_err` with a constant. -/
def orElse (e : ε) {ε' : Type} : Except ε' α → Except ε α
  | .ok a => .ok a
  | .error _ => .error e

@[simp] theorem orElse_eq_ok {x : Except ε' α} : orElse e x = .ok a ↔ x = .ok a := by
  cases x <;> simp [orElse]

@[simp] theorem mapError_eq_ok {f : ε → ε'} : x.mapError f = .ok a ↔ x = .ok a := by
  cases x with
  | error e => constructor <;> intro h <;> cases h
  | ok b =>
    change Except.ok b = Except.ok a ↔ _
    rw [Except.ok.injEq, Except.ok.injEq]

/-- A check that must hold. -/
def require (p : Prop) [Decidable p] (e : ε) : Except ε Unit := if p then .ok () else .error e

@[simp] theorem require_eq_ok {p : Prop} [Decidable p] {u : Unit} : require p e = .ok u ↔ p := by
  by_cases h : p <;> simp [require, h]

/-- The results of a traversal, one for each element. -/
theorem mapM_eq_ok : xs.mapM f = .ok ys ↔ List.Forall₂ (fun x y => f x = .ok y) xs ys := by
  induction xs generalizing ys with
  | nil =>
    rw [List.mapM_nil, pure_eq_ok]
    constructor
    · rintro rfl
      exact .nil
    · intro h
      cases h
      rfl
  | cons x xs ih =>
    rw [List.mapM_cons]
    simp only [bind_eq_ok, pure_eq_ok]
    constructor
    · rintro ⟨y, hy, zs, hzs, rfl⟩
      exact .cons hy (ih.mp hzs)
    · intro h
      cases h with
      | cons hy hzs => exact ⟨_, hy, _, ih.mpr hzs, rfl⟩

/-- The error of a traversal comes from an element. -/
theorem exists_of_mapM_error (h : xs.mapM f = .error e) : ∃ x ∈ xs, f x = .error e := by
  induction xs with
  | nil => cases h
  | cons x xs ih =>
    rw [List.mapM_cons] at h
    cases hx : f x with
    | error e' =>
      rw [hx] at h
      cases h
      exact ⟨x, List.mem_cons_self, hx⟩
    | ok y =>
      rw [hx, ok_bind] at h
      cases hxs : xs.mapM f with
      | error e' =>
        rw [hxs] at h
        cases h
        obtain ⟨x', hx', he⟩ := ih hxs
        exact ⟨x', List.mem_cons_of_mem _ hx', he⟩
      | ok ys =>
        rw [hxs] at h
        cases h

theorem mapM_cons_error {x : α} (h : f x = .error e) : (x :: xs).mapM f = .error e := by
  rw [List.mapM_cons, h]
  rfl

/-- A traversal in two parts. -/
theorem mapM_split (k : Nat) : xs.mapM f = .ok ys ↔ ∃ front back,
      (xs.take k).mapM f = .ok front ∧ (xs.drop k).mapM f = .ok back ∧ front ++ back = ys := by
  conv_lhs => rw [← List.take_append_drop k xs, List.mapM_append]
  simp only [bind_eq_ok, pure_eq_ok]
  constructor
  · rintro ⟨front, hf, back, hb, rfl⟩
    exact ⟨front, back, hf, hb, rfl⟩
  · rintro ⟨front, back, hf, hb, rfl⟩
    exact ⟨front, hf, back, hb, rfl⟩

/-- A traversal in another order. -/
theorem mapM_perm {xs' : List α} (hperm : xs'.Perm xs) (h : xs.mapM f = .ok ys) :
    ∃ ys', xs'.mapM f = .ok ys' ∧ ys'.Perm ys := by
  obtain ⟨ys', hys', hperm'⟩ := List.perm_comp_forall₂ hperm (mapM_eq_ok.mp h)
  exact ⟨ys', mapM_eq_ok.mpr hys', hperm'⟩

/-- Every result of a traversal comes from an element. -/
theorem exists_of_forall₂ {R : α → β → Prop} (h : List.Forall₂ R xs ys) {y : β} (hy : y ∈ ys) :
    ∃ x ∈ xs, R x y := by
  induction h with
  | nil => cases hy
  | cons hr _ ih =>
    rcases List.mem_cons.mp hy with rfl | hy
    · exact ⟨_, by simp, hr⟩
    · obtain ⟨x, hx, hr⟩ := ih hy
      exact ⟨x, by simp [hx], hr⟩

/-- A scan whose state sums up what it has read, and that takes an element exactly if what it has
read stays acceptable with it, accepts the acceptable lists. -/
theorem foldlM_eq_ok {σ : Type} {step : σ → α → Except ε σ} {summary : List α → σ}
    {Ok : List α → Prop} (hnil : Ok []) (hfront : ∀ {xs x}, Ok (xs ++ [x]) → Ok xs)
    (hstep : ∀ {xs x t}, Ok xs →
      (step (summary xs) x = .ok t ↔ Ok (xs ++ [x]) ∧ t = summary (xs ++ [x]))) {t : σ} :
    xs.foldlM step (summary []) = .ok t ↔ Ok xs ∧ t = summary xs := by
  induction xs using List.reverseRecOn generalizing t with
  | nil =>
    rw [List.foldlM_nil, pure_eq_ok, eq_comm]
    exact ⟨fun h => ⟨hnil, h⟩, fun h => h.2⟩
  | append_singleton xs x ih =>
    rw [List.foldlM_append, bind_eq_ok]
    simp only [ih, List.foldlM_cons, List.foldlM_nil, bind_pure]
    constructor
    · rintro ⟨_, ⟨hok, rfl⟩, h⟩
      exact (hstep hok).mp h
    · rintro ⟨hok, rfl⟩
      exact ⟨_, ⟨hfront hok, rfl⟩, (hstep (hfront hok)).mpr ⟨hok, rfl⟩⟩

end Fallible
