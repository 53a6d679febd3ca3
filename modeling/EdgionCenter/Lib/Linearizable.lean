import Mathlib.Data.List.Nodup
import Mathlib.Data.List.ReduceOption
import EdgionCenter.Lib.Run

/-! Objects whose concurrent calls can be put in one order. A call takes effect at one instant between
its start and its return; what refines such an object is linearizable. -/
namespace Linearizable

open Function Transition

/-- A sequential object. -/
structure Object (S Op Res : Type) where
  init : S
  apply : S → Op → S × Res

/-- What the callers see. A call returns a result or an error. -/
inductive Action (I Op Res E : Type)
  | call (id : I) (op : Op)
  | ret (id : I) (out : Except E Res)

/-- A call that took effect. -/
structure Entry (I Op Res : Type) where
  id : I
  op : Op
  res : Res

variable {S I Op Res E : Type}

/-- The object after the calls of an order. -/
def Object.after (O : Object S Op Res) (order : List (Entry I Op Res)) : S :=
  order.foldl (fun v e => (O.apply v e.op).1) O.init

@[simp] theorem Object.after_concat (O : Object S Op Res) (order : List (Entry I Op Res))
    (e : Entry I Op Res) : O.after (order ++ [e]) = (O.apply (O.after order) e.op).1 := by
  simp [after]

/-- One element and then the other. -/
def Precedes {α : Type} (xs : List α) (a b : α) : Prop := List.Sublist [a, b] xs

variable {α : Type} {xs : List α}

/-- Of two elements in order, only the second can be the last. -/
theorem precedes_concat {a b c : α} :
    Precedes (xs ++ [c]) a b ↔ Precedes xs a b ∨ a ∈ xs ∧ b = c := by
  unfold Precedes
  constructor
  · intro h
    obtain ⟨l, r, heq, hl, hr⟩ := List.sublist_append_iff.mp h
    rcases List.sublist_singleton.mp hr with rfl | rfl
    · rw [List.append_nil] at heq
      exact .inl (heq ▸ hl)
    · obtain ⟨rfl, rfl⟩ : l = [a] ∧ b = c := by
        cases l with
        | nil => simp at heq
        | cons d l => cases l <;> simp_all
      exact .inr ⟨List.singleton_sublist.mp hl, rfl⟩
  · rintro (h | ⟨ha, rfl⟩)
    · exact h.trans (List.sublist_append_left _ _)
    · exact (List.singleton_sublist.mpr ha).append (List.Sublist.refl [b])

theorem Precedes.mem_left {a b : α} (h : Precedes xs a b) : a ∈ xs :=
  h.subset (by simp)

/-- The order explains what the callers saw: an identifier stands for one call, every result is the
one the sequential object gives, the calls that returned it took effect, those that returned a clean
error did not, and a call that returned before another started comes first. -/
structure Explains (O : Object S Op Res) (Clean : E → Prop) (h : List (Action I Op Res E))
    (order : List (Entry I Op Res)) : Prop where
  once : ∀ id op op', .call id op ∈ h → .call id op' ∈ h → op = op'
  legal : ∀ front e back, order = front ++ e :: back → e.res = (O.apply (O.after front) e.op).2
  nodup : (order.map Entry.id).Nodup
  called : ∀ e ∈ order, .call e.id e.op ∈ h
  returned : ∀ id res, .ret id (.ok res) ∈ h → ∃ op, ⟨id, op, res⟩ ∈ order
  failed : ∀ id e, .ret id (.error e) ∈ h → Clean e → id ∉ order.map Entry.id
  realTime : ∀ a b out op, Precedes h (.ret a out) (.call b op) → a ∈ order.map Entry.id →
    b ∈ order.map Entry.id → Precedes (order.map Entry.id) a b

section Atomic

inductive Status (Op Res : Type)
  | idle
  | pending (op : Op)
  | decided (op : Op) (res : Res)
  | returned

/-- The object with its callers. Its value is that of the calls that took effect. -/
structure State (I Op Res : Type) where
  order : List (Entry I Op Res)
  status : I → Status Op Res

def State.init : State I Op Res := ⟨[], fun _ => .idle⟩

variable [DecidableEq I]

def State.setStatus (s : State I Op Res) (id : I) (x : Status Op Res) : State I Op Res :=
  { s with status := update s.status id x }

/-- The silent step is the instant at which a call takes effect. -/
inductive Step (O : Object S Op Res) (Clean : E → Prop) :
    State I Op Res → Option (Action I Op Res E) → State I Op Res → Prop
  | call {s : State I Op Res} {id : I} (op : Op) : s.status id = .idle →
    Step O Clean s (some (.call id op)) (s.setStatus id (.pending op))
  | commit {s : State I Op Res} {id : I} {op : Op} : s.status id = .pending op →
    Step O Clean s none
      ⟨s.order ++ [⟨id, op, (O.apply (O.after s.order) op).2⟩],
        update s.status id (.decided op (O.apply (O.after s.order) op).2)⟩
  | ret {s : State I Op Res} {id : I} {op : Op} {res : Res} : s.status id = .decided op res →
    Step O Clean s (some (.ret id (.ok res))) (s.setStatus id .returned)
  | fail {s : State I Op Res} {id : I} {op : Op} (e : E) : s.status id = .pending op →
    Step O Clean s (some (.ret id (.error e))) (s.setStatus id .returned)
  | lose {s : State I Op Res} {id : I} {op : Op} {res : Res} (e : E) : ¬ Clean e →
    s.status id = .decided op res →
    Step O Clean s (some (.ret id (.error e))) (s.setStatus id .returned)

/-- What the history and the order say of a call in each of its states. -/
def Local (h : List (Action I Op Res E)) (order : List (Entry I Op Res)) (i : I) :
    Status Op Res → Prop
  | .idle => i ∉ order.map Entry.id ∧ (∀ op, .call i op ∉ h) ∧ ∀ out, .ret i out ∉ h
  | .pending op => i ∉ order.map Entry.id ∧ .call i op ∈ h ∧ ∀ out, .ret i out ∉ h
  | .decided op res => ⟨i, op, res⟩ ∈ order ∧ ∀ out, .ret i out ∉ h
  | .returned => True

/-- What is kept along a run whose visible part is `h`. -/
structure Kept (O : Object S Op Res) (Clean : E → Prop) (h : List (Action I Op Res E))
    (s : State I Op Res) : Prop extends Explains O Clean h s.order where
  each : ∀ i, Local h s.order i (s.status i)

variable {O : Object S Op Res} {Clean : E → Prop} {s t : State I Op Res}
  {h : List (Action I Op Res E)} {order : List (Entry I Op Res)} {i j : I} {x : Status Op Res}

omit [DecidableEq I] in
theorem kept_init : Kept O Clean ([] : List (Action I Op Res E)) (State.init : State I Op Res) where
  once i op op' he := by simp at he
  legal front e back he := by simp [State.init] at he
  nodup := List.nodup_nil
  called e he := by simp [State.init] at he
  returned i res he := by simp at he
  failed i e he := by simp at he
  realTime a b out op he := by simp [Precedes] at he
  each i := by simp [State.init, Local]

def Action.id : Action I Op Res E → I
  | .call i _ | .ret i _ => i

omit [DecidableEq I] in
/-- What another call does leaves the state of a call true. -/
theorem local_concat {a : Action I Op Res E} (hne : i ≠ a.id) (hl : Local h order i x) :
    Local (h ++ [a]) order i x := by
  have hcall : ∀ op, .call i op ∈ h ++ [a] ↔ .call i op ∈ h := by
    intro op
    cases a <;> simp_all [Action.id]
  have hret : ∀ out, .ret i out ∈ h ++ [a] ↔ .ret i out ∈ h := by
    intro out
    cases a <;> simp_all [Action.id]
  cases x with
  | returned => trivial
  | idle | pending | decided => simpa only [Local, hcall, hret] using hl

omit [DecidableEq I] in
theorem local_concat_entry {e : Entry I Op Res} (hne : i ≠ e.id) (hl : Local h order i x) :
    Local h (order ++ [e]) i x := by
  have hid : i ∈ (order ++ [e]).map Entry.id ↔ i ∈ order.map Entry.id := by simp [hne]
  cases x with
  | idle | pending => simpa only [Local, hid] using hl
  | decided op res => exact ⟨List.mem_append_left _ hl.1, hl.2⟩
  | returned => trivial

variable {op : Op} {as : List (Option (Action I Op Res E))}

/-- A call that starts is in no order yet. -/
theorem kept_call (hk : Kept O Clean h s) (hidle : s.status i = .idle) :
    Kept O Clean (h ++ [.call i op]) (s.setStatus i (.pending op)) := by
  have hi := hk.each i
  rw [hidle] at hi
  exact {
    once := by
      intro j op₁ op₂ h₁ h₂
      simp only [List.mem_append, List.mem_singleton, Action.call.injEq] at h₁ h₂
      rcases h₁ with h₁ | ⟨rfl, rfl⟩
      · rcases h₂ with h₂ | ⟨rfl, rfl⟩
        · exact hk.once j op₁ op₂ h₁ h₂
        · exact absurd h₁ (hi.2.1 op₁)
      · rcases h₂ with h₂ | ⟨_, rfl⟩
        · exact absurd h₂ (hi.2.1 op₂)
        · rfl
    legal := hk.legal
    nodup := hk.nodup
    called := fun e he => List.mem_append_left _ (hk.called e he)
    returned := fun j res hj => hk.returned j res (by simpa using hj)
    failed := fun j e hj => hk.failed j e (by simpa using hj)
    realTime := by
      intro a b out op' hp ha hb
      rcases precedes_concat.mp hp with hp | ⟨_, heq⟩
      · exact hk.realTime a b out op' hp ha hb
      · cases heq
        exact absurd hb hi.1
    each := by
      intro j
      by_cases hj : j = i
      · subst hj
        simp only [State.setStatus, update_self]
        exact ⟨hi.1, by simp, by simpa using hi.2.2⟩
      · simp only [State.setStatus, update_of_ne hj]
        exact local_concat hj (hk.each j) }

/-- A call takes effect after all that did before, and before it returns. -/
theorem kept_commit {res : Res} (hk : Kept O Clean h s) (hpending : s.status i = .pending op)
    (hres : res = (O.apply (O.after s.order) op).2) :
    Kept O Clean h ⟨s.order ++ [⟨i, op, res⟩], update s.status i (.decided op res)⟩ := by
  have hi := hk.each i
  rw [hpending] at hi
  obtain ⟨hnew, hcalled, hopen⟩ := hi
  exact {
    once := hk.once
    legal := by
      intro front e back heq
      rcases List.eq_nil_or_concat back with rfl | ⟨back, last, rfl⟩
      · obtain ⟨rfl, he⟩ := List.append_inj' heq rfl
        cases he
        exact hres
      · rw [List.concat_eq_append, ← List.cons_append, ← List.append_assoc] at heq
        exact hk.legal front e back (List.append_inj_left' heq rfl)
    nodup := by
      rw [List.map_append, List.map_singleton, ← List.concat_eq_append]
      exact hk.nodup.concat hnew
    called := List.forall_mem_append.mpr ⟨hk.called, List.forall_mem_singleton.mpr hcalled⟩
    returned := by
      intro j res hj
      obtain ⟨op, hmem⟩ := hk.returned j res hj
      exact ⟨op, List.mem_append_left _ hmem⟩
    failed := by
      intro j e hj hclean hmem
      rw [List.map_append, List.mem_append] at hmem
      rcases hmem with hmem | hmem
      · exact hk.failed j e hj hclean hmem
      · obtain rfl : j = i := by simpa using hmem
        exact hopen _ hj
    realTime := by
      intro a b out op' hp ha hb
      rw [List.map_append, List.mem_append] at ha hb
      rw [List.map_append]
      have hne : a ≠ i := by
        rintro rfl
        exact hopen _ hp.mem_left
      have ha : a ∈ s.order.map Entry.id := ha.resolve_right (by simpa using hne)
      rcases hb with hb | hb
      · exact precedes_concat.mpr (.inl (hk.realTime a b out op' hp ha hb))
      · exact precedes_concat.mpr (.inr ⟨ha, by simpa using hb⟩)
    each := by
      intro j
      by_cases hj : j = i
      · subst hj
        simp only [update_self]
        exact ⟨by simp, hopen⟩
      · simp only [update_of_ne hj]
        exact local_concat_entry hj (hk.each j) }

/-- A call returns once, with its result or with an error that says nothing it should not. -/
theorem kept_return {out : Except E Res} (hk : Kept O Clean h s)
    (hok : ∀ res, out = .ok res → ∃ op, ⟨i, op, res⟩ ∈ s.order)
    (herror : ∀ e, out = .error e → Clean e → i ∉ s.order.map Entry.id) :
    Kept O Clean (h ++ [.ret i out]) (s.setStatus i .returned) := by
  exact {
    once := fun j op₁ op₂ h₁ h₂ => hk.once j op₁ op₂ (by simpa using h₁) (by simpa using h₂)
    legal := hk.legal
    nodup := hk.nodup
    called := fun e he => List.mem_append_left _ (hk.called e he)
    returned := by
      intro j res hj
      rcases List.mem_append.mp hj with hj | hj
      · exact hk.returned j res hj
      · obtain ⟨rfl, rfl⟩ : j = i ∧ .ok res = out := by simpa using hj
        exact hok res rfl
    failed := by
      intro j e hj hclean
      rcases List.mem_append.mp hj with hj | hj
      · exact hk.failed j e hj hclean
      · obtain ⟨rfl, rfl⟩ : j = i ∧ .error e = out := by simpa using hj
        exact herror e rfl hclean
    realTime := by
      intro a b out' op hp ha hb
      rcases precedes_concat.mp hp with hp | ⟨_, heq⟩
      · exact hk.realTime a b out' op hp ha hb
      · cases heq
    each := by
      intro j
      by_cases hj : j = i
      · subst hj
        simp only [State.setStatus, update_self]
        trivial
      · simp only [State.setStatus, update_of_ne hj]
        exact local_concat hj (hk.each j) }

theorem kept_step {a : Option (Action I Op Res E)} (hk : Kept O Clean h s)
    (hstep : Step O Clean s a t) : Kept O Clean (h ++ a.toList) t := by
  cases hstep with
  | call op hidle => exact kept_call hk hidle
  | commit hpending =>
    rw [Option.toList_none, List.append_nil]
    exact kept_commit hk hpending rfl
  | @ret i op res hdecided =>
    have hi := hk.each i
    rw [hdecided] at hi
    exact kept_return hk (by rintro _ ⟨⟩; exact ⟨op, hi.1⟩) nofun
  | @fail i op e hpending =>
    have hi := hk.each i
    rw [hpending] at hi
    exact kept_return hk nofun (fun _ _ _ => hi.1)
  | @lose i op res e hunclean hdecided =>
    exact kept_return hk nofun
      (by rintro _ ⟨⟩ hclean; exact absurd hclean hunclean)

theorem kept_run (hk : Kept O Clean h s) (hrun : Run (Step O Clean) s as t) :
    Kept O Clean (h ++ as.reduceOption) t := by
  induction hrun generalizing h with
  | refl => simpa using hk
  | @step s u t a as hstep _ ih =>
    have hnext := ih (kept_step hk hstep)
    cases a <;> simpa using hnext

/-- Every run of the atomic object is explained by the order in which its calls took effect. -/
theorem explains_of_run (hrun : Run (Step O Clean) State.init as t) :
    Explains O Clean (as.reduceOption) t.order :=
  (kept_run kept_init hrun).toExplains

end Atomic

section Refinement

variable [DecidableEq I] {O : Object S Op Res} {Clean : E → Prop} {C A : Type}
  {StepC : C → A → C → Prop} {see : A → Option (Action I Op Res E)}

/-- Every concrete step is matched by abstract ones that look the same. -/
def Refines (O : Object S Op Res) (Clean : E → Prop) (StepC : C → A → C → Prop)
    (see : A → Option (Action I Op Res E)) (R : C → State I Op Res → Prop) : Prop :=
  ∀ c a c' s, R c s → StepC c a c' → ∃ as s', Run (Step O Clean) s as s' ∧ R c' s' ∧
    as.reduceOption = (see a).toList

variable {R : C → State I Op Res → Prop} {c c' : C} {xs : List A}

theorem exists_run (hR : Refines O Clean StepC see R) {s : State I Op Res} (hs : R c s)
    (hrun : Run StepC c xs c') :
    ∃ as s', Run (Step O Clean) s as s' ∧ R c' s' ∧ as.reduceOption = xs.filterMap see := by
  induction hrun generalizing s with
  | refl => exact ⟨[], s, .refl s, hs, rfl⟩
  | @step c u c' a xs hstep _ ih =>
    obtain ⟨as, s', hfirst, hs', hsee⟩ := hR _ _ _ _ hs hstep
    obtain ⟨bs, s'', hrest, hs'', hsees⟩ := ih hs'
    refine ⟨as ++ bs, s'', hfirst.append hrest, hs'', ?_⟩
    rw [List.reduceOption_append, hsee, hsees]
    cases h : see a <;> simp [h]

/-- What refines an atomic object is linearizable. -/
theorem exists_explains (hR : Refines O Clean StepC see R) (hinit : R c State.init)
    (hrun : Run StepC c xs c') : ∃ s, R c' s ∧ Explains O Clean (xs.filterMap see) s.order := by
  obtain ⟨as, s, hruns, hs, hsee⟩ := exists_run hR hinit hrun
  exact ⟨s, hs, hsee ▸ explains_of_run hruns⟩

end Refinement

end Linearizable
