import EdgionCenter.Lib.Run

/-! A variable that any number of calls update by compare and exchange. A call has an input; it loads
the variable and tries to replace the value it saw by the next one, until it succeeds. -/
namespace Exchange

open Transition Function

variable {I V O : Type}

/-- Where a call is: before its load, in its loop, after its exchange, or returned. -/
inductive Phase (I V O : Type)
  | ready (input : I)
  | trying (input : I) (seen : V)
  | exchanged (stored : V)
  | returned (out : O)

/-- The stores are kept newest first, each with its call. -/
structure State (I V O : Type) where
  first : V
  stores : List (Nat × V)
  calls : Nat → Option (Phase I V O)

def State.start (v : V) : State I V O := ⟨v, [], fun _ => none⟩

/-- All values the variable had, the present one first. -/
def State.values (s : State I V O) : List V := s.stores.map Prod.snd ++ [s.first]

def State.setPhase (s : State I V O) (i : Nat) (phase : Phase I V O) : State I V O :=
  { s with calls := update s.calls i (some phase) }

def State.store (s : State I V O) (i : Nat) (v : V) : State I V O :=
  ⟨s.first, (i, v) :: s.stores, update s.calls i (some (.exchanged v))⟩

inductive Label (I V : Type)
  | call (i : Nat) (input : I)
  | load (i : Nat) (seen : V)
  | fail (i : Nat) (seen : V)
  | exchange (i : Nat)
  | finish (i : Nat)

/-- Loads may see old values, and an exchange may fail without a reason; one that succeeds replaces
the present value. -/
inductive Step (next : I → V → V) (result : V → O) :
    State I V O → Label I V → State I V O → Prop
  | call {s : State I V O} {i : Nat} (input : I) (h : s.calls i = none) :
    Step next result s (.call i input) (s.setPhase i (.ready input))
  | load {s : State I V O} {i : Nat} {input : I} {v : V} (h : s.calls i = some (.ready input))
      (hv : v ∈ s.values) :
    Step next result s (.load i v) (s.setPhase i (.trying input v))
  | fail {s : State I V O} {i : Nat} {input : I} {seen v : V}
      (h : s.calls i = some (.trying input seen)) (hv : v ∈ s.values) :
    Step next result s (.fail i v) (s.setPhase i (.trying input v))
  | exchange {s : State I V O} {i : Nat} {input : I} {seen : V}
      (h : s.calls i = some (.trying input seen)) (hseen : s.values.head? = some seen) :
    Step next result s (.exchange i) (s.store i (next input seen))
  | finish {s : State I V O} {i : Nat} {v : V} (h : s.calls i = some (.exchanged v)) :
    Step next result s (.finish i) (s.setPhase i (.returned (result v)))

/-- A call has stored a value exactly if its exchange succeeded, and returns the result of it. -/
def Explained (result : V → O) (stored : V → Prop) : Option (Phase I V O) → Prop
  | none | some (.ready _) | some (.trying _ _) => ∀ v, ¬ stored v
  | some (.exchanged v) => stored v
  | some (.returned out) => ∃ v, stored v ∧ out = result v

structure Ordered (R : V → V → Prop) (result : V → O) (s : State I V O) : Prop where
  values : s.values.Pairwise fun later earlier => R earlier later
  calls : ∀ i, Explained result (fun v => (i, v) ∈ s.stores) (s.calls i)
  once : (s.stores.map Prod.fst).Nodup

section Rules

variable {R : V → V → Prop} {next : I → V → V} {result : V → O} {s t : State I V O}

theorem ordered_start (v : V) : Ordered R result (State.start v : State I V O) where
  values := List.pairwise_singleton _ _
  calls _ _ hv := by cases hv
  once := List.nodup_nil

variable {i : Nat} {phase : Phase I V O} {v : V}

theorem Ordered.setPhase (h : Ordered R result s)
    (hphase : Explained result (fun v => (i, v) ∈ s.stores) (some phase)) :
    Ordered R result (s.setPhase i phase) where
  values := h.values
  calls j := by
    by_cases hj : j = i
    · subst hj
      simpa only [State.setPhase, update_self] using hphase
    · simpa only [State.setPhase, update_of_ne hj] using h.calls j
  once := h.once

theorem Ordered.explained (h : Ordered R result s) (hi : s.calls i = some phase) :
    Explained result (fun v => (i, v) ∈ s.stores) (some phase) := by
  have hcalls := h.calls i
  rwa [hi] at hcalls

/-- The value that is stored stands above the present one, and so above all others. -/
theorem Ordered.store (h : Ordered R result s) (htrans : ∀ {a b c}, R a b → R b c → R a c)
    {input : I} {seen : V} (hi : s.calls i = some (.trying input seen))
    (hseen : s.values.head? = some seen) (hv : R seen v) : Ordered R result (s.store i v) where
  values := by
    obtain ⟨older, hvalues⟩ := List.head?_eq_some_iff.mp hseen
    have hpairwise := h.values
    refine List.pairwise_cons.mpr ⟨?_, h.values⟩
    intro w hw
    change w ∈ s.values at hw
    rw [hvalues] at hw hpairwise
    rcases List.mem_cons.mp hw with rfl | hw
    · exact hv
    · exact htrans (List.rel_of_pairwise_cons hpairwise hw) hv
  calls j := by
    by_cases hj : j = i
    · subst hj
      simp only [State.store, update_self]
      exact List.mem_cons_self
    · have hmem : ∀ w, (j, w) ∈ (i, v) :: s.stores ↔ (j, w) ∈ s.stores := by simp [hj]
      simpa only [State.store, update_of_ne hj, hmem] using h.calls j
  once := by
    refine List.nodup_cons.mpr ⟨?_, h.once⟩
    intro hmem
    obtain ⟨⟨_, w⟩, hw, rfl⟩ := List.mem_map.mp hmem
    exact h.explained hi w hw

/-- A step towards a higher value at every exchange orders all of them. -/
theorem Ordered.step (h : Ordered R result s) (htrans : ∀ {a b c}, R a b → R b c → R a c)
    (hnext : ∀ input v, R v (next input v)) {label : Label I V}
    (hs : Step next result s label t) : Ordered R result t := by
  cases hs with
  | @call i input hi =>
    have hfree := h.calls i
    rw [hi] at hfree
    exact h.setPhase hfree
  | load hi _ | fail hi _ =>
    have hfree := h.explained hi
    exact h.setPhase hfree
  | exchange hi hseen => exact h.store htrans hi hseen (hnext _ _)
  | finish hi => exact h.setPhase ⟨_, h.explained hi, rfl⟩

theorem ordered_of_run (htrans : ∀ {a b c}, R a b → R b c → R a c)
    (hnext : ∀ input v, R v (next input v)) {labels : List (Label I V)}
    (h : Run (Step next result) (.start v) labels s) : Ordered R result s :=
  h.invariant (fun _ _ _ hs hstep => hs.step htrans hnext hstep) (ordered_start v)

end Rules

end Exchange
