import EdgionCenter.Lib.Interaction

/-! Programs side by side, whose calls are served in any order. -/
namespace Interaction

variable {C : Type} {R : C → Type} {α : Type}

/-- What is left of the programs after the calls of the log, each of which is listed with the
position of its program. -/
inductive Interleaves :
    List (Interaction C R α) → List (Nat × Sigma R) → List (Interaction C R α) → Prop
  | refl {programs : List (Interaction C R α)} : Interleaves programs [] programs
  | serve {programs left : List (Interaction C R α)} {i : Nat} {c : C}
      {next : R c → Interaction C R α} {r : R c} {log : List (Nat × Sigma R)}
      (h : programs[i]? = some (call c next))
      (hrest : Interleaves (programs.set i (next r)) log left) :
      Interleaves programs ((i, ⟨c, r⟩) :: log) left

/-- The calls of one program. -/
def callsOf (i : Nat) (log : List (Nat × Sigma R)) : List (Sigma R) :=
  (log.filter fun entry => entry.1 = i).map (·.2)

variable {programs left : List (Interaction C R α)} {log : List (Nat × Sigma R)} {i : Nat}
  {p q : Interaction C R α} {guard : List (Sigma R) → C → Prop}

/-- To each program it is as if it ran alone. -/
theorem Interleaves.reaches (h : Interleaves programs log left) (hleft : left[i]? = some q)
    (before : List (Sigma R)) : ∃ p, programs[i]? = some p ∧
      Reaches (Monitor.history guard) p before q (before ++ callsOf i log) := by
  induction h generalizing before with
  | refl =>
    refine ⟨q, hleft, ?_⟩
    rw [callsOf, List.filter_nil, List.map_nil, List.append_nil]
    exact .refl
  | @serve programs left j c next r log hnext _ ih =>
    by_cases hij : j = i
    · subst hij
      obtain ⟨p, hp, hreach⟩ := ih hleft (before ++ [⟨c, r⟩])
      have hlt := (List.getElem?_eq_some_iff.mp hnext).1
      rw [List.getElem?_set_self hlt] at hp
      obtain rfl : next r = p := Option.some.inj hp
      refine ⟨_, hnext, .step (r := r) trivial ?_⟩
      simpa [callsOf, Monitor.history] using hreach
    · obtain ⟨p, hp, hreach⟩ := ih hleft before
      rw [List.getElem?_set_ne hij] at hp
      refine ⟨p, hp, ?_⟩
      simpa [callsOf, hij] using hreach

/-- What every program keeps to when it runs alone holds of each call that is made. -/
theorem Interleaves.guarded {post : List (Sigma R) → α → Prop} {c : C}
    {next : R c → Interaction C R α} (h : Interleaves programs log left)
    (hall : ∀ p ∈ programs, Holds (Monitor.history guard) p post [])
    (hcall : left[i]? = some (call c next)) : guard (callsOf i log) c := by
  obtain ⟨p, hp, hreach⟩ := h.reaches hcall []
  exact (hall p (List.mem_of_getElem? hp)).of_call hreach

end Interaction
