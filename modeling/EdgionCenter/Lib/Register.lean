import Mathlib.Data.List.MinMax
import Mathlib.Data.Prod.Lex

/-! A register fenced by revisions. A write publishes a revision or retires one. A retired revision
stands above the same revision live, so that every write is a join: neither the order of writes nor
their repetition matters. -/
namespace Register

variable {R : Type*}

inductive Write (R : Type*)
  | publish (r : R)
  | retire (r : R)

namespace Write

/-- The write of a revision, retired or live. -/
def of (retired : Bool) (r : R) : Write R := if retired then retire r else publish r

def revision : Write R → R
  | publish r | retire r => r

def mark : Write R → R ×ₗ Bool
  | publish r => toLex (r, false)
  | retire r => toLex (r, true)

@[simp] theorem revision_of (retired : Bool) (r : R) : (of retired r).revision = r := by
  cases retired <;> rfl

theorem of_eq_retire_iff {retired : Bool} {r q : R} :
    of retired r = retire q ↔ retired = true ∧ r = q := by
  cases retired <;> simp [of]

end Write

variable [LinearOrder R] {r q : R} {b c : Bool} {ws : List (Write R)}

/-- The highest mark so far. -/
abbrev State (R : Type*) := WithBot (R ×ₗ Bool)

-- Found first, so that the order of marks comes from the linear order of revisions.
instance : Preorder (State R) := inferInstance

def held (r : R) (retired : Bool) : State R := ((toLex (r, retired) : R ×ₗ Bool) : State R)

def write (s : State R) (w : Write R) : State R := max s w.mark

theorem held_le_held : held q c ≤ held r b ↔ q < r ∨ q = r ∧ c ≤ b :=
  WithBot.coe_le_coe.trans Prod.Lex.toLex_le_toLex

theorem write_bot_publish : write ⊥ (.publish r) = held r false := max_eq_right bot_le

theorem write_bot_retire : write ⊥ (.retire r) = held r true := max_eq_right bot_le

theorem le_write (s : State R) (w : Write R) : s ≤ write s w := le_max_left _ _

theorem held_le_write_retire (s : State R) : held r true ≤ write s (.retire r) := le_max_right _ _

/-- Publishing takes over what is below. -/
theorem write_publish :
    write (held q b) (.publish r) = if q < r then held r false else held q b := by
  split_ifs with h
  · exact max_eq_right (held_le_held.mpr (.inl h))
  · refine max_eq_left (held_le_held.mpr ?_)
    exact (lt_or_eq_of_le (not_lt.mp h)).imp_right fun h => ⟨h, Bool.false_le b⟩

/-- Retiring takes over what is below, and its own revision. -/
theorem write_retire : write (held q b) (.retire r) = if q ≤ r then held r true else held q b := by
  split_ifs with h
  · refine max_eq_right (held_le_held.mpr ?_)
    exact (lt_or_eq_of_le h).imp_right fun h => ⟨h, Bool.le_true b⟩
  · exact max_eq_left (held_le_held.mpr (.inl (not_le.mp h)))

theorem foldl_write (s : State R) : ws.foldl write s = max s (ws.map Write.mark).maximum := by
  induction ws generalizing s with
  | nil => simp
  | cons w ws ih => rw [List.foldl_cons, ih, write, List.map_cons, List.maximum_cons, max_assoc]

/-- The register holds the highest revision written, and holds it live exactly if it was never
retired. -/
theorem foldl_write_bot (h : ws.foldl write ⊥ = held r b) :
    (∃ w ∈ ws, w.revision = r) ∧ (∀ w ∈ ws, w.revision ≤ r) ∧ (b = true ↔ .retire r ∈ ws) := by
  rw [foldl_write, max_eq_right bot_le] at h
  obtain ⟨hmem, hmax⟩ := List.maximum_eq_coe_iff.mp h
  obtain ⟨w, hw, hmark⟩ := List.mem_map.mp hmem
  have hle : ∀ w ∈ ws, w.mark ≤ toLex (r, b) := fun w hw => hmax _ (List.mem_map_of_mem hw)
  refine ⟨⟨w, hw, ?_⟩, fun w hw => ?_, fun hb => ?_, fun hr => ?_⟩
  · cases w <;> cases hmark <;> rfl
  · have := Prod.Lex.toLex_le_toLex.mp (hle w hw)
    cases w <;> exact this.elim le_of_lt fun h => h.1.le
  · subst hb
    cases w <;> cases hmark
    exact hw
  · rcases Prod.Lex.toLex_le_toLex.mp (hle _ hr) with h | ⟨-, h⟩
    · exact absurd h (lt_irrefl r)
    · exact le_antisymm (Bool.le_true b) h

theorem foldl_write_ne_bot (h : ws ≠ []) : ws.foldl write (⊥ : State R) ≠ ⊥ := by
  rw [foldl_write, max_eq_right bot_le]
  simpa [List.maximum_eq_bot] using h

section Refinement

variable {S O : Type*} {step : S → O → S} {f : S → State R} {w : O → Write R} {P : O → Prop}
  {I : S → Prop}

/-- A system whose every operation acts on its view as a write replays the writes. -/
theorem view_foldl (hstep : ∀ s o, P o → I s → I (step s o) ∧ f (step s o) = write (f s) (w o)) :
    ∀ (os : List O) (s : S), (∀ o ∈ os, P o) → I s →
      I (os.foldl step s) ∧ f (os.foldl step s) = (os.map w).foldl write (f s) := by
  intro os
  induction os with
  | nil => exact fun s _ hs => ⟨hs, rfl⟩
  | cons o os ih =>
    intro s hos hs
    obtain ⟨hinv, hview⟩ := hstep s o (hos o (by simp)) hs
    rw [List.map_cons, List.foldl_cons, List.foldl_cons, ← hview]
    exact ih (step s o) (fun o' ho' => hos o' (by simp [ho'])) hinv

end Refinement

section Sources

variable {ι O : Type*} {source : ι → O → Prop} {rev : ι → R} {retired : O → Bool}
  {revision : O → R} {os : List O} {i : ι}

/-- Source `i` has written, and none of a higher revision has. -/
def Highest (source : ι → O → Prop) (rev : ι → R) (os : List O) (i : ι) : Prop :=
  (∃ o ∈ os, source i o) ∧ ∀ o ∈ os, ∀ j, source j o → rev j ≤ rev i

/-- When every write is some source's, and sources differ in their revisions, the register holds the
highest source that wrote. -/
theorem source_of_foldl (hrev : Function.Injective rev) (hos : ∀ o ∈ os, ∃ i, source i o)
    (hsource : ∀ i o, source i o → revision o = rev i)
    (h : (os.map fun o => Write.of (retired o) (revision o)).foldl write ⊥ = held (rev i) b) :
    Highest source rev os i ∧ (b = true ↔ ∃ o ∈ os, source i o ∧ retired o = true) := by
  have hown : ∀ o ∈ os, revision o = rev i → source i o := by
    intro o ho he
    obtain ⟨j, hj⟩ := hos o ho
    obtain rfl : j = i := hrev ((hsource j o hj).symm.trans he)
    exact hj
  obtain ⟨⟨w, hw, hrevision⟩, hmax, hretired⟩ := foldl_write_bot h
  obtain ⟨o, ho, rfl⟩ := List.mem_map.mp hw
  refine ⟨⟨⟨o, ho, hown o ho (by simpa using hrevision)⟩, fun o ho j hj => ?_⟩, hretired.trans ?_⟩
  · simpa [hsource j o hj] using hmax _ (List.mem_map_of_mem ho)
  · simp only [List.mem_map, Write.of_eq_retire_iff]
    constructor
    · rintro ⟨o, ho, hr, he⟩
      exact ⟨o, ho, hown o ho he, hr⟩
    · rintro ⟨o, ho, hs, hr⟩
      exact ⟨o, ho, hr, hsource i o hs⟩

end Sources

end Register
