import Mathlib.Data.Option.Basic
import Mathlib.Tactic.Simps.Basic

/-! One object behind an optimistic-concurrency API: every write gets a fresh version, a create
needs the object to be absent, and a replace needs the version it read to be current. -/
namespace Versioned

structure Object (α : Type) where
  version : Nat
  value : α

/-- `next` is above every version handed out so far. -/
structure Server (α : Type) where
  stored : Option (Object α)
  next : Nat
  bound : ∀ o, stored = some o → o.version < next

variable {α : Type} {s t : Server α} {o : Object α} {v : α} {n : Nat}

@[simps]
def Server.empty : Server α := ⟨none, 1, nofun⟩

/-- What a write that the server accepts leaves behind. -/
def Server.put (s : Server α) (v : α) : Server α where
  stored := some ⟨s.next, v⟩
  next := s.next + 1
  bound := by
    intro o h
    cases h
    exact Nat.lt_succ_self _

inductive Write (α : Type)
  | create (value : α)
  | replace (version : Nat) (value : α)

def Write.value : Write α → α
  | .create v => v
  | .replace _ v => v

/-- Whether the server takes the write in its present state; if not, it answers a conflict. -/
def Server.Accepts (s : Server α) : Write α → Prop
  | .create _ => s.stored = none
  | .replace n _ => ∃ o, s.stored = some o ∧ o.version = n

/-- A read that is still true if its version is still current. -/
def Server.Saw (s : Server α) (o : Object α) : Prop :=
  o.version < s.next ∧ ∀ o', s.stored = some o' → o'.version = o.version → o' = o

theorem Server.saw_of_get (h : s.stored = some o) : s.Saw o := by
  refine ⟨s.bound o h, ?_⟩
  intro o' h' _
  exact Option.some.inj (h'.symm.trans h)

theorem Server.Saw.put (h : s.Saw o) : (s.put v).Saw o := by
  refine ⟨Nat.lt_succ_of_lt h.1, ?_⟩
  intro o' h' he
  cases h'
  exact absurd he (Nat.ne_of_gt h.1)

/-- An accepted replace of a version one has seen replaces exactly what one has seen. -/
theorem Server.Saw.stored_of_accepts (h : s.Saw o) (ha : s.Accepts (.replace o.version v)) :
    s.stored = some o := by
  obtain ⟨o', ho', he⟩ := ha
  rw [ho', h.2 o' ho' he]

end Versioned
