import Mathlib.Data.List.Basic

/-! Lists taken as the segments between the occurrences of a separator. -/
namespace Segments

variable {α : Type} {sep : α} {xs ys zs : List α}

theorem intercalate_append {as bs : List (List α)} (ha : as ≠ []) (hb : bs ≠ []) :
    [sep].intercalate (as ++ bs) = [sep].intercalate as ++ sep :: [sep].intercalate bs := by
  induction as with
  | nil => exact absurd rfl ha
  | cons a as ih =>
    cases as with
    | nil => simp [List.intercalate_cons_of_ne_nil hb]
    | cons a' as =>
      have h := ih (by simp)
      rw [List.cons_append, List.cons_append, List.intercalate_cons_cons, ← List.cons_append, h,
        List.intercalate_cons_cons]
      simp

theorem mem_intercalate {x : α} {as : List (List α)} (h : x ∈ [sep].intercalate as) :
    x = sep ∨ ∃ a ∈ as, x ∈ a := by
  induction as with
  | nil => simp at h
  | cons a as ih =>
    cases as with
    | nil => exact .inr ⟨a, List.mem_singleton.mpr rfl, by simpa using h⟩
    | cons a' as =>
      rw [List.intercalate_cons_cons, List.mem_append, List.mem_append, List.mem_singleton] at h
      rcases h with (h | h) | h
      · exact .inr ⟨a, List.mem_cons_self, h⟩
      · exact .inl h
      · rcases ih h with h | ⟨b, hb, h⟩
        · exact .inl h
        · exact .inr ⟨b, List.mem_cons_of_mem _ hb, h⟩

variable [BEq α] [LawfulBEq α]

theorem splitOn_inj : xs.splitOn sep = ys.splitOn sep ↔ xs = ys := by
  refine ⟨fun h => ?_, fun h => h ▸ rfl⟩
  calc xs = [sep].intercalate (xs.splitOn sep) := (List.intercalate_splitOn sep).symm
    _ = [sep].intercalate (ys.splitOn sep) := by rw [h]
    _ = ys := List.intercalate_splitOn sep

/-- Segments that go on after those of `xs` are the segments of what follows the separator. -/
theorem exists_of_splitOn_eq_append {rest : List (List α)} (hrest : rest ≠ [])
    (h : zs.splitOn sep = xs.splitOn sep ++ rest) :
    ∃ ys, zs = xs ++ sep :: ys ∧ ys.splitOn sep = rest := by
  have hz : zs = xs ++ sep :: [sep].intercalate rest := by
    calc zs = [sep].intercalate (zs.splitOn sep) := (List.intercalate_splitOn sep).symm
      _ = [sep].intercalate (xs.splitOn sep) ++ sep :: [sep].intercalate rest := by
        rw [h, intercalate_append (List.splitOn_ne_nil _ _) hrest]
      _ = xs ++ sep :: [sep].intercalate rest := by rw [List.intercalate_splitOn]
  refine ⟨_, hz, ?_⟩
  rw [hz, List.splitOn_append_cons_self] at h
  exact List.append_cancel_left h

theorem append_sep_prefix_iff : xs ++ [sep] <+: zs ↔
    ∃ rest, rest ≠ [] ∧ zs.splitOn sep = xs.splitOn sep ++ rest := by
  constructor
  · rintro ⟨ys, rfl⟩
    refine ⟨ys.splitOn sep, List.splitOn_ne_nil _ _, ?_⟩
    rw [List.append_assoc]
    exact List.splitOn_append_cons_self ..
  · rintro ⟨rest, hrest, h⟩
    obtain ⟨ys, rfl, -⟩ := exists_of_splitOn_eq_append hrest h
    exact ⟨ys, by simp⟩

theorem sep_cons_suffix_iff : sep :: xs <:+ zs ↔
    ∃ front, front ≠ [] ∧ zs.splitOn sep = front ++ xs.splitOn sep := by
  constructor
  · rintro ⟨ys, rfl⟩
    exact ⟨ys.splitOn sep, List.splitOn_ne_nil _ _, List.splitOn_append_cons_self ..⟩
  · rintro ⟨front, hfront, h⟩
    refine ⟨[sep].intercalate front, ?_⟩
    calc [sep].intercalate front ++ sep :: xs
        = [sep].intercalate front ++ sep :: [sep].intercalate (xs.splitOn sep) := by
          rw [List.intercalate_splitOn]
      _ = [sep].intercalate (zs.splitOn sep) := by
          rw [h, intercalate_append hfront (List.splitOn_ne_nil _ _)]
      _ = zs := List.intercalate_splitOn sep

/-- The last segments of a list, told from its end. -/
theorem splitOn_suffix_iff : xs.splitOn sep <:+ zs.splitOn sep ↔ zs = xs ∨ sep :: xs <:+ zs := by
  rw [sep_cons_suffix_iff]
  constructor
  · rintro ⟨front, h⟩
    by_cases hfront : front = []
    · subst hfront
      exact .inl (splitOn_inj.mp h.symm)
    · exact .inr ⟨front, hfront, h.symm⟩
  · rintro (rfl | ⟨front, -, h⟩)
    · exact List.suffix_rfl
    · exact ⟨front, h.symm⟩

/-- A segment holds no separator. -/
theorem not_mem_of_mem_splitOn {s : List α} (h : s ∈ xs.splitOn sep) : sep ∉ s := by
  induction xs generalizing s with
  | nil => simp_all
  | cons x xs ih =>
    rw [List.splitOn_cons_eq_if_modifyHead] at h
    by_cases hx : x = sep
    · rw [if_pos (by simpa using hx)] at h
      rcases List.mem_cons.mp h with rfl | h
      · simp
      · exact ih h
    · rw [if_neg (by simpa using hx)] at h
      obtain ⟨t, ts, hts⟩ := List.exists_cons_of_ne_nil (List.splitOn_ne_nil sep xs)
      rw [hts, List.modifyHead_cons] at h
      rw [hts] at ih
      rcases List.mem_cons.mp h with rfl | h
      · simpa [Ne.symm hx] using ih List.mem_cons_self
      · exact ih (List.mem_cons_of_mem _ h)

end Segments
