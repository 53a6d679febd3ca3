import Mathlib.Data.List.Basic

/-! Lists put together from parts, each behind its length, from which the parts can be told. -/
namespace Delimited

variable {α β : Type} {ok : β → Prop}

/-- A code word is read off the front of a list in one way only. -/
def PrefixFree (ok : β → Prop) (code : β → List α) : Prop :=
  ∀ ⦃m n : β⦄ ⦃x y : List α⦄, ok m → ok n → code m ++ x = code n ++ y → m = n ∧ x = y

/-- The first occurrence of a mark tells what stands before it. -/
theorem append_mark_inj {mark : α} {xs ys x y : List α} (hxs : mark ∉ xs) (hys : mark ∉ ys)
    (h : xs ++ mark :: x = ys ++ mark :: y) : xs = ys ∧ x = y := by
  induction xs generalizing ys with
  | nil =>
    cases ys with
    | nil => exact ⟨rfl, (List.cons.inj h).2⟩
    | cons b ys => exact absurd (List.cons.inj h).1 (List.ne_of_not_mem_cons hys)
  | cons a xs ih =>
    cases ys with
    | nil => exact absurd (List.cons.inj h).1.symm (List.ne_of_not_mem_cons hxs)
    | cons b ys =>
      obtain ⟨rfl, hrest⟩ := List.cons.inj h
      obtain ⟨rfl, hxy⟩ := ih (List.not_mem_of_not_mem_cons hxs)
        (List.not_mem_of_not_mem_cons hys) hrest
      exact ⟨rfl, hxy⟩

/-- Words that end at the first occurrence of a mark. -/
theorem prefixFree_of_mark {word : β → List α} {mark : α} (hword : Function.Injective word)
    (hmark : ∀ n, mark ∉ word n) : PrefixFree (fun _ => True) fun n => word n ++ [mark] := by
  intro m n x y _ _ h
  simp only [List.append_assoc, List.singleton_append] at h
  obtain ⟨hwords, hrest⟩ := append_mark_inj (hmark m) (hmark n) h
  exact ⟨hword hwords, hrest⟩

def frame (code : Nat → List α) (part : List α) : List α := code part.length ++ part

section Frames

variable {code : Nat → List α} {ok : Nat → Prop} {xs ys x y : List α}

theorem frame_inj (h : PrefixFree ok code) (hxs : ok xs.length) (hys : ok ys.length)
    (heq : frame code xs ++ x = frame code ys ++ y) : xs = ys ∧ x = y := by
  simp only [frame, List.append_assoc] at heq
  obtain ⟨hlength, hrest⟩ := h hxs hys heq
  exact List.append_inj hrest hlength

end Frames

end Delimited
