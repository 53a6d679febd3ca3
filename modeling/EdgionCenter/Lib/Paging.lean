import Mathlib.Data.List.Basic

/-! Listings that are served page by page, each page with a token for the next one. -/
namespace Paging

variable {T Token ε : Type} {list : Nat → Option Token → Except ε (List T × Option Token)}
  {i : Nat} {token : Option Token} {pages pages' : List (List T)}

/-- The pages that one gets by following the tokens; `list i` serves the `i`-th request. -/
inductive Traversal (list : Nat → Option Token → Except ε (List T × Option Token)) :
    Nat → Option Token → List (List T) → Prop
  | last {i : Nat} {token : Option Token} {items : List T} (h : list i token = .ok (items, none)) :
      Traversal list i token [items]
  | more {i : Nat} {token : Option Token} {items : List T} {next : Token}
      {pages : List (List T)} (h : list i token = .ok (items, some next))
      (hrest : Traversal list (i + 1) (some next) pages) :
      Traversal list i token (items :: pages)

theorem Traversal.unique (h : Traversal list i token pages)
    (h' : Traversal list i token pages') : pages = pages' := by
  induction h generalizing pages' with
  | last hlist =>
    cases h' with
    | last hlist' =>
      cases hlist.symm.trans hlist'
      rfl
    | more hlist' => cases hlist.symm.trans hlist'
  | more hlist _ ih =>
    cases h' with
    | last hlist' => cases hlist.symm.trans hlist'
    | more hlist' hrest' =>
      cases hlist.symm.trans hlist'
      rw [ih hrest']

/-- Following the tokens from the first page ends, and gives the inventory exactly once. -/
structure Exhausts (list : Nat → Option Token → Except ε (List T × Option Token))
    (inventory : List T) : Prop where
  ends : ∃ pages, Traversal list 0 none pages
  once : ∀ pages, Traversal list 0 none pages → pages.flatten = inventory
  filled : inventory ≠ [] → ∀ pages, Traversal list 0 none pages → ∀ page ∈ pages, page ≠ []

section Serve

variable {inventory : List T} {limit : Nat} (hlimit : 0 < limit)
  {At : Nat → Option Token → Nat → Prop}
  (hserve : ∀ i token offset, At i token offset → ∃ next,
    list i token = .ok ((inventory.drop offset).take limit, next) ∧
      (next = none → inventory.length ≤ offset + limit) ∧
      ∀ t, next = some t →
        offset + limit < inventory.length ∧ At (i + 1) (some t) (offset + limit))
include hlimit hserve

/-- Requests that are answered by the piece of the inventory at their offset, with a token for the
offset after it as long as something is left, get the whole inventory, without an empty page. -/
theorem exists_traversal {offset : Nat} (h : At i token offset)
    (hoffset : inventory ≠ [] → offset < inventory.length) : ∃ pages, Traversal list i token pages ∧ pages.flatten = inventory.drop offset ∧
      (inventory ≠ [] → ∀ page ∈ pages, page ≠ []) := by
  -- each request leaves less behind its offset
  induction hleft : inventory.length - offset using Nat.strongRecOn generalizing i token offset with
  | _ left ih =>
    obtain ⟨next, hlist, hlast, hmore⟩ := hserve i token offset h
    have hpage : inventory ≠ [] → (inventory.drop offset).take limit ≠ [] := by
      intro hne
      have := hoffset hne
      rw [Ne, List.take_eq_nil_iff, List.drop_eq_nil_iff]
      omega
    cases next with
    | none =>
      refine ⟨_, .last hlist, ?_, ?_⟩
      · rw [List.flatten_singleton, List.take_of_length_le]
        rw [List.length_drop]
        have := hlast rfl
        omega
      · intro hne page hmem
        rw [List.mem_singleton.mp hmem]
        exact hpage hne
    | some t =>
      obtain ⟨hlt, hnext⟩ := hmore t rfl
      obtain ⟨pages, htraversal, hflatten, hpages⟩ :=
        ih _ (by omega) hnext (fun _ => hlt) rfl
      refine ⟨_, .more hlist htraversal, ?_, ?_⟩
      · rw [List.flatten_cons, hflatten, ← List.drop_drop, List.take_append_drop]
      · intro hne page hmem
        rcases List.mem_cons.mp hmem with rfl | hmem
        · exact hpage hne
        · exact hpages hne page hmem

theorem Exhausts.of_serve (hfirst : At 0 none 0) : Exhausts list inventory := by
  obtain ⟨pages, htraversal, hflatten, hpages⟩ :=
    exists_traversal hlimit hserve hfirst fun hne => List.length_pos_iff.mpr hne
  rw [List.drop_zero] at hflatten
  constructor
  · exact ⟨pages, htraversal⟩
  · intro pages' h
    rw [h.unique htraversal, hflatten]
  · intro hne pages' h
    rw [h.unique htraversal]
    exact hpages hne

end Serve

/-- Requests that are answered by pages of their own, with a token up to the last one. -/
theorem traversal_pages {page : Nat → List T} {last : Nat} (At : Nat → Option Token → Prop)
    (hmore : ∀ i token, i < last → At i token →
      ∃ next, list i token = .ok (page i, some next) ∧ At (i + 1) (some next))
    (hlast : ∀ token, At last token → list last token = .ok (page last, none)) (hi : i ≤ last)
    (h : At i token) : Traversal list i token ((List.range' i (last + 1 - i)).map page) := by
  induction hleft : last - i generalizing i token with
  | zero =>
    obtain rfl : i = last := by omega
    rw [Nat.add_sub_cancel_left]
    exact .last (hlast token h)
  | succ left ih =>
    obtain ⟨next, hlist, hnext⟩ := hmore i token (by omega) h
    have hrest := ih (by omega) hnext (by omega)
    rw [show last + 1 - i = (last + 1 - (i + 1)) + 1 by omega, List.range'_succ, List.map_cons]
    exact .more hlist hrest

theorem Exhausts.first {inventory : List T} (h : Exhausts list inventory) :
    ∃ page, list 0 none = .ok page := by
  obtain ⟨_, htraversal⟩ := h.ends
  cases htraversal with
  | last h | more h => exact ⟨_, h⟩

end Paging
