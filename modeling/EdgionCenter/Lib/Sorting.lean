import Mathlib.Data.List.Destutter
import Mathlib.Data.List.Sort

/-! Sorting and grouping the elements of a list by a key. -/
namespace Sorting

variable {α κ : Type} [LinearOrder κ] {key : α → κ} {l l' : List α}

/-- `sort_by`, which is stable. -/
def sortOn (key : α → κ) (l : List α) : List α := l.mergeSort fun a b => key a ≤ key b

theorem sortOn_perm (key : α → κ) (l : List α) : (sortOn key l).Perm l := l.mergeSort_perm _

variable {a : α} {β : Type}

@[simp] theorem mem_sortOn : a ∈ sortOn key l ↔ a ∈ l := (sortOn_perm key l).mem_iff

theorem pairwise_sortOn (key : α → κ) (l : List α) :
    (sortOn key l).Pairwise fun a b => key a ≤ key b := by
  have h : (sortOn key l).Pairwise fun a b => decide (key a ≤ key b) = true := by
    apply List.pairwise_mergeSort
    · intro a b c hab hbc
      simp only [decide_eq_true_eq] at hab hbc ⊢
      exact hab.trans hbc
    · intro a b
      simpa using le_total (key a) (key b)
  exact h.imp of_decide_eq_true

theorem sortOn_of_pairwise (h : l.Pairwise fun a b => key a ≤ key b) : sortOn key l = l :=
  List.mergeSort_of_pairwise (h.imp decide_eq_true)

/-- If the key tells the elements apart, the order of the input does not matter. -/
theorem sortOn_eq_of_injOn (h : l.Perm l') (hkeys : ∀ a ∈ l, ∀ b ∈ l, key a = key b → a = b) :
    sortOn key l = sortOn key l' := by
  have hperm : (sortOn key l).Perm (sortOn key l') :=
    (sortOn_perm key l).trans (h.trans (sortOn_perm key l').symm)
  refine List.Perm.eq_of_pairwise ?_ (pairwise_sortOn key l) (pairwise_sortOn key l') hperm
  intro a b ha hb hab hba
  exact hkeys a (mem_sortOn.mp ha) b (h.mem_iff.mpr (mem_sortOn.mp hb)) (le_antisymm hab hba)

theorem sortOn_eq_of_perm (h : l.Perm l') (hkeys : (l.map key).Nodup) :
    sortOn key l = sortOn key l' :=
  sortOn_eq_of_injOn h fun _ ha _ hb heq => List.inj_on_of_nodup_map hkeys ha hb heq

theorem strict_sortOn (hkeys : (l.map key).Nodup) :
    (sortOn key l).Pairwise fun a b => key a < key b := by
  have hnodup : (sortOn key l).Pairwise fun a b => key a ≠ key b := by
    have hmap : ((sortOn key l).map key).Nodup := ((sortOn_perm key l).map key).nodup_iff.mpr hkeys
    rwa [List.nodup_iff_pairwise_ne, List.pairwise_map] at hmap
  exact (pairwise_sortOn key l).imp₂ (fun _ _ => lt_of_le_of_ne) hnodup

/-- Sorting does not move the elements of one key past each other. -/
theorem filter_sortOn (key : α → κ) (k : κ) (l : List α) :
    (sortOn key l).filter (fun a => key a = k) = l.filter fun a => key a = k := by
  have hsorted : (l.filter fun a => key a = k).Pairwise fun a b => decide (key a ≤ key b) = true := by
    refine List.pairwise_of_forall_mem_list ?_
    intro a ha b hb
    have hka := of_decide_eq_true (List.mem_filter.mp ha).2
    have hkb := of_decide_eq_true (List.mem_filter.mp hb).2
    rw [decide_eq_true_eq, hka, hkb]
  have hsub : (l.filter fun a => key a = k).Sublist (sortOn key l) := by
    refine List.sublist_mergeSort ?_ ?_ hsorted List.filter_sublist
    · intro a b c hab hbc
      simp only [decide_eq_true_eq] at hab hbc ⊢
      exact hab.trans hbc
    · intro a b
      simpa using le_total (key a) (key b)
  have hkeep := hsub.filter fun a => decide (key a = k)
  rw [List.filter_filter] at hkeep
  simp only [Bool.and_self] at hkeep
  exact (hkeep.eq_of_length ((sortOn_perm key l).filter _).length_eq.symm).symm

section Dedup

variable [DecidableEq α]

/-- `sort_by_key`, then `dedup`, which drops an element that is equal to the one in front of it. -/
def sortDedup (key : α → κ) (l : List α) : List α := (sortOn key l).destutter (· ≠ ·)

theorem find?_destutter' (p : α → Bool) (a : α) (l : List α) :
    (l.destutter' (· ≠ ·) a).find? p = (a :: l).find? p := by
  induction l generalizing a with
  | nil => rfl
  | cons b l ih =>
    by_cases hab : a = b
    · subst hab
      rw [List.destutter'_cons_neg _ (not_not.mpr rfl), ih, List.find?_cons, List.find?_cons]
      cases hp : p a <;> simp [hp]
    · rw [List.destutter'_cons_pos _ hab, List.find?_cons, List.find?_cons, ih]

theorem find?_destutter (p : α → Bool) (l : List α) :
    (l.destutter (· ≠ ·)).find? p = l.find? p := by
  cases l with
  | nil => rfl
  | cons a l => exact find?_destutter' p a l

/-- The first element of a key stays the first one. -/
theorem find?_sortDedup (key : α → κ) (k : κ) (l : List α) :
    (sortDedup key l).find? (fun a => key a = k) = l.find? fun a => key a = k := by
  rw [sortDedup, find?_destutter, ← List.head?_filter, ← List.head?_filter, filter_sortOn]

@[simp] theorem mem_sortDedup {a : α} : a ∈ sortDedup key l ↔ a ∈ l := by
  constructor
  · intro h
    exact mem_sortOn.mp ((List.destutter_sublist _ _).subset h)
  · intro h
    have hfound : ((sortDedup key l).find? fun b => b = a).isSome = true := by
      rw [sortDedup, find?_destutter, List.find?_isSome]
      exact ⟨a, mem_sortOn.mpr h, decide_eq_true rfl⟩
    obtain ⟨b, hb, hba⟩ := List.find?_isSome.mp hfound
    exact of_decide_eq_true hba ▸ hb

variable (hkeys : ∀ a ∈ l, ∀ b ∈ l, key a = key b → a = b)

include hkeys

/-- If the key tells the elements apart, each is kept once, in the order of the keys. -/
theorem strict_sortDedup : (sortDedup key l).Pairwise fun a b => key a < key b := by
  have hsub := List.destutter_sublist (· ≠ ·) (sortOn key l)
  have hle : (sortDedup key l).Pairwise fun a b => key a ≤ key b :=
    (pairwise_sortOn key l).sublist hsub
  have hchain : (sortDedup key l).IsChain fun a b => key a < key b := by
    have hne : (sortDedup key l).IsChain (· ≠ ·) := List.isChain_destutter _ _
    rw [List.isChain_iff_getElem] at hne ⊢
    intro i hi
    have hmem : ∀ {a}, a ∈ sortDedup key l → a ∈ l := mem_sortDedup.mp
    refine lt_of_le_of_ne (List.pairwise_iff_getElem.mp hle i (i + 1) _ _ (Nat.lt_succ_self i)) ?_
    intro heq
    exact hne i hi (hkeys _ (hmem (List.getElem_mem _)) _ (hmem (List.getElem_mem _)) heq)
  exact List.isChain_iff_pairwise.mp hchain

theorem nodup_sortDedup : (sortDedup key l).Nodup :=
  (strict_sortDedup hkeys).imp fun h heq => h.ne (congrArg key heq)

theorem sortDedup_eq_of_perm (h : l.Perm l') : sortDedup key l = sortDedup key l' := by
  have hkeys' : ∀ a ∈ l', ∀ b ∈ l', key a = key b → a = b := fun a ha b hb =>
    hkeys a (h.mem_iff.mpr ha) b (h.mem_iff.mpr hb)
  have hperm : (sortDedup key l).Perm (sortDedup key l') := by
    rw [List.perm_ext_iff_of_nodup (nodup_sortDedup hkeys) (nodup_sortDedup hkeys')]
    intro a
    rw [mem_sortDedup, mem_sortDedup, h.mem_iff]
  refine List.Perm.eq_of_pairwise ?_ (strict_sortDedup hkeys) (strict_sortDedup hkeys') hperm
  intro a b _ _ hab hba
  exact absurd hba hab.asymm

end Dedup

/-- The elements under their keys, the keys in order: a `BTreeMap` of vectors that was filled by
pushing one element after the other. -/
def groupOn (key : α → κ) (l : List α) : List (κ × List α) :=
  (sortOn id (l.map key).dedup).map fun k => (k, l.filter fun a => key a = k)

theorem mem_groupOn {group : κ × List α} : group ∈ groupOn key l ↔
    (∃ a ∈ l, key a = group.1) ∧ group.2 = l.filter fun a => key a = group.1 := by
  obtain ⟨k, members⟩ := group
  simp only [groupOn, List.mem_map, mem_sortOn, List.mem_dedup, Prod.mk.injEq]
  constructor
  · rintro ⟨_, h, rfl, rfl⟩
    exact ⟨h, rfl⟩
  · rintro ⟨h, hmembers⟩
    exact ⟨k, h, rfl, hmembers.symm⟩

theorem keys_groupOn (key : α → κ) (l : List α) :
    (groupOn key l).map Prod.fst = sortOn id (l.map key).dedup := by
  rw [groupOn, List.map_map]
  exact List.map_id _

theorem strict_groupOn (key : α → κ) (l : List α) :
    ((groupOn key l).map Prod.fst).Pairwise (· < ·) := by
  have hkeys : ((l.map key).dedup.map id).Nodup := by
    rw [List.map_id]
    exact List.nodup_dedup _
  rw [keys_groupOn]
  exact strict_sortOn hkeys

theorem length_groupOn_le (key : α → κ) (l : List α) : (groupOn key l).length ≤ l.length := by
  rw [groupOn, List.length_map, (sortOn_perm id _).length_eq, ← List.length_map key]
  exact (List.dedup_sublist _).length_le

theorem groupOn_congr (h : l.Perm l') {f : κ × List α → β}
    (hf : ∀ k, f (k, l.filter fun a => key a = k) = f (k, l'.filter fun a => key a = k)) :
    (groupOn key l).map f = (groupOn key l').map f := by
  have hkeys : sortOn id (l.map key).dedup = sortOn id (l'.map key).dedup := by
    refine sortOn_eq_of_perm (h.map key).dedup ?_
    rw [List.map_id]
    exact List.nodup_dedup _
  rw [groupOn, groupOn, hkeys, List.map_map, List.map_map]
  exact List.map_congr_left fun k _ => hf k

/-- No two elements have both things in common, if none of a group have the second one. -/
theorem nodup_pairs_iff {f : α → β} : (l.map fun a => (key a, f a)).Nodup ↔
      ∀ k, ((l.filter fun a => key a = k).map f).Nodup := by
  simp only [List.nodup_iff_pairwise_ne, List.pairwise_map]
  constructor
  · intro h k
    refine (h.sublist List.filter_sublist).imp_of_mem ?_
    intro a b ha hb hne heq
    have hka := of_decide_eq_true (List.mem_filter.mp ha).2
    have hkb := of_decide_eq_true (List.mem_filter.mp hb).2
    exact hne (Prod.ext (hka.trans hkb.symm) heq)
  · intro h
    induction l with
    | nil => exact .nil
    | cons a l ih =>
      refine .cons ?_ (ih fun k =>
        (h k).sublist (List.Sublist.filter _ (List.sublist_cons_self _ _)))
      intro b hb heq
      have hgroup := h (key a)
      rw [List.filter_cons_of_pos (by simp), List.pairwise_cons] at hgroup
      have hkb : key b = key a := (Prod.mk.inj heq).1.symm
      exact hgroup.1 b (List.mem_filter.mpr ⟨hb, decide_eq_true hkb⟩) (Prod.mk.inj heq).2

/-- `partition_point`, for a list that the predicate splits in two. -/
def partitionPoint (p : α → Bool) (l : List α) : Nat := (l.takeWhile p).length

/-- In a list in order, what is up to an element is in front of the rest. -/
theorem partitionPoint_le {front back : List α}
    (h : (front ++ a :: back).Pairwise fun x y => key x < key y) :
    partitionPoint (fun x => key x ≤ key a) (front ++ a :: back) = front.length + 1 := by
  rw [List.pairwise_append, List.pairwise_cons] at h
  obtain ⟨-, ⟨hback, -⟩, hfront⟩ := h
  have hall : ∀ x ∈ front ++ [a], decide (key x ≤ key a) = true := by
    simp only [decide_eq_true_eq]
    exact List.forall_mem_append.mpr ⟨fun x hx => (hfront x hx a List.mem_cons_self).le,
      List.forall_mem_singleton.mpr le_rfl⟩
  have hrest : back.takeWhile (fun x => decide (key x ≤ key a)) = [] := by
    cases back with
    | nil => rfl
    | cons b back =>
      rw [List.takeWhile_cons_of_neg]
      simpa using hback b List.mem_cons_self
  rw [partitionPoint, ← List.singleton_append, ← List.append_assoc,
    List.takeWhile_append_of_pos hall, hrest, List.append_nil, List.length_append,
    List.length_singleton]

end Sorting
