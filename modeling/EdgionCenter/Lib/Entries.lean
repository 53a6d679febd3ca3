import Mathlib.Data.List.Nodup

/-! Iterating over a finite map in an unspecified order. -/
namespace Entries

variable {α β : Type} {cmp : α → α → Ordering} {entries : List (α × β)} {key : α}
  [Std.TransCmp cmp] [Std.LawfulEqCmp cmp] {m : Std.ExtTreeMap α β cmp}

theorem nodup_keys_of_perm (h : entries.Perm m.toList) : (entries.map Prod.fst).Nodup := by
  rw [(h.map Prod.fst).nodup_iff, List.nodup_iff_pairwise_ne, List.pairwise_map]
  exact m.distinct_keys_toList.imp (by simp)

variable {v : β}

theorem mem_iff_of_perm (h : entries.Perm m.toList) : (key, v) ∈ entries ↔ m[key]? = some v := by
  rw [h.mem_iff, Std.ExtTreeMap.mem_toList_iff_getElem?_eq_some]

theorem mem_keys_of_perm (h : entries.Perm m.toList) : key ∈ entries.map Prod.fst ↔ key ∈ m := by
  rw [Std.ExtTreeMap.mem_iff_isSome_getElem?, Option.isSome_iff_exists, List.mem_map]
  constructor
  · rintro ⟨⟨k, v⟩, hm, rfl⟩
    exact ⟨v, (mem_iff_of_perm h).mp hm⟩
  · rintro ⟨v, hv⟩
    exact ⟨(key, v), (mem_iff_of_perm h).mpr hv, rfl⟩

variable [DecidableEq α]

theorem lookup_eq_some_iff (hd : (entries.map Prod.fst).Nodup) :
    entries.lookup key = some v ↔ (key, v) ∈ entries := by
  induction entries with
  | nil => simp
  | cons e entries ih =>
    obtain ⟨k, w⟩ := e
    rw [List.map_cons, List.nodup_cons] at hd
    by_cases h : key = k
    · subst h
      have hno : (key, v) ∉ entries := fun hm => hd.1 (List.mem_map.mpr ⟨_, hm, rfl⟩)
      simp [hno, eq_comm]
    · have hne : (key == k) = false := by simpa using h
      simp [List.lookup_cons, hne, h, ih hd.2]

theorem lookup_eq_none {k : α} (h : k ∉ entries.map Prod.fst) : entries.lookup k = none := by
  rw [List.lookup_eq_none_iff]
  intro p hp
  simp only [bne_iff_ne, ne_eq]
  intro he
  exact h (List.mem_map.mpr ⟨p, hp, he.symm⟩)

/-- An iteration meets exactly the entries of the map. -/
theorem lookup_of_perm (h : entries.Perm m.toList) (key : α) : entries.lookup key = m[key]? := by
  ext v
  rw [lookup_eq_some_iff (nodup_keys_of_perm h), mem_iff_of_perm h]

omit [DecidableEq α] in
theorem getElem?_ofList_of_mem (hd : (entries.map Prod.fst).Nodup) (h : (key, v) ∈ entries) :
    (Std.ExtTreeMap.ofList entries cmp)[key]? = some v := by
  have hpair : entries.Pairwise fun a b => ¬cmp a.1 b.1 = .eq := by
    rw [List.nodup_iff_pairwise_ne, List.pairwise_map] at hd
    exact hd.imp (by simp)
  exact Std.ExtTreeMap.getElem?_ofList_of_mem (Std.ReflCmp.compare_self) hpair h

theorem mem_of_getElem?_ofList (hd : (entries.map Prod.fst).Nodup)
    (h : (Std.ExtTreeMap.ofList entries cmp)[key]? = some v) : (key, v) ∈ entries := by
  by_cases hk : key ∈ entries.map Prod.fst
  · obtain ⟨⟨k, w⟩, hm, rfl⟩ := List.mem_map.mp hk
    rw [getElem?_ofList_of_mem hd hm] at h
    cases h
    exact hm
  · rw [Std.ExtTreeMap.getElem?_ofList_of_contains_eq_false (by simpa using hk)] at h
    cases h

end Entries
