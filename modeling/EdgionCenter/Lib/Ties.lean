import Mathlib.Data.List.Perm.Basic
import Mathlib.Data.List.Sort

/-! Listings ordered by a key that several items may share, where each request for a page may order
those items anew. -/
namespace Ties

variable {T κ : Type} [LinearOrder κ] {key : T → κ} {inventory o o' : List T} {m limit : Nat}

/-- The inventory in an order of its keys, the greatest one first. -/
structure Orders (key : T → κ) (inventory o : List T) : Prop where
  perm : o.Perm inventory
  sorted : o.Pairwise fun a b => key b ≤ key a

/-- The items on either side of a place share their key. -/
def SplitsTie (key : T → κ) (o : List T) (m : Nat) : Prop :=
  ∃ a b, 0 < m ∧ o[m - 1]? = some a ∧ o[m]? = some b ∧ key a = key b

theorem sorted_keys : (o.map key).Pairwise (fun a b => b ≤ a) ↔
    o.Pairwise fun a b => key b ≤ key a :=
  List.pairwise_map

theorem Orders.keys_eq (h : Orders key inventory o) (h' : Orders key inventory o') :
    o.map key = o'.map key := by
  have hperm : (o.map key).Perm (o'.map key) := (h.perm.trans h'.perm.symm).map key
  exact hperm.eq_of_pairwise (fun a b _ _ hab hba => le_antisymm hba hab)
    (sorted_keys.mpr h.sorted) (sorted_keys.mpr h'.sorted)

theorem Orders.le (h : Orders key inventory o) {i j : Nat} {a b : T} (hij : i ≤ j)
    (ha : o[i]? = some a) (hb : o[j]? = some b) : key b ≤ key a := by
  obtain ⟨hi, rfl⟩ := List.getElem?_eq_some_iff.mp ha
  obtain ⟨hj, rfl⟩ := List.getElem?_eq_some_iff.mp hb
  rcases Nat.lt_or_eq_of_le hij with hlt | rfl
  · exact List.pairwise_iff_getElem.mp h.sorted i j hi hj hlt
  · exact le_refl _

omit [LinearOrder κ] in
/-- Where the ties are split depends on the keys only. -/
theorem splitsTie_iff : SplitsTie key o m ↔
    0 < m ∧ ∃ k, (o.map key)[m - 1]? = some k ∧ (o.map key)[m]? = some k := by
  simp only [List.getElem?_map, Option.map_eq_some_iff]
  constructor
  · rintro ⟨a, b, hm, ha, hb, hkey⟩
    exact ⟨hm, key a, ⟨a, ha, rfl⟩, b, hb, hkey.symm⟩
  · rintro ⟨hm, k, ⟨a, ha, rfl⟩, b, hb, hkey⟩
    exact ⟨a, b, hm, ha, hb, hkey.symm⟩

/-- Without a tie at a place, the items before it are those of a greater key. -/
theorem Orders.take_eq_filter (h : Orders key inventory o) {b : T} (hb : o[m]? = some b)
    (hsplit : ¬ SplitsTie key o m) : o.take m = o.filter fun a => key b < key a := by
  have hbefore : ∀ a ∈ o.take m, key b < key a := by
    intro a ha
    obtain ⟨i, ha⟩ := List.mem_iff_getElem?.mp ha
    rw [List.getElem?_take] at ha
    split at ha
    · rename_i him
      -- the item right before the place has a greater key, and those before it have no smaller one
      obtain ⟨c, hc⟩ : ∃ c, o[m - 1]? = some c := by
        have hm : m < o.length := (List.getElem?_eq_some_iff.mp hb).1
        exact ⟨_, List.getElem?_eq_getElem (by omega)⟩
      have hne : key b ≠ key c := fun he => hsplit ⟨c, b, by omega, hc, hb, he.symm⟩
      have hlt : key b < key c := lt_of_le_of_ne (h.le (Nat.sub_le m 1) hc hb) hne
      exact lt_of_lt_of_le hlt (h.le (by omega) ha hc)
    · cases ha
  have hafter : ∀ a ∈ o.drop m, ¬ key b < key a := by
    intro a ha
    obtain ⟨i, ha⟩ := List.mem_iff_getElem?.mp ha
    rw [List.getElem?_drop] at ha
    exact not_lt_of_ge (h.le (Nat.le_add_right m i) hb ha)
  conv_rhs => rw [← List.take_append_drop m o, List.filter_append]
  rw [List.filter_eq_self.mpr (by simpa using hbefore),
    List.filter_eq_nil_iff.mpr (by simpa using hafter), List.append_nil]

theorem Orders.take_perm (h : Orders key inventory o) (h' : Orders key inventory o')
    (hsplit : ¬ SplitsTie key o m) : (o.take m).Perm (o'.take m) := by
  have hperm : o.Perm o' := h.perm.trans h'.perm.symm
  cases hb : o[m]? with
  | none =>
    have hlength := List.getElem?_eq_none_iff.mp hb
    rwa [List.take_of_length_le hlength, List.take_of_length_le (hperm.length_eq ▸ hlength)]
  | some b =>
    have hkeys := h.keys_eq h'
    have hsplit' : ¬ SplitsTie key o' m := by
      rwa [splitsTie_iff, ← hkeys, ← splitsTie_iff]
    obtain ⟨b', hb', hkey⟩ : ∃ b', o'[m]? = some b' ∧ key b' = key b := by
      have hget : (o'.map key)[m]? = some (key b) := by
        rw [← hkeys, List.getElem?_map, hb, Option.map_some]
      rwa [List.getElem?_map, Option.map_eq_some_iff] at hget
    rw [h.take_eq_filter hb hsplit, h'.take_eq_filter hb' hsplit', hkey]
    exact hperm.filter _

/-! ### Pages -/

/-- The page of a request, by its number. -/
def piece (o : List T) (limit i : Nat) : List T := (o.drop (i * limit)).take limit

omit [LinearOrder κ] in
theorem flatMap_piece (o : List T) (limit k : Nat) :
    (List.range k).flatMap (piece o limit) = o.take (k * limit) := by
  induction k with
  | zero => simp
  | succ k ih =>
    rw [List.range_succ, List.flatMap_append, ih, List.flatMap_singleton, piece, Nat.succ_mul,
      List.take_add]

omit [LinearOrder κ] in
/-- The pages of one order up to a place, and of another one from there on. -/
theorem flatMap_piece_switch {n k : Nat} (hk : k ≤ n) (hn : o'.length ≤ n * limit) :
    ((List.range n).flatMap fun i => piece (if i < k then o else o') limit i) =
      o.take (k * limit) ++ o'.drop (k * limit) := by
  obtain ⟨j, rfl⟩ := Nat.exists_eq_add_of_le hk
  have hfirst : ((List.range k).flatMap fun i => piece (if i < k then o else o') limit i) =
      o.take (k * limit) := by
    rw [← flatMap_piece]
    refine List.flatMap_congr fun i hi => ?_
    rw [if_pos (List.mem_range.mp hi)]
  have hrest : (((List.range j).map (k + ·)).flatMap
      fun i => piece (if i < k then o else o') limit i) =
        ((List.range j).map (k + ·)).flatMap (piece o' limit) := by
    refine List.flatMap_congr fun i hi => ?_
    obtain ⟨d, _, rfl⟩ := List.mem_map.mp hi
    rw [if_neg (by omega)]
  have hwhole := flatMap_piece o' limit (k + j)
  rw [List.take_of_length_le hn, List.range_add, List.flatMap_append, flatMap_piece] at hwhole
  rw [List.range_add, List.flatMap_append, hfirst, hrest]
  congr 1
  exact List.append_cancel_left (hwhole.trans (List.take_append_drop _ _).symm)

theorem Orders.piece_perm (h : Orders key inventory o) (h' : Orders key inventory o')
    (hsplit : ∀ k, ¬ SplitsTie key o (k * limit)) (i : Nat) :
    (piece o' limit i).Perm (piece o limit i) := by
  have hfront := h.take_perm h' (hsplit i)
  have hboth := h.take_perm h' (hsplit (i + 1))
  rw [Nat.succ_mul, List.take_add, List.take_add] at hboth
  exact ((List.perm_append_left_iff _).mp ((hfront.symm.append_right _).trans hboth)).symm

theorem Orders.keys_piece (h : Orders key inventory o) (h' : Orders key inventory o') (i : Nat) :
    (piece o' limit i).map key = (piece o limit i).map key := by
  simp only [piece, List.map_take, List.map_drop, h.keys_eq h']

/-- If no page ends within a tie, the pages of any orders make up the inventory in order. -/
theorem Orders.flatMap_piece (h : Orders key inventory o) {orders : Nat → List T}
    (horders : ∀ i, Orders key inventory (orders i))
    (hsplit : ∀ k, ¬ SplitsTie key o (k * limit)) {k : Nat} (hk : inventory.length ≤ k * limit) :
    Orders key inventory ((List.range k).flatMap fun i => piece (orders i) limit i) := by
  have hwhole : (List.range k).flatMap (piece o limit) = o := by
    rw [Ties.flatMap_piece, List.take_of_length_le]
    rwa [h.perm.length_eq]
  have hkeys : ((List.range k).flatMap fun i => piece (orders i) limit i).map key = o.map key := by
    conv_rhs => rw [← hwhole]
    rw [List.map_flatMap, List.map_flatMap]
    exact List.flatMap_congr fun i _ => h.keys_piece (horders i) i
  constructor
  · refine List.Perm.trans ?_ h.perm
    conv_rhs => rw [← hwhole]
    exact List.Perm.flatMap_left _ fun i _ => h.piece_perm (horders i) hsplit i
  · rw [← sorted_keys, hkeys, sorted_keys]
    exact h.sorted

omit [LinearOrder κ] in
theorem SplitsTie.exists_append (h : SplitsTie key o m) : ∃ front a b back,
    o = front ++ a :: b :: back ∧ front.length + 1 = m ∧ key a = key b := by
  obtain ⟨a, b, hm, ha, hb, hkey⟩ := h
  obtain ⟨m, rfl⟩ : ∃ n, m = n + 1 := ⟨m - 1, by omega⟩
  rw [Nat.add_sub_cancel] at ha
  obtain ⟨hlt, rfl⟩ := List.getElem?_eq_some_iff.mp ha
  obtain ⟨hlt', rfl⟩ := List.getElem?_eq_some_iff.mp hb
  refine ⟨o.take m, o[m], o[m + 1], o.drop (m + 2), ?_, ?_, hkey⟩
  · rw [← List.drop_eq_getElem_cons hlt', ← List.drop_eq_getElem_cons hlt, List.take_append_drop]
  · rw [List.length_take_of_le (Nat.le_of_lt hlt)]

/-- Where a tie is split, the two items may change places. -/
theorem Orders.exists_swapped (h : Orders key inventory o) (hsplit : SplitsTie key o m) :
    ∃ o', Orders key inventory o' ∧ ∃ a ∈ o.take m, a ∈ o'.drop m := by
  obtain ⟨front, a, b, back, rfl, rfl, hkey⟩ := hsplit.exists_append
  have hsorted := sorted_keys.mpr h.sorted
  refine ⟨front ++ b :: a :: back, ⟨?_, ?_⟩, a, ?_, ?_⟩
  · exact ((List.Perm.swap a b back).append_left front).trans h.perm
  · rw [← sorted_keys]
    simpa only [List.map_append, List.map_cons, hkey] using hsorted
  · simp [List.take_append]
  · simp [List.drop_append]

end Ties
