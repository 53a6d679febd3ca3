import EdgionCenter.Lib.Exchange
import EdgionCenter.Lib.MachineInt
import Mathlib.Data.List.Pairwise

/-! The timestamps of observations, which any number of sessions draw at the same time. -/
namespace EdgionCenter.Federation

open Exchange MachineInt Transition

/-- The value that a call tries to store, from the wall clock and the value it saw. -/
def nextObserved (wall previous : UInt64) : UInt64 := max wall (saturatingAdd previous 1)

/-- The timestamp of a stored value. -/
def observedAtMs (next : UInt64) : Int64 := (min next 0x7FFFFFFFFFFFFFFF).toInt64

abbrev ObservationState := State UInt64 UInt64 Int64

/-- Calls of `next_observed_at_ms`: the input of each is its reading of the wall clock. -/
def ObservationRun (labels : List (Label UInt64 UInt64)) (s : ObservationState) : Prop :=
  Run (Step nextObserved observedAtMs) (.start 0) labels s

/-- The timestamps in the order of the exchanges, the last one first, each with its call. -/
def timestamps (s : ObservationState) : List (Nat × Int64) :=
  s.stores.map fun store => (store.1, observedAtMs store.2)

theorem le_toNat_nextObserved (wall previous : UInt64) :
    min (previous.toNat + 1) (UInt64.size - 1) ≤ (nextObserved wall previous).toNat := by
  rw [nextObserved, toNat_max, toNat_saturatingAdd]
  exact Nat.le_max_right _ _

theorem toInt_observedAtMs (next : UInt64) :
    (observedAtMs next).toInt = min next.toNat 9223372036854775807 := by
  have hmin : (min next 0x7FFFFFFFFFFFFFFF : UInt64).toNat = min next.toNat 9223372036854775807 :=
    toNat_min next _
  rw [observedAtMs, toInt_toInt64_of_lt (by omega), hmin]

/-- A later timestamp is greater, unless it is the greatest one. -/
def Later (earlier later : Int64) : Prop := later < Int64.maxValue → earlier < later

theorem Later.trans {a b c : Int64} (hab : Later a b) (hbc : Later b c) : Later a c := by
  intro hc
  have hlt := hbc hc
  exact Int64.lt_trans (hab (Int64.lt_trans hlt hc)) hlt

theorem later_nextObserved (wall previous : UInt64) :
    Later (observedAtMs previous) (observedAtMs (nextObserved wall previous)) := by
  intro hlt
  have hnext := le_toNat_nextObserved wall previous
  have hsize : UInt64.size = 18446744073709551616 := rfl
  have hmax : Int64.maxValue.toInt = 9223372036854775807 := rfl
  rw [Int64.lt_iff_toInt_lt, toInt_observedAtMs, hmax] at hlt
  rw [Int64.lt_iff_toInt_lt, toInt_observedAtMs, toInt_observedAtMs]
  omega

theorem Later.eq_maxValue {t : Int64} (h : Later t t) : t = Int64.maxValue := by
  by_contra hne
  have hlt : t < Int64.maxValue := by
    have hle := t.toInt_le
    have hneInt : t.toInt ≠ Int64.maxValue.toInt := fun heq => hne (Int64.toInt_inj.mp heq)
    rw [Int64.lt_iff_toInt_lt]
    omega
  exact Int64.lt_irrefl (h hlt)

theorem eq_maxValue_of_later {l : List (Nat × Int64)} {i j : Nat} {t : Int64}
    (h : l.Pairwise fun later earlier => Later earlier.2 later.2) (hi : (i, t) ∈ l)
    (hj : (j, t) ∈ l) (hij : i ≠ j) : t = Int64.maxValue := by
  -- Of two members one stands before the other.
  have hties : l.Pairwise fun a b => a.2 = b.2 → a.2 = Int64.maxValue := by
    refine h.imp fun {a b} hab heq => ?_
    rw [← heq] at hab
    exact hab.eq_maxValue
  have hsymm : Std.Symm fun a b : Nat × Int64 => a.2 = b.2 → a.2 = Int64.maxValue :=
    ⟨fun a b hab heq => heq.trans (hab heq.symm)⟩
  exact hties.forall hi hj (fun heq => hij (congrArg Prod.fst heq)) rfl

/-- The timestamps of concurrent calls are distinct and increase in the order of the exchanges, as
long as they are below the greatest one. -/
theorem timestamps_increase {labels : List (Label UInt64 UInt64)} {s : ObservationState}
    (h : ObservationRun labels s) :
    (timestamps s).Pairwise (fun later earlier => Later earlier.2 later.2) ∧
    ((timestamps s).map Prod.fst).Nodup ∧
    (∀ i t, s.calls i = some (.returned t) → (i, t) ∈ timestamps s) ∧
    ∀ i j t, i ≠ j → s.calls i = some (.returned t) → s.calls j = some (.returned t) →
      t = Int64.maxValue := by
  have hordered : Ordered (fun a b => Later (observedAtMs a) (observedAtMs b)) observedAtMs s :=
    ordered_of_run Later.trans later_nextObserved h
  have hpairwise : (timestamps s).Pairwise fun later earlier => Later earlier.2 later.2 := by
    have hstores := (List.pairwise_append.mp hordered.values).1
    exact List.pairwise_map.mpr (List.pairwise_map.mp hstores)
  have hmem : ∀ i t, s.calls i = some (.returned t) → (i, t) ∈ timestamps s := by
    intro i t hi
    obtain ⟨v, hv, rfl⟩ := hordered.explained hi
    exact List.mem_map_of_mem hv
  refine ⟨hpairwise, ?_, hmem, ?_⟩
  · rw [timestamps, List.map_map]
    exact hordered.once
  · intro i j t hij hi hj
    exact eq_maxValue_of_later hpairwise (hmem i t hi) (hmem j t hj) hij

/-- The second call reads an earlier time, and its first exchange fails. -/
def overtakenLabels : List (Label UInt64 UInt64) :=
  [.call 0 7, .load 0 0, .call 1 5, .load 1 0, .exchange 0, .fail 1 7, .exchange 1, .finish 1,
    .finish 0]

theorem timestamps_increase_overtaken : ∃ s, ObservationRun overtakenLabels s ∧
    timestamps s = [(1, 8), (0, 7)] ∧
    (timestamps s).Pairwise (fun later earlier => Later earlier.2 later.2) := by
  have hrun : ∃ s, ObservationRun overtakenLabels s ∧ timestamps s = [(1, 8), (0, 7)] := by
    refine ⟨_, .step (.call 7 rfl) (.step (.load rfl ?_) (.step (.call 5 rfl) (.step (.load rfl ?_)
      (.step (.exchange rfl rfl) (.step (.fail rfl ?_) (.step (.exchange rfl rfl)
        (.step (.finish rfl) (.step (.finish rfl) (.refl _))))))))), ?_⟩
    all_goals decide
  obtain ⟨s, hs, htimestamps⟩ := hrun
  exact ⟨s, hs, htimestamps, (timestamps_increase hs).1⟩

end EdgionCenter.Federation
