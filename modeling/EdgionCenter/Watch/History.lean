import EdgionCenter.Watch.Mirror

/-! A controller over its restarts: the log of every server instance, and the documents the log
leaves at every version. -/
namespace EdgionCenter

section Events

variable {T : Type} {key : String} {d d' : Option T} {xs ys : List (WatchEventSimple T)}

theorem finalDoc_append : finalDoc key (xs ++ ys) d = finalDoc key ys (finalDoc key xs d) :=
  List.foldl_append

theorem finalDoc_cons (e : WatchEventSimple T) : finalDoc key (e :: xs) d =
      finalDoc key xs
        (if e.key = key then if e.eventType = .delete then none else some e.data else d) := rfl

/-- What was there before a touched key is forgotten. -/
theorem finalDoc_of_touched (h : ∃ e ∈ xs, e.key = key) : finalDoc key xs d = finalDoc key xs d' := by
  induction xs generalizing d d' with
  | nil => simp at h
  | cons e xs ih =>
    rw [finalDoc_cons, finalDoc_cons]
    by_cases he : e.key = key
    · rw [if_pos he, if_pos he]
    · obtain ⟨f, hf, hk⟩ := h
      rcases List.mem_cons.mp hf with rfl | hf
      · exact absurd hk he
      · exact ih ⟨f, hf, hk⟩

/-- Events may be applied again to what they left. -/
theorem finalDoc_idem : finalDoc key xs (finalDoc key xs d) = finalDoc key xs d := by
  by_cases h : ∃ e ∈ xs, e.key = key
  · exact finalDoc_of_touched h
  · have hno : ∀ e ∈ xs, e.key ≠ key := fun e he hk => h ⟨e, he, hk⟩
    exact finalDoc_of_untouched hno

theorem mem_of_finalDoc {doc : T} (h : finalDoc key xs none = some doc) :
    ∃ e ∈ xs, e.key = key ∧ e.data = doc := by
  rcases eq_last_of_finalDoc h with ⟨-, hn⟩ | ha | hu
  · cases hn
  · exact mem_of_lastOf ha
  · exact mem_of_lastOf hu

end Events

/-- Instance `i` is the `i`-th server a controller has built; its id is minted for it. What version
`v` of an instance changed is `log i v`. Version 0 is the empty server, since a request from version
0 asks for everything. -/
structure WatchedController where
  id : Nat → String
  id_injective : Function.Injective id
  id_ne_empty : ∀ i, id i ≠ ""
  log : Nat → Nat → EventList

namespace WatchedController

variable (C : WatchedController) {i a b v : Nat} {key : String}

/-- What the versions after `a` up to `b` changed. -/
def events (i a b : Nat) : List (WatchEventSimple Value) :=
  (List.range' (a + 1) (b - a)).flatMap fun v => (C.log i v).events

def history (i : Nat) : Nat → Map Value
  | 0 => ∅
  | v + 1 => (C.log i (v + 1)).events.foldl foldEvent (history i v)

theorem events_of_le (h : b ≤ a) : C.events i a b = [] := by
  simp [events, Nat.sub_eq_zero_of_le h]

theorem events_append (hab : a ≤ v) (hbc : v ≤ b) :
    C.events i a b = C.events i a v ++ C.events i v b := by
  have hlen : b - a = (v - a) + (b - v) := by omega
  have hstart : a + 1 + (v - a) = v + 1 := by omega
  rw [events, events, events, ← List.flatMap_append, hlen, ← List.range'_append_1, hstart]

theorem events_succ : C.events i v (v + 1) = (C.log i (v + 1)).events := by
  simp [events]

/-- A stretch without changes goes on as far as changes stay away. -/
theorem events_eq_nil_trans (hva : C.events i v a = []) (hab : C.events i a b = []) (h : a ≤ b) :
    C.events i v b = [] := by
  rcases Nat.le_total v a with hv | hv
  · rw [C.events_append hv h, hva, hab]
    rfl
  · rcases Nat.le_total v b with hb | hb
    · rw [C.events_append hv hb] at hab
      exact (List.append_eq_nil_iff.mp hab).2
    · exact C.events_of_le hb

theorem keyed_of_mem_events {e : WatchEventSimple Value} (h : e ∈ C.events i a b) :
    resourceKey e.data = some e.key := by
  obtain ⟨v, -, hv⟩ := List.mem_flatMap.mp h
  exact (C.log i v).keyed e hv

theorem foldl_foldEvent (docs : Map Value) (xs : List (WatchEventSimple Value)) :
    (xs.foldl foldEvent docs)[key]? = finalDoc key xs docs[key]? := by
  induction xs generalizing docs with
  | nil => rfl
  | cons e xs ih =>
    rw [List.foldl_cons, ih, finalDoc_cons]
    congr 1
    cases ht : e.eventType with
    | delete => simp [foldEvent, ht, Std.ExtTreeMap.getElem?_erase]
    | add | update => simp [foldEvent, ht, Std.ExtTreeMap.getElem?_insert]

theorem history_getElem? (h : a ≤ b) :
    (C.history i b)[key]? = finalDoc key (C.events i a b) (C.history i a)[key]? := by
  induction b, h using Nat.le_induction with
  | base =>
    rw [C.events_of_le (Nat.le_refl _)]
    rfl
  | succ b hb ih =>
    rw [C.events_append hb (Nat.le_succ b), finalDoc_append, ← ih, events_succ]
    exact foldl_foldEvent _ _

/-- A batch that starts no later than the first change after `v` leads from `v` to its own version,
even if it repeats changes that `v` already has. -/
theorem history_replay (hgap : C.events i v a = []) (hab : a ≤ b) (hvb : v ≤ b) :
    (C.history i b)[key]? = finalDoc key (C.events i a b) (C.history i v)[key]? := by
  rcases Nat.le_total v a with hv | hv
  · have hsame : (C.history i a)[key]? = (C.history i v)[key]? := by
      rw [C.history_getElem? hv, hgap]
      rfl
    rw [C.history_getElem? hab, hsame]
  · rw [C.history_getElem? hvb, C.events_append hv hvb, finalDoc_append, C.history_getElem? hv,
      finalDoc_idem]

/-- Every document of a history is held under its own key. -/
theorem resourceKey_of_history {d : Value} (h : (C.history i v)[key]? = some d) :
    resourceKey d = some key := by
  rw [C.history_getElem? (Nat.zero_le v)] at h
  have hnone : (C.history i 0)[key]? = none := by simp [history]
  rw [hnone] at h
  obtain ⟨e, he, rfl, rfl⟩ := mem_of_finalDoc h
  exact C.keyed_of_mem_events he

end WatchedController

end EdgionCenter
