import EdgionCenter.Watch.Cache

/-! What a batch of events leaves in the cache, and in the three maps its handler is given. -/
namespace EdgionCenter

variable {T : Type} {key : String} {d : T} {events : List (WatchEventSimple T)}

/-- One event applied to plain contents. -/
def foldEvent (data : Map T) (e : WatchEventSimple T) : Map T :=
  match e.eventType with
  | .add | .update => data.insert e.key e.data
  | .delete => data.erase e.key

/-- The last document the batch carries for a key under one event type. -/
def lastOf (t : EventType) (key : String) (events : List (WatchEventSimple T)) : Option T :=
  ((events.filter fun e => e.key = key ∧ e.eventType = t).getLast?).map (·.data)

/-- What the events make of the document of a key, taken in order. -/
def finalDoc (key : String) (events : List (WatchEventSimple T)) (before : Option T) : Option T :=
  events.foldl
    (fun doc e => if e.key = key then if e.eventType = .delete then none else some e.data else doc)
    before

def Deletes (key : String) (events : List (WatchEventSimple T)) : Prop :=
  ∃ e ∈ events, e.key = key ∧ e.eventType = .delete

instance (key : String) (events : List (WatchEventSimple T)) : Decidable (Deletes key events) :=
  inferInstanceAs (Decidable (∃ e ∈ events, _ ∧ _))

theorem lastOf_cons (t : EventType) (e : WatchEventSimple T) : lastOf t key (e :: events) =
      (lastOf t key events).or (if e.key = key ∧ e.eventType = t then some e.data else none) := by
  unfold lastOf
  by_cases h : e.key = key ∧ e.eventType = t
  · rw [List.filter_cons_of_pos (by simpa using h), List.getLast?_cons, if_pos h]
    cases (events.filter fun e => decide (e.key = key ∧ e.eventType = t)).getLast? <;> rfl
  · rw [List.filter_cons_of_neg (by simpa using h), if_neg h, Option.or_none]

theorem mem_of_lastOf {t : EventType} (h : lastOf t key events = some d) :
    ∃ e ∈ events, e.key = key ∧ e.data = d := by
  obtain ⟨e, he, hd⟩ := Option.map_eq_some_iff.mp h
  have hm := List.mem_of_getLast? he
  rw [List.mem_filter] at hm
  exact ⟨e, hm.1, (of_decide_eq_true hm.2).1, hd⟩

section SortEvents

open CacheState

variable [ConfigTyped T] {b : Sorted T}

/-- The map a writing event of type `t` goes into. -/
def CacheState.Sorted.written (b : Sorted T) : EventType → Map T
  | .add => b.add
  | .update => b.update
  | .delete => ∅

variable {t : EventType}

theorem applyEvent_written (ht : t ≠ .delete) (e : WatchEventSimple T) :
    ((applyEvent b e).written t)[key]? =
      (if e.key = key ∧ e.eventType = t then some e.data else none).or (b.written t)[key]? := by
  cases t with
  | delete => exact absurd rfl ht
  | _ =>
    unfold applyEvent
    split
    all_goals
      by_cases h : e.key = key <;>
        simp [Sorted.written, Std.ExtTreeMap.getElem?_insert, *] <;> split <;> simp

theorem sortEvents_written (ht : t ≠ .delete) (b : Sorted T) :
    ((events.foldl applyEvent b).written t)[key]? =
      (lastOf t key events).or (b.written t)[key]? := by
  induction events generalizing b with
  | nil => rfl
  | cons e events ih =>
    rw [List.foldl_cons, ih, applyEvent_written ht, lastOf_cons, Option.or_assoc]

theorem applyEvent_data (e : WatchEventSimple T) : (applyEvent b e).data[key]? =
      if e.key = key then if e.eventType = .delete then none else some e.data
      else b.data[key]? := by
  unfold applyEvent
  split
  · simp [Std.ExtTreeMap.getElem?_insert, *]
  · simp [Std.ExtTreeMap.getElem?_insert, *]
  · split
    · simp [Std.ExtTreeMap.getElem?_erase, *]
    · by_cases h : e.key = key
      · subst h
        simp [*]
      · simp [h]

theorem sortEvents_data (b : Sorted T) :
    (events.foldl applyEvent b).data[key]? = finalDoc key events b.data[key]? := by
  induction events generalizing b with
  | nil => rfl
  | cons e events ih =>
    rw [List.foldl_cons, ih, applyEvent_data]
    rfl

theorem applyEvent_remove (e : WatchEventSimple T) : key ∈ (applyEvent b e).remove ↔
      key ∈ b.remove ∨ (e.key = key ∧ e.eventType = .delete ∧ b.data[key]?.isSome) := by
  unfold applyEvent
  split
  · simp [*]
  · simp [*]
  · split
    · by_cases h : e.key = key
      · subst h
        simp [Std.ExtTreeMap.mem_insert, *]
      · simp [Std.ExtTreeMap.mem_insert, *]
    · by_cases h : e.key = key
      · subst h
        simp [*]
      · simp [*]

theorem deletes_of_sortEvents_remove (h : key ∈ (events.foldl applyEvent b).remove) :
    key ∈ b.remove ∨ Deletes key events := by
  induction events generalizing b with
  | nil => exact .inl h
  | cons e events ih =>
    rcases ih h with hb | ⟨f, hf, hk⟩
    · rcases applyEvent_remove e |>.mp hb with hb | ⟨hk, hd, -⟩
      · exact .inl hb
      · exact .inr ⟨e, by simp, hk, hd⟩
    · exact .inr ⟨f, by simp [hf], hk⟩

theorem sortEvents_remove_mono (h : key ∈ b.remove) : key ∈ (events.foldl applyEvent b).remove := by
  induction events generalizing b with
  | nil => exact h
  | cons e events ih => exact ih ((applyEvent_remove e).mpr (.inl h))

/-- A key cached before the batch is still cached at its first Delete. -/
theorem sortEvents_remove_of_deletes (hd : Deletes key events) (hb : b.data[key]?.isSome) :
    key ∈ (events.foldl applyEvent b).remove := by
  induction events generalizing b with
  | nil =>
    obtain ⟨e, he, -⟩ := hd
    simp at he
  | cons e events ih =>
    by_cases he : e.key = key ∧ e.eventType = .delete
    · have hm := (applyEvent_remove e).mpr (.inr ⟨he.1, he.2, hb⟩)
      rw [List.foldl_cons]
      exact sortEvents_remove_mono hm
    · obtain ⟨f, hf, hfk⟩ := hd
      rcases List.mem_cons.mp hf with rfl | hf
      · exact (he hfk).elim
      · apply ih ⟨f, hf, hfk⟩
        rw [applyEvent_data]
        by_cases hk : e.key = key
        · have : e.eventType ≠ .delete := fun ht => he ⟨hk, ht⟩
          simp [hk, this]
        · simpa [hk] using hb

end SortEvents

variable {before : Option T}

theorem finalDoc_of_untouched (h : ∀ e ∈ events, e.key ≠ key) :
    finalDoc key events before = before := by
  induction events with
  | nil => rfl
  | cons e events ih =>
    change finalDoc key events (if e.key = key then _ else before) = before
    rw [if_neg (h e (by simp))]
    exact ih fun f hf => h f (by simp [hf])

/-- A document left at the end was the last one added, or updated, or was there before. -/
theorem eq_last_of_finalDoc (h : finalDoc key events before = some d) :
    ((∀ e ∈ events, e.key ≠ key) ∧ before = some d) ∨
      lastOf .add key events = some d ∨ lastOf .update key events = some d := by
  induction events generalizing before with
  | nil => exact .inl ⟨by simp, h⟩
  | cons e events ih =>
    simp only [lastOf_cons]
    rcases ih h with ⟨hno, hb⟩ | ha | hu
    · by_cases hk : e.key = key
      · have hnone : ∀ t, lastOf t key events = none := by
          intro t
          by_contra hs
          obtain ⟨d', hd'⟩ := Option.ne_none_iff_exists'.mp hs
          obtain ⟨f, hf, hfk, -⟩ := mem_of_lastOf hd'
          exact hno f hf hfk
        simp only [hk, ↓reduceIte] at hb
        cases ht : e.eventType <;> simp_all
      · simp only [hk, ↓reduceIte] at hb
        exact .inl ⟨by simpa [hk] using hno, hb⟩
    · simp [ha]
    · simp [hu]

end EdgionCenter
