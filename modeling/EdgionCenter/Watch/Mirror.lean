import EdgionCenter.Lib.Entries
import EdgionCenter.Lib.Run
import EdgionCenter.Watch.Events
import EdgionCenter.Watch.MetaDataStore

/-! How far the override rows of a controller mirror its watch cache. -/
namespace EdgionCenter

open Transition Overrides

variable {cid other key : String} {d : Value} {map : Overrides}
  {events : List (WatchEventSimple Value)}

theorem Value.pointer_metadata (v : Value) {name : String} (h : Value.parseIndex name = none) :
    (v.pointer ["metadata", name]).bind Value.asStr =
      (v.get "metadata").bind fun m =>
        m.asObject.bind fun members => (members.lookup name).bind Value.asStr := by
  cases v with
  | object members =>
    simp only [Value.pointer, Value.get, Value.asObject, Option.bind_some]
    cases members.lookup "metadata" with
    | none => rfl
    | some m => cases m <;> simp [Value.pointer, h]
  | _ => rfl

/-- The key is the trimmed name, behind the namespace if there is one. -/
theorem resourceKey_eq_some (h : resourceKey d = some key) : ∃ name, nameOf d = some name ∧
      key = ((namespaceOf d).map (· ++ "/")).getD "" ++ trim name := by
  have hname := Value.pointer_metadata d (show Value.parseIndex "name" = none by decide)
  have hns := Value.pointer_metadata d (show Value.parseIndex "namespace" = none by decide)
  unfold nameOf namespaceOf
  rw [hname, hns]
  unfold resourceKey at h
  cases hm : d.get "metadata" with
  | none => simp [hm] at h
  | some m =>
    cases ho : m.asObject with
    | none => simp [hm, ho] at h
    | some members =>
      cases hn : (members.lookup "name").bind Value.asStr with
      | none =>
        cases hl : members.lookup "name" <;> simp_all
      | some name =>
        refine ⟨name, by simp [ho, hn], ?_⟩
        cases hl : members.lookup "name" with
        | none => simp [hl] at hn
        | some v =>
          simp only [hl, Option.bind_some] at hn
          simp only [hm, ho, hl, hn, Option.bind_eq_bind, Option.bind_some] at h ⊢
          split at h
          · cases h
          · cases hs : (members.lookup "namespace").bind Value.asStr <;> simp_all

/-- The store and the cache form the same key for such a document. -/
def Tidy (d : Value) : Prop :=
  ∀ name, (namespaceOf d).isSome → nameOf d = some name → trim name = name

variable {k : String} {entries : List (String × Value)} {before : Option Value} {t : EventType}

theorem row_upsert_of_tidy (hk : resourceKey d = some k) (ht : Tidy d) :
    row (map.upsertWatchedOverride cid d) cid key =
      if k = key ∧ (namespaceOf d).isSome then project d else row map cid key := by
  obtain ⟨name, hname, he⟩ := resourceKey_eq_some hk
  cases hns : namespaceOf d with
  | none => simp [upsertWatchedOverride_of_not_namespaced hns]
  | some ns =>
    have hkey : ns ++ "/" ++ name = k := by
      rw [he, hns, ht name (by simp [hns]) hname]
      rfl
    simp [row_upsertWatchedOverride hns hname, hkey]

theorem row_upsert_of_ne (h : cid ≠ other) :
    row (map.upsertWatchedOverride cid d) other key = row map other key := by
  cases hns : namespaceOf d with
  | none => rw [upsertWatchedOverride_of_not_namespaced hns]
  | some ns =>
    cases hname : nameOf d with
    | none => simp [upsertWatchedOverride, hns, hname]
    | some name => simp [row_upsertWatchedOverride hns hname, h]

theorem row_upsertAll_of_ne (h : cid ≠ other) (entries : List (String × Value)) :
    row (map.upsertAll cid entries) other key = row map other key := by
  induction entries generalizing map with
  | nil => rfl
  | cons e entries ih => exact ih.trans (row_upsert_of_ne h)

/-- What one upserted document leaves of a row under its own key. -/
def overwrite (r : Option Value) : Option Value → Option Value
  | none => r
  | some d => if (namespaceOf d).isSome then project d else r

theorem row_upsertAll (hk : ∀ e ∈ entries, resourceKey e.2 = some e.1 ∧ Tidy e.2)
    (hd : (entries.map Prod.fst).Nodup) : row (map.upsertAll cid entries) cid key =
      overwrite (row map cid key) (entries.lookup key) := by
  induction entries generalizing map with
  | nil => rfl
  | cons e entries ih =>
    obtain ⟨k, d⟩ := e
    obtain ⟨hkd, htd⟩ := hk (k, d) (by simp)
    rw [List.map_cons, List.nodup_cons] at hd
    change row (upsertAll (map.upsertWatchedOverride cid d) cid entries) cid key = _
    rw [ih (fun e he => hk e (List.mem_cons_of_mem _ he)) hd.2, row_upsert_of_tidy hkd htd]
    by_cases h : k = key
    · subst h
      have hno : entries.lookup k = none := Entries.lookup_eq_none hd.1
      simp [hno, overwrite]
    · have hne : (key == k) = false := by simpa using fun he : key = k => h he.symm
      simp [List.lookup_cons, h, hne]

theorem row_removeAll (remove : List (String × Value)) :
    row (remove.foldl (fun m e => m.removeOverrideKeyForController e.1 cid) map) other key =
      if key ∈ remove.map Prod.fst ∧ cid = other then none else row map other key := by
  induction remove generalizing map with
  | nil => simp
  | cons e remove ih =>
    simp only [List.foldl_cons, ih, row_removeOverrideKeyForController, List.map_cons,
      List.mem_cons]
    by_cases he : key = e.1
    · by_cases hc : cid = other <;> simp [he, hc]
    · have he' : e.1 ≠ key := fun h => he h.symm
      simp only [he, he', false_and, false_or, ↓reduceIte]

/-- A list response that passed the key checks of `apply_watch_list`. -/
structure Listing where
  items : List (String × Value)
  keyed : ∀ e ∈ items, resourceKey e.2 = some e.1
  distinct : (items.map Prod.fst).Nodup

/-- An event response whose keys `apply_watch_event` has derived. -/
structure EventList where
  events : List (WatchEventSimple Value)
  keyed : ∀ e ∈ events, resourceKey e.data = some e.key

inductive Batch
  | replaceAll (listing : Listing) (syncVersion : Nat) (serverId : String) (now : Nat)
  | applyEvents (list : EventList) (syncVersion : Nat) (serverId : String) (now : Nat)

/-- A controller's cache together with the store its handler writes to. -/
structure Mirror where
  cache : CacheState Value
  store : Overrides

def Batch.outcome (cid : String) (s : CacheState Value) : Batch → Outcome Value
  | .replaceAll l version server now => s.replaceAll cid l.items version server now
  | .applyEvents l version server now => s.applyEvents cid l.events version server now

/-- The handler at work; it may iterate over each map in any order. -/
inductive Handled (cid : String) (store : Overrides) : HandlerCall Value → Overrides → Prop
  | fullSet {data : Map Value} (h : order.Perm data.toList) :
      Handled cid store (.fullSet data) (store.fullSet cid order)
  | partialUpdate {add update remove : Map Value} (ha : as.Perm add.toList) (hu : us.Perm update.toList) (hr : rs.Perm remove.toList) :
      Handled cid store (.partialUpdate add update remove) (store.partialUpdate cid as us rs)

/-- One batch, with the handler call it makes if it is applied. -/
inductive Apply (cid : String) : Mirror → Batch → Mirror → Prop
  | overflow {m : Mirror} (h : (b.outcome cid m.cache).call = none) :
      Apply cid m b ⟨(b.outcome cid m.cache).state, m.store⟩
  | applied {m : Mirror} (h : (b.outcome cid m.cache).call = some call) (hs : Handled cid m.store call store) :
      Apply cid m b ⟨(b.outcome cid m.cache).state, store⟩

/-- The rows of the controller are the projected documents of its cache, key by key. -/
def Mirrors (cid : String) (m : Mirror) : Prop :=
  ∀ key, row m.store cid key = m.cache.data[key]?.bind project

/-- The document the handler keeps for a key: updates are written after adds, and a document
without a namespace writes nothing. -/
def handlerDoc (key : String) (events : List (WatchEventSimple Value)) : Option Value :=
  ((lastOf .update key events).filter fun d => (namespaceOf d).isSome).or
    ((lastOf .add key events).filter fun d => (namespaceOf d).isSome)

/-- The handler's last word on a key is that of its last event: if the handler writes a document,
that document and the final one are projected alike; if it writes none, the row was already
absent or is deleted, unless the events leave the document alone. -/
def SoundKey (before : Option Value) (events : List (WatchEventSimple Value)) (key : String) :
    Prop :=
  match handlerDoc key events with
  | some d => project d = (finalDoc key events before).bind project
  | none => (∀ e ∈ events, e.key ≠ key) ∨ before.bind project = none ∨ Deletes key events

def Batch.Fits (s : CacheState Value) : Batch → Prop
  | .replaceAll l .. => l.items.length ≤ maxEntriesPerController
  | .applyEvents l .. => s.projectedLen l.events ≤ maxEntriesPerController

def Batch.Sound (s : CacheState Value) : Batch → Prop
  | .replaceAll l .. => ∀ e ∈ l.items, Tidy e.2
  | .applyEvents l .. =>
    (∀ e ∈ l.events, Tidy e.data) ∧ ∀ key, SoundKey s.data[key]? l.events key

theorem project_eq_none (h : namespaceOf d = none) : project d = none := by
  simp [project, Projected, h]

theorem row_fullSet {l : Listing} {order : List (String × Value)}
    (h : order.Perm (Std.ExtTreeMap.ofList l.items compare).toList) (ht : ∀ e ∈ l.items, Tidy e.2) :
    row (map.fullSet cid order) cid key =
      (Std.ExtTreeMap.ofList l.items compare)[key]?.bind project := by
  have hmem : ∀ e ∈ order, e ∈ l.items := by
    rintro ⟨k, v⟩ he
    exact Entries.mem_of_getElem?_ofList l.distinct ((Entries.mem_iff_of_perm h).mp he)
  have hkeyed : ∀ e ∈ order, resourceKey e.2 = some e.1 ∧ Tidy e.2 := fun e he =>
    ⟨l.keyed e (hmem e he), ht e (hmem e he)⟩
  rw [fullSet, row_upsertAll hkeyed (Entries.nodup_keys_of_perm h),
    row_removeControllerFromOverrideMap, Entries.lookup_of_perm h]
  cases (Std.ExtTreeMap.ofList l.items compare)[key]? with
  | none => simp [overwrite]
  | some d =>
    cases hns : namespaceOf d with
    | none => simp [overwrite, hns, project_eq_none hns]
    | some ns => simp [overwrite, hns]

theorem project_finalDoc_of_handlerDoc_none (h : handlerDoc key events = none)
    (ht : ¬ ∀ e ∈ events, e.key ≠ key) : (finalDoc key events before).bind project = none := by
  obtain ⟨hu, ha⟩ := Option.or_eq_none_iff.mp h
  cases hf : finalDoc key events before with
  | none => rfl
  | some d =>
    have hns : namespaceOf d = none := by
      rcases eq_last_of_finalDoc hf with ⟨hno, -⟩ | hl | hl
      · exact (ht hno).elim
      · simpa [hl] using ha
      · simpa [hl] using hu
    exact project_eq_none hns

variable {s : CacheState Value}

theorem sortEvents_add (key : String) :
    (s.sortEvents events).add[key]? = lastOf .add key events := by
  have hw : ((s.sortEvents events).written .add)[key]? = _ := sortEvents_written (by decide) _
  simpa [CacheState.Sorted.written] using hw

theorem sortEvents_update (key : String) :
    (s.sortEvents events).update[key]? = lastOf .update key events := by
  have hw : ((s.sortEvents events).written .update)[key]? = _ := sortEvents_written (by decide) _
  simpa [CacheState.Sorted.written] using hw

variable {l : EventList} {as rs us : List (String × Value)} {b : Batch} {m m' : Mirror}

/-- The entries a handler is given are documents of the events. -/
theorem keyed_of_perm {written : Map Value} (ht : ∀ e ∈ l.events, Tidy e.data)
    (hp : entries.Perm written.toList) (hw : ∀ k, written[k]? = lastOf t k l.events) :
    ∀ e ∈ entries, resourceKey e.2 = some e.1 ∧ Tidy e.2 := by
  rintro ⟨k, v⟩ he
  rw [Entries.mem_iff_of_perm hp, hw] at he
  obtain ⟨e, hmem, rfl, rfl⟩ := mem_of_lastOf he
  exact ⟨l.keyed e hmem, ht e hmem⟩

/-- Removals only matter for a key that had a row. -/
theorem removed_eq :
    (if key ∈ (s.sortEvents events).remove then none else s.data[key]?.bind project) =
      if Deletes key events then none else s.data[key]?.bind project := by
  cases hd : s.data[key]? with
  | none => simp
  | some d =>
    have hiff : key ∈ (s.sortEvents events).remove ↔ Deletes key events := by
      constructor
      · intro h
        rcases deletes_of_sortEvents_remove h with h | h
        · simp at h
        · exact h
      · intro h
        exact sortEvents_remove_of_deletes h (by simp [hd])
    simp [hiff]

/-- Additions are written before updates. -/
theorem overwrite_overwrite (r : Option Value) :
    overwrite (overwrite r (lastOf .add key events)) (lastOf .update key events) =
      match handlerDoc key events with
      | some d => project d
      | none => r := by
  unfold handlerDoc
  cases hlu : lastOf .update key events with
  | none =>
    cases hla : lastOf .add key events with
    | none => rfl
    | some a => cases hna : namespaceOf a <;> simp [overwrite, Option.filter, hna]
  | some u =>
    cases hnu : namespaceOf u with
    | some ns => simp [overwrite, Option.filter, hnu]
    | none =>
      cases hla : lastOf .add key events with
      | none => simp [overwrite, Option.filter, hnu]
      | some a => cases hna : namespaceOf a <;> simp [overwrite, Option.filter, hnu, hna]

/-- One row after an applied event batch, in terms of what the batch carries for its key. -/
theorem row_partialUpdate (ht : ∀ e ∈ l.events, Tidy e.data)
    (hm : row map cid key = s.data[key]?.bind project)
    (ha : as.Perm (s.sortEvents l.events).add.toList)
    (hu : us.Perm (s.sortEvents l.events).update.toList)
    (hr : rs.Perm (s.sortEvents l.events).remove.toList) :
    row (map.partialUpdate cid as us rs) cid key =
      match handlerDoc key l.events with
      | some d => project d
      | none => if Deletes key l.events then none else s.data[key]?.bind project := by
  have happend : map.partialUpdate cid as us rs =
      ((rs.foldl (fun m e => m.removeOverrideKeyForController e.1 cid) map).upsertAll cid
        as).upsertAll cid us := by
    simp [partialUpdate, upsertAll, List.foldl_append]
  rw [happend,
    row_upsertAll (keyed_of_perm ht hu sortEvents_update) (Entries.nodup_keys_of_perm hu),
    row_upsertAll (keyed_of_perm ht ha sortEvents_add) (Entries.nodup_keys_of_perm ha),
    row_removeAll, Entries.lookup_of_perm ha, Entries.lookup_of_perm hu, sortEvents_add,
    sortEvents_update, hm, overwrite_overwrite]
  simp only [Entries.mem_keys_of_perm hr, and_true, removed_eq]

theorem mirrors_applyEvents_iff (version : Nat) (server : String) (now : Nat)
    (ht : ∀ e ∈ l.events, Tidy e.data) (hm : Mirrors cid ⟨s, map⟩)
    (ha : as.Perm (s.sortEvents l.events).add.toList)
    (hu : us.Perm (s.sortEvents l.events).update.toList)
    (hr : rs.Perm (s.sortEvents l.events).remove.toList) :
    Mirrors cid ⟨s.commit (s.sortEvents l.events).data version server now,
        map.partialUpdate cid as us rs⟩ ↔
      ∀ key, SoundKey s.data[key]? l.events key := by
  refine forall_congr' fun key => ?_
  have hdata : (s.sortEvents l.events).data[key]? = finalDoc key l.events s.data[key]? :=
    sortEvents_data _
  change row (map.partialUpdate cid as us rs) cid key =
    (s.sortEvents l.events).data[key]?.bind project ↔ _
  rw [row_partialUpdate ht (hm key) ha hu hr, hdata, SoundKey]
  cases hd : handlerDoc key l.events with
  | some d => rfl
  | none =>
    by_cases hno : ∀ e ∈ l.events, e.key ≠ key
    · have hdel : ¬ Deletes key l.events := fun ⟨e, he, hk, _⟩ => hno e he hk
      simp only [finalDoc_of_untouched hno, hdel, ↓reduceIte, true_iff]
      exact .inl hno
    · rw [project_finalDoc_of_handlerDoc_none hd hno]
      by_cases hdel : Deletes key l.events <;> simp [hdel, hno]

theorem Batch.fits_of_call {call : HandlerCall Value} (h : (b.outcome cid s).call = some call) :
    b.Fits s := by
  cases b with
  | replaceAll l version server now =>
    by_contra hf
    simp [Batch.outcome, CacheState.replaceAll, Nat.lt_of_not_le hf, CacheState.reject] at h
  | applyEvents l version server now =>
    by_contra hf
    simp [Batch.outcome, CacheState.applyEvents, Nat.lt_of_not_le hf, CacheState.reject] at h

theorem Batch.data_of_call_none (h : (b.outcome cid s).call = none) :
    (b.outcome cid s).state.data = s.data := by
  cases b with
  | replaceAll l version server now =>
    by_cases hf : maxEntriesPerController < l.items.length
    · simp [Batch.outcome, CacheState.replaceAll, hf, CacheState.reject]
    · simp [Batch.outcome, CacheState.replaceAll, hf] at h
  | applyEvents l version server now =>
    by_cases hf : maxEntriesPerController < s.projectedLen l.events
    · simp [Batch.outcome, CacheState.applyEvents, hf, CacheState.reject]
    · simp [Batch.outcome, CacheState.applyEvents, hf] at h

/-- A sound batch keeps the mirror; one that does not fit changes neither side. -/
theorem mirrors_step (h : Apply cid m b m') (hm : Mirrors cid m)
    (hs : b.Fits m.cache → b.Sound m.cache) : Mirrors cid m' := by
  cases h with
  | overflow hcall =>
    intro key
    rw [hm key, Batch.data_of_call_none hcall]
  | applied hcall hh =>
    have hfits := Batch.fits_of_call hcall
    have hsound := hs hfits
    cases b with
    | replaceAll l version server now =>
      have hlt : ¬ maxEntriesPerController < l.items.length := Nat.not_lt.mpr hfits
      simp only [Batch.outcome, CacheState.replaceAll, hlt, ↓reduceIte,
        Option.some.injEq] at hcall ⊢
      subst hcall
      cases hh with
      | fullSet horder =>
        intro key
        exact row_fullSet horder hsound
    | applyEvents l version server now =>
      have hlt : ¬ maxEntriesPerController < m.cache.projectedLen l.events := Nat.not_lt.mpr hfits
      simp only [Batch.outcome, CacheState.applyEvents, hlt, ↓reduceIte,
        Option.some.injEq] at hcall ⊢
      subst hcall
      cases hh with
      | partialUpdate ha hu hr =>
        exact (mirrors_applyEvents_iff _ _ _ hsound.1 hm ha hu hr).mpr hsound.2

theorem row_step_of_ne (h : Apply cid m b m') (hne : cid ≠ other) :
    row m'.store other key = row m.store other key := by
  cases h with
  | overflow => rfl
  | applied _ hh =>
    cases hh with
    | fullSet => simp [fullSet, row_upsertAll_of_ne hne, row_removeControllerFromOverrideMap, hne]
    | partialUpdate => simp [partialUpdate, row_upsertAll_of_ne hne, row_removeAll, hne]

/-- From a new cache and no rows, sound batches keep the rows of the controller equal to the
projection of its cache and never touch the rows of another. -/
theorem mirrors_of_sound_run {m₀ m : Mirror} {bs : List Batch} (hc : m₀.cache = CacheState.new)
    (hr : ∀ key, row m₀.store cid key = none)
    (h : Run (Guarded (Apply cid) fun m b => b.Fits m.cache → b.Sound m.cache) m₀ bs m) :
    Mirrors cid m ∧ ∀ other key, cid ≠ other → row m.store other key = row m₀.store other key := by
  constructor
  · refine h.invariant (fun s b t hs hst => mirrors_step hst.1 hs hst.2) ?_
    intro key
    simp [hr key, hc, CacheState.new]
  · refine h.related (R := fun s t => ∀ other key, cid ≠ other →
      row t.store other key = row s.store other key) (fun _ _ _ _ => rfl) ?_ ?_
    · intro s t u hst htu other key hne
      exact (htu other key hne).trans (hst other key hne)
    · intro s b t hst other key hne
      exact row_step_of_ne hst.1 hne

/-- An override as a controller sends it. -/
def sharedOverride : Value :=
  .object [("metadata", .object [("namespace", .string "shop"), ("name", .string "shared")]),
    ("spec", .object [("data", .object [("type", .string "RegionRouteOverride")])])]

theorem sharedOverride_key : resourceKey sharedOverride = some "shop/shared" := by decide

def sharedListing : Listing where
  items := [("shop/shared", sharedOverride)]
  keyed := by simp [sharedOverride_key]
  distinct := by simp

/-- The same object added and deleted within one response. -/
def flap : EventList where
  events := [⟨.add, "shop/shared", sharedOverride⟩, ⟨.delete, "shop/shared", sharedOverride⟩]
  keyed := by simp [sharedOverride_key]

theorem tidy_of_name (h : nameOf d = some "shared") : Tidy d := by
  intro name _ hname
  rw [h] at hname
  cases hname
  decide

theorem sharedOverride_tidy : Tidy sharedOverride := tidy_of_name rfl

/-- One event for a namespaced document is sound, whatever the cache holds. -/
theorem soundKey_single (hns : (namespaceOf d).isSome) : SoundKey before [⟨t, k, d⟩] key := by
  by_cases hk : k = key
  · cases t <;> simp [SoundKey, handlerDoc, lastOf, finalDoc, Deletes, Option.filter, hk, hns]
  · cases t <;> simp [SoundKey, handlerDoc, lastOf, hk]

/-- The override after a change. -/
def movedOverride : Value :=
  .object [("metadata", .object [("namespace", .string "shop"), ("name", .string "shared")]),
    ("spec", .object [("data", .object [("type", .string "RegionRouteOverride"),
      ("region", .string "west")])])]

def sharedEvent (t : EventType) : EventList where
  events := [⟨t, "shop/shared", movedOverride⟩]
  keyed := by
    have hkey : resourceKey movedOverride = some "shop/shared" := by decide
    simp [hkey]

/-- A list, a change of the override and its removal. -/
def sharedBatches : List Batch :=
  [.replaceAll sharedListing 7 "server-1" 0, .applyEvents (sharedEvent .update) 8 "server-1" 1,
    .applyEvents (sharedEvent .delete) 9 "server-1" 2]

theorem mirrors_of_sound_run_listing :
    ∃ m, Run (Guarded (Apply "ctrl-1") fun m b => b.Fits m.cache → b.Sound m.cache)
        ⟨CacheState.new, ∅⟩ sharedBatches m ∧
      m.cache.syncVersion = 9 ∧ Mirrors "ctrl-1" m ∧
      ∀ other key, "ctrl-1" ≠ other → row m.store other key = none := by
  have hsound : ∀ (t : EventType) version now (s : CacheState Value),
      (Batch.applyEvents (sharedEvent t) version "server-1" now).Sound s := by
    intro t version now s
    have htidy : Tidy movedOverride := tidy_of_name rfl
    exact ⟨by simp [sharedEvent, htidy], fun key => soundKey_single rfl⟩
  have hrun : Run (Guarded (Apply "ctrl-1") fun m b => b.Fits m.cache → b.Sound m.cache)
      ⟨CacheState.new, ∅⟩ sharedBatches _ :=
    .step ⟨.applied rfl (.fullSet (.refl _)), fun _ => by
      simp [Batch.Sound, sharedListing, sharedOverride_tidy]⟩ <|
    .step ⟨.applied rfl (.partialUpdate (.refl _) (.refl _) (.refl _)), fun _ => hsound _ _ _ _⟩ <|
    .step ⟨.applied rfl (.partialUpdate (.refl _) (.refl _) (.refl _)), fun _ => hsound _ _ _ _⟩ <|
    .refl _
  refine ⟨_, hrun, rfl, ?_⟩
  simpa [row] using mirrors_of_sound_run rfl (by simp [row]) hrun

/-- The Delete empties the cache, but the handler removes the row before it adds it. -/
theorem flap_not_mirrored :
    ∃ m, Run (Apply "ctrl-1") ⟨CacheState.new, ∅⟩ [.applyEvents flap 7 "server-1" 0] m ∧
      ¬ Mirrors "ctrl-1" m := by
  have hcall : ((Batch.applyEvents flap 7 "server-1" 0).outcome "ctrl-1" CacheState.new).call =
      some (.partialUpdate (CacheState.new.sortEvents flap.events).add
        (CacheState.new.sortEvents flap.events).update
        (CacheState.new.sortEvents flap.events).remove) := by rfl
  refine ⟨_, .step (.applied hcall (.partialUpdate (.refl _) (.refl _) (.refl _))) (.refl _), ?_⟩
  have hempty : Mirrors "ctrl-1" ⟨CacheState.new, ∅⟩ := by
    intro key
    simp [row, CacheState.new]
  have htidy : ∀ e ∈ flap.events, Tidy e.data := by simp [flap, sharedOverride_tidy]
  intro hm
  have hkey := (mirrors_applyEvents_iff 7 "server-1" 0 htidy hempty (.refl _) (.refl _)
    (.refl _)).mp hm "shop/shared"
  have hdoc : handlerDoc "shop/shared" flap.events = some sharedOverride := by rfl
  have hfinal : finalDoc "shop/shared" flap.events none = none := by rfl
  have hproj : project sharedOverride = some sharedOverride := by
    have hp : Projected sharedOverride := by decide
    simp [project, hp]
  simp [SoundKey, hdoc, hproj, CacheState.new, hfinal] at hkey

end EdgionCenter
