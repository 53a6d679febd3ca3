import EdgionCenter.Watch.Cache

/-! The override rows that the watch caches of all controllers feed. -/
namespace EdgionCenter

/-- "namespace/name" to controller id to document. -/
abbrev Overrides := Map (Map Value)

def namespaceOf (resource : Value) : Option String :=
  (resource.pointer ["metadata", "namespace"]).bind Value.asStr

def nameOf (resource : Value) : Option String :=
  (resource.pointer ["metadata", "name"]).bind Value.asStr

/-- The cache key of a document, as the federation server derives it. -/
def resourceKey (value : Value) : Option String := do
  let metadata ← (← value.get "metadata").asObject
  let name := trim (← (← metadata.lookup "name").asStr)
  if name.isEmpty then none
  else match (metadata.lookup "namespace").bind Value.asStr with
    | none => some name
    | some ns => some (ns ++ "/" ++ name)

namespace Overrides

def removeOverrideKeyForController (map : Overrides) (key controllerId : String) : Overrides :=
  match map[key]? with
  | none => map
  | some controllers =>
    let rest := controllers.erase controllerId
    if rest.isEmpty then map.erase key else map.insert key rest

def removeControllerFromOverrideMap (map : Overrides) (controllerId : String) : Overrides :=
  map.filterMap fun _ controllers =>
    let rest := controllers.erase controllerId
    if rest.isEmpty then none else some rest

def upsertWatchedOverride (map : Overrides) (controllerId : String) (resource : Value) :
    Overrides :=
  match namespaceOf resource, nameOf resource with
  | some ns, some name =>
    let key := ns ++ "/" ++ name
    let map := map.removeOverrideKeyForController key controllerId
    if ConfigTyped.configType resource ≠ some "RegionRouteOverride" then map
    else map.insert key ((map.getD key ∅).insert controllerId resource)
  | _, _ => map

def upsertAll (map : Overrides) (controllerId : String) (entries : List (String × Value)) :
    Overrides :=
  entries.foldl (fun m e => m.upsertWatchedOverride controllerId e.2) map

/-- `data` is listed in the order the handler iterates over it. -/
def fullSet (map : Overrides) (controllerId : String) (data : List (String × Value)) : Overrides :=
  (map.removeControllerFromOverrideMap controllerId).upsertAll controllerId data

/-- Each map is listed in the order the handler iterates over it. -/
def partialUpdate (map : Overrides) (controllerId : String)
    (add update remove : List (String × Value)) : Overrides :=
  let removed := remove.foldl
    (fun m e => m.removeOverrideKeyForController e.1 controllerId) map
  removed.upsertAll controllerId (add ++ update)

/-- The row of one controller under one key. -/
def row (map : Overrides) (controllerId key : String) : Option Value :=
  map[key]?.bind fun controllers => controllers[controllerId]?

variable {map : Overrides} {cid other key key' : String} {d : Value}

theorem row_insert (controllers : Map Value) : row (map.insert key controllers) cid key' =
      if key = key' then controllers[cid]? else row map cid key' := by
  by_cases h : key = key' <;> simp [row, Std.ExtTreeMap.getElem?_insert, h]

theorem row_erase :
    row (map.erase key) cid key' = if key = key' then none else row map cid key' := by
  by_cases h : key = key' <;> simp [row, Std.ExtTreeMap.getElem?_erase, h]

theorem row_removeOverrideKeyForController :
    row (map.removeOverrideKeyForController key cid) other key' =
      if key = key' ∧ cid = other then none else row map other key' := by
  unfold removeOverrideKeyForController
  cases hk : map[key]? with
  | none =>
    by_cases h : key = key'
    · subst h
      simp [row, hk]
    · simp [h]
  | some controllers =>
    have herase : (controllers.erase cid)[other]? =
        if cid = other then none else controllers[other]? := by
      simp [Std.ExtTreeMap.getElem?_erase]
    by_cases h : key = key'
    · subst h
      by_cases he : (controllers.erase cid).isEmpty
      · have hnone : (controllers.erase cid)[other]? = none := by
          rw [Std.ExtTreeMap.isEmpty_iff.mp he]
          simp
        rw [herase] at hnone
        simp only [he, ↓reduceIte, row_erase]
        by_cases hc : cid = other <;> simp_all [row]
      · simp only [he, Bool.false_eq_true, ↓reduceIte, row_insert, herase]
        by_cases hc : cid = other <;> simp [row, hk, hc]
    · by_cases he : (controllers.erase cid).isEmpty <;> simp [he, row_erase, row_insert, h]

theorem row_removeControllerFromOverrideMap :
    row (map.removeControllerFromOverrideMap cid) other key =
      if cid = other then none else row map other key := by
  simp only [row, removeControllerFromOverrideMap, Std.ExtTreeMap.getElem?_filterMap,
    Option.pbind_eq_bind]
  cases map[key]? with
  | none => simp
  | some controllers =>
    have herase : (controllers.erase cid)[other]? =
        if cid = other then none else controllers[other]? := by
      simp [Std.ExtTreeMap.getElem?_erase]
    by_cases he : (controllers.erase cid).isEmpty
    · rw [Std.ExtTreeMap.isEmpty_iff.mp he] at herase
      simp [he, ← herase]
    · simp [he, herase]

/-- The documents the store shows: overrides with a namespace. -/
def Projected (d : Value) : Prop :=
  ConfigTyped.configType d = some "RegionRouteOverride" ∧ (namespaceOf d).isSome

instance (d : Value) : Decidable (Projected d) := inferInstanceAs (Decidable (_ ∧ _))

def project (d : Value) : Option Value := if Projected d then some d else none

/-- Only the row under the document's own name is touched, and it is written anew. -/
theorem row_upsertWatchedOverride {ns name : String} (hns : namespaceOf d = some ns)
    (hname : nameOf d = some name) : row (map.upsertWatchedOverride cid d) other key =
      if ns ++ "/" ++ name = key ∧ cid = other then project d
      else row map other key := by
  have hp : Projected d ↔ ConfigTyped.configType d = some "RegionRouteOverride" := by
    simp [Projected, hns]
  unfold upsertWatchedOverride
  rw [hns, hname]
  by_cases ht : ConfigTyped.configType d = some "RegionRouteOverride"
  · simp only [ht, ne_eq, not_true_eq_false, ↓reduceIte, row_insert, Std.ExtTreeMap.getElem?_insert,
      Std.LawfulEqCmp.compare_eq_iff_eq]
    by_cases hk : ns ++ "/" ++ name = key
    · subst hk
      by_cases hc : cid = other
      · simp [hc, project, hp, ht]
      · have hrow : row (map.removeOverrideKeyForController (ns ++ "/" ++ name) cid) other
            (ns ++ "/" ++ name) = row map other (ns ++ "/" ++ name) := by
          simp [row_removeOverrideKeyForController, hc]
        rw [← hrow]
        simp only [↓reduceIte, hc, and_false, row, Std.ExtTreeMap.getD_eq_getD_getElem?]
        cases (map.removeOverrideKeyForController (ns ++ "/" ++ name) cid)[ns ++ "/" ++ name]? <;>
          simp
    · simp [hk, row_removeOverrideKeyForController]
  · simp only [ht, ne_eq, not_false_eq_true, ↓reduceIte, row_removeOverrideKeyForController]
    simp [project, hp, ht]

theorem upsertWatchedOverride_of_not_namespaced (hns : namespaceOf d = none) :
    map.upsertWatchedOverride cid d = map := by
  unfold upsertWatchedOverride
  rw [hns]

end Overrides

end EdgionCenter
