import EdgionCenter.Admin.RegionRoute

/-! What the edits of a document leave as it was. -/
namespace EdgionCenter

namespace Value

/-! ### Members -/

section Members

variable {name other : String} {value : Value} {members : List (String × Value)}

theorem lookup_cons (key : String) (member : String × Value) : (member :: members).lookup key =
      if key = member.1 then some member.2 else members.lookup key := by
  obtain ⟨k, v⟩ := member
  by_cases h : key = k
  · subst h
    simp
  · rw [if_neg h, List.lookup_cons, beq_eq_false_iff_ne.mpr h]

theorem lookup_insertMember : (insertMember name value members).lookup other =
    if other = name then some value else members.lookup other := by
  induction members with
  | nil => simp [insertMember, lookup_cons]
  | cons member rest ih =>
    obtain ⟨k, v⟩ := member
    by_cases hother : other = name
    · subst hother
      rw [if_pos rfl] at ih ⊢
      unfold insertMember
      split_ifs with hk hlt
      · simp
      · simp
      · rw [lookup_cons, if_neg hk, ih]
    · rw [if_neg hother] at ih ⊢
      unfold insertMember
      split_ifs with hk hlt
      · subst hk
        simp [lookup_cons, hother]
      · rw [lookup_cons, if_neg hother]
      · rw [lookup_cons, lookup_cons, ih]

theorem lookup_removeMember : (removeMember name members).lookup other =
    if other = name then none else members.lookup other := by
  induction members with
  | nil => simp [removeMember]
  | cons member rest ih =>
    obtain ⟨k, v⟩ := member
    by_cases hk : k = name
    · subst hk
      have hskip : removeMember k ((k, v) :: rest) = removeMember k rest := by
        simp [removeMember]
      rw [hskip, ih, lookup_cons]
      split_ifs <;> rfl
    · have hkeep : removeMember name ((k, v) :: rest) = (k, v) :: removeMember name rest := by
        simp [removeMember, hk]
      rw [hkeep, lookup_cons, lookup_cons, ih]
      by_cases hother : other = name
      · subst hother
        simp [Ne.symm hk]
      · simp [hother]

theorem lookup_modifyMember {f : Value → Value} : (modifyMember name f members).lookup other =
    if other = name then (members.lookup other).map f else members.lookup other := by
  induction members with
  | nil => simp [modifyMember]
  | cons member rest ih =>
    obtain ⟨k, v⟩ := member
    unfold modifyMember
    split_ifs with hk hother hother
    · subst hk hother
      simp
    · subst hk
      simp [lookup_cons, hother]
    · subst hother
      rw [lookup_cons, lookup_cons, if_neg (Ne.symm hk), if_neg (Ne.symm hk), ih, if_pos rfl]
    · rw [lookup_cons, lookup_cons, ih, if_neg hother]

end Members

/-! ### Pointers -/

section Pointers

variable {value : Value} {token : String} {tokens more : List String} {f : Value → Value}

theorem pointer_append :
    value.pointer (tokens ++ more) = (value.pointer tokens).bind fun v => v.pointer more := by
  induction tokens generalizing value with
  | nil => rfl
  | cons token tokens ih =>
    cases value with
    | object members =>
      simp only [List.cons_append, pointer, ih, Option.bind_assoc]
    | array items =>
      simp only [List.cons_append, pointer, ih, Option.bind_assoc]
    | _ => rfl

/-- The value at the pointer of a change is the changed one. -/
theorem pointer_modify : (value.modify tokens f).pointer tokens = (value.pointer tokens).map f := by
  induction tokens generalizing value with
  | nil => rfl
  | cons token tokens ih =>
    cases value with
    | object members =>
      simp only [modify, pointer, lookup_modifyMember, if_true, Option.bind_map,
        Function.comp_def, ih, Option.map_bind]
    | array items =>
      unfold modify
      cases hindex : parseIndex token with
      | none => simp [pointer, hindex]
      | some i =>
        simp only [pointer, hindex, Option.bind_some, List.getElem?_modify, if_true]
        cases items[i]? with
        | none => rfl
        | some item => simpa using ih
    | _ => rfl

end Pointers

/-! ### The same apart from some places -/

/-- A node without what is below it. -/
inductive Shape
  | null
  | bool (b : Bool)
  | number (n : Number)
  | string (s : String)
  | array (length : Nat)
  | object
  deriving DecidableEq

def shape : Value → Shape
  | .null => .null
  | .bool b => .bool b
  | .number n => .number n
  | .string s => .string s
  | .array items => .array items.length
  | .object _ => .object

end Value

open Value

/-- The values have the same nodes everywhere but at and below the given places. -/
def SameApart (places : List String → Prop) (a b : Option Value) : Prop :=
  ∀ path, (∀ place, places place → ¬ place <+: path) →
    (a.bind fun v => v.pointer path).map shape = (b.bind fun v => v.pointer path).map shape

section SameApart

variable {places places' : List String → Prop} {a b c : Option Value} {u v : Value}

theorem SameApart.refl (a : Option Value) : SameApart places a a := fun _ _ => rfl

theorem SameApart.trans (h : SameApart places a b) (h' : SameApart places b c) :
    SameApart places a c :=
  fun path hpath => (h path hpath).trans (h' path hpath)

theorem SameApart.mono (h : SameApart places a b) (hmono : ∀ p, places p → places' p) :
    SameApart places' a b :=
  fun path hpath => h path fun place hplace => hpath place (hmono place hplace)

/-- A place that is given may hold anything. -/
theorem sameApart_here (h : places []) : SameApart places a b := by
  intro path hpath
  exact absurd List.nil_prefix (hpath [] h)

/-- The places below a token. -/
def below (token : String) (places : List String → Prop) (path : List String) : Prop :=
  places (token :: path)

variable {ms ns : List (String × Value)} {name : String} {f : Value → Value}

theorem sameApart_object
    (h : ∀ name, SameApart (below name places) (ms.lookup name) (ns.lookup name)) :
    SameApart places (some (.object ms)) (some (.object ns)) := by
  intro path hpath
  cases path with
  | nil => rfl
  | cons token path =>
    refine h token path fun place hplace hpre => hpath _ hplace ?_
    exact List.cons_prefix_cons.mpr ⟨rfl, hpre⟩

theorem sameApart_array {xs ys : List Value} (hlength : xs.length = ys.length)
    (h : ∀ token i, parseIndex token = some i → SameApart (below token places) xs[i]? ys[i]?) :
    SameApart places (some (.array xs)) (some (.array ys)) := by
  intro path hpath
  cases path with
  | nil => simp [pointer, shape, hlength]
  | cons token path =>
    simp only [Option.bind_some, pointer]
    cases hindex : parseIndex token with
    | none => rfl
    | some i =>
      refine h token i hindex path fun place hplace hpre => hpath _ hplace ?_
      exact List.cons_prefix_cons.mpr ⟨rfl, hpre⟩

/-- Only one member is touched. -/
theorem sameApart_member (hothers : ∀ other, other ≠ name → ms.lookup other = ns.lookup other)
    (h : SameApart (below name places) (ms.lookup name) (ns.lookup name)) :
    SameApart places (some (.object ms)) (some (.object ns)) := by
  apply sameApart_object
  intro other
  by_cases hother : other = name
  · subst hother
    exact h
  · rw [hothers other hother]
    exact .refl _

theorem sameApart_insertMember (h : places [name]) :
    SameApart places (some (.object (insertMember name v ms))) (some (.object ms)) := by
  apply sameApart_member
  · intro other hother
    rw [lookup_insertMember, if_neg hother]
  · exact sameApart_here h

theorem sameApart_removeMember (h : places [name]) :
    SameApart places (some (.object (removeMember name ms))) (some (.object ms)) := by
  apply sameApart_member
  · intro other hother
    rw [lookup_removeMember, if_neg hother]
  · exact sameApart_here h

/-- A change at the end of a path of member names. -/
theorem sameApart_modify {tokens : List String} (hnames : ∀ token ∈ tokens, parseIndex token = none)
    (h : ∀ v, SameApart (fun path => places (tokens ++ path)) (some (f v)) (some v)) :
    SameApart places (some (v.modify tokens f)) (some v) := by
  induction tokens generalizing v places with
  | nil => exact h v
  | cons token tokens ih =>
    cases v with
    | object members =>
      apply sameApart_member
      · intro other hother
        rw [lookup_modifyMember, if_neg hother]
      · rw [lookup_modifyMember, if_pos rfl]
        cases members.lookup token with
        | none => exact .refl _
        | some value =>
          exact ih (fun t ht => hnames t (List.mem_cons_of_mem _ ht)) h
    | array items =>
      have htoken := hnames token List.mem_cons_self
      unfold Value.modify
      rw [htoken]
      exact .refl _
    | _ => exact .refl _

theorem sameApart_setItem {index : Nat} (h : ∀ token v, parseIndex token = some index →
      SameApart (below token places) (some (f v)) (some v)) :
    SameApart places (some (setItem index f v)) (some v) := by
  cases v with
  | array items =>
    apply sameApart_array (List.length_modify ..)
    intro token i htoken
    rw [List.getElem?_modify]
    cases items[i]? with
    | none => exact .refl _
    | some item =>
      by_cases hi : index = i
      · subst hi
        simpa using h token item htoken
      · simpa [hi] using SameApart.refl _
  | _ => exact .refl _

end SameApart

/-! ### The body that is written -/

section Body

/-- What the controller computes and the write core takes out. -/
def Computed (path : List String) : Prop := path = ["status"] ∨ path = ["spec", "currentStatus"]

theorem sameApart_stripStatus {places : List String → Prop} (h : ∀ p, Computed p → places p)
    (document : Value) : SameApart places (some (stripStatus document)) (some document) := by
  refine SameApart.mono ?_ h
  cases document with
  | object members =>
    have hstatus : SameApart Computed (some (.object (removeMember "status" members)))
        (some (.object members)) := sameApart_removeMember (.inl rfl)
    unfold stripStatus
    dsimp only
    split
    · next spec hspec =>
      refine SameApart.trans ?_ hstatus
      apply sameApart_member
      · intro other hother
        rw [lookup_insertMember, if_neg hother]
      · rw [lookup_insertMember, if_pos rfl, hspec]
        exact sameApart_removeMember (.inr rfl)
    · exact hstatus
  | _ => exact .refl _

/-- The write core leaves everything in `spec` but `currentStatus`. -/
theorem pointer_stripStatus {document : Value} {token : String} {tokens : List String}
    (h : token ≠ "currentStatus") : (stripStatus document).pointer ("spec" :: token :: tokens) =
      document.pointer ("spec" :: token :: tokens) := by
  cases document with
  | object members =>
    have hspec : (removeMember "status" members).lookup "spec" = members.lookup "spec" := by
      rw [lookup_removeMember, if_neg (by decide)]
    unfold stripStatus
    dsimp only
    split
    · next spec hlookup =>
      rw [hspec] at hlookup
      simp only [pointer, lookup_insertMember, if_true, hlookup, Option.bind_some,
        lookup_removeMember, if_neg h]
    · simp only [pointer, hspec]
  | _ => rfl

end Body

/-! ### Failover -/

section Failover

variable {req : FailoverRequest} {expectedType regionName failoverTo : String} {d d' : Value}
  {index : Nat}

/-- `failoverTo` of the region at an index. -/
def FailoverPlace (index : Nat) (path : List String) : Prop :=
  ∃ token, parseIndex token = some index ∧ path = regionsPointer ++ [token, "failoverTo"]

theorem names_regionsPointer : ∀ token ∈ regionsPointer, parseIndex token = none := by
  decide

theorem setRegionFailoverTo_eq_ok : setRegionFailoverTo d regionName failoverTo = .ok d' ↔
    ∃ index, regionIndex d regionName = some index ∧
      d.modify regionsPointer (setItem index (setFailoverTo failoverTo)) = d' := by
  unfold setRegionFailoverTo
  cases regionIndex d regionName with
  | none => simp
  | some index => simp

theorem failoverMutate_eq_ok : failoverMutate req expectedType d = .ok d' ↔
    configDataTypeIs d expectedType = true ∧
      setRegionFailoverTo d req.regionName req.failoverTo = .ok d' := by
  unfold failoverMutate
  split_ifs with htype
  · simp [htype]
  · simp [htype]

variable {places : List String → Prop} {place : List String}

theorem sameApart_setFailoverTo (h : places ["failoverTo"]) (region : Value) :
    SameApart places (some (setFailoverTo failoverTo region)) (some region) := by
  cases region with
  | object fields =>
    unfold setFailoverTo
    split_ifs with hempty
    · exact sameApart_removeMember h
    · exact sameApart_insertMember h
  | _ => exact .refl _

theorem sameApart_setRegion (places : List String → Prop)
    (h : ∀ p, FailoverPlace index p → places p) (document : Value) : SameApart places
      (some (document.modify regionsPointer (setItem index (setFailoverTo failoverTo))))
      (some document) := by
  apply sameApart_modify names_regionsPointer
  intro regions
  apply sameApart_setItem
  intro token region htoken
  apply sameApart_setFailoverTo
  exact h _ ⟨token, htoken, rfl⟩

/-- The name of a region stays. -/
theorem name_setFailoverTo (region : Value) :
    (setFailoverTo failoverTo region).get "name" = region.get "name" := by
  cases region with
  | object fields =>
    unfold setFailoverTo
    split_ifs with hempty
    · simp [Value.get, Value.asObject, lookup_removeMember]
    · simp [Value.get, Value.asObject, lookup_insertMember]
  | _ => rfl

theorem findIdx?_modify {items : List Value} {p : Value → Bool} {f : Value → Value} {i : Nat}
    (h : ∀ v, p (f v) = p v) : (items.modify i f).findIdx? p = items.findIdx? p := by
  induction items generalizing i with
  | nil => simp
  | cons item items ih =>
    cases i with
    | zero => simp [List.findIdx?_cons, h]
    | succ i => simp [List.findIdx?_cons, ih]

theorem regionIndex_eq_some : regionIndex d regionName = some index ↔
    ∃ items, d.pointer regionsPointer = some (.array items) ∧
      items.findIdx? (fun region => (region.get "name").bind Value.asStr == some regionName) =
        some index := by
  unfold regionIndex
  simp only [Option.bind_eq_bind, Option.bind_eq_some_iff]
  constructor
  · rintro ⟨value, hvalue, items, hitems, hindex⟩
    cases value with
    | array xs =>
      cases hitems
      exact ⟨_, hvalue, hindex⟩
    | _ => cases hitems
  · rintro ⟨items, hitems, hindex⟩
    exact ⟨_, hitems, _, rfl, hindex⟩

/-- A region that has a name has fields. -/
theorem failoverTo_setFailoverTo {region : Value} {name : Value}
    (hname : region.get "name" = some name) :
    failoverValueMatches ((setFailoverTo failoverTo region).get "failoverTo") failoverTo =
      true := by
  cases region with
  | object fields =>
    unfold setFailoverTo failoverValueMatches
    split_ifs with hempty
    · simp [Value.get, Value.asObject, lookup_removeMember]
    · simp [Value.get, Value.asObject, lookup_insertMember, Value.asStr]
  | _ => simp [Value.get, Value.asObject] at hname

/-- What was set is found again. -/
theorem regionFailoverMatches_set (hindex : regionIndex d regionName = some index)
    (hregions : d'.pointer regionsPointer =
      (d.pointer regionsPointer).map (setItem index (setFailoverTo failoverTo))) :
    regionFailoverMatches d' regionName failoverTo = true := by
  obtain ⟨items, hitems, hfind⟩ := regionIndex_eq_some.mp hindex
  have hitems' : d'.pointer regionsPointer =
      some (.array (items.modify index (setFailoverTo failoverTo))) := by
    rw [hregions, hitems]
    rfl
  have hindex' : regionIndex d' regionName = some index := by
    refine regionIndex_eq_some.mpr ⟨_, hitems', ?_⟩
    rw [findIdx?_modify, hfind]
    intro region
    rw [name_setFailoverTo]
  obtain ⟨hlt, hnamed, -⟩ := List.findIdx?_eq_some_iff_getElem.mp hfind
  have hfailover : regionFailover d' index =
      (setFailoverTo failoverTo items[index]).get "failoverTo" := by
    simp [regionFailover, hitems', Value.asArray, List.getElem?_eq_getElem hlt]
  have hname : ∃ name, items[index].get "name" = some name := by
    cases hget : items[index].get "name" with
    | none => simp [hget] at hnamed
    | some name => exact ⟨name, rfl⟩
  obtain ⟨name, hname⟩ := hname
  unfold regionFailoverMatches
  rw [hindex']
  change failoverValueMatches (regionFailover d' index) failoverTo = true
  rw [hfailover]
  exact failoverTo_setFailoverTo hname

/-- The node at a path tells the text there. -/
theorem asStr_of_shape {a b : Option Value} (h : a.map shape = b.map shape) :
    a.bind Value.asStr = b.bind Value.asStr := by
  cases a with
  | none =>
    cases b with
    | none => rfl
    | some b => cases h
  | some a =>
    cases b with
    | none => cases h
    | some b =>
      have hshape : shape a = shape b := Option.some.inj h
      cases a <;> cases b <;> simp_all [shape, Value.asStr]

theorem configType_of_sameApart (h : SameApart places (some d') (some d))
    (hplaces : ∀ place, places place → ¬ place <+: ["spec", "data", "type"]) :
    ConfigTyped.configType d' = ConfigTyped.configType d :=
  asStr_of_shape (h ["spec", "data", "type"] hplaces)

theorem computed_not_type (h : Computed place) : ¬ place <+: ["spec", "data", "type"] := by
  rcases h with rfl | rfl
  · decide
  · decide

theorem failoverPlace_not_type (h : FailoverPlace index place) :
    ¬ place <+: ["spec", "data", "type"] := by
  obtain ⟨token, -, rfl⟩ := h
  intro hpre
  have := hpre.length_le
  simp [regionsPointer] at this

/-- The document with the region changed, without what the controller computes. -/
structure FailoverBody (req : FailoverRequest) (expectedType : String) (d body : Value) : Prop where
  first : ∃ index, regionIndex d req.regionName = some index ∧
    SameApart (fun path => Computed path ∨ FailoverPlace index path) (some body) (some d)
  matched : failoverPredicate req expectedType body = true

theorem failoverBody_of_mutate (h : failoverMutate req expectedType d = .ok d') :
    FailoverBody req expectedType d (stripStatus d') := by
  obtain ⟨htype, hset⟩ := failoverMutate_eq_ok.mp h
  obtain ⟨index, hindex, rfl⟩ := setRegionFailoverTo_eq_ok.mp hset
  have hsame : SameApart (fun path => Computed path ∨ FailoverPlace index path)
      (some (stripStatus (d.modify regionsPointer (setItem index (setFailoverTo req.failoverTo)))))
      (some d) :=
    (sameApart_stripStatus (fun _ => .inl) _).trans (sameApart_setRegion _ (fun _ => .inr) d)
  refine ⟨⟨index, hindex, hsame⟩, ?_⟩
  have htype' := configType_of_sameApart hsame fun place hplace =>
    hplace.elim computed_not_type failoverPlace_not_type
  unfold failoverPredicate configDataTypeIs at *
  rw [htype', htype, Bool.true_and]
  apply regionFailoverMatches_set hindex
  rw [← pointer_modify]
  exact pointer_stripStatus (by decide)

/-- Where the failover is already in effect, it could be set. -/
theorem mutate_of_predicate (h : failoverPredicate req expectedType d = true) :
    ∃ d', failoverMutate req expectedType d = .ok d' := by
  unfold failoverPredicate at h
  obtain ⟨htype, hmatches⟩ := Bool.and_eq_true_iff.mp h
  unfold regionFailoverMatches at hmatches
  cases hindex : regionIndex d req.regionName with
  | none => simp [hindex] at hmatches
  | some index =>
    exact ⟨_, failoverMutate_eq_ok.mpr ⟨htype, setRegionFailoverTo_eq_ok.mpr ⟨index, hindex, rfl⟩⟩⟩

end Failover

/-! ### Sync -/

section Sync

variable {source d d' : Value}

theorem replaceSpecData_eq_ok : replaceSpecData source d = .ok d' ↔
    ∃ members spec, d = .object members ∧ members.lookup "spec" = some (.object spec) ∧
      d' = .object (insertMember "spec" (.object (insertMember "data" source spec)) members) := by
  unfold replaceSpecData
  constructor
  · intro h
    split at h
    · next members =>
      split at h
      · next spec hspec =>
        cases h
        exact ⟨members, spec, rfl, hspec, rfl⟩
      · cases h
    · cases h
  · rintro ⟨members, spec, rfl, hspec, rfl⟩
    simp [hspec]

mutual

theorem Value.eq_self : ∀ v : Value, v.eq v = true
  | .null => by simp [Value.eq]
  | .bool b => by simp [Value.eq]
  | .number n => by simp [Value.eq]
  | .string s => by simp [Value.eq]
  | .array items => by simpa [Value.eq] using Value.eqItems_self items
  | .object members => by simpa [Value.eq] using Value.eqMembers_self members

theorem Value.eqItems_self : ∀ items : List Value, Value.eqItems items items = true
  | [] => by simp [Value.eqItems]
  | item :: items => by simp [Value.eqItems, Value.eq_self item, Value.eqItems_self items]

theorem Value.eqMembers_self : ∀ members : List (String × Value),
    Value.eqMembers members members = true
  | [] => by simp [Value.eqMembers]
  | (name, value) :: members => by
    simp [Value.eqMembers, Value.eq_self value, Value.eqMembers_self members]

end

/-- The document with the source's data, without what the controller computes. -/
structure SyncBody (source d body : Value) : Prop where
  same : SameApart (fun path => Computed path ∨ path = ["spec", "data"]) (some body) (some d)
  matched : syncPredicate source body = true

theorem pointer_replaceSpecData (h : replaceSpecData source d = .ok d') (tokens : List String) :
    d'.pointer ("spec" :: "data" :: tokens) = source.pointer tokens := by
  obtain ⟨members, spec, -, -, rfl⟩ := replaceSpecData_eq_ok.mp h
  simp [pointer, lookup_insertMember]

theorem syncBody_of_mutate (h : replaceSpecData source d = .ok d') :
    SyncBody source d (stripStatus d') := by
  constructor
  · refine (sameApart_stripStatus (fun _ => .inl) _).trans ?_
    obtain ⟨members, spec, rfl, hspec, rfl⟩ := replaceSpecData_eq_ok.mp h
    apply sameApart_member
    · intro other hother
      rw [lookup_insertMember, if_neg hother]
    · rw [lookup_insertMember, if_pos rfl, hspec]
      exact sameApart_insertMember (.inr rfl)
  · unfold syncPredicate
    rw [pointer_stripStatus (by decide), pointer_replaceSpecData h []]
    exact Value.eq_self source

end Sync

/-- Both edits change exactly what they are for, and are seen as done in what they wrote. -/
theorem region_edits_exact (req : FailoverRequest) (expectedType : String) :
    (∀ d d', failoverMutate req expectedType d = .ok d' →
      FailoverBody req expectedType d (stripStatus d')) ∧
    (∀ d, failoverPredicate req expectedType d = true →
      ∃ d', failoverMutate req expectedType d = .ok d') ∧
    ∀ source d d', replaceSpecData source d = .ok d' → SyncBody source d (stripStatus d') :=
  ⟨fun _ _ => failoverBody_of_mutate, fun _ => mutate_of_predicate, fun _ _ _ => syncBody_of_mutate⟩

/-- A region "east" that fails over to "west". -/
def eastToWest : FailoverRequest := ⟨"shop", "routes", "east", "west"⟩

def eastDocument : Value :=
  .object [("spec", .object [("data", .object [("config", .object [("regions",
    .array [.object [("name", .string "east")]])]), ("type", .string "RegionRouteOverride")])])]

/-- The document fails over, is seen as done and can fail over again, and takes over other data. -/
theorem region_edits_exact_east : ∃ d' again synced,
    failoverMutate eastToWest regionOverrideType eastDocument = .ok d' ∧
      FailoverBody eastToWest regionOverrideType eastDocument (stripStatus d') ∧
      failoverMutate eastToWest regionOverrideType (stripStatus d') = .ok again ∧
      replaceSpecData (.string "west") d' = .ok synced ∧
      SyncBody (.string "west") d' (stripStatus synced) := by
  obtain ⟨hfailover, hagain, hsync⟩ := region_edits_exact eastToWest regionOverrideType
  have haccepted : ∃ d' synced, failoverMutate eastToWest regionOverrideType eastDocument = .ok d' ∧
      replaceSpecData (.string "west") d' = .ok synced := ⟨_, _, rfl, rfl⟩
  obtain ⟨d', synced, hd, hsynced⟩ := haccepted
  have hbody := hfailover _ _ hd
  obtain ⟨again, hagain⟩ := hagain _ hbody.matched
  exact ⟨d', again, synced, hd, hbody, hagain, hsynced, hsync _ _ _ hsynced⟩

end EdgionCenter
