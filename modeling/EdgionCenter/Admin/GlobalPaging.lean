import EdgionCenter.Admin.GlobalResources
import EdgionCenter.Lib.Entries
import EdgionCenter.Lib.Paging
import EdgionCenter.Watch.MetaDataStore

/-! The pages of the global listing: what they are made of, and which token leads to which. -/
namespace EdgionCenter

open Fallible JsonText Paging Sorting

/-! ### Tokens -/

section Tokens

theorem ConfigDataFilter.json_delimits : Delimits ConfigDataFilter.json := by
  have hname : Function.Injective watchTypeFilter := by
    intro a b h
    cases a <;> cases b <;> first | rfl | exact absurd h (by decide)
  intro a b r s h
  cases a with
  | none =>
    cases b with
    | none => exact ⟨rfl, List.append_cancel_left h⟩
    | some b => cases h
  | some a =>
    cases b with
    | none => cases h
    | some b =>
      obtain ⟨htext, hrest⟩ := string_delimits h
      rw [String.toList_inj] at htext
      exact ⟨congrArg some (hname htext), hrest⟩

theorem GroupKey.json_delimits : Delimits GroupKey.json := by
  rintro ⟨kind, ns, name⟩ ⟨kind', ns', name'⟩ r s h
  unfold GroupKey.json at h
  simp only [List.append_assoc] at h
  obtain ⟨hkind, h⟩ := string_delimits.after h
  obtain ⟨hns, h⟩ := string_delimits.after h
  obtain ⟨hname, h⟩ := string_delimits.after h
  rw [String.toList_inj] at hkind hns hname
  exact ⟨by rw [hkind, hns, hname], List.append_cancel_left h⟩

theorem ContinueToken.json_injective : Function.Injective ContinueToken.json := by
  rintro ⟨a, b, c, d, e, f, g, h, i⟩ ⟨a', b', c', d', e', f', g', h', i'⟩ heq
  unfold ContinueToken.json at heq
  simp only [List.append_assoc] at heq
  obtain ⟨ha, heq⟩ := string_delimits.after heq
  obtain ⟨hb, heq⟩ := string_delimits.after heq
  obtain ⟨hc, heq⟩ := string_delimits.after heq
  obtain ⟨hd, heq⟩ := string_delimits.after heq
  obtain ⟨he, heq⟩ := string_delimits.after heq
  obtain ⟨hf, heq⟩ := (number_delimits (by decide)).after heq
  obtain ⟨hg, heq⟩ := ConfigDataFilter.json_delimits.after heq
  obtain ⟨hh, heq⟩ := string_delimits.after heq
  obtain ⟨hi, heq⟩ := GroupKey.json_delimits.after heq
  rw [String.toList_inj] at ha hb hc hd he hh
  rw [ha, hb, hc, hd, he, hf, hg, hh, hi]

theorem toList_encodeToken (token : ContinueToken) : (encodeToken token).toList =
    tokenStart.toList ++ (base64 (Serialize.toVec token)).toList :=
  String.toList_append

theorem utf8Len_encodeToken (token : ContinueToken) :
    utf8Len (encodeToken token).toList = 4 + (4 * (Serialize.toVec token).length + 2) / 3 := by
  have hstart : utf8Len tokenStart.toList = 4 := by decide
  rw [toList_encodeToken, utf8Len_append, utf8Len_base64, hstart]

theorem tokenBody_encodeToken {token : ContinueToken}
    (hlength : utf8Len (encodeToken token).toList ≤ maxTokenBytes) :
    tokenBody (encodeToken token) = some (base64 (Serialize.toVec token)) := by
  have hstarts : startsWith (encodeToken token) tokenStart = true := by
    rw [startsWith, toList_encodeToken, List.isPrefixOf_iff_prefix]
    exact List.prefix_append _ _
  rw [tokenBody, if_pos ⟨hlength, hstarts⟩, toList_encodeToken, List.drop_left,
    String.ofList_toList]

variable [Deserialize ContinueToken] {value : String} {token : ContinueToken}

/-- Exactly the tokens that could have been issued are read. -/
theorem decodeToken_eq_some : decodeToken value = some token ↔
    value = encodeToken token ∧ utf8Len value.toList ≤ maxTokenBytes := by
  simp only [decodeToken, Option.bind_eq_bind, Option.bind_eq_some_iff]
  constructor
  · rintro ⟨body, hbody, bytes, -, read, -, hread⟩
    unfold tokenBody at hbody
    unfold canonicalToken at hread
    split_ifs at hbody hread with hlength hsame
    cases hread
    exact ⟨hsame.symm, hlength.1⟩
  · rintro ⟨rfl, hlength⟩
    exact ⟨_, tokenBody_encodeToken hlength, _, decodeBase64_base64 _, token,
      Deserialize.fromSlice_toVec token, if_pos rfl⟩

theorem readToken_eq_ok : readToken value = .ok token ↔ decodeToken value = some token := by
  unfold readToken
  cases decodeToken value <;> simp

theorem decodeContinue_some (hlength : utf8Len (encodeToken token).toList ≤ maxTokenBytes) :
    decodeContinue (some (encodeToken token)) = .ok (some token) := by
  change some <$> readToken (encodeToken token) = _
  rw [readToken_eq_ok.mpr (decodeToken_eq_some.mpr ⟨rfl, hlength⟩)]
  rfl

theorem decodeContinue_eq_ok {continueToken : Option String} {read : Option ContinueToken}
    (h : decodeContinue continueToken = .ok read) : continueToken = read.map encodeToken := by
  cases continueToken with
  | none =>
    cases h
    rfl
  | some value =>
    obtain ⟨token, hread, rfl⟩ := map_eq_ok.mp h
    rw [(decodeToken_eq_some.mp (readToken_eq_ok.mp hread)).1]
    rfl

theorem encodeToken_injective : Function.Injective encodeToken := by
  intro a b h
  have hlist := congrArg String.toList h
  rw [toList_encodeToken, toList_encodeToken] at hlist
  exact toVec_injective (base64_injective (String.toList_inj.mp (List.append_cancel_left hlist)))

end Tokens

/-! ### What the registry shows -/

section Registry

/-- The caches of all controllers. -/
abbrev Registry := Map (CacheState Value)

/-- A document in the cache of a controller. -/
structure CachedDocument where
  controllerId : String
  key : String
  value : Value

def CachedDocument.entry (d : CachedDocument) : ConfigDataEntry :=
  buildEntry d.controllerId d.key d.value

/-- One cache as it is iterated over. -/
def ShowsCache (shown : String × List (String × Value)) (cache : String × CacheState Value) :
    Prop :=
  shown.1 = cache.1 ∧ shown.2.Perm cache.2.data.toList

namespace Registry

/-- What a request can read of a registry that does not change meanwhile. -/
structure Shows (registry : Registry) (view : WatchView) : Prop where
  statuses : view.statuses.Perm (registry.toList.map fun c => (c.1, c.2.status))
  caches : ∃ caches, caches.Perm registry.toList ∧ List.Forall₂ ShowsCache view.caches caches

def documents (registry : Registry) : List CachedDocument :=
  registry.toList.flatMap fun c => c.2.data.toList.map fun e => ⟨c.1, e.1, e.2⟩

/-- The documents that a listing is about. -/
def Selects (filter : Option ConfigDataFilter) (clusters : List String) (d : CachedDocument) :
    Prop :=
  d.entry.Matches (filter.map watchTypeFilter) ∧ InScope clusters d.controllerId

instance decidableSelects (filter : Option ConfigDataFilter) (clusters : List String) :
    DecidablePred (Selects filter clusters) := fun d =>
  inferInstanceAs (Decidable (d.entry.Matches (filter.map watchTypeFilter) ∧
    InScope clusters d.controllerId))

def selected (registry : Registry) (filter : Option ConfigDataFilter) (clusters : List String) :
    List CachedDocument :=
  registry.documents.filter (Selects filter clusters)

variable {registry : Registry} {view view' : WatchView} {filter : Option ConfigDataFilter}
  {clusters : List String} {d : CachedDocument}

theorem mem_documents : d ∈ registry.documents ↔
    ∃ cache, registry[d.controllerId]? = some cache ∧ cache.data[d.key]? = some d.value := by
  obtain ⟨id, key, value⟩ := d
  simp only [documents, List.mem_flatMap, List.mem_map, CachedDocument.mk.injEq, Prod.exists]
  constructor
  · rintro ⟨_, cache, hcache, _, _, hdoc, rfl, rfl, rfl⟩
    exact ⟨cache, (Entries.mem_iff_of_perm (.refl _)).mp hcache,
      (Entries.mem_iff_of_perm (.refl _)).mp hdoc⟩
  · rintro ⟨cache, hcache, hdoc⟩
    exact ⟨id, cache, (Entries.mem_iff_of_perm (.refl _)).mpr hcache, key, value,
      (Entries.mem_iff_of_perm (.refl _)).mpr hdoc, rfl, rfl, rfl⟩

theorem nodup_documents (registry : Registry) : registry.documents.Nodup := by
  have hids : (registry.toList.map Prod.fst).Nodup := Entries.nodup_keys_of_perm (.refl _)
  rw [List.nodup_iff_pairwise_ne, List.pairwise_map] at hids
  rw [documents, List.nodup_flatMap]
  constructor
  · rintro ⟨id, cache⟩ -
    have hkeys : (cache.data.toList.map Prod.fst).Nodup := Entries.nodup_keys_of_perm (.refl _)
    rw [List.nodup_iff_pairwise_ne, List.pairwise_map] at hkeys ⊢
    exact hkeys.imp fun hne heq => hne (CachedDocument.mk.inj heq).2.1
  · refine hids.imp ?_
    intro a b hne d ha hb
    obtain ⟨_, -, rfl⟩ := List.mem_map.mp ha
    obtain ⟨_, -, heq⟩ := List.mem_map.mp hb
    exact hne (CachedDocument.mk.inj heq).1.symm

theorem flatMap_perm {typeFilter : Option String} {shown : List (String × List (String × Value))}
    {caches : List (String × CacheState Value)} (h : List.Forall₂ ShowsCache shown caches) :
    (shown.flatMap fun cache => listEntries cache.1 typeFilter cache.2).Perm
      (caches.flatMap fun c => ((c.2.data.toList.map fun e => ⟨c.1, e.1, e.2⟩).map
        CachedDocument.entry).filter (·.Matches typeFilter)) := by
  induction h with
  | nil => exact .nil
  | @cons cache c shown caches hshows _ ih =>
    obtain ⟨id, snapshot⟩ := cache
    obtain ⟨rfl, hperm⟩ := hshows
    rw [List.flatMap_cons, List.flatMap_cons, List.map_map]
    exact List.Perm.append ((sortOn_perm _ _).trans ((hperm.map _).filter _)) ih

/-- The rows of a listing are the selected documents, in some order. -/
theorem rows_perm (h : registry.Shows view) (filter : Option ConfigDataFilter)
    (clusters : List String) : ((listAll (filter.map watchTypeFilter) view.caches).filter
      fun entry => InScope clusters entry.controllerId).Perm
      ((registry.selected filter clusters).map CachedDocument.entry) := by
  obtain ⟨caches, hperm, hshows⟩ := h.caches
  have hall : (listAll (filter.map watchTypeFilter) view.caches).Perm
      ((registry.documents.map CachedDocument.entry).filter
        (·.Matches (filter.map watchTypeFilter))) := by
    refine (sortOn_perm _ _).trans ((flatMap_perm hshows).trans ?_)
    rw [documents, List.map_flatMap, List.filter_flatMap]
    exact hperm.flatMap fun _ _ => .refl _
  refine (hall.filter _).trans (.of_eq ?_)
  rw [selected, List.filter_map, List.filter_map, List.filter_filter]
  refine congrArg _ (List.filter_congr fun d _ => ?_)
  rw [Bool.eq_iff_iff]
  simp only [Function.comp, Bool.and_eq_true, decide_eq_true_eq]
  exact and_comm

theorem scopedStatuses_eq (h : registry.Shows view) (h' : registry.Shows view') :
    scopedStatuses clusters view.statuses = scopedStatuses clusters view'.statuses := by
  have hperm : view.statuses.Perm view'.statuses := h.statuses.trans h'.statuses.symm
  refine sortOn_eq_of_perm (hperm.filter _) ?_
  have hids : (view.statuses.map Prod.fst).Nodup := by
    rw [(h.statuses.map Prod.fst).nodup_iff, List.map_map]
    exact Entries.nodup_keys_of_perm (.refl _)
  exact hids.sublist (List.filter_sublist.map _)

/-- The caches in the order of their keys. -/
def listing (registry : Registry) : WatchView where
  statuses := registry.toList.map fun c => (c.1, c.2.status)
  caches := registry.toList.map fun c => (c.1, c.2.data.toList)

theorem shows_listing (registry : Registry) : registry.Shows registry.listing := by
  refine ⟨.refl _, registry.toList, .refl _, ?_⟩
  rw [listing, List.forall₂_map_left_iff, List.forall₂_same]
  exact fun _ _ => ⟨rfl, .refl _⟩

/-- No controller in scope caches two selected documents under keys that are read as the same
namespace and name: a name without a namespace, and the same one behind a slash. -/
def Distinct (registry : Registry) (filter : Option ConfigDataFilter) (clusters : List String) :
    Prop :=
  ∀ d ∈ registry.selected filter clusters, ∀ e ∈ registry.selected filter clusters,
    d.controllerId = e.controllerId → splitKey d.key = splitKey e.key → d.key = e.key

/-- What a row is told apart by. -/
def rowKey (entry : ConfigDataEntry) : GroupKey × String := (groupKey entry, entry.controllerId)

theorem rowKey_eq_iff {d e : CachedDocument} : rowKey d.entry = rowKey e.entry ↔
    d.controllerId = e.controllerId ∧ splitKey d.key = splitKey e.key := by
  simp [rowKey, groupKey, CachedDocument.entry, buildEntry, Prod.ext_iff, and_comm]

theorem nodup_rows_iff (h : registry.Shows view) :
    (((listAll (filter.map watchTypeFilter) view.caches).filter
      fun entry => InScope clusters entry.controllerId).map rowKey).Nodup ↔
      registry.Distinct filter clusters := by
  have hnodup : (registry.selected filter clusters).Nodup :=
    (nodup_documents registry).filter _
  rw [((rows_perm h filter clusters).map rowKey).nodup_iff, List.map_map,
    List.nodup_map_iff_inj_on hnodup]
  refine forall₂_congr fun d hd => forall₂_congr fun e he => ?_
  change (rowKey d.entry = rowKey e.entry → d = e) ↔ _
  rw [rowKey_eq_iff]
  constructor
  · rintro hinj hid hkey
    rw [hinj ⟨hid, hkey⟩]
  · rintro hdistinct ⟨hid, hkey⟩
    have hsame := hdistinct hid hkey
    obtain ⟨cache, hcache, hdoc⟩ := mem_documents.mp (List.mem_filter.mp hd).1
    obtain ⟨cache', hcache', hdoc'⟩ := mem_documents.mp (List.mem_filter.mp he).1
    rw [hid] at hcache
    obtain rfl : cache = cache' := Option.some.inj (hcache.symm.trans hcache')
    rw [hsame] at hdoc
    obtain ⟨id, key, value⟩ := d
    obtain ⟨id', key', value'⟩ := e
    obtain rfl : value = value' := Option.some.inj (hdoc.symm.trans hdoc')
    cases hid
    cases hsame
    rfl

/-! ### What the groups are -/

/-- What a member is ordered by. -/
def memberKey (member : ComparisonMember) : String ×ₗ String :=
  toLex (member.cluster, member.controllerId)

/-- The groups of a listing are all of the registry: each resource once in key order, with one
member for each controller that caches it, in the order of clusters and controllers. -/
structure Exact (registry : Registry) (filter : Option ConfigDataFilter) (clusters : List String)
    (groups : List ComparisonGroup) : Prop where
  keys : (groups.map (·.key)).Pairwise (· < ·)
  complete : ∀ key, key ∈ groups.map (·.key) ↔
    ∃ d ∈ registry.selected filter clusters, groupKey d.entry = key
  ordered : ∀ group ∈ groups, group.members.Pairwise fun a b => memberKey a < memberKey b
  members : ∀ group ∈ groups, ∀ id object,
    (∃ member ∈ group.members, member.controllerId = id ∧ member.object = object) ↔
      ∃ d ∈ registry.selected filter clusters,
        groupKey d.entry = group.key ∧ d.controllerId = id ∧ d.entry.doc = object
  cluster : ∀ group ∈ groups, ∀ member ∈ group.members,
    member.cluster = watchClusterOf member.controllerId

variable {statuses : List (String × CacheStatus)} {rows rows' : List ConfigDataEntry}

theorem groups_keys : (((groupOn groupKey rows).map (comparisonGroup statuses)).map (·.key)) =
    (groupOn groupKey rows).map Prod.fst := by
  rw [List.map_map]
  rfl

variable {group : ComparisonGroup} {entry : ConfigDataEntry} {cluster name ns : String}

theorem mem_groups (h : group ∈ (groupOn groupKey rows).map (comparisonGroup statuses)) :
    (∃ row ∈ rows, groupKey row = group.key) ∧
      group.members = sortOn memberKey
        ((rows.filter fun row => groupKey row = group.key).map (comparisonMember statuses)) := by
  obtain ⟨⟨key, entries⟩, hgroup, rfl⟩ := List.mem_map.mp h
  obtain ⟨hex, hentries⟩ := mem_groupOn.mp hgroup
  refine ⟨hex, ?_⟩
  change sortOn memberKey (entries.map _) = _
  rw [show entries = _ from hentries]
  rfl

theorem nodup_memberKeys_iff {key : GroupKey} :
    (((rows.filter fun row => groupKey row = key).map (comparisonMember statuses)).map
      memberKey).Nodup ↔
      ((rows.filter fun row => groupKey row = key).map (·.controllerId)).Nodup := by
  have hinj : Function.Injective fun id => toLex (watchClusterOf id, id) := by
    intro a b h
    exact (Prod.mk.inj (toLex.injective h)).2
  rw [List.map_map, ← List.nodup_map_iff hinj, List.map_map]
  rfl

/-- One member for each controller means that no row is there twice. -/
theorem ordered_iff (statuses : List (String × CacheStatus)) :
    (∀ group ∈ (groupOn groupKey rows).map (comparisonGroup statuses),
    group.members.Pairwise fun a b => memberKey a < memberKey b) ↔ (rows.map rowKey).Nodup := by
  unfold rowKey
  rw [nodup_pairs_iff]
  constructor
  · intro h key
    by_cases hkey : ∃ row ∈ rows, groupKey row = key
    · rw [← nodup_memberKeys_iff]
      have hgroup : (key, rows.filter fun row => groupKey row = key) ∈ groupOn groupKey rows :=
        mem_groupOn.mpr ⟨hkey, rfl⟩
      have hmembers : (sortOn memberKey ((rows.filter fun row => groupKey row = key).map
          (comparisonMember statuses))).Pairwise fun a b => memberKey a < memberKey b :=
        h _ (List.mem_map_of_mem hgroup)
      rw [← ((sortOn_perm memberKey _).map memberKey).nodup_iff, List.nodup_iff_pairwise_ne,
        List.pairwise_map]
      exact hmembers.imp ne_of_lt
    · have hnone : (rows.filter fun row => groupKey row = key) = [] := by
        rw [List.filter_eq_nil_iff]
        intro row hrow
        simpa using fun heq => hkey ⟨row, hrow, heq⟩
      rw [hnone]
      exact List.nodup_nil
  · intro h group hgroup
    rw [(mem_groups hgroup).2]
    exact strict_sortOn (nodup_memberKeys_iff.mpr (h group.key))

theorem ordered_of_nodup (hgroup : group ∈ (groupOn groupKey rows).map (comparisonGroup statuses))
    (h : (group.members.map (·.controllerId)).Nodup) :
    group.members.Pairwise fun a b => memberKey a < memberKey b := by
  rw [(mem_groups hgroup).2] at h ⊢
  rw [((sortOn_perm memberKey _).map _).nodup_iff, List.map_map] at h
  exact strict_sortOn (nodup_memberKeys_iff.mpr h)

theorem exact_iff (h : registry.Shows view) :
    registry.Exact filter clusters (view.inventory filter clusters).groups ↔
      registry.Distinct filter clusters := by
  rw [← nodup_rows_iff h, ← ordered_iff (scopedStatuses clusters view.statuses)]
  refine ⟨fun hexact => hexact.ordered, fun hordered => ⟨?_, ?_, hordered, ?_, ?_⟩⟩
  · exact groups_keys ▸ strict_groupOn groupKey _
  · intro key
    change key ∈ ((groupOn groupKey _).map (comparisonGroup _)).map (·.key) ↔ _
    rw [groups_keys, keys_groupOn, mem_sortOn, List.mem_dedup, List.mem_map]
    simp only [(rows_perm h filter clusters).mem_iff, List.mem_map]
    constructor
    · rintro ⟨_, ⟨d, hd, rfl⟩, hkey⟩
      exact ⟨d, hd, hkey⟩
    · rintro ⟨d, hd, hkey⟩
      exact ⟨_, ⟨d, hd, rfl⟩, hkey⟩
  · intro group hgroup id object
    rw [(mem_groups hgroup).2]
    simp only [mem_sortOn, List.mem_map, List.mem_filter, (rows_perm h filter clusters).mem_iff,
      decide_eq_true_eq]
    constructor
    · rintro ⟨_, ⟨_, ⟨⟨d, hd, rfl⟩, hkey⟩, rfl⟩, rfl, rfl⟩
      exact ⟨d, hd, hkey, rfl, rfl⟩
    · rintro ⟨d, hd, hkey, rfl, rfl⟩
      exact ⟨_, ⟨_, ⟨⟨d, hd, rfl⟩, hkey⟩, rfl⟩, rfl, rfl⟩
  · intro group hgroup member hmember
    rw [(mem_groups hgroup).2, mem_sortOn] at hmember
    obtain ⟨row, -, rfl⟩ := List.mem_map.mp hmember
    rfl

/-- A row is a member of its group. -/
theorem member_of_mem {entries : List ConfigDataEntry} (hmem : entry ∈ entries)
    (hscope : InScope clusters entry.controllerId) :
    ∃ group ∈ allGroups clusters statuses entries, group.key = groupKey entry ∧
      ∃ m ∈ group.members, m.controllerId = entry.controllerId ∧ m.object = entry.doc := by
  set rows := entries.filter fun entry => InScope clusters entry.controllerId with hrows
  have hrow : entry ∈ rows := by
    simpa [hrows] using ⟨hmem, hscope⟩
  have hgroup : (groupKey entry, rows.filter fun row => groupKey row = groupKey entry) ∈
      groupOn groupKey rows := mem_groupOn.mpr ⟨⟨entry, hrow, rfl⟩, rfl⟩
  refine ⟨_, List.mem_map_of_mem hgroup, rfl, comparisonMember statuses entry,
    mem_sortOn.mpr (List.mem_map_of_mem (List.mem_filter.mpr ⟨hrow, by simp⟩)), rfl, rfl⟩

theorem detailEntry_of_ok (h : detailEntry view ns name cluster = .ok entry) :
    entry ∈ listAll none view.caches ∧ entry.ns = ns ∧ entry.name = name ∧
      watchClusterOf entry.controllerId = cluster := by
  unfold detailEntry at h
  split at h
  · rename_i entry' hfind
    cases h
    exact ⟨List.mem_of_find?_eq_some hfind, by simpa using List.find?_some hfind⟩
  · cases h

theorem exists_detailEntry {row : ConfigDataEntry} (hrow : row ∈ listAll none view.caches)
    (hns : row.ns = ns) (hname : row.name = name)
    (hcluster : watchClusterOf row.controllerId = cluster) :
    ∃ entry, detailEntry view ns name cluster = .ok entry := by
  unfold detailEntry
  split
  · exact ⟨_, rfl⟩
  · rename_i hnone
    exact absurd (by simp [hns, hname, hcluster]) (List.find?_eq_none.mp hnone row hrow)

/-- The detail of a resource is served exactly if its cluster is known and the listing of the cluster
has the resource, and it is that of a member listed. -/
theorem detail_agrees_with_listing (view : WatchView) (ns name cluster : String) :
    ((∃ d, detailConfigDataFromWatch view ns name cluster = .ok d) ↔
      KnownClusters [cluster] view.statuses ∧ ∃ group ∈ (view.inventory none [cluster]).groups,
        group.key = ⟨"EdgionConfigData", ns, name⟩) ∧
    ∀ d, detailConfigDataFromWatch view ns name cluster = .ok d →
      ∃ group ∈ (view.inventory none [cluster]).groups,
        group.key = ⟨"EdgionConfigData", ns, name⟩ ∧
          ∃ m ∈ group.members, m.controllerId = d.controllerId ∧ m.object = d.object := by
  have hserved : ∀ d, detailConfigDataFromWatch view ns name cluster = .ok d →
      KnownClusters [cluster] view.statuses ∧ ∃ group ∈ (view.inventory none [cluster]).groups,
        group.key = ⟨"EdgionConfigData", ns, name⟩ ∧
          ∃ m ∈ group.members, m.controllerId = d.controllerId ∧ m.object = d.object := by
    intro d hd
    simp only [detailConfigDataFromWatch, bind_eq_ok, exists_unit, require_eq_ok, pure_eq_ok] at hd
    obtain ⟨hknown, entry, hentry, rfl⟩ := hd
    obtain ⟨hmem, rfl, rfl, hcluster⟩ := detailEntry_of_ok hentry
    have hscope : InScope [cluster] entry.controllerId := by
      simp [InScope, hcluster]
    exact ⟨by simpa [KnownClusters] using hknown, member_of_mem hmem hscope⟩
  refine ⟨⟨?_, ?_⟩, fun d hd => (hserved d hd).2⟩
  · rintro ⟨d, hd⟩
    obtain ⟨hknown, group, hgroup, hkey, -⟩ := hserved d hd
    exact ⟨hknown, group, hgroup, hkey⟩
  · rintro ⟨hknown, group, hgroup, hkey⟩
    obtain ⟨⟨row, hrow, heq⟩, -⟩ := mem_groups hgroup
    obtain ⟨hmem, hscope⟩ := List.mem_filter.mp hrow
    rw [hkey] at heq
    cases heq
    obtain ⟨entry, hentry⟩ := exists_detailEntry hmem rfl rfl (by simpa [InScope] using hscope)
    simp only [detailConfigDataFromWatch, bind_eq_ok, exists_unit, require_eq_ok, pure_eq_ok]
    exact ⟨_, by simpa [KnownClusters] using hknown, entry, hentry, rfl⟩

/-- Whatever the order of iteration, the inventory is the same. -/
theorem inventory_eq (h : registry.Shows view) (h' : registry.Shows view')
    (hdistinct : registry.Distinct filter clusters) :
    view.inventory filter clusters = view'.inventory filter clusters := by
  have hrows := (rows_perm h filter clusters).trans (rows_perm h' filter clusters).symm
  have hnodup := (nodup_rows_iff h).mpr hdistinct
  unfold rowKey at hnodup
  rw [nodup_pairs_iff] at hnodup
  unfold WatchView.inventory allGroups
  rw [scopedStatuses_eq h h', groupOn_congr hrows]
  intro key
  exact congrArg (ComparisonGroup.mk key)
    (sortOn_eq_of_perm ((hrows.filter _).map _) (nodup_memberKeys_iff.mpr (hnodup key)))

/-- Every cluster that is asked for has a controller. -/
def Knows (registry : Registry) (clusters : List String) : Prop :=
  ∀ requested ∈ clusters, ∃ id ∈ registry, watchClusterOf id = requested

theorem knownClusters_iff (h : registry.Shows view) :
    KnownClusters clusters view.statuses ↔ registry.Knows clusters := by
  refine forall₂_congr fun requested _ => ?_
  rw [(h.statuses.map _).mem_iff, List.map_map, List.mem_map]
  constructor
  · rintro ⟨⟨id, cache⟩, hcache, rfl⟩
    refine ⟨id, ?_, rfl⟩
    rw [← Entries.mem_keys_of_perm (.refl _)]
    exact List.mem_map_of_mem hcache
  · rintro ⟨id, hid, rfl⟩
    rw [← Entries.mem_keys_of_perm (.refl _)] at hid
    obtain ⟨c, hc, rfl⟩ := List.mem_map.mp hid
    exact ⟨c, hc, rfl⟩

end Registry

end Registry

/-! ### Following the tokens -/

section Pages

theorem sha256Revision_inj {α : Type} [Sha256 α] {a b : α} :
    sha256Revision a = sha256Revision b ↔ Sha256.hex a = Sha256.hex b := by
  constructor
  · intro h
    have hlist := congrArg String.toList h
    rw [sha256Revision, sha256Revision, String.toList_append, String.toList_append] at hlist
    exact String.toList_inj.mp (List.append_cancel_left hlist)
  · intro h
    rw [sha256Revision, sha256Revision, h]

theorem strict_groups (view : WatchView) (filter : Option ConfigDataFilter) (clusters : List String) :
    (view.inventory filter clusters).groups.Pairwise fun a b => a.key < b.key := by
  have hkeys : ((view.inventory filter clusters).groups.map (·.key)).Pairwise (· < ·) :=
    Registry.groups_keys ▸ strict_groupOn groupKey _
  rwa [List.pairwise_map] at hkeys

variable [Deserialize ContinueToken] [Sha256 Catalog] [Sha256 (List String)]
  [Sha256 (List MembershipRow)] [Sha256 InventorySnapshot] {view view' : WatchView}
  {filter filter' : Option ConfigDataFilter} {clusters clusters' : List String}
  {limit limit' : Nat} {token : Option String} {page : ListResponse}

theorem listConfigDataFromWatch_eq_ok :
    listConfigDataFromWatch view filter clusters limit token = .ok page ↔
      ∃ read, decodeContinue token = .ok read ∧ (∀ t ∈ read, t.Asks filter clusters limit) ∧
        KnownClusters clusters view.statuses ∧ (∀ t ∈ read, t.Shows view filter clusters) ∧
        listPage view filter clusters limit
          (pageStart (view.inventory filter clusters).groups read) = page := by
  simp only [listConfigDataFromWatch, bind_eq_ok, require_eq_ok, exists_unit, pure_eq_ok]

/-- The token that a view gives out for the groups from an offset on. -/
inductive LeadsTo (view : WatchView) (filter : Option ConfigDataFilter) (clusters : List String)
    (limit : Nat) : Option String → Nat → Prop
  | first : LeadsTo view filter clusters limit none 0
  | after {front back : List ComparisonGroup} {group : ComparisonGroup}
      (h : (view.inventory filter clusters).groups = front ++ group :: back) :
      LeadsTo view filter clusters limit
        (some (encodeToken (issueToken view filter clusters limit group.key))) (front.length + 1)

variable {next : String} {offset start : Nat}

omit [Deserialize ContinueToken] in
theorem LeadsTo.issued (h : LeadsTo view filter clusters limit (some next) offset) :
    ∃ group ∈ (view.inventory filter clusters).groups,
      next = encodeToken (issueToken view filter clusters limit group.key) := by
  cases h with
  | after hgroups => exact ⟨_, by simp [hgroups], rfl⟩

omit [Deserialize ContinueToken] in
theorem length_le_of_nextPage (h : nextPage view filter clusters limit start = none) :
    (view.inventory filter clusters).groups.length ≤ start + limit := by
  by_contra hlt
  rw [nextPage, if_pos (by omega), Option.map_eq_none_iff, List.getElem?_eq_none_iff] at h
  omega

omit [Deserialize ContinueToken] in
/-- The token of a page that does not reach the end leads to the next one. -/
theorem leadsTo_nextPage (hlimit : 0 < limit)
    (h : nextPage view filter clusters limit start = some next) :
    start + limit < (view.inventory filter clusters).groups.length ∧
      LeadsTo view filter clusters limit (some next) (start + limit) := by
  unfold nextPage at h
  split_ifs at h with hlt
  generalize hgroups : (view.inventory filter clusters).groups = groups at hlt h
  have hlast : start + limit - 1 < groups.length := by omega
  have hsplit := List.take_append_drop (start + limit - 1) groups
  rw [List.drop_eq_getElem_cons hlast] at hsplit
  have hlead : LeadsTo view filter clusters limit _ _ := .after (hgroups.trans hsplit.symm)
  rw [List.length_take, Nat.min_eq_left hlast.le, Nat.sub_add_cancel (by omega)] at hlead
  rw [List.getElem?_eq_getElem hlast] at h
  cases h
  exact ⟨hlt, hlead⟩

theorem accepted_token {after : GroupKey}
    (h : listConfigDataFromWatch view' filter' clusters' limit'
      (some (encodeToken (issueToken view filter clusters limit after))) = .ok page) :
    Sha256.hex clusters = Sha256.hex clusters' ∧ limit = limit' ∧ filter = filter' ∧
      Sha256.hex (view.inventory filter clusters) =
        Sha256.hex (view'.inventory filter' clusters') ∧
      page = listPage view' filter' clusters' limit' (partitionPoint
        (fun group : ComparisonGroup => group.key ≤ after)
        (view'.inventory filter' clusters').groups) := by
  obtain ⟨read, hread, hasks, -, hshows, rfl⟩ := listConfigDataFromWatch_eq_ok.mp h
  have hsome := decodeContinue_eq_ok hread
  cases read with
  | none => cases hsome
  | some t =>
    obtain rfl := encodeToken_injective (Option.some.inj hsome)
    obtain ⟨-, -, -, hquery, hlimit, hfilter⟩ := hasks _ rfl
    exact ⟨sha256Revision_inj.mp hquery, hlimit, hfilter, sha256Revision_inj.mp (hshows _ rfl).2,
      rfl⟩

/-- What is served for a token is the page that the issuing view would have served. -/
theorem served_page (h : listConfigDataFromWatch view' filter clusters limit token = .ok page)
    (hlead : LeadsTo view filter clusters limit token offset)
    (hdigest : Sha256.hex (view.inventory filter clusters) =
      Sha256.hex (view'.inventory filter clusters) →
        view.inventory filter clusters = view'.inventory filter clusters)
    (hfirst : token = none → view = view') :
    view.inventory filter clusters = view'.inventory filter clusters ∧
      page = listPage view' filter clusters limit offset := by
  cases hlead with
  | first =>
    obtain ⟨read, hread, -, -, -, rfl⟩ := listConfigDataFromWatch_eq_ok.mp h
    cases hread
    rw [hfirst rfl]
    exact ⟨rfl, rfl⟩
  | after hgroups =>
    obtain ⟨-, -, -, hhex, hpage⟩ := accepted_token h
    have hsame := hdigest hhex
    have hstrict := strict_groups view filter clusters
    rw [hgroups] at hstrict
    refine ⟨hsame, ?_⟩
    rw [hpage, ← hsame, hgroups, partitionPoint_le hstrict]

/-- The groups of a page and the token for the next one. -/
def ListResponse.parts (page : ListResponse) : List ComparisonGroup × Option String :=
  (page.groups, page.continueToken)

section Views

variable {views : Nat → WatchView}

/-- The requests for one selection, each with its own view. -/
def requests (views : Nat → WatchView) (filter : Option ConfigDataFilter) (clusters : List String)
    (limit i : Nat) (token : Option String) :
    Except GlobalError (List ComparisonGroup × Option String) :=
  ListResponse.parts <$> listConfigDataFromWatch (views i) filter clusters limit token

variable {offset : Nat}

/-- Whatever is served to the end is the inventory of the view that gave out the first token. -/
theorem traversal_flatten (hlimit : 0 < limit)
    (hdigest : ∀ i j, Sha256.hex ((views i).inventory filter clusters) =
      Sha256.hex ((views j).inventory filter clusters) →
        (views i).inventory filter clusters = (views j).inventory filter clusters) {i j : Nat}
    {pages : List (List ComparisonGroup)}
    (h : Traversal (requests views filter clusters limit) i token pages)
    (hlead : LeadsTo (views j) filter clusters limit token offset)
    (hfirst : token = none → views j = views i) :
    pages.flatten = ((views j).inventory filter clusters).groups.drop offset := by
  induction h generalizing j offset with
  | @last i token items hlist =>
    obtain ⟨page, hpage, hparts⟩ := map_eq_ok.mp hlist
    obtain ⟨hsame, rfl⟩ := served_page hpage hlead (hdigest j i) hfirst
    obtain ⟨rfl, hnext⟩ := Prod.mk.inj hparts
    have hend := length_le_of_nextPage hnext
    rw [hsame, List.flatten_singleton]
    apply List.take_of_length_le
    rw [List.length_drop]
    omega
  | @more i token items next pages hlist _ ih =>
    obtain ⟨page, hpage, hparts⟩ := map_eq_ok.mp hlist
    obtain ⟨hsame, rfl⟩ := served_page hpage hlead (hdigest j i) hfirst
    obtain ⟨rfl, hnext⟩ := Prod.mk.inj hparts
    rw [List.flatten_cons, ih (leadsTo_nextPage hlimit hnext).2 (fun h => by cases h), hsame,
      ← List.drop_drop]
    exact List.take_append_drop limit _

omit [Deserialize ContinueToken] in
/-- Views of the same inventory give out the same tokens. -/
theorem LeadsTo.congr
    (hinventory : view.inventory filter clusters = view'.inventory filter clusters)
    (hmembership : view.membershipRevision clusters = view'.membershipRevision clusters)
    (h : LeadsTo view filter clusters limit token offset) :
    LeadsTo view' filter clusters limit token offset := by
  cases h with
  | first => exact .first
  | @after front back group hgroups =>
    have htoken : issueToken view filter clusters limit group.key =
        issueToken view' filter clusters limit group.key := by
      unfold issueToken WatchView.inventoryRevision
      rw [hinventory, hmembership]
    rw [htoken]
    exact .after (hinventory ▸ hgroups)

/-- A token of the same inventory is taken for its page. -/
theorem serves_token (h : LeadsTo view filter clusters limit token offset)
    (hknown : KnownClusters clusters view.statuses)
    (hsize : ∀ t ∈ token, utf8Len t.toList ≤ maxTokenBytes) :
    listConfigDataFromWatch view filter clusters limit token =
      .ok (listPage view filter clusters limit offset) := by
  rw [listConfigDataFromWatch_eq_ok]
  cases h with
  | first => exact ⟨none, rfl, fun _ h => (by cases h), hknown, fun _ h => (by cases h), rfl⟩
  | @after front back group hgroups =>
    have hstrict := strict_groups view filter clusters
    rw [hgroups] at hstrict
    refine ⟨_, decodeContinue_some (hsize _ rfl), ?_, hknown, ?_, ?_⟩
    · rintro _ ⟨⟩
      exact ⟨rfl, rfl, rfl, rfl, rfl, rfl⟩
    · rintro _ ⟨⟩
      exact ⟨rfl, rfl⟩
    · rw [hgroups]
      exact congrArg _ (partitionPoint_le hstrict)

/-- A token that will be taken for what is left from an offset on. -/
def Pending (views : Nat → WatchView) (filter : Option ConfigDataFilter) (clusters : List String)
    (limit i : Nat) (token : Option String) (offset : Nat) : Prop :=
  LeadsTo (views i) filter clusters limit token offset ∧
    ∀ t ∈ token, utf8Len t.toList ≤ maxTokenBytes

/-- While nothing changes, following the tokens gives the inventory. -/
theorem exhausts_of_stable (hlimit : 0 < limit)
    (hknown : ∀ i, KnownClusters clusters (views i).statuses)
    (hinventory : ∀ i j, (views i).inventory filter clusters = (views j).inventory filter clusters)
    (hmembership : ∀ i j,
      (views i).membershipRevision clusters = (views j).membershipRevision clusters)
    (hsize : ∀ i start next, nextPage (views i) filter clusters limit start = some next →
      utf8Len next.toList ≤ maxTokenBytes) : Exhausts (requests views filter clusters limit)
      ((views 0).inventory filter clusters).groups := by
  have hfirst : Pending views filter clusters limit 0 none 0 := ⟨.first, fun _ h => by cases h⟩
  refine Exhausts.of_serve hlimit ?_ hfirst
  rintro i token offset ⟨hlead, htoken⟩
  refine ⟨nextPage (views i) filter clusters limit offset, ?_, ?_, ?_⟩
  · rw [requests, serves_token hlead (hknown i) htoken, hinventory 0 i]
    rfl
  · intro hnone
    rw [hinventory 0 i]
    exact length_le_of_nextPage hnone
  · intro t ht
    rw [hinventory 0 i]
    obtain ⟨hlt, hlead'⟩ := leadsTo_nextPage hlimit ht
    refine ⟨hlt, hlead'.congr (hinventory _ _) (hmembership _ _), ?_⟩
    rintro _ ⟨⟩
    exact hsize i offset _ ht

end Views

/-- While the registry does not change, following the tokens gives exactly its groups, if and only
if all the clusters are known and no controller caches two documents of one name; and a token is
only taken for the request and the inventory it was made for. -/
theorem global_paging_exact {registry : Registry} {views : Nat → WatchView}
    (hviews : ∀ i, registry.Shows (views i)) (hlimit : 1 ≤ limit)
    (hdigest : ∀ i j, Sha256.hex ((views i).inventory filter clusters) =
      Sha256.hex ((views j).inventory filter clusters) →
        (views i).inventory filter clusters = (views j).inventory filter clusters)
    (hsize : ∀ i start next, nextPage (views i) filter clusters limit start = some next →
      utf8Len next.toList ≤ maxTokenBytes) :
    ((∃ groups, Exhausts (requests views filter clusters limit) groups ∧
        registry.Exact filter clusters groups) ↔
      registry.Knows clusters ∧ registry.Distinct filter clusters) ∧
    ∀ (view view' : WatchView) (filter' : Option ConfigDataFilter) (clusters' : List String)
      (limit' : Nat) (token : Option String) (page page' : ListResponse) (next : String),
      listConfigDataFromWatch view filter clusters limit token = .ok page →
      page.continueToken = some next →
      listConfigDataFromWatch view' filter' clusters' limit' (some next) = .ok page' →
      (Sha256.hex clusters = Sha256.hex clusters' → clusters = clusters') →
      (Sha256.hex (view.inventory filter clusters) =
        Sha256.hex (view'.inventory filter' clusters') →
          view.inventory filter clusters = view'.inventory filter' clusters') →
      clusters = clusters' ∧ filter = filter' ∧ limit = limit' ∧
        view.inventory filter clusters = view'.inventory filter' clusters' := by
  constructor
  · constructor
    · rintro ⟨groups, hexhausts, hexact⟩
      obtain ⟨pages, htraversal⟩ := hexhausts.ends
      have hflatten := traversal_flatten hlimit hdigest htraversal .first fun _ => rfl
      rw [hexhausts.once pages htraversal, List.drop_zero] at hflatten
      rw [hflatten] at hexact
      refine ⟨?_, (Registry.exact_iff (hviews 0)).mp hexact⟩
      obtain ⟨first, hfirst⟩ := hexhausts.first
      obtain ⟨page, hpage, -⟩ := map_eq_ok.mp hfirst
      obtain ⟨_, -, -, hknown, -⟩ := listConfigDataFromWatch_eq_ok.mp hpage
      exact (Registry.knownClusters_iff (hviews 0)).mp hknown
    · rintro ⟨hknows, hdistinct⟩
      refine ⟨_, exhausts_of_stable hlimit
        (fun i => (Registry.knownClusters_iff (hviews i)).mpr hknows)
        (fun i j => Registry.inventory_eq (hviews i) (hviews j) hdistinct) ?_ hsize,
        (Registry.exact_iff (hviews 0)).mpr hdistinct⟩
      intro i j
      rw [WatchView.membershipRevision, Registry.scopedStatuses_eq (hviews i) (hviews j)]
      rfl
  · intro view view' filter' clusters' limit' token page page' next hpage hnext haccepted hclusters
      hinventory
    obtain ⟨read, -, -, -, -, rfl⟩ := listConfigDataFromWatch_eq_ok.mp hpage
    obtain ⟨group, -, rfl⟩ := (leadsTo_nextPage hlimit hnext).2.issued
    obtain ⟨hquery, hsame, htype, hhex, -⟩ := accepted_token haccepted
    exact ⟨hclusters hquery, htype, hsame, hinventory hhex⟩

end Pages

section Samples

attribute [local instance] zeroDigest

noncomputable instance readContinueToken : Deserialize ContinueToken :=
  readBack fun _ _ h => ContinueToken.json_injective (utf8_injective h)

/-- A document without a namespace, or with this one. -/
def namedDocument (ns : Option String) (name : String) : Value :=
  .object [("metadata", .object (("name", .string name) ::
    (ns.map fun ns => ("namespace", .string ns)).toList))]

def cacheOf (documents : List (String × Value)) : CacheState Value :=
  (CacheState.new.replaceAll "a/1" documents 1 "server" 0).state

/-- Two documents that differ in an empty namespace. -/
def twiceNamed : Registry := (∅ : Registry).insert "a/1"
  (cacheOf [("x", namedDocument none "x"), ("/x", namedDocument (some "") "x")])

/-- A group with two members of one controller. -/
theorem conflated_members : ∃ page group,
    resourceKey (namedDocument none "x") = some "x" ∧
      resourceKey (namedDocument (some "") "x") = some "/x" ∧ twiceNamed.Shows twiceNamed.listing ∧
      listConfigDataFromWatch twiceNamed.listing none [] 50 none = .ok page ∧ group ∈ page.groups ∧
      ¬ (group.members.map (·.controllerId)).Nodup := by
  have hshows := twiceNamed.shows_listing
  let statuses := scopedStatuses [] twiceNamed.listing.statuses
  let rows := (listAll none twiceNamed.listing.caches).filter fun entry =>
    InScope [] entry.controllerId
  have hselected : twiceNamed.selected none [] = [⟨"a/1", "/x", namedDocument (some "") "x"⟩,
      ⟨"a/1", "x", namedDocument none "x"⟩] := rfl
  have hordered : ¬ ∀ group ∈ (groupOn groupKey rows).map (comparisonGroup statuses),
      group.members.Pairwise fun a b => Registry.memberKey a < Registry.memberKey b := by
    intro hall
    have hdistinct : twiceNamed.Distinct none [] :=
      (Registry.nodup_rows_iff hshows).mp ((Registry.ordered_iff statuses).mp hall)
    unfold Registry.Distinct at hdistinct
    rw [hselected] at hdistinct
    have hkeys := hdistinct _ List.mem_cons_self _ (List.mem_cons_of_mem _ List.mem_cons_self) rfl
      (by decide)
    exact absurd hkeys (by decide)
  simp only [not_forall] at hordered
  obtain ⟨group, hgroup, hstrict⟩ := hordered
  have hlength : ((groupOn groupKey rows).map (comparisonGroup statuses)).length ≤ 50 := by
    have hrows : rows.length = _ := (Registry.rows_perm hshows none []).length_eq
    rw [hselected] at hrows
    have hgroups := length_groupOn_le groupKey rows
    rw [List.length_map]
    rw [hrows] at hgroups
    exact hgroups.trans (by decide)
  refine ⟨listPage twiceNamed.listing none [] 50 0, group, rfl, rfl, hshows,
    serves_token .first (fun _ h => by cases h) (fun _ h => by cases h), ?_,
    fun h => hstrict (Registry.ordered_of_nodup hgroup h)⟩
  change group ∈ ((groupOn groupKey rows).map (comparisonGroup statuses)).take 50
  rwa [List.take_of_length_le hlength]

/-- Two documents, one to a page. -/
def pairNamed : Registry := (∅ : Registry).insert "a/1"
  (cacheOf [("n/x", namedDocument (some "n") "x"), ("n/y", namedDocument (some "n") "y")])

theorem pairNamed_selected : pairNamed.selected none [] =
    [⟨"a/1", "n/x", namedDocument (some "n") "x"⟩, ⟨"a/1", "n/y", namedDocument (some "n") "y"⟩] :=
  rfl

theorem pairNamed_distinct : pairNamed.Distinct none [] := by
  rw [Registry.Distinct, pairNamed_selected]
  simp only [List.forall_mem_cons]
  decide

def pairKey (name : String) : GroupKey := ⟨"EdgionConfigData", "n", name⟩

theorem pairNamed_keys (key : GroupKey) :
    key ∈ (pairNamed.listing.inventory none []).groups.map (·.key) ↔
      key = pairKey "x" ∨ key = pairKey "y" := by
  have hx : groupKey (CachedDocument.entry ⟨"a/1", "n/x", namedDocument (some "n") "x"⟩) =
      pairKey "x" := by decide
  have hy : groupKey (CachedDocument.entry ⟨"a/1", "n/y", namedDocument (some "n") "y"⟩) =
      pairKey "y" := by decide
  have hexact := (Registry.exact_iff pairNamed.shows_listing).mpr pairNamed_distinct
  rw [hexact.complete, pairNamed_selected]
  simp [hx, hy, eq_comm]

theorem pairNamed_length : (pairNamed.listing.inventory none []).groups.length = 2 := by
  have hstrict := strict_groups pairNamed.listing none []
  have hnodup : ((pairNamed.listing.inventory none []).groups.map (·.key)).Nodup := by
    rw [List.nodup_iff_pairwise_ne, List.pairwise_map]
    exact hstrict.imp ne_of_lt
  have hset : ((pairNamed.listing.inventory none []).groups.map (·.key)).toFinset =
      {pairKey "x", pairKey "y"} := by
    ext key
    rw [List.mem_toFinset, pairNamed_keys, Finset.mem_insert, Finset.mem_singleton]
  rw [← List.length_map (·.key), ← List.toFinset_card_of_nodup hnodup, hset]
  decide

theorem pairToken_size {key : GroupKey} (h : key = pairKey "x" ∨ key = pairKey "y") :
    utf8Len (encodeToken (issueToken pairNamed.listing none [] 1 key)).toList ≤ maxTokenBytes := by
  have hlength : (Serialize.toVec (issueToken pairNamed.listing none [] 1 key)).length ≤ 3000 := by
    rcases h with rfl | rfl <;> decide +kernel
  rw [utf8Len_encodeToken]
  unfold maxTokenBytes
  omega

theorem pairNamed_size {start : Nat} {next : String}
    (h : nextPage pairNamed.listing none [] 1 start = some next) :
    utf8Len next.toList ≤ maxTokenBytes := by
  obtain ⟨group, hgroup, rfl⟩ := (leadsTo_nextPage Nat.one_pos h).2.issued
  exact pairToken_size ((pairNamed_keys group.key).mp (List.mem_map_of_mem hgroup))

theorem global_paging_exact_pair :
    (∃ groups, Exhausts (requests (fun _ => pairNamed.listing) none [] 1) groups ∧
      pairNamed.Exact none [] groups) ∧
    ∃ page next page', listConfigDataFromWatch pairNamed.listing none [] 1 none = .ok page ∧
      page.continueToken = some next ∧
      listConfigDataFromWatch pairNamed.listing none [] 1 (some next) = .ok page' ∧
      ¬ ∃ page'', listConfigDataFromWatch pairNamed.listing none [] 2 (some next) = .ok page'' := by
  have hknows : pairNamed.Knows [] := fun _ h => by cases h
  have hknown : KnownClusters [] pairNamed.listing.statuses := fun _ h => by cases h
  obtain ⟨hexact, htoken⟩ := global_paging_exact (fun _ => pairNamed.shows_listing) (le_refl 1)
    (fun _ _ _ => rfl) (fun _ _ _ h => pairNamed_size h)
  refine ⟨hexact.mpr ⟨hknows, pairNamed_distinct⟩, ?_⟩
  have hfirst : listConfigDataFromWatch pairNamed.listing none [] 1 none =
      .ok (listPage pairNamed.listing none [] 1 0) :=
    serves_token .first hknown fun _ h => by cases h
  cases hsome : nextPage pairNamed.listing none [] 1 0 with
  | none =>
    have hend := length_le_of_nextPage hsome
    rw [pairNamed_length] at hend
    exact absurd hend (by decide)
  | some next =>
    have hsize : ∀ t ∈ some next, utf8Len t.toList ≤ maxTokenBytes := by
      rintro _ ⟨⟩
      exact pairNamed_size hsome
    refine ⟨_, next, _, hfirst, hsome,
      serves_token (leadsTo_nextPage Nat.one_pos hsome).2 hknown hsize, ?_⟩
    rintro ⟨page, haccepted⟩
    obtain ⟨-, -, hlimit, -⟩ := htoken _ _ _ _ _ _ _ _ _ hfirst hsome haccepted (fun _ => rfl)
      (fun _ => rfl)
    cases hlimit

end Samples

end EdgionCenter
