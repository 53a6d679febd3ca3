import EdgionCenter.Cloudflare.Record

/-! Grouping Cloudflare's records into observed record sets. -/
namespace EdgionCenter.Cloudflare

open Fallible

variable [Platform]

/-- What the members of a record set must have in common. -/
structure MemberSignature where
  ttl : Nat
  proxied : Option Bool
  proxiable : Option Bool
  flattenCname : Option Bool
  comment : Option String
  tags : Finset String
  deriving DecidableEq

/-- `member_signature`, which never fails. -/
def memberSignature (record : CloudflareRecord) (recordType : ProviderDnsRecordType) :
    MemberSignature where
  ttl := record.ttl
  proxied := if recordType.proxiable then record.proxied else none
  proxiable := if recordType.proxiable then some record.proxiable else none
  flattenCname := if recordType = .cname then record.flattenCname else none
  comment := record.comment
  tags := record.tags

section Extension

def proxyState (record : CloudflareRecord) (recordType : ProviderDnsRecordType) :
    DnsProviderResult (Option CloudflareProxyOptions) :=
  match recordType.proxiable, record.proxied with
  | true, some true => .ok (some .proxied)
  | true, some false => .ok (some .dnsOnly)
  | true, none => .error (validation "missing_cloudflare_proxy_state")
  | false, none | false, some false => .ok none
  | false, some true => .error (validation "invalid_cloudflare_proxy_state")

def cnameFlattening (record : CloudflareRecord) (recordType : ProviderDnsRecordType) :
    CloudflareCnameFlattening :=
  match recordType, record.flattenCname with
  | .cname, some true => .flatten
  | .cname, some false => .doNotFlatten
  | _, _ => .providerDefault

/-- A record of a type that cannot be proxied, without metadata or automatic TTL, is portable. -/
def cloudflareExtension (record : CloudflareRecord) (recordType : ProviderDnsRecordType) :
    DnsProviderResult (Option DnsRecordExtension) := do
  require (recordType ≠ .cname → record.flattenCname = none)
    (validation "invalid_cloudflare_cname_flattening")
  let proxy ← proxyState record recordType
  require (proxy = some .proxied → record.proxiable = true)
    (validation "cloudflare_record_not_proxiable")
  if recordType.proxiable = false ∧ record.ttl ≠ 1 ∧ record.comment = none ∧ record.tags = ∅ ∧
      cnameFlattening record recordType = .providerDefault then
    return none
  else
    return some (.cloudflare proxy (cnameFlattening record recordType) record.comment record.tags)

end Extension

def recordTtl (ttl : Nat) : DnsTtl := if ttl = 1 then .automatic else .seconds ttl

section Aggregate

variable (zone : DnsZoneRef)

/-- The checks on one record, apart from its object id being new. -/
def recordKey (record : CloudflareRecord) : DnsProviderResult DnsRecordSetKey := do
  require (record.ipv4Only = false ∧ record.ipv6Only = false ∧ record.privateRouting = false)
    (validation "unsupported_cloudflare_record_settings")
  let owner ← orElse (validation "invalid_record_name") (DnsOwnerName.new record.name)
  require (owner.isWithin zone.apex = true) (validation "cloudflare_record_outside_zone")
  return ⟨owner, record.value.recordType, .simple⟩

/-- The first loop of `aggregate_records`. -/
def keyRecords : Finset String → List CloudflareRecord →
    DnsProviderResult (List (DnsRecordSetKey × CloudflareRecord))
  | _, [] => .ok []
  | objectIds, record :: records => do
    require (validCloudflareIdentifier record.id = true)
      (validation "invalid_cloudflare_record_object_id")
    require (record.id ∉ objectIds) (validation "duplicate_cloudflare_record_id")
    let key ← recordKey zone record
    let rest ← keyRecords (insert record.id objectIds) records
    return (key, record) :: rest

def objectId (record : CloudflareRecord) : DnsProviderResult DnsRecordObjectId :=
  orElse (validation "invalid_record_object_id") (OpaqueId.new _ _ record.id)

variable [Sha256 (List CloudflareRecord)]

/-- The record set of one group. A group is never empty. -/
def aggregateGroup (key : DnsRecordSetKey) (members : List CloudflareRecord) :
    DnsProviderResult ObservedDnsRecordSet :=
  match members with
  | [] => .error (validation "empty_cloudflare_rrset")
  | first :: others => do
    require (∀ member ∈ others,
        memberSignature member key.recordType = memberSignature first key.recordType)
      (validation "heterogeneous_cloudflare_rrset")
    let values := ((first :: others).map CloudflareRecord.value).toFinset
    require (values.card = (first :: others).length)
      (validation "duplicate_cloudflare_record_value")
    let extension ← cloudflareExtension first key.recordType
    let recordSet : ProviderDnsRecordSet := ⟨key, recordTtl first.ttl, values, extension⟩
    orElse (validation "invalid_cloudflare_rrset") (recordSet.validate zone)
    let ids ← (first :: others).mapM objectId
    let revision ← orElse (validation "invalid_record_revision")
      (OpaqueId.new _ _ (sha256Revision (first :: others)))
    return ⟨zone, recordSet, ids.toFinset, revision⟩

/-- The members of a group, by their ids. -/
def membersOf (keyed : List (DnsRecordSetKey × CloudflareRecord)) (key : DnsRecordSetKey) :
    List CloudflareRecord :=
  ((keyed.filter fun entry => entry.1 = key).map Prod.snd).insertionSort
    fun left right => left.id ≤ right.id

def aggregateRecords (records : List CloudflareRecord) :
    DnsProviderResult (List ObservedDnsRecordSet) := do
  let keyed ← keyRecords zone ∅ records
  (inOrder (keyed.map Prod.fst).toFinset).mapM fun key => aggregateGroup zone key (membersOf keyed key)

end Aggregate

section Spec

variable {zone : DnsZoneRef} {records members : List CloudflareRecord} {record : CloudflareRecord}
  {sets : List ObservedDnsRecordSet}

/-- Each record is kept with its key. -/
theorem keyRecords_eq_ok {objectIds : Finset String}
    {keyed : List (DnsRecordSetKey × CloudflareRecord)} :
    keyRecords zone objectIds records = .ok keyed ↔
      keyed.map Prod.snd = records ∧ (∀ entry ∈ keyed, recordKey zone entry.2 = .ok entry.1) ∧
        (∀ record ∈ records, validCloudflareIdentifier record.id = true ∧ record.id ∉ objectIds) ∧
        (records.map CloudflareRecord.id).Nodup := by
  induction records generalizing objectIds keyed with
  | nil =>
    simp only [keyRecords, Except.ok.injEq, List.map_eq_nil_iff]
    constructor
    · rintro rfl
      simp
    · rintro ⟨rfl, _⟩
      rfl
  | cons record records ih =>
    simp only [keyRecords, bind_eq_ok, exists_unit, require_eq_ok, pure_eq_ok, ih]
    constructor
    · rintro ⟨hid, hnew, key, hkey, rest, ⟨rfl, hkeys, hids, hnodup⟩, rfl⟩
      refine ⟨rfl, List.forall_mem_cons.mpr ⟨hkey, hkeys⟩, ?_, ?_⟩
      · refine List.forall_mem_cons.mpr ⟨⟨hid, hnew⟩, fun r hr => ⟨(hids r hr).1, fun hm => ?_⟩⟩
        exact (hids r hr).2 (Finset.mem_insert_of_mem hm)
      · rw [List.map_cons, List.nodup_cons]
        refine ⟨?_, hnodup⟩
        intro hm
        obtain ⟨r, hr, he⟩ := List.mem_map.mp hm
        exact (hids r hr).2 (he ▸ Finset.mem_insert_self _ _)
    · rintro ⟨hmap, hkeys, hids, hnodup⟩
      cases keyed with
      | nil => simp at hmap
      | cons entry rest =>
        simp only [List.map_cons, List.cons.injEq] at hmap
        obtain ⟨rfl, rfl⟩ := hmap
        rw [List.map_cons, List.nodup_cons] at hnodup
        obtain ⟨hid, hnew⟩ := hids entry.2 (by simp)
        refine ⟨hid, hnew, entry.1, hkeys entry (by simp), rest,
          ⟨rfl, fun e he => hkeys e (by simp [he]), ?_, hnodup.2⟩, rfl⟩
        intro r hr
        refine ⟨(hids r (by simp [hr])).1, ?_⟩
        rw [Finset.mem_insert, not_or]
        refine ⟨?_, (hids r (by simp [hr])).2⟩
        intro he
        exact hnodup.1 (he ▸ List.mem_map_of_mem hr)

theorem objectId_eq_ok {id : DnsRecordObjectId} :
    objectId record = .ok id ↔ id.value = record.id := by
  rw [objectId, orElse_eq_ok, OpaqueId.new_eq_ok]

theorem image_of_mapM_objectId {ids : List DnsRecordObjectId} (h : members.mapM objectId = .ok ids) :
    ids.toFinset.image OpaqueId.value = (members.map CloudflareRecord.id).toFinset := by
  rw [mapM_eq_ok] at h
  have hids : ids.map OpaqueId.value = members.map CloudflareRecord.id := by
    induction h with
    | nil => rfl
    | cons hid _ ih => simp [ih, objectId_eq_ok.mp hid]
  rw [← hids]
  ext id
  simp

variable [Sha256 (List CloudflareRecord)] {key : DnsRecordSetKey}

/-- What the members of a group and its record set have to do with each other. -/
structure Aggregates (zone : DnsZoneRef) (key : DnsRecordSetKey) (first : CloudflareRecord)
    (others : List CloudflareRecord) (observed : ObservedDnsRecordSet) : Prop where
  zone_eq : observed.zone = zone
  key_eq : observed.recordSet.key = key
  ttl_eq : observed.recordSet.ttl = recordTtl first.ttl
  values_eq : observed.recordSet.values = ((first :: others).map CloudflareRecord.value).toFinset
  extension_eq : cloudflareExtension first key.recordType = .ok observed.recordSet.extension
  ids_eq : observed.providerObjectIds.image OpaqueId.value =
    ((first :: others).map CloudflareRecord.id).toFinset
  revision_eq : observed.revision.value = sha256Revision (first :: others)
  homogeneous : ∀ member ∈ others,
    memberSignature member key.recordType = memberSignature first key.recordType
  distinct : ((first :: others).map CloudflareRecord.value).Nodup
  valid : observed.recordSet.validate zone = .ok ()

variable {observed : ObservedDnsRecordSet}

theorem aggregates_of_group (h : aggregateGroup zone key members = .ok observed) :
    ∃ first others, members = first :: others ∧ Aggregates zone key first others observed := by
  cases members with
  | nil => cases h
  | cons first others =>
    simp only [aggregateGroup, bind_eq_ok, exists_unit, require_eq_ok, orElse_eq_ok, pure_eq_ok,
      OpaqueId.new_eq_ok] at h
    obtain ⟨hsame, hcard, extension, hext, hvalid, ids, hids, revision, hrev, rfl⟩ := h
    refine ⟨first, others, rfl, rfl, rfl, rfl, rfl, hext, image_of_mapM_objectId hids, hrev, hsame,
      ?_, hvalid⟩
    rw [← Multiset.coe_nodup, ← Multiset.toFinset_card_eq_card_iff_nodup]
    simpa using hcard

/-- Every record set of a zone stands for the members of its key. -/
theorem aggregates_of_mem (h : aggregateRecords zone records = .ok sets) (hmem : observed ∈ sets) :
    ∃ key first others, Aggregates zone key first others observed ∧
      ∀ member ∈ first :: others, member ∈ records ∧ recordKey zone member = .ok key ∧
        validCloudflareIdentifier member.id = true := by
  simp only [aggregateRecords, bind_eq_ok] at h
  obtain ⟨keyed, hkeyed, hsets⟩ := h
  obtain ⟨hmap, hkeys, hids, _⟩ := keyRecords_eq_ok.mp hkeyed
  rw [mapM_eq_ok] at hsets
  obtain ⟨key, hkey, hgroup⟩ := exists_of_forall₂ hsets hmem
  obtain ⟨first, others, hmembers, hagg⟩ := aggregates_of_group hgroup
  refine ⟨key, first, others, hagg, ?_⟩
  intro member hm
  rw [← hmembers, membersOf, List.mem_insertionSort] at hm
  obtain ⟨entry, hentry, rfl⟩ := List.mem_map.mp hm
  obtain ⟨hin, rfl⟩ := by simpa using hentry
  have hrec : entry.2 ∈ records := hmap ▸ List.mem_map_of_mem hin
  exact ⟨hrec, hkeys entry hin, (hids _ hrec).1⟩

/-- The keys of the record sets, in order. -/
theorem keys_of_aggregateRecords (h : aggregateRecords zone records = .ok sets) :
    (sets.map fun observed => observed.recordSet.key).Nodup := by
  simp only [aggregateRecords, bind_eq_ok] at h
  obtain ⟨keyed, _, hsets⟩ := h
  rw [mapM_eq_ok] at hsets
  have hkeys : sets.map (fun observed => observed.recordSet.key) =
      inOrder (keyed.map Prod.fst).toFinset := by
    generalize inOrder (keyed.map Prod.fst).toFinset = keys at hsets ⊢
    induction hsets with
    | nil => rfl
    | cons hgroup _ ih =>
      obtain ⟨_, _, _, hagg⟩ := aggregates_of_group hgroup
      simp [ih, hagg.key_eq]
  rw [hkeys]
  exact Finset.sort_nodup _ _

end Spec

section Groups

/-- The members of a key among the records of a zone, by their ids. -/
def groupOf (zone : DnsZoneRef) (records : List CloudflareRecord) (key : DnsRecordSetKey) :
    List CloudflareRecord :=
  (records.filter fun record => (recordKey zone record).toOption = some key).insertionSort
    fun left right => left.id ≤ right.id

/-- Every record has an id of its own and a key. -/
structure Keyed (zone : DnsZoneRef) (records : List CloudflareRecord) : Prop where
  ids : ∀ record ∈ records, validCloudflareIdentifier record.id = true
  distinct : (records.map CloudflareRecord.id).Nodup
  keys : ∀ record ∈ records, ∃ key, recordKey zone record = .ok key

variable {zone : DnsZoneRef} {records : List CloudflareRecord} {key : DnsRecordSetKey}

theorem mem_groupOf {record : CloudflareRecord} :
    record ∈ groupOf zone records key ↔ record ∈ records ∧ recordKey zone record = .ok key := by
  simp [groupOf, List.mem_insertionSort, toOption_eq_some]

/-- The members of a key do not depend on the order in which the records are listed. -/
theorem groupOf_perm {records' : List CloudflareRecord}
    (h : (records.filter fun r => (recordKey zone r).toOption = some key).Perm
      (records'.filter fun r => (recordKey zone r).toOption = some key))
    (hdistinct : (records.map CloudflareRecord.id).Nodup) :
    groupOf zone records key = groupOf zone records' key := by
  have htotal : Std.Total fun left right : CloudflareRecord => left.id ≤ right.id :=
    ⟨fun a b => le_total a.id b.id⟩
  have htrans : IsTrans CloudflareRecord fun left right => left.id ≤ right.id :=
    ⟨fun _ _ _ => le_trans⟩
  have hperm : (groupOf zone records key).Perm (groupOf zone records' key) :=
    (List.perm_insertionSort _ _).trans (h.trans (List.perm_insertionSort _ _).symm)
  refine hperm.eq_of_pairwise ?_ (List.pairwise_insertionSort _ _) (List.pairwise_insertionSort _ _)
  intro a b ha hb hab hba
  have ha := (mem_groupOf.mp ha).1
  have hb := (mem_groupOf.mp (hperm.mem_iff.mpr hb)).1
  exact List.inj_on_of_nodup_map hdistinct ha hb (le_antisymm hab hba)

theorem membersOf_eq_groupOf {keyed : List (DnsRecordSetKey × CloudflareRecord)}
    (hkeys : ∀ entry ∈ keyed, recordKey zone entry.2 = .ok entry.1) :
    membersOf keyed key = groupOf zone (keyed.map Prod.snd) key := by
  have hfilter : (keyed.filter fun entry => entry.1 = key).map Prod.snd =
      (keyed.map Prod.snd).filter fun record => (recordKey zone record).toOption = some key := by
    induction keyed with
    | nil => rfl
    | cons entry keyed ih =>
      have hentry := hkeys entry (by simp)
      have hrest := ih fun e he => hkeys e (by simp [he])
      by_cases he : entry.1 = key
      · simp [he, hentry, toOption_eq_some, hrest]
      · simp [he, hentry, toOption_eq_some, hrest]
  rw [membersOf, hfilter, groupOf]

theorem keyed_iff : (∃ keyed, keyRecords zone ∅ records = .ok keyed) ↔ Keyed zone records := by
  constructor
  · rintro ⟨keyed, h⟩
    obtain ⟨hmap, hkeys, hids, hnodup⟩ := keyRecords_eq_ok.mp h
    refine ⟨fun r hr => (hids r hr).1, hnodup, ?_⟩
    intro r hr
    rw [← hmap] at hr
    obtain ⟨entry, he, rfl⟩ := List.mem_map.mp hr
    exact ⟨entry.1, hkeys entry he⟩
  · intro h
    have hkeyed : ∃ keyed : List (DnsRecordSetKey × CloudflareRecord), keyed.map Prod.snd = records ∧
        ∀ entry ∈ keyed, recordKey zone entry.2 = .ok entry.1 := by
      have hkeys := h.keys
      clear h
      induction records with
      | nil => exact ⟨[], rfl, by simp⟩
      | cons record records ih =>
        obtain ⟨key, hkey⟩ := hkeys record (by simp)
        obtain ⟨keyed, hmap, hall⟩ := ih fun r hr => hkeys r (by simp [hr])
        exact ⟨(key, record) :: keyed, by simp [hmap], List.forall_mem_cons.mpr ⟨hkey, hall⟩⟩
    obtain ⟨keyed, hmap, hall⟩ := hkeyed
    exact ⟨keyed, keyRecords_eq_ok.mpr ⟨hmap, hall, fun r hr => ⟨h.ids r hr, by simp⟩, h.distinct⟩⟩

variable [Sha256 (List CloudflareRecord)] {sets : List ObservedDnsRecordSet}

/-- The inventory of a zone, key by key. -/
theorem aggregateRecords_inventory (h : aggregateRecords zone records = .ok sets) :
    Keyed zone records ∧
      (∀ observed ∈ sets, aggregateGroup zone observed.recordSet.key
        (groupOf zone records observed.recordSet.key) = .ok observed) ∧
      ∀ record ∈ records, ∀ key, recordKey zone record = .ok key →
        ∃ observed ∈ sets, observed.recordSet.key = key := by
  simp only [aggregateRecords, bind_eq_ok] at h
  obtain ⟨keyed, hkeyed, hsets⟩ := h
  have hk : Keyed zone records := keyed_iff.mp ⟨keyed, hkeyed⟩
  obtain ⟨hmap, hkeys, _, _⟩ := keyRecords_eq_ok.mp hkeyed
  rw [mapM_eq_ok] at hsets
  refine ⟨hk, ?_, ?_⟩
  · intro observed hmem
    obtain ⟨key, _, hgroup⟩ := exists_of_forall₂ hsets hmem
    obtain ⟨_, _, _, hagg⟩ := aggregates_of_group hgroup
    rw [hagg.key_eq, ← hmap, ← membersOf_eq_groupOf hkeys]
    exact hgroup
  · intro record hr key hkey
    rw [← hmap] at hr
    obtain ⟨entry, he, rfl⟩ := List.mem_map.mp hr
    obtain rfl : entry.1 = key := Except.ok.inj ((hkeys entry he).symm.trans hkey)
    have hin : entry.1 ∈ inOrder (keyed.map Prod.fst).toFinset := by
      simp only [Finset.mem_sort, List.mem_toFinset]
      exact List.mem_map_of_mem he
    obtain ⟨observed, hmem, hgroup⟩ := exists_of_forall₂ hsets.flip hin
    obtain ⟨_, _, _, hagg⟩ := aggregates_of_group hgroup
    exact ⟨observed, hmem, hagg.key_eq⟩

/-- A zone is observed when every one of its groups is. -/
theorem exists_aggregateRecords (hk : Keyed zone records)
    (hgroups : ∀ record ∈ records, ∀ key, recordKey zone record = .ok key →
      ∃ observed, aggregateGroup zone key (groupOf zone records key) = .ok observed) :
    ∃ sets, aggregateRecords zone records = .ok sets := by
  obtain ⟨keyed, hkeyed⟩ := keyed_iff.mpr hk
  obtain ⟨hmap, hkeys, _, _⟩ := keyRecords_eq_ok.mp hkeyed
  have hall : ∀ key ∈ inOrder (keyed.map Prod.fst).toFinset,
      ∃ observed, aggregateGroup zone key (membersOf keyed key) = .ok observed := by
    intro key hin
    simp only [Finset.mem_sort, List.mem_toFinset] at hin
    obtain ⟨entry, he, rfl⟩ := List.mem_map.mp hin
    rw [membersOf_eq_groupOf hkeys, hmap]
    exact hgroups entry.2 (hmap ▸ List.mem_map_of_mem he) entry.1 (hkeys entry he)
  simp only [aggregateRecords, hkeyed, ok_bind, mapM_eq_ok]
  generalize inOrder (keyed.map Prod.fst).toFinset = keys at hall
  induction keys with
  | nil => exact ⟨[], .nil⟩
  | cons key keys ih =>
    obtain ⟨observed, ho⟩ := hall key (by simp)
    obtain ⟨sets, hs⟩ := ih fun k hkey => hall k (by simp [hkey])
    exact ⟨observed :: sets, .cons ho hs⟩

/-- Looking a key up in the inventory is aggregating its members. -/
theorem find_of_aggregateRecords (h : aggregateRecords zone records = .ok sets)
    {observed : ObservedDnsRecordSet} :
    sets.find? (fun o => o.recordSet.key = key) = some observed ↔
      aggregateGroup zone key (groupOf zone records key) = .ok observed := by
  obtain ⟨_, hgroup, hcover⟩ := aggregateRecords_inventory h
  constructor
  · intro hfind
    have hkey := List.find?_some hfind
    rw [decide_eq_true_eq] at hkey
    rw [← hkey]
    exact hgroup observed (List.mem_of_find?_eq_some hfind)
  · intro hagg
    obtain ⟨first, others, hmembers, _⟩ := aggregates_of_group hagg
    have hfirst : first ∈ groupOf zone records key := by
      rw [hmembers]
      simp
    obtain ⟨hrec, hkey⟩ := mem_groupOf.mp hfirst
    obtain ⟨o, hin, hokey⟩ := hcover first hrec key hkey
    cases hfind : sets.find? (fun o => o.recordSet.key = key) with
    | none =>
      rw [List.find?_eq_none] at hfind
      exact absurd (decide_eq_true hokey) (hfind o hin)
    | some found =>
      have hfkey := List.find?_some hfind
      rw [decide_eq_true_eq] at hfkey
      have hfound := hgroup found (List.mem_of_find?_eq_some hfind)
      rw [hfkey, hagg] at hfound
      rw [Except.ok.inj hfound]

end Groups

end EdgionCenter.Cloudflare
