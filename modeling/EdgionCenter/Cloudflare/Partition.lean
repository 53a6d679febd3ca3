import EdgionCenter.Cloudflare.Listing

/-! The record sets of a zone as a partition of its records, whatever order they are listed in. -/
namespace EdgionCenter.Cloudflare

open Fallible

section Inventory

variable [Platform] {zone : DnsZoneRef} {records records' : List CloudflareRecord}
  {key : DnsRecordSetKey}

section Order

/-- The keys of the records of a zone. -/
def keysOf (zone : DnsZoneRef) (records : List CloudflareRecord) : Finset DnsRecordSetKey :=
  (records.filterMap fun record => (recordKey zone record).toOption).toFinset

theorem mem_keysOf :
    key ∈ keysOf zone records ↔ ∃ record ∈ records, recordKey zone record = .ok key := by
  simp [keysOf, toOption_eq_some]

theorem keysOf_eq {keyed : List (DnsRecordSetKey × CloudflareRecord)}
    (hkeys : ∀ entry ∈ keyed, recordKey zone entry.2 = .ok entry.1) :
    (keyed.map Prod.fst).toFinset = keysOf zone (keyed.map Prod.snd) := by
  ext key
  rw [mem_keysOf, List.mem_toFinset, List.mem_map]
  constructor
  · rintro ⟨entry, he, rfl⟩
    exact ⟨entry.2, List.mem_map_of_mem he, hkeys entry he⟩
  · rintro ⟨record, hr, hkey⟩
    obtain ⟨entry, he, rfl⟩ := List.mem_map.mp hr
    exact ⟨entry, he, Except.ok.inj ((hkeys entry he).symm.trans hkey)⟩

theorem keysOf_perm (h : records.Perm records') : keysOf zone records = keysOf zone records' := by
  ext key
  simp only [mem_keysOf, h.mem_iff]

theorem Keyed.perm (hk : Keyed zone records) (h : records.Perm records') : Keyed zone records' where
  ids record hr := hk.ids record (h.mem_iff.mpr hr)
  distinct := (h.map _).nodup_iff.mp hk.distinct
  keys record hr := hk.keys record (h.mem_iff.mpr hr)

/-- Two groups are the same list exactly if they have the same members. -/
theorem groupOf_eq_iff (hk : Keyed zone records) (hk' : Keyed zone records') :
    groupOf zone records key = groupOf zone records' key ↔
      ∀ record, recordKey zone record = .ok key → (record ∈ records ↔ record ∈ records') := by
  constructor
  · intro h record hkey
    have hmem := congrArg (record ∈ ·) h
    simpa [mem_groupOf, hkey] using hmem
  · intro h
    have hnodup : ∀ {records : List CloudflareRecord}, Keyed zone records →
        (records.filter fun r => (recordKey zone r).toOption = some key).Nodup :=
      fun hk => hk.distinct.of_map.filter _
    apply groupOf_perm _ hk.distinct
    rw [List.perm_ext_iff_of_nodup (hnodup hk) (hnodup hk')]
    intro record
    rw [List.mem_filter, List.mem_filter, decide_eq_true_eq, toOption_eq_some]
    exact and_congr_left fun hkey => h record hkey

variable [Sha256 (List CloudflareRecord)] {sets : List ObservedDnsRecordSet}

/-- A zone is observed group by group, in the order of the keys. -/
theorem aggregateRecords_eq_ok : aggregateRecords zone records = .ok sets ↔
    Keyed zone records ∧ List.Forall₂
      (fun key observed => aggregateGroup zone key (groupOf zone records key) = .ok observed)
      (inOrder (keysOf zone records)) sets := by
  have hkeyed : ∀ {keyed}, keyRecords zone ∅ records = .ok keyed →
      ((inOrder (keyed.map Prod.fst).toFinset).mapM
          (fun key => aggregateGroup zone key (membersOf keyed key)) = .ok sets ↔
        List.Forall₂
          (fun key observed => aggregateGroup zone key (groupOf zone records key) = .ok observed)
          (inOrder (keysOf zone records)) sets) := by
    intro keyed hkeyed
    obtain ⟨hmap, hkeys, -, -⟩ := keyRecords_eq_ok.mp hkeyed
    subst hmap
    rw [mapM_eq_ok, keysOf_eq hkeys]
    simp only [membersOf_eq_groupOf hkeys]
  rw [← keyed_iff]
  simp only [aggregateRecords, bind_eq_ok]
  constructor
  · rintro ⟨keyed, hk, hsets⟩
    exact ⟨⟨keyed, hk⟩, (hkeyed hk).mp hsets⟩
  · rintro ⟨⟨keyed, hk⟩, hsets⟩
    exact ⟨keyed, hk, (hkeyed hk).mpr hsets⟩

theorem aggregateRecords_perm (h : records.Perm records')
    (hsets : aggregateRecords zone records = .ok sets) :
    aggregateRecords zone records' = .ok sets := by
  obtain ⟨hk, hgroups⟩ := aggregateRecords_eq_ok.mp hsets
  rw [aggregateRecords_eq_ok, ← keysOf_perm h]
  refine ⟨hk.perm h, ?_⟩
  simpa only [groupOf_perm (h.filter _) hk.distinct] using hgroups

end Order

section Partition

variable {sets sets' : List ObservedDnsRecordSet} {observed observed' : ObservedDnsRecordSet}

/-- The record set has the object id. -/
def Owns (observed : ObservedDnsRecordSet) (id : String) : Prop :=
  ∃ objectId ∈ observed.providerObjectIds, objectId.value = id

/-- The record sets of a zone as the parts of its records. -/
structure Partitions (records : List CloudflareRecord) (sets : List ObservedDnsRecordSet) :
    Prop where
  sorted : sets.Pairwise fun observed observed' => observed.recordSet.key < observed'.recordSet.key
  nonempty : ∀ observed ∈ sets, observed.providerObjectIds.Nonempty
  covered : ∀ id, (∃ observed ∈ sets, Owns observed id) ↔ id ∈ records.map CloudflareRecord.id
  disjoint : sets.Pairwise fun observed observed' =>
    Disjoint observed.providerObjectIds observed'.providerObjectIds
  owned : ∀ observed ∈ sets, ∀ record ∈ records, Owns observed record.id →
    record.value ∈ observed.recordSet.values
  counts : ∀ observed ∈ sets,
    observed.recordSet.values.card = observed.providerObjectIds.card

variable [Sha256 (List CloudflareRecord)] {first : CloudflareRecord} {id : String}
  {others : List CloudflareRecord}

theorem Aggregates.owns_iff (h : Aggregates zone key first others observed) :
    Owns observed id ↔ ∃ record ∈ first :: others, record.id = id := by
  have hmem := congrArg (id ∈ ·) h.ids_eq
  rw [Finset.mem_image, List.mem_toFinset, List.mem_map] at hmem
  exact Iff.of_eq hmem

/-- What a record set of the inventory is made of. -/
theorem members_of_mem (h : aggregateRecords zone records = .ok sets) (hmem : observed ∈ sets) :
    ∃ first others, groupOf zone records observed.recordSet.key = first :: others ∧
      Aggregates zone observed.recordSet.key first others observed :=
  aggregates_of_group ((aggregateRecords_inventory h).2.1 observed hmem)

theorem owns_iff (h : aggregateRecords zone records = .ok sets) (hmem : observed ∈ sets) :
    Owns observed id ↔
      ∃ record ∈ records, recordKey zone record = .ok observed.recordSet.key ∧ record.id = id := by
  obtain ⟨first, others, hgroup, hagg⟩ := members_of_mem h hmem
  rw [hagg.owns_iff, ← hgroup]
  simp only [mem_groupOf, and_assoc]

theorem keys_eq_inOrder (h : aggregateRecords zone records = .ok sets) :
    sets.map (fun observed => observed.recordSet.key) = inOrder (keysOf zone records) := by
  obtain ⟨-, hgroups⟩ := aggregateRecords_eq_ok.mp h
  clear h
  generalize inOrder (keysOf zone records) = keys at hgroups ⊢
  induction hgroups with
  | nil => rfl
  | cons hgroup _ ih =>
    obtain ⟨_, _, _, hagg⟩ := aggregates_of_group hgroup
    rw [List.map_cons, ih, hagg.key_eq]

theorem sorted_of_aggregateRecords (h : aggregateRecords zone records = .ok sets) :
    sets.Pairwise fun observed observed' => observed.recordSet.key < observed'.recordSet.key := by
  have hkeys : (sets.map fun observed => observed.recordSet.key).Pairwise (· < ·) := by
    rw [keys_eq_inOrder h]
    exact (Finset.sortedLT_sort _).pairwise
  exact List.pairwise_map.mp hkeys

/-- A record is a member of one set only. -/
theorem eq_of_owns (h : aggregateRecords zone records = .ok sets) (hmem : observed ∈ sets)
    (hmem' : observed' ∈ sets) (ho : Owns observed id) (ho' : Owns observed' id) :
    observed.recordSet.key = observed'.recordSet.key := by
  obtain ⟨hk, -⟩ := aggregateRecords_eq_ok.mp h
  obtain ⟨record, hr, hkey, hid⟩ := (owns_iff h hmem).mp ho
  obtain ⟨record', hr', hkey', hid'⟩ := (owns_iff h hmem').mp ho'
  obtain rfl := List.inj_on_of_nodup_map hk.distinct hr hr' (hid.trans hid'.symm)
  exact Except.ok.inj (hkey.symm.trans hkey')

theorem counts_of_aggregates (h : Aggregates zone key first others observed)
    (hids : ((first :: others).map CloudflareRecord.id).Nodup) :
    observed.recordSet.values.card = observed.providerObjectIds.card := by
  calc observed.recordSet.values.card = (first :: others).length := by
        rw [h.values_eq, List.toFinset_card_of_nodup h.distinct, List.length_map]
    _ = (observed.providerObjectIds.image OpaqueId.value).card := by
        rw [h.ids_eq, List.toFinset_card_of_nodup hids, List.length_map]
    _ = observed.providerObjectIds.card :=
        Finset.card_image_of_injective _ OpaqueId.value_injective

theorem partitions_of_aggregateRecords (h : aggregateRecords zone records = .ok sets) :
    Partitions records sets := by
  obtain ⟨hk, hgroup, hcover⟩ := aggregateRecords_inventory h
  refine ⟨sorted_of_aggregateRecords h, ?_, ?_, ?_, ?_, ?_⟩
  · intro observed hmem
    obtain ⟨first, others, -, hagg⟩ := members_of_mem h hmem
    obtain ⟨id, hid, -⟩ := hagg.owns_iff.mpr ⟨first, by simp, rfl⟩
    exact ⟨id, hid⟩
  · intro id
    rw [List.mem_map]
    constructor
    · rintro ⟨observed, hmem, ho⟩
      obtain ⟨record, hr, -, hid⟩ := (owns_iff h hmem).mp ho
      exact ⟨record, hr, hid⟩
    · rintro ⟨record, hr, rfl⟩
      obtain ⟨key, hkey⟩ := hk.keys record hr
      obtain ⟨observed, hmem, rfl⟩ := hcover record hr key hkey
      exact ⟨observed, hmem, (owns_iff h hmem).mpr ⟨record, hr, hkey, rfl⟩⟩
  · apply (sorted_of_aggregateRecords h).imp_of_mem
    intro observed observed' hmem hmem' hlt
    rw [Finset.disjoint_left]
    intro id hid hid'
    exact hlt.ne (eq_of_owns h hmem hmem' ⟨id, hid, rfl⟩ ⟨id, hid', rfl⟩)
  · intro observed hmem record hr ho
    obtain ⟨first, others, hmembers, hagg⟩ := members_of_mem h hmem
    obtain ⟨record', hr', hid⟩ := hagg.owns_iff.mp ho
    have hin : record' ∈ records := (mem_groupOf.mp (hmembers ▸ hr')).1
    obtain rfl := List.inj_on_of_nodup_map hk.distinct hin hr hid
    rw [hagg.values_eq, List.mem_toFinset]
    exact List.mem_map_of_mem hr'
  · intro observed hmem
    obtain ⟨first, others, hmembers, hagg⟩ := members_of_mem h hmem
    apply counts_of_aggregates hagg
    rw [← hmembers]
    exact ((List.perm_insertionSort _ _).map _).nodup_iff.mpr
      (hk.distinct.sublist (List.filter_sublist.map _))

/-- Up to collisions of the digest, a revision stands for the members of the set. -/
theorem revision_eq_iff (h : aggregateRecords zone records = .ok sets)
    (h' : aggregateRecords zone records' = .ok sets') (hmem : observed ∈ sets)
    (hmem' : observed' ∈ sets') (hkey : observed.recordSet.key = observed'.recordSet.key)
    (hdigest : Sha256.hex (groupOf zone records observed.recordSet.key) =
        Sha256.hex (groupOf zone records' observed.recordSet.key) →
      groupOf zone records observed.recordSet.key =
        groupOf zone records' observed.recordSet.key) : observed.revision = observed'.revision ↔
      ∀ record, recordKey zone record = .ok observed.recordSet.key →
        (record ∈ records ↔ record ∈ records') := by
  obtain ⟨first, others, hmembers, hagg⟩ := members_of_mem h hmem
  obtain ⟨first', others', hmembers', hagg'⟩ := members_of_mem h' hmem'
  have hrevision := hagg.revision_eq
  have hrevision' := hagg'.revision_eq
  rw [← hmembers, sha256Revision] at hrevision
  rw [← hmembers', ← hkey, sha256Revision] at hrevision'
  rw [← groupOf_eq_iff (aggregateRecords_eq_ok.mp h).1 (aggregateRecords_eq_ok.mp h').1,
    ← OpaqueId.value_injective.eq_iff, hrevision, hrevision']
  constructor
  · intro he
    exact hdigest ((String.append_right_inj _).mp he)
  · intro he
    rw [he]

/-- Listing the records in another order changes nothing, the record sets partition them, and a
revision changes exactly with a member of its set. -/
theorem aggregation_partition (zone : DnsZoneRef) (records records' : List CloudflareRecord) :
    (∀ sets, records.Perm records' →
      (aggregateRecords zone records = .ok sets ↔ aggregateRecords zone records' = .ok sets)) ∧
    (∀ sets, aggregateRecords zone records = .ok sets → Partitions records sets) ∧
    ∀ sets sets', aggregateRecords zone records = .ok sets →
      aggregateRecords zone records' = .ok sets' →
      (∀ key, Sha256.hex (groupOf zone records key) = Sha256.hex (groupOf zone records' key) →
        groupOf zone records key = groupOf zone records' key) →
      ∀ observed ∈ sets, ∀ observed' ∈ sets', observed.recordSet.key = observed'.recordSet.key →
        (observed.revision = observed'.revision ↔
          ∀ record, recordKey zone record = .ok observed.recordSet.key →
            (record ∈ records ↔ record ∈ records')) := by
  refine ⟨?_, ?_, ?_⟩
  · intro sets hperm
    exact ⟨aggregateRecords_perm hperm, aggregateRecords_perm hperm.symm⟩
  · intro sets h
    exact partitions_of_aggregateRecords h
  · intro sets sets' h h' hdigest observed hmem observed' hmem' hkey
    exact revision_eq_iff h h' hmem hmem' hkey (hdigest _)

end Partition

end Inventory

section Example

attribute [local instance] asciiPlatform

/-- A digest that tells automatic TTLs apart from others. -/
@[reducible] def ttlDigest : Sha256 (List CloudflareRecord) where
  hex members := String.ofList
    (List.replicate 64 (if members.any (fun member => member.ttl = 1) then '1' else '0'))
  hex_length _ := by simp
  hex_digits members c hc := by
    rw [String.toList_ofList] at hc
    obtain rfl := List.eq_of_mem_replicate hc
    split <;> decide

attribute [local instance] ttlDigest

def wwwKey : DnsRecordSetKey := ⟨⟨"www.example.com", by decide⟩, .txt, .simple⟩

def wwwSpf : CloudflareRecord :=
  { spf 300 with id := "abcdef0123456789abcdef012345678a", name := "www.example.com" }

theorem recordKey_spf (ttl : Nat) : recordKey exampleZone (spf ttl) = .ok apexKey := by
  change recordKey exampleZone (spf 300) = _
  decide +kernel

theorem recordKey_wwwSpf : recordKey exampleZone wwwSpf = .ok wwwKey := by decide +kernel

/-- One record at the apex and one below it. -/
def twoSets (ttl : Nat) : List CloudflareRecord := [spf ttl, wwwSpf]

theorem exists_aggregate_twoSets {ttl : Nat} (h : ttl = 300 ∨ ttl = 1) :
    ∃ sets, aggregateRecords exampleZone (twoSets ttl) = .ok sets := by
  have hkeyed : Keyed exampleZone (twoSets ttl) := by
    refine ⟨?_, ?_, ?_⟩
    · simp only [twoSets, List.forall_mem_cons]
      exact ⟨(by decide : validCloudflareIdentifier (spf 300).id = true), by decide, by simp⟩
    · change (List.map CloudflareRecord.id (twoSets 300)).Nodup
      decide
    · simp [twoSets, recordKey_spf, recordKey_wwwSpf]
  have hgroups : ∀ key ∈ [apexKey, wwwKey], ∃ observed,
      aggregateGroup exampleZone key (groupOf exampleZone (twoSets ttl) key) = .ok observed := by
    intro key hkey
    have hsome : (aggregateGroup exampleZone key
        (groupOf exampleZone (twoSets ttl) key)).toOption.isSome := by
      rcases h with rfl | rfl <;> revert key <;> decide +kernel
    obtain ⟨observed, ho⟩ := Option.isSome_iff_exists.mp hsome
    exact ⟨observed, toOption_eq_some.mp ho⟩
  apply exists_aggregateRecords hkeyed
  intro record hr key hkey
  apply hgroups
  simp only [twoSets, List.mem_cons, List.not_mem_nil, or_false] at hr
  rcases hr with rfl | rfl
  · simp [Except.ok.inj ((recordKey_spf ttl).symm.trans hkey)]
  · simp [Except.ok.inj (recordKey_wwwSpf.symm.trans hkey)]

/-- The apex takes automatic TTL: of the two sets, `www` alone keeps its revision. -/
theorem ttl_changes_revision : ∃ sets sets', aggregateRecords exampleZone (twoSets 300) = .ok sets ∧
      aggregateRecords exampleZone (twoSets 300).reverse = .ok sets ∧
      aggregateRecords exampleZone (twoSets 1) = .ok sets' ∧ Partitions (twoSets 300) sets ∧
      (∃ observed ∈ sets, ∃ observed' ∈ sets', observed.recordSet.key = apexKey ∧
        observed'.recordSet.key = apexKey ∧ observed.revision ≠ observed'.revision) ∧
      ∃ observed ∈ sets, ∃ observed' ∈ sets', observed.recordSet.key = wwwKey ∧
        observed'.recordSet.key = wwwKey ∧ observed.revision = observed'.revision := by
  obtain ⟨sets, hsets⟩ := exists_aggregate_twoSets (.inl rfl : 300 = 300 ∨ 300 = 1)
  obtain ⟨sets', hsets'⟩ := exists_aggregate_twoSets (.inr rfl : 1 = 300 ∨ 1 = 1)
  have hdigest : ∀ key, Sha256.hex (groupOf exampleZone (twoSets 300) key) =
      Sha256.hex (groupOf exampleZone (twoSets 1) key) →
        groupOf exampleZone (twoSets 300) key = groupOf exampleZone (twoSets 1) key := by
    intro key hhex
    by_cases hkey : apexKey = key
    · subst hkey
      exact absurd hhex (by decide +kernel)
    · simp [groupOf, twoSets, recordKey_spf, hkey]
  obtain ⟨horder, hpartition, -⟩ :=
    aggregation_partition exampleZone (twoSets 300) (twoSets 300).reverse
  obtain ⟨-, -, hrevision⟩ := aggregation_partition exampleZone (twoSets 300) (twoSets 1)
  obtain ⟨-, -, hcover⟩ := aggregateRecords_inventory hsets
  obtain ⟨-, -, hcover'⟩ := aggregateRecords_inventory hsets'
  refine ⟨sets, sets', hsets, (horder _ (List.reverse_perm _).symm).mp hsets, hsets',
    hpartition _ hsets, ?_, ?_⟩
  · obtain ⟨observed, hmem, hkey⟩ := hcover _ (by simp [twoSets]) _ (recordKey_spf 300)
    obtain ⟨observed', hmem', hkey'⟩ := hcover' _ (by simp [twoSets]) _ (recordKey_spf 1)
    refine ⟨observed, hmem, observed', hmem', hkey, hkey', ?_⟩
    rw [ne_eq, hrevision _ _ hsets hsets' hdigest _ hmem _ hmem' (hkey.trans hkey'.symm), hkey]
    intro hsame
    exact absurd ((hsame (spf 300) (recordKey_spf 300)).mp (by simp [twoSets])) (by decide)
  · obtain ⟨observed, hmem, hkey⟩ := hcover wwwSpf (by simp [twoSets]) _ recordKey_wwwSpf
    obtain ⟨observed', hmem', hkey'⟩ := hcover' wwwSpf (by simp [twoSets]) _ recordKey_wwwSpf
    refine ⟨observed, hmem, observed', hmem', hkey, hkey', ?_⟩
    rw [hrevision _ _ hsets hsets' hdigest _ hmem _ hmem' (hkey.trans hkey'.symm), hkey]
    intro record hrecord
    have hapex : ∀ other, recordKey exampleZone other = .ok apexKey → record ≠ other := by
      rintro other hother rfl
      exact absurd (Except.ok.inj (hother.symm.trans hrecord)) (by decide)
    simp [twoSets, hapex _ (recordKey_spf _)]

end Example

end EdgionCenter.Cloudflare
