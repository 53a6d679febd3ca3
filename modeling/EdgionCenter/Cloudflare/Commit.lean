import EdgionCenter.Cloudflare.Report

/-! What a zone holds after a batch for one record set has been committed. -/
namespace EdgionCenter.Cloudflare

open Fallible

variable [Platform] {zone : DnsZoneRef} {rs : ProviderDnsRecordSet} {key : DnsRecordSetKey}
  {records records' : List CloudflareRecord}

section Sorting

omit [Platform] in
/-- Thirty-two hexadecimal digits are a valid text. -/
theorem validText_of_identifier {id : String} (h : validCloudflareIdentifier id = true) :
    validText 512 id = true := by
  simp only [validCloudflareIdentifier, Bool.and_eq_true, beq_iff_eq, List.all_eq_true,
    Bool.or_eq_true, decide_eq_true_eq] at h
  have hgraphic : ∀ c ∈ id.toList, isGraphic c = true := fun c hc => isGraphic_of_hex (h.2 c hc)
  have hlen : id.toList.length = 32 := by
    rw [← utf8Len_of_graphic hgraphic]
    exact h.1
  apply validText_of_graphic
  · rintro rfl
    simp at hlen
  · omega
  · exact hgraphic

theorem exists_objectIds (h : ∀ record ∈ records, validCloudflareIdentifier record.id = true) :
    ∃ ids, records.mapM objectId = .ok ids := by
  refine ⟨records.pmap (fun record hid => ⟨record.id, validText_of_identifier hid⟩) h, ?_⟩
  rw [mapM_eq_ok]
  induction records with
  | nil => exact .nil
  | cons record records ih =>
    exact .cons (objectId_eq_ok.mpr rfl) (ih fun r hr => h r (by simp [hr]))

end Sorting

/-- The zone after a commit: what was not deleted, and what was posted. -/
structure AfterCommit (zone : DnsZoneRef) (rs : ProviderDnsRecordSet) (deletes : List String)
    (before posted after : List CloudflareRecord) : Prop where
  deleted_iff : ∀ record ∈ before, record.id ∈ deletes ↔ recordKey zone record = .ok rs.key
  posted_for : ∀ record ∈ posted, PostedFor rs record
  values : (posted.map CloudflareRecord.value).Perm (inOrder rs.values)
  after_perm : after.Perm ((before.filter fun record => record.id ∉ deletes) ++ posted)
  distinct : (after.map CloudflareRecord.id).Nodup

variable {deletes : List String} {before posted after : List CloudflareRecord}

theorem AfterCommit.keyed (h : AfterCommit zone rs deletes before posted after)
    (hc : Canonical zone rs) (hk : Keyed zone before) : Keyed zone after := by
  have hmem : ∀ record ∈ after, record ∈ before ∨ record ∈ posted := by
    intro record hr
    rw [h.after_perm.mem_iff, List.mem_append, List.mem_filter] at hr
    exact hr.imp_left And.left
  refine ⟨?_, h.distinct, ?_⟩
  · intro record hr
    rcases hmem record hr with hr | hr
    · exact hk.ids record hr
    · exact (h.posted_for record hr).id
  · intro record hr
    rcases hmem record hr with hr | hr
    · exact hk.keys record hr
    · exact ⟨rs.key, (h.posted_for record hr).recordKey hc⟩

/-- The members of the key are those that were posted. -/
theorem AfterCommit.group_key (h : AfterCommit zone rs deletes before posted after)
    (hc : Canonical zone rs) : (groupOf zone after rs.key).Perm posted := by
  have hold : ((before.filter fun record => record.id ∉ deletes).filter
      fun r => (recordKey zone r).toOption = some rs.key) = [] := by
    rw [List.filter_eq_nil_iff]
    intro record hr hkey
    rw [List.mem_filter] at hr
    rw [decide_eq_true_eq, toOption_eq_some, ← h.deleted_iff record hr.1] at hkey
    exact absurd hkey (of_decide_eq_true hr.2)
  have hnew : (posted.filter fun r => (recordKey zone r).toOption = some rs.key) = posted := by
    rw [List.filter_eq_self]
    intro record hr
    simp [(h.posted_for record hr).recordKey hc]
  have hperm := h.after_perm.filter fun r => (recordKey zone r).toOption = some rs.key
  rw [List.filter_append, hold, hnew, List.nil_append] at hperm
  exact (List.perm_insertionSort _ _).trans hperm

/-- The members of another key are what they were. -/
theorem AfterCommit.group_other (h : AfterCommit zone rs deletes before posted after)
    (hc : Canonical zone rs) (hkey : key ≠ rs.key) :
    groupOf zone after key = groupOf zone before key := by
  have hold : ((before.filter fun record => record.id ∉ deletes).filter
      fun r => (recordKey zone r).toOption = some key) =
      before.filter fun r => (recordKey zone r).toOption = some key := by
    rw [List.filter_filter]
    apply List.filter_congr
    intro record hr
    by_cases hk : recordKey zone record = .ok key
    · have hdel : record.id ∉ deletes := by
        rw [h.deleted_iff record hr, hk]
        intro he
        exact hkey (Except.ok.inj he)
      simp [hk, hdel]
    · simp [hk]
  have hnew : (posted.filter fun r => (recordKey zone r).toOption = some key) = [] := by
    rw [List.filter_eq_nil_iff]
    intro record hr hk
    rw [decide_eq_true_eq, toOption_eq_some, (h.posted_for record hr).recordKey hc] at hk
    exact hkey (Except.ok.inj hk).symm
  have hperm := h.after_perm.filter fun r => (recordKey zone r).toOption = some key
  rw [List.filter_append, hold, hnew, List.append_nil] at hperm
  exact groupOf_perm hperm h.distinct

variable [Sha256 (List CloudflareRecord)] {sets : List ObservedDnsRecordSet}

/-- Records posted for a set, one for each of its values, are observed as that set. -/
theorem aggregateGroup_of_posted (hc : Canonical zone rs) {members : List CloudflareRecord}
    (hall : ∀ record ∈ members, PostedFor rs record)
    (hvalues : (members.map CloudflareRecord.value).Perm (inOrder rs.values)) :
    ∃ observed, aggregateGroup zone rs.key members = .ok observed ∧ observed.recordSet = rs := by
  cases members with
  | nil =>
    have hempty : inOrder rs.values = [] := List.nil_perm.mp hvalues
    have hset := congrArg List.toFinset hempty
    rw [Finset.sort_toFinset] at hset
    exact absurd hset hc.values.1
  | cons first others =>
    have hfirst := hall first (by simp)
    have hset : ((first :: others).map CloudflareRecord.value).toFinset = rs.values := by
      rw [List.toFinset_eq_of_perm _ _ hvalues, Finset.sort_toFinset]
    have hcard : rs.values.card = (first :: others).length := by
      rw [← Finset.length_sort (· ≤ ·), ← hvalues.length_eq, List.length_map]
    obtain ⟨ids, hids⟩ := exists_objectIds fun r hr => (hall r hr).id
    have hset' : (⟨rs.key, recordTtl first.ttl, rs.values, rs.extension⟩ : ProviderDnsRecordSet) = rs := by
      rw [hfirst.recordTtl hc]
    refine ⟨⟨zone, rs, ids.toFinset, ⟨_, validText_sha256Revision (first :: others)⟩⟩, ?_, rfl⟩
    simp only [aggregateGroup, bind_eq_ok, exists_unit, require_eq_ok, orElse_eq_ok, pure_eq_ok,
      OpaqueId.new_eq_ok, hset, hfirst.cloudflareExtension hc, Except.ok.injEq, exists_eq_left', hids,
      hset']
    refine ⟨?_, hcard, hc.valid, ⟨_, validText_sha256Revision (first :: others)⟩, rfl, rfl⟩
    intro member hm
    exact hfirst.memberSignature (hall member (by simp [hm]))

/-- After the commit the zone is observed again, and its key holds the set that was posted. -/
theorem AfterCommit.observed (h : AfterCommit zone rs deletes before posted after)
    (hc : Canonical zone rs) (hbefore : aggregateRecords zone before = .ok sets) :
    ∃ sets' observed, aggregateRecords zone after = .ok sets' ∧
      sets'.find? (fun o => o.recordSet.key = rs.key) = some observed ∧ observed.recordSet = rs := by
  obtain ⟨hk, hgroups, hcover⟩ := aggregateRecords_inventory hbefore
  have hperm := h.group_key hc
  obtain ⟨observed, hgroup, hrs⟩ := aggregateGroup_of_posted hc
    (fun r hr => h.posted_for r (hperm.mem_iff.mp hr)) ((hperm.map _).trans h.values)
  have hall : ∀ record ∈ after, ∀ key, recordKey zone record = .ok key →
      ∃ observed, aggregateGroup zone key (groupOf zone after key) = .ok observed := by
    intro record hr key hkey
    by_cases he : key = rs.key
    · subst he
      exact ⟨observed, hgroup⟩
    · rw [h.group_other hc he]
      have hin : record ∈ groupOf zone before key := by
        rw [← h.group_other hc he, mem_groupOf]
        exact ⟨hr, hkey⟩
      obtain ⟨o, ho, hokey⟩ := hcover record (mem_groupOf.mp hin).1 key hkey
      exact ⟨o, hokey ▸ hgroups o ho⟩
  obtain ⟨sets', hsets'⟩ := exists_aggregateRecords (h.keyed hc hk) hall
  exact ⟨sets', observed, hsets', (find_of_aggregateRecords hsets').mpr hgroup, hrs⟩

/-- What was posted is observed as the set alone. -/
theorem AfterCommit.posted_observed (h : AfterCommit zone rs deletes before posted after)
    (hc : Canonical zone rs) :
    ∃ observed, aggregateRecords zone posted = .ok [observed] ∧ observed.recordSet = rs := by
  have hnodup : (posted.map CloudflareRecord.id).Nodup := by
    have := (h.after_perm.map CloudflareRecord.id).nodup_iff.mp h.distinct
    rw [List.map_append] at this
    exact this.of_append_right
  -- the records that were posted are a zone of their own
  have halone : AfterCommit zone rs [] [] posted posted :=
    ⟨by simp, h.posted_for, h.values, by simp, hnodup⟩
  obtain ⟨sets, observed, hsets, hfind, hrs⟩ := halone.observed hc
    (by simp [aggregateRecords, keyRecords] : aggregateRecords zone [] = .ok [])
  have hmem := List.mem_of_find?_eq_some hfind
  have hkeys : ∀ o ∈ sets, o.recordSet.key = rs.key := by
    intro o ho
    obtain ⟨key, first, others, hagg, hmembers⟩ := aggregates_of_mem hsets ho
    obtain ⟨hin, hkey, _⟩ := hmembers first (by simp)
    rw [hagg.key_eq]
    exact Except.ok.inj (hkey.symm.trans ((h.posted_for first hin).recordKey hc))
  have hdistinct := keys_of_aggregateRecords hsets
  refine ⟨observed, ?_, hrs⟩
  cases sets with
  | nil => cases hmem
  | cons o rest =>
    cases rest with
    | nil =>
      rw [List.mem_singleton.mp hmem]
      exact hsets
    | cons o' rest =>
      have he : o.recordSet.key = o'.recordSet.key := by
        rw [hkeys o (by simp), hkeys o' (by simp)]
      simp [he] at hdistinct

section Plan

variable {current : List ObservedDnsRecordSet} {change : DnsRecordChange}
  {request : CloudflareBatchRequest}

/-- The keys of an inventory are distinct, so that it does not matter which entry is taken. -/
theorem currentOf_eq_find (hagg : aggregateRecords zone before = .ok current) :
    currentOf current key = current.find? fun observed => observed.recordSet.key = key := by
  have hnodup := keys_of_aggregateRecords hagg
  clear hagg
  unfold currentOf
  induction current with
  | nil => rfl
  | cons observed current ih =>
    rw [List.map_cons, List.nodup_cons] at hnodup
    by_cases hkey : observed.recordSet.key = key
    · have hrest : (current.filter fun o => o.recordSet.key = key) = [] := by
        rw [List.filter_eq_nil_iff]
        intro o ho he
        rw [decide_eq_true_eq] at he
        exact hnodup.1 (List.mem_map.mpr ⟨o, ho, he.trans hkey.symm⟩)
      simp [hkey, hrest]
    · simp [hkey, ih hnodup.2]

/-- A batch that puts one record set: it deletes what the key holds, and posts the set. -/
structure Plans (zone : DnsZoneRef) (rs : ProviderDnsRecordSet) (before : List CloudflareRecord)
    (request : CloudflareBatchRequest) : Prop where
  posts : renderRecordSet rs = .ok request.posts
  deletes_iff : ∀ record ∈ before, record.id ∈ request.deletes ↔ recordKey zone record = .ok rs.key
  deletes_mem : ∀ id ∈ request.deletes, ∃ record ∈ before, record.id = id
  nodup : request.deletes.Nodup

/-- The object ids of an observation are the ids of the members of its key. -/
theorem mem_objectIds_iff (hagg : aggregateRecords zone before = .ok current)
    {previous : ObservedDnsRecordSet} (hprevious : currentOf current key = some previous)
    {id : String} : id ∈ previous.providerObjectIds.image OpaqueId.value ↔
      ∃ record ∈ before, recordKey zone record = .ok key ∧ record.id = id := by
  rw [currentOf_eq_find hagg, find_of_aggregateRecords hagg] at hprevious
  obtain ⟨first, others, hmembers, hgroup⟩ := aggregates_of_group hprevious
  rw [hgroup.ids_eq, ← hmembers, List.mem_toFinset, List.mem_map]
  simp only [mem_groupOf, and_assoc]

theorem plans_of_planBatch (hagg : aggregateRecords zone before = .ok current)
    (hdesired : change.desiredRecordSet = some rs) (h : planBatch current [change] = .ok request) :
    Plans zone rs before request := by
  obtain ⟨hkeyed, _, hcover⟩ := aggregateRecords_inventory hagg
  simp only [planBatch, List.foldlM_cons, List.foldlM_nil, bind_eq_ok, pure_eq_ok, exists_unit,
    require_eq_ok] at h
  obtain ⟨plan, ⟨_, hstep, rfl⟩, _, _, rfl⟩ := h
  cases change with
  | create recordSet guard =>
    cases hdesired
    simp only [BatchPlan.step, bind_eq_ok, exists_unit, require_eq_ok, pure_eq_ok, List.nil_append,
      Option.isNone_iff_eq_none] at hstep
    obtain ⟨hnone, posts, hposts, rfl⟩ := hstep
    refine ⟨hposts, ?_, by simp, by simp⟩
    intro record hr
    simp only [Finset.sort_empty, List.not_mem_nil, false_iff]
    intro hkey
    obtain ⟨observed, ho, hokey⟩ := hcover record hr _ hkey
    rw [currentOf_eq_find hagg, List.find?_eq_none] at hnone
    exact hnone observed ho (decide_eq_true hokey)
  | replace previous desired guard =>
    cases hdesired
    simp only [BatchPlan.step, collectDeleteIds, bind_eq_ok, exists_unit, require_eq_ok, pure_eq_ok,
      List.nil_append, Finset.empty_union] at hstep
    obtain ⟨hprevious, _, ⟨_, _, rfl⟩, posts, hposts, rfl⟩ := hstep
    have hids : ∀ id, id ∈ previous.providerObjectIds.image OpaqueId.value ↔ _ :=
      fun _ => mem_objectIds_iff hagg hprevious
    refine ⟨hposts, ?_, ?_, Finset.sort_nodup _ _⟩
    · intro record hr
      rw [Finset.mem_sort, hids]
      constructor
      · rintro ⟨other, ho, hkey, he⟩
        rw [← List.inj_on_of_nodup_map hkeyed.distinct ho hr he]
        exact hkey
      · intro hkey
        exact ⟨record, hr, hkey, rfl⟩
    · intro id hid
      rw [Finset.mem_sort, hids] at hid
      obtain ⟨record, hr, _, he⟩ := hid
      exact ⟨record, hr, he⟩
  | delete previous guard => cases hdesired

end Plan

end EdgionCenter.Cloudflare
