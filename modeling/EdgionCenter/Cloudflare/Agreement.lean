import EdgionCenter.Cloud.Acceptance
import EdgionCenter.Cloudflare.Commit
import EdgionCenter.Cloudflare.Partition

/-! The planner of a batch and the check of its result, for any list of changes. -/
namespace EdgionCenter.Cloudflare

open Fallible

section Planning

variable [Platform] {current : List ObservedDnsRecordSet} {changes : List DnsRecordChange}
  {change : DnsRecordChange} {plan plan' : BatchPlan} {request : CloudflareBatchRequest}

/-- The request deletes what the changes take away, and posts what they leave. -/
structure CarriesOut (changes : List DnsRecordChange) (request : CloudflareBatchRequest) :
    Prop where
  nodup : request.deletes.Nodup
  deletes : ∀ id, id ∈ request.deletes ↔
    ∃ change ∈ changes, ∃ previous ∈ change.previousRecordSet, Owns previous id
  posts : ∃ rendered, (desiredRecordSets changes).mapM renderRecordSet = .ok rendered ∧
    request.posts = rendered.flatten ∧
    rendered.map List.length = (desiredRecordSets changes).map fun rs => rs.values.card

theorem collectDeleteIds_spec {record : ObservedDnsRecordSet} {ids ids' : Finset String}
    (h : collectDeleteIds record ids = .ok ids') (id : String) :
    id ∈ ids' ↔ id ∈ ids ∨ Owns record id := by
  simp only [collectDeleteIds, bind_eq_ok, exists_unit, pure_eq_ok] at h
  obtain ⟨-, -, rfl⟩ := h
  simp [Owns]

/-- What one change adds to a plan. -/
theorem step_spec (h : plan.step current change = .ok plan') :
    currentOf current change.key = change.previousRecordSet ∧
    (∀ id, id ∈ plan'.deleteIds ↔
      id ∈ plan.deleteIds ∨ ∃ previous ∈ change.previousRecordSet, Owns previous id) ∧
    ∃ posts, change.desiredRecordSet.toList.mapM renderRecordSet = .ok posts ∧
      plan'.posts = plan.posts ++ posts.flatten := by
  cases change with
  | create recordSet guard =>
    simp only [BatchPlan.step, bind_eq_ok, exists_unit, require_eq_ok, pure_eq_ok,
      Option.isNone_iff_eq_none] at h
    obtain ⟨hguard, posts, hposts, rfl⟩ := h
    exact ⟨hguard, by simp [DnsRecordChange.previousRecordSet],
      [posts], by simp [DnsRecordChange.desiredRecordSet, hposts], by simp⟩
  | replace previous desired guard =>
    simp only [BatchPlan.step, bind_eq_ok, exists_unit, require_eq_ok, pure_eq_ok] at h
    obtain ⟨hguard, ids, hids, posts, hposts, rfl⟩ := h
    exact ⟨hguard, by simp [DnsRecordChange.previousRecordSet, collectDeleteIds_spec hids],
      [posts], by simp [DnsRecordChange.desiredRecordSet, hposts], by simp⟩
  | delete previous guard =>
    simp only [BatchPlan.step, bind_eq_ok, exists_unit, require_eq_ok, pure_eq_ok] at h
    obtain ⟨hguard, ids, hids, rfl⟩ := h
    exact ⟨hguard, by simp [DnsRecordChange.previousRecordSet, collectDeleteIds_spec hids],
      [], by simp [DnsRecordChange.desiredRecordSet], by simp⟩

theorem plan_spec (h : changes.foldlM (BatchPlan.step current) plan = .ok plan') :
    (∀ change ∈ changes, currentOf current change.key = change.previousRecordSet) ∧
    (∀ id, id ∈ plan'.deleteIds ↔ id ∈ plan.deleteIds ∨
      ∃ change ∈ changes, ∃ previous ∈ change.previousRecordSet, Owns previous id) ∧
    ∃ rendered, (desiredRecordSets changes).mapM renderRecordSet = .ok rendered ∧
      plan'.posts = plan.posts ++ rendered.flatten := by
  induction changes generalizing plan with
  | nil =>
    simp only [List.foldlM_nil, pure_eq_ok] at h
    subst h
    exact ⟨by simp, by simp, [], by simp [desiredRecordSets], by simp⟩
  | cons change changes ih =>
    simp only [List.foldlM_cons, bind_eq_ok] at h
    obtain ⟨next, hnext, hrest⟩ := h
    obtain ⟨hguard, hids, posts, hposts, hfirst⟩ := step_spec hnext
    obtain ⟨hguards, hids', rendered, hrendered, hposts'⟩ := ih hrest
    refine ⟨List.forall_mem_cons.mpr ⟨hguard, hguards⟩, ?_, posts ++ rendered, ?_, ?_⟩
    · intro id
      rw [hids', hids]
      simp only [List.mem_cons, exists_eq_or_imp, or_assoc]
    · have hsplit : desiredRecordSets (change :: changes) =
          change.desiredRecordSet.toList ++ desiredRecordSets changes := by
        cases hd : change.desiredRecordSet <;> simp [desiredRecordSets, hd]
      rw [hsplit, List.mapM_append, hposts, hrendered]
      rfl
    · rw [hposts', hfirst, List.flatten_append, List.append_assoc]

theorem length_of_renderRecordSet {rs : ProviderDnsRecordSet} {posts : List CloudflareBatchRecord}
    (h : renderRecordSet rs = .ok posts) : posts.length = rs.values.card := by
  simp only [renderRecordSet, bind_eq_ok, mapM_eq_ok] at h
  obtain ⟨_, -, _, -, hposts⟩ := h
  rw [← hposts.length_eq, Finset.length_sort]

theorem carriesOut_of_planBatch (h : planBatch current changes = .ok request) :
    CarriesOut changes request := by
  simp only [planBatch, bind_eq_ok, exists_unit, pure_eq_ok] at h
  obtain ⟨plan, hplan, -, -, rfl⟩ := h
  obtain ⟨-, hids, rendered, hrendered, hposts⟩ := plan_spec hplan
  refine ⟨Finset.sort_nodup _ _, ?_, rendered, hrendered, by simpa using hposts, ?_⟩
  · intro id
    rw [Finset.mem_sort, hids]
    simp
  · rw [mapM_eq_ok] at hrendered
    clear hposts
    generalize desiredRecordSets changes = sets at hrendered
    induction hrendered with
    | nil => rfl
    | cons hrender _ ih => rw [List.map_cons, List.map_cons, ih, length_of_renderRecordSet hrender]

theorem guards_of_planBatch (h : planBatch current changes = .ok request) :
    ∀ change ∈ changes, currentOf current change.key = change.previousRecordSet := by
  simp only [planBatch, bind_eq_ok] at h
  obtain ⟨plan, hplan, -⟩ := h
  exact (plan_spec hplan).1

variable [Sha256 (List CloudflareRecord)]

/-- In terms of the zone: the records of every key that is replaced or deleted. -/
theorem mem_deletes_iff {zone : DnsZoneRef} {records : List CloudflareRecord}
    (hcurrent : aggregateRecords zone records = .ok current)
    (h : planBatch current changes = .ok request) {id : String} :
    id ∈ request.deletes ↔ ∃ change ∈ changes, change.previousRecordSet ≠ none ∧
      ∃ record ∈ records, recordKey zone record = .ok change.key ∧ record.id = id := by
  rw [(carriesOut_of_planBatch h).deletes]
  have howns : ∀ change ∈ changes, ∀ previous ∈ change.previousRecordSet, Owns previous id ↔
      ∃ record ∈ records, recordKey zone record = .ok change.key ∧ record.id = id := by
    intro change hc previous hp
    rw [← mem_objectIds_iff hcurrent ((guards_of_planBatch h change hc).trans hp), Finset.mem_image]
    rfl
  constructor
  · rintro ⟨change, hc, previous, hp, ho⟩
    refine ⟨change, hc, ?_, (howns change hc previous hp).mp ho⟩
    rw [Option.mem_def.mp hp]
    simp
  · rintro ⟨change, hc, hne, hrecord⟩
    obtain ⟨previous, hp⟩ := Option.ne_none_iff_exists'.mp hne
    exact ⟨change, hc, previous, hp, (howns change hc previous hp).mpr hrecord⟩

end Planning

section ByKey

variable [Platform] {actual expected sets : List ProviderDnsRecordSet} {rs : ProviderDnsRecordSet}
  {key : DnsRecordSetKey}

theorem recordSetOf_eq_some (hnodup : (sets.map fun rs => rs.key).Nodup) :
    recordSetOf sets key = some rs ↔ rs ∈ sets ∧ rs.key = key := by
  have hone : ∀ {a b}, a ∈ sets.filter (fun rs => rs.key = key) →
      b ∈ sets.filter (fun rs => rs.key = key) → a = b := by
    intro a b ha hb
    obtain ⟨ha, hak⟩ := List.mem_filter.mp ha
    obtain ⟨hb, hbk⟩ := List.mem_filter.mp hb
    exact List.inj_on_of_nodup_map hnodup ha hb
      ((of_decide_eq_true hak).trans (of_decide_eq_true hbk).symm)
  have hmem : rs ∈ sets.filter (fun rs => rs.key = key) ↔ rs ∈ sets ∧ rs.key = key := by
    simp
  rw [recordSetOf, ← hmem]
  constructor
  · exact List.mem_of_getLast?
  · intro hin
    cases hlast : (sets.filter fun rs => rs.key = key).getLast? with
    | none =>
      rw [List.getLast?_eq_none_iff] at hlast
      rw [hlast] at hin
      cases hin
    | some last => rw [hone hin (List.mem_of_getLast? hlast)]

/-- Comparing by key compares the record sets. -/
theorem sameByKey_iff (hactual : (actual.map fun rs => rs.key).Nodup)
    (hexpected : (expected.map fun rs => rs.key).Nodup) :
    sameByKey actual expected = true ↔ ∀ rs, rs ∈ actual ↔ rs ∈ expected := by
  simp only [sameByKey, List.all_eq_true, decide_eq_true_eq, List.mem_append]
  constructor
  · intro h rs
    constructor
    · intro hrs
      have hsame := h rs (.inl hrs)
      rw [(recordSetOf_eq_some hactual).mpr ⟨hrs, rfl⟩, eq_comm,
        recordSetOf_eq_some hexpected] at hsame
      exact hsame.1
    · intro hrs
      have hsame := h rs (.inr hrs)
      rw [(recordSetOf_eq_some hexpected).mpr ⟨hrs, rfl⟩, recordSetOf_eq_some hactual] at hsame
      exact hsame.1
  · intro h rs _
    ext rs'
    rw [recordSetOf_eq_some hactual, recordSetOf_eq_some hexpected, h]

end ByKey

section Checking

variable [Platform] {zone : DnsZoneRef} {changes : List DnsRecordChange}
  {rs : ProviderDnsRecordSet} {records : List CloudflareRecord}
  {request : CloudflareBatchRequest} {result : CloudflareBatchResult}

/-- The provider's answer to a batch it has performed: the deletions, and every post as it is
reported, under an id of its own. -/
structure Echoes (request : CloudflareBatchRequest) (result : CloudflareBatchResult) : Prop where
  deletes : (result.deletes.map CloudflareRecord.id).Perm request.deletes
  posts : ∃ raws, List.Forall₂ Reports request.posts raws ∧
    raws.mapM RawRecord.mapRecord = .ok result.posts
  distinct : (result.posts.map CloudflareRecord.id).Nodup

variable {sets : List ProviderDnsRecordSet}

/-- The records posted for each set of a batch, read back. -/
theorem exists_groups {rendered : List (List CloudflareBatchRecord)} {raws : List RawRecord}
    (htypes : ∀ rs ∈ sets, ∀ value ∈ rs.values, value.recordType = rs.key.recordType)
    (hrendered : sets.mapM renderRecordSet = .ok rendered)
    (hreports : List.Forall₂ Reports rendered.flatten raws)
    (hrecords : raws.mapM RawRecord.mapRecord = .ok records) :
    ∃ groups : List (List CloudflareRecord), records = groups.flatten ∧
      List.Forall₂ (fun rs members => (∀ record ∈ members, PostedFor rs record) ∧
        members.map CloudflareRecord.value = inOrder rs.values) sets groups := by
  rw [mapM_eq_ok] at hrendered
  induction hrendered generalizing raws records with
  | nil =>
    cases hreports
    rw [List.mapM_nil, pure_eq_ok] at hrecords
    exact ⟨[], by simp [← hrecords], .nil⟩
  | @cons rs posts sets rendered hposts _ ih =>
    rw [List.flatten_cons] at hreports
    have hfirst := (List.forall₂_take_append raws posts rendered.flatten hreports.flip).flip
    have hrest := (List.forall₂_drop_append raws posts rendered.flatten hreports.flip).flip
    obtain ⟨front, back, hfront, hback, rfl⟩ := (mapM_split posts.length).mp hrecords
    obtain ⟨members, hmembers, -, hvalues, hall⟩ :=
      mapM_mapRecord_of_reports (htypes rs (by simp)) hposts hfirst
    obtain rfl : members = front := Except.ok.inj (hmembers.symm.trans hfront)
    obtain ⟨groups, rfl, hgroups⟩ := ih (fun r hr => htypes r (by simp [hr])) hrest hback
    exact ⟨members :: groups, by simp, .cons ⟨hall, hvalues⟩ hgroups⟩

variable {groups : List (List CloudflareRecord)}

/-- The records of a set among those of a batch. -/
theorem filter_groups {R : ProviderDnsRecordSet → List CloudflareRecord → Prop}
    (hgroups : List.Forall₂
      (fun rs members => (∀ record ∈ members, recordKey zone record = .ok rs.key) ∧ R rs members)
      sets groups) (hnodup : (sets.map fun rs => rs.key).Nodup) :
    (∀ record ∈ groups.flatten, ∃ rs ∈ sets, recordKey zone record = .ok rs.key) ∧
      ∀ rs ∈ sets,
        R rs (groups.flatten.filter fun r => (recordKey zone r).toOption = some rs.key) := by
  induction hgroups with
  | nil => simp
  | @cons rs members sets groups hgroup _ ih =>
    rw [List.map_cons, List.nodup_cons] at hnodup
    obtain ⟨hkeys, hall⟩ := ih hnodup.2
    have hnew : ∀ r ∈ sets, r.key ≠ rs.key := by
      intro r hr he
      exact hnodup.1 (List.mem_map.mpr ⟨r, hr, he⟩)
    refine ⟨?_, ?_⟩
    · intro record hr
      rcases List.mem_append.mp hr with hr | hr
      · exact ⟨rs, by simp, hgroup.1 record hr⟩
      · obtain ⟨r, hrs, hkey⟩ := hkeys record hr
        exact ⟨r, by simp [hrs], hkey⟩
    · intro r hr
      rw [List.flatten_cons, List.filter_append]
      rcases List.mem_cons.mp hr with rfl | hr
      · have hown : members.filter (fun record =>
            (recordKey zone record).toOption = some r.key) = members := by
          rw [List.filter_eq_self]
          intro record hm
          simp [hgroup.1 record hm]
        have hother : groups.flatten.filter (fun record =>
            (recordKey zone record).toOption = some r.key) = [] := by
          rw [List.filter_eq_nil_iff]
          intro record hm he
          obtain ⟨r', hr', hkey⟩ := hkeys record hm
          rw [decide_eq_true_eq, toOption_eq_some, hkey] at he
          exact hnew r' hr' (Except.ok.inj he)
        rw [hown, hother, List.append_nil]
        exact hgroup.2
      · have hnone : members.filter (fun record =>
            (recordKey zone record).toOption = some r.key) = [] := by
          rw [List.filter_eq_nil_iff]
          intro record hm he
          rw [decide_eq_true_eq, toOption_eq_some, hgroup.1 record hm] at he
          exact hnew r hr (Except.ok.inj he).symm
        rw [hnone, List.nil_append]
        exact hall r hr

variable [Sha256 (List CloudflareRecord)] {observed : List ObservedDnsRecordSet}

/-- What was posted for canonical sets is observed as these sets. -/
theorem observed_of_posted (hcanonical : ∀ rs ∈ sets, Canonical zone rs)
    (hnodup : (sets.map fun rs => rs.key).Nodup)
    (hids : (groups.flatten.map CloudflareRecord.id).Nodup)
    (hgroups : List.Forall₂ (fun rs members => (∀ record ∈ members, PostedFor rs record) ∧
      members.map CloudflareRecord.value = inOrder rs.values) sets groups) :
    ∃ observed, aggregateRecords zone groups.flatten = .ok observed ∧
      ∀ rs, rs ∈ observed.map ObservedDnsRecordSet.recordSet ↔ rs ∈ sets := by
  have hposted : List.Forall₂
      (fun rs members => (∀ record ∈ members, recordKey zone record = .ok rs.key) ∧
        ((∀ record ∈ members, PostedFor rs record) ∧
          members.map CloudflareRecord.value = inOrder rs.values)) sets groups := by
    apply ((List.forall₂_and_left _ _).mpr ⟨hcanonical, hgroups⟩).imp
    rintro rs members ⟨hc, hall, hvalues⟩
    exact ⟨fun record hr => (hall record hr).recordKey hc, hall, hvalues⟩
  obtain ⟨hkeys, hfilter⟩ := filter_groups hposted hnodup
  have hgroup : ∀ rs ∈ sets, ∃ o, aggregateGroup zone rs.key (groupOf zone groups.flatten rs.key) =
      .ok o ∧ o.recordSet = rs := by
    intro rs hrs
    obtain ⟨hall, hvalues⟩ := hfilter rs hrs
    have hperm : (groupOf zone groups.flatten rs.key).Perm
        (groups.flatten.filter fun r => (recordKey zone r).toOption = some rs.key) :=
      List.perm_insertionSort _ _
    apply aggregateGroup_of_posted (hcanonical rs hrs)
    · intro record hr
      exact hall record (hperm.mem_iff.mp hr)
    · rw [← hvalues]
      exact hperm.map _
  have hvalid : ∀ record ∈ groups.flatten, validCloudflareIdentifier record.id = true := by
    intro record hr
    obtain ⟨rs, hrs, hkey⟩ := hkeys record hr
    apply ((hfilter rs hrs).1 record _).id
    rw [List.mem_filter, decide_eq_true_eq, toOption_eq_some]
    exact ⟨hr, hkey⟩
  have hkeyed : Keyed zone groups.flatten := by
    refine ⟨hvalid, hids, ?_⟩
    intro record hr
    obtain ⟨rs, -, hkey⟩ := hkeys record hr
    exact ⟨rs.key, hkey⟩
  obtain ⟨observed, hobserved⟩ := exists_aggregateRecords hkeyed (by
    intro record hr key hkey
    obtain ⟨rs, hrs, hrkey⟩ := hkeys record hr
    obtain rfl : rs.key = key := Except.ok.inj (hrkey.symm.trans hkey)
    exact (hgroup rs hrs).imp fun o h => h.1)
  refine ⟨observed, hobserved, ?_⟩
  intro rs
  rw [List.mem_map]
  constructor
  · rintro ⟨o, ho, rfl⟩
    obtain ⟨first, others, hmembers, hagg⟩ := members_of_mem hobserved ho
    obtain ⟨hin, hkey⟩ := mem_groupOf.mp (hmembers ▸ List.mem_cons_self)
    obtain ⟨rs, hrs, hrkey⟩ := hkeys first hin
    have hsame : rs.key = o.recordSet.key := Except.ok.inj (hrkey.symm.trans hkey)
    obtain ⟨o', ho', hset⟩ := hgroup rs hrs
    rw [hsame, (aggregateRecords_inventory hobserved).2.1 o ho] at ho'
    rwa [Except.ok.inj ho', hset]
  · intro hrs
    obtain ⟨o, ho, hset⟩ := hgroup rs hrs
    exact ⟨o, List.mem_of_find?_eq_some ((find_of_aggregateRecords hobserved).mpr ho), hset⟩

omit [Platform] [Sha256 (List CloudflareRecord)] in
theorem recordTtl_ne (n : Nat) : recordTtl n ≠ .seconds 1 := by
  unfold recordTtl
  split
  · simp
  · simpa using by assumption

omit [Sha256 (List CloudflareRecord)] in
theorem asked_of_cloudflareExtension {record : CloudflareRecord}
    {recordType : ProviderDnsRecordType} {proxy : Option CloudflareProxyOptions}
    {flattening : CloudflareCnameFlattening} {comment : Option String} {tags : Finset String}
    (h : cloudflareExtension record recordType =
      .ok (some (.cloudflare proxy flattening comment tags))) :
    recordType.proxiable = true ∨ recordTtl record.ttl = .automatic ∨ comment ≠ none ∨
      tags ≠ ∅ := by
  simp only [cloudflareExtension, bind_eq_ok, exists_unit] at h
  obtain ⟨-, proxy', -, -, h⟩ := h
  split at h
  · cases h
  · rename_i hno
    cases h
    by_contra hall
    push Not at hall
    obtain ⟨hproxiable, httl, hcomment, htags⟩ := hall
    refine hno ⟨by simpa using hproxiable, ?_, hcomment, htags, ?_⟩
    · intro hone
      exact httl (by rw [hone]; rfl)
    · -- only CNAME records, which can be proxied, have a flattening
      cases recordType <;> first | rfl | cases hproxiable rfl

/-- Whatever is observed asks for something by its extension. -/
theorem Aggregates.reportable {key : DnsRecordSetKey} {first : CloudflareRecord}
    {others : List CloudflareRecord} {o : ObservedDnsRecordSet}
    (h : Aggregates zone key first others o) : Reportable o.recordSet where
  ttl := by
    rw [h.ttl_eq]
    exact recordTtl_ne _
  asked proxy flattening comment tags he := by
    have hext := h.extension_eq
    rw [he] at hext
    rw [h.key_eq, h.ttl_eq]
    exact asked_of_cloudflareExtension hext

theorem validateBatchResult_eq_ok : validateBatchResult zone changes request result = .ok () ↔
    (result.deletes.length = request.deletes.toFinset.card ∧
      (result.deletes.map CloudflareRecord.id).toFinset = request.deletes.toFinset) ∧
    (result.posts.length = request.posts.length ∧
      ∀ record ∈ result.posts, validCloudflareIdentifier record.id = true) ∧
    ∃ observed, aggregateRecords zone result.posts = .ok observed ∧
      sameByKey (observed.map ObservedDnsRecordSet.recordSet) (desiredRecordSets changes) =
        true := by
  simp only [validateBatchResult, bind_eq_ok, exists_unit, require_eq_ok, orElse_eq_ok]

omit [Sha256 (List CloudflareRecord)] in
theorem validate_of_mem_desired (hvalid : validateDnsChanges zone changes = .ok ())
    (hrs : rs ∈ desiredRecordSets changes) : rs.validate zone = .ok () := by
  obtain ⟨change, hc, hd⟩ := exists_change_of_desired hrs
  exact validate_of_desired ((validateDnsChanges_eq_ok.mp hvalid).2.1.valid change hc) hd

omit [Sha256 (List CloudflareRecord)] in
theorem desired_keys_nodup (hvalid : validateDnsChanges zone changes = .ok ()) :
    ((desiredRecordSets changes).map fun rs => rs.key).Nodup :=
  nodup_desired_keys (validateDnsChanges_eq_ok.mp hvalid).2.1.distinct

theorem observed_keys_nodup (h : aggregateRecords zone records = .ok observed) :
    ((observed.map ObservedDnsRecordSet.recordSet).map fun rs => rs.key).Nodup := by
  rw [List.map_map]
  exact keys_of_aggregateRecords h

/-- A result is accepted only if it is observed as the sets that were asked for. -/
theorem observed_of_accepted (hvalid : validateDnsChanges zone changes = .ok ())
    (h : validateBatchResult zone changes request result = .ok ()) :
    ∃ observed, aggregateRecords zone result.posts = .ok observed ∧
      ∀ rs, rs ∈ observed.map ObservedDnsRecordSet.recordSet ↔ rs ∈ desiredRecordSets changes := by
  obtain ⟨-, -, observed, hobserved, hsame⟩ := validateBatchResult_eq_ok.mp h
  exact ⟨observed, hobserved,
    (sameByKey_iff (observed_keys_nodup hobserved) (desired_keys_nodup hvalid)).mp hsame⟩

theorem reportable_of_accepted (hvalid : validateDnsChanges zone changes = .ok ())
    (h : validateBatchResult zone changes request result = .ok ()) :
    ∀ rs ∈ desiredRecordSets changes, Reportable rs := by
  intro rs hrs
  obtain ⟨observed, hobserved, hsets⟩ := observed_of_accepted hvalid h
  obtain ⟨o, ho, rfl⟩ := List.mem_map.mp ((hsets rs).mpr hrs)
  obtain ⟨first, others, -, hagg⟩ := members_of_mem hobserved ho
  exact hagg.reportable

theorem accepted_of_echo (hzone : zone.provider = .cloudflare)
    (hvalid : validateDnsChanges zone changes = .ok ()) (hcarries : CarriesOut changes request)
    (hecho : Echoes request result) (hall : ∀ rs ∈ desiredRecordSets changes, Reportable rs) :
    validateBatchResult zone changes request result = .ok () := by
  have hcanonical : ∀ rs ∈ desiredRecordSets changes, Canonical zone rs := fun rs hrs =>
    ⟨⟨hzone, validate_of_mem_desired hvalid hrs⟩, hall rs hrs⟩
  obtain ⟨rendered, hrendered, hposts, -⟩ := hcarries.posts
  obtain ⟨raws, hreports, hrecords⟩ := hecho.posts
  have hlength : result.posts.length = request.posts.length := by
    rw [hreports.length_eq, (mapM_eq_ok.mp hrecords).length_eq]
  rw [hposts] at hreports
  obtain ⟨groups, hflat, hgroups⟩ := exists_groups
    (fun rs hrs => (hcanonical rs hrs).values.2.2) hrendered hreports hrecords
  obtain ⟨observed, hobserved, hsets⟩ := observed_of_posted hcanonical (desired_keys_nodup hvalid)
    (hflat ▸ hecho.distinct) hgroups
  rw [← hflat] at hobserved
  have hids : (result.deletes.map CloudflareRecord.id).toFinset = request.deletes.toFinset :=
    List.toFinset_eq_of_perm _ _ hecho.deletes
  have hcard : result.deletes.length = request.deletes.toFinset.card := by
    rw [List.toFinset_card_of_nodup hcarries.nodup, ← hecho.deletes.length_eq, List.length_map]
  rw [validateBatchResult_eq_ok]
  refine ⟨⟨hcard, hids⟩, ⟨hlength, (aggregateRecords_eq_ok.mp hobserved).1.ids⟩, observed,
    hobserved, ?_⟩
  exact (sameByKey_iff (observed_keys_nodup hobserved) (desired_keys_nodup hvalid)).mpr hsets

/-- The plan of a batch is exact. The answer of a provider that has performed it passes its check
exactly if every set can be observed as it was asked for, and an answer that amounts to other sets
never does. -/
theorem batch_agreement {current : List ObservedDnsRecordSet} (hzone : zone.provider = .cloudflare)
    (hcurrent : aggregateRecords zone records = .ok current)
    (hvalid : validateDnsChanges zone changes = .ok ())
    (hplan : planBatch current changes = .ok request) :
    (CarriesOut changes request ∧ ∀ id, id ∈ request.deletes ↔
      ∃ change ∈ changes, change.previousRecordSet ≠ none ∧
        ∃ record ∈ records, recordKey zone record = .ok change.key ∧ record.id = id) ∧
    (∀ result, Echoes request result →
      (validateBatchResult zone changes request result = .ok () ↔
        ∀ rs ∈ desiredRecordSets changes, Reportable rs)) ∧
    ∀ result observed, aggregateRecords zone result.posts = .ok observed →
      (observed.map ObservedDnsRecordSet.recordSet).toFinset ≠
        (desiredRecordSets changes).toFinset →
      validateBatchResult zone changes request result ≠ .ok () := by
  have hcarries := carriesOut_of_planBatch hplan
  refine ⟨⟨hcarries, fun id => mem_deletes_iff hcurrent hplan⟩, ?_, ?_⟩
  · intro result hecho
    exact ⟨reportable_of_accepted hvalid, accepted_of_echo hzone hvalid hcarries hecho⟩
  · intro result observed hobserved hne hok
    obtain ⟨observed', hobserved', hsets⟩ := observed_of_accepted hvalid hok
    obtain rfl : observed = observed' := Except.ok.inj (hobserved.symm.trans hobserved')
    exact hne (by ext rs; simpa using hsets rs)

end Checking

section Counterexample

attribute [local instance] asciiPlatform zeroDigest

/-- The creation of a TXT record, without a provider extension. -/
def spfChange (ttl : Nat) : DnsRecordChange :=
  .create (spfSet (.seconds ttl) none).recordSet .mustNotExist

def spfPost (ttl : Nat) : CloudflareBatchRecord :=
  ⟨"TXT", "example.com", ttl, some "\"v=spf1 -all\"", none, none, none, none, none, ∅⟩

theorem renderRecordSet_spf (ttl : Nat) :
    renderRecordSet (spfSet (.seconds ttl) none).recordSet = .ok [spfPost ttl] := by
  have hvalue : renderValue spfValue = .ok (renderedContent "TXT" "\"v=spf1 -all\"") := rfl
  simp [renderRecordSet, spfSet, apexKey, renderExtension, renderTtl, renderRecord, hvalue,
    renderedContent, spfPost, pure, Except.pure]

theorem planBatch_spfChange (ttl : Nat) :
    planBatch [] [spfChange ttl] = .ok ⟨[], [spfPost ttl]⟩ := by
  simp [planBatch, spfChange, BatchPlan.step, renderRecordSet_spf, currentOf, require, pure,
    Except.pure]

/-- The record as it is reported under an id, and what is said to be deleted. -/
theorem echoes_spfPost (ttl : Nat) {id : String} {deletes : List String}
    {deleted : List CloudflareRecord} (hid : validCloudflareIdentifier id = true)
    (hdeleted : (deleted.map CloudflareRecord.id).Perm deletes) :
    Echoes ⟨deletes, [spfPost ttl]⟩ ⟨deleted, [{ spf ttl with id := id }]⟩ where
  deletes := hdeleted
  posts := by
    have hvalue : ({ spfRecord ttl with id := id } : RawRecord).value = .ok spfValue := rfl
    refine ⟨[{ spfRecord ttl with id := id }], .cons ?_ .nil, ?_⟩
    · exact ⟨hid, rfl, rfl, rfl, by simp [spfPost, spfRecord], by simp [spfPost], rfl, rfl,
        by simp [spfPost], rfl, rfl, rfl, by simp [spfRecord], rfl⟩
    · rw [mapM_eq_ok]
      refine .cons ?_ .nil
      rw [RawRecord.mapRecord, hvalue]
      rfl
  distinct := List.nodup_singleton _

/-- A TXT record set with a TTL of one second is valid and can be planned, and the answer of a
Cloudflare that has created it is refused. -/
theorem one_second_refused : validateDnsChanges exampleZone [spfChange 1] = .ok () ∧
      aggregateRecords exampleZone [] = .ok [] ∧
      ∃ request result, planBatch [] [spfChange 1] = .ok request ∧ Echoes request result ∧
        validateBatchResult exampleZone [spfChange 1] request result =
          .error (unknownOutcome "cloudflare_batch_post_result_mismatch") := by
  refine ⟨by decide +kernel, by decide +kernel, _, ⟨[], [spf 1]⟩, planBatch_spfChange 1,
    echoes_spfPost 1 (by decide) (.refl _), ?_⟩
  decide +kernel

/-- The record has had a TTL of ten minutes, and is to have one of five. -/
def spfReplace : DnsRecordChange :=
  .replace (spfSet (.seconds 600) none) (spfSet (.seconds 300) none).recordSet
    (.matchObserved (spfSet (.seconds 600) none).revision)

/-- The replacement deletes the old record, posts the new one, and is accepted. -/
theorem five_minutes_accepted :
    ∃ request result, planBatch [spfSet (.seconds 600) none] [spfReplace] = .ok request ∧
      request.deletes = [(spf 600).id] ∧ Echoes request result ∧
      validateBatchResult exampleZone [spfReplace] request result = .ok () := by
  have hplan : planBatch [spfSet (.seconds 600) none] [spfReplace] =
      .ok ⟨[(spf 600).id], [spfPost 300]⟩ := by
    have hfound : currentOf [spfSet (.seconds 600) none] (spfSet (.seconds 300) none).recordSet.key =
        some (spfSet (.seconds 600) none) := by
      decide +kernel
    have hids : collectDeleteIds (spfSet (.seconds 600) none) ∅ = .ok {(spf 600).id} := by
      decide +kernel
    simp [planBatch, spfReplace, BatchPlan.step, hfound, hids, renderRecordSet_spf, require, pure,
      Except.pure]
  have hecho : Echoes ⟨[(spf 600).id], [spfPost 300]⟩
      ⟨[spf 600], [{ spf 300 with id := "fedcba9876543210fedcba9876543210" }]⟩ :=
    echoes_spfPost 300 (by decide) (.refl _)
  have hagreement := batch_agreement (rfl : exampleZone.provider = .cloudflare)
    (by decide +kernel :
      aggregateRecords exampleZone [spf 600] = .ok [spfSet (.seconds 600) none])
    (by decide +kernel : validateDnsChanges exampleZone [spfReplace] = .ok ()) hplan
  refine ⟨_, _, hplan, rfl, hecho, (hagreement.2.1 _ hecho).mpr fun rs hrs => ?_⟩
  obtain rfl : rs = (spfSet (.seconds 300) none).recordSet := List.mem_singleton.mp hrs
  exact ⟨by decide, by simp [spfSet]⟩

end Counterexample

end EdgionCenter.Cloudflare
