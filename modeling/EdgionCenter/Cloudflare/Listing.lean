import EdgionCenter.Cloudflare.RecordSetDto

/-! Listing the record sets of a zone: which observations the admin API can show. -/
namespace EdgionCenter.Cloudflare

open Fallible ProviderDnsRecordSet

inductive CloudflareZoneKind
  | full
  | partialSetup
  | secondary
  | internal
  deriving DecidableEq

inductive CloudflareZoneStatus
  | initializing
  | pending
  | active
  | moved
  deriving DecidableEq

def zoneVisibilityMatchesKind : CloudflareZoneKind → ZoneVisibility → Bool
  | .internal, .privateZone => true
  | .full, .publicZone | .partialSetup, .publicZone | .secondary, .publicZone => true
  | _, _ => false

section Pages

variable [Platform]

structure ObservedCloudflareZone where
  zone : DnsZoneRef
  kind : CloudflareZoneKind
  status : CloudflareZoneStatus
  nameServers : Finset AbsoluteDnsName
  revision : Option DnsRecordRevision

structure CloudflareZoneDto where
  providerAccountId : CloudResourceId
  zoneId : DnsZoneId
  name : AbsoluteDnsName
  kind : CloudflareZoneKind
  status : CloudflareZoneStatus
  visibility : ZoneVisibility
  nameservers : List AbsoluteDnsName
  revision : Option DnsRecordRevision

def mapZone (observed : ObservedCloudflareZone) :
    Except CloudflareDnsAdminError CloudflareZoneDto := do
  orElse .invalidProviderObservation observed.zone.validate
  require (observed.zone.provider = .cloudflare ∧
      validCloudflareIdentifier observed.zone.zoneId.value = true ∧
      observed.nameServers.card ≤ 20 ∧
      zoneVisibilityMatchesKind observed.kind observed.zone.visibility = true)
    .invalidProviderObservation
  orElse .invalidProviderObservation (OpaqueId.validateOptional observed.revision)
  return {
    providerAccountId := observed.zone.providerAccountId
    zoneId := observed.zone.zoneId
    name := observed.zone.apex
    kind := observed.kind
    status := observed.status
    visibility := observed.zone.visibility
    nameservers := inOrder observed.nameServers
    revision := observed.revision }

def CloudflareZoneDto.validate (zone : CloudflareZoneDto) : CoreResult Unit := do
  zone.providerAccountId.validate
  validateCloudflareZoneId zone.zoneId
  OpaqueId.validateOptional zone.revision
  require (zoneVisibilityMatchesKind zone.kind zone.visibility = true)
    (.conflict "Cloudflare zone kind and visibility are inconsistent")
  require (zone.nameservers.length ≤ 20)
    (.conflict "Cloudflare zone nameserver projection exceeds its bound")
  require ((zone.nameservers.map AbsoluteDnsName.value).toFinset.card = zone.nameservers.length)
    (.conflict "Cloudflare zone nameserver projection contains duplicates")

structure CloudflareRecordPageDto where
  items : List CloudflareRecordSetDto
  nextCursor : Option DnsPageToken

def CloudflareRecordSetDto.matchesScope (dto : CloudflareRecordSetDto)
    (accountId : CloudResourceId) (zoneId : DnsZoneId) : Bool :=
  dto.providerAccountId = accountId && dto.zoneId = zoneId

/-- The loop over the items of a page, with the keys it has seen. -/
def validateItems (accountId : CloudResourceId) (zoneId : DnsZoneId) (zone : CloudflareZoneDto) :
    List (String × CloudflareRecordType) → List CloudflareRecordSetDto → CoreResult Unit
  | _, [] => .ok ()
  | keys, record :: records => do
    record.validate
    require (record.matchesScope accountId zoneId = true ∧ record.zoneApex = zone.name ∧
        record.zoneVisibility = zone.visibility ∧ (record.owner.value, record.recordType) ∉ keys)
      (.conflict "Cloudflare RRset page scope is inconsistent")
    validateItems accountId zoneId zone ((record.owner.value, record.recordType) :: keys) records

def CloudflareRecordPageDto.validate (page : CloudflareRecordPageDto) (accountId : CloudResourceId)
    (zoneId : DnsZoneId) (zone : CloudflareZoneDto) (requestedLimit : Nat) : CoreResult Unit := do
  require (1 ≤ requestedLimit ∧ requestedLimit ≤ 100 ∧ page.items.length ≤ requestedLimit)
    (.conflict "Cloudflare RRset page exceeds the requested limit")
  OpaqueId.validateOptional page.nextCursor
  validateItems accountId zoneId zone [] page.items

structure CloudflareRecordPageResult where
  zone : CloudflareZoneDto
  page : CloudflareRecordPageDto

def CloudflareRecordPageResult.validate (result : CloudflareRecordPageResult)
    (accountId : CloudResourceId) (zoneId : DnsZoneId) (requestedLimit : Nat) :
    CoreResult Unit := do
  result.zone.validate
  require (result.zone.providerAccountId = accountId ∧ result.zone.zoneId = zoneId)
    (.conflict "Cloudflare authoritative zone scope is inconsistent")
  result.page.validate accountId zoneId result.zone requestedLimit

/-- What the service makes of an observed zone and one page of its record sets. -/
def recordPage (observed : ObservedCloudflareZone) (sets : List ObservedDnsRecordSet)
    (next : Option DnsPageToken) : Except CloudflareDnsAdminError CloudflareRecordPageResult := do
  let zone ← mapZone observed
  let items ← sets.mapM mapRecord
  return ⟨zone, ⟨items, next⟩⟩

end Pages

section Presentable

variable [Platform] {zone : DnsZoneRef}

/-- Automatic TTL on a type that cannot be proxied, and nothing to show that would ask for a
provider extension. -/
def BareAutomatic (rs : ProviderDnsRecordSet) : Prop :=
  rs.key.recordType.proxiable = false ∧ rs.ttl = .automatic ∧
    ∀ proxy flattening comment tags,
      rs.extension = some (.cloudflare proxy flattening comment tags) →
        comment = none ∧ ∀ tag ∈ tags, isReservedCloudflareRecordTag tag = true

/-- The tags that are left when the reserved ones are hidden. -/
def shownTags (tags : Finset String) : Finset String :=
  tags.filter fun tag => isReservedCloudflareRecordTag tag = false

variable {tags : Finset String}

omit [Platform] in
theorem validCloudflareTags_subset {tags' : Finset String} (hsub : tags' ⊆ tags)
    (h : validCloudflareTags tags = true) : validCloudflareTags tags' = true := by
  simp only [validCloudflareTags, Bool.and_eq_true, decide_eq_true_eq] at h ⊢
  refine ⟨⟨(Finset.card_le_card hsub).trans h.1.1, fun tag ht => h.1.2 tag (hsub ht)⟩, ?_⟩
  have hinj := Finset.card_image_iff.mp h.2
  exact Finset.card_image_iff.mpr (hinj.mono (by exact_mod_cast hsub))

/-- Hiding tags keeps a Cloudflare extension valid. -/
theorem validateCloudflare_shownTags {rs : ProviderDnsRecordSet}
    {proxy : Option CloudflareProxyOptions} {flattening : CloudflareCnameFlattening}
    {comment : Option String}
    (h : rs.validateCloudflare zone proxy flattening comment tags = .ok ()) :
    rs.validateCloudflare zone proxy flattening comment (shownTags tags) = .ok () := by
  have hsub : shownTags tags ⊆ tags := Finset.filter_subset _ _
  simp only [validateCloudflare, bind_eq_ok, exists_unit, require_eq_ok] at h ⊢
  exact ⟨h.1, h.2.1, h.2.2.1, h.2.2.2.1, h.2.2.2.2.1, h.2.2.2.2.2.1, h.2.2.2.2.2.2.1,
    validCloudflareTags_subset hsub h.2.2.2.2.2.2.2⟩

variable {observed : ObservedDnsRecordSet}

/-- An observation of a Cloudflare zone with a TTL Cloudflare has. -/
structure Listed (observed : ObservedDnsRecordSet) : Prop extends
    InCloudflare observed.zone observed.recordSet where
  zoneId : validCloudflareIdentifier observed.zone.zoneId.value = true
  ids_ne : observed.providerObjectIds ≠ ∅
  ids : ∀ id ∈ observed.providerObjectIds, validCloudflareIdentifier id.value = true
  ttl : observed.recordSet.ttl.inCloudflareRange = true

/-- A type that can be proxied has an extension that says whether it is. -/
theorem Listed.proxiable (h : Listed observed)
    (hp : observed.recordSet.key.recordType.proxiable = true) :
    isCloudflareExtension observed.recordSet.extension = true := by
  have hext := h.extension
  unfold validateExtension at hext
  split at hext
  · rename_i he
    rw [he]
    rfl
  · rename_i he
    exact absurd he h.not_route53
  · simp [validatePortable, h.provider, hp] at hext

/-- Every listed observation is projected. -/
theorem Listed.mapRecord (h : Listed observed) :
    ∃ ttl extension, mapRecord observed = .ok (recordSetDto observed ttl extension) ∧
      ttl.core = observed.recordSet.ttl ∧
      mapExtension observed.recordSet.extension = .ok extension := by
  obtain ⟨extension, hext⟩ : ∃ extension,
      mapExtension observed.recordSet.extension = .ok extension := by
    cases he : observed.recordSet.extension with
    | none => exact ⟨_, rfl⟩
    | some extension =>
      cases extension with
      | cloudflare proxy flattening comment tags => exact ⟨_, rfl⟩
      | route53 target policy healthCheck => exact absurd he h.not_route53
  obtain ⟨ttl, httl, hcore⟩ : ∃ ttl, mapTtl observed.recordSet.ttl = .ok ttl ∧
      ttl.core = observed.recordSet.ttl := by
    cases ht : observed.recordSet.ttl with
    | inherited => exact absurd ht h.values.2.1
    | automatic | seconds n => exact ⟨_, rfl, rfl⟩
  refine ⟨ttl, extension, ?_, hcore, hext⟩
  simp only [Cloudflare.mapRecord, bind_eq_ok, exists_unit, orElse_eq_ok, require_eq_ok,
    ObservedDnsRecordSet.validate_eq_ok, pure_eq_ok, httl, hext, Except.ok.injEq]
  exact ⟨h.valid, ⟨h.provider, h.zoneId, h.routing, h.ids_ne, h.ids⟩, h.proxiable, ttl, rfl,
    extension, rfl, rfl⟩

omit [Platform] in
theorem toFinset_shown (tags : Finset String) :
    (splitCloudflareRecordTags tags).1.toFinset = shownTags tags := by
  ext tag
  simp [splitCloudflareRecordTags_fst, shownTags]

variable {ttl : CloudflareRecordTtlDto} {extension : MappedExtension}

theorem zone_recordSetDto (hprovider : observed.zone.provider = .cloudflare) :
    (recordSetDto observed ttl extension).zone = observed.zone := by
  simp only [CloudflareRecordSetDto.zone, recordSetDto, ← hprovider]

/-- Only the extension that is rebuilt can make the projection invalid. -/
theorem Listed.validate_iff (h : Listed observed) (httl : ttl.core = observed.recordSet.ttl) :
    (recordSetDto observed ttl extension).validate = .ok () ↔
      ∃ rebuilt, (recordSetDto observed ttl extension).extension (shownTags extension.tags) =
          .ok rebuilt ∧
        ({ observed.recordSet with extension := rebuilt } : ProviderDnsRecordSet).validate
          observed.zone = .ok () := by
  have hzone : observed.zone.validate = .ok () := by
    have hvalid := h.valid
    simp only [ProviderDnsRecordSet.validate, bind_eq_ok, exists_unit] at hvalid
    exact hvalid.1
  simp only [DnsZoneRef.validate, bind_eq_ok, exists_unit] at hzone
  have hkey : observed.recordSet.key =
      ⟨observed.recordSet.key.owner, observed.recordSet.key.recordType, .simple⟩ := by
    rw [← h.routing]
  have hvalues : observed.recordSet.values.sort.toFinset = observed.recordSet.values :=
    Finset.sort_toFinset _ _
  have hids : observed.providerObjectIds.sort.toFinset = observed.providerObjectIds :=
    Finset.sort_toFinset _ _
  have htags : (shownTags extension.tags).card = (splitCloudflareRecordTags extension.tags).1.length := by
    rw [← toFinset_shown, splitCloudflareRecordTags_fst]
    exact List.toFinset_card_of_nodup ((Finset.sort_nodup _ _).filter _)
  have hcontrol : (recordSetDto observed ttl extension).controlShown = true := by
    unfold CloudflareRecordSetDto.controlShown
    split
    · rename_i hremote
      exact splitCloudflareRecordTags_remote hremote
    · rfl
  have hcore : (recordSetDto observed ttl extension).values.mapM CloudflareRecordValueDto.core =
      .ok observed.recordSet.values.sort := core_mapM_mapRecordValue _
  have hset : ∀ rebuilt,
      (⟨⟨observed.recordSet.key.owner, (mapRecordType observed.recordSet.key.recordType).core,
          .simple⟩, ttl.core, observed.recordSet.values, rebuilt⟩ : ProviderDnsRecordSet) =
        { observed.recordSet with extension := rebuilt } := by
    intro rebuilt
    rw [core_mapRecordType, ← hkey, httl]
  simp only [CloudflareRecordSetDto.validate, bind_eq_ok, exists_unit, require_eq_ok, hcore,
    Except.ok.injEq, exists_eq_left', zone_recordSetDto h.provider, hcontrol, and_true]
  simp only [recordSetDto, toFinset_shown, hset, hids, hvalues, List.length_map, Finset.length_sort,
    htags, true_and]
  constructor
  · rintro ⟨_, _, _, _, _, _, _, hrest⟩
    exact hrest
  · intro hrest
    refine ⟨hzone.1, ?_, OpaqueId.validate_eq _, httl ▸ h.ttl, ?_, h.ids_ne, h.ids, hrest⟩
    · simp [validateCloudflareZoneId, h.zoneId]
    · intro tag ht
      exact (Finset.mem_filter.mp ht).2

/-- Without an extension, what is left to ask is that the TTL is not automatic. -/
theorem Listed.validate_none_iff (h : Listed observed)
    (hp : observed.recordSet.key.recordType.proxiable = false) :
    ({ observed.recordSet with extension := none } : ProviderDnsRecordSet).validate observed.zone =
        .ok () ↔ observed.recordSet.ttl ≠ .automatic := by
  have hcname : observed.recordSet.key.recordType ≠ .cname := by
    intro he
    rw [he] at hp
    cases hp
  rw [validate_withExtension h.valid h.not_alias rfl]
  simp [validateExtension, validatePortable, hp, hcname,
    h.routing]

/-- Hiding the reserved tags of a Cloudflare extension keeps the record set valid. -/
theorem Listed.validate_shownTags (h : Listed observed) {proxy flattening comment tags}
    (hext : observed.recordSet.extension = some (.cloudflare proxy flattening comment tags)) :
    ({ observed.recordSet with
        extension := some (.cloudflare proxy flattening comment (shownTags tags)) } :
      ProviderDnsRecordSet).validate observed.zone = .ok () := by
  rw [validate_withExtension h.valid h.not_alias rfl]
  have hvalid := h.extension
  simp only [validateExtension, hext] at hvalid
  exact validateCloudflare_shownTags hvalid

/-- What a valid Cloudflare extension says about the type of its set. -/
theorem Listed.proxy_isSome (h : Listed observed) {proxy flattening comment tags}
    (hext : observed.recordSet.extension = some (.cloudflare proxy flattening comment tags)) :
    observed.recordSet.key.recordType.proxiable = proxy.isSome ∧
      (flattening ≠ .providerDefault → observed.recordSet.key.recordType = .cname) := by
  have hvalid := h.extension
  simp only [validateExtension, hext, validateCloudflare,
    bind_eq_ok, exists_unit, require_eq_ok] at hvalid
  obtain ⟨⟨_, _, _, hproxy, _⟩, _, _, hflat, _⟩ := hvalid
  refine ⟨hproxy, ?_⟩
  intro hne
  by_contra hc
  exact hne (hflat hc)

/-- A record set without an extension was valid without one. -/
theorem Listed.not_asks_of_none (h : Listed observed) (he : observed.recordSet.extension = none) :
    observed.recordSet.key.recordType.proxiable = false ∧
      observed.recordSet.ttl ≠ .automatic := by
  have hp : observed.recordSet.key.recordType.proxiable = false := by
    rw [← Bool.not_eq_true]
    intro hp
    simpa [he, isCloudflareExtension] using h.proxiable hp
  refine ⟨hp, ?_⟩
  rw [← h.validate_none_iff hp, ← he]
  exact h.valid

/-- Bare automatic TTL, in terms of what is shown. -/
theorem Listed.bareAutomatic_iff (h : Listed observed) (ttl : CloudflareRecordTtlDto)
    (hext : mapExtension observed.recordSet.extension = .ok extension) :
    BareAutomatic observed.recordSet ↔
      ¬ (recordSetDto observed ttl extension).AsksExtension (shownTags extension.tags) ∧
        observed.recordSet.ttl = .automatic := by
  cases he : observed.recordSet.extension with
  | none =>
    obtain ⟨_, hauto⟩ := h.not_asks_of_none he
    constructor
    · intro hbare
      exact absurd hbare.2.1 hauto
    · intro hbare
      exact absurd hbare.2 hauto
  | some e =>
    cases e with
    | route53 target policy healthCheck => exact absurd he h.not_route53
    | cloudflare proxy flattening comment tags =>
      rw [he] at hext
      cases hext
      have hshown : shownTags tags = ∅ ↔ ∀ tag ∈ tags, isReservedCloudflareRecordTag tag = true := by
        simp [shownTags, Finset.filter_eq_empty_iff]
      simp only [BareAutomatic, CloudflareRecordSetDto.AsksExtension, recordSetDto,
        core_mapRecordType, he, not_or, Bool.not_eq_true, not_not,
        Option.some.injEq, DnsRecordExtension.cloudflare.injEq, and_imp]
      constructor
      · rintro ⟨hp, hauto, hbare⟩
        obtain ⟨rfl, htags⟩ := hbare _ _ _ _ rfl rfl rfl rfl
        refine ⟨⟨hp, rfl, hshown.mpr htags, ?_⟩, hauto⟩
        by_contra hne
        rw [(h.proxy_isSome he).2 hne] at hp
        cases hp
      · rintro ⟨⟨hp, hcomment, htags, _⟩, hauto⟩
        refine ⟨hp, hauto, ?_⟩
        rintro _ _ _ _ rfl rfl rfl rfl
        exact ⟨by simpa using hcomment, hshown.mp htags⟩

/-- Showing an observation fails on automatic TTL alone, and only where nothing shown stands for
the extension that the observation has. -/
theorem Listed.validate_iff_not_bareAutomatic (h : Listed observed)
    (httl : ttl.core = observed.recordSet.ttl)
    (hext : mapExtension observed.recordSet.extension = .ok extension) :
    (recordSetDto observed ttl extension).validate = .ok () ↔
      ¬ BareAutomatic observed.recordSet := by
  rw [h.validate_iff httl, h.bareAutomatic_iff ttl hext]
  by_cases hasks : (recordSetDto observed ttl extension).AsksExtension (shownTags extension.tags)
  · -- the extension is rebuilt with fewer tags
    simp only [CloudflareRecordSetDto.extension_of_asks hasks, Except.ok.injEq, exists_eq_left', hasks, not_true, false_and,
      not_false_eq_true, iff_true]
    cases he : observed.recordSet.extension with
    | none =>
      rw [he] at hext
      cases hext
      simp [CloudflareRecordSetDto.AsksExtension, recordSetDto, (h.not_asks_of_none he).1,
        shownTags] at hasks
    | some e =>
      cases e with
      | route53 target policy healthCheck => exact absurd he h.not_route53
      | cloudflare proxy flattening comment tags =>
        rw [he] at hext
        cases hext
        exact h.validate_shownTags he
  · -- it is dropped
    have hp : observed.recordSet.key.recordType.proxiable = false := by
      rw [← Bool.not_eq_true]
      intro hp
      exact hasks (.inl (by simpa [recordSetDto] using hp))
    have hproxy : extension.proxy = none := by
      cases he : observed.recordSet.extension with
      | none =>
        rw [he] at hext
        cases hext
        rfl
      | some e =>
        cases e with
        | route53 target policy healthCheck => exact absurd he h.not_route53
        | cloudflare proxy flattening comment tags =>
          rw [he] at hext
          cases hext
          have hsome := (h.proxy_isSome he).1
          rw [hp] at hsome
          simpa using hsome.symm
    simp only [CloudflareRecordSetDto.extension_of_not_asks hasks hproxy, exists_eq_left, h.validate_none_iff hp, hasks,
      not_false_eq_true, true_and, ne_eq]

end Presentable

section Page

variable [Platform] {zone : DnsZoneRef} {dto zoneDto : CloudflareZoneDto}
  {observed : ObservedCloudflareZone} {page : List ObservedDnsRecordSet}

theorem validate_of_mapZone (h : mapZone observed = .ok dto) : dto.validate = .ok () := by
  simp only [mapZone, bind_eq_ok, exists_unit, orElse_eq_ok, require_eq_ok, pure_eq_ok,
    DnsZoneRef.validate] at h
  obtain ⟨⟨haccount, _⟩, ⟨_, hid, hcard, hkind⟩, _, rfl⟩ := h
  have hnodup : (observed.nameServers.sort.map AbsoluteDnsName.value).Nodup :=
    (Finset.sort_nodup _ _).map AbsoluteDnsName.value_injective
  simp only [CloudflareZoneDto.validate, bind_eq_ok, exists_unit, require_eq_ok]
  refine ⟨haccount, by simp [validateCloudflareZoneId, hid], OpaqueId.validateOptional_eq _, hkind, ?_, ?_⟩
  · simpa using hcard
  · rw [List.toFinset_card_of_nodup hnodup, List.length_map]

theorem fields_of_mapZone (h : mapZone observed = .ok dto) :
    dto.providerAccountId = observed.zone.providerAccountId ∧ dto.zoneId = observed.zone.zoneId ∧
      dto.name = observed.zone.apex ∧ dto.visibility = observed.zone.visibility := by
  simp only [mapZone, bind_eq_ok, exists_unit, pure_eq_ok] at h
  obtain ⟨_, _, _, rfl⟩ := h
  exact ⟨rfl, rfl, rfl, rfl⟩

/-- What tells the record sets of a page apart. -/
def CloudflareRecordSetDto.pageKey (dto : CloudflareRecordSetDto) : String × CloudflareRecordType :=
  (dto.owner.value, dto.recordType)

variable {items : List CloudflareRecordSetDto}

theorem validateItems_eq_ok {accountId : CloudResourceId} {zoneId : DnsZoneId}
    {keys : List (String × CloudflareRecordType)} :
    validateItems accountId zoneId zoneDto keys items = .ok () ↔
      (∀ dto ∈ items, dto.validate = .ok () ∧ dto.matchesScope accountId zoneId = true ∧
        dto.zoneApex = zoneDto.name ∧ dto.zoneVisibility = zoneDto.visibility ∧
        dto.pageKey ∉ keys) ∧ (items.map CloudflareRecordSetDto.pageKey).Nodup := by
  induction items generalizing keys with
  | nil => simp [validateItems]
  | cons dto items ih =>
    simp only [validateItems, bind_eq_ok, exists_unit, require_eq_ok, ih, List.mem_cons,
      forall_eq_or_imp, List.map_cons, List.nodup_cons]
    change (_ ∧ (_ ∧ _ ∧ _ ∧ dto.pageKey ∉ keys) ∧
      (∀ d ∈ items, _ ∧ _ ∧ _ ∧ _ ∧ ¬ (d.pageKey = dto.pageKey ∨ d.pageKey ∈ keys)) ∧ _) ↔ _
    have hnot : dto.pageKey ∉ items.map CloudflareRecordSetDto.pageKey ↔
        ∀ d ∈ items, d.pageKey ≠ dto.pageKey := by
      simp [eq_comm]
    rw [hnot]
    constructor
    · rintro ⟨hvalid, hscope, hitems, hnodup⟩
      refine ⟨⟨⟨hvalid, hscope⟩, ?_⟩, ?_, hnodup⟩
      · intro d hd
        obtain ⟨h1, h2, h3, h4, h5⟩ := hitems d hd
        exact ⟨h1, h2, h3, h4, fun hm => h5 (.inr hm)⟩
      · intro d hd he
        exact (hitems d hd).2.2.2.2 (.inl he)
    · rintro ⟨⟨⟨hvalid, hscope⟩, hitems⟩, hne, hnodup⟩
      refine ⟨hvalid, hscope, ?_, hnodup⟩
      intro d hd
      obtain ⟨h1, h2, h3, h4, h5⟩ := hitems d hd
      exact ⟨h1, h2, h3, h4, fun hm => hm.elim (hne d hd) h5⟩

/-- A page of one zone with distinct keys is valid when its items are. -/
theorem validate_pageResult_iff {next : Option DnsPageToken} {limit : Nat}
    (hzone : zoneDto.validate = .ok ())
    (hscope : ∀ dto ∈ items, dto.zone = ⟨zoneDto.providerAccountId, .cloudflare, zoneDto.zoneId,
      zoneDto.name, zoneDto.visibility⟩) (hkeys : (items.map CloudflareRecordSetDto.pageKey).Nodup)
    (hlimit : 1 ≤ limit ∧ limit ≤ 100 ∧ items.length ≤ limit) :
    (⟨zoneDto, ⟨items, next⟩⟩ : CloudflareRecordPageResult).validate zoneDto.providerAccountId
      zoneDto.zoneId limit = .ok () ↔ ∀ dto ∈ items, dto.validate = .ok () := by
  simp only [CloudflareRecordPageResult.validate, CloudflareRecordPageDto.validate, bind_eq_ok,
    exists_unit, require_eq_ok, validateItems_eq_ok, OpaqueId.validateOptional_eq, true_and]
  constructor
  · rintro ⟨_, _, hitems, _⟩ dto hd
    exact (hitems dto hd).1
  · intro hitems
    refine ⟨hzone, hlimit, ?_, hkeys⟩
    intro dto hd
    obtain ⟨haccount, _, hid, hapex, hvis⟩ := DnsZoneRef.mk.inj (hscope dto hd)
    exact ⟨hitems dto hd, by simp [CloudflareRecordSetDto.matchesScope, haccount, hid], hapex, hvis,
      by simp⟩

/-- The items of a page of listed observations. -/
theorem items_of_listed (h : ∀ observed ∈ page, Listed observed) :
    ∃ items, page.mapM mapRecord = .ok items ∧
      List.Forall₂ (fun observed dto => dto.zone = observed.zone ∧
        dto.pageKey = (observed.recordSet.key.owner.value,
          mapRecordType observed.recordSet.key.recordType) ∧
        (dto.validate = .ok () ↔ ¬ BareAutomatic observed.recordSet)) page items := by
  induction page with
  | nil => exact ⟨[], rfl, .nil⟩
  | cons observed page ih =>
    have hl := h observed (by simp)
    obtain ⟨ttl, extension, hmap, httl, hext⟩ := hl.mapRecord
    obtain ⟨items, hitems, hall⟩ := ih fun o ho => h o (by simp [ho])
    refine ⟨recordSetDto observed ttl extension :: items, ?_, .cons ⟨?_, rfl, ?_⟩ hall⟩
    · rw [List.mapM_cons, hmap, hitems]
      rfl
    · exact zone_recordSetDto hl.provider
    · exact hl.validate_iff_not_bareAutomatic httl hext

/-- The record sets of one zone have distinct keys on a page. -/
theorem pageKeys_nodup (hrouting : ∀ observed ∈ page, observed.recordSet.key.routing = .simple)
    (hkeys : (page.map fun observed => observed.recordSet.key).Nodup)
    (h : List.Forall₂ (fun observed dto => dto.pageKey = (observed.recordSet.key.owner.value,
      mapRecordType observed.recordSet.key.recordType)) page items) :
    (items.map CloudflareRecordSetDto.pageKey).Nodup := by
  have hmap : items.map CloudflareRecordSetDto.pageKey =
      page.map fun observed => (observed.recordSet.key.owner.value,
        mapRecordType observed.recordSet.key.recordType) := by
    clear hkeys hrouting
    induction h with
    | nil => rfl
    | cons he _ ih => simp [he, ih]
  rw [hmap]
  apply List.Nodup.map_on _ (List.Nodup.of_map _ hkeys)
  intro o ho o' ho' he
  apply List.inj_on_of_nodup_map hkeys ho ho'
  obtain ⟨howner, htype⟩ := Prod.mk.inj he
  have hcore := congrArg CloudflareRecordType.core htype
  rw [core_mapRecordType, core_mapRecordType] at hcore
  exact DnsRecordSetKey.ext_of_simple (hrouting o ho) (hrouting o' ho') howner hcore

variable [Sha256 (List CloudflareRecord)] {records : List CloudflareRecord}
  {sets : List ObservedDnsRecordSet}

theorem listed_of_mem (hprovider : zone.provider = .cloudflare)
    (hid : validCloudflareIdentifier zone.zoneId.value = true)
    (h : aggregateRecords zone records = .ok sets) {observed : ObservedDnsRecordSet}
    (hmem : observed ∈ sets) (httl : observed.recordSet.ttl.inCloudflareRange = true) :
    Listed observed ∧ observed.zone = zone := by
  obtain ⟨key, first, others, hagg, hmembers⟩ := aggregates_of_mem h hmem
  have hids : ∀ id ∈ observed.providerObjectIds, validCloudflareIdentifier id.value = true := by
    intro id hin
    have himage := Finset.mem_image_of_mem OpaqueId.value hin
    rw [hagg.ids_eq, List.mem_toFinset] at himage
    obtain ⟨member, hm, he⟩ := List.mem_map.mp himage
    exact he ▸ (hmembers member hm).2.2
  refine ⟨⟨⟨?_, ?_⟩, ?_, ?_, hids, httl⟩, hagg.zone_eq⟩
  · rw [hagg.zone_eq]
    exact hprovider
  · rw [hagg.zone_eq]
    exact hagg.valid
  · rw [hagg.zone_eq]
    exact hid
  · intro he
    have himage := hagg.ids_eq
    rw [he] at himage
    have hin : first.id ∈ ((first :: others).map CloudflareRecord.id).toFinset := by simp
    rw [← himage] at hin
    simp at hin

theorem listed_of_aggregateRecords (hprovider : zone.provider = .cloudflare)
    (hid : validCloudflareIdentifier zone.zoneId.value = true)
    (httl : ∀ record ∈ records, record.ttl = 1 ∨ 30 ≤ record.ttl ∧ record.ttl ≤ 86400)
    (h : aggregateRecords zone records = .ok sets) {observed : ObservedDnsRecordSet}
    (hmem : observed ∈ sets) : Listed observed ∧ observed.zone = zone := by
  apply listed_of_mem hprovider hid h hmem
  obtain ⟨key, first, others, hagg, hmembers⟩ := aggregates_of_mem h hmem
  rw [hagg.ttl_eq, recordTtl]
  rcases httl first (hmembers first (by simp)).1 with ht | ⟨hlow, hhigh⟩
  · simp [ht, DnsTtl.inCloudflareRange]
  · have hne : first.ttl ≠ 1 := by omega
    simp [hne, DnsTtl.inCloudflareRange, hlow, hhigh]

/-- Every observation of an accepted zone is projected, and the projection of a page passes the
checks of the admin API exactly when no set on it has automatic TTL and nothing else to show for a
provider extension. -/
theorem listing_presentable_iff {zone : DnsZoneRef} {records : List CloudflareRecord}
    {sets : List ObservedDnsRecordSet} (hprovider : zone.provider = .cloudflare)
    (hid : validCloudflareIdentifier zone.zoneId.value = true)
    (httl : ∀ record ∈ records, record.ttl = 1 ∨ 30 ≤ record.ttl ∧ record.ttl ≤ 86400)
    (h : aggregateRecords zone records = .ok sets) :
    (∀ observed ∈ sets, ∃ dto, mapRecord observed = .ok dto ∧
      (dto.validate = .ok () ↔ ¬ BareAutomatic observed.recordSet)) ∧
    ∀ (authority : ObservedCloudflareZone) (zoneDto : CloudflareZoneDto)
      (page : List ObservedDnsRecordSet) (next : Option DnsPageToken) (limit : Nat),
      authority.zone = zone → mapZone authority = .ok zoneDto → page.Sublist sets →
      page.length ≤ limit → 1 ≤ limit → limit ≤ 100 →
      ∃ result, recordPage authority page next = .ok result ∧
        (result.validate zone.providerAccountId zone.zoneId limit = .ok () ↔
          ∀ observed ∈ page, ¬ BareAutomatic observed.recordSet) := by
  have hlisted : ∀ observed ∈ sets, Listed observed ∧ observed.zone = zone := by
    intro observed hmem
    exact listed_of_aggregateRecords hprovider hid httl h hmem
  constructor
  · intro observed hmem
    have hl := (hlisted observed hmem).1
    obtain ⟨ttl, extension, hmap, hcore, hext⟩ := hl.mapRecord
    exact ⟨_, hmap, hl.validate_iff_not_bareAutomatic hcore hext⟩
  · intro authority zoneDto page next limit hauth hzone hpage hlen hpos hmax
    obtain ⟨items, hitems, hall⟩ := items_of_listed fun o ho => (hlisted o (hpage.subset ho)).1
    refine ⟨⟨zoneDto, ⟨items, next⟩⟩, ?_, ?_⟩
    · simp only [recordPage, bind_eq_ok, pure_eq_ok]
      exact ⟨zoneDto, hzone, items, hitems, rfl⟩
    · obtain ⟨haccount, hzid, hname, hvis⟩ := fields_of_mapZone hzone
      rw [hauth] at haccount hzid hname hvis
      have hkeys := pageKeys_nodup (fun o ho => (hlisted o (hpage.subset ho)).1.routing)
        ((hpage.map _).nodup (keys_of_aggregateRecords h)) (hall.imp fun _ _ hs => hs.2.1)
      have hscope : ∀ dto ∈ items, dto.zone = ⟨zoneDto.providerAccountId, .cloudflare,
          zoneDto.zoneId, zoneDto.name, zoneDto.visibility⟩ := by
        intro dto hd
        obtain ⟨o, ho, hs⟩ := exists_of_forall₂ hall hd
        rw [hs.1, (hlisted o (hpage.subset ho)).2, haccount, hzid, hname, hvis, ← hprovider]
      have hvalid : (∀ dto ∈ items, dto.validate = .ok ()) ↔
          ∀ observed ∈ page, ¬ BareAutomatic observed.recordSet := by
        clear hitems hpage hlen hkeys hscope
        induction hall with
        | nil => simp
        | cons hs _ ih => simp [hs.2.2, ih]
      rw [← hvalid, ← haccount, ← hzid]
      exact validate_pageResult_iff (validate_of_mapZone hzone) hscope hkeys
        ⟨hpos, hmax, hall.length_eq ▸ hlen⟩

end Page

section Counterexample

attribute [local instance] asciiPlatform

attribute [local instance] zeroDigest

def exampleZone : DnsZoneRef where
  providerAccountId := ⟨"account"⟩
  provider := .cloudflare
  zoneId := ⟨"0123456789abcdef0123456789abcdef", by decide⟩
  apex := ⟨"example.com", by decide⟩
  visibility := .publicZone

/-- A TXT record at the apex, as Cloudflare reports it. -/
def spfRecord (ttl : Nat) : RawRecord where
  id := "abcdef0123456789abcdef0123456789"
  name := "example.com"
  kind := "TXT"
  ttl := ttl
  content := some "\"v=spf1 -all\""
  data := none
  priority := none
  proxied := some false
  proxiable := false
  settings := none
  privateRouting := false
  comment := none
  tags := []
  modifiedOn := none

def spfValue : DnsRecordSetValue := .txt ⟨[⟨utf8Bytes "v=spf1 -all", by decide⟩], by decide⟩

def spf (ttl : Nat) : CloudflareRecord where
  id := "abcdef0123456789abcdef0123456789"
  name := "example.com"
  ttl := ttl
  value := spfValue
  proxied := some false
  proxiable := false
  flattenCname := none
  ipv4Only := false
  ipv6Only := false
  privateRouting := false
  comment := none
  tags := ∅
  modifiedOn := none

def apexKey : DnsRecordSetKey := ⟨⟨"example.com", by decide⟩, .txt, .simple⟩

def spfSet (ttl : DnsTtl) (extension : Option DnsRecordExtension) : ObservedDnsRecordSet where
  zone := exampleZone
  recordSet := ⟨apexKey, ttl, {spfValue}, extension⟩
  providerObjectIds := {⟨"abcdef0123456789abcdef0123456789", by decide⟩}
  revision := ⟨sha256Revision ([] : List CloudflareRecord), validText_sha256Revision _⟩

/-- With automatic TTL the record is observed, and its projection is refused. -/
theorem spf_unpresentable : (spfRecord 1).mapRecord = .ok (spf 1) ∧
      aggregateRecords exampleZone [spf 1] =
        .ok [spfSet .automatic (some (.cloudflare none .providerDefault none ∅))] ∧
      (mapRecord (spfSet .automatic (some (.cloudflare none .providerDefault none ∅)))).map
        CloudflareRecordSetDto.validate =
        .ok (.error
          (.conflict "automatic DNS TTL requires an explicit provider extension")) := by
  refine ⟨?_, ?_, ?_⟩ <;> decide +kernel

/-- With a TTL in seconds it can be shown, alone and on a page. -/
theorem spf_presentable :
    (∃ dto, mapRecord (spfSet (.seconds 300) none) = .ok dto ∧ dto.validate = .ok ()) ∧
      ∃ result, recordPage ⟨exampleZone, .full, .active, ∅, none⟩ [spfSet (.seconds 300) none] none =
          .ok result ∧
        result.validate exampleZone.providerAccountId exampleZone.zoneId 1 = .ok () := by
  have hsets : aggregateRecords exampleZone [spf 300] = .ok [spfSet (.seconds 300) none] := by
    decide +kernel
  have httl : ∀ record ∈ [spf 300], record.ttl = 1 ∨ 30 ≤ record.ttl ∧ record.ttl ≤ 86400 := by
    intro record hr
    obtain rfl := List.mem_singleton.mp hr
    exact .inr ⟨by decide, by decide⟩
  have hseconds : ¬ BareAutomatic (spfSet (.seconds 300) none).recordSet := by
    rintro ⟨_, hauto, _⟩
    cases hauto
  obtain ⟨hrecords, hpages⟩ := listing_presentable_iff rfl (by decide) httl hsets
  constructor
  · obtain ⟨dto, hmap, hvalid⟩ := hrecords _ (List.mem_singleton_self _)
    exact ⟨dto, hmap, hvalid.mpr hseconds⟩
  · have hzone : (mapZone ⟨exampleZone, .full, .active, ∅, none⟩).toOption.isSome := by
      decide +kernel
    obtain ⟨zoneDto, hzone⟩ := Option.isSome_iff_exists.mp hzone
    obtain ⟨result, hresult, hvalid⟩ := hpages _ zoneDto _ none 1 rfl (toOption_eq_some.mp hzone)
      (List.Sublist.refl _) (by decide) (by decide) (by decide)
    exact ⟨result, hresult, hvalid.mpr (List.forall_mem_singleton.mpr hseconds)⟩

end Counterexample

end EdgionCenter.Cloudflare
