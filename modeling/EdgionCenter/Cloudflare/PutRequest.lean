import EdgionCenter.Cloudflare.Listing

/-! The record set that a put request asks for. -/
namespace EdgionCenter.Cloudflare

open Fallible

variable [Platform]

structure CloudflareRecordSetKey where
  owner : DnsOwnerName
  recordType : CloudflareRecordType
  deriving DecidableEq

def CloudflareRecordSetKey.core (key : CloudflareRecordSetKey) : DnsRecordSetKey :=
  ⟨key.owner, key.recordType.core, .simple⟩

inductive CloudflareRecordMutationGuardDto
  | mustNotExist
  | matchRevision (revision : DnsRecordRevision)

structure CloudflareRecordSetPutRequest where
  guard : CloudflareRecordMutationGuardDto
  ttl : CloudflareRecordTtlDto
  values : List CloudflareRecordValueDto
  proxy : Option CloudflareProxyOptions
  cnameFlattening : CloudflareCnameFlattening
  comment : Option String
  tags : List String

/-- The tag that says which caller a record set is written for. -/
def remoteMarker (callerAlias : String) : String := remoteControlTagName ++ ":" ++ callerAlias

namespace CloudflareRecordSetPutRequest

variable (request : CloudflareRecordSetPutRequest) (key : CloudflareRecordSetKey)

def markedTags (remoteCallerAlias : Option String) : Finset String :=
  match remoteCallerAlias with
  | some callerAlias => insert (remoteMarker callerAlias) request.tags.toFinset
  | none => request.tags.toFinset

/-- The checks on the tags. They all fail with the same error. -/
def validTags (remoteCallerAlias : Option String) : Bool :=
  let tags := request.tags.toFinset
  tags.card = request.tags.length && tags.card ≤ (if remoteCallerAlias.isSome then 19 else 20) &&
    decide (∀ tag ∈ tags, validCloudflareTag tag = true ∧ isReservedCloudflareRecordTag tag = false) &&
    (tags.image tagName).card = tags.card

/-- Something in the request asks for a provider extension. -/
def AsksExtension (tags : Finset String) : Prop :=
  key.recordType.core.proxiable = true ∨ request.comment ≠ none ∨ tags ≠ ∅ ∨
    request.cnameFlattening ≠ .providerDefault

instance (tags : Finset String) : Decidable (request.AsksExtension key tags) :=
  inferInstanceAs (Decidable (_ ∨ _))

def recordSetWithRemoteAlias (remoteCallerAlias : Option String) :
    CoreResult ProviderDnsRecordSet := do
  require (key.recordType ≠ .soa) (.conflict "SOA changes require the zone lifecycle contract")
  require (request.values ≠ [] ∧ request.values.length ≤ 100)
    (.conflict "Cloudflare RRset value count is invalid")
  let values ← request.values.mapM CloudflareRecordValueDto.core
  require (values.toFinset.card = request.values.length ∧
      ∀ value ∈ values, value.recordType = key.recordType.core)
    (.conflict "Cloudflare RRset values do not match the path identity")
  require (key.recordType = .cname → values.toFinset.card = 1)
    (.conflict "Cloudflare CNAME RRsets require exactly one value")
  require (request.ttl.core.inCloudflareRange = true)
    (.conflict "Cloudflare RRset TTL is outside the provider range")
  require (key.recordType.core.proxiable = request.proxy.isSome)
    (.conflict "Cloudflare proxy state does not match the record type")
  require (request.proxy = some .proxied → request.ttl = .automatic)
    (.conflict "proxied Cloudflare records require automatic TTL")
  require (key.recordType ≠ .cname → request.cnameFlattening = .providerDefault)
    (.conflict "Cloudflare CNAME flattening applies only to CNAME records")
  require (request.proxy = some .proxied → request.cnameFlattening = .providerDefault)
    (.conflict "proxied Cloudflare CNAME records cannot override flattening")
  require (validCloudflareComment request.comment = true)
    (.conflict "Cloudflare DNS record comment is invalid")
  require (request.validTags remoteCallerAlias = true)
    (.conflict "Cloudflare DNS record tags are invalid")
  let tags := request.markedTags remoteCallerAlias
  let extension :=
    if request.AsksExtension key tags then
      some (.cloudflare request.proxy request.cnameFlattening request.comment tags)
    else none
  return ⟨key.core, request.ttl.core, values.toFinset, extension⟩

def recordSet : CoreResult ProviderDnsRecordSet :=
  request.recordSetWithRemoteAlias key none

def remoteRecordSet (callerAlias : String) : CoreResult ProviderDnsRecordSet := do
  require (validRemoteCallerAlias callerAlias = true)
    (.conflict "Cloudflare remote caller alias is invalid")
  request.recordSetWithRemoteAlias key (some callerAlias)

/-- The record set of an ordinary request, or of one for a remote caller. -/
def desiredRecordSet : Option String → CoreResult ProviderDnsRecordSet
  | some callerAlias => request.remoteRecordSet key callerAlias
  | none => request.recordSet key

end CloudflareRecordSetPutRequest

section Marker

omit [Platform]

variable {callerAlias : String}

theorem splitOnce_remoteMarker (callerAlias : String) :
    splitOnce ':' (remoteMarker callerAlias) = some (remoteControlTagName, callerAlias) := by
  rw [splitOnce_eq_some]
  constructor
  · simp [remoteMarker]
  · decide

theorem isReserved_remoteMarker (callerAlias : String) :
    isReservedCloudflareRecordTag (remoteMarker callerAlias) = true := by
  have hname : startsWith (asciiLower remoteControlTagName) reservedTagPrefix = true := by decide
  rw [isReservedCloudflareRecordTag, splitOnce_remoteMarker]
  exact hname

/-- A tag that is not reserved leaves the marker alone. -/
theorem TagSplit.step_of_unreserved {split : TagSplit} {tag : String}
    (h : isReservedCloudflareRecordTag tag = false) :
    split.step tag = { split with tags := split.tags ++ [tag] } := by
  unfold TagSplit.step
  split
  · simp [h]
  · rename_i name value hsplit
    have hname : startsWith (asciiLower name) reservedTagPrefix = false := by
      simpa [isReservedCloudflareRecordTag, hsplit] using h
    simp [hname]

theorem TagSplit.step_remoteMarker {split : TagSplit}
    (h : validRemoteCallerAlias callerAlias = true) : split.step (remoteMarker callerAlias) =
      { split with
        remoteAlias := some callerAlias
        invalidMarker := split.invalidMarker || split.remoteAlias.isSome } := by
  have hname : startsWith (asciiLower remoteControlTagName) reservedTagPrefix = true := by decide
  unfold TagSplit.step
  rw [splitOnce_remoteMarker]
  simp [hname, h]

/-- Without reserved tags nothing is found out about a caller. -/
theorem TagSplit.control_foldl {tags : List String} {split : TagSplit}
    (h : ∀ tag ∈ tags, isReservedCloudflareRecordTag tag = false) :
    (tags.foldl TagSplit.step split).control = split.control := by
  induction tags generalizing split with
  | nil => rfl
  | cons tag tags ih =>
    rw [List.foldl_cons, ih fun t ht => h t (by simp [ht]),
      TagSplit.step_of_unreserved (h tag (by simp))]
    rfl

theorem control_of_unreserved {tags : Finset String}
    (h : ∀ tag ∈ tags, isReservedCloudflareRecordTag tag = false) :
    (splitCloudflareRecordTags tags).2 = .manual := by
  simp only [splitCloudflareRecordTags]
  rw [TagSplit.control_foldl (by simpa using h)]
  rfl

/-- One marker among tags that are not reserved names the caller. -/
theorem control_of_marker {tags : Finset String}
    (h : ∀ tag ∈ tags, isReservedCloudflareRecordTag tag = false)
    (hc : validRemoteCallerAlias callerAlias = true) :
    (splitCloudflareRecordTags (insert (remoteMarker callerAlias) tags)).2 = .remote callerAlias := by
  have hin : remoteMarker callerAlias ∈ (insert (remoteMarker callerAlias) tags).sort := by simp
  obtain ⟨front, back, hsort⟩ := List.append_of_mem hin
  have hnodup : (front ++ remoteMarker callerAlias :: back).Nodup := hsort ▸ Finset.sort_nodup _ _
  -- the marker is there once, so the tags before and after it are the caller's own
  have hown : ∀ tag, tag ∈ front ∨ tag ∈ back → isReservedCloudflareRecordTag tag = false := by
    intro tag ht
    have hne : tag ≠ remoteMarker callerAlias := by
      rintro rfl
      rw [List.nodup_append] at hnodup
      rcases ht with ht | ht
      · exact hnodup.2.2 _ ht _ (by simp) rfl
      · exact (List.nodup_cons.mp hnodup.2.1).1 ht
    have hmem : tag ∈ (insert (remoteMarker callerAlias) tags).sort := by
      rw [hsort]
      rcases ht with ht | ht <;> simp [ht]
    rw [Finset.mem_sort, Finset.mem_insert] at hmem
    exact h tag (hmem.resolve_left hne)
  have hfront : ((front.foldl TagSplit.step {}).remoteAlias = none) ∧
      ((front.foldl TagSplit.step {}).invalidMarker = false) := by
    have := @TagSplit.control_foldl front {} fun tag ht => hown tag (.inl ht)
    generalize front.foldl TagSplit.step {} = split at this
    cases split with
    | mk shown remote invalid =>
      cases remote <;> cases invalid <;> simp_all [TagSplit.control]
  simp only [splitCloudflareRecordTags, hsort, List.foldl_append, List.foldl_cons]
  rw [TagSplit.control_foldl fun tag ht => hown tag (.inr ht), TagSplit.step_remoteMarker hc]
  simp [TagSplit.control, hfront]

end Marker

section Desired

open CloudflareRecordSetPutRequest

variable {request : CloudflareRecordSetPutRequest} {key : CloudflareRecordSetKey}
  {remoteCallerAlias : Option String} {rs : ProviderDnsRecordSet} {zone : DnsZoneRef}

/-- What a request and the record set it asks for have to do with each other. -/
structure Desired (request : CloudflareRecordSetPutRequest) (key : CloudflareRecordSetKey)
    (remoteCallerAlias : Option String) (rs : ProviderDnsRecordSet) : Prop where
  key_eq : rs.key = key.core
  ttl_eq : rs.ttl = request.ttl.core
  ttl_range : request.ttl.core.inCloudflareRange = true
  values_eq : ∃ values, request.values.mapM CloudflareRecordValueDto.core = .ok values ∧
    rs.values = values.toFinset
  proxy : key.recordType.core.proxiable = request.proxy.isSome
  flattening : key.recordType ≠ .cname → request.cnameFlattening = .providerDefault
  unreserved : ∀ tag ∈ request.tags.toFinset, isReservedCloudflareRecordTag tag = false
  callerAlias : ∀ callerAlias ∈ remoteCallerAlias, validRemoteCallerAlias callerAlias = true
  extension_eq : rs.extension =
    if request.AsksExtension key (request.markedTags remoteCallerAlias) then
      some (.cloudflare request.proxy request.cnameFlattening request.comment
        (request.markedTags remoteCallerAlias))
    else none

theorem desired_of_ok (h : request.desiredRecordSet key remoteCallerAlias = .ok rs) :
    Desired request key remoteCallerAlias rs := by
  have hparts : (∀ callerAlias ∈ remoteCallerAlias, validRemoteCallerAlias callerAlias = true) ∧
      request.recordSetWithRemoteAlias key remoteCallerAlias = .ok rs := by
    cases remoteCallerAlias with
    | none => exact ⟨by simp, h⟩
    | some callerAlias =>
      simp only [CloudflareRecordSetPutRequest.desiredRecordSet,
        remoteRecordSet, bind_eq_ok, exists_unit, require_eq_ok] at h
      exact ⟨by simpa using h.1, h.2⟩
  obtain ⟨halias, h⟩ := hparts
  simp only [recordSetWithRemoteAlias, bind_eq_ok, exists_unit,
    require_eq_ok, pure_eq_ok] at h
  obtain ⟨_, _, values, hvalues, _, _, hrange, hproxy, _, hflat, _, _, htags, rfl⟩ := h
  simp only [validTags, Bool.and_eq_true, decide_eq_true_eq] at htags
  exact ⟨rfl, rfl, hrange, ⟨values, hvalues, rfl⟩, hproxy, hflat, fun tag ht => (htags.1.2 tag ht).2,
    halias, rfl⟩

/-- What is shown of the extension is what was asked for. -/
theorem Desired.mapExtension (h : Desired request key remoteCallerAlias rs) :
    mapExtension rs.extension = .ok ⟨request.proxy, request.cnameFlattening, request.comment,
      request.markedTags remoteCallerAlias⟩ := by
  rw [h.extension_eq]
  split
  · rfl
  · rename_i hasks
    simp only [AsksExtension, not_or, not_not, Bool.not_eq_true] at hasks
    obtain ⟨hp, hcomment, htags, hflat⟩ := hasks
    have hproxy : request.proxy = none := by
      have := h.proxy
      rw [hp] at this
      simpa using this.symm
    rw [hproxy, hcomment, htags, hflat]
    rfl

/-- The tags that are shown again are those of the request. -/
theorem Desired.shownTags (h : Desired request key remoteCallerAlias rs) :
    shownTags (request.markedTags remoteCallerAlias) = request.tags.toFinset := by
  have hown : Cloudflare.shownTags request.tags.toFinset = request.tags.toFinset :=
    Finset.filter_true_of_mem h.unreserved
  unfold markedTags
  split
  · rw [Cloudflare.shownTags, Finset.filter_insert, isReserved_remoteMarker]
    exact hown
  · exact hown

/-- The caller that is shown. -/
def shownControl : Option String → CloudflareRecordControlDto
  | some callerAlias => .remote callerAlias
  | none => .manual

theorem Desired.control (h : Desired request key remoteCallerAlias rs) :
    (splitCloudflareRecordTags (request.markedTags remoteCallerAlias)).2 =
      shownControl remoteCallerAlias := by
  cases remoteCallerAlias with
  | none => exact control_of_unreserved h.unreserved
  | some callerAlias => exact control_of_marker h.unreserved (h.callerAlias callerAlias rfl)

/-- A request for a remote caller that asks for nothing but automatic TTL, on a type that cannot be
proxied. -/
def BareRemote (request : CloudflareRecordSetPutRequest) (key : CloudflareRecordSetKey)
    (remoteCallerAlias : Option String) : Prop :=
  remoteCallerAlias.isSome = true ∧ key.recordType.core.proxiable = false ∧
    request.ttl = .automatic ∧ request.comment = none ∧ request.tags = []

theorem Desired.bareAutomatic_iff (h : Desired request key remoteCallerAlias rs)
    (hvalid : rs.validate zone = .ok ()) :
    BareAutomatic rs ↔ BareRemote request key remoteCallerAlias := by
  have hauto : rs.ttl = .automatic ↔ request.ttl = .automatic := by
    rw [h.ttl_eq]
    cases request.ttl <;> simp [CloudflareRecordTtlDto.core]
  have hsome : rs.ttl = .automatic → rs.extension ≠ none := by
    intro ht hx
    simp only [ProviderDnsRecordSet.validate, ProviderDnsRecordSet.validateExtension, hx,
      ProviderDnsRecordSet.validatePortable, bind_eq_ok, exists_unit, require_eq_ok] at hvalid
    exact hvalid.2.2.2.2.2.2.2.1 ht
  have hext := h.extension_eq
  have htype : rs.key.recordType = key.recordType.core := by
    rw [h.key_eq]
    rfl
  rw [BareAutomatic, BareRemote, htype, hauto]
  constructor
  · rintro ⟨hp, ht, hbare⟩
    have hx := hsome (hauto.mpr ht)
    by_cases hasks : request.AsksExtension key (request.markedTags remoteCallerAlias)
    · rw [if_pos hasks] at hext
      obtain ⟨hcomment, htags⟩ := hbare _ _ _ _ hext
      have hempty : request.tags = [] := by
        apply List.eq_nil_iff_forall_not_mem.mpr
        intro tag hin
        have hres : tag ∈ request.markedTags remoteCallerAlias := by
          unfold markedTags
          split <;> simp [hin]
        have hfalse := h.unreserved tag (by simpa using hin)
        rw [htags tag hres] at hfalse
        cases hfalse
      refine ⟨?_, hp, ht, hcomment, hempty⟩
      cases remoteCallerAlias with
      | some callerAlias => rfl
      | none =>
        have hcname : key.recordType ≠ .cname := by
          intro he
          rw [he] at hp
          cases hp
        simp [AsksExtension, hp, hcomment, hempty,
          markedTags, h.flattening hcname] at hasks
    · rw [if_neg hasks] at hext
      exact absurd hext hx
  · rintro ⟨hremote, hp, ht, hcomment, hempty⟩
    refine ⟨hp, ht, ?_⟩
    intro proxy flattening comment tags hx
    obtain ⟨callerAlias, rfl⟩ := Option.isSome_iff_exists.mp hremote
    rw [hext] at hx
    split at hx
    · cases hx
      refine ⟨hcomment, ?_⟩
      intro tag ht
      simp only [markedTags, hempty, List.toFinset_nil,
        Finset.mem_insert, Finset.notMem_empty, or_false] at ht
      rw [ht]
      exact isReserved_remoteMarker callerAlias
    · cases hx

end Desired

end EdgionCenter.Cloudflare
