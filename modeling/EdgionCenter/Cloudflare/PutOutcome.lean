import EdgionCenter.Cloud.Acceptance
import EdgionCenter.Cloudflare.Site

/-! What the put handlers answer when Cloudflare does what it is asked. -/
namespace EdgionCenter.Cloudflare

open Fallible Interaction

section Handler

variable [Platform]

/-- The status and the code of an error response. -/
structure ApiError where
  status : Nat
  code : String
  deriving DecidableEq

def mapServiceError : CloudflareDnsAdminError → ApiError
  | .invalidRequest => ⟨400, "invalid_request"⟩
  | .notFound => ⟨404, "not_found"⟩
  | .conflict => ⟨409, "conflict"⟩
  | .unknownOutcome => ⟨503, "unknown_outcome"⟩
  | .unavailable => ⟨503, "service_unavailable"⟩
  | .restartRequired => ⟨409, "pagination_restart_required"⟩
  | .invalidProviderObservation => ⟨503, "invalid_provider_observation"⟩

/-- `matches_scope` with a key. -/
def CloudflareRecordSetDto.matchesKey (dto : CloudflareRecordSetDto)
    (accountId : CloudResourceId) (zoneId : DnsZoneId) (key : CloudflareRecordSetKey) : Bool :=
  dto.matchesScope accountId zoneId && dto.owner = key.owner && dto.recordType = key.recordType

/-- What a result shows is what was asked for. -/
def Shows (accountId : CloudResourceId) (zoneId : DnsZoneId) (key : CloudflareRecordSetKey)
    (request : CloudflareRecordSetPutRequest) (remoteCallerAlias : Option String)
    (desired : ProviderDnsRecordSet) (dto : CloudflareRecordSetDto) : Prop :=
  dto.matchesKey accountId zoneId key = true ∧ dto.ttl.core = desired.ttl ∧
    ((dto.values.mapM CloudflareRecordValueDto.core).toOption.map List.toFinset =
      some desired.values) ∧
    dto.proxy = request.proxy ∧ dto.cnameFlattening = request.cnameFlattening ∧
    dto.comment = request.comment ∧ dto.tags.toFinset = request.tags.toFinset ∧
    dto.control = shownControl remoteCallerAlias

instance {accountId : CloudResourceId} {zoneId : DnsZoneId} {key : CloudflareRecordSetKey}
    {request : CloudflareRecordSetPutRequest} {remoteCallerAlias : Option String}
    {desired : ProviderDnsRecordSet} {dto : CloudflareRecordSetDto} :
    Decidable (Shows accountId zoneId key request remoteCallerAlias desired dto) :=
  inferInstanceAs (Decidable (_ ∧ _))

/-- The end of the handlers: a result that is not what was asked for leaves the outcome unknown. -/
def respond (accountId : CloudResourceId) (zoneId : DnsZoneId) (key : CloudflareRecordSetKey)
    (request : CloudflareRecordSetPutRequest) (remoteCallerAlias : Option String)
    (desired : ProviderDnsRecordSet) :
    Except CloudflareDnsAdminError CloudflareRecordSetDto → Except ApiError CloudflareRecordSetDto
  | .ok dto =>
    if dto.validate = .ok () ∧ Shows accountId zoneId key request remoteCallerAlias desired dto then
      .ok dto
    else .error (mapServiceError .unknownOutcome)
  | .error e => .error (mapServiceError e)

variable [Sha256 (List CloudflareRecord)]

/-- `put_record_set`, and `put_remote_record_set` for the caller of an alias. -/
def putRecordSet (accountId : CloudResourceId) (zoneId : DnsZoneId) (key : CloudflareRecordSetKey)
    (request : CloudflareRecordSetPutRequest) (remoteCallerAlias : Option String)
    (instanceId : Nat) : ServiceRun (Except ApiError CloudflareRecordSetDto) :=
  match request.desiredRecordSet key remoteCallerAlias with
  | .error _ => pure (.error ⟨400, "invalid_request"⟩)
  | .ok desired => do
    let result ← (putRecordSetInner accountId zoneId key request remoteCallerAlias instanceId).run
    return respond accountId zoneId key request remoteCallerAlias desired result

end Handler

section Serving

variable [Platform] {site : Site} {committed committed' : Option CloudflareBatchRequest} {T U : Type}

namespace Site

/-- The run of service code. -/
def serve (site : Site) (p : ServiceIo T) (committed : Option CloudflareBatchRequest) :
    Except CloudflareDnsAdminError T × Option CloudflareBatchRequest :=
  p.run.exec commit site.reply committed

theorem commit_of_quiet {c : ServiceCall} (h : c.mutating = false) (r : c.Reply) :
    commit.step committed c r = committed := by
  cases c with
  | cloudflare c => cases c <;> first | rfl | cases h
  | _ => rfl

variable {p : ServiceIo T}

theorem serve_snd (h : Quiet p) : (site.serve p committed).2 = committed :=
  Only.exec_snd h fun _ r hc => commit_of_quiet hc r

/-- Code that does not call the provider does the same before and after the commit. -/
theorem serve_internal (h : Internal p) {a : T} (hp : site.serve p committed = (.ok a, committed)) :
    site.serve p committed' = (.ok a, committed') := by
  refine Prod.ext ?_ (serve_snd h.quiet)
  rw [← congrArg Prod.fst hp]
  refine Only.exec_fst h ?_ ?_
  · intro s c r hc
    cases c <;> first | rfl | cases hc
  · intro c hc
    cases c <;> first | rfl | cases hc

theorem serve_bind_of_ne {f : T → ServiceIo U} {r : Except CloudflareDnsAdminError U}
    {request : CloudflareBatchRequest} (h : site.serve (p >>= f) none = (r, some request))
    (hp : Quiet p) :
    ∃ a, site.serve p none = (.ok a, none) ∧ site.serve (f a) none = (r, some request) :=
  exec_run_bind_of_ne h (serve_snd hp) (by simp)

/-- The dispatch flag is up once a batch has been committed. -/
theorem exec_track (p : Interaction CloudflareCall CloudflareApiResult T) (dispatched : Bool) :
    ∃ dispatched', (track p dispatched).exec commit site.reply committed =
        (((p.exec apiCommit site.answer committed).1, dispatched'),
          (p.exec apiCommit site.answer committed).2) ∧
      (dispatched = true → dispatched' = true) ∧
      ((p.exec apiCommit site.answer committed).2 ≠ committed → dispatched' = true) := by
  induction p generalizing committed dispatched with
  | ret a => exact ⟨dispatched, rfl, id, fun h => absurd rfl h⟩
  | call c next ih =>
    obtain ⟨d, hd, hup, hne⟩ := @ih (site.answer committed c)
      (apiCommit.step committed c (site.answer committed c)) (dispatched || c.mutating)
    refine ⟨d, hd, ?_, ?_⟩
    · intro h
      exact hup (by simp [h])
    · intro h
      cases hc : c.mutating with
      | true => exact hup (by simp [hc])
      | false =>
        rw [apiCommit_of_reads hc] at hne
        apply hne
        intro he
        apply h
        change ((next (site.answer committed c)).exec apiCommit site.answer
          (apiCommit.step committed c (site.answer committed c))).2 = committed
        rw [apiCommit_of_reads hc]
        exact he

end Site

end Serving

section Outcome

variable [Platform] {site : Site} {accountId : CloudResourceId} {zoneId : DnsZoneId}
  {key : CloudflareRecordSetKey} {request : CloudflareRecordSetPutRequest}
  {remoteCallerAlias : Option String} {zone : DnsZoneRef} {rs : ProviderDnsRecordSet}

/-- What a request asks for can be reported as it is. -/
theorem Desired.canonical (h : Desired request key remoteCallerAlias rs)
    (hprovider : zone.provider = .cloudflare) (hvalid : rs.validate zone = .ok ()) :
    Canonical zone rs := by
  refine ⟨⟨hprovider, hvalid⟩, ?_, ?_⟩
  · intro he
    have hrange := h.ttl_range
    rw [← h.ttl_eq, he] at hrange
    cases hrange
  · intro proxy flattening comment tags hext
    rw [h.extension_eq] at hext
    split at hext
    · rename_i hasks
      cases hext
      rcases hasks with hp | hc | ht | hf
      · exact .inl (by rw [h.key_eq]; exact hp)
      · exact .inr (.inr (.inl hc))
      · exact .inr (.inr (.inr ht))
      · -- only a CNAME is flattened, and it can be proxied
        have hcname : key.recordType = .cname := by
          by_contra hne
          exact hf (h.flattening hne)
        refine .inl ?_
        rw [h.key_eq, CloudflareRecordSetKey.core, hcname]
        rfl
    · cases hext

variable {observed : ObservedDnsRecordSet}

/-- What is shown of an observation of the record set asked for. -/
theorem Desired.shows (h : Desired request key remoteCallerAlias rs) (hlisted : Listed observed)
    (hrs : observed.recordSet = rs) (hzone : observed.zone.providerAccountId = accountId ∧
      observed.zone.zoneId = zoneId) :
    ∃ dto, putResult remoteCallerAlias (.present observed) = .ok dto ∧
      Shows accountId zoneId key request remoteCallerAlias rs dto ∧
      (dto.validate = .ok () ↔ ¬ BareRemote request key remoteCallerAlias) := by
  obtain ⟨ttl, extension, hmap, httl, hext⟩ := hlisted.mapRecord
  have hmapped := h.mapExtension
  rw [← hrs, hext, Except.ok.injEq] at hmapped
  have hcontrol : (recordSetDto observed ttl extension).control = shownControl remoteCallerAlias := by
    rw [← h.control, recordSetDto, hmapped]
  have hvalues : (recordSetDto observed ttl extension).values.mapM CloudflareRecordValueDto.core =
      .ok observed.recordSet.values.sort := core_mapM_mapRecordValue _
  have htags : (recordSetDto observed ttl extension).tags.toFinset = request.tags.toFinset := by
    rw [← h.shownTags, ← toFinset_shown, recordSetDto, hmapped]
  refine ⟨recordSetDto observed ttl extension, ?_, ?_, ?_⟩
  · simp only [putResult, hmap, orElse, ok_bind, bind_eq_ok, exists_unit, require_eq_ok, pure_eq_ok,
      and_true, hcontrol]
    intro callerAlias hin
    rw [Option.mem_def.mp hin]
    rfl
  · refine ⟨?_, httl.trans (by rw [hrs]), ?_, ?_, ?_, ?_, htags, hcontrol⟩
    · simp [CloudflareRecordSetDto.matchesKey, CloudflareRecordSetDto.matchesScope, recordSetDto,
        hzone, hrs, h.key_eq, CloudflareRecordSetKey.core]
    · rw [hvalues, hrs]
      simp [Except.toOption]
    · rw [recordSetDto, hmapped]
    · rw [recordSetDto, hmapped]
    · rw [recordSetDto, hmapped]
  · rw [hlisted.validate_iff_not_bareAutomatic httl hext, hrs,
      h.bareAutomatic_iff (hrs ▸ hlisted.valid)]

theorem desired_of_putChange {previous : Option ObservedDnsRecordSet} {change : DnsRecordChange}
    (h : putChange request rs previous = .ok change) : change.desiredRecordSet = some rs := by
  unfold putChange at h
  split at h
  · cases h
    rfl
  · cases h
  · split at h
    · cases h
      rfl
    · cases h
  · cases h

/-- The record set of a valid change is valid. -/
theorem validate_of_desired {change : DnsRecordChange} (h : change.desiredRecordSet = some rs)
    (hvalid : change.validate zone = .ok ()) : rs.validate zone = .ok () := by
  cases change with
  | create recordSet guard =>
    cases h
    simp only [DnsRecordChange.validate, bind_eq_ok, exists_unit] at hvalid
    exact hvalid.1
  | replace previous desired guard =>
    cases h
    simp only [DnsRecordChange.validate, bind_eq_ok, exists_unit] at hvalid
    exact hvalid.2.1
  | delete previous guard => cases h

variable {instanceId : Nat} {batch : CloudflareBatchRequest}

/-- The result of a write whose authority is still current. -/
def sentResult {T U : Type} (sent : T → Except CloudflareDnsAdminError U) :
    DnsProviderResult T → Except CloudflareDnsAdminError U
  | .error e => .error (mapProviderError e)
  | .ok result => sent result

variable {T U : Type} {authority : RequestAuthority}
  {sent unsent : T → Except CloudflareDnsAdminError U}

/-- The authority that was current before the commit is current after it. -/
theorem Site.serve_finishWrite {outcome : DnsProviderResult T}
    (h : site.serve (requireAuthority authority .unavailable) none = (.ok (), none)) :
    site.serve (finishWrite authority (outcome, true) sent unsent) (some batch) =
      (sentResult sent outcome, some batch) := by
  have hbefore : site.serve (requireAuthority authority .unknownOutcome) none = (.ok (), none) :=
    exec_run_adapt_ok.mpr (exec_run_adapt_ok.mp h)
  have hcurrent : site.serve (requireAuthority authority .unknownOutcome) (some batch) =
      (.ok (), some batch) :=
    serve_internal (internal_requireAuthority _ _) hbefore
  unfold serve at hcurrent ⊢
  rw [finishWrite, if_pos rfl, exec_run_bind, hcurrent]
  cases outcome with
  | error e => rfl
  | ok result => rfl

/-- What a write makes of the outcome of API code that has committed a batch. -/
theorem Site.serve_sent {p : CloudflareIo T} {r : Except CloudflareDnsAdminError U}
    (hauthority : site.serve (requireAuthority authority .unavailable) none = (.ok (), none))
    (h : site.serve (do
      let outcome ← liftM (track p.run false)
      finishWrite authority outcome sent unsent) none = (r, some batch)) :
    ∃ outcome, site.run p none = (outcome, some batch) ∧ r = sentResult sent outcome := by
  obtain ⟨dispatched, htrack, _, hup⟩ :=
    @exec_track _ site none _ p.run false
  unfold serve at h
  rw [exec_run_bind, exec_run_liftM, htrack] at h
  have hstate : (site.run p none).2 = some batch :=
    (serve_snd (internal_finishWrite _ _ _ _).quiet).symm.trans (congrArg Prod.snd h)
  obtain rfl : dispatched = true := by
    apply hup
    intro hnone
    cases hstate.symm.trans hnone
  refine ⟨(site.run p none).1, Prod.ext rfl hstate, ?_⟩
  change site.serve (finishWrite authority ((site.run p none).1, true) sent unsent)
    (site.run p none).2 = _ at h
  rw [hstate, serve_finishWrite hauthority] at h
  exact (congrArg Prod.fst h).symm

/-- The zone that is written to is the one that was asked for. -/
theorem Site.zone_of_observeExactZone {writer : CloudflareDnsSyncWriter}
    {committed committed' : Option CloudflareBatchRequest}
    (h : site.serve (observeExactZone writer accountId zoneId) committed = (.ok zone, committed')) :
    zone.providerAccountId = accountId ∧ zone.zoneId = zoneId := by
  obtain ⟨_, _, _, h⟩ := exec_run_bind_ok.mp h
  obtain ⟨observed, _, _, h⟩ := exec_run_bind_ok.mp h
  obtain ⟨_, _, hcheck, h⟩ := exec_run_bind_ok.mp h
  obtain ⟨rfl, _⟩ := exec_run_pure_ok.mp h
  have hscope := require_eq_ok.mp (exec_run_lift_ok.mp hcheck).1
  exact ⟨hscope.1, hscope.2.1⟩

variable [Sha256 (List CloudflareRecord)]

/-- A put that has committed a batch: the change it applied, and what it makes of the outcome. -/
structure Site.Dispatched (site : Site) (accountId : CloudResourceId) (zoneId : DnsZoneId)
    (remoteCallerAlias : Option String) (rs : ProviderDnsRecordSet) (batch : CloudflareBatchRequest)
    (writer : CloudflareDnsSyncWriter) (zone : DnsZoneRef) (change : DnsRecordChange)
    (r : Except CloudflareDnsAdminError CloudflareRecordSetDto) : Prop where
  account_eq : zone.providerAccountId = accountId
  zone_eq : zone.zoneId = zoneId
  desired : change.desiredRecordSet = some rs
  result : ∃ outcome, site.run (writer.applyRecordChange zone change) none = (outcome, some batch) ∧
    r = sentResult (putResult remoteCallerAlias) outcome

theorem Site.dispatched_of_run {r : Except CloudflareDnsAdminError CloudflareRecordSetDto}
    (hdesired : request.desiredRecordSet key remoteCallerAlias = .ok rs)
    (h : site.serve (putRecordSetInner accountId zoneId key request remoteCallerAlias instanceId)
      none = (r, some batch)) : ∃ writer zone change,
      site.Dispatched accountId zoneId remoteCallerAlias rs batch writer zone change r := by
  obtain ⟨_, _, h⟩ := serve_bind_of_ne h (internal_lift _).quiet
  obtain ⟨⟨writer, authority⟩, _, h⟩ := serve_bind_of_ne h (internal_startWrite _ _).quiet
  obtain ⟨zone, hzone, h⟩ := serve_bind_of_ne h (quiet_observeExactZone _ _ _)
  obtain ⟨_, _, h⟩ := serve_bind_of_ne h (internal_lift _).quiet
  obtain ⟨desired, hok, h⟩ := serve_bind_of_ne h (internal_lift _).quiet
  obtain ⟨previous, _, h⟩ := serve_bind_of_ne h (quiet_provider (reads_observeRecordSet _ _))
  obtain ⟨change, hchange, h⟩ := serve_bind_of_ne h (internal_lift _).quiet
  obtain ⟨_, hauthority, hsent⟩ := serve_bind_of_ne h (internal_requireAuthority _ _).quiet
  obtain rfl : rs = desired := by
    have hd : orElse CloudflareDnsAdminError.invalidRequest
        (request.desiredRecordSet key remoteCallerAlias) = .ok desired := congrArg Prod.fst hok
    rw [hdesired] at hd
    exact Except.ok.inj hd
  refine ⟨writer, zone, change, (zone_of_observeExactZone hzone).1, (zone_of_observeExactZone hzone).2,
    desired_of_putChange (congrArg Prod.fst hchange), ?_⟩
  exact serve_sent hauthority hsent

/-- A put that is dispatched to a Cloudflare that does what it is asked, with no other writer, is
answered with what was asked for exactly when its response can be read and the zone listed again
afterwards, and the request is not for a remote caller that asks for automatic TTL and nothing else. Otherwise the
answer is that the outcome is unknown, although the batch was committed. -/
theorem put_reported_iff {answer : Except ApiError CloudflareRecordSetDto}
    (hdesired : request.desiredRecordSet key remoteCallerAlias = .ok rs)
    (hrun : (putRecordSet accountId zoneId key request remoteCallerAlias instanceId).exec
      Site.commit site.reply none = (answer, some batch)) (hperforms : site.Performs batch) :
    ((∃ dto, answer = .ok dto ∧ Shows accountId zoneId key request remoteCallerAlias rs dto) ↔
      ¬ BareRemote request key remoteCallerAlias ∧ site.Legible batch) ∧
    (¬ (¬ BareRemote request key remoteCallerAlias ∧ site.Legible batch) →
      answer = .error (mapServiceError .unknownOutcome)) := by
  have hd := desired_of_ok hdesired
  obtain ⟨r, hinner, rfl⟩ : ∃ r, site.serve (putRecordSetInner accountId zoneId key request
      remoteCallerAlias instanceId) none = (r, some batch) ∧
        answer = respond accountId zoneId key request remoteCallerAlias rs r := by
    rw [putRecordSet, hdesired] at hrun
    dsimp only at hrun
    rw [exec_bind] at hrun
    have hstate : (site.serve (putRecordSetInner accountId zoneId key request remoteCallerAlias
        instanceId) none).2 = some batch := congrArg Prod.snd hrun
    exact ⟨_, Prod.ext rfl hstate, (congrArg Prod.fst hrun).symm⟩
  obtain ⟨writer, zone, change, hdispatched⟩ := Site.dispatched_of_run hdesired hinner
  obtain ⟨outcome, happly, rfl⟩ := hdispatched.result
  obtain ⟨hvalid, current, hcurrent, hplan, rfl⟩ := Site.run_applyRecordChange happly
  obtain ⟨hprovider, hzoneId⟩ := (Site.read_allRecords.mp hcurrent).1.provider
  have hcanonical : Canonical zone rs := by
    apply hd.canonical hprovider
    exact validate_of_desired hdispatched.desired
      ((validateDnsChanges_eq_ok.mp hvalid).2.1.valid change (by simp))
  have happlied := Site.applied_of_performs hperforms hcanonical hdispatched.desired hcurrent hplan
  by_cases hlegible : site.Legible batch
  · obtain ⟨after, sets, observed, hsets, hmem, hrs, hresult⟩ := happlied.1 hlegible
    have httl : observed.recordSet.ttl.inCloudflareRange = true := by
      rw [hrs, hd.ttl_eq]
      exact hd.ttl_range
    obtain ⟨hlisted, hzone⟩ := listed_of_mem hprovider hzoneId hsets hmem httl
    obtain ⟨dto, hput, hshows, hvalidate⟩ := hd.shows hlisted hrs
      (by rw [hzone]; exact ⟨hdispatched.account_eq, hdispatched.zone_eq⟩)
    rw [hresult, sentResult, hput, respond]
    by_cases hbare : BareRemote request key remoteCallerAlias
    · rw [if_neg (by rw [hvalidate]; simp [hbare])]
      simp [hbare]
    · rw [if_pos ⟨hvalidate.mpr hbare, hshows⟩]
      simp [hbare, hlegible, hshows]
  · obtain ⟨e, he, hcategory⟩ := happlied.2 hlegible
    rw [he, sentResult, mapProviderError, hcategory]
    simp [respond, hlegible]

end Outcome

section Counterexample

attribute [local instance] asciiPlatform zeroDigest

def spfAccount : ProviderAccount where
  metadata := ⟨⟨"account"⟩, "account", none, [], 1, .managed, .retain⟩
  spec := ⟨.cloudflare, some (.cloudflare "fedcba9876543210fedcba9876543210"), .staticSecret ⟨"token"⟩⟩

/-- An empty zone that is to hold one record. -/
def spfSite (record : RawRecord) : Site where
  account := spfAccount
  credential := ⟨utf8Bytes "token", "1"⟩
  zone := ⟨"0123456789abcdef0123456789abcdef", "fedcba9876543210fedcba9876543210", "example.com",
    .full, .active, ∅, none⟩
  stored := []
  deleted := []
  posted := [record]
  after := [record]
  zoneBytes := 512
  pageBytes := fun committed _ => if committed = none then 256 else 768
  batchBytes := 512

theorem legible_spfSite (record : RawRecord) (batch : CloudflareBatchRequest) :
    (spfSite record).Legible batch := by
  refine ⟨?_, ?_, fun n _ _ => ?_⟩ <;>
    simp [spfSite, Site.records, maxResponseBytes, maxInventoryRecords]

def spfKey : CloudflareRecordSetKey := ⟨(spfSet .automatic none).recordSet.key.owner, .txt⟩

def spfPut (ttl : CloudflareRecordTtlDto) : CloudflareRecordSetPutRequest where
  guard := .mustNotExist
  ttl := ttl
  values := [mapRecordValue spfValue]
  proxy := none
  cnameFlattening := .providerDefault
  comment := none
  tags := []

def spfCaller : String := String.ofList (List.replicate 43 'A')

def spfRun (ttl : CloudflareRecordTtlDto) (remoteCallerAlias : Option String) (record : RawRecord) :
    Except ApiError CloudflareRecordSetDto × Option CloudflareBatchRequest :=
  (putRecordSet ⟨"account"⟩ exampleZone.zoneId spfKey (spfPut ttl) remoteCallerAlias 0).exec
    Site.commit (spfSite record).reply none

/-- The batch posts the TXT record and nothing else. -/
def postsSpf (ttl : Nat) (tags : Finset String) (batch : CloudflareBatchRequest) : Bool :=
  batch.deletes = [] && match batch.posts with
    | [⟨kind, name, postTtl, content, none, none, none, none, none, postTags⟩] =>
      kind = "TXT" && name = "example.com" && postTtl = ttl && content = some "\"v=spf1 -all\"" &&
        postTags = tags
    | _ => false

theorem spf_identifier : validCloudflareIdentifier "abcdef0123456789abcdef0123456789" = true := by
  decide

theorem performs_of_postsSpf {ttl : Nat} {tags : List String} {batch : CloudflareBatchRequest}
    (hnodup : tags.Nodup) (h : postsSpf ttl tags.toFinset batch = true) :
    (spfSite { spfRecord ttl with tags := tags }).Performs batch := by
  obtain ⟨deletes, posts⟩ := batch
  simp only [postsSpf, Bool.and_eq_true, decide_eq_true_eq] at h
  obtain ⟨rfl, h⟩ := h
  split at h
  · simp only [Bool.and_eq_true, decide_eq_true_eq] at h
    obtain ⟨⟨⟨⟨rfl, rfl⟩, rfl⟩, rfl⟩, rfl⟩ := h
    refine ⟨List.Perm.nil, .cons ?_ .nil, List.Perm.refl _, List.nodup_singleton _⟩
    exact ⟨spf_identifier, rfl, rfl, rfl, by simp [spfRecord], by simp, rfl, rfl, by simp, rfl, rfl,
      rfl, hnodup, rfl⟩
  · cases h

/-- The answer is that the outcome is unknown, and the batch posts the record. -/
def unknownSpf (ttl : Nat) (tags : Finset String) :
    Except ApiError CloudflareRecordSetDto × Option CloudflareBatchRequest → Bool
  | (.error e, some batch) => e = ⟨503, "unknown_outcome"⟩ && postsSpf ttl tags batch
  | _ => false

/-- The record as it is reported when a remote caller has put it. -/
def spfRemote : RawRecord := { spfRecord 1 with tags := [remoteMarker spfCaller] }

/-- A remote caller's TXT record with automatic TTL is committed, and the answer is that the outcome
is unknown. -/
theorem spf_remote_unknown :
    (∃ desired, (spfPut .automatic).desiredRecordSet spfKey (some spfCaller) = .ok desired) ∧
      ∃ batch, spfRun .automatic (some spfCaller) spfRemote =
          (.error ⟨503, "unknown_outcome"⟩, some batch) ∧
        (spfSite spfRemote).Performs batch := by
  have hdesired : (spfPut .automatic).desiredRecordSet spfKey (some spfCaller) =
      .ok (spfSet .automatic (some (.cloudflare none .providerDefault none
        {remoteMarker spfCaller}))).recordSet := by
    decide +kernel
  have hrun : unknownSpf 1 [remoteMarker spfCaller].toFinset
      (spfRun .automatic (some spfCaller) spfRemote) = true := by
    decide +kernel
  refine ⟨⟨_, hdesired⟩, ?_⟩
  unfold unknownSpf at hrun
  split at hrun
  · rename_i e batch he
    rw [Bool.and_eq_true, decide_eq_true_eq] at hrun
    rw [he, hrun.1]
    exact ⟨batch, rfl, performs_of_postsSpf (List.nodup_singleton _) hrun.2⟩
  · cases hrun

/-- The same record with a TTL in seconds, put by hand. -/
theorem spf_manual_reported : ∃ dto, (spfRun (.seconds 300) none (spfRecord 300)).1 = .ok dto ∧
      Shows ⟨"account"⟩ exampleZone.zoneId spfKey (spfPut (.seconds 300)) none
        (spfSet (.seconds 300) none).recordSet dto := by
  have hdesired : (spfPut (.seconds 300)).desiredRecordSet spfKey none =
      .ok (spfSet (.seconds 300) none).recordSet := by
    decide +kernel
  have hrun : (spfRun (.seconds 300) none (spfRecord 300)).2.any
      (postsSpf 300 ([] : List String).toFinset) = true := by
    decide +kernel
  obtain ⟨batch, hbatch, hposts⟩ := (Option.any_eq_true _ _).mp hrun
  have hanswer : spfRun (.seconds 300) none (spfRecord 300) = (_, some batch) :=
    Prod.ext rfl hbatch
  have hbare : ¬ BareRemote (spfPut (.seconds 300)) spfKey none := by
    rintro ⟨hremote, _⟩
    cases hremote
  rw [hanswer]
  exact (put_reported_iff hdesired hanswer
    (performs_of_postsSpf List.nodup_nil hposts)).1.mpr ⟨hbare, legible_spfSite _ _⟩

end Counterexample

end EdgionCenter.Cloudflare
