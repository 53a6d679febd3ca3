import EdgionCenter.Cloudflare.Commit
import EdgionCenter.Cloudflare.WriteService

/-! A Cloudflare that does what it is asked, and what the writer makes of it. -/
namespace EdgionCenter.Cloudflare

open CloudflareDnsSyncWriter Fallible Interaction

variable [Platform]

section Http

/-- `MAX_RESPONSE_BYTES`. -/
def maxResponseBytes : Nat := 16 * 1024 * 1024

/-- `unknown` and `transient` of the HTTP layer. -/
def unknown (code : String) : NormalizedProviderError :=
  ⟨.unknownOutcome, code, "Cloudflare API request failed", none, none⟩

def transient (code : String) : NormalizedProviderError :=
  ⟨.transient, code, "Cloudflare API request failed", none, none⟩

/-- `decode_response`: a response that is too long is not read to its end. -/
def decodeResponse {T : Type} (fail : String → NormalizedProviderError) (bytes : Nat)
    (body : DnsProviderResult T) : DnsProviderResult T := do
  require (bytes ≤ maxResponseBytes) (fail "cloudflare_response_too_large")
  body

/-- How many pages a list of the given length has. -/
def pageCount (length perPage : Nat) : Nat := (length + perPage - 1) / perPage

/-- `list_records` of the HTTP client for a zone with the given records. -/
def decodePage (raws : List RawRecord) (page perPage : Nat) :
    DnsProviderResult (CloudflarePage CloudflareRecord) := do
  let items ← ((raws.drop ((page - 1) * perPage)).take perPage).mapM RawRecord.mapRecord
  return ⟨items, page, pageCount raws.length perPage⟩

/-- `batch_records` of the HTTP client for a response with the given sections. -/
def decodeBatch (deletes posts : List RawRecord) : DnsProviderResult CloudflareBatchResult := do
  let deletes ← orElse (unknown "cloudflare_batch_delete_result_invalid")
    (deletes.mapM RawRecord.mapRecord)
  let posts ← orElse (unknown "cloudflare_batch_post_result_invalid")
    (posts.mapM RawRecord.mapRecord)
  return ⟨deletes, posts⟩

end Http

section Site

/-- An account that does not change, and the zone of a Cloudflare that has no other writer: the
records it holds before and after a batch, those it names in its response, and how long the responses
are. -/
structure Site where
  account : ProviderAccount
  credential : ResolvedCredential
  zone : CloudflareZone
  stored : List RawRecord
  deleted : List RawRecord
  posted : List RawRecord
  after : List RawRecord
  zoneBytes : Nat
  pageBytes : Option CloudflareBatchRequest → Nat → Nat
  batchBytes : Nat

namespace Site

variable (site : Site)

/-- The zone's records, by the batch that has been committed. -/
def records : Option CloudflareBatchRequest → List RawRecord
  | none => site.stored
  | some _ => site.after

/-- What Cloudflare answers. Of the requests that change something only batches are answered. -/
def answer (committed : Option CloudflareBatchRequest) : (c : CloudflareCall) → CloudflareApiResult c
  | .getZone zoneId => decodeResponse transient site.zoneBytes
      (.ok (if zoneId = site.zone.id then some site.zone else none))
  | .listRecords _ page perPage => decodeResponse transient (site.pageBytes committed page)
      (decodePage (site.records committed) page perPage)
  | .batchRecords _ _ => decodeResponse unknown site.batchBytes
      (decodeBatch site.deleted site.posted)
  | .createZone _ => .error (validation "not_served")
  | .deleteZone _ => .error (validation "not_served")
  | .getDnssec _ => .ok none
  | .patchDnssec _ _ => .error (validation "not_served")
  | .listZones _ page _ => .ok ⟨[site.zone], page, 1⟩

def reply (committed : Option CloudflareBatchRequest) : (c : ServiceCall) → c.Reply
  | .acquireAccount _ => some ()
  | .acquireGlobal => some ()
  | .buildApi _ => some ()
  | .getAccount accountId =>
    some (if accountId = site.account.metadata.id then some site.account else none)
  | .resolveCredential _ _ => some site.credential
  | .cloudflare c => site.answer committed c

/-- The batch that has been committed. -/
def commit : Monitor ServiceCall ServiceCall.Reply (Option CloudflareBatchRequest) where
  step committed c _ := match c with
    | .cloudflare (.batchRecords _ request) => some request
    | _ => committed
  guard _ _ := True
  rely _ _ _ := True

/-- The batch is performed as it stands, and every record that was posted is reported. -/
structure Performs (request : CloudflareBatchRequest) : Prop where
  deleted : site.deleted.Perm (site.stored.filter fun raw => raw.id ∈ request.deletes)
  posted : List.Forall₂ Reports request.posts site.posted
  after : site.after.Perm ((site.stored.filter fun raw => raw.id ∉ request.deletes) ++ site.posted)
  fresh : (site.after.map RawRecord.id).Nodup

/-- The responses from a page on to the last one are short enough. -/
def Fits (committed : Option CloudflareBatchRequest) (page : Nat) : Prop :=
  ∀ n, page ≤ n → n ≤ max 1 (pageCount (site.records committed).length providerPageSize) →
    site.pageBytes committed n ≤ maxResponseBytes

/-- The inventory can be listed. -/
def Lists (committed : Option CloudflareBatchRequest) : Prop :=
  (site.records committed).length ≤ maxInventoryRecords ∧ site.Fits committed 1

/-- The response to the batch can be read, and the zone be listed after it. -/
def Legible (request : CloudflareBatchRequest) : Prop :=
  site.batchBytes ≤ maxResponseBytes ∧ site.Lists (some request)

end Site

end Site

section Reading

variable {site : Site} {committed : Option CloudflareBatchRequest} {T U : Type}

namespace Site

/-- `commit` for the calls of the API alone. -/
def apiCommit : Monitor CloudflareCall CloudflareApiResult (Option CloudflareBatchRequest) :=
  commit.comap ServiceCall.cloudflare

/-- The run of API code. -/
def run (site : Site) (p : CloudflareIo T) (committed : Option CloudflareBatchRequest) :
    DnsProviderResult T × Option CloudflareBatchRequest :=
  p.run.exec apiCommit site.answer committed

/-- What API code returns. -/
def read (site : Site) (p : CloudflareIo T) (committed : Option CloudflareBatchRequest) :
    DnsProviderResult T :=
  (site.run p committed).1

theorem apiCommit_of_reads {c : CloudflareCall} (h : c.mutating = false)
    (r : CloudflareApiResult c) : apiCommit.step committed c r = committed := by
  cases c <;> first | rfl | cases h

variable {p : CloudflareIo T}

theorem run_of_reads (h : Reads p) : site.run p committed = (site.read p committed, committed) :=
  Prod.ext rfl (Only.exec_snd h fun _ r hc => apiCommit_of_reads hc r)

theorem read_bind (h : Reads p) (f : T → CloudflareIo U) : site.read (p >>= f) committed =
      (site.read p committed >>= fun a => site.read (f a) committed) := by
  have hp : site.run p committed = _ := run_of_reads h
  unfold run at hp
  rw [read, run, exec_run_bind, hp]
  cases site.read p committed <;> rfl

@[simp] theorem read_lift (x : DnsProviderResult T) : site.read (liftM x) committed = x := rfl

@[simp] theorem read_pure (a : T) : site.read (pure a) committed = .ok a := rfl

@[simp] theorem read_adapt (p : CloudflareIo T) (f : NormalizedProviderError → NormalizedProviderError) :
    site.read (p.adapt f) committed = (site.read p committed).mapError f := by
  rw [read, run, exec_run_adapt]
  rfl

@[simp] theorem read_api (c : CloudflareCall) :
    site.read (api c) committed = site.answer committed c := rfl

end Site

@[simp] theorem Site.read_lift_bind (x : DnsProviderResult T) (f : T → CloudflareIo U) :
    site.read (liftM x >>= f) committed = (x >>= fun a => site.read (f a) committed) :=
  read_bind (reads_lift x) f

theorem Site.read_api_bind {c : CloudflareCall} (h : c.mutating = false)
    (f : c.Reply → CloudflareIo U) : site.read (api c >>= f) committed =
      (site.answer committed c >>= fun a => site.read (f a) committed) :=
  read_bind (reads_api h) f

omit [Platform] in
theorem decodeResponse_eq_ok {fail : String → NormalizedProviderError} {bytes : Nat}
    {body : DnsProviderResult T} {a : T} :
    decodeResponse fail bytes body = .ok a ↔ bytes ≤ maxResponseBytes ∧ body = .ok a := by
  simp only [decodeResponse, bind_eq_ok, exists_unit, require_eq_ok]

variable {zoneId : String} {page : Nat} {expected : Option Nat} {raws : List RawRecord}

theorem Site.read_getZone_bind {u : U} (f : Option CloudflareZone → CloudflareIo U) :
    site.read (bind (α := Option CloudflareZone) (api (.getZone zoneId)) f) committed = .ok u ↔
      site.zoneBytes ≤ maxResponseBytes ∧
        site.read (f (if zoneId = site.zone.id then some site.zone else none)) committed = .ok u := by
  have hreads : Reads (T := Option CloudflareZone) (api (.getZone zoneId)) := reads_api rfl
  rw [read_bind hreads, read_api, bind_eq_ok]
  simp only [answer, decodeResponse_eq_ok, Except.ok.injEq, and_assoc, exists_and_left,
    exists_eq_left']

/-- One more response to read, and the rest if it was not the last. -/
theorem Site.fits_iff (hfirst : 1 ≤ page)
    (hpage : page ≤ max 1 (pageCount (site.records committed).length providerPageSize)) :
    site.Fits committed page ↔ site.pageBytes committed page ≤ maxResponseBytes ∧
      (page < pageCount (site.records committed).length providerPageSize →
        site.Fits committed (page + 1)) := by
  constructor
  · intro h
    exact ⟨h page le_rfl hpage, fun _ n hn => h n (by omega)⟩
  · rintro ⟨hthis, hrest⟩ n hn hlast
    rcases Nat.eq_or_lt_of_le hn with rfl | hlt
    · exact hthis
    · exact hrest (by omega) n hlt hlast

variable {before items records : List CloudflareRecord}

/-- One page of a zone that stays as it is. -/
theorem nextRecords_eq_ok {total : Nat} :
    nextRecords page expected before ⟨items, page, total⟩ = .ok records ↔
      (total = 0 → page = 1 ∧ items = []) ∧ (total ≠ 0 → page ≤ total) ∧
        items.length ≤ providerPageSize ∧ total ≤ maxRecordProviderPages ∧
        (∀ n ∈ expected, n = total) ∧ before.length + items.length ≤ maxInventoryRecords ∧
        before ++ items = records := by
  simp only [nextRecords, validateProviderPage, bind_eq_ok, exists_unit, require_eq_ok, pure_eq_ok,
    true_and, and_assoc]

theorem length_of_mapM (h : raws.mapM RawRecord.mapRecord = .ok items) :
    items.length = raws.length :=
  (mapM_eq_ok.mp h).length_eq.symm

/-- A page of a zone that has few enough records passes the checks. -/
theorem nextRecords_of_decoded {next : List CloudflareRecord}
    (hlength : items.length = min providerPageSize (raws.length - before.length)) (hpage : 1 ≤ page)
    (hbefore : before.length = (page - 1) * providerPageSize)
    (hreached : page = 1 ∨ before.length < raws.length)
    (hexpected : ∀ n ∈ expected, n = pageCount raws.length providerPageSize) :
    nextRecords page expected before ⟨items, page, pageCount raws.length providerPageSize⟩ =
        .ok next ↔
      raws.length ≤ maxInventoryRecords ∧ before ++ items = next := by
  simp only [nextRecords_eq_ok, pageCount, providerPageSize, maxRecordProviderPages,
    maxInventoryRecords] at *
  constructor
  · rintro ⟨_, _, _, htotal, _, _, rfl⟩
    exact ⟨by omega, rfl⟩
  · rintro ⟨hfew, rfl⟩
    refine ⟨?_, by omega, by omega, by omega, hexpected, by omega, rfl⟩
    intro hzero
    exact ⟨by omega, List.eq_nil_of_length_eq_zero (by omega)⟩

/-- The scan from a page on returns the records from there on, as long as they are not too many. -/
theorem Site.read_scanRecords
    {exhausted : List CloudflareRecord → CloudflareIo (List CloudflareRecord)} {remaining : Nat}
    (hremaining : remaining + page = maxRecordProviderPages + 1) (hpage : 1 ≤ page)
    (hlast : page ≤ maxRecordProviderPages)
    (hbefore : before.length = (page - 1) * providerPageSize)
    (hreached : page = 1 ∨ before.length < (site.records committed).length)
    (hexpected : ∀ n ∈ expected, n = pageCount (site.records committed).length providerPageSize) :
    site.read (scanRecords exhausted zoneId remaining page expected before) committed = .ok records ↔
      (site.records committed).length ≤ maxInventoryRecords ∧ site.Fits committed page ∧
        ∃ rest, ((site.records committed).drop before.length).mapM RawRecord.mapRecord = .ok rest ∧
          before ++ rest = records := by
  induction remaining generalizing page expected before with
  | zero => omega
  | succ remaining ih =>
    -- what is left is one page and the rest
    have hsplit : (∃ rest, ((site.records committed).drop before.length).mapM RawRecord.mapRecord =
          .ok rest ∧ before ++ rest = records) ↔ ∃ items,
        (((site.records committed).drop before.length).take providerPageSize).mapM
            RawRecord.mapRecord = .ok items ∧
          ∃ rest, ((site.records committed).drop (before.length + providerPageSize)).mapM
            RawRecord.mapRecord = .ok rest ∧ before ++ (items ++ rest) = records := by
      constructor
      · rintro ⟨_, hall, rfl⟩
        obtain ⟨items, rest, hitems, hrest, rfl⟩ := (mapM_split providerPageSize).mp hall
        rw [List.drop_drop] at hrest
        exact ⟨items, hitems, rest, hrest, rfl⟩
      · rintro ⟨items, hitems, rest, hrest, rfl⟩
        rw [← List.drop_drop] at hrest
        exact ⟨_, (mapM_split providerPageSize).mpr ⟨items, rest, hitems, hrest, rfl⟩, rfl⟩
    have hexists : page ≤ max 1 (pageCount (site.records committed).length providerPageSize) := by
      simp only [pageCount, providerPageSize] at *
      omega
    rw [hsplit, fits_iff hpage hexists, scanRecords, read_api_bind rfl]
    simp only [read_lift_bind, answer, decodePage, bind_eq_ok, decodeResponse_eq_ok, pure_eq_ok,
      ← hbefore]
    generalize hraws : site.records committed = raws at *
    have hstep : ∀ items : List CloudflareRecord,
        ((raws.drop before.length).take providerPageSize).mapM RawRecord.mapRecord = .ok items →
        ((∃ next, nextRecords page expected before ⟨items, page,
              pageCount raws.length providerPageSize⟩ = .ok next ∧
            site.read (if pageCount raws.length providerPageSize ≤ page then pure next else
              scanRecords exhausted zoneId remaining (page + 1)
                (some (pageCount raws.length providerPageSize)) next) committed = .ok records) ↔
          raws.length ≤ maxInventoryRecords ∧
            (page < pageCount raws.length providerPageSize → site.Fits committed (page + 1)) ∧
            ∃ rest, (raws.drop (before.length + providerPageSize)).mapM RawRecord.mapRecord =
              .ok rest ∧ before ++ (items ++ rest) = records) := by
      intro items hitems
      have hlength : items.length = min providerPageSize (raws.length - before.length) := by
        rw [length_of_mapM hitems, List.length_take, List.length_drop]
      simp only [nextRecords_of_decoded hlength hpage hbefore hreached hexpected, and_assoc,
        exists_and_left, exists_eq_left', and_congr_right_iff]
      intro hfew
      by_cases hdone : pageCount raws.length providerPageSize ≤ page
      · -- this was the last page
        rw [if_pos hdone, read_pure]
        have hnil : raws.drop (before.length + providerPageSize) = [] := by
          simp only [pageCount, providerPageSize] at *
          exact List.drop_eq_nil_of_le (by omega)
        simp [hnil, Nat.not_lt.mpr hdone]
      · have hlater := Nat.lt_of_not_le hdone
        rw [if_neg hdone]
        simp only [pageCount, providerPageSize, maxRecordProviderPages, maxInventoryRecords] at *
        have hnext : (before ++ items).length = before.length + 5000 := by
          rw [List.length_append]
          omega
        rw [ih (by omega) (by omega) (by omega) (by omega) (by omega) (by simp), hnext]
        simp only [hfew, hlater, true_and, forall_const, List.append_assoc]
    constructor
    · rintro ⟨_, ⟨hbytes, items, hitems, rfl⟩, hrest⟩
      obtain ⟨hfew, hfits, hrest⟩ := (hstep items hitems).mp hrest
      exact ⟨hfew, ⟨hbytes, hfits⟩, items, hitems, hrest⟩
    · rintro ⟨hfew, ⟨hbytes, hfits⟩, items, hitems, hrest⟩
      exact ⟨_, ⟨hbytes, items, hitems, rfl⟩, (hstep items hitems).mpr ⟨hfew, hfits, hrest⟩⟩

theorem Site.read_listAllRecords : site.read (listAllRecords zoneId) committed = .ok records ↔
      site.Lists committed ∧ (site.records committed).mapM RawRecord.mapRecord = .ok records := by
  rw [listAllRecords, read_scanRecords rfl le_rfl (by decide) (by simp) (.inl rfl) (by simp)]
  simp [Lists, and_assoc]

variable {writer : CloudflareDnsSyncWriter} {zone : DnsZoneRef}

/-- The zone is the one the writer finds under its id. -/
def Site.Serves (site : Site) (writer : CloudflareDnsSyncWriter) (zone : DnsZoneRef) : Prop :=
  writer.validateZoneRef zone = .ok () ∧ zone.zoneId.value = site.zone.id ∧
    site.zoneBytes ≤ maxResponseBytes ∧ ∃ observed, mapZoneForAccount writer.centerAccountId writer.cloudflareAccountId site.zone =
      .ok observed ∧ observed.zone = zone

theorem Site.Serves.provider (h : site.Serves writer zone) :
    zone.provider = .cloudflare ∧ validCloudflareIdentifier zone.zoneId.value = true := by
  have hvalid := h.1
  simp only [validateZoneRef, bind_eq_ok, exists_unit, require_eq_ok] at hvalid
  exact ⟨hvalid.2.1, hvalid.2.2.2.2⟩

variable [Sha256 (List CloudflareRecord)]

theorem Site.read_allRecords {sets : List ObservedDnsRecordSet} :
    site.read (writer.allRecords zone) committed = .ok sets ↔
      site.Serves writer zone ∧ site.Lists committed ∧
        ∃ records, (site.records committed).mapM RawRecord.mapRecord = .ok records ∧
          aggregateRecords zone records = .ok sets := by
  rw [allRecords]
  simp only [read_lift_bind, read_getZone_bind, read_bind (reads_listAllRecords _), read_lift,
    bind_eq_ok, exists_unit, require_eq_ok, read_listAllRecords, Serves]
  by_cases hid : zone.zoneId.value = site.zone.id
  · simp only [hid, if_true, found, Except.ok.injEq, exists_eq_left']
    constructor
    · rintro ⟨hvalid, hbytes, observed, hmap, hzone, records, ⟨hlists, hdecode⟩, hsets⟩
      exact ⟨⟨hvalid, trivial, hbytes, observed, hmap, hzone⟩, hlists, records, hdecode, hsets⟩
    · rintro ⟨⟨hvalid, _, hbytes, observed, hmap, hzone⟩, hlists, records, hdecode, hsets⟩
      exact ⟨hvalid, hbytes, observed, hmap, hzone, records, ⟨hlists, hdecode⟩, hsets⟩
  · simp [hid, found]

theorem Site.read_observeRecordSet {key : DnsRecordSetKey} {found : Option ObservedDnsRecordSet} :
    site.read (writer.observeRecordSet zone key) committed = .ok found ↔
      key.validate = .ok () ∧ ∃ sets, site.read (writer.allRecords zone) committed = .ok sets ∧
        sets.find? (fun record => record.recordSet.key = key) = found := by
  rw [observeRecordSet]
  simp only [read_lift_bind, read_bind (reads_allRecords _), read_pure, bind_eq_ok, exists_unit,
    orElse_eq_ok, Except.ok.injEq]

end Reading

section Decoding

variable {raws raws' : List RawRecord} {records : List CloudflareRecord}

theorem id_of_mapRecord {raw : RawRecord} {record : CloudflareRecord}
    (h : raw.mapRecord = .ok record) : record.id = raw.id := by
  simp only [RawRecord.mapRecord, bind_eq_ok, exists_unit, pure_eq_ok] at h
  obtain ⟨_, _, _, rfl⟩ := h
  rfl

theorem mapM_mapRecord_filter (keep : String → Bool)
    (h : raws.mapM RawRecord.mapRecord = .ok records) :
    (raws.filter fun raw => keep raw.id).mapM RawRecord.mapRecord =
      .ok (records.filter fun record => keep record.id) := by
  rw [mapM_eq_ok] at h ⊢
  induction h with
  | nil => exact .nil
  | @cons raw record raws records hr _ ih =>
    have hid := id_of_mapRecord hr
    rw [List.filter_cons, List.filter_cons, hid]
    split
    · exact .cons hr ih
    · exact ih

theorem ids_of_mapM (h : raws.mapM RawRecord.mapRecord = .ok records) :
    records.map CloudflareRecord.id = raws.map RawRecord.id := by
  rw [mapM_eq_ok] at h
  induction h with
  | nil => rfl
  | cons hr _ ih => rw [List.map_cons, List.map_cons, ih, id_of_mapRecord hr]

variable {site : Site} {request : CloudflareBatchRequest} {zone : DnsZoneRef}
  {rs : ProviderDnsRecordSet} {before : List CloudflareRecord}

/-- The zone after a planned batch, as its records are decoded. -/
theorem Site.Performs.afterCommit (h : site.Performs request) (hplan : Plans zone rs before request)
    (htype : ∀ value ∈ rs.values, value.recordType = rs.key.recordType)
    (hstored : site.stored.mapM RawRecord.mapRecord = .ok before) :
    ∃ deleted posted after, decodeBatch site.deleted site.posted = .ok ⟨deleted, posted⟩ ∧
      site.after.mapM RawRecord.mapRecord = .ok after ∧
      deleted.Perm (before.filter fun record => record.id ∈ request.deletes) ∧
      posted.length = request.posts.length ∧
      AfterCommit zone rs request.deletes before posted after := by
  obtain ⟨deleted, hdeleted, hperm⟩ :=
    mapM_perm h.deleted (mapM_mapRecord_filter (· ∈ request.deletes) hstored)
  obtain ⟨posted, hposted, _, hvalues, hall⟩ :=
    mapM_mapRecord_of_reports htype hplan.posts h.posted
  have hkept : ((site.stored.filter fun raw => raw.id ∉ request.deletes) ++ site.posted).mapM
      RawRecord.mapRecord =
        .ok ((before.filter fun record => record.id ∉ request.deletes) ++ posted) := by
    rw [List.mapM_append, mapM_mapRecord_filter (· ∉ request.deletes) hstored, hposted]
    rfl
  obtain ⟨after, hafter, hperm'⟩ := mapM_perm h.after hkept
  refine ⟨deleted, posted, after, ?_, hafter, hperm, ?_, hplan.deletes_iff, hall, ?_, hperm', ?_⟩
  · simp [decodeBatch, hdeleted, hposted, orElse]
  · rw [length_of_mapM hposted, h.posted.length_eq]
  · rw [hvalues]
  · rw [ids_of_mapM hafter]
    exact h.fresh

variable [Sha256 (List CloudflareRecord)] {change : DnsRecordChange} {posted after : List CloudflareRecord}
  {deleted : List CloudflareRecord}

/-- The response to a batch that was performed passes its checks. -/
theorem validateBatchResult_of_performed (hc : Canonical zone rs) (hplan : Plans zone rs before request)
    (hdesired : change.desiredRecordSet = some rs) (hbefore : (before.map CloudflareRecord.id).Nodup)
    (hdeleted : deleted.Perm (before.filter fun record => record.id ∈ request.deletes))
    (hlength : posted.length = request.posts.length)
    (hafter : AfterCommit zone rs request.deletes before posted after) :
    validateBatchResult zone [change] request ⟨deleted, posted⟩ = .ok () := by
  obtain ⟨observed, hobserved, hrs⟩ := hafter.posted_observed hc
  have hids : (deleted.map CloudflareRecord.id).toFinset = request.deletes.toFinset := by
    ext id
    simp only [List.mem_toFinset, List.mem_map, hdeleted.mem_iff, List.mem_filter,
      decide_eq_true_eq]
    constructor
    · rintro ⟨record, ⟨_, hid⟩, rfl⟩
      exact hid
    · intro hid
      obtain ⟨record, hr, rfl⟩ := hplan.deletes_mem id hid
      exact ⟨record, ⟨hr, hid⟩, rfl⟩
  have hnodup : (deleted.map CloudflareRecord.id).Nodup := by
    rw [(hdeleted.map _).nodup_iff]
    exact hbefore.sublist (List.filter_sublist.map _)
  have hcard : deleted.length = request.deletes.toFinset.card := by
    rw [← hids, List.toFinset_card_of_nodup hnodup, List.length_map]
  simp only [validateBatchResult, bind_eq_ok, exists_unit, require_eq_ok, orElse_eq_ok, hobserved,
    Except.ok.injEq, exists_eq_left', desiredRecordSets, List.filterMap_cons, hdesired,
    List.filterMap_nil, List.map_cons, List.map_nil, hrs]
  refine ⟨⟨hcard, hids⟩, ⟨hlength, fun record hr => (hafter.posted_for record hr).id⟩, ?_⟩
  simp [sameByKey]

end Decoding

section Applying

variable [Sha256 (List CloudflareRecord)] {site : Site} {writer : CloudflareDnsSyncWriter}
  {zone : DnsZoneRef} {change : DnsRecordChange} {request : CloudflareBatchRequest}
  {r : DnsProviderResult CloudflareDnsSyncRecordOutcome}

/-- What the writer makes of the response to a batch and of the zone after it. -/
def Site.applied (site : Site) (writer : CloudflareDnsSyncWriter) (zone : DnsZoneRef)
    (change : DnsRecordChange) (request : CloudflareBatchRequest) :
    DnsProviderResult CloudflareDnsSyncRecordOutcome := do
  let result ← decodeResponse unknown site.batchBytes (decodeBatch site.deleted site.posted)
  validateBatchResult zone [change] request result
  let observed ← (site.read (writer.observeRecordSet zone change.key) (some request)).mapError
    fun _ => unknownOutcome "cloudflare_record_post_observation_failed"
  settle change.desiredRecordSet observed

/-- Once the batch is committed, the rest only reads. -/
theorem Site.run_applied : site.run (do
      let result : CloudflareBatchResult ← api (.batchRecords zone.zoneId.value request)
      validateBatchResult zone [change] request result
      let observed ← (writer.observeRecordSet zone change.key).adapt fun _ =>
        unknownOutcome "cloudflare_record_post_observation_failed"
      settle change.desiredRecordSet observed) none =
    (site.applied writer zone change request, some request) := by
  have hbatch : (api (.batchRecords zone.zoneId.value request)).run.exec apiCommit site.answer none =
      (decodeResponse unknown site.batchBytes (decodeBatch site.deleted site.posted),
        some request) := rfl
  unfold run applied
  rw [exec_run_bind, hbatch]
  cases decodeResponse unknown site.batchBytes (decodeBatch site.deleted site.posted) with
  | error e => rfl
  | ok result =>
    have hobserve : Reads ((writer.observeRecordSet zone change.key).adapt fun _ =>
        unknownOutcome "cloudflare_record_post_observation_failed") :=
      only_run_adapt (reads_observeRecordSet zone change.key)
    refine (run_of_reads ((reads_lift _).bind fun _ => hobserve.bind fun _ => reads_lift _)).trans ?_
    rw [read_lift_bind]
    simp only [read_bind hobserve, read_adapt, read_lift, ok_bind]

/-- A run that has committed a batch: what came before it was read from the zone as it was. -/
theorem Site.run_applyRecordChange
    (h : site.run (writer.applyRecordChange zone change) none = (r, some request)) :
    validateDnsChanges zone [change] = .ok () ∧
      ∃ current, site.read (writer.allRecords zone) none = .ok current ∧
        planBatch current [change] = .ok request ∧ r = site.applied writer zone change request := by
  have hne : some request ≠ none := by simp
  obtain ⟨_, _, h⟩ := exec_run_bind_of_ne h rfl hne
  obtain ⟨_, hvalid, h⟩ := exec_run_bind_of_ne h rfl hne
  have hreads : site.run (writer.allRecords zone) none = _ := run_of_reads (reads_allRecords zone)
  obtain ⟨current, hcurrent, h⟩ := exec_run_bind_of_ne h (congrArg Prod.snd hreads) hne
  obtain ⟨planned, hplan, h⟩ := exec_run_bind_of_ne h rfl hne
  obtain ⟨rfl, hplanned⟩ := Prod.mk.inj (run_applied.symm.trans h)
  cases hplanned
  have hsets := congrArg Prod.fst hcurrent
  refine ⟨?_, current, hsets, ?_, rfl⟩
  · simpa using congrArg Prod.fst hvalid
  · exact congrArg Prod.fst hplan

/-- What a performed batch leaves is the record set that was asked for, if it can be read again. -/
theorem Site.applied_of_performs {rs : ProviderDnsRecordSet} {current : List ObservedDnsRecordSet}
    (hp : site.Performs request) (hc : Canonical zone rs)
    (hdesired : change.desiredRecordSet = some rs)
    (hcurrent : site.read (writer.allRecords zone) none = .ok current)
    (hplan : planBatch current [change] = .ok request) :
    (site.Legible request → ∃ after sets observed, aggregateRecords zone after = .ok sets ∧
      observed ∈ sets ∧ observed.recordSet = rs ∧
        site.applied writer zone change request = .ok (.present observed)) ∧
    (¬ site.Legible request → ∃ e, site.applied writer zone change request = .error e ∧
      e.category = .unknownOutcome) := by
  obtain ⟨hserves, _, before, hstored, hbefore⟩ := read_allRecords.mp hcurrent
  have hplans := plans_of_planBatch hbefore hdesired hplan
  obtain ⟨deleted, posted, after, hdecode, hafter, hdeleted, hlength, hcommit⟩ :=
    hp.afterCommit hplans hc.values.2.2 hstored
  obtain ⟨sets, observed, hsets, hfind, hrs⟩ := hcommit.observed hc hbefore
  have hkeyed := (aggregateRecords_inventory hbefore).1
  have hresult : validateBatchResult zone [change] request ⟨deleted, posted⟩ = .ok () :=
    validateBatchResult_of_performed hc hplans hdesired hkeyed.distinct hdeleted hlength hcommit
  have hkey : rs.key.validate = .ok () := by
    have hvalid := hc.valid
    simp only [ProviderDnsRecordSet.validate, bind_eq_ok, exists_unit] at hvalid
    exact hvalid.2.1
  have hread : ∀ found, site.read (writer.observeRecordSet zone rs.key) (some request) = .ok found ↔
      site.Lists (some request) ∧ some observed = found := by
    intro found
    simp only [read_observeRecordSet, read_allRecords, records, hafter, Except.ok.injEq,
      exists_eq_left', hsets, hkey, hserves, true_and, and_assoc, hfind, exists_and_left]
  rw [applied, hdecode]
  constructor
  · rintro ⟨hbytes, hlists⟩
    refine ⟨after, sets, observed, hsets, List.mem_of_find?_eq_some hfind, hrs, ?_⟩
    rw [decodeResponse_eq_ok.mpr ⟨hbytes, rfl⟩, ok_bind, hresult, ok_bind,
      key_of_desiredRecordSet hdesired, hdesired, (hread (some observed)).mpr ⟨hlists, rfl⟩]
    simp [Except.mapError, settle, hrs]
  · intro hlegible
    by_cases hbytes : site.batchBytes ≤ maxResponseBytes
    · rw [decodeResponse_eq_ok.mpr ⟨hbytes, rfl⟩, ok_bind, hresult, ok_bind,
        key_of_desiredRecordSet hdesired, hdesired]
      cases ho : site.read (writer.observeRecordSet zone rs.key) (some request) with
      | ok found => exact absurd ⟨hbytes, ((hread found).mp ho).1⟩ hlegible
      | error e => exact ⟨_, rfl, rfl⟩
    · rw [decodeResponse, require, if_neg hbytes]
      exact ⟨_, rfl, rfl⟩

end Applying

end EdgionCenter.Cloudflare
