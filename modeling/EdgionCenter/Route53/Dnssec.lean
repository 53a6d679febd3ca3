import EdgionCenter.Cloud.ZoneLifecycle
import EdgionCenter.Lib.Sorting
import EdgionCenter.Route53.Record
import Mathlib.Data.Prod.Lex
import Mathlib.Data.String.Basic
import Mathlib.Order.WithBot

/-! How the Route 53 adapter reads the signing state of a hosted zone, and the revision it gives to
what it has read. -/
namespace EdgionCenter.Route53

open Fallible Sorting

structure Route53HostedZone where
  id : String
  name : String
  privateZone : Bool
  callerReference : String
  resourceRecordSetCount : UInt64
  nameServers : List String
  hasLinkedService : Bool
  hasUnsupportedFeatures : Bool
  deriving DecidableEq

structure Route53KeySigningKey where
  status : String
  dsRecord : Option String
  deriving DecidableEq

structure Route53DnssecInfo where
  serveSignature : String
  keySigningKeys : List Route53KeySigningKey
  deriving DecidableEq

/-! ### Revisions -/

/-- A key without a DS record comes before one with a record. -/
def Route53KeySigningKey.sortKey (key : Route53KeySigningKey) : String ×ₗ WithBot String :=
  toLex (key.status, key.dsRecord)

def Route53HostedZone.canonical (zone : Route53HostedZone) : Route53HostedZone :=
  { zone with nameServers := sortOn (fun server => server) zone.nameServers }

def Route53DnssecInfo.canonical (info : Route53DnssecInfo) : Route53DnssecInfo :=
  { info with keySigningKeys := sortOn Route53KeySigningKey.sortKey info.keySigningKeys }

def lifecycleRevision [Sha256Base64 (Route53HostedZone × Option Route53DnssecInfo)]
    (zone : Route53HostedZone) (dnssec : Option Route53DnssecInfo) :
    DnsProviderResult ZoneLifecycleRevision :=
  orElse (validation "invalid_route53_lifecycle_revision")
    (LifecycleId.new _ (Sha256Base64.text (zone.canonical, dnssec.map Route53DnssecInfo.canonical)))

/-! ### Observations -/

/-- `map_err` to the one code of a DS record that cannot be read. -/
def invalidDs : String := "invalid_route53_dnssec_ds_record"

/-- The record that four words make. -/
def dsRecordOf : List String → DnsProviderResult DnssecDsRecord
  | [keyTag, algorithm, digestType, digest] => do
    let keyTag ← parseU16 keyTag invalidDs
    let algorithm ← parseU8 algorithm invalidDs
    let digestType ← parseU8 digestType invalidDs
    return ⟨keyTag, algorithm, digestType, asciiUpper digest⟩
  | _ => .error (validation invalidDs)

def parseDsRecord (value : String) : DnsProviderResult DnssecDsRecord := do
  let parts ← fields value 4 invalidDs
  let record ← dsRecordOf parts
  orElse (validation invalidDs) record.validate
  return record

/-- Whether the key is in a failed state. -/
def keyFailed (status : String) : DnsProviderResult Bool :=
  if status = "ACTIVE" ∨ status = "INACTIVE" ∨ status = "DELETING" then .ok false
  else if status = "ACTION_NEEDED" ∨ status = "INTERNAL_FAILURE" then .ok true
  else .error (validation "unsupported_route53_dnssec_ksk_status")

/-- What the loop over the keys takes from one of them. -/
structure KeyReading where
  failed : Bool
  active : Bool
  record : Option DnssecDsRecord
  deriving DecidableEq

def readDsRecord : Option String → DnsProviderResult (Option DnssecDsRecord)
  | some ds => some <$> parseDsRecord ds
  | none => .ok none

def readKey (key : Route53KeySigningKey) : DnsProviderResult KeyReading := do
  let failed ← keyFailed key.status
  let record ← readDsRecord key.dsRecord
  return ⟨failed, key.status = "ACTIVE", record⟩

/-- The state and the action for keys none of which has failed. -/
def signingState (serveSignature : String) (records activeRecords : List DnssecDsRecord) :
    DnsProviderResult (DnssecProviderState × DnssecExternalAction) :=
  if serveSignature = "NOT_SIGNING" then
    if records = [] then .ok (.disabled, .none)
    else .ok (.awaitingDsRemoval, .removeDs (records.map DnssecDsRecord.keyTag).toFinset)
  else if serveSignature = "SIGNING" then
    if activeRecords = [] then .ok (.enabling, .waitForProviderActivation)
    else .ok (.awaitingDs, .publishDs activeRecords)
  else if serveSignature = "DELETING" then
    if records = [] then .ok (.disabling, .waitForProviderActivation)
    else .ok (.awaitingDsRemoval, .removeDs (records.map DnssecDsRecord.keyTag).toFinset)
  else .error (validation "unsupported_route53_dnssec_signing_status")

def observation (serveSignature : String) (failed : Bool)
    (records activeRecords : List DnssecDsRecord) : DnsProviderResult DnssecObservation :=
  if failed then .ok ⟨.failed, records, .none, some "ksk_action_required"⟩
  else do
    let signing ← signingState serveSignature records activeRecords
    return ⟨signing.1, records, signing.2, some (asciiLower serveSignature)⟩

/-- `sort_by_key` by the key tag, and `dedup`. -/
def canonicalRecords (records : List DnssecDsRecord) : List DnssecDsRecord :=
  sortDedup (fun record => record.keyTag.toNat) records

def mapDnssecObservation (value : Route53DnssecInfo) : DnsProviderResult DnssecObservation := do
  let readings ← value.keySigningKeys.mapM readKey
  observation value.serveSignature (readings.any KeyReading.failed)
    (canonicalRecords (readings.filterMap KeyReading.record))
    (canonicalRecords ((readings.filter KeyReading.active).filterMap KeyReading.record))

theorem mapDnssecObservation_eq_ok {value : Route53DnssecInfo} {o : DnssecObservation} :
    mapDnssecObservation value = .ok o ↔
      ∃ readings, value.keySigningKeys.mapM readKey = .ok readings ∧
        observation value.serveSignature (readings.any KeyReading.failed)
          (canonicalRecords (readings.filterMap KeyReading.record))
          (canonicalRecords ((readings.filter KeyReading.active).filterMap KeyReading.record)) =
        .ok o :=
  bind_eq_ok

section Observation

variable {serveSignature : String} {failed : Bool} {records activeRecords : List DnssecDsRecord}

theorem published_of_signingState {signing : DnssecProviderState × DnssecExternalAction}
    {published : List DnssecDsRecord}
    (h : signingState serveSignature records activeRecords = .ok signing)
    (hpublish : signing.2 = .publishDs published) : published = activeRecords := by
  unfold signingState at h
  split_ifs at h <;> cases h <;> cases hpublish
  rfl

theorem records_of_observation {o : DnssecObservation}
    (h : observation serveSignature failed records activeRecords = .ok o) : o.dsRecords = records ∧
      ∀ published, o.externalAction = .publishDs published → published = activeRecords := by
  unfold observation at h
  split_ifs at h with hfailed
  · cases h
    refine ⟨rfl, ?_⟩
    intro published hpublish
    cases hpublish
  · simp only [bind_eq_ok, pure_eq_ok] at h
    obtain ⟨signing, hsigning, rfl⟩ := h
    exact ⟨rfl, fun _ hpublish => published_of_signingState hsigning hpublish⟩

/-- Whether the signing status is a known one does not depend on the records. -/
theorem observation_error {e : NormalizedProviderError} {records' activeRecords' : List DnssecDsRecord}
    (h : observation serveSignature failed records activeRecords = .error e) :
    observation serveSignature failed records' activeRecords' = .error e := by
  unfold observation signingState at h ⊢
  split_ifs at h ⊢ <;> first | exact h | cases h

/-- The signing status is a known one, or a failed key hides it. -/
def Observable (serveSignature : String) (failed : Bool) : Prop :=
  failed = true ∨ serveSignature = "NOT_SIGNING" ∨ serveSignature = "SIGNING" ∨
    serveSignature = "DELETING"

theorem observation_ok_iff :
    (∃ o, observation serveSignature failed records activeRecords = .ok o) ↔
      Observable serveSignature failed := by
  unfold observation signingState Observable
  split_ifs <;> simp_all [pure, Except.pure]

end Observation

/-! ### The order of the keys -/

/-- The keys that cannot be read are refused for one reason. -/
def FaultsAgree (keys : List Route53KeySigningKey) : Prop :=
  ∀ key ∈ keys, ∀ other ∈ keys, ∀ e e',
    readKey key = .error e → readKey other = .error e' → e = e'

/-- A key tag stands for one record. -/
def TagsIdentify (records : List DnssecDsRecord) : Prop :=
  ∀ r ∈ records, ∀ r' ∈ records, r.keyTag = r'.keyTag → r = r'

/-- The same keys, listed in another order. -/
def Route53DnssecInfo.Reorders (value' value : Route53DnssecInfo) : Prop :=
  value'.serveSignature = value.serveSignature ∧ value'.keySigningKeys.Perm value.keySigningKeys

/-- The same name servers, listed in another order. -/
def Route53HostedZone.Reorders (zone' zone : Route53HostedZone) : Prop :=
  ∃ servers, servers.Perm zone.nameServers ∧ zone' = { zone with nameServers := servers }

section Order

variable {value value' : Route53DnssecInfo} {o : DnssecObservation}

theorem mapDnssecObservation_of_readings {readings : List KeyReading}
    (h : value.keySigningKeys.mapM readKey = .ok readings) :
    mapDnssecObservation value = observation value.serveSignature (readings.any KeyReading.failed)
      (canonicalRecords (readings.filterMap KeyReading.record))
      (canonicalRecords ((readings.filter KeyReading.active).filterMap KeyReading.record)) := by
  rw [mapDnssecObservation, h, ok_bind]

variable {e : NormalizedProviderError} {records' : List DnssecDsRecord} {r : DnssecDsRecord}

theorem mapDnssecObservation_of_fault (h : value.keySigningKeys.mapM readKey = .error e) :
    mapDnssecObservation value = .error e := by
  rw [mapDnssecObservation, h]
  rfl

theorem sortDedup_of_tags {records : List DnssecDsRecord} (htags : TagsIdentify records)
    (hperm : records.Perm records') :
    canonicalRecords records = canonicalRecords records' ∧ (canonicalRecords records).Nodup := by
  have hkeys : ∀ r ∈ records, ∀ r' ∈ records, r.keyTag.toNat = r'.keyTag.toNat → r = r' :=
    fun r hr r' hr' h => htags r hr r' hr' (UInt16.toNat_inj.mp h)
  exact ⟨sortDedup_eq_of_perm hkeys hperm, nodup_sortDedup hkeys⟩

theorem TagsIdentify.mono {records : List DnssecDsRecord} (h : TagsIdentify records)
    (hsub : ∀ r ∈ records', r ∈ records) : TagsIdentify records' :=
  fun r hr r' hr' => h r (hsub r hr) r' (hsub r' hr')

theorem mem_active {readings : List KeyReading}
    (h : r ∈ (readings.filter KeyReading.active).filterMap KeyReading.record) :
    r ∈ readings.filterMap KeyReading.record := by
  obtain ⟨reading, hreading, hr⟩ := List.mem_filterMap.mp h
  exact List.mem_filterMap.mpr ⟨reading, (List.mem_filter.mp hreading).1, hr⟩

theorem any_failed {readings readings' : List KeyReading} (hperm : readings'.Perm readings) :
    readings'.any KeyReading.failed = readings.any KeyReading.failed := by
  rw [Bool.eq_iff_iff, List.any_eq_true, List.any_eq_true]
  simp only [hperm.mem_iff]

/-- Keys that can all be read give the same observation in any order, if tags identify records. -/
theorem observation_reorders (hreorders : value'.Reorders value) {readings : List KeyReading}
    (h : value.keySigningKeys.mapM readKey = .ok readings)
    (htags : TagsIdentify (readings.filterMap KeyReading.record)) :
    mapDnssecObservation value' = mapDnssecObservation value := by
  obtain ⟨readings', h', hperm⟩ := mapM_perm hreorders.2 h
  rw [mapDnssecObservation_of_readings h, mapDnssecObservation_of_readings h', hreorders.1,
    any_failed hperm,
    (sortDedup_of_tags htags (hperm.filterMap _).symm).1,
    (sortDedup_of_tags (htags.mono fun _ => mem_active) ((hperm.filter _).filterMap _).symm).1]

/-- A key that stands first has the first record of its tag. -/
theorem find?_dsRecords {key : Route53KeySigningKey} {keys : List Route53KeySigningKey}
    {reading : KeyReading} (hkeys : value.keySigningKeys = key :: keys)
    (h : mapDnssecObservation value = .ok o) (hkey : readKey key = .ok reading)
    (hr : reading.record = some r) :
    o.dsRecords.find? (fun r' => r'.keyTag.toNat = r.keyTag.toNat) = some r := by
  obtain ⟨readings, hreadings, ho⟩ := mapDnssecObservation_eq_ok.mp h
  rw [hkeys, List.mapM_cons, hkey] at hreadings
  simp only [ok_bind, bind_eq_ok, pure_eq_ok] at hreadings
  obtain ⟨rest, -, rfl⟩ := hreadings
  rw [(records_of_observation ho).1, canonicalRecords, find?_sortDedup,
    List.filterMap_cons_some hr, List.find?_cons_of_pos]
  simp

/-- If the order does not matter, a tag stands for one record: each of two records of one tag
would be the first one, with its key in front. -/
theorem tagsIdentify_of_reorders (h : ∀ value' : Route53DnssecInfo, value'.Reorders value →
      mapDnssecObservation value' = mapDnssecObservation value)
    (ho : mapDnssecObservation value = .ok o) : TagsIdentify o.dsRecords := by
  obtain ⟨readings, hreadings, hobs⟩ := mapDnssecObservation_eq_ok.mp ho
  have hfirst : ∀ r ∈ o.dsRecords,
      o.dsRecords.find? (fun r' => r'.keyTag.toNat = r.keyTag.toNat) = some r := by
    intro r hr
    rw [(records_of_observation hobs).1, canonicalRecords, mem_sortDedup] at hr
    obtain ⟨reading, hreading, hrecord⟩ := List.mem_filterMap.mp hr
    obtain ⟨key, hkey, hread⟩ := exists_of_forall₂ (mapM_eq_ok.mp hreadings) hreading
    have hperm := (List.perm_cons_erase hkey).symm
    have hsame := h ⟨value.serveSignature, key :: value.keySigningKeys.erase key⟩ ⟨rfl, hperm⟩
    exact find?_dsRecords rfl (hsame.trans ho) hread hrecord
  intro r hr r' hr' htag
  have hr := hfirst r hr
  rw [htag, hfirst r' hr', Option.some.injEq] at hr
  exact hr.symm

theorem TagsIdentify.readings {readings : List KeyReading} (htags : TagsIdentify o.dsRecords)
    (hreadings : value.keySigningKeys.mapM readKey = .ok readings)
    (ho : mapDnssecObservation value = .ok o) :
    TagsIdentify (readings.filterMap KeyReading.record) := by
  rw [mapDnssecObservation_of_readings hreadings] at ho
  refine htags.mono ?_
  intro r hr
  rwa [(records_of_observation ho).1, canonicalRecords, mem_sortDedup]

theorem records_nodup {readings : List KeyReading}
    (hreadings : value.keySigningKeys.mapM readKey = .ok readings)
    (htags : TagsIdentify (readings.filterMap KeyReading.record))
    (ho : mapDnssecObservation value = .ok o) : o.dsRecords.Nodup ∧
      ∀ published, o.externalAction = .publishDs published → published.Nodup := by
  rw [mapDnssecObservation_of_readings hreadings] at ho
  obtain ⟨hrecords, hpublished⟩ := records_of_observation ho
  refine ⟨hrecords ▸ (sortDedup_of_tags htags (.refl _)).2, ?_⟩
  intro published hpublish
  rw [hpublished published hpublish]
  exact (sortDedup_of_tags (htags.mono fun _ => mem_active) (.refl _)).2

theorem faultsAgree_of_reorders (h : ∀ value' : Route53DnssecInfo, value'.Reorders value →
      mapDnssecObservation value' = mapDnssecObservation value) :
    FaultsAgree value.keySigningKeys := by
  have hfault : ∀ key ∈ value.keySigningKeys, ∀ e, readKey key = .error e →
      mapDnssecObservation value = .error e := by
    intro key hkey e he
    have hperm := (List.perm_cons_erase hkey).symm
    rw [← h ⟨value.serveSignature, key :: value.keySigningKeys.erase key⟩ ⟨rfl, hperm⟩]
    exact mapDnssecObservation_of_fault (mapM_cons_error he)
  intro key hkey other hother e e' he he'
  have heq := (hfault key hkey e he).symm.trans (hfault other hother e' he')
  exact Except.error.inj heq

/-- Keys of which some cannot be read are refused alike in any order, if all faults agree. -/
theorem fault_reorders (hreorders : value'.Reorders value)
    (h : value.keySigningKeys.mapM readKey = .error e) (hfaults : FaultsAgree value.keySigningKeys) :
    mapDnssecObservation value' = mapDnssecObservation value := by
  rw [mapDnssecObservation_of_fault h]
  obtain ⟨key, hkey, he⟩ := exists_of_mapM_error h
  cases h' : value'.keySigningKeys.mapM readKey with
  | ok readings =>
    obtain ⟨_, hok, -⟩ := mapM_perm hreorders.2.symm h'
    rw [h] at hok
    cases hok
  | error e' =>
    obtain ⟨key', hkey', he'⟩ := exists_of_mapM_error h'
    rw [mapDnssecObservation_of_fault h',
      hfaults key' (hreorders.2.mem_iff.mp hkey') key hkey e' e he' he]

theorem sortKey_injective : Function.Injective Route53KeySigningKey.sortKey := by
  rintro ⟨status, ds⟩ ⟨status', ds'⟩ h
  have hpair : (status, ds) = (status', ds') := toLex.injective h
  cases hpair
  rfl

theorem canonical_reorders (hreorders : value'.Reorders value) :
    value'.canonical = value.canonical := by
  obtain ⟨hsignature, hperm⟩ := hreorders
  unfold Route53DnssecInfo.canonical
  rw [sortOn_eq_of_injOn hperm fun _ _ _ _ heq => sortKey_injective heq, hsignature]

theorem lifecycleRevision_reorders
    [Sha256Base64 (Route53HostedZone × Option Route53DnssecInfo)] {zone zone' : Route53HostedZone}
    (hzone : zone'.Reorders zone) (hreorders : value'.Reorders value) :
    lifecycleRevision zone' (some value') = lifecycleRevision zone (some value) := by
  obtain ⟨servers, hperm, rfl⟩ := hzone
  have hservers : sortOn (fun server => server) servers =
      sortOn (fun server => server) zone.nameServers :=
    sortOn_eq_of_injOn hperm fun _ _ _ _ heq => heq
  have hcanonical : Route53HostedZone.canonical { zone with nameServers := servers } =
      zone.canonical := by
    simp only [Route53HostedZone.canonical, hservers]
  unfold lifecycleRevision
  rw [hcanonical, Option.map_some, Option.map_some, canonical_reorders hreorders]

/-- Neither the observation nor the revision depends on the order of the keys, and no record is
listed twice. -/
structure KeyOrderFree [Sha256Base64 (Route53HostedZone × Option Route53DnssecInfo)]
    (value : Route53DnssecInfo) : Prop where
  observation : ∀ value' : Route53DnssecInfo, value'.Reorders value →
    mapDnssecObservation value' = mapDnssecObservation value
  revision : ∀ (value' : Route53DnssecInfo) (zone zone' : Route53HostedZone),
    value'.Reorders value → zone'.Reorders zone →
    lifecycleRevision zone' (some value') = lifecycleRevision zone (some value)
  records : ∀ o, mapDnssecObservation value = .ok o → o.dsRecords.Nodup
  published : ∀ o published, mapDnssecObservation value = .ok o →
    o.externalAction = .publishDs published → published.Nodup

end Order

/-- The order of the keys does not matter exactly if the keys that cannot be read are refused for one
reason and, where all can be read and the signing status is known, a key tag stands for one of their
records. -/
theorem dnssec_key_order [Sha256Base64 (Route53HostedZone × Option Route53DnssecInfo)]
    (value : Route53DnssecInfo) : KeyOrderFree value ↔ FaultsAgree value.keySigningKeys ∧
      ∀ readings, value.keySigningKeys.mapM readKey = .ok readings →
        Observable value.serveSignature (readings.any KeyReading.failed) →
        TagsIdentify (readings.filterMap KeyReading.record) := by
  constructor
  · intro h
    refine ⟨faultsAgree_of_reorders h.observation, fun readings hreadings hobservable => ?_⟩
    obtain ⟨o, ho⟩ := observation_ok_iff.mpr hobservable
    rw [← mapDnssecObservation_of_readings hreadings] at ho
    exact (tagsIdentify_of_reorders h.observation ho).readings hreadings ho
  · rintro ⟨hfaults, htags⟩
    have hnodup : ∀ o, mapDnssecObservation value = .ok o → o.dsRecords.Nodup ∧
        ∀ published, o.externalAction = .publishDs published → published.Nodup := by
      intro o ho
      obtain ⟨readings, hreadings, hobs⟩ := mapDnssecObservation_eq_ok.mp ho
      have hobservable := observation_ok_iff.mp ⟨o, hobs⟩
      exact records_nodup hreadings (htags readings hreadings hobservable) ho
    refine ⟨fun value' hreorders => ?_, fun value' zone zone' hvalue hzone =>
      lifecycleRevision_reorders hzone hvalue, fun o ho => (hnodup o ho).1,
      fun o published ho => (hnodup o ho).2 published⟩
    cases hreadings : value.keySigningKeys.mapM readKey with
    | error e => exact fault_reorders hreorders hreadings hfaults
    | ok readings =>
      cases ho : mapDnssecObservation value with
      | ok o =>
        rw [← ho]
        rw [mapDnssecObservation_of_readings hreadings] at ho
        exact observation_reorders hreorders hreadings
          (htags readings hreadings (observation_ok_iff.mp ⟨o, ho⟩))
      | error e =>
        -- The signing status is not a known one.
        obtain ⟨readings', hreadings', hperm⟩ := mapM_perm hreorders.2 hreadings
        rw [mapDnssecObservation_of_readings hreadings] at ho
        rw [mapDnssecObservation_of_readings hreadings', hreorders.1, any_failed hperm]
        exact observation_error ho

/-! Two active keys of a zone whose records share a key tag. -/

def zeroDigestDs : String := "7 13 1 0000000000000000000000000000000000000000"
def oneDigestDs : String := "7 13 1 1111111111111111111111111111111111111111"

def activeKeys (ds : List String) : Route53DnssecInfo :=
  ⟨"SIGNING", ds.map fun text => ⟨"ACTIVE", some text⟩⟩

def zeroDigestRecord : DnssecDsRecord := ⟨7, 13, 1, "0000000000000000000000000000000000000000"⟩
def oneDigestRecord : DnssecDsRecord := ⟨7, 13, 1, "1111111111111111111111111111111111111111"⟩

theorem parse_zeroDigestDs : parseDsRecord zeroDigestDs = .ok zeroDigestRecord := by decide +kernel

theorem parse_oneDigestDs : parseDsRecord oneDigestDs = .ok oneDigestRecord := by decide +kernel

theorem readKey_active {ds : String} {record : DnssecDsRecord} (h : parseDsRecord ds = .ok record) :
    readKey ⟨"ACTIVE", some ds⟩ = .ok ⟨false, true, some record⟩ := by
  rw [readKey, readDsRecord, h]
  rfl

/-- The observation of active keys, by their records. -/
theorem mapDnssecObservation_activeKeys {ds : List String} {records : List DnssecDsRecord}
    (h : List.Forall₂ (fun text record => parseDsRecord text = .ok record) ds records)
    (hne : records ≠ []) (hsorted : records.Pairwise fun r r' => r.keyTag.toNat ≤ r'.keyTag.toNat) :
    mapDnssecObservation (activeKeys ds) =
      .ok ⟨.awaitingDs, records.destutter (· ≠ ·), .publishDs (records.destutter (· ≠ ·)),
        some "signing"⟩ := by
  have hreadings : (activeKeys ds).keySigningKeys.mapM readKey =
      .ok (records.map fun record => ⟨false, true, some record⟩) := by
    rw [mapM_eq_ok, activeKeys, List.forall₂_map_left_iff, List.forall₂_map_right_iff]
    exact h.imp fun _ _ => readKey_active
  have hrecords : canonicalRecords records = records.destutter (· ≠ ·) := by
    rw [canonicalRecords, sortDedup, sortOn_of_pairwise hsorted]
  have hall : (records.map fun record => (⟨false, true, some record⟩ : KeyReading)).filterMap
      KeyReading.record = records := by
    rw [List.filterMap_map]
    exact List.filterMap_some
  have hactive : (records.map fun record => (⟨false, true, some record⟩ : KeyReading)).filter
      KeyReading.active = records.map fun record => ⟨false, true, some record⟩ := by
    rw [List.filter_eq_self]
    simp
  have hfailed : (records.map fun record => (⟨false, true, some record⟩ : KeyReading)).any
      KeyReading.failed = false := by
    simp
  rw [mapDnssecObservation_of_readings hreadings, hactive, hall, hfailed, hrecords]
  have hkept : records.destutter (· ≠ ·) ≠ [] := by simpa using hne
  simp only [observation, signingState, activeKeys, hkept]
  rfl

def otherTagDs : String := "8 13 1 1111111111111111111111111111111111111111"
def otherTagRecord : DnssecDsRecord := ⟨8, 13, 1, "1111111111111111111111111111111111111111"⟩

/-- The order of two keys with different tags does not matter. -/
theorem two_tags_order_free :
    @KeyOrderFree (sameDigest _) (activeKeys [zeroDigestDs, otherTagDs]) := by
  let _ := sameDigest (Route53HostedZone × Option Route53DnssecInfo)
  have hother : parseDsRecord otherTagDs = .ok otherTagRecord := by
    decide +kernel
  have hzero := readKey_active parse_zeroDigestDs
  have hreadings : (activeKeys [zeroDigestDs, otherTagDs]).keySigningKeys.mapM readKey =
      .ok [⟨false, true, some zeroDigestRecord⟩, ⟨false, true, some otherTagRecord⟩] := by
    exact mapM_eq_ok.mpr (.cons hzero (.cons (readKey_active hother) .nil))
  refine (dnssec_key_order _).mpr ⟨?_, fun readings h _ => ?_⟩
  · intro key hkey other _ e e' he
    obtain ⟨reading, hread⟩ : ∃ reading, readKey key = .ok reading := by
      rcases List.mem_pair.mp hkey with rfl | rfl
      · exact ⟨_, hzero⟩
      · exact ⟨_, readKey_active hother⟩
    rw [hread] at he
    cases he
  · cases hreadings.symm.trans h
    unfold TagsIdentify
    decide

theorem reordered_keys :
    (activeKeys [oneDigestDs, zeroDigestDs]).Reorders (activeKeys [zeroDigestDs, oneDigestDs]) ∧
      mapDnssecObservation (activeKeys [oneDigestDs, zeroDigestDs]) ≠
        mapDnssecObservation (activeKeys [zeroDigestDs, oneDigestDs]) ∧
      ∃ o, mapDnssecObservation (activeKeys [zeroDigestDs, oneDigestDs, zeroDigestDs]) = .ok o ∧
        ¬ o.dsRecords.Nodup := by
  have hzero := parse_zeroDigestDs
  have hone := parse_oneDigestDs
  refine ⟨⟨rfl, List.Perm.swap _ _ _⟩, ?_, ?_⟩
  · rw [mapDnssecObservation_activeKeys (.cons hone (.cons hzero .nil)) (by simp) (by decide),
      mapDnssecObservation_activeKeys (.cons hzero (.cons hone .nil)) (by simp) (by decide)]
    decide
  · refine ⟨_, mapDnssecObservation_activeKeys (.cons hzero (.cons hone (.cons hzero .nil))) (by simp)
      (by decide), ?_⟩
    decide

end EdgionCenter.Route53
